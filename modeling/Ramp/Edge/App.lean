import Ramp.Data.Digits
import Ramp.Program.Basic

/-! The edge worker's catch-all route: unsigned reads pass the bot gate, signed requests pass
the URL check, the method gate and the proof of possession, and what is let through goes to
the origin or back to the CDN. -/

namespace Ramp.Edge

/-- A parsed URL. `base` is all that precedes the path. The parameters are kept next to the
query that they were read from. -/
structure Url where
  base : String
  origin : String
  pathname : String
  query : Option String
  searchParams : List (String × String)
  hash : String
  deriving DecidableEq

/-- The URL functions of the platform, the path that the router reads off a URL and the hash.
A text that is no URL has no parse. -/
structure Web where
  newURL : String → Option Url
  resolve : String → String → Option String
  href : Url → String
  encodeParams : List (String × String) → String
  path : String → String
  sha256 : String → List UInt8

namespace Url

def has (u : Url) (name : String) : Bool := u.searchParams.any fun p => p.1 = name

def get (u : Url) (name : String) : Option String := u.searchParams.lookup name

def delete (web : Web) (u : Url) (name : String) : Url :=
  let searchParams := u.searchParams.filter fun p => p.1 ≠ name
  let text := web.encodeParams searchParams
  { u with searchParams, query := if text = "" then none else some text }

def withPathAndSearch (u incoming : Url) : Url :=
  { u with
    pathname := incoming.pathname
    query := if incoming.query = some "" then none else incoming.query
    searchParams := incoming.searchParams }

end Url

structure Request where
  url : String
  method : String
  headers : List (String × String)
  body : Option String

def Request.header (req : Request) (name : String) : Option String := req.headers.lookup name

inductive Body
  | empty
  | json (fields : List (String × String))
  | stream (content : String)

structure Response where
  status : Nat
  headers : List (String × String)
  body : Body

structure OriginRequest where
  url : String
  method : String
  headers : List (String × String)
  body : Option String
  deriving DecidableEq

structure OriginResponse where
  status : Nat
  headers : List (String × String)
  content : String

structure VerifyResult where
  valid : Bool
  expired : Bool := false
  reason : Option String := none
  kid : Option String := none
  agentId : Option String := none

structure PopInput where
  url : String
  method : String
  headers : List (String × String)
  agentId : String
  deriving DecidableEq

structure PopResult where
  ok : Bool
  reason : Option String := none

inductive LogLevel
  | info
  | warn
  | error
  deriving DecidableEq

inductive Op
  | randomUUID
  | verify (rawUrl : String)
  | verifyBinding (input : PopInput)
  | fetch (request : OriginRequest)
  | logRecord (level : LogLevel) (event : String) (fields : List (String × String))
  deriving DecidableEq

abbrev Res : Op → Type
  | .randomUUID => String
  | .verify _ => Except String VerifyResult
  | .verifyBinding _ => Except String PopResult
  | .fetch _ => Except String OriginResponse
  | .logRecord _ _ _ => Unit

abbrev Svc := ExceptT String (Prog Op Res)

abbrev ask (op : Op) : Svc (Res op) := Ramp.ask op

structure BotSignal where
  verifiedSearchCrawler : Bool := false
  verifiedAiCrawler : Bool := false

inductive ClientClass
  | human
  | searchCrawler
  | aiBot
  deriving DecidableEq

/-- The configuration of a deployment. A pattern is the test of a regular expression; the
lists are those that are in effect. -/
structure AppDeps where
  enforceBinding : Option Bool
  originUrl : Option String
  sameZoneOrigin : Bool
  exchangeUrl : Option String
  botSignal : Request → Option BotSignal
  botAllowPatterns : List (String → Bool)
  botDenyPatterns : List (String → Bool)

def maxUaMatchLength : Nat := 512

def classifyClient (userAgent : Option String) (signal : Option BotSignal)
    (allow deny : List (String → Bool)) : ClientClass :=
  if signal.any BotSignal.verifiedSearchCrawler then .searchCrawler
  else if signal.any BotSignal.verifiedAiCrawler then .aiBot
  else match userAgent with
    | none | some "" => .aiBot
    | some userAgent =>
      let ua := String.ofList (userAgent.toList.take maxUaMatchLength)
      if allow.any (· ua) then .searchCrawler
      else if deny.any (· ua) then .aiBot
      else .human

def isReadMethod (method : String) : Bool := method = "GET" ∨ method = "HEAD"

def wellKnownPath : String := "/.well-known/ramp.json"

def cdnAuthorizedHeader : String := "x-edge-authorized"

def deliveryEvent : String := "edge.deliver.authorized"

def signatureParams : List String := ["exp", "sig", "kid", "agent_id"]

structure DeliveryFacts where
  kid : Option String
  agentId : Option String

inductive Outcome
  | originForwarded
  | sameZone
  | cdnOriginFetch
  deriving DecidableEq

def Outcome.text : Outcome → String
  | .originForwarded => "origin-forwarded"
  | .sameZone => "same-zone"
  | .cdnOriginFetch => "cdn-origin-fetch"

structure Context where
  req : Request
  requestId : String

def rejection (status : Nat) (error reason : String) (headers : List (String × String)) :
    Response :=
  ⟨status, headers, .json [("error", error), ("reason", reason)]⟩

structure Worker where
  web : Web
  deps : AppDeps

namespace Worker

variable (w : Worker)

def newURL (text : String) : Svc Url :=
  match w.web.newURL text with
  | some u => pure u
  | none => throw "Invalid URL"

def sha256Hex (value : String) : String := hexText (w.web.sha256 value)

def recordFields (c : Context) (extra : List (String × String)) : List (String × String) :=
  extra ++ [("method", c.req.method), ("path", w.web.path c.req.url), ("request_id", c.requestId)]

def logEvent (c : Context) (level : LogLevel) (event : String) (extra : List (String × String)) :
    Svc Unit :=
  ask (.logRecord level event (w.recordFields c extra))

def logDeny (c : Context) (event reason : String) : Svc Unit :=
  w.logEvent c .warn event [("reason", reason)]

def deliveryFields (c : Context) (facts : DeliveryFacts) (outcome : Outcome)
    (originStatus : Option Nat) : List (String × String) :=
  [("url_hash", w.sha256Hex c.req.url), ("outcome", outcome.text)] ++
    (facts.kid.map fun kid => ("kid", kid)).toList ++
    (facts.agentId.map fun agentId => ("agent_id", agentId)).toList ++
    (originStatus.map fun status => ("origin_status", toString status)).toList

def logDelivery (c : Context) (facts : DeliveryFacts) (outcome : Outcome)
    (originStatus : Option Nat) : Svc Unit :=
  w.logEvent c .info deliveryEvent (w.deliveryFields c facts outcome originStatus)

def bindingWillRun (url : Url) : Bool :=
  (url.get "agent_id").any (· ≠ "") ∧ w.deps.enforceBinding = some true

def denySignedNonRead (c : Context) : Svc Response := do
  w.logDeny c "edge.deny.method" "method_not_bound"
  pure (rejection 405 "Signed URLs authorize content reads only" "method_not_bound"
    [("Allow", "GET, HEAD")])

def handlePopResult (c : Context) (pop : PopResult) : Svc Response := do
  let reason := pop.reason.getD "unknown"
  w.logDeny c "edge.deny.binding" reason
  pure (rejection 403 "Agent binding check failed" reason [])

def enforceBinding (c : Context) (url : Url) : Svc (Option Response) := do
  if ¬ w.bindingWillRun url then pure none
  else
    match ← ask (.verifyBinding { url := c.req.url, method := c.req.method,
                                  headers := c.req.headers,
                                  agentId := (url.get "agent_id").getD "" }) with
    | .error err => throw err
    | .ok pop =>
      if ¬ pop.ok then
        let denied ← w.handlePopResult c pop
        pure (some denied)
      else pure none

def stripSignatureParams (target : Url) : Url := signatureParams.foldl (Url.delete w.web) target

def resolveOrigin (rawUrl : String) : Svc (Option Url × Outcome) := do
  let incoming ← w.newURL rawUrl
  match w.deps.originUrl.filter (· ≠ "") with
  | some originUrl =>
    let target ← w.newURL originUrl
    pure (some (w.stripSignatureParams (target.withPathAndSearch incoming)), .originForwarded)
  | none =>
    if w.deps.sameZoneOrigin then pure (some (w.stripSignatureParams incoming), .sameZone)
    else pure (none, .cdnOriginFetch)

def cdnAuthorized : Response := ⟨200, [(cdnAuthorizedHeader, "cdn-origin-fetch")], .empty⟩

def passToOrigin (c : Context) (delivery : Option DeliveryFacts) : Svc Response := do
  let (target, outcome) ← w.resolveOrigin c.req.url
  match target with
  | none =>
    match delivery with
    | none => pure cdnAuthorized
    | some facts =>
      w.logDelivery c facts outcome none
      pure cdnAuthorized
  | some target =>
    match ← ask (.fetch { url := w.web.href target, method := c.req.method,
                          headers := c.req.headers,
                          body := if isReadMethod c.req.method then none else c.req.body }) with
    | .ok response =>
      match delivery with
      | none => pure ⟨response.status, response.headers, .stream response.content⟩
      | some facts =>
        w.logDelivery c facts outcome (some response.status)
        pure ⟨response.status, response.headers, .stream response.content⟩
    | .error err =>
      w.logEvent c .error "edge.origin.fetch_failed" [("message", err)]
      pure (rejection 502 "Origin fetch failed" "origin_fetch_failed" [])

def handleVerifyUnavailable (c : Context) (err : String) : Svc Response := do
  w.logEvent c .error "edge.verify.unavailable" [("message", err)]
  pure (rejection 503 "Signature verification is temporarily unavailable" "verify_unavailable" [])

def handleVerifyResult (c : Context) (result : VerifyResult) : Svc Response := do
  if result.expired then
    w.logDeny c "edge.deny.signature" "expired"
    pure (rejection 403 "Signed URL has expired" "expired" [])
  else
    let reason := result.reason.getD "unknown"
    w.logEvent c .warn "edge.deny.signature"
      (("reason", reason) :: (result.kid.map fun kid => ("kid", kid)).toList)
    pure (rejection 403 "Invalid signature" reason [])

def withProtocol (url : String) : String :=
  match w.web.newURL url with
  | some u => u.origin
  | none => url

def denyBot (c : Context) : Svc Response := do
  w.logDeny c "edge.deny.bot" "ai_bot"
  match w.web.resolve wellKnownPath (w.withProtocol c.req.url) with
  | none => throw "Invalid URL"
  | some rules =>
    pure (rejection 403 "Access denied. Negotiate access via the exchange." "ai_bot"
      (("X-Content-Rules", rules) ::
        ((w.deps.exchangeUrl.filter (· ≠ "")).map fun u => ("X-RAMP-Exchange", u)).toList))

def catchallHandler (c : Context) : Svc Response := do
  let url ← w.newURL c.req.url
  if ¬ url.has "sig" then
    if isReadMethod c.req.method ∧ classifyClient (c.req.header "user-agent")
        (w.deps.botSignal c.req) w.deps.botAllowPatterns w.deps.botDenyPatterns = .aiBot then
      w.denyBot c
    else w.passToOrigin c none
  else
    match ← ask (.verify c.req.url) with
    | .error err => w.handleVerifyUnavailable c err
    | .ok result =>
      if ¬ result.valid then w.handleVerifyResult c result
      else if ¬ isReadMethod c.req.method ∧ ¬ w.bindingWillRun url then w.denySignedNonRead c
      else
        match ← w.enforceBinding c url with
        | some denied => pure denied
        | none => w.passToOrigin c (some ⟨result.kid, result.agentId⟩)

def requestId (req : Request) : Svc String :=
  match req.header "x-request-id" with
  | none | some "" => ask .randomUUID
  | some incoming => pure incoming

def requestIdMiddleware (req : Request) (next : Context → Svc Response) : Svc Response := do
  let id ← requestId req
  let response ← next ⟨req, id⟩
  pure { response with headers := response.headers ++ [("X-Request-ID", id)] }

def serve (req : Request) : Svc Response := requestIdMiddleware req w.catchallHandler

end Worker

end Ramp.Edge
