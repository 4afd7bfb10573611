import Ramp.Broker.Selection

/-! `Resolve`: the publishers' manifests are probed, each requested URL is routed to the
exchange that its publisher names, the exchanges are queried, and the best offer is checked
against the agent's budget and recorded there. -/

namespace Ramp.Broker.Discovery

inductive AbsenceReason
  | unspecified
  | notInCatalog
  | temporarilyUnavailable
  | scopeInsufficient
  | notAuthorized
  | other (n : Nat)
  deriving DecidableEq

inductive DiscoveryMethod
  | unspecified
  | exchange
  | search
  deriving DecidableEq

structure Request where
  agentID : String
  query : String := ""
  uri : String := ""
  uris : List String := []
  budgetMinor : Int := 0
  requesterDomain : String := ""
  intendedUse : String := ""

structure Manifest where
  exchanges : List String
  deriving DecidableEq

structure ReturnedGroup where
  uri : String
  offers : List Offer
  absenceReason : AbsenceReason := .unspecified
  deriving DecidableEq

structure ResourceQuery where
  ver : String
  exchange : String
  requesterID : String
  requesterDomain : String
  uris : List String
  intendedUse : Option String
  deriving DecidableEq

structure OfferGroup where
  uri : String := ""
  offers : List Candidate := []
  absenceReason : AbsenceReason := .unspecified
  discoveryMethod : DiscoveryMethod := .unspecified
  cands : List Candidate := []
  deriving DecidableEq

structure Response where
  exchangeID : String := ""
  absenceReason : AbsenceReason := .unspecified
  groups : List OfferGroup := []
  deriving DecidableEq

structure CandidateInfo where
  offerID : String
  exchangeID : String
  unitCost : String
  trustLevel : TrustLevel
  deriving DecidableEq

structure SelectionLogEntry where
  requestID : String
  agentID : String
  query : String
  outcome : String
  candidateOffers : List CandidateInfo
  deriving DecidableEq

inductive ProbeReply
  | found (manifest : Manifest)
  | missing
  | failed (text : String)
  deriving DecidableEq

structure Decision where
  allowed : Bool
  remaining : Int
  limit : Int
  consumed : Int
  deriving DecidableEq

inductive RecordReply
  | recorded
  | failed (text : String) (applied : Bool)
  deriving DecidableEq

inductive Op
  | search (query : String)
  | probe (domain : String)
  | getByDomain (domain : String)
  | resolveEndpoint (domain : String)
  | signForward (query : ResourceQuery)
  | discoverResources (endpoint : String) (query : ResourceQuery) (signature : String)
  | sort (offers : List Offer)
  | budgetCheck (agentID : String) (limit : Int)
  | budgetRecord (agentID : String) (cost : Int)
  | recordSelection (entry : SelectionLogEntry)
  deriving DecidableEq

abbrev Res : Op → Type
  | .search _ => Except String (List String)
  | .probe _ => ProbeReply
  | .getByDomain _ => FindReply
  | .resolveEndpoint _ => EndpointReply
  | .signForward _ => Except String String
  | .discoverResources _ _ _ => Except String (List ReturnedGroup)
  | .sort _ => List (Option String)
  | .budgetCheck _ _ => Except String Decision
  | .budgetRecord _ _ => RecordReply
  | .recordSelection _ => Except String Unit

abbrev Svc := ExceptT Error (Prog Op Res)

abbrev ask (op : Op) : Svc (Res op) := Ramp.ask op

structure DiscoverFlags where
  scopeRestricted : Bool := false
  upstreamReason : AbsenceReason := .unspecified
  allUpstreamFailed : Bool := false
  namedExchangeDown : Bool := false

structure RouteScan where
  seen : Table String (Option Exchange) := ∅
  sawTransientDecline : Bool := false

structure RoutePlan where
  urlOrder : List String := []
  target : Table String String := ∅
  exchangeURLs : Table String (List String) := ∅
  exchanges : Table String Exchange := ∅
  exchangeOrder : List String := []

def RoutePlan.routeURLTo (p : RoutePlan) (uri : String) (ex : Exchange) : RoutePlan :=
  let fresh := (p.exchanges.get? ex.domain).isNone
  { urlOrder := p.urlOrder
    target := p.target.insert uri ex.domain
    exchangeURLs := p.exchangeURLs.insert ex.domain
      ((p.exchangeURLs.get? ex.domain).getD [] ++ [uri])
    exchanges := if fresh then p.exchanges.insert ex.domain ex else p.exchanges
    exchangeOrder := if fresh then p.exchangeOrder ++ [ex.domain] else p.exchangeOrder }

inductive QueryOutcome
  | answered (groups : List ReturnedGroup)
  | signFailed (text : String)
  | failed (text : String)

def pickResolveAbsenceReason (flags : DiscoverFlags) : AbsenceReason :=
  if flags.allUpstreamFailed then .temporarilyUnavailable
  else if flags.upstreamReason ≠ .unspecified then flags.upstreamReason
  else if flags.scopeRestricted then .scopeInsufficient
  else if flags.namedExchangeDown then .temporarilyUnavailable
  else .notInCatalog

def stampMethod (groups : List OfferGroup) (method : DiscoveryMethod) : List OfferGroup :=
  groups.map fun g => { g with discoveryMethod := method }

def flattenGroups (groups : List OfferGroup) : List Candidate :=
  groups.flatMap OfferGroup.offers

def requestURIs (req : Request) : List String :=
  if req.uris ≠ [] then req.uris
  else if req.uri ≠ "" then [req.uri]
  else []

def orURI (req : Request) : String := if req.query ≠ "" then req.query else req.uri

def candidatesToInfo (cands : List Candidate) : List CandidateInfo :=
  cands.map fun c =>
    { offerID := c.offer.offerID
      exchangeID := c.exchange.domain
      unitCost := match c.offer.pricing with
        | none => ""
        | some p => p.unitCost.getD p.rate
      trustLevel := c.exchange.trust }

def verifiedOffers (offers : List Offer) (reasons : List (Option String)) : List Offer :=
  ((offers.zip reasons).filter fun x => x.2 = none).map Prod.fst

namespace Resolver

variable (r : Resolver)

def finalize (g : OfferGroup) : OfferGroup :=
  if g.cands = [] then g
  else { g with offers := r.rank (r.dedup g.cands), absenceReason := .unspecified, cands := [] }

def winner (groups : List OfferGroup) : Option Candidate :=
  (r.rank (groups.filterMap fun g => g.offers.head?)).head?

def buildResourceQuery (req : Request) (recipient : String) (uris : List String) :
    ResourceQuery where
  ver := r.protocolVersion
  exchange := recipient
  requesterID := req.agentID
  requesterDomain := req.requesterDomain
  uris := uris
  intendedUse := if req.intendedUse ≠ "" then some req.intendedUse else none

def urisToDomains : List String → List String → Except Error (List String)
  | [], out => .ok out
  | u :: us, out =>
    match r.domainOf u with
    | .error e => .error ((wrapf .invalidArgument e "parse uri").withField "uri")
    | .ok d => if d ∈ out then urisToDomains us out else urisToDomains us (out ++ [d])

def candidateDomains (req : Request) : Svc (List String) := do
  if requestURIs req ≠ [] then
    orThrow (r.urisToDomains (requestURIs req) []) id
  else
    match ← ask (Op.search req.query) with
    | .error e => throw (wrapf .upstreamUnavailable e "exa search")
    | .ok cands =>
      let out := (cands.filter (· ≠ "")).eraseDups
      if out = [] then
        throw (newf .notFound ("no domains for query " ++ r.quote req.query))
      else pure out

structure ProbeOutcome where
  missing : Nat := 0
  transient : Nat := 0

def probeDomains : List String → Table String Manifest → ProbeOutcome →
    Svc (Table String Manifest × ProbeOutcome)
  | [], out, outcome => pure (out, outcome)
  | d :: ds, out, outcome => do
    match ← ask (Op.probe d) with
    | .found manifest => probeDomains ds (out.insert d manifest) outcome
    | .missing => probeDomains ds out { outcome with missing := outcome.missing + 1 }
    | .failed _ => probeDomains ds out { outcome with transient := outcome.transient + 1 }

def probeRefusalReason (outcome : ProbeOutcome) : AbsenceReason :=
  if outcome.transient > 0 ∧ outcome.missing = 0 then .temporarilyUnavailable else .notInCatalog

def registeredHealthy (domain : String) (scan : RouteScan) : Svc (Option Exchange × RouteScan) :=
  match scan.seen.get? domain with
  | some found => pure (found.filter (fun ex => ex.domain ≠ ""), scan)
  | none => do
    match ← ask (Op.getByDomain domain) with
    | .notFound => pure (none, { scan with seen := scan.seen.insert domain none })
    | .failed _ =>
      pure (none, { seen := scan.seen.insert domain none, sawTransientDecline := true })
    | .found row =>
      match (row.exchange domain).admission with
      | .blocked => pure (none, { scan with seen := scan.seen.insert domain none })
      | .down => pure (none, { seen := scan.seen.insert domain none, sawTransientDecline := true })
      | .live =>
        match ← ask (Op.resolveEndpoint domain) with
        | .resolved endpoint =>
          let m := { row.exchange domain with endpoint }
          pure (some m, { scan with seen := scan.seen.insert domain (some m) })
        | _ => pure (none, { seen := scan.seen.insert domain none, sawTransientDecline := true })

def firstHealthy : List String → RouteScan → Svc (Option Exchange × RouteScan)
  | [], scan => pure (none, scan)
  | named :: rest, scan => do
    match ← registeredHealthy named scan with
    | (some ex, scan) => pure (some ex, scan)
    | (none, scan) => firstHealthy rest scan

def exchangeForURL (uri : String) (manifests : Table String Manifest) (scan : RouteScan) :
    Svc (Option Exchange × RouteScan) :=
  match r.domainOf uri with
  | .error _ => pure (none, scan)
  | .ok domain =>
    match manifests.get? domain with
    | none => pure (none, scan)
    | some manifest => firstHealthy manifest.exchanges scan

def routeURLs (manifests : Table String Manifest) : List String → RoutePlan → RouteScan →
    Svc (RoutePlan × RouteScan)
  | [], p, scan => pure (p, scan)
  | uri :: uris, p, scan => do
    let p := { p with urlOrder := p.urlOrder ++ [uri] }
    match ← r.exchangeForURL uri manifests scan with
    | (none, scan) => routeURLs manifests uris p scan
    | (some ex, scan) => routeURLs manifests uris (p.routeURLTo uri ex) scan

def buildRoutePlan (uris : List String) (manifests : Table String Manifest) :
    Svc (RoutePlan × RouteScan) :=
  r.routeURLs manifests uris {} {}

def queryExchange (req : Request) (ex : Exchange) (uris : List String) : Svc QueryOutcome := do
  if ¬ r.isBareDomain ex.domain then
    pure (.failed ("registered exchange " ++ r.quote ex.domain ++
      " is not a bare domain, so no request can be addressed to it"))
  else
    let rq := r.buildResourceQuery req ex.domain uris
    match ← ask (Op.signForward rq) with
    | .error e => pure (.signFailed e)
    | .ok sig =>
      match ← ask (Op.discoverResources ex.endpoint rq sig) with
      | .error e => pure (.failed e)
      | .ok groups => pure (.answered groups)

def isCredentialsRestricted (reason : AbsenceReason) : Bool := reason = .scopeInsufficient

def observe (flags : DiscoverFlags) (reason : AbsenceReason) : DiscoverFlags :=
  if reason = .unspecified then flags
  else
    { flags with
      upstreamReason := reason
      scopeRestricted := flags.scopeRestricted || isCredentialsRestricted reason }

def collectGroup (acc : OfferGroup) (ref : ExchangeRef) (group : ReturnedGroup)
    (verified : List Offer) : OfferGroup :=
  { acc with
    uri := group.uri
    cands := acc.cands ++ verified.map fun offer => ⟨offer, ref⟩
    absenceReason := if group.absenceReason = .unspecified then acc.absenceReason
      else group.absenceReason }

def collectGroups (ref : ExchangeRef) : List ReturnedGroup → Table String OfferGroup →
    DiscoverFlags → Svc (Table String OfferGroup × DiscoverFlags)
  | [], byURL, flags => pure (byURL, flags)
  | group :: groups, byURL, flags => do
    let reasons ← ask (Op.sort group.offers)
    let acc := (byURL.get? group.uri).getD {}
    let acc := collectGroup acc ref group (verifiedOffers group.offers reasons)
    collectGroups ref groups (byURL.insert group.uri acc)
      (observe flags group.absenceReason)

structure Collected where
  byURL : Table String OfferGroup := ∅
  flags : DiscoverFlags := {}
  failures : Nat := 0
  order : List String := []

def signForwardError (text : String) : Error := wrapf .unknown text "sign forward"

def dispatch (req : Request) (p : RoutePlan) : List String → Collected → Svc Collected
  | [], acc => pure acc
  | domain :: domains, acc =>
    match p.exchanges.get? domain with
    | none => dispatch req p domains acc
    | some ex => do
      match ← r.queryExchange req ex ((p.exchangeURLs.get? domain).getD []) with
      | .signFailed e => throw (signForwardError e)
      | .failed _ => dispatch req p domains { acc with failures := acc.failures + 1 }
      | .answered groups =>
        let (byURL, flags) ← collectGroups (exchangeRefOf ex) groups acc.byURL acc.flags
        dispatch req p domains { acc with byURL, flags }

def assemble (p : RoutePlan) (byURL : Table String OfferGroup) : List OfferGroup :=
  p.urlOrder.map fun uri =>
    match byURL.get? uri with
    | some g => r.finalize g
    | none => { uri, absenceReason := .notInCatalog }

def discoverByRoute (req : Request) (uris : List String) (manifests : Table String Manifest) :
    Svc (List OfferGroup × DiscoverFlags) := do
  let (p, scan) ← r.buildRoutePlan uris manifests
  let acc ← r.dispatch req p p.exchangeOrder
    { flags := { namedExchangeDown := scan.sawTransientDecline } }
  let flags := { acc.flags with
    allUpstreamFailed := p.exchangeOrder.length > 0 ∧ acc.failures > 0 ∧
      acc.failures = p.exchangeOrder.length }
  pure (r.assemble p acc.byURL, flags)

def appendGroupOrder (order : List String) (byURL : Table String OfferGroup)
    (groups : List ReturnedGroup) : List String :=
  order ++ (groups.filter fun g => (byURL.get? g.uri).isNone).map ReturnedGroup.uri

def broadcast (req : Request) : List Exchange → Collected → Svc Collected
  | [], acc => pure acc
  | ex :: exchanges, acc => do
    match ← r.queryExchange req ex [] with
    | .signFailed e => throw (signForwardError e)
    | .failed _ => broadcast req exchanges { acc with failures := acc.failures + 1 }
    | .answered groups =>
      let order := appendGroupOrder acc.order acc.byURL groups
      let (byURL, flags) ← collectGroups (exchangeRefOf ex) groups acc.byURL acc.flags
      broadcast req exchanges { acc with byURL, flags, order }

def broadcastQuery (req : Request) (exchanges : List Exchange) :
    Svc (List OfferGroup × DiscoverFlags) := do
  let acc ← r.broadcast req exchanges {}
  let flags := { acc.flags with
    allUpstreamFailed := acc.failures > 0 ∧ acc.failures = exchanges.length }
  pure (acc.order.map fun uri => r.finalize ((acc.byURL.get? uri).getD {}), flags)

def exchangesFor : List String → List String → RouteScan → List Exchange → Svc (List Exchange)
  | [], _, _, out => pure out
  | named :: rest, seen, scan, out => do
    if named ∈ seen then exchangesFor rest seen scan out
    else
      match ← registeredHealthy named scan with
      | (none, scan) => exchangesFor rest seen scan out
      | (some m, scan) => exchangesFor rest (m.domain :: seen) scan (out ++ [m])

def discover (req : Request) (manifests : Table String Manifest) :
    Svc (Except Response (List OfferGroup × DiscoverFlags)) := do
  if requestURIs req ≠ [] then
    let (groups, flags) ← r.discoverByRoute req (requestURIs req) manifests
    pure (.ok (stampMethod groups .exchange, flags))
  else
    let named := (r.iterate Manifest (manifests.entries.map fun e => e.2)).flatMap
      Manifest.exchanges
    let exchanges ← exchangesFor named [] {} []
    if exchanges = [] then pure (.error { absenceReason := .temporarilyUnavailable })
    else
      let (groups, flags) ← r.broadcastQuery req exchanges
      pure (.ok (stampMethod groups .search, flags))

def checkBudget (agentID : String) (limit : Int) (offer : Offer) : Svc Bool := do
  if agentID = "" ∨ limit ≤ 0 then pure true
  else
    match ← ask (Op.budgetCheck agentID limit) with
    | .error e => throw (wrapf .internal e "budget check")
    | .ok dec =>
      if ¬ dec.allowed then pure false
      else if wrap64 (dec.consumed + r.costFixed offer) > dec.limit then pure false
      else pure true

def auditSelection (requestID : String) (req : Request) (ranked : List Candidate)
    (outcome : String) : Svc Unit := do
  let _ ← ask (Op.recordSelection { requestID, agentID := req.agentID, query := orURI req, outcome,
                                    candidateOffers := candidatesToInfo ranked })
  pure ()

def resolve (requestID : String) (req : Request) : Svc Response := do
  let domains ← r.candidateDomains req
  let (manifests, outcome) ← probeDomains domains ∅ {}
  if manifests.entries = [] then
    pure { absenceReason := probeRefusalReason outcome }
  else
    match ← r.discover req manifests with
    | .error refusal => pure refusal
    | .ok (groups, flags) =>
      match r.winner groups with
      | none => pure { absenceReason := pickResolveAbsenceReason flags }
      | some winner =>
        let ranked := flattenGroups groups
        if ← r.checkBudget req.agentID req.budgetMinor winner.offer then
          match ← ask (Op.budgetRecord req.agentID (r.costFixed winner.offer)) with
          | .failed e _ => throw (wrapf .internal e "budget record")
          | .recorded =>
            auditSelection requestID req ranked "discovered"
            pure { groups, exchangeID := winner.exchange.domain }
        else
          auditSelection requestID req ranked "budget_exhausted"
          pure { absenceReason := .notAuthorized }

end Resolver

end Ramp.Broker.Discovery
