import Ramp.Broker.Selection
import Ramp.Exchange.Wire

/-! The batch relay of the Broker: the items of a request are grouped by the exchange
their offers name, every group is admitted before anything is sent, each group is sent as
one request, and the answers are merged in the order of the items. -/

namespace Ramp.Broker

open Ramp.Exchange (TransactionResultItem TransactionResponse Cost)

structure Offer where
  offerID : String
  exchange : String
  rest : String := ""

structure TransactionItem where
  offer : Offer
  acceptance : String := ""

structure TransactionRequest where
  ver : String
  idempotencyKey : String
  requester : String
  items : List TransactionItem
  agentRequestAcceptance : Option String

structure Group where
  domain : String
  endpoint : String
  items : List TransactionItem

structure VerifiedRequest where
  keyID : String
  signature : String

namespace Relay

inductive Op
  | audit (outcome endpoint : String) (err : Option String)
  | verifyAgentSignature (body : String)
  | seenOrAdd (keyID signature : String)
  | getByDomain (domain : String)
  | resolveEndpoint (domain : String)
  | executeTransaction (endpoint : String) (req : TransactionRequest)

abbrev Res : Op → Type
  | .audit _ _ _ => Unit
  | .verifyAgentSignature _ => Except String VerifiedRequest
  | .seenOrAdd _ _ => Except String Bool
  | .getByDomain _ => FindReply
  | .resolveEndpoint _ => EndpointReply
  | .executeTransaction _ _ => Except String TransactionResponse

abbrev Svc := ExceptT Error (Prog Op Res)

abbrev ask (op : Op) : Svc (Res op) := Ramp.ask op

end Relay

inductive EndpointAdmission
  | unregistered
  | down
  | live
  deriving DecidableEq

def admissionOf (ex : Exchange) : EndpointAdmission :=
  match ex.admission with
  | .live => .live
  | .down => .down
  | .blocked => .unregistered

def auditAction (err : Error) : String :=
  match err.kind with
  | .upstreamUnavailable => "REJECTED_ENDPOINT_DOWN"
  | .internal => "REJECTED_INTERNAL"
  | .upstreamRejected => "REJECTED_UPSTREAM"
  | _ => "REJECTED_ENDPOINT"

def Kind.text : Kind → String
  | .invalidArgument => "invalid_argument"
  | .notFound => "not_found"
  | .unauthenticated => "unauthenticated"
  | .permissionDenied => "permission_denied"
  | .budgetExhausted => "budget_exhausted"
  | .upstreamUnavailable => "upstream_unavailable"
  | .upstreamRejected => "upstream_rejected"
  | .internal => "internal"
  | .unknown => "unknown"

def Error.text (e : Error) : String :=
  match e.cause with
  | some cause => e.kind.text ++ ": " ++ e.message ++ ": " ++ cause
  | none => e.kind.text ++ ": " ++ e.message

def refuseUntrustedForExecute (quote : String → String) (ex : Exchange) : Option Error :=
  if ex.trustLevel = .verified ∨ ex.trustLevel = .preferred then none
  else some ((newf .invalidArgument ("offer.exchange " ++ quote ex.domain ++
    " is registered but not approved for transactions")).withField "offer.exchange")

def unavailableItem (offerID : String) : TransactionResultItem :=
  { offerID, denialReason := some .contentUnavailable }

abbrev ResultByOffer := Table String TransactionResultItem

def collectGroupDenials (into : ResultByOffer) (items : List TransactionItem) : ResultByOffer :=
  into.insertAll (fun it : TransactionItem => it.offer.offerID)
    (fun it => unavailableItem it.offer.offerID) items

def collectItems (into : ResultByOffer) (items : List TransactionResultItem) : ResultByOffer :=
  into.insertAll TransactionResultItem.offerID id items

/-- What the relay is wired with. `batchTotal` is the total that the Exchange also computes
for its own batches, and `unmarshal` decodes the body. -/
structure Batch where
  quote : String → String
  unmarshal : String → Except String TransactionRequest
  batchTotal : List TransactionResultItem → Except String (Option Cost)
  protocolVersion : String

namespace Batch

variable (b : Batch)

def unregisteredEndpointError (endpoint : String) : Error :=
  (newf .invalidArgument ("resolved endpoint " ++ b.quote endpoint ++
    " is not a registered exchange")).withMeta "resolved_endpoint" endpoint

def downEndpointError (endpoint : String) : Error :=
  (newf .upstreamUnavailable ("exchange at " ++ b.quote endpoint ++
    " is registered but its last health check failed")).withMeta "resolved_endpoint" endpoint

open Relay

def verifyAndGuardReplay (body : String) : Svc Unit := do
  match ← ask (Op.verifyAgentSignature body) with
  | .error e =>
    ask (Op.audit "REJECTED_AUTHZ" "" (some e))
    throw (wrapf .unauthenticated e "agent signature verification failed")
  | .ok verified =>
    match ← ask (Op.seenOrAdd verified.keyID verified.signature) with
    | .error e => throw (wrapf .internal e "replay store")
    | .ok true =>
      ask (Op.audit "REJECTED_REPLAY" "" none)
      throw (newf .unauthenticated "agent signature already used (replay)")
    | .ok false => pure ()

def trustedExchange (domain : String) : Svc (Except Error Exchange) := do
  match ← ask (Op.getByDomain domain) with
  | .found row => pure (.ok (row.exchange domain))
  | .notFound =>
    pure (.error ((newf .invalidArgument ("offer.exchange " ++ b.quote domain ++
      " is not a registered exchange")).withField "offer.exchange"))
  | .failed e => pure (.error (wrapf .internal e "exchange registry"))

def refuseAdmission (admission : EndpointAdmission) (endpoint : String) : Svc Unit :=
  match admission with
  | .live => pure ()
  | .down => do
    ask (Op.audit (auditAction (b.downEndpointError endpoint)) endpoint none)
    throw (b.downEndpointError endpoint)
  | .unregistered => do
    ask (Op.audit (auditAction (b.unregisteredEndpointError endpoint)) endpoint none)
    throw (b.unregisteredEndpointError endpoint)

def resolveAdvertisedEndpoint (domain : String) : Svc (Except Error String) := do
  let message := "resolve offer.exchange " ++ b.quote domain ++ " via well-known"
  match ← ask (Op.resolveEndpoint domain) with
  | .resolved endpoint => pure (.ok (canonicalEndpoint endpoint))
  | .verdict e => pure (.error (wrapf .invalidArgument e message))
  | .failed e => pure (.error (wrapf .upstreamUnavailable e message))

def resolveGroupEndpoint (domain : String) : Svc String := do
  match ← b.trustedExchange domain with
  | .error err =>
    ask (Op.audit (auditAction err) domain (some err.text))
    throw err
  | .ok ex =>
    b.refuseAdmission (admissionOf ex) domain
    match refuseUntrustedForExecute b.quote ex with
    | some err =>
      ask (Op.audit "REJECTED_AUTHZ" domain (some err.text))
      throw err
    | none =>
      match ← b.resolveAdvertisedEndpoint domain with
      | .error err =>
        ask (Op.audit (auditAction err) domain (some err.text))
        throw err
      | .ok endpoint => pure endpoint

def groupItems : Nat → Grouping String TransactionItem → List TransactionItem →
    Except Error (Grouping String TransactionItem)
  | _, g, [] => .ok g
  | i, g, item :: items =>
    if item.offer.exchange = "" then
      .error (((newf .invalidArgument ("item " ++ toString i ++
        ": offer.exchange required to route an execute relay")).withField "offer.exchange").withMeta
          "item_index" (toString i))
    else groupItems (i + 1) (g.add item.offer.exchange item) items

def resolveDomains (g : Grouping String TransactionItem) : List String → Svc (List Group)
  | [] => pure []
  | domain :: domains => do
    let endpoint ← b.resolveGroupEndpoint domain
    let groups ← resolveDomains g domains
    pure ({ domain, endpoint, items := g.membersOf domain } :: groups)

def resolveGroups (txReq : TransactionRequest) : Svc (List Group) :=
  match groupItems 0 .empty txReq.items with
  | .error err => throw err
  | .ok g => b.resolveDomains g g.order

def subRequest (txReq : TransactionRequest) (g : Group) : TransactionRequest :=
  { ver := txReq.ver, idempotencyKey := txReq.idempotencyKey, requester := txReq.requester,
    items := g.items, agentRequestAcceptance := txReq.agentRequestAcceptance }

def fanOutGroups (txReq : TransactionRequest) :
    List Group → ResultByOffer → String → Svc (ResultByOffer × String)
  | [], resultByOffer, agentHash => pure (resultByOffer, agentHash)
  | g :: groups, resultByOffer, agentHash => do
    match ← ask (Op.executeTransaction g.endpoint (subRequest txReq g)) with
    | .error err =>
      ask (Op.audit "RELAY_UPSTREAM_ERROR" g.endpoint (some err))
      fanOutGroups txReq groups (collectGroupDenials resultByOffer g.items) agentHash
    | .ok resp =>
      fanOutGroups txReq groups (collectItems resultByOffer resp.items)
        (if agentHash = "" then resp.agentIdentityHash else agentHash)

def mergeResults (items : List TransactionItem) (resultByOffer : ResultByOffer)
    (agentHash : String) : TransactionResponse where
  ver := b.protocolVersion
  items := items.map fun it =>
    (resultByOffer.get? it.offer.offerID).getD (unavailableItem it.offer.offerID)
  agentIdentityHash := agentHash
  totalCost := none

def fanOut (txReq : TransactionRequest) (groups : List Group) : Svc TransactionResponse := do
  let (resultByOffer, agentHash) ← fanOutGroups txReq groups ∅ ""
  let merged := b.mergeResults txReq.items resultByOffer agentHash
  match b.batchTotal merged.items with
  | .ok total => pure { merged with totalCost := total }
  | .error _ => pure merged

def duplicateOffer : Nat → Table String Nat → List TransactionItem → Option (Nat × Nat × String)
  | _, _, [] => none
  | i, seen, item :: items =>
    match seen.get? item.offer.offerID with
    | some j => some (j, i, item.offer.offerID)
    | none => duplicateOffer (i + 1) (seen.insert item.offer.offerID i) items

def serveBatch (body : String) : Svc TransactionResponse :=
  match b.unmarshal body with
  | .error e => throw (wrapf .invalidArgument e "parse TransactionRequest")
  | .ok txReq =>
    if txReq.items = [] then
      throw ((newf .invalidArgument
        "items[] required (min 1) to route an execute relay").withField "items")
    else match duplicateOffer 0 ∅ txReq.items with
      | some (j, i, id) =>
        throw (((newf .invalidArgument ("items " ++ toString j ++ " and " ++ toString i ++
          " present duplicate offer_id " ++ b.quote id ++ "; " ++
          "executing the same resource twice takes two separately issued offers")).withField
            "items.offer.offer_id").withMeta "item_index" (toString i))
      | none => do
        verifyAndGuardReplay body
        let groups ← b.resolveGroups txReq
        let merged ← b.fanOut txReq groups
        ask (Op.audit "VALIDATED" "batch" none)
        pure merged

end Batch

end Ramp.Broker
