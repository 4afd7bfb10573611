import Ramp.Exchange.Services

/-! Who is calling, with its one key snapshot and the signed acceptances checked against it; the
prices, fees and obligations of an item; and answering a request from what earlier ones stored. -/

namespace Ramp.Exchange

structure AgentKey where
  pub : Bytes := []
  discoveryURL : String := ""

structure ResolvedAgent where
  id : String
  billingRef : String := ""
  key : AgentKey := {}

structure AgentBinding where
  thumbprint : String := ""
  digest : Bytes := []
  pub : Bytes := []
  discoveryURL : String := ""
  acceptanceBytes : Bytes := []

structure TransportChain where
  hasBroker : Bool := false
  brokerKey : String := ""

def ed25519PublicKeySize : Nat := 32

def wbaPath : String := "/.well-known/http-message-signatures-directory"

def classifyTransportChain (verified : List String) : TransportChain :=
  if verified.length > 1 then { hasBroker := true, brokerKey := verified.getLastD "" } else {}

def AgentKey.verifier (k : AgentKey) : Except Error Bytes :=
  if k.pub.length ≠ ed25519PublicKeySize then
    .error (newf .internal ("no ed25519 agent key resolved for this request (" ++
      toString k.pub.length ++ " bytes)"))
  else .ok k.pub

def itemRequest (req : TransactionRequest) (item : TransactionItem) : TransactionRequest where
  ver := req.ver
  idempotencyKey := req.idempotencyKey
  requester := req.requester
  items := [item]
  agentRequestAcceptance := none

namespace Service

variable {Blob : Type} (s : Service Blob)

def resolveAgentLazily (callerHost : String) : Svc Blob Agent := do
  match ← ask (.agentByID callerHost) with
  | .found agent => pure agent
  | .notAHost _ =>
    throw (newf .unauthenticated
      ("caller directory " ++ s.quote callerHost ++ " does not name a host"))
  | .err e => throw (wrap .internal e "lookup caller")
  | .notFound =>
    if s.hasAgentReg then
      match ← ask (.registerFromDirectory callerHost callerHost) with
      | .callerFault =>
        throw (newf .unauthenticated ("caller keyID " ++ s.quote callerHost ++
          " publishes no currently valid key at its own " ++ wbaPath))
      | .err e => throw (wrap .unavailable e "fetch caller key directory")
      | .ok =>
        match ← ask (.agentByID callerHost) with
        | .found agent => pure agent
        | .notFound =>
          throw (newf .unauthenticated ("caller directory " ++ s.quote callerHost ++
            " not registered after lazy registration"))
        | .notAHost e => throw (wrap .internal e "lookup caller after registration")
        | .err e => throw (wrap .internal e "lookup caller after registration")
    else
      throw (newf .unauthenticated ("caller directory " ++ s.quote callerHost ++
        " not registered as an agent or broker"))

def resolveAgent (req : TransactionRequest) : Svc Blob ResolvedAgent := do
  let requesterID ← orThrow (s.fromDirectory req.requester.id) fun e =>
    (wrap .invalidRequest e ("requester.id " ++ s.quote req.requester.id ++
      " does not name a host")).withField "requester.id"
  if s.hasAgents then
    let agent ← s.resolveAgentLazily requesterID
    pure { id := requesterID, billingRef := agent.billingRef,
           key := { pub := agent.publicKey, discoveryURL := agent.discoveryURL } }
  else pure { id := requesterID }

def agentBindingForKey (key : AgentKey) (acceptanceBytes : Bytes) : Except Error AgentBinding :=
  match s.thumbprintBytes key.pub with
  | .error e => .error (wrap .internal e "compute agent thumbprint")
  | .ok digest =>
    .ok { thumbprint := s.rawURLEncoding digest, digest, pub := key.pub,
          discoveryURL := key.discoveryURL, acceptanceBytes }

/-- Reads the first item, so callers pass `itemRequest`; the source would panic
on an empty request. -/
def verifyAgentAcceptance (req : TransactionRequest) (key : AgentKey) :
    Except Error AgentBinding := do
  let pub ← key.verifier
  match req.items with
  | [] => .error (newf .internal "index out of range")
  | item :: _ =>
    match s.verifyOfferAcceptance item.offer req.requester req.idempotencyKey
        item.acceptanceSignature pub with
    | .signatureInvalid e =>
      .error (wrap .signatureInvalid e "agent offer-acceptance signature verification")
    | .other e => .error (wrap .signatureInvalid e "verify agent offer-acceptance")
    | .ok =>
      match s.canonicalAcceptanceBytes item.offer req.requester req.idempotencyKey with
      | .error e => .error (wrap .internal e "compute canonical acceptance bytes")
      | .ok acceptanceBytes => s.agentBindingForKey key acceptanceBytes

/-- The source calls this only with the request's own, present acceptance. -/
def verifyRequestAcceptance (req : TransactionRequest) (acceptance : RequestAcceptance)
    (key : AgentKey) : Except Error (AgentBinding × Bytes) := do
  let pub ← key.verifier
  match s.verifyRequestAcceptanceProjection req acceptance s.exchange pub with
  | .error e => .error (wrap .signatureInvalid e "verify agent request acceptance")
  | .ok canonical =>
    let binding ← s.agentBindingForKey key []
    pure (binding, canonical)

def proveRequesterPossession (req : TransactionRequest) (key : AgentKey) :
    List TransactionItem → Option AgentBinding
  | [] => none
  | item :: items =>
    match s.verifyAgentAcceptance (itemRequest req item) key with
    | .ok binding => some binding
    | .error _ => proveRequesterPossession req key items

def authorizeTransportRelay (chain : TransportChain) (tenant : Tenant) : Except Error Unit :=
  if chain.hasBroker then
    if tenant.allowBrokerRelay then .ok ()
    else .error (newf .permissionDenied ("broker " ++ s.quote chain.brokerKey ++
      " rejected: tenant does not allow broker relay"))
  else .ok ()

def authorizeExecute (ctx : RequestContext) (req : TransactionRequest) (agent : ResolvedAgent)
    (tenant : Tenant) : Except Error AgentBinding := do
  s.authorizeTransportRelay (classifyTransportChain ctx.verified) tenant
  s.verifyAgentAcceptance req agent.key

def resolveRelayTenant (item : TransactionItem) : Svc Blob (Option String) :=
  match s.verifyOffer item.offer item.offer.signature s.offerPublicKey with
  | .error _ => pure none
  | .ok _ =>
    if item.offer.canonicalURL = "" then pure none
    else do
      let entry ← ask (.catalogByURI item.offer.canonicalURL)
      pure (entry.map CatalogEntry.tenantID)

def relayAcceptances (req : TransactionRequest) (agent : ResolvedAgent) :
    List TransactionItem → Except Error Unit
  | [] => .ok ()
  | item :: items =>
    match s.verifyAgentAcceptance (itemRequest req item) agent.key with
    | .error e => .error e
    | .ok _ => relayAcceptances req agent items

def relayTenants (chain : TransportChain) : List TransactionItem → Svc Blob Unit
  | [] => pure ()
  | item :: items => do
    match ← s.resolveRelayTenant item with
    | none => throw (newf .permissionDenied ("broker " ++ s.quote chain.brokerKey ++
        " rejected: item offer does not resolve to a tenant for relay authorization"))
    | some tenantID =>
      match ← ask (.tenantByID tenantID) with
      | .error e => throw (wrap .internal e "load tenant for relay authorization")
      | .ok tenant =>
        match s.authorizeTransportRelay chain tenant with
        | .error e => throw e
        | .ok _ => relayTenants chain items

def relayPolicyGate (ctx : RequestContext) (req : TransactionRequest) (agent : ResolvedAgent) :
    Svc Blob Unit :=
  let chain := classifyTransportChain ctx.verified
  if chain.hasBroker then
    match s.relayAcceptances req agent req.items with
    | .error e => throw e
    | .ok _ => s.relayTenants chain req.items
  else pure ()

end Service

open Ramp.Billing

structure PricingDoc where
  model : String
  rate : ℚ
  currency : String
  unitCost : ℚ
  unit : String
  estQty : Int
  metering : Option PricingMetering

namespace PricingDoc

def metersUsage (p : PricingDoc) : Bool := p.metering ≠ some .none

def isFree (p : PricingDoc) : Bool := p.unitCost = 0

end PricingDoc

def resolveFeeRateBps (tenantDefault : Int) (override : Option Int) : Int :=
  override.getD tenantDefault

structure OverdueRule where
  maxOverdue : Int
  rateDivisor : Int

def defaultOverdueRule : OverdueRule where
  maxOverdue := 10
  rateDivisor := 5

def OverdueRule.blocks (r : OverdueRule) (overdue due : Int) : Bool :=
  overdue > r.maxOverdue ∨ overdue * r.rateDivisor > due

namespace ObligationCounts

def inBucket (c : ObligationCounts) (state : ObligationState) (pastDeadline : Bool) : Int :=
  (c.buckets.lookup (state, pastDeadline)).getD 0

def pastDeadline (c : ObligationCounts) : Int :=
  ((c.buckets.filter fun b => b.1.2).map Prod.snd).sum

end ObligationCounts

def billingErrorKind : BillingError → Kind
  | .refundUnsupported => .unimplemented
  | .unknownBillingID => .notFound
  | .refundBeforeRecord => .failedPrecondition
  | .refundExceedsRecord => .failedPrecondition
  | .unknownPayee => .failedPrecondition
  | .invalidAmount => .invalidRequest
  | .amountNotRepresentable => .invalidRequest
  | .insufficientBalance => .billingDenied
  | .backendUnavailable => .unavailable
  | _ => .internal

structure ObligationPlan where
  required : Bool
  windowSeconds : Int
  requiredFields : List String
  quantityTolerance : ℚ

def reportUsageEndpoint : String := "/ramp.v1.ExchangeService/ReportUsage"

def defaultQuantityTolerance : ℚ := 1 / 5

def ObligationPlan.buildReportingObligation (p : ObligationPlan) : ReportingObligation :=
  if p.required then
    { required := true, endpoint := some reportUsageEndpoint,
      window := some (p.windowSeconds * 1000000000), requiredFields := p.requiredFields }
  else { required := false }

def requiredFieldsFor (policy : ReportingPolicy) (pricing : PricingDoc) : List String :=
  if pricing.isFree then policy.requiredFields.filter (· ≠ "billing_id")
  else policy.requiredFields

def windowSecondsForObligation (policy : ReportingPolicy) (fallback : Time) : Int :=
  match policy.windowSeconds with
  | some w => if w > 0 then w else fallback.tdiv 1000000000
  | none => fallback.tdiv 1000000000

def maxInt32 (v fallback : Int) : Int := if v ≤ 0 then fallback else v

namespace Service

variable {Blob : Type} (s : Service Blob)

def moneyOrZero (raw : String) : Except String ℚ :=
  if raw = "" then .ok 0 else s.parseMoney raw

def pricingDocFromPricing (p : Pricing) : Except String PricingDoc := do
  let rate ← s.moneyOrZero p.rate
  let unitCost ← match p.unitCost with
    | some raw => s.moneyOrZero raw
    | none => .ok rate
  pure { model := p.model, rate, currency := p.currency, unitCost, unit := p.unit,
         estQty := p.estimatedQuantity, metering := p.metering }

def planObligation (tenant : Tenant) (pricing : PricingDoc) : ObligationPlan :=
  let policy := s.decodeReportingPolicy tenant.reportingPolicy
  { required := pricing.metersUsage,
    windowSeconds := windowSecondsForObligation policy s.reportWindow,
    requiredFields := requiredFieldsFor policy pricing,
    quantityTolerance := policy.quantityTolerance.getD defaultQuantityTolerance }

def batchSums : List TransactionResultItem → List (String × ℚ) → Except String (List (String × ℚ))
  | [], sums => .ok sums
  | item :: items, sums =>
    match item.cost with
    | none => batchSums items sums
    | some cost =>
      if cost.currency = "" then batchSums items sums
      else match s.parseMoney cost.amount with
        | .error e => .error ("parse item cost amount " ++ s.quote cost.amount ++ ": " ++ e)
        | .ok amount =>
          match sums.lookup cost.currency with
          | none => batchSums items (sums ++ [(cost.currency, amount)])
          | some _ => batchSums items (sums.map fun c =>
              if c.1 = cost.currency then (c.1, c.2 + amount) else c)

def batchTotal (items : List TransactionResultItem) : Except String (Option Cost) :=
  match s.batchSums items [] with
  | .error e => .error e
  | .ok [(currency, total)] =>
    match s.formatMoney total with
    | .error e => .error ("format batch total_cost: " ++ e)
    | .ok amount => .ok (some { amount, currency })
  | .ok _ => .ok none

end Service

structure Admission where
  resp : Option TransactionResponse := none
  claimed : Bool := false
  binding : AgentBinding := {}

def finalizedWaitPolls : Nat := 60

namespace Service

variable {Blob : Type} (s : Service Blob)

def buildBatchTxResponse (items : List TransactionResultItem) (agentThumbprint : String) :
    Except Error TransactionResponse :=
  match s.batchTotal items with
  | .error e => .error (wrap .internal e "aggregate batch total_cost")
  | .ok totalCost =>
    .ok { ver := s.protocolVersion, items, agentIdentityHash := agentThumbprint, totalCost }

def probeRows (requestKey : String) :
    List TransactionItem → Svc Blob (List (TransactionResultItem × Bytes))
  | [] => pure []
  | item :: items => do
    match ← ask (.byIdempotencyKey (derivedItemKey requestKey item.offer.offerID)) with
    | .notFound => probeRows requestKey items
    | .err e => throw (wrap .internal e "idempotent replay probe")
    | .found row =>
      if s.isEmpty row.resultPayload then
        throw (newf .idempotent ("idempotency_key already processed: " ++ row.transactionID))
      else match s.unmarshalItem row.resultPayload with
        | .error e => throw (wrap .internal e "decode persisted transaction result")
        | .ok result =>
          let rest ← probeRows requestKey items
          pure ((result, row.agentIdentityHash) :: rest)

def partialReplay : Error := newf .idempotent "idempotency_key already processed (partial)"

def foreignReplay : Error :=
  newf .permissionDenied "idempotency_key belongs to a different agent"

def rebuildResponse (req : TransactionRequest) (binding : AgentBinding)
    (found : List (TransactionResultItem × Bytes)) : Except Error (Option TransactionResponse) :=
  if found.length = 0 then .ok none
  else if found.length ≠ req.items.length then .error partialReplay
  else if found.any fun f => binding.digest ≠ f.2 then .error foreignReplay
  else match s.buildBatchTxResponse (found.map Prod.fst) binding.thumbprint with
    | .error e => .error e
    | .ok resp => .ok (some resp)

def replayBatchResponse (req : TransactionRequest) (binding : AgentBinding) :
    Svc Blob (Option TransactionResponse) := do
  let found ← s.probeRows req.idempotencyKey req.items
  match s.rebuildResponse req binding found with
  | .error e => throw e
  | .ok resp => pure resp

def serveFinalizedResponse (binding : AgentBinding) (payload : Blob) :
    Except Error TransactionResponse :=
  match s.unmarshalResponse payload with
  | .error e => .error (wrap .internal e "decode finalized request response")
  | .ok resp =>
    if resp.agentIdentityHash ≠ "" ∧ resp.agentIdentityHash ≠ binding.thumbprint then
      .error foreignReplay
    else .ok resp

def finalizedResponse (req : TransactionRequest) (agentID : String) (binding : AgentBinding) :
    Svc Blob (Option TransactionResponse) := do
  match ← ask (.requestResponse agentID req.idempotencyKey) with
  | .err e => throw (wrap .internal e "read finalized request response")
  | .payload none => pure none
  | .payload (some payload) =>
    if s.isEmpty payload then pure none
    else match s.serveFinalizedResponse binding payload with
      | .error e => throw e
      | .ok resp => pure (some resp)

def pollFinalizedResponse (req : TransactionRequest) (agentID : String) (binding : AgentBinding) :
    Nat → Svc Blob (Option TransactionResponse)
  | 0 => s.finalizedResponse req agentID binding
  | polls + 1 => do
    match ← s.finalizedResponse req agentID binding with
    | some resp => pure (some resp)
    | none =>
      match ← ask .wait with
      | false => pure none
      | true => pollFinalizedResponse req agentID binding polls

def awaitFinalizedResponse (req : TransactionRequest) (agentID : String)
    (binding : AgentBinding) : Svc Blob (Option TransactionResponse) :=
  s.pollFinalizedResponse req agentID binding finalizedWaitPolls

def serveLostClaim (req : TransactionRequest) (agentID : String) (binding : AgentBinding) :
    Svc Blob (Option TransactionResponse) := do
  match ← s.finalizedResponse req agentID binding with
  | some resp => pure (some resp)
  | none =>
    match ← attempt (s.replayBatchResponse req binding) with
    | .ok (some resp) => pure (some resp)
    | .ok none => s.awaitFinalizedResponse req agentID binding
    | .error e =>
      if isIdempotentReplay e then s.awaitFinalizedResponse req agentID binding else throw e

def claimOrReplay (req : TransactionRequest) (agent : ResolvedAgent) (binding : AgentBinding)
    (digest : Bytes) : Svc Blob Admission := do
  match ← ask (.claimRequest agent.id req.idempotencyKey digest) with
  | .err e _ => throw (wrap .internal e "claim request idempotency key")
  | .won =>
    let resp ← s.replayBatchResponse req binding
    pure { resp, claimed := true, binding }
  | .lost stored =>
    if stored ≠ digest then
      throw (newf .idempotent
        "idempotency_key already used by this agent with a different item set")
    else
      match ← s.serveLostClaim req agent.id binding with
      | some resp => pure { resp := some resp, claimed := true, binding }
      | none =>
        let resp ← s.replayBatchResponse req binding
        pure { resp, claimed := true, binding }

def admitBatchRequest (ctx : RequestContext) (req : TransactionRequest) (agent : ResolvedAgent) :
    Svc Blob Admission := do
  match req.agentRequestAcceptance with
  | none =>
    match s.proveRequesterPossession req agent.key req.items with
    | none => pure {}
    | some binding =>
      s.relayPolicyGate ctx req agent
      let resp ← s.replayBatchResponse req binding
      pure { resp, binding }
  | some acceptance =>
    match s.verifyRequestAcceptance req acceptance agent.key with
    | .error e => throw e
    | .ok (binding, canonical) =>
      s.relayPolicyGate ctx req agent
      s.claimOrReplay req agent binding (s.sha256 canonical)

def selectFinalizedBatchResponse (stored : Option Blob) : Except Error TransactionResponse :=
  match stored with
  | none => .error (newf .internal "finalized response unavailable after lost finalization")
  | some payload =>
    if s.isEmpty payload then
      .error (newf .internal "finalized response unavailable after lost finalization")
    else match s.unmarshalResponse payload with
      | .error e => .error (wrap .internal e "decode winning finalized response")
      | .ok winner => .ok winner

def finalizeBatchResponse (req : TransactionRequest) (agentID : String)
    (resp : TransactionResponse) : Svc Blob TransactionResponse := do
  match s.marshalResponse resp with
  | .error e => throw (wrap .internal e "marshal finalized request response")
  | .ok payload =>
    match ← ask (.finalizeRequest agentID req.idempotencyKey payload) with
    | .err e _ => throw (wrap .internal e "finalize request response")
    | .done true => pure resp
    | .done false =>
      match ← ask (.requestResponse agentID req.idempotencyKey) with
      | .err e => throw (wrap .internal e "read winning finalized response")
      | .payload stored =>
        match s.selectFinalizedBatchResponse stored with
        | .error e => throw e
        | .ok winner => pure winner

end Service

end Ramp.Exchange
