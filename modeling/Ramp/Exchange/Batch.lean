import Ramp.Exchange.ItemBilling
import Ramp.Program.Pool

/-! `ExecuteTransaction`: the envelope check, the item loop, and the pipeline that admits, executes
and finalizes a batch; and the calls that gate or decorate a purchase. -/

namespace Ramp.Exchange

def maxIdempotencyKeyLen : Nat := 256

def maxRequesterDomainLen : Nat := 253

structure BatchOutcome where
  results : List TransactionResultItem := []
  sharedThumbprint : String := ""
  recovered : Option TransactionResponse := none

def batchDenialResult (item : TransactionItem) (e : Error) : Option TransactionResultItem :=
  (denialReasonForKind e).map fun reason =>
    { offerID := item.offer.offerID, denialReason := some reason }

namespace Service

variable {Blob : Type} (s : Service Blob)

/-- `seen` maps the offer ids of the items before index `i` to their index. -/
def validateItems (i : Nat) (seen : List (String × Nat)) : List TransactionItem → Except Error Unit
  | [] => .ok ()
  | item :: items =>
    if item.offer.signature = "" then
      .error (newf .invalidRequest ("item " ++ toString i ++ ": offer signature required"))
    else if item.acceptanceSignature = "" then
      .error (newf .invalidRequest
        ("item " ++ toString i ++ ": agent_acceptance signature required"))
    else if item.offer.canonicalURL = "" then
      .error (((newf .invalidRequest
        ("item " ++ toString i ++ ": offer identity.canonical_url required")).withField
          "items.offer.identity.canonical_url").withMeta "item_index" (toString i))
    else match seen.lookup item.offer.offerID with
      | some j =>
        .error (((newf .invalidRequest
          ("items " ++ toString j ++ " and " ++ toString i ++ " present duplicate offer_id " ++
            s.quote item.offer.offerID ++
            "; executing the same resource twice takes two separately issued offers")).withField
              "items.offer.offer_id").withMeta "item_index" (toString i))
      | none => validateItems (i + 1) ((item.offer.offerID, i) :: seen) items

def validateBatchRequest (req : TransactionRequest) : Except Error Unit :=
  if req.idempotencyKey = "" then
    .error ((newf .invalidRequest "idempotency_key required").withField "idempotency_key")
  else if req.idempotencyKey.utf8ByteSize > maxIdempotencyKeyLen then
    .error ((newf .invalidRequest ("idempotency_key exceeds " ++ toString maxIdempotencyKeyLen ++
      " bytes")).withField "idempotency_key")
  else if req.requester.id = "" then
    .error (newf .invalidRequest "requester.id required")
  else if req.requester.domain.utf8ByteSize > maxRequesterDomainLen then
    .error ((newf .invalidRequest ("requester.domain exceeds " ++
      toString maxRequesterDomainLen ++ " bytes")).withField "requester.domain")
  else if req.items = [] then
    .error (newf .invalidRequest "at least one item required")
  else s.validateItems 0 [] req.items

def denyIfReportingOverdue (tenant : Tenant) (agentID : String) : Svc Blob Unit := do
  let now ← ask .now
  match ← ask (.obligationCounts tenant.id agentID now) with
  | .error e => throw (wrap .internal e "count reporting obligations")
  | .ok counts =>
    let overdue := counts.inBucket .pending true
    let due := counts.pastDeadline
    if defaultOverdueRule.blocks overdue due then
      throw (newf .reportingOverdue ("reporting overdue: " ++ toString overdue ++
        " unreported, out of " ++ toString due ++ " past their deadline: " ++
        "file the missing usage reports, they are accepted however late they are"))
    else pure ()

def clearBatchItem (ctx : RequestContext) (req : TransactionRequest) (item : TransactionItem)
    (agent : ResolvedAgent) (correlation : RequestCorrelation) : Svc Blob BatchItemBilling := do
  let itemReq := itemRequest req item
  let resolved ← s.resolveOfferForTx item.offer
  match ← ask (.tenantByID resolved.entry.tenantID) with
  | .error e => throw (wrap .internal e "load tenant")
  | .ok tenant =>
    match s.authorizeExecute ctx itemReq agent tenant with
    | .error e => throw e
    | .ok binding =>
      denyIfReportingOverdue tenant agent.id
      match ← ask (.feeOverrideByOwner tenant.id resolved.entry.resourceOwnerID) with
      | .error e => throw (wrap .internal e "resolve fee override")
      | .ok override =>
        pure { tenant, resolved, itemReq, item, agentID := agent.id,
               billingRef := agent.billingRef, binding,
               derivedKey := derivedItemKey req.idempotencyKey item.offer.offerID,
               resourceOwnerID := resolved.entry.resourceOwnerID,
               feeRateBps := resolveFeeRateBps tenant.feeRateBps override, correlation }

def executeBatchItem (ctx : RequestContext) (req : TransactionRequest) (item : TransactionItem)
    (agent : ResolvedAgent) (correlation : RequestCorrelation) :
    Svc Blob (TransactionResultItem × String) := do
  let input ← s.clearBatchItem ctx req item agent correlation
  let result ← s.runBatchItemBilling input
  pure (result, input.binding.thumbprint)

def runBatchItemsFrom (ctx : RequestContext) (req : TransactionRequest) (agent : ResolvedAgent)
    (binding : AgentBinding) : List TransactionItem → BatchOutcome → Svc Blob BatchOutcome
  | [], out => pure out
  | item :: items, out => do
    match ← attempt (s.executeBatchItem ctx req item agent (resolveRequestCorrelation ctx)) with
    | .ok (result, thumbprint) =>
      runBatchItemsFrom ctx req agent binding items
        { out with
          results := out.results ++ [result]
          sharedThumbprint := if out.sharedThumbprint = "" then thumbprint
            else out.sharedThumbprint }
    | .error e =>
      match batchDenialResult item e with
      | some denied =>
        runBatchItemsFrom ctx req agent binding items
          { out with results := out.results ++ [denied] }
      | none =>
        if isIdempotentReplay e then
          match ← s.serveLostClaim req agent.id binding with
          | some resp => pure { recovered := some resp }
          | none => throw e
        else throw e

def runBatchItems (ctx : RequestContext) (req : TransactionRequest) (agent : ResolvedAgent)
    (binding : AgentBinding) : Svc Blob BatchOutcome :=
  s.runBatchItemsFrom ctx req agent binding req.items {}

def executeAdmitted (ctx : RequestContext) (req : TransactionRequest) (agent : ResolvedAgent)
    (adm : Admission) : Svc Blob TransactionResponse := do
  let outcome ← s.runBatchItems ctx req agent adm.binding
  match outcome.recovered with
  | some resp => pure resp
  | none =>
    match s.buildBatchTxResponse outcome.results outcome.sharedThumbprint with
    | .error e => throw e
    | .ok resp => if adm.claimed then s.finalizeBatchResponse req agent.id resp else pure resp

def executeBatch (ctx : RequestContext) (req : TransactionRequest) :
    Svc Blob TransactionResponse := do
  match s.validateBatchRequest req with
  | .error e => throw e
  | .ok _ =>
    let agent ← s.resolveAgent req
    let adm ← s.admitBatchRequest ctx req agent
    match adm.resp with
    | some resp => pure resp
    | none => s.executeAdmitted ctx req agent adm

end Service

abbrev BatchPool (Blob ι : Type) :=
  Pool (Op Blob) Res (Store Blob) ι (Except Error TransactionResponse)

def batchPool {Blob ι : Type} (s : Service Blob) (ctx : ι → RequestContext)
    (req : ι → TransactionRequest) (store : Store Blob) : BatchPool Blob ι where
  shared := store
  threads i := (s.executeBatch (ctx i) (req i)).run

open Ramp.Billing Prog

variable {Blob L : Type}

def Op.Quiet : Op Blob → Prop
  | .feeOverrideByOwner _ _ | .obligationCounts _ _ _ | .sorIsActive _ | .urlSignerFor _
  | .signURL _ _ _ _ | .now | .newUUID | .wait => True
  | _ => False

structure IgnoresQuiet (track : (op : Op Blob) → L → Res op → L) (G : L → Op Blob → Prop) :
    Prop where
  ignores : ∀ op l r, op.Quiet → track op l r = l
  allows : ∀ l op, op.Quiet → G l op

section

variable {track : (op : Op Blob) → L → Res op → L} {G : L → Op Blob → Prop} {α β : Type}

theorem IgnoresQuiet.only (hq : IgnoresQuiet track G) {x : Svc Blob α}
    (hx : Only Op.Quiet x.run) (l : L) : Spec (tracked track) G (fun l' _ => l' = l) x.run l :=
  hx.spec hq.ignores hq.allows l

theorem IgnoresQuiet.tell (hq : IgnoresQuiet track G) {op : Op Blob} (hop : op.Quiet)
    {Q : L → Except Error β → Prop} {l : L} {f : Res op → Svc Blob β}
    (h : ∀ r, Spec (tracked track) G Q (f r).run l) :
    Spec (tracked track) G Q (ask op >>= f).run l := by
  refine .tell (hq.allows l op hop) fun r => ?_
  rw [hq.ignores op l r hop]
  exact h r

end

namespace Service

variable (s : Service Blob)

theorem checkAccountActive_quiet (billingRef : String) :
    Only Op.Quiet (checkAccountActive billingRef : Svc Blob Unit).run := by
  refine .ask trivial fun r => ?_
  rcases r with on | e | e
  · cases on <;> exact trivial
  · exact trivial
  · exact trivial

theorem mintSignedURL_quiet (tenant : Tenant) (entry : CatalogEntry) (thumbprint : String) :
    Only Op.Quiet (s.mintSignedURL tenant entry thumbprint).run := by
  refine .ask trivial fun r => ?_
  rcases r with _ | e | e
  · refine .ask trivial fun now => .ask trivial fun r => ?_
    cases r <;> exact trivial
  · exact trivial
  · exact trivial

structure IntentOf (p : PersistInput Blob) (intent : PersistTxIntent Blob) : Prop where
  idempotencyKey : intent.idempotencyKey = p.input.derivedKey
  billingID : intent.billingID = p.auth.billingID
  resultPayload : intent.resultPayload = p.resultPayload
  agentIdentityHash : intent.agentIdentityHash = p.input.binding.digest
  agentID : intent.agentID = p.input.agentID
  offerID : intent.offerID = p.input.item.offer.offerID

theorem buildPersistIntent_spec {track : (op : Op Blob) → L → Res op → L}
    {G : L → Op Blob → Prop} (hq : IgnoresQuiet track G) (p : PersistInput Blob) (l : L) :
    Spec (tracked track) G (fun l' r => l' = l ∧ match r with
      | .ok x => IntentOf p x.1
      | .error e => e.kind = .internal) (s.buildPersistIntent p).run l := by
  unfold buildPersistIntent
  split
  next e he =>
    refine .throw ⟨rfl, ?_⟩
    unfold offerEvidence at he
    split at he
    · simp only [Except.error.injEq] at he
      rw [← he]
      rfl
    · simp at he
  next evidence he =>
    refine hq.tell (by trivial) fun obligationID => hq.tell (by trivial) fun now => ?_
    exact .pure ⟨rfl, rfl, rfl, rfl, rfl, rfl, rfl⟩

end Service

end Ramp.Exchange
