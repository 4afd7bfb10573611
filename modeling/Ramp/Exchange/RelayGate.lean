import Ramp.Exchange.Answers
import Ramp.Exchange.Clearance

/-! A request that a broker relays does nothing but look up the agent, the
catalog and its tenants until every item has passed the relay gate. -/

namespace Ramp.Exchange

open Prog

variable {Blob ι : Type}

def Op.Lookup (op : Op Blob) : Prop := op.Directory ∨ op.Catalog

structure RelayOffer (s : Service Blob) (h : History (Op Blob) Res) (offer : Offer) : Prop where
  signed : s.verifyOffer offer offer.signature s.offerPublicKey = .ok ()
  allowed : ∃ entry tenant, ⟨.catalogByURI offer.canonicalURL, some entry⟩ ∈ h ∧
    ⟨.tenantByID entry.tenantID, .ok tenant⟩ ∈ h ∧ tenant.allowBrokerRelay = true

def RelayCleared (s : Service Blob) (req : TransactionRequest) (h : History (Op Blob) Res) :
    Prop :=
  ∃ agent, Resolved s req (fun id a => ⟨.agentByID id, .found a⟩ ∈ h) agent ∧
    ∀ item ∈ req.items,
      s.verifyOfferAcceptance item.offer req.requester req.idempotencyKey
        item.acceptanceSignature agent.key.pub = .ok ∧ RelayOffer s h item.offer

def RelayGuard (s : Service Blob) (req : TransactionRequest) (h : History (Op Blob) Res)
    (op : Op Blob) : Prop :=
  op.Lookup ∨ RelayCleared s req h

variable {h h' : History (Op Blob) Res} {op : Op Blob} {r : Res op} {s : Service Blob}

theorem RelayOffer.mono {offer : Offer} (ho : RelayOffer s h offer)
    (hle : h ⊆ h') : RelayOffer s h' offer := by
  obtain ⟨hsigned, entry, tenant, he, ht, ha⟩ := ho
  exact ⟨hsigned, entry, tenant, hle he, hle ht, ha⟩

variable {req : TransactionRequest}

theorem RelayCleared.mono (hc : RelayCleared s req h) (hle : h ⊆ h') : RelayCleared s req h' := by
  obtain ⟨agent, hagent, hitems⟩ := hc
  exact ⟨agent, hagent.mono fun _ _ hm => hle hm, fun item hm =>
    ⟨(hitems item hm).1, (hitems item hm).2.mono hle⟩⟩

theorem recordCall_subset (hr : recordCall op h r = some h') : h ⊆ h' := by
  cases hr
  exact List.subset_append_left _ _

theorem mem_recordCall (hr : recordCall op h r = some h') : ⟨op, r⟩ ∈ h' := by
  cases hr
  simp

theorem RelayCleared.spec {α : Type} (hc : RelayCleared s req h) (p : Prog (Op Blob) Res α) :
    Spec recordCall (RelayGuard s req) (fun h' _ => RelayCleared s req h') p h :=
  Spec.of_inv p (fun _ _ _ _ hc hr => hc.mono (recordCall_subset hr)) (fun _ _ hc => .inr hc) hc

namespace Service

variable (s : Service Blob) {req : TransactionRequest}

theorem relay_passes (req : TransactionRequest) {P : Op Blob → Prop} (hP : ∀ op, P op → op.Lookup) :
    Passes recordCall (RelayGuard s req) (fun _ => True) P where
  allows _ op _ hop := Or.inl (hP op hop)
  keeps _ _ _ _ _ _ _ := trivial

theorem resolveRelayTenant_spec (item : TransactionItem) (h : History (Op Blob) Res) :
    Spec recordCall (RelayGuard s req) (fun h' r => ∀ id, r = .ok (some id) →
      s.verifyOffer item.offer item.offer.signature s.offerPublicKey = .ok () ∧
      ∃ entry, ⟨.catalogByURI item.offer.canonicalURL, some entry⟩ ∈ h' ∧ entry.tenantID = id)
      (s.resolveRelayTenant item).run h := by
  unfold resolveRelayTenant
  split
  · exact .pure fun id hid => absurd hid (by simp)
  next hv =>
    split_ifs
    · exact .pure fun id hid => absurd hid (by simp)
    · refine .ask (.inl (.inr trivial)) fun r h₁ hr => .pure fun id hid => ?_
      obtain ⟨entry, rfl, rfl⟩ := Option.map_eq_some_iff.mp (Except.ok.inj hid)
      exact ⟨hv, entry, mem_recordCall hr, rfl⟩

theorem relayTenants_spec {chain : TransportChain} (hb : chain.hasBroker = true)
    (items : List TransactionItem) (h : History (Op Blob) Res) : Spec recordCall (RelayGuard s req)
      (fun h' r => ∀ u, r = .ok u → ∀ item ∈ items, RelayOffer s h' item.offer)
      (s.relayTenants chain items).run h := by
  induction items generalizing h with
  | nil => exact .pure fun _ _ item hm => absurd hm (by simp)
  | cons item items ih =>
    refine .seq (s.resolveRelayTenant_spec item h) (fun _ e _ u hu => absurd hu (by simp)) ?_
    rintro h₁ (_ | id) hid
    · exact .throw fun u hu => absurd hu (by simp)
    · obtain ⟨hv, entry, hentry, rfl⟩ := hid id rfl
      refine .ask (.inl (.inr trivial)) fun r h₂ hr => ?_
      rcases r with e | tenant
      · exact .throw fun u hu => absurd hu (by simp)
      · by_cases ha : tenant.allowBrokerRelay = true
        · have hok : s.authorizeTransportRelay chain tenant = .ok () := by
            simp [authorizeTransportRelay, hb, ha]
          simp only [hok]
          have hcur : RelayOffer s h₂ item.offer :=
            ⟨hv, entry, tenant, recordCall_subset hr hentry, mem_recordCall hr, ha⟩
          refine ((ih h₂).keep (I := fun h => RelayOffer s h item.offer) ?_ hcur).mono
            (fun _ _ hg => hg) ?_
          · exact fun _ _ _ _ _ ho hr => ho.mono (recordCall_subset hr)
          · rintro h' r ⟨hrest, hcur⟩ u hu it hit
            rcases List.mem_cons.mp hit with rfl | hit
            · exact hcur
            · exact hrest u hu it hit
        · have herr : ∃ e, s.authorizeTransportRelay chain tenant = .error e := by
            simp [authorizeTransportRelay, hb, ha]
          obtain ⟨e, he⟩ := herr
          simp only [he]
          exact .throw fun u hu => absurd hu (by simp)

variable {agent : ResolvedAgent} {items : List TransactionItem} {item : TransactionItem}
  {ctx : RequestContext} {h : History (Op Blob) Res}

theorem relayAcceptances_ok {u : Unit} (h : s.relayAcceptances req agent items = .ok u)
    (hm : item ∈ items) : s.verifyOfferAcceptance item.offer req.requester req.idempotencyKey
      item.acceptanceSignature agent.key.pub = .ok := by
  induction items with
  | nil => exact absurd hm (by simp)
  | cons it items ih =>
    simp only [relayAcceptances] at h
    split at h
    · simp at h
    next hv =>
      rcases List.mem_cons.mp hm with rfl | hm
      · exact (s.verifyAgentAcceptance_ok hv).2.1
      · exact ih h hm

abbrev AgentRead (h : History (Op Blob) Res) (id : String) (a : Agent) : Prop :=
  ⟨.agentByID id, .found a⟩ ∈ h

section

variable (hb : (classifyTransportChain ctx.verified).hasBroker = true)
  (ha : Resolved s req (AgentRead h) agent)
include hb ha

theorem relayPolicyGate_spec :
    Spec recordCall (RelayGuard s req) (fun h' r => ∀ u, r = .ok u → RelayCleared s req h')
      (s.relayPolicyGate ctx req agent).run h := by
  unfold relayPolicyGate
  simp only [hb, if_true]
  split
  · exact .throw fun u hu => absurd hu (by simp)
  next hacc =>
    refine ((s.relayTenants_spec hb req.items h).keep
      (I := fun h => Resolved s req (AgentRead h) agent) ?_ ha).mono (fun _ _ hg => hg) ?_
    · exact fun _ _ _ _ _ ha hr => ha.mono fun _ _ hm => recordCall_subset hr hm
    · rintro h' r ⟨hoffers, ha⟩ u hu
      exact ⟨agent, ha, fun item hm => ⟨s.relayAcceptances_ok hacc hm, hoffers u hu item hm⟩⟩

theorem admitBatchRequest_relay :
    Spec recordCall (RelayGuard s req) (fun h' r => ∀ adm, r = .ok adm → RelayCleared s req h' ∨
      (adm = {} ∧ ∀ item ∈ req.items,
        ¬ ∃ b, s.verifyAgentAcceptance (itemRequest req item) agent.key = .ok b))
      (s.admitBatchRequest ctx req agent).run h := by
  have hrest : ∀ {h : History (Op Blob) Res} (x : Svc Blob Admission), RelayCleared s req h →
      Spec recordCall (RelayGuard s req) (fun h' r => ∀ adm, r = .ok adm → RelayCleared s req h' ∨
        (adm = {} ∧ ∀ item ∈ req.items,
          ¬ ∃ b, s.verifyAgentAcceptance (itemRequest req item) agent.key = .ok b)) x.run h :=
    fun x hc => (hc.spec x.run).mono (fun _ _ hg => hg) fun _ _ hc _ _ => .inl hc
  unfold admitBatchRequest
  split
  · split
    next hnone =>
      refine .pure fun adm hadm => .inr ⟨(Except.ok.inj hadm).symm, fun item hm => ?_⟩
      exact s.proveRequesterPossession_none hnone hm
    · refine .seq (s.relayPolicyGate_spec hb ha) (fun _ _ _ adm hadm => absurd hadm (by simp)) ?_
      exact fun h' u hc => hrest _ (hc u rfl)
  · split
    · exact .throw fun adm hadm => absurd hadm (by simp)
    · refine .seq (s.relayPolicyGate_spec hb ha) (fun _ _ _ adm hadm => absurd hadm (by simp)) ?_
      exact fun h' u hc => hrest _ (hc u rfl)

end

theorem executeBatchItem_unverified {correlation : RequestCorrelation}
    (hv : ¬ ∃ b, s.verifyAgentAcceptance (itemRequest req item) agent.key = .ok b)
    (h : History (Op Blob) Res) :
    Spec recordCall (RelayGuard s req) (fun _ r => ∃ e, r = .error e ∧ isIdempotentReplay e = false)
      (s.executeBatchItem ctx req item agent correlation).run h := by
  have hclear := s.clearBatchItem_spec (s.relay_passes req fun _ hop => .inr hop) ctx req item
    agent correlation (fun hb => absurd hb hv) (t := h) trivial
  refine .seq hclear (fun _ e he => ⟨e, rfl, he.2.1 e rfl⟩) fun _ input hin => ?_
  exact absurd ⟨input.binding, (hin.2.2 input rfl).verified⟩ hv

theorem runBatchItemsFrom_unverified {binding : AgentBinding} {out : BatchOutcome}
    (hv : ∀ item ∈ items, ¬ ∃ b, s.verifyAgentAcceptance (itemRequest req item) agent.key = .ok b)
    (hout : out.recovered = none ∧ ∀ r ∈ out.results, r.denialReason ≠ none)
    (h : History (Op Blob) Res) :
    Spec recordCall (RelayGuard s req) (fun _ r => ∀ o, r = .ok o → o.recovered = none ∧
      ∀ r ∈ o.results, r.denialReason ≠ none)
      (s.runBatchItemsFrom ctx req agent binding items out).run h := by
  induction items generalizing out h with
  | nil =>
    refine .pure fun o ho => ?_
    cases ho
    exact hout
  | cons item items ih =>
    refine .attempt (s.executeBatchItem_unverified (hv item (by simp)) h) ?_
    rintro h₁ r ⟨e, rfl, he⟩
    dsimp only
    split
    next denied hd =>
      refine ih (fun it hm => hv it (List.mem_cons_of_mem _ hm)) ⟨?_, ?_⟩ h₁
      · exact hout.1
      · intro r hr
        rcases List.mem_append.mp hr with hr | hr
        · exact hout.2 r hr
        · obtain rfl := List.mem_singleton.mp hr
          obtain ⟨reason, -, rfl⟩ := Option.map_eq_some_iff.mp hd
          simp
    · simp only [he]
      exact .throw fun o ho => absurd ho (by simp)

theorem executeBatch_relay (hb : (classifyTransportChain ctx.verified).hasBroker = true)
    (req : TransactionRequest) :
    Spec recordCall (RelayGuard s req) (fun h r => ∀ resp, r = .ok resp →
      RelayCleared s req h ∨ ∀ r ∈ resp.items, r.denialReason ≠ none)
      (s.executeBatch ctx req).run [] := by
  unfold executeBatch
  split
  · exact .throw fun resp h => absurd h (by simp)
  · refine .seq (s.resolveAgent_spec AgentRead
      (s.relay_passes req fun _ hop => .inl hop) (fun _ _ _ _ hr => mem_recordCall hr) req trivial)
      (fun _ _ _ resp h => absurd h (by simp)) ?_
    rintro h₁ agent ⟨-, ha⟩
    refine .seq (s.admitBatchRequest_relay hb (ha agent rfl))
      (fun _ _ _ resp h => absurd h (by simp)) fun h₂ adm hadm => ?_
    rcases hadm adm rfl with hc | ⟨rfl, hv⟩
    · exact (hc.spec _).mono (fun _ _ hg => hg) fun _ _ hc _ _ => .inl hc
    · refine .seq (s.runBatchItemsFrom_unverified hv ⟨rfl, by simp⟩ h₂)
        (fun _ _ _ resp h => absurd h (by simp)) fun h₃ out hout => ?_
      obtain ⟨hrec, hden⟩ := hout out rfl
      rw [hrec]
      dsimp only
      split
      · exact .throw fun resp h => absurd h (by simp)
      next resp hresp =>
        refine .pure fun resp' h => .inr ?_
        cases h
        unfold buildBatchTxResponse at hresp
        split at hresp
        · simp at hresp
        · cases hresp
          exact hden

theorem runBatchItemsFrom_chain {v : List String} {binding : AgentBinding} {out : BatchOutcome}
    (hv : classifyTransportChain v = classifyTransportChain ctx.verified) :
    s.runBatchItemsFrom { ctx with verified := v } req agent binding items out =
      s.runBatchItemsFrom ctx req agent binding items out := by
  have hitem : ∀ item correlation,
      s.executeBatchItem { ctx with verified := v } req item agent correlation =
        s.executeBatchItem ctx req item agent correlation := fun item correlation => by
    simp only [executeBatchItem, clearBatchItem, authorizeExecute, hv]
  induction items generalizing out with
  | nil => rfl
  | cons item items ih =>
    simp only [runBatchItemsFrom, hitem, ih]
    rfl

/-- One signature, whoever made it, is handled as none. -/
theorem executeBatch_direct (h : ctx.verified.length ≤ 1) (req : TransactionRequest) :
    s.executeBatch ctx req = s.executeBatch { ctx with verified := [] } req := by
  have hv : classifyTransportChain [] = classifyTransportChain ctx.verified := by
    simp [classifyTransportChain, h]
  simp only [executeBatch, executeAdmitted, runBatchItems, admitBatchRequest, relayPolicyGate,
    s.runBatchItemsFrom_chain hv, hv]

end Service

theorem batchPool_relay (s : Service Blob) (ctx : ι → RequestContext)
    (req : ι → TransactionRequest) (store : Store Blob) (i : ι) :
    Spec recordCall (fun h op => 1 < (ctx i).verified.length → RelayGuard s (req i) h op)
      (fun h r => 1 < (ctx i).verified.length → ∀ resp, r = .ok resp →
        RelayCleared s (req i) h ∨ ∀ it ∈ resp.items, it.denialReason ≠ none)
      ((batchPool s ctx req store).threads i) [] := by
  by_cases hb : 1 < (ctx i).verified.length
  · refine (s.executeBatch_relay ?_ (req i)).mono (fun _ _ hg _ => hg)
      fun _ _ hq _ => hq
    simp [classifyTransportChain, hb]
  · refine (Spec.of_inv (I := fun _ => True) _ ?_ ?_ trivial).mono (fun _ _ hg => hg) ?_
    · exact fun _ _ _ _ _ _ => trivial
    · exact fun _ _ _ h => absurd h hb
    · exact fun _ _ _ h => absurd h hb

/-- A request with a second signature makes no call but lookups before every
item is accepted under the agent's key, authentically offered, listed, and sold
by a tenant that allows relay. Answered without that, it is denied throughout. With
one signature only, be it a broker's, a request is handled as one without any. -/
theorem relayed_request_cleared_first [DecidableEq Blob] [DecidableEq ι] (s : Service Blob)
    {ctx : ι → RequestContext} {req : ι → TransactionRequest} {store : Store Blob}
    {env : Store Blob → Store Blob → Prop} {tr : Trace (Op Blob) Res ι} {c : BatchPool Blob ι}
    (hr : Run Store.step env (batchPool s ctx req store) tr c) (i : ι) :
    (1 < (ctx i).verified.length →
      (∀ (pre post : Trace (Op Blob) Res ι) op r, tr = pre ++ (i, ⟨op, r⟩) :: post →
        op.Lookup ∨ RelayCleared s (req i) (pre.own i)) ∧ ∀ resp, c.threads i = .ret (.ok resp) →
        RelayCleared s (req i) (tr.own i) ∨ ∀ it ∈ resp.items, it.denialReason ≠ none) ∧
    ((ctx i).verified.length ≤ 1 → s.executeBatch (ctx i) (req i) =
      s.executeBatch { ctx i with verified := [] } (req i)) := by
  have hs := batchPool_relay s ctx req store
  exact ⟨fun hb => ⟨fun pre post op r htr => hr.guarded hs htr hb,
    fun resp hret => hr.returned hs hret hb resp rfl⟩, fun h => s.executeBatch_direct h (req i)⟩

abbrev SignedRun (verified : List String) (tr : Trace (Op Payload) Res Unit)
    (c : BatchPool Payload Unit) : Prop :=
  Run Store.step (fun _ _ => False) (batchPool plainService (fun _ : Unit => ⟨verified, "", false⟩)
    (fun _ => plainRequest [plainItem "offer"]) {}) tr c

/-- A relayed request that claims its key was cleared before. -/
theorem relayed_request_cleared_at_claim : ∃ pre : Trace (Op Payload) Res Unit, ∃ c,
    SignedRun ["agent", "broker"]
      (pre ++ [((), ⟨.claimRequest "agent.example" "key" [], .won⟩)]) c ∧
    RelayCleared plainService (plainRequest [plainItem "offer"]) (pre.own ()) := by
  have hrun : ∃ tr c, SignedRun ["agent", "broker"] tr c ∧
      tr.getLast? = some ((), ⟨.claimRequest "agent.example" "key" [], .won⟩) :=
    Pool.exists_run (turns 4 ()) (by decide +kernel)
  obtain ⟨tr, c, hr, hlast⟩ := hrun
  obtain ⟨pre, rfl⟩ := List.getLast?_eq_some_iff.mp hlast
  have hstep := ((relayed_request_cleared_first plainService hr ()).1 (by decide)).1 pre [] _ _ rfl
  refine ⟨pre, c, hr, hstep.resolve_left ?_⟩
  rintro (h | h) <;> exact h

def noRelay : Surroundings :=
  { plainSurroundings with tenant := { plainSurroundings.tenant with allowBrokerRelay := false } }

def refusesRelay : Event (Op Payload) Res → Bool
  | ⟨.tenantByID _, .ok tenant⟩ => !tenant.allowBrokerRelay
  | _ => true

/-- A request that a broker alone has signed buys from a tenant that does not allow relay. -/
theorem broker_signature_not_gated : ∃ tr c resp, SignedRun ["broker"] tr c ∧
      ¬ RelayCleared plainService (plainRequest [plainItem "offer"]) (tr.own ()) ∧
      ⟨.claimRequest "agent.example" "key" [], .won⟩ ∈ tr.own () ∧
      (c.shared.rows (derivedItemKey "key" "offer")).isSome = true ∧
      c.threads () = .ret (.ok resp) ∧ ∀ it ∈ resp.items, it.denialReason = none := by
  obtain ⟨tr, c, hr, hrefuses, hclaim, hrow, hany⟩ : ∃ tr c, SignedRun ["broker"] tr c ∧
      (∀ e ∈ tr.own (), refusesRelay e = true) ∧
      ⟨.claimRequest "agent.example" "key" [], .won⟩ ∈ tr.own () ∧
      (c.shared.rows (derivedItemKey "key" "offer")).isSome = true ∧
      ((c.threads ()).ok?.any fun resp => resp.items.all (·.denialReason = none)) = true :=
    Pool.exists_run (List.replicate 20 ⟨(), Store.answer noRelay⟩) (by decide +kernel)
  obtain ⟨resp, hresp, hitems⟩ := (Option.any_eq_true _ _).mp hany
  refine ⟨tr, c, resp, hr, fun hcleared => ?_, hclaim, hrow, ok?_eq_some.mp hresp,
    by simpa using hitems⟩
  obtain ⟨agent, -, hoffers⟩ := hcleared
  obtain ⟨entry, tenant, -, hread, hallowed⟩ := (hoffers _ List.mem_cons_self).2.allowed
  have hno := hrefuses _ hread
  simp [refusesRelay, hallowed] at hno

end Ramp.Exchange
