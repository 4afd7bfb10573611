import Ramp.Exchange.Answers
import Ramp.Exchange.BatchConduct

/-! The end of a request, and any number of requests over one store. Rows and finalized responses
are written once, and what is stored some request wrote. -/

namespace Ramp.Exchange

variable {resp : TransactionResponse} {Blob : Type}

section

open Prog

variable {agent : ResolvedAgent}

section

variable {s : Service Blob} {req : TransactionRequest} {t : BatchTrail Blob}

theorem Ends.error {e : Error} (h : t.finals = []) : Ends s req t (.error e) :=
  ⟨fun resp hr => absurd hr (by simp), by simp [h]⟩

theorem Ends.ok (h : t.finals = []) (ha : Answer s req t resp) : Ends s req t (.ok resp) :=
  ⟨fun resp' hr => Except.ok.inj hr ▸ ha, by simp [h]⟩

theorem Progress.outcome {out : BatchOutcome} (h : Progress s req t agent req.items out)
    (ha : Resolved s req t.Found agent)
    (hresp : s.buildBatchTxResponse out.results out.sharedThumbprint = .ok resp) :
    Outcome s req t agent resp := by
  unfold Service.buildBatchTxResponse at hresp
  split at hresp
  · simp at hresp
  · cases hresp
    refine ⟨⟨ha, h.results, fun ⟨r, hr, hg⟩ => ?_⟩, h.told⟩
    rcases h.thumbprint with ⟨-, hall⟩ | hs
    · exact absurd hg (hall r hr)
    · exact hs

structure Unfinalized (t₀ t : BatchTrail Blob) : Prop where
  le : t₀.Le t
  finals : t.finals = []

theorem LoopGuard.unfinalized {op : Op Blob} {t₀ t' : BatchTrail Blob} {r : Res op}
    (hg : t.LoopGuard s req op) (h : Unfinalized t₀ t)
    (hr : tracked BatchTrail.track op t r = some t') : Unfinalized t₀ t' := by
  refine ⟨BatchTrail.le_of_tracked h.le hr, ?_⟩
  cases hr
  have htrack := BatchTrail.track_tracked op t r
  generalize BatchTrail.track op t r = u at htrack ⊢
  cases htrack with
  | final | outrun => exact hg.elim
  | _ => exact h.finals

end

namespace Service

variable (s : Service Blob) {req : TransactionRequest} {t : BatchTrail Blob}

abbrev EndSpec (req : TransactionRequest) (x : Svc Blob TransactionResponse)
    (t : BatchTrail Blob) : Prop :=
  Spec (tracked BatchTrail.track) (BatchTrail.Guard s req) (Ends s req) x.run t

theorem BatchSpec.then_ends {s : Service Blob} {α : Type}
    {Q : BatchTrail Blob → Except Error α → Prop} {x : Svc Blob α}
    {f : α → Svc Blob TransactionResponse} (hx : s.BatchSpec req Q x t) (ht : t.finals = [])
    (hf : ∀ t' a, Q t' (.ok a) → Unfinalized t t' → s.EndSpec req (f a) t') :
    s.EndSpec req (x >>= f) t := by
  have hkeep := hx.keep (fun _ _ _ _ hg h hr => LoopGuard.unfinalized hg h hr)
    ⟨BatchTrail.Le.refl t, ht⟩
  refine .seq (hkeep.mono (fun _ _ hg => hg.guard) fun _ _ h => h) ?_ ?_
  · exact fun t' e h => Ends.error h.2.finals
  · exact fun t' a h => hf t' a h.1 h.2

theorem selectFinalizedBatchResponse_ok {stored : Option Blob} {winner : TransactionResponse}
    (h : s.selectFinalizedBatchResponse stored = .ok winner) :
    ∃ payload, stored = some payload ∧ s.unmarshalResponse payload = .ok winner := by
  unfold selectFinalizedBatchResponse at h
  split at h
  · simp at h
  next payload =>
    split_ifs at h
    split at h
    · simp at h
    next hd => exact ⟨payload, rfl, Except.ok.inj h ▸ hd⟩

theorem finalizeBatchResponse_ends {acceptance : RequestAcceptance} {binding : AgentBinding}
    {canonical : Bytes} (ho : Outcome s req t agent resp)
    (hacc : req.agentRequestAcceptance = some acceptance)
    (hv : s.verifyRequestAcceptance req acceptance agent.key = .ok (binding, canonical))
    (ht : t.finals = []) : s.EndSpec req (s.finalizeBatchResponse req agent.id resp) t := by
  have hslot : OwnSlot s req agent.id req.idempotencyKey := ⟨ho.resolved.id, rfl⟩
  unfold finalizeBatchResponse
  split
  · exact .throw (Ends.error ht)
  next payload hpay =>
    let t₁ : BatchTrail Blob := { t with finals := payload :: t.finals }
    have ho₁ : Outcome s req t₁ agent resp := ⟨⟨ho.resolved, ho.items, ho.hash⟩, ho.told⟩
    have hfinal : ∀ p ∈ t₁.finals, ∃ agent resp, Outcome s req t₁ agent resp ∧
        s.marshalResponse resp = .ok p := by
      intro p hp
      obtain rfl : p = payload := by simpa [t₁, ht] using hp
      exact ⟨agent, resp, ho₁, hpay⟩
    refine .tell ⟨hslot, by simp [hacc], agent, resp, ho, hpay⟩ fun r => ?_
    rcases r with (_ | _) | ⟨e, _ | _⟩
    · refine .tell hslot fun r => ?_
      rcases r with stored | e
      · dsimp only
        split
        next herr =>
          cases stored <;> exact .throw (Ends.error ht)
        next winner hwin =>
          obtain ⟨stored, rfl, hdec⟩ := s.selectFinalizedBatchResponse_ok hwin
          exact .pure (Ends.ok ht (.readBack ho.resolved hacc hv rfl List.mem_cons_self hdec))
      · exact .throw (Ends.error ht)
    · refine .pure ⟨fun resp' h => ?_, hfinal⟩
      cases h
      exact .finalized ho₁ hpay List.mem_cons_self
    · exact .throw (Ends.error ht)
    · exact .throw ⟨fun resp' h => absurd h (by simp), hfinal⟩

theorem executeAdmitted_ends {adm : Admission} (ctx : RequestContext)
    (ha : Resolved s req t.Found agent) (hadm : Admitted s req t agent adm) (ht : t.finals = []) :
    s.EndSpec req (s.executeAdmitted ctx req agent adm) t := by
  have hstart : Progress s req t agent [] {} :=
    ⟨rfl, .nil, by simp [hadm.writes], Or.inl ⟨rfl, by simp⟩⟩
  refine BatchSpec.then_ends
    (s.runBatchItemsFrom_batch rfl ha hadm.held hadm.proven hstart) ht fun t' out hloop hun => ?_
  have ha' := ha.le hun.le
  rcases hloop out rfl with hp | ⟨resp, hrec, hproven, hstored⟩
  · rw [hp.recovered]
    dsimp only
    split
    · exact .throw (Ends.error hun.finals)
    next resp hresp =>
      have ho := hp.outcome ha' hresp
      cases hc : adm.claimed with
      | true =>
        obtain ⟨acceptance, canonical, hacc, hv⟩ := hadm.claimed hc
        exact s.finalizeBatchResponse_ends ho hacc hv hun.finals
      | false => exact .pure (Ends.ok hun.finals (.executed (hadm.bare hc) ho))
  · rw [hrec]
    exact .pure (Ends.ok hun.finals (.stored ha' hproven hstored))

theorem batch_passes_directory (req : TransactionRequest) :
    Passes (tracked BatchTrail.track) (BatchTrail.LoopGuard s req) (fun t => t.writes = [])
      Op.Directory where
  allows l op _ hop := by cases op <;> trivial
  keeps op l r l' hop hl hr := by
    cases hr
    cases op
    case agentByID => rcases r with a | _ | e | e <;> exact hl
    all_goals first | exact hl | exact hop.elim

theorem executeBatch_ends (ctx : RequestContext) (req : TransactionRequest) :
    s.EndSpec req (s.executeBatch ctx req) {} := by
  unfold executeBatch
  split
  · exact .throw (Ends.error rfl)
  · refine BatchSpec.then_ends (s.resolveAgent_spec BatchTrail.Found
      (s.batch_passes_directory req) ?_ req rfl) rfl ?_
    · rintro t id a t' hr
      cases hr
      exact List.mem_cons_self
    · rintro t₁ agent ⟨hw, ha⟩ hun₁
      refine BatchSpec.then_ends (s.admitBatchRequest_batch ctx (ha agent rfl) hw) hun₁.finals ?_
      intro t₂ adm hadm hun₂
      have had := hadm adm rfl
      have ha' := (ha agent rfl).le hun₂.le
      split
      next resp hr =>
        obtain ⟨hproven, hstored⟩ := had.answered resp hr
        exact .pure (Ends.ok hun₂.finals (.stored ha' hproven hstored))
      · exact s.executeAdmitted_ends ctx ha' had hun₂.finals

end Service

end

open Prog

variable {ι : Type}

structure Store.Grows (s t : Store Blob) : Prop where
  rows : ∀ key row, s.rows key = some row → t.rows key = some row
  finalized : ∀ slot p, s.finalized slot = some p → t.finalized slot = some p
  digest : ∀ slot d, (s.claims slot).map Claim.itemsDigest = some d →
    (t.claims slot).map Claim.itemsDigest = some d

variable {slot : String × String} {payload : Blob}

namespace Store

variable {s t : Store Blob}

theorem grows_setClaim {c : Claim Blob}
    (hfin : ∀ p, s.finalized slot = some p → c.responsePayload = some p)
    (hdig : ∀ d, (s.claims slot).map Claim.itemsDigest = some d → c.itemsDigest = d) :
    s.Grows (s.setClaim slot c) := by
  refine ⟨fun _ _ h => h, fun slot' p hp => ?_, fun slot' d hd => ?_⟩
  · by_cases hs : slot' = slot
    · subst hs
      simpa [finalized, setClaim] using hfin p hp
    · simpa [finalized, setClaim, hs] using hp
  · by_cases hs : slot' = slot
    · subst hs
      simpa [setClaim] using hdig d hd
    · simpa [setClaim, hs] using hd

theorem step_grows [DecidableEq Blob] {op : Op Blob} {r : Res op} (h : step op s r = some t) :
    s.Grows t := by
  have hrows : ∀ key row, s.rows key = some row → t.rows key = some row :=
    fun _ _ hrow => step_rows_keep h hrow
  cases step_effect h with
  | claimed hc => exact grows_setClaim (by simp [finalized, hc]) (by simp [hc])
  | finalized _ hc => exact grows_setClaim (by simp [finalized, hc]) (by simp [hc])
  | _ => exact ⟨hrows, fun _ _ hp => hp, fun _ _ hd => hd⟩

end Store

structure Known (s : Service Blob) (req : TransactionRequest) (t : BatchTrail Blob)
    (st : Store Blob) : Prop where
  writes : ∀ intent ∈ t.writes, st.rows intent.idempotencyKey = some intent.record
  rows : ∀ key row, (key, row) ∈ t.rows → st.rows key = some row
  payloads : ∀ a k p, OwnSlot s req a k → p ∈ t.payloads → st.finalized (a, k) = some p
  finals : ∀ a k p, OwnSlot s req a k → p ∈ t.finals → st.finalized (a, k) = some p
  claims : ∀ a k d, OwnSlot s req a k → d ∈ t.claims →
    (st.claims (a, k)).map Claim.itemsDigest = some d

variable {s : Service Blob} {req : TransactionRequest} {st st' : Store Blob} {t : BatchTrail Blob}

theorem Known.grows (h : Known s req t st) (hg : st.Grows st') : Known s req t st' :=
  ⟨fun intent hm => hg.rows _ _ (h.writes intent hm),
    fun key row hm => hg.rows _ _ (h.rows key row hm),
    fun a k p hs hm => hg.finalized _ _ (h.payloads a k p hs hm),
    fun a k p hs hm => hg.finalized _ _ (h.finals a k p hs hm),
    fun a k d hs hm => hg.digest _ _ (h.claims a k d hs hm)⟩

theorem OwnSlot.unique {a a' k k' : String}
    (h : OwnSlot s req a k) (h' : OwnSlot s req a' k') : a = a' ∧ k = k' :=
  ⟨Except.ok.inj (h.1.symm.trans h'.1), h.2.trans h'.2.symm⟩

theorem Store.finalize_finalized (h : st.finalize slot payload = some st') :
    st'.finalized slot = some payload := by
  obtain ⟨digest, -, rfl⟩ := finalize_cases h
  simp [Store.finalized, Store.setClaim]

theorem Known.call [DecidableEq Blob] {op : Op Blob} {r : Res op}
    (h : Known s req t st) (hg : t.Guard s req op) (hr : Store.step op st r = some st') :
    Known s req (BatchTrail.track op t r) st' := by
  have hk := h.grows (Store.step_grows hr)
  have htrack := BatchTrail.track_tracked op t r
  generalize BatchTrail.track op t r = u at htrack ⊢
  cases htrack with
  | same => exact hk
  | agent | outrun => exact ⟨hk.1, hk.2, hk.3, hk.4, hk.5⟩
  | claim hreply =>
    have hcases := Store.claimRequest_cases hr
    refine ⟨hk.1, hk.2, hk.3, hk.4, fun a' k' d'' hs hm => ?_⟩
    rcases List.mem_cons.mp hm with rfl | hm
    · obtain ⟨rfl, rfl⟩ := hs.unique hg
      rcases hreply with ⟨rfl, rfl⟩ | rfl
      · simp only [Store.step, Store.claimRequest] at hr
        split_ifs at hr
        cases hr
        simp [Store.setClaim]
      · rcases hcases with ⟨rfl, hst⟩ | ⟨-, -, hne⟩
        · exact hst _ rfl
        · exact absurd rfl (hne _)
    · exact hk.claims a' k' d'' hs hm
  | payload =>
    obtain ⟨rfl, hp⟩ := Store.requestResponse_cases (r := .payload _) hr
    refine ⟨hk.1, hk.2, fun a' k' p' hs hm => ?_, hk.4, hk.5⟩
    rcases List.mem_cons.mp hm with rfl | hm
    · obtain ⟨rfl, rfl⟩ := hs.unique hg
      exact (hp _ rfl).symm
    · exact hk.payloads a' k' p' hs hm
  | row =>
    obtain ⟨rfl, hfound, -⟩ := Store.byIdempotencyKey_cases (r := .found _) hr
    refine ⟨hk.1, fun key' row' hm => ?_, hk.3, hk.4, hk.5⟩
    rcases List.mem_cons.mp hm with hm | hm
    · obtain ⟨rfl, rfl⟩ := Prod.mk.inj hm
      exact hfound _ rfl
    · exact hk.rows key' row' hm
  | write hw =>
    refine ⟨fun intent' hm => ?_, hk.2, hk.3, hk.4, hk.5⟩
    rcases List.mem_cons.mp hm with rfl | hm
    · rcases Store.persist_cases hr with ⟨-, -, rfl⟩ | ⟨hnot, -⟩
      · exact Store.insertRow_rows_self st intent'.record
      · rw [hw] at hnot
        exact absurd hnot (by simp)
    · exact hk.writes intent' hm
  | final hw =>
    refine ⟨hk.1, hk.2, hk.3, fun a' k' p' hs hm => ?_, hk.5⟩
    rcases List.mem_cons.mp hm with rfl | hm
    · obtain ⟨rfl, rfl⟩ := hs.unique hg.1
      rcases Store.finalizeRequest_cases hr with ⟨-, h⟩ | ⟨hnot, -⟩
      · exact Store.finalize_finalized h
      · rw [hw] at hnot
        exact absurd hnot (by simp)
    · exact hk.finals a' k' p' hs hm

variable {a : Agent} {intent : PersistTxIntent Blob} {id : String} {p : Blob} {op : Op Blob}

namespace BatchTrail

variable {t : BatchTrail Blob} {r : Res op}

theorem mem_writes_track (h : intent ∈ (track op t r).writes) :
    intent ∈ t.writes ∨ ∃ ob ev r', (⟨op, r⟩ : Event (Op Blob) Res) = ⟨.persist intent ob ev, r'⟩ ∧
      PersistReply.wrote r' = true := by
  have htrack := track_tracked op t r
  generalize track op t r = u at htrack h
  cases htrack with
  | write hw =>
    rcases List.mem_cons.mp h with rfl | h
    · exact .inr ⟨_, _, _, rfl, hw⟩
    · exact .inl h
  | _ => exact .inl h

theorem mem_finals_track (h : p ∈ (track op t r).finals) :
    p ∈ t.finals ∨ ∃ a k r', (⟨op, r⟩ : Event (Op Blob) Res) = ⟨.finalizeRequest a k p, r'⟩ ∧
      FinalizeReply.wrote r' = true := by
  have htrack := track_tracked op t r
  generalize track op t r = u at htrack h
  cases htrack with
  | final hw =>
    rcases List.mem_cons.mp h with rfl | h
    · exact .inr ⟨_, _, _, rfl, hw⟩
    · exact .inl h
  | _ => exact .inl h

end BatchTrail

namespace Store

variable [DecidableEq Blob] {s t : Store Blob} {r : Res op}

variable (b : BatchTrail Blob) (h : step op s r = some t)
include b h

theorem step_rows_new {key : String} {row : TransactionRecord Blob} (hrow : t.rows key = some row) :
    s.rows key = some row ∨
      ∃ intent ∈ (BatchTrail.track op b r).writes,
        intent.idempotencyKey = key ∧ intent.record = row := by
  cases step_effect h with
  | @inserted intent _ _ _ hw _ =>
    by_cases hk : key = intent.idempotencyKey
    · subst hk
      refine .inr ⟨intent, by simp [BatchTrail.track, hw], rfl, ?_⟩
      exact Option.some.inj ((insertRow_rows_self s intent.record).symm.trans hrow)
    · exact .inl ((insertRow_rows_of_ne intent.record hk).symm.trans hrow)
  | _ => exact .inl hrow

theorem step_finalized_new (hp : t.finalized slot = some p) : s.finalized slot = some p ∨
      (op = .finalizeRequest slot.1 slot.2 p ∧ p ∈ (BatchTrail.track op b r).finals) := by
  cases step_effect h with
  | @claimed a k =>
    by_cases hs : slot = (a, k)
    · subst hs
      simp [finalized, setClaim] at hp
    · exact .inl (by simpa [finalized, setClaim, hs] using hp)
  | @finalized a k p' _ r hw =>
    by_cases hs : slot = (a, k)
    · subst hs
      obtain rfl : p' = p := by simpa [finalized, setClaim] using hp
      refine .inr ⟨rfl, ?_⟩
      rcases r with (_ | _) | ⟨e, _ | _⟩
      · exact absurd hw (by simp [FinalizeReply.wrote])
      · exact List.mem_cons_self
      · exact absurd hw (by simp [FinalizeReply.wrote])
      · exact List.mem_cons_self
    · exact .inl (by simpa [finalized, setClaim, hs] using hp)
  | _ => exact .inl hp

end Store

variable [DecidableEq ι]

def batchTrail (tr : Trace (Op Blob) Res ι) (i : ι) : BatchTrail Blob :=
  History.summary BatchTrail.track {} (tr.own i)

@[simp] theorem batchTrail_snoc_self (tr : Trace (Op Blob) Res ι) (i : ι)
    (e : Event (Op Blob) Res) :
    batchTrail (tr ++ [(i, e)]) i = BatchTrail.track e.op (batchTrail tr i) e.res := by
  simp [batchTrail]

variable {i : ι} {tr : Trace (Op Blob) Res ι} {req : ι → TransactionRequest}
  {store st st' : Store Blob}

@[simp] theorem batchTrail_snoc_ne (tr : Trace (Op Blob) Res ι) {j : ι} (h : j ≠ i)
    (e : Event (Op Blob) Res) : batchTrail (tr ++ [(j, e)]) i = batchTrail tr i := by
  simp [batchTrail, h]

theorem batchTrail_le_snoc (tr : Trace (Op Blob) Res ι) (i j : ι) (e : Event (Op Blob) Res) :
    (batchTrail tr i).Le (batchTrail (tr ++ [(j, e)]) i) := by
  by_cases h : j = i
  · subst h
    rw [batchTrail_snoc_self]
    exact BatchTrail.le_track e.op _ e.res
  · rw [batchTrail_snoc_ne tr h]
    exact BatchTrail.Le.refl _

theorem batchTrail_writes (h : intent ∈ (batchTrail tr i).writes) :
    ∃ ob ev r, (i, ⟨.persist intent ob ev, r⟩) ∈ tr ∧ PersistReply.wrote r = true := by
  obtain ⟨pre, ⟨op, r⟩, hm, hn, hy⟩ := History.exists_turn
    (P := fun t : BatchTrail Blob => intent ∈ t.writes) (by simp) h
  obtain ⟨ob, ev, r', he, hw⟩ := (BatchTrail.mem_writes_track hy).resolve_left hn
  exact ⟨ob, ev, r', Trace.mem_own.mp (he ▸ hm), hw⟩

theorem batchTrail_finals (h : p ∈ (batchTrail tr i).finals) :
    ∃ a k r, (i, ⟨.finalizeRequest a k p, r⟩) ∈ tr ∧ FinalizeReply.wrote r = true := by
  obtain ⟨pre, ⟨op, r⟩, hm, hn, hy⟩ := History.exists_turn
    (P := fun t : BatchTrail Blob => p ∈ t.finals) (by simp) h
  obtain ⟨a, k, r', he, hw⟩ := (BatchTrail.mem_finals_track hy).resolve_left hn
  exact ⟨a, k, r', Trace.mem_own.mp (he ▸ hm), hw⟩

theorem batchTrail_agents (h : (id, a) ∈ (batchTrail tr i).agents) :
    (i, ⟨.agentByID id, .found a⟩) ∈ tr := by
  obtain ⟨pre, ⟨op, r⟩, hm, hn, hy⟩ := History.exists_turn
    (P := fun t : BatchTrail Blob => (id, a) ∈ t.agents) (by simp) h
  have htrack := BatchTrail.track_tracked op (History.summary BatchTrail.track {} pre) r
  generalize BatchTrail.track op _ r = u at htrack hy
  cases htrack with
  | agent =>
    cases (List.mem_cons.mp hy).resolve_right hn
    exact Trace.mem_own.mp hm
  | _ => exact absurd hy hn

theorem batchTrail_outrun (h : (batchTrail tr i).outrun = true) :
    ∃ a k p, (i, ⟨.finalizeRequest a k p, .done false⟩) ∈ tr := by
  obtain ⟨pre, ⟨op, r⟩, hm, hn, hy⟩ := History.exists_turn
    (P := fun t : BatchTrail Blob => t.outrun = true) (by simp) h
  have htrack := BatchTrail.track_tracked op (History.summary BatchTrail.track {} pre) r
  generalize BatchTrail.track op _ r = u at htrack hy
  cases htrack with
  | outrun => exact ⟨_, _, _, Trace.mem_own.mp hm⟩
  | _ => exact absurd hy hn

omit [DecidableEq ι] in
theorem batchPool_conduct (s : Service Blob) (ctx : ι → RequestContext)
    (req : ι → TransactionRequest) (store : Store Blob) (i : ι) : Spec recordCall
      (fun h => BatchTrail.Guard s (req i) (History.summary BatchTrail.track {} h))
      (fun h => Ends s (req i) (History.summary BatchTrail.track {} h))
      ((batchPool s ctx req store).threads i) [] :=
  Spec.history (s.executeBatch_ends (ctx i) (req i))

/-- What holds of the store and the requests' trails along every run from `store`. -/
structure BatchInv (s : Service Blob) (req : ι → TransactionRequest) (store : Store Blob)
    (tr : Trace (Op Blob) Res ι) (st : Store Blob) : Prop where
  known : ∀ i, Known s (req i) (batchTrail tr i) st
  writer : ∀ key row, st.rows key = some row → store.rows key = some row ∨
    ∃ i, ∃ intent ∈ (batchTrail tr i).writes, intent.idempotencyKey = key ∧ intent.record = row
  finalizer : ∀ slot p, st.finalized slot = some p → store.finalized slot = some p ∨
    ∃ i, OwnSlot s (req i) slot.1 slot.2 ∧ p ∈ (batchTrail tr i).finals
  slot : ∀ i a k p r, (i, ⟨.finalizeRequest a k p, r⟩) ∈ tr → OwnSlot s (req i) a k
  report : ∀ i, ∀ p ∈ (batchTrail tr i).finals, ∃ agent resp,
    Report s (req i) (batchTrail tr i) agent resp ∧ s.marshalResponse resp = .ok p
  purchase : ∀ i, ∀ intent ∈ (batchTrail tr i).writes, ∃ agent item r,
    MayBuy s (req i) (batchTrail tr i) agent item ∧ Purchase s (req i) agent item r intent

theorem batchTrail_nil (i : ι) : batchTrail ([] : Trace (Op Blob) Res ι) i = {} := rfl

theorem BatchInv.init (s : Service Blob) (req : ι → TransactionRequest) (store : Store Blob) :
    BatchInv s req store [] store where
  known i := by constructor <;> simp [batchTrail_nil]
  writer _ _ h := Or.inl h
  finalizer _ _ h := Or.inl h
  slot _ _ _ _ _ h := absurd h (by simp)
  report i p h := absurd h (by simp [batchTrail_nil])
  purchase i intent h := absurd h (by simp [batchTrail_nil])

theorem BatchInv.expiry (h : BatchInv s req store tr st) (he : HoldExpiry st st') :
    BatchInv s req store tr st' := by
  obtain ⟨id, rfl⟩ := he
  exact ⟨fun i => (h.known i).grows ⟨fun _ _ h => h, fun _ _ h => h, fun _ _ h => h⟩,
    h.writer, h.finalizer, h.slot, h.report, h.purchase⟩

theorem BatchInv.call [DecidableEq Blob] {r : Res op}
    (h : BatchInv s req store tr st) (hg : (batchTrail tr i).Guard s (req i) op)
    (hr : Store.step op st r = some st') : BatchInv s req store (tr ++ [(i, ⟨op, r⟩)]) st' := by
  have hle : ∀ j, (batchTrail tr j).Le (batchTrail (tr ++ [(i, ⟨op, r⟩)]) j) :=
    fun j => batchTrail_le_snoc tr j i ⟨op, r⟩
  refine ⟨fun j => ?_, fun key row hrow => ?_, fun slot p hp => ?_, fun j a k p r' hm => ?_,
    fun j p hp => ?_, fun j intent hm => ?_⟩
  · by_cases hj : i = j
    · subst hj
      rw [batchTrail_snoc_self]
      exact (h.known i).call hg hr
    · rw [batchTrail_snoc_ne tr hj]
      exact (h.known j).grows (Store.step_grows hr)
  · rcases Store.step_rows_new (batchTrail tr i) hr hrow with hrow | ⟨intent, hm, hkey, hrec⟩
    · refine (h.writer key row hrow).imp_right ?_
      rintro ⟨j, intent, hm, hrest⟩
      exact ⟨j, intent, (hle j).writes hm, hrest⟩
    · exact .inr ⟨i, intent, by rwa [batchTrail_snoc_self], hkey, hrec⟩
  · rcases Store.step_finalized_new (batchTrail tr i) hr hp with hp | ⟨rfl, hm⟩
    · refine (h.finalizer slot p hp).imp_right ?_
      exact fun ⟨j, hslot, hm⟩ => ⟨j, hslot, (hle j).finals hm⟩
    · exact .inr ⟨i, hg.1, by rwa [batchTrail_snoc_self]⟩
  · rcases List.mem_append.mp hm with hm | hm
    · exact h.slot j a k p r' hm
    · obtain ⟨rfl, he⟩ := Prod.mk.inj (List.mem_singleton.mp hm)
      cases he
      exact hg.1
  · have hold : p ∈ (batchTrail tr j).finals ∨
        (i = j ∧ ∃ a k r', (⟨op, r⟩ : Event (Op Blob) Res) = ⟨.finalizeRequest a k p, r'⟩) := by
      by_cases hj : i = j
      · subst hj
        rw [batchTrail_snoc_self] at hp
        refine (BatchTrail.mem_finals_track hp).imp_right ?_
        exact fun ⟨a, k, r', he, _⟩ => ⟨rfl, a, k, r', he⟩
      · rw [batchTrail_snoc_ne tr hj] at hp
        exact .inl hp
    rcases hold with hold | ⟨rfl, a, k, r', he⟩
    · obtain ⟨agent, resp, hrep, hpay⟩ := h.report j p hold
      exact ⟨agent, resp, hrep.le (hle j), hpay⟩
    · cases he
      obtain ⟨-, -, agent, resp, ho, hpay⟩ := hg
      exact ⟨agent, resp, ho.toReport.le (hle i), hpay⟩
  · have hold : intent ∈ (batchTrail tr j).writes ∨
        (i = j ∧ ∃ ob ev r', (⟨op, r⟩ : Event (Op Blob) Res) = ⟨.persist intent ob ev, r'⟩) := by
      by_cases hj : i = j
      · subst hj
        rw [batchTrail_snoc_self] at hm
        refine (BatchTrail.mem_writes_track hm).imp_right ?_
        exact fun ⟨ob, ev, r', he, _⟩ => ⟨rfl, ob, ev, r', he⟩
      · rw [batchTrail_snoc_ne tr hj] at hm
        exact .inl hm
    rcases hold with hold | ⟨rfl, ob, ev, r', he⟩
    · obtain ⟨agent, item, r, hbuy, hp⟩ := h.purchase j intent hold
      exact ⟨agent, item, r, hbuy.le (hle j), hp⟩
    · cases he
      obtain ⟨agent, item, r, hbuy, hp⟩ := hg
      exact ⟨agent, item, r, hbuy.le (hle i), hp⟩

theorem batchPool_inv [DecidableEq Blob] (s : Service Blob) {ctx : ι → RequestContext}
    {c : BatchPool Blob ι} (hr : Run Store.step HoldExpiry (batchPool s ctx req store) tr c) :
    BatchInv s req store tr c.shared :=
  Run.invariant (BatchInv s req store) (batchPool_conduct s ctx req store) hr
    (BatchInv.init s req store) (fun _ _ _ _ _ _ h hg hs => h.call hg hs)
    fun _ _ _ h he => h.expiry he

end Ramp.Exchange
