import Ramp.Exchange.ReplayOwnership

/-! What a failed request leaves behind and what an exact retry makes of it. The retry executes
nothing: it is answered when the claim carries a response or every item has a row, and a partial
set of rows is refused. -/

namespace Ramp.Exchange

open Prog

variable {Blob : Type}

structure Readable [DecidableEq Blob] (reply : (op : Op Blob) → Store Blob → Res op) : Prop where
  admissible : ∀ op st, ∃ st', Store.step op st (reply op st) = some st'
  claim : ∀ a k d st e applied, reply (.claimRequest a k d) st ≠ .err e applied
  response : ∀ a k st e, reply (.requestResponse a k) st ≠ .err e
  row : ∀ key st e, reply (.byIdempotencyKey key) st ≠ .err e

structure Service.NonemptyPayloads (s : Service Blob) : Prop where
  item : ∀ r p, s.marshalItem r = .ok p → r.deliveryMethod ≠ .unspecified → s.isEmpty p = false
  response : ∀ r p, s.marshalResponse r = .ok p → r.items ≠ [] → s.isEmpty p = false

variable {reply : (op : Op Blob) → Store Blob → Res op}

section

variable [DecidableEq Blob] (st : Store Blob)

variable (h : Readable reply)
include h

theorem Readable.requestResponse (a k : String) :
    reply (.requestResponse a k) st = .payload (st.finalized (a, k)) ∧
      Store.step (.requestResponse a k) st (reply (.requestResponse a k) st) = some st := by
  obtain ⟨st', hst⟩ := h.admissible (.requestResponse a k) st
  have hne := h.response a k st
  obtain ⟨rfl, hp⟩ := Store.requestResponse_cases hst
  refine ⟨?_, hst⟩
  cases hr : reply (.requestResponse a k) st' with
  | payload p => rw [hp p hr]
  | err e => exact absurd hr (hne e)

theorem Readable.byIdempotencyKey (key : String) :
    reply (.byIdempotencyKey key) st = (match st.rows key with
      | some row => .found row
      | none => .notFound) ∧
      Store.step (.byIdempotencyKey key) st (reply (.byIdempotencyKey key) st) = some st := by
  obtain ⟨st', hst⟩ := h.admissible (.byIdempotencyKey key) st
  have hne := h.row key st
  obtain ⟨rfl, hfound, hnone⟩ := Store.byIdempotencyKey_cases hst
  refine ⟨?_, hst⟩
  cases hr : reply (.byIdempotencyKey key) st' with
  | found row => rw [hfound row hr]
  | notFound => rw [hnone hr]
  | err e => exact absurd hr (hne e)

theorem Readable.claimRequest {a k : String} {digest : Bytes}
    (hc : (st.claims (a, k)).map Claim.itemsDigest = some digest) (d : Bytes) :
    reply (.claimRequest a k d) st = .lost digest ∧
      Store.step (.claimRequest a k d) st (reply (.claimRequest a k d) st) = some st := by
  obtain ⟨st', hst⟩ := h.admissible (.claimRequest a k d) st
  have hne := h.claim a k d st
  rcases Store.claimRequest_cases hst with ⟨rfl, hlost⟩ | ⟨hnone, -⟩
  · refine ⟨?_, hst⟩
    cases hr : reply (.claimRequest a k d) st' with
    | won =>
      rw [hr] at hst
      simp only [Store.step, Store.claimRequest] at hst
      split_ifs at hst with hfree
      rw [hfree] at hc
      exact absurd hc (by simp)
    | lost stored => rw [Option.some.inj ((hlost stored hr).symm.trans hc)]
    | err e applied => exact absurd hr (hne e applied)
  · rw [hnone] at hc
    exact absurd hc (by simp)

theorem Readable.wait : Store.step .wait st (reply .wait st) = some st := by
  obtain ⟨st', hst⟩ := h.admissible .wait st
  rw [hst, ← Option.some.inj hst]

end

variable {req : TransactionRequest} {binding : AgentBinding} {resp : TransactionResponse}
  {agent : ResolvedAgent}

variable {x : Except Error TransactionResponse}

namespace Service

variable (s : Service Blob)

def storedRow (st : Store Blob) (requestKey : String) (item : TransactionItem) :
    Option (TransactionResultItem × Bytes) :=
  (st.rows (derivedItemKey requestKey item.offer.offerID)).bind fun row =>
    match s.unmarshalItem row.resultPayload with
    | .ok r => some (r, row.agentIdentityHash)
    | .error _ => none

def RowsReadable (st : Store Blob) (requestKey : String) (items : List TransactionItem) : Prop :=
  ∀ item ∈ items, ∀ row, st.rows (derivedItemKey requestKey item.offer.offerID) = some row →
    s.isEmpty row.resultPayload = false ∧ ∃ r, s.unmarshalItem row.resultPayload = .ok r

def rebuilt (st : Store Blob) (req : TransactionRequest) (binding : AgentBinding) :
    Except Error (Option TransactionResponse) :=
  s.rebuildResponse req binding (req.items.filterMap (s.storedRow st req.idempotencyKey))

variable [DecidableEq Blob] {st : Store Blob} {a : String}

theorem probeRows_eval (hread : Readable reply) {requestKey : String}
    {items : List TransactionItem} (hrows : s.RowsReadable st requestKey items) :
    eval Store.step reply (s.probeRows requestKey items).run st =
      some (.ok (items.filterMap (s.storedRow st requestKey)), st) := by
  induction items with
  | nil => rfl
  | cons item items ih =>
    have hrest := ih fun it hm => hrows it (List.mem_cons_of_mem _ hm)
    obtain ⟨hreply, hstep⟩ := hread.byIdempotencyKey st
      (derivedItemKey requestKey item.offer.offerID)
    rw [probeRows, eval_ask hstep, hreply, List.filterMap_cons]
    cases hrow : st.rows (derivedItemKey requestKey item.offer.offerID) with
    | none => simpa [storedRow, hrow] using hrest
    | some row =>
      obtain ⟨hne, r, hr⟩ := hrows item (by simp) row hrow
      simp only [hne, hr, storedRow, hrow, Option.bind_some]
      exact eval_seq_ok hrest

theorem replayBatchResponse_eval (hread : Readable reply)
    (hrows : s.RowsReadable st req.idempotencyKey req.items) :
    eval Store.step reply (s.replayBatchResponse req binding).run st =
      some (s.rebuilt st req binding, st) := by
  rw [replayBatchResponse, eval_seq_ok (s.probeRows_eval hread hrows), rebuilt]
  split <;> next h => rw [h]; rfl

theorem finalizedResponse_eval_none (hread : Readable reply)
    (hnone : st.finalized (a, req.idempotencyKey) = none) :
    eval Store.step reply (s.finalizedResponse req a binding).run st = some (.ok none, st) := by
  obtain ⟨hreply, hstep⟩ := hread.requestResponse st a req.idempotencyKey
  rw [finalizedResponse, eval_ask hstep, hreply, hnone]
  rfl

variable {p : Blob} {e : Error} {digest : Bytes}

section

variable (hread : Readable reply)
include hread

theorem finalizedResponse_eval_some (hp : st.finalized (a, req.idempotencyKey) = some p)
    (hne : s.isEmpty p = false) (hserve : s.serveFinalizedResponse binding p = .ok resp) :
    eval Store.step reply (s.finalizedResponse req a binding).run st =
      some (.ok (some resp), st) := by
  obtain ⟨hreply, hstep⟩ := hread.requestResponse st a req.idempotencyKey
  rw [finalizedResponse, eval_ask hstep, hreply, hp]
  simp only [hne, hserve]
  rfl

theorem pollFinalizedResponse_eval_none (hnone : st.finalized (a, req.idempotencyKey) = none)
    (polls : Nat) :
    eval Store.step reply (s.pollFinalizedResponse req a binding polls).run st =
      some (.ok none, st) := by
  induction polls with
  | zero => exact s.finalizedResponse_eval_none hread hnone
  | succ polls ih =>
    rw [pollFinalizedResponse, eval_seq_ok (s.finalizedResponse_eval_none hread hnone)]
    rw [eval_ask (hread.wait st)]
    cases reply .wait st with
    | false => rfl
    | true => exact ih

theorem serveLostClaim_eval_served (hp : st.finalized (a, req.idempotencyKey) = some p)
    (hne : s.isEmpty p = false) (hserve : s.serveFinalizedResponse binding p = .ok resp) :
    eval Store.step reply (s.serveLostClaim req a binding).run st = some (.ok (some resp), st) := by
  rw [serveLostClaim, eval_seq_ok (s.finalizedResponse_eval_some hread hp hne hserve)]
  rfl

section

variable (hrows : s.RowsReadable st req.idempotencyKey req.items)
  (hnone : st.finalized (a, req.idempotencyKey) = none)
include hrows hnone

theorem serveLostClaim_eval_rebuilt (hre : s.rebuilt st req binding = .ok (some resp)) :
    eval Store.step reply (s.serveLostClaim req a binding).run st = some (.ok (some resp), st) := by
  rw [serveLostClaim, eval_seq_ok (s.finalizedResponse_eval_none hread hnone)]
  rw [eval_attempt (s.replayBatchResponse_eval hread hrows), hre]
  rfl

theorem serveLostClaim_eval_error (hre : s.rebuilt st req binding = .error e) :
    eval Store.step reply (s.serveLostClaim req a binding).run st =
      some (if isIdempotentReplay e then .ok none else .error e, st) := by
  rw [serveLostClaim, eval_seq_ok (s.finalizedResponse_eval_none hread hnone)]
  rw [eval_attempt (s.replayBatchResponse_eval hread hrows), hre]
  dsimp only
  split_ifs
  · exact s.pollFinalizedResponse_eval_none hread hnone finalizedWaitPolls
  · rfl

end

theorem claimOrReplay_eval_ok
    (hclaim : (st.claims (agent.id, req.idempotencyKey)).map Claim.itemsDigest = some digest)
    (hserve : eval Store.step reply (s.serveLostClaim req agent.id binding).run st =
      some (.ok (some resp), st)) :
    eval Store.step reply (s.claimOrReplay req agent binding digest).run st =
      some (.ok { resp := some resp, claimed := true, binding }, st) := by
  obtain ⟨hreply, hstep⟩ := hread.claimRequest st hclaim digest
  rw [claimOrReplay, eval_ask hstep, hreply]
  simp only [ne_eq, not_true_eq_false, if_false]
  rw [eval_seq_ok hserve]
  rfl

theorem claimOrReplay_eval_error (hrows : s.RowsReadable st req.idempotencyKey req.items)
    (hclaim : (st.claims (agent.id, req.idempotencyKey)).map Claim.itemsDigest = some digest)
    (hnone : st.finalized (agent.id, req.idempotencyKey) = none)
    (hre : s.rebuilt st req binding = .error e) :
    eval Store.step reply (s.claimOrReplay req agent binding digest).run st =
      some (.error e, st) := by
  obtain ⟨hreply, hstep⟩ := hread.claimRequest st hclaim digest
  have hserve := s.serveLostClaim_eval_error hread hrows hnone hre
  rw [claimOrReplay, eval_ask hstep, hreply]
  simp only [ne_eq, not_true_eq_false, if_false]
  split_ifs at hserve
  · rw [eval_seq_ok hserve]
    exact eval_seq_error (hre ▸ s.replayBatchResponse_eval hread hrows)
  · exact eval_seq_error hserve

end

theorem executeBatch_eval_claim {ctx : RequestContext} {acceptance : RequestAcceptance}
    {canonical : Bytes} {u : Unit} (hvalid : s.validateBatchRequest req = .ok u)
    (hagent : eval Store.step reply (s.resolveAgent req).run st = some (.ok agent, st))
    (hacc : req.agentRequestAcceptance = some acceptance)
    (hv : s.verifyRequestAcceptance req acceptance agent.key = .ok (binding, canonical))
    (hgate : eval Store.step reply (s.relayPolicyGate ctx req agent).run st = some (.ok (), st))
    (hclaim : (∃ e, x = .error e ∧ eval Store.step reply
        (s.claimOrReplay req agent binding (s.sha256 canonical)).run st = some (.error e, st)) ∨
      ∃ resp, x = .ok resp ∧ eval Store.step reply
        (s.claimOrReplay req agent binding (s.sha256 canonical)).run st =
          some (.ok { resp := some resp, claimed := true, binding }, st)) :
    eval Store.step reply (s.executeBatch ctx req).run st = some (x, st) := by
  have hadm : eval Store.step reply (s.admitBatchRequest ctx req agent).run st =
      eval Store.step reply (s.claimOrReplay req agent binding (s.sha256 canonical)).run st := by
    simp only [admitBatchRequest, hacc, hv]
    exact eval_seq_ok hgate
  rw [executeBatch, hvalid]
  rw [eval_seq_ok hagent]
  rcases hclaim with ⟨e, rfl, he⟩ | ⟨resp, rfl, hok⟩
  · exact eval_seq_error (hadm.trans he)
  · rw [eval_seq_ok (hadm.trans hok)]
    rfl

end Service

/-- The state a failed request leaves to a retry that resolves to `agent` and
proves `binding`. -/
structure LeftBehind (s : Service Blob) (req : TransactionRequest) (agent : ResolvedAgent)
    (binding : AgentBinding) (st : Store Blob) : Prop where
  valid : s.validateBatchRequest req = .ok ()
  proof : ∃ acceptance canonical, req.agentRequestAcceptance = some acceptance ∧
    s.verifyRequestAcceptance req acceptance agent.key = .ok (binding, canonical) ∧
    (st.claims (agent.id, req.idempotencyKey)).map Claim.itemsDigest = some (s.sha256 canonical)
  rows : ∀ item ∈ req.items, ∀ row,
    st.rows (derivedItemKey req.idempotencyKey item.offer.offerID) = some row →
    row.agentIdentityHash = binding.digest ∧
      ∃ r, s.marshalItem r = .ok row.resultPayload ∧ r.deliveryMethod = .instructions
  final : ∀ p, st.finalized (agent.id, req.idempotencyKey) = some p → ∃ resp,
    s.marshalResponse resp = .ok p ∧ resp.items ≠ [] ∧
    (resp.agentIdentityHash = "" ∨ resp.agentIdentityHash = binding.thumbprint) ∧
    ∀ id ∈ req.offerIDs, ∀ r, RowCarries s req.idempotencyKey st id r → r ∈ resp.items

/-- A response is stored for the request, or every item has a row and the total
of their results can be formed. -/
def Recoverable (s : Service Blob) (req : TransactionRequest) (agentID : String)
    (st : Store Blob) : Prop :=
  st.finalized (agentID, req.idempotencyKey) ≠ none ∨ ∃ results total,
    List.Forall₂ (RowCarries s req.idempotencyKey st) req.offerIDs results ∧
      s.batchTotal results = .ok total

/-- The answer to a retry: a response with the result of every committed item
when there is one to recover, and otherwise a refusal. -/
structure RetryAnswer (s : Service Blob) (req : TransactionRequest) (agentID : String)
    (st : Store Blob) (x : Except Error TransactionResponse) : Prop where
  recovered : (∃ resp, x = .ok resp) ↔ Recoverable s req agentID st
  results : ∀ resp, x = .ok resp → ∀ id ∈ req.offerIDs, ∀ r,
    RowCarries s req.idempotencyKey st id r → r ∈ resp.items
  refused : ∀ e, x = .error e → e.kind = .idempotent ∨ e.kind = .internal

variable {id : String}

section

variable {s : Service Blob} {st : Store Blob} {k : String}

variable {item : TransactionItem} {f : TransactionResultItem × Bytes} {r : TransactionResultItem}
  {items : List TransactionItem}

theorem storedRow_eq_some :
    s.storedRow st k item = some f ↔ ∃ row, st.rows (derivedItemKey k item.offer.offerID) =
      some row ∧ s.unmarshalItem row.resultPayload = .ok f.1 ∧ row.agentIdentityHash = f.2 := by
  obtain ⟨r, h⟩ := f
  rw [Service.storedRow, Option.bind_eq_some_iff]
  refine exists_congr fun row => and_congr_right fun _ => ?_
  cases s.unmarshalItem row.resultPayload <;> simp

theorem storedRow_carries (h : s.storedRow st k item = some f) :
    RowCarries s k st item.offer.offerID f.1 := by
  obtain ⟨row, hrow, hr, -⟩ := storedRow_eq_some.mp h
  exact ⟨row, hrow, hr⟩

theorem RowCarries.storedRow (h : RowCarries s k st item.offer.offerID r) :
    ∃ owner, s.storedRow st k item = some (r, owner) := by
  obtain ⟨row, hrow, hr⟩ := h
  exact ⟨row.agentIdentityHash, storedRow_eq_some.mpr ⟨row, hrow, hr, rfl⟩⟩

theorem storedRows_carry (h : ∀ item ∈ items, (s.storedRow st k item).isSome) :
    List.Forall₂ (RowCarries s k st) (items.map fun item => item.offer.offerID)
      ((items.filterMap (s.storedRow st k)).map Prod.fst) := by
  induction items with
  | nil => exact .nil
  | cons item items ih =>
    obtain ⟨f, hf⟩ := Option.isSome_iff_exists.mp (h item (by simp))
    rw [List.filterMap_cons_some hf]
    exact .cons (storedRow_carries hf) (ih fun it hm => h it (List.mem_cons_of_mem _ hm))

theorem storedRow_isSome_of_carries {results : List TransactionResultItem}
    (h : List.Forall₂ (RowCarries s k st) (items.map fun item => item.offer.offerID) results) :
    ∀ item ∈ items, (s.storedRow st k item).isSome := by
  rw [List.forall₂_map_left_iff] at h
  induction h with
  | nil => simp
  | cons hr _ ih =>
    obtain ⟨owner, ho⟩ := hr.storedRow
    simpa [ho] using ih

theorem RowCarries.mem_storedRows (hid : id ∈ req.offerIDs) (h : RowCarries s k st id r) :
    r ∈ (req.items.filterMap (s.storedRow st k)).map Prod.fst := by
  obtain ⟨item, hitem, rfl⟩ := List.mem_map.mp hid
  obtain ⟨owner, ho⟩ := h.storedRow
  exact List.mem_map.mpr ⟨(r, owner), List.mem_filterMap.mpr ⟨item, hitem, ho⟩, rfl⟩

end

section

variable {s : Service Blob} {st : Store Blob}

section

variable (h : LeftBehind s req agent binding st)
include h

theorem LeftBehind.rowsReadable (hc : s.Codec) (hn : s.NonemptyPayloads) :
    s.RowsReadable st req.idempotencyKey req.items := by
  intro item hitem row hrow
  obtain ⟨-, r, hr, hdel⟩ := h.rows item hitem row hrow
  exact ⟨hn.item r _ hr (by simp [hdel]), r, hc.item r _ hr⟩

theorem LeftBehind.owned : ((req.items.filterMap (s.storedRow st req.idempotencyKey)).any fun f =>
      binding.digest ≠ f.2) = false := by
  rw [List.any_eq_false]
  intro f hf
  obtain ⟨item, hitem, hrow⟩ := List.mem_filterMap.mp hf
  obtain ⟨row, hrow, -, howner⟩ := storedRow_eq_some.mp hrow
  simp [← howner, (h.rows item hitem row hrow).1]

theorem LeftBehind.rebuilt_answer (hopen : st.finalized (agent.id, req.idempotencyKey) = none)
    {r : TransactionResultItem} (hid : id ∈ req.offerIDs)
    (hrow : RowCarries s req.idempotencyKey st id r) :
    ∃ x, s.rebuilt st req binding = x.map some ∧ RetryAnswer s req agent.id st x := by
  have hpos := List.length_pos_of_mem (hrow.mem_storedRows hid)
  rw [List.length_map] at hpos
  have hnone : ¬ st.finalized (agent.id, req.idempotencyKey) ≠ none := fun hf => hf hopen
  rw [Service.rebuilt, Service.rebuildResponse, if_neg hpos.ne', h.owned]
  by_cases hlen : (req.items.filterMap (s.storedRow st req.idempotencyKey)).length =
      req.items.length
  · have hcarry := storedRows_carry (List.filterMap_length_eq_length.mp hlen)
    rw [if_neg (not_not.mpr hlen), if_neg (by simp), Service.buildBatchTxResponse]
    cases htotal : s.batchTotal
        ((req.items.filterMap (s.storedRow st req.idempotencyKey)).map Prod.fst) with
    | ok total =>
      refine ⟨_, rfl, ⟨fun _ => .inr ⟨_, total, hcarry, htotal⟩, fun _ => ⟨_, rfl⟩⟩, ?_, by simp⟩
      rintro resp hresp id hid r hr
      cases hresp
      exact hr.mem_storedRows hid
    | error e =>
      refine ⟨.error _, rfl, ⟨by simp, ?_⟩, by simp, ?_⟩
      · rintro (hf | ⟨results, total, hres, ht⟩)
        · exact absurd hf hnone
        · rw [RowCarries.list_unique hres hcarry, htotal] at ht
          exact absurd ht (by simp)
      · rintro e' he
        cases he
        exact .inr rfl
  · rw [if_pos hlen]
    refine ⟨.error _, rfl, ⟨by simp, ?_⟩, by simp, ?_⟩
    · rintro (hf | ⟨results, total, hres, -⟩)
      · exact absurd hf hnone
      · exact absurd (List.filterMap_length_eq_length.mpr (storedRow_isSome_of_carries hres)) hlen
    · rintro e' he
      cases he
      exact .inl rfl

end

variable [DecidableEq Blob]

theorem LeftBehind.retry (h : LeftBehind s req agent binding st) (hc : s.Codec)
    (hn : s.NonemptyPayloads) (hread : Readable reply) {ctx : RequestContext}
    (hagent : eval Store.step reply (s.resolveAgent req).run st = some (.ok agent, st))
    (hgate : eval Store.step reply (s.relayPolicyGate ctx req agent).run st = some (.ok (), st))
    {r : TransactionResultItem} (hid : id ∈ req.offerIDs)
    (hrow : RowCarries s req.idempotencyKey st id r) :
    ∃ x, eval Store.step reply (s.executeBatch ctx req).run st = some (x, st) ∧
      RetryAnswer s req agent.id st x := by
  obtain ⟨acceptance, canonical, hacc, hv, hclaim⟩ := h.proof
  have hrows := h.rowsReadable hc hn
  cases hf : st.finalized (agent.id, req.idempotencyKey) with
  | none =>
    obtain ⟨x, hx, hanswer⟩ := h.rebuilt_answer hf hid hrow
    refine ⟨x, s.executeBatch_eval_claim h.valid hagent hacc hv hgate ?_, hanswer⟩
    cases x with
    | error e => exact .inl ⟨e, rfl, s.claimOrReplay_eval_error hread hrows hclaim hf hx⟩
    | ok resp =>
      exact .inr ⟨resp, rfl, s.claimOrReplay_eval_ok hread hclaim
        (s.serveLostClaim_eval_rebuilt hread hrows hf hx)⟩
  | some p =>
    obtain ⟨resp, hp, hne, hhash, htold⟩ := h.final p hf
    have hserve : s.serveFinalizedResponse binding p = .ok resp := by
      rw [Service.serveFinalizedResponse, hc.response resp p hp]
      exact if_neg fun ⟨hn, hn'⟩ => hhash.elim hn hn'
    refine ⟨.ok resp, s.executeBatch_eval_claim h.valid hagent hacc hv hgate (.inr ⟨resp, rfl,
      s.claimOrReplay_eval_ok hread hclaim (s.serveLostClaim_eval_served hread hf
        (hn.response resp p hp hne) hserve)⟩), ?_, ?_, by simp⟩
    · exact ⟨fun _ => .inl (by simp [hf]), fun _ => ⟨resp, rfl⟩⟩
    · intro resp' hresp
      cases hresp
      exact htold

end

/-- The registry gave the request the key that `agent` resolves to now. -/
def KeyKept (tr : Trace (Op Blob) Res Unit) (agent : ResolvedAgent) : Prop :=
  ∀ x, ((), ⟨.agentByID agent.id, .found x⟩) ∈ tr →
    agent.key = { pub := x.publicKey, discoveryURL := x.discoveryURL }

variable {id₀ : String} {row₀ : TransactionRecord Blob}

section

variable {s : Service Blob} {store st : Store Blob} {tr : Trace (Op Blob) Res Unit}
  {agent' : ResolvedAgent}

theorem KeyKept.key_eq (h : KeyKept tr agent)
    (hid : s.fromDirectory req.requester.id = .ok agent.id)
    (hres : Resolved s req (batchTrail tr ()).Found agent')
    (hlen : agent'.key.pub.length = ed25519PublicKeySize) : agent'.key = agent.key := by
  have hsame : agent'.id = agent.id := Except.ok.inj (hres.id.symm.trans hid)
  rcases hres.key with hk | ⟨x, hx, hk⟩
  · rw [hk] at hlen
    exact absurd hlen (by decide)
  · rw [hk, h x (hsame ▸ batchTrail_agents hx)]

theorem BatchInv.bought (hinv : BatchInv s (fun _ : Unit => req) store tr st)
    (hfresh : store.rows (derivedItemKey req.idempotencyKey id) = none)
    {row : TransactionRecord Blob}
    (hrow : st.rows (derivedItemKey req.idempotencyKey id) = some row) :
    ∃ intent ∈ (batchTrail tr ()).writes, intent.record = row ∧ ∃ agent item r,
      MayBuy s req (batchTrail tr ()) agent item ∧ Purchase s req agent item r intent := by
  rcases hinv.writer _ row hrow with hold | ⟨_, intent, hm, -, hrec⟩
  · rw [hfresh] at hold
    exact absurd hold (by simp)
  · exact ⟨intent, hm, hrec, hinv.purchase () intent hm⟩

theorem Outcome.keyed {t : BatchTrail Blob} (hc : s.Codec) (ho : Outcome s req t agent resp)
    {intent : PersistTxIntent Blob} (hm : intent ∈ t.writes) {item : TransactionItem}
    {r : TransactionResultItem} (hp : Purchase s req agent' item r intent) :
    agent.key.pub.length = ed25519PublicKeySize ∧ ∃ digest,
      s.thumbprintBytes agent.key.pub = .ok digest ∧
        resp.agentIdentityHash = s.rawURLEncoding digest := by
  obtain ⟨r', hr', hpay⟩ := ho.told intent hm
  obtain rfl := Except.ok.inj ((hc.item _ _ hpay).symm.trans (hc.item _ _ hp.result))
  refine ⟨?_, ho.hash ⟨r', hr', hp.granted⟩⟩
  obtain ⟨item', -, ⟨intent', -, hp'⟩ | ⟨-, hden⟩⟩ := forall₂_mem_right ho.items hr'
  · exact hp'.keyed
  · exact absurd hp.granted hden

theorem Outcome.servable (hc : s.Codec) (hinv : BatchInv s (fun _ : Unit => req) store tr st)
    (hfresh : ∀ id ∈ req.offerIDs, store.rows (derivedItemKey req.idempotencyKey id) = none)
    (hid : s.fromDirectory req.requester.id = .ok agent.id) (hkey : KeyKept tr agent)
    (hdigest : s.thumbprintBytes agent.key.pub = .ok binding.digest)
    (hthumb : binding.thumbprint = s.rawURLEncoding binding.digest)
    (ho : Outcome s req (batchTrail tr ()) agent' resp) (hid₀ : id₀ ∈ req.offerIDs)
    (hrow₀ : st.rows (derivedItemKey req.idempotencyKey id₀) = some row₀) :
    resp.items ≠ [] ∧ resp.agentIdentityHash = binding.thumbprint ∧
      ∀ id ∈ req.offerIDs, ∀ r, RowCarries s req.idempotencyKey st id r → r ∈ resp.items := by
  obtain ⟨intent, hm, -, agent₁, item₁, r₁, -, hp⟩ := hinv.bought (hfresh id₀ hid₀) hrow₀
  obtain ⟨hlen, digest, hd, hhash⟩ := ho.keyed hc hm hp
  refine ⟨?_, ?_, ?_⟩
  · obtain ⟨r, hr, -⟩ := ho.told intent hm
    exact List.ne_nil_of_mem hr
  · rw [hkey.key_eq hid ho.resolved hlen, hdigest] at hd
    rw [hhash, hthumb, Except.ok.inj hd]
  · rintro id hid' r ⟨row, hrow, hr⟩
    obtain ⟨intent', hm', rfl, -⟩ := hinv.bought (hfresh id hid') hrow
    obtain ⟨r', hr', hpay⟩ := ho.told intent' hm'
    obtain rfl := Except.ok.inj ((hc.item _ _ hpay).symm.trans hr)
    exact hr'

variable [DecidableEq Blob] {ctx : RequestContext} {c : BatchPool Blob Unit}

theorem validateBatchRequest_of_call
    (hr : Run Store.step HoldExpiry (batchPool s (fun _ : Unit => ctx) (fun _ => req) store) tr c)
    {e : Event (Op Blob) Res} (he : ((), e) ∈ tr) : s.validateBatchRequest req = .ok () := by
  cases hv : s.validateBatchRequest req with
  | ok _ => rfl
  | error err =>
    obtain ⟨pre, post, htr⟩ := List.append_of_mem he
    have hs : ∀ i, Spec recordCall (fun _ _ => False) (fun _ _ => True)
        ((batchPool s (fun _ : Unit => ctx) (fun _ => req) store).threads i) [] := by
      intro i
      simp only [batchPool, Service.executeBatch, hv]
      trivial
    exact (hr.guarded (G := fun _ _ _ => False) (Q := fun _ _ _ => True) hs htr).elim

theorem leftBehind_of_failed (hc : s.Codec) (hproof : req.agentRequestAcceptance ≠ none)
    (hfresh : ∀ id ∈ req.offerIDs, store.rows (derivedItemKey req.idempotencyKey id) = none)
    (hopen : store.finalized (agent.id, req.idempotencyKey) = none)
    (hr : Run Store.step HoldExpiry (batchPool s (fun _ : Unit => ctx) (fun _ => req) store) tr c)
    (hret : c.threads () = .ret x) (hid₀ : id₀ ∈ req.offerIDs)
    (hrow₀ : c.shared.rows (derivedItemKey req.idempotencyKey id₀) = some row₀)
    (hid : s.fromDirectory req.requester.id = .ok agent.id) (hkey : KeyKept tr agent) :
    ∃ binding, LeftBehind s req agent binding c.shared := by
  have hinv := batchPool_inv s hr
  obtain ⟨intent, hm, -, agent₁, item₁, r₁, hbuy, hp⟩ := hinv.bought (hfresh id₀ hid₀) hrow₀
  obtain ⟨acceptance, hacc⟩ := Option.ne_none_iff_exists'.mp hproof
  obtain ⟨binding, canonical, hv, hclaim⟩ := hbuy.held acceptance hacc
  rw [hkey.key_eq hid hbuy.resolved hp.keyed] at hv
  obtain ⟨-, -, hdigest, hthumb⟩ := s.verifyRequestAcceptance_ok hv
  obtain ⟨ob, ev, reply, hevent, -⟩ := batchTrail_writes hm
  refine ⟨binding, validateBatchRequest_of_call hr hevent, ⟨acceptance, canonical, hacc, hv,
    (hinv.known ()).claims _ _ _ ⟨hid, rfl⟩ hclaim⟩, ?_, ?_⟩
  · intro item hitem row hrow
    obtain ⟨intent', -, rfl, agent', item', r', hbuy', hp'⟩ :=
      hinv.bought (hfresh _ (List.mem_map_of_mem hitem)) hrow
    have hident := hp'.identity
    rw [hkey.key_eq hid hbuy'.resolved hp'.keyed, hdigest] at hident
    exact ⟨(Except.ok.inj hident).symm, r', hp'.result, hp'.delivered⟩
  · intro p hfinal
    rcases hinv.finalizer _ p hfinal with hold | ⟨_, -, hmem⟩
    · rw [hopen] at hold
      exact absurd hold (by simp)
    · obtain ⟨agent', resp, ho, hpay⟩ :=
        (hr.returned (batchPool_conduct s _ _ store) hret).final p hmem
      obtain ⟨hne, hhash, htold⟩ :=
        ho.servable hc hinv hfresh hid hkey hdigest hthumb hid₀ hrow₀
      exact ⟨resp, hpay, hne, Or.inr hhash, htold⟩

end

theorem resolveAgent_eval_id [DecidableEq Blob] {s : Service Blob} {st st' : Store Blob}
    (h : eval Store.step reply (s.resolveAgent req).run st = some (.ok agent, st')) :
    s.fromDirectory req.requester.id = .ok agent.id := by
  have hp : Passes (@Store.step Blob _) (fun _ _ => True) (fun _ => True) Op.Directory :=
    ⟨fun _ _ _ _ => trivial, fun _ _ _ _ _ _ _ => trivial⟩
  exact ((s.resolveAgent_spec (fun _ _ _ => True) hp (fun _ _ _ _ _ => trivial) req
    trivial).eval h).2 agent rfl |>.id

/-- After a request failed with rows committed, its exact retry changes nothing.
It is answered with the result of every committed item when a response is stored
or every item has a row, and refused otherwise. -/
theorem retry_recovers_iff_stored_whole [DecidableEq Blob] (s : Service Blob) (hc : s.Codec)
    (hn : s.NonemptyPayloads) {ctx : RequestContext} (ctx' : RequestContext)
    {req : TransactionRequest} (hproof : req.agentRequestAcceptance ≠ none)
    {agent : ResolvedAgent} {store : Store Blob}
    (hfresh : ∀ id ∈ req.offerIDs, store.rows (derivedItemKey req.idempotencyKey id) = none)
    (hopen : store.finalized (agent.id, req.idempotencyKey) = none)
    {tr : Trace (Op Blob) Res Unit} {c : BatchPool Blob Unit}
    (hr : Run Store.step HoldExpiry (batchPool s (fun _ : Unit => ctx) (fun _ => req) store) tr c)
    {e : Error} (hfail : c.threads () = .ret (.error e)) {id : String}
    {row : TransactionRecord Blob} (hid : id ∈ req.offerIDs)
    (hrow : c.shared.rows (derivedItemKey req.idempotencyKey id) = some row)
    {reply : (op : Op Blob) → Store Blob → Res op} (hread : Readable reply)
    (hagent : eval Store.step reply (s.resolveAgent req).run c.shared =
      some (.ok agent, c.shared)) (hkey : KeyKept tr agent)
    (hgate : eval Store.step reply (s.relayPolicyGate ctx' req agent).run c.shared =
      some (.ok (), c.shared)) :
    ∃ x, eval Store.step reply (s.executeBatch ctx' req).run c.shared = some (x, c.shared) ∧
      RetryAnswer s req agent.id c.shared x := by
  obtain ⟨binding, hleft⟩ := leftBehind_of_failed hc hproof hfresh hopen hr hfail hid hrow
    (resolveAgent_eval_id hagent) hkey
  obtain ⟨item, hitem, rfl⟩ := List.mem_map.mp hid
  obtain ⟨-, r, hpay, -⟩ := hleft.rows item hitem row hrow
  exact hleft.retry hc hn hread hagent hgate hid ⟨row, hrow, hc.item r _ hpay⟩

abbrev twoItems : TransactionRequest := plainRequest [plainItem "a", plainItem "b"]

/-- The first item is committed, then the signer fails on the second and the batch
aborts. The retry finds one row of two and is refused. -/
theorem committed_item_refused_on_retry : ∃ tr c e row,
    Run Store.step HoldExpiry (batchPool plainService (fun _ : Unit => agentOnly)
      (fun _ => twoItems) {}) tr c ∧
    c.threads () = .ret (.error e) ∧ c.shared.rows (derivedItemKey "key" "a") = some row ∧
    (eval Store.step (Store.answer plainSurroundings)
      (plainService.executeBatch agentOnly twoItems).run c.shared).map Prod.fst =
        some (.error Service.partialReplay) := by
  have hrun : ∃ tr c, Run Store.step HoldExpiry (batchPool plainService
      (fun _ : Unit => agentOnly) (fun _ => twoItems) {}) tr c ∧
      (c.threads ()).error?.isSome ∧ (c.shared.rows (derivedItemKey "key" "a")).isSome ∧
      (eval Store.step (Store.answer plainSurroundings)
        (plainService.executeBatch agentOnly twoItems).run c.shared).map Prod.fst =
          some (.error Service.partialReplay) :=
    Pool.exists_run (turns 28 () ++ [⟨(), signerDown⟩] ++ turns 1 ()) (by decide +kernel)
  obtain ⟨tr, c, hr, hfail, hrow, hretry⟩ := hrun
  obtain ⟨e, he⟩ := Option.isSome_iff_exists.mp hfail
  obtain ⟨row, hrow⟩ := Option.isSome_iff_exists.mp hrow
  exact ⟨tr, c, e, row, hr, error?_eq_some.mp he, hrow, hretry⟩

theorem Store.answer_readable [DecidableEq Blob] (w : Surroundings) :
    Readable (Store.answer w : (op : Op Blob) → Store Blob → Res op) where
  admissible := Store.answer_admissible w
  claim a k d st e applied := by
    simp only [Store.answer]
    split <;> simp
  response a k st e := by simp [Store.answer]
  row key st e := by
    simp only [Store.answer]
    split <;> simp

def finalizeDown : (op : Op Payload) → Store Payload → Res op
  | .finalizeRequest _ _ _, _ => .err "connection reset" false
  | op, s => Store.answer plainSurroundings op s

def Event.plainAgent : Event (Op Payload) Res → Bool
  | ⟨.agentByID _, .found x⟩ => x = plainSurroundings.agent
  | _ => true

/-- Both items are committed and the finalization fails. The retry is answered
from the two rows. -/
theorem retry_recovers_both_items : ∃ tr c e resp,
    Run Store.step HoldExpiry (batchPool plainService (fun _ : Unit => agentOnly)
      (fun _ => twoItems) {}) tr c ∧ c.threads () = .ret (.error e) ∧
    eval Store.step (Store.answer plainSurroundings)
      (plainService.executeBatch agentOnly twoItems).run c.shared = some (.ok resp, c.shared) ∧
    RetryAnswer plainService twoItems "agent.example" c.shared (.ok resp) := by
  have hrun : ∃ tr c, Run Store.step HoldExpiry (batchPool plainService
      (fun _ : Unit => agentOnly) (fun _ => twoItems) {}) tr c ∧
      (c.threads ()).error?.isSome ∧ (c.shared.rows (derivedItemKey "key" "a")).isSome ∧
      (tr.all fun e => Event.plainAgent e.2) = true ∧
      ((eval Store.step (Store.answer plainSurroundings)
        (plainService.executeBatch agentOnly twoItems).run c.shared).any
          fun x => x.1.isOk) = true :=
    Pool.exists_run (turns 36 () ++ [⟨(), finalizeDown⟩]) (by decide +kernel)
  obtain ⟨tr, c, hr, hfail, hrow, hagents, hok⟩ := hrun
  obtain ⟨e, he⟩ := Option.isSome_iff_exists.mp hfail
  obtain ⟨row, hrow⟩ := Option.isSome_iff_exists.mp hrow
  have hkey : KeyKept tr ⟨"agent.example", "ref",
      ⟨List.replicate 32 1, "https://agent.example"⟩⟩ := by
    intro x hx
    have hplain := List.all_eq_true.mp hagents _ hx
    simp only [Event.plainAgent, decide_eq_true_eq] at hplain
    subst hplain
    rfl
  obtain ⟨x, heval, hanswer⟩ := retry_recovers_iff_stored_whole plainService plainService_codec
    ⟨fun _ _ _ _ => rfl, fun _ _ _ _ => rfl⟩ agentOnly (by simp [plainRequest]) (by simp) rfl hr
    (error?_eq_some.mp he) (show "a" ∈ twoItems.offerIDs by decide) hrow
    (Store.answer_readable plainSurroundings) rfl hkey rfl
  rw [heval] at hok
  cases x with
  | error e' => exact absurd hok (by simp [Except.isOk, Except.toBool])
  | ok resp => exact ⟨tr, c, e, resp, hr, error?_eq_some.mp he, heval, hanswer⟩

end Ramp.Exchange
