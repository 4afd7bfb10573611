import Ramp.Data.Table
import Ramp.Exchange.BatchRuns

/-! Replays. Requests of one agent for one item set under one key agree as long as no item is
denied by the finalized response and committed by another execution. A request is answered only
with results bound to the key of its acceptance, the read-back after a lost finalization apart. -/

namespace Ramp.Exchange

open Prog

variable {Blob ι : Type}

variable {resp : TransactionResponse} {s : Service Blob} {req : ι → TransactionRequest}
  {store st : Store Blob} {tr : Trace (Op Blob) Res ι}

section

structure Service.Codec (s : Service Blob) : Prop where
  item : ∀ r p, s.marshalItem r = .ok p → s.unmarshalItem p = .ok r
  response : ∀ r p, s.marshalResponse r = .ok p → s.unmarshalResponse p = .ok r

def TransactionRequest.offerIDs (req : TransactionRequest) : List String :=
  req.items.map fun item => item.offer.offerID

/-- The requests carry one agent, one key and complete-set proofs of one digest,
that is, of the same offers in the same order. -/
structure SameRequest (s : Service Blob) (req : ι → TransactionRequest) (a k : String)
    (offers : List String) : Prop where
  slot : ∀ i, OwnSlot s (req i) a k
  proof : ∀ i, (req i).agentRequestAcceptance ≠ none
  offers : ∀ i, (req i).offerIDs = offers

def NoSplitVerdict (s : Service Blob) (tr : Trace (Op Blob) Res ι) : Prop :=
  ∀ i j a k p r intent ob ev r', (i, ⟨.finalizeRequest a k p, r⟩) ∈ tr →
    FinalizeReply.wrote r = true → (j, ⟨.persist intent ob ev, r'⟩) ∈ tr →
    PersistReply.wrote r' = true → ∀ resp, s.unmarshalResponse p = .ok resp →
    ∀ it ∈ resp.items, it.offerID = intent.offerID → it.denialReason = none

def RowCarries (s : Service Blob) (k : String) (st : Store Blob) (offerID : String)
    (r : TransactionResultItem) : Prop :=
  ∃ row, st.rows (derivedItemKey k offerID) = some row ∧ s.unmarshalItem row.resultPayload = .ok r

variable {r r' : TransactionResultItem}

theorem RowCarries.unique {k : String} {offerID : String} (h : RowCarries s k st offerID r)
    (h' : RowCarries s k st offerID r') : r = r' := by
  obtain ⟨row, hrow, hr⟩ := h
  obtain ⟨row', hrow', hr'⟩ := h'
  obtain rfl := Option.some.inj (hrow.symm.trans hrow')
  exact Except.ok.inj (hr.symm.trans hr')

theorem RowCarries.list_unique {k : String} {offers : List String}
    {rs rs' : List TransactionResultItem} (h : List.Forall₂ (RowCarries s k st) offers rs)
    (h' : List.Forall₂ (RowCarries s k st) offers rs') : rs = rs' :=
  List.right_unique_forall₂' (fun _ _ _ hr hr' => hr.unique hr') h h'

inductive Source (s : Service Blob) (a k : String) (offers : List String) (st : Store Blob)
    (resp : TransactionResponse) : Prop
  | claim {p : Blob} (finalized : st.finalized (a, k) = some p)
      (decoded : s.unmarshalResponse p = .ok resp)
  | rows (carried : List.Forall₂ (RowCarries s k st) offers resp.items)

variable {p : Blob}

section

variable [DecidableEq ι] {a k : String} {offers : List String}

section

variable (hc : s.Codec) (hsame : SameRequest s req a k offers)
include hc hsame

theorem Answer.source (hinv : BatchInv s req store tr st) {i : ι}
    (h : Answer s (req i) (batchTrail tr i) resp) : Source s a k offers st resp := by
  have hk := hinv.known i
  have hslot := hsame.slot i
  cases h with
  | executed bare _ => exact absurd bare (hsame.proof i)
  | finalized outcome encoded won =>
    exact .claim (hk.finals a k _ hslot won) (hc.response _ _ encoded)
  | stored _ _ stored =>
    cases stored with
    | served read decoded _ => exact .claim (hk.payloads a k _ hslot read) decoded
    | rebuilt rows =>
      refine .rows ?_
      rw [← hsame.offers i, TransactionRequest.offerIDs, List.forall₂_map_left_iff]
      refine rows.imp fun item r => ?_
      rintro ⟨row, hm, hr, -⟩
      rw [← hslot.2] at hm
      exact ⟨row, hk.rows _ row hm, hr⟩
  | readBack _ _ _ _ read decoded => exact .claim (hk.payloads a k _ hslot read) decoded

variable (hfresh : ∀ id ∈ offers, store.rows (derivedItemKey k id) = none)
include hfresh

theorem ItemOutcome.carried (hinv : BatchInv s req store tr st) (hsplit : NoSplitVerdict s tr)
    {m : ι} {agent : ResolvedAgent} {item : TransactionItem} (hp : p ∈ (batchTrail tr m).finals)
    (hdec : s.unmarshalResponse p = .ok resp) (hmem : r ∈ resp.items)
    (hitem : item.offer.offerID ∈ offers)
    (ho : ItemOutcome s (req m) (batchTrail tr m) agent item r)
    (hrow : RowCarries s k st item.offer.offerID r') : RowCarries s k st item.offer.offerID r := by
  rcases ho with ⟨intent, hw, hpur⟩ | ⟨hoffer, hden⟩
  · refine ⟨intent.record, ?_, hc.item _ _ hpur.result⟩
    rw [(hsame.slot m).2, ← hpur.idempotencyKey]
    exact (hinv.known m).writes intent hw
  · obtain ⟨row, hrow, -⟩ := hrow
    rcases hinv.writer _ row hrow with hold | ⟨l, intent, hw, hkey, -⟩
    · rw [hfresh _ hitem] at hold
      exact absurd hold (by simp)
    · obtain ⟨agent', item', r'', -, hpur⟩ := hinv.purchase l intent hw
      have hsameOffer : item'.offer.offerID = item.offer.offerID := by
        rw [hpur.idempotencyKey, ← (hsame.slot l).2] at hkey
        exact derivedItemKey_inj hkey
      obtain ⟨ob, ev, rw', hev, hwrote⟩ := batchTrail_writes hw
      obtain ⟨a', k', rf, hef, hfwrote⟩ := batchTrail_finals hp
      refine absurd (hsplit m l a' k' p rf intent ob ev rw' hef hfwrote hev hwrote resp hdec r hmem
        ?_) hden
      rw [hoffer, hpur.offerID, hsameOffer]

theorem finalized_carried (hopen : store.finalized (a, k) = none)
    (hinv : BatchInv s req store tr st) (hsplit : NoSplitVerdict s tr) {resp' : TransactionResponse}
    (hp : st.finalized (a, k) = some p) (hdec : s.unmarshalResponse p = .ok resp)
    (hrows : List.Forall₂ (RowCarries s k st) offers resp'.items) :
    List.Forall₂ (RowCarries s k st) offers resp.items := by
  rcases hinv.finalizer (a, k) p hp with hold | ⟨m, -, hm⟩
  · rw [hopen] at hold
    exact absurd hold (by simp)
  · obtain ⟨agent, built, hrep, hpay⟩ := hinv.report m p hm
    obtain rfl := Except.ok.inj ((hc.response _ _ hpay).symm.trans hdec)
    have hoffers := hsame.offers m
    rw [← hoffers, TransactionRequest.offerIDs, List.forall₂_map_left_iff] at hrows ⊢
    refine (forall₂_join hrep.items hrows).imp ?_
    rintro item r ⟨hitem, hr, ho, r', hrow⟩
    refine ho.carried hc hsame hfresh hinv hsplit hm hdec hr ?_ hrow
    rw [← hoffers]
    exact List.mem_map_of_mem hitem

end

/-- Any two answers to the request have the same items, as long as no item that
the finalized response denies is committed. -/
theorem answers_agree_of_no_split_verdict [DecidableEq Blob] (s : Service Blob) (hc : s.Codec)
    {ctx : ι → RequestContext} {req : ι → TransactionRequest} {a k : String}
    {offers : List String} (hsame : SameRequest s req a k offers) {store : Store Blob}
    (hfresh : ∀ id ∈ offers, store.rows (derivedItemKey k id) = none)
    (hopen : store.finalized (a, k) = none) {tr : Trace (Op Blob) Res ι} {c : BatchPool Blob ι}
    (hr : Run Store.step HoldExpiry (batchPool s ctx req store) tr c)
    (hsplit : NoSplitVerdict s tr) {i j : ι} {resp resp' : TransactionResponse}
    (hi : c.threads i = .ret (.ok resp)) (hj : c.threads j = .ret (.ok resp')) :
    resp.items = resp'.items := by
  have hinv := batchPool_inv s hr
  have hsource : ∀ {i : ι} {resp : TransactionResponse}, c.threads i = .ret (.ok resp) →
      Source s a k offers c.shared resp := fun hi =>
    ((hr.returned (batchPool_conduct s ctx req store) hi).answer _ rfl).source hc hsame hinv
  rcases hsource hi with ⟨hp, hdec⟩ | hrows <;> rcases hsource hj with ⟨hp', hdec'⟩ | hrows'
  · obtain rfl := Option.some.inj (hp.symm.trans hp')
    rw [Except.ok.inj (hdec.symm.trans hdec')]
  · exact RowCarries.list_unique
      (finalized_carried hc hsame hfresh hopen hinv hsplit hp hdec hrows') hrows'
  · exact RowCarries.list_unique hrows
      (finalized_carried hc hsame hfresh hopen hinv hsplit hp' hdec' hrows)
  · exact RowCarries.list_unique hrows hrows'

end

def billingRefused : (op : Op Payload) → Store Payload → Res op
  | .authorize _, _ => .result { billingID := "", approved := false, reason := "balance" }
  | op, s => Store.answer plainSurroundings op s

abbrev agentOnly : RequestContext := ⟨["agent"], "", false⟩

/-- Request 0 is denied its item and pauses before finalizing. Request 1 waits it
out, delivers the item and commits its row. Request 2 is answered from that row,
and then request 0 finalizes and returns its denial. -/
theorem denied_and_delivered_answers : ∃ tr c resp resp',
    Run Store.step HoldExpiry (batchPool plainService (fun _ : Fin 3 => agentOnly)
      (fun _ => plainRequest [plainItem "offer"]) {}) tr c ∧
    c.threads 0 = .ret (.ok resp) ∧ c.threads 2 = .ret (.ok resp') ∧
    resp.items.map TransactionResultItem.denialReason = [some .insufficientBalance] ∧
    resp'.items.map TransactionResultItem.denialReason = [none] := by
  have hrun : ∃ tr c, Run Store.step HoldExpiry (batchPool plainService
      (fun _ : Fin 3 => agentOnly) (fun _ => plainRequest [plainItem "offer"]) {}) tr c ∧
      (c.threads 0).ok?.map (fun resp => resp.items.map TransactionResultItem.denialReason) =
        some [some .insufficientBalance] ∧
      (c.threads 2).ok?.map (fun resp => resp.items.map TransactionResultItem.denialReason) =
        some [none] :=
    Pool.exists_run (turns 10 0 ++ [⟨0, billingRefused⟩] ++ turns 142 1 ++ turns 4 2 ++ turns 1 0)
      (by decide +kernel)
  obtain ⟨tr, c, hr, h0, h2⟩ := hrun
  obtain ⟨resp, hresp, hden⟩ := Option.map_eq_some_iff.mp h0
  obtain ⟨resp', hresp', hdel⟩ := Option.map_eq_some_iff.mp h2
  exact ⟨tr, c, resp, resp', hr, ok?_eq_some.mp hresp, ok?_eq_some.mp hresp', hden, hdel⟩

def Op.deniesNothing (s : Service Blob) : Op Blob → Bool
  | .finalizeRequest _ _ p =>
    match s.unmarshalResponse p with
    | .ok resp => resp.items.all fun it => it.denialReason = none
    | .error _ => true
  | _ => true

theorem NoSplitVerdict.of_deniesNothing (h : (tr.all fun e => e.2.op.deniesNothing s) = true) :
    NoSplitVerdict s tr := by
  intro i j a k p r intent ob ev r' hf _ _ _ resp hdec it hit _
  have hp := List.all_eq_true.mp h _ hf
  simp only [Op.deniesNothing, hdec, List.all_eq_true, decide_eq_true_eq] at hp
  exact hp it hit

theorem plainService_codec : plainService.Codec where
  item r p h := by
    cases h
    rfl
  response r p h := by
    cases h
    rfl

/-- The first request delivers and finalizes, the second is served its response. -/
theorem retry_answer_agrees : ∃ tr c resp resp',
    Run Store.step HoldExpiry (batchPool plainService (fun _ : Bool => agentOnly)
      (fun _ => plainRequest [plainItem "offer"]) {}) tr c ∧
    c.threads false = .ret (.ok resp) ∧ c.threads true = .ret (.ok resp') ∧
    resp.items = resp'.items := by
  have hrun : ∃ tr c, Run Store.step HoldExpiry (batchPool plainService
      (fun _ : Bool => agentOnly) (fun _ => plainRequest [plainItem "offer"]) {}) tr c ∧
      (tr.all fun e => e.2.op.deniesNothing plainService) = true ∧
      (c.threads false).ok?.isSome ∧ (c.threads true).ok?.isSome :=
    Pool.exists_run (turns 20 false ++ turns 3 true) (by decide +kernel)
  obtain ⟨tr, c, hr, hsplit, h0, h1⟩ := hrun
  obtain ⟨resp, hresp⟩ := Option.isSome_iff_exists.mp h0
  obtain ⟨resp', hresp'⟩ := Option.isSome_iff_exists.mp h1
  have hi := ok?_eq_some.mp hresp
  have hj := ok?_eq_some.mp hresp'
  have hsame : SameRequest plainService (fun _ : Bool => plainRequest [plainItem "offer"])
      "agent.example" "key" ["offer"] :=
    ⟨fun _ => ⟨rfl, rfl⟩, fun _ => by simp [plainRequest], fun _ => rfl⟩
  exact ⟨tr, c, resp, resp', hr, hi, hj, answers_agree_of_no_split_verdict plainService
    plainService_codec hsame (by simp) rfl hr (.of_deniesNothing hsplit) hi hj⟩

end

structure Service.Thumbprints (s : Service Blob) : Prop where
  ne_empty : ∀ pub digest, s.thumbprintBytes pub = .ok digest → s.rawURLEncoding digest ≠ ""
  inj : ∀ pub pub' digest digest', s.thumbprintBytes pub = .ok digest →
    s.thumbprintBytes pub' = .ok digest' → s.rawURLEncoding digest = s.rawURLEncoding digest' →
    digest = digest'

def AcceptedUnder (s : Service Blob) (req : TransactionRequest) (pub : Bytes) : Prop :=
  (∃ acceptance canonical, req.agentRequestAcceptance = some acceptance ∧
    s.verifyRequestAcceptanceProjection req acceptance s.exchange pub = .ok canonical) ∨
  ∃ item ∈ req.items, s.verifyOfferAcceptance item.offer req.requester req.idempotencyKey
    item.acceptanceSignature pub = .ok

/-- The requester's registered key, under which the request carries a verified
acceptance, has this thumbprint. -/
def ProvesKey (s : Service Blob) (req : TransactionRequest) (tr : Trace (Op Blob) Res ι) (i : ι)
    (digest : Bytes) : Prop :=
  ∃ a agent, s.fromDirectory req.requester.id = .ok a ∧
    (i, ⟨.agentByID a, .found agent⟩) ∈ tr ∧ AcceptedUnder s req agent.publicKey ∧
    s.thumbprintBytes agent.publicKey = .ok digest

def LoserKeepsKey (tr : Trace (Op Blob) Res ι) : Prop :=
  ∀ i j a k p p' r agent agent', (i, ⟨.finalizeRequest a k p, .done false⟩) ∈ tr →
    (j, ⟨.finalizeRequest a k p', r⟩) ∈ tr → FinalizeReply.wrote r = true →
    (i, ⟨.agentByID a, .found agent⟩) ∈ tr → (j, ⟨.agentByID a, .found agent'⟩) ∈ tr →
    agent.publicKey = agent'.publicKey

theorem Proven.facts {req : TransactionRequest} {agent : ResolvedAgent} {binding : AgentBinding}
    (h : Proven s req agent binding) :
    agent.key.pub.length = ed25519PublicKeySize ∧ AcceptedUnder s req agent.key.pub ∧
      s.thumbprintBytes agent.key.pub = .ok binding.digest ∧
      binding.thumbprint = s.rawURLEncoding binding.digest := by
  rcases h with ⟨acceptance, canonical, hacc, hv⟩ | ⟨item, hm, hv⟩
  · obtain ⟨hlen, hver, hrest⟩ := s.verifyRequestAcceptance_ok hv
    exact ⟨hlen, Or.inl ⟨acceptance, canonical, hacc, hver⟩, hrest⟩
  · obtain ⟨hlen, hver, hrest⟩ := s.verifyAgentAcceptance_ok hv
    exact ⟨hlen, Or.inr ⟨item, hm, hver⟩, hrest⟩

section

variable [DecidableEq ι] {i : ι}

variable {agent : ResolvedAgent} {binding : AgentBinding} {it : TransactionResultItem}

theorem Proven.provesKey (h : Proven s (req i) agent binding)
    (ha : Resolved s (req i) (batchTrail tr i).Found agent) :
    ProvesKey s (req i) tr i binding.digest := by
  obtain ⟨hlen, hacc, hdigest, -⟩ := h.facts
  obtain ⟨a, hm, hpub⟩ := ha.registered hlen
  rw [hpub] at hacc hdigest
  exact ⟨agent.id, a, ha.id, batchTrail_agents hm, hacc, hdigest⟩

theorem finalized_delivery (hc : s.Codec) (hinv : BatchInv s req store tr st)
    (hopen : ∀ slot, store.finalized slot = none) {slot : String × String} {p : Blob}
    (hp : st.finalized slot = some p) (hdec : s.unmarshalResponse p = .ok resp)
    (hit : it ∈ resp.items) (hgrant : it.denialReason = none) :
    ∃ m agent, OwnSlot s (req m) slot.1 slot.2 ∧ p ∈ (batchTrail tr m).finals ∧
      Resolved s (req m) (batchTrail tr m).Found agent ∧
      ∃ item, ∃ intent ∈ (batchTrail tr m).writes, Purchase s (req m) agent item it intent ∧
        resp.agentIdentityHash = s.rawURLEncoding intent.agentIdentityHash := by
  rcases hinv.finalizer slot p hp with hold | ⟨m, hslot, hm⟩
  · rw [hopen] at hold
    exact absurd hold (by simp)
  · obtain ⟨agent, built, hrep, hpay⟩ := hinv.report m p hm
    obtain rfl := Except.ok.inj ((hc.response _ _ hpay).symm.trans hdec)
    obtain ⟨digest, hdigest, hhash⟩ := hrep.hash ⟨it, hit, hgrant⟩
    obtain ⟨item, -, ho⟩ := forall₂_mem_right hrep.items hit
    rcases ho with ⟨intent, hw, hpur⟩ | ⟨-, hden⟩
    · obtain rfl := Except.ok.inj (hdigest.symm.trans hpur.identity)
      exact ⟨m, agent, hslot, hm, hrep.resolved, item, intent, hw, hpur, hhash⟩
    · exact absurd hgrant hden

/-- The result was committed by request `j`, and request `i` proves the key it is
bound to. -/
def StoredFor (s : Service Blob) (req : TransactionRequest) (tr : Trace (Op Blob) Res ι) (i j : ι)
    (it : TransactionResultItem) : Prop :=
  ∃ intent ob ev r, (j, ⟨.persist intent ob ev, r⟩) ∈ tr ∧ PersistReply.wrote r = true ∧
    s.unmarshalItem intent.resultPayload = .ok it ∧
    ProvesKey s req tr i intent.agentIdentityHash

def OwnResult (s : Service Blob) (tr : Trace (Op Blob) Res ι) (i : ι)
    (it : TransactionResultItem) : Prop :=
  ∃ intent ob ev r, (i, ⟨.persist intent ob ev, r⟩) ∈ tr ∧ PersistReply.wrote r = true ∧
    s.unmarshalItem intent.resultPayload = .ok it

theorem Report.own (hc : s.Codec) (h : Report s (req i) (batchTrail tr i) agent resp)
    (hit : it ∈ resp.items) (hgrant : it.denialReason = none) : OwnResult s tr i it := by
  obtain ⟨item, -, ho⟩ := forall₂_mem_right h.items hit
  rcases ho with ⟨intent, hw, hpur⟩ | ⟨-, hden⟩
  · obtain ⟨ob, ev, r, hm, hwrote⟩ := batchTrail_writes hw
    exact ⟨intent, ob, ev, r, hm, hwrote, hc.item _ _ hpur.result⟩
  · exact absurd hgrant hden

theorem Stored.storedFor (hc : s.Codec) (hth : s.Thumbprints) (hinv : BatchInv s req store tr st)
    (hfresh : ∀ key, store.rows key = none) (hopen : ∀ slot, store.finalized slot = none)
    (ha : Resolved s (req i) (batchTrail tr i).Found agent)
    (hproven : Proven s (req i) agent binding) (h : Stored s (req i) (batchTrail tr i) binding resp)
    (hit : it ∈ resp.items) (hgrant : it.denialReason = none) :
    ∃ j, StoredFor s (req i) tr i j it := by
  have hkey := hproven.provesKey ha
  obtain ⟨-, -, hdigest, hthumb⟩ := hproven.facts
  cases h with
  | served read decoded gate =>
    have hp := (hinv.known i).payloads agent.id (req i).idempotencyKey _ ⟨ha.id, rfl⟩ read
    obtain ⟨m, agent', -, -, -, item, intent, hw, hpur, hhash⟩ :=
      finalized_delivery hc hinv hopen hp decoded hit hgrant
    obtain ⟨ob, ev, r, hm, hwrote⟩ := batchTrail_writes hw
    have hsame : intent.agentIdentityHash = binding.digest := by
      rcases gate with hempty | hgate
      · rw [hhash] at hempty
        exact absurd hempty (hth.ne_empty _ _ hpur.identity)
      · rw [hhash, hthumb] at hgate
        exact hth.inj _ _ _ _ hpur.identity hdigest hgate
    exact ⟨m, intent, ob, ev, r, hm, hwrote, hc.item _ _ hpur.result, hsame ▸ hkey⟩
  | rebuilt rows =>
    obtain ⟨item, -, row, hm, hres, howner⟩ := forall₂_mem_right rows hit
    rcases hinv.writer _ row ((hinv.known i).rows _ row hm) with hold | ⟨j, intent, hw, -, rfl⟩
    · rw [hfresh] at hold
      exact absurd hold (by simp)
    · obtain ⟨ob, ev, r, hm', hwrote⟩ := batchTrail_writes hw
      have hsame : intent.agentIdentityHash = binding.digest := howner
      exact ⟨j, intent, ob, ev, r, hm', hwrote, hres, hsame ▸ hkey⟩

theorem readBack_storedFor (hc : s.Codec) (hinv : BatchInv s req store tr st)
    (hopen : ∀ slot, store.finalized slot = none) (hkeys : LoserKeepsKey tr)
    {acceptance : RequestAcceptance} {canonical : Bytes} {payload : Blob}
    (ha : Resolved s (req i) (batchTrail tr i).Found agent)
    (hacc : (req i).agentRequestAcceptance = some acceptance)
    (hv : s.verifyRequestAcceptance (req i) acceptance agent.key = .ok (binding, canonical))
    (hout : (batchTrail tr i).outrun = true) (hread : payload ∈ (batchTrail tr i).payloads)
    (hdec : s.unmarshalResponse payload = .ok resp) (hit : it ∈ resp.items)
    (hgrant : it.denialReason = none) : ∃ j, StoredFor s (req i) tr i j it := by
  have hproven : Proven s (req i) agent binding := Or.inl ⟨acceptance, canonical, hacc, hv⟩
  have hp := (hinv.known i).payloads agent.id (req i).idempotencyKey _ ⟨ha.id, rfl⟩ hread
  obtain ⟨m, agent', hslot, hfin, ha', item, intent, hw, hpur, -⟩ :=
    finalized_delivery hc hinv hopen hp hdec hit hgrant
  obtain ⟨hlen, haccepted, -, -⟩ := hproven.facts
  obtain ⟨a, hma, hpub⟩ := ha.registered hlen
  obtain ⟨a', hma', hpub'⟩ := ha'.registered hpur.keyed
  obtain ⟨ob, ev, r, hm, hwrote⟩ := batchTrail_writes hw
  obtain ⟨b, k, p, hlost⟩ := batchTrail_outrun hout
  obtain ⟨b', k', r', hwon, hfwrote⟩ := batchTrail_finals hfin
  obtain ⟨rfl, rfl⟩ := (hinv.slot i b k p _ hlost).unique ⟨ha.id, rfl⟩
  obtain ⟨rfl, rfl⟩ := (hinv.slot m b' k' payload _ hwon).unique hslot
  have hid : agent'.id = agent.id := Except.ok.inj (ha'.id.symm.trans hslot.1)
  rw [hid] at hma'
  have hsame := hkeys i m _ _ p payload r' a a' hlost hwon hfwrote (batchTrail_agents hma)
    (batchTrail_agents hma')
  refine ⟨m, intent, ob, ev, r, hm, hwrote, hc.item _ _ hpur.result, agent.id, a, ha.id,
    batchTrail_agents hma, hpub ▸ haccepted, ?_⟩
  rw [hsame, ← hpub']
  exact hpur.identity

/-- A delivered result in an answer is the request's own, or was stored under
the key that the request proves, as long as no request loses its finalization
to one that was answered another key. -/
theorem stored_result_for_proven_key [DecidableEq Blob] (s : Service Blob) (hc : s.Codec)
    (hth : s.Thumbprints) {ctx : ι → RequestContext} {req : ι → TransactionRequest}
    {store : Store Blob} (hfresh : ∀ key, store.rows key = none)
    (hopen : ∀ slot, store.finalized slot = none) {tr : Trace (Op Blob) Res ι}
    {c : BatchPool Blob ι} (hr : Run Store.step HoldExpiry (batchPool s ctx req store) tr c)
    (hkeys : LoserKeepsKey tr) {i : ι} {resp : TransactionResponse}
    (hi : c.threads i = .ret (.ok resp)) {it : TransactionResultItem} (hit : it ∈ resp.items)
    (hgrant : it.denialReason = none) :
    OwnResult s tr i it ∨ ∃ j, StoredFor s (req i) tr i j it := by
  have hinv := batchPool_inv s hr
  have hans := (hr.returned (batchPool_conduct s ctx req store) hi).answer resp rfl
  cases hans with
  | executed _ outcome => exact Or.inl (outcome.toReport.own hc hit hgrant)
  | finalized outcome _ _ => exact Or.inl (outcome.toReport.own hc hit hgrant)
  | stored ha hproven hstored =>
    exact Or.inr (hstored.storedFor hc hth hinv hfresh hopen ha hproven hit hgrant)
  | readBack ha hacc hv hout hread hdec =>
    exact Or.inr (readBack_storedFor hc hinv hopen hkeys ha hacc hv hout hread hdec hit hgrant)

end

def rotatedAgent : Agent := { plainSurroundings.agent with publicKey := List.replicate 32 2 }

def answerKey (agent : Agent) : (op : Op Payload) → Store Payload → Res op
  | .agentByID _, _ => .found agent
  | op, s => Store.answer plainSurroundings op s

def rotatedRequest : TransactionRequest :=
  { plainRequest [plainItem "offer"] with agentRequestAcceptance := some ⟨"key 2"⟩ }

/-- Request `true` resolves the agent after its key was rotated and waits out
request `false`. Its item's acceptance fails under the new key, so the item is
denied, but `false` finalizes first and `true` reads that response back. -/
theorem rotated_key_reads_back_result : ∃ tr c resp it row,
    Run Store.step HoldExpiry (batchPool plainService (fun _ : Bool => agentOnly)
      (fun i => if i then rotatedRequest else plainRequest [plainItem "offer"]) {}) tr c ∧
    c.threads true = .ret (.ok resp) ∧ resp.items = [it] ∧ it.denialReason = none ∧
    c.shared.rows "key:offer" = some row ∧ plainService.unmarshalItem row.resultPayload = .ok it ∧
    row.agentIdentityHash = List.replicate 32 1 ∧
    (true, ⟨.agentByID "agent.example", .found rotatedAgent⟩) ∈ tr ∧
    plainService.thumbprintBytes rotatedAgent.publicKey = .ok (List.replicate 32 2) := by
  have hrun : ∃ tr c, Run Store.step HoldExpiry (batchPool plainService
      (fun _ : Bool => agentOnly)
      (fun i => if i then rotatedRequest else plainRequest [plainItem "offer"]) {}) tr c ∧
      (c.threads true).ok?.map (fun resp => resp.items.map fun it => (Sum.inl it : Payload)) =
        (c.shared.rows "key:offer").map (fun row => [row.resultPayload]) ∧
      (c.threads true).ok?.map (fun resp => resp.items.map TransactionResultItem.denialReason) =
        some [none] ∧
      (c.shared.rows "key:offer").map TransactionRecord.agentIdentityHash =
        some (List.replicate 32 1) ∧
      (true, ⟨.agentByID "agent.example", .found rotatedAgent⟩) ∈ tr :=
    Pool.exists_run (turns 3 false ++ [⟨true, answerKey rotatedAgent⟩] ++ turns 128 true ++
      turns 17 false ++ turns 2 true) (by decide +kernel)
  obtain ⟨tr, c, hr, hpay, hgrant, hrow, hagent⟩ := hrun
  obtain ⟨row, hrow, howner⟩ := Option.map_eq_some_iff.mp hrow
  obtain ⟨resp, hresp, hgrant⟩ := Option.map_eq_some_iff.mp hgrant
  rw [hrow, hresp] at hpay
  obtain ⟨it, hitems, hit⟩ := List.map_eq_singleton_iff.mp (Option.some.inj hpay)
  rw [hitems] at hgrant
  exact ⟨tr, c, resp, it, row, hr, ok?_eq_some.mp hresp, hitems, by simpa using hgrant, hrow,
    by rw [← hit]; rfl, howner, hagent, rfl⟩

theorem char_of_byte_injective : Function.Injective fun b : UInt8 => Char.ofNat b.toNat := by
  have hval : ∀ b : UInt8, (Char.ofNat b.toNat).val.toNat = b.toNat := by
    intro b
    have hlt := b.toNat_lt
    have hvalid : b.toNat.isValidChar := Or.inl (by omega)
    rw [Char.ofNat, dif_pos hvalid]
    rfl
  intro a b h
  have hnat := congrArg (fun c : Char => c.val.toNat) h
  simp only [hval] at hnat
  exact UInt8.toNat.inj hnat

theorem plainService_thumbprints : plainService.Thumbprints where
  ne_empty pub digest _ h := by
    have hlist := congrArg String.toList h
    simp [plainService] at hlist
  inj pub pub' digest digest' _ _ h := by
    have hlist := congrArg String.toList h
    simp only [plainService, String.toList_ofList, List.cons.injEq, true_and] at hlist
    exact List.map_injective_iff.mpr char_of_byte_injective hlist

def Event.outrun : Event (Op Blob) Res → Bool
  | ⟨.finalizeRequest _ _ _, .done false⟩ => true
  | _ => false

theorem LoserKeepsKey.of_no_loser (h : (tr.any fun e => Event.outrun e.2) = false) :
    LoserKeepsKey tr := by
  intro i j a k p p' r agent agent' hlost
  have hout := List.any_eq_false.mp h _ hlost
  exact absurd rfl hout

/-- The second request is served the first one's result under its own key. -/
theorem retry_served_for_proven_key : ∃ tr c resp it,
    Run Store.step HoldExpiry (batchPool plainService (fun _ : Bool => agentOnly)
      (fun _ => plainRequest [plainItem "offer"]) {}) tr c ∧
    c.threads true = .ret (.ok resp) ∧ resp.items = [it] ∧ it.denialReason = none ∧
    (OwnResult plainService tr true it ∨
      ∃ j, StoredFor plainService (plainRequest [plainItem "offer"]) tr true j it) := by
  have hrun : ∃ tr c, Run Store.step HoldExpiry (batchPool plainService
      (fun _ : Bool => agentOnly) (fun _ => plainRequest [plainItem "offer"]) {}) tr c ∧
      (tr.any fun e => Event.outrun e.2) = false ∧
      (c.threads true).ok?.map (fun resp => resp.items.map TransactionResultItem.denialReason) =
        some [none] :=
    Pool.exists_run (turns 20 false ++ turns 3 true) (by decide +kernel)
  obtain ⟨tr, c, hr, hlost, hgrant⟩ := hrun
  obtain ⟨resp, hresp, hgrant⟩ := Option.map_eq_some_iff.mp hgrant
  obtain ⟨it, hitems, hden⟩ := List.map_eq_singleton_iff.mp hgrant
  have hi := ok?_eq_some.mp hresp
  exact ⟨tr, c, resp, it, hr, hi, hitems, hden, stored_result_for_proven_key plainService
    plainService_codec plainService_thumbprints (fun _ => rfl) (fun _ => rfl) hr
    (.of_no_loser hlost) hi (by simp [hitems]) hden⟩

end Ramp.Exchange
