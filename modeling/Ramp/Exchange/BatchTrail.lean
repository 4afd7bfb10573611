import Mathlib.Data.List.Forall2
import Ramp.Exchange.Clearance

/-! What one request has read and written: the agent, the digests its claim is
known to hold, the finalized responses and rows it read, the rows and the
response it wrote. The facts its answer rests on are stated over this trail. -/

namespace Ramp.Exchange

open Prog

variable {Blob : Type}

structure BatchTrail (Blob : Type) where
  agents : List (String × Agent) := []
  claims : List Bytes := []
  payloads : List Blob := []
  rows : List (String × TransactionRecord Blob) := []
  writes : List (PersistTxIntent Blob) := []
  finals : List Blob := []
  outrun : Bool := false

namespace BatchTrail

def track : (op : Op Blob) → BatchTrail Blob → Res op → BatchTrail Blob
  | .agentByID id, t, .found a => { t with agents := (id, a) :: t.agents }
  | .claimRequest _ _ digest, t, .won => { t with claims := digest :: t.claims }
  | .claimRequest _ _ _, t, .lost stored => { t with claims := stored :: t.claims }
  | .requestResponse _ _, t, .payload (some p) => { t with payloads := p :: t.payloads }
  | .byIdempotencyKey key, t, .found row => { t with rows := (key, row) :: t.rows }
  | .persist intent _ _, t, r =>
    if PersistReply.wrote r then { t with writes := intent :: t.writes } else t
  | .finalizeRequest _ _ p, t, .done true => { t with finals := p :: t.finals }
  | .finalizeRequest _ _ _, t, .done false => { t with outrun := true }
  | .finalizeRequest _ _ p, t, .err _ true => { t with finals := p :: t.finals }
  | _, t, _ => t

structure Le (t t' : BatchTrail Blob) : Prop where
  agents : t.agents ⊆ t'.agents
  claims : t.claims ⊆ t'.claims
  payloads : t.payloads ⊆ t'.payloads
  rows : t.rows ⊆ t'.rows
  writes : t.writes ⊆ t'.writes
  finals : t.finals ⊆ t'.finals

theorem Le.refl (t : BatchTrail Blob) : t.Le t :=
  ⟨List.Subset.refl _, List.Subset.refl _, List.Subset.refl _, List.Subset.refl _,
    List.Subset.refl _, List.Subset.refl _⟩

theorem Le.trans {t t' t'' : BatchTrail Blob} (h : t.Le t') (h' : t'.Le t'') : t.Le t'' :=
  ⟨List.Subset.trans h.agents h'.agents, List.Subset.trans h.claims h'.claims,
    List.Subset.trans h.payloads h'.payloads, List.Subset.trans h.rows h'.rows,
    List.Subset.trans h.writes h'.writes, List.Subset.trans h.finals h'.finals⟩

inductive Tracked (t : BatchTrail Blob) : (op : Op Blob) → Res op → BatchTrail Blob → Prop
  | same {op : Op Blob} {r : Res op} : Tracked t op r t
  | agent {id : String} {a : Agent} :
    Tracked t (.agentByID id) (.found a) { t with agents := (id, a) :: t.agents }
  | claim {a k : String} {d d' : Bytes} {r : ClaimReply} (h : r = .won ∧ d' = d ∨ r = .lost d') :
    Tracked t (.claimRequest a k d) r { t with claims := d' :: t.claims }
  | payload {a k : String} {p : Blob} :
    Tracked t (.requestResponse a k) (.payload (some p)) { t with payloads := p :: t.payloads }
  | row {key : String} {row : TransactionRecord Blob} :
    Tracked t (.byIdempotencyKey key) (.found row) { t with rows := (key, row) :: t.rows }
  | write {intent : PersistTxIntent Blob} {ob : Bool} {ev : EvidenceRecord} {r : PersistReply Blob}
    (h : r.wrote = true) :
    Tracked t (.persist intent ob ev) r { t with writes := intent :: t.writes }
  | final {a k : String} {p : Blob} {r : FinalizeReply} (h : r.wrote = true) :
    Tracked t (.finalizeRequest a k p) r { t with finals := p :: t.finals }
  | outrun {a k : String} {p : Blob} :
    Tracked t (.finalizeRequest a k p) (.done false) { t with outrun := true }

theorem track_tracked (op : Op Blob) (t : BatchTrail Blob) (r : Res op) :
    Tracked t op r (track op t r) := by
  cases op
  case agentByID =>
    rcases r with a | _ | e | e
    · exact .agent
    all_goals exact .same
  case claimRequest =>
    rcases r with _ | stored | e
    · exact .claim (.inl ⟨rfl, rfl⟩)
    · exact .claim (.inr rfl)
    · exact .same
  case requestResponse =>
    rcases r with (_ | p) | e
    · exact .same
    · exact .payload
    · exact .same
  case byIdempotencyKey =>
    rcases r with row | _ | e
    · exact .row
    all_goals exact .same
  case persist =>
    simp only [track]
    split_ifs with hw
    · exact .write hw
    · exact .same
  case finalizeRequest =>
    rcases r with (_ | _) | ⟨e, _ | _⟩
    · exact .outrun
    · exact .final rfl
    · exact .same
    · exact .final rfl
  all_goals exact .same

theorem le_track (op : Op Blob) (t : BatchTrail Blob) (r : Res op) : t.Le (track op t r) := by
  have hrefl := Le.refl t
  have htrack := track_tracked op t r
  generalize track op t r = u at htrack ⊢
  cases htrack with
  | same => exact hrefl
  | agent => exact { hrefl with agents := List.subset_cons_self _ _ }
  | claim => exact { hrefl with claims := List.subset_cons_self _ _ }
  | payload => exact { hrefl with payloads := List.subset_cons_self _ _ }
  | row => exact { hrefl with rows := List.subset_cons_self _ _ }
  | write => exact { hrefl with writes := List.subset_cons_self _ _ }
  | final => exact { hrefl with finals := List.subset_cons_self _ _ }
  | outrun => exact { hrefl with }

theorem le_of_tracked {op : Op Blob} {t t' t₀ : BatchTrail Blob} {r : Res op} (h : t₀.Le t)
    (hr : tracked track op t r = some t') : t₀.Le t' := by
  cases hr
  exact h.trans (le_track op t r)

abbrev Found (t : BatchTrail Blob) (id : String) (a : Agent) : Prop := (id, a) ∈ t.agents

end BatchTrail

section

variable (s : Service Blob) (req : TransactionRequest)

def OwnSlot (agentID key : String) : Prop :=
  s.fromDirectory req.requester.id = .ok agentID ∧ key = req.idempotencyKey

def Proven (agent : ResolvedAgent) (binding : AgentBinding) : Prop :=
  (∃ acceptance canonical, req.agentRequestAcceptance = some acceptance ∧
    s.verifyRequestAcceptance req acceptance agent.key = .ok (binding, canonical)) ∨
  ∃ item ∈ req.items, s.verifyAgentAcceptance (itemRequest req item) agent.key = .ok binding

def Held (t : BatchTrail Blob) (agent : ResolvedAgent) : Prop :=
  ∀ acceptance, req.agentRequestAcceptance = some acceptance → ∃ binding canonical,
    s.verifyRequestAcceptance req acceptance agent.key = .ok (binding, canonical) ∧
    s.sha256 canonical ∈ t.claims

structure MayBuy (t : BatchTrail Blob) (agent : ResolvedAgent) (item : TransactionItem) :
    Prop where
  resolved : Resolved s req t.Found agent
  held : Held s req t agent
  mem : item ∈ req.items

/-- The row `intent` writes is the item's, carries its result and is bound to
the agent's key. -/
structure Purchase (agent : ResolvedAgent) (item : TransactionItem) (r : TransactionResultItem)
    (intent : PersistTxIntent Blob) : Prop where
  idempotencyKey : intent.idempotencyKey = derivedItemKey req.idempotencyKey item.offer.offerID
  offerID : intent.offerID = item.offer.offerID
  result : s.marshalItem r = .ok intent.resultPayload
  resultOffer : r.offerID = item.offer.offerID
  granted : r.denialReason = none
  delivered : r.deliveryMethod = .instructions
  identity : s.thumbprintBytes agent.key.pub = .ok intent.agentIdentityHash
  keyed : agent.key.pub.length = ed25519PublicKeySize

def ItemDone (t t' : BatchTrail Blob) (agent : ResolvedAgent) (item : TransactionItem) :
    Except Error TransactionResultItem → Prop
  | .ok r => ∃ intent, t'.writes = intent :: t.writes ∧ Purchase s req agent item r intent
  | .error e => t'.writes = t.writes ∨ e.kind = .internal

/-- An item's own result, with the thumbprint of the key it is bound to; a lost
insert leaves the acceptance verified. -/
def ItemRun (t t' : BatchTrail Blob) (agent : ResolvedAgent) (item : TransactionItem) :
    Except Error (TransactionResultItem × String) → Prop
  | .ok (r, thumbprint) => ItemDone s req t t' agent item (.ok r) ∧ ∃ digest,
      s.thumbprintBytes agent.key.pub = .ok digest ∧ thumbprint = s.rawURLEncoding digest
  | .error e => ItemDone s req t t' agent item (.error e) ∧ (isIdempotentReplay e = true →
      ∃ b, s.verifyAgentAcceptance (itemRequest req item) agent.key = .ok b)

def ItemOutcome (t : BatchTrail Blob) (agent : ResolvedAgent) (item : TransactionItem)
    (r : TransactionResultItem) : Prop :=
  (∃ intent ∈ t.writes, Purchase s req agent item r intent) ∨
    (r.offerID = item.offer.offerID ∧ r.denialReason ≠ none)

structure Progress (t : BatchTrail Blob) (agent : ResolvedAgent) (done : List TransactionItem)
    (out : BatchOutcome) : Prop where
  recovered : out.recovered = none
  results : List.Forall₂ (ItemOutcome s req t agent) done out.results
  told : ∀ intent ∈ t.writes, ∃ r ∈ out.results, s.marshalItem r = .ok intent.resultPayload
  thumbprint : (out.sharedThumbprint = "" ∧ ∀ r ∈ out.results, r.denialReason ≠ none) ∨
    ∃ digest, s.thumbprintBytes agent.key.pub = .ok digest ∧
      out.sharedThumbprint = s.rawURLEncoding digest

structure Report (t : BatchTrail Blob) (agent : ResolvedAgent) (resp : TransactionResponse) :
    Prop where
  resolved : Resolved s req t.Found agent
  items : List.Forall₂ (ItemOutcome s req t agent) req.items resp.items
  hash : (∃ r ∈ resp.items, r.denialReason = none) → ∃ digest,
    s.thumbprintBytes agent.key.pub = .ok digest ∧
      resp.agentIdentityHash = s.rawURLEncoding digest

structure Outcome (t : BatchTrail Blob) (agent : ResolvedAgent) (resp : TransactionResponse) :
    Prop extends Report s req t agent resp where
  told : ∀ intent ∈ t.writes, ∃ r ∈ resp.items, s.marshalItem r = .ok intent.resultPayload

def FoundRow (t : BatchTrail Blob) (item : TransactionItem) (f : TransactionResultItem × Bytes) :
    Prop :=
  ∃ row, (derivedItemKey req.idempotencyKey item.offer.offerID, row) ∈ t.rows ∧
    s.unmarshalItem row.resultPayload = .ok f.1 ∧ row.agentIdentityHash = f.2

/-- A response that earlier requests stored: finalized on the claim, or rebuilt
from one row for each item, and gated by the binding. -/
inductive Stored (t : BatchTrail Blob) (binding : AgentBinding) (resp : TransactionResponse) :
    Prop
  | served {payload : Blob} (read : payload ∈ t.payloads)
      (decoded : s.unmarshalResponse payload = .ok resp)
      (gate : resp.agentIdentityHash = "" ∨ resp.agentIdentityHash = binding.thumbprint)
  | rebuilt (rows : List.Forall₂ (fun item r => FoundRow s req t item (r, binding.digest))
      req.items resp.items)

/-- The rows written are still `w`, and a stored response that was found is
gated by the binding. -/
structure Finds (binding : AgentBinding) (w : List (PersistTxIntent Blob)) (t : BatchTrail Blob)
    (x : Except Error (Option TransactionResponse)) : Prop where
  writes : t.writes = w
  stored : ∀ resp, x = .ok (some resp) → Stored s req t binding resp

structure Admitted (t : BatchTrail Blob) (agent : ResolvedAgent) (adm : Admission) : Prop where
  writes : t.writes = []
  held : Held s req t agent
  answered : ∀ resp, adm.resp = some resp →
    Proven s req agent adm.binding ∧ Stored s req t adm.binding resp
  proven : ∀ item ∈ req.items,
    (∃ b, s.verifyAgentAcceptance (itemRequest req item) agent.key = .ok b) →
      Proven s req agent adm.binding
  claimed : adm.claimed = true → ∃ acceptance canonical,
    req.agentRequestAcceptance = some acceptance ∧
      s.verifyRequestAcceptance req acceptance agent.key = .ok (adm.binding, canonical)
  bare : adm.claimed = false → req.agentRequestAcceptance = none

def LoopDone (agent : ResolvedAgent) (binding : AgentBinding) (t : BatchTrail Blob)
    (x : Except Error BatchOutcome) : Prop :=
  ∀ out, x = .ok out → Progress s req t agent req.items out ∨
    ∃ resp, out.recovered = some resp ∧ Proven s req agent binding ∧ Stored s req t binding resp

inductive Answer (t : BatchTrail Blob) (resp : TransactionResponse) : Prop
  | executed {agent : ResolvedAgent} (bare : req.agentRequestAcceptance = none)
      (outcome : Outcome s req t agent resp)
  | finalized {agent : ResolvedAgent} {payload : Blob} (outcome : Outcome s req t agent resp)
      (encoded : s.marshalResponse resp = .ok payload) (won : payload ∈ t.finals)
  | stored {agent : ResolvedAgent} {binding : AgentBinding}
      (resolved : Resolved s req t.Found agent) (proven : Proven s req agent binding)
      (stored : Stored s req t binding resp)
  | readBack {agent : ResolvedAgent} {acceptance : RequestAcceptance} {binding : AgentBinding}
      {canonical : Bytes} {payload : Blob} (resolved : Resolved s req t.Found agent)
      (proof : req.agentRequestAcceptance = some acceptance)
      (verified : s.verifyRequestAcceptance req acceptance agent.key = .ok (binding, canonical))
      (outrun : t.outrun = true) (read : payload ∈ t.payloads)
      (decoded : s.unmarshalResponse payload = .ok resp)

def BatchTrail.LoopGuard (t : BatchTrail Blob) : Op Blob → Prop
  | .claimRequest a k _ => OwnSlot s req a k
  | .requestResponse a k => OwnSlot s req a k
  | .persist intent _ _ =>
      ∃ agent item r, MayBuy s req t agent item ∧ Purchase s req agent item r intent
  | .finalizeRequest _ _ _ => False
  | _ => True

def BatchTrail.Guard (t : BatchTrail Blob) : Op Blob → Prop
  | .finalizeRequest a k p => OwnSlot s req a k ∧ req.agentRequestAcceptance ≠ none ∧
      ∃ agent resp, Outcome s req t agent resp ∧ s.marshalResponse resp = .ok p
  | op => t.LoopGuard s req op

structure Ends (t : BatchTrail Blob) (x : Except Error TransactionResponse) : Prop where
  answer : ∀ resp, x = .ok resp → Answer s req t resp
  final : ∀ p ∈ t.finals, ∃ agent resp, Outcome s req t agent resp ∧
    s.marshalResponse resp = .ok p

end

variable {s : Service Blob} {req : TransactionRequest} {t t' : BatchTrail Blob}
  {agent : ResolvedAgent} {item : TransactionItem}

theorem Resolved.le (h : Resolved s req t.Found agent) (hle : t.Le t') :
    Resolved s req t'.Found agent :=
  h.mono fun _ _ hm => hle.agents hm

theorem Resolved.registered (h : Resolved s req t.Found agent)
    (hlen : agent.key.pub.length = ed25519PublicKeySize) :
    ∃ a, (agent.id, a) ∈ t.agents ∧ agent.key.pub = a.publicKey := by
  rcases h.key with hk | ⟨a, ha, hk⟩
  · rw [hk] at hlen
    exact absurd hlen (by decide)
  · exact ⟨a, ha, by rw [hk]⟩

theorem Held.le (h : Held s req t agent) (hle : t.Le t') : Held s req t' agent := by
  intro acceptance ha
  obtain ⟨binding, canonical, hv, hc⟩ := h acceptance ha
  exact ⟨binding, canonical, hv, hle.claims hc⟩

theorem MayBuy.le (h : MayBuy s req t agent item) (hle : t.Le t') : MayBuy s req t' agent item :=
  ⟨h.resolved.le hle, h.held.le hle, h.mem⟩

variable {r denied : TransactionResultItem} {resp : TransactionResponse} {binding : AgentBinding}
  {w : List (PersistTxIntent Blob)} {e : Error} {done : List TransactionItem} {out : BatchOutcome}

theorem ItemOutcome.le (h : ItemOutcome s req t agent item r) (hle : t.Le t') :
    ItemOutcome s req t' agent item r :=
  h.imp_left fun ⟨intent, hm, hp⟩ => ⟨intent, hle.writes hm, hp⟩

theorem Report.le (h : Report s req t agent resp) (hle : t.Le t') : Report s req t' agent resp :=
  ⟨h.resolved.le hle, h.items.imp fun _ _ ho => ho.le hle, h.hash⟩

theorem BatchTrail.LoopGuard.guard {op : Op Blob} (h : t.LoopGuard s req op) :
    t.Guard s req op := by
  cases op
  case finalizeRequest => exact h.elim
  all_goals exact h

theorem FoundRow.le {f : TransactionResultItem × Bytes} (h : FoundRow s req t item f)
    (hle : t.Le t') : FoundRow s req t' item f := by
  obtain ⟨row, hm, hr⟩ := h
  exact ⟨row, hle.rows hm, hr⟩

theorem Finds.error (hw : t.writes = w) : Finds s req binding w t (.error e) :=
  ⟨hw, by simp⟩

theorem Finds.none (hw : t.writes = w) : Finds s req binding w t (.ok none) :=
  ⟨hw, by simp⟩

theorem Finds.some (hw : t.writes = w) (h : Stored s req t binding resp) :
    Finds s req binding w t (.ok (some resp)) := by
  refine ⟨hw, fun resp' hr => ?_⟩
  obtain rfl := Option.some.inj (Except.ok.inj hr)
  exact h

theorem Admitted.of_claim {acceptance : RequestAcceptance} {canonical : Bytes}
    {resp : Option TransactionResponse} (hacc : req.agentRequestAcceptance = some acceptance)
    (hv : s.verifyRequestAcceptance req acceptance agent.key = .ok (binding, canonical))
    (hclaim : s.sha256 canonical ∈ t.claims) (hf : Finds s req binding [] t (.ok resp)) :
    Admitted s req t agent { resp, claimed := true, binding } where
  writes := hf.writes
  held acceptance' ha := by
    obtain rfl := Option.some.inj (hacc.symm.trans ha)
    exact ⟨binding, canonical, hv, hclaim⟩
  answered resp' hr := by
    obtain rfl : resp = some resp' := hr
    exact ⟨Or.inl ⟨acceptance, canonical, hacc, hv⟩, hf.stored resp' rfl⟩
  proven _ _ _ := Or.inl ⟨acceptance, canonical, hacc, hv⟩
  claimed _ := ⟨acceptance, canonical, hacc, hv⟩
  bare h := absurd h (by simp)

section

variable (h : Progress s req t agent done out) (hle : t.Le t')
include h hle

theorem Progress.deliver {thumbprint : String}
    (hrun : ItemRun s req t t' agent item (.ok (r, thumbprint))) :
    Progress s req t' agent (done ++ [item])
      { out with
        results := out.results ++ [r]
        sharedThumbprint := if out.sharedThumbprint = "" then thumbprint
          else out.sharedThumbprint } := by
  obtain ⟨⟨intent, hwrites, hp⟩, digest, hdigest, rfl⟩ := hrun
  refine ⟨h.recovered, ?_, ?_, Or.inr ?_⟩
  · refine List.rel_append (h.results.imp fun _ _ ho => ho.le hle) (.cons (.inl ?_) .nil)
    exact ⟨intent, by simp [hwrites], hp⟩
  · intro intent' hm
    rw [hwrites] at hm
    rcases List.mem_cons.mp hm with rfl | hm
    · exact ⟨r, by simp, hp.result⟩
    · obtain ⟨r', hr', hpay⟩ := h.told intent' hm
      exact ⟨r', List.mem_append_left _ hr', hpay⟩
  · dsimp only
    split_ifs with hempty
    · exact ⟨digest, hdigest, rfl⟩
    · rcases h.thumbprint with ⟨hs, -⟩ | hs
      · exact absurd hs hempty
      · exact hs

theorem Progress.deny (hwrites : t'.writes = t.writes)
    (hoffer : denied.offerID = item.offer.offerID) (hden : denied.denialReason ≠ none) :
    Progress s req t' agent (done ++ [item]) { out with results := out.results ++ [denied] } := by
  refine ⟨h.recovered, ?_, ?_, ?_⟩
  · exact List.rel_append (h.results.imp fun _ _ ho => ho.le hle)
      (.cons (.inr ⟨hoffer, hden⟩) .nil)
  · intro intent hm
    rw [hwrites] at hm
    obtain ⟨r, hr, hpay⟩ := h.told intent hm
    exact ⟨r, List.mem_append_left _ hr, hpay⟩
  · refine h.thumbprint.imp_left fun ⟨hs, hall⟩ => ⟨hs, fun r hr => ?_⟩
    rcases List.mem_append.mp hr with hr | hr
    · exact hall r hr
    · obtain rfl := List.mem_singleton.mp hr
      exact hden

end

theorem batchDenialResult_some (h : batchDenialResult item e = some denied) :
    e.kind ≠ .internal ∧ denied.offerID = item.offer.offerID ∧ denied.denialReason ≠ none := by
  obtain ⟨reason, hr, rfl⟩ := Option.map_eq_some_iff.mp h
  refine ⟨fun hk => ?_, rfl, by simp⟩
  simp [denialReasonForKind, denialReasonByKind, hk] at hr

end Ramp.Exchange
