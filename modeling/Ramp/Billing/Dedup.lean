import Mathlib.Data.Set.Function
import Ramp.Billing.Conservation
import Ramp.Data.Text

/-! How the in-memory adapter recognises a call that it has served before: every call with a
key has a slot, and a call is a replay if its slot is taken. -/

namespace Ramp.Billing

variable {key : String} {op : OpName} {res : Reservation}
  {hash : String → String} {c : Call} {s : DedupSlot}

namespace Memory

open InMemoryAdapter

variable {m m' : Memory} {ok : Bool}

theorem seen_mark {id : String} :
    (m.mark hash id op key).Seen s ↔ m.Seen s ∨ opSlot hash id op key = some s := by
  unfold mark opSlot
  split_ifs with hkey
  · simp
  · cases s with
    | auth text => simp [Seen]
    | credit text => simp [Seen]
    | op text =>
      simp only [Seen, List.mem_insert_iff, Option.some.injEq, DedupSlot.op.injEq]
      rw [or_comm, eq_comm]

theorem seen_of_free (h : (m.free hash res).Seen s) : m.Seen s := by
  unfold free at h
  split_ifs at h
  · exact h
  · cases s with
    | op text => exact h
    | credit text => exact h
    | auth text =>
      simp only [Seen, Table.get?_erase] at h ⊢
      split_ifs at h
      · cases h
      · exact h

theorem seen_of_settle {id : String} (h : (m.settle hash id res op key).Seen s) :
    m.Seen s ∨ opSlot hash id op key = some s := by
  rcases seen_mark.mp h with hseen | hslot
  · have hfreed := seen_of_free hseen
    refine .inl ?_
    cases s <;> exact hfreed
  · exact .inr hslot

theorem Step.seen (h : Step hash m c ok m') (hs : m'.Seen s) :
    m.Seen s ∨ slot hash c = some s ∧ ok = true := by
  cases h with
  | refused => exact .inl hs
  | replayed => exact .inl hs
  | opened => exact .inl hs
  | credited =>
    cases s with
    | auth text => exact .inl hs
    | op text => exact .inl hs
    | credit text =>
      rcases List.mem_insert_iff.mp hs with rfl | hmem
      · exact .inr ⟨rfl, rfl⟩
      · exact .inl hmem
  | @held req res href hkey =>
    cases s with
    | op text => exact .inl hs
    | credit text => exact .inl hs
    | auth text =>
      simp only [Seen, hold] at hs
      split_ifs at hs with hnokey
      · exact .inl hs
      · rw [Table.get?_insert] at hs
        split_ifs at hs with htext
        · refine .inr ⟨?_, rfl⟩
          rw [slot, if_neg (hkey ▸ hnokey), htext, href, hkey]
        · exact .inl hs
  | recorded => exact (seen_of_settle hs).imp_right fun hslot => ⟨hslot, rfl⟩
  | released => exact (seen_of_settle hs).imp_right fun hslot => ⟨hslot, rfl⟩
  | refunded => exact (seen_mark.mp hs).imp_right fun hslot => ⟨hslot, rfl⟩

theorem Step.marks (h : Step hash m c true m') (hs : slot hash c = some s) : m'.Seen s := by
  cases h with
  | replayed hslot hseen =>
    obtain rfl := Option.some.inj (hslot.symm.trans hs)
    exact hseen
  | opened => cases hs
  | credited =>
    cases hs
    exact List.mem_insert_self
  | @held req res href hkey =>
    simp only [slot] at hs
    split_ifs at hs with hnokey
    cases hs
    simp [Seen, hold, href, hkey, hnokey, Table.get?_insert]
  | recorded => exact seen_mark.mpr (.inr hs)
  | released => exact seen_mark.mpr (.inr hs)
  | refunded => exact seen_mark.mpr (.inr hs)

end Memory

namespace InMemoryAdapter

variable {a : InMemoryAdapter} {calls : List Call} {c' : Call} {keys : Set String} {k k' : String}

theorem seen_run (h : (run hash a calls).memory.Seen s) : a.memory.Seen s ∨
    ∃ pre c post, calls = pre ++ c :: post ∧ slot hash c = some s ∧
      (run hash a pre).succeeds hash c = true := by
  induction calls generalizing a with
  | nil => exact .inl h
  | cons c calls ih =>
    rcases ih h with hseen | ⟨pre, c', post, rfl, hslot, hok⟩
    · refine ((after_step c).seen hseen).imp_right fun hc => ?_
      exact ⟨[], c, calls, rfl, hc⟩
    · exact .inr ⟨c :: pre, c', post, rfl, hslot, hok⟩

theorem new_unseen (opts : InMemoryOptions) : ¬ (new opts).memory.Seen s := by
  cases s <;> simp [Memory.Seen, memory, new]

theorem replays_idle (h : a.replays hash c = true) :
    a.succeeds hash c = true ∧ a.after hash c = a := by
  cases c with
  | ensureAgentAccount ref => cases h
  | credit ref amount key =>
    obtain ⟨hvalid, hmem⟩ := of_decide_eq_true h
    simp only [succeeds, after, credit]
    cases hargs : validateCreditArgs ref amount key demoCurrency with
    | error e =>
      rw [hargs] at hvalid
      cases hvalid
    | ok value =>
      dsimp only
      rw [if_pos hmem]
      exact ⟨rfl, rfl⟩
  | authorize req =>
    obtain ⟨id, hauth⟩ := Option.isSome_iff_exists.mp h
    simp only [succeeds, after, authorize, hauth, and_self]
  | record id quantity key =>
    simp only [replays] at h
    simp only [succeeds, after, record, h, if_true, and_true]
    rfl
  | release id key =>
    simp only [replays] at h
    simp only [succeeds, after, release, h, if_true, and_true]
    rfl
  | refund id amount reason key =>
    simp only [replays] at h
    simp only [succeeds, after, refund, h, if_true, and_true]
    rfl

/-- No two of the keys are bounded to one text, by their digests or by a raw key that looks like
a digest. -/
structure KeysApart (hash : String → String) (keys : Set String) : Prop where
  digests : Set.InjOn hash keys
  tagged : ∀ k ∈ keys, ∀ k' ∈ keys, k.utf8ByteSize ≤ maxRawKeyLen →
    maxRawKeyLen < k'.utf8ByteSize → k ≠ "h:" ++ hash k'

theorem KeysApart.boundKey_inj (h : KeysApart hash keys) (hk : k ∈ keys) (hk' : k' ∈ keys)
    (heq : boundKey hash k = boundKey hash k') : k = k' := by
  unfold boundKey at heq
  split_ifs at heq with hshort hshort' hshort'
  · exact heq
  · exact absurd heq (h.tagged k hk k' hk' hshort (not_le.mp hshort'))
  · exact absurd heq.symm (h.tagged k' hk' k hk hshort' (not_le.mp hshort))
  · refine h.digests hk hk' (String.toList_inj.mp ?_)
    have hlist := congrArg String.toList heq
    simpa only [String.toList_append, List.append_cancel_left_eq] using hlist

theorem authMapKey_toList (ref key : String) :
    (authMapKey hash ref key).toList = ref.toList ++ '\x00' :: (boundKey hash key).toList := by
  simp [authMapKey, seenKey]

theorem opKey_toList (id : String) (op : OpName) (key : String) : (opKey hash id op key).toList =
      id.toList ++ '\x00' :: (op.text.toList ++ '\x00' :: (boundKey hash key).toList) := by
  simp [opKey, seenKey]

theorem authMapKey_inj (h : KeysApart hash keys) (hk : k ∈ keys) (hk' : k' ∈ keys)
    {ref ref' : String} (href : '\x00' ∉ ref.toList) (href' : '\x00' ∉ ref'.toList)
    (heq : authMapKey hash ref k = authMapKey hash ref' k') : ref = ref' ∧ k = k' := by
  have hlist := congrArg String.toList heq
  rw [authMapKey_toList, authMapKey_toList] at hlist
  obtain ⟨hrefs, hkeys⟩ := split_first href href' hlist
  exact ⟨String.toList_inj.mp hrefs, h.boundKey_inj hk hk' (String.toList_inj.mp hkeys)⟩

theorem opKey_inj (h : KeysApart hash keys) (hk : k ∈ keys) (hk' : k' ∈ keys) {id id' : String}
    {op' : OpName} (hid : '\x00' ∉ id.toList) (hid' : '\x00' ∉ id'.toList)
    (heq : opKey hash id op k = opKey hash id' op' k') : id = id' ∧ op = op' ∧ k = k' := by
  have hnul : ∀ op : OpName, '\x00' ∉ op.text.toList := by
    intro op
    cases op <;> decide
  have hlist := congrArg String.toList heq
  rw [opKey_toList, opKey_toList] at hlist
  obtain ⟨hids, hrest⟩ := split_first hid hid' hlist
  obtain ⟨hops, hkeys⟩ := split_first (hnul op) (hnul op') hrest
  refine ⟨String.toList_inj.mp hids, ?_, h.boundKey_inj hk hk' (String.toList_inj.mp hkeys)⟩
  cases op <;> cases op' <;> first | rfl | exact absurd hops (by decide)

theorem opSlot_some {id : String} (h : opSlot hash id op key = some s) :
    s = .op (opKey hash id op key) := by
  unfold opSlot at h
  split_ifs at h
  exact (Option.some.inj h).symm

theorem slot_cases (h : slot hash c = some s) :
    c.method = .authorize ∧ s = .auth (authMapKey hash c.name c.key) ∨
    c.method = .credit ∧ s = .credit (boundKey hash c.key) ∨
    ∃ op : OpName, c.method = op.method ∧ s = .op (opKey hash c.name op c.key) := by
  cases c with
  | ensureAgentAccount ref => cases h
  | credit ref amount key => exact .inr (.inl ⟨rfl, (Option.some.inj h).symm⟩)
  | authorize req =>
    simp only [slot] at h
    split_ifs at h
    exact .inl ⟨rfl, (Option.some.inj h).symm⟩
  | record id quantity key => exact .inr (.inr ⟨.record, rfl, opSlot_some h⟩)
  | release id key => exact .inr (.inr ⟨.release, rfl, opSlot_some h⟩)
  | refund id amount reason key => exact .inr (.inr ⟨.refund, rfl, opSlot_some h⟩)

theorem slot_inj (h : KeysApart hash keys) (hk : c.key ∈ keys) (hk' : c'.key ∈ keys)
    (hname : '\x00' ∉ c.name.toList) (hname' : '\x00' ∉ c'.name.toList)
    (hs : slot hash c = some s) (hs' : slot hash c' = some s) :
    c.method = c'.method ∧ c.key = c'.key ∧ (c.method ≠ .credit → c.name = c'.name) := by
  rcases slot_cases hs with ⟨hm, rfl⟩ | ⟨hm, rfl⟩ | ⟨op, hm, rfl⟩
  · obtain ⟨hm', heq⟩ | ⟨-, heq⟩ | ⟨op', -, heq⟩ := slot_cases hs'
    · obtain ⟨hnames, hkeys⟩ := authMapKey_inj h hk hk' hname hname' (DedupSlot.auth.inj heq)
      exact ⟨hm.trans hm'.symm, hkeys, fun _ => hnames⟩
    · cases heq
    · cases heq
  · obtain ⟨-, heq⟩ | ⟨hm', heq⟩ | ⟨op', -, heq⟩ := slot_cases hs'
    · cases heq
    · have hkeys := h.boundKey_inj hk hk' (DedupSlot.credit.inj heq)
      exact ⟨hm.trans hm'.symm, hkeys, fun hne => absurd hm hne⟩
    · cases heq
  · obtain ⟨-, heq⟩ | ⟨-, heq⟩ | ⟨op', hm', heq⟩ := slot_cases hs'
    · cases heq
    · cases heq
    · obtain ⟨hnames, rfl, hkeys⟩ := opKey_inj h hk hk' hname hname' (DedupSlot.op.inj heq)
      exact ⟨hm.trans hm'.symm, hkeys, fun _ => hnames⟩

/-- Histories whose names hold no zero byte, whose keys are kept apart and whose credits under
one key are for one account. In them no two keys share a slot, and a call is only a replay of
an earlier call of the same method, name and key that succeeded. -/
theorem dedup_exact (opts : InMemoryOptions)
    (hkeys : KeysApart hash {k | ∃ c' ∈ c :: calls, c'.key = k})
    (hnames : ∀ c' ∈ c :: calls, '\x00' ∉ c'.name.toList)
    (hcredits : ∀ c₁ ∈ c :: calls, ∀ c₂ ∈ c :: calls, c₁.method = .credit → c₂.method = .credit →
      c₁.key = c₂.key → c₁.name = c₂.name) :
    (∀ c₁ ∈ c :: calls, ∀ c₂ ∈ c :: calls, ∀ s, slot hash c₁ = some s → slot hash c₂ = some s →
      c₁.key = c₂.key) ∧
    ((run hash (new opts) calls).replays hash c = true → ∃ pre c' post, calls = pre ++ c' :: post ∧
      (run hash (new opts) pre).succeeds hash c' = true ∧
      c'.method = c.method ∧ c'.name = c.name ∧ c'.key = c.key) := by
  have hinj : ∀ c₁ ∈ c :: calls, ∀ c₂ ∈ c :: calls, ∀ s, slot hash c₁ = some s →
      slot hash c₂ = some s → c₁.method = c₂.method ∧ c₁.key = c₂.key ∧ c₁.name = c₂.name := by
    intro c₁ h₁ c₂ h₂ s hs₁ hs₂
    obtain ⟨hmethod, hkey, hname⟩ := slot_inj hkeys ⟨c₁, h₁, rfl⟩ ⟨c₂, h₂, rfl⟩ (hnames c₁ h₁)
      (hnames c₂ h₂) hs₁ hs₂
    refine ⟨hmethod, hkey, ?_⟩
    by_cases hcredit : c₁.method = .credit
    · exact hcredits c₁ h₁ c₂ h₂ hcredit (hmethod ▸ hcredit) hkey
    · exact hname hcredit
  constructor
  · intro c₁ h₁ c₂ h₂ s hs₁ hs₂
    exact (hinj c₁ h₁ c₂ h₂ s hs₁ hs₂).2.1
  · intro hrep
    obtain ⟨s, hslot, hseen⟩ := seen_of_replays hrep
    obtain ⟨pre, c', post, rfl, hslot', hok⟩ := (seen_run hseen).resolve_left (new_unseen opts)
    obtain ⟨hmethod, hkey, hname⟩ := hinj c' (by simp) c List.mem_cons_self s hslot' hslot
    exact ⟨pre, c', post, rfl, hok, hmethod, hname, hkey⟩

@[irreducible] def longKey : String := String.ofList (List.replicate 257 'a')

theorem longKey_size : longKey.utf8ByteSize = 257 := by decide +kernel

theorem longKey_ne_empty : longKey ≠ "" := by decide +kernel

theorem tagged_ne_empty (text : String) : "h:" ++ text ≠ "" := by
  intro h
  have hlist := congrArg String.toList h
  simp at hlist

theorem tagged_size (h : (hash longKey).utf8ByteSize = 64) :
    ("h:" ++ hash longKey).utf8ByteSize = 66 := by
  rw [String.utf8ByteSize_append, h]
  rfl

theorem boundKey_tagged (h : (hash longKey).utf8ByteSize = 64) :
    boundKey hash ("h:" ++ hash longKey) = boundKey hash longKey := by
  simp [boundKey, tagged_size h, longKey_size, maxRawKeyLen]

def boughtPage : InMemoryAdapter :=
  { rested 1 with
    balances := oneDollar.balances.insert "ref" ⟨0, "USD"⟩
    recorded := (∅ : Table String RecordedTx).insert (pageID 1) ⟨"ref", ⟨1, "USD"⟩⟩ }

def halfRefund (key : String) : Call := .refund (pageID 1) ⟨some (1 / 2), "USD"⟩ "late" key

def refundedPage (key : String) : List Call :=
  [.authorize onePage, .record (pageID 1) 1 "", halfRefund key]

variable (hash) in
theorem run_boughtPage :
    run hash (new oneDollar) [.authorize onePage, .record (pageID 1) 1 ""] = boughtPage := by
  have hauth := rested_authorize hash 0
  have hnew : new oneDollar = rested 0 := rfl
  simp only [run, List.foldl_cons, List.foldl_nil, hnew, hauth]
  simp [after, record, opAlreadyDone, Table.get?_insert, freeAuth, markOpDone, rested, new, charged,
    Table.erase_insert_empty, boughtPage]

variable (hash) in
theorem halfRefund_ok : boughtPage.succeeds hash (halfRefund longKey) = true := by
  have hvalid : boughtPage.validateRefund (pageID 1) ⟨some (1 / 2), "USD"⟩ =
      .ok (⟨"ref", ⟨1, "USD"⟩⟩, 1 / 2) := by
    simp [validateRefund, boughtPage, rested, new, Table.get?_insert]
    norm_num
  have hnew : boughtPage.opAlreadyDone hash (pageID 1) .refund longKey = false := by
    simp [opAlreadyDone, boughtPage, rested, new]
  simp only [succeeds, halfRefund, refund, hnew, hvalid, Bool.false_eq_true, if_false]
  rfl

theorem dedup_exact_long_key : ∃ pre c' post, refundedPage longKey = pre ++ c' :: post ∧
    (run id (new oneDollar) pre).succeeds id c' = true ∧
    c'.method = .refund ∧ c'.name = pageID 1 ∧ c'.key = longKey := by
  have hcases : ∀ c' ∈ halfRefund longKey :: refundedPage longKey,
      c'.key = "" ∨ c'.key = longKey := by decide +kernel
  have hkeys : KeysApart id
      {k | ∃ c' ∈ halfRefund longKey :: refundedPage longKey, c'.key = k} := by
    refine ⟨Function.injective_id.injOn, ?_⟩
    rintro k ⟨c₁, h₁, rfl⟩ k' - hshort -
    rcases hcases c₁ h₁ with hk | hk
    · rw [hk]
      exact (tagged_ne_empty _).symm
    · rw [hk, longKey_size] at hshort
      exact absurd hshort (by decide)
  exact (dedup_exact oneDollar hkeys (by decide +kernel) (by decide +kernel)).2 (by decide +kernel)

theorem refund_under_tagged_key (hsize : (hash longKey).utf8ByteSize = 64) :
    (∀ c' ∈ refundedPage longKey, c'.key ≠ "h:" ++ hash longKey) ∧
      (run hash (new oneDollar) (refundedPage longKey)).replays hash
        (halfRefund ("h:" ++ hash longKey)) = true ∧
      (run hash (new oneDollar) (refundedPage longKey)).succeeds hash
        (halfRefund ("h:" ++ hash longKey)) = true ∧
      (run hash (new oneDollar) (refundedPage longKey)).after hash
        (halfRefund ("h:" ++ hash longKey)) = run hash (new oneDollar) (refundedPage longKey) := by
  have hrun : run hash (new oneDollar) (refundedPage longKey) =
      boughtPage.after hash (halfRefund longKey) := by
    rw [← run_boughtPage hash]
    simp only [run, refundedPage, List.foldl_cons, List.foldl_nil]
  have hstep : Memory.Step hash boughtPage.memory (halfRefund longKey) true
      (boughtPage.after hash (halfRefund longKey)).memory := by
    rw [← halfRefund_ok hash]
    exact after_step _
  have hslot : slot hash (halfRefund longKey) =
      some (.op (opKey hash (pageID 1) .refund longKey)) := if_neg longKey_ne_empty
  have hseen : opKey hash (pageID 1) .refund longKey ∈
      (boughtPage.after hash (halfRefund longKey)).opSeen := hstep.marks hslot
  have hrep : (run hash (new oneDollar) (refundedPage longKey)).replays hash
      (halfRefund ("h:" ++ hash longKey)) = true := by
    rw [hrun]
    refine decide_eq_true ⟨tagged_ne_empty _, ?_⟩
    rw [opKey, boundKey_tagged hsize]
    exact hseen
  refine ⟨?_, hrep, replays_idle hrep⟩
  have hlong : longKey ≠ "h:" ++ hash longKey := by
    intro heq
    have hsizes := congrArg String.utf8ByteSize heq
    rw [longKey_size, tagged_size hsize] at hsizes
    cases hsizes
  intro c' hc'
  simp only [refundedPage, List.mem_cons, List.not_mem_nil, or_false] at hc'
  rcases hc' with rfl | rfl | rfl
  · exact (tagged_ne_empty _).symm
  · exact (tagged_ne_empty _).symm
  · exact hlong

def pagesHash (text : String) : String :=
  if text = longKey then "e8d95cc2b4bc198c54b40bd214df958afb65f5e73d2c2eafe0593cf5c635c1f0"
  else text

theorem pagesHash_size : (pagesHash longKey).utf8ByteSize = 64 := by
  decide +kernel

theorem refund_swallowed : (∀ c' ∈ refundedPage longKey, c'.key ≠ "h:" ++ pagesHash longKey) ∧
      (run pagesHash (new oneDollar) (refundedPage longKey)).replays pagesHash
        (halfRefund ("h:" ++ pagesHash longKey)) = true ∧
      (run pagesHash (new oneDollar) (refundedPage longKey)).succeeds pagesHash
        (halfRefund ("h:" ++ pagesHash longKey)) = true ∧
      (run pagesHash (new oneDollar) (refundedPage longKey)).after pagesHash
        (halfRefund ("h:" ++ pagesHash longKey)) =
          run pagesHash (new oneDollar) (refundedPage longKey) :=
  refund_under_tagged_key pagesHash_size

end InMemoryAdapter

end Ramp.Billing
