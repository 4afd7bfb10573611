import Ramp.Exchange.HoldSafety

/-! Executions of one item may share a live hold. What keeps the hold of the
committed row from being released by another execution, and what does not. -/

namespace Ramp.Exchange

open Ramp.Billing Prog

variable {Blob ι : Type}

def LostInsert (tr : Trace (Op Blob) Res ι) (i : ι) : Prop :=
  ∃ intent ob ev e applied, (i, ⟨.persist intent ob ev, .failed e applied⟩) ∈ tr ∧
    e.isIdempotencyViolation = true

def HandedTo (tr : Trace (Op Blob) Res ι) (i : ι) (id : String) : Prop :=
  ∃ req res, (i, ⟨.authorize req, .result res⟩) ∈ tr ∧ res.approved = true ∧ res.billingID = id

def SoloRelease (tr : Trace (Op Blob) Res ι) : Prop :=
  ∀ pre post j id k r, tr = pre ++ (j, ⟨.release id k, r⟩) :: post → ¬ LostInsert pre j →
    ∀ i, HandedTo pre i id → i = j

theorem SoloRelease.left {tr tr' : Trace (Op Blob) Res ι} (h : SoloRelease (tr ++ tr')) :
    SoloRelease tr := by
  intro pre post j id k r htr
  refine h pre (post ++ tr') j id k r ?_
  rw [htr, List.append_assoc]
  rfl

def Op.isRelease : Op Blob → Bool
  | .release _ _ => true
  | _ => false

theorem SoloRelease.of_no_release {tr : Trace (Op Blob) Res ι}
    (h : (tr.any fun e => e.2.op.isRelease) = false) : SoloRelease tr := by
  rintro pre post j id k r rfl
  simp [Op.isRelease] at h

variable {id : String} {row : TransactionRecord Blob}

variable {op : Op Blob}

namespace ItemTrail

variable {t : ItemTrail Blob} {r : Res op} {h : History (Op Blob) Res}
  {intent : PersistTxIntent Blob} {ob : Bool} {ev : EvidenceRecord}

theorem track_lostInsert (h : t.lostInsert = true) : (track op t r).lostInsert = true := by
  have htrack := track_tracked op t r
  generalize track op t r = u at htrack ⊢
  cases htrack with
  | lost => rfl
  | _ => exact h

theorem lostInsert_of_mem {e : PgError} {applied : Bool}
    (hm : ⟨.persist intent ob ev, .failed e applied⟩ ∈ h) (hv : e.isIdempotencyViolation = true) :
    (History.summary track {} h).lostInsert = true := by
  induction h using List.reverseRecOn with
  | nil => exact absurd hm (by simp)
  | append_singleton h e' ih =>
    rw [History.summary_snoc]
    rcases List.mem_append.mp hm with hm | hm
    · exact track_lostInsert (ih hm)
    · rw [← List.mem_singleton.mp hm]
      simp only [track, hv, if_true]

theorem track_written_persist {r : PersistReply Blob} :
    (track (.persist intent ob ev) t r).written =
      if r.wrote then some intent.record else t.written := by
  rcases r with row | ⟨e, applied⟩
  · rfl
  · simp only [track, PersistReply.wrote]
    by_cases hv : e.isIdempotencyViolation = true
    · simp [hv]
    · by_cases ha : applied = true <;> simp [hv, ha]

theorem track_written (hop : ∀ intent ob ev, op ≠ .persist intent ob ev) :
    (track op t r).written = t.written := by
  have htrack := track_tracked op t r
  generalize track op t r = u at htrack ⊢
  cases htrack with
  | committed | applied => exact absurd rfl (hop _ _ _)
  | _ => rfl

theorem handed_authorized (hid : (History.summary track {} h).handed = some id) :
    ∃ req res, ⟨.authorize req, .result res⟩ ∈ h ∧ res.approved = true ∧ res.billingID = id := by
  obtain ⟨pre, ⟨op, r⟩, hm, hn, hy⟩ := History.exists_turn
    (P := fun t : ItemTrail Blob => t.handed = some id)
    (by simp) hid
  have htrack := track_tracked op (History.summary track {} pre) r
  generalize track op (History.summary track {} pre) r = u at htrack hy
  cases htrack with
  | handed happroved => exact ⟨_, _, hm, happroved, Option.some.inj hy⟩
  | _ => exact absurd hy hn

theorem written_persisted (hw : (History.summary track {} h).written = some row) :
    ∃ intent ob ev r, ⟨.persist intent ob ev, r⟩ ∈ h ∧ PersistReply.wrote r = true ∧
      intent.record = row := by
  obtain ⟨pre, ⟨op, r⟩, hm, hn, hy⟩ := History.exists_turn
    (P := fun t : ItemTrail Blob => t.written = some row)
    (by simp) hw
  have htrack := track_tracked op (History.summary track {} pre) r
  generalize track op (History.summary track {} pre) r = u at htrack hy
  cases htrack with
  | committed => exact ⟨_, _, _, _, hm, rfl, Option.some.inj hy⟩
  | applied hviolation =>
    exact ⟨_, _, _, _, hm, by simp [PersistReply.wrote, hviolation], Option.some.inj hy⟩
  | _ => exact absurd hy hn

end ItemTrail

structure TrailInv (key : String) (s : Store Blob) (u : ItemTrail Blob) : Prop where
  named : ∀ id, u.handed = some id → id ≠ ""
  live : ∀ id, u.handed = some id → u.Unsettled → s.rows key = none ∨ u.row ≠ none →
    s.holds.Live id
  seen : ∀ row, u.seen = some row → s.rows key = some row

theorem TrailInv.mono {key : String} {s t : Store Blob} {u : ItemTrail Blob}
    (h : TrailInv key s u) (hrows : ∀ row, s.rows key = some row → t.rows key = some row)
    (hlive : ∀ id, u.handed = some id → u.Unsettled → t.rows key = none ∨ u.row ≠ none →
      s.holds.Live id → t.holds.Live id) : TrailInv key t u := by
  refine ⟨h.named, fun id hid hopen hrow => ?_, fun row hrow => hrows row (h.seen row hrow)⟩
  refine hlive id hid hopen hrow (h.live id hid hopen (hrow.imp_left fun hnone => ?_))
  cases hs : s.rows key with
  | none => rfl
  | some row =>
    rw [hrows row hs] at hnone
    exact absurd hnone (by simp)

variable {j : ι}

section

variable [DecidableEq ι]

structure HoldInv (key : String) (tr : Trace (Op Blob) Res ι) (s : Store Blob) : Prop where
  valid : s.holds.Valid
  rows : RowInv key (trail tr) s
  each : ∀ i, TrailInv key s (trail tr i)
  writer : ∀ row, s.rows key = some row → ∃ i, (trail tr i).written = some row
  released : ∀ j id k r, (j, ⟨.release id k, r⟩) ∈ tr → SettleReply.took r = true →
    id ∈ s.holds.released
  apart : ∀ j id k r i row, (j, ⟨.release id k, r⟩) ∈ tr → SettleReply.took r = true →
    (trail tr i).written = some row → row.billingID = id → i = j

variable {key : String} {tr : Trace (Op Blob) Res ι} {s : Store Blob} {i : ι}

theorem HoldInv.release_apart {k : String} (h : HoldInv key tr s)
    (hg : ItemTrail.Guard key (trail tr i) (.release id k))
    (hsolo : (trail tr i).lostInsert = false → ∀ j, (trail tr j).handed = some id → j = i)
    (hw : (trail tr j).written = some row) (hbill : row.billingID = id) : j = i := by
  obtain ⟨-, hid, -, -, hseen⟩ := hg
  have hne := (h.each i).named id hid
  have hhanded : (trail tr j).handed = some id := by
    have hb := h.rows.billing j row hw
    rw [hbill] at hb
    cases hj : (trail tr j).handed with
    | none => exact absurd (by rw [hb, hj]; rfl) hne
    | some id' =>
      rw [hb, hj]
      rfl
  cases hlost : (trail tr i).lostInsert with
  | false => exact hsolo hlost j hhanded
  | true =>
    obtain ⟨row', hrd, hne'⟩ := hseen hlost
    have hstored := (h.each i).seen row' hrd
    obtain rfl := Option.some.inj (hstored.symm.trans (h.rows.stored j row hw))
    exact absurd hbill hne'

theorem HoldInv.write_apart {intent : PersistTxIntent Blob} {ob : Bool} {ev : EvidenceRecord}
    (h : HoldInv key tr s) (hg : ItemTrail.Guard key (trail tr i) (.persist intent ob ev))
    (hfree : s.rows key = none) (hrel : intent.billingID ∈ s.holds.released) : False := by
  obtain ⟨-, hbill, -, -, hopen⟩ := hg
  have hres : s.holds.Resolved intent.billingID := Or.inr (.inl hrel)
  cases hi : (trail tr i).handed with
  | none =>
    rw [hi] at hbill
    obtain ⟨hold, hm, hid⟩ := h.valid.resolved_issued _ hres
    exact h.valid.issued_ne hold hm (hid.trans hbill)
  | some id =>
    rw [hi] at hbill
    have hl := (h.each i).live id hi hopen (.inl hfree)
    rw [hbill] at hres
    exact hl.2 hres

variable [DecidableEq Blob]

variable {t : Store Blob} {r : Res op}

section

variable (h : HoldInv key tr s)
include h

theorem HoldInv.other (hji : j ≠ i) (hg : ItemTrail.Guard key (trail tr i) op)
    (hs : Store.step op s r = some t)
    (hsolo : ∀ id k, op = .release id k → (trail tr i).lostInsert = false →
      (trail tr j).handed ≠ some id) : TrailInv key t (trail tr j) := by
  refine (h.each j).mono (fun row => Store.step_rows_keep hs) fun id hid _ hrow hl => ?_
  have hholds := Store.step_holds hs
  cases op
  case authorize =>
    obtain ⟨holds, hb, rfl⟩ := Store.withHolds_some hs
    exact HoldBook.authorize_keeps_live hb hl
  case record id' q k =>
    obtain ⟨-, -, -, row, hirow, -⟩ := hg
    have hw := h.rows.known i row hirow
    have hkeep := Store.step_rows_keep hs (h.rows.stored i row hw)
    rcases hrow with hnone | hjrow
    · rw [hkeep] at hnone
      exact absurd hnone (by simp)
    · obtain ⟨row', hjrow⟩ := Option.ne_none_iff_exists'.mp hjrow
      exact absurd (h.rows.unique j i (by simp [h.rows.known j row' hjrow]) (by simp [hw])) hji
  case release id' k =>
    obtain ⟨holds, hb, rfl⟩ := Store.withHolds_some hs
    refine HoldBook.settle_keeps_live hb ?_ hl
    rintro rfl
    obtain ⟨-, -, -, -, hseen⟩ := hg
    cases hlost : (trail tr i).lostInsert with
    | false => exact hsolo id k rfl hlost hid
    | true =>
      obtain ⟨row, hrd, hne⟩ := hseen hlost
      have hstored := (h.each i).seen row hrd
      rcases hrow with hnone | hjrow
      · exact absurd (hstored.symm.trans hnone) (by simp)
      · obtain ⟨row', hjrow⟩ := Option.ne_none_iff_exists'.mp hjrow
        have hw := h.rows.known j row' hjrow
        obtain rfl := Option.some.inj (hstored.symm.trans (h.rows.stored j row' hw))
        have hbill := h.rows.billing j row hw
        rw [hid] at hbill
        exact hne hbill
  all_goals
    rw [hholds (by simp) (by simp) (by simp)]
    exact hl

variable (hg : ItemTrail.Guard key (trail tr i) op) (hs : Store.step op s r = some t)
include hg hs

theorem HoldInv.own : TrailInv key t (ItemTrail.track op (trail tr i) r) := by
  have hi := h.each i
  have hkeep : ∀ row, s.rows key = some row → t.rows key = some row :=
    fun row => Store.step_rows_keep hs
  have hholds := Store.step_holds hs
  have hsame : t.holds = s.holds → TrailInv key t (trail tr i) := fun he =>
    hi.mono hkeep fun id _ _ _ hl => by rw [he]; exact hl
  cases op
  case authorize req =>
    obtain ⟨holds, hb, rfl⟩ := Store.withHolds_some hs
    have hbase : TrailInv key { s with holds } (trail tr i) :=
      hi.mono hkeep fun id _ _ _ hl => HoldBook.authorize_keeps_live hb hl
    rcases r with res | ⟨e, applied⟩
    · simp only [ItemTrail.track]
      split_ifs with ha
      · simp only [HoldBook.authorize, ha, if_true] at hb
        obtain ⟨hl, hm⟩ := HoldBook.hand_live h.valid hb
        refine ⟨fun id hid => ?_, fun id hid _ _ => ?_, hbase.seen⟩
        · cases hid
          exact (HoldBook.hand_valid h.valid hb).issued_ne _ hm
        · cases hid
          exact hl
      · exact hbase
    · exact hbase
  case persist intent ob ev =>
    have hbase := hsame (hholds (by simp) (by simp) (by simp))
    obtain ⟨hkey, -, hnone, -, hopen⟩ := hg
    rcases r with row | ⟨e, applied⟩
    · refine ⟨hbase.named, fun id hid _ _ => ?_, hbase.seen⟩
      have hfree := (Store.persist_committed hs).1
      rw [hkey] at hfree
      rw [hholds (by simp) (by simp) (by simp)]
      exact hi.live id hid hopen (.inl hfree)
    · simp only [ItemTrail.track]
      split_ifs <;> exact ⟨hbase.named, hbase.live, hbase.seen⟩
  case byIdempotencyKey k =>
    have hbase := hsame (hholds (by simp) (by simp) (by simp))
    rcases r with row | _ | e
    · refine ⟨hbase.named, hbase.live, fun row' hrow => ?_⟩
      cases hrow
      refine hkeep row ?_
      change s.byIdempotencyKey k (.found row) = some t at hs
      rw [← hg.1]
      exact (Store.byIdempotencyKey_cases hs).2.1 row rfl
    · exact hbase
    · exact hbase
  case record id q k =>
    refine ⟨hi.named, fun id' _ hopen => ?_, fun row hrow => hkeep row (hi.seen row hrow)⟩
    exact absurd hopen.1 (by simp [ItemTrail.track])
  case release id k =>
    refine ⟨hi.named, fun id' _ hopen => ?_, fun row hrow => hkeep row (hi.seen row hrow)⟩
    exact absurd hopen.2 (by simp [ItemTrail.track])
  all_goals exact hsame (hholds (by simp) (by simp) (by simp))

theorem HoldInv.written :
    ((∀ j, (trail (tr ++ [(i, ⟨op, r⟩)]) j).written = (trail tr j).written) ∧
      t.rows key = s.rows key) ∨ ∃ intent ob ev, op = .persist intent ob ev ∧ s.rows key = none ∧
      t.rows key = some intent.record ∧ ∀ j, (trail (tr ++ [(i, ⟨op, r⟩)]) j).written =
        if j = i then some intent.record else (trail tr j).written := by
  rw [trail_snoc]
  have hupd : ∀ j, (Function.update (trail tr) i (ItemTrail.track op (trail tr i) r) j).written =
      if j = i then (ItemTrail.track op (trail tr i) r).written else (trail tr j).written := by
    intro j
    by_cases hj : j = i
    · subst hj
      simp
    · simp [hj]
  by_cases hop : ∃ intent ob ev, op = .persist intent ob ev
  · obtain ⟨intent, ob, ev, rfl⟩ := hop
    have hkey : intent.idempotencyKey = key := hg.1
    rcases Store.persist_cases hs with ⟨hw, hfree, rfl⟩ | ⟨hw, rfl⟩
    · refine .inr ⟨intent, ob, ev, rfl, by rwa [← hkey], ?_, fun j => ?_⟩
      · rw [← hkey]
        exact Store.insertRow_rows_self s intent.record
      · rw [hupd, ItemTrail.track_written_persist, if_pos hw]
    · refine .inl ⟨fun j => ?_, rfl⟩
      rw [hupd, ItemTrail.track_written_persist, hw]
      by_cases hj : j = i
      · subst hj
        simp
      · simp [hj]
  · push Not at hop
    refine .inl ⟨fun j => ?_, by rw [Store.step_rows hs hop]⟩
    rw [hupd, ItemTrail.track_written hop]
    by_cases hj : j = i
    · subst hj
      simp
    · simp [hj]

theorem HoldInv.call (hsolo : ∀ id k, op = .release id k → (trail tr i).lostInsert = false →
      ∀ j, (trail tr j).handed = some id → j = i) : HoldInv key (tr ++ [(i, ⟨op, r⟩)]) t := by
  have hwritten := h.written hg hs
  refine ⟨Store.step_valid hs h.valid, ?_, fun j => ?_, fun row hrow => ?_,
    fun j id k r' hm ht => ?_, fun j id k r' l row hm ht hw hbill => ?_⟩
  · rw [trail_snoc]
    exact h.rows.step hg hs
  · rw [trail_snoc]
    by_cases hj : j = i
    · subst hj
      rw [Function.update_self]
      exact h.own hg hs
    · rw [Function.update_of_ne hj]
      exact h.other hj hg hs fun id k hop hlost hid => hj (hsolo id k hop hlost j hid)
  · rcases hwritten with ⟨hsame, hrows⟩ | ⟨intent, ob, ev, rfl, -, hrows, hnew⟩
    · rw [hrows] at hrow
      obtain ⟨j, hj⟩ := h.writer row hrow
      exact ⟨j, by rw [hsame, hj]⟩
    · rw [hrows] at hrow
      exact ⟨i, by rw [hnew, if_pos rfl, hrow]⟩
  · rcases List.mem_append.mp hm with hm | hm
    · exact Store.step_released hs (h.released j id k r' hm ht)
    · obtain ⟨rfl, he⟩ := Prod.mk.inj (List.mem_singleton.mp hm)
      cases he
      obtain ⟨holds, hb, rfl⟩ := Store.withHolds_some hs
      exact HoldBook.release_took h.valid hb ht
  · rcases List.mem_append.mp hm with hold | hm
    · rcases hwritten with ⟨hsame, -⟩ | ⟨intent, ob, ev, rfl, hfree, -, hnew⟩
      · rw [hsame] at hw
        exact h.apart j id k r' l row hold ht hw hbill
      · rw [hnew] at hw
        split_ifs at hw with hl
        · cases hw
          have hrel := h.released j id k r' hold ht
          rw [← hbill] at hrel
          exact (h.write_apart hg hfree hrel).elim
        · exact h.apart j id k r' l row hold ht hw hbill
    · obtain ⟨rfl, he⟩ := Prod.mk.inj (List.mem_singleton.mp hm)
      cases he
      rcases hwritten with ⟨hsame, -⟩ | ⟨intent, ob, ev, hop, -⟩
      · rw [hsame] at hw
        exact h.release_apart hg (hsolo id k rfl) hw hbill
      · exact absurd hop (by simp)

end

theorem itemPool_holdInv (s : Service Blob) {input : ι → BatchItemBilling}
    (hkey : ∀ i, (input i).derivedKey = key) {store : Store Blob} (hvalid : store.holds.Valid)
    (hrow : store.rows key = none) {c : ItemPool Blob ι}
    (hr : Run Store.step (fun _ _ => False) (itemPool s input store) tr c) :
    SoloRelease tr → HoldInv key tr c.shared := by
  refine Run.invariant (fun tr st => SoloRelease tr → HoldInv key tr st)
    (itemPool_conduct s input store) hr ?_ ?_ fun _ _ _ _ hf => hf.elim
  · intro _
    have hnone : ∀ row, (itemPool s input store).shared.rows key ≠ some row := by
      intro row
      change store.rows key ≠ some row
      simp [hrow]
    refine ⟨hvalid, ⟨?_, ?_, ?_, ?_, ?_⟩, fun i => ⟨?_, ?_, ?_⟩, fun row h => absurd h (hnone row),
      ?_, ?_⟩ <;> simp [trail, History.summary]
  · intro tr s i op r t h hg hs hsolo
    rw [hkey i] at hg
    refine (h hsolo.left).call hg hs ?_
    rintro id k rfl hlost j hj
    refine hsolo tr [] i id k r rfl ?_ j ?_
    · rintro ⟨intent, ob, ev, e, applied, hm, hv⟩
      have hl := ItemTrail.lostInsert_of_mem (Trace.mem_own.mpr hm) hv
      rw [trail, hl] at hlost
      exact absurd hlost (by simp)
    · obtain ⟨req, res, hm, hres⟩ := ItemTrail.handed_authorized hj
      exact ⟨req, res, Trace.mem_own.mp hm, hres⟩

/-- As long as no execution releases a hold that another was handed, except after
losing the insert, the hold named by the committed row is released by no other
execution and is live when its own execution records. -/
theorem committed_hold_live_of_solo_release (s : Service Blob) {input : ι → BatchItemBilling}
    {key : String} (hkey : ∀ i, (input i).derivedKey = key) {store : Store Blob}
    (hvalid : store.holds.Valid) (hrow : store.rows key = none) {tr : Trace (Op Blob) Res ι}
    {c : ItemPool Blob ι} (hr : Run Store.step (fun _ _ => False) (itemPool s input store) tr c)
    (hsolo : SoloRelease tr) :
    (∀ j id k r row, (j, ⟨.release id k, r⟩) ∈ tr → SettleReply.took r = true →
      c.shared.rows key = some row → row.billingID = id →
      ∃ intent ob ev r', (j, ⟨.persist intent ob ev, r'⟩) ∈ tr ∧ PersistReply.wrote r' = true ∧
        intent.record = row) ∧
    ∀ i id q k next, c.threads i = .call (.record id q k) next → c.shared.holds.Live id := by
  have hinv := itemPool_holdInv s hkey hvalid hrow hr hsolo
  refine ⟨fun j id k r row hm ht hst hbill => ?_, fun i id q k next hnext => ?_⟩
  · obtain ⟨i, hi⟩ := hinv.writer row hst
    obtain rfl := hinv.apart j id k r i row hm ht hi hbill
    obtain ⟨intent, ob, ev, r', hm', hw, hrec⟩ := ItemTrail.written_persisted hi
    exact ⟨intent, ob, ev, r', Trace.mem_own.mp hm', hw, hrec⟩
  · have hg := hr.spec (itemPool_conduct s input store) i
    rw [hnext] at hg
    obtain ⟨-, hid, hopen, row, hirow, -⟩ := hg.1
    exact (hinv.each i).live id hid hopen (Or.inr (by simp [trail, hirow]))

end

/-- Both executions are handed the hold `h`. The first commits its row, the second
fails to sign and releases `h`, and the first is about to record a dead hold. -/
theorem shared_hold_released_before_record : ∃ tr c,
    Run Store.step (fun _ _ => False) (itemPool plainService (fun _ : Bool => paidInput) {}) tr c ∧
    (c.shared.rows "key:offer").map TransactionRecord.billingID = some "h" ∧
    (true, ⟨.release "h" "key:offer", .ok⟩) ∈ tr ∧
    (c.threads false).next? = some (.record "h" 1 "key:offer") ∧ ¬ c.shared.holds.Live "h" :=
  Pool.exists_run (turns 2 false ++ turns 2 true ++ turns 7 false ++
    [⟨true, signerDown⟩] ++ turns 1 true) (by decide +kernel)

/-- Both executions are past `Authorize`, and the first is about to record. -/
theorem committed_hold_live_two_executions : ∃ tr c,
    Run Store.step (fun _ _ => False) (itemPool plainService (fun _ : Bool => paidInput) {}) tr c ∧
    SoloRelease tr ∧ (c.threads true).next? = some (.urlSignerFor paidInput.tenant.keys) ∧
    (c.threads false).next? = some (.record "h" 1 "key:offer") ∧ c.shared.holds.Live "h" := by
  have hrun : ∃ tr c,
      Run Store.step (fun _ _ => False)
        (itemPool plainService (fun _ : Bool => paidInput) {}) tr c ∧
      (tr.any fun e => e.2.op.isRelease) = false ∧
      (c.threads true).next? = some (.urlSignerFor paidInput.tenant.keys) ∧
      (c.threads false).next? = some (.record "h" 1 "key:offer") :=
    Pool.exists_run (turns 2 false ++ turns 2 true ++ turns 7 false) (by decide +kernel)
  obtain ⟨tr, c, hr, hrel, hother, hnext⟩ := hrun
  have hsolo := SoloRelease.of_no_release hrel
  obtain ⟨next, hhead⟩ := Prog.next?_eq_some.mp hnext
  exact ⟨tr, c, hr, hsolo, hother, hnext, (committed_hold_live_of_solo_release plainService
    (fun _ => rfl) HoldBook.valid_empty rfl hr hsolo).2 false "h" 1 "key:offer" next hhead⟩

end Ramp.Exchange
