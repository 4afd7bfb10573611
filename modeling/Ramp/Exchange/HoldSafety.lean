import Ramp.Exchange.Answers
import Ramp.Exchange.Batch

/-! What one execution of an item may do, call by call, and any number of executions of one item
over the shared store. A trail summarises the calls that matter for the hold; the unique row
decides which execution may record. -/

namespace Ramp.Exchange

open Function (update update_of_ne update_self)

open Ramp.Billing Prog

section

variable {Blob : Type}

structure ItemTrail (Blob : Type) where
  handed : Option String := none
  lostInsert : Bool := false
  row : Option (TransactionRecord Blob) := none
  written : Option (TransactionRecord Blob) := none
  seen : Option (TransactionRecord Blob) := none
  recorded : Bool := false
  released : Bool := false

namespace ItemTrail

def track : (op : Op Blob) → ItemTrail Blob → Res op → ItemTrail Blob
  | .authorize _, t, .result r => if r.approved then { t with handed := some r.billingID } else t
  | .persist intent _ _, t, .committed _ =>
    { t with row := some intent.record, written := some intent.record }
  | .persist intent _ _, t, .failed e applied =>
    if e.isIdempotencyViolation then { t with lostInsert := true }
    else if applied then { t with written := some intent.record }
    else t
  | .byIdempotencyKey _, t, .found row => { t with seen := some row }
  | .record _ _ _, t, _ => { t with recorded := true }
  | .release _ _, t, _ => { t with released := true }
  | _, t, _ => t

def Unsettled (t : ItemTrail Blob) : Prop := t.recorded = false ∧ t.released = false

/-- The conduct of an execution of the item with derived key `key`. -/
def Guard (key : String) (t : ItemTrail Blob) : Op Blob → Prop
  | .authorize req => req.idempotencyKey = key ∧ t = {}
  | .persist intent _ _ =>
    intent.idempotencyKey = key ∧ intent.billingID = t.handed.getD "" ∧ t.row = none ∧
      t.lostInsert = false ∧ t.Unsettled
  | .byIdempotencyKey k => k = key ∧ t.lostInsert = true
  | .record id _ k =>
    k = key ∧ t.handed = some id ∧ t.Unsettled ∧
      ∃ row, t.row = some row ∧ row.idempotencyKey = key ∧ row.billingID = id
  | .release id k =>
    k = key ∧ t.handed = some id ∧ t.row = none ∧ t.Unsettled ∧
      (t.lostInsert = true → ∃ row, t.seen = some row ∧ row.billingID ≠ id)
  | _ => True

inductive Tracked (t : ItemTrail Blob) : (op : Op Blob) → Res op → ItemTrail Blob → Prop
  | handed {req : AuthorizeRequest} {res : AuthorizeResult} (h : res.approved = true) :
    Tracked t (.authorize req) (.result res) { t with handed := some res.billingID }
  | committed {intent : PersistTxIntent Blob} {ob : Bool} {ev : EvidenceRecord}
    {row : TransactionRecord Blob} : Tracked t (.persist intent ob ev) (.committed row)
      { t with row := some intent.record, written := some intent.record }
  | lost {intent : PersistTxIntent Blob} {ob : Bool} {ev : EvidenceRecord} {e : PgError}
    {applied : Bool} (h : e.isIdempotencyViolation = true) :
    Tracked t (.persist intent ob ev) (.failed e applied) { t with lostInsert := true }
  | applied {intent : PersistTxIntent Blob} {ob : Bool} {ev : EvidenceRecord} {e : PgError}
    (h : e.isIdempotencyViolation = false) :
    Tracked t (.persist intent ob ev) (.failed e true) { t with written := some intent.record }
  | seen {key : String} {row : TransactionRecord Blob} :
    Tracked t (.byIdempotencyKey key) (.found row) { t with seen := some row }
  | recorded {id key : String} {quantity : Int} {r : SettleReply} :
    Tracked t (.record id quantity key) r { t with recorded := true }
  | released {id key : String} {r : SettleReply} :
    Tracked t (.release id key) r { t with released := true }
  | same {op : Op Blob} {r : Res op} : Tracked t op r t

theorem track_tracked (op : Op Blob) (t : ItemTrail Blob) (r : Res op) :
    Tracked t op r (track op t r) := by
  cases op
  case authorize =>
    rcases r with res | ⟨e, applied⟩
    · simp only [track]
      split_ifs with happroved
      · exact .handed happroved
      · exact .same
    · exact .same
  case persist =>
    rcases r with row | ⟨e, applied⟩
    · exact .committed
    · simp only [track]
      split_ifs with hviolation happlied
      · exact .lost hviolation
      · subst happlied
        exact .applied (Bool.eq_false_iff.mpr hviolation)
      · exact .same
  case byIdempotencyKey =>
    rcases r with row | _ | e
    · exact .seen
    · exact .same
    · exact .same
  case record => exact .recorded
  case release => exact .released
  all_goals exact .same

end ItemTrail

theorem ItemTrail.ignoresQuiet (key : String) :
    IgnoresQuiet (@ItemTrail.track Blob) (ItemTrail.Guard key) where
  ignores op l r h := by cases op <;> first | rfl | exact h.elim
  allows l op h := by cases op <;> trivial

namespace Service

variable (s : Service Blob)

abbrev ItemSpec {α : Type} (key : String) (Q : ItemTrail Blob → Except Error α → Prop)
    (x : Svc Blob α) (t : ItemTrail Blob) : Prop :=
  Spec (tracked ItemTrail.track) (ItemTrail.Guard key) Q x.run t

variable {key id : String} {t : ItemTrail Blob} {free : Bool} {e : Error}

theorem releaseHold_spec (h : ItemTrail.Guard key t (.release id key)) :
    ItemSpec key (fun _ _ => True) (releaseHold id key) t := by
  unfold releaseHold
  split
  · exact trivial
  · exact .tell h fun r => trivial

theorem releaseDuplicateLossHold_spec (hid : hasNoReservation id = false → t.handed = some id)
    (hlost : t.lostInsert = true) (hrow : t.row = none) (hopen : t.Unsettled) :
    ItemSpec key (fun _ _ => True) (releaseDuplicateLossHold id key) t := by
  unfold releaseDuplicateLossHold
  split
  · exact trivial
  next hres =>
    refine .tell ⟨rfl, hlost⟩ fun r => ?_
    rcases r with row | _ | e
    · by_cases hne : row.billingID = id
      · simp only [hne, if_true]
        exact trivial
      · simp only [hne, if_false]
        refine releaseHold_spec ⟨rfl, hid (by simpa using hres), hrow, hopen, fun _ => ?_⟩
        exact ⟨row, rfl, hne⟩
    · exact trivial
    · exact trivial

structure ReadyToCommit (t : ItemTrail Blob) (billingID : String) : Prop where
  handed : t.handed.getD "" = billingID
  row : t.row = none
  lostInsert : t.lostInsert = false
  unsettled : t.Unsettled

theorem ReadyToCommit.handed_eq (h : ReadyToCommit t id) (hid : hasNoReservation id = false) :
    t.handed = some id := by
  have hh := h.handed
  cases hc : t.handed with
  | none =>
    rw [hc] at hh
    subst hh
    simp [hasNoReservation] at hid
  | some id' =>
    rw [hc] at hh
    exact congrArg some hh

theorem persistTransaction_spec {p : PersistInput Blob} (h : ReadyToCommit t p.auth.billingID) :
    ItemSpec p.input.derivedKey (fun t' r => match r with
      | .ok _ => ∃ row, t' = { t with row := some row, written := some row } ∧
          row.idempotencyKey = p.input.derivedKey ∧ row.billingID = p.auth.billingID
      | .error e => ∃ w, t' = { t with lostInsert := isIdempotentReplay e, written := w })
      (s.persistTransaction p) t := by
  have hsame : t = { t with lostInsert := false, written := t.written } := by
    rw [← h.lostInsert]
  refine .seq (s.buildPersistIntent_spec (ItemTrail.ignoresQuiet _) p t) ?_ ?_
  · rintro t' e ⟨rfl, he⟩
    exact ⟨t'.written, by simpa [isIdempotentReplay, he] using hsame⟩
  · rintro t' ⟨intent, evidence⟩ ⟨rfl, hi⟩
    refine .tell ?_ fun r => ?_
    · exact ⟨hi.idempotencyKey, by rw [hi.billingID, h.handed], h.row, h.lostInsert, h.unsettled⟩
    · rcases r with row | ⟨e, applied⟩
      · exact ⟨intent.record, rfl, hi.idempotencyKey, hi.billingID⟩
      · refine .throw ?_
        simp only [ItemTrail.track, isIdempotentReplay_classifyTxWriteError]
        cases e.isIdempotencyViolation with
        | true => exact ⟨t'.written, rfl⟩
        | false =>
          cases applied with
          | true => exact ⟨some intent.record, by simp [h.lostInsert]⟩
          | false => exact ⟨t'.written, by simpa using hsame⟩

def Settled (free : Bool) (t : ItemTrail Blob) (r : Except Error TransactionResultItem) : Prop :=
  (∃ result, r = .ok result) → free = true ∨ t.recorded = true

theorem Settled.error : Settled free t (.error e) := by
  rintro ⟨result, h⟩
  exact absurd h (by simp)

theorem releaseHold_ready_spec (h : ReadyToCommit t id) :
    ItemSpec key (fun _ _ => True) (releaseHold id key) t := by
  cases hres : hasNoReservation id with
  | true =>
    unfold releaseHold
    rw [if_pos hres]
    exact trivial
  | false =>
    refine releaseHold_spec ⟨rfl, h.handed_eq hres, h.row, h.unsettled, fun hl => ?_⟩
    rw [h.lostInsert] at hl
    exact absurd hl (by simp)

theorem abandonHold_spec {w : Option (TransactionRecord Blob)} (h : ReadyToCommit t id) :
    ItemSpec key (fun _ _ => True) (abandonHold e id key)
      { t with lostInsert := isIdempotentReplay e, written := w } := by
  unfold abandonHold
  cases hd : isIdempotentReplay e with
  | true => exact releaseDuplicateLossHold_spec h.handed_eq rfl h.row h.unsettled
  | false =>
    have h' : ReadyToCommit { t with lostInsert := false, written := w } id :=
      ⟨h.handed, h.row, rfl, h.unsettled⟩
    exact releaseHold_ready_spec h'

theorem commitItem_spec (p : PersistInput Blob) {result : TransactionResultItem}
    (h : ReadyToCommit t p.auth.billingID)
    (hpaid : free = false → t.handed = some p.auth.billingID) :
    ItemSpec p.input.derivedKey (Settled free) (s.commitItem p free result) t := by
  refine .attempt (s.persistTransaction_spec h) ?_
  rintro t' (e | committed) hr
  · obtain ⟨w, rfl⟩ := hr
    exact .seq (abandonHold_spec h) (fun _ _ _ => Settled.error)
      fun _ _ _ => .throw Settled.error
  · obtain ⟨row, rfl, hkey, hbill⟩ := hr
    cases free with
    | true => exact .pure fun _ => .inl rfl
    | false =>
      refine .tell ⟨rfl, hpaid rfl, h.unsettled, row, rfl, hkey, hbill⟩ fun r => ?_
      exact .pure fun _ => .inr rfl

theorem deliverItem_spec {input : BatchItemBilling} {auth : AuthorizeResult}
    (h : ReadyToCommit t auth.billingID) (hpaid : free = false → t.handed = some auth.billingID) :
    ItemSpec input.derivedKey (Settled free) (s.deliverItem input free auth) t := by
  have hq := @ItemTrail.ignoresQuiet Blob input.derivedKey
  refine .attempt (hq.only (s.mintSignedURL_quiet _ _ _) t) ?_
  rintro t' (e | signed) rfl
  · exact .seq (releaseHold_ready_spec h) (fun _ _ _ => Settled.error)
      fun _ _ _ => .throw Settled.error
  · refine hq.tell (by trivial) fun transactionID => ?_
    simp only
    split
    · exact .seq (releaseHold_ready_spec h) (fun _ _ _ => Settled.error)
        fun _ _ _ => .throw Settled.error
    next payload _ =>
      exact s.commitItem_spec
        { input, plan := _, auth, signed, transactionID, resultPayload := payload } h hpaid

theorem resolveBilling_spec (r : BillingResolution) :
    ItemSpec r.idempotencyKey (fun t' x => ∀ auth, x = .ok auth →
      t' = { handed := some auth.billingID }) (s.resolveBilling r) {} := by
  have hq := @ItemTrail.ignoresQuiet Blob r.idempotencyKey
  unfold resolveBilling
  split
  · exact .throw fun auth h => absurd h (by simp)
  · refine .seq (hq.only (checkAccountActive_quiet _) {}) ?_ ?_
    · exact fun _ _ _ auth h => absurd h (by simp)
    · rintro t' _ rfl
      unfold authorizeBilling
      simp only
      split
      · exact .throw fun auth h => absurd h (by simp)
      · refine .tell ⟨rfl, rfl⟩ fun reply => ?_
        rcases reply with res | ⟨e, applied⟩
        · cases ha : res.approved with
          | true =>
            simp only [ha, if_true]
            refine .pure fun auth h => ?_
            cases h
            simp [ItemTrail.track, ha]
          | false =>
            simp only [ha]
            exact .throw fun auth h => absurd h (by simp)
        · exact .throw fun auth h => absurd h (by simp)

theorem runBatchItemBilling_spec (input : BatchItemBilling) :
    ItemSpec input.derivedKey (Settled input.resolved.pricing.isFree)
      (s.runBatchItemBilling input) {} := by
  unfold runBatchItemBilling
  cases hfree : input.resolved.pricing.isFree with
  | true =>
    exact s.deliverItem_spec ⟨rfl, rfl, rfl, rfl, rfl⟩ (by simp)
  | false =>
    refine .seq (s.resolveBilling_spec ⟨_, _, _, input.derivedKey, _, _⟩)
      (fun _ _ _ => Settled.error) fun t' auth h => ?_
    obtain rfl := h auth rfl
    exact s.deliverItem_spec ⟨rfl, rfl, rfl, rfl, rfl⟩ fun _ => rfl

end Service

end

variable {Blob ι : Type}

abbrev ItemPool (Blob ι : Type) :=
  Pool (Op Blob) Res (Store Blob) ι (Except Error TransactionResultItem)

def itemPool (s : Service Blob) (input : ι → BatchItemBilling) (store : Store Blob) :
    ItemPool Blob ι where
  shared := store
  threads i := (s.runBatchItemBilling (input i)).run

theorem itemPool_conduct (s : Service Blob) (input : ι → BatchItemBilling) (store : Store Blob)
    (i : ι) : Spec recordCall
      (fun h => ItemTrail.Guard (input i).derivedKey (History.summary ItemTrail.track {} h))
      (fun h => Service.Settled (input i).resolved.pricing.isFree
        (History.summary ItemTrail.track {} h)) ((itemPool s input store).threads i) [] :=
  Spec.history (s.runBatchItemBilling_spec (input i))

def Op.isRecord : Op Blob → Bool
  | .record _ _ _ => true
  | _ => false

namespace ItemTrail

variable {op : Op Blob} {t : ItemTrail Blob} {r : Res op} {row : TransactionRecord Blob}

theorem track_row_keep {key : String} (hg : Guard key t op) (h : t.row = some row) :
    (track op t r).row = some row := by
  have htrack := track_tracked op t r
  generalize track op t r = u at htrack ⊢
  cases htrack with
  | committed =>
    rw [hg.2.2.1] at h
    cases h
  | _ => exact h

theorem track_recorded_keep (h : t.recorded = true) : (track op t r).recorded = true := by
  have htrack := track_tracked op t r
  generalize track op t r = u at htrack ⊢
  cases htrack with
  | recorded => rfl
  | _ => exact h

theorem row_committed {h : History (Op Blob) Res}
    (hrow : (History.summary track {} h).row = some row) :
    ∃ intent ob ev row', ⟨.persist intent ob ev, .committed row'⟩ ∈ h ∧ intent.record = row := by
  obtain ⟨pre, ⟨op, r⟩, hm, hn, hy⟩ := History.exists_turn
    (P := fun t : ItemTrail Blob => t.row = some row)
    (by simp) hrow
  have htrack := track_tracked op (History.summary track {} pre) r
  generalize track op (History.summary track {} pre) r = u at htrack hy
  cases htrack with
  | committed => exact ⟨_, _, _, _, hm, Option.some.inj hy⟩
  | _ => exact absurd hy hn

end ItemTrail

/-- What a committed row says about the executions of its item: it is the one
stored row, one execution wrote it, and it names the hold that one was handed. -/
structure RowInv (key : String) (l : ι → ItemTrail Blob) (s : Store Blob) : Prop where
  stored : ∀ i row, (l i).written = some row → s.rows key = some row
  unique : ∀ i j, (l i).written ≠ none → (l j).written ≠ none → i = j
  known : ∀ i row, (l i).row = some row → (l i).written = some row
  billing : ∀ i row, (l i).written = some row → row.billingID = (l i).handed.getD ""
  recorded : ∀ i, (l i).recorded = true → (l i).row ≠ none

section

variable [DecidableEq ι]

def trail (tr : Trace (Op Blob) Res ι) (i : ι) : ItemTrail Blob :=
  History.summary ItemTrail.track {} (tr.own i)

theorem trail_snoc (tr : Trace (Op Blob) Res ι) (i : ι) (e : Event (Op Blob) Res) :
    trail (tr ++ [(i, e)]) =
      update (trail tr) i (ItemTrail.track e.op (trail tr i) e.res) := by
  funext j
  by_cases h : j = i
  · subst h
    simp [trail]
  · simp [trail, h, Ne.symm h]

variable {key : String} {l : ι → ItemTrail Blob} {s t : Store Blob} {i : ι} {u : ItemTrail Blob}
  {op : Op Blob} {charged : List String} {tr : Trace (Op Blob) Res ι} {r : Res op}

theorem RowInv.frame (h : RowInv key l s) (hrows : t.rows = s.rows)
    (hwritten : u.written = (l i).written) (hrow : u.row = (l i).row)
    (hhanded : (l i).written ≠ none → u.handed = (l i).handed)
    (hrec : u.recorded = true → u.row ≠ none) : RowInv key (update l i u) t := by
  have hw : ∀ j, (update l i u j).written = (l j).written := by
    intro j
    by_cases hj : j = i
    · rw [hj, update_self, hwritten]
    · rw [update_of_ne hj]
  refine ⟨fun j row hj => ?_, fun j k hj hk => ?_, fun j row hj => ?_, fun j row hj => ?_,
    fun j hj => ?_⟩
  · rw [hw] at hj
    rw [hrows]
    exact h.stored j row hj
  · rw [hw] at hj hk
    exact h.unique j k hj hk
  · rw [hw]
    by_cases hji : j = i
    · subst hji
      rw [update_self, hrow] at hj
      exact h.known j row hj
    · rw [update_of_ne hji] at hj
      exact h.known j row hj
  · rw [hw] at hj
    by_cases hji : j = i
    · subst hji
      rw [update_self, hhanded (by simp [hj])]
      exact h.billing j row hj
    · rw [update_of_ne hji]
      exact h.billing j row hj
  · by_cases hji : j = i
    · subst hji
      rw [update_self] at hj ⊢
      exact hrec hj
    · rw [update_of_ne hji] at hj ⊢
      exact h.recorded j hj

theorem RowInv.write {row : TransactionRecord Blob} (h : RowInv key l s) (hfree : s.rows key = none)
    (hkey : row.idempotencyKey = key) (hwritten : u.written = some row)
    (hrow : ∀ row', u.row = some row' → row' = row) (hbill : row.billingID = u.handed.getD "")
    (hrec : u.recorded = true → u.row ≠ none) :
    RowInv key (update l i u) (s.insertRow row) := by
  have hnone : ∀ j, (l j).written = none := by
    intro j
    by_contra hj
    obtain ⟨row', hrow'⟩ := Option.ne_none_iff_exists'.mp hj
    rw [h.stored j row' hrow'] at hfree
    exact absurd hfree (by simp)
  have hother : ∀ j, j ≠ i → (update l i u j).written = none := by
    intro j hj
    rw [update_of_ne hj]
    exact hnone j
  refine ⟨fun j row' hj => ?_, fun j k hj hk => ?_, fun j row' hj => ?_, fun j row' hj => ?_,
    fun j hj => ?_⟩
  · by_cases hji : j = i
    · subst hji
      rw [update_self, hwritten] at hj
      cases hj
      rw [← hkey]
      exact Store.insertRow_rows_self s row
    · rw [hother j hji] at hj
      exact absurd hj (by simp)
  · by_cases hji : j = i
    · by_cases hki : k = i
      · rw [hji, hki]
      · exact absurd (hother k hki) hk
    · exact absurd (hother j hji) hj
  · by_cases hji : j = i
    · subst hji
      rw [update_self] at hj ⊢
      rw [hwritten, hrow row' hj]
    · rw [update_of_ne hji] at hj ⊢
      exact h.known j row' hj
  · by_cases hji : j = i
    · subst hji
      rw [update_self, hwritten] at hj
      cases hj
      rw [update_self]
      exact hbill
    · rw [hother j hji] at hj
      exact absurd hj (by simp)
  · by_cases hji : j = i
    · subst hji
      rw [update_self] at hj ⊢
      exact hrec hj
    · rw [update_of_ne hji] at hj ⊢
      exact h.recorded j hj

theorem RowInv.persist [DecidableEq Blob] {intent : PersistTxIntent Blob} {ob : Bool}
    {ev : EvidenceRecord} {r : PersistReply Blob} (h : RowInv key l s)
    (hg : ItemTrail.Guard key (l i) (.persist intent ob ev)) (hs : s.persist intent r = some t) :
    RowInv key (update l i (ItemTrail.track (.persist intent ob ev) (l i) r)) t := by
  obtain ⟨hkey, hbill, hnone, -, hrec, -⟩ := hg
  rcases Store.persist_cases hs with ⟨hw, hfree, rfl⟩ | ⟨hw, rfl⟩
  · rw [hkey] at hfree
    rcases r with row | ⟨e, applied⟩
    · refine h.write hfree hkey rfl (fun row' hr => ?_) hbill fun _ => by simp [ItemTrail.track]
      exact (Option.some.inj hr).symm
    · simp only [PersistReply.wrote, Bool.and_eq_true, Bool.not_eq_true'] at hw
      simp only [ItemTrail.track, hw.1, hw.2, if_true]
      refine h.write hfree hkey rfl (fun row' hr => ?_) hbill fun hr => ?_
      · rw [hnone] at hr
        exact absurd hr (by simp)
      · rw [hrec] at hr
        exact absurd hr (by simp)
  · rcases r with row | ⟨e, applied⟩
    · exact absurd hw (by simp [PersistReply.wrote])
    · have hself := h.recorded i
      simp only [ItemTrail.track]
      split_ifs with hv ha
      · exact h.frame rfl rfl rfl (fun _ => rfl) hself
      · simp [PersistReply.wrote, hv, ha] at hw
      · exact h.frame rfl rfl rfl (fun _ => rfl) hself

theorem RowInv.step [DecidableEq Blob] (h : RowInv key l s) (hg : ItemTrail.Guard key (l i) op)
    (hs : Store.step op s r = some t) :
    RowInv key (update l i (ItemTrail.track op (l i) r)) t := by
  have hself := h.recorded i
  have hrows := Store.step_rows hs
  cases op
  case persist intent ob ev => exact h.persist hg hs
  case authorize req =>
    obtain ⟨-, hfresh⟩ := hg
    have hno : (l i).written ≠ none → (ItemTrail.track (.authorize req) (l i) r).handed =
        (l i).handed := by
      rw [hfresh]
      simp
    rcases r with res | ⟨e, applied⟩
    · simp only [ItemTrail.track] at hno ⊢
      split_ifs at hno ⊢
      · exact h.frame (hrows (by simp)) rfl rfl hno hself
      · exact h.frame (hrows (by simp)) rfl rfl hno hself
    · exact h.frame (hrows (by simp)) rfl rfl hno hself
  case byIdempotencyKey =>
    rcases r with row | _ | e <;>
      exact h.frame (hrows (by simp)) rfl rfl (fun _ => rfl) hself
  case record =>
    obtain ⟨-, -, -, row, hrow, -⟩ := hg
    exact h.frame (hrows (by simp)) rfl rfl (fun _ => rfl) fun _ => by simp [ItemTrail.track, hrow]
  all_goals exact h.frame (hrows (by simp)) rfl rfl (fun _ => rfl) hself

structure RecordInv (key : String) (charged : List String) (tr : Trace (Op Blob) Res ι)
    (s : Store Blob) : Prop where
  rows : RowInv key (trail tr) s
  issued : ∀ i id q k r, (i, ⟨.record id q k, r⟩) ∈ tr → (trail tr i).recorded = true ∧
    ∃ row, (trail tr i).row = some row ∧ row.billingID = id
  committed : ∀ i intent ob ev row, (i, ⟨.persist intent ob ev, .committed row⟩) ∈ tr →
    row = intent.record ∧ row.idempotencyKey = key ∧ s.rows key = some row
  once : (tr.filter fun e => e.2.op.isRecord).length ≤ 1
  charges : ∃ new, s.holds.charged = new ++ charged ∧
    new.length ≤ (tr.filter fun e => e.2.op.isRecord).length ∧
    ∀ id ∈ new, ∃ i q k r, (i, ⟨.record id q k, r⟩) ∈ tr

theorem RecordInv.no_record (h : RecordInv key charged tr s) (hrow : (trail tr i).row ≠ none)
    (hrec : (trail tr i).recorded = false) : (tr.filter fun e => e.2.op.isRecord) = [] := by
  rw [List.filter_eq_nil_iff]
  rintro ⟨j, op, r⟩ hm hop
  cases op <;> simp only [Op.isRecord, Bool.false_eq_true] at hop
  obtain ⟨hj, row, hjrow, -⟩ := h.issued j _ _ _ r hm
  obtain ⟨row', hirow⟩ := Option.ne_none_iff_exists'.mp hrow
  have hij : i = j := h.rows.unique i j
    (by simp [h.rows.known i row' hirow]) (by simp [h.rows.known j row hjrow])
  rw [hij, hj] at hrec
  exact absurd hrec (by simp)

theorem RecordInv.call [DecidableEq Blob] (h : RecordInv key charged tr s)
    (hg : ItemTrail.Guard key (trail tr i) op) (hs : Store.step op s r = some t) :
    RecordInv key charged (tr ++ [(i, ⟨op, r⟩)]) t := by
  refine ⟨?_, fun j id q k r' hm => ?_, fun j intent ob ev row hm => ?_, ?_, ?_⟩
  · rw [trail_snoc]
    exact h.rows.step hg hs
  · rw [trail_snoc]
    rcases List.mem_append.mp hm with hm | hm
    · obtain ⟨hrec, row, hrow, hbill⟩ := h.issued j id q k r' hm
      by_cases hji : j = i
      · subst hji
        rw [update_self]
        exact ⟨ItemTrail.track_recorded_keep hrec, row, ItemTrail.track_row_keep hg hrow, hbill⟩
      · rw [update_of_ne hji]
        exact ⟨hrec, row, hrow, hbill⟩
    · obtain ⟨rfl, he⟩ := Prod.mk.inj (List.mem_singleton.mp hm)
      cases he
      obtain ⟨-, -, -, row, hrow, -, hbill⟩ := hg
      rw [update_self]
      exact ⟨rfl, row, hrow, hbill⟩
  · rcases List.mem_append.mp hm with hm | hm
    · obtain ⟨hrec, hkey, hrow⟩ := h.committed j intent ob ev row hm
      exact ⟨hrec, hkey, Store.step_rows_keep hs hrow⟩
    · obtain ⟨rfl, he⟩ := Prod.mk.inj (List.mem_singleton.mp hm)
      cases he
      obtain ⟨-, hrec, hrow⟩ := Store.persist_committed hs
      rw [hg.1] at hrow
      exact ⟨hrec, by rw [hrec]; exact hg.1, hrow⟩
  · by_cases hop : op.isRecord = true
    · cases op <;> simp only [Op.isRecord, Bool.false_eq_true] at hop
      obtain ⟨-, -, ⟨hrec, -⟩, row, hrow, -⟩ := hg
      rw [List.filter_append, h.no_record (by simp [hrow]) hrec]
      simp [Op.isRecord]
    · rw [List.filter_append]
      simpa [hop] using h.once
  · obtain ⟨new, hnew, hlen, hev⟩ := h.charges
    have hev' : ∀ id ∈ new, ∃ j q k r', (j, ⟨.record id q k, r'⟩) ∈ tr ++ [(i, ⟨op, r⟩)] := by
      intro id hid
      obtain ⟨j, q, k, r', hm⟩ := hev id hid
      exact ⟨j, q, k, r', List.mem_append_left _ hm⟩
    rcases Store.step_charged hs with hc | ⟨id, q, k, rfl, hc⟩
    · refine ⟨new, by rw [hc, hnew], ?_, hev'⟩
      rw [List.filter_append, List.length_append]
      omega
    · refine ⟨id :: new, by rw [hc, hnew]; rfl, ?_, fun id' hid => ?_⟩
      · rw [List.filter_append, List.length_append]
        simpa [Op.isRecord] using hlen
      · rcases List.mem_cons.mp hid with rfl | hid
        · exact ⟨i, q, k, r, by simp⟩
        · exact hev' id' hid

theorem itemPool_recordInv [DecidableEq Blob] (s : Service Blob) {input : ι → BatchItemBilling}
    (hkey : ∀ i, (input i).derivedKey = key) {store : Store Blob} {c : ItemPool Blob ι}
    (hr : Run Store.step HoldExpiry (itemPool s input store) tr c) :
    RecordInv key store.holds.charged tr c.shared := by
  refine Run.invariant (RecordInv key store.holds.charged) (itemPool_conduct s input store) hr
    ?_ ?_ ?_
  · refine ⟨⟨?_, ?_, ?_, ?_, ?_⟩, ?_, ?_, by simp, ⟨[], rfl, by simp, by simp⟩⟩ <;>
      simp [trail, History.summary]
  · intro tr s i op r t h hg hs
    rw [hkey i] at hg
    exact h.call hg hs
  · rintro tr s t h ⟨id, rfl⟩
    exact ⟨⟨h.rows.stored, h.rows.unique, h.rows.known, h.rows.billing, h.rows.recorded⟩,
      h.issued, h.committed, h.once, h.charges⟩

/-- Of all executions that share a derived key at most one issues a record, once,
after its own row committed and for the hold that row names; so the item is
charged at most once and never without its durable row. -/
theorem record_at_most_once_after_own_row [DecidableEq Blob] (s : Service Blob)
    {input : ι → BatchItemBilling} {key : String} (hkey : ∀ i, (input i).derivedKey = key)
    {store : Store Blob} {tr : Trace (Op Blob) Res ι} {c : ItemPool Blob ι}
    (hr : Run Store.step HoldExpiry (itemPool s input store) tr c) :
    (tr.filter fun e => e.2.op.isRecord).length ≤ 1 ∧
    (∀ pre post i id q k r, tr = pre ++ (i, ⟨.record id q k, r⟩) :: post →
      ∃ intent ob ev row, (i, ⟨.persist intent ob ev, .committed row⟩) ∈ pre ∧
        row.idempotencyKey = key ∧ row.billingID = id ∧ c.shared.rows key = some row) ∧
    ∃ charges, c.shared.holds.charged = charges ++ store.holds.charged ∧ charges.length ≤ 1 ∧
      ∀ id ∈ charges, ∃ row, c.shared.rows key = some row ∧ row.billingID = id := by
  have hinv := itemPool_recordInv s hkey hr
  refine ⟨hinv.once, ?_, ?_⟩
  · intro pre post i id q k r htr
    obtain ⟨-, -, -, row, hrow, -, hbill⟩ := hr.guarded (itemPool_conduct s input store) htr
    obtain ⟨intent, ob, ev, row', hm, hrec⟩ := ItemTrail.row_committed hrow
    have hpre := Trace.mem_own.mp hm
    obtain ⟨hrec', hrkey, hstored⟩ := hinv.committed i intent ob ev row'
      (htr ▸ List.mem_append_left _ hpre)
    exact ⟨intent, ob, ev, row', hpre, hrkey, by rw [hrec', hrec, hbill], hstored⟩
  · obtain ⟨new, hnew, hlen, hev⟩ := hinv.charges
    refine ⟨new, hnew, by have := hinv.once; omega, fun id hid => ?_⟩
    obtain ⟨i, q, k, r, hm⟩ := hev id hid
    obtain ⟨-, row, hrow, hbill⟩ := hinv.issued i id q k r hm
    exact ⟨row, hinv.rows.stored i row (hinv.rows.known i row hrow), hbill⟩

end

def paidInput : BatchItemBilling where
  tenant := plainSurroundings.tenant
  resolved := ⟨plainSurroundings.entry, ⟨"PER_UNIT", 1, "USD", 1, "page", 1, none⟩, []⟩
  itemReq := itemRequest (plainRequest []) (plainItem "offer")
  item := plainItem "offer"
  agentID := "agent.example"
  billingRef := "ref"
  binding := {}
  derivedKey := "key:offer"
  resourceOwnerID := "owner"
  feeRateBps := 0
  correlation := {}

/-- Two executions, the second of which runs after the first has recorded. -/
theorem record_at_most_once_two_executions : ∃ tr c,
    Run Store.step HoldExpiry (itemPool plainService (fun _ : Bool => paidInput) {}) tr c ∧
    (tr.filter fun e => e.2.op.isRecord).length = 1 ∧ c.shared.holds.charged = ["h"] ∧
    (tr.filter fun e => e.2.op.isRecord).length ≤ 1 := by
  have hrun : ∃ tr c,
      Run Store.step HoldExpiry (itemPool plainService (fun _ : Bool => paidInput) {}) tr c ∧
      (tr.filter fun e => e.2.op.isRecord).length = 1 ∧ c.shared.holds.charged = ["h"] :=
    Pool.exists_run (turns 10 false ++ turns 11 true) (by decide +kernel)
  obtain ⟨tr, c, hr, hlen, hcharged⟩ := hrun
  exact ⟨tr, c, hr, hlen, hcharged,
    (record_at_most_once_after_own_row plainService (fun _ => rfl) hr).1⟩

end Ramp.Exchange
