import Mathlib.Data.List.Sort

/-! The notes of one agent about the exchanges it registered at. A statement writes its note and
drops the oldest ones past the cap, by what it saw of the table when it began. -/

namespace Ramp.Identity.RegistrationLog

open Function (update update_of_ne update_self)

structure Note where
  exchange : String
  registeredAt : ℤ

def maxExchangeRegistrations : ℕ := 64

/-- `ORDER BY registered_at DESC, exchange` -/
def NewerFirst (a b : Note) : Prop :=
  b.registeredAt < a.registeredAt ∨ a.registeredAt = b.registeredAt ∧ a.exchange ≤ b.exchange

instance : DecidableRel NewerFirst := fun _ _ => inferInstanceAs (Decidable (_ ∨ _))

/-- `RecordExchangeRegistration` under way, with the snapshot it runs on. -/
structure Statement where
  exchange : String
  registeredAt : ℤ
  snapshot : List Note

namespace Statement

variable (st : Statement)

def keep : List Note :=
  ((st.snapshot.filter fun n => n.exchange ≠ st.exchange).insertionSort NewerFirst).take
    (maxExchangeRegistrations - 1)

/-- The `DELETE` finds the rows of the snapshot only. -/
def drops (n : Note) : Bool :=
  n.exchange ∈ st.snapshot.map Note.exchange ∧ n.exchange ∉ st.keep.map Note.exchange

def finish (notes : List Note) : List Note :=
  notes.filter (fun n => n.exchange ≠ st.exchange ∧ ¬ st.drops n) ++
    [⟨st.exchange, st.registeredAt⟩]

end Statement

structure Log (ι : Type) where
  notes : List Note
  running : ι → Option Statement

inductive Action (ι : Type)
  | begins (i : ι) (exchange : String) (registeredAt : ℤ)
  | ends (i : ι)
  | forget (exchange : String)

variable {ι : Type} [DecidableEq ι]

namespace Log

def act (s : Log ι) : Action ι → Log ι
  | .begins i exchange registeredAt =>
    match s.running i with
    | some _ => s
    | none => { s with
        running := update s.running i (some ⟨exchange, registeredAt, s.notes⟩) }
  | .ends i =>
    match s.running i with
    | none => s
    | some st => ⟨st.finish s.notes, update s.running i none⟩
  | .forget exchange => { s with notes := s.notes.filter fun n => n.exchange ≠ exchange }

def run (s : Log ι) (actions : List (Action ι)) : Log ι := actions.foldl act s

omit [DecidableEq ι] in
def list (s : Log ι) : List Note :=
  (s.notes.insertionSort fun a b => a.exchange ≤ b.exchange).take maxExchangeRegistrations

def Apart : Log ι → List (Action ι) → Prop
  | _, [] => True
  | s, a :: actions => (∀ i exchange registeredAt, a = .begins i exchange registeredAt →
      ∀ j, s.running j = none) ∧ Apart (s.act a) actions

omit [DecidableEq ι] in
structure Sound (s : Log ι) : Prop where
  nodup : (s.notes.map Note.exchange).Nodup
  bound : s.notes.length ≤ maxExchangeRegistrations
  seen : ∀ i st, s.running i = some st →
    ∀ n ∈ s.notes, n.exchange ∈ st.snapshot.map Note.exchange
  single : ∀ i j, s.running i ≠ none → s.running j ≠ none → i = j

end Log

variable {s : Log ι} {st : Statement} {notes : List Note}

theorem finish_nodup (h : (notes.map Note.exchange).Nodup) :
    ((st.finish notes).map Note.exchange).Nodup := by
  unfold Statement.finish
  rw [List.map_append, List.nodup_append]
  refine ⟨h.sublist (List.filter_sublist.map _), List.nodup_singleton _, ?_⟩
  simp only [List.mem_map, List.mem_filter, List.map_singleton, List.mem_singleton]
  rintro _ ⟨n, ⟨-, hn⟩, rfl⟩ _ rfl
  exact (of_decide_eq_true hn).1

theorem finish_length (h : (notes.map Note.exchange).Nodup)
    (hseen : ∀ n ∈ notes, n.exchange ∈ st.snapshot.map Note.exchange) :
    (st.finish notes).length ≤ maxExchangeRegistrations := by
  have hsub : ((notes.filter fun n => n.exchange ≠ st.exchange ∧ ¬ st.drops n).map
      Note.exchange) ⊆ st.keep.map Note.exchange := by
    intro x hx
    obtain ⟨n, hn, rfl⟩ := List.mem_map.mp hx
    obtain ⟨hmem, hkept⟩ := List.mem_filter.mp hn
    have hkept := (of_decide_eq_true hkept).2
    by_contra hnot
    exact hkept (decide_eq_true ⟨hseen n hmem, hnot⟩)
  have hlen := (List.subperm_of_subset (h.sublist (List.filter_sublist.map _)) hsub).length_le
  have hkeep : st.keep.length ≤ maxExchangeRegistrations - 1 := List.length_take_le _ _
  simp only [List.length_map] at hlen
  simp only [Statement.finish, List.length_append, List.length_singleton]
  unfold maxExchangeRegistrations at *
  omega

theorem Sound.act (h : s.Sound) {a : Action ι}
    (ha : ∀ i exchange registeredAt, a = .begins i exchange registeredAt →
      ∀ j, s.running j = none) : (s.act a).Sound := by
  cases a with
  | begins i exchange registeredAt =>
    have hnone := ha i exchange registeredAt rfl
    have hact : s.act (.begins i exchange registeredAt) = { s with
        running := update s.running i (some ⟨exchange, registeredAt, s.notes⟩) } := by
      simp only [Log.act, hnone i]
    have hown : ∀ j, (s.act (.begins i exchange registeredAt)).running j ≠ none → j = i := by
      intro j hj
      by_contra hne
      rw [hact] at hj
      exact hj ((update_of_ne hne _ _).trans (hnone j))
    have hself : (s.act (.begins i exchange registeredAt)).running i =
        some ⟨exchange, registeredAt, s.notes⟩ := by
      rw [hact]
      exact update_self _ _ _
    have hnotes : (s.act (.begins i exchange registeredAt)).notes = s.notes := by rw [hact]
    refine ⟨hnotes ▸ h.nodup, hnotes ▸ h.bound, fun j st hst n hn => ?_, fun j k hj hk => ?_⟩
    · obtain rfl := hown j (by simp [hst])
      obtain rfl := Option.some.inj (hself.symm.trans hst)
      exact List.mem_map_of_mem (hnotes ▸ hn)
    · rw [hown j hj, hown k hk]
  | ends i =>
    cases hst : s.running i with
    | none =>
      simp only [Log.act, hst]
      exact h
    | some st =>
      have hidle : ∀ j, update s.running i none j = none := by
        intro j
        rcases eq_or_ne j i with rfl | hne
        · exact update_self _ _ _
        · rw [update_of_ne hne]
          by_contra hj
          exact hne (h.single j i hj (by simp [hst]))
      simp only [Log.act, hst]
      refine ⟨finish_nodup h.nodup, finish_length h.nodup (h.seen i st hst), fun j st' hst' => ?_,
        fun j k hj => absurd (hidle j) hj⟩
      cases (hidle j).symm.trans hst'
  | forget exchange =>
    refine ⟨h.nodup.sublist (List.filter_sublist.map _),
      (List.length_filter_le _ _).trans h.bound, fun i st hst n hn => ?_, h.single⟩
    exact h.seen i st hst n (List.mem_filter.mp hn).1

/-- Statements that do not overlap keep the agent's notes within the cap, and a list shows all. -/
theorem notes_within_cap {actions : List (Action ι)} (hs : s.Sound) (ha : s.Apart actions) :
    (s.run actions).notes.length ≤ maxExchangeRegistrations ∧
      (s.run actions).list.Perm (s.run actions).notes := by
  have hsound : (s.run actions).Sound := by
    induction actions generalizing s with
    | nil => exact hs
    | cons a actions ih => exact ih (Sound.act hs ha.1) ha.2
  refine ⟨hsound.bound, ?_⟩
  unfold Log.list
  rw [List.take_of_length_le ((List.length_insertionSort _ _).trans_le hsound.bound)]
  exact List.perm_insertionSort _ _

def fullLog : Log Bool := ⟨(List.range 64).map fun n => ⟨toString n, n⟩, fun _ => none⟩

theorem notes_within_cap_two_exchanges :
    fullLog.notes.length = maxExchangeRegistrations ∧ (fullLog.run [.begins true "a" 64, .ends true,
      .begins false "b" 65, .ends false]).notes.length ≤ maxExchangeRegistrations := by
  have hs : fullLog.Sound := ⟨by decide +kernel, by decide +kernel, by simp [fullLog],
    by simp [fullLog]⟩
  refine ⟨by decide +kernel, (notes_within_cap hs ?_).1⟩
  simp [Log.Apart, Log.act, fullLog]

/-- Sixty-four notes, and two statements that begin before either of them ends. -/
theorem notes_exceed_cap :
    let s : Log Bool := ⟨(List.range 64).map fun n => ⟨toString n, n⟩, fun _ => none⟩
    let t := s.run [.begins true "a" 64, .begins false "b" 65, .ends true, .ends false]
    (s.notes.map Note.exchange).Nodup ∧ (∀ i, t.running i = none) ∧
      t.notes.length = 65 ∧ t.list.length = 64 := by
  decide +kernel

end Ramp.Identity.RegistrationLog
