import Mathlib.Data.Int.ConditionallyCompleteOrder
import Mathlib.Data.Int.SuccPred

/-! The cache in front of the system of record. Calls overlap in any way; a value that one of
them returns was read no longer than one lifetime before the call began. -/

namespace Ramp.Exchange.StatusCache

open Function (update update_of_ne update_self)

structure CacheEntry where
  active : Bool
  expiresAt : ℤ

/-- The clock, counted from Go's zero time, and the answers of the inner adapter at each instant. -/
structure Adapter (ε : Type) where
  clock : ℕ → ℤ
  inner : ℕ → String → Except ε Bool
  ttl : ℤ
  ttl_pos : 0 < ttl

variable {ε ι : Type}

def defaultCacheTTL : ℤ := 30000000000

def newCachingAdapter (clock : ℕ → ℤ) (inner : ℕ → String → Except ε Bool) (ttl : ℤ) :
    Adapter ε where
  clock := clock
  inner := inner
  ttl := if ttl ≤ 0 then defaultCacheTTL else ttl
  ttl_pos := by
    split_ifs with h
    · decide
    · omega

/-- How far a call of `IsActive` has come; `began` is the clock it read first. -/
inductive Stage (ε : Type)
  | idle
  | looking (ref : String) (began : ℤ)
  | asking (ref : String) (began : ℤ)
  | storing (ref : String) (began : ℤ) (active : Bool)
  | returned (ref : String) (began : ℤ) (result : Except ε Bool)

structure World (ε ι : Type) where
  instant : ℕ := 0
  entries : String → Option CacheEntry := fun _ => none
  nextSweep : ℤ := 0
  calls : ι → Stage ε := fun _ => .idle

inductive Action (ι : Type)
  | waits
  | begins (i : ι) (ref : String)
  | proceeds (i : ι)

namespace Adapter

variable (a : Adapter ε) [DecidableEq ι]

def sweepLocked (now : ℤ) (entries : String → Option CacheEntry) (nextSweep : ℤ) :
    (String → Option CacheEntry) × ℤ :=
  if now < nextSweep then (entries, nextSweep)
  else (fun ref => (entries ref).filter fun e => now < e.expiresAt, now + a.ttl)

def proceed (w : World ε ι) (i : ι) : World ε ι :=
  match w.calls i with
  | .idle => w
  | .looking ref began =>
    match w.entries ref with
    | none => { w with calls := update w.calls i (.asking ref began) }
    | some e =>
      if began < e.expiresAt then
        { w with calls := update w.calls i (.returned ref began (.ok e.active)) }
      else { w with calls := update w.calls i (.asking ref began) }
  | .asking ref began =>
    match a.inner w.instant ref with
    | .error e => { w with calls := update w.calls i (.returned ref began (.error e)) }
    | .ok active => { w with calls := update w.calls i (.storing ref began active) }
  | .storing ref began active =>
    let swept := a.sweepLocked began
      (update w.entries ref (some ⟨active, began + a.ttl⟩)) w.nextSweep
    { w with
      entries := swept.1
      nextSweep := swept.2
      calls := update w.calls i (.returned ref began (.ok active)) }
  | .returned _ _ _ => w

def act (w : World ε ι) (action : Action ι) : World ε ι :=
  let next := match action with
    | .waits => w
    | .begins i ref => match w.calls i with
      | .idle | .returned _ _ _ =>
        { w with calls := update w.calls i (.looking ref (a.clock w.instant)) }
      | _ => w
    | .proceeds i => a.proceed w i
  { next with instant := w.instant + 1 }

def run (actions : List (Action ι)) : World ε ι := actions.foldl a.act {}

/-- Before instant `n` the inner adapter answered `v`, when the clock showed `start` or more. -/
def Answered (n : ℕ) (ref : String) (v : Bool) (start : ℤ) : Prop :=
  ∃ k < n, a.inner k ref = .ok v ∧ start ≤ a.clock k

def Holds (n : ℕ) : Stage ε → Prop
  | .looking _ began | .asking _ began => began ≤ a.clock n
  | .storing ref began v => a.Answered n ref v began
  | .returned ref began (.ok v) => a.Answered n ref v (began - a.ttl + 1)
  | .idle | .returned _ _ (.error _) => True

structure Sound (w : World ε ι) : Prop where
  entries : ∀ ref e, w.entries ref = some e →
    a.Answered w.instant ref e.active (e.expiresAt - a.ttl)
  calls : ∀ i, a.Holds w.instant (w.calls i)

end Adapter

variable {a : Adapter ε} {w : World ε ι} {n : ℕ} {ref : String} {v : Bool} {start start' : ℤ}

theorem Answered.mono (h : a.Answered n ref v start) (hle : start' ≤ start) :
    a.Answered (n + 1) ref v start' := by
  obtain ⟨k, hk, hinner, hstart⟩ := h
  exact ⟨k, Nat.lt_succ_of_lt hk, hinner, hle.trans hstart⟩

theorem Holds.succ (hclock : Monotone a.clock) {stage : Stage ε} (h : a.Holds n stage) :
    a.Holds (n + 1) stage := by
  cases stage with
  | idle => trivial
  | looking ref began => exact le_trans h (hclock (Nat.le_succ n))
  | asking ref began => exact le_trans h (hclock (Nat.le_succ n))
  | storing ref began v => exact Answered.mono h le_rfl
  | returned ref began result =>
    cases result with
    | error e => trivial
    | ok v => exact Answered.mono h le_rfl

variable [DecidableEq ι]

/-- The calls but one stand as they were. -/
theorem Sound.step (hclock : Monotone a.clock) (h : a.Sound w) {i : ι} {stage : Stage ε}
    {entries : String → Option CacheEntry} {nextSweep : ℤ}
    (hentries : ∀ ref e, entries ref = some e →
      a.Answered (w.instant + 1) ref e.active (e.expiresAt - a.ttl))
    (hstage : a.Holds (w.instant + 1) stage) :
    a.Sound ⟨w.instant + 1, entries, nextSweep, update w.calls i stage⟩ := by
  refine ⟨hentries, fun j => ?_⟩
  change a.Holds (w.instant + 1) (update w.calls i stage j)
  rcases eq_or_ne j i with rfl | hne
  · rw [update_self]
    exact hstage
  · rw [update_of_ne hne]
    exact Holds.succ hclock (h.calls j)

theorem Sound.act (hclock : Monotone a.clock) (h : a.Sound w) (action : Action ι) :
    a.Sound (a.act w action) := by
  have hkept : ∀ ref e, w.entries ref = some e →
      a.Answered (w.instant + 1) ref e.active (e.expiresAt - a.ttl) :=
    fun ref e he => Answered.mono (h.entries ref e he) le_rfl
  have hsame : a.Sound { w with instant := w.instant + 1 } :=
    ⟨hkept, fun j => Holds.succ hclock (h.calls j)⟩
  have hnow := hclock (Nat.le_succ w.instant)
  have hpos := a.ttl_pos
  cases action with
  | waits => exact hsame
  | begins i ref =>
    unfold Adapter.act
    dsimp only
    split
    · exact Sound.step hclock h hkept hnow
    · exact Sound.step hclock h hkept hnow
    · exact hsame
  | proceeds i =>
    have hi := h.calls i
    unfold Adapter.act Adapter.proceed
    dsimp only
    split
    · exact hsame
    next ref began heq =>
      rw [heq] at hi
      have hbegan : began ≤ a.clock (w.instant + 1) := le_trans hi hnow
      split
      · exact Sound.step hclock h hkept hbegan
      next e he =>
        split_ifs with hlive
        · exact Sound.step hclock h hkept (Answered.mono (h.entries ref e he) (by omega))
        · exact Sound.step hclock h hkept hbegan
    next ref began heq =>
      rw [heq] at hi
      split
      · exact Sound.step hclock h hkept trivial
      next active hinner =>
        exact Sound.step hclock h hkept ⟨w.instant, Nat.lt_succ_self _, hinner, hi⟩
    next ref began active heq =>
      rw [heq] at hi
      have hput : ∀ ref' e, update w.entries ref (some ⟨active, began + a.ttl⟩) ref' =
          some e → a.Answered (w.instant + 1) ref' e.active (e.expiresAt - a.ttl) := by
        intro ref' e he
        rcases eq_or_ne ref' ref with rfl | hne
        · rw [update_self] at he
          cases he
          exact Answered.mono hi (by dsimp only; omega)
        · rw [update_of_ne hne] at he
          exact hkept ref' e he
      refine Sound.step hclock h (fun ref' e he => ?_) (Answered.mono hi (by omega))
      unfold Adapter.sweepLocked at he
      split_ifs at he
      · exact hput ref' e he
      · exact hput ref' e (Option.filter_eq_some_iff.mp he).1
    · exact hsame

/-- A returned value was an answer of the system of record later than one lifetime before the call
began, every cached value is such an answer, and an error is returned and not stored. -/
theorem returned_value_fresh (hclock : Monotone a.clock) (actions : List (Action ι)) :
    let w := a.run actions
    (∀ i ref began v, w.calls i = .returned ref began (.ok v) →
      ∃ k < w.instant, a.inner k ref = .ok v ∧ began - a.ttl < a.clock k) ∧
    (∀ ref e, w.entries ref = some e →
      ∃ k < w.instant, a.inner k ref = .ok e.active ∧ e.expiresAt - a.ttl ≤ a.clock k) ∧
    ∀ i ref began e, w.calls i = .asking ref began → a.inner w.instant ref = .error e →
      (a.act w (.proceeds i)).calls i = .returned ref began (.error e) ∧
        (a.act w (.proceeds i)).entries = w.entries := by
  have hsound : ∀ w : World ε ι, a.Sound w → a.Sound (actions.foldl a.act w) := by
    induction actions with
    | nil => exact fun w h => h
    | cons action actions ih => exact fun w h => ih _ (Sound.act hclock h action)
  have h : a.Sound (a.run actions) :=
    hsound {} ⟨fun ref e he => (by cases he), fun i => trivial⟩
  refine ⟨fun i ref began v hi => ?_, h.entries, fun i ref began e hi he => ?_⟩
  · have hheld := h.calls i
    rw [hi] at hheld
    obtain ⟨k, hk, hinner, hstart⟩ := hheld
    exact ⟨k, hk, hinner, by omega⟩
  · simp only [Adapter.act, Adapter.proceed, hi, he, Function.update_self, and_self]

theorem returned_value_fresh_hit :
    let a : Adapter String := newCachingAdapter Nat.cast (fun k _ => .ok (decide (k < 3))) 10
    (a.run [.begins true "r", .proceeds true, .proceeds true, .proceeds true, .begins false "r",
        .proceeds false]).calls false = .returned "r" 4 (.ok true) ∧
      ∃ k < 6, a.inner k "r" = .ok true ∧ 4 - a.ttl < a.clock k := by
  intro a
  have hclock : Monotone a.clock := fun _ _ h => Int.ofNat_le.mpr h
  exact ⟨rfl, (returned_value_fresh hclock [.begins true "r", .proceeds true, .proceeds true,
    .proceeds true, .begins false "r", .proceeds false]).1 false "r" 4 true rfl⟩

end Ramp.Exchange.StatusCache
