import Mathlib.Algebra.GroupWithZero.Nat
import Mathlib.Data.List.Induction
import Ramp.Program.Basic

/-! Any number of programs over one shared state, scheduled in any order. A
program that is never scheduled again has crashed, so every run prefix is
also a run with crashes. -/

namespace Ramp

instance neZeroThree : NeZero 3 := ⟨by decide⟩

/-- The shared state and what is left of each program. -/
structure Pool (Op : Type) (Res : Op → Type) (σ ι α : Type) where
  shared : σ
  threads : ι → Prog Op Res α

/-- Calls of all programs in the order the shared services answered them. -/
abbrev Trace (Op : Type) (Res : Op → Type) (ι : Type) := List (ι × Event Op Res)

variable {Op : Type} {Res : Op → Type} {σ ι α : Type} [DecidableEq ι]

/-- The calls of one program along a trace. -/
def Trace.own (tr : Trace Op Res ι) (i : ι) : History Op Res :=
  (tr.filter (fun e => e.1 = i)).map Prod.snd

@[simp] theorem Trace.own_nil (i : ι) : Trace.own ([] : Trace Op Res ι) i = [] := rfl

theorem Trace.own_append (tr tr' : Trace Op Res ι) (i : ι) :
    Trace.own (tr ++ tr') i = Trace.own tr i ++ Trace.own tr' i := by
  simp [Trace.own]

@[simp] theorem Trace.own_snoc_self (tr : Trace Op Res ι) (i : ι) (e : Event Op Res) :
    Trace.own (tr ++ [(i, e)]) i = Trace.own tr i ++ [e] := by
  simp [Trace.own]

variable {j : ι} {ok : Trace Op Res ι → ι → Event Op Res → Prop} {L : Type}
  {track : (op : Op) → L → Res op → L} {l : L} {h : History Op Res} {G : History Op Res → Op → Prop}
  {Q : History Op Res → α → Prop} {p : Prog Op Res α} {i : ι} {tr : Trace Op Res ι}
  {e : Event Op Res}

@[simp] theorem Trace.own_snoc_ne (tr : Trace Op Res ι) (h : j ≠ i) (e : Event Op Res) :
    Trace.own (tr ++ [(j, e)]) i = Trace.own tr i := by
  simp [Trace.own, h]

theorem Trace.mem_own : e ∈ Trace.own tr i ↔ (i, e) ∈ tr := by
  simp only [Trace.own, List.mem_map, List.mem_filter, decide_eq_true_eq]
  constructor
  · rintro ⟨⟨j, e'⟩, ⟨hm, rfl⟩, rfl⟩
    exact hm
  · exact fun h => ⟨(i, e), ⟨h, rfl⟩, rfl⟩

/-- The calls of other programs since the last call of `i`, the latest first. -/
def Trace.since (tr : Trace Op Res ι) (i : ι) : Trace Op Res ι :=
  tr.reverse.takeWhile fun e => e.1 ≠ i

@[simp] theorem Trace.since_nil (i : ι) : Trace.since ([] : Trace Op Res ι) i = [] := rfl

@[simp] theorem Trace.since_snoc_ne (tr : Trace Op Res ι) (h : j ≠ i) (e : Event Op Res) :
    Trace.since (tr ++ [(j, e)]) i = (j, e) :: Trace.since tr i := by
  simp [Trace.since, h]

/-- The calls of all programs from the first call of `i` on. -/
def Trace.during (tr : Trace Op Res ι) (i : ι) : Trace Op Res ι := tr.dropWhile fun e => e.1 ≠ i

theorem Trace.during_snoc (h : e ∈ tr.own i) (x : ι × Event Op Res) :
    Trace.during (tr ++ [x]) i = Trace.during tr i ++ [x] := by
  induction tr with
  | nil => simp at h
  | cons y tr ih =>
    by_cases hy : y.1 = i
    · simp [Trace.during, hy]
    · have hown : e ∈ Trace.own tr i := by simpa [Trace.own, hy] using h
      simpa [Trace.during, hy] using ih hown

/-- Every call of the trace met a condition on the calls before it. -/
def Trace.Always (ok : Trace Op Res ι → ι → Event Op Res → Prop) (tr : Trace Op Res ι) : Prop :=
  ∀ pre i e post, tr = pre ++ (i, e) :: post → ok pre i e

omit [DecidableEq ι] in
theorem Trace.Always.left {tr' : Trace Op Res ι} (h : Trace.Always ok (tr ++ tr')) :
    Trace.Always ok tr := by
  intro pre i e post htr
  refine h pre i e (post ++ tr') ?_
  rw [htr, List.append_assoc]
  rfl

omit [DecidableEq ι] in
theorem Trace.Always.last (h : Trace.Always ok (tr ++ [(i, e)])) : ok tr i e :=
  h tr i e [] rfl

omit [DecidableEq ι] in
theorem Trace.always_iff :
    Trace.Always ok tr ↔ ∀ n : Fin tr.length, ok (tr.take n) (tr.get n).1 (tr.get n).2 := by
  constructor
  · intro h n
    refine h _ _ _ (tr.drop (n + 1)) ?_
    rw [List.get_eq_getElem, ← List.drop_eq_getElem_cons, List.take_append_drop]
  · intro h pre i e post htr
    subst htr
    have hh := h ⟨pre.length, by simp⟩
    simpa using hh

instance {ok : Trace Op Res ι → ι → Event Op Res → Prop} [∀ pre i e, Decidable (ok pre i e)]
    (tr : Trace Op Res ι) : Decidable (Trace.Always ok tr) :=
  decidable_of_iff _ Trace.always_iff.symm

/-- `Run step env c tr c'`: the pool `c` becomes `c'` by the calls `tr`, with
steps of the environment anywhere between them. -/
inductive Run (step : (op : Op) → σ → Res op → Option σ) (env : σ → σ → Prop)
    (c : Pool Op Res σ ι α) : Trace Op Res ι → Pool Op Res σ ι α → Prop
  | start : Run step env c [] c
  | call {tr : Trace Op Res ι} {c' : Pool Op Res σ ι α} {i : ι} {op : Op}
      {next : Res op → Prog Op Res α} {r : Res op} {s : σ} (run : Run step env c tr c')
      (head : c'.threads i = .call op next) (reply : step op c'.shared r = some s) :
      Run step env c (tr ++ [(i, ⟨op, r⟩)]) ⟨s, Function.update c'.threads i (next r)⟩
  | env {tr : Trace Op Res ι} {c' : Pool Op Res σ ι α} {s : σ} (run : Run step env c tr c')
      (move : env c'.shared s) : Run step env c tr ⟨s, c'.threads⟩

/-- The next call of program `i` is its last: it leaves the state `s` and returns `x`. -/
def Pool.Finishes (step : (op : Op) → σ → Res op → Option σ) (c : Pool Op Res σ ι α) (i : ι)
    (x : α) (s : σ) : Prop :=
  ∃ op next r, c.threads i = .call op next ∧ step op c.shared r = some s ∧ next r = .ret x

/-- Appending the reply to a history; this is the state of a program's own calls. -/
def recordCall (op : Op) (h : History Op Res) (r : Res op) : Option (History Op Res) :=
  some (h ++ [⟨op, r⟩])

/-- The summary that a tracker makes of a history. -/
def History.summary {L : Type} (track : (op : Op) → L → Res op → L) (l : L)
    (h : History Op Res) : L :=
  h.foldl (fun l e => track e.op l e.res) l

omit [DecidableEq ι] in
@[simp] theorem History.summary_snoc (track : (op : Op) → L → Res op → L) (l : L)
    (h : History Op Res) (e : Event Op Res) :
    History.summary track l (h ++ [e]) = track e.op (History.summary track l h) e.res := by
  simp [History.summary]

omit [DecidableEq ι] in
/-- What became true of a summary became true at some call. -/
theorem History.exists_turn {P : L → Prop} (hinit : ¬ P l) (hend : P (History.summary track l h)) :
    ∃ pre e, e ∈ h ∧ ¬ P (History.summary track l pre) ∧
      P (track e.op (History.summary track l pre) e.res) := by
  induction h using List.reverseRecOn with
  | nil => exact absurd hend hinit
  | append_singleton h e ih =>
    by_cases hp : P (History.summary track l h)
    · obtain ⟨pre, e', hm, hpre⟩ := ih hp
      exact ⟨pre, e', List.mem_append_left _ hm, hpre⟩
    · rw [History.summary_snoc] at hend
      exact ⟨h, e, by simp, hp, hend⟩

omit [DecidableEq ι] in
/-- A tracked specification, read as one about the program's own history. -/
theorem Prog.Spec.history {G : L → Op → Prop} {Q : L → α → Prop}
    (hp : Prog.Spec (Prog.tracked track) G Q p (History.summary track l h)) :
    Prog.Spec recordCall (fun h => G (History.summary track l h))
      (fun h => Q (History.summary track l h)) p h := by
  induction p generalizing h with
  | ret a => exact hp
  | call op next ih =>
    refine ⟨hp.1, fun r t ht => ?_⟩
    cases ht
    refine ih r ?_
    rw [History.summary_snoc]
    exact hp.2 r _ rfl

omit [DecidableEq ι] in
/-- A specification from a history, read as one from the calls after it. -/
theorem Prog.Spec.resume {h₀ : History Op Res} (hp : Prog.Spec recordCall G Q p (h₀ ++ h)) :
    Prog.Spec recordCall (fun h => G (h₀ ++ h)) (fun h => Q (h₀ ++ h)) p h := by
  induction p generalizing h with
  | ret a => exact hp
  | call op next ih =>
    refine ⟨hp.1, fun r t ht => ?_⟩
    cases ht
    refine ih r ?_
    rw [← List.append_assoc]
    exact hp.2 r _ rfl

theorem Prog.Spec.grows (hp : Prog.Spec recordCall G Q p h) :
    Prog.Spec recordCall G (fun h' a => Q h' a ∧ h <+: h') p h := by
  refine hp.keep (fun op h' r t _ hle ht => ?_) (List.prefix_refl h)
  cases ht
  exact hle.trans (List.prefix_append _ _)

omit [DecidableEq ι] in
theorem Prog.Yields.grows {ε : Type} {P : History Op Res → α → Prop} {x : ExceptT ε (Prog Op Res) α}
    (hx : Prog.Yields recordCall G P x h) :
    Prog.Yields recordCall G (fun h' a => P h' a ∧ h <+: h') x h :=
  (Prog.Spec.grows hx).mono (fun _ _ hg => hg) fun _ _ hr a ha => ⟨hr.1 a ha, hr.2⟩

variable {step : (op : Op) → σ → Res op → Option σ} {env : σ → σ → Prop}

variable {c c' : Pool Op Res σ ι α} {G : ι → History Op Res → Op → Prop}
  {Q : ι → History Op Res → α → Prop}

theorem Run.trans {c'' : Pool Op Res σ ι α} {tr' : Trace Op Res ι} (hr : Run step env c tr c')
    (hr' : Run step env c' tr' c'') : Run step env c (tr ++ tr') c'' := by
  induction hr' with
  | start => simpa using hr
  | call run head reply ih =>
    rw [← List.append_assoc]
    exact ih.call head reply
  | env run move ih => exact ih.env move

theorem Run.finish (hr : Run step env c tr c') {x : α} {s : σ} (h : c'.Finishes step i x s) :
    ∃ op r, step op c'.shared r = some s ∧
      Run step env c (tr ++ [(i, ⟨op, r⟩)]) ⟨s, Function.update c'.threads i (.ret x)⟩ := by
  obtain ⟨op, next, r, head, reply, hnext⟩ := h
  exact ⟨op, r, reply, hnext ▸ hr.call head reply⟩

/-- A program that made no call is as it was. -/
theorem Run.thread_of_own_nil (hr : Run step env c tr c') (h : tr.own i = []) :
    c'.threads i = c.threads i := by
  induction hr with
  | start => rfl
  | @call tr c' j op next r s run head reply ih =>
    by_cases hj : j = i
    · subst hj
      simp at h
    · rw [Trace.own_snoc_ne _ hj] at h
      rw [← ih h]
      exact Function.update_of_ne (Ne.symm hj) _ _
  | env run move ih => exact ih h

theorem Run.eq_of_nil (hr : Run step (fun _ _ => False) c tr c') (htr : tr = []) : c' = c := by
  cases hr with
  | start => rfl
  | call run head reply => simp at htr
  | env run move => exact move.elim

/-- A run of one call is that call. -/
theorem Run.step_of_singleton {op : Op} {r : Res op} (hr : Run step (fun _ _ => False) c tr c')
    (htr : tr = [(i, ⟨op, r⟩)]) : step op c.shared r = some c'.shared := by
  cases hr with
  | start => cases htr
  | @call tr c' j op' next r' s run head reply =>
    obtain ⟨rfl, he⟩ := List.append_eq_singleton_iff.mp htr |>.resolve_right (by simp)
    obtain rfl := run.eq_of_nil rfl
    cases he
    exact reply
  | env run move => exact move.elim

theorem Run.preserves {Inv : σ → Prop} (hr : Run step env c tr c') (init : Inv c.shared)
    (onCall : ∀ s op r t, Inv s → step op s r = some t → Inv t)
    (onEnv : ∀ s t, Inv s → env s t → Inv t) : Inv c'.shared := by
  induction hr with
  | start => exact init
  | call run head reply ih => exact onCall _ _ _ _ ih reply
  | env run move ih => exact onEnv _ _ ih move

/-- What is left of each program still meets its specification from its own history. -/
theorem Run.spec (hs : ∀ i, Prog.Spec recordCall (G i) (Q i) (c.threads i) [])
    (hr : Run step env c tr c') (i : ι) :
    Prog.Spec recordCall (G i) (Q i) (c'.threads i) (tr.own i) := by
  induction hr with
  | start => exact hs i
  | @call tr c' j op next r s run head reply ih =>
    by_cases hj : j = i
    · subst hj
      rw [head] at ih
      simpa using ih.2 r _ rfl
    · simpa [hj, Function.update_of_ne (Ne.symm hj)] using ih
  | env run move ih => exact ih

/-- An invariant of the shared state and the trace, proved from what the
programs guarantee at each call. -/
theorem Run.invariant (Inv : Trace Op Res ι → σ → Prop)
    (hs : ∀ i, Prog.Spec recordCall (G i) (Q i) (c.threads i) []) (hr : Run step env c tr c')
    (init : Inv [] c.shared)
    (onCall : ∀ tr s i op r t, Inv tr s → G i (tr.own i) op → step op s r = some t →
      Inv (tr ++ [(i, ⟨op, r⟩)]) t) (onEnv : ∀ tr s t, Inv tr s → env s t → Inv tr t) :
    Inv tr c'.shared := by
  induction hr with
  | start => exact init
  | @call tr c' j op next r s run head reply ih =>
    have hg := run.spec hs j
    rw [head] at hg
    exact onCall _ _ _ _ _ _ ih hg.1 reply
  | env run move ih => exact onEnv _ _ _ ih move

/-- The same from the middle of a run on, with the calls before it still in the
histories. -/
theorem Run.invariant_from (Inv : Trace Op Res ι → σ → Prop) {c₁ c₂ : Pool Op Res σ ι α}
    {tr₁ tr₂ : Trace Op Res ι} (hs : ∀ i, Prog.Spec recordCall (G i) (Q i) (c.threads i) [])
    (hr₁ : Run step env c tr₁ c₁) (hr₂ : Run step env c₁ tr₂ c₂) (init : Inv tr₁ c₁.shared)
    (onCall : ∀ tr s i op r t, Inv tr s → G i (tr.own i) op → step op s r = some t →
      Inv (tr ++ [(i, ⟨op, r⟩)]) t) (onEnv : ∀ tr s t, Inv tr s → env s t → Inv tr t) :
    Inv (tr₁ ++ tr₂) c₂.shared := by
  have hs' : ∀ i, Prog.Spec recordCall (fun h => G i (tr₁.own i ++ h))
      (fun h => Q i (tr₁.own i ++ h)) (c₁.threads i) [] := by
    intro i
    have h := hr₁.spec hs i
    rw [← List.append_nil (tr₁.own i)] at h
    exact h.resume
  refine Run.invariant (fun tr s => Inv (tr₁ ++ tr) s) hs' hr₂ (by simpa using init) ?_ ?_
  · intro tr s i op r t hinv hg hstep
    rw [← List.append_assoc]
    refine onCall _ s i op r t hinv ?_ hstep
    rwa [Trace.own_append]
  · exact fun tr s t hinv hmove => onEnv _ s t hinv hmove

variable (hs : ∀ i, Prog.Spec recordCall (G i) (Q i) (c.threads i) []) (hr : Run step env c tr c')
include hs hr

theorem Run.returned {a : α} (hret : c'.threads i = .ret a) : Q i (tr.own i) a := by
  have h := hr.spec hs i
  rwa [hret] at h

/-- Every call of a run was issued with its guard true of the calls before it. -/
theorem Run.guarded {pre post : Trace Op Res ι} (htr : tr = pre ++ (i, e) :: post) :
    G i (pre.own i) e.op := by
  let Inv : Trace Op Res ι → σ → Prop := fun tr _ => ∀ pre post : Trace Op Res ι, ∀ i e,
    tr = pre ++ (i, e) :: post → G i (pre.own i) e.op
  have hinv : Inv tr c'.shared := by
    refine Run.invariant Inv hs hr ?_ ?_ ?_
    · intro pre post i e h
      simp at h
    · intro tr s i op r t ih hg _ pre post j e h
      rcases List.eq_nil_or_concat post with rfl | ⟨post, last, rfl⟩
      · obtain ⟨rfl, he⟩ := List.append_inj' h rfl
        obtain ⟨rfl, rfl⟩ := he
        exact hg
      · rw [List.concat_eq_append, ← List.cons_append, ← List.append_assoc] at h
        exact ih pre post j e (List.append_inj' h rfl).1
    · exact fun _ _ _ ih _ => ih
  exact hinv pre post i e htr

end Ramp
