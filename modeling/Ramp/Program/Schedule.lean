import Ramp.Program.Pool

/-! Running a pool by a given schedule, and a program alone to its end, each call answered by a
function of the shared state or by a fixed answer. -/

namespace Ramp

variable {Op σ ι α ε β : Type}

section

variable {Res : Op → Type} [DecidableEq ι]

structure Turn (Op : Type) (Res : Op → Type) (σ ι : Type) where
  thread : ι
  reply : (op : Op) → σ → Res op

namespace Pool

def turn (step : (op : Op) → σ → Res op → Option σ) (c : Pool Op Res σ ι α)
    (t : Turn Op Res σ ι) : Option (Event Op Res × Pool Op Res σ ι α) :=
  match c.threads t.thread with
  | .ret _ => none
  | .call op next =>
    (step op c.shared (t.reply op c.shared)).map fun s =>
      (⟨op, t.reply op c.shared⟩,
        ⟨s, Function.update c.threads t.thread (next (t.reply op c.shared))⟩)

def exec (step : (op : Op) → σ → Res op → Option σ) :
    List (Turn Op Res σ ι) → Trace Op Res ι → Pool Op Res σ ι α →
      Option (Trace Op Res ι × Pool Op Res σ ι α)
  | [], tr, c => some (tr, c)
  | t :: ts, tr, c => (c.turn step t).bind fun x => exec step ts (tr ++ [(t.thread, x.1)]) x.2

variable {step : (op : Op) → σ → Res op → Option σ} {env : σ → σ → Prop}

variable {c₀ c c' : Pool Op Res σ ι α} {tr : Trace Op Res ι} {t : Turn Op Res σ ι}
  {e : Event Op Res} {P : Trace Op Res ι → Pool Op Res σ ι α → Prop}

theorem turn_run (hr : Run step env c₀ tr c) (h : c.turn step t = some (e, c')) :
    Run step env c₀ (tr ++ [(t.thread, e)]) c' := by
  unfold turn at h
  split at h
  · simp at h
  next op next head =>
    obtain ⟨s, hs, he⟩ := Option.map_eq_some_iff.mp h
    obtain ⟨rfl, rfl⟩ := Prod.mk.inj he
    exact hr.call head hs

theorem turn_finishes {x : α} (h : c.turn step t = some (e, c'))
    (hret : c'.threads t.thread = .ret x) : c.Finishes step t.thread x c'.shared := by
  unfold turn at h
  split at h
  · simp at h
  next op next head =>
    obtain ⟨s, hs, he⟩ := Option.map_eq_some_iff.mp h
    obtain ⟨-, rfl⟩ := Prod.mk.inj he
    refine ⟨op, next, _, head, hs, ?_⟩
    simpa using hret

theorem exec_run {ts : List (Turn Op Res σ ι)} {tr' : Trace Op Res ι} (hr : Run step env c₀ tr c)
    (h : exec step ts tr c = some (tr', c')) : Run step env c₀ tr' c' := by
  induction ts generalizing tr c with
  | nil =>
    cases h
    exact hr
  | cons t ts ih =>
    obtain ⟨x, hx, hrest⟩ := Option.bind_eq_some_iff.mp h
    exact ih (turn_run hr hx) hrest

/-- Where a schedule ends, or the start if it cannot be followed. -/
def outcome (step : (op : Op) → σ → Res op → Option σ) (ts : List (Turn Op Res σ ι))
    (c : Pool Op Res σ ι α) : Trace Op Res ι × Pool Op Res σ ι α :=
  (exec step ts [] c).getD ([], c)

theorem outcome_run (ts : List (Turn Op Res σ ι)) (c : Pool Op Res σ ι α) :
    Run step env c (outcome step ts c).1 (outcome step ts c).2 := by
  unfold outcome
  cases hx : exec step ts [] c with
  | none => exact .start
  | some x => exact exec_run .start hx

/-- A schedule whose outcome has a property is a run that has it. -/
theorem exists_run (ts : List (Turn Op Res σ ι)) [∀ tr c', Decidable (P tr c')]
    (h : (exec step ts [] c).any (fun x => decide (P x.1 x.2)) = true) :
    ∃ tr c', Run step env c tr c' ∧ P tr c' := by
  cases hx : exec step ts [] c with
  | none => simp [hx] at h
  | some x =>
    rw [hx] at h
    exact ⟨x.1, x.2, exec_run .start hx, of_decide_eq_true h⟩

/-- The same for a run that is stopped once and looked at twice. -/
theorem exists_run_run (ts ts' : List (Turn Op Res σ ι))
    {P : Trace Op Res ι → Pool Op Res σ ι α → Trace Op Res ι → Pool Op Res σ ι α → Prop}
    [∀ tr c' tr' c'', Decidable (P tr c' tr' c'')]
    (h : (exec step ts [] c).any (fun x => (exec step ts' [] x.2).any fun y =>
      decide (P x.1 x.2 y.1 y.2)) = true) :
    ∃ tr c' tr' c'', Run step env c tr c' ∧ Run step env c' tr' c'' ∧ P tr c' tr' c'' := by
  cases hx : exec step ts [] c with
  | none => simp [hx] at h
  | some x =>
    rw [hx] at h
    cases hy : exec step ts' [] x.2 with
    | none => simp [hy] at h
    | some y =>
      rw [Option.any_some, hy] at h
      exact ⟨x.1, x.2, y.1, y.2, exec_run .start hx, exec_run .start hy, of_decide_eq_true h⟩

/-- The same with one step of the environment between two schedules. -/
theorem exists_run_moved (ts ts' : List (Turn Op Res σ ι)) (move : σ → σ)
    [∀ tr c', Decidable (P tr c')] [∀ s s', Decidable (env s s')]
    (h : (exec step ts [] c).any (fun x => decide (env x.2.shared (move x.2.shared)) &&
      (exec step ts' x.1 ⟨move x.2.shared, x.2.threads⟩).any fun y => decide (P y.1 y.2)) = true) :
    ∃ tr c', Run step env c tr c' ∧ P tr c' := by
  cases hx : exec step ts [] c with
  | none => simp [hx] at h
  | some x =>
    rw [hx, Option.any_some, Bool.and_eq_true] at h
    cases hy : exec step ts' x.1 ⟨move x.2.shared, x.2.threads⟩ with
    | none => simp [hy] at h
    | some y =>
      rw [hy] at h
      have hmoved := (exec_run .start hx).env (of_decide_eq_true h.1)
      exact ⟨y.1, y.2, exec_run hmoved hy, of_decide_eq_true h.2⟩

variable [DecidableEq β]

/-- After the turn the program has returned `x`, in a state that passes the test. -/
def returns (step : (op : Op) → σ → Res op → Option σ) (c : Pool Op Res σ ι (Except ε β))
    (t : Turn Op Res σ ι) (x : β) (test : σ → Bool) : Bool :=
  (c.turn step t).any fun y => decide ((y.2.threads t.thread).ok? = some x) && test y.2.shared

theorem exists_finishes {c : Pool Op Res σ ι (Except ε β)} {x : β} {test : σ → Bool}
    (h : c.returns step t x test = true) :
    ∃ s, c.Finishes step t.thread (.ok x) s ∧ test s = true := by
  unfold returns at h
  cases hy : c.turn step t with
  | none => simp [hy] at h
  | some y =>
    rw [hy, Option.any_some, Bool.and_eq_true] at h
    have hret := Prog.ok?_eq_some.mp (of_decide_eq_true h.1)
    exact ⟨y.2.shared, turn_finishes hy hret, h.2⟩

end Pool

end

variable {ε' : Type}

section

variable {Res : Op → Type}

namespace Prog

variable (step : (op : Op) → σ → Res op → Option σ) (reply : (op : Op) → σ → Res op)

def eval : Prog Op Res α → σ → Option (α × σ)
  | ret a, s => some (a, s)
  | call op next, s => (step op s (reply op s)).bind fun t => eval (next (reply op s)) t

variable {step reply}

theorem eval_bind (p : Prog Op Res α) (f : α → Prog Op Res β) (s : σ) :
    eval step reply (p >>= f) s =
      (eval step reply p s).bind fun x => eval step reply (f x.1) x.2 := by
  induction p generalizing s with
  | ret a => rfl
  | call op next ih =>
    simp only [call_bind, eval, Option.bind_assoc]
    congr 1
    funext t
    exact ih _ t

variable {p : Prog Op Res α}

theorem Spec.eval {Q : σ → α → Prop} {s t : σ} {a : α}
    (hp : Spec step (fun _ _ => True) Q p s) (h : eval step reply p s = some (a, t)) : Q t a := by
  induction p generalizing s with
  | ret b =>
    cases h
    exact hp
  | call op next ih =>
    obtain ⟨t', ht', h⟩ := Option.bind_eq_some_iff.mp h
    exact ih _ (hp.2 _ t' ht') h

section

variable (step reply)

/-- The calls that a program makes when it runs alone. -/
def trail : Prog Op Res α → σ → List Op
  | ret _, _ => []
  | call op next, s =>
    op :: ((step op s (reply op s)).map fun t => trail (next (reply op s)) t).getD []

variable {step reply}

theorem trail_bind (p : Prog Op Res α) (f : α → Prog Op Res β) (s : σ) :
    trail step reply (p >>= f) s = trail step reply p s ++
      ((eval step reply p s).map fun x => trail step reply (f x.1) x.2).getD [] := by
  induction p generalizing s with
  | ret a => rfl
  | call op next ih =>
    simp only [call_bind, trail, eval]
    cases step op s (reply op s) with
    | none => rfl
    | some t =>
      have hh := ih (reply op s) t
      simp only [Option.map_some, Option.getD_some, Option.bind_some, hh]
      rfl

theorem eval_isSome (hstep : ∀ op s, (step op s (reply op s)).isSome) (p : Prog Op Res α) (s : σ) :
    (eval step reply p s).isSome := by
  induction p generalizing s with
  | ret a => rfl
  | call op next ih =>
    obtain ⟨t, ht⟩ := Option.isSome_iff_exists.mp (hstep op s)
    simp only [eval, ht, Option.bind_some]
    exact ih _ t

theorem Only.of_trail {P : Op → Prop} (hp : Only P p) {s : σ} {op : Op}
    (hop : op ∈ trail step reply p s) : P op := by
  induction p generalizing s with
  | ret a => cases hop
  | call op' next ih =>
    rcases List.mem_cons.mp hop with rfl | hop
    · exact hp.1
    · cases hs : step op' s (reply op' s) with
      | none => simp [hs] at hop
      | some t =>
        rw [hs] at hop
        exact ih _ (hp.2 _) hop

/-- What every call that a program makes keeps, the program keeps. -/
theorem Only.keeps {P : Op → Prop} {I : σ → Prop} (hp : Only P p)
    (hstep : ∀ op s t, P op → I s → step op s (reply op s) = some t → I t) {s t : σ} {a : α}
    (h : eval step reply p s = some (a, t)) (hs : I s) : I t := by
  induction p generalizing s with
  | ret b =>
    obtain ⟨-, rfl⟩ := Prod.mk.inj (Option.some.inj h)
    exact hs
  | call op next ih =>
    obtain ⟨t', ht', hrest⟩ := Option.bind_eq_some_iff.mp h
    exact ih _ (hp.2 _) hrest (hstep op s t' hp.1 hs ht')

end

variable {x : ExceptT ε (Prog Op Res) α} {f : α → ExceptT ε (Prog Op Res) β} {s t : σ}
  {a : α} {r : Except ε α} {g : ε' → ε} {y : Except ε' α}

theorem eval_seq_ok (h : eval step reply x.run s = some (.ok a, t)) :
    eval step reply (x >>= f).run s = eval step reply (f a).run t := by
  change eval step reply (x.run >>= _) s = _
  rw [eval_bind, h]
  rfl

theorem eval_seq_error {e : ε} (h : eval step reply x.run s = some (.error e, t)) :
    eval step reply (x >>= f).run s = some (.error e, t) := by
  change eval step reply (x.run >>= _) s = _
  rw [eval_bind, h]
  rfl

theorem eval_attempt {f : Except ε α → ExceptT ε (Prog Op Res) β}
    (h : eval step reply x.run s = some (r, t)) :
    eval step reply (attempt x >>= f).run s = eval step reply (f r).run t := by
  refine eval_seq_ok ?_
  change eval step reply (x.run >>= _) s = _
  rw [eval_bind, h]
  rfl

theorem eval_rethrow {g : ε → ε'} (h : eval step reply x.run s = some (r, t)) :
    eval step reply (rethrow g x).run s = some (r.mapError g, t) := by
  change eval step reply (x.run >>= _) s = _
  rw [eval_bind, h]
  rfl

theorem eval_orThrow (h : y = .ok a) :
    eval step reply (orThrow y g : ExceptT ε (Prog Op Res) α).run s = some (.ok a, s) := by
  subst h
  rfl

theorem eval_orThrow_error {e : ε'} (h : y = .error e) :
    eval step reply (orThrow y g : ExceptT ε (Prog Op Res) α).run s = some (.error (g e), s) := by
  rw [h]
  rfl

theorem eval_ask {op : Op} {f : Res op → ExceptT ε (Prog Op Res) β}
    (h : step op s (reply op s) = some t) :
    eval step reply (Ramp.ask op >>= f).run s = eval step reply (f (reply op s)).run t := by
  change (step op s (reply op s)).bind _ = _
  rw [h]
  rfl

variable {c : Op → Bool} {m n : Nat}

/-- The calls of a sequence of two programs, counted. -/
theorem trail_seq_le (hx : (trail step reply x.run s).countP c ≤ m)
    (hf : ∀ a t, eval step reply x.run s = some (.ok a, t) →
      (trail step reply (f a).run t).countP c ≤ n) :
    (trail step reply (x >>= f).run s).countP c ≤ m + n := by
  change (trail step reply (x.run >>= _) s).countP c ≤ m + n
  rw [trail_bind, List.countP_append]
  refine Nat.add_le_add hx ?_
  cases hr : eval step reply x.run s with
  | none => exact Nat.zero_le n
  | some r =>
    obtain ⟨r, t⟩ := r
    cases r with
    | error e => exact Nat.zero_le n
    | ok a => exact hf a t hr

theorem Only.trail_count {P : Op → Prop} (hp : Only P p)
    (hc : ∀ op, P op → c op = false) : (trail step reply p s).countP c ≤ 0 := by
  rw [Nat.le_zero, List.countP_eq_zero]
  intro op hop hcop
  have hh := hc op (hp.of_trail hop)
  rw [hh] at hcop
  cases hcop

theorem trail_rethrow (g : ε → ε') :
    trail step reply (rethrow g x).run s = trail step reply x.run s := by
  change trail step reply (x.run >>= _) s = _
  rw [trail_bind]
  cases eval step reply x.run s with
  | none => exact List.append_nil _
  | some r => exact List.append_nil _

theorem trail_orThrow_le {y : Except ε' α} {g : ε' → ε}
    (hf : ∀ a, y = .ok a → (trail step reply (f a).run s).countP c ≤ n) :
    (trail step reply (orThrow y g >>= f).run s).countP c ≤ n := by
  cases y with
  | ok a => exact hf a rfl
  | error e => exact Nat.zero_le n

end Prog

end

variable {Res : Op → Type}

namespace Prog

variable (reply : (op : Op) → Res op)

def given : Prog Op Res α → α
  | ret a => a
  | call op next => (next (reply op)).given

def asks : Prog Op Res α → List Op
  | ret _ => []
  | call op next => op :: (next (reply op)).asks

theorem given_bind (p : Prog Op Res α) (f : α → Prog Op Res β) :
    (p >>= f).given reply = (f (p.given reply)).given reply := by
  induction p with
  | ret a => rfl
  | call op next ih => exact ih (reply op)

theorem asks_bind (p : Prog Op Res α) (f : α → Prog Op Res β) :
    (p >>= f).asks reply = p.asks reply ++ (f (p.given reply)).asks reply := by
  induction p with
  | ret a => rfl
  | call op next ih => exact congrArg (op :: ·) (ih (reply op))

variable {reply}

/-- Answers that leave the state as it is are those of a program that runs alone. -/
theorem eval_eq_given {step : (op : Op) → σ → Res op → Option σ} {p : Prog Op Res α} {s : σ}
    (h : ∀ op ∈ p.asks reply, step op s (reply op) = some s) :
    eval step (fun op _ => reply op) p s = some (p.given reply, s) := by
  induction p with
  | ret a => rfl
  | call op next ih =>
    change (step op s (reply op)).bind _ = _
    rw [h op List.mem_cons_self]
    exact ih (reply op) fun op' hop' => h op' (List.mem_cons_of_mem _ hop')

theorem Only.of_asks {P : Op → Prop} {p : Prog Op Res α} (hp : Only P p) {op : Op}
    (h : op ∈ p.asks reply) : P op := by
  induction p with
  | ret a => cases h
  | call op' next ih =>
    rcases List.mem_cons.mp h with rfl | h
    · exact hp.1
    · exact ih (reply op') (hp.2 _) h

variable {x : ExceptT ε (Prog Op Res) α} {f : α → ExceptT ε (Prog Op Res) β}

theorem given_seq_ok {a : α} (h : x.run.given reply = .ok a) :
    (x >>= f).run.given reply = (f a).run.given reply := by
  change Prog.given reply (x.run >>= _) = _
  rw [given_bind, h]
  rfl

theorem given_seq_error {e : ε} (h : x.run.given reply = .error e) :
    (x >>= f).run.given reply = .error e := by
  change Prog.given reply (x.run >>= _) = _
  rw [given_bind, h]
  rfl

theorem asks_seq_ok {a : α} (h : x.run.given reply = .ok a) :
    (x >>= f).run.asks reply = x.run.asks reply ++ (f a).run.asks reply := by
  change Prog.asks reply (x.run >>= _) = _
  rw [asks_bind, h]
  rfl

theorem asks_seq_error {e : ε} (h : x.run.given reply = .error e) :
    (x >>= f).run.asks reply = x.run.asks reply := by
  change Prog.asks reply (x.run >>= _) = _
  rw [asks_bind, h]
  exact List.append_nil _

theorem mem_asks_seq {op : Op} (h : op ∈ (x >>= f).run.asks reply) :
    op ∈ x.run.asks reply ∨ ∃ a, op ∈ (f a).run.asks reply := by
  cases ha : x.run.given reply with
  | error e =>
    rw [asks_seq_error ha] at h
    exact .inl h
  | ok a =>
    rw [asks_seq_ok ha] at h
    exact (List.mem_append.mp h).imp_right fun h => ⟨a, h⟩

theorem given_ask {op : Op} {f : Res op → ExceptT ε (Prog Op Res) β} :
    (ask op >>= f).run.given reply = (f (reply op)).run.given reply :=
  rfl

theorem given_attempt {f : Except ε α → ExceptT ε (Prog Op Res) β} :
    (attempt x >>= f).run.given reply = (f (x.run.given reply)).run.given reply := by
  refine given_seq_ok ?_
  change Prog.given reply (x.run >>= _) = _
  rw [given_bind]
  rfl

theorem asks_attempt {f : Except ε α → ExceptT ε (Prog Op Res) β} :
    (attempt x >>= f).run.asks reply =
      x.run.asks reply ++ (f (x.run.given reply)).run.asks reply := by
  have hg : (attempt x).run.given reply = .ok (x.run.given reply) := by
    change Prog.given reply (x.run >>= _) = _
    rw [given_bind]
    rfl
  have ha : (attempt x).run.asks reply = x.run.asks reply := by
    change Prog.asks reply (x.run >>= _) = _
    rw [asks_bind]
    exact List.append_nil _
  rw [asks_seq_ok hg, ha]

theorem given_rethrow {g : ε → ε'} :
    (rethrow g x).run.given reply = (x.run.given reply).mapError g := by
  change Prog.given reply (x.run >>= _) = _
  rw [given_bind]
  rfl

theorem asks_rethrow {g : ε → ε'} : (rethrow g x).run.asks reply = x.run.asks reply := by
  change Prog.asks reply (x.run >>= _) = _
  rw [asks_bind]
  exact List.append_nil _

theorem given_lift {p : Prog Op Res α} :
    (ExceptT.lift p >>= f).run.given reply = (f (p.given reply)).run.given reply := by
  refine given_seq_ok ?_
  change Prog.given reply (p >>= _) = _
  rw [given_bind]
  rfl

theorem asks_lift {p : Prog Op Res α} :
    (ExceptT.lift p >>= f).run.asks reply = p.asks reply ++ (f (p.given reply)).run.asks reply := by
  have hg : (ExceptT.lift p : ExceptT ε (Prog Op Res) α).run.given reply =
      .ok (p.given reply) := by
    change Prog.given reply (p >>= _) = _
    rw [given_bind]
    rfl
  have ha : (ExceptT.lift p : ExceptT ε (Prog Op Res) α).run.asks reply = p.asks reply := by
    change Prog.asks reply (p >>= _) = _
    rw [asks_bind]
    exact List.append_nil _
  rw [asks_seq_ok hg, ha]

end Prog

end Ramp
