import Ramp.Program.Pool

/-! What a program may rely on: facts that a reply shows and no call undoes, what is left of it
after its own calls, and relations that hold the moves of the others. -/

namespace Ramp

variable {Op σ ι α ε : Type}

section

variable {Res : Op → Type} [DecidableEq ι] {step : (op : Op) → σ → Res op → Option σ}
  {env : σ → σ → Prop}

/-- A fact about the state that each event shows and no call and no environment step undoes. -/
structure Lasting (step : (op : Op) → σ → Res op → Option σ) (env : σ → σ → Prop)
    (Inv : σ → Prop) (Shows : Event Op Res → σ → Prop) : Prop where
  shown : ∀ s op r t, Inv s → step op s r = some t → Shows ⟨op, r⟩ t
  kept : ∀ s op r t e, Inv s → step op s r = some t → Shows e s → Shows e t
  moved : ∀ s t e, Inv s → env s t → Shows e s → Shows e t

variable {Shows : Event Op Res → σ → Prop} {c c' : Pool Op Res σ ι α}

/-- An invariant whose steps may use what the caller's own replies have shown. -/
theorem Run.invariant_shown {Inv : σ → Prop}
    {tr : Trace Op Res ι} {G : ι → History Op Res → Op → Prop}
    {Q : ι → History Op Res → α → Prop} (hl : Lasting step env Inv Shows)
    (hs : ∀ i, Prog.Spec recordCall (G i) (Q i) (c.threads i) []) (hr : Run step env c tr c')
    (init : Inv c.shared)
    (onCall : ∀ s i h op r t, Inv s → (∀ e ∈ h, Shows e s) → G i h op → step op s r = some t →
      Inv t) (onEnv : ∀ s t, Inv s → env s t → Inv t) :
    Inv c'.shared ∧ ∀ x ∈ tr, Shows x.2 c'.shared := by
  refine Run.invariant (fun tr s => Inv s ∧ ∀ x ∈ tr, Shows x.2 s) hs hr ⟨init, by simp⟩ ?_ ?_
  · intro tr s i op r t hinv hg hstep
    obtain ⟨hinv, hshown⟩ := hinv
    have hown : ∀ e ∈ tr.own i, Shows e s := fun e he => hshown (i, e) (Trace.mem_own.mp he)
    refine ⟨onCall s i _ op r t hinv hown hg hstep, fun x hx => ?_⟩
    rcases List.mem_append.mp hx with hx | hx
    · exact hl.kept s op r t x.2 hinv hstep (hshown x hx)
    · obtain rfl := List.mem_singleton.mp hx
      exact hl.shown s op r t hinv hstep
  · intro tr s t hinv hmove
    exact ⟨onEnv s t hinv.1 hmove, fun x hx => hl.moved s t x.2 hinv.1 hmove (hinv.2 x hx)⟩

/-- The same for programs that make only calls that undo nothing. -/
theorem Run.shown_of_only {P : Op → Prop} {tr : Trace Op Res ι} (hp : ∀ i, (c.threads i).Only P)
    (hr : Run step env c tr c') (shown : ∀ s op r t, P op → step op s r = some t → Shows ⟨op, r⟩ t)
    (kept : ∀ s op r t e, P op → step op s r = some t → Shows e s → Shows e t)
    (moved : ∀ s t e, env s t → Shows e s → Shows e t) : ∀ x ∈ tr, Shows x.2 c'.shared := by
  have hs : ∀ i, Prog.Spec recordCall (fun _ => P) (fun _ _ => True) (c.threads i) [] := by
    intro i
    have hpass : Prog.Passes recordCall (fun _ : History Op Res => P) (fun _ => True) P :=
      ⟨fun _ _ _ h => h, fun _ _ _ _ _ _ _ => trivial⟩
    exact (hp i).spec_of_passes hpass trivial
  refine Run.invariant (fun tr s => ∀ x ∈ tr, Shows x.2 s) hs hr (by simp) ?_ ?_
  · intro tr s i op r t hinv hop hstep x hx
    rcases List.mem_append.mp hx with hx | hx
    · exact kept s op r t x.2 hop hstep (hinv x hx)
    · obtain rfl := List.mem_singleton.mp hx
      exact shown s op r t hop hstep
  · exact fun tr s t hinv hmove x hx => moved s t x.2 hmove (hinv x hx)

variable {Shows : Event Op Res → σ → Prop} {G : History Op Res → Op → Prop}

/-- What the calls of a history show of the state. -/
def Told (Shows : Event Op Res → σ → Prop) (h : History Op Res) (φ : σ → Prop) : Prop :=
  ∀ s, (∀ e ∈ h, Shows e s) → φ s

variable {φ : σ → Prop}

theorem Told.mono {h h' : History Op Res} (ht : Told Shows h φ) (hle : h <+: h') :
    Told Shows h' φ :=
  fun s hs => ht s fun e he => hs e (hle.subset he)

theorem Told.last {h : History Op Res} {e : Event Op Res}
    (he : ∀ s, Shows e s → φ s) : Told Shows (h ++ [e]) φ :=
  fun s hs => he s (hs e (by simp))

theorem Prog.Yields.told {P : History Op Res → α → Prop} {x : ExceptT ε (Prog Op Res) α}
    {h : History Op Res} (hx : Prog.Yields recordCall G P x h)
    (ht : Told Shows h φ) : Prog.Yields recordCall G (fun h' a => P h' a ∧ Told Shows h' φ) x h :=
  hx.grows.mono fun _ _ hp => ⟨hp.1, ht.mono hp.2⟩

end

section

variable {Res : Op → Type}

/-- What is left of a program after the given calls, if it makes them. -/
def Prog.after [DecidableEq Op] : Prog Op Res α → History Op Res → Option (Prog Op Res α)
  | p, [] => some p
  | .ret _, _ :: _ => none
  | .call op next, e :: h => if hop : e.op = op then (next (hop ▸ e.res)).after h else none

theorem Prog.after_snoc [DecidableEq Op] {p : Prog Op Res α} {h : History Op Res} {op : Op}
    {next : Res op → Prog Op Res α} (hp : p.after h = some (.call op next)) (r : Res op) :
    p.after (h ++ [⟨op, r⟩]) = some (next r) := by
  induction h generalizing p with
  | nil =>
    obtain rfl := Option.some.inj ((Prog.after.eq_1 p).symm.trans hp)
    simp [Prog.after]
  | cons e h ih =>
    cases p with
    | ret a => simp [Prog.after] at hp
    | call op' next' =>
      simp only [Prog.after] at hp
      split_ifs at hp with hop
      have hh := ih hp
      simpa [Prog.after, hop] using hh

/-- The call that program `i` of the pool is about to make after the calls `tr`. -/
def Pool.about [DecidableEq Op] [DecidableEq ι] (c : Pool Op Res σ ι α) (tr : Trace Op Res ι)
    (i : ι) : Option Op :=
  ((c.threads i).after (tr.own i)).bind Prog.next?

variable [DecidableEq Op] [DecidableEq ι] {step : (op : Op) → σ → Res op → Option σ}
  {env : σ → σ → Prop}

variable {c c' : Pool Op Res σ ι α} {tr : Trace Op Res ι}

theorem Run.after (hr : Run step env c tr c') (i : ι) :
    (c.threads i).after (tr.own i) = some (c'.threads i) := by
  induction hr with
  | start => cases c.threads i <;> rfl
  | @call tr c' j op next r s run head reply ih =>
    by_cases hj : j = i
    · subst hj
      rw [head] at ih
      simpa using Prog.after_snoc ih r
    · simpa [hj, Function.update_of_ne (Ne.symm hj)] using ih
  | env run move ih => exact ih

theorem Run.about (hr : Run step env c tr c') (i : ι) : c.about tr i = (c'.threads i).next? := by
  rw [Pool.about, hr.after i]
  rfl

omit [DecidableEq Op] in
/-- The call that a program is about to make meets its guard. -/
theorem Run.next_guarded {G : ι → History Op Res → Op → Prop} {Q : ι → History Op Res → α → Prop}
    (hs : ∀ i, Prog.Spec recordCall (G i) (Q i) (c.threads i) []) (hr : Run step env c tr c')
    {i : ι} {op : Op} (h : (c'.threads i).next? = some op) : G i (tr.own i) op := by
  obtain ⟨next, hp⟩ := Prog.next?_eq_some.mp h
  have hspec := hr.spec hs i
  rw [hp] at hspec
  exact hspec.1

end

namespace Prog

variable {Res : Op → Type} {β ε' : Type}

/-- Along every path the guard holds at each call and the postcondition at the return,
where `rel` relates the states before and after a call with its reply. -/
def Meets (rel : (op : Op) → σ → Res op → σ → Prop) (G : σ → Op → Prop) (Q : σ → α → Prop) :
    Prog Op Res α → σ → Prop
  | ret a, s => Q s a
  | call op next, s => G s op ∧ ∀ r t, rel op s r t → Meets rel G Q (next r) t

variable {rel : (op : Op) → σ → Res op → σ → Prop} {G : σ → Op → Prop} {s : σ}
  {p : Prog Op Res α} {P : α → Prop}

theorem Meets.mono {Q Q' : σ → α → Prop} (h : Meets rel G Q p s) (hQ : ∀ t a, Q t a → Q' t a) :
    Meets rel G Q' p s := by
  induction p generalizing s with
  | ret a => exact hQ s a h
  | call op next ih => exact ⟨h.1, fun r t hr => ih r (h.2 r t hr)⟩

theorem Meets.bind {P : σ → α → Prop} {Q : σ → β → Prop} {f : α → Prog Op Res β}
    (h : Meets rel G P p s) (hf : ∀ t a, P t a → Meets rel G Q (f a) t) :
    Meets rel G Q (p >>= f) s := by
  induction p generalizing s with
  | ret a => exact hf s a h
  | call op next ih => exact ⟨h.1, fun r t hr => ih r (h.2 r t hr)⟩

theorem Meets.perform {Q : σ → β → Prop} {op : Op} {f : Res op → Prog Op Res β} (hG : G s op)
    (h : ∀ r t, rel op s r t → Meets rel G Q (f r) t) : Meets rel G Q (Prog.perform op >>= f) s :=
  ⟨hG, h⟩

theorem Meets.of_only {I : σ → Prop} {P : Op → Prop} (hp : Only P p)
    (hG : ∀ t op, P op → I t → G t op) (hrel : ∀ op t r u, P op → I t → rel op t r u → I u)
    (hs : I s) : Meets rel G (fun t _ => I t) p s := by
  induction p generalizing s with
  | ret a => exact hs
  | call op next ih =>
    exact ⟨hG s op hp.1 hs, fun r t hr => ih r (hp.2 r) (hrel op s r t hp.1 hs hr)⟩

variable {Q : σ → Except ε β → Prop}

theorem Meets.pure {b : β} (h : Q s (.ok b)) :
    Meets rel G Q (pure b : ExceptT ε (Prog Op Res) β).run s := h

theorem Meets.throw {e : ε} (h : Q s (.error e)) :
    Meets rel G Q (throw e : ExceptT ε (Prog Op Res) β).run s := h

variable {P : σ → Except ε α → Prop} {x : ExceptT ε (Prog Op Res) α}
  {f : α → ExceptT ε (Prog Op Res) β} {g : ε' → ε}

theorem Meets.seq (hx : Meets rel G P x.run s) (herr : ∀ t e, P t (.error e) → Q t (.error e))
    (hok : ∀ t a, P t (.ok a) → Meets rel G Q (f a).run t) : Meets rel G Q (x >>= f).run s := by
  refine .bind hx fun t r hr => ?_
  cases r with
  | ok a => exact hok t a hr
  | error e => exact herr t e hr

theorem Meets.attempt {f : Except ε α → ExceptT ε (Prog Op Res) β} (hx : Meets rel G P x.run s)
    (h : ∀ t r, P t r → Meets rel G Q (f r).run t) : Meets rel G Q (attempt x >>= f).run s := by
  have hrun : Meets rel G (fun t r => ∃ a, r = .ok a ∧ P t a) (Ramp.attempt x).run s :=
    Meets.bind hx fun t r hr => ⟨r, rfl, hr⟩
  refine .seq hrun (fun t e he => ?_) fun t r hr => ?_
  · obtain ⟨a, ha, -⟩ := he
    cases ha
  · obtain ⟨a, ha, hp⟩ := hr
    cases ha
    exact h t r hp

theorem Meets.rethrow {P : σ → Except ε' β → Prop} {x : ExceptT ε' (Prog Op Res) β}
    (hx : Meets rel G P x.run s) (h : ∀ t r, P t r → Q t (r.mapError g)) :
    Meets rel G Q (Ramp.rethrow g x).run s :=
  Meets.bind hx h

theorem Meets.orThrow {x : Except ε' α} (herr : ∀ e, x = .error e → Q s (.error (g e)))
    (hok : ∀ a, x = .ok a → Meets rel G Q (f a).run s) :
    Meets rel G Q (Ramp.orThrow x g >>= f).run s := by
  cases x with
  | ok a => exact hok a rfl
  | error e => exact herr e rfl

theorem Meets.ask {op : Op} {f : Res op → ExceptT ε (Prog Op Res) β} (hG : G s op)
    (h : ∀ r t, rel op s r t → Meets rel G Q (f r).run t) :
    Meets rel G Q (Ramp.ask op >>= f).run s :=
  ⟨hG, h⟩

end Prog

end Ramp
