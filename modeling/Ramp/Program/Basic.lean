import Mathlib.Logic.Function.Basic

/-! Programs that reach shared services only through calls and may fail with an error, and the
rules that specify them. -/

namespace Ramp

/-- A program over the calls `Op`, where `Res op` is what the call `op` replies. -/
inductive Prog (Op : Type) (Res : Op → Type) (α : Type)
  | ret (a : α)
  | call (op : Op) (next : Res op → Prog Op Res α)

/-- One call together with its reply. -/
structure Event (Op : Type) (Res : Op → Type) where
  op : Op
  res : Res op

instance {Op : Type} {Res : Op → Type} [DecidableEq Op] [∀ op, DecidableEq (Res op)] :
    DecidableEq (Event Op Res)
  | ⟨op, r⟩, ⟨op', r'⟩ =>
    if h : op = op' then
      if hr : h ▸ r = r' then isTrue (by subst h; subst hr; rfl)
      else isFalse (by rintro ⟨⟩; exact hr rfl)
    else isFalse (by rintro ⟨⟩; exact h rfl)

abbrev History (Op : Type) (Res : Op → Type) := List (Event Op Res)

variable {Op α β ε σ : Type}

namespace Prog

variable {Res : Op → Type}

def bind : Prog Op Res α → (α → Prog Op Res β) → Prog Op Res β
  | ret a, f => f a
  | call op next, f => call op (fun r => (next r).bind f)

instance : Monad (Prog Op Res) where
  pure := ret
  bind := bind

/-- The call the program is about to make. -/
def next? : Prog Op Res α → Option Op
  | ret _ => none
  | call op _ => some op

theorem next?_eq_some {p : Prog Op Res α} {op : Op} :
    p.next? = some op ↔ ∃ next, p = call op next := by
  cases p with
  | ret a => simp [next?]
  | call op' f =>
    simp only [next?, Option.some.injEq, call.injEq]
    constructor
    · rintro rfl
      exact ⟨f, rfl, HEq.rfl⟩
    · exact fun ⟨_, h, _⟩ => h

/-- What a finished program returned. -/
def result? : Prog Op Res α → Option α
  | ret a => some a
  | call _ _ => none

theorem result?_eq_some {p : Prog Op Res α} {a : α} : p.result? = some a ↔ p = ret a := by
  cases p <;> simp [result?]

/-- What a finished program returned, if it succeeded. -/
def ok? : Prog Op Res (Except ε α) → Option α
  | ret (.ok a) => some a
  | _ => none

variable {p : Prog Op Res (Except ε α)}

theorem ok?_eq_some {a : α} : p.ok? = some a ↔ p = ret (.ok a) := by
  rcases p with (e | b) | ⟨op, f⟩ <;> simp [ok?]

/-- The error a finished program returned, if it failed. -/
def error? : Prog Op Res (Except ε α) → Option ε
  | ret (.error e) => some e
  | _ => none

theorem error?_eq_some {e : ε} : p.error? = some e ↔ p = ret (.error e) := by
  rcases p with (e' | b) | ⟨op, f⟩ <;> simp [error?]

def perform (op : Op) : Prog Op Res (Res op) := call op ret

@[simp] theorem pure_eq (a : α) : (pure a : Prog Op Res α) = ret a := rfl

@[simp] theorem ret_bind (a : α) (f : α → Prog Op Res β) : ret a >>= f = f a := rfl

@[simp] theorem call_bind (op : Op) (next : Res op → Prog Op Res α) (f : α → Prog Op Res β) :
    call op next >>= f = call op (fun r => next r >>= f) := rfl

/-- Along every path the guard holds at each call and the postcondition at the
return, where `step` says which states a reply may lead to. -/
def Spec (step : (op : Op) → σ → Res op → Option σ) (G : σ → Op → Prop) (Q : σ → α → Prop) :
    Prog Op Res α → σ → Prop
  | ret a, s => Q s a
  | call op next, s => G s op ∧ ∀ r t, step op s r = some t → Spec step G Q (next r) t

variable {step : (op : Op) → σ → Res op → Option σ} {G G' : σ → Op → Prop}
  {Q Q' : σ → α → Prop} {p : Prog Op Res α} {s : σ} {I : σ → Prop}

theorem Spec.mono (h : Spec step G Q p s) (hG : ∀ t op, G t op → G' t op)
    (hQ : ∀ t a, Q t a → Q' t a) : Spec step G' Q' p s := by
  induction p generalizing s with
  | ret a => exact hQ s a h
  | call op next ih => exact ⟨hG s op h.1, fun r t hr => ih r (h.2 r t hr)⟩

theorem Spec.bind {Q : σ → β → Prop} {f : α → Prog Op Res β}
    (h : Spec step G (fun t a => Spec step G Q (f a) t) p s) : Spec step G Q (p >>= f) s := by
  induction p generalizing s with
  | ret a => exact h
  | call op next ih => exact ⟨h.1, fun r t hr => ih r (h.2 r t hr)⟩

theorem Spec.keep (h : Spec step G Q p s)
    (hstep : ∀ op s r t, G s op → I s → step op s r = some t → I t) (hs : I s) :
    Spec step G (fun t a => Q t a ∧ I t) p s := by
  induction p generalizing s with
  | ret a => exact ⟨h, hs⟩
  | call op next ih => exact ⟨h.1, fun r t hr => ih r (h.2 r t hr) (hstep op s r t h.1 hs hr)⟩

theorem Spec.of_inv (p : Prog Op Res α) (hstep : ∀ op s r t, I s → step op s r = some t → I t)
    (hG : ∀ s op, I s → G s op) (hs : I s) : Spec step G (fun t _ => I t) p s := by
  induction p generalizing s with
  | ret a => exact hs
  | call op next ih => exact ⟨hG s op hs, fun r t hr => ih r (hstep op s r t hs hr)⟩

theorem Spec.and (h : Spec step G Q p s) (h' : Spec step G' Q' p s) :
    Spec step (fun t op => G t op ∧ G' t op) (fun t a => Q t a ∧ Q' t a) p s := by
  induction p generalizing s with
  | ret a => exact ⟨h, h'⟩
  | call op next ih => exact ⟨⟨h.1, h'.1⟩, fun r t hr => ih r (h.2 r t hr) (h'.2 r t hr)⟩

end Prog

variable {ε' : Type}

section

variable {Res : Op → Type}

variable {x : Except ε α}

theorem Except.bind_eq_ok {f : α → Except ε β} {b : β} :
    x >>= f = .ok b ↔ ∃ a, x = .ok a ∧ f a = .ok b := by
  cases x with
  | error e => simp [Bind.bind, Except.bind]
  | ok a => simp [Bind.bind, Except.bind]

theorem Except.bind_eq_error {f : α → Except ε β} {e : ε} :
    x >>= f = .error e ↔ x = .error e ∨ ∃ a, x = .ok a ∧ f a = .error e := by
  cases x with
  | error e' => simp [Bind.bind, Except.bind]
  | ok a => simp [Bind.bind, Except.bind]

theorem Except.mapError_eq_ok {f : ε → ε'} {a : α} : x.mapError f = .ok a ↔ x = .ok a := by
  cases x with
  | error e => constructor <;> (intro h; cases h)
  | ok b => constructor <;> (intro h; cases h; rfl)

def ask (op : Op) : ExceptT ε (Prog Op Res) (Res op) := ExceptT.lift (Prog.perform op)

/-- The outcome of `x` as a value, failure included. -/
def attempt (x : ExceptT ε (Prog Op Res) α) : ExceptT ε (Prog Op Res) (Except ε α) :=
  ExceptT.lift x.run

def orThrow (x : Except ε' α) (f : ε' → ε) : ExceptT ε (Prog Op Res) α :=
  match x with
  | .ok a => pure a
  | .error e => throw (f e)

/-- `x` with its error mapped. -/
def rethrow (f : ε → ε') (x : ExceptT ε (Prog Op Res) α) : ExceptT ε' (Prog Op Res) α :=
  ExceptT.mk (x.run >>= fun r => .ret (r.mapError f))

end

namespace Prog

variable {Res : Op → Type} {L : Type}

variable {x : ExceptT ε (Prog Op Res) α}

section

variable {step : (op : Op) → σ → Res op → Option σ} {G : σ → Op → Prop} {Q : σ → Except ε β → Prop}
  {s : σ}

theorem Spec.pure {b : β} (h : Q s (.ok b)) :
    Spec step G Q (pure b : ExceptT ε (Prog Op Res) β).run s := h

theorem Spec.throw {e : ε} (h : Q s (.error e)) :
    Spec step G Q (throw e : ExceptT ε (Prog Op Res) β).run s := h

variable {R : σ → Except ε α → Prop} {f : α → ExceptT ε (Prog Op Res) β}

section

variable (hx : Spec step G R x.run s)
include hx

theorem Spec.seq (herr : ∀ t e, R t (.error e) → Q t (.error e))
    (hok : ∀ t a, R t (.ok a) → Spec step G Q (f a).run t) : Spec step G Q (x >>= f).run s := by
  refine .bind (hx.mono (fun _ _ hg => hg) fun t r hr => ?_)
  cases r with
  | ok a => exact hok t a hr
  | error e => exact herr t e hr

theorem Spec.attempt {f : Except ε α → ExceptT ε (Prog Op Res) β}
    (h : ∀ t r, R t r → Spec step G Q (f r).run t) : Spec step G Q (attempt x >>= f).run s := by
  refine .bind (.bind (hx.mono (fun _ _ hg => hg) fun t r hr => ?_))
  exact h t r hr

end

theorem Spec.lift {R : σ → α → Prop} {p : Prog Op Res α} (hp : Spec step G R p s)
    (h : ∀ t a, R t a → Spec step G Q (f a).run t) : Spec step G Q (ExceptT.lift p >>= f).run s :=
  Spec.bind (.bind (hp.mono (fun _ _ hg => hg) fun t a ha => h t a ha))

theorem Spec.orThrow {x : Except ε' α} {g : ε' → ε} (herr : ∀ e, x = .error e → Q s (.error (g e)))
    (hok : ∀ a, x = .ok a → Spec step G Q (f a).run s) :
    Spec step G Q (Ramp.orThrow x g >>= f).run s := by
  cases x with
  | ok a => exact hok a rfl
  | error e => exact herr e rfl

theorem Spec.ask {op : Op} {f : Res op → ExceptT ε (Prog Op Res) β} (hG : G s op)
    (h : ∀ r t, step op s r = some t → Spec step G Q (f r).run t) :
    Spec step G Q (Ramp.ask op >>= f).run s :=
  ⟨hG, h⟩

end

/-- A specification that says nothing about the errors. -/
def Yields (step : (op : Op) → σ → Res op → Option σ) (G : σ → Op → Prop) (P : σ → α → Prop)
    (x : ExceptT ε (Prog Op Res) α) (s : σ) : Prop :=
  Spec step G (fun t r => ∀ a, r = .ok a → P t a) x.run s

section

variable {step : (op : Op) → σ → Res op → Option σ} {G : σ → Op → Prop} {P : σ → α → Prop} {s : σ}

theorem Yields.pure {a : α} (h : P s a) :
    Yields step G P (pure a : ExceptT ε (Prog Op Res) α) s := by
  rintro b ⟨⟩
  exact h

theorem Yields.throw {e : ε} : Yields step G P (throw e : ExceptT ε (Prog Op Res) α) s := by
  rintro b ⟨⟩

variable {f : α → ExceptT ε (Prog Op Res) β}

theorem Yields.seq {P' : σ → β → Prop}
    (hx : Yields step G P x s) (hf : ∀ t a, P t a → Yields step G P' (f a) t) :
    Yields step G P' (x >>= f) s := by
  refine Spec.seq hx (fun t e _ b hb => ?_) fun t a ha => hf t a (ha a rfl)
  cases hb

theorem Yields.mono {P' : σ → α → Prop} (hx : Yields step G P x s)
    (h : ∀ t a, P t a → P' t a) : Yields step G P' x s :=
  Spec.mono hx (fun _ _ hg => hg) fun t _ hr a ha => h t a (hr a ha)

theorem Yields.rethrow {f : ε → ε'} (hx : Yields step G P x s) :
    Yields step G P (rethrow f x) s := by
  refine .bind (.mono hx (fun _ _ hg => hg) fun t r hr a ha => ?_)
  cases r with
  | ok b => exact hr a (by cases ha; rfl)
  | error e => cases ha

theorem Yields.check {P' : σ → β → Prop} {y : Except ε' α} {g : ε' → ε}
    (h : ∀ a, y = .ok a → Yields step G P' (f a) s) :
    Yields step G P' (Ramp.orThrow y g >>= f) s :=
  Spec.orThrow (fun _ _ _ => nofun) h

theorem Yields.orThrow {y : Except ε' α} {f : ε' → ε} (h : ∀ a, y = .ok a → P s a) :
    Yields step G P (Ramp.orThrow y f : ExceptT ε (Prog Op Res) α) s := by
  cases y with
  | ok a => exact .pure (h a rfl)
  | error e => exact .throw

end

/-- The step of a summary that no reply blocks. -/
def tracked (track : (op : Op) → L → Res op → L) (op : Op) (l : L) (r : Res op) : Option L :=
  some (track op l r)

variable {op : Op}

variable {track : (op : Op) → L → Res op → L}

theorem Spec.tell {G : L → Op → Prop}
    {Q : L → Except ε β → Prop} {l : L} {f : Res op → ExceptT ε (Prog Op Res) β}
    (hG : G l op) (h : ∀ r, Spec (tracked track) G Q (f r).run (track op l r)) :
    Spec (tracked track) G Q (Ramp.ask op >>= f).run l := by
  refine .ask hG fun r t ht => ?_
  cases ht
  exact h r

/-- Calls that satisfy `P` are allowed wherever `I` holds, and keep it. -/
structure Passes (step : (op : Op) → σ → Res op → Option σ) (G : σ → Op → Prop) (I : σ → Prop)
    (P : Op → Prop) : Prop where
  allows : ∀ s op, I s → P op → G s op
  keeps : ∀ op s r t, P op → I s → step op s r = some t → I t

variable {step : (op : Op) → σ → Res op → Option σ}

variable {G : σ → Op → Prop}

theorem Passes.ask {I : σ → Prop}
    {P : Op → Prop} (hp : Passes step G I P) {Q : σ → Except ε β → Prop} {s : σ}
    (hop : P op) (hs : I s) {f : Res op → ExceptT ε (Prog Op Res) β}
    (h : ∀ r t, I t → step op s r = some t → Spec step G Q (f r).run t) :
    Spec step G Q (Ramp.ask op >>= f).run s :=
  Spec.ask (hp.allows s op hs hop) fun r t ht => h r t (hp.keeps op s r t hop hs ht) ht

/-- Every call of the program satisfies `P`. -/
def Only (P : Op → Prop) : Prog Op Res α → Prop
  | ret _ => True
  | call op next => P op ∧ ∀ r, Only P (next r)

section

variable {P : Op → Prop}

variable {p : Prog Op Res α}

theorem Only.bind {f : α → Prog Op Res β} (hp : Only P p)
    (hf : ∀ a, Only P (f a)) : Only P (p >>= f) := by
  induction p with
  | ret a => exact hf a
  | call op next ih => exact ⟨hp.1, fun r => ih r (hp.2 r)⟩

theorem Only.mono {P' : Op → Prop} (hp : Only P p) (h : ∀ op, P op → P' op) : Only P' p := by
  induction p with
  | ret a => exact trivial
  | call op next ih => exact ⟨h op hp.1, fun r => ih r (hp.2 r)⟩

theorem Only.pure {b : β} : Only P (pure b : ExceptT ε (Prog Op Res) β).run := trivial

theorem Only.throw {e : ε} : Only P (throw e : ExceptT ε (Prog Op Res) β).run := trivial

theorem Only.seq {f : α → ExceptT ε (Prog Op Res) β} (hx : Only P x.run)
    (hf : ∀ a, Only P (f a).run) : Only P (x >>= f).run := by
  refine .bind hx fun r => ?_
  cases r with
  | ok a => exact hf a
  | error e => exact trivial

theorem Only.ask {f : Res op → ExceptT ε (Prog Op Res) β} (hop : P op)
    (hf : ∀ r, Only P (f r).run) : Only P (Ramp.ask op >>= f).run :=
  ⟨hop, hf⟩

theorem Only.attempt (hx : Only P x.run) : Only P (Ramp.attempt x).run :=
  Only.bind hx fun _ => trivial

theorem Only.rethrow {g : ε → ε'} (hx : Only P x.run) : Only P (Ramp.rethrow g x).run :=
  Only.bind hx fun _ => trivial

theorem Only.orThrow {x : Except ε' α} {g : ε' → ε} :
    Only P (Ramp.orThrow x g : ExceptT ε (Prog Op Res) α).run := by
  cases x <;> exact trivial

theorem Only.spec_of_passes {I : σ → Prop} (hp : Only P p) (hpass : Passes step G I P) {s : σ}
    (hs : I s) : Spec step G (fun t _ => I t) p s := by
  induction p generalizing s with
  | ret a => exact hs
  | call op next ih =>
    exact ⟨hpass.allows s op hs hp.1, fun r t ht => ih r (hp.2 r) (hpass.keeps op s r t hp.1 hs ht)⟩

/-- Where every reply is possible, what a guard asks of the calls holds of all of them. -/
theorem Spec.only {Q : σ → α → Prop} {s : σ} (h : Spec step G Q p s)
    (hstep : ∀ op s r, (step op s r).isSome = true) (hG : ∀ s op, G s op → P op) : Only P p := by
  induction p generalizing s with
  | ret a => trivial
  | call op next ih =>
    refine ⟨hG s op h.1, fun r => ?_⟩
    obtain ⟨t, ht⟩ := Option.isSome_iff_exists.mp (hstep op s r)
    exact ih r (h.2 r t ht)

/-- Calls that a summary ignores leave it as it was. -/
theorem Only.spec {G : L → Op → Prop}
    (hp : Only P p) (htrack : ∀ op l r, P op → track op l r = l) (hG : ∀ l op, P op → G l op)
    (l : L) : Spec (tracked track) G (fun l' _ => l' = l) p l := by
  induction p with
  | ret a => rfl
  | call op next ih =>
    refine ⟨hG l op hp.1, fun r t ht => ?_⟩
    cases ht
    rw [htrack op l r hp.1]
    exact ih r (hp.2 r)

end

/-- Whatever the calls reply, they satisfy `C`, and a result satisfies `P`. -/
abbrev Does (C : Op → Prop) (P : α → Prop) (x : ExceptT ε (Prog Op Res) α) : Prop :=
  Yields (tracked fun _ _ _ => ()) (fun _ => C) (fun _ => P) x ()

variable {C : Op → Prop} {P : α → Prop}

theorem Does.tell {f : Res op → ExceptT ε (Prog Op Res) α} (hop : C op)
    (h : ∀ r, Does C P (f r)) : Does C P (Ramp.ask op >>= f) :=
  Spec.tell hop h

theorem Does.any (hx : Only C x.run) : Does C (fun _ => True) x := by
  have hspec : Spec (tracked fun _ _ _ => ()) (fun _ => C) (fun l _ => l = ()) x.run () :=
    hx.spec (fun _ _ _ _ => rfl) (fun _ _ h => h) ()
  exact hspec.mono (fun _ _ h => h) fun _ _ _ _ _ => trivial

end Prog

end Ramp
