import Ramp.Identity.Requests

/-! Requests, invalidations and revocations of any number over one cache. Every build in
progress has one leader, and what a cache may serve stays good as long as what is stored
is good. -/

namespace Ramp.Identity

open Function (update update_apply update_eq_self update_of_ne update_self)

open Prog

def Outside (op : Call) : Prop :=
  ∀ c, op = .cache c →
    ∃ name, c = .bumpGen name ∨ c = .deletePositive name ∨ c = .deleteNegative name

inductive Cache.Drops (c : Cache) : Cache → Prop
  | same : Drops c c
  | gen (name : String) :
      Drops c { c with gen := update c.gen name (c.gen name + 1) }
  | positive (name : String) :
      Drops c { c with positive := update c.positive name none }
  | negative (name : String) : Drops c { c with negative := c.negative.erase name }

variable {name : String}

theorem Cache.Drops.positive_of {c c' : Cache} (h : c.Drops c') {e : Entry}
    (he : c'.positive name = some e) : c.positive name = some e := by
  cases h with
  | positive other =>
    simp only [update_apply] at he
    split_ifs at he
    exact he
  | _ => exact he

theorem Cache.Drops.negative_of {c c' : Cache} (h : c.Drops c') {a : Absence}
    (ha : c'.negative.get? name = some a) : c.negative.get? name = some a := by
  cases h with
  | negative other =>
    simp only [Table.get?_erase] at ha
    split_ifs at ha
    exact ha
  | _ => exact ha

variable {op : Call}

theorem step_drops {r : Reply op} {s t : State} (hop : Outside op) (h : step op s r = some t) :
    s.cache.Drops t.cache := by
  cases op with
  | cache c =>
    have hc := step_cache h
    obtain ⟨name, rfl | rfl | rfl⟩ := hop c rfl
    · rw [← Option.some.inj hc]
      exact .gen name
    · rw [← Option.some.inj hc]
      exact .positive name
    · rw [← Option.some.inj hc]
      exact .negative name
  | _ =>
    rw [step_cache_same (by simp) h]
    exact .same

inductive PublishTask
  | request (sub : String)
  | invalidate (sub : String)
  | revoke (sub thumbprint : String)
  deriving DecidableEq

inductive PublishOutcome
  | docs (b : Built)
  | invalidated
  | revoked (r : Except RevokeError Unit)
  deriving DecidableEq

namespace PublishTask

def prog (cfg : Publisher.Config) : PublishTask → Program PublishOutcome
  | request sub => do
    let b ← Publisher.get cfg sub
    pure (.docs b)
  | invalidate sub => do
    Identity.invalidate sub
    pure .invalidated
  | revoke sub thumbprint => do
    let r ← (Revoker.revoke sub thumbprint).run
    pure (.revoked r)

end PublishTask

def stageOf (h : Log) : Stage := History.summary Stage.track .start h

def InvalidateGuard (sub : String) (h : Log) (op : Call) : Prop :=
  h.length = 0 ∧ op = .cache (.bumpGen sub) ∨
    h.length = 1 ∧ op = .cache (.deletePositive sub) ∨
    h.length = 2 ∧ op = .cache (.deleteNegative sub)

def RevokeGuard (h : Log) (op : Call) : Prop :=
  Outside op ∧ ∀ sub thumbprint n, op = .table (.revoke sub thumbprint n) →
    (⟨.unixNano, n⟩ : Event Call Reply) ∈ h

namespace PublishTask

def Guard : PublishTask → Log → Call → Prop
  | request sub, h, op => MayCall sub (stageOf h) op
  | invalidate sub, h, op => InvalidateGuard sub h op
  | revoke _ _, h, op => RevokeGuard h op

def Returns : PublishTask → Log → PublishOutcome → Prop
  | request sub, h, r => ∃ b, r = .docs b ∧ MayReturn sub (stageOf h) b
  | invalidate _, h, _ => h.length = 3
  | revoke _ _, _, _ => True

end PublishTask

variable {h : Log}

def Plain (op : Call) : Prop :=
  Outside op ∧ ∀ sub thumbprint n, op ≠ .table (.revoke sub thumbprint n)

theorem Plain.spec {α : Type} {p : Program α} (hp : p.Only Plain) (h : Log) :
    Spec recordCall RevokeGuard (fun _ _ => True) p h := by
  refine hp.spec_of_passes (I := fun _ => True) ⟨?_, ?_⟩ trivial
  · exact fun _ _ _ hop => ⟨hop.1, fun _ _ _ he => absurd he (hop.2 _ _ _)⟩
  · exact fun _ _ _ _ _ _ _ => trivial

theorem Plain.of_not_cache (hc : ∀ c, op ≠ .cache c)
    (hr : ∀ sub thumbprint n, op ≠ .table (.revoke sub thumbprint n)) : Plain op :=
  ⟨fun c hop => absurd hop (hc c), hr⟩

theorem Looks.plain (h : Looks op) : Plain op := by
  rcases h with ⟨_, rfl⟩ | ⟨_, rfl⟩ <;> exact Plain.of_not_cache (by simp) (by simp)

theorem Revocations.bySubdomain_plain (sub : String) :
    (Revocations.bySubdomain sub).run.Only Plain := by
  refine .ask (Plain.of_not_cache (by simp) (by simp)) fun answer => ?_
  split <;> trivial

theorem Revoker.belongsToAgent_plain (sub thumbprint : String) :
    (belongsToAgent sub thumbprint).run.Only Plain := by
  have hlist := (KeyStore.list_looks sub).mono fun _ h => h.plain
  refine .seq (.attempt (.rethrow hlist)) fun keys => ?_
  split
  · trivial
  · trivial
  · split_ifs
    · trivial
    · exact .seq (.rethrow (Revocations.bySubdomain_plain sub)) fun _ => trivial

theorem KeyStore.destroy_plain (ref : Ref) : (destroy ref).run.Only Plain := by
  refine .seq Only.orThrow fun _ =>
    Only.ask (Plain.of_not_cache (by simp) (by simp)) fun answer => ?_
  split <;> trivial

theorem invalidate_plain (sub : String) : (invalidate sub).Only Plain := by
  refine ⟨⟨?_, by simp⟩, fun _ => ⟨⟨?_, by simp⟩, fun _ => ⟨⟨?_, by simp⟩, fun _ => trivial⟩⟩⟩
  · rintro c ⟨⟩
    exact ⟨sub, .inl rfl⟩
  · rintro c ⟨⟩
    exact ⟨sub, .inr (.inl rfl)⟩
  · rintro c ⟨⟩
    exact ⟨sub, .inr (.inr rfl)⟩

theorem Revoker.revoke_spec (sub thumbprint : String) (h : Log) :
    Spec recordCall RevokeGuard (fun _ _ => True) (revoke sub thumbprint).run h := by
  refine .orThrow (fun _ _ => trivial) fun _ _ => ?_
  refine .seq (Plain.spec (belongsToAgent_plain sub thumbprint) h)
    (fun _ _ _ => trivial) fun h₁ known _ => ?_
  split_ifs
  · refine .ask ⟨(fun c hc => by cases hc), by simp⟩ fun n h₂ ht => ?_
    cases ht
    have hrevoke : Spec recordCall RevokeGuard (fun _ _ => True)
        (rethrow RevokeError.store (Revocations.revoke sub thumbprint n)).run
        (h₁ ++ [⟨.unixNano, n⟩]) := by
      refine .bind (.ask ⟨(fun c hc => by cases hc), ?_⟩ fun w t _ => ?_)
      · rintro _ _ _ ⟨⟩
        simp
      · split <;> trivial
    refine .seq hrevoke (fun _ _ _ => trivial) fun h₃ _ _ => ?_
    refine .attempt (Plain.spec (.rethrow (KeyStore.destroy_plain _)) h₃) fun h₄ _ _ => ?_
    exact .bind ((Plain.spec (invalidate_plain sub) h₄).mono (fun _ _ hg => hg)
      fun _ _ _ => trivial)
  · trivial

theorem invalidate_spec (sub : String) :
    Spec recordCall (InvalidateGuard sub) (fun h _ => h.length = 3) (invalidate sub) [] := by
  refine ⟨.inl ⟨rfl, rfl⟩, fun _ t ht => ?_⟩
  cases ht
  refine ⟨.inr (.inl ⟨rfl, rfl⟩), fun _ t ht => ?_⟩
  cases ht
  refine ⟨.inr (.inr ⟨rfl, rfl⟩), fun _ t ht => ?_⟩
  cases ht
  exact rfl

theorem PublishTask.prog_spec (cfg : Publisher.Config) (task : PublishTask) :
    Spec recordCall task.Guard task.Returns (task.prog cfg) [] := by
  cases task with
  | request sub =>
    have hget : Spec (tracked Stage.track) (MayCall sub) (MayReturn sub)
        (Publisher.get cfg sub) (History.summary Stage.track .start []) :=
      Publisher.get_spec
    exact .bind (hget.history.mono (fun _ _ hg => hg) fun h b hb => ⟨b, rfl, hb⟩)
  | invalidate sub =>
    exact .bind ((invalidate_spec sub).mono (fun _ _ hg => hg) fun h _ hh => hh)
  | revoke sub thumbprint =>
    exact .bind ((Revoker.revoke_spec sub thumbprint []).mono (fun _ _ hg => hg)
      fun _ _ _ => trivial)

theorem Outside.track_start (h : Outside op) (r : Reply op) : Stage.track op .start r = .start := by
  cases op with
  | cache c =>
    obtain ⟨name, rfl | rfl | rfl⟩ := h c rfl <;> rfl
  | table c => cases c <;> rfl
  | _ => rfl

theorem InvalidateGuard.outside {sub : String} (hg : InvalidateGuard sub h op) : Outside op := by
  intro c hop
  rcases hg with ⟨-, rfl⟩ | ⟨-, rfl⟩ | ⟨-, rfl⟩ <;> cases hop
  · exact ⟨sub, .inl rfl⟩
  · exact ⟨sub, .inr (.inl rfl)⟩
  · exact ⟨sub, .inr (.inr rfl)⟩

theorem PublishTask.outside {task : PublishTask} (hg : task.Guard h op)
    (htask : ∀ name, task ≠ .request name) : Outside op := by
  cases task with
  | request name => exact absurd rfl (htask name)
  | invalidate name => exact InvalidateGuard.outside hg
  | revoke name thumbprint => exact hg.1

/-! Builds in progress. -/

variable {f : ℕ} {b : Built}

section

variable {ι : Type} [DecidableEq ι]

structure Flying (tasks : ι → PublishTask) (stages : ι → Stage) (c : Cache) : Prop where
  outside : ∀ i, (∀ name, tasks i ≠ .request name) → stages i = .start
  leads : ∀ i name f, tasks i = .request name → (stages i).leads = some f →
    c.flights name = some f
  unique : ∀ i j f, (stages i).leads = some f → (stages j).leads = some f → i = j
  below : ∀ name f, c.flights name = some f → f < c.nextFlight
  distinct : ∀ name name' f, c.flights name = some f → c.flights name' = some f → name = name'
  pending : ∀ name f, c.flights name = some f → c.results f = none
  future : ∀ f, c.nextFlight ≤ f → c.results f = none
  joined : ∀ i name f, tasks i = .request name → stages i = .joined f →
    c.flights name = some f ∨ (c.results f).isSome = true

variable {tasks : ι → PublishTask} {stages : ι → Stage} {c c' : Cache} {i : ι} {name : String}
  {st : Stage} {now : ℤ} {list : RevocationList}

omit [DecidableEq ι] in
theorem Flying.request_of_leads (h : Flying tasks stages c) (hl : (stages i).leads = some f) :
    ∃ name, tasks i = .request name := by
  by_contra hno
  have hstart := h.outside i fun name he => hno ⟨name, he⟩
  rw [hstart] at hl
  cases hl

theorem Flying.same (h : Flying tasks stages c) (hi : tasks i = .request name)
    (hflights : c'.flights = c.flights) (hnext : c'.nextFlight = c.nextFlight)
    (hresults : c'.results = c.results) (hleads : st.leads = (stages i).leads)
    (hjoined : ∀ f, st = .joined f → c.flights name = some f ∨ (c.results f).isSome = true) :
    Flying tasks (update stages i st) c' := by
  have hsame : ∀ j, (update stages i st j).leads = (stages j).leads := by
    intro j
    by_cases hj : j = i
    · subst hj
      simpa using hleads
    · rw [update_of_ne hj]
  refine ⟨fun j hj => ?_, fun j n f hj hl => ?_, fun j k f hj hk => ?_, ?_, ?_, ?_, ?_,
    fun j n f hj hs => ?_⟩
  · by_cases hji : j = i
    · subst hji
      exact absurd hi (hj name)
    · rw [update_of_ne hji]
      exact h.outside j hj
  · rw [hsame] at hl
    rw [hflights]
    exact h.leads j n f hj hl
  · rw [hsame] at hj hk
    exact h.unique j k f hj hk
  · rw [hflights, hnext]
    exact h.below
  · rw [hflights]
    exact h.distinct
  · rw [hflights, hresults]
    exact h.pending
  · rw [hnext, hresults]
    exact h.future
  · rw [hflights, hresults]
    by_cases hji : j = i
    · subst hji
      rw [hi] at hj
      cases hj
      rw [update_self] at hs
      exact hjoined f hs
    · rw [update_of_ne hji] at hs
      exact h.joined j n f hj hs

theorem Flying.outside_update (h : Flying tasks stages c) (hi : tasks i = .request name) {j : ι}
    (hj : ∀ name, tasks j ≠ .request name) : update stages i st j = .start := by
  have hji : j ≠ i := by
    rintro rfl
    exact hj name hi
  rw [update_of_ne hji]
  exact h.outside j hj

theorem Flying.lead (h : Flying tasks stages c) (hi : tasks i = .request name)
    (hfree : c.flights name = none) :
    Flying tasks (update stages i (.leading c.nextFlight))
      { c with flights := update c.flights name (some c.nextFlight)
               nextFlight := c.nextFlight + 1 } := by
  have hnew : ∀ n, c.flights n ≠ some c.nextFlight :=
    fun n hn => lt_irrefl _ (h.below n _ hn)
  have hnone : ∀ j, (stages j).leads ≠ some c.nextFlight := by
    intro j hj
    obtain ⟨n, hn⟩ := h.request_of_leads hj
    exact hnew n (h.leads j n _ hn hj)
  have hother : ∀ n f, c.flights n = some f →
      update c.flights name (some c.nextFlight) n = some f := by
    intro n f hn
    have hne : n ≠ name := by
      rintro rfl
      rw [hfree] at hn
      cases hn
    rw [update_of_ne hne, hn]
  have hcases : ∀ n f, update c.flights name (some c.nextFlight) n = some f →
      n = name ∧ f = c.nextFlight ∨ c.flights n = some f := by
    intro n f hn
    by_cases hne : n = name
    · subst hne
      rw [update_self] at hn
      exact .inl ⟨rfl, (Option.some.inj hn).symm⟩
    · rw [update_of_ne hne] at hn
      exact .inr hn
  refine ⟨fun j hj => h.outside_update hi hj, fun j n f hj hl => ?_, fun j k f hj hk => ?_,
    fun n f hn => ?_, fun n n' f hn hn' => ?_, fun n f hn => ?_, fun f hf => ?_,
    fun j n f hj hs => ?_⟩
  · by_cases hji : j = i
    · subst hji
      rw [hi] at hj
      cases hj
      rw [update_self] at hl
      cases hl
      exact update_self _ _ _
    · rw [update_of_ne hji] at hl
      exact hother n f (h.leads j n f hj hl)
  · by_cases hji : j = i <;> by_cases hki : k = i
    · rw [hji, hki]
    · rw [hji, update_self] at hj
      rw [update_of_ne hki] at hk
      exact absurd (hk.trans hj.symm) (hnone k)
    · rw [hki, update_self] at hk
      rw [update_of_ne hji] at hj
      exact absurd (hj.trans hk.symm) (hnone j)
    · rw [update_of_ne hji] at hj
      rw [update_of_ne hki] at hk
      exact h.unique j k f hj hk
  · change f < c.nextFlight + 1
    rcases hcases n f hn with ⟨-, rfl⟩ | hn
    · omega
    · have hlt := h.below n f hn
      omega
  · rcases hcases n f hn with ⟨hname, hf⟩ | hold <;>
      rcases hcases n' f hn' with ⟨hname', hf'⟩ | hold'
    · rw [hname, hname']
    · exact absurd (hf ▸ hold') (hnew n')
    · exact absurd (hf' ▸ hold) (hnew n)
    · exact h.distinct n n' f hold hold'
  · rcases hcases n f hn with ⟨-, rfl⟩ | hn
    · exact h.future _ (le_refl _)
    · exact h.pending n f hn
  · exact h.future f (Nat.le_of_succ_le hf)
  · by_cases hji : j = i
    · rw [hji, update_self] at hs
      cases hs
    · rw [update_of_ne hji] at hs
      exact (h.joined j n f hj hs).imp_left (hother n f)

theorem Flying.leave (h : Flying tasks stages c) (hi : tasks i = .request name)
    (hst : (stages i).leads = some f) :
    Flying tasks (update stages i (.left f b))
      { c with flights := update c.flights name none
               results := update c.results f (some b) } := by
  have hname := h.leads i name f hi hst
  have hcases : ∀ n g, update c.flights name none n = some g →
      n ≠ name ∧ g ≠ f ∧ c.flights n = some g := by
    intro n g hn
    by_cases hne : n = name
    · subst hne
      simp at hn
    · rw [update_of_ne hne] at hn
      refine ⟨hne, ?_, hn⟩
      rintro rfl
      exact hne (h.distinct n name g hn hname)
  have hleads : ∀ j g, (update stages i (.left f b) j).leads = some g →
      j ≠ i ∧ (stages j).leads = some g := by
    intro j g hj
    by_cases hji : j = i
    · rw [hji, update_self] at hj
      cases hj
    · rw [update_of_ne hji] at hj
      exact ⟨hji, hj⟩
  refine ⟨fun j hj => h.outside_update hi hj, fun j n g hj hl => ?_, fun j k g hj hk => ?_,
    fun n g hn => ?_, fun n n' g hn hn' => ?_, fun n g hn => ?_, fun g hg => ?_,
    fun j n g hj hs => ?_⟩
  · obtain ⟨hji, hl⟩ := hleads j g hl
    have hn := h.leads j n g hj hl
    have hne : n ≠ name := by
      rintro rfl
      rw [hname] at hn
      exact hji (h.unique j i f (Option.some.inj hn ▸ hl) hst)
    change update c.flights name none n = some g
    rw [update_of_ne hne, hn]
  · exact h.unique j k g (hleads j g hj).2 (hleads k g hk).2
  · exact h.below n g (hcases n g hn).2.2
  · exact h.distinct n n' g (hcases n g hn).2.2 (hcases n' g hn').2.2
  · obtain ⟨-, hgf, hn⟩ := hcases n g hn
    change update c.results f (some b) g = none
    rw [update_of_ne hgf]
    exact h.pending n g hn
  · have hgf : g ≠ f := by
      rintro rfl
      exact absurd (h.below name g hname) (not_lt.mpr hg)
    change update c.results f (some b) g = none
    rw [update_of_ne hgf]
    exact h.future g hg
  · have hji : j ≠ i := by
      rintro rfl
      rw [update_self] at hs
      cases hs
    rw [update_of_ne hji] at hs
    change update c.flights name none n = some g ∨
      (update c.results f (some b) g).isSome = true
    by_cases hgf : g = f
    · rw [hgf, update_self]
      exact .inr rfl
    · rw [update_of_ne hgf]
      refine (h.joined j n g hj hs).imp_left fun hn => ?_
      have hne : n ≠ name := by
        rintro rfl
        rw [hname] at hn
        exact hgf (Option.some.inj hn).symm
      rw [update_of_ne hne, hn]

theorem Flying.acts (h : Flying tasks stages c) (hi : tasks i = .request name)
    (ha : Acts name now list c (stages i) c' st) :
    Flying tasks (update stages i st) c' := by
  generalize hold : stages i = old at ha
  cases ha with
  | lead free => exact h.lead hi free
  | leave _ f b leads holds => exact h.leave hi (hold ▸ leads)
  | idle =>
    refine h.same hi rfl rfl rfl (by rw [hold]) fun f hf => ?_
    exact h.joined i name f hi (hold.trans hf)
  | join f busy =>
    refine h.same hi rfl rfl rfl (by rw [hold]; rfl) fun g hg => ?_
    cases hg
    exact .inl busy
  | unknown _ forgets | findNothing _ f forgets =>
    rcases forgets with rfl | rfl <;>
      exact h.same hi rfl rfl rfl (by rw [hold]) fun _ hf => by cases hf
  | store _ f gen l d own read stores =>
    cases stores <;>
      exact h.same hi rfl rfl rfl (by rw [hold]; rfl) fun _ hf => by cases hf
  | nothing | peek | stale | hit | absent | answer | lookNothing | look | chill | find
  | _ =>
    exact h.same hi rfl rfl rfl (by rw [hold]; rfl) fun _ hf => by cases hf

omit [DecidableEq ι] in
theorem Flying.drops (h : Flying tasks stages c) (hd : c.Drops c') : Flying tasks stages c' := by
  cases hd <;> exact ⟨h.outside, h.leads, h.unique, h.below, h.distinct, h.pending, h.future,
    h.joined⟩

end

variable {ι : Type} [DecidableEq ι] {cfg : Publisher.Config} {tasks : ι → PublishTask} {s t : State}
  {tr : Trace Call Reply ι} {c : Pool Call Reply State ι PublishOutcome} {i : ι}

def publishPool (cfg : Publisher.Config) (tasks : ι → PublishTask) (s : State) :
    Pool Call Reply State ι PublishOutcome :=
  ⟨s, fun i => (tasks i).prog cfg⟩

def stages (tr : Trace Call Reply ι) (i : ι) : Stage := stageOf (tr.own i)

theorem stages_snoc (op : Call) (r : Reply op) :
    stages (tr ++ [(i, ⟨op, r⟩)]) = update (stages tr) i ((stages tr i).track op r) := by
  funext j
  by_cases hj : j = i
  · subst hj
    rw [update_self, stages, Trace.own_snoc_self]
    exact History.summary_snoc _ _ _ _
  · rw [update_of_ne hj, stages, stages, Trace.own_snoc_ne _ (Ne.symm hj)]

inductive Moves (tasks : ι → PublishTask) (s t : State) (old : ι → Stage) : (ι → Stage) → Prop
  | acts (i : ι) (name : String) (st : Stage) (task : tasks i = .request name)
      (acts : Acts name s.now (s.list name) s.cache (old i) t.cache st) :
      Moves tasks s t old (update old i st)
  | drops (drops : s.cache.Drops t.cache) : Moves tasks s t old old

theorem Flying.moves {old new : ι → Stage} (h : Flying tasks old s.cache)
    (hm : Moves tasks s t old new) : Flying tasks new t.cache := by
  cases hm with
  | acts i name st task acts => exact h.acts task acts
  | drops drops => exact h.drops drops

theorem stages_moves {r : Reply op} (hfly : Flying tasks (stages tr) s.cache)
    (hg : (tasks i).Guard (tr.own i) op) (hstep : step op s r = some t) :
    Moves tasks s t (stages tr) (stages (tr ++ [(i, ⟨op, r⟩)])) := by
  rw [stages_snoc]
  by_cases htask : ∃ name, tasks i = .request name
  · obtain ⟨name, hi⟩ := htask
    rw [hi] at hg
    exact .acts i name _ hi (step_acts hg hstep)
  · have hother : ∀ name, tasks i ≠ .request name := fun name hi => htask ⟨name, hi⟩
    have hout := PublishTask.outside hg hother
    have hstart := hfly.outside i hother
    rw [hstart, hout.track_start, ← hstart, update_eq_self]
    exact .drops (step_drops hout hstep)

omit [DecidableEq ι] in
theorem Flying.empty : Flying tasks (fun _ => .start) Cache.empty := by
  refine ⟨fun _ _ => rfl, ?_, ?_, ?_, ?_, ?_, ?_, ?_⟩
  · rintro i name f - ⟨⟩
  · rintro i j f ⟨⟩
  · rintro name f ⟨⟩
  · rintro name name' f ⟨⟩
  · rintro name f ⟨⟩
  · exact fun _ _ => rfl
  · rintro i name f - ⟨⟩

variable {env : State → State → Prop}

theorem publish_flying (hr : Run step env (publishPool cfg tasks s) tr c) (hs : s.cache = .empty)
    (henv : ∀ s t, env s t → t.cache = s.cache) : Flying tasks (stages tr) c.shared.cache := by
  refine Run.invariant (fun tr s => Flying tasks (stages tr) s.cache)
    (fun i => (tasks i).prog_spec cfg) hr ?_ ?_ ?_
  · change Flying tasks (fun _ => .start) s.cache
    rw [hs]
    exact Flying.empty
  · exact fun tr s i op r t hfly hg hstep => hfly.moves (stages_moves hfly hg hstep)
  · intro tr s t hfly hmove
    rw [henv s t hmove]
    exact hfly

theorem publish_invariant (Inv : Trace Call Reply ι → State → Prop)
    {tr' : Trace Call Reply ι} {c' : Pool Call Reply State ι PublishOutcome}
    (hr : Run step env (publishPool cfg tasks s) tr c) (hr' : Run step env c tr' c')
    (hs : s.cache = .empty) (henv : ∀ s t, env s t → t.cache = s.cache) (init : Inv tr c.shared)
    (onCall : ∀ tr s i op r t, Inv tr s → Flying tasks (stages tr) s.cache →
      (tasks i).Guard (tr.own i) op → step op s r = some t →
      Moves tasks s t (stages tr) (stages (tr ++ [(i, ⟨op, r⟩)])) → Inv (tr ++ [(i, ⟨op, r⟩)]) t)
    (onEnv : ∀ tr s t, Inv tr s → env s t → Inv tr t) : Inv (tr ++ tr') c'.shared := by
  have hboth : Flying tasks (stages (tr ++ tr')) c'.shared.cache ∧ Inv (tr ++ tr') c'.shared := by
    refine Run.invariant_from (fun tr s => Flying tasks (stages tr) s.cache ∧ Inv tr s)
      (fun i => (tasks i).prog_spec cfg) hr hr' ⟨publish_flying hr hs henv, init⟩ ?_ ?_
    · intro tr s i op r t hinv hg hstep
      have hm := stages_moves hinv.1 hg hstep
      exact ⟨hinv.1.moves hm, onCall tr s i op r t hinv.2 hinv.1 hg hstep hm⟩
    · intro tr s t hinv hmove
      refine ⟨?_, onEnv tr s t hinv.2 hmove⟩
      rw [henv s t hmove]
      exact hinv.1
  exact hboth.2

theorem request_returned (hr : Run step env (publishPool cfg tasks s) tr c)
    (hi : tasks i = .request name) (hret : c.threads i = .ret (.docs b)) :
    MayReturn name (stages tr i) b := by
  have h := hr.returned (fun i => (tasks i).prog_spec cfg) hret
  rw [hi] at h
  obtain ⟨b', hb, hmay⟩ := h
  obtain rfl := PublishOutcome.docs.inj hb
  exact hmay

end Ramp.Identity
