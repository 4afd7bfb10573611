import Ramp.Identity.Channel

/-! Documents after an invalidation. A build that read its generation before the
invalidation cannot store, so what the cache holds afterwards was read afterwards; only a
build that was already in progress can still hand older documents to those who join it. -/

namespace Ramp.Identity

open Prog

def Led (name : String) (h : Log) (f : ℕ) : Prop :=
  (⟨.cache (.enter name), Seat.leader f⟩ : Event Call Reply) ∈ h

def Unread (h : Log) : Prop := ∀ e ∈ h, e.op.isSource = false

def Stage.early : Stage → Bool
  | building _ _ _ | stored _ _ | left _ _ => false
  | start | peeked _ | missed | served _ | joined _ | answered _ | leading _ | looked _ _
  | cold _ | found _ _ => true

variable {name : String} {st : Stage}

section

variable {op : Call} {r : Reply op} {f : ℕ}

theorem Stage.early_of_track (h : (st.track op r).early = true) : st.early = true := by
  cases st with
  | building f gen l =>
    cases op with
    | cache c => cases c <;> cases h
    | table c =>
      cases c with
      | getRevocation name => cases r <;> cases h
      | _ => cases h
    | _ => cases h
  | stored f d | left f b =>
    cases op with
    | cache c => cases c <;> cases h
    | table c => cases c <;> cases h
    | _ => cases h
  | _ => rfl

theorem MayCall.not_source (h : MayCall name st op) (hst : st.early = true) :
    op.isSource = false := by
  cases op with
  | cache c | now | unixNano | newSlug | cancelled => rfl
  | vault c =>
    cases c with
    | listKeys _ | read _ =>
      obtain ⟨f, gen, l, rfl⟩ := h
      cases hst
    | _ => rfl
  | table c =>
    cases c with
    | getRevocation _ =>
      obtain ⟨-, f, gen, rfl⟩ := h
      cases hst
    | getCard _ | getDeveloperBySubdomain _ =>
      obtain ⟨f, gen, l, rfl⟩ := h
      cases hst
    | _ => rfl

theorem Stage.leads_compare (now : ℤ) : (st.compare now).leads = st.leads := by
  cases st with
  | peeked e | looked f e =>
    simp only [Stage.compare]
    split_ifs <;> rfl
  | _ => rfl

theorem Stage.leads_of_track (hcall : MayCall name st op) (h : (st.track op r).leads = some f) :
    st.leads = some f ∨ (⟨op, r⟩ : Event Call Reply) = ⟨.cache (.enter name), Seat.leader f⟩ := by
  cases op with
  | cache c =>
    cases c with
    | enter other =>
      obtain ⟨rfl, rfl⟩ := hcall
      cases r with
      | leader g =>
        cases h
        exact .inr rfl
      | follower g => cases h
    | loadPositive _ | hasNegative _ => cases st <;> cases r <;> exact .inl h
    | readGen _ | store _ _ _ _ _ | await _ => cases st <;> exact .inl h
    | leave _ g b => cases h
    | _ => exact .inl h
  | table c =>
    cases c with
    | getRevocation _ => cases st <;> cases r <;> exact .inl h
    | _ => exact .inl h
  | now => exact .inl ((leads_compare r).symm.trans h)
  | _ => exact .inl h

end

variable {now : ℤ} {list : RevocationList} {st' : Stage} {l : Option RevocationList} {c c' : Cache}

theorem Acts.gen_or {f gen : ℕ} (ha : Acts name now list c st c' st')
    (h : st' = .building f gen l) :
    (∃ l', st = .building f gen l') ∨ st = .cold f ∧ gen = c.gen name := by
  cases ha with
  | idle => exact .inl ⟨l, h⟩
  | readGen =>
    cases h
    exact .inr ⟨rfl, rfl⟩
  | readList =>
    cases h
    exact .inl ⟨none, rfl⟩
  | _ => cases h

variable {d : DocSet} {gen : ℕ}

section

variable {c' c : Cache} (h : c.Stores name d gen c')
include h

theorem Cache.Stores.gen_eq : c'.gen = c.gen := by
  cases h <;> rfl

theorem Cache.Stores.nextFlight_eq : c'.nextFlight = c.nextFlight := by
  cases h <;> rfl

end

theorem Cache.Drops.gen_le (h : c.Drops c') (name : String) : c.gen name ≤ c'.gen name := by
  cases h with
  | gen other =>
    simp only [Function.update_apply]
    split_ifs with hname
    · rw [hname]
      exact Nat.le_succ _
    · exact le_refl _
  | _ => exact le_refl _

theorem Cache.Drops.nextFlight_eq (h : c.Drops c') : c'.nextFlight = c.nextFlight := by
  cases h <;> rfl

section

variable {other : String} {c' c : Cache} (ha : Acts other now list c st c' st')
include ha

theorem Acts.gen_le (name : String) : c.gen name ≤ c'.gen name := by
  cases ha with
  | unknown _ forgets | findNothing _ f forgets => exact forgets.drops.gen_le name
  | store _ f gen l d own read stores => rw [stores.gen_eq]
  | idle | nothing | peek | stale | hit | absent | lead | join | answer | lookNothing | look
  | _ => exact le_refl _

theorem Acts.nextFlight_le : c.nextFlight ≤ c'.nextFlight := by
  cases ha with
  | unknown _ forgets | findNothing _ f forgets => exact forgets.drops.nextFlight_eq.ge
  | store _ f gen l d own read stores => exact stores.nextFlight_eq.ge
  | lead free => exact Nat.le_succ _
  | idle | nothing | peek | stale | hit | absent | join | answer | lookNothing | look
  | _ => exact le_refl _

end

variable {ι : Type} {s t : State}

section

variable [DecidableEq ι] {tasks : ι → PublishTask} {old new : ι → Stage}

variable (h : Moves tasks s t old new)
include h

theorem Moves.gen_le (name : String) : s.cache.gen name ≤ t.cache.gen name := by
  cases h with
  | acts i other st task acts => exact acts.gen_le name
  | drops drops => exact drops.gen_le name

theorem Moves.nextFlight_le : s.cache.nextFlight ≤ t.cache.nextFlight := by
  cases h with
  | acts i other st task acts => exact acts.nextFlight_le
  | drops drops => exact drops.nextFlight_eq.ge

theorem Moves.adds (name : String) :
    (∀ e, t.cache.positive name = some e → s.cache.positive name = some e ∨
      ∃ i f l, tasks i = .request name ∧ old i = .building f (s.cache.gen name) l ∧
        e.docs.flight = f) ∧
    ∀ a, t.cache.negative.get? name = some a → s.cache.negative.get? name = some a ∨
      ∃ i f l, tasks i = .request name ∧ old i = .building f (s.cache.gen name) l ∧
        a.flight = f := by
  cases h with
  | drops drops =>
    exact ⟨fun _ he => .inl (drops.positive_of he), fun _ ha => .inl (drops.negative_of ha)⟩
  | acts i other st task acts =>
    rcases acts.adds with ⟨hpos, hneg⟩ | ⟨f, gen, l, d, hb, -, hd, hst⟩
    · exact ⟨fun e he => .inl (hpos name e he), fun a ha => .inl (hneg name a ha)⟩
    · refine ⟨fun e he => ?_, fun a ha => ?_⟩
      · rcases hst.positive_or he with hold | ⟨rfl, rfl, rfl⟩
        · exact .inl hold
        · exact .inr ⟨i, f, l, task, hb, hd⟩
      · rcases hst.negative_or ha with hold | ⟨rfl, hflight, rfl⟩
        · exact .inl hold
        · exact .inr ⟨i, f, l, task, hb, hflight.trans hd⟩

end

variable {h : Log} {n : ℕ} {x : ι × Event Call Reply}

section

variable [DecidableEq ι] {tasks : ι → PublishTask} {tr tr₀ : Trace Call Reply ι} {i k : ι}

structure Known (name : String) (h : Log) (gen : ℕ) : Prop where
  led : ∀ f, (stageOf h).leads = some f → Led name h f
  unread : (stageOf h).early = true → Unread h
  current : ∀ f g l, stageOf h = .building f g l → g ≤ gen

theorem Known.mono {gen' : ℕ} (hk : Known name h gen) (hle : gen ≤ gen') : Known name h gen' :=
  ⟨hk.led, hk.unread, fun f g l hb => (hk.current f g l hb).trans hle⟩

variable {op : Call} {r : Reply op}

theorem Known.call (hk : Known name h gen) (hcall : MayCall name (stageOf h) op)
    (hgen : ∀ f g l, stageOf (h ++ [⟨op, r⟩]) = .building f g l → g ≤ gen) :
    Known name (h ++ [⟨op, r⟩]) gen := by
  have hsnoc : stageOf (h ++ [⟨op, r⟩]) = (stageOf h).track op r := History.summary_snoc _ _ _ _
  refine ⟨fun f hf => ?_, fun he => ?_, hgen⟩
  · rw [hsnoc] at hf
    rcases Stage.leads_of_track hcall hf with hl | hl
    · exact List.mem_append_left _ (hk.led f hl)
    · exact List.mem_append_right _ (List.mem_singleton.mpr hl.symm)
  · rw [hsnoc] at he
    have hold := Stage.early_of_track he
    intro e hm
    rcases List.mem_append.mp hm with hm | hm
    · exact hk.unread hold e hm
    · rw [List.mem_singleton.mp hm]
      exact hcall.not_source hold

def AllKnown (tasks : ι → PublishTask) (tr : Trace Call Reply ι) (s : State) : Prop :=
  ∀ i name, tasks i = .request name → Known name (tr.own i) (s.cache.gen name)

theorem AllKnown.call (h : AllKnown tasks tr s)
    (hg : (tasks i).Guard (tr.own i) op) (hstep : step op s r = some t)
    (hm : Moves tasks s t (stages tr) (stages (tr ++ [(i, ⟨op, r⟩)]))) :
    AllKnown tasks (tr ++ [(i, ⟨op, r⟩)]) t := by
  intro j name hj
  have hk := (h j name hj).mono (hm.gen_le name)
  by_cases hji : j = i
  · subst hji
    rw [hj] at hg
    rw [Trace.own_snoc_self]
    refine hk.call hg fun f g l hb => ?_
    rcases (step_acts hg hstep).gen_or ((History.summary_snoc _ _ _ _).symm.trans hb) with
      ⟨l', hb'⟩ | ⟨-, rfl⟩
    · exact hk.current f g l' hb'
    · exact hm.gen_le name
  · rw [Trace.own_snoc_ne _ (Ne.symm hji)]
    exact hk

/-- A build of the agent whose leader read no source in the calls `tr₀`. -/
def Fresh (tasks : ι → PublishTask) (name : String) (tr₀ tr : Trace Call Reply ι) (f : ℕ) : Prop :=
  ∃ i, tasks i = .request name ∧ Led name (tr.own i) f ∧ Unread (tr₀.own i)

theorem Fresh.snoc {f : ℕ} (h : Fresh tasks name tr₀ tr f) (x : ι × Event Call Reply) :
    Fresh tasks name tr₀ (tr ++ [x]) f := by
  obtain ⟨i, hi, hled, hun⟩ := h
  refine ⟨i, hi, ?_, hun⟩
  rw [Trace.own_append]
  exact List.mem_append_left _ hled

/-- Since the calls `tr₀`, after which the generation was `gen` and `next` builds had begun:
a build that read a source in them read a generation no later than `gen`. -/
structure Fence (gen next : ℕ) (tasks : ι → PublishTask) (name : String)
    (tr₀ tr : Trace Call Reply ι) (s : State) : Prop where
  since : tr₀ <+: tr
  reads : ∀ i f g l, tasks i = .request name → stages tr i = .building f g l →
    Unread (tr₀.own i) ∨ g ≤ gen ∧ f < next
  gen : gen ≤ s.cache.gen name
  next : next ≤ s.cache.nextFlight

theorem Unread.of_since (h : Unread (tr.own i)) (hle : tr₀ <+: tr) : Unread (tr₀.own i) := by
  obtain ⟨rest, rfl⟩ := hle
  rw [Trace.own_append] at h
  exact fun e he => h e (List.mem_append_left _ he)

variable {next : ℕ}

theorem Fence.call (h : Fence gen next tasks name tr₀ tr s) (hknown : AllKnown tasks tr s)
    (hm : Moves tasks s t (stages tr) (stages (tr ++ [(i, ⟨op, r⟩)]))) :
    Fence gen next tasks name tr₀ (tr ++ [(i, ⟨op, r⟩)]) t := by
  refine ⟨h.since.trans (List.prefix_append _ _), ?_, h.gen.trans (hm.gen_le name),
    h.next.trans hm.nextFlight_le⟩
  generalize stages (tr ++ [(i, ⟨op, r⟩)]) = new at hm
  cases hm with
  | drops drops => exact h.reads
  | acts k other st task acts =>
    intro j f g l hj hb
    by_cases hjk : j = k
    · subst hjk
      rw [task] at hj
      cases hj
      rw [Function.update_self] at hb
      rcases acts.gen_or hb with ⟨l', hb'⟩ | ⟨hcold, -⟩
      · exact h.reads j f g l' task hb'
      · have hun := (hknown j name task).unread (by rw [← stages, hcold]; rfl)
        exact .inl (hun.of_since h.since)
    · rw [Function.update_of_ne hjk] at hb
      exact h.reads j f g l hj hb

theorem Fence.fresh (h : Fence gen next tasks name tr₀ tr s) (hknown : AllKnown tasks tr s)
    {f g : ℕ} (hi : tasks i = .request name) (hb : stages tr i = .building f g l)
    (hlate : gen < g ∨ next ≤ f) : Fresh tasks name tr₀ tr f := by
  refine ⟨i, hi, (hknown i name hi).led f (by rw [← stages, hb]; rfl), ?_⟩
  rcases h.reads i f g l hi hb with hun | ⟨hg, hf⟩
  · exact hun
  · omega

structure Clearing (gen : ℕ) (tasks : ι → PublishTask) (name : String)
    (tr₀ tr : Trace Call Reply ι) (n : ℕ) (c : Cache) : Prop where
  bumped : 1 ≤ n → gen < c.gen name
  positive : 2 ≤ n → ∀ e, c.positive name = some e → Fresh tasks name tr₀ tr e.docs.flight
  negative : 3 ≤ n → ∀ a, c.negative.get? name = some a → Fresh tasks name tr₀ tr a.flight

theorem Clearing.own (h : Clearing gen tasks name tr₀ tr n s.cache) (hgen : gen ≤ s.cache.gen name)
    (hop : n = 0 ∧ op = .cache (.bumpGen name) ∨ n = 1 ∧ op = .cache (.deletePositive name) ∨
      n = 2 ∧ op = .cache (.deleteNegative name)) (hstep : step op s r = some t) :
    Clearing gen tasks name tr₀ (tr ++ [x]) (n + 1) t.cache := by
  rcases hop with ⟨rfl, rfl⟩ | ⟨rfl, rfl⟩ | ⟨rfl, rfl⟩
  · rw [← Option.some.inj (step_cache hstep)]
    refine ⟨fun _ => ?_, by omega, by omega⟩
    have hlt : gen < s.cache.gen name + 1 := by omega
    simpa using hlt
  · rw [← Option.some.inj (step_cache hstep)]
    refine ⟨fun _ => h.bumped (le_refl _), fun _ e he => ?_, by omega⟩
    simp at he
  · rw [← Option.some.inj (step_cache hstep)]
    refine ⟨fun _ => h.bumped (by omega), fun _ e he => ?_, fun _ a ha => ?_⟩
    · exact (h.positive (le_refl _) e he).snoc x
    · simp [Table.get?_erase] at ha

theorem Clearing.other {new : ι → Stage} (h : Clearing gen tasks name tr₀ tr n s.cache)
    (hfence : Fence gen next tasks name tr₀ tr s) (hknown : AllKnown tasks tr s)
    (hm : Moves tasks s t (stages tr) new) : Clearing gen tasks name tr₀ (tr ++ [x]) n t.cache := by
  obtain ⟨hpos, hneg⟩ := hm.adds name
  refine ⟨fun hn => (h.bumped hn).trans_le (hm.gen_le name), fun hn e he => ?_, fun hn a ha => ?_⟩
  · rcases hpos e he with hold | ⟨i, f, l, hi, hb, rfl⟩
    · exact (h.positive hn e hold).snoc x
    · exact (hfence.fresh hknown hi hb (.inl (h.bumped (by omega)))).snoc x
  · rcases hneg a ha with hold | ⟨i, f, l, hi, hb, rfl⟩
    · exact (h.negative hn a hold).snoc x
    · exact (hfence.fresh hknown hi hb (.inl (h.bumped (by omega)))).snoc x

theorem Clearing.call (h : Clearing gen tasks name tr₀ tr (tr.own k).length s.cache)
    (hfence : Fence gen next tasks name tr₀ tr s) (hknown : AllKnown tasks tr s)
    (hk : tasks k = .invalidate name) (hg : (tasks i).Guard (tr.own i) op)
    (hstep : step op s r = some t)
    (hm : Moves tasks s t (stages tr) (stages (tr ++ [(i, ⟨op, r⟩)]))) :
    Clearing gen tasks name tr₀ (tr ++ [(i, ⟨op, r⟩)])
      (Trace.own (tr ++ [(i, ⟨op, r⟩)]) k).length t.cache := by
  by_cases hik : i = k
  · subst hik
    rw [hk] at hg
    rw [Trace.own_snoc_self, List.length_append]
    exact h.own hfence.gen hg hstep
  · rw [Trace.own_snoc_ne _ hik]
    exact h.other hfence hknown hm

def Around (s t : State) : Prop := t.cache = s.cache

variable {cfg : Publisher.Config} {tr' : Trace Call Reply ι}
  {c c' c₀ : Pool Call Reply State ι PublishOutcome} {New : ι → Prop} {bound : ℕ}

theorem AllKnown.around (h : AllKnown tasks tr s) (hp : Around s t) : AllKnown tasks tr t := by
  intro i name hi
  rw [hp]
  exact h i name hi

theorem Fence.around (h : Fence gen next tasks name tr₀ tr s) (hp : Around s t) :
    Fence gen next tasks name tr₀ tr t := by
  refine ⟨h.since, h.reads, ?_, ?_⟩
  · rw [hp]
    exact h.gen
  · rw [hp]
    exact h.next

section

variable (hr : Run step Around (publishPool cfg tasks s) tr c)
include hr

theorem publish_known (hs : s.cache = .empty) : AllKnown tasks tr c.shared := by
  refine publish_invariant (AllKnown tasks) (.start (c := publishPool cfg tasks s)) hr hs
    (fun _ _ hp => hp) ?_ ?_ ?_
  · refine fun i name _ => ⟨?_, fun _ => by simp [Unread], ?_⟩
    · rintro f ⟨⟩
    · rintro f g l ⟨⟩
  · exact fun tr s i op r t h _ hg hstep hm => h.call hg hstep hm
  · exact fun tr s t h hp => h.around hp

theorem Fence.start (hs : s.cache = .empty) :
    Fence (c.shared.cache.gen name) c.shared.cache.nextFlight tasks name tr tr c.shared := by
  refine ⟨List.prefix_refl _, fun i f g l hi hb => .inr ⟨?_, ?_⟩, le_refl _, le_refl _⟩
  · exact (publish_known hr hs i name hi).current f g l hb
  · have hfly := publish_flying hr hs fun _ _ hp => hp
    exact hfly.below name f (hfly.leads i name f hi (by rw [hb]; rfl))

theorem publish_clearing (hr' : Run step Around c tr' c') (hs : s.cache = .empty)
    (hk : tasks k = .invalidate name) (hcalled : tr.own k = []) :
    Fence (c.shared.cache.gen name) c.shared.cache.nextFlight tasks name tr (tr ++ tr') c'.shared ∧
      Clearing (c.shared.cache.gen name) tasks name tr (tr ++ tr') ((tr ++ tr').own k).length
        c'.shared.cache := by
  have hinv := publish_invariant (fun tr' s' => AllKnown tasks tr' s' ∧
    Fence (c.shared.cache.gen name) c.shared.cache.nextFlight tasks name tr tr' s' ∧
    Clearing (c.shared.cache.gen name) tasks name tr tr' (Trace.own tr' k).length s'.cache) hr hr'
    hs (fun _ _ hp => hp) ⟨publish_known hr hs, Fence.start hr hs, ?_⟩ ?_ ?_
  · exact hinv.2
  · rw [hcalled]
    exact ⟨by simp, by simp, by simp⟩
  · intro tr₁ s₁ i op r t ⟨hknown, hfence, hclear⟩ _ hg hstep hm
    exact ⟨hknown.call hg hstep hm, hfence.call hknown hm,
      hclear.call hfence hknown hk hg hstep hm⟩
  · intro tr₁ s₁ t ⟨hknown, hfence, hclear⟩ hp
    refine ⟨hknown.around hp, hfence.around hp, ?_⟩
    rw [hp]
    exact hclear

end

/-- After the invalidation: the generation has moved, and what requests can be served is
fresh but for builds below `bound`. -/
structure Cleared (gen next bound : ℕ) (New : ι → Prop) (tasks : ι → PublishTask) (name : String)
    (tr₀ tr : Trace Call Reply ι) (s : State) : Prop where
  fence : Fence gen next tasks name tr₀ tr s
  bumped : gen < s.cache.gen name
  serves : Serves (fun _ => True) (fun d => Fresh tasks name tr₀ tr d.flight) bound New tasks name
    (stages tr) s.cache

theorem Cleared.call (h : Cleared gen next bound New tasks name tr₀ tr s)
    (hbound : next ≤ bound) (hknown : AllKnown tasks tr s) (hfly : Flying tasks (stages tr) s.cache)
    (hm : Moves tasks s t (stages tr) (stages (tr ++ [(i, ⟨op, r⟩)]))) :
    Cleared gen next bound New tasks name tr₀ (tr ++ [(i, ⟨op, r⟩)]) t := by
  refine ⟨h.fence.call hknown hm, h.bumped.trans_le (hm.gen_le name), ?_⟩
  have hmono := h.serves.mono (fun d hd => hd.snoc (i, ⟨op, r⟩)) fun _ he => he
  refine hmono.moves hfly hm (fun _ _ => trivial) (fun _ _ hd => hd) ?_
  rintro j f g l d hj hb - rfl - - hlate
  refine Fresh.snoc (h.fence.fresh hknown hj hb ?_) _
  rcases hlate with hf | rfl
  · exact .inr (hbound.trans hf)
  · exact .inl h.bumped

theorem Cleared.around (h : Cleared gen next bound New tasks name tr₀ tr s) (hp : Around s t) :
    Cleared gen next bound New tasks name tr₀ tr t := by
  refine ⟨h.fence.around hp, ?_, ?_⟩
  · rw [hp]
    exact h.bumped
  · rw [hp]
    exact h.serves

section

variable (hr : Run step Around (publishPool cfg tasks s) tr c) (hr' : Run step Around c tr' c')
  (hs : s.cache = .empty)
include hr hr' hs

theorem publish_cleared (hbound : next ≤ bound)
    (h : Cleared gen next bound New tasks name tr₀ tr c.shared) :
    Cleared gen next bound New tasks name tr₀ (tr ++ tr') c'.shared := by
  have hinv := publish_invariant (fun tr s => AllKnown tasks tr s ∧
    Cleared gen next bound New tasks name tr₀ tr s) hr hr' hs (fun _ _ hp => hp)
    ⟨publish_known hr hs, h⟩ ?_ ?_
  · exact hinv.2
  · intro tr₁ s₁ i op r t ⟨hknown, hclear⟩ hfly hg hstep hm
    exact ⟨hknown.call hg hstep hm, hclear.call hbound hknown hfly hm⟩
  · intro tr₁ s₁ t ⟨hknown, hclear⟩ hp
    exact ⟨hknown.around hp, hclear.around hp⟩

theorem cleared_of_invalidate (hk : tasks k = .invalidate name) (hcalled : tr.own k = [])
    {o : PublishOutcome} (hreturned : c'.threads k = .ret o) :
    Cleared (c.shared.cache.gen name) c.shared.cache.nextFlight c'.shared.cache.nextFlight
      (fun _ => False) tasks name tr (tr ++ tr') c'.shared := by
  obtain ⟨hfence, hclear⟩ := publish_clearing hr hr' hs hk hcalled
  have hlen := (hr.trans hr').returned (fun i => (tasks i).prog_spec cfg) hreturned
  rw [hk] at hlen
  rw [hlen] at hclear
  have hfly := publish_flying (hr.trans hr') hs fun _ _ hp => hp
  refine ⟨hfence, hclear.bumped (by omega), ⟨fun e he _ => hclear.positive (by omega) e he,
    hclear.negative (by omega), fun _ _ hn => hn.elim, le_refl _, fun i hi => ?_⟩⟩
  refine ⟨fun f hf hle => ?_, False.elim, fun _ hn => hn.elim⟩
  have hlt := hfly.below name f (hfly.leads i name f hi hf)
  omega

end

/-- A request that begins after an invalidation has returned, with no build in progress
that began before it returned, is served only documents whose sources were read after the
invalidation was called. -/
theorem fresh_after_invalidate {tr₁ tr₂ tr₃ : Trace Call Reply ι}
    {c₁ c₂ c₃ : Pool Call Reply State ι PublishOutcome} {j : ι} {o : PublishOutcome} {d : DocSet}
    (hr₀ : Run step Around (publishPool cfg tasks s) tr₀ c₀) (hr₁ : Run step Around c₀ tr₁ c₁)
    (hr₂ : Run step Around c₁ tr₂ c₂) (hr₃ : Run step Around c₂ tr₃ c₃) (hs : s.cache = .empty)
    (hk : tasks k = .invalidate name) (hcalled : tr₀.own k = []) (hreturned : c₁.threads k = .ret o)
    (hj : tasks j = .request name) (hbegins : (tr₀ ++ tr₁ ++ tr₂).own j = [])
    (hover : ∀ f, c₂.shared.cache.flights name = some f → c₁.shared.cache.nextFlight ≤ f)
    (hret : c₃.threads j = .ret (.docs (.ok d))) :
    Fresh tasks name tr₀ (tr₀ ++ tr₁ ++ tr₂ ++ tr₃) d.flight ∨
      validSubdomain name = false ∧ d = .none 0 := by
  have hr₀₁ := hr₀.trans hr₁
  have hr₀₂ := hr₀₁.trans hr₂
  have h₁ := cleared_of_invalidate hr₀ hr₁ hs hk hcalled hreturned
  have hbound : c₀.shared.cache.nextFlight ≤ c₁.shared.cache.nextFlight := h₁.fence.next
  have h₂ := publish_cleared hr₀₁ hr₂ hs hbound h₁
  have hstart : stages (tr₀ ++ tr₁ ++ tr₂) j = .start := by
    rw [stages, hbegins]
    rfl
  have hnew : Cleared _ _ _ (fun i => i = j) tasks name tr₀ (tr₀ ++ tr₁ ++ tr₂) c₂.shared :=
    ⟨h₂.fence, h₂.bumped, h₂.serves.welcome hover hstart⟩
  have h₃ := publish_cleared hr₀₂ hr₃ hs hbound hnew
  exact h₃.serves.returned hj rfl (request_returned (hr₀₂.trans hr₃) hj hret)

end

def overtaken : Fin 3 → PublishTask
  | 0 => .request elderRef.subdomain
  | 1 => .invalidate elderRef.subdomain
  | 2 => .request elderRef.subdomain

instance {ι : Type} [Fintype ι] [DecidableEq ι] (tasks : ι → PublishTask) (name : String)
    (tr₀ tr : Trace Call Reply ι) (f : ℕ) : Decidable (Fresh tasks name tr₀ tr f) :=
  inferInstanceAs (Decidable (∃ i, tasks i = _ ∧ _ ∈ tr.own i ∧ ∀ _ ∈ tr₀.own i, _))

def flightGiven : Option PublishOutcome → Option ℕ
  | some (.docs (.ok d)) => some d.flight
  | _ => none

theorem flightGiven_eq_some {o : Option PublishOutcome} {f : ℕ} (h : flightGiven o = some f) :
    ∃ d, o = some (.docs (.ok d)) ∧ d.flight = f := by
  unfold flightGiven at h
  split at h
  next d => exact ⟨d, rfl, Option.some.inj h⟩
  · cases h

def builtBefore := Pool.outcome step (turns 16 0) (publishPool smallPublisher overtaken twoKeys)

def invalidatedAfter := Pool.outcome step (turns 3 1) builtBefore.2

def requestedLast := Pool.outcome step (turns 16 2) invalidatedAfter.2

theorem fresh_after_invalidate_rebuilt : ∃ d, requestedLast.2.threads 2 = .ret (.docs (.ok d)) ∧
      Fresh overtaken elderRef.subdomain builtBefore.1
        (builtBefore.1 ++ invalidatedAfter.1 ++ [] ++ requestedLast.1) d.flight := by
  obtain ⟨hgiven, hdone, hover, hvalid, hcalled, hbegins⟩ :
      flightGiven (requestedLast.2.threads 2).result? = some 1 ∧
      (invalidatedAfter.2.threads 1).result? = some .invalidated ∧
      invalidatedAfter.2.shared.cache.flights elderRef.subdomain = none ∧
      validSubdomain elderRef.subdomain = true ∧ builtBefore.1.own 1 = [] ∧
      (builtBefore.1 ++ invalidatedAfter.1 ++ []).own 2 = [] := by decide +kernel
  obtain ⟨d, hd, hf⟩ := flightGiven_eq_some hgiven
  have hret := result?_eq_some.mp hd
  have hr₀ : Run step Around (publishPool smallPublisher overtaken twoKeys) builtBefore.1
      builtBefore.2 := Pool.outcome_run _ _
  have hr₁ : Run step Around builtBefore.2 invalidatedAfter.1 invalidatedAfter.2 :=
    Pool.outcome_run _ _
  have hr₃ : Run step Around invalidatedAfter.2 requestedLast.1 requestedLast.2 :=
    Pool.outcome_run _ _
  have hfresh := fresh_after_invalidate hr₀ hr₁ .start hr₃ rfl rfl hcalled
    (result?_eq_some.mp hdone) rfl hbegins (by simp [hover]) hret
  refine ⟨d, hret, hfresh.resolve_right ?_⟩
  rw [hvalid]
  simp

/-- The sources are read, then the invalidation comes and goes, and a request that begins
now joins the build that is still in progress. -/
def readBefore := Pool.outcome step (turns 13 0) (publishPool smallPublisher overtaken twoKeys)

def invalidatedMeanwhile := Pool.outcome step (turns 3 1) readBefore.2

def joinedLate :=
  Pool.outcome step (turns 3 2 ++ turns 3 0 ++ turns 1 2) invalidatedMeanwhile.2

theorem stale_after_invalidate :
    Run step Around (publishPool smallPublisher overtaken twoKeys) readBefore.1 readBefore.2 ∧
      Run step Around readBefore.2 invalidatedMeanwhile.1 invalidatedMeanwhile.2 ∧
      Run step Around invalidatedMeanwhile.2 joinedLate.1 joinedLate.2 ∧ readBefore.1.own 1 = [] ∧
      (invalidatedMeanwhile.2.threads 1).result? = some .invalidated ∧
      (readBefore.1 ++ invalidatedMeanwhile.1).own 2 = [] ∧
      validSubdomain elderRef.subdomain = true ∧
      ∃ d, (joinedLate.2.threads 2).result? = some (.docs (.ok d)) ∧
        ¬ Fresh overtaken elderRef.subdomain readBefore.1
          (readBefore.1 ++ invalidatedMeanwhile.1 ++ joinedLate.1) d.flight := by
  obtain ⟨hgiven, hcalled, hdone, hbegins, hvalid, hstale⟩ :
      flightGiven (joinedLate.2.threads 2).result? = some 0 ∧ readBefore.1.own 1 = [] ∧
      (invalidatedMeanwhile.2.threads 1).result? = some .invalidated ∧
      (readBefore.1 ++ invalidatedMeanwhile.1).own 2 = [] ∧
      validSubdomain elderRef.subdomain = true ∧
      ¬ Fresh overtaken elderRef.subdomain readBefore.1
        (readBefore.1 ++ invalidatedMeanwhile.1 ++ joinedLate.1) 0 := by decide +kernel
  obtain ⟨d, hd, hf⟩ := flightGiven_eq_some hgiven
  refine ⟨Pool.outcome_run _ _, Pool.outcome_run _ _, Pool.outcome_run _ _, hcalled, hdone,
    hbegins, hvalid, d, hd, ?_⟩
  rwa [hf]

end Ramp.Identity
