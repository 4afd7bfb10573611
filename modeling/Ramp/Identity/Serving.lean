import Ramp.Identity.Publishing

/-! What the requests for one agent can be served stays good as long as what is stored is
good. Builds below a bound and requests that are not new are exempt. -/

namespace Ramp.Identity

open Function (update update_apply update_of_ne update_self)

open Prog

def Stage.Holds (Lit : Entry → Prop) (Good : DocSet → Prop) : Stage → Prop
  | peeked e | looked _ e => Lit e → Good e.docs
  | served d | found _ d | stored _ d => Good d
  | answered b | left _ b => ∀ d, b = .ok d → Good d
  | start | missed | joined _ | leading _ | cold _ | building _ _ _ => True

/-- What a request holds is good if it is new or leads a build from `bound` on, and a new
one follows only such builds. -/
structure Stage.Fair (Lit : Entry → Prop) (Good : DocSet → Prop) (bound : ℕ) (new : Prop)
    (results : ℕ → Option Built) (st : Stage) : Prop where
  leads : ∀ f, st.leads = some f → bound ≤ f → st.Holds Lit Good
  served : new → st.Holds Lit Good
  joined : ∀ f, new → st = .joined f → bound ≤ f ∧ ∀ d, results f = some (.ok d) → Good d

/-- The requests for the documents of `name`, the new ones among them and the cache. -/
structure Serves {ι : Type} (Lit : Entry → Prop) (Good : DocSet → Prop) (bound : ℕ)
    (New : ι → Prop) (tasks : ι → PublishTask) (name : String) (stages : ι → Stage) (c : Cache) :
    Prop where
  positive : ∀ e, c.positive name = some e → Lit e → Good e.docs
  negative : ∀ a, c.negative.get? name = some a → Good (.none a.flight)
  young : ∀ j f, New j → c.flights name = some f → bound ≤ f
  below : bound ≤ c.nextFlight
  fair : ∀ i, tasks i = .request name → (stages i).Fair Lit Good bound (New i) c.results

variable {Lit Lit' : Entry → Prop} {Good Good' : DocSet → Prop} {bound : ℕ} {st : Stage}

section

variable {new : Prop} {results results' : ℕ → Option Built} {old : Stage}

theorem Stage.Holds.mono (h : st.Holds Lit Good) (hgood : ∀ d, Good d → Good' d)
    (hlit : ∀ e, Lit' e → Lit e) : st.Holds Lit' Good' := by
  cases st with
  | peeked e | looked _ e => exact fun he => hgood _ (h (hlit e he))
  | served d | found _ d | stored _ d => exact hgood _ h
  | answered b | left _ b => exact fun d hd => hgood d (h d hd)
  | _ => trivial

theorem Stage.Fair.mono (h : st.Fair Lit Good bound new results) (hgood : ∀ d, Good d → Good' d)
    (hlit : ∀ e, Lit' e → Lit e) : st.Fair Lit' Good' bound new results where
  leads f hf hb := (h.leads f hf hb).mono hgood hlit
  served hn := (h.served hn).mono hgood hlit
  joined f hn hf := ⟨(h.joined f hn hf).1, fun d hd => hgood d ((h.joined f hn hf).2 d hd)⟩

theorem Stage.Fair.answers (h : st.Fair Lit Good bound new results)
    (hresults : ∀ f d, st = .joined f → bound ≤ f → results' f = some (.ok d) →
      results f = some (.ok d) ∨ Good d) : st.Fair Lit Good bound new results' where
  leads := h.leads
  served := h.served
  joined f hn hf := by
    obtain ⟨hb, hd⟩ := h.joined f hn hf
    exact ⟨hb, fun d hr => (hresults f d hf hb hr).elim (hd d) id⟩

theorem Stage.Fair.of_holds (h : st.Holds Lit Good) (hj : ∀ f, st ≠ .joined f) :
    st.Fair Lit Good bound new results :=
  ⟨fun _ _ _ => h, fun _ => h, fun f _ hf => absurd hf (hj f)⟩

theorem Stage.Fair.advance (h : old.Fair Lit Good bound new results)
    (hleads : ∀ f, st.leads = some f → old.leads = some f)
    (hholds : old.Holds Lit Good → st.Holds Lit Good) (hj : ∀ f, st ≠ .joined f) :
    st.Fair Lit Good bound new results where
  leads f hf hb := hholds (h.leads f (hleads f hf) hb)
  served hn := hholds (h.served hn)
  joined f _ hf := absurd hf (hj f)

end

variable {ι : Type} {New : ι → Prop} {tasks : ι → PublishTask} {name : String}
  {stages stages' : ι → Stage} {c c' : Cache} {i : ι} {now : ℤ} {list : RevocationList}
  {s t : State}

section

variable (h : Serves Lit Good bound New tasks name stages c)
include h

theorem Serves.mono (hgood : ∀ d, Good d → Good' d) (hlit : ∀ e, Lit' e → Lit e) :
    Serves Lit' Good' bound New tasks name stages c where
  positive e he hl := hgood _ (h.positive e he (hlit e hl))
  negative a ha := hgood _ (h.negative a ha)
  young := h.young
  below := h.below
  fair i hi := (h.fair i hi).mono hgood hlit

theorem Serves.aside (hstages : ∀ j, tasks j = .request name → stages' j = stages j)
    (hpos : ∀ e, c'.positive name = some e → c.positive name = some e)
    (hneg : ∀ a, c'.negative.get? name = some a → c.negative.get? name = some a)
    (hflights : c'.flights name = c.flights name) (hnext : c.nextFlight ≤ c'.nextFlight)
    (hresults : ∀ j f, tasks j = .request name → stages j = .joined f →
      c'.results f = c.results f) :
    Serves Lit Good bound New tasks name stages' c' where
  positive e he := h.positive e (hpos e he)
  negative a ha := h.negative a (hneg a ha)
  young j f hj hf := h.young j f hj (hflights ▸ hf)
  below := h.below.trans hnext
  fair j hj := by
    rw [hstages j hj]
    exact (h.fair j hj).answers fun f d hf _ hd => .inl (hresults j f hj hf ▸ hd)

theorem Serves.drops (hd : c.Drops c') : Serves Lit Good bound New tasks name stages c' := by
  refine h.aside (fun _ _ => rfl) (fun e => hd.positive_of) (fun a => hd.negative_of) ?_ ?_ ?_
  · cases hd <;> rfl
  · cases hd <;> exact le_refl _
  · intro j f _ _
    cases hd <;> rfl

end

theorem Cache.Forgets.drops (h : c.Forgets name c') : c.Drops c' := by
  rcases h with rfl | rfl
  · exact .same
  · exact .negative name

variable {other : String} {d : DocSet} {gen : ℕ}

theorem Cache.Stores.positive_or (h : c.Stores other d gen c') {e : Entry}
    (he : c'.positive name = some e) :
    c.positive name = some e ∨ name = other ∧ e.docs = d ∧ c.gen other = gen := by
  cases h with
  | dropped | absence => exact .inl he
  | entry current up expires =>
    simp only [update_apply] at he
    split_ifs at he with hname
    · cases he
      exact .inr ⟨hname, rfl, current⟩
    · exact .inl he

theorem Cache.Stores.negative_or (h : c.Stores other d gen c') {a : Absence}
    (ha : c'.negative.get? name = some a) :
    c.negative.get? name = some a ∨ name = other ∧ a.flight = d.flight ∧ c.gen other = gen := by
  cases h with
  | dropped | entry => exact .inl ha
  | absence current empty expires victim =>
    simp only [Table.get?_insert] at ha
    split_ifs at ha with hname
    · cases ha
      exact .inr ⟨hname, rfl, current⟩
    · cases victim with
      | none => exact .inl ha
      | some victim =>
        simp only [Cache.makeRoom, Table.get?_erase] at ha
        split_ifs at ha
        exact .inl ha

theorem Acts.adds {old : Stage} (ha : Acts other now list c old c' st) :
    ((∀ name e, c'.positive name = some e → c.positive name = some e) ∧
      ∀ name a, c'.negative.get? name = some a → c.negative.get? name = some a) ∨
    ∃ f gen l d, old = .building f gen l ∧ st = .stored f d ∧ d.flight = f ∧
      c.Stores other d gen c' := by
  cases ha with
  | unknown _ forgets | findNothing _ f forgets =>
    exact .inl ⟨fun _ _ => forgets.drops.positive_of, fun _ _ => forgets.drops.negative_of⟩
  | store _ f gen l d own read stores => exact .inr ⟨f, gen, l, d, rfl, rfl, own, stores⟩
  | idle | nothing | peek | stale | hit | absent | lead | join | answer | lookNothing | look
  | _ =>
    exact .inl ⟨fun _ _ he => he, fun _ _ ha => ha⟩

section

variable (h : Serves Lit Good bound New tasks name stages c)
include h

theorem Serves.stores (hst : c.Stores name d gen c') (hgood : c.gen name = gen → Good d)
    (hempty : d.empty = true → Good d → Good (.none d.flight)) :
    Serves Lit Good bound New tasks name stages c' := by
  cases hst with
  | dropped => exact h
  | absence current empty expires victim =>
    refine ⟨h.positive, fun a ha => ?_, h.young, h.below, h.fair⟩
    have hself : a = ⟨expires, d.flight⟩ := by simpa [Table.get?_insert] using ha.symm
    rw [hself]
    exact hempty empty (hgood current)
  | entry current up expires =>
    refine ⟨fun e he _ => ?_, h.negative, h.young, h.below, h.fair⟩
    have hself : e = ⟨d, expires⟩ := by simpa using he.symm
    rw [hself]
    exact hgood current

theorem Serves.lead :
    Serves Lit Good bound New tasks name stages
      { c with flights := update c.flights name (some c.nextFlight)
               nextFlight := c.nextFlight + 1 } where
  positive := h.positive
  negative := h.negative
  young j f hj hf := by
    have hself : f = c.nextFlight := by simpa using hf.symm
    rw [hself]
    exact h.below
  below := Nat.le_succ_of_le h.below
  fair := h.fair

theorem Serves.leave {f : ℕ} {b : Built} (hb : bound ≤ f → ∀ d, b = .ok d → Good d) :
    Serves Lit Good bound New tasks name stages
      { c with flights := update c.flights name none
               results := update c.results f (some b) } where
  positive := h.positive
  negative := h.negative
  young j g hj hg := by
    simp at hg
  below := h.below
  fair j hj := by
    refine (h.fair j hj).answers fun g d _ hg hd => ?_
    change update c.results f (some b) g = some (.ok d) at hd
    by_cases hgf : g = f
    · subst hgf
      rw [update_self] at hd
      exact .inr (hb hg d (Option.some.inj hd))
    · rw [update_of_ne hgf] at hd
      exact .inl hd

end

variable [DecidableEq ι]

section

variable (h : Serves Lit Good bound New tasks name stages c)
include h

theorem Serves.stage (hst : tasks i = .request name → st.Fair Lit Good bound (New i) c.results) :
    Serves Lit Good bound New tasks name (update stages i st) c where
  positive := h.positive
  negative := h.negative
  young := h.young
  below := h.below
  fair j hj := by
    by_cases hji : j = i
    · subst hji
      rw [update_self]
      exact hst hj
    · rw [update_of_ne hji]
      exact h.fair j hj

theorem Serves.acts (hfly : Flying tasks stages c) (hi : tasks i = .request name)
    (ha : Acts name now list c (stages i) c' st) (hlit : ∀ e, now < e.expires → Lit e)
    (hempty : ∀ d, d.empty = true → Good d → Good (.none d.flight))
    (hstore : ∀ f gen l d, stages i = .building f gen l → st = .stored f d → d.flight = f →
      (∀ row, d.revocation = some row → l = some row) → c.Stores name d gen c' →
      (bound ≤ f ∨ c.gen name = gen) → Good d) :
    Serves Lit Good bound New tasks name (update stages i st) c' := by
  have hfair := h.fair i hi
  generalize hold : stages i = old at ha hstore hfair
  cases ha with
  | idle => exact h.stage fun _ => hfair
  | nothing | stale | lookNothing | chill | readGen | readList =>
    exact h.stage fun _ => .of_holds trivial (by simp)
  | peek e there | look f e there =>
    exact h.stage fun _ => .of_holds (h.positive e there) (by simp)
  | hit e live | find f e live =>
    exact h.stage fun _ => hfair.advance (by simp [Stage.leads]) (fun hh => hh (hlit e live))
      (by simp)
  | unknown _ forgets | findNothing _ f forgets =>
    exact (h.drops forgets.drops).stage fun _ => .of_holds trivial (by simp)
  | absent a there | findAbsent f a there =>
    exact h.stage fun _ => .of_holds (h.negative a there) (by simp)
  | lead free => exact h.lead.stage fun _ => .of_holds trivial (by simp)
  | join f busy =>
    refine h.stage fun _ => ⟨by simp [Stage.leads], fun _ => trivial, ?_⟩
    rintro g hn ⟨⟩
    refine ⟨h.young i f hn busy, fun d hd => ?_⟩
    rw [hfly.pending name f busy] at hd
    cases hd
  | answer f b ended =>
    refine h.stage fun _ => ⟨by simp [Stage.leads], fun hn d hd => ?_, by simp⟩
    exact (hfair.joined f hn rfl).2 d (hd ▸ ended)
  | store _ f gen l d own read stores =>
    have hgood := hstore f gen l d rfl rfl own read stores
    refine (h.stores stores (fun hg => hgood (.inr hg)) (hempty d)).stage fun _ => ?_
    refine ⟨fun g hg hb => ?_, fun hn => ?_, by simp⟩
    · cases hg
      exact hgood (.inl hb)
    · have hbusy := hfly.leads i name f hi (by rw [hold]; rfl)
      exact hgood (.inl (h.young i f hn hbusy))
  | leave _ f b leads holds =>
    have hb : ∀ d, b = .ok d → old.Holds Lit Good → Good d := by
      intro d hd hh
      rcases holds d hd with rfl | rfl
      · exact hh
      · exact hh
    refine (h.leave fun hf d hd => hb d hd (hfair.leads f leads hf)).stage fun _ => ?_
    exact ⟨by simp [Stage.leads], fun hn d hd => hb d hd (hfair.served hn), by simp⟩

theorem Serves.acts_other (hfly : Flying tasks stages c) (hi : tasks i = .request other)
    (hne : name ≠ other) (ha : Acts other now list c (stages i) c' st) :
    Serves Lit Good bound New tasks name (update stages i st) c' := by
  have hst : ∀ j, tasks j = .request name → update stages i st j = stages j := by
    intro j hj
    have hji : j ≠ i := by
      rintro rfl
      rw [hj] at hi
      exact hne (PublishTask.request.inj hi)
    exact update_of_ne hji _ _
  have hsame := h.aside hst (fun _ he => he) (fun _ ha => ha) rfl (le_refl _) fun _ _ _ _ => rfl
  generalize hold : stages i = old at ha
  cases ha with
  | unknown _ forgets | findNothing _ f forgets => exact hsame.drops forgets.drops
  | lead free =>
    refine hsame.aside (fun _ _ => rfl) (fun _ he => he) (fun _ ha => ha) ?_ (Nat.le_succ _)
      fun _ _ _ _ => rfl
    exact update_of_ne hne _ _
  | store _ f gen l d own read stores =>
    refine hsame.aside (fun _ _ => rfl) (fun e he => ?_) (fun a ha => ?_) ?_ ?_ fun _ _ _ _ => ?_
    · exact (stores.positive_or he).resolve_right fun hh => hne hh.1
    · exact (stores.negative_or ha).resolve_right fun hh => hne hh.1
    · cases stores <;> rfl
    · cases stores <;> exact le_refl _
    · cases stores <;> rfl
  | leave _ f b leads holds =>
    have hbusy := hfly.leads i other f hi (by rw [hold]; exact leads)
    refine hsame.aside (fun _ _ => rfl) (fun _ he => he) (fun _ ha => ha) ?_ (le_refl _)
      fun j g hj hg => ?_
    · exact update_of_ne hne _ _
    · rw [hst j hj] at hg
      have hgf : g ≠ f := by
        rintro rfl
        rcases hfly.joined j name g hj hg with hn | hr
        · exact hne (hfly.distinct name other g hn hbusy)
        · rw [hfly.pending other g hbusy] at hr
          cases hr
      exact update_of_ne hgf _ _
  | idle | nothing | peek | stale | hit | absent | join | answer | lookNothing | look | chill
  | _ => exact hsame

end

theorem Serves.moves (h : Serves Lit Good bound New tasks name stages s.cache)
    (hfly : Flying tasks stages s.cache) (hm : Moves tasks s t stages stages')
    (hlit : ∀ e, s.now < e.expires → Lit e)
    (hempty : ∀ d, d.empty = true → Good d → Good (.none d.flight))
    (hstore : ∀ i f gen l d, tasks i = .request name → stages i = .building f gen l →
      stages' = update stages i (.stored f d) → d.flight = f →
      (∀ row, d.revocation = some row → l = some row) → s.cache.Stores name d gen t.cache →
      (bound ≤ f ∨ s.cache.gen name = gen) → Good d) :
    Serves Lit Good bound New tasks name stages' t.cache := by
  cases hm with
  | acts i other st task acts =>
    by_cases hne : name = other
    · subst hne
      refine h.acts hfly task acts hlit hempty fun f gen l d hb hst => ?_
      exact hstore i f gen l d task hb (by rw [hst])
    · exact h.acts_other hfly task hne acts
  | drops drops => exact h.drops drops

theorem Serves.welcome {j : ι} (h : Serves Lit Good bound (fun _ : ι => False) tasks name stages c)
    (hyoung : ∀ f, c.flights name = some f → bound ≤ f) (hj : stages j = .start) :
    Serves Lit Good bound (fun i => i = j) tasks name stages c where
  positive := h.positive
  negative := h.negative
  young _ f _ hf := hyoung f hf
  below := h.below
  fair i hi := by
    by_cases hij : i = j
    · rw [hij, hj]
      exact .of_holds trivial (by simp)
    · have hfair := h.fair i hi
      exact ⟨hfair.leads, fun hn => hfair.served (hij hn), fun f hn => hfair.joined f (hij hn)⟩

omit [DecidableEq ι] in
theorem Serves.returned (h : Serves Lit Good bound New tasks name stages c)
    (hi : tasks i = .request name) (hn : New i) (hret : MayReturn name (stages i) (.ok d)) :
    Good d ∨ validSubdomain name = false ∧ d = .none 0 := by
  have hfair := h.fair i hi
  rcases hret with ⟨d', hd, hst⟩ | hst | ⟨f, hst⟩ | ⟨hvalid, hd⟩
  · cases hd
    rw [hst] at hfair
    exact .inl (hfair.served hn)
  · rw [hst] at hfair
    exact .inl (hfair.served hn d rfl)
  · rw [hst] at hfair
    exact .inl (hfair.served hn d rfl)
  · exact .inr ⟨hvalid, Except.ok.inj hd⟩

end Ramp.Identity
