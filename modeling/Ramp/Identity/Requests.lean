import Ramp.Identity.KeyConduct
import Ramp.Identity.Publisher

/-! How far a request for an agent's documents has come, read off its own calls, and what its
next call does to the cache. -/

namespace Ramp.Identity

open Prog

inductive Stage
  | start
  /-- An entry was loaded and not yet compared with the clock. -/
  | peeked (e : Entry)
  | missed
  /-- The documents that will be returned. -/
  | served (d : DocSet)
  | joined (flight : ℕ)
  | answered (b : Built)
  | leading (flight : ℕ)
  | looked (flight : ℕ) (e : Entry)
  | cold (flight : ℕ)
  /-- The leader found documents in the cache after all. -/
  | found (flight : ℕ) (d : DocSet)
  /-- The generation was read, and then perhaps the list of revocations. -/
  | building (flight gen : ℕ) (list : Option RevocationList)
  | stored (flight : ℕ) (d : DocSet)
  | left (flight : ℕ) (b : Built)

namespace Stage

def leads : Stage → Option ℕ
  | leading f | looked f _ | cold f | found f _ | building f _ _ | stored f _ => some f
  | start | peeked _ | missed | served _ | joined _ | answered _ | left _ _ => none

def load (e : Option Entry) : Stage → Stage
  | start => match e with
    | none => missed
    | some e => peeked e
  | leading f => match e with
    | none => cold f
    | some e => looked f e
  | st => st

def compare (now : ℤ) : Stage → Stage
  | peeked e => if now < e.expires then served e.docs else missed
  | looked f e => if now < e.expires then found f e.docs else cold f
  | st => st

def absence (a : Option Absence) : Stage → Stage
  | missed => match a with
    | none => missed
    | some a => served (.none a.flight)
  | cold f => match a with
    | none => cold f
    | some a => found f (.none a.flight)
  | st => st

def enter (seat : Seat) : Stage → Stage
  | missed => match seat with
    | .leader f => leading f
    | .follower f => joined f
  | st => st

def readGen (gen : ℕ) : Stage → Stage
  | cold f => building f gen none
  | st => st

def readList (row : Except PgFault (Option RevocationList)) : Stage → Stage
  | building f gen l => match row with
    | .error _ => building f gen l
    | .ok row => building f gen (some (row.getD .baseline))
  | st => st

def store (d : DocSet) : Stage → Stage
  | building f _ _ => stored f d
  | st => st

def await (b : Built) : Stage → Stage
  | joined _ => answered b
  | st => st

def track (op : Call) (st : Stage) (r : Reply op) : Stage :=
  match op, r with
  | .cache (.loadPositive _), e => st.load e
  | .now, t => st.compare t
  | .cache (.hasNegative _), a => st.absence a
  | .cache (.enter _), seat => st.enter seat
  | .cache (.readGen _), gen => st.readGen gen
  | .table (.getRevocation _), row => st.readList row
  | .cache (.store _ d _ _ _), _ => st.store d
  | .cache (.await _), b => st.await b
  | .cache (.leave _ f b), _ => left f b
  | _, _ => st

end Stage

def Call.isSource : Call → Bool
  | .vault (.listKeys _) | .vault (.read _) | .table (.getRevocation _) | .table (.getCard _)
  | .table (.getDeveloperBySubdomain _) => true
  | _ => false

def MayCall (sub : String) (st : Stage) : Call → Prop
  | .cache (.loadPositive name) => name = sub ∧ (st = .start ∨ ∃ f, st = .leading f)
  | .cache (.hasNegative name) => name = sub ∧ (st = .missed ∨ ∃ f, st = .cold f)
  | .cache (.enter name) => name = sub ∧ st = .missed
  | .cache (.await f) => st = .joined f
  | .cache (.readGen name) => name = sub ∧ ∃ f, st = .cold f
  | .cache (.store name d gen _ _) => name = sub ∧ ∃ f l, st = .building f gen l ∧
      d.flight = f ∧ ∀ row, d.revocation = some row → l = some row
  | .cache (.leave name f b) => name = sub ∧ ((∃ d, b = .ok d ∧ st = .found f d) ∨
      (∃ d, b = .ok d ∧ st = .stored f d) ∨ ∃ e gen l, b = .error e ∧ st = .building f gen l)
  | .cache (.bumpGen _) | .cache (.deletePositive _) | .cache (.deleteNegative _) => False
  | .table (.getRevocation name) => name = sub ∧ ∃ f gen, st = .building f gen none
  | .vault (.listKeys _) | .vault (.read _) | .table (.getCard _)
  | .table (.getDeveloperBySubdomain _) => ∃ f gen l, st = .building f gen l
  | .now => True
  | _ => False

def MayReturn (sub : String) (st : Stage) (b : Built) : Prop :=
  (∃ d, b = .ok d ∧ st = .served d) ∨ st = .answered b ∨ (∃ f, st = .left f b) ∨
    validSubdomain sub = false ∧ b = .ok (.none 0)

variable {d : DocSet}

namespace Publisher

variable {cfg : Config} {sub : String} {f gen : ℕ} {l : Option RevocationList} {ds : DocSet}

abbrev Walks {α : Type} (sub : String) (Q : Stage → α → Prop) (p : Program α) (st : Stage) : Prop :=
  Spec (tracked Stage.track) (MayCall sub) Q p st

theorem looks_spec {α : Type} {p : Program α} (hp : p.Only Looks) :
    Walks sub (fun st _ => st = .building f gen l) p
      (.building f gen l) := by
  refine hp.spec_of_passes (I := fun st => st = Stage.building f gen l) ⟨?_, ?_⟩ rfl
  · rintro st op rfl (⟨name, rfl⟩ | ⟨ref, rfl⟩)
    · exact ⟨f, gen, l, rfl⟩
    · exact ⟨f, gen, l, rfl⟩
  · rintro op st r t (⟨name, rfl⟩ | ⟨ref, rfl⟩) rfl ht
    · exact (Option.some.inj ht).symm
    · exact (Option.some.inj ht).symm

def Carries (ds d : DocSet) : Prop := d.flight = ds.flight ∧ d.revocation = ds.revocation

def Builds (f gen : ℕ) (l : Option RevocationList) (ds : DocSet) (st : Stage)
    (r : Except BuildError DocSet) : Prop :=
  st = .building f gen l ∧ ∀ d, r = .ok d → Carries ds d

theorem Builds.ok (h : Carries ds d) : Builds f gen l ds (.building f gen l) (.ok d) := by
  refine ⟨rfl, ?_⟩
  rintro _ ⟨⟩
  exact h

theorem Builds.error {e : BuildError} : Builds f gen l ds (.building f gen l) (.error e) :=
  ⟨rfl, fun _ h => by cases h⟩

theorem buildWBA_spec : Walks sub (Builds f gen l ds)
    (buildWBA cfg sub ds).run (.building f gen l) := by
  refine .attempt (looks_spec (.rethrow (KeyStore.list_looks sub))) fun st r hst => ?_
  subst hst
  split
  · refine .tell trivial fun now => ?_
    dsimp only
    split_ifs
    · exact .pure (Builds.ok ⟨rfl, rfl⟩)
    · split
      · exact .throw Builds.error
      · split
        · exact .throw Builds.error
        · exact .pure (Builds.ok ⟨rfl, rfl⟩)
  · exact .pure (Builds.ok ⟨rfl, rfl⟩)
  · exact .pure (Builds.ok ⟨rfl, rfl⟩)
  · exact .pure (Builds.ok ⟨rfl, rfl⟩)
  · exact .pure (Builds.ok ⟨rfl, rfl⟩)
  · exact .throw Builds.error

theorem buildCard_spec : Walks sub (Builds f gen l ds)
    (buildCard sub ds).run (.building f gen l) := by
  have hread : Walks sub (fun st _ => st = .building f gen l) (Cards.bySubdomain sub).run
      (.building f gen l) := by
    refine .tell ⟨f, gen, l, rfl⟩ fun r => ?_
    split
    · exact .throw rfl
    · exact .throw rfl
    · exact .pure rfl
  refine .lift hread fun st r hst => ?_
  subst hst
  split
  · exact .pure (Builds.ok ⟨rfl, rfl⟩)
  · exact .pure (Builds.ok ⟨rfl, rfl⟩)
  · exact .pure (Builds.ok ⟨rfl, rfl⟩)
  · exact .throw Builds.error

theorem buildManifest_spec : Walks sub (Builds f gen l ds)
    (buildManifest cfg sub ds).run (.building f gen l) := by
  have hread : Walks sub (fun st _ => st = .building f gen l) (Developers.bySubdomain sub).run
      (.building f gen l) := by
    refine .tell ⟨f, gen, l, rfl⟩ fun r => ?_
    split
    · exact .throw rfl
    · exact .throw rfl
    · exact .pure rfl
  refine .lift hread fun st r hst => ?_
  subst hst
  split
  · split
    · exact .throw Builds.error
    · exact .pure (Builds.ok ⟨rfl, rfl⟩)
  · exact .pure (Builds.ok ⟨rfl, rfl⟩)
  · exact .pure (Builds.ok ⟨rfl, rfl⟩)
  · exact .throw Builds.error
  · exact .throw Builds.error
  · exact .throw Builds.error

theorem buildRevocation_spec (hds : ds.revocation = none) :
    Walks sub (fun st r => ∃ l, st = .building f gen l ∧
      ∀ d, r = .ok d → d.flight = ds.flight ∧ ∀ row, d.revocation = some row → l = some row)
      (buildRevocation cfg sub ds).run (.building f gen none) := by
  have hread : Walks sub
      (fun st r => ∃ l, st = .building f gen l ∧ ∀ row, r = .ok row → l = some row)
      (Revocations.bySubdomain sub).run (.building f gen none) := by
    refine .tell ⟨rfl, f, gen, rfl⟩ fun r => ?_
    rcases r with e | row
    · exact .throw ⟨none, rfl, by simp⟩
    · cases row with
      | none => exact .pure ⟨some .baseline, rfl, by simp⟩
      | some row => exact .pure ⟨some row, rfl, by simp⟩
  refine .lift hread fun st r hst => ?_
  obtain ⟨l, rfl, hl⟩ := hst
  split
  · exact .pure ⟨l, rfl, by simp [hds]⟩
  · exact .throw ⟨l, rfl, by simp⟩
  next row =>
    split_ifs
    · exact .pure ⟨l, rfl, by simp [hds]⟩
    · refine .pure ⟨l, rfl, ?_⟩
      rintro _ ⟨⟩
      refine ⟨rfl, ?_⟩
      rintro _ ⟨⟩
      exact hl row rfl
    · exact .throw ⟨l, rfl, by simp⟩

theorem build_spec : Walks sub (fun st r => ∃ l, st = .building f gen l ∧
      ∀ d, r = .ok d → d.flight = f ∧ ∀ row, d.revocation = some row → l = some row)
    (build cfg sub f).run (.building f gen none) := by
  refine .seq buildWBA_spec ?_ fun st ds hds => ?_
  · exact fun st e he => ⟨none, he.1, by simp⟩
  obtain ⟨rfl, hds⟩ := hds
  refine .seq buildCard_spec ?_ fun st ds' hds' => ?_
  · exact fun st e he => ⟨none, he.1, by simp⟩
  obtain ⟨rfl, hds'⟩ := hds'
  obtain ⟨hf, hrev⟩ := hds ds rfl
  obtain ⟨hf', hrev'⟩ := hds' ds' rfl
  refine .seq (buildRevocation_spec (hrev'.trans hrev)) ?_ fun st d hd => ?_
  · rintro st e ⟨l, hst, -⟩
    exact ⟨l, hst, by simp⟩
  obtain ⟨l, rfl, hd⟩ := hd
  obtain ⟨hfd, hrow⟩ := hd d rfl
  refine buildManifest_spec.mono (fun _ _ hg => hg) fun st r hr => ⟨l, hr.1, fun d' hd' => ?_⟩
  obtain ⟨hfd', hrevd'⟩ := hr.2 d' hd'
  exact ⟨hfd'.trans (hfd.trans (hf'.trans hf)), fun row h => hrow row (hrevd' ▸ h)⟩

theorem loadPositive_spec {st miss : Stage} {peek : Entry → Stage} {hit : DocSet → Stage}
    (hst : st = .start ∨ ∃ f, st = .leading f) (hnone : st.load none = miss)
    (hsome : ∀ e, st.load (some e) = peek e)
    (hlive : ∀ e now, (peek e).compare now = if now < e.expires then hit e.docs else miss) :
    Walks sub (fun st' r => st' = match r with
        | some d => hit d
        | none => miss) (loadPositive sub) st := by
  refine ⟨⟨rfl, hst⟩, fun e t ht => ?_⟩
  cases ht
  rcases e with _ | e
  · exact hnone
  · refine ⟨trivial, fun (now : ℤ) t ht => ?_⟩
    cases ht
    change Spec _ _ _ (if now < e.expires then _ else _) ((st.load (some e)).compare now)
    rw [hsome, hlive]
    split_ifs
    · rfl
    · rfl

theorem lead_spec : Walks sub
    (fun st b => (∃ d, b = .ok d ∧ st = .found f d) ∨ (∃ d, b = .ok d ∧ st = .stored f d) ∨
      ∃ e gen l, b = .error e ∧ st = .building f gen l) (lead cfg sub f) (.leading f) := by
  have hload : Walks sub (fun st' r => st' = match r with
        | some d => .found f d
        | none => .cold f) (loadPositive sub) (.leading f) :=
    loadPositive_spec (.inr ⟨f, rfl⟩) rfl (fun _ => rfl) fun _ _ => rfl
  refine .bind (hload.mono (fun _ _ hg => hg) fun st r hst => ?_)
  subst hst
  split
  next d => exact .inl ⟨d, rfl, rfl⟩
  · refine ⟨⟨rfl, .inr ⟨f, rfl⟩⟩, fun a t ht => ?_⟩
    cases ht
    rcases a with _ | a
    · refine ⟨⟨rfl, f, rfl⟩, fun (gen : ℕ) t ht => ?_⟩
      cases ht
      change Spec _ _ _ ((build cfg sub f).run >>= _) (Stage.building f gen none)
      refine .bind (build_spec.mono (fun _ _ hg => hg) fun st r hst => ?_)
      obtain ⟨l, rfl, hd⟩ := hst
      cases r with
      | error e => exact .inr (.inr ⟨e, gen, l, rfl, rfl⟩)
      | ok d =>
        refine ⟨trivial, fun now t ht => ?_⟩
        cases ht
        refine ⟨⟨rfl, f, l, rfl, hd d rfl⟩, fun victim t ht => ?_⟩
        cases ht
        exact .inr (.inl ⟨d, rfl, rfl⟩)
    · exact .inl ⟨_, rfl, rfl⟩

theorem get_spec : Walks sub (MayReturn sub) (get cfg sub) .start := by
  unfold get
  split_ifs with hvalid
  · have hload : Walks sub (fun st' r => st' = match r with
          | some d => .served d
          | none => .missed) (loadPositive sub) .start :=
      loadPositive_spec (.inl rfl) rfl (fun _ => rfl) fun _ _ => rfl
    refine .bind (hload.mono (fun _ _ hg => hg) fun st r hst => ?_)
    subst hst
    split
    next d => exact .inl ⟨d, rfl, rfl⟩
    · refine ⟨⟨rfl, .inl rfl⟩, fun a t ht => ?_⟩
      cases ht
      rcases a with _ | a
      · refine ⟨⟨rfl, rfl⟩, fun seat t ht => ?_⟩
        cases ht
        rcases seat with f | f
        · change Spec _ _ _ (lead cfg sub f >>= _) (Stage.leading f)
          refine .bind (lead_spec.mono (fun _ _ hg => hg) fun st b hst => ?_)
          refine ⟨⟨rfl, hst⟩, fun _ t ht => ?_⟩
          cases ht
          exact .inr (.inr (.inl ⟨f, rfl⟩))
        · refine ⟨rfl, fun b t ht => ?_⟩
          cases ht
          exact .inr (.inl rfl)
      · exact .inl ⟨_, rfl, rfl⟩
  · exact .inr (.inr (.inr ⟨by simpa using hvalid, rfl⟩))

end Publisher

def State.list (s : State) (sub : String) : RevocationList :=
  (s.tables.rowOf sub).getD .baseline

def Cache.Forgets (sub : String) (c c' : Cache) : Prop :=
  c' = c ∨ c' = { c with negative := c.negative.erase sub }

/-- What storing the documents of a build does: nothing if an invalidation or an outage
came between, else it adds an absence, for which another may go, or an entry. -/
inductive Cache.Stores (sub : String) (d : DocSet) (gen : ℕ) (c : Cache) : Cache → Prop
  | dropped : Stores sub d gen c c
  | absence (current : c.gen sub = gen) (empty : d.empty = true) (expires : ℤ)
      (victim : Option String) : Stores sub d gen c
        { c with negative := (c.makeRoom victim).insert sub ⟨expires, d.flight⟩ }
  | entry (current : c.gen sub = gen) (up : d.unavailable = false) (expires : ℤ) :
      Stores sub d gen c
        { c with positive := Function.update c.positive sub (some ⟨d, expires⟩) }

/-- One call of a request for the documents of `subdomain`, at the instant `now` and with
the agent's list being `list`. -/
inductive Acts (sub : String) (now : ℤ) (list : RevocationList) :
    Cache → Stage → Cache → Stage → Prop
  | idle (c : Cache) (st : Stage) : Acts sub now list c st c st
  | nothing (c : Cache) : Acts sub now list c .start c .missed
  | peek (c : Cache) (e : Entry) (there : c.positive sub = some e) :
      Acts sub now list c .start c (.peeked e)
  | stale (c : Cache) (e : Entry) : Acts sub now list c (.peeked e) c .missed
  | hit (c : Cache) (e : Entry) (live : now < e.expires) :
      Acts sub now list c (.peeked e) c (.served e.docs)
  | unknown (c c' : Cache) (forgets : c.Forgets sub c') :
      Acts sub now list c .missed c' .missed
  | absent (c : Cache) (a : Absence) (there : c.negative.get? sub = some a) :
      Acts sub now list c .missed c (.served (.none a.flight))
  | lead (c : Cache) (free : c.flights sub = none) :
      Acts sub now list c .missed
        { c with flights := Function.update c.flights sub (some c.nextFlight)
                 nextFlight := c.nextFlight + 1 } (.leading c.nextFlight)
  | join (c : Cache) (f : ℕ) (busy : c.flights sub = some f) :
      Acts sub now list c .missed c (.joined f)
  | answer (c : Cache) (f : ℕ) (b : Built) (ended : c.results f = some b) :
      Acts sub now list c (.joined f) c (.answered b)
  | lookNothing (c : Cache) (f : ℕ) (there : c.positive sub = none) :
      Acts sub now list c (.leading f) c (.cold f)
  | look (c : Cache) (f : ℕ) (e : Entry) (there : c.positive sub = some e) :
      Acts sub now list c (.leading f) c (.looked f e)
  | chill (c : Cache) (f : ℕ) (e : Entry) (stale : e.expires ≤ now) :
      Acts sub now list c (.looked f e) c (.cold f)
  | find (c : Cache) (f : ℕ) (e : Entry) (live : now < e.expires) :
      Acts sub now list c (.looked f e) c (.found f e.docs)
  | findNothing (c c' : Cache) (f : ℕ) (forgets : c.Forgets sub c') :
      Acts sub now list c (.cold f) c' (.cold f)
  | findAbsent (c : Cache) (f : ℕ) (a : Absence) (there : c.negative.get? sub = some a) :
      Acts sub now list c (.cold f) c (.found f (.none a.flight))
  | readGen (c : Cache) (f : ℕ) :
      Acts sub now list c (.cold f) c (.building f (c.gen sub) none)
  | readList (c : Cache) (f gen : ℕ) :
      Acts sub now list c (.building f gen none) c (.building f gen (some list))
  | store (c c' : Cache) (f gen : ℕ) (l : Option RevocationList) (d : DocSet)
      (own : d.flight = f) (read : ∀ row, d.revocation = some row → l = some row)
      (stores : c.Stores sub d gen c') :
      Acts sub now list c (.building f gen l) c' (.stored f d)
  | leave (c : Cache) (st : Stage) (f : ℕ) (b : Built) (leads : st.leads = some f)
      (holds : ∀ d, b = .ok d → st = .found f d ∨ st = .stored f d) :
      Acts sub now list c st
        { c with flights := Function.update c.flights sub none
                 results := Function.update c.results f (some b) } (.left f b)

variable {c : CacheCall} {op : Call} {c' : Cache} {now : ℤ}
  {sub : String} {st : Stage} {s t : State}

variable {r : Reply (.cache c)}

theorem step_cache (h : step (.cache c) s r = some t) :
    Cache.step c s.now s.cache r = some t.cache := by
  obtain ⟨x, hx, rfl⟩ := Option.map_eq_some_iff.mp h
  exact hx

theorem step_cache_same {r : Reply op} (hop : ∀ c, op ≠ .cache c) (h : step op s r = some t) :
    t.cache = s.cache := by
  cases op with
  | cache c => exact absurd rfl (hop c)
  | vault c | table c =>
    obtain ⟨x, -, rfl⟩ := Option.map_eq_some_iff.mp h
    rfl
  | now =>
    simp only [step, Option.ite_none_right_eq_some, Option.some.injEq] at h
    rw [h.2]
  | _ =>
    cases h
    rfl

theorem Cache.stored_stores {c : Cache} {expires negativeExpires : ℤ} {gen : ℕ}
    {victim : Option String} (h : c.stored now sub d gen expires negativeExpires victim = some c') :
    c.Stores sub d gen c' := by
  unfold Cache.stored at h
  split_ifs at h with hgen hvictim hempty hroom hnone
  · cases h
    exact .dropped
  · cases h
    exact .absence (by tauto) hempty negativeExpires victim
  · cases h
    exact .entry (by tauto) (by simp_all) expires

theorem Cache.hasStep_cases {c : Cache} {a : Option Absence} (h : c.hasStep now sub a = some c') :
    a = none ∧ c.Forgets sub c' ∨ ∃ x, a = some x ∧ c' = c ∧ c.negative.get? sub = some x := by
  unfold Cache.hasStep at h
  split at h
  · split_ifs at h with ha
    cases h
    exact .inl ⟨ha, .inl rfl⟩
  next x hx =>
    split_ifs at h with hlive ha ha
    · cases h
      exact .inr ⟨x, ha, rfl, hx⟩
    · cases h
      exact .inl ⟨ha, .inr rfl⟩

theorem acts_cache (hcall : MayCall sub st (.cache c))
    (h : step (.cache c) s r = some t) (list : RevocationList) :
    Acts sub s.now list s.cache st t.cache (st.track (.cache c) r) := by
  have hstep := step_cache h
  cases c with
  | bumpGen name | deletePositive name | deleteNegative name => exact hcall.elim
  | loadPositive name =>
    obtain ⟨rfl, hst⟩ := hcall
    simp only [Cache.step, Option.ite_none_right_eq_some, Option.some.injEq] at hstep
    obtain ⟨he, hc⟩ := hstep
    rw [← hc]
    rcases r with _ | e
    · rcases hst with rfl | ⟨f, rfl⟩
      · exact .nothing _
      · exact .lookNothing _ f he.symm
    · rcases hst with rfl | ⟨f, rfl⟩
      · exact .peek _ e he.symm
      · exact .look _ f e he.symm
  | hasNegative name =>
    obtain ⟨rfl, hst⟩ := hcall
    rcases Cache.hasStep_cases hstep with ⟨rfl, hforgets⟩ | ⟨x, rfl, hc, hx⟩
    · rcases hst with rfl | ⟨f, rfl⟩
      · exact .unknown _ _ hforgets
      · exact .findNothing _ _ f hforgets
    · rw [hc]
      rcases hst with rfl | ⟨f, rfl⟩
      · exact .absent _ x hx
      · exact .findAbsent _ f x hx
  | readGen name =>
    obtain ⟨rfl, f, rfl⟩ := hcall
    simp only [Cache.step, Option.ite_none_right_eq_some, Option.some.injEq] at hstep
    obtain ⟨hg, hc⟩ := hstep
    rw [← hc]
    subst hg
    exact .readGen _ f
  | store name d gen expires negativeExpires =>
    obtain ⟨rfl, f, l, rfl, hf, hl⟩ := hcall
    exact .store _ _ f gen l d hf hl (Cache.stored_stores hstep)
  | enter name =>
    obtain ⟨rfl, rfl⟩ := hcall
    simp only [Cache.step, Cache.enterStep] at hstep
    split at hstep
    next hfree =>
      simp only [Option.ite_none_right_eq_some, Option.some.injEq] at hstep
      obtain ⟨rfl, hc⟩ := hstep
      rw [← hc]
      exact .lead _ hfree
    next f hbusy =>
      simp only [Option.ite_none_right_eq_some, Option.some.injEq] at hstep
      obtain ⟨rfl, hc⟩ := hstep
      rw [← hc]
      exact .join _ f hbusy
  | leave name f b =>
    obtain ⟨rfl, hst⟩ := hcall
    have hc := Option.some.inj hstep
    rw [← hc]
    refine .leave _ st f b ?_ fun d hd => ?_
    · rcases hst with ⟨d, -, rfl⟩ | ⟨d, -, rfl⟩ | ⟨e, gen, l, -, rfl⟩ <;> rfl
    · rcases hst with ⟨d', hb, rfl⟩ | ⟨d', hb, rfl⟩ | ⟨e, gen, l, hb, rfl⟩
      · obtain rfl := Except.ok.inj (hb.symm.trans hd)
        exact .inl rfl
      · obtain rfl := Except.ok.inj (hb.symm.trans hd)
        exact .inr rfl
      · cases hb.symm.trans hd
  | await f =>
    obtain rfl := hcall
    simp only [Cache.step, Option.ite_none_right_eq_some, Option.some.injEq] at hstep
    obtain ⟨hb, hc⟩ := hstep
    rw [← hc]
    exact .answer _ f r hb

theorem acts_now (c : Cache) (now : ℤ) (list : RevocationList) :
    Acts sub now list c st c (st.compare now) := by
  cases st with
  | peeked e =>
    simp only [Stage.compare]
    split_ifs with hlive
    · exact .hit c e hlive
    · exact .stale c e
  | looked f e =>
    simp only [Stage.compare]
    split_ifs with hlive
    · exact .find c f e hlive
    · exact .chill c f e (not_lt.mp hlive)
  | _ => exact .idle c _

theorem step_acts {r : Reply op} (hcall : MayCall sub st op) (h : step op s r = some t) :
    Acts sub s.now (s.list sub) s.cache st t.cache (st.track op r) := by
  cases op with
  | cache c => exact acts_cache hcall h _
  | now =>
    rw [step_cache_same (by simp) h]
    simp only [step, Option.ite_none_right_eq_some] at h
    rw [← h.1]
    exact acts_now _ _ _
  | vault c =>
    rw [step_cache_same (by simp) h]
    exact .idle _ _
  | table c =>
    rw [step_cache_same (by simp) h]
    cases c with
    | getRevocation name =>
      obtain ⟨rfl, f, gen, rfl⟩ := hcall
      have htable := (step_table h).1
      rcases r with e | row
      · exact .idle _ _
      · simp only [Tables.step, Option.ite_none_right_eq_some] at htable
        rw [htable.1]
        exact .readList _ f gen
    | _ => exact .idle _ _
  | _ => exact hcall.elim

end Ramp.Identity
