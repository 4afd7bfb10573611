import Mathlib.Algebra.Order.Group.Int
import Mathlib.Logic.Function.Basic

/-! The cache of a key directory at the edge. Calls share one load, and a directory that was read
serves until its lifetime is over. -/

namespace Ramp.Edge.KeyCache

open Function (update update_of_ne update_self)

structure Imported (K : Type) where
  keys : String → Option K := fun _ => none
  defaultKeyId : Option String := none

/-- The parts that a runtime injects, with the clock and the directory at each instant. -/
structure Deps (K J : Type) where
  keyId : J → Except String String
  importJwk : J → Except String K
  staticKeys : List J
  directory : ℕ → Except String (List J)
  now : ℕ → ℤ
  ttl : ℤ

inductive Call
  | resolve (keyid : Option String)
  | refresh

/-- How far a call has come; `load` is the number of the load that it waits for. -/
inductive Stage (K : Type)
  | idle
  | looking (keyid : Option String)
  | waiting (call : Call) (load : ℕ)
  | reading (keyid : Option String)
  | returned (result : Except String (Option K))

/-- The load in flight, and the directory once that was read. -/
inductive Flight (K : Type)
  | absent
  | asking
  | read (result : Except String (Imported K))

structure World (K ι : Type) where
  instant : ℕ := 0
  cache : Option (String → Option K) := none
  fetchedAt : ℤ := 0
  defaultKeyId : Option String := none
  inflight : Flight K := .absent
  settled : List (Except String Unit) := []
  calls : ι → Stage K := fun _ => .idle

inductive Action (ι : Type)
  | waits
  | begins (i : ι) (call : Call)
  | proceeds (i : ι)
  | loads

namespace Deps

variable {K J ι : Type} (d : Deps K J) [DecidableEq ι]

def importJwks (jwks : List J) : Except String (Imported K) :=
  jwks.foldlM (fun imported jwk => do
    let id ← d.keyId jwk
    let key ← d.importJwk jwk
    return ⟨update imported.keys id (some key),
      imported.defaultKeyId <|> some id⟩) {}

/-- The load that `ensureFresh` waits for, if any, and the load in flight after it. -/
def ensureFresh (w : World K ι) : Option ℕ × Flight K :=
  if w.cache.isSome ∧ d.now w.instant - w.fetchedAt < d.ttl then (none, w.inflight)
  else
    match w.inflight with
    | .absent => (some w.settled.length, .asking)
    | flight => (some w.settled.length, flight)

def become (w : World K ι) (i : ι) (stage : Stage K) : World K ι :=
  { w with calls := update w.calls i stage }

def resolveFetched (w : World K ι) (i : ι) (keyid : Option String) : World K ι :=
  let fresh := d.ensureFresh w
  become { w with inflight := fresh.2 } i
    (fresh.1.elim (.reading keyid) (.waiting (.resolve keyid)))

def lookup (keyid : Option String) (imported : Imported K) : Option K :=
  match keyid <|> imported.defaultKeyId with
  | none => none
  | some id => if id = "" then none else imported.keys id

def proceed (w : World K ι) (i : ι) : World K ι :=
  match w.calls i with
  | .looking keyid =>
    if d.staticKeys = [] then d.resolveFetched w i keyid
    else
      match d.importJwks d.staticKeys with
      | .error e => become w i (.returned (.error e))
      | .ok imported =>
        match lookup keyid imported with
        | some key => become w i (.returned (.ok (some key)))
        | none => d.resolveFetched w i keyid
  | .waiting call load =>
    match w.settled[load]?, call with
    | none, _ => w
    | some (.error e), _ => become w i (.returned (.error e))
    | some (.ok _), .resolve keyid => become w i (.reading keyid)
    | some (.ok _), .refresh => become w i (.returned (.ok none))
  | .reading keyid =>
    become w i (.returned (.ok (w.cache.bind fun keys => lookup keyid ⟨keys, w.defaultKeyId⟩)))
  | _ => w

def begin (w : World K ι) (i : ι) : Call → World K ι
  | .resolve keyid => become w i (.looking keyid)
  | .refresh =>
    let fresh := d.ensureFresh { w with cache := none }
    become { w with cache := none, inflight := fresh.2 } i
      (fresh.1.elim (.returned (.ok none)) (.waiting .refresh))

/-- One step of `load`: the directory is read, or what was read takes its place. -/
def load (w : World K ι) : World K ι :=
  match w.inflight with
  | .absent => w
  | .asking => { w with inflight := .read (d.directory w.instant >>= d.importJwks) }
  | .read (.error e) => { w with inflight := .absent, settled := w.settled ++ [.error e] }
  | .read (.ok imported) =>
    { w with
      cache := some imported.keys
      defaultKeyId := imported.defaultKeyId
      fetchedAt := d.now w.instant
      inflight := .absent
      settled := w.settled ++ [.ok ()] }

def act (w : World K ι) (action : Action ι) : World K ι :=
  let next := match action with
    | .waits => w
    | .begins i call => match w.calls i with
      | .idle => d.begin w i call
      | _ => w
    | .proceeds i => d.proceed w i
    | .loads => d.load w
  { next with instant := w.instant + 1 }

def run (w : World K ι) (actions : List (Action ι)) : World K ι := actions.foldl d.act w

section Healing

variable (id : String) (key : K)

def Has (w : World K ι) : Prop := ∃ keys, w.cache = some keys ∧ keys id = some key

/-- Load `n` is in flight, or it has left the key in the cache. -/
def Awaits (w : World K ι) (n : ℕ) : Prop :=
  n = w.settled.length ∧ w.inflight ≠ .absent ∨ w.settled[n]? = some (.ok ()) ∧ Has id key w

def Progress (w : World K ι) : Stage K → Prop
  | .idle => False
  | .looking keyid => keyid = some id
  | .waiting call n => call = .resolve (some id) ∧ Awaits id key w n
  | .reading keyid => keyid = some id ∧ Has id key w
  | .returned result => result = .ok (some key)

/-- The key is published from instant `start` on, and it is not among the static keys. -/
structure Published (start : ℕ) : Prop where
  ne_empty : id ≠ ""
  misses : ∃ imported, d.importJwks d.staticKeys = .ok imported ∧ imported.keys id = none
  published : ∀ n ≥ start, ∃ imported, (d.directory n >>= d.importJwks) = .ok imported ∧
    imported.keys id = some key

/-- No directory without the key is in use from instant `start` on. -/
structure Current (start : ℕ) (w : World K ι) : Prop where
  flight : ∀ result, w.inflight = .read result →
    ∃ imported, result = .ok imported ∧ imported.keys id = some key
  cached : ∀ keys, w.cache = some keys →
    keys id = some key ∨ ∀ n ≥ start, d.ttl ≤ d.now n - w.fetchedAt

/-- What holds while call `i` resolves the key. -/
structure Heals (start : ℕ) (i : ι) (w : World K ι) : Prop extends d.Current id key start w where
  start_le : start ≤ w.instant
  progress : Progress id key w (w.calls i)

variable {d id key} {w w' : World K ι} {i j : ι} {start : ℕ} {keyid : Option String}

omit [DecidableEq ι] in
theorem Current.fresh (h : d.Current id key start w) (hstart : start ≤ w.instant) :
    (d.Current id key start { w with inflight := (d.ensureFresh w).2 }) ∧
      ((d.ensureFresh w).1 = none ∧ Has id key w ∨
        (d.ensureFresh w).1 = some w.settled.length ∧ (d.ensureFresh w).2 ≠ .absent) ∧
      (w.inflight ≠ .absent → (d.ensureFresh w).2 = w.inflight) := by
  unfold ensureFresh
  split
  next hlive =>
    obtain ⟨keys, hkeys⟩ := Option.isSome_iff_exists.mp hlive.1
    refine ⟨h, .inl ⟨rfl, keys, hkeys, ?_⟩, fun _ => rfl⟩
    rcases h.cached keys hkeys with hkey | hold
    · exact hkey
    · have hh := hold w.instant hstart
      omega
  · split
    next habsent =>
      refine ⟨⟨fun _ hr => ?_, h.cached⟩, .inr ⟨rfl, fun heq => ?_⟩, fun hne => (hne habsent).elim⟩
      · cases hr
      · cases heq
    next hne => exact ⟨h, .inr ⟨rfl, fun heq => hne heq⟩, fun _ => rfl⟩

omit [DecidableEq ι] in
theorem Progress.mono {stage : Stage K} (h : Progress id key w stage)
    (hhas : Has id key w → Has id key w')
    (hawaits : ∀ n, Awaits id key w n → Awaits id key w' n) : Progress id key w' stage := by
  cases stage with
  | waiting => exact h.imp_right (hawaits _)
  | reading => exact h.imp_right hhas
  | _ => exact h

theorem lookup_some (hid : id ≠ "") (imported : Imported K) :
    lookup (some id) imported = imported.keys id := by
  simp [lookup, hid]

theorem Heals.become (h : d.Heals id key start i w) {stage : Stage K}
    (hstage : j = i → Progress id key w stage) : d.Heals id key start i (become w j stage) := by
  refine ⟨⟨h.flight, h.cached⟩, h.start_le, ?_⟩
  change Progress id key w (update w.calls j stage i)
  rcases eq_or_ne j i with rfl | hne
  · rw [update_self]
    exact hstage rfl
  · rw [update_of_ne hne.symm]
    exact h.progress

theorem Heals.resolveFetched (h : d.Heals id key start i w) (hkeyid : j = i → keyid = some id) :
    d.Heals id key start i (d.resolveFetched w j keyid) := by
  obtain ⟨hcurrent, hwaits, hkept⟩ := h.toCurrent.fresh h.start_le
  have hstep : d.Heals id key start i { w with inflight := (d.ensureFresh w).2 } := by
    refine ⟨hcurrent, h.start_le, h.progress.mono (fun hhas => hhas) fun n hn => ?_⟩
    exact hn.imp_left fun ⟨hlen, hne⟩ => ⟨hlen, (hkept hne).symm ▸ hne⟩
  refine hstep.become fun hji => ?_
  rcases hwaits with ⟨hnone, hhas⟩ | ⟨hsome, hne⟩
  · rw [hnone]
    exact ⟨hkeyid hji, hhas⟩
  · rw [hsome]
    exact ⟨by rw [hkeyid hji], .inl ⟨rfl, hne⟩⟩

theorem Heals.proceed (h : d.Heals id key start i w) (hpub : d.Published id key start) (j : ι) :
    d.Heals id key start i (d.proceed w j) := by
  have hp : j = i → Progress id key w (w.calls j) := fun hji => hji ▸ h.progress
  unfold Deps.proceed
  split
  next keyid hst =>
    rw [hst] at hp
    split
    · exact h.resolveFetched hp
    · obtain ⟨imported, hstatic, hmiss⟩ := hpub.misses
      rw [hstatic]
      dsimp only
      split
      next hit hlookup =>
        refine h.become fun hji => ?_
        rw [hp hji, lookup_some hpub.ne_empty, hmiss] at hlookup
        cases hlookup
      · exact h.resolveFetched hp
  next call n hst =>
    rw [hst] at hp
    have hsettled : ∀ r, w.settled[n]? = some r → j = i →
        call = .resolve (some id) ∧ r = .ok () ∧ Has id key w := by
      intro r hr hji
      obtain ⟨hcall, ⟨rfl, -⟩ | ⟨hok, hhas⟩⟩ := hp hji
      · simp at hr
      · exact ⟨hcall, Option.some.inj (hr.symm.trans hok), hhas⟩
    split
    · exact h
    next e _ hr => exact h.become fun hji => (by cases (hsettled _ hr hji).2.1)
    next keyid hr =>
      refine h.become fun hji => ⟨?_, (hsettled _ hr hji).2.2⟩
      cases (hsettled _ hr hji).1
      rfl
    next hr => exact h.become fun hji => (by cases (hsettled _ hr hji).1)
  next keyid hst =>
    rw [hst] at hp
    refine h.become fun hji => ?_
    obtain ⟨rfl, keys, hkeys, hkey⟩ := hp hji
    change Except.ok _ = Except.ok (some key)
    rw [hkeys, Option.bind_some, lookup_some hpub.ne_empty]
    exact congrArg Except.ok hkey
  · exact h

omit [DecidableEq ι] in
theorem Heals.load (h : d.Heals id key start i w) (hpub : d.Published id key start) :
    d.Heals id key start i (d.load w) := by
  unfold Deps.load
  split
  · exact h
  next hflight =>
    obtain ⟨imported, hread, hkey⟩ := hpub.published w.instant h.start_le
    refine ⟨⟨fun result hr => ?_, h.cached⟩, h.start_le,
      h.progress.mono (fun hhas => hhas) fun n hn => hn.imp_left fun ⟨hlen, _⟩ => ⟨hlen, ?_⟩⟩
    · cases hr
      exact ⟨imported, hread, hkey⟩
    · exact fun heq => (by cases heq)
  next e hflight =>
    obtain ⟨imported, hok, -⟩ := h.flight _ hflight
    cases hok
  next imported hflight =>
    obtain ⟨imported', hok, hkey⟩ := h.flight _ hflight
    cases hok
    refine ⟨⟨fun result hr => ?_, fun keys hkeys => .inl ?_⟩, h.start_le,
      h.progress.mono (fun _ => ⟨_, rfl, hkey⟩) fun n hn => .inr ⟨?_, _, rfl, hkey⟩⟩
    · cases hr
    · cases hkeys
      exact hkey
    · dsimp only
      rcases hn with ⟨rfl, -⟩ | ⟨hsettled, -⟩
      · simp
      · rw [List.getElem?_append_left (List.getElem?_eq_some_iff.mp hsettled).1, hsettled]

theorem Heals.act (h : d.Heals id key start i w) (hpub : d.Published id key start)
    {action : Action ι} (hrefresh : ∀ j, action ≠ .begins j .refresh) :
    d.Heals id key start i (d.act w action) := by
  have hlater : ∀ {w' : World K ι}, d.Heals id key start i w' →
      d.Heals id key start i { w' with instant := w.instant + 1 } := fun h' =>
    ⟨⟨h'.flight, h'.cached⟩, Nat.le_succ_of_le h.start_le, h'.progress⟩
  cases action with
  | waits => exact hlater h
  | proceeds j => exact hlater (h.proceed hpub j)
  | loads => exact hlater (h.load hpub)
  | begins j call =>
    refine hlater ?_
    dsimp only
    split
    next hidle =>
      cases call with
      | refresh => exact (hrefresh j rfl).elim
      | resolve keyid =>
        refine h.become fun hji => ?_
        have hp := h.progress
        rw [← hji, hidle] at hp
        exact hp.elim
    · exact h

theorem Heals.run (h : d.Heals id key start i w) (hpub : d.Published id key start)
    {actions : List (Action ι)} (hrefresh : ∀ j, .begins j .refresh ∉ actions) :
    d.Heals id key start i (d.run w actions) := by
  induction actions generalizing w with
  | nil => exact h
  | cons action actions ih =>
    refine ih (h.act hpub fun j heq => ?_) fun j hj => hrefresh j (List.mem_cons_of_mem _ hj)
    exact hrefresh j (heq ▸ List.mem_cons_self)

theorem looked (w : World K ι) (i : ι) (keyid : Option String) :
    (d.proceed w i).calls i ≠ .looking keyid := by
  have hfetched : ∀ k, (d.resolveFetched w i k).calls i ≠ .looking keyid := by
    intro k
    simp only [Deps.resolveFetched, Deps.become, update_self]
    cases (d.ensureFresh w).1 <;> simp
  cases hst : w.calls i with
  | looking k =>
    simp only [Deps.proceed, hst]
    split
    · exact hfetched k
    · split
      · simp [Deps.become]
      · split
        · simp [Deps.become]
        · exact hfetched k
  | waiting call n =>
    simp only [Deps.proceed, hst]
    split <;> simp [Deps.become, hst]
  | _ => simp [Deps.proceed, Deps.become, hst]

theorem settles {n : ℕ}
    (hn : n < w.settled.length ∨ n = w.settled.length ∧ w.inflight ≠ .absent) :
    n < (d.run w [.loads, .loads]).settled.length := by
  cases hw : w.inflight with
  | absent => simpa [Deps.run, Deps.act, Deps.load, hw] using hn
  | asking =>
    simp only [Deps.run, List.foldl, Deps.act, Deps.load, hw]
    cases d.directory w.instant >>= d.importJwks <;> grind
  | read result => cases result <;> simp [Deps.run, Deps.act, Deps.load, hw] <;> omega

theorem load_calls (w : World K ι) : (d.act w .loads).calls = w.calls := by
  simp only [Deps.act, Deps.load]
  split <;> rfl

/-- Once the load has had its two steps, the call returns at its next turns. -/
theorem Heals.returns (h : d.Heals id key start i w) (hpub : d.Published id key start) :
    (d.run w [.proceeds i, .loads, .loads, .proceeds i, .proceeds i]).calls i =
      .returned (.ok (some key)) := by
  have hlooked : ∀ keyid, (d.act w (.proceeds i)).calls i ≠ .looking keyid := looked w i
  have h₁ : d.Heals id key start i (d.act w (.proceeds i)) := h.act hpub fun _ => nofun
  change (d.run (d.run (d.act w (.proceeds i)) [.loads, .loads]) [.proceeds i, .proceeds i]).calls i
    = _
  generalize d.act w (.proceeds i) = w₁ at hlooked h₁
  have h₂ : d.Heals id key start i (d.run w₁ [.loads, .loads]) := h₁.run hpub (by simp)
  have hcalls : (d.run w₁ [.loads, .loads]).calls = w₁.calls :=
    (load_calls _).trans (load_calls _)
  have hsettled : ∀ n, Awaits id key w₁ n → n < (d.run w₁ [.loads, .loads]).settled.length :=
    fun n hn => settles (hn.symm.imp_left fun hr => (List.getElem?_eq_some_iff.mp hr.1).1)
  generalize d.run w₁ [.loads, .loads] = w₂ at h₂ hcalls hsettled
  have h₄ : d.Heals id key start i (d.run w₂ [.proceeds i, .proceeds i]) := h₂.run hpub (by simp)
  have hp₁ := h₁.progress
  have hp₂ := h₂.progress
  have hp₄ := h₄.progress
  rw [hcalls] at hp₂
  suffices hreturned : ∃ r, (d.run w₂ [.proceeds i, .proceeds i]).calls i = .returned r by
    obtain ⟨r, hr⟩ := hreturned
    rw [hr] at hp₄ ⊢
    exact congrArg _ hp₄
  cases hst : w₁.calls i with
  | idle => rw [hst] at hp₂; exact hp₂.elim
  | looking keyid => exact (hlooked keyid hst).elim
  | waiting call n =>
    rw [hst] at hp₁ hp₂
    obtain ⟨rfl, ⟨rfl, -⟩ | ⟨hok, -⟩⟩ := hp₂
    · exact (lt_irrefl _ (hsettled _ hp₁.2)).elim
    · simp [Deps.run, Deps.act, Deps.proceed, Deps.become, hcalls, hst, hok]
  | reading keyid => simp [Deps.run, Deps.act, Deps.proceed, Deps.become, hcalls, hst]
  | returned r => simp [Deps.run, Deps.act, Deps.proceed, hcalls, hst]

/-- A key that is published when the call begins is returned, where no directory without it is in
use then and no refresh drops the directory that the call waited for. -/
theorem published_key_resolved {before after : List (Action ι)}
    (hidle : (d.run {} before).calls i = .idle)
    (hpub : d.Published id key (d.run {} before).instant)
    (hcurrent : d.Current id key (d.run {} before).instant (d.run {} before))
    (hrefresh : ∀ j, .begins j .refresh ∉ after) :
    (d.run {} (before ++ .begins i (.resolve (some id)) :: after ++
      [.proceeds i, .loads, .loads, .proceeds i, .proceeds i])).calls i =
        .returned (.ok (some key)) := by
  unfold Deps.run at *
  rw [List.foldl_append, List.foldl_append, List.foldl_cons]
  generalize before.foldl d.act {} = w at *
  have hbegun : d.Heals id key w.instant i (d.act w (.begins i (.resolve (some id)))) := by
    simp only [Deps.act, hidle]
    refine ⟨⟨hcurrent.flight, hcurrent.cached⟩, Nat.le_succ _, ?_⟩
    change Progress id key _ (Function.update w.calls i _ i)
    rw [Function.update_self]
    rfl
  exact (hbegun.run hpub hrefresh).returns hpub

end Healing

/-- A deployment that pins `k0`, with a directory that publishes `k2` from instant 3 on. -/
def rotating : Deps String String where
  keyId := .ok
  importJwk := .ok
  staticKeys := ["k0"]
  directory n := .ok (if n < 3 then ["k1"] else ["k1", "k2"])
  now n := n
  ttl := 3600000

theorem rotating_published {start : ℕ} (h : 3 ≤ start) :
    rotating.Published "k2" "k2" start := by
  refine ⟨by decide, ⟨_, rfl, rfl⟩, fun n hn => ?_⟩
  have hlate : ¬ n < 3 := by omega
  simp only [rotating, hlate, if_false]
  exact ⟨_, rfl, rfl⟩

theorem published_key_resolved_first_load :
    (rotating.run {} ([.waits, .waits, .waits] ++ .begins () (.resolve (some "k2")) :: [.loads] ++
      [.proceeds (), .loads, .loads, .proceeds (), .proceeds ()])).calls () =
        .returned (.ok (some "k2")) :=
  published_key_resolved rfl (rotating_published le_rfl)
    ⟨fun _ h => (by cases h), fun _ h => (by cases h)⟩ (by simp)

/-- An unknown key id triggers no fetch while the directory read for `k1` is within its lifetime. -/
theorem published_key_missed :
    let before := [.begins true (.resolve (some "k1")), .proceeds true, .loads, .loads]
    rotating.Published "k2" "k2" (rotating.run {} before).instant ∧
      (rotating.run {} (before ++ .begins false (.resolve (some "k2")) :: [] ++
        [.proceeds false, .loads, .loads, .proceeds false, .proceeds false])).calls false =
          .returned (.ok none) :=
  ⟨rotating_published (by decide), rfl⟩

end Deps

end Ramp.Edge.KeyCache
