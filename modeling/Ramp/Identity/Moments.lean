import Ramp.Identity.KeyConduct
import Ramp.Program.Observed

/-! One program at work on the keys of an agent while the clock moves and calls fail. A
moment is a state with a note whether every call up to it succeeded; a listing that
succeeded is the agent's keys at that moment, newest first. -/

namespace Ramp.Identity

open Prog

def Key.record (k : Key) : Record := ⟨k.publicKey, k.window, k.createdAt⟩

def State.Has (s : State) (k : Key) : Prop := s.secret k.ref = some (.record k.record)

def succeeded : Event Call Reply → Bool
  | ⟨.vault .listAgents, (r : Except VaultFault (List String))⟩
  | ⟨.vault (.listKeys _), (r : Except VaultFault (List String))⟩ =>
    match r with
    | .ok _ => true
    | .error f => f = .nothingThere
  | ⟨.vault (.read _), (r : Except VaultFault (Option Secret))⟩ =>
    match r with
    | .ok _ => true
    | .error f => f = .nothingThere
  | ⟨.vault (.write _ _), (w : Written VaultFault Unit)⟩
  | ⟨.vault (.deleteMetadata _), (w : Written VaultFault Unit)⟩ => w.confirmed
  | ⟨.vault .generateKey, (g : Option Generated)⟩ => g.isSome
  | ⟨.cancelled, (stop : Bool)⟩ => !stop
  | _ => true

def Instant (op : Call) : Prop :=
  ∀ ref record, op = .vault (.write ref record) → record.createdAt = record.window.notBefore

instance : DecidablePred Instant
  | .vault (.write ref record) =>
    decidable_of_iff (record.createdAt = record.window.notBefore)
      ⟨by rintro h _ _ ⟨⟩; exact h, fun h => h ref record rfl⟩
  | .vault .listAgents | .vault (.listKeys _) | .vault (.read _) | .vault (.deleteMetadata _)
  | .vault .generateKey | .table _ | .cache _ | .now | .unixNano | .newSlug | .cancelled =>
    isTrue (by rintro _ _ ⟨⟩)

abbrev Moment := State × Bool

/-- A call that is answered when some time has passed, not later than `B`. -/
def Within (B : ℤ) (op : Call) (x : Moment) (r : Reply op) (y : Moment) : Prop :=
  ∃ s, Elapses x.1 s ∧ s.now ≤ B ∧ step op s r = some y.1 ∧ Instant op ∧
    y.2 = (x.2 && succeeded ⟨op, r⟩)

def Outdated (s : State) (sub : String) (createdAt : ℤ) : Prop :=
  ∃ k, k.ref.subdomain = sub ∧ s.Has k ∧ createdAt < k.createdAt

def Record.Shortens (record r : Record) : Prop :=
  record = { r with window := { r.window with notAfter := record.window.notAfter } } ∧
    record.window.notAfter ≤ r.window.notAfter

/-- What a call may do to the keys of the agent: give it a youngest key with the whole
period and overlap, shorten a key, or erase one that has ended, the newest excepted. -/
structure Careful (cfg : SchedulerConfig) (sub : String) (x : Moment) (op : Call) : Prop where
  adds : ∀ ref record, op = .vault (.write ref record) → ref.subdomain = sub →
    x.1.secret ref = none → record.createdAt = record.window.notBefore →
      validateRef ref = .ok () ∧ record.createdAt ≤ x.1.now ∧
      (∀ k, k.ref.subdomain = sub → x.1.Has k → k.createdAt < record.createdAt) ∧
      record.createdAt + (cfg.period + cfg.overlap) ≤ record.window.notAfter
  shortens : ∀ ref record r, op = .vault (.write ref record) → ref.subdomain = sub →
    x.1.secret ref = some (.record r) →
      record.Shortens r ∧ Outdated x.1 sub r.createdAt
  erases : ∀ ref r, op = .vault (.deleteMetadata ref) → ref.subdomain = sub →
    x.1.secret ref = some (.record r) →
      r.window.notAfter < x.1.now ∧ Outdated x.1 sub r.createdAt

abbrev Tends {α : Type} (cfg : SchedulerConfig) (sub : String) (B : ℤ) (Q : Moment → α → Prop)
    (p : Program α) (x : Moment) : Prop :=
  Meets (Within B) (Careful cfg sub) Q p x

def Avoids (sub : String) (op : Call) : Prop :=
  (∀ ref record, op = .vault (.write ref record) → ref.subdomain ≠ sub) ∧
    ∀ ref, op = .vault (.deleteMetadata ref) → ref.subdomain ≠ sub

structure Still (sub : String) (B : ℤ) (x y : Moment) : Prop where
  secret : ∀ ref, ref.subdomain = sub → y.1.secret ref = x.1.secret ref
  later : x.1.now ≤ y.1.now
  bound : y.1.now ≤ B
  ok : y.2 = true → x.2 = true

variable {cfg : SchedulerConfig} {sub : String} {B : ℤ} {x y : Moment}

section

variable {z : Moment} {op : Call}

theorem Avoids.careful (h : Avoids sub op) : Careful cfg sub x op where
  adds ref record he href := absurd href (h.1 ref record he)
  shortens ref record _ he href := absurd href (h.1 ref record he)
  erases ref _ he href := absurd href (h.2 ref he)

theorem Reads.avoids (h : Reads op) : Avoids sub op :=
  show Touches (· ≠ sub) op from h.touches

theorem Still.refl (hx : x.1.now ≤ B) : Still sub B x x :=
  ⟨fun _ _ => rfl, le_refl _, hx, fun h => h⟩

theorem Still.trans (h : Still sub B x y) (h' : Still sub B y z) : Still sub B x z :=
  ⟨fun ref href => (h'.secret ref href).trans (h.secret ref href), h.later.trans h'.later,
    h'.bound, fun hz => h.ok (h'.ok hz)⟩

theorem Still.has_iff (h : Still sub B x y) {k : Key} (hk : k.ref.subdomain = sub) :
    y.1.Has k ↔ x.1.Has k := by
  rw [State.Has, State.Has, h.secret _ hk]

theorem Within.moves {r : Reply op} (h : Within B op x r y) :
    x.1.now ≤ y.1.now ∧ y.1.now ≤ B ∧ (y.2 = true → x.2 = true ∧ succeeded ⟨op, r⟩ = true) := by
  obtain ⟨s, hs, hB, hstep, -, hok⟩ := h
  have hnow := step_now hstep
  refine ⟨by rw [hnow]; exact hs.1, by rw [hnow]; exact hB, fun hy => ?_⟩
  rw [hok] at hy
  exact Bool.and_eq_true_iff.mp hy

theorem Elapses.secret {s t : State} (h : Elapses s t) (ref : Ref) :
    t.secret ref = s.secret ref := by
  rw [h.2]
  rfl

theorem Within.still {r : Reply op} (h : Within B op x r y) (hop : Avoids sub op) :
    Still sub B x y := by
  obtain ⟨hlater, hbound, hok⟩ := h.moves
  refine ⟨fun ref href => ?_, hlater, hbound, fun hy => (hok hy).1⟩
  obtain ⟨s, hs, -, hstep, -, -⟩ := h
  rcases step_secret hstep ref with hsame | ⟨record, hw⟩ | ⟨hd, -⟩
  · exact hsame.trans (hs.secret ref)
  · exact absurd href (hop.1 ref record hw)
  · exact absurd href (hop.2 ref hd)

theorem Still.of_only {α : Type} {p : Program α} (hp : p.Only (Avoids sub)) (hx : x.1.now ≤ B) :
    Tends cfg sub B (fun y _ => Still sub B x y) p x :=
  Meets.of_only hp (fun _ _ h _ => h.careful) (fun _ _ _ _ h hs hw => hs.trans (hw.still h))
    (.refl hx)

end

variable {ref : Ref} {tps : List String} {keys : List Key} {tp : String}

theorem classify_ne_notFound (f : VaultFault) : classify f ≠ .notFound := by
  unfold classify
  split
  · simp
  · split_ifs <;> simp
  · simp
  · simp

theorem Within.read {r : Reply (.vault (.read ref))} (h : Within B (.vault (.read ref)) x r y) :
    r = .ok (x.1.secret ref) ∨ r = .error VaultFault.nothingThere ∧ x.1.secret ref = none ∨
      ∃ f, r = .error f ∧ f ≠ VaultFault.nothingThere ∧ y.2 = false := by
  obtain ⟨s, hs, -, hstep, -, hok⟩ := h
  have hv := (step_vault hstep).1
  cases r with
  | ok z =>
    have hz := Vault.read_step hv
    refine .inl ?_
    rw [hz]
    exact congrArg _ (hs.secret ref)
  | error f =>
    by_cases hf : f = .nothingThere
    · simp only [Vault.step, Option.ite_none_right_eq_some] at hv
      exact .inr (.inl ⟨by rw [hf], (hs.secret ref).symm.trans (hv.1 hf)⟩)
    · exact .inr (.inr ⟨f, rfl, hf, by simp [hok, succeeded, hf]⟩)

namespace KeyStore

def Got (x y : Moment) (ref : Ref) : Except KeyError Record → Prop
  | .ok record => x.1.secret ref = some (.record record)
  | .error e => e = .notFound ∧ x.1.secret ref = none ∨ e ≠ .notFound ∧ y.2 = false

theorem get_meets (hv : validateRef ref = .ok ()) (hsound : x.1.secret ref ≠ some .malformed) :
    Tends cfg sub B (fun y r => Still sub B x y ∧ Got x y ref r)
      (get ref).run x := by
  refine .orThrow (fun e he => by simp [hv] at he) fun _ _ => ?_
  refine .ask (Avoids.careful ⟨by simp, by simp⟩) fun r y hw => ?_
  have hstill : Still sub B x y := hw.still ⟨by simp, by simp⟩
  rcases hw.read with rfl | ⟨rfl, hnone⟩ | ⟨f, rfl, hf, hok⟩
  · cases hx : x.1.secret ref with
    | none => exact .throw ⟨hstill, .inl ⟨rfl, hx⟩⟩
    | some secret =>
      cases secret with
      | malformed => exact absurd hx hsound
      | record record => exact .pure ⟨hstill, hx⟩
  · exact .throw ⟨hstill, .inl ⟨rfl, hnone⟩⟩
  · simp only [rawRead, hf, if_false]
    exact .throw ⟨hstill, .inr ⟨classify_ne_notFound f, hok⟩⟩

structure Read (x : Moment) (sub : String) (tps : List String) (keys : List Key) : Prop where
  mem : ∀ k, k ∈ keys ↔ k.ref.subdomain = sub ∧ k.ref.thumbprint ∈ tps ∧ x.1.Has k
  sublist : (keys.map (·.ref.thumbprint)).Sublist tps

theorem Read.skip (h : Read x sub tps keys) (hnone : x.1.secret ⟨sub, tp⟩ = none) :
    Read x sub (tp :: tps) keys := by
  refine ⟨fun k => ?_, h.sublist.cons tp⟩
  rw [h.mem]
  constructor
  · exact fun ⟨hs, ht, hh⟩ => ⟨hs, List.mem_cons_of_mem _ ht, hh⟩
  · rintro ⟨hs, ht, hh⟩
    rcases List.mem_cons.mp ht with rfl | ht
    · have href : k.ref = ⟨sub, k.ref.thumbprint⟩ := by rw [← hs]
      rw [State.Has, href, hnone] at hh
      cases hh
    · exact ⟨hs, ht, hh⟩

theorem Read.cons {record : Record} (h : Read x sub tps keys)
    (hrec : x.1.secret ⟨sub, tp⟩ = some (.record record)) :
    Read x sub (tp :: tps) (record.key ⟨sub, tp⟩ :: keys) := by
  refine ⟨fun k => ?_, h.sublist.cons_cons tp⟩
  rw [List.mem_cons, h.mem]
  constructor
  · rintro (rfl | ⟨hs, ht, hh⟩)
    · exact ⟨rfl, List.mem_cons_self, hrec⟩
    · exact ⟨hs, List.mem_cons_of_mem _ ht, hh⟩
  · rintro ⟨hs, ht, hh⟩
    rcases List.mem_cons.mp ht with rfl | ht
    · have href : k.ref = ⟨sub, k.ref.thumbprint⟩ := by rw [← hs]
      have hsame : x.1.secret ⟨sub, k.ref.thumbprint⟩ = some (.record k.record) := by
        rw [← href]
        exact hh
      obtain rfl : record = k.record := by simpa using hrec.symm.trans hsame
      exact .inl (by rw [← href]; rfl)
    · exact .inr ⟨hs, ht, hh⟩

theorem readKeys_meets {x₀ : Moment} (hsub : validSubdomain sub = true)
    (hsound : ∀ tp, x₀.1.secret ⟨sub, tp⟩ ≠ some .malformed) (tps : List String)
    (hv : ∀ tp ∈ tps, validThumbprint tp = true) (hx : Still sub B x₀ x) :
    Tends cfg sub B (fun y r => Still sub B x₀ y ∧ match r with
      | .error _ => y.2 = false
      | .ok keys => Read x₀ sub tps keys) (readKeys sub tps).run x := by
  induction tps generalizing x with
  | nil => exact .pure ⟨hx, ⟨by simp, by simp⟩⟩
  | cons tp tps ih =>
    have hvs : ∀ tp ∈ tps, validThumbprint tp = true := fun t ht => hv t (List.mem_cons_of_mem _ ht)
    have hsecret : x.1.secret ⟨sub, tp⟩ = x₀.1.secret ⟨sub, tp⟩ := hx.secret _ rfl
    have hvalid : validateRef ⟨sub, tp⟩ = .ok () :=
      validateRef_eq_ok.mpr ⟨hsub, hv tp List.mem_cons_self⟩
    refine .attempt (get_meets hvalid (by rw [hsecret]; exact hsound tp)) fun y r hy => ?_
    obtain ⟨hstill, hgot⟩ := hy
    split
    · have hnone : x₀.1.secret ⟨sub, tp⟩ = none := by
        rcases hgot with ⟨-, hnone⟩ | ⟨hne, -⟩
        · exact hsecret ▸ hnone
        · exact absurd rfl hne
      refine (ih hvs (hx.trans hstill)).mono fun z r hz => ⟨hz.1, ?_⟩
      cases r with
      | error e => exact hz.2
      | ok keys => exact hz.2.skip hnone
    next e hne =>
      refine .throw ⟨hx.trans hstill, ?_⟩
      rcases hgot with ⟨he, -⟩ | ⟨-, hok⟩
      · exact absurd he (by simpa using hne)
      · exact hok
    next record =>
      refine .seq (ih hvs (hx.trans hstill)) (fun _ _ hz => hz) fun z keys hz => ?_
      exact .pure ⟨hz.1, hz.2.cons (hsecret ▸ hgot)⟩

end KeyStore

structure Lists (s : State) (sub : String) (keys : List Key) : Prop where
  mem : ∀ k, k ∈ keys ↔ k.ref.subdomain = sub ∧ s.Has k
  nodup : keys.Nodup
  sorted : keys.Pairwise ListedFirst

def WellKept (sub : String) (s : State) : Prop :=
  ∀ ref secret, ref.subdomain = sub → s.secret ref = some secret →
    validThumbprint ref.thumbprint = true ∧ secret ≠ .malformed

theorem KeyStore.thumbprints_meets :
    Tends cfg sub B (fun y r => Still sub B x y ∧ match r with
      | .error _ => y.2 = false
      | .ok tps => (∀ tp, tp ∈ tps ↔ validThumbprint tp = true ∧
          (x.1.secret ⟨sub, tp⟩).isSome = true) ∧ tps.Nodup) (thumbprints sub).run x := by
  refine .ask (Avoids.careful ⟨by simp, by simp⟩) fun r y hw => ?_
  have hstill : Still sub B x y := hw.still ⟨by simp, by simp⟩
  obtain ⟨s, hs, -, hstep, -, hok⟩ := hw
  have hv := (step_vault hstep).1
  simp only [Vault.step, Option.ite_none_right_eq_some] at hv
  have hmem : ∀ tp, tp ∈ s.vault.thumbprints sub ↔
      (x.1.secret ⟨sub, tp⟩).isSome = true := by
    intro tp
    rw [Vault.mem_thumbprints, ← hs.secret]
    rfl
  rcases Vault.listed_cases hv.1 with ⟨names, rfl, hperm⟩ | ⟨rfl, hnil⟩ | ⟨f, rfl, hf⟩
  · refine .pure ⟨hstill, fun tp => ?_, ?_⟩
    · rw [List.mem_filter, hperm.mem_iff, hmem]
      exact and_comm
    · exact (hperm.nodup_iff.mpr (s.vault.nodup_thumbprints sub)).filter _
  · refine .pure ⟨hstill, fun tp => ?_, by simp⟩
    have hno := hmem tp
    rw [hnil] at hno
    simp only [List.filter_nil, List.not_mem_nil, false_iff, not_and]
    exact fun _ h => by simpa using hno.mpr h
  · simp only [rawRead, hf, if_false]
    exact .throw ⟨hstill, by simp [hok, succeeded, hf]⟩

theorem KeyStore.list_meets (hsub : validSubdomain sub = true) (hkept : WellKept sub x.1) :
    Tends cfg sub B (fun y r => Still sub B x y ∧ match r with
      | .error _ => y.2 = false
      | .ok keys => Lists x.1 sub keys) (list sub).run x := by
  have hsound : ∀ tp, x.1.secret ⟨sub, tp⟩ ≠ some .malformed :=
    fun tp h => (hkept _ _ rfl h).2 rfl
  refine .orThrow (fun e he => by simp [validateSubdomain, hsub] at he) fun _ _ => ?_
  refine .seq thumbprints_meets (fun _ _ hy => hy) fun y tps hy => ?_
  obtain ⟨hstill, htps, hnodup⟩ := hy
  have hv : ∀ tp ∈ tps, validThumbprint tp = true := fun tp htp => ((htps tp).mp htp).1
  refine .seq (readKeys_meets hsub hsound tps hv hstill) (fun _ _ hz => hz) fun z keys hz => ?_
  obtain ⟨hstill, hread⟩ := hz
  refine .pure ⟨hstill, fun k => ?_, ?_, sortNewestFirst_pairwise keys⟩
  · rw [mem_sortNewestFirst, hread.mem]
    constructor
    · rintro ⟨hs, -, hh⟩
      exact ⟨hs, hh⟩
    · rintro ⟨hs, hh⟩
      have href : k.ref = ⟨sub, k.ref.thumbprint⟩ := by rw [← hs]
      refine ⟨hs, (htps _).mpr ⟨(hkept _ _ hs hh).1, ?_⟩, hh⟩
      rw [← href, hh]
      rfl
  · have hmap := hnodup.sublist hread.sublist
    exact (List.perm_insertionSort ListedFirst keys).nodup_iff.mpr hmap.of_map

end Ramp.Identity
