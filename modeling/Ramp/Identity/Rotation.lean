import Ramp.Identity.Publisher
import Ramp.Identity.Revocation
import Ramp.Identity.Tending

/-! The keys of an agent under rotation. Passes of the scheduler follow each other, each possibly
cut short and with any calls failing; as long as some pass succeeds within every span shorter
than the overlap, the agent always holds a key in force. -/

namespace Ramp.Identity

open Prog

variable {cfg : SchedulerConfig} {sub : String} {B : ℤ} {x y : Moment}

section

variable {name : String}

theorem KeyStore.list_avoids (name : String) : (list name).run.Only (Avoids sub) :=
  (list_reads name).mono fun _ h => h.avoids

namespace Scheduler

theorem passOver_aside (hne : name ≠ sub) (hx : x.1.now ≤ B) :
    Tends cfg sub B (fun y _ => Still sub B x y) (passOver cfg name) x := by
  have hminds : Minds (· ≠ sub) (passOver cfg name) := passOver_minds cfg name hne
  exact Still.of_only hminds.only hx

theorem passAll_aside (subs : List String) (hsub : sub ∉ subs) (hx : x.1.now ≤ B) :
    Tends cfg sub B (fun y _ => Still sub B x y) (passAll cfg subs) x := by
  have hnames : ∀ name ∈ subs, name ≠ sub := fun _ hname h => hsub (h ▸ hname)
  exact Still.of_only (passAll_minds cfg subs hnames).only hx

end Scheduler

end

variable {n : Key}

variable {ref : Ref}

section

variable {z : Moment} {n' : Key}

theorem Passed.before (hon : Onward cfg sub B x n y n')
    (h : Passed cfg sub B y n' z) : Passed cfg sub B x n z := by
  obtain ⟨n'', hon', hends⟩ := h
  have hlater := hon.later
  refine ⟨n'', hon.trans hon', fun hok => ?_⟩
  obtain ⟨hdue, t, hyt, htz, hall⟩ := hends hok
  exact ⟨by omega, t, by omega, htz, hall⟩

theorem Passed.still (h : Passed cfg sub B x n y) (hs : Still sub B y z) :
    Passed cfg sub B x n z := by
  obtain ⟨n', hon, hends⟩ := h
  refine ⟨n', hon.trans (Onward.of_still hon.tended hs), fun hok => ?_⟩
  obtain ⟨hdue, t, hxt, hty, hall⟩ := hends (hs.ok hok)
  refine ⟨hdue, t, hxt, hty.trans hs.later, fun k hk hh => ?_⟩
  exact hall k hk ((hs.has_iff hk).mp hh)

theorem Passed.of_failed (ht : Tended cfg sub x.1 n) (h : Still sub B x y)
    (hok : y.2 = false) : Passed cfg sub B x n y :=
  ⟨n, Onward.of_still ht h, fun hy => by simp [hok] at hy⟩

theorem Scheduler.passAll_meets (hperiod : 0 < cfg.period) (hoverlap : 0 < cfg.overlap)
    (subs : List String) (hsub : sub ∈ subs) (ht : Tended cfg sub x.1 n)
    (hB : B < n.createdAt + (cfg.period + cfg.overlap)) :
    Tends cfg sub B (fun y _ => Passed cfg sub B x n y)
      (passAll cfg subs) x := by
  induction subs generalizing x n with
  | nil => cases hsub
  | cons name subs ih =>
    refine .perform (Avoids.careful ⟨by simp, by simp⟩) fun stop y hy => ?_
    have hstill : Still sub B x y := hy.still ⟨by simp, by simp⟩
    have hty := hstill.tended ht
    have hxy := Onward.of_still ht hstill
    split_ifs with hstop
    · refine .of_failed ht hstill ?_
      obtain ⟨s, -, -, -, -, hok⟩ := hy
      simpa [succeeded, hstop] using hok
    by_cases hname : name = sub
    · subst hname
      refine .bind (passOver_meets hty hperiod hoverlap hB) fun z _ hz => ?_
      have hxz := hz.before hxy
      by_cases hin : name ∈ subs
      · obtain ⟨n', hon, -⟩ := hxz
        have hle := hon.older
        exact (ih hin hon.tended (by omega)).mono fun u _ hu => hu.before hon
      · obtain ⟨n', hon, -⟩ := hz
        exact (passAll_aside subs hin hon.bound).mono fun u _ hu => hxz.still hu
    · have hin : sub ∈ subs :=
        (List.mem_cons.mp hsub).resolve_left fun h => hname h.symm
      refine .bind (passOver_aside hname hstill.bound) fun z _ hz => ?_
      have hxz := hxy.trans (Onward.of_still hty hz)
      exact (ih hin hxz.tended hB).mono fun u _ hu => hu.before hxz

theorem Vault.mem_agents {v : Vault} {secret : Secret} (h : v.secrets.get? ref = some secret) :
    ref.subdomain ∈ v.agents := by
  have hkey : ref ∈ v.secrets.keys := AList.lookup_isSome.mp (by
    rw [show AList.lookup ref v.secrets = some secret from h]
    rfl)
  exact List.mem_dedup.mpr (List.mem_map_of_mem hkey)

theorem KeyStore.listSubdomains_meets (ht : Tended cfg sub x.1 n) :
    Tends cfg sub B (fun y r => Still sub B x y ∧
      match r with
      | .error _ => y.2 = false
      | .ok subs => sub ∈ subs) listSubdomains.run x := by
  refine .ask (Avoids.careful ⟨by simp, by simp⟩) fun r y hw => ?_
  have hstill : Still sub B x y := hw.still ⟨by simp, by simp⟩
  obtain ⟨s, hs, -, hstep, -, hok⟩ := hw
  have hv := (step_vault hstep).1
  simp only [Vault.step, Option.ite_none_right_eq_some] at hv
  have hmem : sub ∈ s.vault.agents := by
    have hheld := Vault.mem_agents ((hs.secret n.ref).trans ht.held)
    rwa [ht.own] at hheld
  rcases Vault.listed_cases hv.1 with ⟨names, rfl, hperm⟩ | ⟨-, hnil⟩ | ⟨f, rfl, hf⟩
  · exact .pure ⟨hstill, List.mem_filter.mpr ⟨hperm.mem_iff.mpr hmem, ht.valid⟩⟩
  · rw [hnil] at hmem
    cases hmem
  · simp only [rawRead, hf, if_false]
    exact .throw ⟨hstill, by simp [hok, succeeded, hf]⟩

theorem Scheduler.runOnce_meets (hperiod : 0 < cfg.period) (hoverlap : 0 < cfg.overlap)
    (ht : Tended cfg sub x.1 n) (hB : B < n.createdAt + (cfg.period + cfg.overlap)) :
    Tends cfg sub B (fun y _ => Passed cfg sub B x n y) (runOnce cfg) x := by
  refine .bind (KeyStore.listSubdomains_meets ht) fun y r hy => ?_
  obtain ⟨hstill, hres⟩ := hy
  split
  · exact .of_failed ht hstill hres
  · exact (passAll_meets hperiod hoverlap _ hres (hstill.tended ht) hB).mono
      fun z _ hz => hz.before (Onward.of_still ht hstill)

end

def Bare (sub : String) (s : State) : Prop :=
  ∀ ref, ref.subdomain = sub → s.secret ref = none

theorem Still.bare (h : Still sub B x y) (hx : Bare sub x.1) : Bare sub y.1 :=
  fun ref href => (h.secret ref href).trans (hx ref href)

variable {op : Call}

theorem Within.first {r : Reply op} (hw : Within B op x r y) (hc : Careful cfg sub x op)
    (hx : Bare sub x.1) : Bare sub y.1 ∨ ∃ n, Tended cfg sub y.1 n := by
  rcases hw.cases sub with hstill | ⟨ref, record, rfl, href, hinst, hwrote⟩ |
    ⟨ref, -, -, hdropped⟩
  · exact .inl (hstill.bare hx)
  · obtain ⟨hvalid, hnow, -, hlast⟩ := hc.adds ref record rfl href (hx ref href) hinst
    obtain ⟨hsub, hvalid⟩ := validateRef_eq_ok.mp hvalid
    rw [href] at hsub
    have honly : ∀ k, k.ref.subdomain = sub → y.1.Has k → k = record.key ref := by
      intro k hk hh
      rcases hwrote.has hk hh with rfl | ⟨-, hkx⟩
      · rfl
      · rw [State.Has, hx _ hk] at hkx
        cases hkx
    refine .inr ⟨record.key ref, hsub, fun ref' secret href' hs => ?_, fun k hk hh => ?_, href, ?_,
      fun k hk hh => .inl (honly k hk hh), hlast⟩
    · rw [hwrote.secret _ href', hx _ href'] at hs
      split_ifs at hs with heq
      cases hs
      exact ⟨heq ▸ hvalid, by simp⟩
    · obtain rfl := honly k hk hh
      exact ⟨hinst, hnow.trans hwrote.later⟩
    · change y.1.secret ref = _
      rw [hwrote.secret _ href, if_pos rfl]
      rfl
  · refine .inl fun ref' href' => ?_
    by_cases heq : ref' = ref
    · subst heq
      exact hdropped.gone.elim (fun h => h.trans (hx ref' href')) id
    · exact (hdropped.secret ref' href' heq).trans (hx ref' href')

theorem Careful.first {record : Record} (hx : Bare sub x.1) (hvalid : validateRef ref = .ok ())
    (hnow : record.createdAt ≤ x.1.now)
    (hlast : record.window.notBefore + (cfg.period + cfg.overlap) ≤ record.window.notAfter) :
    Careful cfg sub x (.vault (.write ref record)) := by
  refine ⟨fun ref' record' he _ _ hinst => ?_, fun ref' record' r he href' hr => ?_, by simp⟩
  · simp only [Call.vault.injEq, VaultCall.write.injEq] at he
    obtain ⟨rfl, rfl⟩ := he
    refine ⟨hvalid, hnow, fun k hk hh => ?_, by omega⟩
    rw [State.Has, hx _ hk] at hh
    cases hh
  · rw [hx ref' href'] at hr
    cases hr

theorem KeyStore.create_first {w : Window} (hx : Bare sub x.1)
    (hlast : w.notBefore + (cfg.period + cfg.overlap) ≤ w.notAfter) :
    Tends cfg sub B (fun _ _ => True) (create sub w).run x := by
  refine .orThrow (fun _ _ => trivial) fun _ _ => ?_
  split_ifs
  · refine .ask (Avoids.careful ⟨by simp, by simp⟩) fun r y hy => ?_
    have hxy : Still sub B x y := hy.still ⟨by simp, by simp⟩
    rcases r with _ | g
    · trivial
    · refine .ask (Avoids.careful ⟨by simp, by simp⟩) fun t z hz => ?_
      have hread : t = z.1.now ∧ Still sub B y z := hz.now
      obtain ⟨rfl, hyz⟩ := hread
      have hbare := (hxy.trans hyz).bare hx
      have hput : Tends cfg sub B (fun _ _ => True)
          (put ⟨sub, g.thumbprint⟩ ⟨g.publicKey, w, z.1.now⟩).run z := by
        refine .orThrow (fun _ _ => trivial) fun _ hv => .ask ?_ fun answer u hu => ?_
        · exact Careful.first hbare hv (le_refl _) hlast
        · split <;> trivial
      exact .seq hput (fun _ _ _ => trivial) fun _ _ _ => trivial
  · trivial

variable {scfg : SignUp.Config}

theorem SignUp.ensureKey_meets (hx : Bare sub x.1) (hB : x.1.now ≤ B)
    (hlife : cfg.period + cfg.overlap ≤ scfg.keyLifetime) :
    Tends cfg sub B (fun _ _ => True) (ensureKey scfg sub).run x := by
  have hlist : Tends cfg sub B (fun y _ => Still sub B x y)
      (rethrow SignUpError.keys (KeyStore.list sub)).run x :=
    Meets.rethrow (Still.of_only (KeyStore.list_avoids sub) hB) fun _ _ hy => hy
  refine .seq hlist (fun _ _ _ => trivial) fun y keys hxy => ?_
  split
  · trivial
  · refine .ask (Avoids.careful ⟨by simp, by simp⟩) fun t z hz => ?_
    have hyz : Still sub B y z := hz.still ⟨by simp, by simp⟩
    have hbare := (hxy.trans hyz).bare hx
    have hlast := Int.add_le_add_left hlife (show ℤ from t)
    refine .seq (P := fun _ _ => True) ?_ (fun _ _ _ => trivial) fun _ _ _ => trivial
    exact .rethrow (KeyStore.create_first hbare hlast) fun _ _ _ => trivial

variable {tr : Trace Call Reply Unit}

section

variable {α : Type}

theorem Run.moment {I : Moment → Prop} {Q : Moment → α → Prop} {p : Program α}
    {c : Pool Call Reply State Unit α}
    (hI : ∀ y op r z, I y → Careful cfg sub y op → Within B op y r z → I z)
    (h : Tends cfg sub B Q p x) (hx : I x)
    (hr : Run step Elapses ⟨x.1, fun _ : Unit => p⟩ tr c) (hB : c.shared.now ≤ B)
    (hinst : ∀ e ∈ tr, Instant e.2.op) :
    ∃ y : Moment, Elapses y.1 c.shared ∧ y.2 = (x.2 && tr.all fun e => succeeded e.2) ∧
      Tends cfg sub B Q (c.threads ()) y ∧ I y := by
  induction hr with
  | start => exact ⟨x, ⟨le_refl _, rfl⟩, by simp, h, hx⟩
  | @call tr c i op next r s run head reply ih =>
    have hnow := step_now reply
    have hB' : c.shared.now ≤ B := hnow ▸ hB
    obtain ⟨y, hel, hok, hm, hy⟩ := ih hB' fun e he => hinst e (List.mem_append_left _ he)
    rw [head] at hm
    have hw : Within B op y r (s, y.2 && succeeded ⟨op, r⟩) :=
      ⟨c.shared, hel, hB', reply, hinst (i, ⟨op, r⟩) (by simp), rfl⟩
    refine ⟨_, ⟨le_refl _, rfl⟩, ?_, ?_, hI _ _ _ _ hy hm.1 hw⟩
    · simp [hok, Bool.and_assoc]
    · simpa using hm.2 r _ hw
  | @env tr c s run move ih =>
    obtain ⟨y, hel, hok, hm, hy⟩ := ih (move.1.trans hB) hinst
    refine ⟨y, ⟨hel.1.trans move.1, ?_⟩, hok, hm, hy⟩
    rw [move.2, hel.2]

theorem Run.now_le {ι : Type} [DecidableEq ι] {c c' : Pool Call Reply State ι α}
    {tr : Trace Call Reply ι} (hr : Run step Elapses c tr c') : c.shared.now ≤ c'.shared.now := by
  induction hr with
  | start => exact le_refl _
  | call run head reply ih => exact ih.trans (step_now reply).ge
  | env run move ih => exact ih.trans move.1

end

structure Pass where
  start : ℤ
  stop : ℤ
  calls : Trace Call Reply Unit
  finished : Bool

def Pass.Successful (p : Pass) : Prop :=
  p.finished = true ∧ (p.calls.all fun e => succeeded e.2) = true

inductive Passes (cfg : SchedulerConfig) (s₀ : State) : List Pass → State → Prop
  | start : Passes cfg s₀ [] s₀
  | wait {ps : List Pass} {s t : State} (before : Passes cfg s₀ ps s) (move : Elapses s t) :
      Passes cfg s₀ ps t
  | pass {ps : List Pass} {s : State} {tr : Trace Call Reply Unit}
      {c : Pool Call Reply State Unit Unit} (before : Passes cfg s₀ ps s)
      (run : Run step Elapses ⟨s, fun _ : Unit => Scheduler.runOnce cfg⟩ tr c)
      (instant : ∀ e ∈ tr, Instant e.2.op) :
      Passes cfg s₀ (ps ++ [⟨s.now, c.shared.now, tr, (c.threads ()).result?.isSome⟩]) c.shared

/-- Every span of length `δ` from the instant `start` on that is over by the instant `t`
contains a successful pass. -/
def Regular (δ start : ℤ) (ps : List Pass) (t : ℤ) : Prop :=
  ∀ u, start ≤ u → u + δ < t → ∃ p ∈ ps, p.Successful ∧ u ≤ p.start ∧ p.stop ≤ u + δ

def SignedUp (scfg : SignUp.Config) (sub : String) (s₀ : State) : Prop :=
  ∃ s tr, ∃ c : Pool Call Reply State Unit (Except SignUpError Unit),
    Bare sub s ∧ Run step Elapses ⟨s, fun _ => (SignUp.ensureKey scfg sub).run⟩ tr c ∧
    (∀ e ∈ tr, Instant e.2.op) ∧ c.shared = s₀ ∧
    ∃ k, k.ref.subdomain = sub ∧ s₀.Has k ∧ k.createdAt = s₀.now

def Newest (sub : String) (s : State) (k : Key) : Prop :=
  k.ref.subdomain = sub ∧ s.Has k ∧
    ∀ k', k'.ref.subdomain = sub → s.Has k' → k'.createdAt ≤ k.createdAt

/-- What a step may do to a key of the agent: erase it after its window, or keep it with an
end that is no later; the newest it keeps as it is. -/
def Tidy (sub : String) (s t : State) : Prop :=
  ∀ k, k.ref.subdomain = sub → s.Has k →
    (t.secret k.ref = none ∧ k.window.notAfter < s.now ∧ ¬ Newest sub s k) ∨
    ∃ k', k'.ref = k.ref ∧ t.Has k' ∧ k'.window.notAfter ≤ k.window.notAfter ∧
      (Newest sub s k → k' = k)

section

variable {δ : ℤ} {s₀ s : State} {ps : List Pass}

variable {start : ℤ} {t : State} {p : Pass} {k : Key}

theorem Regular.of_le {t t' : ℤ} (h : Regular δ start ps t) (hle : t' ≤ t) :
    Regular δ start ps t' :=
  fun u hu hlt => h u hu (by omega)

theorem Regular.left (h : Regular δ start (ps ++ [p]) p.stop) : Regular δ start ps p.stop := by
  intro u hu hlt
  obtain ⟨q, hq, hsucc, hstart, hstop⟩ := h u hu hlt
  rcases List.mem_append.mp hq with hq | hq
  · exact ⟨q, hq, hsucc, hstart, hstop⟩
  · rw [List.mem_singleton.mp hq] at hstop
    omega

structure Current (cfg : SchedulerConfig) (sub : String) (s₀ : State) (ps : List Pass)
    (s : State) (n : Key) : Prop where
  tended : Tended cfg sub s n
  since : s₀.now ≤ n.createdAt
  young : ∀ p ∈ ps, p.Successful → p.start < n.createdAt + cfg.period

section

variable (h : Current cfg sub s₀ ps s n) (hperiod : 0 < cfg.period)
include h hperiod

theorem Current.now_le {t : ℤ} (hreg : Regular δ s₀.now ps t) :
    t ≤ n.createdAt + cfg.period + δ := by
  by_contra hlt
  have hsince := h.since
  obtain ⟨p, hp, hsucc, hstart, -⟩ := hreg (n.createdAt + cfg.period) (by omega) (by omega)
  have hyoung := h.young p hp hsucc
  omega

theorem Current.pass {c : Pool Call Reply State Unit Unit} (hoverlap : 0 < cfg.overlap)
    (hB : c.shared.now < n.createdAt + (cfg.period + cfg.overlap))
    (hr : Run step Elapses ⟨s, fun _ : Unit => Scheduler.runOnce cfg⟩ tr c)
    (hinst : ∀ e ∈ tr, Instant e.2.op) :
    ∃ y n', Elapses y.1 c.shared ∧ y.2 = (tr.all fun e => succeeded e.2) ∧
      Meets (Within c.shared.now) (Careful cfg sub)
        (fun z _ => Passed cfg sub c.shared.now (s, true) n z) (c.threads ()) y ∧
      Onward cfg sub c.shared.now (s, true) n y n' := by
  have hle := Run.now_le hr
  have hmeets : Meets (Within c.shared.now) (Careful cfg sub)
      (fun z _ => Passed cfg sub c.shared.now (s, true) n z) (Scheduler.runOnce cfg)
      ((s, true) : Moment) :=
    Scheduler.runOnce_meets hperiod hoverlap h.tended hB
  have hI : ∀ y op r z, (∃ n', Onward cfg sub c.shared.now (s, true) n y n') →
      Careful cfg sub y op → Within c.shared.now op y r z →
      ∃ n', Onward cfg sub c.shared.now (s, true) n z n' := by
    rintro y op r z ⟨n', hon⟩ hc hw
    obtain ⟨n'', hon'⟩ := hw.onward hc hon.tended
    exact ⟨n'', hon.trans hon'⟩
  obtain ⟨y, hel, hok, hm, n', hon⟩ := Run.moment hI hmeets
    ⟨n, Onward.of_still h.tended (.refl hle)⟩ hr (le_refl _) hinst
  exact ⟨y, n', hel, by simpa using hok, hm, hon⟩

end

theorem Elapses.still (h : Elapses s t) (b : Bool) :
    Still sub t.now ((s, b) : Moment) ((t, b) : Moment) :=
  ⟨fun ref _ => h.secret ref, h.1, le_refl _, fun hb => hb⟩

theorem Elapses.tended (h : Elapses s t) (ht : Tended cfg sub s n) : Tended cfg sub t n := by
  have hstill : Still sub t.now ((s, true) : Moment) (t, true) := h.still true
  exact hstill.tended ht

theorem Current.snoc {m : Key} {b : Bool} (h : Current cfg sub s₀ ps s n)
    (hon : Onward cfg sub B (s, b) n y m) (hel : Elapses y.1 t)
    (hlast : p.Successful → p.start < m.createdAt + cfg.period) :
    Current cfg sub s₀ (ps ++ [p]) t m := by
  have hsince := h.since
  have hle := hon.older
  refine ⟨hel.tended hon.tended, by omega, fun q hq hsucc => ?_⟩
  rcases List.mem_append.mp hq with hq | hq
  · have hyoung := h.young q hq hsucc
    omega
  · obtain rfl := List.mem_singleton.mp hq
    exact hlast hsucc

theorem SignedUp.tended (h : SignedUp scfg sub s₀)
    (hlife : cfg.period + cfg.overlap ≤ scfg.keyLifetime) :
    ∃ n, Tended cfg sub s₀ n ∧ n.createdAt = s₀.now := by
  obtain ⟨s, tr, c, hbare, hr, hinst, rfl, k, hk, hheld, hdate⟩ := h
  have hmeets : Meets (Within c.shared.now) (Careful cfg sub) (fun _ _ => True)
      (SignUp.ensureKey scfg sub).run ((s, true) : Moment) :=
    SignUp.ensureKey_meets hbare (Run.now_le hr) hlife
  have hI : ∀ y op r z, (Bare sub y.1 ∨ ∃ n, Tended cfg sub y.1 n) →
      Careful cfg sub y op → Within c.shared.now op y r z →
      Bare sub z.1 ∨ ∃ n, Tended cfg sub z.1 n := by
    rintro y op r z (hy | ⟨n, hn⟩) hc hw
    · exact hw.first hc hy
    · obtain ⟨n', hon⟩ := hw.onward hc hn
      exact .inr ⟨n', hon.tended⟩
  obtain ⟨y, hel, -, -, hy⟩ := Run.moment hI hmeets (.inl hbare) hr (le_refl _) hinst
  rcases hy with hy | ⟨n, hn⟩
  · rw [State.Has, hel.secret, hy _ hk] at hheld
    cases hheld
  · have htended := hel.tended hn
    refine ⟨n, htended, ?_⟩
    have hle := (htended.dated n htended.own htended.held).2
    rcases htended.newest k hk hheld with rfl | hlt <;> omega

theorem Passes.current (hps : Passes cfg s₀ ps s) (hperiod : 0 < cfg.period)
    (hoverlap : 0 < cfg.overlap) (hδ : δ < cfg.overlap)
    (hfirst : ∃ n, Tended cfg sub s₀ n ∧ n.createdAt = s₀.now)
    (hreg : Regular δ s₀.now ps s.now) : ∃ n, Current cfg sub s₀ ps s n := by
  induction hps with
  | start =>
    obtain ⟨n, hn, hdate⟩ := hfirst
    exact ⟨n, hn, hdate.ge, by simp⟩
  | wait before move ih =>
    obtain ⟨n, hn⟩ := ih (hreg.of_le move.1)
    exact ⟨n, move.tended hn.tended, hn.since, hn.young⟩
  | @pass ps s tr c before run instant ih =>
    have hreg' : Regular δ s₀.now ps c.shared.now := hreg.left
    obtain ⟨n, hn⟩ := ih (hreg'.of_le (Run.now_le run))
    have hnow := hn.now_le hperiod hreg'
    obtain ⟨y, n', hel, hok, hm, hon⟩ := hn.pass hperiod hoverlap (by omega) run instant
    cases hret : (c.threads ()).result? with
    | none =>
      refine ⟨n', hn.snoc hon hel fun hsucc => ?_⟩
      have hfin := hsucc.1
      simp at hfin
    | some u =>
      rw [result?_eq_some.mp hret] at hm
      obtain ⟨n'', hon', hends⟩ := hm
      exact ⟨n'', hn.snoc hon' hel fun hsucc => (hends (hok.trans hsucc.2)).1⟩

theorem Tended.newest_iff (h : Tended cfg sub s n) : Newest sub s k ↔ k = n := by
  constructor
  · rintro ⟨hk, hh, hall⟩
    have hle := hall n h.own h.held
    rcases h.newest k hk hh with rfl | hlt
    · rfl
    · omega
  · rintro rfl
    refine ⟨h.own, h.held, fun k' hk' hh' => ?_⟩
    rcases h.newest k' hk' hh' with rfl | hlt
    · exact le_refl _
    · exact hlt.le

theorem Tended.covers (h : Tended cfg sub s n)
    (hnow : s.now < n.createdAt + (cfg.period + cfg.overlap)) : n.window.Covers s.now := by
  obtain ⟨hd, hle⟩ := h.dated n h.own h.held
  have hlast := h.lasting
  exact ⟨by omega, by omega⟩

theorem Elapses.has_iff (h : Elapses s t) : t.Has k ↔ s.Has k := by
  rw [State.Has, State.Has, h.secret]

theorem Careful.tidy {r : Reply op} (h : Careful cfg sub y op) (hel : Elapses y.1 s)
    (hstep : step op s r = some t) : Tidy sub s t := by
  intro k hk hh
  have hold : y.1.secret k.ref = some (.record k.record) := hel.has_iff.mp hh
  have houtdated : Outdated y.1 sub k.createdAt → ¬ Newest sub s k := by
    rintro ⟨k', hk', hh', hlt⟩ ⟨-, -, hall⟩
    have hle := hall k' hk' (hel.has_iff.mpr hh')
    omega
  have hsame : t.secret k.ref = s.secret k.ref → ∃ k', k'.ref = k.ref ∧ t.Has k' ∧
      k'.window.notAfter ≤ k.window.notAfter ∧ (Newest sub s k → k' = k) :=
    fun he => ⟨k, rfl, he.trans hh, le_refl _, fun _ => rfl⟩
  rcases step_secret hstep k.ref with he | ⟨record, rfl⟩ | ⟨hop, hnone⟩
  · exact .inr (hsame he)
  · rcases step_write hstep k.ref with he | ⟨-, he⟩
    · exact .inr (hsame he)
    · obtain ⟨hshort, hout⟩ := h.shortens k.ref record k.record rfl hk hold
      exact .inr ⟨record.key k.ref, rfl, he, hshort.2, fun hn => absurd hn (houtdated hout)⟩
  · obtain ⟨hended, hout⟩ := h.erases k.ref k.record hop hk hold
    exact .inl ⟨hnone, lt_of_lt_of_le hended hel.1, houtdated hout⟩

/-- Under every rotation period and overlap, and passes of which one succeeds in every span
of a length below the overlap, the agent holds a key in force at every instant after
sign-up; every call of a pass is tidy; and a pass in which nothing failed leaves every key
but the newest ending by an instant of the pass plus the overlap. -/
theorem keys_rotate {cfg : SchedulerConfig} {scfg : SignUp.Config}
    {tr : Trace Call Reply Unit} {c : Pool Call Reply State Unit Unit}
    (hlife : (Scheduler.new cfg).period + (Scheduler.new cfg).overlap ≤ scfg.keyLifetime)
    (hδ : δ < (Scheduler.new cfg).overlap) (hsign : SignedUp scfg sub s₀)
    (hps : Passes (Scheduler.new cfg) s₀ ps s)
    (hr : Run step Elapses ⟨s, fun _ : Unit => Scheduler.runOnce (Scheduler.new cfg)⟩ tr c)
    (hinst : ∀ e ∈ tr, Instant e.2.op) (hreg : Regular δ s₀.now ps c.shared.now) :
    (∃ k, k.ref.subdomain = sub ∧ c.shared.Has k ∧ k.window.Covers c.shared.now) ∧
    (∀ op next r t, c.threads () = .call op next → step op c.shared r = some t →
      Tidy sub c.shared t) ∧ (c.threads () = .ret () → (tr.all fun e => succeeded e.2) = true →
      ∃ t, s.now ≤ t ∧ t ≤ c.shared.now ∧ ∀ k, k.ref.subdomain = sub → c.shared.Has k →
        Newest sub c.shared k ∨ k.window.notAfter ≤ t + (Scheduler.new cfg).overlap) := by
  have hperiod : 0 < (Scheduler.new cfg).period := Scheduler.new_period_pos cfg
  have hoverlap : 0 < (Scheduler.new cfg).overlap := Scheduler.new_overlap_pos cfg
  obtain ⟨n, hn⟩ := hps.current hperiod hoverlap hδ (hsign.tended hlife)
    (hreg.of_le (Run.now_le hr))
  have hnow := hn.now_le hperiod hreg
  obtain ⟨y, n', hel, hok, hm, hon⟩ := hn.pass hperiod hoverlap (by omega) hr hinst
  have htended := hel.tended hon.tended
  refine ⟨⟨n', htended.own, htended.held, htended.covers ?_⟩, fun op next r t hcall hstep => ?_,
    fun hret hall => ?_⟩
  · have hle := hon.older
    omega
  · rw [hcall] at hm
    exact hm.1.tidy hel hstep
  · rw [hret] at hm
    obtain ⟨n'', hon', hends⟩ := hm
    obtain ⟨-, t, hst, hty, hkeys⟩ := hends (hok.trans hall)
    refine ⟨t, hst, hty.trans hel.1, fun k hk hh => ?_⟩
    rcases hkeys k hk (hel.has_iff.mp hh) with rfl | hle
    · exact .inl ((hel.tended hon'.tended).newest_iff.mpr rfl)
    · exact .inr hle

end

def answerKey (g : Generated) (c : Call) (s : State) : Reply c :=
  match c with
  | .vault .generateKey => some g
  | c => s.answer c

def rotation : SchedulerConfig := ⟨10, 10⟩

def signUpOutcome : Trace Call Reply Unit × Pool Call Reply State Unit (Except SignUpError Unit) :=
  Pool.outcome step (List.replicate 5 ⟨(), answerKey ⟨"b", elderRef.thumbprint⟩⟩)
    ⟨.initial, fun _ => (SignUp.ensureKey ⟨"example", 30⟩ elderRef.subdomain).run⟩

def passAt (s : State) (t : ℤ) (n : ℕ) : Trace Call Reply Unit × Pool Call Reply State Unit Unit :=
  Pool.outcome step (List.replicate n ⟨(), answerKey ⟨"a", youngerRef.thumbprint⟩⟩)
    ⟨{ s with now := t }, fun _ => Scheduler.runOnce (Scheduler.new rotation)⟩

def earlyPass : Trace Call Reply Unit × Pool Call Reply State Unit Unit :=
  passAt signUpOutcome.2.shared 5 10

def latePass : Trace Call Reply Unit × Pool Call Reply State Unit Unit :=
  passAt earlyPass.2.shared 12 24

theorem signUpOutcome_signedUp :
    SignedUp ⟨"example", 30⟩ elderRef.subdomain signUpOutcome.2.shared := by
  refine ⟨.initial, signUpOutcome.1, signUpOutcome.2, fun _ _ => rfl, Pool.outcome_run _ _, ?_, rfl,
    (⟨"b", ⟨0, 30⟩, 0⟩ : Record).key elderRef, rfl, ?_, ?_⟩
  · decide +kernel
  · change signUpOutcome.2.shared.secret elderRef = some (.record ⟨"b", ⟨0, 30⟩, 0⟩)
    decide +kernel
  · decide +kernel

theorem earlyPass_passes : Passes (Scheduler.new rotation) signUpOutcome.2.shared
    [⟨5, 5, earlyPass.1, true⟩] earlyPass.2.shared := by
  have hwait : Passes (Scheduler.new rotation) signUpOutcome.2.shared []
      { signUpOutcome.2.shared with now := 5 } := .wait .start ⟨by decide +kernel, rfl⟩
  have hrun : Run step Elapses ⟨{ signUpOutcome.2.shared with now := 5 },
      fun _ : Unit => Scheduler.runOnce (Scheduler.new rotation)⟩ earlyPass.1 earlyPass.2 :=
    Pool.outcome_run _ _
  have hpass := hwait.pass hrun (by decide +kernel)
  have hstop : earlyPass.2.shared.now = 5 := by decide +kernel
  have hfinished : (earlyPass.2.threads ()).result?.isSome = true := by decide +kernel
  rwa [hstop, hfinished] at hpass

/-- The late pass gives the agent a second key and shortens the first. -/
theorem keys_rotate_late_pass :
    latePass.2.shared.secret elderRef = some (.record ⟨"b", ⟨0, 22⟩, 0⟩) ∧
    (∃ k, k.ref.subdomain = elderRef.subdomain ∧ latePass.2.shared.Has k ∧
      k.window.Covers latePass.2.shared.now) ∧
    ∃ t, 12 ≤ t ∧ t ≤ latePass.2.shared.now ∧ ∀ k, k.ref.subdomain = elderRef.subdomain →
      latePass.2.shared.Has k → Newest elderRef.subdomain latePass.2.shared k ∨
        k.window.notAfter ≤ t + 10 := by
  have hwait : Passes (Scheduler.new rotation) signUpOutcome.2.shared
      [⟨5, 5, earlyPass.1, true⟩] { earlyPass.2.shared with now := 12 } :=
    .wait earlyPass_passes ⟨by decide +kernel, rfl⟩
  have hrun : Run step Elapses ⟨{ earlyPass.2.shared with now := 12 },
      fun _ : Unit => Scheduler.runOnce (Scheduler.new rotation)⟩ latePass.1 latePass.2 :=
    Pool.outcome_run _ _
  have hstop : latePass.2.shared.now = 12 := by decide +kernel
  have hbegin : signUpOutcome.2.shared.now = 0 := by decide +kernel
  have hsuccess : Pass.Successful ⟨5, 5, earlyPass.1, true⟩ := ⟨rfl, by decide +kernel⟩
  have hreg : Regular 9 signUpOutcome.2.shared.now [⟨5, 5, earlyPass.1, true⟩]
      latePass.2.shared.now := by
    intro u hu hlt
    exact ⟨_, List.mem_cons_self, hsuccess, show u ≤ 5 by omega, show 5 ≤ u + 9 by omega⟩
  have hlife : (Scheduler.new rotation).period + (Scheduler.new rotation).overlap ≤
      (⟨"example", 30⟩ : SignUp.Config).keyLifetime := by decide
  have hδ : 9 < (Scheduler.new rotation).overlap := by decide
  obtain ⟨hcovered, -, hends⟩ := keys_rotate hlife hδ signUpOutcome_signedUp hwait hrun
    (by decide +kernel) hreg
  refine ⟨by decide +kernel, hcovered, hends ?_ (by decide +kernel)⟩
  exact result?_eq_some.mp (by decide +kernel)

end Ramp.Identity
