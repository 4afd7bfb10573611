import Ramp.Identity.Moments

/-! What one pass of the scheduler does to the keys of an agent while the clock moves and
calls fail. The newest key stands, every other key is only shortened or, once it has
ended, erased, and a pass in which nothing failed leaves the newest key young enough. -/

namespace Ramp.Identity

open Prog

/-- An agent whose newest key is `n`: it is the only one of its age, and it has been given
the whole period and overlap. -/
structure Tended (cfg : SchedulerConfig) (sub : String) (s : State) (n : Key) : Prop where
  valid : validSubdomain sub = true
  kept : WellKept sub s
  dated : ∀ k, k.ref.subdomain = sub → s.Has k →
    k.createdAt = k.window.notBefore ∧ k.createdAt ≤ s.now
  own : n.ref.subdomain = sub
  held : s.Has n
  newest : ∀ k, k.ref.subdomain = sub → s.Has k → k = n ∨ k.createdAt < n.createdAt
  lasting : n.createdAt + (cfg.period + cfg.overlap) ≤ n.window.notAfter

variable {cfg : SchedulerConfig} {sub : String} {B : ℤ} {x y : Moment} {n : Key}

variable {s : State} {ref : Ref} {record : Record} {z : Moment}

theorem Has.of_secret (h : s.secret ref = some (.record record)) : s.Has (record.key ref) := h

theorem Still.tended (h : Still sub B x y) (ht : Tended cfg sub x.1 n) : Tended cfg sub y.1 n where
  valid := ht.valid
  kept ref secret href hs := ht.kept ref secret href ((h.secret ref href).symm.trans hs)
  dated k hk hh := by
    obtain ⟨hd, hle⟩ := ht.dated k hk ((h.has_iff hk).mp hh)
    exact ⟨hd, hle.trans h.later⟩
  own := ht.own
  held := (h.has_iff ht.own).mpr ht.held
  newest k hk hh := ht.newest k hk ((h.has_iff hk).mp hh)
  lasting := ht.lasting

theorem Tended.lists_cons (ht : Tended cfg sub x.1 n) {keys : List Key}
    (hl : Lists x.1 sub keys) : ∃ rest, keys = n :: rest := by
  have hn : n ∈ keys := (hl.mem n).mpr ⟨ht.own, ht.held⟩
  cases keys with
  | nil => cases hn
  | cons k rest =>
    have hk := (hl.mem k).mp List.mem_cons_self
    rcases ht.newest k hk.1 hk.2 with rfl | hlt
    · exact ⟨rest, rfl⟩
    · rcases List.mem_cons.mp hn with rfl | hn
      · exact ⟨rest, rfl⟩
      · rcases (List.pairwise_cons.mp hl.sorted).1 n hn with h | ⟨h, -⟩ <;> omega

theorem Tended.older_of_mem (ht : Tended cfg sub x.1 n) {rest : List Key}
    (hl : Lists x.1 sub (n :: rest)) {k : Key} (hk : k ∈ rest) :
    k.ref.subdomain = sub ∧ x.1.Has k ∧ k.createdAt < n.createdAt := by
  obtain ⟨hs, hh⟩ := (hl.mem k).mp (List.mem_cons_of_mem _ hk)
  refine ⟨hs, hh, (ht.newest k hs hh).resolve_left ?_⟩
  rintro rfl
  exact (List.nodup_cons.mp hl.nodup).1 hk

structure Onward (cfg : SchedulerConfig) (sub : String) (B : ℤ) (x : Moment) (n : Key)
    (y : Moment) (n' : Key) : Prop where
  tended : Tended cfg sub y.1 n'
  older : n.createdAt ≤ n'.createdAt
  later : x.1.now ≤ y.1.now
  bound : y.1.now ≤ B
  ok : y.2 = true → x.2 = true

theorem Onward.of_still (ht : Tended cfg sub x.1 n) (h : Still sub B x y) :
    Onward cfg sub B x n y n :=
  ⟨h.tended ht, le_refl _, h.later, h.bound, h.ok⟩

theorem Onward.trans {n' n'' : Key} (h : Onward cfg sub B x n y n')
    (h' : Onward cfg sub B y n' z n'') : Onward cfg sub B x n z n'' :=
  ⟨h'.tended, h.older.trans h'.older, h.later.trans h'.later, h'.bound, fun hz => h.ok (h'.ok hz)⟩

theorem Within.now {t : Reply .now} (h : Within B .now x t y) : t = y.1.now ∧ Still sub B x y := by
  refine ⟨?_, h.still ⟨by simp, by simp⟩⟩
  obtain ⟨s, -, -, hstep, -, -⟩ := h
  simp only [step, Option.ite_none_right_eq_some, Option.some.injEq] at hstep
  rw [← hstep.2]
  exact hstep.1

theorem invalidate_meets (name : String) (hx : x.1.now ≤ B) :
    Tends cfg sub B (fun y _ => Still sub B x y) (invalidate name) x :=
  Still.of_only ((invalidate_reads name).mono fun _ h => h.avoids) hx

structure Wrote (sub : String) (B : ℤ) (x y : Moment) (ref : Ref) (record : Record) :
    Prop where
  secret : ∀ ref', ref'.subdomain = sub →
    y.1.secret ref' = if ref' = ref then some (.record record) else x.1.secret ref'
  later : x.1.now ≤ y.1.now
  bound : y.1.now ≤ B
  ok : y.2 = true → x.2 = true

section

variable {k : Key} (h : Wrote sub B x y ref record) (hk : k.ref.subdomain = sub)
include h hk

theorem Wrote.has (hy : y.1.Has k) : k = record.key ref ∨ k.ref ≠ ref ∧ x.1.Has k := by
  rw [State.Has, h.secret _ hk] at hy
  split_ifs at hy with href
  · obtain rfl : record = k.record := by simpa using hy
    exact .inl (by rw [← href]; rfl)
  · exact .inr ⟨href, hy⟩

theorem Wrote.has_of_ne (hne : k.ref ≠ ref) (hx : x.1.Has k) : y.1.Has k := by
  rw [State.Has, h.secret _ hk, if_neg hne]
  exact hx

end

def Put (sub : String) (B : ℤ) (x y : Moment) (ref : Ref) (record : Record) :
    Except KeyError Unit → Prop
  | .ok _ => Wrote sub B x y ref record
  | .error _ => y.2 = false ∧ (Still sub B x y ∨ Wrote sub B x y ref record)

variable {w : Written VaultFault Unit}

theorem Within.write (h : Within B (.vault (.write ref record)) x w y) :
    Still sub B x y ∧ w.applied = false ∨ Wrote sub B x y ref record := by
  obtain ⟨hlater, hbound, hok⟩ := h.moves
  obtain ⟨s, hs, -, hstep, -, -⟩ := h
  have hv := Option.some.inj (step_vault hstep).1
  by_cases hw : w.applied = true
  · rw [if_pos hw] at hv
    refine .inr ⟨fun ref' _ => ?_, hlater, hbound, fun hy => (hok hy).1⟩
    rw [State.secret, ← hv, Vault.get?_writing]
    split_ifs
    · rfl
    · exact hs.secret ref'
  · rw [if_neg hw] at hv
    refine .inl ⟨⟨fun ref' _ => ?_, hlater, hbound, fun hy => (hok hy).1⟩, by simpa using hw⟩
    rw [State.secret, ← hv]
    exact hs.secret ref'

theorem put_meets (hv : validateRef ref = .ok ())
    (hc : Careful cfg sub x (.vault (.write ref record))) :
    Tends cfg sub B (fun y r =>
      record.createdAt = record.window.notBefore ∧ Put sub B x y ref record r)
      (KeyStore.put ref record).run x := by
  refine .orThrow (fun e he => by simp [hv] at he) fun _ _ => .ask hc fun w y hw => ?_
  have hinst : record.createdAt = record.window.notBefore := by
    obtain ⟨s, -, -, -, hinst, -⟩ := hw
    exact hinst ref record rfl
  have hcases : Still sub B x y ∧ w.applied = false ∨ Wrote sub B x y ref record :=
    hw.write
  cases w with
  | done u =>
    exact .pure ⟨hinst, hcases.resolve_left fun h => by simp [Written.applied] at h⟩
  | failed f applied =>
    have hok : y.2 = false := by
      obtain ⟨s, -, -, -, -, hok⟩ := hw
      simpa [succeeded, Written.confirmed] using hok
    exact .throw ⟨hinst, hok, hcases.imp_left And.left⟩

theorem Wrote.tended_new (h : Wrote sub B x y ref record) (ht : Tended cfg sub x.1 n)
    (href : ref.subdomain = sub) (hvalid : validThumbprint ref.thumbprint = true)
    (hdated : record.createdAt = record.window.notBefore) (hnow : record.createdAt ≤ y.1.now)
    (hnew : n.createdAt < record.createdAt)
    (hlast : record.createdAt + (cfg.period + cfg.overlap) ≤ record.window.notAfter) :
    Tended cfg sub y.1 (record.key ref) where
  valid := ht.valid
  kept ref' secret href' hs := by
    rw [h.secret _ href'] at hs
    split_ifs at hs with heq
    · cases hs
      exact ⟨by rw [heq]; exact hvalid, by simp⟩
    · exact ht.kept ref' secret href' hs
  dated k hk hh := by
    rcases h.has hk hh with rfl | ⟨-, hx⟩
    · exact ⟨hdated, hnow⟩
    · obtain ⟨hd, hle⟩ := ht.dated k hk hx
      exact ⟨hd, hle.trans h.later⟩
  own := href
  held := by
    change y.1.secret ref = _
    rw [h.secret _ href, if_pos rfl]
    rfl
  newest k hk hh := by
    rcases h.has hk hh with rfl | ⟨-, hx⟩
    · exact .inl rfl
    · refine .inr ?_
      change k.createdAt < record.createdAt
      rcases ht.newest k hk hx with rfl | hlt
      · exact hnew
      · omega
  lasting := hlast

theorem Within.generated {g : Generated}
    (h : Within B (.vault .generateKey) x (some g : Option Generated) y) :
    validThumbprint g.thumbprint = true ∧ x.1.secret ⟨sub, g.thumbprint⟩ = none := by
  obtain ⟨s, hs, -, hstep, -, -⟩ := h
  have hv := (step_vault hstep).1
  simp only [Vault.step, Option.ite_none_right_eq_some] at hv
  refine ⟨hv.1.1, ?_⟩
  cases hx : x.1.secret ⟨sub, g.thumbprint⟩ with
  | none => rfl
  | some secret => exact absurd (s.vault.named _ secret ((hs.secret _).trans hx)) hv.1.2

def Minted (cfg : SchedulerConfig) (sub : String) (B : ℤ) (x : Moment) (n : Key) (t : ℤ)
    (y : Moment) (r : Except KeyError Key) : Prop :=
  ∃ n', Onward cfg sub B x n y n' ∧ match r with
    | .error _ => y.2 = false
    | .ok _ => n'.createdAt = t

theorem create_meets {t : ℤ} (ht : Tended cfg sub x.1 n)
    (hpos : 0 < cfg.period + cfg.overlap) (hdue : n.createdAt < t) :
    Tends cfg sub B (Minted cfg sub B x n t)
      (KeyStore.create sub ⟨t, t + (cfg.period + cfg.overlap)⟩).run x := by
  refine .orThrow (fun e he => by simp [validateSubdomain, ht.valid] at he) fun _ _ => ?_
  have hwindow : t < t + (cfg.period + cfg.overlap) := by omega
  rw [if_pos hwindow]
  refine .ask (Avoids.careful ⟨by simp, by simp⟩) fun r y hw => ?_
  have hstill : Still sub B x y := hw.still ⟨by simp, by simp⟩
  rcases r with _ | g
  · have hok : y.2 = false := by
      obtain ⟨s, -, -, -, -, hok⟩ := hw
      simpa [succeeded] using hok
    exact .throw ⟨n, Onward.of_still ht hstill, hok⟩
  · have hgen : validThumbprint g.thumbprint = true ∧
        x.1.secret ⟨sub, g.thumbprint⟩ = none := hw.generated
    obtain ⟨hvalid, hnone⟩ := hgen
    refine .ask (Avoids.careful ⟨by simp, by simp⟩) fun t' z hz => ?_
    have hread : t' = z.1.now ∧ Still sub B y z := hz.now
    obtain ⟨rfl, hstill'⟩ := hread
    have hxz := hstill.trans hstill'
    let record : Record := ⟨g.publicKey, ⟨t, t + (cfg.period + cfg.overlap)⟩, z.1.now⟩
    have habsent : z.1.secret ⟨sub, g.thumbprint⟩ = none := (hxz.secret _ rfl).trans hnone
    have hcareful : Careful cfg sub z (.vault (.write ⟨sub, g.thumbprint⟩ record)) := by
      refine ⟨fun ref record' he _ _ hinst => ?_, fun ref record' r he _ hr => ?_, by simp⟩
      · simp only [Call.vault.injEq, VaultCall.write.injEq] at he
        obtain ⟨rfl, rfl⟩ := he
        have hdate : record.createdAt = t := hinst
        refine ⟨validateRef_eq_ok.mpr ⟨ht.valid, hvalid⟩, le_refl _, fun k hk hh => ?_, ?_⟩
        · have hle := (ht.newest k hk ((hxz.has_iff hk).mp hh))
          rcases hle with rfl | hlt <;> omega
        · change record.createdAt + (cfg.period + cfg.overlap) ≤ t + (cfg.period + cfg.overlap)
          omega
      · simp only [Call.vault.injEq, VaultCall.write.injEq] at he
        rw [← he.1, habsent] at hr
        cases hr
    have honward : ∀ u, record.createdAt = record.window.notBefore →
        Wrote sub B z u ⟨sub, g.thumbprint⟩ record →
        Onward cfg sub B x n u (record.key ⟨sub, g.thumbprint⟩) := by
      intro u hinst hwrote
      have hdate : record.createdAt = t := hinst
      have hlast : record.createdAt + (cfg.period + cfg.overlap) ≤ record.window.notAfter := by
        change record.createdAt + (cfg.period + cfg.overlap) ≤ t + (cfg.period + cfg.overlap)
        omega
      refine ⟨hwrote.tended_new (hxz.tended ht) rfl hvalid hinst hwrote.later ?_ hlast, ?_,
        hxz.later.trans hwrote.later, hwrote.bound, fun hu => hxz.ok (hwrote.ok hu)⟩
      · omega
      · change n.createdAt ≤ record.createdAt
        omega
    refine .seq (put_meets (validateRef_eq_ok.mpr ⟨ht.valid, hvalid⟩) hcareful) ?_ ?_
    · intro u e hu
      obtain ⟨hinst, hok, hput | hput⟩ := hu
      · exact ⟨n, Onward.of_still ht (hxz.trans hput), hok⟩
      · exact ⟨_, honward u hinst hput, hok⟩
    · intro u _ hu
      exact .pure ⟨_, honward u hu.1 hu.2, hu.1⟩

def Rotated (cfg : SchedulerConfig) (sub : String) (B : ℤ) (x : Moment) (n : Key)
    (y : Moment) : Prop :=
  ∃ n', Onward cfg sub B x n y n' ∧ (y.2 = true → x.1.now < n'.createdAt + cfg.period)

theorem Rotated.of_failed (ht : Tended cfg sub x.1 n) (h : Still sub B x y)
    (hok : y.2 = false) : Rotated cfg sub B x n y :=
  ⟨n, Onward.of_still ht h, fun hy => by simp [hok] at hy⟩

theorem rotateIfDue_meets (ht : Tended cfg sub x.1 n) (hperiod : 0 < cfg.period)
    (hoverlap : 0 < cfg.overlap) :
    Tends cfg sub B (fun y _ => Rotated cfg sub B x n y)
      (Scheduler.rotateIfDue cfg sub) x := by
  refine .bind (KeyStore.list_meets ht.valid ht.kept) fun y r hy => ?_
  obtain ⟨hstill, hres⟩ := hy
  split
  · exact Rotated.of_failed ht hstill hres
  · obtain ⟨rest, hrest⟩ := ht.lists_cons hres
    cases hrest
  next newest rest =>
    obtain ⟨rest', hrest⟩ := ht.lists_cons hres
    obtain ⟨rfl, rfl⟩ := List.cons.inj hrest
    refine .perform (Avoids.careful ⟨by simp, by simp⟩) fun t z hz => ?_
    have hread : t = z.1.now ∧ Still sub B y z := hz.now
    obtain ⟨rfl, hstill'⟩ := hread
    have hxz := hstill.trans hstill'
    split_ifs with hdue
    · have hlater := hxz.later
      exact ⟨newest, Onward.of_still ht hxz, fun _ => by omega⟩
    · have hcreate := create_meets (B := B) (t := z.1.now) (hxz.tended ht) (by omega) (by omega)
      refine .bind hcreate fun u made hu => ?_
      obtain ⟨n', honward, hmade⟩ := hu
      have honward' := (Onward.of_still ht hxz).trans honward
      split
      · exact ⟨n', honward', fun hy => by simp [hmade] at hy⟩
      · refine (invalidate_meets sub honward.bound).mono fun v _ hv => ?_
        refine ⟨n', honward'.trans (Onward.of_still honward.tended hv), fun _ => ?_⟩
        have hlater := hxz.later
        omega

def Key.shortened (k : Key) (cutoff : ℤ) : Record :=
  { k.record with window := { k.window with notAfter := cutoff } }

theorem Still.outdated (h : Still sub B x y) {t : ℤ} (ho : Outdated x.1 sub t) :
    Outdated y.1 sub t := by
  obtain ⟨k, hk, hh, hlt⟩ := ho
  exact ⟨k, hk, (h.has_iff hk).mpr hh, hlt⟩

theorem Still.put {r : Except KeyError Unit} (h : Still sub B x y)
    (hp : Put sub B y z ref record r) : Put sub B x z ref record r := by
  have hwrote : Wrote sub B y z ref record → Wrote sub B x z ref record := by
    intro hw
    refine ⟨fun ref' href' => ?_, h.later.trans hw.later, hw.bound, fun hz => h.ok (hw.ok hz)⟩
    rw [hw.secret ref' href', h.secret ref' href']
  cases r with
  | ok u => exact hwrote hp
  | error e => exact ⟨hp.1, hp.2.imp h.trans hwrote⟩

theorem expire_meets {k : Key} {cutoff : ℤ} (hsub : validSubdomain sub = true)
    (hkept : WellKept sub x.1) (hk : k.ref.subdomain = sub) (hh : x.1.Has k)
    (hold : Outdated x.1 sub k.createdAt) (hstart : k.window.notBefore < cutoff)
    (hend : cutoff < k.window.notAfter) : Tends cfg sub B
      (fun y r => Put sub B x y k.ref (k.shortened cutoff) r)
      (KeyStore.expire k.ref cutoff).run x := by
  have hvalid : validateRef k.ref = .ok () :=
    validateRef_eq_ok.mpr ⟨hk.symm ▸ hsub, (hkept _ _ hk hh).1⟩
  have hsound : x.1.secret k.ref ≠ some .malformed := fun h => (hkept _ _ hk h).2 rfl
  refine .seq (KeyStore.get_meets hvalid hsound) (fun y e hy => ?_) fun y record hy => ?_
  · obtain ⟨hstill, ⟨-, hnone⟩ | ⟨-, hok⟩⟩ := hy
    · rw [hh] at hnone
      cases hnone
    · exact ⟨hok, .inl hstill⟩
  · obtain ⟨hstill, hgot⟩ := hy
    obtain rfl : record = k.record := by simpa using hgot.symm.trans hh
    change Tends cfg sub B _ (if cutoff ≤ k.window.notBefore then _ else
      if k.window.notAfter < cutoff then _ else if cutoff = k.window.notAfter then _ else _) y
    rw [if_neg (by omega), if_neg (by omega), if_neg (by omega)]
    have hcareful : Careful cfg sub y (.vault (.write k.ref (k.shortened cutoff))) := by
      have hheld : y.1.secret k.ref = some (.record k.record) := (hstill.secret _ hk).trans hh
      refine ⟨fun ref record' he _ hnone => ?_, fun ref record' r he _ hr => ?_, by simp⟩
      · simp only [Call.vault.injEq, VaultCall.write.injEq] at he
        rw [← he.1, hheld] at hnone
        cases hnone
      · simp only [Call.vault.injEq, VaultCall.write.injEq] at he
        obtain ⟨rfl, rfl⟩ := he
        obtain rfl : r = k.record := by simpa using hr.symm.trans hheld
        exact ⟨⟨rfl, hend.le⟩, hstill.outdated hold⟩
    exact (put_meets hvalid hcareful).mono fun z r hz => hstill.put hz.2

theorem Wrote.tended_shortened {r : Record} (h : Wrote sub B x y ref record)
    (ht : Tended cfg sub x.1 n) (href : ref.subdomain = sub)
    (hr : x.1.secret ref = some (.record r)) (hshort : record.Shortens r)
    (hold : r.createdAt < n.createdAt) : Tended cfg sub y.1 n where
  valid := ht.valid
  kept ref' secret href' hs := by
    rw [h.secret _ href'] at hs
    split_ifs at hs with heq
    · cases hs
      exact ⟨heq ▸ (ht.kept _ _ href hr).1, by simp⟩
    · exact ht.kept ref' secret href' hs
  dated k' hk' hh' := by
    rcases h.has hk' hh' with rfl | ⟨-, hx⟩
    · obtain ⟨hd, hle⟩ := ht.dated (r.key ref) href (Has.of_secret hr)
      rw [hshort.1]
      exact ⟨hd, hle.trans h.later⟩
    · obtain ⟨hd, hle⟩ := ht.dated k' hk' hx
      exact ⟨hd, hle.trans h.later⟩
  own := ht.own
  held := by
    refine h.has_of_ne ht.own ?_ ht.held
    intro heq
    have hsame : n.record = r := by
      have hn := ht.held
      rw [State.Has, heq, hr] at hn
      simpa using hn.symm
    have hdate : n.createdAt = r.createdAt := congrArg Record.createdAt hsame
    omega
  newest k' hk' hh' := by
    rcases h.has hk' hh' with rfl | ⟨-, hx⟩
    · refine .inr ?_
      rw [hshort.1]
      exact hold
    · exact ht.newest k' hk' hx
  lasting := ht.lasting

def Enforced (cfg : SchedulerConfig) (sub : String) (B : ℤ) (x : Moment) (n : Key)
    (cutoff : ℤ) (y : Moment) : Prop :=
  Onward cfg sub B x n y n ∧ (y.2 = true → ∀ k, k.ref.subdomain = sub → y.1.Has k →
    k = n ∨ k.window.notAfter ≤ cutoff)

structure Todo (cfg : SchedulerConfig) (sub : String) (n : Key) (cutoff : ℤ) (x : Moment)
    (todo : List Key) : Prop where
  tended : Tended cfg sub x.1 n
  older : ∀ k ∈ todo, k.ref.subdomain = sub ∧ x.1.Has k ∧ k.createdAt < n.createdAt ∧
    k.window.notBefore < cutoff
  nodup : todo.Nodup
  done : x.2 = true → ∀ k, k.ref.subdomain = sub → x.1.Has k →
    k = n ∨ k ∈ todo ∨ k.window.notAfter ≤ cutoff

theorem Has.eq_of_ref {k k' : Key} (h : s.Has k) (h' : s.Has k') (href : k.ref = k'.ref) :
    k = k' := by
  have hsame : k.record = k'.record := by
    rw [State.Has, href, h'] at h
    simpa using h.symm
  cases k
  simp_all [Key.record]

variable {cutoff t : ℤ} {k : Key} {todo : List Key}

section

variable (h : Todo cfg sub n cutoff x (k :: todo))
include h

theorem Todo.skip (hk : k.window.notAfter ≤ cutoff) : Todo cfg sub n cutoff x todo where
  tended := h.tended
  older k' hk' := h.older k' (List.mem_cons_of_mem _ hk')
  nodup := (List.nodup_cons.mp h.nodup).2
  done hok k' hs hh := by
    rcases h.done hok k' hs hh with rfl | hm | hle
    · exact .inl rfl
    · rcases List.mem_cons.mp hm with rfl | hm
      · exact .inr (.inr hk)
      · exact .inr (.inl hm)
    · exact .inr (.inr hle)

theorem Todo.fail (hstill : Still sub B x y) (hok : y.2 = false) :
    Todo cfg sub n cutoff y todo where
  tended := hstill.tended h.tended
  older k' hk' := by
    obtain ⟨hs, hh, hrest⟩ := h.older k' (List.mem_cons_of_mem _ hk')
    exact ⟨hs, (hstill.has_iff hs).mpr hh, hrest⟩
  nodup := (List.nodup_cons.mp h.nodup).2
  done hy := by simp [hok] at hy

theorem Todo.shorten (hend : cutoff ≤ k.window.notAfter)
    (hw : Wrote sub B x y k.ref (k.shortened cutoff)) : Todo cfg sub n cutoff y todo := by
  obtain ⟨hks, hkh, hkold, -⟩ := h.older k List.mem_cons_self
  obtain ⟨hnotin, hnodup⟩ := List.nodup_cons.mp h.nodup
  refine ⟨hw.tended_shortened h.tended hks hkh ⟨rfl, hend⟩ hkold, fun k' hk' => ?_, hnodup, ?_⟩
  · obtain ⟨hs, hh, hrest⟩ := h.older k' (List.mem_cons_of_mem _ hk')
    refine ⟨hs, hw.has_of_ne hs (fun href => ?_) hh, hrest⟩
    exact hnotin (Has.eq_of_ref hh hkh href ▸ hk')
  · intro hok k' hs hh
    rcases hw.has hs hh with rfl | ⟨hne, hx⟩
    · exact .inr (.inr (le_refl cutoff))
    · rcases h.done (hw.ok hok) k' hs hx with rfl | hm | hle
      · exact .inl rfl
      · rcases List.mem_cons.mp hm with rfl | hm
        · exact absurd rfl hne
        · exact .inr (.inl hm)
      · exact .inr (.inr hle)

end

variable {x₀ : Moment} {ref : Ref}

theorem Onward.wrote (h : Onward cfg sub B x₀ n x n) (hw : Wrote sub B x y ref record)
    (ht : Tended cfg sub y.1 n) : Onward cfg sub B x₀ n y n :=
  ⟨ht, le_refl _, h.later.trans hw.later, hw.bound, fun hy => h.ok (hw.ok hy)⟩

theorem expireAll_meets (todo : List Key) (shortened : Bool)
    (h : Todo cfg sub n cutoff x todo) (hon : Onward cfg sub B x₀ n x n) :
    Tends cfg sub B (fun y _ => Enforced cfg sub B x₀ n cutoff y)
      (Scheduler.expireAll cutoff todo shortened) x := by
  induction todo generalizing x shortened with
  | nil =>
    refine ⟨hon, fun hok k hs hh => ?_⟩
    rcases h.done hok k hs hh with rfl | hm | hle
    · exact .inl rfl
    · cases hm
    · exact .inr hle
  | cons k todo ih =>
    unfold Scheduler.expireAll
    obtain ⟨hks, hkh, hkold, hkstart⟩ := h.older k List.mem_cons_self
    split_ifs with hend
    · exact ih shortened (h.skip hend) hon
    · have hout : Outdated x.1 sub k.createdAt := ⟨n, h.tended.own, h.tended.held, hkold⟩
      have hexpire : Tends cfg sub B (fun y r => Put sub B x y k.ref (k.shortened cutoff) r)
          (KeyStore.expire k.ref cutoff).run x :=
        expire_meets h.tended.valid h.tended.kept hks hkh hout hkstart (by omega)
      refine .bind hexpire fun y r hy => ?_
      cases r with
      | error e =>
        obtain ⟨hok, hstill | hwrote⟩ := hy
        · have hnext := h.fail hstill hok
          exact ih shortened hnext (hon.trans (Onward.of_still h.tended hstill))
        · have hnext := h.shorten (by omega) hwrote
          exact ih shortened hnext (hon.wrote hwrote hnext.tended)
      | ok u =>
        have hwrote : Wrote sub B x y k.ref (k.shortened cutoff) := hy
        have hnext := h.shorten (by omega) hwrote
        exact ih true hnext (hon.wrote hwrote hnext.tended)

theorem enforceOverlap_meets (ht : Tended cfg sub x.1 n) (hoverlap : 0 < cfg.overlap) :
    Tends cfg sub B (fun y _ => ∃ t, x.1.now ≤ t ∧ t ≤ y.1.now ∧
      Enforced cfg sub B x n (t + cfg.overlap) y) (Scheduler.enforceOverlap cfg sub) x := by
  refine .bind (KeyStore.list_meets ht.valid ht.kept) fun y r hy => ?_
  obtain ⟨hstill, hres⟩ := hy
  have hon := Onward.of_still ht hstill
  split
  · exact ⟨y.1.now, hstill.later, le_refl _, hon, fun hok => by simp [hres] at hok⟩
  next keys =>
    obtain ⟨rest, rfl⟩ := ht.lists_cons hres
    split_ifs with hlen
    · have hrest : rest = [] := by
        cases rest with
        | nil => rfl
        | cons a l =>
          simp only [List.length_cons] at hlen
          omega
      subst hrest
      refine ⟨y.1.now, hstill.later, le_refl _, hon, fun _ k hs hh => .inl ?_⟩
      simpa using (hres.mem k).mpr ⟨hs, (hstill.has_iff hs).mp hh⟩
    · refine .perform (Avoids.careful ⟨by simp, by simp⟩) fun t z hz => ?_
      have hread : t = z.1.now ∧ Still sub B y z := hz.now
      obtain ⟨rfl, hstill'⟩ := hread
      have hxz := hstill.trans hstill'
      have hlater := hxz.later
      have htodo : Todo cfg sub n (z.1.now + cfg.overlap) z rest := by
        refine ⟨hxz.tended ht, fun k hk => ?_, (List.nodup_cons.mp hres.nodup).2, ?_⟩
        · obtain ⟨hs, hh, hold⟩ := ht.older_of_mem hres hk
          obtain ⟨hd, hle⟩ := ht.dated k hs hh
          exact ⟨hs, (hxz.has_iff hs).mpr hh, hold, by omega⟩
        · intro _ k hs hh
          have hm := (hres.mem k).mpr ⟨hs, (hxz.has_iff hs).mp hh⟩
          exact (List.mem_cons.mp hm).imp_right .inl
      have hbase := Onward.of_still (hxz.tended ht) (.refl hxz.bound)
      refine .bind (expireAll_meets rest false htodo hbase) fun u b hu => ?_
      obtain ⟨honu, hends⟩ := hu
      have honx := (Onward.of_still ht hxz).trans honu
      split_ifs
      · refine (invalidate_meets sub honu.bound).mono fun v _ hv => ?_
        refine ⟨z.1.now, hlater, honu.later.trans hv.later,
          honx.trans (Onward.of_still honu.tended hv),
          fun hok k hs hh => hends (hv.ok hok) k hs ((hv.has_iff hs).mp hh)⟩
      · exact ⟨z.1.now, hlater, honu.later, honx, hends⟩

structure Dropped (sub : String) (B : ℤ) (x y : Moment) (ref : Ref) : Prop where
  secret : ∀ ref', ref'.subdomain = sub → ref' ≠ ref → y.1.secret ref' = x.1.secret ref'
  gone : y.1.secret ref = x.1.secret ref ∨ y.1.secret ref = none
  later : x.1.now ≤ y.1.now
  bound : y.1.now ≤ B
  ok : y.2 = true → x.2 = true

section

variable (h : Dropped sub B x y ref) (hk : k.ref.subdomain = sub)
include h hk

theorem Dropped.has (hy : y.1.Has k) : x.1.Has k := by
  by_cases href : k.ref = ref
  · subst href
    rcases h.gone with hsame | hnone
    · exact hsame.symm.trans hy
    · rw [State.Has, hnone] at hy
      cases hy
  · exact (h.secret _ hk href).symm.trans hy

theorem Dropped.has_of_ne (hne : k.ref ≠ ref) (hx : x.1.Has k) : y.1.Has k :=
  (h.secret _ hk hne).trans hx

end

theorem Within.delete (h : Within B (.vault (.deleteMetadata ref)) x w y) :
    Dropped sub B x y ref := by
  obtain ⟨hlater, hbound, hok⟩ := h.moves
  obtain ⟨s, hs, -, hstep, -, -⟩ := h
  refine ⟨fun ref' _ hne => ?_, ?_, hlater, hbound, fun hy => (hok hy).1⟩
  · rcases step_secret hstep ref' with hsame | ⟨record, he⟩ | ⟨he, -⟩
    · exact hsame.trans (hs.secret ref')
    · cases he
    · simp only [Call.vault.injEq, VaultCall.deleteMetadata.injEq] at he
      exact absurd he.symm hne
  · rcases step_secret hstep ref with hsame | ⟨record, he⟩ | ⟨-, hnone⟩
    · exact .inl (hsame.trans (hs.secret ref))
    · cases he
    · exact .inr hnone

theorem Dropped.tended (h : Dropped sub B x y ref) (ht : Tended cfg sub x.1 n)
    (hne : n.ref ≠ ref) : Tended cfg sub y.1 n where
  valid := ht.valid
  kept ref' secret href' hs := by
    by_cases heq : ref' = ref
    · subst heq
      rcases h.gone with hsame | hnone
      · exact ht.kept ref' secret href' (hsame.symm.trans hs)
      · rw [hnone] at hs
        cases hs
    · exact ht.kept ref' secret href' ((h.secret _ href' heq).symm.trans hs)
  dated k hk hh := by
    obtain ⟨hd, hle⟩ := ht.dated k hk (h.has hk hh)
    exact ⟨hd, hle.trans h.later⟩
  own := ht.own
  held := h.has_of_ne ht.own hne ht.held
  newest k hk hh := ht.newest k hk (h.has hk hh)
  lasting := ht.lasting

theorem destroy_meets (hv : validateRef ref = .ok ())
    (hc : Careful cfg sub x (.vault (.deleteMetadata ref))) :
    Tends cfg sub B (fun y _ => Dropped sub B x y ref)
      (KeyStore.destroy ref).run x := by
  refine .orThrow (fun e he => by simp [hv] at he) fun _ _ => .ask hc fun w y hw => ?_
  have hdropped : Dropped sub B x y ref := hw.delete
  cases w with
  | done u => exact .pure hdropped
  | failed f applied => exact .throw hdropped

theorem Outdated.lt (h : Outdated x.1 sub t) (ht : Tended cfg sub x.1 n) : t < n.createdAt := by
  obtain ⟨k, hk, hh, hlt⟩ := h
  rcases ht.newest k hk hh with rfl | hle
  · exact hlt
  · omega

variable (sub) in
/-- What a call can do to the keys of an agent. -/
theorem Within.cases {op : Call} {r : Reply op} (hw : Within B op x r y) : Still sub B x y ∨
    (∃ ref record, op = .vault (.write ref record) ∧ ref.subdomain = sub ∧
      record.createdAt = record.window.notBefore ∧ Wrote sub B x y ref record) ∨
    ∃ ref, op = .vault (.deleteMetadata ref) ∧ ref.subdomain = sub ∧ Dropped sub B x y ref := by
  by_cases hav : Avoids sub op
  · exact .inl (hw.still hav)
  simp only [Avoids, not_and_or, not_forall, ne_eq, not_not] at hav
  rcases hav with ⟨ref, record, rfl, href⟩ | ⟨ref, rfl, href⟩
  · refine hw.write.imp And.left fun hwrote => .inl ⟨ref, record, rfl, href, ?_, hwrote⟩
    obtain ⟨s, -, -, -, hinst, -⟩ := hw
    exact hinst ref record rfl
  · exact .inr (.inr ⟨ref, rfl, href, hw.delete⟩)

theorem Within.onward {op : Call} {r : Reply op} (hw : Within B op x r y)
    (hc : Careful cfg sub x op) (ht : Tended cfg sub x.1 n) : ∃ n', Onward cfg sub B x n y n' := by
  obtain ⟨hlater, hbound, hok⟩ := hw.moves
  have hok' : y.2 = true → x.2 = true := fun hy => (hok hy).1
  rcases hw.cases sub with hstill | ⟨ref, record, rfl, href, hinst, hwrote⟩ |
    ⟨ref, rfl, href, hdropped⟩
  · exact ⟨n, Onward.of_still ht hstill⟩
  · cases hx : x.1.secret ref with
    | none =>
      obtain ⟨hvalid, hnow, hnew, hlast⟩ := hc.adds ref record rfl href hx hinst
      have hlt := hnew n ht.own ht.held
      have hvalid := (validateRef_eq_ok.mp hvalid).2
      exact ⟨record.key ref, hwrote.tended_new ht href hvalid hinst (hnow.trans hlater) hlt hlast,
        hlt.le, hlater, hbound, hok'⟩
    | some secret =>
      cases secret with
      | malformed => exact absurd rfl (ht.kept ref _ href hx).2
      | record r =>
        obtain ⟨hshort, hout⟩ := hc.shortens ref record r rfl href hx
        exact ⟨n, hwrote.tended_shortened ht href hx hshort (hout.lt ht), le_refl _, hlater,
          hbound, hok'⟩
  · refine ⟨n, hdropped.tended ht ?_, le_refl _, hlater, hbound, hok'⟩
    rintro rfl
    have hout := (hc.erases n.ref n.record rfl href ht.held).2
    exact lt_irrefl _ (hout.lt ht)

def Pruned (cfg : SchedulerConfig) (sub : String) (B : ℤ) (x : Moment) (n : Key)
    (y : Moment) : Prop :=
  Onward cfg sub B x n y n ∧ ∀ k, k.ref.subdomain = sub → y.1.Has k → x.1.Has k

theorem destroyAll_meets (todo : List Key) (hpruned : Pruned cfg sub B x₀ n x)
    (hlisted : ∀ k ∈ todo, k.ref.subdomain = sub ∧ x.1.Has k) (hnodup : todo.Nodup)
    (hn : cutoff ≤ n.window.notAfter) (hcut : cutoff ≤ x.1.now) :
    Tends cfg sub B (fun y _ => Pruned cfg sub B x₀ n y)
      (Scheduler.destroyAll cutoff todo) x := by
  induction todo generalizing x with
  | nil => exact hpruned
  | cons k todo ih =>
    obtain ⟨hon, hback⟩ := hpruned
    obtain ⟨hks, hkh⟩ := hlisted k List.mem_cons_self
    obtain ⟨hnotin, hnodup'⟩ := List.nodup_cons.mp hnodup
    have hrest : ∀ k ∈ todo, k.ref.subdomain = sub ∧ x.1.Has k :=
      fun k' hk' => hlisted k' (List.mem_cons_of_mem _ hk')
    unfold Scheduler.destroyAll
    split_ifs with hend
    · exact ih ⟨hon, hback⟩ hrest hnodup' hcut
    · have hold : k.createdAt < n.createdAt := by
        refine (hon.tended.newest k hks hkh).resolve_left ?_
        rintro rfl
        exact hend hn
      have hcareful : Careful cfg sub x (.vault (.deleteMetadata k.ref)) := by
        refine ⟨by simp, by simp, fun ref r he href hr => ?_⟩
        simp only [Call.vault.injEq, VaultCall.deleteMetadata.injEq] at he
        subst he
        obtain rfl : r = k.record := by simpa using hr.symm.trans hkh
        refine ⟨?_, n, hon.tended.own, hon.tended.held, hold⟩
        change k.window.notAfter < _
        omega
      have hvalid : validateRef k.ref = .ok () :=
        validateRef_eq_ok.mpr ⟨hks.symm ▸ hon.tended.valid, (hon.tended.kept _ _ hks hkh).1⟩
      refine .bind (destroy_meets hvalid hcareful) fun y _ hy => ?_
      have hne : n.ref ≠ k.ref := by
        intro href
        have hsame := Has.eq_of_ref hon.tended.held hkh href
        rw [hsame] at hold
        exact lt_irrefl _ hold
      have hon' : Onward cfg sub B x₀ n y n :=
        ⟨hy.tended hon.tended hne, le_refl _, hon.later.trans hy.later, hy.bound,
          fun hok => hon.ok (hy.ok hok)⟩
      refine ih ⟨hon', fun k' hs hh => hback k' hs (hy.has hs hh)⟩ ?_ hnodup'
        (hcut.trans hy.later)
      intro k' hk'
      obtain ⟨hs, hh⟩ := hrest k' hk'
      refine ⟨hs, hy.has_of_ne hs (fun href => ?_) hh⟩
      exact hnotin (Has.eq_of_ref hh hkh href ▸ hk')

theorem prune_meets (ht : Tended cfg sub x.1 n)
    (hB : B < n.createdAt + (cfg.period + cfg.overlap)) :
    Tends cfg sub B (fun y _ => Pruned cfg sub B x n y)
      (Scheduler.prune sub) x := by
  refine .bind (KeyStore.list_meets ht.valid ht.kept) fun y r hy => ?_
  obtain ⟨hstill, hres⟩ := hy
  split
  · exact ⟨Onward.of_still ht hstill, fun k hs hh => (hstill.has_iff hs).mp hh⟩
  next keys =>
    refine .perform (Avoids.careful ⟨by simp, by simp⟩) fun t z hz => ?_
    have hread : t = z.1.now ∧ Still sub B y z := hz.now
    obtain ⟨rfl, hstill'⟩ := hread
    have hxz := hstill.trans hstill'
    have hbound := hxz.bound
    have hlast := ht.lasting
    have hgrace : 0 < pruneGrace := by decide
    refine destroyAll_meets keys ⟨Onward.of_still ht hxz, fun k hs hh => (hxz.has_iff hs).mp hh⟩
      (fun k hk => ?_) hres.nodup (by omega) (by omega)
    obtain ⟨hs, hh⟩ := (hres.mem k).mp hk
    exact ⟨hs, (hxz.has_iff hs).mpr hh⟩

/-- What a pass over the agent leaves if nothing failed: a newest key that was not due when
the pass began, and every other key ending by an instant of the pass plus the overlap. -/
def Passed (cfg : SchedulerConfig) (sub : String) (B : ℤ) (x : Moment) (n : Key)
    (y : Moment) : Prop :=
  ∃ n', Onward cfg sub B x n y n' ∧ (y.2 = true → x.1.now < n'.createdAt + cfg.period ∧
    ∃ t, x.1.now ≤ t ∧ t ≤ y.1.now ∧ ∀ k, k.ref.subdomain = sub → y.1.Has k →
      k = n' ∨ k.window.notAfter ≤ t + cfg.overlap)

theorem passOver_meets (ht : Tended cfg sub x.1 n) (hperiod : 0 < cfg.period)
    (hoverlap : 0 < cfg.overlap) (hB : B < n.createdAt + (cfg.period + cfg.overlap)) :
    Tends cfg sub B (fun y _ => Passed cfg sub B x n y)
      (Scheduler.passOver cfg sub) x := by
  refine .bind (rotateIfDue_meets ht hperiod hoverlap) fun y _ hy => ?_
  obtain ⟨n', hon, hdue⟩ := hy
  refine .bind (enforceOverlap_meets hon.tended hoverlap) fun z _ hz => ?_
  obtain ⟨t, hyt, htz, hon', hends⟩ := hz
  have hB' : B < n'.createdAt + (cfg.period + cfg.overlap) := by
    have hle := hon.older
    omega
  refine (prune_meets hon'.tended hB').mono fun u _ hu => ?_
  obtain ⟨hon'', hback⟩ := hu
  refine ⟨n', (hon.trans hon').trans hon'', fun hok => ?_⟩
  have hokz := hon''.ok hok
  refine ⟨hdue (hon'.ok hokz), t, hon.later.trans hyt, htz.trans hon''.later, fun k hs hh => ?_⟩
  exact hends hokz k hs (hback k hs hh)

end Ramp.Identity
