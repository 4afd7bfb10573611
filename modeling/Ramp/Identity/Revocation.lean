import Mathlib.Data.Fintype.Basic
import Ramp.Identity.KeyConduct
import Ramp.Program.Observed

/-! A revoked key stays gone. Revocations, scheduler passes and lookups of the active key
run at the same time over one store. An erased record comes back only by a write that was
already under way when it was erased, and a key that was revoked is returned again only if
its record came back or was never erased. -/

namespace Ramp.Identity

open Prog

inductive Task
  | revoke (sub thumbprint : String)
  | pass
  | active (sub : String)

inductive Outcome
  | revoked (r : Except RevokeError Unit)
  | passed
  | active (r : Except KeyError Key)
  deriving DecidableEq

def Task.prog (cfg : SchedulerConfig) : Task → Program Outcome
  | .revoke sub thumbprint =>
    (Revoker.revoke sub thumbprint).run >>= fun r => .ret (.revoked r)
  | .pass => Scheduler.runOnce cfg >>= fun _ => .ret .passed
  | .active sub => (KeyStore.active sub).run >>= fun r => .ret (.active r)

variable {ι : Type}

def tasksPool (cfg : SchedulerConfig) (tasks : ι → Task) (s : State) :
    Pool Call Reply State ι Outcome :=
  ⟨s, fun i => (tasks i).prog cfg⟩

def erasure : Event Call Reply → Option (Ref × Bool)
  | ⟨.vault (.deleteMetadata ref), (w : Written VaultFault Unit)⟩ => some (ref, w.confirmed)
  | _ => none

def Call.writesTo (ref : Ref) : Call → Bool
  | .vault (.write ref' _) => ref' = ref
  | _ => false

def generates (ref : Ref) : Event Call Reply → Bool
  | ⟨.vault .generateKey, (g : Option Generated)⟩ => g.any (·.thumbprint = ref.thumbprint)
  | _ => false

/-- A program with the history `h` is about to write the record of `ref`, or has generated
its key. -/
def InFlight (ref : Ref) (h : Log) (next : Option Call) : Prop :=
  next.any (Call.writesTo ref) = true ∨ h.getLast?.any (generates ref) = true

instance (ref : Ref) (h : Log) (next : Option Call) : Decidable (InFlight ref h next) :=
  inferInstanceAs (Decidable (_ ∨ _))

def Task.isRevoke : Task → Bool
  | .revoke _ _ => true
  | _ => false

variable [DecidableEq ι]

def Undisturbed (cfg : SchedulerConfig) (tasks : ι → Task) (s : State)
    (pre : Trace Call Reply ι) (i : ι) (e : Event Call Reply) : Prop :=
  ∀ x ∈ erasure e, ((tasks i).isRevoke = true → x.2 = true) ∧
    ∀ j, ¬ InFlight x.1 (pre.own j) ((tasksPool cfg tasks s).about pre j)

instance [Fintype ι] (cfg : SchedulerConfig) (tasks : ι → Task) (s : State)
    (pre : Trace Call Reply ι) (i : ι) (e : Event Call Reply) :
    Decidable (Undisturbed cfg tasks s pre i e) :=
  inferInstanceAs (Decidable (∀ _ ∈ _, _))

def Erased (tr : Trace Call Reply ι) (ref : Ref) : Prop := ∃ x ∈ tr, erasure x.2 = some (ref, true)

variable {h : Log} {next : Option Call}

omit [DecidableEq ι] in
theorem Task.prog_guarded (cfg : SchedulerConfig) (task : Task) : Guarded (task.prog cfg) := by
  cases task with
  | revoke sub thumbprint =>
    exact (Guarded.of_quiet (Revoker.revoke_quiet sub thumbprint)).result
  | pass => exact (Scheduler.runOnce_guarded cfg).result
  | active sub => exact (Guarded.of_quiet (KeyStore.active_quiet sub)).result

def Task.Returns : Task → Log → Outcome → Prop
  | .revoke sub thumbprint, h, o => o = .revoked (.ok ()) →
      validThumbprint thumbprint = true →
        ∃ w, ⟨.vault (.deleteMetadata ⟨sub, thumbprint⟩), w⟩ ∈ h
  | .pass, _, _ => True
  | .active sub, h, o => ∀ k, o = .active (.ok k) → KeyStore.WasRead sub h k

omit [DecidableEq ι] in
theorem Task.prog_returns (cfg : SchedulerConfig) (task : Task) :
    Spec recordCall Free task.Returns (task.prog cfg) [] := by
  cases task with
  | revoke sub thumbprint =>
    refine .bind (Spec.mono (Revoker.revoke_erases sub thumbprint []) (fun _ _ hg => hg) ?_)
    intro t r hr ho hvalid
    simp only [Outcome.revoked.injEq] at ho
    exact hr () ho hvalid
  | pass =>
    exact .bind ((Spec.free _ _).mono (fun _ _ hg => hg) fun _ _ _ => trivial)
  | active sub =>
    refine .bind (Spec.mono (KeyStore.active_yields sub []) (fun _ _ hg => hg) ?_)
    intro t r hr k hk
    simp only [Outcome.active.injEq] at hk
    exact hr k hk

omit [DecidableEq ι] in
theorem InFlight.of_snoc {ref : Ref} {e : Event Call Reply}
    (hguard : ∀ op, next = some op → WriteGuard (h ++ [e]) op) (hf : InFlight ref (h ++ [e]) next) :
    (∃ x, e = ⟨.vault (.read ref), .ok (some x)⟩) ∨ generates ref e = true ∨
      h.getLast?.any (generates ref) = true := by
  rcases hf with hf | hf
  · obtain ⟨op, hop⟩ : ∃ op, next = some op := by
      cases next with
      | none => cases hf
      | some op => exact ⟨op, rfl⟩
    subst hop
    simp only [Option.any_some, Call.writesTo] at hf
    split at hf
    next ref' record =>
      obtain rfl := of_decide_eq_true hf
      rcases hguard _ rfl ref' record rfl with ⟨h₀, x, hx⟩ | ⟨h₀, t, ⟨h₁, g, rfl, hg⟩, hx⟩
      · exact .inl ⟨x, (List.append_inj' hx rfl).2 |> List.head_eq_of_cons_eq⟩
      · obtain ⟨rfl, -⟩ := List.append_inj' hx rfl
        exact .inr (.inr (by simp [generates, hg]))
    · cases hf
  · exact .inr (.inl (by simpa using hf))

section

variable {cfg : SchedulerConfig} {tasks : ι → Task} {s : State}
  {c : Pool Call Reply State ι Outcome} {tr : Trace Call Reply ι}

variable {op : Call} {r : Reply op} {t : State} {ref : Ref} {i : ι}

theorem erasure_eq_some {x : Ref × Bool} (h : erasure ⟨op, r⟩ = some x) :
    op = .vault (.deleteMetadata x.1) := by
  unfold erasure at h
  split at h
  next heq =>
    cases h
    exact congrArg Event.op heq
  · cases h

theorem step_erased (h : step op s r = some t) (he : erasure ⟨op, r⟩ = some (ref, true)) :
    t.secret ref = none ∧ ref.thumbprint ∈ t.vault.known := by
  obtain rfl := erasure_eq_some he
  cases r with
  | done _ =>
    cases h
    simp [State.secret, Vault.naming, Written.applied, Vault.erasing, Table.get?_erase]
  | failed f applied => simp [erasure, Written.confirmed] at he

def SomeInFlight (tr : Trace Call Reply ι) (c : Pool Call Reply State ι Outcome) (ref : Ref) :
    Prop :=
  ∃ j, InFlight ref (tr.own j) (c.threads j).next?

theorem Run.write_guarded (hr : Run step Ticks (tasksPool cfg tasks s) tr c)
    (h : (c.threads i).next? = some op) : WriteGuard (tr.own i) op :=
  hr.next_guarded (G := fun _ => WriteGuard) (Q := fun _ _ _ => True)
    (fun i => (tasks i).prog_guarded cfg []) h

theorem not_known_of_generates (hstep : step op s r = some t) (hg : generates ref ⟨op, r⟩ = true) :
    ref.thumbprint ∉ s.vault.known := by
  unfold generates at hg
  split at hg
  next g heq =>
    cases heq
    rcases g with _ | g
    · cases hg
    · have hv := (step_vault hstep).1
      simp only [Vault.step, Option.ite_none_right_eq_some] at hv
      have htp : g.thumbprint = ref.thumbprint := by simpa using hg
      rw [← htp]
      exact hv.1.2
  · cases hg

theorem not_inFlight_snoc (hstep : step op s r = some t) (hnone : s.secret ref = none)
    (hknown : ref.thumbprint ∈ s.vault.known) (hlast : h.getLast?.any (generates ref) ≠ true)
    (hguard : ∀ op', next = some op' → WriteGuard (h ++ [⟨op, r⟩]) op') :
    ¬ InFlight ref (h ++ [⟨op, r⟩]) next := by
  intro hf
  rcases InFlight.of_snoc hguard hf with ⟨x, he⟩ | hg | hg
  · cases he
    have hx := Vault.read_step (step_vault hstep).1
    rw [State.secret, ← hx] at hnone
    cases hnone
  · exact not_known_of_generates hstep hg hknown
  · exact hlast hg

theorem not_someInFlight_call {next : Reply op → Program Outcome}
    (hno : ∀ j, j ≠ i → ¬ InFlight ref (tr.own j) (c.threads j).next?)
    (hi : ¬ InFlight ref (tr.own i ++ [⟨op, r⟩]) (next r).next?) :
    ¬ SomeInFlight (tr ++ [(i, ⟨op, r⟩)]) ⟨t, Function.update c.threads i (next r)⟩ ref := by
  rintro ⟨j, hf⟩
  by_cases hj : j = i
  · subst hj
    simp only [Trace.own_snoc_self, Function.update_self] at hf
    exact hi hf
  · rw [Trace.own_snoc_ne _ (Ne.symm hj)] at hf
    simp only [Function.update_of_ne hj] at hf
    exact hno j hj hf

section

variable (hr : Run step Ticks (tasksPool cfg tasks s) tr c)
include hr

theorem erased_stays (hclean : tr.Always (Undisturbed cfg tasks s)) (he : Erased tr ref) :
    c.shared.secret ref = none ∧ ref.thumbprint ∈ c.shared.vault.known ∧
      ¬ SomeInFlight tr c ref := by
  induction hr with
  | start =>
    obtain ⟨x, hx, -⟩ := he
    cases hx
  | @call tr c i op next r t run head reply ih =>
    have hguard : ∀ op', (next r).next? = some op' → WriteGuard (tr.own i ++ [⟨op, r⟩]) op' := by
      intro op' hop'
      have hnext : (Function.update c.threads i (next r) i).next? = some op' := by simpa using hop'
      simpa using Run.write_guarded (run.call head reply) hnext
    by_cases hold : Erased tr ref
    · obtain ⟨hnone, hknown, hno⟩ := ih hclean.left hold
      refine ⟨?_, step_known reply hknown, ?_⟩
      · rcases step_secret reply ref with hsame | ⟨record, rfl⟩ | ⟨-, hgone⟩
        · exact hsame.trans hnone
        · exact absurd ⟨i, .inl (by simp [head, next?, Call.writesTo])⟩ hno
        · exact hgone
      · refine not_someInFlight_call (fun j _ hf => hno ⟨j, hf⟩) ?_
        exact not_inFlight_snoc reply hnone hknown (fun hg => hno ⟨i, .inr hg⟩) hguard
    · obtain ⟨x, hx, hxe⟩ := he
      rcases List.mem_append.mp hx with hx | hx
      · exact absurd ⟨x, hx, hxe⟩ hold
      · obtain rfl := List.mem_singleton.mp hx
        have hquiet := (hclean.last (ref, true) hxe).2
        obtain ⟨hnone, hknown⟩ := step_erased reply hxe
        refine ⟨hnone, hknown, not_someInFlight_call (fun j _ hf => hquiet j ?_) ?_⟩
        · rwa [run.about j]
        · intro hf
          obtain rfl := erasure_eq_some hxe
          rcases InFlight.of_snoc hguard hf with ⟨y, hy⟩ | hg | hg
          · cases hy
          · cases hg
          · exact hquiet i (.inr hg)
  | @env tr c t run move ih =>
    obtain ⟨hnone, hknown, hno⟩ := ih hclean he
    rw [move]
    exact ⟨hnone, hknown, hno⟩

theorem erased_not_read {tr' : Trace Call Reply ι} {c' : Pool Call Reply State ι Outcome}
    (hr' : Run step Ticks c tr' c') (hclean : (tr ++ tr').Always (Undisturbed cfg tasks s))
    (he : Erased tr ref) {j : ι} {x : Secret} : (j, ⟨.vault (.read ref), .ok (some x)⟩) ∉ tr' := by
  induction hr' with
  | start => exact List.not_mem_nil
  | @call tr' c' i op next r t run head reply ih =>
    rw [← List.append_assoc] at hclean
    intro hm
    rcases List.mem_append.mp hm with hm | hm
    · exact ih hclean.left hm
    · cases List.mem_singleton.mp hm
      have herased : Erased (tr ++ tr') ref := by
        obtain ⟨y, hy, hye⟩ := he
        exact ⟨y, List.mem_append_left _ hy, hye⟩
      have hnone := (erased_stays (hr.trans run) hclean.left herased).1
      have hx := Vault.read_step (step_vault reply).1
      rw [State.secret, ← hx] at hnone
      cases hnone
  | env run move ih => exact ih hclean

end

theorem erased_of_revoke (hclean : tr.Always (Undisturbed cfg tasks s))
    {sub thumbprint : String} (hi : tasks i = .revoke sub thumbprint)
    {w : Reply (.vault (.deleteMetadata ref))} (hm : (i, ⟨.vault (.deleteMetadata ref), w⟩) ∈ tr) :
    Erased tr ref := by
  obtain ⟨pre, post, hsplit⟩ := List.append_of_mem hm
  have hdone := (hclean pre i _ post hsplit (ref, Written.confirmed w) rfl).1 (by rw [hi]; rfl)
  exact ⟨_, hm, congrArg (fun b => some (ref, b)) hdone⟩

/-- In a run without disturbed erasures a revoked key is not returned to a lookup that
began after the revocation had succeeded, and an erased record is never there again. -/
theorem revoked_key_stays_gone {tr' : Trace Call Reply ι} {c' : Pool Call Reply State ι Outcome}
    (hr : Run step Ticks (tasksPool cfg tasks s) tr c) (hr' : Run step Ticks c tr' c')
    (hclean : (tr ++ tr').Always (Undisturbed cfg tasks s)) :
    (∀ i j sub thumbprint k, tasks i = .revoke sub thumbprint →
      c.threads i = .ret (.revoked (.ok ())) → tasks j = .active sub → tr.own j = [] →
      c'.threads j = .ret (.active (.ok k)) → k.ref.thumbprint ≠ thumbprint) ∧
    ∀ ref, Erased tr ref → c'.shared.secret ref = none := by
  refine ⟨?_, fun ref he => ?_⟩
  · intro i j sub thumbprint k hi hret hj hfresh hactive hk
    have hspec : ∀ i, Spec recordCall Free (tasks i).Returns
        ((tasksPool cfg tasks s).threads i) [] := fun i => (tasks i).prog_returns cfg
    have hread := (hr.trans hr').returned hspec hactive
    rw [hj] at hread
    obtain ⟨hsub, hvalid, record, hmem⟩ := hread k rfl
    have hrevoked := hr.returned hspec hret
    rw [hi] at hrevoked
    obtain ⟨w, hw⟩ := hrevoked rfl (hk ▸ hvalid)
    have herased := erased_of_revoke hclean.left hi (Trace.mem_own.mp hw)
    have href : k.ref = ⟨sub, thumbprint⟩ := by rw [← hsub, ← hk]
    rcases List.mem_append.mp (Trace.mem_own.mp hmem) with hm | hm
    · have hown := Trace.mem_own.mpr hm
      rw [hfresh] at hown
      cases hown
    · rw [href] at hm
      exact erased_not_read hr hr' hclean herased hm
  · have herased : Erased (tr ++ tr') ref := by
      obtain ⟨x, hx, hxe⟩ := he
      exact ⟨x, List.mem_append_left _ hx, hxe⟩
    exact (erased_stays (hr.trans hr') hclean herased).1

end

def elderRef : Ref := ⟨"agent-1.example", "BBBBBBBBBBBBBBBBBBBBBBBBBBBBBBBBBBBBBBBBBBB"⟩

def youngerRef : Ref := ⟨"agent-1.example", "AAAAAAAAAAAAAAAAAAAAAAAAAAAAAAAAAAAAAAAAAAA"⟩

def elder : Record := ⟨"b", ⟨10, 1000⟩, 10⟩

def elderShortened : Record := ⟨"b", ⟨10, 60⟩, 10⟩

def younger : Record := ⟨"a", ⟨40, 1000⟩, 40⟩

def twoKeys : State where
  now := 50
  vault := (Vault.empty.writing elderRef elder).writing youngerRef younger
  tables := .empty
  cache := .empty

def smallRotation : SchedulerConfig := ⟨100, 10⟩

def turns (n : ℕ) (i : ℕ) {m : ℕ} [NeZero m] : List (Turn Call Reply State (Fin m)) :=
  List.replicate n ⟨Fin.ofNat m i, State.answer⟩

def answerNoErase (c : Call) (s : State) : Reply c :=
  match c with
  | .vault (.deleteMetadata _) => Written.failed .transport false
  | c => s.answer c

def incident : Fin 4 → Task
  | 0 => .pass
  | 1 => .revoke elderRef.subdomain elderRef.thumbprint
  | 2 => .revoke youngerRef.subdomain youngerRef.thumbprint
  | 3 => .active elderRef.subdomain

theorem revoked_key_stays_gone_incident :
    ∃ tr c tr' c', Run step Ticks (tasksPool smallRotation incident twoKeys) tr c ∧
      Run step Ticks c tr' c' ∧ (tr ++ tr').Always (Undisturbed smallRotation incident twoKeys) ∧
      c.threads 1 = .ret (.revoked (.ok ())) ∧
      c'.threads 3 = .ret (.active (.ok (younger.key youngerRef))) ∧
      youngerRef.thumbprint ≠ elderRef.thumbprint ∧ c'.shared.secret elderRef = none := by
  obtain ⟨tr, c, tr', c', hr, hr', hclean, hret, hfresh, hact, herased⟩ : ∃ tr c tr' c',
      Run step Ticks (tasksPool smallRotation incident twoKeys) tr c ∧ Run step Ticks c tr' c' ∧
      (tr ++ tr').Always (Undisturbed smallRotation incident twoKeys) ∧
      (c.threads 1).result? = some (.revoked (.ok ())) ∧ tr.own 3 = [] ∧
      (c'.threads 3).result? = some (.active (.ok (younger.key youngerRef))) ∧
      (tr.any fun x => erasure x.2 = some (elderRef, true)) = true :=
    Pool.exists_run_run (turns 10 0 ++ turns 9 1) (turns 4 0 ++ turns 3 3) (by decide +kernel)
  have hret := result?_eq_some.mp hret
  have hact := result?_eq_some.mp hact
  obtain ⟨x, hx, hxe⟩ := List.any_eq_true.mp herased
  have hgone := revoked_key_stays_gone hr hr' hclean
  exact ⟨tr, c, tr', c', hr, hr', hclean, hret, hact,
    hgone.1 1 3 _ _ _ rfl hret rfl hfresh hact, hgone.2 elderRef ⟨x, hx, of_decide_eq_true hxe⟩⟩

/-- A pass that read a key before it was erased writes its record back, and the agent's
only key is then one that was revoked; and a revocation whose erasure failed succeeds,
while the key stays the active one. -/
theorem revoked_key_returns :
    (∃ tr c tr' c', Run step Ticks (tasksPool smallRotation incident twoKeys) tr c ∧
      Run step Ticks c tr' c' ∧ (c.threads 1).result? = some (.revoked (.ok ())) ∧
      (tr.any fun x => erasure x.2 = some (elderRef, true)) = true ∧ tr.own 3 = [] ∧
      c'.shared.secret elderRef = some (.record elderShortened) ∧
      (c'.threads 3).result? = some (.active (.ok (elderShortened.key elderRef)))) ∧
    ∃ tr c tr' c', Run step Ticks (tasksPool smallRotation incident twoKeys) tr c ∧
      Run step Ticks c tr' c' ∧ (c.threads 2).result? = some (.revoked (.ok ())) ∧ tr.own 3 = [] ∧
      (c'.threads 3).result? = some (.active (.ok (younger.key youngerRef))) :=
  ⟨Pool.exists_run_run (turns 11 0 ++ turns 9 1) (turns 1 0 ++ turns 9 2 ++ turns 3 3)
      (by decide +kernel),
    Pool.exists_run_run (List.replicate 9 ⟨2, answerNoErase⟩) (turns 4 3) (by decide +kernel)⟩

end Ramp.Identity
