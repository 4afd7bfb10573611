import Ramp.Identity.Service

/-! What the programs over the key store have done by the time they write, erase or return.
A record is written right after it was read, or by the program that generated its key. -/

namespace Ramp.Identity

open Prog

abbrev Log := History Call Reply

def JustRead (ref : Ref) (h : Log) : Prop :=
  ∃ h₀ x, h = h₀ ++ [⟨.vault (.read ref), .ok (some x)⟩]

def JustGenerated (ref : Ref) (h : Log) : Prop :=
  ∃ h₀, ∃ g : Generated, h = h₀ ++ [⟨.vault .generateKey, some g⟩] ∧
    g.thumbprint = ref.thumbprint

def JustDated (ref : Ref) (h : Log) : Prop :=
  ∃ h₀, ∃ t : ℤ, JustGenerated ref h₀ ∧ h = h₀ ++ [⟨.now, t⟩]

def WriteGuard (h : Log) (op : Call) : Prop :=
  ∀ ref record, op = .vault (.write ref record) → JustRead ref h ∨ JustDated ref h

def Quiet (op : Call) : Prop := ∀ ref record, op ≠ .vault (.write ref record)

def Reads (op : Call) : Prop := Quiet op ∧ ∀ ref, op ≠ .vault (.deleteMetadata ref)

def Looks (op : Call) : Prop :=
  (∃ sub, op = .vault (.listKeys sub)) ∨ ∃ ref, op = .vault (.read ref)

theorem Looks.reads {op : Call} (h : Looks op) : Reads op := by
  rcases h with ⟨_, rfl⟩ | ⟨_, rfl⟩ <;> simp [Reads, Quiet]

def Guarded {α : Type} (p : Program α) : Prop :=
  ∀ h, Spec recordCall WriteGuard (fun _ _ => True) p h

def Touches (names : String → Prop) (op : Call) : Prop :=
  (∀ ref record, op = .vault (.write ref record) → names ref.subdomain) ∧
    ∀ ref, op = .vault (.deleteMetadata ref) → names ref.subdomain

def TouchGuard (names : String → Prop) (h : Log) (op : Call) : Prop :=
  WriteGuard h op ∧ Touches names op

def Minds {α : Type} (names : String → Prop) (p : Program α) : Prop :=
  ∀ h, Spec recordCall (TouchGuard names) (fun _ _ => True) p h

variable {names : String → Prop}

section

variable {α β : Type} {op : Call} {p : Program α}

theorem Guarded.of_quiet (hp : p.Only Quiet) : Guarded p := by
  intro _
  refine hp.spec_of_passes (I := fun _ => True) ⟨?_, ?_⟩ trivial
  · intro _ op _ hq ref record hop
    exact absurd hop (hq ref record)
  · intro _ _ _ _ _ _ _
    trivial

theorem Guarded.result {f : α → β} (hp : Guarded p) : Guarded (p >>= fun a => .ret (f a)) :=
  fun h => .bind ((hp h).mono (fun _ _ hg => hg) fun _ _ _ => trivial)

theorem Reads.touches (h : Reads op) : Touches names op :=
  ⟨fun ref record he => absurd he (h.1 ref record), fun ref he => absurd he (h.2 ref)⟩

theorem Reads.guard (hop : Reads op) (h : Log) : TouchGuard names h op :=
  ⟨fun ref record e => absurd e (hop.1 ref record), hop.touches⟩

theorem Minds.ret {a : α} : Minds names (Prog.ret a : Program α) := fun _ => trivial

theorem Minds.bind {f : α → Program β} (hp : Minds names p)
    (hf : ∀ a, Minds names (f a)) : Minds names (p >>= f) := by
  intro h
  exact .bind ((hp h).mono (fun _ _ hg => hg) fun t a _ => hf a t)

theorem Minds.of_reads (hp : p.Only Reads) : Minds names p := by
  intro _
  refine hp.spec_of_passes (I := fun _ => True) ⟨?_, ?_⟩ trivial
  · intro h op _ hreads
    exact hreads.guard h
  · intro _ _ _ _ _ _ _
    trivial

theorem Minds.perform {f : Reply op → Program α} (hop : Reads op)
    (hf : ∀ r, Minds names (f r)) : Minds names (Prog.perform op >>= f) :=
  fun h => ⟨hop.guard h, fun r t _ => hf r t⟩

theorem Minds.guarded (hp : Minds names p) : Guarded p :=
  fun h => (hp h).mono (fun _ _ hg => hg.1) fun _ _ _ => trivial

theorem Minds.only (hp : Minds names p) : p.Only (Touches names) :=
  (hp []).only (fun _ _ _ => rfl) fun _ _ hg => hg.2

end

namespace KeyStore

theorem get_looks (ref : Ref) : (get ref).run.Only Looks := by
  refine .seq Only.orThrow fun _ => .ask (.inr ⟨ref, rfl⟩) fun answer => ?_
  split <;> trivial

section

variable (sub : String)
include sub

theorem thumbprints_looks : (thumbprints sub).run.Only Looks := by
  refine .ask (.inl ⟨sub, rfl⟩) fun answer => ?_
  split <;> trivial

theorem readKeys_looks (tps : List String) : (readKeys sub tps).run.Only Looks := by
  induction tps with
  | nil => trivial
  | cons tp tps ih =>
    refine .seq (.attempt (get_looks _)) fun r => ?_
    split
    · exact ih
    · trivial
    · exact .seq ih fun _ => trivial

theorem list_looks : (list sub).run.Only Looks :=
  Only.seq Only.orThrow fun _ => .seq (thumbprints_looks sub) fun tps =>
    Only.seq (readKeys_looks sub tps) fun _ => trivial

theorem list_reads : (list sub).run.Only Reads :=
  (list_looks sub).mono fun _ h => h.reads

theorem list_quiet : (list sub).run.Only Quiet :=
  (list_reads sub).mono fun _ h => h.1

end

theorem listSubdomains_reads : listSubdomains.run.Only Reads := by
  refine .ask (by simp [Reads, Quiet]) fun answer => ?_
  split <;> trivial

theorem destroy_quiet (ref : Ref) : (destroy ref).run.Only Quiet := by
  refine .seq Only.orThrow fun _ => .ask (fun _ _ => by simp) fun answer => ?_
  split <;> trivial

theorem active_quiet (sub : String) : (active sub).run.Only Quiet := by
  refine .seq (list_quiet sub) fun keys => .ask (fun _ _ => by simp) fun now => ?_
  split <;> trivial

theorem get_yields (G : Log → Call → Prop) (ref : Ref) (hG : ∀ h, G h (.vault (.read ref)))
    (h : Log) : Yields recordCall G (fun h' record => validThumbprint ref.thumbprint = true ∧
      h' = h ++ [⟨.vault (.read ref), .ok (some (.record record))⟩]) (get ref) h := by
  refine Yields.check fun _ hv => Spec.ask (hG h) fun r t ht => ?_
  cases ht
  cases r with
  | error f =>
    by_cases hf : f = .nothingThere
    · simp only [rawRead, hf, if_true]
      exact Yields.throw
    · simp only [rawRead, hf, if_false]
      exact Yields.throw
  | ok x =>
    rcases x with _ | _ | record
    · exact Yields.throw
    · exact Yields.throw
    · exact Yields.pure ⟨(validateRef_eq_ok.mp hv).2, rfl⟩

def WasRead (sub : String) (h : Log) (k : Key) : Prop :=
  k.ref.subdomain = sub ∧ validThumbprint k.ref.thumbprint = true ∧
    ∃ record, ⟨.vault (.read k.ref), .ok (some (.record record))⟩ ∈ h

section

variable {G : Log → Call → Prop} (hG : ∀ h op, Looks op → G h op) (sub : String)

include hG

theorem readKeys_yields (tps : List String) (h : Log) :
    Yields recordCall G (fun h' keys => ∀ k ∈ keys, WasRead sub h' k) (readKeys sub tps) h := by
  induction tps generalizing h with
  | nil => exact Yields.pure (by simp)
  | cons tp tps ih =>
    refine Spec.attempt (get_yields G ⟨sub, tp⟩ (fun h => hG h _ (.inr ⟨_, rfl⟩)) h)
      fun h₁ r hr => ?_
    split
    · exact ih h₁
    · exact Yields.throw
    next record =>
      obtain ⟨hvalid, rfl⟩ := hr record rfl
      refine Yields.seq (ih _).grows fun h₂ keys hkeys => Yields.pure ?_
      intro k hk
      rcases List.mem_cons.mp hk with rfl | hk
      · exact ⟨rfl, hvalid, record, hkeys.2.subset (by simp [Record.key])⟩
      · exact hkeys.1 k hk

theorem list_yields (h : Log) :
    Yields recordCall G (fun h' keys => ∀ k ∈ keys, WasRead sub h' k) (list sub) h := by
  have htps : Yields recordCall G (fun _ _ => True) (thumbprints sub) h := by
    refine Spec.ask (hG h _ (.inl ⟨sub, rfl⟩)) fun answer t _ => ?_
    split
    · exact Yields.throw
    · exact Yields.pure trivial
  refine Yields.check fun _ _ => ?_
  refine Yields.seq htps fun h₁ tps _ => ?_
  refine Yields.seq (readKeys_yields hG sub tps h₁) fun h₂ keys hkeys => Yields.pure ?_
  intro k hk
  exact hkeys k (mem_sortNewestFirst.mp hk)

end

theorem put_minds {ref : Ref} {record : Record} {h : Log} (hname : names ref.subdomain)
    (hh : JustRead ref h ∨ JustDated ref h) :
    Spec recordCall (TouchGuard names) (fun _ _ => True) (put ref record).run h := by
  refine .orThrow (fun _ _ => trivial) fun _ _ => .ask ⟨?_, ?_, by simp⟩ fun r t _ => ?_
  · rintro ref' record' ⟨⟩
    exact hh
  · rintro ref' record' ⟨⟩
    exact hname
  · split <;> trivial

theorem expire_minds (ref : Ref) (hname : names ref.subdomain) (notAfter : ℤ) :
    Minds names (expire ref notAfter).run := by
  intro h
  have hget := get_yields (TouchGuard names) ref (Reads.guard (by simp [Reads, Quiet])) h
  refine .seq hget (fun _ _ _ => trivial) fun t record ht => ?_
  split_ifs
  · trivial
  · trivial
  · trivial
  · exact put_minds hname (.inl ⟨h, _, (ht record rfl).2⟩)

theorem create_minds (sub : String) (hname : names sub) (w : Window) :
    Minds names (create sub w).run := by
  intro h
  refine .orThrow (fun _ _ => trivial) fun _ _ => ?_
  split_ifs
  · refine .ask (Reads.guard (by simp [Reads, Quiet]) h) fun r t ht => ?_
    cases ht
    rcases r with _ | g
    · trivial
    · refine .ask (Reads.guard (by simp [Reads, Quiet]) _) fun createdAt t' ht' => ?_
      cases ht'
      have hdated : JustDated ⟨sub, g.thumbprint⟩
          ((h ++ [⟨.vault .generateKey, some g⟩]) ++ [⟨.now, createdAt⟩]) :=
        ⟨_, createdAt, ⟨h, g, rfl, rfl⟩, rfl⟩
      exact .seq (put_minds hname (.inr hdated)) (fun _ _ _ => trivial) fun _ _ _ => trivial
  · trivial

theorem destroy_minds (ref : Ref) (hname : names ref.subdomain) :
    Minds names (destroy ref).run := by
  intro h
  refine .orThrow (fun _ _ => trivial) fun _ _ => .ask ⟨?_, by simp, ?_⟩ fun r t _ => ?_
  · rintro ref' record' ⟨⟩
  · rintro ref' ⟨⟩
    exact hname
  · split <;> trivial

theorem list_minds {α : Type} (sub : String) {f : Except KeyError (List Key) → Program α}
    (hfail : ∀ e, Minds names (f (.error e)))
    (hf : ∀ keys, (∀ k ∈ keys, k.ref.subdomain = sub) → Minds names (f (.ok keys))) :
    Minds names ((list sub).run >>= f) := by
  intro h
  have hlist := list_yields (G := TouchGuard names) (fun h _ hop => hop.reads.guard h) sub h
  refine .bind (.mono hlist (fun _ _ hg => hg) fun t r hr => ?_)
  cases r with
  | error e => exact hfail e t
  | ok keys => exact hf keys (fun k hk => (hr keys rfl k hk).1) t

end KeyStore

theorem invalidate_reads (sub : String) : (invalidate sub).Only Reads :=
  ⟨by simp [Reads, Quiet], fun _ => ⟨by simp [Reads, Quiet], fun _ =>
    ⟨by simp [Reads, Quiet], fun _ => trivial⟩⟩⟩

theorem invalidate_quiet (sub : String) : (invalidate sub).Only Quiet :=
  (invalidate_reads sub).mono fun _ h => h.1

theorem Revocations.revoke_quiet (sub thumbprint : String) (nowEpoch : ℤ) :
    (Revocations.revoke sub thumbprint nowEpoch).run.Only Quiet := by
  refine .ask (by simp [Quiet]) fun answer => ?_
  split <;> trivial

theorem Revocations.bySubdomain_quiet (sub : String) :
    (Revocations.bySubdomain sub).run.Only Quiet := by
  refine .ask (by simp [Quiet]) fun answer => ?_
  split <;> trivial

namespace Revoker

theorem belongsToAgent_quiet (sub thumbprint : String) :
    (belongsToAgent sub thumbprint).run.Only Quiet := by
  have hlist := Only.bind (KeyStore.list_quiet sub)
    (f := fun r => .ret (r.mapError RevokeError.keys)) fun _ => trivial
  refine .seq (.bind hlist fun _ => trivial) fun keys => ?_
  split
  · trivial
  · trivial
  · split_ifs
    · trivial
    · exact .seq (.bind (Revocations.bySubdomain_quiet sub) fun _ => trivial)
        fun _ => trivial

theorem revoke_quiet (sub thumbprint : String) : (revoke sub thumbprint).run.Only Quiet := by
  refine .seq Only.orThrow fun _ =>
    Only.seq (belongsToAgent_quiet sub thumbprint) fun known => ?_
  split_ifs
  · refine .ask (by simp [Quiet]) fun nowEpoch => ?_
    refine .seq (.bind (Revocations.revoke_quiet _ _ _) fun _ => trivial) fun _ => ?_
    refine .seq (.bind (.bind (KeyStore.destroy_quiet _) fun _ => trivial)
      fun _ => trivial) fun _ => ?_
    exact .bind (invalidate_quiet sub) fun _ => trivial
  · trivial

end Revoker

namespace Scheduler

variable (cfg : SchedulerConfig) (sub : String)

theorem rotateIfDue_minds (hname : names sub) : Minds names (rotateIfDue cfg sub) := by
  refine .bind (.of_reads (KeyStore.list_reads sub)) fun keys => ?_
  split
  · exact .ret
  · exact .ret
  · refine .perform (by simp [Reads, Quiet]) fun now => ?_
    split_ifs
    · exact .ret
    · refine .bind (KeyStore.create_minds sub hname _) fun made => ?_
      split
      · exact .ret
      · exact .of_reads (invalidate_reads sub)

theorem expireAll_minds (cutoff : ℤ) (keys : List Key) (shortened : Bool)
    (hnames : ∀ k ∈ keys, names k.ref.subdomain) :
    Minds names (expireAll cutoff keys shortened) := by
  induction keys generalizing shortened with
  | nil => exact .ret
  | cons k keys ih =>
    obtain ⟨hname, hnames⟩ := List.forall_mem_cons.mp hnames
    unfold expireAll
    split_ifs
    · exact ih shortened hnames
    · refine .bind (KeyStore.expire_minds k.ref hname cutoff) fun done => ?_
      split
      · exact ih shortened hnames
      · exact ih true hnames

theorem enforceOverlap_minds (hname : names sub) : Minds names (enforceOverlap cfg sub) := by
  refine KeyStore.list_minds sub (fun _ => .ret) fun keys hkeys => ?_
  change Minds names (if _ then _ else _)
  split_ifs
  · exact .ret
  · refine .perform (by simp [Reads, Quiet]) fun now => ?_
    have hnames : ∀ k ∈ keys.tail, names k.ref.subdomain :=
      fun k hk => hkeys k (List.mem_of_mem_tail hk) ▸ hname
    refine .bind (expireAll_minds _ _ _ hnames) fun shortened => ?_
    split_ifs
    · exact .of_reads (invalidate_reads sub)
    · exact .ret

theorem destroyAll_minds (cutoff : ℤ) (keys : List Key)
    (hnames : ∀ k ∈ keys, names k.ref.subdomain) : Minds names (destroyAll cutoff keys) := by
  induction keys with
  | nil => exact .ret
  | cons k keys ih =>
    obtain ⟨hname, hnames⟩ := List.forall_mem_cons.mp hnames
    unfold destroyAll
    split_ifs
    · exact ih hnames
    · exact .bind (KeyStore.destroy_minds k.ref hname) fun _ => ih hnames

theorem prune_minds (hname : names sub) : Minds names (prune sub) := by
  refine KeyStore.list_minds sub (fun _ => .ret) fun keys hkeys => ?_
  exact .perform (by simp [Reads, Quiet]) fun now =>
    destroyAll_minds _ _ fun k hk => hkeys k hk ▸ hname

theorem passOver_minds (hname : names sub) : Minds names (passOver cfg sub) :=
  .bind (rotateIfDue_minds cfg sub hname) fun _ =>
    .bind (enforceOverlap_minds cfg sub hname) fun _ => prune_minds sub hname

theorem passAll_minds (subs : List String) (hnames : ∀ sub ∈ subs, names sub) :
    Minds names (passAll cfg subs) := by
  induction subs with
  | nil => exact .ret
  | cons sub subs ih =>
    obtain ⟨hname, hnames⟩ := List.forall_mem_cons.mp hnames
    refine .perform (by simp [Reads, Quiet]) fun stop => ?_
    split_ifs
    · exact .ret
    · exact .bind (passOver_minds cfg sub hname) fun _ => ih hnames

theorem runOnce_guarded : Guarded (runOnce cfg) := by
  have hminds : Minds (fun _ => True) (runOnce cfg) := by
    refine .bind (.of_reads KeyStore.listSubdomains_reads) fun subs => ?_
    split
    · exact .ret
    · exact passAll_minds cfg _ fun _ _ => trivial
  exact hminds.guarded

end Scheduler

/-! The guard does not matter for what a program has done when it returns. -/

abbrev Free : Log → Call → Prop := fun _ _ => True

theorem Spec.free {α : Type} (p : Program α) (h : Log) :
    Spec recordCall Free (fun _ _ => True) p h :=
  Spec.of_inv p (fun _ _ _ _ _ _ => trivial) (fun _ _ _ => trivial) trivial

theorem Yields.free {ε α : Type} (x : Action ε α) (h : Log) :
    Yields recordCall Free (fun _ _ => True) x h :=
  (Spec.free x.run h).mono (fun _ _ hg => hg) fun _ _ _ _ _ => trivial

theorem KeyStore.destroy_erases (ref : Ref) (h : Log) :
    Spec recordCall Free (fun h' _ => validateRef ref = .ok () →
      ∃ w, ⟨.vault (.deleteMetadata ref), w⟩ ∈ h') (destroy ref).run h := by
  refine .orThrow (fun e he hv => by simp [hv] at he) fun _ _ =>
    Spec.ask trivial fun w t ht => ?_
  cases ht
  cases w with
  | done _ | failed _ _ => exact fun _ => ⟨_, List.mem_append_right _ List.mem_cons_self⟩

theorem Revoker.revoke_erases (sub thumbprint : String) (h : Log) :
    Yields recordCall Free (fun h' _ => validThumbprint thumbprint = true →
      ∃ w, ⟨.vault (.deleteMetadata ⟨sub, thumbprint⟩), w⟩ ∈ h') (revoke sub thumbprint) h := by
  let erases : Log → Prop := fun h' => validThumbprint thumbprint = true →
    ∃ w, ⟨.vault (.deleteMetadata ⟨sub, thumbprint⟩), w⟩ ∈ h'
  refine Yields.check fun _ hsub => ?_
  refine Yields.seq (Yields.free _ h) fun h₁ known _ => ?_
  split_ifs
  · refine Yields.seq (Yields.free _ h₁) fun h₂ nowEpoch _ => ?_
    refine Yields.seq (Yields.free _ h₂) fun h₃ asOf _ => ?_
    have hdestroy : Spec recordCall Free (fun h' _ => erases h')
        (rethrow RevokeError.keys (KeyStore.destroy ⟨sub, thumbprint⟩)).run h₃ := by
      refine Spec.bind ((KeyStore.destroy_erases ⟨sub, thumbprint⟩ h₃).mono
        (fun _ _ hg => hg) fun t r ht => ?_)
      intro hvalid
      have hs : validSubdomain sub = true := by
        by_contra hne
        simp [validateSubdomain, hne] at hsub
      exact ht (validateRef_eq_ok.mpr ⟨hs, hvalid⟩)
    refine Spec.attempt hdestroy fun h₄ r herased => ?_
    refine Spec.bind ((Spec.free (invalidate sub) h₄).grows.mono (fun _ _ hg => hg) ?_)
    intro h₅ _ hgrows _ _ hvalid
    obtain ⟨w, hw⟩ := herased hvalid
    exact ⟨w, hgrows.2.subset hw⟩
  · exact Yields.throw

namespace KeyStore

theorem active_yields (sub : String) (h : Log) :
    Yields recordCall Free (WasRead sub) (active sub) h := by
  refine Yields.seq (list_yields (fun _ _ _ => trivial) sub h) fun h₁ keys hkeys => ?_
  refine Spec.ask trivial fun now t ht => ?_
  cases ht
  split
  next k hk =>
    refine Yields.pure ?_
    obtain ⟨hsub, hvalid, record, hmem⟩ := hkeys k (List.mem_of_find?_eq_some hk)
    exact ⟨hsub, hvalid, record, List.mem_append_left _ hmem⟩
  · exact Yields.throw

end KeyStore

end Ramp.Identity
