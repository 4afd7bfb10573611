import Ramp.Ledger.Basic
import Ramp.Program.Observed

/-! What the answers of the ledger say: which facts they show for good, when a transfer is
created, and which ids a failed chain spoils. -/

namespace Ramp.Ledger

variable {ID : Type} [DecidableEq ID] [Zero ID] {s s' : State ID}

/-- What an answer says of the ledger for good: a transfer that was read is there, and so is
an account that was created or found the same. -/
def Shows (e : Event (Op ID) Res) (s : State ID) : Prop :=
  match e with
  | ⟨.lookupTransfers ids, .ok found⟩ => ∀ t ∈ found, t.id ∈ ids ∧ s.transfer? t.id = some t
  | ⟨.createAccount a, .ok status⟩ => status ≠ .existsWithDifferent → s.account? a.id = some a
  | _ => True

omit [Zero ID] in
theorem Shows.mono {e : Event (Op ID) Res} (h : Shows e s) (hg : State.Grows s s') :
    Shows e s' := by
  unfold Shows at h ⊢
  split
  · exact fun t ht => ⟨(h t ht).1, hg.transfer? (h t ht).2⟩
  · exact fun hne => hg.account? (h hne)
  · trivial

namespace State

omit [Zero ID] in
theorem createAccount_shows {a : Account ID} (h : (s.createAccount a).1 ≠ .existsWithDifferent) :
    (s.createAccount a).2.account? a.id = some a := by
  unfold createAccount at h ⊢
  split at h
  next hnone =>
    simp only [account?] at hnone
    simp [account?, hnone]
  next stored hstored =>
    by_cases heq : stored = a
    · rw [← heq]
      exact heq ▸ hstored
    · simp [heq] at h

omit [Zero ID] in
theorem createAccount_transfers (a : Account ID) :
    (s.createAccount a).2.transfers = s.transfers ∧ (s.createAccount a).2.expired = s.expired := by
  unfold createAccount
  split
  · exact ⟨rfl, rfl⟩
  · exact ⟨rfl, rfl⟩

theorem step_shows {op : Op ID} {r : Res op} (h : step op s r = some s') : Shows ⟨op, r⟩ s' := by
  unfold Shows
  split
  next ids found heq =>
    cases heq
    obtain ⟨rfl, rfl⟩ := step_ok h
    intro t ht
    obtain ⟨id, hmem, hid⟩ := List.mem_filterMap.mp ht
    rw [(transfer?_some hid).2]
    exact ⟨hmem, hid⟩
  next a status heq =>
    cases heq
    obtain ⟨rfl, rfl⟩ := step_ok h
    exact createAccount_shows
  · trivial

end State

theorem lasting {Inv : State ID → Prop} : Lasting State.step Expiry Inv Shows where
  shown _ _ _ _ _ h := State.step_shows h
  kept _ _ _ _ _ _ h hshows := hshows.mono (State.step_change h).grows
  moved _ _ _ _ h hshows := hshows.mono (State.Expiry.grows h)

namespace State

variable {t : Transfer ID} {status : Status} {batch : List (Transfer ID)} {op : Op ID}

theorem create_of_check {u : Transfer ID} (hnew : s.transfer? t.id = none)
    (hunfailed : t.id ∉ s.failed) (hu : s.check t = .ok u) :
    s.create t = .ok { s with transfers := s.transfers ++ [u] } := by
  simp [create, hnew, hunfailed, hu]

theorem create_transient (h : s.create t = .error status) (htransient : status.transient = true) :
    s.check t = .error status := by
  unfold create at h
  split at h
  · cases h
    split_ifs at htransient <;> cases htransient
  · split_ifs at h
    · cases h
      cases htransient
    · split at h
      next status' hcheck =>
        cases h
        exact hcheck
      · cases h

theorem checkPending_error (h : s.checkPending t = .error status) :
    s.transfer? t.pendingID = none ∧ status = .pendingTransferNotFound ∨
      status.transient = false ∧ status ≠ .created ∧ status ≠ .exists := by
  unfold checkPending at h
  split at h
  next hnone => exact .inl ⟨hnone, (Except.error.inj h).symm⟩
  next p hp =>
    split_ifs at h
    · cases h
      simp [Status.transient]
    · cases h
      simp [Status.transient]
    · split at h
      next status' hres =>
        cases h
        unfold resolution at hres
        split_ifs at hres <;> obtain rfl := Option.some.inj hres <;> simp [Status.transient]
      · cases h

theorem checkPending_transient (h : s.checkPending t = .error status)
    (htransient : status.transient = true) : s.transfer? t.pendingID = none := by
  rcases checkPending_error h with ⟨hnone, -⟩ | ⟨hlasting, -⟩
  · exact hnone
  · rw [hlasting] at htransient
    cases htransient

theorem chain_error {i : Nat} {id : ID} (h : s.chain batch = .error (i, id, status)) :
    ∃ pre t post s₁, batch = pre ++ t :: post ∧ s.chain pre = .ok s₁ ∧
      s₁.create t = .error status ∧ t.id = id := by
  induction batch generalizing s i with
  | nil => cases h
  | cons t ts ih =>
    unfold chain at h
    split at h
    next status' hcreate =>
      obtain ⟨-, rfl, rfl⟩ := by simpa using h
      exact ⟨[], t, ts, s, rfl, rfl, hcreate, rfl⟩
    next s₁ hcreate =>
      split at h
      next j id' status' hrest =>
        obtain ⟨-, rfl, rfl⟩ := by simpa using h
        obtain ⟨pre, t', post, s₂, rfl, hpre, herror, hid⟩ := ih hrest
        refine ⟨t :: pre, t', post, s₂, rfl, ?_, herror, hid⟩
        rw [chain, hcreate]
        dsimp only
        rw [hpre]
      · cases h

theorem mem_failed_effect {id : ID} (h : id ∈ (s.effect op).failed) :
    id ∈ s.failed ∨ ∃ batch pre t post s₁ status, op = .createTransfers batch ∧
      batch = pre ++ t :: post ∧ s.chain pre = .ok s₁ ∧ s₁.check t = .error status ∧
      status.transient = true ∧ t.id = id := by
  cases op with
  | createTransfers batch =>
    simp only [effect, createTransfers] at h
    split at h
    next s₁ hchain =>
      have hkeep : s₁.failed = s.failed := chain_preserves (P := fun s' => s'.failed = s.failed)
        (fun s₁ t s₂ _ hs hc => by
          obtain ⟨-, u, -, rfl⟩ := create_ok hc
          exact hs) hchain rfl
      exact .inl (hkeep ▸ h)
    next i id' status hchain =>
      split_ifs at h with htransient
      · rcases List.mem_cons.mp h with rfl | hmem
        · obtain ⟨pre, t, post, s₁, hbatch, hpre, hcreate, hid⟩ := chain_error hchain
          exact .inr ⟨batch, pre, t, post, s₁, status, rfl, hbatch, hpre,
            create_transient hcreate htransient, htransient, hid⟩
        · exact .inl hmem
      · exact .inl h
  | createAccount a =>
    simp only [effect, createAccount] at h
    split at h <;> exact .inl h
  | lookupTransfers ids => exact .inl h
  | lookupAccount id => exact .inl h
  | creditTransfers filter => exact .inl h

theorem mem_failed_step {r : Res op} {id : ID} (h : step op s r = some s') (hid : id ∈ s'.failed) :
    id ∈ s.failed ∨ id ∈ (s.effect op).failed := by
  cases r with
  | ok v =>
    obtain ⟨-, rfl⟩ := step_ok h
    exact .inr hid
  | err text unavailable applied =>
    cases h
    split_ifs at hid
    · exact .inr hid
    · exact .inl hid

theorem answer_of_chain (h : s.chain batch = .ok s') :
    s.value (.createTransfers batch) = batch.map (fun _ => Status.created) ∧
      s.effect (.createTransfers batch) = s' := by
  simp [value, effect, createTransfers, h]

omit [Zero ID] in
theorem checkAccounts_error (h : s.checkAccounts t = .error status) :
    status ≠ .created ∧ status ≠ .exists := by
  unfold checkAccounts at h
  split_ifs at h
  · cases h
    simp
  · split at h
    · cases h
      simp
    · cases h
      simp
    · dsimp only at h
      split_ifs at h <;> obtain rfl := Except.error.inj h <;> simp

theorem check_error (h : s.check t = .error status) : status ≠ .created ∧ status ≠ .exists := by
  have hpending : s.checkPending t = .error status → status ≠ .created ∧ status ≠ .exists := by
    intro herror
    rcases checkPending_error herror with ⟨-, rfl⟩ | ⟨-, hne⟩
    · simp
    · exact hne
  unfold check at h
  split at h
  · exact checkAccounts_error h
  · exact checkAccounts_error h
  · exact hpending h
  · exact hpending h

theorem create_exists (h : s.create t = .error status)
    (hstatus : status = .created ∨ status = .exists) :
    ∃ stored, s.transfer? t.id = some stored ∧ s.repeats t stored = true := by
  unfold create at h
  split at h
  next stored hstored =>
    refine ⟨stored, hstored, ?_⟩
    by_contra hne
    rw [if_neg hne] at h
    cases h
    simp at hstatus
  · split_ifs at h
    · cases h
      simp at hstatus
    · split at h
      next status' hcheck =>
        cases h
        exact absurd hstatus (not_or.mpr (check_error hcheck))
      · cases h

theorem create_answered {results : List Status}
    (h : step (.createTransfers [t]) s (.ok results) = some s')
    (hstatus : ∀ status rest, results = status :: rest → status = .created ∨ status = .exists) :
    s.create t = .ok s' ∨
      s' = s ∧ ∃ stored, s.transfer? t.id = some stored ∧ s.repeats t stored = true := by
  obtain ⟨hvalue, heffect⟩ := step_ok h
  cases hcreate : s.create t with
  | ok s₁ =>
    left
    rw [heffect, (answer_of_chain (chain_singleton.mpr hcreate)).2]
  | error status =>
    right
    have hchain : s.chain [t] = .error (0, t.id, status) := by simp [chain, hcreate]
    have hlist : results = [status] := by
      rw [hvalue]
      simp [value, createTransfers, hchain]
    have hne := hstatus status [] hlist
    refine ⟨?_, create_exists hcreate hne⟩
    have htransient : status.transient = false := by
      rcases hne with rfl | rfl <;> rfl
    rw [heffect]
    simp [effect, createTransfers, hchain, htransient]

end State

variable {id : ID}

/-- The call submits a post or a void of the pending transfer. -/
def Resolves (id : ID) (e : Event (Op ID) Res) : Prop :=
  match e.op with
  | .createTransfers batch => ∃ t ∈ batch, (t.kind = .post ∨ t.kind = .void) ∧ t.pendingID = id
  | _ => False

namespace State

omit [Zero ID] in
theorem WellFormed.resolution_of_new (h : s.WellFormed) (hnew : s.transfer? id = none) :
    s.resolution id = none := by
  have habsent := transfer?_eq_none.mp hnew
  have hunresolved : ∀ kind, kind = .post ∨ kind = .void → s.resolvedBy kind id = false := by
    intro kind hkind
    refine Bool.eq_false_iff.mpr fun hres => ?_
    obtain ⟨t, ht, rfl, rfl⟩ := resolvedBy_eq_true.mp hres
    obtain ⟨p, hp, hid, -⟩ := h.resolves t ht hkind
    exact habsent p hp hid
  refine resolution_eq_none.mpr ⟨hunresolved .post (.inl rfl), hunresolved .void (.inr rfl), ?_⟩
  intro hexpired
  obtain ⟨t, ht, hid, -⟩ := h.expired id hexpired
  exact habsent t ht hid

theorem WellFormed.create_live (h : s.WellFormed) {t : Transfer ID} (hkind : t.kind = .pending)
    (hcreate : s.create t = .ok s') : s'.Live t.id := by
  obtain ⟨hnew, u, hu, rfl⟩ := create_ok hcreate
  obtain ⟨hstored, -, -⟩ := check_ok hu
  obtain ⟨hpost, hvoid, hexpired⟩ := resolution_eq_none.mp (h.resolution_of_new hnew)
  have hkeep : ∀ kind, kind = .post ∨ kind = .void → s.resolvedBy kind t.id = false →
      resolvedBy { s with transfers := s.transfers ++ [u] } kind t.id = false := by
    intro kind hk hnone
    have hne : u.kind ≠ kind := by
      rw [hstored.kind, hkind]
      rcases hk with rfl | rfl <;> simp
    unfold resolvedBy at hnone ⊢
    rw [List.any_append, hnone]
    simp [hne]
  exact ⟨u, List.mem_append_right _ (List.mem_singleton_self u), hstored.id,
    hstored.kind.trans hkind, resolution_eq_none.mpr
      ⟨hkeep .post (.inl rfl) hpost, hkeep .void (.inr rfl) hvoid, hexpired⟩⟩

theorem step_unresolved {op : Op ID} {r : Res op} (h : step op s r = some s') {kind : Kind}
    (hkind : kind = .post ∨ kind = .void) (hs : s.resolvedBy kind id = false)
    (hop : ¬ Resolves id ⟨op, r⟩) : s'.resolvedBy kind id = false := by
  refine Bool.eq_false_iff.mpr fun hres => ?_
  obtain ⟨u, hu, rfl, rfl⟩ := resolvedBy_eq_true.mp hres
  rcases (step_change h).mem_transfers hu with hold | ⟨batch, t, rfl, -, ht, hstored⟩
  · exact Bool.eq_false_iff.mp hs (resolvedBy_eq_true.mpr ⟨u, hold, rfl, rfl⟩)
  · exact hop ⟨t, ht, hstored.kind ▸ hkind, hstored.pendingID.symm⟩

end State

variable {ι α : Type} [DecidableEq ι] {c c' : Pool (Op ID) Res (State ID) ι α}
  {tr : Trace (Op ID) Res ι} {i : ι}

theorem grows_of_run (hr : Run State.step Expiry c tr c') : State.Grows c.shared c'.shared := by
  induction hr with
  | start => exact .refl _
  | call run head reply ih => exact ih.trans (State.step_change reply).grows
  | env run move ih => exact ih.trans (State.Expiry.grows move)

theorem unresolved_since (hr : Run State.step Expiry c tr c') (hwf : c.shared.WellFormed)
    {pre : History (Op ID) Res} {ids : List ID} {found : List (Transfer ID)}
    (hread : tr.own i = pre ++ [⟨.lookupTransfers ids, .ok found⟩]) (hid : id ∈ ids)
    (habsent : ∀ t ∈ found, t.id ≠ id) (hsince : ∀ x ∈ tr.since i, ¬ Resolves id x.2)
    {kind : Kind} (hkind : kind = .post ∨ kind = .void) : c'.shared.resolvedBy kind id = false := by
  induction hr with
  | start => simp at hread
  | @call tr c' j op next r s run head reply ih =>
    by_cases hj : j = i
    · subst hj
      rw [Trace.own_snoc_self] at hread
      have hlast := (List.append_inj' hread rfl).2
      cases hlast
      obtain ⟨rfl, rfl⟩ := State.step_ok reply
      have hwf' : c'.shared.WellFormed := run.preserves hwf
        (fun _ _ _ _ hw hstep => hw.change (State.step_change hstep)) fun _ _ hw he => hw.expiry he
      have hnew : c'.shared.transfer? id = none := by
        cases hstored : c'.shared.transfer? id with
        | none => rfl
        | some t =>
          have hmem : t ∈ ids.filterMap c'.shared.transfer? :=
            List.mem_filterMap.mpr ⟨id, hid, hstored⟩
          exact absurd (State.transfer?_some hstored).2 (habsent t hmem)
      obtain ⟨hpost, hvoid, -⟩ := State.resolution_eq_none.mp (hwf'.resolution_of_new hnew)
      rcases hkind with rfl | rfl
      · exact hpost
      · exact hvoid
    · rw [Trace.own_snoc_ne _ hj] at hread
      rw [Trace.since_snoc_ne _ hj] at hsince
      obtain ⟨hop, hsince⟩ := List.forall_mem_cons.mp hsince
      exact State.step_unresolved reply hkind (ih hread hsince) hop
  | env run move ih =>
    obtain ⟨t, -, -, -, -, rfl⟩ := move
    exact ih hread hsince

end Ramp.Ledger
