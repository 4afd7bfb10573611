import Ramp.Ledger.Basic

/-! What one more stored transfer does to the balances. An account that must not overdraw never
does: what it reserves and what it paid stay within what it received. Its transfers are read
page by page. -/

namespace Ramp.Ledger

section

variable {α : Type} {l : List α} {f : α → ℕ} {c c' : α → Bool}

theorem sum_filter_le (h : ∀ t ∈ l, c' t = true → c t = true) :
    ((l.filter c').map f).sum ≤ ((l.filter c).map f).sum := by
  induction l with
  | nil => exact Nat.le_refl _
  | cons x l ih =>
    have hl := ih fun t ht => h t (List.mem_cons_of_mem _ ht)
    have hx := h x List.mem_cons_self
    simp only [List.filter_cons]
    split_ifs with hc' hc
    · simpa using hl
    · exact absurd (hx hc') hc
    · simp only [List.map_cons, List.sum_cons]
      omega
    · exact hl

theorem sum_filter_add_le {p : α} (hp : p ∈ l) (hcp : c p = true) (hcp' : c' p = false)
    (h : ∀ t ∈ l, c' t = true → c t = true) :
    ((l.filter c').map f).sum + f p ≤ ((l.filter c).map f).sum := by
  induction l with
  | nil => cases hp
  | cons x l ih =>
    have hsub : ∀ t ∈ l, c' t = true → c t = true := fun t ht => h t (List.mem_cons_of_mem _ ht)
    have hx := h x List.mem_cons_self
    simp only [List.filter_cons]
    rcases List.mem_cons.mp hp with rfl | hp
    · have hl := @sum_filter_le _ _ f _ _ hsub
      simp only [hcp, hcp', if_true, Bool.false_eq_true, if_false, List.map_cons, List.sum_cons]
      omega
    · have hl := ih hp hsub
      split_ifs with hc' hc
      · simp only [List.map_cons, List.sum_cons]
        omega
      · exact absurd (hx hc') hc
      · simp only [List.map_cons, List.sum_cons]
        omega
      · exact hl

end

namespace State

variable {ID : Type} [DecidableEq ID] {s s' : State ID} {u t : Transfer ID} {d : Account ID}

omit [DecidableEq ID] in
theorem amounts_snoc (cond : Transfer ID → Bool) (h : s'.transfers = s.transfers ++ [u]) :
    s'.amounts cond = s.amounts cond + if cond u then u.amount else 0 := by
  unfold amounts
  rw [h, List.filter_append, List.map_append, List.sum_append]
  by_cases hu : cond u <;> simp [hu]

theorem Change.amounts [Zero ID] {op : Op ID} {cond : Transfer ID → Bool} (h : Change s op s')
    (hnew : ∀ batch t u, op = .createTransfers batch → s.chain batch = .ok s' → t ∈ batch →
      Stored t u → u ∈ s'.transfers → cond u = false) : s'.amounts cond = s.amounts cond := by
  rw [State.amounts, h.filter hnew, State.amounts]

theorem Grows.resolution (h : Grows s s') {p : ID} (hp : s'.resolution p = none) :
    s.resolution p = none := by
  obtain ⟨hpost, hvoid, hexp⟩ := resolution_eq_none.mp hp
  refine resolution_eq_none.mpr ⟨?_, ?_, fun hmem => hexp (h.expired hmem)⟩
  · exact Bool.eq_false_iff.mpr fun hs => Bool.eq_false_iff.mp hpost (h.resolvedBy hs)
  · exact Bool.eq_false_iff.mpr fun hs => Bool.eq_false_iff.mp hvoid (h.resolvedBy hs)

theorem Grows.reserves (h : Grows s s') (ht : s'.reserves t = true) : s.reserves t = true := by
  simp only [State.reserves, decide_eq_true_eq] at ht ⊢
  exact ⟨ht.1, h.resolution ht.2⟩

/-- Reserved and posted debits stay within the posted credits. -/
def Covered (s : State ID) (id : ID) : Prop :=
  (s.balances id).debitsPending + (s.balances id).debitsPosted ≤ (s.balances id).creditsPosted

/-- Every account that must not be overdrawn is covered. -/
structure Solvent (s : State ID) : Prop where
  payers : ∀ t ∈ s.transfers, (s.account? t.debit).isSome
  covered : ∀ id a, s.account? id = some a → a.debitsMustNotExceedCredits = true → s.Covered id

theorem solvent_empty : ({} : State ID).Solvent :=
  ⟨by simp, by simp [account?]⟩

theorem Solvent.payers_snoc (h : s.Solvent) (haccounts : s'.accounts = s.accounts)
    (hts : s'.transfers = s.transfers ++ [u]) (hu : (s.account? u.debit).isSome) :
    ∀ t ∈ s'.transfers, (s'.account? t.debit).isSome := by
  intro t ht
  rw [account?, haccounts]
  rw [hts] at ht
  rcases List.mem_append.mp ht with ht | ht
  · exact h.payers t ht
  · obtain rfl := List.mem_singleton.mp ht
    exact hu

section

variable (h : Grows s s') (hts : s'.transfers = s.transfers ++ [u])
include h hts

theorem debitsPending_snoc (id : ID) : (s'.balances id).debitsPending ≤
      (s.balances id).debitsPending + if u.kind = .pending ∧ u.debit = id then u.amount else 0 := by
  have hold : s.amounts (fun t => s'.reserves t ∧ t.debit = id) ≤
      (s.balances id).debitsPending := by
    refine sum_filter_le fun t _ ht => ?_
    simp only [decide_eq_true_eq] at ht ⊢
    exact ⟨h.reserves ht.1, ht.2⟩
  have hsnoc := amounts_snoc (fun t => decide (s'.reserves t = true ∧ t.debit = id)) hts
  have hu : (if decide (s'.reserves u = true ∧ u.debit = id) = true then u.amount else 0) ≤
      if u.kind = .pending ∧ u.debit = id then u.amount else 0 := by
    by_cases hpend : u.kind = .pending ∧ u.debit = id
    · rw [if_pos hpend]
      split_ifs
      · exact Nat.le_refl _
      · exact Nat.zero_le _
    · have hnot : ¬ (s'.reserves u = true ∧ u.debit = id) := by
        simp only [State.reserves, decide_eq_true_eq]
        exact fun hr => hpend ⟨hr.1.1, hr.2⟩
      simp [hnot]
  change s'.amounts _ ≤ _
  omega

theorem debitsPending_resolved {p : Transfer ID} (hu : u.kind ≠ .pending) (hp : p ∈ s.transfers)
    (hres : s.reserves p = true) (hgone : s'.reserves p = false) :
    (s'.balances p.debit).debitsPending + p.amount ≤ (s.balances p.debit).debitsPending := by
  have hsnoc := amounts_snoc (fun t => decide (s'.reserves t = true ∧ t.debit = p.debit)) hts
  have hnot : ¬ (s'.reserves u = true ∧ u.debit = p.debit) := by
    simp only [State.reserves, decide_eq_true_eq]
    exact fun hr => hu hr.1.1
  rw [if_neg (by simpa using hnot), add_zero] at hsnoc
  have hless : s.amounts (fun t => s'.reserves t ∧ t.debit = p.debit) + p.amount ≤
      s.amounts (fun t => s.reserves t ∧ t.debit = p.debit) := by
    refine sum_filter_add_le hp (by simp [hres]) (by simp [hgone]) fun t _ ht => ?_
    simp only [decide_eq_true_eq] at ht ⊢
    exact ⟨h.reserves ht.1, ht.2⟩
  change s'.amounts _ + _ ≤ s.amounts _
  omega

end

section

variable (hts : s'.transfers = s.transfers ++ [u]) (id : ID)
include hts id

theorem debitsPosted_snoc : (s'.balances id).debitsPosted =
      (s.balances id).debitsPosted + if settles u ∧ u.debit = id then u.amount else 0 := by
  have h := amounts_snoc (fun t => decide (settles t = true ∧ t.debit = id)) hts
  simp only [decide_eq_true_eq] at h
  exact h

theorem creditsPosted_snoc : (s'.balances id).creditsPosted =
      (s.balances id).creditsPosted + if settles u ∧ u.credit = id then u.amount else 0 := by
  have h := amounts_snoc (fun t => decide (settles t = true ∧ t.credit = id)) hts
  simp only [decide_eq_true_eq] at h
  exact h

theorem creditsPosted_le : (s.balances id).creditsPosted ≤ (s'.balances id).creditsPosted := by
  rw [creditsPosted_snoc hts]
  exact Nat.le_add_right _ _

end

theorem checkAccounts_room (h : s.checkAccounts t = .ok u) (hd : s.account? t.debit = some d)
    (hflag : d.debitsMustNotExceedCredits = true) :
    (s.balances t.debit).debitsPending + (s.balances t.debit).debitsPosted + t.amount ≤
      (s.balances t.debit).creditsPosted := by
  unfold checkAccounts at h
  split_ifs at h
  rw [hd] at h
  split at h
  · simp at h
  · simp at h
  next d' c hd' hc =>
    cases hd'
    dsimp only at h
    split_ifs at h with hledger hover
    by_contra hlt
    exact hover ⟨hflag, Nat.not_le.mp hlt⟩

theorem checkAccounts_of_room {c : Account ID} (hne : t.debit ≠ t.credit)
    (hd : s.account? t.debit = some d) (hc : s.account? t.credit = some c)
    (hledger : d.ledger = c.ledger) (hsame : t.ledger = d.ledger)
    (hroom : (s.balances t.debit).debitsPending + (s.balances t.debit).debitsPosted + t.amount ≤
      (s.balances t.debit).creditsPosted) :
    s.checkAccounts t = .ok { t with timestamp := s.nextTimestamp } := by
  have hfits : ¬ (d.debitsMustNotExceedCredits = true ∧ (s.balances t.debit).creditsPosted <
      (s.balances t.debit).debitsPending + (s.balances t.debit).debitsPosted + t.amount) := by
    omega
  unfold checkAccounts
  rw [if_neg hne, hd, hc]
  dsimp only
  rw [if_neg (by simp [hledger, hsame]), if_neg hfits]

theorem Covered.mono {id : ID} (h : s.Covered id)
    (hpending : (s'.balances id).debitsPending ≤ (s.balances id).debitsPending)
    (hposted : (s'.balances id).debitsPosted = (s.balances id).debitsPosted)
    (hcredits : (s.balances id).creditsPosted ≤ (s'.balances id).creditsPosted) :
    s'.Covered id := by
  unfold Covered at h ⊢
  omega

theorem Solvent.paid (h : s.Solvent) (hg : Grows s s') (haccounts : s'.accounts = s.accounts)
    (hts : s'.transfers = s.transfers ++ [u]) (hu : s.checkAccounts t = .ok u) : s'.Solvent := by
  obtain ⟨rfl, hdebit, -⟩ := checkAccounts_ok hu
  refine ⟨h.payers_snoc haccounts hts hdebit, fun id a ha hflag => ?_⟩
  have hacct : s.account? id = some a := by rwa [account?, haccounts] at ha
  have hcov := h.covered id a hacct hflag
  have hpending := debitsPending_snoc hg hts id
  have hposted := debitsPosted_snoc hts id
  have hcredits := creditsPosted_le hts id
  unfold Covered at hcov ⊢
  by_cases hid : t.debit = id
  · subst hid
    have hroom := checkAccounts_room hu hacct hflag
    simp only [settles, decide_eq_true_eq] at hpending hposted
    split_ifs at hpending hposted with hpend hsettles hsettles
    · rcases hsettles.1 with hk | hk <;> simp [hk] at hpend
    · omega
    · omega
    · omega
  · simp only [hid, and_false, if_false] at hpending hposted
    omega

variable [Zero ID] {p : Transfer ID}

theorem checkPending_amount (h : s.checkPending t = .ok u)
    (hp : s.transfer? t.pendingID = some p) : resolvedAmount t p ≤ p.amount := by
  unfold checkPending at h
  rw [hp] at h
  dsimp only at h
  split_ifs at h with hk ha
  exact Nat.not_lt.mp ha

theorem resolved_room (hg : Grows s s') (hts : s'.transfers = s.transfers ++ [u])
    (hkind : t.kind = .post ∨ t.kind = .void) (hu : s.checkPending t = .ok u)
    (hp : s.transfer? t.pendingID = some p) (id : ID) :
    (s'.balances id).debitsPending + (s'.balances id).debitsPosted +
        (if p.debit = id then p.amount - resolvedAmount t p else 0) ≤
      (s.balances id).debitsPending + (s.balances id).debitsPosted := by
  obtain ⟨p', hp', hpend, hres, rfl⟩ := checkPending_ok hu
  obtain rfl := Option.some.inj (hp'.symm.trans hp)
  have hamount := checkPending_amount hu hp
  obtain ⟨hmem, hid⟩ := transfer?_some hp
  have hpending := debitsPending_snoc hg hts id
  have hposted := debitsPosted_snoc hts id
  have hnot : (s.inherited t p').kind ≠ .pending := by
    rcases hkind with hk | hk <;> simp [inherited, hk]
  rw [if_neg fun hc => hnot hc.1, add_zero] at hpending
  by_cases hd : p'.debit = id
  · subst hd
    have hreserved : s.reserves p' = true := by simp [reserves, hpend, hid, hres]
    have hgone : s'.reserves p' = false := by
      have hresolved : s'.resolution p'.id ≠ none := by
        intro hnone
        obtain ⟨hpost, hvoid, -⟩ := resolution_eq_none.mp hnone
        have hin : s.inherited t p' ∈ s'.transfers := by simp [hts]
        rcases hkind with hk | hk
        · exact Bool.eq_false_iff.mp hpost (resolvedBy_eq_true.mpr ⟨_, hin, hk, hid.symm⟩)
        · exact Bool.eq_false_iff.mp hvoid (resolvedBy_eq_true.mpr ⟨_, hin, hk, hid.symm⟩)
      simp [reserves, hresolved]
    have hfreed := debitsPending_resolved hg hts hnot hmem hreserved hgone
    have hshare : (if settles (s.inherited t p') = true ∧ (s.inherited t p').debit = p'.debit then
        (s.inherited t p').amount else 0) ≤ resolvedAmount t p' := by
      split_ifs
      · exact Nat.le_refl _
      · exact Nat.zero_le _
    rw [if_pos rfl]
    omega
  · have hother : ¬ (settles (s.inherited t p') = true ∧ (s.inherited t p').debit = id) :=
      fun hc => hd hc.2
    rw [if_neg hother] at hposted
    rw [if_neg hd]
    omega

theorem Solvent.create (h : s.Solvent) (hc : s.create t = .ok s') : s'.Solvent := by
  have hg := create_grows (.refl s) hc
  obtain ⟨-, u, hu, rfl⟩ := create_ok hc
  unfold check at hu
  split at hu
  case h_1 | h_2 => exact h.paid hg rfl rfl hu
  case h_3 hk | h_4 hk =>
    obtain ⟨p, hp, -, -, rfl⟩ := checkPending_ok hu
    refine ⟨h.payers_snoc rfl rfl (h.payers p (transfer?_some hp).1), fun id a ha hflag => ?_⟩
    have hcov := h.covered id a ha hflag
    have hroom := resolved_room hg rfl (by simp [hk]) hu hp id
    have hcredits : (s.balances id).creditsPosted ≤ (State.balances
        { s with transfers := s.transfers ++ [s.inherited t p] } id).creditsPosted :=
      creditsPosted_le rfl id
    unfold Covered at hcov ⊢
    omega

omit [Zero ID] in
theorem covered_of_unused {id : ID} (h : ∀ t ∈ s.transfers, t.debit ≠ id) : s.Covered id := by
  have hnone : ∀ cond : Transfer ID → Bool, (∀ t, cond t = true → t.debit = id) →
      s.amounts cond = 0 := by
    intro cond hcond
    have hfilter : s.transfers.filter cond = [] :=
      List.filter_eq_nil_iff.mpr fun t ht hc => h t ht (hcond t hc)
    rw [amounts, hfilter]
    rfl
  have hpending : (s.balances id).debitsPending = 0 :=
    hnone _ fun t ht => (of_decide_eq_true ht).2
  have hposted : (s.balances id).debitsPosted = 0 :=
    hnone _ fun t ht => (of_decide_eq_true ht).2
  unfold Covered
  omega

theorem Solvent.change {op : Op ID} (h : s.Solvent) (hc : Change s op s') : s'.Solvent := by
  cases hc with
  | same accounts transfers expired =>
    refine ⟨fun t ht => ?_, fun id a ha hflag => ?_⟩
    · rw [account?, accounts]
      exact h.payers t (transfers ▸ ht)
    · have hb : s'.balances id = s.balances id := by
        simp only [balances, amounts, reserves, resolution, resolvedBy, transfers, expired]
      have hcov := h.covered id a (by rwa [account?, accounts] at ha) hflag
      unfold Covered at hcov ⊢
      rwa [hb]
  | @account a absent =>
    have hg : Grows s { s with accounts := s.accounts ++ [a] } :=
      ⟨⟨_, rfl⟩, ⟨[], by simp⟩, fun _ h => h⟩
    refine ⟨fun t ht => ?_, fun id b hb hflag => ?_⟩
    · obtain ⟨d, hd⟩ := Option.isSome_iff_exists.mp (h.payers t ht)
      exact Option.isSome_iff_exists.mpr ⟨d, hg.account? hd⟩
    · cases hold : s.account? id with
      | some b' =>
        have hsame := (hg.account? hold).symm.trans hb
        exact h.covered id b (hold.trans hsame) hflag
      | none =>
        refine covered_of_unused fun t ht hid => ?_
        have hsome := h.payers t ht
        rw [hid, hold] at hsome
        cases hsome
  | chain done => exact chain_preserves (fun _ _ _ _ hs hc => hs.create hc) done h

omit [Zero ID] in
theorem Solvent.expiry (h : s.Solvent) (he : Expiry s s') : s'.Solvent := by
  have hg := Expiry.grows he
  obtain ⟨t, -, -, -, -, rfl⟩ := he
  refine ⟨h.payers, fun id a ha hflag => (h.covered id a ha hflag).mono ?_ rfl (Nat.le_refl _)⟩
  refine sum_filter_le fun t _ ht => ?_
  simp only [decide_eq_true_eq] at ht ⊢
  exact ⟨hg.reserves ht.1, ht.2⟩

end State

theorem filter_after_page {α : Type} (f : α → Nat) {l : List α}
    (hl : l.Pairwise fun x y => f x < f y) {n : Nat} {x : α}
    (hlast : (l.take n).getLast? = some x) : l.filter (fun y => f x + 1 ≤ f y) = l.drop n := by
  obtain ⟨pre, hpre⟩ := List.getLast?_eq_some_iff.mp hlast
  have hsplit : l = pre ++ [x] ++ l.drop n := by rw [← hpre, List.take_append_drop]
  rw [hsplit] at hl
  obtain ⟨hfront, -, hcross⟩ := List.pairwise_append.mp hl
  obtain ⟨-, -, hbefore⟩ := List.pairwise_append.mp hfront
  have hnone : (pre ++ [x]).filter (fun y => decide (f x + 1 ≤ f y)) = [] := by
    refine List.filter_eq_nil_iff.mpr fun y hy => ?_
    rcases List.mem_append.mp hy with hy | hy
    · have hlt := hbefore y hy x (List.mem_singleton_self x)
      simp only [decide_eq_true_eq]
      omega
    · obtain rfl := List.mem_singleton.mp hy
      simp
  have hall : (l.drop n).filter (fun y => decide (f x + 1 ≤ f y)) = l.drop n := by
    refine List.filter_eq_self.mpr fun y hy => ?_
    have hlt := hcross x (List.mem_append_right _ (List.mem_singleton_self x)) y hy
    exact decide_eq_true hlt
  conv_lhs => rw [hsplit]
  rw [List.filter_append, hnone, hall, List.nil_append]

namespace State

variable {ID : Type} [DecidableEq ID] {s : State ID} {f : Filter ID}

omit [DecidableEq ID] in
theorem WellFormed.increasing (h : s.WellFormed) :
    s.transfers.Pairwise fun t u => t.timestamp < u.timestamp := by
  refine List.pairwise_map.mp ?_
  rw [h.stamps]
  exact List.pairwise_lt_range'

theorem creditTransfers_short (h : (s.creditTransfers f).length < f.limit) :
    ((s.creditTransfers f).map Transfer.amount).sum = s.amounts f.selects := by
  have hall : s.creditTransfers f = s.transfers.filter f.selects := by
    refine List.take_of_length_le ?_
    simp only [creditTransfers, List.length_take] at h
    omega
  rw [hall]
  rfl

variable {last : Transfer ID} (h : s.transfers.Pairwise fun t u => t.timestamp < u.timestamp)
  (hlast : (s.creditTransfers f).getLast? = some last)
include h hlast

theorem creditTransfers_rest :
    s.transfers.filter { f with timestampMin := last.timestamp + 1 }.selects =
      (s.transfers.filter f.selects).drop f.limit := by
  have hmem : last ∈ s.transfers.filter f.selects :=
    List.mem_of_mem_take (List.mem_of_getLast? hlast)
  have hmin : f.timestampMin ≤ last.timestamp := by
    have hselects := (List.mem_filter.mp hmem).2
    simp only [Filter.selects, decide_eq_true_eq] at hselects
    exact hselects.2.2.2
  rw [← filter_after_page Transfer.timestamp (h.filter _) hlast, List.filter_filter]
  refine List.filter_congr fun t _ => ?_
  simp only [Filter.selects, ← Bool.decide_and, decide_eq_decide]
  constructor
  · rintro ⟨hcredit, hgroup, hcode, hafter⟩
    exact ⟨hafter, hcredit, hgroup, hcode, by omega⟩
  · rintro ⟨hafter, hcredit, hgroup, hcode, -⟩
    exact ⟨hcredit, hgroup, hcode, hafter⟩

theorem creditTransfers_more : ((s.creditTransfers f).map Transfer.amount).sum +
        s.amounts { f with timestampMin := last.timestamp + 1 }.selects =
      s.amounts f.selects := by
  unfold amounts creditTransfers
  rw [creditTransfers_rest h hlast, ← List.sum_append, ← List.map_append, List.take_append_drop]

end State

theorem sum_filter_erase {α κ : Type} [DecidableEq κ] {l : List α} {key : α → κ} {f : α → ℕ}
    {c : α → Bool} {p : α} (hnd : (l.map key).Nodup) (hp : p ∈ l) (hc : c p = true) :
    ((l.filter fun t => c t && decide (key t ≠ key p)).map f).sum + f p =
      ((l.filter c).map f).sum := by
  induction l with
  | nil => cases hp
  | cons x l ih =>
    obtain ⟨hx, hnd⟩ := List.nodup_cons.mp hnd
    rcases List.mem_cons.mp hp with rfl | hp
    · have hsame : l.filter (fun t => c t && decide (key t ≠ key p)) = l.filter c := by
        refine List.filter_congr fun t ht => ?_
        have hne : key t ≠ key p := fun heq => hx (heq ▸ List.mem_map_of_mem ht)
        simp [hne]
      simp only [List.filter_cons, hc, hsame, ne_eq, not_true_eq_false, decide_false,
        Bool.and_false, Bool.false_eq_true, if_false, if_true, List.map_cons, List.sum_cons]
      omega
    · have hne : key x ≠ key p := fun heq => hx (heq ▸ List.mem_map_of_mem hp)
      have hl := ih hnd hp
      simp only [ne_eq] at hl
      simp only [List.filter_cons, hne, ne_eq, not_false_eq_true, decide_true, Bool.and_true]
      by_cases hcx : c x = true
      · simp only [hcx, if_true, List.map_cons, List.sum_cons]
        omega
      · simp only [hcx]
        exact hl

namespace State

variable {ID : Type} [DecidableEq ID] {s s' : State ID} {u p : Transfer ID}

section

variable (hts : s'.transfers = s.transfers ++ [u])
include hts

theorem resolvedBy_snoc (kind : Kind) (x : ID) :
    s'.resolvedBy kind x = (s.resolvedBy kind x || decide (u.kind = kind ∧ u.pendingID = x)) := by
  simp [resolvedBy, hts]

variable (hexpired : s'.expired = s.expired)
include hexpired

theorem reserves_of_plain (hu : u.kind = .plain) (t : Transfer ID) :
    s'.reserves t = s.reserves t := by
  have hpost := resolvedBy_snoc hts .post t.id
  have hvoid := resolvedBy_snoc hts .void t.id
  simp only [hu, reduceCtorEq, false_and, decide_false, Bool.or_false] at hpost hvoid
  simp only [reserves, resolution, posted, voided, hpost, hvoid, hexpired]

theorem reserves_of_post (hu : u.kind = .post) (t : Transfer ID) :
    s'.reserves t = (s.reserves t && decide (t.id ≠ u.pendingID)) := by
  have hpost := resolvedBy_snoc hts .post t.id
  have hvoid := resolvedBy_snoc hts .void t.id
  simp only [hu, reduceCtorEq, true_and, false_and, decide_false, Bool.or_false] at hpost hvoid
  by_cases heq : u.pendingID = t.id
  · have hgone : s'.resolution t.id ≠ none := by
      simp [resolution, posted, hpost, heq]
    simp [reserves, hgone, heq]
  · have hpost' : s'.posted t.id = s.posted t.id := by simpa [heq] using hpost
    simp only [reserves, resolution, hpost', voided, hvoid, hexpired, ne_eq, Ne.symm heq,
      not_false_eq_true, decide_true, Bool.and_true]

theorem balances_of_plain (hu : u.kind = .plain) (x : ID) : s'.balances x = { s.balances x with
      debitsPosted := (s.balances x).debitsPosted + if u.debit = x then u.amount else 0
      creditsPosted := (s.balances x).creditsPosted + if u.credit = x then u.amount else 0 } := by
  have hreserves := reserves_of_plain hts hexpired hu
  have hnew : s'.reserves u = false := by simp [reserves, hu]
  have hpend : ∀ cond : Transfer ID → Prop, [DecidablePred cond] →
      s'.amounts (fun t => s'.reserves t ∧ cond t) =
        s.amounts (fun t => s.reserves t ∧ cond t) := by
    intro cond _
    rw [amounts_snoc _ hts, hnew]
    simp [hreserves]
  have hposted := debitsPosted_snoc hts x
  have hcredits := creditsPosted_snoc hts x
  simp only [settles, hu, true_or, decide_true, true_and] at hposted hcredits
  simp only [balances] at hposted hcredits ⊢
  rw [hpend fun t => t.debit = x, hpend fun t => t.credit = x, hposted, hcredits]

end

theorem pending_of_post (hwf : s.WellFormed) (hts : s'.transfers = s.transfers ++ [u])
    (hexpired : s'.expired = s.expired) (hu : u.kind = .post) (hp : p ∈ s.transfers)
    (hres : s.reserves p = true) (hpid : u.pendingID = p.id) (cond : Transfer ID → Prop)
    [DecidablePred cond] :
    s'.amounts (fun t => s'.reserves t ∧ cond t) + (if cond p then p.amount else 0) =
      s.amounts (fun t => s.reserves t ∧ cond t) := by
  have hreserves := reserves_of_post hts hexpired hu
  have hnew : s'.reserves u = false := by simp [reserves, hu]
  rw [amounts_snoc _ hts, hnew]
  simp only [hreserves, hpid, Bool.false_eq_true, false_and, decide_false, if_false, Nat.add_zero,
    amounts]
  by_cases hc : cond p
  · have herase := sum_filter_erase (f := Transfer.amount)
      (c := fun t => decide (s.reserves t = true ∧ cond t)) hwf.ids hp (by simp [hres, hc])
    rw [if_pos hc, ← herase]
    congr 3
    simp [Bool.and_comm, Bool.and_left_comm]
  · rw [if_neg hc, Nat.add_zero]
    congr 2
    refine List.filter_congr fun t ht => ?_
    by_cases heq : t.id = p.id
    · have hsame : t = p := by
        have hh := hwf.transfer? hp
        rw [← heq, hwf.transfer? ht] at hh
        exact Option.some.inj hh
      subst hsame
      simp [hc]
    · simp [heq]

omit [DecidableEq ID] in
theorem amount_le {cond : Transfer ID → Bool} (hp : p ∈ s.transfers) (hc : cond p = true) :
    p.amount ≤ s.amounts cond := by
  have hnone : ∀ t ∈ s.transfers, (fun _ => false) t = true → cond t = true :=
    fun _ _ h => absurd h (by simp)
  have hone := sum_filter_add_le (f := Transfer.amount) hp hc rfl hnone
  simpa [amounts] using hone

theorem reserved_le (hp : p ∈ s.transfers) (hres : s.reserves p = true) :
    p.amount ≤ (s.balances p.debit).debitsPending ∧
      p.amount ≤ (s.balances p.credit).creditsPending :=
  ⟨amount_le hp (by simp [hres]), amount_le hp (by simp [hres])⟩

theorem balances_congr (htransfers : s'.transfers = s.transfers)
    (hexpired : s'.expired = s.expired) (x : ID) : s'.balances x = s.balances x := by
  have hreserves : s'.reserves = s.reserves := by
    funext t
    simp only [reserves, resolution_congr htransfers hexpired]
  simp only [balances, amounts, htransfers, hreserves]

theorem balances_of_post (hwf : s.WellFormed) (hts : s'.transfers = s.transfers ++ [u])
    (hexpired : s'.expired = s.expired) (hu : u.kind = .post) (hp : p ∈ s.transfers)
    (hres : s.reserves p = true) (hpid : u.pendingID = p.id) (hdebit : u.debit = p.debit)
    (hcredit : u.credit = p.credit) (x : ID) : s'.balances x = {
      debitsPending := (s.balances x).debitsPending - if p.debit = x then p.amount else 0
      debitsPosted := (s.balances x).debitsPosted + if p.debit = x then u.amount else 0
      creditsPending := (s.balances x).creditsPending - if p.credit = x then p.amount else 0
      creditsPosted := (s.balances x).creditsPosted + if p.credit = x then u.amount else 0 } := by
  have hfreed := pending_of_post hwf hts hexpired hu hp hres hpid
  have hdebits := hfreed fun t => t.debit = x
  have hcredits := hfreed fun t => t.credit = x
  have hposted := debitsPosted_snoc hts x
  have hreceived := creditsPosted_snoc hts x
  simp only [settles, hu, or_true, decide_true, true_and, hdebit, hcredit] at hposted hreceived
  simp only [balances] at hposted hreceived ⊢
  rw [hposted, hreceived, ← hdebits, ← hcredits, Nat.add_sub_cancel, Nat.add_sub_cancel]

variable [Zero ID] {t : Transfer ID}

theorem create_unlimited {d c : Account ID} (hkind : t.kind = .plain)
    (hnew : s.transfer? t.id = none) (hunfailed : t.id ∉ s.failed) (hne : t.debit ≠ t.credit)
    (hd : s.account? t.debit = some d) (hc : s.account? t.credit = some c)
    (hledger : d.ledger = c.ledger) (hsame : t.ledger = d.ledger)
    (hflag : d.debitsMustNotExceedCredits = false) :
    s.create t =
      .ok { s with transfers := s.transfers ++ [{ t with timestamp := s.nextTimestamp }] } := by
  have hcheck : s.check t = .ok { t with timestamp := s.nextTimestamp } := by
    rw [check, hkind]
    simp [checkAccounts, hne, hd, hc, hledger, hsame, hflag, hkind]
  rw [create, hnew]
  rw [if_neg hunfailed, hcheck]

theorem create_plain (hkind : t.kind = .plain) (hcreate : s.create t = .ok s') :
    s'.accounts = s.accounts ∧ s'.expired = s.expired ∧ ∀ x, s'.balances x = { s.balances x with
      debitsPosted := (s.balances x).debitsPosted + if t.debit = x then t.amount else 0
      creditsPosted := (s.balances x).creditsPosted + if t.credit = x then t.amount else 0 } := by
  obtain ⟨-, u, hu, rfl⟩ := create_ok hcreate
  rw [check, hkind] at hu
  obtain ⟨rfl, -, -⟩ := checkAccounts_ok hu
  exact ⟨rfl, rfl, balances_of_plain (u := { t with timestamp := s.nextTimestamp }) rfl rfl hkind⟩

theorem create_post (hwf : s.WellFormed) (hp : p ∈ s.transfers) (hres : s.reserves p = true)
    (hkind : t.kind = .post) (hpid : t.pendingID = p.id) (hcreate : s.create t = .ok s') :
    s'.accounts = s.accounts ∧ s'.expired = s.expired ∧ ∀ x, s'.balances x = {
      debitsPending := (s.balances x).debitsPending - if p.debit = x then p.amount else 0
      debitsPosted := (s.balances x).debitsPosted + if p.debit = x then resolvedAmount t p else 0
      creditsPending := (s.balances x).creditsPending - if p.credit = x then p.amount else 0
      creditsPosted := (s.balances x).creditsPosted +
        if p.credit = x then resolvedAmount t p else 0 } := by
  obtain ⟨-, u, hu, rfl⟩ := create_ok hcreate
  rw [check, hkind] at hu
  obtain ⟨q, hq, -, -, rfl⟩ := checkPending_ok hu
  rw [hpid, hwf.transfer? hp] at hq
  cases hq
  exact ⟨rfl, rfl, balances_of_post (u := s.inherited t p) hwf rfl rfl hkind hp hres hpid rfl rfl⟩

end State

end Ramp.Ledger
