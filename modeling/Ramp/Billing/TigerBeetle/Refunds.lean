import Ramp.Billing.TigerBeetle.Settling

/-! What is posted for a hold, and its refunds. A refund sums up the earlier ones and then writes
its own, so two that overlap can both fit under the cap; refunds that do not overlap never give
back more than was posted. -/

namespace Ramp.Billing.TigerBeetle

open Ramp.Ledger

variable {ID : Type} [DecidableEq ID] [Zero ID] {a : TigerBeetleAdapter ID} {ι : Type}
  {calls : ι → Call} {id : ID} {s s' : State ID} {i j : ι} {t u : Transfer ID}

/-- The transfers that charge the hold: its post, and its fee leg. -/
def IsGross (a : TigerBeetleAdapter ID) (id : ID) (t : Transfer ID) : Prop :=
  t.kind = .post ∧ t.pendingID = id ∨ a.feeLegID id = .ok t.id

instance (id : ID) (t : Transfer ID) : Decidable (IsGross a id t) :=
  inferInstanceAs (Decidable (_ ∨ _))

def grossPosted (a : TigerBeetleAdapter ID) (s : State ID) (id : ID) : Nat :=
  s.amounts fun t => IsGross a id t

omit [DecidableEq ID] [Zero ID] in
theorem Call.Uses.of_hold {call : Call} {ref key : String} {gen : Nat}
    (h : call.Uses a (.hold ref key gen)) :
    ∃ req, call = .authorize req ∧ req.billingRef = ref ∧ req.idempotencyKey = key ∧
      gen < TigerBeetleAdapter.maxAuthGenerations := by
  cases h with
  | hold hgen => exact ⟨_, rfl, rfl, rfl, hgen⟩

theorem Sound.named (hs : Sound a calls s) (hmem : t ∈ s.transfers) (hkind : t.kind = .pending) :
    ∃ i, (calls i).Names a t.id := by
  obtain ⟨slot, ⟨hvalid, i, huses⟩, hid, hrole⟩ := hs.fits t hmem
  obtain ⟨-, req, -, gen, -, -, -, rfl, -⟩ := hrole.of_pending hkind
  obtain ⟨req', hcall, href, hkey, hgen⟩ := huses.of_hold
  refine ⟨i, ?_⟩
  rw [hcall]
  refine ⟨gen, hgen, ?_⟩
  rw [href, hkey, TigerBeetleAdapter.pendingID, if_neg hvalid]
  exact Except.mapError_eq_ok.mpr hid

theorem Sound.hold_unique (hs : Sound a calls s) (ht : t ∈ s.transfers)
    (hu : s.transfer? t.id = some u) : u = t :=
  Option.some.inj (hu.symm.trans (hs.wellFormed.transfer? ht))

variable {h : History (Op ID) Res} {batch : List (Transfer ID)} {tr : Trace (Op ID) Res ι}
  {c : Pool (Op ID) Res (State ID) ι (Except TbError Answer)}

section

theorem Sound.gross_zero (hs : Sound a calls s) (hname : (calls i).Names a id)
    (hposted : s.posted id = false) : grossPosted a s id = 0 := by
  have hnone : s.transfers.filter (fun t => decide (IsGross a id t)) = [] := by
    refine List.filter_eq_nil_iff.mpr fun t ht hgross => ?_
    refine Bool.eq_false_iff.mp hposted ?_
    rcases of_decide_eq_true hgross with ⟨hkind, hpid⟩ | hfee
    · exact State.resolvedBy_eq_true.mpr ⟨t, ht, hkind, hpid⟩
    · exact hs.fees t ht i id hname (slotIs_of_slotID a hfee)
  rw [grossPosted, State.amounts, hnone]
  rfl

section

variable (hs : Sound a calls s)
include hs

theorem Sound.gross_settlement (hids : a.ids.Lawful) (hfree : CollisionFree a calls)
    (hsub : Submits a (calls i) h batch) (hshown : ∀ e ∈ h, Shows e s)
    (hname : (calls j).Names a id) (ht : t ∈ batch) (hstored : Stored t u)
    (hgross : IsGross a id u) : Settlement a (calls i) h id batch := by
  refine hs.settlement hids hfree hsub hshown ht hname ?_
  rcases hgross with ⟨hkind, hpid⟩ | hfee
  · obtain ⟨slot, -, hid, hrole, -⟩ := hsub.slots hids hshown hs.fits t ht
    rw [hstored.kind] at hkind
    rw [hstored.pendingID] at hpid
    rw [hrole.resolving (.inl hkind), hkind, hpid] at hid
    exact .inl hid
  · rw [hstored.id] at hfee
    exact .inr (slotIs_of_slotID a hfee)

theorem Sound.gross_settled (hids : a.ids.Lawful) (hname : (calls j).Names a id)
    (hset : Settlement a (calls i) h id batch) (hshown : ∀ e ∈ h, Shows e s)
    (done : s.chain batch = .ok s') :
    ∃ p, s.transfer? id = some p ∧ s.posted id = false ∧ grossPosted a s' id = p.amount := by
  have hzero : s.resolution id = none → s.posted id = false ∧ grossPosted a s id = 0 := by
    intro hres
    have hposted := (State.resolution_eq_none.mp hres).1
    exact ⟨hposted, hs.gross_zero hname hposted⟩
  cases hset with
  | whole hname' hresolve hinfo =>
    obtain ⟨-, v, hv, rfl⟩ := State.create_ok (State.chain_singleton.mp done)
    obtain ⟨p, hp, hkind, hres, rfl⟩ := State.checkPending_ok hv
    obtain ⟨hposted, hgross⟩ := hzero hres
    refine ⟨p, hp, hposted, ?_⟩
    unfold grossPosted at hgross ⊢
    rw [State.amounts_snoc _ rfl, hgross, if_pos (decide_eq_true (.inl ⟨rfl, rfl⟩))]
    simp [State.inherited, State.resolvedAmount, resolvingTransfer]
  | @split postID voidID feeID platformID info fee hname' hresolve hinfo hfeeID hensured hpos hle =>
    have hinfo := hinfo.shown hshown
    obtain ⟨s₁, hnet, hfee⟩ := State.chain_pair.mp done
    rw [settleNetLeg_transfer (hs.ne_zero hids hinfo)] at hnet
    rw [Leg.transfer_plain rfl] at hfee
    obtain ⟨-, v, hv, rfl⟩ := State.create_ok hnet
    obtain ⟨p, hp, hkind, hres, rfl⟩ := State.checkPending_ok hv
    obtain ⟨-, w, hw, rfl⟩ := State.create_ok hfee
    obtain ⟨rfl, -, -⟩ := State.checkAccounts_ok hw
    obtain rfl := Option.some.inj (hp.symm.trans hinfo)
    obtain ⟨hposted, hgross⟩ := hzero hres
    refine ⟨p, hp, hposted, ?_⟩
    have hamount := (hs.fits p (State.transfer?_some hp).1).pending_amount hkind
    have hresolved := resolvedAmount_net id postID hpos hle hamount
    have hfeeAmount : toUint128 fee = fee.toNat := toUint128_of_le hle hamount
    unfold grossPosted at hgross ⊢
    rw [State.amounts_snoc _ rfl, State.amounts_snoc _ rfl, hgross,
      if_pos (decide_eq_true (.inl ⟨rfl, rfl⟩)), if_pos (decide_eq_true (.inr hfeeID))]
    dsimp only [State.inherited, TigerBeetleAdapter.settleFeeLeg]
    omega

theorem Sound.posted_mem (hs' : Sound a calls s') (hg : State.Grows s s') (ht : t ∈ s'.transfers)
    (hposted : s.posted t.id = true) : t ∈ s.transfers := by
  obtain ⟨v, hv, hkind, hpid⟩ := State.resolvedBy_eq_true.mp hposted
  obtain ⟨p, hp, hid, -, -⟩ := hs.wellFormed.resolves v hv (.inl hkind)
  have hstored := hg.transfer? (hs.wellFormed.transfer? hp)
  rw [hid, hpid] at hstored
  exact hs'.hold_unique ht hstored ▸ hp

theorem Sound.gross_step (hs' : Sound a calls s') (hids : a.ids.Lawful)
    (hfree : CollisionFree a calls) {op : Op ID} (hc : Conduct a (calls i) h op)
    (hshown : ∀ e ∈ h, Shows e s) (hchange : s.Change op s')
    (hgross : ∀ t ∈ s.transfers, t.kind = .pending → s.posted t.id = true →
      grossPosted a s t.id = t.amount) :
    ∀ t ∈ s'.transfers, t.kind = .pending → s'.posted t.id = true →
      grossPosted a s' t.id = t.amount := by
  intro t ht hkind hposted
  obtain ⟨j, hname⟩ := hs'.named ht hkind
  have hg := hchange.grows
  by_cases hset : ∃ batch, op = .createTransfers batch ∧ s.chain batch = .ok s' ∧
      Settlement a (calls i) h t.id batch
  · obtain ⟨batch, rfl, done, hset⟩ := hset
    obtain ⟨p, hp, -, hamount⟩ := hs.gross_settled hids hname hset hshown done
    rw [hamount, hs'.hold_unique ht (hg.transfer? hp)]
  · have hnew : ∀ batch v u, op = .createTransfers batch → s.chain batch = .ok s' → v ∈ batch →
        Stored v u → ¬ IsGross a t.id u := by
      rintro batch v u rfl done hv hstored hugross
      exact hset ⟨batch, rfl, done, hs.gross_settlement hids hfree hc hshown hname hv hstored
        hugross⟩
    have hold : s.posted t.id = true := by
      obtain ⟨u, hu, hukind, hupid⟩ := State.resolvedBy_eq_true.mp hposted
      rcases hchange.mem_transfers hu with hmem | ⟨batch, v, hop, done, hv, hstored⟩
      · exact State.resolvedBy_eq_true.mpr ⟨u, hmem, hukind, hupid⟩
      · exact absurd (.inl ⟨hukind, hupid⟩) (hnew batch v u hop done hv hstored)
    have hsame : grossPosted a s' t.id = grossPosted a s t.id := hchange.amounts
      fun batch v u hop done hv hstored _ => decide_eq_false (hnew batch v u hop done hv hstored)
    rw [hsame]
    exact hgross t (hs.posted_mem hs' hg ht hold) hkind hold

end

variable [DecidableEq ι]

theorem AdapterRun.gross (hids : a.ids.Lawful) (hfree : CollisionFree a calls)
    (hr : AdapterRun a calls tr c) : ∀ t ∈ c.shared.transfers, t.kind = .pending →
      c.shared.posted t.id = true → grossPosted a c.shared t.id = t.amount := by
  induction hr with
  | start => simp [adapterCalls]
  | @call tr c i op next r s run head reply ih =>
    obtain ⟨hs, hs', hshown, hc⟩ := AdapterRun.at_call hids hfree run head reply
    exact hs.gross_step hs' hids hfree hc hshown (State.step_change reply) ih
  | env run move ih =>
    obtain ⟨t, -, -, -, -, rfl⟩ := move
    exact ih

end

def IsRefund (id : ID) (t : Transfer ID) : Prop :=
  t.code = TransferCode.refund.number ∧ t.userData128 = id

instance (id : ID) (t : Transfer ID) : Decidable (IsRefund id t) :=
  inferInstanceAs (Decidable (_ ∧ _))

def refunded (s : State ID) (hold : Transfer ID) : Nat :=
  s.amounts fun t => IsRefund hold.id t ∧ t.credit = hold.debit

def RefundsOf (id : ID) (e : Event (Op ID) Res) : Prop :=
  match e.op with
  | .createTransfers batch => ∃ t ∈ batch, IsRefund id t
  | _ => False

variable {prior : Nat}

section

structure Reverses (a : TigerBeetleAdapter ID) (call : Call) (h : History (Op ID) Res)
    (batch : List (Transfer ID)) (id : ID) (info : Transfer ID) (prior : Nat) (rMinor : Int) :
    Prop where
  names : call.Names a id
  posted : ∃ postID voidID post, a.resolveIDs id = .ok (postID, voidID) ∧ Found h postID post
  found : Found h id info
  paged : Paged h info.debit id 0 0 prior
  cap : prior + rMinor ≤ info.amount
  positive : 0 < rMinor
  legs : ∃ netID feeID reason,
    RefundBatch a (a.reversal ⟨id, netID, feeID, rMinor, reason⟩ info) batch ∧
      0 ≤ (a.reversal ⟨id, netID, feeID, rMinor, reason⟩ info).netRev

variable {call : Call}

theorem RefundBatch.refund {r : RefundLegs ID} (hb : RefundBatch a r batch) :
    ∀ t ∈ batch, IsRefund r.pendingID t := by
  cases hb with
  | net hle =>
    rw [Leg.transfer_plain rfl]
    exact List.forall_mem_singleton.mpr ⟨rfl, rfl⟩
  | both hpos hplatform =>
    rw [Leg.transfer_plain rfl, Leg.transfer_plain rfl]
    exact List.forall_mem_cons.mpr ⟨⟨rfl, rfl⟩, List.forall_mem_singleton.mpr ⟨rfl, rfl⟩⟩

theorem Submits.of_refund (hsub : Submits a call h batch) (ht : t ∈ batch)
    (hcode : t.code = TransferCode.refund.number) :
    ∃ info prior rMinor, Reverses a call h batch t.userData128 info prior rMinor := by
  cases hsub with
  | hold =>
    obtain rfl := List.mem_singleton.mp ht
    cases hcode
  | settle hbatch =>
    cases hbatch with
    | whole =>
      obtain rfl := List.mem_singleton.mp ht
      cases hcode
    | split =>
      rcases List.mem_cons.mp ht with rfl | ht
      · unfold Leg.transfer at hcode
        split_ifs at hcode <;> cases hcode
      · obtain rfl := List.mem_singleton.mp ht
        rw [Leg.transfer_plain rfl] at hcode
        cases hcode
  | void =>
    obtain rfl := List.mem_singleton.mp ht
    cases hcode
  | @refund billingID reason key amount id postID voidID netID feeID info post rMinor prior batch
      hcall hid hresolve hposted _ hinfo hprior hpos hcap hbatch hnet =>
    have hleg : t.userData128 = id := (hbatch.refund t ht).2
    rw [hleg]
    have hname : call.Names a id := by
      rw [hcall]
      exact hid
    exact ⟨info, prior, rMinor, hname, ⟨postID, voidID, post, hresolve, hposted⟩, hinfo, hprior,
      hcap, hpos, netID, feeID, reason, hbatch, hnet⟩
  | credit =>
    obtain rfl := List.mem_singleton.mp ht
    rw [Leg.transfer_plain rfl] at hcode
    cases hcode

theorem toUint128_le {x : Int} (h : 0 ≤ x) : (toUint128 x : Int) ≤ x := by
  unfold toUint128
  omega

theorem Reverses.refunded_le {info : Transfer ID} {rMinor : Int}
    (hrev : Reverses a call h batch id info prior rMinor) (hrate : 0 ≤ a.rateBps info.userData128)
    (done : s.chain batch = .ok s') (hold : Transfer ID) :
    (refunded s' hold : Int) ≤ refunded s hold + rMinor := by
  obtain ⟨netID, feeID, reason, hbatch, hnet⟩ := hrev.legs
  have hpos := hrev.positive
  have hfee : 0 ≤ (a.reversal ⟨id, netID, feeID, rMinor, reason⟩ info).feeRev := by
    have hposted : 0 ≤ feeMinor info.amount (a.rateBps info.userData128) :=
      Int.ediv_nonneg (mul_nonneg (by omega) hrate) (by decide)
    exact Int.ediv_nonneg (mul_nonneg hposted hpos.le) (by omega)
  have hsum : (a.reversal ⟨id, netID, feeID, rMinor, reason⟩ info).netRev +
      (a.reversal ⟨id, netID, feeID, rMinor, reason⟩ info).feeRev = rMinor := by
    simp [TigerBeetleAdapter.reversal]
  generalize a.reversal ⟨id, netID, feeID, rMinor, reason⟩ info = r at *
  have hstep : ∀ {s₁ s₂ : State ID} {leg : Leg ID} {linked : Bool}, leg.pendingID = 0 →
      0 ≤ leg.amount → s₁.create (leg.transfer linked) = .ok s₂ →
      (refunded s₂ hold : Int) ≤ refunded s₁ hold + leg.amount := by
    intro s₁ s₂ leg linked hplain hamount hc
    rw [Leg.transfer_plain hplain] at hc
    obtain ⟨-, v, hv, rfl⟩ := State.create_ok hc
    obtain ⟨rfl, -, -⟩ := State.checkAccounts_ok hv
    have hle := toUint128_le hamount
    unfold refunded
    rw [State.amounts_snoc _ rfl]
    split_ifs
    · push_cast
      omega
    · omega
  cases hbatch with
  | net hle =>
    have h₁ := @hstep _ _ (a.refundNetLeg r) _ rfl hnet (State.chain_singleton.mp done)
    dsimp only [TigerBeetleAdapter.refundNetLeg] at h₁
    omega
  | @both platformID hlt hplatform =>
    obtain ⟨s₁, hfirst, hsecond⟩ := State.chain_pair.mp done
    have h₁ := hstep rfl hnet hfirst
    have h₂ := hstep rfl hfee hsecond
    dsimp only [TigerBeetleAdapter.refundNetLeg, TigerBeetleAdapter.refundFeeLeg] at h₁ h₂
    omega

end

variable {op : Op ID}

section

theorem Sound.refund_plain (hs : Sound a calls s) (ht : t ∈ s.transfers)
    (hcode : t.code = TransferCode.refund.number) : t.kind = .plain := by
  have hpending : ∀ p ∈ s.transfers, p.kind = .pending →
      p.code ≠ TransferCode.refund.number := by
    intro p hp hkind
    obtain ⟨slot, -, -, hrole⟩ := hs.fits p hp
    obtain ⟨_, _, _, _, _, _, _, _, heq⟩ := hrole.of_pending hkind
    rw [heq]
    exact nofun
  have hresolves : t.kind = .post ∨ t.kind = .void → False := by
    intro hkind
    obtain ⟨p, hp, -, hpkind, hpcode⟩ := hs.wellFormed.resolves t ht hkind
    exact hpending p hp hpkind (hpcode.symm.trans hcode)
  cases hkind : t.kind with
  | plain => rfl
  | pending => exact absurd hcode (hpending t ht hkind)
  | post => exact (hresolves (.inl hkind)).elim
  | void => exact (hresolves (.inr hkind)).elim

theorem Sound.submitted_refund (hs : Sound a calls s) (hu : u ∈ s.transfers)
    (hstored : Stored t u) (hrefund : IsRefund id u) : IsRefund id t := by
  have hplain := hs.refund_plain hu hrefund.1
  rw [hstored.kind] at hplain
  rw [hstored.whole (.inl hplain)] at hrefund
  exact hrefund

variable {r : Res op}

theorem Sound.refund_posted_step (hs : Sound a calls s) (hs' : Sound a calls s')
    (hids : a.ids.Lawful) (hfree : CollisionFree a calls) (hc : Conduct a (calls i) h op)
    (hshown : ∀ e ∈ h, Shows e s) (hchange : s.Change op s')
    (hposted : ∀ t ∈ s.transfers, t.code = TransferCode.refund.number →
      s.posted t.userData128 = true) :
    ∀ t ∈ s'.transfers, t.code = TransferCode.refund.number → s'.posted t.userData128 = true := by
  intro u hu hcode
  rcases hchange.mem_transfers hu with hmem | ⟨batch, t, rfl, -, ht, hstored⟩
  · exact hchange.grows.resolvedBy (hposted u hmem hcode)
  · have hrefund := hs'.submitted_refund hu hstored ⟨hcode, rfl⟩
    obtain ⟨info, prior, rMinor, hrev⟩ := Submits.of_refund hc ht hrefund.1
    obtain ⟨postID, voidID, post, hresolve, hpost⟩ := hrev.posted
    rw [← hrefund.2]
    refine hchange.grows.resolvedBy ?_
    rw [posted_iff hids hfree hs.fits hrev.names hresolve, hpost.shown hshown]
    rfl

theorem Sound.refunds_kept (hs' : Sound a calls s') (hstep : State.step op s r = some s')
    (hop : ¬ RefundsOf id ⟨op, r⟩) (cond : Transfer ID → Bool)
    (hcond : ∀ u, cond u = true → IsRefund id u) :
    s'.transfers.filter cond = s.transfers.filter cond := by
  refine (State.step_change hstep).filter ?_
  rintro batch t u rfl - ht hstored hu
  refine Bool.eq_false_iff.mpr fun htrue => hop ?_
  exact ⟨t, ht, hs'.submitted_refund hu hstored (hcond u htrue)⟩

end

section

omit [Zero ID] in
theorem Paged.total {account group : ID} {timestampMin sum total : Nat}
    (hp : Paged h account group timestampMin sum total) (hwf : s.WellFormed)
    (hcurrent : ∀ f page, f.code = TransferCode.refund.number → f.userData128 = group →
      ⟨.creditTransfers f, .ok page⟩ ∈ h → page = s.creditTransfers f) :
    total = sum + s.amounts (Filter.selects
      ⟨account, group, TransferCode.refund.number, timestampMin, refundPageLimit⟩) := by
  induction hp with
  | last read short =>
    obtain rfl := hcurrent _ _ rfl rfl read
    rw [State.creditTransfers_short short]
  | more read hlast rest ih =>
    obtain rfl := hcurrent _ _ rfl rfl read
    rw [ih, ← State.creditTransfers_more hwf.increasing hlast, Nat.add_assoc]

omit [Zero ID] in
theorem refunded_eq (s : State ID) (hold : Transfer ID) : refunded s hold =
    s.amounts (Filter.selects
      ⟨hold.debit, hold.id, TransferCode.refund.number, 0, refundPageLimit⟩) := by
  unfold refunded
  congr 1
  funext t
  refine decide_eq_decide.mpr ⟨?_, ?_⟩
  · rintro ⟨⟨hcode, hgroup⟩, hcredit⟩
    exact ⟨hcredit, hgroup, hcode, Nat.zero_le _⟩
  · rintro ⟨hcredit, hgroup, hcode, -⟩
    exact ⟨⟨hcode, hgroup⟩, hcredit⟩

variable [DecidableEq ι]

variable (hids : a.ids.Lawful) (hfree : CollisionFree a calls) (hr : AdapterRun a calls tr c)
include hids hfree hr

theorem AdapterRun.pages {f : Ledger.Filter ID} {page : List (Transfer ID)}
    (hcode : f.code = TransferCode.refund.number)
    (hread : ⟨.creditTransfers f, .ok page⟩ ∈ tr.own i)
    (hquiet : ∀ x ∈ tr.during i, ¬ RefundsOf f.userData128 x.2) :
    page = c.shared.creditTransfers f := by
  induction hr with
  | start => simp at hread
  | @call tr c j op next r s run head reply ih =>
    have hs' := (AdapterRun.sound hids hfree (run.call head reply)).1
    rcases List.mem_append.mp (Trace.mem_own.mp hread) with hold | hnew
    · have hown := Trace.mem_own.mpr hold
      rw [Trace.during_snoc hown] at hquiet
      obtain ⟨hbefore, hop⟩ := List.forall_mem_append.mp hquiet
      have hselects : ∀ u, f.selects u = true → IsRefund f.userData128 u := by
        intro u hu
        obtain ⟨-, hgroup, hucode, -⟩ := of_decide_eq_true hu
        exact ⟨hucode.trans hcode, hgroup⟩
      have hkept := hs'.refunds_kept reply (hop _ (List.mem_singleton_self _)) f.selects hselects
      rw [ih hown hbefore, State.creditTransfers, State.creditTransfers, hkept]
    · cases List.mem_singleton.mp hnew
      obtain ⟨rfl, rfl⟩ := State.step_ok reply
      rfl
  | env run move ih =>
    obtain ⟨t, -, -, -, -, rfl⟩ := move
    exact ih hread hquiet

theorem AdapterRun.refund_posted : ∀ t ∈ c.shared.transfers,
      t.code = TransferCode.refund.number → c.shared.posted t.userData128 = true := by
  induction hr with
  | start => simp [adapterCalls]
  | @call tr c i op next r s run head reply ih =>
    obtain ⟨hs, hs', hshown, hc⟩ := AdapterRun.at_call hids hfree run head reply
    exact hs.refund_posted_step hs' hids hfree hc hshown (State.step_change reply) ih
  | env run move ih =>
    obtain ⟨t, -, -, -, -, rfl⟩ := move
    exact ih

end

variable {hold : Transfer ID}

instance (id : ID) (e : Event (Op ID) Res) : Decidable (RefundsOf id e) := by
  unfold RefundsOf
  split <;> infer_instance

variable {r : Res op}

theorem Sound.refund_step (hs' : Sound a calls s') (hc : Conduct a (calls i) h op)
    (hstep : State.step op s r = some s') (hold : Transfer ID) :
    refunded s' hold = refunded s hold ∨ RefundsOf hold.id ⟨op, r⟩ ∧
      ∃ batch info prior rMinor, s.chain batch = .ok s' ∧
        Reverses a (calls i) h batch hold.id info prior rMinor := by
  by_cases hop : RefundsOf hold.id ⟨op, r⟩
  · cases State.step_change hstep with
    | same accounts transfers expired =>
      left
      rw [refunded, State.amounts, transfers]
      rfl
    | account absent => exact hop.elim
    | chain done =>
      obtain ⟨t, ht, hcode, hgroup⟩ := hop
      obtain ⟨info, prior, rMinor, hrev⟩ := Submits.of_refund hc ht hcode
      rw [hgroup] at hrev
      exact .inr ⟨⟨t, ht, hcode, hgroup⟩, _, info, prior, rMinor, done, hrev⟩
  · left
    unfold refunded State.amounts
    rw [hs'.refunds_kept hstep hop _ fun u hu => (of_decide_eq_true hu).1]

variable [DecidableEq ι]

/-- While the call ran, no other refund of the same hold was submitted. -/
def Undisturbed (tr : Trace (Op ID) Res ι) (i : ι) (e : Event (Op ID) Res) : Prop :=
  match e.op with
  | .createTransfers batch => ∀ t ∈ batch, t.code = TransferCode.refund.number →
    ∀ x ∈ tr.during i, ¬ RefundsOf t.userData128 x.2
  | _ => True

instance (tr : Trace (Op ID) Res ι) (i : ι) (e : Event (Op ID) Res) :
    Decidable (Undisturbed tr i e) := by
  unfold Undisturbed
  split <;> infer_instance

omit [DecidableEq ID] [Zero ID] in
theorem Undisturbed.quiet {e : Event (Op ID) Res} (hu : Undisturbed tr i e)
    (hop : RefundsOf id e) : ∀ x ∈ tr.during i, ¬ RefundsOf id x.2 := by
  obtain ⟨op, r⟩ := e
  cases op with
  | createTransfers batch =>
    obtain ⟨t, ht, hcode, rfl⟩ := hop
    exact hu t ht hcode
  | _ => exact hop.elim

section

variable (hids : a.ids.Lawful) (hfree : CollisionFree a calls)
include hids hfree

theorem AdapterRun.refunded_zero (hr : AdapterRun a calls tr c)
    (hposted : c.shared.posted hold.id = false) : refunded c.shared hold = 0 := by
  have hnone : c.shared.transfers.filter
      (fun t => decide (IsRefund hold.id t ∧ t.credit = hold.debit)) = [] := by
    refine List.filter_eq_nil_iff.mpr fun t ht hrefund => ?_
    obtain ⟨⟨hcode, hgroup⟩, -⟩ := of_decide_eq_true hrefund
    have hp := AdapterRun.refund_posted hids hfree hr t ht hcode
    rw [hgroup, hposted] at hp
    cases hp
  rw [refunded, State.amounts, hnone]
  rfl

theorem AdapterRun.prior_eq (hr : AdapterRun a calls tr c)
    (hpaged : Paged (tr.own i) hold.debit hold.id 0 0 prior)
    (hquiet : ∀ x ∈ tr.during i, ¬ RefundsOf hold.id x.2) : prior = refunded c.shared hold := by
  have hs := (AdapterRun.sound hids hfree hr).1
  have htotal := hpaged.total hs.wellFormed fun f page hcode hgroup hread =>
    AdapterRun.pages hids hfree hr hcode hread (hgroup ▸ hquiet)
  rw [htotal, refunded_eq, Nat.zero_add]

theorem AdapterRun.capped (hrates : RatesInt64 calls) (hr : AdapterRun a calls tr c)
    (hquiet : tr.Always Undisturbed) :
    ∀ t ∈ c.shared.transfers, t.kind = .pending → refunded c.shared t ≤ t.amount := by
  induction hr with
  | start => simp [adapterCalls]
  | @call tr c i op next r s run head reply ih =>
    obtain ⟨hs, hs', hshown, hc⟩ := AdapterRun.at_call hids hfree run head reply
    have hg := (State.step_change reply).grows
    change ∀ t ∈ s.transfers, t.kind = .pending → refunded s t ≤ t.amount
    intro t ht hkind
    rcases hs'.refund_step hc reply t with hsame | ⟨hop, batch, info, prior, rMinor, done, hrev⟩
    · rw [hsame]
      by_cases hmem : t ∈ c.shared.transfers
      · exact ih hquiet.left t hmem hkind
      · have hposted : c.shared.posted t.id = false :=
          Bool.eq_false_iff.mpr fun hp => hmem (hs.posted_mem hs' hg ht hp)
        rw [AdapterRun.refunded_zero hids hfree run hposted]
        exact Nat.zero_le _
    · have hinfo := hrev.found.shown hshown
      obtain rfl := hs'.hold_unique ht (hg.transfer? hinfo)
      obtain ⟨_, _, _, hrate⟩ := hs.rate hids hrates (State.transfer?_some hinfo).1 hkind
      have hle := hrev.refunded_le (by rw [hrate]; omega) done info
      have hprior := AdapterRun.prior_eq hids hfree run hrev.paged (hquiet.last.quiet hop)
      have hcap := hrev.cap
      omega
  | env run move ih =>
    obtain ⟨t, -, -, -, -, rfl⟩ := move
    exact ih hquiet

end

/-- In every run in which refunds of a hold do not overlap, what is refunded of a hold to the
agent never exceeds the gross amount that was posted for it. -/
theorem refunds_within_gross (hids : a.ids.Lawful) (hfree : CollisionFree a calls)
    (hrates : RatesInt64 calls) (hr : AdapterRun a calls tr c) (hquiet : tr.Always Undisturbed) :
    ∀ t ∈ c.shared.transfers, t.kind = .pending →
      refunded c.shared t ≤ grossPosted a c.shared t.id := by
  intro t ht hkind
  by_cases hposted : c.shared.posted t.id = true
  · rw [AdapterRun.gross hids hfree hr t ht hkind hposted]
    exact AdapterRun.capped hids hfree hrates hr hquiet t ht hkind
  · rw [AdapterRun.refunded_zero hids hfree hr (Bool.eq_false_iff.mpr hposted)]
    exact Nat.zero_le _

def refundCalls (amount : ℚ) : Fin 5 → Call
  | 0 => .credit "agent" ⟨some 2, "USD"⟩ "credit"
  | 1 => .authorize twoUnits
  | 2 => .record (textIds.encodeID twoUnitsHold.id) 2 "record"
  | 3 => .refund (textIds.encodeID twoUnitsHold.id) ⟨some amount, "USD"⟩ "late" "first"
  | 4 => .refund (textIds.encodeID twoUnitsHold.id) ⟨some amount, "USD"⟩ "late" "second"

theorem refundCalls_rates (amount : ℚ) : RatesInt64 (refundCalls amount) := by
  intro i req hcall
  match i with
  | 0 | 2 | 3 | 4 => cases hcall
  | 1 =>
    cases hcall
    decide

theorem refunds_within_gross_one_by_one :
    ∃ tr c, AdapterRun textAdapter (refundCalls 1) tr c ∧ tr.Always Undisturbed ∧
      refunded c.shared twoUnitsHold = 2 * 10 ^ 8 ∧
      refunded c.shared twoUnitsHold ≤ grossPosted textAdapter c.shared twoUnitsHold.id := by
  obtain ⟨tr, c, hr, hquiet, hmem, hamount⟩ : ∃ tr c,
      AdapterRun textAdapter (refundCalls 1) tr c ∧ tr.Always Undisturbed ∧
      twoUnitsHold ∈ c.shared.transfers ∧ refunded c.shared twoUnitsHold = 2 * 10 ^ 8 :=
    Pool.exists_run (answered 4 0 ++ answered 5 1 ++ answered 4 2 ++ answered 6 3 ++ answered 6 4)
      (by decide +kernel)
  exact ⟨tr, c, hr, hquiet, hamount, refunds_within_gross textIds_lawful textAdapter_collisionFree
    (refundCalls_rates 1) hr hquiet twoUnitsHold hmem rfl⟩

/-- Two refunds of the whole amount that overlap are both paid out. -/
theorem refunds_beyond_gross :
    ∃ tr c, AdapterRun textAdapter (refundCalls 2) tr c ∧ twoUnitsHold ∈ c.shared.transfers ∧
      grossPosted textAdapter c.shared twoUnitsHold.id = 2 * 10 ^ 8 ∧
      refunded c.shared twoUnitsHold = 4 * 10 ^ 8 :=
  Pool.exists_run (answered 4 0 ++ answered 5 1 ++ answered 4 2 ++ answered 5 3 ++ answered 5 4 ++
    answered 1 3 ++ answered 1 4) (by decide +kernel)

end Ramp.Billing.TigerBeetle
