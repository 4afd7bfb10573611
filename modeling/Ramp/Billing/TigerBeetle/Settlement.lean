import Ramp.Billing.TigerBeetle.Approval
import Ramp.Billing.TigerBeetle.Refunds

/-! What a settlement moves. The agent pays the whole amount of the hold, the owner gets it
without the commission, rounded down, which goes to the platform. -/

namespace Ramp.Billing.TigerBeetle

open Ramp.Ledger Prog

variable {ID : Type} [DecidableEq ID] [Zero ID] {a : TigerBeetleAdapter ID} {ι : Type}
  {calls : ι → Call} {id postID voidID platformID : ID} {s s' : State ID} {i : ι}
  {info t : Transfer ID} {p : HoldParams ID} {bps : Nat}

/-- The ledger moves from `s` to `s'` by the settlement of a hold with the fee `fee`. -/
structure Split (s s' : State ID) (hold : Transfer ID) (platformID : ID) (fee : Nat) : Prop where
  agent : s'.balances hold.debit = { s.balances hold.debit with
    debitsPending := (s.balances hold.debit).debitsPending - hold.amount
    debitsPosted := (s.balances hold.debit).debitsPosted + hold.amount }
  owner : s'.balances hold.credit = { s.balances hold.credit with
    creditsPending := (s.balances hold.credit).creditsPending - hold.amount
    creditsPosted := (s.balances hold.credit).creditsPosted + (hold.amount - fee) }
  platform : s'.balances platformID = { s.balances platformID with
    creditsPosted := (s.balances platformID).creditsPosted + fee }
  others : ∀ x, x ≠ hold.debit → x ≠ hold.credit → x ≠ platformID → s'.balances x = s.balances x
  reserved : hold.amount ≤ (s.balances hold.debit).debitsPending ∧
    hold.amount ≤ (s.balances hold.credit).creditsPending
  fee_le : fee ≤ hold.amount
  accounts : ∀ x acct, s.account? x = some acct → s'.account? x = some acct

omit [DecidableEq ID] [Zero ID] in
theorem account_code {code code' : AccountCode} (h : a.account id code = a.account id code') :
    code = code' := by
  have hnumber : code.number = code'.number := congrArg Account.code h
  cases code <;> cases code' <;> simp_all [AccountCode.number]

theorem Sound.parties_ne (hs : Sound a calls s) (hfree : CollisionFree a calls) (i : ι)
    (hmem : info ∈ s.transfers) (hkind : info.kind = .pending)
    (hplatform : a.platformFeeAccount = .ok platformID) :
    info.debit ≠ info.credit ∧ info.debit ≠ platformID ∧ info.credit ≠ platformID := by
  obtain ⟨hagent, howner⟩ := hs.parties info hmem hkind
  refine ⟨fun heq => ?_, fun heq => ?_, fun heq => ?_⟩
  · rw [heq, howner] at hagent
    have hcode := account_code (Option.some.inj hagent)
    cases hcode
  · rw [heq] at hagent
    have hcode := account_code (hs.platform_account hfree i hplatform hagent)
    cases hcode
  · rw [heq] at howner
    have hcode := account_code (hs.platform_account hfree i hplatform howner)
    cases hcode

theorem feeMinor_nat (gross bps : Nat) :
    feeMinor gross bps = ((gross * bps / 10000 : Nat) : Int) := by
  simp [feeMinor]

theorem fee_le_gross (gross : Nat) (hbps : bps ≤ 10000) : gross * bps / 10000 ≤ gross := by
  have hmul : gross * bps ≤ gross * 10000 := Nat.mul_le_mul_left gross hbps
  omega

omit [DecidableEq ID] in
theorem rateBps_hold (hids : a.ids.Lawful)
    (hhold : t = { (a.pendingTransfer t.id p).transfer with timestamp := t.timestamp })
    (hbps : p.bps = bps) (hle : bps ≤ 10000) : a.rateBps t.userData128 = bps := by
  have hdata : t.userData128 = a.ids.ofUint64 bps := by
    rw [hhold]
    simp [PendingTransfer.transfer, TigerBeetleAdapter.pendingTransfer, hbps]
  rw [hdata]
  exact hids.int64_ofUint64 bps (by omega)

theorem createAccount_grows (acct : Account ID) : State.Grows s (s.createAccount acct).2 :=
  (State.effect_change (.createAccount acct)).grows

omit [Zero ID] in
theorem Split.of_moved {net fee : Nat} (hsum : net + fee = info.amount)
    (hparties : info.debit ≠ info.credit ∧ info.debit ≠ platformID ∧ info.credit ≠ platformID)
    (hmem : info ∈ s.transfers) (hreserves : s.reserves info = true)
    (haccounts : ∀ x acct, s.account? x = some acct → s'.account? x = some acct)
    (hmoved : ∀ x, s'.balances x = {
      debitsPending := (s.balances x).debitsPending - if info.debit = x then info.amount else 0
      debitsPosted := (s.balances x).debitsPosted + (if info.debit = x then net else 0) +
        if info.debit = x then fee else 0
      creditsPending := (s.balances x).creditsPending - if info.credit = x then info.amount else 0
      creditsPosted := (s.balances x).creditsPosted + (if info.credit = x then net else 0) +
        if platformID = x then fee else 0 }) : Split s s' info platformID fee := by
  obtain ⟨hagent, hagentPlatform, hownerPlatform⟩ := hparties
  have hnet : net = info.amount - fee := by omega
  refine ⟨?_, ?_, ?_, ?_, State.reserved_le hmem hreserves, by omega, haccounts⟩
  · rw [hmoved]
    simp [hagent.symm, hagentPlatform.symm, Nat.add_assoc, hsum]
  · rw [hmoved]
    simp [hagent, hownerPlatform.symm, hnet]
  · rw [hmoved]
    simp [hagentPlatform, hownerPlatform]
  · intro x hx hx' hx''
    rw [hmoved]
    simp [hx.symm, hx'.symm, hx''.symm]

theorem Sound.split_of_settles (hs : Sound a calls s) (hids : a.ids.Lawful)
    (hfree : CollisionFree a calls) (i : ι) (hmem : info ∈ s.transfers)
    (hkind : info.kind = .pending) (hres : s.resolution info.id = none)
    (hplatform : a.platformFeeAccount = .ok platformID) (hrate : a.rateBps info.userData128 = bps)
    (hbps : bps ≤ 10000) (hsettles : Settles a info postID s s') :
    Split s s' info platformID (info.amount * bps / 10000) := by
  have hparties := hs.parties_ne hfree i hmem hkind hplatform
  have hreserves : s.reserves info = true := by simp [State.reserves, hkind, hres]
  have hfeeLe := fee_le_gross info.amount hbps
  have hminor := feeMinor_nat info.amount bps
  cases hsettles with
  | whole hfee hpost =>
    rw [hrate, hminor] at hfee
    have hzero : info.amount * bps / 10000 = 0 := by omega
    obtain ⟨haccounts, -, hmoved⟩ :=
      State.create_post hs.wellFormed hmem hreserves rfl rfl hpost
    rw [hzero]
    refine .of_moved (Nat.add_zero info.amount) hparties hmem hreserves ?_ fun x => ?_
    · intro x acct hacct
      rw [State.account?, haccounts]
      exact hacct
    · rw [hmoved]
      simp [State.resolvedAmount, resolvingTransfer]
  | @split feeID platformID' _ fee hfee hplatform' hfeeID hchain =>
    obtain rfl := Except.ok.inj (hplatform.symm.trans hplatform')
    rw [hrate, hminor] at hfee
    subst hfee
    obtain ⟨htransfers, hexpired⟩ := @State.createAccount_transfers _ _ s
      (a.account platformID .platform)
    have hwf : (s.createAccount (a.account platformID .platform)).2.WellFormed :=
      hs.wellFormed.change (State.effect_change (.createAccount (a.account platformID .platform)))
    have hreserves' : State.reserves (s.createAccount (a.account platformID .platform)).2 info =
        true := by
      simp [State.reserves, hkind, State.resolution_congr htransfers hexpired, hres]
    obtain ⟨s₁, hnet, hfee⟩ := State.chain_pair.mp hchain
    have hinfo := hs.wellFormed.transfer? hmem
    rw [settleNetLeg_transfer (hs.ne_zero hids hinfo)] at hnet
    rw [Leg.transfer_plain rfl] at hfee
    obtain ⟨haccounts, -, hmoved⟩ :=
      State.create_post hwf (htransfers ▸ hmem) hreserves' rfl rfl hnet
    obtain ⟨haccounts', -, hmoved'⟩ := State.create_plain rfl hfee
    have hbound := (hs.fits info hmem).pending_amount hkind
    have hfeeInt : ((info.amount * bps / 10000 : Nat) : Int) ≤ info.amount := by omega
    have hresolved := resolvedAmount_net info.id postID (by omega) hfeeInt hbound
    have hfeeAmount : toUint128 ((info.amount * bps / 10000 : Nat) : Int) =
        info.amount * bps / 10000 := toUint128_of_le hfeeInt hbound
    refine .of_moved (Nat.sub_add_cancel hfeeLe) hparties hmem hreserves ?_ fun x => ?_
    · intro x acct hacct
      rw [State.account?, haccounts', haccounts]
      exact (createAccount_grows _).account? hacct
    · have hnetAmount : State.resolvedAmount (netTransfer info.id postID
          (info.amount - ((info.amount * bps / 10000 : Nat) : Int))) info =
          info.amount - info.amount * bps / 10000 := by omega
      rw [hmoved', hmoved, State.balances_congr htransfers hexpired, hnetAmount]
      simp only [TigerBeetleAdapter.settleFeeLeg, hfeeAmount]

theorem created_isSome (h : s.create t = .ok s') : (s'.transfer? t.id).isSome := by
  obtain ⟨-, u, hu, rfl⟩ := State.create_ok h
  have hid := (State.check_ok hu).1.id
  rw [← hid]
  exact State.transfer?_isSome (List.mem_append_right _ (List.mem_singleton_self u))

theorem Settles.stored (hsettles : Settles a info postID s s') (hid : info.id ≠ 0) :
    State.Grows s s' ∧ (s'.transfer? postID).isSome := by
  cases hsettles with
  | whole hfee hpost => exact ⟨State.create_grows (.refl s) hpost, created_isSome hpost⟩
  | split hfee hplatform hfeeID hchain =>
    obtain ⟨s₁, hnet, hfee⟩ := State.chain_pair.mp hchain
    rw [settleNetLeg_transfer hid] at hnet
    have hgrows := State.create_grows (.refl s₁) hfee
    have hopened := State.create_grows (createAccount_grows _) hnet
    exact ⟨hopened.trans hgrows, grows_isSome hgrows (created_isSome hnet)⟩

variable [DecidableEq ι] {tr : Trace (Op ID) Res ι}
  {c : Pool (Op ID) Res (State ID) ι (Except TbError Answer)}

theorem AdapterRun.gross_whole (hids : a.ids.Lawful) (hfree : CollisionFree a calls)
    (hr : AdapterRun a calls tr c) (hmem : t ∈ c.shared.transfers) (hkind : t.kind = .pending) :
    grossPosted a c.shared t.id = 0 ∨ grossPosted a c.shared t.id = t.amount := by
  have hs := (AdapterRun.sound hids hfree hr).1
  by_cases hposted : c.shared.posted t.id = true
  · exact .inr (AdapterRun.gross hids hfree hr t hmem hkind hposted)
  · obtain ⟨j, hname⟩ := hs.named hmem hkind
    exact .inl (hs.gross_zero hname (Bool.eq_false_iff.mpr hposted))

/-- Recording a live hold debits the agent with the amount of the hold, credits the owner with
it less the commission rounded down and the platform with the commission, and nobody else. It
is not refused, neither leg is negative, and recording again changes nothing. At any later
time of any run, whatever fails, nothing of the hold is posted or all of it. -/
theorem record_splits_hold (hids : a.ids.Lawful) (hfree : CollisionFree a calls)
    (hd : Derivable a calls) (hr : AdapterRun a calls tr c) (hmem : t ∈ c.shared.transfers)
    (hlive : c.shared.Live t.id)
    (hhold : t = { (a.pendingTransfer t.id p).transfer with timestamp := t.timestamp })
    (hbps : p.bps = bps) (hle : bps ≤ 10000) (quantity : Int) (key : String) :
    (∃ platformID s', a.platformFeeAccount = .ok platformID ∧
      alone (a.record (a.ids.encodeID t.id) quantity key) c.shared = some (.ok (), s') ∧
      Split c.shared s' t platformID (t.amount * bps / 10000) ∧
      ∀ quantity' key',
        alone (a.record (a.ids.encodeID t.id) quantity' key') s' = some (.ok (), s')) ∧
      ∀ tr' c', Run State.step Expiry c tr' c' →
        grossPosted a c'.shared t.id = 0 ∨ grossPosted a c'.shared t.id = t.amount := by
  have hs := (AdapterRun.sound hids hfree hr).1
  have hkind : t.kind = .pending := by
    rw [hhold]
    rfl
  obtain ⟨j, hname⟩ := hs.named hmem hkind
  obtain ⟨postID, voidID, hresolve⟩ := hs.derived t hmem hkind
  obtain ⟨platformID, hplatform⟩ := hd.platformFeeAccount j
  have hres : c.shared.resolution t.id = none := by
    obtain ⟨-, -, -, -, hres⟩ := hlive
    exact hres
  have hrate := rateBps_hold hids hhold hbps hle
  have hminor := feeMinor_nat t.amount bps
  have hfeeLe := fee_le_gross t.amount hle
  obtain ⟨s', hsettle, hposted, hsettles⟩ := hs.settleSplit_eval hids hfree hd hname hresolve hmem
    hkind hres (by rw [hrate, hminor]; omega) (by rw [hrate, hminor]; omega)
  have hsplit := hs.split_of_settles hids hfree j hmem hkind hres hplatform hrate hle hsettles
  have hrecord := hs.record_live_eval quantity key hids hfree hname hresolve hlive hsettle
  have hstored := hs.wellFormed.transfer? hmem
  obtain ⟨hgrows, hpost⟩ := hsettles.stored (hs.ne_zero hids hstored)
  have hhold' := grows_isSome hgrows (State.transfer?_isSome hmem)
  refine ⟨⟨platformID, s', hplatform, hrecord, hsplit, fun quantity' key' => ?_⟩, ?_⟩
  · exact record_posted_eval quantity' key' hids hresolve hhold' hpost
  · intro tr' c' hrest
    exact AdapterRun.gross_whole hids hfree (hr.trans hrest) ((grows_of_run hrest).mem hmem) hkind

theorem record_splits_hold_funded :
    ∃ tr c platformID s', AdapterRun textAdapter (fundedCalls 4) tr c ∧
      c.shared.Live twoUnitsHold.id ∧
      alone (textAdapter.record (textIds.encodeID twoUnitsHold.id) 2 "record") c.shared =
        some (.ok (), s') ∧
      Split c.shared s' twoUnitsHold platformID (twoUnitsHold.amount * 1 / 10000) := by
  obtain ⟨tr, c, hr, hmem, hlive⟩ : ∃ tr c, AdapterRun textAdapter (fundedCalls 4) tr c ∧
      twoUnitsHold ∈ c.shared.transfers ∧ c.shared.Live twoUnitsHold.id :=
    Pool.exists_run (answered 4 0 ++ answered 5 1) (by decide +kernel)
  have hhold := twoUnitsHold_holdOf.transfer
  obtain ⟨⟨platformID, s', -, hrecord, hsplit, -⟩, -⟩ :=
    record_splits_hold textIds_lawful textAdapter_collisionFree textAdapter_derivable hr hmem hlive
      hhold rfl (by decide) 2 "record"
  exact ⟨tr, c, platformID, s', hr, hlive, hrecord, hsplit⟩

end Ramp.Billing.TigerBeetle
