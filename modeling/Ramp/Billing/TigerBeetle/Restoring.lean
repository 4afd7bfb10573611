import Mathlib.Data.Nat.ModEq
import Ramp.Billing.TigerBeetle.Settlement

/-! Refunds of a settled hold, one after the other. Each takes back the fee's share of its
amount, rounded down, and the rest from the owner. -/

namespace Ramp.Billing.TigerBeetle

open Ramp.Ledger Prog

variable {ID : Type} [DecidableEq ID] [Zero ID] {a : TigerBeetleAdapter ID} {ι : Type}
  {calls : ι → Call} {id postID voidID platformID : ID} {s s' : State ID} {i j : ι}
  {t u : Transfer ID} {p : HoldParams ID} {bps : Nat} {key : String}

variable {x : ID} {h : History (Op ID) Res} {batch : List (Transfer ID)}
  {tr : Trace (Op ID) Res ι} {c : Pool (Op ID) Res (State ID) ι (Except TbError Answer)}

section

def RefundID (a : TigerBeetleAdapter ID) (id : ID) (key : String) (x : ID) : Prop :=
  SlotIs a (.refundNet (a.ids.encodeID id) key) x ∨ SlotIs a (.refundFee (a.ids.encodeID id) key) x

def Call.RefundsUnder (a : TigerBeetleAdapter ID) (call : Call) (id : ID) (key : String) : Prop :=
  ∃ billingID amount reason, call = .refund billingID amount reason key ∧
    a.ids.decodeID billingID = .ok id

omit [DecidableEq ID] [Zero ID] in
theorem Call.RefundsUnder.names (h : (calls i).RefundsUnder a id key) : (calls i).Names a id := by
  obtain ⟨billingID, amount, reason, hcall, hid⟩ := h
  rw [hcall]
  exact hid

omit [DecidableEq ID] in
theorem Call.RefundsUnder.slot (hids : a.ids.Lawful) (h : (calls i).RefundsUnder a id key)
    (hx : RefundID a id key x) : ∃ slot, Used a calls slot ∧ SlotIs a slot x ∧
      (slot = .refundNet (a.ids.encodeID id) key ∨ slot = .refundFee (a.ids.encodeID id) key) := by
  obtain ⟨billingID, amount, reason, hcall, hid⟩ := h
  have hvalid := hids.encode_no_colon id
  rcases hx with hx | hx
  · exact ⟨.refundNet _ key, ⟨hvalid, i, hcall ▸ .refundNet hid⟩, hx, .inl rfl⟩
  · exact ⟨.refundFee _ key, ⟨hvalid, i, hcall ▸ .refundFee hid⟩, hx, .inr rfl⟩

omit [DecidableEq ID] in
theorem Role.of_refundSlot {slot : Slot} (hids : a.ids.Lawful) (h : Role a calls slot t)
    (hslot : slot = .refundNet (a.ids.encodeID id) key ∨
      slot = .refundFee (a.ids.encodeID id) key) :
    t.kind = .plain ∧ t.userData128 = id := by
  rcases hslot with rfl | rfl
  · cases h with
    | refundNet hkind hhex => exact ⟨hkind, encodeID_injective hids hhex⟩
  · cases h with
    | refundFee hkind hhex => exact ⟨hkind, encodeID_injective hids hhex⟩

theorem Submits.refund_of_data {call : Call} (hsub : Submits a call h batch) (ht : t ∈ batch)
    (hkind : t.kind = .plain) (hdata : t.userData128 ≠ 0) :
    t.code = TransferCode.refund.number := by
  cases hsub with
  | hold =>
    obtain rfl := List.mem_singleton.mp ht
    cases hkind
  | settle hbatch =>
    cases hbatch with
    | whole =>
      obtain rfl := List.mem_singleton.mp ht
      cases hkind
    | split =>
      rcases List.mem_cons.mp ht with rfl | ht
      · unfold Leg.transfer at hdata
        split_ifs at hdata <;> exact absurd rfl hdata
      · obtain rfl := List.mem_singleton.mp ht
        rw [Leg.transfer_plain rfl] at hdata
        exact absurd rfl hdata
  | void =>
    obtain rfl := List.mem_singleton.mp ht
    cases hkind
  | refund _ _ _ _ _ _ _ _ _ hbatch => exact (hbatch.refund t ht).1
  | credit =>
    obtain rfl := List.mem_singleton.mp ht
    rw [Leg.transfer_plain rfl] at hdata
    exact absurd rfl hdata

theorem Sound.submitted_refundID (hs : Sound a calls s) (hids : a.ids.Lawful)
    (hfree : CollisionFree a calls) (hsub : Submits a (calls i) h batch)
    (hshown : ∀ e ∈ h, Shows e s) (ht : t ∈ batch) (hcall : (calls j).RefundsUnder a id key)
    (hid : id ≠ 0) (hx : RefundID a id key t.id) : s.posted id = true := by
  obtain ⟨slot, hused, hslot, hrefund⟩ := hcall.slot hids hx
  obtain ⟨slot', hused', hslot', hrole, -⟩ := hsub.slots hids hshown hs.fits t ht
  obtain rfl := slot_unique hfree hused hused' hslot hslot'
  obtain ⟨hkind, hdata⟩ := hrole.of_refundSlot hids hrefund
  have hcode := hsub.refund_of_data ht hkind (hdata ▸ hid)
  obtain ⟨info, prior, rMinor, hrev⟩ := hsub.of_refund ht hcode
  rw [hdata] at hrev
  obtain ⟨postID, voidID, post, hresolve, hfound⟩ := hrev.posted
  refine (posted_iff hids hfree hs.fits hcall.names hresolve).mpr ?_
  rw [hfound.shown hshown]
  rfl

variable [DecidableEq ι]

theorem AdapterRun.refundID_fresh (hids : a.ids.Lawful) (hfree : CollisionFree a calls)
    (hr : AdapterRun a calls tr c) (hcall : (calls j).RefundsUnder a id key) (hid : id ≠ 0)
    (hposted : c.shared.posted id = false) (hx : RefundID a id key x) :
    c.shared.transfer? x = none ∧ x ∉ c.shared.failed := by
  induction hr with
  | start => simp [adapterCalls, State.transfer?]
  | @call tr c i op next r s run head reply ih =>
    obtain ⟨hs, hs', hshown, hc⟩ := AdapterRun.at_call hids hfree run head reply
    have hgrows := (State.step_change reply).grows
    have hold : c.shared.posted id = false :=
      Bool.eq_false_iff.mpr fun hp => Bool.eq_false_iff.mp hposted (hgrows.resolvedBy hp)
    obtain ⟨hnew, hunfailed⟩ := ih hold
    have hbatch : ∀ batch t, op = .createTransfers batch → t ∈ batch → t.id = x → False := by
      rintro batch t rfl ht rfl
      have hp := hs.submitted_refundID hids hfree hc hshown ht hcall hid hx
      rw [hold] at hp
      cases hp
    constructor
    · rw [State.transfer?_eq_none] at hnew ⊢
      intro u hu hux
      rcases (State.step_change reply).mem_transfers hu with hmem | ⟨batch, v, hop, -, hv, hstored⟩
      · exact hnew u hmem hux
      · exact hbatch batch v hop hv (hstored.id.symm.trans hux)
    · intro hmem
      have heffect := (State.mem_failed_step reply hmem).resolve_left hunfailed
      obtain ⟨batch, pre, v, post, s₁, status, hop, hsplit, -, -, -, hvx⟩ :=
        (State.mem_failed_effect heffect).resolve_left hunfailed
      exact hbatch batch v hop (by simp [hsplit]) hvx
  | env run move ih =>
    obtain ⟨u, -, -, -, -, rfl⟩ := move
    exact ih hposted

end

variable {leg : Leg ID}

theorem sumRefundPages_eval (hs : s.transfers.Pairwise fun t u => t.timestamp < u.timestamp)
    (account group : ID) (code pages timestampMin sum : Nat) :
    ∃ r, alone (sumRefundPages account group code pages timestampMin sum) s = some (r, s) ∧
      (∀ total, r = .ok total → total = sum + s.amounts (Filter.selects
        ⟨account, group, code, timestampMin, refundPageLimit⟩)) ∧
      ((s.transfers.filter (Filter.selects
          ⟨account, group, code, timestampMin, refundPageLimit⟩)).length < pages * refundPageLimit →
        ∃ total, r = .ok total) := by
  induction pages generalizing timestampMin sum with
  | zero => exact ⟨_, rfl, by simp, by simp⟩
  | succ pages ih =>
    let f : Ledger.Filter ID := ⟨account, group, code, timestampMin, refundPageLimit⟩
    have hread : alone (TigerBeetle.call "tigerbeetle: sum refunds" (.creditTransfers f)) s =
        some (.ok (s.creditTransfers f), s) := call_eval
    by_cases hshort : (s.creditTransfers f).length < refundPageLimit
    · refine ⟨.ok (sum + ((s.creditTransfers f).map Transfer.amount).sum),
        (eval_seq_ok hread).trans ?_, ?_, fun _ => ⟨_, rfl⟩⟩
      · dsimp only
        split
        · rfl
        · rw [if_pos hshort]
          rfl
      · rintro total htotal
        cases htotal
        rw [State.creditTransfers_short hshort]
    · have hpos : 0 < refundPageLimit := by decide
      have hne : s.creditTransfers f ≠ [] := fun hnil => hshort (by rw [hnil]; exact hpos)
      obtain ⟨last, hlast⟩ := Option.ne_none_iff_exists'.mp (mt List.getLast?_eq_none_iff.mp hne)
      have hmore := State.creditTransfers_more hs hlast
      have hrest := congrArg List.length (State.creditTransfers_rest hs hlast)
      obtain ⟨r, hr, htotal, hok⟩ := ih (last.timestamp + 1)
        (sum + ((s.creditTransfers f).map Transfer.amount).sum)
      refine ⟨r, (eval_seq_ok hread).trans ?_, fun total hr => ?_, fun hcount => hok ?_⟩
      · dsimp only
        rw [hlast]
        dsimp only
        rw [if_neg hshort]
        exact hr
      · have hsum := htotal total hr
        simp only [f] at hmore hsum
        omega
      · have hfull : (s.creditTransfers f).length ≤ (s.transfers.filter f.selects).length :=
          List.length_take_le' _ _
        simp only [f, List.length_drop] at hrest hfull hshort
        rw [Nat.succ_mul] at hcount
        omega

/-- However many pages the refunds of a hold fill, they are summed up once each. -/
theorem sumAccountRefunds_exact (hs : s.transfers.Pairwise fun t u => t.timestamp < u.timestamp)
    (account group : ID) (code : TransferCode) (pages : Nat)
    (hpages : (s.transfers.filter fun t => t.credit = account ∧ t.userData128 = group ∧
      t.code = code.number).length / refundPageLimit < pages) :
    alone (sumAccountRefunds pages account group code) s =
      some (.ok ((s.transfers.filter fun t => t.credit = account ∧ t.userData128 = group ∧
        t.code = code.number).map Transfer.amount).sum, s) := by
  have hselects : (fun t : Transfer ID => decide (t.credit = account ∧ t.userData128 = group ∧
      t.code = code.number)) =
        Filter.selects ⟨account, group, code.number, 0, refundPageLimit⟩ := by
    funext t
    simp [Filter.selects]
  obtain ⟨r, hr, htotal, hok⟩ := sumRefundPages_eval hs account group code.number pages 0 0
  rw [hselects] at hpages ⊢
  obtain ⟨total, rfl⟩ := hok ((Nat.div_lt_iff_lt_mul (by decide)).mp hpages)
  have hsum := htotal total rfl
  rw [Nat.zero_add] at hsum
  rw [← State.amounts, ← hsum]
  exact hr

def refundOf (n : Nat) : Transfer Nat where
  id := n
  kind := .plain
  debit := 2
  credit := 1
  amount := n
  pendingID := 0
  userData128 := 7
  userData64 := 0
  timeout := 0
  ledger := 1
  code := TransferCode.refund.number
  linked := false
  timestamp := n

theorem sumAccountRefunds_exact_full_page : alone (sumAccountRefunds 2 1 7 .refund)
        { transfers := (List.range' 1 refundPageLimit).map refundOf } =
      some (.ok 32385, { transfers := (List.range' 1 refundPageLimit).map refundOf }) := by
  have hpages := sumAccountRefunds_exact (s := { transfers := (List.range' 1 254).map refundOf })
    (List.pairwise_map.mpr List.pairwise_lt_range') 1 7 .refund 2 (by decide +kernel)
  refine hpages.trans ?_
  decide +kernel

theorem buildLinkedBatch_single (h : 0 ≤ leg.amount) :
    buildLinkedBatch [leg] = .ok [leg.transfer false] := by
  change [(leg, 0)].mapM (fun x => buildLeg 0 x.1 x.2) = _
  have hone : buildLeg 0 leg 0 = .ok (leg.transfer false) := by simp [buildLeg, not_lt.mpr h]
  rw [List.mapM_cons, hone]
  rfl

variable {s₁ : State ID} {netRev feeRev n : Nat} {netID feeID : ID}

variable {hold : Transfer ID} {fee : Nat}

section

def takenBack (s : State ID) (hold : Transfer ID) (account : ID) : Nat :=
  s.amounts fun u => IsRefund hold.id u ∧ u.debit = account

/-- A refund of the hold has given back `netRev` from its owner and `feeRev` from the
platform. -/
structure Returned (s s' : State ID) (hold : Transfer ID) (platformID : ID) (netRev feeRev : Nat) :
    Prop where
  balances : ∀ x, s'.balances x = { s.balances x with
    debitsPosted := (s.balances x).debitsPosted + (if hold.credit = x then netRev else 0) +
      if platformID = x then feeRev else 0
    creditsPosted := (s.balances x).creditsPosted + if hold.debit = x then netRev + feeRev else 0 }
  taken : ∀ x, takenBack s' hold x = takenBack s hold x + (if hold.credit = x then netRev else 0) +
    if platformID = x then feeRev else 0
  refunded : refunded s' hold = refunded s hold + (netRev + feeRev)

omit [Zero ID] in
theorem Returned.refl (s : State ID) (hold : Transfer ID) (platformID : ID) :
    Returned s s hold platformID 0 0 := by
  refine ⟨fun x => ?_, fun x => ?_, rfl⟩
  · simp
  · simp

omit [Zero ID] in
theorem Returned.trans {netRev' feeRev' : Nat} (h : Returned s s₁ hold platformID netRev feeRev)
    (h' : Returned s₁ s' hold platformID netRev' feeRev') :
    Returned s s' hold platformID (netRev + netRev') (feeRev + feeRev') := by
  refine ⟨fun x => ?_, fun x => ?_, ?_⟩
  · rw [h'.balances, h.balances]
    simp only [Balances.mk.injEq, true_and]
    split_ifs <;> omega
  · rw [h'.taken, h.taken]
    split_ifs <;> omega
  · rw [h'.refunded, h.refunded]
    omega

/-- A recorded hold whose refunds under these keys are still to be made. -/
structure Refundable (a : TigerBeetleAdapter ID) (calls : ι → Call) (hold : Transfer ID)
    (platformID : ID) (fee : Nat) (keys : List String) (s : State ID) : Prop where
  wellFormed : s.WellFormed
  stored : s.transfer? hold.id = some hold
  bounded : hold.amount < 2 ^ 128
  rate : feeMinor hold.amount (a.rateBps hold.userData128) = fee
  fee_le : fee ≤ hold.amount
  posted : ∃ postID voidID, a.resolveIDs hold.id = .ok (postID, voidID) ∧
    (s.transfer? postID).isSome
  parties : hold.debit ≠ hold.credit ∧ hold.debit ≠ platformID ∧ hold.credit ≠ platformID
  fees : a.platformFeeAccount = .ok platformID
  agent : s.account? hold.debit = some (a.account hold.debit .agent)
  owner : s.account? hold.credit = some (a.account hold.credit .owner)
  platform : 0 < fee → s.account? platformID = some (a.account platformID .platform)
  nodup : keys.Nodup
  used : ∀ key ∈ keys, ∃ j, (calls j).RefundsUnder a hold.id key
  fresh : ∀ key ∈ keys, ∀ x, RefundID a hold.id key x → s.transfer? x = none ∧ x ∉ s.failed

structure IsLeg (a : TigerBeetleAdapter ID) (hold : Transfer ID) (leg : Leg ID) (amount : Nat) :
    Prop where
  plain : leg.pendingID = 0
  credit : leg.credit = hold.debit
  ledger : leg.ledger = a.ledger
  refund : leg.code = TransferCode.refund.number ∧ leg.userData128 = hold.id
  minor : leg.amount = amount
  bounded : amount < 2 ^ 128

theorem IsLeg.create {amount : Nat} {c : AccountCode} (hleg : IsLeg a hold leg amount)
    (linked : Bool) (hcode : c ≠ .agent) (hnew : s.transfer? leg.id = none ∧ leg.id ∉ s.failed)
    (hne : leg.debit ≠ hold.debit) (hdebit : s.account? leg.debit = some (a.account leg.debit c))
    (hagent : s.account? hold.debit = some (a.account hold.debit .agent)) :
    ∃ s', s.create (leg.transfer linked) = .ok s' ∧ s'.accounts = s.accounts ∧
      s'.failed = s.failed ∧
      (∀ x, s'.balances x = { s.balances x with
        debitsPosted := (s.balances x).debitsPosted + if leg.debit = x then amount else 0
        creditsPosted := (s.balances x).creditsPosted + if hold.debit = x then amount else 0 }) ∧
      (∀ x, takenBack s' hold x = takenBack s hold x + if leg.debit = x then amount else 0) ∧
      refunded s' hold = refunded s hold + amount ∧
      ∀ x, s.transfer? x = none → x ≠ leg.id → s'.transfer? x = none := by
  obtain ⟨hplain, hcredit, hledger, hrefund, hamount, hbounded⟩ := hleg
  have hminor : toUint128 leg.amount = amount := by
    rw [hamount]
    exact toUint128_of_le le_rfl hbounded
  rw [Leg.transfer_plain hplain, hminor, hcredit]
  have hcreate := State.create_unlimited (t := {
      id := leg.id, kind := .plain, debit := leg.debit, credit := hold.debit, amount := amount,
      pendingID := 0, userData128 := leg.userData128, userData64 := leg.userData64, timeout := 0,
      ledger := leg.ledger, code := leg.code, linked := linked, timestamp := 0 })
    rfl hnew.1 hnew.2 hne hdebit hagent rfl hledger (by simp [TigerBeetleAdapter.account, hcode])
  obtain ⟨-, -, hmoved⟩ := State.create_plain rfl hcreate
  refine ⟨_, hcreate, rfl, rfl, hmoved, fun x => ?_, ?_, fun x hx hne => ?_⟩
  · rw [takenBack, State.amounts_snoc _ rfl, takenBack]
    simp [IsRefund, hrefund]
  · rw [refunded, State.amounts_snoc _ rfl, if_pos (decide_eq_true ⟨hrefund, rfl⟩), refunded]
  · rw [State.transfer?] at hx ⊢
    simp [List.find?_append, hx, hne.symm]

theorem refundReverse_eval (reason : String) (hwf : s.WellFormed)
    (hplatform : a.platformFeeAccount = .ok platformID)
    (hparties : hold.debit ≠ hold.credit ∧ hold.debit ≠ platformID ∧ hold.credit ≠ platformID)
    (hagent : s.account? hold.debit = some (a.account hold.debit .agent))
    (howner : s.account? hold.credit = some (a.account hold.credit .owner))
    (hopened : 0 < feeRev → s.account? platformID = some (a.account platformID .platform))
    (hnet : s.transfer? netID = none ∧ netID ∉ s.failed)
    (hfee : s.transfer? feeID = none ∧ feeID ∉ s.failed) (hne : feeID ≠ netID)
    (hnetRev : netRev < 2 ^ 128) (hfeeRev : feeRev < 2 ^ 128) :
    ∃ s', alone (a.refundReverse ⟨hold.id, netID, feeID, hold.debit, hold.credit, netRev, feeRev,
        reason⟩) s = some (.ok (), s') ∧ Returned s s' hold platformID netRev feeRev ∧
      State.Grows s s' ∧ s'.WellFormed ∧ s'.failed = s.failed ∧
      ∀ x, s.transfer? x = none → x ≠ netID → x ≠ feeID → s'.transfer? x = none := by
  obtain ⟨hdebit, hdebitPlatform, hcreditPlatform⟩ := hparties
  let r : RefundLegs ID :=
    ⟨hold.id, netID, feeID, hold.debit, hold.credit, netRev, feeRev, reason⟩
  have hnetLeg : IsLeg a hold (a.refundNetLeg r) netRev := ⟨rfl, rfl, rfl, ⟨rfl, rfl⟩, rfl, hnetRev⟩
  have hfeeLeg : IsLeg a hold (a.refundFeeLeg r platformID) feeRev :=
    ⟨rfl, rfl, rfl, ⟨rfl, rfl⟩, rfl, hfeeRev⟩
  by_cases hzero : feeRev = 0
  · have hlegs : a.refundLegs r = .ok [a.refundNetLeg r] := by
      simp [TigerBeetleAdapter.refundLegs, r, hzero]
      rfl
    obtain ⟨s', hcreate, haccounts, hfailed, hmoved, htaken, hrefunded, hnew⟩ :=
      hnetLeg.create false (c := .owner) (by decide) hnet hdebit.symm howner hagent
    refine ⟨s', ?_, ⟨fun x => ?_, fun x => ?_, ?_⟩, State.create_grows (.refl s) hcreate,
      hwf.create hcreate, hfailed, fun x hx hxnet _ => hnew x hx hxnet⟩
    · refine (eval_seq_ok (eval_orThrow hlegs)).trans ?_
      exact submitLinked_eval (buildLinkedBatch_single (Int.natCast_nonneg netRev))
        (State.chain_singleton.mpr hcreate)
    · rw [hmoved, hzero]
      simp only [ite_self, Nat.add_zero]
      rfl
    · rw [htaken, hzero]
      simp only [ite_self, Nat.add_zero]
      rfl
    · rw [hrefunded, hzero]
      rfl
  · have hpos : 0 < feeRev := Nat.pos_of_ne_zero hzero
    have hlegs : a.refundLegs r = .ok [a.refundNetLeg r, a.refundFeeLeg r platformID] := by
      simp [TigerBeetleAdapter.refundLegs, r, hpos, hplatform]
    obtain ⟨s₁, hcreate, haccounts, hfailed, hmoved, htaken, hrefunded, hnew⟩ :=
      hnetLeg.create true (c := .owner) (by decide) hnet hdebit.symm howner hagent
    have hgrows := State.create_grows (.refl s) hcreate
    have hfresh : s₁.transfer? feeID = none ∧ feeID ∉ s₁.failed := by
      rw [hfailed]
      exact ⟨hnew feeID hfee.1 hne, hfee.2⟩
    obtain ⟨s', hcreate', haccounts', hfailed', hmoved', htaken', hrefunded', hnew'⟩ :=
      hfeeLeg.create false (c := .platform) (by decide) hfresh hdebitPlatform.symm
        (hgrows.account? (hopened hpos)) (hgrows.account? hagent)
    refine ⟨s', ?_, ⟨fun x => ?_, fun x => ?_, ?_⟩, State.create_grows hgrows hcreate',
      (hwf.create hcreate).create hcreate', hfailed'.trans hfailed,
      fun x hx hxnet hxfee => hnew' x (hnew x hx hxnet) hxfee⟩
    · refine (eval_seq_ok (eval_orThrow hlegs)).trans ?_
      exact submitLinked_eval
        (buildLinkedBatch_pair (Int.natCast_nonneg netRev) (Int.natCast_nonneg feeRev))
        (State.chain_pair.mpr ⟨s₁, hcreate, hcreate'⟩)
    · rw [hmoved', hmoved]
      simp only [TigerBeetleAdapter.refundNetLeg, TigerBeetleAdapter.refundFeeLeg, r]
      congr 1
      split_ifs <;> omega
    · rw [htaken', htaken]
      rfl
    · rw [hrefunded', hrefunded]
      omega

variable {keys : List String}

omit [Zero ID] in
theorem Refundable.tail (h : Refundable a calls hold platformID fee (key :: keys) s) :
    Refundable a calls hold platformID fee keys s :=
  { h with
    nodup := (List.nodup_cons.mp h.nodup).2
    used := fun key hkey => h.used key (List.mem_cons_of_mem _ hkey)
    fresh := fun key hkey => h.fresh key (List.mem_cons_of_mem _ hkey) }

omit [Zero ID] in
theorem Refundable.step (h : Refundable a calls hold platformID fee keys s)
    (hgrows : State.Grows s s') (hwf : s'.WellFormed)
    (hfresh : ∀ key ∈ keys, ∀ x, RefundID a hold.id key x → s'.transfer? x = none ∧ x ∉ s'.failed) :
    Refundable a calls hold platformID fee keys s' := by
  obtain ⟨postID, voidID, hresolve, hpost⟩ := h.posted
  exact { h with
    wellFormed := hwf
    stored := hgrows.transfer? h.stored
    posted := ⟨postID, voidID, hresolve, grows_isSome hgrows hpost⟩
    agent := hgrows.account? h.agent
    owner := hgrows.account? h.owner
    platform := fun hpos => hgrows.account? (h.platform hpos)
    fresh := hfresh }

theorem Refundable.apart (hids : a.ids.Lawful) (hfree : CollisionFree a calls)
    (h : Refundable a calls hold platformID fee (key :: keys) s) :
    (∀ key' ∈ keys, ∀ x, RefundID a hold.id key' x → ¬ RefundID a hold.id key x) ∧
      ∀ x y, SlotIs a (.refundNet (a.ids.encodeID hold.id) key) x →
        SlotIs a (.refundFee (a.ids.encodeID hold.id) key) y → y ≠ x := by
  obtain ⟨j, hcall⟩ := h.used key List.mem_cons_self
  constructor
  · intro key' hkey' x hx' hx
    obtain ⟨j', hcall'⟩ := h.used key' (List.mem_cons_of_mem _ hkey')
    obtain ⟨slot, hused, hslot, hkind⟩ := hcall.slot hids hx
    obtain ⟨slot', hused', hslot', hkind'⟩ := hcall'.slot hids hx'
    obtain rfl := slot_unique hfree hused hused' hslot hslot'
    have hne : key ≠ key' := by
      rintro rfl
      exact (List.nodup_cons.mp h.nodup).1 hkey'
    rcases hkind with rfl | rfl <;> simp [hne] at hkind'
  · rintro x y hx hy rfl
    have hnet : Used a calls (.refundNet (a.ids.encodeID hold.id) key) := by
      obtain ⟨billingID, amount, reason, hrefund, hid⟩ := hcall
      exact ⟨hids.encode_no_colon _, j, hrefund ▸ .refundNet hid⟩
    have hfee : Used a calls (.refundFee (a.ids.encodeID hold.id) key) := by
      obtain ⟨billingID, amount, reason, hrefund, hid⟩ := hcall
      exact ⟨hids.encode_no_colon _, j, hrefund ▸ .refundFee hid⟩
    cases slot_unique hfree hnet hfee hx hy

theorem Refundable.classifyForRefund_eval (hids : a.ids.Lawful)
    (h : Refundable a calls hold platformID fee keys s) :
    alone (a.classifyForRefund hold.id) s = some (.ok (), s) := by
  obtain ⟨postID, voidID, hresolve, hpost⟩ := h.posted
  have hclassify : alone (a.classifyHold hold.id "refund") s =
      some (.ok (.resolved, postID), s) := by
    rw [classifyHold_eval hids hresolve, h.stored]
    simp only [Option.isNone_some, Bool.false_eq_true, if_false, hpost, true_or, if_true]
  refine (eval_seq_ok hclassify).trans ?_
  refine (eval_seq_ok lookupTransfer_eval).trans ?_
  simp only [hpost, if_true]
  rfl

/-- What a refund of `n` does: nothing, or it takes back the fee's share of `n`, rounded
down, from the platform and the rest from the owner. -/
inductive Refunded (a : TigerBeetleAdapter ID) (calls : ι → Call) (hold : Transfer ID)
    (platformID : ID) (fee : Nat) (keys : List String) (n : Nat) (s : State ID) :
    Except TbError Unit → State ID → Prop
  | refused (e : TbError) : Refunded a calls hold platformID fee keys n s (.error e) s
  | paid {s' : State ID} (hle : refunded s hold + n ≤ hold.amount)
    (hreturned : Returned s s' hold platformID (n - fee * n / hold.amount) (fee * n / hold.amount))
    (hnext : Refundable a calls hold platformID fee keys s') :
    Refunded a calls hold platformID fee keys n s (.ok ()) s'

omit [Zero ID] in
theorem Refunded.mapError {r : Except TbError Unit} (g : TbError → TbError)
    (h : Refunded a calls hold platformID fee keys n s r s') :
    Refunded a calls hold platformID fee keys n s (r.mapError g) s' := by
  cases h with
  | refused e => exact .refused (g e)
  | paid hle hreturned hnext => exact .paid hle hreturned hnext

theorem Refundable.reverseRefund_eval (hids : a.ids.Lawful) (hfree : CollisionFree a calls)
    (h : Refundable a calls hold platformID fee (key :: keys) s)
    (hlegs : a.refundLegIDs hold.id key = .ok (netID, feeID)) (n : Nat) (reason : String) :
    ∃ r s', alone (a.reverseRefund ⟨hold.id, netID, feeID, n, reason⟩) s = some (r, s') ∧
      Refunded a calls hold platformID fee keys n s r s' := by
  obtain ⟨hnetID, hfeeID⟩ := refundLegIDs_ok hlegs
  obtain ⟨hapart, hne⟩ := h.apart hids hfree
  obtain ⟨sum, hsum, htotal, -⟩ := sumRefundPages_eval h.wellFormed.increasing hold.debit hold.id
    TransferCode.refund.number a.refundPages 0 0
  have hlookup : alone (rethrow (TbError.wrapped "billing: refund lookup pending")
      (lookupTransfer hold.id)) s = some (.ok (some hold), s) := by
    rw [lookupTransfer_eval, h.stored]
  cases sum with
  | error e =>
    refine ⟨_, s, (eval_seq_ok hlookup).trans (eval_seq_error (eval_rethrow hsum)), .refused _⟩
  | ok prior =>
    have hprior : prior = refunded s hold := by
      rw [refunded_eq]
      simpa using htotal prior rfl
    by_cases hcap : refunded s hold + n ≤ hold.amount
    · have hshare : fee * n / hold.amount ≤ n := by
        refine Nat.div_le_of_le_mul ?_
        exact Nat.mul_le_mul_right n h.fee_le
      have hreversal : a.reversal ⟨hold.id, netID, feeID, n, reason⟩ hold = ⟨hold.id, netID, feeID,
          hold.debit, hold.credit, (n - fee * n / hold.amount : Nat),
          (fee * n / hold.amount : Nat), reason⟩ := by
        simp only [TigerBeetleAdapter.reversal, h.rate]
        push_cast [hshare]
        rfl
      have hnetRev : n - fee * n / hold.amount ≤ n := Nat.sub_le _ _
      have hbounded : n < 2 ^ 128 := (Nat.le_of_add_left_le hcap).trans_lt h.bounded
      obtain ⟨s', heval, hreturned, hgrows, hwf, hfailed, hnew⟩ := refundReverse_eval reason
        h.wellFormed h.fees h.parties h.agent h.owner
        (fun hpos => h.platform (Nat.pos_of_ne_zero fun hzero => by simp [hzero] at hpos))
        (h.fresh key List.mem_cons_self netID (.inl hnetID))
        (h.fresh key List.mem_cons_self feeID (.inr hfeeID)) (hne netID feeID hnetID hfeeID)
        (hnetRev.trans_lt hbounded) (hshare.trans_lt hbounded)
      refine ⟨.ok (), s', ?_, .paid hcap hreturned ?_⟩
      · refine (eval_seq_ok hlookup).trans ((eval_seq_ok (eval_rethrow hsum)).trans ?_)
        dsimp only
        rw [if_neg (by omega), hreversal]
        exact heval
      · exact h.tail.step hgrows hwf fun key' hkey' x hx => by
          obtain ⟨hnone, hunfailed⟩ := h.tail.fresh key' hkey' x hx
          have hx' := hapart key' hkey' x hx
          refine ⟨hnew x hnone ?_ ?_, hfailed ▸ hunfailed⟩
          · rintro rfl
            exact hx' (.inl hnetID)
          · rintro rfl
            exact hx' (.inr hfeeID)
    · refine ⟨.error _, s, ?_, .refused (.billing .refundExceedsRecord)⟩
      refine (eval_seq_ok hlookup).trans ((eval_seq_ok (eval_rethrow hsum)).trans ?_)
      dsimp only
      rw [if_pos (by omega)]
      rfl

structure Part where
  amount : RawAmount
  reason : String
  key : String

def Part.minor (a : TigerBeetleAdapter ID) (part : Part) : Nat :=
  match a.refundMinor part.amount with
  | .ok minor => minor.toNat
  | .error _ => 0

omit [DecidableEq ID] [Zero ID] in
theorem Part.minor_of_ok {part : Part} {minor : Int} (h : a.refundMinor part.amount = .ok minor) :
    minor = part.minor a := by
  have hpos : 0 < minor := by
    unfold TigerBeetleAdapter.refundMinor at h
    split_ifs at h
    split at h
    · cases h
    · split_ifs at h with hle
      cases h
      omega
  rw [Part.minor, h]
  dsimp only
  omega

theorem Refundable.refund_eval (hids : a.ids.Lawful) (hfree : CollisionFree a calls) {part : Part}
    (h : Refundable a calls hold platformID fee (part.key :: keys) s) :
    ∃ r s', alone (a.refund (a.ids.encodeID hold.id) part.amount part.reason part.key) s =
      some (r, s') ∧ Refunded a calls hold platformID fee keys (part.minor a) s r s' := by
  have hdecode := hids.decode_encode hold.id
  have hclassify := h.classifyForRefund_eval hids
  cases hminor : a.refundMinor part.amount with
  | error e =>
    refine ⟨_, s, eval_rethrow ((eval_seq_ok (eval_orThrow hdecode)).trans ?_),
      (Refunded.refused e).mapError _⟩
    exact (eval_seq_ok hclassify).trans (eval_seq_error (eval_orThrow_error hminor))
  | ok minor =>
    obtain rfl := Part.minor_of_ok hminor
    cases hlegs : a.refundLegIDs hold.id part.key with
    | error e =>
      refine ⟨_, s, eval_rethrow ((eval_seq_ok (eval_orThrow hdecode)).trans ?_),
        (Refunded.refused e).mapError _⟩
      refine (eval_seq_ok hclassify).trans ((eval_seq_ok (eval_orThrow hminor)).trans ?_)
      exact eval_seq_error (eval_orThrow_error hlegs)
    | ok legs =>
      obtain ⟨netID, feeID⟩ := legs
      obtain ⟨r, s', heval, hrefunded⟩ :=
        h.reverseRefund_eval hids hfree hlegs (part.minor a) part.reason
      have hnew := (h.fresh part.key List.mem_cons_self netID (.inl (refundLegIDs_ok hlegs).1)).1
      refine ⟨_, s', eval_rethrow ((eval_seq_ok (eval_orThrow hdecode)).trans ?_),
        hrefunded.mapError _⟩
      refine (eval_seq_ok hclassify).trans ((eval_seq_ok (eval_orThrow hminor)).trans ?_)
      refine (eval_seq_ok (eval_orThrow hlegs)).trans ((eval_seq_ok lookupTransfer_eval).trans ?_)
      simp only [hnew, Option.isSome_none, Bool.false_eq_true, if_false]
      exact heval

end

variable {parts : List Part}

/-- Refunds the parts one after the other, each with its answer. -/
def refundAll (a : TigerBeetleAdapter ID) (id : ID) :
    List Part → State ID → Option (List (Part × Except TbError Unit) × State ID)
  | [], s => some ([], s)
  | part :: parts, s =>
    (alone (a.refund (a.ids.encodeID id) part.amount part.reason part.key) s).bind fun x =>
      (refundAll a id parts x.2).map fun y => ((part, x.1) :: y.1, y.2)

def paidBack (a : TigerBeetleAdapter ID) (done : List (Part × Except TbError Unit)) : Nat :=
  (done.map fun x => if x.2 = .ok () then x.1.minor a else 0).sum

/-- The fee share of every part is a whole number, so that nothing is lost to rounding. -/
def WholeShares (a : TigerBeetleAdapter ID) (gross fee : Nat) (parts : List Part) : Prop :=
  ∀ part ∈ parts, gross ∣ fee * part.minor a

theorem Refundable.refundAll_eval (hids : a.ids.Lawful) (hfree : CollisionFree a calls)
    (h : Refundable a calls hold platformID fee (parts.map Part.key) s)
    (hle : refunded s hold ≤ hold.amount) :
    ∃ done s' feeRev, refundAll a hold.id parts s = some (done, s') ∧ done.map Prod.fst = parts ∧
      feeRev ≤ paidBack a done ∧ Returned s s' hold platformID (paidBack a done - feeRev) feeRev ∧
      refunded s' hold ≤ hold.amount ∧ feeRev ≤ fee * paidBack a done / hold.amount ∧
      (WholeShares a hold.amount fee parts →
        hold.amount ∣ fee * paidBack a done ∧ feeRev = fee * paidBack a done / hold.amount) := by
  induction parts generalizing s with
  | nil =>
    exact ⟨[], s, 0, rfl, rfl, le_rfl, .refl s hold platformID, hle, by simp, by simp [paidBack]⟩
  | cons part parts ih =>
    obtain ⟨r, s₁, heval, hrefunded⟩ := h.refund_eval hids hfree
    cases hrefunded with
    | refused e =>
      obtain ⟨done, s', feeRev, hall, hdone, hfeeRev, hreturned, hcap, hshare, hwhole⟩ :=
        ih h.tail hle
      have hpaid : paidBack a ((part, .error e) :: done) = paidBack a done := by simp [paidBack]
      refine ⟨(part, .error e) :: done, s', feeRev, ?_, by simp [hdone], ?_, ?_, hcap, ?_, ?_⟩
      · simp [refundAll, heval, hall]
      · rwa [hpaid]
      · rwa [hpaid]
      · rwa [hpaid]
      · rw [hpaid]
        exact fun hall => hwhole fun p hp => hall p (List.mem_cons_of_mem _ hp)
    | paid hn hreturned₁ hnext =>
      have hshare₁ : fee * part.minor a / hold.amount ≤ part.minor a := by
        refine Nat.div_le_of_le_mul ?_
        exact Nat.mul_le_mul_right _ h.fee_le
      have hcap₁ : refunded s₁ hold ≤ hold.amount := by
        rw [hreturned₁.refunded]
        omega
      obtain ⟨done, s', feeRev, hall, hdone, hfeeRev, hreturned, hcap, hshare, hwhole⟩ :=
        ih hnext hcap₁
      have hpaid : paidBack a ((part, .ok ()) :: done) = part.minor a + paidBack a done := by
        simp [paidBack]
      refine ⟨(part, .ok ()) :: done, s', fee * part.minor a / hold.amount + feeRev, ?_,
        by simp [hdone], ?_, ?_, hcap, ?_, ?_⟩
      · simp [refundAll, heval, hall]
      · rw [hpaid]
        omega
      · have hboth := hreturned₁.trans hreturned
        convert hboth using 1
        omega
      · rw [hpaid, Nat.mul_add]
        have hadd : fee * part.minor a / hold.amount + fee * paidBack a done / hold.amount ≤
            (fee * part.minor a + fee * paidBack a done) / hold.amount :=
          Nat.div_add_div_le_add_div
        omega
      · intro hparts
        obtain ⟨hdvd, hfee⟩ := hwhole fun p hp => hparts p (List.mem_cons_of_mem _ hp)
        have hdvd₁ := hparts part List.mem_cons_self
        rw [hpaid, Nat.mul_add]
        exact ⟨Nat.dvd_add hdvd₁ hdvd, by rw [Nat.add_div_of_dvd_right hdvd₁, hfee]⟩

section

theorem created_mem (h : s.create t = .ok s') (hu : u ∈ s'.transfers) : u ∈ s.transfers ∨
    Stored t u ∧ (t.kind = .post ∨ t.kind = .void →
      ∃ p, s.transfer? t.pendingID = some p ∧ u.code = p.code) := by
  obtain ⟨-, v, hv, rfl⟩ := State.create_ok h
  rcases List.mem_append.mp hu with hu | hu
  · exact .inl hu
  · obtain rfl := List.mem_singleton.mp hu
    obtain ⟨hstored, -, hcode⟩ := State.check_ok hv
    refine .inr ⟨hstored, fun hkind => ?_⟩
    obtain ⟨p, hp, -, hpcode⟩ := hcode hkind
    exact ⟨p, hp, hpcode⟩

variable {info : Transfer ID}

theorem Settles.added (h : Settles a info postID s s') (hid : info.id ≠ 0)
    (hinfo : s.transfer? info.id = some info) (hcode : info.code = TransferCode.settlement.number)
    (hu : u ∈ s'.transfers) : u ∈ s.transfers ∨ u.code = TransferCode.settlement.number ∧
      (u.id = postID ∨ a.feeLegID info.id = .ok u.id) := by
  cases h with
  | whole hfee hpost =>
    refine (created_mem hpost hu).imp_right ?_
    rintro ⟨hstored, hpending⟩
    obtain ⟨p, hp, hpcode⟩ := hpending (.inl rfl)
    obtain rfl := Option.some.inj (hinfo.symm.trans hp)
    exact ⟨hpcode.trans hcode, .inl hstored.id⟩
  | @split feeID platformID _ fee hfee hplatform hfeeID hchain =>
    obtain ⟨s₁, hnet, hfee⟩ := State.chain_pair.mp hchain
    rw [settleNetLeg_transfer hid] at hnet
    rw [Leg.transfer_plain rfl] at hfee
    rcases created_mem hfee hu with hu | ⟨hstored, -⟩
    · rcases created_mem hnet hu with hu | ⟨hstored, hpending⟩
      · rw [(State.createAccount_transfers _).1] at hu
        exact .inl hu
      · obtain ⟨p, hp, hpcode⟩ := hpending (.inl rfl)
        have hopened := (createAccount_grows (a.account platformID .platform)).transfer? hinfo
        obtain rfl := Option.some.inj (hopened.symm.trans hp)
        exact .inr ⟨hpcode.trans hcode, .inl hstored.id⟩
    · have hwhole := hstored.whole (.inl rfl)
      refine .inr ⟨by rw [hwhole]; rfl, .inr ?_⟩
      rw [hstored.id]
      exact hfeeID

theorem Settles.failed (h : Settles a info postID s s') : s'.failed = s.failed := by
  have hopen : ∀ acct, (s.createAccount acct).2.failed = s.failed := by
    intro acct
    unfold State.createAccount
    split <;> rfl
  cases h with
  | whole hfee hpost =>
    obtain ⟨-, v, -, rfl⟩ := State.create_ok hpost
    rfl
  | split hfee hplatform hfeeID hchain =>
    rw [← hopen]
    exact State.chain_preserves (P := fun s₁ => s₁.failed = _) (fun s₁ t s₂ _ hs₁ hc => by
      obtain ⟨-, v, -, rfl⟩ := State.create_ok hc
      exact hs₁) hchain rfl

theorem Settles.wellFormed (h : Settles a info postID s s')
    (hwf : s.WellFormed) : s'.WellFormed := by
  cases h with
  | whole hfee hpost => exact hwf.create hpost
  | split hfee hplatform hfeeID hchain =>
    exact State.chain_preserves (fun s₁ t s₂ _ hs₁ hc => hs₁.create hc) hchain
      (hwf.change (State.effect_change (.createAccount _)))

variable {info : Transfer ID}

variable (hs : Sound a calls s) (hids : a.ids.Lawful) (hfree : CollisionFree a calls)
include hs hids hfree

theorem Settles.platform_opened (i : ι) (hplatform : a.platformFeeAccount = .ok platformID)
    (h : Settles a info postID s s')
    (hfee : 0 < feeMinor info.amount (a.rateBps info.userData128)) :
    s'.account? platformID = some (a.account platformID .platform) := by
  cases h with
  | whole hzero => omega
  | split _ hplatform' _ hchain =>
    obtain rfl := Except.ok.inj (hplatform.symm.trans hplatform')
    obtain ⟨-, -, -, -, hopened⟩ := hs.platform_opened hids hfree i hplatform ""
    exact (State.Change.chain hchain).grows.account? hopened

theorem Settles.refundable (i : ι) (hmem : info ∈ s.transfers) (hkind : info.kind = .pending)
    (hcode : info.code = TransferCode.settlement.number)
    (hplatform : a.platformFeeAccount = .ok platformID)
    (hresolve : a.resolveIDs info.id = .ok (postID, voidID))
    (hrate : feeMinor info.amount (a.rateBps info.userData128) = fee) (hfee : fee ≤ info.amount)
    (h : Settles a info postID s s') (hkeys : (parts.map Part.key).Nodup)
    (hused : ∀ part ∈ parts, ∃ j, (calls j).RefundsUnder a info.id part.key)
    (hfresh : ∀ part ∈ parts, ∀ x, RefundID a info.id part.key x →
      s.transfer? x = none ∧ x ∉ s.failed) :
    Refundable a calls info platformID fee (parts.map Part.key) s' := by
  have hinfo := hs.wellFormed.transfer? hmem
  have hid := hs.ne_zero hids hinfo
  obtain ⟨hgrows, hpost⟩ := h.stored hid
  obtain ⟨hagent, howner⟩ := hs.parties info hmem hkind
  exact {
    wellFormed := h.wellFormed hs.wellFormed
    stored := hgrows.transfer? hinfo
    bounded := (hs.fits info hmem).pending_amount hkind
    rate := hrate
    fee_le := hfee
    posted := ⟨postID, voidID, hresolve, hpost⟩
    parties := hs.parties_ne hfree i hmem hkind hplatform
    fees := hplatform
    agent := hgrows.account? hagent
    owner := hgrows.account? howner
    platform := fun hpos => h.platform_opened hs hids hfree i hplatform (by omega)
    nodup := hkeys
    used := by
      intro key hkey
      obtain ⟨part, hpart, rfl⟩ := List.mem_map.mp hkey
      exact hused part hpart
    fresh := by
      intro key hkey x hx
      obtain ⟨part, hpart, rfl⟩ := List.mem_map.mp hkey
      obtain ⟨hnone, hunfailed⟩ := hfresh part hpart x hx
      refine ⟨State.transfer?_eq_none.mpr fun u hu hux => ?_, h.failed ▸ hunfailed⟩
      rcases h.added hid hinfo hcode hu with hold | ⟨-, hown⟩
      · exact State.transfer?_eq_none.mp hnone u hold hux
      · obtain ⟨j, hcall⟩ := hused part hpart
        obtain ⟨slot, hslotUsed, hslot, hrefund⟩ := hcall.slot hids hx
        subst hux
        rcases hown with hpostID | hfeeID
        · rw [hpostID] at hslot
          obtain rfl := slot_unique hfree hslotUsed (.post hids hcall.names) hslot
            (resolveIDs_ok hresolve).1
          simp at hrefund
        · obtain rfl := slot_unique hfree hslotUsed (.fee hids hcall.names) hslot
            (slotIs_of_slotID a hfeeID)
          simp at hrefund }

end

def funds (s : State ID) (account : ID) : Int :=
  (s.balances account).creditsPosted - (s.balances account).debitsPosted

variable [DecidableEq ι]

theorem rest_covers_fee {gross : Nat} (hfee : fee ≤ gross) (hn : n ≤ gross)
    (hdvd : gross ∣ fee * n) : fee + n ≤ gross + fee * n / gross := by
  rcases Nat.eq_zero_or_pos gross with rfl | hpos
  · omega
  · have hsplit : fee * gross / gross = fee * n / gross + fee * (gross - n) / gross := by
      rw [← Nat.add_div_of_dvd_right hdvd, ← Nat.mul_add, Nat.add_sub_cancel' hn]
    have hrest : fee * (gross - n) / gross ≤ gross - n := by
      refine Nat.div_le_of_le_mul ?_
      exact Nat.mul_le_mul_right _ hfee
    rw [Nat.mul_div_cancel _ hpos] at hsplit
    omega

omit [Zero ID] in
theorem Split.restored (h : Split s s₁ t platformID fee)
    (hparties : t.debit ≠ t.credit ∧ t.debit ≠ platformID ∧ t.credit ≠ platformID)
    (hreturned : Returned s₁ s' t platformID (t.amount - fee) fee) (x : ID) :
    funds s' x = funds s x := by
  obtain ⟨hagent, hagentPlatform, hownerPlatform⟩ := hparties
  have hfee := h.fee_le
  have hback := hreturned.balances x
  unfold funds
  rw [hback]
  by_cases hx : t.debit = x
  · subst hx
    simp only [h.agent, if_neg hagent.symm, if_neg hagentPlatform.symm, if_true]
    omega
  by_cases hx' : t.credit = x
  · subst hx'
    simp only [h.owner, if_neg hagent, if_neg hownerPlatform.symm, if_true]
    omega
  by_cases hx'' : platformID = x
  · subst hx''
    simp only [h.platform, if_neg hagentPlatform, if_neg hownerPlatform, if_true]
    omega
  · simp only [h.others x (Ne.symm hx) (Ne.symm hx') (Ne.symm hx''), if_neg hx, if_neg hx',
      if_neg hx'']
    omega

theorem AdapterRun.takenBack_settled (hids : a.ids.Lawful) (hfree : CollisionFree a calls)
    (hr : AdapterRun a calls tr c) (hmem : t ∈ c.shared.transfers)
    (hcode : t.code = TransferCode.settlement.number) (hposted : c.shared.posted t.id = false)
    (h : Settles a t postID c.shared s') : refunded s' t = 0 ∧ ∀ x, takenBack s' t x = 0 := by
  have hs := (AdapterRun.sound hids hfree hr).1
  have hstored := hs.wellFormed.transfer? hmem
  have hnone : ∀ u ∈ s'.transfers, ¬ IsRefund t.id u := by
    rintro u hu ⟨hrefund, hgroup⟩
    rcases h.added (hs.ne_zero hids hstored) hstored hcode hu with hold | ⟨hsettled, -⟩
    · have hp := AdapterRun.refund_posted hids hfree hr u hold hrefund
      rw [hgroup, hposted] at hp
      cases hp
    · rw [hsettled] at hrefund
      cases hrefund
  have hzero : ∀ cond : Transfer ID → Prop, ∀ [DecidablePred cond],
      s'.amounts (fun u => IsRefund t.id u ∧ cond u) = 0 := by
    intro cond _
    have hnil : s'.transfers.filter (fun u => decide (IsRefund t.id u ∧ cond u)) = [] := by
      refine List.filter_eq_nil_iff.mpr fun u hu hsel => ?_
      exact hnone u hu (of_decide_eq_true hsel).1
    rw [State.amounts, hnil]
    rfl
  exact ⟨hzero _, fun x => hzero _⟩

/-- A live hold is recorded and then refunded in parts, one after the other and under different
keys. The platform never gives back more than its fee. If the fee's share of every part is
whole, the owner gives back no more than it was paid, and once the whole amount is refunded
every account has what it had before the hold was recorded. -/
theorem refunds_restore (hids : a.ids.Lawful) (hfree : CollisionFree a calls)
    (hd : Derivable a calls) (hr : AdapterRun a calls tr c) (hmem : t ∈ c.shared.transfers)
    (hlive : c.shared.Live t.id)
    (hhold : t = { (a.pendingTransfer t.id p).transfer with timestamp := t.timestamp })
    (hbps : p.bps = bps) (hle : bps ≤ 10000) (quantity : Int) (key : String)
    (hkeys : (parts.map Part.key).Nodup)
    (hused : ∀ part ∈ parts, ∃ j, (calls j).RefundsUnder a t.id part.key) :
    ∃ platformID s₁ done s₂, a.platformFeeAccount = .ok platformID ∧
      alone (a.record (a.ids.encodeID t.id) quantity key) c.shared = some (.ok (), s₁) ∧
      refundAll a t.id parts s₁ = some (done, s₂) ∧ done.map Prod.fst = parts ∧
      takenBack s₂ t platformID ≤ t.amount * bps / 10000 ∧
      (WholeShares a t.amount (t.amount * bps / 10000) parts →
        takenBack s₂ t t.credit ≤ t.amount - t.amount * bps / 10000 ∧
        (paidBack a done = t.amount → ∀ x, funds s₂ x = funds c.shared x)) := by
  have hs := (AdapterRun.sound hids hfree hr).1
  have hkind : t.kind = .pending := by
    rw [hhold]
    rfl
  have hcode : t.code = TransferCode.settlement.number := by
    rw [hhold]
    rfl
  obtain ⟨j, hname⟩ := hs.named hmem hkind
  obtain ⟨postID, voidID, hresolve⟩ := hs.derived t hmem hkind
  obtain ⟨platformID, hplatform⟩ := hd.platformFeeAccount j
  have hres : c.shared.resolution t.id = none := by
    obtain ⟨-, -, -, -, hres⟩ := hlive
    exact hres
  have hposted := (State.resolution_eq_none.mp hres).1
  have hid := hs.ne_zero hids (hs.wellFormed.transfer? hmem)
  have hrate := rateBps_hold hids hhold hbps hle
  have hminor := feeMinor_nat t.amount bps
  have hfeeLe := fee_le_gross t.amount hle
  rw [← hrate] at hminor
  obtain ⟨s₁, hsettle, -, hsettles⟩ := hs.settleSplit_eval hids hfree hd hname hresolve hmem
    hkind hres (by omega) (by omega)
  have hsplit := hs.split_of_settles hids hfree j hmem hkind hres hplatform hrate hle hsettles
  have hrecord := hs.record_live_eval quantity key hids hfree hname hresolve hlive hsettle
  have hrefundable := hsettles.refundable hs hids hfree j hmem hkind hcode hplatform hresolve
    hminor hfeeLe hkeys hused fun part hpart x hx => by
      obtain ⟨j', hcall⟩ := hused part hpart
      exact AdapterRun.refundID_fresh hids hfree hr hcall hid hposted hx
  obtain ⟨hrefunded, htaken⟩ :=
    AdapterRun.takenBack_settled hids hfree hr hmem hcode hposted hsettles
  obtain ⟨done, s₂, feeRev, hall, hdone, hfeeRev, hreturned, hcap, hshare, hwhole⟩ :=
    hrefundable.refundAll_eval hids hfree (by omega)
  have hparties := hrefundable.parties
  generalize t.amount * bps / 10000 = fee at *
  have hpaid : paidBack a done ≤ t.amount := by
    have hsum := hreturned.refunded
    omega
  have hbound : fee * paidBack a done / t.amount ≤ fee := by
    refine Nat.div_le_of_le_mul ?_
    rw [Nat.mul_comm t.amount]
    exact Nat.mul_le_mul_left fee hpaid
  refine ⟨platformID, s₁, done, s₂, hplatform, hrecord, hall, hdone, ?_, fun hparts => ?_⟩
  · rw [hreturned.taken, htaken, if_neg hparties.2.2, if_pos rfl]
    omega
  · obtain ⟨hdvd, hfee⟩ := hwhole hparts
    have hcovers := rest_covers_fee hfeeLe hpaid hdvd
    constructor
    · rw [hreturned.taken, htaken, if_pos rfl, if_neg hparties.2.2.symm]
      omega
    · intro hgross
      refine hsplit.restored hparties ?_
      have hfeeRev' : feeRev = fee := by
        rw [hgross] at hcovers hfee hbound
        omega
      rw [hgross, hfeeRev'] at hreturned
      exact hreturned

def twoParts (first second : ℚ) : List Part :=
  [⟨⟨some first, "USD"⟩, "late", "first"⟩, ⟨⟨some second, "USD"⟩, "late", "second"⟩]

def recordAndRefund (parts : List Part) (s : State TextID) :
    Option (List (Part × Except TbError Unit) × State TextID) :=
  (alone (textAdapter.record (textIds.encodeID twoUnitsHold.id) 2 "record") s).bind fun x =>
    if x.1 = .ok () then refundAll textAdapter twoUnitsHold.id parts x.2 else none

theorem recordAndRefund_eq {s s₁ : State TextID}
    (h : alone (textAdapter.record (textIds.encodeID twoUnitsHold.id) 2 "record") s =
      some (.ok (), s₁)) :
    recordAndRefund parts s = refundAll textAdapter twoUnitsHold.id parts s₁ := by
  simp [recordAndRefund, h]

theorem twoParts_used (first second : ℚ) : ∀ part ∈ twoParts first second,
    ∃ j, (refundCalls 1 j).RefundsUnder textAdapter twoUnitsHold.id part.key := by
  have hdecode := textIds_lawful.decode_encode twoUnitsHold.id
  intro part hpart
  rcases List.mem_cons.mp hpart with rfl | hpart
  · exact ⟨3, _, _, _, rfl, hdecode⟩
  · obtain rfl := List.mem_singleton.mp hpart
    exact ⟨4, _, _, _, rfl, hdecode⟩

theorem refunds_restore_halves :
    ∃ tr c done s₂, AdapterRun textAdapter (refundCalls 1) tr c ∧ c.shared.Live twoUnitsHold.id ∧
      recordAndRefund (twoParts 1 1) c.shared = some (done, s₂) ∧
      paidBack textAdapter done = twoUnitsHold.amount ∧
      takenBack s₂ twoUnitsHold twoUnitsHold.credit ≤
        twoUnitsHold.amount - twoUnitsHold.amount * 1 / 10000 ∧
      ∀ x, funds s₂ x = funds c.shared x := by
  obtain ⟨tr, c, hr, hmem, hlive, hpaid⟩ : ∃ tr c, AdapterRun textAdapter (refundCalls 1) tr c ∧
      twoUnitsHold ∈ c.shared.transfers ∧ c.shared.Live twoUnitsHold.id ∧
      (recordAndRefund (twoParts 1 1) c.shared).map (fun y => paidBack textAdapter y.1) =
        some twoUnitsHold.amount :=
    Pool.exists_run (answered 4 0 ++ answered 5 1) (by decide +kernel)
  have hkeys : ((twoParts 1 1).map Part.key).Nodup := by decide
  have hparts : WholeShares textAdapter twoUnitsHold.amount (twoUnitsHold.amount * 1 / 10000)
      (twoParts 1 1) := by
    unfold WholeShares
    decide +kernel
  obtain ⟨platformID, s₁, done, s₂, -, hrecord, hall, -, -, hwhole⟩ :=
    refunds_restore textIds_lawful textAdapter_collisionFree textAdapter_derivable hr hmem hlive
      twoUnitsHold_holdOf.transfer rfl (by decide) 2 "record" hkeys (twoParts_used 1 1)
  obtain ⟨howner, hrestored⟩ := hwhole hparts
  have hdone := (recordAndRefund_eq hrecord).trans hall
  rw [hdone] at hpaid
  have hgross := Option.some.inj hpaid
  exact ⟨tr, c, done, s₂, hr, hlive, hdone, hgross, howner, hrestored hgross⟩

/-- The fee's share of a single minor unit is rounded away, and so is a part of the fee's share
of the rest: the owner gives back one minor unit more than it was paid. -/
theorem refunds_overdraw_owner :
    ∃ tr c done s₂, AdapterRun textAdapter (refundCalls 1) tr c ∧ c.shared.Live twoUnitsHold.id ∧
      recordAndRefund (twoParts (1 / 10 ^ 8) (2 - 1 / 10 ^ 8)) c.shared = some (done, s₂) ∧
      paidBack textAdapter done = twoUnitsHold.amount ∧
      takenBack s₂ twoUnitsHold twoUnitsHold.credit =
        twoUnitsHold.amount - twoUnitsHold.amount * 1 / 10000 + 1 ∧
      funds s₂ twoUnitsHold.credit = funds c.shared twoUnitsHold.credit - 1 := by
  obtain ⟨tr, c, hr, hlive, hpaid⟩ : ∃ tr c, AdapterRun textAdapter (refundCalls 1) tr c ∧
      c.shared.Live twoUnitsHold.id ∧
      (recordAndRefund (twoParts (1 / 10 ^ 8) (2 - 1 / 10 ^ 8)) c.shared).map (fun y =>
        (paidBack textAdapter y.1, takenBack y.2 twoUnitsHold twoUnitsHold.credit,
          funds y.2 twoUnitsHold.credit)) =
        some (twoUnitsHold.amount, twoUnitsHold.amount - twoUnitsHold.amount * 1 / 10000 + 1,
          funds c.shared twoUnitsHold.credit - 1) :=
    Pool.exists_run (answered 4 0 ++ answered 5 1) (by decide +kernel)
  obtain ⟨⟨done, s₂⟩, hdone, hvalues⟩ := Option.map_eq_some_iff.mp hpaid
  obtain ⟨hgross, hrest⟩ := Prod.mk.inj hvalues
  obtain ⟨htaken, hfunds⟩ := Prod.mk.inj hrest
  exact ⟨tr, c, done, s₂, hr, hlive, hdone, hgross, htaken, hfunds⟩

end Ramp.Billing.TigerBeetle
