import Ramp.Billing.TigerBeetle.Settling

/-! The operations of the adapter that name a transfer. Their ids share one space, so an
operation that finds its id taken is answered as a replay of the one that took it. -/

namespace Ramp.Billing.TigerBeetle

open Ramp.Ledger

/-- The logical operations that an id is derived for. -/
inductive Operation (ID : Type)
  | hold (billingRef authKey : String) (gen : Nat)
  | post (pendingID : ID)
  | void (pendingID : ID)
  | feeLeg (pendingID : ID)
  | refundNet (pendingID : ID) (key : String)
  | refundFee (pendingID : ID) (key : String)
  | credit (billingRef : String) (amount : RawAmount) (key : String)
  deriving DecidableEq

namespace Operation

variable {ID : Type} (a : TigerBeetleAdapter ID)

def transferID : Operation ID → Except TbError ID
  | hold billingRef authKey gen => a.pendingID billingRef authKey gen
  | post pendingID => do
    let ids ← a.resolveIDs pendingID
    pure ids.1
  | void pendingID => do
    let ids ← a.resolveIDs pendingID
    pure ids.2
  | feeLeg pendingID => a.feeLegID pendingID
  | refundNet pendingID key => do
    let ids ← a.refundLegIDs pendingID key
    pure ids.1
  | refundFee pendingID key => do
    let ids ← a.refundLegIDs pendingID key
    pure ids.2
  | credit billingRef amount key => do
    let _ ← (validateCreditArgs billingRef amount key a.currency).mapError TbError.billing
    a.slotID "billing: derive credit id" (.credit key)

def slot : Operation ID → Slot
  | hold billingRef authKey gen => .hold billingRef authKey gen
  | post pendingID => .post (a.ids.encodeID pendingID)
  | void pendingID => .void (a.ids.encodeID pendingID)
  | feeLeg pendingID => .fee (a.ids.encodeID pendingID)
  | refundNet pendingID key => .refundNet (a.ids.encodeID pendingID) key
  | refundFee pendingID key => .refundFee (a.ids.encodeID pendingID) key
  | credit _ _ key => .credit key

/-- The operations stand for the same transfer: they agree in kind and in all they are told,
or are credits under one key, which alone names a credit. -/
def Same : Operation ID → Operation ID → Prop
  | credit _ _ key, credit _ _ key' => key = key'
  | o, o' => o = o'

variable {a} {o o' : Operation ID} {id : ID}

theorem slotIs_of_transferID (h : o.transferID a = .ok id) : SlotIs a (o.slot a) id := by
  cases o with
  | hold billingRef authKey gen => exact (pendingID_ok h).2
  | post pendingID =>
    obtain ⟨ids, hids, hid⟩ := Except.bind_eq_ok.mp h
    cases hid
    exact (resolveIDs_ok hids).1
  | void pendingID =>
    obtain ⟨ids, hids, hid⟩ := Except.bind_eq_ok.mp h
    cases hid
    exact (resolveIDs_ok hids).2
  | feeLeg pendingID => exact slotIs_of_slotID a h
  | refundNet pendingID key =>
    obtain ⟨ids, hids, hid⟩ := Except.bind_eq_ok.mp h
    cases hid
    exact (refundLegIDs_ok hids).1
  | refundFee pendingID key =>
    obtain ⟨ids, hids, hid⟩ := Except.bind_eq_ok.mp h
    cases hid
    exact (refundLegIDs_ok hids).2
  | credit billingRef amount key =>
    obtain ⟨value, -, hid⟩ := Except.bind_eq_ok.mp h
    exact slotIs_of_slotID a hid

theorem valid_of_transferID [Zero ID] (hids : a.ids.Lawful) (h : o.transferID a = .ok id) :
    (o.slot a).Valid := by
  cases o with
  | hold billingRef authKey gen => exact (pendingID_ok h).1
  | post pendingID | void pendingID | feeLeg pendingID | refundNet pendingID key
  | refundFee pendingID key => exact hids.encode_no_colon pendingID
  | credit billingRef amount key =>
    obtain ⟨value, hargs, -⟩ := Except.bind_eq_ok.mp h
    exact (validateCreditArgs_ok (Except.mapError_eq_ok.mp hargs)).2.2

theorem same_of_slot [Zero ID] (hids : a.ids.Lawful) (h : o.slot a = o'.slot a) : o.Same o' := by
  have hinj := encodeID_injective hids
  cases o <;> cases o' <;> simp_all [slot, Same, hinj.eq_iff]

/-- Operations whose transfers have one id stand for the same transfer. -/
theorem same_of_transferID [Zero ID] (hids : a.ids.Lawful) (hhash : Function.Injective a.ids.sha256)
    (h : o.transferID a = .ok id) (h' : o'.transferID a = .ok id) : o.Same o' := by
  have hslot := (slotIs_of_transferID h).eq.1
  have hslot' := (slotIs_of_transferID h').eq.1
  have htext := hhash (hslot.trans hslot'.symm)
  have hlist := congrArg String.toList htext
  rw [String.toList_append, String.toList_append] at hlist
  have hsame : (o.slot a).text = (o'.slot a).text :=
    String.toList_inj.mp (List.append_cancel_left hlist)
  exact same_of_slot hids (Slot.text_injective (valid_of_transferID hids h)
    (valid_of_transferID hids h') hsame)

def oneUnit : RawAmount := ⟨some 1, "USD"⟩

/-- A credit is known by its key alone, and a key may hold colons. -/
theorem same_of_transferID_colons :
    (credit "agent" oneUnit "key:0" : Operation TextID).Same (credit "other" oneUnit "key:0") := by
  have hid : (credit "agent" oneUnit "key:0").transferID textAdapter = .ok "ns:key:0".toList := by
    decide +kernel
  have hid' : (credit "other" oneUnit "key:0").transferID textAdapter = .ok "ns:key:0".toList := by
    decide +kernel
  exact same_of_transferID textIds_lawful (fun _ _ h => String.toList_inj.mp h) hid hid'

def creditedOnce : State TextID :=
  ((alone (textAdapter.credit "agent" oneUnit "key") {}).map Prod.snd).getD {}

def creditedTwice : State TextID :=
  ((alone (textAdapter.credit "other" oneUnit "key") creditedOnce).map Prod.snd).getD {}

/-- A credit under a key that another account was credited under is answered as its replay: it
succeeds and moves nothing. -/
theorem credit_of_other_account_swallowed :
    (credit "agent" oneUnit "key" : Operation TextID) ≠ credit "other" oneUnit "key" ∧
      (credit "agent" oneUnit "key").transferID textAdapter =
        (credit "other" oneUnit "key").transferID textAdapter ∧
      alone (textAdapter.credit "agent" oneUnit "key") {} = some (.ok (), creditedOnce) ∧
      alone (textAdapter.credit "other" oneUnit "key") creditedOnce = some (.ok (), creditedTwice) ∧
      creditedTwice.transfers = creditedOnce.transfers ∧
      (creditedTwice.balances "agent:ns:other".toList).creditsPosted = 0 := by
  decide +kernel

end Operation

end Ramp.Billing.TigerBeetle
