import Ramp.Billing.Holds
import Ramp.Data.Table

/-! The in-memory adapter: prepaid balances, unit quotas, live reservations,
settled charges and their refunds. Every method runs under one mutex, so a call
is a function of the adapter's state. -/

namespace Ramp.Billing

inductive OpName
  | record
  | release
  | refund
  deriving DecidableEq

def OpName.text : OpName → String
  | .record => "record"
  | .release => "release"
  | .refund => "refund"

def maxRawKeyLen : Nat := 256

structure Reservation where
  billingRef : String
  estAmt : Amount
  estQty : Int
  authKey : String
  deriving DecidableEq

structure RecordedTx where
  billingRef : String
  amt : Amount

structure RefundEntry where
  amt : Amount
  reason : String
  key : String

structure InMemoryOptions where
  balances : Table String Amount := ∅
  quotas : Table String Int := ∅
  idPrefix : String := ""

structure InMemoryAdapter where
  balances : Table String Amount := ∅
  quotas : Table String Int := ∅
  reserved : Table String Reservation := ∅
  recorded : Table String RecordedTx := ∅
  refunded : Table String ℚ := ∅
  refundLog : Table String (List RefundEntry) := ∅
  authSeen : Table String String := ∅
  opSeen : List String := []
  creditSeen : List String := []
  nextIdx : UInt64 := 0
  idPrefix : String

/-- The `%06d` of the source: padded to six digits, and longer past them. -/
def sixDigits (n : Nat) : String :=
  String.ofList (List.replicate (6 - (Nat.toDigits 10 n).length) '0' ++ Nat.toDigits 10 n)

theorem ofDigitChars_zeros (k : Nat) (cs : List Char) :
    Nat.ofDigitChars 10 (List.replicate k '0' ++ cs) 0 = Nat.ofDigitChars 10 cs 0 := by
  induction k with
  | zero => rfl
  | succ k ih => simpa [List.replicate_succ, Nat.ofDigitChars] using ih

theorem sixDigits_injective : Function.Injective sixDigits := by
  intro m n h
  have hval := congrArg (fun s => Nat.ofDigitChars 10 s.toList 0) h
  simpa [sixDigits, ofDigitChars_zeros, Nat.ofDigitChars_toDigits] using hval

def seenKey (parts : List String) : String := String.intercalate "\x00" parts

namespace InMemoryAdapter

def new (opts : InMemoryOptions) : InMemoryAdapter where
  balances := opts.balances
  quotas := opts.quotas
  idPrefix := if opts.idPrefix = "" then "bill-" else opts.idPrefix

def billingID (a : InMemoryAdapter) (n : UInt64) : String := a.idPrefix ++ sixDigits n.toNat

/-- A long key is stored as its digest, so that a caller cannot fill the memory with one. -/
def boundKey (hash : String → String) (key : String) : String :=
  if key.utf8ByteSize ≤ maxRawKeyLen then key else "h:" ++ hash key

variable (hash : String → String) (a : InMemoryAdapter)

def authMapKey (billingRef rawKey : String) : String := seenKey [billingRef, boundKey hash rawKey]

def opKey (billingID : String) (op : OpName) (key : String) : String :=
  seenKey [billingID, op.text, boundKey hash key]

def opAlreadyDone (billingID : String) (op : OpName) (key : String) : Bool :=
  key ≠ "" ∧ opKey hash billingID op key ∈ a.opSeen

def markOpDone (billingID : String) (op : OpName) (key : String) : InMemoryAdapter :=
  if key = "" then a else { a with opSeen := a.opSeen.insert (opKey hash billingID op key) }

def ensureAgentAccount (billingRef : String) : Except BillingError Unit × InMemoryAdapter :=
  if billingRef = "" then (.error .emptyBillingRef, a)
  else match a.balances.get? billingRef with
    | some _ => (.ok (), a)
    | none => (.ok (), { a with balances := a.balances.insert billingRef ⟨0, demoCurrency⟩ })

def currencyConflict (balance credit : String) : BillingError :=
  .other ("billing: account currency \"" ++ balance ++ "\" does not match credit currency \"" ++
    credit ++ "\"")

def credit (billingRef : String) (amount : RawAmount) (idempotencyKey : String) :
    Except BillingError Unit × InMemoryAdapter :=
  match validateCreditArgs billingRef amount idempotencyKey demoCurrency with
  | .error e => (.error e, a)
  | .ok value =>
    if boundKey hash idempotencyKey ∈ a.creditSeen then (.ok (), a)
    else
      let bal := (a.balances.get? billingRef).getD ⟨0, amount.currency⟩
      if bal.currency ≠ amount.currency then
        (.error (currencyConflict bal.currency amount.currency), a)
      else
        (.ok (), { a with
          balances := a.balances.insert billingRef ⟨bal.value + value, bal.currency⟩
          creditSeen := a.creditSeen.insert (boundKey hash idempotencyKey) })

def denied (reason : String) : AuthorizeResult := { reason }

/-- The balance must also cover what is already reserved, which is only charged when recorded. -/
def checkCurrencyAndBalance (req : AuthorizeRequest) (bal : Amount) (charge : ℚ) :
    Option AuthorizeResult :=
  if bal.currency ≠ req.unitCost.currency then some (denied "currency mismatch")
  else
    let totalReserved := a.reserved.sum fun _ r =>
      if r.billingRef = req.billingRef ∧ r.estAmt.currency = bal.currency then r.estAmt.value else 0
    if bal.value - totalReserved < charge then some (denied "insufficient balance") else none

def consumeQuota (req : AuthorizeRequest) : Except AuthorizeResult InMemoryAdapter :=
  match a.quotas.get? req.billingRef with
  | none => .ok a
  | some q =>
    if q < req.quantity then .error (denied "quota exhausted")
    else .ok { a with quotas := a.quotas.insert req.billingRef (q - req.quantity) }

def reserve (req : AuthorizeRequest) (charge : ℚ) : AuthorizeResult × InMemoryAdapter :=
  let nextIdx := a.nextIdx + 1
  let id := a.billingID nextIdx
  ({ billingID := id, approved := true },
    { a with
      nextIdx
      reserved := a.reserved.insert id
        ⟨req.billingRef, ⟨charge, req.unitCost.currency⟩, req.quantity, req.idempotencyKey⟩
      authSeen := if req.idempotencyKey = "" then a.authSeen
        else a.authSeen.insert (authMapKey hash req.billingRef req.idempotencyKey) id })

def liveAuth (req : AuthorizeRequest) : Option String :=
  if req.idempotencyKey = "" then none
  else a.authSeen.get? (authMapKey hash req.billingRef req.idempotencyKey)

def authorize (req : AuthorizeRequest) : AuthorizeResult × InMemoryAdapter :=
  match a.liveAuth hash req with
  | some id => ({ billingID := id, approved := true }, a)
  | none =>
    match a.balances.get? req.billingRef with
    | none => (denied "unknown account", a)
    | some bal =>
      if req.quantity ≤ 0 then (denied "non-positive quantity", a)
      else
        let charge := (totalCharge req.unitCost req.quantity).value
        match if charge = 0 then none else a.checkCurrencyAndBalance req bal charge with
        | some denial => (denial, a)
        | none =>
          match a.consumeQuota req with
          | .error denial => (denial, a)
          | .ok a' => a'.reserve hash req charge

/-- A settled reservation gives its key back, so that the next authorize under it reserves anew. -/
def freeAuth (res : Reservation) : InMemoryAdapter :=
  if res.authKey = "" then a
  else { a with authSeen := a.authSeen.erase (authMapKey hash res.billingRef res.authKey) }

/-- The balance that settling the reservation leaves. Its account exists; without
one the source would dereference a nil amount. -/
def charged (res : Reservation) : Amount :=
  let bal := (a.balances.get? res.billingRef).getD ⟨0, ""⟩
  ⟨bal.value - res.estAmt.value, bal.currency⟩

def record (billingID : String) (_quantity : Int) (idempotencyKey : String) :
    Except BillingError Unit × InMemoryAdapter :=
  if a.opAlreadyDone hash billingID .record idempotencyKey then (.ok (), a)
  else match a.reserved.get? billingID with
    | none => (.error .unknownBillingID, a)
    | some res =>
      let settled := { a with
        balances := a.balances.insert res.billingRef (a.charged res)
        recorded := a.recorded.insert billingID ⟨res.billingRef, res.estAmt⟩
        reserved := a.reserved.erase billingID }
      (.ok (), (settled.freeAuth hash res).markOpDone hash billingID .record idempotencyKey)

/-- Quota is consumed on authorize and restored on release only. -/
def restoredQuotas (res : Reservation) : Table String Int :=
  match a.quotas.get? res.billingRef with
  | none => a.quotas
  | some q => a.quotas.insert res.billingRef (q + res.estQty)

def release (billingID idempotencyKey : String) : Except BillingError Unit × InMemoryAdapter :=
  if a.opAlreadyDone hash billingID .release idempotencyKey then (.ok (), a)
  else match a.reserved.get? billingID with
    | none => (.error .unknownBillingID, a)
    | some res =>
      let freed := { a with
        quotas := a.restoredQuotas res
        reserved := a.reserved.erase billingID }
      (.ok (), (freed.freeAuth hash res).markOpDone hash billingID .release idempotencyKey)

/-- The settled charge a refund of `amount` is paid from, and its value. -/
def validateRefund (billingID : String) (amount : RawAmount) :
    Except BillingError (RecordedTx × ℚ) :=
  match a.recorded.get? billingID with
  | none =>
    match a.reserved.get? billingID with
    | some _ => .error .refundBeforeRecord
    | none => .error .unknownBillingID
  | some rec =>
    match amount.value with
    | none => .error .invalidAmount
    | some value =>
      if value ≤ 0 ∨ amount.currency ≠ rec.amt.currency then .error .invalidAmount
      else if (a.refunded.get? billingID).getD 0 + value > rec.amt.value then
        .error .refundExceedsRecord
      else .ok (rec, value)

def refund (billingID : String) (amount : RawAmount) (reason idempotencyKey : String) :
    Except BillingError Unit × InMemoryAdapter :=
  if a.opAlreadyDone hash billingID .refund idempotencyKey then (.ok (), a)
  else match a.validateRefund billingID amount with
    | .error e => (.error e, a)
    | .ok (rec, value) =>
      let bal := (a.balances.get? rec.billingRef).getD ⟨0, ""⟩
      let paid := { a with
        balances := a.balances.insert rec.billingRef ⟨bal.value + value, bal.currency⟩
        refunded := a.refunded.insert billingID ((a.refunded.get? billingID).getD 0 + value)
        refundLog := a.refundLog.insert billingID ((a.refundLog.get? billingID).getD [] ++
          [RefundEntry.mk ⟨value, amount.currency⟩ reason idempotencyKey]) }
      (.ok (), paid.markOpDone hash billingID .refund idempotencyKey)

end InMemoryAdapter

end Ramp.Billing
