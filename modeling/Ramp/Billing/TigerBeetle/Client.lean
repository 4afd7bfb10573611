import Mathlib.Data.BitVec
import Mathlib.Tactic.Ring
import Ramp.Billing.Holds
import Ramp.Data.Digits
import Ramp.Data.Text
import Ramp.Ledger.Basic

/-! The 128-bit ids of the ledger, derived by a hash from the texts of a transaction's life, with
their hex form, which is the billing id callers hold; and the client of the ledger: the calls the
adapter is written in, and how it reads their results. -/

namespace Ramp.Billing.TigerBeetle

inductive IDError
  | emptyID
  | reservedID
  | badID (text : String)
  deriving DecidableEq

/-- The ids of a ledger. `sha256` is the low half of the text's digest, `reserved`
holds of zero and of all ones. -/
structure Ids (ID : Type) where
  sha256 : String → ID
  reserved : ID → Bool
  encodeID : ID → String
  decodeID : String → Except IDError ID
  ofUint64 : Nat → ID
  int64 : ID → Int
  reasonToken : String → Nat

/-- What the adapter relies on about ids. Nothing is assumed of the digest here. -/
structure Ids.Lawful {ID : Type} [Zero ID] (ids : Ids ID) : Prop where
  reserved_zero : ids.reserved 0 = true
  decode_encode : ∀ id, ids.decodeID (ids.encodeID id) = .ok id
  encode_no_colon : ∀ id, ':' ∉ (ids.encodeID id).toList
  int64_ofUint64 : ∀ n < 2 ^ 63, ids.int64 (ids.ofUint64 n) = n

namespace Ids

variable {ID : Type} (ids : Ids ID)

def reduce (text : String) : Except IDError ID :=
  if ids.reserved (ids.sha256 text) then .error .reservedID else .ok (ids.sha256 text)

inductive Prefix
  | agent
  | owner
  | platform
  deriving DecidableEq

def Prefix.text : Prefix → String
  | .agent => "agent:"
  | .owner => "owner:"
  | .platform => "platform:"

def accountID (p : Prefix) (businessID : String) : Except IDError ID :=
  if businessID = "" then .error .emptyID else ids.reduce (p.text ++ businessID)

def transferID (idempotencyKey : String) : Except IDError ID :=
  if idempotencyKey = "" then .error .emptyID else ids.reduce idempotencyKey

end Ids

def littleEndian (n : Nat) : Nat → List UInt8
  | 0 => []
  | k + 1 => UInt8.ofNat n :: littleEndian (n / 256) k

def ofLittleEndian : List UInt8 → Nat
  | [] => 0
  | b :: bs => b.toNat + 256 * ofLittleEndian bs

theorem ofLittleEndian_littleEndian (n k : Nat) :
    ofLittleEndian (littleEndian n k) = n % 256 ^ k := by
  induction k generalizing n with
  | zero => simp [littleEndian, ofLittleEndian, Nat.mod_one]
  | succ k ih =>
    simp only [littleEndian, ofLittleEndian, ih, UInt8.toNat_ofNat']
    change n % 256 + 256 * (n / 256 % 256 ^ k) = n % 256 ^ (k + 1)
    rw [pow_succ', Nat.mod_mul]

theorem littleEndian_length (n k : Nat) : (littleEndian n k).length = k := by
  induction k generalizing n with
  | zero => rfl
  | succ k ih => simp [littleEndian, ih]

def encodeUint128 (id : BitVec 128) : String := String.ofList (encodeHex (littleEndian id.toNat 16))

def decodeUint128 (text : String) : Except IDError (BitVec 128) :=
  match decodeHex text.toList with
  | some bs => if bs.length = 16 then .ok (BitVec.ofNat 128 (ofLittleEndian bs))
    else .error (.badID text)
  | none => .error (.badID text)

def uint128 (sha256 : String → List UInt8) : Ids (BitVec 128) where
  sha256 text := BitVec.ofNat 128 (ofLittleEndian ((sha256 text).take 16))
  reserved id := id = 0 ∨ id = BitVec.allOnes 128
  encodeID := encodeUint128
  decodeID := decodeUint128
  ofUint64 n := BitVec.ofNat 128 n
  int64 id := (id.setWidth 64).toInt
  reasonToken reason := if reason = "" then 0
    else ofLittleEndian ((sha256 reason).take 8).reverse

theorem uint128_lawful (sha256 : String → List UInt8) : (uint128 sha256).Lawful where
  reserved_zero := by simp [uint128]
  decode_encode id := by
    simp only [uint128, decodeUint128, encodeUint128, String.toList_ofList, decodeHex_encodeHex,
      littleEndian_length, if_true, ofLittleEndian_littleEndian]
    congr 1
    refine BitVec.eq_of_toNat_eq ?_
    rw [BitVec.toNat_ofNat]
    omega
  encode_no_colon id := by
    simp only [uint128, encodeUint128, String.toList_ofList]
    exact encodeHex_no_colon _
  int64_ofUint64 n hn := by
    have hval : ((BitVec.ofNat 128 n).setWidth 64).toNat = n := by
      rw [BitVec.toNat_setWidth, BitVec.toNat_ofNat]
      omega
    simp only [uint128]
    rw [BitVec.toInt_eq_toNat_of_lt (by omega), hval]

def TextID := List Char
  deriving DecidableEq

instance : Zero TextID := ⟨([] : List Char)⟩

/-- Keeps colons out of an encoded id. -/
def escape : List Char → List Char
  | [] => []
  | c :: cs =>
    if c = ':' then '%' :: 'c' :: escape cs
    else if c = '%' then '%' :: '%' :: escape cs
    else c :: escape cs

def unescape : List Char → List Char
  | [] => []
  | [c] => [c]
  | c :: d :: cs => if c = '%' then (if d = 'c' then ':' else d) :: unescape cs
    else c :: unescape (d :: cs)

theorem unescape_cons {c : Char} (hc : c ≠ '%') (cs : List Char) :
    unescape (c :: cs) = c :: unescape cs := by
  cases cs with
  | nil => rfl
  | cons d ds => simp [unescape, hc]

theorem unescape_escape (cs : List Char) : unescape (escape cs) = cs := by
  induction cs with
  | nil => rfl
  | cons c cs ih =>
    simp only [escape]
    split_ifs with hcolon hpercent
    · simp [unescape, ih, hcolon]
    · simp [unescape, ih, hpercent]
    · rw [unescape_cons hpercent, ih]

theorem escape_no_colon (cs : List Char) : ':' ∉ escape cs := by
  induction cs with
  | nil => simp [escape]
  | cons c cs ih =>
    simp only [escape]
    split_ifs with hcolon hpercent
    · simp [ih]
    · simp [ih]
    · simp [ih, Ne.symm hcolon]

/-- Ids that keep the whole text, so that no two texts collide. -/
def textIds : Ids TextID where
  sha256 text := text.toList
  reserved id := id = (0 : TextID)
  encodeID id := String.ofList (escape id)
  decodeID text := .ok (unescape text.toList)
  ofUint64 n := List.replicate n 'u'
  int64 id := List.length (α := Char) id
  reasonToken := String.length

theorem textIds_lawful : textIds.Lawful where
  reserved_zero := by simp [textIds]
  decode_encode id := by
    simp only [textIds, String.toList_ofList]
    exact congrArg Except.ok (unescape_escape id)
  encode_no_colon id := by simpa [textIds] using escape_no_colon id
  int64_ofUint64 n _ := by simp [textIds]

/-- A transfer of the adapter by its role. `hex` is the encoded id of the hold. -/
inductive Slot
  | hold (billingRef authKey : String) (gen : Nat)
  | post (hex : String)
  | void (hex : String)
  | fee (hex : String)
  | refundNet (hex key : String)
  | refundFee (hex key : String)
  | credit (key : String)

namespace Slot

def text : Slot → String
  | hold billingRef authKey gen => "pending:" ++ billingRef ++ ":" ++ authKey ++ ":" ++ toString gen
  | post hex => "post:" ++ hex
  | void hex => "void:" ++ hex
  | fee hex => "fee:" ++ hex
  | refundNet hex key => "refund:" ++ hex ++ ":" ++ key ++ ":net"
  | refundFee hex key => "refund:" ++ hex ++ ":" ++ key ++ ":fee"
  | credit key => key

def Valid : Slot → Prop
  | hold billingRef _ _ => ':' ∉ billingRef.toList
  | post hex | void hex | fee hex | refundNet hex _ | refundFee hex _ => ':' ∉ hex.toList
  | credit key => hasReservedPrefix key = false

end Slot

theorem hasReservedPrefix_of_prefix {p key : String} (hp : p ∈ reservedCreditKeyPrefixes)
    (h : p.toList <+: key.toList) : hasReservedPrefix key = true := by
  rw [hasReservedPrefix, List.any_eq_true]
  exact ⟨p, hp, by simpa [List.isPrefixOf_iff_prefix] using h⟩

namespace Slot

theorem reserved_text {s : Slot} (h : ∀ key, s ≠ credit key) : hasReservedPrefix s.text = true := by
  cases s with
  | hold ref key gen =>
    refine hasReservedPrefix_of_prefix (p := "pending:") (by decide) ?_
    simp [text]
  | post hex =>
    refine hasReservedPrefix_of_prefix (p := "post:") (by decide) ?_
    simp [text]
  | void hex =>
    refine hasReservedPrefix_of_prefix (p := "void:") (by decide) ?_
    simp [text]
  | fee hex =>
    refine hasReservedPrefix_of_prefix (p := "fee:") (by decide) ?_
    simp [text]
  | refundNet hex key | refundFee hex key =>
    refine hasReservedPrefix_of_prefix (p := "refund:") (by decide) ?_
    simp [text]
  | credit key => exact absurd rfl (h key)

theorem hold_text_injective {ref ref' key key' : String} {gen gen' : Nat} (href : ':' ∉ ref.toList)
    (href' : ':' ∉ ref'.toList) (h : (hold ref key gen).text = (hold ref' key' gen').text) :
    hold ref key gen = hold ref' key' gen' := by
  simp only [text, ← String.toList_inj, String.toList_append, List.append_assoc] at h
  obtain ⟨hr, hrest⟩ := split_first href href' (List.append_cancel_left h)
  obtain ⟨hk, hg⟩ := split_last (colon_not_mem_toString gen) (colon_not_mem_toString gen')
    hrest
  rw [String.toList_inj] at hr hk hg
  rw [hr, hk, toString_nat_injective hg]

theorem refund_text_injective {hex hex' key key' tail tail' : String} (hhex : ':' ∉ hex.toList)
    (hhex' : ':' ∉ hex'.toList)
    (h : "refund:" ++ hex ++ ":" ++ key ++ tail = "refund:" ++ hex' ++ ":" ++ key' ++ tail')
    (hlen : tail.toList.length = tail'.toList.length) : hex = hex' ∧ key = key' ∧ tail = tail' := by
  simp only [← String.toList_inj, String.toList_append, List.append_assoc] at h
  obtain ⟨hx, hrest⟩ := split_first hhex hhex' (List.append_cancel_left h)
  change key.toList ++ tail.toList = key'.toList ++ tail'.toList at hrest
  obtain ⟨hk, ht⟩ := List.append_inj' hrest hlen
  rw [String.toList_inj] at hx hk ht
  exact ⟨hx, hk, ht⟩

theorem text_ne_credit {s : Slot} {key : String} (h : ∀ key, s ≠ credit key)
    (hkey : (credit key).Valid) : s.text ≠ key := by
  rintro rfl
  rw [Valid, reserved_text h] at hkey
  exact absurd hkey (by simp)

theorem text_injective {s s' : Slot} (hs : s.Valid) (hs' : s'.Valid) (h : s.text = s'.text) :
    s = s' := by
  cases s
  case credit key =>
    cases s'
    case credit => exact congrArg credit h
    all_goals exact absurd h.symm (text_ne_credit (by simp) hs)
  all_goals cases s'
  case hold.hold => exact hold_text_injective hs hs' h
  case post.post | void.void | fee.fee => simpa [text] using h
  case refundNet.refundNet | refundFee.refundFee =>
    obtain ⟨rfl, rfl, -⟩ := refund_text_injective hs hs' h rfl
    rfl
  case refundNet.refundFee | refundFee.refundNet =>
    obtain ⟨-, -, htail⟩ := refund_text_injective hs hs' h rfl
    exact absurd htail (by decide)
  case hold.credit | post.credit | void.credit | fee.credit | refundNet.credit | refundFee.credit =>
    exact absurd h (text_ne_credit (by simp) hs')
  all_goals simp [text, ← String.toList_inj] at h

end Slot

open Ramp.Ledger

/-- The errors of the client and of the adapter above it. `wrapped` puts a context
in front of an error, `because` a sentinel of the billing contract. -/
inductive TbError
  | unavailable (text : String)
  | client (text : String)
  | accountConflict
  | createTransfer (text : String)
  | transferStatus (status : Status)
  | id (e : IDError)
  | billing (e : BillingError)
  | wrapped (context : String) (e : TbError)
  | because (e : BillingError) (cause : TbError)
  deriving DecidableEq

def TbError.isUnavailable : TbError → Bool
  | .unavailable _ => true
  | .wrapped _ e | .because _ e => e.isUnavailable
  | _ => false

abbrev Tb (ID : Type) (α : Type) := ExceptT TbError (Prog (Op ID) Res) α

inductive AccountCode
  | agent
  | owner
  | platform
  deriving DecidableEq

def AccountCode.number : AccountCode → Nat
  | .agent => 1
  | .owner => 2
  | .platform => 3

inductive TransferCode
  | settlement
  | refund
  deriving DecidableEq

def TransferCode.number : TransferCode → Nat
  | .settlement => 1
  | .refund => 2

inductive PendingOutcome
  | created
  | exists
  | insufficientFunds
  deriving DecidableEq

inductive ResolveOutcome
  | applied
  | exists
  | notFound
  | alreadyResolved
  deriving DecidableEq

inductive HoldState
  | free
  | live
  | resolved
  deriving DecidableEq

/-- The answer to a linked chain is that of its first member that failed by itself. -/
inductive LinkedOutcome
  | applied
  | exceedsCredits
  | pendingResolved
  | existsMismatch
  deriving DecidableEq

def refundPageLimit : Nat := 254

structure PendingTransfer (ID : Type) where
  id : ID
  debit : ID
  credit : ID
  amount : Int
  ledger : Nat
  timeout : Nat
  userData128 : ID

structure Leg (ID : Type) where
  id : ID
  pendingID : ID
  debit : ID
  credit : ID
  amount : Int
  ledger : Nat
  code : Nat
  userData128 : ID
  userData64 : Nat

def pendingOutcome : Status → Except TbError PendingOutcome
  | .created => .ok .created
  | .exists => .ok .exists
  | .exceedsCredits => .ok .insufficientFunds
  | status => .error (.transferStatus status)

def resolveOutcome : Status → Except TbError ResolveOutcome
  | .created => .ok .applied
  | .exists => .ok .exists
  | .pendingTransferNotFound => .ok .notFound
  | .pendingTransferAlreadyPosted | .pendingTransferAlreadyVoided | .pendingTransferExpired =>
    .ok .alreadyResolved
  | status => .error (.transferStatus status)

/-- The first status that is neither a success nor the mark of a chain that failed
elsewhere decides; `i` is the position of the head. -/
def linkedOutcomeFrom (i : Nat) : List Status → Except TbError LinkedOutcome
  | [] => .ok .applied
  | status :: rest =>
    match status with
    | .created | .exists | .linkedEventFailed => linkedOutcomeFrom (i + 1) rest
    | .exceedsCredits | .exceedsDebits => .ok .exceedsCredits
    | .pendingTransferAlreadyPosted | .pendingTransferAlreadyVoided | .pendingTransferExpired =>
      .ok .pendingResolved
    | .existsWithDifferent => .ok .existsMismatch
    | _ => .error (.wrapped s!"tigerbeetle: create linked: leg {i}" (.transferStatus status))

def linkedOutcome (results : List Status) : Except TbError LinkedOutcome :=
  linkedOutcomeFrom 0 results

/-- The conversion of the client, which keeps the low 128 bits. -/
def toUint128 (amount : Int) : Nat := amount.toNat % 2 ^ 128

variable {ID : Type}

def call (context : String) (op : Op ID) : Tb ID (Value op) := do
  match ← ask op with
  | .ok v => pure v
  | .err text unavailable _ =>
    throw (.wrapped context (if unavailable then .unavailable text else .client text))

variable [DecidableEq ID] [Zero ID]

def ensureAccount (a : Account ID) : Tb ID Unit := do
  match ← call "tigerbeetle: create account" (.createAccount a) with
  | .created | .exists => pure ()
  | .existsWithDifferent => throw .accountConflict

def lookupAccount (id : ID) : Tb ID (Option Balances) :=
  call "tigerbeetle: lookup account" (.lookupAccount id)

def PendingTransfer.transfer (p : PendingTransfer ID) : Transfer ID where
  id := p.id
  kind := .pending
  debit := p.debit
  credit := p.credit
  amount := toUint128 p.amount
  pendingID := 0
  userData128 := p.userData128
  userData64 := 0
  timeout := p.timeout
  ledger := p.ledger
  code := TransferCode.settlement.number
  linked := false
  timestamp := 0

def createPending (p : PendingTransfer ID) : Tb ID PendingOutcome :=
  if p.amount < 0 then throw (.wrapped "tigerbeetle: create pending" (.createTransfer "bad amount"))
  else do
    match ← call "tigerbeetle: create pending" (.createTransfers [p.transfer]) with
    | [] => pure .created
    | status :: _ => orThrow (pendingOutcome status) fun e => e

/-- A transfer that resolves `pendingID`, everything else inherited. -/
def resolvingTransfer (kind : Kind) (amount : Nat) (id pendingID : ID) : Transfer ID where
  id
  kind
  debit := 0
  credit := 0
  amount
  pendingID
  userData128 := 0
  userData64 := 0
  timeout := 0
  ledger := 0
  code := 0
  linked := false
  timestamp := 0

def resolve (t : Transfer ID) : Tb ID ResolveOutcome := do
  match ← call "tigerbeetle: resolve pending" (.createTransfers [t]) with
  | [] => pure .applied
  | status :: _ => orThrow (resolveOutcome status) fun e => e

def postPending (id pendingID : ID) : Tb ID ResolveOutcome :=
  resolve (resolvingTransfer .post amountMax id pendingID)

def voidPending (id pendingID : ID) : Tb ID ResolveOutcome :=
  resolve (resolvingTransfer .void 0 id pendingID)

def lookupTransferSet (ids : Ids ID) (wanted : List ID) : Tb ID (List String) := do
  let transfers ← call "tigerbeetle: lookup transfers" (.lookupTransfers wanted)
  pure (transfers.map fun t => ids.encodeID t.id)

def classifyHold (ids : Ids ID) (pendingID postID voidID : ID) : Tb ID HoldState := do
  let found ← lookupTransferSet ids [pendingID, postID, voidID]
  if ids.encodeID pendingID ∉ found then pure .free
  else if ids.encodeID postID ∉ found ∧ ids.encodeID voidID ∉ found then pure .live
  else pure .resolved

def lookupTransfer (id : ID) : Tb ID (Option (Transfer ID)) := do
  let transfers ← call "tigerbeetle: lookup transfer" (.lookupTransfers [id])
  pure transfers.head?

def Leg.transfer (leg : Leg ID) (linked : Bool) : Transfer ID :=
  if leg.pendingID ≠ 0 then
    { resolvingTransfer .post (toUint128 leg.amount) leg.id leg.pendingID with
      userData128 := leg.userData128
      userData64 := leg.userData64
      linked }
  else
    { id := leg.id, kind := .plain, debit := leg.debit, credit := leg.credit,
      amount := toUint128 leg.amount, pendingID := 0, userData128 := leg.userData128,
      userData64 := leg.userData64, timeout := 0, ledger := leg.ledger, code := leg.code,
      linked, timestamp := 0 }

/-- The transfer of the leg at position `i`; every leg but the last is linked. -/
def buildLeg (last : Nat) (leg : Leg ID) (i : Nat) : Except TbError (Transfer ID) :=
  if leg.amount < 0 then
    .error (.wrapped "tigerbeetle: create linked" (.createTransfer s!"leg {i} amount"))
  else .ok (leg.transfer (i < last))

def buildLinkedBatch (legs : List (Leg ID)) : Except TbError (List (Transfer ID)) :=
  if legs.isEmpty then
    .error (.wrapped "tigerbeetle: create linked" (.createTransfer "empty batch"))
  else legs.zipIdx.mapM fun leg => buildLeg (legs.length - 1) leg.1 leg.2

def createLinked (legs : List (Leg ID)) : Tb ID LinkedOutcome := do
  let batch ← orThrow (buildLinkedBatch legs) fun e => e
  let results ← call "tigerbeetle: create linked" (.createTransfers batch)
  orThrow (linkedOutcome results) fun e => e

/-- Adds up the pages of the refunds until one is not full. `pages` bounds the
number of pages, which the source leaves open. -/
def sumRefundPages (account group : ID) (code : Nat) : Nat → Nat → Nat → Tb ID Nat
  | 0, _, _ => throw (.client "tigerbeetle: sum refunds: out of pages")
  | pages + 1, timestampMin, sum => do
    let transfers ← call "tigerbeetle: sum refunds" (.creditTransfers
      { account, userData128 := group, code, timestampMin, limit := refundPageLimit })
    let sum := sum + (transfers.map Transfer.amount).sum
    match transfers.getLast? with
    | none => pure sum
    | some last =>
      if transfers.length < refundPageLimit then pure sum
      else sumRefundPages account group code pages (last.timestamp + 1) sum

def sumAccountRefunds (pages : Nat) (account group : ID) (code : TransferCode) : Tb ID Nat :=
  sumRefundPages account group code.number pages 0 0

end Ramp.Billing.TigerBeetle
