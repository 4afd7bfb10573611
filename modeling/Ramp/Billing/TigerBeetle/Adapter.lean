import Ramp.Billing.TigerBeetle.Client

/-! The billing adapter on the ledger: a hold is a pending transfer, recording
posts it, releasing voids it, and a refund moves the settled money back. -/

namespace Ramp.Billing

open Ramp.Ledger TigerBeetle

def scaleFactor : Int := 10 ^ 8

/-- An amount in minor units, unless it has more digits than the ledger keeps. -/
def minorUnits (v : ℚ) : Option Int :=
  if (v * scaleFactor).den = 1 then some (v * scaleFactor).num else none

/-- The fee is rounded down: the platform bears the remainder. -/
def feeMinor (gross bps : Int) : Int := gross * bps / 10000

/-- `holdTimeout` is in nanoseconds; `refundPages` bounds the pages read to sum up
refunds. -/
structure TigerBeetleAdapter (ID : Type) where
  ids : Ids ID
  ledger : Nat
  currency : String
  holdTimeout : Int
  idNS : String
  refundPages : Nat

structure HoldParams (ID : Type) where
  billingRef : String
  authKey : String
  agentAcct : ID
  owner : ID
  minor : Int
  bps : Int
  deriving DecidableEq

structure RefundReq (ID : Type) where
  pendingID : ID
  netID : ID
  feeID : ID
  rMinor : Int
  reason : String

structure RefundLegs (ID : Type) where
  pendingID : ID
  netID : ID
  feeID : ID
  agent : ID
  owner : ID
  netRev : Int
  feeRev : Int
  reason : String

namespace TigerBeetleAdapter

def defaultHoldTimeout : Int := 6 * 60 * 10 ^ 9

def maxAuthGenerations : Nat := 256

def authGenerationsExhausted : TbError :=
  .billing (.other "billing: authorize exhausted hold generations")

def creditLiquidityCap : TbError :=
  .billing (.other "billing: credit exceeds platform liquidity cap")

def classifyUnavailable (e : TbError) : TbError :=
  if e.isUnavailable then .because .backendUnavailable e else e

variable {ID : Type}

def new (opts : TigerBeetleAdapter ID) : TigerBeetleAdapter ID :=
  { opts with
    holdTimeout := if opts.holdTimeout ≤ 0 then defaultHoldTimeout else opts.holdTimeout }

variable (a : TigerBeetleAdapter ID)

def accountID (p : Ids.Prefix) (businessID : String) : Except TbError ID :=
  (a.ids.accountID p (a.idNS ++ businessID)).mapError fun e =>
    .wrapped "billing: derive account id" (.id e)

def ownerAccount (resourceOwnerID : String) : Except TbError ID :=
  if resourceOwnerID = "" then .error (.billing .unknownPayee)
  else a.accountID .owner ("revenue:" ++ resourceOwnerID)

def platformFeeAccount : Except TbError ID := a.accountID .platform "fee"

def liquidityAccount : Except TbError ID := a.accountID .platform "liquidity"

/-- The id of a transfer is derived from the slot it fills, so that a retry submits the same id. -/
def slotID (context : String) (slot : Slot) : Except TbError ID :=
  (a.ids.transferID (a.idNS ++ slot.text)).mapError fun e => .wrapped context (.id e)

def pendingID (billingRef authKey : String) (gen : Nat) : Except TbError ID :=
  if ':' ∈ billingRef.toList then
    .error (.billing (.other
      ("billing: billing_ref " ++ billingRef.quote ++ " must not contain ':'")))
  else a.slotID "billing: derive pending id" (.hold billingRef authKey gen)

def resolveIDs (pendingID : ID) : Except TbError (ID × ID) := do
  let postID ← a.slotID "billing: derive post id" (.post (a.ids.encodeID pendingID))
  let voidID ← a.slotID "billing: derive void id" (.void (a.ids.encodeID pendingID))
  pure (postID, voidID)

def feeLegID (pendingID : ID) : Except TbError ID :=
  a.slotID "billing: derive fee leg id" (.fee (a.ids.encodeID pendingID))

def refundLegIDs (pendingID : ID) (key : String) : Except TbError (ID × ID) := do
  let netID ← a.slotID "billing: derive refund net id" (.refundNet (a.ids.encodeID pendingID) key)
  let feeID ← a.slotID "billing: derive refund fee id" (.refundFee (a.ids.encodeID pendingID) key)
  pure (netID, feeID)

def account (id : ID) (code : AccountCode) : Account ID where
  id
  ledger := a.ledger
  code := code.number
  debitsMustNotExceedCredits := code = .agent
  history := code ≠ .agent

def timeoutSeconds : Nat :=
  let s := a.holdTimeout.tdiv (10 ^ 9)
  if s ≤ 0 then 1 else if s > 2 ^ 32 - 1 then 2 ^ 32 - 1 else s.toNat

def toMinor (v : ℚ) : Except TbError Int :=
  match minorUnits v with
  | some minor => .ok minor
  | none => .error (.billing .amountNotRepresentable)

def fromMinor (minor : Int) : Amount where
  value := minor / scaleFactor
  currency := a.currency

def rateBps (userData : ID) : Int := a.ids.int64 userData

def refundMinor (amount : RawAmount) : Except TbError Int :=
  if amount.currency ≠ a.currency then .error (.billing .invalidAmount)
  else match amount.value.bind minorUnits with
    | none => .error (.billing .invalidAmount)
    | some minor => if minor ≤ 0 then .error (.billing .invalidAmount) else .ok minor

variable [DecidableEq ID] [Zero ID]

def ensureAccount (id : ID) (code : AccountCode) (label : String) : Tb ID Unit :=
  rethrow (.wrapped ("billing: ensure " ++ label ++ " account"))
    (TigerBeetle.ensureAccount (a.account id code))

def ensureAccounts (agentAcct ownerID : ID) : Tb ID Unit := do
  a.ensureAccount agentAcct .agent "agent"
  a.ensureAccount ownerID .owner "owner"

def ensureAgentAccount (billingRef : String) : Tb ID Unit :=
  rethrow classifyUnavailable
    (if billingRef = "" then throw (.billing .emptyBillingRef)
    else do
      let id ← orThrow (a.accountID .agent billingRef) id
      a.ensureAccount id .agent "agent")

/-- Reads the hold together with the ids its post and its void would have. -/
def classifyHold (pendingID : ID) (op : String) : Tb ID (HoldState × ID) := do
  let resolve ← orThrow (a.resolveIDs pendingID) id
  let state ← rethrow (.wrapped ("billing: classify hold (" ++ op ++ ")"))
    (TigerBeetle.classifyHold a.ids pendingID resolve.1 resolve.2)
  pure (state, resolve.1)

def resolveErr : ResolveOutcome → Tb ID Unit
  | .applied | .exists => pure ()
  | .notFound | .alreadyResolved => throw (.billing .unknownBillingID)

def linkedErr (exceedsCredits : TbError) : LinkedOutcome → Tb ID Unit
  | .applied => pure ()
  | .exceedsCredits => throw exceedsCredits
  | .pendingResolved => throw (.billing .unknownBillingID)
  | .existsMismatch =>
    throw (.billing (.other "billing: linked leg exists with different contents"))

def submitLinked (legs : List (Leg ID)) : Tb ID LinkedOutcome :=
  rethrow (.wrapped "billing: linked transfer") (createLinked legs)

def refusal (req : AuthorizeRequest) : Option AuthorizeResult :=
  if req.idempotencyKey = "" then some { reason := "idempotency key required" }
  else if req.billingRef = "" then some { reason := "billing ref required" }
  else if req.quantity ≤ 0 then some { reason := "non-positive quantity" }
  else if req.unitCost.value ≠ 0 ∧ req.unitCost.currency ≠ a.currency then
    some { reason := "currency mismatch" }
  else none

def holdParams (req : AuthorizeRequest) : Except TbError (HoldParams ID) := do
  let minor ← toMinor (totalCharge req.unitCost req.quantity).value
  let agentAcct ← a.accountID .agent req.billingRef
  let owner ← a.ownerAccount req.resourceOwnerID
  pure ⟨req.billingRef, req.idempotencyKey, agentAcct, owner, minor, req.feeRateBps⟩

def approved (pendingID : ID) : AuthorizeResult where
  billingID := a.ids.encodeID pendingID
  approved := true

def insufficientBalance : AuthorizeResult := { reason := "insufficient balance" }

def available : Option Balances → Int
  | some b => b.creditsPosted - b.debitsPosted - b.debitsPending
  | none => 0

/-- An early answer only: the ledger checks the balance again when the hold is created. -/
def checkBalance (agentAcct : ID) (minor : Int) : Tb ID (Option AuthorizeResult) := do
  let acc ← rethrow (.wrapped "billing: lookup agent") (lookupAccount agentAcct)
  pure (if available acc < minor then some insufficientBalance else none)

def pendingTransfer (pendingID : ID) (h : HoldParams ID) : PendingTransfer ID where
  id := pendingID
  debit := h.agentAcct
  credit := h.owner
  amount := h.minor
  ledger := a.ledger
  timeout := a.timeoutSeconds
  userData128 := a.ids.ofUint64 h.bps.toNat

def createHold (pendingID : ID) (h : HoldParams ID) : Tb ID AuthorizeResult := do
  match ← rethrow (.wrapped "billing: create hold")
      (createPending (a.pendingTransfer pendingID h)) with
  | .created | .exists => pure (a.approved pendingID)
  | .insufficientFunds => pure insufficientBalance

/-- The probe from generation `gen` on, with so many generations left. -/
def reserveFrom (h : HoldParams ID) : Nat → Nat → Tb ID AuthorizeResult
  | 0, _ => throw authGenerationsExhausted
  | left + 1, gen => do
    let pendingID ← orThrow (a.pendingID h.billingRef h.authKey gen) id
    let hold ← a.classifyHold pendingID "authorize"
    match hold.1 with
    | .live => pure (a.approved pendingID)
    | .free => a.createHold pendingID h
    | .resolved => reserveFrom h left (gen + 1)

def reserve (h : HoldParams ID) : Tb ID AuthorizeResult := a.reserveFrom h maxAuthGenerations 0

def authorize (req : AuthorizeRequest) : Tb ID AuthorizeResult :=
  rethrow classifyUnavailable
    (match a.refusal req with
    | some denial => pure denial
    | none => do
      let h ← orThrow (a.holdParams req) id
      a.ensureAccounts h.agentAcct h.owner
      match ← checkBalance h.agentAcct h.minor with
      | some denial => pure denial
      | none => a.reserve h)

def settleNetLeg (pendingID postID : ID) (net : Int) : Leg ID where
  id := postID
  pendingID
  debit := 0
  credit := 0
  amount := net
  ledger := 0
  code := 0
  userData128 := 0
  userData64 := 0

def settleFeeLeg (feeID debit platformID : ID) (fee : Int) : Leg ID where
  id := feeID
  pendingID := 0
  debit
  credit := platformID
  amount := fee
  ledger := a.ledger
  code := TransferCode.settlement.number
  userData128 := 0
  userData64 := 0

/-- Posts the hold less the fee, and with it pays the fee, in one linked chain. Without a fee the
hold is posted whole. -/
def settleSplit (pendingID postID : ID) : Tb ID Unit := do
  match ← rethrow (.wrapped "billing: settle lookup") (lookupTransfer pendingID) with
  | none => throw (.billing .unknownBillingID)
  | some info =>
    if feeMinor info.amount (a.rateBps info.userData128) = 0 then do
      let out ← rethrow (.wrapped "billing: settle full") (postPending postID pendingID)
      resolveErr out
    else do
      let platformID ← orThrow a.platformFeeAccount id
      a.ensureAccount platformID .platform "platform fee"
      let feeID ← orThrow (a.feeLegID pendingID) id
      let fee := feeMinor info.amount (a.rateBps info.userData128)
      let out ← submitLinked [settleNetLeg pendingID postID (info.amount - fee),
        a.settleFeeLeg feeID info.debit platformID fee]
      linkedErr (.billing .insufficientBalance) out

def record (billingID : String) (_quantity : Int) (_key : String) : Tb ID Unit :=
  rethrow classifyUnavailable (do
    let pendingID ← orThrow (a.ids.decodeID billingID) fun _ => .billing .unknownBillingID
    let hold ← a.classifyHold pendingID "record"
    match hold.1 with
    | .free => throw (.billing .unknownBillingID)
    | .resolved => do
      let settled ← rethrow (.wrapped "billing: record lookup post") (lookupTransfer hold.2)
      if settled.isSome then pure () else throw (.billing .unknownBillingID)
    | .live => a.settleSplit pendingID hold.2)

def release (billingID : String) (_key : String) : Tb ID Unit :=
  rethrow classifyUnavailable (do
    let pendingID ← orThrow (a.ids.decodeID billingID) fun _ => .billing .unknownBillingID
    let resolve ← orThrow (a.resolveIDs pendingID) id
    let out ← rethrow (.wrapped "billing: release") (voidPending resolve.2 pendingID)
    resolveErr out)

def classifyForRefund (pendingID : ID) : Tb ID Unit := do
  let hold ← a.classifyHold pendingID "refund"
  match hold.1 with
  | .free => throw (.billing .unknownBillingID)
  | .live => throw (.billing .refundBeforeRecord)
  | .resolved => do
    let recorded ← rethrow (.wrapped "billing: refund lookup post") (lookupTransfer hold.2)
    if recorded.isSome then pure () else throw (.billing .refundBeforeRecord)

def refundNetLeg (r : RefundLegs ID) : Leg ID where
  id := r.netID
  pendingID := 0
  debit := r.owner
  credit := r.agent
  amount := r.netRev
  ledger := a.ledger
  code := TransferCode.refund.number
  userData128 := r.pendingID
  userData64 := a.ids.reasonToken r.reason

def refundFeeLeg (r : RefundLegs ID) (platformID : ID) : Leg ID where
  id := r.feeID
  pendingID := 0
  debit := platformID
  credit := r.agent
  amount := r.feeRev
  ledger := a.ledger
  code := TransferCode.refund.number
  userData128 := r.pendingID
  userData64 := 0

def refundLegs (r : RefundLegs ID) : Except TbError (List (Leg ID)) :=
  if 0 < r.feeRev then do
    let platformID ← a.platformFeeAccount
    pure [a.refundNetLeg r, a.refundFeeLeg r platformID]
  else pure [a.refundNetLeg r]

def refundReverse (r : RefundLegs ID) : Tb ID Unit := do
  let legs ← orThrow (a.refundLegs r) id
  let out ← submitLinked legs
  linkedErr (.billing .insufficientBalance) out

/-- The fee is given back in proportion, at the rate that was stored with the hold. -/
def reversal (r : RefundReq ID) (info : Transfer ID) : RefundLegs ID :=
  let feeRev := feeMinor info.amount (a.rateBps info.userData128) * r.rMinor / info.amount
  { pendingID := r.pendingID, netID := r.netID, feeID := r.feeID, agent := info.debit,
    owner := info.credit, netRev := r.rMinor - feeRev, feeRev, reason := r.reason }

def reverseRefund (r : RefundReq ID) : Tb ID Unit := do
  match ← rethrow (.wrapped "billing: refund lookup pending") (lookupTransfer r.pendingID) with
  | none => throw (.billing .unknownBillingID)
  | some info => do
    let prior ← rethrow (.wrapped "billing: refund sum")
      (sumAccountRefunds a.refundPages info.debit r.pendingID .refund)
    if info.amount < prior + r.rMinor then throw (.billing .refundExceedsRecord)
    else a.refundReverse (a.reversal r info)

def refund (billingID : String) (amount : RawAmount) (reason key : String) : Tb ID Unit :=
  rethrow classifyUnavailable (do
    let pendingID ← orThrow (a.ids.decodeID billingID) fun _ => .billing .unknownBillingID
    a.classifyForRefund pendingID
    let rMinor ← orThrow (a.refundMinor amount) id
    let legs ← orThrow (a.refundLegIDs pendingID key) id
    let replay ← rethrow (.wrapped "billing: refund lookup") (lookupTransfer legs.1)
    if replay.isSome then pure ()
    else a.reverseRefund ⟨pendingID, legs.1, legs.2, rMinor, reason⟩)

def getBalance (billingRef : String) : Tb ID Amount :=
  rethrow classifyUnavailable (do
    let id ← orThrow (a.accountID .agent billingRef) id
    match ← rethrow (.wrapped "billing: get balance") (lookupAccount id) with
    | none => throw (.billing (.other ("billing: unknown account " ++ billingRef.quote)))
    | some b => pure (a.fromMinor (b.creditsPosted - b.debitsPosted)))

def getQuota (_billingRef : String) : Tb ID Int := pure 0

def creditLeg (transferID liquidity agentAcct : ID) (minor : Int) : Leg ID where
  id := transferID
  pendingID := 0
  debit := liquidity
  credit := agentAcct
  amount := minor
  ledger := a.ledger
  code := TransferCode.settlement.number
  userData128 := 0
  userData64 := 0

def credit (billingRef : String) (amount : RawAmount) (idempotencyKey : String) : Tb ID Unit :=
  rethrow classifyUnavailable (do
    let value ← orThrow (validateCreditArgs billingRef amount idempotencyKey a.currency) .billing
    let minor ← orThrow (toMinor value) id
    let transferID ← orThrow (a.slotID "billing: derive credit id" (.credit idempotencyKey)) id
    let agentAcct ← orThrow (a.accountID .agent billingRef) id
    let liquidity ← orThrow a.liquidityAccount id
    a.ensureAccount agentAcct .agent "agent"
    a.ensureAccount liquidity .platform "platform liquidity"
    let existing ← rethrow (.wrapped "billing: credit lookup") (lookupTransfer transferID)
    if existing.isSome then pure ()
    else do
      let out ← submitLinked [a.creditLeg transferID liquidity agentAcct minor]
      if out = .existsMismatch then pure ()
      else linkedErr creditLiquidityCap out)

end TigerBeetleAdapter

end Ramp.Billing
