import Mathlib.Algebra.Order.Ring.Rat

/-! The billing adapter as its callers see it, and the holds that it keeps. -/

namespace Ramp.Billing

structure Amount where
  value : ℚ
  currency : String
  deriving DecidableEq

def totalCharge (unitCost : Amount) (quantity : Int) : Amount where
  value := unitCost.value * quantity
  currency := unitCost.currency

structure AuthorizeRequest where
  tenantID : String
  billingRef : String
  unitCost : Amount
  quantity : Int
  unit : String
  idempotencyKey : String
  resourceOwnerID : String
  feeRateBps : Int
  deriving DecidableEq

structure AuthorizeResult where
  billingID : String := ""
  approved : Bool := false
  reason : String := ""
  deriving DecidableEq

inductive BillingError
  | unknownBillingID
  | insufficientBalance
  | invalidAmount
  | amountNotRepresentable
  | refundBeforeRecord
  | refundExceedsRecord
  | refundUnsupported
  | backendUnavailable
  | unknownPayee
  | emptyBillingRef
  | emptyCreditKey
  | reservedCreditKey
  | badCreditAmount
  | other (text : String)
  deriving DecidableEq

def demoCurrency : String := "USD"

def reservedCreditKeyPrefixes : List String := ["pending:", "post:", "void:", "fee:", "refund:"]

def hasReservedPrefix (key : String) : Bool :=
  reservedCreditKeyPrefixes.any fun p => p.toList.isPrefixOf key.toList

/-- An amount as a caller sends it, where the value may not be a number. -/
structure RawAmount where
  value : Option ℚ
  currency : String
  deriving DecidableEq

/-- The checks every adapter makes on a credit before it looks at its own state. -/
def validateCreditArgs (billingRef : String) (amount : RawAmount)
    (idempotencyKey expectedCurrency : String) : Except BillingError ℚ :=
  if billingRef = "" then .error .emptyBillingRef
  else if idempotencyKey = "" then .error .emptyCreditKey
  else if hasReservedPrefix idempotencyKey then .error .reservedCreditKey
  else match amount.value with
    | none => .error .badCreditAmount
    | some value =>
      if value ≤ 0 ∨ amount.currency = "" then .error .badCreditAmount
      else if amount.currency ≠ expectedCurrency then .error .invalidAmount
      else .ok value

theorem validateCreditArgs_ok {billingRef key expected : String} {amount : RawAmount} {value : ℚ}
    (h : validateCreditArgs billingRef amount key expected = .ok value) :
    amount.value = some value ∧ 0 < value ∧ hasReservedPrefix key = false := by
  unfold validateCreditArgs at h
  rcases hv : amount.value with _ | v
  · rw [hv] at h
    split_ifs at h
  · rw [hv] at h
    simp only at h
    split_ifs at h with href hkey hres hpos hcur
    rw [Except.ok.injEq] at h
    subst h
    push Not at hpos
    exact ⟨rfl, hpos.1, Bool.eq_false_iff.mpr hres⟩

structure Hold where
  ref : String
  key : String
  id : String

inductive SettleOp
  | record
  | release
  deriving DecidableEq

/-- What a billing adapter promises about its holds, whatever it keeps them in. `settled` has the
keyed calls that succeeded, which may be repeated. -/
structure HoldBook where
  issued : List Hold := []
  charged : List String := []
  released : List String := []
  expired : List String := []
  settled : List (SettleOp × String × String) := []

/-- A failed authorize may have made its hold: `applied` is the id it would have answered. -/
inductive AuthorizeReply
  | result (r : AuthorizeResult)
  | err (e : BillingError) (applied : Option String)
  deriving DecidableEq

inductive SettleReply
  | ok
  | err (e : BillingError) (applied : Bool)
  deriving DecidableEq

def SettleReply.took : SettleReply → Bool
  | .ok => true
  | .err _ applied => applied

namespace HoldBook

def Issued (b : HoldBook) (id : String) : Prop := ∃ h ∈ b.issued, h.id = id

def Resolved (b : HoldBook) (id : String) : Prop :=
  id ∈ b.charged ∨ id ∈ b.released ∨ id ∈ b.expired

def Live (b : HoldBook) (id : String) : Prop := b.Issued id ∧ ¬ b.Resolved id

-- Named once: every use would else carry its own proof that the keys are compared lawfully.
instance (b : HoldBook) (call : SettleOp × String × String) : Decidable (call ∈ b.settled) :=
  inferInstance

instance (b : HoldBook) (id : String) : Decidable (b.Issued id) :=
  inferInstanceAs (Decidable (∃ _ ∈ _, _))

instance (b : HoldBook) (id : String) : Decidable (b.Resolved id) :=
  inferInstanceAs (Decidable (_ ∨ _))

instance (b : HoldBook) (id : String) : Decidable (b.Live id) :=
  inferInstanceAs (Decidable (_ ∧ _))

/-- The hold that a repeated authorize under a key finds again. -/
def liveHold (b : HoldBook) (ref key : String) : Option Hold :=
  if key = "" then none
  else b.issued.find? fun h => h.ref = ref ∧ h.key = key ∧ ¬ b.Resolved h.id

/-- Hands out a hold: the live one of the key, or one under an id never issued before. -/
def hand (b : HoldBook) (ref key id : String) : Option HoldBook :=
  match b.liveHold ref key with
  | some h => if h.id = id then some b else none
  | none =>
    if id ≠ "" ∧ ¬ b.Issued id then some { b with issued := b.issued ++ [⟨ref, key, id⟩] }
    else none

def authorize (b : HoldBook) (req : AuthorizeRequest) : AuthorizeReply → Option HoldBook
  | .result r => if r.approved then b.hand req.billingRef req.idempotencyKey r.billingID else some b
  | .err _ none => some b
  | .err _ (some id) => b.hand req.billingRef req.idempotencyKey id

/-- Without a key there is nothing to recognise a repeated call by. -/
def mark (b : HoldBook) (op : SettleOp) (id key : String) : HoldBook :=
  if key = "" then b else { b with settled := (op, id, key) :: b.settled }

def resolve (b : HoldBook) (op : SettleOp) (id key : String) : HoldBook :=
  match op with
  | .record => { b with charged := id :: b.charged }.mark op id key
  | .release => { b with released := id :: b.released }.mark op id key

/-- A call that succeeds resolves a live hold or repeats one that did. Only a call that could do
neither may answer that the id is unknown. -/
def settle (b : HoldBook) (op : SettleOp) (id key : String) : SettleReply → Option HoldBook
  | .ok =>
    if (op, id, key) ∈ b.settled then some b
    else if b.Live id then some (b.resolve op id key)
    else none
  | .err _ true => if b.Live id then some (b.resolve op id key) else none
  | .err e false =>
    if e = .unknownBillingID ∧ ((op, id, key) ∈ b.settled ∨ b.Live id) then none else some b

def expire (b : HoldBook) (id : String) : HoldBook := { b with expired := id :: b.expired }

/-- Only issued holds are resolved, and a remembered release is of a released hold. -/
structure Valid (b : HoldBook) : Prop where
  resolved_issued : ∀ id, b.Resolved id → b.Issued id
  issued_ne : ∀ h ∈ b.issued, h.id ≠ ""
  settled_released : ∀ id key, (SettleOp.release, id, key) ∈ b.settled → id ∈ b.released

theorem valid_empty : Valid {} := by
  constructor <;> simp [Issued, Resolved]

variable {b b' : HoldBook} {id ref key id' : String} {req : AuthorizeRequest} {r : SettleReply}
  {op : SettleOp}

theorem Live.issued (h : b.Live id) : b.Issued id := h.1

theorem liveHold_some {h : Hold} (hh : b.liveHold ref key = some h) :
    h ∈ b.issued ∧ h.ref = ref ∧ h.key = key ∧ ¬ b.Resolved h.id := by
  unfold liveHold at hh
  split at hh
  · simp at hh
  · have hp := List.find?_some hh
    simp only [decide_eq_true_eq] at hp
    exact ⟨List.mem_of_find?_eq_some hh, hp⟩

theorem hand_cases (h : b.hand ref key id = some b') :
    (b' = b ∧ b.Live id ∧ ⟨ref, key, id⟩ ∈ b.issued) ∨
      (id ≠ "" ∧ ¬ b.Issued id ∧ b' = { b with issued := b.issued ++ [⟨ref, key, id⟩] }) := by
  unfold hand at h
  split at h
  next hold hlive =>
    split at h
    next hid =>
      obtain ⟨hm, rfl, rfl, hres⟩ := liveHold_some hlive
      subst hid
      exact .inl ⟨(Option.some.inj h).symm, ⟨⟨hold, hm, rfl⟩, hres⟩, hm⟩
    · simp at h
  · split at h
    next hfresh => exact .inr ⟨hfresh.1, hfresh.2, (Option.some.inj h).symm⟩
    · simp at h

theorem hand_live (hb : b.Valid) (h : b.hand ref key id = some b') :
    b'.Live id ∧ ⟨ref, key, id⟩ ∈ b'.issued := by
  rcases hand_cases h with ⟨rfl, hl, hm⟩ | ⟨hne, hfresh, rfl⟩
  · exact ⟨hl, hm⟩
  · refine ⟨⟨⟨⟨ref, key, id⟩, by simp, rfl⟩, fun hr => hfresh (hb.resolved_issued id hr)⟩, by simp⟩

section

variable (h : b.hand ref key id = some b')
include h

theorem hand_resolved (id' : String) : b'.Resolved id' ↔ b.Resolved id' := by
  rcases hand_cases h with ⟨rfl, -, -⟩ | ⟨-, -, rfl⟩ <;> rfl

theorem hand_issued {hold : Hold} (hm : hold ∈ b.issued) : hold ∈ b'.issued := by
  rcases hand_cases h with ⟨rfl, -, -⟩ | ⟨-, -, rfl⟩
  · exact hm
  · exact List.mem_append_left _ hm

theorem hand_keeps_live (hl : b.Live id') : b'.Live id' := by
  obtain ⟨⟨hold, hm, hid⟩, hres⟩ := hl
  exact ⟨⟨hold, hand_issued h hm, hid⟩, fun hr => hres ((hand_resolved h id').mp hr)⟩

end

theorem hand_valid (hb : b.Valid) (h : b.hand ref key id = some b') : b'.Valid := by
  rcases hand_cases h with ⟨rfl, -, -⟩ | ⟨hne, -, rfl⟩
  · exact hb
  · refine ⟨fun id' hr => ?_, ?_, hb.settled_released⟩
    · obtain ⟨hold, hm, rfl⟩ := hb.resolved_issued id' hr
      exact ⟨hold, List.mem_append_left _ hm, rfl⟩
    · intro hold hm
      rcases List.mem_append.mp hm with hm | hm
      · exact hb.issued_ne hold hm
      · rw [List.mem_singleton] at hm
        subst hm
        exact hne

theorem authorize_cases {r : AuthorizeReply} (h : b.authorize req r = some b') :
    b' = b ∨ ∃ id, b.hand req.billingRef req.idempotencyKey id = some b' := by
  rcases r with res | ⟨e, _ | id⟩
  · simp only [authorize] at h
    split at h
    · exact .inr ⟨_, h⟩
    · exact .inl (Option.some.inj h).symm
  · exact .inl (Option.some.inj h).symm
  · exact .inr ⟨id, h⟩

@[simp] theorem resolve_issued (b : HoldBook) (op : SettleOp) (id key : String) :
    (b.resolve op id key).issued = b.issued := by
  unfold resolve mark
  cases op <;> (simp only; split <;> rfl)

theorem resolve_resolved : (b.resolve op id key).Resolved id' ↔ id' = id ∨ b.Resolved id' := by
  unfold resolve mark Resolved
  cases op <;> (simp only; split <;> simp only [List.mem_cons] <;> tauto)

theorem settle_cases (h : b.settle op id key r = some b') :
    b' = b ∨ (b.Live id ∧ b' = b.resolve op id key) := by
  rcases r with _ | ⟨e, _ | _⟩
  · simp only [settle] at h
    split_ifs at h with hs hl
    · exact .inl (Option.some.inj h).symm
    · exact .inr ⟨hl, (Option.some.inj h).symm⟩
  · simp only [settle] at h
    split_ifs at h
    exact .inl (Option.some.inj h).symm
  · simp only [settle] at h
    split_ifs at h with hl
    exact .inr ⟨hl, (Option.some.inj h).symm⟩

theorem mem_released_resolve (b : HoldBook) (id key : String) :
    id ∈ (b.resolve .release id key).released := by
  unfold resolve mark
  simp only
  split <;> simp

theorem mem_released_resolve_of_mem (hm : id' ∈ b.released) :
    id' ∈ (b.resolve op id key).released := by
  unfold resolve mark
  cases op <;> simp only <;> split <;> simp [hm]

theorem mem_settled_resolve {op' : SettleOp} {key' : String}
    (hm : (op', id', key') ∈ (b.resolve op id key).settled) :
    (op' = op ∧ id' = id) ∨ (op', id', key') ∈ b.settled := by
  unfold resolve mark at hm
  cases op <;> simp only at hm <;> split at hm <;> simp at hm <;> tauto

theorem resolve_valid (hb : b.Valid) (hl : b.Live id) : (b.resolve op id key).Valid := by
  refine ⟨fun id' hr => ?_, fun hold hm => ?_, fun id' key' hm => ?_⟩
  · have hi : b.Issued id' := by
      rcases resolve_resolved.mp hr with rfl | hr
      · exact hl.issued
      · exact hb.resolved_issued id' hr
    simpa [Issued] using hi
  · rw [resolve_issued] at hm
    exact hb.issued_ne hold hm
  · rcases mem_settled_resolve hm with ⟨rfl, rfl⟩ | hm
    · exact mem_released_resolve b id' key
    · exact mem_released_resolve_of_mem (hb.settled_released id' key' hm)

theorem settle_valid (hb : b.Valid) (h : b.settle op id key r = some b') : b'.Valid := by
  rcases settle_cases h with rfl | ⟨hl, rfl⟩
  · exact hb
  · exact resolve_valid hb hl

theorem settle_released (h : b.settle op id key r = some b') (hm : id' ∈ b.released) :
    id' ∈ b'.released := by
  rcases settle_cases h with rfl | ⟨-, rfl⟩
  · exact hm
  · exact mem_released_resolve_of_mem hm

theorem release_took (hb : b.Valid) (h : b.settle .release id key r = some b')
    (ht : r.took = true) : id ∈ b'.released := by
  rcases r with _ | ⟨e, _ | _⟩
  · simp only [settle] at h
    split_ifs at h with hs hl
    · cases h
      exact hb.settled_released id key hs
    · cases h
      exact mem_released_resolve b id key
  · simp [SettleReply.took] at ht
  · simp only [settle] at h
    split_ifs at h with hl
    cases h
    exact mem_released_resolve b id key

theorem authorize_valid (hb : b.Valid) {r : AuthorizeReply} (h : b.authorize req r = some b') :
    b'.Valid := by
  rcases authorize_cases h with rfl | ⟨id, h⟩
  · exact hb
  · exact hand_valid hb h

theorem authorize_keeps_live {r : AuthorizeReply} (h : b.authorize req r = some b')
    (hl : b.Live id) : b'.Live id := by
  rcases authorize_cases h with rfl | ⟨id', h⟩
  · exact hl
  · exact hand_keeps_live h hl

theorem settle_keeps_live (h : b.settle op id key r = some b') (hne : id' ≠ id) (hl : b.Live id') :
    b'.Live id' := by
  rcases settle_cases h with rfl | ⟨-, rfl⟩
  · exact hl
  · obtain ⟨⟨hold, hm, hid⟩, hres⟩ := hl
    refine ⟨⟨hold, by rwa [resolve_issued], hid⟩, fun hr => ?_⟩
    rcases resolve_resolved.mp hr with he | hr
    · exact hne he
    · exact hres hr

theorem authorize_charged {r : AuthorizeReply} (h : b.authorize req r = some b') :
    b'.charged = b.charged := by
  rcases authorize_cases h with rfl | ⟨id, h⟩
  · rfl
  · rcases hand_cases h with ⟨rfl, -, -⟩ | ⟨-, -, rfl⟩ <;> rfl

theorem authorize_released {r : AuthorizeReply} (h : b.authorize req r = some b')
    (hid : id ∈ b.released) : id ∈ b'.released := by
  rcases authorize_cases h with rfl | ⟨id', h⟩
  · exact hid
  · rcases hand_cases h with ⟨rfl, -, -⟩ | ⟨-, -, rfl⟩ <;> exact hid

theorem release_charged (h : b.settle .release id key r = some b') : b'.charged = b.charged := by
  rcases settle_cases h with rfl | ⟨-, rfl⟩
  · rfl
  · unfold resolve mark
    simp only
    split <;> rfl

theorem record_charged (h : b.settle .record id key r = some b') :
    b'.charged = b.charged ∨ b'.charged = id :: b.charged := by
  rcases settle_cases h with rfl | ⟨-, rfl⟩
  · exact .inl rfl
  · unfold resolve mark
    simp only
    split <;> exact .inr rfl

end HoldBook

end Ramp.Billing
