import Mathlib.Tactic.Linarith
import Mathlib.Tactic.Ring
import Ramp.Billing.InMemory

/-! The account book behind a prepaid adapter: what may happen to it, the journal
of what did, and the conservation law that ties the two together. -/

namespace Ramp.Billing

/-- The part of the adapter that holds money and quota. -/
structure Books where
  balances : Table String Amount
  quotas : Table String Int
  reserved : Table String Reservation
  recorded : Table String RecordedTx
  refunded : Table String ℚ
  used : String → Prop

/-- A movement of money, as the journal of a run lists it. -/
inductive Entry
  | credited (ref : String) (value : ℚ)
  | recorded (id : String) (res : Reservation)
  | released (id : String) (res : Reservation)
  | refunded (id ref : String) (value : ℚ)
  deriving DecidableEq

namespace Entry

def credit (ref : String) : Entry → ℚ
  | credited r v => if r = ref then v else 0
  | _ => 0

def charge (ref : String) : Entry → ℚ
  | recorded _ res => if res.billingRef = ref then res.estAmt.value else 0
  | _ => 0

def refund (ref : String) : Entry → ℚ
  | refunded _ r v => if r = ref then v else 0
  | _ => 0

def quantity (ref : String) : Entry → Int
  | recorded _ res => if res.billingRef = ref then res.estQty else 0
  | _ => 0

def chargeOf (id : String) : Entry → ℚ
  | recorded i res => if i = id then res.estAmt.value else 0
  | _ => 0

def refundOf (id : String) : Entry → ℚ
  | refunded i _ v => if i = id then v else 0
  | _ => 0

def resolves (id : String) : Entry → Bool
  | recorded i _ => i = id
  | released i _ => i = id
  | _ => false

theorem chargeOf_eq_zero {id : String} {e : Entry} (h : e.resolves id = false) :
    e.chargeOf id = 0 := by
  cases e <;> simp_all [resolves, chargeOf]

end Entry

def total {M : Type} [AddCommMonoid M] (js : List Entry) (w : Entry → M) : M := (js.map w).sum

section

variable {M : Type} [AddCommMonoid M]

@[simp] theorem total_nil (w : Entry → M) : total [] w = 0 := rfl

@[simp] theorem total_append (js es : List Entry) (w : Entry → M) :
    total (js ++ es) w = total js w + total es w := by
  simp [total]

@[simp] theorem total_singleton (e : Entry) (w : Entry → M) : total [e] w = w e := by
  simp [total]

theorem total_eq_zero {js : List Entry} {w : Entry → M} (h : ∀ e ∈ js, w e = 0) :
    total js w = 0 := by
  refine List.sum_eq_zero fun x hx => ?_
  obtain ⟨e, he, rfl⟩ := List.mem_map.mp hx
  exact h e he

end

namespace Books

variable (b : Books)

def balanceOf (ref : String) : ℚ := ((b.balances.get? ref).map Amount.value).getD 0

/-- Pays an amount into an account that is kept in `currency`. -/
def paid (ref : String) (v : ℚ) (currency : String) : Table String Amount :=
  b.balances.insert ref ⟨b.balanceOf ref + v, currency⟩

/-- An account that exists is kept in this currency. -/
def KeepsCurrency (ref currency : String) : Prop :=
  ∀ bal, b.balances.get? ref = some bal → currency = bal.currency

def chargeOf (id : String) : ℚ := ((b.recorded.get? id).map fun tx => tx.amt.value).getD 0

def refundOf (id : String) : ℚ := (b.refunded.get? id).getD 0

/-- What the open reservations of an account hold back. -/
def liveAmount (ref : String) : ℚ :=
  b.reserved.sum fun _ r => if r.billingRef = ref then r.estAmt.value else 0

def liveQuantity (ref : String) : Int :=
  b.reserved.sum fun _ r => if r.billingRef = ref then r.estQty else 0

def adjustQuota (ref : String) (quantity : Int) : Table String Int :=
  match b.quotas.get? ref with
  | none => b.quotas
  | some q => b.quotas.insert ref (q + quantity)

/-- The reservation fits into the balance: it is free, or of the account's
currency and covered next to the live ones of that currency. -/
def Fits (res : Reservation) (bal : Amount) : Prop :=
  res.estAmt.value = 0 ∨ res.estAmt.currency = bal.currency ∧
    (b.reserved.sum fun _ r =>
      if r.billingRef = res.billingRef ∧ r.estAmt.currency = bal.currency then r.estAmt.value
      else 0) + res.estAmt.value ≤ bal.value

/-- The reservation is of an account that exists, in its currency unless it is free. -/
structure Backed (t : Table String Amount) (res : Reservation) : Prop where
  amount : 0 ≤ res.estAmt.value
  quantity : 0 ≤ res.estQty
  account : ∃ bal, t.get? res.billingRef = some bal ∧
    (res.estAmt.value = 0 ∨ res.estAmt.currency = bal.currency)

/-- What one call can do to the books, with the journal entries it adds. -/
inductive Move (b : Books) : Books → List Entry → Prop
  | idle : Move b b []
  | opened {ref currency : String} (absent : b.balances.get? ref = none) :
      Move b { b with balances := b.balances.insert ref ⟨0, currency⟩ } []
  | credited {ref currency : String} {v : ℚ} (keeps : b.KeepsCurrency ref currency)
      (pos : 0 < v) : Move b { b with balances := b.paid ref v currency } [.credited ref v]
  | held {id : String} {res : Reservation} {bal : Amount} {used : String → Prop}
      (fresh : ¬ b.used id) (grows : ∀ x, b.used x → used x) (taken : used id)
      (account : b.balances.get? res.billingRef = some bal) (nonneg : 0 ≤ res.estAmt.value)
      (fits : b.Fits res bal) (pos : 0 < res.estQty)
      (quota : ∀ q, b.quotas.get? res.billingRef = some q → res.estQty ≤ q) :
      Move b { b with
        quotas := b.adjustQuota res.billingRef (-res.estQty)
        reserved := b.reserved.insert id res
        used } []
  | recorded {id currency : String} {res : Reservation} (live : b.reserved.get? id = some res)
      (keeps : b.KeepsCurrency res.billingRef currency) :
      Move b { b with
        balances := b.paid res.billingRef (-res.estAmt.value) currency
        recorded := b.recorded.insert id ⟨res.billingRef, res.estAmt⟩
        reserved := b.reserved.erase id } [.recorded id res]
  | released {id : String} {res : Reservation} (live : b.reserved.get? id = some res) :
      Move b { b with
        quotas := b.adjustQuota res.billingRef res.estQty
        reserved := b.reserved.erase id } [.released id res]
  | refunded {id currency : String} {tx : RecordedTx} {v : ℚ}
      (settled : b.recorded.get? id = some tx) (pos : 0 < v)
      (cap : b.refundOf id + v ≤ tx.amt.value) (keeps : b.KeepsCurrency tx.billingRef currency) :
      Move b { b with
        balances := b.paid tx.billingRef v currency
        refunded := b.refunded.insert id (b.refundOf id + v) } [.refunded id tx.billingRef v]

/-- Money is conserved: each balance is its seed with the journal applied, and covers what is held
back from it. -/
structure Conserved (seed : Books) (js : List Entry) (b : Books) : Prop where
  balance : ∀ ref, b.balanceOf ref = seed.balanceOf ref + total js (Entry.credit ref) -
    total js (Entry.charge ref) + total js (Entry.refund ref)
  backed : ∀ id res, b.reserved.get? id = some res → Backed b.balances res
  covered : ∀ ref, b.liveAmount ref ≤ b.balanceOf ref
  quota : ∀ ref, (b.quotas.get? ref = none ∧ seed.quotas.get? ref = none) ∨
    ∃ q, b.quotas.get? ref = some q ∧ 0 ≤ q ∧ seed.quotas.get? ref =
      some (q + b.liveQuantity ref + total js (Entry.quantity ref))
  charged : ∀ id, total js (Entry.chargeOf id) = b.chargeOf id
  refunds : ∀ id, total js (Entry.refundOf id) = b.refundOf id
  cap : ∀ id, b.refundOf id ≤ b.chargeOf id
  once : ∀ id, js.countP (Entry.resolves id) ≤ 1
  unresolved : ∀ id res, b.reserved.get? id = some res → ∀ e ∈ js, e.resolves id = false
  reserved_used : ∀ id res, b.reserved.get? id = some res → b.used id
  resolved_used : ∀ id, ∀ e ∈ js, e.resolves id = true → b.used id

section

variable {b b' : Books} {ref currency : String} {v : ℚ}

theorem balanceOf_insert {bal : Amount} (h : b'.balances = b.balances.insert ref bal) (r : String) :
    b'.balanceOf r = if r = ref then bal.value else b.balanceOf r := by
  rw [balanceOf, h, Table.get?_insert]
  split_ifs <;> rfl

theorem balanceOf_paid (h : b'.balances = b.paid ref v currency) (r : String) :
    b'.balanceOf r = b.balanceOf r + if ref = r then v else 0 := by
  rw [balanceOf_insert h]
  by_cases hr : r = ref
  · simp [hr]
  · simp [hr, Ne.symm hr]

theorem Backed.insert {bal : Amount} {res : Reservation} (h : Backed b.balances res)
    (hcur : b.KeepsCurrency ref bal.currency) : Backed (b.balances.insert ref bal) res := by
  obtain ⟨bal', hbal, hres⟩ := h.account
  refine ⟨h.amount, h.quantity, ?_⟩
  rw [Table.get?_insert]
  split_ifs with hr
  · rw [hr] at hbal
    exact ⟨bal, rfl, by rwa [hcur bal' hbal]⟩
  · exact ⟨bal', hbal, hres⟩

end

section

variable {b : Books} {ref : String} {n : Int}

theorem get?_adjustQuota (r : String) : (b.adjustQuota ref n).get? r =
    if r = ref then (b.quotas.get? ref).map (· + n) else b.quotas.get? r := by
  unfold adjustQuota
  cases hq : b.quotas.get? ref with
  | none =>
    split_ifs with hr
    · rw [hr, hq]
      rfl
    · rfl
  | some q => exact Table.get?_insert _ _ _ _

end

variable {seed b : Books} {js : List Entry} {ref currency : String}

theorem Conserved.opened (h : Conserved seed js b) (absent : b.balances.get? ref = none) :
    Conserved seed js { b with balances := b.balances.insert ref ⟨0, currency⟩ } := by
  have hbal : ∀ r, balanceOf { b with balances := b.balances.insert ref ⟨0, currency⟩ } r =
      b.balanceOf r := by
    intro r
    rw [balanceOf_insert (b := b) rfl]
    split_ifs with hr
    · simp [balanceOf, hr, absent]
    · rfl
  refine ⟨fun r => (hbal r).trans (h.balance r), fun id res hl => ?_,
    fun r => (h.covered r).trans (hbal r).ge, h.quota, h.charged, h.refunds, h.cap, h.once,
    h.unresolved, h.reserved_used, h.resolved_used⟩
  exact (h.backed id res hl).insert fun bal hbal => absurd hbal (by simp [absent])

theorem Conserved.covered_paid (h : Conserved seed js b) {b' : Books} {v : ℚ} (pos : 0 < v)
    (hpaid : b'.balances = b.paid ref v currency) (r : String) :
    b.liveAmount r ≤ b'.balanceOf r := by
  rw [balanceOf_paid hpaid]
  refine (h.covered r).trans (le_add_of_nonneg_right ?_)
  split_ifs
  · exact pos.le
  · exact le_refl 0

theorem Conserved.credited (h : Conserved seed js b) {v : ℚ}
    (keeps : b.KeepsCurrency ref currency) (pos : 0 < v) :
    Conserved seed (js ++ [.credited ref v]) { b with balances := b.paid ref v currency } := by
  refine ⟨fun r => ?_, fun id res hl => (h.backed id res hl).insert keeps,
    h.covered_paid pos rfl, fun r => ?_, fun id => ?_, fun id => ?_, h.cap, fun id => ?_,
    fun id res hl => ?_,
    h.reserved_used, fun id => ?_⟩
  · rw [balanceOf_paid (b := b) rfl, h.balance]
    simp only [total_append, total_singleton, Entry.credit, Entry.charge, Entry.refund]
    ring
  · simpa [Entry.quantity, liveQuantity] using h.quota r
  · simp only [total_append, total_singleton, Entry.chargeOf, add_zero]
    exact h.charged id
  · simp only [total_append, total_singleton, Entry.refundOf, add_zero]
    exact h.refunds id
  · simpa [List.countP_append, Entry.resolves] using h.once id
  · simpa [Entry.resolves, or_imp, forall_and] using h.unresolved id res hl
  · simpa [Entry.resolves, or_imp, forall_and] using h.resolved_used id

variable {bal : Amount} {res : Reservation} {id : String} {e : Entry}

section

variable (h : Conserved seed js b)
include h

theorem Conserved.liveAmount_eq {ref : String} (account : b.balances.get? ref = some bal) :
    (b.reserved.sum fun _ r =>
      if r.billingRef = ref ∧ r.estAmt.currency = bal.currency then r.estAmt.value else 0) =
      b.liveAmount ref := by
  refine Table.sum_congr fun id r hr => ?_
  obtain ⟨bal', hbal', hcur⟩ := (h.backed id r hr).account
  by_cases href : r.billingRef = ref
  · rw [href, account] at hbal'
    cases hbal'
    rcases hcur with hz | hc
    · simp [hz]
    · simp [href, hc]
  · simp [href]

theorem Conserved.room (account : b.balances.get? res.billingRef = some bal)
    (fits : b.Fits res bal) :
    res.estAmt.value + b.liveAmount res.billingRef ≤ b.balanceOf res.billingRef := by
  rcases fits with hz | ⟨-, hle⟩
  · rw [hz, zero_add]
    exact h.covered _
  · rw [h.liveAmount_eq account, add_comm] at hle
    simpa [balanceOf, account] using hle

theorem Conserved.not_reserved (fresh : ¬ b.used id) : b.reserved.get? id = none := by
  cases hres : b.reserved.get? id with
  | none => rfl
  | some res => exact absurd (h.reserved_used id res hres) fresh

theorem Conserved.held {used : String → Prop} (fresh : ¬ b.used id) (grows : ∀ x, b.used x → used x)
    (taken : used id) (account : b.balances.get? res.billingRef = some bal)
    (nonneg : 0 ≤ res.estAmt.value) (fits : b.Fits res bal) (pos : 0 < res.estQty)
    (quota : ∀ q, b.quotas.get? res.billingRef = some q → res.estQty ≤ q) :
    Conserved seed js { b with
      quotas := b.adjustQuota res.billingRef (-res.estQty)
      reserved := b.reserved.insert id res
      used } := by
  have habsent := h.not_reserved fresh
  refine ⟨h.balance, fun id' res' hl => ?_, fun r => ?_, fun r => ?_, h.charged, h.refunds, h.cap,
    h.once, fun id' res' hl => ?_, fun id' res' hl => ?_,
    fun id' e he hr => grows id' (h.resolved_used id' e he hr)⟩
  · simp only [Table.get?_insert] at hl
    split_ifs at hl
    · cases hl
      exact ⟨nonneg, pos.le, bal, account, fits.imp_right And.left⟩
    · exact h.backed id' res' hl
  · rw [liveAmount, Table.sum_insert habsent]
    split_ifs with hr
    · exact hr ▸ h.room account fits
    · rw [zero_add]
      exact h.covered r
  · rw [liveQuantity, Table.sum_insert habsent, get?_adjustQuota]
    rcases h.quota r with ⟨hq, hs⟩ | ⟨q, hq, hpos, hs⟩
    · by_cases hr : r = res.billingRef
      · exact .inl ⟨by simp [← hr, hq], hs⟩
      · exact .inl ⟨by simp [hr, hq], hs⟩
    · by_cases hr : r = res.billingRef
      · subst hr
        have hle := quota q hq
        refine .inr ⟨q - res.estQty, by simp [hq, sub_eq_add_neg], by omega, ?_⟩
        rw [hs, if_pos rfl, liveQuantity]
        congr 1
        ring
      · exact .inr ⟨q, by simp [hr, hq], hpos, by simpa [Ne.symm hr, liveQuantity] using hs⟩
  · simp only [Table.get?_insert] at hl
    split_ifs at hl with hid
    · intro e he
      by_contra hr
      exact fresh (h.resolved_used id e he (by simpa [hid] using hr))
    · exact h.unresolved id' res' hl
  · simp only [Table.get?_insert] at hl
    split_ifs at hl with hid
    · exact hid ▸ taken
    · exact grows id' (h.reserved_used id' res' hl)

theorem Conserved.erase_unresolved (he : ∀ id', id' ≠ id → e.resolves id' = false) {id' : String}
    {res' : Reservation} (hl : (b.reserved.erase id).get? id' = some res') :
    b.reserved.get? id' = some res' ∧ ∀ e' ∈ js ++ [e], e'.resolves id' = false := by
  rw [Table.get?_erase] at hl
  split_ifs at hl with hid
  refine ⟨hl, fun e' he' => ?_⟩
  rcases List.mem_append.mp he' with he' | he'
  · exact h.unresolved id' res' hl e' he'
  · rw [List.mem_singleton.mp he']
    exact he id' hid

section

variable (live : b.reserved.get? id = some res)
include live

theorem Conserved.resolve_once (he : ∀ id', id' ≠ id → e.resolves id' = false) (id' : String) :
    (js ++ [e]).countP (Entry.resolves id') ≤ 1 := by
  rw [List.countP_append]
  by_cases hid : id' = id
  · subst hid
    rw [List.countP_eq_zero.mpr (by simpa using h.unresolved id' res live), zero_add]
    exact List.countP_le_length
  · simpa [List.countP_cons, he id' hid] using h.once id'

theorem Conserved.resolve_used (he : ∀ id', id' ≠ id → e.resolves id' = false) (id' : String) :
    ∀ e' ∈ js ++ [e], e'.resolves id' = true → b.used id' := by
  intro e' he' hr
  rcases List.mem_append.mp he' with he' | he'
  · exact h.resolved_used id' e' he' hr
  · by_cases hid : id' = id
    · exact hid ▸ h.reserved_used id res live
    · rw [List.mem_singleton.mp he', he id' hid] at hr
      exact absurd hr (by simp)

theorem Conserved.recorded {currency : String} (keeps : b.KeepsCurrency res.billingRef currency) :
    Conserved seed (js ++ [.recorded id res]) { b with
      balances := b.paid res.billingRef (-res.estAmt.value) currency
      recorded := b.recorded.insert id ⟨res.billingRef, res.estAmt⟩
      reserved := b.reserved.erase id } := by
  have hres : ∀ id', id' ≠ id → (Entry.recorded id res).resolves id' = false := by
    intro id' hne
    simpa [Entry.resolves] using Ne.symm hne
  have hzero : total js (Entry.chargeOf id) = 0 :=
    total_eq_zero fun e he => Entry.chargeOf_eq_zero (h.unresolved id res live e he)
  refine ⟨fun r => ?_, fun id' res' hl => ?_, fun r => ?_, fun r => ?_, fun id' => ?_,
    fun id' => ?_, fun id' => ?_, h.resolve_once live hres,
    fun id' res' hl => (h.erase_unresolved hres hl).2,
    fun id' res' hl => h.reserved_used id' res' (h.erase_unresolved hres hl).1,
    h.resolve_used live hres⟩
  · rw [balanceOf_paid (b := b) rfl, h.balance]
    simp only [total_append, total_singleton, Entry.credit, Entry.charge, Entry.refund]
    split_ifs <;> ring
  · exact (h.backed id' res' (h.erase_unresolved hres hl).1).insert keeps
  · have hc := h.covered r
    rw [liveAmount, Table.sum_erase live] at hc
    rw [balanceOf_paid (b := b) rfl, liveAmount]
    split_ifs at hc ⊢ <;> linarith
  · have hq := h.quota r
    simp only [liveQuantity, Table.sum_erase live] at hq
    simp only [liveQuantity, total_append, total_singleton, Entry.quantity]
    obtain hnone | ⟨q, hq, hpos, hs⟩ := hq
    · exact .inl hnone
    · exact .inr ⟨q, hq, hpos, hs.trans (by congr 1; ring)⟩
  · simp only [total_append, total_singleton, Entry.chargeOf, chargeOf, Table.get?_insert]
    by_cases hid : id' = id
    · simp [hid, hzero]
    · rw [if_neg hid, if_neg (Ne.symm hid), add_zero]
      exact h.charged id'
  · simp only [total_append, total_singleton, Entry.refundOf, add_zero]
    exact h.refunds id'
  · have hcap := h.cap id'
    rw [← h.charged] at hcap
    simp only [chargeOf, Table.get?_insert]
    by_cases hid : id' = id
    · subst hid
      rw [hzero] at hcap
      rw [if_pos rfl]
      exact hcap.trans (h.backed id' res live).amount
    · rw [if_neg hid]
      exact h.cap id'

theorem Conserved.released : Conserved seed (js ++ [.released id res]) { b with
      quotas := b.adjustQuota res.billingRef res.estQty
      reserved := b.reserved.erase id } := by
  have hres : ∀ id', id' ≠ id → (Entry.released id res).resolves id' = false := by
    intro id' hne
    simpa [Entry.resolves] using Ne.symm hne
  have hback := h.backed id res live
  refine ⟨fun r => ?_, fun id' res' hl => h.backed id' res' (h.erase_unresolved hres hl).1,
    fun r => ?_, fun r => ?_, fun id' => ?_, fun id' => ?_, h.cap, h.resolve_once live hres,
    fun id' res' hl => (h.erase_unresolved hres hl).2,
    fun id' res' hl => h.reserved_used id' res' (h.erase_unresolved hres hl).1,
    h.resolve_used live hres⟩
  · simp only [total_append, total_singleton, Entry.credit, Entry.charge, Entry.refund, add_zero]
    exact h.balance r
  · have hc := h.covered r
    have hv := hback.amount
    rw [liveAmount, Table.sum_erase live] at hc
    change (b.reserved.erase id).sum _ ≤ b.balanceOf r
    split_ifs at hc <;> linarith
  · have hq := h.quota r
    simp only [liveQuantity, Table.sum_erase live] at hq
    simp only [liveQuantity, total_append, total_singleton, Entry.quantity, get?_adjustQuota]
    rcases hq with ⟨hq, hs⟩ | ⟨q, hq, hpos, hs⟩
    · by_cases hr : r = res.billingRef
      · exact .inl ⟨by simp [← hr, hq], hs⟩
      · exact .inl ⟨by simp [hr, hq], hs⟩
    · by_cases hr : r = res.billingRef
      · subst hr
        have hqty := hback.quantity
        refine .inr ⟨q + res.estQty, by simp [hq], by omega, hs.trans ?_⟩
        rw [if_pos rfl]
        congr 1
        ring
      · refine .inr ⟨q, by simp [hr, hq], hpos, hs.trans ?_⟩
        rw [if_neg (Ne.symm hr), zero_add, add_zero]
  · simp only [total_append, total_singleton, Entry.chargeOf, add_zero]
    exact h.charged id'
  · simp only [total_append, total_singleton, Entry.refundOf, add_zero]
    exact h.refunds id'

end

theorem Conserved.refunded {currency : String} {tx : RecordedTx} {v : ℚ}
    (settled : b.recorded.get? id = some tx) (pos : 0 < v) (cap : b.refundOf id + v ≤ tx.amt.value)
    (keeps : b.KeepsCurrency tx.billingRef currency) :
    Conserved seed (js ++ [.refunded id tx.billingRef v]) { b with
      balances := b.paid tx.billingRef v currency
      refunded := b.refunded.insert id (b.refundOf id + v) } := by
  refine ⟨fun r => ?_, fun id' res hl => (h.backed id' res hl).insert keeps,
    h.covered_paid pos rfl, fun r => ?_, fun id' => ?_, fun id' => ?_, fun id' => ?_,
    fun id' => ?_, fun id' res hl => ?_,
    h.reserved_used, fun id' => ?_⟩
  · rw [balanceOf_paid (b := b) rfl, h.balance]
    simp only [total_append, total_singleton, Entry.credit, Entry.charge, Entry.refund]
    ring
  · simpa [Entry.quantity, liveQuantity] using h.quota r
  · simp only [total_append, total_singleton, Entry.chargeOf, add_zero]
    exact h.charged id'
  · simp only [total_append, total_singleton, Entry.refundOf, h.refunds, refundOf,
      Table.get?_insert]
    by_cases hid : id' = id
    · simp [hid]
    · simp [hid, Ne.symm hid]
  · simp only [refundOf, Table.get?_insert]
    by_cases hid : id' = id
    · subst hid
      simpa [chargeOf, settled, refundOf] using cap
    · rw [if_neg hid]
      exact h.cap id'
  · simpa [List.countP_append, Entry.resolves] using h.once id'
  · simpa [Entry.resolves, or_imp, forall_and] using h.unresolved id' res hl
  · simpa [Entry.resolves, or_imp, forall_and] using h.resolved_used id'

end

theorem Move.conserved {b' : Books} {es : List Entry} (hm : Move b b' es)
    (h : Conserved seed js b) : Conserved seed (js ++ es) b' := by
  cases hm with
  | idle => rwa [List.append_nil]
  | opened absent =>
    rw [List.append_nil]
    exact h.opened absent
  | credited keeps pos => exact h.credited keeps pos
  | held fresh grows taken account nonneg fits pos quota =>
    rw [List.append_nil]
    exact h.held fresh grows taken account nonneg fits pos quota
  | recorded live keeps => exact h.recorded live keeps
  | released live => exact h.released live
  | refunded settled pos cap keeps => exact h.refunded settled pos cap keeps

end Books

end Ramp.Billing
