import Ramp.Billing.Books
import Ramp.Billing.Memory

/-! Runs of the in-memory adapter. Each call is a move of its books, so the
conservation law holds along every run in which billing ids do not repeat; the
counter they are numbered by has 64 bits. -/

namespace Ramp.Billing

namespace Call

def NonnegCost : Call → Prop
  | authorize req => 0 ≤ req.unitCost.value
  | _ => True

instance : DecidablePred NonnegCost
  | authorize req => inferInstanceAs (Decidable (0 ≤ req.unitCost.value))
  | ensureAgentAccount _ | credit _ _ _ | record _ _ _ | release _ _ | refund _ _ _ _ =>
    isTrue trivial

end Call

variable {req : AuthorizeRequest} {bal : Amount}

namespace InMemoryAdapter

variable (hash : String → String)

def books (a : InMemoryAdapter) : Books where
  balances := a.balances
  quotas := a.quotas
  reserved := a.reserved
  recorded := a.recorded
  refunded := a.refunded
  used id := ∃ n ≤ a.nextIdx.toNat, id = a.idPrefix ++ sixDigits n

/-- The journal entries of one call. A repeated or refused call has none. -/
def effect (a : InMemoryAdapter) : Call → List Entry
  | .ensureAgentAccount _ => []
  | .credit ref amount key =>
    if (a.credit hash ref amount key).1 = .ok () ∧ boundKey hash key ∉ a.creditSeen then
      [.credited ref (amount.value.getD 0)]
    else []
  | .authorize _ => []
  | .record id quantity key =>
    if (a.record hash id quantity key).1 = .ok () ∧ ¬ a.opAlreadyDone hash id .record key then
      (a.reserved.get? id).toList.map (.recorded id)
    else []
  | .release id key =>
    if (a.release hash id key).1 = .ok () ∧ ¬ a.opAlreadyDone hash id .release key then
      (a.reserved.get? id).toList.map (.released id)
    else []
  | .refund id amount reason key =>
    if (a.refund hash id amount reason key).1 = .ok () ∧
        ¬ a.opAlreadyDone hash id .refund key then
      (a.recorded.get? id).toList.map fun tx =>
        .refunded id tx.billingRef (amount.value.getD 0)
    else []

def journal (a : InMemoryAdapter) : List Call → List Entry
  | [] => []
  | c :: calls => a.effect hash c ++ journal (a.after hash c) calls

section

variable (a : InMemoryAdapter)

@[simp] theorem markOpDone_books (id : String) (op : OpName) (key : String) :
    (a.markOpDone hash id op key).books = a.books := by
  unfold markOpDone
  split_ifs <;> rfl

@[simp] theorem freeAuth_books (res : Reservation) : (a.freeAuth hash res).books = a.books := by
  unfold freeAuth
  split_ifs <;> rfl

theorem keepsCurrency_getD (ref currency : String) :
    a.books.KeepsCurrency ref ((a.balances.get? ref).getD ⟨0, currency⟩).currency := by
  intro bal h
  change a.balances.get? ref = some bal at h
  rw [h]
  rfl

theorem value_getD (ref currency : String) :
    ((a.balances.get? ref).getD ⟨0, currency⟩).value = a.books.balanceOf ref := by
  change _ = ((a.balances.get? ref).map Amount.value).getD 0
  cases a.balances.get? ref <;> rfl

end

section

variable (a : InMemoryAdapter)

theorem ensureAgentAccount_move (ref : String) :
    Books.Move a.books (a.ensureAgentAccount ref).2.books [] := by
  unfold ensureAgentAccount
  split_ifs
  · exact .idle
  · split
    · exact .idle
    next hnone => exact .opened hnone

theorem credit_move (ref : String) (amount : RawAmount) (key : String) :
    Books.Move a.books (a.credit hash ref amount key).2.books
      (a.effect hash (.credit ref amount key)) := by
  simp only [effect, credit]
  cases hv : validateCreditArgs ref amount key demoCurrency with
  | error e => simpa using .idle
  | ok value =>
    obtain ⟨hvalue, hpos, -⟩ := validateCreditArgs_ok hv
    by_cases hseen : boundKey hash key ∈ a.creditSeen
    · simpa [hseen] using .idle
    · simp only [hseen, if_false]
      split_ifs with hcur hok hok
      · simp at hok
      · exact .idle
      · rw [hvalue, value_getD]
        exact .credited (a.keepsCurrency_getD ref amount.currency) hpos
      · simp at hok

theorem record_move (id : String) (quantity : Int) (key : String) :
    Books.Move a.books (a.record hash id quantity key).2.books
      (a.effect hash (.record id quantity key)) := by
  simp only [effect, record]
  by_cases hdone : a.opAlreadyDone hash id .record key = true
  · simpa [hdone] using .idle
  · simp only [hdone]
    cases hres : a.reserved.get? id with
    | none => simpa using .idle
    | some res =>
      have hm : Books.Move a.books _ _ := .recorded hres (a.keepsCurrency_getD res.billingRef "")
      rw [Books.paid, ← sub_eq_add_neg, ← a.value_getD res.billingRef ""] at hm
      simp only [Bool.false_eq_true, if_false, if_true, and_self, not_false_eq_true,
        markOpDone_books, freeAuth_books, Option.toList_some, List.map_cons, List.map_nil]
      exact hm

theorem release_move (id key : String) :
    Books.Move a.books (a.release hash id key).2.books (a.effect hash (.release id key)) := by
  simp only [effect, release]
  by_cases hdone : a.opAlreadyDone hash id .release key = true
  · simpa [hdone] using .idle
  · simp only [hdone]
    cases hres : a.reserved.get? id with
    | none => simpa using .idle
    | some res =>
      simp only [Bool.false_eq_true, if_false, if_true, and_self, not_false_eq_true,
        markOpDone_books, freeAuth_books, Option.toList_some, List.map_cons, List.map_nil]
      exact .released hres

theorem validateRefund_ok {id : String} {amount : RawAmount} {tx : RecordedTx} {v : ℚ}
    (h : a.validateRefund id amount = .ok (tx, v)) :
    a.recorded.get? id = some tx ∧ amount.value = some v ∧ 0 < v ∧
      (a.refunded.get? id).getD 0 + v ≤ tx.amt.value := by
  unfold validateRefund at h
  split at h
  · split at h <;> simp at h
  next rec hrec =>
    split at h
    · simp at h
    next value hvalue =>
      split_ifs at h with hbad hcap
      cases h
      push Not at hbad hcap
      exact ⟨hrec, hvalue, hbad.1, hcap⟩

theorem refund_move (id : String) (amount : RawAmount) (reason key : String) :
    Books.Move a.books (a.refund hash id amount reason key).2.books
      (a.effect hash (.refund id amount reason key)) := by
  simp only [effect, refund]
  by_cases hdone : a.opAlreadyDone hash id .refund key = true
  · simpa [hdone] using .idle
  · simp only [hdone]
    cases hv : a.validateRefund id amount with
    | error e => simpa using .idle
    | ok x =>
      obtain ⟨hrec, hvalue, hpos, hcap⟩ := a.validateRefund_ok hv
      have hm : Books.Move a.books _ _ :=
        .refunded hrec hpos hcap (a.keepsCurrency_getD x.1.billingRef "")
      rw [Books.paid, ← a.value_getD x.1.billingRef ""] at hm
      simp only [Bool.false_eq_true, if_false, if_true, and_self, not_false_eq_true, hrec, hvalue,
        markOpDone_books, Option.toList_some, List.map_cons, List.map_nil, Option.getD_some]
      exact hm

theorem consumeQuota_ok {a' : InMemoryAdapter} (h : a.consumeQuota req = .ok a') :
    a' = { a with quotas := a.books.adjustQuota req.billingRef (-req.quantity) } ∧
      ∀ q, a.quotas.get? req.billingRef = some q → req.quantity ≤ q := by
  unfold consumeQuota at h
  split at h
  next hnone =>
    cases h
    simp [Books.adjustQuota, books, hnone]
  next q hq =>
    split_ifs at h with hlt
    cases h
    refine ⟨?_, fun q' hq' => ?_⟩
    · simp [Books.adjustQuota, books, hq, sub_eq_add_neg]
    · obtain rfl := Option.some.inj (hq.symm.trans hq')
      exact not_lt.mp hlt

theorem checkCurrencyAndBalance_none {charge : ℚ}
    (h : a.checkCurrencyAndBalance req bal charge = none) : req.unitCost.currency = bal.currency ∧
      (a.reserved.sum fun _ r => if r.billingRef = req.billingRef ∧
        r.estAmt.currency = bal.currency then r.estAmt.value else 0) + charge ≤ bal.value := by
  unfold checkCurrencyAndBalance at h
  dsimp only at h
  split_ifs at h with hcur hlt
  refine ⟨(not_not.mp hcur).symm, ?_⟩
  linarith [not_lt.mp hlt]

theorem authorize_move (hcost : 0 ≤ req.unitCost.value) (hnext : a.nextIdx.toNat + 1 < 2 ^ 64) :
    Books.Move a.books (a.authorize hash req).2.books [] := by
  unfold authorize
  split
  · exact .idle
  · split
    · exact .idle
    next bal hbal =>
      split_ifs with hqty
      · exact .idle
      · have hpos : 0 < req.quantity := not_le.mp hqty
        have hcharge : 0 ≤ (totalCharge req.unitCost req.quantity).value :=
          mul_nonneg hcost (by exact_mod_cast hpos.le)
        dsimp only
        split
        · exact .idle
        next hgate =>
          split
          · exact .idle
          next a' ha' =>
            obtain ⟨rfl, hquota⟩ := a.consumeQuota_ok ha'
            have hsucc := Memory.nextIdx_succ (m := a.memory) hnext
            refine @Books.Move.held a.books _ ⟨req.billingRef, ⟨_, _⟩, _, _⟩ bal _
              (Memory.nextID_unused (m := a.memory) hnext) ?_ ⟨_, le_refl _, rfl⟩ hbal
              hcharge ?_ hpos hquota
            · rintro id ⟨n, hle, hid⟩
              exact ⟨n, hle.trans ((Nat.le_succ _).trans hsucc.ge), hid⟩
            split_ifs at hgate with hzero
            · exact .inl hzero
            · exact .inr (a.checkCurrencyAndBalance_none hgate)

end

section

variable (a : InMemoryAdapter)

theorem after_move {c : Call} (hcost : c.NonnegCost)
    (hnext : c.isAuthorize = true → a.nextIdx.toNat + 1 < 2 ^ 64) :
    Books.Move a.books (a.after hash c).books (a.effect hash c) := by
  cases c with
  | ensureAgentAccount ref => exact a.ensureAgentAccount_move ref
  | credit ref amount key => exact credit_move hash a ref amount key
  | authorize req => exact authorize_move hash a hcost (hnext rfl)
  | record id quantity key => exact record_move hash a id quantity key
  | release id key => exact release_move hash a id key
  | refund id amount reason key => exact refund_move hash a id amount reason key

theorem run_conserved {seed : Books} {js : List Entry} {calls : List Call}
    (hcost : ∀ c ∈ calls, c.NonnegCost)
    (hfew : a.nextIdx.toNat + calls.countP Call.isAuthorize < 2 ^ 64)
    (h : Books.Conserved seed js a.books) :
    Books.Conserved seed (js ++ journal hash a calls) (run hash a calls).books := by
  induction calls generalizing a js with
  | nil => simpa [journal, run] using h
  | cons c calls ih =>
    have hc : Books.Conserved seed (js ++ a.effect hash c) (a.after hash c).books := by
      refine (after_move hash a (hcost c List.mem_cons_self) fun hauth => ?_).conserved h
      rw [List.countP_cons, hauth, if_pos rfl] at hfew
      omega
    have hnext : (a.after hash c).nextIdx.toNat + calls.countP Call.isAuthorize < 2 ^ 64 := by
      exact (after_step c).nextIdx_le hfew
    have hrun := ih (a.after hash c) (fun d hd => hcost d (List.mem_cons_of_mem _ hd)) hnext hc
    rwa [List.append_assoc] at hrun

theorem new_conserved {opts : InMemoryOptions}
    (hbal : ∀ ref bal, opts.balances.get? ref = some bal → 0 ≤ bal.value)
    (hquota : ∀ ref q, opts.quotas.get? ref = some q → 0 ≤ q) :
    Books.Conserved (new opts).books [] (new opts).books := by
  refine ⟨fun ref => by simp, fun id res hl => by simp [books, new] at hl, fun ref => ?_,
    fun ref => ?_, fun id => rfl, fun id => rfl, fun id => le_refl _, fun id => by simp,
    fun id res hl => by simp, fun id res hl => by simp [books, new] at hl, fun id => by simp⟩
  · change 0 ≤ ((opts.balances.get? ref).map Amount.value).getD 0
    cases hb : opts.balances.get? ref with
    | none => exact le_refl 0
    | some bal => exact hbal ref bal hb
  · change (opts.quotas.get? ref = none ∧ opts.quotas.get? ref = none) ∨
      ∃ q, opts.quotas.get? ref = some q ∧ 0 ≤ q ∧ opts.quotas.get? ref = some (q + 0 + 0)
    cases hq : opts.quotas.get? ref with
    | none => exact .inl ⟨rfl, rfl⟩
    | some q => exact .inr ⟨q, rfl, hquota ref q hq, by simp⟩

end

/-- Along every run with fewer than `2 ^ 64` authorizations, money and quota are
conserved, live reservations are covered, refunds stay within their charge and
no billing id is resolved twice. -/
theorem inMemory_conserves (opts : InMemoryOptions)
    (hbal : ∀ ref bal, opts.balances.get? ref = some bal → 0 ≤ bal.value)
    (hquota : ∀ ref q, opts.quotas.get? ref = some q → 0 ≤ q) {calls : List Call}
    (hcost : ∀ c ∈ calls, c.NonnegCost) (hfew : calls.countP Call.isAuthorize < 2 ^ 64) :
    let js := journal hash (new opts) calls
    let b := (run hash (new opts) calls).books
    (∀ ref, b.balanceOf ref = (new opts).books.balanceOf ref + total js (Entry.credit ref) -
      total js (Entry.charge ref) + total js (Entry.refund ref)) ∧
    (∀ ref, b.liveAmount ref ≤ b.balanceOf ref) ∧
    (∀ id, total js (Entry.refundOf id) ≤ total js (Entry.chargeOf id)) ∧
    (∀ ref q₀, opts.quotas.get? ref = some q₀ → ∃ q, b.quotas.get? ref = some q ∧ 0 ≤ q ∧
      q + b.liveQuantity ref + total js (Entry.quantity ref) = q₀) ∧
    ∀ id, js.countP (Entry.resolves id) ≤ 1 := by
  have h := run_conserved hash (new opts) hcost (by simpa [new] using hfew)
    (new_conserved hbal hquota)
  rw [List.nil_append] at h
  refine ⟨h.balance, h.covered, fun id => ?_, fun ref q₀ hq₀ => ?_, h.once⟩
  · rw [h.refunds, h.charged]
    exact h.cap id
  · rcases h.quota ref with ⟨-, hnone⟩ | ⟨q, hq, hpos, hs⟩
    · exact absurd (hq₀.symm.trans hnone) (by simp)
    · exact ⟨q, hq, hpos, (Option.some.inj (hq₀.symm.trans hs)).symm⟩

theorem journal_append (a : InMemoryAdapter) (calls calls' : List Call) :
    journal hash a (calls ++ calls') =
      journal hash a calls ++ journal hash (run hash a calls) calls' := by
  induction calls generalizing a with
  | nil => rfl
  | cons c calls ih => rw [List.cons_append, journal, journal, ih, List.append_assoc]; rfl

abbrev oneDollar : InMemoryOptions where
  balances := (∅ : Table String Amount).insert "ref" ⟨1, "USD"⟩

theorem oneDollar_nonneg {ref : String} (h : oneDollar.balances.get? ref = some bal) :
    0 ≤ bal.value := by
  rw [Table.get?_insert] at h
  split_ifs at h
  · cases h
    exact zero_le_one
  · exact absurd h (by simp)

abbrev onePage : AuthorizeRequest := ⟨"", "ref", ⟨1, "USD"⟩, 1, "page", "", "", 0⟩

abbrev pageHold : Reservation := ⟨"ref", ⟨1, "USD"⟩, 1, ""⟩

/-- The adapter after `n` reservations that were all released. -/
def rested (n : Nat) : InMemoryAdapter := { new oneDollar with nextIdx := UInt64.ofNat n }

def pageID (n : Nat) : String := "bill-" ++ sixDigits (UInt64.ofNat n).toNat

/-- Reserves a page and releases it, `n` times over. -/
def cycles (n : Nat) : List Call :=
  (List.range n).flatMap fun i => [.authorize onePage, .release (pageID (i + 1)) ""]

theorem rested_authorize (n : Nat) : (rested n).after hash (.authorize onePage) =
    { rested (n + 1) with
      reserved := (∅ : Table String Reservation).insert (pageID (n + 1)) pageHold } := by
  simp [after, authorize, liveAuth, rested, new, Table.get?_insert, totalCharge,
    checkCurrencyAndBalance, consumeQuota, reserve, billingID, pageID]

theorem held_release (n : Nat) :
    let a := { rested (n + 1) with
      reserved := (∅ : Table String Reservation).insert (pageID (n + 1)) pageHold }
    a.after hash (.release (pageID (n + 1)) "") = rested (n + 1) ∧
      a.effect hash (.release (pageID (n + 1)) "") = [.released (pageID (n + 1)) pageHold] := by
  simp [after, effect, release, opAlreadyDone, Table.get?_insert, freeAuth, markOpDone,
    restoredQuotas, rested, new, Table.erase_insert_empty]

theorem cycles_succ (n : Nat) : cycles (n + 1) =
    cycles n ++ [.authorize onePage, .release (pageID (n + 1)) ""] := by
  simp [cycles, List.range_succ, List.flatMap_append]

theorem run_cycles (n : Nat) : run hash (rested 0) (cycles n) = rested n ∧
    journal hash (rested 0) (cycles n) =
      (List.range n).map fun i => .released (pageID (i + 1)) pageHold := by
  induction n with
  | zero => exact ⟨rfl, rfl⟩
  | succ n ih =>
    obtain ⟨hrun, heffect⟩ := held_release hash n
    rw [cycles_succ, run_append, journal_append, ih.1, ih.2, List.range_succ, List.map_append]
    simp only [run, List.foldl_cons, List.foldl_nil, journal, rested_authorize, hrun, heffect]
    exact ⟨trivial, rfl⟩

theorem first_released_twice {n : Nat} (hn : 0 < n) (hsame : pageID (n + 1) = pageID 1) :
    1 < ((List.range (n + 1)).map fun i => Entry.released (pageID (i + 1)) pageHold).countP
      (Entry.resolves (pageID 1)) := by
  obtain ⟨m, rfl⟩ := Nat.exists_eq_succ_of_ne_zero hn.ne'
  rw [List.range_succ, List.range_succ_eq_map]
  simp only [List.map_append, List.map_cons, List.map_nil, List.countP_append, List.countP_cons,
    List.countP_nil, Entry.resolves, zero_add, decide_true, if_true]
  have hlast : pageID (m.succ + 1) = pageID 1 := hsame
  simp only [hlast, decide_true, if_true]
  omega

/-- After `2 ^ 64` holds the counter is back at its first id, which is then
released a second time. -/
theorem billing_id_released_twice : ∃ calls : List Call,
    (∀ ref bal, oneDollar.balances.get? ref = some bal → 0 ≤ bal.value) ∧
    (∀ c ∈ calls, c.NonnegCost) ∧ 1 < (journal id (new oneDollar) calls).countP
      (Entry.resolves ("bill-" ++ sixDigits 1)) := by
  refine ⟨cycles (2 ^ 64 + 1), fun _ _ => oneDollar_nonneg, fun c hc => ?_, ?_⟩
  · obtain ⟨i, -, hc⟩ := List.mem_flatMap.mp hc
    rcases List.mem_pair.mp hc with rfl | rfl
    · exact zero_le_one
    · trivial
  · have hsame : pageID (2 ^ 64 + 1) = pageID 1 := by
      rw [pageID, pageID, UInt64.toNat_ofNat', UInt64.toNat_ofNat', Nat.add_mod_left]
    have htwice := first_released_twice (Nat.two_pow_pos 64) hsame
    rw [← (run_cycles id (2 ^ 64 + 1)).2] at htwice
    exact htwice

abbrev purchase : List Call :=
  [.credit "ref" ⟨some 2, "USD"⟩ "grant", .authorize { onePage with idempotencyKey := "k" },
    .record "bill-000001" 1 "k", .refund "bill-000001" ⟨some (1 / 2), "USD"⟩ "late" "r"]

theorem purchase_conserves : journal id (new oneDollar) purchase =
      [.credited "ref" 2, .recorded "bill-000001" ⟨"ref", ⟨1, "USD"⟩, 1, "k"⟩,
        .refunded "bill-000001" "ref" (1 / 2)] ∧
    (run id (new oneDollar) purchase).books.balanceOf "ref" =
      (new oneDollar).books.balanceOf "ref" +
        total (journal id (new oneDollar) purchase) (Entry.credit "ref") -
        total (journal id (new oneDollar) purchase) (Entry.charge "ref") +
        total (journal id (new oneDollar) purchase) (Entry.refund "ref") := by
  refine ⟨by decide +kernel, ?_⟩
  exact (inMemory_conserves id oneDollar (fun _ _ => oneDollar_nonneg) (by simp)
    (by decide +kernel) (by decide)).1 "ref"

end InMemoryAdapter

end Ramp.Billing
