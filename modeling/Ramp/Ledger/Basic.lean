import Mathlib.Algebra.BigOperators.Group.List.Basic
import Mathlib.Data.List.Nodup
import Ramp.Program.Schedule

/-! A double-entry ledger with two-phase transfers, its calls as a service, and what one call can
change. A linked chain of transfers is created as a whole or not at all; a call may fail with its
effect applied. -/

namespace Ramp.Ledger

/-- The flags of a transfer: plain, the first phase of two, or the second that posts or voids it. -/
inductive Kind
  | plain
  | pending
  | post
  | void
  deriving DecidableEq

structure Account (ID : Type) where
  id : ID
  ledger : Nat
  code : Nat
  debitsMustNotExceedCredits : Bool := false
  history : Bool := false
  deriving DecidableEq

/-- A transfer as it is submitted; the ledger sets `timestamp`, and fills in what a
post or void inherits from its pending transfer. An id of zero stands for none. -/
structure Transfer (ID : Type) where
  id : ID
  kind : Kind
  debit : ID
  credit : ID
  amount : Nat
  pendingID : ID
  userData128 : ID
  userData64 : Nat
  timeout : Nat
  ledger : Nat
  code : Nat
  linked : Bool
  timestamp : Nat
  deriving DecidableEq

inductive Status
  | created
  | linkedEventFailed
  | exists
  | existsWithDifferent
  | idAlreadyFailed
  | accountsMustBeDifferent
  | debitAccountNotFound
  | creditAccountNotFound
  | mustHaveTheSameLedger
  | pendingTransferNotFound
  | pendingTransferNotPending
  | exceedsPendingTransferAmount
  | pendingTransferAlreadyPosted
  | pendingTransferAlreadyVoided
  | pendingTransferExpired
  | exceedsCredits
  | exceedsDebits
  deriving DecidableEq

/-- A refusal that the same transfer could escape later. The ledger then burns the id. -/
def Status.transient : Status → Bool
  | .debitAccountNotFound | .creditAccountNotFound | .pendingTransferNotFound
  | .exceedsCredits | .exceedsDebits => true
  | _ => false

inductive AccountStatus
  | created
  | exists
  | existsWithDifferent
  deriving DecidableEq

def amountMax : Nat := 2 ^ 128 - 1

/-- `expired` holds the pending transfers that timed out, `failed` the ids burnt by a transient
refusal. Transfers are in the order of creation. -/
structure State (ID : Type) where
  accounts : List (Account ID) := []
  transfers : List (Transfer ID) := []
  expired : List ID := []
  failed : List ID := []
  deriving DecidableEq

structure Balances where
  debitsPending : Nat
  debitsPosted : Nat
  creditsPending : Nat
  creditsPosted : Nat
  deriving DecidableEq

variable {ID : Type}

namespace State

variable [DecidableEq ID] (s : State ID)

def account? (id : ID) : Option (Account ID) := s.accounts.find? fun a => a.id = id

def transfer? (id : ID) : Option (Transfer ID) := s.transfers.find? fun t => t.id = id

def resolvedBy (kind : Kind) (p : ID) : Bool :=
  s.transfers.any fun t => t.kind = kind ∧ t.pendingID = p

abbrev posted (p : ID) : Bool := s.resolvedBy .post p

abbrev voided (p : ID) : Bool := s.resolvedBy .void p

/-- Why a pending transfer can no longer be posted or voided: it is resolved at most once, and a
timeout resolves it too. -/
def resolution (p : ID) : Option Status :=
  if s.posted p then some .pendingTransferAlreadyPosted
  else if s.voided p then some .pendingTransferAlreadyVoided
  else if p ∈ s.expired then some .pendingTransferExpired
  else none

def Live (p : ID) : Prop := ∃ t ∈ s.transfers, t.id = p ∧ t.kind = .pending ∧ s.resolution p = none

instance (p : ID) : Decidable (s.Live p) :=
  inferInstanceAs (Decidable (∃ _ ∈ _, _))

def amounts (cond : Transfer ID → Bool) : Nat :=
  ((s.transfers.filter cond).map Transfer.amount).sum

/-- A pending transfer counts as pending until it is posted, voided or timed out. -/
def reserves (t : Transfer ID) : Bool := t.kind = .pending ∧ s.resolution t.id = none

def settles (t : Transfer ID) : Bool := t.kind = .plain ∨ t.kind = .post

def balances (a : ID) : Balances where
  debitsPending := s.amounts fun t => s.reserves t ∧ t.debit = a
  debitsPosted := s.amounts fun t => settles t ∧ t.debit = a
  creditsPending := s.amounts fun t => s.reserves t ∧ t.credit = a
  creditsPosted := s.amounts fun t => settles t ∧ t.credit = a

def nextTimestamp : Nat := s.transfers.length + 1

/-- A transfer that is sent again is compared with the stored one only in what its kind sets. -/
def repeats (t stored : Transfer ID) : Bool :=
  match t.kind with
  | .plain | .pending => { stored with timestamp := 0 } = t
  | .post => stored.kind = .post ∧ stored.linked = t.linked ∧ stored.pendingID = t.pendingID ∧
      (t.amount = stored.amount ∨ t.amount = amountMax ∧
        ((s.transfer? t.pendingID).map Transfer.amount) = some stored.amount)
  | .void => stored.kind = .void ∧ stored.linked = t.linked ∧ stored.pendingID = t.pendingID

/-- The checks on a transfer that names its own accounts, in the order of the ledger. -/
def checkAccounts (t : Transfer ID) : Except Status (Transfer ID) :=
  if t.debit = t.credit then .error .accountsMustBeDifferent
  else match s.account? t.debit, s.account? t.credit with
    | none, _ => .error .debitAccountNotFound
    | _, none => .error .creditAccountNotFound
    | some d, some c =>
      let b := s.balances t.debit
      if d.ledger ≠ c.ledger ∨ t.ledger ≠ d.ledger then .error .mustHaveTheSameLedger
      else if d.debitsMustNotExceedCredits ∧
          b.creditsPosted < b.debitsPending + b.debitsPosted + t.amount then
        .error .exceedsCredits
      else .ok { t with timestamp := s.nextTimestamp }

/-- A void, or a post of the largest amount, stands for all of the pending transfer. -/
def resolvedAmount (t p : Transfer ID) : Nat :=
  if t.kind = .void ∨ t.amount = amountMax then p.amount else t.amount

def inherited [Zero ID] (t p : Transfer ID) : Transfer ID :=
  { t with
    debit := p.debit
    credit := p.credit
    amount := resolvedAmount t p
    userData128 := if t.userData128 = 0 then p.userData128 else t.userData128
    ledger := p.ledger
    code := p.code
    timestamp := s.nextTimestamp }

/-- The checks on a post or void. It takes accounts, ledger and code from its pending transfer. -/
def checkPending [Zero ID] (t : Transfer ID) : Except Status (Transfer ID) :=
  match s.transfer? t.pendingID with
  | none => .error .pendingTransferNotFound
  | some p =>
    if p.kind ≠ .pending then .error .pendingTransferNotPending
    else if p.amount < resolvedAmount t p then .error .exceedsPendingTransferAmount
    else match s.resolution t.pendingID with
      | some status => .error status
      | none => .ok (s.inherited t p)

section

variable [Zero ID]

def check (t : Transfer ID) : Except Status (Transfer ID) :=
  match t.kind with
  | .plain | .pending => s.checkAccounts t
  | .post | .void => s.checkPending t

/-- Creates one transfer. An id is looked up before anything else is checked, so that a repeated
creation answers `exists` whatever has happened since. -/
def create (t : Transfer ID) : Except Status (State ID) :=
  match s.transfer? t.id with
  | some stored => .error (if s.repeats t stored then .exists else .existsWithDifferent)
  | none =>
    if t.id ∈ s.failed then .error .idAlreadyFailed
    else match s.check t with
      | .error status => .error status
      | .ok stored => .ok { s with transfers := s.transfers ++ [stored] }

/-- Creates a linked chain, or says which transfer failed first, by index and id. -/
def chain (s : State ID) : List (Transfer ID) → Except (Nat × ID × Status) (State ID)
  | [] => .ok s
  | t :: ts =>
    match s.create t with
    | .error status => .error (0, t.id, status)
    | .ok s' =>
      match chain s' ts with
      | .error (i, id, status) => .error (i + 1, id, status)
      | .ok s'' => .ok s''

/-- A failed chain leaves no transfer. Its other members answer `linkedEventFailed`. -/
def createTransfers (batch : List (Transfer ID)) : List Status × State ID :=
  match s.chain batch with
  | .ok s' => (batch.map fun _ => .created, s')
  | .error (i, id, status) =>
    ((batch.mapIdx fun j _ => if j = i then status else .linkedEventFailed),
      if status.transient then { s with failed := id :: s.failed } else s)

end

def createAccount (a : Account ID) : AccountStatus × State ID :=
  match s.account? a.id with
  | none => (.created, { s with accounts := s.accounts ++ [a] })
  | some stored => (if stored = a then .exists else .existsWithDifferent, s)

def expire (p : ID) : State ID := { s with expired := p :: s.expired }

end State

structure Filter (ID : Type) where
  account : ID
  userData128 : ID
  code : Nat
  timestampMin : Nat
  limit : Nat

def Filter.selects {ID : Type} [DecidableEq ID] (f : Filter ID) (t : Transfer ID) : Bool :=
  t.credit = f.account ∧ t.userData128 = f.userData128 ∧ t.code = f.code ∧
    f.timestampMin ≤ t.timestamp

/-- The first transfers into an account that the filter selects, oldest first. -/
def State.creditTransfers {ID : Type} [DecidableEq ID] (s : State ID) (f : Filter ID) :
    List (Transfer ID) :=
  (s.transfers.filter f.selects).take f.limit

inductive Op (ID : Type)
  | createAccount (a : Account ID)
  | createTransfers (batch : List (Transfer ID))
  | lookupTransfers (ids : List ID)
  | lookupAccount (id : ID)
  | creditTransfers (filter : Filter ID)

@[reducible] def Value {ID : Type} : Op ID → Type
  | .createAccount _ => AccountStatus
  | .createTransfers _ => List Status
  | .lookupTransfers _ => List (Transfer ID)
  | .lookupAccount _ => Option Balances
  | .creditTransfers _ => List (Transfer ID)

/-- The answer to a call. A call that fails may have been applied all the same. -/
inductive Reply (α : Type)
  | ok (a : α)
  | err (text : String) (unavailable applied : Bool)

abbrev Res {ID : Type} (op : Op ID) : Type := Reply (Value op)

instance {ID : Type} [DecidableEq ID] : (op : Op ID) → DecidableEq (Value op)
  | .createAccount _ => inferInstanceAs (DecidableEq AccountStatus)
  | .createTransfers _ => inferInstanceAs (DecidableEq (List Status))
  | .lookupTransfers _ => inferInstanceAs (DecidableEq (List (Transfer ID)))
  | .lookupAccount _ => inferInstanceAs (DecidableEq (Option Balances))
  | .creditTransfers _ => inferInstanceAs (DecidableEq (List (Transfer ID)))

namespace State

variable [DecidableEq ID] [Zero ID]

def value (s : State ID) : (op : Op ID) → Value op
  | .createAccount a => (s.createAccount a).1
  | .createTransfers batch => (s.createTransfers batch).1
  | .lookupTransfers ids => ids.filterMap s.transfer?
  | .lookupAccount id => (s.account? id).map fun a => s.balances a.id
  | .creditTransfers filter => s.creditTransfers filter

def effect (s : State ID) : Op ID → State ID
  | .createAccount a => (s.createAccount a).2
  | .createTransfers batch => (s.createTransfers batch).2
  | .lookupTransfers _ | .lookupAccount _ | .creditTransfers _ => s

/-- What a reply says about the ledger: a value is the one the ledger has, an error either way. -/
def step (op : Op ID) (s : State ID) : Res op → Option (State ID)
  | .ok v => if v = s.value op then some (s.effect op) else none
  | .err _ _ applied => some (if applied then s.effect op else s)

def answer (op : Op ID) (s : State ID) : Res op := .ok (s.value op)

@[simp] theorem step_answer (op : Op ID) (s : State ID) :
    step op s (answer op s) = some (s.effect op) := by
  simp [step, answer]

end State

/-- The ledger times out a pending transfer on its own, at any moment between two calls. -/
def Expiry {ID : Type} [DecidableEq ID] (s s' : State ID) : Prop :=
  ∃ t ∈ s.transfers, t.kind = .pending ∧ 0 < t.timeout ∧ s.resolution t.id = none ∧
    s' = s.expire t.id

instance {ID : Type} [DecidableEq ID] (s s' : State ID) : Decidable (Expiry s s') :=
  inferInstanceAs (Decidable (∃ _ ∈ _, _))

/-- The transfer `u` that is stored for a submitted `t`. -/
structure Stored (t u : Transfer ID) : Prop where
  id : u.id = t.id
  kind : u.kind = t.kind
  pendingID : u.pendingID = t.pendingID
  whole : t.kind = .plain ∨ t.kind = .pending → u = { t with timestamp := u.timestamp }

variable {id p : ID} {kind : Kind} {a : Account ID}

namespace State

variable {s s' : State ID}

/-- Nothing the ledger holds is ever removed. -/
structure Grows (s s' : State ID) : Prop where
  accounts : ∃ as, s'.accounts = s.accounts ++ as
  transfers : ∃ ts, s'.transfers = s.transfers ++ ts
  expired : s.expired ⊆ s'.expired

theorem Grows.refl (s : State ID) : Grows s s := ⟨⟨[], by simp⟩, ⟨[], by simp⟩, fun _ h => h⟩

theorem Grows.trans {s'' : State ID} (h : Grows s s') (h' : Grows s' s'') : Grows s s'' := by
  obtain ⟨⟨as, has⟩, ⟨ts, hts⟩, hexp⟩ := h
  obtain ⟨⟨as', has'⟩, ⟨ts', hts'⟩, hexp'⟩ := h'
  exact ⟨⟨as ++ as', by simp [has', has]⟩, ⟨ts ++ ts', by simp [hts', hts]⟩,
    fun _ h => hexp' (hexp h)⟩

variable {t : Transfer ID}

theorem Grows.mem (h : Grows s s') (ht : t ∈ s.transfers) : t ∈ s'.transfers := by
  obtain ⟨ts, hts⟩ := h.transfers
  rw [hts]
  exact List.mem_append_left _ ht

/-- Ids and timestamps are unique, only pending transfers are resolved or expired, and what
resolves one has its code. -/
structure WellFormed (s : State ID) : Prop where
  ids : (s.transfers.map Transfer.id).Nodup
  stamps : s.transfers.map Transfer.timestamp = List.range' 1 s.transfers.length
  resolves : ∀ t ∈ s.transfers, t.kind = .post ∨ t.kind = .void →
    ∃ p ∈ s.transfers, p.id = t.pendingID ∧ p.kind = .pending ∧ t.code = p.code
  expired : ∀ p ∈ s.expired, ∃ t ∈ s.transfers, t.id = p ∧ t.kind = .pending

theorem wellFormed_empty : ({} : State ID).WellFormed :=
  ⟨.nil, rfl, by simp, by simp⟩

variable [DecidableEq ID]

theorem transfer?_eq_none : s.transfer? id = none ↔ ∀ t ∈ s.transfers, t.id ≠ id := by
  simp [transfer?]

theorem transfer?_some (h : s.transfer? id = some t) : t ∈ s.transfers ∧ t.id = id :=
  ⟨List.mem_of_find?_eq_some h, by simpa using List.find?_some h⟩

theorem transfer?_isSome (h : t ∈ s.transfers) : (s.transfer? t.id).isSome := by
  rw [Option.isSome_iff_ne_none]
  exact fun hnone => transfer?_eq_none.mp hnone t h rfl

theorem resolvedBy_eq_true :
    s.resolvedBy kind p = true ↔ ∃ t ∈ s.transfers, t.kind = kind ∧ t.pendingID = p := by
  simp [resolvedBy]

theorem resolution_eq_none : s.resolution p = none ↔
    s.posted p = false ∧ s.voided p = false ∧ p ∉ s.expired := by
  unfold resolution
  cases s.posted p <;> cases s.voided p <;> by_cases hp : p ∈ s.expired <;> simp [hp]

theorem resolution_congr (htransfers : s'.transfers = s.transfers)
    (hexpired : s'.expired = s.expired) (p : ID) : s'.resolution p = s.resolution p := by
  simp only [resolution, resolvedBy, htransfers, hexpired]

theorem checkAccounts_ok {t u : Transfer ID} (h : s.checkAccounts t = .ok u) :
    u = { t with timestamp := s.nextTimestamp } ∧ (s.account? t.debit).isSome ∧
      (s.account? t.credit).isSome := by
  unfold checkAccounts at h
  split_ifs at h
  split at h
  · simp at h
  · simp at h
  next d c hd hc =>
    dsimp only at h
    split_ifs at h
    exact ⟨(Except.ok.inj h).symm, by simp [hd], by simp [hc]⟩

variable [Zero ID] {t u : Transfer ID} {op : Op ID}

theorem checkPending_ok (h : s.checkPending t = .ok u) :
    ∃ p, s.transfer? t.pendingID = some p ∧ p.kind = .pending ∧
      s.resolution t.pendingID = none ∧ u = s.inherited t p := by
  unfold checkPending at h
  split at h
  · simp at h
  next p hp =>
    split_ifs at h with hk ha
    split at h
    · simp at h
    next hres => exact ⟨p, hp, not_not.mp hk, hres, (Except.ok.inj h).symm⟩

theorem check_ok (h : s.check t = .ok u) :
    Stored t u ∧ u.timestamp = s.nextTimestamp ∧ (t.kind = .post ∨ t.kind = .void →
      ∃ p, s.transfer? t.pendingID = some p ∧ p.kind = .pending ∧ u.code = p.code) := by
  unfold check at h
  split at h
  case h_1 hk | h_2 hk =>
    obtain ⟨rfl, -, -⟩ := checkAccounts_ok h
    exact ⟨⟨rfl, rfl, rfl, fun _ => rfl⟩, rfl, by simp [hk]⟩
  case h_3 hk | h_4 hk =>
    obtain ⟨p, hp, hpend, -, rfl⟩ := checkPending_ok h
    exact ⟨⟨rfl, rfl, rfl, by simp [hk]⟩, rfl, fun _ => ⟨p, hp, hpend, rfl⟩⟩

theorem create_ok (h : s.create t = .ok s') : s.transfer? t.id = none ∧ ∃ u, s.check t = .ok u ∧
      s' = { s with transfers := s.transfers ++ [u] } := by
  unfold create at h
  split at h
  · simp at h
  next hnone =>
    split_ifs at h
    split at h
    · simp at h
    next u hu => exact ⟨hnone, u, hu, (Except.ok.inj h).symm⟩

theorem chain_preserves {P : State ID → Prop} {batch : List (Transfer ID)}
    (hstep : ∀ s t s', t ∈ batch → P s → s.create t = .ok s' → P s')
    (h : s.chain batch = .ok s') (hs : P s) : P s' := by
  induction batch generalizing s with
  | nil =>
    cases h
    exact hs
  | cons t ts ih =>
    unfold chain at h
    split at h
    · simp at h
    next s₁ hs₁ =>
      split at h
      · simp at h
      next s₂ hs₂ =>
        cases h
        exact ih (fun s t s' ht => hstep s t s' (List.mem_cons_of_mem _ ht)) hs₂
          (hstep s t s₁ List.mem_cons_self hs hs₁)

theorem chain_singleton : s.chain [t] = .ok s' ↔ s.create t = .ok s' := by
  cases h : s.create t with
  | error status => simp [chain, h]
  | ok s₁ => simp [chain, h]

theorem chain_pair {t' : Transfer ID} :
    s.chain [t, t'] = .ok s' ↔ ∃ s₁, s.create t = .ok s₁ ∧ s₁.create t' = .ok s' := by
  cases h : s.create t with
  | error status => simp [chain, h]
  | ok s₁ =>
    cases h' : s₁.create t' with
    | error status => simp [chain, h, h']
    | ok s₂ => simp [chain, h, h']

inductive Change (s : State ID) : Op ID → State ID → Prop
  | same {op : Op ID} {s' : State ID} (accounts : s'.accounts = s.accounts)
      (transfers : s'.transfers = s.transfers) (expired : s'.expired = s.expired) : Change s op s'
  | account {a : Account ID} (absent : s.account? a.id = none) :
      Change s (.createAccount a) { s with accounts := s.accounts ++ [a] }
  | chain {batch : List (Transfer ID)} {s' : State ID} (done : s.chain batch = .ok s') :
      Change s (.createTransfers batch) s'

theorem effect_change (op : Op ID) : Change s op (s.effect op) := by
  cases op with
  | createAccount a =>
    simp only [effect, createAccount]
    split
    next hnone => exact .account hnone
    · exact .same rfl rfl rfl
  | createTransfers batch =>
    simp only [effect, createTransfers]
    split
    next s' hs' => exact .chain hs'
    · split_ifs <;> exact .same rfl rfl rfl
  | lookupTransfers ids => exact .same rfl rfl rfl
  | lookupAccount id => exact .same rfl rfl rfl
  | creditTransfers filter => exact .same rfl rfl rfl

theorem step_ok {v : Value op} (h : step op s (.ok v) = some s') :
    v = s.value op ∧ s' = s.effect op := by
  simp only [step] at h
  split_ifs at h with hv
  exact ⟨hv, (Option.some.inj h).symm⟩

theorem step_change {r : Res op} (h : step op s r = some s') : Change s op s' := by
  cases r with
  | ok v =>
    rw [(step_ok h).2]
    exact effect_change op
  | err text unavailable applied =>
    simp only [step] at h
    split_ifs at h
    · rw [← Option.some.inj h]
      exact effect_change op
    · rw [← Option.some.inj h]
      exact .same rfl rfl rfl

section

variable (h : Change s op s')
include h

theorem Change.added :
    ∃ ts, s'.transfers = s.transfers ++ ts ∧ ∀ u ∈ ts, ∃ batch t, op = .createTransfers batch ∧
      s.chain batch = .ok s' ∧ t ∈ batch ∧ Stored t u := by
  cases h with
  | same accounts transfers expired => exact ⟨[], by simp [transfers], by simp⟩
  | account absent => exact ⟨[], by simp, by simp⟩
  | @chain batch _ done =>
    have hadded : ∃ ts, s'.transfers = s.transfers ++ ts ∧ ∀ u ∈ ts, ∃ t ∈ batch, Stored t u := by
      refine chain_preserves (P := fun s₁ => ∃ ts, s₁.transfers = s.transfers ++ ts ∧
        ∀ u ∈ ts, ∃ t ∈ batch, Stored t u) ?_ done ⟨[], by simp, by simp⟩
      rintro s₁ t s₂ ht ⟨ts, hts, hstored⟩ hc
      obtain ⟨-, u, hu, rfl⟩ := create_ok hc
      refine ⟨ts ++ [u], by simp [hts], List.forall_mem_append.mpr ⟨hstored, ?_⟩⟩
      exact List.forall_mem_singleton.mpr ⟨t, ht, (check_ok hu).1⟩
    obtain ⟨ts, hts, hstored⟩ := hadded
    refine ⟨ts, hts, fun u hu => ?_⟩
    obtain ⟨t, ht, hst⟩ := hstored u hu
    exact ⟨batch, t, rfl, done, ht, hst⟩

theorem Change.mem_transfers (hu : u ∈ s'.transfers) :
    u ∈ s.transfers ∨ ∃ batch t, op = .createTransfers batch ∧
      s.chain batch = .ok s' ∧ t ∈ batch ∧ Stored t u := by
  obtain ⟨ts, hts, hadded⟩ := h.added
  rw [hts] at hu
  exact (List.mem_append.mp hu).imp id (hadded u)

theorem Change.forall_transfers {P : Transfer ID → Prop} (hold : ∀ t ∈ s.transfers, P t)
    (hnew : ∀ batch t u, op = .createTransfers batch → t ∈ batch → Stored t u → P u) :
    ∀ t ∈ s'.transfers, P t := by
  intro u hu
  rcases h.mem_transfers hu with hmem | ⟨batch, t, hop, -, ht, hstored⟩
  · exact hold u hmem
  · exact hnew batch t u hop ht hstored

theorem Change.filter {cond : Transfer ID → Bool}
    (hnew : ∀ batch t u, op = .createTransfers batch → s.chain batch = .ok s' → t ∈ batch →
      Stored t u → u ∈ s'.transfers → cond u = false) :
    s'.transfers.filter cond = s.transfers.filter cond := by
  obtain ⟨ts, hts, hadded⟩ := h.added
  have hnone : ts.filter cond = [] := by
    refine List.filter_eq_nil_iff.mpr fun u hu => ?_
    obtain ⟨batch, t, hop, done, ht, hstored⟩ := hadded u hu
    have hmem : u ∈ s'.transfers := hts ▸ List.mem_append_right _ hu
    exact Bool.eq_false_iff.mp (hnew batch t u hop done ht hstored hmem)
  rw [hts, List.filter_append, hnone, List.append_nil]

theorem Change.account_cases (ha : s'.account? id = some a) :
    s.account? id = some a ∨ op = .createAccount a ∧ a.id = id := by
  cases h with
  | same accounts transfers expired => exact .inl (by rwa [account?, accounts] at ha)
  | @account b absent =>
    simp only [account?, List.find?_append, Option.or_eq_some_iff] at ha
    rcases ha with hold | ⟨-, hnew⟩
    · exact .inl hold
    · have hid := List.find?_some hnew
      obtain rfl := List.mem_singleton.mp (List.mem_of_find?_eq_some hnew)
      exact .inr ⟨rfl, by simpa using hid⟩
  | chain done =>
    refine .inl (Eq.trans ?_ ha)
    have haccounts : s'.accounts = s.accounts :=
      chain_preserves (P := fun s' => s'.accounts = s.accounts) (fun s₁ t s₂ _ hs hc => by
        obtain ⟨-, u, -, rfl⟩ := create_ok hc
        exact hs) done rfl
    rw [account?, account?, haccounts]

end

theorem create_grows {s₀ : State ID} (h : Grows s₀ s) (hc : s.create t = .ok s') : Grows s₀ s' := by
  obtain ⟨-, u, -, rfl⟩ := create_ok hc
  obtain ⟨ts, hts⟩ := h.transfers
  exact ⟨h.accounts, ⟨ts ++ [u], by simp [hts]⟩, h.expired⟩

theorem Change.grows (h : Change s op s') : Grows s s' := by
  cases h with
  | same accounts transfers expired =>
    exact ⟨⟨[], by simp [accounts]⟩, ⟨[], by simp [transfers]⟩, by simp [expired]⟩
  | account absent => exact ⟨⟨_, rfl⟩, ⟨[], by simp⟩, fun _ h => h⟩
  | chain done => exact chain_preserves (fun _ _ _ _ hg hc => create_grows hg hc) done (.refl s)

section

omit [Zero ID]

theorem Expiry.grows (h : Expiry s s') : Grows s s' := by
  obtain ⟨t, -, -, -, -, rfl⟩ := h
  exact ⟨⟨[], by simp [expire]⟩, ⟨[], by simp [expire]⟩, List.subset_cons_self _ _⟩

theorem Grows.transfer? (h : Grows s s') (ht : s.transfer? id = some t) :
    s'.transfer? id = some t := by
  obtain ⟨ts, hts⟩ := h.transfers
  rw [State.transfer?, hts, List.find?_append]
  simp only [State.transfer?] at ht
  simp [ht]

theorem Grows.account? (h : Grows s s') (ha : s.account? id = some a) :
    s'.account? id = some a := by
  obtain ⟨as, has⟩ := h.accounts
  rw [State.account?, has, List.find?_append]
  simp only [State.account?] at ha
  simp [ha]

theorem Grows.resolvedBy (h : Grows s s') (hp : s.resolvedBy kind p = true) :
    s'.resolvedBy kind p = true := by
  obtain ⟨t, ht, hk⟩ := resolvedBy_eq_true.mp hp
  exact resolvedBy_eq_true.mpr ⟨t, h.mem ht, hk⟩

end

theorem WellFormed.create (h : s.WellFormed) (hc : s.create t = .ok s') : s'.WellFormed := by
  obtain ⟨hnone, u, hu, rfl⟩ := create_ok hc
  obtain ⟨hst, hts, hpend⟩ := check_ok hu
  refine ⟨?_, ?_, ?_, ?_⟩
  · rw [List.map_append]
    refine h.ids.append (List.nodup_singleton _) fun id hid hu => ?_
    obtain ⟨v, hv, rfl⟩ := List.mem_map.mp hid
    exact transfer?_eq_none.mp hnone v hv ((List.mem_singleton.mp hu).trans hst.id)
  · rw [List.map_append, h.stamps, List.length_append, List.length_singleton,
      List.range'_1_concat]
    simp [hts, nextTimestamp, add_comm]
  · intro v hv hk
    rcases List.mem_append.mp hv with hv | hv
    · obtain ⟨p, hp, hrest⟩ := h.resolves v hv hk
      exact ⟨p, List.mem_append_left _ hp, hrest⟩
    · obtain rfl := List.mem_singleton.mp hv
      rw [hst.kind] at hk
      obtain ⟨p, hp, hkind, hcode⟩ := hpend hk
      obtain ⟨hmem, hid⟩ := transfer?_some hp
      exact ⟨p, List.mem_append_left _ hmem, hid.trans hst.pendingID.symm, hkind, hcode⟩
  · intro p hp
    obtain ⟨v, hv, hrest⟩ := h.expired p hp
    exact ⟨v, List.mem_append_left _ hv, hrest⟩

theorem WellFormed.change (h : s.WellFormed) (hc : Change s op s') : s'.WellFormed := by
  cases hc with
  | same accounts transfers expired =>
    obtain ⟨hi, hs, hr, he⟩ := h
    rw [← transfers] at hi hs hr he
    rw [← expired] at he
    exact ⟨hi, hs, hr, he⟩
  | account absent => exact ⟨h.ids, h.stamps, h.resolves, h.expired⟩
  | chain done => exact chain_preserves (fun _ _ _ _ hw hc => hw.create hc) done h

omit [Zero ID]

theorem WellFormed.expiry (h : s.WellFormed) (he : Expiry s s') : s'.WellFormed := by
  obtain ⟨t, ht, hk, -, -, rfl⟩ := he
  refine ⟨h.ids, h.stamps, h.resolves, fun p hp => ?_⟩
  rcases List.mem_cons.mp hp with rfl | hp
  · exact ⟨t, ht, rfl, hk⟩
  · exact h.expired p hp

theorem WellFormed.transfer? (h : s.WellFormed) (ht : t ∈ s.transfers) :
    s.transfer? t.id = some t := by
  cases hf : s.transfer? t.id with
  | none => exact absurd rfl (transfer?_eq_none.mp hf t ht)
  | some u =>
    obtain ⟨hu, hid⟩ := transfer?_some hf
    rw [List.inj_on_of_nodup_map h.ids hu ht hid]

end State

end Ramp.Ledger
