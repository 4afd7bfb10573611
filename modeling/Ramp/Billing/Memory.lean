import Ramp.Billing.InMemory

/-! Calls of the in-memory adapter, and what it remembers of them: its live holds, the slots by
which it recognises a call that it has served before, and the last id it handed out. -/

namespace Ramp.Billing

/-- The calls of the in-memory adapter that write. -/
inductive Call
  | ensureAgentAccount (billingRef : String)
  | credit (billingRef : String) (amount : RawAmount) (key : String)
  | authorize (req : AuthorizeRequest)
  | record (id : String) (quantity : Int) (key : String)
  | release (id key : String)
  | refund (id : String) (amount : RawAmount) (reason key : String)

inductive Method
  | ensureAgentAccount
  | credit
  | authorize
  | record
  | release
  | refund
  deriving DecidableEq

/-- An entry of one of the three maps by which the adapter recognises a repeated call. -/
inductive DedupSlot
  | auth (text : String)
  | op (text : String)
  | credit (text : String)

def OpName.method : OpName → Method
  | .record => .record
  | .release => .release
  | .refund => .refund

namespace Call

def isAuthorize : Call → Bool
  | authorize _ => true
  | _ => false

def method : Call → Method
  | ensureAgentAccount _ => .ensureAgentAccount
  | credit _ _ _ => .credit
  | authorize _ => .authorize
  | record _ _ _ => .record
  | release _ _ => .release
  | refund _ _ _ _ => .refund

def name : Call → String
  | ensureAgentAccount ref => ref
  | credit ref _ _ => ref
  | authorize req => req.billingRef
  | record id _ _ => id
  | release id _ => id
  | refund id _ _ _ => id

def key : Call → String
  | ensureAgentAccount _ => ""
  | credit _ _ key => key
  | authorize req => req.idempotencyKey
  | record _ _ key => key
  | release _ key => key
  | refund _ _ _ key => key

end Call

namespace InMemoryAdapter

variable (hash : String → String)

def after (a : InMemoryAdapter) : Call → InMemoryAdapter
  | .ensureAgentAccount ref => (a.ensureAgentAccount ref).2
  | .credit ref amount key => (a.credit hash ref amount key).2
  | .authorize req => (a.authorize hash req).2
  | .record id quantity key => (a.record hash id quantity key).2
  | .release id key => (a.release hash id key).2
  | .refund id amount reason key => (a.refund hash id amount reason key).2

def run (a : InMemoryAdapter) (calls : List Call) : InMemoryAdapter := calls.foldl (after hash) a

def opSlot (id : String) (op : OpName) (key : String) : Option DedupSlot :=
  if key = "" then none else some (.op (opKey hash id op key))

/-- The entry a call is recognised by; none for a call without a key. -/
def slot : Call → Option DedupSlot
  | .ensureAgentAccount _ => none
  | .credit _ _ key => some (.credit (boundKey hash key))
  | .authorize req =>
    if req.idempotencyKey = "" then none
    else some (.auth (authMapKey hash req.billingRef req.idempotencyKey))
  | .record id _ key => opSlot hash id .record key
  | .release id key => opSlot hash id .release key
  | .refund id _ _ key => opSlot hash id .refund key

/-- The adapter answers the call from what it remembers. -/
def replays (a : InMemoryAdapter) : Call → Bool
  | .ensureAgentAccount _ => false
  | .credit ref amount key =>
    (validateCreditArgs ref amount key demoCurrency).isOk ∧ boundKey hash key ∈ a.creditSeen
  | .authorize req => (a.liveAuth hash req).isSome
  | .record id _ key => a.opAlreadyDone hash id .record key
  | .release id key => a.opAlreadyDone hash id .release key
  | .refund id _ _ key => a.opAlreadyDone hash id .refund key

def succeeds (a : InMemoryAdapter) : Call → Bool
  | .ensureAgentAccount ref => (a.ensureAgentAccount ref).1.isOk
  | .credit ref amount key => (a.credit hash ref amount key).1.isOk
  | .authorize req => (a.authorize hash req).1.approved
  | .record id quantity key => (a.record hash id quantity key).1.isOk
  | .release id key => (a.release hash id key).1.isOk
  | .refund id amount reason key => (a.refund hash id amount reason key).1.isOk

end InMemoryAdapter

/-- The part of the adapter that recognises repeated calls. -/
structure Memory where
  reserved : Table String Reservation
  authSeen : Table String String
  opSeen : List String
  creditSeen : List String
  nextIdx : UInt64
  idPrefix : String

namespace Memory

open InMemoryAdapter (slot opSlot opKey boundKey authMapKey)

variable (hash : String → String) (m : Memory)

def Seen : DedupSlot → Prop
  | .auth text => (m.authSeen.get? text).isSome
  | .op text => text ∈ m.opSeen
  | .credit text => text ∈ m.creditSeen

def mark (id : String) (op : OpName) (key : String) : Memory :=
  if key = "" then m else { m with opSeen := m.opSeen.insert (opKey hash id op key) }

def free (res : Reservation) : Memory :=
  if res.authKey = "" then m
  else { m with authSeen := m.authSeen.erase (authMapKey hash res.billingRef res.authKey) }

def nextID : String := m.idPrefix ++ sixDigits (m.nextIdx + 1).toNat

def hold (res : Reservation) : Memory :=
  { m with
    nextIdx := m.nextIdx + 1
    reserved := m.reserved.insert m.nextID res
    authSeen := if res.authKey = "" then m.authSeen
      else m.authSeen.insert (authMapKey hash res.billingRef res.authKey) m.nextID }

def settle (id : String) (res : Reservation) (op : OpName) (key : String) : Memory :=
  (Memory.free hash { m with reserved := m.reserved.erase id } res).mark hash id op key

/-- What one call can do to the memory, by whether it succeeds. -/
inductive Step (m : Memory) : Call → Bool → Memory → Prop
  | refused {c : Call} : Step m c false m
  | replayed {c : Call} {s : DedupSlot} (hslot : slot hash c = some s) (hseen : m.Seen s) :
      Step m c true m
  | opened {ref : String} : Step m (.ensureAgentAccount ref) true m
  | credited {ref key : String} {amount : RawAmount} :
      Step m (.credit ref amount key) true
        { m with creditSeen := m.creditSeen.insert (boundKey hash key) }
  | held {req : AuthorizeRequest} {res : Reservation} (href : res.billingRef = req.billingRef)
      (hkey : res.authKey = req.idempotencyKey)
      (hnew : ∀ s, slot hash (.authorize req) = some s → ¬ m.Seen s) :
      Step m (.authorize req) true (m.hold hash res)
  | recorded {id key : String} {quantity : Int} {res : Reservation}
      (hlive : m.reserved.get? id = some res) :
      Step m (.record id quantity key) true (m.settle hash id res .record key)
  | released {id key : String} {res : Reservation} (hlive : m.reserved.get? id = some res) :
      Step m (.release id key) true (m.settle hash id res .release key)
  | refunded {id reason key : String} {amount : RawAmount} :
      Step m (.refund id amount reason key) true (m.mark hash id .refund key)

end Memory

namespace InMemoryAdapter

variable (hash : String → String)

def memory (a : InMemoryAdapter) : Memory where
  reserved := a.reserved
  authSeen := a.authSeen
  opSeen := a.opSeen
  creditSeen := a.creditSeen
  nextIdx := a.nextIdx
  idPrefix := a.idPrefix

variable {hash} {a : InMemoryAdapter}

theorem markOpDone_memory (id : String) (op : OpName) (key : String) :
    (a.markOpDone hash id op key).memory = a.memory.mark hash id op key := by
  unfold markOpDone Memory.mark
  split_ifs <;> rfl

theorem freeAuth_memory (res : Reservation) :
    (a.freeAuth hash res).memory = a.memory.free hash res := by
  unfold freeAuth Memory.free
  split_ifs <;> rfl

theorem seen_of_opAlreadyDone {id key : String} {op : OpName}
    (h : a.opAlreadyDone hash id op key = true) :
    ∃ s, opSlot hash id op key = some s ∧ a.memory.Seen s := by
  obtain ⟨hkey, hmem⟩ := of_decide_eq_true h
  exact ⟨.op (opKey hash id op key), if_neg hkey, hmem⟩

theorem seen_of_replays {c : Call} (h : a.replays hash c = true) :
    ∃ s, slot hash c = some s ∧ a.memory.Seen s := by
  cases c with
  | ensureAgentAccount ref => cases h
  | credit ref amount key => exact ⟨_, rfl, (of_decide_eq_true h).2⟩
  | authorize req =>
    simp only [replays, liveAuth] at h
    split_ifs at h with hkey
    · cases h
    · exact ⟨_, if_neg hkey, h⟩
  | record id quantity key => exact seen_of_opAlreadyDone h
  | release id key => exact seen_of_opAlreadyDone h
  | refund id amount reason key => exact seen_of_opAlreadyDone h

theorem ensureAgentAccount_step (ref : String) : Memory.Step hash a.memory (.ensureAgentAccount ref)
      (a.succeeds hash (.ensureAgentAccount ref)) (a.ensureAgentAccount ref).2.memory := by
  simp only [succeeds]
  unfold ensureAgentAccount
  split_ifs
  · exact .refused
  · split
    · exact .opened
    · exact .opened

theorem credit_step (ref : String) (amount : RawAmount) (key : String) :
    Memory.Step hash a.memory (.credit ref amount key)
      (a.succeeds hash (.credit ref amount key)) (a.credit hash ref amount key).2.memory := by
  simp only [succeeds]
  unfold credit
  split
  · exact .refused
  · by_cases hseen : boundKey hash key ∈ a.creditSeen
    · rw [if_pos hseen]
      exact .replayed rfl hseen
    · rw [if_neg hseen]
      dsimp only
      split_ifs
      · exact .refused
      · exact .credited

theorem step_unless_done {id key : String} {op : OpName} {c : Call}
    {out : Except BillingError Unit × InMemoryAdapter} (hslot : slot hash c = opSlot hash id op key)
    (h : Memory.Step hash a.memory c out.1.isOk out.2.memory) :
    Memory.Step hash a.memory c (if a.opAlreadyDone hash id op key then (.ok (), a) else out).1.isOk
      (if a.opAlreadyDone hash id op key then (.ok (), a) else out).2.memory := by
  split_ifs with hdone
  · obtain ⟨s, hs, hseen⟩ := seen_of_opAlreadyDone hdone
    exact .replayed (hslot.trans hs) hseen
  · exact h

theorem record_step (id : String) (quantity : Int) (key : String) :
    Memory.Step hash a.memory (.record id quantity key)
      (a.succeeds hash (.record id quantity key)) (a.record hash id quantity key).2.memory := by
  simp only [succeeds]
  unfold record
  refine step_unless_done rfl ?_
  split
  · exact .refused
  · next res hlive =>
    simp only [markOpDone_memory, freeAuth_memory]
    exact .recorded hlive

theorem release_step (id key : String) : Memory.Step hash a.memory (.release id key)
      (a.succeeds hash (.release id key)) (a.release hash id key).2.memory := by
  simp only [succeeds]
  unfold release
  refine step_unless_done rfl ?_
  split
  · exact .refused
  · next res hlive =>
    simp only [markOpDone_memory, freeAuth_memory]
    exact .released hlive

theorem refund_step (id : String) (amount : RawAmount) (reason key : String) :
    Memory.Step hash a.memory (.refund id amount reason key)
      (a.succeeds hash (.refund id amount reason key))
      (a.refund hash id amount reason key).2.memory := by
  simp only [succeeds]
  unfold refund
  refine step_unless_done rfl ?_
  split
  · exact .refused
  · simp only [markOpDone_memory]
    exact .refunded

theorem consumeQuota_frame {req : AuthorizeRequest} {a' : InMemoryAdapter}
    (h : a.consumeQuota req = .ok a') : ∃ quotas, a' = { a with quotas := quotas } := by
  unfold consumeQuota at h
  split at h
  · exact ⟨a.quotas, (Except.ok.inj h).symm⟩
  · split_ifs at h
    exact ⟨_, (Except.ok.inj h).symm⟩

variable (hash a) in
theorem authorize_cases (req : AuthorizeRequest) :
    (∃ id, a.liveAuth hash req = some id ∧
      a.authorize hash req = ({ billingID := id, approved := true }, a)) ∨
    (∃ reason, a.authorize hash req = (denied reason, a)) ∨
    a.liveAuth hash req = none ∧ ∃ a' charge, a.consumeQuota req = .ok a' ∧
      a.authorize hash req = a'.reserve hash req charge := by
  unfold authorize
  cases hauth : a.liveAuth hash req with
  | some id => exact .inl ⟨id, rfl, rfl⟩
  | none =>
    refine .inr ?_
    cases a.balances.get? req.billingRef with
    | none => exact .inl ⟨_, rfl⟩
    | some bal =>
      by_cases hqty : req.quantity ≤ 0
      · exact .inl ⟨_, if_pos hqty⟩
      · simp only [if_neg hqty]
        split
        · next denial hgate =>
          unfold checkCurrencyAndBalance at hgate
          split_ifs at hgate
          · exact .inl ⟨_, by rw [← Option.some.inj hgate]⟩
          · dsimp only at hgate
            split_ifs at hgate
            exact .inl ⟨_, by rw [← Option.some.inj hgate]⟩
        · cases hquota : a.consumeQuota req with
          | error denial =>
            unfold consumeQuota at hquota
            split at hquota
            · cases hquota
            · split_ifs at hquota
              exact .inl ⟨_, by rw [← Except.error.inj hquota]⟩
          | ok a' => exact .inr ⟨trivial, a', _, rfl, rfl⟩

theorem authorize_step (req : AuthorizeRequest) : Memory.Step hash a.memory (.authorize req)
      (a.succeeds hash (.authorize req)) (a.authorize hash req).2.memory := by
  simp only [succeeds]
  rcases authorize_cases hash a req with
    ⟨id, hauth, heq⟩ | ⟨reason, heq⟩ | ⟨hauth, a', charge, hquota, heq⟩
  · have hrep : a.replays hash (.authorize req) = true := by
      simp only [replays, hauth, Option.isSome_some]
    obtain ⟨s, hslot, hseen⟩ := seen_of_replays hrep
    rw [heq]
    exact .replayed hslot hseen
  · rw [heq]
    exact .refused
  · rw [heq]
    obtain ⟨quotas, rfl⟩ := consumeQuota_frame hquota
    have hnew : ∀ s, slot hash (.authorize req) = some s → ¬ a.memory.Seen s := by
      intro s hslot hseen
      simp only [slot] at hslot
      split_ifs at hslot with hkey
      cases hslot
      rw [liveAuth, if_neg hkey] at hauth
      simp [Memory.Seen, memory, hauth] at hseen
    have hstep : Memory.Step hash a.memory (.authorize req) true (a.memory.hold hash
        ⟨req.billingRef, ⟨charge, req.unitCost.currency⟩, req.quantity, req.idempotencyKey⟩) :=
      .held rfl rfl hnew
    exact hstep

theorem after_step (c : Call) :
    Memory.Step hash a.memory c (a.succeeds hash c) (a.after hash c).memory := by
  cases c with
  | ensureAgentAccount ref => exact ensureAgentAccount_step ref
  | credit ref amount key => exact credit_step ref amount key
  | authorize req => exact authorize_step req
  | record id quantity key => exact record_step id quantity key
  | release id key => exact release_step id key
  | refund id amount reason key => exact refund_step id amount reason key

end InMemoryAdapter

namespace Memory

variable {hash : String → String} {m m' : Memory} {c : Call} {ok : Bool} {calls : List Call}

/-- The ids handed out so far. -/
def Used (m : Memory) (id : String) : Prop :=
  ∃ n ≤ m.nextIdx.toNat, id = m.idPrefix ++ sixDigits n

theorem nextIdx_succ (h : m.nextIdx.toNat + 1 < 2 ^ 64) :
    (m.nextIdx + 1).toNat = m.nextIdx.toNat + 1 := by
  exact Nat.mod_eq_of_lt h

theorem nextID_unused (h : m.nextIdx.toNat + 1 < 2 ^ 64) : ¬ m.Used m.nextID := by
  rintro ⟨n, hle, heq⟩
  have hdigits : sixDigits (m.nextIdx + 1).toNat = sixDigits n := by
    have hlist := congrArg String.toList heq
    rw [nextID, String.toList_append, String.toList_append, List.append_cancel_left_eq] at hlist
    exact String.toList_inj.mp hlist
  have hn := sixDigits_injective hdigits
  rw [nextIdx_succ h] at hn
  omega

variable (h : Step hash m c ok m')
include h

theorem Step.nextIdx : m'.idPrefix = m.idPrefix ∧
    (m'.nextIdx = m.nextIdx ∨ c.isAuthorize = true ∧ m'.nextIdx = m.nextIdx + 1) := by
  have hmark : ∀ (n : Memory) id op key, (n.mark hash id op key).idPrefix = n.idPrefix ∧
      (n.mark hash id op key).nextIdx = n.nextIdx := by
    intro n id op key
    unfold mark
    split_ifs <;> exact ⟨rfl, rfl⟩
  have hfree : ∀ (n : Memory) res, (n.free hash res).idPrefix = n.idPrefix ∧
      (n.free hash res).nextIdx = n.nextIdx := by
    intro n res
    unfold free
    split_ifs <;> exact ⟨rfl, rfl⟩
  cases h with
  | refused => exact ⟨rfl, .inl rfl⟩
  | replayed => exact ⟨rfl, .inl rfl⟩
  | opened => exact ⟨rfl, .inl rfl⟩
  | credited => exact ⟨rfl, .inl rfl⟩
  | held => exact ⟨rfl, .inr ⟨rfl, rfl⟩⟩
  | recorded => simp [settle, hmark, hfree]
  | released => simp [settle, hmark, hfree]
  | refunded => simp [hmark]

theorem Step.nextIdx_le (hfew : m.nextIdx.toNat + (c :: calls).countP Call.isAuthorize < 2 ^ 64) :
    m'.nextIdx.toNat + calls.countP Call.isAuthorize < 2 ^ 64 := by
  rw [List.countP_cons] at hfew
  rcases h.nextIdx.2 with hsame | ⟨hauth, hinc⟩
  · rw [hsame]
    omega
  · rw [hauth, if_pos rfl] at hfew
    rw [hinc, nextIdx_succ (by omega)]
    omega

theorem Step.used (hnext : c.isAuthorize = true → m.nextIdx.toNat + 1 < 2 ^ 64) {id : String}
    (hid : m.Used id) : m'.Used id := by
  obtain ⟨n, hn, rfl⟩ := hid
  obtain ⟨hids, hidx⟩ := h.nextIdx
  refine ⟨n, ?_, by rw [hids]⟩
  rcases hidx with hsame | ⟨hauth, hinc⟩
  · rw [hsame]
    exact hn
  · rw [hinc, nextIdx_succ (hnext hauth)]
    omega

end Memory

namespace InMemoryAdapter

variable {hash : String → String}

variable (hash) in
theorem run_append (a : InMemoryAdapter) (calls calls' : List Call) :
    run hash a (calls ++ calls') = run hash (run hash a calls) calls' :=
  List.foldl_append

theorem run_keeps {a : InMemoryAdapter} {calls rest : List Call} {I : Memory → Prop}
    (hstep : ∀ m c ok m', c ∈ calls → (c.isAuthorize = true → m.nextIdx.toNat + 1 < 2 ^ 64) →
      Memory.Step hash m c ok m' → I m → I m')
    (hfew : a.nextIdx.toNat + (calls ++ rest).countP Call.isAuthorize < 2 ^ 64)
    (h : I a.memory) : I (run hash a calls).memory ∧
      (run hash a calls).nextIdx.toNat + rest.countP Call.isAuthorize < 2 ^ 64 := by
  induction calls generalizing a with
  | nil => exact ⟨h, hfew⟩
  | cons c calls ih =>
    have hc : Memory.Step hash a.memory c _ (a.after hash c).memory := after_step c
    refine ih (fun m d ok m' hd => hstep m d ok m' (List.mem_cons_of_mem _ hd))
      (hc.nextIdx_le hfew) ?_
    refine hstep _ c _ _ List.mem_cons_self (fun hauth => ?_) hc h
    rw [List.cons_append, List.countP_cons, hauth, if_pos rfl] at hfew
    change a.nextIdx.toNat + 1 < 2 ^ 64
    omega

end InMemoryAdapter

end Ramp.Billing
