import Ramp.Billing.TigerBeetle.Adapter

/-! The conduct of the adapter's calls: which transfers and accounts each call submits, and
what its own reads showed before it did. Every text that an id is derived from belongs to
one of the calls, so a run derives finitely many ids from finitely many calls. -/

namespace Ramp.Billing.TigerBeetle

open Ramp.Ledger Prog

inductive Call
  | authorize (req : AuthorizeRequest)
  | record (billingID : String) (quantity : Int) (key : String)
  | release (billingID key : String)
  | refund (billingID : String) (amount : RawAmount) (reason key : String)
  | credit (billingRef : String) (amount : RawAmount) (key : String)
  | ensureAgentAccount (billingRef : String)
  | getBalance (billingRef : String)
  | getQuota (billingRef : String)

inductive Answer
  | authorized (res : AuthorizeResult)
  | done
  | balance (amount : Amount)
  | quota (units : Int)
  deriving DecidableEq

def Ids.Prefix.code : Ids.Prefix → AccountCode
  | .agent => .agent
  | .owner => .owner
  | .platform => .platform

variable {ID : Type} [DecidableEq ID] [Zero ID] (a : TigerBeetleAdapter ID)

def perform : Call → Tb ID Answer
  | .authorize req => do
    let res ← a.authorize req
    pure (.authorized res)
  | .record billingID quantity key => do
    a.record billingID quantity key
    pure .done
  | .release billingID key => do
    a.release billingID key
    pure .done
  | .refund billingID amount reason key => do
    a.refund billingID amount reason key
    pure .done
  | .credit billingRef amount key => do
    a.credit billingRef amount key
    pure .done
  | .ensureAgentAccount billingRef => do
    a.ensureAgentAccount billingRef
    pure .done
  | .getBalance billingRef => do
    let amount ← a.getBalance billingRef
    pure (.balance amount)
  | .getQuota billingRef => do
    let units ← TigerBeetleAdapter.getQuota billingRef
    pure (.quota units)

/-- The hold a call is about, by its request or by the billing id it was given. -/
def Call.Names : Call → ID → Prop
  | .authorize req, id => ∃ gen < TigerBeetleAdapter.maxAuthGenerations,
    a.pendingID req.billingRef req.idempotencyKey gen = .ok id
  | .record billingID _ _, id | .release billingID _, id | .refund billingID _ _ _, id =>
    a.ids.decodeID billingID = .ok id
  | _, _ => False

/-- The slots in which a call may create a transfer. -/
inductive Call.Uses : Call → Slot → Prop
  | hold {req : AuthorizeRequest} {gen : Nat} (h : gen < TigerBeetleAdapter.maxAuthGenerations) :
    Uses (.authorize req) (.hold req.billingRef req.idempotencyKey gen)
  | post {call : Call} {id : ID} (h : call.Names a id) : Uses call (.post (a.ids.encodeID id))
  | void {call : Call} {id : ID} (h : call.Names a id) : Uses call (.void (a.ids.encodeID id))
  | fee {call : Call} {id : ID} (h : call.Names a id) : Uses call (.fee (a.ids.encodeID id))
  | refundNet {billingID reason key : String} {amount : RawAmount} {id : ID}
    (h : a.ids.decodeID billingID = .ok id) :
    Uses (.refund billingID amount reason key) (.refundNet (a.ids.encodeID id) key)
  | refundFee {billingID reason key : String} {amount : RawAmount} {id : ID}
    (h : a.ids.decodeID billingID = .ok id) :
    Uses (.refund billingID amount reason key) (.refundFee (a.ids.encodeID id) key)
  | credit {billingRef key : String} {amount : RawAmount} :
    Uses (.credit billingRef amount key) (.credit key)

inductive Call.Opens : Call → Ids.Prefix → String → Prop
  | agent {req : AuthorizeRequest} : Opens (.authorize req) .agent req.billingRef
  | owner {req : AuthorizeRequest} :
    Opens (.authorize req) .owner ("revenue:" ++ req.resourceOwnerID)
  | credited {billingRef key : String} {amount : RawAmount} :
    Opens (.credit billingRef amount key) .agent billingRef
  | liquidity {billingRef key : String} {amount : RawAmount} :
    Opens (.credit billingRef amount key) .platform "liquidity"
  | ensured {billingRef : String} : Opens (.ensureAgentAccount billingRef) .agent billingRef
  | fee {call : Call} : Opens call .platform "fee"

def texts {ι : Type} (calls : ι → Call) : Set String :=
  {text | ∃ i, (∃ slot, (calls i).Uses a slot ∧ text = a.idNS ++ slot.text) ∨
    ∃ p businessID, (calls i).Opens p businessID ∧ text = p.text ++ (a.idNS ++ businessID)}

/-- No two of the texts that the calls derive ids from share a digest. -/
def CollisionFree {ι : Type} (calls : ι → Call) : Prop := Set.InjOn a.ids.sha256 (texts a calls)

variable {h h' : History (Op ID) Res}

def holdState (ids : Ids ID) (id postID voidID : ID) (found : List (Transfer ID)) : HoldState :=
  if ids.encodeID id ∉ found.map fun t => ids.encodeID t.id then .free
  else if (ids.encodeID postID ∉ found.map fun t => ids.encodeID t.id) ∧
      ids.encodeID voidID ∉ found.map fun t => ids.encodeID t.id then .live
  else .resolved

/-- The call was told the state of the hold. -/
def Classified (h : History (Op ID) Res) (id : ID) (state : HoldState) : Prop :=
  ∃ postID voidID found, a.resolveIDs id = .ok (postID, voidID) ∧
    ⟨.lookupTransfers [id, postID, voidID], .ok found⟩ ∈ h ∧
    holdState a.ids id postID voidID found = state

/-- Every earlier generation was found resolved. -/
def Probed (h : History (Op ID) Res) (req : AuthorizeRequest) (gen : Nat) : Prop :=
  ∀ g < gen, ∃ id, a.pendingID req.billingRef req.idempotencyKey g = .ok id ∧
    Classified a h id .resolved

def Ensured (h : History (Op ID) Res) (acct : Account ID) : Prop :=
  ∃ status, ⟨.createAccount acct, .ok status⟩ ∈ h ∧ status ≠ .existsWithDifferent

def Found (h : History (Op ID) Res) (id : ID) (info : Transfer ID) : Prop :=
  ∃ found, ⟨.lookupTransfers [id], .ok found⟩ ∈ h ∧ found.head? = some info

/-- The pages of refunds that were read from `timestampMin` on add `total - sum` to `sum`. -/
inductive Paged (h : History (Op ID) Res) (account group : ID) : Nat → Nat → Nat → Prop
  | last {timestampMin sum : Nat} {page : List (Transfer ID)}
    (read : ⟨.creditTransfers ⟨account, group, TransferCode.refund.number, timestampMin,
      refundPageLimit⟩, .ok page⟩ ∈ h) (short : page.length < refundPageLimit) :
    Paged h account group timestampMin sum (sum + (page.map Transfer.amount).sum)
  | more {timestampMin sum total : Nat} {page : List (Transfer ID)} {last : Transfer ID}
    (read : ⟨.creditTransfers ⟨account, group, TransferCode.refund.number, timestampMin,
      refundPageLimit⟩, .ok page⟩ ∈ h) (hlast : page.getLast? = some last)
    (rest : Paged h account group (last.timestamp + 1) (sum + (page.map Transfer.amount).sum)
      total) : Paged h account group timestampMin sum total

def SlotIs (slot : Slot) (id : ID) : Prop := a.ids.transferID (a.idNS ++ slot.text) = .ok id

omit [DecidableEq ID] [Zero ID] in
theorem slotIs_of_slotID {context : String} {slot : Slot} {id : ID}
    (h : a.slotID context slot = .ok id) : SlotIs a slot id :=
  Except.mapError_eq_ok.mp h

inductive RefundBatch (r : RefundLegs ID) : List (Transfer ID) → Prop
  | net (h : r.feeRev ≤ 0) : RefundBatch r [(a.refundNetLeg r).transfer false]
  | both {platformID : ID} (h : 0 < r.feeRev) (hplatform : a.platformFeeAccount = .ok platformID) :
    RefundBatch r [(a.refundNetLeg r).transfer true, (a.refundFeeLeg r platformID).transfer false]

/-- The chains that settle a hold, with what was read of it: a post of the whole amount, or
a post of the net amount linked to the fee. -/
inductive Settlement (call : Call) (h : History (Op ID) Res) (id : ID) : List (Transfer ID) → Prop
  | whole {postID voidID : ID} {info : Transfer ID} (hname : call.Names a id)
    (hresolve : a.resolveIDs id = .ok (postID, voidID)) (hinfo : Found h id info) :
    Settlement call h id [resolvingTransfer .post amountMax postID id]
  | split {postID voidID feeID platformID : ID} {info : Transfer ID} {fee : Int}
    (hname : call.Names a id) (hresolve : a.resolveIDs id = .ok (postID, voidID))
    (hinfo : Found h id info) (hfeeID : a.feeLegID id = .ok feeID)
    (hensured : Ensured h (a.account platformID .platform)) (hpos : 0 ≤ fee)
    (hle : fee ≤ info.amount) :
    Settlement call h id
      [(TigerBeetleAdapter.settleNetLeg id postID (info.amount - fee)).transfer true,
        (a.settleFeeLeg feeID info.debit platformID fee).transfer false]

/-- The batches a call may submit after what it has read. -/
inductive Submits (call : Call) (h : History (Op ID) Res) : List (Transfer ID) → Prop
  | hold {req : AuthorizeRequest} {p : HoldParams ID} {gen : Nat} {id postID voidID : ID}
    {pre : History (Op ID) Res} {found : List (Transfer ID)} (hcall : call = .authorize req)
    (hparams : a.holdParams req = .ok p) (hgen : gen < TigerBeetleAdapter.maxAuthGenerations)
    (hid : a.pendingID req.billingRef req.idempotencyKey gen = .ok id)
    (hprobed : Probed a h req gen) (hagent : Ensured h (a.account p.agentAcct .agent))
    (howner : Ensured h (a.account p.owner .owner))
    (hresolve : a.resolveIDs id = .ok (postID, voidID))
    (hread : h = pre ++ [⟨.lookupTransfers [id, postID, voidID], .ok found⟩])
    (hfree : holdState a.ids id postID voidID found = .free) (hminor : 0 ≤ p.minor) :
    Submits call h [(a.pendingTransfer id p).transfer]
  | settle {id : ID} {batch : List (Transfer ID)} (hbatch : Settlement a call h id batch) :
    Submits call h batch
  | void {id postID voidID : ID} (hname : call.Names a id)
    (hresolve : a.resolveIDs id = .ok (postID, voidID)) :
    Submits call h [resolvingTransfer .void 0 voidID id]
  | refund {billingID reason key : String} {amount : RawAmount}
    {id postID voidID netID feeID : ID} {info post : Transfer ID} {rMinor : Int} {prior : Nat}
    {batch : List (Transfer ID)} (hcall : call = .refund billingID amount reason key)
    (hid : a.ids.decodeID billingID = .ok id)
    (hresolve : a.resolveIDs id = .ok (postID, voidID)) (hposted : Found h postID post)
    (hlegs : a.refundLegIDs id key = .ok (netID, feeID)) (hinfo : Found h id info)
    (hprior : Paged h info.debit id 0 0 prior) (hpos : 0 < rMinor)
    (hcap : prior + rMinor ≤ info.amount)
    (hbatch : RefundBatch a (a.reversal ⟨id, netID, feeID, rMinor, reason⟩ info) batch)
    (hnet : 0 ≤ (a.reversal ⟨id, netID, feeID, rMinor, reason⟩ info).netRev) :
    Submits call h batch
  | credit {billingRef key : String} {amount : RawAmount} {id liquidity agentAcct : ID}
    {minor : Int} (hcall : call = .credit billingRef amount key)
    (hkey : hasReservedPrefix key = false) (hid : SlotIs a (.credit key) id) :
    Submits call h [(a.creditLeg id liquidity agentAcct minor).transfer false]

/-- The ledger calls a billing call may make next, given what it has been answered. -/
def Conduct (call : Call) (h : History (Op ID) Res) : Op ID → Prop
  | .createTransfers batch => Submits a call h batch
  | .createAccount acct => ∃ p businessID, call.Opens p businessID ∧
    a.accountID p businessID = .ok acct.id ∧ acct = a.account acct.id p.code
  | _ => True

variable {req : AuthorizeRequest} {gen : Nat}

section

omit [DecidableEq ID] [Zero ID]

variable {a} {id : ID}

theorem Classified.mono {state : HoldState} (hc : Classified a h id state) (hsub : h ⊆ h') :
    Classified a h' id state := by
  obtain ⟨postID, voidID, found, hresolve, hmem, hstate⟩ := hc
  exact ⟨postID, voidID, found, hresolve, hsub hmem, hstate⟩

theorem Probed.mono (hp : Probed a h req gen) (hsub : h ⊆ h') : Probed a h' req gen := by
  intro g hg
  obtain ⟨id, hid, hclass⟩ := hp g hg
  exact ⟨id, hid, hclass.mono hsub⟩

theorem Probed.succ (hp : Probed a h req gen)
    (hid : a.pendingID req.billingRef req.idempotencyKey gen = .ok id)
    (hc : Classified a h id .resolved) : Probed a h req (gen + 1) := by
  intro g hg
  rcases Nat.lt_succ_iff_lt_or_eq.mp hg with hlt | rfl
  · exact hp g hlt
  · exact ⟨id, hid, hc⟩

theorem Ensured.mono {acct : Account ID} (he : Ensured h acct) (hsub : h ⊆ h') :
    Ensured h' acct := by
  obtain ⟨status, hmem, hne⟩ := he
  exact ⟨status, hsub hmem, hne⟩

theorem Found.mono {info : Transfer ID} (hf : Found h id info) (hsub : h ⊆ h') :
    Found h' id info := by
  obtain ⟨found, hmem, hhead⟩ := hf
  exact ⟨found, hsub hmem, hhead⟩

end

variable {a}

/-- The last answer of a call that approved the hold `id`: the hold was found and nothing
that resolves it, or it was free and then created, by this call or by another one. -/
inductive ApprovedBy (p : HoldParams ID) (id : ID) : History (Op ID) Res → Prop
  | read {pre : History (Op ID) Res} {postID voidID : ID} {found : List (Transfer ID)}
    (hresolve : a.resolveIDs id = .ok (postID, voidID))
    (hlive : holdState a.ids id postID voidID found = .live) :
    ApprovedBy p id (pre ++ [⟨.lookupTransfers [id, postID, voidID], .ok found⟩])
  | created {pre : History (Op ID) Res} {postID voidID : ID} {found : List (Transfer ID)}
    {results : List Status} (hresolve : a.resolveIDs id = .ok (postID, voidID))
    (hfree : holdState a.ids id postID voidID found = .free)
    (hresults : ∀ status rest, results = status :: rest → status = .created ∨ status = .exists) :
    ApprovedBy p id (pre ++ [⟨.lookupTransfers [id, postID, voidID], .ok found⟩] ++
      [⟨.createTransfers [(a.pendingTransfer id p).transfer], .ok results⟩])

def Approves (a : TigerBeetleAdapter ID) (req : AuthorizeRequest) (h : History (Op ID) Res)
    (res : AuthorizeResult) : Prop :=
  res.approved = true → ∃ p gen id, a.holdParams req = .ok p ∧
    gen < TigerBeetleAdapter.maxAuthGenerations ∧
    a.pendingID req.billingRef req.idempotencyKey gen = .ok id ∧ res = a.approved id ∧
    ApprovedBy (a := a) p id h

end Ramp.Billing.TigerBeetle
