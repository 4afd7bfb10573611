import Ramp.Identity.Stores
import Ramp.Program.Schedule

/-! The identity service: the documents of an agent and their cache, the calls and the state they
act on, the key store over the secrets engine, and the policy over the keys of an agent. -/

namespace Ramp.Identity

structure Directory where
  keys : List Key
  revocationURL : String
  deriving DecidableEq

/-- The documents of one build. `flight` names the build that read their sources. -/
structure DocSet where
  wba : Option Directory
  card : Option Card
  revocation : Option RevocationList
  manifest : Option String
  keyExpiry : Option ℤ
  wbaUnavail : Bool
  cardUnavail : Bool
  revUnavail : Bool
  manifestUnavail : Bool
  flight : ℕ
  deriving DecidableEq

namespace DocSet

/-- No documents, as the build `flight` or an absence it left says. -/
def none (flight : ℕ) : DocSet where
  wba := .none
  card := .none
  revocation := .none
  manifest := .none
  keyExpiry := .none
  wbaUnavail := false
  cardUnavail := false
  revUnavail := false
  manifestUnavail := false
  flight := flight

def empty (d : DocSet) : Bool :=
  d.wba.isNone && d.card.isNone && d.revocation.isNone && d.manifest.isNone

def unavailable (d : DocSet) : Bool :=
  d.wbaUnavail || d.cardUnavail || d.revUnavail || d.manifestUnavail

end DocSet

inductive BuildError
  | keys (e : KeyError)
  | store (f : PgFault)
  | revocationURL
  | directory
  | revocation
  | manifest
  deriving DecidableEq

abbrev Built := Except BuildError DocSet

structure Entry where
  docs : DocSet
  expires : ℤ
  deriving DecidableEq

structure Absence where
  expires : ℤ
  flight : ℕ
  deriving DecidableEq

inductive Seat
  | leader (flight : ℕ)
  | follower (flight : ℕ)
  deriving DecidableEq

inductive CacheCall
  | bumpGen (subdomain : String)
  | deletePositive (subdomain : String)
  | deleteNegative (subdomain : String)
  | loadPositive (subdomain : String)
  | hasNegative (subdomain : String)
  | readGen (subdomain : String)
  | store (subdomain : String) (docs : DocSet) (gen : ℕ) (expires negativeExpires : ℤ)
  | enter (subdomain : String)
  | leave (subdomain : String) (flight : ℕ) (built : Built)
  | await (flight : ℕ)
  deriving DecidableEq

def CacheCall.Reply : CacheCall → Type
  | .bumpGen _ | .deletePositive _ | .deleteNegative _ | .leave _ _ _ => Unit
  | .loadPositive _ => Option Entry
  | .hasNegative _ => Option Absence
  | .readGen _ => ℕ
  | .store _ _ _ _ _ => Option String
  | .enter _ => Seat
  | .await _ => Built

instance : (c : CacheCall) → DecidableEq c.Reply
  | .bumpGen _ | .deletePositive _ | .deleteNegative _ | .leave _ _ _ =>
    inferInstanceAs (DecidableEq Unit)
  | .loadPositive _ => inferInstanceAs (DecidableEq (Option Entry))
  | .hasNegative _ => inferInstanceAs (DecidableEq (Option Absence))
  | .readGen _ => inferInstanceAs (DecidableEq ℕ)
  | .store _ _ _ _ _ => inferInstanceAs (DecidableEq (Option String))
  | .enter _ => inferInstanceAs (DecidableEq Seat)
  | .await _ => inferInstanceAs (DecidableEq Built)

structure Cache where
  gen : String → ℕ
  positive : String → Option Entry
  negative : Table String Absence
  flights : String → Option ℕ
  results : ℕ → Option Built
  nextFlight : ℕ

def negCacheLimit : ℕ := 4096

namespace Cache

def empty : Cache := ⟨fun _ => 0, fun _ => none, ∅, fun _ => none, fun _ => none, 0⟩

def evicts (c : Cache) (now : ℤ) (subdomain : String) : Option String → Bool
  | none => (c.negative.get? subdomain).isSome || c.negative.entries.length < negCacheLimit
  | some victim =>
    (c.negative.get? subdomain).isNone && negCacheLimit ≤ c.negative.entries.length &&
      match c.negative.get? victim with
      | none => false
      | some a => a.expires ≤ now || c.negative.entries.all fun e => now < e.2.expires

def makeRoom (c : Cache) : Option String → Table String Absence
  | none => c.negative
  | some victim => c.negative.erase victim

/-- One step under the lock of the generations: a build that an invalidation overtook or
that met an outage leaves the cache as it was. -/
def stored (c : Cache) (now : ℤ) (subdomain : String) (docs : DocSet) (gen : ℕ)
    (expires negativeExpires : ℤ) (victim : Option String) : Option Cache :=
  if c.gen subdomain ≠ gen ∨ docs.unavailable then
    if victim = none then some c else none
  else if docs.empty then
    if c.evicts now subdomain victim then
      some { c with negative :=
                (c.makeRoom victim).insert subdomain ⟨negativeExpires, docs.flight⟩ }
    else none
  else if victim = none then
    some { c with positive := Function.update c.positive subdomain (some ⟨docs, expires⟩) }
  else none

def hasStep (c : Cache) (now : ℤ) (subdomain : String) (a : Option Absence) : Option Cache :=
  match c.negative.get? subdomain with
  | none => if a = none then some c else none
  | some x =>
    if now < x.expires then if a = some x then some c else none
    else if a = none then some { c with negative := c.negative.erase subdomain } else none

def enterStep (c : Cache) (subdomain : String) (seat : Seat) : Option Cache :=
  match c.flights subdomain with
  | none =>
    if seat = .leader c.nextFlight then
      some { c with flights := Function.update c.flights subdomain (some c.nextFlight)
                    nextFlight := c.nextFlight + 1 }
    else none
  | some flight => if seat = .follower flight then some c else none

def step (call : CacheCall) (now : ℤ) (c : Cache) (r : call.Reply) : Option Cache :=
  match call, r with
  | .bumpGen subdomain, _ =>
    some { c with gen := Function.update c.gen subdomain (c.gen subdomain + 1) }
  | .deletePositive subdomain, _ =>
    some { c with positive := Function.update c.positive subdomain none }
  | .deleteNegative subdomain, _ => some { c with negative := c.negative.erase subdomain }
  | .loadPositive subdomain, (e : Option Entry) =>
    if e = c.positive subdomain then some c else none
  | .hasNegative subdomain, a => c.hasStep now subdomain a
  | .readGen subdomain, (g : ℕ) => if g = c.gen subdomain then some c else none
  | .store subdomain docs gen expires negativeExpires, victim =>
    c.stored now subdomain docs gen expires negativeExpires victim
  | .enter subdomain, seat => c.enterStep subdomain seat
  | .leave subdomain flight built, _ =>
    some { c with flights := Function.update c.flights subdomain none
                  results := Function.update c.results flight (some built) }
  | .await flight, (built : Built) =>
    if c.results flight = some built then some c else none

def answer (call : CacheCall) (now : ℤ) (c : Cache) : call.Reply :=
  match call with
  | .bumpGen _ | .deletePositive _ | .deleteNegative _ | .leave _ _ _ => ()
  | .loadPositive subdomain => c.positive subdomain
  | .hasNegative subdomain => (c.negative.get? subdomain).filter fun a => now < a.expires
  | .readGen subdomain => c.gen subdomain
  | .store _ _ _ _ _ => none
  | .enter subdomain =>
    match c.flights subdomain with
    | none => .leader c.nextFlight
    | some flight => .follower flight
  | .await flight => (c.results flight).getD (.ok (.none flight))

end Cache

inductive Call
  | vault (c : VaultCall)
  | table (c : TableCall)
  | cache (c : CacheCall)
  | now
  | unixNano
  | newSlug
  | cancelled
  deriving DecidableEq

def Reply : Call → Type
  | .vault c => c.Reply
  | .table c => c.Reply
  | .cache c => c.Reply
  | .now | .unixNano => ℤ
  | .newSlug => Option String
  | .cancelled => Bool

instance : (c : Call) → DecidableEq (Reply c)
  | .vault c => inferInstanceAs (DecidableEq c.Reply)
  | .table c => inferInstanceAs (DecidableEq c.Reply)
  | .cache c => inferInstanceAs (DecidableEq c.Reply)
  | .now | .unixNano => inferInstanceAs (DecidableEq ℤ)
  | .newSlug => inferInstanceAs (DecidableEq (Option String))
  | .cancelled => inferInstanceAs (DecidableEq Bool)

structure State where
  now : ℤ
  vault : Vault
  tables : Tables
  cache : Cache

namespace State

def initial : State := ⟨0, .empty, .empty, .empty⟩

def secret (s : State) (ref : Ref) : Option Secret := s.vault.secrets.get? ref

end State

def step (c : Call) (s : State) (r : Reply c) : Option State :=
  match c, r with
  | .vault c, r => (Vault.step c s.vault r).map fun v => { s with vault := v }
  | .table c, r => (Tables.step c s.tables r).map fun t => { s with tables := t }
  | .cache c, r => (Cache.step c s.now s.cache r).map fun x => { s with cache := x }
  | .now, (t : ℤ) => if t = s.now then some s else none
  | .unixNano, _ => some s
  | .newSlug, _ => some s
  | .cancelled, _ => some s

def State.answer (c : Call) (s : State) : Reply c :=
  match c with
  | .vault c => Vault.answer c s.vault
  | .table c => Tables.answer c s.tables
  | .cache c => Cache.answer c s.now s.cache
  | .now | .unixNano => s.now
  | .newSlug => none
  | .cancelled => false

section

variable {s t : State} {op : Call} {r : Reply op}

theorem step_now (h : step op s r = some t) : t.now = s.now := by
  cases op with
  | vault c | table c | cache c =>
    obtain ⟨x, -, rfl⟩ := Option.map_eq_some_iff.mp h
    rfl
  | now =>
    simp only [step, Option.ite_none_right_eq_some, Option.some.injEq] at h
    rw [h.2]
  | _ =>
    cases h
    rfl

theorem step_vault {c : VaultCall} {r : Reply (.vault c)} (h : step (.vault c) s r = some t) :
    Vault.step c s.vault r = some t.vault ∧ t = { s with vault := t.vault } := by
  obtain ⟨v, hv, rfl⟩ := Option.map_eq_some_iff.mp h
  exact ⟨hv, rfl⟩

theorem step_table {c : TableCall} {r : Reply (.table c)} (h : step (.table c) s r = some t) :
    Tables.step c s.tables r = some t.tables ∧ t = { s with tables := t.tables } := by
  obtain ⟨v, hv, rfl⟩ := Option.map_eq_some_iff.mp h
  exact ⟨hv, rfl⟩

theorem step_effects (h : step op s r = some t) :
    ((∃ c, op = .vault c ∧ s.vault.Effect c t.vault) ∨ t.vault = s.vault) ∧
      ((∃ c, op = .table c ∧ s.tables.Effect c t.tables) ∨ t.tables = s.tables) := by
  cases op with
  | vault c =>
    obtain ⟨hv, ht⟩ := step_vault h
    exact ⟨.inl ⟨c, rfl, Vault.step_effect hv⟩, .inr (by rw [ht])⟩
  | table c =>
    obtain ⟨hv, ht⟩ := step_table h
    exact ⟨.inr (by rw [ht]), .inl ⟨c, rfl, Tables.step_effect hv⟩⟩
  | cache c =>
    obtain ⟨x, -, rfl⟩ := Option.map_eq_some_iff.mp h
    exact ⟨.inr rfl, .inr rfl⟩
  | now =>
    simp only [step, Option.ite_none_right_eq_some, Option.some.injEq] at h
    rw [h.2]
    exact ⟨.inr rfl, .inr rfl⟩
  | _ =>
    cases h
    exact ⟨.inr rfl, .inr rfl⟩

theorem step_secret (h : step op s r = some t) (ref : Ref) :
    t.secret ref = s.secret ref ∨ (∃ record, op = .vault (.write ref record)) ∨
      op = .vault (.deleteMetadata ref) ∧ t.secret ref = none := by
  rcases (step_effects h).1 with ⟨c, rfl, heff⟩ | hv
  · rcases heff.get? ref with hsame | ⟨record, rfl⟩ | ⟨rfl, hnone⟩
    · exact .inl hsame
    · exact .inr (.inl ⟨record, rfl⟩)
    · exact .inr (.inr ⟨rfl, hnone⟩)
  · exact .inl (by rw [State.secret, State.secret, hv])

theorem step_write {ref : Ref} {record : Record} {w : Reply (.vault (.write ref record))}
    (h : step (.vault (.write ref record)) s w = some t) (ref' : Ref) :
    t.secret ref' = s.secret ref' ∨ ref' = ref ∧ t.secret ref' = some (.record record) := by
  have hv := Option.some.inj (step_vault h).1
  rw [State.secret, State.secret, ← hv]
  split_ifs
  · rw [Vault.get?_writing]
    split_ifs with href
    · exact .inr ⟨href, rfl⟩
    · exact .inl rfl
  · exact .inl rfl

theorem step_known (h : step op s r = some t) {tp : String} (htp : tp ∈ s.vault.known) :
    tp ∈ t.vault.known := by
  rcases (step_effects h).1 with ⟨c, -, heff⟩ | hv
  · exact heff.known htp
  · rwa [hv]

end

def Ticks (s t : State) : Prop := t = { s with now := t.now }

def Elapses (s t : State) : Prop := s.now ≤ t.now ∧ t = { s with now := t.now }

abbrev Program := Prog Call Reply

abbrev Action (ε : Type) := ExceptT ε Program

end Ramp.Identity

namespace Ramp.Identity.KeyStore

open Prog

def rawRead {α : Type} (nothing : α) : Except VaultFault α → Except VaultFault α
  | .ok a => .ok a
  | .error f => if f = .nothingThere then .ok nothing else .error f

def get (ref : Ref) : Action KeyError Record := do
  orThrow (validateRef ref) id
  let answer ← ask (Call.vault (.read ref))
  match rawRead none answer with
  | .error f => throw (classify f)
  | .ok none => throw .notFound
  | .ok (some .malformed) => throw .corrupt
  | .ok (some (.record r)) => pure r

def put (ref : Ref) (record : Record) : Action KeyError Unit := do
  orThrow (validateRef ref) id
  let answer ← ask (Call.vault (.write ref record))
  match (answer : Written VaultFault Unit) with
  | .failed f _ => throw (classify f)
  | .done _ => pure ()

def listSubdomains : Action KeyError (List String) := do
  let answer ← ask (Call.vault .listAgents)
  match rawRead [] answer with
  | .error f => throw (classify f)
  | .ok names => pure (names.filter validSubdomain)

def thumbprints (subdomain : String) : Action KeyError (List String) := do
  let answer ← ask (Call.vault (.listKeys subdomain))
  match rawRead [] answer with
  | .error f => throw (classify f)
  | .ok names => pure (names.filter validThumbprint)

def readKeys (subdomain : String) : List String → Action KeyError (List Key)
  | [] => pure []
  | tp :: rest => do
    match ← attempt (get ⟨subdomain, tp⟩) with
    | .error .notFound => readKeys subdomain rest
    | .error e => throw e
    | .ok record => do
      let keys ← readKeys subdomain rest
      pure (record.key ⟨subdomain, tp⟩ :: keys)

def list (subdomain : String) : Action KeyError (List Key) := do
  orThrow (validateSubdomain subdomain) id
  let tps ← thumbprints subdomain
  let keys ← readKeys subdomain tps
  pure (sortNewestFirst keys)

def create (subdomain : String) (w : Window) : Action KeyError Key := do
  orThrow (validateSubdomain subdomain) id
  if w.notBefore < w.notAfter then
    let answer ← ask (Call.vault .generateKey)
    match (answer : Option Generated) with
    | none => throw .internal
    | some g => do
      let createdAt : ℤ ← ask Call.now
      let record : Record := ⟨g.publicKey, w, createdAt⟩
      put ⟨subdomain, g.thumbprint⟩ record
      pure (record.key ⟨subdomain, g.thumbprint⟩)
  else throw .invalidWindow

def active (subdomain : String) : Action KeyError Key := do
  let keys ← list subdomain
  let now : ℤ ← ask Call.now
  match keys.find? fun k => k.window.Covers now with
  | some k => pure k
  | none => throw .notFound

def expire (ref : Ref) (notAfter : ℤ) : Action KeyError Unit := do
  let record ← get ref
  if notAfter ≤ record.window.notBefore then throw .invalidWindow
  else if record.window.notAfter < notAfter then throw .invalidWindow
  else if notAfter = record.window.notAfter then pure ()
  else put ref { record with window := { record.window with notAfter := notAfter } }

def destroy (ref : Ref) : Action KeyError Unit := do
  orThrow (validateRef ref) id
  let answer ← ask (Call.vault (.deleteMetadata ref))
  match (answer : Written VaultFault Unit) with
  | .failed f _ => throw (classify f)
  | .done _ => pure ()

end Ramp.Identity.KeyStore

namespace Ramp.Identity

open Prog

def invalidate (subdomain : String) : Program Unit := do
  let _ ← perform (Call.cache (.bumpGen subdomain))
  let _ ← perform (Call.cache (.deletePositive subdomain))
  let _ ← perform (Call.cache (.deleteNegative subdomain))
  pure ()

inductive StoreError
  | unavailable
  | other (f : PgFault)
  deriving DecidableEq

def storeError (f : PgFault) : StoreError := if f.isUnavailable then .unavailable else .other f

namespace Revocations

def revoke (subdomain thumbprint : String) (nowEpoch : ℤ) : Action StoreError ℤ := do
  let answer ← ask (Call.table (.revoke subdomain thumbprint nowEpoch))
  match (answer : Written PgFault ℤ) with
  | .failed f _ => throw (storeError f)
  | .done asOf => pure asOf

def bySubdomain (subdomain : String) : Action StoreError RevocationList := do
  let answer ← ask (Call.table (.getRevocation subdomain))
  match (answer : Except PgFault (Option RevocationList)) with
  | .error f => throw (storeError f)
  | .ok none => pure .baseline
  | .ok (some row) => pure row

end Revocations

inductive RevokeError
  | unknownThumbprint
  | keys (e : KeyError)
  | store (e : StoreError)
  deriving DecidableEq

namespace Revoker

/-- Whether the agent holds the key or has revoked it before; while the key store is
unavailable the operator is trusted. -/
def belongsToAgent (subdomain thumbprint : String) : Action RevokeError Bool := do
  match ← attempt (rethrow RevokeError.keys (KeyStore.list subdomain)) with
  | .error (.keys .unavailable) => pure true
  | .error e => throw e
  | .ok keys =>
    if keys.any (·.ref.thumbprint = thumbprint) then pure true
    else do
      let row ← rethrow RevokeError.store (Revocations.bySubdomain subdomain)
      pure (row.revoked.contains thumbprint)

def revoke (subdomain thumbprint : String) : Action RevokeError Unit := do
  orThrow (validateSubdomain subdomain) .keys
  let known ← belongsToAgent subdomain thumbprint
  if known then
    let nowEpoch : ℤ ← ask Call.unixNano
    let _ ← rethrow RevokeError.store (Revocations.revoke subdomain thumbprint nowEpoch)
    let _ ← attempt (rethrow RevokeError.keys (KeyStore.destroy ⟨subdomain, thumbprint⟩))
    ExceptT.lift (invalidate subdomain)
  else throw .unknownThumbprint

end Revoker

structure SchedulerConfig where
  period : ℤ
  overlap : ℤ

def hour : ℤ := 3600000000000

def defaultPeriod : ℤ := 90 * 24 * hour

def defaultOverlap : ℤ := 24 * hour

def pruneGrace : ℤ := hour

namespace Scheduler

def new (cfg : SchedulerConfig) : SchedulerConfig where
  period := if cfg.period ≤ 0 then defaultPeriod else cfg.period
  overlap := if cfg.overlap ≤ 0 then defaultOverlap else cfg.overlap

variable (cfg : SchedulerConfig)

theorem new_period_pos : 0 < (new cfg).period := by
  have hdefault : 0 < defaultPeriod := by decide
  simp only [new]
  split_ifs <;> omega

theorem new_overlap_pos : 0 < (new cfg).overlap := by
  have hdefault : 0 < defaultOverlap := by decide
  simp only [new]
  split_ifs <;> omega

def rotateIfDue (subdomain : String) : Program Unit := do
  match ← (KeyStore.list subdomain).run with
  | .error _ => pure ()
  | .ok [] => pure ()
  | .ok (newest :: _) => do
    let now : ℤ ← perform Call.now
    if now - newest.createdAt < cfg.period then pure ()
    else
      match ← (KeyStore.create subdomain ⟨now, now + (cfg.period + cfg.overlap)⟩).run with
      | .error _ => pure ()
      | .ok _ => invalidate subdomain

def expireAll (cutoff : ℤ) : List Key → Bool → Program Bool
  | [], shortened => pure shortened
  | k :: rest, shortened =>
    if k.window.notAfter ≤ cutoff then expireAll cutoff rest shortened
    else do
      match ← (KeyStore.expire k.ref cutoff).run with
      | .error _ => expireAll cutoff rest shortened
      | .ok _ => expireAll cutoff rest true

def enforceOverlap (subdomain : String) : Program Unit := do
  match ← (KeyStore.list subdomain).run with
  | .error _ => pure ()
  | .ok keys =>
    if keys.length < 2 then pure ()
    else do
      let now : ℤ ← perform Call.now
      let shortened ← expireAll (now + cfg.overlap) keys.tail false
      if shortened then invalidate subdomain else pure ()

def destroyAll (cutoff : ℤ) : List Key → Program Unit
  | [] => pure ()
  | k :: rest =>
    if cutoff ≤ k.window.notAfter then destroyAll cutoff rest
    else do
      let _ ← (KeyStore.destroy k.ref).run
      destroyAll cutoff rest

def prune (subdomain : String) : Program Unit := do
  match ← (KeyStore.list subdomain).run with
  | .error _ => pure ()
  | .ok keys => do
    let now : ℤ ← perform Call.now
    destroyAll (now - pruneGrace) keys

def passOver (subdomain : String) : Program Unit := do
  rotateIfDue cfg subdomain
  enforceOverlap cfg subdomain
  prune subdomain

def passAll : List String → Program Unit
  | [] => pure ()
  | subdomain :: rest => do
    let stop : Bool ← perform Call.cancelled
    if stop then pure ()
    else do
      passOver cfg subdomain
      passAll rest

def runOnce : Program Unit := do
  match ← KeyStore.listSubdomains.run with
  | .error _ => pure ()
  | .ok subs => passAll cfg subs

end Scheduler

end Ramp.Identity
