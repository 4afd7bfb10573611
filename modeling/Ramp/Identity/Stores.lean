import Mathlib.Data.Int.Order.Basic
import Mathlib.Data.List.Sort
import Mathlib.Data.String.Basic
import Ramp.Data.Table

/-! Agent keys, and the stores behind the identity service: the secrets engine that holds one
record per key, and the tables. A write that fails may have been applied. -/

namespace Ramp.Identity

structure Ref where
  subdomain : String
  thumbprint : String
  deriving DecidableEq

structure Window where
  notBefore : ℤ
  notAfter : ℤ
  deriving DecidableEq

def Window.Covers (w : Window) (t : ℤ) : Prop := w.notBefore ≤ t ∧ t < w.notAfter

instance (w : Window) (t : ℤ) : Decidable (w.Covers t) := inferInstanceAs (Decidable (_ ∧ _))

structure Record where
  publicKey : String
  window : Window
  createdAt : ℤ
  deriving DecidableEq

structure Key where
  ref : Ref
  publicKey : String
  window : Window
  createdAt : ℤ
  deriving DecidableEq

def Record.key (r : Record) (ref : Ref) : Key := ⟨ref, r.publicKey, r.window, r.createdAt⟩

inductive KeyError
  | notFound
  | invalidSubdomain
  | invalidThumbprint
  | invalidWindow
  | unavailable
  | permissionDenied
  | internal
  | corrupt
  deriving DecidableEq

def thumbprintChar (c : Char) : Bool := c.isAlphanum || c = '_' || c = '-'

def validThumbprint (s : String) : Bool := s.toList.length == 43 && s.toList.all thumbprintChar

def labelChar (c : Char) : Bool := c.isDigit || c.isLower || c = '-'

def validLabel (l : List Char) : Bool :=
  l.length ≤ 63 && l.all labelChar && l.head?.any (· ≠ '-') && l.getLast?.any (· ≠ '-')

def maxSubdomainLen : ℕ := 253

def validSubdomain (s : String) : Bool :=
  s.utf8ByteSize ≤ maxSubdomainLen && (s.toList.splitOn '.').all validLabel

def validateSubdomain (s : String) : Except KeyError Unit :=
  if validSubdomain s then .ok () else .error .invalidSubdomain

def validateRef (ref : Ref) : Except KeyError Unit := do
  validateSubdomain ref.subdomain
  if validThumbprint ref.thumbprint then .ok () else .error .invalidThumbprint

theorem validateRef_eq_ok {ref : Ref} : validateRef ref = .ok () ↔
      validSubdomain ref.subdomain = true ∧ validThumbprint ref.thumbprint = true := by
  unfold validateRef validateSubdomain
  by_cases hs : validSubdomain ref.subdomain = true
  · by_cases ht : validThumbprint ref.thumbprint = true
    · simp [hs, ht, Bind.bind, Except.bind]
    · simp [hs, ht, Bind.bind, Except.bind]
  · simp [hs, Bind.bind, Except.bind]

def ListedFirst (a b : Key) : Prop :=
  b.createdAt < a.createdAt ∨ a.createdAt = b.createdAt ∧ a.ref.thumbprint ≤ b.ref.thumbprint

instance : DecidableRel ListedFirst := fun _ _ => inferInstanceAs (Decidable (_ ∨ _))

def sortNewestFirst (keys : List Key) : List Key := keys.insertionSort ListedFirst

@[simp] theorem mem_sortNewestFirst {keys : List Key} {k : Key} :
    k ∈ sortNewestFirst keys ↔ k ∈ keys :=
  List.mem_insertionSort _

instance : Std.Total ListedFirst where
  total a b := by
    unfold ListedFirst
    rcases lt_trichotomy a.createdAt b.createdAt with h | h | h
    · exact .inr (.inl h)
    · rcases le_total a.ref.thumbprint b.ref.thumbprint with ht | ht
      · exact .inl (.inr ⟨h, ht⟩)
      · exact .inr (.inr ⟨h.symm, ht⟩)
    · exact .inl (.inl h)

instance : IsTrans Key ListedFirst where
  trans a b c hab hbc := by
    unfold ListedFirst at *
    rcases hab with hab | ⟨hab, htab⟩ <;> rcases hbc with hbc | ⟨hbc, htbc⟩
    · exact .inl (by omega)
    · exact .inl (by omega)
    · exact .inl (by omega)
    · exact .inr ⟨by omega, htab.trans htbc⟩

theorem sortNewestFirst_pairwise (keys : List Key) : (sortNewestFirst keys).Pairwise ListedFirst :=
  List.pairwise_insertionSort ListedFirst keys

/-- Why a request to the secrets engine failed: its context ended, it was answered with a
status and some number of messages, a write was answered without a version, or there was
no answer to read. -/
inductive VaultFault
  | cancelled
  | response (status errors : ℕ)
  | noVersion
  | transport
  deriving DecidableEq

def VaultFault.nothingThere : VaultFault := .response 404 0

def classify : VaultFault → KeyError
  | .cancelled => .internal
  | .response status _ =>
    if status = 401 ∨ status = 403 then .permissionDenied
    else if status = 404 then .unavailable
    else if status = 429 ∨ 500 ≤ status then .unavailable
    else .internal
  | .noVersion => .internal
  | .transport => .unavailable

inductive Secret
  | malformed
  | record (r : Record)
  deriving DecidableEq

inductive Written (ε α : Type)
  | done (a : α)
  | failed (e : ε) (applied : Bool)
  deriving DecidableEq

def Written.applied {ε α : Type} : Written ε α → Bool
  | .done _ => true
  | .failed _ applied => applied

def Written.confirmed {ε α : Type} : Written ε α → Bool
  | .done _ => true
  | .failed _ _ => false

def Written.returns {ε α : Type} [DecidableEq α] (w : Written ε α) (a : α) : Bool :=
  match w with
  | .done a' => a' = a
  | .failed _ _ => true

inductive VaultCall
  | listAgents
  | listKeys (subdomain : String)
  | read (ref : Ref)
  | write (ref : Ref) (record : Record)
  | deleteMetadata (ref : Ref)
  | generateKey
  deriving DecidableEq

structure Generated where
  publicKey : String
  thumbprint : String
  deriving DecidableEq

def VaultCall.Reply : VaultCall → Type
  | .listAgents | .listKeys _ => Except VaultFault (List String)
  | .read _ => Except VaultFault (Option Secret)
  | .write _ _ | .deleteMetadata _ => Written VaultFault Unit
  | .generateKey => Option Generated

instance : (c : VaultCall) → DecidableEq c.Reply
  | .listAgents | .listKeys _ => inferInstanceAs (DecidableEq (Except VaultFault (List String)))
  | .read _ => inferInstanceAs (DecidableEq (Except VaultFault (Option Secret)))
  | .write _ _ | .deleteMetadata _ => inferInstanceAs (DecidableEq (Written VaultFault Unit))
  | .generateKey => inferInstanceAs (DecidableEq (Option Generated))

structure Vault where
  secrets : Table Ref Secret
  known : List String
  named : ∀ ref x, secrets.get? ref = some x → ref.thumbprint ∈ known

variable {c : VaultCall} {tp : String}

namespace Vault

def empty : Vault := ⟨∅, [], by simp⟩

def thumbprints (v : Vault) (subdomain : String) : List String :=
  (v.secrets.keys.filter (·.subdomain = subdomain)).map Ref.thumbprint

def agents (v : Vault) : List String := (v.secrets.keys.map Ref.subdomain).dedup

def naming (v : Vault) (thumbprint : String) : Vault where
  secrets := v.secrets
  known := thumbprint :: v.known
  named ref x h := List.mem_cons_of_mem _ (v.named ref x h)

def writing (v : Vault) (ref : Ref) (record : Record) : Vault where
  secrets := v.secrets.insert ref (.record record)
  known := ref.thumbprint :: v.known
  named ref' x h := by
    rw [Table.get?_insert] at h
    split_ifs at h with hr
    · rw [hr]
      exact List.mem_cons_self
    · exact List.mem_cons_of_mem _ (v.named ref' x h)

def erasing (v : Vault) (ref : Ref) : Vault where
  secrets := v.secrets.erase ref
  known := v.known
  named ref' x h := by
    rw [Table.get?_erase] at h
    split_ifs at h
    exact v.named ref' x h

/-- A listing names what is there, in any order; it fails in any way, but says that there
is nothing only when that is so. -/
def listed (names : List String) : Except VaultFault (List String) → Bool
  | .ok l => decide (l.Perm names)
  | .error f => decide (f = .nothingThere → names = [])

def step (c : VaultCall) (v : Vault) (r : c.Reply) : Option Vault :=
  match c, r with
  | .listAgents, r => if listed v.agents r then some v else none
  | .listKeys subdomain, r => if listed (v.thumbprints subdomain) r then some v else none
  | .read ref, .ok x => if x = v.secrets.get? ref then some v else none
  | .read ref, .error f =>
    if f = .nothingThere → v.secrets.get? ref = none then some v else none
  | .write ref record, w => some (if w.applied then v.writing ref record else v)
  | .deleteMetadata ref, w =>
    some (if w.applied then (v.erasing ref).naming ref.thumbprint else v.naming ref.thumbprint)
  | .generateKey, none => some v
  | .generateKey, some g =>
    if validThumbprint g.thumbprint ∧ g.thumbprint ∉ v.known then some (v.naming g.thumbprint)
    else none

def answer (c : VaultCall) (v : Vault) : c.Reply :=
  match c with
  | .listAgents => .ok v.agents
  | .listKeys subdomain => .ok (v.thumbprints subdomain)
  | .read ref => .ok (v.secrets.get? ref)
  | .write _ _ | .deleteMetadata _ => .done ()
  | .generateKey => none

variable {v v' : Vault} {ref : Ref}

@[simp] theorem get?_writing (ref' : Ref) (record : Record) :
    (v.writing ref record).secrets.get? ref' =
      if ref' = ref then some (.record record) else v.secrets.get? ref' :=
  Table.get?_insert _ _ _ _

inductive Effect (v : Vault) : VaultCall → Vault → Prop
  | unchanged {c : VaultCall} : Effect v c v
  | written (ref : Ref) (record : Record) : Effect v (.write ref record) (v.writing ref record)
  | kept (ref : Ref) : Effect v (.deleteMetadata ref) (v.naming ref.thumbprint)
  | erased (ref : Ref) :
      Effect v (.deleteMetadata ref) ((v.erasing ref).naming ref.thumbprint)
  | generated (g : Generated) (valid : validThumbprint g.thumbprint = true)
      (fresh : g.thumbprint ∉ v.known) : Effect v .generateKey (v.naming g.thumbprint)

theorem step_effect {r : c.Reply} (h : step c v r = some v') : Effect v c v' := by
  cases c with
  | listAgents | listKeys subdomain =>
    simp only [step, Option.ite_none_right_eq_some, Option.some.injEq] at h
    obtain ⟨-, rfl⟩ := h
    exact .unchanged
  | read ref =>
    cases r with
    | ok x | error f =>
      simp only [step, Option.ite_none_right_eq_some, Option.some.injEq] at h
      obtain ⟨-, rfl⟩ := h
      exact .unchanged
  | write ref record =>
    cases h
    split_ifs
    · exact .written ref record
    · exact .unchanged
  | deleteMetadata ref =>
    cases h
    split_ifs
    · exact .erased ref
    · exact .kept ref
  | generateKey =>
    rcases r with _ | g
    · cases h
      exact .unchanged
    · simp only [step, Option.ite_none_right_eq_some, Option.some.injEq] at h
      obtain ⟨⟨hv, hf⟩, rfl⟩ := h
      exact .generated g hv hf

theorem Effect.known (h : Effect v c v') (htp : tp ∈ v.known) : tp ∈ v'.known := by
  cases h with
  | unchanged => exact htp
  | _ => exact List.mem_cons_of_mem _ htp

theorem Effect.get? (h : Effect v c v') (ref : Ref) :
    v'.secrets.get? ref = v.secrets.get? ref ∨ (∃ record, c = .write ref record) ∨
      c = .deleteMetadata ref ∧ v'.secrets.get? ref = none := by
  cases h with
  | unchanged => exact .inl rfl
  | written ref' record =>
    by_cases hr : ref = ref'
    · exact .inr (.inl ⟨record, by rw [hr]⟩)
    · exact .inl (by simp [hr])
  | kept ref' => exact .inl rfl
  | erased ref' =>
    by_cases hr : ref = ref'
    · refine .inr (.inr ⟨by rw [hr], ?_⟩)
      simp [naming, erasing, hr, Table.get?_erase]
    · exact .inl (by simp [naming, erasing, hr, Table.get?_erase])
  | generated g => exact .inl rfl

theorem mem_thumbprints {subdomain : String} :
    tp ∈ v.thumbprints subdomain ↔ (v.secrets.get? ⟨subdomain, tp⟩).isSome = true := by
  have hkey : ∀ ref : Ref, ref ∈ v.secrets.keys ↔ (v.secrets.get? ref).isSome = true :=
    fun ref => AList.lookup_isSome.symm
  simp only [thumbprints, List.mem_map, List.mem_filter, decide_eq_true_eq, hkey]
  constructor
  · rintro ⟨ref, ⟨hs, rfl⟩, rfl⟩
    exact hs
  · exact fun h => ⟨⟨subdomain, tp⟩, ⟨h, rfl⟩, rfl⟩

theorem nodup_thumbprints (subdomain : String) : (v.thumbprints subdomain).Nodup := by
  refine List.Nodup.map_on ?_ ((AList.keys_nodup v.secrets).filter _)
  intro a ha b hb hab
  cases a
  cases b
  simp_all

theorem listed_cases {names : List String} {r : Except VaultFault (List String)}
    (h : listed names r = true) : (∃ l, r = .ok l ∧ l.Perm names) ∨
      r = .error .nothingThere ∧ names = [] ∨ ∃ f, r = .error f ∧ f ≠ .nothingThere := by
  cases r with
  | ok l => exact .inl ⟨l, rfl, of_decide_eq_true h⟩
  | error f =>
    by_cases hf : f = .nothingThere
    · exact .inr (.inl ⟨by rw [hf], of_decide_eq_true h hf⟩)
    · exact .inr (.inr ⟨f, rfl, hf⟩)

theorem read_step {x : Option Secret} (h : step (.read ref) v (.ok x) = some v') :
    x = v.secrets.get? ref := by
  simp only [step, Option.ite_none_right_eq_some] at h
  exact h.1

end Vault

/-- Why a query failed: its context ended, there was no connection, a unique constraint
was violated, or the server gave another error code. -/
inductive PgFault
  | context
  | connect
  | unique (constraint : String)
  | state (code : String)
  deriving DecidableEq

def PgFault.isUnavailable : PgFault → Bool
  | .context | .connect => true
  | .unique _ => false
  | .state code => [['0', '8'], ['5', '3'], ['5', '7']].contains (code.toList.take 2)

structure RevocationList where
  asOf : ℤ
  revoked : List String
  deriving DecidableEq

def RevocationList.baseline : RevocationList := ⟨0, []⟩

structure Developer where
  issuer : String
  subject : String
  email : String
  subdomain : String
  deriving DecidableEq

structure Card where
  clientName : String
  clientURI : String
  contacts : List String
  purpose : String
  deriving DecidableEq

inductive TableCall
  | revoke (subdomain thumbprint : String) (nowEpoch : ℤ)
  | getRevocation (subdomain : String)
  | getDeveloperBySubject (issuer subject : String)
  | getDeveloperBySubdomain (subdomain : String)
  | reserveDeveloper (d : Developer)
  | upsertCard (subdomain : String) (card : Card)
  | getCard (subdomain : String)
  deriving DecidableEq

def TableCall.Reply : TableCall → Type
  | .revoke _ _ _ => Written PgFault ℤ
  | .reserveDeveloper _ => Written PgFault Developer
  | .upsertCard _ _ => Written PgFault Card
  | .getRevocation _ => Except PgFault (Option RevocationList)
  | .getDeveloperBySubject _ _ | .getDeveloperBySubdomain _ =>
    Except PgFault (Option Developer)
  | .getCard _ => Except PgFault (Option Card)

instance : (c : TableCall) → DecidableEq c.Reply
  | .revoke _ _ _ => inferInstanceAs (DecidableEq (Written PgFault ℤ))
  | .reserveDeveloper _ => inferInstanceAs (DecidableEq (Written PgFault Developer))
  | .upsertCard _ _ => inferInstanceAs (DecidableEq (Written PgFault Card))
  | .getRevocation _ => inferInstanceAs (DecidableEq (Except PgFault (Option RevocationList)))
  | .getDeveloperBySubject _ _ | .getDeveloperBySubdomain _ =>
    inferInstanceAs (DecidableEq (Except PgFault (Option Developer)))
  | .getCard _ => inferInstanceAs (DecidableEq (Except PgFault (Option Card)))

structure Tables where
  revocations : Table String RevocationList
  developers : Table (String × String) Developer
  cards : Table String Card
  keyed : ∀ i d, developers.get? i = some d → i = (d.issuer, d.subject)
  unique : ∀ i j d e, developers.get? i = some d → developers.get? j = some e →
    d.subdomain = e.subdomain → i = j

def maxBigint : ℤ := 9223372036854775807

/-- The row after one more revocation: the counter moves past its old value and up to the
given instant, and the thumbprint is appended unless it is there. -/
def RevocationList.revoke (row : Option RevocationList) (thumbprint : String) (nowEpoch : ℤ) :
    RevocationList :=
  match row with
  | none => ⟨nowEpoch, [thumbprint]⟩
  | some row =>
    { asOf := max (row.asOf + 1) nowEpoch
      revoked := if thumbprint ∈ row.revoked then row.revoked else row.revoked ++ [thumbprint] }

def developerSubdomainConstraint : String := "developer_account_subdomain_unique"

def developerPKConstraint : String := "developer_account_pkey"

variable {s t : Tables} {d : Developer}

namespace Tables

def empty : Tables := ⟨∅, ∅, ∅, by simp, by simp⟩

def rowOf (s : Tables) (subdomain : String) : Option RevocationList :=
  s.revocations.get? subdomain

def canRevoke (s : Tables) (subdomain : String) : Bool :=
  (s.rowOf subdomain).all fun row => row.asOf + 1 ≤ maxBigint

def developerOf (s : Tables) (subdomain : String) : Option Developer :=
  (s.developers.entries.map Sigma.snd).find? (·.subdomain = subdomain)

def subjectTaken (s : Tables) (d : Developer) : Bool :=
  (s.developers.get? (d.issuer, d.subject)).isSome

def subdomainTaken (s : Tables) (d : Developer) : Bool := (s.developerOf d.subdomain).isSome

theorem ne_of_not_subdomainTaken {e : Developer} {i : String × String}
    (h : s.subdomainTaken d = false) (he : s.developers.get? i = some e) :
    e.subdomain ≠ d.subdomain := by
  intro hsame
  have hmem : (⟨i, e⟩ : Sigma fun _ => Developer) ∈ s.developers.entries :=
    AList.mem_lookup_iff.mp he
  have hnone : s.developerOf d.subdomain = none := by
    rw [subdomainTaken] at h
    cases hx : s.developerOf d.subdomain with
    | none => rfl
    | some x => simp [hx] at h
  have hno := List.find?_eq_none.mp hnone e (List.mem_map.mpr ⟨_, hmem, rfl⟩)
  simp [hsame] at hno

def reserved (s : Tables) (d : Developer) (hd : s.subdomainTaken d = false) : Tables :=
  { s with
    developers := s.developers.insert (d.issuer, d.subject) d
    keyed := by
      intro i e he
      rw [Table.get?_insert] at he
      split_ifs at he with hi
      · cases he
        exact hi
      · exact s.keyed i e he
    unique := by
      intro i j e e' he he' hsame
      rw [Table.get?_insert] at he he'
      split_ifs at he he' with hi hj hj
      · exact hi.trans hj.symm
      · cases he
        exact absurd hsame.symm (ne_of_not_subdomainTaken hd he')
      · cases he'
        exact absurd hsame (ne_of_not_subdomainTaken hd he)
      · exact s.unique i j e e' he he' hsame }

def revoked (s : Tables) (subdomain : String) (row : RevocationList) : Tables :=
  { s with revocations := s.revocations.insert subdomain row }

def revokeStep (s : Tables) (subdomain thumbprint : String) (nowEpoch : ℤ)
    (w : Written PgFault ℤ) : Option Tables :=
  let row := RevocationList.revoke (s.rowOf subdomain) thumbprint nowEpoch
  if w.applied then
    if s.canRevoke subdomain && w.returns row.asOf then some (s.revoked subdomain row) else none
  else some s

/-- A row is inserted only if it violates no unique constraint, and a violation is
reported only where there is one. -/
def reserveStep (s : Tables) (d : Developer) : Written PgFault Developer → Option Tables
  | .failed (.unique constraint) applied =>
    if applied = false ∧ (constraint = developerPKConstraint ∧ s.subjectTaken d ∨
        constraint = developerSubdomainConstraint ∧ s.subdomainTaken d) then some s
    else none
  | .failed _ false => some s
  | w =>
    if h : s.subjectTaken d = false ∧ s.subdomainTaken d = false ∧ w.returns d = true then
      some (s.reserved d h.2.1)
    else none

def step (c : TableCall) (s : Tables) (r : c.Reply) : Option Tables :=
  match c, r with
  | .revoke subdomain thumbprint nowEpoch, w => s.revokeStep subdomain thumbprint nowEpoch w
  | .getRevocation subdomain, .ok x => if x = s.rowOf subdomain then some s else none
  | .getRevocation _, .error _ => some s
  | .getDeveloperBySubject issuer subject, .ok x =>
    if x = s.developers.get? (issuer, subject) then some s else none
  | .getDeveloperBySubject _ _, .error _ => some s
  | .getDeveloperBySubdomain subdomain, .ok x =>
    if x = s.developerOf subdomain then some s else none
  | .getDeveloperBySubdomain _, .error _ => some s
  | .reserveDeveloper d, w => s.reserveStep d w
  | .upsertCard subdomain card, w =>
    if w.returns card then
      some (if w.applied then { s with cards := s.cards.insert subdomain card } else s)
    else none
  | .getCard subdomain, .ok x => if x = s.cards.get? subdomain then some s else none
  | .getCard _, .error _ => some s

inductive Effect (s : Tables) : TableCall → Tables → Prop
  | none (c : TableCall) : Effect s c s
  | revoked (subdomain thumbprint : String) (nowEpoch : ℤ) :
      Effect s (.revoke subdomain thumbprint nowEpoch) (s.revoked subdomain
        (RevocationList.revoke (s.rowOf subdomain) thumbprint nowEpoch))
  | reserved (d : Developer) (hd : s.subdomainTaken d = false) (free : s.subjectTaken d = false) :
      Effect s (.reserveDeveloper d) (s.reserved d hd)
  | upserted (subdomain : String) (card : Card) :
      Effect s (.upsertCard subdomain card) { s with cards := s.cards.insert subdomain card }

theorem reserveStep_effect {w : Written PgFault Developer} (h : s.reserveStep d w = some t) :
    Effect s (.reserveDeveloper d) t := by
  unfold reserveStep at h
  split at h
  · split_ifs at h
    cases h
    exact .none _
  · cases h
    exact .none _
  · split_ifs at h with hfree
    cases h
    exact .reserved d hfree.2.1 hfree.1

theorem step_effect {c : TableCall} {r : c.Reply} (h : step c s r = some t) : Effect s c t := by
  cases c with
  | revoke subdomain thumbprint nowEpoch =>
    simp only [step, revokeStep] at h
    split_ifs at h
    · cases h
      exact .revoked subdomain thumbprint nowEpoch
    · cases h
      exact .none _
  | reserveDeveloper d => exact reserveStep_effect h
  | upsertCard subdomain card =>
    simp only [step, Option.ite_none_right_eq_some, Option.some.injEq] at h
    obtain ⟨-, rfl⟩ := h
    split_ifs
    · exact .upserted subdomain card
    · exact .none _
  | _ =>
    cases r <;> simp only [step, Option.ite_none_right_eq_some, Option.some.injEq] at h
    · obtain rfl := h
      exact .none _
    · obtain ⟨-, rfl⟩ := h
      exact .none _

/-- The answers of a database that does not fail. A row that violates a constraint is
refused, the primary key first. -/
def answer (c : TableCall) (s : Tables) : c.Reply :=
  match c with
  | .revoke subdomain thumbprint nowEpoch =>
    .done (RevocationList.revoke (s.rowOf subdomain) thumbprint nowEpoch).asOf
  | .getRevocation subdomain => .ok (s.rowOf subdomain)
  | .getDeveloperBySubject issuer subject => .ok (s.developers.get? (issuer, subject))
  | .getDeveloperBySubdomain subdomain => .ok (s.developerOf subdomain)
  | .reserveDeveloper d =>
    if s.subjectTaken d then .failed (.unique developerPKConstraint) false
    else if s.subdomainTaken d then .failed (.unique developerSubdomainConstraint) false
    else .done d
  | .upsertCard _ card => .done card
  | .getCard subdomain => .ok (s.cards.get? subdomain)

end Tables

end Ramp.Identity
