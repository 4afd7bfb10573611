import Ramp.Billing.Holds
import Ramp.Exchange.Wire
import Ramp.Program.Basic

/-! The wiring of the Exchange service: what `ExecuteTransaction` calls and what a call can do to
the store, the configuration, and the functions of the libraries. `Blob` is the type of
serialized protobuf payloads. -/

namespace Ramp.Exchange

open Ramp.Billing

structure PgError where
  code : String
  constraint : String
  text : String
  deriving DecidableEq

inductive AgentReply
  | found (agent : Agent)
  | notFound
  | notAHost (text : String)
  | err (text : String)
  deriving DecidableEq

inductive RegisterReply
  | ok
  | callerFault
  | err (text : String)
  deriving DecidableEq

inductive ClaimReply
  | won
  | lost (stored : Bytes)
  | err (text : String) (applied : Bool)
  deriving DecidableEq

inductive ResponseReply (Blob : Type)
  | payload (stored : Option Blob)
  | err (text : String)
  deriving DecidableEq

inductive FinalizeReply
  | done (won : Bool)
  | err (text : String) (applied : Bool)
  deriving DecidableEq

inductive RowReply (Blob : Type)
  | found (row : TransactionRecord Blob)
  | notFound
  | err (text : String)
  deriving DecidableEq

inductive PersistReply (Blob : Type)
  | committed (row : TransactionRecord Blob)
  | failed (e : PgError) (applied : Bool)
  deriving DecidableEq

inductive SorReply
  | active (on : Bool)
  | notFound (text : String)
  | err (text : String)
  deriving DecidableEq

inductive SignerReply
  | ok
  | rsaKeyUnavailable (text : String)
  | err (text : String)
  deriving DecidableEq

inductive Op (Blob : Type)
  | agentByID (id : String)
  | registerFromDirectory (id directory : String)
  | claimRequest (agentID idempotencyKey : String) (itemsDigest : Bytes)
  | requestResponse (agentID idempotencyKey : String)
  | finalizeRequest (agentID idempotencyKey : String) (payload : Blob)
  | byIdempotencyKey (key : String)
  | persist (intent : PersistTxIntent Blob) (obligation : Bool) (evidence : EvidenceRecord)
  | catalogByURI (uri : String)
  | tenantByID (id : String)
  | feeOverrideByOwner (tenantID ownerID : String)
  | obligationCounts (tenantID agentID : String) (now : Time)
  | sorIsActive (billingRef : String)
  | authorize (req : AuthorizeRequest)
  | record (billingID : String) (quantity : Int) (key : String)
  | release (billingID key : String)
  | urlSignerFor (keys : TenantKeys)
  | signURL (keys : TenantKeys) (uri thumbprint : String) (expiry : Time)
  | now
  | newUUID
  | wait
  deriving DecidableEq

@[reducible] def Res {Blob : Type} : Op Blob → Type
  | .agentByID _ => AgentReply
  | .registerFromDirectory _ _ => RegisterReply
  | .claimRequest _ _ _ => ClaimReply
  | .requestResponse _ _ => ResponseReply Blob
  | .finalizeRequest _ _ _ => FinalizeReply
  | .byIdempotencyKey _ => RowReply Blob
  | .persist _ _ _ => PersistReply Blob
  | .catalogByURI _ => Option CatalogEntry
  | .tenantByID _ => Except String Tenant
  | .feeOverrideByOwner _ _ => Except String (Option Int)
  | .obligationCounts _ _ _ => Except String ObligationCounts
  | .sorIsActive _ => SorReply
  | .authorize _ => AuthorizeReply
  | .record _ _ _ => SettleReply
  | .release _ _ => SettleReply
  | .urlSignerFor _ => SignerReply
  | .signURL _ _ _ _ => Except String SignedURL
  | .now => Time
  | .newUUID => String
  | .wait => Bool

instance {Blob : Type} [DecidableEq Blob] (op : Op Blob) : DecidableEq (Res op) := by
  cases op <;> exact inferInstance

structure Claim (Blob : Type) where
  itemsDigest : Bytes
  responsePayload : Option Blob

/-- `transaction_log` by its unique `idempotency_key`, the request claims by
agent and key, and the holds of the billing adapter. -/
structure Store (Blob : Type) where
  rows : String → Option (TransactionRecord Blob) := fun _ => none
  claims : String × String → Option (Claim Blob) := fun _ => none
  holds : HoldBook := {}

def idempotencyUniqueConstraint : String := "transaction_log_tx_request_id_key"

def pgUniqueViolation : String := "23505"

def PgError.isIdempotencyViolation (e : PgError) : Bool :=
  e.code = pgUniqueViolation ∧ e.constraint = idempotencyUniqueConstraint

namespace Store

variable {Blob : Type} [DecidableEq Blob]

def insertRow (s : Store Blob) (row : TransactionRecord Blob) : Store Blob :=
  { s with rows := Function.update s.rows row.idempotencyKey (some row) }

def setClaim (s : Store Blob) (slot : String × String) (c : Claim Blob) : Store Blob :=
  { s with claims := Function.update s.claims slot (some c) }

def persist (s : Store Blob) (intent : PersistTxIntent Blob) :
    PersistReply Blob → Option (Store Blob)
  | .committed row =>
    if s.rows intent.idempotencyKey = none ∧ row = intent.record then some (s.insertRow row)
    else none
  | .failed e applied =>
    if e.isIdempotencyViolation then
      if s.rows intent.idempotencyKey = none then none else some s
    else if applied then
      if s.rows intent.idempotencyKey = none then some (s.insertRow intent.record) else none
    else some s

def claimRequest (s : Store Blob) (slot : String × String) (digest : Bytes) :
    ClaimReply → Option (Store Blob)
  | .won => if s.claims slot = none then some (s.setClaim slot ⟨digest, none⟩) else none
  | .lost stored => if (s.claims slot).map Claim.itemsDigest = some stored then some s else none
  | .err _ true => if s.claims slot = none then some (s.setClaim slot ⟨digest, none⟩) else none
  | .err _ false => some s

def finalized (s : Store Blob) (slot : String × String) : Option Blob :=
  (s.claims slot).bind Claim.responsePayload

def finalize (s : Store Blob) (slot : String × String) (payload : Blob) : Option (Store Blob) :=
  match s.claims slot with
  | some ⟨digest, none⟩ => some (s.setClaim slot ⟨digest, some payload⟩)
  | _ => none

def finalizeRequest (s : Store Blob) (slot : String × String) (payload : Blob) :
    FinalizeReply → Option (Store Blob)
  | .done true => s.finalize slot payload
  | .done false => if (s.finalize slot payload).isNone then some s else none
  | .err _ true => s.finalize slot payload
  | .err _ false => some s

def requestResponse (s : Store Blob) (slot : String × String) :
    ResponseReply Blob → Option (Store Blob)
  | .payload stored => if stored = s.finalized slot then some s else none
  | .err _ => some s

def byIdempotencyKey (s : Store Blob) (key : String) : RowReply Blob → Option (Store Blob)
  | .found row => if s.rows key = some row then some s else none
  | .notFound => if s.rows key = none then some s else none
  | .err _ => some s

def withHolds (s : Store Blob) (b : Option HoldBook) : Option (Store Blob) :=
  b.map fun holds => { s with holds }

def step : (op : Op Blob) → Store Blob → Res op → Option (Store Blob)
  | .claimRequest a k d, s, r => s.claimRequest (a, k) d r
  | .requestResponse a k, s, r => s.requestResponse (a, k) r
  | .finalizeRequest a k p, s, r => s.finalizeRequest (a, k) p r
  | .byIdempotencyKey k, s, r => s.byIdempotencyKey k r
  | .persist i _ _, s, r => s.persist i r
  | .authorize req, s, r => s.withHolds (s.holds.authorize req r)
  | .record id _ key, s, r => s.withHolds (s.holds.settle .record id key r)
  | .release id key, s, r => s.withHolds (s.holds.settle .release id key r)
  | .agentByID _, s, _ => some s
  | .registerFromDirectory _ _, s, _ => some s
  | .catalogByURI _, s, _ => some s
  | .tenantByID _, s, _ => some s
  | .feeOverrideByOwner _ _, s, _ => some s
  | .obligationCounts _ _ _, s, _ => some s
  | .sorIsActive _, s, _ => some s
  | .urlSignerFor _, s, _ => some s
  | .signURL _ _ _ _, s, _ => some s
  | .now, s, _ => some s
  | .newUUID, s, _ => some s
  | .wait, s, _ => some s

end Store

inductive OfferVerdict
  | ok
  | expired (text : String)
  | signatureInvalid (text : String)
  | other (text : String)

inductive AcceptanceVerdict
  | ok
  | signatureInvalid (text : String)
  | other (text : String)

structure ReportingPolicy where
  requiredFields : List String := []
  quantityTolerance : Option ℚ := none
  windowSeconds : Option Int := none

/-- The fields up to `hasAgentReg` are configuration; the others are library
functions, on which no law is assumed unless a theorem names it. -/
structure Service (Blob : Type) where
  exchange : String
  urlTTL : Time
  reportWindow : Time
  offerPublicKey : Bytes
  hasAgents : Bool
  hasAgentReg : Bool
  fromDirectory : String → Except String String
  quote : String → String
  verifyOffer : Offer → String → Bytes → Except String Unit
  sdkVerifyPresentedOffer : Offer → Bytes → Time → OfferVerdict
  canonicalOfferBytes : Offer → Except String Bytes
  verifyOfferAcceptance : Offer → Requester → String → String → Bytes → AcceptanceVerdict
  canonicalAcceptanceBytes : Offer → Requester → String → Except String Bytes
  verifyRequestAcceptanceProjection :
    TransactionRequest → RequestAcceptance → String → Bytes → Except String Bytes
  thumbprintBytes : Bytes → Except String Bytes
  rawURLEncoding : Bytes → String
  sha256 : Bytes → Bytes
  marshalItem : TransactionResultItem → Except String Blob
  unmarshalItem : Blob → Except String TransactionResultItem
  marshalResponse : TransactionResponse → Except String Blob
  unmarshalResponse : Blob → Except String TransactionResponse
  isEmpty : Blob → Bool
  parseMoney : String → Except String ℚ
  formatMoney : ℚ → Except String String
  decimalString : ℚ → String
  parseRat : String → Option ℚ
  offerJSON : Offer → Except String String
  decodeReportingPolicy : String → ReportingPolicy
  protocolVersion : String
  signatureAlgorithm : String
  acceptanceSignatureAlgorithm : String

/-- What the transport attached to a request: the key ids of the verified
signature chain, outermost last, and the correlation id. -/
structure RequestContext where
  verified : List String
  requestID : String := ""
  requestIDMinted : Bool := false

structure RequestCorrelation where
  id : Option String := none
  minted : Option Bool := none

def resolveRequestCorrelation (ctx : RequestContext) : RequestCorrelation :=
  if ctx.requestID = "" then {}
  else { id := some ctx.requestID, minted := some ctx.requestIDMinted }

abbrev Svc (Blob : Type) := ExceptT Error (Prog (Op Blob) Res)

abbrev ask {Blob : Type} (op : Op Blob) : Svc Blob (Res op) := Ramp.ask op

variable {Blob : Type}

def PersistReply.wrote : PersistReply Blob → Bool
  | .committed _ => true
  | .failed e applied => applied && !e.isIdempotencyViolation

def FinalizeReply.wrote : FinalizeReply → Bool
  | .done won => won
  | .err _ applied => applied

def HoldExpiry (s t : Store Blob) : Prop := ∃ id, t = { s with holds := s.holds.expire id }

namespace Store

variable {s t : Store Blob}

@[simp] theorem insertRow_rows_self (s : Store Blob) (row : TransactionRecord Blob) :
    (s.insertRow row).rows row.idempotencyKey = some row := by
  simp [insertRow]

variable {key : String} {intent : PersistTxIntent Blob} {row : TransactionRecord Blob}
  {slot : String × String} {payload : Blob} {op : Op Blob} {r : Res op}

theorem insertRow_rows_of_ne (row : TransactionRecord Blob) (h : key ≠ row.idempotencyKey) :
    (s.insertRow row).rows key = s.rows key := by
  simp [insertRow, h]

theorem persist_cases [DecidableEq Blob] {r : PersistReply Blob} (h : s.persist intent r = some t) :
    (r.wrote = true ∧ s.rows intent.idempotencyKey = none ∧ t = s.insertRow intent.record) ∨
      (r.wrote = false ∧ t = s) := by
  rcases r with row | ⟨e, applied⟩
  · simp only [persist] at h
    split_ifs at h with hc
    cases h
    exact .inl ⟨rfl, hc.1, by rw [hc.2]⟩
  · simp only [persist] at h
    split_ifs at h with hv hn ha hn
    · cases h
      exact .inr ⟨by simp [PersistReply.wrote, hv], rfl⟩
    · cases h
      exact .inl ⟨by simp [PersistReply.wrote, hv, ha], hn, rfl⟩
    · cases h
      exact .inr ⟨by simp [PersistReply.wrote, ha], rfl⟩

theorem persist_committed [DecidableEq Blob] (h : s.persist intent (.committed row) = some t) :
    s.rows intent.idempotencyKey = none ∧ row = intent.record ∧
      t.rows intent.idempotencyKey = some row := by
  simp only [persist] at h
  split_ifs at h with hc
  cases h
  obtain ⟨hfree, rfl⟩ := hc
  exact ⟨hfree, rfl, insertRow_rows_self s intent.record⟩

theorem byIdempotencyKey_cases [DecidableEq Blob] {r : RowReply Blob}
    (h : s.byIdempotencyKey key r = some t) :
    t = s ∧ (∀ row, r = .found row → s.rows key = some row) ∧
      (r = .notFound → s.rows key = none) := by
  rcases r with row | _ | e
  · simp only [byIdempotencyKey] at h
    split_ifs at h with hr
    exact ⟨(Option.some.inj h).symm, fun row' hrow => by cases hrow; exact hr, by simp⟩
  · simp only [byIdempotencyKey] at h
    split_ifs at h with hr
    exact ⟨(Option.some.inj h).symm, by simp, fun _ => hr⟩
  · exact ⟨(Option.some.inj h).symm, by simp, by simp⟩

theorem requestResponse_cases [DecidableEq Blob] {r : ResponseReply Blob}
    (h : s.requestResponse slot r = some t) :
    t = s ∧ ∀ p, r = .payload p → p = s.finalized slot := by
  rcases r with p | e
  · simp only [requestResponse] at h
    split_ifs at h with hp
    exact ⟨(Option.some.inj h).symm, fun p' hp' => by cases hp'; exact hp⟩
  · exact ⟨(Option.some.inj h).symm, by simp⟩

theorem withHolds_some {b : Option HoldBook} (h : s.withHolds b = some t) :
    ∃ holds, b = some holds ∧ t = { s with holds } := by
  obtain ⟨holds, hb, ht⟩ := Option.map_eq_some_iff.mp h
  exact ⟨holds, hb, ht.symm⟩

theorem claimRequest_cases {digest : Bytes} {r : ClaimReply}
    (h : s.claimRequest slot digest r = some t) : (t = s ∧ ∀ stored, r = .lost stored →
      (s.claims slot).map Claim.itemsDigest = some stored) ∨
      (s.claims slot = none ∧ t = s.setClaim slot ⟨digest, none⟩ ∧ ∀ stored, r ≠ .lost stored) := by
  rcases r with _ | stored | ⟨e, _ | _⟩ <;> simp only [claimRequest] at h
  · split_ifs at h with hc
    exact .inr ⟨hc, (Option.some.inj h).symm, by simp⟩
  · split_ifs at h with hc
    refine .inl ⟨(Option.some.inj h).symm, fun stored' hs => ?_⟩
    obtain rfl := ClaimReply.lost.inj hs
    exact hc
  · exact .inl ⟨(Option.some.inj h).symm, by simp⟩
  · split_ifs at h with hc
    exact .inr ⟨hc, (Option.some.inj h).symm, by simp⟩

theorem finalize_cases (h : s.finalize slot payload = some t) :
    ∃ digest, s.claims slot = some ⟨digest, none⟩ ∧ t = s.setClaim slot ⟨digest, some payload⟩ := by
  unfold finalize at h
  split at h
  next digest hc => exact ⟨digest, hc, (Option.some.inj h).symm⟩
  · simp at h

theorem finalizeRequest_cases {r : FinalizeReply} (h : s.finalizeRequest slot payload r = some t) :
    (r.wrote = true ∧ s.finalize slot payload = some t) ∨ (r.wrote = false ∧ t = s) := by
  rcases r with _ | ⟨e, _ | _⟩
  · rename_i won
    cases won
    · simp only [finalizeRequest] at h
      split_ifs at h
      exact .inr ⟨rfl, (Option.some.inj h).symm⟩
    · exact .inl ⟨rfl, h⟩
  · exact .inr ⟨rfl, (Option.some.inj h).symm⟩
  · exact .inl ⟨rfl, h⟩

/-- What an answered call did to the store. -/
inductive Effect (s : Store Blob) : (op : Op Blob) → Res op → Store Blob → Prop
  | same {op : Op Blob} {r : Res op} : Effect s op r s
  | inserted {intent : PersistTxIntent Blob} {ob : Bool} {ev : EvidenceRecord}
    {r : PersistReply Blob} (hw : r.wrote = true) (hfree : s.rows intent.idempotencyKey = none) :
    Effect s (.persist intent ob ev) r (s.insertRow intent.record)
  | claimed {a k : String} {d : Bytes} {r : ClaimReply} (hc : s.claims (a, k) = none) :
    Effect s (.claimRequest a k d) r (s.setClaim (a, k) ⟨d, none⟩)
  | finalized {a k : String} {p : Blob} {d : Bytes} {r : FinalizeReply} (hw : r.wrote = true)
    (hc : s.claims (a, k) = some ⟨d, none⟩) :
    Effect s (.finalizeRequest a k p) r (s.setClaim (a, k) ⟨d, some p⟩)
  | held {req : AuthorizeRequest} {r : AuthorizeReply} {holds : HoldBook}
    (h : s.holds.authorize req r = some holds) : Effect s (.authorize req) r { s with holds }
  | recorded {id k : String} {q : Int} {r : SettleReply} {holds : HoldBook}
    (h : s.holds.settle .record id k r = some holds) : Effect s (.record id q k) r { s with holds }
  | released {id k : String} {r : SettleReply} {holds : HoldBook}
    (h : s.holds.settle .release id k r = some holds) : Effect s (.release id k) r { s with holds }

variable [DecidableEq Blob] (h : step op s r = some t)
include h

theorem step_effect : Effect s op r t := by
  cases op
  case claimRequest =>
    rcases claimRequest_cases h with ⟨rfl, -⟩ | ⟨hc, rfl, -⟩
    · exact .same
    · exact .claimed hc
  case finalizeRequest =>
    rcases finalizeRequest_cases h with ⟨hw, h⟩ | ⟨-, rfl⟩
    · obtain ⟨digest, hc, rfl⟩ := finalize_cases h
      exact .finalized hw hc
    · exact .same
  case requestResponse => exact (requestResponse_cases h).1 ▸ .same
  case byIdempotencyKey => exact (byIdempotencyKey_cases h).1 ▸ .same
  case persist =>
    rcases persist_cases h with ⟨hw, hfree, rfl⟩ | ⟨-, rfl⟩
    · exact .inserted hw hfree
    · exact .same
  case authorize | record | release =>
    obtain ⟨holds, hb, rfl⟩ := withHolds_some h
    constructor
    exact hb
  all_goals
    cases h
    exact .same

theorem step_rows (hop : ∀ intent ob ev, op ≠ .persist intent ob ev) : t.rows = s.rows := by
  cases step_effect h with
  | inserted => exact absurd rfl (hop _ _ _)
  | _ => rfl

theorem step_rows_keep (hrow : s.rows key = some row) : t.rows key = some row := by
  cases step_effect h with
  | inserted _ hfree =>
    rw [insertRow_rows_of_ne, hrow]
    rintro rfl
    exact absurd (hfree.symm.trans hrow) (by simp)
  | _ => exact hrow

theorem step_holds (ha : ∀ req, op ≠ .authorize req) (hrec : ∀ id q k, op ≠ .record id q k)
    (hrel : ∀ id k, op ≠ .release id k) : t.holds = s.holds := by
  cases step_effect h with
  | held => exact absurd rfl (ha _)
  | recorded => exact absurd rfl (hrec _ _ _)
  | released => exact absurd rfl (hrel _ _)
  | _ => rfl

theorem step_valid (hv : s.holds.Valid) : t.holds.Valid := by
  cases step_effect h with
  | held hb => exact HoldBook.authorize_valid hv hb
  | recorded hb | released hb => exact HoldBook.settle_valid hv hb
  | _ => exact hv

theorem step_released {id : String} (hid : id ∈ s.holds.released) : id ∈ t.holds.released := by
  cases step_effect h with
  | held hb => exact HoldBook.authorize_released hb hid
  | recorded hb | released hb => exact HoldBook.settle_released hb hid
  | _ => exact hid

theorem step_charged : t.holds.charged = s.holds.charged ∨
    ∃ id q k, op = .record id q k ∧ t.holds.charged = id :: s.holds.charged := by
  cases step_effect h with
  | held hb => exact .inl (HoldBook.authorize_charged hb)
  | released hb => exact .inl (HoldBook.release_charged hb)
  | recorded hb => exact (HoldBook.record_charged hb).imp_right fun hc => ⟨_, _, _, rfl, hc⟩
  | _ => exact .inl rfl

end Store

end Ramp.Exchange
