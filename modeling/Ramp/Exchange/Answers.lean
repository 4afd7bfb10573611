import Ramp.Exchange.Services
import Ramp.Program.Schedule

/-! A store that answers every call, so no program over it is ever stuck, and a
plain wiring of the service in which payloads are kept as they are. -/

namespace Ramp.Exchange

open Ramp.Billing

variable {Blob : Type}

def freshID (b : HoldBook) : String := b.issued.foldr (fun h acc => h.id ++ acc) "h"

theorem foldr_ids_pos (holds : List Hold) :
    0 < (holds.foldr (fun h acc => h.id ++ acc) "h").length := by
  induction holds with
  | nil => decide
  | cons h holds ih =>
    rw [List.foldr_cons, String.length_append]
    omega

theorem length_lt_foldr_ids {holds : List Hold} {h : Hold} (hm : h ∈ holds) :
    h.id.length < (holds.foldr (fun h acc => h.id ++ acc) "h").length := by
  induction holds with
  | nil => exact absurd hm (by simp)
  | cons h' holds ih =>
    rw [List.foldr_cons, String.length_append]
    rcases List.mem_cons.mp hm with rfl | hm
    · have := foldr_ids_pos holds
      omega
    · have := ih hm
      omega

theorem freshID_ne (b : HoldBook) : freshID b ≠ "" := by
  intro h
  have hlen := foldr_ids_pos b.issued
  change 0 < (freshID b).length at hlen
  rw [h] at hlen
  exact absurd hlen (by decide)

theorem freshID_not_issued (b : HoldBook) : ¬ b.Issued (freshID b) := by
  rintro ⟨h, hm, hid⟩
  have hlt := length_lt_foldr_ids hm
  rw [hid] at hlt
  exact absurd hlt (by simp [freshID])

def settleAnswer (b : HoldBook) (op : SettleOp) (id key : String) : SettleReply :=
  if (op, id, key) ∈ b.settled ∨ b.Live id then .ok else .err .unknownBillingID false

theorem settle_answer (b : HoldBook) (op : SettleOp) (id key : String) :
    ∃ b', b.settle op id key (settleAnswer b op id key) = some b' := by
  unfold settleAnswer
  by_cases hs : (op, id, key) ∈ b.settled
  · exact ⟨b, by simp [HoldBook.settle, hs]⟩
  · by_cases hl : b.Live id
    · exact ⟨b.resolve op id key, by simp [HoldBook.settle, hs, hl]⟩
    · exact ⟨b, by simp [HoldBook.settle, hs, hl]⟩

def authorizeAnswer (b : HoldBook) (req : AuthorizeRequest) : AuthorizeReply :=
  match b.liveHold req.billingRef req.idempotencyKey with
  | some h => .result { billingID := h.id, approved := true }
  | none => .result { billingID := freshID b, approved := true }

theorem authorize_answer (b : HoldBook) (req : AuthorizeRequest) :
    ∃ b', b.authorize req (authorizeAnswer b req) = some b' := by
  unfold authorizeAnswer
  cases hl : b.liveHold req.billingRef req.idempotencyKey with
  | some h => exact ⟨b, by simp [HoldBook.authorize, HoldBook.hand, hl]⟩
  | none =>
    simp [HoldBook.authorize, HoldBook.hand, hl, freshID_ne, freshID_not_issued]

structure Surroundings where
  agent : Agent
  tenant : Tenant
  entry : CatalogEntry
  signed : SignedURL
  clock : Time := 0
  uuid : String := "tx"

def Store.answer (w : Surroundings) : (op : Op Blob) → Store Blob → Res op
  | .agentByID _, _ => .found w.agent
  | .registerFromDirectory _ _, _ => .ok
  | .claimRequest a k _, s =>
    match s.claims (a, k) with
    | none => .won
    | some c => .lost c.itemsDigest
  | .requestResponse a k, s => .payload (s.finalized (a, k))
  | .finalizeRequest a k p, s => .done (s.finalize (a, k) p).isSome
  | .byIdempotencyKey k, s =>
    match s.rows k with
    | some row => .found row
    | none => .notFound
  | .persist intent _ _, s =>
    match s.rows intent.idempotencyKey with
    | none => .committed intent.record
    | some _ => .failed ⟨pgUniqueViolation, idempotencyUniqueConstraint, "duplicate key"⟩ false
  | .catalogByURI _, _ => some w.entry
  | .tenantByID _, _ => .ok w.tenant
  | .feeOverrideByOwner _ _, _ => .ok none
  | .obligationCounts _ _ _, _ => .ok ⟨[]⟩
  | .sorIsActive _, _ => .active true
  | .authorize req, s => authorizeAnswer s.holds req
  | .record id _ key, s => settleAnswer s.holds .record id key
  | .release id key, s => settleAnswer s.holds .release id key
  | .urlSignerFor _, _ => .ok
  | .signURL _ _ _ _, _ => .ok w.signed
  | .now, _ => w.clock
  | .newUUID, _ => w.uuid
  | .wait, _ => true

theorem Store.answer_admissible [DecidableEq Blob] (w : Surroundings) (op : Op Blob)
    (s : Store Blob) : ∃ t, Store.step op s (Store.answer w op s) = some t := by
  cases op
  case claimRequest a k d =>
    cases hc : s.claims (a, k) with
    | none => exact ⟨s.setClaim (a, k) ⟨d, none⟩, by simp [step, answer, claimRequest, hc]⟩
    | some c => exact ⟨s, by simp [step, answer, claimRequest, hc]⟩
  case requestResponse a k => exact ⟨s, by simp [step, answer, requestResponse]⟩
  case finalizeRequest a k p =>
    cases hf : s.finalize (a, k) p with
    | none => exact ⟨s, by simp [step, answer, finalizeRequest, hf]⟩
    | some t => exact ⟨t, by simp [step, answer, finalizeRequest, hf]⟩
  case byIdempotencyKey k =>
    cases hr : s.rows k with
    | none => exact ⟨s, by simp [step, answer, byIdempotencyKey, hr]⟩
    | some row => exact ⟨s, by simp [step, answer, byIdempotencyKey, hr]⟩
  case persist intent ob ev =>
    cases hr : s.rows intent.idempotencyKey with
    | none => exact ⟨s.insertRow intent.record, by simp [step, answer, persist, hr]⟩
    | some row =>
      exact ⟨s, by simp [step, answer, persist, hr, PgError.isIdempotencyViolation]⟩
  case authorize req =>
    obtain ⟨b, hb⟩ := authorize_answer s.holds req
    exact ⟨{ s with holds := b }, by simp [step, answer, withHolds, hb]⟩
  case record id q key =>
    obtain ⟨b, hb⟩ := settle_answer s.holds .record id key
    exact ⟨{ s with holds := b }, by simp [step, answer, withHolds, hb]⟩
  case release id key =>
    obtain ⟨b, hb⟩ := settle_answer s.holds .release id key
    exact ⟨{ s with holds := b }, by simp [step, answer, withHolds, hb]⟩
  all_goals exact ⟨s, rfl⟩

abbrev Payload := TransactionResultItem ⊕ TransactionResponse

instance : DecidableEq (Event (Op Payload) Res) := inferInstance

def signedBy (pub : Bytes) : String := "key " ++ toString (pub.headD 0).toNat

def plainService : Service Payload where
  exchange := "exchange.example"
  urlTTL := 300000000000
  reportWindow := 86400000000000
  offerPublicKey := []
  hasAgents := true
  hasAgentReg := true
  fromDirectory := .ok
  quote s := "\"" ++ s ++ "\""
  verifyOffer _ _ _ := .ok ()
  sdkVerifyPresentedOffer _ _ _ := .ok
  canonicalOfferBytes _ := .ok []
  verifyOfferAcceptance _ _ _ signature pub :=
    if signature = signedBy pub then .ok else .signatureInvalid "signature does not match"
  canonicalAcceptanceBytes _ _ _ := .ok []
  verifyRequestAcceptanceProjection _ acceptance _ pub :=
    if acceptance.signature = signedBy pub then .ok [] else .error "signature does not match"
  thumbprintBytes := .ok
  rawURLEncoding digest := String.ofList ('t' :: digest.map fun b => Char.ofNat b.toNat)
  sha256 := id
  marshalItem item := .ok (.inl item)
  unmarshalItem
    | .inl item => .ok item
    | .inr _ => .error "not an item"
  marshalResponse resp := .ok (.inr resp)
  unmarshalResponse
    | .inr resp => .ok resp
    | .inl _ => .error "not a response"
  isEmpty _ := false
  parseMoney _ := .ok 1
  formatMoney _ := .ok "1"
  decimalString _ := "1"
  parseRat _ := some 1
  offerJSON _ := .ok ""
  decodeReportingPolicy _ := {}
  protocolVersion := "1"
  signatureAlgorithm := "ed25519"
  acceptanceSignatureAlgorithm := "ed25519"

def plainSurroundings : Surroundings where
  agent := ⟨"ref", List.replicate 32 1, "https://agent.example"⟩
  tenant := ⟨"tenant", true, 0, "", ⟨"ED25519", "key", "", ""⟩⟩
  entry := ⟨"resource", "tenant", "https://pub.example/a", "owner"⟩
  signed := ⟨"https://pub.example/a?sig", [], 300⟩

def plainItem (offerID : String) : TransactionItem :=
  ⟨⟨offerID, "sig", "https://pub.example/a", ⟨"PER_UNIT", "1", "USD", none, "page", 1, none⟩,
    none, ""⟩, "key 1"⟩

def plainRequest (items : List TransactionItem) : TransactionRequest :=
  ⟨"1", "key", ⟨"agent.example", ""⟩, items, some ⟨"key 1"⟩⟩

def signerDown : (op : Op Payload) → Store Payload → Res op
  | .urlSignerFor _, _ => .err "kms unavailable"
  | op, s => Store.answer plainSurroundings op s

/-- The next `n` calls of a program, each answered by the store. -/
def turns {ι : Type} (n : Nat) (i : ι) : List (Turn (Op Payload) Res (Store Payload) ι) :=
  List.replicate n ⟨i, Store.answer plainSurroundings⟩

end Ramp.Exchange
