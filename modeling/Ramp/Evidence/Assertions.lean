import Ramp.Broker.Discovery
import Ramp.Evidence.EdgeLog
import Ramp.Exchange.Wire

/-! The checks of the operator ledger over one transaction: two signatures, the members of the
signed acceptance, the transaction-log key, and the joins to the Broker and to the edge. A row
names its offer beside the signed bytes, and no check reads that name out of the bytes; the one
field of the two rows that tells whether it is the signed one is the log key. -/

namespace Ramp.Evidence

open Ramp.Exchange

structure Assertion where
  name : String
  ok : Bool := false
  unchecked : Bool := false
  detail : String

def unchecked (name reason : String) : Assertion := { name, unchecked := true, detail := reason }

structure EvidenceView where
  offerID : String
  offerSig : String
  offerCanonicalBytes : Bytes
  exchangeSigningPublicKey : Bytes
  agentAcceptanceSignature : String
  agentAcceptanceCanonicalBytes : Bytes
  agentPublicKey : Bytes
  requesterID : String
  requesterDomain : String
  requestIdempotencyKey : String
  deriving DecidableEq

structure TransactionState where
  idempotencyKey : String
  signedURLHash : Bytes
  deriving DecidableEq

/-- `candidateOffers` is absent when the stored column is not a candidate set. -/
structure Selection where
  logID : String
  agentID : String
  candidateOffers : Option (List Broker.Discovery.CandidateInfo)
  createdAt : Time

structure Sources where
  evidence : EvidenceView
  transaction : TransactionState
  selection : Option Selection := none
  selectionAbsence : String := ""
  delivery : Option DeliveryRecord := none
  deliveryAbsence : String := ""

structure AgentAcceptancePayload where
  offerSig : String
  requesterID : String
  requesterDomain : String
  idempotencyKey : String

def evidenceJSON (e : EvidenceRecord) : EvidenceView where
  offerID := e.offerID
  offerSig := e.offerSignature
  offerCanonicalBytes := e.offerCanonicalBytes
  exchangeSigningPublicKey := e.exchangeSigningPublicKey
  agentAcceptanceSignature := e.agentAcceptanceSignature
  agentAcceptanceCanonicalBytes := e.agentAcceptanceCanonicalBytes
  agentPublicKey := e.agentPublicKey
  requesterID := e.requesterID
  requesterDomain := e.requesterDomain
  requestIdempotencyKey := e.requestIdempotencyKey

def transactionStateJSON {Blob : Type} (t : TransactionRecord Blob) : TransactionState where
  idempotencyKey := t.idempotencyKey
  signedURLHash := t.signedURLHash

def publicKeySize : Nat := 32

structure Verifier where
  decodeString : String → Except String Bytes
  verify : Bytes → Bytes → Bytes → Bool
  unmarshalAcceptance : Bytes → Except String AgentAcceptancePayload
  equalFold : String → String → Bool
  fromDirectory : String → Except String String
  quote : String → String
  formatRFC3339 : Time → String

def hexOf (b : Bytes) : String := if b.length = 0 then "" else hexText b

def selectionOffers (sel : Selection) (offerID : String) : Bool :=
  match sel.candidateOffers with
  | none => false
  | some candidates => candidates.any fun c => c.offerID = offerID

variable {e : EvidenceView}

namespace Verifier

variable (v : Verifier)

def ed25519Assertion (name : String) (pub message : Bytes) (sigHex what : String) : Assertion :=
  match v.decodeString sigHex with
  | .error e => { name, detail := "signature is not valid hex: " ++ e }
  | .ok sig =>
    if pub.length ≠ publicKeySize then
      { name, detail := "public key is " ++ toString pub.length ++ " bytes, want " ++
          toString publicKeySize }
    else if !v.verify pub message sig then
      { name, detail := "ed25519.Verify rejected " ++ what }
    else { name, ok := true, detail := "ed25519.Verify accepted " ++ what }

def verifyOfferSignature (e : EvidenceView) : Assertion :=
  v.ed25519Assertion "Exchange offer signature re-verifies offline"
    e.exchangeSigningPublicKey e.offerCanonicalBytes e.offerSig
    (toString e.offerCanonicalBytes.length ++ " canonical bytes against the stored Exchange key")

def verifyAcceptanceSignature (e : EvidenceView) : Assertion :=
  v.ed25519Assertion "Agent acceptance signature re-verifies offline"
    e.agentPublicKey e.agentAcceptanceCanonicalBytes e.agentAcceptanceSignature
    (toString e.agentAcceptanceCanonicalBytes.length ++
      " canonical bytes against the stored agent key")

def mismatch (agrees : Bool) (member signed row : String) : List String :=
  if agrees then [] else [member ++ " " ++ v.quote signed ++ " vs row " ++ v.quote row]

def acceptanceMismatches (e : EvidenceView) (p : AgentAcceptancePayload) : List String :=
  v.mismatch (v.equalFold p.offerSig e.offerSig) "offer_sig" p.offerSig e.offerSig ++
  v.mismatch (p.requesterID = e.requesterID) "requester_id" p.requesterID e.requesterID ++
  v.mismatch (p.requesterDomain = e.requesterDomain) "requester_domain" p.requesterDomain
    e.requesterDomain ++
  v.mismatch (p.idempotencyKey = e.requestIdempotencyKey) "idempotency_key" p.idempotencyKey
    e.requestIdempotencyKey

def acceptanceBindsThisAgreement (e : EvidenceView) : Assertion :=
  let name := "Acceptance binds this exact agreement (all 4 signed members)"
  match v.unmarshalAcceptance e.agentAcceptanceCanonicalBytes with
  | .error err =>
    { name, detail := "signed bytes are not a readable acceptance payload: " ++ err }
  | .ok payload =>
    let mismatches := v.acceptanceMismatches e payload
    if mismatches.length > 0 then
      { name, detail := "the signed payload disagrees with the row: " ++
          "; ".intercalate mismatches }
    else
      { name, ok := true, detail := "offer_sig, requester_id, requester_domain and " ++
          "idempotency_key inside the signed bytes all match the row" }

def derivedKeyMatches (e : EvidenceView) (t : TransactionState) : Assertion :=
  let name := "Transaction-log key derives from the signed request key"
  let want := derivedItemKey e.requestIdempotencyKey e.offerID
  if t.idempotencyKey ≠ want then
    { name, detail := "log key " ++ v.quote t.idempotencyKey ++ ", expected " ++ v.quote want }
  else { name, ok := true, detail := v.quote want ++ " = signed key + \":\" + offer id" }

def brokerOfferedThisOffer (s : Sources) : Assertion :=
  let name := "Broker independently recorded offering this offer"
  match s.selection with
  | none => Evidence.unchecked name s.selectionAbsence
  | some sel =>
    let offerID := s.evidence.offerID
    if !selectionOffers sel offerID then
      { name, detail := "selection " ++ sel.logID ++ " does not list offer " ++ offerID }
    else
      { name, ok := true, detail := "selection " ++ sel.logID ++ " recorded at " ++
          v.formatRFC3339 sel.createdAt ++ " lists offer " ++ offerID ++
          " among its candidates" }

def brokerSawThisAgent (s : Sources) : Assertion :=
  let name := "Broker's agent and the signing agent are the same identity"
  match s.selection with
  | none => Evidence.unchecked name s.selectionAbsence
  | some sel =>
    let signed := s.evidence.requesterID
    match v.fromDirectory signed with
    | .error err =>
      { name, detail := "signed requester id " ++ v.quote signed ++
          " does not name a directory host: " ++ err }
    | .ok canonical =>
      if canonical ≠ sel.agentID then
        { name, detail := "signed " ++ v.quote signed ++ " normalizes to " ++ v.quote canonical ++
            ", Broker recorded " ++ v.quote sel.agentID }
      else
        { name, ok := true, detail := "signed " ++ v.quote signed ++
            " normalizes to the Broker's " ++ v.quote canonical }

def deliveryHashMatches (s : Sources) : Assertion :=
  let name := "Delivered URL is the URL the Exchange minted"
  match s.delivery with
  | none => Evidence.unchecked name s.deliveryAbsence
  | some delivery =>
    let stored := hexOf s.transaction.signedURLHash
    if stored = "" then
      Evidence.unchecked name "the Exchange stored no URL digest for this transaction"
    else if !v.equalFold stored delivery.urlHash then
      { name, detail := "Exchange stored " ++ stored ++ ", edge logged " ++ delivery.urlHash }
    else { name, ok := true, detail := "sha256 " ++ stored ++ " on both sides" }

def buildAssertions (s : Sources) : List Assertion :=
  let e := s.evidence
  [v.verifyOfferSignature e, v.verifyAcceptanceSignature e, v.acceptanceBindsThisAgreement e,
    v.derivedKeyMatches e s.transaction, v.brokerOfferedThisOffer s, v.brokerSawThisAgent s,
    v.deliveryHashMatches s]

def ExchangeSideOK (s : Sources) : Prop := ∀ a ∈ (v.buildAssertions s).take 4, a.ok = true

instance (s : Sources) : Decidable (v.ExchangeSideOK s) := by
  unfold ExchangeSideOK
  infer_instance

variable {v}

theorem mismatch_eq_nil {agrees : Bool} {member signed row : String} :
    v.mismatch agrees member signed row = [] ↔ agrees = true := by
  cases agrees <;> simp [mismatch]

theorem acceptanceBindsThisAgreement_ok (h : (v.acceptanceBindsThisAgreement e).ok = true) :
    ∃ payload, v.unmarshalAcceptance e.agentAcceptanceCanonicalBytes = .ok payload ∧
      v.equalFold payload.offerSig e.offerSig = true ∧ payload.requesterID = e.requesterID ∧
      payload.requesterDomain = e.requesterDomain ∧
      payload.idempotencyKey = e.requestIdempotencyKey := by
  unfold acceptanceBindsThisAgreement at h
  split at h
  · cases h
  next payload hread =>
    dsimp only at h
    split_ifs at h with hlen
    have hnone : v.acceptanceMismatches e payload = [] :=
      List.length_eq_zero_iff.mp (by omega)
    simp only [acceptanceMismatches, List.append_eq_nil_iff, mismatch_eq_nil,
      decide_eq_true_eq] at hnone
    obtain ⟨⟨⟨hsig, hid⟩, hdomain⟩, hkey⟩ := hnone
    exact ⟨payload, hread, hsig, hid, hdomain, hkey⟩

theorem derivedKeyMatches_ok {t : TransactionState} (h : (v.derivedKeyMatches e t).ok = true) :
    t.idempotencyKey = derivedItemKey e.requestIdempotencyKey e.offerID := by
  unfold derivedKeyMatches at h
  dsimp only at h
  split_ifs at h with hkey
  exact not_not.mp hkey

variable {s : Sources} (h : v.ExchangeSideOK s)
include h

theorem ExchangeSideOK.binds : (v.acceptanceBindsThisAgreement s.evidence).ok = true :=
  h _ (by simp [buildAssertions])

theorem ExchangeSideOK.derives : (v.derivedKeyMatches s.evidence s.transaction).ok = true :=
  h _ (by simp [buildAssertions])

theorem ExchangeSideOK.key :
    ∃ payload, v.unmarshalAcceptance s.evidence.agentAcceptanceCanonicalBytes = .ok payload ∧
      s.transaction.idempotencyKey = derivedItemKey payload.idempotencyKey s.evidence.offerID := by
  obtain ⟨payload, hread, -, -, -, hkey⟩ := acceptanceBindsThisAgreement_ok h.binds
  refine ⟨payload, hread, ?_⟩
  rw [hkey]
  exact derivedKeyMatches_ok h.derives

end Verifier

section

variable {Blob : Type}

/-- What the Exchange stores of a transaction, before the Broker and the edge are asked. -/
def exchangeSide (e : EvidenceRecord) (t : TransactionRecord Blob) : Sources :=
  { evidence := evidenceJSON e, transaction := transactionStateJSON t }

variable {v : Verifier} {e e' : EvidenceRecord} {t t' : TransactionRecord Blob}

end

def latinText (bytes : Bytes) : Option String :=
  some (String.ofList (bytes.map fun b => Char.ofNat b.toNat))

def soldPayload : AgentAcceptancePayload := ⟨"a0", "agent.example", "", "key"⟩

/-- Two signatures exist: the Exchange's over `o-1` and the agent's over its acceptance. -/
def soldVerifier : Verifier where
  decodeString text := match decodeHex text.toList with
    | some bytes => .ok bytes
    | none => .error "invalid hex"
  verify pub message sig :=
    (pub, message, sig) ∈ [(List.replicate 32 2, [111, 45, 49], [160]),
      (List.replicate 32 1, [97, 48, 107, 101, 121], [176])]
  unmarshalAcceptance bytes :=
    if bytes = [97, 48, 107, 101, 121] then .ok soldPayload else .error "not an acceptance"
  equalFold a b := a.toLower = b.toLower
  fromDirectory := .ok
  quote text := "\"" ++ text ++ "\""
  formatRFC3339 _ := "1970-01-01T00:00:00Z"

/-- A row over the two signatures that names `offerID`. -/
def soldEvidence (offerID : String) : EvidenceRecord where
  offerID
  offerJSON := ""
  offerCanonicalBytes := [111, 45, 49]
  offerSignature := "a0"
  offerSignatureAlgorithm := "ed25519"
  exchangeSigningPublicKey := List.replicate 32 2
  agentAcceptanceSignature := "b0"
  agentAcceptanceCanonicalBytes := [97, 48, 107, 101, 121]
  agentAcceptanceSignatureAlgorithm := "ed25519"
  requesterID := "agent.example"
  requesterDomain := ""
  requestIdempotencyKey := "key"
  agentPublicKey := List.replicate 32 1
  agentDiscoveryURL := ""
  signedURLFull := ""
  requestID := none
  requestIDMinted := none

def soldTransaction (offerID : String) : TransactionRecord Unit :=
  ⟨"tx", derivedItemKey "key" offerID, "tenant", "agent.example", "resource", offerID, [], [],
    0, "", "1", "USD", ()⟩

theorem sold_exchangeSideOK : ∀ id ∈ ["o-1", "o-2"],
    soldVerifier.ExchangeSideOK (exchangeSide (soldEvidence id) (soldTransaction id)) := by
  decide +kernel

end Ramp.Evidence
