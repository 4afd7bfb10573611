import Mathlib.Data.Nat.Notation
import Mathlib.Data.Rat.Defs

/-! The messages of `ExecuteTransaction`, the records the service reads, and its domain errors.
Only the outermost error of a chain is classified. -/

namespace Ramp.Exchange

inductive Kind
  | unspecified
  | invalidRequest
  | notFound
  | signatureInvalid
  | billingDenied
  | idempotent
  | internal
  | unauthenticated
  | failedPrecondition
  | permissionDenied
  | unimplemented
  | entitlementMissing
  | entitlementMalformed
  | entitlementExpired
  | entitlementWrongBuyer
  | subscriptionLapsed
  | entitlementNotGranted
  | offerExpired
  | unavailable
  | accountNotRegistered
  | accountInactive
  | registrationDataInvalid
  | termsDigestStale
  | contentUnavailable
  | reportingOverdue
  deriving DecidableEq

structure Error where
  kind : Kind
  message : String
  cause : Option String := none
  metadata : List (String × String) := []
  deriving DecidableEq

def newf (kind : Kind) (message : String) : Error := { kind, message }

def wrap (kind : Kind) (cause message : String) : Error := { kind, message, cause := some cause }

def Error.withMeta (e : Error) (key value : String) : Error :=
  { e with metadata := e.metadata ++ [(key, value)] }

def Error.withField (e : Error) (name : String) : Error := e.withMeta "field" name

inductive DenialReason
  | contentUnavailable
  | insufficientBalance
  | accountNotRegistered
  | accountInactive
  | signatureInvalid
  | offerExpired
  | entitlementMissing
  | entitlementMalformed
  | entitlementExpired
  | entitlementWrongBuyer
  | subscriptionLapsed
  | entitlementNotGranted
  | reportingOverdue
  deriving DecidableEq

def denialReasonByKind : Kind → Option DenialReason
  | .contentUnavailable => some .contentUnavailable
  | .billingDenied => some .insufficientBalance
  | .accountNotRegistered => some .accountNotRegistered
  | .accountInactive => some .accountInactive
  | .signatureInvalid => some .signatureInvalid
  | .offerExpired => some .offerExpired
  | .entitlementMissing => some .entitlementMissing
  | .entitlementMalformed => some .entitlementMalformed
  | .entitlementExpired => some .entitlementExpired
  | .entitlementWrongBuyer => some .entitlementWrongBuyer
  | .subscriptionLapsed => some .subscriptionLapsed
  | .entitlementNotGranted => some .entitlementNotGranted
  | .reportingOverdue => some .reportingOverdue
  | _ => none

def denialReasonForKind (e : Error) : Option DenialReason := denialReasonByKind e.kind

def isIdempotentReplay (e : Error) : Bool := e.kind = .idempotent

abbrev Bytes := List UInt8

abbrev Time := Int

inductive PricingMetering
  | unspecified
  | online
  | offline
  | none
  deriving DecidableEq

structure Pricing where
  model : String
  rate : String
  currency : String
  unitCost : Option String
  unit : String
  estimatedQuantity : Int
  metering : Option PricingMetering

structure Offer where
  offerID : String
  signature : String
  canonicalURL : String
  pricing : Pricing
  title : Option String
  rest : String

structure TransactionItem where
  offer : Offer
  acceptanceSignature : String

structure Requester where
  id : String
  domain : String

structure RequestAcceptance where
  signature : String

structure TransactionRequest where
  ver : String
  idempotencyKey : String
  requester : Requester
  items : List TransactionItem
  agentRequestAcceptance : Option RequestAcceptance

structure Cost where
  amount : String
  currency : String
  unitCost : Option String := none
  deriving DecidableEq

structure ReportingObligation where
  required : Bool
  endpoint : Option String := none
  window : Option Time := none
  requiredFields : List String := []
  deriving DecidableEq

inductive DeliveryMethod
  | unspecified
  | instructions
  deriving DecidableEq

structure TransactionResultItem where
  offerID : String
  transactionID : String := ""
  billingID : String := ""
  resourceTitle : Option String := none
  cost : Option Cost := none
  expiresAt : Option Time := none
  retrievalEndpoint : Option String := none
  deliveryMethod : DeliveryMethod := .unspecified
  reportingObligation : Option ReportingObligation := none
  denialReason : Option DenialReason := none
  deriving DecidableEq

structure TransactionResponse where
  ver : String
  items : List TransactionResultItem
  agentIdentityHash : String
  totalCost : Option Cost
  deriving DecidableEq

structure Agent where
  billingRef : String
  publicKey : Bytes
  discoveryURL : String
  deriving DecidableEq

structure TenantKeys where
  scheme : String
  ed25519Ref : String
  rsaRef : String
  cloudFrontKeyPairID : String
  deriving DecidableEq

structure Tenant where
  id : String
  allowBrokerRelay : Bool
  feeRateBps : Int
  reportingPolicy : String
  keys : TenantKeys
  deriving DecidableEq

structure CatalogEntry where
  resourceID : String
  tenantID : String
  uri : String
  resourceOwnerID : String
  deriving DecidableEq

structure SignedURL where
  url : String
  hash : Bytes
  expiry : Time
  deriving DecidableEq

inductive ObligationState
  | pending
  | received
  deriving DecidableEq

structure ObligationCounts where
  buckets : List ((ObligationState × Bool) × Int)
  deriving DecidableEq

/-- What one committed item writes to `transaction_log` and to its obligation. -/
structure PersistTxIntent (Blob : Type) where
  transactionID : String
  idempotencyKey : String
  obligationID : String
  tenantID : String
  agentID : String
  resourceID : String
  offerID : String
  agentIdentityHash : Bytes
  signedURLHash : Bytes
  expiry : Time
  resultPayload : Blob
  billingID : String
  unitCostDecimal : String
  currency : String
  state : ObligationState
  windowSeconds : Int
  deadline : Time
  requiredFields : List String
  estimatedQuantity : Int
  quantityTolerance : ℚ
  deriving DecidableEq

structure EvidenceRecord where
  offerID : String
  offerJSON : String
  offerCanonicalBytes : Bytes
  offerSignature : String
  offerSignatureAlgorithm : String
  exchangeSigningPublicKey : Bytes
  agentAcceptanceSignature : String
  agentAcceptanceCanonicalBytes : Bytes
  agentAcceptanceSignatureAlgorithm : String
  requesterID : String
  requesterDomain : String
  requestIdempotencyKey : String
  agentPublicKey : Bytes
  agentDiscoveryURL : String
  signedURLFull : String
  requestID : Option String
  requestIDMinted : Option Bool
  deriving DecidableEq

structure TransactionRecord (Blob : Type) where
  transactionID : String
  idempotencyKey : String
  tenantID : String
  agentID : String
  resourceID : String
  offerID : String
  agentIdentityHash : Bytes
  signedURLHash : Bytes
  expiry : Time
  billingID : String
  unitCostDecimal : String
  currency : String
  resultPayload : Blob
  deriving DecidableEq

def PersistTxIntent.record {Blob : Type} (intent : PersistTxIntent Blob) :
    TransactionRecord Blob where
  transactionID := intent.transactionID
  idempotencyKey := intent.idempotencyKey
  tenantID := intent.tenantID
  agentID := intent.agentID
  resourceID := intent.resourceID
  offerID := intent.offerID
  agentIdentityHash := intent.agentIdentityHash
  signedURLHash := intent.signedURLHash
  expiry := intent.expiry
  billingID := intent.billingID
  unitCostDecimal := intent.unitCostDecimal
  currency := intent.currency
  resultPayload := intent.resultPayload

def derivedItemKey (requestKey offerID : String) : String := requestKey ++ ":" ++ offerID

theorem derivedItemKey_inj {key a b : String}
    (h : derivedItemKey key a = derivedItemKey key b) : a = b := by
  simpa [derivedItemKey, String.append_assoc] using h

end Ramp.Exchange
