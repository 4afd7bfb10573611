import Ramp.Exchange.Authorization

/-! One item from its presented offer to its settled hold: resolve and price the
offer, reserve funds, sign the delivery URL, commit the row, settle. -/

namespace Ramp.Exchange

open Ramp.Billing

structure ResolvedOffer where
  entry : CatalogEntry
  pricing : PricingDoc
  offerCanonicalBytes : Bytes

structure BillingResolution where
  tenantID : String
  billingRef : String
  pricing : PricingDoc
  idempotencyKey : String
  resourceOwnerID : String
  feeRateBps : Int

structure BatchItemBilling where
  tenant : Tenant
  resolved : ResolvedOffer
  itemReq : TransactionRequest
  item : TransactionItem
  agentID : String
  billingRef : String
  binding : AgentBinding
  derivedKey : String
  resourceOwnerID : String
  feeRateBps : Int
  correlation : RequestCorrelation

structure PersistInput (Blob : Type) where
  input : BatchItemBilling
  plan : ObligationPlan
  auth : AuthorizeResult
  signed : SignedURL
  transactionID : String
  resultPayload : Blob

def hasNoReservation (billingID : String) : Bool := billingID = ""

def classifyTxWriteError (e : PgError) : Error :=
  if e.isIdempotencyViolation then wrap .idempotent e.text "write transaction"
  else wrap .internal e.text "write transaction"

theorem isIdempotentReplay_classifyTxWriteError (e : PgError) :
    isIdempotentReplay (classifyTxWriteError e) = e.isIdempotencyViolation := by
  unfold classifyTxWriteError
  split <;> simp_all [isIdempotentReplay, wrap]

namespace Service

variable {Blob : Type} (s : Service Blob)

def verifyPresentedOffer (offer : Offer) : Svc Blob Bytes := do
  let now ← ask .now
  match s.sdkVerifyPresentedOffer offer s.offerPublicKey now with
  | .ok => orThrow (s.canonicalOfferBytes offer) (wrap .internal · "compute canonical offer bytes")
  | .expired e => throw (wrap .offerExpired e "presented offer expired")
  | .signatureInvalid e =>
    throw (wrap .signatureInvalid e "presented offer signature verification")
  | .other e => throw (wrap .invalidRequest e "verify presented offer")

def resolveOfferForTx (presented : Offer) : Svc Blob ResolvedOffer := do
  let canonical ← s.verifyPresentedOffer presented
  match ← ask (.catalogByURI presented.canonicalURL) with
  | none => throw (newf .contentUnavailable
      ("offer resource " ++ s.quote presented.canonicalURL ++ " not found in catalog"))
  | some entry =>
    let pricing ← orThrow (s.pricingDocFromPricing presented.pricing)
      (wrap .invalidRequest · "parse signed offer pricing")
    pure { entry, pricing, offerCanonicalBytes := canonical }

def checkAccountActive (billingRef : String) : Svc Blob Unit := do
  match ← ask (.sorIsActive billingRef) with
  | .notFound e => throw (wrap .accountInactive e
      "no billing account found for this agent: contact the operator")
  | .err _ => pure ()
  | .active false => throw (newf .accountInactive
      "account is switched off: contact the operator to turn it back on")
  | .active true => pure ()

def billingErrorText : BillingError → String
  | .unknownBillingID => "billing: unknown billing id"
  | .insufficientBalance => "billing: insufficient balance"
  | .invalidAmount => "billing: invalid amount"
  | .amountNotRepresentable => "billing: amount not representable at asset scale"
  | .refundBeforeRecord => "billing: cannot refund a hold that was not recorded"
  | .refundExceedsRecord => "billing: refund exceeds recorded amount"
  | .refundUnsupported => "billing: refund unsupported by this adapter"
  | .backendUnavailable => "billing: backend unavailable"
  | .unknownPayee => "billing: resource owner not attested"
  | .emptyBillingRef => "billing: empty billing_ref"
  | .emptyCreditKey => "billing: credit requires an idempotency key"
  | .reservedCreditKey => "billing: credit key uses a reserved id-namespace prefix"
  | .badCreditAmount => "billing: credit amount must be a positive value with a currency"
  | .other text => text

def authorizeBilling (r : BillingResolution) : Svc Blob AuthorizeResult := do
  let quantity := if r.pricing.estQty ≤ 0 then 1 else r.pricing.estQty
  match s.parseRat (s.decimalString r.pricing.unitCost) with
  | none => throw (wrap .internal
      ("billing: cannot parse amount " ++ s.quote (s.decimalString r.pricing.unitCost))
      "parse unit cost")
  | some value =>
    let reply ← ask (.authorize
      { tenantID := r.tenantID, billingRef := r.billingRef,
        unitCost := { value, currency := r.pricing.currency }, quantity, unit := r.pricing.unit,
        idempotencyKey := r.idempotencyKey, resourceOwnerID := r.resourceOwnerID,
        feeRateBps := r.feeRateBps })
    match reply with
    | .err e _ => throw (wrap (billingErrorKind e) (billingErrorText e) "billing authorize")
    | .result res =>
      if res.approved then pure res
      else throw (newf .billingDenied ("billing denied: " ++ res.reason))

def resolveBilling (r : BillingResolution) : Svc Blob AuthorizeResult := do
  if r.billingRef = "" then
    throw (newf .accountNotRegistered
      "agent is not registered for paid content: call Register first")
  else
    checkAccountActive r.billingRef
    s.authorizeBilling r

def releaseHold (billingID key : String) : Svc Blob Unit := do
  if hasNoReservation billingID then pure ()
  else
    let _ ← ask (.release billingID key)
    pure ()

def releaseDuplicateLossHold (billingID derivedKey : String) : Svc Blob Unit := do
  if hasNoReservation billingID then pure ()
  else
    match ← ask (.byIdempotencyKey derivedKey) with
    | .found row => if row.billingID = billingID then pure () else releaseHold billingID derivedKey
    | .notFound => pure ()
    | .err _ => pure ()

def mintSignedURL (tenant : Tenant) (entry : CatalogEntry) (agentThumbprint : String) :
    Svc Blob SignedURL := do
  match ← ask (.urlSignerFor tenant.keys) with
  | .rsaKeyUnavailable _ => throw (newf .failedPrecondition
      "delivery URL signing is not provisioned for this publisher")
  | .err e => throw (wrap .internal e "resolve url signer")
  | .ok =>
    let now ← ask .now
    match ← ask (.signURL tenant.keys entry.uri agentThumbprint (now + s.urlTTL)) with
    | .error e => throw (wrap .internal e "sign url")
    | .ok signed => pure signed

def buildBatchResultItem (item : TransactionItem) (transactionID billingID : String)
    (signed : SignedURL) (pricing : PricingDoc) (plan : ObligationPlan) : TransactionResultItem :=
  let qty := maxInt32 pricing.estQty 1
  let cost := match s.formatMoney (pricing.unitCost * qty), s.formatMoney pricing.unitCost with
    | .ok amount, .ok unitCost =>
      some { amount, currency := pricing.currency, unitCost := some unitCost : Cost }
    | _, _ => none
  { offerID := item.offer.offerID, transactionID, billingID, resourceTitle := item.offer.title,
    cost, expiresAt := some signed.expiry, retrievalEndpoint := some signed.url,
    deliveryMethod := .instructions,
    reportingObligation := some plan.buildReportingObligation }

def offerEvidence (p : PersistInput Blob) : Except Error EvidenceRecord :=
  match s.offerJSON p.input.item.offer with
  | .error e => .error (wrap .internal e "marshal offer json")
  | .ok offerJSON => .ok
    { offerID := p.input.item.offer.offerID, offerJSON,
      offerCanonicalBytes := p.input.resolved.offerCanonicalBytes,
      offerSignature := p.input.item.offer.signature,
      offerSignatureAlgorithm := s.signatureAlgorithm,
      exchangeSigningPublicKey := s.offerPublicKey,
      agentAcceptanceSignature := p.input.item.acceptanceSignature,
      agentAcceptanceCanonicalBytes := p.input.binding.acceptanceBytes,
      agentAcceptanceSignatureAlgorithm := s.acceptanceSignatureAlgorithm,
      requesterID := p.input.itemReq.requester.id,
      requesterDomain := p.input.itemReq.requester.domain,
      requestIdempotencyKey := p.input.itemReq.idempotencyKey,
      agentPublicKey := p.input.binding.pub,
      agentDiscoveryURL := p.input.binding.discoveryURL,
      signedURLFull := p.signed.url,
      requestID := p.input.correlation.id,
      requestIDMinted := p.input.correlation.minted }

def buildPersistIntent (p : PersistInput Blob) :
    Svc Blob (PersistTxIntent Blob × EvidenceRecord) := do
  match s.offerEvidence p with
  | .error e => throw e
  | .ok evidence =>
    let obligationID ← ask .newUUID
    let now ← ask .now
    pure (
      { transactionID := p.transactionID, idempotencyKey := p.input.derivedKey, obligationID,
        tenantID := p.input.tenant.id, agentID := p.input.agentID,
        resourceID := p.input.resolved.entry.resourceID, offerID := p.input.item.offer.offerID,
        agentIdentityHash := p.input.binding.digest, signedURLHash := p.signed.hash,
        expiry := p.signed.expiry, resultPayload := p.resultPayload,
        billingID := p.auth.billingID,
        unitCostDecimal := s.decimalString p.input.resolved.pricing.unitCost,
        currency := p.input.resolved.pricing.currency, state := .pending,
        windowSeconds := p.plan.windowSeconds,
        deadline := now + p.plan.windowSeconds * 1000000000,
        requiredFields := p.plan.requiredFields,
        estimatedQuantity := p.input.resolved.pricing.estQty,
        quantityTolerance := p.plan.quantityTolerance }, evidence)

def persistTransaction (p : PersistInput Blob) : Svc Blob (TransactionRecord Blob) := do
  let (intent, evidence) ← s.buildPersistIntent p
  match ← ask (.persist intent p.plan.required evidence) with
  | .failed e _ => throw (classifyTxWriteError e)
  | .committed row => pure row

def abandonHold (e : Error) (billingID derivedKey : String) : Svc Blob Unit :=
  if isIdempotentReplay e then releaseDuplicateLossHold billingID derivedKey
  else releaseHold billingID derivedKey

def commitItem (p : PersistInput Blob) (free : Bool) (result : TransactionResultItem) :
    Svc Blob TransactionResultItem := do
  match ← attempt (s.persistTransaction p) with
  | .error e =>
    abandonHold e p.auth.billingID p.input.derivedKey
    throw e
  | .ok _ =>
    if free then pure result
    else
      let _ ← ask (.record p.auth.billingID p.input.resolved.pricing.estQty p.input.derivedKey)
      pure result

def deliverItem (input : BatchItemBilling) (free : Bool) (auth : AuthorizeResult) :
    Svc Blob TransactionResultItem := do
  match ← attempt (s.mintSignedURL input.tenant input.resolved.entry input.binding.thumbprint) with
  | .error e =>
    releaseHold auth.billingID input.derivedKey
    throw e
  | .ok signed =>
    let transactionID ← ask .newUUID
    let plan := s.planObligation input.tenant input.resolved.pricing
    let result := s.buildBatchResultItem input.item transactionID auth.billingID signed
      input.resolved.pricing plan
    match s.marshalItem result with
    | .error e =>
      releaseHold auth.billingID input.derivedKey
      throw (wrap .internal e "marshal transaction result")
    | .ok resultPayload =>
      s.commitItem { input, plan, auth, signed, transactionID, resultPayload } free result

def runBatchItemBilling (input : BatchItemBilling) : Svc Blob TransactionResultItem := do
  if input.resolved.pricing.isFree then s.deliverItem input true {}
  else
    let auth ← s.resolveBilling
      { tenantID := input.tenant.id, billingRef := input.billingRef,
        pricing := input.resolved.pricing, idempotencyKey := input.derivedKey,
        resourceOwnerID := input.resourceOwnerID, feeRateBps := input.feeRateBps }
    s.deliverItem input false auth

end Service

end Ramp.Exchange
