import Ramp.Data.Text
import Ramp.Exchange.Authorization

/-! License terms, the terms a requester is entitled to, and the offer that
discovery builds from the first of them. -/

namespace Ramp.Exchange

inductive RestrictionKind
  | unspecified
  | function
  | geography
  | userType
  | other
  | unknown (number : Int)
  deriving DecidableEq

structure Restriction where
  kind : RestrictionKind
  permitted : List String
  prohibited : List String

inductive ObligationKind
  | unspecified
  | attribution
  | shareAlike
  | networkCopyleft
  | notice
  | contribution
  | other
  | unknown (number : Int)
  deriving DecidableEq

structure LicenseTerm where
  scopes : List String
  pricing : Option Pricing
  restrictions : List Restriction
  quotas : List String
  obligations : List ObligationKind

structure TermRef where
  addr : Nat
  term : LicenseTerm

def scopeCovered (termScope : String) (requesterScopes : List String) : Bool :=
  requesterScopes.any fun rs =>
    rs == "*" || rs == termScope ||
      match cutSuffix rs ":*" with
      | some stem => termScope == stem || hasPrefix termScope (stem ++ ":")
      | none => false

def scopesCovered (termScopes requesterScopes : List String) : Bool :=
  termScopes.all fun ts => scopeCovered ts requesterScopes

def entitled (scopes : List String) : Option TermRef → Bool
  | none => false
  | some t => scopesCovered t.term.scopes scopes

def selectTerms (terms : List (Option TermRef)) (scopes : List String) : List (Option TermRef) :=
  terms.filter (entitled scopes)

variable {scopes : List String}

def Covers (rs ts : String) : Prop :=
  rs = "*" ∨ rs = ts ∨ ∃ stem, rs = stem ++ ":*" ∧ (ts = stem ∨ ∃ rest, ts = stem ++ ":" ++ rest)

theorem scopeCovered_iff {ts : String} :
    scopeCovered ts scopes = true ↔ ∃ rs ∈ scopes, Covers rs ts := by
  rw [scopeCovered, List.any_eq_true]
  refine exists_congr fun rs => and_congr_right fun _ => ?_
  cases hcut : cutSuffix rs ":*" with
  | none =>
    have hne : ∀ stem, rs ≠ stem ++ ":*" := by
      intro stem hstem
      rw [cutSuffix_eq_some.mpr hstem] at hcut
      cases hcut
    simp [Covers, hne]
  | some stem =>
    have hstem := cutSuffix_eq_some.mp hcut
    subst hstem
    simp [Covers, hasPrefix_iff, or_assoc]

def Eligible (requester : Option (List String)) (t : Option TermRef) : Prop :=
  ∀ scopes, requester = some scopes →
    ∃ r, t = some r ∧ ∀ ts ∈ r.term.scopes, ∃ rs ∈ scopes, Covers rs ts

theorem entitled_iff {t : Option TermRef} :
    entitled scopes t = true ↔ Eligible (some scopes) t := by
  cases t with
  | none => simp [entitled, Eligible]
  | some r => simp [entitled, Eligible, scopesCovered, scopeCovered_iff]

def headlineIndex (stored : List (Option TermRef)) (headline : Option TermRef) : Nat :=
  (stored.findIdx? fun t => t.map TermRef.addr == headline.map TermRef.addr).getD 0

/-- What only discovery uses of the service. `modelName` is the enum's table of values
read as names, in which a name it lacks is that of zero; `otherFields` are the
fields that only the SDK reads. -/
structure OfferIssuer where
  offerTTL : Time
  modelName : String → String
  otherFields : CatalogEntry → List (Option TermRef) → Nat → List String → Time → String
  signOffer : Offer → Except String String

namespace Service

variable {Blob : Type} (s : Service Blob)

def pricingDocFromTerm (t : Option TermRef) : Except String PricingDoc :=
  match t.bind fun r => r.term.pricing with
  | none => .error "invalid memory address or nil pointer dereference"
  | some p => s.pricingDocFromPricing p

/-- The requester is given by its scopes, `none` if the request names none. -/
def selectedPricing (stored : List (Option TermRef)) (requester : Option (List String)) :
    Except String (Option (PricingDoc × List (Option TermRef) × Nat)) :=
  let terms := match requester with
    | some scopes => selectTerms stored scopes
    | none => stored
  match terms with
  | [] => .ok none
  | headline :: _ =>
    match s.pricingDocFromTerm headline with
    | .error e => .error e
    | .ok doc => .ok (some (doc, terms, headlineIndex stored headline))

def offerPricing (issuer : OfferIssuer) (pricing : PricingDoc) (rate unitCost : String) :
    Pricing where
  model := issuer.modelName pricing.model
  rate
  currency := pricing.currency
  unitCost := some unitCost
  unit := pricing.unit
  estimatedQuantity := if pricing.estQty > 0 then pricing.estQty else 0
  metering := pricing.metering

/-- The offer for a catalog entry at an instant and under a fresh id, `none` if the
requester is entitled to no term. -/
def buildOffer (issuer : OfferIssuer) (entry : CatalogEntry) (title : Option String)
    (stored : List (Option TermRef)) (requester : Option (List String)) (profiles : List String)
    (offerID : String) (now : Time) : Except String (Option Offer) := do
  match s.selectedPricing stored requester with
  | .error e => .error ("derive pricing: " ++ e)
  | .ok none => .ok none
  | .ok (some (pricing, terms, headlineIdx)) =>
    let rate ← (s.formatMoney pricing.rate).mapError ("format offer rate: " ++ ·)
    let unitCost ← (s.formatMoney pricing.unitCost).mapError ("format offer unit_cost: " ++ ·)
    let offer : Offer :=
      { offerID, signature := "", canonicalURL := entry.uri,
        pricing := offerPricing issuer pricing rate unitCost, title,
        rest := issuer.otherFields entry terms headlineIdx profiles (now + issuer.offerTTL) }
    let signature ← (issuer.signOffer offer).mapError ("sign offer: " ++ ·)
    pure (some { offer with signature })

end Service

variable {stored : List (Option TermRef)} {headline : Option TermRef}
  {requester : Option (List String)}

structure Headline (stored : List (Option TermRef)) (requester : Option (List String))
    (before : List (Option TermRef)) (headline : Option TermRef) : Prop where
  stored : ∃ after, stored = before ++ headline :: after
  eligible : Eligible requester headline
  first : ∀ t ∈ before, ¬ Eligible requester t

theorem selectTerms_headline {rest : List (Option TermRef)}
    (h : selectTerms stored scopes = headline :: rest) :
    ∃ before, Headline stored (some scopes) before headline := by
  obtain ⟨before, after, hstored, hbefore, hhead, -⟩ := List.filter_eq_cons_iff.mp h
  refine ⟨before, ⟨after, hstored⟩, entitled_iff.mp hhead, fun t ht heligible => ?_⟩
  exact hbefore t ht (entitled_iff.mpr heligible)

variable {Blob : Type} {s : Service Blob}

theorem Service.selectedPricing_ok {terms : List (Option TermRef)} {doc : PricingDoc} {idx : Nat}
    (h : s.selectedPricing stored requester = .ok (some (doc, terms, idx))) :
    ∃ before headline, Headline stored requester before headline ∧
      s.pricingDocFromTerm headline = .ok doc ∧ idx = headlineIndex stored headline := by
  have hhead : ∀ headline rest, (match requester with
      | some scopes => selectTerms stored scopes
      | none => stored) = headline :: rest →
        ∃ before, Headline stored requester before headline := by
    intro headline rest hterms
    cases requester with
    | some scopes => exact selectTerms_headline hterms
    | none => exact ⟨[], ⟨rest, hterms⟩, by simp [Eligible], by simp⟩
  unfold selectedPricing at h
  simp only at h
  split at h
  · cases h
  next headline rest hterms =>
    obtain ⟨before, hheadline⟩ := hhead headline rest hterms
    split at h
    · cases h
    next hdoc =>
      obtain ⟨rfl, -, rfl⟩ := h
      exact ⟨before, headline, hheadline, hdoc, rfl⟩

theorem Service.buildOffer_ok {issuer : OfferIssuer} {entry : CatalogEntry} {title : Option String}
    {profiles : List String} {offerID : String} {now : Time} {offer : Offer}
    (h : s.buildOffer issuer entry title stored requester profiles offerID now = .ok (some offer)) :
    ∃ before headline doc rate unitCost, Headline stored requester before headline ∧
      s.pricingDocFromTerm headline = .ok doc ∧ s.formatMoney doc.rate = .ok rate ∧
      s.formatMoney doc.unitCost = .ok unitCost ∧
      offer.pricing = offerPricing issuer doc rate unitCost := by
  unfold buildOffer at h
  split at h
  · cases h
  · cases h
  next doc terms idx hselected =>
    obtain ⟨before, headline, hheadline, hdoc, -⟩ := selectedPricing_ok hselected
    obtain ⟨rate, hrate, h⟩ := Except.bind_eq_ok.mp h
    obtain ⟨unitCost, hunit, h⟩ := Except.bind_eq_ok.mp h
    obtain ⟨signature, -, h⟩ := Except.bind_eq_ok.mp h
    obtain rfl := Option.some.inj (Except.ok.inj h)
    exact ⟨before, headline, doc, rate, unitCost, hheadline, hdoc,
      Except.mapError_eq_ok.mp hrate, Except.mapError_eq_ok.mp hunit, rfl⟩

end Ramp.Exchange
