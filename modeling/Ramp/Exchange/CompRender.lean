import Mathlib.Data.List.Dedup
import Mathlib.Data.List.Sort
import Mathlib.Data.String.Basic
import Ramp.Exchange.Answers
import Ramp.Exchange.Terms

/-! The CoMP profile of a license term: the package it is rendered as, and the list of the
constructs that the package has no place for. -/

namespace Ramp.Exchange

inductive AllowedUse
  | commercial
  | nonCommercial
  | educational
  | government
  | personal
  deriving DecidableEq

inductive PriceType
  | flat
  | perToken
  | perQuery
  | perUse
  deriving DecidableEq

structure ResourceMetadata where
  wordCount : Int
  provenanceTimestamp : Option Time
  provenanceSource : String
  contentHash : String
  hashMethod : String
  resourceMutability : Option String
  previews : Option String

structure CompText where
  wordcount : List Int := []
  pubdate : Option String := none
  provent : Option String := none
  provenance : Option Int := none
  ext : List (String × String) := []
  deriving DecidableEq

structure CompScope where
  unitprice : ℚ
  cur : String
  pricetype : Option PriceType
  ause : Option AllowedUse := none
  country : List Int := []
  text : List CompText := []

structure CompPackage where
  id : String
  scope : CompScope
  citation : Option Int
  rampUnmapped : List String

structure CompRenderInput where
  term : LicenseTerm
  resourceID : String
  termIndex : Nat
  md : Option ResourceMetadata

def auseUserType (token : String) : Option AllowedUse :=
  if token = "commercial" then some .commercial
  else if token = "commercial_entity" then some .commercial
  else if token = "advertising" then some .commercial
  else if token = "non_profit" then some .nonCommercial
  else if token = "academic" then some .educational
  else if token = "research" then some .educational
  else if token = "educational" then some .educational
  else if token = "government" then some .government
  else if token = "individual" then some .personal
  else none

def alpha2ToNumeric (token : String) : Option Int :=
  if token = "US" then some 840
  else if token = "DE" then some 276
  else none

def auseFromRestrictions (term : LicenseTerm) : Option AllowedUse :=
  term.restrictions.findSome? fun r =>
    if r.kind = .userType then r.permitted.findSome? auseUserType else none

def countryFromRestrictions (term : LicenseTerm) : List Int :=
  (term.restrictions.flatMap fun r =>
    if r.kind = .geography then r.permitted.filterMap alpha2ToNumeric else []).insertionSort (· ≤ ·)

def citationFromObligations (term : LicenseTerm) : Option Int :=
  if .attribution ∈ term.obligations then some 1 else none

def restrictionMapped (r : Restriction) : Bool :=
  match r.kind with
  | .userType => r.permitted.any fun t => (auseUserType t).isSome
  | .geography => r.permitted.any fun t => (alpha2ToNumeric t).isSome
  | _ => false

def RestrictionKind.name : RestrictionKind → String
  | .unspecified => "RESTRICTION_KIND_UNSPECIFIED"
  | .function => "RESTRICTION_KIND_FUNCTION"
  | .geography => "RESTRICTION_KIND_GEOGRAPHY"
  | .userType => "RESTRICTION_KIND_USER_TYPE"
  | .other => "RESTRICTION_KIND_OTHER"
  | .unknown number => toString number

def ObligationKind.name : ObligationKind → String
  | .unspecified => "OBLIGATION_KIND_UNSPECIFIED"
  | .attribution => "OBLIGATION_KIND_ATTRIBUTION"
  | .shareAlike => "OBLIGATION_KIND_SHARE_ALIKE"
  | .networkCopyleft => "OBLIGATION_KIND_NETWORK_COPYLEFT"
  | .notice => "OBLIGATION_KIND_NOTICE"
  | .contribution => "OBLIGATION_KIND_CONTRIBUTION"
  | .other => "OBLIGATION_KIND_OTHER"
  | .unknown number => toString number

def trimPrefix (text start : String) : String :=
  if hasPrefix text start then String.ofList (text.toList.drop start.toList.length) else text

def kindToken (enumName start : String) : String :=
  String.ofList ((trimPrefix enumName start).toList.map Char.toLower)

def restrictionToken (kind : RestrictionKind) : String :=
  "restriction:" ++ kindToken kind.name "RESTRICTION_KIND_"

def unmappedConstructs (term : LicenseTerm) : List String :=
  let restrictions := (term.restrictions.filter fun r => ¬ restrictionMapped r).map fun r =>
    restrictionToken r.kind
  let quotas := term.quotas.map ("quota:" ++ ·)
  let obligations := (term.obligations.filter (· ≠ .attribution)).map fun o =>
    "obligation:" ++ kindToken o.name "OBLIGATION_KIND_"
  let scopes := term.scopes.map ("scope:" ++ ·)
  (restrictions ++ quotas ++ obligations ++ scopes).dedup.insertionSort (· ≤ ·)

def textExtFromMetadata (md : ResourceMetadata) : List (String × String) :=
  (if md.contentHash ≠ "" then [("content_hash", md.contentHash)] else []) ++
  (if md.hashMethod ≠ "" then [("hash_method", md.hashMethod)] else []) ++
  (md.resourceMutability.map fun v => ("resource_mutability", v)).toList ++
  (md.previews.map fun v => ("previews", v)).toList

def textFromMetadata (rfc3339 : Time → String) (md : Option ResourceMetadata) : Option CompText :=
  md.bind fun md =>
    let text : CompText :=
      { wordcount := if md.wordCount > 0 then [md.wordCount] else []
        pubdate := md.provenanceTimestamp.map rfc3339
        provent := if md.provenanceSource ≠ "" then some md.provenanceSource else none
        provenance := if md.provenanceSource ≠ "" then some 1 else none
        ext := textExtFromMetadata md }
    if text = {} then none else some text

def priceTypeFor (p : Option Pricing) : Option PriceType :=
  match p with
  | none => none
  | some p =>
    if p.model = "PRICING_MODEL_FLAT" then some .flat
    else if p.model = "PRICING_MODEL_PER_UNIT" then
      if p.unit = "tokens" then some .perToken
      else if p.unit = "queries" then some .perQuery
      else some .perUse
    else none

namespace Service

variable {Blob : Type} (s : Service Blob)

def scopeFromPricing (p : Option Pricing) : Except String CompScope := do
  let cur := (p.map Pricing.currency).getD ""
  let rate ← (s.moneyOrZero ((p.map Pricing.rate).getD "")).mapError ("parse comp unitprice: " ++ ·)
  pure { unitprice := rate, cur := if cur = "" then "USD" else cur, pricetype := priceTypeFor p }

def renderCompProfile (rfc3339 : Time → String) (input : CompRenderInput) :
    Except String CompPackage := do
  let scope ← (s.scopeFromPricing input.term.pricing).mapError ("project comp scope: " ++ ·)
  let scope := { scope with
    ause := auseFromRestrictions input.term
    country := countryFromRestrictions input.term
    text := (textFromMetadata rfc3339 input.md).toList }
  pure { id := input.resourceID ++ "#" ++ toString input.termIndex, scope,
         citation := citationFromObligations input.term,
         rampUnmapped := unmappedConstructs input.term }

end Service

section

def CompScope.Shows (scope : CompScope) (kind : RestrictionKind) (value : String) : Prop :=
  match kind with
  | .userType => ∃ use, auseUserType value = some use ∧ scope.ause = some use
  | .geography => ∃ code, alpha2ToNumeric value = some code ∧ code ∈ scope.country
  | _ => False

instance (scope : CompScope) (kind : RestrictionKind) (value : String) :
    Decidable (scope.Shows kind value) := by
  unfold CompScope.Shows
  cases kind with
  | userType => exact decidable_of_iff (∃ use ∈ auseUserType value, scope.ause = some use) Iff.rfl
  | geography =>
    exact decidable_of_iff (∃ code ∈ alpha2ToNumeric value, code ∈ scope.country) Iff.rfl
  | _ => exact instDecidableFalse

structure CompScope.Reflects (scope : CompScope) (r : Restriction) : Prop where
  permitted : ∀ v ∈ r.permitted, scope.Shows r.kind v
  prohibited : r.prohibited = []

def Recognized (kind : RestrictionKind) (value : String) : Prop :=
  match kind with
  | .userType => ∃ use, auseUserType value = some use
  | .geography => ∃ code, alpha2ToNumeric value = some code
  | _ => False

instance (kind : RestrictionKind) (value : String) : Decidable (Recognized kind value) := by
  unfold Recognized
  cases kind with
  | userType => exact decidable_of_iff _ Option.isSome_iff_exists
  | geography => exact decidable_of_iff _ Option.isSome_iff_exists
  | _ => exact instDecidableFalse

/-- Every restriction under the name of the kind permits a known token. -/
def Unlisted (term : LicenseTerm) (kind : RestrictionKind) : Prop :=
  ∀ r ∈ term.restrictions, restrictionToken r.kind = restrictionToken kind →
    ∃ v ∈ r.permitted, Recognized r.kind v

/-- A restriction of a kind that is not listed prohibits nothing and permits known tokens only,
and the user types of the term are of one class, if that kind is not listed. -/
structure Projectable (term : LicenseTerm) : Prop where
  known : ∀ r ∈ term.restrictions, Unlisted term r.kind →
    r.prohibited = [] ∧ ∀ v ∈ r.permitted, Recognized r.kind v
  oneUse : Unlisted term .userType → ∀ r ∈ term.restrictions, ∀ r' ∈ term.restrictions,
    r.kind = .userType → r'.kind = .userType → ∀ v ∈ r.permitted, ∀ v' ∈ r'.permitted,
      auseUserType v = auseUserType v'

variable {r : Restriction} {term : LicenseTerm} {v : String} {use : AllowedUse}

theorem restrictionMapped_iff :
    restrictionMapped r = true ↔ ∃ v ∈ r.permitted, Recognized r.kind v := by
  unfold restrictionMapped Recognized
  cases r.kind <;> simp [Option.isSome_iff_exists]

theorem restrictionToken_ne {kind : RestrictionKind} {start rest : String}
    (h : start.toList.head? ≠ some 'r') (hstart : start.toList ≠ []) :
    start ++ rest ≠ restrictionToken kind := by
  intro heq
  have hhead := congrArg (fun text => text.toList.head?) heq
  simp only [restrictionToken, String.toList_append, List.head?_append_of_ne_nil _ hstart] at hhead
  exact h hhead

theorem unlisted_iff {kind : RestrictionKind} :
    Unlisted term kind ↔ restrictionToken kind ∉ unmappedConstructs term := by
  rw [unmappedConstructs, (List.perm_insertionSort _ _).mem_iff, List.mem_dedup]
  simp only [List.mem_append, List.mem_map, List.mem_filter, decide_eq_true_eq]
  constructor
  · rintro h (((⟨r, ⟨hr, hunmapped⟩, htoken⟩ | ⟨q, -, hq⟩) | ⟨o, -, ho⟩) | ⟨sc, -, hsc⟩)
    · exact hunmapped (restrictionMapped_iff.mpr (h r hr htoken))
    · exact restrictionToken_ne (by decide) (by decide) hq
    · exact restrictionToken_ne (by decide) (by decide) ho
    · exact restrictionToken_ne (by decide) (by decide) hsc
  · intro h r hr htoken
    by_contra hunknown
    exact h (.inl (.inl (.inl ⟨r, ⟨hr, mt restrictionMapped_iff.mp hunknown⟩, htoken⟩)))

theorem CompScope.Shows.recognized {scope : CompScope} {kind : RestrictionKind}
    (h : scope.Shows kind v) : Recognized kind v := by
  cases kind with
  | userType => exact h.imp fun _ hu => hu.1
  | geography => exact h.imp fun _ hc => hc.1
  | _ => exact h

theorem mem_countryFromRestrictions {code : Int} (hr : r ∈ term.restrictions)
    (hkind : r.kind = .geography) (hv : v ∈ r.permitted) (hcode : alpha2ToNumeric v = some code) :
    code ∈ countryFromRestrictions term := by
  rw [countryFromRestrictions, (List.perm_insertionSort _ _).mem_iff]
  refine List.mem_flatMap.mpr ⟨r, hr, ?_⟩
  rw [if_pos hkind]
  exact List.mem_filterMap.mpr ⟨v, hv, hcode⟩

theorem auseFromRestrictions_eq_some (h : auseFromRestrictions term = some use) :
    ∃ r ∈ term.restrictions, r.kind = .userType ∧ ∃ v ∈ r.permitted, auseUserType v = some use := by
  obtain ⟨r, hr, huse⟩ := List.exists_of_findSome?_eq_some h
  split_ifs at huse with hkind
  obtain ⟨v, hv, huse⟩ := List.exists_of_findSome?_eq_some huse
  exact ⟨r, hr, hkind, v, hv, huse⟩

theorem auseFromRestrictions_isSome (hr : r ∈ term.restrictions) (hkind : r.kind = .userType)
    (hv : v ∈ r.permitted) (huse : auseUserType v = some use) :
    ∃ use', auseFromRestrictions term = some use' := by
  refine Option.isSome_iff_exists.mp (List.findSome?_isSome_iff.mpr ⟨r, hr, ?_⟩)
  rw [if_pos hkind]
  exact List.findSome?_isSome_iff.mpr ⟨v, hv, by simp [huse]⟩

theorem Projectable.shows {scope : CompScope} (h : Projectable term)
    (hause : scope.ause = auseFromRestrictions term)
    (hcountry : scope.country = countryFromRestrictions term) (hr : r ∈ term.restrictions)
    (hlisted : Unlisted term r.kind) (hv : v ∈ r.permitted) : scope.Shows r.kind v := by
  have hknown := (h.known r hr hlisted).2 v hv
  cases hkind : r.kind with
  | userType =>
    rw [hkind] at hknown hlisted
    obtain ⟨use, huse⟩ := hknown
    obtain ⟨use', hshown⟩ := auseFromRestrictions_isSome hr hkind hv huse
    obtain ⟨r', hr', hkind', v', hv', huse'⟩ := auseFromRestrictions_eq_some hshown
    have hsame := h.oneUse hlisted r hr r' hr' hkind hkind' v hv v' hv'
    exact ⟨use, huse, by rw [hause, hshown, ← huse', ← hsame, huse]⟩
  | geography =>
    rw [hkind] at hknown
    obtain ⟨code, hcode⟩ := hknown
    refine ⟨code, hcode, ?_⟩
    rw [hcountry]
    exact mem_countryFromRestrictions hr hkind hv hcode
  | _ =>
    rw [hkind] at hknown
    exact hknown.elim

/-- Exactly the terms that are projectable have every restriction that is not listed as unmapped
name a value, and all its values show in the scope. -/
theorem unlisted_restrictions_reflected {Blob : Type} {s : Service Blob} {rfc3339 : Time → String}
    {input : CompRenderInput} {pkg : CompPackage}
    (hpkg : s.renderCompProfile rfc3339 input = .ok pkg) :
    (∀ r ∈ input.term.restrictions, restrictionToken r.kind ∉ pkg.rampUnmapped →
      r.permitted ≠ [] ∧ pkg.scope.Reflects r) ↔ Projectable input.term := by
  obtain ⟨scope, -, h⟩ := Except.bind_eq_ok.mp hpkg
  cases h
  simp only [← unlisted_iff]
  constructor
  · intro hclaim
    refine ⟨fun r hr hlisted => ?_, fun hlisted r hr r' hr' hkind hkind' v hv v' hv' => ?_⟩
    · obtain ⟨-, hpermitted, hprohibited⟩ := hclaim r hr hlisted
      exact ⟨hprohibited, fun v hv => (hpermitted v hv).recognized⟩
    · have hv := (hclaim r hr (hkind ▸ hlisted)).2.permitted v hv
      have hv' := (hclaim r' hr' (hkind' ▸ hlisted)).2.permitted v' hv'
      rw [hkind] at hv
      rw [hkind'] at hv'
      obtain ⟨use, huse, hshown⟩ := hv
      obtain ⟨use', huse', hshown'⟩ := hv'
      rw [huse, huse', ← hshown, hshown']
  · intro hterm r hr hlisted
    obtain ⟨v, hv, -⟩ := hlisted r hr rfl
    exact ⟨List.ne_nil_of_mem hv, fun v hv => hterm.shows rfl rfl hr hlisted hv,
      (hterm.known r hr hlisted).1⟩

end

def restricted (restrictions : List Restriction) : CompRenderInput where
  term := ⟨[], none, restrictions, [], []⟩
  resourceID := "resource"
  termIndex := 0
  md := none

def usAndGermany : List Restriction :=
  [⟨.geography, ["US", "DE"], []⟩, ⟨.userType, ["academic", "research"], []⟩,
   ⟨.function, ["search"], []⟩]

theorem unlisted_restrictions_reflected_countries :
    ∃ pkg, plainService.renderCompProfile (fun _ => "") (restricted usAndGermany) = .ok pkg ∧
      pkg.rampUnmapped = ["restriction:function"] ∧
      ∀ r ∈ usAndGermany, restrictionToken r.kind ∉ pkg.rampUnmapped →
        r.permitted ≠ [] ∧ pkg.scope.Reflects r := by
  have hterm : Projectable (restricted usAndGermany).term :=
    ⟨by unfold Unlisted; decide +kernel, by unfold Unlisted; decide +kernel⟩
  obtain ⟨pkg, hpkg, hunmapped⟩ : ∃ pkg, plainService.renderCompProfile (fun _ => "")
      (restricted usAndGermany) = .ok pkg ∧ pkg.rampUnmapped = ["restriction:function"] :=
    ⟨_, rfl, by decide +kernel⟩
  exact ⟨pkg, hpkg, hunmapped, (unlisted_restrictions_reflected hpkg).mpr hterm⟩

/-- One restriction of two, one country of two and what is prohibited are dropped, and
nothing is listed. -/
theorem restrictions_dropped : ∃ pkg, plainService.renderCompProfile (fun _ => "") (restricted
        [⟨.userType, ["commercial"], []⟩, ⟨.userType, ["academic"], []⟩,
         ⟨.geography, ["US", "FR"], ["DE"]⟩]) = .ok pkg ∧
      pkg.rampUnmapped = [] ∧ ¬ pkg.scope.Shows .userType "academic" ∧
      ¬ pkg.scope.Shows .geography "FR" ∧ pkg.scope.country = [840] := by
  exact ⟨_, rfl, by decide +kernel⟩

end Ramp.Exchange
