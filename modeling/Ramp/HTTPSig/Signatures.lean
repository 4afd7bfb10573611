import Mathlib.Data.List.Induction
import Mathlib.Logic.Function.Basic
import Ramp.Data.Digits
import Ramp.Data.Text

/-! HTTP message signatures on a request: how the headers are read into labelled signatures, how
a forwarding party appends one, and how the verifier checks that they form a chain. -/

namespace Ramp.HTTPSig

abbrev Bytes := List UInt8

abbrev Header := String → List String

def Header.get (h : Header) (name : String) : String := (h name).headD ""

def Header.set (h : Header) (name value : String) : Header := Function.update h name [value]

structure Request where
  method : String
  targetURI : String
  header : Header

inductive BareItem
  | string (value : String)
  | integer (value : Int)
  | bytes (value : Bytes)
  | other (text : String)
  deriving DecidableEq

abbrev ItemParams := List (String × BareItem)

structure Item where
  value : BareItem
  params : ItemParams
  deriving DecidableEq

inductive Member
  | item (item : Item)
  | innerList (items : List Item) (params : ItemParams)
  deriving DecidableEq

abbrev Dictionary := List (String × Member)

def Dictionary.names (d : Dictionary) : List String := d.map Prod.fst

def Dictionary.add (d : Dictionary) (name : String) (member : Member) : Dictionary :=
  if name ∈ d.names then d.map fun m => if m.1 = name then (name, member) else m
  else d ++ [(name, member)]

inductive Sentinel
  | missingSignatureInput
  | missingSignature
  | malformedSignatureInput
  | brokenSignatureChain
  | tooManyHops
  | invalidSigningKey
  | library
  deriving DecidableEq

structure Error where
  sentinel : Sentinel
  text : String
  deriving DecidableEq

def malformed (text : String) : Error :=
  ⟨.malformedSignatureInput, "httpsig: malformed Signature-Input: " ++ text⟩

def brokenChain (text : String) : Error :=
  ⟨.brokenSignatureChain,
    "httpsig: signature chain broken (gap/reorder/missing link): " ++ text⟩

structure ComponentParam where
  key : String
  val : String
  deriving DecidableEq

structure CoveredComponent where
  name : String
  params : List ComponentParam := []
  deriving DecidableEq

structure Params where
  label : String
  covered : List CoveredComponent
  keyID : String := ""
  alg : String := ""
  created : Int := 0
  expires : Int := 0
  tag : String := ""
  nonce : String := ""
  deriving DecidableEq

def equalFold (a b : String) : Bool := a.toLower = b.toLower

def componentParam (c : CoveredComponent) (key : String) : String :=
  ((c.params.find? fun p => p.key = key).map ComponentParam.val).getD ""

def plainComponents (names : List String) : List CoveredComponent := names.map fun name => { name }

def sigLabel (n : Nat) : String := "sig" ++ toString n

def requiredCoveredComponents : List String :=
  ["@method", "@target-uri", "content-digest", "authorization", "signature-agent"]

def entitlementHeaderLower : String := "x-ramp-entitlement-biscuit"

def privateKeySize : Nat := 64

inductive Field
  | header (name : String)
  | dictHeader (name key : String)
  deriving DecidableEq

structure SignConfig where
  keyID : String
  expires : Option Int
  tag : Option String
  nonce : Option String
  deriving DecidableEq

structure Library where
  unmarshalDictionary : List String → Except String Dictionary
  signRequest : Bytes → SignConfig → List Field → String → Request → Except String (String × String)
  contentDigest : Bytes → String
  quote : String → String

/-- The key of the last `signature` component and the number of them. -/
def chainLink (covered : List CoveredComponent) : String × Nat :=
  covered.foldl (fun link c => if equalFold c.name "signature" then
    (componentParam c "key", link.2 + 1) else link) ("", 0)

namespace Library

variable (lib : Library)

def enforceFrom (i : Nat) : List Params → Except Error Unit
  | [] => .ok ()
  | p :: ps =>
    let wantLabel := sigLabel (i + 1)
    if p.label ≠ wantLabel then
      .error (brokenChain ("label " ++ lib.quote p.label ++ " at position " ++ toString (i + 1) ++
        ", want " ++ lib.quote wantLabel))
    else
      let link := chainLink p.covered
      if i = 0 then
        if link.2 ≠ 0 then .error (brokenChain "sig1 must not carry a signature component")
        else enforceFrom (i + 1) ps
      else
        let wantPrev := sigLabel i
        if link.2 ≠ 1 ∨ link.1 ≠ wantPrev then
          .error (brokenChain (wantLabel ++ " must cover exactly \"signature\";key=" ++
            lib.quote wantPrev ++ " (got " ++ toString link.2 ++ " links, key=" ++
            lib.quote link.1 ++ ")"))
        else enforceFrom (i + 1) ps

def enforceSignatureChain (allParams : List Params) : Except Error Unit :=
  lib.enforceFrom 0 allParams

end Library

namespace Library

variable (lib : Library)

def componentParams : ItemParams → Except Error (List ComponentParam)
  | [] => .ok []
  | (key, .string val) :: params => do
    let rest ← componentParams params
    pure (⟨key, val⟩ :: rest)
  | (key, _) :: _ => .error (malformed ("component param " ++ lib.quote key ++ " not a string"))

def coveredFromItem (item : Item) : Except Error CoveredComponent :=
  match item.value with
  | .string name => do
    let params ← lib.componentParams item.params
    pure { name, params }
  | _ => .error (malformed "component identifier not a string")

def coveredFromItems : List Item → Except Error (List CoveredComponent)
  | [] => .ok []
  | item :: items => do
    let component ← lib.coveredFromItem item
    let rest ← coveredFromItems items
    pure (component :: rest)

def stringParam (params : ItemParams) (name : String) : Except Error String :=
  match params.lookup name with
  | none => .ok ""
  | some (.string s) => .ok s
  | some _ => .error (malformed (name ++ " not a string"))

def intParam (params : ItemParams) (name : String) : Except Error Int :=
  match params.lookup name with
  | none => .ok 0
  | some (.integer n) => .ok n
  | some _ => .error (malformed (name ++ " not an integer"))

def applySignatureParams (p : Params) (params : ItemParams) : Except Error Params := do
  let keyID ← stringParam params "keyid"
  let alg ← stringParam params "alg"
  let tag ← stringParam params "tag"
  let nonce ← stringParam params "nonce"
  let created ← intParam params "created"
  let expires ← intParam params "expires"
  pure { p with keyID, alg, tag, nonce, created, expires }

def parseInputLabel (d : Dictionary) (label : String) : Except Error Params :=
  match d.lookup label with
  | none => .error (malformed ("label " ++ lib.quote label ++ " absent"))
  | some (.item _) =>
    .error (malformed ("label " ++ lib.quote label ++ " is not an inner list"))
  | some (.innerList items params) => do
    let covered ← lib.coveredFromItems items
    let p ← applySignatureParams { label, covered } params
    if p.keyID = "" then .error (malformed "keyid required") else pure p

def parseSigLabel (d : Dictionary) (label : String) : Except Error Bytes :=
  match d.lookup label with
  | none => .error (malformed ("Signature label " ++ lib.quote label ++ " not present"))
  | some (.innerList _ _) =>
    .error (malformed ("Signature label " ++ lib.quote label ++ " is not an item"))
  | some (.item ⟨.bytes raw, _⟩) => .ok raw
  | some (.item _) => .error (malformed "Signature value not a byte sequence")

def parseLabels (inputDict sigDict : Dictionary) :
    List String → Except Error (List Params × List (String × Bytes))
  | [] => .ok ([], [])
  | label :: names => do
    let params ← lib.parseInputLabel inputDict label
    let sigBytes ← lib.parseSigLabel sigDict label
    let rest ← parseLabels inputDict sigDict names
    pure (params :: rest.1, (label, sigBytes) :: rest.2)

/-- The signatures in the order of `Signature-Input`, with the bytes of each label. -/
def parseAllSignatures (h : Header) : Except Error (List Params × List (String × Bytes)) :=
  if h "Signature-Input" = [] then
    .error ⟨.missingSignatureInput, "httpsig: missing Signature-Input header"⟩
  else if h "Signature" = [] then
    .error ⟨.missingSignature, "httpsig: missing Signature header"⟩
  else
    match lib.unmarshalDictionary (h "Signature-Input") with
    | .error e => .error (malformed ("Signature-Input: " ++ e))
    | .ok inputDict =>
      match lib.unmarshalDictionary (h "Signature") with
      | .error e => .error (malformed ("Signature: " ++ e))
      | .ok sigDict =>
        if inputDict.names = [] then .error (malformed "no labels found")
        else lib.parseLabels inputDict sigDict inputDict.names

end Library

def rampCoveredComponents (h : Header) : List CoveredComponent :=
  plainComponents (requiredCoveredComponents ++
    if h.get "X-Ramp-Entitlement-Biscuit" ≠ "" then [entitlementHeaderLower] else [])

def rampChainCoveredComponents (h : Header) (prev : Option String) : List CoveredComponent :=
  rampCoveredComponents h ++ match prev with
    | none => []
    | some prevLabel => [{ name := "signature", params := [⟨"key", prevLabel⟩] }]

def labelNumber (label : String) : Option Int :=
  if hasPrefix label "sig" then
    match atoi (label.toList.drop 3) with
    | .ok num => some num
    | .error _ => none
  else none

def maxLabelN (names : List String) : Int :=
  names.foldl (fun maxN label => match labelNumber label with
    | some num => if num > maxN then num else maxN
    | none => maxN) 0

def coveredToFields : List CoveredComponent → Except Error (List Field)
  | [] => .ok []
  | c :: covered =>
    if equalFold c.name "signature" then
      if componentParam c "key" = "" then .error (malformed "signature component missing key param")
      else do
        let rest ← coveredToFields covered
        pure (.dictHeader "signature" (componentParam c "key") :: rest)
    else do
      let rest ← coveredToFields covered
      pure (.header c.name :: rest)

inductive SigWriteMode
  | set
  | append
  deriving DecidableEq

def extend (existing value : String) : String :=
  if existing ≠ "" then existing ++ ", " ++ value else value

def bindHeader (name : String) (h : Header) : Header :=
  if h.get name = "" then h.set name "" else h

def bindAuthorization : Header → Header := bindHeader "Authorization"

def bindSignatureAgent : Header → Header := bindHeader "Signature-Agent"

namespace Library

variable (lib : Library)

def maxSignatureLabelN (h : Header) : Except Error Int :=
  if h "Signature-Input" = [] then .ok 0
  else match lib.unmarshalDictionary (h "Signature-Input") with
    | .error e => .error (malformed e)
    | .ok dict => .ok (maxLabelN dict.names)

def setContentDigest (body : Bytes) (h : Header) : Header :=
  h.set "Content-Digest" ("sha-256=:" ++ lib.contentDigest body ++ ":")

def signWithParams (req : Request) (params : Params) (priv : Bytes) (mode : SigWriteMode) :
    Except Error Request :=
  if priv.length ≠ privateKeySize then
    .error ⟨.invalidSigningKey, "httpsig: invalid ed25519 signing key: signing key is " ++
      toString priv.length ++ " bytes, want " ++ toString privateKeySize⟩
  else
    match coveredToFields params.covered with
    | .error e => .error e
    | .ok fields =>
      let cfg : SignConfig :=
        { keyID := params.keyID
          expires := if params.expires ≠ 0 then some params.expires else none
          tag := if params.tag ≠ "" then some params.tag else none
          nonce := if params.nonce ≠ "" then some params.nonce else none }
      match lib.signRequest priv cfg fields params.label req with
      | .error e => .error ⟨.library, e⟩
      | .ok (sigInput, sigValue) =>
        let (sigInput, sigValue) := match mode with
          | .set => (sigInput, sigValue)
          | .append => (extend (req.header.get "Signature-Input") sigInput,
              extend (req.header.get "Signature") sigValue)
        .ok { req with
          header := (req.header.set "Signature-Input" sigInput).set "Signature" sigValue }

def appendSignatureRAMP (req : Request) (body : Bytes) (keyID : String) (priv : Bytes)
    (expires : Int) : Except Error Request :=
  let digested := if req.header.get "Content-Digest" = "" then
    lib.setContentDigest body req.header else req.header
  let req := { req with header := bindSignatureAgent (bindAuthorization digested) }
  match lib.maxSignatureLabelN req.header with
  | .error e => .error e
  | .ok maxN =>
    let prev := if maxN > 0 then some ("sig" ++ toString maxN) else none
    lib.signWithParams req
      { label := "sig" ++ toString (maxN + 1)
        covered := rampChainCoveredComponents req.header prev
        keyID, alg := "ed25519", expires } priv .append

end Library

structure VerifiedRequest where
  keyID : String
  algorithm : String
  label : String
  signature : Bytes

/-- `single` is the check of one signature, on the body that was read; `maxSignatures` is 0 for
no bound. -/
structure VerifyOptions where
  maxSignatures : Nat
  readBody : Except Error Bytes
  single : Params → List (String × Bytes) → Bytes → Except Error VerifiedRequest

def VerifyOptions.verifyEach (options : VerifyOptions) (sigMap : List (String × Bytes))
    (body : Bytes) : List Params → Except Error (List VerifiedRequest)
  | [] => .ok []
  | params :: rest => do
    let v ← options.single params sigMap body
    let others ← options.verifyEach sigMap body rest
    pure (v :: others)

def Library.verifyMultisigRequest (lib : Library) (options : VerifyOptions) (req : Request) :
    Except Error (List VerifiedRequest) := do
  let (allParams, sigMap) ← lib.parseAllSignatures req.header
  if options.maxSignatures > 0 ∧ allParams.length > options.maxSignatures then
    .error ⟨.tooManyHops, "httpsig: signature count exceeds hop budget: got " ++
      toString allParams.length ++ " max " ++ toString options.maxSignatures⟩
  else
    lib.enforceSignatureChain allParams
    let body ← options.readBody
    options.verifyEach sigMap body allParams

theorem sigLabel_inj {m n : Nat} (h : sigLabel m = sigLabel n) : m = n := by
  refine toString_nat_injective ?_
  simpa [sigLabel] using h

structure Linked (i : Nat) (p : Params) : Prop where
  label : p.label = sigLabel (i + 1)
  link : chainLink p.covered = if i = 0 then ("", 0) else (sigLabel i, 1)

def Chain (i : Nat) : List Params → Prop
  | [] => True
  | p :: ps => Linked i p ∧ Chain (i + 1) ps

theorem chainLink_append (covered : List CoveredComponent) (c : CoveredComponent) :
    chainLink (covered ++ [c]) = if equalFold c.name "signature" then
      (componentParam c "key", (chainLink covered).2 + 1) else chainLink covered := by
  simp [chainLink, List.foldl_append]

theorem chainLink_of_no_link {covered : List CoveredComponent} (h : (chainLink covered).2 = 0) :
    chainLink covered = ("", 0) := by
  induction covered using List.reverseRecOn with
  | nil => rfl
  | append_singleton covered c ih =>
    rw [chainLink_append] at h ⊢
    by_cases hname : equalFold c.name "signature" = true
    · simp [hname] at h
    · rw [if_neg hname] at h ⊢
      exact ih h

variable (lib : Library)

variable {i : Nat} {ps qs : List Params} {p : Params}

theorem enforceFrom_ok : lib.enforceFrom i ps = .ok () ↔ Chain i ps := by
  induction ps generalizing i with
  | nil => simp [Library.enforceFrom, Chain]
  | cons p ps ih =>
    rw [Library.enforceFrom, Chain, ← ih]
    by_cases hlabel : p.label = sigLabel (i + 1)
    · rw [if_neg (not_not.mpr hlabel)]
      by_cases hi : i = 0
      · rw [if_pos hi]
        by_cases hlink : (chainLink p.covered).2 = 0
        · rw [if_neg (not_not.mpr hlink)]
          have hlinked : Linked i p := ⟨hlabel, by rw [if_pos hi, chainLink_of_no_link hlink]⟩
          exact ⟨fun h => ⟨hlinked, h⟩, fun h => h.2⟩
        · rw [if_pos hlink]
          refine ⟨fun h => (by cases h), fun h => absurd ?_ hlink⟩
          rw [h.1.link, if_pos hi]
      · rw [if_neg hi]
        by_cases hlink : (chainLink p.covered).2 ≠ 1 ∨ (chainLink p.covered).1 ≠ sigLabel i
        · rw [if_pos hlink]
          refine ⟨fun h => (by cases h), fun h => absurd hlink ?_⟩
          simp [h.1.link, hi]
        · rw [if_neg hlink]
          rw [not_or, not_not, not_not] at hlink
          have hlinked : Linked i p := ⟨hlabel, by rw [if_neg hi]; exact Prod.ext hlink.2 hlink.1⟩
          exact ⟨fun h => ⟨hlinked, h⟩, fun h => h.2⟩
    · rw [if_pos hlabel]
      exact ⟨fun h => (by cases h), fun h => absurd h.1.label hlabel⟩

theorem Chain.append : Chain i (ps ++ qs) ↔ Chain i ps ∧ Chain (i + ps.length) qs := by
  induction ps generalizing i with
  | nil => simp [Chain]
  | cons p ps ih =>
    rw [List.cons_append, Chain, Chain, ih, List.length_cons, and_assoc,
      Nat.add_right_comm i 1 ps.length, Nat.add_assoc i ps.length 1]

theorem Chain.at (h : Chain i ps) {k : Nat} (hk : ps[k]? = some p) : Linked (i + k) p := by
  induction ps generalizing i k with
  | nil => cases hk
  | cons q ps ih =>
    cases k with
    | zero =>
      cases hk
      exact h.1
    | succ k =>
      have hrest := ih h.2 hk
      rwa [Nat.add_right_comm i 1 k] at hrest

theorem Chain.labels (h : Chain i ps) :
    ps.map Params.label = (List.range' (i + 1) ps.length).map sigLabel := by
  induction ps generalizing i with
  | nil => rfl
  | cons p ps ih => simp [List.range'_succ, h.1.label, ih h.2]

theorem Chain.links (hp : Chain i ps) (hq : Chain i qs) (hlen : qs.length = ps.length) :
    qs.map (fun p => chainLink p.covered) = ps.map fun p => chainLink p.covered := by
  induction ps generalizing i qs with
  | nil => simp [List.length_eq_zero_iff.mp hlen]
  | cons p ps ih =>
    cases qs with
    | nil => cases hlen
    | cons q qs =>
      have hrest := ih hp.2 hq.2 (Nat.succ.inj hlen)
      simp [hp.1.link, hq.1.link, hrest]

theorem Chain.eq_of_perm (hp : Chain 0 ps) (hq : Chain 0 qs) (h : qs.Perm ps) : qs = ps := by
  refine List.ext_getElem? fun k => ?_
  cases hk : qs[k]? with
  | none =>
    rw [eq_comm, List.getElem?_eq_none_iff, ← h.length_eq]
    exact List.getElem?_eq_none_iff.mp hk
  | some q =>
    obtain ⟨j, hj⟩ := List.mem_iff_getElem?.mp (h.subset (List.mem_of_getElem? hk))
    have hlabel := (hq.at hk).label.symm.trans (hp.at hj).label
    have hpos : k = j := by
      have hnum := sigLabel_inj hlabel
      omega
    rw [hpos, hj]

theorem Chain.not_removed {a b : List Params} (h : Chain 0 (a ++ p :: b)) (hb : b ≠ []) :
    ¬ Chain 0 (a ++ b) := by
  intro hshort
  obtain ⟨q, b, rfl⟩ := List.exists_cons_of_ne_nil hb
  have hlong := (Chain.append.mp h).2.2.1.label
  have hnow := (Chain.append.mp hshort).2.1.label
  have hnum := sigLabel_inj (hlong.symm.trans hnow)
  omega

def Rejected (ps : List Params) : Prop :=
  ∃ e, lib.enforceSignatureChain ps = .error e

theorem rejected_iff : Rejected lib ps ↔ ¬ Chain 0 ps := by
  rw [← enforceFrom_ok lib, Rejected, Library.enforceSignatureChain]
  cases lib.enforceFrom 0 ps with
  | error e => simp
  | ok u => simp

end Ramp.HTTPSig
