import Mathlib.Data.List.Perm.Subperm
import Ramp.HTTPSig.Signatures
import Ramp.Program.Basic

/-! Appending a signature. It extends the first line of each header and drops the others, so it adds
one link to the chain and leaves the signatures before it as they were exactly where the first
lines say all that the headers say. -/

namespace Ramp.HTTPSig

variable {member : Member} {text : String}

section

variable {lib : Library}

structure Accepted (lib : Library) (h : Header) (ps : List Params) (sigs : List (String × Bytes)) :
    Prop where
  parsed : lib.parseAllSignatures h = .ok (ps, sigs)
  chained : lib.enforceSignatureChain ps = .ok ()

def Field.item : Field → Item
  | .header name => ⟨.string name, []⟩
  | .dictHeader name key => ⟨.string name, [("key", .string key)]⟩

structure SignedAs (cfg : SignConfig) (fields : List Field) (member : Member) : Prop where
  member : ∃ params, member = .innerList (fields.map Field.item) params ∧
    params.lookup "keyid" = some (.string cfg.keyID) ∧
    params.lookup "alg" = some (.string "ed25519") ∧
    (∃ created, params.lookup "created" = some (.integer created)) ∧
    params.lookup "expires" = cfg.expires.map BareItem.integer ∧
    params.lookup "tag" = cfg.tag.map BareItem.string ∧
    params.lookup "nonce" = cfg.nonce.map BareItem.string

/-- The text of one member: what it extends is a dictionary by itself, and is extended by the
member. -/
structure Adds (lib : Library) (value label : String) (member : Member) : Prop where
  extends_ok : ∀ text d, lib.unmarshalDictionary [text] = .ok d → d ≠ [] →
    lib.unmarshalDictionary [extend text value] = .ok (d.add label member)
  of_extended : ∀ text d', lib.unmarshalDictionary [extend text value] = .ok d' →
    ∃ d, lib.unmarshalDictionary [text] = .ok d ∧ d' = d.add label member

/-- What the libraries document: the texts of a signature are one member each, the lines of a
header are read together, and a dictionary is held in memory. -/
structure Documented (lib : Library) : Prop where
  appends : ∀ priv cfg fields label req input value,
    lib.signRequest priv cfg fields label req = .ok (input, value) →
    ∃ member raw params, SignedAs cfg fields member ∧ Adds lib input label member ∧
      Adds lib value label (.item ⟨.bytes raw, params⟩)
  lines : ∀ line lines d d', lib.unmarshalDictionary [line] = .ok d →
    lib.unmarshalDictionary (line :: lines) = .ok d' → d.names ⊆ d'.names
  fits : ∀ values d, lib.unmarshalDictionary values = .ok d → d.length < 2 ^ 62

variable {name other label keyID : String} {d di ds d' : Dictionary} {p : Params}
  {names : List String} {ps : List Params} {sigs : List (String × Bytes)} {n : Nat}
  {covered : List CoveredComponent} {fields : List Field} {h : Header} {req : Request}
  {priv : Bytes}

theorem Dictionary.lookup_add_ne (d : Dictionary) (member : Member) (h : other ≠ name) :
    (d.add name member).lookup other = d.lookup other := by
  have hne : (other == name) = false := by simpa using h
  unfold Dictionary.add
  split_ifs with hmem
  · clear hmem
    induction d with
    | nil => rfl
    | cons m d ih =>
      obtain ⟨n, v⟩ := m
      by_cases hn : n = name
      · subst hn
        simp [List.lookup_cons, ih, hne]
      · simp [hn, List.lookup_cons, ih]
  · rw [List.lookup_append]
    simp [List.lookup_cons, hne]

theorem Dictionary.lookup_add (d : Dictionary) (name : String) (member : Member) :
    (d.add name member).lookup name = some member := by
  unfold Dictionary.add
  split_ifs with hmem
  · induction d with
    | nil => cases hmem
    | cons m d ih =>
      obtain ⟨n, v⟩ := m
      by_cases hn : n = name
      · simp [hn]
      · have hne : (name == n) = false := by simpa using Ne.symm hn
        have hrest : name ∈ Dictionary.names d := by
          simpa [Dictionary.names, Ne.symm hn] using hmem
        simp [hn, List.lookup_cons, hne, ih hrest]
  · have hnone : List.lookup name d = none := by
      refine List.lookup_eq_none_iff.mpr fun m hm => ?_
      have hname : m.1 ∈ Dictionary.names d := List.mem_map_of_mem hm
      simpa using fun heq : name = m.1 => hmem (heq ▸ hname)
    simp [List.lookup_append, hnone]

theorem Dictionary.names_add (member : Member) (h : name ∉ d.names) :
    (d.add name member).names = d.names ++ [name] := by
  rw [Dictionary.add, if_neg h, Dictionary.names, List.map_append]
  rfl

theorem parseInputLabel_ok (h : lib.parseInputLabel d label = .ok p) :
    p.label = label ∧ p.keyID ≠ "" := by
  unfold Library.parseInputLabel at h
  split at h
  · cases h
  · cases h
  next items params _ =>
    obtain ⟨covered, -, h⟩ := Except.bind_eq_ok.mp h
    obtain ⟨q, hq, h⟩ := Except.bind_eq_ok.mp h
    split_ifs at h with hkey
    cases h
    unfold Library.applySignatureParams at hq
    simp only [Except.bind_eq_ok] at hq
    obtain ⟨_, -, _, -, _, -, _, -, _, -, _, -, hq⟩ := hq
    exact ⟨by rw [← Except.ok.inj hq], hkey⟩

theorem parseLabels_labels (h : lib.parseLabels di ds names = .ok (ps, sigs)) :
    ps.map Params.label = names := by
  induction names generalizing ps sigs with
  | nil =>
    obtain ⟨rfl, -⟩ := Prod.mk.inj (Except.ok.inj h)
    rfl
  | cons label names ih =>
    obtain ⟨p, hp, h⟩ := Except.bind_eq_ok.mp h
    obtain ⟨raw, -, h⟩ := Except.bind_eq_ok.mp h
    obtain ⟨⟨ps', sigs'⟩, hrest, h⟩ := Except.bind_eq_ok.mp h
    obtain ⟨rfl, -⟩ := Prod.mk.inj (Except.ok.inj h)
    simp [(parseInputLabel_ok hp).1, ih hrest]

theorem parseInputLabel_congr (h : d'.lookup label = d.lookup label) :
    lib.parseInputLabel d' label = lib.parseInputLabel d label := by
  unfold Library.parseInputLabel
  rw [h]

theorem parseSigLabel_congr (h : d'.lookup label = d.lookup label) :
    lib.parseSigLabel d' label = lib.parseSigLabel d label := by
  unfold Library.parseSigLabel
  rw [h]

theorem parseLabels_snoc {ps' : List Params} {sigs' : List (String × Bytes)} :
    lib.parseLabels di ds (names ++ [label]) = .ok (ps', sigs') ↔
      ∃ ps sigs p raw, lib.parseLabels di ds names = .ok (ps, sigs) ∧
        lib.parseInputLabel di label = .ok p ∧ lib.parseSigLabel ds label = .ok raw ∧
        ps' = ps ++ [p] ∧ sigs' = sigs ++ [(label, raw)] := by
  induction names generalizing ps' sigs' with
  | nil =>
    simp only [List.nil_append, Library.parseLabels, Except.bind_eq_ok]
    constructor
    · rintro ⟨p, hp, raw, hraw, rest, hrest, h⟩
      cases hrest
      cases h
      exact ⟨[], [], p, raw, rfl, hp, hraw, rfl, rfl⟩
    · rintro ⟨ps, sigs, p, raw, h, hp, hraw, rfl, rfl⟩
      cases h
      exact ⟨p, hp, raw, hraw, _, rfl, rfl⟩
  | cons l names ih =>
    simp only [List.cons_append, Library.parseLabels, Except.bind_eq_ok]
    constructor
    · rintro ⟨q, hq, old, hold, ⟨ps₁, sigs₁⟩, hrest, h⟩
      cases h
      obtain ⟨ps, sigs, p, raw, hall, hp, hraw, rfl, rfl⟩ := ih.mp hrest
      exact ⟨q :: ps, (l, old) :: sigs, p, raw, ⟨q, hq, old, hold, _, hall, rfl⟩, hp, hraw, rfl,
        rfl⟩
    · rintro ⟨ps, sigs, p, raw, ⟨q, hq, old, hold, ⟨ps₁, sigs₁⟩, hall, h⟩, hp, hraw, rfl, rfl⟩
      cases h
      exact ⟨q, hq, old, hold, _, ih.mpr ⟨_, _, p, raw, hall, hp, hraw, rfl, rfl⟩, rfl⟩

/-- A new member leaves the signatures under other labels as they were. -/
theorem parseLabels_add {input value : Member} (hnew : label ∉ names) :
    lib.parseLabels (di.add label input) (ds.add label value) names =
      lib.parseLabels di ds names := by
  induction names with
  | nil => rfl
  | cons l names ih =>
    rw [List.mem_cons, not_or] at hnew
    have hne := Ne.symm hnew.1
    rw [Library.parseLabels, Library.parseLabels,
      parseInputLabel_congr (di.lookup_add_ne input hne),
      parseSigLabel_congr (ds.lookup_add_ne value hne), ih hnew.2]

theorem labelNumber_sigLabel (h : n < 2 ^ 63) : labelNumber (sigLabel n) = some (n : Int) := by
  have hpre : hasPrefix (sigLabel n) "sig" = true := hasPrefix_iff.mpr ⟨toString n, rfl⟩
  have hrest : (sigLabel n).toList.drop 3 = Nat.toDigits 10 n := by
    simp [sigLabel, Nat.toString_eq_repr, Nat.repr]
  rw [labelNumber, if_pos hpre, hrest, atoi_toDigits h]

theorem maxLabelN_chain (h : n < 2 ^ 63) : maxLabelN ((List.range' 1 n).map sigLabel) = n := by
  induction n with
  | zero => rfl
  | succ n ih =>
    have hprev := ih (by omega)
    unfold maxLabelN at hprev ⊢
    have hnum : labelNumber (sigLabel (1 + n)) = some ((1 + n : Nat) : Int) :=
      labelNumber_sigLabel (by omega)
    rw [List.range'_1_concat, List.map_append, List.foldl_append, hprev]
    simp only [List.map_cons, List.map_nil, List.foldl_cons, List.foldl_nil, hnum]
    rw [if_pos (by omega), Nat.add_comm]

theorem coveredToFields_plain (hnames : ∀ name ∈ names, equalFold name "signature" = false)
    (h : coveredToFields covered = .ok fields) :
    coveredToFields (plainComponents names ++ covered) =
      .ok (names.map Field.header ++ fields) := by
  induction names with
  | nil => exact h
  | cons name names ih =>
    have hname := hnames name List.mem_cons_self
    have hrest := ih fun n hn => hnames n (List.mem_cons_of_mem name hn)
    simp only [plainComponents, List.map_cons, List.cons_append] at hrest ⊢
    rw [coveredToFields, if_neg (by simp [hname]), hrest]
    rfl

theorem coveredFromItems_plain {items : List Item} (h : lib.coveredFromItems items = .ok covered) :
    lib.coveredFromItems ((names.map Field.header).map Field.item ++ items) =
      .ok (plainComponents names ++ covered) := by
  induction names with
  | nil => exact h
  | cons name names ih =>
    simp only [List.map_cons, List.cons_append, Library.coveredFromItems] at ih ⊢
    rw [ih]
    rfl

def coveredNames (h : Header) : List String :=
  requiredCoveredComponents ++
    if h.get "X-Ramp-Entitlement-Biscuit" ≠ "" then [entitlementHeaderLower] else []

theorem coveredNames_not_signature (h : Header) :
    ∀ name ∈ coveredNames h, equalFold name "signature" = false := by
  have hall : ∀ name ∈ requiredCoveredComponents ++ [entitlementHeaderLower],
      equalFold name "signature" = false := by decide +kernel
  intro name hname
  refine hall name ?_
  rcases List.mem_append.mp hname with hrequired | hentitled
  · exact List.mem_append_left _ hrequired
  · split_ifs at hentitled
    · exact List.mem_append_right _ hentitled
    · cases hentitled

def linkTo (label : String) : CoveredComponent :=
  { name := "signature", params := [⟨"key", label⟩] }

def chainFields (h : Header) (prev : String) : List Field :=
  (coveredNames h).map Field.header ++ [.dictHeader "signature" prev]

theorem coveredToFields_chain (h : Header) {prev : String} (hprev : prev ≠ "") :
    coveredToFields (rampChainCoveredComponents h (some prev)) = .ok (chainFields h prev) := by
  refine coveredToFields_plain (coveredNames_not_signature h) ?_
  have hname : equalFold "signature" "signature" = true := by decide +kernel
  simp [coveredToFields, hname, componentParam, hprev]

theorem coveredFromItems_chain (h : Header) (prev : String) :
    lib.coveredFromItems ((chainFields h prev).map Field.item) =
      .ok (rampChainCoveredComponents h (some prev)) := by
  rw [chainFields, List.map_append]
  exact coveredFromItems_plain rfl

theorem chainLink_chain (h : Header) (prev : String) :
    chainLink (rampChainCoveredComponents h (some prev)) = (prev, 1) := by
  have hplain : ∀ names : List String, (∀ name ∈ names, equalFold name "signature" = false) →
      chainLink (plainComponents names) = ("", 0) := by
    intro names hnames
    induction names using List.reverseRecOn with
    | nil => rfl
    | append_singleton names name ih =>
      rw [plainComponents, List.map_append, List.map_singleton, chainLink_append,
        if_neg (by simp [hnames name (by simp)])]
      exact ih fun n hn => hnames n (by simp [hn])
  have hname : equalFold (linkTo prev).name "signature" = true := by
    change equalFold "signature" "signature" = true
    decide +kernel
  have hbase := hplain _ (coveredNames_not_signature h)
  change chainLink (plainComponents (coveredNames h) ++ [linkTo prev]) = _
  rw [chainLink_append, hbase, if_pos hname]
  simp [linkTo, componentParam]

theorem parseInputLabel_signed {cfg : SignConfig} (hs : SignedAs cfg fields member)
    (hd : d.lookup label = some member)
    (hcovered : lib.coveredFromItems (fields.map Field.item) = .ok covered)
    (hkey : cfg.keyID ≠ "") :
    ∃ p, lib.parseInputLabel d label = .ok p ∧ p.label = label ∧ p.covered = covered ∧
      p.keyID = cfg.keyID ∧ p.expires = cfg.expires.getD 0 := by
  obtain ⟨params, rfl, hkeyid, halg, ⟨created, hcreated⟩, hexpires, htag, hnonce⟩ := hs.member
  have htext : ∀ {name : String} {value : Option String},
      params.lookup name = value.map BareItem.string →
      Library.stringParam params name = .ok (value.getD "") := by
    intro name value h
    rw [Library.stringParam, h]
    cases value <;> rfl
  have hnumber : Library.intParam params "expires" = .ok (cfg.expires.getD 0) := by
    rw [Library.intParam, hexpires]
    cases cfg.expires <;> rfl
  refine ⟨⟨label, covered, cfg.keyID, "ed25519", created, cfg.expires.getD 0, cfg.tag.getD "",
    cfg.nonce.getD ""⟩, ?_, rfl, rfl, rfl, rfl⟩
  have hk : Library.stringParam params "keyid" = .ok cfg.keyID := by
    rw [Library.stringParam, hkeyid]
  have ha : Library.stringParam params "alg" = .ok "ed25519" := by
    rw [Library.stringParam, halg]
  have hc : Library.intParam params "created" = .ok created := by
    rw [Library.intParam, hcreated]
  rw [Library.parseInputLabel, hd]
  dsimp only
  rw [hcovered]
  change (Library.applySignatureParams { label, covered } params >>= fun p =>
    if p.keyID = "" then .error (malformed "keyid required") else pure p) = _
  have happly : Library.applySignatureParams { label, covered } params =
      .ok ⟨label, covered, cfg.keyID, "ed25519", created, cfg.expires.getD 0, cfg.tag.getD "",
        cfg.nonce.getD ""⟩ := by
    rw [Library.applySignatureParams, hk, ha, htext htag, htext hnonce, hc, hnumber]
    rfl
  rw [happly]
  exact if_neg hkey

theorem bindHeader_ne (h : Header) (hne : other ≠ name) : bindHeader name h other = h other := by
  unfold bindHeader
  split_ifs
  · exact Function.update_of_ne hne _ _
  · rfl

def bound (lib : Library) (body : Bytes) (h : Header) : Header :=
  bindSignatureAgent (bindAuthorization
    (if h.get "Content-Digest" = "" then lib.setContentDigest body h else h))

theorem bound_of_ne (body : Bytes) (h : Header)
    (hname : name ∉ ["Content-Digest", "Authorization", "Signature-Agent"]) :
    bound lib body h name = h name := by
  simp only [List.mem_cons, List.not_mem_nil, or_false, not_or] at hname
  rw [bound, bindSignatureAgent, bindHeader_ne _ hname.2.2, bindAuthorization,
    bindHeader_ne _ hname.2.1]
  split_ifs
  · exact Function.update_of_ne hname.1 _ _
  · rfl

/-- The header with one line for each of the fields of the signatures, which is its first. -/
def firstLines (h : Header) : Header :=
  (h.set "Signature-Input" (h.get "Signature-Input")).set "Signature" (h.get "Signature")

theorem parseAllSignatures_ok (hparsed : lib.parseAllSignatures h = .ok (ps, sigs)) :
    ∃ di ds, lib.unmarshalDictionary (h "Signature-Input") = .ok di ∧
      lib.unmarshalDictionary (h "Signature") = .ok ds ∧ di.names ≠ [] ∧
      lib.parseLabels di ds di.names = .ok (ps, sigs) := by
  unfold Library.parseAllSignatures at hparsed
  split_ifs at hparsed with hinput hsignature
  split at hparsed
  · cases hparsed
  next di hdi =>
    split at hparsed
    · cases hparsed
    next ds hds =>
      split_ifs at hparsed with hnames
      exact ⟨di, ds, hdi, hds, hnames, hparsed⟩

theorem parseAllSignatures_eq {input value : String} (hi : h "Signature-Input" = [input])
    (hs : h "Signature" = [value]) (hdi : lib.unmarshalDictionary [input] = .ok di)
    (hds : lib.unmarshalDictionary [value] = .ok ds) (hnames : di.names ≠ []) :
    lib.parseAllSignatures h = lib.parseLabels di ds di.names := by
  simp [Library.parseAllSignatures, hi, hs, hdi, hds, hnames]

theorem parseLabels_ne_nil (hnames : names ≠ [])
    (h : lib.parseLabels di ds names = .ok (ps, sigs)) : ds ≠ [] := by
  obtain ⟨label, names, rfl⟩ := List.exists_cons_of_ne_nil hnames
  obtain ⟨p, -, h⟩ := Except.bind_eq_ok.mp h
  obtain ⟨raw, hraw, -⟩ := Except.bind_eq_ok.mp h
  rintro rfl
  cases hraw

def chainConfig (keyID : String) (expires : Int) : SignConfig :=
  { keyID, expires := if expires ≠ 0 then some expires else none, tag := none, nonce := none }

def withSignature (req : Request) (h : Header) (input value : String) : Request :=
  { req with
    header := (h.set "Signature-Input" (extend (h.get "Signature-Input") input)).set "Signature"
      (extend (h.get "Signature") value) }

/-- The signature that follows `n` others. -/
def Library.signLink (lib : Library) (req : Request) (body : Bytes) (keyID : String) (priv : Bytes)
    (expires : Int) (n : Nat) : Except String (String × String) :=
  lib.signRequest priv (chainConfig keyID expires)
    (chainFields (bound lib body req.header) (sigLabel n)) (sigLabel (n + 1))
    { req with header := bound lib body req.header }

theorem appendSignatureRAMP_eq {body : Bytes} {expires : Int}
    (hmax : lib.maxSignatureLabelN (bound lib body req.header) = .ok (n : Int)) (hn : 0 < n)
    (hpriv : priv.length = privateKeySize) :
    lib.appendSignatureRAMP req body keyID priv expires =
      match lib.signLink req body keyID priv expires n with
      | .error e => .error ⟨.library, e⟩
      | .ok (input, value) => .ok (withSignature req (bound lib body req.header) input value) := by
  have hprev : sigLabel n ≠ "" := append_ne_empty (toString_nat_ne_empty n)
  have hlabel : (if (n : Int) > 0 then some ("sig" ++ toString (n : Int)) else none) =
      some (sigLabel n) := if_pos (by omega)
  have hunfold : lib.appendSignatureRAMP req body keyID priv expires =
      lib.signWithParams { req with header := bound lib body req.header }
        { label := sigLabel (n + 1)
          covered := rampChainCoveredComponents (bound lib body req.header) (some (sigLabel n))
          keyID, alg := "ed25519", expires } priv .append := by
    unfold Library.appendSignatureRAMP
    change lib.maxSignatureLabelN (bindSignatureAgent _) = _ at hmax
    simp only [hmax, hlabel]
    rfl
  rw [hunfold, Library.signWithParams, if_neg (not_not.mpr hpriv)]
  simp only [coveredToFields_chain _ hprev, ne_eq, not_true_eq_false, if_false]
  rfl

theorem append_priv {body : Bytes} {expires : Int} {req' : Request}
    (h : lib.appendSignatureRAMP req body keyID priv expires = .ok req') :
    priv.length = privateKeySize := by
  by_contra hpriv
  unfold Library.appendSignatureRAMP Library.signWithParams at h
  dsimp only at h
  split at h
  · cases h
  · rw [if_pos hpriv] at h
    cases h

theorem withSignature_lines {body : Bytes} {input value : String} :
    (withSignature req (bound lib body req.header) input value).header "Signature-Input" =
      [extend (req.header.get "Signature-Input") input] ∧
    (withSignature req (bound lib body req.header) input value).header "Signature" =
      [extend (req.header.get "Signature") value] := by
  have hget : ∀ name ∈ ["Signature-Input", "Signature"],
      (bound lib body req.header).get name = req.header.get name := by
    intro name hname
    rw [Header.get, Header.get, bound_of_ne]
    revert name
    decide
  simp [withSignature, Header.set, Function.update_of_ne, hget]

/-- The labels of an accepted header are those of its chain, and there is a new one. -/
structure Numbered (n : Nat) (names : List String) : Prop where
  names_eq : names = (List.range' 1 n).map sigLabel
  pos : 0 < n
  lt : n < 2 ^ 62

theorem Numbered.new (h : Numbered n names) : sigLabel (n + 1) ∉ names := by
  rw [h.names_eq]
  intro hmem
  obtain ⟨k, hk, heq⟩ := List.mem_map.mp hmem
  have hnum := sigLabel_inj heq
  have hrange := List.mem_range'_1.mp hk
  omega

section

variable (laws : Documented lib) (hacc : Accepted lib req.header ps sigs)
include laws hacc

theorem Accepted.numbered {h : Header} (hparsed : lib.parseAllSignatures h = .ok (ps, sigs)) :
    ∃ di ds, lib.unmarshalDictionary (h "Signature-Input") = .ok di ∧
      lib.unmarshalDictionary (h "Signature") = .ok ds ∧ Numbered ps.length di.names ∧
      lib.parseLabels di ds di.names = .ok (ps, sigs) := by
  obtain ⟨di, ds, hdi, hds, hnames, hlabels⟩ := parseAllSignatures_ok hparsed
  have hchain : Chain 0 ps := (enforceFrom_ok lib).mp hacc.chained
  have hnamed : di.names = (List.range' 1 ps.length).map sigLabel :=
    (parseLabels_labels hlabels).symm.trans hchain.labels
  refine ⟨di, ds, hdi, hds, ⟨hnamed, ?_, ?_⟩, hlabels⟩
  · refine Nat.pos_of_ne_zero fun hzero => hnames ?_
    rw [hnamed, hzero]
    rfl
  · have hfits := laws.fits _ di hdi
    have hsame := congrArg List.length hnamed
    simp [Dictionary.names] at hsame
    omega

theorem Accepted.append_eq (hpriv : priv.length = privateKeySize) (body : Bytes) (expires : Int) :
    lib.appendSignatureRAMP req body keyID priv expires =
      match lib.signLink req body keyID priv expires ps.length with
      | .error e => .error ⟨.library, e⟩
      | .ok (input, value) => .ok (withSignature req (bound lib body req.header) input value) := by
  obtain ⟨di, ds, hdi, -, hnum, -⟩ := hacc.numbered laws hacc.parsed
  have hlt := hnum.lt
  refine appendSignatureRAMP_eq ?_ hnum.pos hpriv
  have hlines : req.header "Signature-Input" ≠ [] := by
    intro hnone
    have hparsed := hacc.parsed
    rw [Library.parseAllSignatures, if_pos hnone] at hparsed
    cases hparsed
  rw [Library.maxSignatureLabelN, bound_of_ne body req.header (by decide), if_neg hlines, hdi]
  simp only [hnum.names_eq, maxLabelN_chain (show ps.length < 2 ^ 63 by omega)]

theorem Accepted.extended {body : Bytes} {expires : Int} {texts : String × String}
    (hfirst : lib.parseAllSignatures (firstLines req.header) = .ok (ps, sigs)) (hkey : keyID ≠ "")
    (hsign : lib.signLink req body keyID priv expires ps.length = .ok texts) :
    ∃ p raw, Accepted lib (withSignature req (bound lib body req.header) texts.1 texts.2).header
        (ps ++ [p]) (sigs ++ [(p.label, raw)]) ∧
      p.label = sigLabel (ps.length + 1) ∧ linkTo (sigLabel ps.length) ∈ p.covered ∧
      p.keyID = keyID := by
  obtain ⟨di, ds, hdi, hds, hnum, hlabels⟩ := hacc.numbered laws hfirst
  have hpos := hnum.pos
  have hnames : di.names ≠ [] := by
    rw [hnum.names_eq]
    simp [hpos.ne']
  obtain ⟨member, raw, params, hsigned, haddi, hadds⟩ := laws.appends _ _ _ _ _ _ _ hsign
  obtain ⟨p, hp, hplabel, hpcovered, hpkey, -⟩ := parseInputLabel_signed hsigned
    (di.lookup_add (sigLabel (ps.length + 1)) member) (coveredFromItems_chain _ _) hkey
  have hraw : lib.parseSigLabel (ds.add (sigLabel (ps.length + 1)) (.item ⟨.bytes raw, params⟩))
      (sigLabel (ps.length + 1)) = .ok raw := by
    rw [Library.parseSigLabel, ds.lookup_add]
  obtain ⟨hlineI, hlineS⟩ := @withSignature_lines lib req body texts.1 texts.2
  have hchain : Chain 0 ps := (enforceFrom_ok lib).mp hacc.chained
  refine ⟨p, raw, ⟨?_, ?_⟩, hplabel, ?_, hpkey⟩
  · rw [parseAllSignatures_eq hlineI hlineS
      (haddi.extends_ok _ _ hdi fun h => hnames (by rw [h]; rfl))
      (hadds.extends_ok _ _ hds (parseLabels_ne_nil hnames hlabels))
      (by simp [Dictionary.names_add member hnum.new]), Dictionary.names_add member hnum.new,
        hplabel]
    exact parseLabels_snoc.mpr ⟨ps, sigs, p, raw,
      (parseLabels_add hnum.new).trans hlabels, hp, hraw, rfl, rfl⟩
  · refine (enforceFrom_ok lib).mpr (Chain.append.mpr ⟨hchain, ⟨?_, ?_⟩, trivial⟩)
    · rw [hplabel, Nat.zero_add]
    · rw [hpcovered, chainLink_chain, Nat.zero_add, if_neg hpos.ne']
  · rw [hpcovered]
    exact List.mem_append_right _ List.mem_cons_self

theorem Accepted.first_lines {body : Bytes} {expires : Int} {texts : String × String} {raw : Bytes}
    (hsign : lib.signLink req body keyID priv expires ps.length = .ok texts)
    (hparsed : lib.parseAllSignatures
      (withSignature req (bound lib body req.header) texts.1 texts.2).header =
        .ok (ps ++ [p], sigs ++ [(p.label, raw)])) :
    p.keyID ≠ "" ∧ lib.parseAllSignatures (firstLines req.header) = .ok (ps, sigs) := by
  obtain ⟨dall, -, hdall, -, hnum, -⟩ := hacc.numbered laws hacc.parsed
  obtain ⟨di', ds', hdi', hds', -, hlabels'⟩ := parseAllSignatures_ok hparsed
  obtain ⟨member, raw', params, -, haddi, hadds⟩ := laws.appends _ _ _ _ _ _ _ hsign
  obtain ⟨hlineI, hlineS⟩ := @withSignature_lines lib req body texts.1 texts.2
  rw [hlineI] at hdi'
  rw [hlineS] at hds'
  obtain ⟨di, hdi, rfl⟩ := haddi.of_extended _ _ hdi'
  obtain ⟨ds, hds, rfl⟩ := hadds.of_extended _ _ hds'
  have hnew : sigLabel (ps.length + 1) ∉ di.names := by
    cases hlines : req.header "Signature-Input" with
    | nil =>
      have hparsed := hacc.parsed
      rw [Library.parseAllSignatures, if_pos hlines] at hparsed
      cases hparsed
    | cons line lines =>
      rw [Header.get, hlines] at hdi
      rw [hlines] at hdall
      exact fun hmem => hnum.new (laws.lines line lines di dall hdi hdall hmem)
  rw [Dictionary.names_add member hnew] at hlabels'
  obtain ⟨ps', sigs', p', raw'', hlabels, hp, -, hps, hsigs⟩ := parseLabels_snoc.mp hlabels'
  obtain ⟨rfl, hlast⟩ := List.append_inj' hps rfl
  obtain ⟨rfl, -⟩ := List.append_inj' hsigs rfl
  cases hlast
  rw [parseLabels_add hnew] at hlabels
  refine ⟨(parseInputLabel_ok hp).2, ?_⟩
  rw [parseAllSignatures_eq (by simp [firstLines, Header.set, Function.update_of_ne])
    (by simp [firstLines, Header.set]) hdi hds ?_]
  · exact hlabels
  · have hpos := hnum.pos
    rw [← parseLabels_labels hlabels]
    simpa using List.ne_nil_of_length_pos hpos

end

theorem verifyMultisigRequest_rejects (hparsed : lib.parseAllSignatures req.header = .ok (ps, sigs))
    (h : Rejected lib ps) (options : VerifyOptions) :
    ∃ e, lib.verifyMultisigRequest options req = .error e := by
  obtain ⟨e, he⟩ := h
  rw [Library.verifyMultisigRequest, hparsed]
  change ∃ e, (if options.maxSignatures > 0 ∧ ps.length > options.maxSignatures then _ else
    lib.enforceSignatureChain ps >>= fun _ => _) = Except.error e
  rw [he]
  split_ifs
  · exact ⟨_, rfl⟩
  · exact ⟨e, rfl⟩

end

def plainKey : ItemParams :=
  [("keyid", .string "k"), ("alg", .string "ed25519"), ("created", .integer 1),
    ("expires", .integer 9)]

def hopFields : String → Option (List Field)
  | "sig1" => some (requiredCoveredComponents.map Field.header)
  | "sig2" => some (requiredCoveredComponents.map Field.header ++ [.dictHeader "signature" "sig1"])
  | "sig3" => some (requiredCoveredComponents.map Field.header ++ [.dictHeader "signature" "sig2"])
  | _ => none

def readMember (text : List Char) : Option (String × Member) :=
  let label := String.ofList (text.take 4)
  match hopFields label, text.drop 4 with
  | some fields, ['=', 'i'] => some (label, .innerList (fields.map Field.item) plainKey)
  | some _, ['=', 's'] => some (label, .item ⟨.bytes [1], []⟩)
  | _, _ => none

def readMembers : List (List Char) → Dictionary → Except String Dictionary
  | [], d => .ok d
  | text :: texts, d =>
    match readMember (text.dropWhile (· = ' ')) with
    | some (label, member) => readMembers texts (d.add label member)
    | none => .error "unexpected member"

def plainLibrary : Library where
  unmarshalDictionary values :=
    let text := (",".intercalate values).toList
    if text = [] then .ok [] else readMembers (text.splitOn ',') []
  signRequest _ cfg fields label _ :=
    if hopFields label = some fields ∧ cfg = ⟨"k", some 9, none, none⟩ then
      .ok (label ++ "=i", label ++ "=s")
    else .error "not supported"
  contentDigest _ := "digest"
  quote text := "\"" ++ text ++ "\""

theorem readMembers_append (texts more : List (List Char)) (d : Dictionary) :
    readMembers (texts ++ more) d = readMembers texts d >>= readMembers more := by
  induction texts generalizing d with
  | nil => rfl
  | cons text texts ih =>
    rw [List.cons_append, readMembers, readMembers]
    cases readMember (text.dropWhile (· = ' ')) with
    | none => rfl
    | some m => exact ih _

def hopNames : List String := ["sig1", "sig2", "sig3"]

theorem hopFields_names {label : String} {fields : List Field} (h : hopFields label = some fields) :
    label ∈ hopNames := by
  unfold hopFields at h
  split at h
  · decide
  · decide
  · decide
  · cases h

structure Within (d : Dictionary) : Prop where
  nodup : d.names.Nodup
  named : d.names ⊆ hopNames

theorem Dictionary.names_add_of_mem {d : Dictionary} {name : String} (h : name ∈ d.names)
    (member : Member) : (d.add name member).names = d.names := by
  rw [Dictionary.add, if_pos h, Dictionary.names, List.map_map]
  refine List.map_congr_left fun m _ => ?_
  rw [Function.comp_apply]
  split_ifs with hm
  · exact hm.symm
  · rfl

theorem Within.add {d : Dictionary} (h : Within d) {name : String} (hname : name ∈ hopNames)
    (member : Member) : Within (d.add name member) := by
  by_cases hmem : name ∈ d.names
  · have hsame := Dictionary.names_add_of_mem hmem member
    exact ⟨hsame ▸ h.nodup, hsame ▸ h.named⟩
  · have hnames := Dictionary.names_add member hmem
    refine ⟨?_, ?_⟩
    · rw [hnames, List.nodup_append]
      refine ⟨h.nodup, by simp, fun a ha b hb => ?_⟩
      obtain rfl := List.mem_singleton.mp hb
      exact fun hab => hmem (hab ▸ ha)
    · rw [hnames]
      exact List.append_subset.mpr ⟨h.named, by simpa using hname⟩

theorem readMember_named {text : List Char} {m : String × Member} (h : readMember text = some m) :
    m.1 ∈ hopNames := by
  unfold readMember at h
  dsimp only at h
  split at h
  next fields hfields _ =>
    cases h
    exact hopFields_names hfields
  next fields hfields _ =>
    cases h
    exact hopFields_names hfields
  · cases h

theorem readMembers_within {texts : List (List Char)} {d d' : Dictionary} (hd : Within d)
    (h : readMembers texts d = .ok d') : Within d' := by
  induction texts generalizing d with
  | nil => exact Except.ok.inj h ▸ hd
  | cons text texts ih =>
    rw [readMembers] at h
    split at h
    next label member hread => exact ih (hd.add (readMember_named hread) member) h
    · cases h

theorem readMembers_names {texts : List (List Char)} {d d' : Dictionary}
    (h : readMembers texts d = .ok d') : d.names ⊆ d'.names := by
  induction texts generalizing d with
  | nil =>
    cases h
    exact List.Subset.refl _
  | cons text texts ih =>
    rw [readMembers] at h
    split at h
    next label member hread =>
      refine List.Subset.trans ?_ (ih h)
      by_cases hmem : label ∈ d.names
      · rw [Dictionary.names_add_of_mem hmem]
        exact List.Subset.refl _
      · rw [Dictionary.names_add member hmem]
        exact List.subset_append_left _ _
    · cases h

theorem plainLibrary_comma {more : List Char} (htext : text ≠ "") :
    readMembers ((text.toList ++ ',' :: more).splitOn ',') [] =
      plainLibrary.unmarshalDictionary [text] >>= readMembers (more.splitOn ',') := by
  rw [List.splitOn, List.splitOnP_append_cons _ _ (by simp), readMembers_append]
  simp [plainLibrary, htext, List.splitOn]

theorem plainLibrary_adds {value label : String} (hcomma : ',' ∉ value.toList)
    (hread : readMember (value.toList.dropWhile (· = ' ')) = some (label, member)) :
    Adds plainLibrary value label member := by
  have hone : ∀ blank : List Char, ',' ∉ blank → (blank ++ value.toList).splitOn ',' =
      [blank ++ value.toList] := fun blank hblank => List.splitOnP_eq_singleton fun c hc => by
    rcases List.mem_append.mp hc with h | h
    · simpa using fun heq : c = ',' => hblank (heq ▸ h)
    · simpa using fun heq : c = ',' => hcomma (heq ▸ h)
  have hextend : ∀ text, plainLibrary.unmarshalDictionary [extend text value] =
      (plainLibrary.unmarshalDictionary [text]).map (·.add label member) := by
    intro text
    by_cases htext : text = ""
    · have hne : value ≠ "" := by
        rintro rfl
        cases hread
      have hsplit : value.toList.splitOn ',' = [value.toList] := hone [] (by simp)
      simp [htext, extend, plainLibrary, hne, hsplit, readMembers, hread, Except.map]
    · have hlist : (extend text value).toList = text.toList ++ ',' :: ' ' :: value.toList := by
        simp [extend, htext]
      have hread' : readMembers ((' ' :: value.toList).splitOn ',') = fun d =>
          .ok (d.add label member) := by
        funext d
        rw [show ' ' :: value.toList = [' '] ++ value.toList from rfl, hone [' '] (by decide)]
        simp [readMembers, hread]
      rw [show plainLibrary.unmarshalDictionary [extend text value] =
        readMembers ((extend text value).toList.splitOn ',') [] by simp [plainLibrary, hlist]]
      rw [hlist, plainLibrary_comma htext, hread']
      cases plainLibrary.unmarshalDictionary [text] <;> rfl
  refine ⟨fun text d h _ => by rw [hextend, h]; rfl, fun text d' h => ?_⟩
  rw [hextend] at h
  cases hd : plainLibrary.unmarshalDictionary [text] with
  | error e =>
    rw [hd] at h
    cases h
  | ok d =>
    rw [hd] at h
    exact ⟨d, rfl, (Except.ok.inj h).symm⟩

theorem hop_texts : ∀ label ∈ hopNames, ∀ suffix ∈ ["=i", "=s"],
    ',' ∉ (label ++ suffix).toList := by
  decide +kernel

theorem hop_members : ∀ label ∈ hopNames,
    readMember ((label ++ "=i").toList.dropWhile (· = ' ')) =
      (hopFields label).map (fun fields => (label, .innerList (fields.map Field.item) plainKey)) ∧
    readMember ((label ++ "=s").toList.dropWhile (· = ' ')) =
      some (label, .item ⟨.bytes [1], []⟩) := by
  decide +kernel

theorem plainLibrary_documented : Documented plainLibrary where
  appends priv cfg fields label req input value h := by
    simp only [plainLibrary] at h
    split_ifs at h with hhop
    obtain ⟨hfields, rfl⟩ := hhop
    cases h
    have hname := hopFields_names hfields
    obtain ⟨hinput, hvalue⟩ := hop_members label hname
    rw [hfields, Option.map_some] at hinput
    refine ⟨.innerList (fields.map Field.item) plainKey, [1], [], ⟨plainKey, rfl, rfl, rfl,
      ⟨1, rfl⟩, rfl, rfl, rfl⟩, ?_, ?_⟩
    · exact plainLibrary_adds (hop_texts label hname _ (by simp)) hinput
    · exact plainLibrary_adds (hop_texts label hname _ (by simp)) hvalue
  lines line lines d d' h h' := by
    by_cases hline : line = ""
    · rw [hline] at h
      cases h
      exact List.nil_subset _
    cases lines with
    | nil =>
      cases h.symm.trans h'
      exact List.Subset.refl _
    | cons next lines =>
      have hread : plainLibrary.unmarshalDictionary (line :: next :: lines) =
          readMembers ((line.toList ++ ',' :: (",".intercalate (next :: lines)).toList).splitOn ',')
            [] := by
        simp [plainLibrary]
      rw [hread, plainLibrary_comma hline, h] at h'
      exact readMembers_names h'
  fits values d h := by
    have hnil : Within [] := ⟨List.nodup_nil, List.nil_subset _⟩
    have hwithin : Within d := by
      simp only [plainLibrary] at h
      split_ifs at h
      · exact Except.ok.inj h ▸ hnil
      · exact readMembers_within hnil h
    have hlen := (List.subperm_of_subset hwithin.nodup hwithin.named).length_le
    simp only [Dictionary.names, List.length_map] at hlen
    exact Nat.lt_of_le_of_lt hlen (by decide)

def twoHops (input value : List String) : Request where
  method := "POST"
  targetURI := "https://exchange.example/"
  header name := if name = "Signature-Input" then input else if name = "Signature" then value
    else []

def hop (label : String) (fields : List CoveredComponent) : Params :=
  ⟨label, fields, "k", "ed25519", 1, 9, "", ""⟩

def plainHops : List Params :=
  [hop "sig1" (plainComponents requiredCoveredComponents),
    hop "sig2" (plainComponents requiredCoveredComponents ++ [linkTo "sig1"])]

def plainPriv : Bytes := List.replicate 64 7

end Ramp.HTTPSig
