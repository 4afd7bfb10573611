import Ramp.Data.Text
import Ramp.Edge.Gate

/-! The query that reaches the origin. Taking a parameter away writes the query anew from its
parsed pairs, so that a pair keeps its bytes only if they are the ones the serializer writes. -/

namespace Ramp.Edge

/-- The form of queries: `application/x-www-form-urlencoded` over the text codec of the
platform. -/
structure Form where
  utf8Encode : String → List UInt8
  utf8Decode : List UInt8 → String

def percentDecode : List UInt8 → List UInt8
  | c :: a :: b :: rest =>
    match if c = 0x25 then hexValue (Char.ofNat a.toNat) else none,
        hexValue (Char.ofNat b.toNat) with
    | some hi, some lo => UInt8.ofNat (16 * hi + lo) :: percentDecode rest
    | _, _ => c :: percentDecode (a :: b :: rest)
  | bytes => bytes

def encodeByte (b : UInt8) : List Char :=
  let c := Char.ofNat b.toNat
  if b = 0x20 then ['+']
  else if c.isAlphanum ∨ c ∈ ['*', '-', '.', '_'] then [c]
  else ['%', (hexDigit (b.toNat / 16)).toUpper, (hexDigit (b.toNat % 16)).toUpper]

namespace Form

variable (f : Form)

def decode (text : List Char) : String :=
  f.utf8Decode (percentDecode ((f.utf8Encode (String.ofList text)).map fun b =>
    if b = 0x2b then 0x20 else b))

def pair (segment : List Char) : String × String :=
  match cutAt '=' segment with
  | some (name, value) => (f.decode name, f.decode value)
  | none => (f.decode segment, f.decode [])

def segments (query : String) : List (List Char) := query.toList.splitOn '&'

def parse (query : String) : List (String × String) :=
  ((segments query).filter (· ≠ [])).map f.pair

def encode (text : String) : List Char := (f.utf8Encode text).flatMap encodeByte

def encodePair (p : String × String) : List Char := f.encode p.1 ++ '=' :: f.encode p.2

def join (segments : List (List Char)) : String := String.ofList (['&'].intercalate segments)

def serialize (params : List (String × String)) : String := join (params.map f.encodePair)

/-- The query that the Lambda entry hands back to CloudFront. -/
def passThrough (querystring : String) : String :=
  f.serialize (signatureParams.foldl (fun params name => params.filter fun p => p.1 ≠ name)
    (f.parse querystring))

def kept (query : String) : List (List Char) :=
  (segments query).filter fun s => (f.pair s).1 ∉ signatureParams

/-- The query without the pairs of the signature, byte for byte. -/
def withoutSignature (query : String) : String := join (f.kept query)

/-- The pairs of other names stand as the serializer writes them, or there is one, and it is
empty. -/
def Plain (query : String) : Prop :=
  f.kept query = [[]] ∨ ∀ s ∈ f.kept query, f.encodePair (f.pair s) = s

/-- The platform parses and writes queries as URLs do. -/
structure Standard (web : Web) : Prop where
  encodeParams : web.encodeParams = f.serialize
  searchParams : ∀ text u, web.newURL text = some u → u.searchParams = f.parse (u.query.getD "")

variable {f}

theorem encodeByte_ne (b : UInt8) : '&' ∉ encodeByte b := by
  have hdigit : ∀ n < 16, '&' ≠ (hexDigit n).toUpper := by decide
  have hlt := b.toNat_lt
  unfold encodeByte
  dsimp only
  split_ifs with hspace hplain
  · decide
  · rw [List.mem_singleton]
    intro hc
    rw [← hc] at hplain
    exact absurd hplain (by decide)
  · simp only [List.mem_cons, List.not_mem_nil, or_false, not_or]
    exact ⟨by decide, hdigit _ (by omega), hdigit _ (by omega)⟩

theorem encodePair_ne (p : String × String) : '&' ∉ f.encodePair p := by
  have hencode : ∀ text, '&' ∉ f.encode text := by
    intro text hmem
    obtain ⟨b, -, hb⟩ := List.mem_flatMap.mp hmem
    exact encodeByte_ne b hb
  simp [encodePair, hencode]

theorem join_inj {as bs : List (List Char)} (ha : ∀ s ∈ as, '&' ∉ s) (hb : ∀ s ∈ bs, '&' ∉ s)
    (hnil : [] ∉ as) (h : join as = join bs) : as = bs ∨ as = [] ∧ bs = [[]] := by
  replace h : ['&'].intercalate as = ['&'].intercalate bs := String.ofList_injective h
  by_cases hbs : bs = []
  · subst hbs
    refine .inl (by_contra fun hne => hnil ?_)
    rw [← List.splitOn_intercalate '&' ha hne, h]
    exact List.mem_singleton_self []
  have hsplit := List.splitOn_intercalate '&' hb hbs
  rw [← h] at hsplit
  by_cases has : as = []
  · subst has
    exact .inr ⟨rfl, hsplit.symm⟩
  · exact .inl ((List.splitOn_intercalate '&' ha has).symm.trans hsplit)

/-- The pairs are written as they stood if and only if they stood as the serializer writes them. -/
theorem serialize_kept_iff {query : String} :
    f.serialize ((f.parse query).filter fun p => p.1 ∉ signatureParams) =
      f.withoutSignature query ↔ f.Plain query := by
  have hwritten : f.serialize ((f.parse query).filter fun p => p.1 ∉ signatureParams) =
      join (((f.kept query).filter (· ≠ [])).map fun s => f.encodePair (f.pair s)) := by
    unfold serialize parse kept
    rw [List.filter_map, List.map_map, List.filter_filter, List.filter_filter]
    simp only [Function.comp_def, Bool.and_comm]
  have hne : ∀ s : List Char, f.encodePair (f.pair s) ≠ [] := by simp [encodePair]
  rw [hwritten, withoutSignature, Plain]
  constructor
  · intro h
    refine (join_inj ?_ ?_ ?_ h).symm.imp And.right fun hsame => ?_
    · exact List.forall_mem_map.mpr fun s _ => encodePair_ne _
    · exact fun s hs => not_mem_of_mem_splitOn (List.mem_filter.mp hs).1
    · simp [hne]
    · have hall : (f.kept query).filter (· ≠ []) = f.kept query := by
        refine List.length_filter_eq_length_iff.mp ?_ |> List.filter_eq_self.mpr
        simpa using congrArg List.length hsame
      rw [hall] at hsame
      exact List.map_inj_left.mp (hsame.trans (List.map_id _).symm)
  · rintro (hempty | hplain)
    · simp [hempty, join]
    · have hall : (f.kept query).filter (· ≠ []) = f.kept query := by
        refine List.filter_eq_self.mpr fun s hs => decide_eq_true ?_
        rw [← hplain s hs]
        exact hne s
      rw [hall, List.map_congr_left hplain, List.map_id']

end Form

/-- Every entry point forwards the query without the signature and otherwise byte for byte if and
only if the other pairs stand as the serializer writes them. -/
theorem forwarded_query_untouched {w : Worker} {f : Form} (hweb : f.Standard w.web) :
    (∀ rawUrl incoming target outcome, w.web.newURL rawUrl = some incoming →
      w.resolveOrigin rawUrl = pure (some target, outcome) →
      (target.query.getD "" = f.withoutSignature (incoming.query.getD "") ↔
        f.Plain (incoming.query.getD ""))) ∧
    ∀ querystring, f.passThrough querystring = f.withoutSignature querystring ↔
      f.Plain querystring := by
  have hstrip : ∀ u : Url, (w.stripSignatureParams u).query.getD "" =
      f.serialize (u.searchParams.filter fun p => p.1 ∉ signatureParams) := by
    intro u
    rw [w.stripSignatureParams_eq, hweb.encodeParams]
    dsimp only
    split_ifs with hempty
    · exact hempty.symm
    · rfl
  refine ⟨fun rawUrl incoming target outcome hurl htarget => ?_, fun query => ?_⟩
  · rw [← Form.serialize_kept_iff, ← hweb.searchParams rawUrl incoming hurl]
    have hpure : ∀ {x y : Option Url × Outcome}, (pure x : Svc _) = pure y → x = y := by
      intro x y hxy
      cases hxy
      rfl
    simp only [Worker.resolveOrigin, Worker.newURL, hurl] at htarget
    split at htarget
    next originUrl _ =>
      cases horigin : w.web.newURL originUrl with
      | none => rw [horigin] at htarget; cases htarget
      | some origin =>
        rw [horigin] at htarget
        cases hpure htarget
        rw [hstrip]
        exact Iff.rfl
    · split_ifs at htarget
      · cases hpure htarget
        rw [hstrip]
      · cases hpure htarget
  · unfold Form.passThrough
    rw [foldl_filter_ne]
    exact Form.serialize_kept_iff

/-- Texts in the range of ASCII. -/
def asciiForm : Form where
  utf8Encode text := text.toList.map fun c => UInt8.ofNat c.toNat
  utf8Decode bytes := String.ofList (bytes.map fun b => Char.ofNat b.toNat)

def formWorker : Worker where
  deps := plainWorker.deps
  web :=
    { plainWeb with
      newURL text := (cutAt '?' text.toList).map fun parts =>
        { pageUrl (asciiForm.parse (String.ofList parts.2)) with
          query := some (String.ofList parts.2) }
      encodeParams := asciiForm.serialize }

theorem formWorker_standard : asciiForm.Standard formWorker.web := by
  refine ⟨rfl, fun text u hu => ?_⟩
  obtain ⟨parts, -, rfl⟩ := Option.map_eq_some_iff.mp hu
  rfl

theorem forwarded_query_untouched_page :
    asciiForm.passThrough "page=2&sig=1&q=a+b" =
      asciiForm.withoutSignature "page=2&sig=1&q=a+b" :=
  ((forwarded_query_untouched formWorker_standard).2 _).mpr (.inr (by decide +kernel))

theorem query_rewritten :
    formWorker.resolveOrigin "https://pub.example/a?q=a%20b&&flag&sig=1" =
        pure (some { pageUrl [("q", "a b"), ("flag", "")] with query := some "q=a+b&flag=" },
          .sameZone) ∧
      asciiForm.passThrough "q=a%20b&&flag&sig=1" = "q=a+b&flag=" ∧
      asciiForm.withoutSignature "q=a%20b&&flag&sig=1" = "q=a%20b&&flag" := by
  refine ⟨?_, by decide +kernel⟩
  have hurl : (formWorker.web.newURL "https://pub.example/a?q=a%20b&&flag&sig=1").map
      formWorker.stripSignatureParams =
        some { pageUrl [("q", "a b"), ("flag", "")] with query := some "q=a+b&flag=" } := by
    decide +kernel
  obtain ⟨u, hu, hstrip⟩ := Option.map_eq_some_iff.mp hurl
  simp only [Worker.resolveOrigin, Worker.newURL, hu]
  rw [← hstrip]
  rfl

end Ramp.Edge
