import Mathlib.Data.List.Forall2
import Mathlib.Data.List.TakeWhile

/-! The feed parser. A line is accepted by a streaming decoder and a look at the next byte. -/

namespace Ramp.Ingest

abbrev Bytes := List UInt8

/-- The blanks of JSON. -/
def isSpace (c : UInt8) : Bool := c ∈ [9, 10, 13, 32]

def null : Bytes := [0x6e, 0x75, 0x6c, 0x6c]

/-- The library functions under the parser: `bytes.TrimSpace`, the scanner of the decoder, which
splits off the first value of a text, and the reading of a value into a record. -/
structure Library (ρ : Type) where
  trimSpace : Bytes → Bytes
  readValue : Bytes → Except String (Bytes × Bytes)
  unmarshal : Bytes → Except String ρ
  readValue_ok : ∀ {text value rest}, readValue text = .ok (value, rest) →
    ∃ blanks, (∀ c ∈ blanks, isSpace c = true) ∧ text = blanks ++ (value ++ rest)
  unmarshal_ok : ∀ {value r}, unmarshal value = .ok r → value = null ∨ value.head? = some 0x7b
  /-- An object that can be read, less the blanks at its end, is the first value of every text
  that starts with it. -/
  readValue_object : ∀ {before value after r}, (∀ c ∈ before, isSpace c = true) →
    value.head? = some 0x7b → unmarshal value = .ok r → ∃ object pad, value = object ++ pad ∧
      (∀ c ∈ pad, isSpace c = true) ∧
      readValue (before ++ (value ++ after)) = .ok (object, pad ++ after)

structure Stream where
  bytes : Bytes
  err : Option String

def maxTokenSize : ℕ := 16 * 1024 * 1024

/-- The stretches between newlines, as `ScanLines` meets them. -/
def Stream.lines (s : Stream) : List Bytes :=
  let pieces := s.bytes.splitOn 10
  if pieces.getLast? = some [] then pieces.dropLast else pieces

def dropCR (line : Bytes) : Bytes := if line.getLast? = some 13 then line.dropLast else line

/-- `Decoder.More`, on what the decoder has not read. -/
def more (rest : Bytes) : Bool :=
  match rest.dropWhile isSpace with
  | [] => false
  | c :: _ => c ≠ 0x5d ∧ c ≠ 0x7d

namespace Library

variable {ρ : Type} (lib : Library ρ)

def decode (line : Bytes) : Except String (ρ × Bytes) :=
  match lib.readValue line with
  | .error e => .error e
  | .ok (value, rest) =>
    match lib.unmarshal value with
    | .error e => .error e
    | .ok r => .ok (r, rest)

def token (raw : Bytes) : Bytes := lib.trimSpace (dropCR raw)

def parseLine (lineNo : ℕ) (line : Bytes) : Except String ρ :=
  match lib.decode line with
  | .error e => .error s!"parse line {lineNo}: {e}"
  | .ok (r, rest) =>
    if more rest then
      .error s!"parse line {lineNo}: unexpected trailing content after JSON object"
    else .ok r

def parseLines (err : Option String) (lineNo : ℕ) : List Bytes → Except String (List ρ)
  | [] =>
    match err with
    | some e => .error s!"read line {lineNo}: {e}"
    | none => .ok []
  | raw :: rest =>
    if maxTokenSize ≤ raw.length then
      .error s!"read line {lineNo}: bufio.Scanner: token too long"
    else if lib.token raw = [] then parseLines err (lineNo + 1) rest
    else
      match lib.parseLine (lineNo + 1) (lib.token raw) with
      | .error e => .error e
      | .ok r =>
        match parseLines err (lineNo + 1) rest with
        | .error e => .error e
        | .ok records => .ok (r :: records)

def parseJSONL (s : Stream) : Except String (List ρ) := lib.parseLines s.err 0 s.lines

/-- The text is one object that reads as the record, with blanks around it. -/
def OneObject (text : Bytes) (r : ρ) : Prop :=
  ∃ before value after, text = before ++ (value ++ after) ∧
    (∀ c ∈ before ++ after, isSpace c = true) ∧ value.head? = some 0x7b ∧
      lib.unmarshal value = .ok r

/-- The first value of the text is not `null`, and no closing bracket follows it. -/
def Plain (text : Bytes) : Prop :=
  ∀ value rest, lib.readValue text = .ok (value, rest) →
    value ≠ null ∧ ∀ c ∈ (rest.dropWhile isSpace).head?, c ≠ 0x5d ∧ c ≠ 0x7d

variable {lib}

theorem oneObject_iff {lineNo : ℕ} {line : Bytes} {r : ρ} (h : lib.parseLine lineNo line = .ok r) :
    lib.OneObject line r ↔ lib.Plain line := by
  unfold parseLine decode at h
  cases hread : lib.readValue line with
  | error e => simp [hread] at h
  | ok parts =>
    obtain ⟨value, rest⟩ := parts
    cases hrec : lib.unmarshal value with
    | error e => simp [hread, hrec] at h
    | ok r' =>
      obtain ⟨hmore, rfl⟩ : more rest = false ∧ r' = r := by
        cases hmore : more rest <;> simp_all
      constructor
      · rintro ⟨before, text, after, rfl, hblanks, hhead, htext⟩ value' rest' hread'
        obtain ⟨hbefore, hafter⟩ := List.forall_mem_append.mp hblanks
        obtain ⟨object, pad, rfl, hpad, hobject⟩ :=
          @Library.readValue_object _ lib before text after _ hbefore hhead htext
        rw [hobject] at hread'
        cases hread'
        refine ⟨fun hnull => ?_, fun c hc => ?_⟩
        · rw [hnull] at hhead
          cases hhead
        · rw [List.dropWhile_eq_nil_iff.mpr (List.forall_mem_append.mpr ⟨hpad, hafter⟩)] at hc
          cases hc
      · intro hplain
        obtain ⟨hnull, hnext⟩ := hplain value rest hread
        obtain ⟨blanks, hblanks, hline⟩ := lib.readValue_ok hread
        have hrest : ∀ c ∈ rest, isSpace c = true := by
          cases hdrop : rest.dropWhile isSpace with
          | nil => exact List.dropWhile_eq_nil_iff.mp hdrop
          | cons c tail =>
            have hc := hnext c (by rw [hdrop]; rfl)
            simp [more, hdrop, hc] at hmore
        exact ⟨blanks, value, rest, hline, List.forall_mem_append.mpr ⟨hblanks, hrest⟩,
          (lib.unmarshal_ok hrec).resolve_left hnull, hrec⟩

theorem parseLines_records {err : Option String} {lineNo : ℕ} {lines : List Bytes}
    {records : List ρ} (h : lib.parseLines err lineNo lines = .ok records) :
    List.Forall₂ (fun line r => ∃ n, lib.parseLine n line = .ok r)
      ((lines.map lib.token).filter (· ≠ [])) records := by
  induction lines generalizing lineNo records with
  | nil =>
    unfold parseLines at h
    split at h
    · cases h
    · cases h
      exact .nil
  | cons raw lines ih =>
    unfold parseLines at h
    split at h
    · cases h
    · split at h
      next hblank => simpa [hblank] using ih h
      next hblank =>
        split at h
        · cases h
        next r hr =>
          split at h
          · cases h
          next rest hrest =>
            cases h
            simpa [hblank] using And.intro ⟨_, hr⟩ (ih hrest)

/-- On success each line that is not blank is one object, and the records are those of these
lines, one for one and in order, if and only if no such line starts with `null` or closes a
bracket that it did not open. -/
theorem parseJSONL_strict {s : Stream} {records : List ρ} (h : lib.parseJSONL s = .ok records) :
    List.Forall₂ lib.OneObject ((s.lines.map lib.token).filter (· ≠ [])) records ↔
      ∀ line ∈ (s.lines.map lib.token).filter (· ≠ []), lib.Plain line := by
  have hrecords := parseLines_records h
  clear h
  generalize (s.lines.map lib.token).filter (· ≠ []) = lines at hrecords
  induction hrecords with
  | nil => simp
  | cons hr _ ih =>
    obtain ⟨n, hr⟩ := hr
    rw [List.forall₂_cons, List.forall_mem_cons, oneObject_iff hr]
    exact and_congr_right fun _ => ih

/-- The library on texts that start with `null` or an object without members. -/
def emptyRecords : Library Unit where
  trimSpace text := ((text.dropWhile isSpace).reverse.dropWhile isSpace).reverse
  readValue text :=
    let text := text.dropWhile isSpace
    if null <+: text then .ok (null, text.drop 4)
    else if [0x7b, 0x7d] <+: text then .ok ([0x7b, 0x7d], text.drop 2)
    else .error "invalid character"
  unmarshal value := if value = null ∨ value = [0x7b, 0x7d] then .ok () else .error "type"
  readValue_ok := by
    rintro text value rest h
    refine ⟨text.takeWhile isSpace, fun c => List.mem_takeWhile_imp, ?_⟩
    conv_lhs => rw [← List.takeWhile_append_dropWhile (p := isSpace) (l := text)]
    dsimp only at h
    split_ifs at h with hnull hobject
    · obtain ⟨tail, htail⟩ := hnull
      rw [← htail] at h ⊢
      cases h
      rfl
    · obtain ⟨tail, htail⟩ := hobject
      rw [← htail] at h ⊢
      cases h
      rfl
  unmarshal_ok := by
    rintro value r h
    split_ifs at h with hvalue
    exact hvalue.imp_right fun hobject => by rw [hobject]; rfl
  readValue_object := by
    rintro before value after r hbefore hhead h
    split_ifs at h with hvalue
    obtain rfl := hvalue.resolve_left fun hnull => by rw [hnull] at hhead; cases hhead
    refine ⟨_, [], (List.append_nil _).symm, by simp, ?_⟩
    dsimp only
    rw [List.dropWhile_append_of_pos hbefore]
    rfl

theorem parseJSONL_strict_two_objects :
    List.Forall₂ emptyRecords.OneObject [[0x7b, 0x7d], [0x7b, 0x7d]] [(), ()] := by
  refine (parseJSONL_strict
    (s := ⟨[0x7b, 0x7d, 13, 10, 32, 10, 0x7b, 0x7d], none⟩) rfl).mpr fun line hline => ?_
  obtain rfl : line = [0x7b, 0x7d] := by
    revert line
    decide
  intro value rest h
  cases h
  exact ⟨by decide, fun c hc => by cases hc⟩

/-- `null` and `{}}` are read as records. -/
theorem loose_lines_accepted :
    emptyRecords.parseJSONL ⟨null ++ [10, 0x7b, 0x7d, 0x7d, 10], none⟩ = .ok [(), ()] ∧
      ¬ emptyRecords.OneObject null () ∧ ¬ emptyRecords.OneObject [0x7b, 0x7d, 0x7d] () := by
  refine ⟨rfl, ?_, ?_⟩
  · rintro ⟨before, value, after, htext, -, hhead, -⟩
    have hmem : 0x7b ∈ null := by
      rw [htext]
      exact List.mem_append_right _ (List.mem_append_left _ (List.mem_of_mem_head? hhead))
    exact absurd hmem (by decide)
  · rintro ⟨before, value, after, htext, hblanks, hhead, hvalue⟩
    obtain rfl : value = [0x7b, 0x7d] := by
      simp only [emptyRecords] at hvalue
      split_ifs at hvalue with hor
      rcases hor with rfl | hvalue
      · cases hhead
      · exact hvalue
    cases before with
    | nil =>
      obtain rfl : after = [0x7d] := by simpa using htext.symm
      exact absurd (hblanks 0x7d (by decide)) (by decide)
    | cons c before =>
      obtain rfl := (List.cons.inj htext).1
      exact absurd (hblanks _ List.mem_cons_self) (by decide)

end Library

end Ramp.Ingest
