import Ramp.Data.Digits

/-! JSON objects whose values are texts: the compact form that a writer gives them, and
reading it back. -/

namespace Ramp.Json

/-- The letter that stands for a character after a backslash, where it has one. -/
def shortEscape (c : Char) : Option Char :=
  if c = '"' then some '"'
  else if c = '\\' then some '\\'
  else if c = Char.ofNat 8 then some 'b'
  else if c = '\t' then some 't'
  else if c = '\n' then some 'n'
  else if c = Char.ofNat 12 then some 'f'
  else if c = '\r' then some 'r'
  else none

def ofShortEscape (e : Char) : Option Char :=
  if e = '"' then some '"'
  else if e = '\\' then some '\\'
  else if e = '/' then some '/'
  else if e = 'b' then some (Char.ofNat 8)
  else if e = 't' then some '\t'
  else if e = 'n' then some '\n'
  else if e = 'f' then some (Char.ofNat 12)
  else if e = 'r' then some '\r'
  else none

def escapeChar (c : Char) : List Char :=
  match shortEscape c with
  | some e => ['\\', e]
  | none =>
    if c.toNat < 32 then ['\\', 'u', '0', '0', hexDigit (c.toNat / 16), hexDigit (c.toNat % 16)]
    else [c]

def escape (text : List Char) : List Char := text.flatMap escapeChar

def quoteText (text : String) : List Char := '"' :: (escape text.toList ++ ['"'])

def members : List (String × String) → List Char
  | [] => []
  | [m] => quoteText m.1 ++ ':' :: quoteText m.2
  | m :: m' :: ms => quoteText m.1 ++ ':' :: (quoteText m.2 ++ ',' :: members (m' :: ms))

/-- The form without blanks. -/
def stringify (fields : List (String × String)) : List Char := '{' :: (members fields ++ ['}'])

def hexChar (a b c d : Char) : Option Char :=
  match hexValue a, hexValue b, hexValue c, hexValue d with
  | some a, some b, some c, some d => some (Char.ofNat (((a * 16 + b) * 16 + c) * 16 + d))
  | _, _, _, _ => none

/-- The text up to the closing quote, and what follows it. -/
def readText : List Char → Option (List Char × List Char)
  | [] => none
  | c :: rest =>
    if c = '"' then some ([], rest)
    else if c = '\\' then
      match rest with
      | [] => none
      | e :: rest =>
        if e = 'u' then
          match rest with
          | a :: b :: c :: d :: rest =>
            match hexChar a b c d, readText rest with
            | some x, some (text, rest) => some (x :: text, rest)
            | _, _ => none
          | _ => none
        else
          match ofShortEscape e, readText rest with
          | some x, some (text, rest) => some (x :: text, rest)
          | _, _ => none
    else if c.toNat < 32 then none
    else
      match readText rest with
      | some (text, rest) => some (c :: text, rest)
      | none => none

variable {c : Char} {m : String × String} {fields : List (String × String)}

theorem ofShortEscape_shortEscape {e : Char} (h : shortEscape c = some e) :
    ofShortEscape e = some c ∧ e ≠ 'u' := by
  unfold shortEscape at h
  split_ifs at h with h1 h2 h3 h4 h5 h6 h7
  all_goals
    cases h
    subst_vars
    decide

theorem shortEscape_none (h : shortEscape c = none) : c ≠ '"' ∧ c ≠ '\\' := by
  unfold shortEscape at h
  split_ifs at h with h1 h2
  exact ⟨h1, h2⟩

theorem hexChar_control (h : c.toNat < 32) :
    hexChar '0' '0' (hexDigit (c.toNat / 16)) (hexDigit (c.toNat % 16)) = some c := by
  have hhi : c.toNat / 16 < 16 := by omega
  have hlo : c.toNat % 16 < 16 := by omega
  have hzero : hexValue '0' = some 0 := by decide
  have hsum : ((0 * 16 + 0) * 16 + c.toNat / 16) * 16 + c.toNat % 16 = c.toNat := by omega
  simp only [hexChar, hzero, hexValue_hexDigit _ hhi, hexValue_hexDigit _ hlo, hsum,
    Char.ofNat_toNat]

theorem readText_escapeChar {tail text rest : List Char} (h : readText tail = some (text, rest)) :
    readText (escapeChar c ++ tail) = some (c :: text, rest) := by
  unfold escapeChar
  cases hshort : shortEscape c with
  | some e =>
    obtain ⟨hback, hu⟩ := ofShortEscape_shortEscape hshort
    rw [readText.eq_def]
    simp [hu, hback, h]
  | none =>
    obtain ⟨hquote, hslash⟩ := shortEscape_none hshort
    split_ifs with hcontrol
    · simp [readText, hexChar_control hcontrol, h]
    · simp only [List.cons_append, List.nil_append]
      rw [readText.eq_def]
      simp [hquote, hslash, hcontrol, h]

theorem readText_escape (text rest : List Char) :
    readText (escape text ++ '"' :: rest) = some (text, rest) := by
  induction text with
  | nil =>
    rw [readText.eq_def]
    simp [escape]
  | cons c text ih =>
    rw [escape, List.flatMap_cons, List.append_assoc]
    exact readText_escapeChar ih

/-- The members up to the closing brace; `n` bounds their number. -/
def readMembers : Nat → List Char → Option (List (String × String) × List Char)
  | 0, _ => none
  | n + 1, text =>
    match text with
    | '"' :: text =>
      match readText text with
      | some (key, ':' :: '"' :: text) =>
        match readText text with
        | some (value, '}' :: rest) => some ([(String.ofList key, String.ofList value)], rest)
        | some (value, ',' :: text) =>
          match readMembers n text with
          | some (ms, rest) => some ((String.ofList key, String.ofList value) :: ms, rest)
          | none => none
        | _ => none
      | _ => none
    | _ => none

def parse (text : List Char) : Option (List (String × String)) :=
  match text with
  | '{' :: text =>
    if text = ['}'] then some []
    else
      match readMembers text.length text with
      | some (ms, []) => some ms
      | _ => none
  | _ => none

theorem readMembers_members {ms : List (String × String)} {n : Nat} (hn : ms.length < n)
    (rest : List Char) :
    readMembers n (members (m :: ms) ++ '}' :: rest) = some (m :: ms, rest) := by
  induction ms generalizing m n with
  | nil =>
    obtain ⟨n, rfl⟩ := Nat.exists_eq_succ_of_ne_zero (Nat.ne_of_gt hn)
    simp [members, quoteText, readMembers, readText_escape]
  | cons m' ms ih =>
    obtain ⟨n, rfl⟩ := Nat.exists_eq_succ_of_ne_zero (Nat.ne_of_gt (Nat.zero_lt_of_lt hn))
    have hlt : ms.length < n := by
      rw [List.length_cons] at hn
      omega
    simp [members, quoteText, readMembers, readText_escape, ih hlt]

theorem length_le_members (ms : List (String × String)) : ms.length ≤ (members ms).length := by
  induction ms with
  | nil => exact Nat.zero_le _
  | cons m ms ih =>
    cases ms with
    | nil => simp [members, quoteText]
    | cons m' ms =>
      simp only [members, quoteText, List.length_append, List.length_cons] at ih ⊢
      omega

/-- What is written is read back. -/
theorem parse_stringify (fields : List (String × String)) :
    parse (stringify fields) = some fields := by
  cases fields with
  | nil => rfl
  | cons m ms =>
    have hlen := length_le_members (m :: ms)
    have hread : readMembers (members (m :: ms) ++ ['}']).length (members (m :: ms) ++ ['}']) =
        some (m :: ms, []) := by
      refine readMembers_members ?_ []
      rw [List.length_append]
      rw [List.length_cons] at hlen
      omega
    have hne : members (m :: ms) ++ ['}'] ≠ ['}'] := by
      intro heq
      have hnil : members (m :: ms) = [] := List.append_left_eq_self.mp heq
      rw [hnil] at hlen
      simp at hlen
    simp only [stringify, parse, hne, if_false, hread]

theorem escapeChar_hexDigit : ∀ n < 16, escapeChar (hexDigit n) = [hexDigit n] := by decide

theorem escape_encodeHex (bytes : List UInt8) : escape (encodeHex bytes) = encodeHex bytes := by
  induction bytes with
  | nil => rfl
  | cons b bytes ih =>
    have hlt := b.toNat_lt
    rw [escape] at ih ⊢
    simp only [encodeHex, List.flatMap_cons, ih,
      escapeChar_hexDigit _ (show b.toNat / 16 < 16 by omega),
      escapeChar_hexDigit _ (show b.toNat % 16 < 16 by omega)]
    rfl

theorem quoteText_infix_members (hm : m ∈ fields) : quoteText m.2 <:+: members fields := by
  induction fields with
  | nil => cases hm
  | cons m' ms ih =>
    cases ms with
    | nil =>
      obtain rfl := List.mem_singleton.mp hm
      exact ⟨quoteText m.1 ++ [':'], [], by simp [members]⟩
    | cons m'' ms =>
      rcases List.mem_cons.mp hm with rfl | hm
      · exact ⟨quoteText m.1 ++ [':'], ',' :: members (m'' :: ms), by simp [members]⟩
      · obtain ⟨a, b, hab⟩ := ih hm
        refine ⟨quoteText m'.1 ++ ':' :: (quoteText m'.2 ++ ',' :: a), b, ?_⟩
        rw [members, ← hab]
        simp

theorem escape_infix_stringify (hm : m ∈ fields) : escape m.2.toList <:+: stringify fields := by
  have hquoted : escape m.2.toList <:+: quoteText m.2 := ⟨['"'], ['"'], rfl⟩
  have hmembers : members fields <:+: stringify fields := ⟨['{'], ['}'], rfl⟩
  exact (hquoted.trans (quoteText_infix_members hm)).trans hmembers

end Ramp.Json
