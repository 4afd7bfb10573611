import Mathlib.Data.Nat.Digits.Defs

/-! Digits: the hex form of bytes, and decimal numbers as Go reads them. -/

namespace Ramp

def hexDigit (n : Nat) : Char := if n < 10 then Char.ofNat (48 + n) else Char.ofNat (87 + n)

def hexValue (c : Char) : Option Nat :=
  if '0' ≤ c ∧ c ≤ '9' then some (c.toNat - 48)
  else if 'a' ≤ c ∧ c ≤ 'f' then some (c.toNat - 87)
  else if 'A' ≤ c ∧ c ≤ 'F' then some (c.toNat - 55)
  else none

def encodeHex : List UInt8 → List Char
  | [] => []
  | b :: bs => hexDigit (b.toNat / 16) :: hexDigit (b.toNat % 16) :: encodeHex bs

def decodeHex : List Char → Option (List UInt8)
  | [] => some []
  | [_] => none
  | c :: d :: cs =>
    match hexValue c, hexValue d, decodeHex cs with
    | some hi, some lo, some bs => some (UInt8.ofNat (16 * hi + lo) :: bs)
    | _, _, _ => none

theorem hexValue_hexDigit : ∀ n < 16, hexValue (hexDigit n) = some n := by decide

theorem hexDigit_ne_colon : ∀ n < 16, hexDigit n ≠ ':' := by decide

theorem decodeHex_encodeHex (bs : List UInt8) : decodeHex (encodeHex bs) = some bs := by
  induction bs with
  | nil => rfl
  | cons b bs ih =>
    have hlt := b.toNat_lt
    have hhi : b.toNat / 16 < 16 := by omega
    have hlo : b.toNat % 16 < 16 := by omega
    have hsum : 16 * (b.toNat / 16) + b.toNat % 16 = b.toNat := by omega
    simp [encodeHex, decodeHex, hexValue_hexDigit _ hhi, hexValue_hexDigit _ hlo, ih, hsum]

theorem encodeHex_no_colon (bs : List UInt8) : ':' ∉ encodeHex bs := by
  induction bs with
  | nil => simp [encodeHex]
  | cons b bs ih =>
    have hlt := b.toNat_lt
    simp only [encodeHex, List.mem_cons, not_or]
    exact ⟨(hexDigit_ne_colon _ (by omega)).symm, (hexDigit_ne_colon _ (by omega)).symm, ih⟩

/-- The hex form of bytes as a text. -/
def hexText (bytes : List UInt8) : String := String.ofList (encodeHex bytes)

inductive NumError
  | range
  | notNumeric
  deriving DecidableEq

def parseUint : List Char → Nat → Except NumError Nat
  | [], n => .ok n
  | c :: text, n =>
    if c.isDigit then
      let n' := 10 * n + (c.toNat - '0'.toNat)
      if n' < 2 ^ 64 then parseUint text n' else .error .range
    else .error .notNumeric

def atoi (text : List Char) : Except NumError Int :=
  let signed (negative : Bool) (digits : List Char) : Except NumError Int :=
    if digits = [] then .error .notNumeric
    else match parseUint digits 0 with
      | .error e => .error e
      | .ok n =>
        if negative then if n ≤ 2 ^ 63 then .ok (-n) else .error .range
        else if n < 2 ^ 63 then .ok n else .error .range
  match text with
  | '-' :: digits => signed true digits
  | '+' :: digits => signed false digits
  | digits => signed false digits

variable {port digits : List Char}

def Digits (port : List Char) : Prop := ∀ c ∈ port, c.isDigit = true

theorem le_ofDigitChars (digits : List Char) (n : Nat) : n ≤ Nat.ofDigitChars 10 digits n := by
  induction digits generalizing n with
  | nil => exact Nat.le_refl n
  | cons c digits ih =>
    rw [Nat.ofDigitChars_cons]
    have htail := ih (10 * n + (c.toNat - '0'.toNat))
    omega

theorem parseUint_digits (hd : Digits digits) {n : Nat}
    (hlt : Nat.ofDigitChars 10 digits n < 2 ^ 64) :
    parseUint digits n = .ok (Nat.ofDigitChars 10 digits n) := by
  induction digits generalizing n with
  | nil => rfl
  | cons c digits ih =>
    have hstep := le_ofDigitChars digits (10 * n + (c.toNat - '0'.toNat))
    have hdigit := hd c List.mem_cons_self
    simp only [parseUint, hdigit, if_true]
    rw [if_pos (Nat.lt_of_le_of_lt hstep hlt)]
    exact ih (fun d hmem => hd d (List.mem_cons_of_mem c hmem)) hlt

theorem atoi_digits (hd : Digits digits) (hne : digits ≠ []) :
    atoi digits = match parseUint digits 0 with
      | .error e => .error e
      | .ok n => if n < 2 ^ 63 then .ok (n : Int) else .error .range := by
  unfold atoi
  split
  · exact absurd (hd '-' List.mem_cons_self) (by decide)
  · exact absurd (hd '+' List.mem_cons_self) (by decide)
  · dsimp only
    rw [if_neg hne]
    cases parseUint digits 0 <;> rfl

theorem atoi_toDigits {n : Nat} (hn : n < 2 ^ 63) : atoi (Nat.toDigits 10 n) = .ok (n : Int) := by
  have hd : Digits (Nat.toDigits 10 n) := fun c hc =>
    Nat.isDigit_of_mem_toDigits (by decide) (by decide) hc
  have hvalue : Nat.ofDigitChars 10 (Nat.toDigits 10 n) 0 = n :=
    Nat.ofDigitChars_toDigits (by decide) (by decide)
  have hparse : parseUint (Nat.toDigits 10 n) 0 = .ok n := by
    have hread := parseUint_digits hd (n := 0) (by omega)
    rwa [hvalue] at hread
  rw [atoi_digits hd Nat.toDigits_ne_nil, hparse]
  exact if_pos hn

end Ramp
