import Mathlib.Data.List.Infix

/-! Texts made of parts with a separator between them. The parts that do not hold the
separator can be read back. -/

namespace Ramp

instance (priority := 2000) decidableForallMem (text : List Char) (p : Char → Prop)
    [DecidablePred p] : Decidable (∀ c ∈ text, p c) := List.decidableBAll p text

theorem append_ne_empty {s t : String} (h : t ≠ "") : s ++ t ≠ "" := by
  intro hst
  have hlist : s.toList ++ t.toList = [] := by
    rw [← String.toList_append, hst]
    rfl
  exact h (String.toList_inj.mp (List.append_eq_nil_iff.mp hlist).2)

theorem toString_nat_injective {m n : Nat} (h : toString m = toString n) : m = n := by
  have hdigits := congrArg (fun text => Nat.ofDigitChars 10 text.toList 0) h
  simpa [Nat.toString_eq_ofList_toDigits] using hdigits

theorem toString_nat_ne_empty (n : Nat) : toString n ≠ "" := by
  intro h
  have hlist := congrArg String.toList h
  rw [Nat.toString_eq_repr, Nat.repr, String.toList_ofList] at hlist
  exact Nat.toDigits_ne_nil hlist

theorem colon_not_mem_toString (n : Nat) : ':' ∉ (toString n).toList := by
  rw [Nat.toString_eq_repr, Nat.repr, String.toList_ofList]
  intro h
  exact absurd (Nat.isDigit_of_mem_toDigits (by decide) (by decide) h) (by decide)

variable {sep : Char} {a b x y text pat before after : List Char}

/-- A text splits at its first separator in one way. -/
theorem split_first (ha : sep ∉ a) (hb : sep ∉ b) (h : a ++ sep :: x = b ++ sep :: y) :
    a = b ∧ x = y := by
  induction a generalizing b with
  | nil =>
    cases b with
    | nil => exact ⟨rfl, (List.cons.inj h).2⟩
    | cons c cs => exact absurd (List.cons.inj h).1 (fun hc => hb (hc ▸ List.mem_cons_self))
  | cons d ds ih =>
    cases b with
    | nil => exact absurd (List.cons.inj h).1 (fun hc => ha (hc ▸ List.mem_cons_self))
    | cons c cs =>
      obtain ⟨rfl, hrest⟩ := List.cons.inj h
      obtain ⟨rfl, rfl⟩ := ih (fun hm => ha (List.mem_cons_of_mem _ hm))
        (fun hm => hb (List.mem_cons_of_mem _ hm)) hrest
      exact ⟨rfl, rfl⟩

theorem split_last (ha : sep ∉ a) (hb : sep ∉ b) (h : x ++ sep :: a = y ++ sep :: b) :
    x = y ∧ a = b := by
  have hrev := congrArg List.reverse h
  simp only [List.reverse_append, List.reverse_cons, List.append_assoc,
    List.singleton_append] at hrev
  obtain ⟨hab, hxy⟩ := split_first (by simpa using ha) (by simpa using hb) hrev
  exact ⟨List.reverse_inj.mp hxy, List.reverse_inj.mp hab⟩

def hasPrefix (text start : String) : Bool := start.toList.isPrefixOf text.toList

theorem hasPrefix_iff {text start : String} :
    hasPrefix text start = true ↔ ∃ rest, text = start ++ rest := by
  rw [hasPrefix, List.isPrefixOf_iff_prefix]
  constructor
  · rintro ⟨rest, h⟩
    exact ⟨String.ofList rest, by rw [← String.toList_inj]; simp [h]⟩
  · rintro ⟨rest, rfl⟩
    exact ⟨rest.toList, by simp⟩

def cutSuffix (text suffix : String) : Option String :=
  if suffix.toList.isSuffixOf text.toList then
    some (String.ofList (text.toList.take (text.toList.length - suffix.toList.length)))
  else none

theorem cutSuffix_eq_some {text suffix stem : String} :
    cutSuffix text suffix = some stem ↔ text = stem ++ suffix := by
  unfold cutSuffix
  constructor
  · intro h
    split_ifs at h with hsuffix
    obtain ⟨front, hfront⟩ := List.isSuffixOf_iff_suffix.mp hsuffix
    rw [← Option.some.inj h, ← String.toList_inj]
    simp [← hfront]
  · rintro rfl
    simp

/-- What follows the first place where `pat` stands. -/
def cutFirst (pat : List Char) : List Char → Option (List Char)
  | [] => if pat.isPrefixOf [] then some [] else none
  | c :: text => if pat.isPrefixOf (c :: text) then some ((c :: text).drop pat.length)
    else cutFirst pat text

theorem cutFirst_eq_none (h : ¬ pat <:+: text) : cutFirst pat text = none := by
  induction text with
  | nil => exact if_neg fun hp => h (List.isPrefixOf_iff_prefix.mp hp).isInfix
  | cons c text ih =>
    have hhead : ¬ pat.isPrefixOf (c :: text) = true := fun hp =>
      h (List.isPrefixOf_iff_prefix.mp hp).isInfix
    rw [cutFirst, if_neg hhead]
    exact ih fun hi => h (hi.trans (List.infix_cons text.infix_rfl))

theorem cutFirst_append_self (pat rest : List Char) : cutFirst pat (pat ++ rest) = some rest := by
  cases hpat : pat ++ rest with
  | nil =>
    obtain ⟨rfl, rfl⟩ := List.append_eq_nil_iff.mp hpat
    rfl
  | cons c text =>
    have hp : pat.isPrefixOf (c :: text) = true :=
      List.isPrefixOf_iff_prefix.mpr ⟨rest, hpat⟩
    rw [cutFirst, if_pos hp, ← hpat, List.drop_left]

theorem prefix_of_append_sep (h : pat <+: a ++ sep :: b) (hsep : sep ∉ pat) : pat <+: a := by
  rcases List.prefix_or_prefix_of_prefix h (List.prefix_append a (sep :: b)) with hp | ⟨t, rfl⟩
  · exact hp
  · have ht := (List.prefix_append_right_inj a).mp h
    cases t with
    | nil => simp
    | cons c t =>
      obtain ⟨rfl, -⟩ := List.cons_prefix_cons.mp ht
      simp at hsep

/-- A text that does not hold `pat`, and a separator that `pat` does not hold, are skipped. -/
theorem cutFirst_append {head rest : List Char} (hhead : ¬ pat <:+: head) (hsep : sep ∉ pat) :
    cutFirst pat (head ++ sep :: (pat ++ rest)) = some rest := by
  have hskip : ¬ pat.isPrefixOf (head ++ sep :: (pat ++ rest)) = true := fun hp =>
    hhead (prefix_of_append_sep (List.isPrefixOf_iff_prefix.mp hp) hsep).isInfix
  induction head with
  | nil =>
    rw [List.nil_append] at hskip ⊢
    rw [cutFirst, if_neg hskip]
    exact cutFirst_append_self pat rest
  | cons c head ih =>
    have hhead' : ¬ pat <:+: head := fun hi => hhead (hi.trans (List.infix_cons head.infix_rfl))
    rw [List.cons_append] at hskip ⊢
    rw [cutFirst, if_neg hskip]
    refine ih hhead' fun hp => ?_
    exact hhead' (prefix_of_append_sep (List.isPrefixOf_iff_prefix.mp hp) hsep).isInfix

/-- The texts before and after the first place of a character. -/
def cutAt (sep : Char) : List Char → Option (List Char × List Char)
  | [] => none
  | c :: text => if c = sep then some ([], text)
    else (cutAt sep text).map fun parts => (c :: parts.1, parts.2)

/-- The white space of Unicode. -/
def isSpace (c : Char) : Bool :=
  (9 ≤ c.toNat ∧ c.toNat ≤ 13) ∨ c.toNat ∈ [0x20, 0x85, 0xa0, 0x1680, 0x2028, 0x2029, 0x202f,
    0x205f, 0x3000] ∨ (0x2000 ≤ c.toNat ∧ c.toNat ≤ 0x200a)

def trimSpace (text : List Char) : List Char :=
  ((text.dropWhile isSpace).reverse.dropWhile isSpace).reverse

/-- Blanks around a text that starts and ends with other characters are cut. -/
theorem trimSpace_between {c d : Char} {mid : List Char} (hbefore : ∀ x ∈ before, isSpace x = true)
    (hafter : ∀ x ∈ after, isSpace x = true) (hc : isSpace c = false) (hd : isSpace d = false) :
    trimSpace (before ++ (c :: (mid ++ [d])) ++ after) = c :: (mid ++ [d]) := by
  have hfront : (before ++ (c :: (mid ++ [d])) ++ after).dropWhile isSpace =
      (c :: (mid ++ [d])) ++ after := by
    rw [List.append_assoc, List.dropWhile_append_of_pos hbefore, List.cons_append,
      List.dropWhile_cons_of_neg (by simp [hc])]
  have hback : ((c :: (mid ++ [d])) ++ after).reverse.dropWhile isSpace =
      (c :: (mid ++ [d])).reverse := by
    rw [List.reverse_append, List.dropWhile_append_of_pos (by simpa using hafter)]
    simp [hd]
  rw [trimSpace, hfront, hback, List.reverse_reverse]

theorem not_mem_of_mem_splitOn {sep : Char} {text piece : List Char}
    (h : piece ∈ text.splitOn sep) : sep ∉ piece := by
  induction text generalizing piece with
  | nil =>
    rw [List.splitOn_nil] at h
    simp [List.mem_singleton.mp h]
  | cons c text ih =>
    rw [List.splitOn_cons_eq_if_modifyHead] at h
    obtain ⟨first, rest, hsplit⟩ := List.exists_cons_of_ne_nil (List.splitOn_ne_nil sep text)
    rw [hsplit] at h ih
    split_ifs at h with hc
    · rcases List.mem_cons.mp h with rfl | h
      · simp
      · exact ih h
    · rcases List.mem_cons.mp h with rfl | h
      · have hne : sep ≠ c := fun heq => hc (by simp [heq])
        simpa [hne] using ih List.mem_cons_self
      · exact ih (List.mem_cons_of_mem _ h)

end Ramp
