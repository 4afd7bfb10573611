import Ramp.Data.Table

/-! The lookups in a buyer's key set. The entries of a document are decoded twice: once for the
key and its window, once for `kid` and `use`, which are found again under the spelling of `x`. -/

namespace Ramp.BuyerKeys

variable {Raw Key : Type}

structure TimedKey (Key : Type) where
  thumbprint : String
  pub : Key
  notBefore : ℤ
  notAfter : ℤ

def TimedKey.inWindow (k : TimedKey Key) (now : ℤ) : Bool :=
  !(k.notBefore ≠ 0 && now < k.notBefore) && !(k.notAfter ≠ 0 && k.notAfter ≤ now)

structure KidUse where
  x : String := ""
  kid : String := ""
  use : String := ""

structure JwkWindow where
  x : String
  notBefore : String
  notAfter : String

/-- The decoders of an entry: `json.Unmarshal` into the two structs (it fails on a member of
another type), go-jose's key if it is an Ed25519 key, the coding of `x`, and RFC 3339 times. -/
structure Decoders (Raw Key : Type) where
  kidUse : Raw → Option KidUse
  jwk : Raw → Option Key
  jwkWindow : Raw → Option JwkWindow
  decodeEd25519X : String → Option Key
  encodeEd25519X : Key → String
  thumbprint : Key → Option String
  parseTime : String → Option ℤ

structure CacheEntry (Key : Type) where
  keys : List (TimedKey Key) := []
  rawKIDs : Table String (TimedKey Key) := ∅

def KidUse.verifies (m : KidUse) : Bool := m.use = "" ∨ m.use = "verify"

namespace Decoders

variable (d : Decoders Raw Key)

def parseBound (text : String) : Option ℤ := if text = "" then some 0 else d.parseTime text

def decodeTimedJWK (entry : Raw) : Option (TimedKey Key) := do
  let pub ← d.jwk entry
  let ext ← d.jwkWindow entry
  let _ ← d.decodeEd25519X ext.x
  let tp ← d.thumbprint pub
  let nb ← d.parseBound ext.notBefore
  let na ← d.parseBound ext.notAfter
  pure ⟨tp, pub, nb, na⟩

/-- What the map from spellings says of a key; of two entries with one `x` the later stands. -/
def metaOf (doc : List Raw) (tk : TimedKey Key) : KidUse :=
  ((Table.index KidUse.x id (doc.filterMap d.kidUse)).get? (d.encodeEd25519X tk.pub)).getD {}

def put (m : KidUse) (tk : TimedKey Key) (entry : CacheEntry Key) : CacheEntry Key :=
  if m.verifies then
    { keys := entry.keys ++ [tk]
      rawKIDs := if m.kid = "" then entry.rawKIDs else entry.rawKIDs.insert m.kid tk }
  else entry

def putAll (f : TimedKey Key → KidUse) (tks : List (TimedKey Key)) : CacheEntry Key :=
  tks.foldl (fun entry tk => put (f tk) tk entry) {}

/-- The document as a list of entries, `none` if it is malformed. -/
def parseJWKS (doc : List Raw) : Option (CacheEntry Key) :=
  if doc.all fun e => (d.kidUse e).isSome then
    some (putAll (d.metaOf doc) (doc.filterMap d.decodeTimedJWK))
  else none

variable [DecidableEq Key]

def contains (doc : List Raw) (pub : Key) (now : ℤ) : Option Bool :=
  (d.parseJWKS doc).map fun entry => entry.keys.any fun k => k.pub = pub && k.inWindow now

def lookupKID (doc : List Raw) (kid : String) (now : ℤ) : Option (Option Key) :=
  (d.parseJWKS doc).map fun entry =>
    ((entry.rawKIDs.get? kid).filter fun k => k.inWindow now).map TimedKey.pub

end Decoders

variable {d : Decoders Raw Key} {doc doc' : List Raw} {f : TimedKey Key → KidUse}
  {tks : List (TimedKey Key)} {tk : TimedKey Key} {kid : String} {m : KidUse}
  {β : Type}

theorem putAll_snoc : Decoders.putAll f (tks ++ [tk]) =
    Decoders.put (f tk) tk (Decoders.putAll f tks) := by
  rw [Decoders.putAll, List.foldl_append]
  rfl

theorem keys_putAll : (Decoders.putAll f tks).keys = tks.filter fun k => (f k).verifies := by
  induction tks using List.reverseRecOn with
  | nil => rfl
  | append_singleton tks tk ih =>
    rw [putAll_snoc, Decoders.put, List.filter_append]
    split_ifs with hv <;> simp [ih, hv]

theorem rawKIDs_putAll : (Decoders.putAll f tks).rawKIDs = Table.index (fun k => (f k).kid) id
      (tks.filter fun k => (f k).verifies && (f k).kid != "") := by
  induction tks using List.reverseRecOn with
  | nil => rfl
  | append_singleton tks tk ih =>
    rw [putAll_snoc, Decoders.put, List.filter_append]
    split_ifs with hv hkid
    · simp [ih, hkid]
    · simp [ih, hv, hkid, Table.index_snoc]
    · simp [ih, hv]

/-- `e` is the last of the entries with `p`. -/
def IsLast (l : List Raw) (p : Raw → Prop) (e : Raw) : Prop :=
  p e ∧ ∃ a b, l = a ++ e :: b ∧ ∀ y ∈ b, ¬ p y

theorem IsLast.mem {l : List Raw} {p : Raw → Prop} {e : Raw} (h : IsLast l p e) : e ∈ l := by
  obtain ⟨-, a, b, rfl, -⟩ := h
  simp

theorem isLast_or (l : List Raw) (p : Raw → Prop) : (∀ y ∈ l, ¬ p y) ∨ ∃ e, IsLast l p e := by
  induction l using List.reverseRecOn with
  | nil => exact .inl nofun
  | append_singleton l x ih =>
    by_cases hx : p x
    · exact .inr ⟨x, hx, l, [], rfl, nofun⟩
    · rcases ih with hnone | ⟨e, he, a, b, rfl, hb⟩
      · exact .inl fun y hy => (List.mem_append.mp hy).elim (hnone y) (by simp +contextual [hx])
      · exact .inr ⟨e, he, a, b ++ [x], by simp, fun y hy =>
          (List.mem_append.mp hy).elim (hb y) (by simp +contextual [hx])⟩

/-- The last entries of two sorts are one entry if each is of the other's sort. -/
theorem IsLast.eq {l : List Raw} {p q : Raw → Prop} {e e' : Raw} (h : IsLast l p e)
    (h' : IsLast l q e') (hq : q e) (hp : p e') : e = e' := by
  obtain ⟨-, a, b, rfl, hb⟩ := h
  obtain ⟨-, a', b', heq, hb'⟩ := h'
  rcases List.append_eq_append_iff.mp heq with ⟨c, -, hc⟩ | ⟨c, -, hc⟩ <;>
    rcases List.cons_eq_append_iff.mp hc with ⟨-, hc⟩ | ⟨c', -, rfl⟩
  · exact (List.cons.inj hc).1.symm
  · exact absurd hp (hb e' (by simp))
  · exact (List.cons.inj hc).1
  · exact absurd hq (hb' e (by simp))

theorem IsLast.append {a b : List Raw} {p : Raw → Prop} {e : Raw} (h : IsLast (a ++ b) p e)
    (he : e ∉ b) : ∀ y ∈ b, ¬ p y := by
  rcases isLast_or b p with hnone | ⟨e', hlast⟩
  · exact hnone
  · obtain ⟨hp, s, t, rfl, ht⟩ := hlast
    have heq : e = e' := h.eq ⟨hp, a ++ s, t, by simp, ht⟩ h.1 hp
    exact absurd (by simp [heq]) he

theorem find?_of_isLast {l : List Raw} {f : Raw → Option β} {p : β → Bool} {e : Raw} {b : β}
    (h : IsLast l (fun e => ∃ b, f e = some b ∧ p b = true) e) (hb : f e = some b) :
    (l.filterMap f).reverse.find? p = some b := by
  obtain ⟨⟨b', hb', hp⟩, s, t, rfl, ht⟩ := h
  cases hb.symm.trans hb'
  have hnone : (t.filterMap f).reverse.find? p = none := by
    rw [List.find?_eq_none]
    intro c hc hpc
    obtain ⟨y, hy, hyc⟩ := List.mem_filterMap.mp (List.mem_reverse.mp hc)
    exact ht y hy ⟨c, hyc, hpc⟩
  rw [List.filterMap_append, List.filterMap_cons_some hb, List.reverse_append, List.reverse_cons,
    List.append_assoc, List.find?_append, hnone, List.singleton_append, List.find?_cons_of_pos hp]
  rfl

theorem perm_snoc_of_mem {l : List Raw} {x : Raw} (h : x ∈ l) : ∃ r, (r ++ [x]).Perm l := by
  obtain ⟨a, b, rfl⟩ := List.append_of_mem h
  exact ⟨a ++ b, (List.perm_append_singleton _ _).trans List.perm_middle.symm⟩

theorem perm_snoc₂_of_mem {l : List Raw} {x y : Raw} (hx : x ∈ l) (hy : y ∈ l) (hne : x ≠ y) :
    ∃ r, (r ++ [x] ++ [y]).Perm l := by
  obtain ⟨r, hr⟩ := perm_snoc_of_mem hy
  have hmem : x ∈ r := by
    rcases List.mem_append.mp (hr.mem_iff.mpr hx) with h | h
    · exact h
    · exact absurd (List.mem_singleton.mp h) hne
  obtain ⟨r', hr'⟩ := perm_snoc_of_mem hmem
  exact ⟨r', (hr'.append_right [y]).trans hr⟩

/-- The entry declares `m` under the encoder's spelling of the key. -/
def Decoders.Spells (d : Decoders Raw Key) (pub : Key) (e : Raw) (m : KidUse) : Prop :=
  d.kidUse e = some m ∧ m.x = d.encodeEd25519X pub

theorem metaOf_of_isLast {e : Raw} (h : IsLast doc (fun e => ∃ m, d.Spells tk.pub e m) e)
    (hm : d.kidUse e = some m) : d.metaOf doc tk = m := by
  rw [Decoders.metaOf, Table.get?_index, find?_of_isLast _ hm]
  · rfl
  · simpa [Decoders.Spells] using h

theorem metaOf_of_none (h : ∀ e ∈ doc, ¬ ∃ m, d.Spells tk.pub e m) : d.metaOf doc tk = {} := by
  have hfind : (doc.filterMap d.kidUse).reverse.find? (fun m => m.x = d.encodeEd25519X tk.pub) =
      none := by
    rw [List.find?_eq_none]
    intro m hm hx
    obtain ⟨e, he, hme⟩ := List.mem_filterMap.mp (List.mem_reverse.mp hm)
    exact h e he ⟨m, hme, of_decide_eq_true hx⟩
  rw [Decoders.metaOf, Table.get?_index, hfind]
  rfl

theorem metaOf_cases (d : Decoders Raw Key) (doc : List Raw) (tk : TimedKey Key) :
    (d.metaOf doc tk = {} ∧ ∀ e ∈ doc, ∀ m, ¬ d.Spells tk.pub e m) ∨
      ∃ e ∈ doc, d.Spells tk.pub e (d.metaOf doc tk) := by
  rcases isLast_or doc (fun e => ∃ m, d.Spells tk.pub e m) with hnone | ⟨e, he⟩
  · exact .inl ⟨metaOf_of_none hnone, fun e he m hm => hnone e he ⟨m, hm⟩⟩
  · obtain ⟨m, hm⟩ := he.1
    exact .inr ⟨e, he.mem, by rwa [metaOf_of_isLast he hm.1]⟩

def KidUse.names (m : KidUse) (kid : String) : Bool := m.verifies && m.kid = kid

/-- The entry's key is put under `kid`. -/
def Decoders.Registers (d : Decoders Raw Key) (doc : List Raw) (kid : String) (e : Raw) : Prop :=
  ∃ tk, d.decodeTimedJWK e = some tk ∧ (d.metaOf doc tk).names kid = true

def Decoders.find (d : Decoders Raw Key) (doc : List Raw) (kid : String) :
    Option (TimedKey Key) :=
  (Decoders.putAll (d.metaOf doc) (doc.filterMap d.decodeTimedJWK)).rawKIDs.get? kid

theorem find_eq (hkid : kid ≠ "") : d.find doc kid =
    (doc.filterMap d.decodeTimedJWK).reverse.find? fun tk => (d.metaOf doc tk).names kid := by
  rw [Decoders.find, rawKIDs_putAll, Table.get?_index, ← List.filter_reverse, List.find?_filter,
    Option.map_id, id]
  congr 1
  funext tk
  rw [KidUse.names, Bool.eq_iff_iff]
  simp only [Bool.and_eq_true, bne_iff_ne, decide_eq_true_eq]
  constructor
  · rintro ⟨⟨hv, -⟩, hk⟩
    exact ⟨hv, hk⟩
  · rintro ⟨hv, rfl⟩
    exact ⟨⟨hv, hkid⟩, rfl⟩

theorem find_of_isLast {e : Raw} (hkid : kid ≠ "") (h : IsLast doc (d.Registers doc kid) e)
    (htk : d.decodeTimedJWK e = some tk) : d.find doc kid = some tk := by
  rw [find_eq hkid]
  exact find?_of_isLast h htk

theorem find_of_none (h : kid ≠ "" → ∀ e ∈ doc, ¬ d.Registers doc kid e) :
    d.find doc kid = none := by
  by_cases hkid : kid = ""
  · rw [Decoders.find, rawKIDs_putAll, Table.get?_index, Option.map_eq_none_iff,
      List.find?_eq_none]
    intro tk htk
    have hput := (List.mem_filter.mp (List.mem_reverse.mp htk)).2
    simp only [Bool.and_eq_true, bne_iff_ne] at hput
    simpa [hkid] using hput.2
  · rw [find_eq hkid, List.find?_eq_none]
    intro tk htk hnames
    obtain ⟨e, he, hdec⟩ := List.mem_filterMap.mp (List.mem_reverse.mp htk)
    exact h hkid e he ⟨tk, hdec, hnames⟩

theorem exists_isLast_of_names (hkid : kid ≠ "") (hnames : (d.metaOf doc tk).names kid = true) :
    ∃ e m, IsLast doc (fun e => ∃ m, d.Spells tk.pub e m) e ∧ d.Spells tk.pub e m ∧
      m.names kid = true := by
  rcases isLast_or doc (fun e => ∃ m, d.Spells tk.pub e m) with hnone | ⟨e, he⟩
  · rw [metaOf_of_none hnone] at hnames
    exact absurd (of_decide_eq_true (Bool.and_eq_true_iff.mp hnames).2).symm hkid
  · obtain ⟨m, hm⟩ := he.1
    exact ⟨e, m, he, hm, by rwa [metaOf_of_isLast he hm.1] at hnames⟩

def TimedKey.answer (tk : TimedKey Key) (now : ℤ) : Option Key :=
  if tk.inWindow now then some tk.pub else none

/-- What a `kid` may be answered with, by the entries alone: a key `e` with the `kid` that `e'`
declares under the key's spelling, unless `e'` must then stand behind `e` with a key of its own;
or nothing, if each key has no entry under its spelling or one that declares another `kid`. -/
inductive Outcome (d : Decoders Raw Key) (doc : List Raw) (kid : String) :
    (ℤ → Option Key) → Prop
  | found {e e' : Raw} {m : KidUse} {tk : TimedKey Key} (hkid : kid ≠ "") (he : e ∈ doc)
      (he' : e' ∈ doc) (hdec : d.decodeTimedJWK e = some tk) (hm : d.Spells tk.pub e' m)
      (hnames : m.names kid = true)
      (hfree : e = e' ∨ (∀ m, ¬ d.Spells tk.pub e m) ∨ d.decodeTimedJWK e' = none) :
      Outcome d doc kid tk.answer
  | absent (h : kid ≠ "" → ∀ e ∈ doc, ∀ tk, d.decodeTimedJWK e = some tk →
      (∃ e' ∈ doc, ∃ m, d.Spells tk.pub e' m ∧ m.names kid = false) ∨
        ∀ e' ∈ doc, ∀ m, ¬ d.Spells tk.pub e' m) : Outcome d doc kid fun _ => none

/-- An entry with a key, under the spelling of a key, has that key: the decoders read one `x`. -/
def Decoders.ReadsOne (d : Decoders Raw Key) (doc : List Raw) : Prop :=
  ∀ e ∈ doc, ∀ m tk pub, d.Spells pub e m → d.decodeTimedJWK e = some tk → tk.pub = pub

theorem metaOf_congr {tk' : TimedKey Key} (h : tk'.pub = tk.pub) :
    d.metaOf doc tk' = d.metaOf doc tk := by
  rw [Decoders.metaOf, h, Decoders.metaOf]

theorem Outcome.of_order (hone : d.ReadsOne doc) (kid : String) :
    Outcome d doc kid fun now => (d.find doc kid).bind fun tk => tk.answer now := by
  by_cases hkid : kid = ""
  · rw [find_of_none fun hne => absurd hkid hne]
    exact .absent fun hne => absurd hkid hne
  rcases isLast_or doc (d.Registers doc kid) with hnone | ⟨e, he⟩
  · rw [find_of_none fun _ => hnone]
    refine .absent fun _ e he tk hdec => ?_
    rcases isLast_or doc (fun e => ∃ m, d.Spells tk.pub e m) with hspell | ⟨e', he'⟩
    · exact .inr fun e' he' m hm => hspell e' he' ⟨m, hm⟩
    · obtain ⟨m, hm⟩ := he'.1
      refine .inl ⟨e', he'.mem, m, hm, Bool.eq_false_of_not_eq_true fun hnames => ?_⟩
      exact hnone e he ⟨tk, hdec, by rwa [metaOf_of_isLast he' hm.1]⟩
  · obtain ⟨tk, hdec, hnames⟩ := he.1
    rw [find_of_isLast hkid he hdec]
    obtain ⟨e', m, he', hm, hnames'⟩ := exists_isLast_of_names hkid hnames
    refine .found hkid he.mem he'.mem hdec hm hnames' ?_
    cases hdec' : d.decodeTimedJWK e' with
    | none => exact .inr (.inr rfl)
    | some tk' =>
      by_cases hown : ∃ m, d.Spells tk.pub e m
      · refine .inl (he.eq he' hown ⟨tk', hdec', ?_⟩)
        rwa [metaOf_congr (hone e' he'.mem m tk' tk.pub hm hdec')]
      · exact .inr (.inl fun m hm => hown ⟨m, hm⟩)

/-- The two entries that a key is found by can be put last, such that the one declares the `kid`
and the other is the key. -/
theorem exists_order_found {e e' : Raw} (he : e ∈ doc) (he' : e' ∈ doc)
    (hdec : d.decodeTimedJWK e = some tk) (hm : d.Spells tk.pub e' m)
    (hfree : e = e' ∨ (∀ m, ¬ d.Spells tk.pub e m) ∨ d.decodeTimedJWK e' = none) :
    ∃ doc', doc'.Perm doc ∧ IsLast doc' (fun e => ∃ m, d.Spells tk.pub e m) e' ∧
      ((d.metaOf doc' tk).names kid = true → IsLast doc' (d.Registers doc' kid) e) := by
  by_cases hsame : e = e'
  · subst hsame
    obtain ⟨r, hr⟩ := perm_snoc_of_mem he
    exact ⟨r ++ [e], hr, ⟨⟨m, hm⟩, r, [], rfl, nofun⟩,
      fun hk => ⟨⟨tk, hdec, hk⟩, r, [], rfl, nofun⟩⟩
  rcases hfree with heq | hunspelt | hdec'
  · exact absurd heq hsame
  · obtain ⟨r, hr⟩ := perm_snoc₂_of_mem he' he (Ne.symm hsame)
    refine ⟨r ++ [e'] ++ [e], hr, ⟨⟨m, hm⟩, r, [e], by simp, ?_⟩,
      fun hk => ⟨⟨tk, hdec, hk⟩, r ++ [e'], [], rfl, nofun⟩⟩
    rintro y hy ⟨m', hm'⟩
    cases List.mem_singleton.mp hy
    exact hunspelt m' hm'
  · obtain ⟨r, hr⟩ := perm_snoc₂_of_mem he he' hsame
    refine ⟨r ++ [e] ++ [e'], hr, ⟨⟨m, hm⟩, r ++ [e], [], rfl, nofun⟩,
      fun hk => ⟨⟨tk, hdec, hk⟩, r, [e'], by simp, ?_⟩⟩
    rintro y hy ⟨tk', hdec'', -⟩
    cases List.mem_singleton.mp hy
    rw [hdec'] at hdec''
    cases hdec''

/-- Each of these answers is given in some order of the entries. -/
theorem Outcome.exists_order {a : ℤ → Option Key} (h : Outcome d doc kid a) :
    ∃ doc', doc'.Perm doc ∧ ∀ now, (d.find doc' kid).bind (fun tk => tk.answer now) = a now := by
  cases h with
  | found hkid he he' hdec hm hnames hfree =>
    obtain ⟨doc', hperm, hspell, hreg⟩ :=
      @exists_order_found _ _ _ _ _ kid _ _ _ he he' hdec hm hfree
    rw [metaOf_of_isLast hspell hm.1] at hreg
    exact ⟨doc', hperm, fun now => by rw [find_of_isLast hkid (hreg hnames) hdec]; rfl⟩
  | absent h =>
    -- The entries that declare the `kid` stand before all others.
    let p : Raw → Bool := fun e => (d.kidUse e).any fun m => m.names kid
    have hperm : (doc.filter p ++ doc.filter fun e => !p e).Perm doc :=
      List.filter_append_perm p doc
    refine ⟨_, hperm, fun now => ?_⟩
    rw [find_of_none]
    · rfl
    rintro hkid e he ⟨tk, hdec, hnames⟩
    obtain ⟨e', m, he', hm, hnames⟩ := exists_isLast_of_names hkid hnames
    have hpe : p e' = true := by simp [p, hm.1, hnames]
    rcases h hkid e (hperm.mem_iff.mp he) tk hdec with ⟨e'', he'', m'', hm'', hno⟩ | hnone
    · exact he'.append (by simp [hpe]) e''
        (List.mem_filter.mpr ⟨he'', by simp [p, hm''.1, hno]⟩) ⟨m'', hm''⟩
    · exact hnone e' (hperm.mem_iff.mp he'.mem) m hm

def TimedKey.Opens (tk : TimedKey Key) : Prop := ∃ now, tk.inWindow now = true

/-- No entry of the key is for verification. -/
def Decoders.Revoked (d : Decoders Raw Key) (doc : List Raw) (pub : Key) : Prop :=
  ∀ e ∈ doc, ∀ m tk, d.kidUse e = some m → d.decodeTimedJWK e = some tk → tk.pub = pub →
    m.verifies = false

/-- Of a key with a window, the entries under its spelling are all for verification or all not,
and if the key is revoked one of them says so; and a `kid` may be answered in one way only. -/
structure Coherent (d : Decoders Raw Key) (doc : List Raw) : Prop where
  uses : ∀ e ∈ doc, ∀ tk, d.decodeTimedJWK e = some tk → tk.Opens →
    ∀ e₁ ∈ doc, ∀ e₂ ∈ doc, ∀ m₁ m₂, d.Spells tk.pub e₁ m₁ → d.Spells tk.pub e₂ m₂ →
      m₁.verifies = m₂.verifies
  kids : ∀ kid a b, Outcome d doc kid a → Outcome d doc kid b → a = b
  revoked : ∀ e ∈ doc, ∀ tk, d.decodeTimedJWK e = some tk → tk.Opens → d.Revoked doc tk.pub →
    ∃ e' ∈ doc, ∃ m, d.Spells tk.pub e' m ∧ m.verifies = false

theorem Outcome.perm {a : ℤ → Option Key} (hperm : doc'.Perm doc) (h : Outcome d doc' kid a) :
    Outcome d doc kid a := by
  cases h with
  | found hkid he he' hdec hm hnames hfree =>
    exact .found hkid (hperm.mem_iff.mp he) (hperm.mem_iff.mp he') hdec hm hnames hfree
  | absent h =>
    simp only [hperm.mem_iff] at h
    exact .absent h

def Decoders.WellFormed (d : Decoders Raw Key) (doc : List Raw) : Prop :=
  ∀ e ∈ doc, (d.kidUse e).isSome = true

theorem Decoders.WellFormed.perm (hall : d.WellFormed doc) (hperm : doc'.Perm doc) :
    d.WellFormed doc' :=
  fun e he => hall e (hperm.mem_iff.mp he)

theorem parseJWKS_eq (hall : d.WellFormed doc) : d.parseJWKS doc =
    some (Decoders.putAll (d.metaOf doc) (doc.filterMap d.decodeTimedJWK)) :=
  if_pos (List.all_eq_true.mpr hall)

theorem lookupKID_eq (hall : d.WellFormed doc) (kid : String) (now : ℤ) :
    d.lookupKID doc kid now = some ((d.find doc kid).bind fun tk => tk.answer now) := by
  rw [Decoders.lookupKID, parseJWKS_eq hall, Option.map_some, ← Decoders.find]
  cases d.find doc kid with
  | none => rfl
  | some tk => by_cases hw : tk.inWindow now <;> simp [TimedKey.answer, Option.filter, hw]

theorem Coherent.verifies_perm (h : Coherent d doc) (hperm : doc'.Perm doc) {e : Raw} {now : ℤ}
    (he : e ∈ doc) (hdec : d.decodeTimedJWK e = some tk) (hw : tk.inWindow now = true) :
    (d.metaOf doc' tk).verifies = (d.metaOf doc tk).verifies := by
  rcases metaOf_cases d doc' tk with ⟨hmeta', hnone⟩ | ⟨e', he', hm'⟩ <;>
    rcases metaOf_cases d doc tk with ⟨hmeta, hnone'⟩ | ⟨e'', he'', hm⟩
  · rw [hmeta, hmeta']
  · exact absurd hm (hnone e'' (hperm.mem_iff.mpr he'') _)
  · exact absurd hm' (hnone' e' (hperm.mem_iff.mp he') _)
  · exact h.uses e he tk hdec ⟨now, hw⟩ e' (hperm.mem_iff.mp he') e'' he'' _ _ hm' hm

variable [DecidableEq Key]

theorem contains_iff (hall : d.WellFormed doc) (pub : Key) (now : ℤ) :
    d.contains doc pub now = some true ↔ ∃ e ∈ doc, ∃ tk, d.decodeTimedJWK e = some tk ∧
      tk.pub = pub ∧ tk.inWindow now = true ∧ (d.metaOf doc tk).verifies = true := by
  rw [Decoders.contains, parseJWKS_eq hall, Option.map_some, Option.some_inj, keys_putAll]
  simp only [List.any_eq_true, List.mem_filter, List.mem_filterMap, Bool.and_eq_true,
    decide_eq_true_eq]
  constructor
  · rintro ⟨tk, ⟨⟨e, he, hdec⟩, hv⟩, hpub, hw⟩
    exact ⟨e, he, tk, hdec, hpub, hw, hv⟩
  · rintro ⟨e, he, tk, hdec, hpub, hw, hv⟩
    exact ⟨tk, ⟨⟨e, he, hdec⟩, hv⟩, hpub, hw⟩

theorem contains_of_lookupKID (hall : d.WellFormed doc) {pub : Key} {now : ℤ}
    (h : d.lookupKID doc kid now = some (some pub)) : d.contains doc pub now = some true := by
  rw [lookupKID_eq hall, Option.some_inj, Option.bind_eq_some_iff] at h
  obtain ⟨tk, hfind, hans⟩ := h
  rw [TimedKey.answer, Option.ite_none_right_eq_some, Option.some_inj] at hans
  rw [Decoders.find, rawKIDs_putAll] at hfind
  obtain ⟨tk, hmem, -, rfl⟩ := Table.get?_index_eq_some hfind
  simp only [List.mem_filter, List.mem_filterMap, Bool.and_eq_true] at hmem
  obtain ⟨⟨e, he, hdec⟩, hv, -⟩ := hmem
  exact (contains_iff hall pub now).mpr ⟨e, he, tk, hdec, hans.2, hans.1, hv⟩

/-- A key with a window is found when the entry put last, under its spelling, is for
verification. -/
theorem contains_snoc (hall : d.WellFormed doc) {r : List Raw} {e e' : Raw}
    {now : ℤ} (hperm : (r ++ [e']).Perm doc) (he : e ∈ doc) (hdec : d.decodeTimedJWK e = some tk)
    (hw : tk.inWindow now = true) (hm : d.Spells tk.pub e' m) :
    d.contains (r ++ [e']) tk.pub now = some true ↔ m.verifies = true := by
  have hmeta : d.metaOf (r ++ [e']) tk = m :=
    metaOf_of_isLast ⟨⟨m, hm⟩, r, [], rfl, nofun⟩ hm.1
  rw [contains_iff (hall.perm hperm)]
  constructor
  · rintro ⟨-, -, tk', -, hpub, -, hv⟩
    rwa [metaOf_congr hpub, hmeta] at hv
  · exact fun hv => ⟨e, hperm.mem_iff.mpr he, tk, hdec, rfl, hw, hmeta ▸ hv⟩

theorem coherent_of_order_free (hall : d.WellFormed doc)
    (hcontains : ∀ doc', doc'.Perm doc → ∀ pub now,
      d.contains doc' pub now = d.contains doc pub now)
    (hkids : ∀ doc', doc'.Perm doc → ∀ kid now, d.lookupKID doc' kid now = d.lookupKID doc kid now)
    (hrevoked : ∀ pub, d.Revoked doc pub → ∀ now, d.contains doc pub now ≠ some true) :
    Coherent d doc where
  uses := by
    rintro e he tk hdec ⟨now, hw⟩ e₁ he₁ e₂ he₂ m₁ m₂ hm₁ hm₂
    obtain ⟨r₁, hr₁⟩ := perm_snoc_of_mem he₁
    obtain ⟨r₂, hr₂⟩ := perm_snoc_of_mem he₂
    rw [Bool.eq_iff_iff, ← contains_snoc hall hr₁ he hdec hw hm₁,
      ← contains_snoc hall hr₂ he hdec hw hm₂, hcontains _ hr₁, hcontains _ hr₂]
  kids := by
    intro kid a b ha hb
    obtain ⟨doc₁, hperm₁, h₁⟩ := ha.exists_order
    obtain ⟨doc₂, hperm₂, h₂⟩ := hb.exists_order
    funext now
    have heq := (hkids doc₁ hperm₁ kid now).trans (hkids doc₂ hperm₂ kid now).symm
    rwa [lookupKID_eq (hall.perm hperm₁), lookupKID_eq (hall.perm hperm₂), Option.some_inj, h₁,
      h₂] at heq
  revoked := by
    rintro e he tk hdec ⟨now, hw⟩ hrev
    have hnot : (d.metaOf doc tk).verifies = false := Bool.eq_false_of_not_eq_true fun hv =>
      hrevoked tk.pub hrev now ((contains_iff hall _ _).mpr ⟨e, he, tk, hdec, rfl, hw, hv⟩)
    rcases metaOf_cases d doc tk with ⟨hmeta, -⟩ | ⟨e', he', hm⟩
    · rw [hmeta] at hnot
      cases hnot
    · exact ⟨e', he', _, hm, hnot⟩

theorem Coherent.contains_perm (h : Coherent d doc) (hall : d.WellFormed doc)
    (hperm : doc'.Perm doc) (pub : Key) (now : ℤ) :
    d.contains doc' pub now = d.contains doc pub now := by
  have hiff : d.contains doc' pub now = some true ↔ d.contains doc pub now = some true := by
    rw [contains_iff (hall.perm hperm), contains_iff hall]
    simp only [hperm.mem_iff]
    refine exists_congr fun e => and_congr_right fun he => exists_congr fun tk =>
      and_congr_right fun hdec => and_congr_right fun _ => and_congr_right fun hw => ?_
    rw [h.verifies_perm hperm he hdec hw]
  rw [Decoders.contains, Decoders.contains, parseJWKS_eq (hall.perm hperm),
    parseJWKS_eq hall, Option.map_some, Option.map_some] at hiff ⊢
  rw [Option.some_inj, Option.some_inj] at hiff
  exact congrArg some (Bool.eq_iff_iff.mpr hiff)

theorem Coherent.revoked_not_contained (h : Coherent d doc) (hall : d.WellFormed doc) {pub : Key}
    (hrev : d.Revoked doc pub) (now : ℤ) : d.contains doc pub now ≠ some true := by
  intro hcon
  obtain ⟨e, he, tk, hdec, rfl, hw, hv⟩ := (contains_iff hall pub now).mp hcon
  obtain ⟨e', he', m, hm, hno⟩ := h.revoked e he tk hdec ⟨now, hw⟩ hrev
  rcases metaOf_cases d doc tk with ⟨-, hnone⟩ | ⟨e'', he'', hm''⟩
  · exact hnone e' he' m hm
  · rw [h.uses e he tk hdec ⟨now, hw⟩ e' he' e'' he'' m _ hm hm'', hv] at hno
    cases hno

/-- Keys of a few bits. As in base64, the last bits of a spelling are ignored: `A` and `B` are the
same key. -/
def fewBits : Decoders KidUse (Fin 2) where
  kidUse := some
  jwk e := if e.x = "A" ∨ e.x = "B" then some 0 else if e.x = "E" then some 1 else none
  jwkWindow e := some ⟨e.x, "", ""⟩
  decodeEd25519X x := if x = "A" ∨ x = "B" then some 0 else if x = "E" then some 1 else none
  encodeEd25519X k := if k = 0 then "A" else "E"
  thumbprint k := some (if k = 0 then "zero" else "one")
  parseTime _ := none

end Ramp.BuyerKeys
