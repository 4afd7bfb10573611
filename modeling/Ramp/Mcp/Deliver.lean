import Mathlib.Algebra.BigOperators.Group.List.Basic
import Mathlib.Algebra.GroupWithZero.Nat
import Mathlib.Algebra.Order.Group.Int
import Mathlib.Data.List.Induction

/-! The content leg of an execution. Every licensed item of the results is embedded or reported,
in the order of the items, within the byte budget of the call. -/

namespace Ramp.Mcp

variable {E : Type}

abbrev Fields := String → Option String

structure LicensedItem where
  offerID : String
  endpoint : String

structure DeliveryFailure where
  offerID : String
  url : String
  reason : String
  message : String

structure ExecuteOutput where
  items : List Fields
  deliveryFailures : List DeliveryFailure := []

/-- `identity` is `none` if it is missing or not an object. -/
structure SubmittedOffer where
  offerID : Option String
  identity : Option (Option String)

structure Content where
  url : String
  mimeType : String
  body : List UInt8

inductive Block
  | text (encoded : String)
  | resource (uri mimeType : String) (blob : List UInt8)

structure Turn (E : Type) where
  expired : Bool
  fetched : Except E Content

/-- The caps are positive `int64` values once the defaults are in place. -/
structure Toolset (E : Type) where
  maxItemContentBytes : ℤ
  maxCallContentBytes : ℤ
  item_pos : 0 < maxItemContentBytes
  call_pos : 0 < maxCallContentBytes
  item_lt : maxItemContentBytes < 2 ^ 63
  call_lt : maxCallContentBytes < 2 ^ 63
  deliveryReason : E → String × String
  redactURL : String → String
  marshal : ExecuteOutput → Option String

structure Progress where
  spent : ℤ := 0
  failures : List DeliveryFailure
  resources : List Block := []

def licensedItems (items : List Fields) : List LicensedItem :=
  items.filterMap fun item =>
    let endpoint := (item "retrieval_endpoint").getD ""
    if endpoint = "" then none else some ⟨(item "offer_id").getD "", endpoint⟩

def canonicalURLOf (offers : List SubmittedOffer) (offerID : String) : String :=
  if offerID = "" then ""
  else match offers.find? fun offer => offer.offerID.getD "" = offerID with
    | none => ""
    | some offer => match offer.identity with
      | none => ""
      | some canonical => canonical.getD ""

def embeddedResource (uri : String) (content : Content) : Block :=
  .resource uri content.mimeType content.body

def LicensedItem.failure (item : LicensedItem) (cause : String × String) : DeliveryFailure :=
  ⟨item.offerID, item.endpoint, cause.1, cause.2⟩

namespace Toolset

variable (t : Toolset E) (offers : List SubmittedOffer)

def assetURI (offerID : String) (content : Content) : String :=
  if canonicalURLOf offers offerID ≠ "" then canonicalURLOf offers offerID
  else if t.redactURL content.url ≠ "" then t.redactURL content.url
  else "urn:ramp:offer:" ++ offerID

def structuredFallback (out : ExecuteOutput) : List Block :=
  match t.marshal out with
  | none => []
  | some encoded => [.text encoded]

def skipReason (expired : Bool) (spent : ℤ) : Option (String × String) :=
  if expired then
    some ("call_deadline_exceeded", "the call's deadline passed before this item was fetched")
  else if (spent + t.maxItemContentBytes).bmod (2 ^ 64) > t.maxCallContentBytes then
    some ("call_budget_exhausted", "this call's total content budget was already spent")
  else none

def failEveryDelivery (out : ExecuteOutput) (licensed : List LicensedItem)
    (cause : String × String) : List Block × ExecuteOutput :=
  let out := { out with deliveryFailures :=
    out.deliveryFailures ++ licensed.map fun item => item.failure cause }
  (t.structuredFallback out, out)

def take (p : Progress) (item : LicensedItem) (turn : Turn E) : Progress :=
  match t.skipReason turn.expired p.spent with
  | some cause => { p with failures := p.failures ++ [item.failure cause] }
  | none =>
    match turn.fetched with
    | .error e => { p with failures := p.failures ++ [item.failure (t.deliveryReason e)] }
    | .ok content =>
      { p with
        spent := (p.spent + content.body.length).bmod (2 ^ 64)
        resources := p.resources ++
          [embeddedResource (t.assetURI offers item.offerID content) content] }

def fetchAll (turns : ℕ → Turn E) (licensed : List LicensedItem) (p : Progress) : Progress :=
  licensed.zipIdx.foldl (fun p x => t.take offers p x.1 (turns x.2)) p

/-- `session` fails as a whole or fetches the item at each place. -/
def deliver (session : Except E (ℕ → Turn E)) (out : ExecuteOutput) :
    List Block × ExecuteOutput :=
  let licensed := licensedItems out.items
  if licensed = [] then (t.structuredFallback out, out)
  else match session with
    | .error e => t.failEveryDelivery out licensed (t.deliveryReason e)
    | .ok turns =>
      let p := t.fetchAll offers turns licensed { failures := out.deliveryFailures }
      let out := { out with deliveryFailures := p.failures }
      (t.structuredFallback out ++ p.resources, out)

end Toolset

inductive Verdict
  | embedded (content : Content)
  | failed (cause : String × String)

def Verdict.size : Verdict → ℕ
  | .embedded content => content.body.length
  | .failed _ => 0

abbrev Verdicts := List (LicensedItem × Verdict)

def Verdicts.bytes (vs : Verdicts) : ℕ := (vs.map fun v => v.2.size).sum

def Verdicts.failures (vs : Verdicts) : List DeliveryFailure :=
  vs.filterMap fun v => match v.2 with
    | .embedded _ => none
    | .failed cause => some (v.1.failure cause)

def Verdicts.resources (t : Toolset E) (offers : List SubmittedOffer) (vs : Verdicts) :
    List Block :=
  vs.filterMap fun v => match v.2 with
    | .embedded content =>
      some (embeddedResource (t.assetURI offers v.1.offerID content) content)
    | .failed _ => none

variable (t : Toolset E) (offers : List SubmittedOffer)

/-- The sum of the caps is an `int64`, or the bodies of the call fit in memory. -/
def Fits (vs : Verdicts) : Prop :=
  t.maxItemContentBytes + t.maxCallContentBytes < 2 ^ 63 ∨ vs.bytes < 2 ^ 62

/-- The item at `i` is fetched before the deadline and the budget has room for one more body. -/
structure Affords (turns : ℕ → Turn E) (vs : Verdicts) (i : ℕ) (c : Content) : Prop where
  inTime : (turns i).expired = false
  fetched : (turns i).fetched = .ok c
  room : (Verdicts.bytes (vs.take i) : ℤ) + t.maxItemContentBytes ≤ t.maxCallContentBytes

structure Settles (turns : ℕ → Turn E) (failures : List DeliveryFailure) (p : Progress)
    (vs : Verdicts) : Prop where
  failed : p.failures = failures ++ vs.failures
  embedded : p.resources = vs.resources t offers
  spent : p.spent = (vs.bytes : ℤ).bmod (2 ^ 64)
  fetched : ∀ i item c, vs[i]? = some (item, .embedded c) → (turns i).fetched = .ok c
  taken : ∀ i x c, vs[i]? = some x → Affords t turns vs i c → x.2 = .embedded c
  within : (∀ v ∈ vs, (v.2.size : ℤ) ≤ t.maxItemContentBytes) → Fits t vs →
    vs.bytes ≤ t.maxCallContentBytes
  room : 0 < vs.bytes → t.maxItemContentBytes ≤ t.maxCallContentBytes

variable {t offers} {turns : ℕ → Turn E} {failures : List DeliveryFailure} {p : Progress}
  {vs : Verdicts} {item : LicensedItem}

theorem bytes_snoc (v : LicensedItem × Verdict) :
    Verdicts.bytes (vs ++ [v]) = vs.bytes + v.2.size := by
  simp [Verdicts.bytes]

theorem snoc_cases {v x : LicensedItem × Verdict} {i : ℕ} (h : (vs ++ [v])[i]? = some x) :
    (i < vs.length ∧ vs[i]? = some x) ∨ i = vs.length ∧ x = v := by
  rcases Nat.lt_trichotomy i vs.length with hlt | rfl | hgt
  · rw [List.getElem?_append_left hlt] at h
    exact .inl ⟨hlt, h⟩
  · rw [List.getElem?_concat_length] at h
    exact .inr ⟨rfl, (Option.some.inj h).symm⟩
  · rw [List.getElem?_eq_none (by simp; omega)] at h
    cases h

theorem Affords.of_snoc {v : LicensedItem × Verdict} {i : ℕ} {c : Content} (hi : i ≤ vs.length)
    (h : Affords t turns (vs ++ [v]) i c) : Affords t turns vs i c := by
  refine ⟨h.inTime, h.fetched, ?_⟩
  rw [← List.take_append_of_le_length hi]
  exact h.room

theorem Settles.fail (h : Settles t offers turns failures p vs) (cause : String × String)
    (hwhy : ∀ c, ¬ Affords t turns vs vs.length c) :
    Settles t offers turns failures
      { p with failures := p.failures ++ [item.failure cause] }
      (vs ++ [(item, .failed cause)]) := by
  have hbytes : Verdicts.bytes (vs ++ [(item, .failed cause)]) = vs.bytes := bytes_snoc _
  refine ⟨?_, ?_, ?_, fun i item' c hi => ?_, fun i x c hi hc => ?_, fun hsize hfits => ?_,
    fun hpos => ?_⟩
  · simp [h.failed, Verdicts.failures]
  · simp [h.embedded, Verdicts.resources]
  · rw [hbytes]
    exact h.spent
  · rcases snoc_cases hi with ⟨-, hi⟩ | ⟨-, heq⟩
    · exact h.fetched i item' c hi
    · cases heq
  · rcases snoc_cases hi with ⟨hlt, hi⟩ | ⟨rfl, -⟩
    · exact h.taken i x c hi (hc.of_snoc hlt.le)
    · exact absurd (hc.of_snoc le_rfl) (hwhy c)
  · unfold Fits at hfits
    rw [hbytes] at hfits ⊢
    exact h.within (fun v hv => hsize v (List.mem_append_left _ hv)) hfits
  · rw [hbytes] at hpos
    exact h.room hpos

theorem bmod_int64 {n : ℤ} (hpos : 0 ≤ n) (hlt : n < 2 ^ 63) : n.bmod (2 ^ 64) = n :=
  Int.bmod_eq_of_le_mul_two (by omega) (by omega)

theorem Settles.embed (h : Settles t offers turns failures p vs) {content : Content}
    (hfetched : (turns vs.length).fetched = .ok content)
    (hroom : (p.spent + t.maxItemContentBytes).bmod (2 ^ 64) ≤ t.maxCallContentBytes) :
    Settles t offers turns failures
      { p with
        spent := (p.spent + content.body.length).bmod (2 ^ 64)
        resources := p.resources ++
          [embeddedResource (t.assetURI offers item.offerID content) content] }
      (vs ++ [(item, .embedded content)]) := by
  have hbytes : Verdicts.bytes (vs ++ [(item, .embedded content)]) =
      vs.bytes + content.body.length := bytes_snoc _
  have hitem := t.item_pos
  have hitem' := t.item_lt
  have hcaps : t.maxItemContentBytes ≤ t.maxCallContentBytes := by
    rcases Nat.eq_zero_or_pos vs.bytes with hzero | hpos
    · have hspent : p.spent = 0 := by
        rw [h.spent, hzero]
        rfl
      rwa [hspent, Int.zero_add, bmod_int64 hitem.le hitem'] at hroom
    · exact h.room hpos
  refine ⟨?_, ?_, ?_, fun i item' c hi => ?_, fun i x c hi hc => ?_, fun hsize hfits => ?_,
    fun _ => hcaps⟩
  · simp [h.failed, Verdicts.failures]
  · simp [h.embedded, Verdicts.resources]
  · rw [h.spent, hbytes, Int.bmod_add_bmod, Int.natCast_add]
  · rcases snoc_cases hi with ⟨-, hi⟩ | ⟨rfl, heq⟩
    · exact h.fetched i item' c hi
    · cases heq
      exact hfetched
  · rcases snoc_cases hi with ⟨hlt, hi⟩ | ⟨rfl, rfl⟩
    · exact h.taken i x c hi (hc.of_snoc hlt.le)
    · cases hfetched.symm.trans hc.fetched
      rfl
  · unfold Fits at hfits
    rw [hbytes] at hfits ⊢
    have hbody : (content.body.length : ℤ) ≤ t.maxItemContentBytes :=
      hsize (item, .embedded content) (by simp)
    have hbefore : (vs.bytes : ℤ) ≤ t.maxCallContentBytes :=
      h.within (fun v hv => hsize v (List.mem_append_left _ hv)) (hfits.imp_right (by omega))
    rw [h.spent, @bmod_int64 vs.bytes (by omega) (by omega)] at hroom
    by_cases hsum : (vs.bytes : ℤ) + t.maxItemContentBytes < 2 ^ 63
    · rw [bmod_int64 (by omega) hsum] at hroom
      omega
    · rcases hfits with hcaps' | hmem
      · omega
      · push_cast
        omega

theorem Settles.skipReason_eq_none (h : Settles t offers turns failures p vs) {c : Content}
    (hc : Affords t turns vs vs.length c) :
    t.skipReason (turns vs.length).expired p.spent = none := by
  have hroom := hc.room
  have hitem := t.item_pos
  have hcall := t.call_lt
  rw [List.take_length] at hroom
  rw [Toolset.skipReason, hc.inTime, h.spent, @bmod_int64 vs.bytes (by omega) (by omega),
    bmod_int64 (by omega) (by omega), if_neg (by simp), if_neg (not_lt.mpr hroom)]

theorem fetchAll_settles (licensed : List LicensedItem) :
    ∃ vs : Verdicts, vs.map Prod.fst = licensed ∧
      Settles t offers turns failures
        (t.fetchAll offers turns licensed { failures }) vs := by
  induction licensed using List.reverseRecOn with
  | nil =>
    refine ⟨[], rfl, ?_, rfl, rfl, nofun, nofun, fun _ _ => ?_, fun hpos => ?_⟩
    · simp [Toolset.fetchAll, Verdicts.failures]
    · exact t.call_pos.le
    · cases hpos
  | append_singleton licensed item ih =>
    obtain ⟨vs, rfl, h⟩ := ih
    have hlast : t.fetchAll offers turns (vs.map Prod.fst ++ [item]) { failures } =
        t.take offers (t.fetchAll offers turns (vs.map Prod.fst) { failures }) item
          (turns vs.length) := by
      simp [Toolset.fetchAll, List.zipIdx_append]
    rw [hlast]
    unfold Toolset.take
    split
    next cause hskip =>
      refine ⟨_, by simp, h.fail cause fun c hc => ?_⟩
      rw [h.skipReason_eq_none hc] at hskip
      cases hskip
    next hnone =>
      split
      next e herror =>
        refine ⟨_, by simp, h.fail (t.deliveryReason e) fun c hc => ?_⟩
        cases herror.symm.trans hc.fetched
      next content hfetched =>
        refine ⟨_, by simp, h.embed hfetched ?_⟩
        unfold Toolset.skipReason at hnone
        split_ifs at hnone with _ hover
        exact not_lt.mp hover

def smallTools : Toolset String where
  maxItemContentBytes := 2
  maxCallContentBytes := 3
  item_pos := by decide
  call_pos := by decide
  item_lt := by decide
  call_lt := by decide
  deliveryReason e := (e, e)
  redactURL url := url
  marshal _ := none

def resultItem (offerID endpoint : String) : Fields
  | "offer_id" => some offerID
  | "retrieval_endpoint" => some endpoint
  | _ => none

def twoLicensed : ExecuteOutput :=
  { items := [resultItem "a" "u/a", resultItem "b" "", resultItem "c" "u/c"] }

def quickSession : Except String (ℕ → Turn String) :=
  .ok fun _ => ⟨false, .ok ⟨"u", "text/plain", [7, 7]⟩⟩

end Ramp.Mcp
