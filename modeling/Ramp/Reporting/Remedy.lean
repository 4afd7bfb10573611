import Ramp.Exchange.Answers
import Ramp.Exchange.Batch
import Ramp.Exchange.Terms
import Ramp.Data.Table
import Ramp.Reporting.Report

/-! The way out for an agent that owes reports: every obligation has a report that is
accepted, and accepted reports only ever lift the refusal to execute. -/

namespace Ramp.Reporting

open Ramp.Exchange Prog

variable {doc : PricingDoc} {offered : Pricing}

section

variable {Blob : Type}

def roundHalfAway (q : ℚ) : Int :=
  if 0 ≤ q then (q + 1 / 2).floor else -(-q + 1 / 2).floor

/-- What the column `quantity_tolerance NUMERIC(5,4)` keeps of a value, if it takes it. -/
def storedTolerance (tolerance : ℚ) : Option ℚ :=
  let scaled := roundHalfAway (tolerance * 10000)
  if scaled.natAbs < 100000 then some (scaled / 10000) else none

def createForOffer (plan : ObligationPlan) (pricing : PricingDoc) (id transactionID : String)
    (deadline : Time) : Option Obligation :=
  (storedTolerance plan.quantityTolerance).map fun tolerance =>
    { id, transactionID, state := .pending, deadline,
      requiredFields := plan.requiredFields, estimatedQuantity := pricing.estQty,
      quantityTolerance := tolerance }

/-- An obligation that came from an offer of this Exchange. A paid item stores the id its
reservation was given, which is never empty. -/
structure Minted (s : Service Blob) (lib : Library) where
  selected : PricingDoc
  int32 : selected.estQty < 2 ^ 31
  issuer : OfferIssuer
  rate : String
  unitCost : String
  formatted : s.formatMoney selected.rate = .ok rate ∧
    s.formatMoney selected.unitCost = .ok unitCost
  pricing : PricingDoc
  priced : s.pricingDocFromPricing (Service.offerPricing issuer selected rate unitCost) =
    .ok pricing
  tenant : Tenant
  policy : lib.validateRequiredFieldNames
    (s.decodeReportingPolicy tenant.reportingPolicy).requiredFields = .ok ()
  id : String
  transactionID : String
  named : transactionID ≠ ""
  billingID : String
  reserved : pricing.isFree = false → billingID ≠ ""
  created : Time
  deadline : Time
  obligation : Obligation
  minted : createForOffer (s.planObligation tenant pricing) pricing id transactionID deadline =
    some obligation

def Library.Lawful (lib : Library) : Prop :=
  ∀ tolerance : ℚ, 0 ≤ tolerance → tolerance < 10 →
    0 ≤ lib.toPPM tolerance ∧ lib.toPPM tolerance ≤ 10000000

theorem offerPricing_estimatedQuantity (issuer : OfferIssuer) (rate unitCost : String) :
    0 ≤ (Service.offerPricing issuer doc rate unitCost).estimatedQuantity ∧ (doc.estQty < 2 ^ 31 →
      (Service.offerPricing issuer doc rate unitCost).estimatedQuantity < 2 ^ 31) := by
  unfold Service.offerPricing
  dsimp only
  split_ifs
  · exact ⟨by omega, id⟩
  · exact ⟨le_refl 0, fun _ => by norm_num⟩

theorem pricingDocFromPricing_estQty {s : Service Blob}
    (h : s.pricingDocFromPricing offered = .ok doc) : doc.estQty = offered.estimatedQuantity := by
  obtain ⟨rate, -, h⟩ := Except.bind_eq_ok.mp h
  cases hu : offered.unitCost with
  | none =>
    rw [hu] at h
    cases h
    rfl
  | some raw =>
    rw [hu] at h
    obtain ⟨unitCost, -, h⟩ := Except.bind_eq_ok.mp h
    cases h
    rfl

theorem storedTolerance_lt {tolerance stored : ℚ} (h : storedTolerance tolerance = some stored) :
    stored < 10 := by
  unfold storedTolerance at h
  dsimp only at h
  split_ifs at h with hlt
  cases h
  have hint : roundHalfAway (tolerance * 10000) < 100000 := by omega
  have hrat : ((roundHalfAway (tolerance * 10000) : Int) : ℚ) < 100000 := by exact_mod_cast hint
  linarith

end

theorem int64_tolerance {ppm estimated : Int} (h0 : 0 ≤ ppm) (h1 : ppm ≤ 10000000)
    (he0 : 0 ≤ estimated) (he1 : estimated < 2 ^ 31) : 0 ≤ int64 (ppm * estimated) := by
  have hnonneg : 0 ≤ ppm * estimated := Int.mul_nonneg h0 he0
  have hle : ppm * estimated ≤ 10000000 * 2 ^ 31 :=
    Int.mul_le_mul h1 (le_of_lt he1) he0 (by norm_num)
  have hsmall : ppm * estimated < 2 ^ 63 := by
    omega
  rw [int64, Int.bmod_eq_of_le]
  · exact hnonneg
  · norm_num
    omega
  · norm_num at hsmall ⊢
    omega

variable {o : Obligation} {report : UsageReport} {now : Time}

namespace Library

variable {lib : Library}

theorem validateTolerance_exact (hlib : lib.Lawful) (hest : 0 ≤ o.estimatedQuantity)
    (hint : o.estimatedQuantity < 2 ^ 31) (htol : o.quantityTolerance < 10)
    (hreport : report.consumedQuantity = o.estimatedQuantity) :
    lib.validateTolerance o report = .ok () := by
  unfold validateTolerance
  rw [hreport, if_neg (by omega)]
  by_cases hzero : o.estimatedQuantity = 0
  · rw [if_pos hzero, if_pos hzero]
  · rw [if_neg hzero]
    have htolerance : 0 ≤ effectiveTolerance o ∧ effectiveTolerance o < 10 := by
      unfold effectiveTolerance defaultQuantityTolerance
      split_ifs with hneg
      · norm_num
      · exact ⟨not_lt.mp hneg, htol⟩
    obtain ⟨hppm0, hppm1⟩ := hlib _ htolerance.1 htolerance.2
    have hwithin := int64_tolerance hppm0 hppm1 hest hint
    have hinside : lib.outsideTolerance o o.estimatedQuantity = false := by
      simp only [outsideTolerance, sub_self, decide_eq_false_iff_not, not_lt]
      simpa [int64] using hwithin
    rw [hinside]
    rfl

theorem validateTimestamp_now {created : Time} (h : created ≤ now)
    (hreport : report.timestamp = some now) :
    lib.validateTimestamp (some created) now report = .ok () := by
  have hearly : ¬ now < created - timestampSkewPast :=
    not_lt.mpr (le_trans (sub_le_self created (by decide)) h)
  have hlate : ¬ now > now + timestampSkewFuture :=
    not_lt.mpr (le_add_of_nonneg_right (by decide))
  unfold validateTimestamp
  simp only [hreport, tooEarly, if_neg hearly, if_neg hlate]

end Library

def fullReport (key transactionID billingID exchange : String) (consumed : Int) (now : Time) :
    UsageReport :=
  { idempotencyKey := key, transactionID, billingID, exchange,
    usage := some ⟨consumed, ["AI_INPUT"]⟩, timestamp := some now }

variable {key exchange field : String}

theorem reportHasField_fullReport {transactionID billingID : String} {consumed : Int}
    (hkey : key ≠ "") (htx : transactionID ≠ "") (hexchange : exchange ≠ "")
    (hknown : field ∈ knownReportFields) (hbilling : field = "billing_id" → billingID ≠ "") :
    reportHasField (fullReport key transactionID billingID exchange consumed now) field = true := by
  have hcases := hknown
  simp only [knownReportFields, List.mem_cons, List.not_mem_nil, or_false] at hcases
  rcases hcases with rfl | rfl | rfl | rfl | rfl | rfl | rfl
  · simp [reportHasField, knownReportFields, fullReport, hbilling rfl]
  all_goals simp [reportHasField, knownReportFields, fullReport, hkey, htx, hexchange]

section

variable {Blob : Type} {s : Service Blob} {lib : Library}

theorem requiredFieldsFor_known {policy : ReportingPolicy} {pricing : PricingDoc}
    (h : lib.validateRequiredFieldNames policy.requiredFields = .ok ())
    (hm : field ∈ requiredFieldsFor policy pricing) :
    field ∈ knownReportFields ∧ (field = "billing_id" → pricing.isFree = false) := by
  have hknown := Library.validateRequiredFieldNames_ok.mp h
  unfold requiredFieldsFor at hm
  split_ifs at hm with hfree
  · obtain ⟨hm, hne⟩ := List.mem_filter.mp hm
    exact ⟨hknown field hm, fun heq => absurd heq (by simpa using hne)⟩
  · exact ⟨hknown field hm, fun _ => by simpa using hfree⟩

theorem Minted.fullReport_accepted (hlib : lib.Lawful) (m : Minted s lib) (hkey : key ≠ "")
    (hexchange : exchange ≠ "") (hnow : m.created ≤ now) :
    lib.validateUsageReport
      { obligation := m.obligation, transactionID := m.transactionID, billingID := m.billingID,
        createdAt := some m.created, now,
        report := fullReport key m.transactionID m.billingID exchange m.pricing.estQty now } =
      .ok () := by
  obtain ⟨tolerance, htol, ho⟩ := Option.map_eq_some_iff.mp m.minted
  have hq := @offerPricing_estimatedQuantity m.selected m.issuer m.rate m.unitCost
  rw [← pricingDocFromPricing_estQty m.priced] at hq
  have hest : m.obligation.estimatedQuantity = m.pricing.estQty := by rw [← ho]
  have hstored : m.obligation.quantityTolerance < 10 := by
    rw [← ho]
    exact storedTolerance_lt htol
  refine Library.validateUsageReport_ok.mpr ⟨fun field hm => ?_, ?_, rfl, ?_⟩
  · dsimp only at hm
    rw [← ho] at hm
    obtain ⟨hknown, hbilling⟩ := requiredFieldsFor_known m.policy hm
    exact reportHasField_fullReport hkey m.named hexchange hknown
      fun hfield => m.reserved (hbilling hfield)
  · exact Library.validateTolerance_exact hlib (hest ▸ hq.1) (hest ▸ hq.2 m.int32) hstored hest.symm
  · exact Library.validateTimestamp_now hnow rfl

end

variable {o' : Obligation}

namespace Obligation

def AcceptedAs (o o' : Obligation) : Prop :=
  ∃ sourceReportID issuedReportID consumed now,
    o.markValidationValidated sourceReportID issuedReportID consumed now = some o'

def pastDeadline (o : Obligation) (asOf : Time) : Bool := o.deadline < asOf

def overdue (o : Obligation) (asOf : Time) : Bool :=
  o.state = .pending ∧ o.pastDeadline asOf

theorem AcceptedAs.pastDeadline_eq (h : o.AcceptedAs o') (asOf : Time) :
    o'.pastDeadline asOf = o.pastDeadline asOf := by
  obtain ⟨sourceReportID, issuedReportID, consumed, now, h⟩ := h
  unfold markValidationValidated at h
  split_ifs at h
  cases h
  rfl

theorem AcceptedAs.not_overdue (h : o.AcceptedAs o') (asOf : Time) : o'.overdue asOf = false := by
  obtain ⟨sourceReportID, issuedReportID, consumed, now, h⟩ := h
  unfold markValidationValidated at h
  split_ifs at h
  cases h
  simp [overdue]

end Obligation

abbrev Reported (obligations obligations' : List Obligation) : Prop :=
  List.Forall₂ (fun o o' => o' = o ∨ o.AcceptedAs o') obligations obligations'

/-- One row of `CountObligationsByStateAndDueness`, if the bucket is not empty. -/
def bucketOf (obligations : List Obligation) (asOf : Time) (bucket : ObligationState × Bool) :
    Option ((ObligationState × Bool) × Int) :=
  let n := obligations.countP fun o => (o.state, o.pastDeadline asOf) = bucket
  if n = 0 then none else some (bucket, n)

def countByStateAndDueness (obligations : List Obligation) (asOf : Time) : ObligationCounts :=
  ⟨[(.pending, true), (.pending, false), (.received, true), (.received, false)].filterMap
    (bucketOf obligations asOf)⟩

section

variable {obligations : List Obligation} {asOf : Time}

theorem lookup_filterMap {α β : Type} [BEq α] [LawfulBEq α] {keys : List α} {f : α → Option (α × β)}
    (hf : ∀ k v, f k = some v → v.1 = k) (k : α) :
    (keys.filterMap f).lookup k = if k ∈ keys then (f k).map Prod.snd else none := by
  induction keys with
  | nil => rfl
  | cons k' keys ih =>
    cases hk' : f k' with
    | none =>
      rw [List.filterMap_cons_none hk', ih]
      by_cases hk : k = k'
      · subst hk
        simp [hk']
      · simp [hk]
    | some v =>
      rw [List.filterMap_cons_some hk', List.lookup_cons]
      obtain rfl := hf k' v hk'
      by_cases hk : k = v.1
      · subst hk
        simp [hk']
      · simp [beq_eq_false_iff_ne.mpr hk, ih, hk]

theorem bucketOf_key (bucket : ObligationState × Bool) (v : (ObligationState × Bool) × Int)
    (h : bucketOf obligations asOf bucket = some v) : v.1 = bucket := by
  unfold bucketOf at h
  dsimp only at h
  split_ifs at h
  cases h
  rfl

theorem bucketOf_count (bucket : ObligationState × Bool) :
    ((bucketOf obligations asOf bucket).map Prod.snd).getD 0 =
      (obligations.countP fun o => (o.state, o.pastDeadline asOf) = bucket : Nat) := by
  unfold bucketOf
  dsimp only
  split_ifs with h
  · simp [h]
  · rfl

theorem inBucket_count {state : ObligationState} {past : Bool} :
    (countByStateAndDueness obligations asOf).inBucket state past =
      (obligations.countP fun o => (o.state, o.pastDeadline asOf) = (state, past) : Nat) := by
  have hmem : (state, past) ∈ [(ObligationState.pending, true), (.pending, false),
      (.received, true), (.received, false)] := by
    cases state <;> cases past <;> decide
  unfold ObligationCounts.inBucket countByStateAndDueness
  rw [lookup_filterMap bucketOf_key, if_pos hmem, bucketOf_count]

theorem countP_pastDeadline : obligations.countP (·.pastDeadline asOf) =
    (obligations.countP fun o => (o.state, o.pastDeadline asOf) = (.pending, true)) +
      obligations.countP fun o => (o.state, o.pastDeadline asOf) = (.received, true) := by
  induction obligations with
  | nil => rfl
  | cons o obligations ih =>
    rw [List.countP_cons, List.countP_cons, List.countP_cons, ih]
    cases o.state <;> cases o.pastDeadline asOf <;> simp <;> omega

theorem pastDeadline_count : (countByStateAndDueness obligations asOf).pastDeadline =
      (obligations.countP (·.pastDeadline asOf) : Nat) := by
  have hsum : ∀ keys : List (ObligationState × Bool),
      (((keys.filterMap (bucketOf obligations asOf)).filter fun b => b.1.2).map Prod.snd).sum =
        (((keys.filter Prod.snd).map fun bucket =>
          ((obligations.countP fun o =>
            (o.state, o.pastDeadline asOf) = bucket : Nat) : Int)).sum) := by
    intro keys
    induction keys with
    | nil => rfl
    | cons key keys ih =>
      have hkey := @bucketOf_count obligations asOf key
      cases hb : bucketOf obligations asOf key with
      | none =>
        rw [hb] at hkey
        rw [List.filterMap_cons_none hb, ih, List.filter_cons]
        split_ifs
        · rw [List.map_cons, List.sum_cons, ← hkey]
          simp
        · rfl
      | some v =>
        rw [hb] at hkey
        rw [List.filterMap_cons_some hb, List.filter_cons, List.filter_cons, bucketOf_key key v hb]
        split_ifs
        · rw [List.map_cons, List.map_cons, List.sum_cons, List.sum_cons, ih, ← hkey]
          rfl
        · exact ih
  unfold ObligationCounts.pastDeadline countByStateAndDueness
  rw [hsum, countP_pastDeadline]
  simp

theorem overdue_count : (countByStateAndDueness obligations asOf).inBucket .pending true =
      (obligations.countP (·.overdue asOf) : Nat) := by
  rw [inBucket_count]
  congr 1
  simp [Obligation.overdue]

/-- The clock shows `asOf` and the obligations are counted as they are. -/
def agentView {Blob : Type} (obligations : List Obligation) (asOf : Time) :
    (op : Exchange.Op Blob) → Unit → Exchange.Res op → Option Unit
  | .now, _, r => if r = asOf then some () else none
  | .obligationCounts _ _ now, _, r =>
    if r = .ok (countByStateAndDueness obligations now) then some () else none
  | _, _, _ => some ()

def GatePasses (Blob : Type) (obligations : List Obligation) (asOf : Time) (tenant : Tenant)
    (agentID : String) : Prop :=
  Spec (agentView obligations asOf) (fun _ _ => True) (fun _ r => r = .ok ())
    (Service.denyIfReportingOverdue tenant agentID : Svc Blob Unit).run ()

variable {tenant : Tenant} {agentID : String} {obligations' : List Obligation} {Blob : Type}

theorem gatePasses_iff : GatePasses Blob obligations asOf tenant agentID ↔
      defaultOverdueRule.blocks (obligations.countP (·.overdue asOf) : Nat)
        (obligations.countP (·.pastDeadline asOf) : Nat) = false := by
  rw [← overdue_count, ← pastDeadline_count]
  constructor
  · intro h
    have hcounts := (h.2 asOf () (by simp [agentView])).2
      (.ok (countByStateAndDueness obligations asOf)) () (by simp [agentView])
    by_contra hblocks
    rw [Bool.not_eq_false] at hblocks
    change Spec _ _ _ (ExceptT.run (if _ then _ else _)) _ at hcounts
    rw [if_pos hblocks] at hcounts
    cases hcounts
  · intro hblocks
    refine .ask trivial fun now t ht => ?_
    simp only [agentView, Option.ite_none_right_eq_some] at ht
    obtain rfl := ht.1
    refine .ask trivial fun r t ht => ?_
    simp only [agentView, Option.ite_none_right_eq_some] at ht
    obtain rfl := ht.1
    dsimp only
    rw [hblocks]
    exact .pure rfl

theorem blocks_mono {overdue overdue' due : Int} (h : overdue' ≤ overdue)
    (hb : defaultOverdueRule.blocks overdue due = false) :
    defaultOverdueRule.blocks overdue' due = false := by
  have hb := of_decide_eq_false hb
  refine decide_eq_false ?_
  dsimp only [defaultOverdueRule] at hb ⊢
  omega

theorem Reported.counts (h : Reported obligations obligations') :
    obligations'.countP (·.overdue asOf) ≤ obligations.countP (·.overdue asOf) ∧
      obligations'.countP (·.pastDeadline asOf) = obligations.countP (·.pastDeadline asOf) := by
  induction h with
  | nil => exact ⟨le_refl _, rfl⟩
  | @cons o o' os os' hstep _ ih =>
    simp only [List.countP_cons]
    rcases hstep with rfl | hacc
    · omega
    · rw [hacc.pastDeadline_eq, hacc.not_overdue]
      simp only [Bool.false_eq_true, if_false]
      omega

theorem Reported.gatePasses (h : Reported obligations obligations')
    (hp : GatePasses Blob obligations asOf tenant agentID) :
    GatePasses Blob obligations' asOf tenant agentID := by
  obtain ⟨hoverdue, hdue⟩ := @Reported.counts _ asOf _ h
  rw [gatePasses_iff] at hp ⊢
  rw [hdue]
  exact blocks_mono (by exact_mod_cast hoverdue) hp

theorem Reported.set {i : Nat} (ho : obligations[i]? = some o) (h : o.AcceptedAs o') :
    Reported obligations (obligations.set i o') := by
  induction obligations generalizing i with
  | nil => exact .nil
  | cons p obligations ih =>
    cases i with
    | zero =>
      cases ho
      exact .cons (.inr h) (List.forall₂_same.mpr fun _ _ => .inl rfl)
    | succ i => exact .cons (.inl rfl) (ih ho)

theorem gatePasses_of_none_overdue (h : ∀ o ∈ obligations, o.overdue asOf = false) :
    GatePasses Blob obligations asOf tenant agentID := by
  have hzero : obligations.countP (·.overdue asOf) = 0 :=
    List.countP_eq_zero.mpr fun o ho => by rw [h o ho]; decide
  rw [gatePasses_iff, hzero]
  refine decide_eq_false ?_
  dsimp only [defaultOverdueRule]
  omega

theorem Reported.none_overdue
    (h : List.Forall₂ (fun o o' => (o' = o ∧ o.overdue asOf = false) ∨ o.AcceptedAs o')
      obligations obligations') : ∀ o ∈ obligations', o.overdue asOf = false := by
  intro o' ho'
  obtain ⟨o, -, hstep⟩ := forall₂_mem_right h ho'
  rcases hstep with ⟨rfl, hnot⟩ | hacc
  · exact hnot
  · exact hacc.not_overdue asOf

end

section

variable {Blob : Type} {s : Service Blob} {lib : Library}

/-- Every obligation has a report that is accepted, at every time from its creation on; when
the reports of all overdue obligations are accepted the agent is not refused; and no accepted
report ever makes the Exchange refuse an agent that it did not refuse. -/
theorem reports_lift_refusal (hlib : lib.Lawful) :
    (∀ (m : Minted s lib) (now : Time), m.created ≤ now → ∃ report : UsageReport,
      report.transactionID = m.transactionID ∧ report.idempotencyKey ≠ "" ∧
      lib.validateUsageReport
        { obligation := m.obligation, transactionID := m.transactionID, billingID := m.billingID,
          createdAt := some m.created, now, report } = .ok ()) ∧
    (∀ (obligations obligations' : List Obligation) (asOf : Time) (tenant : Tenant)
      (agentID : String),
      List.Forall₂ (fun o o' => (o' = o ∧ o.overdue asOf = false) ∨ o.AcceptedAs o')
        obligations obligations' → GatePasses Blob obligations' asOf tenant agentID) ∧
    (∀ (obligations : List Obligation) (i : Nat) (o o' : Obligation) (asOf : Time)
      (tenant : Tenant) (agentID : String),
      obligations[i]? = some o → o.AcceptedAs o' →
      GatePasses Blob obligations asOf tenant agentID →
      GatePasses Blob (obligations.set i o') asOf tenant agentID) := by
  refine ⟨fun m now hnow => ?_, fun _ _ _ _ _ h => ?_, fun _ _ _ _ _ _ _ ho hacc hp => ?_⟩
  · exact ⟨_, rfl, (by decide : "report" ≠ ""),
      m.fullReport_accepted hlib (by decide : "report" ≠ "") (by decide : "exchange" ≠ "") hnow⟩
  · exact gatePasses_of_none_overdue (Reported.none_overdue h)
  · exact (Reported.set ho hacc).gatePasses hp

end

theorem exactLibrary_lawful : exactLibrary.Lawful := by
  intro tolerance h0 h10
  have hscale : (toleranceScale : ℚ) = 1000000 := by norm_num [toleranceScale]
  change 0 ≤ (tolerance * toleranceScale).floor ∧ (tolerance * toleranceScale).floor ≤ 10000000
  rw [hscale]
  constructor
  · exact Rat.le_floor_iff.mpr (by push_cast; linarith)
  · have hfloor := Rat.floor_le (tolerance * 1000000)
    have hlt : ((tolerance * 1000000).floor : ℚ) < 10000000 := by linarith
    exact le_of_lt (by exact_mod_cast hlt)

def meteredPages : Minted plainService exactLibrary where
  selected := ⟨"PER_UNIT", 1, "USD", 1, "page", 3, none⟩
  int32 := by decide
  issuer := ⟨0, id, fun _ _ _ _ _ => "", fun _ => .ok ""⟩
  rate := "1"
  unitCost := "1"
  formatted := ⟨rfl, rfl⟩
  pricing := ⟨"PER_UNIT", 1, "USD", 1, "page", 3, none⟩
  priced := rfl
  tenant := plainSurroundings.tenant
  policy := rfl
  id := "o1"
  transactionID := "t1"
  named := by decide
  billingID := "b1"
  reserved _ := by decide
  created := 100
  deadline := 200
  obligation :=
    { id := "o1", transactionID := "t1", state := .pending,
      deadline := 200, requiredFields := [], estimatedQuantity := 3, quantityTolerance := 1 / 5 }
  minted := by decide +kernel

def reportedPages : Obligation :=
  { meteredPages.obligation with
    state := .received, consumedQuantity := some 3, receivedAt := some 1000,
    validationOutcome := some .validated, validatedAt := some 1000,
    sourceReportID := some "report", issuedReportID := some "r1" }

/-- Long after the deadline the report is still accepted, and accepting it lets the agent
execute again. -/
theorem reports_lift_refusal_metered_pages :
    ¬ GatePasses Payload [meteredPages.obligation] 1000 meteredPages.tenant "agent" ∧
    (∃ report, exactLibrary.validateUsageReport
      { obligation := meteredPages.obligation, transactionID := "t1", billingID := "b1",
        createdAt := some 100, now := 1000, report } = .ok ()) ∧
    meteredPages.obligation.AcceptedAs reportedPages ∧
    GatePasses Payload [reportedPages] 1000 meteredPages.tenant "agent" ∧
    GatePasses Payload (List.replicate 6 reportedPages) 1000 meteredPages.tenant "agent" := by
  obtain ⟨hreport, hall, hone⟩ := @reports_lift_refusal _ plainService _ exactLibrary_lawful
  have hacc : meteredPages.obligation.AcceptedAs reportedPages := ⟨"report", "r1", 3, 1000, rfl⟩
  refine ⟨fun h => ?_, ?_, hacc, ?_, ?_⟩
  · exact absurd (gatePasses_iff.mp h) (by decide +kernel)
  · obtain ⟨report, -, -, hok⟩ := hreport meteredPages 1000 (by decide)
    exact ⟨report, hok⟩
  · exact hall _ _ 1000 _ _ (.cons (.inr hacc) .nil)
  · exact hone (List.replicate 5 reportedPages ++ [meteredPages.obligation]) 5 _ _ 1000 _ _ rfl hacc
      (gatePasses_iff.mpr (by decide +kernel))

end Ramp.Reporting
