import Mathlib.Algebra.Order.Round
import Mathlib.Data.Rat.Floor
import Mathlib.Tactic.Linarith
import Mathlib.Tactic.NormNum
import Mathlib.Tactic.Positivity
import Ramp.Broker.Absence

/-! The budget of an agent in one period. The gate counts exact decimal costs in units
of 10⁻⁸ that are held in 64 bits. -/

namespace Ramp.Broker.Discovery

open Prog

structure State where
  consumed : String → Int

variable {cost : Int}

namespace State

def check (s : State) (agentID : String) (limit : Int) : Decision :=
  let consumed := s.consumed agentID
  let remaining := wrap64 (limit - consumed)
  { allowed := remaining ≥ 0, remaining, limit, consumed }

def record (s : State) (agentID : String) (cost : Int) : State :=
  if cost ≤ 0 then s
  else ⟨Function.update s.consumed agentID (wrap64 (s.consumed agentID + cost))⟩

def step : (op : Op) → State → Res op → Option State
  | .budgetCheck agentID limit, s, .ok dec => if dec = s.check agentID limit then some s else none
  | .budgetRecord agentID cost, s, .recorded => some (s.record agentID cost)
  | .budgetRecord agentID cost, s, .failed _ applied =>
    some (if applied then s.record agentID cost else s)
  | _, s, _ => some s

theorem record_consumed_ne {s : State} {agent agentID : String} (h : agent ≠ agentID) :
    (s.record agentID cost).consumed agent = s.consumed agent := by
  unfold record
  split_ifs
  · rfl
  · exact Function.update_of_ne h _ _

theorem record_consumed_self {s : State} {agent : String} :
    (s.record agent cost).consumed agent = s.consumed agent ∨
      (s.record agent cost).consumed agent = wrap64 (s.consumed agent + cost) := by
  unfold record
  split_ifs
  · exact .inl rfl
  · exact .inr (Function.update_self _ _ _)

end State

def Op.Records (agent : String) : Op → Prop
  | .budgetRecord agentID _ => agentID = agent
  | _ => False

instance (agent : String) : DecidablePred (Op.Records agent)
  | .budgetRecord agentID _ => inferInstanceAs (Decidable (agentID = agent))
  | .search _ | .probe _ | .getByDomain _ | .resolveEndpoint _ | .signForward _
  | .discoverResources _ _ _ | .sort _ | .budgetCheck _ _ | .recordSelection _ => .isFalse id

variable {t : State} {op : Op} {r : Res op}

theorem step_consumed {s : State} {agent : String} (h : State.step op s r = some t)
    (hop : ¬ op.Records agent) : t.consumed agent = s.consumed agent := by
  cases op with
  | budgetRecord agentID cost =>
    have hne : agent ≠ agentID := fun heq => hop heq.symm
    cases r with
    | recorded =>
      cases h
      exact State.record_consumed_ne hne
    | failed text applied =>
      cases h
      split_ifs
      · exact State.record_consumed_ne hne
      · rfl
  | budgetCheck agentID limit =>
    cases r with
    | error e =>
      cases h
      rfl
    | ok dec =>
      obtain ⟨-, h⟩ := Option.ite_none_right_eq_some.mp h
      cases h
      rfl
  | _ =>
    cases h
    rfl

/-- A record is for the agent of the request, and if the request has a budget it comes right
after a check that covers it. -/
def RecordGuard (req : Request) (h : History Op Res) : Op → Prop
  | .budgetRecord agentID cost => agentID = req.agentID ∧
    (req.agentID ≠ "" → 0 < req.budgetMinor → ∃ pre dec,
      h = pre ++ [⟨.budgetCheck req.agentID req.budgetMinor, .ok dec⟩] ∧
      wrap64 (dec.consumed + cost) ≤ dec.limit)
  | _ => True

namespace Resolver

variable {r : Resolver} {req : Request} {h : History Op Res}

theorem quiet_passes : Passes recordCall (RecordGuard req) (fun _ => True) Op.Quiet where
  allows h op _ hop := by
    cases op with
    | budgetRecord agentID cost => exact hop.elim
    | _ => trivial
  keeps _ _ _ _ _ _ _ := trivial

theorem checkBudget_spec (offer : Offer) :
    Spec recordCall (RecordGuard req) (fun h' x => x = .ok true → req.agentID ≠ "" →
      0 < req.budgetMinor → ∃ pre dec,
        h' = pre ++ [⟨.budgetCheck req.agentID req.budgetMinor, .ok dec⟩] ∧
        wrap64 (dec.consumed + r.costFixed offer) ≤ dec.limit)
      (r.checkBudget req.agentID req.budgetMinor offer).run h := by
  unfold checkBudget
  split_ifs with hskip
  · refine .pure fun _ hagent hbudget => ?_
    rcases hskip with hempty | hle
    · exact absurd hempty hagent
    · omega
  refine .ask trivial fun reply t ht => ?_
  cases ht
  cases reply with
  | error e => exact .throw fun hx => by cases hx
  | ok dec =>
    dsimp only
    split_ifs with hallowed hover
    · exact .pure fun hx => by cases hx
    · exact .pure fun _ _ _ => ⟨h, dec, rfl, not_lt.mp hover⟩
    · exact .pure fun hx => by cases hx

theorem auditSelection_quiet (requestID : String) (req : Request) (ranked : List Candidate)
    (outcome : String) : Only Op.Quiet (auditSelection requestID req ranked outcome).run :=
  Only.ask trivial fun _ => .pure

theorem resolve_guarded {σ : Type} {step : (op : Op) → σ → Res op → Option σ} {G : σ → Op → Prop}
    (hquiet : Passes step G (fun _ => True) Op.Quiet) (hcheck : ∀ offer s, Spec step G
      (fun t x => x = .ok true → G t (.budgetRecord req.agentID (r.costFixed offer)))
      (r.checkBudget req.agentID req.budgetMinor offer).run s) (requestID : String) (s : σ) :
    Spec step G (fun _ _ => True) (r.resolve requestID req).run s := by
  have hscanned : Scanned { found := true } {} :=
    ⟨rfl, fun _ _ hget => (by cases hget), rfl, ⟨rfl, rfl, rfl, rfl⟩⟩
  have hspec : ∀ {α : Type} {p : Prog Op Res α}, Only Op.Quiet p → ∀ s,
      Spec step G (fun _ _ => True) p s := fun hp s => hp.spec_of_passes hquiet trivial
  refine .seq (hspec (Scans.silent candidateDomains_silent {}).quiet s) (fun _ _ _ => trivial)
    fun t domains _ => ?_
  refine .seq (hspec (probeDomains_sees .start).quiet t) (fun _ _ _ => trivial) fun t x _ => ?_
  dsimp only
  split_ifs
  · exact .pure trivial
  refine .seq (hspec (discover_sees hscanned rfl).quiet t) (fun _ _ _ => trivial) fun t out _ => ?_
  rcases out with refusal | ⟨groups, flags⟩
  · exact .pure trivial
  dsimp only
  split
  · exact .pure trivial
  next winner _ =>
  refine .seq (hcheck winner.offer t) (fun _ _ _ => trivial) fun t ok hok => ?_
  cases ok with
  | false => exact hspec (.seq (auditSelection_quiet _ _ _ _) fun _ => .pure) t
  | true =>
    refine .ask (hok rfl) fun reply t' _ => ?_
    cases reply with
    | failed e applied => exact .throw trivial
    | recorded =>
      exact hspec (.seq (auditSelection_quiet _ _ _ _) fun _ => .pure) t'

theorem resolve_spec (requestID : String) (req : Request) :
    Spec recordCall (RecordGuard req) (fun _ _ => True) (r.resolve requestID req).run [] := by
  refine resolve_guarded quiet_passes (fun offer h => ?_) requestID []
  refine (checkBudget_spec offer).mono (fun _ _ hg => hg) fun t x hx hok => ?_
  exact ⟨rfl, fun hagent hbudget => hx hok hagent hbudget⟩

end Resolver

section

variable {ι : Type} [DecidableEq ι] {rs : ι → Resolver} {ids : ι → String} {reqs : ι → Request}
  {s : State} {c : Pool Op Res State ι (Except Error Response)} {tr : Trace Op Res ι}
  {agent : String} {limit : Int}

def resolves (rs : ι → Resolver) (ids : ι → String) (reqs : ι → Request) (s : State) :
    Pool Op Res State ι (Except Error Response) :=
  ⟨s, fun i => ((rs i).resolve (ids i) (reqs i)).run⟩

abbrev ResolveRun (rs : ι → Resolver) (ids : ι → String) (reqs : ι → Request) (s : State)
    (tr : Trace Op Res ι) (c : Pool Op Res State ι (Except Error Response)) : Prop :=
  Run State.step (fun _ _ => False) (resolves rs ids reqs s) tr c

/-- When a call records consumption, nothing was recorded for the agent since its last call,
which was the check. -/
def Undisturbed (tr : Trace Op Res ι) (i : ι) (e : Event Op Res) : Prop :=
  match e.op with
  | .budgetRecord agentID _ => ∀ x ∈ tr.since i, ¬ x.2.op.Records agentID
  | _ => True

instance (tr : Trace Op Res ι) (i : ι) (e : Event Op Res) : Decidable (Undisturbed tr i e) := by
  unfold Undisturbed
  split <;> infer_instance

/-- The consumption is within the budget, and a check still describes it as long as nothing
was recorded since. -/
structure Budgeted (agent : String) (limit : Int) (tr : Trace Op Res ι) (s : State) : Prop where
  within : s.consumed agent ≤ limit
  fresh : ∀ i pre dec, tr.own i = pre ++ [⟨.budgetCheck agent limit, .ok dec⟩] →
    (∀ x ∈ tr.since i, ¬ x.2.op.Records agent) →
    dec.consumed = s.consumed agent ∧ dec.limit = limit

theorem Budgeted.fresh_snoc {i : ι} (hb : Budgeted agent limit tr s)
    (hstep : State.step op s r = some t) :
    ∀ j pre dec, Trace.own (tr ++ [(i, ⟨op, r⟩)]) j = pre ++ [⟨.budgetCheck agent limit, .ok dec⟩] →
      (∀ x ∈ Trace.since (tr ++ [(i, ⟨op, r⟩)]) j, ¬ x.2.op.Records agent) →
      dec.consumed = t.consumed agent ∧ dec.limit = limit := by
  intro j pre dec hown hsince
  by_cases hij : i = j
  · subst hij
    rw [Trace.own_snoc_self] at hown
    obtain ⟨-, hlast⟩ := List.append_inj' hown rfl
    cases (List.cons.inj hlast).1
    obtain ⟨hdec, ht⟩ := Option.ite_none_right_eq_some.mp hstep
    cases ht
    rw [hdec]
    exact ⟨rfl, rfl⟩
  · rw [Trace.own_snoc_ne _ hij] at hown
    rw [Trace.since_snoc_ne _ hij] at hsince
    rw [step_consumed hstep (hsince (i, ⟨op, r⟩) List.mem_cons_self)]
    exact hb.fresh j pre dec hown fun x hx => hsince x (List.mem_cons_of_mem _ hx)

theorem Budgeted.step {i : ι} (hb : Budgeted agent limit tr s) (hagent : agent ≠ "")
    (hlimit : 0 < limit) (hreq : (reqs i).agentID = agent → (reqs i).budgetMinor = limit)
    (hg : RecordGuard (reqs i) (tr.own i) op) (hquiet : Undisturbed tr i ⟨op, r⟩)
    (hstep : State.step op s r = some t) : Budgeted agent limit (tr ++ [(i, ⟨op, r⟩)]) t := by
  refine ⟨?_, hb.fresh_snoc hstep⟩
  by_cases hop : op.Records agent
  · cases op with
    | budgetRecord agentID cost =>
      obtain rfl : agentID = agent := hop
      obtain ⟨hid, hcheck⟩ := hg
      have hbudget := hreq hid.symm
      rw [← hid, hbudget] at hcheck
      obtain ⟨pre, dec, hown, hcovers⟩ := hcheck hagent hlimit
      obtain ⟨hconsumed, hdec⟩ := hb.fresh i pre dec hown hquiet
      rw [hconsumed, hdec] at hcovers
      have hrecord : (s.record agentID cost).consumed agentID ≤ limit := by
        rcases @State.record_consumed_self cost s agentID with heq | heq
        · exact heq ▸ hb.within
        · exact heq ▸ hcovers
      cases r with
      | recorded =>
        cases hstep
        exact hrecord
      | failed text applied =>
        cases hstep
        split_ifs
        · exact hrecord
        · exact hb.within
    | _ => exact hop.elim
  · rw [step_consumed hstep hop]
    exact hb.within

/-- If no other resolve of the agent records between the check and the record of one, the
recorded consumption never exceeds the budget. -/
theorem consumption_within_budget (hagent : agent ≠ "") (hlimit : 0 < limit)
    (hreqs : ∀ i, (reqs i).agentID = agent → (reqs i).budgetMinor = limit)
    (hs : s.consumed agent ≤ limit) (hr : ResolveRun rs ids reqs s tr c)
    (hundisturbed : tr.Always Undisturbed) : c.shared.consumed agent ≤ limit := by
  have hspec : ∀ i, Spec recordCall (RecordGuard (reqs i)) (fun _ _ => True)
      ((resolves rs ids reqs s).threads i) [] := fun i => Resolver.resolve_spec (ids i) (reqs i)
  have hinv : tr.Always Undisturbed → Budgeted agent limit tr c.shared := by
    refine Run.invariant (fun tr s => tr.Always Undisturbed → Budgeted agent limit tr s) hspec hr
      ?_ ?_ ?_
    · exact fun _ => ⟨hs, fun i pre dec hown => by simp at hown⟩
    · intro tr s i op r t hb hg hstep halways
      exact (hb halways.left).step hagent hlimit (hreqs i) hg halways.last hstep
    · exact fun _ _ _ _ hmove => hmove.elim
  exact (hinv hundisturbed).within

end

/-- The answers of `discoveryAnswer`, with the budget read from the store. -/
def budgetAnswer : (op : Op) → State → Res op
  | .budgetCheck agentID limit, s => .ok (s.check agentID limit)
  | op, _ => discoveryAnswer honestExchanges op ()

def onePage : Request :=
  { agentID := "agent.example", uris := ["https://a.example/1"], budgetMinor := 500000000 }

theorem consumption_within_budget_one_after_other :
    ∃ tr c, ResolveRun (fun _ : Bool => plainResolver) (fun _ => "r") (fun _ => onePage)
        ⟨fun _ => 0⟩ tr c ∧ (c.threads false).ok?.map Response.exchangeID = some "x.example" ∧
      (c.threads true).ok?.map Response.absenceReason = some .notAuthorized ∧
      0 < c.shared.consumed "agent.example" ∧ c.shared.consumed "agent.example" ≤ 500000000 := by
  have hrun : ∃ tr c, ResolveRun (fun _ : Bool => plainResolver) (fun _ => "r") (fun _ => onePage)
        ⟨fun _ => 0⟩ tr c ∧
      (c.threads false).ok?.map Response.exchangeID = some "x.example" ∧
      (c.threads true).ok?.map Response.absenceReason = some .notAuthorized ∧
      0 < c.shared.consumed "agent.example" ∧ tr.Always Undisturbed :=
    Pool.exists_run (List.replicate 9 ⟨false, budgetAnswer⟩ ++
      List.replicate 8 ⟨true, budgetAnswer⟩) (by decide +kernel)
  obtain ⟨tr, c, hr, hfirst, hsecond, hpos, hundisturbed⟩ := hrun
  exact ⟨tr, c, hr, hfirst, hsecond, hpos, consumption_within_budget (by decide) (by decide)
    (fun _ _ => rfl) (by decide) hr hundisturbed⟩

/-- Both resolves check before either records. -/
theorem two_resolves_exceed_budget :
    ∃ tr c, ResolveRun (fun _ : Bool => plainResolver) (fun _ => "r") (fun _ => onePage)
        ⟨fun _ => 0⟩ tr c ∧ 500000000 < c.shared.consumed "agent.example" :=
  Pool.exists_run (List.replicate 7 ⟨false, budgetAnswer⟩ ++
    List.replicate 9 ⟨true, budgetAnswer⟩ ++ List.replicate 2 ⟨false, budgetAnswer⟩)
    (by decide +kernel)

def fixedPointScale : Nat := 8

def decimalToFixedPoint (d : ℚ) : Int :=
  wrap64 ((d * 10 ^ fixedPointScale).num.tdiv (d * 10 ^ fixedPointScale).den)

variable {n : Int}

theorem wrap64_eq_self : wrap64 n = n ↔ -2 ^ 63 ≤ n ∧ n < 2 ^ 63 := by
  unfold wrap64 Int.bmod
  dsimp only
  split <;> omega

theorem wrap64_wrap64 : wrap64 (wrap64 n) = wrap64 n := Int.bmod_bmod

theorem wrap64_add_wrap64 (c : Int) : wrap64 (c + wrap64 n) = wrap64 (c + n) := by
  simp [wrap64]

variable {d : ℚ}

theorem decimalToFixedPoint_whole (h : d * 10 ^ fixedPointScale = n) :
    decimalToFixedPoint d = wrap64 n := by
  unfold decimalToFixedPoint
  rw [h, Rat.num_intCast, Rat.den_intCast]
  simp

theorem decimalToFixedPoint_floor (hd : 0 ≤ d) (hfits : d * 10 ^ fixedPointScale < 2 ^ 63) :
    decimalToFixedPoint d = ⌊d * 10 ^ fixedPointScale⌋ ∧ 0 ≤ ⌊d * 10 ^ fixedPointScale⌋ := by
  have hscaled : 0 ≤ d * 10 ^ fixedPointScale := by positivity
  have hfloor := Int.floor_nonneg.mpr hscaled
  have hlt : ⌊d * 10 ^ fixedPointScale⌋ < 2 ^ 63 := Int.floor_lt.mpr (by exact_mod_cast hfits)
  refine ⟨?_, hfloor⟩
  rw [decimalToFixedPoint, Int.tdiv_eq_ediv_of_nonneg (Rat.num_nonneg.mpr hscaled),
    ← Rat.floor_def', wrap64_eq_self]
  omega

namespace Resolver

variable (r : Resolver)

def moneyStringToFixedPoint (s : String) : Except String Int :=
  if s = "" then .ok 0 else (r.parseMoney s).map decimalToFixedPoint

def budgetMinor (amount : String) : Int :=
  match r.moneyStringToFixedPoint amount with
  | .ok n => n
  | .error _ => 0

def exactCost (o : Offer) : ℚ :=
  let qty := (o.pricing.map Pricing.estimatedQuantity).getD 0
  r.offerCharge o * ((if qty < 1 then 1 else qty : Int) : ℚ)

end Resolver

def State.spent (s : State) (agentID : String) : ℚ := s.consumed agentID / 10 ^ fixedPointScale

section

variable {r : Resolver} {offer : Offer} {budget : ℚ} {amount agentID : String} {s : State}

/-- What the gate refuses: the budget is at least one of its units, and either nothing is left of
it or the sum exceeds it, as 64 bits hold them. -/
def Refuses (r : Resolver) (agentID : String) (budget : ℚ) (offer : Offer) (s : State) : Prop :=
  let limit := decimalToFixedPoint budget
  0 < limit ∧ (wrap64 (limit - s.consumed agentID) < 0 ∨
    limit < wrap64 (s.consumed agentID + r.costFixed offer))

/-- Within 64 bits, an offer that exceeds the budget gets past the gate where the budget is below
one unit, and where it exceeds the budget by a fraction of the unit that both sums end in. -/
theorem refuses_iff (hs : 0 ≤ s.consumed agentID) (hcost : 0 ≤ r.exactCost offer)
    (hbudget : 0 < budget) (hlimit : budget * 10 ^ fixedPointScale < 2 ^ 63)
    (hsum : s.consumed agentID + r.exactCost offer * 10 ^ fixedPointScale < 2 ^ 63)
    (hover : budget < s.spent agentID + r.exactCost offer) :
    Refuses r agentID budget offer s ↔ 1 ≤ budget * 10 ^ fixedPointScale ∧
      ⌊budget * 10 ^ fixedPointScale⌋ ≠
        ⌊s.consumed agentID + r.exactCost offer * 10 ^ fixedPointScale⌋ := by
  have hscale : (0 : ℚ) < 10 ^ fixedPointScale := by positivity
  rw [State.spent, div_add' _ _ _ hscale.ne', lt_div_iff₀ hscale] at hover
  have hconsumed : (0 : ℚ) ≤ s.consumed agentID := by exact_mod_cast hs
  obtain ⟨hL, hL0⟩ := decimalToFixedPoint_floor hbudget.le hlimit
  obtain ⟨hU, hU0⟩ := decimalToFixedPoint_floor hcost (by linarith)
  have hle : ⌊budget * 10 ^ fixedPointScale⌋ ≤
      s.consumed agentID + ⌊r.exactCost offer * 10 ^ fixedPointScale⌋ := by
    rw [← Int.floor_intCast_add]
    exact Int.floor_le_floor hover.le
  have hbig : s.consumed agentID + ⌊r.exactCost offer * 10 ^ fixedPointScale⌋ < 2 ^ 63 := by
    rw [← Int.floor_intCast_add, Int.floor_lt]
    exact_mod_cast hsum
  have hone : 1 ≤ budget * 10 ^ fixedPointScale ↔ 0 < ⌊budget * 10 ^ fixedPointScale⌋ := by
    rw [Int.lt_iff_add_one_le, zero_add, Int.le_floor, Int.cast_one]
  have hcostFixed : r.costFixed offer = ⌊r.exactCost offer * 10 ^ fixedPointScale⌋ := hU
  rw [hone, Int.floor_intCast_add, Refuses, hL, hcostFixed, wrap64_eq_self.mpr (by omega),
    wrap64_eq_self.mpr (by omega)]
  omega

theorem budgetMinor_eq (hamount : amount ≠ "") (hparse : r.parseMoney amount = .ok budget) :
    r.budgetMinor amount = decimalToFixedPoint budget := by
  simp [Resolver.budgetMinor, Resolver.moneyStringToFixedPoint, hamount, hparse, Except.map]

theorem checkBudget_admits {G : State → Op → Prop} (hG : ∀ s id n, G s (.budgetCheck id n))
    (hagent : agentID ≠ "") (hamount : amount ≠ "") (hparse : r.parseMoney amount = .ok budget)
    (offer : Offer) (s : State) : Yields State.step G (fun t admitted => t = s ∧
        (admitted = true ↔ ¬ Refuses r agentID budget offer s))
      (r.checkBudget agentID (r.budgetMinor amount) offer) s := by
  rw [budgetMinor_eq hamount hparse]
  unfold Resolver.checkBudget Refuses
  split_ifs with hskip
  · have hnone := hskip.resolve_left hagent
    exact Yields.pure ⟨rfl, fun _ h => by omega, fun _ => rfl⟩
  rw [not_or, not_le] at hskip
  refine Spec.ask (hG _ _ _) fun reply t ht => ?_
  cases reply with
  | error e => exact Yields.throw
  | ok dec =>
    obtain ⟨rfl, hs⟩ := Option.ite_none_right_eq_some.mp ht
    cases hs
    dsimp only [State.check]
    simp only [decide_eq_true_eq, ge_iff_le, gt_iff_lt]
    split_ifs with hleft hover
    · exact Yields.pure ⟨rfl, by simp [hskip.2, hover]⟩
    · exact Yields.pure ⟨rfl, by simp [not_lt.mpr hleft, hover]⟩
    · exact Yields.pure ⟨rfl, by simp [hskip.2, not_le.mp hleft]⟩

/-- The cost is a whole number of units. Where it is not nothing, it is held as a positive number,
and the consumption with it stays in range. -/
def Fits (r : Resolver) (offer : Offer) (consumed : Int) : Prop :=
  ∃ n : Int, r.exactCost offer * 10 ^ fixedPointScale = n ∧
    (n = 0 ∨ 0 < wrap64 n ∧ -2 ^ 63 ≤ consumed + n ∧ consumed + n < 2 ^ 63)

theorem record_exact_iff : (s.record agentID (r.costFixed offer)).spent agentID =
      s.spent agentID + r.exactCost offer ↔ Fits r offer (s.consumed agentID) := by
  have hscale : (10 ^ fixedPointScale : ℚ) ≠ 0 := by positivity
  rw [State.spent, State.spent, div_add' _ _ _ hscale, div_left_inj' hscale]
  have hfixed : ∀ {n : Int}, r.exactCost offer * 10 ^ fixedPointScale = n →
      r.costFixed offer = wrap64 n := decimalToFixedPoint_whole
  unfold State.record
  constructor
  · split_ifs with hnone
    · exact fun h => ⟨0, by push_cast; linarith, .inl rfl⟩
    · intro h
      simp only [Function.update_self] at h
      -- the cost is what the counter moved by
      have hwhole : r.exactCost offer * 10 ^ fixedPointScale =
          ((wrap64 (s.consumed agentID + r.costFixed offer) - s.consumed agentID : Int) : ℚ) := by
        push_cast
        linarith
      refine ⟨_, hwhole, .inr ⟨hfixed hwhole ▸ not_le.mp hnone, ?_⟩⟩
      rw [add_sub_cancel]
      exact wrap64_eq_self.mp wrap64_wrap64
  · rintro ⟨n, hn, rfl | ⟨hpos, hrange⟩⟩
    · rw [hfixed hn, if_pos (by decide), hn, Int.cast_zero, add_zero]
    · rw [hfixed hn, if_neg (not_le.mpr hpos), hn]
      simp only [Function.update_self, wrap64_add_wrap64]
      rw [wrap64_eq_self.mpr hrange, Int.cast_add]

/-- A record is for the agent and for an offer that the gate does not refuse. -/
def GatedRecord (r : Resolver) (agent : String) (budget : ℚ) (s : State) : Op → Prop
  | .budgetRecord agentID cost => agentID = agent ∧
    ∃ offer, cost = r.costFixed offer ∧ ¬ Refuses r agent budget offer s
  | _ => True

theorem gatedRecord_quiet {agent : String} :
    Passes State.step (GatedRecord r agent budget) (fun _ => True) Op.Quiet where
  allows s op _ hop := by
    cases op with
    | budgetRecord agentID cost => exact hop.elim
    | _ => trivial
  keeps _ _ _ _ _ _ _ := trivial

end

def preciseResolver : Resolver :=
  { plainResolver with
    parseMoney := fun s =>
      if s = "0.000000001" then .ok (1 / 10 ^ 9)
      else if s = "0.00000001" then .ok (1 / 10 ^ 8)
      else if s = "92233720368.54775808" then .ok (2 ^ 63 / 10 ^ 8)
      else .error "not a decimal" }

def priced (rate : String) : Offer := ⟨"offer", some ⟨rate, none, 1⟩, none⟩

def Overspends (r : Resolver) (amount rate : String) (s : State) : Prop :=
  ∃ budget, r.parseMoney amount = .ok budget ∧ 0 < budget ∧
    budget < s.spent "agent" + r.exactCost (priced rate) ∧
    (eval State.step budgetAnswer
      (r.checkBudget "agent" (r.budgetMinor amount) (priced rate)).run s).map
        (fun x => x.1.toOption) = some (some true)

def oneUnit : Request := { agentID := "agent", budgetMinor := 1 }

end Ramp.Broker.Discovery
