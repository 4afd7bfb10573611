import Ramp.Program.Schedule
import Ramp.Reporting.Report

/-! Any number of usage reports against one obligation, in any order: the first accepted one
settles it for good, and a rejected one leaves it as open as it was. A caller that may not act
for the agent of an obligation can tell nothing about it from the answer. -/

namespace Ramp.Reporting

open Ramp.Exchange Prog

variable {lib : Library} {protocolVersion : String} {caller : Caller} {req : UsageReport}
  {now markedAt : Time} {issued : String} {rc : ReportValidationContext}

section

namespace ReportValidationContext

def terms (rc : ReportValidationContext) :
    List String × Int × ℚ × String × Option Time × String × String :=
  (rc.obligation.requiredFields, rc.obligation.estimatedQuantity, rc.obligation.quantityTolerance,
    rc.billingID, rc.createdAt, rc.agentID, rc.tenantID)

structure Follows (rc rc' : ReportValidationContext) : Prop where
  terms : rc'.terms = rc.terms
  settled : rc.obligation.state = .received → rc'.obligation = rc.obligation

theorem Follows.refl (rc : ReportValidationContext) : rc.Follows rc := ⟨rfl, fun _ => rfl⟩

theorem Follows.trans {rc' rc'' : ReportValidationContext} (h : rc.Follows rc')
    (h' : rc'.Follows rc'') : rc.Follows rc'' := by
  refine ⟨h'.terms.trans h.terms, fun hs => ?_⟩
  have heq := h.settled hs
  rw [← heq] at hs ⊢
  exact h'.settled hs

structure Sound (rc : ReportValidationContext) : Prop where
  pending : rc.obligation.state = .pending → rc.obligation.issuedReportID = none
  received : rc.obligation.state = .received → rc.obligation.issuedReportID.isSome

theorem Follows.validateUsageReport {rc' : ReportValidationContext} (h : rc.Follows rc')
    (lib : Library) (req : UsageReport) (now : Time) :
    lib.validateUsageReport (rc'.input req now) = lib.validateUsageReport (rc.input req now) := by
  have ht := h.terms
  simp only [ReportValidationContext.terms, Prod.mk.injEq] at ht
  obtain ⟨hfields, hest, htol, hbill, hcreated, -, -⟩ := ht
  simp only [Library.validateUsageReport, input, hfields, hbill, hcreated,
    lib.validateTolerance_congr hest htol]

end ReportValidationContext

namespace Obligation

variable {o o' : Obligation}

theorem markValidationValidated_some {source : String} {consumed : Int}
    (h : o.markValidationValidated source issued consumed now = some o') :
    o.state = .pending ∧ o' = { o with
      state := .received, consumedQuantity := some consumed, receivedAt := some now,
      validationOutcome := some .validated, validatedAt := some now,
      sourceReportID := some source, issuedReportID := some issued } := by
  unfold markValidationValidated at h
  split_ifs at h with hp
  exact ⟨hp, (Option.some.inj h).symm⟩

theorem markValidationRejected_some {outcome : ValidationOutcome} {source : String}
    (h : o.markValidationRejected outcome source now = some o') :
    o.state = .pending ∧ o' = { o with
      validationOutcome := some outcome, validatedAt := some now,
      sourceReportID := some source } := by
  unfold markValidationRejected at h
  split_ifs at h with hp
  exact ⟨hp, (Option.some.inj h).symm⟩

end Obligation

namespace Library

/-- What the transaction of a report can do to the row it loaded: nothing, unless the
obligation is pending; and then it records a rejection or settles the obligation. -/
inductive TxEffect (req : UsageReport) (issued : String) :
    Option ReportValidationContext → TxOutcome × Option ReportValidationContext → Prop
  | refused {row : Option ReportValidationContext} (e : Error) :
      TxEffect req issued row (.refused e, none)
  | rejected {rc rc' : ReportValidationContext} (e : Error)
      (pending : rc.obligation.state = .pending) (still : rc'.obligation.state = .pending)
      (issuedReportID : rc'.obligation.issuedReportID = rc.obligation.issuedReportID)
      (terms : rc'.terms = rc.terms) : TxEffect req issued (some rc) (.rejected e, some rc')
  | accepted {rc rc' : ReportValidationContext} (pending : rc.obligation.state = .pending)
      (settled : rc'.obligation.state = .received)
      (source : rc'.obligation.sourceReportID = some req.idempotencyKey)
      (issuedReportID : rc'.obligation.issuedReportID = some issued)
      (consumed : rc'.obligation.consumedQuantity = some req.consumedQuantity)
      (terms : rc'.terms = rc.terms) : TxEffect req issued (some rc) (.accepted issued, some rc')

theorem persistRejection_effect (req : UsageReport) (rc : ReportValidationContext)
    (outcome : ValidationOutcome) (e : Error) (markedAt : Time) (issued : String) :
    TxEffect req issued (some rc) (persistRejection req rc outcome e markedAt) := by
  unfold persistRejection
  split
  · exact .refused _
  next o ho =>
    obtain ⟨hp, rfl⟩ := Obligation.markValidationRejected_some ho
    exact .rejected e hp hp rfl rfl

theorem persistValidation_effect (req : UsageReport) (rc : ReportValidationContext)
    (issued : String) (markedAt : Time) :
    TxEffect req issued (some rc) (persistValidation req rc issued markedAt) := by
  unfold persistValidation
  split
  · exact .refused _
  next o ho =>
    obtain ⟨hp, rfl⟩ := Obligation.markValidationValidated_some ho
    exact .accepted hp rfl rfl rfl rfl rfl

theorem runReportUsageTx_effect (caller : Caller) (req : UsageReport) (now markedAt : Time)
    (issued : String) (row : Option ReportValidationContext) :
    TxEffect req issued row (lib.runReportUsageTx caller req now markedAt issued row) := by
  cases row with
  | none => exact .refused _
  | some rc =>
    unfold runReportUsageTx
    dsimp only
    split
    · exact .refused _
    · split
      · exact persistRejection_effect req rc _ _ markedAt issued
      · exact persistValidation_effect req rc issued markedAt

variable {rc' : ReportValidationContext} {outcome : TxOutcome}

variable (h : TxEffect req issued (some rc) (outcome, some rc'))
include h

theorem TxEffect.follows : rc.Follows rc' := by
  cases h with
  | rejected e pending still _ terms =>
    exact ⟨terms, fun hs => by rw [pending] at hs; cases hs⟩
  | accepted pending settled _ _ _ terms =>
    exact ⟨terms, fun hs => by rw [pending] at hs; cases hs⟩

theorem TxEffect.sound (hs : rc.Sound) : rc'.Sound := by
  cases h with
  | rejected e pending still issuedReportID _ =>
    refine ⟨fun _ => issuedReportID.trans (hs.pending pending), fun hr => ?_⟩
    rw [still] at hr
    cases hr
  | accepted pending settled _ issuedReportID _ _ =>
    refine ⟨fun hp => ?_, fun _ => by simp [issuedReportID]⟩
    rw [settled] at hp
    cases hp

end Library

variable {s t : State}

namespace State

def Sound (s : State) : Prop := ∀ tx rc, s.rows tx = some rc → rc.Sound

/-- Every row of `s` is in `t`, in the same or a later version. -/
def Leads (s t : State) : Prop :=
  ∀ tx rc, s.rows tx = some rc → ∃ rc', t.rows tx = some rc' ∧ rc.Follows rc'

theorem Leads.refl (s : State) : s.Leads s := fun _ rc h => ⟨rc, h, .refl rc⟩

variable {result : TxOutcome × Option ReportValidationContext}

theorem Leads.trans {u : State} (h : s.Leads t) (h' : t.Leads u) : s.Leads u := by
  intro tx rc hrc
  obtain ⟨rc', hrc', hf⟩ := h tx rc hrc
  obtain ⟨rc'', hrc'', hf'⟩ := h' tx rc' hrc'
  exact ⟨rc'', hrc'', hf.trans hf'⟩

/-- What happens to the obligations elsewhere: executed transactions add open ones, and a
tenant may change its relay setting. -/
def Background (s t : State) : Prop :=
  ∀ tx, match s.rows tx with
    | some rc => ∃ relay, t.rows tx = some { rc with allowBrokerRelay := relay }
    | none => ∀ rc, t.rows tx = some rc →
      rc.obligation.state = .pending ∧ rc.obligation.issuedReportID = none

theorem Background.leads (h : s.Background t) : s.Leads t := by
  intro tx rc hrc
  have hh := h tx
  rw [hrc] at hh
  obtain ⟨relay, ht⟩ := hh
  exact ⟨_, ht, rfl, fun _ => rfl⟩

theorem Background.sound (h : s.Background t) (hs : s.Sound) : t.Sound := by
  intro tx rc hrc
  have hh := h tx
  cases hsrow : s.rows tx with
  | none =>
    rw [hsrow] at hh
    obtain ⟨hp, hi⟩ := hh rc hrc
    refine ⟨fun _ => hi, fun hr => ?_⟩
    rw [hp] at hr
    cases hr
  | some rc₀ =>
    rw [hsrow] at hh
    obtain ⟨relay, ht⟩ := hh
    obtain rfl := Option.some.inj (hrc.symm.trans ht)
    exact ⟨(hs tx rc₀ hsrow).pending, (hs tx rc₀ hsrow).received⟩

theorem write_leads (h : Library.TxEffect req issued (s.rows req.transactionID) result) :
    s.Leads (s.write req.transactionID result.2) := by
  intro tx rc hrc
  obtain ⟨outcome, row⟩ := result
  cases row with
  | none => exact ⟨rc, hrc, .refl rc⟩
  | some rc' =>
    by_cases htx : tx = req.transactionID
    · subst htx
      rw [hrc] at h
      exact ⟨rc', by simp [write], h.follows⟩
    · exact ⟨rc, by simpa [write, Function.update_of_ne htx] using hrc, .refl rc⟩

theorem write_sound (hs : s.Sound)
    (h : Library.TxEffect req issued (s.rows req.transactionID) result) :
    (s.write req.transactionID result.2).Sound := by
  intro tx rc hrc
  obtain ⟨outcome, row⟩ := result
  cases row with
  | none => exact hs tx rc hrc
  | some rc' =>
    by_cases htx : tx = req.transactionID
    · subst htx
      simp only [write, Function.update_self, Option.some.injEq] at hrc
      subst hrc
      cases hrow : s.rows req.transactionID with
      | none =>
        rw [hrow] at h
        cases h
      | some rc₀ =>
        rw [hrow] at h
        exact h.sound (hs _ rc₀ hrow)
    · simp only [write, Function.update_of_ne htx] at hrc
      exact hs tx rc hrc

end State

namespace Library

variable {op : Op} {r : Res op}

theorem step_cases (h : lib.step op s r = some t) :
    t = s ∨ ∃ caller req now markedAt issued, op = .reportUsageTx caller req ∧
      t = s.write req.transactionID
        (lib.runReportUsageTx caller req now markedAt issued (s.rows req.transactionID)).2 := by
  cases op with
  | resolveCaller => exact .inl (Option.some.inj h).symm
  | findAcceptedBySourceReportID tx key =>
    simp only [step, Option.ite_none_right_eq_some, Option.some.injEq] at h
    exact .inl h.2.symm
  | reportUsageTx caller req =>
    change lib.txStep caller req s r = some t at h
    unfold txStep at h
    split at h
    next now markedAt issued outcome =>
      simp only [Option.ite_none_right_eq_some, Option.some.injEq] at h
      exact .inr ⟨caller, req, now, markedAt, issued, rfl, h.2.symm⟩
    next now markedAt issued text =>
      simp only [Option.ite_none_right_eq_some, Option.some.injEq] at h
      exact .inr ⟨caller, req, now, markedAt, issued, rfl, h.2.symm⟩
    · exact .inl (Option.some.inj h).symm

theorem step_leads (h : lib.step op s r = some t) : s.Leads t := by
  rcases step_cases h with rfl | ⟨caller, req, now, markedAt, issued, -, rfl⟩
  · exact .refl t
  · exact State.write_leads (runReportUsageTx_effect caller req now markedAt issued _)

theorem step_sound (hs : s.Sound) (h : lib.step op s r = some t) : t.Sound := by
  rcases step_cases h with rfl | ⟨caller, req, now, markedAt, issued, -, rfl⟩
  · exact hs
  · exact State.write_sound hs (runReportUsageTx_effect caller req now markedAt issued _)

end Library

variable {ι : Type}

variable {c c' : Pool Op Res State ι (Except Error UsageReportResponse)} {tr : Trace Op Res ι}

section

variable [DecidableEq ι]

def reports (protocolVersion : String) (s : State) (reqs : ι → Option UsageReport) :
    Pool Op Res State ι (Except Error UsageReportResponse) :=
  ⟨s, fun i => (reportUsage protocolVersion (reqs i)).run⟩

abbrev ReportRun (lib : Library) (c : Pool Op Res State ι (Except Error UsageReportResponse))
    (tr : Trace Op Res ι) (c' : Pool Op Res State ι (Except Error UsageReportResponse)) : Prop :=
  Run lib.step State.Background c tr c'

theorem ReportRun.leads (hr : ReportRun lib c tr c') : c.shared.Leads c'.shared :=
  hr.preserves (.refl _) (fun _ _ _ _ h hs => h.trans (Library.step_leads hs))
    fun _ _ h hb => h.trans hb.leads

theorem ReportRun.sound (hr : ReportRun lib c tr c') (hs : c.shared.Sound) : c'.shared.Sound :=
  hr.preserves hs (fun _ _ _ _ h hstep => Library.step_sound h hstep) fun _ _ h hb => hb.sound h

end

inductive Ends (protocolVersion : String) (req : UsageReport) (h : History Op Res) :
    Except Error UsageReportResponse → Prop
  | unresolved (e : Error) (reply : ⟨.resolveCaller, .error e⟩ ∈ h) : Ends _ req h (.error e)
  | unread (text : String)
      (reply : ⟨.findAcceptedBySourceReportID req.transactionID req.idempotencyKey,
        .failed text⟩ ∈ h) :
      Ends _ req h (.error (wrap .internal text "idempotent retry probe"))
  | replayed (o : Obligation)
      (reply : ⟨.findAcceptedBySourceReportID req.transactionID req.idempotencyKey,
        .found o⟩ ∈ h) : Ends _ req h (.ok (buildReplayResponse protocolVersion o))
  | fresh (a : Except Error UsageReportResponse)
      (reply : ⟨.findAcceptedBySourceReportID req.transactionID req.idempotencyKey,
        .notFound⟩ ∈ h) : Ends _ req h a

theorem reportUsage_ends (htx : req.transactionID ≠ "") (hkey : req.idempotencyKey ≠ "") :
    Spec recordCall (fun _ _ => True) (Ends protocolVersion req)
      (reportUsage protocolVersion (some req)).run [] := by
  unfold reportUsage
  dsimp only
  rw [if_neg htx, if_neg hkey]
  refine .ask trivial fun r h₁ ht => ?_
  cases ht
  cases r with
  | error e => exact .throw (.unresolved e (by simp))
  | ok caller =>
    refine .ask trivial fun r h₂ ht => ?_
    cases ht
    rcases r with o | _ | text
    · exact .pure (.replayed o (by simp))
    · refine .ask trivial fun r h₃ ht => ?_
      cases ht
      have hfresh : ∀ a, Ends protocolVersion req ([] ++ [⟨.resolveCaller, .ok caller⟩] ++
          [⟨.findAcceptedBySourceReportID req.transactionID req.idempotencyKey, .notFound⟩] ++
          [⟨.reportUsageTx caller req, r⟩]) a := fun a => .fresh a (by simp)
      rcases r with ⟨now, markedAt, issued, reportID | e | e⟩ | text | text | text |
        ⟨now, markedAt, issued, text, applied⟩
      · exact .pure (hfresh _)
      all_goals exact .throw (hfresh _)
    · exact .throw (.unread text (by simp))

section

variable [DecidableEq ι]

theorem ReportRun.replay (hr : ReportRun lib c tr c') {i : ι}
    (hthread : c.threads i = (reportUsage protocolVersion (some req)).run)
    (htx : req.transactionID ≠ "") (hkey : req.idempotencyKey ≠ "")
    (hrow : c.shared.rows req.transactionID = some rc) (hsettled : rc.obligation.state = .received)
    (hsource : rc.obligation.sourceReportID = some req.idempotencyKey)
    (hissued : rc.obligation.issuedReportID.isSome) {a : Except Error UsageReportResponse}
    (hret : c'.threads i = .ret a) : a = .ok (buildReplayResponse protocolVersion rc.obligation) ∨
      (∃ e, (i, ⟨.resolveCaller, .error e⟩) ∈ tr ∧ a = .error e) ∨
      ∃ text, (i, ⟨.findAcceptedBySourceReportID req.transactionID req.idempotencyKey,
        .failed text⟩) ∈ tr ∧ a = .error (wrap .internal text "idempotent retry probe") := by
  let G : ι → History Op Res → Op → Prop := fun _ _ _ => True
  let Q : ι → History Op Res → Except Error UsageReportResponse → Prop :=
    fun j h a => j = i → Ends protocolVersion req h a
  have hs : ∀ j, Spec recordCall (G j) (Q j) (c.threads j) [] := by
    intro j
    by_cases hj : j = i
    · subst hj
      rw [hthread]
      exact (reportUsage_ends htx hkey).mono (fun _ _ _ => trivial) fun _ _ h _ => h
    · exact (Spec.of_inv (I := fun _ => True) _ (fun _ _ _ _ _ _ => trivial)
        (fun _ _ _ => trivial) trivial).mono (fun _ _ h => h) fun _ _ _ hji => absurd hji hj
  let Inv : Trace Op Res ι → State → Prop := fun tr s => c.shared.Leads s ∧
    ∀ r, (i, ⟨.findAcceptedBySourceReportID req.transactionID req.idempotencyKey, r⟩) ∈ tr →
      r = .found rc.obligation ∨ ∃ text, r = .failed text
  have hinv : Inv tr c'.shared := by
    refine Run.invariant Inv hs hr ⟨.refl _, by simp⟩ ?_ ?_
    · intro tr s j op r t ih _ hstep
      refine ⟨ih.1.trans (Library.step_leads hstep), fun r' hm => ?_⟩
      rcases List.mem_append.mp hm with hm | hm
      · exact ih.2 r' hm
      · simp only [List.mem_singleton, Prod.mk.injEq] at hm
        obtain ⟨rfl, hev⟩ := hm
        cases hev
        obtain ⟨rc', hrow', hf⟩ := ih.1 _ rc hrow
        have hob := hf.settled hsettled
        have hfind : s.findAccepted req.transactionID req.idempotencyKey = some rc.obligation := by
          simp [State.findAccepted, hrow', hob, hsource, hissued]
        simp only [Library.step, Option.ite_none_right_eq_some, hfind] at hstep
        rcases r' with o | _ | text
        · exact .inl (by simpa [FindReply.agrees] using hstep.1)
        · simp [FindReply.agrees] at hstep
        · exact .inr ⟨text, rfl⟩
    · exact fun _ _ _ ih hb => ⟨ih.1.trans hb.leads, ih.2⟩
  have hends : Ends protocolVersion req (tr.own i) a := Run.returned hs hr hret rfl
  cases hends with
  | unresolved e reply => exact .inr (.inl ⟨e, Trace.mem_own.mp reply, rfl⟩)
  | unread text reply => exact .inr (.inr ⟨text, Trace.mem_own.mp reply, rfl⟩)
  | replayed o reply =>
    rcases hinv.2 _ (Trace.mem_own.mp reply) with h | ⟨text, h⟩
    · cases h
      exact .inl rfl
    · cases h
  | fresh _ reply =>
    rcases hinv.2 _ (Trace.mem_own.mp reply) with h | ⟨text, h⟩ <;> cases h

end

/-- Every call is answered: the caller is `caller`, the clock shows `now` at the checks and
`markedAt` at the write, and `issued` is the fresh report id. -/
def Library.answer (lib : Library) (caller : Caller) (now markedAt : Time) (issued : String) :
    (op : Op) → State → Res op
  | .resolveCaller, _ => .ok caller
  | .findAcceptedBySourceReportID tx key, s =>
    match s.findAccepted tx key with
    | some o => .found o
    | none => .notFound
  | .reportUsageTx c req, s => .completed now markedAt issued
      (lib.runReportUsageTx c req now markedAt issued (s.rows req.transactionID)).1

section

variable (htx : req.transactionID ≠ "") (hkey : req.idempotencyKey ≠ "")
include htx hkey

theorem Library.reportUsage_eval_replay {o : Obligation}
    (hfind : s.findAccepted req.transactionID req.idempotencyKey = some o) :
    eval lib.step (lib.answer caller now markedAt issued)
        (reportUsage protocolVersion (some req)).run s =
      some (.ok (buildReplayResponse protocolVersion o), s) := by
  unfold reportUsage
  dsimp only
  rw [if_neg htx, if_neg hkey, eval_ask (t := s) rfl]
  change eval _ _ (reportUsageResolved protocolVersion caller req).run s = _
  have hreply : lib.answer caller now markedAt issued
      (.findAcceptedBySourceReportID req.transactionID req.idempotencyKey) s = .found o := by
    simp [answer, hfind]
  unfold reportUsageResolved
  rw [eval_ask (t := s) (by simp [step, hreply, hfind, FindReply.agrees]), hreply]
  rfl

theorem Library.reportUsage_eval (hissued : issued ≠ "")
    (hfind : s.findAccepted req.transactionID req.idempotencyKey = none) :
    eval lib.step (lib.answer caller now markedAt issued)
        (reportUsage protocolVersion (some req)).run s =
      let result := lib.runReportUsageTx caller req now markedAt issued (s.rows req.transactionID)
      some (match result.1 with
        | .accepted reportID => .ok ⟨protocolVersion, reportID⟩
        | .rejected e => .error e
        | .refused e => .error e, s.write req.transactionID result.2) := by
  unfold reportUsage
  dsimp only
  rw [if_neg htx, if_neg hkey, eval_ask (t := s) rfl]
  change eval _ _ (reportUsageResolved protocolVersion caller req).run s = _
  have hreply : lib.answer caller now markedAt issued
      (.findAcceptedBySourceReportID req.transactionID req.idempotencyKey) s = .notFound := by
    simp [answer, hfind]
  unfold reportUsageResolved
  rw [eval_ask (t := s) (by simp [step, hreply, hfind, FindReply.agrees]), hreply]
  unfold reportUsageWithTx
  rw [eval_ask (t := s.write req.transactionID
    (lib.runReportUsageTx caller req now markedAt issued (s.rows req.transactionID)).2)
    (by simp [step, txStep, answer, hissued])]
  simp only [answer]
  cases (lib.runReportUsageTx caller req now markedAt issued (s.rows req.transactionID)).1 <;> rfl

theorem Library.pending_accepts (hissued : issued ≠ "") (hrow : s.rows req.transactionID = some rc)
    (hs : rc.Sound) (hp : rc.obligation.state = .pending)
    (hauth : lib.authorizeForAgent caller rc.agentID rc.allowBrokerRelay = .ok ())
    (hvalid : lib.validateUsageReport (rc.input req now) = .ok ()) :
    ∃ t rc', eval lib.step (lib.answer caller now markedAt issued)
        (reportUsage protocolVersion (some req)).run s = some (.ok ⟨protocolVersion, issued⟩, t) ∧
      t.rows req.transactionID = some rc' ∧ rc'.obligation.state = .received ∧
      rc'.obligation.sourceReportID = some req.idempotencyKey ∧
      rc'.obligation.issuedReportID = some issued := by
  have hrun : lib.runReportUsageTx caller req now markedAt issued (some rc) =
      persistValidation req rc issued markedAt := by
    simp only [runReportUsageTx, hauth, hvalid]
  have hmark : persistValidation req rc issued markedAt = (.accepted issued, some
      { rc with obligation := { rc.obligation with
          state := .received, consumedQuantity := some req.consumedQuantity,
          receivedAt := some markedAt, validationOutcome := some .validated,
          validatedAt := some markedAt, sourceReportID := some req.idempotencyKey,
          issuedReportID := some issued } }) := by
    simp [persistValidation, Obligation.markValidationValidated, hp]
  have heval := @reportUsage_eval lib protocolVersion caller req now markedAt issued s htx hkey
    hissued (by simp [State.findAccepted, hrow, hs.pending hp])
  rw [hrow, hrun, hmark] at heval
  exact ⟨_, _, heval, Function.update_self _ _ _, rfl, rfl, rfl⟩

end

theorem Library.rejected_pending {e : Error} (hrow : s.rows req.transactionID = some rc)
    (h : lib.step (.reportUsageTx caller req) s (.completed now markedAt issued (.rejected e)) =
      some t) : rc.obligation.state = .pending ∧
      ∃ rc', t.rows req.transactionID = some rc' ∧ rc'.obligation.state = .pending := by
  simp only [step, txStep, Option.ite_none_right_eq_some, Option.some.injEq, hrow] at h
  obtain ⟨⟨-, hout⟩, rfl⟩ := h
  have heff := @runReportUsageTx_effect lib caller req now markedAt issued (some rc)
  cases hresult : lib.runReportUsageTx caller req now markedAt issued (some rc) with
  | mk outcome row =>
    rw [hresult] at heff hout
    cases heff with
    | refused e' => cases hout
    | rejected e' pending still => exact ⟨pending, _, Function.update_self _ _ _, still⟩
    | accepted pending => cases hout

variable [DecidableEq ι]

/-- Two moments of a run, the second after the first. A settled obligation keeps its row;
a report under the accepted key that begins between the two returns the issued id unless it
fails to resolve its caller or to read; a report is rejected only while the obligation is
pending and leaves it so; and as long as it is pending, whatever was rejected in between,
a valid report of an authorized caller is accepted. -/
theorem report_settles_once {lib : Library} {protocolVersion : String}
    {reqs : ι → Option UsageReport} {s : State} {tr₁ tr₂ : Trace Op Res ι}
    {c₁ c₂ : Pool Op Res State ι (Except Error UsageReportResponse)} (hs : s.Sound)
    (hr₁ : ReportRun lib (reports protocolVersion s reqs) tr₁ c₁) (hr₂ : ReportRun lib c₁ tr₂ c₂)
    {tx : String} {rc₁ : ReportValidationContext} (hrow : c₁.shared.rows tx = some rc₁) :
    ∃ rc₂, c₂.shared.rows tx = some rc₂ ∧
      (rc₁.obligation.state = .received → rc₂.obligation = rc₁.obligation) ∧
      (∀ i req a, reqs i = some req → req.transactionID = tx → tx ≠ "" → tr₁.own i = [] →
        req.idempotencyKey ≠ "" → rc₁.obligation.state = .received →
        rc₁.obligation.sourceReportID = some req.idempotencyKey → c₂.threads i = .ret a →
        (∃ issued, rc₁.obligation.issuedReportID = some issued ∧
          a = .ok ⟨protocolVersion, issued⟩) ∨
        (∃ e, (i, ⟨.resolveCaller, .error e⟩) ∈ tr₂ ∧ a = .error e) ∨
        ∃ text, (i, ⟨.findAcceptedBySourceReportID tx req.idempotencyKey, .failed text⟩) ∈ tr₂ ∧
          a = .error (wrap .internal text "idempotent retry probe")) ∧
      (∀ caller req now markedAt issued e t, req.transactionID = tx →
        lib.step (.reportUsageTx caller req) c₁.shared
          (.completed now markedAt issued (.rejected e)) = some t →
        rc₁.obligation.state = .pending ∧
          ∃ rc, t.rows tx = some rc ∧ rc.obligation.state = .pending) ∧
      (rc₂.obligation.state = .pending → ∀ caller req now markedAt issued,
        req.transactionID = tx → tx ≠ "" → req.idempotencyKey ≠ "" → issued ≠ "" →
        lib.authorizeForAgent caller rc₂.agentID rc₂.allowBrokerRelay = .ok () →
        lib.validateUsageReport (rc₁.input req now) = .ok () →
        ∃ t rc, eval lib.step (lib.answer caller now markedAt issued)
            (reportUsage protocolVersion (some req)).run c₂.shared =
              some (.ok ⟨protocolVersion, issued⟩, t) ∧
          t.rows tx = some rc ∧ rc.obligation.state = .received ∧
          rc.obligation.sourceReportID = some req.idempotencyKey ∧
          rc.obligation.issuedReportID = some issued) := by
  have hs₁ : c₁.shared.Sound := ReportRun.sound hr₁ hs
  have hs₂ : c₂.shared.Sound := ReportRun.sound hr₂ hs₁
  obtain ⟨rc₂, hrow₂, hf⟩ := ReportRun.leads hr₂ tx rc₁ hrow
  refine ⟨rc₂, hrow₂, hf.settled, ?_, ?_, ?_⟩
  · intro i req a hreq htx hne hown hkey hsettled hsource hret
    subst htx
    have hissued := (hs₁ _ rc₁ hrow).received hsettled
    have hthread : c₁.threads i = (reportUsage protocolVersion (some req)).run := by
      rw [hr₁.thread_of_own_nil hown, ← hreq]
      rfl
    rcases ReportRun.replay hr₂ hthread hne hkey hrow hsettled hsource hissued hret with h | h
    · obtain ⟨issued, hi⟩ := Option.isSome_iff_exists.mp hissued
      refine .inl ⟨issued, hi, ?_⟩
      rw [h, buildReplayResponse, hi]
      rfl
    · exact .inr h
  · intro caller req now markedAt issued e t htx hstep
    subst htx
    exact Library.rejected_pending hrow hstep
  · intro hp caller req now markedAt issued htx hne hkey hissued hauth hvalid
    subst htx
    rw [← hf.validateUsageReport lib req now] at hvalid
    exact Library.pending_accepts hne hkey hissued hrow₂ (hs₂ _ rc₂ hrow₂) hp hauth hvalid

def openContext : ReportValidationContext where
  obligation :=
    { id := "o1", transactionID := "t1", state := .pending, deadline := 100,
      requiredFields := ["billing_id", "function"], estimatedQuantity := 10,
      quantityTolerance := 1 / 5 }
  transactionID := "t1"
  billingID := "b1"
  createdAt := some 0
  tenantID := "publisher"
  agentID := "alice"
  allowBrokerRelay := false

def oneOpen : State := ⟨fun tx => if tx = "t1" then some openContext else none⟩

theorem oneOpen_sound : oneOpen.Sound := by
  intro tx rc h
  simp only [oneOpen, Option.ite_none_right_eq_some, Option.some.injEq] at h
  rw [← h.2]
  exact ⟨fun _ => rfl, nofun⟩

def alice : Caller := ⟨"key-alice", .agent, "alice"⟩

def threeReports : Fin 3 → Option UsageReport
  | 0 => some ⟨"k1", "t1", "b1", "", some ⟨100, ["AI_INPUT"]⟩, none⟩
  | 1 => some ⟨"k1", "t1", "b1", "", some ⟨11, ["AI_INPUT"]⟩, none⟩
  | 2 => some ⟨"k1", "t1", "b1", "", some ⟨11, ["AI_INPUT"]⟩, none⟩

/-- The rejected report leaves the obligation open for the second one under its key, and the
third one is given the id that the second one was. -/
theorem report_settles_once_three_reports :
    ∃ tr₁ c₁ tr₂ c₂, ReportRun exactLibrary (reports "1.0" oneOpen threeReports) tr₁ c₁ ∧
      ReportRun exactLibrary c₁ tr₂ c₂ ∧ (c₁.threads 0).error?.isSome ∧
      c₁.threads 1 = .ret (.ok ⟨"1.0", "r1"⟩) ∧ c₂.threads 2 = .ret (.ok ⟨"1.0", "r1"⟩) ∧
      ∃ rc₁ rc₂, c₁.shared.rows "t1" = some rc₁ ∧ rc₁.obligation.state = .received ∧
        c₂.shared.rows "t1" = some rc₂ ∧ rc₂.obligation = rc₁.obligation := by
  have hrun : ∃ tr₁ c₁ tr₂ c₂, ReportRun exactLibrary (reports "1.0" oneOpen threeReports) tr₁ c₁ ∧
      ReportRun exactLibrary c₁ tr₂ c₂ ∧ (c₁.threads 0).error?.isSome ∧
      (c₁.threads 1).ok? = some ⟨"1.0", "r1"⟩ ∧ (c₂.threads 2).ok?.isSome ∧ tr₁.own 2 = [] ∧
      (c₁.shared.rows "t1").any (fun rc => rc.obligation.state = .received ∧
        rc.obligation.sourceReportID = some "k1" ∧
        rc.obligation.issuedReportID = some "r1") = true :=
    Pool.exists_run_run
      (List.replicate 3 ⟨0, exactLibrary.answer alice 5 6 "r0"⟩ ++
        List.replicate 3 ⟨1, exactLibrary.answer alice 7 8 "r1"⟩)
      (List.replicate 2 ⟨2, exactLibrary.answer alice 9 10 "r2"⟩) (by decide +kernel)
  obtain ⟨tr₁, c₁, tr₂, c₂, hr₁, hr₂, herr, hok, hret, hown, hany⟩ := hrun
  obtain ⟨rc₁, hrow, hsettled, hsource, hissued⟩ : ∃ rc, c₁.shared.rows "t1" = some rc ∧
      rc.obligation.state = .received ∧ rc.obligation.sourceReportID = some "k1" ∧
      rc.obligation.issuedReportID = some "r1" := by
    cases hrow : c₁.shared.rows "t1" with
    | none => simp [hrow] at hany
    | some rc =>
      rw [hrow] at hany
      exact ⟨rc, rfl, of_decide_eq_true hany⟩
  obtain ⟨a, ha⟩ := Option.isSome_iff_exists.mp hret
  obtain ⟨rc₂, hrow₂, hkept, hreplay, -⟩ := report_settles_once oneOpen_sound hr₁ hr₂ hrow
  have hanswer : c₂.threads 2 = .ret (.ok ⟨"1.0", "r1"⟩) := by
    have hend := ok?_eq_some.mp ha
    rcases hreplay 2 _ _ rfl rfl (by decide) hown (by decide) hsettled hsource hend with
      ⟨issued, hi, hres⟩ | ⟨e, -, hres⟩ | ⟨text, -, hres⟩
    · obtain rfl := Option.some.inj (hissued.symm.trans hi)
      rw [hend, hres]
    · cases hres
    · cases hres
  exact ⟨tr₁, c₁, tr₂, c₂, hr₁, hr₂, herr, ok?_eq_some.mp hok, hanswer, rc₁, rc₂, hrow, hsettled,
    hrow₂, hkept hsettled⟩

end

variable {e : Error}

theorem Library.authorizeForAgent_kind {agentID : String} {relay : Bool}
    (h : lib.authorizeForAgent caller agentID relay = .error e) :
    e.kind = if caller.kind = .unknown then .unauthenticated else .permissionDenied := by
  unfold authorizeForAgent at h
  cases hk : caller.kind with
  | unknown =>
    rw [hk] at h
    cases h
    rfl
  | agent | broker =>
    rw [hk] at h
    dsimp only at h
    split_ifs at h
    cases h
    rfl

/-- The refusal of an agent names the agent that it may not act for. -/
theorem Library.authorizeForAgent_alike (hquote : Function.Injective lib.quote)
    {agentID agentID' : String} {relay relay' : Bool}
    (h : lib.authorizeForAgent caller agentID relay ≠ .ok ())
    (h' : lib.authorizeForAgent caller agentID' relay' ≠ .ok ()) :
    lib.authorizeForAgent caller agentID relay = lib.authorizeForAgent caller agentID' relay' ↔
      (caller.kind = .agent → agentID = agentID') := by
  unfold authorizeForAgent at *
  cases hk : caller.kind with
  | unknown => simp
  | agent | broker =>
    rw [hk] at h h'
    dsimp only at h h' ⊢
    split_ifs at h h' ⊢ <;> simp_all [newf, hquote.eq_iff]

abbrev Library.reportAlone (lib : Library) (protocolVersion : String) (caller : Caller)
    (req : UsageReport) (now markedAt : Time) (issued : String) (s : State) :
    Option (Except Error UsageReportResponse × State) :=
  eval lib.step (lib.answer caller now markedAt issued)
    (reportUsage protocolVersion (some req)).run s

section

variable {s : State} (hissued : issued ≠ "") (hrow : s.rows req.transactionID = some rc)
include hissued hrow

theorem Library.reportUsage_unauthorized (htx : req.transactionID ≠ "")
    (hkey : req.idempotencyKey ≠ "")
    (hdenied : lib.authorizeForAgent caller rc.agentID rc.allowBrokerRelay = .error e)
    (hfind : s.findAccepted req.transactionID req.idempotencyKey = none) :
    lib.reportAlone protocolVersion caller req now markedAt issued s = some (.error e, s) := by
  rw [reportAlone, reportUsage_eval htx hkey hissued hfind, hrow]
  simp only [runReportUsageTx, hdenied]
  rfl

theorem Library.refusal_iff (htx : req.transactionID ≠ "") (hkey : req.idempotencyKey ≠ "")
    (hdenied : lib.authorizeForAgent caller rc.agentID rc.allowBrokerRelay ≠ .ok ()) :
    lib.reportAlone protocolVersion caller req now markedAt issued s = some (.error e, s) ↔
      s.findAccepted req.transactionID req.idempotencyKey = none ∧
        lib.authorizeForAgent caller rc.agentID rc.allowBrokerRelay = .error e := by
  cases hfind : s.findAccepted req.transactionID req.idempotencyKey with
  | some o => simp [reportAlone, reportUsage_eval_replay htx hkey hfind]
  | none =>
    cases hauth : lib.authorizeForAgent caller rc.agentID rc.allowBrokerRelay with
    | ok u => exact absurd hauth hdenied
    | error e' => simp [reportUsage_unauthorized hissued hrow htx hkey hauth hfind]

end

/-- Two obligations and a caller that may act for the agent of neither: the caller gets one
refusal for both if and only if the request lacks an id, or no report under its key has been
accepted for either and, where the caller is an agent, they belong to one agent. -/
theorem unauthorized_learns_nothing {s s' : State} {rc rc' : ReportValidationContext}
    (hquote : Function.Injective lib.quote) (hissued : issued ≠ "")
    (hrow : s.rows req.transactionID = some rc) (hrow' : s'.rows req.transactionID = some rc')
    (hdenied : lib.authorizeForAgent caller rc.agentID rc.allowBrokerRelay ≠ .ok ())
    (hdenied' : lib.authorizeForAgent caller rc'.agentID rc'.allowBrokerRelay ≠ .ok ()) :
    ((∃ e, lib.reportAlone protocolVersion caller req now markedAt issued s = some (.error e, s) ∧
        lib.reportAlone protocolVersion caller req now markedAt issued s' =
          some (.error e, s')) ↔
      req.transactionID = "" ∨ req.idempotencyKey = "" ∨
        s.findAccepted req.transactionID req.idempotencyKey = none ∧
        s'.findAccepted req.transactionID req.idempotencyKey = none ∧
        (caller.kind = .agent → rc.agentID = rc'.agentID)) ∧
    (req.transactionID ≠ "" → req.idempotencyKey ≠ "" → ∀ e,
      lib.reportAlone protocolVersion caller req now markedAt issued s = some (.error e, s) →
      e.kind = if caller.kind = .unknown then .unauthenticated else .permissionDenied) := by
  by_cases htx : req.transactionID = ""
  · refine ⟨iff_of_true ⟨newf .invalidRequest "transaction_id required", ?_, ?_⟩ (.inl htx),
      fun h => absurd htx h⟩
    all_goals
      unfold Library.reportAlone reportUsage
      simp only [htx, if_true]
      rfl
  by_cases hkey : req.idempotencyKey = ""
  · refine ⟨iff_of_true ⟨newf .invalidRequest "report id required", ?_, ?_⟩ (.inr (.inl hkey)),
      fun _ h => absurd hkey h⟩
    all_goals
      unfold Library.reportAlone reportUsage
      simp only [htx, hkey, if_true, if_false]
      rfl
  refine ⟨?_, fun _ _ e he => ?_⟩
  · simp only [Library.refusal_iff hissued hrow htx hkey hdenied,
      Library.refusal_iff hissued hrow' htx hkey hdenied', htx, hkey, false_or]
    rw [← Library.authorizeForAgent_alike hquote hdenied hdenied']
    constructor
    · rintro ⟨e, ⟨hfind, hauth⟩, hfind', hauth'⟩
      exact ⟨hfind, hfind', hauth.trans hauth'.symm⟩
    · rintro ⟨hfind, hfind', hsame⟩
      cases hauth : lib.authorizeForAgent caller rc.agentID rc.allowBrokerRelay with
      | ok u => exact absurd hauth hdenied
      | error e => exact ⟨e, ⟨hfind, rfl⟩, hfind', hsame ▸ hauth⟩
  · exact Library.authorizeForAgent_kind
      ((Library.refusal_iff hissued hrow htx hkey hdenied).mp he).2

def mallory : Caller := ⟨"key-mallory", .agent, "mallory"⟩

def settledContext : ReportValidationContext :=
  { openContext with obligation := { openContext.obligation with
      state := .received, consumedQuantity := some 11, receivedAt := some 8,
      validationOutcome := some .validated, validatedAt := some 8,
      sourceReportID := some "k1", issuedReportID := some "r1" } }

def oneSettled : State := ⟨fun tx => if tx = "t1" then some settledContext else none⟩

def probingReport (key : String) : UsageReport := { idempotencyKey := key, transactionID := "t1" }

theorem exactLibrary_quote : Function.Injective exactLibrary.quote :=
  fun a b h => by simpa [exactLibrary] using h

/-- Under a key that was never accepted, an open and a settled obligation look alike. -/
theorem unauthorized_learns_nothing_other_key : ∃ e : Error, e.kind = .permissionDenied ∧
      exactLibrary.reportAlone "1.0" mallory (probingReport "k2") 20 21 "r9" oneOpen =
        some (.error e, oneOpen) ∧
      exactLibrary.reportAlone "1.0" mallory (probingReport "k2") 20 21 "r9" oneSettled =
        some (.error e, oneSettled) := by
  obtain ⟨hiff, hkind⟩ := @unauthorized_learns_nothing exactLibrary "1.0" mallory
    (probingReport "k2") 20 21 "r9" oneOpen oneSettled openContext settledContext exactLibrary_quote
    (by decide) rfl rfl (by decide +kernel) (by decide +kernel)
  obtain ⟨e, he, he'⟩ := hiff.mpr (.inr (.inr ⟨by decide, by decide, fun _ => rfl⟩))
  exact ⟨e, hkind (by decide) (by decide) e he, he, he'⟩

def bobOpen : State :=
  ⟨fun tx => if tx = "t1" then some { openContext with agentID := "bob" } else none⟩

def mayNotAct (agentID : String) : Error :=
  newf .permissionDenied ("caller \"mallory\" may not act on behalf of agent \"" ++ agentID ++ "\"")

/-- Under the accepted key a caller that may not act for the agent is given the issued report
id of the settled obligation. While the obligation is open, the caller is told whose it is. -/
theorem unauthorized_caller_gets_report_id :
    exactLibrary.authorizeForAgent mallory "alice" false ≠ .ok () ∧
      exactLibrary.authorizeForAgent mallory "bob" false ≠ .ok () ∧
      exactLibrary.reportAlone "1.0" mallory (probingReport "k1") 20 21 "r9" oneSettled =
        some (.ok ⟨"1.0", "r1"⟩, oneSettled) ∧
      exactLibrary.reportAlone "1.0" mallory (probingReport "k1") 20 21 "r9" oneOpen =
        some (.error (mayNotAct "alice"), oneOpen) ∧
      exactLibrary.reportAlone "1.0" mallory (probingReport "k1") 20 21 "r9" bobOpen =
        some (.error (mayNotAct "bob"), bobOpen) := by
  have hreplay := @Library.reportUsage_eval_replay exactLibrary "1.0" mallory
    (probingReport "k1") 20 21 "r9" oneSettled (by decide) (by decide)
    settledContext.obligation (by decide +kernel)
  refine ⟨by decide +kernel, by decide +kernel, hreplay, ?_, ?_⟩
  · exact Library.reportUsage_unauthorized (by decide) rfl (by decide) (by decide)
      (by decide +kernel) (by decide +kernel)
  · exact Library.reportUsage_unauthorized (by decide) rfl (by decide) (by decide)
      (by decide +kernel) (by decide +kernel)

end Ramp.Reporting
