import Mathlib.Algebra.Order.Floor.Ring
import Mathlib.Data.Rat.Floor
import Ramp.Exchange.Authorization

/-! Usage reports: what the validator demands of one, and how the service takes it in. -/

namespace Ramp.Reporting

open Ramp.Exchange

structure Usage where
  consumedQuantity : Int
  function : List String

structure UsageReport where
  idempotencyKey : String
  transactionID : String
  billingID : String := ""
  exchange : String := ""
  usage : Option Usage := none
  timestamp : Option Time := none

def UsageReport.consumedQuantity (r : UsageReport) : Int :=
  (r.usage.map Usage.consumedQuantity).getD 0

inductive ValidationOutcome
  | validated
  | rejectedFields
  | rejectedTolerance
  | rejectedBillingID
  | rejectedTimestamp
  deriving DecidableEq

structure Obligation where
  id : String
  transactionID : String
  state : ObligationState
  deadline : Time
  consumedQuantity : Option Int := none
  receivedAt : Option Time := none
  requiredFields : List String
  estimatedQuantity : Int
  quantityTolerance : ℚ
  validationOutcome : Option ValidationOutcome := none
  validatedAt : Option Time := none
  sourceReportID : Option String := none
  issuedReportID : Option String := none
  deriving DecidableEq

structure ReportValidationContext where
  obligation : Obligation
  transactionID : String
  billingID : String
  createdAt : Option Time
  tenantID : String
  agentID : String
  allowBrokerRelay : Bool

structure ReportInput where
  obligation : Obligation
  transactionID : String
  billingID : String
  createdAt : Option Time
  report : UsageReport
  now : Time

/-- Float arithmetic and text formats. `toPPM` is the integer part of the float64 product
of a tolerance and `toleranceScale`, so it may differ from the exact one in its last unit;
`percent` renders a tolerance as a whole percentage. -/
structure Library where
  toPPM : ℚ → Int
  percent : ℚ → String
  rfc3339Nano : Time → String
  quote : String → String

def timestampSkewFuture : Time := 5 * 60 * 1000000000

def timestampSkewPast : Time := 5 * 1000000000

def toleranceScale : Int := 1000000

def int64 (v : Int) : Int := v.bmod (2 ^ 64)

def knownReportFields : List String :=
  ["billing_id", "transaction_id", "consumed_quantity", "function", "exchange", "timestamp", "id"]

def reportHasField (report : UsageReport) (field : String) : Bool :=
  if field ∉ knownReportFields then false
  else if field = "billing_id" then report.billingID ≠ ""
  else if field = "transaction_id" then report.transactionID ≠ ""
  else if field = "consumed_quantity" then report.usage.isSome
  else if field = "function" then (report.usage.map Usage.function).getD [] ≠ []
  else if field = "exchange" then report.exchange ≠ ""
  else if field = "timestamp" then report.timestamp.isSome
  else if field = "id" then report.idempotencyKey ≠ ""
  else false

namespace Library

variable (lib : Library)

def validateRequiredFieldNames : List String → Except Error Unit
  | [] => .ok ()
  | name :: names =>
    if name ∈ knownReportFields then validateRequiredFieldNames names
    else .error (newf .invalidRequest ("unknown required_fields token " ++ lib.quote name))

def validateRequiredFields (report : UsageReport) :
    List String → Except (ValidationOutcome × Error) Unit
  | [] => .ok ()
  | field :: fields =>
    if reportHasField report field then validateRequiredFields report fields
    else .error (.rejectedFields, (newf .invalidRequest
      ("required field " ++ lib.quote field ++ " missing or empty")).withField field)

def effectiveTolerance (o : Obligation) : ℚ :=
  if o.quantityTolerance < 0 then defaultQuantityTolerance else o.quantityTolerance

def outsideTolerance (o : Obligation) (consumed : Int) : Bool :=
  let diff := int64 (consumed - o.estimatedQuantity)
  let diff := if diff < 0 then int64 (-diff) else diff
  int64 (diff * toleranceScale) > int64 (lib.toPPM (effectiveTolerance o) * o.estimatedQuantity)

def validateTolerance (o : Obligation) (report : UsageReport) :
    Except (ValidationOutcome × Error) Unit :=
  let consumed := report.consumedQuantity
  if consumed < 0 then
    .error (.rejectedTolerance, (newf .invalidRequest
      ("consumed_quantity " ++ toString consumed ++ " is negative")).withField "consumed_quantity")
  else if o.estimatedQuantity = 0 then
    if consumed = 0 then .ok ()
    else .error (.rejectedTolerance, (newf .invalidRequest ("consumed quantity " ++
      toString consumed ++ " reported against zero-estimate obligation")).withField
        "consumed_quantity")
  else if lib.outsideTolerance o consumed then
    .error (.rejectedTolerance, (newf .invalidRequest ("consumed quantity outside ±" ++
      lib.percent (effectiveTolerance o) ++ "% of estimate")).withField "consumed_quantity")
  else .ok ()

def validateBillingID (billingID : String) (report : UsageReport) :
    Except (ValidationOutcome × Error) Unit :=
  if report.billingID = billingID then .ok ()
  else .error (.rejectedBillingID, (newf .invalidRequest "billing_id mismatch").withField
    "billing_id")

def tooEarly (createdAt : Option Time) (reported : Time) : Option Time :=
  match createdAt with
  | some created => if reported < created - timestampSkewPast then some created else none
  | none => none

def validateTimestamp (createdAt : Option Time) (now : Time) (report : UsageReport) :
    Except (ValidationOutcome × Error) Unit :=
  match report.timestamp with
  | none => .ok ()
  | some reported =>
    match tooEarly createdAt reported with
    | some created =>
      .error (.rejectedTimestamp, (newf .invalidRequest ("report timestamp " ++
        lib.rfc3339Nano reported ++ " precedes transaction created_at " ++
        lib.rfc3339Nano created)).withField "timestamp")
    | none =>
      if reported > now + timestampSkewFuture then
        .error (.rejectedTimestamp, (newf .invalidRequest ("report timestamp " ++
          lib.rfc3339Nano reported ++ " is more than 5m0s in the future")).withField "timestamp")
      else .ok ()

def validateUsageReport (input : ReportInput) : Except (ValidationOutcome × Error) Unit := do
  lib.validateRequiredFields input.report input.obligation.requiredFields
  lib.validateTolerance input.obligation input.report
  validateBillingID input.billingID input.report
  lib.validateTimestamp input.createdAt input.now input.report

variable {lib}

theorem validateRequiredFieldNames_ok {names : List String} :
    lib.validateRequiredFieldNames names = .ok () ↔ ∀ name ∈ names, name ∈ knownReportFields := by
  induction names with
  | nil => simp [validateRequiredFieldNames]
  | cons name names ih =>
    unfold validateRequiredFieldNames
    by_cases h : name ∈ knownReportFields
    · simp [h, ih]
    · simp [h]

theorem validateRequiredFields_ok {report : UsageReport} {fields : List String} :
    lib.validateRequiredFields report fields = .ok () ↔
      ∀ field ∈ fields, reportHasField report field = true := by
  induction fields with
  | nil => simp [validateRequiredFields]
  | cons field fields ih =>
    unfold validateRequiredFields
    by_cases h : reportHasField report field = true
    · simp [h, ih]
    · simp [h]

theorem validateTolerance_congr (lib : Library) {o o' : Obligation}
    (hest : o'.estimatedQuantity = o.estimatedQuantity)
    (htol : o'.quantityTolerance = o.quantityTolerance) (report : UsageReport) :
    lib.validateTolerance o' report = lib.validateTolerance o report := by
  cases o'
  subst hest htol
  rfl

theorem validateUsageReport_ok {input : ReportInput} : lib.validateUsageReport input = .ok () ↔
      (∀ field ∈ input.obligation.requiredFields, reportHasField input.report field = true) ∧
      lib.validateTolerance input.obligation input.report = .ok () ∧
      input.report.billingID = input.billingID ∧
      lib.validateTimestamp input.createdAt input.now input.report = .ok () := by
  unfold validateUsageReport
  rw [← @validateRequiredFields_ok lib]
  cases lib.validateRequiredFields input.report input.obligation.requiredFields with
  | error e => simp [Bind.bind, Except.bind]
  | ok _ =>
    cases lib.validateTolerance input.obligation input.report with
    | error e => simp [Bind.bind, Except.bind]
    | ok _ =>
      by_cases h : input.report.billingID = input.billingID
      · simp [Bind.bind, Except.bind, validateBillingID, h]
      · simp [Bind.bind, Except.bind, validateBillingID, h]

end Library

def exactLibrary : Library where
  toPPM tolerance := (tolerance * toleranceScale).floor
  percent tolerance := toString (tolerance * 100).floor
  rfc3339Nano := toString
  quote text := "\"" ++ text ++ "\""

inductive CallerKind
  | unknown
  | agent
  | broker
  deriving DecidableEq

structure Caller where
  keyID : String
  kind : CallerKind
  agentID : String

def Library.authorizeForAgent (lib : Library) (caller : Caller) (agentID : String)
    (allowBrokerRelay : Bool) : Except Error Unit :=
  match caller.kind with
  | .agent =>
    if caller.agentID = agentID then .ok ()
    else .error (newf .permissionDenied ("caller " ++ lib.quote caller.agentID ++
      " may not act on behalf of agent " ++ lib.quote agentID))
  | .broker =>
    if allowBrokerRelay then .ok ()
    else .error (newf .permissionDenied ("broker " ++ lib.quote caller.keyID ++
      " rejected: tenant does not allow broker relay"))
  | .unknown => .error (newf .unauthenticated "unclassified caller")

namespace Obligation

/-- `MarkValidationValidated`, which matches a pending row only. -/
def markValidationValidated (o : Obligation) (sourceReportID issuedReportID : String)
    (consumed : Int) (now : Time) : Option Obligation :=
  if o.state = .pending then
    some { o with
      state := .received
      consumedQuantity := some consumed
      receivedAt := some now
      validationOutcome := some .validated
      validatedAt := some now
      sourceReportID := some sourceReportID
      issuedReportID := some issuedReportID }
  else none

/-- `MarkValidationRejected`, which matches a pending row only. -/
def markValidationRejected (o : Obligation) (outcome : ValidationOutcome)
    (sourceReportID : String) (now : Time) : Option Obligation :=
  if o.state = .pending then
    some { o with
      validationOutcome := some outcome
      validatedAt := some now
      sourceReportID := some sourceReportID }
  else none

end Obligation

inductive TxOutcome
  | accepted (reportID : String)
  | rejected (e : Error)
  | refused (e : Error)
  deriving DecidableEq

def alreadyReported : Error := newf .failedPrecondition "obligation already reported"

def ReportValidationContext.input (rc : ReportValidationContext) (report : UsageReport)
    (now : Time) : ReportInput :=
  { obligation := rc.obligation, transactionID := rc.transactionID, billingID := rc.billingID,
    createdAt := rc.createdAt, report, now }

namespace Library

variable (lib : Library)

def persistRejection (req : UsageReport) (rc : ReportValidationContext)
    (outcome : ValidationOutcome) (e : Error) (markedAt : Time) :
    TxOutcome × Option ReportValidationContext :=
  match rc.obligation.markValidationRejected outcome req.idempotencyKey markedAt with
  | none => (.refused alreadyReported, none)
  | some o => (.rejected e, some { rc with obligation := o })

def persistValidation (req : UsageReport) (rc : ReportValidationContext)
    (issuedReportID : String) (markedAt : Time) : TxOutcome × Option ReportValidationContext :=
  match rc.obligation.markValidationValidated req.idempotencyKey issuedReportID
      req.consumedQuantity markedAt with
  | none => (.refused alreadyReported, none)
  | some o => (.accepted issuedReportID, some { rc with obligation := o })

/-- The body of the transaction on the row it loaded, and the row it writes. `now` is the
clock at the checks and `markedAt` the clock at the write. -/
def runReportUsageTx (caller : Caller) (req : UsageReport) (now markedAt : Time)
    (issuedReportID : String) :
    Option ReportValidationContext → TxOutcome × Option ReportValidationContext
  | none => (.refused (newf .notFound "no obligation for transaction"), none)
  | some rc =>
    match lib.authorizeForAgent caller rc.agentID rc.allowBrokerRelay with
    | .error e => (.refused e, none)
    | .ok () =>
      match lib.validateUsageReport (rc.input req now) with
      | .error (outcome, e) => persistRejection req rc outcome e markedAt
      | .ok () => persistValidation req rc issuedReportID markedAt

end Library

inductive FindReply
  | found (o : Obligation)
  | notFound
  | failed (text : String)

inductive TxReply
  | completed (now markedAt : Time) (issuedReportID : String) (outcome : TxOutcome)
  | loadFailed (text : String)
  | rejectFailed (text : String)
  | acceptFailed (text : String)
  | commitFailed (now markedAt : Time) (issuedReportID text : String) (applied : Bool)

inductive Op
  | resolveCaller
  | findAcceptedBySourceReportID (transactionID sourceReportID : String)
  | reportUsageTx (caller : Caller) (req : UsageReport)

abbrev Res : Op → Type
  | .resolveCaller => Except Error Caller
  | .findAcceptedBySourceReportID _ _ => FindReply
  | .reportUsageTx _ _ => TxReply

structure State where
  rows : String → Option ReportValidationContext

namespace State

def write (s : State) (transactionID : String) : Option ReportValidationContext → State
  | none => s
  | some rc => ⟨Function.update s.rows transactionID (some rc)⟩

def findAccepted (s : State) (transactionID sourceReportID : String) : Option Obligation :=
  match s.rows transactionID with
  | none => none
  | some rc =>
    if rc.obligation.sourceReportID = some sourceReportID ∧ rc.obligation.issuedReportID.isSome
    then some rc.obligation
    else none

end State

def FindReply.agrees : FindReply → Option Obligation → Bool
  | found o, some o' => o = o'
  | notFound, none => true
  | failed _, _ => true
  | _, _ => false

namespace Library

variable (lib : Library)

def txStep (caller : Caller) (req : UsageReport) (s : State) : TxReply → Option State
  | .completed now markedAt issued outcome =>
    let result := lib.runReportUsageTx caller req now markedAt issued (s.rows req.transactionID)
    if issued ≠ "" ∧ result.1 = outcome then some (s.write req.transactionID result.2) else none
  | .commitFailed now markedAt issued _ true =>
    let result := lib.runReportUsageTx caller req now markedAt issued (s.rows req.transactionID)
    if issued ≠ "" then some (s.write req.transactionID result.2) else none
  | _ => some s

def step : (op : Op) → State → Res op → Option State
  | .resolveCaller, s, _ => some s
  | .findAcceptedBySourceReportID transactionID sourceReportID, s, r =>
    if r.agrees (s.findAccepted transactionID sourceReportID) then some s else none
  | .reportUsageTx caller req, s, r => lib.txStep caller req s r

end Library

abbrev Report (α : Type) := ExceptT Error (Prog Op Res) α

structure UsageReportResponse where
  ver : String
  reportID : String
  deriving DecidableEq

def buildReplayResponse (protocolVersion : String) (existing : Obligation) : UsageReportResponse :=
  ⟨protocolVersion, existing.issuedReportID.getD ""⟩

def reportUsageWithTx (protocolVersion : String) (caller : Caller) (req : UsageReport) :
    Report UsageReportResponse := do
  match ← ask (Op.reportUsageTx caller req) with
  | .completed _ _ _ (.accepted reportID) => pure ⟨protocolVersion, reportID⟩
  | .completed _ _ _ (.rejected e) => throw e
  | .completed _ _ _ (.refused e) => throw e
  | .loadFailed text => throw (wrap .internal text "load obligation with transaction")
  | .rejectFailed text => throw (wrap .internal text "persist validation rejection")
  | .acceptFailed text => throw (wrap .internal text "persist validation outcome")
  | .commitFailed _ _ _ text _ => throw (newf .unspecified text)

def reportUsageResolved (protocolVersion : String) (caller : Caller) (req : UsageReport) :
    Report UsageReportResponse := do
  match ← ask (Op.findAcceptedBySourceReportID req.transactionID req.idempotencyKey) with
  | .found existing => pure (buildReplayResponse protocolVersion existing)
  | .failed text => throw (wrap .internal text "idempotent retry probe")
  | .notFound => reportUsageWithTx protocolVersion caller req

def reportUsage (protocolVersion : String) : Option UsageReport → Report UsageReportResponse
  | none => throw (newf .invalidRequest "report required")
  | some req =>
    if req.transactionID = "" then throw (newf .invalidRequest "transaction_id required")
    else if req.idempotencyKey = "" then throw (newf .invalidRequest "report id required")
    else do
      match ← ask Op.resolveCaller with
      | .error e => throw e
      | .ok caller => reportUsageResolved protocolVersion caller req

end Ramp.Reporting
