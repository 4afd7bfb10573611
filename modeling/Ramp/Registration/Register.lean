import Ramp.Data.Table
import Ramp.Exchange.ItemBilling
import Ramp.Reporting.Report

/-! `Register` as a program over three backends: the system of record, the ledger and the
database of the Exchange. The insert into the system of record and the read of the stored
account share one transaction, as do the guarded update of the agent's row and the audit
row; each of the two is one call. Every call may fail, also after it was applied. -/

namespace Ramp.Registration

open Ramp.Billing Ramp.Exchange
open Ramp.Reporting (Caller)

structure DefaultTenant where
  id : String
  activateNewAgentsByDefault : Bool
  defaultAgentCredit : Option ℚ

structure RegisterRequest where
  registrationData : String
  termsDigest : String

structure RegisterResponse where
  ver : String
  billingRef : String
  active : Bool
  deriving DecidableEq

structure OnRegisterRequest where
  billingRef : String
  subdomain : String
  active : Bool
  registrationData : String

structure Account where
  billingRef : String
  active : Bool
  registrationData : String
  deriving DecidableEq

structure RegistrationRecord where
  agentID : String
  billingRef : String
  digest : Option String
  tenantID : String
  sourceAddr : String

structure AuditEntry where
  actor : String
  sourceAddr : String
  action : String
  billingRef : String
  acceptedTermsDigest : Option String
  tenantID : String

structure Credit where
  key : String
  billingRef : String
  amount : ℚ
  deriving DecidableEq

inductive SorError
  | accountNotFound
  | subdomainRequired
  | billingRefRequired
  | other (text : String)

inductive TenantReply
  | found (tenant : DefaultTenant)
  | notFound (text : String)
  | failed (text : String)

inductive OnRegisterReply
  | registered (acct : Account)
  | failed (e : SorError) (applied : Bool)

inductive LedgerReply
  | done
  | failed (e : BillingError) (applied : Bool)

inductive TxReply
  | committed
  | failed (text : String) (applied : Bool)

/-- `agentByID` gives the billing ref in the row of the agent, empty if it has none. -/
inductive Op
  | resolveCaller
  | agentByID (id : String)
  | isActive (billingRef : String)
  | tenantByDomain (domain : String)
  | billingRefGen
  | onRegister (req : OnRegisterRequest)
  | ensureAgentAccount (billingRef : String)
  | credit (billingRef : String) (amount : ℚ) (currency key : String)
  | recordRegistration (record : RegistrationRecord)

abbrev Res : Op → Type
  | .resolveCaller => Except Error Caller
  | .agentByID _ => Except String String
  | .isActive _ => Except SorError Bool
  | .tenantByDomain _ => TenantReply
  | .billingRefGen => String
  | .onRegister _ => OnRegisterReply
  | .ensureAgentAccount _ => LedgerReply
  | .credit _ _ _ _ => LedgerReply
  | .recordRegistration _ => TxReply

abbrev Svc := ExceptT Error (Prog Op Res)

abbrev ask (op : Op) : Svc (Res op) := Ramp.ask op

def sorErrorKind : SorError → Kind
  | .accountNotFound => .notFound
  | _ => .internal

def SorError.text : SorError → String
  | .accountNotFound => "sor: account not found"
  | .subdomainRequired => "sor: subdomain required"
  | .billingRefRequired => "sor: billing_ref required"
  | .other text => text

def welcomeCreditKey (billingRef : String) : String := "service-welcome:" ++ billingRef

def registerAuditAction : String := "Register"

def validateOnRegister (req : OnRegisterRequest) : Option SorError :=
  if req.subdomain = "" then some .subdomainRequired
  else if req.billingRef = "" then some .billingRefRequired
  else none

/-- The configuration, and the checks of the registration data that the SDK makes.
`boundsMessage` says which bound the data crosses, and `schemaErrors` which of its fields
do not conform to the published schema. -/
structure RegisterService where
  sorWired : Bool
  defaultTenantDomain : String
  ledgerCurrency : String
  termsDigest : String
  protocolVersion : String
  quote : String → String
  boundsMessage : String → Option String
  schemaErrors : String → List String

namespace RegisterService

variable (s : RegisterService)

def resolveAccountAgent (action : String) : Svc (String × String) := do
  match ← ask Op.resolveCaller with
  | .error e => throw e
  | .ok caller =>
    if ¬ s.sorWired then throw (newf .internal "service has no SoR adapter wired")
    else if caller.kind ≠ .agent then
      throw (newf .permissionDenied ("only an agent may " ++ action))
    else
      match ← ask (Op.agentByID caller.agentID) with
      | .error e => throw (wrap .internal e ("load agent to " ++ action))
      | .ok billingRef => pure (caller.agentID, billingRef)

def registeredResponse (billingRef : String) : Svc RegisterResponse := do
  match ← ask (Op.isActive billingRef) with
  | .error e => throw (wrap (sorErrorKind e) e.text "read account status")
  | .ok active => pure { ver := s.protocolVersion, billingRef, active }

def acceptedTermsDigest (presented : String) : Except Error (Option String) :=
  if s.termsDigest = "" then .ok none
  else if presented ≠ s.termsDigest then
    .error (newf .termsDigestStale ("terms_digest does not match the published digest " ++
      s.termsDigest ++ ": re-fetch the terms and register again"))
  else .ok (some s.termsDigest)

def gateRegistration (req : RegisterRequest) : Except Error (Option String) :=
  match s.boundsMessage req.registrationData with
  | some message =>
    .error ((newf .invalidRequest ("registration_data is malformed: " ++ message)).withField
      "registration_data")
  | none =>
    match s.acceptedTermsDigest req.termsDigest with
    | .error e => .error e
    | .ok digest =>
      if (s.schemaErrors req.registrationData).length > 0 then
        .error (newf .registrationDataInvalid
          ("registration_data does not conform to the published data_schema: " ++
            toString (s.schemaErrors req.registrationData).length ++ " field(s) failed"))
      else .ok digest

def welcomeGrant (acct : Account) (tenant : DefaultTenant) : Option ℚ :=
  if acct.active then tenant.defaultAgentCredit.filter (· > 0) else none

def grantWelcome (acct : Account) (tenant : DefaultTenant) : Svc Unit :=
  match welcomeGrant acct tenant with
  | none => pure ()
  | some amount => do
    match ← ask (Op.credit acct.billingRef amount s.ledgerCurrency
        (welcomeCreditKey acct.billingRef)) with
    | .failed e _ =>
      throw (wrap (billingErrorKind e) (Service.billingErrorText e) "grant default credit")
    | .done => pure ()

def firstRegister (agentID : String) (req : RegisterRequest) (sourceAddr : String) :
    Svc RegisterResponse := do
  match ← ask (Op.tenantByDomain s.defaultTenantDomain) with
  | .notFound e => throw (wrap .failedPrecondition e
      ("default tenant " ++ s.quote s.defaultTenantDomain ++ " is not seeded"))
  | .failed e => throw (wrap .internal e "resolve default tenant")
  | .found tenant =>
    let digest ← orThrow (s.gateRegistration req) id
    let candidate ← ask Op.billingRefGen
    match ← ask (Op.onRegister
        { billingRef := candidate, subdomain := agentID,
          active := tenant.activateNewAgentsByDefault,
          registrationData := req.registrationData }) with
    | .failed e _ => throw (wrap (sorErrorKind e) e.text "register account in system of record")
    | .registered acct =>
      match ← ask (Op.ensureAgentAccount acct.billingRef) with
      | .failed e _ =>
        throw (wrap (billingErrorKind e) (Service.billingErrorText e) "create ledger account")
      | .done =>
        s.grantWelcome acct tenant
        match ← ask (Op.recordRegistration
            { agentID, billingRef := acct.billingRef, digest, tenantID := tenant.id,
              sourceAddr }) with
        | .failed e _ => throw (wrap .internal e "record registration")
        | .committed =>
          pure { ver := s.protocolVersion, billingRef := acct.billingRef, active := acct.active }

def register (req : RegisterRequest) (sourceAddr : String) : Svc RegisterResponse := do
  let (agentID, billingRef) ← s.resolveAccountAgent "register its own account"
  if billingRef ≠ "" then s.registeredResponse billingRef
  else s.firstRegister agentID req sourceAddr

end RegisterService

structure State where
  refs : String → Option String
  accounts : Table String Account
  ledgerAccounts : List String
  credits : List Credit
  audit : List AuditEntry

namespace State

/-- The stored account and the store after the insert. A candidate ref that another account
has is refused by its primary key. -/
def insertIfAbsent (s : State) (req : OnRegisterRequest) : Option (Account × State) :=
  if (validateOnRegister req).isSome then none
  else
    match s.accounts.get? req.subdomain with
    | some acct => some (acct, s)
    | none =>
      if s.accounts.entries.any fun e => e.2.billingRef = req.billingRef then none
      else
        let acct : Account := ⟨req.billingRef, req.active, req.registrationData⟩
        some (acct, { s with accounts := s.accounts.insert req.subdomain acct })

def ensureAccount (s : State) (billingRef : String) : State :=
  if billingRef ∈ s.ledgerAccounts then s
  else { s with ledgerAccounts := s.ledgerAccounts ++ [billingRef] }

def applyCredit (s : State) (c : Credit) : State :=
  if c.key ∈ s.credits.map Credit.key then s else { s with credits := s.credits ++ [c] }

def record (s : State) (r : RegistrationRecord) : State :=
  match s.refs r.agentID with
  | some _ => s
  | none =>
    { s with
      refs := Function.update s.refs r.agentID (some r.billingRef)
      audit := s.audit ++ [⟨r.agentID, r.sourceAddr, registerAuditAction, r.billingRef, r.digest,
        r.tenantID⟩] }

/-- The active flag is cached and an operator may change it, so `isActive` may answer either
way. -/
def step : (op : Op) → State → Res op → Option State
  | .agentByID id, s, .ok billingRef => if billingRef = (s.refs id).getD "" then some s else none
  | .onRegister req, s, .registered acct =>
    (s.insertIfAbsent req).bind fun x => if acct = x.1 then some x.2 else none
  | .onRegister req, s, .failed _ applied =>
    if applied then (s.insertIfAbsent req).map Prod.snd else some s
  | .ensureAgentAccount billingRef, s, .done => some (s.ensureAccount billingRef)
  | .ensureAgentAccount billingRef, s, .failed _ applied =>
    some (if applied then s.ensureAccount billingRef else s)
  | .credit billingRef amount _ key, s, .done => some (s.applyCredit ⟨key, billingRef, amount⟩)
  | .credit billingRef amount _ key, s, .failed _ applied =>
    some (if applied then s.applyCredit ⟨key, billingRef, amount⟩ else s)
  | .recordRegistration r, s, .committed => some (s.record r)
  | .recordRegistration r, s, .failed _ applied => some (if applied then s.record r else s)
  | _, s, _ => some s

def empty : State := ⟨fun _ => none, ∅, [], [], []⟩

end State

inductive Operator (s : State) : State → Prop
  | switch {subdomain : String} {acct : Account} (active : Bool)
    (h : s.accounts.get? subdomain = some acct) :
    Operator s { s with accounts := s.accounts.insert subdomain { acct with active } }
  | fund (credit : Credit) : Operator s (s.applyCredit credit)

end Ramp.Registration
