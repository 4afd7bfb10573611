import Ramp.Program.Observed
import Ramp.Program.Schedule
import Ramp.Registration.Register

/-! Concurrent registrations of one agent. What the system of record, the ledger and the
agent's row once say of an agent stays so. Each call writes only refs that the system of
record gave it, and the system of record gives every call the same one. -/

namespace Ramp.Registration

open Ramp.Exchange Prog

namespace State

def accountRef (s : State) (subdomain : String) : Option String :=
  (s.accounts.get? subdomain).map Account.billingRef

def registrations (s : State) (agent : String) : ℕ :=
  s.audit.countP fun e => e.actor = agent ∧ e.action = registerAuditAction

/-- The row of an agent names its account, which the ledger has as well, and there is one
audit row for it; no key was credited twice. -/
structure Sound (s : State) : Prop where
  linked : ∀ id ref, s.refs id = some ref → s.accountRef id = some ref ∧ ref ∈ s.ledgerAccounts
  audited : ∀ id, s.registrations id ≤ if (s.refs id).isSome then 1 else 0
  credited : (s.credits.map Credit.key).Nodup

structure Extends (s t : State) : Prop where
  refs : ∀ id ref, s.refs id = some ref → t.refs id = some ref
  accounts : ∀ id ref, s.accountRef id = some ref → t.accountRef id = some ref
  ledger : ∀ ref, ref ∈ s.ledgerAccounts → ref ∈ t.ledgerAccounts

theorem Extends.rfl {s : State} : s.Extends s :=
  ⟨fun _ _ h => h, fun _ _ h => h, fun _ h => h⟩

variable {s t : State} {acct : Account} {req : OnRegisterRequest}
  {ref : String} {credit : Credit} {r : RegistrationRecord}

theorem accountRef_insert {subdomain id : String}
    (h : s.accounts.get? subdomain = none ∨ s.accountRef subdomain = some acct.billingRef)
    (href : s.accountRef id = some ref) (ht : t.accounts = s.accounts.insert subdomain acct) :
    t.accountRef id = some ref := by
  unfold accountRef
  rw [ht, Table.get?_insert]
  split_ifs with hid
  · subst hid
    rcases h with hnone | hsome
    · simp [accountRef, hnone] at href
    · rw [← href, hsome]
      simp
  · exact href

section

variable (h : s.insertIfAbsent req = some (acct, t))
include h

theorem insertIfAbsent_cases : (s.accounts.get? req.subdomain = some acct ∧ t = s) ∨
      (s.accounts.get? req.subdomain = none ∧ acct.billingRef = req.billingRef ∧
        t = { s with accounts := s.accounts.insert req.subdomain acct }) := by
  obtain ⟨-, h⟩ := Option.ite_none_left_eq_some.mp h
  split at h
  next stored hstored =>
    cases h
    exact .inl ⟨hstored, Eq.refl _⟩
  next hnone =>
    obtain ⟨-, h⟩ := Option.ite_none_left_eq_some.mp h
    cases h
    exact .inr ⟨hnone, Eq.refl _, Eq.refl _⟩

theorem insertIfAbsent_accountRef : t.accountRef req.subdomain = some acct.billingRef := by
  rcases insertIfAbsent_cases h with ⟨hstored, rfl⟩ | ⟨-, -, rfl⟩
  · simp [accountRef, hstored]
  · simp [accountRef, Table.get?_insert]

theorem insertIfAbsent_extends : s.Extends t := by
  rcases insertIfAbsent_cases h with ⟨-, rfl⟩ | ⟨hnone, -, rfl⟩
  · exact .rfl
  · exact ⟨fun _ _ h => h, fun id ref href => accountRef_insert (.inl hnone) href (Eq.refl _),
      fun _ h => h⟩

end

theorem ensureAccount_mem : ref ∈ (s.ensureAccount ref).ledgerAccounts := by
  unfold ensureAccount
  split_ifs with h
  · exact h
  · exact List.mem_append_right _ (List.mem_singleton_self ref)

theorem ensureAccount_extends : s.Extends (s.ensureAccount ref) := by
  unfold ensureAccount
  split_ifs
  · exact .rfl
  · exact ⟨fun _ _ h => h, fun _ _ h => h, fun _ h => List.mem_append_left _ h⟩

theorem applyCredit_extends : s.Extends (s.applyCredit credit) := by
  unfold applyCredit
  split_ifs
  · exact .rfl
  · exact ⟨fun _ _ h => h, fun _ _ h => h, fun _ h => h⟩

theorem record_extends : s.Extends (s.record r) := by
  unfold record
  split
  · exact .rfl
  next hnone =>
    refine ⟨fun id ref h => ?_, fun _ _ h => h, fun _ h => h⟩
    have hid : id ≠ r.agentID := by
      intro hid
      rw [hid, hnone] at h
      cases h
    exact (Function.update_of_ne hid _ _).trans h

/-- What a call did to the state, whatever it was answered. -/
inductive Effect (s : State) : Op → State → Prop
  | unchanged {o : Op} : Effect s o s
  | inserted {q : OnRegisterRequest} {a : Account} {u : State}
    (h : s.insertIfAbsent q = some (a, u)) : Effect s (.onRegister q) u
  | ensured {b : String} : Effect s (.ensureAgentAccount b) (s.ensureAccount b)
  | credited {b currency key : String} {amount : ℚ} :
    Effect s (.credit b amount currency key) (s.applyCredit ⟨key, b, amount⟩)
  | recorded {q : RegistrationRecord} : Effect s (.recordRegistration q) (s.record q)

theorem step_effect {op : Op} {r : Res op} (h : step op s r = some t) : Effect s op t := by
  cases op with
  | agentByID id =>
    cases r with
    | error e => exact Option.some.inj h ▸ .unchanged
    | ok ref =>
      obtain ⟨-, h⟩ := Option.ite_none_right_eq_some.mp h
      exact Option.some.inj h ▸ .unchanged
  | onRegister req =>
    cases r with
    | registered acct =>
      obtain ⟨⟨stored, t'⟩, hstored, h⟩ := Option.bind_eq_some_iff.mp h
      obtain ⟨-, h⟩ := Option.ite_none_right_eq_some.mp h
      exact Option.some.inj h ▸ .inserted hstored
    | failed e applied =>
      cases applied with
      | false => exact Option.some.inj h ▸ .unchanged
      | true =>
        obtain ⟨⟨stored, t'⟩, hstored, rfl⟩ := Option.map_eq_some_iff.mp h
        exact .inserted hstored
  | ensureAgentAccount _ | credit _ _ _ _ | recordRegistration _ =>
    rcases r with _ | ⟨e, _ | _⟩ <;> cases h <;> constructor
  | _ => exact Option.some.inj h ▸ .unchanged

theorem step_extends {op : Op} {r : Res op} (h : step op s r = some t) : s.Extends t := by
  cases step_effect h with
  | unchanged => exact .rfl
  | inserted h => exact insertIfAbsent_extends h
  | ensured => exact ensureAccount_extends
  | credited => exact applyCredit_extends
  | recorded => exact record_extends

variable (hs : s.Sound)
include hs

theorem Sound.of_extends (h : s.Extends t) (hrefs : t.refs = s.refs) (haudit : t.audit = s.audit)
    (hcredits : (t.credits.map Credit.key).Nodup) : t.Sound := by
  refine ⟨fun id ref href => ?_, fun id => ?_, hcredits⟩
  · rw [hrefs] at href
    obtain ⟨haccount, hledger⟩ := hs.linked id ref href
    exact ⟨h.accounts id ref haccount, h.ledger ref hledger⟩
  · rw [registrations, hrefs, haudit]
    exact hs.audited id

theorem Sound.insertIfAbsent (h : s.insertIfAbsent req = some (acct, t)) : t.Sound := by
  have hext := insertIfAbsent_extends h
  rcases insertIfAbsent_cases h with ⟨-, rfl⟩ | ⟨-, -, rfl⟩
  · exact hs
  · exact hs.of_extends hext rfl rfl hs.credited

theorem Sound.ensureAccount : (s.ensureAccount ref).Sound := by
  refine hs.of_extends ensureAccount_extends ?_ ?_ ?_ <;> unfold State.ensureAccount <;> split_ifs
  all_goals first | rfl | exact hs.credited

theorem Sound.applyCredit : (s.applyCredit credit).Sound := by
  by_cases h : credit.key ∈ s.credits.map Credit.key
  · rw [State.applyCredit, if_pos h]
    exact hs
  · have hext := @applyCredit_extends s credit
    rw [State.applyCredit, if_neg h] at hext ⊢
    refine hs.of_extends hext rfl rfl ?_
    rw [List.map_append, List.map_singleton]
    exact List.nodup_append.mpr ⟨hs.credited, List.nodup_singleton _, by
      intro a ha b hb hab
      obtain rfl := List.mem_singleton.mp hb
      exact h (hab ▸ ha)⟩

theorem Sound.record (haccount : s.accountRef r.agentID = some r.billingRef)
    (hledger : r.billingRef ∈ s.ledgerAccounts) : (s.record r).Sound := by
  unfold State.record
  split
  · exact hs
  next hnone =>
    refine ⟨fun id ref href => ?_, fun id => ?_, hs.credited⟩
    · by_cases hid : id = r.agentID
      · subst hid
        dsimp only at href
        rw [Function.update_self] at href
        cases href
        exact ⟨haccount, hledger⟩
      · dsimp only at href
        rw [Function.update_of_ne hid] at href
        exact hs.linked id ref href
    · have hold := hs.audited id
      unfold registrations at hold ⊢
      by_cases hid : id = r.agentID
      · subst hid
        simp [hnone] at hold
        simpa [List.countP_append] using hold
      · simpa [List.countP_append, Function.update_of_ne hid, Ne.symm hid] using hold

end State

def Shows (e : Event Op Res) (s : State) : Prop :=
  match e with
  | ⟨.agentByID id, .ok ref⟩ => ref ≠ "" → s.refs id = some ref
  | ⟨.onRegister req, .registered acct⟩ => s.accountRef req.subdomain = some acct.billingRef
  | ⟨.ensureAgentAccount ref, .done⟩ => ref ∈ s.ledgerAccounts
  | _ => True

variable {s t : State}

theorem Shows.mono {e : Event Op Res} (h : Shows e s) (hext : s.Extends t) : Shows e t := by
  unfold Shows at h ⊢
  split
  · exact fun hne => hext.refs _ _ (h hne)
  · exact hext.accounts _ _ h
  · exact hext.ledger _ h
  · trivial

theorem step_shows {op : Op} {r : Res op} (h : State.step op s r = some t) : Shows ⟨op, r⟩ t := by
  unfold Shows
  split
  next id ref heq =>
    cases heq
    obtain ⟨rfl, ht⟩ := Option.ite_none_right_eq_some.mp h
    cases ht
    intro hne
    cases hrefs : s.refs id with
    | none => simp [hrefs] at hne
    | some ref => rfl
  next req acct heq =>
    cases heq
    obtain ⟨⟨stored, t'⟩, hstored, h⟩ := Option.bind_eq_some_iff.mp h
    obtain ⟨rfl, h⟩ := Option.ite_none_right_eq_some.mp h
    exact Option.some.inj h ▸ State.insertIfAbsent_accountRef hstored
  next ref heq =>
    cases heq
    exact Option.some.inj h ▸ State.ensureAccount_mem
  · trivial

theorem Operator.extends (h : Operator s t) : s.Extends t := by
  cases h with
  | @switch subdomain acct active hacct =>
    refine ⟨fun _ _ h => h, fun id ref href => ?_, fun _ h => h⟩
    have hsame : s.accountRef subdomain = some { acct with active }.billingRef := by
      simp [State.accountRef, hacct]
    exact State.accountRef_insert (.inr hsame) href rfl
  | fund credit => exact State.applyCredit_extends

theorem Operator.sound (h : Operator s t) (hs : s.Sound) : t.Sound := by
  have hext := h.extends
  cases h with
  | switch active hacct => exact hs.of_extends hext rfl rfl hs.credited
  | fund credit => exact hs.applyCredit

theorem lasting : Lasting State.step Operator State.Sound Shows where
  shown _ _ _ _ _ h := step_shows h
  kept _ _ _ _ _ _ h hshows := hshows.mono (State.step_extends h)
  moved _ _ _ _ h hshows := hshows.mono h.extends

def callerOf : History Op Res → Option String
  | ⟨.resolveCaller, .ok caller⟩ :: _ => if caller.kind = .agent then some caller.agentID else none
  | _ => none

variable {h h' : History Op Res}

theorem callerOf_append {agent : String} (hc : callerOf h = some agent) :
    callerOf (h ++ h') = some agent := by
  cases h with
  | nil => cases hc
  | cons e h =>
    obtain ⟨op, r⟩ := e
    cases op with
    | resolveCaller => cases r <;> exact hc
    | _ => cases hc

def Stored (h : History Op Res) (agent ref : String) : Prop :=
  ∃ req acct, ⟨.onRegister req, .registered acct⟩ ∈ h ∧ req.subdomain = agent ∧
    acct.billingRef = ref

theorem Stored.append {agent ref : String} (hs : Stored h agent ref) :
    Stored (h ++ h') agent ref := by
  obtain ⟨req, acct, hmem, hreq, hacct⟩ := hs
  exact ⟨req, acct, List.mem_append_left _ hmem, hreq, hacct⟩

/-- The registration acts for its caller, credits and records the ref that the system of
record stores, and records it once the ledger has the account. -/
def Guard (h : History Op Res) : Op → Prop
  | .onRegister req => callerOf h = some req.subdomain
  | .credit ref _ _ key => key = welcomeCreditKey ref ∧
    ∃ agent, callerOf h = some agent ∧ Stored h agent ref
  | .recordRegistration r => callerOf h = some r.agentID ∧ Stored h r.agentID r.billingRef ∧
    ⟨.ensureAgentAccount r.billingRef, .done⟩ ∈ h
  | _ => True

def Returned (h : History Op Res) (resp : RegisterResponse) : Prop :=
  ∃ agent, callerOf h = some agent ∧ (Stored h agent resp.billingRef ∨
    ⟨.agentByID agent, .ok resp.billingRef⟩ ∈ h ∧ resp.billingRef ≠ "")

namespace RegisterService

variable {s : RegisterService} {h : History Op Res}

theorem resolveAccountAgent_yields (action : String) : Yields recordCall Guard
      (fun h x => callerOf h = some x.1 ∧ ⟨.agentByID x.1, .ok x.2⟩ ∈ h)
      (s.resolveAccountAgent action) [] := by
  refine Spec.ask trivial fun reply t ht => ?_
  cases ht
  cases reply with
  | error e => exact Yields.throw
  | ok caller =>
    dsimp only
    split_ifs with hwired hbroker
    · exact Yields.throw
    · have hagent : caller.kind = .agent := not_not.mp hbroker
      refine Spec.ask trivial fun reply t ht => ?_
      cases ht
      cases reply with
      | error e => exact Yields.throw
      | ok ref =>
        refine Yields.pure ⟨?_, by simp⟩
        simp [callerOf, hagent]
    · exact Yields.throw

section

variable {agent : String} (hc : callerOf h = some agent)
include hc

theorem grantWelcome_yields {acct : Account} {tenant : DefaultTenant}
    (hs : Stored h agent acct.billingRef) :
    Yields recordCall Guard (fun h' _ => h <+: h') (s.grantWelcome acct tenant) h := by
  unfold grantWelcome
  split
  · exact Yields.pure (List.prefix_refl h)
  · refine Spec.ask ⟨rfl, agent, hc, hs⟩ fun reply t ht => ?_
    cases ht
    cases reply with
    | failed e applied => exact Yields.throw
    | done => exact Yields.pure (List.prefix_append _ _)

theorem firstRegister_yields {sourceAddr : String} {req : RegisterRequest} :
    Yields recordCall Guard Returned (s.firstRegister agent req sourceAddr) h := by
  refine Spec.ask trivial fun reply t ht => ?_
  cases ht
  cases reply with
  | notFound e => exact Yields.throw
  | failed e => exact Yields.throw
  | found tenant =>
  refine Yields.check fun digest _ => ?_
  refine Spec.ask trivial fun candidate t ht => ?_
  cases ht
  refine Spec.ask (callerOf_append (callerOf_append hc)) fun reply t ht => ?_
  cases ht
  cases reply with
  | failed e applied => exact Yields.throw
  | registered acct =>
  refine Spec.ask trivial fun reply t ht => ?_
  cases ht
  cases reply with
  | failed e applied => exact Yields.throw
  | done =>
  let asked : OnRegisterRequest :=
    ⟨candidate, agent, tenant.activateNewAgentsByDefault, req.registrationData⟩
  have hstored : ∀ l : History Op Res,
      Stored (l ++ [⟨.onRegister asked, .registered acct⟩]) agent acct.billingRef :=
    fun l => ⟨asked, acct, List.mem_append_right _ (List.mem_singleton_self _), rfl, rfl⟩
  have hcaller : ∀ {a b c d : History Op Res}, callerOf (h ++ a ++ b ++ c ++ d) = some agent :=
    callerOf_append (callerOf_append (callerOf_append (callerOf_append hc)))
  refine Yields.seq (grantWelcome_yields hcaller (hstored _).append) ?_
  rintro t - ⟨grown, rfl⟩
  have hensured : ∀ l : History Op Res,
      ⟨.ensureAgentAccount acct.billingRef, .done⟩ ∈
        l ++ [⟨.ensureAgentAccount acct.billingRef, .done⟩] ++ grown :=
    fun l => List.mem_append_left _ (List.mem_append_right _ (List.mem_singleton_self _))
  refine Spec.ask ⟨callerOf_append hcaller, (hstored _).append.append, hensured _⟩
    fun reply t ht => ?_
  cases ht
  cases reply with
  | failed e applied => exact Yields.throw
  | committed =>
    exact Yields.pure ⟨agent, callerOf_append (callerOf_append hcaller),
      .inl (hstored _).append.append.append⟩

end

theorem register_yields (req : RegisterRequest) (sourceAddr : String) :
    Yields recordCall Guard Returned (s.register req sourceAddr) [] := by
  refine Yields.seq (resolveAccountAgent_yields _) fun h x hx => ?_
  obtain ⟨agent, ref⟩ := x
  obtain ⟨hcaller, hrow⟩ := hx
  dsimp only
  split_ifs with href
  · refine Spec.ask trivial fun reply t ht => ?_
    cases ht
    cases reply with
    | error e => exact Yields.throw
    | ok active =>
      exact Yields.pure ⟨agent, callerOf_append hcaller, .inr ⟨List.mem_append_left _ hrow, href⟩⟩
  · exact firstRegister_yields hcaller

end RegisterService

theorem step_sound {h : History Op Res} {op : Op} {r : Res op} (hs : s.Sound)
    (hshown : ∀ e ∈ h, Shows e s) (hg : Guard h op) (hstep : State.step op s r = some t) :
    t.Sound := by
  cases State.step_effect hstep with
  | unchanged => exact hs
  | inserted h => exact hs.insertIfAbsent h
  | ensured => exact hs.ensureAccount
  | credited => exact hs.applyCredit
  | recorded =>
    obtain ⟨-, ⟨req, acct, hstored, hreq, hacct⟩, hensured⟩ := hg
    refine hs.record ?_ (hshown _ hensured)
    rw [← hreq, ← hacct]
    exact hshown _ hstored

section

variable {ι : Type} [DecidableEq ι] {ss : ι → RegisterService} {reqs : ι → RegisterRequest}
  {addrs : ι → String} {tr : Trace Op Res ι}
  {c : Pool Op Res State ι (Except Error RegisterResponse)} {agent : String}

/-- Any number of calls of `Register`, with nothing registered before them. -/
def registrations (ss : ι → RegisterService) (reqs : ι → RegisterRequest) (addrs : ι → String) :
    Pool Op Res State ι (Except Error RegisterResponse) :=
  ⟨State.empty, fun i => ((ss i).register (reqs i) (addrs i)).run⟩

abbrev RegisterRun (ss : ι → RegisterService) (reqs : ι → RegisterRequest) (addrs : ι → String)
    (tr : Trace Op Res ι) (c : Pool Op Res State ι (Except Error RegisterResponse)) : Prop :=
  Run State.step Operator (registrations ss reqs addrs) tr c

def CallOf (tr : Trace Op Res ι) (i : ι) (agent : String) : Prop :=
  callerOf (tr.own i) = some agent

omit [DecidableEq ι] in
theorem registrations_spec (i : ι) :
    Spec recordCall Guard (fun h x => ∀ resp, x = .ok resp → Returned h resp)
      ((registrations ss reqs addrs).threads i) [] :=
  RegisterService.register_yields (reqs i) (addrs i)

theorem State.sound_empty : State.empty.Sound :=
  ⟨nofun, fun _ => Nat.zero_le _, List.nodup_nil⟩

section

variable (hr : RegisterRun ss reqs addrs tr c)
include hr

theorem RegisterRun.sound : c.shared.Sound ∧ ∀ x ∈ tr, Shows x.2 c.shared :=
  Run.invariant_shown lasting registrations_spec hr State.sound_empty
    (fun _ _ _ _ _ _ hs hshown hg hstep => step_sound hs hshown hg hstep)
    fun _ _ hs hmove => hmove.sound hs

theorem RegisterRun.stored {i : ι} {ref : String} (hs : Stored (tr.own i) agent ref) :
    c.shared.accountRef agent = some ref := by
  obtain ⟨req, acct, hmem, rfl, rfl⟩ := hs
  exact hr.sound.2 _ (Trace.mem_own.mp hmem)

theorem RegisterRun.returned_ref {i : ι} {resp : RegisterResponse} (hcall : CallOf tr i agent)
    (hret : c.threads i = .ret (.ok resp)) : c.shared.accountRef agent = some resp.billingRef := by
  obtain ⟨caller, hcaller, hfrom⟩ := hr.returned registrations_spec hret resp rfl
  obtain rfl := Option.some.inj (hcaller.symm.trans hcall)
  rcases hfrom with hstored | ⟨hrow, hne⟩
  · exact hr.stored hstored
  · have href := hr.sound.2 _ (Trace.mem_own.mp hrow) hne
    exact (hr.sound.1.linked _ _ href).1

theorem RegisterRun.credit_key {i : ι} {ref currency key : String} {amount : ℚ}
    {r : Res (.credit ref amount currency key)} (hcall : CallOf tr i agent)
    (hmem : (i, ⟨.credit ref amount currency key, r⟩) ∈ tr) :
    ∃ ref, c.shared.accountRef agent = some ref ∧ key = welcomeCreditKey ref := by
  obtain ⟨pre, post, rfl⟩ := List.append_of_mem hmem
  obtain ⟨hkey, caller, hcaller, hstored⟩ := hr.guarded registrations_spec rfl
  have hown : Trace.own (pre ++ (i, ⟨.credit ref amount currency key, r⟩) :: post) i =
      Trace.own pre i ++ Trace.own ((i, ⟨.credit ref amount currency key, r⟩) :: post) i :=
    Trace.own_append _ _ _
  unfold CallOf at hcall
  rw [hown, callerOf_append hcaller] at hcall
  obtain rfl := Option.some.inj hcall
  have hstored : Stored (Trace.own _ i) caller ref := hown ▸ hstored.append
  exact ⟨ref, hr.stored hstored, hkey⟩

end

theorem Run.refs_kept {c' : Pool Op Res State ι (Except Error RegisterResponse)}
    (hr : Run State.step Operator c tr c') {ref : String} (h : c.shared.refs agent = some ref) :
    c'.shared.refs agent = some ref := by
  let Inv : State → Prop := fun s => s.refs agent = some ref
  have hcall : ∀ s op r t, Inv s → State.step op s r = some t → Inv t :=
    fun s op r t hs hstep => (State.step_extends hstep).refs agent ref hs
  exact hr.preserves h hcall fun s t hs hmove => hmove.extends.refs agent ref hs

theorem State.Sound.countP_key {s : State} (hs : s.Sound) (key : String) :
    s.credits.countP (·.key = key) ≤ 1 := by
  have h := List.nodup_iff_count_le_one.mp hs.credited key
  rw [List.count, List.countP_map] at h
  exact h

/-- However the registrations of an agent interleave, fail and stop: all that succeed return
one billing ref, a ref in the agent's row stays, it names an account of the system of record
and one of the ledger, the welcome credit is applied at most once and one audit row at most
is written. -/
theorem registrations_agree {tr₁ tr₂ : Trace Op Res ι}
    {c₁ c₂ : Pool Op Res State ι (Except Error RegisterResponse)}
    (hr₁ : RegisterRun ss reqs addrs tr₁ c₁) (hr₂ : Run State.step Operator c₁ tr₂ c₂)
    (agent : String) : (∀ i j x y, CallOf (tr₁ ++ tr₂) i agent → CallOf (tr₁ ++ tr₂) j agent →
      c₂.threads i = .ret (.ok x) → c₂.threads j = .ret (.ok y) → x.billingRef = y.billingRef) ∧
    (∀ ref, c₁.shared.refs agent = some ref → c₂.shared.refs agent = some ref) ∧
    (∀ ref, c₂.shared.refs agent = some ref →
      (∃ acct, c₂.shared.accounts.get? agent = some acct ∧ acct.billingRef = ref) ∧
      ref ∈ c₂.shared.ledgerAccounts) ∧
    (∃ welcomeKey, c₂.shared.credits.countP (·.key = welcomeKey) ≤ 1 ∧
      ∀ i ref amount currency key r, CallOf (tr₁ ++ tr₂) i agent →
        (i, ⟨.credit ref amount currency key, r⟩) ∈ tr₁ ++ tr₂ → key = welcomeKey) ∧
    c₂.shared.registrations agent ≤ 1 := by
  have hr : RegisterRun ss reqs addrs (tr₁ ++ tr₂) c₂ := hr₁.trans hr₂
  have hsound := hr.sound.1
  refine ⟨?_, fun ref => Run.refs_kept hr₂, ?_, ?_, ?_⟩
  · intro i j x y hi hj hx hy
    exact Option.some.inj ((hr.returned_ref hi hx).symm.trans (hr.returned_ref hj hy))
  · intro ref href
    obtain ⟨haccount, hledger⟩ := hsound.linked agent ref href
    exact ⟨Option.map_eq_some_iff.mp haccount, hledger⟩
  · refine ⟨welcomeCreditKey ((c₂.shared.accountRef agent).getD ""), hsound.countP_key _, ?_⟩
    intro i ref amount currency key r hi hmem
    obtain ⟨stored, hstored, hkey⟩ := hr.credit_key hi hmem
    rw [hkey, hstored, Option.getD_some]
  · have h := hsound.audited agent
    split_ifs at h
    · exact h
    · exact h.trans (Nat.zero_le 1)

end

def plainRegistration : RegisterService where
  sorWired := true
  defaultTenantDomain := "default.example"
  ledgerCurrency := "USD"
  termsDigest := ""
  protocolVersion := "1.0"
  quote s := "\"" ++ s ++ "\""
  boundsMessage _ := none
  schemaErrors _ := []

def registrationAnswer (candidate : String) (credited : LedgerReply) :
    (op : Op) → State → Res op
  | .resolveCaller, _ => .ok ⟨"key", .agent, "agent"⟩
  | .agentByID id, s => .ok ((s.refs id).getD "")
  | .isActive _, _ => .ok true
  | .tenantByDomain _, _ => .found ⟨"tenant", true, some 5⟩
  | .billingRefGen, _ => candidate
  | .onRegister req, s =>
    match s.insertIfAbsent req with
    | some (acct, _) => .registered acct
    | none => .failed (.other "conflict") false
  | .ensureAgentAccount _, _ => .done
  | .credit _ _ _ _, _ => credited
  | .recordRegistration _, _ => .committed

/-- Two calls race: the first stores its ref and fails after its credit was applied, the
second goes on with the stored ref. A third comes later. -/
theorem registrations_agree_racing_calls : ∃ tr₁ c₁ tr₂ c₂,
      RegisterRun (fun _ : Fin 3 => plainRegistration) (fun _ => ⟨"data", ""⟩)
        (fun _ => "10.0.0.1") tr₁ c₁ ∧ Run State.step Operator c₁ tr₂ c₂ ∧
      c₂.threads 1 = .ret (.ok ⟨"1.0", "ref-0", true⟩) ∧
      c₂.threads 2 = .ret (.ok ⟨"1.0", "ref-0", true⟩) ∧
      c₂.shared.refs "agent" = some "ref-0" ∧ "ref-0" ∈ c₂.shared.ledgerAccounts ∧
      c₂.shared.credits = [⟨welcomeCreditKey "ref-0", "ref-0", 5⟩] ∧
      c₂.shared.registrations "agent" ≤ 1 := by
  let first : Turn Op Res State (Fin 3) :=
    ⟨0, registrationAnswer "ref-0" (.failed .backendUnavailable true)⟩
  let second : Turn Op Res State (Fin 3) := ⟨1, registrationAnswer "ref-1" .done⟩
  let third : Turn Op Res State (Fin 3) := ⟨2, registrationAnswer "ref-2" .done⟩
  have hrun : ∃ tr₁ c₁ tr₂ c₂,
      RegisterRun (fun _ : Fin 3 => plainRegistration) (fun _ => ⟨"data", ""⟩)
        (fun _ => "10.0.0.1") tr₁ c₁ ∧
      Run State.step Operator c₁ tr₂ c₂ ∧
      (c₁.shared.refs "agent" = some "ref-0" ∧
        (c₂.threads 1).ok? = some ⟨"1.0", "ref-0", true⟩ ∧
        (c₂.threads 2).ok? = some ⟨"1.0", "ref-0", true⟩ ∧
        c₂.shared.credits = [⟨welcomeCreditKey "ref-0", "ref-0", 5⟩]) :=
    Pool.exists_run_run
      [first, second, first, second, first, second, first, second, first, second, first, second,
        first, second, second]
      [third, third, third] (by decide +kernel)
  obtain ⟨tr₁, c₁, tr₂, c₂, hr₁, hr₂, hrefs, hsecond, hthird, hcredits⟩ := hrun
  obtain ⟨-, hkept, hlinked, -, haudit⟩ := registrations_agree hr₁ hr₂ "agent"
  have href := hkept _ hrefs
  exact ⟨tr₁, c₁, tr₂, c₂, hr₁, hr₂, ok?_eq_some.mp hsecond, ok?_eq_some.mp hthird, href,
    (hlinked _ href).2, hcredits, haudit⟩

end Ramp.Registration
