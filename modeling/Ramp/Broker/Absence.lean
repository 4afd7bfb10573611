import Ramp.Broker.Provenance

/-! What a resolve says of the URLs it has no offer for. The faults of a resolve are the
replies of its probes, lookups and queries that may be different a moment later. -/

namespace Ramp.Broker.Discovery

open Prog

variable {h : History Op Res} {uri : String}

@[simp] def failsProbe : Event Op Res → Bool
  | ⟨.probe _, .failed _⟩ => true
  | _ => false

@[simp] def findsManifest : Event Op Res → Bool
  | ⟨.probe _, .found _⟩ => true
  | _ => false

@[simp] def missesManifest : Event Op Res → Bool
  | ⟨.probe _, .missing⟩ => true
  | _ => false

@[simp] def declines : Event Op Res → Bool
  | ⟨.getByDomain _, .failed _⟩ => true
  | ⟨.getByDomain domain, .found row⟩ => (row.exchange domain).admission = .down
  | ⟨.resolveEndpoint _, .verdict _⟩ | ⟨.resolveEndpoint _, .failed _⟩ => true
  | _ => false

@[simp] def locates : Event Op Res → Bool
  | ⟨.resolveEndpoint _, .resolved _⟩ => true
  | _ => false

@[simp] def failsQuery : Event Op Res → Bool
  | ⟨.discoverResources _ _ _, .error _⟩ => true
  | _ => false

@[simp] def answersQuery : Event Op Res → Bool
  | ⟨.discoverResources _ _ _, .ok _⟩ => true
  | _ => false

/-- An offer was found and is held against the agent's budget. -/
@[simp] def choosesOffer : Event Op Res → Bool
  | ⟨.budgetCheck _ _, _⟩ | ⟨.budgetRecord _ _, _⟩ => true
  | _ => false

@[simp] def recordsCost : Event Op Res → Bool
  | ⟨.budgetRecord _ _, .recorded⟩ => true
  | _ => false

def about : Event Op Res → Option String
  | ⟨.getByDomain domain, _⟩ | ⟨.resolveEndpoint domain, _⟩ => some domain
  | ⟨.discoverResources _ query _, _⟩ => some query.exchange
  | _ => none

@[simp] def answeredGroups : Event Op Res → List ReturnedGroup
  | ⟨.discoverResources _ _ _, .ok groups⟩ => groups
  | _ => []

def Transient (e : Event Op Res) : Prop :=
  failsProbe e = true ∨ declines e = true ∨ failsQuery e = true

instance : DecidablePred Transient := fun _ =>
  inferInstanceAs (Decidable (_ ∨ _))

/-- No exchange answered for the URL, and its probe failed or an exchange that its manifest
names was declined or failed to answer. -/
def Lost (r : Resolver) (h : History Op Res) (uri : String) : Prop :=
  (∀ e ∈ h, ∀ g ∈ answeredGroups e, g.uri ≠ uri) ∧ ∃ domain, r.domainOf uri = .ok domain ∧
    ((∃ text, (⟨.probe domain, .failed text⟩ : Event Op Res) ∈ h) ∨
      ∃ manifest, (⟨.probe domain, .found manifest⟩ : Event Op Res) ∈ h ∧
        ∃ x ∈ manifest.exchanges, ∃ e ∈ h, about e = some x ∧
          (declines e = true ∨ failsQuery e = true))

/-- A URL that is lost is not said to be in no catalog, and a request only if an exchange
said so or there was no fault. -/
structure Truthful (r : Resolver) (h : History Op Res) (resp : Response) : Prop where
  groups : ∀ g ∈ resp.groups, Lost r h g.uri → g.absenceReason ≠ .notInCatalog
  request : resp.absenceReason = .notInCatalog →
    (∃ e ∈ h, ∃ g ∈ answeredGroups e, g.absenceReason = .notInCatalog) ∨ ∀ e ∈ h, ¬ Transient e

/-- The code is left with its last answer: no offer was chosen and no exchange gave a reason; and
either no manifest was found, and one was missing if a probe failed, or one was found and, for a
request by URLs, no exchange was declined and one answered if any was located, for a search, one
answered. -/
def Fallback (req : Request) (h : History Op Res) : Prop :=
  h.any choosesOffer = false ∧
    (∀ g ∈ h.flatMap answeredGroups, g.absenceReason = .unspecified) ∧
    if h.any findsManifest then
      if requestURIs req ≠ [] then
        h.any declines = false ∧ (h.any locates = true → h.any answersQuery = true)
      else h.any answersQuery = true
    else h.any failsProbe = true → h.any missesManifest = true

instance (req : Request) (h : History Op Res) : Decidable (Fallback req h) := by
  unfold Fallback
  infer_instance

structure Weather where
  probeFailed : Bool := false
  found : Bool := false
  missing : Bool := false
  declined : Bool := false
  usable : Bool := false
  answered : Bool := false
  groups : List ReturnedGroup := []
  chosen : Bool := false
  recorded : Bool := false

namespace Weather

def track : (op : Op) → Weather → Res op → Weather
  | .probe _, w, .found _ => { w with found := true }
  | .probe _, w, .missing => { w with missing := true }
  | .probe _, w, .failed _ => { w with probeFailed := true }
  | .getByDomain _, w, .failed _ => { w with declined := true }
  | .getByDomain domain, w, .found row =>
    { w with declined := w.declined || (row.exchange domain).admission = .down }
  | .resolveEndpoint _, w, .resolved _ => { w with usable := true }
  | .resolveEndpoint _, w, _ => { w with declined := true }
  | .discoverResources _ _ _, w, .ok groups =>
    { w with answered := true, groups := w.groups ++ groups }
  | .budgetCheck _ _, w, _ => { w with chosen := true }
  | .budgetRecord _ _, w, .recorded => { w with chosen := true, recorded := true }
  | .budgetRecord _ _, w, .failed _ _ => { w with chosen := true }
  | _, w, _ => w

theorem summary_eq (h : History Op Res) : History.summary track {} h =
    ⟨h.any failsProbe, h.any findsManifest, h.any missesManifest, h.any declines, h.any locates,
      h.any answersQuery, h.flatMap answeredGroups, h.any choosesOffer, h.any recordsCost⟩ := by
  induction h using List.reverseRecOn with
  | nil => rfl
  | append_singleton h e ih =>
    obtain ⟨op, r⟩ := e
    cases op <;> cases r <;> simp [ih, track]

def Fallback (req : Request) (w : Weather) : Prop :=
  w.chosen = false ∧ (∀ g ∈ w.groups, g.absenceReason = .unspecified) ∧
    if w.found then
      if requestURIs req ≠ [] then w.declined = false ∧ (w.usable = true → w.answered = true)
      else w.answered = true
    else w.probeFailed = true → w.missing = true

/-- No exchange was queried yet. -/
structure Calm (w : Weather) : Prop where
  answered : w.answered = false
  groups : w.groups = []
  chosen : w.chosen = false
  recorded : w.recorded = false

end Weather

variable {op : Op}

def Op.Silent : Op → Prop
  | .search _ | .signForward _ | .sort _ | .recordSelection _ => True
  | _ => False

def Op.Quiet : Op → Prop
  | .budgetRecord _ _ => False
  | _ => True

/-- Whatever the calls reply, a result satisfies `P` in the weather they leave. -/
abbrev Sees {α : Type} (P : Weather → α → Prop) (x : Svc α) (w : Weather) : Prop :=
  Yields (tracked Weather.track) (fun _ _ => True) P x w

variable {α : Type} {x : Svc α} {P : Weather → α → Prop}

abbrev Scans {α : Type} (P : Weather → α → Prop) (x : Svc α) (w : Weather) : Prop :=
  Yields (tracked Weather.track) (fun _ => Op.Quiet) P x w

variable {w : Weather}

theorem track_silent (hop : op.Silent) (r : Res op) : w.track op r = w := by
  cases op with
  | search _ | signForward _ | sort _ | recordSelection _ => rfl
  | _ => exact hop.elim

theorem Scans.sees (hx : Scans P x w) : Sees P x w :=
  Spec.mono hx (fun _ _ _ => trivial) fun _ _ h => h

theorem Scans.quiet (hx : Scans P x w) : Only Op.Quiet x.run :=
  Spec.only hx (fun _ _ _ => rfl) fun _ _ h => h

theorem Op.Silent.quiet (hop : op.Silent) : op.Quiet := by
  cases op with
  | budgetRecord _ _ => exact hop.elim
  | _ => trivial

theorem Scans.silent (hx : Only Op.Silent x.run) (w : Weather) :
    Scans (fun w' _ => w' = w) x w :=
  (hx.spec (fun _ _ r hop => track_silent hop r) (fun _ _ hop => hop.quiet) w).mono
    (fun _ _ h => h) fun _ _ h _ _ => h

theorem Sees.tell {f : Res op → Svc α} (h : ∀ r, Sees P (f r) (w.track op r)) :
    Sees P (ask op >>= f) w :=
  Spec.tell trivial h

theorem Scans.tell {f : Res op → Svc α} (hop : op.Quiet)
    (h : ∀ r, Scans P (f r) (w.track op r)) : Scans P (ask op >>= f) w :=
  Spec.tell hop h

structure Probed (w : Weather) (out : Table String Manifest) (outcome : Resolver.ProbeOutcome) :
    Prop where
  failed : w.probeFailed = true ↔ 0 < outcome.transient
  missing : w.missing = true ↔ 0 < outcome.missing
  found : w.found = true ↔ out.entries ≠ []
  declined : w.declined = false
  usable : w.usable = false
  calm : w.Calm

structure Scanned (w : Weather) (scan : RouteScan) : Prop where
  declined : w.declined = scan.sawTransientDecline
  usable : ∀ domain ex, scan.seen.get? domain = some (some ex) → w.usable = true
  found : w.found = true
  calm : w.Calm

namespace Probed

theorem start : Probed {} ∅ {} where
  failed := by simp
  missing := by simp
  found := ⟨fun h => (by cases h), fun h => absurd rfl h⟩
  declined := rfl
  usable := rfl
  calm := ⟨rfl, rfl, rfl, rfl⟩

variable {w : Weather} {out : Table String Manifest} {outcome : Resolver.ProbeOutcome}

theorem scanned (h : Probed w out outcome) (hout : out.entries ≠ []) : Scanned w {} where
  declined := h.declined
  usable _ _ hget := by cases hget
  found := h.found.mpr hout
  calm := h.calm

theorem refused (h : Probed w out outcome) (hout : out.entries = []) (req : Request) :
    Resolver.probeRefusalReason outcome = .notInCatalog ↔ w.Fallback req := by
  have hfound : ¬ w.found = true := fun hf => h.found.mp hf hout
  have hgroups : ∀ g ∈ w.groups, g.absenceReason = .unspecified := by simp [h.calm.groups]
  rw [Weather.Fallback, if_neg hfound, h.failed, h.missing, and_iff_right h.calm.chosen,
    and_iff_right hgroups]
  unfold Resolver.probeRefusalReason
  split_ifs with htemp
  · simp only [false_iff, Classical.not_imp]
    exact ⟨htemp.1, by omega⟩
  · simp only [true_iff]
    omega

end Probed

namespace Scanned

variable {w : Weather} {scan : RouteScan}

theorem seen_none (h : Scanned w scan) (d : String) {ex : Exchange} {domain : String}
    (hget : (scan.seen.insert d none).get? domain = some (some ex)) : w.usable = true := by
  rw [Table.get?_insert] at hget
  split_ifs at hget
  · cases hget
  · exact h.usable domain ex hget

theorem settled (h : Scanned w scan) (d : String) :
    Scanned w { scan with seen := scan.seen.insert d none } :=
  ⟨h.declined, fun _ _ hget => h.seen_none d hget, h.found, h.calm⟩

theorem turnedDown (h : Scanned w scan) (d : String) :
    Scanned { w with declined := true } ⟨scan.seen.insert d none, true⟩ :=
  ⟨rfl, fun _ _ hget => h.seen_none d hget, h.found, ⟨h.calm.1, h.calm.2, h.calm.3, h.calm.4⟩⟩

theorem located (h : Scanned w scan) (d : String) (ex : Exchange) :
    Scanned { w with usable := true } { scan with seen := scan.seen.insert d (some ex) } :=
  ⟨h.declined, fun _ _ _ => rfl, h.found, ⟨h.calm.1, h.calm.2, h.calm.3, h.calm.4⟩⟩

end Scanned

variable {named uris : List String} {manifests : Table String Manifest} {p : RoutePlan}

namespace Resolver

variable {r : Resolver} {req : Request}

theorem probeDomains_sees {domains : List String} {out : Table String Manifest}
    {outcome : ProbeOutcome} (h : Probed w out outcome) :
    Scans (fun w' x => Probed w' x.1 x.2) (probeDomains domains out outcome) w := by
  induction domains generalizing out outcome w with
  | nil => exact .pure h
  | cons d ds ih =>
    refine .tell trivial fun reply => ?_
    cases reply with
    | found manifest =>
      exact ih ⟨h.failed, h.missing, ⟨fun _ => List.cons_ne_nil _ _, fun _ => rfl⟩, h.declined,
        h.usable, ⟨h.calm.1, h.calm.2, h.calm.3, h.calm.4⟩⟩
    | missing =>
      exact ih ⟨h.failed, ⟨fun _ => Nat.succ_pos _, fun _ => rfl⟩, h.found, h.declined, h.usable,
        ⟨h.calm.1, h.calm.2, h.calm.3, h.calm.4⟩⟩
    | failed text =>
      exact ih ⟨⟨fun _ => Nat.succ_pos _, fun _ => rfl⟩, h.missing, h.found, h.declined, h.usable,
        ⟨h.calm.1, h.calm.2, h.calm.3, h.calm.4⟩⟩

variable {scan : RouteScan}

/-- The scan is kept, and an exchange was located before or is found now. -/
def Looks (w w' : Weather) (x : Option Exchange × RouteScan) : Prop :=
  Scanned w' x.2 ∧ (w'.usable = true ↔ w.usable = true ∨ x.1.isSome = true)

theorem Looks.nothing {w' : Weather} (h : Scanned w' scan) (hw : w'.usable = w.usable) :
    Looks w w' (none, scan) :=
  ⟨h, by simp [hw]⟩

theorem registeredHealthy_sees (h : Scanned w scan) (domain : String) :
    Scans (Looks w) (registeredHealthy domain scan) w := by
  unfold registeredHealthy
  split
  next found hseen =>
    refine .pure ⟨h, ?_⟩
    cases found with
    | none => simp
    | some ex => simp [h.usable domain ex hseen]
  refine .tell trivial fun reply => ?_
  cases reply with
  | notFound => exact .pure (.nothing (h.settled domain) rfl)
  | failed text => exact .pure (.nothing (h.turnedDown domain) rfl)
  | found row =>
    dsimp only [Weather.track]
    cases hadm : (row.exchange domain).admission with
    | blocked =>
      simp only [reduceCtorEq, decide_false, Bool.or_false]
      exact .pure (.nothing (h.settled domain) rfl)
    | down =>
      simp only [decide_true, Bool.or_true]
      exact .pure (.nothing (h.turnedDown domain) rfl)
    | live =>
      simp only [reduceCtorEq, decide_false, Bool.or_false]
      refine .tell trivial fun reply => ?_
      cases reply with
      | resolved endpoint => exact .pure ⟨h.located domain _, by simp [Weather.track]⟩
      | verdict text => exact .pure (.nothing (h.turnedDown domain) rfl)
      | failed text => exact .pure (.nothing (h.turnedDown domain) rfl)

theorem firstHealthy_sees (h : Scanned w scan) : Scans (Looks w) (firstHealthy named scan) w := by
  induction named generalizing scan w with
  | nil => exact .pure (.nothing h rfl)
  | cons domain named ih =>
    refine .seq (registeredHealthy_sees h domain) fun w' x hx => ?_
    obtain ⟨found, scan'⟩ := x
    cases found with
    | none =>
      refine .mono (ih hx.1) fun w'' y hy => ⟨hy.1, hy.2.trans (or_congr_left ?_)⟩
      simpa using hx.2
    | some ex => exact .pure hx

theorem exchangeForURL_sees (h : Scanned w scan) :
    Scans (Looks w) (r.exchangeForURL uri manifests scan) w := by
  unfold exchangeForURL
  split
  · exact .pure (.nothing h rfl)
  · split
    · exact .pure (.nothing h rfl)
    · exact firstHealthy_sees h

structure Planned (w : Weather) (p : RoutePlan) : Prop where
  usable : p.exchangeOrder ≠ [] ↔ w.usable = true
  known : ∀ d ∈ p.exchangeOrder, ∃ ex, p.exchanges.get? d = some ex
  ordered : ∀ d ex, p.exchanges.get? d = some ex → p.exchangeOrder ≠ []

theorem Planned.routed (hp : Planned w p) (uri : String) (ex : Exchange) {w' : Weather}
    (hw : w'.usable = true) : Planned w' (p.routeURLTo uri ex) := by
  unfold RoutePlan.routeURLTo
  cases hfresh : p.exchanges.get? ex.domain with
  | none =>
    simp only [Option.isNone_none, if_true]
    refine ⟨by simp [hw], fun d hd => ?_, fun _ _ _ => by simp⟩
    rw [Table.get?_insert]
    split_ifs with heq
    · exact ⟨ex, rfl⟩
    · rcases List.mem_append.mp hd with hd | hd
      · exact hp.known d hd
      · exact absurd (List.mem_singleton.mp hd) heq
  | some ex' =>
    simp only [Option.isNone_some, Bool.false_eq_true, if_false]
    have hne := hp.ordered _ _ hfresh
    exact ⟨by simp [hw, hne], hp.known, fun _ _ _ => hne⟩

theorem routeURLs_sees (h : Scanned w scan) (hp : Planned w p) :
    Scans (fun w' x => Scanned w' x.2 ∧ Planned w' x.1 ∧ x.1.urlOrder = p.urlOrder ++ uris)
      (r.routeURLs manifests uris p scan) w := by
  induction uris generalizing p scan w with
  | nil => exact .pure ⟨h, hp, by simp⟩
  | cons uri uris ih =>
    refine .seq (exchangeForURL_sees h) fun w' x hx => ?_
    obtain ⟨found, scan'⟩ := x
    obtain ⟨hscan, husable⟩ := hx
    cases found with
    | none =>
      have hw : w'.usable = true ↔ w.usable = true := by simpa using husable
      refine .mono (ih hscan ⟨hp.usable.trans hw.symm, hp.known, hp.ordered⟩) fun w'' y hy => ?_
      simpa using hy
    | some ex =>
      have hp' : Planned w { p with urlOrder := p.urlOrder ++ [uri] } :=
        ⟨hp.usable, hp.known, hp.ordered⟩
      refine .mono (ih hscan (hp'.routed uri ex (husable.mpr (.inr rfl)))) fun w'' y hy => ?_
      simpa [RoutePlan.routeURLTo] using hy

theorem queryExchange_sees (ex : Exchange) (uris : List String) (w : Weather) :
    Scans (fun w' q => match q with
        | .answered groups => w' = { w with answered := true, groups := w.groups ++ groups }
        | .failed _ => w' = w
        | .signFailed _ => True)
      (r.queryExchange req ex uris) w := by
  unfold queryExchange
  split_ifs
  · refine .tell trivial fun reply => ?_
    have hsilent : (Op.signForward (r.buildResourceQuery req ex.domain uris)).Silent := trivial
    rw [track_silent hsilent]
    cases reply with
    | error e => exact .pure trivial
    | ok sig =>
      refine .tell trivial fun reply => ?_
      cases reply with
      | error e => exact .pure rfl
      | ok groups => exact .pure rfl
  · exact .pure rfl

/-- What is kept of the groups that exchanges returned. -/
structure Heard (heard : List ReturnedGroup) (down : Bool) (byURL : Table String OfferGroup)
    (flags : DiscoverFlags) : Prop where
  reasoned : flags.upstreamReason = .unspecified → ∀ g ∈ heard, g.absenceReason = .unspecified
  given : flags.upstreamReason ≠ .unspecified →
    ∃ g ∈ heard, g.absenceReason = flags.upstreamReason
  scope : flags.upstreamReason = .unspecified → flags.scopeRestricted = false
  down : flags.namedExchangeDown = down
  urls : ∀ uri g, byURL.get? uri = some g → g.uri = uri ∧ ∃ g' ∈ heard, g'.uri = uri
  kept : ∀ g ∈ heard, (byURL.get? g.uri).isSome = true

namespace Heard

variable {heard : List ReturnedGroup} {down : Bool} {byURL : Table String OfferGroup}
  {flags : DiscoverFlags}

theorem start : Heard [] down ∅ { namedExchangeDown := down } where
  reasoned _ := nofun
  given h := absurd rfl h
  scope _ := rfl
  down := rfl
  urls _ _ h := by cases h
  kept := nofun

theorem snoc (h : Heard heard down byURL flags) (ref : ExchangeRef) (group : ReturnedGroup)
    (verified : List Offer) : Heard (heard ++ [group]) down
      (byURL.insert group.uri
        (collectGroup ((byURL.get? group.uri).getD {}) ref group verified))
      (observe flags group.absenceReason) := by
  have hurls : ∀ uri g, (byURL.insert group.uri (collectGroup ((byURL.get? group.uri).getD {}) ref
      group verified)).get? uri = some g →
      g.uri = uri ∧ ∃ g' ∈ heard ++ [group], g'.uri = uri := by
    intro uri g hget
    rw [Table.get?_insert] at hget
    split_ifs at hget with huri
    · cases hget
      exact ⟨huri.symm, group, by simp, huri.symm⟩
    · obtain ⟨hg, g', hg', huri'⟩ := h.urls uri g hget
      exact ⟨hg, g', List.mem_append_left _ hg', huri'⟩
  have hkept : ∀ g ∈ heard ++ [group], ((byURL.insert group.uri (collectGroup
      ((byURL.get? group.uri).getD {}) ref group verified)).get? g.uri).isSome = true := by
    intro g hg
    rw [Table.get?_insert]
    split_ifs with huri
    · rfl
    · rcases List.mem_append.mp hg with hg | hg
      · exact h.kept g hg
      · exact absurd (congrArg ReturnedGroup.uri (List.mem_singleton.mp hg)) huri
  by_cases hreason : group.absenceReason = .unspecified
  · rw [observe, if_pos hreason]
    refine ⟨fun hnone g hg => ?_, fun hsome => ?_, h.scope, h.down, hurls, hkept⟩
    · rcases List.mem_append.mp hg with hg | hg
      · exact h.reasoned hnone g hg
      · rwa [List.mem_singleton.mp hg]
    · obtain ⟨g, hg, heq⟩ := h.given hsome
      exact ⟨g, List.mem_append_left _ hg, heq⟩
  · rw [observe, if_neg hreason]
    exact ⟨fun hnone => absurd hnone hreason, fun _ => ⟨group, by simp, rfl⟩,
      fun hnone => absurd hnone hreason, h.down, hurls, hkept⟩

theorem pick_iff (h : Heard heard down byURL flags) (failed : Bool) :
    pickResolveAbsenceReason { flags with allUpstreamFailed := failed } = .notInCatalog ↔
      failed = false ∧ (flags.upstreamReason = .notInCatalog ∨
        (∀ g ∈ heard, g.absenceReason = .unspecified) ∧ down = false) := by
  have hnone : (∀ g ∈ heard, g.absenceReason = .unspecified) ↔
      flags.upstreamReason = .unspecified := by
    refine ⟨fun hall => by_contra fun hsome => ?_, h.reasoned⟩
    obtain ⟨g, hg, heq⟩ := h.given hsome
    exact hsome (heq ▸ hall g hg)
  rw [hnone, ← h.down]
  unfold pickResolveAbsenceReason
  by_cases hreason : flags.upstreamReason = .unspecified
  · cases failed <;> cases hdown : flags.namedExchangeDown <;> simp [hreason, h.scope hreason]
  · cases failed <;> simp [hreason]

end Heard

theorem collectGroups_sees (ref : ExchangeRef) (groups : List ReturnedGroup)
    {heard : List ReturnedGroup} {down : Bool} {byURL : Table String OfferGroup}
    {flags : DiscoverFlags} (h : Heard heard down byURL flags) :
    Scans (fun w' x => w' = w ∧ Heard (heard ++ groups) down x.1 x.2)
      (collectGroups ref groups byURL flags) w := by
  induction groups generalizing heard byURL flags with
  | nil => exact .pure ⟨rfl, by simpa using h⟩
  | cons group groups ih =>
    refine .tell trivial fun reply => ?_
    refine .mono (ih (h.snoc ref group _)) fun w' x hx => ⟨hx.1, ?_⟩
    simpa using hx.2

structure Gathered (w₀ w : Weather) (down : Bool) (n : Nat) (acc : Collected) : Prop where
  same : w = { w₀ with answered := w.answered, groups := w.groups }
  heard : Heard w.groups down acc.byURL acc.flags
  failures : acc.failures ≤ n
  answered : w.answered = true ↔ acc.failures < n
  order : ∀ uri ∈ acc.order, ∃ g ∈ w.groups, g.uri = uri

namespace Gathered

variable {w₀ w : Weather} {down : Bool} {n : Nat} {acc : Collected}

theorem start (h : w₀.Calm) :
    Gathered w₀ w₀ down 0 { flags := { namedExchangeDown := down } } :=
  ⟨rfl, h.groups ▸ .start, le_rfl, by simp [h.answered], nofun⟩

theorem failed (h : Gathered w₀ w down n acc) :
    Gathered w₀ w down (n + 1) { acc with failures := acc.failures + 1 } :=
  ⟨h.same, h.heard, Nat.succ_le_succ h.failures, h.answered.trans (by simp), h.order⟩

theorem answer (h : Gathered w₀ w down n acc) {groups : List ReturnedGroup}
    {byURL : Table String OfferGroup} {flags : DiscoverFlags} {order : List String}
    (hheard : Heard (w.groups ++ groups) down byURL flags)
    (horder : ∀ uri ∈ order, ∃ g ∈ w.groups ++ groups, g.uri = uri) :
    Gathered w₀ { w with answered := true, groups := w.groups ++ groups } down (n + 1)
      { byURL, flags, failures := acc.failures, order } := by
  refine ⟨?_, hheard, h.failures.trans n.le_succ, by simp [Nat.lt_succ_of_le h.failures], horder⟩
  rw [h.same]

end Gathered

theorem dispatch_sees {w₀ w : Weather} {down : Bool} {order : List String} {n : Nat}
    {acc : Collected} (hknown : ∀ d ∈ order, ∃ ex, p.exchanges.get? d = some ex)
    (h : Gathered w₀ w down n acc) :
    Scans (fun w' x => Gathered w₀ w' down (n + order.length) x)
      (r.dispatch req p order acc) w := by
  induction order generalizing w n acc with
  | nil => exact .pure h
  | cons d order ih =>
    obtain ⟨⟨ex, hex⟩, hknown⟩ := List.forall_mem_cons.mp hknown
    have hlen : n + (d :: order).length = n + 1 + order.length := by
      rw [List.length_cons]
      omega
    rw [hlen]
    unfold dispatch
    rw [hex]
    refine .seq (queryExchange_sees ex _ w) fun w' q hq => ?_
    cases q with
    | signFailed e => exact .throw
    | failed e =>
      subst hq
      exact ih hknown h.failed
    | answered groups =>
      refine .seq (collectGroups_sees _ groups h.heard) fun w'' x hx => ?_
      obtain ⟨rfl, hheard⟩ := hx
      subst hq
      refine ih hknown (h.answer hheard fun uri huri => ?_)
      obtain ⟨g, hg, heq⟩ := h.order uri huri
      exact ⟨g, List.mem_append_left _ hg, heq⟩

theorem broadcast_sees {w₀ w : Weather} {down : Bool} {exchanges : List Exchange} {n : Nat}
    {acc : Collected} (h : Gathered w₀ w down n acc) :
    Scans (fun w' x => Gathered w₀ w' down (n + exchanges.length) x)
      (r.broadcast req exchanges acc) w := by
  induction exchanges generalizing w n acc with
  | nil => exact .pure h
  | cons ex exchanges ih =>
    have hlen : n + (ex :: exchanges).length = n + 1 + exchanges.length := by
      rw [List.length_cons]
      omega
    rw [hlen]
    refine .seq (queryExchange_sees ex [] w) fun w' q hq => ?_
    cases q with
    | signFailed e => exact .throw
    | failed e =>
      subst hq
      exact ih h.failed
    | answered groups =>
      refine .seq (collectGroups_sees _ groups h.heard) fun w'' x hx => ?_
      obtain ⟨rfl, hheard⟩ := hx
      subst hq
      refine ih (h.answer hheard fun uri huri => ?_)
      rcases List.mem_append.mp huri with huri | huri
      · obtain ⟨g, hg, heq⟩ := h.order uri huri
        exact ⟨g, List.mem_append_left _ hg, heq⟩
      · obtain ⟨g, hg, rfl⟩ := List.mem_map.mp huri
        exact ⟨g, List.mem_append_right _ (List.mem_filter.mp hg).1, rfl⟩

theorem exchangesFor_sees {seen : List String} {out : List Exchange}
    (h : Scanned w scan) (hout : out ≠ [] ↔ w.usable = true) :
    Scans (fun w' x => ∃ scan', Scanned w' scan' ∧ (x ≠ [] ↔ w'.usable = true))
      (exchangesFor named seen scan out) w := by
  induction named generalizing seen scan out w with
  | nil => exact .pure ⟨scan, h, hout⟩
  | cons domain named ih =>
    unfold exchangesFor
    split_ifs
    · exact ih h hout
    refine .seq (registeredHealthy_sees h domain) fun w' x hx => ?_
    obtain ⟨found, scan'⟩ := x
    obtain ⟨hscan, husable⟩ := hx
    cases found with
    | none => exact ih hscan (hout.trans (by simpa using husable.symm))
    | some ex => exact ih hscan (by simp [husable])

/-- The request is said to be in no catalog if that is the last answer, and else only if an
exchange said so. -/
structure Reports (req : Request) (w : Weather) (reason : AbsenceReason) : Prop where
  given : reason = .notInCatalog →
    (∃ g ∈ w.groups, g.absenceReason = .notInCatalog) ∨ w.Fallback req
  fallback : w.Fallback req → reason = .notInCatalog

/-- A group is of a URL that was answered or requested, and a requested URL that was not
answered is said to be in no catalog. -/
structure Accounts (req : Request) (w : Weather) (groups : List OfferGroup) : Prop where
  known : ∀ g ∈ groups, (∃ g' ∈ w.groups, g'.uri = g.uri) ∨ g.uri ∈ requestURIs req
  absent : ∀ uri ∈ requestURIs req, (∃ g ∈ w.groups, g.uri = uri) ∨
    ∃ g ∈ groups, g.uri = uri ∧ g.absenceReason = .notInCatalog

theorem Gathered.reports {w₀ w : Weather} {down : Bool} {n : Nat} {acc : Collected}
    (h : Gathered w₀ w down n acc) (hfound : w₀.found = true) (hcalm : w₀.Calm) {failed : Bool}
    (hlast : (failed = false ∧ down = false) ↔
      if requestURIs req ≠ [] then w.declined = false ∧ (w.usable = true → w.answered = true)
      else w.answered = true) :
    Reports req w (pickResolveAbsenceReason { acc.flags with allUpstreamFailed := failed }) := by
  have hw : w.found = true ∧ w.chosen = false := by
    rw [h.same]
    exact ⟨hfound, hcalm.chosen⟩
  have hfallback : w.Fallback req ↔ (∀ g ∈ w.groups, g.absenceReason = .unspecified) ∧
      failed = false ∧ down = false := by
    rw [Weather.Fallback, if_pos hw.1, and_iff_right hw.2, hlast]
  refine ⟨fun hreason => ?_, fun hlast => ?_⟩
  · obtain ⟨hfailed, hsaid | ⟨hnone, hdown⟩⟩ := (h.heard.pick_iff failed).mp hreason
    · obtain ⟨g, hg, heq⟩ := h.heard.given (by simp [hsaid])
      exact .inl ⟨g, hg, heq.trans hsaid⟩
    · exact .inr (hfallback.mpr ⟨hnone, hfailed, hdown⟩)
  · obtain ⟨hnone, hfailed, hdown⟩ := hfallback.mp hlast
    exact (h.heard.pick_iff failed).mpr ⟨hfailed, .inr ⟨hnone, hdown⟩⟩

theorem accounts_assemble {heard : List ReturnedGroup} {down : Bool}
    {byURL : Table String OfferGroup} {flags : DiscoverFlags} (h : Heard heard down byURL flags)
    (hw : w.groups = heard) (hp : p.urlOrder = requestURIs req) (method : DiscoveryMethod) :
    Accounts req w (stampMethod (r.assemble p byURL) method) := by
  subst hw
  unfold stampMethod assemble
  rw [hp, List.map_map]
  refine ⟨fun g hg => .inr ?_, fun uri huri => ?_⟩
  · obtain ⟨uri, huri, rfl⟩ := List.mem_map.mp hg
    rw [Function.comp_apply]
    cases hget : byURL.get? uri with
    | none => exact huri
    | some g =>
      dsimp only
      rwa [finalize_uri, (h.urls uri g hget).1]
  · cases hget : byURL.get? uri with
    | none =>
      refine .inr ⟨_, List.mem_map_of_mem huri, ?_⟩
      simp [hget]
    | some g => exact .inl (h.urls uri g hget).2

theorem accounts_broadcast {w₀ : Weather} {down : Bool} {n : Nat} {acc : Collected}
    (h : Gathered w₀ w down n acc) (hreq : requestURIs req = []) (method : DiscoveryMethod) :
    Accounts req w (stampMethod
      (acc.order.map fun uri => r.finalize ((acc.byURL.get? uri).getD {})) method) := by
  unfold stampMethod
  rw [List.map_map]
  refine ⟨fun g hg => .inl ?_, fun uri huri => ?_⟩
  · obtain ⟨uri, huri, rfl⟩ := List.mem_map.mp hg
    obtain ⟨g, hanswered, rfl⟩ := h.order uri huri
    obtain ⟨kept, hkept⟩ := Option.isSome_iff_exists.mp (h.heard.kept g hanswered)
    refine ⟨g, hanswered, ?_⟩
    rw [Function.comp_apply, hkept, Option.getD_some]
    dsimp only
    rw [finalize_uri, (h.heard.urls _ _ hkept).1]
  · rw [hreq] at huri
    cases huri

def Discovers (req : Request) (w : Weather)
    (out : Except Response (List OfferGroup × DiscoverFlags)) : Prop :=
  w.chosen = false ∧ w.recorded = false ∧ match out with
    | .error refusal => refusal.groups = [] ∧ Reports req w refusal.absenceReason
    | .ok (groups, flags) => Reports req w (pickResolveAbsenceReason flags) ∧ Accounts req w groups

theorem Gathered.discovers {w₀ w : Weather} {down : Bool} {n : Nat} {acc : Collected}
    (h : Gathered w₀ w down n acc) (hcalm : w₀.Calm) {groups : List OfferGroup}
    {flags : DiscoverFlags} (hreports : Reports req w (pickResolveAbsenceReason flags))
    (haccounts : Accounts req w groups) : Discovers req w (.ok (groups, flags)) := by
  refine ⟨?_, ?_, hreports, haccounts⟩ <;> rw [h.same]
  · exact hcalm.chosen
  · exact hcalm.recorded

theorem discoverByRoute_sees (h : Scanned w {}) (hw : w.usable = false)
    (hreq : requestURIs req ≠ []) :
    Scans (fun w' x => Discovers req w' (.ok (stampMethod x.1 .exchange, x.2)))
      (r.discoverByRoute req (requestURIs req) manifests) w := by
  have hp : Planned w {} := ⟨by simp [hw], nofun, nofun⟩
  refine .seq (routeURLs_sees h hp) fun w₀ x hx => ?_
  obtain ⟨p, scan⟩ := x
  dsimp only at hx
  obtain ⟨hscan, hplan, horder⟩ := hx
  refine .seq (dispatch_sees hplan.known (.start hscan.calm)) fun w' acc hacc => .pure ?_
  rw [Nat.zero_add] at hacc
  refine hacc.discovers hscan.calm (hacc.reports hscan.found hscan.calm ?_)
    (accounts_assemble hacc.heard rfl horder _)
  have hsame : w'.declined = scan.sawTransientDecline ∧ w'.usable = w₀.usable := by
    rw [hacc.same]
    exact ⟨hscan.declined, rfl⟩
  have hle := hacc.failures
  rw [if_pos hreq, hsame.1, hsame.2, ← hplan.usable, hacc.answered, ← List.length_pos_iff,
    decide_eq_false_iff_not, and_comm]
  refine and_congr_right fun _ => ?_
  omega

theorem discover_sees (h : Scanned w {}) (hw : w.usable = false) :
    Scans (Discovers req) (r.discover req manifests) w := by
  unfold discover
  split_ifs with hreq
  · exact .seq (discoverByRoute_sees h hw hreq) fun w' x hx => .pure hx
  refine .seq (exchangesFor_sees h (by simp [hw])) fun w₀ exchanges hx => ?_
  obtain ⟨scan, hscan, husable⟩ := hx
  split_ifs with hnone
  · refine .pure ⟨hscan.calm.chosen, hscan.calm.recorded, rfl, nofun, fun hfall => ?_⟩
    have hlast := hfall.2.2
    rw [if_pos hscan.found, if_neg hreq, hscan.calm.answered] at hlast
    cases hlast
  refine .seq (.seq (broadcast_sees (.start hscan.calm)) fun w' acc hacc => .pure ?_)
    fun w' x hx => .pure hx
  rw [Nat.zero_add] at hacc
  refine hacc.discovers hscan.calm (hacc.reports hscan.found hscan.calm ?_)
    (accounts_broadcast hacc (not_not.mp hreq) _)
  have hle := hacc.failures
  have hpos : 0 < exchanges.length := List.length_pos_iff.mpr hnone
  rw [if_neg hreq, hacc.answered, decide_eq_false_iff_not, and_iff_left rfl]
  omega

theorem checkBudget_sees (agentID : String) (limit : Int) (offer : Offer) :
    Sees (fun w' ok => w' = { w with chosen := w'.chosen } ∧ (ok = false → w'.chosen = true))
      (r.checkBudget agentID limit offer) w := by
  unfold checkBudget
  split_ifs
  · exact .pure ⟨rfl, nofun⟩
  refine .tell fun reply => ?_
  cases reply with
  | error e => exact .throw
  | ok dec =>
    dsimp only
    split_ifs <;> exact .pure ⟨rfl, fun _ => rfl⟩

theorem candidateDomains_silent :
    Only Op.Silent (r.candidateDomains req).run := by
  unfold candidateDomains
  split_ifs
  · exact .orThrow
  refine .ask trivial fun reply => ?_
  cases reply with
  | error e => exact .throw
  | ok cands =>
    dsimp only
    split_ifs
    · exact .throw
    · exact .pure

structure Answers (req : Request) (w : Weather) (resp : Response) : Prop where
  reports : Reports req w resp.absenceReason
  accounts : w.recorded = true → Accounts req w resp.groups
  empty : w.recorded = false → resp.groups = []

theorem settle_sees (requestID : String) {groups : List OfferGroup} (winner : Candidate)
    (hrec : w.recorded = false) (hacc : Accounts req w groups) :
    Sees (Answers req) (do
      if ← r.checkBudget req.agentID req.budgetMinor winner.offer then
        match ← ask (Op.budgetRecord req.agentID (r.costFixed winner.offer)) with
        | .failed e _ => throw (wrapf .internal e "budget record")
        | .recorded =>
          auditSelection requestID req (flattenGroups groups) "discovered"
          pure { groups, exchangeID := winner.exchange.domain }
      else
        auditSelection requestID req (flattenGroups groups) "budget_exhausted"
        pure { absenceReason := .notAuthorized } : Svc Response) w := by
  have haudit : ∀ outcome, Only Op.Silent
      (auditSelection requestID req (flattenGroups groups) outcome).run :=
    fun outcome => .ask trivial fun _ => .pure
  -- Once an offer is chosen the last answer is not given.
  have hreports : ∀ {w' : Weather} {reason : AbsenceReason}, w'.chosen = true →
      reason ≠ .notInCatalog → Reports req w' reason := fun hch hne =>
    ⟨fun h => absurd h hne, fun hf => by rw [hf.1] at hch; cases hch⟩
  refine .seq (checkBudget_sees _ _ _) fun w' ok hok => ?_
  obtain ⟨hw, hchosen⟩ := hok
  cases ok with
  | false =>
    refine .seq (Scans.silent (haudit _) w').sees fun w'' _ heq => .pure ?_
    subst heq
    refine ⟨hreports (hchosen rfl) (by simp), fun h => ?_, fun _ => rfl⟩
    rw [hw] at h
    exact absurd (hrec.symm.trans h) (by simp)
  | true =>
    refine Sees.tell fun reply => ?_
    cases reply with
    | failed e applied => exact .throw
    | recorded =>
      refine .seq (Scans.silent (haudit _) _).sees fun w'' _ heq => .pure ?_
      subst heq
      refine ⟨hreports rfl (by simp), fun _ => ?_, nofun⟩
      rw [hw]
      exact ⟨hacc.known, hacc.absent⟩

theorem resolve_sees (requestID : String) :
    Sees (Answers req) (r.resolve requestID req) {} := by
  refine .seq (Scans.silent candidateDomains_silent _).sees fun w domains hw => ?_
  subst hw
  refine .seq (probeDomains_sees .start).sees fun w x hprobed => ?_
  dsimp only at hprobed ⊢
  split_ifs with hnone
  · have hreason := hprobed.refused hnone req
    refine .pure ⟨⟨fun h => .inr (hreason.mp h), hreason.mpr⟩, fun h => ?_, fun _ => rfl⟩
    rw [hprobed.calm.recorded] at h
    cases h
  refine .seq (discover_sees (hprobed.scanned hnone) hprobed.usable).sees fun w out hout => ?_
  obtain ⟨-, hrec, hout⟩ := hout
  have hnever : ∀ {P : Prop}, w.recorded = true → P := fun h => by
    rw [hrec] at h
    cases h
  rcases out with refusal | ⟨groups, flags⟩
  · exact .pure ⟨hout.2, hnever, fun _ => hout.1⟩
  dsimp only at hout ⊢
  split
  next hwinner => exact .pure ⟨hout.1, hnever, fun _ => rfl⟩
  next winner hwinner => exact settle_sees requestID winner hrec hout.2

end Resolver

section

variable {ι : Type} [DecidableEq ι] {rs : ι → Resolver} {ids : ι → String} {reqs : ι → Request}
  {c : Pool Op Res Unit ι (Except Error Response)} {tr : Trace Op Res ι} {i : ι}

abbrev OpenRun (rs : ι → Resolver) (ids : ι → String) (reqs : ι → Request) (tr : Trace Op Res ι)
    (c : Pool Op Res Unit ι (Except Error Response)) : Prop :=
  Run (fun _ s _ => some s) (fun _ _ => False)
    (⟨(), fun i => ((rs i).resolve (ids i) (reqs i)).run⟩ : Pool Op Res Unit ι _) tr c

omit [DecidableEq ι] in
theorem resolve_truthful (i : ι) : Spec recordCall (fun _ _ => True)
      (fun h x => ∀ resp, x = .ok resp → (Truthful (rs i) h resp ↔
        (h.any recordsCost = true → ∀ uri ∈ requestURIs (reqs i), ¬ Lost (rs i) h uri) ∧
          (Fallback (reqs i) h → ∀ e ∈ h, ¬ Transient e)))
      ((rs i).resolve (ids i) (reqs i)).run [] := by
  have hsees : Spec (tracked Weather.track) (fun _ _ => True) _ _ _ :=
    @Resolver.resolve_sees (rs i) (reqs i) (ids i)
  have hspec := Prog.Spec.history (h := []) hsees
  refine hspec.mono (fun _ _ h => h) fun h x hx resp hresp => ?_
  have hans := hx resp hresp
  rw [Weather.summary_eq] at hans
  obtain ⟨hreports, haccounts, hempty⟩ := hans
  have hlost : ∀ {uri}, Lost (rs i) h uri → ¬ ∃ g ∈ h.flatMap answeredGroups, g.uri = uri := by
    rintro uri ⟨hunanswered, -⟩ ⟨g, hg, huri⟩
    obtain ⟨e, he, hg⟩ := List.mem_flatMap.mp hg
    exact hunanswered e he g hg huri
  have hsaid : (∃ g ∈ h.flatMap answeredGroups, g.absenceReason = .notInCatalog) ↔
      ∃ e ∈ h, ∃ g ∈ answeredGroups e, g.absenceReason = .notInCatalog := by
    simp only [List.mem_flatMap]
    grind
  constructor
  · rintro ⟨hgroups, hrequest⟩
    refine ⟨fun hrec uri huri hl => ?_, fun hfall => ?_⟩
    · rcases (haccounts hrec).absent uri huri with hanswered | ⟨g, hg, rfl, habsent⟩
      · exact hlost hl hanswered
      · exact hgroups g hg hl habsent
    · rcases hrequest (hreports.fallback hfall) with hgiven | hnone
      · obtain ⟨g, hg, hreason⟩ := hsaid.mpr hgiven
        cases hreason.symm.trans (hfall.2.1 g hg)
      · exact hnone
  · rintro ⟨hselected, hlast⟩
    refine ⟨fun g hg hl _ => ?_, fun hreason => ?_⟩
    · cases hrec : h.any recordsCost with
      | false =>
        rw [hempty hrec] at hg
        cases hg
      | true =>
        rcases (haccounts hrec).known g hg with hanswered | huri
        · exact hlost hl hanswered
        · exact hselected hrec _ huri hl
    · rcases hreports.given hreason with hgiven | hfall
      · exact .inl (hsaid.mp hgiven)
      · exact .inr (hlast hfall)

/-- A URL that is lost to a fault is not said to be in no catalog, and the request only if an
exchange said so or there was no fault, exactly if no requested URL is lost where an offer is
taken, and there was no fault where the code is left with its last answer. -/
theorem absence_truthful (hr : OpenRun rs ids reqs tr c) {resp : Response}
    (hret : c.threads i = .ret (.ok resp)) : Truthful (rs i) (tr.own i) resp ↔
      ((tr.own i).any recordsCost = true →
        ∀ uri ∈ requestURIs (reqs i), ¬ Lost (rs i) (tr.own i) uri) ∧
      (Fallback (reqs i) (tr.own i) → ∀ e ∈ tr.own i, ¬ Transient e) :=
  hr.returned resolve_truthful hret resp rfl

end

def probesAnswer (probe : String → ProbeReply) : (op : Op) → Unit → Res op
  | .probe domain, _ => probe domain
  | op, _ => discoveryAnswer honestExchanges op ()

def secondDown (domain : String) : ProbeReply :=
  if domain = "b.example" then .failed "connection refused" else .found ⟨["x.example"]⟩

def firstMissing (domain : String) : ProbeReply :=
  if domain = "b.example" then .failed "connection refused" else .missing

instance (op : Op) : DecidableEq (Res op) := by
  cases op <;> exact inferInstance

abbrev TwoPagesRun (tr : Trace Op Res Unit) (c : Pool Op Res Unit Unit (Except Error Response)) :
    Prop :=
  OpenRun (fun _ => plainResolver) (fun _ => "req-1") (fun _ => twoPages) tr c

/-- A page whose probe failed is said to be in no catalog next to a page that has an offer, and
so is a request whose probes found one manifest missing and failed for the other. -/
theorem faults_said_absent : (∃ tr c resp, TwoPagesRun tr c ∧ c.threads () = .ret (.ok resp) ∧
      Lost plainResolver (tr.own ()) "https://b.example/2" ∧
      ∃ g ∈ resp.groups, g.uri = "https://b.example/2" ∧ g.absenceReason = .notInCatalog) ∧
    ∃ tr c resp, TwoPagesRun tr c ∧ c.threads () = .ret (.ok resp) ∧
      resp.absenceReason = .notInCatalog ∧ (∃ e ∈ tr.own (), Transient e) ∧
      ∀ e ∈ tr.own (), answeredGroups e = [] := by
  have hgroup : ∃ tr c, TwoPagesRun tr c ∧
      ((c.threads ()).ok?.any fun resp => resp.groups.any fun g =>
        g.uri = "https://b.example/2" ∧ g.absenceReason = .notInCatalog) = true ∧
      (⟨.probe "b.example", .failed "connection refused"⟩ : Event Op Res) ∈ tr.own () ∧
      ∀ e ∈ tr.own (), ∀ g ∈ answeredGroups e, g.uri ≠ "https://b.example/2" :=
    Pool.exists_run (List.replicate 9 ⟨(), probesAnswer secondDown⟩) (by decide +kernel)
  have hrequest : ∃ tr c, TwoPagesRun tr c ∧
      (c.threads ()).ok? = some { absenceReason := .notInCatalog } ∧
      (∃ e ∈ tr.own (), Transient e) ∧ ∀ e ∈ tr.own (), answeredGroups e = [] :=
    Pool.exists_run (List.replicate 2 ⟨(), probesAnswer firstMissing⟩) (by decide +kernel)
  obtain ⟨tr, c, hr, hok, hprobe, hunanswered⟩ := hgroup
  obtain ⟨tr', c', hr', hok', hfault, hsilence⟩ := hrequest
  obtain ⟨resp, hresp, hg⟩ := (Option.any_eq_true _ _).mp hok
  obtain ⟨g, hg, habsent⟩ := List.any_eq_true.mp hg
  refine ⟨⟨tr, c, resp, hr, ok?_eq_some.mp hresp, ⟨hunanswered, "b.example", rfl, .inl ⟨_, hprobe⟩⟩,
    g, hg, of_decide_eq_true habsent⟩, tr', c', _, hr', ok?_eq_some.mp hok', rfl, hfault, hsilence⟩

/-- Neither exchange can be reached. -/
theorem absence_truthful_both_down :
    ∃ tr c resp, TwoPagesRun tr c ∧ c.threads () = .ret (.ok resp) ∧
      (∃ e ∈ tr.own (), Transient e) ∧ Truthful plainResolver (tr.own ()) resp := by
  have hrun : ∃ tr c, TwoPagesRun tr c ∧ ¬ Fallback twoPages (tr.own ()) ∧
      (tr.own ()).any recordsCost = false ∧
      (c.threads ()).ok? = some { absenceReason := .temporarilyUnavailable } ∧
      ∃ e ∈ tr.own (), Transient e :=
    Pool.exists_run
      (List.replicate 10 ⟨(), discoveryAnswer fun _ _ => .error "connection refused"⟩)
      (by decide +kernel)
  obtain ⟨tr, c, hr, hlast, hrec, hok, hfault⟩ := hrun
  have hret := ok?_eq_some.mp hok
  refine ⟨tr, c, _, hr, hret, hfault, (absence_truthful hr hret).mpr ⟨fun h => ?_, hlast.elim⟩⟩
  rw [hrec] at h
  cases h

end Ramp.Broker.Discovery
