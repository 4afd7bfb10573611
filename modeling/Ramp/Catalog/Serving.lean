import Ramp.Catalog.Conduct
import Ramp.Program.Schedule

/-! Any number of pushes at once. Each one lists the catalog and stores the snapshot it
built as two separate steps, so a snapshot that was listed earlier can be stored later. -/

namespace Ramp.Catalog

open Ramp.Exchange Prog

variable {ι : Type} [DecidableEq ι]

def pushes (s : CatalogService) (rows : Rows) (reqs : ι → Option PushResourcesRequest) :
    Pool Op Res State ι (Except Error PushResourcesResponse) :=
  ⟨⟨rows, s.buildSnapshot rows.listAllCatalog⟩, fun i => (s.pushResources (reqs i)).run⟩

abbrev PushRun (c : Pool Op Res State ι (Except Error PushResourcesResponse))
    (tr : Trace Op Res ι) (c' : Pool Op Res State ι (Except Error PushResourcesResponse)) : Prop :=
  Run step (fun _ _ => False) c tr c'

def phase (tr : Trace Op Res ι) (i : ι) : Phase :=
  History.summary Phase.track .probing (tr.own i)

@[simp] theorem phase_snoc_self (tr : Trace Op Res ι) (i : ι) (op : Op) (r : Res op) :
    phase (tr ++ [(i, ⟨op, r⟩)]) i = Phase.track op (phase tr i) r := by
  simp [phase]

variable {i : ι} {s : CatalogService} {req : Option PushResourcesRequest} {h : History Op Res}
  {entries : List CatalogEntry} {tr : Trace Op Res ι} {st st' : State} {op : Op} {r : Res op}
  {rows : Rows} {reqs : ι → Option PushResourcesRequest}
  {c' : Pool Op Res State ι (Except Error PushResourcesResponse)}

@[simp] theorem phase_snoc_ne (tr : Trace Op Res ι) {j : ι} (h : j ≠ i) (e : Event Op Res) :
    phase (tr ++ [(j, e)]) i = phase tr i := by
  simp [phase, h]

omit [DecidableEq ι] in
theorem pushes_conduct (s : CatalogService) (rows : Rows)
    (reqs : ι → Option PushResourcesRequest) (i : ι) : Spec recordCall (s.Conduct (reqs i))
      (fun h _ => ¬ (History.summary Phase.track .probing h).Owes)
      ((pushes s rows reqs).threads i) [] :=
  s.pushResources_conduct (reqs i)

theorem CatalogService.Conduct.scoped (hc : s.Conduct req h (.upsertBatch entries)) :
    ∀ row ∈ entries, row.Scoped := by
  intro row hm
  obtain ⟨e, -, ha⟩ := forall₂_mem_right hc.writes hm
  exact ha.scoped

structure Kept (tr : Trace Op Res ι) (st : State) : Prop where
  sound : st.rows.Sound
  held : ∀ i entries, (i, ⟨.upsertBatch entries, .committed⟩) ∈ tr → ∀ e ∈ entries, st.rows.Holds e

theorem Kept.step (hk : Kept tr st) (hc : s.Conduct req (tr.own i) op)
    (h : step op st r = some st') : Kept (tr ++ [(i, ⟨op, r⟩)]) st' := by
  rcases (step_writes h).1 with hrows | ⟨entries, rfl, hrows⟩
  · refine ⟨hrows ▸ hk.sound, fun j es hm e he => ?_⟩
    rw [hrows]
    rcases List.mem_append.mp hm with hm | hm
    · exact hk.held j es hm e he
    · simp only [List.mem_singleton, Prod.mk.injEq] at hm
      obtain ⟨rfl, hev⟩ := hm
      cases hev
      change st.commit es .committed = some st' at h
      obtain ⟨hup, -, -⟩ | ⟨-, hr⟩ := State.commit_cases h
      · rw [hrows] at hup
        exact (Rows.upsertAll_holds hk.sound hc.scoped hup).2 e he
      · simp at hr
  · obtain ⟨hkeep, hnew⟩ := Rows.upsertAll_holds hk.sound hc.scoped hrows
    refine ⟨hk.sound.upsertAll hc.scoped hrows, fun j es hm e he => ?_⟩
    rcases List.mem_append.mp hm with hm | hm
    · exact hkeep e (hk.held j es hm e he)
    · simp only [List.mem_singleton, Prod.mk.injEq] at hm
      obtain ⟨rfl, hev⟩ := hm
      cases hev
      exact hnew e he

theorem PushRun.kept (hrows : rows.Sound) (hr : PushRun (pushes s rows reqs) tr c') :
    Kept tr c'.shared :=
  Run.invariant Kept (pushes_conduct s rows reqs) hr ⟨hrows, by simp⟩
    (fun _ _ _ _ _ _ hk hc h => hk.step hc h) fun _ _ _ _ h => h.elim

def commits : Event Op Res → Bool
  | ⟨.upsertBatch _, .committed⟩ => true
  | _ => false

/-- A push stores its snapshot before another one commits, its rebuild can list the
catalog, and it learns the outcome of its commit. -/
def orderly (pre : Trace Op Res ι) (i : ι) : Event Op Res → Bool
  | ⟨.storeSnapshot _, _⟩ => (pre.since i).all fun x => !commits x.2
  | ⟨.listAll, .error _⟩ => (pre.own i).all fun e => !commits e
  | ⟨.upsertBatch _, .failed _ true⟩ => false
  | _ => true

theorem Phase.committed_event (hp : History.summary Phase.track .probing h = .committed) :
    ∃ e ∈ h, commits e = true := by
  obtain ⟨pre, ⟨op, r⟩, hm, hpre, hturn⟩ :=
    History.exists_turn (P := (· = Phase.committed)) (by simp) hp
  refine ⟨_, hm, ?_⟩
  cases op with
  | upsertBatch entries =>
    rcases r with _ | _ | ⟨text, _ | _⟩
    · rfl
    all_goals cases hturn
  | listAll =>
    cases hs : History.summary Phase.track .probing pre with
    | committed => exact absurd hs hpre
    | _ =>
      simp only [hs, Phase.track] at hturn
      rcases r with text | rows <;> cases hturn
  | storeSnapshot snap => cases hturn
  | tenantByDomain domain => exact absurd hturn hpre
  | manifestGet host => exact absurd hturn hpre

/-- The snapshot is up to date unless some push still has to store one, and the listing
such a push holds is the catalog as long as nobody committed after it. -/
structure Current (s : CatalogService) (tr : Trace Op Res ι) (st : State) : Prop where
  fresh : st.snapshot = s.buildSnapshot st.rows.listAllCatalog ∨ ∃ i, (phase tr i).Owes
  recent : ∀ i rows, phase tr i = .listed rows → (∀ x ∈ tr.since i, commits x.2 = false) →
    rows = st.rows.listAllCatalog

theorem Current.quiet (hc : Current s tr st)
    (howes : (phase tr i).Owes → (Phase.track op (phase tr i) r).Owes)
    (hlisted : ∀ rows, Phase.track op (phase tr i) r = .listed rows →
      rows = st.rows.listAllCatalog) : Current s (tr ++ [(i, ⟨op, r⟩)]) st := by
  refine ⟨?_, fun j rows hj hsince => ?_⟩
  · rcases hc.fresh with hfresh | ⟨j, hj⟩
    · exact .inl hfresh
    · refine .inr ⟨j, ?_⟩
      by_cases hji : i = j
      · subst hji
        rw [phase_snoc_self]
        exact howes hj
      · rwa [phase_snoc_ne tr hji]
  · by_cases hji : i = j
    · subst hji
      rw [phase_snoc_self] at hj
      exact hlisted rows hj
    · rw [phase_snoc_ne tr hji] at hj
      rw [Trace.since_snoc_ne tr hji] at hsince
      exact hc.recent j rows hj fun x hx => hsince x (List.mem_cons_of_mem _ hx)

theorem Phase.Allows.probing {p : Phase} (h : p.Allows s op) (hlist : op ≠ .listAll)
    (hstore : ∀ snap, op ≠ .storeSnapshot snap) : p = .probing := by
  cases p with
  | probing => rfl
  | _ =>
    cases op with
    | listAll => exact absurd rfl hlist
    | storeSnapshot snap => exact absurd rfl (hstore snap)
    | _ => cases h

section

variable (hc : Current s tr st)
include hc

theorem Current.upsertBatch {r : CommitReply} (hp : (phase tr i).Allows s (.upsertBatch entries))
    (h : st.commit entries r = some st') (ho : orderly tr i ⟨.upsertBatch entries, r⟩ = true) :
    Current s (tr ++ [(i, ⟨.upsertBatch entries, r⟩)]) st' := by
  have hprobing : phase tr i = .probing := hp.probing (by simp) (by simp)
  have hquiet : ∀ r', Phase.afterCommit r' = .refused →
      Current s (tr ++ [(i, ⟨.upsertBatch entries, r'⟩)]) st := by
    intro r' hr'
    refine hc.quiet (fun howes => ?_) fun rows hrows => ?_
    · rw [hprobing] at howes
      exact howes.elim
    · cases hr'.symm.trans hrows
  rcases State.commit_cases h with ⟨-, -, rfl | ⟨text, rfl⟩⟩ | ⟨rfl, rfl | ⟨text, rfl⟩⟩
  · refine ⟨.inr ⟨i, ?_⟩, fun j rows hj hsince => ?_⟩
    · rw [phase_snoc_self]
      trivial
    · by_cases hji : i = j
      · subst hji
        rw [phase_snoc_self] at hj
        cases hj
      · rw [Trace.since_snoc_ne tr hji] at hsince
        cases hsince _ List.mem_cons_self
  · cases ho
  · exact hquiet _ rfl
  · exact hquiet _ rfl

theorem Current.listAll {r : Except String (List CatalogEntry)}
    (hp : (phase tr i).Allows s .listAll) (h : step .listAll st r = some st')
    (ho : orderly tr i ⟨.listAll, r⟩ = true) : Current s (tr ++ [(i, ⟨.listAll, r⟩)]) st' := by
  cases r with
  | error text =>
    cases h
    cases hi : phase tr i with
    | probing =>
      refine hc.quiet (fun howes => ?_) fun rows hrows => ?_
      · rw [hi] at howes
        exact howes.elim
      · rw [hi] at hrows
        cases hrows
    | committed =>
      obtain ⟨e, hm, he⟩ := Phase.committed_event hi
      have hno := List.all_eq_true.mp ho e hm
      simp [he] at hno
    | _ =>
      rw [hi] at hp
      cases hp
  | ok listed =>
    simp only [Catalog.step, Option.ite_none_right_eq_some, Option.some.injEq] at h
    obtain ⟨rfl, rfl⟩ := h
    refine hc.quiet (fun howes => ?_) fun rows hrows => ?_
    · cases hi : phase tr i with
      | committed => trivial
      | _ =>
        rw [hi] at hp howes
        first
        | exact howes.elim
        | exact hp.elim
    · cases hi : phase tr i with
      | committed =>
        rw [hi] at hrows
        cases hrows
        rfl
      | probing =>
        rw [hi] at hrows
        cases hrows
      | _ =>
        rw [hi] at hp
        cases hp

theorem Current.storeSnapshot {snap : CatalogSnapshot} {r : Unit}
    (hp : (phase tr i).Allows s (.storeSnapshot snap))
    (h : step (.storeSnapshot snap) st r = some st')
    (ho : orderly tr i ⟨.storeSnapshot snap, r⟩ = true) :
    Current s (tr ++ [(i, ⟨.storeSnapshot snap, r⟩)]) st' := by
  cases h
  cases hi : phase tr i with
  | listed rows =>
    rw [hi] at hp
    have hsince : ∀ x ∈ tr.since i, commits x.2 = false := by
      intro x hx
      simpa using List.all_eq_true.mp ho x hx
    have hrows := hc.recent i rows hi hsince
    refine ⟨.inl (hrows ▸ hp), fun j rows' hj hsince' => ?_⟩
    by_cases hji : i = j
    · subst hji
      rw [phase_snoc_self] at hj
      cases hj
    · rw [phase_snoc_ne tr hji] at hj
      rw [Trace.since_snoc_ne tr hji] at hsince'
      exact hc.recent j rows' hj fun x hx => hsince' x (List.mem_cons_of_mem _ hx)
  | _ =>
    rw [hi] at hp
    cases hp

theorem Current.step (hg : s.Conduct req (tr.own i) op) (h : step op st r = some st')
    (ho : orderly tr i ⟨op, r⟩ = true) : Current s (tr ++ [(i, ⟨op, r⟩)]) st' := by
  have hp : (phase tr i).Allows s op := hg.phase
  have hprobe : ∀ (hlist : op ≠ .listAll) (hstore : ∀ snap, op ≠ .storeSnapshot snap)
      (hkeep : Phase.track op .probing r = .probing), Current s (tr ++ [(i, ⟨op, r⟩)]) st := by
    intro hlist hstore hkeep
    have hi := hp.probing hlist hstore
    refine hc.quiet (fun howes => ?_) fun rows hrows => ?_
    · rw [hi] at howes
      exact howes.elim
    · rw [hi, hkeep] at hrows
      cases hrows
  cases op with
  | tenantByDomain domain =>
    cases h
    exact hprobe (by simp) (by simp) rfl
  | manifestGet host =>
    cases h
    exact hprobe (by simp) (by simp) rfl
  | listAll => exact hc.listAll hp h ho
  | upsertBatch entries => exact hc.upsertBatch hp h ho
  | storeSnapshot snap => exact hc.storeSnapshot hp h ho

end

theorem PushRun.current (hr : PushRun (pushes s rows reqs) tr c')
    (ho : Trace.Always (fun pre i e => orderly pre i e = true) tr) : Current s tr c'.shared := by
  refine Run.invariant (fun tr st => Trace.Always (fun pre i e => orderly pre i e = true) tr →
    Current s tr st) (pushes_conduct s rows reqs) hr ?_ ?_ ?_ ho
  · intro _
    refine ⟨.inl rfl, fun i rows hi => ?_⟩
    cases hi
  · intro tr st i op r st' ih hg hstep ho
    exact (ih ho.left).step hg hstep ho.last
  · exact fun _ _ _ _ h => h.elim

/-- Once every push that began has returned, the served snapshot is the one built from
the catalog, every row is served, and every committed entry has its row. -/
theorem snapshot_serves_catalog {s : CatalogService} {rows : Rows}
    {reqs : ι → Option PushResourcesRequest} {tr : Trace Op Res ι}
    {c' : Pool Op Res State ι (Except Error PushResourcesResponse)} (hrows : rows.Sound)
    (hr : PushRun (pushes s rows reqs) tr c')
    (ho : Trace.Always (fun pre i e => orderly pre i e = true) tr)
    (hidle : ∀ i, tr.own i = [] ∨ ∃ a, c'.threads i = .ret a) :
    c'.shared.snapshot = s.buildSnapshot c'.shared.rows.listAllCatalog ∧
      (∀ row ∈ c'.shared.rows, c'.shared.snapshot.Serves row) ∧
      ∀ i entries, (i, ⟨.upsertBatch entries, .committed⟩) ∈ tr →
        ∀ e ∈ entries, c'.shared.rows.Holds e := by
  have hkept := PushRun.kept hrows hr
  have hidle' : ∀ i, ¬ (phase tr i).Owes := by
    intro i
    rcases hidle i with hi | ⟨a, ha⟩
    · rw [phase, hi]
      exact fun h => h
    · exact Run.returned (pushes_conduct s rows reqs) hr ha
  have hsnap : c'.shared.snapshot = s.buildSnapshot c'.shared.rows.listAllCatalog := by
    rcases (PushRun.current hr ho).fresh with h | ⟨i, hi⟩
    · exact h
    · exact absurd hi (hidle' i)
  refine ⟨hsnap, fun row hm => ?_, hkept.held⟩
  rw [hsnap]
  exact CatalogService.buildSnapshot_serves hkept.sound.listAllCatalog
    (Rows.mem_listAllCatalog.mpr hm)

def verbatimService : CatalogService where
  protocolVersion := "1.0"
  catalogURIScheme := "https"
  exchangeDomain := "exchange.example"
  supportedProfiles := []
  normalizeResourceEntry := id
  validateLicenseTerm := fun _ => .ok []
  marshalTerm := .ok
  marshalResourceMetadata := fun _ => .ok none
  decodeTerms := fun raw => .ok [raw]
  decodeResourceMetadata := .ok
  renderCompProfile := fun _ _ _ _ => .error "no renderer"
  authorizesContributor := fun _ _ => true
  resourceOwnerID := fun _ _ => some "owner"

/-- Every call succeeds, and every domain belongs to `tenantID`. -/
def answer (tenantID : String) : (op : Op) → State → Res op
  | .tenantByDomain _, _ => .found tenantID
  | .manifestGet _, _ => .document ""
  | .listAll, st => .ok st.rows.listAllCatalog
  | .upsertBatch _, _ => .committed
  | .storeSnapshot _, _ => ()

def pushOne (tenantID path contentID : String) : Option PushResourcesRequest :=
  some { tenantID, callerID := "publisher", entries := [{ domain := "p", path, contentID }] }

def twoPushes : Bool → Option PushResourcesRequest
  | false => pushOne "t" "/a" "a"
  | true => pushOne "t" "/b" "b"

/-- Two pushes of one tenant, one after the other. -/
theorem snapshot_serves_two_pushes : ∃ tr c', PushRun (pushes verbatimService [] twoPushes) tr c' ∧
      c'.shared.rows.length = 2 ∧
      c'.shared.snapshot = verbatimService.buildSnapshot c'.shared.rows.listAllCatalog ∧
      ∀ row ∈ c'.shared.rows, c'.shared.snapshot.Serves row := by
  have hrun : ∃ tr c', PushRun (pushes verbatimService [] twoPushes) tr c' ∧
      Trace.Always (fun pre i e => orderly pre i e = true) tr ∧
      (∀ i, (c'.threads i).ok?.isSome) ∧ c'.shared.rows.length = 2 :=
    Pool.exists_run (List.replicate 6 ⟨false, answer "t"⟩ ++ List.replicate 6 ⟨true, answer "t"⟩)
      (by decide +kernel)
  obtain ⟨tr, c', hr, ho, hidle, hlen⟩ := hrun
  have hall := snapshot_serves_catalog Rows.Sound.nil hr ho fun i => by
    obtain ⟨a, ha⟩ := Option.isSome_iff_exists.mp (hidle i)
    exact .inr ⟨_, ok?_eq_some.mp ha⟩
  exact ⟨tr, c', hr, hlen, hall.1, hall.2.1⟩

/-- The first push lists the catalog, the second one commits, lists and stores, and the
first one then stores what it listed: the second resource is accepted and not served. -/
theorem stale_snapshot_stored : ∃ tr c', PushRun (pushes verbatimService [] twoPushes) tr c' ∧
      (∀ i, ∃ a, c'.threads i = .ret (.ok a)) ∧ (∃ row ∈ c'.shared.rows, row.uri = "https://p/b" ∧
        c'.shared.snapshot.lookup row.uri = none ∧ c'.shared.snapshot.byURI.get? row.uri = none) ∧
      c'.shared.snapshot ≠ verbatimService.buildSnapshot c'.shared.rows.listAllCatalog := by
  have hrun : ∃ tr c', PushRun (pushes verbatimService [] twoPushes) tr c' ∧
      (∀ i, (c'.threads i).ok?.isSome) ∧
      (∃ row ∈ c'.shared.rows, row.uri = "https://p/b" ∧
        c'.shared.snapshot.lookup row.uri = none ∧
        c'.shared.snapshot.byURI.get? row.uri = none) ∧
      c'.shared.snapshot.byURI.get? "https://p/b" ≠
        (verbatimService.buildSnapshot c'.shared.rows.listAllCatalog).byURI.get? "https://p/b" :=
    Pool.exists_run (List.replicate 5 ⟨false, answer "t"⟩ ++ List.replicate 6 ⟨true, answer "t"⟩ ++
      [⟨false, answer "t"⟩]) (by decide +kernel)
  obtain ⟨tr, c', hr, hidle, hrow, hstale⟩ := hrun
  refine ⟨tr, c', hr, fun i => ?_, hrow, fun h => hstale (by rw [h])⟩
  obtain ⟨a, ha⟩ := Option.isSome_iff_exists.mp (hidle i)
  exact ⟨a, ok?_eq_some.mp ha⟩

end Ramp.Catalog
