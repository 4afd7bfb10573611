import Ramp.Catalog.Snapshot
import Ramp.Program.Pool

/-! `PushResources` as a program over the tenants, the manifests, the catalog and the served
snapshot. A push commits at most one batch, one row for each of its entries, and the snapshot it
stores is built from a listing made after the commit. -/

namespace Ramp.Catalog

open Ramp.Exchange

inductive TenantReply
  | found (tenantID : String)
  | notFound
  | failed (text : String)

inductive ManifestReply
  | document (manifest : Manifest)
  | noDocument
  | failed (text : String)

/-- `failed text applied` is an error after which the batch may be committed. -/
inductive CommitReply
  | committed
  | uriImmutable
  | failed (text : String) (applied : Bool)

inductive Op
  | tenantByDomain (domain : String)
  | manifestGet (host : String)
  | listAll
  | upsertBatch (entries : List CatalogEntry)
  | storeSnapshot (snap : CatalogSnapshot)

abbrev Res : Op → Type
  | .tenantByDomain _ => TenantReply
  | .manifestGet _ => ManifestReply
  | .listAll => Except String (List CatalogEntry)
  | .upsertBatch _ => CommitReply
  | .storeSnapshot _ => Unit

structure State where
  rows : Rows
  snapshot : CatalogSnapshot

/-- The transaction of `persistAccepted`: all upserts or none. -/
def State.commit (s : State) (entries : List CatalogEntry) : CommitReply → Option State
  | .committed => (s.rows.upsertAll entries).toOption.map ({ s with rows := · })
  | .failed _ true => (s.rows.upsertAll entries).toOption.map ({ s with rows := · })
  | .failed _ false => some s
  | .uriImmutable =>
    if s.rows.upsertAll entries = .error .uriImmutable then some s else none

def step : (op : Op) → State → Res op → Option State
  | .tenantByDomain _, s, _ => some s
  | .manifestGet _, s, _ => some s
  | .listAll, s, .error _ => some s
  | .listAll, s, .ok rows => if rows = s.rows.listAllCatalog then some s else none
  | .upsertBatch entries, s, r => s.commit entries r
  | .storeSnapshot snap, s, _ => some { s with snapshot := snap }

variable {entries : List CatalogEntry}

theorem State.commit_cases {s t : State} {r : CommitReply} (h : s.commit entries r = some t) :
    (s.rows.upsertAll entries = .ok t.rows ∧ t.snapshot = s.snapshot ∧
      (r = .committed ∨ ∃ text, r = .failed text true)) ∨
    (t = s ∧ (r = .uriImmutable ∨ ∃ text, r = .failed text false)) := by
  rcases r with _ | _ | ⟨text, _ | _⟩
  · obtain ⟨rows, hrows, rfl⟩ := Option.map_eq_some_iff.mp h
    exact .inl ⟨by cases hu : s.rows.upsertAll entries <;> simp_all [Except.toOption], rfl,
      .inl rfl⟩
  · simp only [State.commit, Option.ite_none_right_eq_some, Option.some.injEq] at h
    exact .inr ⟨h.2.symm, .inl rfl⟩
  · exact .inr ⟨(Option.some.inj h).symm, .inr ⟨text, rfl⟩⟩
  · obtain ⟨rows, hrows, rfl⟩ := Option.map_eq_some_iff.mp h
    exact .inl ⟨by cases hu : s.rows.upsertAll entries <;> simp_all [Except.toOption], rfl,
      .inr ⟨text, rfl⟩⟩

section

variable {op : Op} {s t : State} {r : Res op} (h : step op s r = some t)
include h

theorem step_writes : (t.rows = s.rows ∨ ∃ entries, op = .upsertBatch entries ∧
      s.rows.upsertAll entries = .ok t.rows) ∧
    (t.snapshot = s.snapshot ∨ op = .storeSnapshot t.snapshot) := by
  cases op with
  | upsertBatch entries =>
    rcases State.commit_cases h with ⟨hrows, hsnap, -⟩ | ⟨rfl, -⟩
    · exact ⟨.inr ⟨entries, rfl, hrows⟩, .inl hsnap⟩
    · exact ⟨.inl rfl, .inl rfl⟩
  | listAll =>
    rcases r with text | rows
    · cases h
      exact ⟨.inl rfl, .inl rfl⟩
    · simp only [step, Option.ite_none_right_eq_some, Option.some.injEq] at h
      rw [h.2]
      exact ⟨.inl rfl, .inl rfl⟩
  | storeSnapshot snap =>
    cases h
    exact ⟨.inl rfl, .inr rfl⟩
  | _ =>
    cases h
    exact ⟨.inl rfl, .inl rfl⟩

end

abbrev Push (α : Type) := ExceptT Error (Prog Op Res) α

structure PushResourcesRequest where
  tenantID : String
  callerID : String
  entries : List ResourceEntry

structure PushResourcesResponse where
  ver : String
  accepted : Nat
  warnings : List String

/-- `survivors` and rejections of `rejectURIConflicts`, from the uri of each resource
and the resource of each uri. -/
def claimURIs (owners uriByResource : Table String String) :
    List CatalogEntry → List CatalogEntry × List CatalogPushRejection
  | [] => ([], [])
  | entry :: entries =>
    if (uriByResource.get? entry.resourceID).any (· ≠ entry.uri) then
      let (survivors, rejections) := claimURIs owners uriByResource entries
      (survivors, reject entry.uri .uriMoved :: rejections)
    else if (owners.get? entry.uri).any (· ≠ entry.resourceID) then
      let (survivors, rejections) := claimURIs owners uriByResource entries
      (survivors, reject entry.uri .uriOwnedByOther :: rejections)
    else
      let (survivors, rejections) := claimURIs (owners.insert entry.uri entry.resourceID)
        (uriByResource.insert entry.resourceID entry.uri) entries
      (entry :: survivors, rejections)

def plain (text : String) : Error := newf .unspecified text

namespace CatalogService

variable (s : CatalogService)

def deriveTenantID (req : PushResourcesRequest) (e : ResourceEntry) :
    Push (Except CatalogPushRejection String) := do
  match ← ask (Op.tenantByDomain e.domain) with
  | .notFound => pure (.error (reject (s.uriFromEntry e) .unknownPublisherDomain))
  | .failed text => throw (wrap .internal text "derive tenant from domain")
  | .found tenantID =>
    if req.tenantID ≠ "" ∧ req.tenantID ≠ tenantID then
      pure (.error (reject (s.uriFromEntry e) .tenantMismatch))
    else pure (.ok tenantID)

def resolveManifestGates (e : ResourceEntry) (callerID uri : String) :
    Push (Except CatalogPushRejection String) := do
  match ← ask (Op.manifestGet e.domain) with
  | .noDocument => pure (.error (reject uri .notInContributors))
  | .failed text => throw (wrap .internal text "fetch publisher manifest")
  | .document manifest =>
    if s.authorizesContributor manifest callerID then
      match s.resourceOwnerID manifest s.exchangeDomain with
      | none => pure (.error (reject uri .missingResourceOwner))
      | some ownerID => pure (.ok ownerID)
    else pure (.error (reject uri .notInContributors))

def classifyOwned (req : PushResourcesRequest) (e : ResourceEntry) (tenantID : String) :
    Push (Except CatalogPushRejection (CatalogEntry × List String)) :=
  match s.entryFromProto tenantID e with
  | .error _ => pure (.error (reject (s.uriFromEntry e) .invalidEntry))
  | .ok entry => do
    match ← s.resolveManifestGates e req.callerID entry.uri with
    | .error rej => pure (.error rej)
    | .ok ownerID =>
      pure ((s.validateEntryTerms entry.uri e.terms).map
        fun warnings => ({ entry with resourceOwnerID := ownerID }, warnings))

def classifyEntry (req : PushResourcesRequest) (e : ResourceEntry) :
    Push (Except CatalogPushRejection (CatalogEntry × List String)) := do
  match ← s.deriveTenantID req (s.normalizeResourceEntry e) with
  | .error rej => pure (.error rej)
  | .ok tenantID => s.classifyOwned req (s.normalizeResourceEntry e) tenantID

structure Partition where
  accepted : List CatalogEntry := []
  rejections : List CatalogPushRejection := []
  warnings : List String := []

def Partition.add (p : Partition) :
    Except CatalogPushRejection (CatalogEntry × List String) → Partition
  | .error rej => { p with rejections := rej :: p.rejections }
  | .ok (entry, warnings) =>
    { p with accepted := entry :: p.accepted, warnings := warnings ++ p.warnings }

def classifyEntries (req : PushResourcesRequest) : List ResourceEntry → Push Partition
  | [] => pure {}
  | e :: es => do
    let verdict ← s.classifyEntry req e
    let rest ← classifyEntries req es
    pure (rest.add verdict)

def rejectURIConflicts (accepted : List CatalogEntry) :
    Push (List CatalogEntry × List CatalogPushRejection) := do
  match ← ask Op.listAll with
  | .error text => throw (plain text)
  | .ok rows =>
    pure (claimURIs (Table.index (·.uri) (·.resourceID) rows)
      (Table.index (·.resourceID) (·.uri) rows) accepted)

def partitionByContributor (req : PushResourcesRequest) : Push Partition := do
  let p ← s.classifyEntries req req.entries
  let (survivors, uriRejections) ← rejectURIConflicts p.accepted
  pure { p with accepted := survivors, rejections := p.rejections ++ uriRejections }

def persistAccepted (accepted : List CatalogEntry) : Push Unit := do
  match ← ask (Op.upsertBatch accepted) with
  | .committed => pure ()
  | .uriImmutable =>
    throw (wrap .invalidRequest "repo: catalog uri is immutable for an existing resource_id"
      "push rejected, nothing persisted: catalog uri is immutable for an existing resource")
  | .failed text _ => throw (wrap .internal text "upsert catalog entries")

def rebuild : Push Unit := do
  match ← ask Op.listAll with
  | .error text => throw (wrap .internal text "rebuild catalog snapshot")
  | .ok rows => do
    let _ ← ask (Op.storeSnapshot (s.buildSnapshot rows))
    pure ()

def serve (p : Partition) : Push PushResourcesResponse :=
  if p.rejections ≠ [] then
    throw (newf .invalidRequest ("push rejected, nothing persisted; fix and resubmit: " ++
      formatRejections p.rejections))
  else if p.accepted = [] then pure ⟨s.protocolVersion, 0, p.warnings⟩
  else do
    persistAccepted p.accepted
    s.rebuild
    pure ⟨s.protocolVersion, p.accepted.length, p.warnings⟩

def pushResources : Option PushResourcesRequest → Push PushResourcesResponse
  | none => throw (newf .invalidRequest "nil request")
  | some req =>
    if req.tenantID = "" then throw (newf .invalidRequest "tenant_id required")
    else if req.callerID = "" then throw (newf .invalidRequest "caller_id required")
    else if req.entries = [] then throw (newf .invalidRequest "entries required")
    else do
      let p ← s.partitionByContributor req
      s.serve p

end CatalogService

open Ramp.Exchange Prog

/-- How far a push has come. `lost` is a committed batch for which the push will not
store a snapshot. -/
inductive Phase
  | probing
  | committed
  | listed (rows : List CatalogEntry)
  | served
  | refused
  | lost

namespace Phase

def afterCommit : CommitReply → Phase
  | .committed => committed
  | .failed _ true => lost
  | _ => refused

def afterListing : Phase → Except String (List CatalogEntry) → Phase
  | committed, .ok rows => listed rows
  | committed, .error _ => lost
  | p, _ => p

def track : (op : Op) → Phase → Res op → Phase
  | .upsertBatch _, _, r => afterCommit r
  | .listAll, p, r => p.afterListing r
  | .storeSnapshot _, _, _ => served
  | .tenantByDomain _, p, _ => p
  | .manifestGet _, p, _ => p

def Allows (s : CatalogService) : Phase → Op → Prop
  | probing, .storeSnapshot _ => False
  | probing, _ => True
  | committed, .listAll => True
  | listed rows, .storeSnapshot snap => snap = s.buildSnapshot rows
  | _, _ => False

def Owes : Phase → Prop
  | committed => True
  | listed _ => True
  | _ => False

end Phase

def Op.Probes : Op → Prop
  | .upsertBatch _ => False
  | .storeSnapshot _ => False
  | _ => True

namespace CatalogService

variable {s : CatalogService}

theorem deriveTenantID_probes (req : PushResourcesRequest) (e : ResourceEntry) :
    Only Op.Probes (s.deriveTenantID req e).run := by
  refine .ask trivial fun r => ?_
  rcases r with tenantID | _ | text
  · dsimp only
    split_ifs <;> exact .pure
  · exact .pure
  · exact .throw

theorem resolveManifestGates_probes (e : ResourceEntry) (callerID uri : String) :
    Only Op.Probes (s.resolveManifestGates e callerID uri).run := by
  refine .ask trivial fun r => ?_
  rcases r with manifest | _ | text
  · dsimp only
    split_ifs
    · split <;> exact .pure
    · exact .pure
  · exact .pure
  · exact .throw

theorem classifyEntry_probes (req : PushResourcesRequest) (e : ResourceEntry) :
    Only Op.Probes (s.classifyEntry req e).run := by
  refine .seq (deriveTenantID_probes req _) fun v => ?_
  rcases v with rej | tenantID
  · exact .pure
  · change Only _ (s.classifyOwned req (s.normalizeResourceEntry e) tenantID).run
    unfold classifyOwned
    split
    · exact .pure
    · refine .seq (resolveManifestGates_probes _ _ _) fun v => ?_
      rcases v with rej | ownerID <;> exact .pure

theorem classifyEntries_probes (req : PushResourcesRequest) (es : List ResourceEntry) :
    Only Op.Probes (s.classifyEntries req es).run := by
  induction es with
  | nil => exact .pure
  | cons e es ih =>
    exact .seq (classifyEntry_probes req e) fun _ => .seq ih fun _ => .pure

theorem rejectURIConflicts_probes (accepted : List CatalogEntry) :
    Only Op.Probes (rejectURIConflicts accepted).run := by
  refine .ask trivial fun r => ?_
  rcases r with text | rows
  · exact .throw
  · exact .pure

theorem partitionByContributor_probes (req : PushResourcesRequest) :
    Only Op.Probes (s.partitionByContributor req).run :=
  Only.seq (classifyEntries_probes req _) fun _ =>
    Only.seq (rejectURIConflicts_probes _) fun _ => .pure

theorem probes_pass : Passes (tracked Phase.track) (Phase.Allows s) (· = .probing) Op.Probes where
  allows := by
    rintro p op rfl hop
    cases op <;> first | exact hop | trivial
  keeps := by
    rintro op p r t hop rfl ht
    cases ht
    cases op with
    | upsertBatch es => cases hop
    | storeSnapshot snap => cases hop
    | _ => rfl

theorem rebuild_phases :
    Spec (tracked Phase.track) (Phase.Allows s) (fun p _ => ¬ p.Owes) s.rebuild.run .committed := by
  refine .tell trivial fun r => ?_
  rcases r with text | rows
  · exact .throw (fun h => h)
  · exact .tell rfl fun _ => .pure (fun h => h)

theorem serve_phases (p : Partition) :
    Spec (tracked Phase.track) (Phase.Allows s) (fun p _ => ¬ p.Owes) (s.serve p).run .probing := by
  unfold serve
  split_ifs
  · exact .throw (fun h => h)
  · exact .pure (fun h => h)
  · refine .seq (R := fun p r => r = .ok () ∧ p = .committed ∨ (∃ e, r = .error e) ∧ ¬ p.Owes)
      (.tell trivial fun r => ?_) ?_ ?_
    · rcases r with _ | _ | ⟨text, applied⟩
      · exact .inl ⟨rfl, rfl⟩
      · exact .inr ⟨⟨_, rfl⟩, fun h => h⟩
      · cases applied <;> exact .inr ⟨⟨_, rfl⟩, fun h => h⟩
    · rintro p e (⟨he, -⟩ | ⟨-, hp⟩)
      · cases he
      · exact hp
    · rintro p _ (⟨-, rfl⟩ | ⟨⟨e, he⟩, -⟩)
      · exact .seq rebuild_phases (fun _ _ h => h) fun _ _ h => .pure h
      · cases he

theorem pushResources_phases (req : Option PushResourcesRequest) :
    Spec (tracked Phase.track) (Phase.Allows s) (fun p _ => ¬ p.Owes) (s.pushResources req).run
      .probing := by
  rcases req with _ | req
  · exact .throw (fun h => h)
  unfold pushResources
  dsimp only
  split_ifs
  iterate 3 exact .throw (fun h => h)
  refine .seq ((partitionByContributor_probes req).spec_of_passes probes_pass rfl) ?_ ?_
  · rintro p e rfl
    exact fun h => h
  · rintro p a rfl
    exact serve_phases a

end CatalogService

def Accepted (s : CatalogService) (h : History Op Res) (e : ResourceEntry)
    (row : CatalogEntry) : Prop :=
  ∃ tenantID entry ownerID,
    ⟨.tenantByDomain (s.normalizeResourceEntry e).domain, .found tenantID⟩ ∈ h ∧
      s.entryFromProto tenantID (s.normalizeResourceEntry e) = .ok entry ∧
      row = { entry with resourceOwnerID := ownerID }

variable {h : History Op Res} {e : ResourceEntry} {row : CatalogEntry}

section

variable {s : CatalogService} (ha : Accepted s h e row)
include ha

theorem Accepted.mono {h' : History Op Res} (hh : h ⊆ h') : Accepted s h' e row := by
  obtain ⟨tenantID, entry, ownerID, hm, hrest⟩ := ha
  exact ⟨tenantID, entry, ownerID, hh hm, hrest⟩

theorem Accepted.scoped : row.Scoped := by
  obtain ⟨tenantID, entry, ownerID, -, he, rfl⟩ := ha
  have hs := (CatalogService.entryFromProto_scoped he).1
  exact ⟨hs.tenant, hs.uriPrefix⟩

theorem Accepted.placed :
    row.uri = s.catalogURIScheme ++ "://" ++ (s.normalizeResourceEntry e).domain ++
      (s.normalizeResourceEntry e).path ∧
    ⟨.tenantByDomain (s.normalizeResourceEntry e).domain, .found row.tenantID⟩ ∈ h := by
  obtain ⟨tenantID, entry, ownerID, hm, he, rfl⟩ := ha
  obtain ⟨-, ht, huri⟩ := CatalogService.entryFromProto_scoped he
  exact ⟨huri, ht ▸ hm⟩

end

def Writes (s : CatalogService) (entries : List ResourceEntry) (h : History Op Res) :
    Op → Prop
  | .upsertBatch rows => List.Forall₂ (Accepted s h) entries rows
  | _ => True

theorem claimURIs_all {owners uriByResource : Table String String}
    (h : (claimURIs owners uriByResource entries).2 = []) :
    (claimURIs owners uriByResource entries).1 = entries := by
  induction entries generalizing owners uriByResource with
  | nil => rfl
  | cons e es ih =>
    unfold claimURIs at h ⊢
    split_ifs at h ⊢
    exact congrArg (e :: ·) (ih h)

namespace CatalogService

variable {s : CatalogService} {entries : List ResourceEntry}

section

variable (req : PushResourcesRequest)
include req

theorem deriveTenantID_accepts (e : ResourceEntry) (h : History Op Res) :
    Yields recordCall (Writes s entries) (fun h' v => h ⊆ h' ∧ ∀ tenantID, v = .ok tenantID →
      ⟨.tenantByDomain e.domain, .found tenantID⟩ ∈ h') (s.deriveTenantID req e) h := by
  refine Spec.ask trivial fun r t ht => ?_
  cases ht
  rcases r with tenantID | _ | text
  · by_cases hm : req.tenantID ≠ "" ∧ req.tenantID ≠ tenantID
    · simp only [if_pos hm]
      exact Yields.pure ⟨by simp, nofun⟩
    · simp only [if_neg hm]
      rintro t ⟨⟩
      simp
  · exact Yields.pure ⟨by simp, nofun⟩
  · exact Yields.throw

theorem classifyEntry_accepts (e : ResourceEntry) (h : History Op Res) :
    Yields recordCall (Writes s entries) (fun h' v => h ⊆ h' ∧ ∀ row w, v = .ok (row, w) →
      Accepted s h' e row) (s.classifyEntry req e) h := by
  refine Yields.seq (deriveTenantID_accepts req _ h) fun h₁ v hv => ?_
  obtain ⟨hsub, hv⟩ := hv
  rcases v with rej | tenantID
  · exact Yields.pure ⟨hsub, nofun⟩
  change Yields _ _ _ (s.classifyOwned req (s.normalizeResourceEntry e) tenantID) h₁
  unfold classifyOwned
  split
  · exact Yields.pure ⟨hsub, nofun⟩
  next entry hentry =>
    refine Yields.seq (P := fun h' _ => h₁ ⊆ h') ?_ fun h₂ v hsub' => ?_
    · refine Spec.ask trivial fun r t ht => ?_
      cases ht
      rcases r with manifest | _ | text
      · dsimp only
        split_ifs
        · split <;> exact Yields.pure (by simp)
        · exact Yields.pure (by simp)
      · exact Yields.pure (by simp)
      · exact Yields.throw
    · rcases v with rej | ownerID
      · exact Yields.pure ⟨fun _ hm => hsub' (hsub hm), nofun⟩
      · refine Yields.pure ⟨fun _ hm => hsub' (hsub hm), fun row w hrow => ?_⟩
        cases hterms : s.validateEntryTerms entry.uri (s.normalizeResourceEntry e).terms with
        | error rej => simp [hterms, Except.map] at hrow
        | ok warnings =>
          simp only [hterms, Except.map, Except.ok.injEq, Prod.mk.injEq] at hrow
          exact ⟨tenantID, entry, ownerID, hsub' (hv tenantID rfl), hentry, hrow.1.symm⟩

theorem classifyEntries_accepts (es : List ResourceEntry) (h : History Op Res) :
    Yields recordCall (Writes s entries) (fun h' p => h ⊆ h' ∧ (p.rejections = [] →
      List.Forall₂ (Accepted s h') es p.accepted)) (s.classifyEntries req es) h := by
  induction es generalizing h with
  | nil => exact .pure ⟨fun _ hm => hm, fun _ => .nil⟩
  | cons e es ih =>
    refine .seq (classifyEntry_accepts req e h) fun h₁ v hv => ?_
    refine .seq (ih h₁) fun h₂ p hp => ?_
    refine .pure ⟨fun _ hm => hp.1 (hv.1 hm), fun hrej => ?_⟩
    rcases v with rej | ⟨row, w⟩
    · cases hrej
    · exact .cons ((hv.2 row w rfl).mono hp.1) (hp.2 hrej)

theorem partitionByContributor_accepts (h : History Op Res) :
    Yields recordCall (Writes s entries) (fun h' p => p.rejections = [] →
      List.Forall₂ (Accepted s h') req.entries p.accepted) (s.partitionByContributor req) h := by
  refine Yields.seq (classifyEntries_accepts req req.entries h) fun h₁ p hp => ?_
  refine Yields.seq (P := fun h' q => h₁ ⊆ h' ∧ (q.2 = [] → q.1 = p.accepted)) ?_
    fun h₂ q hq => ?_
  · refine Spec.ask trivial fun r t ht => ?_
    cases ht
    rcases r with text | rows
    · exact Yields.throw
    · exact Yields.pure ⟨by simp, claimURIs_all⟩
  · refine Yields.pure fun hrej => ?_
    obtain ⟨hrej₁, hrej₂⟩ := List.append_eq_nil_iff.mp hrej
    rw [hq.2 hrej₂]
    exact (hp.2 hrej₁).imp fun _ _ ha => ha.mono hq.1

end

theorem pushResources_writes (req : Option PushResourcesRequest) (h : History Op Res) :
    Spec recordCall (Writes s (req.elim [] (·.entries))) (fun _ _ => True)
      (s.pushResources req).run h := by
  rcases req with _ | req
  · exact .throw trivial
  unfold pushResources
  dsimp only
  split_ifs
  iterate 3 exact .throw trivial
  refine .seq (partitionByContributor_accepts req h) (fun _ _ _ => trivial) fun h₁ p hp => ?_
  unfold serve
  split_ifs with hrej
  · exact .throw trivial
  · exact .pure trivial
  · refine .seq (R := fun _ _ => True) (.ask ?_ fun r t ht => ?_)
      (fun _ _ _ => trivial) fun h₂ _ _ => ?_
    · exact hp p rfl (not_not.mp hrej)
    · rcases r with _ | _ | ⟨text, applied⟩ <;> exact trivial
    · refine .seq (R := fun _ _ => True) (.ask trivial fun r t ht => ?_)
        (fun _ _ _ => trivial) fun _ _ _ => .pure trivial
      rcases r with text | rows
      · exact .throw trivial
      · exact .ask trivial fun _ _ _ => .pure trivial

structure Conduct (s : CatalogService) (req : Option PushResourcesRequest) (h : History Op Res)
    (op : Op) : Prop where
  phase : (History.summary Phase.track .probing h).Allows s op
  writes : Writes s (req.elim [] (·.entries)) h op

theorem pushResources_conduct (req : Option PushResourcesRequest) : Spec recordCall (Conduct s req)
      (fun h _ => ¬ (History.summary Phase.track .probing h).Owes) (s.pushResources req).run [] :=
  (Spec.and (Spec.history (h := []) (pushResources_phases req)) (pushResources_writes req [])).mono
    (fun _ _ hg => ⟨hg.1, hg.2⟩) fun _ _ hq => hq.1

end CatalogService

end Ramp.Catalog
