import Ramp.Catalog.Serving

/-! Who owns a uri. The probe before the write may be out of date, so what holds at all
times is what the guarded upsert keeps. It may set the tenant of a row, but a uri names the domain
it is under, and the tenant of a domain does not change while the pushes run. -/

namespace Ramp.Catalog

open Ramp.Exchange Prog

variable {ι : Type} [DecidableEq ι]

def CatalogEntry.owner (e : CatalogEntry) : String × String × String :=
  (e.resourceID, e.uri, e.tenantID)

/-- The wire rules on the domain and the path of an entry. -/
def ResourceEntry.Addressed (e : ResourceEntry) : Prop :=
  '/' ∉ e.domain.toList ∧ e.path.toList.head? = some '/'

/-- The uri of the row is under a domain of its tenant. -/
def CatalogEntry.Placed (s : CatalogService) (tenants : String → Option String)
    (row : CatalogEntry) : Prop :=
  ∃ e : ResourceEntry, e.Addressed ∧ row.uri = s.catalogURIScheme ++ "://" ++ e.domain ++ e.path ∧
    tenants e.domain = some row.tenantID

variable {s : CatalogService} {tenants : String → Option String}

theorem CatalogEntry.Placed.tenantID_eq {a b : CatalogEntry} (ha : a.Placed s tenants)
    (hb : b.Placed s tenants) (huri : a.uri = b.uri) : a.tenantID = b.tenantID := by
  obtain ⟨e, ⟨hslash, hpath⟩, he, ht⟩ := ha
  obtain ⟨e', ⟨hslash', hpath'⟩, he', ht'⟩ := hb
  obtain ⟨path, hp⟩ := List.head?_eq_some_iff.mp hpath
  obtain ⟨path', hp'⟩ := List.head?_eq_some_iff.mp hpath'
  rw [he, he'] at huri
  simp only [← String.toList_inj, String.toList_append, List.append_assoc, hp, hp',
    List.append_cancel_left_eq] at huri
  have hdomain := String.toList_inj.mp (split_first hslash hslash' huri).1
  exact Option.some.inj (ht.symm.trans (hdomain ▸ ht'))

namespace Rows

def Owns (rows : Rows) (listed : List CatalogEntry) : Prop :=
  ∀ a ∈ listed, ∃ b ∈ rows, b.owner = a.owner

theorem owns_refl (rows : Rows) : rows.Owns rows := fun a ha => ⟨a, ha, rfl⟩

variable {rows rows' : Rows} {es : List CatalogEntry}

def Placed (s : CatalogService) (tenants : String → Option String) (rows : List CatalogEntry) :
    Prop :=
  ∀ row ∈ rows, row.Placed s tenants

theorem Owns.trans {listed : List CatalogEntry} (h : rows'.Owns rows) (h' : rows.Owns listed) :
    rows'.Owns listed := by
  intro a ha
  obtain ⟨b, hb, hba⟩ := h' a ha
  obtain ⟨c, hc, hcb⟩ := h b hb
  exact ⟨c, hc, hcb.trans hba⟩

theorem mem_upsertAll (h : rows.upsertAll es = .ok rows') {row : CatalogEntry} (hm : row ∈ rows') :
    row ∈ rows ∨ ∃ e ∈ es, row = e.stored := by
  induction es generalizing rows with
  | nil =>
    cases h
    exact .inl hm
  | cons e es ih =>
    unfold Rows.upsertAll at h
    split at h
    · cases h
    next mid hmid =>
      rcases ih h with hrow | ⟨e', he', rfl⟩
      · rcases upsertCatalogEntry_cases hmid with ⟨old, hold, hid, huri, rfl⟩ | ⟨hid, huri, rfl⟩
        · obtain ⟨row', hrow', rfl⟩ := List.mem_map.mp hrow
          split_ifs
          · exact .inr ⟨e, List.mem_cons_self, rfl⟩
          · exact .inl hrow'
        · rcases List.mem_append.mp hrow with hrow | hrow
          · exact .inl hrow
          · exact .inr ⟨e, List.mem_cons_self, List.mem_singleton.mp hrow⟩
      · exact .inr ⟨e', List.mem_cons_of_mem _ he', rfl⟩

theorem Placed.upsertAll (hp : Placed s tenants rows) (hes : Placed s tenants es)
    (h : rows.upsertAll es = .ok rows') : Placed s tenants rows' := by
  intro row hm
  rcases mem_upsertAll h hm with hm | ⟨e, he, rfl⟩
  · exact hp row hm
  · exact hes e he

theorem owns_upsertAll (hs : rows.Sound) (hp : Placed s tenants rows) (hes : ∀ e ∈ es, e.Scoped)
    (hpes : Placed s tenants es) (h : rows.upsertAll es = .ok rows') : rows'.Owns rows := by
  intro a ha
  obtain ⟨b, hb, haddr⟩ := (upsertAll_holds hs hes h).1 a (holds_of_mem ha)
  obtain ⟨hid, huri⟩ := Prod.mk.inj haddr
  have ht := (hp.upsertAll hpes h b hb).tenantID_eq (hp a ha) huri
  exact ⟨b, hb, by rw [CatalogEntry.owner, CatalogEntry.owner, hid, huri, ht]⟩

end Rows

/-- A lookup that finds a tenant finds the one that `tenants` has for the domain. -/
def fixedTenant (tenants : String → Option String) : Event Op Res → Bool
  | ⟨.tenantByDomain domain, .found tenantID⟩ => tenants domain = some tenantID
  | _ => true

variable {req : Option PushResourcesRequest} {tr : Trace Op Res ι} {i : ι}
  {entries : List CatalogEntry} {st st' : State} {op : Op} {r : Res op} {rows : Rows}
  {reqs : ι → Option PushResourcesRequest}
  {c' : Pool Op Res State ι (Except Error PushResourcesResponse)}

theorem CatalogService.Conduct.placed (hc : s.Conduct req (tr.own i) (.upsertBatch entries))
    (hw : ∀ e ∈ req.elim [] (·.entries), (s.normalizeResourceEntry e).Addressed)
    (ht : ∀ e ∈ tr, fixedTenant tenants e.2 = true) : Rows.Placed s tenants entries := by
  intro row hm
  obtain ⟨e, he, ha⟩ := forall₂_mem_right hc.writes hm
  obtain ⟨huri, hdomain⟩ := ha.placed
  have hfound := ht _ (Trace.mem_own.mp hdomain)
  exact ⟨s.normalizeResourceEntry e, hw e he, huri, by simpa [fixedTenant] using hfound⟩

structure Owned (s : CatalogService) (tenants : String → Option String) (tr : Trace Op Res ι)
    (st : State) : Prop where
  sound : st.rows.Sound
  placed : Rows.Placed s tenants st.rows
  listed : ∀ i rows, phase tr i = .listed rows → st.rows.Owns rows
  served : ∃ rows, st.snapshot = s.buildSnapshot rows ∧ st.rows.Owns rows

section

variable (ho : Owned s tenants tr st) (hc : s.Conduct req (tr.own i) op)
  (hw : ∀ e ∈ req.elim [] (·.entries), (s.normalizeResourceEntry e).Addressed)
  (ht : ∀ e ∈ tr, fixedTenant tenants e.2 = true) (h : step op st r = some st')
include ho hc hw ht h

theorem Owned.rows_step :
    st'.rows.Sound ∧ Rows.Placed s tenants st'.rows ∧ st'.rows.Owns st.rows := by
  rcases (step_writes h).1 with hrows | ⟨entries, rfl, hrows⟩
  · rw [hrows]
    exact ⟨ho.sound, ho.placed, Rows.owns_refl st.rows⟩
  · have hplaced := hc.placed hw ht
    exact ⟨ho.sound.upsertAll hc.scoped hrows, ho.placed.upsertAll hplaced hrows,
      Rows.owns_upsertAll ho.sound ho.placed hc.scoped hplaced hrows⟩

theorem Owned.step : Owned s tenants (tr ++ [(i, ⟨op, r⟩)]) st' := by
  obtain ⟨hsound, hplaced, howns⟩ := ho.rows_step hc hw ht h
  have hp : (phase tr i).Allows s op := hc.phase
  refine ⟨hsound, hplaced, fun j rows hj => ?_, ?_⟩
  · by_cases hji : i = j
    · subst hji
      rw [phase_snoc_self] at hj
      cases op with
      | listAll =>
        rcases r with text | listed
        · cases hi : phase tr i with
          | listed rows' =>
            rw [hi] at hp
            cases hp
          | _ =>
            rw [hi] at hj
            cases hj
        · simp only [Catalog.step, Option.ite_none_right_eq_some, Option.some.injEq] at h
          obtain ⟨rfl, rfl⟩ := h
          cases hi : phase tr i with
          | committed =>
            rw [hi] at hj
            cases hj
            exact fun a ha => ⟨a, Rows.mem_listAllCatalog.mp ha, rfl⟩
          | listed rows' =>
            rw [hi] at hp
            cases hp
          | _ =>
            rw [hi] at hj
            cases hj
      | upsertBatch entries => rcases r with _ | _ | ⟨text, _ | _⟩ <;> cases hj
      | storeSnapshot snap => cases hj
      | tenantByDomain domain => exact howns.trans (ho.listed i rows hj)
      | manifestGet host => exact howns.trans (ho.listed i rows hj)
    · rw [phase_snoc_ne tr hji] at hj
      exact howns.trans (ho.listed j rows hj)
  · rcases (step_writes h).2 with hsnap | rfl
    · obtain ⟨rows, hrows, hserved⟩ := ho.served
      exact ⟨rows, hsnap.trans hrows, howns.trans hserved⟩
    · cases hi : phase tr i with
      | listed rows =>
        rw [hi] at hp
        exact ⟨rows, hp, howns.trans (ho.listed i rows hi)⟩
      | _ =>
        rw [hi] at hp
        cases hp

end

section

variable (hrows : rows.Sound) (hplaced : Rows.Placed s tenants rows)
  (hw : ∀ i, ∀ e ∈ (reqs i).elim [] (·.entries), (s.normalizeResourceEntry e).Addressed)
include hrows hplaced hw

theorem PushRun.owned (hr : PushRun (pushes s rows reqs) tr c')
    (ht : ∀ e ∈ tr, fixedTenant tenants e.2 = true) : Owned s tenants tr c'.shared := by
  refine Run.invariant (fun tr st => (∀ e ∈ tr, fixedTenant tenants e.2 = true) →
    Owned s tenants tr st) (pushes_conduct s rows reqs) hr ?_ ?_ ?_ ht
  · refine fun _ => ⟨hrows, hplaced, nofun, _, rfl, fun a ha => ?_⟩
    exact ⟨a, Rows.mem_listAllCatalog.mp ha, rfl⟩
  · intro tr st i op r st' ih hg hstep ht
    have ht' : ∀ e ∈ tr, fixedTenant tenants e.2 = true :=
      fun e he => ht e (List.mem_append_left _ he)
    exact (ih ht').step hg (hw i) ht' hstep
  · exact fun _ _ _ _ h => h.elim

theorem PushRun.owned_from {tr₁ tr₂ : Trace Op Res ι}
    {c₁ c₂ : Pool Op Res State ι (Except Error PushResourcesResponse)}
    (hr₁ : PushRun (pushes s rows reqs) tr₁ c₁) (hr₂ : PushRun c₁ tr₂ c₂)
    (ht : ∀ e ∈ tr₁ ++ tr₂, fixedTenant tenants e.2 = true) :
    c₂.shared.rows.Owns c₁.shared.rows := by
  let Inv : Trace Op Res ι → State → Prop := fun tr st =>
    (∀ e ∈ tr, fixedTenant tenants e.2 = true) →
      Owned s tenants tr st ∧ st.rows.Owns c₁.shared.rows
  have hinv : Inv (tr₁ ++ tr₂) c₂.shared := by
    refine Run.invariant_from Inv (pushes_conduct s rows reqs) hr₁ hr₂ ?_ ?_ ?_
    · exact fun ht => ⟨PushRun.owned hrows hplaced hw hr₁ ht, Rows.owns_refl _⟩
    · intro tr st i op r st' ih hg hstep ht
      have ht' : ∀ e ∈ tr, fixedTenant tenants e.2 = true :=
        fun e he => ht e (List.mem_append_left _ he)
      obtain ⟨ho, howns⟩ := ih ht'
      exact ⟨ho.step hg (hw i) ht' hstep, (ho.rows_step hg (hw i) ht' hstep).2.2.trans howns⟩
    · exact fun _ _ _ _ h => h.elim
  exact (hinv ht).2

end

def isWrite (e : Event Op Res) : Bool :=
  match e.op with
  | .upsertBatch _ => true
  | _ => false

theorem PushRun.one_write (hr : PushRun (pushes s rows reqs) tr c') (i : ι) :
    (tr.own i).countP isWrite ≤ 1 := by
  let Inv : Trace Op Res ι → State → Prop := fun tr _ =>
    (tr.own i).countP isWrite ≤ 1 ∧ (phase tr i = .probing → (tr.own i).countP isWrite = 0)
  have hinv : Inv tr c'.shared := by
    refine Run.invariant Inv (pushes_conduct s rows reqs) hr ⟨by simp, by simp⟩ ?_ ?_
    · intro tr st j op r st' ih hg _
      by_cases hji : j = i
      · subst hji
        have hp : (phase tr j).Allows s op := hg.phase
        change _ ≤ 1 ∧ (phase _ j = _ → _)
        rw [Trace.own_snoc_self, phase_snoc_self, List.countP_append]
        cases op with
        | upsertBatch entries =>
          have hzero := ih.2 (hp.probing (by simp) (by simp))
          refine ⟨by simp [hzero, isWrite], fun hprobing => ?_⟩
          rcases r with _ | _ | ⟨text, _ | _⟩ <;> cases hprobing
        | listAll =>
          refine ⟨by simpa [isWrite] using ih.1, fun hprobing => ?_⟩
          have hpre : phase tr j = .probing := by
            cases hi : phase tr j with
            | probing => rfl
            | committed =>
              rw [hi] at hprobing
              rcases r with text | listed <;> cases hprobing
            | _ =>
              rw [hi] at hp
              cases hp
          simpa [isWrite] using ih.2 hpre
        | storeSnapshot snap => exact ⟨by simpa [isWrite] using ih.1, fun h => by cases h⟩
        | tenantByDomain domain =>
          exact ⟨by simpa [isWrite] using ih.1, fun h => by simpa [isWrite] using ih.2 h⟩
        | manifestGet host =>
          exact ⟨by simpa [isWrite] using ih.1, fun h => by simpa [isWrite] using ih.2 h⟩
      · change _ ≤ 1 ∧ (phase _ i = _ → _)
        rw [Trace.own_snoc_ne _ hji, phase_snoc_ne _ hji]
        exact ih
    · exact fun _ _ _ _ h => h.elim
  exact hinv.1

theorem PushRun.writes_all (hr : PushRun (pushes s rows reqs) tr c') {r : CommitReply}
    (hm : (i, ⟨.upsertBatch entries, r⟩) ∈ tr) :
    List.Forall₂ (Accepted s (tr.own i)) ((reqs i).elim [] (·.entries)) entries := by
  obtain ⟨pre, post, rfl⟩ := List.append_of_mem hm
  have hg := hr.guarded (pushes_conduct s rows reqs) rfl
  refine List.Forall₂.imp (fun _ _ ha => ha.mono fun e he => ?_) hg.writes
  rw [Trace.own_append]
  exact List.mem_append_left _ he

/-- Two moments of a run in which no domain changes its tenant, the second after the first. A uri
has one owner at each of them and the same one at both; a push commits all of its entries in one
step or none; and an offer issued at the first moment resolves at the second to its resource and
tenant or to nothing. -/
theorem uri_owner_stable {s : CatalogService} {tenants : String → Option String} {rows : Rows}
    {reqs : ι → Option PushResourcesRequest}
    {tr₁ tr₂ : Trace Op Res ι} {c₁ c₂ : Pool Op Res State ι (Except Error PushResourcesResponse)}
    (hrows : rows.Sound) (hplaced : Rows.Placed s tenants rows)
    (hwire : ∀ i, ∀ e ∈ (reqs i).elim [] (·.entries), (s.normalizeResourceEntry e).Addressed)
    (hr₁ : PushRun (pushes s rows reqs) tr₁ c₁) (hr₂ : PushRun c₁ tr₂ c₂)
    (ht : ∀ e ∈ tr₁ ++ tr₂, fixedTenant tenants e.2 = true) :
    (∀ a ∈ c₁.shared.rows, ∀ b ∈ c₁.shared.rows, a.uri = b.uri → a = b) ∧
    (∀ a ∈ c₁.shared.rows, ∃ b ∈ c₂.shared.rows, b.owner = a.owner) ∧
    (∀ a ∈ c₁.shared.rows, ∀ b ∈ c₂.shared.rows,
      b.resourceID = a.resourceID ∨ b.uri = a.uri → b.owner = a.owner) ∧
    (∀ i, (tr₁.own i).countP isWrite ≤ 1 ∧ ∀ entries r, (i, ⟨.upsertBatch entries, r⟩) ∈ tr₁ →
      List.Forall₂ (Accepted s (tr₁.own i)) ((reqs i).elim [] (·.entries)) entries) ∧
    (∀ i entries r, tr₂ = [(i, ⟨.upsertBatch entries, r⟩)] →
      c₂.shared.rows = c₁.shared.rows ∨ ∀ e ∈ entries, c₂.shared.rows.Holds e) ∧
    (∀ uri row row', c₁.shared.snapshot.lookup uri = some row ∨
        c₁.shared.snapshot.byURI.get? uri = some row →
      c₂.shared.snapshot.byURI.get? row.uri = some row' → row'.owner = row.owner) := by
  have ht₁ : ∀ e ∈ tr₁, fixedTenant tenants e.2 = true :=
    fun e he => ht e (List.mem_append_left _ he)
  have h₁ := PushRun.owned hrows hplaced hwire hr₁ ht₁
  have h₂ := PushRun.owned hrows hplaced hwire (hr₁.trans hr₂) ht
  have hkeep := PushRun.owned_from hrows hplaced hwire hr₁ hr₂ ht
  refine ⟨fun a ha b hb => h₁.sound.eq_of_uri ha hb, hkeep, fun a ha b hb hsame => ?_,
    fun i => ⟨PushRun.one_write hr₁ i, fun entries r hm => PushRun.writes_all hr₁ hm⟩,
    fun i entries r hone => ?_, fun uri row row' hissued hresolved => ?_⟩
  · obtain ⟨a', ha', howner⟩ := hkeep a ha
    obtain ⟨hid, huri, -⟩ := Prod.mk.inj howner |>.imp_right Prod.mk.inj
    have heq : b = a' := by
      rcases hsame with h | h
      · exact h₂.sound.eq_of_resourceID hb ha' (h.trans hid.symm)
      · exact h₂.sound.eq_of_uri hb ha' (h.trans huri.symm)
    rw [heq, howner]
  · have hstep := hr₂.step_of_singleton hone
    rcases (step_writes hstep).1 with hrows' | ⟨entries', hop, hrows'⟩
    · exact .inl hrows'
    · cases hop
      refine .inr (Rows.upsertAll_holds h₁.sound ?_ hrows').2
      have hg := (hr₁.trans hr₂).guarded (pushes_conduct s rows reqs)
        (show tr₁ ++ tr₂ = tr₁ ++ (i, ⟨.upsertBatch entries, r⟩) :: [] by rw [hone])
      exact CatalogService.Conduct.scoped hg
  · obtain ⟨served₁, hsnap₁, hserved₁⟩ := h₁.served
    obtain ⟨served₂, hsnap₂, hserved₂⟩ := h₂.served
    have hrow : row ∈ served₁ := by
      rw [hsnap₁] at hissued
      rcases hissued with h | h
      · exact CatalogService.mem_of_lookup h
      · exact (CatalogService.mem_of_byURI h).1
    rw [hsnap₂] at hresolved
    obtain ⟨hrow', huri'⟩ := CatalogService.mem_of_byURI hresolved
    obtain ⟨a, ha, hao⟩ := (hkeep.trans hserved₁) row hrow
    obtain ⟨b, hb, hbo⟩ := hserved₂ row' hrow'
    have hau : a.uri = row.uri := (Prod.mk.inj (Prod.mk.inj hao).2).1
    have hbu : b.uri = row'.uri := (Prod.mk.inj (Prod.mk.inj hbo).2).1
    have hab : a = b := h₂.sound.eq_of_uri ha hb (by rw [hau, hbu, huri'])
    rw [← hao, ← hbo, hab]

/-- The first push of `twoPushes` is done, and then the second one is. -/
theorem uri_owner_stable_two_pushes :
    ∃ tr₁ c₁ tr₂ c₂, PushRun (pushes verbatimService [] twoPushes) tr₁ c₁ ∧ PushRun c₁ tr₂ c₂ ∧
      c₁.shared.rows.length = 1 ∧ c₂.shared.rows.length = 2 ∧
      ∀ a ∈ c₁.shared.rows, ∃ b ∈ c₂.shared.rows, b.owner = a.owner := by
  have hrun : ∃ tr₁ c₁ tr₂ c₂, PushRun (pushes verbatimService [] twoPushes) tr₁ c₁ ∧
      PushRun c₁ tr₂ c₂ ∧ (∀ e ∈ tr₁ ++ tr₂, fixedTenant (fun _ => some "t") e.2 = true) ∧
      c₁.shared.rows.length = 1 ∧ c₂.shared.rows.length = 2 :=
    Pool.exists_run_run (List.replicate 6 ⟨false, answer "t"⟩) (List.replicate 6 ⟨true, answer "t"⟩)
      (by decide +kernel)
  obtain ⟨tr₁, c₁, tr₂, c₂, hr₁, hr₂, ht, hlen₁, hlen₂⟩ := hrun
  have hall := uri_owner_stable Rows.Sound.nil nofun (by
    rintro (_ | _) e he <;> cases List.mem_singleton.mp he <;>
      exact ⟨by decide +kernel, by decide +kernel⟩) hr₁ hr₂ ht
  exact ⟨tr₁, c₁, tr₂, c₂, hr₁, hr₂, hlen₁, hlen₂, hall.2.1⟩

end Ramp.Catalog
