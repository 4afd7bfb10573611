import Ramp.Broker.Routing
import Ramp.Program.Schedule

/-! Where the candidates of a discovery by route come from. As long as the exchanges answer
about the URLs they were asked for, the group of a URL holds only offers of the exchange
that the URL is routed to. -/

namespace Ramp.Broker.Discovery

open Prog

def Offered (r : Resolver) (req : Request) (p : RoutePlan) (h : History Op Res) (uri : String)
    (c : Candidate) : Prop :=
  ∃ d ex sig groups, p.exchanges.get? d = some ex ∧ c.exchange = exchangeRefOf ex ∧
    (⟨.discoverResources ex.endpoint
      (r.buildResourceQuery req ex.domain ((p.exchangeURLs.get? d).getD [])) sig, .ok groups⟩ :
        Event Op Res) ∈ h ∧
    ∃ group ∈ groups, group.uri = uri ∧ c.offer ∈ group.offers

def Gathered (r : Resolver) (req : Request) (p : RoutePlan) (h : History Op Res)
    (byURL : Table String OfferGroup) : Prop :=
  ∀ uri g, byURL.get? uri = some g →
    g.uri = uri ∧ g.offers = [] ∧ ∀ c ∈ g.cands, Offered r req p h uri c

variable {r : Resolver} {req : Request} {p : RoutePlan} {h : History Op Res}
  {byURL : Table String OfferGroup}

section

variable {h' : History Op Res}

theorem Offered.mono {uri : String} {c : Candidate} (hle : h <+: h')
    (ho : Offered r req p h uri c) : Offered r req p h' uri c := by
  obtain ⟨d, ex, sig, groups, hex, href, hm, hgroup⟩ := ho
  exact ⟨d, ex, sig, groups, hex, href, hle.subset hm, hgroup⟩

theorem Gathered.mono (hle : h <+: h') (hg : Gathered r req p h byURL) :
    Gathered r req p h' byURL := by
  intro uri g hget
  obtain ⟨huri, hoffers, hcands⟩ := hg uri g hget
  exact ⟨huri, hoffers, fun c hc => (hcands c hc).mono hle⟩

theorem verifiedOffers_subset {offers : List Offer} {reasons : List (Option String)} :
    verifiedOffers offers reasons ⊆ offers := by
  intro offer hm
  obtain ⟨x, hx, rfl⟩ := List.mem_map.mp hm
  exact (List.of_mem_zip (List.mem_filter.mp hx).1).1

theorem Gathered.collect (hg : Gathered r req p h byURL) {ref : ExchangeRef} {group : ReturnedGroup}
    {verified : List Offer} (hnew : ∀ offer ∈ verified, Offered r req p h group.uri ⟨offer, ref⟩) :
    Gathered r req p h (byURL.insert group.uri
      (Resolver.collectGroup ((byURL.get? group.uri).getD {}) ref group verified)) := by
  intro uri g hget
  rw [Table.get?_insert] at hget
  split_ifs at hget with huri
  · subst huri
    cases hget
    have hold : ((byURL.get? group.uri).getD {}).offers = [] ∧
        ∀ c ∈ ((byURL.get? group.uri).getD {}).cands, Offered r req p h group.uri c := by
      cases hacc : byURL.get? group.uri with
      | none => exact ⟨rfl, fun c hc => by cases hc⟩
      | some acc => exact (hg group.uri acc hacc).2
    refine ⟨rfl, hold.1, fun c hc => ?_⟩
    rcases List.mem_append.mp hc with hc | hc
    · exact hold.2 c hc
    · obtain ⟨offer, hoffer, rfl⟩ := List.mem_map.mp hc
      exact hnew offer hoffer
  · exact hg uri g hget

end

namespace Resolver

theorem queryExchange_yields (ex : Exchange) (uris : List String) :
    Yields recordCall (fun _ _ => True) (fun h' out => ∀ groups, out = .answered groups →
      ∃ sig, (⟨.discoverResources ex.endpoint (r.buildResourceQuery req ex.domain uris) sig,
        .ok groups⟩ : Event Op Res) ∈ h') (r.queryExchange req ex uris) h := by
  unfold queryExchange
  by_cases hbare : r.isBareDomain ex.domain = true
  swap
  · rw [if_pos hbare]
    exact Yields.pure fun groups hout => by cases hout
  rw [if_neg (not_not.mpr hbare)]
  refine Spec.ask trivial fun reply t ht => ?_
  cases reply with
  | error e => exact Yields.pure fun groups hout => by cases hout
  | ok sig =>
    refine Spec.ask trivial fun reply t ht => ?_
    cases ht
    cases reply with
    | error e => exact Yields.pure fun groups hout => by cases hout
    | ok groups =>
      refine Yields.pure fun groups' hout => ?_
      obtain rfl := QueryOutcome.answered.inj hout
      exact ⟨sig, by simp⟩

theorem collectGroups_yields {d : String} {ex : Exchange} {sig : String}
    {all groups : List ReturnedGroup} {flags : DiscoverFlags} (hex : p.exchanges.get? d = some ex)
    (hm : (⟨.discoverResources ex.endpoint
      (r.buildResourceQuery req ex.domain ((p.exchangeURLs.get? d).getD [])) sig, .ok all⟩ :
        Event Op Res) ∈ h) (hsub : groups ⊆ all) (hg : Gathered r req p h byURL) :
    Yields recordCall (fun _ _ => True) (fun h' x => Gathered r req p h' x.1)
      (collectGroups (exchangeRefOf ex) groups byURL flags) h := by
  induction groups generalizing h byURL flags with
  | nil => exact .pure hg
  | cons group groups ih =>
    refine .ask trivial fun reasons t ht => ?_
    cases ht
    have hle := List.prefix_append h [⟨.sort group.offers, reasons⟩]
    refine ih (hle.subset hm) (fun g hmem => hsub (List.mem_cons_of_mem _ hmem)) ?_
    refine (hg.mono hle).collect fun offer hoffer => ?_
    exact ⟨d, ex, sig, all, hex, rfl, hle.subset hm, group, hsub List.mem_cons_self, rfl,
      verifiedOffers_subset hoffer⟩

theorem dispatch_yields {domains : List String} {acc : Collected}
    (hg : Gathered r req p h acc.byURL) :
    Yields recordCall (fun _ _ => True) (fun h' acc' => Gathered r req p h' acc'.byURL)
      (r.dispatch req p domains acc) h := by
  induction domains generalizing h acc with
  | nil => exact .pure hg
  | cons d domains ih =>
    unfold dispatch
    split
    · exact ih hg
    next ex hex =>
    refine .seq (queryExchange_yields ex _).grows fun t out hout => ?_
    obtain ⟨hanswered, hle⟩ := hout
    cases out with
    | signFailed e => exact .throw
    | failed e => exact ih (hg.mono hle)
    | answered groups =>
      obtain ⟨sig, hm⟩ := hanswered groups rfl
      refine .seq (collectGroups_yields hex hm (fun g hmem => hmem) (hg.mono hle))
        fun t' x hx => ?_
      exact ih hx

theorem finalize_uri (g : OfferGroup) : (r.finalize g).uri = g.uri := by
  unfold finalize
  split_ifs <;> rfl

theorem finalize_offers {g : OfferGroup} (hg : g.offers = []) {c : Candidate}
    (hc : c ∈ (r.finalize g).offers) : c ∈ g.cands := by
  unfold finalize at hc
  split_ifs at hc
  · rw [hg] at hc
    cases hc
  · exact r.mem_rank_dedup hc

section

variable (hg : Gathered r req p h byURL)
include hg

theorem assemble_offered {g : OfferGroup} (hm : g ∈ r.assemble p byURL) {c : Candidate}
    (hc : c ∈ g.offers) : Offered r req p h g.uri c := by
  obtain ⟨uri, -, rfl⟩ := List.mem_map.mp hm
  cases hget : byURL.get? uri with
  | none =>
    rw [hget] at hc
    cases hc
  | some g =>
    rw [hget] at hc
    obtain ⟨huri, hoffers, hcands⟩ := hg uri g hget
    rw [finalize_uri, huri]
    exact hcands c (finalize_offers hoffers hc)

theorem assemble_uris : (r.assemble p byURL).map OfferGroup.uri = p.urlOrder := by
  unfold assemble
  rw [List.map_map]
  refine (List.map_congr_left fun uri _ => ?_).trans (List.map_id _)
  dsimp only [Function.comp_apply]
  cases hget : byURL.get? uri with
  | none => rfl
  | some g => exact (finalize_uri g).trans (hg uri g hget).1

end

theorem discoverByRoute_yields (req : Request) (uris : List String)
    (manifests : Table String Manifest) :
    Yields recordCall (fun _ _ => True) (fun h' x => x.1.map OfferGroup.uri = uris ∧
      ∃ p scan, RoutePlan.Sound r manifests p scan h' ∧
        ∀ g ∈ x.1, ∀ c ∈ g.offers, Offered r req p h' g.uri c)
      (r.discoverByRoute req uris manifests) [] := by
  refine .seq (buildRoutePlan_yields uris) fun t x hx => ?_
  obtain ⟨p, scan⟩ := x
  obtain ⟨hp, horder⟩ := hx
  have hempty : Gathered r req p t ∅ := fun uri g hget => by cases hget
  refine .seq (dispatch_yields hempty).grows fun t' acc hacc => ?_
  obtain ⟨hg, hle⟩ := hacc
  refine .pure ⟨(assemble_uris hg).trans horder, p, scan, ?_, fun g hm c hc => ?_⟩
  · exact hp.mono hle (hp.seen.mono hle) (.refl scan)
  · exact assemble_offered hg hm hc

end Resolver

def AnswersQueried : Event Op Res → Prop
  | ⟨.discoverResources _ query _, .ok groups⟩ => ∀ group ∈ groups, group.uri ∈ query.uris
  | _ => True

instance : DecidablePred AnswersQueried
  | ⟨.discoverResources _ _ _, .ok _⟩ => inferInstanceAs (Decidable (∀ _ ∈ _, _))
  | ⟨.discoverResources _ _ _, .error _⟩ | ⟨.search _, _⟩ | ⟨.probe _, _⟩ | ⟨.getByDomain _, _⟩
  | ⟨.resolveEndpoint _, _⟩ | ⟨.signForward _, _⟩ | ⟨.sort _, _⟩ | ⟨.budgetCheck _ _, _⟩
  | ⟨.budgetRecord _ _, _⟩ | ⟨.recordSelection _, _⟩ => .isTrue trivial

def ReturnedBy (h : History Op Res) (ex : Exchange) (uri : String) (offer : Offer) : Prop :=
  ∃ query sig groups,
    (⟨.discoverResources ex.endpoint query sig, .ok groups⟩ : Event Op Res) ∈ h ∧
    query.exchange = ex.domain ∧ uri ∈ query.uris ∧
    ∃ group ∈ groups, group.uri = uri ∧ offer ∈ group.offers

section

variable {ι : Type} [DecidableEq ι] {rs : ι → Resolver} {reqs : ι → Request}
  {uris : ι → List String} {manifests : ι → Table String Manifest}
  {c : Pool Op Res Unit ι (Except Error (List OfferGroup × DiscoverFlags))} {tr : Trace Op Res ι}
  {i : ι}

def discoveries (rs : ι → Resolver) (reqs : ι → Request) (uris : ι → List String)
    (manifests : ι → Table String Manifest) :
    Pool Op Res Unit ι (Except Error (List OfferGroup × DiscoverFlags)) :=
  ⟨(), fun i => ((rs i).discoverByRoute (reqs i) (uris i) (manifests i)).run⟩

abbrev DiscoveryRun (rs : ι → Resolver) (reqs : ι → Request) (uris : ι → List String)
    (manifests : ι → Table String Manifest) (tr : Trace Op Res ι)
    (c : Pool Op Res Unit ι (Except Error (List OfferGroup × DiscoverFlags))) : Prop :=
  Run (fun _ s _ => some s) (fun _ _ => False) (discoveries rs reqs uris manifests) tr c

omit [DecidableEq ι] in
theorem discoveries_spec (i : ι) :
    Spec recordCall (fun _ _ => True) (fun h r => ∀ x, r = .ok x → ∃ p scan,
      RoutePlan.Sound (rs i) (manifests i) p scan h ∧
        ∀ g ∈ x.1, ∀ c ∈ g.offers, Offered (rs i) (reqs i) p h g.uri c)
      ((discoveries rs reqs uris manifests).threads i) [] :=
  Yields.mono (Resolver.discoverByRoute_yields (reqs i) (uris i) (manifests i)) fun _ _ hx => hx.2

/-- If the exchanges answer about the URLs they were asked for, every candidate in the group
of a URL was returned by the exchange that the URL is routed to. -/
theorem candidates_from_routed_exchange (hr : DiscoveryRun rs reqs uris manifests tr c)
    (hanswers : ∀ e ∈ tr.own i, AnswersQueried e) {groups : List OfferGroup}
    {flags : DiscoverFlags} (hret : c.threads i = .ret (.ok (groups, flags))) :
    ∀ g ∈ groups, ∀ cand ∈ g.offers, ∃ ex,
      RoutedTo (rs i) (manifests i) (tr.own i) g.uri ex ∧ cand.exchange = exchangeRefOf ex ∧
      ReturnedBy (tr.own i) ex g.uri cand.offer := by
  obtain ⟨p, scan, hp, hoffered⟩ := hr.returned discoveries_spec hret (groups, flags) rfl
  intro g hg cand hcand
  obtain ⟨d, ex, sig, returned, hex, href, hm, group, hgroup, huri, hoffer⟩ :=
    hoffered g hg cand hcand
  have hasked : g.uri ∈ (p.exchangeURLs.get? d).getD [] := huri ▸ hanswers _ hm group hgroup
  exact ⟨ex, hp.routed d ex g.uri hex hasked, href, _, sig, returned, hm, rfl, hasked, group,
    hgroup, huri, hoffer⟩

end

def plainResolver : Resolver where
  parseMoney s := if s = "3" then .ok 3 else .error "not a decimal"
  domainOf uri := if uri = "https://a.example/1" then .ok "a.example"
    else if uri = "https://b.example/2" then .ok "b.example"
    else .error "exa: empty host"
  isBareDomain _ := true
  quote s := "\"" ++ s ++ "\""
  protocolVersion := "1.0"
  iterate _ l := l
  iterate_perm _ l := List.Perm.refl l

def plainManifests : Table String Manifest :=
  ((∅ : Table String Manifest).insert "a.example" ⟨["x.example"]⟩).insert "b.example"
    ⟨["y.example"]⟩

def pageOffer (id : String) : Offer := ⟨id, some ⟨"3", none, 1⟩, none⟩

/-- Every exchange is registered and live and every offer verifies; `discover` answers for
the exchanges. -/
def discoveryAnswer (discover : String → ResourceQuery → Except String (List ReturnedGroup)) :
    (op : Op) → Unit → Res op
  | .search _, _ => .ok []
  | .probe domain, _ => match plainManifests.get? domain with
    | some manifest => .found manifest
    | none => .missing
  | .getByDomain domain, _ => .found ⟨"https://" ++ domain, .verified, true, 0⟩
  | .resolveEndpoint domain, _ => .resolved ("https://" ++ domain)
  | .signForward _, _ => .ok "sig"
  | .discoverResources endpoint query _, _ => discover endpoint query
  | .sort offers, _ => offers.map fun _ => none
  | .budgetCheck _ limit, _ => .ok ⟨true, limit, limit, 0⟩
  | .budgetRecord _ _, _ => .recorded
  | .recordSelection _, _ => .ok ()

def twoPages : Request :=
  { agentID := "agent.example", uris := ["https://a.example/1", "https://b.example/2"] }

def honestExchanges (endpoint : String) (query : ResourceQuery) :
    Except String (List ReturnedGroup) :=
  .ok (query.uris.map fun uri => ⟨uri, [pageOffer ("offer of " ++ endpoint)], .unspecified⟩)

def xRef : ExchangeRef := ⟨"x.example", "https://x.example", .verified, 0⟩

def yRef : ExchangeRef := ⟨"y.example", "https://y.example", .verified, 0⟩

theorem candidates_from_routed_exchange_two_pages :
    ∃ tr c groups flags, DiscoveryRun (fun _ : Unit => plainResolver) (fun _ => twoPages)
        (fun _ => twoPages.uris) (fun _ => plainManifests) tr c ∧
      c.threads () = .ret (.ok (groups, flags)) ∧
      groups.map (fun g => g.offers.map Candidate.exchange) = [[xRef], [yRef]] ∧
      ∀ g ∈ groups, ∀ cand ∈ g.offers, ∃ ex,
        RoutedTo plainResolver plainManifests (tr.own ()) g.uri ex ∧
        cand.exchange = exchangeRefOf ex ∧ ReturnedBy (tr.own ()) ex g.uri cand.offer := by
  have hrun : ∃ tr c, DiscoveryRun (fun _ : Unit => plainResolver) (fun _ => twoPages)
        (fun _ => twoPages.uris) (fun _ => plainManifests) tr c ∧
      (c.threads ()).ok?.map (fun x => x.1.map fun g => g.offers.map Candidate.exchange) =
        some [[xRef], [yRef]] ∧ ∀ e ∈ tr.own (), AnswersQueried e :=
    Pool.exists_run (List.replicate 10 ⟨(), discoveryAnswer honestExchanges⟩) (by decide +kernel)
  obtain ⟨tr, c, hr, hok, hanswers⟩ := hrun
  obtain ⟨⟨groups, flags⟩, hok, hrefs⟩ := Option.map_eq_some_iff.mp hok
  have hret := ok?_eq_some.mp hok
  exact ⟨tr, c, groups, flags, hr, hret, hrefs, candidates_from_routed_exchange hr hanswers hret⟩

/-- The first exchange also offers the page of the other publisher, and the second exchange
cannot be reached. -/
def greedyExchange (endpoint : String) (_ : ResourceQuery) : Except String (List ReturnedGroup) :=
  if endpoint = "https://y.example" then .error "connection refused"
  else .ok [⟨"https://a.example/1", [pageOffer "mine"], .unspecified⟩,
    ⟨"https://b.example/2", [pageOffer "also mine"], .unspecified⟩]

/-- The page is routed to one exchange, and its group holds an offer of the other. -/
theorem candidate_from_other_exchange :
    ∃ tr c, DiscoveryRun (fun _ : Unit => plainResolver) (fun _ => twoPages)
        (fun _ => twoPages.uris) (fun _ => plainManifests) tr c ∧
      plainManifests.get? "b.example" = some ⟨["y.example"]⟩ ∧
      (c.threads ()).ok?.bind (fun x => x.1[1]?) = some
        { uri := "https://b.example/2", offers := [⟨pageOffer "also mine", xRef⟩] } :=
  Pool.exists_run (List.replicate 10 ⟨(), discoveryAnswer greedyExchange⟩) (by decide +kernel)

end Ramp.Broker.Discovery
