import Ramp.Broker.Discovery
import Ramp.Program.Pool

/-! Which exchange a URL is routed to, and where the candidates of its group come from.
A publisher's manifest names exchanges in order; the URL goes to the first that is
registered, live and advertises an endpoint. -/

namespace Ramp.Broker.Discovery

open Prog

def Usable (h : History Op Res) (domain : String) (ex : Exchange) : Prop :=
  ∃ row endpoint, (⟨.getByDomain domain, .found row⟩ : Event Op Res) ∈ h ∧
    (row.exchange domain).admission = .live ∧
    (⟨.resolveEndpoint domain, .resolved endpoint⟩ : Event Op Res) ∈ h ∧
    ex = { row.exchange domain with endpoint }

def Declined (h : History Op Res) (domain : String) : Prop :=
  (∃ reply, (⟨.getByDomain domain, reply⟩ : Event Op Res) ∈ h ∧
    ∀ row, reply = .found row → (row.exchange domain).admission ≠ .live) ∨
  ∃ reply, (⟨.resolveEndpoint domain, reply⟩ : Event Op Res) ∈ h ∧
    ∀ endpoint, reply ≠ .resolved endpoint

variable {h h' : History Op Res} {domain : String}

section

variable {ex : Exchange}

theorem Usable.domain_eq (hu : Usable h domain ex) : ex.domain = domain := by
  obtain ⟨row, endpoint, -, -, -, rfl⟩ := hu
  rfl

theorem Usable.mono (hle : h <+: h') (hu : Usable h domain ex) : Usable h' domain ex := by
  obtain ⟨row, endpoint, hrow, hlive, hresolved, heq⟩ := hu
  exact ⟨row, endpoint, hle.subset hrow, hlive, hle.subset hresolved, heq⟩

theorem Declined.mono (hle : h <+: h') (hd : Declined h domain) : Declined h' domain := by
  rcases hd with ⟨reply, hm, hreply⟩ | ⟨reply, hm, hreply⟩
  · exact .inl ⟨reply, hle.subset hm, hreply⟩
  · exact .inr ⟨reply, hle.subset hm, hreply⟩

end

structure RouteScan.Sound (scan : RouteScan) (h : History Op Res) : Prop where
  usable : ∀ domain ex, scan.seen.get? domain = some (some ex) → Usable h domain ex
  declined : ∀ domain, scan.seen.get? domain = some none → Declined h domain

def RouteScan.Extends (scan scan' : RouteScan) : Prop :=
  ∀ domain found, scan.seen.get? domain = some found → scan'.seen.get? domain = some found

variable {found : Option Exchange} {down : Bool} {scan : RouteScan}

namespace RouteScan

variable {scan' : RouteScan}

theorem Sound.mono (hle : h <+: h') (hs : scan.Sound h) : scan.Sound h' where
  usable domain ex hseen := (hs.usable domain ex hseen).mono hle
  declined domain hseen := (hs.declined domain hseen).mono hle

theorem Sound.insert (hs : scan.Sound h) (husable : ∀ ex, found = some ex → Usable h domain ex)
    (hdeclined : found = none → Declined h domain) :
    Sound ⟨scan.seen.insert domain found, down⟩ h where
  usable domain' ex hseen := by
    rw [Table.get?_insert] at hseen
    split_ifs at hseen with heq
    · exact heq ▸ husable ex (Option.some.inj hseen)
    · exact hs.usable domain' ex hseen
  declined domain' hseen := by
    rw [Table.get?_insert] at hseen
    split_ifs at hseen with heq
    · exact heq ▸ hdeclined (Option.some.inj hseen)
    · exact hs.declined domain' hseen

theorem Extends.refl (scan : RouteScan) : scan.Extends scan := fun _ _ hseen => hseen

theorem Extends.trans {scan'' : RouteScan} (h : scan.Extends scan') (h' : scan'.Extends scan'') :
    scan.Extends scan'' := fun domain found hseen => h' domain found (h domain found hseen)

theorem Extends.insert (hnew : scan.seen.get? domain = none) :
    scan.Extends ⟨scan.seen.insert domain found, down⟩ := by
  intro domain' found' hseen
  rw [Table.get?_insert]
  split_ifs with heq
  · rw [heq, hnew] at hseen
    cases hseen
  · exact hseen

end RouteScan

structure Looked (scan : RouteScan) (domain : String) (h : History Op Res)
    (found : Option Exchange) (scan' : RouteScan) : Prop where
  sound : scan'.Sound h
  extends_ : scan.Extends scan'
  hit : ∀ ex, found = some ex → ex.domain = domain ∧ scan'.seen.get? domain = some (some ex)
  miss : found = none → domain = "" ∨ Declined h domain

variable {r : Resolver}

namespace Resolver

section

variable (hs : scan.Sound h)
include hs

theorem looked_new (hnew : scan.seen.get? domain = none)
    (husable : ∀ ex, found = some ex → Usable h domain ex)
    (hdeclined : found = none → Declined h domain) :
    Looked scan domain h found ⟨scan.seen.insert domain found, down⟩ where
  sound := hs.insert husable hdeclined
  extends_ := .insert hnew
  hit ex hex := by
    refine ⟨(husable ex hex).domain_eq, ?_⟩
    rw [Table.get?_insert, if_pos rfl, hex]
  miss hnone := .inr (hdeclined hnone)

theorem looked_memo (hseen : scan.seen.get? domain = some found) :
    Looked scan domain h (found.filter fun ex => ex.domain ≠ "") scan := by
  refine ⟨hs, .refl scan, fun ex hex => ?_, fun hnone => ?_⟩
  · obtain ⟨rfl, -⟩ := Option.filter_eq_some_iff.mp hex
    exact ⟨(hs.usable domain ex hseen).domain_eq, hseen⟩
  · cases found with
    | none => exact .inr (hs.declined domain hseen)
    | some ex =>
      have hempty : ex.domain = "" := by simpa [Option.filter] using hnone
      exact .inl ((hs.usable domain ex hseen).domain_eq ▸ hempty)

theorem registeredHealthy_yields (domain : String) :
    Yields recordCall (fun _ _ => True) (fun h' x => Looked scan domain h' x.1 x.2)
      (registeredHealthy domain scan) h := by
  unfold registeredHealthy
  split
  next found hseen => exact Yields.pure (looked_memo hs hseen)
  next hnew =>
  refine Spec.ask trivial fun reply t ht => ?_
  cases ht
  have hs₁ := hs.mono (List.prefix_append h [⟨.getByDomain domain, reply⟩])
  have hmem : (⟨.getByDomain domain, reply⟩ : Event Op Res) ∈
      h ++ [⟨.getByDomain domain, reply⟩] := by simp
  have hnone : ∀ ex, (none : Option Exchange) = some ex →
      Usable (h ++ [⟨.getByDomain domain, reply⟩]) domain ex := fun ex hex => by cases hex
  rcases reply with row | _ | text
  · dsimp only
    split
    next hblocked =>
      refine Yields.pure (looked_new hs₁ hnew hnone fun _ => .inl ⟨_, hmem, fun row' hrow => ?_⟩)
      obtain rfl := FindReply.found.inj hrow
      rw [hblocked]
      decide
    next hdown =>
      refine Yields.pure (looked_new hs₁ hnew hnone fun _ => .inl ⟨_, hmem, fun row' hrow => ?_⟩)
      obtain rfl := FindReply.found.inj hrow
      rw [hdown]
      decide
    next hlive =>
      refine Spec.ask trivial fun reply t ht => ?_
      cases ht
      have hs₂ := hs₁.mono (List.prefix_append _ [⟨.resolveEndpoint domain, reply⟩])
      have hmem' : (⟨.resolveEndpoint domain, reply⟩ : Event Op Res) ∈
          h ++ [⟨.getByDomain domain, .found row⟩] ++ [⟨.resolveEndpoint domain, reply⟩] := by simp
      have hfailed : (∀ endpoint, reply ≠ .resolved endpoint) → Yields recordCall (fun _ _ => True)
          (fun h' x => Looked scan domain h' x.1 x.2)
          (pure (none, ⟨scan.seen.insert domain none, true⟩) : Svc (Option Exchange × RouteScan))
          (h ++ [⟨.getByDomain domain, .found row⟩] ++ [⟨.resolveEndpoint domain, reply⟩]) := by
        intro hreply
        refine Yields.pure (looked_new hs₂ hnew ?_ fun _ => .inr ⟨_, hmem', hreply⟩)
        exact fun ex hex => by cases hex
      rcases reply with endpoint | text | text
      · refine Yields.pure (looked_new hs₂ hnew (fun ex hex => ?_) fun hnone => by cases hnone)
        cases hex
        exact ⟨row, endpoint, by simp, hlive, by simp, rfl⟩
      · exact hfailed fun endpoint hreply => by cases hreply
      · exact hfailed fun endpoint hreply => by cases hreply
  · exact Yields.pure (looked_new hs₁ hnew hnone fun _ =>
      .inl ⟨_, hmem, fun row' hrow => by cases hrow⟩)
  · exact Yields.pure (looked_new hs₁ hnew hnone fun _ =>
      .inl ⟨_, hmem, fun row' hrow => by cases hrow⟩)

end

def FirstOf (named : List String) (h : History Op Res) (ex : Exchange) : Prop :=
  ∃ pre post, named = pre ++ ex.domain :: post ∧ (∀ d ∈ pre, d = "" ∨ Declined h d) ∧
    Usable h ex.domain ex

theorem FirstOf.mono {named : List String} {ex : Exchange} (hle : h <+: h')
    (hf : FirstOf named h ex) : FirstOf named h' ex := by
  obtain ⟨pre, post, hnamed, hpre, husable⟩ := hf
  exact ⟨pre, post, hnamed, fun d hd => (hpre d hd).imp_right (Declined.mono hle),
    husable.mono hle⟩

structure Found (scan : RouteScan) (first : Exchange → History Op Res → Prop)
    (h : History Op Res) (found : Option Exchange) (scan' : RouteScan) : Prop where
  sound : scan'.Sound h
  extends_ : scan.Extends scan'
  hit : ∀ ex, found = some ex → first ex h ∧ scan'.seen.get? ex.domain = some (some ex)

theorem firstHealthy_yields (hs : scan.Sound h) (named : List String) :
    Yields recordCall (fun _ _ => True)
      (fun h' x => Found scan (fun ex h => FirstOf named h ex) h' x.1 x.2)
      (firstHealthy named scan) h := by
  induction named generalizing h scan with
  | nil => exact .pure ⟨hs, .refl scan, fun ex hex => by cases hex⟩
  | cons domain named ih =>
    refine .seq (registeredHealthy_yields hs domain) fun t x hx => ?_
    obtain ⟨found, scan₁⟩ := x
    cases found with
    | some ex =>
      obtain ⟨hdomain, hseen⟩ := hx.hit ex rfl
      subst hdomain
      refine .pure ⟨hx.sound, hx.extends_, fun ex' hex => ?_⟩
      cases hex
      exact ⟨⟨[], named, rfl, fun d hd => (by cases hd), hx.sound.usable _ _ hseen⟩, hseen⟩
    | none =>
      have hmiss := hx.miss rfl
      refine .mono (ih hx.sound).grows fun t' y hy => ?_
      refine ⟨hy.1.sound, hx.extends_.trans hy.1.extends_, fun ex hex => ?_⟩
      obtain ⟨⟨pre, post, hnamed, hpre, husable⟩, hseen⟩ := hy.1.hit ex hex
      refine ⟨⟨domain :: pre, post, by rw [hnamed]; rfl, fun d hd => ?_, husable⟩, hseen⟩
      rcases List.mem_cons.mp hd with rfl | hd
      · exact hmiss.imp_right (Declined.mono hy.2)
      · exact hpre d hd

end Resolver

def RoutedTo (r : Resolver) (manifests : Table String Manifest) (h : History Op Res)
    (uri : String) (ex : Exchange) : Prop :=
  ∃ domain manifest, r.domainOf uri = .ok domain ∧ manifests.get? domain = some manifest ∧
    Resolver.FirstOf manifest.exchanges h ex

structure RoutePlan.Sound (r : Resolver) (manifests : Table String Manifest) (p : RoutePlan)
    (scan : RouteScan) (h : History Op Res) : Prop where
  seen : scan.Sound h
  registered : ∀ d ex, p.exchanges.get? d = some ex →
    ex.domain = d ∧ scan.seen.get? d = some (some ex)
  unknown : ∀ d, p.exchanges.get? d = none → (p.exchangeURLs.get? d).getD [] = []
  routed : ∀ d ex uri, p.exchanges.get? d = some ex → uri ∈ (p.exchangeURLs.get? d).getD [] →
    RoutedTo r manifests h uri ex

variable {uri : String} {p : RoutePlan} {manifests : Table String Manifest}

theorem RoutedTo.mono {ex : Exchange} (hle : h <+: h') (hr : RoutedTo r manifests h uri ex) :
    RoutedTo r manifests h' uri ex := by
  obtain ⟨domain, manifest, hdomain, hmanifest, hfirst⟩ := hr
  exact ⟨domain, manifest, hdomain, hmanifest, hfirst.mono hle⟩

theorem RoutePlan.Sound.mono {scan' : RouteScan} (hp : p.Sound r manifests scan h) (hle : h <+: h')
    (hs : scan'.Sound h') (hext : scan.Extends scan') : p.Sound r manifests scan' h' where
  seen := hs
  registered d ex hex := (hp.registered d ex hex).imp_right (hext d _)
  unknown := hp.unknown
  routed d ex uri hex huri := (hp.routed d ex uri hex huri).mono hle

theorem RoutePlan.Sound.routeURLTo {ex : Exchange} (hp : p.Sound r manifests scan h)
    (hrouted : RoutedTo r manifests h uri ex) (hseen : scan.seen.get? ex.domain = some (some ex)) :
    (p.routeURLTo uri ex).Sound r manifests scan h := by
  have hexchanges : ∀ d ex', (p.routeURLTo uri ex).exchanges.get? d = some ex' →
      (d = ex.domain ∧ ex' = ex) ∨ (d ≠ ex.domain ∧ p.exchanges.get? d = some ex') := by
    intro d ex' hex
    unfold RoutePlan.routeURLTo at hex
    dsimp only at hex
    by_cases hd : d = ex.domain
    · subst hd
      refine .inl ⟨rfl, ?_⟩
      split_ifs at hex with hfresh
      · rw [Table.get?_insert, if_pos rfl] at hex
        exact (Option.some.inj hex).symm
      · exact Option.some.inj (Option.some.inj ((hp.registered _ _ hex).2.symm.trans hseen))
    · refine .inr ⟨hd, ?_⟩
      split_ifs at hex with hfresh
      · rwa [Table.get?_insert, if_neg hd] at hex
      · exact hex
  refine ⟨hp.seen, fun d ex' hex => ?_, fun d hnone => ?_, fun d ex' uri' hex huri => ?_⟩
  · rcases hexchanges d ex' hex with ⟨rfl, rfl⟩ | ⟨-, hex⟩
    · exact ⟨rfl, hseen⟩
    · exact hp.registered d ex' hex
  · unfold RoutePlan.routeURLTo at hnone ⊢
    dsimp only at hnone ⊢
    rw [Table.get?_insert]
    split_ifs with hd
    · subst hd
      split_ifs at hnone with hfresh
      · rw [Table.get?_insert, if_pos rfl] at hnone
        cases hnone
      · rw [hnone] at hfresh
        exact absurd rfl hfresh
    · refine hp.unknown d ?_
      split_ifs at hnone
      · rwa [Table.get?_insert, if_neg hd] at hnone
      · exact hnone
  · unfold RoutePlan.routeURLTo at huri
    rw [Table.get?_insert] at huri
    rcases hexchanges d ex' hex with ⟨rfl, rfl⟩ | ⟨hd, hex⟩
    · rw [if_pos rfl, Option.getD_some] at huri
      rcases List.mem_append.mp huri with huri | huri
      · cases hold : p.exchanges.get? ex'.domain with
        | none =>
          rw [hp.unknown _ hold] at huri
          cases huri
        | some old =>
          have heq := (hp.registered _ _ hold).2.symm.trans hseen
          obtain rfl := Option.some.inj (Option.some.inj heq)
          exact hp.routed _ _ uri' hold huri
      · obtain rfl := List.mem_singleton.mp huri
        exact hrouted
    · rw [if_neg hd] at huri
      exact hp.routed d ex' uri' hex huri

namespace Resolver

theorem exchangeForURL_yields (hs : scan.Sound h) (uri : String) :
    Yields recordCall (fun _ _ => True)
      (fun h' x => Found scan (fun ex h => RoutedTo r manifests h uri ex) h' x.1 x.2)
      (r.exchangeForURL uri manifests scan) h := by
  have hnone : Found scan (fun ex h => RoutedTo r manifests h uri ex) h none scan :=
    ⟨hs, .refl scan, fun ex hex => by cases hex⟩
  unfold exchangeForURL
  split
  · exact .pure hnone
  next domain hdomain =>
  split
  · exact .pure hnone
  next manifest hmanifest =>
  refine .mono (firstHealthy_yields hs manifest.exchanges) fun t x hx => ?_
  refine ⟨hx.sound, hx.extends_, fun ex hex => ?_⟩
  obtain ⟨hfirst, hseen⟩ := hx.hit ex hex
  exact ⟨⟨domain, manifest, hdomain, hmanifest, hfirst⟩, hseen⟩

theorem routeURLs_yields (hp : p.Sound r manifests scan h) (uris : List String) :
    Yields recordCall (fun _ _ => True) (fun h' x => x.1.Sound r manifests x.2 h' ∧
      x.1.urlOrder = p.urlOrder ++ uris) (r.routeURLs manifests uris p scan) h := by
  induction uris generalizing h p scan with
  | nil => exact .pure ⟨hp, by simp⟩
  | cons uri uris ih =>
    refine .seq (exchangeForURL_yields hp.seen uri).grows fun t x hx => ?_
    obtain ⟨found, scan₁⟩ := x
    obtain ⟨hx, hle⟩ := hx
    have hp₁ : ({ p with urlOrder := p.urlOrder ++ [uri] } : RoutePlan).Sound r manifests scan₁ t :=
      have hp' := hp.mono hle hx.sound hx.extends_
      ⟨hp'.seen, hp'.registered, hp'.unknown, hp'.routed⟩
    cases found with
    | none => exact .mono (ih hp₁) fun t' y hy => ⟨hy.1, by simp [hy.2]⟩
    | some ex =>
      obtain ⟨hrouted, hseen⟩ := hx.hit ex rfl
      refine .mono (ih (hp₁.routeURLTo hrouted hseen)) fun t' y hy => ⟨hy.1, ?_⟩
      rw [hy.2]
      simp [RoutePlan.routeURLTo]

theorem buildRoutePlan_yields (uris : List String) :
    Yields recordCall (fun _ _ => True) (fun h' x => x.1.Sound r manifests x.2 h' ∧
      x.1.urlOrder = uris) (r.buildRoutePlan uris manifests) h := by
  have hempty : ({} : RoutePlan).Sound r manifests {} h := by
    refine ⟨⟨?_, ?_⟩, ?_, ?_, ?_⟩
    · exact fun domain ex hseen => by cases hseen
    · exact fun domain hseen => by cases hseen
    · exact fun d ex hex => by cases hex
    · exact fun d _ => rfl
    · exact fun d ex uri hex _ => by cases hex
  exact routeURLs_yields hempty uris

end Resolver

end Ramp.Broker.Discovery
