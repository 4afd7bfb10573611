import Ramp.Broker.Relay
import Ramp.Program.Pool

/-! What a relayed batch sends and what it answers: nothing is sent before every group was
admitted, the groups are sent in their order, and each result stands under the offer it is
for. -/

namespace Ramp.Broker

open Ramp.Exchange (TransactionResultItem TransactionResponse)
open Prog

namespace Relay

def Op.sends : Op → Option TransactionRequest
  | .executeTransaction _ req => some req
  | _ => none

theorem Op.sends_eq_some {op : Op} {req : TransactionRequest} (h : op.sends = some req) :
    ∃ endpoint, op = .executeTransaction endpoint req := by
  cases op <;> cases h
  exact ⟨_, rfl⟩

def sent (h : History Op Res) : List TransactionRequest := h.filterMap fun e => e.op.sends

def Refuses : Event Op Res → Prop
  | ⟨.getByDomain domain, .found row⟩ =>
    ¬ ((row.exchange domain).admission = .live ∧
      (row.trustLevel = .verified ∨ row.trustLevel = .preferred))
  | ⟨.getByDomain _, _⟩ => True
  | ⟨.resolveEndpoint _, .resolved _⟩ => False
  | ⟨.resolveEndpoint _, _⟩ => True
  | _ => False

def Admitted (h : History Op Res) (domain endpoint : String) : Prop :=
  ∃ row raw, (⟨.getByDomain domain, .found row⟩ : Event Op Res) ∈ h ∧
    (row.exchange domain).admission = .live ∧
    (row.trustLevel = .verified ∨ row.trustLevel = .preferred) ∧
    (⟨.resolveEndpoint domain, .resolved raw⟩ : Event Op Res) ∈ h ∧
    endpoint = canonicalEndpoint raw

def Returned (h : History Op Res) (it : TransactionResultItem) : Prop :=
  ∃ endpoint sub resp, (⟨.executeTransaction endpoint sub, .ok resp⟩ : Event Op Res) ∈ h ∧
    it ∈ resp.items

structure Gate (h : History Op Res) : Prop where
  unsent : sent h = []
  unrefused : ∀ e ∈ h, ¬ Refuses e

variable {h h' : History Op Res} {domain endpoint : String} {it : TransactionResultItem}

theorem Admitted.mono (hle : h <+: h') (ha : Admitted h domain endpoint) :
    Admitted h' domain endpoint := by
  obtain ⟨row, raw, hrow, hlive, htrust, hraw, heq⟩ := ha
  exact ⟨row, raw, hle.subset hrow, hlive, htrust, hle.subset hraw, heq⟩

theorem Returned.mono (hle : h <+: h') (hr : Returned h it) : Returned h' it := by
  obtain ⟨endpoint, sub, resp, hm, hit⟩ := hr
  exact ⟨endpoint, sub, resp, hle.subset hm, hit⟩

@[simp] theorem sent_snoc (h : History Op Res) (e : Event Op Res) :
    sent (h ++ [e]) = sent h ++ e.op.sends.toList := by
  unfold sent
  cases he : e.op.sends with
  | none => simp [he]
  | some req => simp [he]

theorem Gate.snoc (hg : Gate h) {e : Event Op Res} (hs : e.op.sends = none) (hr : ¬ Refuses e) :
    Gate (h ++ [e]) where
  unsent := by simp [hg.unsent, hs]
  unrefused := List.forall_mem_append.mpr ⟨hg.unrefused, List.forall_mem_singleton.mpr hr⟩

end Relay

open Relay

def subRequests (txReq : TransactionRequest) : List TransactionRequest :=
  match Batch.groupItems 0 .empty txReq.items with
  | .ok g => g.order.map fun domain => { txReq with items := g.membersOf domain }
  | .error _ => []

def Relay.Guard (txReq : TransactionRequest) (h : History Op Res) : Op → Prop
  | .getByDomain _ => sent h = []
  | .resolveEndpoint _ => sent h = []
  | .executeTransaction endpoint sub =>
    (∀ e ∈ h, ¬ Refuses e) ∧
    (∀ item ∈ txReq.items, ∃ endpoint, Admitted h item.offer.exchange endpoint) ∧
    (subRequests txReq)[(sent h).length]? = some sub ∧
    ∃ domain, Admitted h domain endpoint ∧
      sub.items = txReq.items.filter fun item => item.offer.exchange = domain
  | _ => True

namespace Batch

variable {b : Batch} {txReq : TransactionRequest} {h : History Op Res}

variable {i : Nat} {done rest groups : List Group} {g : Grouping String TransactionItem}
  {ex : Exchange} {results : ResultByOffer} {body : String}

theorem groupItems_of {done rest : List TransactionItem} {g' : Grouping String TransactionItem}
    (hg : g.Of (fun item => item.offer.exchange) done) (h : groupItems i g rest = .ok g') :
    g'.Of (fun item => item.offer.exchange) (done ++ rest) := by
  induction rest generalizing i done g with
  | nil =>
    cases h
    simpa using hg
  | cons item rest ih =>
    unfold groupItems at h
    split_ifs at h
    have hh := ih (hg.snoc item) h
    simpa using hh

section

variable (hs : sent h = [])
include hs

theorem audit_throw_spec {α : Type} {outcome endpoint : String} {err : Option String} {e : Error}
    {Q : History Op Res → Except Error α → Prop} (hQ : ∀ h', sent h' = [] → Q h' (.error e)) :
    Spec recordCall (Guard txReq) Q
      (do Relay.ask (Op.audit outcome endpoint err); throw e : Svc α).run h := by
  refine .ask trivial fun r t ht => ?_
  cases ht
  exact .throw (hQ _ (by simp [hs, Op.sends]))

variable {domain : String}

theorem trustedExchange_spec :
    Spec recordCall (Guard txReq) (fun h' r => sent h' = [] ∧ ∃ ex, r = .ok ex ∧
      ∀ ex', ex = .ok ex' → ∃ row, ex' = row.exchange domain ∧
        h' = h ++ [⟨.getByDomain domain, .found row⟩]) (b.trustedExchange domain).run h := by
  refine .ask hs fun reply t ht => ?_
  cases ht
  have hsent : sent (h ++ [⟨.getByDomain domain, reply⟩]) = [] := by simp [hs, Op.sends]
  rcases reply with row | _ | text
  · exact .pure ⟨hsent, _, rfl, fun ex' hex => ⟨row, (Except.ok.inj hex).symm, rfl⟩⟩
  · exact .pure ⟨hsent, _, rfl, fun ex' hex => by cases hex⟩
  · exact .pure ⟨hsent, _, rfl, fun ex' hex => by cases hex⟩

theorem refuseAdmission_spec {admission : EndpointAdmission} {endpoint : String} :
    Spec recordCall (Guard txReq) (fun h' r => sent h' = [] ∧
      (r = .ok () → admission = .live ∧ h' = h)) (b.refuseAdmission admission endpoint).run h := by
  cases admission with
  | live => exact .pure ⟨hs, fun _ => ⟨rfl, rfl⟩⟩
  | down => exact audit_throw_spec hs fun h' hs' => ⟨hs', fun hr => by cases hr⟩
  | unregistered => exact audit_throw_spec hs fun h' hs' => ⟨hs', fun hr => by cases hr⟩

theorem resolveAdvertisedEndpoint_spec :
    Spec recordCall (Guard txReq) (fun h' r => sent h' = [] ∧ ∃ res, r = .ok res ∧
      ∀ endpoint, res = .ok endpoint → ∃ raw, endpoint = canonicalEndpoint raw ∧
        h' = h ++ [⟨.resolveEndpoint domain, .resolved raw⟩])
      (b.resolveAdvertisedEndpoint domain).run h := by
  refine .ask hs fun reply t ht => ?_
  cases ht
  have hsent : sent (h ++ [⟨.resolveEndpoint domain, reply⟩]) = [] := by simp [hs, Op.sends]
  rcases reply with raw | text | text
  · exact .pure ⟨hsent, _, rfl, fun endpoint hep => ⟨raw, (Except.ok.inj hep).symm, rfl⟩⟩
  · exact .pure ⟨hsent, _, rfl, fun endpoint hep => by cases hep⟩
  · exact .pure ⟨hsent, _, rfl, fun endpoint hep => by cases hep⟩

end

theorem admissionOf_live (h : admissionOf ex = .live) : ex.admission = .live := by
  unfold admissionOf at h
  split at h
  · assumption
  · cases h
  · cases h

theorem refuseUntrustedForExecute_none {quote : String → String}
    (h : refuseUntrustedForExecute quote ex = none) :
    ex.trustLevel = .verified ∨ ex.trustLevel = .preferred := by
  unfold refuseUntrustedForExecute at h
  split_ifs at h with htrust
  exact htrust

theorem resolveGroupEndpoint_spec {domain : String} (hg : Gate h) :
    Spec recordCall (Guard txReq) (fun h' r => sent h' = [] ∧
      ∀ endpoint, r = .ok endpoint → Gate h' ∧ Admitted h' domain endpoint)
      (b.resolveGroupEndpoint domain).run h := by
  have hfailed : ∀ (e : Error) (h' : History Op Res), sent h' = [] → sent h' = [] ∧
      ∀ endpoint, (.error e : Except Error String) = .ok endpoint →
        Gate h' ∧ Admitted h' domain endpoint := by
    intro e h' hs
    exact ⟨hs, fun endpoint hep => by cases hep⟩
  refine .seq (trustedExchange_spec hg.unsent) ?_ fun t res ht => ?_
  · rintro t e ⟨-, ex, hex, -⟩
    cases hex
  obtain ⟨hs, ex, hex, hrow⟩ := ht
  cases hex
  cases res with
  | error e => exact audit_throw_spec hs (hfailed e)
  | ok ex =>
    obtain ⟨row, rfl, rfl⟩ := hrow ex rfl
    refine .seq (refuseAdmission_spec hs) (fun t e ht => hfailed e t ht.1) fun t u ht => ?_
    obtain ⟨hlive, rfl⟩ := ht.2 rfl
    have hlive := admissionOf_live hlive
    split
    next e _ => exact audit_throw_spec hs (hfailed e)
    next htrust =>
    have htrust := refuseUntrustedForExecute_none htrust
    have hg₁ : Gate (h ++ [⟨.getByDomain domain, .found row⟩]) :=
      hg.snoc rfl fun hr => hr ⟨hlive, htrust⟩
    refine .seq (resolveAdvertisedEndpoint_spec hs) ?_ fun t res ht => ?_
    · rintro t e ⟨-, res, hres, -⟩
      cases hres
    obtain ⟨hs', res', hres, hraw⟩ := ht
    cases hres
    cases res with
    | error e => exact audit_throw_spec hs' (hfailed e)
    | ok endpoint =>
      obtain ⟨raw, rfl, rfl⟩ := hraw endpoint rfl
      refine .pure ⟨hs', fun endpoint hep => ?_⟩
      cases hep
      exact ⟨hg₁.snoc rfl id, row, raw, by simp, hlive, htrust, by simp, rfl⟩

theorem resolveDomains_spec {domains : List String} (hg : Gate h) :
    Spec recordCall (Guard txReq) (fun h' r => sent h' = [] ∧ ∀ groups, r = .ok groups →
      Gate h' ∧ groups.map Group.domain = domains ∧
      ∀ x ∈ groups, x.items = g.membersOf x.domain ∧ Admitted h' x.domain x.endpoint)
      (b.resolveDomains g domains).run h := by
  induction domains generalizing h with
  | nil =>
    refine .pure ⟨hg.unsent, fun groups hgroups => ?_⟩
    cases hgroups
    exact ⟨hg, rfl, fun x hx => by cases hx⟩
  | cons domain domains ih =>
    refine .seq (resolveGroupEndpoint_spec hg) ?_ fun t endpoint ht => ?_
    · exact fun t e ht => ⟨ht.1, fun groups hgroups => by cases hgroups⟩
    obtain ⟨hg₁, hadmitted⟩ := ht.2 endpoint rfl
    refine .seq (ih hg₁).grows ?_ fun t' groups ht' => ?_
    · exact fun t e ht => ⟨ht.1.1, fun groups hgroups => by cases hgroups⟩
    obtain ⟨⟨-, ht'⟩, hle⟩ := ht'
    obtain ⟨hg₂, hdomains, hgroups⟩ := ht' groups rfl
    refine .pure ⟨hg₂.unsent, fun all hall => ?_⟩
    cases hall
    refine ⟨hg₂, by simp [hdomains], fun x hx => ?_⟩
    rcases List.mem_cons.mp hx with rfl | hx
    · exact ⟨rfl, hadmitted.mono hle⟩
    · exact hgroups x hx

structure Grouped (txReq : TransactionRequest) (h : History Op Res) (groups : List Group) :
    Prop where
  requests : groups.map (subRequest txReq) = subRequests txReq
  nodup : (groups.map Group.domain).Nodup
  items : ∀ x ∈ groups, x.items = txReq.items.filter fun item => item.offer.exchange = x.domain
  covers : ∀ item ∈ txReq.items, item.offer.exchange ∈ groups.map Group.domain
  admitted : ∀ x ∈ groups, Admitted h x.domain x.endpoint

theorem Grouped.partition (hg : Grouped txReq h groups) :
    ((subRequests txReq).map TransactionRequest.items).flatten.Perm txReq.items := by
  have hitems : (subRequests txReq).map TransactionRequest.items =
      (groups.map Group.domain).map fun domain =>
        txReq.items.filter fun item => item.offer.exchange = domain := by
    rw [← hg.requests, List.map_map, List.map_map]
    exact List.map_congr_left fun x hx => hg.items x hx
  rw [hitems]
  exact Grouping.flatten_filter_perm hg.nodup hg.covers

theorem resolveGroups_spec (hg : Gate h) :
    Spec recordCall (Guard txReq) (fun h' r => sent h' = [] ∧ ∀ groups, r = .ok groups →
      Gate h' ∧ Grouped txReq h' groups) (b.resolveGroups txReq).run h := by
  unfold resolveGroups
  cases hgroup : groupItems 0 .empty txReq.items with
  | error e => exact .throw ⟨hg.unsent, fun groups hgroups => by cases hgroups⟩
  | ok g =>
    have hof := groupItems_of Grouping.Of.empty hgroup
    rw [List.nil_append] at hof
    refine (resolveDomains_spec hg).mono (fun _ _ hh => hh) fun t r ht => ?_
    refine ⟨ht.1, fun groups hgroups => ?_⟩
    obtain ⟨hg', hdomains, hx⟩ := ht.2 groups hgroups
    refine ⟨hg', ?_, hdomains ▸ hof.nodup, fun x hm => ?_, fun item hitem => ?_,
      fun x hm => (hx x hm).2⟩
    · unfold subRequests
      rw [hgroup]
      dsimp only
      rw [← hdomains, List.map_map]
      refine List.map_congr_left fun x hm => ?_
      simp [subRequest, (hx x hm).1]
    · rw [(hx x hm).1, hof.membersOf_eq]
    · rw [hdomains, hof.mem_order]
      exact List.mem_map_of_mem hitem

def Kept (h : History Op Res) (results : ResultByOffer) : Prop :=
  ∀ id it, results.get? id = some it →
    it.offerID = id ∧ (it = unavailableItem id ∨ Returned h it)

variable {h' : History Op Res}

theorem Kept.mono (hle : h <+: h') (hk : Kept h results) : Kept h' results := by
  intro id it hit
  obtain ⟨hid, hit⟩ := hk id it hit
  exact ⟨hid, hit.imp_right (Returned.mono hle)⟩

theorem Kept.denials (hk : Kept h results) (items : List TransactionItem) :
    Kept h (collectGroupDenials results items) := by
  intro id it hit
  refine Table.insertAll_forall hk (fun item _ => ?_) hit
  exact ⟨rfl, .inl rfl⟩

theorem Kept.items (hk : Kept h results) {items : List TransactionResultItem}
    (hitems : ∀ it ∈ items, Returned h it) : Kept h (collectItems results items) := by
  intro id it hit
  exact Table.insertAll_forall hk (fun it hm => ⟨rfl, .inr (hitems it hm)⟩) hit

theorem Grouped.mono (hle : h <+: h') (hg : Grouped txReq h groups) : Grouped txReq h' groups :=
  { hg with admitted := fun x hx => (hg.admitted x hx).mono hle }

section

variable (hg : Grouped txReq h groups) (hunrefused : ∀ e ∈ h, ¬ Refuses e)
include hg hunrefused

theorem Grouped.guard {g : Group} (hgroups : groups = done ++ g :: rest)
    (hsent : sent h = done.map (subRequest txReq)) :
    Guard txReq h (.executeTransaction g.endpoint (subRequest txReq g)) := by
  have hm : g ∈ groups := by simp [hgroups]
  refine ⟨hunrefused, fun item hitem => ?_, ?_, g.domain, hg.admitted g hm, hg.items g hm⟩
  · obtain ⟨x, hx, hdomain⟩ := List.mem_map.mp (hg.covers item hitem)
    exact ⟨x.endpoint, hdomain ▸ hg.admitted x hx⟩
  · rw [← hg.requests, hgroups, hsent]
    simp

theorem fanOutGroups_spec {agentHash : String} (hgroups : groups = done ++ rest)
    (hsent : sent h = done.map (subRequest txReq)) (hk : Kept h results) :
    Spec recordCall (Guard txReq) (fun h' r => ∃ x, r = .ok x ∧ Kept h' x.1 ∧
      (∀ e ∈ h', ¬ Refuses e) ∧ sent h' = subRequests txReq)
      (fanOutGroups txReq rest results agentHash).run h := by
  induction rest generalizing h done results agentHash with
  | nil =>
    refine .pure ⟨_, rfl, hk, hunrefused, ?_⟩
    rw [hsent, ← hg.requests, hgroups, List.append_nil]
  | cons g rest ih =>
    have hnext : groups = (done ++ [g]) ++ rest := by simp [hgroups]
    refine .ask (hg.guard hunrefused hgroups hsent) fun reply t ht => ?_
    cases ht
    have hsent' : sent (h ++ [⟨.executeTransaction g.endpoint (subRequest txReq g), reply⟩]) =
        (done ++ [g]).map (subRequest txReq) := by
      simp [hsent, Op.sends]
    have hunrefused' : ∀ e ∈ h ++ [⟨.executeTransaction g.endpoint (subRequest txReq g), reply⟩],
        ¬ Refuses e :=
      List.forall_mem_append.mpr ⟨hunrefused, List.forall_mem_singleton.mpr id⟩
    have hle := List.prefix_append h
      [⟨.executeTransaction g.endpoint (subRequest txReq g), reply⟩]
    cases reply with
    | error err =>
      refine .ask trivial fun u t ht => ?_
      cases ht
      have hle' := List.prefix_append (h ++ [⟨.executeTransaction g.endpoint
        (subRequest txReq g), .error err⟩])
        [⟨.audit "RELAY_UPSTREAM_ERROR" g.endpoint (some err), u⟩]
      refine ih (hg.mono (hle.trans hle')) ?_ hnext ?_ ((hk.mono (hle.trans hle')).denials g.items)
      · exact List.forall_mem_append.mpr ⟨hunrefused', List.forall_mem_singleton.mpr id⟩
      · rw [sent_snoc, hsent']
        simp [Op.sends]
    | ok resp =>
      refine ih (hg.mono hle) hunrefused' hnext hsent' ((hk.mono hle).items fun it hit => ?_)
      exact ⟨g.endpoint, subRequest txReq g, resp, by simp, hit⟩

end

theorem merged_items (hk : Kept h results) (items : List TransactionItem) :
    List.Forall₂ (fun item it => it.offerID = item.offer.offerID ∧
        (it = unavailableItem it.offerID ∨ Returned h it)) items (items.map fun it =>
        (results.get? it.offer.offerID).getD (unavailableItem it.offer.offerID)) := by
  rw [List.forall₂_map_right_iff, List.forall₂_same]
  intro item _
  cases hit : results.get? item.offer.offerID with
  | none => exact ⟨rfl, .inl rfl⟩
  | some it =>
    obtain ⟨hid, hit⟩ := hk _ _ hit
    exact ⟨hid, hid ▸ hit⟩

structure Relayed (txReq : TransactionRequest) (h : History Op Res) (resp : TransactionResponse) :
    Prop where
  distinct : (txReq.items.map fun item => item.offer.offerID).Nodup
  requests : sent h = subRequests txReq
  partition : ((sent h).map TransactionRequest.items).flatten.Perm txReq.items
  results : List.Forall₂ (fun item it => it.offerID = item.offer.offerID ∧
    (it = unavailableItem it.offerID ∨ Returned h it)) txReq.items resp.items

theorem duplicateOffer_none {seen : Table String Nat} {items : List TransactionItem}
    (h : duplicateOffer i seen items = none) :
    (∀ item ∈ items, seen.get? item.offer.offerID = none) ∧
      (items.map fun item => item.offer.offerID).Nodup := by
  induction items generalizing i seen with
  | nil => exact ⟨fun item hitem => (by cases hitem), List.nodup_nil⟩
  | cons item items ih =>
    unfold duplicateOffer at h
    split at h
    · cases h
    next hseen =>
    obtain ⟨hfresh, hnodup⟩ := ih h
    have hne : ∀ item' ∈ items, item'.offer.offerID ≠ item.offer.offerID := by
      intro item' hm heq
      have hh := hfresh item' hm
      simp [Table.get?_insert, heq] at hh
    refine ⟨fun item' hm => ?_, ?_⟩
    · rcases List.mem_cons.mp hm with rfl | hm
      · exact hseen
      · have hh := hfresh item' hm
        rwa [Table.get?_insert, if_neg (hne item' hm)] at hh
    · rw [List.map_cons, List.nodup_cons]
      refine ⟨fun hm => ?_, hnodup⟩
      obtain ⟨item', hm, heq⟩ := List.mem_map.mp hm
      exact hne item' hm heq

theorem verifyAndGuardReplay_spec (hg : Gate h) :
    Spec recordCall (Guard txReq) (fun h' r => sent h' = [] ∧ (r = .ok () → Gate h'))
      (verifyAndGuardReplay body).run h := by
  refine .ask trivial fun reply t ht => ?_
  cases ht
  have hg₁ := hg.snoc (e := ⟨.verifyAgentSignature body, reply⟩) rfl id
  cases reply with
  | error e => exact audit_throw_spec hg₁.unsent fun h' hs => ⟨hs, fun hr => by cases hr⟩
  | ok verified =>
    refine .ask trivial fun reply t ht => ?_
    cases ht
    have hg₂ := hg₁.snoc (e := ⟨.seenOrAdd verified.keyID verified.signature, reply⟩) rfl id
    rcases reply with e | _ | _
    · exact .throw ⟨hg₂.unsent, fun hr => by cases hr⟩
    · exact .pure ⟨hg₂.unsent, fun _ => hg₂⟩
    · exact audit_throw_spec hg₂.unsent fun h' hs => ⟨hs, fun hr => by cases hr⟩

theorem fanOut_spec (hg : Gate h) (hgroups : Grouped txReq h groups)
    (hdistinct : (txReq.items.map fun item => item.offer.offerID).Nodup) :
    Spec recordCall (Guard txReq) (fun h' r => ∃ resp, r = .ok resp ∧ Relayed txReq h' resp)
      (b.fanOut txReq groups).run h := by
  have hempty : Kept h ∅ := fun id it hit => by cases hit
  have hnil : groups = [] ++ groups := rfl
  refine .seq (fanOutGroups_spec hgroups hg.unrefused hnil hg.unsent hempty) ?_ fun t x ht => ?_
  · rintro t e ⟨x, hx, -⟩
    cases hx
  obtain ⟨x', hx, hk, -, hsent⟩ := ht
  cases hx
  have hrelayed : ∀ total, Relayed txReq t
      { b.mergeResults txReq.items x.1 x.2 with totalCost := total } :=
    fun total => ⟨hdistinct, hsent, hsent ▸ hgroups.partition, merged_items hk txReq.items⟩
  dsimp only
  split
  next total _ => exact .pure ⟨_, rfl, hrelayed total⟩
  next => exact .pure ⟨_, rfl, hrelayed none⟩

theorem Relayed.mono {resp : TransactionResponse} (hr : Relayed txReq h resp)
    (hle : h <+: h') (hsent : sent h' = sent h) : Relayed txReq h' resp where
  distinct := hr.distinct
  requests := hsent.trans hr.requests
  partition := hsent ▸ hr.partition
  results := hr.results.imp fun _ _ hit => ⟨hit.1, hit.2.imp_right (Returned.mono hle)⟩

theorem serveBatch_spec (hbody : b.unmarshal body = .ok txReq) :
    Spec recordCall (Guard txReq) (fun h' r => (∀ e, r = .error e → sent h' = []) ∧
      ∀ resp, r = .ok resp → Relayed txReq h' resp) (b.serveBatch body).run [] := by
  have hfailed : ∀ (e : Error) (h' : History Op Res), sent h' = [] →
      (∀ e', (.error e : Except Error TransactionResponse) = .error e' → sent h' = []) ∧
      ∀ resp, (.error e : Except Error TransactionResponse) = .ok resp → Relayed txReq h' resp := by
    intro e h' hs
    exact ⟨fun _ _ => hs, fun resp hresp => by cases hresp⟩
  have hg : Gate ([] : History Op Res) := ⟨rfl, fun e he => by cases he⟩
  unfold serveBatch
  rw [hbody]
  dsimp only
  split_ifs
  · exact .throw (hfailed _ _ rfl)
  split
  · exact .throw (hfailed _ _ rfl)
  next hduplicate =>
  have hdistinct := (duplicateOffer_none hduplicate).2
  refine .seq (verifyAndGuardReplay_spec hg) (fun t e ht => hfailed e t ht.1) fun t u ht => ?_
  have hg₁ := ht.2 rfl
  refine .seq (resolveGroups_spec hg₁) (fun t e ht => hfailed e t ht.1) fun t groups ht => ?_
  obtain ⟨hg₂, hgroups⟩ := ht.2 groups rfl
  refine .seq (fanOut_spec hg₂ hgroups hdistinct) ?_ fun t resp ht => ?_
  · rintro t e ⟨resp, hresp, -⟩
    cases hresp
  obtain ⟨resp', hresp, hrelayed⟩ := ht
  cases hresp
  refine .ask trivial fun u t' ht' => ?_
  cases ht'
  refine .pure ⟨fun e he => (by cases he), fun resp' hresp' => ?_⟩
  cases hresp'
  exact hrelayed.mono (List.prefix_append _ _) (by simp [Op.sends])

end Batch

end Ramp.Broker
