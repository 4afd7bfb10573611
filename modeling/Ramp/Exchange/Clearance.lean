import Ramp.Exchange.Batch

/-! What resolving the requester and clearing an item establish, whatever state
the calls are followed in. -/

namespace Ramp.Exchange

open Prog

variable {Blob σ : Type}

structure Resolved (s : Service Blob) (req : TransactionRequest)
    (found : String → Agent → Prop) (agent : ResolvedAgent) : Prop where
  id : s.fromDirectory req.requester.id = .ok agent.id
  key : agent.key = {} ∨
    ∃ a, found agent.id a ∧ agent.key = { pub := a.publicKey, discoveryURL := a.discoveryURL }

theorem Resolved.mono {s : Service Blob} {req : TransactionRequest}
    {found found' : String → Agent → Prop} {agent : ResolvedAgent}
    (h : Resolved s req found agent) (hle : ∀ id a, found id a → found' id a) :
    Resolved s req found' agent :=
  ⟨h.id, h.key.imp_right fun ⟨a, ha, hk⟩ => ⟨a, hle _ a ha, hk⟩⟩

def Op.Directory : Op Blob → Prop
  | .agentByID _ | .registerFromDirectory _ _ => True
  | _ => False

def Op.Catalog : Op Blob → Prop
  | .catalogByURI _ | .tenantByID _ | .now => True
  | _ => False

namespace Service

variable (s : Service Blob)

variable {key : AgentKey} {bytes : Bytes} {binding : AgentBinding} {item : TransactionItem}
  {items : List TransactionItem} {e : Error} {req : TransactionRequest}

theorem agentBindingForKey_ok (h : s.agentBindingForKey key bytes = .ok binding) :
    s.thumbprintBytes key.pub = .ok binding.digest ∧
      binding.thumbprint = s.rawURLEncoding binding.digest := by
  unfold agentBindingForKey at h
  split at h
  · simp at h
  next digest hd =>
    cases h
    exact ⟨hd, rfl⟩

theorem agentBindingForKey_error (h : s.agentBindingForKey key bytes = .error e) :
    isIdempotentReplay e = false := by
  unfold agentBindingForKey at h
  split at h
  · cases h
    rfl
  · simp at h

theorem verifier_ok {pub : Bytes} (h : key.verifier = .ok pub) :
    pub = key.pub ∧ key.pub.length = ed25519PublicKeySize := by
  unfold AgentKey.verifier at h
  split_ifs at h with hlen
  exact ⟨(Except.ok.inj h).symm, not_not.mp hlen⟩

theorem verifier_error (h : key.verifier = .error e) : isIdempotentReplay e = false := by
  unfold AgentKey.verifier at h
  split_ifs at h
  cases h
  rfl

theorem verifyAgentAcceptance_error (h : s.verifyAgentAcceptance req key = .error e) :
    isIdempotentReplay e = false := by
  rcases Except.bind_eq_error.mp h with hv | ⟨pub, -, h⟩
  · exact verifier_error hv
  · split at h
    · cases h
      rfl
    · split at h
      · cases h
        rfl
      · cases h
        rfl
      · split at h
        · cases h
          rfl
        · exact s.agentBindingForKey_error h

theorem verifyAgentAcceptance_ok
    (h : s.verifyAgentAcceptance (itemRequest req item) key = .ok binding) :
    key.pub.length = ed25519PublicKeySize ∧
      s.verifyOfferAcceptance item.offer req.requester req.idempotencyKey
        item.acceptanceSignature key.pub = .ok ∧ s.thumbprintBytes key.pub = .ok binding.digest ∧
      binding.thumbprint = s.rawURLEncoding binding.digest := by
  obtain ⟨pub, hv, h⟩ := Except.bind_eq_ok.mp h
  obtain ⟨rfl, hlen⟩ := verifier_ok hv
  simp only [itemRequest] at h
  split at h
  · simp at h
  · simp at h
  next hacc =>
    split at h
    · simp at h
    · exact ⟨hlen, hacc, s.agentBindingForKey_ok h⟩

theorem verifyRequestAcceptance_ok {acceptance : RequestAcceptance} {canonical : Bytes}
    (h : s.verifyRequestAcceptance req acceptance key = .ok (binding, canonical)) :
    key.pub.length = ed25519PublicKeySize ∧
      s.verifyRequestAcceptanceProjection req acceptance s.exchange key.pub = .ok canonical ∧
      s.thumbprintBytes key.pub = .ok binding.digest ∧
      binding.thumbprint = s.rawURLEncoding binding.digest := by
  obtain ⟨pub, hv, h⟩ := Except.bind_eq_ok.mp h
  obtain ⟨rfl, hlen⟩ := verifier_ok hv
  split at h
  · simp at h
  next hcan =>
    obtain ⟨binding', hb, h⟩ := Except.bind_eq_ok.mp h
    cases h
    exact ⟨hlen, hcan, s.agentBindingForKey_ok hb⟩

theorem proveRequesterPossession_none (h : s.proveRequesterPossession req key items = none)
    (hm : item ∈ items) : ¬ ∃ b, s.verifyAgentAcceptance (itemRequest req item) key = .ok b := by
  induction items with
  | nil => exact absurd hm (by simp)
  | cons it items ih =>
    simp only [proveRequesterPossession] at h
    split at h
    · simp at h
    next hv =>
      rcases List.mem_cons.mp hm with rfl | hm
      · rintro ⟨b, hb⟩
        rw [hv] at hb
        exact absurd hb (by simp)
      · exact ih h hm

theorem proveRequesterPossession_some
    (h : s.proveRequesterPossession req key items = some binding) :
    ∃ item ∈ items, s.verifyAgentAcceptance (itemRequest req item) key = .ok binding := by
  induction items with
  | nil => simp [proveRequesterPossession] at h
  | cons it items ih =>
    simp only [proveRequesterPossession] at h
    split at h
    next hv =>
      cases h
      exact ⟨it, List.mem_cons_self, hv⟩
    · obtain ⟨item, hm, hv⟩ := ih h
      exact ⟨item, List.mem_cons_of_mem _ hm, hv⟩

variable {step : (op : Op Blob) → σ → Res op → Option σ} {G : σ → Op Blob → Prop} {I : σ → Prop}
  {t : σ}

theorem resolveAgentLazily_spec {found : σ → String → Agent → Prop}
    (hp : Passes step G I Op.Directory)
    (hfound : ∀ t id a t', step (.agentByID id) t (.found a) = some t' → found t' id a)
    (host : String) (ht : I t) : Spec step G (fun t' r => I t' ∧ ∀ a, r = .ok a → found t' host a)
      (s.resolveAgentLazily host).run t := by
  have herr : ∀ {t : σ} {e : Error}, I t →
      I t ∧ ∀ a, (.error e : Except Error Agent) = .ok a → found t host a :=
    fun ht => ⟨ht, by simp⟩
  refine hp.ask (by trivial) ht fun r t₁ ht₁ hstep => ?_
  rcases r with a | _ | e | e
  · exact .pure ⟨ht₁, fun a' h => Except.ok.inj h ▸ hfound _ _ _ _ hstep⟩
  · by_cases hreg : s.hasAgentReg = true
    · simp only [hreg, if_true]
      refine hp.ask (by trivial) ht₁ fun r t₂ ht₂ _ => ?_
      rcases r with _ | _ | e
      · refine hp.ask (by trivial) ht₂ fun r t₃ ht₃ hstep => ?_
        rcases r with a | _ | e | e
        · exact .pure ⟨ht₃, fun a' h => Except.ok.inj h ▸ hfound _ _ _ _ hstep⟩
        · exact .throw (herr ht₃)
        · exact .throw (herr ht₃)
        · exact .throw (herr ht₃)
      · exact .throw (herr ht₂)
      · exact .throw (herr ht₂)
    · simp only [hreg]
      exact .throw (herr ht₁)
  · exact .throw (herr ht₁)
  · exact .throw (herr ht₁)

theorem resolveAgent_spec (found : σ → String → Agent → Prop) (hp : Passes step G I Op.Directory)
    (hfound : ∀ t id a t', step (.agentByID id) t (.found a) = some t' → found t' id a)
    (req : TransactionRequest) (ht : I t) :
    Spec step G (fun t' r => I t' ∧ ∀ agent, r = .ok agent → Resolved s req (found t') agent)
      (s.resolveAgent req).run t := by
  refine .orThrow (fun e _ => ⟨ht, by simp⟩) fun id hid => ?_
  by_cases hreg : s.hasAgents = true
  · simp only [hreg, if_true]
    refine .seq (s.resolveAgentLazily_spec hp hfound id ht) (fun t e h => ⟨h.1, by simp⟩) ?_
    rintro t' a ⟨ht', ha⟩
    refine .pure ⟨ht', fun agent h => ?_⟩
    cases h
    exact ⟨hid, Or.inr ⟨a, ha a rfl, rfl⟩⟩
  · simp only [hreg]
    refine .pure ⟨ht, fun agent h => ?_⟩
    cases h
    exact ⟨hid, Or.inl rfl⟩

def NotReplay {α : Type} (r : Except Error α) : Prop :=
  ∀ e, r = .error e → isIdempotentReplay e = false

variable {α : Type} {tenant : Tenant} {ctx : RequestContext} {agent : ResolvedAgent}

theorem NotReplay.ok {a : α} : NotReplay (.ok a) := by simp [NotReplay]

theorem NotReplay.error (h : isIdempotentReplay e = false) :
    NotReplay (.error e : Except Error α) :=
  fun _ he => Except.error.inj he ▸ h

theorem verifyPresentedOffer_spec (hp : Passes step G I Op.Catalog) (offer : Offer) (ht : I t) :
    Spec step G (fun t' r => I t' ∧ NotReplay r) (s.verifyPresentedOffer offer).run t := by
  refine hp.ask (by trivial) ht fun now t₁ ht₁ _ => ?_
  split
  · cases s.canonicalOfferBytes offer with
    | ok bytes => exact .pure ⟨ht₁, .ok⟩
    | error e => exact .throw ⟨ht₁, .error rfl⟩
  · exact .throw ⟨ht₁, .error rfl⟩
  · exact .throw ⟨ht₁, .error rfl⟩
  · exact .throw ⟨ht₁, .error rfl⟩

theorem resolveOfferForTx_spec (hp : Passes step G I Op.Catalog) (offer : Offer) (ht : I t) :
    Spec step G (fun t' r => I t' ∧ NotReplay r ∧
        ∀ resolved, r = .ok resolved → s.pricingDocFromPricing offer.pricing = .ok resolved.pricing)
      (s.resolveOfferForTx offer).run t := by
  refine .seq (s.verifyPresentedOffer_spec hp offer ht) (fun t e h => ⟨h.1, .error (h.2 e rfl),
    nofun⟩) ?_
  rintro t₁ canonical ⟨ht₁, -⟩
  refine hp.ask (by trivial) ht₁ fun r t₂ ht₂ _ => ?_
  rcases r with _ | entry
  · exact .throw ⟨ht₂, .error rfl, nofun⟩
  · refine .orThrow (fun e _ => ⟨ht₂, .error rfl, nofun⟩) fun pricing hpricing => ?_
    refine .pure ⟨ht₂, .ok, fun resolved h => ?_⟩
    cases h
    exact hpricing

theorem authorizeTransportRelay_error {chain : TransportChain}
    (h : s.authorizeTransportRelay chain tenant = .error e) : isIdempotentReplay e = false := by
  unfold authorizeTransportRelay at h
  split_ifs at h
  cases h
  rfl

theorem authorizeExecute_error (h : s.authorizeExecute ctx req agent tenant = .error e) :
    isIdempotentReplay e = false := by
  rcases Except.bind_eq_error.mp h with h | ⟨_, -, h⟩
  · exact s.authorizeTransportRelay_error h
  · exact s.verifyAgentAcceptance_error h

theorem authorizeExecute_ok (h : s.authorizeExecute ctx req agent tenant = .ok binding) :
    s.verifyAgentAcceptance req agent.key = .ok binding := by
  obtain ⟨_, -, h⟩ := Except.bind_eq_ok.mp h
  exact h

structure ClearedInput (req : TransactionRequest) (item : TransactionItem)
    (agent : ResolvedAgent) (input : BatchItemBilling) : Prop where
  verified : s.verifyAgentAcceptance (itemRequest req item) agent.key = .ok input.binding
  derivedKey : input.derivedKey = derivedItemKey req.idempotencyKey item.offer.offerID
  pricing : s.pricingDocFromPricing item.offer.pricing = .ok input.resolved.pricing
  item : input.item = item

theorem denyIfReportingOverdue_spec (hq : Passes step G I Op.Quiet) (tenant : Tenant)
    (agentID : String) (ht : I t) : Spec step G (fun t' r => I t' ∧ NotReplay r)
      (denyIfReportingOverdue tenant agentID : Svc Blob Unit).run t := by
  refine hq.ask (by trivial) ht fun now t₁ ht₁ _ => hq.ask (by trivial) ht₁ fun r t₂ ht₂ _ => ?_
  cases r with
  | error e => exact .throw ⟨ht₂, NotReplay.error rfl⟩
  | ok counts =>
    simp only
    split
    · exact .throw ⟨ht₂, NotReplay.error rfl⟩
    · exact .pure ⟨ht₂, NotReplay.ok⟩

theorem clearBatchItem_spec (hp : Passes step G I Op.Catalog) (ctx : RequestContext)
    (req : TransactionRequest) (item : TransactionItem) (agent : ResolvedAgent)
    (correlation : RequestCorrelation)
    (hq : (∃ b, s.verifyAgentAcceptance (itemRequest req item) agent.key = .ok b) →
      Passes step G I Op.Quiet) (ht : I t) : Spec step G (fun t' r => I t' ∧ NotReplay r ∧
        ∀ input, r = .ok input → s.ClearedInput req item agent input)
      (s.clearBatchItem ctx req item agent correlation).run t := by
  have herr : ∀ {t : σ} {e : Error}, I t → isIdempotentReplay e = false →
      I t ∧ NotReplay (.error e : Except Error BatchItemBilling) ∧
        ∀ input, (.error e : Except Error BatchItemBilling) = .ok input →
          s.ClearedInput req item agent input :=
    fun ht he => ⟨ht, NotReplay.error he, by simp⟩
  refine .seq (s.resolveOfferForTx_spec hp item.offer ht)
    (fun t e h => herr h.1 (h.2.1 e rfl)) ?_
  rintro t₁ resolved ⟨ht₁, -, hresolved⟩
  refine hp.ask (by trivial) ht₁ fun r t₂ ht₂ _ => ?_
  rcases r with e | tenant
  · exact .throw (herr ht₂ rfl)
  · dsimp only
    cases hb : s.authorizeExecute ctx (itemRequest req item) agent tenant with
    | error e => exact .throw (herr ht₂ (s.authorizeExecute_error hb))
    | ok binding =>
      have hv := s.authorizeExecute_ok hb
      have hquiet := hq ⟨binding, hv⟩
      refine .seq (denyIfReportingOverdue_spec hquiet tenant agent.id ht₂)
        (fun t e h => herr h.1 (h.2 e rfl)) ?_
      rintro t₃ _ ⟨ht₃, -⟩
      refine hquiet.ask (by trivial) ht₃ fun r t₄ ht₄ _ => ?_
      cases r with
      | error e => exact .throw (herr ht₄ rfl)
      | ok override =>
        refine .pure ⟨ht₄, NotReplay.ok, fun input h => ?_⟩
        cases h
        exact ⟨hv, rfl, hresolved resolved rfl, rfl⟩

end Service

end Ramp.Exchange
