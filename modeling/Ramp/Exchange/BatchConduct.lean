import Ramp.Exchange.BatchTrail

/-! Every path of `executeBatch` keeps the guard of its trail, and what it
answers is accounted for. -/

namespace Ramp.Exchange

open Prog

variable {Blob : Type}

def Op.Aside : Op Blob → Prop
  | .authorize _ | .record _ _ _ | .release _ _ | .byIdempotencyKey _ | .catalogByURI _
  | .tenantByID _ => True
  | op => op.Quiet

theorem Op.Quiet.aside {op : Op Blob} (h : op.Quiet) : op.Aside := by
  cases op <;> first | exact h | exact h.elim

structure BatchTrail.Beside (t t' : BatchTrail Blob) : Prop where
  le : t.Le t'
  writes : t'.writes = t.writes

theorem BatchTrail.Beside.refl (t : BatchTrail Blob) : t.Beside t := ⟨Le.refl t, rfl⟩

variable {resp : TransactionResponse} {agentID : String}

namespace Service

variable (s : Service Blob) (req : TransactionRequest)

abbrev BatchSpec {α : Type} (Q : BatchTrail Blob → Except Error α → Prop) (x : Svc Blob α)
    (t : BatchTrail Blob) : Prop :=
  Spec (tracked BatchTrail.track) (BatchTrail.LoopGuard s req) Q x.run t

theorem batch_ignoresQuiet :
    IgnoresQuiet (@BatchTrail.track Blob) (BatchTrail.LoopGuard s req) where
  ignores op l r h := by cases op <;> first | rfl | exact h.elim
  allows l op h := by cases op <;> trivial

theorem batch_passes_quiet (t : BatchTrail Blob) :
    Passes (tracked BatchTrail.track) (BatchTrail.LoopGuard s req) (· = t) Op.Quiet where
  allows l op _ hop := (s.batch_ignoresQuiet req).allows l op hop
  keeps op l r l' hop hl hr := by
    cases hr
    rw [(s.batch_ignoresQuiet req).ignores op l r hop, hl]

theorem batch_passes_catalog (t : BatchTrail Blob) :
    Passes (tracked BatchTrail.track) (BatchTrail.LoopGuard s req) (· = t) Op.Catalog where
  allows l op _ hop := by cases op <;> trivial
  keeps op l r l' hop hl hr := by
    cases hr
    rw [← hl]
    cases op <;> first | rfl | exact hop.elim

theorem batch_passes_aside (t : BatchTrail Blob) :
    Passes (tracked BatchTrail.track) (BatchTrail.LoopGuard s req) t.Beside Op.Aside where
  allows l op _ hop := by cases op <;> trivial
  keeps op l r l' hop hl hr := by
    refine ⟨BatchTrail.le_of_tracked hl.le hr, ?_⟩
    cases hr
    rw [← hl.writes]
    cases op
    case byIdempotencyKey => rcases r with row | _ | e <;> rfl
    all_goals first | rfl | exact hop.elim

theorem batch_aside {α : Type} {x : Svc Blob α} (hx : Only Op.Aside x.run) (t : BatchTrail Blob) :
    s.BatchSpec req (fun t' _ => t.Beside t') x t :=
  hx.spec_of_passes (s.batch_passes_aside req t) (BatchTrail.Beside.refl t)

variable {t : BatchTrail Blob}

section

variable {req} {t₀ : BatchTrail Blob}

abbrev Lets (t₀ t : BatchTrail Blob) (x : Except Error Unit) : Prop := t₀.Beside t ∧ x = .ok ()

theorem releaseHold_batch (id key : String) (ht : t₀.Beside t) :
    s.BatchSpec req (Lets t₀) (releaseHold id key) t := by
  unfold releaseHold
  split
  · exact .pure ⟨ht, rfl⟩
  · exact (s.batch_passes_aside req t₀).ask (by trivial) ht fun r t' ht' _ => .pure ⟨ht', rfl⟩

theorem releaseDuplicateLossHold_batch (id key : String) (ht : t₀.Beside t) :
    s.BatchSpec req (Lets t₀) (releaseDuplicateLossHold id key) t := by
  unfold releaseDuplicateLossHold
  split
  · exact .pure ⟨ht, rfl⟩
  · refine (s.batch_passes_aside req t₀).ask (by trivial) ht fun r t' ht' _ => ?_
    rcases r with row | _ | e
    · dsimp only
      split
      · exact .pure ⟨ht', rfl⟩
      · exact s.releaseHold_batch id key ht'
    · exact .pure ⟨ht', rfl⟩
    · exact .pure ⟨ht', rfl⟩

theorem abandonHold_batch (e : Error) (id key : String) (ht : t₀.Beside t) :
    s.BatchSpec req (Lets t₀) (abandonHold e id key) t := by
  unfold abandonHold
  split
  · exact s.releaseDuplicateLossHold_batch id key ht
  · exact s.releaseHold_batch id key ht

end

theorem authorizeBilling_aside (r : BillingResolution) :
    Only Op.Aside (s.authorizeBilling r).run := by
  unfold authorizeBilling
  dsimp only
  split
  · exact .throw
  · refine .ask trivial fun reply => ?_
    rcases reply with res | ⟨e, applied⟩
    · dsimp only
      split
      · exact .pure
      · exact .throw
    · exact .throw

theorem resolveBilling_aside (r : BillingResolution) : Only Op.Aside (s.resolveBilling r).run := by
  unfold resolveBilling
  split
  · exact .throw
  · exact .seq ((checkAccountActive_quiet _).mono fun _ => Op.Quiet.aside)
      fun _ => s.authorizeBilling_aside r

variable {agent : ResolvedAgent}

section

variable {req} {item : TransactionItem}

variable {p : PersistInput Blob} {r : TransactionResultItem} {free : Bool}
  {input : BatchItemBilling}

section

variable (hbuy : MayBuy s req t agent item) (hin : s.ClearedInput req item agent p.input)
  (hpay : s.marshalItem r = .ok p.resultPayload) (hoffer : r.offerID = item.offer.offerID)
  (hgrant : r.denialReason = none) (hdel : r.deliveryMethod = .instructions)
include hbuy hin hpay hoffer hgrant hdel

theorem persistTransaction_batch :
    s.BatchSpec req (fun t' x => match x with
      | .ok _ => ∃ intent, t' = { t with writes := intent :: t.writes } ∧
          Purchase s req agent item r intent
      | .error e => t' = t ∨ e.kind = .internal) (s.persistTransaction p) t := by
  refine .seq (s.buildPersistIntent_spec (s.batch_ignoresQuiet req) p t)
    (fun t' e h => .inl h.1) ?_
  rintro t' ⟨intent, evidence⟩ ⟨rfl, hi⟩
  have hpurchase : Purchase s req agent item r intent :=
    { idempotencyKey := hi.idempotencyKey.trans hin.derivedKey
      offerID := by rw [hi.offerID, hin.item]
      result := by rw [hi.resultPayload, hpay]
      resultOffer := hoffer
      granted := hgrant
      delivered := hdel
      identity := by
        rw [hi.agentIdentityHash]
        exact (s.verifyAgentAcceptance_ok hin.verified).2.2.1
      keyed := (s.verifyAgentAcceptance_ok hin.verified).1 }
  refine .tell ⟨agent, item, r, hbuy, hpurchase⟩ fun reply => ?_
  rcases reply with row | ⟨e, applied⟩
  · exact .pure ⟨intent, rfl, hpurchase⟩
  · refine .throw ?_
    simp only [BatchTrail.track, PersistReply.wrote, classifyTxWriteError]
    by_cases hv : e.isIdempotencyViolation = true
    · exact .inl (by simp [hv])
    · exact .inr (by simp [hv, wrap])

theorem commitItem_batch :
    s.BatchSpec req (fun t' x => ItemDone s req t t' agent item x) (s.commitItem p free r) t := by
  refine .attempt (s.persistTransaction_batch hbuy hin hpay hoffer hgrant hdel) ?_
  rintro t₁ (e | row) h
  · refine .seq (s.abandonHold_batch e _ _ (BatchTrail.Beside.refl t₁))
      (fun _ _ hb => absurd hb.2 (by simp)) fun t₂ _ hb => .throw ?_
    rcases h with rfl | he
    · exact .inl hb.1.writes
    · exact .inr he
  · obtain ⟨intent, rfl, hp⟩ := h
    cases free with
    | true => exact .pure ⟨intent, rfl, hp⟩
    | false => exact .tell trivial fun reply => .pure ⟨intent, rfl, hp⟩

end

section

variable (hbuy : MayBuy s req t agent item) (hin : s.ClearedInput req item agent input)
include hbuy hin

theorem deliverItem_batch {auth : Billing.AuthorizeResult} {t₀ : BatchTrail Blob}
    (hw : t.writes = t₀.writes) : s.BatchSpec req (fun t' x => ItemDone s req t₀ t' agent item x)
      (s.deliverItem input free auth) t := by
  have hrelease : ∀ e, s.BatchSpec req (fun t' x => ItemDone s req t₀ t' agent item x)
      (do releaseHold auth.billingID input.derivedKey; throw e) t := by
    intro e
    refine .seq (s.releaseHold_batch _ _ (BatchTrail.Beside.refl t))
      (fun _ _ hb => absurd hb.2 (by simp)) fun t₂ _ hb => .throw ?_
    exact .inl (hb.1.writes.trans hw)
  refine .attempt ((s.batch_ignoresQuiet req).only (s.mintSignedURL_quiet _ _ _) t) ?_
  rintro t' (e | signed) rfl
  · exact hrelease e
  · refine (s.batch_ignoresQuiet req).tell (by trivial) fun transactionID => ?_
    dsimp only
    split
    · exact hrelease _
    next payload hpay =>
      refine (s.commitItem_batch hbuy hin hpay ?_ rfl rfl).mono (fun _ _ hg => hg) ?_
      · rw [← hin.item]
        rfl
      · intro t₁ x hx
        unfold ItemDone at hx ⊢
        rwa [← hw]

theorem runBatchItemBilling_batch :
    s.BatchSpec req (fun t' x => ItemDone s req t t' agent item x)
      (s.runBatchItemBilling input) t := by
  unfold runBatchItemBilling
  split
  · exact s.deliverItem_batch hbuy hin rfl
  · refine .seq (s.batch_aside req (s.resolveBilling_aside _) t)
      (fun t' e hb => .inl hb.writes) fun t' auth hb => ?_
    exact s.deliverItem_batch (hbuy.le hb.le) hin hb.writes

end

theorem executeBatchItem_batch {ctx : RequestContext} {correlation : RequestCorrelation}
    (hbuy : MayBuy s req t agent item) :
    s.BatchSpec req (fun t' x => ItemRun s req t t' agent item x ∧ t.Le t')
      (s.executeBatchItem ctx req item agent correlation) t := by
  refine .keep ?_ (fun _ _ _ _ _ hle hr => BatchTrail.le_of_tracked hle hr)
    (BatchTrail.Le.refl t)
  refine .seq (s.clearBatchItem_spec (s.batch_passes_catalog req t) ctx req item agent
    correlation (fun _ => s.batch_passes_quiet req t) rfl) ?_ ?_
  · rintro t' e ⟨rfl, he, -⟩
    refine ⟨Or.inl rfl, fun hi => ?_⟩
    rw [he e rfl] at hi
    exact absurd hi (by simp)
  · rintro t' input ⟨rfl, -, hin⟩
    have hclear := hin input rfl
    refine .seq (s.runBatchItemBilling_batch hbuy hclear) ?_ ?_
    · exact fun _ e he => ⟨he, fun _ => ⟨input.binding, hclear.verified⟩⟩
    · exact fun _ r hr => .pure
        ⟨hr, input.binding.digest, (s.verifyAgentAcceptance_ok hclear.verified).2.2⟩

end

variable {binding : AgentBinding}

section

variable {req} {w : List (PersistTxIntent Blob)}

theorem probeRows_batch (items : List TransactionItem) (hw : t.writes = w) :
    s.BatchSpec req (fun t' x => t'.writes = w ∧ ∀ found, x = .ok found →
      ∃ sub, List.Sublist sub items ∧ List.Forall₂ (FoundRow s req t') sub found)
      (s.probeRows req.idempotencyKey items) t := by
  induction items generalizing t with
  | nil =>
    refine .pure ⟨hw, fun found hf => ⟨[], List.Sublist.refl _, ?_⟩⟩
    cases hf
    exact List.Forall₂.nil
  | cons item items ih =>
    refine .tell trivial fun r => ?_
    rcases r with row | _ | e
    · dsimp only
      split_ifs
      · exact .throw ⟨hw, fun found hf => absurd hf (by simp)⟩
      · split
        · exact .throw ⟨hw, fun found hf => absurd hf (by simp)⟩
        next result hres =>
          let t₁ := BatchTrail.track (.byIdempotencyKey
            (derivedItemKey req.idempotencyKey item.offer.offerID)) t (.found row)
          have hw₁ : t₁.writes = w := hw
          have hcur : FoundRow s req t₁ item (result, row.agentIdentityHash) :=
            ⟨row, List.mem_cons_self, hres, rfl⟩
          refine .seq ((ih hw₁).keep
            (fun _ _ _ _ _ hle hr => BatchTrail.le_of_tracked hle hr) (BatchTrail.Le.refl t₁)) ?_ ?_
          · exact fun _ _ h => ⟨h.1.1, fun found hf => absurd hf (by simp)⟩
          · rintro t' rest ⟨⟨hw', hrest⟩, hle⟩
            refine .pure ⟨hw', fun found hf => ?_⟩
            cases hf
            obtain ⟨sub, hsub, hall⟩ := hrest rest rfl
            exact ⟨item :: sub, hsub.cons_cons item, .cons (hcur.le hle) hall⟩
    · refine (ih hw).mono (fun _ _ hg => hg) fun t' x hx => ⟨hx.1, fun found hf => ?_⟩
      obtain ⟨sub, hsub, hall⟩ := hx.2 found hf
      exact ⟨sub, hsub.cons item, hall⟩
    · exact .throw ⟨hw, fun found hf => absurd hf (by simp)⟩

theorem rebuildResponse_ok {found : List (TransactionResultItem × Bytes)}
    (h : s.rebuildResponse req binding found = .ok (some resp)) :
    found.length = req.items.length ∧ (∀ f ∈ found, f.2 = binding.digest) ∧
      resp.items = found.map Prod.fst := by
  unfold rebuildResponse at h
  split_ifs at h with hzero hlen hforeign
  · simp at h
  · split at h
    · simp at h
    next built hbuilt =>
      obtain rfl := Option.some.inj (Except.ok.inj h)
      refine ⟨not_not.mp hlen, fun f hf => ?_, ?_⟩
      · simp only [List.any_eq_true, decide_eq_true_eq, not_exists, not_and, not_not] at hforeign
        exact (hforeign f hf).symm
      · unfold buildBatchTxResponse at hbuilt
        split at hbuilt
        · simp at hbuilt
        · cases hbuilt
          rfl

theorem replayBatchResponse_batch (hw : t.writes = w) :
    s.BatchSpec req (Finds s req binding w) (s.replayBatchResponse req binding) t := by
  refine .seq (s.probeRows_batch req.items hw) (fun _ _ h => Finds.error h.1) ?_
  rintro t' found ⟨hw', hf⟩
  obtain ⟨sub, hsub, hall⟩ := hf found rfl
  split
  · exact .throw (Finds.error hw')
  next resp hresp =>
    cases resp with
    | none => exact .pure (Finds.none hw')
    | some resp =>
      obtain ⟨hlen, howner, hitems⟩ := s.rebuildResponse_ok hresp
      obtain rfl : sub = req.items := hsub.eq_of_length (hall.length_eq.trans hlen)
      refine .pure (Finds.some hw' (.rebuilt ?_))
      rw [hitems, List.forall₂_map_right_iff]
      have hboth := (List.forall₂_and_left (R := flip (FoundRow s req t'))
        (p := fun f : TransactionResultItem × Bytes => f.2 = binding.digest) found req.items).mpr
          ⟨howner, hall.flip⟩
      exact hboth.flip.imp fun item f h => h.1 ▸ h.2

theorem serveFinalizedResponse_ok {payload : Blob}
    (h : s.serveFinalizedResponse binding payload = .ok resp) :
    s.unmarshalResponse payload = .ok resp ∧
      (resp.agentIdentityHash = "" ∨ resp.agentIdentityHash = binding.thumbprint) := by
  unfold serveFinalizedResponse at h
  split at h
  · simp at h
  next decoded hd =>
    split_ifs at h with hgate
    obtain rfl := Except.ok.inj h
    refine ⟨hd, ?_⟩
    by_cases he : decoded.agentIdentityHash = ""
    · exact .inl he
    · exact .inr (by_contra fun hne => hgate ⟨he, hne⟩)

variable (hslot : OwnSlot s req agentID req.idempotencyKey)
include hslot

theorem finalizedResponse_batch (hw : t.writes = w) :
    s.BatchSpec req (Finds s req binding w) (s.finalizedResponse req agentID binding) t := by
  refine .tell hslot fun r => ?_
  rcases r with (_ | payload) | e
  · exact .pure (Finds.none hw)
  · dsimp only
    split_ifs
    · exact .pure (Finds.none hw)
    · split
      · exact .throw (Finds.error hw)
      next resp hresp =>
        obtain ⟨hdec, hgate⟩ := s.serveFinalizedResponse_ok hresp
        exact .pure (Finds.some hw (.served List.mem_cons_self hdec hgate))
  · exact .throw (Finds.error hw)

theorem pollFinalizedResponse_batch (polls : Nat) (hw : t.writes = w) :
    s.BatchSpec req (Finds s req binding w)
      (s.pollFinalizedResponse req agentID binding polls) t := by
  induction polls generalizing t with
  | zero => exact s.finalizedResponse_batch hslot hw
  | succ polls ih =>
    refine .seq (s.finalizedResponse_batch hslot hw) (fun _ _ h => Finds.error h.writes) ?_
    rintro t' (_ | resp) h
    · refine (s.batch_ignoresQuiet req).tell (by trivial) fun r => ?_
      cases r with
      | false => exact .pure (Finds.none h.writes)
      | true => exact ih h.writes
    · exact .pure h

theorem serveLostClaim_batch (hw : t.writes = w) :
    s.BatchSpec req (Finds s req binding w) (s.serveLostClaim req agentID binding) t := by
  refine .seq (s.finalizedResponse_batch hslot hw) (fun _ _ h => Finds.error h.writes) ?_
  rintro t₁ (_ | resp) h
  · refine .attempt (s.replayBatchResponse_batch h.writes) ?_
    rintro t₂ (e | _ | resp) h
    · dsimp only
      split_ifs
      · exact s.pollFinalizedResponse_batch hslot _ h.writes
      · exact .throw (Finds.error h.writes)
    · exact s.pollFinalizedResponse_batch hslot _ h.writes
    · exact .pure h
  · exact .pure h

end

section

variable {req}

theorem relayTenants_aside (chain : TransportChain) (items : List TransactionItem) :
    Only Op.Aside (s.relayTenants chain items).run := by
  induction items with
  | nil => exact .pure
  | cons item items ih =>
    refine .seq ?_ fun tenantID => ?_
    · unfold resolveRelayTenant
      split
      · exact .pure
      · split_ifs
        · exact .pure
        · exact .ask trivial fun _ => .pure
    · cases tenantID with
      | none => exact .throw
      | some id =>
        refine .ask trivial fun r => ?_
        rcases r with e | tenant
        · exact .throw
        · dsimp only
          split
          · exact .throw
          · exact ih

theorem relayPolicyGate_aside (ctx : RequestContext) (req : TransactionRequest)
    (agent : ResolvedAgent) : Only Op.Aside (s.relayPolicyGate ctx req agent).run := by
  unfold relayPolicyGate
  dsimp only
  split
  · split
    · exact .throw
    · exact s.relayTenants_aside _ _
  · exact .pure

theorem claimOrReplay_batch {acceptance : RequestAcceptance} {canonical : Bytes}
    (hslot : OwnSlot s req agent.id req.idempotencyKey)
    (hacc : req.agentRequestAcceptance = some acceptance)
    (hv : s.verifyRequestAcceptance req acceptance agent.key = .ok (binding, canonical))
    (hw : t.writes = []) :
    s.BatchSpec req (fun t' x => ∀ adm, x = .ok adm → Admitted s req t' agent adm)
      (s.claimOrReplay req agent binding (s.sha256 canonical)) t := by
  let t₁ : BatchTrail Blob := { t with claims := s.sha256 canonical :: t.claims }
  have hw₁ : t₁.writes = [] := hw
  have hmem : ∀ {t' : BatchTrail Blob}, t₁.Le t' → s.sha256 canonical ∈ t'.claims :=
    fun hle => hle.claims List.mem_cons_self
  have hreplay : ∀ {t' : BatchTrail Blob}, t'.writes = [] → t₁.Le t' →
      s.BatchSpec req (fun t' x => ∀ adm, x = .ok adm → Admitted s req t' agent adm)
        (do let resp ← s.replayBatchResponse req binding
            pure { resp, claimed := true, binding }) t' := by
    intro t' hw' hle
    refine .seq ((s.replayBatchResponse_batch hw').keep
      (fun _ _ _ _ _ hle hr => BatchTrail.le_of_tracked hle hr) hle) ?_ ?_
    · exact fun _ _ _ adm h => absurd h (by simp)
    · rintro t₂ resp ⟨hf, hle₂⟩
      refine .pure fun adm h => ?_
      cases h
      exact Admitted.of_claim hacc hv (hmem hle₂) hf
  refine .tell hslot fun r => ?_
  rcases r with _ | stored | ⟨e, applied⟩
  · exact hreplay hw₁ (BatchTrail.Le.refl t₁)
  · dsimp only
    split_ifs with hd
    · exact .throw fun adm h => absurd h (by simp)
    · obtain rfl := not_not.mp hd
      refine .seq ((s.serveLostClaim_batch hslot hw₁).keep
        (fun _ _ _ _ _ hle hr => BatchTrail.le_of_tracked hle hr) (BatchTrail.Le.refl t₁)) ?_ ?_
      · exact fun _ _ _ adm h => absurd h (by simp)
      · rintro t₂ (_ | resp) ⟨hf, hle⟩
        · exact hreplay hf.writes hle
        · refine .pure fun adm h => ?_
          cases h
          exact Admitted.of_claim hacc hv (hmem hle) hf
  · exact .throw fun adm h => absurd h (by simp)

theorem admitBatchRequest_batch (ctx : RequestContext) (ha : Resolved s req t.Found agent)
    (hw : t.writes = []) :
    s.BatchSpec req (fun t' x => ∀ adm, x = .ok adm → Admitted s req t' agent adm)
      (s.admitBatchRequest ctx req agent) t := by
  have hgate := s.batch_aside req (s.relayPolicyGate_aside ctx req agent) t
  unfold admitBatchRequest
  split
  next hacc =>
    have hheld : ∀ t' : BatchTrail Blob, Held s req t' agent := by
      intro t' acceptance h
      rw [hacc] at h
      exact absurd h (by simp)
    split
    next hnone =>
      refine .pure fun adm h => ?_
      cases h
      exact
        { writes := hw
          held := hheld t
          answered := fun resp h => absurd h (by simp)
          proven := fun item hm hb => absurd hb (s.proveRequesterPossession_none hnone hm)
          claimed := fun h => absurd h (by simp)
          bare := fun _ => hacc }
    next binding hsome =>
      have hproven : Proven s req agent binding := Or.inr (s.proveRequesterPossession_some hsome)
      refine .seq hgate (fun _ _ _ adm h => absurd h (by simp)) fun t₁ _ hb => ?_
      refine .seq (s.replayBatchResponse_batch (hb.writes.trans hw))
        (fun _ _ _ adm h => absurd h (by simp)) fun t₂ resp hf => .pure fun adm h => ?_
      cases h
      exact
        { writes := hf.writes
          held := hheld t₂
          answered := fun resp' hr => ⟨hproven, hf.stored resp' (congrArg Except.ok hr)⟩
          proven := fun _ _ _ => hproven
          claimed := fun h => absurd h (by simp)
          bare := fun _ => hacc }
  next acceptance hacc =>
    split
    · exact .throw fun adm h => absurd h (by simp)
    next binding canonical hv =>
      refine .seq hgate (fun _ _ _ adm h => absurd h (by simp)) fun t₁ _ hb => ?_
      exact s.claimOrReplay_batch ⟨ha.id, rfl⟩ hacc hv (hb.writes.trans hw)

end

variable {req}

theorem runBatchItemsFrom_batch {ctx : RequestContext} {done items : List TransactionItem}
    {out : BatchOutcome} (hitems : req.items = done ++ items)
    (ha : Resolved s req t.Found agent) (hheld : Held s req t agent) (hbind : ∀ item ∈ req.items,
      (∃ b, s.verifyAgentAcceptance (itemRequest req item) agent.key = .ok b) →
        Proven s req agent binding) (hout : Progress s req t agent done out) :
    s.BatchSpec req (LoopDone s req agent binding)
      (s.runBatchItemsFrom ctx req agent binding items out) t := by
  induction items generalizing t done out with
  | nil =>
    refine .pure fun out' h => .inl ?_
    cases h
    rw [hitems, List.append_nil]
    exact hout
  | cons item items ih =>
    have hmem : item ∈ req.items := by simp [hitems]
    have hitems' : req.items = (done ++ [item]) ++ items := by simp [hitems]
    refine .attempt (s.executeBatchItem_batch ⟨ha, hheld, hmem⟩) ?_
    rintro t₁ (e | ⟨r, thumbprint⟩) ⟨hrun, hle⟩
    · obtain ⟨hdone, hverified⟩ := hrun
      dsimp only
      split
      next denied hd =>
        obtain ⟨hkind, hoffer, hden⟩ := batchDenialResult_some hd
        exact ih hitems' (ha.le hle) (hheld.le hle)
          (hout.deny hle (hdone.resolve_right hkind) hoffer hden)
      · split_ifs with hi
        · refine .seq (s.serveLostClaim_batch ⟨ha.id, rfl⟩ rfl)
            (fun _ _ _ out' h => absurd h (by simp)) ?_
          rintro t₂ (_ | resp) hf
          · exact .throw fun out' h => absurd h (by simp)
          · refine .pure fun out' h => .inr ⟨resp, ?_⟩
            cases h
            exact ⟨rfl, hbind item hmem (hverified hi), hf.stored resp rfl⟩
        · exact .throw fun out' h => absurd h (by simp)
    · exact ih hitems' (ha.le hle) (hheld.le hle) (hout.deliver hle hrun)

end Service

end Ramp.Exchange
