import Ramp.Billing.TigerBeetle.Conduct

/-! Every call of the adapter keeps to its conduct, and an approval names a hold of its
request. One lemma for each function of the adapter. -/

namespace Ramp.Billing.TigerBeetle

open TigerBeetleAdapter (checkBalance linkedErr maxAuthGenerations ownerAccount refundLegs
  refundMinor refusal resolveErr settleNetLeg submitLinked)

open Ramp.Ledger Prog

variable {ID : Type} [DecidableEq ID] [Zero ID] {a : TigerBeetleAdapter ID} {context : String}
  {call : Call} {h : History (Op ID) Res}

/-- Every ledger call of the program is one the billing call may make, and what it returns is
backed by the replies it got. -/
abbrev Keeps {α : Type} (a : TigerBeetleAdapter ID) (call : Call)
    (P : History (Op ID) Res → α → Prop) (x : Tb ID α) (h : History (Op ID) Res) : Prop :=
  Yields recordCall (Conduct a call) P x h

section

variable {id : ID}

theorem call_yields {op : Op ID} (hop : Conduct a call h op) :
    Yields recordCall (Conduct a call) (fun h' v => h' = h ++ [⟨op, .ok v⟩])
      (TigerBeetle.call context op) h := by
  refine Spec.ask hop fun reply t ht => ?_
  cases ht
  cases reply with
  | ok v => exact Yields.pure rfl
  | err text unavailable applied => exact Yields.throw

theorem ensureAccount_yields {p : Ids.Prefix} {businessID label : String}
    (hopens : call.Opens p businessID) (hid : a.accountID p businessID = .ok id) :
    Keeps a call (fun h' _ => h ⊆ h' ∧ Ensured h' (a.account id p.code))
      (a.ensureAccount id p.code label) h := by
  refine .rethrow (.seq (call_yields ⟨p, businessID, hopens, hid, rfl⟩) ?_)
  rintro h' status rfl
  have hgrown : h ⊆ h ++ [⟨.createAccount (a.account id p.code), .ok status⟩] :=
    List.subset_append_left _ _
  have hmem : (⟨.createAccount (a.account id p.code), .ok status⟩ : Event (Op ID) Res) ∈
      h ++ [⟨.createAccount (a.account id p.code), .ok status⟩] :=
    List.mem_append_right _ (List.mem_singleton_self _)
  cases status with
  | created => exact .pure ⟨hgrown, _, hmem, by simp⟩
  | «exists» => exact .pure ⟨hgrown, _, hmem, by simp⟩
  | existsWithDifferent => exact .throw

theorem lookupTransfer_yields : Keeps a call
      (fun h' r => h ⊆ h' ∧ ∀ info, r = some info → Found h' id info)
      (rethrow (TbError.wrapped context) (lookupTransfer id)) h := by
  refine .rethrow (.seq (call_yields trivial) ?_)
  rintro h' found rfl
  exact .pure ⟨List.subset_append_left _ _, fun info hinfo =>
    ⟨found, List.mem_append_right _ (List.mem_singleton_self _), hinfo⟩⟩

theorem classifyHold_yields {op : String} : Keeps a call
      (fun h' x => ∃ voidID found, a.resolveIDs id = .ok (x.2, voidID) ∧
        h' = h ++ [⟨.lookupTransfers [id, x.2, voidID], .ok found⟩] ∧
        holdState a.ids id x.2 voidID found = x.1) (a.classifyHold id op) h := by
  refine .check fun resolve hresolve => ?_
  obtain ⟨postID, voidID⟩ := resolve
  have hlookup : Keeps a call
      (fun h' state => ∃ found, h' = h ++ [⟨.lookupTransfers [id, postID, voidID], .ok found⟩] ∧
        holdState a.ids id postID voidID found = state)
      (TigerBeetle.classifyHold a.ids id postID voidID) h := by
    have hset : Keeps a call
        (fun h' texts => ∃ found, h' = h ++ [⟨.lookupTransfers [id, postID, voidID], .ok found⟩] ∧
          texts = found.map fun t => a.ids.encodeID t.id)
        (lookupTransferSet a.ids [id, postID, voidID]) h := by
      refine .seq (call_yields trivial) ?_
      rintro h' found rfl
      exact .pure ⟨found, rfl, rfl⟩
    refine .seq hset ?_
    rintro h' texts ⟨found, rfl, rfl⟩
    split_ifs with hfound hlive
    · exact .pure ⟨found, rfl, by rw [holdState, if_neg (not_not.mpr hfound), if_pos hlive]⟩
    · exact .pure ⟨found, rfl, by rw [holdState, if_neg (not_not.mpr hfound), if_neg hlive]⟩
    · exact .pure ⟨found, rfl, by rw [holdState, if_pos hfound]⟩
  refine .seq (.rethrow hlookup) ?_
  rintro h' state ⟨found, rfl, hstate⟩
  exact .pure ⟨voidID, found, hresolve, rfl, hstate⟩

end

variable {gen : Nat}

section

variable {req : AuthorizeRequest} {p : HoldParams ID}

theorem createHold_yields {id postID voidID : ID} {pre : History (Op ID) Res}
    {found : List (Transfer ID)} (hparams : a.holdParams req = .ok p)
    (hgen : gen < maxAuthGenerations)
    (hid : a.pendingID req.billingRef req.idempotencyKey gen = .ok id)
    (hprobed : Probed a h req gen) (hagent : Ensured h (a.account p.agentAcct .agent))
    (howner : Ensured h (a.account p.owner .owner))
    (hresolve : a.resolveIDs id = .ok (postID, voidID))
    (hread : h = pre ++ [⟨.lookupTransfers [id, postID, voidID], .ok found⟩])
    (hfree : holdState a.ids id postID voidID found = .free) :
    Keeps a (.authorize req) (Approves a req) (a.createHold id p) h := by
  have hcreate : Keeps a (.authorize req)
      (fun h' outcome => ∃ results,
        h' = h ++ [⟨.createTransfers [(a.pendingTransfer id p).transfer], .ok results⟩] ∧
        (outcome ≠ .insufficientFunds → ∀ status rest, results = status :: rest →
          status = .created ∨ status = .exists))
      (createPending (a.pendingTransfer id p)) h := by
    unfold createPending
    split_ifs with hneg
    · exact .throw
    · have hminor : 0 ≤ p.minor := not_lt.mp hneg
      refine .seq (call_yields (.hold rfl hparams hgen hid hprobed hagent howner hresolve
        hread hfree hminor)) ?_
      rintro h' results rfl
      cases results with
      | nil => exact .pure ⟨[], rfl, fun _ _ _ => nofun⟩
      | cons status rest =>
        refine .orThrow fun outcome houtcome => ⟨_, rfl, fun hne status' rest' heq => ?_⟩
        cases status <;> simp_all [pendingOutcome]
  refine .seq (.rethrow hcreate) ?_
  rintro h' outcome ⟨results, rfl, hresults⟩
  have happroved : outcome ≠ .insufficientFunds → Approves a req
      (h ++ [⟨.createTransfers [(a.pendingTransfer id p).transfer], .ok results⟩])
      (a.approved id) := by
    intro hne _
    subst hread
    exact ⟨p, gen, id, hparams, hgen, hid, rfl, .created hresolve hfree (hresults hne)⟩
  cases outcome with
  | created => exact .pure (happroved (by simp))
  | «exists» => exact .pure (happroved (by simp))
  | insufficientFunds => exact .pure fun hx => by cases hx

theorem reserveFrom_yields {left : Nat} (hparams : a.holdParams req = .ok p)
    (hbound : gen + left ≤ maxAuthGenerations) (hprobed : Probed a h req gen)
    (hagent : Ensured h (a.account p.agentAcct .agent))
    (howner : Ensured h (a.account p.owner .owner)) (href : p.billingRef = req.billingRef)
    (hkey : p.authKey = req.idempotencyKey) :
    Keeps a (.authorize req) (Approves a req) (a.reserveFrom p left gen) h := by
  induction left generalizing gen h with
  | zero => exact .throw
  | succ left ih =>
    refine .check fun id hid => ?_
    rw [href, hkey] at hid
    refine .seq classifyHold_yields ?_
    rintro h' ⟨state, postID⟩ ⟨voidID, found, hresolve, rfl, hstate⟩
    have hsub : h ⊆ h ++ [⟨.lookupTransfers [id, postID, voidID], .ok found⟩] :=
      List.subset_append_left _ _
    cases state with
    | live =>
      refine .pure fun _ => ⟨p, gen, id, hparams, by omega, hid, rfl, ?_⟩
      exact .read hresolve hstate
    | free =>
      exact createHold_yields hparams (by omega) hid (hprobed.mono hsub) (hagent.mono hsub)
        (howner.mono hsub) hresolve rfl hstate
    | resolved =>
      refine ih (by omega) ((hprobed.mono hsub).succ hid ?_) (hagent.mono hsub) (howner.mono hsub)
      exact ⟨postID, voidID, found, hresolve, List.mem_append_right _ (List.mem_singleton_self _),
        hstate⟩

omit [DecidableEq ID] [Zero ID] in
theorem holdParams_ok (hparams : a.holdParams req = .ok p) :
    p.billingRef = req.billingRef ∧ p.authKey = req.idempotencyKey ∧ p.bps = req.feeRateBps ∧
      a.accountID .agent req.billingRef = .ok p.agentAcct ∧
      a.accountID .owner ("revenue:" ++ req.resourceOwnerID) = .ok p.owner := by
  obtain ⟨minor, -, hrest⟩ := Except.bind_eq_ok.mp hparams
  obtain ⟨agentAcct, hagent, hrest⟩ := Except.bind_eq_ok.mp hrest
  obtain ⟨owner, howner, hrest⟩ := Except.bind_eq_ok.mp hrest
  cases hrest
  unfold ownerAccount at howner
  split_ifs at howner
  exact ⟨rfl, rfl, rfl, hagent, howner⟩

theorem authorize_yields : Keeps a (.authorize req) (Approves a req) (a.authorize req) [] := by
  refine .rethrow ?_
  cases hrefusal : a.refusal req with
  | some denial =>
    refine .pure fun happroved => ?_
    unfold refusal at hrefusal
    split_ifs at hrefusal <;> obtain rfl := Option.some.inj hrefusal <;> cases happroved
  | none =>
    refine .check fun p hparams => ?_
    obtain ⟨href, hkey, -, hagentID, hownerID⟩ := holdParams_ok hparams
    have hensure : Keeps a (.authorize req)
        (fun h' _ => Ensured h' (a.account p.agentAcct .agent) ∧
          Ensured h' (a.account p.owner .owner))
        (a.ensureAccounts p.agentAcct p.owner) [] := by
      refine .seq (ensureAccount_yields .agent hagentID) ?_
      rintro h' - ⟨-, hagent⟩
      refine .mono (ensureAccount_yields .owner hownerID) ?_
      rintro h'' - ⟨hsub, howner⟩
      exact ⟨hagent.mono hsub, howner⟩
    refine .seq hensure ?_
    rintro h - ⟨hagent, howner⟩
    have hcheck : Keeps a (.authorize req)
        (fun h' denial => h ⊆ h' ∧ ∀ res, denial = some res → res.approved = false)
        (checkBalance p.agentAcct p.minor) h := by
      refine .seq (.rethrow (call_yields trivial)) ?_
      rintro h' acc rfl
      refine .pure ⟨List.subset_append_left _ _, fun res hres => ?_⟩
      split_ifs at hres
      cases hres
      rfl
    refine .seq hcheck ?_
    rintro h' denial ⟨hsub, hdenial⟩
    cases denial with
    | some res => exact .pure fun happroved => by simp [hdenial res rfl] at happroved
    | none =>
      have hnone : Probed a h' req 0 := fun g hg => absurd hg (Nat.not_lt_zero g)
      exact reserveFrom_yields hparams (by simp) hnone (hagent.mono hsub) (howner.mono hsub)
        href hkey

end

section

variable {id postID voidID : ID}

variable {leg : Leg ID} {t : Transfer ID} {batch : List (Transfer ID)} {billingID key : String}

theorem buildLeg_ok {last i : Nat} (h : buildLeg last leg i = .ok t) :
    0 ≤ leg.amount ∧ t = leg.transfer (i < last) := by
  unfold buildLeg at h
  split_ifs at h with hneg
  exact ⟨not_lt.mp hneg, (Except.ok.inj h).symm⟩

theorem buildLinkedBatch_one (h : buildLinkedBatch [leg] = .ok batch) :
    0 ≤ leg.amount ∧ batch = [leg.transfer false] := by
  change [(leg, 0)].mapM (fun x => buildLeg 0 x.1 x.2) = Except.ok batch at h
  obtain ⟨t, ht, hrest⟩ := Except.bind_eq_ok.mp h
  obtain ⟨hpos, rfl⟩ := buildLeg_ok ht
  cases hrest
  exact ⟨hpos, rfl⟩

theorem buildLinkedBatch_two {leg' : Leg ID} (h : buildLinkedBatch [leg, leg'] = .ok batch) :
    0 ≤ leg.amount ∧ 0 ≤ leg'.amount ∧ batch = [leg.transfer true, leg'.transfer false] := by
  change [(leg, 0), (leg', 1)].mapM (fun x => buildLeg 1 x.1 x.2) = Except.ok batch at h
  rw [List.mapM_cons, List.mapM_cons] at h
  obtain ⟨t, ht, hrest⟩ := Except.bind_eq_ok.mp h
  obtain ⟨ts, hts, hrest⟩ := Except.bind_eq_ok.mp hrest
  obtain ⟨t', ht', hts⟩ := Except.bind_eq_ok.mp hts
  obtain ⟨hpos, rfl⟩ := buildLeg_ok ht
  obtain ⟨hpos', rfl⟩ := buildLeg_ok ht'
  cases hts
  cases hrest
  exact ⟨hpos, hpos', rfl⟩

theorem submitLinked_yields {α : Type} {legs : List (Leg ID)} {f : LinkedOutcome → Tb ID α}
    (hbatch : ∀ batch, buildLinkedBatch legs = .ok batch → Submits a call h batch)
    (hf : ∀ outcome h', Keeps a call (fun _ _ => True) (f outcome) h') :
    Keeps a call (fun _ _ => True) (submitLinked legs >>= f) h := by
  refine .seq (P := fun _ _ => True) ?_ fun h' outcome _ => hf outcome h'
  refine .rethrow (.check fun batch hok => ?_)
  refine .seq (call_yields (hbatch batch hok)) fun h' results _ => ?_
  exact .orThrow fun _ _ => trivial

theorem linkedErr_yields {e : TbError} {outcome : LinkedOutcome} :
    Keeps a call (fun _ _ => True) (linkedErr e outcome) h := by
  cases outcome with
  | applied => exact .pure trivial
  | exceedsCredits => exact .throw
  | pendingResolved => exact .throw
  | existsMismatch => exact .throw

theorem resolve_yields (ht : Submits a call h [t]) : Keeps a call (fun _ _ => True)
      (rethrow (TbError.wrapped context) (resolve t) >>= resolveErr) h := by
  refine .seq (P := fun _ _ => True) ?_ fun h' outcome _ => ?_
  · refine .rethrow (.seq (call_yields ht) fun h' results _ => ?_)
    cases results with
    | nil => exact .pure trivial
    | cons status rest => exact .orThrow fun _ _ => trivial
  · cases outcome with
    | applied => exact .pure trivial
    | «exists» => exact .pure trivial
    | notFound => exact .throw
    | alreadyResolved => exact .throw

theorem settleSplit_yields (hname : call.Names a id)
    (hresolve : a.resolveIDs id = .ok (postID, voidID)) :
    Keeps a call (fun _ _ => True) (a.settleSplit id postID) h := by
  refine .seq lookupTransfer_yields ?_
  rintro h' info ⟨-, hinfo⟩
  cases info with
  | none => exact .throw
  | some info =>
    have hinfo := hinfo info rfl
    dsimp only
    split_ifs with hfee
    · exact resolve_yields (.settle (.whole hname hresolve hinfo))
    · refine .check fun platformID hplatform => ?_
      refine .seq (ensureAccount_yields .fee hplatform) ?_
      rintro h'' - ⟨hsub, hensured⟩
      refine .check fun feeID hfeeID => ?_
      refine submitLinked_yields (fun batch hbatch => ?_) fun outcome h' => linkedErr_yields
      obtain ⟨hnet, hpos, rfl⟩ := buildLinkedBatch_two hbatch
      have hle : feeMinor info.amount (a.rateBps info.userData128) ≤ info.amount := by
        simp only [settleNetLeg] at hnet
        omega
      exact .settle (.split hname hresolve (hinfo.mono hsub) hfeeID hensured hpos hle)

theorem record_yields {quantity : Int} : Keeps a (.record billingID quantity key) (fun _ _ => True)
      (a.record billingID quantity key) [] := by
  refine .rethrow (.check fun id hid => ?_)
  refine .seq classifyHold_yields ?_
  rintro h ⟨state, postID⟩ ⟨voidID, found, hresolve, rfl, hstate⟩
  cases state with
  | free => exact .throw
  | live => exact settleSplit_yields hid hresolve
  | resolved =>
    refine .seq lookupTransfer_yields fun h' settled _ => ?_
    split_ifs
    · exact .pure trivial
    · exact .throw

theorem release_yields :
    Keeps a (.release billingID key) (fun _ _ => True) (a.release billingID key) [] := by
  refine .rethrow (.check fun id hid => ?_)
  refine .check fun resolve hresolve => ?_
  exact resolve_yields (.void hid hresolve)

end

variable {reason : String} {amount : RawAmount}

section

variable {id : ID}

theorem sumRefundPages_yields {account group : ID} {pages timestampMin sum : Nat} : Keeps a call
      (fun h' total => h ⊆ h' ∧ Paged h' account group timestampMin sum total)
      (sumRefundPages account group TransferCode.refund.number pages timestampMin sum) h := by
  induction pages generalizing h timestampMin sum with
  | zero => exact .throw
  | succ pages ih =>
    refine .seq (call_yields trivial) ?_
    rintro h' page rfl
    have hsub : h ⊆ h ++ [⟨.creditTransfers ⟨account, group, TransferCode.refund.number,
        timestampMin, refundPageLimit⟩, .ok page⟩] := List.subset_append_left _ _
    have hread : (⟨.creditTransfers ⟨account, group, TransferCode.refund.number, timestampMin,
        refundPageLimit⟩, .ok page⟩ : Event (Op ID) Res) ∈ h ++ [⟨.creditTransfers ⟨account, group,
        TransferCode.refund.number, timestampMin, refundPageLimit⟩, .ok page⟩] :=
      List.mem_append_right _ (List.mem_singleton_self _)
    split
    next hnone =>
      obtain rfl := List.getLast?_eq_none_iff.mp hnone
      exact .pure ⟨hsub, .last hread (by simp [refundPageLimit])⟩
    next last hlast =>
      split_ifs with hshort
      · exact .pure ⟨hsub, .last hread hshort⟩
      · refine .mono ih ?_
        rintro h'' total ⟨hsub', hrest⟩
        exact ⟨fun _ he => hsub' (hsub he), .more (hsub' hread) hlast hrest⟩

variable {billingID key : String}

theorem refundReverse_yields {postID voidID netID feeID : ID}
    {info post : Transfer ID} {rMinor : Int} {prior : Nat} (hid : a.ids.decodeID billingID = .ok id)
    (hresolve : a.resolveIDs id = .ok (postID, voidID)) (hposted : Found h postID post)
    (hlegs : a.refundLegIDs id key = .ok (netID, feeID)) (hinfo : Found h id info)
    (hprior : Paged h info.debit id 0 0 prior) (hpos : 0 < rMinor)
    (hcap : prior + rMinor ≤ info.amount) :
    Keeps a (.refund billingID amount reason key) (fun _ _ => True)
      (a.refundReverse (a.reversal ⟨id, netID, feeID, rMinor, reason⟩ info)) h := by
  refine .check fun legs hok => ?_
  refine submitLinked_yields (fun batch hbatch => ?_) fun outcome h' => linkedErr_yields
  unfold refundLegs at hok
  split_ifs at hok with hfee
  · obtain ⟨platformID, hplatform, hok⟩ := Except.bind_eq_ok.mp hok
    cases hok
    obtain ⟨hnet, -, rfl⟩ := buildLinkedBatch_two hbatch
    exact .refund rfl hid hresolve hposted hlegs hinfo hprior hpos hcap (.both hfee hplatform) hnet
  · cases hok
    obtain ⟨hnet, rfl⟩ := buildLinkedBatch_one hbatch
    exact .refund rfl hid hresolve hposted hlegs hinfo hprior hpos hcap (.net (not_lt.mp hfee)) hnet

theorem classifyForRefund_yields : Keeps a call
      (fun h' _ => ∃ postID voidID post, a.resolveIDs id = .ok (postID, voidID) ∧
        Found h' postID post) (a.classifyForRefund id) h := by
  refine .seq classifyHold_yields ?_
  rintro h' ⟨state, postID⟩ ⟨voidID, found, hresolve, -, -⟩
  cases state with
  | free => exact .throw
  | live => exact .throw
  | resolved =>
    refine .seq lookupTransfer_yields ?_
    rintro h'' recorded ⟨-, hpost⟩
    cases recorded with
    | none => exact .throw
    | some post => exact .pure ⟨postID, voidID, post, hresolve, hpost post rfl⟩

theorem refund_yields : Keeps a (.refund billingID amount reason key) (fun _ _ => True)
      (a.refund billingID amount reason key) [] := by
  refine .rethrow (.check fun id hid => ?_)
  refine .seq classifyForRefund_yields ?_
  rintro h - ⟨postID, voidID, post, hresolve, hpost⟩
  refine .check fun rMinor hminor => ?_
  have hpos : 0 < rMinor := by
    unfold refundMinor at hminor
    split_ifs at hminor
    split at hminor
    · cases hminor
    · split_ifs at hminor with hle
      exact Except.ok.inj hminor ▸ not_le.mp hle
  refine .check fun legs hlegs => ?_
  obtain ⟨netID, feeID⟩ := legs
  refine .seq lookupTransfer_yields ?_
  rintro h' replay ⟨hsub, -⟩
  split_ifs
  · exact .pure trivial
  refine .seq lookupTransfer_yields ?_
  rintro h'' info ⟨hsub', hinfo⟩
  cases info with
  | none => exact .throw
  | some info =>
    refine .seq (.rethrow sumRefundPages_yields) ?_
    rintro h₃ prior ⟨hsub'', hprior⟩
    split_ifs with hcap
    · exact .throw
    · exact refundReverse_yields hid hresolve (((hpost.mono hsub).mono hsub').mono hsub'') hlegs
        ((hinfo info rfl).mono hsub'') hprior hpos (not_lt.mp hcap)

end

variable {billingRef : String}

theorem ensureAgentAccount_yields : Keeps a (.ensureAgentAccount billingRef) (fun _ _ => True)
      (a.ensureAgentAccount billingRef) [] := by
  refine .rethrow ?_
  split_ifs
  · exact .throw
  · refine .check fun id hid => ?_
    exact .mono (ensureAccount_yields .ensured hid) fun _ _ _ => trivial

theorem getBalance_yields :
    Keeps a (.getBalance billingRef) (fun _ _ => True) (a.getBalance billingRef) [] := by
  refine .rethrow (.check fun id hid => ?_)
  refine .seq (.rethrow (call_yields trivial)) fun h b _ => ?_
  cases b with
  | none => exact .throw
  | some b => exact .pure trivial

theorem credit_yields {key : String} : Keeps a (.credit billingRef amount key) (fun _ _ => True)
      (a.credit billingRef amount key) [] := by
  refine .rethrow (.check fun value hvalue => ?_)
  refine .check fun minor hminor => ?_
  refine .check fun transferID hid => ?_
  refine .check fun agentAcct hagent => ?_
  refine .check fun liquidity hliquidity => ?_
  refine .seq (ensureAccount_yields .credited hagent) fun h _ _ => ?_
  refine .seq (ensureAccount_yields .liquidity hliquidity) fun h' _ _ => ?_
  refine .seq lookupTransfer_yields fun h'' existing _ => ?_
  split_ifs
  · exact .pure trivial
  refine submitLinked_yields (fun batch hbatch => ?_) fun outcome h' => ?_
  · obtain ⟨-, rfl⟩ := buildLinkedBatch_one hbatch
    exact .credit rfl (validateCreditArgs_ok hvalue).2.2 (slotIs_of_slotID a hid)
  · split_ifs
    · exact .pure trivial
    · exact linkedErr_yields

theorem perform_yields (call : Call) : Keeps a call
      (fun h answer => ∀ req res, call = .authorize req → answer = .authorized res →
        Approves a req h res) (perform a call) [] := by
  cases call with
  | authorize req =>
    refine .seq authorize_yields fun h res hres => .pure ?_
    rintro req' res' ⟨⟩ ⟨⟩
    exact hres
  | record billingID quantity key =>
    exact .seq record_yields fun h _ _ => .pure fun _ _ => nofun
  | release billingID key =>
    exact .seq release_yields fun h _ _ => .pure fun _ _ => nofun
  | refund billingID amount reason key =>
    exact .seq refund_yields fun h _ _ => .pure fun _ _ => nofun
  | credit billingRef amount key =>
    exact .seq credit_yields fun h _ _ => .pure fun _ _ => nofun
  | ensureAgentAccount billingRef =>
    exact .seq ensureAgentAccount_yields fun h _ _ => .pure fun _ _ => nofun
  | getBalance billingRef =>
    exact .seq getBalance_yields fun h _ _ => .pure fun _ _ => nofun
  | getQuota billingRef => exact .pure fun _ _ => nofun

end Ramp.Billing.TigerBeetle
