import Ramp.Billing.TigerBeetle.Settling

/-! What an approval promises, and the generations of a hold. The probe sees posts and voids but
not that a hold has run into its timeout; each generation is made only once all before it are
resolved. -/

namespace Ramp.Billing.TigerBeetle

open Ramp.Ledger Prog

variable {ID ι : Type} {req : AuthorizeRequest} {gen : Nat}

variable {a : TigerBeetleAdapter ID} {calls : ι → Call} {s : State ID} {i : ι} {p : HoldParams ID}
  {tr : Trace (Op ID) Res ι} {c : Pool (Op ID) Res (State ID) ι (Except TbError Answer)}

section

variable [DecidableEq ID] [Zero ID] [DecidableEq ι] {id : ID}

variable {postID voidID : ID}

section

omit [DecidableEq ι]

theorem Sound.read_live (hs : Sound a calls s) (hids : a.ids.Lawful) (hfree : CollisionFree a calls)
    (hcall : calls i = .authorize req) (hgen : gen < TigerBeetleAdapter.maxAuthGenerations)
    (hid : a.pendingID req.billingRef req.idempotencyKey gen = .ok id)
    (hresolve : a.resolveIDs id = .ok (postID, voidID))
    (hlive : holdState a.ids id postID voidID ([id, postID, voidID].filterMap s.transfer?) = .live)
    (hexpired : id ∉ s.expired) : s.Live id := by
  have hname := names_of_pendingID hcall hgen hid
  rw [holdState_lookup hids] at hlive
  split_ifs at hlive with hnone hresolved
  obtain ⟨t, ht⟩ := Option.ne_none_iff_exists'.mp (mt Option.isNone_iff_eq_none.mpr hnone)
  obtain ⟨hmem, rfl⟩ := State.transfer?_some ht
  obtain ⟨hcolon, hslot⟩ := pendingID_ok hid
  have hkind := ((hs.fits t hmem).role hfree (.hold hcall hgen hcolon) hslot).pending_of_hold
  rw [← posted_iff hids hfree hs.fits hname hresolve,
    ← voided_iff hids hfree hs.fits hname hresolve] at hresolved
  obtain ⟨hposted, hvoided⟩ := not_or.mp hresolved
  exact ⟨t, hmem, rfl, hkind, State.resolution_eq_none.mpr
    ⟨Bool.eq_false_iff.mpr hposted, Bool.eq_false_iff.mpr hvoided, hexpired⟩⟩

omit [DecidableEq ID] [Zero ID] in
theorem holdState_free {found : List (Transfer ID)}
    (h : holdState a.ids id postID voidID found = .free) : ∀ t ∈ found, t.id ≠ id := by
  rintro t ht rfl
  have hmem : a.ids.encodeID t.id ∈ found.map fun t => a.ids.encodeID t.id :=
    List.mem_map.mpr ⟨t, ht, rfl⟩
  unfold holdState at h
  split_ifs at h

end

theorem AdapterRun.approved_live (hids : a.ids.Lawful) (hfree : CollisionFree a calls)
    (hr : AdapterRun a calls tr c) (hcall : calls i = .authorize req)
    (hgen : gen < TigerBeetleAdapter.maxAuthGenerations)
    (hid : a.pendingID req.billingRef req.idempotencyKey gen = .ok id) {op : Op ID} {r : Res op}
    (reply : State.step op c.shared r = some s)
    (hby : ApprovedBy (a := a) p id (tr.own i ++ [⟨op, r⟩])) (hexpired : id ∉ c.shared.expired)
    (hsince : ∀ x ∈ tr.since i, ¬ Resolves id x.2) : s.Live id := by
  have hs := (AdapterRun.sound hids hfree hr).1
  generalize hh : tr.own i ++ [⟨op, r⟩] = h at hby
  cases hby with
  | read hresolve hlive =>
    cases (List.append_inj' hh rfl).2
    obtain ⟨rfl, rfl⟩ := State.step_ok reply
    exact hs.read_live hids hfree hcall hgen hid hresolve hlive hexpired
  | created hresolve hprobe hresults =>
    obtain ⟨hown, he⟩ := List.append_inj' hh rfl
    cases he
    rcases State.create_answered reply hresults with hcreate | ⟨rfl, stored, hstored, hrepeats⟩
    · exact hs.wellFormed.create_live rfl hcreate
    · obtain ⟨hmem, hstoredID⟩ := State.transfer?_some hstored
      have hkind : stored.kind = .pending := by
        have hsame : { stored with timestamp := 0 } = (a.pendingTransfer id p).transfer := by
          simpa [State.repeats, PendingTransfer.transfer] using hrepeats
        exact congrArg Transfer.kind hsame
      have hunresolved : ∀ kind, kind = .post ∨ kind = .void →
          c.shared.resolvedBy kind id = false := fun kind hk =>
        unresolved_since hr State.wellFormed_empty hown (by simp) (holdState_free hprobe) hsince hk
      exact ⟨stored, hmem, hstoredID, hkind, State.resolution_eq_none.mpr
        ⟨hunresolved .post (.inl rfl), hunresolved .void (.inr rfl), hexpired⟩⟩

/-- An approved hold is live at the call's last answer, and a record of it before its timeout
settles it unless it is released first. -/
theorem approved_hold_settles (hids : a.ids.Lawful) (hfree : CollisionFree a calls)
    (hd : Derivable a calls) (hrates : RatesBounded calls) (hr : AdapterRun a calls tr c)
    (hcall : calls i = .authorize req) {res : AuthorizeResult}
    (hlast : c.Finishes State.step i (.ok (.authorized res)) s) (happroved : res.approved = true)
    (hexpired : ∀ gen id, a.pendingID req.billingRef req.idempotencyKey gen = .ok id →
      id ∉ c.shared.expired) (hsince : ∀ x ∈ tr.since i, ∀ gen id,
      a.pendingID req.billingRef req.idempotencyKey gen = .ok id → ¬ Resolves id x.2) :
    ∃ id, res.billingID = a.ids.encodeID id ∧ s.Live id ∧ ∀ tr' c', Run State.step Expiry
          ⟨s, Function.update c.threads i (.ret (.ok (.authorized res)))⟩ tr' c' →
        id ∉ c'.shared.expired → c'.shared.voided id = false → ∀ quantity key,
        ∃ s', alone (a.record res.billingID quantity key) c'.shared = some (.ok (), s') ∧
          s'.posted id = true := by
  obtain ⟨op, r, reply, hfinished⟩ := hr.finish hlast
  have hret := hfinished.returned adapterCalls_spec (i := i) (Function.update_self ..)
  obtain ⟨p, gen, id, -, hgen, hid, rfl, hby⟩ := hret _ rfl req res hcall rfl happroved
  rw [Trace.own_snoc_self] at hby
  have hlive := AdapterRun.approved_live hids hfree hr hcall hgen hid reply hby
    (hexpired gen id hid) fun x hx => hsince x hx gen id hid
  refine ⟨id, rfl, hlive, ?_⟩
  intro tr' c' hr' hexpired' hvoided quantity key
  have hs := (AdapterRun.sound hids hfree (hfinished.trans hr')).1
  have hgrows : State.Grows s c'.shared := grows_of_run hr'
  obtain ⟨t, ht, rfl, hkind, -⟩ := hlive
  have hname := names_of_pendingID hcall hgen hid
  exact hs.record_settles hids hfree hd hrates hname (hgrows.mem ht) hkind hvoided hexpired'
    quantity key

omit [DecidableEq ι] in
theorem textAdapter_derivable : Derivable textAdapter calls := by
  rintro text ⟨i, ⟨slot, -, rfl⟩ | ⟨party, businessID, -, rfl⟩⟩
  · simp [textAdapter, textIds]
  · cases party <;> simp [textAdapter, textIds, Ids.Prefix.text]

def retriedCalls : Fin 4 → Call
  | 0 => .credit "agent" ⟨some 8, "USD"⟩ "credit"
  | 1 | 2 => .authorize twoUnits
  | 3 => .record (textIds.encodeID twoUnitsHold.id) 2 "record"

theorem retriedCalls_rates : RatesBounded retriedCalls := by
  intro i req hcall
  match i with
  | 0 | 3 => cases hcall
  | 1 | 2 =>
    cases hcall
    decide

def approvedAgain : Answer := .authorized (textAdapter.approved twoUnitsHold.id)

theorem approved_hold_settles_retried : ∃ tr c s id, AdapterRun textAdapter retriedCalls tr c ∧
      c.Finishes State.step 2 (.ok approvedAgain) s ∧ s.Live id ∧
      ∃ s', alone (textAdapter.record (textIds.encodeID twoUnitsHold.id) 2 "") s =
        some (.ok (), s') ∧ s'.posted id = true := by
  obtain ⟨tr, c, hr, hexpired, hsince, hreturns⟩ : ∃ tr c,
      AdapterRun textAdapter retriedCalls tr c ∧ c.shared.expired = [] ∧ tr.since 2 = [] ∧
      c.returns State.step ⟨2, State.answer⟩ approvedAgain
        (fun s => s.expired = [] ∧ ∀ t ∈ s.transfers, t.kind ≠ .void) = true :=
    Pool.exists_run (answered 4 0 ++ answered 5 1 ++ answered 3 2) (by decide +kernel)
  obtain ⟨s, hlast, htest⟩ := Pool.exists_finishes hreturns
  obtain ⟨hnone, hunvoided⟩ := of_decide_eq_true htest
  obtain ⟨id, -, hlive, hrecord⟩ := approved_hold_settles textIds_lawful textAdapter_collisionFree
    textAdapter_derivable retriedCalls_rates hr (i := 2) rfl hlast rfl (by simp [hexpired])
    (by simp [hsince])
  refine ⟨tr, c, s, id, hr, hlast, hlive, hrecord [] _ .start (by simp [hnone]) ?_ 2 ""⟩
  refine Bool.eq_false_iff.mpr fun hvoided => ?_
  obtain ⟨t, ht, hkind, -⟩ := State.resolvedBy_eq_true.mp hvoided
  exact hunvoided t ht hkind

/-- The hold has run into its timeout when it is approved again, and a record of it fails. -/
theorem approved_hold_expired : ∃ tr c s, AdapterRun textAdapter retriedCalls tr c ∧
      c.Finishes State.step 2 (.ok approvedAgain) s ∧ ¬ s.Live twoUnitsHold.id ∧
      ∃ s', alone (textAdapter.record (textIds.encodeID twoUnitsHold.id) 2 "") s =
        some (.error (.billing .unknownBillingID), s') := by
  obtain ⟨tr, c, hr, hreturns⟩ : ∃ tr c, AdapterRun textAdapter retriedCalls tr c ∧
      c.returns State.step ⟨2, State.answer⟩ approvedAgain (fun s => ¬ s.Live twoUnitsHold.id ∧
        (alone (textAdapter.record (textIds.encodeID twoUnitsHold.id) 2 "") s).map Prod.fst =
          some (.error (.billing .unknownBillingID))) = true :=
    Pool.exists_run_moved (answered 4 0 ++ answered 5 1) (answered 3 2)
      (fun s => s.expire twoUnitsHold.id) (by decide +kernel)
  obtain ⟨s, hlast, htest⟩ := Pool.exists_finishes hreturns
  obtain ⟨hlive, hrecord⟩ := of_decide_eq_true htest
  obtain ⟨x, hx, herror⟩ := Option.map_eq_some_iff.mp hrecord
  exact ⟨tr, c, s, hr, hlast, hlive, x.2, by rw [hx, ← herror]⟩

end

variable [DecidableEq ID] [Zero ID] {s' : State ID} {ref key : String} {gen' : Nat}

/-- The hold of this generation exists. -/
def Made (a : TigerBeetleAdapter ID) (s : State ID) (ref key : String) (gen : Nat) : Prop :=
  ∃ id, a.pendingID ref key gen = .ok id ∧ (s.transfer? id).isSome

instance : Decidable (Made a s ref key gen) :=
  match hid : a.pendingID ref key gen with
  | .ok id => decidable_of_iff ((s.transfer? id).isSome = true) (by simp [Made, hid])
  | .error e => isFalse (by simp [Made, hid])

/-- The hold of this generation exists and was neither posted nor voided; it may have timed out. -/
def Unresolved (a : TigerBeetleAdapter ID) (s : State ID) (ref key : String) (gen : Nat) : Prop :=
  ∃ id, a.pendingID ref key gen = .ok id ∧ (s.transfer? id).isSome ∧ s.posted id = false ∧
    s.voided id = false

def isProbe : Op ID → Bool
  | .lookupTransfers _ => true
  | _ => false

theorem initial_segment {P : Nat → Prop} {N : Nat}
    (hdown : ∀ m < N, P m → ∀ k < m, P k) : ∃ n ≤ N, ∀ m < N, P m ↔ m < n := by
  induction N with
  | zero => exact ⟨0, le_rfl, fun m hm => absurd hm (Nat.not_lt_zero m)⟩
  | succ N ih =>
    by_cases hN : P N
    · refine ⟨N + 1, le_rfl, fun m hm => ?_⟩
      constructor
      · exact fun _ => hm
      · intro _
        rcases Nat.lt_or_ge m N with hlt | hge
        · exact hdown N (Nat.lt_succ_self N) hN m hlt
        · have heq : m = N := by omega
          exact heq ▸ hN
    · obtain ⟨n, hn, hiff⟩ := ih fun m hm => hdown m (by omega)
      refine ⟨n, by omega, fun m hm => ?_⟩
      rcases Nat.lt_or_ge m N with hlt | hge
      · exact hiff m hlt
      · have heq : m = N := by omega
        subst heq
        constructor
        · exact fun hm => absurd hm hN
        · intro hlt
          omega

omit [Zero ID] in
theorem Passed.made (h : Passed a s ref key gen) : Made a s ref key gen := by
  obtain ⟨id, postID, voidID, hid, -, hhold, -⟩ := h
  exact ⟨id, hid, hhold⟩

theorem Sound.passed (hs : Sound a calls s) (hcall : calls i = .authorize req)
    (hgen : gen < TigerBeetleAdapter.maxAuthGenerations)
    (hmade : Made a s req.billingRef req.idempotencyKey gen) (hlt : gen' < gen) :
    Passed a s req.billingRef req.idempotencyKey gen' := by
  obtain ⟨id, hid, hhold⟩ := hmade
  obtain ⟨t, ht⟩ := Option.isSome_iff_exists.mp hhold
  obtain ⟨hmem, rfl⟩ := State.transfer?_some ht
  exact hs.probed t hmem i req gen hcall hgen hid gen' hlt

theorem Sound.passed_resolved (hs : Sound a calls s) (hids : a.ids.Lawful)
    (hfree : CollisionFree a calls) (hcall : calls i = .authorize req)
    (hgen : gen < TigerBeetleAdapter.maxAuthGenerations)
    (hpassed : Passed a s req.billingRef req.idempotencyKey gen) :
    ¬ Unresolved a s req.billingRef req.idempotencyKey gen := by
  rintro ⟨id, hid, -, hposted, hvoided⟩
  obtain ⟨id', postID, voidID, hid', hresolve, -, hresolved⟩ := hpassed
  obtain rfl := Except.ok.inj (hid.symm.trans hid')
  have hname := names_of_pendingID hcall hgen hid
  have hpost := posted_iff hids hfree hs.fits hname hresolve
  have hvoid := voided_iff hids hfree hs.fits hname hresolve
  rw [hposted] at hpost
  rw [hvoided] at hvoid
  rcases hresolved with h | h
  · have hh := hpost.mpr h
    cases hh
  · have hh := hvoid.mpr h
    cases hh

omit [Zero ID] in
theorem Unresolved.made (h : Unresolved a s ref key gen) : Made a s ref key gen := by
  obtain ⟨id, hid, hhold, -, -⟩ := h
  exact ⟨id, hid, hhold⟩

theorem Sound.unresolved_unique (hs : Sound a calls s) (hids : a.ids.Lawful)
    (hfree : CollisionFree a calls) (hcall : calls i = .authorize req)
    (hgen : gen < TigerBeetleAdapter.maxAuthGenerations)
    (hgen' : gen' < TigerBeetleAdapter.maxAuthGenerations)
    (h : Unresolved a s req.billingRef req.idempotencyKey gen)
    (h' : Unresolved a s req.billingRef req.idempotencyKey gen') : gen = gen' := by
  rcases Nat.lt_trichotomy gen gen' with hlt | heq | hlt
  · have hpassed := hs.passed hcall hgen' h'.made hlt
    exact absurd h (hs.passed_resolved hids hfree hcall hgen hpassed)
  · exact heq
  · have hpassed := hs.passed hcall hgen h.made hlt
    exact absurd h' (hs.passed_resolved hids hfree hcall hgen' hpassed)

section

abbrev probes {α : Type} (x : Tb ID α) (s : State ID) : Nat :=
  (trail State.step State.answer x.run s).countP isProbe

variable {context : String} {op : Op ID} {pendingID agentAcct : ID} {n : Nat}

theorem call_trail : trail State.step State.answer (TigerBeetle.call context op).run s = [op] := by
  change op :: ((State.step op s (State.answer op s)).map _).getD [] = [op]
  rw [State.step_answer]
  rfl

omit [DecidableEq ID] [Zero ID] in
theorem call_only {P : Op ID → Prop} (h : P op) : Only P (TigerBeetle.call context op).run := by
  refine .ask h fun r => ?_
  cases r with
  | ok v => exact .pure
  | err text unavailable applied => exact .throw

theorem classifyHold_probes {op : String} : probes (a.classifyHold pendingID op) s ≤ 1 := by
  have hset : ∀ wanted, probes (lookupTransferSet a.ids wanted) s ≤ 1 + 0 := by
    intro wanted
    refine trail_seq_le ?_ fun _ _ _ => Nat.le_refl 0
    rw [call_trail]
    exact Nat.le_refl 1
  have hclassify : ∀ postID voidID,
      probes (TigerBeetle.classifyHold a.ids pendingID postID voidID) s ≤ 1 + 0 := by
    intro postID voidID
    refine trail_seq_le (hset _) fun found t _ => ?_
    split_ifs <;> exact Nat.le_refl 0
  refine trail_orThrow_le fun ids _ => trail_seq_le (m := 1) (n := 0) ?_ fun _ _ _ => Nat.le_refl 0
  rw [trail_rethrow]
  exact hclassify ids.1 ids.2

theorem createHold_probes : probes (a.createHold pendingID p) s ≤ 0 := by
  have hcreate : Only (fun op => isProbe op = false)
      (createPending (a.pendingTransfer pendingID p)).run := by
    unfold createPending
    split_ifs
    · exact .throw
    · refine .seq (call_only rfl) fun statuses => ?_
      cases statuses with
      | nil => exact .pure
      | cons status rest => exact .orThrow
  refine Only.trail_count (Only.seq (.rethrow hcreate) fun out => ?_) fun _ h => h
  cases out <;> exact .pure

theorem reserveFrom_probes (hids : a.ids.Lawful) {left : Nat}
    (hbound : gen + left ≤ TigerBeetleAdapter.maxAuthGenerations)
    (hmade : ∀ g < TigerBeetleAdapter.maxAuthGenerations,
      Made a s p.billingRef p.authKey g → g < n) :
    probes (a.reserveFrom p left gen) s ≤ 1 + (n - gen) := by
  induction left generalizing gen with
  | zero => exact Nat.zero_le _
  | succ left ih =>
    refine trail_orThrow_le fun id hid => trail_seq_le classifyHold_probes fun hold t ht => ?_
    cases hresolve : a.resolveIDs id with
    | error e =>
      have herror : alone (a.classifyHold id "authorize") s = some (.error e, s) := by
        simp only [TigerBeetleAdapter.classifyHold, hresolve]
        rfl
      have hh := herror.symm.trans ht
      cases hh
    | ok ids =>
      have heval := @classifyHold_eval _ a s _ _ id ids.1 ids.2 hids "authorize" hresolve
      have hsame := Option.some.inj (heval.symm.trans ht)
      obtain ⟨hhold, rfl⟩ := Prod.mk.inj hsame
      cases hhold
      split
      · exact Nat.zero_le _
      · exact createHold_probes.trans (Nat.zero_le _)
      next hstate =>
        have hfound : (s.transfer? id).isSome := by
          by_contra hnone
          rw [if_pos (by simpa using hnone)] at hstate
          cases hstate
        have hlt := hmade gen (by omega) ⟨id, hid, hfound⟩
        exact (ih (by omega)).trans (by omega)

def Aside (op : Op ID) : Prop :=
  isProbe op = false ∧ ∀ s : State ID, (s.effect op).transfers = s.transfers

theorem ensureAccounts_aside {owner : ID} : Only Aside (a.ensureAccounts agentAcct owner).run := by
  have hensure : ∀ (id : ID) (code : AccountCode) (label : String),
      Only Aside (a.ensureAccount id code label).run := by
    intro id code label
    refine .rethrow (.seq (call_only ⟨rfl, fun s => (State.createAccount_transfers _).1⟩) ?_)
    intro status
    cases status with
    | created | «exists» => exact .pure
    | existsWithDifferent => exact .throw
  exact .seq (hensure _ _ _) fun _ => hensure _ _ _

theorem checkBalance_aside {minor : Int} :
    Only Aside (TigerBeetleAdapter.checkBalance agentAcct minor).run :=
  .seq (.rethrow (call_only ⟨rfl, fun _ => rfl⟩)) fun _ => .pure

theorem transfers_of_aside {α : Type} {x : Tb ID α} (hx : Only Aside x.run) {r : Except TbError α}
    (h : alone x s = some (r, s')) : s'.transfers = s.transfers := by
  refine hx.keeps (I := fun t => t.transfers = s.transfers) ?_ h rfl
  intro op t t' hop ht hstep
  rw [State.step_answer] at hstep
  cases hstep
  exact (hop.2 t).trans ht

omit [Zero ID] in
theorem Made.congr (h : Made a s' ref key gen) (htransfers : s'.transfers = s.transfers) :
    Made a s ref key gen := by
  obtain ⟨id, hid, hhold⟩ := h
  refine ⟨id, hid, ?_⟩
  rw [State.transfer?, ← htransfers]
  exact hhold

theorem authorize_probes (hids : a.ids.Lawful) (hmade : ∀ g < TigerBeetleAdapter.maxAuthGenerations,
      Made a s req.billingRef req.idempotencyKey g → g < n) :
    probes (a.authorize req) s ≤ n + 1 := by
  rw [probes, TigerBeetleAdapter.authorize, trail_rethrow]
  cases a.refusal req with
  | some denial => exact Nat.zero_le _
  | none =>
    refine trail_orThrow_le fun p hp => ?_
    obtain ⟨href, hkey, -, -, -⟩ := holdParams_ok hp
    have hzero : 0 + (0 + (1 + n)) = n + 1 := by omega
    rw [← hzero]
    refine trail_seq_le (ensureAccounts_aside.trail_count fun _ h => h.1) fun _ t ht => ?_
    refine trail_seq_le (checkBalance_aside.trail_count fun _ h => h.1) fun denial t' ht' => ?_
    cases denial with
    | some denial => exact Nat.zero_le _
    | none =>
      have htransfers : t'.transfers = s.transfers :=
        (transfers_of_aside checkBalance_aside ht').trans
          (transfers_of_aside ensureAccounts_aside ht)
      have hreserve : probes (a.reserve p) t' ≤ 1 + (n - 0) := by
        refine reserveFrom_probes hids (by omega) fun g hg hh => ?_
        rw [href, hkey] at hh
        exact hmade g hg (hh.congr htransfers)
      exact hreserve

end

variable [DecidableEq ι]

/-- In every run at most one generation of a hold is unresolved at any time, the generations
that have been made are the first so many, and an authorize that nobody interferes with ends
after it has probed these and at most one more. -/
theorem generations_in_order (hids : a.ids.Lawful) (hfree : CollisionFree a calls)
    (hr : AdapterRun a calls tr c) {req : AuthorizeRequest} (hcall : calls i = .authorize req) :
    (∀ gen < TigerBeetleAdapter.maxAuthGenerations, ∀ gen' < TigerBeetleAdapter.maxAuthGenerations,
        Unresolved a c.shared req.billingRef req.idempotencyKey gen →
        Unresolved a c.shared req.billingRef req.idempotencyKey gen' → gen = gen') ∧
      ∃ n ≤ TigerBeetleAdapter.maxAuthGenerations, (∀ gen < TigerBeetleAdapter.maxAuthGenerations,
          Made a c.shared req.billingRef req.idempotencyKey gen ↔ gen < n) ∧
        ∀ again : AuthorizeRequest, again.billingRef = req.billingRef →
          again.idempotencyKey = req.idempotencyKey → (alone (a.authorize again) c.shared).isSome ∧
            probes (a.authorize again) c.shared ≤ n + 1 := by
  have hs := (AdapterRun.sound hids hfree hr).1
  refine ⟨fun gen hgen gen' hgen' => hs.unresolved_unique hids hfree hcall hgen hgen', ?_⟩
  obtain ⟨n, hn, hiff⟩ := initial_segment (N := TigerBeetleAdapter.maxAuthGenerations)
    (P := Made a c.shared req.billingRef req.idempotencyKey)
    fun gen hgen hmade g hlt => (hs.passed hcall hgen hmade hlt).made
  refine ⟨n, hn, hiff, fun again href hkey => ⟨eval_isSome (fun op s => by simp) _ _, ?_⟩⟩
  refine authorize_probes hids fun g hg hmade => (hiff g hg).mp ?_
  rw [href, hkey] at hmade
  exact hmade

def renewedCalls : Fin 4 → Call
  | 0 => .credit "agent" ⟨some 4, "USD"⟩ "credit"
  | 1 | 3 => .authorize twoUnits
  | 2 => .release (textIds.encodeID twoUnitsHold.id) "release"

theorem generations_in_order_renewed :
    ∃ tr c n, AdapterRun textAdapter renewedCalls tr c ∧ Made textAdapter c.shared "agent" "key" 1 ∧
      (∀ gen < TigerBeetleAdapter.maxAuthGenerations,
        Made textAdapter c.shared "agent" "key" gen ↔ gen < n) ∧
      probes (textAdapter.authorize twoUnits) c.shared ≤ n + 1 := by
  obtain ⟨tr, c, hr, hmade⟩ : ∃ tr c, AdapterRun textAdapter renewedCalls tr c ∧
      Made textAdapter c.shared "agent" "key" 1 :=
    Pool.exists_run (answered 4 0 ++ answered 5 1 ++ answered 1 2 ++ answered 6 3)
      (by decide +kernel)
  have hcall : renewedCalls 1 = .authorize twoUnits := rfl
  obtain ⟨-, n, -, hiff, hagain⟩ :=
    generations_in_order textIds_lawful textAdapter_collisionFree hr hcall
  exact ⟨tr, c, n, hr, hmade, hiff, (hagain twoUnits rfl rfl).2⟩

end Ramp.Billing.TigerBeetle
