import Ramp.Billing.TigerBeetle.Invariant

/-! Calls that run alone on a ledger that is up. A record of a live hold settles it. An authorize
that is issued again finds the live hold, but the balance is checked before, against an account
on which the hold itself is already reserved. -/

namespace Ramp.Billing.TigerBeetle

open Ramp.Ledger Prog

variable {ID ι : Type}
  {a : TigerBeetleAdapter ID} {calls : ι → Call} {s : State ID} {i : ι} {t : Transfer ID}

section

variable [DecidableEq ID] [Zero ID] {id postID voidID : ID} {s' : State ID}

/-- Runs a call to its end with nothing else happening, on a ledger that answers. -/
abbrev alone {α : Type} (x : Tb ID α) (s : State ID) : Option (Except TbError α × State ID) :=
  eval State.step State.answer x.run s

variable {context : String}

theorem call_eval {op : Op ID} :
    alone (TigerBeetle.call context op) s = some (.ok (s.value op), s.effect op) := by
  change (State.step op s (State.answer op s)).bind _ = _
  rw [State.step_answer]
  rfl

theorem lookupTransfer_eval : alone (rethrow (TbError.wrapped context) (lookupTransfer id)) s =
      some (.ok (s.transfer? id), s) := by
  have hlookup : alone (lookupTransfer id) s = some (.ok (s.transfer? id), s) := by
    refine (eval_seq_ok call_eval).trans ?_
    cases h : s.transfer? id <;> simp [State.value, h, State.effect] <;> rfl
  exact eval_rethrow hlookup

theorem holdState_lookup (hids : a.ids.Lawful) :
    holdState a.ids id postID voidID ([id, postID, voidID].filterMap s.transfer?) =
      if (s.transfer? id).isNone then .free
      else if (s.transfer? postID).isSome ∨ (s.transfer? voidID).isSome then .resolved
      else .live := by
  have hmem : ∀ x ∈ [id, postID, voidID],
      a.ids.encodeID x ∈ ([id, postID, voidID].filterMap s.transfer?).map
        (fun t => a.ids.encodeID t.id) ↔ (s.transfer? x).isSome := by
    intro x hx
    constructor
    · intro h
      obtain ⟨t, ht, htx⟩ := List.mem_map.mp h
      obtain ⟨y, -, hy⟩ := List.mem_filterMap.mp ht
      have hyx : y = x := (State.transfer?_some hy).2.symm.trans (encodeID_injective hids htx)
      rw [← hyx, hy]
      rfl
    · intro h
      obtain ⟨t, ht⟩ := Option.isSome_iff_exists.mp h
      refine List.mem_map.mpr ⟨t, List.mem_filterMap.mpr ⟨x, hx, ht⟩, ?_⟩
      rw [(State.transfer?_some ht).2]
  simp only [holdState, hmem id (by simp), hmem postID (by simp), hmem voidID (by simp)]
  cases s.transfer? id <;> cases s.transfer? postID <;> cases s.transfer? voidID <;> simp

theorem classifyHold_eval (hids : a.ids.Lawful) {op : String}
    (hresolve : a.resolveIDs id = .ok (postID, voidID)) : alone (a.classifyHold id op) s =
      some (.ok (if (s.transfer? id).isNone then .free
        else if (s.transfer? postID).isSome ∨ (s.transfer? voidID).isSome then .resolved
        else .live, postID), s) := by
  rw [← holdState_lookup hids]
  have hset : alone (lookupTransferSet a.ids [id, postID, voidID]) s =
      some (.ok (([id, postID, voidID].filterMap s.transfer?).map fun t => a.ids.encodeID t.id),
        s) := eval_seq_ok call_eval
  have hclassify : alone (TigerBeetle.classifyHold a.ids id postID voidID) s =
      some (.ok (holdState a.ids id postID voidID ([id, postID, voidID].filterMap s.transfer?)),
        s) := by
    refine (eval_seq_ok hset).trans ?_
    unfold holdState
    split_ifs <;> rfl
  refine (eval_seq_ok (eval_orThrow hresolve)).trans ?_
  exact eval_seq_ok (eval_rethrow hclassify)

variable {platformID : ID}

/-- No text is digested to a reserved id. -/
def Derivable (a : TigerBeetleAdapter ID) (calls : ι → Call) : Prop :=
  ∀ text ∈ texts a calls, a.ids.reserved (a.ids.sha256 text) = false

def RatesBounded (calls : ι → Call) : Prop :=
  ∀ i req, calls i = .authorize req → req.feeRateBps ≤ 10000

omit [DecidableEq ID] [Zero ID] in
theorem Derivable.slotID (hd : Derivable a calls) {slot : Slot} (hused : (calls i).Uses a slot)
    (hne : slot.text ≠ "") (context : String) : ∃ x, a.slotID context slot = .ok x := by
  have hreserved := hd _ ⟨i, .inl ⟨slot, hused, rfl⟩⟩
  have hempty : ¬ a.idNS ++ slot.text = "" := append_ne_empty hne
  simp [TigerBeetleAdapter.slotID, Ids.transferID, Ids.reduce, hempty, hreserved, Except.mapError]

omit [DecidableEq ID] [Zero ID] in
theorem Derivable.platformFeeAccount (hd : Derivable a calls) (i : ι) :
    ∃ x, a.platformFeeAccount = .ok x := by
  have hreserved := hd _ ⟨i, .inr ⟨.platform, "fee", .fee, rfl⟩⟩
  have hempty : ¬ a.idNS ++ "fee" = "" := append_ne_empty (by decide)
  simp [TigerBeetleAdapter.platformFeeAccount, TigerBeetleAdapter.accountID, Ids.accountID,
    Ids.reduce, hempty, hreserved, Except.mapError]

variable {info : Transfer ID}

theorem Sound.post_created (hs : Sound a calls s) (hids : a.ids.Lawful)
    (hfree : CollisionFree a calls) (hname : (calls i).Names a id)
    (hresolve : a.resolveIDs id = .ok (postID, voidID))
    (hinfo : s.transfer? id = some info) (hkind : info.kind = .pending)
    (hres : s.resolution id = none) (htid : t.id = postID) (htkind : t.kind = .post)
    (htpending : t.pendingID = id) (hamount : State.resolvedAmount t info ≤ info.amount) :
    ∃ s', s.create t = .ok s' ∧ s'.posted id = true := by
  have hposted := (State.resolution_eq_none.mp hres).1
  have hnew : s.transfer? t.id = none := by
    rw [htid, ← Option.not_isSome_iff_eq_none, ← posted_iff hids hfree hs.fits hname hresolve,
      hposted]
    simp
  have hunfailed : t.id ∉ s.failed :=
    hs.unfailed i id _ hname (.inl (htid ▸ (resolveIDs_ok hresolve).1))
  have hcheck : s.check t = .ok (s.inherited t info) := by
    rw [State.check, htkind]
    rw [State.checkPending, htpending, hinfo]
    dsimp only
    rw [if_neg (not_not.mpr hkind), if_neg (not_lt.mpr hamount), hres]
  refine ⟨_, State.create_of_check hnew hunfailed hcheck, ?_⟩
  exact State.resolvedBy_eq_true.mpr
    ⟨_, List.mem_append_right _ (List.mem_singleton_self _), htkind, htpending⟩

theorem Sound.platform_account (hs : Sound a calls s) (hfree : CollisionFree a calls) (i : ι)
    (hplatform : a.platformFeeAccount = .ok platformID) {acct : Account ID}
    (hacct : s.account? platformID = some acct) : acct = a.account platformID .platform := by
  obtain ⟨j, p, businessID, hopens, hid, rfl⟩ := hs.accounts platformID acct hacct
  have hhash : ∀ {p : Ids.Prefix} {b : String} {x : ID}, a.accountID p b = .ok x →
      a.ids.sha256 (p.text ++ (a.idNS ++ b)) = x := by
    intro p b x hx
    have hid := Except.mapError_eq_ok.mp hx
    unfold Ids.accountID Ids.reduce at hid
    split_ifs at hid
    exact Except.ok.inj hid
  have htext := hfree ⟨j, .inr ⟨p, businessID, hopens, rfl⟩⟩ ⟨i, .inr ⟨.platform, "fee", .fee, rfl⟩⟩
    ((hhash hid).trans (hhash hplatform).symm)
  have hlist := congrArg String.toList htext
  cases p with
  | platform => rfl
  | agent => simp [Ids.Prefix.text] at hlist
  | owner => simp [Ids.Prefix.text] at hlist

theorem resolve_eval (h : s.create t = .ok s') :
    alone (rethrow (TbError.wrapped context) (resolve t) >>= TigerBeetleAdapter.resolveErr) s =
      some (.ok (), s') := by
  obtain ⟨hvalue, heffect⟩ := State.answer_of_chain (State.chain_singleton.mpr h)
  have hcall : alone (resolve t) s = some (.ok .applied, s') := by
    refine (eval_seq_ok call_eval).trans ?_
    rw [hvalue, heffect]
    rfl
  exact eval_seq_ok (eval_rethrow hcall)

theorem submitLinked_eval {legs : List (Leg ID)} {batch : List (Transfer ID)} {e : TbError}
    (hbatch : buildLinkedBatch legs = .ok batch) (h : s.chain batch = .ok s') :
    alone (TigerBeetleAdapter.submitLinked legs >>= TigerBeetleAdapter.linkedErr e) s =
      some (.ok (), s') := by
  obtain ⟨hvalue, heffect⟩ := State.answer_of_chain h
  have hcreated : ∀ (l : List (Transfer ID)) i,
      linkedOutcomeFrom i (l.map fun _ => Status.created) = .ok .applied := by
    intro l
    induction l with
    | nil => exact fun _ => rfl
    | cons t l ih => exact fun i => ih (i + 1)
  have hcall : alone (createLinked legs) s = some (.ok .applied, s') := by
    refine (eval_seq_ok (eval_orThrow hbatch)).trans ((eval_seq_ok call_eval).trans ?_)
    rw [hvalue, heffect]
    exact eval_orThrow (hcreated batch 0)
  exact eval_seq_ok (eval_rethrow hcall)

theorem Sound.fee_bounds (hs : Sound a calls s) (hids : a.ids.Lawful) (hrates : RatesBounded calls)
    (hmem : info ∈ s.transfers) (hkind : info.kind = .pending) :
    0 ≤ feeMinor info.amount (a.rateBps info.userData128) ∧
      feeMinor info.amount (a.rateBps info.userData128) ≤ info.amount := by
  have hint : RatesInt64 calls := fun i req hcall => by
    have hle := hrates i req hcall
    omega
  obtain ⟨j, req, hcall, hrate⟩ := hs.rate hids hint hmem hkind
  have hbps := hrates j req hcall
  rw [hrate]
  have hmul : (info.amount : Int) * req.feeRateBps.toNat ≤ info.amount * 10000 :=
    Int.mul_le_mul_of_nonneg_left (by omega) (by omega)
  unfold feeMinor
  constructor
  · exact Int.ediv_nonneg (by positivity) (by decide)
  · omega

theorem Sound.platform_opened (hs : Sound a calls s) (hids : a.ids.Lawful)
    (hfree : CollisionFree a calls) (i : ι) (hplatform : a.platformFeeAccount = .ok platformID)
    (label : String) :
    alone (a.ensureAccount platformID .platform label) s =
        some (.ok (), (s.createAccount (a.account platformID .platform)).2) ∧
      Sound a calls (s.createAccount (a.account platformID .platform)).2 ∧
      (s.createAccount (a.account platformID .platform)).2.transfers = s.transfers ∧
      (s.createAccount (a.account platformID .platform)).2.expired = s.expired ∧
      (s.createAccount (a.account platformID .platform)).2.account? platformID =
        some (a.account platformID .platform) := by
  have hstatus : (s.createAccount (a.account platformID .platform)).1 ≠ .existsWithDifferent := by
    unfold State.createAccount
    split
    · simp
    next stored hstored =>
      have hsame := hs.platform_account hfree i hplatform hstored
      rw [if_pos hsame]
      simp
  have hconduct : Conduct a (calls i) [] (.createAccount (a.account platformID .platform)) :=
    ⟨.platform, "fee", .fee, hplatform, rfl⟩
  have hsound := hs.step hids hfree hconduct (by simp) (State.step_answer _ s)
  obtain ⟨htransfers, hexpired⟩ := @State.createAccount_transfers _ _ s
    (a.account platformID .platform)
  refine ⟨?_, hsound, htransfers, hexpired, State.createAccount_shows hstatus⟩
  have hcall : alone (TigerBeetle.ensureAccount (a.account platformID .platform)) s =
      some (.ok (), (s.createAccount (a.account platformID .platform)).2) := by
    refine (eval_seq_ok call_eval).trans ?_
    cases hcase : s.value (.createAccount (a.account platformID .platform)) with
    | created => rfl
    | «exists» => rfl
    | existsWithDifferent => exact absurd hcase hstatus
  exact eval_rethrow hcall

theorem buildLinkedBatch_pair {leg leg' : Leg ID} (h : 0 ≤ leg.amount) (h' : 0 ≤ leg'.amount) :
    buildLinkedBatch [leg, leg'] = .ok [leg.transfer true, leg'.transfer false] := by
  change [(leg, 0), (leg', 1)].mapM (fun x => buildLeg 1 x.1 x.2) = _
  have hfirst : buildLeg 1 leg 0 = .ok (leg.transfer true) := by simp [buildLeg, not_lt.mpr h]
  have hsecond : buildLeg 1 leg' 1 = .ok (leg'.transfer false) := by simp [buildLeg, not_lt.mpr h']
  rw [List.mapM_cons, List.mapM_cons, hfirst, hsecond]
  rfl

section

variable (hs : Sound a calls s) (hids : a.ids.Lawful) (hfree : CollisionFree a calls)
  (hname : (calls i).Names a id) (hresolve : a.resolveIDs id = .ok (postID, voidID))
include hs hids hfree hname hresolve

theorem Sound.split_created (hinfo : s.transfer? id = some info)
    (hkind : info.kind = .pending) (hres : s.resolution id = none) {feeID : ID}
    (hfeeID : a.feeLegID id = .ok feeID)
    (hacct : s.account? platformID = some (a.account platformID .platform)) {fee : Int}
    (hpos : 0 ≤ fee) (hle : fee ≤ info.amount) :
    ∃ s', s.chain [(TigerBeetleAdapter.settleNetLeg id postID (info.amount - fee)).transfer true,
      (a.settleFeeLeg feeID info.debit platformID fee).transfer false] = .ok s' ∧
      s'.posted id = true := by
  have hfeeSlot : SlotIs a (.fee (a.ids.encodeID id)) feeID := slotIs_of_slotID a hfeeID
  have hamount := (hs.fits info (State.transfer?_some hinfo).1).pending_amount hkind
  have hresolved := resolvedAmount_net id postID hpos hle hamount
  obtain ⟨s₁, hnet, hposted⟩ := hs.post_created (t := netTransfer id postID (info.amount - fee))
    hids hfree hname hresolve hinfo hkind hres rfl rfl rfl (by omega)
  obtain ⟨u, hu⟩ := hs.fee_leg feeID hinfo hacct hpos hle hnet
  have hold : s.transfer? feeID = none := by
    rw [State.transfer?_eq_none]
    rintro t ht rfl
    have hfee := hs.fees t ht i id hname hfeeSlot
    rw [(State.resolution_eq_none.mp hres).1] at hfee
    cases hfee
  have hne : postID ≠ feeID := by
    rintro rfl
    have hsame := slot_unique hfree (.post hids hname) (.fee hids hname) (resolveIDs_ok hresolve).1
      hfeeSlot
    cases hsame
  obtain ⟨-, v, hv, rfl⟩ := State.create_ok hnet
  have hvid : v.id = postID := (State.check_ok hv).1.id
  have hnew : State.transfer? { s with transfers := s.transfers ++ [v] } feeID = none := by
    rw [State.transfer?] at hold ⊢
    simp [List.find?_append, hold, hvid, hne]
  have hunfailed := hs.unfailed i id feeID hname (.inr hfeeSlot)
  have hleg : ((a.settleFeeLeg feeID info.debit platformID fee).transfer false).id = feeID := by
    rw [Leg.transfer_plain rfl]
    rfl
  rw [settleNetLeg_transfer (hs.ne_zero hids hinfo)]
  have hfee := State.create_of_check (hleg.symm ▸ hnew) (hleg.symm ▸ hunfailed) hu
  refine ⟨_, State.chain_pair.mpr ⟨_, hnet, hfee⟩, ?_⟩
  exact (State.create_grows (.refl _) hfee).resolvedBy hposted

theorem Sound.live_lookup (hlive : s.Live id) :
    (s.transfer? id).isSome ∧ s.transfer? postID = none ∧ s.transfer? voidID = none := by
  obtain ⟨info, hmem, rfl, -, hres⟩ := hlive
  obtain ⟨hposted, hvoided, -⟩ := State.resolution_eq_none.mp hres
  refine ⟨State.transfer?_isSome hmem, ?_, ?_⟩
  · rw [← Option.not_isSome_iff_eq_none, ← posted_iff hids hfree hs.fits hname hresolve, hposted]
    simp
  · rw [← Option.not_isSome_iff_eq_none, ← voided_iff hids hfree hs.fits hname hresolve, hvoided]
    simp

end

/-- What settles a hold: a post of the whole amount if there is no fee, and otherwise the post
of the rest with the fee beside it, once the platform has its account. -/
inductive Settles (a : TigerBeetleAdapter ID) (info : Transfer ID) (postID : ID) (s : State ID) :
    State ID → Prop
  | whole {s' : State ID} (hfee : feeMinor info.amount (a.rateBps info.userData128) = 0)
    (hpost : s.create (resolvingTransfer .post amountMax postID info.id) = .ok s') :
    Settles a info postID s s'
  | split {feeID platformID : ID} {s' : State ID} {fee : Int}
    (hfee : feeMinor info.amount (a.rateBps info.userData128) = fee)
    (hplatform : a.platformFeeAccount = .ok platformID) (hfeeID : a.feeLegID info.id = .ok feeID)
    (hchain : (s.createAccount (a.account platformID .platform)).2.chain
      [(TigerBeetleAdapter.settleNetLeg info.id postID (info.amount - fee)).transfer true,
        (a.settleFeeLeg feeID info.debit platformID fee).transfer false] = .ok s') :
    Settles a info postID s s'

theorem Sound.settleSplit_eval (hs : Sound a calls s) (hids : a.ids.Lawful)
    (hfree : CollisionFree a calls) (hd : Derivable a calls)
    (hname : (calls i).Names a info.id) (hresolve : a.resolveIDs info.id = .ok (postID, voidID))
    (hmem : info ∈ s.transfers) (hkind : info.kind = .pending) (hres : s.resolution info.id = none)
    (hpos : 0 ≤ feeMinor info.amount (a.rateBps info.userData128))
    (hle : feeMinor info.amount (a.rateBps info.userData128) ≤ info.amount) :
    ∃ s', alone (a.settleSplit info.id postID) s = some (.ok (), s') ∧ s'.posted info.id = true ∧
      Settles a info postID s s' := by
  have hinfo := hs.wellFormed.transfer? hmem
  by_cases hfee : feeMinor info.amount (a.rateBps info.userData128) = 0
  · have hamount : State.resolvedAmount (resolvingTransfer .post amountMax postID info.id) info =
        info.amount := by simp [State.resolvedAmount, resolvingTransfer]
    obtain ⟨s', hpost, hposted⟩ :=
      hs.post_created hids hfree hname hresolve hinfo hkind hres rfl rfl rfl hamount.le
    refine ⟨s', (eval_seq_ok lookupTransfer_eval).trans ?_, hposted, .whole hfee hpost⟩
    rw [hinfo]
    dsimp only
    rw [if_pos hfee]
    exact resolve_eval hpost
  · obtain ⟨platformID, hplatform⟩ := hd.platformFeeAccount i
    obtain ⟨feeID, hfeeID⟩ : ∃ feeID, a.feeLegID info.id = .ok feeID :=
      hd.slotID (.fee hname) (by simp [Slot.text]) "billing: derive fee leg id"
    obtain ⟨hopened, hs₁, htransfers, hexpired, hacct⟩ :=
      hs.platform_opened hids hfree i hplatform "platform fee"
    have hinfo₁ : State.transfer? (s.createAccount (a.account platformID .platform)).2 info.id =
        some info := by
      rw [State.transfer?, htransfers]
      exact hinfo
    have hres₁ := (State.resolution_congr htransfers hexpired info.id).trans hres
    obtain ⟨s', hchain, hposted⟩ := hs₁.split_created hids hfree hname hresolve hinfo₁ hkind hres₁
      hfeeID hacct hpos hle
    refine ⟨s', (eval_seq_ok lookupTransfer_eval).trans ?_, hposted,
      .split rfl hplatform hfeeID hchain⟩
    rw [hinfo]
    dsimp only
    rw [if_neg hfee]
    refine (eval_seq_ok (eval_orThrow hplatform)).trans ((eval_seq_ok hopened).trans ?_)
    refine (eval_seq_ok (eval_orThrow hfeeID)).trans ?_
    exact submitLinked_eval (buildLinkedBatch_pair (Int.sub_nonneg_of_le hle) hpos) hchain

section

variable {info : Transfer ID} (quantity : Int) (key : String)

theorem record_posted_eval (hids : a.ids.Lawful)
    (hresolve : a.resolveIDs info.id = .ok (postID, voidID))
    (hhold : (s.transfer? info.id).isSome) (hpost : (s.transfer? postID).isSome) :
    alone (a.record (a.ids.encodeID info.id) quantity key) s = some (.ok (), s) := by
  have hclassify := @classifyHold_eval _ a s _ _ info.id postID voidID hids "record" hresolve
  rw [if_neg (by simp [Option.isSome_iff_ne_none.mp hhold]), if_pos (.inl hpost)] at hclassify
  refine eval_rethrow (r := .ok ()) ?_
  refine (eval_seq_ok (eval_orThrow (hids.decode_encode info.id))).trans ?_
  refine (eval_seq_ok hclassify).trans ((eval_seq_ok lookupTransfer_eval).trans ?_)
  rw [if_pos hpost]
  rfl

theorem Sound.record_live_eval (hs : Sound a calls s) (hids : a.ids.Lawful)
    (hfree : CollisionFree a calls) (hname : (calls i).Names a info.id)
    (hresolve : a.resolveIDs info.id = .ok (postID, voidID)) (hlive : s.Live info.id)
    (hsettle : alone (a.settleSplit info.id postID) s = some (.ok (), s')) :
    alone (a.record (a.ids.encodeID info.id) quantity key) s = some (.ok (), s') := by
  obtain ⟨hhold, hpost, hvoid⟩ := hs.live_lookup hids hfree hname hresolve hlive
  have hclassify := @classifyHold_eval _ a s _ _ info.id postID voidID hids "record" hresolve
  rw [if_neg (by simp [Option.isSome_iff_ne_none.mp hhold]),
    if_neg (by simp [hpost, hvoid])] at hclassify
  refine eval_rethrow (r := .ok ()) ?_
  refine (eval_seq_ok (eval_orThrow (hids.decode_encode info.id))).trans ?_
  exact (eval_seq_ok hclassify).trans hsettle

end

theorem Sound.record_settles (hs : Sound a calls s) (hids : a.ids.Lawful)
    (hfree : CollisionFree a calls) (hd : Derivable a calls) (hrates : RatesBounded calls)
    (hname : (calls i).Names a info.id) (hmem : info ∈ s.transfers)
    (hkind : info.kind = .pending) (hvoided : s.voided info.id = false)
    (hexpired : info.id ∉ s.expired) (quantity : Int) (key : String) :
    ∃ s', alone (a.record (a.ids.encodeID info.id) quantity key) s = some (.ok (), s') ∧
      s'.posted info.id = true := by
  obtain ⟨postID, voidID, hresolve⟩ := hs.derived info hmem hkind
  by_cases hposted : s.posted info.id = true
  · have hpost := (posted_iff hids hfree hs.fits hname hresolve).mp hposted
    exact ⟨s, record_posted_eval quantity key hids hresolve (State.transfer?_isSome hmem) hpost,
      hposted⟩
  · have hres : s.resolution info.id = none :=
      State.resolution_eq_none.mpr ⟨Bool.eq_false_iff.mpr hposted, hvoided, hexpired⟩
    obtain ⟨hpos, hle⟩ := hs.fee_bounds hids hrates hmem hkind
    obtain ⟨s', hsettle, hdone, -⟩ :=
      hs.settleSplit_eval hids hfree hd hname hresolve hmem hkind hres hpos hle
    exact ⟨s', hs.record_live_eval quantity key hids hfree hname hresolve
      ⟨info, hmem, rfl, hkind, hres⟩ hsettle, hdone⟩

end

variable [DecidableEq ID] [Zero ID] {id : ID} {req : AuthorizeRequest} {p : HoldParams ID}
  {gen : Nat}

structure HoldOf (a : TigerBeetleAdapter ID) (req : AuthorizeRequest) (p : HoldParams ID)
    (gen : Nat) (t : Transfer ID) : Prop where
  accepted : a.refusal req = none
  params : a.holdParams req = .ok p
  bounded : gen < TigerBeetleAdapter.maxAuthGenerations
  id : a.pendingID req.billingRef req.idempotencyKey gen = .ok t.id
  transfer : t = { (a.pendingTransfer t.id p).transfer with timestamp := t.timestamp }

theorem ensureAccount_eval {code : AccountCode} (hacct : s.account? id = some (a.account id code))
    (label : String) : alone (a.ensureAccount id code label) s = some (.ok (), s) := by
  have hcreate : s.createAccount (a.account id code) = (.exists, s) := by
    have hstored : s.account? (a.account id code).id = some (a.account id code) := hacct
    simp [State.createAccount, hstored]
  have hcall : alone (TigerBeetle.ensureAccount (a.account id code)) s = some (.ok (), s) := by
    refine (eval_seq_ok call_eval).trans ?_
    simp only [State.value, State.effect, hcreate]
    rfl
  exact eval_rethrow hcall

theorem ensureAccounts_eval {agentAcct owner : ID}
    (hagent : s.account? agentAcct = some (a.account agentAcct .agent))
    (howner : s.account? owner = some (a.account owner .owner)) :
    alone (a.ensureAccounts agentAcct owner) s = some (.ok (), s) :=
  (eval_seq_ok (ensureAccount_eval hagent "agent")).trans (ensureAccount_eval howner "owner")

theorem checkBalance_eval {agentAcct : ID} {acct : Account ID} {minor : Int}
    (hacct : s.account? agentAcct = some acct) :
    alone (TigerBeetleAdapter.checkBalance agentAcct minor) s =
      some (.ok (if TigerBeetleAdapter.available (some (s.balances agentAcct)) < minor then
        some TigerBeetleAdapter.insufficientBalance else none), s) := by
  have hvalue : s.value (.lookupAccount agentAcct) = some (s.balances agentAcct) := by
    simp only [State.value, hacct, Option.map_some]
    have hid := List.find?_some hacct
    simp only [decide_eq_true_eq] at hid
    rw [hid]
  refine (eval_seq_ok (eval_rethrow call_eval)).trans ?_
  rw [hvalue]
  rfl

section

variable (hs : Sound a calls s) (hids : a.ids.Lawful) (hfree : CollisionFree a calls)
include hs hids hfree

theorem Sound.reserveFrom_eval (hname : (calls i).Names a id) (hlive : s.Live id)
    {postID voidID : ID} (hresolve : a.resolveIDs id = .ok (postID, voidID))
    (hid : a.pendingID p.billingRef p.authKey gen = .ok id)
    (hpassed : ∀ g < gen, Passed a s p.billingRef p.authKey g) {left g : Nat} (hg : g ≤ gen)
    (hleft : gen < g + left) :
    alone (a.reserveFrom p left g) s = some (.ok (a.approved id), s) := by
  induction left generalizing g with
  | zero => omega
  | succ left ih =>
    rcases Nat.lt_or_eq_of_le hg with hlt | rfl
    · obtain ⟨x, xpost, xvoid, hx, hxresolve, hhold, hresolved⟩ := hpassed g hlt
      refine (eval_seq_ok (eval_orThrow hx)).trans ?_
      refine (eval_seq_ok (classifyHold_eval hids hxresolve)).trans ?_
      rw [if_neg (by simp [Option.isSome_iff_ne_none.mp hhold]), if_pos hresolved]
      exact ih hlt (by omega)
    · obtain ⟨hhold, hpost, hvoid⟩ := hs.live_lookup hids hfree hname hresolve hlive
      refine (eval_seq_ok (eval_orThrow hid)).trans ?_
      refine (eval_seq_ok (classifyHold_eval hids hresolve)).trans ?_
      rw [if_neg (by simp [Option.isSome_iff_ne_none.mp hhold]),
        if_neg (by simp [hpost, hvoid])]
      rfl

theorem Sound.authorize_eval (hcall : calls i = .authorize req) (hhold : HoldOf a req p gen t)
    (hmem : t ∈ s.transfers) (hlive : s.Live t.id) :
    alone (a.authorize req) s =
      some (.ok (if TigerBeetleAdapter.available (some (s.balances p.agentAcct)) < p.minor then
        TigerBeetleAdapter.insufficientBalance else a.approved t.id), s) := by
  obtain ⟨hrefusal, hparams, hgen, hid, ht⟩ := hhold
  obtain ⟨href, hkey, -, -, -⟩ := holdParams_ok hparams
  have hname := names_of_pendingID hcall hgen hid
  have hkind : t.kind = .pending := by
    rw [ht]
    rfl
  have hparties := hs.parties t hmem hkind
  have hdebit : t.debit = p.agentAcct := by
    rw [ht]
    rfl
  have hcredit : t.credit = p.owner := by
    rw [ht]
    rfl
  rw [hdebit, hcredit] at hparties
  obtain ⟨postID, voidID, hresolve⟩ := hs.derived t hmem hkind
  have hreserve : alone (a.reserve p) s = some (.ok (a.approved t.id), s) := by
    refine hs.reserveFrom_eval hids hfree hname hlive hresolve (by rw [href, hkey]; exact hid) ?_
      (Nat.zero_le gen) (by omega)
    rw [href, hkey]
    exact hs.probed t hmem i req gen hcall hgen hid
  rw [TigerBeetleAdapter.authorize, hrefusal]
  refine eval_rethrow (g := TigerBeetleAdapter.classifyUnavailable) (r := .ok _) ?_
  refine (eval_seq_ok (eval_orThrow hparams)).trans ?_
  refine (eval_seq_ok (ensureAccounts_eval hparties.1 hparties.2)).trans ?_
  refine (eval_seq_ok (checkBalance_eval hparties.1)).trans ?_
  split_ifs
  · rfl
  · exact hreserve

end

variable [DecidableEq ι] {tr : Trace (Op ID) Res ι}
  {c : Pool (Op ID) Res (State ID) ι (Except TbError Answer)}

/-- Issued again while its hold is live, an authorize returns the hold and changes nothing if and
only if the account could pay the charge once more. -/
theorem authorize_reissued (hids : a.ids.Lawful) (hfree : CollisionFree a calls)
    (hr : AdapterRun a calls tr c) (hcall : calls i = .authorize req)
    (hhold : HoldOf a req p gen t) (hmem : t ∈ c.shared.transfers) (hlive : c.shared.Live t.id) :
    alone (a.authorize req) c.shared = some (.ok (a.approved t.id), c.shared) ↔
      p.minor ≤ TigerBeetleAdapter.available (some (c.shared.balances p.agentAcct)) := by
  have hs := (AdapterRun.sound hids hfree hr).1
  rw [hs.authorize_eval hids hfree hcall hhold hmem hlive]
  split_ifs with hshort
  · simp [TigerBeetleAdapter.insufficientBalance, TigerBeetleAdapter.approved, hshort]
  · simpa using hshort

def textAdapter : TigerBeetleAdapter TextID where
  ids := textIds
  ledger := 1
  currency := "USD"
  holdTimeout := TigerBeetleAdapter.defaultHoldTimeout
  idNS := "ns:"
  refundPages := 4

omit [DecidableEq ι] in
theorem textAdapter_collisionFree : CollisionFree textAdapter calls :=
  fun _ _ _ _ h => String.toList_inj.mp h

def twoUnits : AuthorizeRequest where
  tenantID := "tenant"
  billingRef := "agent"
  unitCost := ⟨1, "USD"⟩
  quantity := 2
  unit := "article"
  idempotencyKey := "key"
  resourceOwnerID := "owner"
  feeRateBps := 1

def twoUnitsParams : HoldParams TextID where
  billingRef := "agent"
  authKey := "key"
  agentAcct := "agent:ns:agent".toList
  owner := "owner:ns:revenue:owner".toList
  minor := 2 * 10 ^ 8
  bps := 1

def twoUnitsHold : Transfer TextID :=
  { (textAdapter.pendingTransfer "ns:pending:agent:key:0".toList twoUnitsParams).transfer with
    timestamp := 2 }

def fundedCalls (funds : ℚ) : Fin 2 → Call
  | 0 => .credit "agent" ⟨some funds, "USD"⟩ "credit"
  | 1 => .authorize twoUnits

def answered {ι : Type} (n : Nat) (i : ι) : List (Turn (Op TextID) Res (State TextID) ι) :=
  List.replicate n ⟨i, State.answer⟩

theorem twoUnitsHold_holdOf : HoldOf textAdapter twoUnits twoUnitsParams 0 twoUnitsHold where
  accepted := by decide +kernel
  params := by decide +kernel
  bounded := by decide
  id := by decide +kernel
  transfer := rfl

theorem authorize_reissued_funded :
    ∃ tr c, AdapterRun textAdapter (fundedCalls 4) tr c ∧ c.shared.Live twoUnitsHold.id ∧
      alone (textAdapter.authorize twoUnits) c.shared =
        some (.ok (textAdapter.approved twoUnitsHold.id), c.shared) := by
  obtain ⟨tr, c, hr, hmem, hlive, hfunds⟩ : ∃ tr c, AdapterRun textAdapter (fundedCalls 4) tr c ∧
      twoUnitsHold ∈ c.shared.transfers ∧ c.shared.Live twoUnitsHold.id ∧ twoUnitsParams.minor ≤
        TigerBeetleAdapter.available (some (c.shared.balances twoUnitsParams.agentAcct)) :=
    Pool.exists_run (answered 4 0 ++ answered 5 1) (by decide +kernel)
  exact ⟨tr, c, hr, hlive, (authorize_reissued textIds_lawful textAdapter_collisionFree hr
    (i := 1) rfl twoUnitsHold_holdOf hmem hlive).mpr hfunds⟩

/-- The account has just enough for the hold, so issuing it again is refused. -/
theorem authorize_reissued_refused : ∃ tr c, AdapterRun textAdapter (fundedCalls 2) tr c ∧
      HoldOf textAdapter twoUnits twoUnitsParams 0 twoUnitsHold ∧
      twoUnitsHold ∈ c.shared.transfers ∧ c.shared.Live twoUnitsHold.id ∧
      alone (textAdapter.authorize twoUnits) c.shared =
        some (.ok TigerBeetleAdapter.insufficientBalance, c.shared) := by
  obtain ⟨tr, c, hr, hmem, hlive, hrefused⟩ : ∃ tr c,
      AdapterRun textAdapter (fundedCalls 2) tr c ∧ twoUnitsHold ∈ c.shared.transfers ∧
      c.shared.Live twoUnitsHold.id ∧ alone (textAdapter.authorize twoUnits) c.shared =
        some (.ok TigerBeetleAdapter.insufficientBalance, c.shared) :=
    Pool.exists_run (answered 4 0 ++ answered 5 1) (by decide +kernel)
  exact ⟨tr, c, hr, twoUnitsHold_holdOf, hmem, hlive, hrefused⟩

end Ramp.Billing.TigerBeetle
