import Ramp.Billing.TigerBeetle.CallSpecs
import Ramp.Billing.TigerBeetle.Roles

/-! What stands in the ledger after any calls of the adapter: the parties of a hold have
their accounts, the generations before a hold are resolved, a fee stands beside its post,
and the ids of posts and fees are never spoiled. -/

namespace Ramp.Billing.TigerBeetle

open Ramp.Ledger

variable {ID : Type} [DecidableEq ID] [Zero ID] {a : TigerBeetleAdapter ID} {ι : Type}
  {calls : ι → Call} {id postID voidID : ID} {s s' : State ID}

/-- The hold of this generation was made and resolved, so that authorize goes past it. -/
def Passed (a : TigerBeetleAdapter ID) (s : State ID) (ref key : String) (gen : Nat) : Prop :=
  ∃ id postID voidID, a.pendingID ref key gen = .ok id ∧
    a.resolveIDs id = .ok (postID, voidID) ∧ (s.transfer? id).isSome ∧
    ((s.transfer? postID).isSome ∨ (s.transfer? voidID).isSome)

/-- The invariant of the ledger under any interleaving of billing calls. -/
structure Sound (a : TigerBeetleAdapter ID) (calls : ι → Call) (s : State ID) : Prop where
  wellFormed : s.WellFormed
  solvent : s.Solvent
  fits : ∀ t ∈ s.transfers, Fits a calls t
  parties : ∀ t ∈ s.transfers, t.kind = .pending →
    s.account? t.debit = some (a.account t.debit .agent) ∧
      s.account? t.credit = some (a.account t.credit .owner)
  derived : ∀ t ∈ s.transfers, t.kind = .pending → ∃ postID voidID,
    a.resolveIDs t.id = .ok (postID, voidID)
  accounts : ∀ id acct, s.account? id = some acct → ∃ i p businessID,
    (calls i).Opens p businessID ∧ a.accountID p businessID = .ok id ∧
      acct = a.account id p.code
  probed : ∀ t ∈ s.transfers, ∀ i req gen, calls i = .authorize req →
    gen < TigerBeetleAdapter.maxAuthGenerations →
    a.pendingID req.billingRef req.idempotencyKey gen = .ok t.id →
    ∀ g < gen, Passed a s req.billingRef req.idempotencyKey g
  fees : ∀ t ∈ s.transfers, ∀ i id, (calls i).Names a id →
    SlotIs a (.fee (a.ids.encodeID id)) t.id → s.posted id = true
  unfailed : ∀ i id x, (calls i).Names a id →
    SlotIs a (.post (a.ids.encodeID id)) x ∨ SlotIs a (.fee (a.ids.encodeID id)) x → x ∉ s.failed

variable {ref key : String} {gen : Nat}

omit [Zero ID] in
theorem grows_isSome (h : State.Grows s s') {x : ID} (hx : (s.transfer? x).isSome) :
    (s'.transfer? x).isSome := by
  obtain ⟨t, ht⟩ := Option.isSome_iff_exists.mp hx
  exact Option.isSome_iff_exists.mpr ⟨t, h.transfer? ht⟩

omit [Zero ID] in
theorem Passed.mono (h : Passed a s ref key gen) (hg : State.Grows s s') :
    Passed a s' ref key gen := by
  obtain ⟨id, postID, voidID, hid, hresolve, hhold, hresolved⟩ := h
  exact ⟨id, postID, voidID, hid, hresolve, grows_isSome hg hhold,
    hresolved.imp (grows_isSome hg) (grows_isSome hg)⟩

variable {batch : List (Transfer ID)} {t : Transfer ID}

variable {i : ι} {h : History (Op ID) Res} {op : Op ID}

theorem Classified.passed (hids : a.ids.Lawful) (hc : Classified a h id .resolved)
    (hid : a.pendingID ref key gen = .ok id) (hshown : ∀ e ∈ h, Shows e s) :
    Passed a s ref key gen := by
  obtain ⟨postID, voidID, found, hresolve, hmem, hstate⟩ := hc
  have hstored : ∀ x, a.ids.encodeID x ∈ found.map (fun t => a.ids.encodeID t.id) →
      (s.transfer? x).isSome := by
    intro x hx
    obtain ⟨t, ht, htx⟩ := List.mem_map.mp hx
    have hshow := (hshown _ hmem t ht).2
    rw [encodeID_injective hids htx] at hshow
    exact Option.isSome_iff_exists.mpr ⟨t, hshow⟩
  unfold holdState at hstate
  split_ifs at hstate with hfound hlive
  refine ⟨id, postID, voidID, hid, hresolve, hstored id hfound, ?_⟩
  by_cases hpost : a.ids.encodeID postID ∈ found.map fun t => a.ids.encodeID t.id
  · exact .inl (hstored postID hpost)
  · refine .inr (hstored voidID ?_)
    by_contra hvoid
    exact hlive ⟨hpost, hvoid⟩

theorem Leg.transfer_kind {leg : Leg ID} {linked : Bool} :
    (leg.transfer linked).kind = .post ∨ (leg.transfer linked).kind = .plain := by
  unfold Leg.transfer
  split_ifs
  · exact .inl rfl
  · exact .inr rfl

theorem Submits.of_pending {call : Call} (hsub : Submits a call h batch) (ht : t ∈ batch)
    (hkind : t.kind = .pending) :
    ∃ req p gen id, call = .authorize req ∧ a.holdParams req = .ok p ∧
      gen < TigerBeetleAdapter.maxAuthGenerations ∧
      a.pendingID req.billingRef req.idempotencyKey gen = .ok id ∧ Probed a h req gen ∧
      Ensured h (a.account p.agentAcct .agent) ∧ Ensured h (a.account p.owner .owner) ∧
      (∃ postID voidID, a.resolveIDs id = .ok (postID, voidID)) ∧
      t = (a.pendingTransfer id p).transfer := by
  have hleg : ∀ (leg : Leg ID) linked, t ≠ leg.transfer linked := by
    rintro leg linked rfl
    rcases @Leg.transfer_kind _ _ _ leg linked with hk | hk <;> rw [hk] at hkind <;> cases hkind
  cases hsub with
  | hold hcall hparams hgen hid hprobed hagent howner hresolve =>
    obtain rfl := List.mem_singleton.mp ht
    exact ⟨_, _, _, _, hcall, hparams, hgen, hid, hprobed, hagent, howner, ⟨_, _, hresolve⟩, rfl⟩
  | settle hbatch =>
    cases hbatch with
    | whole =>
      obtain rfl := List.mem_singleton.mp ht
      cases hkind
    | split =>
      rcases List.mem_cons.mp ht with ht | ht
      · exact absurd ht (hleg _ _)
      · exact absurd (List.mem_singleton.mp ht) (hleg _ _)
  | void =>
    obtain rfl := List.mem_singleton.mp ht
    cases hkind
  | refund _ _ _ _ _ _ _ _ _ hbatch =>
    cases hbatch with
    | net => exact absurd (List.mem_singleton.mp ht) (hleg _ _)
    | both =>
      rcases List.mem_cons.mp ht with ht | ht
      · exact absurd ht (hleg _ _)
      · exact absurd (List.mem_singleton.mp ht) (hleg _ _)
  | credit => exact absurd (List.mem_singleton.mp ht) (hleg _ _)

section

/-- A fee rate is stored in the user data of its hold and read back as a signed number. -/
def RatesInt64 (calls : ι → Call) : Prop :=
  ∀ i req, calls i = .authorize req → req.feeRateBps < 2 ^ 63

omit [DecidableEq ID] in
theorem Role.of_pending {slot : Slot} (h : Role a calls slot t) (hkind : t.kind = .pending) :
    ∃ i req p gen, calls i = .authorize req ∧ a.holdParams req = .ok p ∧ 0 ≤ p.minor ∧
      slot = .hold req.billingRef req.idempotencyKey gen ∧
      t = { (a.pendingTransfer t.id p).transfer with timestamp := t.timestamp } := by
  cases h with
  | hold hcall hparams hminor ht => exact ⟨_, _, _, _, hcall, hparams, hminor, rfl, ht⟩
  | post hk | void hk | fee hk | refundNet hk | refundFee hk | credit hk =>
    rw [hk] at hkind
    cases hkind

omit [DecidableEq ID] in
theorem Role.pending_of_hold (h : Role a calls (.hold ref key gen) t) : t.kind = .pending := by
  cases h with
  | hold _ _ _ ht =>
    rw [ht]
    rfl

omit [DecidableEq ID] in
theorem Fits.pending_amount (h : Fits a calls t) (hkind : t.kind = .pending) :
    t.amount < 2 ^ 128 := by
  obtain ⟨slot, -, -, hrole⟩ := h
  obtain ⟨i, req, p, gen, -, -, -, -, ht⟩ := hrole.of_pending hkind
  rw [ht]
  exact Nat.mod_lt _ (by decide)

theorem Sound.rate (hs : Sound a calls s) (hids : a.ids.Lawful) (hrates : RatesInt64 calls)
    (hmem : t ∈ s.transfers) (hkind : t.kind = .pending) :
    ∃ i req, calls i = .authorize req ∧ a.rateBps t.userData128 = req.feeRateBps.toNat := by
  obtain ⟨slot, -, -, hrole⟩ := hs.fits t hmem
  obtain ⟨i, req, p, gen, hcall, hparams, -, -, ht⟩ := hrole.of_pending hkind
  have hlt := hrates i req hcall
  have hbps := (holdParams_ok hparams).2.2.1
  refine ⟨i, req, hcall, ?_⟩
  rw [← hbps] at hlt ⊢
  rw [ht]
  exact hids.int64_ofUint64 _ (by omega)

theorem toUint128_of_le {x : Int} {n : Nat} (hle : x ≤ n) (hn : n < 2 ^ 128) :
    toUint128 x = x.toNat := by
  exact Nat.mod_eq_of_lt (by omega)

variable {info : Transfer ID} {fee : Int}

omit [DecidableEq ID] in
theorem resolvedAmount_net (id postID : ID) (hpos : 0 ≤ fee) (hle : fee ≤ info.amount)
    (hamount : info.amount < 2 ^ 128) :
    (State.resolvedAmount (netTransfer id postID (info.amount - fee)) info : Int) =
      info.amount - fee := by
  have hnet : toUint128 (info.amount - fee) = (info.amount - fee).toNat :=
    toUint128_of_le (by omega) hamount
  unfold State.resolvedAmount netTransfer
  simp only [resolvingTransfer, hnet, amountMax, reduceCtorEq, false_or]
  split_ifs <;> omega

theorem Sound.fee_leg (hs : Sound a calls s) (feeID : ID) {platformID : ID} {s₁ : State ID}
    (hinfo : s.transfer? id = some info)
    (hplatform : s.account? platformID = some (a.account platformID .platform))
    (hpos : 0 ≤ fee) (hle : fee ≤ info.amount)
    (hnet : s.create (netTransfer id postID (info.amount - fee)) = .ok s₁) :
    ∃ u, s₁.check ((a.settleFeeLeg feeID info.debit platformID fee).transfer false) = .ok u := by
  have hgrows := State.create_grows (.refl s) hnet
  obtain ⟨-, u, hu, rfl⟩ := State.create_ok hnet
  obtain ⟨p, hp, hkind, -, -⟩ := State.checkPending_ok hu
  obtain rfl := Option.some.inj (hp.symm.trans hinfo)
  obtain ⟨hmem, -⟩ := State.transfer?_some hinfo
  have hamount := (hs.fits p hmem).pending_amount hkind
  have hagent := (hs.parties p hmem hkind).1
  have hne : p.debit ≠ platformID := by
    intro heq
    rw [← heq, hagent] at hplatform
    simp [TigerBeetleAdapter.account, AccountCode.number] at hplatform
  have hcovered := hs.solvent.covered _ _ hagent rfl
  have hroom := State.resolved_room hgrows rfl (.inl rfl) hu hinfo p.debit
  have hcredits := @State.creditsPosted_le _ _ s { s with transfers := s.transfers ++ [u] } u rfl
    p.debit
  have hresolved := resolvedAmount_net id postID hpos hle hamount
  have hfee : toUint128 fee = fee.toNat := toUint128_of_le hle hamount
  unfold State.Covered at hcovered
  rw [if_pos rfl] at hroom
  rw [Leg.transfer_plain rfl]
  refine ⟨_, State.checkAccounts_of_room hne hagent hplatform rfl rfl ?_⟩
  dsimp only [TigerBeetleAdapter.settleFeeLeg]
  omega

end

variable {r : Res op}

section

variable (hs : Sound a calls s)
include hs

theorem Sound.fits_change (hids : a.ids.Lawful) (hc : Conduct a (calls i) h op)
    (hshown : ∀ e ∈ h, Shows e s) (hchange : s.Change op s') :
    ∀ t ∈ s'.transfers, Fits a calls t := by
  refine hchange.forall_transfers hs.fits ?_
  rintro batch t u rfl ht hstored
  obtain ⟨slot, hused, hid, hrole, -⟩ := Submits.slots hids hc hshown hs.fits t ht
  exact Fits.stored ⟨slot, hused, hid, hrole⟩ hstored

section

variable (hc : Conduct a (calls i) h op)
include hc

theorem Sound.parties_change (hshown : ∀ e ∈ h, Shows e s) (hchange : s.Change op s') :
    ∀ t ∈ s'.transfers, t.kind = .pending → s'.account? t.debit = some (a.account t.debit .agent) ∧
        s'.account? t.credit = some (a.account t.credit .owner) := by
  have hg := hchange.grows
  refine hchange.forall_transfers (fun t ht hkind => ?_) ?_
  · obtain ⟨hagent, howner⟩ := hs.parties t ht hkind
    exact ⟨hg.account? hagent, hg.account? howner⟩
  · rintro batch t u rfl ht hstored hkind
    rw [hstored.kind] at hkind
    obtain ⟨req, p, gen, id, -, -, -, -, -, hagent, howner, -, rfl⟩ :=
      Submits.of_pending hc ht hkind
    rw [hstored.whole (.inr hkind)]
    exact ⟨hg.account? (hagent.shown hshown), hg.account? (howner.shown hshown)⟩

theorem Sound.derived_change (hchange : s.Change op s') :
    ∀ t ∈ s'.transfers, t.kind = .pending → ∃ postID voidID,
      a.resolveIDs t.id = .ok (postID, voidID) := by
  refine hchange.forall_transfers hs.derived ?_
  rintro batch t u rfl ht hstored hkind
  rw [hstored.kind] at hkind
  obtain ⟨req, p, gen, id, -, -, -, -, -, -, -, hresolve, rfl⟩ := Submits.of_pending hc ht hkind
  rw [hstored.id]
  exact hresolve

theorem Sound.accounts_change (hchange : s.Change op s') :
    ∀ id acct, s'.account? id = some acct → ∃ i p businessID,
      (calls i).Opens p businessID ∧ a.accountID p businessID = .ok id ∧
        acct = a.account id p.code := by
  intro id acct hacct
  rcases hchange.account_cases hacct with hold | ⟨rfl, rfl⟩
  · exact hs.accounts id acct hold
  · obtain ⟨p, businessID, hopens, hid, heq⟩ := hc
    exact ⟨i, p, businessID, hopens, hid, heq⟩

end

section

variable (hids : a.ids.Lawful)
include hids

theorem Sound.probed_change (hfree : CollisionFree a calls) (hc : Conduct a (calls i) h op)
    (hshown : ∀ e ∈ h, Shows e s) (hchange : s.Change op s') :
    ∀ t ∈ s'.transfers, ∀ i req gen, calls i = .authorize req →
      gen < TigerBeetleAdapter.maxAuthGenerations →
      a.pendingID req.billingRef req.idempotencyKey gen = .ok t.id →
      ∀ g < gen, Passed a s' req.billingRef req.idempotencyKey g := by
  have hg := hchange.grows
  refine hchange.forall_transfers ?_ ?_
  · intro t ht i req gen hcall hgen hid g hlt
    exact (hs.probed t ht i req gen hcall hgen hid g hlt).mono hg
  · rintro batch t u rfl ht hstored j req gen hcall hgen hid g hlt
    obtain ⟨hcolon, hslot⟩ := pendingID_ok hid
    rw [hstored.id] at hslot
    obtain ⟨slot, hused, htid, hrole, -⟩ := Submits.slots hids hc hshown hs.fits t ht
    obtain rfl := slot_unique hfree hused (.hold hcall hgen hcolon) htid hslot
    have hkind := hrole.pending_of_hold
    obtain ⟨req', p, gen', id', hcall', -, hgen', hid', hprobed, -, -, -, rfl⟩ :=
      Submits.of_pending hc ht hkind
    obtain ⟨hcolon', hslot'⟩ := pendingID_ok hid'
    have hsame := slot_unique hfree (.hold hcall hgen hcolon) (.hold hcall' hgen' hcolon') hslot
      hslot'
    obtain ⟨href, hkey, rfl⟩ := by simpa only [Slot.hold.injEq] using hsame
    obtain ⟨x, hx, hclass⟩ := hprobed g hlt
    rw [href, hkey]
    exact (hclass.passed hids hx hshown).mono hg

theorem Sound.settlement (hfree : CollisionFree a calls) (hsub : Submits a (calls i) h batch)
    (hshown : ∀ e ∈ h, Shows e s) (ht : t ∈ batch) {j : ι} (hname : (calls j).Names a id)
    (hslot : SlotIs a (.post (a.ids.encodeID id)) t.id ∨ SlotIs a (.fee (a.ids.encodeID id)) t.id) :
    Settlement a (calls i) h id batch := by
  obtain ⟨slot, hused, htid, -, hpart⟩ := hsub.slots hids hshown hs.fits t ht
  have hslot' : slot = .post (a.ids.encodeID id) ∨ slot = .fee (a.ids.encodeID id) := by
    rcases hslot with hslot | hslot
    · exact .inl (slot_unique hfree hused (.post hids hname) htid hslot)
    · exact .inr (slot_unique hfree hused (.fee hids hname) htid hslot)
  obtain ⟨id', hhex, hbatch⟩ := hpart _ hslot'
  rwa [encodeID_injective hids hhex] at hbatch

theorem Sound.ne_zero {info : Transfer ID} (hinfo : s.transfer? id = some info) : id ≠ 0 := by
  obtain ⟨hmem, hid⟩ := State.transfer?_some hinfo
  exact hid ▸ (hs.fits info hmem).ne_zero hids

theorem Sound.fees_change (hfree : CollisionFree a calls) (hc : Conduct a (calls i) h op)
    (hshown : ∀ e ∈ h, Shows e s) (hchange : s.Change op s') :
    ∀ t ∈ s'.transfers, ∀ i id, (calls i).Names a id →
      SlotIs a (.fee (a.ids.encodeID id)) t.id → s'.posted id = true := by
  intro u hu j id hname hslot
  rcases hchange.mem_transfers hu with hold | ⟨batch, t, rfl, done, ht, hstored⟩
  · exact hchange.grows.resolvedBy (hs.fees u hold j id hname hslot)
  rw [hstored.id] at hslot
  cases hs.settlement hids hfree hc hshown ht hname (.inr hslot) with
  | whole hname' hresolve hinfo =>
    obtain rfl := List.mem_singleton.mp ht
    have hsame := slot_unique hfree (.fee hids hname) (.post hids hname') hslot
      (resolveIDs_ok hresolve).1
    cases hsame
  | split hname' hresolve hinfo hfeeID hensured hpos hle =>
    obtain ⟨s₁, hnet, hfee⟩ := State.chain_pair.mp done
    rw [settleNetLeg_transfer (hs.ne_zero hids (hinfo.shown hshown))] at hnet
    have hgrows := State.create_grows (.refl s₁) hfee
    obtain ⟨-, v, hv, rfl⟩ := State.create_ok hnet
    obtain ⟨hvstored, -, -⟩ := State.check_ok hv
    refine State.resolvedBy_eq_true.mpr ⟨v, hgrows.mem ?_, hvstored.kind, hvstored.pendingID⟩
    exact List.mem_append_right _ (List.mem_singleton_self v)

theorem Sound.unfailed_step (hfree : CollisionFree a calls) (hc : Conduct a (calls i) h op)
    (hshown : ∀ e ∈ h, Shows e s) (hstep : State.step op s r = some s') :
    ∀ i id x, (calls i).Names a id →
      SlotIs a (.post (a.ids.encodeID id)) x ∨ SlotIs a (.fee (a.ids.encodeID id)) x →
      x ∉ s'.failed := by
  intro j id x hname hslot hx
  have hkeep := hs.unfailed j id x hname hslot
  have heffect : x ∈ (s.effect op).failed :=
    (State.mem_failed_step hstep hx).resolve_left hkeep
  obtain ⟨batch, pre, t, post, s₁, status, rfl, hbatch, hpre, hcheck, htransient, rfl⟩ :=
    (State.mem_failed_effect heffect).resolve_left hkeep
  have hmem : t ∈ batch := by simp [hbatch]
  have hpost : ∀ info, s.transfer? id = some info → t.kind = .post → t.pendingID = id →
      s₁ = s → False := by
    rintro info hinfo hkind hpid rfl
    rw [State.check, hkind] at hcheck
    have hnone := State.checkPending_transient hcheck htransient
    rw [hpid, hinfo] at hnone
    cases hnone
  cases hs.settlement hids hfree hc hshown hmem hname hslot with
  | whole hname' hresolve hinfo =>
    cases pre with
    | nil =>
      obtain ⟨rfl, -⟩ := List.cons.inj hbatch
      exact hpost _ (hinfo.shown hshown) rfl rfl (Except.ok.inj hpre).symm
    | cons x pre => simp at hbatch
  | @split postID voidID feeID platformID info fee hname' hresolve hinfo hfeeID hensured hpos hle =>
    have hinfo := hinfo.shown hshown
    have hplatform : s.account? platformID = some (a.account platformID .platform) :=
      hensured.shown hshown
    rw [settleNetLeg_transfer (hs.ne_zero hids hinfo)] at hbatch
    rcases pre with _ | ⟨x, _ | ⟨y, pre⟩⟩
    · obtain ⟨rfl, -⟩ := List.cons.inj hbatch
      exact hpost _ hinfo rfl rfl (Except.ok.inj hpre).symm
    · simp only [List.cons_append, List.nil_append, List.cons.injEq] at hbatch
      obtain ⟨rfl, rfl, -⟩ := hbatch
      obtain ⟨u, hu⟩ := hs.fee_leg feeID hinfo hplatform hpos hle (State.chain_singleton.mp hpre)
      rw [hcheck] at hu
      cases hu
    · simp at hbatch

theorem Sound.step (hfree : CollisionFree a calls) (hc : Conduct a (calls i) h op)
    (hshown : ∀ e ∈ h, Shows e s) (hstep : State.step op s r = some s') : Sound a calls s' := by
  have hchange := State.step_change hstep
  exact
    { wellFormed := hs.wellFormed.change hchange
      solvent := hs.solvent.change hchange
      fits := hs.fits_change hids hc hshown hchange
      parties := hs.parties_change hc hshown hchange
      derived := hs.derived_change hc hchange
      accounts := hs.accounts_change hc hchange
      probed := hs.probed_change hids hfree hc hshown hchange
      fees := hs.fees_change hids hfree hc hshown hchange
      unfailed := hs.unfailed_step hids hfree hc hshown hstep }

end

theorem Sound.expiry (he : Expiry s s') : Sound a calls s' := by
  have hwellFormed := hs.wellFormed.expiry he
  have hsolvent := hs.solvent.expiry he
  obtain ⟨t, -, -, -, -, rfl⟩ := he
  exact ⟨hwellFormed, hsolvent, hs.fits, hs.parties, hs.derived, hs.accounts, hs.probed, hs.fees,
    hs.unfailed⟩

end

theorem sound_empty : Sound a calls ({} : State ID) where
  wellFormed := State.wellFormed_empty
  solvent := State.solvent_empty
  fits := by simp
  parties := by simp
  derived := by simp
  accounts := by simp [State.account?]
  probed := by simp
  fees := by simp
  unfailed := by simp

variable [DecidableEq ι] {tr : Trace (Op ID) Res ι}
  {c : Pool (Op ID) Res (State ID) ι (Except TbError Answer)}

def adapterCalls (a : TigerBeetleAdapter ID) (calls : ι → Call) :
    Pool (Op ID) Res (State ID) ι (Except TbError Answer) :=
  ⟨{}, fun i => (perform a (calls i)).run⟩

abbrev AdapterRun (a : TigerBeetleAdapter ID) (calls : ι → Call) (tr : Trace (Op ID) Res ι)
    (c : Pool (Op ID) Res (State ID) ι (Except TbError Answer)) : Prop :=
  Run State.step Expiry (adapterCalls a calls) tr c

omit [DecidableEq ι] in
theorem adapterCalls_spec (i : ι) : Prog.Spec recordCall (Conduct a (calls i))
      (fun h x => ∀ answer, x = .ok answer → ∀ req res, calls i = .authorize req →
        answer = .authorized res → Approves a req h res) ((adapterCalls a calls).threads i) [] :=
  perform_yields (calls i)

variable (hids : a.ids.Lawful) (hfree : CollisionFree a calls) (hr : AdapterRun a calls tr c)
include hids hfree hr

theorem AdapterRun.sound : Sound a calls c.shared ∧ ∀ x ∈ tr, Shows x.2 c.shared :=
  Run.invariant_shown lasting adapterCalls_spec hr sound_empty
    (fun _ _ _ _ _ _ hs hshown hc hstep => hs.step hids hfree hc hshown hstep)
    fun _ _ hs he => hs.expiry he

theorem AdapterRun.at_call {next : Res op → Prog (Op ID) Res (Except TbError Answer)}
    (head : c.threads i = .call op next) (reply : State.step op c.shared r = some s) :
    Sound a calls c.shared ∧ Sound a calls s ∧ (∀ e ∈ tr.own i, Shows e c.shared) ∧
      Conduct a (calls i) (tr.own i) op := by
  obtain ⟨hs, hshown⟩ := AdapterRun.sound hids hfree hr
  have hown : ∀ e ∈ tr.own i, Shows e c.shared := fun e he => hshown (i, e) (Trace.mem_own.mp he)
  have hc := hr.spec adapterCalls_spec i
  rw [head] at hc
  exact ⟨hs, hs.step hids hfree hc.1 hown reply, hown, hc.1⟩

end Ramp.Billing.TigerBeetle
