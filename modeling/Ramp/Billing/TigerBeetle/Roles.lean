import Ramp.Billing.TigerBeetle.Conduct
import Ramp.Ledger.Balance
import Ramp.Ledger.Replies

/-! The roles of the transfers in the ledger. As long as no two derived ids collide, the id
of a transfer tells its role: a transfer under the id of a hold's post is that post, and
every post of the hold is under that id. -/

namespace Ramp.Billing.TigerBeetle

open Ramp.Ledger

variable {ID : Type} [DecidableEq ID] [Zero ID] {a : TigerBeetleAdapter ID} {ι : Type}
  {calls : ι → Call} {id postID voidID : ID}

variable {req : AuthorizeRequest} {gen : Nat} {key : String}

variable {i : ι}

omit [DecidableEq ID] in
theorem encodeID_injective (hids : a.ids.Lawful) : Function.Injective a.ids.encodeID := by
  intro x y hxy
  have hx := hids.decode_encode x
  rw [hxy, hids.decode_encode y] at hx
  exact (Except.ok.inj hx).symm

omit [DecidableEq ID] [Zero ID] in
theorem SlotIs.eq {slot : Slot} (h : SlotIs a slot id) :
    a.ids.sha256 (a.idNS ++ slot.text) = id ∧ a.ids.reserved id = false := by
  unfold SlotIs Ids.transferID Ids.reduce at h
  split_ifs at h with hempty hreserved
  cases h
  exact ⟨rfl, Bool.eq_false_iff.mpr hreserved⟩

def Used (a : TigerBeetleAdapter ID) (calls : ι → Call) (slot : Slot) : Prop :=
  slot.Valid ∧ ∃ i, (calls i).Uses a slot

section

omit [DecidableEq ID]

section

variable (hids : a.ids.Lawful) (hname : (calls i).Names a id)
include hids hname

theorem Used.post : Used a calls (.post (a.ids.encodeID id)) :=
  ⟨hids.encode_no_colon id, i, .post hname⟩

theorem Used.void : Used a calls (.void (a.ids.encodeID id)) :=
  ⟨hids.encode_no_colon id, i, .void hname⟩

theorem Used.fee : Used a calls (.fee (a.ids.encodeID id)) :=
  ⟨hids.encode_no_colon id, i, .fee hname⟩

end

omit [Zero ID] in
theorem names_of_pendingID (hcall : calls i = .authorize req)
    (hgen : gen < TigerBeetleAdapter.maxAuthGenerations)
    (hid : a.pendingID req.billingRef req.idempotencyKey gen = .ok id) : (calls i).Names a id := by
  rw [hcall]
  exact ⟨gen, hgen, hid⟩

omit [Zero ID] in
theorem Used.hold (hcall : calls i = .authorize req)
    (hgen : gen < TigerBeetleAdapter.maxAuthGenerations) (hcolon : ':' ∉ req.billingRef.toList) :
    Used a calls (.hold req.billingRef req.idempotencyKey gen) :=
  ⟨hcolon, i, hcall ▸ .hold hgen⟩

end

omit [DecidableEq ID] [Zero ID] in
theorem slot_unique (hfree : CollisionFree a calls) {slot slot' : Slot} (hu : Used a calls slot)
    (hu' : Used a calls slot') (h : SlotIs a slot id) (h' : SlotIs a slot' id) : slot = slot' := by
  obtain ⟨hvalid, i, huses⟩ := hu
  obtain ⟨hvalid', i', huses'⟩ := hu'
  have htext := hfree ⟨i, .inl ⟨slot, huses, rfl⟩⟩ ⟨i', .inl ⟨slot', huses', rfl⟩⟩
    (h.eq.1.trans h'.eq.1.symm)
  refine Slot.text_injective hvalid hvalid' (String.toList_inj.mp ?_)
  have hlist := congrArg String.toList htext
  simpa only [String.toList_append, List.append_cancel_left_eq] using hlist

omit [DecidableEq ID] [Zero ID] in
theorem pendingID_ok {ref : String} (h : a.pendingID ref key gen = .ok id) :
    ':' ∉ ref.toList ∧ SlotIs a (.hold ref key gen) id := by
  unfold TigerBeetleAdapter.pendingID at h
  split_ifs at h with hcolon
  exact ⟨hcolon, slotIs_of_slotID a h⟩

omit [DecidableEq ID] [Zero ID] in
theorem resolveIDs_ok (h : a.resolveIDs id = .ok (postID, voidID)) :
    SlotIs a (.post (a.ids.encodeID id)) postID ∧ SlotIs a (.void (a.ids.encodeID id)) voidID := by
  obtain ⟨p, hp, hrest⟩ := Except.bind_eq_ok.mp h
  obtain ⟨v, hv, hrest⟩ := Except.bind_eq_ok.mp hrest
  cases hrest
  exact ⟨slotIs_of_slotID a hp, slotIs_of_slotID a hv⟩

omit [DecidableEq ID] [Zero ID] in
theorem refundLegIDs_ok {netID feeID : ID} (h : a.refundLegIDs id key = .ok (netID, feeID)) :
    SlotIs a (.refundNet (a.ids.encodeID id) key) netID ∧
      SlotIs a (.refundFee (a.ids.encodeID id) key) feeID := by
  obtain ⟨p, hp, hrest⟩ := Except.bind_eq_ok.mp h
  obtain ⟨v, hv, hrest⟩ := Except.bind_eq_ok.mp hrest
  cases hrest
  exact ⟨slotIs_of_slotID a hp, slotIs_of_slotID a hv⟩

variable {s : State ID}

section

variable {h : History (Op ID) Res}

omit [Zero ID] in
theorem Found.shown {info : Transfer ID} (hf : Found h id info) (hshown : ∀ e ∈ h, Shows e s) :
    s.transfer? id = some info := by
  obtain ⟨found, hmem, hhead⟩ := hf
  obtain ⟨hid, htransfer⟩ := hshown _ hmem info (List.mem_of_head? hhead)
  rwa [List.mem_singleton.mp hid] at htransfer

omit [Zero ID] in
theorem Ensured.shown {acct : Account ID} (he : Ensured h acct) (hshown : ∀ e ∈ h, Shows e s) :
    s.account? acct.id = some acct := by
  obtain ⟨status, hmem, hne⟩ := he
  exact hshown _ hmem hne

end

section

/-- What a transfer in a slot looks like, by the kind of the slot. -/
inductive Role (a : TigerBeetleAdapter ID) (calls : ι → Call) : Slot → Transfer ID → Prop
  | hold {i : ι} {req : AuthorizeRequest} {p : HoldParams ID} {gen : Nat} {t : Transfer ID}
    (hcall : calls i = .authorize req) (hparams : a.holdParams req = .ok p)
    (hminor : 0 ≤ p.minor)
    (ht : t = { (a.pendingTransfer t.id p).transfer with timestamp := t.timestamp }) :
    Role a calls (.hold req.billingRef req.idempotencyKey gen) t
  | post {t : Transfer ID} {hex : String} (hkind : t.kind = .post)
    (hhex : a.ids.encodeID t.pendingID = hex) : Role a calls (.post hex) t
  | void {t : Transfer ID} {hex : String} (hkind : t.kind = .void)
    (hhex : a.ids.encodeID t.pendingID = hex) : Role a calls (.void hex) t
  | fee {t : Transfer ID} {hex : String} (hkind : t.kind = .plain)
    (hcode : t.code = TransferCode.settlement.number) : Role a calls (.fee hex) t
  | refundNet {t : Transfer ID} {hex key : String} (hkind : t.kind = .plain)
    (hhex : a.ids.encodeID t.userData128 = hex) : Role a calls (.refundNet hex key) t
  | refundFee {t : Transfer ID} {hex key : String} (hkind : t.kind = .plain)
    (hhex : a.ids.encodeID t.userData128 = hex) : Role a calls (.refundFee hex key) t
  | credit {t : Transfer ID} {key : String} (hkind : t.kind = .plain)
    (hcode : t.code = TransferCode.settlement.number) : Role a calls (.credit key) t

variable {slot : Slot} {t u : Transfer ID}

omit [DecidableEq ID] in
theorem Role.stored (h : Role a calls slot t) (hs : Stored t u) : Role a calls slot u := by
  have hplain : t.kind = .plain → u.userData128 = t.userData128 ∧ u.code = t.code := by
    intro hkind
    rw [hs.whole (.inl hkind)]
    exact ⟨rfl, rfl⟩
  cases h with
  | @hold i req p gen t hcall hparams hminor ht =>
    have hkind : t.kind = .pending := by
      rw [ht]
      rfl
    have hu := hs.whole (.inr hkind)
    refine .hold hcall hparams hminor ?_
    rw [hs.id]
    rw [ht] at hu
    exact hu
  | post hkind hhex => exact .post (hs.kind.trans hkind) (hs.pendingID ▸ hhex)
  | void hkind hhex => exact .void (hs.kind.trans hkind) (hs.pendingID ▸ hhex)
  | fee hkind hcode => exact .fee (hs.kind.trans hkind) ((hplain hkind).2.trans hcode)
  | refundNet hkind hhex => exact .refundNet (hs.kind.trans hkind) ((hplain hkind).1 ▸ hhex)
  | refundFee hkind hhex => exact .refundFee (hs.kind.trans hkind) ((hplain hkind).1 ▸ hhex)
  | credit hkind hcode => exact .credit (hs.kind.trans hkind) ((hplain hkind).2.trans hcode)

/-- The transfer sits in a slot of one of the calls, and looks like it. -/
def Fits (a : TigerBeetleAdapter ID) (calls : ι → Call) (t : Transfer ID) : Prop :=
  ∃ slot, Used a calls slot ∧ SlotIs a slot t.id ∧ Role a calls slot t

omit [DecidableEq ID] in
theorem Fits.stored (h : Fits a calls t) (hs : Stored t u) : Fits a calls u := by
  obtain ⟨slot, hused, hid, hrole⟩ := h
  exact ⟨slot, hused, hs.id ▸ hid, hrole.stored hs⟩

omit [DecidableEq ID] in
theorem Fits.ne_zero (h : Fits a calls t) (hids : a.ids.Lawful) : t.id ≠ 0 := by
  obtain ⟨slot, -, hid, -⟩ := h
  intro hzero
  have hreserved := hid.eq.2
  rw [hzero, hids.reserved_zero] at hreserved
  cases hreserved

def netTransfer (id postID : ID) (net : Int) : Transfer ID :=
  { resolvingTransfer .post (toUint128 net) postID id with linked := true }

theorem settleNetLeg_transfer {net : Int} (hid : id ≠ 0) :
    (TigerBeetleAdapter.settleNetLeg id postID net).transfer true = netTransfer id postID net := by
  simp [Leg.transfer, TigerBeetleAdapter.settleNetLeg, hid, netTransfer, resolvingTransfer]

theorem Leg.transfer_plain {leg : Leg ID} (h : leg.pendingID = 0) (linked : Bool) :
    leg.transfer linked =
      { id := leg.id, kind := .plain, debit := leg.debit, credit := leg.credit,
        amount := toUint128 leg.amount, pendingID := 0, userData128 := leg.userData128,
        userData64 := leg.userData64, timeout := 0, ledger := leg.ledger, code := leg.code,
        linked, timestamp := 0 } := by
  simp [Leg.transfer, h]

theorem Submits.slots {h : History (Op ID) Res} {batch : List (Transfer ID)} (hids : a.ids.Lawful)
    (hsub : Submits a (calls i) h batch) (hshown : ∀ e ∈ h, Shows e s)
    (hfits : ∀ t ∈ s.transfers, Fits a calls t) :
    ∀ t ∈ batch, ∃ slot, Used a calls slot ∧ SlotIs a slot t.id ∧ Role a calls slot t ∧
      ∀ hex, slot = .post hex ∨ slot = .fee hex →
        ∃ id, a.ids.encodeID id = hex ∧ Settlement a (calls i) h id batch := by
  cases hsub with
  | @hold req p gen id postID voidID pre found hcall hparams hgen hid _ _ _ _ _ _ hminor =>
    obtain ⟨hvalid, hslot⟩ := pendingID_ok hid
    exact List.forall_mem_singleton.mpr
      ⟨_, .hold hcall hgen hvalid, hslot, .hold hcall hparams hminor rfl, by simp⟩
  | @settle id _ hbatch =>
    have hpart : ∀ slot : Slot, slot = .post (a.ids.encodeID id) ∨ slot = .fee (a.ids.encodeID id) →
        ∀ hex, slot = .post hex ∨ slot = .fee hex →
          ∃ id, a.ids.encodeID id = hex ∧ Settlement a (calls i) h id batch := by
      rintro slot (rfl | rfl) hex (heq | heq) <;> cases heq <;> exact ⟨id, rfl, hbatch⟩
    cases hbatch with
    | whole hname hresolve hinfo =>
      exact List.forall_mem_singleton.mpr ⟨_, .post hids hname, (resolveIDs_ok hresolve).1,
        .post rfl rfl, hpart _ (.inl rfl)⟩
    | @split postID voidID feeID platformID info fee hname hresolve hinfo hfeeID =>
      obtain ⟨hmem, hinfoID⟩ := State.transfer?_some (hinfo.shown hshown)
      have hne : id ≠ 0 := hinfoID ▸ (hfits info hmem).ne_zero hids
      have hfee : SlotIs a (.fee (a.ids.encodeID id)) feeID := slotIs_of_slotID a hfeeID
      refine List.forall_mem_cons.mpr ⟨⟨_, .post hids hname, ?_, ?_, hpart _ (.inl rfl)⟩,
        List.forall_mem_singleton.mpr ⟨_, .fee hids hname, ?_, ?_, hpart _ (.inr rfl)⟩⟩
      · rw [settleNetLeg_transfer hne]
        exact (resolveIDs_ok hresolve).1
      · rw [settleNetLeg_transfer hne]
        exact .post rfl rfl
      · rw [Leg.transfer_plain rfl]
        exact hfee
      · rw [Leg.transfer_plain rfl]
        exact .fee rfl rfl
  | @void id postID voidID hname hresolve =>
    exact List.forall_mem_singleton.mpr
      ⟨_, .void hids hname, (resolveIDs_ok hresolve).2, .void rfl rfl, by simp⟩
  | @refund billingID reason key amount id postID voidID netID feeID info post rMinor prior batch
      hcall hid _ _ hlegs _ _ _ _ hbatch =>
    obtain ⟨hnetID, hfeeID⟩ := refundLegIDs_ok hlegs
    have hnetUsed : Used a calls (.refundNet (a.ids.encodeID id) key) :=
      ⟨hids.encode_no_colon id, i, hcall ▸ .refundNet hid⟩
    have hfeeUsed : Used a calls (.refundFee (a.ids.encodeID id) key) :=
      ⟨hids.encode_no_colon id, i, hcall ▸ .refundFee hid⟩
    cases hbatch with
    | net hle =>
      rw [Leg.transfer_plain rfl]
      exact List.forall_mem_singleton.mpr ⟨_, hnetUsed, hnetID, .refundNet rfl rfl, by simp⟩
    | both hpos hplatform =>
      rw [Leg.transfer_plain rfl, Leg.transfer_plain rfl]
      exact List.forall_mem_cons.mpr ⟨⟨_, hnetUsed, hnetID, .refundNet rfl rfl, by simp⟩,
        List.forall_mem_singleton.mpr ⟨_, hfeeUsed, hfeeID, .refundFee rfl rfl, by simp⟩⟩
  | @credit billingRef key amount id liquidity agentAcct minor hcall hkey hid =>
    have hused : Used a calls (.credit key) := ⟨hkey, i, hcall ▸ .credit⟩
    rw [Leg.transfer_plain rfl]
    exact List.forall_mem_singleton.mpr ⟨_, hused, hid, .credit rfl rfl, by simp⟩

omit [DecidableEq ID] in
theorem Fits.role (hfree : CollisionFree a calls) (h : Fits a calls t) (hused : Used a calls slot)
    (hid : SlotIs a slot t.id) : Role a calls slot t := by
  obtain ⟨slot', hused', hid', hrole⟩ := h
  rwa [slot_unique hfree hused hused' hid hid']

omit [DecidableEq ID] [Zero ID] in
theorem SlotIs.unique {id' : ID} (h : SlotIs a slot id) (h' : SlotIs a slot id') : id = id' :=
  Except.ok.inj (h.symm.trans h')

end

variable {kind : Kind}

def resolvingSlot : Kind → String → Slot
  | .void, hex => .void hex
  | _, hex => .post hex

omit [DecidableEq ID] in
theorem Role.resolving {slot : Slot} {t : Transfer ID} (h : Role a calls slot t)
    (hkind : t.kind = .post ∨ t.kind = .void) :
    slot = resolvingSlot t.kind (a.ids.encodeID t.pendingID) := by
  cases h with
  | hold hcall hparams hminor ht =>
    rw [ht] at hkind
    rcases hkind with hk | hk <;> cases hk
  | post hk hhex =>
    rw [hk, ← hhex]
    rfl
  | void hk hhex =>
    rw [hk, ← hhex]
    rfl
  | fee hk | refundNet hk | refundFee hk | credit hk =>
    rw [hk] at hkind
    rcases hkind with hk | hk <;> cases hk

omit [DecidableEq ID] in
theorem Role.of_resolvingSlot {hex : String} {t : Transfer ID} (hkind : kind = .post ∨ kind = .void)
    (h : Role a calls (resolvingSlot kind hex) t) :
    t.kind = kind ∧ a.ids.encodeID t.pendingID = hex := by
  rcases hkind with rfl | rfl
  · cases h with
    | post hk hhex => exact ⟨hk, hhex⟩
  · cases h with
    | void hk hhex => exact ⟨hk, hhex⟩

variable (hids : a.ids.Lawful) (hfree : CollisionFree a calls)
  (hfits : ∀ t ∈ s.transfers, Fits a calls t)
include hids hfree hfits

theorem resolvedBy_iff {x : ID} (hkind : kind = .post ∨ kind = .void)
    (hused : Used a calls (resolvingSlot kind (a.ids.encodeID id)))
    (hx : SlotIs a (resolvingSlot kind (a.ids.encodeID id)) x) :
    s.resolvedBy kind id = true ↔ (s.transfer? x).isSome := by
  rw [State.resolvedBy_eq_true]
  constructor
  · rintro ⟨t, ht, rfl, rfl⟩
    obtain ⟨slot, -, hid, hrole⟩ := hfits t ht
    rw [hrole.resolving hkind] at hid
    rw [hx.unique hid]
    exact State.transfer?_isSome ht
  · intro hsome
    obtain ⟨t, ht⟩ := Option.isSome_iff_exists.mp hsome
    obtain ⟨hmem, rfl⟩ := State.transfer?_some ht
    obtain ⟨hk, hhex⟩ := ((hfits t hmem).role hfree hused hx).of_resolvingSlot hkind
    exact ⟨t, hmem, hk, encodeID_injective hids hhex⟩

variable (hname : (calls i).Names a id) (hresolve : a.resolveIDs id = .ok (postID, voidID))
include hname hresolve

theorem posted_iff : s.posted id = true ↔ (s.transfer? postID).isSome :=
  resolvedBy_iff hids hfree hfits (.inl rfl) (.post hids hname) (resolveIDs_ok hresolve).1

theorem voided_iff : s.voided id = true ↔ (s.transfer? voidID).isSome :=
  resolvedBy_iff hids hfree hfits (.inr rfl) (.void hids hname) (resolveIDs_ok hresolve).2

end Ramp.Billing.TigerBeetle
