import Ramp.Billing.Dedup

/-! Calls that are issued again. What was recorded, released, refunded or credited stays so;
an authorization is answered with its hold while that is live, and with a new one later. -/

namespace Ramp.Billing

variable {res : Reservation}

namespace Memory

open InMemoryAdapter

variable {hash : String → String} {m m' : Memory} {c : Call} {ok : Bool} {s : DedupSlot}
  {text id : String}

theorem Step.keeps (h : Step hash m c ok m') (hs : m.Seen s) (hauth : ∀ text, s ≠ .auth text) :
    m'.Seen s := by
  have hfree : ∀ (n : Memory) (res : Reservation), n.Seen s → (n.free hash res).Seen s := by
    intro n res hn
    unfold free
    split_ifs
    · exact hn
    · cases s with
      | auth text => exact absurd rfl (hauth text)
      | op text => exact hn
      | credit text => exact hn
  have herase : ∀ id, Seen { m with reserved := m.reserved.erase id } s := by
    intro id
    cases s <;> exact hs
  cases h with
  | refused => exact hs
  | replayed => exact hs
  | opened => exact hs
  | credited =>
    cases s with
    | auth text => exact hs
    | op text => exact hs
    | credit text => exact List.mem_insert_of_mem hs
  | held =>
    cases s with
    | auth text => exact absurd rfl (hauth text)
    | op text => exact hs
    | credit text => exact hs
  | recorded => exact seen_mark.mpr (.inl (hfree _ _ (herase _)))
  | released => exact seen_mark.mpr (.inl (hfree _ _ (herase _)))
  | refunded => exact seen_mark.mpr (.inl hs)

/-- The key of an open reservation leads to it, and leads nowhere else. -/
structure Linked (hash : String → String) (m : Memory) : Prop where
  used : ∀ id res, m.reserved.get? id = some res → m.Used id
  seen : ∀ id res, m.reserved.get? id = some res → res.authKey ≠ "" →
    m.authSeen.get? (authMapKey hash res.billingRef res.authKey) = some id
  live : ∀ text id, m.authSeen.get? text = some id → ∃ res, m.reserved.get? id = some res ∧
    res.authKey ≠ "" ∧ text = authMapKey hash res.billingRef res.authKey

theorem Linked.hold (h : Linked hash m) (hnext : m.nextIdx.toNat + 1 < 2 ^ 64)
    (hnew : res.authKey ≠ "" →
      m.authSeen.get? (authMapKey hash res.billingRef res.authKey) = none) :
    Linked hash (m.hold hash res) := by
  have hunused := nextID_unused hnext
  have hmono : ∀ id, m.Used id → (m.hold hash res).Used id := by
    rintro id ⟨n, hn, rfl⟩
    refine ⟨n, ?_, rfl⟩
    rw [Memory.hold, nextIdx_succ hnext]
    omega
  have hself : (m.hold hash res).Used m.nextID := ⟨_, le_rfl, rfl⟩
  refine ⟨fun id r hr => ?_, fun id r hr hkey => ?_, fun text id hid => ?_⟩
  · simp only [Memory.hold, Table.get?_insert] at hr
    split_ifs at hr with hid
    · rw [hid]
      exact hself
    · exact hmono id (h.used id r hr)
  · simp only [Memory.hold, Table.get?_insert] at hr ⊢
    split_ifs at hr with hid
    · cases hr
      rw [if_neg hkey, Table.get?_insert, if_pos rfl, hid]
    · have hold := h.seen id r hr hkey
      split_ifs with hnokey
      · exact hold
      · rw [Table.get?_insert, if_neg, hold]
        intro htext
        rw [htext, hnew hnokey] at hold
        cases hold
  · simp only [Memory.hold] at hid ⊢
    have hcases : m.authSeen.get? text = some id ∨ res.authKey ≠ "" ∧ id = m.nextID ∧
        text = authMapKey hash res.billingRef res.authKey := by
      split_ifs at hid with hnokey
      · exact .inl hid
      · rw [Table.get?_insert] at hid
        split_ifs at hid with htext
        · exact .inr ⟨hnokey, (Option.some.inj hid).symm, htext⟩
        · exact .inl hid
    rcases hcases with hold | ⟨hkey, rfl, htext⟩
    · obtain ⟨r, hr, hkey, htext⟩ := h.live text id hold
      refine ⟨r, ?_, hkey, htext⟩
      rw [Table.get?_insert, if_neg, hr]
      rintro rfl
      exact hunused (h.used _ r hr)
    · exact ⟨res, by rw [Table.get?_insert, if_pos rfl], hkey, htext⟩

section

variable (op : OpName) (key : String)
include op key

theorem mark_reserved : (m.mark hash id op key).reserved = m.reserved ∧
      (m.mark hash id op key).authSeen = m.authSeen := by
  unfold mark
  split_ifs <;> exact ⟨rfl, rfl⟩

theorem get?_settle_authSeen :
    (m.settle hash id res op key).authSeen.get? text =
      if res.authKey ≠ "" ∧ text = authMapKey hash res.billingRef res.authKey then none
      else m.authSeen.get? text := by
  rw [settle, (mark_reserved op key).2, free]
  by_cases hkey : res.authKey = ""
  · simp [hkey]
  · simp [hkey, Table.get?_erase]

theorem get?_settle_reserved (id' : String) :
    (m.settle hash id res op key).reserved.get? id' =
      if id' = id then none else m.reserved.get? id' := by
  rw [settle, (mark_reserved op key).1, free]
  split_ifs with hkey hid <;> simp_all [Table.get?_erase]

end

theorem Linked.settle (h : Linked hash m) (hlive : m.reserved.get? id = some res) (op : OpName)
    (key : String) (hidx : (m.settle hash id res op key).nextIdx = m.nextIdx)
    (hids : (m.settle hash id res op key).idPrefix = m.idPrefix) :
    Linked hash (m.settle hash id res op key) := by
  refine ⟨fun id' r hr => ?_, fun id' r hr hkey => ?_, fun text id' hid' => ?_⟩
  · rw [get?_settle_reserved] at hr
    split_ifs at hr
    obtain ⟨n, hn, heq⟩ := h.used id' r hr
    exact ⟨n, by rw [hidx]; exact hn, by rw [hids]; exact heq⟩
  · rw [get?_settle_reserved] at hr
    split_ifs at hr with hne
    have hold := h.seen id' r hr hkey
    rw [get?_settle_authSeen, if_neg, hold]
    rintro ⟨hkey', htext⟩
    rw [htext, h.seen id res hlive hkey'] at hold
    exact hne (Option.some.inj hold).symm
  · rw [get?_settle_authSeen] at hid'
    split_ifs at hid' with hfreed
    obtain ⟨r, hr, hkey, htext⟩ := h.live text id' hid'
    refine ⟨r, ?_, hkey, htext⟩
    rw [get?_settle_reserved, if_neg, hr]
    rintro rfl
    obtain rfl := Option.some.inj (hlive.symm.trans hr)
    exact hfreed ⟨hkey, htext⟩

theorem Step.linked (h : Step hash m c ok m')
    (hnext : c.isAuthorize = true → m.nextIdx.toNat + 1 < 2 ^ 64) (hm : Linked hash m) :
    Linked hash m' := by
  have hidx := h.nextIdx
  cases h with
  | refused => exact hm
  | replayed => exact hm
  | opened => exact hm
  | credited => exact ⟨hm.used, hm.seen, hm.live⟩
  | @held req res href hkey hnew =>
    refine hm.hold (hnext rfl) fun hres => ?_
    rw [hkey] at hres
    have hunseen := hnew _ (if_neg hres)
    rw [href, hkey]
    simpa [Seen] using hunseen
  | recorded hlive =>
    exact hm.settle hlive .record _ (hidx.2.resolve_right (by simp [Call.isAuthorize])) hidx.1
  | released hlive =>
    exact hm.settle hlive .release _ (hidx.2.resolve_right (by simp [Call.isAuthorize])) hidx.1
  | @refunded id reason key amount =>
    have hreserved : (m.mark hash id .refund key).reserved = m.reserved :=
      (mark_reserved .refund key).1
    have hauth : (m.mark hash id .refund key).authSeen = m.authSeen := (mark_reserved .refund key).2
    refine ⟨fun id' r hr => ?_, ?_, ?_⟩
    · rw [hreserved] at hr
      obtain ⟨n, hn, heq⟩ := hm.used id' r hr
      have hsame := hidx.2.resolve_right (by simp [Call.isAuthorize])
      exact ⟨n, by rw [hsame]; exact hn, by rw [hidx.1]; exact heq⟩
    · rw [hreserved, hauth]
      exact hm.seen
    · rw [hreserved, hauth]
      exact hm.live

theorem linked_new (opts : InMemoryOptions) : Linked hash (new opts).memory :=
  ⟨by simp [memory, new], by simp [memory, new], by simp [memory, new]⟩

/-- The id is the live one of the key, or it was used and is settled. -/
def Holds (text id : String) (m : Memory) : Prop :=
  m.authSeen.get? text = some id ∨ m.Used id ∧ m.reserved.get? id = none

theorem Holds.settle {id' : String} (hm : Linked hash m) (hlive : m.reserved.get? id' = some res)
    (op : OpName) (key : String) (hused : m.Used id → (m.settle hash id' res op key).Used id)
    (hh : Holds text id m) : Holds text id (m.settle hash id' res op key) := by
  rcases hh with hauth | ⟨hid, hnone⟩
  · by_cases hsame : id = id'
    · subst hsame
      exact .inr ⟨hused (hm.used id res hlive), by rw [get?_settle_reserved, if_pos rfl]⟩
    · refine .inl ?_
      rw [get?_settle_authSeen, if_neg, hauth]
      rintro ⟨hkey, rfl⟩
      rw [hm.seen id' res hlive hkey] at hauth
      exact hsame (Option.some.inj hauth).symm
  · refine .inr ⟨hused hid, ?_⟩
    rw [get?_settle_reserved]
    split_ifs
    · rfl
    · exact hnone

theorem Step.holds (h : Step hash m c ok m')
    (hnext : c.isAuthorize = true → m.nextIdx.toNat + 1 < 2 ^ 64) (hm : Linked hash m)
    (hh : Holds text id m) : Holds text id m' := by
  have hused : m.Used id → m'.Used id := h.used hnext
  cases h with
  | refused => exact hh
  | replayed => exact hh
  | opened => exact hh
  | credited => exact hh
  | @held req res href hkey hnew =>
    rcases hh with hauth | ⟨hid, hnone⟩
    · refine .inl ?_
      simp only [hold]
      split_ifs with hres
      · exact hauth
      · rw [Table.get?_insert, if_neg, hauth]
        rintro rfl
        rw [hkey] at hres
        refine hnew _ (if_neg hres) ?_
        rw [href, hkey] at hauth
        simp [Seen, hauth]
    · refine .inr ⟨hused hid, ?_⟩
      simp only [hold]
      rw [Table.get?_insert, if_neg, hnone]
      rintro rfl
      exact nextID_unused (hnext rfl) hid
  | recorded hlive => exact hh.settle hm hlive .record _ hused
  | released hlive => exact hh.settle hm hlive .release _ hused
  | @refunded id' reason key amount =>
    rw [Holds, (mark_reserved .refund key).1, (mark_reserved .refund key).2]
    exact hh.imp_right fun hdone => ⟨hused hdone.1, hdone.2⟩

theorem Step.authSeen (h : Step hash m c ok m') (hid : m'.authSeen.get? text = some id) :
    m.authSeen.get? text = some id ∨ slot hash c = some (.auth text) := by
  cases h with
  | refused => exact .inl hid
  | replayed => exact .inl hid
  | opened => exact .inl hid
  | credited => exact .inl hid
  | @held req res href hkey hnew =>
    simp only [hold] at hid
    split_ifs at hid with hres
    · exact .inl hid
    · rw [Table.get?_insert] at hid
      split_ifs at hid with htext
      · rw [htext, href, hkey]
        rw [hkey] at hres
        exact .inr (if_neg hres)
      · exact .inl hid
  | recorded hlive =>
    rw [get?_settle_authSeen] at hid
    split_ifs at hid
    exact .inl hid
  | released hlive =>
    rw [get?_settle_authSeen] at hid
    split_ifs at hid
    exact .inl hid
  | refunded =>
    rw [(mark_reserved .refund _).2] at hid
    exact .inl hid

end Memory

namespace InMemoryAdapter

variable {hash : String → String} {a b : InMemoryAdapter} {c : Call} {s : DedupSlot}
  {calls calls' : List Call} {req req' : AuthorizeRequest} {id text : String}

section

theorem seen_run_of_seen (hs : a.memory.Seen s) (hauth : ∀ text, s ≠ .auth text) :
    (run hash a calls).memory.Seen s := by
  induction calls generalizing a with
  | nil => exact hs
  | cons c calls ih => exact ih ((after_step c).keeps hs hauth)

variable (hc : c.isAuthorize = false)
include hc

theorem replays_of_seen (hok : a.succeeds hash c = true) (hslot : slot hash c = some s)
    (hs : b.memory.Seen s) : b.replays hash c = true := by
  have hop : ∀ {id key : String} {op : OpName}, opSlot hash id op key = some s →
      b.opAlreadyDone hash id op key = true := by
    intro id key op hop
    have hkey : key ≠ "" := by
      rintro rfl
      cases hop
    obtain rfl := opSlot_some hop
    exact decide_eq_true ⟨hkey, hs⟩
  cases c with
  | ensureAgentAccount ref => cases hslot
  | credit ref amount key =>
    cases hslot
    refine decide_eq_true ⟨?_, hs⟩
    simp only [succeeds, credit] at hok
    cases hargs : validateCreditArgs ref amount key demoCurrency with
    | error e =>
      rw [hargs] at hok
      cases hok
    | ok value => rfl
  | authorize req => cases hc
  | record id quantity key => exact hop hslot
  | release id key => exact hop hslot
  | refund id amount reason key => exact hop hslot

theorem slot_not_auth (hslot : slot hash c = some s) (text : String) : s ≠ .auth text := by
  rintro rfl
  obtain ⟨hmethod, -⟩ | ⟨-, hs⟩ | ⟨op, -, hs⟩ := slot_cases hslot
  · have hauth : c.isAuthorize = true := by
      cases c <;> first | rfl | cases hmethod
    rw [hauth] at hc
    cases hc
  · cases hs
  · cases hs

theorem slot_isSome (hkey : c.key ≠ "") : ∃ s, slot hash c = some s := by
  cases c with
  | ensureAgentAccount ref => exact absurd rfl hkey
  | credit ref amount key => exact ⟨_, rfl⟩
  | authorize req => cases hc
  | record id quantity key => exact ⟨_, if_neg hkey⟩
  | release id key => exact ⟨_, if_neg hkey⟩
  | refund id amount reason key => exact ⟨_, if_neg hkey⟩

theorem settled_replays (hkey : c.key ≠ "") (hok : a.succeeds hash c = true) :
    (run hash (a.after hash c) calls).replays hash c = true := by
  obtain ⟨s, hslot⟩ := slot_isSome hc hkey
  have hstep : Memory.Step hash a.memory c true (a.after hash c).memory := by
    rw [← hok]
    exact after_step c
  have hseen := hstep.marks hslot
  exact replays_of_seen hc hok hslot (seen_run_of_seen hseen (slot_not_auth hc hslot))

end

def issued (hash : String → String) (a : InMemoryAdapter) : List Call → List String
  | [] => []
  | c :: calls =>
    (match c with
    | .authorize req =>
      if (a.authorize hash req).1.approved then [(a.authorize hash req).1.billingID] else []
    | _ => []) ++ issued hash (a.after hash c) calls

theorem approved_cases (happroved : (a.authorize hash req).1.approved = true) :
    (∃ id, a.liveAuth hash req = some id ∧
      a.authorize hash req = ({ billingID := id, approved := true }, a)) ∨
    a.liveAuth hash req = none ∧ (a.authorize hash req).1.billingID = a.memory.nextID ∧
      ∃ res : Reservation, res.billingRef = req.billingRef ∧ res.authKey = req.idempotencyKey ∧
        (a.authorize hash req).2.memory = a.memory.hold hash res := by
  rcases authorize_cases hash a req with
    hreplay | ⟨reason, heq⟩ | ⟨hauth, a', charge, hquota, heq⟩
  · exact .inl hreplay
  · rw [heq] at happroved
    cases happroved
  · obtain ⟨quotas, rfl⟩ := consumeQuota_frame hquota
    rw [heq]
    exact .inr ⟨hauth, rfl, ⟨_, _, _, _⟩, rfl, rfl, rfl⟩

theorem liveAuth_eq (hkey : req.idempotencyKey ≠ "") : a.liveAuth hash req =
      a.memory.authSeen.get? (authMapKey hash req.billingRef req.idempotencyKey) := if_neg hkey

theorem approved_holds (hkey : req.idempotencyKey ≠ "")
    (happroved : (a.authorize hash req).1.approved = true) :
    (a.authorize hash req).2.memory.authSeen.get?
      (authMapKey hash req.billingRef req.idempotencyKey) =
        some (a.authorize hash req).1.billingID := by
  rcases approved_cases happroved with ⟨id, hauth, heq⟩ | ⟨hauth, hid, res, href, hres, heq⟩
  · rw [liveAuth_eq hkey] at hauth
    rw [heq]
    exact hauth
  · rw [heq, hid, Memory.hold, href, hres]
    simp [hkey, Table.get?_insert]

theorem approved_used (hm : Memory.Linked hash a.memory)
    (happroved : (a.authorize hash req).1.approved = true) :
    (a.authorize hash req).2.memory.Used (a.authorize hash req).1.billingID := by
  rcases approved_cases happroved with ⟨id, hauth, heq⟩ | ⟨hauth, hid, res, href, hres, heq⟩
  · have hkey : req.idempotencyKey ≠ "" := by
      intro hkey
      rw [liveAuth, if_pos hkey] at hauth
      cases hauth
    rw [liveAuth_eq hkey] at hauth
    obtain ⟨res, hlive, -⟩ := hm.live _ _ hauth
    rw [heq]
    exact hm.used id res hlive
  · rw [heq, hid]
    exact ⟨_, le_rfl, rfl⟩

theorem used_of_issued (hm : Memory.Linked hash a.memory)
    (hfew : a.nextIdx.toNat + calls.countP Call.isAuthorize < 2 ^ 64)
    (hid : id ∈ issued hash a calls) : (run hash a calls).memory.Used id := by
  induction calls generalizing a with
  | nil => cases hid
  | cons c calls ih =>
    have hstep : Memory.Step hash a.memory c _ (a.after hash c).memory := after_step c
    have hnext : c.isAuthorize = true → a.memory.nextIdx.toNat + 1 < 2 ^ 64 := by
      intro hauth
      rw [List.countP_cons, hauth, if_pos rfl] at hfew
      change a.nextIdx.toNat + 1 < 2 ^ 64
      omega
    have hrest := hstep.nextIdx_le hfew
    rcases List.mem_append.mp hid with hfirst | hlater
    · have hused : (a.after hash c).memory.Used id := by
        cases c with
        | authorize req =>
          dsimp only at hfirst
          split_ifs at hfirst with happroved
          · obtain rfl := List.mem_singleton.mp hfirst
            exact approved_used hm happroved
          · cases hfirst
        | _ => cases hfirst
      rw [← List.append_nil calls] at hrest
      exact (run_keeps (I := fun m => m.Used id)
        (fun m d ok m' _ hn hs hu => hs.used hn hu) hrest hused).1
    · exact ih (hstep.linked hnext hm) hrest hlater

/-- The authorizations among the calls have other refs or keys than the request, and the
adapter keeps them apart. -/
structure Others (hash : String → String) (req : AuthorizeRequest) (calls : List Call) : Prop where
  other : ∀ r, .authorize r ∈ calls →
    ¬ (r.billingRef = req.billingRef ∧ r.idempotencyKey = req.idempotencyKey)
  keys : KeysApart hash {k | k = req.idempotencyKey ∨
    ∃ r, .authorize r ∈ calls ∧ r.idempotencyKey = k}
  ref : '\x00' ∉ req.billingRef.toList
  refs : ∀ r, .authorize r ∈ calls → '\x00' ∉ r.billingRef.toList

theorem Others.slot_ne (h : Others hash req calls) (hc : c ∈ calls) : slot hash c ≠
    some (.auth (authMapKey hash req.billingRef req.idempotencyKey)) := by
  intro hslot
  obtain ⟨hmethod, heq⟩ | ⟨-, heq⟩ | ⟨op, -, heq⟩ := slot_cases hslot
  · cases c with
    | authorize r =>
      obtain ⟨href, hkey⟩ := authMapKey_inj h.keys (.inl rfl) (.inr ⟨r, hc, rfl⟩) h.ref
        (h.refs r hc) (DedupSlot.auth.inj heq)
      exact h.other r hc ⟨href.symm, hkey.symm⟩
    | _ => cases hmethod
  · cases heq
  · cases heq

theorem approved_run (hm : Memory.Linked hash a.memory) (hkey : req.idempotencyKey ≠ "")
    (happroved : (a.authorize hash req).1.approved = true)
    (hfew : a.nextIdx.toNat + (Call.authorize req :: (calls ++ calls')).countP Call.isAuthorize <
      2 ^ 64) : Memory.Linked hash (run hash (a.authorize hash req).2 calls).memory ∧
      Memory.Holds (authMapKey hash req.billingRef req.idempotencyKey)
        (a.authorize hash req).1.billingID (run hash (a.authorize hash req).2 calls).memory ∧
      (run hash (a.authorize hash req).2 calls).nextIdx.toNat +
        calls'.countP Call.isAuthorize < 2 ^ 64 := by
  have hstep : Memory.Step hash a.memory (.authorize req) _ (a.authorize hash req).2.memory :=
    authorize_step req
  have hnext : (Call.authorize req).isAuthorize = true → a.memory.nextIdx.toNat + 1 < 2 ^ 64 := by
    intro hauth
    rw [List.countP_cons, hauth, if_pos rfl] at hfew
    change a.nextIdx.toNat + 1 < 2 ^ 64
    omega
  have hfirst := And.intro (hstep.linked hnext hm)
    (.inl (approved_holds hkey happroved) : Memory.Holds _ _ _)
  obtain ⟨⟨hlinked, hholds⟩, hleft⟩ := run_keeps (fun m c ok m' _ hn hs hi =>
    And.intro (hs.linked hn hi.1) (hs.holds hn hi.1 hi.2)) (hstep.nextIdx_le hfew) hfirst
  exact ⟨hlinked, hholds, hleft⟩

theorem Others.authSeen (h : Others hash req calls) (hkey : req.idempotencyKey ≠ "")
    (happroved : (a.authorize hash req).1.approved = true) :
    ∀ id, (run hash (a.authorize hash req).2 calls).memory.authSeen.get?
      (authMapKey hash req.billingRef req.idempotencyKey) = some id →
        id = (a.authorize hash req).1.billingID := by
  have hgeneral : ∀ (b : InMemoryAdapter) (cs : List Call), (∀ c ∈ cs, c ∈ calls) →
      ∀ id, (run hash b cs).memory.authSeen.get?
        (authMapKey hash req.billingRef req.idempotencyKey) = some id →
      b.memory.authSeen.get? (authMapKey hash req.billingRef req.idempotencyKey) = some id := by
    intro b cs
    induction cs generalizing b with
    | nil => exact fun _ id hid => hid
    | cons c cs ih =>
      intro hsub id hid
      have hlater := ih (b.after hash c) (fun d hd => hsub d (List.mem_cons_of_mem _ hd)) id hid
      have hstep : Memory.Step hash b.memory c _ (b.after hash c).memory := after_step c
      exact (hstep.authSeen hlater).resolve_right (h.slot_ne (hsub c List.mem_cons_self))
  intro id hid
  have hfirst := hgeneral _ calls (fun _ hc => hc) id hid
  rw [approved_holds hkey happroved] at hfirst
  exact (Option.some.inj hfirst).symm

/-- Recording, releasing, refunding or crediting again under the same key succeeds and changes
nothing, whatever was called in between. Authorizing again under the same key is answered with
the same hold while that is live, and with an id that was never issued once it was recorded or
released, if the adapter keeps the keys in between apart from it. -/
theorem calls_replayed (opts : InMemoryOptions) (ha : a = run hash (new opts) calls) :
    (∀ c, c.isAuthorize = false → c.key ≠ "" → a.succeeds hash c = true →
      (run hash (a.after hash c) calls').succeeds hash c = true ∧
      (run hash (a.after hash c) calls').after hash c = run hash (a.after hash c) calls') ∧
    ∀ req req' b, req.idempotencyKey ≠ "" → (a.authorize hash req).1.approved = true →
      req'.billingRef = req.billingRef → req'.idempotencyKey = req.idempotencyKey →
      (calls ++ Call.authorize req :: (calls' ++ [Call.authorize req'])).countP Call.isAuthorize <
        2 ^ 64 →
      b = run hash (a.authorize hash req).2 calls' →
      ((b.reserved.get? (a.authorize hash req).1.billingID).isSome → b.authorize hash req' =
        ({ billingID := (a.authorize hash req).1.billingID, approved := true }, b)) ∧
      (b.reserved.get? (a.authorize hash req).1.billingID = none → Others hash req calls' →
        (b.authorize hash req').1.approved = true → (b.authorize hash req').1.billingID ∉
          issued hash (new opts) (calls ++ Call.authorize req :: calls')) := by
  refine ⟨fun c hc hkey hok => replays_idle (settled_replays hc hkey hok), ?_⟩
  intro req req' b hkey happroved href hkey' hfew hb
  have hstart : (new opts).nextIdx.toNat + (calls ++ Call.authorize req ::
      (calls' ++ [Call.authorize req'])).countP Call.isAuthorize < 2 ^ 64 := by
    simpa [new] using hfew
  obtain ⟨hlinkedA, hfewA⟩ := run_keeps (fun m c ok m' _ hn hs hm => hs.linked hn hm) hstart
    (Memory.linked_new opts)
  rw [← ha] at hlinkedA hfewA
  obtain ⟨hlinked, hholds, hleft⟩ := approved_run hlinkedA hkey happroved hfewA
  rw [← hb] at hlinked hholds hleft
  have hauth : b.liveAuth hash req' =
      b.memory.authSeen.get? (authMapKey hash req.billingRef req.idempotencyKey) := by
    rw [liveAuth_eq (hkey' ▸ hkey), href, hkey']
  constructor
  · intro hlive
    have hseen := hholds.resolve_right fun hdone => by
      have hnone : b.reserved.get? _ = none := hdone.2
      rw [hnone] at hlive
      cases hlive
    rw [authorize, hauth, hseen]
  · intro hnone hothers happroved'
    have hforgotten : b.liveAuth hash req' = none := by
      rw [hauth]
      cases hid : b.memory.authSeen.get? (authMapKey hash req.billingRef req.idempotencyKey) with
      | none => rfl
      | some id =>
        obtain ⟨res, hlive, -⟩ := hlinked.live _ _ hid
        rw [hb] at hid
        obtain rfl := hothers.authSeen hkey happroved id hid
        cases hnone.symm.trans hlive
    rcases approved_cases happroved' with ⟨id, hlive, -⟩ | ⟨-, hid, -⟩
    · rw [hforgotten] at hlive
      cases hlive
    · intro hissued
      have hrun : run hash (new opts) (calls ++ Call.authorize req :: calls') = b := by
        rw [run_append, ← ha, hb]
        rfl
      have hused := used_of_issued (Memory.linked_new opts) (by
        simp only [List.countP_append, List.countP_cons] at hstart ⊢
        omega) hissued
      rw [hrun, hid] at hused
      have hnext : b.memory.nextIdx.toNat + 1 < 2 ^ 64 := hleft
      exact Memory.nextID_unused hnext hused

end InMemoryAdapter

namespace InMemoryAdapter

def keyedPage (key : String) : AuthorizeRequest := { onePage with idempotencyKey := key }

/-- The adapter after `n` pages of which only the last one, under the key, is still held. -/
def heldPage (hash : String → String) (n : Nat) (key : String) : InMemoryAdapter :=
  { rested n with
    reserved := (∅ : Table String Reservation).insert (pageID n) { pageHold with authKey := key }
    authSeen := (∅ : Table String String).insert (authMapKey hash "ref" key) (pageID n) }

section

variable (hash : String → String) {key key' : String}

theorem rested_keyed (n : Nat) (hkey : key ≠ "") : (rested n).authorize hash (keyedPage key) =
    ({ billingID := pageID (n + 1), approved := true }, heldPage hash (n + 1) key) := by
  simp [authorize, liveAuth, rested, new, Table.get?_insert, totalCharge, keyedPage, hkey,
    checkCurrencyAndBalance, consumeQuota, reserve, billingID, pageID, heldPage]

theorem heldPage_release (n : Nat) (hkey : key ≠ "") :
    (heldPage hash n key).after hash (.release (pageID n) "") = rested n := by
  simp [after, release, opAlreadyDone, Table.get?_insert, freeAuth, markOpDone, hkey,
    restoredQuotas, rested, new, Table.erase_insert_empty, heldPage]

theorem heldPage_authorize (n : Nat) (hkey : key' ≠ "")
    (hsame : authMapKey hash "ref" key' = authMapKey hash "ref" key) :
    (heldPage hash n key).authorize hash (keyedPage key') =
      ({ billingID := pageID n, approved := true }, heldPage hash n key) := by
  have hauth : (heldPage hash n key).liveAuth hash (keyedPage key') = some (pageID n) := by
    rw [liveAuth_eq hkey]
    simp [keyedPage, memory, heldPage, hsame, Table.get?_insert]
  rw [authorize, hauth]

end

theorem calls_replayed_page :
    let a := new oneDollar
    let b := run id (a.authorize id (keyedPage "k")).2 [.release (pageID 1) "r"]
    (a.authorize id (keyedPage "k")).1 = { billingID := pageID 1, approved := true } ∧
      b.reserved.get? (pageID 1) = none ∧ (b.authorize id (keyedPage "k")).1.approved = true ∧
      (b.authorize id (keyedPage "k")).1.billingID ∉
        issued id (new oneDollar) [.authorize (keyedPage "k"), .release (pageID 1) "r"] := by
  have hothers : Others id (keyedPage "k") [.release (pageID 1) "r"] := by
    refine ⟨by simp, ⟨Function.injective_id.injOn, ?_⟩, by decide, by simp⟩
    rintro k - k' (rfl | ⟨r, hr, -⟩) - hlong
    · exact absurd hlong (by decide)
    · simp at hr
  have hstart : new oneDollar = run id (new oneDollar) [] := rfl
  have hlater : run id ((new oneDollar).authorize id (keyedPage "k")).2 [.release (pageID 1) "r"] =
      run id ((new oneDollar).authorize id (keyedPage "k")).2 [.release (pageID 1) "r"] := rfl
  have hagain := (calls_replayed oneDollar hstart).2 (keyedPage "k") (keyedPage "k") _ (by decide)
    (by decide +kernel) rfl rfl (by decide) hlater
  refine ⟨by decide +kernel, by decide +kernel, by decide +kernel, ?_⟩
  exact hagain.2 (by decide +kernel) hothers (by decide +kernel)

theorem authorize_under_tagged_key {hash : String → String}
    (hsize : (hash longKey).utf8ByteSize = 64) :
    ∃ b : InMemoryAdapter, b = run hash ((new oneDollar).authorize hash (keyedPage longKey)).2
        [.release (pageID 1) "", .authorize (keyedPage ("h:" ++ hash longKey))] ∧
      b.reserved.get? ((new oneDollar).authorize hash (keyedPage longKey)).1.billingID = none ∧
      (b.authorize hash (keyedPage longKey)).1 = { billingID := pageID 2, approved := true } ∧
      pageID 2 ∈ issued hash (new oneDollar) [.authorize (keyedPage longKey),
        .release (pageID 1) "", .authorize (keyedPage ("h:" ++ hash longKey))] := by
  have hfirst : (new oneDollar).authorize hash (keyedPage longKey) =
      ({ billingID := pageID 1, approved := true }, heldPage hash 1 longKey) :=
    rested_keyed hash 0 longKey_ne_empty
  have hrelease := heldPage_release hash 1 longKey_ne_empty
  have hsecond := rested_keyed hash 1 (tagged_ne_empty (hash longKey))
  have hrun : run hash ((new oneDollar).authorize hash (keyedPage longKey)).2
      [.release (pageID 1) "", .authorize (keyedPage ("h:" ++ hash longKey))] =
        heldPage hash 2 ("h:" ++ hash longKey) := by
    simp only [run, List.foldl_cons, List.foldl_nil, hfirst, hrelease]
    exact congrArg Prod.snd hsecond
  have htext : authMapKey hash "ref" longKey = authMapKey hash "ref" ("h:" ++ hash longKey) := by
    rw [authMapKey, authMapKey, boundKey_tagged hsize]
  have hother : pageID 1 ≠ pageID 2 := by decide +kernel
  refine ⟨_, hrun.symm, ?_, ?_, ?_⟩
  · rw [hfirst]
    simp [heldPage, Table.get?_insert, hother]
  · rw [heldPage_authorize hash 2 longKey_ne_empty htext]
  · have hissued : pageID 2 ∈ issued hash (rested 1)
        [.authorize (keyedPage ("h:" ++ hash longKey))] := by
      simp [issued, hsecond]
    have hafter : (new oneDollar).after hash (.authorize (keyedPage longKey)) =
        heldPage hash 1 longKey := congrArg Prod.snd hfirst
    refine List.mem_append_right _ (List.mem_append_right _ ?_)
    rw [hafter, hrelease]
    exact hissued

theorem authorize_answered_with_other_hold :
    ∃ b : InMemoryAdapter,
      b = run pagesHash ((new oneDollar).authorize pagesHash (keyedPage longKey)).2
        [.release (pageID 1) "", .authorize (keyedPage ("h:" ++ pagesHash longKey))] ∧
      b.reserved.get? ((new oneDollar).authorize pagesHash (keyedPage longKey)).1.billingID = none ∧
      (b.authorize pagesHash (keyedPage longKey)).1 =
        { billingID := pageID 2, approved := true } ∧
      pageID 2 ∈ issued pagesHash (new oneDollar) [.authorize (keyedPage longKey),
        .release (pageID 1) "", .authorize (keyedPage ("h:" ++ pagesHash longKey))] :=
  authorize_under_tagged_key pagesHash_size

end InMemoryAdapter

end Ramp.Billing
