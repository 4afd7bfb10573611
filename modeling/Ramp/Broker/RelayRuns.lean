import Ramp.Broker.RelayConduct
import Ramp.Exchange.Answers
import Ramp.Exchange.Authorization

/-! Runs of any number of relayed batches against exchanges and registries that answer
anything. The results stand in the order of the items, and nothing is sent unless every
exchange that the batch names was admitted. -/

namespace Ramp.Broker

open Ramp.Exchange (TransactionResultItem TransactionResponse plainService)
open Prog Relay

structure Relay.Sends (txReq : TransactionRequest) (h : History Op Res) : Prop where
  inOrder : sent h <+: subRequests txReq
  unrefused : sent h ≠ [] → ∀ e ∈ h, ¬ Refuses e
  admitted : sent h ≠ [] → ∀ item ∈ txReq.items, ∃ endpoint,
    Admitted h item.offer.exchange endpoint
  addressed : ∀ endpoint sub r, (⟨.executeTransaction endpoint sub, r⟩ : Event Op Res) ∈ h →
    ∃ domain, Admitted h domain endpoint ∧
      sub.items = txReq.items.filter fun item => item.offer.exchange = domain

variable {txReq : TransactionRequest}

section

variable {h : History Op Res}

theorem prefix_snoc {α : Type} {l L : List α} {x : α} (hle : l <+: L)
    (hx : L[l.length]? = some x) : l ++ [x] <+: L := by
  obtain ⟨rest, rfl⟩ := hle
  cases rest with
  | nil => simp at hx
  | cons y rest =>
    obtain rfl : y = x := by simpa using hx
    exact ⟨rest, by simp⟩

theorem Relay.Sends.nil : Sends txReq [] where
  inOrder := List.nil_prefix
  unrefused hne := absurd rfl hne
  admitted hne := absurd rfl hne
  addressed endpoint sub r hm := by cases hm

theorem Relay.Sends.quiet (hs : Sends txReq h) {e : Event Op Res} (hsends : e.op.sends = none)
    (hrefuses : Refuses e → sent h = []) : Sends txReq (h ++ [e]) := by
  have hsent : sent (h ++ [e]) = sent h := by simp [hsends]
  have hle := List.prefix_append h [e]
  refine ⟨hsent ▸ hs.inOrder, fun hne => ?_, fun hne item hitem => ?_, fun endpoint sub r hm => ?_⟩
  · rw [hsent] at hne
    exact List.forall_mem_append.mpr
      ⟨hs.unrefused hne, List.forall_mem_singleton.mpr fun hr => hne (hrefuses hr)⟩
  · rw [hsent] at hne
    obtain ⟨endpoint, ha⟩ := hs.admitted hne item hitem
    exact ⟨endpoint, ha.mono hle⟩
  · rcases List.mem_append.mp hm with hm | hm
    · obtain ⟨domain, ha, hitems⟩ := hs.addressed endpoint sub r hm
      exact ⟨domain, ha.mono hle, hitems⟩
    · obtain rfl := List.mem_singleton.mp hm
      cases hsends

theorem Relay.Sends.send (hs : Sends txReq h) {endpoint : String} {sub : TransactionRequest}
    (hg : Guard txReq h (.executeTransaction endpoint sub))
    (r : Res (.executeTransaction endpoint sub)) :
    Sends txReq (h ++ [⟨.executeTransaction endpoint sub, r⟩]) := by
  obtain ⟨hunrefused, hadmitted, hnext, domain, hdomain, hitems⟩ := hg
  have hle := List.prefix_append h [⟨.executeTransaction endpoint sub, r⟩]
  refine ⟨?_, fun _ => ?_, fun _ item hitem => ?_, fun endpoint' sub' r' hm => ?_⟩
  · rw [sent_snoc]
    exact prefix_snoc hs.inOrder hnext
  · exact List.forall_mem_append.mpr ⟨hunrefused, List.forall_mem_singleton.mpr id⟩
  · obtain ⟨endpoint, ha⟩ := hadmitted item hitem
    exact ⟨endpoint, ha.mono hle⟩
  · rcases List.mem_append.mp hm with hm | hm
    · obtain ⟨domain', ha, hitems'⟩ := hs.addressed endpoint' sub' r' hm
      exact ⟨domain', ha.mono hle, hitems'⟩
    · cases List.mem_singleton.mp hm
      exact ⟨domain, hdomain.mono hle, hitems⟩

theorem Relay.Sends.step (hs : Sends txReq h) {op : Op} (hg : Guard txReq h op) (r : Res op) :
    Sends txReq (h ++ [⟨op, r⟩]) := by
  cases op with
  | executeTransaction endpoint sub => exact hs.send hg r
  | getByDomain domain => exact hs.quiet rfl fun _ => hg
  | resolveEndpoint domain => exact hs.quiet rfl fun _ => hg
  | audit outcome endpoint err => exact hs.quiet rfl False.elim
  | verifyAgentSignature body => exact hs.quiet rfl False.elim
  | seenOrAdd keyID signature => exact hs.quiet rfl False.elim

end

def Relay.AnswersSent : Event Op Res → Prop
  | ⟨.executeTransaction _ sub, .ok answer⟩ =>
    ∀ it ∈ answer.items, it.offerID ∈ sub.items.map fun item => item.offer.offerID
  | _ => True

instance : DecidablePred AnswersSent
  | ⟨.executeTransaction _ _, .ok _⟩ => inferInstanceAs (Decidable (∀ _ ∈ _, _))
  | ⟨.executeTransaction _ _, .error _⟩ | ⟨.audit _ _ _, _⟩ | ⟨.verifyAgentSignature _, _⟩
  | ⟨.seenOrAdd _ _, _⟩ | ⟨.getByDomain _, _⟩ | ⟨.resolveEndpoint _, _⟩ => .isTrue trivial

variable {ι : Type} {b : Batch}

variable {bodies : ι → String} {c : Pool Op Res Unit ι (Except Error TransactionResponse)}
  {tr : Trace Op Res ι} {i : ι}

section

variable [DecidableEq ι]

def relays (b : Batch) (bodies : ι → String) :
    Pool Op Res Unit ι (Except Error TransactionResponse) :=
  ⟨(), fun i => (b.serveBatch (bodies i)).run⟩

abbrev RelayRun (b : Batch) (bodies : ι → String) (tr : Trace Op Res ι)
    (c : Pool Op Res Unit ι (Except Error TransactionResponse)) : Prop :=
  Run (fun _ s _ => some s) (fun _ _ => False) (relays b bodies) tr c

omit [DecidableEq ι] in
theorem relays_spec (b : Batch) (bodies : ι → String) (i : ι) :
    Spec recordCall (fun h op => ∀ txReq, b.unmarshal (bodies i) = .ok txReq → Guard txReq h op)
      (fun h r => ∀ txReq, b.unmarshal (bodies i) = .ok txReq →
        (∀ e, r = .error e → sent h = []) ∧ ∀ resp, r = .ok resp → Batch.Relayed txReq h resp)
      ((relays b bodies).threads i) [] := by
  cases hbody : b.unmarshal (bodies i) with
  | error e =>
    change Spec _ _ _ (b.serveBatch (bodies i)).run _
    unfold Batch.serveBatch
    rw [hbody]
    exact .throw fun txReq hreq => by cases hreq
  | ok txReq =>
    refine (Batch.serveBatch_spec hbody).mono (fun h op hg txReq' hreq => ?_)
      fun h r hr txReq' hreq => ?_
    · cases hreq
      exact hg
    · cases hreq
      exact hr

theorem RelayRun.sends (hr : RelayRun b bodies tr c) (hreq : b.unmarshal (bodies i) = .ok txReq) :
    Sends txReq (tr.own i) := by
  refine Run.invariant (fun tr _ => Sends txReq (tr.own i)) (relays_spec b bodies) hr .nil ?_ ?_
  · intro tr s j op r t hs hg _
    by_cases hj : j = i
    · subst hj
      rw [Trace.own_snoc_self]
      exact hs.step (hg txReq hreq) r
    · rwa [Trace.own_snoc_ne _ hj]
  · exact fun _ _ _ _ hmove => hmove.elim

/-- The answer has one result for each item, in the order of the items and under their offer
ids. The requests sent to the exchanges are the items, each in exactly one request, in their
order. Once an exchange was refused nothing is sent to any. -/
theorem relay_aligns_results (hr : RelayRun b bodies tr c)
    (hreq : b.unmarshal (bodies i) = .ok txReq) : (∀ resp, c.threads i = .ret (.ok resp) →
      resp.items.map TransactionResultItem.offerID =
        txReq.items.map (fun item => item.offer.offerID) ∧
      ((sent (tr.own i)).map TransactionRequest.items).flatten.Perm txReq.items) ∧
    (∀ sub ∈ sent (tr.own i), ∃ domain,
      sub.items = txReq.items.filter fun item => item.offer.exchange = domain) ∧
    ((∃ e ∈ tr.own i, Refuses e) → sent (tr.own i) = []) ∧
    (∀ e, c.threads i = .ret (.error e) → sent (tr.own i) = []) ∧
    (sent (tr.own i) ≠ [] → ∀ item ∈ txReq.items, ∃ endpoint,
      Admitted (tr.own i) item.offer.exchange endpoint) := by
  have hsends := hr.sends hreq
  refine ⟨fun resp hret => ?_, fun sub hsub => ?_, ?_, fun e hret => ?_, hsends.admitted⟩
  · have hrelayed := (hr.returned (relays_spec b bodies) hret txReq hreq).2 resp rfl
    exact ⟨forall₂_map_eq (hrelayed.results.imp fun _ _ hit => hit.1), hrelayed.partition⟩
  · obtain ⟨⟨op, r⟩, he, hop⟩ := List.mem_filterMap.mp hsub
    obtain ⟨endpoint, rfl⟩ := Op.sends_eq_some hop
    obtain ⟨domain, -, hitems⟩ := hsends.addressed endpoint sub r he
    exact ⟨domain, hitems⟩
  · rintro ⟨e, he, hrefuses⟩
    by_contra hne
    exact hsends.unrefused hne e he hrefuses
  · exact (hr.returned (relays_spec b bodies) hret txReq hreq).1 e rfl

end

def plainBatch (requests : List (String × TransactionRequest)) : Batch where
  quote s := "\"" ++ s ++ "\""
  unmarshal body :=
    match requests.lookup body with
    | some txReq => .ok txReq
    | none => .error "unexpected token"
  batchTotal := plainService.batchTotal
  protocolVersion := "1.0"

def threeItems : TransactionRequest where
  ver := "1.0"
  idempotencyKey := "k"
  requester := "agent"
  items := [⟨⟨"o1", "x.example", ""⟩, ""⟩, ⟨⟨"o2", "y.example", ""⟩, ""⟩,
    ⟨⟨"o3", "x.example", ""⟩, ""⟩]
  agentRequestAcceptance := none

/-- Every exchange is registered and live, and `execute` answers for them. -/
def relayAnswer (execute : String → TransactionRequest → Except String TransactionResponse) :
    (op : Op) → Unit → Res op
  | .audit _ _ _, _ => ()
  | .verifyAgentSignature _, _ => .ok ⟨"key", "sig"⟩
  | .seenOrAdd _ _, _ => .ok false
  | .getByDomain domain, _ => .found ⟨"https://" ++ domain, .verified, true, 0⟩
  | .resolveEndpoint domain, _ => .resolved ("https://" ++ domain ++ "/")
  | .executeTransaction endpoint sub, _ => execute endpoint sub

def grantedItem (id : String) : TransactionResultItem :=
  { offerID := id, transactionID := "t-" ++ id }

def grant (offerIDs : List String) : TransactionResponse :=
  ⟨"1.0", offerIDs.map grantedItem, "hash", none⟩

def secondDown (endpoint : String) (sub : TransactionRequest) :
    Except String TransactionResponse :=
  if endpoint = "https://y.example" then .error "connection refused"
  else .ok (grant (sub.items.reverse.map fun item => item.offer.offerID))

theorem relay_aligns_results_three_items :
    ∃ tr c, RelayRun (plainBatch [("body", threeItems)]) (fun _ : Unit => "body") tr c ∧
      c.threads () = .ret (.ok ⟨"1.0",
        [grantedItem "o1", unavailableItem "o2", grantedItem "o3"], "hash", none⟩) ∧
      ((sent (tr.own ())).map TransactionRequest.items).flatten.Perm threeItems.items := by
  have hrun : ∃ tr c, RelayRun (plainBatch [("body", threeItems)]) (fun _ : Unit => "body") tr c ∧
      (c.threads ()).ok? = some ⟨"1.0",
        [grantedItem "o1", unavailableItem "o2", grantedItem "o3"], "hash", none⟩ :=
    Pool.exists_run (List.replicate 10 ⟨(), relayAnswer secondDown⟩) (by decide +kernel)
  obtain ⟨tr, c, hr, hok⟩ := hrun
  have hret := ok?_eq_some.mp hok
  obtain ⟨hanswer, -⟩ := relay_aligns_results hr (i := ()) rfl
  exact ⟨tr, c, hr, hret, (hanswer _ hret).2⟩

section

variable [DecidableEq ι]

/-- If every exchange answers about the offers it was sent, the result of an item is a denial
that the relay made or was returned by the exchange that the item's own offer names. -/
theorem relay_result_from_named_exchange (hr : RelayRun b bodies tr c)
    (hreq : b.unmarshal (bodies i) = .ok txReq) (hanswers : ∀ e ∈ tr.own i, AnswersSent e)
    {resp : TransactionResponse} (hret : c.threads i = .ret (.ok resp)) :
    List.Forall₂ (fun item it => it = unavailableItem item.offer.offerID ∨
      ∃ endpoint sub answer, Admitted (tr.own i) item.offer.exchange endpoint ∧
        (⟨.executeTransaction endpoint sub, .ok answer⟩ : Event Op Res) ∈ tr.own i ∧
        item ∈ sub.items ∧ it ∈ answer.items) txReq.items resp.items := by
  have hsends := hr.sends hreq
  have hrelayed := (hr.returned (relays_spec b bodies) hret txReq hreq).2 resp rfl
  refine (forall₂_join hrelayed.results hrelayed.results).imp fun item it hit => ?_
  obtain ⟨hitem, -, ⟨hid, hit⟩, -⟩ := hit
  refine hit.imp (fun hdenied => hid ▸ hdenied) fun hreturned => ?_
  obtain ⟨endpoint, sub, answer, hm, hin⟩ := hreturned
  obtain ⟨domain, hadmitted, hitems⟩ := hsends.addressed endpoint sub _ hm
  obtain ⟨item', hitem', heq⟩ := List.mem_map.mp (hanswers _ hm it hin)
  obtain ⟨hmem, hdomain⟩ := List.mem_filter.mp (hitems ▸ hitem')
  obtain rfl : item' = item :=
    List.inj_on_of_nodup_map hrelayed.distinct hmem hitem (heq.trans hid)
  have hdomain : item'.offer.exchange = domain := by simpa using hdomain
  exact ⟨endpoint, sub, answer, hdomain ▸ hadmitted, hm, hitem', hin⟩

end

def bothUp (_ : String) (sub : TransactionRequest) : Except String TransactionResponse :=
  .ok (grant (sub.items.map fun item => item.offer.offerID))

theorem relay_result_from_named_exchange_both_up :
    ∃ tr c, RelayRun (plainBatch [("body", threeItems)]) (fun _ : Unit => "body") tr c ∧
      (∀ e ∈ tr.own (), AnswersSent e) ∧
      List.Forall₂ (fun item it => it = unavailableItem item.offer.offerID ∨
        ∃ endpoint sub answer, Admitted (tr.own ()) item.offer.exchange endpoint ∧
          (⟨.executeTransaction endpoint sub, .ok answer⟩ : Event Op Res) ∈ tr.own () ∧
          item ∈ sub.items ∧ it ∈ answer.items)
        threeItems.items [grantedItem "o1", grantedItem "o2", grantedItem "o3"] := by
  have hrun : ∃ tr c, RelayRun (plainBatch [("body", threeItems)]) (fun _ : Unit => "body") tr c ∧
      (c.threads ()).ok? = some ⟨"1.0",
        [grantedItem "o1", grantedItem "o2", grantedItem "o3"], "hash", none⟩ ∧
      ∀ e ∈ tr.own (), AnswersSent e :=
    Pool.exists_run (List.replicate 9 ⟨(), relayAnswer bothUp⟩) (by decide +kernel)
  obtain ⟨tr, c, hr, hok, hanswers⟩ := hrun
  exact ⟨tr, c, hr, hanswers,
    relay_result_from_named_exchange hr (i := ()) rfl hanswers (ok?_eq_some.mp hok)⟩

def Relay.answersFrom (endpoint : String) (h : History Op Res) : List TransactionResultItem :=
  h.flatMap fun
    | ⟨.executeTransaction endpoint' _, .ok answer⟩ =>
      if endpoint' = endpoint then answer.items else []
    | _ => []

def firstGreedy (endpoint : String) (_ : TransactionRequest) : Except String TransactionResponse :=
  if endpoint = "https://y.example" then .ok (grant []) else .ok (grant ["o1", "o2", "o3"])

/-- The result for an item of one exchange is what the other exchange returned. -/
theorem result_from_other_exchange :
    ∃ tr c, RelayRun (plainBatch [("body", threeItems)]) (fun _ : Unit => "body") tr c ∧
      threeItems.items[1]?.map (fun item => item.offer.exchange) = some "y.example" ∧
      (c.threads ()).ok?.bind (fun resp => resp.items[1]?) = some (grantedItem "o2") ∧
      grantedItem "o2" ≠ unavailableItem "o2" ∧ answersFrom "https://y.example" (tr.own ()) = [] ∧
      grantedItem "o2" ∈ answersFrom "https://x.example" (tr.own ()) :=
  Pool.exists_run (List.replicate 9 ⟨(), relayAnswer firstGreedy⟩) (by decide +kernel)

end Ramp.Broker
