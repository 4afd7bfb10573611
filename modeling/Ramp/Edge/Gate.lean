import Ramp.Edge.App
import Ramp.Program.Schedule

/-! What the worker lets through. A signed request reaches the origin only after the checks
that it calls for, the origin cannot tell the signature parameters of a request, and a
delivery is recorded once for each request that was served. -/

namespace Ramp.Edge

open Prog

section

variable {w : Worker} {u v t t' : Url}

theorem foldl_filter_ne (names : List String) (params : List (String × String)) :
    names.foldl (fun params name => params.filter fun p => p.1 ≠ name) params =
      params.filter fun p => p.1 ∉ names := by
  induction names generalizing params with
  | nil => exact (List.filter_eq_self.mpr (by simp)).symm
  | cons name names ih =>
    rw [List.foldl_cons, ih, List.filter_filter]
    exact List.filter_congr fun p _ => by simp [Bool.and_comm]

theorem Worker.stripSignatureParams_eq (w : Worker) (u : Url) : w.stripSignatureParams u = { u with
      searchParams := u.searchParams.filter fun p => p.1 ∉ signatureParams
      query :=
        let text := w.web.encodeParams (u.searchParams.filter fun p => p.1 ∉ signatureParams)
        if text = "" then none else some text } := by
  rw [← foldl_filter_ne]
  rfl

structure Url.SameApart (u v : Url) : Prop where
  base : u.base = v.base
  origin : u.origin = v.origin
  pathname : u.pathname = v.pathname
  hash : u.hash = v.hash
  params : (u.searchParams.filter fun p => p.1 ∉ signatureParams) =
    v.searchParams.filter fun p => p.1 ∉ signatureParams

theorem Url.SameApart.strip (h : u.SameApart v) :
    w.stripSignatureParams u = w.stripSignatureParams v := by
  rw [w.stripSignatureParams_eq, w.stripSignatureParams_eq]
  simp only [Url.mk.injEq]
  exact ⟨h.base, h.origin, h.pathname, by rw [h.params], h.params, h.hash⟩

theorem Url.SameApart.withPathAndSearch (h : u.SameApart v) (target : Url) :
    (target.withPathAndSearch u).SameApart (target.withPathAndSearch v) :=
  ⟨rfl, rfl, h.pathname, rfl, h.params⟩

inductive Worker.Leads (w : Worker) (u : Url) : Url → Prop
  | forwarded {originUrl : String} {target : Url}
      (configured : w.deps.originUrl.filter (· ≠ "") = some originUrl)
      (parsed : w.web.newURL originUrl = some target) :
      Leads w u (w.stripSignatureParams (target.withPathAndSearch u))
  | sameZone (unset : w.deps.originUrl.filter (· ≠ "") = none) :
      Leads w u (w.stripSignatureParams u)

theorem Worker.Leads.eq_of_sameApart (ht : w.Leads u t) (ht' : w.Leads v t')
    (h : u.SameApart v) : t = t' := by
  cases ht with
  | forwarded configured parsed =>
    cases ht' with
    | forwarded configured' parsed' =>
      obtain rfl := Option.some.inj (configured.symm.trans configured')
      obtain rfl := Option.some.inj (parsed.symm.trans parsed')
      exact (h.withPathAndSearch _).strip
    | sameZone unset => cases unset.symm.trans configured
  | sameZone unset =>
    cases ht' with
    | forwarded configured parsed => cases unset.symm.trans configured
    | sameZone _ => exact h.strip

end

section

def delivers : Event Op Res → Bool
  | ⟨.logRecord _ event _, _⟩ => event = deliveryEvent
  | _ => false

def answers : Event Op Res → Bool
  | ⟨.fetch _, .ok _⟩ => true
  | _ => false

def deliveries (h : History Op Res) : Nat := h.countP delivers

variable (w : Worker) (req : Request) (h : History Op Res)

def Signed : Prop := ∃ url, w.web.newURL req.url = some url ∧ url.has "sig" = true

def Verified : Prop :=
  ∃ result, (⟨.verify req.url, .ok result⟩ : Event Op Res) ∈ h ∧ result.valid = true

def Proven (agentId : String) : Prop :=
  ∃ pop, (⟨.verifyBinding ⟨req.url, req.method, req.headers, agentId⟩, .ok pop⟩ : Event Op Res) ∈
    h ∧ pop.ok = true

structure Cleared : Prop where
  verified : Verified req h
  bound : ∀ url agentId, w.web.newURL req.url = some url → url.get "agent_id" = some agentId →
    agentId ≠ "" → w.deps.enforceBinding = some true → Proven req h agentId
  method : isReadMethod req.method = false → ∃ agentId, Proven req h agentId

def HandedBack (resp : Response) : Prop :=
  resp.body = .empty ∧ (cdnAuthorizedHeader, "cdn-origin-fetch") ∈ resp.headers

def Served (x : Except String Response) : Prop :=
  (∃ e ∈ h, answers e = true) ∨ ∃ resp, x = .ok resp ∧ HandedBack resp

def Worker.CdnOwned : Prop :=
  w.deps.originUrl.filter (· ≠ "") = none ∧ w.deps.sameZoneOrigin = false

def GivenId (id : String) : Prop := id ≠ "" ∨ (⟨.randomUUID, id⟩ : Event Op Res) ∈ h

def DeliveryOf (fields : List (String × String)) : Prop :=
  ∃ id facts outcome status, GivenId h id ∧
    fields = w.recordFields ⟨req, id⟩ (w.deliveryFields ⟨req, id⟩ facts outcome status)

def Guard : Op → Prop
  | .fetch out => (Signed w req → Cleared w req h) ∧ ∃ url target,
      w.web.newURL req.url = some url ∧ w.Leads url target ∧ out.url = w.web.href target
  | .logRecord _ event fields => event = deliveryEvent → DeliveryOf w req h fields ∧
      Signed w req ∧ Cleared w req h ∧ deliveries h = 0 ∧
      ((∃ e ∈ h, answers e = true) ∨ w.CdnOwned)
  | _ => True

structure Settled (x : Except String Response) : Prop where
  handed : ∀ resp, x = .ok resp → HandedBack resp → Signed w req → Cleared w req h
  counted : Signed w req → Cleared w req h → Served h x → deliveries h = 1
  silent : deliveries h ≠ 0 → Signed w req ∧ Cleared w req h ∧ Served h x ∧ deliveries h = 1

end

variable {w : Worker} {req : Request} {h : History Op Res}

structure Idle (h : History Op Res) : Prop where
  undelivered : deliveries h = 0
  unanswered : ∀ e ∈ h, answers e = false

theorem Idle.nil : Idle [] := ⟨rfl, fun e he => by cases he⟩

variable {e : Event Op Res}

theorem Idle.undelivered_snoc (hi : Idle h) (hd : delivers e = false) :
    deliveries (h ++ [e]) = 0 := by
  have hh := hi.undelivered
  rw [deliveries] at hh ⊢
  simp [hh, hd]

theorem answers_snoc (he : answers e = true) : ∃ e' ∈ h ++ [e], answers e' = true :=
  ⟨e, List.mem_append_right _ (List.mem_singleton.mpr rfl), he⟩

theorem Idle.snoc (hi : Idle h) (hd : delivers e = false) (ha : answers e = false) :
    Idle (h ++ [e]) := by
  refine ⟨hi.undelivered_snoc hd, fun e' he' => ?_⟩
  · rcases List.mem_append.mp he' with he' | he'
    · exact hi.unanswered e' he'
    · rw [List.mem_singleton.mp he']
      exact ha

theorem Idle.settled (hi : Idle h) {x : Except String Response}
    (hx : ∀ resp, x = .ok resp → ¬ HandedBack resp) : Settled w req h x := by
  refine ⟨fun resp hresp hb => absurd hb (hx resp hresp), fun _ _ hs => ?_, fun hd => ?_⟩
  · rcases hs with ⟨e, he, ha⟩ | ⟨resp, hresp, hb⟩
    · rw [hi.unanswered e he] at ha
      cases ha
    · exact absurd hb (hx resp hresp)
  · exact absurd hi.undelivered hd

/-- Whatever is replied, the calls of `x` are guarded and its result is settled. -/
abbrev Gated (w : Worker) (req : Request) (Q : History Op Res → Except String α → Prop)
    (x : Svc α) (h : History Op Res) : Prop :=
  Spec recordCall (Guard w req) Q x.run h

variable {α : Type} {level : LogLevel} {event : String} {extra : List (String × String)}
  {Q : History Op Res → Except String α → Prop}

section

variable {c : Context}

theorem rejection_not_handedBack (status : Nat) (error reason : String)
    (headers : List (String × String)) :
    ¬ HandedBack (rejection status error reason headers) := fun hb => by cases hb.1

theorem logEvent_idle {f : Unit → Svc α} (hi : Idle h) (hevent : event ≠ deliveryEvent)
    (hf : ∀ h', Idle h' → Gated w req Q (f ()) h') :
    Gated w req Q (w.logEvent c level event extra >>= f) h := by
  refine .ask (fun heq => absurd heq hevent) fun r t ht => ?_
  cases ht
  refine hf _ (hi.snoc ?_ rfl)
  simpa [delivers] using hevent

theorem refuse_gated {error reason : String} {status : Nat} {headers : List (String × String)}
    (hi : Idle h) (hevent : event ≠ deliveryEvent) :
    Gated w req (Settled w req) (do
      w.logEvent c level event extra
      pure (rejection status error reason headers)) h := by
  refine logEvent_idle hi hevent fun h' hi' => .pure (hi'.settled fun resp hresp => ?_)
  rw [← Except.ok.inj hresp]
  exact rejection_not_handedBack _ _ _ _

theorem handleVerifyResult_gated (hi : Idle h) (result : VerifyResult) :
    Gated w req (Settled w req) (w.handleVerifyResult c result) h := by
  unfold Worker.handleVerifyResult
  split_ifs
  · exact refuse_gated hi (by decide)
  · exact refuse_gated hi (by decide)

theorem denyBot_gated (hi : Idle h) : Gated w req (Settled w req) (w.denyBot c) h := by
  refine logEvent_idle hi (by decide) fun h' hi' => ?_
  split
  · exact .throw (hi'.settled fun resp hresp => by cases hresp)
  · refine .pure (hi'.settled fun resp hresp => ?_)
    rw [← Except.ok.inj hresp]
    exact rejection_not_handedBack _ _ _ _

end

theorem Proven.snoc {agentId : String} (hp : Proven req h agentId) (e : Event Op Res) :
    Proven req (h ++ [e]) agentId := by
  obtain ⟨pop, hm, hok⟩ := hp
  exact ⟨pop, List.mem_append_left _ hm, hok⟩

theorem Cleared.snoc (hc : Cleared w req h) (e : Event Op Res) : Cleared w req (h ++ [e]) := by
  obtain ⟨result, hm, hvalid⟩ := hc.verified
  refine ⟨⟨result, List.mem_append_left _ hm, hvalid⟩, ?_, fun hread => ?_⟩
  · intro url agentId hurl hagent hne henforce
    exact (hc.bound url agentId hurl hagent hne henforce).snoc e
  · obtain ⟨agentId, hp⟩ := hc.method hread
    exact ⟨agentId, hp.snoc e⟩

variable {h' : History Op Res} {id : String}

theorem GivenId.mono (hid : GivenId h id) (hsub : ∀ e ∈ h, e ∈ h') :
    GivenId h' id := hid.imp_right (hsub _)

section

variable {c : Context} {delivery : Option DeliveryFacts}

def Worker.Resolves (w : Worker) (rawUrl : String) (target : Option Url) : Prop :=
  ∃ url, w.web.newURL rawUrl = some url ∧ match target with
    | some t => w.Leads url t
    | none => w.CdnOwned

theorem resolveOrigin_gated {rawUrl : String} {f : Option Url × Outcome → Svc α}
    (hthrow : ∀ e, Q h (.error e))
    (hf : ∀ target outcome, w.Resolves rawUrl target → Gated w req Q (f (target, outcome)) h) :
    Gated w req Q (w.resolveOrigin rawUrl >>= f) h := by
  unfold Worker.resolveOrigin Worker.newURL
  cases hurl : w.web.newURL rawUrl with
  | none => exact .throw (hthrow _)
  | some url =>
    cases horigin : w.deps.originUrl.filter (· ≠ "") with
    | some originUrl =>
      cases htarget : w.web.newURL originUrl with
      | none =>
        simp only [htarget]
        exact .throw (hthrow _)
      | some target =>
        simp only [htarget]
        exact hf _ _ ⟨url, hurl, .forwarded horigin htarget⟩
    | none =>
      split_ifs with hzone
      · exact hf _ _ ⟨url, hurl, .sameZone horigin⟩
      · exact hf _ _ ⟨url, hurl, horigin, by simpa using hzone⟩

theorem logDelivery_gated {facts : DeliveryFacts} {outcome : Outcome} {status : Option Nat}
    {resp : Response} (hid : GivenId h c.requestId) (hsigned : Signed w c.req)
    (hc : Cleared w c.req h) (hnone : deliveries h = 0)
    (hserved : (∃ e ∈ h, answers e = true) ∨ w.CdnOwned)
    (hresp : (∃ e ∈ h, answers e = true) ∨ HandedBack resp) :
    Gated w c.req (Settled w c.req) (do
      w.logDelivery c facts outcome status
      pure resp) h := by
  refine .ask (fun _ => ⟨⟨_, _, _, _, hid, rfl⟩, hsigned, hc, hnone, hserved⟩) fun r t ht => ?_
  cases ht
  have hc' := hc.snoc ⟨_, r⟩
  have hone : deliveries (h ++ [⟨.logRecord .info deliveryEvent
      (w.recordFields c (w.deliveryFields c facts outcome status)), r⟩]) = 1 := by
    rw [deliveries] at hnone ⊢
    simp [hnone, delivers]
  refine .pure ⟨fun _ _ _ _ => hc', fun _ _ _ => hone, fun _ => ⟨hsigned, hc', ?_, hone⟩⟩
  rcases hresp with ⟨e, he, ha⟩ | hb
  · exact .inl ⟨e, List.mem_append_left _ he, ha⟩
  · exact .inr ⟨resp, rfl, hb⟩

theorem cdnAuthorized_handedBack : HandedBack Worker.cdnAuthorized := ⟨rfl, List.mem_cons_self⟩

theorem passToOrigin_gated (hi : Idle h) (hid : GivenId h c.requestId)
    (hdelivery : delivery.isSome = true ↔ Signed w c.req)
    (hc : Signed w c.req → Cleared w c.req h) :
    Gated w c.req (Settled w c.req) (w.passToOrigin c delivery) h := by
  refine resolveOrigin_gated (fun e => hi.settled fun resp hresp => by cases hresp) ?_
  rintro target outcome ⟨url, hurl, htarget⟩
  cases target with
  | none =>
    cases delivery with
    | none =>
      have hunsigned : ¬ Signed w c.req := fun hs => by simpa using hdelivery.mpr hs
      exact .pure ⟨fun _ _ _ hs => absurd hs hunsigned, fun hs => absurd hs hunsigned,
        fun hd => absurd hi.undelivered hd⟩
    | some facts =>
      have hsigned := hdelivery.mp rfl
      exact logDelivery_gated hid hsigned (hc hsigned) hi.undelivered (.inr htarget)
        (.inr cdnAuthorized_handedBack)
  | some target =>
    refine .ask ⟨hc, url, target, hurl, htarget, rfl⟩ fun reply t ht => ?_
    cases ht
    cases reply with
    | error err => exact refuse_gated (hi.snoc rfl rfl) (by decide)
    | ok response =>
      cases delivery with
      | none =>
        have hunsigned : ¬ Signed w c.req := fun hs => by simpa using hdelivery.mpr hs
        exact .pure ⟨fun _ _ _ hs => absurd hs hunsigned, fun hs => absurd hs hunsigned,
          fun hd => absurd (hi.undelivered_snoc rfl) hd⟩
      | some facts =>
        have hsigned := hdelivery.mp rfl
        exact logDelivery_gated (hid.mono fun e he => List.mem_append_left _ he) hsigned
          ((hc hsigned).snoc _) (hi.undelivered_snoc rfl) (.inl (answers_snoc rfl))
          (.inl (answers_snoc rfl))

end

section

variable {c : Context} {url : Url}

def Checked (w : Worker) (req : Request) (url : Url) (h h' : History Op Res) :
    Except String (Option Response) → Prop
  | .error _ => True
  | .ok (some denied) => ¬ HandedBack denied
  | .ok none => (∀ e ∈ h, e ∈ h') ∧ (w.bindingWillRun url = true →
      Proven req h' ((url.get "agent_id").getD ""))

theorem enforceBinding_gated (hi : Idle h) :
    Gated w req (fun h' x => Idle h' ∧ Checked w c.req url h h' x) (w.enforceBinding c url) h := by
  unfold Worker.enforceBinding
  split_ifs with hruns
  · refine .ask trivial fun reply t ht => ?_
    cases ht
    cases reply with
    | error err => exact .throw ⟨hi.snoc rfl rfl, trivial⟩
    | ok pop =>
      dsimp only
      split_ifs with hok
      · refine .pure ⟨hi.snoc rfl rfl, fun e he => List.mem_append_left _ he, fun _ => ?_⟩
        exact ⟨pop, List.mem_append_right _ (List.mem_singleton.mpr rfl), hok⟩
      · refine logEvent_idle (hi.snoc rfl rfl) (by decide) fun h' hi' => ?_
        exact .pure ⟨hi', rejection_not_handedBack _ _ _ _⟩
  · exact .pure ⟨hi, fun e he => he, fun hruns' => absurd hruns' hruns⟩

theorem bindingWillRun_iff : w.bindingWillRun url = true ↔
    (∃ agentId, url.get "agent_id" = some agentId ∧ agentId ≠ "") ∧
      w.deps.enforceBinding = some true := by
  simp [Worker.bindingWillRun, Option.any_eq_true]

theorem cleared_of_checked {result : VerifyResult} (hurl : w.web.newURL req.url = some url)
    (hv : (⟨.verify req.url, .ok result⟩ : Event Op Res) ∈ h) (hvalid : result.valid = true)
    (hmethod : isReadMethod req.method = false → w.bindingWillRun url = true)
    (hchecked : Checked w req url h h' (.ok none)) : Cleared w req h' := by
  obtain ⟨hsub, hproven⟩ := hchecked
  refine ⟨⟨result, hsub _ hv, hvalid⟩, ?_, fun hread => ⟨_, hproven (hmethod hread)⟩⟩
  intro url' agentId hurl' hagent hne henforce
  obtain rfl := Option.some.inj (hurl.symm.trans hurl')
  have hp := hproven (bindingWillRun_iff.mpr ⟨⟨agentId, hagent, hne⟩, henforce⟩)
  rwa [hagent] at hp

theorem signed_iff (hurl : w.web.newURL req.url = some url) :
    Signed w req ↔ url.has "sig" = true := by
  constructor
  · rintro ⟨url', hurl', hsig⟩
    obtain rfl := Option.some.inj (hurl.symm.trans hurl')
    exact hsig
  · exact fun hsig => ⟨url, hurl, hsig⟩

theorem catchallHandler_gated (c : Context) (hi : Idle h) (hid : GivenId h c.requestId) :
    Gated w c.req (Settled w c.req) (w.catchallHandler c) h := by
  unfold Worker.catchallHandler Worker.newURL
  cases hurl : w.web.newURL c.req.url with
  | none => exact .throw (hi.settled fun resp hresp => by cases hresp)
  | some url =>
    have hsigned : Signed w c.req ↔ url.has "sig" = true := signed_iff hurl
    change Gated _ _ _ (if ¬ url.has "sig" then _ else _) h
    by_cases hsig : url.has "sig" = true
    · rw [if_neg (not_not.mpr hsig)]
      refine .ask trivial fun reply t ht => ?_
      cases ht
      have hi' : Idle (h ++ [⟨.verify c.req.url, reply⟩]) := hi.snoc rfl rfl
      cases reply with
      | error err => exact refuse_gated hi' (by decide)
      | ok result =>
        dsimp only
        split_ifs with hvalid hmethod
        · exact refuse_gated hi' (by decide)
        · refine .seq (enforceBinding_gated hi') (fun h' e hh => ?_) fun h' denied hh => ?_
          · exact hh.1.settled fun resp hresp => by cases hresp
          · obtain ⟨hidle, hchecked⟩ := hh
            cases denied with
            | some resp =>
              refine .pure (hidle.settled fun resp' hresp => ?_)
              rw [← Except.ok.inj hresp]
              exact hchecked
            | none =>
              have hid' := hid.mono fun e he => hchecked.1 e (List.mem_append_left _ he)
              refine passToOrigin_gated hidle hid' ⟨fun _ => hsigned.mpr hsig, fun _ => rfl⟩ ?_
              intro _
              refine cleared_of_checked hurl (List.mem_append_right _ List.mem_cons_self) hvalid
                (fun hread => ?_) hchecked
              simpa [hread] using hmethod
        · exact handleVerifyResult_gated hi' result
    · rw [if_pos hsig]
      have hunsigned : ¬ Signed w c.req := fun hs => hsig (hsigned.mp hs)
      split_ifs
      · exact denyBot_gated hi
      · refine passToOrigin_gated hi hid ⟨fun hd => (by cases hd), fun hs => absurd hs hunsigned⟩ ?_
        exact fun hs => absurd hs hunsigned

variable {resp : Response}

theorem handedBack_header :
    HandedBack { resp with headers := resp.headers ++ [("X-Request-ID", id)] } ↔
      HandedBack resp := by
  simp [HandedBack, cdnAuthorizedHeader]

theorem Settled.header (hs : Settled w req h (.ok resp)) :
    Settled w req h (.ok { resp with headers := resp.headers ++ [("X-Request-ID", id)] }) := by
  have hserved : Served h (.ok { resp with headers := resp.headers ++ [("X-Request-ID", id)] }) ↔
      Served h (.ok resp) := by
    simp only [Served, Except.ok.injEq, exists_eq_left', handedBack_header]
  refine ⟨fun resp' hresp hb => ?_, fun hsigned hc hx => ?_, fun hd => ?_⟩
  · rw [← Except.ok.inj hresp, handedBack_header] at hb
    exact hs.handed resp rfl hb
  · exact hs.counted hsigned hc (hserved.mp hx)
  · rw [hserved]
    exact hs.silent hd

theorem serve_gated (w : Worker) (req : Request) :
    Gated w req (Settled w req) (w.serve req) [] := by
  have hnext : ∀ id h, Idle h → GivenId h id → Gated w req (Settled w req) (do
      let response ← w.catchallHandler ⟨req, id⟩
      pure { response with headers := response.headers ++ [("X-Request-ID", id)] }) h := by
    intro id h hi hid
    refine .seq (catchallHandler_gated ⟨req, id⟩ hi hid) (fun h' e hs => hs) fun h' resp hs => ?_
    exact .pure hs.header
  unfold Worker.serve Worker.requestIdMiddleware Worker.requestId
  split
  · refine .ask trivial fun id t ht => ?_
    cases ht
    exact hnext id _ (Idle.nil.snoc rfl rfl) (.inr List.mem_cons_self)
  · refine .ask trivial fun id t ht => ?_
    cases ht
    exact hnext id _ (Idle.nil.snoc rfl rfl) (.inr List.mem_cons_self)
  next incoming hne _ => exact hnext _ _ Idle.nil (.inl hne)

end

section

variable {ι : Type} [DecidableEq ι] {ws : ι → Worker} {reqs : ι → Request}
  {c : Pool Op Res Unit ι (Except String Response)} {tr : Trace Op Res ι}

abbrev EdgeRun (ws : ι → Worker) (reqs : ι → Request) (tr : Trace Op Res ι)
    (c : Pool Op Res Unit ι (Except String Response)) : Prop :=
  Run (fun _ s _ => some s) (fun _ _ => False)
    (⟨(), fun i => ((ws i).serve (reqs i)).run⟩ : Pool Op Res Unit ι _) tr c

structure GateKept (ws : ι → Worker) (reqs : ι → Request) (tr : Trace Op Res ι)
    (c : Pool Op Res Unit ι (Except String Response)) : Prop where
  forwarded : ∀ (pre : Trace Op Res ι) i out r post, tr = pre ++ (i, ⟨.fetch out, r⟩) :: post →
    Signed (ws i) (reqs i) → Cleared (ws i) (reqs i) (pre.own i)
  handedBack : ∀ i resp, c.threads i = .ret (.ok resp) → HandedBack resp →
    Signed (ws i) (reqs i) → Cleared (ws i) (reqs i) (tr.own i)
  sameOrigin : ∀ i j out out' r r' url url', (i, ⟨.fetch out, r⟩) ∈ tr →
    (j, ⟨.fetch out', r'⟩) ∈ tr → ws i = ws j → (ws i).web.newURL (reqs i).url = some url →
    (ws i).web.newURL (reqs j).url = some url' → url.SameApart url' → out.url = out'.url
  recorded : ∀ i x, c.threads i = .ret x → Signed (ws i) (reqs i) →
    Cleared (ws i) (reqs i) (tr.own i) → Served (tr.own i) x → deliveries (tr.own i) = 1
  unrecorded : ∀ i x, c.threads i = .ret x → ¬ (Signed (ws i) (reqs i) ∧
    Cleared (ws i) (reqs i) (tr.own i) ∧ Served (tr.own i) x) → deliveries (tr.own i) = 0
  delivered : ∀ (pre : Trace Op Res ι) i e post, tr = pre ++ (i, e) :: post →
    delivers e = true → Signed (ws i) (reqs i) ∧ Cleared (ws i) (reqs i) (pre.own i) ∧
      deliveries (pre.own i) = 0 ∧
      ((∃ e ∈ pre.own i, answers e = true) ∨ (ws i).CdnOwned)

/-- In every run a signed request reaches the origin only if its URL was verified, its first
`agent_id` was proven where the deployment enforces that, and any method but a read was
proven; requests that differ in the signature parameters reach the same origin URL; and a
delivery is recorded once for each signed request that was served. -/
theorem edge_gate_kept (hr : EdgeRun ws reqs tr c) : GateKept ws reqs tr c := by
  have hspec : ∀ i, Spec recordCall (Guard (ws i) (reqs i)) (Settled (ws i) (reqs i))
      ((ws i).serve (reqs i)).run [] := fun i => serve_gated (ws i) (reqs i)
  have hleads : ∀ i out r, (i, (⟨.fetch out, r⟩ : Event Op Res)) ∈ tr → ∃ url target,
      (ws i).web.newURL (reqs i).url = some url ∧ (ws i).Leads url target ∧
        out.url = (ws i).web.href target := by
    intro i out r hm
    obtain ⟨pre, post, htr⟩ := List.append_of_mem hm
    exact (hr.guarded hspec htr).2
  refine ⟨?_, ?_, ?_, ?_, ?_, ?_⟩
  · intro pre i out r post htr
    exact (hr.guarded hspec htr).1
  · intro i resp hret
    exact (hr.returned hspec hret).handed resp rfl
  · intro i j out out' r r' url url' hm hm' hw hurl hurl' hsame
    obtain ⟨u, target, hu, hl, hout⟩ := hleads i out r hm
    obtain ⟨v, target', hv, hl', hout'⟩ := hleads j out' r' hm'
    rw [← hw] at hv hl' hout'
    obtain rfl := Option.some.inj (hurl.symm.trans hu)
    obtain rfl := Option.some.inj (hurl'.symm.trans hv)
    rw [hout, hout', hl.eq_of_sameApart hl' hsame]
  · intro i x hret
    exact (hr.returned hspec hret).counted
  · intro i x hret hnot
    by_contra hd
    obtain ⟨hsigned, hc, hserved, -⟩ := (hr.returned hspec hret).silent hd
    exact hnot ⟨hsigned, hc, hserved⟩
  · intro pre i e post htr hd
    have hg := hr.guarded hspec htr
    obtain ⟨op, r⟩ := e
    cases op with
    | logRecord level event fields => exact (hg (of_decide_eq_true hd)).2
    | _ => cases hd

theorem EdgeRun.delivery_fields (hr : EdgeRun ws reqs tr c) {i : ι}
    {fields : List (String × String)}
    (hm : (i, (⟨.logRecord level deliveryEvent fields, ()⟩ : Event Op Res)) ∈ tr) :
    DeliveryOf (ws i) (reqs i) (tr.own i) fields := by
  have hspec : ∀ i, Spec recordCall (Guard (ws i) (reqs i)) (Settled (ws i) (reqs i))
      ((ws i).serve (reqs i)).run [] := fun i => serve_gated (ws i) (reqs i)
  obtain ⟨pre, post, rfl⟩ := List.append_of_mem hm
  obtain ⟨⟨id, facts, outcome, status, hid, hfields⟩, -⟩ := hr.guarded hspec rfl rfl
  refine ⟨id, facts, outcome, status, hid.mono fun e he => ?_, hfields⟩
  rw [Trace.own_append]
  exact List.mem_append_left _ he

end

/-- Two signed URLs of one page, and one with two values of `agent_id`. -/
def pageUrl (params : List (String × String)) : Url where
  base := "https://pub.example"
  origin := "https://pub.example"
  pathname := "/a"
  query := some "signed"
  searchParams := params
  hash := ""

def plainWeb : Web where
  newURL text :=
    if text = "https://pub.example/a?page=2&sig=1" then some (pageUrl [("page", "2"), ("sig", "1")])
    else if text = "https://pub.example/a?sig=2&page=2" then
      some (pageUrl [("sig", "2"), ("page", "2")])
    else if text = "https://pub.example/a?sig=3&agent_id=&agent_id=bob" then
      some (pageUrl [("sig", "3"), ("agent_id", ""), ("agent_id", "bob")])
    else none
  resolve _ _ := none
  href u := u.base ++ u.pathname ++ (u.query.map ("?" ++ ·)).getD ""
  encodeParams l := String.join (l.map fun p => p.1 ++ "=" ++ p.2)
  path _ := "/a"
  sha256 _ := []

def plainWorker : Worker where
  web := plainWeb
  deps :=
    { enforceBinding := some true
      originUrl := none
      sameZoneOrigin := true
      exchangeUrl := none
      botSignal _ := none
      botAllowPatterns := []
      botDenyPatterns := [] }

def reads (url : String) : Request := ⟨url, "GET", [("x-request-id", "req-1")], none⟩

def plainAnswer : (op : Op) → Unit → Res op
  | .randomUUID, _ => "uuid"
  | .verify _, _ => .ok ⟨true, false, none, none, none⟩
  | .verifyBinding _, _ => .ok ⟨true, none⟩
  | .fetch _, _ => .ok ⟨200, [], "page"⟩
  | .logRecord _ _ _, _ => ()

def isProof : Event Op Res → Bool
  | ⟨.verifyBinding _, _⟩ => true
  | _ => false

/-- A request whose first `agent_id` is empty is served without a proof for the second. -/
theorem second_agent_unproven : ∃ tr c, EdgeRun (fun _ : Unit => plainWorker)
        (fun _ => reads "https://pub.example/a?sig=3&agent_id=&agent_id=bob") tr c ∧
      plainWorker.deps.enforceBinding = some true ∧
      (plainWeb.newURL "https://pub.example/a?sig=3&agent_id=&agent_id=bob").any
        (fun url => url.has "sig" ∧ ("agent_id", "bob") ∈ url.searchParams) = true ∧
      (∃ e ∈ tr.own (), answers e = true) ∧ ∀ e ∈ tr.own (), isProof e = false :=
  Pool.exists_run (List.replicate 3 ⟨(), plainAnswer⟩) (by decide +kernel)

theorem edge_gate_kept_two_reads : ∃ tr c, EdgeRun (fun _ : Bool => plainWorker)
        (fun i => reads (if i then "https://pub.example/a?page=2&sig=1"
          else "https://pub.example/a?sig=2&page=2")) tr c ∧
      (∀ i, deliveries (tr.own i) = 1) ∧ GateKept (fun _ => plainWorker)
        (fun i => reads (if i then "https://pub.example/a?page=2&sig=1"
          else "https://pub.example/a?sig=2&page=2")) tr c := by
  have hrun : ∃ tr c, EdgeRun (fun _ : Bool => plainWorker)
        (fun i => reads (if i then "https://pub.example/a?page=2&sig=1"
          else "https://pub.example/a?sig=2&page=2")) tr c ∧
      ∀ i, deliveries (tr.own i) = 1 :=
    Pool.exists_run (List.replicate 3 ⟨true, plainAnswer⟩ ++ List.replicate 3 ⟨false, plainAnswer⟩)
      (by decide +kernel)
  obtain ⟨tr, c, hr, hd⟩ := hrun
  exact ⟨tr, c, hr, hd, edge_gate_kept hr⟩

end Ramp.Edge
