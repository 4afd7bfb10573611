import Ramp.Data.Json
import Ramp.Data.Text
import Ramp.Edge.Gate

/-! The search for a delivery in the logs of the edge worker. The regions are swept for lines
that hold the digest of the URL, and the first of them that is a delivery record is taken. -/

namespace Ramp.Evidence

open Ramp.Edge

structure DeliveryRecord where
  urlHash : String := ""
  outcome : String := ""
  kid : String := ""
  agentID : String := ""
  method : String := ""
  path : String := ""
  requestID : String := ""
  originStatus : String := ""
  region : String := ""

namespace DeliveryRecord

def set (r : DeliveryRecord) (field : String × String) : DeliveryRecord :=
  if field.1 = "url_hash" then { r with urlHash := field.2 }
  else if field.1 = "outcome" then { r with outcome := field.2 }
  else if field.1 = "kid" then { r with kid := field.2 }
  else if field.1 = "agent_id" then { r with agentID := field.2 }
  else if field.1 = "method" then { r with method := field.2 }
  else if field.1 = "path" then { r with path := field.2 }
  else if field.1 = "request_id" then { r with requestID := field.2 }
  else if field.1 = "origin_status" then { r with originStatus := field.2 }
  else r

def ofFields (fields : List (String × String)) : DeliveryRecord := fields.foldl set {}

def missingRequired (r : DeliveryRecord) : String :=
  (([("url_hash", r.urlHash), ("outcome", r.outcome), ("method", r.method), ("path", r.path),
    ("request_id", r.requestID)].find? fun f => f.2 = "").map Prod.fst).getD ""

end DeliveryRecord

def recordKeys : List String :=
  ["url_hash", "outcome", "kid", "agent_id", "method", "path", "request_id", "origin_status"]

/-- The JSON reader, which reads what the worker's writer writes, and the quoting of texts in
errors, which cuts long lines. -/
structure Reader where
  unmarshal : List Char → Except String DeliveryRecord
  unmarshal_stringify : ∀ fields, (∀ f ∈ fields, f.1 ∈ recordKeys) →
    unmarshal (Json.stringify fields) = .ok (.ofFields fields)
  quote : String → String
  quoteLine : List Char → String

inductive FilterReply
  | noSuchLogGroup
  | failed (text : String)
  | events (messages : Except String (List (List Char)))

namespace Reader

variable (rd : Reader)

def parseDeliveryLine (message : List Char) : Except String (Option DeliveryRecord) :=
  match cutFirst deliveryEvent.toList message with
  | none => .ok none
  | some rest =>
    let payload := trimSpace rest
    if payload.head? ≠ some '{' then
      .error ("delivery record has no JSON payload: " ++ rd.quoteLine message)
    else
      match rd.unmarshal payload with
      | .error e => .error ("decode delivery record: " ++ e ++ " (line " ++ rd.quoteLine message ++
          ")")
      | .ok record =>
        if record.missingRequired ≠ "" then
          .error ("delivery record carries no " ++ record.missingRequired ++
            ", so the worker and this parser disagree about the payload's field names (line " ++
            rd.quoteLine message ++ ")")
        else .ok (some record)

def firstDeliveryRecord : List (List Char) → Except String (Option DeliveryRecord)
  | [] => .ok none
  | message :: messages =>
    match rd.parseDeliveryLine message with
    | .error e => .error e
    | .ok (some record) => .ok (some record)
    | .ok none => firstDeliveryRecord messages

def sweep (logGroup : String) (filterLogEvents : String → FilterReply) (total : Nat) :
    List String → Nat → Except String (Option DeliveryRecord)
  | [], skipped =>
    if skipped = total then
      .error ("log group " ++ rd.quote logGroup ++ " exists in none of the " ++ toString total ++
        " swept regions")
    else .ok none
  | region :: regions, skipped =>
    match filterLogEvents region with
    | .noSuchLogGroup => sweep logGroup filterLogEvents total regions (skipped + 1)
    | .failed e => .error ("region " ++ region ++ ": " ++ e)
    | .events (.error e) =>
      .error ("region " ++ region ++ ": decode filter-log-events response: " ++ e)
    | .events (.ok messages) =>
      match rd.firstDeliveryRecord messages with
      | .error e => .error ("region " ++ region ++ ": " ++ e)
      | .ok (some record) => .ok (some { record with region })
      | .ok none => sweep logGroup filterLogEvents total regions skipped

def findDelivery (logGroup : String) (filterLogEvents : String → FilterReply)
    (regions : List String) : Except String (Option DeliveryRecord) :=
  rd.sweep logGroup filterLogEvents regions.length regions 0

end Reader

section

/-- What the runtime puts in front of a line, without the tab at its end. It does not hold the
name of the event. -/
structure Envelope where
  head : String
  fresh : ¬ deliveryEvent.toList <:+: head.toList

structure LogLine where
  envelope : Envelope
  event : String
  fields : List (String × String)

namespace LogLine

def text (l : LogLine) : List Char :=
  l.envelope.head.toList ++ '\t' :: (l.event.toList ++ ' ' :: (Json.stringify l.fields ++ ['\n']))

def Delivers (digest : String) (l : LogLine) : Prop :=
  l.event = deliveryEvent ∧ ("url_hash", digest) ∈ l.fields

def Undisguised (digest : String) (l : LogLine) : Prop :=
  digest.toList <:+: l.text → deliveryEvent.toList <:+: l.text → l.Delivers digest

end LogLine

def matching (digest : String) (lines : List LogLine) : List (List Char) :=
  (lines.map LogLine.text).filter fun text => digest.toList <:+: text

structure LogLine.WellFormed (l : LogLine) : Prop where
  keys : ∀ f ∈ l.fields, f.1 ∈ recordKeys
  required : (DeliveryRecord.ofFields l.fields).missingRequired = ""
  hashed : ∀ v, ("url_hash", v) ∈ l.fields →
    (DeliveryRecord.ofFields l.fields).urlHash = v ∧ ∃ bytes, v = hexText bytes

variable {rd : Reader} {l : LogLine} {digest : String}

theorem isSpace_brace : isSpace '{' = false ∧ isSpace '}' = false := by decide

theorem LogLine.WellFormed.parse (hl : l.WellFormed) (hevent : l.event = deliveryEvent) :
    rd.parseDeliveryLine l.text = .ok (some (.ofFields l.fields)) := by
  have hcut : cutFirst deliveryEvent.toList l.text =
      some ([' '] ++ Json.stringify l.fields ++ ['\n']) := by
    rw [LogLine.text, hevent]
    exact cutFirst_append l.envelope.fresh (by decide)
  have htrim : trimSpace ([' '] ++ Json.stringify l.fields ++ ['\n']) =
      Json.stringify l.fields :=
    trimSpace_between (by decide) (by decide) isSpace_brace.1 isSpace_brace.2
  rw [Reader.parseDeliveryLine, hcut]
  simp only [htrim, rd.unmarshal_stringify _ hl.keys, hl.required]
  rfl

theorem parse_other (h : ¬ deliveryEvent.toList <:+: l.text) :
    rd.parseDeliveryLine l.text = .ok none := by
  rw [Reader.parseDeliveryLine, cutFirst_eq_none h]

theorem LogLine.Delivers.holds (hd : l.Delivers digest) (hl : l.WellFormed) :
    digest.toList <:+: l.text := by
  obtain ⟨bytes, rfl⟩ := (hl.hashed digest hd.2).2
  have hshown := Json.escape_infix_stringify hd.2
  rw [hexText, String.toList_ofList, Json.escape_encodeHex] at hshown
  rw [hexText, String.toList_ofList]
  refine hshown.trans ⟨l.envelope.head.toList ++ '\t' :: (l.event.toList ++ [' ']), ['\n'], ?_⟩
  simp [LogLine.text]

theorem firstDeliveryRecord_matching {lines : List LogLine}
    (hwf : ∀ l ∈ lines, l.event = deliveryEvent → l.WellFormed)
    (hplain : ∀ l ∈ lines, l.Undisguised digest) :
    (rd.firstDeliveryRecord (matching digest lines) = .ok none ∧ ∀ l ∈ lines, ¬ l.Delivers digest) ∨
    ∃ l ∈ lines, l.Delivers digest ∧
      rd.firstDeliveryRecord (matching digest lines) = .ok (some (.ofFields l.fields)) := by
  induction lines with
  | nil => exact .inl ⟨rfl, fun l hl => by cases hl⟩
  | cons l lines ih =>
    obtain ⟨hl, hwf⟩ := List.forall_mem_cons.mp hwf
    obtain ⟨hp, hplain⟩ := List.forall_mem_cons.mp hplain
    by_cases hd : l.Delivers digest
    · have hholds := hd.holds (hl hd.1)
      refine .inr ⟨l, List.mem_cons_self, hd, ?_⟩
      rw [matching, List.map_cons, List.filter_cons_of_pos (by simpa using hholds)]
      rw [Reader.firstDeliveryRecord, (hl hd.1).parse hd.1]
    · have hskip : rd.firstDeliveryRecord (matching digest (l :: lines)) =
          rd.firstDeliveryRecord (matching digest lines) := by
        rw [matching, List.map_cons]
        by_cases hholds : digest.toList <:+: l.text
        · have hother : ¬ deliveryEvent.toList <:+: l.text := fun he => hd (hp hholds he)
          rw [List.filter_cons_of_pos (by simpa using hholds), Reader.firstDeliveryRecord,
            parse_other hother]
          rfl
        · rw [List.filter_cons_of_neg (by simpa using hholds)]
          rfl
      rw [hskip]
      rcases ih hwf hplain with ⟨hnone, hall⟩ | ⟨l', hl', hd', hfirst⟩
      · exact .inl ⟨hnone, List.forall_mem_cons.mpr ⟨hd, hall⟩⟩
      · exact .inr ⟨l', List.mem_cons_of_mem _ hl', hd', hfirst⟩

end

section

variable {rd : Reader} {digest logGroup : String} {regions : List String}
  {content : String → List LogLine} {filterLogEvents : String → FilterReply}

def ReadsLogs (digest : String) (regions : List String) (content : String → List LogLine)
    (filterLogEvents : String → FilterReply) : Prop :=
  ∀ region ∈ regions,
    filterLogEvents region = .events (.ok (matching digest (content region))) ∨
      (filterLogEvents region = .noSuchLogGroup ∧ content region = [])

theorem sweep_finds {total skipped : Nat}
    (hwf : ∀ region ∈ regions, ∀ l ∈ content region, l.event = deliveryEvent → l.WellFormed)
    (hplain : ∀ region ∈ regions, ∀ l ∈ content region, l.Undisguised digest)
    (hread : ReadsLogs digest regions content filterLogEvents)
    (hthere : ∃ region ∈ regions, ∃ l ∈ content region, l.Delivers digest) :
    ∃ region ∈ regions, ∃ l ∈ content region, l.Delivers digest ∧
      rd.sweep logGroup filterLogEvents total regions skipped =
        .ok (some { DeliveryRecord.ofFields l.fields with region }) := by
  induction regions generalizing skipped with
  | nil =>
    obtain ⟨region, hregion, -⟩ := hthere
    cases hregion
  | cons region regions ih =>
    obtain ⟨hwf₀, hwf⟩ := List.forall_mem_cons.mp hwf
    obtain ⟨hplain₀, hplain⟩ := List.forall_mem_cons.mp hplain
    obtain ⟨hread₀, hread⟩ := List.forall_mem_cons.mp hread
    have hlater : (∀ l ∈ content region, ¬ l.Delivers digest) → ∀ skipped,
        ∃ region' ∈ region :: regions, ∃ l ∈ content region', l.Delivers digest ∧
          rd.sweep logGroup filterLogEvents total regions skipped =
            .ok (some { DeliveryRecord.ofFields l.fields with region := region' }) := by
      intro hnone skipped
      have hthere' : ∃ region ∈ regions, ∃ l ∈ content region, l.Delivers digest := by
        obtain ⟨region', hregion, l, hl, hd⟩ := hthere
        rcases List.mem_cons.mp hregion with rfl | hregion
        · exact absurd hd (hnone l hl)
        · exact ⟨region', hregion, l, hl, hd⟩
      obtain ⟨region', hregion, hfound⟩ := ih hwf hplain hread hthere'
      exact ⟨region', List.mem_cons_of_mem _ hregion, hfound⟩
    rcases hread₀ with hevents | ⟨hgroup, hempty⟩
    · rw [Reader.sweep, hevents]
      have hfirst := @firstDeliveryRecord_matching rd digest _ hwf₀ hplain₀
      rcases hfirst with ⟨hnone, hall⟩ | ⟨l, hl, hd, hfirst⟩
      · simp only [hnone]
        exact hlater hall skipped
      · simp only [hfirst]
        exact ⟨region, List.mem_cons_self, l, hl, hd, rfl⟩
    · rw [Reader.sweep, hgroup]
      refine hlater (fun l hl => ?_) (skipped + 1)
      rw [hempty] at hl
      cases hl

end

section

variable {ι : Type} [DecidableEq ι] {ws : ι → Worker} {reqs : ι → Request}
  {c : Pool Op Res Unit ι (Except String Response)} {tr : Trace Op Res ι}

/-- What the platform gives to every request: a method, a path, a digest and, where it makes
the id of the request, an id. -/
structure Platform (ws : ι → Worker) (reqs : ι → Request) (tr : Trace Op Res ι) : Prop where
  method : ∀ i, (reqs i).method ≠ ""
  path : ∀ i, (ws i).web.path (reqs i).url ≠ ""
  digest : ∀ i, (ws i).web.sha256 (reqs i).url ≠ []
  uuid : ∀ i id, (i, (⟨.randomUUID, id⟩ : Event Op Res)) ∈ tr → id ≠ ""

def Written (tr : Trace Op Res ι) (l : LogLine) : Prop :=
  (∃ i level, (i, (⟨.logRecord level l.event l.fields, ()⟩ : Event Op Res)) ∈ tr) ∨
    l.event = "edge.keys.load_failed"

theorem hexText_ne_empty {bytes : List UInt8} (h : bytes ≠ []) : hexText bytes ≠ "" := by
  cases bytes with
  | nil => exact absurd rfl h
  | cons b bytes =>
    intro heq
    have hlist := congrArg String.toList heq
    simp [hexText, encodeHex] at hlist

section

variable (w : Worker) (ctx : Context) (facts : DeliveryFacts) (outcome : Outcome)
  (status : Option Nat)

theorem deliveryFields_keys :
    ∀ f ∈ w.recordFields ctx (w.deliveryFields ctx facts outcome status), f.1 ∈ recordKeys := by
  obtain ⟨kid, agentId⟩ := facts
  rcases kid with _ | kid <;> rcases agentId with _ | agentId <;> rcases status with _ | status <;>
    simp [Worker.recordFields, Worker.deliveryFields, recordKeys]

theorem deliveryFields_hash {v : String}
    (h : ("url_hash", v) ∈ w.recordFields ctx (w.deliveryFields ctx facts outcome status)) :
    v = w.sha256Hex ctx.req.url := by
  obtain ⟨kid, agentId⟩ := facts
  rcases kid with _ | kid <;> rcases agentId with _ | agentId <;> rcases status with _ | status <;>
    simpa [Worker.recordFields, Worker.deliveryFields] using h

theorem ofFields_delivery :
    let r := DeliveryRecord.ofFields
      (w.recordFields ctx (w.deliveryFields ctx facts outcome status))
    r.urlHash = w.sha256Hex ctx.req.url ∧ r.outcome = outcome.text ∧
      r.method = ctx.req.method ∧ r.path = w.web.path ctx.req.url ∧
      r.requestID = ctx.requestId := by
  obtain ⟨kid, agentId⟩ := facts
  rcases kid with _ | kid <;> rcases agentId with _ | agentId <;> rcases status with _ | status <;>
    simp [Worker.recordFields, Worker.deliveryFields, DeliveryRecord.ofFields, DeliveryRecord.set]

end

theorem deliveryFields_wellFormed {w : Worker} {ctx : Context} {facts : DeliveryFacts}
    {outcome : Outcome} {status : Option Nat} {l : LogLine}
    (hfields : l.fields = w.recordFields ctx (w.deliveryFields ctx facts outcome status))
    (hmethod : ctx.req.method ≠ "") (hpath : w.web.path ctx.req.url ≠ "")
    (hdigest : w.web.sha256 ctx.req.url ≠ []) (hid : ctx.requestId ≠ "") : l.WellFormed := by
  have hhash : w.sha256Hex ctx.req.url ≠ "" := hexText_ne_empty hdigest
  have houtcome : outcome.text ≠ "" := by cases outcome <;> decide
  obtain ⟨hurl, hout, hm, hp, hr⟩ := ofFields_delivery w ctx facts outcome status
  refine ⟨?_, ?_, fun v hv => ?_⟩
  · rw [hfields]
    exact deliveryFields_keys w ctx facts outcome status
  · rw [hfields]
    simp [DeliveryRecord.missingRequired, hurl, hout, hm, hp, hr, hhash, houtcome, hmethod, hpath,
      hid]
  · rw [hfields] at hv ⊢
    rw [deliveryFields_hash w ctx facts outcome status hv]
    exact ⟨hurl, _, rfl⟩

theorem Written.wellFormed {l : LogLine} (hr : EdgeRun ws reqs tr c) (hp : Platform ws reqs tr)
    (hl : Written tr l) (hevent : l.event = deliveryEvent) : l.WellFormed := by
  rcases hl with ⟨i, level, hm⟩ | hkeys
  · rw [hevent] at hm
    obtain ⟨id, facts, outcome, status, hid, hfields⟩ := hr.delivery_fields hm
    refine deliveryFields_wellFormed hfields (hp.method i) (hp.path i) (hp.digest i) ?_
    rcases hid with hid | hid
    · exact hid
    · exact hp.uuid i id (Trace.mem_own.mp hid)
  · rw [hkeys] at hevent
    exact absurd hevent (by decide)

/-- If every line that holds the digest and the name of the delivery event is the record of a
delivery of that digest, a delivery that the worker recorded is found: the search returns the
record of a delivery with the digest. -/
theorem delivery_found {rd : Reader} {digest logGroup : String} {regions : List String}
    {content : String → List LogLine} {filterLogEvents : String → FilterReply}
    (hr : EdgeRun ws reqs tr c) (hp : Platform ws reqs tr)
    (hwritten : ∀ region ∈ regions, ∀ l ∈ content region, Written tr l)
    (hread : ReadsLogs digest regions content filterLogEvents)
    (hthere : ∃ region ∈ regions, ∃ l ∈ content region, l.Delivers digest)
    (hplain : ∀ region ∈ regions, ∀ l ∈ content region, l.Undisguised digest) :
    ∃ record, rd.findDelivery logGroup filterLogEvents regions = .ok (some record) ∧
      record.urlHash = digest ∧ ∃ region ∈ regions, ∃ l ∈ content region, l.Delivers digest ∧
        record = { DeliveryRecord.ofFields l.fields with region } := by
  have hwf : ∀ region ∈ regions, ∀ l ∈ content region, l.event = deliveryEvent → l.WellFormed :=
    fun region hregion l hl hevent => (hwritten region hregion l hl).wellFormed hr hp hevent
  obtain ⟨region, hregion, l, hl, hd, hfound⟩ := sweep_finds hwf hplain hread hthere
  refine ⟨_, hfound, ?_, region, hregion, l, hl, hd, rfl⟩
  exact ((hwf region hregion l hl hd.1).hashed digest hd.2).1

end

def plainReader : Reader where
  unmarshal text :=
    match Json.parse text with
    | some fields => .ok (.ofFields fields)
    | none => .error "invalid JSON"
  unmarshal_stringify fields _ := by simp only [Json.parse_stringify]
  quote text := "\"" ++ text ++ "\""
  quoteLine text := "\"" ++ String.ofList text ++ "\""

def plainEnvelope : Envelope := ⟨"2026-08-16T14:21:55.123Z\t8e1c\tINFO", by decide +kernel⟩

def logLines {ι : Type} (tr : Trace Op Res ι) : List LogLine :=
  tr.filterMap fun x => match x.2 with
    | ⟨.logRecord _ event fields, _⟩ => some ⟨plainEnvelope, event, fields⟩
    | _ => none

theorem logLines_written {ι : Type} {tr : Trace Op Res ι} {l : LogLine} (hl : l ∈ logLines tr) :
    Written tr l := by
  obtain ⟨⟨i, op, r⟩, hm, hx⟩ := List.mem_filterMap.mp hl
  cases op with
  | logRecord level event fields =>
    cases hx
    exact .inl ⟨i, level, hm⟩
  | _ => cases hx

instance (digest : String) : DecidablePred (LogLine.Delivers digest) := fun _ =>
  inferInstanceAs (Decidable (_ ∧ _))

instance (digest : String) : DecidablePred (LogLine.Undisguised digest) := fun _ =>
  inferInstanceAs (Decidable (_ → _ → _))

def logWeb : Web where
  newURL text :=
    if text = "https://pub.example/a?sig=1" then
      some ⟨"https://pub.example", "https://pub.example", "/a", some "sig=1", [("sig", "1")], ""⟩
    else if text = "https://pub.example/b?sig=2" then
      some ⟨"https://pub.example", "https://pub.example", "/b", some "sig=2", [("sig", "2")], ""⟩
    else
      some ⟨"https://pub.example", "https://pub.example", "/edge.deliver.authorized", none, [], ""⟩
  resolve path base := some (base ++ path)
  href u := u.base ++ u.pathname
  encodeParams _ := ""
  path text :=
    if text = "https://pub.example/a?sig=1" then "/a"
    else if text = "https://pub.example/b?sig=2" then "/b"
    else "/edge.deliver.authorized"
  sha256 text := List.replicate 32 (if text = "https://pub.example/a?sig=1" then 0xab else 0xcd)

def logWorker : Worker := { plainWorker with web := logWeb }

def firstDigest : String := logWorker.sha256Hex "https://pub.example/a?sig=1"

def decoys (i : Fin 3) : Request where
  url := ["https://pub.example/a?sig=1", "https://pub.example/b?sig=2",
    "https://pub.example/edge.deliver.authorized"][i]
  method := "GET"
  headers := [("x-request-id", if i = 0 then "req-1" else firstDigest)]
  body := none

def searchLog (tr : Trace Op Res (Fin 3)) : Except String (Option DeliveryRecord) :=
  plainReader.findDelivery "edge" (fun _ => .events (.ok (matching firstDigest (logLines tr))))
    ["eu-west-1"]

/-- A refused request makes the search fail, and another delivery is returned instead. -/
theorem delivery_hidden : (∃ tr c, EdgeRun (fun _ => logWorker) decoys tr c ∧
      (∃ l ∈ logLines tr, l.Delivers firstDigest) ∧ (searchLog tr).toOption = none) ∧
    ∃ tr c, EdgeRun (fun _ => logWorker) decoys tr c ∧ (∃ l ∈ logLines tr, l.Delivers firstDigest) ∧
      (searchLog tr).toOption.any (fun r => r.any fun r => r.urlHash ≠ firstDigest) = true :=
  ⟨Pool.exists_run (⟨2, plainAnswer⟩ :: List.replicate 3 ⟨0, plainAnswer⟩) (by decide +kernel),
    Pool.exists_run (List.replicate 3 ⟨1, plainAnswer⟩ ++ List.replicate 3 ⟨0, plainAnswer⟩)
      (by decide +kernel)⟩

theorem logWorker_platform {tr : Trace Op Res (Fin 3)}
    (huuid : ∀ x ∈ tr, x.2.op ≠ .randomUUID) : Platform (fun _ => logWorker) decoys tr where
  method := by decide
  path := by decide +kernel
  digest := by decide +kernel
  uuid i id hm := absurd rfl (huuid _ hm)

/-- The delivery of the first page is found. -/
theorem delivery_found_first : ∃ tr record, (∃ c, EdgeRun (fun _ => logWorker) decoys tr c) ∧
      searchLog tr = .ok (some record) ∧ record.urlHash = firstDigest := by
  have hrun : ∃ tr c, EdgeRun (fun _ => logWorker) decoys tr c ∧
      (∀ x ∈ tr, x.2.op ≠ .randomUUID) ∧ (∃ l ∈ logLines tr, l.Delivers firstDigest) ∧
      ∀ l ∈ logLines tr, l.Undisguised firstDigest :=
    Pool.exists_run (List.replicate 3 ⟨0, plainAnswer⟩) (by decide +kernel)
  obtain ⟨tr, c, hr, huuid, hthere, hplain⟩ := hrun
  have hread : ReadsLogs firstDigest ["eu-west-1"] (fun _ => logLines tr)
      fun _ => .events (.ok (matching firstDigest (logLines tr))) := fun _ _ => .inl rfl
  obtain ⟨record, hfound, hdigest, -⟩ := delivery_found hr (logWorker_platform huuid)
    (fun _ _ l hl => logLines_written hl) hread ⟨"eu-west-1", List.mem_cons_self, hthere⟩
    fun _ _ => hplain
  exact ⟨tr, record, ⟨c, hr⟩, hfound, hdigest⟩

end Ramp.Evidence
