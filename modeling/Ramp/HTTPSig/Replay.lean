import Ramp.HTTPSig.Append
import Ramp.Program.Schedule

/-! The replay check of the verifying middleware. Requests look every signature up before they
record any, and the store they share keeps a record until its window is over. -/

namespace Ramp.HTTPSig

open Prog

structure ReplayLibrary where
  sha256Hex : String → String
  encodeToString : Bytes → String

namespace ReplayLibrary

variable (lib : ReplayLibrary)

def replayKey (keyID signature : String) : String := lib.sha256Hex (keyID ++ "\x00" ++ signature)

def keyOf (v : VerifiedRequest) : String := lib.replayKey v.keyID (lib.encodeToString v.signature)

end ReplayLibrary

/-- In nanoseconds. -/
def replayTTL : ℤ := 5 * 60 * 1000000000

def middlewareTTL (replayWindow : ℤ) : ℤ := if replayWindow ≤ 0 then replayTTL else replayWindow

/-- What is recorded and until when, and the time. In Redis an expired record is gone without a
sweep, which no call can tell. -/
structure ReplayStore where
  seen : String → Option ℤ := fun _ => none
  now : ℤ

inductive ReplayOp
  | seen (key : String)
  | seenOrAdd (key : String)
  deriving DecidableEq

def ReplayOp.adds : ReplayOp → Bool
  | .seen _ => false
  | .seenOrAdd _ => true

inductive ReplayReply
  | answer (seen : Bool)
  | failed (text : String) (applied : Bool)
  deriving DecidableEq

namespace ReplayStore

def isSeen (s : ReplayStore) (key : String) : Bool := (s.seen key).any fun exp => s.now < exp

def sweepLocked (s : ReplayStore) : ReplayStore :=
  { s with seen := fun key => (s.seen key).filter fun exp => s.now < exp }

def seenOrAdd (s : ReplayStore) (key : String) (ttl : ℤ) : Bool × ReplayStore :=
  if s.isSeen key then (true, s)
  else (false, { s with seen := Function.update s.seen key (some (s.now + ttl)) }.sweepLocked)

def perform (s : ReplayStore) (ttl : ℤ) : ReplayOp → Bool × ReplayStore
  | .seen key => (s.isSeen key, s)
  | .seenOrAdd key => s.seenOrAdd key ttl

def step (ttl : ℤ) (op : ReplayOp) (s : ReplayStore) : ReplayReply → Option ReplayStore
  | .answer seen => if seen = (s.perform ttl op).1 then some (s.perform ttl op).2 else none
  | .failed _ applied => some (if applied then (s.perform ttl op).2 else s)

def Elapses (s t : ReplayStore) : Prop := t.seen = s.seen ∧ s.now ≤ t.now

end ReplayStore

inductive Rejection
  | verification (e : Error)
  | store (text : String)
  | replayed

abbrev ReplayAction := ExceptT Rejection (Prog ReplayOp fun _ => ReplayReply)

def refuseSeen (call : String → ReplayOp) : List String → ReplayAction Unit
  | [] => pure ()
  | key :: rest => do
    match ← ask (call key) with
    | .failed text _ => throw (.store text)
    | .answer true => throw .replayed
    | .answer false => refuseSeen call rest

def verifyMultisig (lib : Library) (replay : ReplayLibrary) (options : VerifyOptions)
    (req : Request) : ReplayAction (List VerifiedRequest) := do
  let sigs ← orThrow (lib.verifyMultisigRequest options req) .verification
  refuseSeen .seen (sigs.map replay.keyOf)
  refuseSeen .seenOrAdd (sigs.map replay.keyOf)
  pure sigs

theorem middlewareTTL_pos (replayWindow : ℤ) : 0 < middlewareTTL replayWindow := by
  unfold middlewareTTL
  split_ifs with h
  · decide
  · omega

namespace ReplayStore

variable {s t : ReplayStore} {key : String} {ttl deadline : ℤ} {op : ReplayOp} {r : ReplayReply}

/-- The key is recorded until the deadline, if that is still to come. -/
def Recorded (s : ReplayStore) (key : String) (deadline : ℤ) : Prop :=
  s.now < deadline → ∃ exp, s.seen key = some exp ∧ deadline ≤ exp

theorem Recorded.isSeen (h : s.Recorded key deadline) (hnow : s.now < deadline) :
    s.isSeen key = true := by
  obtain ⟨exp, hexp, hle⟩ := h hnow
  have hlt : s.now < exp := by omega
  simp [ReplayStore.isSeen, hexp, hlt]

theorem Recorded.elapses (h : s.Recorded key deadline) (he : s.Elapses t) :
    t.Recorded key deadline := by
  intro hnow
  have hle := he.2
  rw [he.1]
  exact h (by omega)

/-- No call moves the clock or loses a record. -/
theorem perform_recorded (s : ReplayStore) (ttl : ℤ) (op : ReplayOp) :
    (s.perform ttl op).2.now = s.now ∧
      ∀ key deadline, s.Recorded key deadline → (s.perform ttl op).2.Recorded key deadline := by
  cases op with
  | seen key' => exact ⟨rfl, fun _ _ h => h⟩
  | seenOrAdd key' =>
    rw [perform, seenOrAdd]
    split_ifs with hseen
    · exact ⟨rfl, fun _ _ h => h⟩
    · refine ⟨rfl, fun key deadline h hnow => ?_⟩
      have hne : key ≠ key' := by
        rintro rfl
        exact hseen (h.isSeen hnow)
      obtain ⟨exp, hexp, hle⟩ := h hnow
      have hlt : s.now < exp := lt_of_lt_of_le hnow hle
      exact ⟨exp, by simp [sweepLocked, Function.update_of_ne hne, hexp, hlt], hle⟩

theorem step_recorded (hs : step ttl op s r = some t) :
    t.now = s.now ∧ ∀ key deadline, s.Recorded key deadline → t.Recorded key deadline := by
  rcases r with b | ⟨text, _ | _⟩
  · obtain ⟨-, h⟩ := Option.ite_none_right_eq_some.mp hs
    cases h
    exact perform_recorded s ttl op
  · cases hs
    exact ⟨rfl, fun _ _ h => h⟩
  · cases hs
    exact perform_recorded s ttl op

/-- What is answered as new was not recorded, and is from then on. -/
theorem step_new (httl : 0 < ttl) (hs : step ttl (.seenOrAdd key) s (.answer false) = some t) :
    (∀ d, s.Recorded key d → d ≤ t.now) ∧ t.Recorded key (s.now + ttl) := by
  obtain ⟨hnew, h⟩ := Option.ite_none_right_eq_some.mp hs
  cases h
  rw [perform, seenOrAdd] at hnew ⊢
  split_ifs at hnew ⊢ with hseen
  have hlt : s.now < s.now + ttl := by omega
  exact ⟨fun d hd => not_lt.mp fun hnow => hseen (hd.isSeen hnow),
    fun _ => ⟨s.now + ttl, by simp [sweepLocked, hlt], le_refl _⟩⟩

end ReplayStore

/-- Every call so far was answered as new, and was a lookup unless records are being `added`. -/
def Clear (added : Bool) (h : History ReplayOp fun _ => ReplayReply) : Prop :=
  ∀ e ∈ h, e.res = .answer false ∧ (e.op.adds = true → added = true)

theorem refuseSeen_yields {h : History ReplayOp fun _ => ReplayReply} {call : String → ReplayOp}
    {added : Bool} (hh : Clear added h) (hcall : ∀ key, (call key).adds = added)
    (keys : List String) :
    Yields recordCall (fun h op => Clear op.adds h)
      (fun h' _ => Clear added h' ∧ ∀ key ∈ keys, ⟨call key, .answer false⟩ ∈ h')
      (refuseSeen call keys) h := by
  induction keys generalizing h with
  | nil => exact .pure ⟨hh, by simp⟩
  | cons key rest ih =>
    refine Spec.ask ((hcall key).symm ▸ hh) fun r t ht => ?_
    cases ht
    rcases r with (_ | _) | ⟨text, applied⟩
    · have hh' : Clear added (h ++ [⟨call key, .answer false⟩]) := by
        simpa [Clear, or_imp, forall_and, hcall] using hh
      refine (ih hh').grows.mono fun h' _ hx => ⟨hx.1.1, fun k hk => ?_⟩
      rcases List.mem_cons.mp hk with rfl | hk
      · exact hx.2.subset (by simp)
      · exact hx.1.2 k hk
    · exact Yields.throw
    · exact Yields.throw

section

variable {ι : Type} {lib : Library} {replay : ReplayLibrary} {reqs : ι → VerifyOptions × Request}
  {window : ℤ} {store : ReplayStore} {tr : Trace ReplayOp (fun _ => ReplayReply) ι}
  {c : Pool ReplayOp (fun _ => ReplayReply) ReplayStore ι (Except Rejection (List VerifiedRequest))}

/-- Any number of requests before one store. -/
def verifications (lib : Library) (replay : ReplayLibrary) (reqs : ι → VerifyOptions × Request)
    (store : ReplayStore) :
    Pool ReplayOp (fun _ => ReplayReply) ReplayStore ι (Except Rejection (List VerifiedRequest)) :=
  ⟨store, fun i => (verifyMultisig lib replay (reqs i).1 (reqs i).2).run⟩

abbrev VerifyRun [DecidableEq ι] (lib : Library) (replay : ReplayLibrary)
    (reqs : ι → VerifyOptions × Request) (window : ℤ) (store : ReplayStore) :=
  Run (ReplayStore.step (middlewareTTL window)) ReplayStore.Elapses
    (verifications lib replay reqs store)

theorem verifications_yield (i : ι) : Spec recordCall (fun h op => Clear op.adds h)
      (fun h r => ∀ vs, r = .ok vs → ∀ v ∈ vs, ⟨.seenOrAdd (replay.keyOf v), .answer false⟩ ∈ h)
      ((verifications lib replay reqs store).threads i) [] := by
  refine Yields.check fun sigs _ => ?_
  have hnil : Clear false [] := by simp [Clear]
  refine .seq (refuseSeen_yields hnil (fun _ => rfl) _) fun h₁ _ hx => ?_
  have hclear : Clear true h₁ := fun e he => ⟨(hx.1 e he).1, fun _ => rfl⟩
  refine .seq (refuseSeen_yields hclear (fun _ => rfl) _) fun h₂ _ hy => ?_
  exact .pure fun v hv => hy.2 _ (List.mem_map_of_mem hv)

def Added (tr : Trace ReplayOp (fun _ => ReplayReply) ι) (i : ι) (key : String) : Prop :=
  (i, ⟨.seenOrAdd key, .answer false⟩) ∈ tr

structure WindowInv (ttl : ℤ) (store : ReplayStore) (tr : Trace ReplayOp (fun _ => ReplayReply) ι)
    (s : ReplayStore) : Prop where
  clock : store.now ≤ s.now
  kept : ∀ key deadline, store.Recorded key deadline → s.Recorded key deadline
  added : ∀ i key, Added tr i key → (∀ deadline, store.Recorded key deadline → deadline ≤ s.now) ∧
    s.Recorded key (store.now + ttl)
  once : ∀ i j key, i ≠ j → Added tr i key → Added tr j key → store.now + ttl ≤ s.now

theorem WindowInv.call {ttl : ℤ} (httl : 0 < ttl) {s t : ReplayStore} {i : ι} {op : ReplayOp}
    {r : ReplayReply} (h : WindowInv ttl store tr s) (hs : ReplayStore.step ttl op s r = some t) :
    WindowInv ttl store (tr ++ [(i, ⟨op, r⟩)]) t := by
  obtain ⟨hnow, hkeep⟩ := ReplayStore.step_recorded hs
  have hclock := h.clock
  have hnew : ∀ j key, Added (tr ++ [(i, ⟨op, r⟩)]) j key → Added tr j key ∨ j = i ∧
      (∀ d, s.Recorded key d → d ≤ t.now) ∧ t.Recorded key (s.now + ttl) := by
    intro j key hm
    rcases List.mem_append.mp hm with hm | hm
    · exact .inl hm
    · cases List.mem_singleton.mp hm
      exact .inr ⟨rfl, ReplayStore.step_new httl hs⟩
  refine ⟨by omega, fun key d hd => hkeep _ _ (h.kept key d hd), fun j key hm => ?_,
    fun j k key hjk hj hk => ?_⟩
  · rcases hnew j key hm with hm | ⟨-, hpast, hrec⟩
    · obtain ⟨hfresh, hrec⟩ := h.added j key hm
      exact ⟨fun d hd => hnow ▸ hfresh d hd, hkeep _ _ hrec⟩
    · refine ⟨fun d hd => hpast d (h.kept key d hd), fun hlt => ?_⟩
      obtain ⟨exp, hexp, hle⟩ := hrec (by omega)
      exact ⟨exp, hexp, by omega⟩
  · rcases hnew j key hj with hj | ⟨hji, hpast, -⟩
    · rcases hnew k key hk with hk | ⟨-, hpast, -⟩
      · exact hnow ▸ h.once j k key hjk hj hk
      · exact hpast _ (h.added j key hj).2
    · rcases hnew k key hk with hk | ⟨hki, -⟩
      · exact hpast _ (h.added k key hk).2
      · exact absurd (hji.trans hki.symm) hjk

variable [DecidableEq ι] {tr₁ : Trace ReplayOp (fun _ => ReplayReply) ι}
  {c₁ : Pool ReplayOp (fun _ => ReplayReply) ReplayStore ι
    (Except Rejection (List VerifiedRequest))}

theorem window_inv
    (hr : Run (ReplayStore.step (middlewareTTL window)) ReplayStore.Elapses c₁ tr c) :
    WindowInv (middlewareTTL window) c₁.shared tr c.shared := by
  induction hr with
  | start => exact ⟨le_refl _, fun _ _ h => h, by simp [Added], by simp [Added]⟩
  | call run head reply h => exact h.call (middlewareTTL_pos window) reply
  | env run move h =>
    have hle := move.2
    refine ⟨h.clock.trans hle, fun key d hd => (h.kept key d hd).elapses move, fun i key hm => ?_,
      fun i j key hij hi hj => (h.once i j key hij hi hj).trans hle⟩
    obtain ⟨hfresh, hrec⟩ := h.added i key hm
    exact ⟨fun d hd => (hfresh d hd).trans hle, hrec.elapses move⟩

variable (hr : VerifyRun lib replay reqs window store tr c)
include hr

/-- A request that finds one of its signatures recorded records none of them. -/
theorem replayed_request_records_nothing {i : ι} {key : String}
    (hseen : (i, ⟨.seen key, .answer true⟩) ∈ tr) {e : Event ReplayOp fun _ => ReplayReply}
    (he : (i, e) ∈ tr) : e.op.adds = false := by
  obtain ⟨pre, post, rfl⟩ := List.append_of_mem hseen
  rcases List.mem_append.mp he with he | he
  · have hclear := hr.guarded verifications_yield rfl e (Trace.mem_own.mpr he)
    exact Bool.eq_false_of_not_eq_true fun hadds => Bool.noConfusion (hclear.2 hadds)
  rcases List.mem_cons.mp he with he | he
  · cases he
    rfl
  obtain ⟨mid, rest, rfl⟩ := List.append_of_mem he
  have hclear := hr.guarded verifications_yield (show _ =
    (pre ++ (i, ⟨.seen key, .answer true⟩) :: mid) ++ (i, e) :: rest by simp)
    ⟨.seen key, .answer true⟩ (Trace.mem_own.mpr (by simp))
  cases hclear.1

end

/-- Signatures that are right, of one byte. -/
def genuine (i : Bool) : VerifyOptions × Request :=
  (⟨0, .ok [], fun p _ _ => .ok ⟨p.keyID, p.alg, p.label, [if i then 1 else 2]⟩⟩,
    twoHops ["sig1=i"] ["sig1=s"])

def plainReplay : ReplayLibrary := ⟨id, toString⟩

def asStored (op : ReplayOp) (s : ReplayStore) : ReplayReply := .answer (s.perform 1 op).1

theorem replayed_request_records_nothing_second : ∃ tr c key,
    VerifyRun plainLibrary plainReplay genuine 0 ⟨fun _ => some 9, 0⟩ tr c ∧
      (true, ⟨.seen key, .answer true⟩) ∈ tr ∧ ∀ e, (true, e) ∈ tr → e.op.adds = false := by
  obtain ⟨tr, c, hr, htr⟩ : ∃ tr c,
      VerifyRun plainLibrary plainReplay genuine 0 ⟨fun _ => some 9, 0⟩ tr c ∧
      ∃ e ∈ tr, e.1 = true ∧ e.2.op = .seen (plainReplay.replayKey "k" "[1]") ∧
        e.2.res = .answer true :=
    Pool.exists_run [⟨true, asStored⟩] (by decide +kernel)
  obtain ⟨⟨i, op, r⟩, hm, rfl, rfl, rfl⟩ := htr
  exact ⟨tr, c, _, hr, hm, fun e he => replayed_request_records_nothing hr hm he⟩

end Ramp.HTTPSig
