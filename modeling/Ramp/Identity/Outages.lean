import Ramp.Identity.Channel

/-! Builds during outages. Each builder says of its document that it is absent, made or down;
the answers of an outage change what it says only to the last. But whether there is a list
of revocations to make is read off what became of the directory. -/

namespace Ramp.Identity

open Prog

inductive Backend
  | keys
  | cards
  | revocations
  | accounts
  deriving DecidableEq

def KeyError.isOutage : KeyError → Bool
  | .unavailable | .permissionDenied => true
  | _ => false

def VaultFault.isOutage (f : VaultFault) : Bool :=
  decide (f ≠ .nothingThere) && (classify f).isOutage

/-- A reply to a read of a source by which its backend says that it is down. -/
def Call.reports (op : Call) (r : Reply op) : Bool :=
  match op, r with
  | .vault (.listKeys _), .error f => f.isOutage
  | .vault (.read _), .error f => f.isOutage
  | .table (.getCard _), .error f => f.isUnavailable
  | .table (.getRevocation _), .error f => f.isUnavailable
  | .table (.getDeveloperBySubdomain _), .error f => f.isUnavailable
  | _, _ => false

def State.answers (s : State) (op : Call) : Reply op := s.answer op

def Outage (s : State) (reply : (op : Call) → Reply op) : Prop :=
  ∀ op, reply op = s.answers op ∨ op.reports (reply op) = true

def reported (reply : (op : Call) → Reply op) (asks : List Call) : Bool :=
  asks.any fun op => op.reports (reply op)

variable {s : State} {α : Type}

section

variable {reply : (op : Call) → Reply op} {ε ε' β : Type} {Out : ε → Prop}

theorem not_reports_answers (op : Call) : op.reports (s.answers op) = false := by
  cases op with
  | vault c => cases c <;> rfl
  | table c => cases c <;> rfl
  | _ => rfl

/-- Without a report a program does what it does with all backends up, and it does not fail by
an outage; with one it fails by an outage. -/
def Faint (s : State) (reply : (op : Call) → Reply op) (Out : ε → Prop)
    (p : Program (Except ε α)) : Prop :=
  (reported reply (p.asks reply) = false ∧ p.given reply = p.given s.answers ∧
      ∀ e, p.given reply = .error e → ¬ Out e) ∨
    reported reply (p.asks reply) = true ∧ ∃ e, p.given reply = .error e ∧ Out e

theorem Faint.pure {a : α} : Faint s reply Out (pure a : Action ε α).run :=
  .inl ⟨rfl, rfl, fun _ h => by cases h⟩

theorem Faint.throw {e : ε} (h : ¬ Out e) : Faint s reply Out (throw e : Action ε α).run :=
  .inl ⟨rfl, rfl, fun _ he => by cases he; exact h⟩

theorem Faint.orThrow {x : Except ε' α} {g : ε' → ε} (h : ∀ e, x = .error e → ¬ Out (g e)) :
    Faint s reply Out (orThrow x g : Action ε α).run := by
  cases x with
  | ok a => exact .pure
  | error e => exact .throw (h e rfl)

section

variable {x : Action ε α} (hx : Faint s reply Out x.run)
include hx

theorem Faint.seq {f : α → Action ε β} (hf : ∀ a, Faint s reply Out (f a).run) :
    Faint s reply Out (x >>= f).run := by
  unfold Faint
  rcases hx with ⟨hquiet, hsame, hno⟩ | ⟨hloud, e, he, hout⟩
  · cases ha : x.run.given reply with
    | error e =>
      rw [given_seq_error ha, given_seq_error (hsame ▸ ha), asks_seq_error ha]
      exact .inl ⟨hquiet, rfl, fun e' he => by cases he; exact hno e ha⟩
    | ok a =>
      rw [given_seq_ok ha, given_seq_ok (hsame ▸ ha), asks_seq_ok ha, reported, List.any_append,
        ← reported, hquiet, Bool.false_or]
      exact hf a
  · rw [given_seq_error he, asks_seq_error he]
    exact .inr ⟨hloud, e, rfl, hout⟩

theorem Faint.attempt {f : Except ε α → Action ε β}
    (hf : ∀ r, (∀ e, r = .error e → ¬ Out e) → Faint s reply Out (f r).run)
    (hout : ∀ e, Out e → ∃ e', (f (.error e)).run.given reply = .error e' ∧ Out e') :
    Faint s reply Out (attempt x >>= f).run := by
  unfold Faint
  rw [given_attempt, given_attempt, asks_attempt, reported, List.any_append, ← reported, ← reported]
  rcases hx with ⟨hquiet, hsame, hno⟩ | ⟨hloud, e, he, ho⟩
  · rw [hquiet, Bool.false_or, ← hsame]
    exact hf _ hno
  · rw [hloud, Bool.true_or, he]
    exact .inr ⟨rfl, hout e ho⟩

end

theorem Faint.ask {op : Call} {f : Reply op → Action ε β} (hout : Outage s reply)
    (hf : ∀ r, op.reports r = false → Faint s reply Out (f r).run)
    (hrep : ∀ r, op.reports r = true → ∃ e, (f r).run.given reply = .error e ∧ Out e) :
    Faint s reply Out (Ramp.ask op >>= f).run := by
  have hasks : reported reply ((Ramp.ask op >>= f).run.asks reply) =
      (op.reports (reply op) || reported reply ((f (reply op)).run.asks reply)) := rfl
  unfold Faint
  rw [hasks, given_ask, given_ask]
  rcases hout op with hsame | hloud
  · rw [hsame, not_reports_answers, Bool.false_or, ← hsame]
    exact hf _ (hsame ▸ not_reports_answers op)
  · rw [hloud, Bool.true_or]
    exact .inr ⟨rfl, hrep _ hloud⟩

end

section

variable {reply : (op : Call) → Reply op}

theorem KeyStore.rawRead_outage (nothing : α) {f : VaultFault} (h : f.isOutage = true) :
    rawRead nothing (.error f) = .error f ∧ (classify f).isOutage = true := by
  simp only [VaultFault.isOutage, Bool.and_eq_true, decide_eq_true_eq] at h
  exact ⟨if_neg h.1, h.2⟩

theorem KeyStore.rawRead_quiet {nothing : α} {r : Except VaultFault α} {f : VaultFault}
    (hr : ∀ f, r = .error f → f.isOutage = false) (h : rawRead nothing r = .error f) :
    ¬ (classify f).isOutage = true := by
  cases r with
  | ok a => cases h
  | error g =>
    unfold rawRead at h
    dsimp only at h
    split_ifs at h with hg
    cases h
    simpa [VaultFault.isOutage, hg] using hr _ rfl

variable (hout : Outage s reply)
include hout

theorem KeyStore.get_faint (ref : Ref) :
    Faint s reply (fun e => e.isOutage = true) (get ref).run := by
  refine .seq (.orThrow fun e he => ?_) fun _ => .ask hout (fun r hr => ?_) fun r hr => ?_
  · cases e <;> simp [validateRef, validateSubdomain, KeyError.isOutage, Bind.bind,
      Except.bind] at he ⊢
    all_goals split_ifs at he <;> cases he
  · split
    next f hf =>
      refine .throw (rawRead_quiet (fun g hg => ?_) hf)
      subst hg
      exact hr
    · exact .throw (by simp [KeyError.isOutage])
    · exact .throw (by simp [KeyError.isOutage])
    · exact .pure
  · cases r with
    | ok x => cases hr
    | error f =>
      obtain ⟨hread, hclass⟩ := rawRead_outage (none : Option Secret) hr
      refine ⟨classify f, ?_, hclass⟩
      rw [hread]
      rfl

variable (sub : String)
include sub

theorem KeyStore.thumbprints_faint :
    Faint s reply (fun e => e.isOutage = true) (thumbprints sub).run := by
  refine .ask hout (fun r hr => ?_) fun r hr => ?_
  · split
    next f hf =>
      refine .throw (rawRead_quiet (fun g hg => ?_) hf)
      subst hg
      exact hr
    · exact .pure
  · cases r with
    | ok x => cases hr
    | error f =>
      obtain ⟨hread, hclass⟩ := rawRead_outage ([] : List String) hr
      refine ⟨classify f, ?_, hclass⟩
      rw [hread]
      rfl

theorem KeyStore.readKeys_faint (tps : List String) :
    Faint s reply (fun e => e.isOutage = true) (readKeys sub tps).run := by
  induction tps with
  | nil => exact .pure
  | cons tp rest ih =>
    refine .attempt (get_faint hout _) (fun r hr => ?_) fun e he => ⟨e, ?_, he⟩
    · split
      · exact ih
      next e _ => exact .throw (hr e rfl)
      · exact .seq ih fun _ => .pure
    · cases e <;> first | rfl | cases he

theorem KeyStore.list_faint : Faint s reply (fun e => e.isOutage = true) (list sub).run := by
  refine .seq (.orThrow fun e he => ?_) fun _ => .seq (thumbprints_faint hout sub) fun _ =>
    .seq (readKeys_faint hout sub _) fun _ => .pure
  unfold validateSubdomain at he
  split_ifs at he
  cases he
  simp [KeyError.isOutage]

end

namespace Publisher

inductive Part (α : Type)
  | absent
  | made (a : α)
  | down

namespace Part

def doc? : Part α → Option α
  | .made a => some a
  | .absent | .down => none

def isDown : Part α → Bool
  | .down => true
  | .absent | .made _ => false

def answer (doc : α → Document) : Part α → Except PublishError Document
  | .absent => .error .absent
  | .made a => .ok (doc a)
  | .down => .error .unavailable

end Part

section

variable (cfg : Config) (sub : String) (reply : (op : Call) → Reply op)

def directoryPart (active : List Key) : Except BuildError (Part (Directory × Option ℤ)) :=
  if active.isEmpty then .ok .absent
  else
    match revocationURL cfg.scheme sub with
    | none => .error .revocationURL
    | some url =>
      match buildDirectory cfg.schemas active url with
      | none => .error .directory
      | some wba => .ok (.made (wba, earliestNotAfter active))

def wbaPart : Except BuildError (Part (Directory × Option ℤ)) :=
  match (KeyStore.list sub).run.given reply with
  | .ok keys => directoryPart cfg sub (activeKeys (reply Call.now) keys)
  | .error .notFound | .error .invalidSubdomain => .ok .absent
  | .error .unavailable | .error .permissionDenied => .ok .down
  | .error e => .error (.keys e)

def cardOf : Except CardError Card → Except BuildError (Part Card)
  | .ok card => .ok (.made card)
  | .error .notFound => .ok .absent
  | .error .unavailable => .ok .down
  | .error (.other f) => .error (.store f)

def cardPart : Except BuildError (Part Card) := cardOf ((Cards.bySubdomain sub).run.given reply)

def listOf (missing : Bool) :
    Except StoreError RevocationList → Except BuildError (Part RevocationList)
  | .error .unavailable => .ok .down
  | .error (.other f) => .error (.store f)
  | .ok row =>
    if missing = true ∧ row.asOf = 0 ∧ row.revoked = [] then .ok .absent
    else if cfg.schemas.revocation row then .ok (.made row)
    else .error .revocation

def listPart (missing : Bool) : Except BuildError (Part RevocationList) :=
  listOf cfg missing ((Revocations.bySubdomain sub).run.given reply)

def manifestOf : Except AccountError Developer → Except BuildError (Part String)
  | .ok _ =>
    match cfg.schemas.manifest sub with
    | none => .error .manifest
    | some raw => .ok (.made raw)
  | .error .notFound => .ok .absent
  | .error .unavailable => .ok .down
  | .error (.other f) => .error (.store f)
  | .error .subdomainTaken | .error .alreadyExists => .error .manifest

def manifestPart : Except BuildError (Part String) :=
  manifestOf cfg sub ((Developers.bySubdomain sub).run.given reply)

end

def assemble (flight : ℕ) (w : Except BuildError (Part (Directory × Option ℤ)))
    (c : Except BuildError (Part Card)) (l : Bool → Except BuildError (Part RevocationList))
    (m : Except BuildError (Part String)) : Built := do
  let w ← w
  let c ← c
  let l ← l w.doc?.isNone
  let m ← m
  .ok {
    wba := w.doc?.map Prod.fst
    card := c.doc?
    revocation := l.doc?
    manifest := m.doc?
    keyExpiry := w.doc?.bind Prod.snd
    wbaUnavail := w.isDown
    cardUnavail := c.isDown
    revUnavail := l.isDown
    manifestUnavail := m.isDown
    flight := flight }

section

variable {cfg : Config} {sub : String} {reply : (op : Call) → Reply op} {ds : DocSet}

theorem buildWBA_given (f : ℕ) : (buildWBA cfg sub (.none f)).run.given reply =
    (wbaPart cfg sub reply).map fun w => { DocSet.none f with
      wba := w.doc?.map Prod.fst, keyExpiry := w.doc?.bind Prod.snd, wbaUnavail := w.isDown } := by
  unfold buildWBA wbaPart
  rw [given_attempt, given_rethrow]
  cases (KeyStore.list sub).run.given reply with
  | error e => cases e <;> rfl
  | ok keys =>
    change Prog.given reply (ExceptT.run (if (activeKeys (reply Call.now) keys).isEmpty then _
      else _)) = (directoryPart cfg sub (activeKeys (reply Call.now) keys)).map _
    unfold directoryPart
    split_ifs
    · rfl
    · cases revocationURL cfg.scheme sub with
      | none => rfl
      | some url =>
        dsimp only
        cases buildDirectory cfg.schemas (activeKeys (reply Call.now) keys) url <;> rfl

theorem buildCard_given (hc : ds.card = none) (hu : ds.cardUnavail = false) :
    (buildCard sub ds).run.given reply = (cardPart sub reply).map fun c =>
      { ds with card := c.doc?, cardUnavail := c.isDown } := by
  unfold buildCard cardPart
  rw [given_lift]
  cases ds
  subst hc hu
  cases (Cards.bySubdomain sub).run.given reply with
  | error e => cases e <;> rfl
  | ok card => rfl

theorem buildRevocation_given (hr : ds.revocation = none) (hu : ds.revUnavail = false) :
    (buildRevocation cfg sub ds).run.given reply =
      (listPart cfg sub reply ds.wba.isNone).map fun l =>
        { ds with revocation := l.doc?, revUnavail := l.isDown } := by
  unfold buildRevocation listPart listOf
  rw [given_lift]
  cases ds
  subst hr hu
  cases (Revocations.bySubdomain sub).run.given reply with
  | error e => cases e <;> rfl
  | ok row =>
    dsimp only
    split_ifs <;> rfl

theorem buildManifest_given (hm : ds.manifest = none) (hu : ds.manifestUnavail = false) :
    (buildManifest cfg sub ds).run.given reply = (manifestPart cfg sub reply).map
      fun m => { ds with manifest := m.doc?, manifestUnavail := m.isDown } := by
  unfold buildManifest manifestPart manifestOf
  rw [given_lift]
  cases ds
  subst hm hu
  cases (Developers.bySubdomain sub).run.given reply with
  | error e => cases e <;> rfl
  | ok d =>
    cases cfg.schemas.manifest sub <;> rfl

theorem build_given (f : ℕ) : (build cfg sub f).run.given reply =
    assemble f (wbaPart cfg sub reply) (cardPart sub reply)
      (listPart cfg sub reply) (manifestPart cfg sub reply) := by
  unfold build assemble
  cases hw : wbaPart cfg sub reply with
  | error e => exact given_seq_error (by rw [buildWBA_given, hw]; rfl)
  | ok w =>
    rw [given_seq_ok (by rw [buildWBA_given, hw]; rfl)]
    cases hc : cardPart sub reply with
    | error e => exact given_seq_error (by rw [buildCard_given rfl rfl, hc]; rfl)
    | ok c =>
      rw [given_seq_ok (by rw [buildCard_given rfl rfl, hc]; rfl)]
      have hmissing : (w.doc?.map Prod.fst).isNone = w.doc?.isNone := Option.isNone_map
      cases hl : listPart cfg sub reply w.doc?.isNone with
      | error e =>
        rw [given_seq_error (e := e) (by rw [buildRevocation_given rfl rfl, hmissing, hl]; rfl)]
        simp [hl, Bind.bind, Except.bind]
      | ok l =>
        rw [given_seq_ok (by rw [buildRevocation_given rfl rfl, hmissing, hl]; rfl),
          buildManifest_given rfl rfl]
        simp only [Bind.bind, Except.bind, hl]
        cases manifestPart cfg sub reply <;> rfl

end

theorem pick_part (p : Part α) (doc : α → Document) : (match (p.doc?.map doc, p.isDown) with
      | (some body, _) => Except.ok body
      | (none, true) => .error PublishError.unavailable
      | (none, false) => .error .absent) = p.answer doc := by
  cases p <;> rfl

def masked (down : Bool) (p : Except BuildError (Part α)) : Except BuildError (Part α) :=
  if down then .ok .down else p

section

variable {f : ℕ} {w : Part (Directory × Option ℤ)} {c : Part Card} {x : Part RevocationList}
  {l : Bool → Except BuildError (Part RevocationList)} {m : Part String}

theorem pick_ok (hl : l w.doc?.isNone = .ok x) (route : Route) :
    pick route (assemble f (.ok w) (.ok c) l (.ok m)) =
      match route with
      | .directory => w.answer fun x => .directory x.1
      | .card => c.answer .card
      | .revocation => x.answer .revocation
      | .manifest => m.answer .manifest := by
  simp only [assemble, Bind.bind, Except.bind, hl]
  cases route with
  | directory => cases w <;> rfl
  | card => exact pick_part c .card
  | revocation => exact pick_part x .revocation
  | manifest => exact pick_part m .manifest

theorem assemble_list {e : BuildError} {m : Except BuildError (Part String)}
    (hl : l w.doc?.isNone = .error e) : assemble f (.ok w) (.ok c) l m = .error e := by
  simp only [assemble, Bind.bind, Except.bind, hl]

theorem assemble_manifest {e : BuildError} (hl : l w.doc?.isNone = .ok x) :
    assemble f (.ok w) (.ok c) l (.error e) = .error e := by
  simp only [assemble, Bind.bind, Except.bind, hl]

end

variable {f : ℕ} {d : DocSet}

theorem assemble_eq_ok {w : Except BuildError (Part (Directory × Option ℤ))}
    {c : Except BuildError (Part Card)} {l : Bool → Except BuildError (Part RevocationList)}
    {m : Except BuildError (Part String)} (h : assemble f w c l m = .ok d) :
    ∃ w' c' l' m', w = .ok w' ∧ c = .ok c' ∧ l w'.doc?.isNone = .ok l' ∧ m = .ok m' ∧
      d.unavailable = (w'.isDown || c'.isDown || l'.isDown || m'.isDown) := by
  obtain ⟨w', rfl, hw⟩ := Except.bind_eq_ok.mp h
  obtain ⟨c', rfl, hc⟩ := Except.bind_eq_ok.mp hw
  obtain ⟨l', hl, hrest⟩ := Except.bind_eq_ok.mp hc
  obtain ⟨m', rfl, hm⟩ := Except.bind_eq_ok.mp hrest
  cases hm
  exact ⟨w', c', l', m', rfl, rfl, hl, rfl, rfl⟩

/-- The report of a backend keeps the build from meeting the failure. -/
def hides (down : Backend → Bool) : BuildError → Bool
  | .keys _ | .revocationURL | .directory => down .keys
  | .revocation => down .revocations
  | .manifest => down .accounts
  | .store _ => false

theorem answer_masked {p q : Part α} {down : Bool} (doc : α → Document)
    (h : masked down (.ok p) = .ok q) :
    q.answer doc = p.answer doc ∨ q.answer doc = .error .unavailable := by
  unfold masked at h
  split_ifs at h <;> cases h
  · exact .inr rfl
  · exact .inl rfl

theorem masked_ok (down : Bool) (p : Part α) : ∃ q, masked down (.ok p) = .ok q := by
  cases down
  · exact ⟨p, rfl⟩
  · exact ⟨.down, rfl⟩

theorem masked_error {p : Except BuildError (Part α)} {down : Bool} {e : BuildError}
    (h : masked down p = .error e) : down = false ∧ p = .error e := by
  cases down with
  | true => cases h
  | false => exact ⟨rfl, h⟩

theorem down_of_answer {p : Except BuildError (Part α)} {q : Part α} {down : Bool}
    {doc : α → Document} (hp : down = false → p ≠ .ok .down) (h : masked down p = .ok q)
    (hq : q.answer doc = .error .unavailable) : down = true := by
  cases down with
  | true => rfl
  | false =>
    cases q with
    | down => exact absurd h (hp rfl)
    | absent | made => cases hq

theorem pick_failed {route : Route} {built : Built} {e : BuildError}
    (h : pick route built = .error (.failed e)) : built = .error e := by
  cases built with
  | error e' => cases h; rfl
  | ok d =>
    unfold pick at h
    dsimp only at h
    split at h <;> cases h

section

variable {f : ℕ} {down : Backend → Bool} {w : Except BuildError (Part (Directory × Option ℤ))}
  {c : Part Card} {l : Bool → Except BuildError (Part RevocationList)}
  {m : Except BuildError (Part String)}

/-- What is known of the parts with all backends up. The list is looked for where it holds
something or there is a directory. -/
structure Sources (down : Backend → Bool) (w : Except BuildError (Part (Directory × Option ℤ)))
    (c : Part Card) (l : Bool → Except BuildError (Part RevocationList))
    (m : Except BuildError (Part String)) (baseline : Prop) : Prop where
  keys : ∀ e, w = .error e → hides down e = down .keys
  directory : down .keys = false → w ≠ .ok .down
  card : c ≠ .down
  list : ∀ missing e, l missing = .error e → e = .revocation
  listed : ∀ missing x, l missing = .ok x → x ≠ .down
  manifest : ∀ e, m = .error e → e = .manifest
  overlay : m ≠ .ok .down
  empty : baseline → l true = .ok .absent ∧ l false ≠ .ok .absent
  held : ¬ baseline → l true = l false

abbrev outage (f : ℕ) (down : Backend → Bool) (w : Except BuildError (Part (Directory × Option ℤ)))
    (c : Part Card) (l : Bool → Except BuildError (Part RevocationList))
    (m : Except BuildError (Part String)) : Built :=
  assemble f (masked (down .keys) w) (masked (down .cards) (.ok c))
    (fun missing => masked (down .revocations) (l missing)) (masked (down .accounts) m)

/-- Each route answers as with all backends up, or that its document is unavailable. -/
def Withstands (f : ℕ) (down : Backend → Bool)
    (w : Except BuildError (Part (Directory × Option ℤ))) (c : Part Card)
    (l : Bool → Except BuildError (Part RevocationList)) (m : Except BuildError (Part String)) :
    Prop :=
  ∀ route, pick route (outage f down w c l m) = pick route (assemble f w (.ok c) l m) ∨
    pick route (outage f down w c l m) = .error .unavailable

variable {baseline : Prop} (h : Sources down w c l m baseline)
include h

theorem Sources.met {e : BuildError} (he : outage f down w c l m = .error e) :
    hides down e = false := by
  obtain ⟨c', hc'⟩ := masked_ok (down .cards) c
  unfold outage at he
  rw [hc'] at he
  cases hw : masked (down .keys) w with
  | error e' =>
    rw [hw] at he
    cases he
    obtain ⟨hup, rfl⟩ := masked_error hw
    rw [h.keys _ rfl, hup]
  | ok x =>
    rw [hw] at he
    cases hl : masked (down .revocations) (l x.doc?.isNone) with
    | error e' =>
      rw [assemble_list hl] at he
      cases he
      obtain ⟨hup, hl⟩ := masked_error hl
      rw [h.list _ _ hl]
      exact hup
    | ok z =>
      cases hm : masked (down .accounts) m with
      | error e' =>
        rw [hm, assemble_manifest hl] at he
        cases he
        obtain ⟨hup, rfl⟩ := masked_error hm
        rw [h.manifest _ rfl]
        exact hup
      | ok v =>
        rw [hm] at he
        simp only [assemble, Bind.bind, Except.bind, hl] at he
        cases he

theorem Sources.all_down {d : DocSet} (hd : outage f down w c l m = .ok d)
    (hpick : ∀ route, pick route (outage f down w c l m) = .error .unavailable) (b : Backend) :
    down b = true := by
  obtain ⟨x, c', z, v, hx, hc, hz, hv, -⟩ := assemble_eq_ok hd
  unfold outage at hpick
  rw [hx, hc, hv] at hpick
  have hanswer := fun route => (pick_ok hz route).symm.trans (hpick route)
  cases b with
  | keys => exact down_of_answer h.directory hx (hanswer .directory)
  | cards => exact down_of_answer (fun _ hc => h.card (Except.ok.inj hc)) hc (hanswer .card)
  | revocations =>
    exact down_of_answer (fun _ hl => h.listed _ _ hl rfl) hz (hanswer .revocation)
  | accounts => exact down_of_answer (fun _ => h.overlay) hv (hanswer .manifest)

theorem Sources.met_of_withstands (hroutes : Withstands f down w c l m)
    (hall : ¬ ∀ b, down b = true) {e : BuildError} (he : assemble f w (.ok c) l m = .error e) :
    hides down e = false := by
  unfold Withstands at hroutes
  rw [he] at hroutes
  cases hd : outage f down w c l m with
  | error e' =>
    rw [hd] at hroutes
    rcases hroutes .card with hsame | hno
    · rw [← Except.error.inj (pick_failed hsame)]
      exact h.met hd
    · cases hno
  | ok d =>
    refine absurd (h.all_down hd fun route => ?_) hall
    refine (hroutes route).resolve_left fun hsame => ?_
    rw [pick_failed hsame] at hd
    cases hd

/-- The list that goes with a directory is not looked for once the keys are down, so that its
route says it is absent. -/
theorem Sources.failed_of_withstands {x : Directory × Option ℤ}
    (hroutes : Withstands f down (.ok (.made x)) c l m) (hk : down .keys = true)
    (hr : down .revocations = false) (hb : baseline) :
    assemble f (.ok (.made x)) (.ok c) l m = .error .manifest := by
  obtain ⟨habsent, hmade⟩ := h.empty hb
  obtain ⟨c', hc'⟩ := masked_ok (down .cards) c
  have hgone : masked (down .keys) (.ok (.made x)) = .ok .down := by rw [hk]; rfl
  have hread : (fun missing => masked (down .revocations) (l missing)) = l := by rw [hr]; rfl
  unfold Withstands outage at hroutes
  rw [hgone, hread, hc'] at hroutes
  cases hm : masked (down .accounts) m with
  | error e =>
    obtain ⟨-, rfl⟩ := masked_error hm
    obtain rfl := h.manifest e rfl
    rw [hm, assemble_manifest (w := .down) habsent] at hroutes
    exact pick_failed ((hroutes .card).resolve_right (by simp [pick])).symm
  | ok v =>
    rw [hm] at hroutes
    have hlist := hroutes .revocation
    rw [pick_ok (w := .down) habsent] at hlist
    replace hlist := hlist.resolve_right (by simp [Part.answer])
    exfalso
    cases hz : l false with
    | error e =>
      rw [assemble_list (w := .made x) hz] at hlist
      cases hlist
    | ok z =>
      cases m with
      | error e =>
        rw [assemble_manifest (w := .made x) hz] at hlist
        cases hlist
      | ok v' =>
        rw [pick_ok (w := .made x) hz] at hlist
        cases z with
        | absent => exact hmade hz
        | made | down => cases hlist

section

variable (hlist : down .keys = true → down .revocations = false → (∃ x, w = .ok (.made x)) →
  baseline → assemble f w (.ok c) l m = .error .manifest)
include hlist

/-- What is looked up for the list differs from what is with all backends up only where the build
fails then, or the list is down itself. -/
theorem Sources.looked {x x' : Part (Directory × Option ℤ)} (hw : w = .ok x)
    (hx' : masked (down .keys) (.ok x) = .ok x') : l x'.doc?.isNone = l x.doc?.isNone ∨
      l x'.doc?.isNone = .ok .absent ∧
        (down .revocations = false → assemble f (.ok x) (.ok c) l m = .error .manifest) := by
  subst hw
  cases hk : down .keys with
  | false =>
    rw [hk] at hx'
    cases hx'
    exact .inl rfl
  | true =>
    rw [hk] at hx'
    cases hx'
    cases x with
    | absent | down => exact .inl rfl
    | made d =>
      by_cases hb : baseline
      · exact .inr ⟨(h.empty hb).1, fun hr => hlist hk hr ⟨d, rfl⟩ hb⟩
      · exact .inl (h.held hb)

theorem Sources.withstands
    (hmet : ∀ e, assemble f w (.ok c) l m = .error e → hides down e = false) :
    Withstands f down w c l m := by
  intro route
  cases w with
  | error e =>
    have hup : down .keys = false := (h.keys e rfl).symm.trans (hmet e rfl)
    unfold outage
    rw [hup]
    exact .inl rfl
  | ok x =>
    obtain ⟨x', hx'⟩ := masked_ok (down .keys) x
    obtain ⟨c', hc'⟩ := masked_ok (down .cards) c
    have hlooked := h.looked hlist rfl hx'
    unfold outage
    rw [hx', hc']
    cases hz : l x.doc?.isNone with
    | error e =>
      have hup : assemble f (.ok x) (.ok c) l m = .error e := assemble_list hz
      obtain rfl := h.list _ _ hz
      have hr : down .revocations = false := hmet _ hup
      have hsame := hlooked.resolve_right fun hno => by
        rw [hup] at hno
        cases hno.2 hr
      have hread : masked (down .revocations) (l x'.doc?.isNone) = .error .revocation := by
        rw [hr, hsame, hz]
        rfl
      rw [hup, assemble_list hread]
      exact .inl rfl
    | ok z =>
      obtain ⟨z', hz'⟩ : ∃ z', masked (down .revocations) (l x'.doc?.isNone) = .ok z' := by
        rcases hlooked with hsame | ⟨hno, -⟩
        · rw [hsame, hz]
          exact masked_ok _ z
        · rw [hno]
          exact masked_ok _ .absent
      cases m with
      | error e =>
        have hup : assemble f (.ok x) (.ok c) l (.error e) = .error e := assemble_manifest hz
        have ha : down .accounts = false := by
          have hno := hmet e hup
          rwa [h.manifest e rfl] at hno
        have hread : masked (down .accounts) (.error e) = (.error e : Except _ (Part String)) := by
          rw [ha]
          rfl
        rw [hup, hread, assemble_manifest hz']
        exact .inl rfl
      | ok v =>
        obtain ⟨v', hv'⟩ := masked_ok (down .accounts) v
        rw [hv', pick_ok hz', pick_ok hz]
        cases route with
        | directory => exact answer_masked _ hx'
        | card => exact answer_masked _ hc'
        | manifest => exact answer_masked _ hv'
        | revocation =>
          refine @answer_masked _ _ _ (down .revocations) _ ?_
          rcases hlooked with hsame | ⟨-, hup⟩
          · rwa [hsame, hz] at hz'
          · cases hr : down .revocations with
            | true =>
              rw [hr] at hz'
              exact hz'
            | false =>
              have hno := hup hr
              simp only [assemble, Bind.bind, Except.bind, hz] at hno
              cases hno

end

/-- An outage is withstood if and only if every backend is down, or no failure of the build is
hidden and neither is the list that goes with a directory. -/
theorem Sources.withstands_iff : Withstands f down w c l m ↔
    (∀ b, down b = true) ∨
      (∀ e, assemble f w (.ok c) l m = .error e → hides down e = false) ∧
      (down .keys = true → down .revocations = false → (∃ x, w = .ok (.made x)) → baseline →
        assemble f w (.ok c) l m = .error .manifest) := by
  refine ⟨fun hroutes => ?_, ?_⟩
  · by_cases hall : ∀ b, down b = true
    · exact .inl hall
    refine .inr ⟨fun e => h.met_of_withstands hroutes hall, fun hk hr ⟨x, hx⟩ hb => ?_⟩
    subst hx
    exact h.failed_of_withstands hroutes hk hr hb
  · rintro (hall | ⟨hmet, hlist⟩)
    · intro route
      simp only [outage, hall, masked, if_true]
      rw [pick_ok rfl]
      cases route <;> exact .inr rfl
    · exact h.withstands hlist hmet

end

/-- The backends that report themselves unavailable to the reads of a build. -/
def isDown (reply : (op : Call) → Reply op) (sub : String) : Backend → Bool
  | .keys => reported reply ((KeyStore.list sub).run.asks reply)
  | .cards => Call.reports (.table (.getCard sub)) (reply _)
  | .revocations => Call.reports (.table (.getRevocation sub)) (reply _)
  | .accounts => Call.reports (.table (.getDeveloperBySubdomain sub)) (reply _)

section

variable {cfg : Config} {sub : String} {reply : (op : Call) → Reply op} {op : Call}

theorem cardPart_answers : ∃ c, c ≠ .down ∧ cardPart sub s.answers = .ok c := by
  have hans : s.answers (.table (.getCard sub)) =
      Except.ok (s.tables.cards.get? sub) := rfl
  unfold cardPart Cards.bySubdomain
  rw [given_ask, hans]
  cases s.tables.cards.get? sub
  · exact ⟨.absent, nofun, rfl⟩
  · exact ⟨.made _, nofun, rfl⟩

theorem listPart_answers (missing : Bool) : listPart cfg sub s.answers missing =
    if missing = true ∧ s.list sub = .baseline then .ok .absent
    else if cfg.schemas.revocation (s.list sub) then .ok (.made (s.list sub))
    else .error .revocation := by
  have hans : s.answers (.table (.getRevocation sub)) =
      Except.ok (s.tables.rowOf sub) := rfl
  have hrow : (Revocations.bySubdomain sub).run.given s.answers = .ok (s.list sub) := by
    unfold Revocations.bySubdomain
    rw [given_ask, hans, State.list]
    cases s.tables.rowOf sub <;> rfl
  have hempty : s.list sub = .baseline ↔ (s.list sub).asOf = 0 ∧ (s.list sub).revoked = [] := by
    cases s.list sub
    simp [RevocationList.baseline]
  unfold listPart
  rw [hrow]
  simp only [hempty]
  rfl

theorem manifestPart_answers : manifestPart cfg sub s.answers ≠ .ok .down ∧
    ∀ e, manifestPart cfg sub s.answers = .error e → e = .manifest := by
  have hans : s.answers (.table (.getDeveloperBySubdomain sub)) =
      Except.ok (s.tables.developerOf sub) := rfl
  unfold manifestPart Developers.bySubdomain
  rw [given_ask, hans]
  cases s.tables.developerOf sub with
  | none => exact ⟨nofun, nofun⟩
  | some d =>
    have hmade : manifestOf cfg sub (.ok d) = match cfg.schemas.manifest sub with
        | none => .error .manifest
        | some raw => .ok (.made raw) := rfl
    change manifestOf cfg sub (.ok d) ≠ _ ∧ ∀ e, manifestOf cfg sub (.ok d) = _ → _
    rw [hmade]
    cases cfg.schemas.manifest sub
    · exact ⟨nofun, fun e he => by cases he; rfl⟩
    · exact ⟨nofun, nofun⟩

theorem wbaPart_error {e : BuildError} (h : wbaPart cfg sub reply = .error e)
    (down : Backend → Bool) : hides down e = down .keys := by
  unfold wbaPart directoryPart at h
  split at h
  · split_ifs at h
    split at h
    · cases h
      rfl
    · split at h <;> cases h
      rfl
  all_goals cases h
  rfl

section

variable (hout : Outage s reply)
include hout

theorem wbaPart_outage : wbaPart cfg sub reply =
      masked (isDown reply sub .keys) (wbaPart cfg sub s.answers) ∧
    (isDown reply sub .keys = false → wbaPart cfg sub s.answers ≠ .ok .down) := by
  have hnow : reply Call.now = s.answers Call.now := by
    rcases hout Call.now with h | h
    · exact h
    · cases h
  unfold isDown
  rcases KeyStore.list_faint hout sub with ⟨hquiet, hsame, hno⟩ | ⟨hloud, e, he, hrep⟩
  · rw [hquiet]
    have hparts : wbaPart cfg sub reply = wbaPart cfg sub s.answers := by
      unfold wbaPart
      rw [hsame, hnow]
    refine ⟨hparts, fun _ hdown => ?_⟩
    rw [← hparts] at hdown
    unfold wbaPart directoryPart at hdown
    split at hdown
    · split_ifs at hdown
      · cases hdown
      · split at hdown
        · cases hdown
        · split at hdown <;> cases hdown
    · cases hdown
    · cases hdown
    next he => exact hno _ he rfl
    next he => exact hno _ he rfl
    · cases hdown
  · rw [hloud]
    refine ⟨?_, nofun⟩
    unfold wbaPart
    rw [he]
    cases e <;> first | rfl | cases hrep

/-- A part that is made of one read. -/
theorem query_outage {ε β : Type} {g : Reply op → Action ε β}
    {k : Except ε β → Except BuildError (Part α)}
    (hfree : ∀ r, (g r).run.given reply = (g r).run.given s.answers)
    (hdown : ∀ r, op.reports r = true → k ((g r).run.given reply) = .ok .down) :
    k ((Ramp.ask op >>= g).run.given reply) =
      masked (op.reports (reply op)) (k ((Ramp.ask op >>= g).run.given s.answers)) := by
  rw [given_ask, given_ask]
  rcases hout op with h | h
  · rw [h, not_reports_answers, hfree]
    rfl
  · rw [h]
    exact hdown _ h

theorem cardPart_outage :
    cardPart sub reply = masked (isDown reply sub .cards) (cardPart sub s.answers) := by
  refine query_outage hout (k := cardOf) (fun r => by split <;> rfl) fun r hr => ?_
  cases r with
  | ok x => cases hr
  | error f => exact congrArg cardOf (congrArg Except.error (if_pos (c := f.isUnavailable) hr))

theorem listPart_outage (missing : Bool) : listPart cfg sub reply missing =
    masked (isDown reply sub .revocations) (listPart cfg sub s.answers missing) := by
  refine query_outage hout (k := listOf cfg missing) (fun r => by split <;> rfl) fun r hr => ?_
  cases r with
  | ok x => cases hr
  | error f =>
    exact congrArg (listOf cfg missing) (congrArg Except.error (if_pos (c := f.isUnavailable) hr))

theorem manifestPart_outage : manifestPart cfg sub reply =
    masked (isDown reply sub .accounts) (manifestPart cfg sub s.answers) := by
  refine query_outage hout (k := manifestOf cfg sub) (fun r => by split <;> rfl) fun r hr => ?_
  cases r with
  | ok x => cases hr
  | error f =>
    exact congrArg (manifestOf cfg sub) (congrArg Except.error (if_pos (c := f.isUnavailable) hr))

end

variable {f : ℕ} {d : DocSet}

theorem buildWBA_asks {ds : DocSet} (h : op ∈ (buildWBA cfg sub ds).run.asks reply) :
    op ∈ (KeyStore.list sub).run.asks reply ∨ op = .now := by
  unfold buildWBA at h
  rw [asks_attempt, asks_rethrow, given_rethrow] at h
  rcases List.mem_append.mp h with h | h
  · exact .inl h
  cases hx : (KeyStore.list sub).run.given reply with
  | error e =>
    rw [hx] at h
    cases e <;> cases h
  | ok keys =>
    rw [hx] at h
    rcases mem_asks_seq h with h | ⟨now, h⟩
    · exact .inr (List.mem_singleton.mp h)
    · dsimp only at h
      split_ifs at h
      · cases h
      · split at h
        · cases h
        · split at h <;> cases h

theorem mem_asks_row {ε : Type} {op' : Call} {g : Reply op' → Action ε α}
    {k : Except ε α → Action BuildError DocSet} (hg : ∀ r, (g r).run.asks reply = [])
    (hk : ∀ row, (k row).run.asks reply = [])
    (h : op ∈ (ExceptT.lift (Ramp.ask op' >>= g).run >>= k).run.asks reply) : op = op' := by
  rw [asks_lift, hk, List.append_nil] at h
  rcases List.mem_cons.mp h with h | h
  · exact h
  · change op ∈ (g (reply op')).run.asks reply at h
    rw [hg] at h
    cases h

theorem build_asks (h : op ∈ (build cfg sub f).run.asks reply) :
    op ∈ (KeyStore.list sub).run.asks reply ∨ op = .now ∨ op = .table (.getCard sub) ∨
      op = .table (.getRevocation sub) ∨ op = .table (.getDeveloperBySubdomain sub) := by
  rcases mem_asks_seq h with h | ⟨ds, h⟩
  · exact (buildWBA_asks h).imp_right .inl
  rcases mem_asks_seq h with h | ⟨ds, h⟩
  · exact .inr (.inr (.inl (mem_asks_row (fun r => by split <;> rfl)
      (fun row => by split <;> rfl) h)))
  rcases mem_asks_seq h with h | ⟨ds, h⟩
  · refine .inr (.inr (.inr (.inl (mem_asks_row (fun r => by split <;> rfl) (fun row => ?_) h))))
    split
    · rfl
    · rfl
    · split_ifs <;> rfl
  · refine .inr (.inr (.inr (.inr (mem_asks_row (fun r => by split <;> rfl) (fun row => ?_) h))))
    split
    · split <;> rfl
    all_goals rfl

theorem masked_down {p : Except BuildError (Part α)} {q : Part α} {down : Bool}
    (h : masked down p = .ok q) (hdown : down = true) : q.isDown = true := by
  subst hdown
  cases h
  rfl

theorem unavailable_of_reports (hout : Outage s reply)
    (hd : (build cfg sub f).run.given reply = .ok d) (hop : op ∈ (build cfg sub f).run.asks reply)
    (hrep : op.reports (reply op) = true) : d.unavailable = true := by
  rw [build_given] at hd
  obtain ⟨w, c, l, m, hw, hc, hl, hm, hun⟩ := assemble_eq_ok hd
  rw [wbaPart_outage hout |>.1] at hw
  rw [cardPart_outage hout] at hc
  rw [listPart_outage hout] at hl
  rw [manifestPart_outage hout] at hm
  rw [hun]
  rcases build_asks hop with hop | rfl | rfl | rfl | rfl
  · simp [masked_down hw (List.any_eq_true.mpr ⟨op, hop, hrep⟩)]
  · cases hrep
  · simp [masked_down hc hrep]
  · simp [masked_down hl hrep]
  · simp [masked_down hm hrep]

theorem stored_of_unavailable {c c' : Cache} {now expires negativeExpires : ℤ} {gen : ℕ}
    {victim : Option String} (hd : d.unavailable = true)
    (h : c.stored now sub d gen expires negativeExpires victim = some c') : c' = c := by
  unfold Cache.stored at h
  rw [if_pos (.inr hd)] at h
  split_ifs at h
  exact (Option.some.inj h).symm

theorem step_answers (hop : op.isSource = true ∨ op = .now) :
    step op s (s.answers op) = some s := by
  rcases hop with hop | rfl
  · cases op with
    | vault c =>
      cases c with
      | listKeys name =>
        simp [step, State.answers, State.answer, Vault.answer, Vault.step, Vault.listed]
      | read ref => simp [step, State.answers, State.answer, Vault.answer, Vault.step]
      | _ => cases hop
    | table c =>
      cases c with
      | getRevocation _ | getCard _ | getDeveloperBySubdomain _ =>
        simp [step, State.answers, State.answer, Tables.answer, Tables.step]
      | _ => cases hop
    | _ => cases hop
  · simp [step, State.answers, State.answer]

theorem step_reports {r : Reply op} (h : op.reports r = true) : step op s r = some s := by
  cases op with
  | vault c =>
    cases c with
    | listKeys name =>
      cases r with
      | ok names => cases h
      | error f =>
        have hf : f.isOutage = true := h
        simp only [VaultFault.isOutage, Bool.and_eq_true, decide_eq_true_eq] at hf
        simp [step, Vault.step, Vault.listed, hf.1]
    | read ref =>
      cases r with
      | ok x => cases h
      | error f =>
        have hf : f.isOutage = true := h
        simp only [VaultFault.isOutage, Bool.and_eq_true, decide_eq_true_eq] at hf
        simp [step, Vault.step, hf.1]
    | _ => cases h
  | table c =>
    cases c with
    | getRevocation _ | getCard _ | getDeveloperBySubdomain _ =>
      cases r with
      | ok x => cases h
      | error f => rfl
    | _ => cases h
  | _ => cases h

theorem build_eval (hout : Outage s reply) (f : ℕ) :
    Prog.eval step (fun op _ => reply op) (build cfg sub f).run s =
      some ((build cfg sub f).run.given reply, s) := by
  refine eval_eq_given fun op hop => ?_
  rcases hout op with hsame | hrep
  · rw [hsame]
    refine step_answers ?_
    rcases build_asks hop with h | rfl | rfl | rfl | rfl
    · rcases (KeyStore.list_looks sub).of_asks h with ⟨name, rfl⟩ | ⟨ref, rfl⟩ <;> exact .inl rfl
    · exact .inr rfl
    · exact .inl rfl
    · exact .inl rfl
    · exact .inl rfl
  · exact step_reports hrep

/-- With all backends up there is a directory, and nothing is on the list of revocations. -/
def Baseline (cfg : Config) (s : State) (sub : String) : Prop :=
  (∃ ds, (buildWBA cfg sub (.none 0)).run.given s.answers = .ok ds ∧ ds.wba.isSome = true) ∧
    s.list sub = .baseline

theorem directory_made : (∃ ds, (buildWBA cfg sub (.none 0)).run.given reply = .ok ds ∧
      ds.wba.isSome = true) ↔ ∃ x, wbaPart cfg sub reply = .ok (.made x) := by
  rw [buildWBA_given]
  cases wbaPart cfg sub reply with
  | error e => simp [Except.map]
  | ok w => cases w <;> simp [Except.map, Part.doc?]

theorem sources (hout : Outage s reply) {c : Part Card} (hc : c ≠ .down) :
    Sources (isDown reply sub) (wbaPart cfg sub s.answers) c (listPart cfg sub s.answers)
      (manifestPart cfg sub s.answers) (s.list sub = .baseline) where
  keys e he := wbaPart_error he _
  directory := (wbaPart_outage hout).2
  card := hc
  list missing e he := by
    rw [listPart_answers] at he
    split_ifs at he
    cases he
    rfl
  listed missing x hx := by
    rw [listPart_answers] at hx
    split_ifs at hx <;> cases hx <;> nofun
  manifest := manifestPart_answers.2
  overlay := manifestPart_answers.1
  empty hb := by
    refine ⟨by rw [listPart_answers, if_pos ⟨rfl, hb⟩], ?_⟩
    rw [listPart_answers, if_neg (by simp)]
    split_ifs <;> nofun
  held hb := by simp only [listPart_answers, hb, and_false]

/-- During an outage a build returns, and nothing is cached of it if a backend reported the
outage to it. Each route answers as with all backends up or that its document is unavailable
if and only if every backend is down, or no backend that is down hides a failure of the build
and the keys are not down while the list that goes with a directory is read. -/
theorem routes_during_outage (cfg : Config) (sub : String) (f : ℕ) (hout : Outage s reply) :
    Prog.eval step (fun op _ => reply op) (build cfg sub f).run s =
        some ((build cfg sub f).run.given reply, s) ∧
    (∀ d op, (build cfg sub f).run.given reply = .ok d →
      op ∈ (build cfg sub f).run.asks reply → op.reports (reply op) = true →
      ∀ gen expires negativeExpires victim now c c', Cache.step (.store sub d gen expires
        negativeExpires) now c victim = some c' → c' = c) ∧
    ((∀ route, pick route ((build cfg sub f).run.given reply) =
          pick route ((build cfg sub f).run.given s.answers) ∨
        pick route ((build cfg sub f).run.given reply) = .error .unavailable) ↔
      (∀ b, isDown reply sub b = true) ∨
        (∀ e, (build cfg sub f).run.given s.answers = .error e →
          hides (isDown reply sub) e = false) ∧
        (isDown reply sub .keys = true → isDown reply sub .revocations = false →
          Baseline cfg s sub → (build cfg sub f).run.given s.answers = .error .manifest)) := by
  refine ⟨build_eval hout f,
    fun d op hd hop hrep gen expires negativeExpires victim now c c' h => ?_, ?_⟩
  · exact stored_of_unavailable (unavailable_of_reports hout hd hop hrep) h
  · obtain ⟨c, hdown, hc⟩ := @cardPart_answers s sub
    have hiff := (@sources s cfg sub reply hout c hdown).withstands_iff (f := f)
    have hlist : listPart cfg sub reply = _ := funext fun missing => listPart_outage hout missing
    unfold Baseline
    rw [build_given, build_given, (wbaPart_outage hout).1, cardPart_outage hout,
      manifestPart_outage hout, hlist, hc,
      directory_made, and_imp]
    exact hiff

end

def keysDown (s : State) (op : Call) : Reply op :=
  match op with
  | .vault (.listKeys _) => .error .transport
  | .vault (.read _) => .error .transport
  | op => s.answer op

theorem outage_keysDown (s : State) : Outage s (keysDown s) := by
  intro op
  cases op with
  | vault c =>
    cases c with
    | listKeys _ | read _ => exact .inr rfl
    | _ => exact .inl rfl
  | _ => exact .inl rfl

def oneRevoked : State :=
  { twoKeys with
    tables := Tables.empty.revoked elderRef.subdomain ⟨50, [elderRef.thumbprint]⟩ }

theorem routes_during_outage_revoked :
    Outage oneRevoked (keysDown oneRevoked) ∧
      ∀ route, pick route ((build smallPublisher elderRef.subdomain 0).run.given
          (keysDown oneRevoked)) =
          pick route ((build smallPublisher elderRef.subdomain 0).run.given oneRevoked.answers) ∨
        pick route ((build smallPublisher elderRef.subdomain 0).run.given (keysDown oneRevoked)) =
          .error .unavailable := by
  have hup : ∀ e, (build smallPublisher elderRef.subdomain 0).run.given oneRevoked.answers ≠
      .error e := by
    have hok : ((build smallPublisher elderRef.subdomain 0).run.given oneRevoked.answers).isOk =
        true := by decide +kernel
    intro e he
    rw [he] at hok
    cases hok
  refine ⟨outage_keysDown _, ?_⟩
  refine (routes_during_outage smallPublisher elderRef.subdomain 0
    (outage_keysDown oneRevoked)).2.2.mpr (.inr ⟨fun e he => absurd he (hup e), fun _ _ hb => ?_⟩)
  exact absurd hb.2 (by decide +kernel)

def badRecord : State where
  now := 50
  vault := ⟨(∅ : Table Ref Secret).insert elderRef .malformed, [elderRef.thumbprint], by
    intro ref x h
    rw [Table.get?_insert] at h
    split_ifs at h with hr
    · rw [hr]
      exact List.mem_cons_self
    · simp at h⟩
  tables := .empty
  cache := .empty

/-- With the secrets engine down the list of an agent that has keys and has revoked nothing is
absent, where it is the baseline otherwise; and a record that does not parse fails every
route only while the secrets engine is up. -/
theorem list_absent_during_outage :
    Outage twoKeys (keysDown twoKeys) ∧
      pick .revocation ((build smallPublisher elderRef.subdomain 0).run.given twoKeys.answers) =
        .ok (.revocation ⟨0, []⟩) ∧
      pick .revocation ((build smallPublisher elderRef.subdomain 0).run.given (keysDown twoKeys)) =
        .error .absent ∧
      pick .card ((build smallPublisher elderRef.subdomain 0).run.given badRecord.answers) =
        .error (.failed (.keys .corrupt)) ∧
      pick .card ((build smallPublisher elderRef.subdomain 0).run.given (keysDown badRecord)) =
        .error .absent := by
  refine ⟨outage_keysDown _, ?_⟩
  decide +kernel

end Publisher

end Ramp.Identity
