import Ramp.Identity.KeyConduct
import Ramp.Identity.Publisher
import Ramp.Program.Observed

/-! Concurrent sign-ins. The account row of an identity, once there, stays; a sign-in that
returns has been shown the row, a key and the card of its subdomain, and none of them goes
away again. -/

namespace Ramp.Identity

open Prog

def Keeps (op : Call) : Prop := ∀ ref, op ≠ .vault (.deleteMetadata ref)

def State.HasKey (s : State) (sub : String) : Prop :=
  ∃ ref record, ref.subdomain = sub ∧ s.secret ref = some (.record record)

def Shows : Event Call Reply → State → Prop
  | ⟨.table (.getDeveloperBySubject issuer subject), (r : Except PgFault (Option Developer))⟩, s =>
    ∀ d, r = .ok (some d) → s.tables.developers.get? (issuer, subject) = some d
  | ⟨.table (.reserveDeveloper d), (w : Written PgFault Developer)⟩, s =>
    ∀ d', w = .done d' → d' = d ∧ s.tables.developers.get? (d.issuer, d.subject) = some d
  | ⟨.table (.upsertCard sub _), (w : Written PgFault Card)⟩, s =>
    w.confirmed = true → (s.tables.cards.get? sub).isSome = true
  | ⟨.vault (.read ref), (r : Except VaultFault (Option Secret))⟩, s =>
    ∀ record, r = .ok (some (.record record)) → s.HasKey ref.subdomain
  | ⟨.vault (.write ref _), (w : Written VaultFault Unit)⟩, s =>
    w.confirmed = true → s.HasKey ref.subdomain
  | _, _ => True

structure Grows (s t : State) : Prop where
  developers : ∀ i d, s.tables.developers.get? i = some d → t.tables.developers.get? i = some d
  cards : ∀ sub, (s.tables.cards.get? sub).isSome = true →
    (t.tables.cards.get? sub).isSome = true
  keys : ∀ sub, s.HasKey sub → t.HasKey sub

section

variable {s t : State}

theorem Grows.of_ticks (h : Ticks s t) : Grows s t := by
  rw [h]
  exact ⟨fun _ _ h => h, fun _ h => h, fun _ h => h⟩

theorem Shows.mono {e : Event Call Reply} (h : Grows s t) (hs : Shows e s) : Shows e t := by
  unfold Shows at *
  split
  · exact fun d hd => h.developers _ d (hs d hd)
  · exact fun d' hd => ⟨(hs d' hd).1, h.developers _ _ (hs d' hd).2⟩
  · exact fun hw => h.cards _ (hs hw)
  · exact fun record hr => h.keys _ (hs record hr)
  · exact fun hw => h.keys _ (hs hw)
  · trivial

variable {op : Call} {r : Reply op} {sub : String} {d : Developer}

theorem step_keeps_key (hop : Keeps op) (h : step op s r = some t) (hk : s.HasKey sub) :
    t.HasKey sub := by
  obtain ⟨ref, record, href, hs⟩ := hk
  rcases step_secret h ref with hsame | ⟨record', rfl⟩ | ⟨hd, -⟩
  · exact ⟨ref, record, href, hsame.trans hs⟩
  · rcases step_write h ref with hsame | ⟨-, hnew⟩
    · exact ⟨ref, record, href, hsame.trans hs⟩
    · exact ⟨ref, record', href, hnew⟩
  · exact absurd hd (hop ref)

theorem Tables.Effect.developers {s t : Tables} {c : TableCall} (h : s.Effect c t)
    {i : String × String} (hd : s.developers.get? i = some d) : t.developers.get? i = some d := by
  cases h with
  | none | revoked | upserted => exact hd
  | reserved d' hd' free =>
    change (s.developers.insert (d'.issuer, d'.subject) d').get? i = some d
    rw [Table.get?_insert, if_neg]
    · exact hd
    · rintro rfl
      simp [Tables.subjectTaken, hd] at free

theorem Tables.Effect.cards {s t : Tables} {c : TableCall} (h : s.Effect c t)
    (hs : (s.cards.get? sub).isSome = true) : (t.cards.get? sub).isSome = true := by
  cases h with
  | none | revoked | reserved => exact hs
  | upserted subdomain' card =>
    rw [Table.get?_insert]
    split_ifs
    · rfl
    · exact hs

theorem step_grows (hop : Keeps op) (h : step op s r = some t) : Grows s t := by
  refine ⟨fun i d hd => ?_, fun sub hs => ?_, fun _ hk => step_keeps_key hop h hk⟩
  · rcases (step_effects h).2 with ⟨c, -, heff⟩ | hsame
    · exact heff.developers hd
    · rwa [hsame]
  · rcases (step_effects h).2 with ⟨c, -, heff⟩ | hsame
    · exact heff.cards hs
    · rwa [hsame]

theorem Tables.reserveStep_done {s t : Tables} {d' : Developer}
    (h : s.reserveStep d (.done d') = some t) :
    d' = d ∧ t.developers.get? (d.issuer, d.subject) = some d := by
  simp only [Tables.reserveStep] at h
  split_ifs at h with hfree
  cases h
  refine ⟨by simpa [Written.returns] using hfree.2.2, ?_⟩
  change (s.developers.insert (d.issuer, d.subject) d).get? _ = _
  rw [Table.get?_insert, if_pos rfl]

theorem step_shows (h : step op s r = some t) : Shows ⟨op, r⟩ t := by
  unfold Shows
  split
  next issuer subject r he =>
    cases he
    rintro d rfl
    have htable := step_table h
    simp only [Tables.step, Option.ite_none_right_eq_some, Option.some.injEq] at htable
    rw [← htable.1.2]
    exact htable.1.1.symm
  next d w he =>
    cases he
    rintro d' rfl
    exact Tables.reserveStep_done (step_table h).1
  next sub card w he =>
    cases he
    intro hw
    have htable := (step_table h).1
    have happlied : w.applied = true := by
      cases w with
      | done _ => rfl
      | failed _ _ => cases hw
    simp only [Tables.step, Option.ite_none_right_eq_some, Option.some.injEq, happlied,
      if_true] at htable
    rw [← htable.2]
    simp [Table.get?_insert]
  next ref r he =>
    cases he
    rintro record rfl
    have hv := step_vault h
    refine ⟨ref, record, rfl, ?_⟩
    simp only [Vault.step, Option.ite_none_right_eq_some, Option.some.injEq] at hv
    rw [State.secret, ← hv.1.2]
    exact hv.1.1.symm
  next ref record w he =>
    cases he
    intro hw
    have hv := Option.some.inj (step_vault h).1
    cases w with
    | done _ =>
      refine ⟨ref, record, rfl, ?_⟩
      rw [State.secret, ← hv]
      simp [Written.applied]
    | failed _ _ => cases hw
  · trivial

end

/-! What each part of a sign-in has been shown when it returns. -/

def State.HasAccount (s : State) (issuer subject : String) (d : Developer) : Prop :=
  s.tables.developers.get? (issuer, subject) = some d

theorem Developers.bySubject_told (issuer subject : String) (h : Log) :
    Yields recordCall Free (fun h' d => Told Shows h' (·.HasAccount issuer subject d))
      (bySubject issuer subject) h := by
  refine Spec.ask trivial fun r t ht => ?_
  cases ht
  rcases r with f | _ | d
  · exact Yields.throw
  · exact Yields.throw
  · exact Yields.pure (Told.last fun s hs => hs d rfl)

theorem Developers.reserve_told (d : Developer) (h : Log) :
    Yields recordCall Free (fun h' d' => Told Shows h' (·.HasAccount d.issuer d.subject d'))
      (reserve d) h := by
  refine Spec.ask trivial fun w t ht => ?_
  cases ht
  cases w with
  | done d' =>
    refine Yields.pure (Told.last fun s hs => ?_)
    obtain ⟨rfl, hd⟩ := hs d' rfl
    exact hd
  | failed f applied => exact Yields.throw

theorem KeyStore.list_told (sub : String) (h : Log) :
    Yields recordCall Free (fun h' keys => keys ≠ [] → Told Shows h' (·.HasKey sub))
      (list sub) h := by
  refine (list_yields (fun _ _ _ => trivial) sub h).mono fun h' keys hkeys hne => ?_
  obtain ⟨k, hk⟩ := List.exists_mem_of_ne_nil keys hne
  obtain ⟨rfl, -, record, hmem⟩ := hkeys k hk
  exact fun s hs => hs _ hmem record rfl

theorem KeyStore.create_told (sub : String) (w : Window) (h : Log) :
    Yields recordCall Free (fun h' _ => Told Shows h' (·.HasKey sub)) (create sub w) h := by
  refine Yields.seq (Yields.free _ h) fun h₁ _ _ => ?_
  split_ifs
  · refine Spec.ask trivial fun r h₂ _ => ?_
    rcases r with _ | g
    · exact Yields.throw
    · refine Spec.ask trivial fun createdAt h₃ _ => ?_
      have hput : Yields recordCall Free (fun h' _ => Told Shows h' (·.HasKey sub))
          (put ⟨sub, g.thumbprint⟩ ⟨g.publicKey, w, createdAt⟩) h₃ := by
        refine Yields.seq (Yields.free _ h₃) fun h₄ _ _ => Spec.ask trivial fun answer h₅ ht => ?_
        cases ht
        cases answer with
        | done u => exact Yields.pure (Told.last fun s hs => hs rfl)
        | failed f applied => exact Yields.throw
      exact Yields.seq hput fun _ _ ht => Yields.pure ht
  · exact Yields.throw

namespace SignUp

variable (cfg : Config) (claims : Claims)

theorem reserve_told (attempts : ℕ) (h : Log) : Yields recordCall Free
      (fun h' d => Told Shows h' (·.HasAccount claims.issuer claims.subject d))
      (reserve cfg claims attempts) h := by
  induction attempts generalizing h with
  | zero => exact Yields.throw
  | succ attempts ih =>
    refine Spec.ask trivial fun slug h₁ _ => ?_
    rcases slug with _ | slug
    · exact Yields.throw
    · refine Spec.attempt (Developers.reserve_told _ h₁).rethrow fun h₂ made hmade => ?_
      split
      · exact Yields.pure (hmade _ rfl)
      · exact ih h₂
      · exact (Developers.bySubject_told claims.issuer claims.subject h₂).rethrow
      · exact Yields.throw

theorem resolveOrReserve_told (h : Log) : Yields recordCall Free
      (fun h' d => Told Shows h' (·.HasAccount claims.issuer claims.subject d))
      (resolveOrReserve cfg claims) h := by
  refine Spec.attempt (Developers.bySubject_told _ _ h).rethrow fun h₁ found hfound => ?_
  split
  · exact Yields.pure (hfound _ rfl)
  · exact reserve_told cfg claims maxSlugAttempts h₁
  · exact Yields.throw

theorem ensureKey_told (sub : String) (h : Log) :
    Yields recordCall Free (fun h' _ => Told Shows h' (·.HasKey sub)) (ensureKey cfg sub) h := by
  refine Yields.seq (KeyStore.list_told sub h).rethrow fun h₁ keys hkeys => ?_
  split
  · exact Yields.pure (hkeys (by simp))
  · refine Spec.ask trivial fun now h₂ _ => ?_
    exact Yields.seq (KeyStore.create_told sub _ h₂).rethrow fun _ _ ht => Yields.pure ht

theorem ensureCard_told (sub : String) (h : Log) : Yields recordCall Free
      (fun h' _ => Told Shows h' fun s => (s.tables.cards.get? sub).isSome = true)
      (ensureCard sub claims) h := by
  have hupsert : Yields recordCall Free
      (fun h' _ => Told Shows h' fun s => (s.tables.cards.get? sub).isSome = true)
      (Cards.upsert sub (cardFromClaims sub claims)) h := by
    refine Spec.ask trivial fun w t ht => ?_
    cases ht
    cases w with
    | done card => exact Yields.pure (Told.last fun s hs => hs rfl)
    | failed f applied => exact Yields.throw
  exact Yields.seq hupsert.rethrow fun _ _ ht => Yields.pure ht

def Provisioned (sub : String) (s : State) : Prop :=
  (∃ d, s.HasAccount claims.issuer claims.subject d ∧ d.subdomain = sub) ∧
    s.HasKey sub ∧ (s.tables.cards.get? sub).isSome = true

theorem signIn_told (h : Log) :
    Yields recordCall Free (fun h' sub => Told Shows h' (Provisioned claims sub))
      (signIn cfg claims) h := by
  refine Yields.seq (resolveOrReserve_told cfg claims h) fun h₁ d hd => ?_
  refine Yields.seq ((ensureKey_told cfg d.subdomain h₁).told hd) fun h₂ _ hkey => ?_
  obtain ⟨hkey, hd⟩ := hkey
  have hcard := ((ensureCard_told claims d.subdomain h₂).told hd).told hkey
  refine Yields.seq hcard fun h₃ _ hcard => ?_
  obtain ⟨⟨hcard, hd⟩, hkey⟩ := hcard
  have hall : Told Shows h₃ (Provisioned claims d.subdomain) :=
    fun s hs => ⟨⟨d, hd s hs, rfl⟩, hkey s hs, hcard s hs⟩
  refine Yields.seq ((Yields.free _ h₃).told hall) fun h₄ _ ht => ?_
  exact Yields.pure ht.2

end SignUp

/-! A sign-in erases nothing. -/

theorem KeyStore.create_keeps (sub : String) (w : Window) : (create sub w).run.Only Keeps := by
  have hput : ∀ ref record, (put ref record).run.Only Keeps := by
    intro ref record
    refine .seq Only.orThrow fun _ => .ask (by simp [Keeps]) fun answer => ?_
    split <;> trivial
  refine .seq Only.orThrow fun _ => ?_
  split_ifs
  · refine .ask (by simp [Keeps]) fun answer => ?_
    split
    · trivial
    · refine .ask (by simp [Keeps]) fun createdAt => ?_
      exact .seq (hput _ _) fun _ => trivial
  · trivial

theorem Developers.bySubject_keeps (issuer subject : String) :
    (bySubject issuer subject).run.Only Keeps := by
  refine .ask (by simp [Keeps]) fun answer => ?_
  split <;> trivial

theorem Developers.reserve_keeps (d : Developer) : (reserve d).run.Only Keeps := by
  refine .ask (by simp [Keeps]) fun answer => ?_
  split <;> trivial

namespace SignUp

variable (cfg : Config) (claims : Claims)

theorem reserve_keeps (attempts : ℕ) : (reserve cfg claims attempts).run.Only Keeps := by
  induction attempts with
  | zero => trivial
  | succ attempts ih =>
    refine .ask (by simp [Keeps]) fun slug => ?_
    split
    · trivial
    · refine .seq (.attempt (.rethrow (Developers.reserve_keeps _))) fun made => ?_
      split
      · trivial
      · exact ih
      · exact .rethrow (Developers.bySubject_keeps _ _)
      · trivial

theorem resolveOrReserve_keeps : (resolveOrReserve cfg claims).run.Only Keeps := by
  refine .seq (.attempt (.rethrow (Developers.bySubject_keeps _ _))) fun found => ?_
  split
  · trivial
  · exact reserve_keeps cfg claims maxSlugAttempts
  · trivial

theorem ensureKey_keeps (sub : String) : (ensureKey cfg sub).run.Only Keeps := by
  have hlist := (KeyStore.list_reads sub).mono fun _ h => h.2
  refine .seq (.rethrow hlist) fun keys => ?_
  split
  · trivial
  · refine .ask (by simp [Keeps]) fun now => ?_
    exact .seq (.rethrow (KeyStore.create_keeps sub _)) fun _ => trivial

theorem ensureCard_keeps (sub : String) : (ensureCard sub claims).run.Only Keeps := by
  have hupsert : (Cards.upsert sub (cardFromClaims sub claims)).run.Only Keeps := by
    refine .ask (by simp [Keeps]) fun answer => ?_
    split <;> trivial
  exact .seq (.rethrow hupsert) fun _ => trivial

theorem signIn_keeps : (signIn cfg claims).run.Only Keeps := by
  refine .seq (resolveOrReserve_keeps cfg claims) fun d => ?_
  refine .seq (ensureKey_keeps cfg d.subdomain) fun _ => ?_
  refine .seq (ensureCard_keeps claims d.subdomain) fun _ => ?_
  have hinvalidate := (invalidate_reads d.subdomain).mono fun _ h => h.2
  exact .seq (.bind hinvalidate fun _ => trivial) fun _ => trivial

end SignUp

section

variable {ι : Type} [DecidableEq ι]

def signInPool (cfg : SignUp.Config) (claims : ι → Claims) (s : State) :
    Pool Call Reply State ι (Except SignUpError String) :=
  ⟨s, fun i => (SignUp.signIn cfg (claims i)).run⟩

variable {cfg : SignUp.Config} {claims : ι → Claims} {s : State} {tr : Trace Call Reply ι}
  {c : Pool Call Reply State ι (Except SignUpError String)}

theorem signIn_provisioned (hr : Run step Ticks (signInPool cfg claims s) tr c) {i : ι}
    {sub : String} (hret : c.threads i = .ret (.ok sub)) :
    SignUp.Provisioned (claims i) sub c.shared := by
  have hspec : ∀ i, Spec recordCall Free
      (fun h r => ∀ sub, r = .ok sub →
        Told Shows h (SignUp.Provisioned (claims i) sub))
      ((signInPool cfg claims s).threads i) [] := fun i => SignUp.signIn_told cfg (claims i) []
  have htold := hr.returned hspec hret sub rfl
  have hshown : ∀ x ∈ tr, Shows x.2 c.shared := by
    refine Run.shown_of_only (fun i => SignUp.signIn_keeps cfg (claims i)) hr ?_ ?_ ?_
    · exact fun s op r t _ hstep => step_shows hstep
    · exact fun s op r t e hop hstep he => he.mono (step_grows hop hstep)
    · exact fun s t e hmove he => he.mono (.of_ticks hmove)
  exact htold c.shared fun e he => hshown (i, e) (Trace.mem_own.mp he)

/-- Sign-ins of one identity return one subdomain, those of different identities different
ones, and a subdomain that was returned has a key and a card. -/
theorem signIns_agree (hr : Run step Ticks (signInPool cfg claims s) tr c) :
    (∀ i j sub sub', c.threads i = .ret (.ok sub) →
      c.threads j = .ret (.ok sub') → (sub = sub' ↔
        (claims i).issuer = (claims j).issuer ∧ (claims i).subject = (claims j).subject)) ∧
    ∀ i sub, c.threads i = .ret (.ok sub) →
      c.shared.HasKey sub ∧ (c.shared.tables.cards.get? sub).isSome = true := by
  refine ⟨fun i j sub sub' hi hj => ?_, fun i sub hi => ?_⟩
  · obtain ⟨⟨d, hd, rfl⟩, -⟩ := signIn_provisioned hr hi
    obtain ⟨⟨d', hd', rfl⟩, -⟩ := signIn_provisioned hr hj
    constructor
    · intro hsame
      exact Prod.mk.inj (c.shared.tables.unique _ _ d d' hd hd' hsame)
    · rintro ⟨hissuer, hsubject⟩
      rw [State.HasAccount, hissuer, hsubject] at hd
      obtain rfl := Option.some.inj (hd.symm.trans hd')
      rfl
  · exact (signIn_provisioned hr hi).2

end

def answerSlug (slug : String) (g : Generated) (c : Call) (s : State) : Reply c :=
  match c with
  | .newSlug => some slug
  | .vault .generateKey => some g
  | c => s.answer c

def developer (subject : String) : Claims := ⟨"issuer", subject, subject ++ "@example", ""⟩

def signingIn : Fin 3 → Claims
  | 0 | 1 => developer "ada"
  | 2 => developer "bob"

def thumbprintOf (a : Char) : String := String.ofList (List.replicate 43 a)

/-- The two sign-ins of one developer race for a row, and the other developer's is first
proposed a subdomain that is taken. -/
def race : List (Turn Call Reply State (Fin 3)) :=
  let a := answerSlug "agent-a" ⟨"a", thumbprintOf 'A'⟩
  let b := answerSlug "agent-b" ⟨"b", thumbprintOf 'B'⟩
  [⟨0, a⟩, ⟨1, a⟩] ++ List.replicate 7 ⟨0, a⟩ ++ List.replicate 3 ⟨2, a⟩ ++
    List.replicate 4 ⟨1, b⟩ ++ List.replicate 4 ⟨0, a⟩ ++ List.replicate 5 ⟨1, b⟩ ++
    List.replicate 11 ⟨2, b⟩

theorem signIns_agree_race : ∃ tr c,
    Run step Ticks (signInPool ⟨"example", 10⟩ signingIn .initial) tr c ∧
      c.threads 0 = .ret (.ok "agent-a.example") ∧ c.threads 1 = .ret (.ok "agent-a.example") ∧
      c.threads 2 = .ret (.ok "agent-b.example") ∧ c.shared.HasKey "agent-a.example" ∧
      "agent-b.example" ≠ "agent-a.example" := by
  obtain ⟨tr, c, hr, h₀, h₁, h₂⟩ : ∃ tr c,
      Run step Ticks (signInPool ⟨"example", 10⟩ signingIn .initial) tr c ∧
      (c.threads 0).ok? = some "agent-a.example" ∧ (c.threads 1).ok? = some "agent-a.example" ∧
      (c.threads 2).ok? = some "agent-b.example" :=
    Pool.exists_run race (by decide +kernel)
  have h₀ := ok?_eq_some.mp h₀
  have h₂ := ok?_eq_some.mp h₂
  obtain ⟨hsame, hkeyed⟩ := signIns_agree hr
  refine ⟨tr, c, hr, h₀, ok?_eq_some.mp h₁, h₂, (hkeyed 0 _ h₀).1, fun he => ?_⟩
  have hsubject := ((hsame 2 0 _ _ h₂ h₀).mp he).2
  revert hsubject
  decide

end Ramp.Identity
