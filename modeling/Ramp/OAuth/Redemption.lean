import Mathlib.Logic.Function.Basic

/-! The life of authorization codes. Attempts to redeem them overlap in any way; the checks and
the guarded update are separate steps on the store. -/

namespace Ramp.OAuth

open Function (update update_of_ne update_self)

structure Code where
  clientID : String
  redirectURI : String
  pkceChallenge : String
  subject : String
  expiresAt : Int
  deriving DecidableEq

structure Row where
  code : Code
  consumed : Bool
  deriving DecidableEq

structure CodeGrant where
  clientID : String
  redirectURI : String
  clientState : String
  challenge : String
  subject : String
  deriving DecidableEq

structure TokenRequest where
  code : String
  verifier : String
  clientID : String
  redirectURI : String
  deriving DecidableEq

inductive GrantError
  | invalidGrant (desc : String)
  | store (e : String)
  | failed (text : String)
  deriving DecidableEq

structure Grant where
  sha256b64url : String → String
  codeTTL : Int
  tokenTTL : Int

/-- How far a `redeem` has come. The last three stages are its returns: before the code was
tried, after that without a token, and with one. -/
inductive Stage
  | idle
  | peeking (req : TokenRequest)
  | checking (req : TokenRequest) (stored : Code)
  | consuming (req : TokenRequest) (stored : Code) (now : Int)
  | minting (req : TokenRequest) (stored : Code) (now : Int)
  | refused (req : TokenRequest) (e : GrantError)
  | lost (req : TokenRequest) (stored : Code) (now : Int) (e : GrantError)
  | redeemed (req : TokenRequest) (stored : Code) (now : Int) (accessToken : String) (ttl : Int)
  deriving DecidableEq

/-- What the clock, the store and the issuer do at a step. A store call that fails may have
been applied. -/
structure Outside where
  now : Int := 0
  fault : Option (String × Bool) := none
  minted : Except String String := .ok ""

structure World (ι : Type) where
  codes : String → Option Row := fun _ => none
  attempts : ι → Stage := fun _ => .idle

inductive Action (ι : Type)
  | issue (code : String) (cg : CodeGrant) (now : Int)
  | begins (i : ι) (req : TokenRequest)
  | proceeds (i : ι) (o : Outside)

namespace Grant

variable (g : Grant) {ι : Type} [DecidableEq ι]

def hashCode (code : String) : String := g.sha256b64url code

def verifyPKCE (challenge verifier : String) : Bool := g.sha256b64url verifier == challenge

/-- The refusals of `redeem` between its two store calls. -/
def check (req : TokenRequest) (stored : Code) (now : Int) : Option String :=
  if stored.expiresAt < now then some "authorization code expired"
  else if stored.clientID ≠ req.clientID ∨ stored.redirectURI ≠ req.redirectURI then
    some "client_id or redirect_uri mismatch"
  else if g.verifyPKCE stored.pkceChallenge req.verifier then none
  else some "PKCE verification failed"

/-- The request comes from the client that the code was issued to, names the redirect URI of the
grant, knows the verifier behind the challenge and is made in time. -/
structure Matches (req : TokenRequest) (stored : Code) (now : Int) : Prop where
  clientID : req.clientID = stored.clientID
  redirectURI : req.redirectURI = stored.redirectURI
  challenge : g.sha256b64url req.verifier = stored.pkceChallenge
  unexpired : now ≤ stored.expiresAt

theorem check_eq_none {req : TokenRequest} {stored : Code} {now : Int} :
    g.check req stored now = none ↔ g.Matches req stored now := by
  unfold check verifyPKCE
  constructor
  · intro h
    split at h
    · cases h
    next htime =>
      split at h
      · cases h
      next hmismatch =>
        obtain ⟨hclient, hredirect⟩ := not_or.mp hmismatch
        exact ⟨(not_not.mp hclient).symm, (not_not.mp hredirect).symm, by simpa using h,
          Int.not_lt.mp htime⟩
  · rintro ⟨hclient, hredirect, hpkce, htime⟩
    rw [if_neg (Int.not_lt.mpr htime), if_neg (by simp [hclient, hredirect]),
      if_pos (by simpa using hpkce)]

def spent : GrantError := .invalidGrant "unknown or already-used authorization code"

def consumeCode (codes : String → Option Row) (codeHash : String) : String → Option Row :=
  update codes codeHash ((codes codeHash).map fun row => { row with consumed := true })

def proceed (codes : String → Option Row) (o : Outside) : Stage → (String → Option Row) × Stage
  | .peeking req =>
    match o.fault, codes (g.hashCode req.code) with
    | some (e, _), _ => (codes, .refused req (.store e))
    | none, none => (codes, .refused req spent)
    | none, some row => (codes, .checking req row.code)
  | .checking req stored =>
    match g.check req stored o.now with
    | some desc => (codes, .refused req (.invalidGrant desc))
    | none => (codes, .consuming req stored o.now)
  | .consuming req stored now =>
    let codeHash := g.hashCode req.code
    match o.fault, codes codeHash with
    | some (e, applied), _ => (if applied then consumeCode codes codeHash else codes,
        .lost req stored now (.store e))
    | none, some ⟨_, false⟩ => (consumeCode codes codeHash, .minting req stored now)
    | none, _ => (codes, .lost req stored now spent)
  | .minting req stored now =>
    match o.minted with
    | .error e => (codes, .lost req stored now (.failed ("mint access token: " ++ e)))
    | .ok access => (codes, .redeemed req stored now access g.tokenTTL)
  | stage => (codes, stage)

def act (w : World ι) : Action ι → World ι
  | .issue code cg now =>
    let codeHash := g.hashCode code
    let row := (w.codes codeHash).getD
      ⟨⟨cg.clientID, cg.redirectURI, cg.challenge, cg.subject, now + g.codeTTL⟩, false⟩
    { w with codes := update w.codes codeHash (some row) }
  | .begins i req =>
    match w.attempts i with
    | .idle => { w with attempts := update w.attempts i (.peeking req) }
    | _ => w
  | .proceeds i o =>
    let next := g.proceed w.codes o (w.attempts i)
    ⟨next.1, update w.attempts i next.2⟩

def run (actions : List (Action ι)) : World ι := actions.foldl g.act {}

/-- The attempt passed its checks against the stored code and went on to consume it. -/
def Tried (codeHash : String) (stored : Code) : Stage → Prop
  | .minting req c now | .lost req c now _ | .redeemed req c now _ _ =>
    g.hashCode req.code = codeHash ∧ c = stored ∧ g.Matches req stored now
  | _ => False

def Won (codeHash : String) : Stage → Prop
  | .minting req _ _ | .redeemed req _ _ _ _ => g.hashCode req.code = codeHash
  | _ => False

def Holds (codes : String → Option Row) : Stage → Prop
  | .checking req stored => ∃ b, codes (g.hashCode req.code) = some ⟨stored, b⟩
  | .consuming req stored now =>
    (∃ b, codes (g.hashCode req.code) = some ⟨stored, b⟩) ∧ g.Matches req stored now
  | .minting req stored now | .redeemed req stored now _ _ =>
    codes (g.hashCode req.code) = some ⟨stored, true⟩ ∧ g.Matches req stored now
  | _ => True

structure Sound (codes : String → Option Row) (attempts : ι → Stage) : Prop where
  holds : ∀ i, g.Holds codes (attempts i)
  single : ∀ i j codeHash, g.Won codeHash (attempts i) → g.Won codeHash (attempts j) → i = j
  tried : ∀ codeHash stored, codes codeHash = some ⟨stored, true⟩ →
    ∃ j, g.Tried codeHash stored (attempts j)

variable {g} {codes codes' : String → Option Row} {codeHash codeHash' : String}

/-- No step takes a code away or makes it fresh again. -/
def Grows (codes codes' : String → Option Row) : Prop :=
  ∀ codeHash stored b, codes codeHash = some ⟨stored, b⟩ →
    ∃ b', codes' codeHash = some ⟨stored, b'⟩ ∧ (b = true → b' = true)

theorem Grows.refl (codes : String → Option Row) : Grows codes codes :=
  fun _ _ b h => ⟨b, h, id⟩

theorem Grows.holds (hgrows : Grows codes codes') {stage : Stage} (h : g.Holds codes stage) :
    g.Holds codes' stage := by
  have hstays : ∀ {codeHash stored}, (∃ b, codes codeHash = some ⟨stored, b⟩) →
      ∃ b, codes' codeHash = some ⟨stored, b⟩ := by
    rintro codeHash stored ⟨b, hrow⟩
    obtain ⟨b', hb, -⟩ := hgrows _ _ _ hrow
    exact ⟨b', hb⟩
  have hkept : ∀ {codeHash stored}, codes codeHash = some ⟨stored, true⟩ →
      codes' codeHash = some ⟨stored, true⟩ := by
    intro codeHash stored hrow
    obtain ⟨b, hb, htrue⟩ := hgrows _ _ _ hrow
    rwa [htrue rfl] at hb
  cases stage with
  | checking => exact hstays h
  | consuming => exact ⟨hstays h.1, h.2⟩
  | minting => exact ⟨hkept h.1, h.2⟩
  | redeemed => exact ⟨hkept h.1, h.2⟩
  | _ => trivial

theorem consumeCode_self {row : Row} (h : codes codeHash = some row) :
    consumeCode codes codeHash codeHash = some ⟨row.code, true⟩ := by
  simp [consumeCode, h]

theorem consumeCode_of_ne (hne : codeHash' ≠ codeHash) :
    consumeCode codes codeHash codeHash' = codes codeHash' :=
  update_of_ne hne _ _

theorem Grows.consume (codes : String → Option Row) (codeHash : String) :
    Grows codes (consumeCode codes codeHash) := by
  intro codeHash' stored b h
  rcases eq_or_ne codeHash' codeHash with rfl | hne
  · exact ⟨true, consumeCode_self h, fun _ => rfl⟩
  · exact ⟨b, (consumeCode_of_ne hne).trans h, id⟩

variable {attempts : ι → Stage} {i : ι} {old new : Stage}

section

variable (h : g.Sound codes attempts) (hst : attempts i = old)
include h hst

theorem Sound.step (hgrows : Grows codes codes') (hnew : g.Holds codes' new)
    (hwon : ∀ codeHash, g.Won codeHash new →
      g.Won codeHash old ∨ ∀ stored, codes codeHash ≠ some ⟨stored, true⟩)
    (hspent : ∀ codeHash stored, codes' codeHash = some ⟨stored, true⟩ →
      codes codeHash = some ⟨stored, true⟩ ∨ g.Tried codeHash stored new)
    (htried : ∀ codeHash stored, g.Tried codeHash stored old → g.Tried codeHash stored new) :
    g.Sound codes' (update attempts i new) := by
  have hfirst : ∀ codeHash, g.Won codeHash new → ∀ j, g.Won codeHash (attempts j) → j = i := by
    intro codeHash hw j hj
    rcases hwon codeHash hw with hold | hfresh
    · exact h.single j i codeHash hj (hst.symm ▸ hold)
    · have hheld := h.holds j
      cases hstage : attempts j <;> rw [hstage] at hj hheld
      case minting => exact (hfresh _ (hj ▸ hheld.1)).elim
      case redeemed => exact (hfresh _ (hj ▸ hheld.1)).elim
      all_goals exact hj.elim
  refine ⟨fun j => ?_, fun j k codeHash hj hk => ?_, fun codeHash stored hrow => ?_⟩
  · rcases eq_or_ne j i with rfl | hne
    · rwa [update_self]
    · rw [update_of_ne hne]
      exact hgrows.holds (h.holds j)
  · rcases eq_or_ne j i with rfl | hji <;> rcases eq_or_ne k j with rfl | hkj
    · rfl
    · rw [update_self] at hj
      rw [update_of_ne hkj] at hk
      exact (hfirst codeHash hj k hk).symm
    · rfl
    · rw [update_of_ne hji] at hj
      rcases eq_or_ne k i with rfl | hki
      · rw [update_self] at hk
        exact hfirst codeHash hk j hj
      · rw [update_of_ne hki] at hk
        exact h.single j k codeHash hj hk
  · rcases hspent codeHash stored hrow with hold | hnew
    · obtain ⟨j, hj⟩ := h.tried codeHash stored hold
      rcases eq_or_ne j i with rfl | hne
      · exact ⟨j, by rw [update_self]; exact htried codeHash stored (hst ▸ hj)⟩
      · exact ⟨j, by rwa [update_of_ne hne]⟩
    · exact ⟨i, by rwa [update_self]⟩

/-- A step that leaves the store alone. -/
theorem Sound.pass (hnew : g.Holds codes new)
    (hwon : ∀ codeHash, g.Won codeHash new → g.Won codeHash old)
    (htried : ∀ codeHash stored, g.Tried codeHash stored old → g.Tried codeHash stored new) :
    g.Sound codes (update attempts i new) :=
  h.step hst (Grows.refl codes) hnew (fun codeHash hw => .inl (hwon codeHash hw))
    (fun _ _ => .inl) htried

theorem Sound.consume {stored : Code} {b : Bool} (hrow : codes codeHash = some ⟨stored, b⟩)
    (hnew : g.Holds (consumeCode codes codeHash) new) (htried : g.Tried codeHash stored new)
    (hwon : ∀ h, g.Won h new → h = codeHash ∧ b = false) (hold : ∀ h c, ¬ g.Tried h c old) :
    g.Sound (consumeCode codes codeHash) (update attempts i new) := by
  refine h.step hst (Grows.consume codes codeHash) hnew (fun codeHash' hw => .inr ?_)
    (fun codeHash' c hc => ?_) fun codeHash' c hc => (hold codeHash' c hc).elim
  · obtain ⟨rfl, rfl⟩ := hwon codeHash' hw
    intro c hc
    cases hrow.symm.trans hc
  · rcases eq_or_ne codeHash' codeHash with rfl | hne
    · rw [consumeCode_self hrow] at hc
      cases hc
      exact .inr htried
    · exact .inl ((consumeCode_of_ne hne).symm.trans hc)

end

theorem Sound.proceed (h : g.Sound codes attempts) (o : Outside) :
    g.Sound (g.proceed codes o (attempts i)).1
      (update attempts i (g.proceed codes o (attempts i)).2) := by
  have hi := h.holds i
  obtain ⟨old, hst⟩ : ∃ old, attempts i = old := ⟨_, rfl⟩
  rw [hst] at hi ⊢
  unfold Grant.proceed
  split
  next req =>
    split
    · exact h.pass hst trivial (fun _ => id) fun _ _ => id
    · exact h.pass hst trivial (fun _ => id) fun _ _ => id
    next row _ hrow => exact h.pass hst ⟨row.consumed, hrow⟩ (fun _ => id) fun _ _ => id
  next req stored =>
    split
    · exact h.pass hst trivial (fun _ => id) fun _ _ => id
    next hcheck =>
      exact h.pass hst ⟨hi, g.check_eq_none.mp hcheck⟩ (fun _ => id) fun _ _ => id
  next req stored now =>
    obtain ⟨⟨b, hrow⟩, hmatches⟩ := hi
    dsimp only
    split
    next e applied _ =>
      cases applied
      · exact h.pass hst trivial (fun _ => id) fun _ _ => False.elim
      · exact h.consume hst hrow trivial ⟨rfl, rfl, hmatches⟩ (fun _ => False.elim) fun _ _ => id
    next c _ hrow' =>
      cases hrow.symm.trans hrow'
      exact h.consume hst hrow ⟨consumeCode_self hrow, hmatches⟩ ⟨rfl, rfl, hmatches⟩
        (fun _ hw => ⟨hw.symm, rfl⟩) fun _ _ => id
    · exact h.pass hst trivial (fun _ => id) fun _ _ => False.elim
  next req stored now =>
    split
    · exact h.pass hst trivial (fun _ => False.elim) fun _ _ => id
    · exact h.pass hst hi (fun _ => id) fun _ _ => id
  · exact h.pass hst hi (fun _ => id) fun _ _ => id

theorem Sound.act {w : World ι} (h : g.Sound w.codes w.attempts) (action : Action ι) :
    g.Sound (g.act w action).codes (g.act w action).attempts := by
  cases action with
  | issue code cg now =>
    refine ⟨fun i => ?_, h.single, fun codeHash stored hrow => h.tried codeHash stored ?_⟩
    · refine Grows.holds (fun codeHash stored b hrow => ?_) (h.holds i)
      dsimp only [Grant.act]
      rcases eq_or_ne codeHash (g.hashCode code) with rfl | hne
      · exact ⟨b, by rw [update_self, hrow]; rfl, id⟩
      · exact ⟨b, by rw [update_of_ne hne, hrow], id⟩
    · dsimp only [Grant.act] at hrow
      rcases eq_or_ne codeHash (g.hashCode code) with rfl | hne
      · rw [update_self] at hrow
        cases hcode : w.codes (g.hashCode code) with
        | none => rw [hcode] at hrow; cases hrow
        | some row => rw [hcode] at hrow; exact hrow
      · rwa [update_of_ne hne] at hrow
  | begins i req =>
    unfold Grant.act
    dsimp only
    split
    next hst => exact h.pass hst trivial (fun _ => id) fun _ _ => id
    · exact h
  | proceeds i o => exact h.proceed o

/-- One token at most for a code, by an attempt that matches what is stored. Where no other attempt
got past the checks, an attempt that does consumes the code, and alone it gets its token. -/
theorem code_redeemed_once (actions : List (Action ι)) :
    let w := g.run actions
    (∀ i j req req' stored stored' now now' token token' ttl ttl',
      w.attempts i = .redeemed req stored now token ttl →
      w.attempts j = .redeemed req' stored' now' token' ttl' →
      g.hashCode req.code = g.hashCode req'.code → i = j) ∧
    (∀ i req stored now token ttl, w.attempts i = .redeemed req stored now token ttl →
      w.codes (g.hashCode req.code) = some ⟨stored, true⟩ ∧ req.clientID = stored.clientID ∧
      req.redirectURI = stored.redirectURI ∧
      g.sha256b64url req.verifier = stored.pkceChallenge ∧ now ≤ stored.expiresAt) ∧
    (∀ i req stored now o, w.attempts i = .consuming req stored now → o.fault = none →
      (∀ j, ¬ g.Tried (g.hashCode req.code) stored (w.attempts j)) →
      (g.act w (.proceeds i o)).attempts i = .minting req stored now) ∧
    ∀ i req row now token, w.codes (g.hashCode req.code) = some row → w.attempts i = .idle →
      (∀ j, ¬ g.Tried (g.hashCode req.code) row.code (w.attempts j)) →
      g.Matches req row.code now →
      let o : Outside := { now := now, minted := .ok token }
      ([.begins i req, .proceeds i o, .proceeds i o, .proceeds i o, .proceeds i o].foldl
        g.act w).attempts i = .redeemed req row.code now token g.tokenTTL := by
  intro w
  have h : g.Sound w.codes w.attempts := by
    have hrun : ∀ w : World ι, g.Sound w.codes w.attempts →
        g.Sound (actions.foldl g.act w).codes (actions.foldl g.act w).attempts := by
      induction actions with
      | nil => exact fun w h => h
      | cons action actions ih => exact fun w h => ih _ (h.act action)
    exact hrun {} ⟨fun _ => trivial, fun _ _ _ hw => hw.elim, fun _ _ hrow => (by cases hrow)⟩
  have hfresh : ∀ {codeHash row}, w.codes codeHash = some row →
      (∀ j, ¬ g.Tried codeHash row.code (w.attempts j)) →
      w.codes codeHash = some ⟨row.code, false⟩ := by
    rintro codeHash ⟨c, b⟩ hrow hnone
    cases b with
    | false => exact hrow
    | true =>
      obtain ⟨j, hj⟩ := h.tried codeHash c hrow
      exact (hnone j hj).elim
  refine ⟨fun i j req req' stored stored' now now' token token' ttl ttl' hi hj hcode => ?_,
    fun i req stored now token ttl hi => ?_, fun i req stored now o hi ho hnone => ?_,
    fun i req row now token hrow hi hnone hmatches => ?_⟩
  · exact h.single i j (g.hashCode req.code) (hi ▸ rfl) (hj ▸ hcode.symm)
  · have hheld := h.holds i
    rw [hi] at hheld
    obtain ⟨hrow, hclient, hredirect, hpkce, htime⟩ := hheld
    exact ⟨hrow, hclient, hredirect, hpkce, htime⟩
  · have hheld := h.holds i
    rw [hi] at hheld
    obtain ⟨⟨b, hrow⟩, -⟩ := hheld
    simp [Grant.act, Grant.proceed, hi, ho, hfresh hrow hnone]
  · simp [Grant.act, Grant.proceed, hi, hfresh hrow hnone, g.check_eq_none.mpr hmatches]

def plainGrant : Grant := ⟨id, 60, 3600⟩

def redeemWith (i : Bool) (verifier : String) : List (Action Bool) :=
  .begins i ⟨"code", verifier, "client", "uri"⟩ ::
    List.replicate 4 (.proceeds i { now := 60, minted := .ok "token" })

/-- A wrong verifier is refused, the right one still gets the token at the last instant. -/
theorem code_redeemed_once_after_mismatch :
    let w := plainGrant.run (.issue "code" ⟨"client", "uri", "", "secret", "alice"⟩ 0 ::
      redeemWith false "guess" ++ redeemWith true "secret")
    w.attempts false = .refused ⟨"code", "guess", "client", "uri"⟩
      (.invalidGrant "PKCE verification failed") ∧
    (∃ req stored, w.attempts true = .redeemed req stored 60 "token" 3600 ∧
      w.codes "code" = some ⟨stored, true⟩ ∧ req.verifier = stored.pkceChallenge ∧
      60 ≤ stored.expiresAt) ∧
    ∀ i req stored now token ttl, w.attempts i = .redeemed req stored now token ttl →
      req.code = "code" → i = true := by
  intro w
  have hall := code_redeemed_once (g := plainGrant) (.issue "code" ⟨"client", "uri", "", "secret",
    "alice"⟩ 0 :: redeemWith false "guess" ++ redeemWith true "secret")
  have htrue : w.attempts true = .redeemed ⟨"code", "secret", "client", "uri"⟩
      ⟨"client", "uri", "secret", "alice", 60⟩ 60 "token" 3600 := by decide +kernel
  obtain ⟨hrow, -, -, hpkce, htime⟩ := hall.2.1 true _ _ _ _ _ htrue
  refine ⟨by decide +kernel, ⟨_, _, htrue, hrow, hpkce, htime⟩, ?_⟩
  exact fun i req stored now token ttl hi hcode =>
    hall.1 i true _ _ _ _ _ _ _ _ _ _ hi htrue hcode

end Grant

end Ramp.OAuth
