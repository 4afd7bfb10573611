import Ramp.OAuth.Redemption

/-! The consent screen. What the developer has to decide travels in a sealed cookie; the server
keeps no record of the decisions it took. -/

namespace Ramp.OAuth

structure Pending where
  clientID : String
  clientName : String
  redirectURI : String
  clientState : String
  clientChallenge : String
  subdomain : String
  csrfToken : String
  deriving DecidableEq

structure Envelope where
  exp : Int
  purpose : String
  data : Pending
  deriving DecidableEq

/-- The encryption of cookies into values of `τ`. -/
structure Codec (τ : Type) where
  encrypt : Envelope → τ
  decrypt : τ → Option Envelope

inductive ReadError
  | noCookie
  | invalid
  | expired
  | wrongPurpose
  deriving DecidableEq

structure Form where
  csrfToken : String
  decision : String

/-- A POST: the clock, the pending cookie, the form when it parses, and what the grant service
does when it is asked for a code. -/
structure Post (τ : Type) where
  now : Int
  cookie : Option τ
  form : Option Form
  issue : Except String String

inductive Reply
  | userError (text : String)
  | redirectError (redirectURI clientState code desc : String)
  | redirectSuccess (cg : CodeGrant) (code : String)
  | failed (e : String)
  deriving DecidableEq

def pendingCookie : String := "ramp_pending"

def pendingTTL : Int := 1200

def consentApprove : String := "approve"

namespace Codec

variable {τ : Type} (c : Codec τ)

def setSealed (now : Int) (name : String) (payload : Pending) (ttl : Int) : τ :=
  c.encrypt ⟨now + ttl, name, payload⟩

def openToken (now : Int) (token : τ) : Except ReadError Envelope :=
  match c.decrypt token with
  | none => .error .invalid
  | some env => if env.exp ≤ now then .error .expired else .ok env

def readSealed (now : Int) (name : String) (cookie : Option τ) : Except ReadError Pending :=
  match cookie with
  | none => .error .noCookie
  | some token =>
    match c.openToken now token with
    | .error e => .error e
    | .ok env => if env.purpose ≠ name then .error .wrongPurpose else .ok env.data

def openPending (post : Post τ) : Except String Pending :=
  match c.readSealed post.now pendingCookie post.cookie with
  | .error _ => .error "no active sign-in session; start again"
  | .ok p => .ok p

def readPendingPOST (post : Post τ) : Except String (Pending × Form) :=
  match c.openPending post with
  | .error text => .error text
  | .ok p =>
    match post.form with
    | none => .error "malformed submission"
    | some form =>
      if form.csrfToken ≠ p.csrfToken then .error "invalid or expired form token; start again"
      else .ok (p, form)

def handleConsentPost (post : Post τ) : Reply :=
  match c.readPendingPOST post with
  | .error text => .userError text
  | .ok (p, form) =>
    if form.decision ≠ consentApprove then
      .redirectError p.redirectURI p.clientState "access_denied"
        "the developer did not approve the request"
    else
      match post.issue with
      | .error e => .failed e
      | .ok code => .redirectSuccess
          ⟨p.clientID, p.redirectURI, p.clientState, p.clientChallenge, p.subdomain⟩ code

/-- The sealed state that a POST presents. -/
def presented (post : Post τ) : Option Envelope := post.cookie.bind c.decrypt

/-- The sealed state that a POST decides, and whether a code is issued from it. -/
def decision (post : Post τ) : Option (Envelope × Bool) :=
  match c.handleConsentPost post with
  | .redirectError _ _ _ _ => (c.presented post).map (·, false)
  | .redirectSuccess _ _ => (c.presented post).map (·, true)
  | _ => none

/-- A POST that presents a sealed state together with the form token of that state. -/
def Submits (post : Post τ) (e : Envelope) : Prop :=
  c.presented post = some e ∧ ∃ form, post.form = some form ∧ form.csrfToken = e.data.csrfToken

variable {c} {post : Post τ} {e : Envelope}

theorem openPending_ok {p : Pending} (h : c.openPending post = .ok p) :
    ∃ env, c.presented post = some env ∧ env.data = p := by
  unfold openPending readSealed openToken at h
  cases hcookie : post.cookie with
  | none => simp [hcookie] at h
  | some token =>
    cases henv : c.decrypt token with
    | none => simp [hcookie, henv] at h
    | some env =>
      refine ⟨env, by simp [presented, hcookie, henv], ?_⟩
      simp only [hcookie, henv] at h
      split at h <;> grind

theorem submits_of_decision {b : Bool} (h : c.decision post = some (e, b)) : c.Submits post e := by
  have hpresented : c.presented post = some e := by
    unfold decision at h
    cases hp : c.presented post with
    | none => rw [hp] at h; split at h <;> cases h
    | some env => rw [hp] at h; split at h <;> cases h <;> rfl
  refine ⟨hpresented, ?_⟩
  unfold decision handleConsentPost readPendingPOST at h
  cases hp : c.openPending post with
  | error text => simp [hp] at h
  | ok p =>
    obtain ⟨env, henv, rfl⟩ := openPending_ok hp
    obtain rfl := Option.some.inj (henv.symm.trans hpresented)
    cases hform : post.form with
    | none => simp [hp, hform] at h
    | some form =>
      by_cases htoken : form.csrfToken = env.data.csrfToken
      · exact ⟨form, rfl, htoken⟩
      · simp [hp, hform, htoken] at h

/-- Where no POST presents a state that an earlier one submitted, no state is decided twice: one
code at most is issued from it, and none after a denial. -/
theorem consent_single_use {posts : List (Post τ)}
    (hcleared : posts.Pairwise fun p q => ∀ e, c.Submits p e → c.presented q ≠ some e) :
    posts.Pairwise fun p q => ∀ e b b', c.decision p = some (e, b) →
      c.decision q ≠ some (e, b') := by
  refine hcleared.imp fun {p q} hpq e b b' hp hq => ?_
  exact hpq e (submits_of_decision hp) (submits_of_decision hq).1

def plain : Codec Envelope := ⟨id, some⟩

/-- The cookie that the callback sets at the instant 0. -/
def callbackCookie (csrf : String) : Envelope :=
  plain.setSealed 0 pendingCookie
    ⟨"client", "App", "https://app/cb", "xyz", "challenge", "dev", csrf⟩ pendingTTL

def consentPost (now : Int) (csrf decision code : String) : Post Envelope :=
  ⟨now, some (callbackCookie csrf), some ⟨csrf, decision⟩, .ok code⟩

theorem consent_single_use_two_developers :
    [consentPost 60 "s" "deny" "a", consentPost 61 "t" "approve" "b"].Pairwise
      fun p q => ∀ e b b', plain.decision p = some (e, b) → plain.decision q ≠ some (e, b') := by
  refine consent_single_use (List.pairwise_pair.mpr fun e hp hq => ?_)
  exact absurd (hp.1.trans hq.symm) (by decide)

theorem pending_state_decided_again :
    plain.decision (consentPost 60 "s" "deny" "a") = some (callbackCookie "s", false) ∧
      plain.decision (consentPost 61 "s" "approve" "b") = some (callbackCookie "s", true) ∧
      plain.decision (consentPost 62 "s" "approve" "c") = some (callbackCookie "s", true) := by
  decide

end Codec

end Ramp.OAuth
