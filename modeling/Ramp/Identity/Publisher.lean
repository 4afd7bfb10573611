import Ramp.Identity.Service

/-! Sign-up, which gives a developer an agent with a first key and a card, and the publisher of
the agent's four documents. A source that is down costs only the documents it owns, and then
nothing is cached. -/

namespace Ramp.Identity

open Prog

inductive AccountError
  | notFound
  | unavailable
  | subdomainTaken
  | alreadyExists
  | other (f : PgFault)

namespace AccountError

def ofFault (f : PgFault) : AccountError := if f.isUnavailable then .unavailable else .other f

def ofReserve (f : PgFault) : AccountError :=
  if f = .unique developerSubdomainConstraint then .subdomainTaken
  else if f = .unique developerPKConstraint then .alreadyExists
  else ofFault f

end AccountError

namespace Developers

def bySubject (issuer subject : String) : Action AccountError Developer := do
  let answer ← ask (Call.table (.getDeveloperBySubject issuer subject))
  match (answer : Except PgFault (Option Developer)) with
  | .error f => throw (.ofFault f)
  | .ok none => throw .notFound
  | .ok (some d) => pure d

def reserve (d : Developer) : Action AccountError Developer := do
  let answer ← ask (Call.table (.reserveDeveloper d))
  match (answer : Written PgFault Developer) with
  | .failed f _ => throw (.ofReserve f)
  | .done d => pure d

end Developers

namespace Cards

def upsert (subdomain : String) (card : Card) : Action PgFault Card := do
  let answer ← ask (Call.table (.upsertCard subdomain card))
  match (answer : Written PgFault Card) with
  | .failed f _ => throw f
  | .done card => pure card

end Cards

structure Claims where
  issuer : String
  subject : String
  email : String
  name : String

inductive SignUpError
  | account (e : AccountError)
  | mintSlug
  | slugExhausted
  | keys (e : KeyError)
  | card (f : PgFault)

namespace SignUp

structure Config where
  baseDomain : String
  keyLifetime : ℤ

def defaultKeyLifetime : ℤ := 365 * 24 * hour

def maxSlugAttempts : ℕ := 8

def new (cfg : Config) : Option Config :=
  if cfg.baseDomain = "" then none
  else some { cfg with
    keyLifetime := if cfg.keyLifetime ≤ 0 then defaultKeyLifetime else cfg.keyLifetime }

def localPart (email : String) : String :=
  let before := email.toList.takeWhile (· ≠ '@')
  if '@' ∈ email.toList ∧ before ≠ [] then String.ofList before else email

def displayName (claims : Claims) (subdomain : String) : String :=
  if claims.name ≠ "" then claims.name
  else if claims.email ≠ "" then localPart claims.email
  else subdomain

def cardFromClaims (subdomain : String) (claims : Claims) : Card where
  clientName := displayName claims subdomain
  clientURI := "https://" ++ subdomain
  contacts := if claims.email ≠ "" then ["mailto:" ++ claims.email] else []
  purpose := ""

variable (cfg : Config)

/-- Proposes subdomains until one is free, at most as often as attempts are left. A row of
this identity that was inserted meanwhile wins. -/
def reserve (claims : Claims) : ℕ → Action SignUpError Developer
  | 0 => throw .slugExhausted
  | attempts + 1 => do
    let slug ← ask Call.newSlug
    match (slug : Option String) with
    | none => throw .mintSlug
    | some slug => do
      let made ← attempt (rethrow SignUpError.account (Developers.reserve
        ⟨claims.issuer, claims.subject, claims.email, slug ++ "." ++ cfg.baseDomain⟩))
      match made with
      | .ok dev => pure dev
      | .error (.account .subdomainTaken) => reserve claims attempts
      | .error (.account .alreadyExists) =>
        rethrow SignUpError.account (Developers.bySubject claims.issuer claims.subject)
      | .error e => throw e

def resolveOrReserve (claims : Claims) : Action SignUpError Developer := do
  let found ← attempt (rethrow SignUpError.account
    (Developers.bySubject claims.issuer claims.subject))
  match found with
  | .ok dev => pure dev
  | .error (.account .notFound) => reserve cfg claims maxSlugAttempts
  | .error e => throw e

def ensureKey (subdomain : String) : Action SignUpError Unit := do
  match ← rethrow SignUpError.keys (KeyStore.list subdomain) with
  | _ :: _ => pure ()
  | [] => do
    let now : ℤ ← ask Call.now
    let _ ← rethrow SignUpError.keys
      (KeyStore.create subdomain ⟨now, now + cfg.keyLifetime⟩)
    pure ()

def ensureCard (subdomain : String) (claims : Claims) : Action SignUpError Unit := do
  let _ ← rethrow SignUpError.card (Cards.upsert subdomain (cardFromClaims subdomain claims))
  pure ()

def signIn (claims : Claims) : Action SignUpError String := do
  let dev ← resolveOrReserve cfg claims
  ensureKey cfg dev.subdomain
  ensureCard dev.subdomain claims
  ExceptT.lift (invalidate dev.subdomain)
  pure dev.subdomain

end SignUp

namespace Developers

def bySubdomain (subdomain : String) : Action AccountError Developer := do
  let answer ← ask (Call.table (.getDeveloperBySubdomain subdomain))
  match (answer : Except PgFault (Option Developer)) with
  | .error f => throw (.ofFault f)
  | .ok none => throw .notFound
  | .ok (some d) => pure d

end Developers

inductive CardError
  | notFound
  | unavailable
  | other (f : PgFault)

namespace Cards

def bySubdomain (subdomain : String) : Action CardError Card := do
  let answer ← ask (Call.table (.getCard subdomain))
  match (answer : Except PgFault (Option Card)) with
  | .error f => throw (if f.isUnavailable then .unavailable else .other f)
  | .ok none => throw .notFound
  | .ok (some card) => pure card

end Cards

/-- The published schemas, which a directory and a revocation list must pass, and the
overlay that the shared library makes for an agent's domain. -/
structure Schemas where
  wba : Directory → Bool
  revocation : RevocationList → Bool
  manifest : String → Option String

namespace Publisher

structure Config where
  scheme : String
  ttl : ℤ
  negativeTTL : ℤ
  schemas : Schemas

def defaultTTL : ℤ := 300000000000

def defaultNegativeTTL : ℤ := 30000000000

def new (cfg : Config) : Config where
  scheme := if cfg.scheme = "" then "https" else cfg.scheme
  ttl := if cfg.ttl ≤ 0 then defaultTTL else cfg.ttl
  negativeTTL := if cfg.negativeTTL ≤ 0 then defaultNegativeTTL else cfg.negativeTTL
  schemas := cfg.schemas

def maxDirectoryKeys : ℕ := 64

def activeKeys (now : ℤ) (keys : List Key) : List Key :=
  (keys.filter fun k => k.window.Covers now).take maxDirectoryKeys

def earliestNotAfter : List Key → Option ℤ
  | [] => none
  | k :: rest =>
    some (rest.foldl (fun t k => if k.window.notAfter < t then k.window.notAfter else t)
      k.window.notAfter)

def revocationPath : String := "/.well-known/ramp-key-revocations.json"

def revocationURL (scheme host : String) : Option String :=
  if host = "" then none else some (scheme ++ "://" ++ host ++ revocationPath)

def distinctKeys : List Key → List String → List Key
  | [], _ => []
  | k :: rest, seen =>
    if k.publicKey ∈ seen then distinctKeys rest seen
    else k :: distinctKeys rest (k.publicKey :: seen)

def buildDirectory (schemas : Schemas) (keys : List Key) (url : String) : Option Directory :=
  let doc : Directory := ⟨distinctKeys keys [], url⟩
  if keys.isEmpty then none else if schemas.wba doc then some doc else none

variable (cfg : Config) (subdomain : String)

def buildWBA (ds : DocSet) : Action BuildError DocSet := do
  match ← attempt (rethrow BuildError.keys (KeyStore.list subdomain)) with
  | .ok keys => do
    let now : ℤ ← ask Call.now
    let active := activeKeys now keys
    if active.isEmpty then pure ds
    else
      match revocationURL cfg.scheme subdomain with
      | none => throw .revocationURL
      | some url =>
        match buildDirectory cfg.schemas active url with
        | none => throw .directory
        | some wba => pure { ds with wba := some wba, keyExpiry := earliestNotAfter active }
  | .error (.keys .notFound) | .error (.keys .invalidSubdomain) => pure ds
  | .error (.keys .unavailable) | .error (.keys .permissionDenied) =>
    pure { ds with wbaUnavail := true }
  | .error e => throw e

def buildCard (ds : DocSet) : Action BuildError DocSet := do
  match ← ExceptT.lift (Cards.bySubdomain subdomain).run with
  | .ok card => pure { ds with card := some card }
  | .error .notFound => pure ds
  | .error .unavailable => pure { ds with cardUnavail := true }
  | .error (.other f) => throw (.store f)

def buildRevocation (ds : DocSet) : Action BuildError DocSet := do
  match ← ExceptT.lift (Revocations.bySubdomain subdomain).run with
  | .error .unavailable => pure { ds with revUnavail := true }
  | .error (.other f) => throw (.store f)
  | .ok row =>
    if ds.wba.isNone ∧ row.asOf = 0 ∧ row.revoked = [] then pure ds
    else if cfg.schemas.revocation row then pure { ds with revocation := some row }
    else throw .revocation

def buildManifest (ds : DocSet) : Action BuildError DocSet := do
  match ← ExceptT.lift (Developers.bySubdomain subdomain).run with
  | .ok _ =>
    match cfg.schemas.manifest subdomain with
    | none => throw .manifest
    | some raw => pure { ds with manifest := some raw }
  | .error .notFound => pure ds
  | .error .unavailable => pure { ds with manifestUnavail := true }
  | .error (.other f) => throw (.store f)
  | .error .subdomainTaken | .error .alreadyExists => throw .manifest

def build (flight : ℕ) : Action BuildError DocSet := do
  let ds ← buildWBA cfg subdomain (.none flight)
  let ds ← buildCard subdomain ds
  let ds ← buildRevocation cfg subdomain ds
  buildManifest cfg subdomain ds

def loadPositive : Program (Option DocSet) := do
  let e ← perform (Call.cache (.loadPositive subdomain))
  match (e : Option Entry) with
  | none => pure none
  | some e => do
    let now : ℤ ← perform Call.now
    if now < e.expires then pure (some e.docs) else pure none

def expiry (now : ℤ) (docs : DocSet) : ℤ :=
  match docs.keyExpiry with
  | none => now + cfg.ttl
  | some t => if t < now + cfg.ttl then t else now + cfg.ttl

def lead (flight : ℕ) : Program Built := do
  match ← loadPositive subdomain with
  | some docs => pure (.ok docs)
  | none => do
    let absence ← perform (Call.cache (.hasNegative subdomain))
    match (absence : Option Absence) with
    | some a => pure (.ok (.none a.flight))
    | none => do
      let gen : ℕ ← perform (Call.cache (.readGen subdomain))
      match ← (build cfg subdomain flight).run with
      | .error e => pure (.error e)
      | .ok docs => do
        let now : ℤ ← perform Call.now
        let _ ← perform (Call.cache
          (.store subdomain docs gen (expiry cfg now docs) (now + cfg.negativeTTL)))
        pure (.ok docs)

def get : Program Built :=
  if validSubdomain subdomain then do
    match ← loadPositive subdomain with
    | some docs => pure (.ok docs)
    | none => do
      let absence ← perform (Call.cache (.hasNegative subdomain))
      match (absence : Option Absence) with
      | some a => pure (.ok (.none a.flight))
      | none => do
        let seat ← perform (Call.cache (.enter subdomain))
        match (seat : Seat) with
        | .follower flight => perform (Call.cache (.await flight))
        | .leader flight => do
          let built ← lead cfg subdomain flight
          let _ ← perform (Call.cache (.leave subdomain flight built))
          pure built
  else pure (.ok (.none 0))

end Publisher

inductive Document
  | directory (d : Directory)
  | card (c : Card)
  | revocation (l : RevocationList)
  | manifest (raw : String)
  deriving DecidableEq

inductive PublishError
  | absent
  | unavailable
  | failed (e : BuildError)
  deriving DecidableEq

inductive Route
  | directory
  | card
  | revocation
  | manifest
  deriving DecidableEq

namespace Publisher

def select (docs : DocSet) : Route → Option Document × Bool
  | .directory => (docs.wba.map .directory, docs.wbaUnavail)
  | .card => (docs.card.map .card, docs.cardUnavail)
  | .revocation => (docs.revocation.map .revocation, docs.revUnavail)
  | .manifest => (docs.manifest.map .manifest, docs.manifestUnavail)

def pick (route : Route) : Built → Except PublishError Document
  | .error e => .error (.failed e)
  | .ok docs =>
    match select docs route with
    | (some body, _) => .ok body
    | (none, true) => .error .unavailable
    | (none, false) => .error .absent

def serve (cfg : Config) (route : Route) (subdomain : String) :
    Program (Except PublishError Document) := do
  let built ← get cfg subdomain
  pure (pick route built)

end Publisher

end Ramp.Identity
