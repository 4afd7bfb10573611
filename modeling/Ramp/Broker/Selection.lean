import Mathlib.Data.List.DropRight
import Mathlib.Data.List.Sort
import Mathlib.Data.Rat.Defs
import Mathlib.Data.String.Basic
import Ramp.Data.Table
import Ramp.Program.Basic

/-! The registry of exchanges that the Broker may deal with, the offers that were discovered, and
how the Broker ranks them. -/

namespace Ramp.Broker

inductive Kind
  | unknown
  | invalidArgument
  | notFound
  | unauthenticated
  | permissionDenied
  | budgetExhausted
  | upstreamUnavailable
  | upstreamRejected
  | internal
  deriving DecidableEq

structure Error where
  kind : Kind
  message : String
  cause : Option String := none
  metadata : List (String × String) := []

def newf (kind : Kind) (message : String) : Error := { kind, message }

def wrapf (kind : Kind) (cause message : String) : Error := { kind, message, cause := some cause }

def Error.withMeta (e : Error) (key value : String) : Error :=
  { e with metadata := e.metadata ++ [(key, value)] }

def Error.withField (e : Error) (name : String) : Error := e.withMeta "field" name

inductive TrustLevel
  | discovered
  | verified
  | preferred
  | blocked
  deriving DecidableEq

structure Exchange where
  domain : String
  endpoint : String
  trustLevel : TrustLevel
  healthy : Bool
  priority : Int

inductive Admission
  | blocked
  | down
  | live
  deriving DecidableEq

def Exchange.admission (e : Exchange) : Admission :=
  if e.trustLevel = .blocked then .blocked
  else if ¬ e.healthy then .down
  else .live

def canonicalEndpoint (endpoint : String) : String :=
  String.ofList (endpoint.toList.rdropWhile (· = '/'))

structure ExchangeRow where
  endpoint : String
  trustLevel : TrustLevel
  healthy : Bool
  priority : Int
  deriving DecidableEq

inductive FindReply
  | found (row : ExchangeRow)
  | notFound
  | failed (text : String)
  deriving DecidableEq

def ExchangeRow.exchange (row : ExchangeRow) (domain : String) : Exchange :=
  { domain, endpoint := row.endpoint, trustLevel := row.trustLevel, healthy := row.healthy,
    priority := row.priority }

/-- What reading an exchange's own manifest ends with. A verdict is a failure that no later
attempt changes. -/
inductive EndpointReply
  | resolved (endpoint : String)
  | verdict (text : String)
  | failed (text : String)
  deriving DecidableEq

end Ramp.Broker

namespace Ramp.Broker.Discovery

structure Identity where
  canonicalURL : Option String := none
  doi : Option String := none
  iptcGUID : Option String := none
  contentHash : Option String := none
  deriving DecidableEq

structure Pricing where
  rate : String
  unitCost : Option String
  estimatedQuantity : Int
  deriving DecidableEq

structure Offer where
  offerID : String
  pricing : Option Pricing
  identity : Option Identity := none
  deriving DecidableEq

structure ExchangeRef where
  domain : String
  endpoint : String
  trust : TrustLevel
  priority : Int
  deriving DecidableEq

structure Candidate where
  offer : Offer
  exchange : ExchangeRef
  deriving DecidableEq

def exchangeRefOf (ex : Exchange) : ExchangeRef :=
  { domain := ex.domain, endpoint := ex.endpoint, trust := ex.trustLevel, priority := ex.priority }

def trustWeight : TrustLevel → Int
  | .preferred => 3
  | .verified => 2
  | .discovered => 1
  | .blocked => -1

def nonEmpty? (s : Option String) : Option String := s.filter (· ≠ "")

def identityKey (o : Offer) : String :=
  let ident := o.identity.getD {}
  match nonEmpty? ident.canonicalURL with
  | some v => "url:" ++ v
  | none =>
    match nonEmpty? ident.doi with
    | some v => "doi:" ++ v
    | none =>
      match nonEmpty? ident.iptcGUID with
      | some v => "iptc:" ++ v
      | none =>
        match nonEmpty? ident.contentHash with
        | some v => "hash:" ++ v
        | none => "offer:" ++ o.offerID

def wrap64 (x : Int) : Int := x.bmod (2 ^ 64)

/-- What the discovery is wired with. `iterate` is the order in which a Go map is visited,
which the language leaves open. -/
structure Resolver where
  parseMoney : String → Except String ℚ
  domainOf : String → Except String String
  isBareDomain : String → Bool
  quote : String → String
  protocolVersion : String
  iterate : (α : Type) → List α → List α
  iterate_perm : ∀ (α : Type) (l : List α), (iterate α l).Perm l

variable {cands : List Candidate} {c : Candidate}

namespace Resolver

variable (r : Resolver)

def parseMoneyOrZero (s : String) : ℚ :=
  match r.parseMoney s with
  | .ok d => d
  | .error _ => 0

def offerCharge (o : Offer) : ℚ :=
  match o.pricing with
  | none => 0
  | some p =>
    match p.unitCost with
    | some uc => r.parseMoneyOrZero uc
    | none => r.parseMoneyOrZero p.rate

def costFixed (o : Offer) : Int :=
  let qty := (o.pricing.map Pricing.estimatedQuantity).getD 0
  let total := r.offerCharge o * ((if qty < 1 then 1 else qty : Int) : ℚ) * 100000000
  wrap64 (total.num.tdiv total.den)

def keepCheaper (best : Table String Candidate) (c : Candidate) : Table String Candidate :=
  match best.get? (identityKey c.offer) with
  | none => best.insert (identityKey c.offer) c
  | some existing =>
    if r.offerCharge c.offer < r.offerCharge existing.offer then
      best.insert (identityKey c.offer) c
    else best

def dedup (cands : List Candidate) : List Candidate :=
  r.iterate Candidate ((cands.foldl r.keepCheaper ∅).entries.map fun e => e.2)

def less (a b : Candidate) : Bool :=
  let ta := trustWeight a.exchange.trust
  let tb := trustWeight b.exchange.trust
  if ta ≠ tb then tb < ta
  else
    let ca := r.offerCharge a.offer
    let cb := r.offerCharge b.offer
    if ca ≠ cb then ca < cb
    else if a.exchange.priority ≠ b.exchange.priority then b.exchange.priority < a.exchange.priority
    else a.offer.offerID < b.offer.offerID

def rank (cands : List Candidate) : List Candidate :=
  cands.insertionSort fun a b => r.less b a = false

theorem keepCheaper_eq (best : Table String Candidate) (c : Candidate) :
    r.keepCheaper best c = best ∨ r.keepCheaper best c = best.insert (identityKey c.offer) c := by
  unfold keepCheaper
  split
  · exact .inr rfl
  · split_ifs
    · exact .inr rfl
    · exact .inl rfl

theorem keepCheaper_mem {key : String} (h : (cands.foldl r.keepCheaper ∅).get? key = some c) :
    c ∈ cands := by
  induction cands using List.reverseRecOn with
  | nil => cases h
  | append_singleton cands x ih =>
    rw [List.foldl_append, List.foldl_cons, List.foldl_nil] at h
    rcases r.keepCheaper_eq (cands.foldl r.keepCheaper ∅) x with heq | heq
    · rw [heq] at h
      exact List.mem_append_left _ (ih h)
    · rw [heq, Table.get?_insert] at h
      split_ifs at h
      · cases h
        simp
      · exact List.mem_append_left _ (ih h)

theorem mem_rank_dedup (h : c ∈ r.rank (r.dedup cands)) : c ∈ cands := by
  have hdedup : c ∈ r.dedup cands := (List.perm_insertionSort _ _).mem_iff.mp h
  obtain ⟨e, he, rfl⟩ := List.mem_map.mp ((r.iterate_perm _ _).mem_iff.mp hdedup)
  exact r.keepCheaper_mem (Table.mem_entries he)

end Resolver

end Ramp.Broker.Discovery
