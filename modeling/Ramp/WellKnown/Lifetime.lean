import Ramp.Data.Digits
import Ramp.Data.Table
import Ramp.Data.Text

/-! The cache of publisher manifests: a fetched manifest lives for the configured time or for
the `max-age` of its response, counted in 64-bit nanoseconds. -/

namespace Ramp.WellKnown

def second : ℤ := 1000000000

def defaultCacheTTL : ℤ := 3600 * second

def defaultNegativeTTL : ℤ := 300 * second

inductive LoadError (E : Type)
  | noClient
  | noDocument (url : String)
  | fetch (url : String) (status : ℤ)
  | failed (e : E)

/-- A response with the first value of its `Cache-Control` header, empty without one. -/
structure Response (Body : Type) where
  status : ℤ
  cacheControl : List Char
  body : Body

structure DocEntry (M : Type) where
  doc : M
  expiresAt : ℤ
  deriving DecidableEq

structure Negative where
  validUntil : ℤ
  url : String

structure State (M : Type) where
  entries : Table String (DocEntry M) := ∅
  negative : Table String Negative := ∅

structure Cache (Body M E : Type) where
  client : Option (String → Except E (Response Body))
  manifestURL : String → Except E String
  parseManifest : Body → Except E M
  ttl : ℤ
  negativeTTL : ℤ

namespace Cache

variable {Body M E : Type} (c : Cache Body M E)

def new (opts : Cache Body M E) : Cache Body M E :=
  { opts with
    ttl := if opts.ttl ≤ 0 then defaultCacheTTL else opts.ttl
    negativeTTL := if opts.negativeTTL ≤ 0 then defaultNegativeTTL else opts.negativeTTL }

def maxAge : List Char := "max-age=".toList

def seconds (secs : ℤ) : ℤ := (secs * second).bmod (2 ^ 64)

def ttlOf (ttl : ℤ) : List (List Char) → ℤ
  | [] => ttl
  | part :: rest =>
    if maxAge <+: trimSpace part then
      match atoi ((trimSpace part).drop maxAge.length) with
      | .error _ => ttlOf ttl rest
      | .ok secs =>
        if 0 ≤ secs ∧ seconds secs < ttl then seconds secs else ttlOf ttl rest
    else ttlOf ttl rest

def ttlFrom (cacheControl : List Char) : ℤ := ttlOf c.ttl (cacheControl.splitOn ',')

def storePositive (s : State M) (host : String) (m : M) (now ttl : ℤ) : State M where
  entries := s.entries.insert host ⟨m, now + ttl⟩
  negative := s.negative.erase host

def storeNegative (s : State M) (host rawURL : String) (now : ℤ) : State M where
  entries := s.entries.erase host
  negative := s.negative.insert host ⟨now + c.negativeTTL, rawURL⟩

def load (host : String) (now : ℤ) (s : State M) : Except (LoadError E) M × State M :=
  match c.client with
  | none => (.error .noClient, s)
  | some httpGet =>
    match c.manifestURL host with
    | .error e => (.error (.failed e), s)
    | .ok rawURL =>
      match httpGet rawURL with
      | .error e => (.error (.failed e), s)
      | .ok r =>
        if r.status = 404 then (.error (.noDocument rawURL), c.storeNegative s host rawURL now)
        else if r.status < 200 ∨ 300 ≤ r.status then (.error (.fetch rawURL r.status), s)
        else
          match c.parseManifest r.body with
          | .error e => (.error (.failed e), s)
          | .ok m => (.ok m, storePositive s host m now (c.ttlFrom r.cacheControl))

/-- `docStore.get`: a document is served strictly before its expiry. -/
def get (s : State M) (host : String) (now : ℤ) : Option M :=
  (s.entries.get? host).bind fun e => if now < e.expiresAt then some e.doc else none

/-- Exactly one part of the header is a `max-age`, with these digits. -/
def OneMaxAge (cacheControl digits : List Char) : Prop :=
  Digits digits ∧ digits ≠ [] ∧ ∃ pre part post, cacheControl.splitOn ',' = pre ++ part :: post ∧
    trimSpace part = maxAge ++ digits ∧ ∀ other ∈ pre ++ post, ¬ maxAge <+: trimSpace other

section

variable {c} {ttl : ℤ} {parts rest : List (List Char)} {digits : List Char} {secs : ℤ}

theorem ttlOf_skip (h : ∀ part ∈ parts, ¬ maxAge <+: trimSpace part) :
    ttlOf ttl (parts ++ rest) = ttlOf ttl rest := by
  induction parts with
  | nil => rfl
  | cons part parts ih =>
    obtain ⟨hpart, hparts⟩ := List.forall_mem_cons.mp h
    rw [List.cons_append, ttlOf, if_neg hpart]
    exact ih hparts

theorem atoi_nonneg (hd : Digits digits) (hne : digits ≠ []) (h : atoi digits = .ok secs) :
    0 ≤ secs := by
  rw [atoi_digits hd hne] at h
  split at h
  · cases h
  · split_ifs at h
    cases h
    exact Int.natCast_nonneg _

theorem ttlFrom_eq {cacheControl : List Char} (hone : OneMaxAge cacheControl digits)
    (hsecs : atoi digits = .ok secs) : c.ttlFrom cacheControl = min c.ttl (seconds secs) := by
  obtain ⟨hd, hne, pre, part, post, hsplit, hpart, hothers⟩ := hone
  have hnonneg := atoi_nonneg hd hne hsecs
  have hpost : ttlOf c.ttl post = c.ttl := by
    rw [← List.append_nil post, ttlOf_skip fun part hmem =>
      hothers part (List.mem_append_right _ hmem)]
    rfl
  rw [ttlFrom, hsplit, ttlOf_skip fun part hmem => hothers part (List.mem_append_left _ hmem),
    ttlOf, hpart, if_pos (List.prefix_append _ _), List.drop_left, hsecs, hpost]
  dsimp only
  split_ifs with hlt
  · exact (min_eq_right hlt.2.le).symm
  · exact (min_eq_left (by omega)).symm

/-- The seconds fit into 63 bits of nanoseconds, or what they wrap around to is no shorter than
the configured time. -/
theorem min_seconds_iff (hnonneg : 0 ≤ secs) : min ttl (seconds secs) = min ttl (secs * second) ↔
    secs ≤ 9223372036 ∨ ttl ≤ seconds secs := by
  have hbound : seconds secs < 2 ^ 63 := by
    have hlt := Int.bmod_lt (x := secs * second) (m := 2 ^ 64) (by decide)
    unfold seconds
    omega
  have hfits : secs ≤ 9223372036 → seconds secs = secs * second := fun hsmall => by
    unfold seconds second
    exact Int.bmod_eq_of_le (by omega) (by omega)
  unfold second at hfits ⊢
  omega

theorem new_ttl_pos (opts : Cache Body M E) : 0 < (new opts).ttl := by
  unfold new
  dsimp only
  split_ifs with h
  · decide
  · omega

end

/-- A manifest that is fetched lives for the shorter one of the two times if and only if the
seconds of the response do not wrap around to less than the configured time. -/
theorem lifetime_is_min (opts : Cache Body M E) {httpGet : String → Except E (Response Body)}
    {host rawURL : String} {r : Response Body} {m : M} {digits : List Char} {secs : ℤ}
    (hclient : opts.client = some httpGet) (hurl : opts.manifestURL host = .ok rawURL)
    (hget : httpGet rawURL = .ok r) (hstatus : 200 ≤ r.status ∧ r.status < 300)
    (hparse : opts.parseManifest r.body = .ok m) (hone : OneMaxAge r.cacheControl digits)
    (hsecs : atoi digits = .ok secs) (now : ℤ) (s : State M) :
    ∃ lifetime s', (new opts).load host now s = (.ok m, s') ∧
      (∃ e, s'.entries.get? host = some e ∧ e.doc = m ∧ e.expiresAt = now + lifetime) ∧
      (lifetime = min (new opts).ttl (secs * second) ∧ 0 ≤ lifetime ↔
        secs ≤ 9223372036 ∨ (new opts).ttl ≤ seconds secs) ∧
      ∀ t, get s' host t = if t < now + lifetime then some m else none := by
  obtain ⟨hd, hne, -⟩ := id hone
  have hpos := new_ttl_pos opts
  have hnonneg := atoi_nonneg hd hne hsecs
  have hload : (new opts).load host now s =
      (.ok m, storePositive s host m now ((new opts).ttlFrom r.cacheControl)) := by
    have hnot : r.status ≠ 404 ∧ ¬ (r.status < 200 ∨ 300 ≤ r.status) := by omega
    simp only [load, new, hclient, hurl, hget, hparse, if_neg hnot.1, if_neg hnot.2]
  have hentry := Table.get?_insert s.entries host host ⟨m, now + (new opts).ttlFrom r.cacheControl⟩
  rw [if_pos rfl] at hentry
  refine ⟨_, _, hload, ⟨_, hentry, rfl, rfl⟩, ?_, fun t => ?_⟩
  · rw [ttlFrom_eq hone hsecs, ← min_seconds_iff hnonneg, and_iff_left_of_imp]
    intro hmin
    rw [hmin]
    exact le_min hpos.le (Int.mul_nonneg hnonneg (by decide))
  · rw [get, storePositive, hentry]
    rfl

def onePublisher (header : String) : Cache Unit String Unit where
  client := some fun _ => .ok ⟨200, header.toList, ()⟩
  manifestURL := .ok
  parseManifest _ := .ok "manifest"
  ttl := 0
  negativeTTL := 0

theorem lifetime_is_min_one_minute :
    ∃ s', (new (onePublisher "public, max-age=60")).load "pub.example" 7 {} = (.ok "manifest", s') ∧
      get s' "pub.example" 60000000006 = some "manifest" ∧
      get s' "pub.example" 60000000007 = none := by
  have hone : OneMaxAge "public, max-age=60".toList "60".toList := by
    refine ⟨by unfold Digits; decide +kernel, by decide, ["public".toList], " max-age=60".toList,
      [], ?_⟩
    decide +kernel
  obtain ⟨lifetime, s', hload, -, hiff, hserved⟩ := lifetime_is_min
    (onePublisher "public, max-age=60") rfl rfl rfl (by decide) rfl hone rfl 7 {}
  obtain rfl : lifetime = 60000000000 :=
    (hiff.mpr (.inl (by decide))).1.trans (by decide +kernel)
  exact ⟨s', hload, hserved _, hserved _⟩

/-- Seconds that exceed 63 bits of nanoseconds make the lifetime negative. -/
theorem lifetime_wraps :
    ((new (onePublisher "max-age=9223372037")).load "pub.example" 7 {}).2.entries.get?
        "pub.example" = some ⟨"manifest", 7 - 9223372036709551616⟩ ∧
      OneMaxAge "max-age=9223372037".toList "9223372037".toList ∧
      atoi "9223372037".toList = .ok 9223372037 := by
  refine ⟨by decide +kernel, ?_, by decide +kernel⟩
  refine ⟨by unfold Digits; decide +kernel, by decide, [], "max-age=9223372037".toList, [], ?_⟩
  decide +kernel

end Cache

end Ramp.WellKnown
