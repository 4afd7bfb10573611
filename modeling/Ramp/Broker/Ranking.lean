import Mathlib.Algebra.Order.Ring.Rat
import Mathlib.Data.Prod.Lex
import Ramp.Broker.Provenance

/-! Deduplication and ranking. The order of the candidates is that of a tuple of their four
keys, so it is linear on candidates with different offer ids and the ranked list does not
depend on how the map of the best candidates is visited. -/

namespace Ramp.Broker.Discovery

variable {a b c : Candidate}

namespace Resolver

variable (r : Resolver)

def rankKey (c : Candidate) : Int ×ₗ ℚ ×ₗ Int ×ₗ String :=
  toLex (-trustWeight c.exchange.trust, toLex (r.offerCharge c.offer,
    toLex (-c.exchange.priority, c.offer.offerID)))

theorem less_iff : r.less a b = true ↔ r.rankKey a < r.rankKey b := by
  simp only [less, rankKey, Prod.Lex.toLex_lt_toLex, Int.neg_lt_neg_iff, neg_inj]
  by_cases htrust : trustWeight a.exchange.trust = trustWeight b.exchange.trust
  · by_cases hcharge : r.offerCharge a.offer = r.offerCharge b.offer
    · by_cases hpriority : a.exchange.priority = b.exchange.priority
      · simp [htrust, hcharge, hpriority]
      · simp [htrust, hcharge, hpriority]
    · simp [htrust, hcharge]
  · simp [htrust]

theorem not_less_iff : r.less b a = false ↔ r.rankKey a ≤ r.rankKey b := by
  rw [← not_lt, ← r.less_iff, Bool.not_eq_true]

theorem rankKey_offerID (h : r.rankKey a = r.rankKey b) : a.offer.offerID = b.offer.offerID := by
  simp only [rankKey, EmbeddingLike.apply_eq_iff_eq, Prod.mk.injEq] at h
  exact h.2.2.2

instance rank_total : Std.Total fun a b => r.less b a = false where
  total a b := by
    rw [r.not_less_iff, r.not_less_iff]
    exact le_total _ _

instance rank_trans : IsTrans Candidate fun a b => r.less b a = false where
  trans a b c hab hbc := by
    rw [r.not_less_iff] at hab hbc ⊢
    exact hab.trans hbc

theorem rank_sorted (l : List Candidate) :
    (r.rank l).Pairwise fun a b => r.rankKey a ≤ r.rankKey b :=
  (List.pairwise_insertionSort _ l).imp fun h => r.not_less_iff.mp h

theorem rank_perm (l : List Candidate) : (r.rank l).Perm l := List.perm_insertionSort _ l

variable {l : List Candidate}

theorem rank_head {w : Candidate} (h : (r.rank l).head? = some w) :
    w ∈ l ∧ ∀ c ∈ l, r.rankKey w ≤ r.rankKey c := by
  obtain ⟨rest, hrank⟩ := List.head?_eq_some_iff.mp h
  have hsorted := r.rank_sorted l
  have hperm := r.rank_perm l
  rw [hrank] at hsorted hperm
  refine ⟨hperm.mem_iff.mp List.mem_cons_self, fun c hc => ?_⟩
  rcases List.mem_cons.mp (hperm.mem_iff.mpr hc) with rfl | hrest
  · exact le_refl _
  · exact (List.pairwise_cons.mp hsorted).1 c hrest

theorem rank_unique {l₁ l₂ : List Candidate} (hperm : l₁.Perm l₂)
    (hids : ∀ a ∈ l₁, ∀ b ∈ l₁, a.offer.offerID = b.offer.offerID → a = b) :
    r.rank l₁ = r.rank l₂ := by
  have hmem : ∀ c, c ∈ r.rank l₂ → c ∈ l₁ := fun c hc =>
    hperm.mem_iff.mpr ((r.rank_perm l₂).mem_iff.mp hc)
  refine List.Perm.eq_of_pairwise (fun a b ha hb hab hba => ?_) (r.rank_sorted l₁)
    (r.rank_sorted l₂) ((r.rank_perm l₁).trans (hperm.trans (r.rank_perm l₂).symm))
  exact hids a ((r.rank_perm l₁).mem_iff.mp ha) b (hmem b hb)
    (r.rankKey_offerID (le_antisymm hab hba))

structure Cheapest (l : List Candidate) (best : Table String Candidate) : Prop where
  kept : ∀ key c, best.get? key = some c → identityKey c.offer = key ∧ c ∈ l ∧
    ∀ d ∈ l, identityKey d.offer = key → r.offerCharge c.offer ≤ r.offerCharge d.offer
  covers : ∀ d ∈ l, (best.get? (identityKey d.offer)).isSome

section

variable {r} {l : List Candidate} {best : Table String Candidate} {x : Candidate}

variable (h : r.Cheapest l best)
include h

theorem Cheapest.insert (hx : ∀ d ∈ l,
    identityKey d.offer = identityKey x.offer → r.offerCharge x.offer ≤ r.offerCharge d.offer) :
    r.Cheapest (l ++ [x]) (best.insert (identityKey x.offer) x) := by
  refine ⟨fun key c hget => ?_, fun d hd => ?_⟩
  · rw [Table.get?_insert] at hget
    split_ifs at hget with hkey
    · cases hget
      refine ⟨hkey.symm, by simp, fun d hd hdkey => ?_⟩
      rcases List.mem_append.mp hd with hd | hd
      · exact hx d hd (hdkey.trans hkey)
      · rw [List.mem_singleton.mp hd]
    · obtain ⟨hck, hcl, hmin⟩ := h.kept key c hget
      refine ⟨hck, List.mem_append_left _ hcl, fun d hd hdkey => ?_⟩
      rcases List.mem_append.mp hd with hd | hd
      · exact hmin d hd hdkey
      · rw [List.mem_singleton.mp hd] at hdkey
        exact absurd hdkey.symm hkey
  · rw [Table.get?_insert]
    split_ifs with hkey
    · rfl
    · rcases List.mem_append.mp hd with hd | hd
      · exact h.covers d hd
      · exact absurd (by rw [List.mem_singleton.mp hd]) hkey

theorem Cheapest.drop (hget : best.get? (identityKey x.offer) = some c)
    (hle : r.offerCharge c.offer ≤ r.offerCharge x.offer) : r.Cheapest (l ++ [x]) best := by
  refine ⟨fun key c' hget' => ?_, fun d hd => ?_⟩
  · obtain ⟨hck, hcl, hmin⟩ := h.kept key c' hget'
    refine ⟨hck, List.mem_append_left _ hcl, fun d hd hdkey => ?_⟩
    rcases List.mem_append.mp hd with hd | hd
    · exact hmin d hd hdkey
    · obtain rfl := List.mem_singleton.mp hd
      rw [← hdkey, hget] at hget'
      cases hget'
      exact hle
  · rcases List.mem_append.mp hd with hd | hd
    · exact h.covers d hd
    · rw [List.mem_singleton.mp hd, hget]
      rfl

theorem Cheapest.snoc (x : Candidate) : r.Cheapest (l ++ [x]) (r.keepCheaper best x) := by
  unfold keepCheaper
  split
  next hnone =>
    refine h.insert fun d hd hdkey => ?_
    have hsome := h.covers d hd
    rw [hdkey, hnone] at hsome
    cases hsome
  next existing hsome =>
    obtain ⟨-, -, hmin⟩ := h.kept _ _ hsome
    split_ifs with hless
    · exact h.insert fun d hd hdkey => hless.le.trans (hmin d hd hdkey)
    · exact h.drop hsome (not_lt.mp hless)

end

theorem foldl_cheapest (l : List Candidate) : r.Cheapest l (l.foldl r.keepCheaper ∅) := by
  induction l using List.reverseRecOn with
  | nil => exact ⟨fun key c h => by simp at h, fun d hd => by simp at hd⟩
  | append_singleton l x ih =>
    rw [List.foldl_append, List.foldl_cons, List.foldl_nil]
    exact ih.snoc x

theorem mem_dedup :
    c ∈ r.dedup l ↔ (l.foldl r.keepCheaper ∅).get? (identityKey c.offer) = some c := by
  rw [dedup, (r.iterate_perm _ _).mem_iff]
  constructor
  · intro hc
    obtain ⟨e, he, rfl⟩ := List.mem_map.mp hc
    have hget := Table.mem_entries he
    rw [((r.foldl_cheapest l).kept _ _ hget).1]
    exact hget
  · intro hget
    exact List.mem_map.mpr ⟨⟨_, c⟩, AList.mem_lookup_iff.mp hget, rfl⟩

theorem dedup_nodup (l : List Candidate) :
    ((r.dedup l).map fun c => identityKey c.offer).Nodup := by
  have hperm := (r.iterate_perm Candidate
    ((l.foldl r.keepCheaper ∅).entries.map fun e => e.2)).map fun c => identityKey c.offer
  refine hperm.nodup_iff.mpr ?_
  rw [List.map_map]
  have hkeys : ((l.foldl r.keepCheaper ∅).entries.map
      ((fun c => identityKey c.offer) ∘ fun e => e.2)) =
      (l.foldl r.keepCheaper ∅).entries.map Sigma.fst :=
    List.map_congr_left fun e he => ((r.foldl_cheapest l).kept _ _ (Table.mem_entries he)).1
  rw [hkeys]
  exact (l.foldl r.keepCheaper ∅).nodupKeys

/-- `out` has one candidate for each identity of the list, a cheapest one, in the order of
the ranking. -/
structure Selected (l out : List Candidate) : Prop where
  nodup : (out.map fun c => identityKey c.offer).Nodup
  identities : ∀ key, (∃ c ∈ out, identityKey c.offer = key) ↔ ∃ c ∈ l, identityKey c.offer = key
  cheapest : ∀ c ∈ out, c ∈ l ∧ ∀ d ∈ l, identityKey d.offer = identityKey c.offer →
    r.offerCharge c.offer ≤ r.offerCharge d.offer
  sorted : out.Pairwise fun a b => r.rankKey a ≤ r.rankKey b

theorem rank_dedup_selected (l : List Candidate) : r.Selected l (r.rank (r.dedup l)) where
  nodup := ((r.rank_perm _).map _).nodup_iff.mpr (r.dedup_nodup l)
  identities key := by
    have hbest := r.foldl_cheapest l
    constructor
    · rintro ⟨c, hc, rfl⟩
      exact ⟨c, r.mem_rank_dedup hc, rfl⟩
    · rintro ⟨d, hd, rfl⟩
      obtain ⟨c, hget⟩ := Option.isSome_iff_exists.mp (hbest.covers d hd)
      have hkey := (hbest.kept _ _ hget).1
      refine ⟨c, (r.rank_perm _).mem_iff.mpr (r.mem_dedup.mpr ?_), hkey⟩
      rw [hkey]
      exact hget
  cheapest c hc := by
    have hget := r.mem_dedup.mp ((r.rank_perm _).mem_iff.mp hc)
    exact ((r.foldl_cheapest l).kept _ _ hget).2
  sorted := r.rank_sorted _

theorem rank_dedup_iterate {r r' : Resolver} (hparse : r'.parseMoney = r.parseMoney)
    (hids : (l.map fun c => c.offer.offerID).Nodup) :
    r'.rank (r'.dedup l) = r.rank (r.dedup l) := by
  have hcharge : r'.offerCharge = r.offerCharge := by
    funext o
    simp only [offerCharge, parseMoneyOrZero, hparse]
  have hkeep : r'.keepCheaper = r.keepCheaper := by
    funext best c
    simp only [keepCheaper, hcharge]
  have hrank : ∀ l, r'.rank l = r.rank l := by
    intro l
    simp only [rank, less, hcharge]
  have hperm : (r'.dedup l).Perm (r.dedup l) := by
    rw [dedup, dedup, hkeep]
    exact (r'.iterate_perm _ _).trans (r.iterate_perm _ _).symm
  have hmem : ∀ c ∈ r'.dedup l, c ∈ l := fun c hc =>
    r'.mem_rank_dedup ((r'.rank_perm _).mem_iff.mpr hc)
  rw [hrank]
  refine r.rank_unique hperm fun a ha b hb hab => ?_
  exact List.inj_on_of_nodup_map hids (hmem a ha) (hmem b hb) hab

structure IsWinner (groups : List OfferGroup) (w : Candidate) : Prop where
  offered : ∃ g ∈ groups, w ∈ g.offers
  first : ∀ g ∈ groups, ∀ c ∈ g.offers, r.rankKey w ≤ r.rankKey c

section

variable {r} {groups : List OfferGroup}

theorem finalize_head {g : OfferGroup} (hg : g.offers = []) (hc : c ∈ (r.finalize g).offers) :
    ∃ w, (r.finalize g).offers.head? = some w ∧ r.rankKey w ≤ r.rankKey c := by
  unfold finalize at hc ⊢
  split_ifs at hc ⊢ with hcands
  · rw [hg] at hc
    cases hc
  · obtain ⟨w, hw⟩ : ∃ w, (r.rank (r.dedup g.cands)).head? = some w := by
      cases hrank : r.rank (r.dedup g.cands) with
      | nil =>
        rw [hrank] at hc
        cases hc
      | cons w rest => exact ⟨w, rfl⟩
    exact ⟨w, hw, (r.rank_head hw).2 c ((r.rank_perm _).mem_iff.mp hc)⟩

theorem winner_first (hgroups : ∀ g ∈ groups, g.offers = []) :
    (r.winner (groups.map r.finalize) = none ∧ ∀ g ∈ groups.map r.finalize, g.offers = []) ∨
      ∃ w, r.winner (groups.map r.finalize) = some w ∧ r.IsWinner (groups.map r.finalize) w := by
  have hhead : ∀ g ∈ groups.map r.finalize, ∀ c ∈ g.offers,
      ∃ w, g.offers.head? = some w ∧ r.rankKey w ≤ r.rankKey c := by
    intro g hg c hc
    obtain ⟨g, hmem, rfl⟩ := List.mem_map.mp hg
    exact finalize_head (hgroups g hmem) hc
  cases hwinner : r.winner (groups.map r.finalize) with
  | none =>
    refine .inl ⟨rfl, fun g hg => List.eq_nil_iff_forall_not_mem.mpr fun c hc => ?_⟩
    obtain ⟨w, hw, -⟩ := hhead g hg c hc
    have hheads : w ∈ (groups.map r.finalize).filterMap fun g => g.offers.head? :=
      List.mem_filterMap.mpr ⟨g, hg, hw⟩
    rw [← (r.rank_perm _).mem_iff, List.head?_eq_none_iff.mp hwinner] at hheads
    cases hheads
  | some w =>
    obtain ⟨hmem, hfirst⟩ := r.rank_head hwinner
    obtain ⟨g, hg, hw⟩ := List.mem_filterMap.mp hmem
    refine .inr ⟨w, rfl, ⟨g, hg, List.mem_of_mem_head? hw⟩, fun g' hg' c hc => ?_⟩
    obtain ⟨w', hw', hle⟩ := hhead g' hg' c hc
    exact (hfirst w' (List.mem_filterMap.mpr ⟨g', hg', hw'⟩)).trans hle

end

/-- Ranking the deduplicated candidates gives one cheapest candidate for each identity in
the order of the ranking, whatever order the map is visited in, and the winner of any
collected groups is first among all their candidates. -/
theorem ranking_deterministic {l : List Candidate} (hids : (l.map fun c => c.offer.offerID).Nodup) :
    r.Selected l (r.rank (r.dedup l)) ∧ (∀ r' : Resolver, r'.parseMoney = r.parseMoney →
        r'.rank (r'.dedup l) = r.rank (r.dedup l)) ∧
      ∀ groups : List OfferGroup, (∀ g ∈ groups, g.offers = []) →
        (r.winner (groups.map r.finalize) = none ∧ ∀ g ∈ groups.map r.finalize, g.offers = []) ∨
          ∃ w, r.winner (groups.map r.finalize) = some w ∧ r.IsWinner (groups.map r.finalize) w :=
  ⟨r.rank_dedup_selected l, fun _ hparse => rank_dedup_iterate hparse hids,
    fun _ hgroups => winner_first hgroups⟩

end Resolver

def threeCandidates : List Candidate :=
  [⟨⟨"o1", some ⟨"3", none, 1⟩, some { canonicalURL := some "https://a.example/1" }⟩,
      ⟨"x.example", "", .preferred, 0⟩⟩,
   ⟨⟨"o2", none, some { canonicalURL := some "https://a.example/1" }⟩,
      ⟨"y.example", "", .verified, 0⟩⟩,
   ⟨⟨"o3", some ⟨"3", none, 1⟩, none⟩, ⟨"x.example", "", .preferred, 0⟩⟩]

def threeCollected : List OfferGroup := [{ cands := threeCandidates }]

theorem ranking_deterministic_three :
    (plainResolver.rank (plainResolver.dedup threeCandidates)).map (fun c => c.offer.offerID) =
        ["o3", "o2"] ∧ plainResolver.Selected threeCandidates
        (plainResolver.rank (plainResolver.dedup threeCandidates)) ∧
      ∃ w, plainResolver.winner (threeCollected.map plainResolver.finalize) = some w ∧
        plainResolver.IsWinner (threeCollected.map plainResolver.finalize) w := by
  have hids : (threeCandidates.map fun c => c.offer.offerID).Nodup := by decide
  obtain ⟨hselected, -, hwinner⟩ := plainResolver.ranking_deterministic hids
  have hsome : plainResolver.winner (threeCollected.map plainResolver.finalize) ≠ none := by
    decide +kernel
  exact ⟨by decide +kernel, hselected,
    (hwinner threeCollected (by decide)).resolve_left fun hnone => hsome hnone.1⟩

end Ramp.Broker.Discovery
