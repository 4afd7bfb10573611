import Mathlib.Algebra.BigOperators.Group.List.Lemmas
import Mathlib.Algebra.Order.BigOperators.Group.List
import Mathlib.Data.List.AList
import Mathlib.Data.List.Dedup
import Mathlib.Data.List.Forall2
import Mathlib.Data.List.Induction

/-! Finite tables with one value for each key, sums over their entries, elements collected under
their keys, and lists related element by element. -/

namespace Ramp

/-- Association lists whose value type does not depend on the key. -/
abbrev Table (α β : Type) := AList fun _ : α => β

namespace Table

variable {α β M : Type}

def sum [AddCommMonoid M] (t : Table α β) (f : α → β → M) : M :=
  (t.entries.map fun e => f e.1 e.2).sum

@[simp] theorem sum_empty [AddCommMonoid M] (f : α → β → M) : sum (∅ : Table α β) f = 0 := rfl

variable [DecidableEq α]

def get? (t : Table α β) (a : α) : Option β := t.lookup a

def insert (t : Table α β) (a : α) (b : β) : Table α β := AList.insert a b t

def erase (t : Table α β) (a : α) : Table α β := AList.erase a t

@[simp] theorem get?_empty (a : α) : get? (∅ : Table α β) a = none := rfl

theorem get?_insert (t : Table α β) (a a' : α) (b : β) :
    (t.insert a b).get? a' = if a' = a then some b else t.get? a' := by
  split_ifs with h
  · rw [h]
    exact AList.lookup_insert t
  · exact AList.lookup_insert_ne h

theorem get?_erase (t : Table α β) (a a' : α) :
    (t.erase a).get? a' = if a' = a then none else t.get? a' := by
  split_ifs with h
  · rw [h]
    exact AList.lookup_erase a t
  · exact AList.lookup_erase_ne h

theorem erase_insert_empty (a : α) (b : β) : ((∅ : Table α β).insert a b).erase a = ∅ := by
  refine AList.ext ?_
  change List.kerase a (List.kinsert (β := fun _ => β) a b []) = []
  simp [List.kinsert]

theorem mem_entries {t : Table α β} {e : Sigma fun _ : α => β} (h : e ∈ t.entries) :
    t.get? e.1 = some e.2 :=
  AList.mem_lookup_iff.mpr h

section

variable {γ : Type} {key : γ → α} {val : γ → β}

/-- The table with the values of a list written under their keys, one after the other. -/
def insertAll (key : γ → α) (val : γ → β) (t : Table α β) (l : List γ) : Table α β :=
  l.foldl (fun t x => t.insert (key x) (val x)) t

variable {l : List γ}

/-- Whatever holds of the old entries and of every written one holds of all entries. -/
theorem insertAll_forall {P : α → β → Prop} {t : Table α β}
    (ht : ∀ a b, t.get? a = some b → P a b) (hl : ∀ x ∈ l, P (key x) (val x)) {a : α} {b : β}
    (h : (insertAll key val t l).get? a = some b) : P a b := by
  induction l generalizing t with
  | nil => exact ht a b h
  | cons x l ih =>
    refine ih (t := t.insert (key x) (val x)) ?_ (fun y hy => hl y (List.mem_cons_of_mem _ hy)) h
    intro a' b' hab
    rw [get?_insert] at hab
    split_ifs at hab with ha
    · cases hab
      rw [ha]
      exact hl x List.mem_cons_self
    · exact ht a' b' hab

/-- The values of a list under their keys; of two with one key the later stands. -/
def index (key : γ → α) (val : γ → β) (l : List γ) : Table α β := insertAll key val ∅ l

theorem index_snoc (l : List γ) (x : γ) :
    index key val (l ++ [x]) = (index key val l).insert (key x) (val x) := by
  simp [index, insertAll]

theorem get?_index (key : γ → α) (val : γ → β) (l : List γ) (a : α) :
    (index key val l).get? a = (l.reverse.find? fun x => key x = a).map val := by
  induction l using List.reverseRecOn with
  | nil => rfl
  | append_singleton l x ih =>
    rw [index_snoc, get?_insert, ih, List.reverse_append, List.reverse_singleton,
      List.singleton_append, List.find?_cons]
    by_cases hx : key x = a
    · simp [hx]
    · simp [hx, Ne.symm hx]

theorem get?_index_eq_some {a : α} {b : β} (h : (index key val l).get? a = some b) :
    ∃ x ∈ l, key x = a ∧ val x = b := by
  rw [get?_index] at h
  obtain ⟨x, hx, rfl⟩ := Option.map_eq_some_iff.mp h
  exact ⟨x, List.mem_reverse.mp (List.mem_of_find?_eq_some hx), by simpa using List.find?_some hx,
    rfl⟩

theorem isSome_get?_index (key : γ → α) (val : γ → β) {x : γ} (hx : x ∈ l) :
    ((index key val l).get? (key x)).isSome = true := by
  rw [get?_index, Option.isSome_map, List.find?_isSome]
  exact ⟨x, List.mem_reverse.mpr hx, by simp⟩

theorem get?_index_of_mem (hn : (l.map key).Nodup) {x : γ} (hx : x ∈ l) :
    (index key val l).get? (key x) = some (val x) := by
  obtain ⟨b, hb⟩ := Option.isSome_iff_exists.mp (isSome_get?_index key val hx)
  obtain ⟨y, hy, hkey, rfl⟩ := get?_index_eq_some hb
  rw [hb, List.inj_on_of_nodup_map hn hy hx hkey]

end

variable [AddCommMonoid M] {t : Table α β} {a : α} {b : β}

theorem sum_insert (h : t.get? a = none) (f : α → β → M) :
    (t.insert a b).sum f = f a b + t.sum f := by
  have hmem : a ∉ t := AList.lookup_eq_none.mp h
  rw [sum, insert, AList.entries_insert_of_notMem hmem, List.map_cons, List.sum_cons]
  rfl

theorem sum_erase (h : t.get? a = some b) (f : α → β → M) :
    t.sum f = f a b + (t.erase a).sum f := by
  have hmem : a ∈ t.keys := AList.lookup_isSome.mp (Option.isSome_iff_exists.mpr ⟨b, h⟩)
  obtain ⟨b', l₁, l₂, -, hl, hk⟩ := List.exists_of_kerase hmem
  have hb : b' = b := by
    have hin : (⟨a, b'⟩ : Sigma fun _ : α => β) ∈ t.entries := by simp [hl]
    exact Option.some.inj ((mem_entries hin).symm.trans h)
  subst hb
  change (t.entries.map _).sum = f a b' + ((List.kerase a t.entries).map _).sum
  rw [hk, hl]
  simp only [List.map_append, List.map_cons, List.sum_append, List.sum_cons]
  exact add_left_comm _ _ _

theorem sum_congr {f g : α → β → M} (h : ∀ a b, t.get? a = some b → f a b = g a b) :
    t.sum f = t.sum g :=
  congrArg List.sum (List.map_congr_left fun e he => h e.1 e.2 (mem_entries he))

end Table

structure Grouping (κ α : Type) where
  order : List κ
  members : Table κ (List α)

namespace Grouping

variable {κ α : Type} [DecidableEq κ] {key : α → κ} {l : List α} {g : Grouping κ α}

def empty : Grouping κ α := ⟨[], ∅⟩

def membersOf (g : Grouping κ α) (k : κ) : List α := (g.members.get? k).getD []

def add (g : Grouping κ α) (k : κ) (x : α) : Grouping κ α where
  order := if (g.members.get? k).isSome then g.order else g.order ++ [k]
  members := g.members.insert k (g.membersOf k ++ [x])

/-- The grouping holds the elements of the list, each under its key. -/
structure Of (key : α → κ) (l : List α) (g : Grouping κ α) : Prop where
  nodup : g.order.Nodup
  isSome_iff : ∀ k, (g.members.get? k).isSome ↔ k ∈ g.order
  mem_order : ∀ k, k ∈ g.order ↔ k ∈ l.map key
  membersOf_eq : ∀ k, g.membersOf k = l.filter fun x => key x = k

theorem Of.empty : Of key [] (empty : Grouping κ α) where
  nodup := List.nodup_nil
  isSome_iff k := by simp [Grouping.empty]
  mem_order k := by simp [Grouping.empty]
  membersOf_eq k := rfl

theorem membersOf_add (k k' : κ) (x : α) :
    (g.add k x).membersOf k' = g.membersOf k' ++ if k' = k then [x] else [] := by
  unfold membersOf add
  rw [Table.get?_insert]
  split_ifs with h
  · subst h
    rfl
  · simp

theorem Of.mem_order_add (h : Of key l g) (k k' : κ) (x : α) :
    k' ∈ (g.add k x).order ↔ k' ∈ g.order ∨ k' = k := by
  unfold add
  split_ifs with hs
  · have hk := (h.isSome_iff k).mp hs
    constructor
    · exact .inl
    · rintro (hm | rfl)
      · exact hm
      · exact hk
  · simp

theorem Of.snoc (h : Of key l g) (x : α) : Of key (l ++ [x]) (g.add (key x) x) where
  nodup := by
    unfold add
    split_ifs with hs
    · exact h.nodup
    · have hk : key x ∉ g.order := fun hm => hs ((h.isSome_iff _).mpr hm)
      exact List.nodup_append.mpr ⟨h.nodup, List.nodup_singleton _, by
        intro a ha b hb
        obtain rfl := List.mem_singleton.mp hb
        exact fun heq => hk (heq ▸ ha)⟩
  isSome_iff k := by
    rw [h.mem_order_add, ← h.isSome_iff]
    unfold add
    rw [Table.get?_insert]
    split_ifs with hk
    · simp [hk]
    · simp [hk]
  mem_order k := by
    rw [h.mem_order_add, h.mem_order]
    simp [eq_comm]
  membersOf_eq k := by
    rw [membersOf_add, h.membersOf_eq, List.filter_append, List.filter_singleton]
    by_cases hk : k = key x
    · simp [hk]
    · simp [hk, Ne.symm hk]

/-- Lists of the elements with each key, over all the keys, are the elements again. -/
theorem flatten_filter_perm {ks : List κ} (hn : ks.Nodup) (hl : ∀ x ∈ l, key x ∈ ks) :
    (ks.map fun k => l.filter fun x => key x = k).flatten.Perm l := by
  induction ks generalizing l with
  | nil =>
    have hnil : l = [] := List.eq_nil_iff_forall_not_mem.mpr fun x hx => by simpa using hl x hx
    simp [hnil]
  | cons k ks ih =>
    obtain ⟨hk, hn⟩ := List.nodup_cons.mp hn
    have hrest : (ks.map fun k' => l.filter fun x => key x = k') =
        ks.map fun k' => (l.filter fun x => ¬ key x = k).filter fun x => key x = k' := by
      refine List.map_congr_left fun k' hk' => ?_
      rw [List.filter_filter]
      refine List.filter_congr fun x _ => ?_
      by_cases hx : key x = k'
      · have hne : key x ≠ k := fun heq => hk (heq ▸ hx ▸ hk')
        simp [hx, hx ▸ hne]
      · simp [hx]
    rw [List.map_cons, List.flatten_cons, hrest]
    have hih := ih (l := l.filter fun x => ¬ key x = k) hn fun x hx => by
      obtain ⟨hx, hne⟩ := List.mem_filter.mp hx
      have hne : key x ≠ k := by simpa using hne
      exact (List.mem_cons.mp (hl x hx)).resolve_left hne
    refine ((List.Perm.refl _).append hih).trans ?_
    have hsplit := List.filter_append_perm (fun x => decide (key x = k)) l
    simpa using hsplit

end Grouping

variable {α β γ : Type} {R : α → β → Prop} {l : List α} {u : List β}

/-- Two relations along one list meet at each of its elements. -/
theorem forall₂_join {S : α → γ → Prop} {v : List γ} (h : List.Forall₂ R l u)
    (h' : List.Forall₂ S l v) :
    List.Forall₂ (fun a b => a ∈ l ∧ b ∈ u ∧ R a b ∧ ∃ c, S a c) l u := by
  induction h generalizing v with
  | nil => exact .nil
  | cons hab hl ih =>
    cases h' with
    | cons hac hv =>
      refine .cons ⟨List.mem_cons_self, List.mem_cons_self, hab, _, hac⟩ ((ih hv).imp ?_)
      rintro a b ⟨ha, hb, hrest⟩
      exact ⟨List.mem_cons_of_mem _ ha, List.mem_cons_of_mem _ hb, hrest⟩

theorem forall₂_mem_right (h : List.Forall₂ R l u) {b : β} (hb : b ∈ u) : ∃ a ∈ l, R a b := by
  induction h with
  | nil => exact absurd hb (by simp)
  | cons hab _ ih =>
    rcases List.mem_cons.mp hb with rfl | hb
    · exact ⟨_, List.mem_cons_self, hab⟩
    · obtain ⟨a, ha, hr⟩ := ih hb
      exact ⟨a, List.mem_cons_of_mem _ ha, hr⟩

theorem forall₂_map_eq {f : α → γ} {g : β → γ} (h : List.Forall₂ (fun a b => g b = f a) l u) :
    u.map g = l.map f := by
  induction h with
  | nil => rfl
  | cons hab _ ih => rw [List.map_cons, List.map_cons, hab, ih]

end Ramp
