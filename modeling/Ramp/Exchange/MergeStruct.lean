import Ramp.Data.Table

/-! The deep merge of the rendered package over the publisher's. A struct is the address of its
map in a heap, as it is in the source, so that what a merge leaves alone can be said. -/

namespace Ramp.Exchange.Structpb

variable {L : Type}

inductive Value (L : Type)
  | leaf (l : L)
  | struct (addr : Nat)

abbrev Fields (L : Type) := Table String (Value L)

abbrev Heap (L : Type) := List (Fields L)

def getFields (h : Heap L) (addr : Option Nat) : Fields L := (addr.bind (h[·]?)).getD ∅

def mergeFields (merge : Heap L → Nat → Nat → Option (Heap L × Nat)) :
    List (Sigma fun _ : String => Value L) → Heap L → Fields L → Option (Heap L × Fields L)
  | [], h, out => some (h, out)
  | ⟨k, ov⟩ :: rest, h, out =>
    match Table.get? out k, ov with
    | some (.struct bs), .struct ovs =>
      (merge h bs ovs).bind fun x => mergeFields merge rest x.1 (Table.insert out k (.struct x.2))
    | _, _ => mergeFields merge rest h (Table.insert out k ov)

/-- `depth` bounds the depth of the recursion, which the source leaves open. -/
def mergeStruct : Nat → Heap L → Option Nat → Option Nat → Option (Heap L × Nat)
  | 0, _, _, _ => none
  | depth + 1, h, base, overlay =>
    (mergeFields (fun h bs ovs => mergeStruct depth h (some bs) (some ovs))
      (getFields h overlay).entries h (getFields h base)).map fun x => (x.1 ++ [x.2], x.1.length)

inductive Node (L : Type)
  | leaf (l : L)
  | struct
  deriving DecidableEq

def nodeAt (h : Heap L) : Fields L → List String → Option (Node L)
  | _, [] => some .struct
  | fields, k :: path =>
    match Table.get? fields k with
    | none => none
    | some (.leaf l) => if path = [] then some (.leaf l) else none
    | some (.struct addr) => nodeAt h (getFields h (some addr)) path

def isTree (h : Heap L) : Nat → Option Nat → Bool
  | 0, _ => false
  | _ + 1, none => true
  | depth + 1, some addr => addr < h.length &&
      (getFields h (some addr)).entries.all fun e =>
        match e.2 with
        | .leaf _ => true
        | .struct addr => isTree h depth (some addr)

/-- `m` is `o` laid over `b`: at a path of `o` stands what `o` has there, below a leaf of `o`
nothing, and elsewhere what `b` has. -/
def Overlaid (o b m : List String → Option (Node L)) : Prop :=
  ∀ path, (∀ n, o path = some n → m path = some n) ∧
    (o path = none → (∃ q l, q <+: path ∧ o q = some (.leaf l)) → m path = none) ∧
      (o path = none → (∀ q l, q <+: path → o q ≠ some (.leaf l)) → m path = b path)

variable {h h' : Heap L} {depth : Nat} {v : Value L}

section

variable {addr : Nat} {p : Option Nat} {k : String}

theorem mem_entries_iff {fields : Fields L} :
    ⟨k, v⟩ ∈ fields.entries ↔ Table.get? fields k = some v :=
  AList.mem_lookup_iff.symm

theorem isTree_struct (ht : isTree h (depth + 1) p = true)
    (hget : Table.get? (getFields h p) k = some (.struct addr)) :
    isTree h depth (some addr) = true := by
  cases p with
  | none => cases hget
  | some a =>
    rw [isTree, Bool.and_eq_true] at ht
    exact List.all_eq_true.mp ht.2 _ (mem_entries_iff.mpr hget)

variable (ht : isTree h depth p = true) (hle : h <+: h')
include ht hle

theorem getFields_grown : getFields h' p = getFields h p := by
  obtain ⟨t, rfl⟩ := hle
  cases p with
  | none => rfl
  | some a =>
    cases depth with
    | zero => cases ht
    | succ depth =>
      rw [isTree, Bool.and_eq_true, decide_eq_true_eq] at ht
      simp only [getFields, Option.bind_some, List.getElem?_append_left ht.1]

theorem isTree_grown : isTree h' depth p = true := by
  induction depth generalizing p with
  | zero => cases ht
  | succ depth ih =>
    cases p with
    | none => rfl
    | some a =>
      have hfields := getFields_grown ht hle
      rw [isTree, Bool.and_eq_true, decide_eq_true_eq] at ht ⊢
      have hlen := hle.length_le
      refine ⟨by omega, List.all_eq_true.mpr fun e he => ?_⟩
      rw [hfields] at he
      have hh := List.all_eq_true.mp ht.2 e he
      cases hvalue : e.2 with
      | leaf l => rfl
      | struct addr =>
        rw [hvalue] at hh
        exact ih hh

theorem nodeAt_grown (path : List String) :
    nodeAt h' (getFields h' p) path = nodeAt h (getFields h p) path := by
  induction path generalizing depth p with
  | nil => rfl
  | cons k path ih =>
    rw [getFields_grown ht hle]
    unfold nodeAt
    split
    · rfl
    · rfl
    next addr hget =>
      cases depth with
      | zero => cases ht
      | succ depth => exact ih (isTree_struct ht hget)

end

section

variable {o b m : Fields L} {ov : Value L} {bv : Option (Value L)}

def Value.nodeAt (h : Heap L) : Value L → List String → Option (Node L)
  | .leaf l, path => if path = [] then some (.leaf l) else none
  | .struct addr, path => Structpb.nodeAt h (getFields h (some addr)) path

theorem nodeAt_cons (k : String) (path : List String) :
    nodeAt h o (k :: path) = (Table.get? o k).bind fun v => v.nodeAt h path := by
  rw [nodeAt]
  split
  next hget => rw [hget, Option.bind_none]
  next hget => rw [hget, Option.bind_some, Value.nodeAt]
  next hget => rw [hget, Option.bind_some, Value.nodeAt]

def OverlaidAt (h : Heap L) (ov : Value L) (bv : Option (Value L)) (v : Value L) : Prop :=
  Overlaid (ov.nodeAt h) (fun path => bv.bind fun v => v.nodeAt h path) (v.nodeAt h)

theorem OverlaidAt.replaced (hno : ∀ bs ovs, bv = some (.struct bs) → ov ≠ .struct ovs) :
    OverlaidAt h ov bv ov := by
  refine fun path => ⟨fun n hn => hn, fun hnone _ => hnone, fun hnone hleaf => ?_⟩
  cases ov with
  | leaf l => exact absurd rfl (hleaf [] l List.nil_prefix)
  | struct ovs =>
    have hne : path ≠ [] := by
      rintro rfl
      cases hnone
    rcases bv with _ | l | bs
    · exact hnone
    · simpa [Value.nodeAt, hne] using hnone
    · exact absurd rfl (hno bs ovs rfl)

theorem Overlaid.of_keys (hrest : ∀ k, Table.get? o k = none → Table.get? m k = Table.get? b k)
    (hkeys : ∀ k ov, Table.get? o k = some ov →
      ∃ v, Table.get? m k = some v ∧ OverlaidAt h ov (Table.get? b k) v) :
    Overlaid (nodeAt h o) (nodeAt h b) (nodeAt h m) := by
  intro path
  cases path with
  | nil => exact ⟨fun n hn => hn, fun hnone => (by cases hnone), fun hnone => (by cases hnone)⟩
  | cons k path =>
    cases hget : Table.get? o k with
    | none =>
      have hnone : ∀ q, nodeAt h o (k :: q) = none := fun q => by rw [nodeAt_cons, hget]; rfl
      refine ⟨fun n hn => ?_, ?_, fun _ _ => ?_⟩
      · rw [hnone] at hn
        cases hn
      · rintro - ⟨_ | ⟨k', q⟩, l, hq, hl⟩
        · cases hl
        · obtain ⟨rfl, -⟩ := List.cons_prefix_cons.mp hq
          rw [hnone] at hl
          cases hl
      · rw [nodeAt_cons, nodeAt_cons, hrest k hget]
    | some ov =>
      obtain ⟨v, hm, hlaw⟩ := hkeys k ov hget
      obtain ⟨hover, hbelow, helse⟩ := hlaw path
      have hsome : ∀ q, nodeAt h o (k :: q) = ov.nodeAt h q :=
        fun q => by rw [nodeAt_cons, hget]; rfl
      have hmerged : nodeAt h m (k :: path) = v.nodeAt h path := by rw [nodeAt_cons, hm]; rfl
      rw [hsome, hmerged, nodeAt_cons]
      refine ⟨hover, ?_, fun hnone hleaf => helse hnone fun q l hq hl => ?_⟩
      · rintro hnone ⟨_ | ⟨k', q⟩, l, hq, hl⟩
        · cases hl
        · obtain ⟨rfl, htail⟩ := List.cons_prefix_cons.mp hq
          exact hbelow hnone ⟨q, l, htail, (hsome q).symm.trans hl⟩
      · exact hleaf (k :: q) l (List.cons_prefix_cons.mpr ⟨rfl, hq⟩) ((hsome q).trans hl)

theorem Overlaid.idem {o b m m' : List String → Option (Node L)} (hm : Overlaid o b m)
    (hm' : Overlaid o m m') (path : List String) : m' path = m path := by
  obtain ⟨hover, hbelow, helse⟩ := hm path
  obtain ⟨hover', hbelow', helse'⟩ := hm' path
  cases ho : o path with
  | some n => rw [hover n ho, hover' n ho]
  | none =>
    by_cases hleaf : ∃ q l, q <+: path ∧ o q = some (.leaf l)
    · rw [hbelow ho hleaf, hbelow' ho hleaf]
    · exact helse' ho fun q l hq hl => hleaf ⟨q, l, hq, hl⟩

end

variable {base overlay : Option Nat}

def Grown (h : Heap L) (depth : Nat) (fields : Fields L) : Prop :=
  ∀ k addr, Table.get? fields k = some (.struct addr) → isTree h depth (some addr) = true

def Merges (h : Heap L) (depth : Nat) (base overlay : Option Nat)
    (result : Option (Heap L × Nat)) : Prop :=
  ∃ h' addr, result = some (h', addr) ∧ h <+: h' ∧ isTree h' depth (some addr) = true ∧
    ∀ H, h' <+: H → Overlaid (nodeAt H (getFields H overlay)) (nodeAt H (getFields H base))
      (nodeAt H (getFields H (some addr)))

theorem mergeFields_spec {merge : Heap L → Nat → Nat → Option (Heap L × Nat)}
    (hmerge : ∀ h bs ovs, isTree h depth (some bs) = true → isTree h depth (some ovs) = true →
      Merges h depth (some bs) (some ovs) (merge h bs ovs))
    (es : List (Sigma fun _ : String => Value L)) (hnodup : es.NodupKeys) {out : Fields L}
    (hout : Grown h depth out)
    (hes : ∀ e ∈ es, ∀ addr, e.2 = .struct addr → isTree h depth (some addr) = true) :
    ∃ h' out', mergeFields merge es h out = some (h', out') ∧ h <+: h' ∧ Grown h' depth out' ∧
      (∀ k, (∀ e ∈ es, e.1 ≠ k) → Table.get? out' k = Table.get? out k) ∧
      ∀ k ov, ⟨k, ov⟩ ∈ es → ∃ v, Table.get? out' k = some v ∧
        ∀ H, h' <+: H → OverlaidAt H ov (Table.get? out k) v := by
  induction es generalizing h out with
  | nil => exact ⟨h, out, rfl, List.prefix_refl h, hout, fun _ _ => rfl, by simp⟩
  | cons e es ih =>
    obtain ⟨k, ov⟩ := e
    obtain ⟨hfresh, hnodup⟩ := List.nodupKeys_cons.mp hnodup
    obtain ⟨hov, hes⟩ := List.forall_mem_cons.mp hes
    change k ∉ es.keys at hfresh
    have hstep : ∃ h₁ v, mergeFields merge (⟨k, ov⟩ :: es) h out =
          mergeFields merge es h₁ (Table.insert out k v) ∧ h <+: h₁ ∧
        (∀ addr, v = .struct addr → isTree h₁ depth (some addr) = true) ∧
        ∀ H, h₁ <+: H → OverlaidAt H ov (Table.get? out k) v := by
      by_cases hboth : ∃ bs ovs, Table.get? out k = some (.struct bs) ∧ ov = .struct ovs
      · obtain ⟨bs, ovs, hbs, rfl⟩ := hboth
        obtain ⟨h₁, addr, hresult, hle, htree, hlaw⟩ :=
          hmerge h bs ovs (hout k bs hbs) (hov ovs rfl)
        refine ⟨h₁, .struct addr, ?_, hle, ?_, fun H hH => ?_⟩
        · rw [mergeFields, hresult, Option.bind_some]
          exact hbs
        · rintro _ ⟨⟩
          exact htree
        · rw [hbs]
          exact hlaw H hH
      · have hno : ∀ bs ovs, Table.get? out k = some (.struct bs) → ov ≠ .struct ovs :=
          fun bs ovs hbs hovs => hboth ⟨bs, ovs, hbs, hovs⟩
        exact ⟨h, ov, by rw [mergeFields]; exact hno, List.prefix_refl h, hov,
          fun _ _ => .replaced hno⟩
    obtain ⟨h₁, v, hres, hle, hv, hlaw⟩ := hstep
    have hout₁ : Grown h₁ depth (Table.insert out k v) := by
      intro k' addr hget
      rw [Table.get?_insert] at hget
      split_ifs at hget
      · exact hv addr (Option.some.inj hget)
      · exact isTree_grown (hout k' addr hget) hle
    obtain ⟨h', out', hmerged, hle', hout', hrest, hkeys⟩ :=
      ih hnodup hout₁ fun e he addr haddr => isTree_grown (hes e he addr haddr) hle
    refine ⟨h', out', hres.trans hmerged, hle.trans hle', hout', fun k' hk' => ?_, ?_⟩
    · obtain ⟨hne, hk'⟩ := List.forall_mem_cons.mp hk'
      rw [hrest k' hk', Table.get?_insert, if_neg (Ne.symm hne)]
    · intro k' ov' hmem
      rcases List.mem_cons.mp hmem with heq | hin
      · cases heq
        have hk : ∀ e ∈ es, e.1 ≠ k := by
          rintro e he rfl
          exact hfresh (List.mem_keys_of_mem he)
        exact ⟨v, by rw [hrest k hk, Table.get?_insert, if_pos rfl],
          fun H hH => hlaw H (hle'.trans hH)⟩
      · have hne : k' ≠ k := by
          rintro rfl
          exact hfresh (List.mem_keys_of_mem hin)
        have hlaw' := hkeys k' ov' hin
        rwa [Table.get?_insert, if_neg hne] at hlaw'

theorem mergeStruct_spec (hbase : isTree h depth base = true)
    (hoverlay : isTree h depth overlay = true) :
    Merges h depth base overlay (mergeStruct depth h base overlay) := by
  induction depth generalizing h base overlay with
  | zero => cases hbase
  | succ depth ih =>
    obtain ⟨h₁, out, hres, hle, hout, hrest, hkeys⟩ := mergeFields_spec
      (fun h bs ovs hbs hovs => ih hbs hovs) (getFields h overlay).entries
      (getFields h overlay).nodupKeys (fun k addr => isTree_struct hbase) (by
        rintro ⟨k, v⟩ he addr rfl
        exact isTree_struct hoverlay (mem_entries_iff.mp he))
    have hle₁ : h₁ <+: h₁ ++ [out] := List.prefix_append h₁ [out]
    have hget : getFields (h₁ ++ [out]) (some h₁.length) = out := by simp [getFields]
    have htree : isTree (h₁ ++ [out]) (depth + 1) (some h₁.length) = true := by
      rw [isTree, hget, Bool.and_eq_true]
      refine ⟨by simp, List.all_eq_true.mpr fun e he => ?_⟩
      cases hvalue : e.2 with
      | leaf l => rfl
      | struct addr =>
        exact isTree_grown (hout e.1 addr (mem_entries_iff.mp (hvalue ▸ he))) hle₁
    refine ⟨h₁ ++ [out], h₁.length, by rw [mergeStruct, hres]; rfl, hle.trans hle₁, htree, ?_⟩
    intro H hH
    have hleH := hle.trans (hle₁.trans hH)
    rw [getFields_grown hbase hleH, getFields_grown hoverlay hleH, getFields_grown htree hH, hget]
    refine .of_keys (fun k hnone => hrest k fun e he hek => ?_) fun k ov hget => ?_
    · have hsome : Table.get? (getFields h overlay) k = some e.2 := mem_entries_iff.mp (hek ▸ he)
      rw [hnone] at hsome
      cases hsome
    · obtain ⟨v, hv, hlaw⟩ := hkeys k ov (mem_entries_iff.mpr hget)
      exact ⟨v, hv, hlaw H (hle₁.trans hH)⟩

/-- A merge of two trees lays the overlay over the base and changes no map that was there. A
second merge of the same overlay comes to the same tree. -/
theorem mergeStruct_lays_overlay (hbase : isTree h depth base = true)
    (hoverlay : isTree h depth overlay = true) :
    ∃ h' merged, mergeStruct depth h base overlay = some (h', merged) ∧ h <+: h' ∧
      Overlaid (nodeAt h (getFields h overlay)) (nodeAt h (getFields h base))
        (nodeAt h' (getFields h' (some merged))) ∧
      ∃ h'' again, mergeStruct depth h' (some merged) overlay = some (h'', again) ∧ h' <+: h'' ∧
        ∀ path, nodeAt h'' (getFields h'' (some again)) path =
          nodeAt h' (getFields h' (some merged)) path := by
  obtain ⟨h', merged, hres, hle, htree, hlaw⟩ := mergeStruct_spec hbase hoverlay
  obtain ⟨h'', again, hres', hle', -, hlaw'⟩ :=
    mergeStruct_spec htree (isTree_grown hoverlay hle)
  have hfirst := hlaw h' (List.prefix_refl h')
  rw [funext (nodeAt_grown hbase hle), funext (nodeAt_grown hoverlay hle)] at hfirst
  have hsecond := hlaw' h'' (List.prefix_refl h'')
  rw [funext (nodeAt_grown htree hle'), funext (nodeAt_grown hoverlay (hle.trans hle'))] at hsecond
  exact ⟨h', merged, hres, hle, hfirst, h'', again, hres', hle', hfirst.idem hsecond⟩

def twoPackages : Heap Nat :=
  [Table.index Prod.fst Prod.snd [("unitprice", .leaf 1), ("ause", .leaf 2)],
    Table.index Prod.fst Prod.snd [("scope", .struct 0), ("note", .leaf 3)],
    Table.index Prod.fst Prod.snd [("unitprice", .leaf 5)],
    Table.index Prod.fst Prod.snd [("scope", .struct 2), ("note", .struct 2)]]

theorem mergeStruct_lays_overlay_packages :
    ∃ h' merged, mergeStruct 2 twoPackages (some 1) (some 3) = some (h', merged) ∧
      nodeAt h' (getFields h' (some merged)) ["scope", "unitprice"] = some (.leaf 5) ∧
      nodeAt h' (getFields h' (some merged)) ["note"] = some .struct := by
  obtain ⟨h', merged, hres, -, hlaw, -⟩ := @mergeStruct_lays_overlay Nat twoPackages 2 (some 1)
    (some 3) (by decide +kernel) (by decide +kernel)
  exact ⟨h', merged, hres, (hlaw _).1 _ (by decide +kernel), (hlaw _).1 _ (by decide +kernel)⟩

end Ramp.Exchange.Structpb
