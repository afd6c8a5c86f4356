import LocaleAudit.Proofs.Json.DistinctKeys
import LocaleAudit.Proofs.KeyPath.Segments

namespace LocaleAudit

/-!
# Leaves of a tree

A leaf is reached by a sequence of keys, and its path joins them. In a tree whose keys are distinct
and addressable, the leaves are exactly the nodes without fields that looking up finds, and no leaf
lies on the way to another.
-/

namespace Json.Value

/-- Dotted paths can address every key that is reached through objects. -/
inductive KeysAddressable : Value → Prop where
  | leaf {v : Value} (hleaf : v.isObject = false) : KeysAddressable v
  | object {fields : Fields} (hkeys : ∀ field ∈ fields, Catalog.isAddressable field.1 = true)
      (hvalues : ∀ field ∈ fields, KeysAddressable field.2) : KeysAddressable (.object fields)

theorem keysDistinct_nil : (object []).KeysDistinct :=
  .object (by simp) (by simp)

theorem keysDistinct_cons {key : String} {v : Value} {rest : Fields} :
    (object ((key, v) :: rest)).KeysDistinct ↔
      key ∉ rest.map Prod.fst ∧ v.KeysDistinct ∧ (object rest).KeysDistinct := by
  constructor
  · intro h
    cases h with
    | object hkeys hvalues =>
      rw [List.map_cons, List.nodup_cons] at hkeys
      rw [List.forall_mem_cons] at hvalues
      exact ⟨hkeys.1, hvalues.1, .object hkeys.2 hvalues.2⟩
  · rintro ⟨hkey, hv, hrest⟩
    cases hrest with
    | object hkeys hvalues =>
      exact .object (List.nodup_cons.mpr ⟨hkey, hkeys⟩) (List.forall_mem_cons.mpr ⟨hv, hvalues⟩)

theorem keysAddressable_nil : (object []).KeysAddressable :=
  .object (by simp) (by simp)

theorem keysAddressable_cons {key : String} {v : Value} {rest : Fields} :
    (object ((key, v) :: rest)).KeysAddressable ↔
      Catalog.isAddressable key = true ∧ v.KeysAddressable ∧ (object rest).KeysAddressable := by
  constructor
  · intro h
    cases h with
    | leaf hleaf => cases hleaf
    | object hkeys hvalues =>
      rw [List.forall_mem_cons] at hkeys hvalues
      exact ⟨hkeys.1, hvalues.1, .object hkeys.2 hvalues.2⟩
  · rintro ⟨hkey, hv, hrest⟩
    cases hrest with
    | leaf hleaf => cases hleaf
    | object hkeys hvalues =>
      exact .object (List.forall_mem_cons.mpr ⟨hkey, hkeys⟩)
        (List.forall_mem_cons.mpr ⟨hv, hvalues⟩)

end Json.Value

open Json (Value)

namespace Tree

/-- What a document guarantees for its tree. -/
structure WellFormed (tree : Tree) : Prop where
  distinct : (Value.object tree).KeysDistinct
  addressable : (Value.object tree).KeysAddressable

theorem WellFormed.nil : WellFormed [] :=
  ⟨Value.keysDistinct_nil, Value.keysAddressable_nil⟩

/-- Induction along the fields of a tree and down into its objects. -/
theorem induction {motive : Tree → Prop} (nil : motive [])
    (leaf : ∀ key v rest, v.isObject = false → motive rest → motive ((key, v) :: rest))
    (node : ∀ key child rest, motive child → motive rest →
      motive ((key, .object child) :: rest)) : ∀ tree : Tree, motive tree
  | [] => nil
  | (key, .object child) :: rest =>
    node key child rest (induction nil leaf node child) (induction nil leaf node rest)
  | (key, .null) :: rest => leaf key _ rest rfl (induction nil leaf node rest)
  | (key, .bool _) :: rest => leaf key _ rest rfl (induction nil leaf node rest)
  | (key, .number _) :: rest => leaf key _ rest rfl (induction nil leaf node rest)
  | (key, .string _) :: rest => leaf key _ rest rfl (induction nil leaf node rest)
  | (key, .array _) :: rest => leaf key _ rest rfl (induction nil leaf node rest)

end Tree

namespace KeyPath

def underKey (key : String) (l : List String × Value) : List String × Value :=
  (key :: l.1, l.2)

mutual

def keyedLeavesAt : Value → List (List String × Value)
  | .object fields => keyedLeaves fields
  | .null => [([], .null)]
  | .bool b => [([], .bool b)]
  | .number n => [([], .number n)]
  | .string s => [([], .string s)]
  | .array items => [([], .array items)]
termination_by structural v => v

def keyedLeaves : List (String × Value) → List (List String × Value)
  | [] => []
  | (key, v) :: rest => (keyedLeavesAt v).map (underKey key) ++ keyedLeaves rest
termination_by structural fields => fields

end

theorem keyedLeavesAt_leaf {v : Value} (h : v.isObject = false) : keyedLeavesAt v = [([], v)] := by
  cases v with
  | object fields => cases h
  | _ => rfl

@[simp] theorem keyedLeavesAt_object (fields : Json.Fields) :
    keyedLeavesAt (.object fields) = keyedLeaves fields := rfl

@[simp] theorem keyedLeaves_nil : keyedLeaves [] = [] := rfl

theorem keyedLeaves_cons (key : String) (v : Value) (rest : Tree) :
    keyedLeaves ((key, v) :: rest) = (keyedLeavesAt v).map (underKey key) ++ keyedLeaves rest := rfl

theorem keyedLeaves_append (before after : Tree) :
    keyedLeaves (before ++ after) = keyedLeaves before ++ keyedLeaves after := by
  induction before with
  | nil => rfl
  | cons field rest ih =>
    obtain ⟨key, v⟩ := field
    rw [List.cons_append, keyedLeaves_cons, keyedLeaves_cons, ih, List.append_assoc]

theorem mem_keyedLeaves {keys : List String} {v : Value} {tree : Tree} :
    (keys, v) ∈ keyedLeaves tree ↔
      ∃ field ∈ tree, ∃ below, keys = field.1 :: below ∧ (below, v) ∈ keyedLeavesAt field.2 := by
  induction tree with
  | nil => simp
  | cons field rest ih =>
    obtain ⟨key, w⟩ := field
    rw [keyedLeaves_cons, List.mem_append, ih]
    simp only [List.mem_cons, or_and_right, exists_or, exists_eq_left]
    refine or_congr ?_ Iff.rfl
    simp only [List.mem_map, underKey, Prod.mk.injEq, Prod.exists]
    constructor
    · rintro ⟨below, u, hmem, hkeys, rfl⟩
      exact ⟨below, hkeys.symm, hmem⟩
    · rintro ⟨below, hkeys, hmem⟩
      exact ⟨below, v, hmem, hkeys.symm, rfl⟩

theorem exists_cons_of_mem_keyedLeaves {l : List String × Value} {tree : Tree}
    (h : l ∈ keyedLeaves tree) : ∃ key ∈ tree.map Prod.fst, ∃ below, l.1 = key :: below := by
  obtain ⟨field, hfield, below, hkeys, _⟩ := mem_keyedLeaves.mp h
  exact ⟨field.1, List.mem_map_of_mem hfield, below, hkeys⟩

theorem ne_nil_of_mem_keyedLeaves {l : List String × Value} {tree : Tree}
    (h : l ∈ keyedLeaves tree) : l.1 ≠ [] := by
  obtain ⟨key, _, below, hkeys⟩ := exists_cons_of_mem_keyedLeaves h
  rw [hkeys]
  exact List.cons_ne_nil key below

theorem nil_mem_keyedLeavesAt {v w : Value} :
    ([], v) ∈ keyedLeavesAt w ↔ w = v ∧ v.isObject = false := by
  cases w with
  | object fields =>
    constructor
    · intro h
      exact absurd rfl (ne_nil_of_mem_keyedLeaves h)
    · rintro ⟨rfl, hleaf⟩
      cases hleaf
  | _ =>
    constructor
    · intro h
      cases List.mem_singleton.mp h
      exact ⟨rfl, rfl⟩
    · rintro ⟨rfl, _⟩
      exact List.mem_singleton_self _

theorem addressable_of_mem_keyedLeaves {tree : Tree} (h : (Value.object tree).KeysAddressable)
    {l : List String × Value} (hl : l ∈ keyedLeaves tree) : Addressable l.1 := by
  induction tree using Tree.induction generalizing l with
  | nil => simp at hl
  | leaf key v rest hleaf ih =>
    obtain ⟨hkey, _, hrest⟩ := Value.keysAddressable_cons.mp h
    rw [keyedLeaves_cons, keyedLeavesAt_leaf hleaf] at hl
    rcases List.mem_append.mp hl with hl | hl
    · cases List.mem_singleton.mp hl
      exact Addressable.cons.mpr ⟨hkey, Addressable.nil⟩
    · exact ih hrest hl
  | node key child rest ihchild ih =>
    obtain ⟨hkey, hchild, hrest⟩ := Value.keysAddressable_cons.mp h
    rw [keyedLeaves_cons, keyedLeavesAt_object] at hl
    rcases List.mem_append.mp hl with hl | hl
    · obtain ⟨below, hbelow, rfl⟩ := List.mem_map.mp hl
      exact Addressable.cons.mpr ⟨hkey, ihchild hchild hbelow⟩
    · exact ih hrest hl

/-! ## Leaves and looking up -/

theorem mem_keyedLeaves_cons_iff {tree : Tree} (h : (Value.object tree).KeysDistinct)
    {key : String} {keys : List String} {v : Value} :
    (key :: keys, v) ∈ keyedLeaves tree ↔
      ∃ w, tree.get? key = some w ∧ (keys, v) ∈ keyedLeavesAt w := by
  cases h with
  | object hkeys hvalues =>
    rw [mem_keyedLeaves]
    constructor
    · rintro ⟨⟨k, w⟩, hfield, below, hcons, hmem⟩
      cases hcons
      exact ⟨w, Entries.get?_of_mem hkeys hfield, hmem⟩
    · rintro ⟨w, hget, hmem⟩
      exact ⟨(key, w), Entries.mem_of_get? hget, keys, rfl, hmem⟩

theorem keysDistinct_of_get? {tree : Tree} (h : (Value.object tree).KeysDistinct) {key : String}
    {v : Value} (hget : tree.get? key = some v) : v.KeysDistinct := by
  cases h with
  | object hkeys hvalues => exact hvalues _ (Entries.mem_of_get? hget)

theorem keysDistinct_of_getAt {tree : Tree} (h : (Value.object tree).KeysDistinct)
    {keys : List String} {v : Value} (hget : getAt keys tree = some v) : v.KeysDistinct := by
  induction keys generalizing tree with
  | nil => cases hget
  | cons key keys ih =>
    cases keys with
    | nil => exact keysDistinct_of_get? h hget
    | cons key' keys =>
      rw [getAt] at hget
      split at hget
      · rename_i child hchild
        exact ih (keysDistinct_of_get? h hchild) hget
      · cases hget

theorem mem_keyedLeaves_iff {tree : Tree} (h : (Value.object tree).KeysDistinct)
    {keys : List String} {v : Value} :
    (keys, v) ∈ keyedLeaves tree ↔ getAt keys tree = some v ∧ v.isObject = false := by
  -- On the keys, as lookup follows them: the traversal of the tree is opened at the first one only.
  induction keys generalizing tree with
  | nil =>
    constructor
    · intro hmem
      exact absurd rfl (ne_nil_of_mem_keyedLeaves hmem)
    · rintro ⟨hget, _⟩
      cases hget
  | cons key keys ih =>
    rw [mem_keyedLeaves_cons_iff h]
    cases keys with
    | nil =>
      simp only [nil_mem_keyedLeavesAt, getAt]
      constructor
      · rintro ⟨w, hget, rfl, hleaf⟩
        exact ⟨hget, hleaf⟩
      · rintro ⟨hget, hleaf⟩
        exact ⟨v, hget, rfl, hleaf⟩
    | cons key' keys =>
      rw [getAt]
      cases hget : tree.get? key with
      | none => simp
      | some w =>
        cases w with
        | object child =>
          have hchild := ih (keysDistinct_of_get? h hget)
          simp [hchild]
        | _ => simp [keyedLeavesAt]

/-- No leaf lies on the way to another, and no two leaves have the same keys. -/
theorem pairwise_keyedLeaves {tree : Tree} (h : (Value.object tree).KeysDistinct) :
    (keyedLeaves tree).Pairwise fun a b => comparableKeys a.1 b.1 = false := by
  induction tree using Tree.induction with
  | nil => exact List.Pairwise.nil
  | leaf key v rest hleaf ih =>
    obtain ⟨hkey, _, hrest⟩ := Value.keysDistinct_cons.mp h
    rw [keyedLeaves_cons, keyedLeavesAt_leaf hleaf]
    refine List.pairwise_cons.mpr ⟨?_, ih hrest⟩
    intro l hl
    obtain ⟨k, hk, below, hkeys⟩ := exists_cons_of_mem_keyedLeaves hl
    have hne : key ≠ k := fun heq => hkey (heq ▸ hk)
    rw [hkeys]
    exact comparableKeys_cons_ne hne [] below
  | node key child rest ihchild ih =>
    obtain ⟨hkey, hchild, hrest⟩ := Value.keysDistinct_cons.mp h
    rw [keyedLeaves_cons, keyedLeavesAt_object, List.pairwise_append]
    refine ⟨?_, ih hrest, ?_⟩
    · rw [List.pairwise_map]
      exact (ihchild hchild).imp fun hab => by rwa [underKey, underKey, comparableKeys_cons_same]
    · intro a ha b hb
      obtain ⟨below, _, rfl⟩ := List.mem_map.mp ha
      obtain ⟨k, hk, below', hkeys⟩ := exists_cons_of_mem_keyedLeaves hb
      have hne : key ≠ k := fun heq => hkey (heq ▸ hk)
      rw [hkeys]
      exact comparableKeys_cons_ne hne _ below'

/-! ## Leaves by their paths -/

theorem leavesAt_leaf (path : String) {v : Value} (h : v.isObject = false) :
    leavesAt path v = [(path, v)] := by
  cases v with
  | object fields => cases h
  | _ => rfl

theorem leavesBelow_joinAll {tree : Tree} (h : (Value.object tree).KeysAddressable)
    {parents : List String} (hparents : Addressable parents) :
    leavesBelow (joinAll parents) tree =
      (keyedLeaves tree).map fun l => (joinAll (parents ++ l.1), l.2) := by
  induction tree using Tree.induction generalizing parents with
  | nil => rfl
  | leaf key v rest hleaf ih =>
    obtain ⟨hkey, _, hrest⟩ := Value.keysAddressable_cons.mp h
    rw [leavesBelow, join_joinAll hparents, leavesAt_leaf _ hleaf, keyedLeaves_cons,
      keyedLeavesAt_leaf hleaf, ih hrest hparents]
    rfl
  | node key child rest ihchild ih =>
    obtain ⟨hkey, hchild, hrest⟩ := Value.keysAddressable_cons.mp h
    have hparents' : Addressable (parents ++ [key]) := hparents.append_singleton hkey
    rw [leavesBelow, join_joinAll hparents, leavesAt, ihchild hchild hparents', keyedLeaves_cons,
      ih hrest hparents, keyedLeavesAt_object, List.map_append, List.map_map]
    simp [Function.comp_def, underKey]

/-- In any tree, a leaf behind addressable keys is listed under the path that spells them. -/
theorem mem_leavesBelow_of_addressable {tree : Tree} {parents : List String}
    (hparents : Addressable parents) {l : List String × Value} (hl : l ∈ keyedLeaves tree)
    (hkeys : Addressable l.1) :
    (joinAll (parents ++ l.1), l.2) ∈ leavesBelow (joinAll parents) tree := by
  induction tree using Tree.induction generalizing parents l with
  | nil => simp at hl
  | leaf key v rest hleaf ih =>
    rw [leavesBelow, List.mem_append]
    rw [keyedLeaves_cons, keyedLeavesAt_leaf hleaf, List.mem_append] at hl
    rcases hl with hl | hl
    · cases List.mem_singleton.mp hl
      rw [join_joinAll hparents, leavesAt_leaf _ hleaf]
      exact Or.inl (List.mem_singleton_self _)
    · exact Or.inr (ih hparents hl hkeys)
  | node key child rest ihchild ih =>
    rw [leavesBelow, List.mem_append]
    rw [keyedLeaves_cons, keyedLeavesAt_object, List.mem_append] at hl
    rcases hl with hl | hl
    · obtain ⟨below, hbelow, rfl⟩ := List.mem_map.mp hl
      obtain ⟨hkey, hrest⟩ := Addressable.cons.mp hkeys
      have hparents' : Addressable (parents ++ [key]) := hparents.append_singleton hkey
      rw [join_joinAll hparents, leavesAt]
      simpa [underKey] using Or.inl (ihchild hparents' hbelow hrest)
    · exact Or.inr (ih hparents hl hkeys)

theorem leaves_eq_map {tree : Tree} (h : (Value.object tree).KeysAddressable) :
    leaves tree = (keyedLeaves tree).map fun l => (joinAll l.1, l.2) := by
  exact leavesBelow_joinAll h Addressable.nil

theorem mem_leaves_of_addressable {tree : Tree} {l : List String × Value}
    (hl : l ∈ keyedLeaves tree) (hkeys : Addressable l.1) : (joinAll l.1, l.2) ∈ leaves tree :=
  mem_leavesBelow_of_addressable Addressable.nil hl hkeys

theorem leafPaths_eq_map {tree : Tree} (h : (Value.object tree).KeysAddressable) :
    leafPaths tree = (keyedLeaves tree).map fun l => joinAll l.1 := by
  rw [leafPaths, leaves_eq_map h, List.map_map]
  rfl

theorem mem_leaves_iff {tree : Tree} (h : tree.WellFormed) {path : String} {v : Value} :
    (path, v) ∈ leaves tree ↔ get? tree path = some v ∧ v.isObject = false := by
  rw [leaves_eq_map h.addressable, List.mem_map]
  constructor
  · rintro ⟨⟨keys, w⟩, hmem, heq⟩
    cases heq
    rw [get?, segments?_joinAll (ne_nil_of_mem_keyedLeaves hmem)
      (addressable_of_mem_keyedLeaves h.addressable hmem)]
    exact (mem_keyedLeaves_iff h.distinct).mp hmem
  · rintro ⟨hget, hleaf⟩
    obtain ⟨keys, hkeys, hgetAt⟩ := Option.bind_eq_some_iff.mp hget
    refine ⟨(keys, v), (mem_keyedLeaves_iff h.distinct).mpr ⟨hgetAt, hleaf⟩, ?_⟩
    rw [joinAll_of_segments? hkeys]

theorem mem_leafPaths_iff {tree : Tree} (h : tree.WellFormed) {path : String} :
    path ∈ leafPaths tree ↔ ∃ v, get? tree path = some v ∧ v.isObject = false := by
  simp [leafPaths, mem_leaves_iff h]

theorem segments?_of_mem_leafPaths {tree : Tree} (h : tree.WellFormed) {path : String}
    (hpath : path ∈ leafPaths tree) : ∃ keys, segments? path = some keys := by
  obtain ⟨v, hget, _⟩ := (mem_leafPaths_iff h).mp hpath
  obtain ⟨keys, hkeys, _⟩ := Option.bind_eq_some_iff.mp hget
  exact ⟨keys, hkeys⟩

theorem pairwise_leaves {tree : Tree} (h : tree.WellFormed) :
    (leaves tree).Pairwise fun a b => comparable a.1 b.1 = false := by
  rw [leaves_eq_map h.addressable, List.pairwise_map]
  refine (pairwise_keyedLeaves h.distinct).imp_of_mem ?_
  intro a b ha hb hab
  rw [← hab]
  exact comparable_joinAll (ne_nil_of_mem_keyedLeaves ha) (ne_nil_of_mem_keyedLeaves hb)
    (addressable_of_mem_keyedLeaves h.addressable ha)
    (addressable_of_mem_keyedLeaves h.addressable hb)

/-- Leaf paths are distinct and prefix-free. -/
theorem pairwise_leafPaths {tree : Tree} (h : tree.WellFormed) :
    (leafPaths tree).Pairwise fun p q => comparable p q = false := by
  rw [leafPaths, List.pairwise_map]
  exact pairwise_leaves h

theorem not_comparable_of_mem {tree : Tree} (h : tree.WellFormed) {p q : String}
    (hp : p ∈ leafPaths tree) (hq : q ∈ leafPaths tree) (hne : p ≠ q) : comparable p q = false := by
  have hpair := pairwise_leafPaths h
  obtain ⟨before, after, hsplit⟩ := List.append_of_mem hp
  rw [hsplit, List.pairwise_append, List.pairwise_cons] at hpair
  rw [hsplit, List.mem_append, List.mem_cons] at hq
  rcases hq with hq | rfl | hq
  · rw [comparable_comm]
    exact hpair.2.2 q hq p List.mem_cons_self
  · exact absurd rfl hne
  · exact hpair.2.1.1 q hq

theorem not_isProperPrefix_of_mem {tree : Tree} (h : tree.WellFormed) {p q : String}
    (hp : p ∈ leafPaths tree) (hq : q ∈ leafPaths tree) : isProperPrefix p q = false := by
  by_cases heq : p = q
  · rw [heq, isProperPrefix_self]
  · have hcomp := not_comparable_of_mem h hp hq heq
    simp only [comparable, Bool.or_eq_false_iff] at hcomp
    exact hcomp.1.2

theorem nodup_leafPaths {tree : Tree} (h : tree.WellFormed) : (leafPaths tree).Nodup := by
  refine (pairwise_leafPaths h).imp ?_
  rintro p q hpq rfl
  simp [comparable] at hpq

end KeyPath

end LocaleAudit
