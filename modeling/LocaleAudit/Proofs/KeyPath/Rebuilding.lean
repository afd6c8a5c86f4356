import LocaleAudit.Proofs.KeyPath.Setting

namespace LocaleAudit

/-!
# Rebuilding a tree from its leaves

Setting the leaves of a tree one after the other, from nothing and in document order, gives the tree
back without the objects that have no leaf below them. Every field comes to stand where it stood,
for the leaves below a key follow one another.
-/

open Json (Value)

namespace Json.Value

/-- No object that is reached through objects is empty. Arrays are leaves, whatever they hold. -/
inductive NoEmptyObject : Value → Prop where
  | leaf {v : Value} (hleaf : v.isObject = false) : NoEmptyObject v
  | object {fields : Fields} (hne : fields ≠ [])
      (hvalues : ∀ field ∈ fields, NoEmptyObject field.2) : NoEmptyObject (.object fields)

end Json.Value

namespace Tree

/-- The tree itself may be empty. -/
def NoEmptyObject (tree : Tree) : Prop :=
  ∀ field ∈ tree, field.2.NoEmptyObject

theorem noEmptyObject_cons {key : String} {v : Value} {rest : Tree} :
    NoEmptyObject ((key, v) :: rest) ↔ v.NoEmptyObject ∧ NoEmptyObject rest :=
  List.forall_mem_cons

theorem noEmptyObject_of_object {child : Tree} (h : (Value.object child).NoEmptyObject) :
    NoEmptyObject child := by
  cases h with
  | leaf hleaf => cases hleaf
  | object _ hvalues => exact hvalues

end Tree

namespace KeyPath

/-- An object without a leaf below it. -/
def isLeafless : Value → Bool
  | .object fields => (leaves fields).isEmpty
  | _ => false

mutual

def pruneAt : Value → Value
  | .object fields => .object (prune fields)
  | .null => .null
  | .bool b => .bool b
  | .number n => .number n
  | .string s => .string s
  | .array items => .array items
termination_by structural v => v

/-- The tree without the objects that have no leaf below them. -/
def prune : List (String × Value) → List (String × Value)
  | [] => []
  | (key, v) :: rest => if isLeafless v then prune rest else (key, pruneAt v) :: prune rest
termination_by structural fields => fields

end

theorem pruneAt_leaf {v : Value} (h : v.isObject = false) : pruneAt v = v := by
  cases v with
  | object fields => cases h
  | _ => rfl

theorem isLeafless_leaf {v : Value} (h : v.isObject = false) : isLeafless v = false := by
  cases v with
  | object fields => cases h
  | _ => rfl

theorem prune_cons_leaf {v : Value} (h : v.isObject = false) (key : String) (rest : Tree) :
    prune ((key, v) :: rest) = (key, v) :: prune rest := by
  rw [prune, isLeafless_leaf h, pruneAt_leaf h]
  rfl

theorem prune_cons_leafless {child : Tree} (h : leaves child = []) (key : String) (rest : Tree) :
    prune ((key, .object child) :: rest) = prune rest := by
  simp [prune, isLeafless, h]

theorem prune_cons_object {child : Tree} (h : leaves child ≠ []) (key : String) (rest : Tree) :
    prune ((key, .object child) :: rest) = (key, .object (prune child)) :: prune rest := by
  simp [prune, isLeafless, pruneAt, h]

/-- Paths do not decide which values are leaves. -/
theorem map_snd_leavesBelow (path : String) (tree : Tree) :
    (leavesBelow path tree).map Prod.snd = (keyedLeaves tree).map Prod.snd := by
  induction tree using Tree.induction generalizing path with
  | nil => rfl
  | leaf key v rest hleaf ih =>
    rw [leavesBelow, leavesAt_leaf _ hleaf, keyedLeaves_cons, keyedLeavesAt_leaf hleaf,
      List.map_append, List.map_append, ih]
    rfl
  | node key child rest ihchild ih =>
    rw [leavesBelow, leavesAt, keyedLeaves_cons, keyedLeavesAt_object, List.map_append,
      List.map_append, ihchild, ih, List.map_map]
    rfl

theorem leaves_eq_nil_iff (tree : Tree) : leaves tree = [] ↔ keyedLeaves tree = [] := by
  rw [← List.map_eq_nil_iff (f := Prod.snd), leaves, map_snd_leavesBelow, List.map_eq_nil_iff]

theorem keyedLeavesAt_ne_nil {v : Value} (h : v.NoEmptyObject) : keyedLeavesAt v ≠ [] := by
  induction h with
  | leaf hleaf => simp [keyedLeavesAt_leaf hleaf]
  | @object fields hne hvalues ih =>
    obtain ⟨⟨key, v⟩, rest, rfl⟩ := List.exists_cons_of_ne_nil hne
    have hfirst : keyedLeavesAt v ≠ [] := ih (key, v) List.mem_cons_self
    rw [keyedLeavesAt_object, keyedLeaves_cons]
    exact List.append_ne_nil_of_left_ne_nil (by simpa using hfirst) _

theorem prune_eq_self {tree : Tree} (h : tree.NoEmptyObject) : prune tree = tree := by
  induction tree using Tree.induction with
  | nil => rfl
  | leaf key v rest hleaf ih =>
    rw [prune_cons_leaf hleaf, ih (Tree.noEmptyObject_cons.mp h).2]
  | node key child rest ihchild ih =>
    obtain ⟨hobject, hrest⟩ := Tree.noEmptyObject_cons.mp h
    have hleaves : leaves child ≠ [] := by
      rw [ne_eq, leaves_eq_nil_iff]
      exact keyedLeavesAt_ne_nil hobject
    have hchild := ihchild (Tree.noEmptyObject_of_object hobject)
    rw [prune_cons_object hleaves, hchild, ih hrest]

theorem keyedLeaves_prune (tree : Tree) : keyedLeaves (prune tree) = keyedLeaves tree := by
  induction tree using Tree.induction with
  | nil => rfl
  | leaf key v rest hleaf ih => rw [prune_cons_leaf hleaf, keyedLeaves_cons, keyedLeaves_cons, ih]
  | node key child rest ihchild ih =>
    by_cases hleaves : leaves child = []
    · have hnone : keyedLeaves child = [] := (leaves_eq_nil_iff child).mp hleaves
      rw [prune_cons_leafless hleaves, keyedLeaves_cons, keyedLeavesAt_object, hnone, ih]
      rfl
    · rw [prune_cons_object hleaves, keyedLeaves_cons, keyedLeaves_cons, keyedLeavesAt_object,
        keyedLeavesAt_object, ihchild, ih]

/-- Pruning keeps every leaf, so an object that is left has one below it. -/
theorem noEmptyObject_prune (tree : Tree) : Tree.NoEmptyObject (prune tree) := by
  induction tree using Tree.induction with
  | nil => simp [prune, Tree.NoEmptyObject]
  | leaf key v rest hleaf ih =>
    rw [prune_cons_leaf hleaf]
    exact Tree.noEmptyObject_cons.mpr ⟨.leaf hleaf, ih⟩
  | node key child rest ihchild ih =>
    by_cases hleaves : leaves child = []
    · rwa [prune_cons_leafless hleaves]
    · have hsome : prune child ≠ [] := by
        intro hnil
        apply hleaves
        rw [leaves_eq_nil_iff, ← keyedLeaves_prune, hnil]
        rfl
      rw [prune_cons_object hleaves]
      exact Tree.noEmptyObject_cons.mpr ⟨.object hsome ihchild, ih⟩

/-! ## Setting leaves one after the other -/

def setAll (leaves : List (List String × Value)) (tree : Tree) : Except (List String) Tree :=
  leaves.foldlM (fun tree l => setAt .fail l.2 l.1 tree) tree

@[simp] theorem setAll_nil (tree : Tree) : setAll [] tree = .ok tree := rfl

theorem setAll_cons_of_ok {l : List String × Value} {tree tree' : Tree}
    (h : setAt .fail l.2 l.1 tree = .ok tree') (rest : List (List String × Value)) :
    setAll (l :: rest) tree = setAll rest tree' := by
  rw [setAll, List.foldlM_cons, h]
  rfl

theorem setAll_append_of_ok {first : List (List String × Value)} {tree tree' : Tree}
    (h : setAll first tree = .ok tree') (rest : List (List String × Value)) :
    setAll (first ++ rest) tree = setAll rest tree' := by
  have hfirst : first.foldlM (fun tree l => setAt .fail l.2 l.1 tree) tree = .ok tree' := h
  rw [setAll, List.foldlM_append, hfirst]
  rfl

theorem exists_setAt_of_setAll_cons {l : List String × Value} {rest : List (List String × Value)}
    {tree tree' : Tree} (h : setAll (l :: rest) tree = .ok tree') :
    ∃ next, setAt .fail l.2 l.1 tree = .ok next ∧ setAll rest next = .ok tree' := by
  cases hset : setAt .fail l.2 l.1 tree with
  | ok next => exact ⟨next, rfl, by rwa [setAll_cons_of_ok hset] at h⟩
  | error blocked =>
    rw [setAll, List.foldlM_cons, hset] at h
    cases h

/-- Behind other fields, leaves below one key go into the object of that key. -/
theorem setAll_underKey {before : Tree} {key : String} (hkey : key ∉ before.map Prod.fst)
    {leaves : List (List String × Value)} (hne : ∀ l ∈ leaves, l.1 ≠ []) {child child' : Tree}
    (h : setAll leaves child = .ok child') :
    setAll (leaves.map (underKey key)) (before ++ [(key, .object child)]) =
      .ok (before ++ [(key, .object child')]) := by
  induction leaves generalizing child with
  | nil =>
    cases h
    rfl
  | cons l rest ih =>
    rw [List.forall_mem_cons] at hne
    obtain ⟨first, below, hkeys⟩ := List.exists_cons_of_ne_nil hne.1
    obtain ⟨next, hset, hrest⟩ := exists_setAt_of_setAll_cons h
    have hget : Entries.get? key (before ++ [(key, Value.object child)]) = some (.object child) :=
      Entries.get?_append_cons hkey _ []
    have hput : Entries.put key (.object next) (before ++ [(key, Value.object child)]) =
        before ++ [(key, .object next)] := Entries.put_append_cons hkey _ _ []
    have hstep : setAt .fail l.2 (key :: l.1) (before ++ [(key, .object child)]) =
        .ok (before ++ [(key, .object next)]) := by
      rw [hkeys] at hset ⊢
      rw [setAt_cons_cons, refusesObject, childAt, hget, hset, ← hput]
      rfl
    rw [List.map_cons, setAll_cons_of_ok hstep, ih hne.2 hrest]

/-- The first leaf below a new key makes the object of that key. -/
theorem setAt_new {before : Tree} {key : String} (hkey : key ∉ before.map Prod.fst) (value : Value)
    {keys : List String} (hne : keys ≠ []) :
    setAt .fail value (key :: keys) before =
      setAt .fail value (key :: keys) (before ++ [(key, .object [])]) := by
  obtain ⟨first, below, rfl⟩ := List.exists_cons_of_ne_nil hne
  have hnone : before.get? key = none := Entries.get?_eq_none_iff.mpr hkey
  have hget : Entries.get? key (before ++ [(key, Value.object [])]) = some (.object []) :=
    Entries.get?_append_cons hkey _ []
  have hput : ∀ child : Tree, before.put key (.object child) =
      Entries.put key (.object child) (before ++ [(key, Value.object [])]) := by
    intro child
    rw [Entries.put_of_not_mem hkey, Entries.put_append_cons hkey]
  rw [setAt_cons_cons, setAt_cons_cons]
  simp [refusesObject, childAt, hnone, hget, hput, Value.isObject]

theorem setAll_underKey_new {before : Tree} {key : String} (hkey : key ∉ before.map Prod.fst)
    {leaves : List (List String × Value)} (hsome : leaves ≠ []) (hne : ∀ l ∈ leaves, l.1 ≠ [])
    {child : Tree} (h : setAll leaves [] = .ok child) :
    setAll (leaves.map (underKey key)) before = .ok (before ++ [(key, .object child)]) := by
  obtain ⟨l, rest, rfl⟩ := List.exists_cons_of_ne_nil hsome
  have hfirst := setAt_new hkey l.2 (hne l List.mem_cons_self)
  calc
    setAll ((l :: rest).map (underKey key)) before
      = setAll ((l :: rest).map (underKey key)) (before ++ [(key, .object [])]) := by
        rw [List.map_cons, setAll, setAll, List.foldlM_cons, List.foldlM_cons, underKey, hfirst]
    _ = .ok (before ++ [(key, .object child)]) := setAll_underKey hkey hne h

theorem setAt_singleton_new {before : Tree} {key : String} (hkey : key ∉ before.map Prod.fst)
    (value : Value) : setAt .fail value [key] before = .ok (before ++ [(key, value)]) := by
  rw [setAt_singleton, refusesValue, Entries.get?_eq_none_iff.mpr hkey,
    Entries.put_of_not_mem hkey]
  rfl

/-! ## Rebuilding -/

theorem new_behind {before rest : Tree} {key : String} (hkey : key ∉ rest.map Prod.fst)
    (hnew : ∀ k ∈ rest.map Prod.fst, k ∉ before.map Prod.fst) (v : Value) :
    ∀ k ∈ rest.map Prod.fst, k ∉ (before ++ [(key, v)]).map Prod.fst := by
  intro k hk
  have hne : k ≠ key := by
    rintro rfl
    exact hkey hk
  simpa [hne] using hnew k hk

theorem setAll_keyedLeaves {tree : Tree} (h : tree.WellFormed) {before : Tree}
    (hbefore : ∀ key ∈ tree.map Prod.fst, key ∉ before.map Prod.fst) :
    setAll (keyedLeaves tree) before = .ok (before ++ prune tree) := by
  -- Along the fields of the tree: what stands before has been rebuilt.
  induction tree using Tree.induction generalizing before with
  | nil => simp [prune]
  | leaf key v rest hleaf ih =>
    obtain ⟨hkey, _, hdistinct⟩ := Value.keysDistinct_cons.mp h.distinct
    obtain ⟨_, _, haddressable⟩ := Value.keysAddressable_cons.mp h.addressable
    rw [List.map_cons, List.forall_mem_cons] at hbefore
    rw [keyedLeaves_cons, keyedLeavesAt_leaf hleaf, List.map_singleton, List.singleton_append,
      setAll_cons_of_ok (setAt_singleton_new hbefore.1 v),
      ih ⟨hdistinct, haddressable⟩ (new_behind hkey hbefore.2 v), prune_cons_leaf hleaf]
    simp
  | node key child rest ihchild ih =>
    obtain ⟨hkey, hchild, hdistinct⟩ := Value.keysDistinct_cons.mp h.distinct
    obtain ⟨_, hchild', haddressable⟩ := Value.keysAddressable_cons.mp h.addressable
    rw [List.map_cons, List.forall_mem_cons] at hbefore
    rw [keyedLeaves_cons, keyedLeavesAt_object]
    by_cases hleaves : leaves child = []
    · have hnone : keyedLeaves child = [] := (leaves_eq_nil_iff child).mp hleaves
      rw [hnone, List.map_nil, List.nil_append, prune_cons_leafless hleaves,
        ih ⟨hdistinct, haddressable⟩ hbefore.2]
    · have hsome : keyedLeaves child ≠ [] := mt (leaves_eq_nil_iff child).mpr hleaves
      have hbelow : setAll (keyedLeaves child) [] = .ok (prune child) :=
        ihchild ⟨hchild, hchild'⟩ (by simp)
      have hobject := setAll_underKey_new hbefore.1 hsome
        (fun l hl => ne_nil_of_mem_keyedLeaves hl) hbelow
      rw [setAll_append_of_ok hobject,
        ih ⟨hdistinct, haddressable⟩ (new_behind hkey hbefore.2 _), prune_cons_object hleaves]
      simp

theorem foldlM_set_of_setAll {leaves : List (List String × Value)}
    (hkeys : ∀ l ∈ leaves, l.1 ≠ [] ∧ Addressable l.1) {tree tree' : Tree}
    (h : setAll leaves tree = .ok tree') :
    (leaves.map fun l => (joinAll l.1, l.2)).foldlM
      (fun tree field => set tree field.1 field.2 .fail) tree = .ok tree' := by
  induction leaves generalizing tree with
  | nil =>
    cases h
    rfl
  | cons l rest ih =>
    rw [List.forall_mem_cons] at hkeys
    obtain ⟨next, hset, hrest⟩ := exists_setAt_of_setAll_cons h
    rw [List.map_cons, List.foldlM_cons, set_of_setAt (segments?_joinAll hkeys.1.1 hkeys.1.2) hset]
    exact ih hkeys.2 hrest

theorem flatten_eq_leaves {tree : Tree} (h : tree.WellFormed) : flatten tree = leaves tree :=
  Entries.ofList_eq_self (nodup_leafPaths h)

/-- Rebuilding the flattened tree gives the tree without its leafless objects, fields in their old
order. -/
theorem unflatten_flatten (tree : Tree) (h : tree.WellFormed) :
    unflatten (flatten tree) = .ok (prune tree) ∧
      (tree.NoEmptyObject → unflatten (flatten tree) = .ok tree) := by
  have hkeys : ∀ l ∈ keyedLeaves tree, l.1 ≠ [] ∧ Addressable l.1 := fun l hl =>
    ⟨ne_nil_of_mem_keyedLeaves hl, addressable_of_mem_keyedLeaves h.addressable hl⟩
  have hset : setAll (keyedLeaves tree) [] = .ok (prune tree) := setAll_keyedLeaves h (by simp)
  have hrebuilt : unflatten (flatten tree) = .ok (prune tree) := by
    rw [unflatten, flatten_eq_leaves h, leaves_eq_map h.addressable]
    exact foldlM_set_of_setAll hkeys hset
  refine ⟨hrebuilt, ?_⟩
  intro hfull
  rw [hrebuilt, prune_eq_self hfull]

def hollowTree : Tree :=
  [("z", .string "1"), ("a", .object [("b", .object []), ("c", .object [("d", .null)])]),
    ("e", .object [("f", .object [("g", .object [])])]), ("l", .array [.object []])]

theorem hollowTree_wellFormed : hollowTree.WellFormed where
  distinct := by
    simp [hollowTree, Value.keysDistinct_cons, Value.keysDistinct_nil, Value.KeysDistinct.string,
      Value.KeysDistinct.null, Value.KeysDistinct.array]
  addressable := by
    have htext : (Value.string "1").KeysAddressable := .leaf rfl
    have hnull : Value.null.KeysAddressable := .leaf rfl
    have harray : (Value.array [.object []]).KeysAddressable := .leaf rfl
    simp [hollowTree, Value.keysAddressable_cons, Value.keysAddressable_nil, Catalog.isAddressable,
      htext, hnull, harray]

/-- With `g` goes `f`, and with `f` goes `e`; an array keeps what it holds. -/
theorem unflatten_flatten_hollow :
    hollowTree.WellFormed ∧ unflatten (flatten hollowTree) = .ok
      [("z", .string "1"), ("a", .object [("c", .object [("d", .null)])]),
        ("l", .array [.object []])] :=
  ⟨hollowTree_wellFormed, (unflatten_flatten hollowTree hollowTree_wellFormed).1⟩

end KeyPath

end LocaleAudit
