import LocaleAudit.Proofs.KeyPath.Leaves

namespace LocaleAudit

/-!
# Setting a value

Setting a leaf replaces exactly the leaves whose paths are comparable with its own, and leaves all
others in their order. `obstacle?` names the node that keeps a value from being set; it does not
depend on what has been set at incomparable paths before.
-/

open Json (Value)

namespace KeyPath

variable {policy : ConflictPolicy} {value : Value} {key key' : String} {keys : List String}

/-- The object behind a key; without one, an empty object. -/
def childAt (key : String) (tree : Tree) : Tree :=
  match tree.get? key with
  | some (.object child) => child
  | _ => []

/-- Whether an object stands where the value would go, and may not be let go. -/
def refusesValue (policy : ConflictPolicy) (value : Value) (key : String) (tree : Tree) : Bool :=
  (tree.get? key).any Value.isObject && !value.isObject && policy == .fail

/-- Whether a leaf stands where an object would go, and may not be let go. -/
def refusesObject (policy : ConflictPolicy) (key : String) (tree : Tree) : Bool :=
  (tree.get? key).any (!·.isObject) && policy == .fail

/-- The keys up to the node that keeps a value from being set. -/
def obstacleAt? (policy : ConflictPolicy) (value : Value) :
    List String → Tree → Option (List String)
  | [], _ => none
  | [key], tree => if refusesValue policy value key tree then some [key] else none
  | key :: key' :: keys, tree =>
    if refusesObject policy key tree then some [key]
    else (obstacleAt? policy value (key' :: keys) (childAt key tree)).map (key :: ·)

/-- The path of the node that keeps a value from being set. -/
def obstacle? (policy : ConflictPolicy) (value : Value) (path : String) (tree : Tree) :
    Option String :=
  (segments? path).bind fun keys => (obstacleAt? policy value keys tree).map joinAll

theorem setAt_singleton (tree : Tree) :
    setAt policy value [key] tree =
      if refusesValue policy value key tree then .error [key] else .ok (tree.put key value) := by
  rw [setAt, refusesValue]
  cases hget : tree.get? key with
  | none => rfl
  | some w =>
    cases w with
    | object fields => cases hv : value.isObject <;> cases policy <;> rfl
    | _ => rfl

theorem setAt_cons_cons (tree : Tree) :
    setAt policy value (key :: key' :: keys) tree =
      if refusesObject policy key tree then .error [key]
      else
        match setAt policy value (key' :: keys) (childAt key tree) with
        | .ok child => .ok (tree.put key (.object child))
        | .error blocked => .error (key :: blocked) := by
  rw [setAt, refusesObject, childAt]
  cases hget : tree.get? key with
  | none => rfl
  | some w =>
    cases w with
    | object fields => rfl
    | _ => cases policy <;> rfl

theorem setAt_eq_error_iff {tree : Tree} {blocked : List String} :
    setAt policy value keys tree = .error blocked ↔
      obstacleAt? policy value keys tree = some blocked := by
  induction keys generalizing tree blocked with
  | nil => simp [setAt, obstacleAt?]
  | cons key keys ih =>
    cases keys with
    | nil =>
      rw [setAt_singleton, obstacleAt?]
      split <;> simp
    | cons key' keys =>
      rw [setAt_cons_cons, obstacleAt?]
      split
      · simp
      · cases hset : setAt policy value (key' :: keys) (childAt key tree) with
        | error b => simp [ih.mp hset]
        | ok child =>
          cases hob : obstacleAt? policy value (key' :: keys) (childAt key tree) with
          | none => simp
          | some b => simp [ih.mpr hob] at hset

theorem obstacleAt?_cons_cons_eq_none {tree : Tree} :
    obstacleAt? policy value (key :: key' :: keys) tree = none ↔
      refusesObject policy key tree = false ∧
        obstacleAt? policy value (key' :: keys) (childAt key tree) = none := by
  rw [obstacleAt?]
  split <;> simp_all

theorem exists_setAt_of_obstacleAt? {tree : Tree} (h : obstacleAt? policy value keys tree = none) :
    ∃ tree', setAt policy value keys tree = .ok tree' := by
  cases hset : setAt policy value keys tree with
  | ok tree' => exact ⟨tree', rfl⟩
  | error blocked =>
    rw [setAt_eq_error_iff.mp hset] at h
    cases h

theorem setAt_cons_cons_ok {tree tree' : Tree}
    (h : setAt policy value (key :: key' :: keys) tree = .ok tree') :
    refusesObject policy key tree = false ∧
      ∃ child', setAt policy value (key' :: keys) (childAt key tree) = .ok child' ∧
        tree' = tree.put key (.object child') := by
  rw [setAt_cons_cons] at h
  split at h
  · cases h
  · rename_i hfree
    split at h
    · rename_i child' hchild
      cases h
      exact ⟨by simpa using hfree, child', hchild, rfl⟩
    · cases h

theorem setAt_singleton_ok {tree tree' : Tree} (h : setAt policy value [key] tree = .ok tree') :
    refusesValue policy value key tree = false ∧ tree' = tree.put key value := by
  rw [setAt_singleton] at h
  split at h
  · cases h
  · rename_i hfree
    cases h
    exact ⟨by simpa using hfree, rfl⟩

theorem childAt_put (tree : Tree) (child : Tree) :
    childAt key (tree.put key (.object child)) = child := by
  rw [childAt, Entries.get?_put_same]

/-! ## What stays well formed -/

theorem keysDistinct_put {tree : Tree} (h : (Value.object tree).KeysDistinct)
    (hvalue : value.KeysDistinct) : (Value.object (tree.put key value)).KeysDistinct := by
  cases h with
  | object hkeys hvalues =>
    refine .object (Entries.nodup_put hkeys value) ?_
    intro field hfield
    rcases Entries.mem_put hfield with rfl | hfield
    · exact hvalue
    · exact hvalues field hfield

theorem keysAddressable_put {tree : Tree} (h : (Value.object tree).KeysAddressable)
    (hkey : Catalog.isAddressable key = true) (hvalue : value.KeysAddressable) :
    (Value.object (tree.put key value)).KeysAddressable := by
  cases h with
  | leaf hleaf => cases hleaf
  | object hkeys hvalues =>
    refine .object ?_ ?_
    · intro field hfield
      rcases Entries.mem_put hfield with rfl | hfield
      · exact hkey
      · exact hkeys field hfield
    · intro field hfield
      rcases Entries.mem_put hfield with rfl | hfield
      · exact hvalue
      · exact hvalues field hfield

theorem keysDistinct_childAt {tree : Tree} (h : (Value.object tree).KeysDistinct) :
    (Value.object (childAt key tree)).KeysDistinct := by
  rw [childAt]
  split
  · rename_i child hget
    exact keysDistinct_of_get? h hget
  · exact Value.keysDistinct_nil

theorem keysAddressable_childAt {tree : Tree} (h : (Value.object tree).KeysAddressable) :
    (Value.object (childAt key tree)).KeysAddressable := by
  rw [childAt]
  split
  · rename_i child hget
    cases h with
    | leaf hleaf => cases hleaf
    | object hkeys hvalues => exact hvalues _ (Entries.mem_of_get? hget)
  · exact Value.keysAddressable_nil

theorem setAt_keysDistinct {tree tree' : Tree} (h : (Value.object tree).KeysDistinct)
    (hvalue : value.KeysDistinct) (hset : setAt policy value keys tree = .ok tree') :
    (Value.object tree').KeysDistinct := by
  induction keys generalizing tree tree' with
  | nil =>
    cases hset
    exact h
  | cons key keys ih =>
    cases keys with
    | nil =>
      obtain ⟨_, rfl⟩ := setAt_singleton_ok hset
      exact keysDistinct_put h hvalue
    | cons key' keys =>
      obtain ⟨_, child', hchild, rfl⟩ := setAt_cons_cons_ok hset
      exact keysDistinct_put h (ih (keysDistinct_childAt h) hchild)

theorem setAt_keysAddressable {tree tree' : Tree} (h : (Value.object tree).KeysAddressable)
    (hkeys : Addressable keys) (hvalue : value.KeysAddressable)
    (hset : setAt policy value keys tree = .ok tree') : (Value.object tree').KeysAddressable := by
  induction keys generalizing tree tree' with
  | nil =>
    cases hset
    exact h
  | cons key keys ih =>
    obtain ⟨hkey, hrest⟩ := Addressable.cons.mp hkeys
    cases keys with
    | nil =>
      obtain ⟨_, rfl⟩ := setAt_singleton_ok hset
      exact keysAddressable_put h hkey hvalue
    | cons key' keys =>
      obtain ⟨_, child', hchild, rfl⟩ := setAt_cons_cons_ok hset
      exact keysAddressable_put h hkey (ih (keysAddressable_childAt h) hrest hchild)

/-! ## Which leaves a set replaces -/

def keyedLeavesBeside (keys : List String) (leaves : List (List String × Value)) :
    List (List String × Value) :=
  leaves.filter fun l => !comparableKeys keys l.1

theorem keyedLeavesBeside_append (keys : List String) (xs ys : List (List String × Value)) :
    keyedLeavesBeside keys (xs ++ ys) = keyedLeavesBeside keys xs ++ keyedLeavesBeside keys ys :=
  List.filter_append xs ys

theorem keyedLeavesBeside_nil (xs : List (List String × Value)) : keyedLeavesBeside [] xs = [] := by
  simp [keyedLeavesBeside]

theorem keyedLeavesBeside_underKey (key : String) (keys : List String)
    (xs : List (List String × Value)) :
    keyedLeavesBeside (key :: keys) (xs.map (underKey key)) =
      (keyedLeavesBeside keys xs).map (underKey key) := by
  simp only [keyedLeavesBeside, List.filter_map]
  congr 1
  refine List.filter_congr fun l _ => ?_
  rw [Function.comp_apply, underKey, comparableKeys_cons_same]

theorem keyedLeavesBeside_of_not_mem {tree : Tree} (h : key ∉ tree.map Prod.fst)
    (keys : List String) :
    keyedLeavesBeside (key :: keys) (keyedLeaves tree) = keyedLeaves tree := by
  rw [keyedLeavesBeside, List.filter_eq_self]
  intro l hl
  obtain ⟨k, hk, below, hkeys⟩ := exists_cons_of_mem_keyedLeaves hl
  have hne : key ≠ k := fun heq => h (heq ▸ hk)
  rw [hkeys, comparableKeys_cons_ne hne]
  rfl

/-- Putting a field replaces the leaves behind its key where they stand, or adds to the end. -/
theorem keyedLeaves_put {tree : Tree} (h : (Value.object tree).KeysDistinct) (key : String)
    (keys : List String) (w : Value) :
    ∃ before after,
      keyedLeavesBeside (key :: keys) (keyedLeaves tree) =
        before ++ (keyedLeavesBeside keys ((tree.get? key).elim [] keyedLeavesAt)).map
          (underKey key) ++ after ∧
      keyedLeaves (tree.put key w) = before ++ (keyedLeavesAt w).map (underKey key) ++ after := by
  cases hget : tree.get? key with
  | none =>
    have hmem : key ∉ tree.map Prod.fst := Entries.get?_eq_none_iff.mp hget
    refine ⟨keyedLeaves tree, [], ?_, ?_⟩
    · rw [keyedLeavesBeside_of_not_mem hmem]
      simp [keyedLeavesBeside]
    · rw [Entries.put_of_not_mem hmem, keyedLeaves_append, keyedLeaves_cons, keyedLeaves_nil]
      simp
  | some u =>
    obtain ⟨before, after, rfl, hbefore⟩ := Entries.exists_split_of_get? hget
    have hafter : key ∉ after.map Prod.fst := by
      cases h with
      | object hkeys _ =>
        rw [List.map_append, List.map_cons, List.nodup_append] at hkeys
        exact (List.nodup_cons.mp hkeys.2.1).1
    refine ⟨keyedLeaves before, keyedLeaves after, ?_, ?_⟩
    · rw [keyedLeaves_append, keyedLeaves_cons, keyedLeavesBeside_append,
        keyedLeavesBeside_append, keyedLeavesBeside_of_not_mem hbefore,
        keyedLeavesBeside_of_not_mem hafter, keyedLeavesBeside_underKey, List.append_assoc]
      rfl
    · rw [Entries.put_append_cons hbefore, keyedLeaves_append, keyedLeaves_cons, List.append_assoc]

theorem keyedLeavesBeside_elim (tree : Tree) :
    keyedLeavesBeside (key' :: keys) ((tree.get? key).elim [] keyedLeavesAt) =
      keyedLeavesBeside (key' :: keys) (keyedLeaves (childAt key tree)) := by
  rw [childAt]
  cases hget : tree.get? key with
  | none => rfl
  | some w =>
    cases w with
    | object child => rfl
    | _ => simp [keyedLeavesBeside, keyedLeavesAt, comparableKeys]

/-- Setting replaces the comparable leaves by those of the value. -/
theorem keyedLeaves_setAt {tree tree' : Tree} (hne : keys ≠ [])
    (h : (Value.object tree).KeysDistinct) (hset : setAt policy value keys tree = .ok tree') :
    ∃ before after,
      keyedLeavesBeside keys (keyedLeaves tree) = before ++ after ∧
      keyedLeaves tree' =
        before ++ (keyedLeavesAt value).map (fun l => (keys ++ l.1, l.2)) ++ after := by
  induction keys generalizing tree tree' with
  | nil => exact absurd rfl hne
  | cons key keys ih =>
    cases keys with
    | nil =>
      obtain ⟨_, rfl⟩ := setAt_singleton_ok hset
      obtain ⟨before, after, hold, hnew⟩ := keyedLeaves_put h key [] value
      refine ⟨before, after, ?_, hnew⟩
      rw [hold, keyedLeavesBeside_nil]
      simp
    | cons key' keys =>
      -- The leaves below the first key split in two around the value, and those of the other keys
      -- stand on both sides of them.
      obtain ⟨_, child', hchild, rfl⟩ := setAt_cons_cons_ok hset
      obtain ⟨inner, inner', hinner, hinner'⟩ :=
        ih (List.cons_ne_nil _ _) (keysDistinct_childAt h) hchild
      obtain ⟨before, after, hold, hnew⟩ := keyedLeaves_put h key (key' :: keys) (.object child')
      refine ⟨before ++ inner.map (underKey key), inner'.map (underKey key) ++ after, ?_, ?_⟩
      · rw [hold, keyedLeavesBeside_elim, hinner]
        simp
      · rw [hnew, keyedLeavesAt_object, hinner']
        simp [underKey, Function.comp_def]

/-- Where a leaf may be set without force, no other leaf is comparable with it. -/
theorem eq_of_comparableKeys {tree : Tree} (h : (Value.object tree).KeysDistinct)
    (hleaf : value.isObject = false) (hfree : obstacleAt? .fail value keys tree = none)
    {l : List String × Value} (hl : l ∈ keyedLeaves tree)
    (hcomp : comparableKeys keys l.1 = true) (hne : keys ≠ []) : l.1 = keys := by
  induction keys generalizing tree l with
  | nil => exact absurd rfl hne
  | cons key keys ih =>
    obtain ⟨lkeys, v⟩ := l
    obtain ⟨k, _, below, rfl⟩ : ∃ k ∈ tree.map Prod.fst, ∃ below, lkeys = k :: below :=
      exists_cons_of_mem_keyedLeaves hl
    by_cases hk : key = k
    case neg => simp [comparableKeys_cons_ne hk] at hcomp
    subst hk
    rw [comparableKeys_cons_same] at hcomp
    obtain ⟨w, hget, hmem⟩ := (mem_keyedLeaves_cons_iff h).mp hl
    cases keys with
    | nil =>
      have hw : w.isObject = false := by
        simpa [obstacleAt?, refusesValue, hget, hleaf] using hfree
      rw [keyedLeavesAt_leaf hw, List.mem_singleton] at hmem
      cases hmem
      rfl
    | cons key' keys =>
      obtain ⟨hobject, hchild⟩ := obstacleAt?_cons_cons_eq_none.mp hfree
      obtain ⟨child, rfl⟩ : ∃ child, w = .object child := by
        cases w with
        | object child => exact ⟨child, rfl⟩
        | _ => simp [refusesObject, hget, Value.isObject] at hobject
      have hbelow : below = key' :: keys := by
        have hmem' : (below, v) ∈ keyedLeaves (childAt key tree) := by rwa [childAt, hget]
        exact ih (keysDistinct_childAt h) hchild hmem' hcomp (List.cons_ne_nil _ _)
      rw [hbelow]

/-! ## Obstacles -/

theorem obstacleAt?_nil (policy : ConflictPolicy) (value : Value) (keys : List String) :
    obstacleAt? policy value keys [] = none := by
  induction keys with
  | nil => rfl
  | cons key keys ih =>
    cases keys with
    | nil => rfl
    | cons key' keys => exact obstacleAt?_cons_cons_eq_none.mpr ⟨rfl, ih⟩

theorem obstacle?_nil (policy : ConflictPolicy) (value : Value) (path : String) :
    obstacle? policy value path [] = none := by
  simp [obstacle?, obstacleAt?_nil]

theorem obstacleAt?_overwrite (keys : List String) (tree : Tree) :
    obstacleAt? .overwrite value keys tree = none := by
  induction keys generalizing tree with
  | nil => rfl
  | cons key keys ih =>
    cases keys with
    | nil => simp [obstacleAt?, refusesValue]
    | cons key' keys => simp [obstacleAt?_cons_cons_eq_none, refusesObject, ih]

theorem obstacleAt?_congr {tree tree' : Tree} (hget : tree'.get? key = tree.get? key)
    (keys : List String) :
    obstacleAt? policy value (key :: keys) tree' = obstacleAt? policy value (key :: keys) tree := by
  cases keys with
  | nil =>
    have hrefuses : refusesValue policy value key tree' = refusesValue policy value key tree := by
      rw [refusesValue, refusesValue, hget]
    rw [obstacleAt?, obstacleAt?, hrefuses]
  | cons key' keys =>
    have hrefuses : refusesObject policy key tree' = refusesObject policy key tree := by
      rw [refusesObject, refusesObject, hget]
    have hchild : childAt key tree' = childAt key tree := by
      rw [childAt, childAt, hget]
    rw [obstacleAt?, obstacleAt?, hrefuses, hchild]

/-- What keeps a value from being set does not depend on what is set at incomparable keys. -/
theorem obstacleAt?_setAt {tree tree' : Tree} {other : List String} {u : Value}
    (hcomp : comparableKeys keys other = false) (hset : setAt policy value keys tree = .ok tree') :
    obstacleAt? policy u other tree' = obstacleAt? policy u other tree := by
  induction keys generalizing other tree tree' with
  | nil => simp at hcomp
  | cons key keys ih =>
    cases other with
    | nil => rfl
    | cons k rest =>
      obtain ⟨w, rfl⟩ : ∃ w, tree' = tree.put key w := by
        cases keys with
        | nil => exact ⟨value, (setAt_singleton_ok hset).2⟩
        | cons key' keys =>
          obtain ⟨_, child', _, hput⟩ := setAt_cons_cons_ok hset
          exact ⟨.object child', hput⟩
      -- Under another first key nothing changed; under the same one both sides go a level down.
      by_cases hk : key = k
      case neg => exact obstacleAt?_congr (Entries.get?_put_ne hk w tree) rest
      subst hk
      rw [comparableKeys_cons_same] at hcomp
      cases keys with
      | nil => simp at hcomp
      | cons key' keys =>
        cases rest with
        | nil => simp [comparableKeys] at hcomp
        | cons k' rest =>
          obtain ⟨hfree, child', hchild, hput⟩ := setAt_cons_cons_ok hset
          have hfree' : refusesObject policy key (tree.put key (.object child')) = false := by
            rw [refusesObject, Entries.get?_put_same]
            rfl
          rw [hput, obstacleAt?, obstacleAt?, hfree, hfree', childAt_put, ih hcomp hchild]

/-! ## Paths -/

theorem set_of_obstacle? {path blocked : String} {tree : Tree}
    (h : obstacle? policy value path tree = some blocked) :
    set tree path value policy = .error (.pathConflict path blocked) := by
  obtain ⟨keys, hkeys, hmap⟩ := Option.bind_eq_some_iff.mp h
  obtain ⟨at?, hat, rfl⟩ := Option.map_eq_some_iff.mp hmap
  simp only [set, hkeys, setAt_eq_error_iff.mpr hat]

theorem setAt_of_set {path : String} {tree tree' : Tree}
    (h : set tree path value policy = .ok tree') :
    ∃ keys, segments? path = some keys ∧ setAt policy value keys tree = .ok tree' := by
  unfold set at h
  split at h
  · cases h
  · rename_i keys hkeys
    split at h
    · rename_i tree'' hset
      cases h
      exact ⟨keys, hkeys, hset⟩
    · cases h

theorem set_of_setAt {path : String} {tree tree' : Tree} (hpath : segments? path = some keys)
    (h : setAt policy value keys tree = .ok tree') : set tree path value policy = .ok tree' := by
  simp only [set, hpath, h]

theorem exists_set_of_obstacle? {path : String} {tree : Tree} {keys : List String}
    (hpath : segments? path = some keys) (h : obstacle? policy value path tree = none) :
    ∃ tree', set tree path value policy = .ok tree' := by
  have hfree : obstacleAt? policy value keys tree = none := by
    simpa [obstacle?, hpath] using h
  obtain ⟨tree', hset⟩ := exists_setAt_of_obstacleAt? hfree
  exact ⟨tree', set_of_setAt hpath hset⟩

theorem obstacle?_of_set {path : String} {tree tree' : Tree}
    (hset : set tree path value policy = .ok tree') : obstacle? policy value path tree = none := by
  cases hblocked : obstacle? policy value path tree with
  | none => rfl
  | some blocked =>
    rw [set_of_obstacle? hblocked] at hset
    cases hset

theorem obstacle?_overwrite (path : String) (tree : Tree) :
    obstacle? .overwrite value path tree = none := by
  rw [obstacle?]
  cases segments? path with
  | none => rfl
  | some keys => simp [obstacleAt?_overwrite]

theorem obstacle?_set {path other : String} {tree tree' : Tree} {u : Value}
    (hcomp : comparable path other = false) (hset : set tree path value policy = .ok tree') :
    obstacle? policy u other tree' = obstacle? policy u other tree := by
  obtain ⟨keys, hkeys, hsetAt⟩ := setAt_of_set hset
  rw [obstacle?, obstacle?]
  cases hother : segments? other with
  | none => rfl
  | some keys' =>
    have hcompKeys := comparableKeys_of_comparable hkeys hother hcomp
    simp only [Option.bind_some, obstacleAt?_setAt hcompKeys hsetAt]

theorem set_wellFormed {path : String} {tree tree' : Tree} (h : tree.WellFormed)
    (hvalue : value.KeysDistinct) (hleaf : value.isObject = false)
    (hset : set tree path value policy = .ok tree') : tree'.WellFormed := by
  obtain ⟨keys, hkeys, hsetAt⟩ := setAt_of_set hset
  exact ⟨setAt_keysDistinct h.distinct hvalue hsetAt,
    setAt_keysAddressable h.addressable (addressable_of_segments? hkeys) (.leaf hleaf) hsetAt⟩

def leavesBeside (path : String) (leaves : List (String × Value)) : List (String × Value) :=
  leaves.filter fun l => !comparable path l.1

theorem leavesBeside_joinAll {tree : Tree} (h : (Value.object tree).KeysAddressable)
    (hne : keys ≠ []) (hkeys : Addressable keys) :
    leavesBeside (joinAll keys) (leaves tree) =
      (keyedLeavesBeside keys (keyedLeaves tree)).map fun l => (joinAll l.1, l.2) := by
  rw [leaves_eq_map h, leavesBeside, keyedLeavesBeside, List.filter_map]
  congr 1
  refine List.filter_congr fun l hl => ?_
  rw [Function.comp_apply, comparable_joinAll hne (ne_nil_of_mem_keyedLeaves hl) hkeys
    (addressable_of_mem_keyedLeaves h hl)]

theorem leaves_set {path : String} {tree tree' : Tree} (h : tree.WellFormed)
    (hleaf : value.isObject = false) (hset : set tree path value policy = .ok tree') :
    ∃ before after, leavesBeside path (leaves tree) = before ++ after ∧
      leaves tree' = before ++ (path, value) :: after := by
  obtain ⟨keys, hkeys, hsetAt⟩ := setAt_of_set hset
  have hne := ne_nil_of_segments? hkeys
  have haddressable := addressable_of_segments? hkeys
  have hnew := setAt_keysAddressable h.addressable haddressable (.leaf hleaf) hsetAt
  obtain ⟨before, after, hold, hleaves⟩ := keyedLeaves_setAt hne h.distinct hsetAt
  refine ⟨before.map fun l => (joinAll l.1, l.2), after.map fun l => (joinAll l.1, l.2), ?_, ?_⟩
  · rw [← joinAll_of_segments? hkeys, leavesBeside_joinAll h.addressable hne haddressable, hold,
      List.map_append]
  · rw [leaves_eq_map hnew, hleaves, keyedLeavesAt_leaf hleaf]
    simp [joinAll_of_segments? hkeys]

/-- A leaf beside the path of a set is still listed, whatever is set. -/
theorem mem_leaves_set {path : String} {tree tree' : Tree} (h : tree.WellFormed)
    (hset : set tree path value policy = .ok tree') {l : String × Value} (hl : l ∈ leaves tree)
    (hbeside : comparable path l.1 = false) : l ∈ leaves tree' := by
  obtain ⟨keys, hkeys, hsetAt⟩ := setAt_of_set hset
  have hne := ne_nil_of_segments? hkeys
  rw [leaves_eq_map h.addressable] at hl
  obtain ⟨k, hk, rfl⟩ := List.mem_map.mp hl
  have haddressable := addressable_of_mem_keyedLeaves h.addressable hk
  rw [← joinAll_of_segments? hkeys, comparable_joinAll hne (ne_nil_of_mem_keyedLeaves hk)
    (addressable_of_segments? hkeys) haddressable] at hbeside
  have hkept : k ∈ keyedLeavesBeside keys (keyedLeaves tree) :=
    List.mem_filter.mpr ⟨hk, by rw [hbeside]; rfl⟩
  obtain ⟨before, after, hold, hnew⟩ := keyedLeaves_setAt hne h.distinct hsetAt
  apply mem_leaves_of_addressable _ haddressable
  rw [hold, List.mem_append] at hkept
  rw [hnew, List.mem_append, List.mem_append]
  exact hkept.imp_left Or.inl

theorem not_comparable_of_no_obstacle {path : String} {tree : Tree} (h : tree.WellFormed)
    (hleaf : value.isObject = false) {keys : List String} (hkeys : segments? path = some keys)
    (hfree : obstacle? .fail value path tree = none) {q : String} (hq : q ∈ leafPaths tree)
    (hne : path ≠ q) : comparable path q = false := by
  rw [leafPaths_eq_map h.addressable] at hq
  obtain ⟨l, hl, rfl⟩ := List.mem_map.mp hq
  have hfreeAt : obstacleAt? .fail value keys tree = none := by
    simpa [obstacle?, hkeys] using hfree
  rw [← joinAll_of_segments? hkeys, comparable_joinAll (ne_nil_of_segments? hkeys)
    (ne_nil_of_mem_keyedLeaves hl) (addressable_of_segments? hkeys)
    (addressable_of_mem_keyedLeaves h.addressable hl)]
  by_cases hcomp : comparableKeys keys l.1 = true
  · have heq := eq_of_comparableKeys h.distinct hleaf hfreeAt hl hcomp (ne_nil_of_segments? hkeys)
    rw [heq, joinAll_of_segments? hkeys] at hne
    exact absurd rfl hne
  · simpa using hcomp

end KeyPath

end LocaleAudit
