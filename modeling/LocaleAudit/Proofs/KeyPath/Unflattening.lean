import LocaleAudit.Proofs.KeyPath.Rebuilding

namespace LocaleAudit

/-!
# Which flat maps have a tree

Leaves are set one by one, without force. After some of them the tree has exactly these leaves and
no empty object, so the next one is refused exactly when one of them lies on its way or below it.
-/

open Json (Value)

namespace KeyPath

variable {value : Value} {key : String} {keys : List String} {tree tree' : Tree}

/-! ## No empty objects -/

theorem noEmptyObject_put (h : tree.NoEmptyObject) (hvalue : value.NoEmptyObject) :
    Tree.NoEmptyObject (tree.put key value) := by
  intro field hfield
  rcases Entries.mem_put hfield with rfl | hfield
  · exact hvalue
  · exact h field hfield

theorem put_ne_nil (key : String) (value : Value) (tree : Tree) : tree.put key value ≠ [] := by
  intro hnil
  have hget := Entries.get?_put_same key value tree
  rw [hnil] at hget
  cases hget

theorem noEmptyObject_childAt (h : tree.NoEmptyObject) :
    Tree.NoEmptyObject (childAt key tree) := by
  rw [childAt]
  split
  · rename_i child hget
    exact Tree.noEmptyObject_of_object (h _ (Entries.mem_of_get? hget))
  · simp [Tree.NoEmptyObject]

theorem setAt_noEmptyObject {policy : ConflictPolicy} (hne : keys ≠ []) (h : tree.NoEmptyObject)
    (hvalue : value.NoEmptyObject) (hset : setAt policy value keys tree = .ok tree') :
    tree'.NoEmptyObject ∧ tree' ≠ [] := by
  induction keys generalizing tree tree' with
  | nil => exact absurd rfl hne
  | cons key keys ih =>
    cases keys with
    | nil =>
      obtain ⟨_, rfl⟩ := setAt_singleton_ok hset
      exact ⟨noEmptyObject_put h hvalue, put_ne_nil _ _ _⟩
    | cons key' keys =>
      obtain ⟨_, child', hchild, rfl⟩ := setAt_cons_cons_ok hset
      obtain ⟨hfull, hsome⟩ := ih (List.cons_ne_nil _ _) (noEmptyObject_childAt h) hchild
      exact ⟨noEmptyObject_put h (.object hsome hfull), put_ne_nil _ _ _⟩

/-! ## Obstacles are leaves on the way or below -/

theorem underKey_mem_keyedLeaves {v : Value} (hget : tree.get? key = some v)
    {l : List String × Value} (hl : l ∈ keyedLeavesAt v) : underKey key l ∈ keyedLeaves tree :=
  mem_keyedLeaves.mpr ⟨(key, v), Entries.mem_of_get? hget, l.1, rfl, hl⟩

theorem underKey_mem_of_childAt {l : List String × Value}
    (hl : l ∈ keyedLeaves (childAt key tree)) : underKey key l ∈ keyedLeaves tree := by
  rw [childAt] at hl
  split at hl
  · rename_i child hget
    exact underKey_mem_keyedLeaves hget hl
  · cases hl

/-- Where no leaf lies on the way to a node or below it, it can be set. -/
theorem obstacleAt?_eq_none_of_beside (h : tree.NoEmptyObject)
    (hbeside : ∀ l ∈ keyedLeaves tree, comparableKeys keys l.1 = false) :
    obstacleAt? .fail value keys tree = none := by
  induction keys generalizing tree with
  | nil => rfl
  | cons key keys ih =>
    cases keys with
    | nil =>
      have hfree : refusesValue .fail value key tree = false := by
        cases hget : tree.get? key with
        | none => simp [refusesValue, hget]
        | some v =>
          cases v with
          | object child =>
            -- The object is not empty, so some leaf lies below it.
            have hfull : (Value.object child).NoEmptyObject := h _ (Entries.mem_of_get? hget)
            obtain ⟨l, hl⟩ := List.exists_mem_of_ne_nil _ (keyedLeavesAt_ne_nil hfull)
            have hcomp := hbeside _ (underKey_mem_keyedLeaves hget hl)
            rw [underKey, comparableKeys_cons_same, comparableKeys_nil] at hcomp
            cases hcomp
          | _ => simp [refusesValue, hget, Value.isObject]
      rw [obstacleAt?, hfree]
      rfl
    | cons key' keys =>
      rw [obstacleAt?_cons_cons_eq_none]
      constructor
      · cases hget : tree.get? key with
        | none => simp [refusesObject, hget]
        | some v =>
          cases hleaf : v.isObject with
          | true => simp [refusesObject, hget, hleaf]
          | false =>
            have hmem : ([], v) ∈ keyedLeavesAt v := nil_mem_keyedLeavesAt.mpr ⟨rfl, hleaf⟩
            have hcomp := hbeside _ (underKey_mem_keyedLeaves hget hmem)
            rw [underKey, comparableKeys_cons_same] at hcomp
            simp [comparableKeys] at hcomp
      · apply ih (noEmptyObject_childAt h)
        intro l hl
        have hcomp := hbeside _ (underKey_mem_of_childAt hl)
        rwa [underKey, comparableKeys_cons_same] at hcomp

/-- In a tree without empty objects a leaf can be set without force as soon as its path is valid and
lies beside all others. -/
theorem exists_set_of_beside {path : String} (h : tree.WellFormed) (hfull : tree.NoEmptyObject)
    (hkeys : segments? path = some keys)
    (hbeside : ∀ q ∈ leafPaths tree, comparable path q = false) :
    ∃ tree', set tree path value .fail = .ok tree' := by
  apply exists_set_of_obstacle? hkeys
  have hfree : obstacleAt? .fail value keys tree = none := by
    apply obstacleAt?_eq_none_of_beside hfull
    intro l hl
    have hmem : joinAll l.1 ∈ leafPaths tree := by
      rw [leafPaths_eq_map h.addressable]
      exact List.mem_map_of_mem hl
    have hcomp := hbeside _ hmem
    rwa [← joinAll_of_segments? hkeys, comparable_joinAll (ne_nil_of_segments? hkeys)
      (ne_nil_of_mem_keyedLeaves hl) (addressable_of_segments? hkeys)
      (addressable_of_mem_keyedLeaves h.addressable hl)] at hcomp
  rw [obstacle?, hkeys, Option.bind_some, hfree, Option.map_none]

theorem set_eq_error {policy : ConflictPolicy} {path : String} {e : Error}
    (hkeys : segments? path = some keys) (hset : set tree path value policy = .error e) :
    ∃ blocked, e = .pathConflict path blocked := by
  simp only [set, hkeys] at hset
  split at hset
  · cases hset
  · cases hset
    exact ⟨_, rfl⟩

/-! ## Building a tree -/

/-- What holds of the tree after the given leaves have been set. -/
structure Built (done : Json.Fields) (tree : Tree) : Prop where
  wellFormed : tree.WellFormed
  full : tree.NoEmptyObject
  leaves_perm : (leaves tree).Perm done

theorem Built.start : Built [] [] where
  wellFormed := Tree.WellFormed.nil
  full := by simp [Tree.NoEmptyObject]
  leaves_perm := List.Perm.refl _

/-- Why a leaf is refused beside those that are given. -/
inductive Refused (flat : Json.Fields) (path : String) : Error → Prop where
  | invalid (hpath : segments? path = none) : Refused flat path (.invalidPath path)
  | conflict (blocked : String) {other : String × Value} (hother : other ∈ flat)
      (hne : path ≠ other.1) (hcomp : comparable path other.1 = true) :
      Refused flat path (.pathConflict path blocked)

theorem Refused.mono {flat flat' : Json.Fields} {path : String} {e : Error}
    (h : Refused flat path e) (hsubset : flat ⊆ flat') : Refused flat' path e := by
  cases h with
  | invalid hpath => exact .invalid hpath
  | conflict blocked hother hne hcomp => exact .conflict blocked (hsubset hother) hne hcomp

theorem comparable_iff_of_ne {p q : String} (h : p ≠ q) :
    comparable p q = true ↔ isProperPrefix p q = true ∨ isProperPrefix q p = true := by
  simp [comparable, h]

/-- A valid path is refused only for a conflict. -/
theorem Refused.of_valid {flat : Json.Fields} {path : String} {e : Error}
    (h : Refused flat path e) (hvalid : (segments? path).isSome = true) :
    (∃ blocked, e = .pathConflict path blocked) ∧
      ∃ other ∈ flat, isProperPrefix path other.1 = true ∨ isProperPrefix other.1 path = true := by
  cases h with
  | invalid hpath =>
    rw [hpath] at hvalid
    cases hvalid
  | @conflict blocked other hother hne hcomp =>
    exact ⟨⟨blocked, rfl⟩, other, hother, (comparable_iff_of_ne hne).mp hcomp⟩

namespace Built

variable {done rest : Json.Fields} {path : String}

theorem leafPaths_perm (h : Built done tree) : (leafPaths tree).Perm (done.map Prod.fst) :=
  h.leaves_perm.map Prod.fst

theorem step (h : Built done tree) (hnew : path ∉ done.map Prod.fst) (hvalue : value.KeysDistinct)
    (hleaf : value.isObject = false) (hset : set tree path value .fail = .ok tree') :
    Built (done ++ [(path, value)]) tree' := by
  obtain ⟨keys, hkeys, hsetAt⟩ := setAt_of_set hset
  obtain ⟨before, after, hold, hleaves⟩ := leaves_set h.wellFormed hleaf hset
  -- Nothing was replaced: what is comparable with `path` would have been in the way.
  have hbeside : leavesBeside path (leaves tree) = leaves tree := by
    rw [leavesBeside, List.filter_eq_self]
    intro l hl
    have hmem : l.1 ∈ leafPaths tree := List.mem_map_of_mem hl
    have hne : path ≠ l.1 := by
      rintro rfl
      exact hnew (h.leafPaths_perm.mem_iff.mp hmem)
    rw [not_comparable_of_no_obstacle h.wellFormed hleaf hkeys (obstacle?_of_set hset) hmem hne]
    rfl
  constructor
  · exact set_wellFormed h.wellFormed hvalue hleaf hset
  · exact (setAt_noEmptyObject (ne_nil_of_segments? hkeys) h.full (.leaf hleaf) hsetAt).1
  · have hperm : (before ++ (path, value) :: after).Perm ((path, value) :: leaves tree) := by
      rw [← hbeside, hold]
      exact List.perm_middle
    rw [hleaves]
    exact hperm.trans ((h.leaves_perm.cons _).trans (List.perm_append_singleton _ _).symm)

theorem valid (h : Built done tree) {field : String × Value} (hfield : field ∈ done) :
    (segments? field.1).isSome = true := by
  have hmem : field.1 ∈ leafPaths tree := h.leafPaths_perm.mem_iff.mpr (List.mem_map_of_mem hfield)
  obtain ⟨keys, hkeys⟩ := segments?_of_mem_leafPaths h.wellFormed hmem
  rw [hkeys]
  rfl

theorem prefixFree (h : Built done tree) (a : String × Value) (ha : a ∈ done)
    (b : String × Value) (hb : b ∈ done) : isProperPrefix a.1 b.1 = false := by
  have ha' : a.1 ∈ leafPaths tree := h.leafPaths_perm.mem_iff.mpr (List.mem_map_of_mem ha)
  have hb' : b.1 ∈ leafPaths tree := h.leafPaths_perm.mem_iff.mpr (List.mem_map_of_mem hb)
  exact not_isProperPrefix_of_mem h.wellFormed ha' hb'

theorem refused (h : Built done tree) (hnew : path ∉ done.map Prod.fst) {e : Error}
    (hset : set tree path value .fail = .error e) : Refused done path e := by
  cases hkeys : segments? path with
  | none =>
    simp only [set, hkeys] at hset
    cases hset
    exact .invalid hkeys
  | some keys =>
    obtain ⟨blocked, rfl⟩ := set_eq_error hkeys hset
    cases hall : (leafPaths tree).all fun q => !comparable path q with
    | true =>
      have hbeside : ∀ q ∈ leafPaths tree, comparable path q = false := by
        simpa using hall
      obtain ⟨tree', hok⟩ := exists_set_of_beside h.wellFormed h.full hkeys hbeside
      rw [hset] at hok
      cases hok
    | false =>
      obtain ⟨q, hq, hcomp⟩ := List.all_eq_false.mp hall
      have hmem : q ∈ done.map Prod.fst := h.leafPaths_perm.mem_iff.mp hq
      obtain ⟨other, hother, rfl⟩ := List.mem_map.mp hmem
      refine .conflict blocked hother ?_ (by simpa using hcomp)
      rintro rfl
      exact hnew hmem

/-- A run ends with all leaves in the tree, or at the first leaf that is refused. -/
theorem run (h : Built done tree) (hnames : ((done ++ rest).map Prod.fst).Nodup)
    (hvalues : ∀ field ∈ rest, field.2.KeysDistinct ∧ field.2.isObject = false) :
    (∃ tree', rest.foldlM (fun tree field => set tree field.1 field.2 .fail) tree = .ok tree' ∧
      Built (done ++ rest) tree') ∨
    ∃ e, rest.foldlM (fun tree field => set tree field.1 field.2 .fail) tree = .error e ∧
      ∃ field ∈ rest, Refused (done ++ rest) field.1 e := by
  induction rest generalizing done tree with
  | nil => exact Or.inl ⟨tree, rfl, by simpa using h⟩
  | cons field rest ih =>
    have hnew : field.1 ∉ done.map Prod.fst := by
      intro hmem
      rw [List.map_append, List.nodup_append] at hnames
      exact hnames.2.2 _ hmem _ (List.mem_map_of_mem List.mem_cons_self) rfl
    rw [List.forall_mem_cons] at hvalues
    rw [List.foldlM_cons]
    cases hset : set tree field.1 field.2 .fail with
    | ok next =>
      have hnext : Built (done ++ [field]) next := h.step hnew hvalues.1.1 hvalues.1.2 hset
      rw [List.append_cons] at hnames ⊢
      rcases ih hnext hnames hvalues.2 with hdone | ⟨e, herror, stop, hstop, hrefused⟩
      · exact Or.inl hdone
      · exact Or.inr ⟨e, herror, stop, List.mem_cons_of_mem _ hstop, hrefused⟩
    | error e =>
      have hrefused := (h.refused hnew hset).mono (List.subset_append_left done (field :: rest))
      exact Or.inr ⟨e, rfl, field, List.mem_cons_self, hrefused⟩

end Built

variable {flat : Json.Fields}

theorem unflatten_cases (hflat : (Value.object flat).KeysDistinct)
    (hleaf : ∀ field ∈ flat, field.2.isObject = false) :
    (∃ tree, unflatten flat = .ok tree ∧ Built flat tree) ∨
      ∃ e, unflatten flat = .error e ∧ ∃ field ∈ flat, Refused flat field.1 e := by
  cases hflat with
  | object hnames hvalues =>
    exact Built.start.run hnames fun field hfield => ⟨hvalues field hfield, hleaf field hfield⟩

/-- A flat map of leaves has a tree exactly when its paths are valid and none lies on the way to
another. The tree then holds the map and nothing else; of valid paths, only conflicts keep one from
being built. -/
theorem unflatten_exact (flat : Json.Fields) (hflat : (Value.object flat).KeysDistinct)
    (hleaf : ∀ field ∈ flat, field.2.isObject = false) :
    ((∃ tree, unflatten flat = .ok tree) ↔
      (∀ field ∈ flat, (segments? field.1).isSome = true) ∧
        ∀ a ∈ flat, ∀ b ∈ flat, isProperPrefix a.1 b.1 = false) ∧
    (∀ tree, unflatten flat = .ok tree → (flatten tree).Perm flat ∧ tree.NoEmptyObject) ∧
    ∀ e, unflatten flat = .error e → (∀ field ∈ flat, (segments? field.1).isSome = true) →
      ∃ path blocked, e = .pathConflict path blocked := by
  rcases unflatten_cases hflat hleaf with ⟨tree, htree, hbuilt⟩ | ⟨e, he, field, hfield, hrefused⟩
  · refine ⟨iff_of_true ⟨tree, htree⟩ ⟨fun _ => hbuilt.valid, hbuilt.prefixFree⟩, ?_, ?_⟩
    · intro tree' htree'
      rw [htree] at htree'
      cases htree'
      rw [flatten_eq_leaves hbuilt.wellFormed]
      exact ⟨hbuilt.leaves_perm, hbuilt.full⟩
    · intro e he
      rw [htree] at he
      cases he
  · refine ⟨iff_of_false ?_ ?_, ?_, ?_⟩
    · rintro ⟨tree, htree⟩
      rw [he] at htree
      cases htree
    · rintro ⟨hvalid, hfree⟩
      obtain ⟨_, other, hother, hordered⟩ := hrefused.of_valid (hvalid field hfield)
      rw [hfree field hfield other hother, hfree other hother field hfield] at hordered
      rcases hordered with hordered | hordered
      · cases hordered
      · cases hordered
    · intro tree htree
      rw [he] at htree
      cases htree
    · intro e' he' hvalid
      rw [he] at he'
      cases he'
      obtain ⟨⟨blocked, rfl⟩, _⟩ := hrefused.of_valid (hvalid field hfield)
      exact ⟨field.1, blocked, rfl⟩

/-- Two leaves below one key, with another between them. -/
def interleavedFields : Json.Fields :=
  [("a.b", .string "1"), ("c", .null), ("a.d", .array [.object []])]

/-- The same leaves before one that lies on the way to the first. -/
def crossedFields : Json.Fields :=
  interleavedFields ++ [("a", .string "2")]

theorem interleavedFields_keysDistinct : (Value.object interleavedFields).KeysDistinct := by
  simp [interleavedFields, Value.keysDistinct_cons, Value.keysDistinct_nil,
    Value.KeysDistinct.string, Value.KeysDistinct.null, Value.KeysDistinct.array]

theorem crossedFields_keysDistinct : (Value.object crossedFields).KeysDistinct := by
  simp [crossedFields, interleavedFields, Value.keysDistinct_cons, Value.keysDistinct_nil,
    Value.KeysDistinct.string, Value.KeysDistinct.null, Value.KeysDistinct.array]

theorem unflatten_exact_crossed :
    (∃ tree, unflatten interleavedFields = .ok tree) ∧
      ¬∃ tree, unflatten crossedFields = .ok tree := by
  constructor
  · rw [(unflatten_exact _ interleavedFields_keysDistinct (by decide)).1]
    exact ⟨by decide, by decide⟩
  · rw [(unflatten_exact _ crossedFields_keysDistinct (by decide)).1]
    rintro ⟨_, hfree⟩
    have hinner : isProperPrefix "a" "a.b" = true := by decide
    have hnone : isProperPrefix "a" "a.b" = false :=
      hfree ("a", .string "2") (by simp [crossedFields]) ("a.b", .string "1")
        (by simp [crossedFields, interleavedFields])
    rw [hinner] at hnone
    cases hnone

end KeyPath

end LocaleAudit
