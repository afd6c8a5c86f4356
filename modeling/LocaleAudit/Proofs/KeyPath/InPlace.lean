import LocaleAudit.Proofs.KeyPath.Lens

namespace LocaleAudit

/-!
# Setting in place

A value is set in a tree that changes on the way down. Objects are made for missing keys before the
last key is looked at, and yet a refusal leaves the tree as it was: below an object that has just
been made nothing can be in the way. A refusal names the one node that is.
-/

open Json (Value)

namespace KeyPath

variable {policy : ConflictPolicy} {value : Value} {keys upper lower : List String} {tree : Tree}
  {key key' path : String} {blocked : List String}

theorem setInPlaceAt_eq (policy : ConflictPolicy) (value : Value) (keys : List String)
    (tree : Tree) :
    setInPlaceAt policy value keys tree = leftBy tree (setAt policy value keys tree) := by
  induction keys generalizing tree with
  | nil => rfl
  | cons key keys ih =>
    cases keys with
    | nil =>
      rw [setInPlaceAt, setAt]
      split
      · split <;> rfl
      · rfl
    | cons key' keys =>
      -- Into a new object the value always goes, so what is put for it at last replaces it.
      obtain ⟨made, hmade⟩ :=
        exists_setAt_of_obstacleAt? (obstacleAt?_nil policy value (key' :: keys))
      have hnew := ih []
      rw [hmade, leftBy] at hnew
      rw [setInPlaceAt, setAt, ensureKey]
      cases hget : tree.get? key with
      | none =>
        simp only [Entries.get?_put_same, hnew, hmade, Entries.put_put_same, leftBy]
        rfl
      | some w =>
        cases w with
        | object child =>
          simp only [hget, ih child]
          cases hchild : setAt policy value (key' :: keys) child with
          | ok after => rfl
          | error refused =>
            simp only [leftBy, Entries.put_of_get? hget]
            rfl
        | _ =>
          simp only [hget, hnew, hmade]
          split <;> rfl

theorem setInPlace_eq (tree : Tree) (path : String) (value : Value) (policy : ConflictPolicy) :
    setInPlace tree path value policy = leftBy tree (set tree path value policy) := by
  unfold setInPlace set
  cases segments? path with
  | none => rfl
  | some keys =>
    simp only [setInPlaceAt_eq]
    cases setAt policy value keys tree <;> rfl

/-! ## What is in the way -/

/-- Whether a path leads to a node of a kind. -/
def leadsTo (isKind : Value → Bool) (tree : Tree) (path : String) : Bool :=
  (get? tree path).any isKind

def isLeaf (v : Value) : Bool :=
  !v.isObject

/-- The keys of what keeps a value from being set without force: a leaf above, or an object that
would go for a leaf. -/
inductive Obstructs (value : Value) (keys : List String) (tree : Tree) : List String → Prop where
  | leaf {upper lower : List String} (hkeys : keys = upper ++ lower) (hupper : upper ≠ [])
      (hlower : lower ≠ []) (hleaf : (getAt upper tree).any isLeaf = true) :
      Obstructs value keys tree upper
  | object (hobject : (getAt keys tree).any Value.isObject = true)
      (hvalue : value.isObject = false) : Obstructs value keys tree keys

theorem not_obstructs_nil : ¬Obstructs value keys [] blocked := by
  intro h
  cases h with
  | leaf _ _ _ hleaf => simp [getAt_nil] at hleaf
  | object hobject _ => simp [getAt_nil] at hobject

theorem obstructs_singleton :
    Obstructs value [key] tree blocked ↔
      blocked = [key] ∧ refusesValue .fail value key tree = true := by
  constructor
  · intro h
    cases h with
    | leaf hkeys hupper hlower hleaf =>
      rw [List.singleton_eq_append_iff] at hkeys
      rcases hkeys with ⟨rfl, _⟩ | ⟨_, rfl⟩
      · exact absurd rfl hupper
      · exact absurd rfl hlower
    | object hobject hvalue =>
      have hget : (tree.get? key).any Value.isObject = true := hobject
      exact ⟨rfl, by simp [refusesValue, hget, hvalue]⟩
  · rintro ⟨rfl, hrefuses⟩
    simp only [refusesValue, Bool.and_eq_true, Bool.not_eq_true'] at hrefuses
    exact .object hrefuses.1.1 hrefuses.1.2

theorem refusesObject_fail (key : String) (tree : Tree) :
    refusesObject .fail key tree = (getAt [key] tree).any isLeaf :=
  Bool.and_true _

theorem childAt_of_leaf (h : refusesObject .fail key tree = true) : childAt key tree = [] := by
  rw [childAt]
  split
  · rename_i child hget
    simp [refusesObject, hget, Value.isObject] at h
  · rfl

theorem obstructs_cons_cons :
    Obstructs value (key :: key' :: keys) tree blocked ↔
      blocked = [key] ∧ refusesObject .fail key tree = true ∨
        ∃ below, blocked = key :: below ∧
          Obstructs value (key' :: keys) (childAt key tree) below := by
  constructor
  · intro h
    cases h with
    | @leaf upper lower hkeys hupper hlower hleaf =>
      obtain ⟨k, below, rfl⟩ := List.exists_cons_of_ne_nil hupper
      rw [List.cons_append, List.cons.injEq] at hkeys
      obtain ⟨rfl, hkeys⟩ := hkeys
      cases below with
      | nil =>
        exact Or.inl ⟨rfl, (refusesObject_fail key tree).trans hleaf⟩
      | cons k below =>
        rw [getAt_cons_cons] at hleaf
        exact Or.inr ⟨k :: below, rfl, .leaf hkeys (List.cons_ne_nil _ _) hlower hleaf⟩
    | object hobject hvalue =>
      rw [getAt_cons_cons] at hobject
      exact Or.inr ⟨key' :: keys, rfl, .object hobject hvalue⟩
  · rintro (⟨rfl, hrefuses⟩ | ⟨below, rfl, h⟩)
    · rw [refusesObject_fail] at hrefuses
      exact .leaf rfl (List.cons_ne_nil _ _) (List.cons_ne_nil _ _) hrefuses
    · cases h with
      | leaf hkeys hupper hlower hleaf =>
        obtain ⟨k, rest, rfl⟩ := List.exists_cons_of_ne_nil hupper
        refine .leaf (congrArg (key :: ·) hkeys) (List.cons_ne_nil _ _) hlower ?_
        rwa [getAt_cons_cons]
      | object hobject hvalue =>
        refine .object ?_ hvalue
        rwa [getAt_cons_cons]

theorem obstacleAt?_fail_iff :
    obstacleAt? .fail value keys tree = some blocked ↔
      keys ≠ [] ∧ Obstructs value keys tree blocked := by
  induction keys generalizing tree blocked with
  | nil => simp [obstacleAt?]
  | cons key keys ih =>
    cases keys with
    | nil =>
      rw [obstacleAt?, obstructs_singleton]
      cases refusesValue .fail value key tree <;> simp [eq_comm]
    | cons key' keys =>
      rw [obstacleAt?, obstructs_cons_cons]
      cases hrefuses : refusesObject .fail key tree with
      | false =>
        simp only [Bool.false_eq_true, if_false, Option.map_eq_some_iff, ih]
        constructor
        · rintro ⟨below, ⟨_, hbelow⟩, rfl⟩
          exact ⟨List.cons_ne_nil _ _, Or.inr ⟨below, rfl, hbelow⟩⟩
        · rintro ⟨_, ⟨_, hfalse⟩ | ⟨below, rfl, hbelow⟩⟩
          · cases hfalse
          · exact ⟨below, ⟨List.cons_ne_nil _ _, hbelow⟩, rfl⟩
      | true =>
        -- Below a leaf there is nothing that could be in the way as well.
        simp [childAt_of_leaf hrefuses, not_obstructs_nil, eq_comm]

/-- Only one node can be in the way. -/
theorem Obstructs.unique {blocked' : List String} (hne : keys ≠ [])
    (h : Obstructs value keys tree blocked) (h' : Obstructs value keys tree blocked') :
    blocked = blocked' := by
  have heq := obstacleAt?_fail_iff.mpr ⟨hne, h⟩
  rw [obstacleAt?_fail_iff.mpr ⟨hne, h'⟩] at heq
  exact (Option.some.inj heq).symm

/-! ## The error of a set -/

/-- What keeps a value from being set at a path without force. -/
inductive Blocks (tree : Tree) (path : String) (value : Value) : String → Prop where
  | leaf {above : String} (habove : isProperPrefix above path = true)
      (hleaf : leadsTo isLeaf tree above = true)
      (hshortest : ∀ other, isProperPrefix other path = true → leadsTo isLeaf tree other = true →
        above.length ≤ other.length) : Blocks tree path value above
  | object (hobject : leadsTo Value.isObject tree path = true) (hvalue : value.isObject = false) :
      Blocks tree path value path

theorem leadsTo_eq {isKind : Value → Bool} (hkeys : segments? path = some keys) (tree : Tree) :
    leadsTo isKind tree path = (getAt keys tree).any isKind := by
  rw [leadsTo, get?_eq_getAt hkeys]

theorem obstructs_of_above (value : Value) {above : String} (hkeys : segments? path = some keys)
    (habove : isProperPrefix above path = true) (hleaf : leadsTo isLeaf tree above = true) :
    ∃ upper, segments? above = some upper ∧ Obstructs value keys tree upper := by
  obtain ⟨upper, lower, hupper, hne, hlower, rfl⟩ := exists_segments?_of_isProperPrefix hkeys habove
  rw [leadsTo_eq hupper] at hleaf
  exact ⟨upper, hupper, .leaf rfl hne hlower hleaf⟩

theorem blocks_iff {named : String} (hkeys : segments? path = some keys) :
    Blocks tree path value named ↔
      ∃ blocked, Obstructs value keys tree blocked ∧ joinAll blocked = named := by
  constructor
  · intro h
    cases h with
    | leaf habove hleaf _ =>
      obtain ⟨upper, hupper, hobstructs⟩ := obstructs_of_above value hkeys habove hleaf
      exact ⟨upper, hobstructs, joinAll_of_segments? hupper⟩
    | object hobject hvalue =>
      rw [leadsTo_eq hkeys] at hobject
      exact ⟨keys, .object hobject hvalue, joinAll_of_segments? hkeys⟩
  · rintro ⟨blocked, hobstructs, rfl⟩
    cases hobstructs with
    | @leaf _ lower hsplit hne hlower hleaf =>
      subst hsplit
      obtain ⟨habove, hblocked⟩ := isProperPrefix_of_append hkeys hne hlower
      refine .leaf habove ((leadsTo_eq hblocked tree).trans hleaf) ?_
      intro other hother hotherLeaf
      obtain ⟨upper, hupper, hobstructs⟩ := obstructs_of_above value hkeys hother hotherLeaf
      have heq := hobstructs.unique (ne_nil_of_segments? hkeys) (.leaf rfl hne hlower hleaf)
      have hsame : joinAll blocked = other := heq ▸ joinAll_of_segments? hupper
      exact Nat.le_of_eq (congrArg String.length hsame)
    | object hobject hvalue =>
      rw [joinAll_of_segments? hkeys]
      exact .object ((leadsTo_eq hkeys tree).trans hobject) hvalue

theorem set_fail_eq_error_iff (hkeys : segments? path = some keys) {e : Error} :
    set tree path value .fail = .error e ↔
      ∃ named, e = .pathConflict path named ∧ Blocks tree path value named := by
  have hne := ne_nil_of_segments? hkeys
  simp only [blocks_iff hkeys]
  constructor
  · intro h
    cases hset : setAt .fail value keys tree with
    | ok tree' =>
      rw [set_of_setAt hkeys hset] at h
      cases h
    | error blocked =>
      simp only [set, hkeys, hset] at h
      cases h
      have hobstructs := (obstacleAt?_fail_iff.mp (setAt_eq_error_iff.mp hset)).2
      exact ⟨joinAll blocked, rfl, blocked, hobstructs, rfl⟩
  · rintro ⟨_, rfl, blocked, hobstructs, rfl⟩
    have hset := setAt_eq_error_iff.mpr (obstacleAt?_fail_iff.mpr ⟨hne, hobstructs⟩)
    simp only [set, hkeys, hset]

theorem exists_blocks_iff (hkeys : segments? path = some keys) :
    (∃ named, Blocks tree path value named) ↔
      (∃ above, isProperPrefix above path = true ∧ leadsTo isLeaf tree above = true) ∨
        leadsTo Value.isObject tree path = true ∧ value.isObject = false := by
  constructor
  · rintro ⟨named, hblocks⟩
    cases hblocks with
    | leaf habove hleaf _ => exact Or.inl ⟨named, habove, hleaf⟩
    | object hobject hvalue => exact Or.inr ⟨hobject, hvalue⟩
  · rintro (⟨above, habove, hleaf⟩ | ⟨hobject, hvalue⟩)
    · obtain ⟨upper, _, hobstructs⟩ := obstructs_of_above value hkeys habove hleaf
      exact ⟨joinAll upper, (blocks_iff hkeys).mpr ⟨upper, hobstructs, rfl⟩⟩
    · exact ⟨path, .object hobject hvalue⟩

theorem set_eq_invalidPath_iff {q : String} :
    set tree path value policy = .error (.invalidPath q) ↔ q = path ∧ segments? path = none := by
  cases hkeys : segments? path with
  | none => simp [set, hkeys, eq_comm]
  | some keys =>
    cases hset : setAt policy value keys tree <;> simp [set, hkeys, hset]

/-- What is left of a tree in which a value is set in place, and when there is an error. -/
structure AllOrNothing (tree : Tree) (path : String) (value : Value) (policy : ConflictPolicy)
    (after : Tree) (result : Except Error Unit) : Prop where
  kept : ∀ e, result = .error e → after = tree
  invalid : ∀ q, result = .error (.invalidPath q) ↔ q = path ∧ segments? path = none
  overwrite : policy = .overwrite → ∀ e, result = .error e → e = .invalidPath path
  conflict : policy = .fail → (segments? path).isSome = true →
    ((∃ named, result = .error (.pathConflict path named)) ↔
      (∃ above, isProperPrefix above path = true ∧ leadsTo isLeaf tree above = true) ∨
        leadsTo Value.isObject tree path = true ∧ value.isObject = false)
  blocked : policy = .fail → (segments? path).isSome = true → ∀ e, result = .error e ↔
    ∃ named, e = .pathConflict path named ∧ Blocks tree path value named

theorem leftBy_snd_eq_error_iff {result : Except Error Tree} {e : Error} :
    (leftBy tree result).2 = .error e ↔ result = .error e := by
  cases result <;> simp [leftBy]

/-- Setting in place gives an error exactly for a path that is none, and without force for a path
on which something is in the way. The error names the first that is; the tree is then the one that
was given, down to the order of its keys. -/
theorem setInPlace_allOrNothing (tree : Tree) (path : String) (value : Value)
    (policy : ConflictPolicy) :
    AllOrNothing tree path value policy (setInPlace tree path value policy).1
      (setInPlace tree path value policy).2 := by
  rw [setInPlace_eq]
  constructor
  · intro e he
    rw [leftBy_snd_eq_error_iff] at he
    rw [he, leftBy]
  · intro q
    rw [leftBy_snd_eq_error_iff, set_eq_invalidPath_iff]
  · rintro rfl e he
    rw [leftBy_snd_eq_error_iff] at he
    cases hkeys : segments? path with
    | none =>
      simp only [set, hkeys] at he
      cases he
      rfl
    | some keys =>
      obtain ⟨tree', hset⟩ := exists_set_of_obstacle? hkeys (obstacle?_overwrite path tree)
      rw [hset] at he
      cases he
  · rintro rfl hpath
    obtain ⟨keys, hkeys⟩ := Option.isSome_iff_exists.mp hpath
    rw [← exists_blocks_iff hkeys]
    simp [leftBy_snd_eq_error_iff, set_fail_eq_error_iff hkeys]
  · rintro rfl hpath e
    obtain ⟨keys, hkeys⟩ := Option.isSome_iff_exists.mp hpath
    rw [leftBy_snd_eq_error_iff, set_fail_eq_error_iff hkeys]

example : setInPlace [("a", .string "x")] "b.c" .null .fail =
    ([("a", .string "x"), ("b", .object [("c", .null)])], .ok ()) := rfl

example : setInPlace [("a", .string "x")] "a.b.c" .null .fail =
    ([("a", .string "x")], .error (.pathConflict "a.b.c" "a")) := rfl

end KeyPath

end LocaleAudit
