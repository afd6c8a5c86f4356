import LocaleAudit.Proofs.KeyPath.Setting

namespace LocaleAudit

/-!
# Looking up what is set

A value that is set is found at its path, what lies beside the path is left alone, and on the way
down the keys of every object keep their places. Setting what is there already changes nothing.
Values that are set at incomparable paths go in in either order; only the order in which new keys
stand may tell which was first.
-/

open Json (Value)

/-- The same value, up to the order of the keys in its objects. -/
inductive Json.Value.Reordered : Value → Value → Prop where
  | refl (v : Value) : Reordered v v
  | object {fields others : Json.Fields}
      (hnames : (fields.map Prod.fst).Perm (others.map Prod.fst))
      (hsame : ∀ key v w, fields.get? key = some v → others.get? key = some w → Reordered v w) :
      Reordered (.object fields) (.object others)

namespace KeyPath

variable {policy policy' : ConflictPolicy} {value u w : Value} {key key' : String}
  {keys other upper lower : List String} {tree tree' left right : Tree}

/-! ## Along the keys -/

theorem getAt_nil (keys : List String) : getAt keys [] = none := by
  cases keys with
  | nil => rfl
  | cons key keys => cases keys <;> rfl

theorem getAt_cons_cons (key key' : String) (keys : List String) (tree : Tree) :
    getAt (key :: key' :: keys) tree = getAt (key' :: keys) (childAt key tree) := by
  rw [getAt, childAt]
  cases tree.get? key with
  | none => exact (getAt_nil _).symm
  | some v =>
    cases v with
    | object child => rfl
    | _ => exact (getAt_nil _).symm

theorem getAt_congr (h : tree'.get? key = tree.get? key) (keys : List String) :
    getAt (key :: keys) tree' = getAt (key :: keys) tree := by
  cases keys with
  | nil => exact h
  | cons key' keys => rw [getAt, getAt, h]

/-- A set puts one field, and what it puts depends on the field that was there. -/
theorem setAt_cons_ok (h : setAt policy value (key :: keys) tree = .ok tree') :
    ∃ w, tree' = tree.put key w ∧ ∀ other : Tree, other.get? key = tree.get? key →
      setAt policy value (key :: keys) other = .ok (other.put key w) := by
  cases keys with
  | nil =>
    obtain ⟨hfree, rfl⟩ := setAt_singleton_ok h
    refine ⟨value, rfl, fun other hget => ?_⟩
    have hfree' : refusesValue policy value key other = false := by
      rw [← hfree, refusesValue, refusesValue, hget]
    simp [setAt_singleton, hfree']
  | cons key' keys =>
    obtain ⟨hfree, child', hchild, rfl⟩ := setAt_cons_cons_ok h
    refine ⟨.object child', rfl, fun other hget => ?_⟩
    have hfree' : refusesObject policy key other = false := by
      rw [← hfree, refusesObject, refusesObject, hget]
    have hchild' : childAt key other = childAt key tree := by
      rw [childAt, childAt, hget]
    simp [setAt_cons_cons, hfree', hchild', hchild]

theorem getAt_setAt (hne : keys ≠ []) (hset : setAt policy value keys tree = .ok tree') :
    getAt keys tree' = some value := by
  induction keys generalizing tree tree' with
  | nil => exact absurd rfl hne
  | cons key keys ih =>
    cases keys with
    | nil =>
      obtain ⟨_, rfl⟩ := setAt_singleton_ok hset
      exact Entries.get?_put_same key value tree
    | cons key' keys =>
      obtain ⟨_, child', hchild, rfl⟩ := setAt_cons_cons_ok hset
      rw [getAt_cons_cons, childAt_put]
      exact ih (List.cons_ne_nil _ _) hchild

theorem getAt_setAt_beside (hcomp : comparableKeys keys other = false)
    (hset : setAt policy value keys tree = .ok tree') : getAt other tree' = getAt other tree := by
  induction keys generalizing other tree tree' with
  | nil => simp at hcomp
  | cons key keys ih =>
    cases other with
    | nil => rfl
    | cons k rest =>
      by_cases hk : key = k
      case neg =>
        obtain ⟨w, rfl, _⟩ := setAt_cons_ok hset
        exact getAt_congr (Entries.get?_put_ne hk w tree) rest
      subst hk
      rw [comparableKeys_cons_same] at hcomp
      -- Neither of two incomparable sequences is empty, so both go a level down.
      cases keys with
      | nil => simp at hcomp
      | cons key' keys =>
        cases rest with
        | nil => simp [comparableKeys] at hcomp
        | cons k' rest =>
          obtain ⟨_, child', hchild, rfl⟩ := setAt_cons_cons_ok hset
          rw [getAt_cons_cons, getAt_cons_cons, childAt_put]
          exact ih hcomp hchild

theorem names_setAt (hset : setAt policy value keys tree = .ok tree') :
    tree.map Prod.fst <+: tree'.map Prod.fst := by
  cases keys with
  | nil =>
    cases hset
    exact List.prefix_refl _
  | cons key keys =>
    obtain ⟨w, rfl, _⟩ := setAt_cons_ok hset
    exact Entries.names_put key w tree

/-- The object behind a sequence of keys; without one, an empty object. -/
def objectAt (keys : List String) (tree : Tree) : Tree :=
  match getAt keys tree with
  | some (.object fields) => fields
  | _ => []

theorem objectAt_cons_cons (key key' : String) (keys : List String) (tree : Tree) :
    objectAt (key :: key' :: keys) tree = objectAt (key' :: keys) (childAt key tree) := by
  rw [objectAt, objectAt, getAt_cons_cons]

/-- On its way down a set passes objects, in each of which it sets the value behind the keys that
are left. -/
theorem exists_object_above (hupper : upper ≠ []) (hlower : lower ≠ [])
    (hset : setAt policy value (upper ++ lower) tree = .ok tree') :
    ∃ fields, getAt upper tree' = some (.object fields) ∧
      setAt policy value lower (objectAt upper tree) = .ok fields := by
  induction upper generalizing tree tree' with
  | nil => exact absurd rfl hupper
  | cons key upper ih =>
    cases upper with
    | nil =>
      obtain ⟨k, rest, rfl⟩ := List.exists_cons_of_ne_nil hlower
      obtain ⟨_, child', hchild, rfl⟩ := setAt_cons_cons_ok hset
      exact ⟨child', Entries.get?_put_same key _ tree, hchild⟩
    | cons key' upper =>
      obtain ⟨_, child', hchild, rfl⟩ := setAt_cons_cons_ok hset
      rw [getAt_cons_cons, childAt_put, objectAt_cons_cons]
      exact ih (List.cons_ne_nil _ _) hchild

theorem setAt_getAt (policy : ConflictPolicy) (h : getAt keys tree = some w) :
    setAt policy w keys tree = .ok tree := by
  induction keys generalizing tree with
  | nil => cases h
  | cons key keys ih =>
    cases keys with
    | nil =>
      have hget : tree.get? key = some w := h
      have hfree : refusesValue policy w key tree = false := by
        cases hw : w.isObject <;> simp [refusesValue, hget, hw]
      simp [setAt_singleton, hfree, Entries.put_of_get? hget]
    | cons key' keys =>
      obtain ⟨child, hget, hchild⟩ :
          ∃ child, tree.get? key = some (.object child) ∧ getAt (key' :: keys) child = some w := by
        rw [getAt] at h
        split at h
        · rename_i child hget
          exact ⟨child, hget, h⟩
        · cases h
      have hfree : refusesObject policy key tree = false := by
        rw [refusesObject, hget]
        rfl
      have hobject : childAt key tree = child := by
        rw [childAt, hget]
      simp [setAt_cons_cons, hfree, hobject, ih hchild, Entries.put_of_get? hget]

/-! ## In either order -/

theorem reordered_put_comm {name other : String} (h : name ≠ other) (v w : Value) (tree : Tree) :
    Value.Reordered (.object ((tree.put name v).put other w))
      (.object ((tree.put other w).put name v)) := by
  refine .object (Entries.names_put_comm h v w tree) fun key a b ha hb => ?_
  have hsame : ((tree.put name v).put other w).get? key =
      ((tree.put other w).put name v).get? key := by
    by_cases hname : name = key
    · subst hname
      rw [Entries.get?_put_ne h.symm, Entries.get?_put_same, Entries.get?_put_same]
    · rw [Entries.get?_put_ne hname]
      by_cases hother : other = key
      · subst hother
        rw [Entries.get?_put_same, Entries.get?_put_same]
      · rw [Entries.get?_put_ne hother, Entries.get?_put_ne hother, Entries.get?_put_ne hname]
  rw [hsame, hb] at ha
  cases ha
  exact .refl _

theorem reordered_put {v w : Value} (h : v.Reordered w) (key : String) (tree : Tree) :
    Value.Reordered (.object (tree.put key v)) (.object (tree.put key w)) := by
  refine .object ?_ fun k a b ha hb => ?_
  · by_cases hmem : key ∈ tree.map Prod.fst
    · rw [Entries.put_names_of_mem v hmem, Entries.put_names_of_mem w hmem]
    · rw [Entries.put_names_of_not_mem v hmem, Entries.put_names_of_not_mem w hmem]
  · by_cases hk : key = k
    · subst hk
      rw [Entries.get?_put_same] at ha hb
      cases ha
      cases hb
      exact h
    · rw [Entries.get?_put_ne hk] at ha hb
      rw [ha] at hb
      cases hb
      exact .refl a

theorem setAt_put_object {child after : Tree}
    (h : setAt policy value (key' :: keys) child = .ok after) :
    setAt policy value (key :: key' :: keys) (tree.put key (.object child)) =
      .ok (tree.put key (.object after)) := by
  have hfree : refusesObject policy key (tree.put key (.object child)) = false := by
    rw [refusesObject, Entries.get?_put_same]
    rfl
  simp [setAt_cons_cons, hfree, childAt_put, h, Entries.put_put_same]

theorem setAt_comm (hcomp : comparableKeys keys other = false)
    (hleft : setAt policy value keys tree = .ok left)
    (hright : setAt policy' u other tree = .ok right) :
    ∃ both both', setAt policy' u other left = .ok both ∧
      setAt policy value keys right = .ok both' ∧
      Value.Reordered (.object both) (.object both') := by
  induction keys generalizing other tree left right with
  | nil => simp at hcomp
  | cons key keys ih =>
    cases other with
    | nil => simp [comparableKeys] at hcomp
    | cons k rest =>
      by_cases hk : key = k
      case neg =>
        obtain ⟨v, rfl, hv⟩ := setAt_cons_ok hleft
        obtain ⟨w, rfl, hw⟩ := setAt_cons_ok hright
        exact ⟨_, _, hw _ (Entries.get?_put_ne hk v tree),
          hv _ (Entries.get?_put_ne (Ne.symm hk) w tree), reordered_put_comm hk v w tree⟩
      subst hk
      rw [comparableKeys_cons_same] at hcomp
      cases keys with
      | nil => simp at hcomp
      | cons key' keys =>
        cases rest with
        | nil => simp [comparableKeys] at hcomp
        | cons k' rest =>
          obtain ⟨_, child, hchild, rfl⟩ := setAt_cons_cons_ok hleft
          obtain ⟨_, child', hchild', rfl⟩ := setAt_cons_cons_ok hright
          obtain ⟨both, both', hboth, hboth', hsame⟩ := ih hcomp hchild hchild'
          exact ⟨_, _, setAt_put_object hboth, setAt_put_object hboth',
            reordered_put hsame key tree⟩

/-! ## Along the path -/

variable {path above beside : String}

theorem get?_eq_getAt (hpath : segments? path = some keys) (tree : Tree) :
    get? tree path = getAt keys tree := by
  rw [get?, hpath, Option.bind_some]

/-- What a set leaves of a tree. -/
structure Holds (tree : Tree) (path : String) (value : Value) (tree' : Tree) : Prop where
  found : get? tree' path = some value
  beside : ∀ other, comparable path other = false → get? tree' other = get? tree other
  names : tree.map Prod.fst <+: tree'.map Prod.fst
  /-- Above the path there are objects, and the keys that were in them keep their places. -/
  above : ∀ upper, isProperPrefix upper path = true →
    ∃ fields, get? tree' upper = some (.object fields) ∧
      ∀ old, get? tree upper = some (.object old) → old.map Prod.fst <+: fields.map Prod.fst

theorem holds_of_set (h : set tree path value policy = .ok tree') :
    Holds tree path value tree' := by
  obtain ⟨keys, hkeys, hset⟩ := setAt_of_set h
  constructor
  · rw [get?_eq_getAt hkeys]
    exact getAt_setAt (ne_nil_of_segments? hkeys) hset
  · intro other hcomp
    cases hother : segments? other with
    | none => rw [get?, get?, hother, Option.bind_none, Option.bind_none]
    | some keys' =>
      rw [get?_eq_getAt hother, get?_eq_getAt hother]
      exact getAt_setAt_beside (comparableKeys_of_comparable hkeys hother hcomp) hset
  · exact names_setAt hset
  · intro upper hupper
    obtain ⟨upperKeys, lower, hsegments, hne, hlower, rfl⟩ :=
      exists_segments?_of_isProperPrefix hkeys hupper
    obtain ⟨fields, hfields, hbelow⟩ := exists_object_above hne hlower hset
    rw [get?_eq_getAt hsegments]
    refine ⟨fields, hfields, fun old hold => ?_⟩
    rw [get?_eq_getAt hsegments] at hold
    have hobject : objectAt upperKeys tree = old := by
      rw [objectAt, hold]
    exact hobject ▸ names_setAt hbelow

theorem set_get? (policy : ConflictPolicy) (h : get? tree path = some w) :
    set tree path w policy = .ok tree := by
  obtain ⟨keys, hkeys, hget⟩ := Option.bind_eq_some_iff.mp h
  exact set_of_setAt hkeys (setAt_getAt policy hget)

theorem set_comm (hcomp : comparable path beside = false)
    (hleft : set tree path value policy = .ok left)
    (hright : set tree beside u policy' = .ok right) :
    ∃ both both', set left beside u policy' = .ok both ∧ set right path value policy = .ok both' ∧
      Value.Reordered (.object both) (.object both') := by
  obtain ⟨keys, hkeys, hleft⟩ := setAt_of_set hleft
  obtain ⟨other, hother, hright⟩ := setAt_of_set hright
  obtain ⟨both, both', hboth, hboth', hsame⟩ :=
    setAt_comm (comparableKeys_of_comparable hkeys hother hcomp) hleft hright
  exact ⟨both, both', set_of_setAt hother hboth, set_of_setAt hkeys hboth', hsame⟩

/-- After a set at one path, a set beside it succeeds only where it would have succeeded before. -/
theorem exists_set_before (hcomp : comparable path beside = false)
    (hleft : set tree path value policy = .ok left) {both : Tree}
    (hboth : set left beside u policy = .ok both) :
    ∃ right, set tree beside u policy = .ok right := by
  obtain ⟨other, hother, _⟩ := setAt_of_set hboth
  refine exists_set_of_obstacle? hother ?_
  rw [← obstacle?_set hcomp hleft]
  exact obstacle?_of_set hboth

/-- Looking up and setting obey the laws of a lens, as far as there is something to look up and the
set is not refused: what is set is found, and what is found can be set without any effect. Sets at
incomparable paths do not touch each other, and can change places. -/
theorem set_lens (tree : Tree) (path : String) (value : Value) (policy : ConflictPolicy) :
    (∀ tree', set tree path value policy = .ok tree' → Holds tree path value tree') ∧
    (∀ w, get? tree path = some w → set tree path w policy = .ok tree) ∧
    ∀ left, set tree path value policy = .ok left → ∀ other u, comparable path other = false →
      (∀ policy' right, set tree other u policy' = .ok right →
        ∃ both both', set left other u policy' = .ok both ∧
          set right path value policy = .ok both' ∧
          Value.Reordered (.object both) (.object both')) ∧
      ∀ both, set left other u policy = .ok both →
        ∃ right both', set tree other u policy = .ok right ∧
          set right path value policy = .ok both' ∧
          Value.Reordered (.object both) (.object both') := by
  refine ⟨fun _ => holds_of_set, fun _ => set_get? policy, ?_⟩
  intro left hleft other u hcomp
  refine ⟨fun policy' right hright => set_comm hcomp hleft hright, fun both hboth => ?_⟩
  obtain ⟨right, hright⟩ := exists_set_before hcomp hleft hboth
  obtain ⟨_, both', hagain, hboth', hsame⟩ := set_comm hcomp hleft hright
  rw [hboth] at hagain
  cases hagain
  exact ⟨right, both', hright, hboth', hsame⟩

def backLink : String × Value := ("back", .string "Back")

def exitLink : String × Value := ("exit", .null)

/-- A tree with more links beside the first. -/
def navigationTree (links : Json.Fields) : Tree :=
  [("nav", .object (("home", .string "Home") :: links))]

/-- Two new keys of one object, set in either order. -/
theorem set_lens_navigation :
    Holds (navigationTree []) "nav.back" (.string "Back") (navigationTree [backLink]) ∧
      Value.Reordered (.object (navigationTree [backLink, exitLink]))
        (.object (navigationTree [exitLink, backLink])) ∧
      set (navigationTree []) "nav.home" (.string "Home") .overwrite = .ok (navigationTree []) := by
  obtain ⟨hholds, _, hbeside⟩ := set_lens (navigationTree []) "nav.back" (.string "Back") .fail
  obtain ⟨_, hkeep, _⟩ := set_lens (navigationTree []) "nav.home" .null .overwrite
  refine ⟨hholds _ rfl, ?_, hkeep _ rfl⟩
  obtain ⟨right, both', hright, hboth', hsame⟩ :=
    (hbeside (navigationTree [backLink]) rfl "nav.exit" .null rfl).2
      (navigationTree [backLink, exitLink]) rfl
  have hexit : set (navigationTree []) "nav.exit" .null .fail =
      .ok (navigationTree [exitLink]) := rfl
  rw [hexit] at hright
  cases hright
  have hback : set (navigationTree [exitLink]) "nav.back" (.string "Back") .fail =
      .ok (navigationTree [exitLink, backLink]) := rfl
  rw [hback] at hboth'
  cases hboth'
  exact hsame

end KeyPath

end LocaleAudit
