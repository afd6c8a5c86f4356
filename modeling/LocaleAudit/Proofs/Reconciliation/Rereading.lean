import LocaleAudit.Proofs.Catalog.Rendering
import LocaleAudit.Proofs.Reconciliation.Fixpoint

namespace LocaleAudit

/-!
# Reconciled catalogs on disk

A reconciled catalog can be written when the two catalogs it was made from could. What is read
back may have other numbers, but the same leaf paths and the same nodes in the way, so another run
refuses the same paths and adds none.
-/

open Json (Value Number)

/-! ## Writing what was set -/

namespace Json.Value.Within

variable {N : Number → Prop} {depth : Nat} {tree : Tree} {v : Value} {key : String}

theorem of_get? (h : (Value.object tree).Within N (depth + 1)) (hget : tree.get? key = some v) :
    v.Within N depth := by
  cases h with
  | object _ hvalues => exact hvalues _ (Entries.mem_of_get? hget)

theorem put (h : (Value.object tree).Within N (depth + 1)) (hv : v.Within N depth) :
    (Value.object (tree.put key v)).Within N (depth + 1) := by
  cases h with
  | object hkeys hvalues =>
    refine .object (Entries.nodup_put hkeys v) fun field hfield => ?_
    rcases Entries.mem_put hfield with rfl | hfield
    · exact hv
    · exact hvalues field hfield

theorem childAt (h : (Value.object tree).Within N (depth + 1 + 1)) :
    (Value.object (KeyPath.childAt key tree)).Within N (depth + 1) := by
  unfold KeyPath.childAt
  split
  · rename_i child hchild
    exact h.of_get? hchild
  · exact .object (by simp) (by simp)

/-- Behind so many keys a value nests so much less. -/
theorem of_getAt {keys : List String} (h : (Value.object tree).Within N depth)
    (hget : KeyPath.getAt keys tree = some v) :
    ∃ below, depth = below + keys.length ∧ v.Within N below := by
  induction keys generalizing tree depth with
  | nil => cases hget
  | cons key keys ih =>
    obtain ⟨below, rfl⟩ : ∃ below, depth = below + 1 := by
      cases h with
      | object => exact ⟨_, rfl⟩
    cases keys with
    | nil => exact ⟨below, rfl, h.of_get? hget⟩
    | cons key' keys =>
      rw [KeyPath.getAt] at hget
      split at hget
      · rename_i child hchild
        obtain ⟨lower, rfl, hv⟩ := ih (h.of_get? hchild) hget
        exact ⟨lower, rfl, hv⟩
      · cases hget

theorem setAt {policy : ConflictPolicy} {keys : List String} {below : Nat} {tree' : Tree}
    (h : (Value.object tree).Within N (below + keys.length)) (hv : v.Within N below)
    (hset : KeyPath.setAt policy v keys tree = .ok tree') :
    (Value.object tree').Within N (below + keys.length) := by
  induction keys generalizing tree tree' with
  | nil =>
    cases hset
    exact h
  | cons key keys ih =>
    cases keys with
    | nil =>
      obtain ⟨_, rfl⟩ := KeyPath.setAt_singleton_ok hset
      exact h.put hv
    | cons key' keys =>
      obtain ⟨_, child', hchild, rfl⟩ := KeyPath.setAt_cons_cons_ok hset
      exact h.put (ih h.childAt hchild)

end Json.Value.Within

namespace Catalog

theorem badKeyBelow?_of_keysAddressable {tree : Tree} (h : (Value.object tree).KeysAddressable)
    (parent : String) : badKeyBelow? parent tree = none := by
  induction tree using Tree.induction generalizing parent with
  | nil => rfl
  | leaf key v rest hleaf ih =>
    obtain ⟨hkey, _, hrest⟩ := Value.keysAddressable_cons.mp h
    have hv : badKeyAt? (KeyPath.join parent key) v = none := by
      cases v with
      | object fields => cases hleaf
      | _ => rfl
    rw [badKeyBelow?, if_pos hkey, hv, ih hrest, Option.none_or]
  | node key child rest ihchild ih =>
    obtain ⟨hkey, hchild, hrest⟩ := Value.keysAddressable_cons.mp h
    rw [badKeyBelow?, if_pos hkey, badKeyAt?, ihchild hchild, ih hrest, Option.none_or]

theorem writable_empty (N : Number → Prop) : Writable N [] :=
  ⟨.object (by simp) (by simp), rfl⟩

end Catalog

namespace Reconciliation

variable {N : Number → Prop} {marker : Marker} {policy : ConflictPolicy}
  {default target : Catalog} {depth : Nat}

theorem within_placeholder {v : Value} (source goal : String) (h : v.Within N depth) :
    (placeholder marker source goal v).Within N depth := by
  cases v with
  | string s => exact .string depth _
  | _ => exact h

/-- A run puts values where the default catalog has them, so it nests them no deeper. -/
theorem within_run (hd : default.tree.WellFormed)
    (hdefault : (Value.object default.tree).Within N depth) {paths : List String}
    (hpaths : ∀ path ∈ paths, path ∈ default.leafPaths) {p : Progress}
    (h : (Value.object p.tree).Within N depth) :
    (Value.object (paths.foldl (addMissing marker policy default target) p).tree).Within N
      depth := by
  induction paths generalizing p with
  | nil => exact h
  | cons path paths ih =>
    rw [List.forall_mem_cons] at hpaths
    refine ih hpaths.2 ?_
    rcases addMissing_cases marker policy target hd hpaths.1 p with
      ⟨blocked, _, hstep⟩ | ⟨value, tree, _, hget, _, _, hset, hstep⟩
    · rw [hstep]
      exact h
    · rw [hstep]
      obtain ⟨keys, hkeys, hsetAt⟩ := KeyPath.setAt_of_set hset
      have hgetAt : KeyPath.getAt keys default.tree = some value := by
        simpa [Catalog.get?, KeyPath.get?, hkeys] using hget
      obtain ⟨below, rfl, hvalue⟩ := hdefault.of_getAt hgetAt
      exact h.setAt (within_placeholder _ _ hvalue) hsetAt

/-- What reconciling makes of a catalog can be written. -/
theorem writable_reconcile (marker : Marker) (policy : ConflictPolicy)
    (hd : default.tree.WellFormed) (ht : target.tree.WellFormed)
    (hdefault : Catalog.Writable N default.tree) (htarget : Catalog.Writable N target.tree)
    (hlanguage : default.language ≠ target.language) :
    Catalog.Writable N (reconcile marker policy default target).1.tree := by
  obtain ⟨p, hp, hreconcile⟩ := reached_reconcile marker policy target hd ht hlanguage
  have haddressable := hp.wellFormed.addressable
  have htree : (reconcile marker policy default target).1.tree = p.tree := by rw [hreconcile]
  rw [← htree] at haddressable
  refine ⟨?_, Catalog.badKeyBelow?_of_keysAddressable haddressable ""⟩
  rw [reconcile, if_neg hlanguage]
  exact within_run hd hdefault.within (fun q hq => (mem_missingPaths.mp hq).1) htarget.within

/-! ## Reading it again -/

theorem isObject_mapNumbers (f : Number → Number) (v : Value) :
    (v.mapNumbers f).isObject = v.isObject := by
  cases v <;> rfl

theorem get?_mapFields (f : Number → Number) (key : String) (tree : Tree) :
    Entries.get? key (Json.mapFields f tree) = (tree.get? key).map (Value.mapNumbers f) := by
  induction tree with
  | nil => rfl
  | cons field rest ih =>
    obtain ⟨k, v⟩ := field
    rw [Json.mapFields]
    by_cases hk : k = key
    · simp [Entries.get?, hk]
    · simp [Entries.get?, hk, ih]

theorem childAt_mapFields (f : Number → Number) (key : String) (tree : Tree) :
    KeyPath.childAt key (Json.mapFields f tree) =
      Json.mapFields f (KeyPath.childAt key tree) := by
  rw [KeyPath.childAt, KeyPath.childAt, get?_mapFields]
  cases tree.get? key with
  | none => rfl
  | some v => cases v <;> rfl

theorem obstacleAt?_mapFields (f : Number → Number) (value : Value) (keys : List String)
    (tree : Tree) : KeyPath.obstacleAt? policy value keys (Json.mapFields f tree) =
      KeyPath.obstacleAt? policy value keys tree := by
  induction keys generalizing tree with
  | nil => rfl
  | cons key keys ih =>
    have hany : ∀ q : Bool → Bool,
        (Entries.get? key (Json.mapFields f tree)).any (fun v => q v.isObject) =
          (tree.get? key).any fun v => q v.isObject := by
      intro q
      rw [get?_mapFields, Option.any_map]
      simp only [isObject_mapNumbers]
    cases keys with
    | nil =>
      have hobject : (Entries.get? key (Json.mapFields f tree)).any Value.isObject =
          (tree.get? key).any Value.isObject := hany id
      rw [KeyPath.obstacleAt?, KeyPath.obstacleAt?, KeyPath.refusesValue, KeyPath.refusesValue,
        hobject]
    | cons key' keys =>
      rw [KeyPath.obstacleAt?, KeyPath.obstacleAt?, KeyPath.refusesObject, KeyPath.refusesObject,
        hany (!·), childAt_mapFields, ih]

theorem blocker?_mapFields (f : Number → Number) (tree : Tree) (path : String) :
    blocker? policy (Json.mapFields f tree) path = blocker? policy tree path := by
  simp only [blocker?, KeyPath.obstacle?, obstacleAt?_mapFields]

theorem leafPaths_mapFields (f : Number → Number) (tree : Tree) :
    KeyPath.leafPaths (Json.mapFields f tree) = KeyPath.leafPaths tree := by
  suffices h : ∀ parent : String,
      (KeyPath.leavesBelow parent (Json.mapFields f tree)).map Prod.fst =
        (KeyPath.leavesBelow parent tree).map Prod.fst from h ""
  induction tree using Tree.induction with
  | nil => exact fun _ => rfl
  | leaf key v rest hleaf ih =>
    intro parent
    have hleaf' : (v.mapNumbers f).isObject = false := by rw [isObject_mapNumbers, hleaf]
    rw [Json.mapFields, KeyPath.leavesBelow, KeyPath.leavesBelow, KeyPath.leavesAt_leaf _ hleaf,
      KeyPath.leavesAt_leaf _ hleaf', List.map_append, List.map_append, ih]
    rfl
  | node key child rest ihchild ih =>
    intro parent
    rw [Json.mapFields, Value.mapNumbers, KeyPath.leavesBelow, KeyPath.leavesBelow,
      KeyPath.leavesAt, KeyPath.leavesAt, List.map_append, List.map_append, ihchild, ih]

/-- Which paths a run adds and refuses is settled by the leaf paths of the target and by what is in
their way. -/
theorem reconcile_outcome_congr (marker : Marker) (policy : ConflictPolicy) (target : Catalog)
    {tree : Tree} (hd : default.tree.WellFormed) (ht : target.tree.WellFormed)
    (htree : tree.WellFormed) (hlanguage : default.language ≠ target.language)
    (hpaths : KeyPath.leafPaths tree = target.leafPaths)
    (hblocker : ∀ path, blocker? policy tree path = blocker? policy target.tree path) :
    (reconcile marker policy default { target with tree := tree }).2 =
      (reconcile marker policy default target).2 := by
  obtain ⟨p, h, hreconcile⟩ := reached_reconcile marker policy target hd ht hlanguage
  obtain ⟨p', h', hreconcile'⟩ :=
    reached_reconcile marker policy { target with tree := tree } hd htree hlanguage
  have hmissing : Difference.missingPaths default { target with tree := tree } =
      Difference.missingPaths default target := by
    simp only [Difference.missingPaths, Catalog.leafPaths] at hpaths ⊢
    rw [hpaths]
  have hadded : p'.added = p.added := by
    simp only [h'.added_eq, h.added_eq, hmissing, hblocker]
  have hconflicts : p'.conflicts = p.conflicts := by
    simp only [h'.conflicts_eq, h.conflicts_eq, hmissing, hblocker]
  rw [hreconcile, hreconcile', hadded, hconflicts]

/-- Reconciling what is read back of a reconciled catalog adds nothing and refuses what was
refused. -/
theorem reconcile_reread (marker : Marker) (policy : ConflictPolicy) (f : Number → Number)
    (hd : default.tree.WellFormed) (ht : target.tree.WellFormed)
    (hlanguage : default.language ≠ target.language)
    (hread : Tree.WellFormed (Json.mapFields f (reconcile marker policy default target).1.tree)) :
    (reconcile marker policy default
      { target with
        tree := Json.mapFields f (reconcile marker policy default target).1.tree }).2 =
      { (reconcile marker policy default target).2 with added := [] } := by
  obtain ⟨p, h, hreconcile⟩ := reached_reconcile marker policy target hd ht hlanguage
  rw [hreconcile] at hread ⊢
  have hsame := reconcile_outcome_congr marker policy { target with tree := p.tree } hd h.wellFormed
    hread hlanguage (leafPaths_mapFields f p.tree) (blocker?_mapFields f p.tree)
  exact hsame.trans (congrArg Prod.snd (reconcile_reached h hd hlanguage))

/-- When nothing could be added, the target lacks the refused paths. -/
theorem missingPaths_eq_conflicts (marker : Marker) (policy : ConflictPolicy)
    (hd : default.tree.WellFormed) (ht : target.tree.WellFormed)
    (hlanguage : default.language ≠ target.language)
    (hadded : (reconcile marker policy default target).2.added = []) :
    Difference.missingPaths default target =
      (reconcile marker policy default target).2.conflicts.map Conflict.path := by
  obtain ⟨p, h, hreconcile⟩ := reached_reconcile marker policy target hd ht hlanguage
  rw [hreconcile] at hadded ⊢
  simp only at hadded ⊢
  rw [map_path_conflicts h, eq_comm, List.filter_eq_self]
  intro q hq
  rw [h.added_eq, List.filter_eq_nil_iff] at hadded
  simpa [Option.isSome_iff_ne_none] using hadded q hq

theorem conflicts_overwrite (marker : Marker) (hd : default.tree.WellFormed)
    (ht : target.tree.WellFormed) (hlanguage : default.language ≠ target.language) :
    (reconcile marker .overwrite default target).2.conflicts = [] := by
  obtain ⟨p, h, hreconcile⟩ := reached_reconcile marker .overwrite target hd ht hlanguage
  rw [hreconcile]
  simp only [h.conflicts_eq, blocker?, KeyPath.obstacle?_overwrite]
  simp

end Reconciliation

end LocaleAudit
