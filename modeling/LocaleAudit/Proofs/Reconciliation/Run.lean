import LocaleAudit.Reconciliation
import LocaleAudit.Proofs.Catalog.Documents
import LocaleAudit.Proofs.KeyPath.Setting

namespace LocaleAudit

/-!
# A reconciliation run

A run goes through missing paths one by one. Whether a path is added or refused, and for which
reason, is settled by the old target alone: what is added before lies beside it.
-/

open Json (Value)

namespace Reconciliation

variable {marker : Marker} {policy : ConflictPolicy} {default target : Catalog}

/-- The path of the node that keeps a leaf from being added. -/
def blocker? (policy : ConflictPolicy) (tree : Tree) (path : String) : Option String :=
  KeyPath.obstacle? policy .null path tree

def conflictAt (path blocked : String) : Conflict :=
  ⟨path, (Error.pathConflict path blocked).message⟩

theorem obstacleAt?_leaf {value : Value} (h : value.isObject = false) (keys : List String)
    (tree : Tree) :
    KeyPath.obstacleAt? policy value keys tree = KeyPath.obstacleAt? policy .null keys tree := by
  induction keys generalizing tree with
  | nil => rfl
  | cons key keys ih =>
    cases keys with
    | nil =>
      rw [KeyPath.obstacleAt?, KeyPath.obstacleAt?, KeyPath.refusesValue, h]
      rfl
    | cons key' keys => simp only [KeyPath.obstacleAt?, ih]

theorem obstacle?_leaf {value : Value} (h : value.isObject = false) (path : String)
    (tree : Tree) : KeyPath.obstacle? policy value path tree = blocker? policy tree path := by
  simp only [blocker?, KeyPath.obstacle?, obstacleAt?_leaf h]

theorem placeholder_isObject (marker : Marker) (source goal : String) {value : Value}
    (h : value.isObject = false) :
    (placeholder marker source goal value).isObject = false := by
  cases value with
  | string s => rfl
  | _ => exact h

theorem placeholder_keysDistinct (marker : Marker) (source goal : String) {value : Value}
    (h : value.KeysDistinct) :
    (placeholder marker source goal value).KeysDistinct := by
  cases value with
  | string s => exact .string _
  | _ => exact h

/-- What one step does: the path is refused for its blocker, or its placeholder is set. -/
theorem addMissing_cases (marker : Marker) (policy : ConflictPolicy) (target : Catalog)
    (hd : default.tree.WellFormed) {path : String} (hpath : path ∈ default.leafPaths)
    (p : Progress) :
    (∃ blocked, blocker? policy p.tree path = some blocked ∧
      addMissing marker policy default target p path =
        { p with conflicts := p.conflicts ++ [conflictAt path blocked] }) ∨
    (∃ value tree, blocker? policy p.tree path = none ∧ default.get? path = some value ∧
      value.isObject = false ∧ value.KeysDistinct ∧
      KeyPath.set p.tree path
        (placeholder marker default.language target.language value) policy = .ok tree ∧
      addMissing marker policy default target p path =
        { p with tree, added := p.added ++ [path] }) := by
  obtain ⟨value, hget, hleaf⟩ := (KeyPath.mem_leafPaths_iff hd).mp hpath
  have hplaced := placeholder_isObject marker default.language target.language hleaf
  cases hblocker : blocker? policy p.tree path with
  | some blocked =>
    left
    refine ⟨blocked, rfl, ?_⟩
    rw [← obstacle?_leaf hplaced] at hblocker
    simp only [addMissing, Catalog.get?, hget, KeyPath.set_of_obstacle? hblocker]
    rfl
  | none =>
    right
    rw [← obstacle?_leaf hplaced] at hblocker
    obtain ⟨keys, hkeys⟩ := KeyPath.segments?_of_mem_leafPaths hd hpath
    obtain ⟨tree, hset⟩ := KeyPath.exists_set_of_obstacle? hkeys hblocker
    obtain ⟨_, _, hgetAt⟩ := Option.bind_eq_some_iff.mp hget
    have hdistinct := KeyPath.keysDistinct_of_getAt hd.distinct hgetAt
    refine ⟨value, tree, rfl, hget, hleaf, hdistinct, hset, ?_⟩
    simp only [addMissing, Catalog.get?, hget, hset]

/-! ## Runs -/

/-- What holds after a run over the given paths. -/
structure Reached (marker : Marker) (policy : ConflictPolicy) (default target : Catalog)
    (paths : List String) (p : Progress) : Prop where
  wellFormed : p.tree.WellFormed
  added_eq : p.added = paths.filter fun q => (blocker? policy target.tree q).isNone
  conflicts_eq : p.conflicts =
    paths.filterMap fun q => (blocker? policy target.tree q).map (conflictAt q)
  blocker_eq : ∀ q, (∀ a ∈ p.added, KeyPath.comparable a q = false) →
    blocker? policy p.tree q = blocker? policy target.tree q
  /-- What was not added is what was there, less what is comparable with an added path. -/
  kept_eq : (KeyPath.leaves p.tree).filter (fun l => !p.added.contains l.1) =
    target.leaves.filter fun l => p.added.all fun a => !KeyPath.comparable a l.1
  placed : ∀ a ∈ p.added, ∃ value, default.get? a = some value ∧
    (a, placeholder marker default.language target.language value) ∈ KeyPath.leaves p.tree
  unchanged : p.added = [] → p.tree = target.tree

theorem Reached.start (ht : target.tree.WellFormed) :
    Reached marker policy default target [] ⟨target.tree, [], []⟩ where
  wellFormed := ht
  added_eq := rfl
  conflicts_eq := rfl
  blocker_eq := fun _ _ => rfl
  kept_eq := rfl
  placed := by simp
  unchanged := fun _ => rfl

theorem Reached.mem_paths {paths : List String} {p : Progress}
    (h : Reached marker policy default target paths p) {a : String} (ha : a ∈ p.added) :
    a ∈ paths := by
  rw [h.added_eq] at ha
  exact (List.mem_filter.mp ha).1

theorem kept_eq_of_set {added : List String} {old tree : Tree} {path : String} {value : Value}
    {before after : List (String × Value)}
    (hold : KeyPath.leavesBeside path (KeyPath.leaves old) = before ++ after)
    (hnew : KeyPath.leaves tree = before ++ (path, value) :: after) :
    (KeyPath.leaves tree).filter (fun l => !(added ++ [path]).contains l.1) =
      ((KeyPath.leaves old).filter fun l => !added.contains l.1).filter fun l =>
        !KeyPath.comparable path l.1 := by
  have hdrop : (KeyPath.leaves tree).filter (fun l => !(added ++ [path]).contains l.1) =
      (KeyPath.leavesBeside path (KeyPath.leaves old)).filter
        fun l => !(added ++ [path]).contains l.1 := by
    rw [hnew, hold, List.filter_append, List.filter_append, List.filter_cons_of_neg (by simp)]
  rw [hdrop, KeyPath.leavesBeside, List.filter_filter, List.filter_filter]
  refine List.filter_congr fun l _ => ?_
  by_cases heq : path = l.1
  · simp [heq, KeyPath.comparable]
  · cases hcomp : KeyPath.comparable path l.1 <;> simp [Ne.symm heq]

theorem Reached.step (hd : default.tree.WellFormed) {paths : List String} {p : Progress}
    (h : Reached marker policy default target paths p) {path : String}
    (hpath : path ∈ default.leafPaths)
    (hbeside : ∀ q ∈ paths, KeyPath.comparable q path = false) :
    Reached marker policy default target (paths ++ [path])
      (addMissing marker policy default target p path) := by
  have hbeside' : ∀ a ∈ p.added, KeyPath.comparable a path = false :=
    fun a ha => hbeside a (h.mem_paths ha)
  -- What was added so far lies beside `path`, so its blocker is the one the old target has.
  have hblocker := h.blocker_eq path hbeside'
  rcases addMissing_cases marker policy target hd hpath p with
    ⟨blocked, hblocked, hstep⟩ | ⟨value, tree, hfree, hget, hleaf, hdistinct, hset, hstep⟩
  · rw [hstep]
    rw [hblocked] at hblocker
    exact {
      wellFormed := h.wellFormed
      added_eq := by simp [h.added_eq, ← hblocker]
      conflicts_eq := by simp [h.conflicts_eq, ← hblocker]
      blocker_eq := h.blocker_eq
      kept_eq := h.kept_eq
      placed := h.placed
      unchanged := h.unchanged }
  · rw [hstep]
    rw [hfree] at hblocker
    have hplaced := placeholder_isObject marker default.language target.language hleaf
    obtain ⟨before, after, hold, hnew⟩ := KeyPath.leaves_set h.wellFormed hplaced hset
    exact {
      wellFormed := KeyPath.set_wellFormed h.wellFormed
        (placeholder_keysDistinct _ _ _ hdistinct) hplaced hset
      added_eq := by simp [h.added_eq, ← hblocker]
      conflicts_eq := by simp [h.conflicts_eq, ← hblocker]
      blocker_eq := by
        intro q hq
        rw [List.forall_mem_append] at hq
        rw [← h.blocker_eq q hq.1]
        exact KeyPath.obstacle?_set (hq.2 path (List.mem_singleton_self path)) hset
      kept_eq := by
        rw [kept_eq_of_set hold hnew, h.kept_eq, List.filter_filter]
        refine List.filter_congr fun l _ => ?_
        simp [Bool.and_comm]
      placed := by
        intro a ha
        rcases List.mem_append.mp ha with ha | ha
        · obtain ⟨w, hw, hmem⟩ := h.placed a ha
          refine ⟨w, hw, KeyPath.mem_leaves_set h.wellFormed hset hmem ?_⟩
          rw [KeyPath.comparable_comm]
          exact hbeside' a ha
        · rw [List.mem_singleton.mp ha]
          exact ⟨value, hget, by simp [hnew]⟩
      unchanged := by simp }

/-- A whole run, by induction on the paths that are left. -/
theorem Reached.run (hd : default.tree.WellFormed) {done rest : List String} {p : Progress}
    (h : Reached marker policy default target done p)
    (hpaths : ∀ q ∈ rest, q ∈ default.leafPaths)
    (hbeside : (done ++ rest).Pairwise fun q q' => KeyPath.comparable q q' = false) :
    Reached marker policy default target (done ++ rest)
      (rest.foldl (addMissing marker policy default target) p) := by
  induction rest generalizing done p with
  | nil => simpa using h
  | cons path rest ih =>
    rw [List.forall_mem_cons] at hpaths
    have hstep := h.step hd hpaths.1 fun q hq =>
      (List.pairwise_append.mp hbeside).2.2 q hq path List.mem_cons_self
    rw [List.append_cons] at hbeside ⊢
    exact ih hstep hpaths.2 hbeside

/-! ## Reconciling -/

theorem missingPaths_sublist (default target : Catalog) :
    (Difference.missingPaths default target).Sublist default.leafPaths :=
  List.filter_sublist

theorem mem_missingPaths {path : String} :
    path ∈ Difference.missingPaths default target ↔
      path ∈ default.leafPaths ∧ path ∉ target.leafPaths := by
  simp [Difference.missingPaths]

/-- What `reconcile` returns is where a run over all missing paths ends. -/
theorem reached_reconcile (marker : Marker) (policy : ConflictPolicy) (target : Catalog)
    (hd : default.tree.WellFormed) (ht : target.tree.WellFormed)
    (hlanguage : default.language ≠ target.language) :
    ∃ p, Reached marker policy default target (Difference.missingPaths default target) p ∧
      reconcile marker policy default target =
        ({ target with tree := p.tree },
          ⟨target.nameSpace, target.language, p.added, p.conflicts⟩) := by
  have hbeside := (KeyPath.pairwise_leafPaths hd).sublist (missingPaths_sublist default target)
  refine ⟨_, Reached.run hd (Reached.start ht) (fun q hq => (mem_missingPaths.mp hq).1) hbeside, ?_⟩
  rw [reconcile, if_neg hlanguage]
  rfl

/-- Reconciling keeps the names of the target, and reports under them. -/
theorem names_reconcile (marker : Marker) (policy : ConflictPolicy) (default target : Catalog) :
    ((reconcile marker policy default target).1.language = target.language ∧
      (reconcile marker policy default target).1.nameSpace = target.nameSpace) ∧
    (reconcile marker policy default target).2.nameSpace = target.nameSpace ∧
      (reconcile marker policy default target).2.language = target.language := by
  rw [reconcile]
  split
  · exact ⟨⟨rfl, rfl⟩, rfl, rfl⟩
  · exact ⟨⟨rfl, rfl⟩, rfl, rfl⟩

/-- From a default catalog without leaves nothing is added. -/
theorem isModified_reconcile_leafless (marker : Marker) (policy : ConflictPolicy)
    (target : Catalog) (hleafless : default.leafPaths = []) :
    (reconcile marker policy default target).2.isModified = false := by
  have hmissing : Difference.missingPaths default target = [] :=
    List.sublist_nil.mp (hleafless ▸ missingPaths_sublist default target)
  rw [reconcile, hmissing]
  split <;> rfl

/-- To an empty catalog every leaf of the default one is added. -/
theorem added_reconcile_empty (marker : Marker) (policy : ConflictPolicy)
    (hd : default.tree.WellFormed) {language : String} (hlanguage : default.language ≠ language)
    (nameSpace : String) :
    (reconcile marker policy default (Catalog.empty language nameSpace)).2.added =
      default.leafPaths := by
  obtain ⟨p, hp, hreconcile⟩ := reached_reconcile marker policy
    (Catalog.empty language nameSpace) hd Tree.WellFormed.nil hlanguage
  have hmissing : Difference.missingPaths default (Catalog.empty language nameSpace) =
      default.leafPaths := by
    refine List.filter_eq_self.mpr fun path _ => ?_
    rfl
  rw [hreconcile, hp.added_eq, hmissing]
  refine List.filter_eq_self.mpr fun path _ => ?_
  have hfree : blocker? policy (Catalog.empty language nameSpace).tree path = none :=
    KeyPath.obstacle?_nil policy .null path
  rw [hfree]
  rfl

namespace Reached

variable {p : Progress}
  (h : Reached marker policy default target (Difference.missingPaths default target) p)

include h

theorem mem_added_iff {path : String} :
    path ∈ p.added ↔ (path ∈ default.leafPaths ∧ path ∉ target.leafPaths) ∧
      blocker? policy target.tree path = none := by
  rw [h.added_eq, List.mem_filter, mem_missingPaths, Option.isNone_iff_eq_none]

theorem nodup_added (hd : default.tree.WellFormed) : p.added.Nodup := by
  rw [h.added_eq]
  exact ((KeyPath.nodup_leafPaths hd).sublist (missingPaths_sublist default target)).filter _

theorem beside_added (hd : default.tree.WellFormed) {path : String}
    (hpath : path ∈ default.leafPaths) (hnot : path ∉ p.added) :
    ∀ a ∈ p.added, KeyPath.comparable a path = false := by
  intro a ha
  refine KeyPath.not_comparable_of_mem hd (h.mem_added_iff.mp ha).1.1 hpath ?_
  rintro rfl
  exact hnot ha

/-- The leaf paths after a run: those added, and the old ones beside all of them. -/
theorem mem_leafPaths_iff {path : String} :
    path ∈ KeyPath.leafPaths p.tree ↔ path ∈ p.added ∨
      path ∈ target.leafPaths ∧ ∀ a ∈ p.added, KeyPath.comparable a path = false := by
  by_cases hadded : path ∈ p.added
  · obtain ⟨value, _, hmem⟩ := h.placed path hadded
    exact iff_of_true (List.mem_map_of_mem hmem) (Or.inl hadded)
  · have hkept := congrArg (fun leaves => path ∈ leaves.map Prod.fst) h.kept_eq
    simpa [hadded, KeyPath.leafPaths, Catalog.leafPaths, Catalog.leaves] using hkept

end Reached

end Reconciliation

end LocaleAudit
