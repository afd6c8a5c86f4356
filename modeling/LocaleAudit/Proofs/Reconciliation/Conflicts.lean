import LocaleAudit.Proofs.KeyPath.InPlace
import LocaleAudit.Proofs.Reconciliation.Fixpoint

namespace LocaleAudit

/-!
# Which paths are refused

A run decides each path on a tree that has grown since its start. What it decides can be read off
the old target: a missing path is refused when a leaf stands above it or an object at it. Every
refusal is a conflict of paths, since looking up finds each leaf of the default catalog.
-/

open Json (Value)

namespace Reconciliation

variable {marker : Marker} {policy : ConflictPolicy} {default target : Catalog} {p : Progress}
  {conflict : Conflict}

/-! ## Whatever the target is -/

theorem mem_conflicts_addMissing (hd : default.tree.WellFormed) {path : String}
    (hpath : path ∈ default.leafPaths)
    (h : conflict ∈ (addMissing marker policy default target p path).conflicts) :
    conflict ∈ p.conflicts ∨ ∃ blocked, conflict = conflictAt path blocked := by
  rcases addMissing_cases marker policy target hd hpath p with
    ⟨blocked, _, hstep⟩ | ⟨_, _, _, _, _, _, _, hstep⟩
  · rw [hstep, List.mem_append, List.mem_singleton] at h
    exact h.imp_right fun heq => ⟨blocked, heq⟩
  · rw [hstep] at h
    exact Or.inl h

theorem mem_conflicts_run (hd : default.tree.WellFormed) {paths : List String}
    (hpaths : ∀ path ∈ paths, path ∈ default.leafPaths)
    (h : conflict ∈ (paths.foldl (addMissing marker policy default target) p).conflicts) :
    conflict ∈ p.conflicts ∨ ∃ path blocked, conflict = conflictAt path blocked := by
  induction paths generalizing p with
  | nil => exact Or.inl h
  | cons path rest ih =>
    rw [List.forall_mem_cons] at hpaths
    rcases ih hpaths.2 h with hstep | hrest
    · exact (mem_conflicts_addMissing hd hpaths.1 hstep).imp_right fun hblocked => ⟨path, hblocked⟩
    · exact Or.inr hrest

/-- Every refused path meets something on its way. -/
theorem mem_conflicts_reconcile (hd : default.tree.WellFormed)
    (h : conflict ∈ (reconcile marker policy default target).2.conflicts) :
    ∃ path blocked, conflict = conflictAt path blocked := by
  rw [reconcile] at h
  split at h
  · cases h
  · have hpaths : ∀ path ∈ Difference.missingPaths default target, path ∈ default.leafPaths :=
      fun path hpath => (mem_missingPaths.mp hpath).1
    exact (mem_conflicts_run hd hpaths h).resolve_left List.not_mem_nil

/-! ## Read off the old target -/

theorem blocker?_eq_some_iff {value : Value} (hleaf : value.isObject = false) {path named : String}
    {keys : List String} (hkeys : KeyPath.segments? path = some keys) (tree : Tree) :
    blocker? .fail tree path = some named ↔ KeyPath.Blocks tree path value named := by
  have hne := KeyPath.ne_nil_of_segments? hkeys
  rw [← obstacle?_leaf hleaf, KeyPath.obstacle?, hkeys, Option.bind_some, Option.map_eq_some_iff,
    KeyPath.blocks_iff hkeys]
  simp only [KeyPath.obstacleAt?_fail_iff, ne_eq, hne, not_false_eq_true, true_and]

theorem isSome_blocker?_iff {path : String} {keys : List String}
    (hkeys : KeyPath.segments? path = some keys) (tree : Tree) :
    (blocker? .fail tree path).isSome = true ↔
      (∃ above, KeyPath.isProperPrefix above path = true ∧
        KeyPath.leadsTo KeyPath.isLeaf tree above = true) ∨
      KeyPath.leadsTo Value.isObject tree path = true := by
  have hleaf : Value.null.isObject = false := rfl
  rw [Option.isSome_iff_exists]
  simp only [blocker?_eq_some_iff hleaf hkeys, KeyPath.exists_blocks_iff hkeys, hleaf, and_true]

/-- How the paths that are added and those that are refused follow from the two catalogs that a run
without force starts from. -/
structure SettledBefore (default target : Catalog) (outcome : ReconcileOutcome) : Prop where
  /-- Each missing path is added or refused, once. -/
  split : (outcome.added ++ outcome.conflicts.map Conflict.path).Perm
    (Difference.missingPaths default target)
  distinct : (Difference.missingPaths default target).Nodup
  added_order : outcome.added.Sublist default.leafPaths
  conflicts_order : (outcome.conflicts.map Conflict.path).Sublist default.leafPaths
  refused_iff : ∀ path ∈ Difference.missingPaths default target,
    path ∈ outcome.conflicts.map Conflict.path ↔
      (∃ above, KeyPath.isProperPrefix above path = true ∧
        KeyPath.leadsTo KeyPath.isLeaf target.tree above = true) ∨
      KeyPath.leadsTo Value.isObject target.tree path = true
  /-- The reason names the uppermost leaf above the path, or else the path itself. -/
  reason_iff : ∀ conflict, conflict ∈ outcome.conflicts ↔
    conflict.path ∈ Difference.missingPaths default target ∧ ∃ value named,
      default.get? conflict.path = some value ∧
      conflict.reason = (Error.pathConflict conflict.path named).message ∧
      KeyPath.Blocks target.tree conflict.path value named

section Run

variable (h : Reached marker .fail default target (Difference.missingPaths default target) p)

include h

theorem mem_conflicts_iff :
    conflict ∈ p.conflicts ↔ conflict.path ∈ Difference.missingPaths default target ∧
      ∃ named, conflict.reason = (Error.pathConflict conflict.path named).message ∧
        blocker? .fail target.tree conflict.path = some named := by
  rw [h.conflicts_eq, List.mem_filterMap]
  constructor
  · rintro ⟨path, hpath, hconflict⟩
    obtain ⟨named, hnamed, rfl⟩ := Option.map_eq_some_iff.mp hconflict
    exact ⟨hpath, named, rfl, hnamed⟩
  · rintro ⟨hpath, named, hreason, hnamed⟩
    refine ⟨conflict.path, hpath, ?_⟩
    rw [hnamed, Option.map_some, conflictAt, ← hreason]

theorem settledBefore (hd : default.tree.WellFormed) (nameSpace language : String) :
    SettledBefore default target ⟨nameSpace, language, p.added, p.conflicts⟩ := by
  have hmissing := missingPaths_sublist default target
  have hkeys : ∀ path ∈ Difference.missingPaths default target,
      ∃ keys, KeyPath.segments? path = some keys :=
    fun path hpath => KeyPath.segments?_of_mem_leafPaths hd (hmissing.subset hpath)
  constructor
  · simp only [map_path_conflicts h, h.added_eq, ← Option.not_isSome]
    exact (List.perm_append_comm).trans (List.filter_append_perm _ _)
  · exact (KeyPath.nodup_leafPaths hd).sublist hmissing
  · rw [h.added_eq]
    exact List.filter_sublist.trans hmissing
  · rw [map_path_conflicts h]
    exact List.filter_sublist.trans hmissing
  · intro path hpath
    obtain ⟨keys, hkeys⟩ := hkeys path hpath
    rw [map_path_conflicts h, List.mem_filter, ← isSome_blocker?_iff hkeys]
    exact and_iff_right hpath
  · intro conflict
    rw [mem_conflicts_iff h]
    refine and_congr_right fun hpath => ?_
    obtain ⟨keys, hkeys⟩ := hkeys conflict.path hpath
    obtain ⟨value, hvalue, hleaf⟩ := (KeyPath.mem_leafPaths_iff hd).mp (hmissing.subset hpath)
    have hget : default.get? conflict.path = some value := hvalue
    simp [hget, blocker?_eq_some_iff hleaf hkeys]

end Run

/-- What a run without force adds and what it refuses, and why, is settled before it starts. -/
theorem reconcile_settledBefore (marker : Marker) (hd : default.Parsed) (ht : target.Parsed)
    (hlanguage : default.language ≠ target.language) :
    SettledBefore default target (reconcile marker .fail default target).2 := by
  obtain ⟨p, h, hreconcile⟩ :=
    reached_reconcile marker .fail target hd.wellFormed ht.wellFormed hlanguage
  rw [hreconcile]
  exact settledBefore h hd.wellFormed _ _

/-- A text blocks the way to `b.c` and an object the place of `g`; into the empty object at `d` a
leaf can go. -/
theorem reconcile_settledBefore_mixed :
    let source : Catalog := ⟨"en", "app", [("a", .string "Hi"), ("b", .object [("c", .string "Yes")]),
      ("d", .object [("e", .string "No")]), ("g", .string "Go")]⟩
    let target : Catalog := ⟨"de", "app", [("b", .string "Ja"), ("d", .object []),
      ("g", .object [("h", .string "Los")])]⟩
    let outcome := (reconcile .default .fail source target).2
    source.language ≠ target.language ∧ SettledBefore source target outcome ∧
      outcome.added = ["a", "d.e"] ∧
      outcome.conflicts = [conflictAt "b.c" "b", conflictAt "g" "g"] := by
  have hsource : Catalog.Parsed ⟨"en", "app", [("a", .string "Hi"),
      ("b", .object [("c", .string "Yes")]), ("d", .object [("e", .string "No")]),
      ("g", .string "Go")]⟩ :=
    ⟨"\x7b\"a\":\"Hi\",\"b\":\x7b\"c\":\"Yes\"\x7d,\"d\":\x7b\"e\":\"No\"\x7d,\"g\":\"Go\"\x7d",
      by decide +kernel⟩
  have htarget : Catalog.Parsed ⟨"de", "app", [("b", .string "Ja"), ("d", .object []),
      ("g", .object [("h", .string "Los")])]⟩ :=
    ⟨"\x7b\"b\":\"Ja\",\"d\":\x7b\x7d,\"g\":\x7b\"h\":\"Los\"\x7d\x7d", by decide +kernel⟩
  have hlanguage : "en" ≠ "de" := by decide
  exact ⟨hlanguage, reconcile_settledBefore .default hsource htarget hlanguage, by decide +kernel,
    by decide +kernel⟩

end Reconciliation

end LocaleAudit
