import Mathlib.Data.List.Basic
import LocaleAudit.Proofs.Reconciliation.Run

namespace LocaleAudit

/-!
# Reconciling reaches a fixpoint in one run

After a run the target lacks exactly the refused paths, and a second run refuses them again for the
same reasons without changing anything.
-/

namespace Reconciliation

variable {marker : Marker} {policy : ConflictPolicy} {default target : Catalog} {p : Progress}

section Run

variable (h : Reached marker policy default target (Difference.missingPaths default target) p)

include h

theorem map_path_conflicts :
    p.conflicts.map Conflict.path = (Difference.missingPaths default target).filter fun q =>
      (blocker? policy target.tree q).isSome := by
  rw [h.conflicts_eq]
  induction Difference.missingPaths default target with
  | nil => rfl
  | cons q rest ih =>
    cases hblocker : blocker? policy target.tree q with
    | none => simp [hblocker, ih]
    | some blocked => simp [hblocker, ih, conflictAt]

/-- A target keeps lacking the paths that were refused, and no others. -/
theorem missingPaths_reached (hd : default.tree.WellFormed) :
    Difference.missingPaths default { target with tree := p.tree } =
      (Difference.missingPaths default target).filter fun q =>
        (blocker? policy target.tree q).isSome := by
  rw [Difference.missingPaths, Difference.missingPaths, List.filter_filter]
  refine List.filter_congr fun q hq => ?_
  have hmem : q ∈ KeyPath.leafPaths p.tree ↔ q ∈ p.added ∨ q ∈ target.leafPaths := by
    rw [h.mem_leafPaths_iff]
    by_cases hadded : q ∈ p.added
    · simp [hadded]
    · have hbeside := h.beside_added hd hq hadded
      simp only [hadded, false_or]
      exact and_iff_left hbeside
  have hadded : q ∈ p.added ↔ q ∉ target.leafPaths ∧ blocker? policy target.tree q = none := by
    rw [h.mem_added_iff, and_assoc]
    exact and_iff_right hq
  have hgoal : q ∉ KeyPath.leafPaths p.tree ↔
      blocker? policy target.tree q ≠ none ∧ q ∉ target.leafPaths := by
    rw [hmem, hadded]
    by_cases htarget : q ∈ target.leafPaths <;> simp [htarget]
  rw [Bool.eq_iff_iff]
  simpa [Catalog.leafPaths, Option.isSome_iff_ne_none] using hgoal

/-- A second run meets the same blockers on the paths that are left. -/
theorem reconcile_reached (hd : default.tree.WellFormed)
    (hlanguage : default.language ≠ target.language) :
    reconcile marker policy default { target with tree := p.tree } =
      ({ target with tree := p.tree }, ⟨target.nameSpace, target.language, [], p.conflicts⟩) := by
  obtain ⟨p', h', hreconcile⟩ := reached_reconcile marker policy
    { target with tree := p.tree } hd h.wellFormed hlanguage
  have hblocker : ∀ q ∈ Difference.missingPaths default { target with tree := p.tree },
      blocker? policy p.tree q = blocker? policy target.tree q := by
    intro q hq
    obtain ⟨hpath, hnot⟩ := mem_missingPaths.mp hq
    have hnot' : q ∉ p.added := fun hadded => hnot (h.mem_leafPaths_iff.mpr (Or.inl hadded))
    exact h.blocker_eq q (h.beside_added hd hpath hnot')
  have hadded : p'.added = [] := by
    rw [h'.added_eq, List.filter_eq_nil_iff]
    intro q hq
    have hrefused := hq
    rw [missingPaths_reached h hd, List.mem_filter] at hrefused
    simpa [hblocker q hq, Option.isNone_iff_eq_none, Option.isSome_iff_ne_none] using hrefused.2
  have hconflicts : p'.conflicts = p.conflicts := by
    rw [h'.conflicts_eq, h.conflicts_eq]
    calc
      _ = (Difference.missingPaths default { target with tree := p.tree }).filterMap fun q =>
            (blocker? policy target.tree q).map (conflictAt q) :=
        List.filterMap_congr fun q hq => by rw [hblocker q hq]
      _ = _ := by
        rw [missingPaths_reached h hd, List.filterMap_filter]
        refine List.filterMap_congr fun q _ => ?_
        cases blocker? policy target.tree q <;> rfl
  rw [hreconcile, hadded, hconflicts, h'.unchanged hadded]

end Run

/-- Reconciling once adds everything that can be added. -/
theorem reconcile_fixpoint (marker : Marker) (policy : ConflictPolicy) (hd : default.Parsed)
    (ht : target.Parsed) (hlanguage : default.language ≠ target.language) :
    let first := reconcile marker policy default target
    let second := reconcile marker policy default first.1
    Difference.missingPaths default first.1 = first.2.conflicts.map Conflict.path ∧
      (policy = .overwrite → first.2.conflicts = []) ∧
      second.2.added = [] ∧ second.2.conflicts = first.2.conflicts ∧ second.1 = first.1 := by
  obtain ⟨p, h, hfirst⟩ :=
    reached_reconcile marker policy target hd.wellFormed ht.wellFormed hlanguage
  have hsecond := reconcile_reached h hd.wellFormed hlanguage
  simp only [hfirst, hsecond, and_true]
  constructor
  · rw [missingPaths_reached h hd.wellFormed, map_path_conflicts h]
  · rintro rfl
    rw [h.conflicts_eq]
    simp [blocker?, KeyPath.obstacle?_overwrite]

/-- A text stands where the default language has an object, so one path is refused twice. -/
theorem reconcile_fixpoint_refused :
    let source : Catalog :=
      ⟨"en", "app", [("a", .string "Hi"), ("b", .object [("c", .string "Yes")])]⟩
    let target : Catalog := ⟨"de", "app", [("b", .string "Ja")]⟩
    let first := reconcile .default .fail source target
    let second := reconcile .default .fail source first.1
    source.language ≠ target.language ∧
      Difference.missingPaths source first.1 = first.2.conflicts.map Conflict.path ∧
      second.2.added = [] ∧ second.2.conflicts = first.2.conflicts ∧ second.1 = first.1 ∧
      (reconcile .default .overwrite source target).2.conflicts = [] := by
  have hsource : Catalog.Parsed
      ⟨"en", "app", [("a", .string "Hi"), ("b", .object [("c", .string "Yes")])]⟩ :=
    ⟨"\x7b\"a\": \"Hi\", \"b\": \x7b\"c\": \"Yes\"\x7d\x7d", by decide +kernel⟩
  have htarget : Catalog.Parsed ⟨"de", "app", [("b", .string "Ja")]⟩ :=
    ⟨"\x7b\"b\": \"Ja\"\x7d", by decide +kernel⟩
  have hlanguage : "en" ≠ "de" := by decide
  obtain ⟨hmissing, _, hadded, hconflicts, hafter⟩ :=
    reconcile_fixpoint .default .fail hsource htarget hlanguage
  obtain ⟨_, hnone, _⟩ :=
    reconcile_fixpoint .default .overwrite hsource htarget hlanguage
  exact ⟨hlanguage, hmissing, hadded, hconflicts, hafter, hnone rfl⟩

end Reconciliation

end LocaleAudit
