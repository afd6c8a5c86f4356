import LocaleAudit.Proofs.Reconciliation.Run

namespace LocaleAudit

/-!
# What reconciling keeps

Old leaves go only where an added path needs their place, which the policy `fail` never allows.
-/

namespace Reconciliation

variable {marker : Marker} {policy : ConflictPolicy} {default target : Catalog} {p : Progress}

namespace Reached

section Any

variable (h : Reached marker policy default target (Difference.missingPaths default target) p)

include h

theorem get?_added {path : String} (hpath : path ∈ p.added) :
    ∃ value, default.get? path = some value ∧ KeyPath.get? p.tree path =
      some (placeholder marker default.language target.language value) := by
  obtain ⟨value, hvalue, hmem⟩ := h.placed path hpath
  exact ⟨value, hvalue, ((KeyPath.mem_leaves_iff h.wellFormed).mp hmem).1⟩

theorem not_mem_target {a q : String} (ha : a ∈ p.added) (hq : q ∈ target.leafPaths) : a ≠ q := by
  rintro rfl
  exact (h.mem_added_iff.mp ha).1.2 hq

/-- An old leaf path is lost when an added path leads through it, or it through an added one. -/
theorem lost_iff {q : String} (hq : q ∈ target.leafPaths) :
    q ∉ KeyPath.leafPaths p.tree ↔
      ∃ a ∈ p.added, KeyPath.isProperPrefix q a ∨ KeyPath.isProperPrefix a q := by
  have hnot : q ∉ p.added := fun hadded => h.not_mem_target hadded hq rfl
  rw [h.mem_leafPaths_iff]
  constructor
  · intro hlost
    have hcomp : ¬∀ a ∈ p.added, KeyPath.comparable a q = false :=
      fun hbeside => hlost (Or.inr ⟨hq, hbeside⟩)
    simp only [Classical.not_forall] at hcomp
    obtain ⟨a, ha, hcomp⟩ := hcomp
    refine ⟨a, ha, ?_⟩
    cases hbelow : KeyPath.isProperPrefix q a with
    | true => exact Or.inl rfl
    | false => simpa [KeyPath.comparable, h.not_mem_target ha hq, hbelow] using hcomp
  · rintro ⟨a, ha, hprefix⟩ hkept
    rcases hkept with hadded | ⟨_, hbeside⟩
    · exact hnot hadded
    · have hcomp := hbeside a ha
      rcases hprefix with hprefix | hprefix <;> simp [KeyPath.comparable, hprefix] at hcomp

/-- Old leaves whose paths are still there keep their values and their order. -/
theorem kept_sublist :
    (target.leaves.filter fun l => (KeyPath.leafPaths p.tree).contains l.1).Sublist
      (KeyPath.leaves p.tree) := by
  have hkept : (target.leaves.filter fun l => (KeyPath.leafPaths p.tree).contains l.1) =
      target.leaves.filter fun l => p.added.all fun a => !KeyPath.comparable a l.1 := by
    refine List.filter_congr fun l hl => ?_
    have hq : l.1 ∈ target.leafPaths := List.mem_map_of_mem hl
    have hnot : l.1 ∉ p.added := fun hadded => h.not_mem_target hadded hq rfl
    have hmem : l.1 ∈ KeyPath.leafPaths p.tree ↔ l.1 ∈ p.added ∨ l.1 ∈ target.leafPaths ∧
        ∀ a ∈ p.added, KeyPath.comparable a l.1 = false := h.mem_leafPaths_iff
    rw [Bool.eq_iff_iff]
    simpa [hnot, hq] using hmem
  rw [hkept, ← h.kept_eq]
  exact List.filter_sublist

theorem nodup_leafPaths_append (hd : default.tree.WellFormed) (ht : target.tree.WellFormed) :
    (target.leafPaths ++ p.added).Nodup := by
  refine List.nodup_append.mpr ⟨KeyPath.nodup_leafPaths ht, h.nodup_added hd, ?_⟩
  intro q hq a ha
  exact (h.not_mem_target ha hq).symm

end Any

section Fail

variable (hd : default.tree.WellFormed) (ht : target.tree.WellFormed)
  (h : Reached marker .fail default target (Difference.missingPaths default target) p)

include hd ht h

/-- The policy `fail` adds beside what is there. -/
theorem beside_target {a q : String} (ha : a ∈ p.added) (hq : q ∈ target.leafPaths) :
    KeyPath.comparable a q = false := by
  obtain ⟨⟨hpath, _⟩, hfree⟩ := h.mem_added_iff.mp ha
  obtain ⟨keys, hkeys⟩ := KeyPath.segments?_of_mem_leafPaths hd hpath
  exact KeyPath.not_comparable_of_no_obstacle ht rfl hkeys hfree hq (h.not_mem_target ha hq)

theorem mem_of_fail {q : String} (hq : q ∈ target.leafPaths) : q ∈ KeyPath.leafPaths p.tree :=
  h.mem_leafPaths_iff.mpr (Or.inr ⟨hq, fun _ ha => h.beside_target hd ht ha hq⟩)

theorem leafPaths_perm :
    (KeyPath.leafPaths p.tree).Perm (target.leafPaths ++ p.added) := by
  refine (List.perm_ext_iff_of_nodup (KeyPath.nodup_leafPaths h.wellFormed)
    (h.nodup_leafPaths_append hd ht)).mpr fun q => ?_
  rw [List.mem_append]
  constructor
  · intro hq
    rcases h.mem_leafPaths_iff.mp hq with hadded | ⟨htarget, _⟩
    · exact Or.inr hadded
    · exact Or.inl htarget
  · rintro (htarget | hadded)
    · exact h.mem_of_fail hd ht htarget
    · exact h.mem_leafPaths_iff.mpr (Or.inl hadded)

theorem leaves_sublist :
    target.leaves.Sublist (KeyPath.leaves p.tree) := by
  have hall : (target.leaves.filter fun l => (KeyPath.leafPaths p.tree).contains l.1) =
      target.leaves := by
    rw [List.filter_eq_self]
    intro l hl
    have hmem : l.1 ∈ KeyPath.leafPaths p.tree := h.mem_of_fail hd ht (List.mem_map_of_mem hl)
    simpa using hmem
  rw [← hall]
  exact h.kept_sublist

end Fail

end Reached

/-- What a reconciled catalog still has of the old one, under either policy. -/
theorem reconcile_preserves (marker : Marker) (policy : ConflictPolicy) (hd : default.Parsed)
    (ht : target.Parsed) (hlanguage : default.language ≠ target.language) :
    let after := (reconcile marker policy default target).1
    let added := (reconcile marker policy default target).2.added
    (∀ path ∈ added, ∃ value, default.get? path = some value ∧
      after.get? path = some (placeholder marker default.language target.language value)) ∧
    (policy = .fail →
      after.leafPaths.Perm (target.leafPaths ++ added) ∧ (target.leafPaths ++ added).Nodup ∧
        target.leaves.Sublist after.leaves) ∧
    (policy = .overwrite →
      (∀ q ∈ target.leafPaths, q ∉ after.leafPaths ↔
        ∃ path ∈ added, KeyPath.isProperPrefix q path ∨ KeyPath.isProperPrefix path q) ∧
      (target.leaves.filter fun l => after.leafPaths.contains l.1).Sublist after.leaves) := by
  have hd := hd.wellFormed
  have ht := ht.wellFormed
  obtain ⟨p, h, hreconcile⟩ := reached_reconcile marker policy target hd ht hlanguage
  simp only [hreconcile]
  refine ⟨fun path hpath => h.get?_added hpath, ?_, ?_⟩
  · rintro rfl
    exact ⟨h.leafPaths_perm hd ht, h.nodup_leafPaths_append hd ht, h.leaves_sublist hd ht⟩
  · intro _
    exact ⟨fun q hq => h.lost_iff hq, h.kept_sublist⟩

/-- Under `fail` the text at `b` stays; under `overwrite` it makes room for `b.c`. -/
theorem reconcile_preserves_blocked :
    let source : Catalog :=
      ⟨"en", "app", [("a", .string "Hi"), ("b", .object [("c", .string "Yes")])]⟩
    let target : Catalog := ⟨"de", "app", [("b", .string "Ja")]⟩
    let kept := (reconcile .default .fail source target).1
    let lost := (reconcile .default .overwrite source target).1
    let added := (reconcile .default .overwrite source target).2.added
    target.leaves.Sublist kept.leaves ∧
      ("b" ∉ lost.leafPaths ↔
        ∃ path ∈ added, KeyPath.isProperPrefix "b" path ∨ KeyPath.isProperPrefix path "b") := by
  have hsource : Catalog.Parsed
      ⟨"en", "app", [("a", .string "Hi"), ("b", .object [("c", .string "Yes")])]⟩ :=
    ⟨"\x7b\"a\": \"Hi\", \"b\": \x7b\"c\": \"Yes\"\x7d\x7d", by decide +kernel⟩
  have htarget : Catalog.Parsed ⟨"de", "app", [("b", .string "Ja")]⟩ :=
    ⟨"\x7b\"b\": \"Ja\"\x7d", by decide +kernel⟩
  constructor
  · exact ((reconcile_preserves .default .fail hsource htarget (by decide)).2.1 rfl).2.2
  · exact ((reconcile_preserves .default .overwrite hsource htarget
      (by decide)).2.2 rfl).1 "b" (by decide)

end Reconciliation

end LocaleAudit
