import LocaleAudit.Proofs.KeyPath.Traversal
import LocaleAudit.Proofs.Reconciliation.Conflicts

namespace LocaleAudit

/-!
# The leaves of a catalog have addresses

In a catalog that a document spells, taking leaves one by one, listing them and looking them up by
their paths are three views of one tree. So reconciliation finds the default value of every path
that a target lacks.
-/

open Json (Value)

namespace Catalog

variable {c : Catalog}

theorem head?_pathConflict_message (path blocked : String) :
    (Error.pathConflict path blocked).message.toList.head? = some 'p' := by
  have hmessage : (Error.pathConflict path blocked).message =
      s!"path conflict at \x60{blocked}\x60 while setting \x60{path}\x60" := rfl
  have hstart : (toString "path conflict at \x60").toList.head? = some 'p' := by decide
  simp only [hmessage, String.toList_append, List.head?_append, hstart, Option.some_or]

/-- Leaves and looking up describe the same tree. -/
structure Addressed (c : Catalog) : Prop where
  /-- Every step of a traversal is one of those it has left, and it stops when none is left. -/
  ends : ∀ t : KeyPath.Traversal, (t.step = none ↔ t.stepsLeft = 0) ∧
    ∀ given rest, t.step = some (given, rest) → rest.stepsLeft + 1 = t.stepsLeft
  traversal_eq : (KeyPath.Traversal.start c.tree).toList = c.leaves
  distinct : c.leafPaths.Nodup
  prefixFree : ∀ p ∈ c.leafPaths, ∀ q ∈ c.leafPaths, KeyPath.isProperPrefix p q = false
  mem_iff : ∀ path v, (path, v) ∈ c.leaves ↔ c.get? path = some v ∧ v.isObject = false
  /-- No target lacks a path at which the default catalog has nothing to look up. -/
  found : ∀ target, ∀ path ∈ Difference.missingPaths c target, ∃ v, c.get? path = some v
  reason_ne : ∀ marker policy target,
    ∀ conflict ∈ (Reconciliation.reconcile marker policy c target).2.conflicts,
      conflict.reason ≠ "key is not addressable by a dotted path"

/-- Every catalog that a document spells has addresses for its leaves. -/
theorem leaves_addressed (hc : c.Parsed) : c.Addressed := by
  have h := hc.wellFormed
  constructor
  · intro t
    exact ⟨KeyPath.Traversal.step_eq_none_iff, fun _ _ => KeyPath.Traversal.stepsLeft_of_step⟩
  · exact KeyPath.Traversal.toList_start c.tree
  · exact KeyPath.nodup_leafPaths h
  · intro p hp q hq
    exact KeyPath.not_isProperPrefix_of_mem h hp hq
  · exact fun _ _ => KeyPath.mem_leaves_iff h
  · intro target path hpath
    obtain ⟨v, hget, _⟩ :=
      (KeyPath.mem_leafPaths_iff h).mp (Reconciliation.mem_missingPaths.mp hpath).1
    exact ⟨v, hget⟩
  · intro marker policy target conflict hconflict hreason
    obtain ⟨path, blocked, rfl⟩ := Reconciliation.mem_conflicts_reconcile h hconflict
    have hmessage : (Error.pathConflict path blocked).message =
        "key is not addressable by a dotted path" := hreason
    have hhead := head?_pathConflict_message path blocked
    rw [hmessage] at hhead
    revert hhead
    decide

/-- An empty object has no leaf, an array is one. -/
theorem leaves_addressed_nested :
    let c : Catalog := ⟨"en", "app", [("z", .string "1"),
      ("a", .object [("b", .object []), ("c", .object [("d", .null)])]), ("l", .array [.null])]⟩
    c.Parsed ∧ c.Addressed ∧
      c.leaves = [("z", .string "1"), ("a.c.d", .null), ("l", .array [.null])] := by
  have hparsed : Parsed ⟨"en", "app", [("z", .string "1"),
      ("a", .object [("b", .object []), ("c", .object [("d", .null)])]),
      ("l", .array [.null])]⟩ :=
    ⟨"\x7b\"z\":\"1\",\"a\":\x7b\"b\":\x7b\x7d,\"c\":\x7b\"d\":null\x7d\x7d,\"l\":[null]\x7d",
      by decide +kernel⟩
  exact ⟨hparsed, leaves_addressed hparsed, rfl⟩

end Catalog

end LocaleAudit
