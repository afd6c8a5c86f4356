import LocaleAudit.KeyPath.Traversal
import LocaleAudit.Proofs.KeyPath.Leaves

namespace LocaleAudit

/-!
# A traversal gives the leaves in document order

Each step takes one step off what is left, and nothing off the leaves that are left but the one it
gives. So a traversal comes to an end, and what it has given then are the leaves of its tree.
-/

open Json (Value)

namespace KeyPath.Traversal

variable {t rest : Traversal} {given : Option (String × Value)}

/-- What a traversal has still to give, object by object from the innermost. -/
def leavesLeft (t : Traversal) : List (String × Value) :=
  t.opened.flatMap fun level => leavesBelow level.1 level.2

theorem opened_of_step_eq_none (h : t.step = none) : t.opened = [] := by
  unfold step at h
  split at h
  · rfl
  · cases h
  · cases h
  · cases h

theorem step_eq_none_iff : t.step = none ↔ t.stepsLeft = 0 := by
  constructor
  · intro h
    rw [stepsLeft, opened_of_step_eq_none h, stepsWithin]
  · intro h
    cases hstep : t.step with
    | none => rfl
    | some next =>
      have hleft := stepsLeft_of_step hstep
      omega

theorem leavesLeft_of_step_eq_none (h : t.step = none) : t.leavesLeft = [] := by
  rw [leavesLeft, opened_of_step_eq_none h, List.flatMap_nil]

theorem leavesLeft_of_step (h : t.step = some (given, rest)) :
    t.leavesLeft = given.toList ++ rest.leavesLeft := by
  cases steps_of_step h with
  | out parent outer => rfl
  | into parent key child fields outer => simp [leavesLeft, leavesBelow, leavesAt]
  | past parent key fields outer hleaf => simp [leavesLeft, leavesBelow, leavesAt_leaf _ hleaf]

theorem leavesLeft_of_next?_eq_none (h : t.next? = none) : t.leavesLeft = [] := by
  fun_induction next? t with
  | case1 t hstep => exact leavesLeft_of_step_eq_none hstep
  | case2 t within hstep ih =>
    rw [leavesLeft_of_step hstep]
    exact ih h
  | case3 t leaf within hstep => cases h

theorem leavesLeft_of_next? {leaf : String × Value} (h : t.next? = some (leaf, rest)) :
    t.leavesLeft = leaf :: rest.leavesLeft := by
  fun_induction next? t with
  | case1 t hstep => cases h
  | case2 t within hstep ih =>
    rw [leavesLeft_of_step hstep]
    exact ih h
  | case3 t leaf' within hstep =>
    cases h
    rw [leavesLeft_of_step hstep]
    rfl

theorem toList_eq_leavesLeft (t : Traversal) : t.toList = t.leavesLeft := by
  fun_induction toList t with
  | case1 t hnext => exact (leavesLeft_of_next?_eq_none hnext).symm
  | case2 t leaf within hnext ih => rw [leavesLeft_of_next? hnext, ih]

theorem toList_start (tree : Tree) : (start tree).toList = leaves tree := by
  rw [toList_eq_leavesLeft]
  exact List.append_nil _

end KeyPath.Traversal

end LocaleAudit
