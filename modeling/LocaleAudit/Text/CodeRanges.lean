namespace LocaleAudit

/-!
# Sets of characters given by code ranges

Character classes are ascending lists of disjoint ranges of code points, both ends included.
-/

def inRanges (n : Nat) : List (Nat × Nat) → Bool
  | [] => false
  | (first, last) :: rest => if n < first then false else n ≤ last || inRanges n rest

@[simp] theorem inRanges_nil (n : Nat) : inRanges n [] = false := rfl

theorem inRanges_cons_of_lt {n first : Nat} (last : Nat) (rest : List (Nat × Nat))
    (h : n < first) : inRanges n ((first, last) :: rest) = false := by
  simp [inRanges, h]

end LocaleAudit
