import LocaleAudit.Proofs.Text.Scanning

namespace LocaleAudit

/-!
# What a scan finds

A recogniser that knows exactly the spellings of a language makes a scan find the spellings of a
text from left to right: the first one, then the first one behind it, and so on.
-/

variable {α : Type} {recognise : Recogniser α} {Spelled : α → List Char → Prop} {s : List Char}

/-- The spellings in a text from left to right. Where one starts it is taken whole; a character at
which none starts is passed over. -/
inductive LeftToRight (Spelled : α → List Char → Prop) : List Char → List α → Prop
  | nil : LeftToRight Spelled [] []
  | found {a : α} {front rest : List Char} {found : List α} (ha : Spelled a front)
      (hrest : LeftToRight Spelled rest found) : LeftToRight Spelled (front ++ rest) (a :: found)
  | passed {c : Char} {cs : List Char} {found : List α}
      (hnone : ∀ a front rest, Spelled a front → front ++ rest ≠ c :: cs)
      (hrest : LeftToRight Spelled cs found) : LeftToRight Spelled (c :: cs) found

/-! ## Spellings -/

/-- The recogniser answers exactly where a spelling stands in front, with what it spells and its
length. -/
structure Recogniser.Knows (recognise : Recogniser α) (Spelled : α → List Char → Prop) : Prop where
  ne_nil : ∀ a front, Spelled a front → front ≠ []
  eq_some_iff : ∀ before s a n, recognise before s = some (a, n) ↔
    ∃ front rest, s = front ++ rest ∧ n = front.length ∧ Spelled a front

namespace Recogniser.Knows

theorem eq_some (h : recognise.Knows Spelled) {a : α} {front : List Char} (ha : Spelled a front)
    (before : Option Char) (rest : List Char) :
    recognise before (front ++ rest) = some (a, front.length) :=
  (h.eq_some_iff before _ a _).mpr ⟨front, rest, rfl, rfl, ha⟩

theorem eq_none (h : recognise.Knows Spelled)
    (hnone : ∀ a front rest, Spelled a front → front ++ rest ≠ s) (before : Option Char) :
    recognise before s = none := by
  rw [Option.eq_none_iff_forall_ne_some]
  rintro ⟨a, n⟩ hsome
  obtain ⟨front, rest, hs, _, ha⟩ := (h.eq_some_iff before s a n).mp hsome
  exact hnone a front rest ha hs.symm

theorem contextFree (h : recognise.Knows Spelled) : recognise.ContextFree := by
  intro before before' s
  refine Option.ext fun ⟨a, n⟩ => ?_
  rw [h.eq_some_iff, h.eq_some_iff]

theorem leftToRight_scan (h : recognise.Knows Spelled) (s : List Char) :
    LeftToRight Spelled s (scan recognise s) := by
  -- A spelling is taken whole, so the induction is on the length of the text.
  induction hlength : s.length using Nat.strongRecOn generalizing s with
  | ind length ih =>
    subst hlength
    cases s with
    | nil => exact .nil
    | cons c cs =>
      cases hfront : recognise none (c :: cs) with
      | none =>
        rw [h.contextFree.scan_miss hfront]
        refine .passed (fun a front rest ha heq => ?_) (ih cs.length (Nat.lt_succ_self _) cs rfl)
        have hsome := h.eq_some ha none rest
        rw [heq, hfront] at hsome
        cases hsome
      | some answer =>
        obtain ⟨a, n⟩ := answer
        obtain ⟨front, rest, hs, rfl, ha⟩ := (h.eq_some_iff none _ a n).mp hfront
        have hne := h.ne_nil a front ha
        rw [hs] at hfront ih ⊢
        rw [h.contextFree.scan_match hne hfront]
        have hshorter : rest.length < (front ++ rest).length := by
          have := List.length_pos_iff.mpr hne
          rw [List.length_append]
          omega
        exact .found ha (ih rest.length hshorter rest rfl)

theorem eq_scan (h : recognise.Knows Spelled) {found : List α}
    (hfound : LeftToRight Spelled s found) : found = scan recognise s := by
  induction hfound with
  | nil => rfl
  | found ha _ ih => rw [h.contextFree.scan_match (h.ne_nil _ _ ha) (h.eq_some ha none _), ← ih]
  | passed hnone _ ih => rw [h.contextFree.scan_miss (h.eq_none hnone none), ← ih]

theorem leftToRight_iff (h : recognise.Knows Spelled) {found : List α} :
    LeftToRight Spelled s found ↔ found = scan recognise s := by
  constructor
  · exact h.eq_scan
  · rintro rfl
    exact h.leftToRight_scan s

end Recogniser.Knows

end LocaleAudit
