import LocaleAudit.Text.Blank
import LocaleAudit.Text.WordChars
import Mathlib.Data.List.TakeWhile

namespace LocaleAudit

/-!
# Classes of characters

A run of characters of a class ends where the first other one stands. A blank is no word character,
so a name ends in front of it.
-/

/-! ## Runs -/

theorem span_append {p : Char → Bool} {run rest : List Char} (hrun : ∀ c ∈ run, p c = true)
    (hrest : ∀ c ∈ rest.head?, p c = false) :
    (run ++ rest).takeWhile p = run ∧ (run ++ rest).dropWhile p = rest := by
  rw [List.takeWhile_append_of_pos hrun, List.dropWhile_append_of_pos hrun]
  cases rest with
  | nil => simp
  | cons c cs =>
    have hc : p c = false := hrest c rfl
    simp [hc]

theorem eq_append_of_dropWhile {p : Char → Bool} {s rest : List Char} {c : Char}
    (h : s.dropWhile p = c :: rest) :
    s = s.takeWhile p ++ c :: rest ∧ ∀ d ∈ s.takeWhile p, p d = true := by
  constructor
  · rw [← h]
    exact List.takeWhile_append_dropWhile.symm
  · exact fun d hd => List.mem_takeWhile_imp hd

theorem forall_ne_and_ne_iff {a b : Char} {s : List Char} :
    (∀ c ∈ s, (c != a && c != b) = true) ↔ a ∉ s ∧ b ∉ s := by
  simp only [Bool.and_eq_true, bne_iff_ne, forall_and]
  exact and_congr ⟨fun h hmem => h a hmem rfl, fun h c hc hca => h (hca ▸ hc)⟩
    ⟨fun h hmem => h b hmem rfl, fun h c hc hcb => h (hcb ▸ hc)⟩

theorem trimStart_append {blanks rest : List Char} (hblanks : ∀ c ∈ blanks, isBlank c = true)
    (hrest : ∀ c ∈ rest.head?, isBlank c = false) : trimStart (blanks ++ rest) = rest :=
  (span_append hblanks hrest).2

/-! ## Blanks and words -/

theorem exists_range_of_inRanges {n : Nat} {ranges : List (Nat × Nat)}
    (h : inRanges n ranges = true) : ∃ r ∈ ranges, r.1 ≤ n ∧ n ≤ r.2 := by
  induction ranges with
  | nil => simp at h
  | cons r rest ih =>
    obtain ⟨first, last⟩ := r
    simp only [inRanges] at h
    split at h
    case isTrue => cases h
    case isFalse hfirst =>
      rw [Bool.or_eq_true, decide_eq_true_eq] at h
      rcases h with hlast | hrest
      · exact ⟨(first, last), List.mem_cons_self, Nat.le_of_not_lt hfirst, hlast⟩
      · obtain ⟨r, hr, hn⟩ := ih hrest
        exact ⟨r, List.mem_cons_of_mem _ hr, hn⟩

/-- Ranges of which none overlaps one of the others. -/
def Apart (ranges others : List (Nat × Nat)) : Prop :=
  ∀ r ∈ ranges, ∀ q ∈ others, r.2 < q.1 ∨ q.2 < r.1

instance (ranges others : List (Nat × Nat)) : Decidable (Apart ranges others) :=
  inferInstanceAs (Decidable (∀ r ∈ ranges, ∀ q ∈ others, r.2 < q.1 ∨ q.2 < r.1))

theorem Apart.inRanges_eq_false {ranges others : List (Nat × Nat)} (h : Apart ranges others)
    {n : Nat} (hn : inRanges n ranges = true) : inRanges n others = false := by
  rw [Bool.eq_false_iff]
  intro hother
  obtain ⟨r, hr, hrfirst, hrlast⟩ := exists_range_of_inRanges hn
  obtain ⟨q, hq, hqfirst, hqlast⟩ := exists_range_of_inRanges hother
  have := h r hr q hq
  omega

theorem blankRanges_apart_letterRanges : Apart blankRanges letterRanges := by
  decide +kernel

theorem blankRanges_apart_wordMarkRanges : Apart blankRanges wordMarkRanges := by
  decide +kernel

theorem blankRanges_apart_numeralRanges : Apart blankRanges numeralRanges := by
  decide +kernel

theorem of_ascii {p : Char → Prop} (h : ∀ n < 128, p (Char.ofNat n)) {c : Char}
    (hc : c.toNat < 128) : p c := by
  have hcode := h c.toNat hc
  rwa [Char.ofNat_toNat] at hcode

theorem isWordChar_ascii_blank {c : Char} (hc : c.toNat < 128) :
    isBlank c = true → isWordChar c = false := by
  apply of_ascii _ hc
  decide +kernel

theorem isWordChar_of_isBlank {c : Char} (h : isBlank c = true) : isWordChar c = false := by
  by_cases hascii : c.toNat < 128
  · exact isWordChar_ascii_blank hascii h
  · rw [isWordChar, if_neg hascii, isLetter, if_neg hascii,
      blankRanges_apart_letterRanges.inRanges_eq_false h,
      blankRanges_apart_wordMarkRanges.inRanges_eq_false h]
    rfl

theorem isAlphanumeric_ascii_blank {c : Char} (hc : c.toNat < 128) :
    isBlank c = true → isAlphanumeric c = false := by
  apply of_ascii _ hc
  decide +kernel

theorem isAlphanumeric_of_isBlank {c : Char} (h : isBlank c = true) :
    isAlphanumeric c = false := by
  by_cases hascii : c.toNat < 128
  · exact isAlphanumeric_ascii_blank hascii h
  · rw [isAlphanumeric, isLetter, if_neg hascii, isNumeral, if_neg hascii,
      blankRanges_apart_letterRanges.inRanges_eq_false h,
      blankRanges_apart_numeralRanges.inRanges_eq_false h]
    rfl

theorem isIdentifierChar_of_isBlank {c : Char} (h : isBlank c = true) :
    isIdentifierChar c = false := by
  have hdollar : c ≠ '$' := by
    rintro rfl
    revert h
    decide
  rw [isIdentifierChar, isWordChar_of_isBlank h]
  simp [hdollar]

theorem isWordChar_of_isAsciiLetter {c : Char} (h : isAsciiLetter c = true) :
    isWordChar c = true := by
  have hascii : c.toNat < 128 := by
    have hcases : ('a' ≤ c ∧ c ≤ 'z') ∨ ('A' ≤ c ∧ c ≤ 'Z') := by
      simpa only [isAsciiLetter, Bool.or_eq_true, Bool.and_eq_true, decide_eq_true_eq] using h
    rcases hcases with ⟨_, hlast⟩ | ⟨_, hlast⟩
    · have hcode : c.toNat ≤ 122 := hlast
      omega
    · have hcode : c.toNat ≤ 90 := hlast
      omega
  rw [isWordChar, if_pos hascii, h]
  rfl

end LocaleAudit
