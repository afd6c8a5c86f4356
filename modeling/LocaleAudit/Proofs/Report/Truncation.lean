import LocaleAudit.Proofs.Text.DisplayWidth
import LocaleAudit.Report.Human

namespace LocaleAudit

/-!
# Values on one line

A value that is too wide is cut in front of the first character for which, measured alone, no column
is left, and dots show it. Whether it is too wide was decided with the columns of the whole text,
and these can be more: what is left exceeds the line by the kept characters that are widened, and by
no more. Without such characters the line is kept.
-/

/-- A value with its line feeds written out. -/
def oneLine (value : String) : List Char :=
  value.toList.flatMap fun c => if c = '\n' then ['\\', 'n'] else [c]

theorem replaceAll_singleton (c : Char) (image s : List Char) :
    replaceAll [c] image s = s.flatMap fun d => if d = c then image else [d] := by
  unfold replaceAll
  induction s with
  | nil => rfl
  | cons d s ih =>
    rw [List.flatMap_cons, ← ih, replaceFrom]
    by_cases h : d = c
    · subst h
      rw [if_pos (by simp [startsWith, stripStart?]), if_pos rfl]
      rfl
    · have hmiss : startsWith [c] (d :: s) = false := by
        simp [startsWith, stripStart?, Ne.symm h]
      rw [hmiss, if_neg h]
      rfl

theorem flat_eq_oneLine (value : String) :
    replaceAll ['\n'] ['\\', 'n'] value.toList = oneLine value :=
  replaceAll_singleton '\n' ['\\', 'n'] value.toList

/-! ## Cutting -/

variable {w : Widths} {value : String} {columns width : Nat}

/-- A beginning that fits, and the first character behind it does not fit any more. -/
structure Cut (w : Widths) (columns : Nat) (s kept : List Char) : Prop where
  fits : w.soloColumns kept ≤ columns
  isPrefix : kept <+: s
  longest : ∀ c, kept ++ [c] <+: s → columns < w.soloColumns kept + w.soloWidth c

namespace Cut

variable {c : Char} {cs kept : List Char}

theorem nil (w : Widths) (columns : Nat) : Cut w columns [] [] where
  fits := Nat.zero_le _
  isPrefix := List.prefix_rfl
  longest := fun c h => by simp at h

theorem cons (hc : w.soloWidth c ≤ columns) (h : Cut w (columns - w.soloWidth c) cs kept) :
    Cut w columns (c :: cs) (c :: kept) where
  fits := by
    have hfits := h.fits
    rw [Widths.soloColumns]
    omega
  isPrefix := List.cons_prefix_cons.mpr ⟨rfl, h.isPrefix⟩
  longest := by
    intro next hnext
    rw [List.cons_append, List.cons_prefix_cons] at hnext
    have hlongest := h.longest next hnext.2
    rw [Widths.soloColumns]
    omega

theorem stop (hc : columns < w.soloWidth c) : Cut w columns (c :: cs) [] where
  fits := Nat.zero_le _
  isPrefix := List.nil_prefix
  longest := by
    intro next hnext
    rw [List.nil_append, List.cons_prefix_cons] at hnext
    rw [hnext.1, Widths.soloColumns]
    omega

end Cut

theorem cut_takeColumns (w : Widths) (columns : Nat) (s : List Char) :
    Cut w columns s (takeColumns w columns s) := by
  induction s generalizing columns with
  | nil => exact .nil w columns
  | cons c cs ih =>
    rw [takeColumns]
    by_cases hc : w.soloWidth c ≤ columns
    · exact (if_pos hc).symm ▸ .cons hc (ih _)
    · exact (if_neg hc).symm ▸ .stop (by omega)

/-! ## Lines -/

def cutMark : List Char := ['.', '.', '.']

theorem Widths.Documented.cutMark (hw : w.Documented) (s : List Char) :
    w.ofText (s ++ cutMark) = w.ofText s + 3 := by
  have hsplit : s ++ LocaleAudit.cutMark = s ++ ['.'] ++ ['.'] ++ ['.'] := by
    simp [LocaleAudit.cutMark]
  rw [hsplit, hw.dot, hw.dot, hw.dot]

theorem Cut.ofText_append_dots_le {s kept : List Char} (hw : w.Documented)
    (h : Cut w columns s kept) : w.ofText (kept ++ cutMark) ≤ columns + 3 + widened kept := by
  have hkept := hw.neighbours kept
  have hfits := h.fits
  rw [hw.cutMark]
  omega

theorem plain_oneLine
    (h : ∀ c ∈ value.toList, c = '\n' ∨ isControl c = false ∧ c ≠ emojiSelector) :
    ∀ c ∈ oneLine value, isControl c = false ∧ c ≠ emojiSelector := by
  intro c hc
  obtain ⟨d, hd, hc⟩ := List.mem_flatMap.mp hc
  split at hc
  · rcases List.mem_cons.mp hc with rfl | hc
    · decide
    · obtain rfl := List.mem_singleton.mp hc
      decide
  · rename_i hline
    obtain rfl := List.mem_singleton.mp hc
    exact (h c hd).resolve_left hline

theorem truncateWith_of_fits (h : w.ofText (oneLine value) ≤ width) :
    (truncateWith w value width).toList = oneLine value := by
  simp only [truncateWith, flat_eq_oneLine, if_pos h, String.toList_ofList]

theorem truncateWith_of_exceeds (h : width < w.ofText (oneLine value)) :
    ∃ kept, Cut w (width - 3) (oneLine value) kept ∧
      (truncateWith w value width).toList = kept ++ cutMark := by
  refine ⟨_, cut_takeColumns w (width - 3) (oneLine value), ?_⟩
  simp only [truncateWith, flat_eq_oneLine, if_neg (Nat.not_le_of_lt h), String.toList_ofList]
  rfl

/-- A value on a line of a number of columns: whole if it fits, otherwise its longest beginning that
leaves room for the dots behind it. -/
inductive OnOneLine (w : Widths) (width : Nat) (value : String) : List Char → Prop where
  | whole (hfits : w.ofText (oneLine value) ≤ width) : OnOneLine w width value (oneLine value)
  | cut {kept : List Char} (hexceeds : width < w.ofText (oneLine value))
      (hcut : Cut w (width - 3) (oneLine value) kept) : OnOneLine w width value (kept ++ cutMark)

theorem onOneLine_truncateWith (w : Widths) (value : String) (width : Nat) :
    OnOneLine w width value (truncateWith w value width).toList := by
  by_cases hfits : w.ofText (oneLine value) ≤ width
  · rw [truncateWith_of_fits hfits]
    exact .whole hfits
  · obtain ⟨kept, hkept, hshown⟩ := truncateWith_of_exceeds (Nat.lt_of_not_le hfits)
    rw [hshown]
    exact .cut (Nat.lt_of_not_le hfits) hkept

/-- A value is shown whole on its line when it fits, and otherwise as the longest beginning that,
measured character by character, leaves three columns, and dots. It can exceed the line by the kept
characters that are widened; without control characters and emoji selectors it never does. -/
theorem truncateWith_columns (hw : w.Documented) (value : String) (hwidth : 3 ≤ width) :
    (w.ofText (oneLine value) ≤ width →
      (truncateWith w value width).toList = oneLine value) ∧
    (width < w.ofText (oneLine value) → ∃ kept, Cut w (width - 3) (oneLine value) kept ∧
      (truncateWith w value width).toList = kept ++ cutMark ∧
      w.ofText (truncateWith w value width).toList ≤ width + widened kept) ∧
    ((∀ c ∈ value.toList, c = '\n' ∨ isControl c = false ∧ c ≠ emojiSelector) →
      w.ofText (truncateWith w value width).toList ≤ width) := by
  have hcut (h : width < w.ofText (oneLine value)) :
      ∃ kept, Cut w (width - 3) (oneLine value) kept ∧
        (truncateWith w value width).toList = kept ++ cutMark ∧
        w.ofText (truncateWith w value width).toList ≤ width + widened kept := by
    obtain ⟨kept, hkept, hshown⟩ := truncateWith_of_exceeds h
    have hbound := hkept.ofText_append_dots_le hw
    refine ⟨kept, hkept, hshown, ?_⟩
    rw [hshown]
    omega
  refine ⟨truncateWith_of_fits, hcut, fun hplain => ?_⟩
  by_cases hfits : w.ofText (oneLine value) ≤ width
  · rwa [truncateWith_of_fits hfits]
  · obtain ⟨kept, hkept, _, hbound⟩ := hcut (Nat.lt_of_not_le hfits)
    have hnone : widened kept = 0 :=
      widened_eq_zero fun c hc => plain_oneLine hplain c (hkept.isPrefix.subset hc)
    rwa [hnone] at hbound

/-- Wide characters, and a line feed that takes two columns. -/
theorem truncateWith_columns_wide :
    terminalWidths.Documented ∧ 3 ≤ 10 ∧ truncateDisplay "日本\n語テキスト" 10 = "日本\\n..." ∧
      terminalWidths.ofText (truncateDisplay "日本\n語テキスト" 10).toList ≤ 10 := by
  have hplain : ("日本\n語テキスト".toList.all fun c =>
      decide (c = '\n' ∨ isControl c = false ∧ c ≠ emojiSelector)) = true := by decide +kernel
  refine ⟨terminalWidths_documented, by decide, by decide +kernel, ?_⟩
  exact (truncateWith_columns terminalWidths_documented "日本\n語テキスト" (by decide)).2.2
    fun c hc => of_decide_eq_true (List.all_eq_true.mp hplain c hc)

/-- Eleven tabs are too wide for ten columns, and not one of them is cut off. -/
theorem uncut_tabs :
    ¬∀ (value : String) (width : Nat), 3 ≤ width →
      textWidth (truncateDisplay value width).toList ≤ width := by
  intro hall
  have htabs := hall "\t\t\t\t\t\t\t\t\t\t\t" 10 (by decide)
  revert htabs
  decide +kernel

end LocaleAudit
