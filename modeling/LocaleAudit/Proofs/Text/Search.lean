import LocaleAudit.Text.Search
import Mathlib.Data.List.Infix

namespace LocaleAudit

/-!
# Searching in text

The pieces of a text are those of its parts, a beginning is a prefix and a text that occurs is an
infix. Replacing goes from left to right: an occurrence is replaced as a whole, and text without
the first character of the needle stays as it is.
-/

/-! ## Pieces -/

theorem splitOnChar_eq_splitOn (separator : Char) (s : List Char) :
    splitOnChar separator s = s.splitOn separator := by
  induction s with
  | nil => rfl
  | cons c cs ih =>
    rw [List.splitOn_cons_eq_if_modifyHead, splitOnChar, ih]
    by_cases h : c = separator
    · simp [h]
    · cases hs : cs.splitOn separator with
      | nil => exact absurd hs (List.splitOn_ne_nil separator cs)
      | cons piece pieces => simp [h]

theorem splitOnChar_append (separator : Char) (s t : List Char) :
    splitOnChar separator (s ++ separator :: t) =
      splitOnChar separator s ++ splitOnChar separator t := by
  induction s with
  | nil => rw [List.nil_append, splitOnChar_cons_same, splitOnChar, List.singleton_append]
  | cons c s ih =>
    rw [List.cons_append, splitOnChar, splitOnChar, ih]
    split
    · rfl
    · cases hs : splitOnChar separator s with
      | nil => exact absurd hs (splitOnChar_ne_nil separator s)
      | cons piece pieces => rfl

theorem splitOnChar_of_not_mem {separator : Char} {s : List Char} (h : separator ∉ s) :
    splitOnChar separator s = [s] := by
  induction s with
  | nil => rfl
  | cons c s ih =>
    rw [List.mem_cons, not_or] at h
    rw [splitOnChar, if_neg (Ne.symm h.1), ih h.2]

theorem not_mem_of_mem_splitOnChar {separator : Char} {s piece : List Char}
    (h : piece ∈ splitOnChar separator s) : separator ∉ piece := by
  induction s generalizing piece with
  | nil => simp_all [splitOnChar]
  | cons c cs ih =>
    rw [splitOnChar] at h
    split at h
    · rcases List.mem_cons.mp h with rfl | h
      · simp
      · exact ih h
    · rename_i hc
      split at h
      · simp_all [Ne.symm hc]
      · rename_i first rest hrest
        rcases List.mem_cons.mp h with rfl | h
        · have hfirst : separator ∉ first := ih (by simp [hrest])
          simp [Ne.symm hc, hfirst]
        · exact ih (by simp [hrest, h])

theorem intercalate_splitOnChar (separator : Char) (s : List Char) :
    [separator].intercalate (splitOnChar separator s) = s := by
  rw [splitOnChar_eq_splitOn, List.intercalate_splitOn]

theorem splitOnChar_eq_singleton_iff {separator : Char} {s piece : List Char} :
    splitOnChar separator s = [piece] ↔ s = piece ∧ separator ∉ piece := by
  constructor
  · intro h
    have hs := intercalate_splitOnChar separator s
    rw [h] at hs
    exact ⟨by simpa using hs.symm, not_mem_of_mem_splitOnChar (h ▸ List.mem_singleton_self piece)⟩
  · rintro ⟨rfl, hseparator⟩
    exact splitOnChar_of_not_mem hseparator

theorem splitOnChar_eq_pair_iff {separator : Char} {s first last : List Char} :
    splitOnChar separator s = [first, last] ↔
      s = first ++ separator :: last ∧ separator ∉ first ∧ separator ∉ last := by
  constructor
  · intro h
    have hs := intercalate_splitOnChar separator s
    have hpiece : ∀ piece ∈ [first, last], separator ∉ piece := fun piece hpiece =>
      not_mem_of_mem_splitOnChar (h ▸ hpiece)
    rw [h] at hs
    exact ⟨by simpa [List.intercalate] using hs.symm, hpiece first (by simp), hpiece last (by simp)⟩
  · rintro ⟨rfl, hfirst, hlast⟩
    rw [splitOnChar_append, splitOnChar_of_not_mem hfirst, splitOnChar_of_not_mem hlast]
    rfl

theorem length_splitOnChar (separator : Char) (s : List Char) :
    (splitOnChar separator s).length = s.count separator + 1 := by
  induction s with
  | nil => rfl
  | cons c s ih =>
    rw [splitOnChar, List.count_cons]
    by_cases h : c = separator
    · simp [h, ih]
    · cases hs : splitOnChar separator s with
      | nil => exact absurd hs (splitOnChar_ne_nil separator s)
      | cons piece pieces =>
        rw [hs] at ih
        simpa [h] using ih

/-! ## Beginnings and occurrences -/

theorem stripStart?_cons_of_ne {p c : Char} (h : c ≠ p) (ps cs : List Char) :
    stripStart? (p :: ps) (c :: cs) = none := by
  rw [stripStart?, if_neg (Ne.symm h)]

theorem startsWith_iff {p s : List Char} : startsWith p s = true ↔ p <+: s := by
  constructor
  · intro h
    obtain ⟨rest, hrest⟩ := Option.isSome_iff_exists.mp h
    exact ⟨rest, (eq_append_of_stripStart? hrest).symm⟩
  · rintro ⟨rest, rfl⟩
    simp [startsWith, stripStart?_append]

theorem containsText_iff {needle s : List Char} :
    containsText needle s = true ↔ needle <:+: s := by
  induction s with
  | nil => simp [containsText]
  | cons c cs ih => rw [containsText, Bool.or_eq_true, startsWith_iff, ih, List.infix_cons_iff]

/-! ## Replacing -/

theorem replaceFrom_skip (needle image front rest : List Char) :
    replaceFrom needle image front.length (front ++ rest) = replaceAll needle image rest := by
  induction front with
  | nil => rfl
  | cons c cs ih => exact ih

theorem replaceAll_match {needle : List Char} (hne : needle ≠ []) (image rest : List Char) :
    replaceAll needle image (needle ++ rest) = image ++ replaceAll needle image rest := by
  obtain ⟨c, cs, rfl⟩ := List.exists_cons_of_ne_nil hne
  have hstarts : startsWith (c :: cs) (c :: (cs ++ rest)) = true :=
    startsWith_iff.mpr ⟨rest, rfl⟩
  rw [replaceAll, List.cons_append, replaceFrom, if_pos hstarts, List.length_cons,
    Nat.add_sub_cancel, replaceFrom_skip]

theorem replaceAll_miss {needle cs : List Char} {c : Char} (h : ¬needle <+: c :: cs)
    (image : List Char) :
    replaceAll needle image (c :: cs) = c :: replaceAll needle image cs := by
  rw [replaceAll, replaceFrom, if_neg (fun hstarts => h (startsWith_iff.mp hstarts))]
  rfl

theorem replaceAll_append_of_not_mem {first : Char} {front : List Char} (h : first ∉ front)
    (needle image rest : List Char) :
    replaceAll (first :: needle) image (front ++ rest) =
      front ++ replaceAll (first :: needle) image rest := by
  induction front with
  | nil => rfl
  | cons c cs ih =>
    rw [List.mem_cons, not_or] at h
    have hmiss : ¬first :: needle <+: c :: (cs ++ rest) := fun hprefix =>
      h.1 (List.cons_prefix_cons.mp hprefix).1
    rw [List.cons_append, replaceAll_miss hmiss, ih h.2, List.cons_append]

theorem replaceAll_of_not_mem {first : Char} {s : List Char} (h : first ∉ s)
    (needle image : List Char) : replaceAll (first :: needle) image s = s := by
  have happend := replaceAll_append_of_not_mem h needle image []
  have hnil : replaceAll (first :: needle) image [] = [] := rfl
  rwa [hnil, List.append_nil] at happend

end LocaleAudit
