import LocaleAudit.LanguageTag
import LocaleAudit.Proofs.Path

namespace LocaleAudit.LanguageTag

/-!
# Language codes as names

A language code begins with a letter and holds no null character. So a code without `/` can name a
directory.
-/

theorem not_null_of_isAsciiLetter {c : Char} (h : isAsciiLetter c = true) : c ≠ '\x00' := by
  rintro rfl
  cases h

theorem not_null_of_isAsciiDigit {c : Char} (h : isAsciiDigit c = true) : c ≠ '\x00' := by
  rintro rfl
  cases h

theorem not_null_mem_of_all {p : Char → Bool} (hp : ∀ c, p c = true → c ≠ '\x00') {s : List Char}
    (h : s.all p = true) : '\x00' ∉ s :=
  fun hmem => hp _ (List.all_eq_true.mp h _ hmem) rfl

theorem not_null_mem_of_isScript {s : List Char} (h : isScript s = true) : '\x00' ∉ s := by
  rw [isScript, Bool.and_eq_true] at h
  exact not_null_mem_of_all (fun _ => not_null_of_isAsciiLetter) h.2

theorem not_null_mem_of_isRegion {s : List Char} (h : isRegion s = true) : '\x00' ∉ s := by
  rw [isRegion, Bool.or_eq_true, Bool.and_eq_true, Bool.and_eq_true] at h
  rcases h with h | h
  · exact not_null_mem_of_all (fun _ => not_null_of_isAsciiLetter) h.2
  · exact not_null_mem_of_all (fun _ => not_null_of_isAsciiDigit) h.2

theorem not_null_mem_of_isVariant {s : List Char} (h : isVariant s = true) : '\x00' ∉ s := by
  simp only [isVariant, Bool.or_eq_true, Bool.and_eq_true] at h
  rcases h with h | h
  · refine not_null_mem_of_all (fun c hc => ?_) h.2
    rw [isAsciiAlphanumeric, Bool.or_eq_true] at hc
    exact hc.elim not_null_of_isAsciiLetter not_null_of_isAsciiDigit
  · refine not_null_mem_of_all (fun c hc => ?_) h.1.2
    rintro rfl
    simp at hc

theorem mem_or_of_dropOne {p : List Char → Bool} {pieces : List (List Char)} {s : List Char}
    (h : s ∈ pieces) : p s = true ∨ s ∈ dropOne p pieces := by
  cases pieces with
  | nil => cases h
  | cons first rest =>
    rw [dropOne]
    split
    · rename_i hfirst
      rcases List.mem_cons.mp h with rfl | h
      · exact Or.inl hfirst
      · exact Or.inr h
    · exact Or.inr h

/-- The subtags of a code, of which the first one is a language. -/
theorem subtags_of_isValid {tag : List Char} (h : isValid tag = true) :
    ∃ language rest, subtags tag = language :: rest ∧ isLanguage language = true ∧
      ∀ s ∈ language :: rest, '\x00' ∉ s := by
  unfold isValid at h
  split at h
  · cases h
  · rename_i language rest hsubtags
    rw [Bool.and_eq_true] at h
    refine ⟨language, rest, hsubtags, h.1, List.forall_mem_cons.mpr ⟨?_, fun s hs => ?_⟩⟩
    · simp only [isLanguage, Bool.and_eq_true] at h
      exact not_null_mem_of_all (fun _ => not_null_of_isAsciiLetter) h.1.1.1.1
    · rcases mem_or_of_dropOne (p := isScript) hs with hscript | hs
      · exact not_null_mem_of_isScript hscript
      rcases mem_or_of_dropOne (p := isRegion) hs with hregion | hs
      · exact not_null_mem_of_isRegion hregion
      · exact not_null_mem_of_isVariant (List.all_eq_true.mp h.2 s hs)

theorem not_null_mem_of_isValid {tag : List Char} (h : isValid tag = true) : '\x00' ∉ tag := by
  obtain ⟨language, rest, hsubtags, _, hnull⟩ := subtags_of_isValid h
  intro hmem
  have hmap : '\x00' ∈ tag.map fun c => if c = '_' then '-' else c :=
    List.mem_map.mpr ⟨'\x00', hmem, rfl⟩
  rw [← hsubtags, subtags, splitOnChar_eq_splitOn] at hnull
  have hdash : '\x00' ∉ ['-'] := by decide
  have hjoined := Path.not_mem_intercalate hdash hnull
  rw [List.intercalate_splitOn] at hjoined
  exact hjoined hmap

theorem head?_of_splitOnChar {separator : Char} {s first : List Char} {rest : List (List Char)}
    (h : splitOnChar separator s = first :: rest) (hfirst : first ≠ []) :
    first.head? = s.head? := by
  cases s with
  | nil =>
    cases h
    rfl
  | cons c s =>
    rw [splitOnChar] at h
    split at h
    · cases h
      exact absurd rfl hfirst
    · split at h <;>
      · cases h
        rfl

/-- A code begins with a letter. -/
theorem head_of_isValid {tag : List Char} (h : isValid tag = true) :
    ∃ c rest, tag = c :: rest ∧ isAsciiLetter c = true := by
  obtain ⟨language, rest, hsubtags, hlanguage, _⟩ := subtags_of_isValid h
  simp only [isLanguage, Bool.and_eq_true, decide_eq_true_eq] at hlanguage
  obtain ⟨⟨⟨hletters, hlength⟩, _⟩, _⟩ := hlanguage
  cases language with
  | nil => simp at hlength
  | cons d language =>
    have hhead := head?_of_splitOnChar hsubtags (List.cons_ne_nil _ _)
    rw [List.all_cons, Bool.and_eq_true] at hletters
    cases tag with
    | nil => cases hhead
    | cons c tag =>
      refine ⟨c, tag, rfl, ?_⟩
      have hd : d = if c = '_' then '-' else c := by simpa using hhead
      rw [hd] at hletters
      by_cases hc : c = '_'
      · rw [if_pos hc] at hletters
        cases hletters.1
      · rw [if_neg hc] at hletters
        exact hletters.1

theorem isValid_of_check {code : String} (h : check code = .ok ()) :
    isValid code.toList = true := by
  unfold check at h
  split at h
  · cases h
  split at h
  · assumption
  · cases h

theorem isName_of_check {code : String} (h : check code = .ok ()) (hslash : '/' ∉ code.toList) :
    IsName code := by
  have hvalid := isValid_of_check h
  obtain ⟨c, rest, hcode, hc⟩ := head_of_isValid hvalid
  have hne : ∀ other : String, other.toList.head?.any isAsciiLetter = false → code ≠ other := by
    rintro other hother rfl
    simp [hcode, hc] at hother
  exact {
    nonempty := hne "" (by decide)
    not_here := hne "." (by decide)
    not_up := hne ".." (by decide)
    no_slash := hslash
    no_nul := not_null_mem_of_isValid hvalid }

theorem no_dot_of_check {code : String} (h : check code = .ok ()) :
    code.startsWith "." = false := by
  obtain ⟨c, rest, hcode, hc⟩ := head_of_isValid (isValid_of_check h)
  rw [String.startsWith_string_eq_false_iff, hcode]
  rintro ⟨_, hdot⟩
  obtain ⟨rfl, _⟩ := List.cons.inj hdot
  cases hc

end LocaleAudit.LanguageTag
