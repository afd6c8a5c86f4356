import LocaleAudit.Proofs.Text.Classes
import LocaleAudit.Proofs.Text.Matches
import LocaleAudit.Source.Literals

namespace LocaleAudit

/-!
# Hard-coded text line by line

A carriage return at the end of a line can neither begin nor end anything the search looks for, so
the lines may as well be cut at the line feeds alone. The search in two texts with a line feed
between them is then the search in the first one and the search in the second one, with its lines
counted on.
-/

/-! ## Text with one more character at its end -/

theorem stripStart?_concat {c : Char} {p : List Char} (h : c ∉ p) (s : List Char) :
    stripStart? p (s ++ [c]) = (stripStart? p s).map (· ++ [c]) := by
  induction p generalizing s with
  | nil => rfl
  | cons first p ih =>
    rw [List.mem_cons, not_or] at h
    cases s with
    | nil => rw [List.nil_append, stripStart?_cons_of_ne h.1, stripStart?, Option.map_none]
    | cons d s =>
      rw [List.cons_append, stripStart?, stripStart?]
      split
      case isTrue => exact ih h.2 s
      case isFalse => rfl

theorem trimStart_concat {c : Char} (h : isBlank c = true) (s : List Char) :
    trimStart (s ++ [c]) = if trimStart s = [] then [] else trimStart s ++ [c] := by
  induction s with
  | nil => simp [trimStart, h]
  | cons d s ih =>
    cases hd : isBlank d with
    | true => rw [List.cons_append, trimStart_cons_blank hd, trimStart_cons_blank hd, ih]
    | false => simp [trimStart_cons_visible hd]

/-- Behind the blanks, one more blank at the end makes no difference to how the text begins. -/
theorem stripStart?_trimStart_concat {c : Char} {p : List Char} (hblank : isBlank c = true)
    (hp : c ∉ p) (hne : p ≠ []) (s : List Char) :
    stripStart? p (trimStart (s ++ [c])) = (stripStart? p (trimStart s)).map (· ++ [c]) := by
  rw [trimStart_concat hblank]
  split
  case isTrue hnil =>
    obtain ⟨first, p, rfl⟩ := List.exists_cons_of_ne_nil hne
    rw [hnil]
    rfl
  case isFalse => exact stripStart?_concat hp _

/-! ## Recognisers -/

namespace Recogniser

/-- A character at the end of a text neither begins a match nor changes one. -/
structure IgnoresLast {α : Type} (recognise : Recogniser α) (c : Char) : Prop where
  alone : ∀ before, recognise before [c] = none
  concat : ∀ before d s, recognise before (d :: s ++ [c]) = recognise before (d :: s)

variable {α : Type} {recognise : Recogniser α} {c : Char}

theorem IgnoresLast.scanFrom_concat (h : recognise.IgnoresLast c) (before : Option Char)
    (skip : Nat) (s : List Char) :
    scanFrom recognise before skip (s ++ [c]) = scanFrom recognise before skip s := by
  induction s generalizing before skip with
  | nil =>
    cases skip with
    | zero => rw [List.nil_append, scanFrom_miss (h.alone before), scanFrom_nil, scanFrom_nil]
    | succ skip => simp
  | cons d s ih =>
    cases skip with
    | zero =>
      rw [List.cons_append, scanFrom, scanFrom, ← List.cons_append, h.concat]
      cases recognise before (d :: s) with
      | none => exact ih _ _
      | some found => exact congrArg _ (ih _ _)
    | succ skip => exact ih _ _

theorem IgnoresLast.scan_concat (h : recognise.IgnoresLast c) (s : List Char) :
    scan recognise (s ++ [c]) = scan recognise s :=
  h.scanFrom_concat none 0 s

theorem IgnoresLast.occurs_concat (h : recognise.IgnoresLast c) (s : List Char) :
    occurs recognise (s ++ [c]) = occurs recognise s := by
  rw [occurs, occurs, h.scan_concat]

/-- A character that no spelling ends with is ignored at the end of the text. -/
theorem Knows.ignoresLast {Spelled : α → List Char → Prop} (h : recognise.Knows Spelled)
    (hlast : ∀ a front, Spelled a front → front.getLast? ≠ some c) : recognise.IgnoresLast c where
  alone := by
    intro before
    apply h.eq_none
    intro a front rest ha heq
    rcases List.append_eq_singleton_iff.mp heq with ⟨rfl, _⟩ | ⟨rfl, _⟩
    · exact h.ne_nil a [] ha rfl
    · exact hlast a [c] ha rfl
  concat := by
    intro before d s
    refine Option.ext fun ⟨a, n⟩ => ?_
    rw [h.eq_some_iff, h.eq_some_iff]
    constructor
    · rintro ⟨front, rest, hs, hn, ha⟩
      rcases List.eq_nil_or_concat rest with rfl | ⟨rest, e, rfl⟩
      · rw [List.append_nil] at hs
        exact absurd (hs ▸ List.getLast?_concat) (hlast a front ha)
      · rw [List.concat_eq_append, ← List.append_assoc] at hs
        exact ⟨front, rest, (List.append_inj' hs rfl).1, hn, ha⟩
    · rintro ⟨front, rest, hs, hn, ha⟩
      exact ⟨front, rest ++ [c], by rw [hs, List.append_assoc], hn, ha⟩

end Recogniser

/-- What is found in a text stands in it. -/
theorem LeftToRight.exists_infix {α : Type} {Spelled : α → List Char → Prop} {s : List Char}
    {found : List α} (h : LeftToRight Spelled s found) :
    ∀ a ∈ found, ∃ front, Spelled a front ∧ front <:+: s := by
  induction h with
  | nil => simp
  | found ha _ ih =>
    rw [List.forall_mem_cons]
    refine ⟨⟨_, ha, (List.prefix_append _ _).isInfix⟩, fun a hmem => ?_⟩
    obtain ⟨front, hfront, hinfix⟩ := ih a hmem
    exact ⟨front, hfront, hinfix.trans (List.suffix_append _ _).isInfix⟩
  | passed _ _ ih =>
    intro a hmem
    obtain ⟨front, hfront, hinfix⟩ := ih a hmem
    exact ⟨front, hfront, hinfix.trans (List.suffix_cons _ _).isInfix⟩

/-! ## A carriage return at the end of a line -/

theorem isBlank_return : isBlank '\r' = true := by decide

namespace Grammar

/-- With one more character at the end of the text, the same is taken and the character is left. -/
structure LeavesLast (take : List Char → Option (List Char × List Char)) (c : Char) : Prop where
  nil : take [] = none
  concat : ∀ s, take (s ++ [c]) = (take s).map fun found => (found.1, found.2 ++ [c])

theorem LeavesLast.behindBoundary {take : List Char → Option (List Char × List Char)} {c : Char}
    (h : LeavesLast take c) (isInner : Char → Bool) :
    (behindBoundary isInner take).IgnoresLast c where
  alone := by
    intro before
    have hlast : take [c] = none := by simpa [h.nil] using h.concat []
    cases before <;> simp [Grammar.behindBoundary, h.nil, hlast]
  concat := by
    intro before d s
    have hhere := h.concat (d :: s)
    rw [List.cons_append] at hhere ⊢
    rw [Grammar.behindBoundary, Grammar.behindBoundary]
    cases before with
    | none =>
      cases hfound : take (d :: s) with
      | some found => simp [hhere, hfound]
      | none =>
        simp only [hhere, hfound, h.concat s]
        cases take s <;> cases isInner d <;> simp
    | some b =>
      simp only [h.concat s]
      cases take s <;> cases isInner d <;> simp

end Grammar

namespace Literals

theorem callStart_ignoresLast : callStart.IgnoresLast '\r' := by
  apply Grammar.LeavesLast.behindBoundary
  refine ⟨rfl, fun s => ?_⟩
  have hopening : ∀ rest : List Char, stripStart? ['t', '('] (rest ++ ['\r']) =
      (stripStart? ['t', '('] rest).map (· ++ ['\r']) := stripStart?_concat (by decide)
  rw [stripStart?_concat (by decide)]
  cases stripStart? ['$'] s <;> simp [hopening, Function.comp_def]

theorem takeAssigned?_concat {name : List Char} (hname : '\r' ∉ name) (s : List Char) :
    Grammar.takeAssigned? name (s ++ ['\r']) =
      (Grammar.takeAssigned? name s).map (· ++ ['\r']) := by
  rw [Grammar.takeAssigned?, Grammar.takeAssigned?, stripStart?_concat hname]
  cases stripStart? name s with
  | none => rfl
  | some rest => exact stripStart?_trimStart_concat isBlank_return (by decide) (by decide) rest

theorem assignment_ignoresLast {name : List Char} (hname : '\r' ∉ name) (hne : name ≠ []) :
    (assignment name).IgnoresLast '\r' where
  alone := by
    intro before
    have hlast := takeAssigned?_concat hname []
    obtain ⟨first, rest, rfl⟩ := List.exists_cons_of_ne_nil hne
    have hnil : Grammar.takeAssigned? (first :: rest) [] = none := rfl
    rw [List.nil_append, hnil] at hlast
    simp [assignment, hlast]
  concat := by
    intro before d s
    simp only [assignment, takeAssigned?_concat hname]
    cases Grammar.takeAssigned? name (d :: s) <;> simp

theorem isComment_concat (line : List Char) : isComment (line ++ ['\r']) = isComment line := by
  have hstarts : ∀ p : List Char, '\r' ∉ p → p ≠ [] →
      startsWith p (trimStart (line ++ ['\r'])) = startsWith p (trimStart line) := by
    intro p hp hne
    rw [startsWith, stripStart?_trimStart_concat isBlank_return hp hne, startsWith,
      Option.isSome_map]
  rw [isComment, isComment, hstarts _ (by decide) (by decide), hstarts _ (by decide) (by decide),
    hstarts _ (by decide) (by decide)]

theorem isIgnoredLine_concat (line : List Char) :
    isIgnoredLine (line ++ ['\r']) = isIgnoredLine line := by
  have hassigned : ∀ name : List Char, '\r' ∉ name → name ≠ [] →
      occurs (assignment name) (line ++ ['\r']) = occurs (assignment name) line :=
    fun name hname hne => (assignment_ignoresLast hname hne).occurs_concat line
  have htranslated : isTranslated (line ++ ['\r']) = isTranslated line := by
    rw [isTranslated, isTranslated, callStart_ignoresLast.occurs_concat,
      hassigned _ (by decide) (by decide)]
  have hstyling : isStyling (line ++ ['\r']) = isStyling line := by
    rw [isStyling, isStyling, hassigned _ (by decide) (by decide),
      hassigned _ (by decide) (by decide)]
  rw [isIgnoredLine, isIgnoredLine, isComment_concat, htranslated, hstyling]

/-! ## Quoted texts -/

/-- A text and how it stands in quotes. -/
def QuotedText (inside front : List Char) : Prop :=
  ∃ quote, Grammar.isQuote quote = true ∧ quote ∉ inside ∧ '\n' ∉ inside ∧
    front = quote :: (inside ++ [quote])

theorem quoted_eq_some_iff {before : Option Char} {s inside : List Char} {n : Nat} :
    quoted before s = some (inside, n) ↔
      ∃ front rest, s = front ++ rest ∧ n = front.length ∧ QuotedText inside front := by
  constructor
  · intro h
    cases s with
    | nil => cases h
    | cons quote cs =>
      rw [quoted] at h
      split at h
      case isFalse => cases h
      case isTrue hquote =>
        split at h
        case h_2 => cases h
        case h_1 c rest hdrop =>
          split at h
          case isFalse => cases h
          case isTrue hc =>
            subst hc
            obtain ⟨rfl, rfl⟩ := Prod.mk.inj (Option.some.inj h)
            obtain ⟨hcs, hrun⟩ := eq_append_of_dropWhile hdrop
            have hinside := forall_ne_and_ne_iff.mp hrun
            refine ⟨_, rest, ?_, ?_, c, hquote, hinside.1, hinside.2, rfl⟩
            · simpa using hcs
            · have hlength := congrArg List.length hcs
              simp only [List.length_append, List.length_cons] at hlength ⊢
              simp only [List.length_nil]
              omega
  · rintro ⟨front, rest, rfl, rfl, quote, hquote, hinside, hline, rfl⟩
    have hrun := forall_ne_and_ne_iff.mpr ⟨hinside, hline⟩
    have hend : ∀ c ∈ (quote :: rest).head?, (c != quote && c != '\n') = false := by simp
    obtain ⟨htake, hdrop⟩ := span_append hrun hend
    simp [quoted, hquote, htake, hdrop]
    omega

theorem quoted_knows : quoted.Knows QuotedText where
  ne_nil := by
    rintro inside front ⟨quote, _, _, _, rfl⟩
    exact List.cons_ne_nil _ _
  eq_some_iff := fun _ _ _ _ => quoted_eq_some_iff

theorem quoted_ignoresLast : quoted.IgnoresLast '\r' := by
  apply quoted_knows.ignoresLast
  rintro inside front ⟨quote, hquote, _, _, rfl⟩ hlast
  rw [← List.cons_append, List.getLast?_concat, Option.some.injEq] at hlast
  subst hlast
  revert hquote
  decide

theorem inLine_concat (line : List Char) : inLine (line ++ ['\r']) = inLine line := by
  rw [inLine, inLine, isIgnoredLine_concat, quoted_ignoresLast.scan_concat]

theorem inLine_dropReturn (line : List Char) : inLine (dropReturn line) = inLine line := by
  rw [dropReturn]
  split
  case isTrue h =>
    obtain ⟨front, rfl⟩ := List.getLast?_eq_some_iff.mp h
    rw [List.dropLast_concat, inLine_concat]
  case isFalse => rfl

/-! ## Candidates -/

theorem not_isNumberChar_of_letter {c : Char} (h : isLetter c = true) (hc : 128 ≤ c.toNat) :
    isNumberChar c = false := by
  have hblank : isBlank c = false := by
    rw [isLetter, if_neg (Nat.not_lt.mpr hc)] at h
    rw [Bool.eq_false_iff]
    intro hblank
    rw [blankRanges_apart_letterRanges.inRanges_eq_false hblank] at h
    cases h
  have hascii : ∀ d : Char, d.toNat < 128 → c ≠ d := by
    rintro d hd rfl
    omega
  have hdigit : isAsciiDigit c = false := by
    rw [Bool.eq_false_iff]
    intro hdigit
    simp only [isAsciiDigit, Bool.and_eq_true, decide_eq_true_eq] at hdigit
    have hlast : c.toNat ≤ 57 := hdigit.2
    omega
  simp [isNumberChar, hblank, hdigit, hascii]

/-- A letter beyond ASCII is no part of a number, so only length and letter count. -/
theorem isCandidate_iff {text : List Char} :
    isCandidate text = true ↔
      minLength ≤ (trim text).length ∧ ∃ c ∈ trim text, isLetter c = true ∧ 128 ≤ c.toNat := by
  simp only [isCandidate, Bool.and_eq_true, decide_eq_true_eq, List.any_eq_true,
    Bool.not_eq_true', List.all_eq_false, and_assoc]
  constructor
  · rintro ⟨hlength, _, hletter⟩
    exact ⟨hlength, hletter⟩
  · rintro ⟨hlength, c, hc, hletter, hcode⟩
    refine ⟨hlength, ⟨c, hc, ?_⟩, c, hc, hletter, hcode⟩
    simp [not_isNumberChar_of_letter hletter hcode]

/-! ## Line by line -/

theorem inLines_append (n : Nat) (front rest : List (List Char)) :
    inLines n (front ++ rest) = inLines n front ++ inLines (n + front.length) rest := by
  induction front generalizing n with
  | nil => rfl
  | cons line front ih =>
    rw [List.cons_append, inLines, inLines, ih, List.append_assoc, List.length_cons,
      Nat.add_assoc, Nat.add_comm 1]

theorem inLines_add (n k : Nat) (ls : List (List Char)) :
    inLines (n + k) ls = (inLines n ls).map fun hit => (hit.1 + k, hit.2) := by
  induction ls generalizing n with
  | nil => rfl
  | cons line ls ih =>
    rw [inLines, inLines, List.map_append, List.map_map, ← ih, Nat.add_right_comm]
    rfl

/-- The ends of lines make no difference to the search. -/
theorem inLines_linesOfPieces (n : Nat) (pieces : List (List Char)) :
    inLines n (linesOfPieces pieces) = inLines n pieces := by
  induction pieces generalizing n with
  | nil => rfl
  | cons piece pieces ih =>
    cases pieces with
    | nil =>
      cases piece with
      | nil => rfl
      | cons c cs => rfl
    | cons next pieces =>
      rw [linesOfPieces, inLines, inLines, inLine_dropReturn, ih]
      exact List.cons_ne_nil _ _

theorem find_eq (text : String) : find text = inLines 1 (splitOnChar '\n' text.toList) := by
  rw [find, lines, inLines_linesOfPieces]

theorem find_append (a b : String) :
    find (a ++ "\n" ++ b) =
      find a ++ (find b).map fun hit => (hit.1 + (a.toList.count '\n' + 1), hit.2) := by
  have htext : (a ++ "\n" ++ b).toList = a.toList ++ '\n' :: b.toList := by simp
  rw [find_eq, htext, splitOnChar_append, inLines_append, length_splitOnChar, inLines_add,
    ← find_eq, ← find_eq]

theorem mem_inLines_iff {n k : Nat} {text : String} {ls : List (List Char)} :
    (n, text) ∈ inLines k ls ↔ ∃ i line, ls[i]? = some line ∧ n = k + i ∧ text ∈ inLine line := by
  induction ls generalizing k with
  | nil => simp [inLines]
  | cons first ls ih =>
    have hfirst : (n, text) ∈ (inLine first).map (k, ·) ↔ n = k ∧ text ∈ inLine first := by
      rw [List.mem_map]
      constructor
      · rintro ⟨hit, hmem, hhit⟩
        obtain ⟨rfl, rfl⟩ := Prod.mk.inj hhit
        exact ⟨rfl, hmem⟩
      · rintro ⟨rfl, hmem⟩
        exact ⟨text, hmem, rfl⟩
    rw [inLines, List.mem_append, hfirst, ih]
    constructor
    · rintro (⟨hn, hmem⟩ | ⟨i, line, hline, hn, hmem⟩)
      · exact ⟨0, first, rfl, hn, hmem⟩
      · exact ⟨i + 1, line, hline, by omega, hmem⟩
    · rintro ⟨i, line, hline, hn, hmem⟩
      cases i with
      | zero =>
        obtain rfl : first = line := Option.some.inj hline
        exact Or.inl ⟨hn, hmem⟩
      | succ i => exact Or.inr ⟨i, line, hline, by omega, hmem⟩

theorem mem_inLine_iff {line : List Char} {text : String} :
    text ∈ inLine line ↔ isIgnoredLine line = false ∧
      ∃ found, LeftToRight QuotedText line found ∧
        ∃ inside ∈ found, isCandidate inside = true ∧ text = String.ofList (trim inside) := by
  simp only [quoted_knows.leftToRight_iff, exists_eq_left]
  rw [inLine]
  cases isIgnoredLine line with
  | true => simp
  | false => simp only [Bool.false_eq_true, if_false, List.mem_map, List.mem_filter, true_and,
      and_assoc, eq_comm (a := text)]

/-- A text in quotes on a line and the hit it makes. -/
structure MakesHit (line inside : List Char) (hit : String) : Prop where
  trimmed : hit.toList = trim inside
  in_quotes : ∃ quote, Grammar.isQuote quote = true ∧ quote ∉ inside ∧
    quote :: (inside ++ [quote]) <:+: line
  long : 3 ≤ hit.toList.length
  foreign : ∃ c ∈ hit.toList, isLetter c = true ∧ 128 ≤ c.toNat
  counted : isIgnoredLine line = false

theorem mem_inLine_iff_makesHit {line : List Char} {hit : String} :
    hit ∈ inLine line ↔
      ∃ found, LeftToRight QuotedText line found ∧ ∃ inside ∈ found, MakesHit line inside hit := by
  rw [mem_inLine_iff]
  constructor
  · rintro ⟨hcounted, found, hfound, inside, hinside, hcandidate, rfl⟩
    obtain ⟨hlong, hforeign⟩ := isCandidate_iff.mp hcandidate
    obtain ⟨front, ⟨quote, hquote, hnot, _, rfl⟩, hinfix⟩ := hfound.exists_infix inside hinside
    refine ⟨found, hfound, inside, hinside, ?_, ⟨quote, hquote, hnot, hinfix⟩, ?_, ?_, hcounted⟩
    · rw [String.toList_ofList]
    · rwa [String.toList_ofList]
    · rwa [String.toList_ofList]
  · rintro ⟨found, hfound, inside, hinside, h⟩
    have hlong := h.long
    have hforeign := h.foreign
    rw [h.trimmed] at hlong hforeign
    refine ⟨h.counted, found, hfound, inside, hinside, isCandidate_iff.mpr ⟨hlong, hforeign⟩, ?_⟩
    rw [← String.toList_inj, h.trimmed, String.toList_ofList]

/-- The search goes line by line. Two texts with a line feed between them have the hits of the first
and then those of the second, whose lines are counted on. The hits on a line that is not ignored are
the long enough texts in quotes with a letter beyond ASCII, read from left to right. -/
theorem find_lineByLine :
    (∀ a b : String, find (a ++ "\n" ++ b) =
      find a ++ (find b).map fun hit => (hit.1 + (a.toList.count '\n' + 1), hit.2)) ∧
    ∀ (text : String) (n : Nat) (hit : String), (n, hit) ∈ find text ↔
      ∃ i line, (lines text.toList)[i]? = some line ∧ n = i + 1 ∧
        ∃ found, LeftToRight QuotedText line found ∧
          ∃ inside ∈ found, MakesHit line inside hit := by
  refine ⟨find_append, fun text n hit => ?_⟩
  rw [find, mem_inLines_iff]
  simp only [mem_inLine_iff_makesHit, Nat.add_comm 1]

/-- Line ends of both kinds, a quote that nothing closes, and a line that is a comment. -/
example : find "a = 'Привіт\r\n// 'Стара назва'\nb = ' Ціна ' + \"x\"\r" = [(3, "Ціна")] := by
  decide +kernel

end Literals

end LocaleAudit
