import LocaleAudit.Markup
import LocaleAudit.Proofs.Text.Classes
import LocaleAudit.Proofs.Text.Matches

namespace LocaleAudit.Markup

/-!
# How tags are written

A tag is an angle bracket, a slash if it closes, a name, attributes behind a blank, a slash if it
closes itself, and the other bracket. The recogniser knows these spellings and no others, so the
tags of a text are those spellings from left to right.
-/

/-- The slash that a tag has for a sign of closing. -/
def slash : Bool → List Char
  | true => ['/']
  | false => []

def IsName (name : List Char) : Prop :=
  ∃ c cs, name = c :: cs ∧ isNameStart c = true ∧ ∀ d ∈ cs, isNameChar d = true

/-- Nothing, or a blank and text without angle brackets. -/
def IsAttributes (attributes : List Char) : Prop :=
  attributes = [] ∨
    ∃ c body, attributes = c :: body ∧ isBlank c = true ∧ ∀ d ∈ body, d ≠ '<' ∧ d ≠ '>'

/-- What stands behind the name. A slash right in front of the bracket belongs to no attribute. -/
def IsEnding (closesItself : Bool) (ending : List Char) : Prop :=
  ∃ attributes, IsAttributes attributes ∧
    (closesItself = false → attributes.getLast? ≠ some '/') ∧
    ending = attributes ++ (slash closesItself ++ ['>'])

def WrittenTag.Spelled (t : WrittenTag) (text : List Char) : Prop :=
  ∃ ending, IsName t.name ∧ IsEnding t.closesItself ending ∧
    text = '<' :: (slash t.closes ++ (t.name ++ ending))

/-! ## The sign of closing -/

theorem eq_of_takeSlash {s named : List Char} {closes : Bool} (h : takeSlash s = (closes, named)) :
    s = slash closes ++ named := by
  unfold takeSlash at h
  split at h
  · cases h
    rfl
  · cases h
    rfl

theorem IsName.takeSlash_append {name : List Char} (h : IsName name) (closes : Bool)
    (rest : List Char) : takeSlash (slash closes ++ (name ++ rest)) = (closes, name ++ rest) := by
  cases closes with
  | true => rfl
  | false =>
    obtain ⟨c, cs, rfl, hc, _⟩ := h
    have hslash : c ≠ '/' := by
      rintro rfl
      revert hc
      decide
    unfold takeSlash
    split
    · rename_i heq
      exact absurd (List.cons.inj heq).1 hslash
    · rfl

/-! ## The ending -/

theorem takeEnd?_blank {c : Char} {body : List Char} (hc : isBlank c = true)
    (hbody : ∀ d ∈ body, d ≠ '<' ∧ d ≠ '>') (rest : List Char) :
    takeEnd? (c :: (body ++ '>' :: rest)) = some (body.getLast? == some '/', rest) := by
  have hplain : ∀ d ∈ body, (d != '<' && d != '>') = true := fun d hd => by simp [hbody d hd]
  have hbracket : ∀ d ∈ ('>' :: rest).head?, (d != '<' && d != '>') = false := by simp
  obtain ⟨htake, hdrop⟩ := span_append hplain hbracket
  have hne : c ≠ '>' ∧ c ≠ '/' := by
    constructor <;>
    · rintro rfl
      revert hc
      decide
  unfold takeEnd?
  split
  case h_1 heq => exact absurd (List.cons.inj heq).1 hne.1
  case h_2 heq => exact absurd (List.cons.inj heq).1 hne.2
  case h_3 heq =>
    cases heq
    rw [if_pos hc, hdrop, htake]
    rfl
  case h_4 heq => cases heq

theorem exists_ending_of_takeEnd? {s rest : List Char} {closesItself : Bool}
    (h : takeEnd? s = some (closesItself, rest)) :
    ∃ ending, IsEnding closesItself ending ∧ s = ending ++ rest := by
  unfold takeEnd? at h
  split at h
  case h_1 =>
    cases h
    exact ⟨['>'], ⟨[], Or.inl rfl, by simp, rfl⟩, rfl⟩
  case h_2 =>
    cases h
    exact ⟨['/', '>'], ⟨[], Or.inl rfl, by simp, rfl⟩, rfl⟩
  case h_3 c cs _ _ =>
    split at h
    case isFalse => cases h
    case isTrue hc =>
      split at h
      case h_2 => cases h
      case h_1 rest' hdrop =>
        cases h
        have hcs := List.takeWhile_append_dropWhile (p := fun d => d != '<' && d != '>') (l := cs)
        have hbody : ∀ d ∈ cs.takeWhile (fun d => d != '<' && d != '>'), d ≠ '<' ∧ d ≠ '>' := by
          intro d hd
          simpa using List.all_eq_true.mp List.all_takeWhile d hd
        rw [hdrop] at hcs
        generalize cs.takeWhile (fun d => d != '<' && d != '>') = body at hcs hbody ⊢
        subst hcs
        by_cases hlast : body.getLast? = some '/'
        · obtain ⟨attributes, rfl⟩ := List.getLast?_eq_some_iff.mp hlast
          refine ⟨c :: (attributes ++ ['/', '>']), ⟨c :: attributes, ?_, by simp, ?_⟩, by simp⟩
          · exact Or.inr ⟨c, attributes, rfl, hc, fun d hd => hbody d (List.mem_append_left _ hd)⟩
          · simp [slash]
        · refine ⟨c :: (body ++ ['>']), ⟨c :: body, Or.inr ⟨c, body, rfl, hc, hbody⟩, ?_, ?_⟩,
            by simp⟩
          · intro _ hslash
            cases body with
            | nil =>
              obtain rfl : c = '/' := by simpa using hslash
              revert hc
              decide
            | cons d ds => exact hlast (by simpa using hslash)
          · rw [beq_eq_false_iff_ne.mpr hlast]
            rfl
  case h_4 => cases h

theorem IsEnding.takeEnd?_append {ending : List Char} {closesItself : Bool}
    (h : IsEnding closesItself ending) (rest : List Char) :
    takeEnd? (ending ++ rest) = some (closesItself, rest) := by
  obtain ⟨attributes, hattributes, hlast, rfl⟩ := h
  rcases hattributes with rfl | ⟨c, body, rfl, hc, hbody⟩
  · cases closesItself <;> rfl
  · cases closesItself with
    | true =>
      have hslash : ∀ d ∈ body ++ ['/'], d ≠ '<' ∧ d ≠ '>' := by
        simp only [List.forall_mem_append, List.forall_mem_singleton]
        exact ⟨hbody, by decide⟩
      have hread := takeEnd?_blank hc hslash rest
      simpa [slash] using hread
    | false =>
      have hplain : body.getLast? ≠ some '/' := by
        cases body with
        | nil => simp
        | cons d ds => simpa using hlast rfl
      have hread := takeEnd?_blank hc hbody rest
      rw [beq_eq_false_iff_ne.mpr hplain] at hread
      simpa [slash] using hread

theorem IsEnding.head? {ending : List Char} {closesItself : Bool} (h : IsEnding closesItself ending)
    (rest : List Char) : ∀ c ∈ (ending ++ rest).head?, isNameChar c = false := by
  intro d hd
  obtain ⟨attributes, rfl | ⟨c, body, rfl, hc, _⟩, _, rfl⟩ := h
  · cases closesItself with
    | true =>
      obtain rfl : '/' = d := by simpa [slash] using hd
      decide
    | false =>
      obtain rfl : '>' = d := by simpa [slash] using hd
      decide
  · obtain rfl : c = d := by simpa using hd
    have hminus : c ≠ '-' := by
      rintro rfl
      revert hc
      decide
    simp [isNameChar, isWordChar_of_isBlank hc, hminus]

/-! ## Whole tags -/

/-- What the recogniser looks at: the sign of closing, the characters of a name, the ending. -/
theorem recognise_eq_some_iff {before : Option Char} {s : List Char} {t : WrittenTag} {n : Nat} :
    recognise before s = some (t, n) ↔
      ∃ inside c cs rest, s = '<' :: inside ∧ takeSlash inside = (t.closes, c :: cs) ∧
        isNameStart c = true ∧ t.name = c :: cs.takeWhile isNameChar ∧
        takeEnd? (cs.dropWhile isNameChar) = some (t.closesItself, rest) ∧
        n = s.length - rest.length := by
  constructor
  · intro h
    unfold recognise at h
    obtain ⟨inside, hinside, htag⟩ := Option.bind_eq_some_iff.mp h
    have hs := eq_append_of_stripStart? hinside
    cases hslash : takeSlash inside with
    | mk closes named =>
      simp only [hslash] at htag
      split at htag
      case h_2 => cases htag
      case h_1 c cs =>
        split at htag
        case isFalse => cases htag
        case isTrue hc =>
          obtain ⟨⟨closesItself, rest⟩, hend, htag⟩ := Option.bind_eq_some_iff.mp htag
          cases htag
          exact ⟨inside, c, cs, rest, hs, hslash, hc, rfl, hend, rfl⟩
  · rintro ⟨inside, c, cs, rest, rfl, hslash, hc, hname, hend, rfl⟩
    obtain ⟨closes, name, closesItself⟩ := t
    obtain rfl : name = c :: cs.takeWhile isNameChar := hname
    have hinside : stripStart? ['<'] ('<' :: inside) = some inside :=
      stripStart?_append ['<'] inside
    simp only [recognise, hinside, Option.bind_eq_bind, Option.bind_some, hslash, hc, if_true, hend]
    rfl

theorem recognise_of_spelled {t : WrittenTag} {text : List Char} (h : t.Spelled text)
    (before : Option Char) (rest : List Char) :
    recognise before (text ++ rest) = some (t, text.length) := by
  obtain ⟨ending, hname, hending, rfl⟩ := h
  have hslash := hname.takeSlash_append t.closes (ending ++ rest)
  obtain ⟨c, cs, hcons, hc, hcs⟩ := hname
  obtain ⟨htake, hdrop⟩ := span_append hcs (hending.head? rest)
  rw [hcons, List.cons_append] at hslash
  refine recognise_eq_some_iff.mpr ⟨slash t.closes ++ (t.name ++ (ending ++ rest)), c,
    cs ++ (ending ++ rest), rest, ?_, ?_, hc, ?_, ?_, ?_⟩
  · simp
  · rw [hcons, List.cons_append, hslash]
  · rw [hcons, htake]
  · rw [hdrop, hending.takeEnd?_append]
  · simp only [List.length_append, List.length_cons]
    omega

theorem exists_spelled_of_recognise {before : Option Char} {s : List Char} {t : WrittenTag}
    {n : Nat} (h : recognise before s = some (t, n)) :
    ∃ text rest, s = text ++ rest ∧ n = text.length ∧ t.Spelled text := by
  obtain ⟨inside, c, cs, rest, rfl, hslash, hc, hname, hend, rfl⟩ := recognise_eq_some_iff.mp h
  obtain ⟨ending, hending, hcs⟩ := exists_ending_of_takeEnd? hend
  have hparts : c :: cs = t.name ++ (ending ++ rest) := by
    rw [hname, ← hcs, List.cons_append, List.takeWhile_append_dropWhile]
  have hisName : IsName t.name :=
    ⟨c, cs.takeWhile isNameChar, hname, hc, fun d hd => List.all_eq_true.mp List.all_takeWhile d hd⟩
  have htext : '<' :: inside = '<' :: (slash t.closes ++ (t.name ++ ending)) ++ rest := by
    rw [eq_of_takeSlash hslash, hparts]
    simp
  refine ⟨'<' :: (slash t.closes ++ (t.name ++ ending)), rest, htext, ?_,
    ⟨ending, hisName, hending, rfl⟩⟩
  rw [htext, List.length_append]
  omega

theorem recognise_knows : recognise.Knows WrittenTag.Spelled where
  ne_nil := by
    rintro t text ⟨ending, _, _, rfl⟩
    exact List.cons_ne_nil _ _
  eq_some_iff := by
    intro before s t n
    constructor
    · exact exists_spelled_of_recognise
    · rintro ⟨text, rest, rfl, rfl, htext⟩
      exact recognise_of_spelled htext before rest

end LocaleAudit.Markup
