import LocaleAudit.Interpolation
import LocaleAudit.Markup
import LocaleAudit.Proofs.Text.Search

namespace LocaleAudit

/-!
# Scanning step by step

A scan goes on behind a match, and where none starts it passes over one character. Matches that
start with a certain character are not touched by text in front that lacks it, however broken the
text behind is.
-/

section Steps

variable {α : Type} {recognise : Recogniser α}

/-! ## Behind a match -/

theorem getLast?_or_some (c : Char) (cs : List Char) :
    cs.getLast?.or (some c) = (c :: cs).getLast? := by
  rw [List.getLast?_cons]
  cases cs.getLast? <;> rfl

theorem scanFrom_skip_append (before : Option Char) (front rest : List Char) :
    scanFrom recognise before front.length (front ++ rest) =
      scanFrom recognise (front.getLast?.or before) 0 rest := by
  induction front generalizing before with
  | nil => rfl
  | cons c cs ih =>
    calc
      scanFrom recognise before (c :: cs).length (c :: cs ++ rest) =
          scanFrom recognise (some c) cs.length (cs ++ rest) := rfl
      _ = scanFrom recognise (cs.getLast?.or (some c)) 0 rest := ih (some c)
      _ = scanFrom recognise ((c :: cs).getLast?.or before) 0 rest := by
        rw [getLast?_or_some, List.getLast?_cons, Option.some_or]

/-- Behind a match the search goes on with the last character of the match in front. -/
theorem scanFrom_front {before : Option Char} {a : α} {front rest : List Char} (hne : front ≠ [])
    (ha : recognise before (front ++ rest) = some (a, front.length)) :
    scanFrom recognise before 0 (front ++ rest) =
      a :: scanFrom recognise front.getLast? 0 rest := by
  obtain ⟨c, cs, rfl⟩ := List.exists_cons_of_ne_nil hne
  rw [List.cons_append] at ha ⊢
  rw [scanFrom_match ha, List.length_cons, Nat.add_sub_cancel, scanFrom_skip_append,
    getLast?_or_some]

/-! ## Recognisers that do not look back -/

namespace Recogniser

/-- The answers do not depend on the character in front. -/
def ContextFree (recognise : Recogniser α) : Prop :=
  ∀ before before' s, recognise before s = recognise before' s

theorem ContextFree.scanFrom_eq_scan (h : recognise.ContextFree) (before : Option Char)
    (s : List Char) : scanFrom recognise before 0 s = scan recognise s := by
  cases s with
  | nil => rfl
  | cons c cs => rw [scan, scanFrom, scanFrom, h before none]

theorem ContextFree.scan_match (h : recognise.ContextFree) {a : α} {front rest : List Char}
    (hne : front ≠ []) (ha : recognise none (front ++ rest) = some (a, front.length)) :
    scan recognise (front ++ rest) = a :: scan recognise rest := by
  rw [scan, scanFrom_front hne ha, h.scanFrom_eq_scan]

theorem ContextFree.scan_miss (h : recognise.ContextFree) {c : Char} {cs : List Char}
    (hmiss : recognise none (c :: cs) = none) :
    scan recognise (c :: cs) = scan recognise cs := by
  rw [scan, scanFrom_miss hmiss, h.scanFrom_eq_scan]

/-- Matches start with `first` and do not depend on what stands in front of them. -/
structure StartsWith (recognise : Recogniser α) (first : Char) : Prop where
  context_free : ∀ before before' s, recognise before s = recognise before' s
  miss : ∀ before c cs, c ≠ first → recognise before (c :: cs) = none

namespace StartsWith

variable {first : Char}

theorem contextFree (h : recognise.StartsWith first) : recognise.ContextFree :=
  h.context_free

theorem scan_append (h : recognise.StartsWith first) {front : List Char} (hfront : first ∉ front)
    (s : List Char) : scan recognise (front ++ s) = scan recognise s := by
  induction front with
  | nil => rfl
  | cons c cs ih =>
    rw [List.mem_cons, not_or] at hfront
    obtain ⟨hc, hcs⟩ := hfront
    calc
      scan recognise (c :: cs ++ s) = scan recognise (cs ++ s) :=
        h.contextFree.scan_miss (h.miss none c (cs ++ s) (Ne.symm hc))
      _ = scan recognise s := ih hcs

end StartsWith

end Recogniser

end Steps

namespace Interpolation

theorem recognise_startsWith : recognise.StartsWith '{' where
  context_free := fun _ _ _ => rfl
  miss := by
    intro before c cs hc
    rw [recognise, stripStart?_cons_of_ne hc]
    rfl

theorem variableNames_append {front : String} (h : '{' ∉ front.toList) (text : String) :
    variableNames (front ++ text) = variableNames text := by
  rw [variableNames, variableNames, String.toList_append, recognise_startsWith.scan_append h]

end Interpolation

namespace Markup

theorem recognise_startsWith : recognise.StartsWith '<' where
  context_free := fun _ _ _ => rfl
  miss := by
    intro before c cs hc
    rw [recognise, stripStart?_cons_of_ne hc]
    rfl

theorem tags_append {front : String} (h : '<' ∉ front.toList) (text : String) :
    tags (front ++ text) = tags text := by
  rw [tags, tags, String.toList_append, recognise_startsWith.scan_append h]

theorem check_append {front : String} (h : '<' ∉ front.toList) (text : String) :
    check (front ++ text) = check text := by
  rw [check, check, tags_append h]

end Markup

end LocaleAudit
