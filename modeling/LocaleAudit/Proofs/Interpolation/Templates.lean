import LocaleAudit.Proofs.FirstOccurrences
import LocaleAudit.Proofs.Report.Deduplication
import LocaleAudit.Proofs.Text.Classes
import LocaleAudit.Proofs.Text.Matches
import LocaleAudit.Validation
import Mathlib.Data.List.Nodup

namespace LocaleAudit

/-!
# Templates

A template is text with placeholders in it. However its placeholders are spaced and formatted, its
variables are their names; so what two templates differ in are the names that only one of them has.
-/

namespace Interpolation

/-- Identifiers joined by dots. -/
structure Name where
  first : Char
  more : List Char
  parts : List (List Char)
  first_start : isNameStart first = true
  more_identifier : ∀ c ∈ more, isIdentifierChar c = true
  parts_identifier : ∀ part ∈ parts, part ≠ [] ∧ ∀ c ∈ part, isIdentifierChar c = true

def Name.text (n : Name) : List Char :=
  n.first :: (n.more ++ n.parts.flatMap ('.' :: ·))

structure Placeholder where
  blanks : List Char
  minus : Bool
  gap : List Char
  name : Name
  behind : List Char
  /-- What stands behind a comma. -/
  format : Option (List Char)
  blanks_blank : ∀ c ∈ blanks, isBlank c = true
  gap_blank : ∀ c ∈ gap, isBlank c = true
  behind_blank : ∀ c ∈ behind, isBlank c = true
  format_open : ∀ f ∈ format, '}' ∉ f

def minusText : Bool → List Char
  | true => ['-']
  | false => []

def formatText : Option (List Char) → List Char
  | none => []
  | some format => ',' :: format

def Placeholder.text (p : Placeholder) : List Char :=
  ['{', '{'] ++ (p.blanks ++ (minusText p.minus ++ (p.gap ++ (p.name.text ++
    (p.behind ++ (formatText p.format ++ ['}', '}']))))))

/-- A piece of a template; text stands for itself as long as it has no opening brace. -/
inductive Piece where
  | chunk (text : List Char) (h : '{' ∉ text)
  | placeholder (p : Placeholder)

def Piece.text : Piece → List Char
  | chunk text _ => text
  | placeholder p => p.text

def Piece.name? : Piece → Option String
  | chunk _ _ => none
  | placeholder p => some (String.ofList p.name.text)

abbrev Template := List Piece

namespace Template

def text (t : Template) : String :=
  String.ofList (t.flatMap Piece.text)

/-- The names of the placeholders in order, repetitions included. -/
def names (t : Template) : List String :=
  t.filterMap Piece.name?

end Template

/-! ## Names -/

/-- Text that does not go on with a name. -/
def EndsName (rest : List Char) : Prop :=
  ∀ c ∈ rest.head?, isIdentifierChar c = false ∧ c ≠ '.'

theorem endsName_cons {c : Char} (h : isIdentifierChar c = false ∧ c ≠ '.') (rest : List Char) :
    EndsName (c :: rest) := by
  simpa [EndsName] using h

theorem takeParts_of_endsName {rest : List Char} (h : EndsName rest) :
    takeParts rest = ([], rest) := by
  unfold takeParts
  split
  · exact absurd rfl (h '.' rfl).2
  · rfl

/-- Neither a dot nor the end of a name goes on with an identifier. -/
theorem head?_parts (parts : List (List Char)) {rest : List Char} (h : EndsName rest) :
    ∀ c ∈ (parts.flatMap ('.' :: ·) ++ rest).head?, isIdentifierChar c = false := by
  intro c hc
  cases parts with
  | nil => exact (h c hc).1
  | cons part parts =>
    obtain rfl : '.' = c := by simpa using hc
    decide

theorem takeParts_append {parts : List (List Char)} {rest : List Char}
    (hparts : ∀ part ∈ parts, part ≠ [] ∧ ∀ c ∈ part, isIdentifierChar c = true)
    (h : EndsName rest) :
    takeParts (parts.flatMap ('.' :: ·) ++ rest) = (parts.flatMap ('.' :: ·), rest) := by
  induction parts with
  | nil => exact takeParts_of_endsName h
  | cons part parts ih =>
    rw [List.forall_mem_cons] at hparts
    obtain ⟨⟨hne, hpart⟩, hparts⟩ := hparts
    obtain ⟨c, cs, rfl⟩ := List.exists_cons_of_ne_nil hne
    rw [List.forall_mem_cons] at hpart
    obtain ⟨htake, hdrop⟩ := span_append hpart.2 (head?_parts parts h)
    have htext : ((c :: cs) :: parts).flatMap ('.' :: ·) ++ rest =
        '.' :: c :: (cs ++ (parts.flatMap ('.' :: ·) ++ rest)) := by
      simp
    rw [htext, takeParts, if_pos hpart.1, htake, hdrop, ih hparts]
    simp

theorem Name.takeName?_append (n : Name) {rest : List Char} (h : EndsName rest) :
    takeName? (n.text ++ rest) = some (n.text, rest) := by
  have htext : n.text ++ rest = n.first :: (n.more ++ (n.parts.flatMap ('.' :: ·) ++ rest)) := by
    simp [Name.text]
  obtain ⟨htake, hdrop⟩ := span_append n.more_identifier (head?_parts n.parts h)
  rw [htext, takeName?, if_pos n.first_start, htake, hdrop, takeParts_append n.parts_identifier h]
  rfl

/-! ## Placeholders -/

theorem isBlank_of_isNameStart {c : Char} (h : isNameStart c = true) : isBlank c = false := by
  rw [Bool.eq_false_iff]
  intro hblank
  have hword := isWordChar_of_isBlank hblank
  rw [isNameStart, Bool.or_eq_true, Bool.or_eq_true, beq_iff_eq, beq_iff_eq] at h
  rcases h with (hletter | rfl) | rfl
  · rw [isWordChar_of_isAsciiLetter hletter] at hword
    cases hword
  · revert hblank
    decide
  · revert hblank
    decide

variable (p : Placeholder) (rest : List Char)

/-- In front of the name there are blanks and at most one minus sign. -/
theorem Placeholder.trimStart_dropMinus :
    trimStart (dropMinus (trimStart (p.blanks ++ (minusText p.minus ++ (p.gap ++
      (p.name.text ++ rest)))))) = p.name.text ++ rest := by
  have hfirst : isBlank p.name.first = false := isBlank_of_isNameStart p.name.first_start
  have hname : ∀ c ∈ (p.name.text ++ rest).head?, isBlank c = false := by
    simpa [Name.text] using hfirst
  cases p.minus with
  | true =>
    have hminus : ∀ c ∈ (minusText true ++ (p.gap ++ (p.name.text ++ rest))).head?,
        isBlank c = false := by
      simpa [minusText] using (by decide : isBlank '-' = false)
    rw [trimStart_append p.blanks_blank hminus]
    exact trimStart_append p.gap_blank hname
  | false =>
    have hblanks : ∀ c ∈ p.blanks ++ p.gap, isBlank c = true :=
      List.forall_mem_append.mpr ⟨p.blanks_blank, p.gap_blank⟩
    have hplain : dropMinus (p.name.text ++ rest) = p.name.text ++ rest := by
      have hne : p.name.first ≠ '-' := by
        intro heq
        have hstart := p.name.first_start
        rw [heq] at hstart
        revert hstart
        decide
      unfold dropMinus
      split
      · rename_i heq
        exact absurd (List.cons.inj heq).1 hne
      · rfl
    rw [minusText, List.nil_append, ← List.append_assoc, trimStart_append hblanks hname, hplain]
    exact trimStart_append (List.forall_mem_nil _) hname

/-- Behind the name there are blanks and a format, and two braces end it. -/
theorem Placeholder.dropFormat_trimStart :
    dropFormat (trimStart (p.behind ++ (formatText p.format ++ '}' :: '}' :: rest))) =
      '}' :: '}' :: rest := by
  have hbehind : ∀ c ∈ (formatText p.format ++ '}' :: '}' :: rest).head?, isBlank c = false := by
    cases p.format with
    | none => simpa [formatText] using (by decide : isBlank '}' = false)
    | some format => simpa [formatText] using (by decide : isBlank ',' = false)
  rw [trimStart_append p.behind_blank hbehind]
  cases hformat : p.format with
  | none => rfl
  | some format =>
    have hopen : ∀ c ∈ format, (c != '}') = true := by
      intro c hc
      have hne : c ≠ '}' := by
        rintro rfl
        exact p.format_open format hformat hc
      simpa using hne
    exact (span_append hopen (by simp)).2

theorem Placeholder.endsName :
    EndsName (p.behind ++ (formatText p.format ++ '}' :: '}' :: rest)) := by
  cases hbehind : p.behind with
  | nil =>
    cases p.format with
    | none => exact endsName_cons (by decide) _
    | some format => exact endsName_cons (by decide) _
  | cons c cs =>
    have hblank : isBlank c = true := p.behind_blank c (by simp [hbehind])
    refine endsName_cons ⟨isIdentifierChar_of_isBlank hblank, ?_⟩ _
    rintro rfl
    revert hblank
    decide

theorem Placeholder.recognise_append (before : Option Char) :
    recognise before (p.text ++ rest) = some (p.name.text, p.text.length) := by
  have hopening : stripStart? ['{', '{'] (p.text ++ rest) =
      some (p.blanks ++ (minusText p.minus ++ (p.gap ++ (p.name.text ++
        (p.behind ++ (formatText p.format ++ '}' :: '}' :: rest)))))) := by
    have happend : p.text ++ rest = ['{', '{'] ++ (p.blanks ++ (minusText p.minus ++ (p.gap ++
        (p.name.text ++ (p.behind ++ (formatText p.format ++ '}' :: '}' :: rest)))))) := by
      simp [Placeholder.text]
    rw [happend, stripStart?_append]
  have hclosing : stripStart? ['}', '}'] ('}' :: '}' :: rest) = some rest :=
    stripStart?_append ['}', '}'] rest
  simp only [recognise, hopening, Option.bind_eq_bind, Option.bind_some, p.trimStart_dropMinus,
    p.name.takeName?_append (p.endsName rest), p.dropFormat_trimStart, hclosing]
  simp

/-! ## Templates -/

theorem scan_template (t : Template) :
    scan recognise (t.flatMap Piece.text) =
      (t.filterMap fun
        | .chunk _ _ => none
        | .placeholder p => some p.name.text) := by
  have hfree := recognise_startsWith.contextFree
  induction t with
  | nil => rfl
  | cons piece t ih =>
    rw [List.flatMap_cons]
    cases piece with
    | chunk text h =>
      rw [Piece.text, recognise_startsWith.scan_append h, ih]
      rfl
    | placeholder p =>
      have hne : p.text ≠ [] := List.cons_ne_nil _ _
      rw [Piece.text, hfree.scan_match hne (p.recognise_append _ none), ih]
      rfl

theorem variableNames_template (t : Template) : variableNames t.text = t.names.eraseDups := by
  have hnames : t.names = (scan recognise t.text.toList).map String.ofList := by
    rw [Template.text, String.toList_ofList, scan_template, List.map_filterMap, Template.names]
    refine List.filterMap_congr fun piece _ => ?_
    cases piece <;> rfl
  rw [variableNames, hnames]

/-- A format that opens braces again ends with the placeholder. -/
example :
    let name : Name := ⟨'a', ['b'], [], by decide, List.forall_mem_singleton.mpr (by decide),
      List.forall_mem_nil _⟩
    let p : Placeholder := ⟨[' '], true, [], name, [' '], some ['{', '{'],
      List.forall_mem_singleton.mpr (by decide), List.forall_mem_nil _,
      List.forall_mem_singleton.mpr (by decide), by rintro _ ⟨⟩; decide⟩
    let t : Template := [.placeholder p, .chunk [',', '}'] (by decide), .placeholder p]
    t.text = "\x7b\x7b -ab ,\x7b\x7b\x7d\x7d,\x7d\x7b\x7b -ab ,\x7b\x7b\x7d\x7d" ∧
      variableNames t.text = ["ab"] := by
  decide +kernel

end Interpolation

theorem Report.eq_empty_iff {r : Report} : r = empty ↔ r.findings = [] := by
  cases r
  simp [empty]

namespace Validation

open Interpolation (variableNames Template)

variable (nameSpace language path : String)

theorem variableFinding_identity (kind : Finding.Kind) (value name complaint : String) :
    (variableFinding kind nameSpace language path value name complaint).identity =
      ⟨kind, nameSpace, language, path, some name⟩ :=
  rfl

/-- Findings on variables name different variables or have different kinds, so a report takes them
all. -/
theorem findings_checkVariables (defaultValue value : String) :
    (checkVariables nameSpace language path defaultValue value).findings =
      variableFindings nameSpace language path defaultValue value := by
  refine Report.findings_ofList ?_
  have hinjective : ∀ kind : Finding.Kind, Function.Injective fun name : String =>
      (⟨kind, nameSpace, language, path, some name⟩ : Finding.Identity) := by
    intro kind a b hab
    exact Option.some.inj (congrArg Finding.Identity.variableName hab)
  have hnodup : ∀ text, (variableNames text).Nodup := fun text =>
    (FirstOccurrences.eraseDups _).nodup
  simp only [variableFindings, List.map_append, List.map_map, Function.comp_def,
    variableFinding_identity]
  rw [List.nodup_append]
  refine ⟨((hnodup _).filter _).map (hinjective _), ((hnodup _).filter _).map (hinjective _), ?_⟩
  intro i hi j hj
  obtain ⟨_, _, rfl⟩ := List.mem_map.mp hi
  obtain ⟨_, _, rfl⟩ := List.mem_map.mp hj
  simp

theorem variableFindings_eq_nil_iff (defaultValue value : String) :
    variableFindings nameSpace language path defaultValue value = [] ↔
      ∀ name, name ∈ variableNames defaultValue ↔ name ∈ variableNames value := by
  simp only [variableFindings, List.append_eq_nil_iff, List.map_eq_nil_iff, List.filter_eq_nil_iff,
    List.contains_eq_mem, Bool.not_eq_true', decide_eq_false_iff_not, Classical.not_not]
  constructor
  · rintro ⟨hmissing, hextra⟩ name
    exact ⟨hmissing name, hextra name⟩
  · intro h
    exact ⟨fun name => (h name).mp, fun name => (h name).mpr⟩

theorem mem_variableNames {t : Template} {name : String} :
    name ∈ variableNames t.text ↔ name ∈ t.names := by
  rw [Interpolation.variableNames_template, List.mem_eraseDups]

/-- The names of one template that another one has not. -/
theorem firstOccurrences_only (d t : Template) :
    FirstOccurrences (d.names.filter fun name => !t.names.contains name)
      ((variableNames d.text).filter fun name => !(variableNames t.text).contains name) := by
  have hsame : (fun name => !(variableNames t.text).contains name) =
      fun name => !t.names.contains name := by
    funext name
    rw [List.contains_eq_mem, List.contains_eq_mem, decide_eq_decide.mpr mem_variableNames]
  rw [hsame, Interpolation.variableNames_template]
  exact (FirstOccurrences.eraseDups _).filter _

/-- The variables of a template are the names of its placeholders, each once, in the order in which
they first come up. Two templates differ in the names that only one of them has. -/
theorem templateVariables_compared (d t : Template) :
    FirstOccurrences t.names (variableNames t.text) ∧
    (∃ missing extra : List String,
      FirstOccurrences (d.names.filter fun name => !t.names.contains name) missing ∧
      FirstOccurrences (t.names.filter fun name => !d.names.contains name) extra ∧
      (checkVariables nameSpace language path d.text t.text).findings =
        missing.map (variableFinding .missingVariable nameSpace language path t.text ·
          "is missing") ++
        extra.map (variableFinding .extraVariable nameSpace language path t.text ·
          "is not in the default language")) ∧
    (checkVariables nameSpace language path d.text t.text = Report.empty ↔
      ∀ name, name ∈ d.names ↔ name ∈ t.names) := by
  refine ⟨?_, ⟨_, _, firstOccurrences_only d t, firstOccurrences_only t d, ?_⟩, ?_⟩
  · rw [Interpolation.variableNames_template]
    exact FirstOccurrences.eraseDups _
  · exact findings_checkVariables nameSpace language path d.text t.text
  · rw [Report.eq_empty_iff, findings_checkVariables, variableFindings_eq_nil_iff]
    simp only [mem_variableNames]

end Validation

end LocaleAudit
