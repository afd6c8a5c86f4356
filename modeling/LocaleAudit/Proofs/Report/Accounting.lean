import LocaleAudit.Proofs.Path
import LocaleAudit.Proofs.Report.Grouping
import LocaleAudit.Proofs.Report.Truncation
import LocaleAudit.Proofs.Report.Transcript

namespace LocaleAudit

/-!
# Reports for people lose count of nothing

The groups, the numbers of each kind and the totals are three ways to count the same findings. A
group that is too long is cut, and what is cut off is counted too. The verdict is the same in the
text for people, in the text for programs and in the outcome of the run.
-/

/-- What stands behind the last line feed. -/
def lastLine (text : String) : String :=
  String.ofList ((splitOnChar '\n' text.toList).getLast (splitOnChar_ne_nil _ _))

theorem lastLine_intercalate {lines : List String} {last : String} (hne : lines ≠ [])
    (h : '\n' ∉ last.toList) : lastLine ("\n".intercalate (lines ++ [last])) = last := by
  have htext : ("\n".intercalate (lines ++ [last])).toList =
      ['\n'].intercalate (lines.map String.toList) ++ '\n' :: last.toList := by
    have hlines : lines.map String.toList ≠ [] := by simpa using hne
    rw [String.toList_intercalate, List.map_append, List.map_singleton]
    rw [Path.intercalate_concat _ _ hlines, List.append_assoc]
    rfl
  simp [lastLine, htext, splitOnChar_append, splitOnChar_of_not_mem h]

theorem newline_not_mem_toString (n : Nat) : '\n' ∉ (toString n).toList := by
  intro hmem
  have hdigit := Nat.isDigit_of_mem_toDigits (b := 10) (n := n) (by decide) (by decide)
    (by simpa [Nat.repr] using hmem)
  exact absurd hdigit (by decide)

namespace Report

/-! ## Lines -/

/-- What a line says of the value of a finding: nothing when there is none, otherwise the value on
one line, between quotes. -/
inductive ValuePart : Option String → String → Prop where
  | absent : ValuePart none ""
  | shown {value : String} {text : List Char} (htext : OnOneLine terminalWidths 60 value text) :
      ValuePart (some value) (" (\"" ++ String.ofList text ++ "\")")

/-- A line that shows a finding: its kind in a column of 18 characters, its path, its message and
its value. -/
inductive Shows (f : Finding) : String → Prop where
  | line {value : String} (hvalue : ValuePart f.value value) :
      Shows f ("    " ++ f.kind.name ++
        String.ofList (List.replicate (18 - f.kind.name.length) ' ') ++
        " " ++ f.path ++ ": " ++ f.message ++ value)

theorem shows_findingLine (f : Finding) : Shows f (findingLine f) := by
  obtain ⟨value, hvalue, hline⟩ : ∃ value, ValuePart f.value value ∧
      findingLine f = "    " ++ f.kind.name ++
        String.ofList (List.replicate (18 - f.kind.name.length) ' ') ++
        " " ++ f.path ++ ": " ++ f.message ++ value := by
    rw [findingLine]
    cases f.value with
    | none => exact ⟨_, .absent, by simp [padEnd, String.append_assoc, toString]⟩
    | some text =>
      have hshown := ValuePart.shown (onOneLine_truncateWith terminalWidths text valueColumns)
      rw [String.ofList_toList] at hshown
      exact ⟨_, hshown, by simp [padEnd, truncateDisplay, String.append_assoc, toString]⟩
  rw [hline]
  exact .line hvalue

theorem kind_of_name {kind other : Finding.Kind} (h : kind.name = other.name) : kind = other := by
  revert h
  cases kind <;> cases other <;> decide

/-! ## Groups and kinds -/

def groupHeader (title : String) (g : Group) (n : Nat) : String :=
  s!"\n{title} in {g.nameSpace} / {g.language} ({n}):"

def moreLine (k : Nat) : String :=
  s!"    ... and {k} more"

/-- The lines of a group: a header with the number of its findings, and a line for each of them if
there is room for all, otherwise lines for as many as there is room for and the number of others. -/
inductive Group.Listed (title : String) (maxItems : Nat) (g : Group) : List String → Prop where
  | whole {lines : List String} (hroom : g.findings.length ≤ maxItems)
      (hlines : List.Forall₂ Shows g.findings lines) :
      Listed title maxItems g (groupHeader title g g.findings.length :: lines)
  | cut {shown hidden : List Finding} {lines : List String}
      (hfindings : g.findings = shown ++ hidden) (hfull : shown.length = maxItems)
      (hmore : hidden ≠ []) (hlines : List.Forall₂ Shows shown lines) :
      Listed title maxItems g
        (groupHeader title g g.findings.length :: (lines ++ [moreLine hidden.length]))

theorem forall₂_shows (findings : List Finding) :
    List.Forall₂ Shows findings (findings.map findingLine) :=
  List.forall₂_map_right_iff.mpr (List.forall₂_same.mpr fun f _ => shows_findingLine f)

theorem listed_groupLines (severity : Severity) (maxItems : Nat) (g : Group) :
    g.Listed (severityTitle severity) maxItems (groupLines severity maxItems g) := by
  by_cases hroom : g.findings.length ≤ maxItems
  · have hlines : groupLines severity maxItems g =
        groupHeader (severityTitle severity) g g.findings.length ::
          g.findings.map findingLine := by
      rw [groupLines, if_neg (Nat.not_lt.mpr hroom), List.take_of_length_le hroom, List.append_nil]
      rfl
    rw [hlines]
    exact .whole hroom (forall₂_shows g.findings)
  · have hcut : maxItems < g.findings.length := Nat.not_le.mp hroom
    have hlines : groupLines severity maxItems g =
        groupHeader (severityTitle severity) g g.findings.length ::
          ((g.findings.take maxItems).map findingLine ++
            [moreLine (g.findings.drop maxItems).length]) := by
      rw [groupLines, if_pos hcut, List.length_drop]
      rfl
    rw [hlines]
    refine .cut (List.take_append_drop maxItems g.findings).symm ?_ ?_ (forall₂_shows _)
    · rw [List.length_take]
      omega
    · rw [Ne, List.drop_eq_nil_iff]
      omega

variable (r : Report) (s : RunSummary) (maxItems : Nat)

def titleLines : List String :=
  ["=== Translation check ===",
   s!"Namespaces: {s.namespaces}, Languages: {s.languages}, Source files: {s.filesScanned}, " ++
    s!"Referenced keys: {s.keysReferenced}",
   s!"Errors: {r.errors.length}, Warnings: {r.warnings.length}"]

def countLine (kind : Finding.Kind) : String :=
  s!"  {kind.name} ({kind.severity.name}): {r.count kind}"

/-- The kinds that have findings. -/
def listedKinds : List Finding.Kind :=
  Finding.Kind.all.filter fun kind => 0 < r.count kind

theorem countLines_eq : r.countLines = r.listedKinds.map r.countLine := by
  rw [countLines, listedKinds, ← List.filterMap_eq_map, List.filterMap_filter]
  refine List.filterMap_congr fun kind _ => ?_
  by_cases hkind : 0 < r.count kind
  · simp [hkind, countLine]
  · simp [hkind]

/-! ## Verdicts -/

def failedLine : String :=
  s!"❌ FAILED: {r.errors.length} error(s), {r.warnings.length} warning(s)"

def passedLine : String :=
  s!"✅ PASSED: 0 errors, {r.warnings.length} warning(s)"

theorem hasErrors_iff_length_errors : r.hasErrors = true ↔ 0 < r.errors.length := by
  rw [hasErrors, List.any_eq_true, errors, ofSeverity, List.length_pos_iff_exists_mem]
  simp [List.mem_filter, Finding.isError]

theorem exitCode_eq_one_iff : r.exitCode = 1 ↔ r.hasErrors = true := by
  rw [exitCode]
  split <;> simp_all

theorem newline_not_mem_verdictLine : '\n' ∉ r.verdictLine.toList := by
  have herrors := newline_not_mem_toString r.errors.length
  have hwarnings := newline_not_mem_toString r.warnings.length
  rw [verdictLine]
  split
  · simp only [String.toList_append, List.mem_append, not_or]
    exact ⟨⟨⟨⟨by decide, herrors⟩, by decide⟩, hwarnings⟩, by decide⟩
  · simp only [String.toList_append, List.mem_append, not_or]
    exact ⟨⟨by decide, hwarnings⟩, by decide⟩

theorem verdictLine_eq :
    r.verdictLine = if r.hasErrors then r.failedLine else r.passedLine := by
  simp only [verdictLine, r.hasErrors_iff_length_errors]
  rfl

theorem head?_passedLine : r.passedLine.toList.head? = some '✅' := by
  have hstart : (toString "✅ PASSED: 0 errors, ").toList.head? = some '✅' := by decide
  unfold passedLine
  rw [String.toList_append, String.toList_append, List.head?_append, List.head?_append, hstart]
  rfl

theorem head?_failedLine : r.failedLine.toList.head? = some '❌' := by
  have hstart : (toString "❌ FAILED: ").toList.head? = some '❌' := by decide
  unfold failedLine
  simp only [String.toList_append, List.head?_append, hstart, Option.some_or]

theorem passedLine_ne_failedLine : r.passedLine ≠ r.failedLine := by
  intro heq
  have hhead := r.head?_passedLine
  rw [heq, head?_failedLine] at hhead
  exact absurd hhead (by decide)

theorem verdictLine_eq_failedLine_iff : r.verdictLine = r.failedLine ↔ r.hasErrors = true := by
  rw [verdictLine_eq]
  by_cases hfailed : r.hasErrors = true
  · rw [if_pos hfailed]
    exact iff_of_true rfl hfailed
  · rw [if_neg hfailed]
    exact iff_of_false r.passedLine_ne_failedLine hfailed

theorem lastLine_renderHuman : lastLine (r.renderHuman s maxItems) = r.verdictLine := by
  obtain ⟨above, habove, hlines⟩ :
      ∃ above, above ≠ [] ∧ r.humanLines s maxItems = above ++ [r.verdictLine] :=
    ⟨_ ++ [""], by simp, (List.append_assoc _ [""] [r.verdictLine]).symm⟩
  rw [renderHuman, hlines]
  exact lastLine_intercalate habove r.newline_not_mem_verdictLine

/-! ## The whole report -/

/-- What the report for people has in it. -/
structure Layout (kinds : List Finding.Kind) (errors warnings : List (List String)) : Prop where
  text : r.renderHuman s maxItems =
    "\n".intercalate (r.titleLines s ++ kinds.map r.countLine ++ errors.flatten ++
      warnings.flatten ++ ["", if r.hasErrors then r.failedLine else r.passedLine])
  kinds_nodup : kinds.Nodup
  mem_kinds : ∀ kind, kind ∈ kinds ↔ 0 < r.count kind
  kinds_total : r.tally kinds = r.errors.length + r.warnings.length
  errors : List.Forall₂ (Group.Listed "Errors" maxItems) (r.grouped .error) errors
  warnings : List.Forall₂ (Group.Listed "Warnings" maxItems) (r.grouped .warning) warnings

theorem forall₂_listed (severity : Severity) (groups : List Group) :
    List.Forall₂ (Group.Listed (severityTitle severity) maxItems) groups
      (groups.map (groupLines severity maxItems)) :=
  List.forall₂_map_right_iff.mpr
    (List.forall₂_same.mpr fun g _ => listed_groupLines severity maxItems g)

theorem layout : r.Layout s maxItems r.listedKinds
    ((r.grouped .error).map (groupLines .error maxItems))
    ((r.grouped .warning).map (groupLines .warning maxItems)) where
  text := by
    rw [← List.flatMap_def, ← List.flatMap_def, ← countLines_eq, ← verdictLine_eq]
    rfl
  kinds_nodup := List.Nodup.filter _ (by decide)
  mem_kinds := fun kind => by simp [listedKinds, kind.mem_all]
  kinds_total := by
    rw [listedKinds, tally_filter, tally_all, errors_length_add_warnings_length]
  errors := forall₂_listed maxItems .error (r.grouped .error)
  warnings := forall₂_listed maxItems .warning (r.grouped .warning)

variable {r s}

theorem Fits.passed_iff (h : r.Fits s) :
    (∃ v, Json.parse (r.renderJson s) = .ok v ∧ v.field? "passed" = some (.bool false)) ↔
      r.hasErrors = true := by
  have hfield : (r.toValue s).field? "passed" = some (.bool !r.hasErrors) := rfl
  constructor
  · rintro ⟨v, hparse, hpassed⟩
    obtain rfl := Except.ok.inj (h.parse_renderJson.symm.trans hparse)
    simpa [hfield] using hpassed
  · intro herrors
    refine ⟨r.toValue s, h.parse_renderJson, ?_⟩
    rw [hfield, herrors]
    rfl

/-- What a report and its renderings say about the same findings. -/
structure Accounted (r : Report) (s : RunSummary) (maxItems : Nat) : Prop where
  grouping : ∀ severity, Grouping (r.ofSeverity severity) (r.grouped severity)
  distinct : ∀ severity, ((r.grouped severity).map Group.place).Nodup
  nonempty : ∀ severity, ∀ g ∈ r.grouped severity, g.findings ≠ []
  /-- No finding is lost or has come twice. -/
  once : ∀ severity, ((r.grouped severity).flatMap Group.findings).Perm (r.ofSeverity severity)
  layout : ∃ kinds errors warnings, r.Layout s maxItems kinds errors warnings
  /-- A line tells of which kind its finding is. -/
  names : ∀ {kind other : Finding.Kind}, kind.name = other.name → kind = other
  total : r.errors.length + r.warnings.length = r.findings.length
  exitCode : r.exitCode = 1 ↔ r.hasErrors = true
  failed : lastLine (r.renderHuman s maxItems) = r.failedLine ↔ r.hasErrors = true
  passed : (∃ v, Json.parse (r.renderJson s) = .ok v ∧ v.field? "passed" = some (.bool false)) ↔
    r.hasErrors = true

/-- The findings of a report are accounted for, however its groups mix and wherever they are cut. -/
theorem findings_accounted (h : r.Fits s) (maxItems : Nat) : r.Accounted s maxItems where
  grouping := r.grouping_grouped
  distinct := fun severity => (r.grouping_grouped severity).places.nodup
  nonempty := fun severity _ hg => (r.grouping_grouped severity).findings_ne_nil hg
  once := fun severity => (r.grouping_grouped severity).perm
  layout := ⟨_, _, _, r.layout s maxItems⟩
  names := kind_of_name
  total := r.errors_length_add_warnings_length
  exitCode := r.exitCode_eq_one_iff
  failed := by rw [lastLine_renderHuman, verdictLine_eq_failedLine_iff]
  passed := h.passed_iff

def missingIn (language path : String) : Finding :=
  ⟨.missingKey, "app", language, path, "missing", none, none⟩

/-- Two groups of errors that come in turns, one of them longer than what is shown. -/
theorem findings_accounted_cut :
    let r : Report := ⟨[missingIn "uk" "a", ⟨.extraKey, "app", "uk", "x", "extra", none, none⟩,
      missingIn "de" "a", missingIn "uk" "b", missingIn "uk" "c"]⟩
    let s : RunSummary := ⟨1, 3, 2, 5⟩
    r.Fits s ∧ r.Accounted s 2 ∧
      r.grouped .error =
        [⟨"app", "uk", [missingIn "uk" "a", missingIn "uk" "b", missingIn "uk" "c"]⟩,
          ⟨"app", "de", [missingIn "de" "a"]⟩] ∧
      lastLine (r.renderHuman s 2) = "❌ FAILED: 4 error(s), 1 warning(s)" := by
  intro r s
  have hfits : r.Fits s := ⟨⟨by decide, by decide, by decide, by decide⟩, by decide⟩
  have haccounted : r.Accounted s 2 := findings_accounted hfits 2
  have hlast : lastLine (r.renderHuman s 2) = r.failedLine := haccounted.failed.mpr (by decide)
  exact ⟨hfits, haccounted, by decide, hlast.trans (by decide)⟩

end Report

end LocaleAudit
