import LocaleAudit.Proofs.KeyPath.Leaves
import LocaleAudit.Proofs.Report.Deduplication
import LocaleAudit.Validation

namespace LocaleAudit

/-!
# What validation finds

A leaf has a finding of some kind exactly when its value has the fault of that kind.
-/

namespace Validation

open Json (Value)

variable {nameSpace language path : String} {reference : Option Value} {value : Value} {f : Finding}

/-- A text whose tags do not nest. -/
def Unbalanced (value : Value) : Prop :=
  ∃ text, value = .string text ∧ Markup.check text ≠ .ok ()

/-- A text without some variable of the text it is held against. -/
def LacksVariable (reference : Option Value) (value : Value) : Prop :=
  ∃ defaultText text, reference = some (.string defaultText) ∧ value = .string text ∧
    ∃ name ∈ Interpolation.variableNames defaultText, name ∉ Interpolation.variableNames text

/-- A text with a variable that the text it is held against has not. -/
def AddsVariable (reference : Option Value) (value : Value) : Prop :=
  ∃ defaultText text, reference = some (.string defaultText) ∧ value = .string text ∧
    ∃ name ∈ Interpolation.variableNames text, name ∉ Interpolation.variableNames defaultText

/-- The fault that a kind of finding stands for. -/
def HasFault (reference : Option Value) (value : Value) : Finding.Kind → Prop
  | .emptyValue => isEmptyValue value = true
  | .unbalancedMarkup => Unbalanced value
  | .missingVariable => LacksVariable reference value
  | .extraVariable => AddsVariable reference value
  | _ => False

theorem mem_variableFindings {defaultText text : String} :
    f ∈ variableFindings nameSpace language path defaultText text ↔
      (∃ name ∈ Interpolation.variableNames defaultText, name ∉ Interpolation.variableNames text ∧
        variableFinding .missingVariable nameSpace language path text name "is missing" = f) ∨
      (∃ name ∈ Interpolation.variableNames text, name ∉ Interpolation.variableNames defaultText ∧
        variableFinding .extraVariable nameSpace language path text name
          "is not in the default language" = f) := by
  simp only [variableFindings, List.mem_append, List.mem_map, List.mem_filter, Bool.not_eq_true',
    List.contains_eq_mem, decide_eq_false_iff_not, and_assoc]

theorem mem_leafFindings_string {text : String} :
    f ∈ leafFindings nameSpace language path reference (.string text) ↔
      (text.isEmpty = true ∧ f =
        { kind := .emptyValue, nameSpace, language, path, message := "value is empty" }) ∨
      (∃ fault, Markup.check text = .error fault ∧ f =
        { kind := .unbalancedMarkup, nameSpace, language, path, message := fault.message
          value := some text }) ∨
      (∃ defaultText, reference = some (.string defaultText) ∧
        f ∈ variableFindings nameSpace language path defaultText text) := by
  rw [leafFindings.eq_def, List.mem_append, List.mem_append, or_assoc]
  refine or_congr ?_ (or_congr ?_ ?_)
  · rw [isEmptyValue]
    split <;> simp_all
  · split <;> simp_all
  · split <;> simp_all

theorem mem_leafFindings_of_not_string (h : ∀ text, value ≠ .string text) :
    f ∈ leafFindings nameSpace language path reference value ↔
      isEmptyValue value = true ∧ f =
        { kind := .emptyValue, nameSpace, language, path, message := "value is empty" } := by
  cases value with
  | string text => exact absurd rfl (h text)
  | null => simp [leafFindings, isEmptyValue]
  | _ => simp [leafFindings, isEmptyValue]

/-- Findings name the leaf they are about and a fault that it has. -/
theorem of_mem_leafFindings
    (h : f ∈ leafFindings nameSpace language path reference value) :
    f.nameSpace = nameSpace ∧ f.language = language ∧ f.path = path ∧
      HasFault reference value f.kind := by
  by_cases hvalue : ∃ text, value = .string text
  · obtain ⟨text, rfl⟩ := hvalue
    rcases mem_leafFindings_string.mp h with ⟨hempty, rfl⟩ | ⟨fault, hfault, rfl⟩ |
      ⟨defaultText, rfl, hvariable⟩
    · exact ⟨rfl, rfl, rfl, hempty⟩
    · exact ⟨rfl, rfl, rfl, text, rfl, by simp [hfault]⟩
    · rcases mem_variableFindings.mp hvariable with ⟨name, hname, hnot, rfl⟩ |
        ⟨name, hname, hnot, rfl⟩
      · exact ⟨rfl, rfl, rfl, defaultText, text, rfl, rfl, name, hname, hnot⟩
      · exact ⟨rfl, rfl, rfl, defaultText, text, rfl, rfl, name, hname, hnot⟩
  · have hother : ∀ text, value ≠ .string text := fun text htext => hvalue ⟨text, htext⟩
    obtain ⟨hempty, rfl⟩ := (mem_leafFindings_of_not_string hother).mp h
    exact ⟨rfl, rfl, rfl, hempty⟩

theorem exists_leafFindings_iff {kind : Finding.Kind} :
    (∃ f ∈ leafFindings nameSpace language path reference value, f.kind = kind) ↔
      HasFault reference value kind := by
  constructor
  · rintro ⟨f, hf, rfl⟩
    exact (of_mem_leafFindings hf).2.2.2
  · intro hfault
    cases kind with
    | emptyValue =>
      by_cases hvalue : ∃ text, value = .string text
      · obtain ⟨text, rfl⟩ := hvalue
        exact ⟨_, mem_leafFindings_string.mpr (Or.inl ⟨hfault, rfl⟩), rfl⟩
      · have hother : ∀ text, value ≠ .string text := fun text htext => hvalue ⟨text, htext⟩
        exact ⟨_, (mem_leafFindings_of_not_string hother).mpr ⟨hfault, rfl⟩, rfl⟩
    | unbalancedMarkup =>
      obtain ⟨text, rfl, hcheck⟩ := hfault
      cases hresult : Markup.check text with
      | ok => exact absurd hresult hcheck
      | error fault =>
        exact ⟨_, mem_leafFindings_string.mpr (Or.inr (Or.inl ⟨fault, hresult, rfl⟩)), rfl⟩
    | missingVariable =>
      obtain ⟨defaultText, text, rfl, rfl, name, hname, hnot⟩ := hfault
      refine ⟨variableFinding .missingVariable nameSpace language path text name "is missing", ?_,
        rfl⟩
      refine mem_leafFindings_string.mpr (Or.inr (Or.inr ⟨defaultText, rfl, ?_⟩))
      exact mem_variableFindings.mpr (Or.inl ⟨name, hname, hnot, rfl⟩)
    | extraVariable =>
      obtain ⟨defaultText, text, rfl, rfl, name, hname, hnot⟩ := hfault
      refine ⟨variableFinding .extraVariable nameSpace language path text name
        "is not in the default language", ?_, rfl⟩
      refine mem_leafFindings_string.mpr (Or.inr (Or.inr ⟨defaultText, rfl, ?_⟩))
      exact mem_variableFindings.mpr (Or.inr ⟨name, hname, hnot, rfl⟩)
    | _ => exact hfault.elim

theorem HasFault.of_error {kind : Finding.Kind} (h : HasFault reference value kind)
    (herror : kind.severity = .error) : Unbalanced value ∨ LacksVariable reference value := by
  cases kind with
  | unbalancedMarkup => exact Or.inl h
  | missingVariable => exact Or.inr h
  | emptyValue => cases herror
  | extraVariable => cases herror
  | _ => exact h.elim

theorem exists_error_leafFindings_iff :
    (∃ f ∈ leafFindings nameSpace language path reference value, f.isError = true) ↔
      Unbalanced value ∨ LacksVariable reference value := by
  constructor
  · rintro ⟨f, hf, herror⟩
    have hfault := (of_mem_leafFindings hf).2.2.2
    exact hfault.of_error (Report.isError_iff.mp herror)
  · intro hfault
    have hexists : ∃ kind : Finding.Kind, kind.severity = .error ∧
        HasFault reference value kind := by
      rcases hfault with hunbalanced | hlacks
      · exact ⟨.unbalancedMarkup, rfl, hunbalanced⟩
      · exact ⟨.missingVariable, rfl, hlacks⟩
    obtain ⟨kind, hseverity, hkind⟩ := hexists
    have hfinding : ∃ f ∈ leafFindings nameSpace language path reference value, f.kind = kind :=
      exists_leafFindings_iff.mpr hkind
    obtain ⟨f, hf, rfl⟩ := hfinding
    exact ⟨f, hf, Report.isError_iff.mpr hseverity⟩

/-! ## Catalogs -/

def reference? (c : Catalog) (default : Option Catalog) (path : String) : Option Value :=
  (default.filter fun d => d.language != c.language).bind (·.get? path)

theorem reference?_of_ne {c d : Catalog} (h : d.language ≠ c.language) (path : String) :
    reference? c (some d) path = d.get? path := by
  simp [reference?, Option.filter, h]

theorem reference?_of_eq {c d : Catalog} (h : d.language = c.language) (path : String) :
    reference? c (some d) path = none := by
  simp [reference?, h]

theorem reference?_eq_string_iff {c d : Catalog} (hd : d.tree.WellFormed) {path text : String} :
    reference? c (some d) path = some (.string text) ↔
      c.language ≠ d.language ∧ (path, .string text) ∈ d.leaves := by
  by_cases hlanguage : d.language = c.language
  · simp [reference?_of_eq hlanguage, hlanguage]
  · have hleaf : (path, Value.string text) ∈ d.leaves ↔
        d.get? path = some (.string text) ∧ (Value.string text).isObject = false :=
      KeyPath.mem_leaves_iff hd
    rw [reference?_of_ne hlanguage, hleaf]
    constructor
    · intro hget
      exact ⟨Ne.symm hlanguage, hget, rfl⟩
    · rintro ⟨_, hget, _⟩
      exact hget

theorem mem_catalogFindings {c : Catalog} {default : Option Catalog} :
    f ∈ catalogFindings c default ↔ ∃ l ∈ c.leaves,
      f ∈ leafFindings c.nameSpace c.language l.1 (reference? c default l.1) l.2 := by
  rw [catalogFindings, List.mem_flatMap]
  rfl

theorem of_mem_seen_validateCatalog {c : Catalog} {default : Option Catalog}
    {i : Finding.Identity} (h : i ∈ (validateCatalog c default).seen) :
    i.nameSpace = c.nameSpace ∧ i.language = c.language ∧
      ∃ reference value, HasFault reference value i.kind := by
  rw [validateCatalog, Report.mem_seen_ofList] at h
  obtain ⟨f, hf, rfl⟩ := h
  obtain ⟨l, _, hleaf⟩ := mem_catalogFindings.mp hf
  obtain ⟨hnameSpace, hlanguage, _, hfault⟩ := of_mem_leafFindings hleaf
  exact ⟨hnameSpace, hlanguage, _, _, hfault⟩

theorem validateCatalog_hasErrors {c : Catalog} {default : Option Catalog} :
    (validateCatalog c default).hasErrors = true ↔
      ∃ l ∈ c.leaves, Unbalanced l.2 ∨ LacksVariable (reference? c default l.1) l.2 := by
  rw [validateCatalog, Report.hasErrors_ofList]
  constructor
  · rintro ⟨f, hf, herror⟩
    obtain ⟨l, hl, hleaf⟩ := mem_catalogFindings.mp hf
    exact ⟨l, hl, exists_error_leafFindings_iff.mp ⟨f, hleaf, herror⟩⟩
  · rintro ⟨l, hl, hfault⟩
    obtain ⟨f, hleaf, herror⟩ := exists_error_leafFindings_iff.mpr hfault
    exact ⟨f, mem_catalogFindings.mpr ⟨l, hl, hleaf⟩, herror⟩

/-- A catalog has a finding of some kind at a path exactly when a leaf there has the fault. -/
theorem exists_validateCatalog_iff {c : Catalog} {default : Option Catalog}
    {kind : Finding.Kind} {path : String} :
    (∃ f ∈ (validateCatalog c default).findings, f.kind = kind ∧ f.path = path) ↔
      ∃ value, (path, value) ∈ c.leaves ∧ HasFault (reference? c default path) value kind := by
  have hreport : (∃ f ∈ (validateCatalog c default).findings, f.kind = kind ∧ f.path = path) ↔
      ∃ f ∈ catalogFindings c default, f.kind = kind ∧ f.path = path :=
    Report.exists_ofList_iff fun i => i.kind = kind ∧ i.path = path
  rw [hreport]
  constructor
  · rintro ⟨f, hf, rfl, rfl⟩
    obtain ⟨l, hl, hleaf⟩ := mem_catalogFindings.mp hf
    obtain ⟨_, _, hpath, hfault⟩ := of_mem_leafFindings hleaf
    rw [hpath]
    exact ⟨l.2, hl, hfault⟩
  · rintro ⟨value, hl, hfault⟩
    have hexists : ∃ f ∈ leafFindings c.nameSpace c.language path (reference? c default path) value,
        f.kind = kind := exists_leafFindings_iff.mpr hfault
    obtain ⟨f, hf, hkind⟩ := hexists
    exact ⟨f, mem_catalogFindings.mpr ⟨_, hl, hf⟩, hkind, (of_mem_leafFindings hf).2.2.1⟩

end Validation

end LocaleAudit
