import LocaleAudit.LanguageTag
import LocaleAudit.Proofs.Difference
import LocaleAudit.Proofs.Marker
import LocaleAudit.Proofs.Reconciliation.Run
import LocaleAudit.Proofs.Validation

namespace LocaleAudit

/-!
# Placeholders among the other values

A placeholder of a plain marker has the faults of its original and no others.
-/

namespace Reconciliation

open Json (Value)
open Validation (HasFault LacksVariable AddsVariable Unbalanced)

section Faults

variable {marker : Marker} {source goal : String} {value : Value}

theorem string_of_placeholder {text : String}
    (h : placeholder marker source goal value = .string text) :
    ∃ original, value = .string original ∧ text = marker.apply original source goal := by
  cases value with
  | string original =>
    cases h
    exact ⟨original, rfl, rfl⟩
  | _ => cases h

theorem not_lacksVariable_placeholder (h : marker.IsPlain source goal) :
    ¬LacksVariable (some value) (placeholder marker source goal value) := by
  rintro ⟨defaultText, text, hdefault, htext, name, hname, hnot⟩
  obtain ⟨original, rfl, rfl⟩ := string_of_placeholder htext
  cases hdefault
  rw [h.variableNames_apply] at hnot
  exact hnot hname

theorem not_addsVariable_placeholder (h : marker.IsPlain source goal) :
    ¬AddsVariable (some value) (placeholder marker source goal value) := by
  rintro ⟨defaultText, text, hdefault, htext, name, hname, hnot⟩
  obtain ⟨original, rfl, rfl⟩ := string_of_placeholder htext
  cases hdefault
  rw [h.variableNames_apply] at hname
  exact hnot hname

theorem unbalanced_placeholder_iff (h : marker.IsPlain source goal) :
    Unbalanced (placeholder marker source goal value) ↔ Unbalanced value := by
  constructor
  · rintro ⟨text, htext, hcheck⟩
    obtain ⟨original, rfl, rfl⟩ := string_of_placeholder htext
    rw [h.check_apply] at hcheck
    exact ⟨original, rfl, hcheck⟩
  · rintro ⟨original, rfl, hcheck⟩
    refine ⟨marker.apply original source goal, rfl, ?_⟩
    rwa [h.check_apply]

end Faults

variable {default target : Catalog}

section Run

variable {marker : Marker} {policy : ConflictPolicy} {p : Progress} {path : String} {value : Value}
  (h : Reached marker policy default target (Difference.missingPaths default target) p)

include h

theorem Reached.mem_leaves_iff_of_added (hpath : path ∈ p.added)
    (hvalue : default.get? path = some value) {w : Value} :
    (path, w) ∈ KeyPath.leaves p.tree ↔
      w = placeholder marker default.language target.language value := by
  obtain ⟨value', hvalue', hmem⟩ := h.placed path hpath
  cases hvalue.symm.trans hvalue'
  constructor
  · intro hw
    have hget := ((KeyPath.mem_leaves_iff h.wellFormed).mp hmem).1
    have hgetw := ((KeyPath.mem_leaves_iff h.wellFormed).mp hw).1
    exact Option.some.inj (hgetw.symm.trans hget)
  · rintro rfl
    exact hmem

theorem Reached.validation_iff (hlanguage : default.language ≠ target.language)
    (hpath : path ∈ p.added) (hvalue : default.get? path = some value) {kind : Finding.Kind} :
    (∃ f ∈ (Validation.validateCatalog { target with tree := p.tree } (some default)).findings,
        f.kind = kind ∧ f.path = path) ↔
      HasFault (some value) (placeholder marker default.language target.language value) kind := by
  have hreference : Validation.reference? { target with tree := p.tree } (some default) path =
      some value := (Validation.reference?_of_ne hlanguage path).trans hvalue
  rw [Validation.exists_validateCatalog_iff, hreference]
  constructor
  · rintro ⟨w, hw, hfault⟩
    rwa [(h.mem_leaves_iff_of_added hpath hvalue).mp hw] at hfault
  · intro hfault
    exact ⟨_, (h.mem_leaves_iff_of_added hpath hvalue).mpr rfl, hfault⟩

theorem Reached.untranslated_at_added (hpath : path ∈ p.added) {text : String}
    (hvalue : default.get? path = some (.string text)) :
    (Difference.untranslated { target with tree := p.tree } default.language marker).findings.filter
        (·.path == path) =
      [Difference.untranslatedFinding { target with tree := p.tree }
        (String.ofList (trimEnd (marker.render default.language target.language).toList)) path
        (marker.apply text default.language target.language)] := by
  have hmem := (h.mem_leaves_iff_of_added hpath hvalue).mpr rfl
  rw [Difference.untranslated_at h.wellFormed _ _ hmem, Difference.untranslatedAt?, placeholder]
  simp only [Marker.marks_apply]
  rfl

end Run

/-- After a run, added texts carry the marker and have the faults of their originals. -/
theorem placeholders_validate (marker : Marker) (policy : ConflictPolicy) (hd : default.Parsed)
    (ht : target.Parsed) (hlanguage : default.language ≠ target.language)
    (hmarker : marker.IsPlain default.language target.language ∨
      marker = .default ∧ '{' ∉ default.language.toList ∧ '<' ∉ default.language.toList) :
    let after := (reconcile marker policy default target).1
    let marking := String.ofList (trimEnd (marker.render default.language target.language).toList)
    let untranslated := (Difference.untranslated after default.language marker).findings
    let validation := (Validation.validateCatalog after (some default)).findings
    ∀ path ∈ (reconcile marker policy default target).2.added,
      (∀ text, default.get? path = some (.string text) →
        untranslated.filter (·.path == path) = [Difference.untranslatedFinding after marking path
          (marker.apply text default.language target.language)]) ∧
      (∀ f ∈ validation, f.path = path → f.kind ≠ .missingVariable ∧ f.kind ≠ .extraVariable) ∧
      ((∃ f ∈ validation, f.kind = .unbalancedMarkup ∧ f.path = path) ↔
        ∃ text, default.get? path = some (.string text) ∧ Markup.check text ≠ .ok ()) := by
  have hplain : marker.IsPlain default.language target.language := by
    rcases hmarker with hplain | ⟨rfl, hbrace, hangle⟩
    · exact hplain
    · exact Marker.isPlain_default hbrace hangle target.language
  obtain ⟨p, h, hreconcile⟩ :=
    reached_reconcile marker policy target hd.wellFormed ht.wellFormed hlanguage
  simp only [hreconcile]
  intro path hpath
  obtain ⟨value, hvalue, _⟩ := h.placed path hpath
  refine ⟨fun text htext => h.untranslated_at_added hpath htext, ?_, ?_⟩
  · intro f hf hfpath
    constructor
    · intro hkind
      exact not_lacksVariable_placeholder hplain
        ((h.validation_iff hlanguage hpath hvalue).mp ⟨f, hf, hkind, hfpath⟩)
    · intro hkind
      exact not_addsVariable_placeholder hplain
        ((h.validation_iff hlanguage hpath hvalue).mp ⟨f, hf, hkind, hfpath⟩)
  · rw [h.validation_iff hlanguage hpath hvalue]
    refine (unbalanced_placeholder_iff hplain).trans ?_
    rw [hvalue, Unbalanced]
    simp only [Option.some.injEq]

/-- A greeting with a variable and an open tag keeps both behind the default marker. -/
theorem placeholders_validate_greeting :
    let source : Catalog := ⟨"en", "app", [("a", .string "Hi \x7b\x7bname\x7d\x7d <b>")]⟩
    let target : Catalog := ⟨"de", "app", []⟩
    let after := (reconcile .default .fail source target).1
    let validation := (Validation.validateCatalog after (some source)).findings
    ((Difference.untranslated after "en" .default).findings.filter (·.path == "a")).length = 1 ∧
      (∃ f ∈ validation, f.kind = .unbalancedMarkup ∧ f.path = "a") ∧
      ∀ f ∈ validation, f.path = "a" → f.kind ≠ .missingVariable ∧ f.kind ≠ .extraVariable := by
  have hsource : Catalog.Parsed
      ⟨"en", "app", [("a", .string "Hi \x7b\x7bname\x7d\x7d <b>")]⟩ :=
    ⟨"\x7b\"a\": \"Hi \x7b\x7bname\x7d\x7d <b>\"\x7d", by decide +kernel⟩
  have htarget : Catalog.Parsed ⟨"de", "app", []⟩ := ⟨"\x7b\x7d", by decide +kernel⟩
  obtain ⟨huntranslated, hvariables, hmarkup⟩ :=
    placeholders_validate .default .fail hsource htarget (by decide)
      (Or.inr ⟨rfl, by decide, by decide⟩) "a" (by decide)
  have hopen : Markup.check "Hi \x7b\x7bname\x7d\x7d <b>" = .error (.unclosed "b") := by rfl
  refine ⟨?_, hmarkup.mpr ⟨_, rfl, by simp [hopen]⟩, hvariables⟩
  exact congrArg List.length (huntranslated _ rfl)

/-- A language code may have an angle bracket in a variant of four characters. The default marker
then puts a tag in front of the text, which has none itself. -/
theorem placeholder_unbalanced_of_angle_code :
    let source : Catalog := ⟨"en-1<b>", "common", [("a", .string "Hello")]⟩
    let target : Catalog := ⟨"uk", "common", []⟩
    let after := (reconcile .default .fail source target).1
    LanguageTag.check source.language = .ok () ∧ source.Parsed ∧ target.Parsed ∧
      "a" ∈ (reconcile .default .fail source target).2.added ∧ Markup.check "Hello" = .ok () ∧
      ∃ f ∈ (Validation.validateCatalog after (some source)).findings,
        f.kind = .unbalancedMarkup ∧ f.path = "a" := by
  refine ⟨rfl, ⟨"\x7b\"a\": \"Hello\"\x7d", by decide +kernel⟩,
    ⟨"\x7b\x7d", by decide +kernel⟩, by decide, rfl, ?_⟩
  decide

end Reconciliation

end LocaleAudit
