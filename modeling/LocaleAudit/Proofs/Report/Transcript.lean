import LocaleAudit.Proofs.Entries
import LocaleAudit.Proofs.Json.RoundTrip
import LocaleAudit.Report.Transcript
import Mathlib.Data.List.Forall2

namespace LocaleAudit

/-!
# Reports for programs lose nothing

The text of a report spells the value it was made from, and that value says what the report has: the
summary, the verdict, the number of findings of each kind, and all errors and warnings in order.
-/

open Json (Value Number)

theorem mapM_eq_some_map {α β : Type} {f : α → Option β} {g : α → β} {l : List α}
    (h : ∀ a ∈ l, f a = some (g a)) : l.mapM f = some (l.map g) := by
  induction l with
  | nil => rfl
  | cons a l ih =>
    rw [List.forall_mem_cons] at h
    rw [List.mapM_cons, h.1, ih h.2]
    rfl

/-! ## Findings -/

namespace Finding

theorem Kind.ofName?_name (kind : Kind) : Kind.ofName? kind.name = some kind := by
  cases kind <;> decide

theorem Kind.nodup_names : (Kind.all.map Kind.name).Nodup := by
  decide

variable (f : Finding)

theorem ofValue?_toValue : ofValue? f.toValue = some f := by
  obtain ⟨kind, nameSpace, language, path, message, value, variableName⟩ := f
  cases value <;> cases variableName <;>
    simp [ofValue?, toValue, toFields, optionalField, Value.field?, Value.fields?,
      Value.optionalText?, Value.text?, Entries.get?, Kind.ofName?_name]

theorem field?_value : f.toValue.field? "value" = f.value.map Value.string := by
  obtain ⟨kind, nameSpace, language, path, message, value, variableName⟩ := f
  cases value <;> cases variableName <;>
    simp [toValue, toFields, optionalField, Value.field?, Value.fields?, Entries.get?]

theorem field?_variable : f.toValue.field? "variable" = f.variableName.map Value.string := by
  obtain ⟨kind, nameSpace, language, path, message, value, variableName⟩ := f
  cases value <;> cases variableName <;>
    simp [toValue, toFields, optionalField, Value.field?, Value.fields?, Entries.get?]

/-- The value that a finding is written as: reading it gives the finding, and it has a field for a
value or a variable exactly when the finding has one. -/
structure WrittenAs (f : Finding) (v : Value) : Prop where
  read : ofValue? v = some f
  value_absent : v.field? "value" = none ↔ f.value = none
  variable_absent : v.field? "variable" = none ↔ f.variableName = none

theorem writtenAs_toValue : f.WrittenAs f.toValue where
  read := f.ofValue?_toValue
  value_absent := by rw [field?_value, Option.map_eq_none_iff]
  variable_absent := by rw [field?_variable, Option.map_eq_none_iff]

theorem within_toValue (N : Number → Prop) (depth : Nat) : f.toValue.Within N (depth + 1) := by
  obtain ⟨kind, nameSpace, language, path, message, value, variableName⟩ := f
  refine .object ?_ ?_
  · cases value <;> cases variableName <;> simp [toFields, optionalField]
  · intro field hfield
    have hstring : ∃ s, field.2 = .string s := by
      cases value <;> cases variableName <;>
        simp only [toFields, optionalField, List.append_nil, List.cons_append, List.nil_append,
          List.mem_cons, List.not_mem_nil, or_false] at hfield <;>
        rcases hfield with rfl | rfl | rfl | rfl | rfl | rfl | rfl <;> exact ⟨_, rfl⟩
    obtain ⟨s, hs⟩ := hstring
    rw [hs]
    exact .string depth s

end Finding

/-! ## Numbers -/

/-- A number of 64 bits is read as it is written. -/
theorem nat?_natValue (n : Nat) : (natValue n).nat? = some n := by
  simp [natValue, Value.nat?]

theorem readsAs_nat {n : Nat} (h : n < Json.unsignedLimit) :
    (Number.integer n).ReadsAs (.integer n) :=
  Json.readsAs_integer ⟨by simp only [Json.signedLimit]; omega, by exact_mod_cast h⟩

theorem within_natValue {n : Nat} (h : n < Json.unsignedLimit) (depth : Nat) :
    (natValue n).Within (fun n => n.ReadsAs n) depth :=
  .number depth (readsAs_nat h)

/-- The numbers of a summary, and so those of a report, have 64 bits. -/
structure RunSummary.Fits (s : RunSummary) : Prop where
  namespaces : s.namespaces < Json.unsignedLimit
  languages : s.languages < Json.unsignedLimit
  filesScanned : s.filesScanned < Json.unsignedLimit
  keysReferenced : s.keysReferenced < Json.unsignedLimit

namespace RunSummary

theorem ofValue?_toValue (s : RunSummary) : ofValue? s.toValue = some s := by
  simp [ofValue?, toValue, Value.field?, Value.fields?, Entries.get?, nat?_natValue]

theorem Fits.within_toValue {s : RunSummary} (h : s.Fits) (depth : Nat) :
    s.toValue.Within (fun n => n.ReadsAs n) (depth + 1) := by
  refine .object (by simp) ?_
  simp only [List.forall_mem_cons, List.not_mem_nil, false_imp_iff, implies_true, and_true]
  exact ⟨within_natValue h.namespaces depth, within_natValue h.languages depth,
    within_natValue h.filesScanned depth, within_natValue h.keysReferenced depth⟩

end RunSummary

namespace Report

variable (r : Report) (s : RunSummary)

theorem nodup_names_counts :
    ((Finding.Kind.all.map fun kind => (kind.name, natValue (r.count kind))).map
      Prod.fst).Nodup := by
  rw [List.map_map]
  exact Finding.Kind.nodup_names

theorem countsOf?_countsValue :
    Transcript.countsOf? r.countsValue =
      some (Finding.Kind.all.map fun kind => (kind, r.count kind)) := by
  refine mapM_eq_some_map fun kind hkind => ?_
  have hfield : r.countsValue.field? kind.name = some (natValue (r.count kind)) :=
    Entries.get?_of_mem r.nodup_names_counts (List.mem_map_of_mem hkind)
  rw [hfield, Option.bind_some, nat?_natValue]
  rfl

theorem findingsOf?_toValues (findings : List Finding) :
    Transcript.findingsOf? (.array (findings.map Finding.toValue)) = some findings := by
  have hread : findings.mapM (fun f => Finding.ofValue? f.toValue) = some (findings.map id) :=
    mapM_eq_some_map fun f _ => f.ofValue?_toValue
  rw [Transcript.findingsOf?, Value.items?, Option.bind_some, List.mapM_map]
  rwa [List.map_id] at hread

/-- What the report says. -/
def transcript : Transcript :=
  ⟨s, !r.hasErrors, Finding.Kind.all.map fun kind => (kind, r.count kind), r.errors, r.warnings⟩

theorem ofValue?_toValue : Transcript.ofValue? (r.toValue s) = some (r.transcript s) := by
  simp [Transcript.ofValue?, toValue, Value.field?, Value.fields?, Entries.get?, Value.bool?,
    RunSummary.ofValue?_toValue, countsOf?_countsValue, findingsOf?_toValues, transcript]

theorem count_le_length (kind : Finding.Kind) : r.count kind ≤ r.findings.length :=
  List.countP_le_length

variable {r s}

theorem within_countsValue (h : r.findings.length < Json.unsignedLimit) (depth : Nat) :
    r.countsValue.Within (fun n => n.ReadsAs n) (depth + 1) := by
  refine .object r.nodup_names_counts fun field hfield => ?_
  obtain ⟨kind, _, rfl⟩ := List.mem_map.mp hfield
  exact within_natValue (Nat.lt_of_le_of_lt (r.count_le_length kind) h) depth

theorem within_toValues (N : Number → Prop) (findings : List Finding) (depth : Nat) :
    (Value.array (findings.map Finding.toValue)).Within N (depth + 2) := by
  refine .array fun v hv => ?_
  obtain ⟨f, _, rfl⟩ := List.mem_map.mp hv
  exact f.within_toValue N depth

/-- The numbers that a report is rendered with have 64 bits. -/
structure Fits (r : Report) (s : RunSummary) : Prop where
  summary : s.Fits
  findings : r.findings.length < Json.unsignedLimit

theorem Fits.within_toValue (h : r.Fits s) (depth : Nat) :
    (r.toValue s).Within (fun n => n.ReadsAs n) (depth + 3) := by
  refine .object (by simp) ?_
  simp only [List.forall_mem_cons, List.not_mem_nil, false_imp_iff, implies_true, and_true]
  exact ⟨h.summary.within_toValue _, .bool _ _, within_countsValue h.findings _,
    within_toValues _ _ _, within_toValues _ _ _⟩

theorem Fits.parse_renderJson (h : r.Fits s) :
    Json.parse (r.renderJson s) = .ok (r.toValue s) := by
  have hwithin : (r.toValue s).Within (fun n => n.ReadsAs (id n)) Json.maxDepth :=
    h.within_toValue 124
  have hend : Json.EndsNumber "".toList := by simp [Json.EndsNumber]
  have hread := Json.parse_pretty_append (fun _ hn => hn) hwithin hend rfl
  rwa [String.append_empty, hwithin.mapNumbers_id] at hread

/-- A field of a value has these findings, one after the other. -/
def Lists (v : Value) (key : String) (findings : List Finding) : Prop :=
  ∃ items, v.field? key = some (.array items) ∧ List.Forall₂ Finding.WrittenAs findings items

theorem forall₂_writtenAs_toValue (findings : List Finding) :
    List.Forall₂ Finding.WrittenAs findings (findings.map Finding.toValue) :=
  List.forall₂_map_right_iff.mpr (List.forall₂_same.mpr fun f _ => f.writtenAs_toValue)

theorem mem_counts_transcript {kind : Finding.Kind} {n : Nat} :
    (kind, n) ∈ (r.transcript s).counts ↔ n = r.count kind := by
  simp only [transcript, List.mem_map, Prod.mk.injEq]
  constructor
  · rintro ⟨_, _, rfl, rfl⟩
    rfl
  · rintro rfl
    exact ⟨kind, kind.mem_all, rfl, rfl⟩

/-- The text of a report is read back, and what is read says all that the report has: no field of a
finding is lost or made up, whatever characters there are in it. -/
theorem renderJson_lossless (h : r.Fits s) :
    ∃ v t, Json.parse (r.renderJson s) = .ok v ∧ Transcript.ofValue? v = some t ∧
      t.summary = s ∧ t.passed = !r.hasErrors ∧
      (∀ kind n, (kind, n) ∈ t.counts ↔ n = r.count kind) ∧
      t.errors = r.errors ∧ t.warnings = r.warnings ∧
      Lists v "errors" r.errors ∧ Lists v "warnings" r.warnings := by
  refine ⟨r.toValue s, r.transcript s, h.parse_renderJson, r.ofValue?_toValue s, rfl, rfl,
    fun kind n => mem_counts_transcript, rfl, rfl, ?_, ?_⟩
  · exact ⟨_, rfl, forall₂_writtenAs_toValue r.errors⟩
  · exact ⟨_, rfl, forall₂_writtenAs_toValue r.warnings⟩

def unclosed : Finding :=
  ⟨.unbalancedMarkup, "app", "uk", "a\u0000.\"b\"", "unclosed\r\n<b>", some "\u001b[0m 🎉\\", none⟩

def unexpected : Finding :=
  ⟨.extraVariable, "app", "uk", "c", "", some "", some "\t"⟩

/-- Control characters, quotes and a character beyond the first 65536 are read as they were. -/
theorem renderJson_lossless_control :
    let r : Report := ⟨[unexpected, unclosed]⟩
    let s : RunSummary := ⟨1, 2, 0, 18446744073709551615⟩
    r.Fits s ∧ ∃ v t, Json.parse (r.renderJson s) = .ok v ∧ Transcript.ofValue? v = some t ∧
      t.summary = s ∧ t.passed = false ∧ (Finding.Kind.extraVariable, 1) ∈ t.counts ∧
      t.errors = [unclosed] ∧ t.warnings = [unexpected] ∧
      Lists v "errors" [unclosed] ∧ Lists v "warnings" [unexpected] := by
  intro r s
  have hfits : r.Fits s := ⟨⟨by decide, by decide, by decide, by decide⟩, by decide⟩
  obtain ⟨v, t, hparse, hread, hsummary, hpassed, hcounts, herrors, hwarnings, hlisted⟩ :=
    renderJson_lossless hfits
  exact ⟨hfits, v, t, hparse, hread, hsummary, hpassed, (hcounts _ _).mpr (by decide), herrors,
    hwarnings, hlisted⟩

end Report

end LocaleAudit
