import LocaleAudit.Proofs.Difference
import LocaleAudit.Proofs.Project.Loading
import LocaleAudit.Proofs.Report.Projection
import LocaleAudit.Proofs.Validation

namespace LocaleAudit

/-!
# Where findings come from

A check merges what failed to load, the reports on each document, and the references into unknown
namespaces. Every report on a document names its namespace and its language.
-/

namespace Project

variable {p : Project} {files : Directory} {set : CatalogSet} {scan : Option SourceScan}
  {c : Catalog} {r : Report} {i : Finding.Identity}

/-- Every report that is made on a catalog, and when it is made. -/
theorem mem_catalogReports {defaultLanguage : String} {default : Option Catalog} :
    r ∈ p.catalogReports defaultLanguage default scan c ↔
      (c.language ≠ defaultLanguage ∧ ∃ d, default = some d ∧
        r = Difference.betweenCatalogs d c) ∨
      (p.config.checkReferences = true ∧ ∃ s, scan = some s ∧
        r = Difference.undefinedReferences s c) ∨
      (c.language = defaultLanguage ∧ p.config.reportUnused = true ∧ ∃ s, scan = some s ∧
        r = Difference.unusedKeys s c) ∨
      (c.language ≠ defaultLanguage ∧ r = Difference.untranslated c defaultLanguage p.marker) ∨
      r = Validation.validateCatalog c default := by
  by_cases hlanguage : c.language = defaultLanguage <;>
    by_cases hreferences : p.config.checkReferences = true <;>
    by_cases hunused : p.config.reportUnused = true <;>
    cases default <;> cases scan <;>
    simp [catalogReports, hlanguage, hreferences, hunused]

theorem about_of_mem_catalogReports {defaultLanguage : String} {default : Option Catalog}
    (hr : r ∈ p.catalogReports defaultLanguage default scan c) (hi : i ∈ r.seen) :
    i.nameSpace = c.nameSpace ∧ i.language = c.language := by
  rcases mem_catalogReports.mp hr with ⟨_, d, _, rfl⟩ | ⟨_, s, _, rfl⟩ | ⟨_, _, s, _, rfl⟩ |
    ⟨_, rfl⟩ | rfl
  · rcases Difference.mem_seen_betweenCatalogs.mp hi with ⟨path, _, _, rfl⟩ | ⟨path, _, _, rfl⟩
    · exact ⟨rfl, rfl⟩
    · exact ⟨rfl, rfl⟩
  · obtain ⟨key, _, _, _, rfl⟩ := Difference.mem_seen_undefinedReferences.mp hi
    exact ⟨rfl, rfl⟩
  · obtain ⟨path, _, _, rfl⟩ := Difference.mem_seen_unusedKeys.mp hi
    exact ⟨rfl, rfl⟩
  · obtain ⟨path, rfl⟩ := Difference.keyProblem_of_mem_untranslated hi
    exact ⟨rfl, rfl⟩
  · obtain ⟨hnameSpace, hlanguage, _⟩ := Validation.of_mem_seen_validateCatalog hi
    exact ⟨hnameSpace, hlanguage⟩

theorem mem_documentReports {nameSpace language : String} :
    r ∈ p.documentReports set scan nameSpace language ↔
      ∃ c, set.get? language nameSpace = some c ∧
        r ∈ p.catalogReports set.defaultLanguage (set.get? set.defaultLanguage nameSpace)
          scan c := by
  rw [documentReports]
  cases set.get? language nameSpace <;> simp

theorem about_of_mem_documentReports {nameSpace language : String}
    (hr : r ∈ p.documentReports set scan nameSpace language) (hi : i ∈ r.seen) :
    i.nameSpace = nameSpace ∧ i.language = language := by
  obtain ⟨c, hget, hreport⟩ := mem_documentReports.mp hr
  obtain ⟨_, rfl, rfl⟩ := CatalogSet.of_get? hget
  exact about_of_mem_catalogReports hreport hi

/-! ## A whole check -/

/-- The report on references into namespaces without a catalog, when it is made. -/
def unknownReports (p : Project) (set : CatalogSet) (scan : Option SourceScan) : List Report :=
  match scan with
  | some scan =>
    if p.config.checkReferences then
      [Difference.unknownNamespaces scan set.namespaces set.languages]
    else []
  | none => []

theorem mem_unknownReports :
    r ∈ p.unknownReports set scan ↔ p.config.checkReferences = true ∧ ∃ s, scan = some s ∧
      r = Difference.unknownNamespaces s set.namespaces set.languages := by
  by_cases hreferences : p.config.checkReferences = true <;> cases scan <;>
    simp [unknownReports, hreferences]

/-- All reports of a check, in the order in which they are merged. -/
def reports (p : Project) (set : CatalogSet) (scan : Option SourceScan) : List Report :=
  set.failures :: ((documents set.namespaces set.languages).flatMap fun (nameSpace, language) =>
    p.documentReports set scan nameSpace language) ++ p.unknownReports set scan

theorem checkCatalogs_eq (p : Project) (set : CatalogSet) (scan : Option SourceScan) :
    p.checkCatalogs set scan = (p.reports set scan).foldl Report.merge Report.empty :=
  rfl

theorem exists_mem_reports_iff {q : Report → Prop} :
    (∃ r ∈ p.reports set scan, q r) ↔ q set.failures ∨
      (∃ nameSpace ∈ set.namespaces, ∃ language ∈ set.languages,
        ∃ r ∈ p.documentReports set scan nameSpace language, q r) ∨
      ∃ r ∈ p.unknownReports set scan, q r := by
  simp only [reports, List.cons_append, List.mem_cons, List.mem_append, or_and_right, exists_or,
    exists_eq_left]
  refine or_congr Iff.rfl (or_congr ?_ Iff.rfl)
  simp only [List.mem_flatMap]
  constructor
  · rintro ⟨r, ⟨⟨nameSpace, language⟩, hmem, hr⟩, hq⟩
    obtain ⟨hnameSpace, hlanguage⟩ := mem_documents.mp hmem
    exact ⟨nameSpace, hnameSpace, language, hlanguage, r, hr, hq⟩
  · rintro ⟨nameSpace, hnameSpace, language, hlanguage, r, hr, hq⟩
    exact ⟨r, ⟨(nameSpace, language), mem_documents.mpr ⟨hnameSpace, hlanguage⟩, hr⟩, hq⟩

/-- The findings on a document, before repeated ones are dropped. -/
def documentFindings (p : Project) (set : CatalogSet) (scan : Option SourceScan)
    (document : String × String) : List Finding :=
  (p.documentReports set scan document.1 document.2).flatMap Report.findings

theorem checkCatalogs_eq_ofList (p : Project) (set : CatalogSet) (scan : Option SourceScan) :
    p.checkCatalogs set scan = Report.ofList (set.failures.findings ++
      (documents set.namespaces set.languages).flatMap (p.documentFindings set scan) ++
        (p.unknownReports set scan).flatMap Report.findings) := by
  rw [checkCatalogs_eq, reports, Report.foldl_merge_eq_pushAll, List.cons_append, List.flatMap_cons,
    List.flatMap_append, List.flatMap_assoc, List.append_assoc]
  rfl

theorem about_of_mem_documentFindings {document : String × String} {f : Finding}
    (hf : f ∈ p.documentFindings set scan document) :
    f.isAbout document.1 document.2 = true := by
  obtain ⟨r, hr, hf⟩ := List.mem_flatMap.mp hf
  exact Finding.isAbout_iff.mpr (about_of_mem_documentReports hr (List.mem_map_of_mem hf))

theorem mem_seen_checkCatalogs :
    i ∈ (p.checkCatalogs set scan).seen ↔ i ∈ set.failures.seen ∨
      (∃ nameSpace ∈ set.namespaces, ∃ language ∈ set.languages,
        ∃ r ∈ p.documentReports set scan nameSpace language, i ∈ r.seen) ∨
      ∃ r ∈ p.unknownReports set scan, i ∈ r.seen := by
  have hempty : i ∉ Report.empty.seen := List.not_mem_nil
  rw [checkCatalogs_eq, Report.mem_seen_foldl_merge, or_iff_right hempty, exists_mem_reports_iff]

theorem nodup_seen_checkCatalogs (p : Project) (set : CatalogSet) (scan : Option SourceScan) :
    (p.checkCatalogs set scan).seen.Nodup := by
  rw [checkCatalogs_eq_ofList]
  exact Report.nodup_seen_ofList _

theorem kind_of_mem_failures (h : p.loadCatalogs files = .ok set) (hi : i ∈ set.failures.seen) :
    i.kind = .fileError := by
  rw [failures_eq h, Report.mem_seen_ofList] at hi
  obtain ⟨f, hf, rfl⟩ := hi
  obtain ⟨document, _, hfailure⟩ := List.mem_filterMap.mp hf
  exact (of_failure? hfailure).1

end Project

end LocaleAudit
