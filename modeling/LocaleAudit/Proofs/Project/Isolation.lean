import LocaleAudit.Proofs.Project.Gate

namespace LocaleAudit

/-!
# Documents do not disturb each other

What a check finds for a namespace and a language depends on the document of that language and on
the one of the default language, and on no other document.
-/

namespace Project

variable {p : Project} {files files' : Directory} {set set' : CatalogSet}
  {nameSpace language : String} {document : String × String}

/-- Two file trees have the same document: it holds the same catalog, or it cannot be loaded for the
same reason. -/
def SameDocument (p : Project) (files files' : Directory) (nameSpace language : String) : Prop :=
  p.store.load files language nameSpace = p.store.load files' language nameSpace

theorem SameDocument.of_readText
    (h : files.readText (p.store.pathFor language nameSpace) =
      files'.readText (p.store.pathFor language nameSpace)) :
    p.SameDocument files files' nameSpace language := by
  unfold SameDocument Store.load
  rw [h]

theorem SameDocument.failure?_eq (h : p.SameDocument files files' nameSpace language) :
    p.failure? files (nameSpace, language) = p.failure? files' (nameSpace, language) := by
  have hload : p.store.load files language nameSpace = p.store.load files' language nameSpace := h
  unfold failure?
  rw [hload]

/-! ## A document says nothing for another namespace and language -/

theorem filter_documentFindings_of_ne {scan : Option SourceScan}
    (hne : document ≠ (nameSpace, language)) :
    (p.documentFindings set scan document).filter (Finding.isAbout nameSpace language) = [] := by
  rw [List.filter_eq_nil_iff]
  intro f hf
  rw [Finding.isAbout_eq_false_of_ne (about_of_mem_documentFindings hf) hne]
  exact Bool.false_ne_true

theorem filter_failure?_of_ne (hne : document ≠ (nameSpace, language)) :
    (p.failure? files document).filter (Finding.isAbout nameSpace language) = none := by
  rw [Option.filter_eq_none_iff]
  intro f hf
  obtain ⟨_, hnameSpace, hlanguage⟩ := of_failure? hf
  rw [Finding.isAbout_eq_false_of_ne (Finding.isAbout_iff.mpr ⟨hnameSpace, hlanguage⟩) hne]
  exact Bool.false_ne_true

/-! ## Two projects -/

/-- Two file trees for one configuration, with the same languages and the same namespaces. -/
structure Alike (p : Project) (files files' : Directory) (set set' : CatalogSet) : Prop where
  loads : p.loadCatalogs files = .ok set
  loads' : p.loadCatalogs files' = .ok set'
  languages_eq : set.languages = set'.languages
  namespaces_eq : set.namespaces = set'.namespaces

namespace Alike

variable (h : p.Alike files files' set set')

include h

theorem defaultLanguage_eq : set.defaultLanguage = set'.defaultLanguage := by
  rw [CatalogSet.defaultLanguage, CatalogSet.defaultLanguage, h.languages_eq]

theorem unknownReports_eq (scan : Option SourceScan) :
    p.unknownReports set scan = p.unknownReports set' scan := by
  rw [unknownReports.eq_def, unknownReports.eq_def, h.languages_eq, h.namespaces_eq]

section

variable (hsame : (nameSpace, language) ∈ documents set.namespaces set.languages →
  p.SameDocument files files' nameSpace language)

include hsame

theorem get?_eq : set.get? language nameSpace = set'.get? language nameSpace := by
  apply Option.ext
  intro c
  rw [get?_eq_some_iff h.loads, get?_eq_some_iff h.loads', ← h.languages_eq, ← h.namespaces_eq]
  refine and_congr_right fun hlanguage => and_congr_right fun hnameSpace => ?_
  have hload : p.store.load files language nameSpace = p.store.load files' language nameSpace :=
    hsame (mem_documents.mpr ⟨hnameSpace, hlanguage⟩)
  rw [hload]

theorem about_failures_eq :
    set.failures.about nameSpace language = set'.failures.about nameSpace language := by
  rw [failures_eq h.loads, failures_eq h.loads', Report.about_ofList, Report.about_ofList,
    List.filter_filterMap, List.filter_filterMap, ← h.languages_eq, ← h.namespaces_eq]
  refine congrArg Report.ofList (List.filterMap_congr fun document hmem => ?_)
  by_cases hdocument : document = (nameSpace, language)
  · subst hdocument
    rw [(hsame hmem).failure?_eq]
  · rw [filter_failure?_of_ne hdocument, filter_failure?_of_ne hdocument]

variable (hdefault : (nameSpace, set.defaultLanguage) ∈ documents set.namespaces set.languages →
  p.SameDocument files files' nameSpace set.defaultLanguage)

include hdefault

theorem documentFindings_eq (scan : Option SourceScan) :
    p.documentFindings set scan (nameSpace, language) =
      p.documentFindings set' scan (nameSpace, language) := by
  rw [documentFindings, documentFindings, documentReports, documentReports, h.get?_eq hsame,
    h.get?_eq hdefault, h.defaultLanguage_eq]

theorem filter_documentFindings_eq (scan : Option SourceScan) (all : List (String × String)) :
    (all.flatMap (p.documentFindings set scan)).filter (Finding.isAbout nameSpace language) =
      (all.flatMap (p.documentFindings set' scan)).filter (Finding.isAbout nameSpace language) := by
  rw [List.filter_flatMap, List.filter_flatMap]
  congr 1
  funext document
  by_cases hdocument : document = (nameSpace, language)
  · rw [hdocument, h.documentFindings_eq hsame hdefault]
  · rw [filter_documentFindings_of_ne hdocument, filter_documentFindings_of_ne hdocument]

/-- All stages of a check agree on what they say for the namespace and the language. -/
theorem about_checkCatalogs_eq (scan : Option SourceScan) :
    (p.checkCatalogs set scan).about nameSpace language =
      (p.checkCatalogs set' scan).about nameSpace language := by
  have hfailures : set.failures.findings.filter (Finding.isAbout nameSpace language) =
      set'.failures.findings.filter (Finding.isAbout nameSpace language) :=
    congrArg Report.findings (h.about_failures_eq hsame)
  have hdocuments := h.filter_documentFindings_eq hsame hdefault scan
    (documents set.namespaces set.languages)
  rw [checkCatalogs_eq_ofList, checkCatalogs_eq_ofList, Report.about_ofList, Report.about_ofList,
    List.filter_append, List.filter_append, List.filter_append, List.filter_append, hfailures,
    hdocuments, h.unknownReports_eq, h.languages_eq, h.namespaces_eq]

end

end Alike

/-- The findings for a namespace and a language are the same list in two projects that have its
document and the default language's document in common. So a change to one document that is not of
the default language touches the findings of no other document. -/
theorem findings_isolated (p : Project) (files files' : Directory) (set set' : CatalogSet)
    (scan : Option SourceScan) (h : p.Alike files files' set set') :
    (∀ nameSpace language, p.SameDocument files files' nameSpace language →
      p.SameDocument files files' nameSpace set.defaultLanguage →
        (p.checkCatalogs set scan).about nameSpace language =
          (p.checkCatalogs set' scan).about nameSpace language) ∧
    ∀ changed : String × String, changed.2 ≠ set.defaultLanguage →
      (∀ document ∈ documents set.namespaces set.languages, document ≠ changed →
        p.SameDocument files files' document.1 document.2) →
      ∀ nameSpace language, (nameSpace, language) ≠ changed →
        (p.checkCatalogs set scan).about nameSpace language =
          (p.checkCatalogs set' scan).about nameSpace language := by
  constructor
  · intro nameSpace language hsame hdefault
    exact h.about_checkCatalogs_eq (fun _ => hsame) (fun _ => hdefault) scan
  · intro changed hchanged hothers nameSpace language hne
    have hdefault : (nameSpace, set.defaultLanguage) ≠ changed := by
      rintro rfl
      exact hchanged rfl
    exact h.about_checkCatalogs_eq (fun hmem => hothers (nameSpace, language) hmem hne)
      (fun hmem => hothers (nameSpace, set.defaultLanguage) hmem hdefault) scan

/-- The greetings without the second language's document. -/
def bareFiles : Directory :=
  [("locales", .directory
    [("de", .directory []),
      ("en", .directory [("app.json", .file "\x7b\"a\": \"Yes\"\x7d".toUTF8)])])]

def bareSet : CatalogSet :=
  ⟨["en", "de"], ["app"], [⟨"en", "app", [("a", .string "Yes")]⟩],
    .ofList [greetingProject.fileFinding "de" "app" (.io .notFound)]⟩

theorem same_default_document :
    greetingProject.SameDocument greetingFiles bareFiles "app" "en" := by
  have hpath : greetingProject.store.pathFor "en" "app" = "/locales/en/app.json" := by decide
  have htext : greetingFiles.readText "/locales/en/app.json" =
      .ok "\x7b\"a\": \"Yes\"\x7d" := by rfl
  have htext' : bareFiles.readText "/locales/en/app.json" =
      .ok "\x7b\"a\": \"Yes\"\x7d" := by rfl
  exact SameDocument.of_readText (by rw [hpath, htext, htext'])

theorem bare_namespaces : greetingProject.namespaces bareFiles = .ok ["app"] := by
  have hroot : Path.join greetingProject.store.root greetingProject.config.defaultLanguage =
      "/locales/en" := by decide
  have hsame : bareFiles.readDirectory "/locales/en" =
      greetingFiles.readDirectory "/locales/en" := by rfl
  have hnamespaces := greeting_namespaces
  unfold Project.namespaces Store.listNamespaces at hnamespaces ⊢
  rwa [hroot, hsame, ← hroot]

theorem bare_loadCatalogs : greetingProject.loadCatalogs bareFiles = .ok bareSet := by
  have hlanguages : greetingProject.languages bareFiles = .ok ["en", "de"] := by rfl
  have hsource : greetingProject.store.load bareFiles "en" "app" =
      .ok ⟨"en", "app", [("a", .string "Yes")]⟩ := by
    have hget : greetingSet.get? "en" "app" = some ⟨"en", "app", [("a", .string "Yes")]⟩ := by rfl
    exact same_default_document.symm.trans (load_of_get? greeting_loadCatalogs hget).2.2
  have htarget : greetingProject.store.load bareFiles "de" "app" = .error (.io .notFound) := by
    have hpath : greetingProject.store.pathFor "de" "app" = "/locales/de/app.json" := by decide
    have htext : bareFiles.readText "/locales/de/app.json" = .error .notFound := by rfl
    unfold Store.load
    rw [hpath, htext]
  rw [loadCatalogs_eq hlanguages bare_namespaces]
  simp only [documents, List.flatMap_cons, List.flatMap_nil, List.map_cons, List.map_nil,
    List.append_nil, List.filterMap_cons, List.filterMap_nil, hsource, htarget]
  rfl

/-- A key that source uses and no document has is still missing in the first language. -/
theorem findings_isolated_bare :
    greetingProject.Alike greetingFiles bareFiles greetingSet bareSet ∧
      (greetingProject.checkCatalogs greetingSet (some strayScan)).about "app" "en" =
        (greetingProject.checkCatalogs bareSet (some strayScan)).about "app" "en" := by
  have halike : greetingProject.Alike greetingFiles bareFiles greetingSet bareSet :=
    ⟨greeting_loadCatalogs, bare_loadCatalogs, rfl, rfl⟩
  refine ⟨halike, ?_⟩
  refine (findings_isolated _ _ _ _ _ _ halike).2 ("app", "de") (by decide) ?_ _ _ (by decide)
  intro document hmem hne
  have hdefault : document = ("app", "en") := by
    simpa [documents, greetingSet, hne] using hmem
  rw [hdefault]
  exact same_default_document

end Project

end LocaleAudit
