import LocaleAudit.Project
import LocaleAudit.Proofs.Catalog.Documents
import LocaleAudit.Proofs.Config
import LocaleAudit.Proofs.Report.Deduplication

namespace LocaleAudit

/-!
# Loaded catalogs

A set of catalogs answers for a language and a namespace with what the store read there, and it has
a failure for every document that the store could not read.
-/

namespace Project

theorem mem_documents {namespaces languages : List String} {nameSpace language : String} :
    (nameSpace, language) ∈ documents namespaces languages ↔
      nameSpace ∈ namespaces ∧ language ∈ languages := by
  simp [documents]

theorem candidates_of_languages {p : Project} {files : Directory} {languages : List String}
    (h : p.languages files = .ok languages) :
    ∃ names, p.candidateLanguages files = .ok names ∧
      languages = p.config.defaultLanguage :: names.filter (· != p.config.defaultLanguage) := by
  rw [Project.languages] at h
  cases hnames : p.candidateLanguages files with
  | error e =>
    rw [hnames] at h
    cases h
  | ok names =>
    rw [hnames] at h
    cases h
    exact ⟨names, rfl, rfl⟩

theorem languages_eq {p : Project} {files : Directory} {languages : List String}
    (h : p.languages files = .ok languages) :
    ∃ others, languages = p.config.defaultLanguage :: others := by
  obtain ⟨names, _, heq⟩ := candidates_of_languages h
  exact ⟨_, heq⟩

theorem namespaces_eq {p : Project} {files : Directory} {names : List String}
    (h : p.store.listNamespaces files p.config.defaultLanguage = .ok names) :
    p.namespaces files = .ok names := by
  unfold Project.namespaces
  split
  · rename_i names' hnames
    rw [h] at hnames
    cases hnames
    rfl
  · rename_i fault hfault
    rw [h] at hfault
    cases hfault

end Project

theorem Store.load_of_readText {s : Store} {files : Directory} {language nameSpace text : String}
    (h : files.readText (s.pathFor language nameSpace) = .ok text) :
    s.load files language nameSpace = Catalog.parse language nameSpace text := by
  unfold Store.load
  split
  · rename_i text' htext
    rw [h] at htext
    cases htext
    rfl
  · rename_i fault hfault
    rw [h] at hfault
    cases hfault

theorem Store.load_eq {s : Store} {files : Directory} {language nameSpace : String} {c : Catalog}
    (h : s.load files language nameSpace = .ok c) :
    c.language = language ∧ c.nameSpace = nameSpace ∧ c.Parsed := by
  unfold Store.load at h
  split at h
  · obtain ⟨hlanguage, hnameSpace, _⟩ := Catalog.wellFormed_of_parse h
    exact ⟨hlanguage, hnameSpace, Catalog.parsed_of_parse h⟩
  · cases h

theorem CatalogSet.of_get? {set : CatalogSet} {language nameSpace : String} {c : Catalog}
    (h : set.get? language nameSpace = some c) :
    c ∈ set.loaded ∧ c.language = language ∧ c.nameSpace = nameSpace := by
  rw [CatalogSet.get?] at h
  have hname := List.find?_some h
  rw [Bool.and_eq_true, beq_iff_eq, beq_iff_eq] at hname
  exact ⟨List.mem_of_find?_eq_some h, hname⟩

namespace Project

variable {p : Project} {files : Directory} {set : CatalogSet}

theorem loadCatalogs_eq {languages namespaces : List String}
    (hlanguages : p.languages files = .ok languages)
    (hnamespaces : p.namespaces files = .ok namespaces) :
    p.loadCatalogs files = .ok
      { languages, namespaces
        loaded := (documents namespaces languages).filterMap fun (nameSpace, language) =>
          (p.store.load files language nameSpace).toOption
        failures := Report.ofList <| (documents namespaces languages).filterMap
          fun (nameSpace, language) =>
            match p.store.load files language nameSpace with
            | .ok _ => none
            | .error e => some (p.fileFinding language nameSpace e) } := by
  rw [loadCatalogs, hlanguages, hnamespaces]
  simp only [bind, Except.bind, List.filterMap_map]
  rfl

theorem of_loadCatalogs (h : p.loadCatalogs files = .ok set) :
    p.languages files = .ok set.languages ∧
      set.loaded = (documents set.namespaces set.languages).filterMap (fun (nameSpace, language) =>
        (p.store.load files language nameSpace).toOption) ∧
      set.failures = Report.ofList ((documents set.namespaces set.languages).filterMap
        fun (nameSpace, language) =>
          match p.store.load files language nameSpace with
          | .ok _ => none
          | .error e => some (p.fileFinding language nameSpace e)) := by
  obtain ⟨languages, hlanguages, hrest⟩ := Config.bind_eq_ok_iff.mp h
  obtain ⟨namespaces, hnamespaces, _⟩ := Config.bind_eq_ok_iff.mp hrest
  rw [loadCatalogs_eq hlanguages hnamespaces] at h
  cases h
  exact ⟨hlanguages, rfl, rfl⟩

theorem namespaces_of_loadCatalogs (h : p.loadCatalogs files = .ok set) :
    p.namespaces files = .ok set.namespaces := by
  obtain ⟨languages, hlanguages, hrest⟩ := Config.bind_eq_ok_iff.mp h
  obtain ⟨namespaces, hnamespaces, _⟩ := Config.bind_eq_ok_iff.mp hrest
  rw [loadCatalogs_eq hlanguages hnamespaces] at h
  cases h
  exact hnamespaces

theorem mem_loaded_iff (h : p.loadCatalogs files = .ok set) {c : Catalog} :
    c ∈ set.loaded ↔ ∃ nameSpace ∈ set.namespaces, ∃ language ∈ set.languages,
      p.store.load files language nameSpace = .ok c := by
  rw [(of_loadCatalogs h).2.1, List.mem_filterMap]
  constructor
  · rintro ⟨⟨nameSpace, language⟩, hmem, hresult⟩
    obtain ⟨hnameSpace, hlanguage⟩ := mem_documents.mp hmem
    refine ⟨nameSpace, hnameSpace, language, hlanguage, ?_⟩
    cases hload : p.store.load files language nameSpace with
    | ok c' =>
      simp only [hload] at hresult
      exact congrArg Except.ok (Option.some.inj hresult)
    | error e =>
      simp only [hload] at hresult
      cases hresult
  · rintro ⟨nameSpace, hnameSpace, language, hlanguage, hload⟩
    refine ⟨(nameSpace, language), mem_documents.mpr ⟨hnameSpace, hlanguage⟩, ?_⟩
    simp only [hload]
    rfl

theorem load_of_get? (h : p.loadCatalogs files = .ok set) {language nameSpace : String}
    {c : Catalog} (hget : set.get? language nameSpace = some c) :
    language ∈ set.languages ∧ nameSpace ∈ set.namespaces ∧
      p.store.load files language nameSpace = .ok c := by
  obtain ⟨hmem, rfl, rfl⟩ := CatalogSet.of_get? hget
  obtain ⟨nameSpace, hnameSpace, language, hlanguage, hload⟩ := (mem_loaded_iff h).mp hmem
  obtain ⟨rfl, rfl, _⟩ := Store.load_eq hload
  exact ⟨hlanguage, hnameSpace, hload⟩

theorem get?_of_load (h : p.loadCatalogs files = .ok set) {language nameSpace : String}
    {c : Catalog} (hlanguage : language ∈ set.languages) (hnameSpace : nameSpace ∈ set.namespaces)
    (hload : p.store.load files language nameSpace = .ok c) :
    set.get? language nameSpace = some c := by
  have hmem : c ∈ set.loaded :=
    (mem_loaded_iff h).mpr ⟨nameSpace, hnameSpace, language, hlanguage, hload⟩
  cases hget : set.get? language nameSpace with
  | none =>
    obtain ⟨rfl, rfl, _⟩ := Store.load_eq hload
    have hnone := List.find?_eq_none.mp hget c hmem
    simp at hnone
  | some c' =>
    have hload' := (load_of_get? h hget).2.2
    rw [hload] at hload'
    cases hload'
    rfl

theorem get?_eq_some_iff (h : p.loadCatalogs files = .ok set) {language nameSpace : String}
    {c : Catalog} : set.get? language nameSpace = some c ↔
      language ∈ set.languages ∧ nameSpace ∈ set.namespaces ∧
        p.store.load files language nameSpace = .ok c := by
  constructor
  · exact load_of_get? h
  · rintro ⟨hlanguage, hnameSpace, hload⟩
    exact get?_of_load h hlanguage hnameSpace hload

theorem get?_iff_mem (h : p.loadCatalogs files = .ok set) {language nameSpace : String}
    {c : Catalog} : set.get? language nameSpace = some c ↔
      c ∈ set.loaded ∧ c.language = language ∧ c.nameSpace = nameSpace := by
  constructor
  · exact CatalogSet.of_get?
  · rintro ⟨hmem, rfl, rfl⟩
    obtain ⟨nameSpace, hnameSpace, language, hlanguage, hload⟩ := (mem_loaded_iff h).mp hmem
    obtain ⟨rfl, rfl, _⟩ := Store.load_eq hload
    exact get?_of_load h hlanguage hnameSpace hload

/-- A loaded catalog is of the set's languages and namespaces, and some document spells it. -/
theorem of_mem_loaded (h : p.loadCatalogs files = .ok set) {c : Catalog} (hc : c ∈ set.loaded) :
    c.language ∈ set.languages ∧ c.nameSpace ∈ set.namespaces ∧ c.Parsed := by
  obtain ⟨nameSpace, hnameSpace, language, hlanguage, hload⟩ := (mem_loaded_iff h).mp hc
  obtain ⟨rfl, rfl, hparsed⟩ := Store.load_eq hload
  exact ⟨hlanguage, hnameSpace, hparsed⟩

theorem get?_eq_none_iff (h : p.loadCatalogs files = .ok set) {language nameSpace : String}
    (hlanguage : language ∈ set.languages) (hnameSpace : nameSpace ∈ set.namespaces) :
    set.get? language nameSpace = none ↔
      ∃ e, p.store.load files language nameSpace = .error e := by
  cases hload : p.store.load files language nameSpace with
  | ok c => simp [get?_of_load h hlanguage hnameSpace hload]
  | error e =>
    refine iff_of_true ?_ ⟨e, rfl⟩
    rw [Option.eq_none_iff_forall_ne_some]
    intro c hget
    have hload' := (load_of_get? h hget).2.2
    rw [hload] at hload'
    cases hload'

/-! ## Failures -/

/-- The finding for a document that cannot be loaded. -/
def failure? (p : Project) (files : Directory) (document : String × String) : Option Finding :=
  match p.store.load files document.2 document.1 with
  | .ok _ => none
  | .error e => some (p.fileFinding document.2 document.1 e)

theorem failure?_of_ok {document : String × String} {c : Catalog}
    (h : p.store.load files document.2 document.1 = .ok c) : p.failure? files document = none := by
  unfold failure?
  rw [h]

theorem failure?_of_error {document : String × String} {e : Error}
    (h : p.store.load files document.2 document.1 = .error e) :
    p.failure? files document = some (p.fileFinding document.2 document.1 e) := by
  unfold failure?
  rw [h]

theorem failure?_eq_some_iff {document : String × String} {f : Finding} :
    p.failure? files document = some f ↔ ∃ e, p.store.load files document.2 document.1 = .error e ∧
      f = p.fileFinding document.2 document.1 e := by
  cases hload : p.store.load files document.2 document.1 with
  | ok c => simp [failure?_of_ok hload]
  | error e => simp [failure?_of_error hload, eq_comm]

theorem failures_eq (h : p.loadCatalogs files = .ok set) :
    set.failures =
      Report.ofList ((documents set.namespaces set.languages).filterMap (p.failure? files)) :=
  (of_loadCatalogs h).2.2

theorem of_failure? {document : String × String} {f : Finding}
    (h : p.failure? files document = some f) :
    f.kind = .fileError ∧ f.nameSpace = document.1 ∧ f.language = document.2 := by
  obtain ⟨e, _, rfl⟩ := failure?_eq_some_iff.mp h
  exact ⟨rfl, rfl, rfl⟩

theorem failures_hasErrors (h : p.loadCatalogs files = .ok set) :
    set.failures.hasErrors = true ↔ ∃ nameSpace ∈ set.namespaces, ∃ language ∈ set.languages,
      set.get? language nameSpace = none := by
  rw [failures_eq h, Report.hasErrors_ofList]
  constructor
  · rintro ⟨f, hf, _⟩
    obtain ⟨⟨nameSpace, language⟩, hmem, hfailure⟩ := List.mem_filterMap.mp hf
    obtain ⟨hnameSpace, hlanguage⟩ := mem_documents.mp hmem
    obtain ⟨e, hload, _⟩ := failure?_eq_some_iff.mp hfailure
    refine ⟨nameSpace, hnameSpace, language, hlanguage, ?_⟩
    exact (get?_eq_none_iff h hlanguage hnameSpace).mpr ⟨e, hload⟩
  · rintro ⟨nameSpace, hnameSpace, language, hlanguage, hget⟩
    obtain ⟨e, hload⟩ := (get?_eq_none_iff h hlanguage hnameSpace).mp hget
    refine ⟨p.fileFinding language nameSpace e, List.mem_filterMap.mpr ?_, rfl⟩
    exact ⟨(nameSpace, language), mem_documents.mpr ⟨hnameSpace, hlanguage⟩,
      failure?_of_error hload⟩

/-! ## The default language -/

theorem default_first (h : p.loadCatalogs files = .ok set) :
    ∃ others, set.languages = set.defaultLanguage :: others := by
  obtain ⟨others, hothers⟩ := languages_eq (of_loadCatalogs h).1
  exact ⟨others, by rw [CatalogSet.defaultLanguage, hothers, List.headD_cons]⟩

theorem defaultLanguage_mem (h : p.loadCatalogs files = .ok set) :
    set.defaultLanguage ∈ set.languages := by
  obtain ⟨others, hothers⟩ := default_first h
  rw [hothers]
  exact List.mem_cons_self

end Project

end LocaleAudit
