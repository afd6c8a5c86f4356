import LocaleAudit.Proofs.Project.Findings

namespace LocaleAudit

/-!
# The gate

A check ends with 0 exactly when every document is there, no language lacks a key, source uses only
keys that exist, and no text lacks a variable or leaves a tag open.
-/

open Json (Value)

namespace Project

/-- An error in one catalog, held against the default language's catalog of its namespace. -/
inductive Fault (p : Project) (scan : Option SourceScan) (d c : Catalog) : Prop where
  | missingKey {path : String} (hlanguage : c.language ≠ d.language) (hpath : path ∈ d.leafPaths)
      (hnot : path ∉ c.leafPaths)
  | undefinedKey {s : SourceScan} {key : ResolvedKey} (hcheck : p.config.checkReferences = true)
      (hscan : scan = some s) (hkey : key ∈ s.keys) (hname : key.nameSpace = c.nameSpace)
      (hnot : key.path ∉ c.leafPaths)
  | missingVariable {path defaultText text name : String} (hlanguage : c.language ≠ d.language)
      (hdefault : (path, .string defaultText) ∈ d.leaves) (htext : (path, .string text) ∈ c.leaves)
      (hname : name ∈ Interpolation.variableNames defaultText)
      (hnot : name ∉ Interpolation.variableNames text)
  | unbalancedMarkup {path text : String} (htext : (path, .string text) ∈ c.leaves)
      (hcheck : Markup.check text ≠ .ok ())

variable {p : Project} {scan : Option SourceScan} {c d : Catalog}

theorem fault_of_validateCatalog (hd : d.tree.WellFormed)
    (h : (Validation.validateCatalog c (some d)).hasErrors = true) : Fault p scan d c := by
  obtain ⟨⟨path, value⟩, hl, hfault⟩ := Validation.validateCatalog_hasErrors.mp h
  rcases hfault with ⟨text, rfl, hcheck⟩ | ⟨defaultText, text, hdefault, rfl, name, hname, hnot⟩
  · exact .unbalancedMarkup hl hcheck
  · obtain ⟨hlanguage, hdefault⟩ := (Validation.reference?_eq_string_iff hd).mp hdefault
    exact .missingVariable hlanguage hdefault hl hname hnot

/-- The reports on a catalog have an error exactly when it has a fault: unused keys and markers
that are still there are only warnings. -/
theorem catalogReports_hasErrors_iff (hd : d.tree.WellFormed) :
    (∃ r ∈ p.catalogReports d.language (some d) scan c, r.hasErrors = true) ↔
      Fault p scan d c := by
  constructor
  · rintro ⟨r, hr, herrors⟩
    rcases mem_catalogReports.mp hr with ⟨hlanguage, d', hd', rfl⟩ | ⟨hcheck, s, hscan, rfl⟩ |
      ⟨_, _, s, _, rfl⟩ | ⟨_, rfl⟩ | rfl
    · cases hd'
      obtain ⟨path, hpath, hnot⟩ := Difference.betweenCatalogs_hasErrors.mp herrors
      exact .missingKey hlanguage hpath hnot
    · obtain ⟨key, hkey, hname, hnot⟩ := Difference.undefinedReferences_hasErrors.mp herrors
      exact .undefinedKey hcheck hscan hkey hname hnot
    · rw [Difference.unusedKeys_hasErrors] at herrors
      cases herrors
    · rw [Difference.untranslated_hasErrors] at herrors
      cases herrors
    · exact fault_of_validateCatalog hd herrors
  · intro hfault
    cases hfault with
    | missingKey hlanguage hpath hnot =>
      refine ⟨_, mem_catalogReports.mpr (Or.inl ⟨hlanguage, d, rfl, rfl⟩), ?_⟩
      exact Difference.betweenCatalogs_hasErrors.mpr ⟨_, hpath, hnot⟩
    | undefinedKey hcheck hscan hkey hname hnot =>
      refine ⟨_, mem_catalogReports.mpr (Or.inr (Or.inl ⟨hcheck, _, hscan, rfl⟩)), ?_⟩
      exact Difference.undefinedReferences_hasErrors.mpr ⟨_, hkey, hname, hnot⟩
    | missingVariable hlanguage hdefault htext hname hnot =>
      refine ⟨Validation.validateCatalog c (some d), mem_catalogReports.mpr (by simp), ?_⟩
      refine Validation.validateCatalog_hasErrors.mpr ⟨_, htext, Or.inr ?_⟩
      have hreference := (Validation.reference?_eq_string_iff hd).mpr ⟨hlanguage, hdefault⟩
      exact ⟨_, _, hreference, rfl, _, hname, hnot⟩
    | unbalancedMarkup htext hcheck =>
      refine ⟨Validation.validateCatalog c (some d), mem_catalogReports.mpr (by simp), ?_⟩
      exact Validation.validateCatalog_hasErrors.mpr ⟨_, htext, Or.inl ⟨_, rfl, hcheck⟩⟩

/-! ## A whole set -/

variable {files : Directory} {set : CatalogSet}

theorem documentReports_eq {nameSpace language : String}
    (hc : set.get? language nameSpace = some c)
    (hd : set.get? set.defaultLanguage nameSpace = some d) :
    p.documentReports set scan nameSpace language =
      p.catalogReports d.language (some d) scan c := by
  rw [documentReports, hc, hd, (CatalogSet.of_get? hd).2.1]

theorem checkCatalogs_hasErrors (hlanguages : set.languages ≠ []) :
    (p.checkCatalogs set scan).hasErrors = true ↔ set.failures.hasErrors = true ∨
      (∃ nameSpace ∈ set.namespaces, ∃ language ∈ set.languages,
        ∃ r ∈ p.documentReports set scan nameSpace language, r.hasErrors = true) ∨
      (p.config.checkReferences = true ∧ ∃ s, scan = some s ∧
        ∃ key ∈ s.keys, key.nameSpace ∉ set.namespaces) := by
  have hempty : ¬Report.empty.hasErrors = true := by decide
  rw [checkCatalogs_eq, Report.hasErrors_foldl_merge, or_iff_right hempty, exists_mem_reports_iff]
  refine or_congr Iff.rfl (or_congr Iff.rfl ?_)
  constructor
  · rintro ⟨r, hr, herrors⟩
    obtain ⟨hcheck, s, hscan, rfl⟩ := mem_unknownReports.mp hr
    exact ⟨hcheck, s, hscan, (Difference.unknownNamespaces_hasErrors hlanguages).mp herrors⟩
  · rintro ⟨hcheck, s, hscan, hunknown⟩
    refine ⟨_, mem_unknownReports.mpr ⟨hcheck, s, hscan, rfl⟩, ?_⟩
    exact (Difference.unknownNamespaces_hasErrors hlanguages).mpr hunknown

/-- Where errors come from: a document that is not there, a fault in a loaded catalog, or a key of
an unknown namespace. -/
theorem checkCatalogs_hasErrors_iff_fault (h : p.loadCatalogs files = .ok set) :
    (p.checkCatalogs set scan).hasErrors = true ↔
      (∃ nameSpace ∈ set.namespaces, ∃ language ∈ set.languages,
        set.get? language nameSpace = none) ∨
      (∃ d ∈ set.loaded, ∃ c ∈ set.loaded, d.language = set.defaultLanguage ∧
        c.nameSpace = d.nameSpace ∧ Fault p scan d c) ∨
      (p.config.checkReferences = true ∧ ∃ s, scan = some s ∧
        ∃ key ∈ s.keys, key.nameSpace ∉ set.namespaces) := by
  have hdefault := defaultLanguage_mem h
  rw [checkCatalogs_hasErrors (List.ne_nil_of_mem hdefault), failures_hasErrors h]
  constructor
  · rintro (hmissing | ⟨nameSpace, hnameSpace, language, hlanguage, r, hr, herrors⟩ | hunknown)
    · exact Or.inl hmissing
    · cases hc : set.get? language nameSpace with
      | none => exact Or.inl ⟨nameSpace, hnameSpace, language, hlanguage, hc⟩
      | some c =>
        cases hd : set.get? set.defaultLanguage nameSpace with
        -- Without a default catalog nothing is held against `c`, but then that document is missing.
        | none => exact Or.inl ⟨nameSpace, hnameSpace, _, hdefault, hd⟩
        | some d =>
          rw [documentReports_eq hc hd] at hr
          obtain ⟨hcmem, _, hcname⟩ := CatalogSet.of_get? hc
          obtain ⟨hdmem, hdlanguage, hdname⟩ := CatalogSet.of_get? hd
          have hwellFormed := (of_mem_loaded h hdmem).2.2.wellFormed
          have hfault := (catalogReports_hasErrors_iff hwellFormed).mp ⟨r, hr, herrors⟩
          exact Or.inr (Or.inl
            ⟨d, hdmem, c, hcmem, hdlanguage, hcname.trans hdname.symm, hfault⟩)
    · exact Or.inr (Or.inr hunknown)
  · rintro (hmissing | ⟨d, hd, c, hc, hdlanguage, hname, hfault⟩ | hunknown)
    · exact Or.inl hmissing
    · right
      left
      obtain ⟨hlanguage, hnameSpace, _⟩ := of_mem_loaded h hc
      have hwellFormed := (of_mem_loaded h hd).2.2.wellFormed
      obtain ⟨r, hr, herrors⟩ := (catalogReports_hasErrors_iff hwellFormed).mpr hfault
      refine ⟨c.nameSpace, hnameSpace, c.language, hlanguage, r, ?_, herrors⟩
      have hgetc : set.get? c.language c.nameSpace = some c := (get?_iff_mem h).mpr ⟨hc, rfl, rfl⟩
      have hgetd : set.get? set.defaultLanguage c.nameSpace = some d :=
        (get?_iff_mem h).mpr ⟨hd, hdlanguage, hname.symm⟩
      rwa [documentReports_eq hgetc hgetd]
    · exact Or.inr (Or.inr hunknown)

/-- What a set of catalogs and a scan are like when nothing is wrong. -/
structure Passes (p : Project) (set : CatalogSet) (scan : Option SourceScan) : Prop where
  loaded : ∀ nameSpace ∈ set.namespaces, ∀ language ∈ set.languages,
    ∃ c ∈ set.loaded, c.language = language ∧ c.nameSpace = nameSpace
  complete : ∀ d ∈ set.loaded, ∀ c ∈ set.loaded, d.language = set.defaultLanguage →
    c.language ≠ set.defaultLanguage → c.nameSpace = d.nameSpace →
      ∀ path ∈ d.leafPaths, path ∈ c.leafPaths
  referenced : p.config.checkReferences = true → ∀ s, scan = some s → ∀ key ∈ s.keys,
    key.nameSpace ∈ set.namespaces ∧
      ∀ c ∈ set.loaded, c.nameSpace = key.nameSpace → key.path ∈ c.leafPaths
  interpolated : ∀ d ∈ set.loaded, ∀ c ∈ set.loaded, d.language = set.defaultLanguage →
    c.language ≠ set.defaultLanguage → c.nameSpace = d.nameSpace →
      ∀ path defaultText text, (path, .string defaultText) ∈ d.leaves →
        (path, .string text) ∈ c.leaves →
          ∀ name ∈ Interpolation.variableNames defaultText, name ∈ Interpolation.variableNames text
  balanced : ∀ c ∈ set.loaded, ∀ path text, (path, .string text) ∈ c.leaves →
    Markup.check text = .ok ()

theorem Passes.no_fault (h : p.Passes set scan) (hd : d ∈ set.loaded) (hc : c ∈ set.loaded)
    (hdefault : d.language = set.defaultLanguage) (hname : c.nameSpace = d.nameSpace) :
    ¬Fault p scan d c := by
  intro hfault
  cases hfault with
  | missingKey hlanguage hpath hnot =>
    exact hnot (h.complete d hd c hc hdefault (hdefault ▸ hlanguage) hname _ hpath)
  | undefinedKey hcheck hscan hkey hnameSpace hnot =>
    exact hnot ((h.referenced hcheck _ hscan _ hkey).2 c hc hnameSpace.symm)
  | missingVariable hlanguage hdefaultText htext hmem hnot =>
    exact hnot (h.interpolated d hd c hc hdefault (hdefault ▸ hlanguage) hname _ _ _
      hdefaultText htext _ hmem)
  | unbalancedMarkup htext hcheck => exact hcheck (h.balanced c hc _ _ htext)

theorem passes_of_no_fault (hset : p.loadCatalogs files = .ok set)
    (hloaded : ∀ nameSpace ∈ set.namespaces, ∀ language ∈ set.languages,
      ∃ c ∈ set.loaded, c.language = language ∧ c.nameSpace = nameSpace)
    (hknown : p.config.checkReferences = true → ∀ s, scan = some s → ∀ key ∈ s.keys,
      key.nameSpace ∈ set.namespaces)
    (hnofault : ∀ d ∈ set.loaded, ∀ c ∈ set.loaded, d.language = set.defaultLanguage →
      c.nameSpace = d.nameSpace → ¬Fault p scan d c) : p.Passes set scan := by
  have hdefault : ∀ c ∈ set.loaded, ∃ d ∈ set.loaded, d.language = set.defaultLanguage ∧
      c.nameSpace = d.nameSpace := by
    intro c hc
    obtain ⟨d, hd, hdlanguage, hname⟩ := hloaded c.nameSpace (of_mem_loaded hset hc).2.1
      set.defaultLanguage (defaultLanguage_mem hset)
    exact ⟨d, hd, hdlanguage, hname.symm⟩
  constructor
  · exact hloaded
  · intro d hd c hc hdlanguage hlanguage hname path hpath
    refine Classical.byContradiction fun hnot => ?_
    exact hnofault d hd c hc hdlanguage hname (.missingKey (hdlanguage ▸ hlanguage) hpath hnot)
  · intro hcheck s hscan key hkey
    refine ⟨hknown hcheck s hscan key hkey, ?_⟩
    intro c hc hnameSpace
    obtain ⟨d, hd, hdlanguage, hname⟩ := hdefault c hc
    refine Classical.byContradiction fun hnot => ?_
    exact hnofault d hd c hc hdlanguage hname
      (.undefinedKey hcheck hscan hkey hnameSpace.symm hnot)
  · intro d hd c hc hdlanguage hlanguage hname path defaultText text hdefaultText htext name hmem
    refine Classical.byContradiction fun hnot => ?_
    exact hnofault d hd c hc hdlanguage hname
      (.missingVariable (hdlanguage ▸ hlanguage) hdefaultText htext hmem hnot)
  · intro c hc path text htext
    obtain ⟨d, hd, hdlanguage, hname⟩ := hdefault c hc
    refine Classical.byContradiction fun hcheck => ?_
    exact hnofault d hd c hc hdlanguage hname (.unbalancedMarkup htext hcheck)

/-- The verdict on loaded catalogs. -/
theorem checkCatalogs_passes_iff (p : Project) (files : Directory) (set : CatalogSet)
    (scan : Option SourceScan) (h : p.loadCatalogs files = .ok set) :
    (p.checkCatalogs set scan).exitCode = 0 ↔ p.Passes set scan := by
  rw [Report.exitCode_eq_zero_iff, checkCatalogs_hasErrors_iff_fault h, not_or, not_or]
  constructor
  · rintro ⟨hmissing, hfault, hunknown⟩
    refine passes_of_no_fault h ?_ ?_ ?_
    · intro nameSpace hnameSpace language hlanguage
      cases hget : set.get? language nameSpace with
      | none => exact absurd ⟨nameSpace, hnameSpace, language, hlanguage, hget⟩ hmissing
      | some c => exact ⟨c, CatalogSet.of_get? hget⟩
    · intro hcheck s hscan key hkey
      refine Classical.byContradiction fun hnot => ?_
      exact hunknown ⟨hcheck, s, hscan, key, hkey, hnot⟩
    · intro d hd c hc hdefault hname hcd
      exact hfault ⟨d, hd, c, hc, hdefault, hname, hcd⟩
  · intro hpasses
    refine ⟨?_, ?_, ?_⟩
    · rintro ⟨nameSpace, hnameSpace, language, hlanguage, hget⟩
      obtain ⟨c, hc⟩ := hpasses.loaded nameSpace hnameSpace language hlanguage
      rw [(get?_iff_mem h).mpr hc] at hget
      cases hget
    · rintro ⟨d, hd, c, hc, hdefault, hname, hfault⟩
      exact hpasses.no_fault hd hc hdefault hname hfault
    · rintro ⟨hcheck, s, hscan, key, hkey, hnot⟩
      exact hnot (hpasses.referenced hcheck s hscan key hkey).1

def greetingFiles : Directory :=
  [("locales", .directory
    [("de", .directory [("app.json", .file "\x7b\"a\": \"Ja\"\x7d".toUTF8)]),
      ("en", .directory [("app.json", .file "\x7b\"a\": \"Yes\"\x7d".toUTF8)])])]

def greetingProject : Project :=
  ⟨{ languages := ["en", "de"] }, ⟨"/locales", "json"⟩, .standard, .default⟩

def greetingSet : CatalogSet :=
  ⟨["en", "de"], ["app"],
    [⟨"en", "app", [("a", .string "Yes")]⟩, ⟨"de", "app", [("a", .string "Ja")]⟩], .empty⟩

/-- Source that uses one key, and no document has it. -/
def strayScan : SourceScan :=
  ⟨[⟨"app", "b"⟩], 1, []⟩

theorem greeting_namespaces : greetingProject.namespaces greetingFiles = .ok ["app"] := by
  have hroot : Path.join greetingProject.store.root greetingProject.config.defaultLanguage =
      "/locales/en" := by decide
  have hdirectory : greetingFiles.readDirectory "/locales/en" =
      .ok [("app.json", .file "\x7b\"a\": \"Yes\"\x7d".toUTF8)] := by rfl
  have hname : [("app.json", Node.file "\x7b\"a\": \"Yes\"\x7d".toUTF8)].filterMap
      greetingProject.store.namespaceOf? = ["app"] := by rfl
  refine namespaces_eq ?_
  rw [Store.listNamespaces, hroot, hdirectory, Except.map, hname]
  simp [Store.sorted]

theorem greeting_loadCatalogs : greetingProject.loadCatalogs greetingFiles = .ok greetingSet := by
  have hlanguages : greetingProject.languages greetingFiles = .ok ["en", "de"] := by rfl
  have hsource : greetingProject.store.load greetingFiles "en" "app" =
      .ok ⟨"en", "app", [("a", .string "Yes")]⟩ := by
    have hpath : greetingProject.store.pathFor "en" "app" = "/locales/en/app.json" := by decide
    have htext : greetingFiles.readText "/locales/en/app.json" =
        .ok "\x7b\"a\": \"Yes\"\x7d" := by rfl
    have hparse : Catalog.parse "en" "app" "\x7b\"a\": \"Yes\"\x7d" =
        .ok ⟨"en", "app", [("a", .string "Yes")]⟩ := by decide +kernel
    rw [← hpath] at htext
    exact (Store.load_of_readText htext).trans hparse
  have htarget : greetingProject.store.load greetingFiles "de" "app" =
      .ok ⟨"de", "app", [("a", .string "Ja")]⟩ := by
    have hpath : greetingProject.store.pathFor "de" "app" = "/locales/de/app.json" := by decide
    have htext : greetingFiles.readText "/locales/de/app.json" =
        .ok "\x7b\"a\": \"Ja\"\x7d" := by rfl
    have hparse : Catalog.parse "de" "app" "\x7b\"a\": \"Ja\"\x7d" =
        .ok ⟨"de", "app", [("a", .string "Ja")]⟩ := by decide +kernel
    rw [← hpath] at htext
    exact (Store.load_of_readText htext).trans hparse
  rw [loadCatalogs_eq hlanguages greeting_namespaces]
  simp only [documents, List.flatMap_cons, List.flatMap_nil, List.map_cons, List.map_nil,
    List.append_nil, List.filterMap_cons, List.filterMap_nil, hsource, htarget]
  rfl

/-- Two languages with one text each, and source that uses its key. -/
theorem checkCatalogs_passes_greeting :
    greetingProject.loadCatalogs greetingFiles = .ok greetingSet ∧
      greetingProject.Passes greetingSet (some ⟨[⟨"app", "a"⟩], 1, []⟩) := by
  refine ⟨greeting_loadCatalogs, ?_⟩
  exact (checkCatalogs_passes_iff _ _ _ _ greeting_loadCatalogs).mp (by decide)

end Project

end LocaleAudit
