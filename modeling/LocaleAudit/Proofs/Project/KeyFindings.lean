import LocaleAudit.Proofs.Project.Gate

namespace LocaleAudit

/-!
# Exactness of key findings

A missing or an extra key is reported exactly when there is a reason to, and once, however many of
the checks come upon it.
-/

namespace Project

/-- Why a path is reported for a namespace and a language, by the kind of the finding. -/
inductive KeyFault (p : Project) (set : CatalogSet) (scan : Option SourceScan)
    (nameSpace language path : String) : Finding.Kind → Prop where
  | lacking {d c : Catalog} (hlanguage : language ≠ set.defaultLanguage)
      (hd : set.get? set.defaultLanguage nameSpace = some d)
      (hc : set.get? language nameSpace = some c) (hpath : path ∈ d.leafPaths)
      (hnot : path ∉ c.leafPaths) : KeyFault p set scan nameSpace language path .missingKey
  | undefined {s : SourceScan} {c : Catalog} (hscan : scan = some s)
      (hcheck : p.config.checkReferences = true) (hnameSpace : nameSpace ∈ set.namespaces)
      (hc : set.get? language nameSpace = some c) (hkey : ⟨nameSpace, path⟩ ∈ s.keys)
      (hnot : path ∉ c.leafPaths) : KeyFault p set scan nameSpace language path .missingKey
  | unknownNamespace {s : SourceScan} (hscan : scan = some s)
      (hcheck : p.config.checkReferences = true) (hnameSpace : nameSpace ∉ set.namespaces)
      (hkey : ⟨nameSpace, path⟩ ∈ s.keys) (hlanguage : language ∈ set.languages) :
      KeyFault p set scan nameSpace language path .missingKey
  | additional {d c : Catalog} (hlanguage : language ≠ set.defaultLanguage)
      (hd : set.get? set.defaultLanguage nameSpace = some d)
      (hc : set.get? language nameSpace = some c) (hpath : path ∈ c.leafPaths)
      (hnot : path ∉ d.leafPaths) : KeyFault p set scan nameSpace language path .extraKey
  | unused {s : SourceScan} {c : Catalog} (hlanguage : language = set.defaultLanguage)
      (hunused : p.config.reportUnused = true) (hscan : scan = some s)
      (hc : set.get? language nameSpace = some c) (hpath : path ∈ c.leafPaths)
      (hkey : ⟨nameSpace, path⟩ ∉ s.keys) : KeyFault p set scan nameSpace language path .extraKey

variable {p : Project} {files : Directory} {set : CatalogSet} {scan : Option SourceScan}
  {nameSpace language path : String} {kind : Finding.Kind} {i : Finding.Identity}

def IsKeyKind (kind : Finding.Kind) : Prop :=
  kind = .missingKey ∨ kind = .extraKey

/-- Validation says nothing about keys. -/
theorem not_hasFault_of_isKeyKind (hkind : IsKeyKind kind) {reference : Option Json.Value}
    {value : Json.Value} : ¬Validation.HasFault reference value kind := by
  rcases hkind with rfl | rfl
  · exact id
  · exact id

theorem keyFault_of_mem_documentReports {r : Report} (hnameSpace : nameSpace ∈ set.namespaces)
    (hr : r ∈ p.documentReports set scan nameSpace language) (hi : i ∈ r.seen)
    (hkind : IsKeyKind i.kind) :
    i.variableName = none ∧ KeyFault p set scan i.nameSpace i.language i.path i.kind := by
  obtain ⟨c, hc, hreport⟩ := mem_documentReports.mp hr
  obtain ⟨_, rfl, rfl⟩ := CatalogSet.of_get? hc
  rcases mem_catalogReports.mp hreport with ⟨hlanguage, d, hd, rfl⟩ | ⟨hcheck, s, hscan, rfl⟩ |
    ⟨hlanguage, hunused, s, hscan, rfl⟩ | ⟨_, rfl⟩ | rfl
  · rcases Difference.mem_seen_betweenCatalogs.mp hi with ⟨path, hpath, hnot, rfl⟩ |
      ⟨path, hpath, hnot, rfl⟩
    · exact ⟨rfl, .lacking hlanguage hd hc hpath hnot⟩
    · exact ⟨rfl, .additional hlanguage hd hc hpath hnot⟩
  · obtain ⟨key, hkey, hname, hnot, rfl⟩ := Difference.mem_seen_undefinedReferences.mp hi
    refine ⟨rfl, .undefined hscan hcheck hnameSpace hc ?_ hnot⟩
    rwa [Difference.keyProblem, ← hname]
  · obtain ⟨path, hpath, hnot, rfl⟩ := Difference.mem_seen_unusedKeys.mp hi
    exact ⟨rfl, .unused hlanguage hunused hscan hc hpath hnot⟩
  · obtain ⟨path, rfl⟩ := Difference.keyProblem_of_mem_untranslated hi
    rcases hkind with hkind | hkind
    · cases hkind
    · cases hkind
  · obtain ⟨_, _, _, _, hfault⟩ := Validation.of_mem_seen_validateCatalog hi
    exact absurd hfault (not_hasFault_of_isKeyKind hkind)

theorem keyFault_of_mem_seen (h : p.loadCatalogs files = .ok set)
    (hi : i ∈ (p.checkCatalogs set scan).seen) (hkind : IsKeyKind i.kind) :
    i.variableName = none ∧ KeyFault p set scan i.nameSpace i.language i.path i.kind := by
  rcases mem_seen_checkCatalogs.mp hi with hfailure |
    ⟨nameSpace, hnameSpace, language, _, r, hr, hi⟩ | ⟨r, hr, hi⟩
  · rw [kind_of_mem_failures h hfailure] at hkind
    rcases hkind with hkind | hkind
    · cases hkind
    · cases hkind
  · exact keyFault_of_mem_documentReports hnameSpace hr hi hkind
  · obtain ⟨hcheck, s, hscan, rfl⟩ := mem_unknownReports.mp hr
    obtain ⟨key, hkey, hnot, language, hlanguage, rfl⟩ :=
      Difference.mem_seen_unknownNamespaces.mp hi
    exact ⟨rfl, .unknownNamespace hscan hcheck hnot hkey hlanguage⟩

/-- A problem of a report on a loaded catalog is a problem of the whole check. -/
theorem mem_seen_of_catalogReports (h : p.loadCatalogs files = .ok set) {c : Catalog}
    (hc : set.get? language nameSpace = some c) {r : Report}
    (hr : r ∈ p.catalogReports set.defaultLanguage (set.get? set.defaultLanguage nameSpace) scan c)
    (hi : i ∈ r.seen) : i ∈ (p.checkCatalogs set scan).seen := by
  obtain ⟨hlanguage, hnameSpace, _⟩ := load_of_get? h hc
  refine mem_seen_checkCatalogs.mpr (Or.inr (Or.inl ?_))
  exact ⟨nameSpace, hnameSpace, language, hlanguage, r, mem_documentReports.mpr ⟨c, hc, hr⟩, hi⟩

theorem mem_seen_of_keyFault (h : p.loadCatalogs files = .ok set)
    (hfault : KeyFault p set scan nameSpace language path kind) :
    ⟨kind, nameSpace, language, path, none⟩ ∈ (p.checkCatalogs set scan).seen := by
  cases hfault with
  | @lacking d c hlanguage hd hc hpath hnot =>
    obtain ⟨_, rfl, rfl⟩ := CatalogSet.of_get? hc
    refine mem_seen_of_catalogReports h hc
      (mem_catalogReports.mpr (Or.inl ⟨hlanguage, d, hd, rfl⟩)) ?_
    exact Difference.mem_seen_betweenCatalogs.mpr (Or.inl ⟨path, hpath, hnot, rfl⟩)
  | @undefined s c hscan hcheck hnameSpace hc hkey hnot =>
    obtain ⟨_, rfl, rfl⟩ := CatalogSet.of_get? hc
    refine mem_seen_of_catalogReports h hc
      (mem_catalogReports.mpr (Or.inr (Or.inl ⟨hcheck, s, hscan, rfl⟩))) ?_
    exact Difference.mem_seen_undefinedReferences.mpr ⟨_, hkey, rfl, hnot, rfl⟩
  | @unknownNamespace s hscan hcheck hnameSpace hkey hlanguage =>
    refine mem_seen_checkCatalogs.mpr (Or.inr (Or.inr ?_))
    refine ⟨_, mem_unknownReports.mpr ⟨hcheck, s, hscan, rfl⟩, ?_⟩
    exact Difference.mem_seen_unknownNamespaces.mpr ⟨_, hkey, hnameSpace, language, hlanguage, rfl⟩
  | @additional d c hlanguage hd hc hpath hnot =>
    obtain ⟨_, rfl, rfl⟩ := CatalogSet.of_get? hc
    refine mem_seen_of_catalogReports h hc
      (mem_catalogReports.mpr (Or.inl ⟨hlanguage, d, hd, rfl⟩)) ?_
    exact Difference.mem_seen_betweenCatalogs.mpr (Or.inr ⟨path, hpath, hnot, rfl⟩)
  | @unused s c hlanguage hunused hscan hc hpath hkey =>
    obtain ⟨_, rfl, rfl⟩ := CatalogSet.of_get? hc
    refine mem_seen_of_catalogReports h hc
      (mem_catalogReports.mpr (Or.inr (Or.inr (Or.inl ⟨hlanguage, hunused, s, hscan, rfl⟩)))) ?_
    exact Difference.mem_seen_unusedKeys.mpr ⟨path, hpath, hkey, rfl⟩

/-- Missing and extra keys are found exactly where there is a fault, each of them once. -/
theorem keyFindings_exact (p : Project) (files : Directory) (set : CatalogSet)
    (scan : Option SourceScan) (h : p.loadCatalogs files = .ok set)
    (nameSpace language path : String) (kind : Finding.Kind) (hkind : IsKeyKind kind) :
    ((∃ f ∈ (p.checkCatalogs set scan).findings, f.isAt kind nameSpace language path = true) ↔
      KeyFault p set scan nameSpace language path kind) ∧
    (p.checkCatalogs set scan).findings.countP (Finding.isAt kind nameSpace language path) ≤ 1 := by
  have hplain : ∀ f ∈ (p.checkCatalogs set scan).findings, f.kind = kind →
      f.variableName = none := by
    rintro f hf rfl
    exact (keyFault_of_mem_seen h (List.mem_map_of_mem hf) hkind).1
  constructor
  · rw [Report.exists_isAt_iff hplain]
    constructor
    · intro hi
      exact (keyFault_of_mem_seen h hi hkind).2
    · exact mem_seen_of_keyFault h
  · exact Report.countP_isAt_le_one hplain (nodup_seen_checkCatalogs p set scan)

theorem keyFindings_exact_greeting :
    greetingProject.loadCatalogs greetingFiles = .ok greetingSet ∧ IsKeyKind .missingKey ∧
      (∃ f ∈ (greetingProject.checkCatalogs greetingSet (some strayScan)).findings,
        f.isAt .missingKey "app" "de" "b" = true) ∧
      (greetingProject.checkCatalogs greetingSet (some strayScan)).findings.countP
        (Finding.isAt .missingKey "app" "de" "b") ≤ 1 := by
  have hexact := keyFindings_exact _ _ _ (some strayScan) greeting_loadCatalogs "app" "de" "b"
    .missingKey (Or.inl rfl)
  have hget : greetingSet.get? "de" "app" = some ⟨"de", "app", [("a", .string "Ja")]⟩ := by rfl
  have hfault : KeyFault greetingProject greetingSet (some strayScan) "app" "de" "b" .missingKey :=
    .undefined rfl rfl (by decide) hget (List.mem_singleton.mpr rfl) (by decide)
  exact ⟨greeting_loadCatalogs, Or.inl rfl, hexact.1.mpr hfault, hexact.2⟩

end Project

end LocaleAudit
