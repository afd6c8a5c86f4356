import LocaleAudit.Difference
import LocaleAudit.Proofs.KeyPath.Leaves
import LocaleAudit.Proofs.Report.Deduplication

namespace LocaleAudit

/-!
# What differences find

Missing keys and undefined references are errors; extra keys, unused keys and markers are not.
-/

namespace Difference

open Json (Value)

variable {c d : Catalog} {scan : SourceScan} {i : Finding.Identity}

/-- A problem with one key of a catalog. -/
def keyProblem (kind : Finding.Kind) (c : Catalog) (path : String) : Finding.Identity :=
  ⟨kind, c.nameSpace, c.language, path, none⟩

theorem mem_seen_betweenCatalogs :
    i ∈ (betweenCatalogs d c).seen ↔
      (∃ path ∈ d.leafPaths, path ∉ c.leafPaths ∧ i = keyProblem .missingKey c path) ∨
      ∃ path ∈ c.leafPaths, path ∉ d.leafPaths ∧ i = keyProblem .extraKey c path := by
  rw [betweenCatalogs, Report.mem_seen_ofList]
  constructor
  · rintro ⟨f, hf, rfl⟩
    rcases List.mem_append.mp hf with hf | hf
    · obtain ⟨path, hpath, rfl⟩ := List.mem_map.mp hf
      have hmissing : path ∈ d.leafPaths ∧ path ∉ c.leafPaths := by
        simpa [missingPaths] using hpath
      exact Or.inl ⟨path, hmissing.1, hmissing.2, rfl⟩
    · obtain ⟨path, hpath, rfl⟩ := List.mem_map.mp hf
      have hextra : path ∈ c.leafPaths ∧ path ∉ d.leafPaths := by
        simpa [extraPaths] using hpath
      exact Or.inr ⟨path, hextra.1, hextra.2, rfl⟩
  · rintro (⟨path, hpath, hnot, rfl⟩ | ⟨path, hpath, hnot, rfl⟩)
    · refine ⟨missingFinding d c path, List.mem_append_left _ (List.mem_map_of_mem ?_), rfl⟩
      simpa [missingPaths] using And.intro hpath hnot
    · refine ⟨extraFinding d c path, List.mem_append_right _ (List.mem_map_of_mem ?_), rfl⟩
      simpa [extraPaths] using And.intro hpath hnot

theorem mem_seen_undefinedReferences :
    i ∈ (undefinedReferences scan c).seen ↔ ∃ key ∈ scan.keys,
      key.nameSpace = c.nameSpace ∧ key.path ∉ c.leafPaths ∧
        i = keyProblem .missingKey c key.path := by
  rw [undefinedReferences, Report.mem_seen_ofList]
  constructor
  · rintro ⟨f, hf, rfl⟩
    obtain ⟨key, hkey, rfl⟩ := List.mem_map.mp hf
    have hundefined : key ∈ scan.keys ∧ key.path ∉ c.leafPaths ∧ key.nameSpace = c.nameSpace := by
      simpa [SourceScan.references] using hkey
    exact ⟨key, hundefined.1, hundefined.2.2, hundefined.2.1, rfl⟩
  · rintro ⟨key, hkey, hname, hnot, rfl⟩
    refine ⟨_, List.mem_map_of_mem (a := key) ?_, rfl⟩
    simpa [SourceScan.references] using And.intro hkey (And.intro hnot hname)

theorem mem_seen_unknownNamespaces {namespaces languages : List String} :
    i ∈ (unknownNamespaces scan namespaces languages).seen ↔ ∃ key ∈ scan.keys,
      key.nameSpace ∉ namespaces ∧ ∃ language ∈ languages,
        i = ⟨.missingKey, key.nameSpace, language, key.path, none⟩ := by
  rw [unknownNamespaces, Report.mem_seen_ofList]
  constructor
  · rintro ⟨f, hf, rfl⟩
    obtain ⟨key, hkey, hf⟩ := List.mem_flatMap.mp hf
    obtain ⟨language, hlanguage, rfl⟩ := List.mem_map.mp hf
    have hunknown : key ∈ scan.keys ∧ key.nameSpace ∉ namespaces := by
      simpa using hkey
    exact ⟨key, hunknown.1, hunknown.2, language, hlanguage, rfl⟩
  · rintro ⟨key, hkey, hnot, language, hlanguage, rfl⟩
    refine ⟨_, List.mem_flatMap.mpr ⟨key, ?_, List.mem_map_of_mem hlanguage⟩, rfl⟩
    simpa using And.intro hkey hnot

theorem mem_seen_unusedKeys :
    i ∈ (unusedKeys scan d).seen ↔ ∃ path ∈ d.leafPaths,
      ⟨d.nameSpace, path⟩ ∉ scan.keys ∧ i = keyProblem .extraKey d path := by
  rw [unusedKeys, Report.mem_seen_ofList]
  constructor
  · rintro ⟨f, hf, rfl⟩
    obtain ⟨path, hpath, rfl⟩ := List.mem_map.mp hf
    have hunused : path ∈ d.leafPaths ∧ ⟨d.nameSpace, path⟩ ∉ scan.keys := by
      simpa [SourceScan.isReferenced] using hpath
    exact ⟨path, hunused.1, hunused.2, rfl⟩
  · rintro ⟨path, hpath, hnot, rfl⟩
    refine ⟨_, List.mem_map_of_mem (a := path) ?_, rfl⟩
    simpa [SourceScan.isReferenced] using And.intro hpath hnot

/-! ## Errors -/

theorem betweenCatalogs_hasErrors :
    (betweenCatalogs d c).hasErrors = true ↔ ∃ path ∈ d.leafPaths, path ∉ c.leafPaths := by
  rw [Report.hasErrors_iff]
  constructor
  · rintro ⟨i, hi, herror⟩
    rcases mem_seen_betweenCatalogs.mp hi with ⟨path, hpath, hnot, _⟩ | ⟨path, _, _, rfl⟩
    · exact ⟨path, hpath, hnot⟩
    · cases herror
  · rintro ⟨path, hpath, hnot⟩
    exact ⟨_, mem_seen_betweenCatalogs.mpr (Or.inl ⟨path, hpath, hnot, rfl⟩), rfl⟩

theorem undefinedReferences_hasErrors :
    (undefinedReferences scan c).hasErrors = true ↔
      ∃ key ∈ scan.keys, key.nameSpace = c.nameSpace ∧ key.path ∉ c.leafPaths := by
  rw [Report.hasErrors_iff]
  constructor
  · rintro ⟨i, hi, _⟩
    obtain ⟨key, hkey, hname, hnot, _⟩ := mem_seen_undefinedReferences.mp hi
    exact ⟨key, hkey, hname, hnot⟩
  · rintro ⟨key, hkey, hname, hnot⟩
    exact ⟨_, mem_seen_undefinedReferences.mpr ⟨key, hkey, hname, hnot, rfl⟩, rfl⟩

theorem unknownNamespaces_hasErrors {namespaces languages : List String} (h : languages ≠ []) :
    (unknownNamespaces scan namespaces languages).hasErrors = true ↔
      ∃ key ∈ scan.keys, key.nameSpace ∉ namespaces := by
  rw [Report.hasErrors_iff]
  constructor
  · rintro ⟨i, hi, _⟩
    obtain ⟨key, hkey, hnot, _⟩ := mem_seen_unknownNamespaces.mp hi
    exact ⟨key, hkey, hnot⟩
  · rintro ⟨key, hkey, hnot⟩
    obtain ⟨language, hlanguage⟩ := List.exists_mem_of_ne_nil languages h
    exact ⟨_, mem_seen_unknownNamespaces.mpr ⟨key, hkey, hnot, language, hlanguage, rfl⟩, rfl⟩

theorem unusedKeys_hasErrors : (unusedKeys scan d).hasErrors = false := by
  rw [Bool.eq_false_iff, ne_eq, Report.hasErrors_iff]
  rintro ⟨i, hi, herror⟩
  obtain ⟨path, _, _, rfl⟩ := mem_seen_unusedKeys.mp hi
  cases herror

/-! ## Markers -/

def untranslatedAt? (c : Catalog) (defaultLanguage : String) (marker : Marker)
    (l : String × Value) : Option Finding :=
  match l.2 with
  | .string text =>
    if marker.marks text defaultLanguage c.language then
      some (untranslatedFinding c
        (String.ofList (trimEnd (marker.render defaultLanguage c.language).toList)) l.1 text)
    else none
  | _ => none

theorem untranslated_eq (c : Catalog) (defaultLanguage : String) (marker : Marker) :
    untranslated c defaultLanguage marker =
      Report.ofList (c.leaves.filterMap (untranslatedAt? c defaultLanguage marker)) :=
  rfl

theorem identity_of_untranslatedAt? {defaultLanguage : String} {marker : Marker}
    {l : String × Value} {f : Finding} (h : untranslatedAt? c defaultLanguage marker l = some f) :
    f.identity = keyProblem .untranslated c l.1 := by
  rw [untranslatedAt?] at h
  split at h
  · split at h
    · cases h
      rfl
    · cases h
  · cases h

theorem path_of_untranslatedAt? {defaultLanguage : String} {marker : Marker} {l : String × Value}
    {f : Finding} (h : untranslatedAt? c defaultLanguage marker l = some f) : f.path = l.1 :=
  congrArg Finding.Identity.path (identity_of_untranslatedAt? h)

theorem keyProblem_of_mem_untranslated {defaultLanguage : String} {marker : Marker}
    (h : i ∈ (untranslated c defaultLanguage marker).seen) :
    ∃ path, i = keyProblem .untranslated c path := by
  rw [untranslated_eq, Report.mem_seen_ofList] at h
  obtain ⟨f, hf, rfl⟩ := h
  obtain ⟨l, _, hl⟩ := List.mem_filterMap.mp hf
  exact ⟨l.1, identity_of_untranslatedAt? hl⟩

theorem untranslated_hasErrors (c : Catalog) (defaultLanguage : String) (marker : Marker) :
    (untranslated c defaultLanguage marker).hasErrors = false := by
  rw [Bool.eq_false_iff, ne_eq, Report.hasErrors_iff]
  rintro ⟨i, hi, herror⟩
  obtain ⟨path, rfl⟩ := keyProblem_of_mem_untranslated hi
  cases herror

/-- No finding is dropped, for the leaves of a catalog have different paths. -/
theorem findings_untranslated (h : c.tree.WellFormed) (defaultLanguage : String)
    (marker : Marker) :
    (untranslated c defaultLanguage marker).findings =
      c.leaves.filterMap (untranslatedAt? c defaultLanguage marker) := by
  rw [untranslated_eq]
  refine Report.findings_ofList ?_
  rw [List.Nodup, List.pairwise_map, List.pairwise_filterMap]
  have hpaths : c.leaves.Pairwise fun l l' => l.1 ≠ l'.1 :=
    List.pairwise_map.mp (KeyPath.nodup_leafPaths h)
  refine hpaths.imp fun hne f hf g hg heq => hne ?_
  rw [← path_of_untranslatedAt? hf, ← path_of_untranslatedAt? hg]
  exact congrArg Finding.Identity.path heq

theorem untranslated_at (h : c.tree.WellFormed) (defaultLanguage : String) (marker : Marker)
    {path : String} {value : Value} (hl : (path, value) ∈ c.leaves) :
    (untranslated c defaultLanguage marker).findings.filter (·.path == path) =
      (untranslatedAt? c defaultLanguage marker (path, value)).toList := by
  obtain ⟨before, after, hsplit⟩ := List.append_of_mem hl
  have hnodup : (before.map Prod.fst ++ path :: after.map Prod.fst).Nodup := by
    have hpaths : (c.leaves.map Prod.fst).Nodup := KeyPath.nodup_leafPaths h
    rwa [hsplit, List.map_append, List.map_cons] at hpaths
  have hnone : ∀ leaves : List (String × Value), path ∉ leaves.map Prod.fst →
      (leaves.filterMap (untranslatedAt? c defaultLanguage marker)).filter (·.path == path) =
        [] := by
    intro leaves hnot
    rw [List.filter_eq_nil_iff]
    intro f hf hpath
    obtain ⟨l, hl, hfinding⟩ := List.mem_filterMap.mp hf
    rw [path_of_untranslatedAt? hfinding, beq_iff_eq] at hpath
    exact hnot (hpath ▸ List.mem_map_of_mem hl)
  rw [List.nodup_append, List.nodup_cons] at hnodup
  obtain ⟨_, ⟨hafter, _⟩, hdisjoint⟩ := hnodup
  have hbefore : path ∉ before.map Prod.fst := fun hmem =>
    hdisjoint path hmem path List.mem_cons_self rfl
  rw [findings_untranslated h, hsplit, List.filterMap_append, List.filter_append, hnone _ hbefore,
    List.nil_append, List.filterMap_cons]
  cases hfinding : untranslatedAt? c defaultLanguage marker (path, value) with
  | none => simp [hnone _ hafter]
  | some f =>
    have hpath : f.path = path := path_of_untranslatedAt? hfinding
    simp [hpath, hnone _ hafter]

end Difference

end LocaleAudit
