import LocaleAudit.Proofs.Config
import LocaleAudit.Proofs.LanguageTag
import LocaleAudit.Proofs.Project.Loading
import LocaleAudit.Proofs.Store.Listing

namespace LocaleAudit

/-!
# Where the documents of a run lie

The languages of a run have passed the check of language codes, and its namespaces are names of
documents. When no code holds `/`, every document lies in a directory of its own language, two names
below the root of the store.
-/

namespace Project

variable {p : Project} {files : Directory} {languages namespaces : List String}

theorem of_ofConfig {config : Config} (h : ofConfig config = .ok p) :
    p.config = config ∧ config.check = .ok () := by
  obtain ⟨_, hcheck, h⟩ := Config.bind_eq_ok_iff.mp h
  obtain ⟨extractor, _, h⟩ := Config.bind_eq_ok_iff.mp h
  obtain ⟨marker, _, h⟩ := Config.bind_eq_ok_iff.mp h
  cases h
  exact ⟨rfl, hcheck⟩

theorem languages_of_ofConfig {config : Config} (h : ofConfig config = .ok p) :
    LanguageTag.check p.config.defaultLanguage = .ok () ∧
      ∀ code ∈ p.config.languages, LanguageTag.check code = .ok () := by
  obtain ⟨rfl, hcheck⟩ := of_ofConfig h
  have hvalid := Config.check_eq_ok_iff.mp hcheck
  exact ⟨hvalid.defaultLanguage, hvalid.languages⟩

theorem check_of_mem_languages {config : Config} (h : ofConfig config = .ok p)
    (hlanguages : p.languages files = .ok languages) {language : String}
    (hmem : language ∈ languages) : LanguageTag.check language = .ok () := by
  obtain ⟨hdefault, hcodes⟩ := languages_of_ofConfig h
  obtain ⟨names, hnames, rfl⟩ := candidates_of_languages hlanguages
  rcases List.mem_cons.mp hmem with rfl | hmem
  · exact hdefault
  have hname := (List.mem_filter.mp hmem).1
  rw [candidateLanguages] at hnames
  split at hnames
  · split at hnames
    · cases hnames
      have hcheck := (List.mem_filter.mp hname).2
      cases hcode : LanguageTag.check language with
      | ok => rfl
      | error e =>
        rw [hcode] at hcheck
        cases hcheck
    · cases hnames
  · cases hnames
    exact hcodes language hname

/-- A project made of a checked configuration, over a proper file tree, where no language of the run
has a `/` in its code. -/
structure Plain (p : Project) (files : Directory) : Prop where
  configured : ∃ config, ofConfig config = .ok p
  wellFormed : files.WellFormed
  no_slash : ∀ languages, p.languages files = .ok languages →
    ∀ language ∈ languages, '/' ∉ language.toList

/-- The place of a store's root, and what can lie there. -/
structure Layout (p : Project) (files : Directory) (place : List String)
    (languages namespaces : List String) : Prop where
  root : Directory.Place files p.store.root place
  languages_eq : p.languages files = .ok languages
  namespaces_eq : p.namespaces files = .ok namespaces
  isName_language : ∀ language ∈ languages, IsName language
  isName_document : ∀ nameSpace ∈ namespaces, IsName (p.store.fileName nameSpace)
  nodup_namespaces : namespaces.Nodup
  /-- Languages that no configuration lists have directories. -/
  listed : p.config.languages.isEmpty = true → ∀ language ∈ languages,
    language ≠ p.config.defaultLanguage → Directory.HasDirectory (place ++ [language]) files

theorem defaultLanguage_mem_languages (h : p.languages files = .ok languages) :
    p.config.defaultLanguage ∈ languages := by
  obtain ⟨others, rfl⟩ := languages_eq h
  exact List.mem_cons_self

theorem Layout.isName_defaultLanguage {place : List String}
    (h : p.Layout files place languages namespaces) : IsName p.config.defaultLanguage :=
  h.isName_language _ (defaultLanguage_mem_languages h.languages_eq)

theorem listNamespaces_of_namespaces (h : p.namespaces files = .ok namespaces) :
    p.store.listNamespaces files p.config.defaultLanguage = .ok namespaces := by
  unfold Project.namespaces at h
  split at h
  · cases h
    assumption
  · cases h

/-- A language that no configuration lists, other than the default one, has a directory. -/
theorem hasDirectory_of_listed {place : List String}
    (hplace : Directory.Place files p.store.root place) (hfiles : files.WellFormed)
    (hlanguages : p.languages files = .ok languages)
    (hlisted : p.config.languages.isEmpty = true) {language : String} (hmem : language ∈ languages)
    (hother : language ≠ p.config.defaultLanguage) :
    Directory.HasDirectory (place ++ [language]) files := by
  obtain ⟨siblings, hsiblings⟩ := hplace.leads.hasDirectory
  have hread : p.store.listLanguages files =
      .ok (Store.sorted (siblings.filterMap Store.languageOf?)) := by
    unfold Store.listLanguages
    rw [hplace.readDirectory, Directory.entriesAt_eq hsiblings]
    rfl
  unfold Project.languages candidateLanguages at hlanguages
  rw [if_pos hlisted, hread] at hlanguages
  cases hlanguages
  rcases List.mem_cons.mp hmem with rfl | hmem
  · exact absurd rfl hother
  have hsorted := (List.mem_filter.mp (List.mem_filter.mp hmem).1).1
  obtain ⟨⟨name, node⟩, hentry, hname⟩ := List.mem_filterMap.mp (Store.mem_sorted.mp hsorted)
  cases node with
  | file content => cases hname
  | directory entries =>
    simp only [Store.languageOf?, Option.ite_none_left_eq_some, Option.some.injEq] at hname
    obtain ⟨_, rfl⟩ := hname
    cases hfiles.lookup hsiblings with
    | directory _ hdistinct _ =>
      refine ⟨entries, ?_⟩
      rw [Directory.lookup_concat hsiblings, Entries.get?_of_mem hdistinct hentry]

theorem Plain.exists_layout (h : p.Plain files) (hlanguages : p.languages files = .ok languages)
    (hnamespaces : p.namespaces files = .ok namespaces) :
    ∃ place, p.Layout files place languages namespaces := by
  obtain ⟨config, hconfig⟩ := h.configured
  have hnames : ∀ language ∈ languages, IsName language := fun language hmem =>
    LanguageTag.isName_of_check (check_of_mem_languages hconfig hlanguages hmem)
      (h.no_slash languages hlanguages language hmem)
  obtain ⟨place, d, hplace, hlookup, rfl⟩ := Store.exists_of_listNamespaces
    (hnames _ (defaultLanguage_mem_languages hlanguages)) (listNamespaces_of_namespaces hnamespaces)
  have hd := h.wellFormed.lookup hlookup
  exact ⟨place, {
    root := hplace
    languages_eq := hlanguages
    namespaces_eq := hnamespaces
    isName_language := hnames
    isName_document := fun _ => Store.isName_of_mem_namespaces hd
    nodup_namespaces := Store.nodup_namespaces hd
    listed := fun hlisted _ => hasDirectory_of_listed hplace h.wellFormed hlanguages hlisted }⟩

/-! ## Projects with listed languages -/

def listing (defaultLanguage : String) (languages : List String) : Project :=
  ⟨{ catalogDir := "/locales", defaultLanguage, languages, helpers := [] }, ⟨"/locales", "json"⟩,
    .standard, .default⟩

theorem ofConfig_listing {defaultLanguage : String} {languages : List String}
    (h : (listing defaultLanguage languages).config.check = .ok ()) :
    ofConfig (listing defaultLanguage languages).config =
      .ok (listing defaultLanguage languages) := by
  have hextractor : Extractor.ofHelpers [] = .ok .standard := by rfl
  have hmarker : Marker.ofTemplate Marker.default.template = .ok .default := by rfl
  have hstore : Store.new "/locales" "json" = ⟨"/locales", "json"⟩ := by rfl
  simp only [listing] at h ⊢
  simp only [ofConfig, h, hextractor, hmarker, hstore]
  rfl

/-- The translation has a text where the default catalog has a group. -/
def noticeFiles : Directory :=
  [("locales", .directory
    [("de", .directory [("app.json", .file "\x7b\"b\": \"Ja\"\x7d".toUTF8)]),
      ("en", .directory
        [("app.json", .file "\x7b\"a\": \"Hi\", \"b\": \x7b\"c\": \"Yes\"\x7d\x7d".toUTF8)])])]

theorem notice_plain : (listing "en" ["en", "de"]).Plain noticeFiles where
  configured := ⟨_, ofConfig_listing (by rfl)⟩
  wellFormed := by decide
  no_slash := by
    intro languages hlanguages
    have hlisted : (listing "en" ["en", "de"]).languages noticeFiles = .ok ["en", "de"] := by rfl
    rw [hlisted] at hlanguages
    cases hlanguages
    decide

/-- One document lies above the directories of languages. -/
def slashFiles : Directory :=
  [("locales", .directory
    [("app.json", .file "\x7b\"a\": \"x\"\x7d".toUTF8),
      ("en", .directory [("app.json", .file "\x7b\"a\": \x7b\"b\": \"Hi\"\x7d\x7d".toUTF8)]),
      ("fr-1", .directory [])])]

end Project

end LocaleAudit
