import LocaleAudit.CommandLine.Settings
import LocaleAudit.Proofs.Config

namespace LocaleAudit.Settings

/-!
# Overrides of a usable configuration

A configuration file and the defaults are usable before the command line comes in, and every
override keeps what a usable configuration promises: a new default language joins the listed
languages, and new languages are joined by the default one. So a run fails while it reads its
configuration or at a language code of the command line, and never afterwards.
-/

variable {files : Directory} {workingDir base : String} {o : Overrides} {given c c' : Config}
  {fault : CommandFault}

/-! ## Before the command line -/

def configPath (workingDir : String) (o : Overrides) : String :=
  Path.join workingDir (o.configFile.getD defaultConfigFile)

/-- The configuration that a run starts from, and the directory that its paths are seen from. -/
inductive StartsFrom (files : Directory) (workingDir : String) (o : Overrides) :
    String → Config → Prop where
  | file {c : Config} (hthere : files.isFile (configPath workingDir o) = true)
      (hload : load files (configPath workingDir o) = .ok c) :
      StartsFrom files workingDir o ((Path.parent? (configPath workingDir o)).getD workingDir) c
  | defaults (hunnamed : o.configFile = none)
      (hmissing : ¬files.isFile (configPath workingDir o) = true) :
      StartsFrom files workingDir o workingDir {}

/-- Why there is no configuration to start from. -/
inductive CannotStart (files : Directory) (workingDir : String) (o : Overrides) :
    CommandFault → Prop where
  | missing (hnamed : o.configFile ≠ none)
      (hmissing : ¬files.isFile (configPath workingDir o) = true) :
      CannotStart files workingDir o (.missing "Config file" (configPath workingDir o))
  | notFile (hnamed : o.configFile ≠ none)
      (hmissing : ¬files.isFile (configPath workingDir o) = true) :
      CannotStart files workingDir o (.notFile "Config path" (configPath workingDir o))
  | unreadable {e : Error} (hload : load files (configPath workingDir o) = .error e) :
      CannotStart files workingDir o (.unreadableConfig (configPath workingDir o) e)

theorem check_of_ofText {text : String} (h : Config.ofText text = .ok c) : c.check = .ok () := by
  unfold Config.ofText at h
  split at h
  · cases h
  split at h
  · rename_i hcheck
    cases h
    exact hcheck
  · cases h

theorem check_of_load {path : String} (h : load files path = .ok c) : c.check = .ok () := by
  unfold load at h
  split at h
  · exact check_of_ofText h
  · cases h

theorem StartsFrom.valid (h : StartsFrom files workingDir o base given) : given.Valid := by
  apply Config.check_eq_ok_iff.mp
  cases h with
  | file _ hload => exact check_of_load hload
  | defaults _ _ => rfl

theorem pathExists_of_isFile {path : String} (h : files.isFile path = true) :
    files.pathExists path = true := by
  unfold Directory.isFile at h
  unfold Directory.pathExists
  cases hfind : (files.find path).toOption with
  | none =>
    rw [hfind] at h
    cases h
  | some node => rfl

theorem configFile?_unnamed (hunnamed : o.configFile = none) :
    configFile? files workingDir o = .ok (if files.isFile (configPath workingDir o)
      then some (configPath workingDir o) else none) := by
  simp [configFile?, configPath, hunnamed]

theorem configFile?_named {path : String} (hnamed : o.configFile = some path) :
    configFile? files workingDir o =
      (Precondition.configFile files (configPath workingDir o)).map
        fun _ => some (configPath workingDir o) := by
  simp [configFile?, configPath, hnamed, Except.map, bind, Except.bind, pure, Except.pure]

theorem configFile?_of_isFile (hthere : files.isFile (configPath workingDir o) = true) :
    configFile? files workingDir o = .ok (some (configPath workingDir o)) := by
  cases hnamed : o.configFile with
  | none => rw [configFile?_unnamed hnamed, if_pos hthere]
  | some path =>
    rw [configFile?_named hnamed, Precondition.configFile]
    simp [hthere, pathExists_of_isFile hthere, Except.map]

theorem StartsFrom.configured (h : StartsFrom files workingDir o base given) :
    configured files workingDir o = .ok (anchored base given) := by
  unfold Settings.configured
  cases h with
  | file hthere hload =>
    rw [configFile?_of_isFile hthere]
    simp only [bind, Except.bind, hload]
    rfl
  | defaults hunnamed hmissing =>
    rw [configFile?_unnamed hunnamed, if_neg hmissing]
    rfl

/-- A run that has nothing to start from says why. -/
theorem starts_or_fails (files : Directory) (workingDir : String) (o : Overrides) :
    (∃ base given, StartsFrom files workingDir o base given) ∨
      ∃ fault, CannotStart files workingDir o fault ∧
        configured files workingDir o = .error fault := by
  unfold configured
  by_cases hthere : files.isFile (configPath workingDir o) = true
  · cases hload : load files (configPath workingDir o) with
    | ok c => exact Or.inl ⟨_, c, .file hthere hload⟩
    | error e =>
      refine Or.inr ⟨_, .unreadable hload, ?_⟩
      rw [configFile?_of_isFile hthere]
      simp only [bind, Except.bind, hload]
      rfl
  · cases hnamed : o.configFile with
    | none => exact Or.inl ⟨_, _, .defaults hnamed hthere⟩
    | some path =>
      right
      rw [configFile?_named hnamed, Precondition.configFile]
      by_cases hexists : files.pathExists (configPath workingDir o) = true
      · refine ⟨_, .notFile (by simp [hnamed]) hthere, ?_⟩
        simp [hthere, hexists, Except.map, bind, Except.bind]
      · refine ⟨_, .missing (by simp [hnamed]) hthere, ?_⟩
        simp [hexists, Except.map, bind, Except.bind]

/-! ## Overrides -/

theorem checkLanguage_cases (code : String) :
    (LanguageTag.check code = .ok () ∧ checkLanguage code = .ok ()) ∨
      ∃ e, LanguageTag.check code = .error e ∧ checkLanguage code = .error (.invalidLanguage e) := by
  unfold checkLanguage
  cases LanguageTag.check code with
  | ok => exact Or.inl ⟨rfl, rfl⟩
  | error e => exact Or.inr ⟨e, rfl, rfl⟩

theorem forM_checkLanguage_cases (codes : List String) :
    ((∀ code ∈ codes, LanguageTag.check code = .ok ()) ∧ codes.forM checkLanguage = .ok ()) ∨
      ∃ code ∈ codes, ∃ e, LanguageTag.check code = .error e ∧
        codes.forM checkLanguage = .error (.invalidLanguage e) := by
  induction codes with
  | nil => exact Or.inl ⟨by simp, rfl⟩
  | cons code codes ih =>
    rw [List.forM_eq_forM, List.forM_cons]
    obtain ⟨hcode, hcheck⟩ | ⟨e, hcode, hcheck⟩ := checkLanguage_cases code
    · rw [hcheck]
      obtain ⟨hcodes, hrest⟩ | ⟨other, hother, e, he, hrest⟩ := ih
      · exact Or.inl ⟨List.forall_mem_cons.mpr ⟨hcode, hcodes⟩, hrest⟩
      · exact Or.inr ⟨other, List.mem_cons_of_mem _ hother, e, he, hrest⟩
    · refine Or.inr ⟨code, List.mem_cons_self, e, hcode, ?_⟩
      rw [hcheck]
      rfl

@[simp] theorem mem_listing {language code : String} {languages : List String} :
    code ∈ listing language languages ↔ code = language ∨ code ∈ languages := by
  unfold listing
  split
  · rename_i hmem
    have hlanguage : language ∈ languages := by simpa using hmem
    constructor
    · exact Or.inr
    · rintro (rfl | hcode)
      · exact hlanguage
      · exact hcode
  · exact List.mem_cons

theorem listing_of_mem {language : String} {languages : List String} (h : language ∈ languages) :
    listing language languages = languages := by
  rw [listing, if_pos (by simpa using h)]

/-- What has a flag can be replaced: directories at will, and languages that are listed together. -/
theorem valid_replaced (hc : c.Valid) (sourceDir catalogDir : String) {language : String}
    {languages : List String} (hlanguage : LanguageTag.check language = .ok ())
    (hlanguages : ∀ code ∈ languages, LanguageTag.check code = .ok ())
    (hlisted : languages = [] ∨ language ∈ languages) :
    Config.Valid { c with sourceDir, catalogDir, defaultLanguage := language, languages } where
  defaultLanguage := hlanguage
  languages := hlanguages
  listed := hlisted
  defaultNamespace := hc.defaultNamespace
  extension := hc.extension
  maxItems := hc.maxItems
  marker := hc.marker

theorem check_of_mem_listing {language : String} {languages : List String}
    (hlanguage : LanguageTag.check language = .ok ())
    (hlanguages : ∀ code ∈ languages, LanguageTag.check code = .ok ()) :
    ∀ code ∈ listing language languages, LanguageTag.check code = .ok () := by
  intro code hcode
  rcases mem_listing.mp hcode with rfl | hcode
  · exact hlanguage
  · exact hlanguages code hcode

/-- The languages of a configuration with another default language. -/
def joined (language : String) (languages : List String) : List String :=
  if languages.isEmpty then [] else listing language languages

theorem joined_of_valid (hc : c.Valid) : joined c.defaultLanguage c.languages = c.languages := by
  unfold joined
  rcases hc.listed with hnone | hmem
  · simp [hnone]
  · rw [if_neg (by simpa using List.ne_nil_of_mem hmem), listing_of_mem hmem]

theorem mem_joined {language : String} {languages : List String} :
    joined language languages = [] ∨ language ∈ joined language languages := by
  unfold joined
  split
  · exact Or.inl rfl
  · exact Or.inr (mem_listing.mpr (Or.inl rfl))

/-- Joining adds the default language at most, and drops nothing. -/
theorem filter_joined (language : String) (languages : List String) :
    (joined language languages).filter (· != language) = languages.filter (· != language) := by
  unfold joined listing
  by_cases hnone : languages.isEmpty = true
  · rw [if_pos hnone, List.isEmpty_iff.mp hnone]
  · rw [if_neg hnone]
    split <;> simp

theorem check_of_mem_joined {language : String} {languages : List String}
    (hlanguage : LanguageTag.check language = .ok ())
    (hlanguages : ∀ code ∈ languages, LanguageTag.check code = .ok ()) :
    ∀ code ∈ joined language languages, LanguageTag.check code = .ok () := by
  unfold joined
  split
  · simp
  · exact check_of_mem_listing hlanguage hlanguages

theorem withDefaultLanguage_cases (o : Overrides) (hc : c.Valid) :
    (∃ c', withDefaultLanguage o c = .ok c' ∧ c'.Valid ∧ c' = { c with
      defaultLanguage := o.defaultLanguage.getD c.defaultLanguage
      languages := joined (o.defaultLanguage.getD c.defaultLanguage) c.languages }) ∨
    ∃ code ∈ o.defaultLanguage, ∃ e, LanguageTag.check code = .error e ∧
      withDefaultLanguage o c = .error (.invalidLanguage e) := by
  unfold withDefaultLanguage
  cases hflag : o.defaultLanguage with
  | none =>
    refine Or.inl ⟨c, rfl, hc, ?_⟩
    rw [Option.getD_none, joined_of_valid hc]
  | some language =>
    obtain ⟨hcode, hcheck⟩ | ⟨e, hcode, hcheck⟩ := checkLanguage_cases language
    · refine Or.inl ⟨_, ?_, ?_, rfl⟩
      · simp only [hcheck]
        rfl
      · exact valid_replaced hc _ _ hcode (check_of_mem_joined hcode hc.languages) mem_joined
    · refine Or.inr ⟨language, rfl, e, hcode, ?_⟩
      simp only [hcheck]
      rfl

theorem withLanguages_cases (o : Overrides) (hc : c.Valid) :
    (∃ c', withLanguages o c = .ok c' ∧ c'.Valid ∧ c' = { c with
      languages := if o.languages.isEmpty then c.languages
        else listing c.defaultLanguage o.languages }) ∨
    ∃ code ∈ o.languages, ∃ e, LanguageTag.check code = .error e ∧
      withLanguages o c = .error (.invalidLanguage e) := by
  unfold withLanguages
  split
  · exact Or.inl ⟨c, rfl, hc, rfl⟩
  · obtain ⟨hcodes, hcheck⟩ | ⟨code, hmem, e, hcode, hcheck⟩ := forM_checkLanguage_cases o.languages
    · refine Or.inl ⟨_, ?_, ?_, rfl⟩
      · rw [hcheck]
        rfl
      · exact valid_replaced hc _ _ hc.defaultLanguage
          (check_of_mem_listing hc.defaultLanguage hcodes)
          (Or.inr (mem_listing.mpr (Or.inl rfl)))
    · refine Or.inr ⟨code, hmem, e, hcode, ?_⟩
      rw [hcheck]
      rfl

/-- What the command line makes of a configuration. -/
structure Overridden (workingDir base : String) (o : Overrides) (given c : Config) : Prop where
  sourceDir_eq : c.sourceDir = match o.sourceDir with
    | some path => Path.join workingDir path
    | none => Path.join base given.sourceDir
  catalogDir_eq : c.catalogDir = match o.catalogDir with
    | some path => Path.join workingDir path
    | none => Path.join base given.catalogDir
  defaultLanguage_eq : c.defaultLanguage = o.defaultLanguage.getD given.defaultLanguage
  /-- The default language is put in front of the languages that are listed without it. -/
  languages_eq : c.languages = joined c.defaultLanguage
    (if o.languages.isEmpty then given.languages else o.languages)
  listed : c.languages ≠ [] → c.defaultLanguage ∈ c.languages
  /-- Without a flag for them the languages are those that were given. -/
  languages_kept : o.languages = [] → o.defaultLanguage = none → c.languages = given.languages
  /-- What there is no flag for is as it was given. -/
  others_kept : { c with
    sourceDir := given.sourceDir
    catalogDir := given.catalogDir
    defaultLanguage := given.defaultLanguage
    languages := given.languages } = given

theorem overridden (hgiven : given.Valid) (hc : c.Valid)
    (hlanguage : c.defaultLanguage = o.defaultLanguage.getD given.defaultLanguage)
    (hlanguages : c.languages = if o.languages.isEmpty
      then joined c.defaultLanguage given.languages else listing c.defaultLanguage o.languages)
    (hothers : c = { withDirectories workingDir o (anchored base given) with
      defaultLanguage := c.defaultLanguage
      languages := c.languages }) :
    Overridden workingDir base o given c where
  sourceDir_eq := by
    rw [hothers]
    cases hflag : o.sourceDir <;> simp [withDirectories, anchored, hflag]
  catalogDir_eq := by
    rw [hothers]
    cases hflag : o.catalogDir <;> simp [withDirectories, anchored, hflag]
  defaultLanguage_eq := hlanguage
  languages_eq := by
    rw [hlanguages]
    by_cases hnone : o.languages.isEmpty = true
    · rw [if_pos hnone, if_pos hnone]
    · rw [if_neg hnone, if_neg hnone, joined, if_neg hnone]
  listed := hc.listed.resolve_left
  languages_kept := by
    intro hnone hdefault
    rw [hlanguages, hlanguage, hnone, hdefault]
    exact joined_of_valid hgiven
  others_kept := by
    rw [hothers]
    rfl

theorem StartsFrom.resolve_cases (h : StartsFrom files workingDir o base given) :
    (∃ c, resolve files workingDir o = .ok c ∧ c.Valid ∧ Overridden workingDir base o given c) ∨
    ∃ code ∈ o.defaultLanguage.toList ++ o.languages, ∃ e, LanguageTag.check code = .error e ∧
      resolve files workingDir o = .error (.invalidLanguage e) := by
  have hgiven := h.valid
  have hstart : (withDirectories workingDir o (anchored base given)).Valid :=
    valid_replaced hgiven _ _ hgiven.defaultLanguage hgiven.languages hgiven.listed
  unfold resolve
  rw [h.configured]
  obtain ⟨c₁, hdefault, hc₁, heq₁⟩ | ⟨code, hmem, e, hcode, hdefault⟩ :=
    withDefaultLanguage_cases o hstart
  · obtain ⟨c₂, hlanguages, hc₂, heq₂⟩ | ⟨code, hmem, e, hcode, hlanguages⟩ :=
      withLanguages_cases o hc₁
    · refine Or.inl ⟨c₂, ?_, hc₂, ?_⟩
      · simp only [bind, Except.bind, hdefault, hlanguages, Config.check_eq_ok_iff.mpr hc₂]
        rfl
      · subst heq₁
        subst heq₂
        exact overridden hgiven hc₂ rfl rfl rfl
    · refine Or.inr ⟨code, List.mem_append_right _ hmem, e, hcode, ?_⟩
      simp only [bind, Except.bind, hdefault, hlanguages]
  · refine Or.inr ⟨code, List.mem_append_left _ (by simpa using hmem), e, hcode, ?_⟩
    simp only [bind, Except.bind, hdefault]

/-- A run that gets a configuration has overridden the one that it started from. -/
theorem exists_overridden_of_resolve (h : resolve files workingDir o = .ok c) :
    ∃ base given, StartsFrom files workingDir o base given ∧
      Overridden workingDir base o given c := by
  obtain ⟨base, given, hstart⟩ | ⟨fault, _, hconfigured⟩ := starts_or_fails files workingDir o
  · refine ⟨base, given, hstart, ?_⟩
    obtain ⟨c', hresolve, _, hoverridden⟩ | ⟨_, _, e, _, hresolve⟩ := hstart.resolve_cases
    · rw [h] at hresolve
      cases hresolve
      exact hoverridden
    · rw [h] at hresolve
      cases hresolve
  · unfold resolve at h
    rw [hconfigured] at h
    cases h

/-- A run either has a configuration to start from, and then only a language code of the command
line can stop it, or it says why it has none. The check of the configuration in the end refuses
nothing: what overrides make of a usable configuration is usable. -/
theorem resolve_total (files : Directory) (workingDir : String) (o : Overrides) :
    ((∃ base given, StartsFrom files workingDir o base given ∧
        ((∀ code ∈ o.defaultLanguage.toList ++ o.languages, LanguageTag.check code = .ok ()) →
          ∃ c, resolve files workingDir o = .ok c ∧ c.check = .ok () ∧
            Overridden workingDir base o given c) ∧
        ∀ fault, resolve files workingDir o = .error fault →
          ∃ code ∈ o.defaultLanguage.toList ++ o.languages, ∃ e,
            LanguageTag.check code = .error e ∧ fault = .invalidLanguage e) ∨
      ∃ fault, CannotStart files workingDir o fault ∧
        resolve files workingDir o = .error fault) ∧
    ∀ cause, resolve files workingDir o ≠ .error (.invalidConfig cause) := by
  obtain ⟨base, given, hstart⟩ | ⟨fault, hfault, hconfigured⟩ :=
    starts_or_fails files workingDir o
  · obtain ⟨c, hresolve, hc, hoverridden⟩ | ⟨code, hmem, e, hcode, hresolve⟩ := hstart.resolve_cases
    · rw [hresolve]
      refine ⟨Or.inl ⟨base, given, hstart, fun _ => ?_, fun fault hfault => ?_⟩, fun cause => ?_⟩
      · exact ⟨c, rfl, Config.check_eq_ok_iff.mpr hc, hoverridden⟩
      · cases hfault
      · rintro ⟨⟩
    · rw [hresolve]
      refine ⟨Or.inl ⟨base, given, hstart, fun hcodes => ?_, fun fault hfault => ?_⟩,
        fun cause => ?_⟩
      · rw [hcodes code hmem] at hcode
        cases hcode
      · cases hfault
        exact ⟨code, hmem, e, hcode, rfl⟩
      · rintro ⟨⟩
  · have hresolve : resolve files workingDir o = .error fault := by
      unfold resolve
      rw [hconfigured]
      rfl
    rw [hresolve]
    refine ⟨Or.inr ⟨fault, hfault, rfl⟩, fun cause => ?_⟩
    rintro ⟨⟩
    cases hfault

/-- A file in another directory; the command line has a directory and a new default language. -/
theorem resolve_total_web :
    let files : Directory := [("web", .directory [("catalint.toml", .file
      "source_dir = \"app\"\nlanguages = [\"en\", \"de\"]\nextension = \"yml\"\n".toUTF8)])]
    let o : Overrides :=
      { configFile := some "web/catalint.toml"
        catalogDir := some "i18n"
        defaultLanguage := some "uk" }
    ∃ c, resolve files "/" o = .ok c ∧ c.check = .ok () ∧
      (c.sourceDir, c.catalogDir, c.languages, c.extension) =
        ("/web/app", "/i18n", ["uk", "en", "de"], "yml") := by
  intro files o
  have hfields : (resolve files "/" o).toOption.map
      (fun c => (c.sourceDir, c.catalogDir, c.languages, c.extension)) =
        some ("/web/app", "/i18n", ["uk", "en", "de"], "yml") := by decide +kernel
  have hcode : LanguageTag.check "uk" = .ok () := by rfl
  obtain ⟨⟨_, _, _, hcodes, _⟩ | ⟨fault, _, hfault⟩, _⟩ := resolve_total files "/" o
  · obtain ⟨c, hresolve, hcheck, _⟩ := hcodes (List.forall_mem_singleton.mpr hcode)
    rw [hresolve] at hfields
    exact ⟨c, hresolve, hcheck, Option.some.inj hfields⟩
  · rw [hfault] at hfields
    cases hfields

end LocaleAudit.Settings
