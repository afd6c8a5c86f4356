import LocaleAudit.Proofs.CommandLine.Settings
import LocaleAudit.Proofs.ExportTable.Writing
import LocaleAudit.Proofs.Sync.Growth

namespace LocaleAudit

/-!
# The languages of a run

The default language stands in front and nowhere else. Behind it come the languages that have a
directory, each once, or those that are configured, each as often as it is listed. A language that
is listed twice has two columns in an exported table, and its documents are reconciled twice.
-/

/-- The namespace and the language that an outcome is about. -/
def ReconcileOutcome.place (o : ReconcileOutcome) : String × String :=
  (o.nameSpace, o.language)

namespace Project

variable {p : Project} {files : Directory} {languages namespaces names : List String}
  {dryRun : Bool} {state state' state'' : SyncState} {places places' : List (String × String)}

/-! ## Which languages there are -/

/-- The languages of a run, the default one in front and nowhere else. -/
structure Lineup (p : Project) (files : Directory) (languages : List String) : Prop where
  default_first : languages = p.config.defaultLanguage :: p.otherLanguages languages
  configured : p.config.languages ≠ [] →
    p.otherLanguages languages = p.otherLanguages p.config.languages
  discovered : p.config.languages = [] → (p.otherLanguages languages).Nodup ∧
    ∃ entries, files.readDirectory p.store.root = .ok entries ∧
      ∀ code, code ∈ p.otherLanguages languages ↔ code ≠ p.config.defaultLanguage ∧
        LanguageTag.check code = .ok () ∧ ∃ d, (code, Node.directory d) ∈ entries

theorem languages_of_candidates (h : p.candidateLanguages files = .ok names) :
    p.languages files = .ok (p.config.defaultLanguage :: p.otherLanguages names) := by
  rw [Project.languages, h]
  rfl

theorem otherLanguages_default_cons (p : Project) (names : List String) :
    p.otherLanguages (p.config.defaultLanguage :: p.otherLanguages names) =
      p.otherLanguages names := by
  simp [otherLanguages]

theorem lineup_of_configured (h : p.config.languages ≠ []) :
    ∃ languages, p.languages files = .ok languages ∧ p.Lineup files languages := by
  have hcandidates : p.candidateLanguages files = .ok p.config.languages := by
    rw [candidateLanguages, if_neg (by simpa using h)]
  refine ⟨_, languages_of_candidates hcandidates, ?_⟩
  constructor
  · rw [otherLanguages_default_cons]
  · intro _
    rw [otherLanguages_default_cons]
  · exact fun hnone => absurd hnone h

/-- The directories that are named for languages. -/
def languageDirectories (entries : Directory) : List String :=
  (Store.sorted (entries.filterMap Store.languageOf?)).filter
    fun name => (LanguageTag.check name).toBool

theorem mem_languageDirectories {entries : Directory} {code : String} :
    code ∈ languageDirectories entries ↔
      LanguageTag.check code = .ok () ∧ ∃ d, (code, Node.directory d) ∈ entries := by
  have hvalid : (LanguageTag.check code).toBool = true ↔ LanguageTag.check code = .ok () := by
    cases LanguageTag.check code with
    | ok => exact iff_of_true rfl rfl
    | error e => exact iff_of_false Bool.false_ne_true nofun
  rw [languageDirectories, List.mem_filter, Store.mem_sorted, List.mem_filterMap, hvalid, and_comm]
  refine and_congr_right fun hcheck => ?_
  constructor
  · rintro ⟨⟨name, node⟩, hentry, hname⟩
    obtain ⟨rfl, _, d, rfl⟩ := Store.languageOf?_eq_some_iff.mp hname
    exact ⟨d, hentry⟩
  · rintro ⟨d, hentry⟩
    have hname := Store.languageOf?_eq_some_iff.mpr
      ⟨rfl, LanguageTag.no_dot_of_check hcheck, d, rfl⟩
    exact ⟨_, hentry, hname⟩

theorem lineup_of_discovered (hfiles : files.WellFormed) (h : p.config.languages = [])
    {entries : Directory} (hread : files.readDirectory p.store.root = .ok entries) :
    ∃ languages, p.languages files = .ok languages ∧ p.Lineup files languages := by
  have hcandidates : p.candidateLanguages files = .ok (languageDirectories entries) := by
    rw [candidateLanguages, if_pos (by simpa using h), Store.listLanguages, hread]
    rfl
  obtain ⟨place, _, hlookup⟩ := Directory.exists_lookup_of_readDirectory hread
  have hdistinct : (languageDirectories entries).Nodup :=
    (Store.nodup_languages (hfiles.lookup hlookup)).filter _
  refine ⟨_, languages_of_candidates hcandidates, ?_⟩
  constructor
  · rw [otherLanguages_default_cons]
  · exact fun hsome => absurd h hsome
  · intro _
    rw [otherLanguages_default_cons]
    refine ⟨hdistinct.filter _, entries, hread, fun code => ?_⟩
    rw [mem_otherLanguages, mem_languageDirectories, and_comm]

theorem exists_lineup (hfiles : files.WellFormed) (hroot : p.config.languages = [] →
      ∃ entries, files.readDirectory p.store.root = .ok entries) :
    ∃ languages, p.languages files = .ok languages ∧ p.Lineup files languages := by
  by_cases h : p.config.languages = []
  · obtain ⟨entries, hread⟩ := hroot h
    exact lineup_of_discovered hfiles h hread
  · exact lineup_of_configured h

/-- Only the configuration can name a language twice. -/
theorem Lineup.nodup_iff (h : p.Lineup files languages) :
    languages.Nodup ↔ (p.otherLanguages p.config.languages).Nodup := by
  have hfirst : p.config.defaultLanguage ∉ p.otherLanguages languages :=
    fun hmem => (mem_otherLanguages.mp hmem).2 rfl
  rw [h.default_first, List.nodup_cons, and_iff_right hfirst]
  by_cases hnone : p.config.languages = []
  · refine iff_of_true (h.discovered hnone).1 ?_
    rw [hnone]
    exact List.nodup_nil
  · rw [h.configured hnone]

/-! ## Exported columns -/

theorem languages_of_exportTable {t : ExportTable} {failures : Report}
    (h : p.exportTable files = .ok (t, failures)) : p.languages files = .ok t.languages := by
  obtain ⟨set, hset, h⟩ := Config.bind_eq_ok_iff.mp h
  have hfold : ∀ (names : List String) (t : ExportTable),
      (names.foldl (fun t nameSpace => t.addNamespace nameSpace (set.ofNamespace nameSpace))
        t).languages = t.languages := by
    intro names
    induction names with
    | nil => exact fun _ => rfl
    | cons name names ih => exact fun t => ih (t.addNamespace name _)
  cases h
  rw [hfold]
  exact (of_loadCatalogs hset).1

/-! ## Reconciled documents -/

/-- What happened between two states: reports were added, on some of the documents at these places,
in their order. -/
def ReportsAt (places : List (String × String)) (state state' : SyncState) : Prop :=
  ∃ added, state'.outcome.outcomes = state.outcome.outcomes ++ added ∧
    (added.map ReconcileOutcome.place).Sublist places

namespace ReportsAt

theorem of_eq (places : List (String × String))
    (h : state'.outcome.outcomes = state.outcome.outcomes) : ReportsAt places state state' :=
  ⟨[], by rw [h, List.append_nil], List.nil_sublist _⟩

theorem trans (h : ReportsAt places state state') (h' : ReportsAt places' state' state'') :
    ReportsAt (places ++ places') state state'' := by
  obtain ⟨added, heq, hadded⟩ := h
  obtain ⟨added', heq', hadded'⟩ := h'
  refine ⟨added ++ added', by rw [heq', heq, List.append_assoc], ?_⟩
  rw [List.map_append]
  exact hadded.append hadded'

/-- A run of steps reports at the places of each step in turn. -/
theorem foldl {α : Type} {step : SyncState → α → SyncState}
    {placesOf : α → List (String × String)}
    (hstep : ∀ state a, ReportsAt (placesOf a) state (step state a)) (l : List α)
    (state : SyncState) : ReportsAt (l.flatMap placesOf) state (l.foldl step state) := by
  induction l generalizing state with
  | nil => exact of_eq _ rfl
  | cons a l ih => exact (hstep state a).trans (ih _)

end ReportsAt

theorem outcomes_saveModified (p : Project) (dryRun : Bool) (state : SyncState) (c : Catalog)
    (o : ReconcileOutcome) :
    (p.saveModified dryRun state c o).outcome.outcomes = state.outcome.outcomes := by
  unfold saveModified
  split
  · split <;> rfl
  · rfl

theorem reportsAt_syncDocument (p : Project) (dryRun : Bool) (d : Catalog) (state : SyncState)
    (language : String) : ReportsAt [(d.nameSpace, language)] state
      (p.syncDocument dryRun d state language) := by
  unfold syncDocument
  split
  · exact .of_eq _ rfl
  · rename_i c hload
    have hnames := Store.readable_of_loadOrEmpty hload
    have hreport := Reconciliation.names_reconcile p.marker p.config.policy d c
    rw [hnames.language_eq, hnames.nameSpace_eq] at hreport
    refine ⟨[(Reconciliation.reconcile p.marker p.config.policy d c).2], ?_, ?_⟩
    · simp only [outcomes_saveModified]
    · rw [List.map_singleton, ReconcileOutcome.place, hreport.2.1, hreport.2.2]

theorem reportsAt_syncNamespace (p : Project) (dryRun : Bool) (languages : List String)
    (state : SyncState) (nameSpace : String) :
    ReportsAt ((p.otherLanguages languages).map fun language => (nameSpace, language)) state
      (p.syncNamespace dryRun languages state nameSpace) := by
  cases hload : p.store.load state.files p.config.defaultLanguage nameSpace with
  | error e =>
    rw [syncNamespace_of_error hload]
    exact .of_eq _ rfl
  | ok d =>
    obtain ⟨_, rfl, _⟩ := Store.load_eq hload
    rw [syncNamespace_of_ok hload, List.map_eq_flatMap]
    exact .foldl (fun state language => p.reportsAt_syncDocument dryRun d state language) _ _

/-- A run reports on documents of its namespaces and languages, one after the other. -/
theorem places_of_sync (hlanguages : p.languages files = .ok languages)
    (hnamespaces : p.namespaces files = .ok namespaces)
    (hsync : p.sync files dryRun = .ok state) :
    (state.outcome.outcomes.map ReconcileOutcome.place).Sublist
      (documents namespaces (p.otherLanguages languages)) := by
  rw [sync_of_listed hlanguages hnamespaces] at hsync
  cases hsync
  obtain ⟨added, heq, hadded⟩ := ReportsAt.foldl
    (fun state nameSpace => p.reportsAt_syncNamespace dryRun languages state nameSpace)
    namespaces ⟨SyncOutcome.empty, files⟩
  rw [heq]
  exact hadded

theorem count_documents_le (hnamespaces : namespaces.Nodup) (languages : List String)
    (document : String × String) :
    (documents namespaces languages).count document ≤ languages.count document.2 := by
  induction namespaces with
  | nil => exact Nat.zero_le _
  | cons nameSpace namespaces ih =>
    rw [List.nodup_cons] at hnamespaces
    have hinjective : Function.Injective fun language : String => (nameSpace, language) :=
      fun _ _ heq => (Prod.mk.inj heq).2
    obtain ⟨nameSpace', language⟩ := document
    rw [documents, List.flatMap_cons, List.count_append]
    by_cases hname : nameSpace' = nameSpace
    · subst hname
      have hlater : (documents namespaces languages).count (nameSpace', language) = 0 :=
        List.count_eq_zero.mpr fun hmem => hnamespaces.1 (mem_documents.mp hmem).1
      rw [List.count_map_of_injective _ _ hinjective, ← documents, hlater, Nat.add_zero]
    · have hfirst : (languages.map fun language => (nameSpace, language)).count
          (nameSpace', language) = 0 := by
        refine List.count_eq_zero.mpr fun hmem => hname ?_
        obtain ⟨_, _, heq⟩ := List.mem_map.mp hmem
        exact (Prod.mk.inj heq).1.symm
      rw [hfirst, Nat.zero_add]
      exact ih hnamespaces.2

/-- No document is reported on more often than its language is listed. -/
theorem count_places_le (hfiles : files.WellFormed) (hlanguages : p.languages files = .ok languages)
    (hsync : p.sync files dryRun = .ok state) (document : String × String) :
    (state.outcome.outcomes.map ReconcileOutcome.place).count document ≤
      languages.count document.2 := by
  obtain ⟨_, namespaces, _, hnamespaces⟩ := exists_of_sync hsync
  have hdistinct : namespaces.Nodup :=
    Store.nodup_of_listNamespaces hfiles (listNamespaces_of_namespaces hnamespaces)
  calc
    (state.outcome.outcomes.map ReconcileOutcome.place).count document
        ≤ (documents namespaces (p.otherLanguages languages)).count document :=
      (places_of_sync hlanguages hnamespaces hsync).count_le _
    _ ≤ (p.otherLanguages languages).count document.2 := count_documents_le hdistinct _ _
    _ ≤ languages.count document.2 := List.filter_sublist.count_le _

/-! ## All together -/

/-- When the root can be listed there are languages, the default one in front. All of them are
distinct unless the configuration lists another one twice, and so are the columns of an exported
table. A run, dry or not, has at most one outcome for a namespace and each time that a language is
listed. The languages of the command line are used as they are given. -/
theorem languages_lineup (hfiles : files.WellFormed) (hroot : p.config.languages = [] →
      ∃ entries, files.readDirectory p.store.root = .ok entries) :
    ∃ languages, p.languages files = .ok languages ∧ p.Lineup files languages ∧
      (languages.Nodup ↔ (p.otherLanguages p.config.languages).Nodup) ∧
      (∀ t failures, p.exportTable files = .ok (t, failures) →
        t.languages = languages ∧ ∀ row ∈ t.rows, row.cells.length = languages.length) ∧
      (∀ dryRun state, p.sync files dryRun = .ok state → ∀ nameSpace language,
        (state.outcome.outcomes.map ReconcileOutcome.place).count (nameSpace, language) ≤
          languages.count language) ∧
      ∀ files' workingDir o, Settings.resolve files' workingDir o = .ok p.config →
        o.languages ≠ [] →
          p.otherLanguages p.config.languages = p.otherLanguages o.languages := by
  obtain ⟨languages, hlanguages, hlineup⟩ := exists_lineup hfiles hroot
  refine ⟨languages, hlanguages, hlineup, hlineup.nodup_iff, ?_, ?_, ?_⟩
  · intro t failures ht
    have hcolumns : t.languages = languages :=
      Except.ok.inj ((languages_of_exportTable ht).symm.trans hlanguages)
    exact ⟨hcolumns, hcolumns ▸ (built_of_exportTable ht).width⟩
  · intro dryRun state hsync nameSpace language
    exact count_places_le hfiles hlanguages hsync (nameSpace, language)
  · intro files' workingDir o hresolve hnamed
    obtain ⟨base, given, _, hoverridden⟩ := Settings.exists_overridden_of_resolve hresolve
    have hlisted := hoverridden.languages_eq
    rw [if_neg (by simpa using hnamed)] at hlisted
    rw [otherLanguages, hlisted, Settings.filter_joined]
    rfl

/-- Two languages with a directory, and no configured ones. -/
theorem languages_lineup_notice :
    let p := listing "en" []
    noticeFiles.WellFormed ∧ ∃ languages, p.languages noticeFiles = .ok languages ∧
      languages.Nodup ∧ "de" ∈ languages := by
  intro p
  have hfiles : noticeFiles.WellFormed := by decide
  obtain ⟨entries, hentries, hde⟩ : ∃ entries, noticeFiles.readDirectory "/locales" = .ok entries ∧
      ∃ d, ("de", Node.directory d) ∈ entries :=
    Exists.intro _ (And.intro (by rfl) ⟨_, List.mem_cons_self⟩)
  obtain ⟨languages, hlanguages, hlineup, hnodup, _⟩ :=
    languages_lineup (p := p) hfiles fun _ => ⟨entries, hentries⟩
  refine ⟨hfiles, languages, hlanguages, hnodup.mpr (by decide), ?_⟩
  obtain ⟨_, listed, hread, hdiscovered⟩ := hlineup.discovered rfl
  obtain rfl : entries = listed := Except.ok.inj (hentries.symm.trans hread)
  exact (mem_otherLanguages.mp ((hdiscovered "de").mpr ⟨by decide, by rfl, hde⟩)).1

/-- A language that is listed twice, in a configuration or on the command line, is reconciled twice
and has two columns. -/
theorem repeated_of_listed_twice :
    let p := listing "en" ["en", "de", "de"]
    ofConfig p.config = .ok p ∧ noticeFiles.WellFormed ∧
      p.languages noticeFiles = .ok ["en", "de", "de"] ∧ ¬["en", "de", "de"].Nodup ∧
      (∃ t failures, p.exportTable noticeFiles = .ok (t, failures) ∧
        t.languages = ["en", "de", "de"]) ∧
      (∃ state, p.sync noticeFiles false = .ok state ∧
        state.outcome.outcomes.map ReconcileOutcome.place = [("app", "de"), ("app", "de")]) ∧
      ∃ c, Settings.resolve [] "/" { languages := ["de", "de"] } = .ok c ∧
        c.languages = ["en", "de", "de"] := by
  intro p
  obtain ⟨state, hsync, hplaces⟩ : ∃ state, p.sync noticeFiles false = .ok state ∧
      state.outcome.outcomes.map ReconcileOutcome.place = [("app", "de"), ("app", "de")] :=
    exists_sync_of_map (by decide +kernel)
  have hlanguages : p.languages noticeFiles = .ok ["en", "de", "de"] := by rfl
  refine ⟨ofConfig_listing (by rfl), by decide, hlanguages, by decide, ?_,
    ⟨state, hsync, hplaces⟩, ?_⟩
  · obtain ⟨set, hset⟩ := exists_loadCatalogs (.refl _) hsync
    have hexport : ∃ t, p.exportTable noticeFiles = .ok (t, set.failures) := by
      unfold exportTable
      rw [hset]
      exact ⟨_, rfl⟩
    obtain ⟨t, ht⟩ := hexport
    have hcolumns := (languages_of_exportTable ht).symm.trans hlanguages
    exact ⟨t, set.failures, ht, Except.ok.inj hcolumns⟩
  · have hflags : (Settings.resolve [] "/" { languages := ["de", "de"] }).toOption.map
        (·.languages) = some ["en", "de", "de"] := by decide +kernel
    cases hresolve : Settings.resolve [] "/" { languages := ["de", "de"] } with
    | error fault =>
      rw [hresolve] at hflags
      cases hflags
    | ok c =>
      rw [hresolve] at hflags
      exact ⟨c, rfl, Option.some.inj hflags⟩

end Project

end LocaleAudit
