import LocaleAudit.Proofs.Sync.Run

namespace LocaleAudit.Project

/-!
# A run loses nothing

Wherever the documents of a run lie, the run makes directories and writes files, and takes nothing
away. What could be listed before can be listed after it. A dry run does not even do that.
-/

open Directory (Grows)

variable {p : Project} {files files' : Directory} {state : SyncState} {dryRun : Bool}

theorem grows_saveModified (p : Project) (dryRun : Bool) (state : SyncState) (c : Catalog)
    (r : ReconcileOutcome) : Grows state.files (p.saveModified dryRun state c r).files := by
  unfold saveModified
  split
  · have hsave := p.store.grows_save state.files c
    split
    · rename_i files' hfiles
      rwa [hfiles] at hsave
    · rename_i files' e hfiles
      rwa [hfiles] at hsave
  · exact .refl _

theorem grows_syncDocument (p : Project) (dryRun : Bool) (d : Catalog) (state : SyncState)
    (language : String) : Grows state.files (p.syncDocument dryRun d state language).files := by
  unfold syncDocument
  split
  · exact .refl _
  · exact p.grows_saveModified dryRun state _ _

/-! ## Runs -/

/-- What every visit to a document keeps is kept at a whole namespace. -/
theorem syncNamespace_induction {motive : Directory → Prop}
    (visit : ∀ (d : Catalog) (state : SyncState) (language : String), motive state.files →
      motive (p.syncDocument dryRun d state language).files)
    (languages : List String) (nameSpace : String) (hstate : motive state.files) :
    motive (p.syncNamespace dryRun languages state nameSpace).files := by
  unfold syncNamespace
  simp only
  split
  · exact hstate
  · refine List.foldlRecOn (motive := fun s : SyncState => motive s.files) _ _ hstate ?_
    exact fun s hs language _ => visit _ s language hs

/-- What every visit to a document keeps is kept by a whole run. -/
theorem sync_induction {motive : Directory → Prop}
    (visit : ∀ (d : Catalog) (state : SyncState) (language : String), motive state.files →
      motive (p.syncDocument dryRun d state language).files)
    (hfiles : motive files) (h : p.sync files dryRun = .ok state) : motive state.files := by
  obtain ⟨languages, namespaces, hlanguages, hnamespaces⟩ := exists_of_sync h
  rw [sync_of_listed hlanguages hnamespaces] at h
  cases h
  refine List.foldlRecOn (motive := fun s : SyncState => motive s.files) _ _ hfiles ?_
  exact fun s hs nameSpace _ => syncNamespace_induction visit languages nameSpace hs

theorem grows_syncNamespace (p : Project) (dryRun : Bool) (languages : List String)
    (state : SyncState) (nameSpace : String) :
    Grows state.files (p.syncNamespace dryRun languages state nameSpace).files := by
  apply syncNamespace_induction _ languages nameSpace (.refl state.files)
  exact fun d s language hs => hs.trans (p.grows_syncDocument dryRun d s language)

theorem grows_sync (h : p.sync files dryRun = .ok state) : Grows files state.files := by
  apply sync_induction _ (.refl files) h
  exact fun d s language hs => hs.trans (p.grows_syncDocument dryRun d s language)

theorem files_syncDocument_dry (p : Project) (d : Catalog) (state : SyncState)
    (language : String) : (p.syncDocument true d state language).files = state.files := by
  unfold syncDocument
  split
  · rfl
  · simp [saveModified]

/-- A dry run leaves the files as they are. -/
theorem files_sync_dry (h : p.sync files true = .ok state) : state.files = files := by
  apply sync_induction (motive := fun after => after = files) _ rfl h
  exact fun d s language hs => (p.files_syncDocument_dry d s language).trans hs

/-! ## What can be listed -/

open Directory in
theorem exists_readDirectory {base : String} {d : Directory} (h : Grows files files')
    (hread : readDirectory files base = .ok d) : ∃ d', readDirectory files' base = .ok d' := by
  obtain ⟨place, hplace, _⟩ := exists_lookup_of_readDirectory hread
  exact ⟨_, (hplace.mono h.hasDirectory).readDirectory⟩

theorem exists_languages (h : Grows files files') {languages : List String}
    (hlanguages : p.languages files = .ok languages) :
    ∃ languages', p.languages files' = .ok languages' := by
  unfold Project.languages candidateLanguages Store.listLanguages at hlanguages ⊢
  split at hlanguages
  · rename_i hempty
    rw [if_pos hempty]
    cases hread : files.readDirectory p.store.root with
    | error fault =>
      rw [hread] at hlanguages
      cases hlanguages
    | ok d =>
      obtain ⟨d', hread'⟩ := exists_readDirectory h hread
      rw [hread']
      exact ⟨_, rfl⟩
  · rename_i hlisted
    rw [if_neg hlisted]
    exact ⟨_, rfl⟩

theorem exists_namespaces (h : Grows files files') {namespaces : List String}
    (hnamespaces : p.namespaces files = .ok namespaces) :
    ∃ namespaces', p.namespaces files' = .ok namespaces' := by
  have hlist := listNamespaces_of_namespaces hnamespaces
  unfold Store.listNamespaces at hlist
  cases hread : files.readDirectory (Path.join p.store.root p.config.defaultLanguage) with
  | error fault =>
    rw [hread] at hlist
    cases hlist
  | ok d =>
    obtain ⟨d', hread'⟩ := exists_readDirectory h hread
    unfold Project.namespaces Store.listNamespaces
    rw [hread']
    exact ⟨_, rfl⟩

theorem exists_loadCatalogs (h : Grows files files') (hsync : p.sync files dryRun = .ok state) :
    ∃ set, p.loadCatalogs files' = .ok set := by
  obtain ⟨languages, namespaces, hlanguages, hnamespaces⟩ := exists_of_sync hsync
  obtain ⟨languages', hlanguages'⟩ := exists_languages h hlanguages
  obtain ⟨namespaces', hnamespaces'⟩ := exists_namespaces h hnamespaces
  exact ⟨_, loadCatalogs_eq hlanguages' hnamespaces'⟩

end LocaleAudit.Project
