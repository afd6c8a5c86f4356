import LocaleAudit.Proofs.Sync.Growth

namespace LocaleAudit.Project

/-!
# Documents after a run

A run that fails nowhere leaves the documents of all its languages there to be loaded. A document
that something is added to is saved, and what is saved can be loaded. Only a missing document to
which nothing is added stays missing: its default catalog has no leaves.
-/

open Directory (Grows Place HasDirectory fileAt)
open Json (Number)

variable {p : Project} {files files' files'' : Directory} {nameSpace language : String}
  {namespaces namespaces' languages : List String} {state : SyncState} {c d : Catalog}
  {r : ReconcileOutcome}

/-- A document that can be loaded. -/
def Loads (p : Project) (files : Directory) (document : String × String) : Prop :=
  ∃ c, p.store.load files document.2 document.1 = .ok c

/-- A missing document of another language, for which the default catalog has no leaves. -/
structure Hollow (p : Project) (files : Directory) (document : String × String) : Prop where
  language_ne : document.2 ≠ p.config.defaultLanguage
  missing : files.readBytes (p.store.pathFor document.2 document.1) = .error .notFound
  leafless : ∃ d, p.store.load files p.config.defaultLanguage document.1 = .ok d ∧
    d.leafPaths = []

/-- A document that a run leaves missing: the run makes and changes no file of its name, whatever
directories its language leads through. -/
structure Uncreated (p : Project) (files files' : Directory) (document : String × String) :
    Prop where
  kept : ∀ above, fileAt (above ++ [p.store.fileName document.1]) files' =
    fileAt (above ++ [p.store.fileName document.1]) files
  /-- With `/` in a code, a directory that the run makes can lead to a file that was there. -/
  missing : p.Plain files →
    files'.readBytes (p.store.pathFor document.2 document.1) = .error .notFound

/-- What a run does to the files while it is at some namespaces. -/
structure Advances (p : Project) (namespaces : List String) (files files' : Directory) : Prop
    extends Grows files files' where
  wellFormed : files.WellFormed → files'.WellFormed
  /-- Only files that are named for these namespaces are written. -/
  kept : ∀ above nameSpace, nameSpace ∉ namespaces →
    fileAt (above ++ [p.store.fileName nameSpace]) files' =
      fileAt (above ++ [p.store.fileName nameSpace]) files
  loads : ∀ document, p.Loads files document → p.Loads files' document
  languages_eq : p.languages files' = p.languages files

namespace Advances

theorem refl (p : Project) (namespaces : List String) (files : Directory) :
    p.Advances namespaces files files where
  toGrows := .refl files
  wellFormed := fun h => h
  kept := fun _ _ _ => rfl
  loads := fun _ h => h
  languages_eq := rfl

theorem trans (h : p.Advances namespaces files files') (h' : p.Advances namespaces files' files'') :
    p.Advances namespaces files files'' where
  toGrows := h.toGrows.trans h'.toGrows
  wellFormed := fun hfiles => h'.wellFormed (h.wellFormed hfiles)
  kept := fun above nameSpace hnot =>
    (h'.kept above nameSpace hnot).trans (h.kept above nameSpace hnot)
  loads := fun document hloads => h'.loads document (h.loads document hloads)
  languages_eq := h'.languages_eq.trans h.languages_eq

theorem mono (h : p.Advances namespaces files files') (hmore : namespaces ⊆ namespaces') :
    p.Advances namespaces' files files' where
  toGrows := h.toGrows
  wellFormed := h.wellFormed
  kept := fun above nameSpace hnot => h.kept above nameSpace fun hmem => hnot (hmore hmem)
  loads := h.loads
  languages_eq := h.languages_eq

/-- A document of another namespace keeps its bytes. -/
theorem readBytes_eq (h : p.Advances namespaces files files')
    (hname : IsName (p.store.fileName nameSpace)) (hnot : nameSpace ∉ namespaces)
    {bytes : ByteArray} (hread : files.readBytes (p.store.pathFor language nameSpace) = .ok bytes) :
    files'.readBytes (p.store.pathFor language nameSpace) = .ok bytes := by
  obtain ⟨names, hlocate, hfile⟩ := Directory.readBytes_eq_ok_iff_fileAt.mp hread
  obtain ⟨above, _, rfl⟩ := Directory.exists_place_of_locate hname hlocate
  apply Directory.readBytes_eq_ok_iff_fileAt.mpr
  exact ⟨_, h.locate_eq hlocate, (h.kept above nameSpace hnot).trans hfile⟩

end Advances

/-! ## Saving -/

/-- Unless the configuration lists languages, the language has a directory. -/
def Housed (p : Project) (files : Directory) (language : String) : Prop :=
  p.config.languages.isEmpty = true → ∃ place, Place files p.store.root place ∧
    IsName language ∧ HasDirectory (place ++ [language]) files

theorem Housed.mono (hgrows : Grows files files') (h : p.Housed files language) :
    p.Housed files' language := by
  intro hlisted
  obtain ⟨place, hplace, hlanguage, hdirectory⟩ := h hlisted
  exact ⟨place, hplace.mono hgrows.hasDirectory, hlanguage, hgrows.hasDirectory _ hdirectory⟩

/-- The languages of a run are listed or have directories. -/
theorem housed_of_mem_languages (hfiles : files.WellFormed)
    (hlanguages : p.languages files = .ok languages) (hmem : language ∈ languages)
    (hother : language ≠ p.config.defaultLanguage) : p.Housed files language := by
  intro hlisted
  have hroot : ∃ siblings, files.readDirectory p.store.root = .ok siblings := by
    cases hread : files.readDirectory p.store.root with
    | ok siblings => exact ⟨siblings, rfl⟩
    | error fault =>
      rw [Project.languages, candidateLanguages, if_pos hlisted, Store.listLanguages, hread]
        at hlanguages
      cases hlanguages
  obtain ⟨siblings, hread⟩ := hroot
  obtain ⟨place, hplace, hsiblings⟩ := Directory.exists_lookup_of_readDirectory hread
  obtain ⟨entries, hentries⟩ :=
    hasDirectory_of_listed hplace hfiles hlanguages hlisted hmem hother
  refine ⟨place, hplace, ?_, entries, hentries⟩
  rw [Directory.lookup_concat hsiblings] at hentries
  cases hfiles.lookup hsiblings with
  | directory hnames _ _ => exact hnames _ (Entries.mem_of_get? hentries)

/-- A saved document of a language that was found makes no other language to be found. -/
theorem languages_of_save (hname : IsName (p.store.fileName c.nameSpace))
    (hhoused : p.Housed files c.language)
    (hread : (∃ bytes, files.readBytes (p.store.pathFor c.language c.nameSpace) = .ok bytes) ∨
      files.readBytes (p.store.pathFor c.language c.nameSpace) = .error .notFound)
    (hsave : p.store.save files c = (files', .ok ())) :
    p.languages files' = p.languages files := by
  by_cases hlisted : p.config.languages.isEmpty = true
  · obtain ⟨place, hplace, hlanguage, hdirectory⟩ := hhoused hlisted
    obtain ⟨_, hsaved, hstored⟩ := Store.exists_save hplace c hlanguage hname hread
    rw [hsaved] at hsave
    cases hsave
    exact languages_of_stored hplace hstored fun _ => hdirectory
  · rw [Project.languages, candidateLanguages, if_neg hlisted, Project.languages,
      candidateLanguages, if_neg hlisted]

/-- A document that is saved can be loaded, and so can those that could be before, even one that
lies at the same place. -/
theorem advances_save (hname : IsName (p.store.fileName c.nameSpace))
    (hwritable : Catalog.Writable Number.Storable c.tree)
    (hlanguages : p.languages files' = p.languages files)
    (hsave : p.store.save files c = (files', .ok ())) :
    p.Advances [c.nameSpace] files files' ∧ p.Loads files' (c.nameSpace, c.language) := by
  obtain ⟨_, e, hfailed, _⟩ | ⟨_, names, hsaved, hwrites, hlocate, hfile⟩ :=
    p.store.save_cases files c
  · rw [hfailed] at hsave
    cases hsave
  rw [hsaved] at hsave
  cases hsave
  have hrendered : ∀ document : String × String,
      files'.locate (p.store.pathFor document.2 document.1) = .ok names →
        p.Loads files' document := by
    intro document hthere
    apply Store.exists_load_of_rendered hwritable
    exact Directory.readBytes_eq_ok_iff_fileAt.mpr ⟨names, hthere, hfile⟩
  refine ⟨{
    toGrows := hwrites.toGrows
    wellFormed := hwrites.wellFormed
    kept := ?_
    loads := ?_
    languages_eq := hlanguages }, hrendered (c.nameSpace, c.language) hlocate⟩
  · intro above nameSpace hnot
    apply hwrites.fileAt_eq
    rw [List.mem_singleton]
    rintro rfl
    obtain ⟨place, _, hplace⟩ := Directory.exists_place_of_locate hname hlocate
    have hsame : p.store.fileName nameSpace = p.store.fileName c.nameSpace := by
      simpa using (List.append_inj' hplace rfl).2
    exact hnot (List.mem_singleton.mpr (Store.fileName_injective hsame))
  · rintro document ⟨c', hload⟩
    obtain ⟨bytes, _, hbytes, _⟩ := Store.exists_readBytes_of_load hload
    obtain ⟨there, hthere, _⟩ := Directory.readBytes_eq_ok_iff_fileAt.mp hbytes
    by_cases hsame : there = names
    · -- Whatever document lay there, there is one again.
      exact hrendered document (hsame ▸ hwrites.locate_eq hthere)
    · refine ⟨c', (Store.load_congr ?_).trans hload⟩
      rw [hbytes]
      apply hwrites.readBytes_eq hbytes
      intro names' hnames'
      rw [hthere] at hnames'
      cases hnames'
      simpa using hsame

/-! ## Visits -/

theorem saveModified_clean (hc : c.Readable nameSpace language)
    (hname : IsName (p.store.fileName nameSpace)) (hhoused : p.Housed state.files language)
    (hread : (∃ bytes, state.files.readBytes (p.store.pathFor language nameSpace) = .ok bytes) ∨
      state.files.readBytes (p.store.pathFor language nameSpace) = .error .notFound)
    (hmodified : r.isModified = true)
    (hclean : (p.saveModified false state c r).outcome.failures.findings = []) :
    state.outcome.failures.findings = [] ∧
      p.Advances [nameSpace] state.files (p.saveModified false state c r).files ∧
      p.Loads (p.saveModified false state c r).files (nameSpace, language) := by
  obtain rfl := hc.language_eq
  obtain rfl := hc.nameSpace_eq
  cases hsave : p.store.save state.files c with
  | mk files' result =>
    cases result with
    | error e =>
      have hfailed : (p.saveModified false state c r).outcome =
          state.outcome.fail (p.fileFinding c.language c.nameSpace e) := by
        rw [saveModified, hmodified, hsave]
        rfl
      rw [hfailed] at hclean
      exact absurd hclean (Report.findings_push_ne_nil _ _)
    | ok =>
      rw [saveModified_of_save hmodified hsave] at hclean ⊢
      have hlanguages := languages_of_save hname hhoused hread hsave
      exact ⟨hclean, advances_save hname hc.writable hlanguages hsave⟩

theorem syncDocument_of_error (dryRun : Bool) {e : Error}
    (h : p.store.loadOrEmpty state.files language d.nameSpace = .error e) :
    p.syncDocument dryRun d state language =
      ⟨state.outcome.fail (p.fileFinding language d.nameSpace e), state.files⟩ := by
  unfold syncDocument
  simp only [h]

theorem syncDocument_of_ok (dryRun : Bool) {target : Catalog}
    (h : p.store.loadOrEmpty state.files language d.nameSpace = .ok target)
    (hresult : Reconciliation.reconcile p.marker p.config.policy d target = (c, r)) :
    ∃ outcomes, p.syncDocument dryRun d state language =
      ⟨{ (p.saveModified dryRun state c r).outcome with outcomes },
        (p.saveModified dryRun state c r).files⟩ := by
  unfold syncDocument
  simp only [h, hresult]
  exact ⟨_, rfl⟩

/-- A visit that fails nowhere leaves its document to be loaded, unless it is missing and the
default catalog has no leaves. -/
theorem syncDocument_clean (hd : d.Readable nameSpace p.config.defaultLanguage)
    (hname : IsName (p.store.fileName nameSpace)) (hother : language ≠ p.config.defaultLanguage)
    (hhoused : p.Housed state.files language)
    (hclean : (p.syncDocument false d state language).outcome.failures.findings = []) :
    state.outcome.failures.findings = [] ∧
      p.Advances [nameSpace] state.files (p.syncDocument false d state language).files ∧
      (p.Loads (p.syncDocument false d state language).files (nameSpace, language) ∨
        state.files.readBytes (p.store.pathFor language nameSpace) = .error .notFound ∧
          d.leafPaths = []) := by
  obtain rfl := hd.nameSpace_eq
  cases htarget : p.store.loadOrEmpty state.files language d.nameSpace with
  | error e =>
    rw [syncDocument_of_error false htarget] at hclean
    exact absurd hclean (Report.findings_push_ne_nil _ _)
  | ok target =>
    have ht := Store.readable_of_loadOrEmpty htarget
    have hreconciled := hd.reconcile p.marker p.config.policy ht hother
    cases hresult : Reconciliation.reconcile p.marker p.config.policy d target with
    | mk c r =>
      rw [hresult] at hreconciled
      obtain ⟨outcomes, hvisit⟩ := syncDocument_of_ok false htarget hresult
      rw [hvisit] at hclean ⊢
      cases hmodified : r.isModified with
      | true =>
        obtain ⟨hbefore, hadvances, hloads⟩ := saveModified_clean hreconciled hname hhoused
          (Store.readBytes_of_loadOrEmpty htarget) hmodified hclean
        exact ⟨hbefore, hadvances, Or.inl hloads⟩
      | false =>
        rw [saveModified_of_not_modified hmodified] at hclean ⊢
        refine ⟨hclean, .refl p _ _, ?_⟩
        rcases Store.loadOrEmpty_cases htarget with hload | ⟨hmissing, rfl⟩
        · exact Or.inl ⟨target, hload⟩
        · have hlanguage : d.language ≠ language := by
            rw [hd.language_eq]
            exact Ne.symm hother
          have hadded := Reconciliation.added_reconcile_empty p.marker p.config.policy
            hd.wellFormed hlanguage d.nameSpace
          rw [hresult] at hadded
          refine Or.inr ⟨hmissing, ?_⟩
          rw [← hadded]
          simpa [ReconcileOutcome.isModified] using hmodified

/-- Visits to documents of one namespace, by induction on the languages that are left. -/
theorem foldl_syncDocument_clean (hd : d.Readable nameSpace p.config.defaultLanguage)
    (hname : IsName (p.store.fileName nameSpace)) {rest : List String}
    (hother : ∀ language ∈ rest, language ≠ p.config.defaultLanguage)
    (hhoused : ∀ language ∈ rest, p.Housed state.files language)
    (hclean : (rest.foldl (p.syncDocument false d) state).outcome.failures.findings = []) :
    state.outcome.failures.findings = [] ∧
      p.Advances [nameSpace] state.files (rest.foldl (p.syncDocument false d) state).files ∧
      ∀ language ∈ rest,
        p.Loads (rest.foldl (p.syncDocument false d) state).files (nameSpace, language) ∨
          state.files.readBytes (p.store.pathFor language nameSpace) = .error .notFound ∧
            d.leafPaths = [] := by
  induction rest generalizing state with
  | nil => exact ⟨hclean, .refl p _ _, by simp⟩
  | cons language rest ih =>
    rw [List.forall_mem_cons] at hother hhoused
    have hgrows := p.grows_syncDocument false d state language
    -- Failures are never taken back, so the later visits say that the first one was clean.
    obtain ⟨hnext, hrest, hloads⟩ :=
      ih hother.2 (fun other hmem => (hhoused.2 other hmem).mono hgrows) hclean
    obtain ⟨hbefore, hfirst, hvisited⟩ :=
      syncDocument_clean hd hname hother.1 hhoused.1 hnext
    refine ⟨hbefore, hfirst.trans hrest, List.forall_mem_cons.mpr ⟨?_, fun other hmem => ?_⟩⟩
    · exact hvisited.imp_left (hrest.loads (nameSpace, language))
    · apply (hloads other hmem).imp_right
      rintro ⟨hmissing, hleafless⟩
      exact ⟨hgrows.missing_before hmissing, hleafless⟩

/-! ## Default catalogs without leaves -/

/-- A namespace whose default catalog has no leaves. -/
def Leafless (p : Project) (files : Directory) (nameSpace : String) : Prop :=
  ∃ d, p.store.load files p.config.defaultLanguage nameSpace = .ok d ∧ d.leafPaths = []

theorem files_syncDocument_leafless (p : Project) (dryRun : Bool) (state : SyncState)
    (language : String) (hleafless : d.leafPaths = []) :
    (p.syncDocument dryRun d state language).files = state.files := by
  cases htarget : p.store.loadOrEmpty state.files language d.nameSpace with
  | error e => rw [syncDocument_of_error dryRun htarget]
  | ok target =>
    have hmodified := Reconciliation.isModified_reconcile_leafless p.marker p.config.policy target
      hleafless
    cases hresult : Reconciliation.reconcile p.marker p.config.policy d target with
    | mk c r =>
      rw [hresult] at hmodified
      obtain ⟨outcomes, hvisit⟩ := syncDocument_of_ok dryRun htarget hresult
      rw [hvisit, saveModified_of_not_modified hmodified]

theorem files_syncNamespace_leafless (dryRun : Bool) (h : p.Leafless state.files nameSpace) :
    (p.syncNamespace dryRun languages state nameSpace).files = state.files := by
  obtain ⟨d, hload, hleafless⟩ := h
  rw [syncNamespace_of_ok hload]
  generalize p.otherLanguages languages = rest
  induction rest generalizing state with
  | nil => rfl
  | cons language rest ih =>
    have hfirst := p.files_syncDocument_leafless dryRun state language hleafless
    rw [List.foldl_cons, ih (hfirst.symm ▸ hload), hfirst]

/-- Nothing is saved for a namespace whose default catalog has no leaves. -/
theorem rewrite?_of_leafless (h : p.Leafless files nameSpace) :
    p.rewrite? files (nameSpace, language) = none := by
  obtain ⟨d, hload, hleafless⟩ := h
  cases hplan : p.plan files (nameSpace, language) with
  | error e => exact rewrite?_of_error hplan
  | ok planned =>
    obtain ⟨c, r⟩ := planned
    obtain ⟨default, target, hplanned⟩ := plan_eq_ok_iff.mp hplan
    obtain rfl := Except.ok.inj (hload.symm.trans hplanned.default_eq)
    have hmodified := Reconciliation.isModified_reconcile_leafless p.marker p.config.policy target
      hleafless
    rw [hplanned.result_eq] at hmodified
    rw [rewrite?_of_plan hplan, hmodified]
    rfl

/-! ## Runs -/

/-- What a part of a run that fails nowhere does for the documents of some namespaces. -/
structure Completes (p : Project) (languages namespaces : List String) (state state' : SyncState) :
    Prop where
  clean : state.outcome.failures.findings = []
  advances : p.Advances namespaces state.files state'.files
  kept : ∀ nameSpace ∈ namespaces, p.Leafless state.files nameSpace → ∀ above,
    fileAt (above ++ [p.store.fileName nameSpace]) state'.files =
      fileAt (above ++ [p.store.fileName nameSpace]) state.files
  loads : ∀ document ∈ documents namespaces languages,
    p.Loads state'.files document ∨ p.Hollow state.files document

theorem syncNamespace_completes (hname : IsName (p.store.fileName nameSpace))
    (hhoused : ∀ language ∈ p.otherLanguages languages, p.Housed state.files language)
    (hclean : (p.syncNamespace false languages state nameSpace).outcome.failures.findings = []) :
    p.Completes languages [nameSpace] state (p.syncNamespace false languages state nameSpace) := by
  cases hload : p.store.load state.files p.config.defaultLanguage nameSpace with
  | error e =>
    rw [syncNamespace_of_error hload] at hclean
    exact absurd hclean (Report.findings_push_ne_nil _ _)
  | ok d =>
    rw [syncNamespace_of_ok hload] at hclean ⊢
    have hother : ∀ language ∈ p.otherLanguages languages,
        language ≠ p.config.defaultLanguage := fun language hmem => (mem_otherLanguages.mp hmem).2
    obtain ⟨hbefore, hadvances, hloads⟩ :=
      foldl_syncDocument_clean (Store.readable_of_load hload) hname hother hhoused hclean
    refine ⟨hbefore, hadvances, ?_, ?_⟩
    · intro nameSpace' hmem hleafless above
      obtain rfl := List.mem_singleton.mp hmem
      rw [← syncNamespace_of_ok hload, files_syncNamespace_leafless false hleafless]
    · rintro ⟨nameSpace', language⟩ hmem
      obtain ⟨hnameSpace, hlanguage⟩ := mem_documents.mp hmem
      obtain rfl := List.mem_singleton.mp hnameSpace
      by_cases hdefault : language = p.config.defaultLanguage
      · rw [hdefault]
        exact Or.inl (hadvances.loads _ ⟨d, hload⟩)
      · apply (hloads language (mem_otherLanguages.mpr ⟨hlanguage, hdefault⟩)).imp_right
        rintro ⟨hmissing, hleafless⟩
        exact ⟨hdefault, hmissing, d, hload, hleafless⟩

/-- Visits to other namespaces leave the default document of a namespace as it is. -/
theorem Advances.leafless_iff (h : p.Advances namespaces files files')
    (hname : IsName (p.store.fileName nameSpace)) (hnot : nameSpace ∉ namespaces)
    {bytes : ByteArray}
    (hbytes : files.readBytes (p.store.pathFor p.config.defaultLanguage nameSpace) = .ok bytes) :
    p.Leafless files' nameSpace ↔ p.Leafless files nameSpace := by
  have hsame := (h.readBytes_eq hname hnot hbytes).trans hbytes.symm
  rw [Leafless, Store.load_congr hsame, Leafless]

/-- Documents that are hollow after other namespaces were visited were so before. -/
theorem Hollow.before {document : String × String} (h : p.Advances namespaces files files')
    (hname : IsName (p.store.fileName document.1)) (hnot : document.1 ∉ namespaces)
    {bytes : ByteArray}
    (hbytes : files.readBytes (p.store.pathFor p.config.defaultLanguage document.1) = .ok bytes)
    (hhollow : p.Hollow files' document) : p.Hollow files document where
  language_ne := hhollow.language_ne
  missing := h.missing_before hhollow.missing
  leafless := (h.leafless_iff hname hnot hbytes).mp hhollow.leafless

/-- Visits to namespaces, by induction on those that are left. Their default documents can be read,
so what is written for one namespace leaves those of the next ones alone. -/
theorem foldl_syncNamespace_completes {rest : List String} (hnodup : rest.Nodup)
    (hlisted : ∀ nameSpace ∈ rest, IsName (p.store.fileName nameSpace) ∧ ∃ bytes,
      state.files.readBytes (p.store.pathFor p.config.defaultLanguage nameSpace) = .ok bytes)
    (hhoused : ∀ language ∈ p.otherLanguages languages, p.Housed state.files language)
    (hclean : (rest.foldl (p.syncNamespace false languages) state).outcome.failures.findings = []) :
    p.Completes languages rest state (rest.foldl (p.syncNamespace false languages) state) := by
  induction rest generalizing state with
  | nil => exact ⟨hclean, .refl p _ _, by simp, by simp [documents]⟩
  | cons nameSpace rest ih =>
    rw [List.forall_mem_cons] at hlisted
    obtain ⟨hnew, hnodup⟩ := List.nodup_cons.mp hnodup
    have hgrows := p.grows_syncNamespace false languages state nameSpace
    have hrest : p.Completes languages rest (p.syncNamespace false languages state nameSpace)
        (rest.foldl (p.syncNamespace false languages)
          (p.syncNamespace false languages state nameSpace)) := by
      apply ih hnodup ?_ (fun language hmem => (hhoused language hmem).mono hgrows) hclean
      intro other hmem
      obtain ⟨hname, bytes, hbytes⟩ := hlisted.2 other hmem
      exact ⟨hname, hgrows.exists_readBytes hbytes⟩
    have hfirst := syncNamespace_completes hlisted.1.1 hhoused hrest.clean
    have hapart : ∀ other ∈ rest, other ∉ [nameSpace] := by
      intro other hlater
      rw [List.mem_singleton]
      rintro rfl
      exact hnew hlater
    refine {
      clean := hfirst.clean
      advances := (hfirst.advances.mono (by simp)).trans (hrest.advances.mono (by simp))
      kept := ?_
      loads := ?_ }
    · intro other hmem hleafless above
      rcases List.mem_cons.mp hmem with rfl | hlater
      · exact (hrest.advances.kept above other hnew).trans
          (hfirst.kept other (List.mem_singleton_self other) hleafless above)
      · obtain ⟨hname, bytes, hbytes⟩ := hlisted.2 other hlater
        have hnot := hapart other hlater
        have hthen := (hfirst.advances.leafless_iff hname hnot hbytes).mpr hleafless
        exact (hrest.kept other hlater hthen above).trans (hfirst.advances.kept above other hnot)
    · rintro ⟨other, language⟩ hmem
      obtain ⟨hother, hlanguage⟩ := mem_documents.mp hmem
      rcases List.mem_cons.mp hother with rfl | hlater
      · have hvisited := hfirst.loads (other, language)
          (mem_documents.mpr ⟨List.mem_singleton_self other, hlanguage⟩)
        exact hvisited.imp_left (hrest.advances.loads _)
      · obtain ⟨hname, bytes, hbytes⟩ := hlisted.2 other hlater
        have hvisited := hrest.loads (other, language) (mem_documents.mpr ⟨hlater, hlanguage⟩)
        exact hvisited.imp_right
          (Hollow.before hfirst.advances hname (hapart other hlater) hbytes)

theorem completes_of_sync (hfiles : files.WellFormed)
    (hlanguages : p.languages files = .ok languages)
    (hnamespaces : p.namespaces files = .ok namespaces) (hsync : p.sync files false = .ok state)
    (hclean : state.outcome.failures.findings = []) :
    p.Completes languages namespaces ⟨SyncOutcome.empty, files⟩ state := by
  rw [sync_of_listed hlanguages hnamespaces] at hsync
  cases hsync
  have hlist := listNamespaces_of_namespaces hnamespaces
  apply foldl_syncNamespace_completes (Store.nodup_of_listNamespaces hfiles hlist)
  · exact fun nameSpace hmem => Store.exists_readBytes_of_listed hfiles hlist hmem
  · intro language hmem
    obtain ⟨hlanguage, hother⟩ := mem_otherLanguages.mp hmem
    exact housed_of_mem_languages hfiles hlanguages hlanguage hother
  · exact hclean

/-- What is hollow before a run that fails nowhere is not made by it. -/
theorem Hollow.uncreated {document : String × String} (hsync : p.sync files false = .ok state)
    (hlanguages : p.languages files = .ok languages)
    (hnamespaces : p.namespaces files = .ok namespaces)
    (h : p.Completes languages namespaces ⟨SyncOutcome.empty, files⟩ state)
    (hmem : document ∈ documents namespaces languages) (hhollow : p.Hollow files document) :
    p.Uncreated files state.files document where
  kept := h.kept document.1 (mem_documents.mp hmem).1 hhollow.leafless
  missing := by
    intro hplain
    obtain ⟨place, hlayout⟩ := hplain.exists_layout hlanguages hnamespaces
    have hreaches := reaches_of_sync hlayout hsync
    obtain ⟨hnameSpace, hlanguage⟩ := mem_documents.mp hmem
    rw [← hhollow.missing]
    exact hreaches.files.kept _ _ (hlayout.isName_document _ hnameSpace)
      (hlayout.isName_language _ hlanguage) fun _ => rewrite?_of_leafless hhollow.leafless

/-- After a run that fails nowhere, the same languages and namespaces are found, and every document
of theirs can be loaded that was not hollow before the run. A hollow one is not made. -/
theorem sync_completes (hfiles : files.WellFormed) (hsync : p.sync files false = .ok state)
    (hclean : state.outcome.failures.findings = []) :
    ∃ set, p.loadCatalogs state.files = .ok set ∧ p.languages files = .ok set.languages ∧
      p.namespaces files = .ok set.namespaces ∧
      (∀ document ∈ documents set.namespaces set.languages,
        p.Loads state.files document ∨ p.Hollow files document) ∧
      (∀ document ∈ documents set.namespaces set.languages,
        p.Hollow files document → p.Uncreated files state.files document) ∧
      ∀ f ∈ set.failures.findings, ∃ document ∈ documents set.namespaces set.languages,
        p.failure? state.files document = some f ∧ p.Hollow files document := by
  obtain ⟨languages, namespaces, hlanguages, hnamespaces⟩ := exists_of_sync hsync
  have h := completes_of_sync hfiles hlanguages hnamespaces hsync hclean
  have hlist := Store.listNamespaces_eq hfiles (h.advances.wellFormed hfiles) h.advances.toGrows
    (listNamespaces_of_namespaces hnamespaces) h.advances.kept
  have hset := loadCatalogs_eq (h.advances.languages_eq.trans hlanguages) (namespaces_eq hlist)
  have huncreated : ∀ document ∈ documents namespaces languages,
      p.Hollow files document → p.Uncreated files state.files document :=
    fun document hmem hhollow => hhollow.uncreated hsync hlanguages hnamespaces h hmem
  refine ⟨_, hset, hlanguages, hnamespaces, h.loads, huncreated, fun f hf => ?_⟩
  rw [failures_eq hset] at hf
  obtain ⟨document, hmem, hfailure⟩ := List.mem_filterMap.mp (Report.mem_of_mem_ofList hf)
  refine ⟨document, hmem, hfailure, (h.loads document hmem).resolve_left ?_⟩
  rintro ⟨c, hload⟩
  rw [failure?_of_ok hload] at hfailure
  cases hfailure

/-- The default language has one document, and another language has none. -/
def newLanguageFiles (text : String) : Directory :=
  [("locales", .directory [("en", .directory [("app.json", .file text.toUTF8)])])]

theorem sync_completes_newLanguage :
    let p := listing "en" ["en", "uk"]
    let files := newLanguageFiles "\x7b\"a\": \"Hi\"\x7d"
    files.WellFormed ∧ ∃ state, p.sync files false = .ok state ∧
      state.outcome.failures.findings = [] ∧
      state.outcome.written = ["/locales/uk/app.json"] ∧
      ∃ set, p.loadCatalogs state.files = .ok set ∧ p.languages files = .ok set.languages ∧
        p.namespaces files = .ok set.namespaces ∧
        (∀ document ∈ documents set.namespaces set.languages,
          p.Loads state.files document ∨ p.Hollow files document) ∧
        (∀ document ∈ documents set.namespaces set.languages,
          p.Hollow files document → p.Uncreated files state.files document) ∧
        ∀ f ∈ set.failures.findings, ∃ document ∈ documents set.namespaces set.languages,
          p.failure? state.files document = some f ∧ p.Hollow files document := by
  intro p files
  obtain ⟨state, hsync, hstate⟩ : ∃ state, p.sync files false = .ok state ∧
      (state.outcome.failures.findings, state.outcome.written) = ([], ["/locales/uk/app.json"]) :=
    exists_sync_of_map (by decide +kernel)
  rw [Prod.mk.injEq] at hstate
  have hfiles : files.WellFormed := by decide
  exact ⟨hfiles, state, hsync, hstate.1, hstate.2, sync_completes hfiles hsync hstate.1⟩

/-- From a default catalog without leaves no document is made, and then none can be loaded. -/
theorem hollow_after_sync :
    let p := listing "en" ["en", "uk"]
    let files := newLanguageFiles "\x7b\x7d"
    ofConfig p.config = .ok p ∧ files.WellFormed ∧
      ∃ state set, p.sync files false = .ok state ∧ state.outcome.failures.findings = [] ∧
        p.loadCatalogs state.files = .ok set ∧
        set.failures.findings.map (fun f => (f.kind, f.nameSpace, f.language)) =
          [(.fileError, "app", "uk")] := by
  intro p files
  obtain ⟨state, hsync, hstate⟩ : ∃ state, p.sync files false = .ok state ∧
      (state.outcome.failures.findings, (p.loadCatalogs state.files).toOption.map fun set =>
        set.failures.findings.map fun f => (f.kind, f.nameSpace, f.language)) =
        ([], some [(.fileError, "app", "uk")]) :=
    exists_sync_of_map (by decide +kernel)
  rw [Prod.mk.injEq] at hstate
  obtain ⟨hclean, hfailures⟩ := hstate
  cases hset : p.loadCatalogs state.files with
  | error e =>
    rw [hset] at hfailures
    cases hfailures
  | ok set =>
    rw [hset] at hfailures
    refine ⟨ofConfig_listing (by rfl), by decide, state, set, hsync, hclean, hset, ?_⟩
    exact Option.some.inj hfailures

end LocaleAudit.Project
