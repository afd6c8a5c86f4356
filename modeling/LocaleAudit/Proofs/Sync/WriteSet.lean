import LocaleAudit.Proofs.Sync.Run

namespace LocaleAudit

/-!
# What a run writes

A run changes or creates the documents that it lists as written, and no other file. Each of them has
what reconciling the old document gives, and it is written because a path was added to it.
-/

open Directory (fileAt)

namespace Project

variable {p : Project} {before : Directory} {place : List String}
  {languages namespaces : List String} {document : String × String}
  {nameSpace language : String} {state : SyncState}

theorem pathFor_injective {s : Store} {nameSpace' language' : String} (hlanguage : IsName language)
    (hlanguage' : IsName language') (hname : IsName (s.fileName nameSpace))
    (hname' : IsName (s.fileName nameSpace'))
    (h : s.pathFor language nameSpace = s.pathFor language' nameSpace') :
    (nameSpace, language) = (nameSpace', language') := by
  have hpieces := congrArg Path.pieces h
  unfold Store.pathFor at hpieces
  rw [Path.pieces_join _ hname, Path.pieces_join _ hname', Path.piecesBefore_join _ hlanguage,
    Path.piecesBefore_join _ hlanguage', List.append_assoc, List.append_assoc] at hpieces
  have hends := List.append_cancel_left hpieces
  simp only [List.cons_append, List.nil_append, List.cons.injEq, and_true] at hends
  rw [Store.fileName_injective hends.2, hends.1]

/-- What a real run does, by the languages and the namespaces that it goes through. -/
structure WriteSet (p : Project) (languages namespaces : List String) (before : Directory)
    (after : SyncState) : Prop where
  /-- The files at written paths are changed or created, and no other file is. -/
  changed_iff : ∀ names, fileAt names after.files ≠ fileAt names before ↔
    ∃ path ∈ after.outcome.written, Directory.locate after.files path = .ok names
  /-- What is written is a document of another language, with what reconciling gives. -/
  written : ∀ path ∈ after.outcome.written, ∃ nameSpace ∈ namespaces, ∃ language ∈ languages,
    language ≠ p.config.defaultLanguage ∧ path = p.store.pathFor language nameSpace ∧
      ∃ c r default target, p.Planned before nameSpace language c r default target ∧
        after.files.readBytes path = .ok (Catalog.render c.tree).toUTF8
  written_iff_planned : ∀ nameSpace ∈ namespaces, ∀ language ∈ languages,
    language ≠ p.config.defaultLanguage →
      (p.store.pathFor language nameSpace ∈ after.outcome.written ↔
        ∃ c r default target, p.Planned before nameSpace language c r default target ∧
          r.added ≠ [])
  written_iff_outcome : ∀ nameSpace ∈ namespaces, ∀ language ∈ languages,
    language ≠ p.config.defaultLanguage →
      (p.store.pathFor language nameSpace ∈ after.outcome.written ↔
        ∃ r ∈ after.outcome.outcomes,
          r.nameSpace = nameSpace ∧ r.language = language ∧ r.added ≠ [])
  /-- The default language's documents stay, and those that cannot be read or have no default. -/
  kept : ∀ nameSpace ∈ namespaces, ∀ language ∈ languages,
    (language = p.config.defaultLanguage ∨
      (∃ e, p.store.load before p.config.defaultLanguage nameSpace = .error e) ∨
      (∃ e, p.store.loadOrEmpty before language nameSpace = .error e)) →
        after.files.readBytes (p.store.pathFor language nameSpace) =
          before.readBytes (p.store.pathFor language nameSpace)
  outside : ∀ names, (∀ nameSpace ∈ namespaces, ∀ language ∈ languages,
      language ≠ p.config.defaultLanguage →
        Directory.locate after.files (p.store.pathFor language nameSpace) ≠ .ok names) →
    fileAt names after.files = fileAt names before

/-- What is saved differs from what was there: that one lacked a path. -/
theorem Planned.readBytes_ne {c : Catalog} {r : ReconcileOutcome} {default target : Catalog}
    (h : p.Planned before nameSpace language c r default target)
    (hother : language ≠ p.config.defaultLanguage) (hadded : r.added ≠ []) :
    before.readBytes (p.store.pathFor language nameSpace) ≠
      .ok (Catalog.render c.tree).toUTF8 := by
  intro hbytes
  obtain ⟨again, hload, hagain⟩ := h.exists_load_saved hother hbytes
  have htarget := h.target_eq
  rw [Store.loadOrEmpty_of_load hload] at htarget
  cases htarget
  rw [h.result_eq] at hagain
  exact hadded (congrArg ReconcileOutcome.added hagain)

theorem isModified_iff {r : ReconcileOutcome} : r.isModified = true ↔ r.added ≠ [] := by
  simp [ReconcileOutcome.isModified]

namespace Reaches

variable (hlayout : p.Layout before place languages namespaces)
  (h : p.Reaches languages namespaces place before
    (documents namespaces (p.otherLanguages languages)) state)

include h

/-- An outcome that added something is the one that was planned. -/
theorem exists_planned_of_outcome {r : ReconcileOutcome} (hr : r ∈ state.outcome.outcomes)
    (hadded : r.added ≠ []) :
    p.IsTarget languages namespaces (r.nameSpace, r.language) ∧
      ∃ c, p.plan before (r.nameSpace, r.language) = .ok (c, r) := by
  obtain ⟨document, hdocument, hreports⟩ := h.outcome.reported r hr
  obtain ⟨c, r', hplan, _, hsame⟩ := hreports.exists_plan
  rw [hreports.nameSpace_eq, hreports.language_eq, hsame hadded]
  exact ⟨isTarget_iff.mpr hdocument, c, hplan⟩

theorem mem_written_iff {path : String} :
    path ∈ state.outcome.written ↔ ∃ r ∈ state.outcome.outcomes, r.added ≠ [] ∧
      path = p.store.pathFor r.language r.nameSpace := by
  rw [h.outcome.written_eq, List.mem_map]
  constructor
  · rintro ⟨r, hr, rfl⟩
    obtain ⟨hr, hmodified⟩ := List.mem_filter.mp hr
    exact ⟨r, hr, isModified_iff.mp hmodified, rfl⟩
  · rintro ⟨r, hr, hadded, rfl⟩
    exact ⟨r, List.mem_filter.mpr ⟨hr, isModified_iff.mpr hadded⟩, rfl⟩

/-- A planned addition is carried out. -/
theorem mem_written_of_plan (htarget : p.IsTarget languages namespaces (nameSpace, language))
    {c : Catalog} {r : ReconcileOutcome} (hplan : p.plan before (nameSpace, language) = .ok (c, r))
    (hadded : r.added ≠ []) : p.store.pathFor language nameSpace ∈ state.outcome.written := by
  obtain ⟨hnameSpace, hlanguage⟩ := outcome_of_plan hplan
  have hvisited := h.outcome.visited _ (isTarget_iff.mp htarget) c r hplan
  exact h.mem_written_iff.mpr ⟨r, hvisited, hadded, by rw [hnameSpace, hlanguage]⟩

theorem exists_planned_of_mem_written {path : String} (hpath : path ∈ state.outcome.written) :
    ∃ nameSpace language c r default target, p.IsTarget languages namespaces (nameSpace, language) ∧
      path = p.store.pathFor language nameSpace ∧ r ∈ state.outcome.outcomes ∧ r.added ≠ [] ∧
      r.nameSpace = nameSpace ∧ r.language = language ∧
      p.Planned before nameSpace language c r default target ∧
      state.files.readBytes path = .ok (Catalog.render c.tree).toUTF8 := by
  obtain ⟨r, hr, hadded, rfl⟩ := h.mem_written_iff.mp hpath
  obtain ⟨htarget, c, hplan⟩ := h.exists_planned_of_outcome hr hadded
  obtain ⟨default, target, hplanned⟩ := plan_eq_ok_iff.mp hplan
  refine ⟨r.nameSpace, r.language, c, r, default, target, htarget, rfl, hr, hadded, rfl, rfl,
    hplanned, ?_⟩
  exact h.files.rewritten _ (isTarget_iff.mp htarget) c
    (rewrite?_eq_some_iff.mpr ⟨r, hplan, isModified_iff.mpr hadded⟩)

include hlayout

/-- A document of the run with additions lies where its path leads. -/
theorem locate_eq {c : Catalog} (htarget : p.IsTarget languages namespaces document)
    (hrewrite : p.rewrite? before document = some c) :
    Directory.locate state.files (p.store.pathFor document.2 document.1) =
      .ok (place ++ [document.2] ++ [p.store.fileName document.1]) :=
  Directory.locate_of_readBytes (h.files.root hlayout)
    (hlayout.isName_language _ htarget.language_mem)
    (hlayout.isName_document _ htarget.nameSpace_mem)
    (h.files.rewritten _ (isTarget_iff.mp htarget) c hrewrite)

theorem changed_iff (names : List String) : fileAt names state.files ≠ fileAt names before ↔
    ∃ path ∈ state.outcome.written, Directory.locate state.files path = .ok names := by
  constructor
  · intro hchanged
    have hsome : ∃ document, p.IsTarget languages namespaces document ∧
        p.rewrite? before document ≠ none ∧
        names = place ++ [document.2] ++ [p.store.fileName document.1] := by
      refine Classical.byContradiction fun hnone => hchanged (h.files.fileAt_eq names ?_)
      intro document hdocument hrewrite hnames
      exact hnone ⟨document, isTarget_iff.mpr hdocument, hrewrite, hnames⟩
    obtain ⟨document, htarget, hrewrite, rfl⟩ := hsome
    obtain ⟨c, hc⟩ := Option.ne_none_iff_exists'.mp hrewrite
    obtain ⟨r, hplan, hmodified⟩ := rewrite?_eq_some_iff.mp hc
    exact ⟨_, h.mem_written_of_plan htarget hplan (isModified_iff.mp hmodified),
      h.locate_eq hlayout htarget hc⟩
  · rintro ⟨path, hpath, hlocate⟩
    obtain ⟨nameSpace, language, c, r, default, target, htarget, rfl, _, hadded, _, _, hplanned,
      hbytes⟩ := h.exists_planned_of_mem_written hpath
    have hlanguage := hlayout.isName_language _ htarget.language_mem
    have hname := hlayout.isName_document _ htarget.nameSpace_mem
    unfold Store.pathFor at hlocate hbytes
    rw [Directory.locate_of_readBytes (h.files.root hlayout) hlanguage hname hbytes] at hlocate
    cases hlocate
    rw [(Directory.readBytes_eq_ok_iff (h.files.root hlayout) hlanguage hname).mp hbytes]
    intro hsame
    exact hplanned.readBytes_ne htarget.language_ne hadded
      ((Directory.readBytes_eq_ok_iff hlayout.root hlanguage hname).mpr hsame.symm)

/-- Two documents of a run do not share a path. -/
theorem exists_planned_at (hnameSpace : nameSpace ∈ namespaces) (hlanguage : language ∈ languages)
    (hpath : p.store.pathFor language nameSpace ∈ state.outcome.written) :
    ∃ c r default target, p.Planned before nameSpace language c r default target ∧
      r ∈ state.outcome.outcomes ∧ r.nameSpace = nameSpace ∧ r.language = language ∧
      r.added ≠ [] := by
  obtain ⟨nameSpace', language', c, r, default, target, htarget, hsame, hr, hadded, hrname,
    hrlanguage, hplanned, _⟩ := h.exists_planned_of_mem_written hpath
  cases pathFor_injective (hlayout.isName_language _ hlanguage)
    (hlayout.isName_language _ htarget.language_mem) (hlayout.isName_document _ hnameSpace)
    (hlayout.isName_document _ htarget.nameSpace_mem) hsame
  exact ⟨c, r, default, target, hplanned, hr, hrname, hrlanguage, hadded⟩

theorem writeSet : p.WriteSet languages namespaces before state where
  changed_iff := h.changed_iff hlayout
  written := by
    intro path hpath
    obtain ⟨nameSpace, language, c, r, default, target, htarget, rfl, _, _, _, _, hplanned,
      hbytes⟩ := h.exists_planned_of_mem_written hpath
    exact ⟨nameSpace, htarget.nameSpace_mem, language, htarget.language_mem, htarget.language_ne,
      rfl, c, r, default, target, hplanned, hbytes⟩
  written_iff_planned := by
    intro nameSpace hnameSpace language hlanguage hother
    constructor
    · intro hpath
      obtain ⟨c, r, default, target, hplanned, _, _, _, hadded⟩ :=
        h.exists_planned_at hlayout hnameSpace hlanguage hpath
      exact ⟨c, r, default, target, hplanned, hadded⟩
    · rintro ⟨c, r, default, target, hplanned, hadded⟩
      exact h.mem_written_of_plan ⟨hnameSpace, hlanguage, hother⟩
        (plan_eq_ok_iff.mpr ⟨default, target, hplanned⟩) hadded
  written_iff_outcome := by
    intro nameSpace hnameSpace language hlanguage hother
    constructor
    · intro hpath
      obtain ⟨_, r, _, _, _, hr, hrname, hrlanguage, hadded⟩ :=
        h.exists_planned_at hlayout hnameSpace hlanguage hpath
      exact ⟨r, hr, hrname, hrlanguage, hadded⟩
    · rintro ⟨r, hr, rfl, rfl, hadded⟩
      exact h.mem_written_iff.mpr ⟨r, hr, hadded, rfl⟩
  kept := by
    intro nameSpace hnameSpace language hlanguage hstays
    refine h.files.kept _ _ (hlayout.isName_document _ hnameSpace)
      (hlayout.isName_language _ hlanguage) fun hdone => ?_
    rcases hstays with rfl | ⟨e, he⟩ | ⟨e, he⟩
    · exact absurd rfl (isTarget_iff.mpr hdone).language_ne
    · exact rewrite?_of_error (plan_of_error he)
    · exact rewrite?_of_unreadable he
  outside := by
    intro names hnames
    refine h.files.fileAt_eq names fun document hdocument hrewrite hsame => ?_
    have htarget := isTarget_iff.mpr hdocument
    obtain ⟨c, hc⟩ := Option.ne_none_iff_exists'.mp hrewrite
    exact hnames _ htarget.nameSpace_mem _ htarget.language_mem htarget.language_ne
      (hsame ▸ h.locate_eq hlayout htarget hc)

end Reaches

/-- A run that is not dry writes the documents it lists, with what reconciling gives, and leaves all
other files as they are. -/
theorem sync_writes {files : Directory} (h : p.Plain files)
    (hsync : p.sync files false = .ok state) :
    ∃ languages namespaces, p.languages files = .ok languages ∧
      p.namespaces files = .ok namespaces ∧ p.WriteSet languages namespaces files state := by
  obtain ⟨languages, namespaces, hlanguages, hnamespaces⟩ := exists_of_sync hsync
  obtain ⟨place, hlayout⟩ := h.exists_layout hlanguages hnamespaces
  exact ⟨languages, namespaces, hlanguages, hnamespaces,
    (reaches_of_sync hlayout hsync).writeSet hlayout⟩

theorem sync_writes_notice :
    let p := listing "en" ["en", "de"]
    p.Plain noticeFiles ∧ ∃ state, p.sync noticeFiles false = .ok state ∧
      state.outcome.written = ["/locales/de/app.json"] ∧
      ∃ languages namespaces, p.languages noticeFiles = .ok languages ∧
        p.namespaces noticeFiles = .ok namespaces ∧
        p.WriteSet languages namespaces noticeFiles state := by
  intro p
  obtain ⟨state, hsync, hwritten⟩ : ∃ state, p.sync noticeFiles false = .ok state ∧
      state.outcome.written = ["/locales/de/app.json"] :=
    exists_sync_of_map (by decide +kernel)
  exact ⟨notice_plain, state, hsync, hwritten, sync_writes notice_plain hsync⟩

/-- A variant of four characters that begins with a digit may be `1/..`. Saving makes the directory
`en-1`, and from there the path leads to the document of the default language. -/
theorem default_rewritten_of_slashes :
    let p := listing "fr-1/.." ["fr-1/..", "en-1/.."]
    ofConfig p.config = .ok p ∧ slashFiles.WellFormed ∧
      ∃ state, p.sync slashFiles false = .ok state ∧ state.outcome.failures.findings = [] ∧
        state.files.readBytes (p.store.pathFor p.config.defaultLanguage "app") ≠
          slashFiles.readBytes (p.store.pathFor p.config.defaultLanguage "app") := by
  intro p
  have hpath : p.store.pathFor p.config.defaultLanguage "app" = "/locales/fr-1/../app.json" := by
    decide
  have hbefore : slashFiles.readBytes "/locales/fr-1/../app.json" =
      .ok "\x7b\"a\": \"x\"\x7d".toUTF8 := by rfl
  obtain ⟨state, hsync, hstate⟩ : ∃ state, p.sync slashFiles false = .ok state ∧
      (state.outcome.failures.findings,
        (state.files.readBytes "/locales/fr-1/../app.json").toOption) =
        ([], some "\x7b\n  \"a\": \"[FR-1/..] x\"\n\x7d\n".toUTF8) :=
    exists_sync_of_map (by decide +kernel)
  rw [Prod.mk.injEq] at hstate
  refine ⟨ofConfig_listing (by rfl), by decide, state, hsync, hstate.1, fun hsame => ?_⟩
  rw [hpath, hbefore] at hsame
  rw [hsame] at hstate
  exact absurd hstate.2 (by decide)

end Project

end LocaleAudit
