import LocaleAudit.Proofs.Project.KeyFindings
import LocaleAudit.Proofs.Sync.Run

namespace LocaleAudit.Project

/-!
# After a run

When every document could be read, a run leaves nothing to do: another one adds nothing and changes
no file, and a check finds missing exactly the paths that the run could not add.
-/

variable {p : Project} {before files : Directory} {place : List String}
  {languages namespaces : List String} {nameSpace language path : String} {state : SyncState}
  {set : CatalogSet}

/-- Without a scan, what is missing from a catalog is what the default one has more. -/
theorem exists_missingKey_iff (h : p.loadCatalogs files = .ok set) :
    (∃ f ∈ (p.checkCatalogs set none).findings,
      f.isAt .missingKey nameSpace language path = true) ↔
    language ≠ set.defaultLanguage ∧ ∃ d c, set.get? set.defaultLanguage nameSpace = some d ∧
      set.get? language nameSpace = some c ∧ path ∈ Difference.missingPaths d c := by
  have hplain : ∀ f ∈ (p.checkCatalogs set none).findings, f.kind = .missingKey →
      f.variableName = none := fun f hf hkind =>
    (keyFault_of_mem_seen h (List.mem_map_of_mem hf) (Or.inl hkind)).1
  rw [Report.exists_isAt_iff hplain]
  constructor
  · intro hi
    cases (keyFault_of_mem_seen h hi (Or.inl rfl)).2 with
    | lacking hlanguage hd hc hpath hnot =>
      exact ⟨hlanguage, _, _, hd, hc, Reconciliation.mem_missingPaths.mpr ⟨hpath, hnot⟩⟩
    | undefined hscan => cases hscan
    | unknownNamespace hscan => cases hscan
  · rintro ⟨hlanguage, d, c, hd, hc, hmissing⟩
    obtain ⟨hpath, hnot⟩ := Reconciliation.mem_missingPaths.mp hmissing
    exact mem_seen_of_keyFault h (.lacking hlanguage hd hc hpath hnot)

namespace Planned

variable {c : Catalog} {r : ReconcileOutcome} {default target : Catalog}
  (h : p.Planned files nameSpace language c r default target)
  (hother : language ≠ p.config.defaultLanguage)

include h hother

theorem missingPaths_eq (hadded : r.added = []) :
    Difference.missingPaths default target = r.conflicts.map Conflict.path := by
  have hmissing := Reconciliation.missingPaths_eq_conflicts p.marker p.config.policy
    h.readable_default.wellFormed h.readable_target.wellFormed (h.language_ne hother)
  rw [h.result_eq] at hmissing
  exact hmissing hadded

theorem conflicts_eq_nil (hoverwrite : p.config.overwriteConflicts = true) : r.conflicts = [] := by
  have hconflicts := Reconciliation.conflicts_overwrite p.marker h.readable_default.wellFormed
    h.readable_target.wellFormed (h.language_ne hother)
  have hpolicy : p.config.policy = .overwrite := by rw [Config.policy, hoverwrite, if_pos rfl]
  rwa [← hpolicy, h.result_eq] at hconflicts

end Planned

namespace Reaches

variable (hlayout : p.Layout before place languages namespaces)
  (h : p.Reaches languages namespaces place before
    (documents namespaces (p.otherLanguages languages)) state)

include hlayout h

/-- The documents lie after the run where they lay before. -/
theorem layout : p.Layout state.files place languages namespaces where
  root := h.files.root hlayout
  languages_eq := h.files.languages_eq.trans hlayout.languages_eq
  namespaces_eq := h.files.namespaces_eq.trans hlayout.namespaces_eq
  isName_language := hlayout.isName_language
  isName_document := hlayout.isName_document
  nodup_namespaces := hlayout.nodup_namespaces
  listed := fun hlisted language hmem hother =>
    h.files.hasDirectory _ (hlayout.listed hlisted language hmem hother)

theorem of_loadCatalogs_after (hset : p.loadCatalogs state.files = .ok set) :
    set.languages = languages ∧ set.namespaces = namespaces ∧
      set.defaultLanguage = p.config.defaultLanguage := by
  have hlayout' := h.layout hlayout
  rw [loadCatalogs_eq hlayout'.languages_eq hlayout'.namespaces_eq] at hset
  cases hset
  obtain ⟨others, rfl⟩ := languages_eq hlayout'.languages_eq
  exact ⟨rfl, rfl, rfl⟩

variable (hclean : state.outcome.failures.findings = [])

include hclean

/-- After a run without failures, every document has a plan that adds nothing, with the conflicts
that the run has listed. -/
theorem exists_plan_after {document : String × String}
    (htarget : p.IsTarget languages namespaces document) :
    ∃ c r, p.plan state.files document = .ok (c, r) ∧ r.added = [] ∧
      ∀ q, q ∈ r.conflicts ↔ ∃ r' ∈ state.outcome.outcomes,
        r'.nameSpace = document.1 ∧ r'.language = document.2 ∧ q ∈ r'.conflicts := by
  have hdone := isTarget_iff.mp htarget
  obtain ⟨⟨c, r⟩, hplan⟩ := h.outcome.readable hclean document hdone
  have hagain := h.files.plan_again hlayout htarget hdone
  rw [hplan] at hagain
  cases hafter : p.plan state.files document with
  | error e =>
    rw [hafter] at hagain
    cases hagain
  | ok planned =>
    obtain ⟨c', r'⟩ := planned
    rw [hafter] at hagain
    obtain rfl : r' = { r with added := [] } := Except.ok.inj hagain
    refine ⟨c', _, rfl, rfl, fun q => ⟨fun hq => ?_, ?_⟩⟩
    · obtain ⟨hnameSpace, hlanguage⟩ := outcome_of_plan hplan
      exact ⟨r, h.outcome.visited document hdone c r hplan, hnameSpace, hlanguage, hq⟩
    · rintro ⟨r', hr', hnameSpace, hlanguage, hq⟩
      obtain ⟨other, _, hreports⟩ := h.outcome.reported r' hr'
      obtain ⟨c'', r'', hplan', hconflicts, _⟩ := hreports.exists_plan
      have hsame : other = document := Prod.ext (hreports.nameSpace_eq.symm.trans hnameSpace)
        (hreports.language_eq.symm.trans hlanguage)
      rw [hsame, hplan] at hplan'
      cases hplan'
      rwa [hconflicts] at hq

/-- Another run has nothing to do. -/
theorem sync_again : ∃ again, p.sync state.files false = .ok again ∧
    (∀ r ∈ again.outcome.outcomes, r.added = []) ∧ again.outcome.written = [] ∧
    again.files = state.files := by
  have hlayout' := h.layout hlayout
  have hagain := reaches_of_sync hlayout' (sync_eq hlayout')
  have hadded : ∀ r ∈ (namespaces.foldl (p.syncNamespace false languages)
      ⟨SyncOutcome.empty, state.files⟩).outcome.outcomes, r.added = [] := by
    intro r hr
    obtain ⟨document, hdocument, hreports⟩ := hagain.outcome.reported r hr
    obtain ⟨c, r', hplan, _, hsame⟩ := hreports.exists_plan
    obtain ⟨c', r'', hafter, hnone, _⟩ :=
      h.exists_plan_after hlayout hclean (isTarget_iff.mpr hdocument)
    rw [hafter] at hplan
    cases hplan
    refine Classical.byContradiction fun hadded => hadded ?_
    rw [hsame hadded, hnone]
  refine ⟨_, sync_eq hlayout', hadded, ?_, hagain.files.files_eq fun document hdocument => ?_⟩
  · rw [hagain.outcome.written_eq, List.map_eq_nil_iff, List.filter_eq_nil_iff]
    intro r hr
    simp [ReconcileOutcome.isModified, hadded r hr]
  · obtain ⟨c, r, hafter, hnone, _⟩ :=
      h.exists_plan_after hlayout hclean (isTarget_iff.mpr hdocument)
    rw [rewrite?_of_plan hafter, ReconcileOutcome.isModified, hnone]
    rfl

/-- A check of loaded catalogs finds missing what the run has listed as a conflict. -/
theorem missingKey_iff_conflict (hset : p.loadCatalogs state.files = .ok set) {c : Catalog}
    (hc : set.get? language nameSpace = some c) (path : String) :
    (∃ f ∈ (p.checkCatalogs set none).findings,
      f.isAt .missingKey nameSpace language path = true) ↔
    ∃ r ∈ state.outcome.outcomes, r.nameSpace = nameSpace ∧ r.language = language ∧
      path ∈ r.conflicts.map Conflict.path := by
  obtain ⟨hlanguages, hnamespaces, hdefault⟩ := h.of_loadCatalogs_after hlayout hset
  obtain ⟨hlanguage, hnameSpace, hload⟩ := load_of_get? hset hc
  rw [hlanguages] at hlanguage
  rw [hnamespaces] at hnameSpace
  rw [exists_missingKey_iff hset, hdefault]
  by_cases hother : language = p.config.defaultLanguage
  · refine iff_of_false (fun hmissing => hmissing.1 hother) ?_
    rintro ⟨r, hr, _, hrlanguage, _⟩
    obtain ⟨document, hdocument, hreports⟩ := h.outcome.reported r hr
    exact (isTarget_iff.mpr hdocument).language_ne
      (hreports.language_eq.symm.trans (hrlanguage.trans hother))
  · have htarget : p.IsTarget languages namespaces (nameSpace, language) :=
      ⟨hnameSpace, hlanguage, hother⟩
    obtain ⟨c', r, hplan, hadded, hconflicts⟩ := h.exists_plan_after hlayout hclean htarget
    obtain ⟨d, target, hplanned⟩ := plan_eq_ok_iff.mp hplan
    have hloaded := hplanned.target_eq
    rw [Store.loadOrEmpty_of_load hload] at hloaded
    cases hloaded
    have hd : set.get? p.config.defaultLanguage nameSpace = some d :=
      get?_of_load hset (hlanguages ▸ defaultLanguage_mem_languages hlayout.languages_eq)
        (hnamespaces ▸ hnameSpace) hplanned.default_eq
    constructor
    · rintro ⟨_, d', t, hd', ht, hpath⟩
      rw [hd] at hd'
      rw [hc] at ht
      cases hd'
      cases ht
      rw [hplanned.missingPaths_eq hother hadded] at hpath
      obtain ⟨q, hq, rfl⟩ := List.mem_map.mp hpath
      obtain ⟨r', hr', hrname, hrlanguage, hq'⟩ := (hconflicts q).mp hq
      exact ⟨r', hr', hrname, hrlanguage, List.mem_map_of_mem hq'⟩
    · rintro ⟨r', hr', hrname, hrlanguage, hpath⟩
      obtain ⟨q, hq, rfl⟩ := List.mem_map.mp hpath
      refine ⟨hother, d, c, hd, hc, ?_⟩
      rw [hplanned.missingPaths_eq hother hadded]
      exact List.mem_map_of_mem ((hconflicts q).mpr ⟨r', hr', hrname, hrlanguage, hq⟩)

end Reaches

/-- After a run without failures another one has nothing to do, and a check without a scan finds in
a loaded catalog the conflicts of the run missing, and nothing else. -/
theorem sync_settles (h : p.Plain files) (hsync : p.sync files false = .ok state)
    (hclean : state.outcome.failures.findings = []) :
    (∃ again, p.sync state.files false = .ok again ∧
      (∀ r ∈ again.outcome.outcomes, r.added = []) ∧ again.outcome.written = [] ∧
      again.files = state.files) ∧
    ∃ set, p.loadCatalogs state.files = .ok set ∧
      ∀ nameSpace language c, set.get? language nameSpace = some c → ∀ path,
        ((∃ f ∈ (p.checkCatalogs set none).findings,
            f.isAt .missingKey nameSpace language path = true) ↔
          ∃ r ∈ state.outcome.outcomes, r.nameSpace = nameSpace ∧ r.language = language ∧
            path ∈ r.conflicts.map Conflict.path) ∧
        (p.config.overwriteConflicts = true →
          ¬∃ f ∈ (p.checkCatalogs set none).findings,
            f.isAt .missingKey nameSpace language path = true) := by
  obtain ⟨languages, namespaces, hlanguages, hnamespaces⟩ := exists_of_sync hsync
  obtain ⟨place, hlayout⟩ := h.exists_layout hlanguages hnamespaces
  have hreaches := reaches_of_sync hlayout hsync
  have hlayout' := hreaches.layout hlayout
  have hset := loadCatalogs_eq hlayout'.languages_eq hlayout'.namespaces_eq
  refine ⟨hreaches.sync_again hlayout hclean, _, hset, fun nameSpace language c hc path => ?_⟩
  have hmissing := hreaches.missingKey_iff_conflict hlayout hclean hset hc path
  refine ⟨hmissing, fun hoverwrite => ?_⟩
  rw [hmissing]
  rintro ⟨r, hr, _, _, hpath⟩
  obtain ⟨document, hdocument, hreports⟩ := hreaches.outcome.reported r hr
  obtain ⟨c', r', hplan, hconflicts, _⟩ := hreports.exists_plan
  obtain ⟨default, target, hplanned⟩ := plan_eq_ok_iff.mp hplan
  have hnone := hplanned.conflicts_eq_nil (isTarget_iff.mpr hdocument).language_ne hoverwrite
  simp [hconflicts, hnone] at hpath

/-- The group `b` of the default catalog cannot be added to the text `b`. -/
theorem sync_settles_notice :
    let p := listing "en" ["en", "de"]
    p.Plain noticeFiles ∧ ∃ state, p.sync noticeFiles false = .ok state ∧
      state.outcome.failures.findings = [] ∧
      state.outcome.outcomes = [⟨"app", "de", ["a"],
        [⟨"b.c", "path conflict at \x60b\x60 while setting \x60b.c\x60"⟩]⟩] ∧
      (∃ again, p.sync state.files false = .ok again ∧ again.outcome.written = [] ∧
        again.files = state.files) ∧
      ∃ set, p.loadCatalogs state.files = .ok set ∧ (set.get? "de" "app").isSome = true ∧
        ∀ path, (∃ f ∈ (p.checkCatalogs set none).findings,
          f.isAt .missingKey "app" "de" path = true) ↔ path = "b.c" := by
  intro p
  obtain ⟨state, hsync, hstate⟩ : ∃ state, p.sync noticeFiles false = .ok state ∧
      (state.outcome.failures.findings, state.outcome.outcomes,
        (p.loadCatalogs state.files).toOption.map fun set => (set.get? "de" "app").isSome) =
      ([], [⟨"app", "de", ["a"],
        [⟨"b.c", "path conflict at \x60b\x60 while setting \x60b.c\x60"⟩]⟩], some true) :=
    exists_sync_of_map (by decide +kernel)
  simp only [Prod.mk.injEq] at hstate
  obtain ⟨hclean, houtcomes, hloaded⟩ := hstate
  obtain ⟨⟨again, hagain, _, hnone, hfiles⟩, set, hset, hmissing⟩ :=
    sync_settles notice_plain hsync hclean
  rw [hset] at hloaded
  obtain ⟨c, hc⟩ := Option.isSome_iff_exists.mp (Option.some.inj hloaded)
  refine ⟨notice_plain, state, hsync, hclean, houtcomes, ⟨again, hagain, hnone, hfiles⟩, set, hset,
    Option.some.inj hloaded, fun path => ?_⟩
  rw [(hmissing "app" "de" c hc path).1, houtcomes]
  simpa using eq_comm

/-- The document of `fr-1/..` lies where that of `en-1/..` does, which replaces it later in the run.
The conflict is gone with it. -/
theorem conflict_settled_of_slashes :
    let p := listing "en" ["en", "fr-1/..", "en-1/.."]
    ofConfig p.config = .ok p ∧ slashFiles.WellFormed ∧
      ∃ state set, p.sync slashFiles false = .ok state ∧ state.outcome.failures.findings = [] ∧
        p.loadCatalogs state.files = .ok set ∧ (set.get? "fr-1/.." "app").isSome = true ∧
        (∃ r ∈ state.outcome.outcomes, r.nameSpace = "app" ∧ r.language = "fr-1/.." ∧
          "a.b" ∈ r.conflicts.map Conflict.path) ∧
        ¬∃ f ∈ (p.checkCatalogs set none).findings,
          f.isAt .missingKey "app" "fr-1/.." "a.b" = true := by
  intro p
  obtain ⟨state, hsync, hstate⟩ : ∃ state, p.sync slashFiles false = .ok state ∧
      (state.outcome.failures.findings,
        state.outcome.outcomes.any fun r => r.nameSpace = "app" ∧ r.language = "fr-1/.." ∧
          "a.b" ∈ r.conflicts.map Conflict.path,
        (p.loadCatalogs state.files).toOption.map fun set =>
          ((set.get? "fr-1/.." "app").isSome, (p.checkCatalogs set none).findings.any
            (·.isAt .missingKey "app" "fr-1/.." "a.b"))) = ([], true, some (true, false)) :=
    exists_sync_of_map (by decide +kernel)
  simp only [Prod.mk.injEq] at hstate
  obtain ⟨hclean, hconflict, hcheck⟩ := hstate
  cases hset : p.loadCatalogs state.files with
  | error e =>
    rw [hset] at hcheck
    cases hcheck
  | ok set =>
    rw [hset] at hcheck
    obtain ⟨hloaded, hmissing⟩ := Prod.mk.inj (Option.some.inj hcheck)
    refine ⟨ofConfig_listing (by rfl), by decide, state, set, hsync, hclean, hset, hloaded, ?_, ?_⟩
    · simpa using hconflict
    · simpa using hmissing

end LocaleAudit.Project
