import Mathlib.Data.List.Nodup
import LocaleAudit.Proofs.Sync.Run

namespace LocaleAudit.Project

/-!
# Dry runs

A dry run reports what a real one would: no document that is read later depends on one that the real
run has written before, because every document comes up once.
-/

variable {p : Project} {before : Directory} {place : List String}
  {languages namespaces : List String} {done : List (String × String)}
  {nameSpace language : String} {dry real : SyncState}

/-- A dry run beside a real one that has been to the same documents. -/
structure Foretells (before : Directory) (dry real : SyncState) : Prop where
  outcomes_eq : dry.outcome.outcomes = real.outcome.outcomes
  failures_eq : dry.outcome.failures = real.outcome.failures
  written_eq : dry.outcome.written = []
  files_eq : dry.files = before

namespace Foretells

variable (hlayout : p.Layout before place languages namespaces)
  (hreal : p.Reaches languages namespaces place before done real)
  (h : Foretells before dry real)

include h in
theorem fail (f : Finding) : Foretells before
    { dry with outcome := dry.outcome.fail f } { real with outcome := real.outcome.fail f } where
  outcomes_eq := h.outcomes_eq
  failures_eq := by simp only [SyncOutcome.fail, h.failures_eq]
  written_eq := h.written_eq
  files_eq := h.files_eq

include hlayout hreal h

theorem syncDocument (htarget : p.IsTarget languages namespaces (nameSpace, language))
    (hnew : (nameSpace, language) ∉ done) {d : Catalog}
    (hd : p.store.load before p.config.defaultLanguage nameSpace = .ok d) :
    Foretells before (p.syncDocument true d dry language)
      (p.syncDocument false d real language) := by
  obtain ⟨files', hstep, _⟩ := hreal.files.step hlayout htarget hd
  have hreport : p.report before done (nameSpace, language) =
      (p.plan before (nameSpace, language)).map Prod.snd := by
    unfold report
    simp only [hnew, if_false]
  rw [hstep, hreport, syncDocument_dry (h.files_eq ▸ hd), h.files_eq]
  cases (p.plan before (nameSpace, language)).map Prod.snd with
  | error e =>
    have hfail := h.fail (p.fileFinding language nameSpace e)
    exact ⟨hfail.outcomes_eq, hfail.failures_eq, hfail.written_eq, rfl⟩
  | ok r =>
    exact {
      outcomes_eq := by simp only [SyncOutcome.visit, h.outcomes_eq]
      failures_eq := h.failures_eq
      written_eq := by simp [SyncOutcome.visit, h.written_eq]
      files_eq := rfl }

theorem foldl_syncDocument {rest : List String} {d : Catalog}
    (hrest : ∀ language ∈ rest, p.IsTarget languages namespaces (nameSpace, language))
    (hnew : (done ++ rest.map fun language => (nameSpace, language)).Nodup)
    (hd : p.store.load before p.config.defaultLanguage nameSpace = .ok d) :
    Foretells before (rest.foldl (p.syncDocument true d) dry)
      (rest.foldl (p.syncDocument false d) real) := by
  induction rest generalizing done dry real with
  | nil => exact h
  | cons language rest ih =>
    rw [List.forall_mem_cons] at hrest
    rw [List.map_cons, List.append_cons] at hnew
    have hfirst : (nameSpace, language) ∉ done := fun hmem =>
      (List.nodup_append.mp (List.nodup_append.mp hnew).1).2.2 _ hmem _ (by simp) rfl
    exact ih (hreal.syncDocument hlayout hrest.1 hd)
      (h.syncDocument hlayout hreal hrest.1 hfirst hd) hrest.2 hnew

theorem syncNamespace (hmem : nameSpace ∈ namespaces)
    (hnew :
      (done ++ (p.otherLanguages languages).map fun language => (nameSpace, language)).Nodup) :
    Foretells before (p.syncNamespace true languages dry nameSpace)
      (p.syncNamespace false languages real nameSpace) := by
  have hload := hreal.files.load_default hlayout hmem
  cases hd : p.store.load before p.config.defaultLanguage nameSpace with
  | error e =>
    rw [syncNamespace_of_error (h.files_eq ▸ hd), syncNamespace_of_error (hload.trans hd)]
    exact h.fail _
  | ok d =>
    rw [syncNamespace_of_ok (h.files_eq ▸ hd), syncNamespace_of_ok (hload.trans hd)]
    exact h.foldl_syncDocument hlayout hreal
      (fun language hlanguage => isTarget_iff.mpr (mem_documents.mpr ⟨hmem, hlanguage⟩)) hnew hd

theorem foldl_syncNamespace {rest : List String}
    (hrest : ∀ nameSpace ∈ rest, nameSpace ∈ namespaces)
    (hnew : (done ++ documents rest (p.otherLanguages languages)).Nodup) :
    Foretells before (rest.foldl (p.syncNamespace true languages) dry)
      (rest.foldl (p.syncNamespace false languages) real) := by
  induction rest generalizing done dry real with
  | nil => exact h
  | cons nameSpace rest ih =>
    rw [List.forall_mem_cons] at hrest
    rw [documents, List.flatMap_cons, ← List.append_assoc] at hnew
    exact ih (hreal.syncNamespace hlayout hrest.1)
      (h.syncNamespace hlayout hreal hrest.1 (List.nodup_append.mp hnew).1) hrest.2 hnew

end Foretells

theorem nodup_documents (hnamespaces : namespaces.Nodup) (hlanguages : languages.Nodup) :
    (documents namespaces languages).Nodup :=
  hnamespaces.product hlanguages

/-- When no language comes up twice, a dry run gives the outcomes and the failures of the real run
and changes nothing, and the real run writes the documents of the outcomes with additions. -/
theorem dry_sync_predicts {files : Directory} (h : p.Plain files)
    (hdistinct : ∀ languages, p.languages files = .ok languages → languages.Nodup) :
    (∃ e, p.sync files true = .error e ∧ p.sync files false = .error e) ∨
    ∃ dry real, p.sync files true = .ok dry ∧ p.sync files false = .ok real ∧
      dry.outcome.outcomes = real.outcome.outcomes ∧
      dry.outcome.failures = real.outcome.failures ∧
      dry.files = files ∧ dry.outcome.written = [] ∧
      real.outcome.written = (real.outcome.outcomes.filter ReconcileOutcome.isModified).map
        fun r => p.store.pathFor r.language r.nameSpace := by
  cases hsync : p.sync files true with
  | error e => exact Or.inl ⟨e, rfl, sync_error hsync false⟩
  | ok dry =>
    right
    obtain ⟨languages, namespaces, hlanguages, hnamespaces⟩ := exists_of_sync hsync
    obtain ⟨place, hlayout⟩ := h.exists_layout hlanguages hnamespaces
    have hreal := reaches_of_sync hlayout (sync_eq hlayout)
    have hstart : p.Reaches languages namespaces place files [] ⟨SyncOutcome.empty, files⟩ :=
      ⟨Follows.start p languages namespaces place files, Accounts.start p files⟩
    have hfirst : Foretells files ⟨SyncOutcome.empty, files⟩ ⟨SyncOutcome.empty, files⟩ :=
      ⟨rfl, rfl, rfl, rfl⟩
    have hforetells := hfirst.foldl_syncNamespace hlayout hstart (fun _ hmem => hmem)
      (nodup_documents hlayout.nodup_namespaces ((hdistinct languages hlanguages).filter _))
    rw [sync_eq hlayout] at hsync
    cases hsync
    exact ⟨_, _, rfl, sync_eq hlayout, hforetells.outcomes_eq, hforetells.failures_eq,
      hforetells.files_eq, hforetells.written_eq, hreal.outcome.written_eq⟩

theorem dry_sync_predicts_notice :
    let p := listing "en" ["en", "de"]
    p.Plain noticeFiles ∧
      (∀ languages, p.languages noticeFiles = .ok languages → languages.Nodup) ∧
      ∃ dry real, p.sync noticeFiles true = .ok dry ∧ p.sync noticeFiles false = .ok real ∧
        dry.outcome.added = 1 ∧ dry.outcome.outcomes = real.outcome.outcomes ∧
        dry.files = noticeFiles ∧ dry.outcome.written = [] ∧
        real.outcome.written = ["/locales/de/app.json"] := by
  intro p
  have hdistinct : ∀ languages, p.languages noticeFiles = .ok languages → languages.Nodup := by
    intro languages hlanguages
    have hlisted : p.languages noticeFiles = .ok ["en", "de"] := by rfl
    rw [hlisted] at hlanguages
    cases hlanguages
    decide
  obtain ⟨dry, hdry, hadded⟩ : ∃ dry, p.sync noticeFiles true = .ok dry ∧ dry.outcome.added = 1 :=
    exists_sync_of_map (by decide +kernel)
  obtain ⟨real, hreal, hwritten⟩ : ∃ real, p.sync noticeFiles false = .ok real ∧
      real.outcome.written = ["/locales/de/app.json"] :=
    exists_sync_of_map (by decide +kernel)
  refine ⟨notice_plain, hdistinct, dry, real, hdry, hreal, hadded, ?_⟩
  obtain ⟨e, herror, _⟩ | ⟨dry', real', hdry', hreal', houtcomes, _, hfiles, hnone, _⟩ :=
    dry_sync_predicts notice_plain hdistinct
  · rw [hdry] at herror
    cases herror
  · rw [hdry] at hdry'
    rw [hreal] at hreal'
    cases hdry'
    cases hreal'
    exact ⟨houtcomes, hfiles, hnone, hwritten⟩

/-- The codes `de-123` and `de-123/` differ, and their documents do not: the real run finds at the
second code what it has written at the first. -/
theorem dry_sync_differs_of_slash :
    let p := listing "en" ["en", "de-123", "de-123/"]
    ofConfig p.config = .ok p ∧ slashFiles.WellFormed ∧
      p.languages slashFiles = .ok ["en", "de-123", "de-123/"] ∧
      ∃ dry real, p.sync slashFiles true = .ok dry ∧ p.sync slashFiles false = .ok real ∧
        real.outcome.failures.findings = [] ∧ dry.outcome.outcomes ≠ real.outcome.outcomes := by
  intro p
  obtain ⟨dry, hdry, hdryAdded⟩ : ∃ dry, p.sync slashFiles true = .ok dry ∧
      dry.outcome.added = 2 :=
    exists_sync_of_map (by decide +kernel)
  obtain ⟨real, hreal, hstate⟩ : ∃ real, p.sync slashFiles false = .ok real ∧
      (real.outcome.failures.findings, real.outcome.added) = ([], 1) :=
    exists_sync_of_map (by decide +kernel)
  rw [Prod.mk.injEq] at hstate
  refine ⟨ofConfig_listing (by rfl), by decide, by rfl, dry, real, hdry, hreal, hstate.1, ?_⟩
  intro hsame
  have hadded : dry.outcome.added = real.outcome.added := by
    rw [SyncOutcome.added, hsame, SyncOutcome.added]
  omega

end LocaleAudit.Project
