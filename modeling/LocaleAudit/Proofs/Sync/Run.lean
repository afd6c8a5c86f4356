import LocaleAudit.Proofs.Report.Deduplication
import LocaleAudit.Proofs.Sync.Files

namespace LocaleAudit

/-!
# A run over all documents

What a run reports on a document is what was planned for it from the start, and it has written the
documents that something was added to.
-/

theorem Report.findings_push_ne_nil (r : Report) (f : Finding) : (r.push f).findings ≠ [] := by
  by_cases hknown : f.identity ∈ r.seen
  · rw [push_of_known hknown]
    exact List.ne_nil_of_mem (List.mem_map.mp hknown).choose_spec.1
  · rw [findings_push_of_new hknown]
    simp

namespace Project

variable {p : Project} {before : Directory} {place : List String}
  {languages namespaces : List String} {done : List (String × String)} {document : String × String}
  {nameSpace language : String} {o : SyncOutcome} {state : SyncState}

theorem outcome_of_plan {c : Catalog} {r : ReconcileOutcome}
    (h : p.plan before document = .ok (c, r)) :
    r.nameSpace = document.1 ∧ r.language = document.2 := by
  obtain ⟨default, target, hplanned⟩ := plan_eq_ok_iff.mp h
  exact hplanned.names_eq.2

/-- An outcome reports what was planned for a document, or that nothing is left to add to it. -/
structure ReportsOn (p : Project) (before : Directory) (document : String × String)
    (r : ReconcileOutcome) : Prop where
  nameSpace_eq : r.nameSpace = document.1
  language_eq : r.language = document.2
  exists_plan : ∃ c r', p.plan before document = .ok (c, r') ∧ r.conflicts = r'.conflicts ∧
    (r.added ≠ [] → r = r')

theorem reportsOn_of_report {r : ReconcileOutcome} (h : p.report before done document = .ok r) :
    p.ReportsOn before document r := by
  unfold report at h
  cases hplan : p.plan before document with
  | error e =>
    rw [hplan] at h
    cases h
  | ok planned =>
    obtain ⟨c, r'⟩ := planned
    obtain ⟨hnameSpace, hlanguage⟩ := outcome_of_plan hplan
    rw [hplan] at h
    simp only [Except.map, Except.ok.injEq] at h
    subst h
    split
    · exact ⟨hnameSpace, hlanguage, c, r', hplan, rfl, fun hadded => absurd rfl hadded⟩
    · exact ⟨hnameSpace, hlanguage, c, r', hplan, rfl, fun _ => rfl⟩

/-- What a run has reported and written when it has been to some documents. -/
structure Accounts (p : Project) (before : Directory) (done : List (String × String))
    (o : SyncOutcome) : Prop where
  reported : ∀ r ∈ o.outcomes, ∃ document ∈ done, p.ReportsOn before document r
  visited : ∀ document ∈ done, ∀ c r, p.plan before document = .ok (c, r) → r ∈ o.outcomes
  written_eq : o.written = (o.outcomes.filter ReconcileOutcome.isModified).map fun r =>
    p.store.pathFor r.language r.nameSpace
  readable : o.failures.findings = [] →
    ∀ document ∈ done, ∃ planned, p.plan before document = .ok planned

theorem Accounts.start (p : Project) (before : Directory) :
    p.Accounts before [] SyncOutcome.empty where
  reported := by simp [SyncOutcome.empty]
  visited := by simp
  written_eq := rfl
  readable := by simp

namespace Accounts

variable (h : p.Accounts before done o)

include h

/-- Documents that nothing can be planned for leave a failure. -/
theorem fail {more : List (String × String)} (f : Finding)
    (hmore : ∀ document ∈ more, ∃ e, p.plan before document = .error e) :
    p.Accounts before (done ++ more) (o.fail f) where
  reported := fun r hr => by
    obtain ⟨document, hmem, hreports⟩ := h.reported r hr
    exact ⟨document, List.mem_append_left _ hmem, hreports⟩
  visited := by
    refine List.forall_mem_append.mpr ⟨h.visited, fun document hmem c r hplan => ?_⟩
    obtain ⟨e, he⟩ := hmore document hmem
    rw [he] at hplan
    cases hplan
  written_eq := h.written_eq
  readable := fun hnone => absurd hnone (Report.findings_push_ne_nil _ _)

theorem visit (document : String × String) :
    p.Accounts before (done ++ [document])
      (o.visit p false document (p.report before done document)) := by
  cases hreport : p.report before done document with
  | error e =>
    refine h.fail _ (List.forall_mem_singleton.mpr ⟨e, ?_⟩)
    unfold report at hreport
    cases hplan : p.plan before document with
    | error e' =>
      rw [hplan] at hreport
      exact congrArg Except.error (Except.error.inj hreport)
    | ok planned =>
      rw [hplan] at hreport
      cases hreport
  | ok r =>
    have hreports := reportsOn_of_report hreport
    obtain ⟨c, r', hplan, _, _⟩ := hreports.exists_plan
    refine {
      reported := ?_
      visited := ?_
      written_eq := ?_
      readable := ?_ }
    · refine List.forall_mem_append.mpr ⟨fun r'' hr'' => ?_, List.forall_mem_singleton.mpr ?_⟩
      · obtain ⟨other, hmem, hother⟩ := h.reported r'' hr''
        exact ⟨other, List.mem_append_left _ hmem, hother⟩
      · exact ⟨document, by simp, hreports⟩
    · refine List.forall_mem_append.mpr ⟨fun other hmem c' r'' hplan' => ?_, ?_⟩
      · exact List.mem_append_left _ (h.visited other hmem c' r'' hplan')
      · refine List.forall_mem_singleton.mpr fun c' r'' hplan' => ?_
        by_cases hdone : document ∈ done
        · exact List.mem_append_left _ (h.visited document hdone c' r'' hplan')
        · unfold report at hreport
          simp only [hplan', Except.map, hdone, if_false, Except.ok.injEq] at hreport
          simp [SyncOutcome.visit, hreport]
    · cases hmodified : r.isModified with
      | false => simp [SyncOutcome.visit, h.written_eq, hmodified]
      | true =>
        simp [SyncOutcome.visit, h.written_eq, hmodified, hreports.nameSpace_eq,
          hreports.language_eq]
    · intro hnone
      exact List.forall_mem_append.mpr
        ⟨h.readable hnone, List.forall_mem_singleton.mpr ⟨_, hplan⟩⟩

end Accounts

/-- Where a run stands when it has been to some documents. -/
structure Reaches (p : Project) (languages namespaces place : List String) (before : Directory)
    (done : List (String × String)) (state : SyncState) : Prop where
  files : p.Follows languages namespaces place before done state.files
  outcome : p.Accounts before done state.outcome

/-- The languages of a run whose documents are reconciled. -/
def otherLanguages (p : Project) (languages : List String) : List String :=
  languages.filter (· != p.config.defaultLanguage)

theorem mem_otherLanguages : language ∈ p.otherLanguages languages ↔
    language ∈ languages ∧ language ≠ p.config.defaultLanguage := by
  rw [otherLanguages, List.mem_filter, bne_iff_ne]

theorem isTarget_iff :
    p.IsTarget languages namespaces document ↔
      document ∈ documents namespaces (p.otherLanguages languages) := by
  obtain ⟨nameSpace, language⟩ := document
  rw [mem_documents, mem_otherLanguages]
  constructor
  · rintro ⟨hnameSpace, hlanguage, hne⟩
    exact ⟨hnameSpace, hlanguage, hne⟩
  · rintro ⟨hnameSpace, hlanguage, hne⟩
    exact ⟨hnameSpace, hlanguage, hne⟩

theorem syncNamespace_of_error {dryRun : Bool} {e : Error}
    (h : p.store.load state.files p.config.defaultLanguage nameSpace = .error e) :
    p.syncNamespace dryRun languages state nameSpace = { state with
      outcome := state.outcome.fail (p.fileFinding p.config.defaultLanguage nameSpace e) } := by
  unfold syncNamespace
  simp only [h]

theorem syncNamespace_of_ok {dryRun : Bool} {d : Catalog}
    (h : p.store.load state.files p.config.defaultLanguage nameSpace = .ok d) :
    p.syncNamespace dryRun languages state nameSpace =
      (p.otherLanguages languages).foldl (p.syncDocument dryRun d) state := by
  unfold syncNamespace
  simp only [h]
  rfl

namespace Reaches

variable (hlayout : p.Layout before place languages namespaces)
  (h : p.Reaches languages namespaces place before done state)

include hlayout h

theorem syncDocument (htarget : p.IsTarget languages namespaces (nameSpace, language)) {d : Catalog}
    (hd : p.store.load before p.config.defaultLanguage nameSpace = .ok d) :
    p.Reaches languages namespaces place before (done ++ [(nameSpace, language)])
      (p.syncDocument false d state language) := by
  obtain ⟨files', hstep, hfiles⟩ := h.files.step hlayout htarget hd
  rw [hstep]
  exact ⟨hfiles, h.outcome.visit _⟩

theorem foldl_syncDocument {rest : List String} {d : Catalog}
    (hrest : ∀ language ∈ rest, p.IsTarget languages namespaces (nameSpace, language))
    (hd : p.store.load before p.config.defaultLanguage nameSpace = .ok d) :
    p.Reaches languages namespaces place before
      (done ++ rest.map fun language => (nameSpace, language))
      (rest.foldl (p.syncDocument false d) state) := by
  induction rest generalizing done state with
  | nil => simpa using h
  | cons language rest ih =>
    rw [List.forall_mem_cons] at hrest
    rw [List.map_cons, List.append_cons]
    exact ih (h.syncDocument hlayout hrest.1 hd) hrest.2

theorem syncNamespace (hmem : nameSpace ∈ namespaces) :
    p.Reaches languages namespaces place before
      (done ++ (p.otherLanguages languages).map fun language => (nameSpace, language))
      (p.syncNamespace false languages state nameSpace) := by
  have htarget : ∀ language ∈ p.otherLanguages languages,
      p.IsTarget languages namespaces (nameSpace, language) := fun language hlanguage =>
    isTarget_iff.mpr (mem_documents.mpr ⟨hmem, hlanguage⟩)
  have hload := h.files.load_default hlayout hmem
  cases hd : p.store.load before p.config.defaultLanguage nameSpace with
  | error e =>
    rw [syncNamespace_of_error (hload.trans hd)]
    have hplan : ∀ document ∈
        (p.otherLanguages languages).map fun language => (nameSpace, language),
          p.plan before document = .error e := by
      intro document hdocument
      obtain ⟨language, _, rfl⟩ := List.mem_map.mp hdocument
      exact plan_of_error hd
    refine ⟨h.files.skip ?_ fun document hdocument => rewrite?_of_error (hplan document hdocument),
      h.outcome.fail _ fun document hdocument => ⟨e, hplan document hdocument⟩⟩
    intro document hdocument
    obtain ⟨language, hlanguage, rfl⟩ := List.mem_map.mp hdocument
    exact htarget language hlanguage
  | ok d =>
    rw [syncNamespace_of_ok (hload.trans hd)]
    exact h.foldl_syncDocument hlayout htarget hd

theorem foldl_syncNamespace {rest : List String}
    (hrest : ∀ nameSpace ∈ rest, nameSpace ∈ namespaces) :
    p.Reaches languages namespaces place before
      (done ++ documents rest (p.otherLanguages languages))
      (rest.foldl (p.syncNamespace false languages) state) := by
  induction rest generalizing done state with
  | nil => simpa [documents] using h
  | cons nameSpace rest ih =>
    rw [List.forall_mem_cons] at hrest
    have hnext := ih (h.syncNamespace hlayout hrest.1) hrest.2
    rw [List.append_assoc] at hnext
    exact hnext

end Reaches

theorem sync_of_listed {dryRun : Bool} (hlanguages : p.languages before = .ok languages)
    (hnamespaces : p.namespaces before = .ok namespaces) :
    p.sync before dryRun = .ok (namespaces.foldl (p.syncNamespace dryRun languages)
      ⟨SyncOutcome.empty, before⟩) := by
  unfold sync
  rw [hlanguages, hnamespaces]
  rfl

theorem sync_eq {dryRun : Bool} (hlayout : p.Layout before place languages namespaces) :
    p.sync before dryRun = .ok (namespaces.foldl (p.syncNamespace dryRun languages)
      ⟨SyncOutcome.empty, before⟩) :=
  sync_of_listed hlayout.languages_eq hlayout.namespaces_eq

theorem exists_of_sync {dryRun : Bool} (h : p.sync before dryRun = .ok state) :
    ∃ languages namespaces,
      p.languages before = .ok languages ∧ p.namespaces before = .ok namespaces := by
  obtain ⟨languages, hlanguages, hrest⟩ := Config.bind_eq_ok_iff.mp h
  obtain ⟨namespaces, hnamespaces, _⟩ := Config.bind_eq_ok_iff.mp hrest
  exact ⟨languages, namespaces, hlanguages, hnamespaces⟩

/-- Only a project without catalogs stops a run, dry or not. -/
theorem sync_error {dryRun : Bool} {e : Error} (h : p.sync before dryRun = .error e)
    (dryRun' : Bool) : p.sync before dryRun' = .error e := by
  unfold sync at h ⊢
  cases hlanguages : p.languages before with
  | error e' =>
    rw [hlanguages] at h
    exact h
  | ok languages =>
    cases hnamespaces : p.namespaces before with
    | error e' =>
      rw [hlanguages, hnamespaces] at h
      exact h
    | ok namespaces =>
      rw [hlanguages, hnamespaces] at h
      cases h

theorem exists_sync_of_map {α : Type} {dryRun : Bool} {f : SyncState → α} {a : α}
    (h : (p.sync before dryRun).toOption.map f = some a) :
    ∃ state, p.sync before dryRun = .ok state ∧ f state = a := by
  cases hsync : p.sync before dryRun with
  | error e =>
    rw [hsync] at h
    cases h
  | ok state =>
    rw [hsync] at h
    exact ⟨state, rfl, Option.some.inj h⟩

/-- A whole run has been to every document of another language, and to no other one. -/
theorem reaches_of_sync (hlayout : p.Layout before place languages namespaces)
    (h : p.sync before false = .ok state) :
    p.Reaches languages namespaces place before
      (documents namespaces (p.otherLanguages languages)) state := by
  rw [sync_eq hlayout] at h
  cases h
  have hstart : p.Reaches languages namespaces place before [] ⟨SyncOutcome.empty, before⟩ :=
    ⟨Follows.start p languages namespaces place before, Accounts.start p before⟩
  exact hstart.foldl_syncNamespace hlayout fun nameSpace hmem => hmem

end Project

end LocaleAudit
