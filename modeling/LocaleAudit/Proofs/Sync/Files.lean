import LocaleAudit.Proofs.Sync.Documents

namespace LocaleAudit

/-!
# The files in the course of a run

A run goes from document to document. At any time a document that it has been to has what was
planned for it from the start, and everything else is as it was. So what a visit finds is what was
planned, unless the document comes up again: then there is nothing left to add.
-/

open Directory (fileAt HasDirectory)

theorem Store.fileName_injective {s : Store} {nameSpace nameSpace' : String}
    (h : s.fileName nameSpace = s.fileName nameSpace') : nameSpace = nameSpace' := by
  have htext := congrArg String.toList h
  simp only [fileName, String.toList_append, List.append_assoc] at htext
  exact String.toList_injective (List.append_cancel_right htext)

namespace Project

variable {p : Project} {before files files' : Directory} {place : List String}
  {languages namespaces : List String} {done : List (String × String)} {document : String × String}
  {nameSpace language : String} {state : SyncState}

/-- A document that a run goes to. -/
structure IsTarget (p : Project) (languages namespaces : List String) (document : String × String) :
    Prop where
  nameSpace_mem : document.1 ∈ namespaces
  language_mem : document.2 ∈ languages
  language_ne : document.2 ≠ p.config.defaultLanguage

section

variable {content : ByteArray} (hroot : Directory.Place files p.store.root place)
  (hstored : Directory.Stored files files' place language (p.store.fileName nameSpace) content)

include hroot hstored

/-- Saving one document changes no other one. -/
theorem readBytes_of_stored {nameSpace' language' : String}
    (hname : IsName (p.store.fileName nameSpace')) (hlanguage : IsName language')
    (hne : (nameSpace', language') ≠ (nameSpace, language)) :
    files'.readBytes (p.store.pathFor language' nameSpace') =
      files.readBytes (p.store.pathFor language' nameSpace') := by
  refine hstored.readBytes_other hroot hlanguage hname ?_
  by_cases hsame : language' = language
  · right
    intro hfile
    exact hne (by rw [Store.fileName_injective hfile, hsame])
  · exact Or.inl hsame

/-- Saving finds no new language: where the languages are those with a directory, the document's
language has one. -/
theorem languages_of_stored (hlisted : p.config.languages.isEmpty = true →
    HasDirectory (place ++ [language]) files) : p.languages files' = p.languages files := by
  unfold Project.languages candidateLanguages
  by_cases hempty : p.config.languages.isEmpty = true
  · rw [Store.listLanguages_of_stored hstored hroot (hlisted hempty)]
  · rw [if_neg hempty, if_neg hempty]

theorem namespaces_of_stored (hdefault : IsName p.config.defaultLanguage)
    (hother : language ≠ p.config.defaultLanguage) : p.namespaces files' = p.namespaces files := by
  unfold Project.namespaces
  rw [Store.listNamespaces_of_stored hstored hroot hdefault (Ne.symm hother)]

end

/-- The files of a run that has been to some documents, beside those that it started from. -/
structure Follows (p : Project) (languages namespaces place : List String) (before : Directory)
    (done : List (String × String)) (files : Directory) : Prop where
  isTarget : ∀ document ∈ done, p.IsTarget languages namespaces document
  hasDirectory : ∀ names, HasDirectory names before → HasDirectory names files
  rewritten : ∀ document ∈ done, ∀ c, p.rewrite? before document = some c →
    files.readBytes (p.store.pathFor document.2 document.1) = .ok (Catalog.render c.tree).toUTF8
  kept : ∀ nameSpace language, IsName (p.store.fileName nameSpace) → IsName language →
    ((nameSpace, language) ∈ done → p.rewrite? before (nameSpace, language) = none) →
      files.readBytes (p.store.pathFor language nameSpace) =
        before.readBytes (p.store.pathFor language nameSpace)
  fileAt_eq : ∀ names, (∀ document ∈ done, p.rewrite? before document ≠ none →
      names ≠ place ++ [document.2] ++ [p.store.fileName document.1]) →
    fileAt names files = fileAt names before
  languages_eq : p.languages files = p.languages before
  namespaces_eq : p.namespaces files = p.namespaces before
  files_eq : (∀ document ∈ done, p.rewrite? before document = none) → files = before

theorem Follows.start (p : Project) (languages namespaces place : List String)
    (before : Directory) : p.Follows languages namespaces place before [] before where
  isTarget := by simp
  hasDirectory := fun _ h => h
  rewritten := by simp
  kept := fun _ _ _ _ _ => rfl
  fileAt_eq := fun _ _ => rfl
  languages_eq := rfl
  namespaces_eq := rfl
  files_eq := fun _ => rfl

/-- What a run reports on a document, by the files that it started from. -/
def report (p : Project) (before : Directory) (done : List (String × String))
    (document : String × String) : Except Error ReconcileOutcome :=
  (p.plan before document).map fun planned =>
    if document ∈ done then { planned.2 with added := [] } else planned.2

namespace Follows

variable (hlayout : p.Layout before place languages namespaces)
  (h : p.Follows languages namespaces place before done files)

include h

theorem congr {done' : List (String × String)}
    (hdone : ∀ document, document ∈ done' ↔ document ∈ done) :
    p.Follows languages namespaces place before done' files where
  isTarget := fun document hmem => h.isTarget document ((hdone document).mp hmem)
  hasDirectory := h.hasDirectory
  rewritten := fun document hmem => h.rewritten document ((hdone document).mp hmem)
  kept := fun nameSpace language hname hlanguage hnone =>
    h.kept nameSpace language hname hlanguage fun hmem => hnone ((hdone _).mpr hmem)
  fileAt_eq := fun names hnames =>
    h.fileAt_eq names fun document hmem => hnames document ((hdone document).mpr hmem)
  languages_eq := h.languages_eq
  namespaces_eq := h.namespaces_eq
  files_eq := fun hnone =>
    h.files_eq fun document hmem => hnone document ((hdone document).mpr hmem)

/-- Documents that are not to be written change nothing. -/
theorem skip {more : List (String × String)}
    (htarget : ∀ document ∈ more, p.IsTarget languages namespaces document)
    (hmore : ∀ document ∈ more, p.rewrite? before document = none) :
    p.Follows languages namespaces place before (done ++ more) files where
  isTarget := List.forall_mem_append.mpr ⟨h.isTarget, htarget⟩
  hasDirectory := h.hasDirectory
  rewritten := by
    refine List.forall_mem_append.mpr ⟨h.rewritten, fun document hdocument c hc => ?_⟩
    rw [hmore document hdocument] at hc
    cases hc
  kept := fun nameSpace language hname hlanguage hnone =>
    h.kept nameSpace language hname hlanguage fun hmem => hnone (List.mem_append_left _ hmem)
  fileAt_eq := fun names hnames =>
    h.fileAt_eq names fun document hmem => hnames document (List.mem_append_left _ hmem)
  languages_eq := h.languages_eq
  namespaces_eq := h.namespaces_eq
  files_eq := fun hnone =>
    h.files_eq fun document hmem => hnone document (List.mem_append_left _ hmem)

include hlayout

theorem root : Directory.Place files p.store.root place :=
  hlayout.root.mono h.hasDirectory

/-- Saving what was planned for a document. -/
theorem save {c : Catalog} (htarget : p.IsTarget languages namespaces (nameSpace, language))
    (hrewrite : p.rewrite? before (nameSpace, language) = some c)
    (hstored : Directory.Stored files files' place language (p.store.fileName nameSpace)
      (Catalog.render c.tree).toUTF8) :
    p.Follows languages namespaces place before (done ++ [(nameSpace, language)]) files' := by
  have hlanguage := hlayout.isName_language _ htarget.language_mem
  have hname := hlayout.isName_document _ htarget.nameSpace_mem
  have hroot := h.root hlayout
  refine {
    isTarget := ?_
    hasDirectory := fun names hnames => hstored.hasDirectory names (h.hasDirectory names hnames)
    rewritten := ?_
    kept := ?_
    fileAt_eq := ?_
    languages_eq := ?_
    namespaces_eq := ?_
    files_eq := ?_ }
  · exact List.forall_mem_append.mpr ⟨h.isTarget, List.forall_mem_singleton.mpr htarget⟩
  · intro document hmem c' hc'
    by_cases hsame : document = (nameSpace, language)
    · subst hsame
      rw [hrewrite] at hc'
      cases hc'
      exact hstored.readBytes_self hroot hlanguage hname
    · have hdone : document ∈ done := by simpa [hsame] using hmem
      have hdocument := h.isTarget document hdone
      rw [readBytes_of_stored hroot hstored (hlayout.isName_document _ hdocument.nameSpace_mem)
        (hlayout.isName_language _ hdocument.language_mem) hsame]
      exact h.rewritten document hdone c' hc'
  · intro nameSpace' language' hname' hlanguage' hnone
    by_cases hsame : (nameSpace', language') = (nameSpace, language)
    · rw [hsame, hrewrite] at hnone
      cases hnone (by simp)
    · rw [readBytes_of_stored hroot hstored hname' hlanguage' hsame]
      exact h.kept _ _ hname' hlanguage' fun hmem => hnone (List.mem_append_left _ hmem)
  · intro names hnames
    rw [hstored.fileAt_eq, if_neg (hnames (nameSpace, language) (by simp) (by simp [hrewrite]))]
    exact h.fileAt_eq names fun document hmem => hnames document (List.mem_append_left _ hmem)
  · rw [← h.languages_eq]
    refine languages_of_stored hroot hstored fun hlisted => h.hasDirectory _ ?_
    exact hlayout.listed hlisted language htarget.language_mem htarget.language_ne
  · rw [← h.namespaces_eq]
    exact namespaces_of_stored hroot hstored hlayout.isName_defaultLanguage htarget.language_ne
  · intro hnone
    rw [hnone (nameSpace, language) (by simp)] at hrewrite
    cases hrewrite

theorem load_default (hmem : nameSpace ∈ namespaces) :
    p.store.load files p.config.defaultLanguage nameSpace =
      p.store.load before p.config.defaultLanguage nameSpace := by
  refine Store.load_congr (h.kept _ _ (hlayout.isName_document _ hmem)
    hlayout.isName_defaultLanguage ?_)
  intro hdone
  exact absurd rfl (h.isTarget _ hdone).language_ne

section

variable (htarget : p.IsTarget languages namespaces document)

include htarget

theorem plan_kept (hkept : document ∈ done → p.rewrite? before document = none) :
    p.plan files document = p.plan before document :=
  plan_congr (h.load_default hlayout htarget.nameSpace_mem)
    (h.kept _ _ (hlayout.isName_document _ htarget.nameSpace_mem)
      (hlayout.isName_language _ htarget.language_mem) hkept)

/-- On a document that was visited, nothing is left to add. -/
theorem plan_again (hdone : document ∈ done) :
    (p.plan files document).map Prod.snd =
      (p.plan before document).map fun planned => { planned.2 with added := [] } := by
  cases hrewrite : p.rewrite? before document with
  | none =>
    rw [h.plan_kept hlayout htarget fun _ => hrewrite]
    cases hplan : p.plan before document with
    | error e => rfl
    | ok planned =>
      obtain ⟨c, r⟩ := planned
      have hadded : r.added = [] := by
        rw [rewrite?_of_plan hplan] at hrewrite
        simpa [ReconcileOutcome.isModified] using hrewrite
      simp only [Except.map, ← hadded]
  | some c =>
    obtain ⟨r, hplan, _⟩ := rewrite?_eq_some_iff.mp hrewrite
    obtain ⟨default, target, hplanned⟩ := plan_eq_ok_iff.mp hplan
    obtain ⟨c', hagain⟩ := hplanned.plan_saved htarget.language_ne
      (h.load_default hlayout htarget.nameSpace_mem) (h.rewritten document hdone c hrewrite)
    rw [hagain, hplan]
    rfl

theorem plan_eq_report : (p.plan files document).map Prod.snd = p.report before done document := by
  unfold report
  by_cases hdone : document ∈ done
  · simp only [h.plan_again hlayout htarget hdone, hdone, if_true]
  · rw [h.plan_kept hlayout htarget fun hmem => absurd hmem hdone]
    simp only [hdone, if_false]

theorem rewrite?_eq :
    p.rewrite? files document = if document ∈ done then none else p.rewrite? before document := by
  split
  · rename_i hdone
    have hagain := h.plan_again hlayout htarget hdone
    cases hplan : p.plan files document with
    | error e => exact rewrite?_of_error hplan
    | ok planned =>
      obtain ⟨c, r⟩ := planned
      rw [rewrite?_of_plan hplan]
      rw [hplan] at hagain
      cases hbefore : p.plan before document with
      | error e =>
        rw [hbefore] at hagain
        cases hagain
      | ok planned =>
        rw [hbefore] at hagain
        cases hagain
        rfl
  · rename_i hdone
    unfold rewrite?
    rw [h.plan_kept hlayout htarget fun hmem => absurd hmem hdone]

end

end Follows

/-- One visit to a document. -/
theorem Follows.step (hlayout : p.Layout before place languages namespaces)
    (h : p.Follows languages namespaces place before done state.files)
    (htarget : p.IsTarget languages namespaces (nameSpace, language)) {d : Catalog}
    (hd : p.store.load before p.config.defaultLanguage nameSpace = .ok d) :
    ∃ files', p.syncDocument false d state language =
        ⟨state.outcome.visit p false (nameSpace, language)
          (p.report before done (nameSpace, language)), files'⟩ ∧
      p.Follows languages namespaces place before (done ++ [(nameSpace, language)]) files' := by
  obtain ⟨files', hstep, hfiles⟩ := exists_syncDocument (h.root hlayout)
    (hlayout.isName_language _ htarget.language_mem)
    (hlayout.isName_document _ htarget.nameSpace_mem)
    ((h.load_default hlayout htarget.nameSpace_mem).trans hd)
  rw [h.plan_eq_report hlayout htarget] at hstep
  refine ⟨files', hstep, ?_⟩
  rw [h.rewrite?_eq hlayout htarget] at hfiles
  by_cases hdone : (nameSpace, language) ∈ done
  · simp only [hdone, if_true] at hfiles
    rw [hfiles]
    exact h.congr fun other => by simpa using fun heq => heq ▸ hdone
  · simp only [hdone, if_false] at hfiles
    cases hrewrite : p.rewrite? before (nameSpace, language) with
    | none =>
      rw [hrewrite] at hfiles
      rw [hfiles]
      exact h.skip (List.forall_mem_singleton.mpr htarget) (List.forall_mem_singleton.mpr hrewrite)
    | some c =>
      rw [hrewrite] at hfiles
      exact h.save hlayout htarget hrewrite hfiles

end Project

end LocaleAudit
