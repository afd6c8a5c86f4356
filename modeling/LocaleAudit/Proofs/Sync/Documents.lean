import LocaleAudit.Proofs.Reconciliation.Rereading
import LocaleAudit.Proofs.Store.Reading
import LocaleAudit.Proofs.Sync.Layout

namespace LocaleAudit

/-!
# Synchronising one document

What a run makes of a document depends on that document and on the default language's alone. What it
saves can be read again, and on what is read then there is nothing left to add.
-/

open Json (Number)

theorem Json.Number.exists_reread :
    ∃ f : Number → Number, ∀ n : Number, n.Storable → n.ReadsAs (f n) := by
  classical
  refine ⟨fun n => if h : n.Storable then h.exists_readsAs.choose else n, fun n hn => ?_⟩
  simp only [hn, dif_pos]
  exact hn.exists_readsAs.choose_spec

/-- A catalog of a language and a namespace whose document can be written. -/
structure Catalog.Readable (c : Catalog) (nameSpace language : String) : Prop where
  language_eq : c.language = language
  nameSpace_eq : c.nameSpace = nameSpace
  wellFormed : c.tree.WellFormed
  writable : Catalog.Writable Number.Storable c.tree

/-- What is reconciled can be written again, under the names of the target. -/
theorem Catalog.Readable.reconcile {default target : Catalog} {nameSpace source language : String}
    (marker : Marker) (policy : ConflictPolicy) (hd : default.Readable nameSpace source)
    (ht : target.Readable nameSpace language) (hother : language ≠ source) :
    (Reconciliation.reconcile marker policy default target).1.Readable nameSpace language := by
  have hlanguage : default.language ≠ target.language := by
    rw [hd.language_eq, ht.language_eq]
    exact Ne.symm hother
  obtain ⟨⟨hlanguageEq, hnameSpaceEq⟩, _⟩ :=
    Reconciliation.names_reconcile marker policy default target
  obtain ⟨progress, hprogress, hresult⟩ :=
    Reconciliation.reached_reconcile marker policy target hd.wellFormed ht.wellFormed hlanguage
  exact {
    language_eq := hlanguageEq.trans ht.language_eq
    nameSpace_eq := hnameSpaceEq.trans ht.nameSpace_eq
    wellFormed := by
      rw [hresult]
      exact hprogress.wellFormed
    writable := Reconciliation.writable_reconcile marker policy hd.wellFormed ht.wellFormed
      hd.writable ht.writable hlanguage }

namespace Store

variable {s : Store} {files : Directory} {nameSpace language : String} {c : Catalog}

theorem readable_of_load (h : s.load files language nameSpace = .ok c) :
    c.Readable nameSpace language := by
  obtain ⟨_, text, _, _, hparse⟩ := exists_readBytes_of_load h
  obtain ⟨hlanguage, hnameSpace, hwellFormed⟩ := Catalog.wellFormed_of_parse hparse
  exact ⟨hlanguage, hnameSpace, hwellFormed, Catalog.writable_of_parse hparse⟩

theorem readable_of_loadOrEmpty (h : s.loadOrEmpty files language nameSpace = .ok c) :
    c.Readable nameSpace language := by
  rcases loadOrEmpty_cases h with h | ⟨_, rfl⟩
  · exact readable_of_load h
  · exact ⟨rfl, rfl, Tree.WellFormed.nil, Catalog.writable_empty _⟩

/-- What was saved can be loaded, as a document of any language and namespace. -/
theorem exists_load_of_rendered {tree : Tree} (h : Catalog.Writable Number.Storable tree)
    (hbytes : files.readBytes (s.pathFor language nameSpace) =
      .ok (Catalog.render tree).toUTF8) : ∃ c, s.load files language nameSpace = .ok c := by
  obtain ⟨f, hf⟩ := Number.exists_reread
  exact ⟨_, (load_of_readBytes hbytes (decodeText_render tree)).trans
    (h.parse_render hf language nameSpace)⟩

end Store

namespace Project

variable {p : Project} {files files' : Directory} {document : String × String}
  {nameSpace language : String} {c : Catalog} {r : ReconcileOutcome}

/-- What a run makes of the document of a namespace and a language: its catalog afterwards, and what
was added to it. -/
def plan (p : Project) (files : Directory) (document : String × String) :
    Except Error (Catalog × ReconcileOutcome) :=
  match p.store.load files p.config.defaultLanguage document.1 with
  | .error e => .error e
  | .ok default =>
    (p.store.loadOrEmpty files document.2 document.1).map
      (Reconciliation.reconcile p.marker p.config.policy default)

/-- The catalog that a run saves for a document, if it does. -/
def rewrite? (p : Project) (files : Directory) (document : String × String) : Option Catalog :=
  match p.plan files document with
  | .error _ => none
  | .ok (c, r) => if r.isModified then some c else none

theorem rewrite?_of_plan (h : p.plan files document = .ok (c, r)) :
    p.rewrite? files document = if r.isModified then some c else none := by
  unfold rewrite?
  rw [h]

theorem rewrite?_of_error {e : Error} (h : p.plan files document = .error e) :
    p.rewrite? files document = none := by
  unfold rewrite?
  rw [h]

theorem rewrite?_eq_some_iff :
    p.rewrite? files document = some c ↔
      ∃ r, p.plan files document = .ok (c, r) ∧ r.isModified = true := by
  cases hplan : p.plan files document with
  | error e => simp [rewrite?_of_error hplan]
  | ok planned =>
    obtain ⟨c', r'⟩ := planned
    rw [rewrite?_of_plan hplan]
    simp only [Option.ite_none_right_eq_some, Option.some.injEq, Except.ok.injEq, Prod.mk.injEq]
    constructor
    · rintro ⟨hr, rfl⟩
      exact ⟨r', ⟨rfl, rfl⟩, hr⟩
    · rintro ⟨r, ⟨rfl, rfl⟩, hr⟩
      exact ⟨hr, rfl⟩

theorem plan_of_default {d : Catalog}
    (h : p.store.load files p.config.defaultLanguage nameSpace = .ok d) :
    p.plan files (nameSpace, language) = (p.store.loadOrEmpty files language nameSpace).map
      (Reconciliation.reconcile p.marker p.config.policy d) := by
  unfold plan
  simp only [h]

theorem plan_of_error {e : Error}
    (h : p.store.load files p.config.defaultLanguage nameSpace = .error e) :
    p.plan files (nameSpace, language) = .error e := by
  unfold plan
  simp only [h]

theorem rewrite?_of_unreadable {e : Error}
    (h : p.store.loadOrEmpty files language nameSpace = .error e) :
    p.rewrite? files (nameSpace, language) = none := by
  cases hdefault : p.store.load files p.config.defaultLanguage nameSpace with
  | error e' => exact rewrite?_of_error (plan_of_error hdefault)
  | ok d =>
    have hplan : p.plan files (nameSpace, language) = .error e := by
      rw [plan_of_default hdefault, h]
      rfl
    exact rewrite?_of_error hplan

theorem plan_congr
    (hdefault : p.store.load files' p.config.defaultLanguage nameSpace =
      p.store.load files p.config.defaultLanguage nameSpace)
    (hbytes : files'.readBytes (p.store.pathFor language nameSpace) =
      files.readBytes (p.store.pathFor language nameSpace)) :
    p.plan files' (nameSpace, language) = p.plan files (nameSpace, language) := by
  unfold plan
  simp only [hdefault, Store.loadOrEmpty_congr hbytes]

/-- The two catalogs that a plan was made from. -/
structure Planned (p : Project) (files : Directory) (nameSpace language : String) (c : Catalog)
    (r : ReconcileOutcome) (default target : Catalog) : Prop where
  default_eq : p.store.load files p.config.defaultLanguage nameSpace = .ok default
  target_eq : p.store.loadOrEmpty files language nameSpace = .ok target
  result_eq : Reconciliation.reconcile p.marker p.config.policy default target = (c, r)

theorem plan_eq_ok_iff :
    p.plan files (nameSpace, language) = .ok (c, r) ↔
      ∃ default target, p.Planned files nameSpace language c r default target := by
  constructor
  · intro h
    cases hdefault : p.store.load files p.config.defaultLanguage nameSpace with
    | error e =>
      rw [plan_of_error hdefault] at h
      cases h
    | ok default =>
      rw [plan_of_default hdefault] at h
      cases htarget : p.store.loadOrEmpty files language nameSpace with
      | error e =>
        rw [htarget] at h
        cases h
      | ok target =>
        rw [htarget] at h
        exact ⟨default, target, hdefault, htarget, Except.ok.inj h⟩
  · rintro ⟨default, target, hdefault, htarget, hresult⟩
    rw [plan_of_default hdefault, htarget]
    exact congrArg Except.ok hresult

namespace Planned

variable {default target : Catalog}
  (h : p.Planned files nameSpace language c r default target)
  (hother : language ≠ p.config.defaultLanguage)

include h

theorem readable_default : default.Readable nameSpace p.config.defaultLanguage :=
  Store.readable_of_load h.default_eq

theorem readable_target : target.Readable nameSpace language :=
  Store.readable_of_loadOrEmpty h.target_eq

/-- Reconciling keeps the names of the target, and reports under them. -/
theorem names_eq : (c.language = language ∧ c.nameSpace = nameSpace) ∧
    r.nameSpace = nameSpace ∧ r.language = language := by
  have hnames := Reconciliation.names_reconcile p.marker p.config.policy default target
  rwa [h.result_eq, h.readable_target.language_eq, h.readable_target.nameSpace_eq] at hnames

/-- A document that was planned for can be saved: it was read, or was missing. -/
theorem exists_save {place : List String} (hroot : Directory.Place files p.store.root place)
    (hlanguage : IsName language) (hdocument : IsName (p.store.fileName nameSpace)) :
    ∃ files', p.store.save files c = (files', .ok ()) ∧ Directory.Stored files files' place language
      (p.store.fileName nameSpace) (Catalog.render c.tree).toUTF8 := by
  have hread := Store.readBytes_of_loadOrEmpty h.target_eq
  obtain ⟨rfl, rfl⟩ := h.names_eq.1
  exact Store.exists_save hroot c hlanguage hdocument hread

include hother

theorem language_ne : default.language ≠ target.language := by
  rw [h.readable_default.language_eq, h.readable_target.language_eq]
  exact Ne.symm hother

theorem writable : Catalog.Writable Number.Storable c.tree := by
  have hreadable := h.readable_default.reconcile p.marker p.config.policy h.readable_target hother
  rw [h.result_eq] at hreadable
  exact hreadable.writable

/-- What is saved can be read back, and then nothing is left to add. -/
theorem exists_load_saved
    (hbytes : files'.readBytes (p.store.pathFor language nameSpace) =
      .ok (Catalog.render c.tree).toUTF8) :
    ∃ again, p.store.load files' language nameSpace = .ok again ∧
      (Reconciliation.reconcile p.marker p.config.policy default again).2 =
        { r with added := [] } := by
  obtain ⟨f, hf⟩ := Number.exists_reread
  have hload := (Store.load_of_readBytes hbytes (decodeText_render c.tree)).trans
    ((h.writable hother).parse_render hf language nameSpace)
  refine ⟨_, hload, ?_⟩
  have hread := (Store.readable_of_load hload).wellFormed
  have hresult := h.result_eq
  have htree :
      c.tree = (Reconciliation.reconcile p.marker p.config.policy default target).1.tree := by
    rw [hresult]
  have hreread := Reconciliation.reconcile_reread p.marker p.config.policy f
    h.readable_default.wellFormed h.readable_target.wellFormed (h.language_ne hother)
    (by rwa [← htree])
  rw [← htree, hresult] at hreread
  rw [← hreread]
  congr 2
  rw [← h.readable_target.language_eq, ← h.readable_target.nameSpace_eq]

theorem plan_saved
    (hdefault : p.store.load files' p.config.defaultLanguage nameSpace =
      p.store.load files p.config.defaultLanguage nameSpace)
    (hbytes : files'.readBytes (p.store.pathFor language nameSpace) =
      .ok (Catalog.render c.tree).toUTF8) :
    ∃ c', p.plan files' (nameSpace, language) = .ok (c', { r with added := [] }) := by
  obtain ⟨again, hload, hreread⟩ := h.exists_load_saved hother hbytes
  refine ⟨(Reconciliation.reconcile p.marker p.config.policy default again).1, ?_⟩
  rw [plan_of_default (hdefault.trans h.default_eq), Store.loadOrEmpty_of_load hload, ← hreread]
  rfl

end Planned

end Project

/-! ## A step of a run -/

/-- What a visit to a document leaves in the outcome of a run. -/
def SyncOutcome.visit (p : Project) (dryRun : Bool) (document : String × String) (o : SyncOutcome) :
    Except Error ReconcileOutcome → SyncOutcome
  | .error e => o.fail (p.fileFinding document.2 document.1 e)
  | .ok r =>
    { o with
      outcomes := o.outcomes ++ [r]
      written :=
        if r.isModified && !dryRun then o.written ++ [p.store.pathFor document.2 document.1]
        else o.written }

namespace Project

variable {p : Project} {state : SyncState} {nameSpace language : String} {d : Catalog}

theorem saveModified_of_not_modified {dryRun : Bool} {c : Catalog} {r : ReconcileOutcome}
    (h : r.isModified = false) : p.saveModified dryRun state c r = state := by
  rw [saveModified, h]
  rfl

theorem saveModified_of_save {c : Catalog} {r : ReconcileOutcome} {files' : Directory}
    (h : r.isModified = true) (hsave : p.store.save state.files c = (files', .ok ())) :
    p.saveModified false state c r =
      { outcome := { state.outcome with
          written := state.outcome.written ++ [p.store.pathFor c.language c.nameSpace] }
        files := files' } := by
  unfold saveModified
  rw [h, hsave]
  rfl

theorem syncDocument_dry
    (hd : p.store.load state.files p.config.defaultLanguage nameSpace = .ok d) :
    p.syncDocument true d state language =
      ⟨state.outcome.visit p true (nameSpace, language)
        ((p.plan state.files (nameSpace, language)).map Prod.snd), state.files⟩ := by
  obtain rfl := (Store.readable_of_load hd).nameSpace_eq
  rw [plan_of_default hd]
  unfold syncDocument
  cases htarget : p.store.loadOrEmpty state.files language d.nameSpace with
  | error e => rfl
  | ok target => simp [saveModified, SyncOutcome.visit, Except.map]

/-- A real visit saves the document when something was added to it, and nothing keeps it from
that. -/
theorem exists_syncDocument {place : List String}
    (hroot : Directory.Place state.files p.store.root place) (hlanguage : IsName language)
    (hdocument : IsName (p.store.fileName nameSpace))
    (hd : p.store.load state.files p.config.defaultLanguage nameSpace = .ok d) :
    ∃ files', p.syncDocument false d state language =
        ⟨state.outcome.visit p false (nameSpace, language)
          ((p.plan state.files (nameSpace, language)).map Prod.snd), files'⟩ ∧
      match p.rewrite? state.files (nameSpace, language) with
      | none => files' = state.files
      | some c => Directory.Stored state.files files' place language (p.store.fileName nameSpace)
        (Catalog.render c.tree).toUTF8 := by
  obtain rfl := (Store.readable_of_load hd).nameSpace_eq
  have hplan : p.plan state.files (d.nameSpace, language) =
      (p.store.loadOrEmpty state.files language d.nameSpace).map
        (Reconciliation.reconcile p.marker p.config.policy d) :=
    plan_of_default hd
  unfold syncDocument
  cases htarget : p.store.loadOrEmpty state.files language d.nameSpace with
  | error e =>
    rw [htarget] at hplan
    refine ⟨state.files, ?_, ?_⟩
    · rw [hplan]
      rfl
    · rw [rewrite?_of_error hplan]
  | ok target =>
    rw [htarget] at hplan
    cases hresult : Reconciliation.reconcile p.marker p.config.policy d target with
    | mk c r =>
      have hc : p.plan state.files (d.nameSpace, language) = .ok (c, r) :=
        hplan.trans (congrArg Except.ok hresult)
      have hplanned : p.Planned state.files d.nameSpace language c r d target :=
        ⟨hd, htarget, hresult⟩
      cases hmodified : r.isModified with
      | false =>
        refine ⟨state.files, ?_, ?_⟩
        · rw [hc]
          simp only [hresult, saveModified_of_not_modified hmodified, SyncOutcome.visit, Except.map,
            hmodified, Bool.false_and, Bool.false_eq_true, if_false]
        · rw [rewrite?_of_plan hc, hmodified]
          rfl
      | true =>
        obtain ⟨hclanguage, hcnameSpace⟩ := hplanned.names_eq.1
        obtain ⟨files', hsave, hstored⟩ := hplanned.exists_save hroot hlanguage hdocument
        refine ⟨files', ?_, ?_⟩
        · rw [hc]
          simp only [hresult, saveModified_of_save hmodified hsave, hclanguage, hcnameSpace,
            SyncOutcome.visit, Except.map, hmodified, Bool.not_false, Bool.and_self, if_true]
        · rw [rewrite?_of_plan hc, hmodified]
          exact hstored

end Project

end LocaleAudit
