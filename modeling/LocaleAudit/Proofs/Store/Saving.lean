import LocaleAudit.Proofs.Files.Growth
import LocaleAudit.Store

namespace LocaleAudit

/-!
# Saving a document

A document that was read, or was missing, can be saved. Saving gives it its new content and leaves
every other file as it is, and so every other document. Wherever a document may lie, saving it loses
nothing.
-/

namespace Directory

/-- The entries of a directory; none when it is missing. -/
def entriesAt (names : List String) (files : Directory) : Directory :=
  match lookup names files with
  | some (.directory d) => d
  | _ => []

theorem entriesAt_eq {names : List String} {files d : Directory}
    (h : lookup names files = some (.directory d)) : entriesAt names files = d := by
  rw [entriesAt, h]

/-- What storing a document does: the files after it beside those before. -/
structure Stored (files files' : Directory) (place : List String) (directory name : String)
    (content : ByteArray) : Prop where
  hasDirectory : ∀ names, HasDirectory names files → HasDirectory names files'
  fileAt_eq : ∀ names, fileAt names files' =
    if names = place ++ [directory] ++ [name] then some content else fileAt names files
  lookup_beside : ∀ other, ¬other <+: place ++ [directory] → ¬place ++ [directory] <+: other →
    lookup other files' = lookup other files
  lookup_directory : lookup (place ++ [directory]) files' =
    some (.directory (Entries.put name (.file content) (entriesAt (place ++ [directory]) files)))
  /-- A directory that was there keeps its place among its siblings. -/
  entriesAt_place : HasDirectory (place ++ [directory]) files → entriesAt place files' =
    Entries.put directory (.directory (entriesAt (place ++ [directory]) files'))
      (entriesAt place files)

section

variable {files files' : Directory} {place : List String} {directory name : String}

/-- A node put into a directory is that directory put back with the node in it. -/
theorem insert_concat_concat {d : Directory} {node : Node}
    (h : lookup (place ++ [directory]) files = some (.directory d)) :
    insert node (place ++ [directory] ++ [name]) files =
      insert (.directory (Entries.put name node d)) (place ++ [directory]) files := by
  induction place generalizing files with
  | nil =>
    rw [List.nil_append, lookup_singleton] at h
    rw [List.nil_append, List.singleton_append, insert, insert]
    simp only [h]
    rfl
  | cons key place ih =>
    obtain ⟨entries, hget, hlookup⟩ := exists_of_lookup_cons h
    rw [List.cons_append, List.cons_append, insert_cons hget, insert_cons hget, ih hlookup]

theorem stored_of_directory {d : Directory} (hplace : HasDirectory place files)
    (h : lookup (place ++ [directory]) files = some (.directory d))
    (hfree : ∀ entries, Entries.get? name d ≠ some (.directory entries)) (content : ByteArray) :
    Stored files (insert (.file content) (place ++ [directory] ++ [name]) files) place directory
      name content where
  hasDirectory _ hnames := hnames.insert h hfree
  fileAt_eq names := by
    split
    · subst names
      rw [fileAt, lookup_insert_place h]
    · rename_i hne
      exact fileAt_insert_of_ne h hfree (by simp) hne
  lookup_beside other habove hbelow :=
    lookup_insert_beside h habove fun hinitial => hbelow ((List.prefix_append _ _).trans hinitial)
  lookup_directory := by rw [lookup_insert_above h, entriesAt_eq h]
  entriesAt_place _ := by
    obtain ⟨siblings, hsiblings⟩ := hplace
    rw [entriesAt_eq (lookup_insert_above h), insert_concat_concat h,
      entriesAt_eq (lookup_insert_above hsiblings), entriesAt_eq hsiblings]

theorem stored_of_none (hplace : HasDirectory place files)
    (h : lookup (place ++ [directory]) files = none) (name : String) (content : ByteArray) :
    Stored files
      (insert (.file content) (place ++ [directory] ++ [name])
        (insert (.directory []) (place ++ [directory]) files)) place directory name content := by
  obtain ⟨siblings, hsiblings⟩ := hplace
  have hfree : ∀ entries, Entries.get? directory siblings ≠ some (.directory entries) := by
    intro entries hentries
    rw [lookup_concat hsiblings, hentries] at h
    cases h
  have hmade := lookup_insert_place hsiblings (.directory []) directory
  have hnone : ∀ entries, Entries.get? name ([] : Directory) ≠ some (.directory entries) := by simp
  have hstored := stored_of_directory (HasDirectory.insert hsiblings hfree ⟨siblings, hsiblings⟩)
    hmade hnone content
  have hempty : entriesAt (place ++ [directory]) files = [] := by rw [entriesAt, h]
  have hfiles : ∀ names, fileAt names (insert (.directory []) (place ++ [directory]) files) =
      fileAt names files := by
    intro names
    by_cases hnames : names = place ++ [directory]
    · rw [hnames, fileAt, fileAt, hmade, h]
    · exact fileAt_insert_of_ne hsiblings hfree (by simp) hnames
  exact {
    hasDirectory := fun names hnames =>
      hstored.hasDirectory names (hnames.insert hsiblings hfree)
    fileAt_eq := fun names => by rw [hstored.fileAt_eq, hfiles]
    lookup_beside := fun other habove hbelow => by
      rw [hstored.lookup_beside other habove hbelow]
      exact lookup_insert_beside hsiblings
        (fun hinitial => habove (hinitial.trans (List.prefix_append _ _))) hbelow
    lookup_directory := by rw [hstored.lookup_directory, entriesAt_eq hmade, hempty]
    entriesAt_place := by
      rintro ⟨entries, hentries⟩
      rw [h] at hentries
      cases hentries }

end

namespace Stored

variable {files files' : Directory} {place : List String} {directory name : String}
  {content : ByteArray} (h : Stored files files' place directory name content)

include h

/-- Where a document's directory now is, there was no file. -/
theorem lookup_ne_file (content' : ByteArray) :
    lookup (place ++ [directory]) files ≠ some (.file content') := by
  intro hfile
  have hsame := h.fileAt_eq (place ++ [directory])
  rw [if_neg (by simp), fileAt, fileAt, h.lookup_directory, hfile] at hsame
  cases hsame

/-- Another directory at the same place stays as it is. -/
theorem lookup_other {directory' : String} (hother : directory' ≠ directory) :
    lookup (place ++ [directory']) files' = lookup (place ++ [directory']) files := by
  have hbeside : ∀ first second : String, first ≠ second →
      ¬place ++ [first] <+: place ++ [second] := by
    intro first second hne hinitial
    simp only [List.prefix_append_right_inj, List.cons_prefix_cons] at hinitial
    exact hne hinitial.1
  exact h.lookup_beside _ (hbeside _ _ hother) (hbeside _ _ (Ne.symm hother))

variable {base : String} (hplace : Place files base place)

include hplace

theorem readBytes_self (hdirectory : IsName directory) (hname : IsName name) :
    readBytes files' (Path.join (Path.join base directory) name) = .ok content := by
  rw [readBytes_join_join (hplace.mono h.hasDirectory) hdirectory hname, h.lookup_directory]
  simp only [Entries.get?_put_same]

/-- Every other document reads as before. -/
theorem readBytes_other {directory' name' : String} (hdirectory' : IsName directory')
    (hname' : IsName name') (hother : directory' ≠ directory ∨ name' ≠ name) :
    readBytes files' (Path.join (Path.join base directory') name') =
      readBytes files (Path.join (Path.join base directory') name') := by
  rw [readBytes_join_join (hplace.mono h.hasDirectory) hdirectory' hname',
    readBytes_join_join hplace hdirectory' hname']
  by_cases hsame : directory' = directory
  · subst hsame
    have hne : name ≠ name' := fun heq => hother.elim (fun hne => hne rfl) fun hne => hne heq.symm
    rw [h.lookup_directory]
    simp only [Entries.get?_put_ne hne]
    cases hlookup : lookup (place ++ [directory']) files with
    | none => simp [entriesAt, hlookup]
    | some node =>
      cases node with
      | file content' => exact absurd hlookup (h.lookup_ne_file content')
      | directory d => simp [entriesAt, hlookup]
  · rw [h.lookup_other hsame]

end Stored

end Directory

open Directory in
/-- A catalog that was loaded or stands for a missing document can be saved. -/
theorem Store.exists_save {s : Store} {files : Directory} {place : List String}
    (hplace : Place files s.root place) (c : Catalog) (hlanguage : IsName c.language)
    (hname : IsName (s.fileName c.nameSpace))
    (hread : (∃ bytes, files.readBytes (s.pathFor c.language c.nameSpace) = .ok bytes) ∨
      files.readBytes (s.pathFor c.language c.nameSpace) = .error .notFound) :
    ∃ files', s.save files c = (files', .ok ()) ∧ Stored files files' place c.language
      (s.fileName c.nameSpace) (Catalog.render c.tree).toUTF8 := by
  have hbytes := readBytes_join_join hplace hlanguage hname
  have hensure := ensureDirectory_names hplace hlanguage
  unfold pathFor at hread
  unfold save pathFor writeText makeParent
  simp only [Path.parent?_join_join s.root hlanguage hname]
  cases hlookup : lookup (place ++ [c.language]) files with
  | none =>
    rw [hlookup] at hensure
    have hstored := stored_of_none hplace.leads.hasDirectory hlookup (s.fileName c.nameSpace)
      (Catalog.render c.tree).toUTF8
    obtain ⟨siblings, hsiblings⟩ := hplace.leads.hasDirectory
    have hmade := lookup_insert_place hsiblings (.directory []) c.language
    have hplace' : Place (Directory.insert (.directory []) (place ++ [c.language]) files) s.root
        place := by
      apply hplace.mono fun names hnames => hnames.insert hsiblings ?_
      intro entries hentries
      rw [lookup_concat hsiblings, hentries] at hlookup
      cases hlookup
    refine ⟨_, ?_, hstored⟩
    rw [makeDirectories_join hlanguage hensure]
    simp only [writeBytes_join_join hplace' hlanguage hname hmade (by simp)]
    rfl
  | some node =>
    rw [hlookup] at hensure hbytes
    cases node with
    | file content =>
      simp only at hbytes
      rw [hbytes] at hread
      simp at hread
    | directory d =>
      have hfree : ∀ entries,
          Entries.get? (s.fileName c.nameSpace) d ≠ some (.directory entries) := by
        intro entries hentries
        simp only [hentries] at hbytes
        rw [hbytes] at hread
        simp at hread
      refine ⟨_, ?_, stored_of_directory hplace.leads.hasDirectory hlookup hfree _⟩
      rw [makeDirectories_join hlanguage hensure]
      simp only [writeBytes_join_join hplace hlanguage hname hlookup hfree]
      rfl

namespace Store

open Directory

variable {s : Store} {files files' : Directory} {c : Catalog}

/-- Saving writes one file, where the path of the document leads, or none at all. -/
theorem save_cases (s : Store) (files : Directory) (c : Catalog) :
    (∃ files' e, s.save files c = (files', .error e) ∧ Rewrites [] files files') ∨
    ∃ files' names, s.save files c = (files', .ok ()) ∧ Rewrites [names] files files' ∧
      files'.locate (s.pathFor c.language c.nameSpace) = .ok names ∧
      fileAt names files' = some (Catalog.render c.tree).toUTF8 := by
  have hmade := makeParent_rewrites files (s.pathFor c.language c.nameSpace)
  unfold save writeText
  simp only
  cases hparent : files.makeParent (s.pathFor c.language c.nameSpace) with
  | mk made result =>
    rw [hparent] at hmade
    cases result with
    | error fault => exact Or.inl ⟨made, _, rfl, hmade⟩
    | ok =>
      cases hwrite : made.writeBytes (s.pathFor c.language c.nameSpace)
          (Catalog.render c.tree).toUTF8 with
      | error fault =>
        refine Or.inl ⟨made, .io fault, ?_, hmade⟩
        simp only [hwrite]
        rfl
      | ok files' =>
        obtain ⟨names, hlocate, hwritten, hfile⟩ := exists_of_writeBytes hwrite
        refine Or.inr ⟨files', names, ?_, hmade.trans hwritten, hwritten.locate_eq hlocate, hfile⟩
        simp only [hwrite]
        rfl

theorem grows_save (s : Store) (files : Directory) (c : Catalog) :
    Grows files (s.save files c).1 := by
  obtain ⟨files', e, hsave, hmade⟩ | ⟨files', names, hsave, hwritten, _⟩ := s.save_cases files c
  · rw [hsave]
    exact hmade.toGrows
  · rw [hsave]
    exact hwritten.toGrows

end Store

end LocaleAudit
