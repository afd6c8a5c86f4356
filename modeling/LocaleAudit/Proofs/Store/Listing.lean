import LocaleAudit.Proofs.Entries
import LocaleAudit.Proofs.Store.Saving

namespace LocaleAudit

/-!
# What a store lists

The namespaces of a language come from the names of its documents, each once. Saving a document
changes neither the namespaces of another language nor, when its directory was there, the languages.
In a tree that has grown the same namespaces are listed, unless a file was added for another one.
-/

namespace Directory

variable {files files' d : Directory} {base directory name : String} {place : List String}
  {content : ByteArray}

theorem WellFormed.lookup {names : List String} (h : files.WellFormed)
    (hlookup : lookup names files = some (.directory d)) : d.WellFormed := by
  induction names generalizing files with
  | nil =>
    cases hlookup
    exact h
  | cons name names ih =>
    obtain ⟨entries, hget, hlookup⟩ := exists_of_lookup_cons hlookup
    cases h with
    | directory _ _ hnodes => exact ih (hnodes _ (Entries.mem_of_get? hget)) hlookup

namespace Place

theorem locate (h : Place files base place) : locate files base = .ok place := by
  obtain ⟨hleads, hnul⟩ := h
  refine locate_eq_ok_iff.mpr ⟨hnul, ?_⟩
  obtain ⟨d, hd⟩ := hleads.hasDirectory
  have hempty : locateFrom files place [""] = .ok place := by
    rw [locateFrom_cons hd, if_pos (Or.inl rfl)]
    rfl
  rw [Path.piecesBefore] at hleads
  split at hleads
  · rename_i hbase
    rw [String.isEmpty_iff.mp hbase]
    cases hleads.locateFrom_eq
    exact hempty
  split at hleads
  · rename_i hslash
    obtain ⟨front, rfl⟩ := Path.exists_eq_append_slash hslash
    rw [Path.pieces_slash, List.dropLast_concat] at hleads
    rw [Path.pieces_slash, locateFrom_append_of_leads hleads (List.cons_ne_nil _ _), hempty]
  · exact hleads.locateFrom_eq

/-- A path that leads to a directory leads there with more names behind it. -/
theorem of_locate (hlocate : Directory.locate files base = .ok place)
    (hdirectory : HasDirectory place files) : Place files base place := by
  obtain ⟨hnul, hlocate⟩ := locate_eq_ok_iff.mp hlocate
  refine ⟨⟨?_, hdirectory⟩, hnul⟩
  have hsilent {here : List String} (h : locateFrom files here [""] = .ok place) :
      place = here := by
    obtain ⟨d, hd⟩ := hasDirectory_of_locateFrom (List.cons_ne_nil _ _) h
    rw [locateFrom_cons hd, if_pos (Or.inl rfl)] at h
    exact (Except.ok.inj h).symm
  rw [Path.piecesBefore]
  split
  · rename_i hbase
    rw [String.isEmpty_iff.mp hbase] at hlocate
    rw [hsilent hlocate]
    rfl
  split
  · rename_i hslash
    obtain ⟨front, rfl⟩ := Path.exists_eq_append_slash hslash
    rw [Path.pieces_slash] at hlocate
    rw [Path.pieces_slash, List.dropLast_concat]
    obtain ⟨before, hleads, hlast⟩ := exists_leads_of_append (List.cons_ne_nil _ _) hlocate
    rw [hsilent hlast]
    exact hleads.locateFrom_eq
  · exact hlocate

theorem readDirectory (h : Place files base place) :
    readDirectory files base = .ok (entriesAt place files) := by
  obtain ⟨d, hd⟩ := h.leads.hasDirectory
  rw [Directory.readDirectory, find, h.locate, entriesAt_eq hd]
  simp only [hd]

theorem readDirectory_join (h : Place files base place) (hdirectory : IsName directory) :
    Directory.readDirectory files (Path.join base directory) =
      match lookup (place ++ [directory]) files with
      | none => .error .notFound
      | some (.file _) => .error .notDirectory
      | some (.directory d) => .ok d := by
  rw [Directory.readDirectory, find_join h hdirectory]
  cases lookup (place ++ [directory]) files with
  | none => rfl
  | some node => cases node <;> rfl

end Place

theorem exists_lookup_of_readDirectory (h : readDirectory files base = .ok d) :
    ∃ place, Place files base place ∧ lookup place files = some (.directory d) := by
  rw [readDirectory, find] at h
  cases hlocate : locate files base with
  | error fault => simp [hlocate] at h
  | ok place =>
    cases hlookup : lookup place files with
    | none => simp [hlocate, hlookup] at h
    | some node =>
      cases node with
      | file content => simp [hlocate, hlookup] at h
      | directory entries =>
        simp only [hlocate, hlookup, Except.ok.injEq] at h
        cases h
        exact ⟨place, .of_locate hlocate ⟨d, hlookup⟩, hlookup⟩

namespace Stored

variable (h : Stored files files' place directory name content) (hplace : Place files base place)

include h hplace

theorem readDirectory_other {directory' : String} (hdirectory' : IsName directory')
    (hother : directory' ≠ directory) :
    readDirectory files' (Path.join base directory') =
      readDirectory files (Path.join base directory') := by
  rw [(hplace.mono h.hasDirectory).readDirectory_join hdirectory',
    hplace.readDirectory_join hdirectory', h.lookup_other hother]

end Stored

end Directory

namespace Store

open Directory

variable {s : Store} {files files' : Directory} {place : List String} {directory name : String}
  {content : ByteArray}

theorem listNamespaces_of_stored (h : Stored files files' place directory name content)
    (hplace : Place files s.root place) {language : String} (hlanguage : IsName language)
    (hother : language ≠ directory) :
    s.listNamespaces files' language = s.listNamespaces files language := by
  unfold listNamespaces
  rw [h.readDirectory_other hplace hlanguage hother]

theorem listLanguages_of_stored (h : Stored files files' place directory name content)
    (hplace : Place files s.root place) (hthere : HasDirectory (place ++ [directory]) files) :
    s.listLanguages files' = s.listLanguages files := by
  unfold listLanguages
  rw [(hplace.mono h.hasDirectory).readDirectory, hplace.readDirectory, h.entriesAt_place hthere]
  obtain ⟨siblings, hsiblings⟩ := hplace.leads.hasDirectory
  obtain ⟨d, hd⟩ := hthere
  rw [lookup_concat hsiblings] at hd
  obtain ⟨before, after, hsplit, hbefore⟩ := Entries.exists_split_of_get? hd
  rw [entriesAt_eq hsiblings, hsplit, Entries.put_append_cons hbefore]
  simp only [Except.map, List.filterMap_append, List.filterMap_cons]
  rfl

theorem mem_sorted {names : List String} {name : String} : name ∈ sorted names ↔ name ∈ names :=
  List.mem_mergeSort

theorem eq_of_namespaceOf? {name stem : String} {node : Node}
    (h : s.namespaceOf? (name, node) = some stem) : name = s.fileName stem := by
  cases node with
  | directory entries => cases h
  | file content =>
    simp only [namespaceOf?] at h
    split at h
    · rename_i stem' extension hsplit
      split at h
      · rename_i hextension
        cases h
        rw [fileName, ← hextension]
        exact (Path.splitExtension_eq_some_iff.mp hsplit).1
      · cases h
    · cases h

/-- Namespaces that can be listed are those of a directory. -/
theorem exists_directory_of_listNamespaces {language : String} {namespaces : List String}
    (h : s.listNamespaces files language = .ok namespaces) :
    ∃ place d, Place files (Path.join s.root language) place ∧
      lookup place files = some (.directory d) ∧
      namespaces = sorted (d.filterMap s.namespaceOf?) := by
  unfold listNamespaces at h
  cases hread : files.readDirectory (Path.join s.root language) with
  | error fault =>
    rw [hread] at h
    cases h
  | ok d =>
    rw [hread] at h
    cases h
    obtain ⟨place, hplace, hlookup⟩ := exists_lookup_of_readDirectory hread
    exact ⟨place, d, hplace, hlookup, rfl⟩

/-- The directory of a language whose namespaces can be listed. -/
theorem exists_of_listNamespaces {language : String} {namespaces : List String}
    (hlanguage : IsName language) (h : s.listNamespaces files language = .ok namespaces) :
    ∃ place d, Place files s.root place ∧ lookup (place ++ [language]) files = some (.directory d) ∧
      namespaces = sorted (d.filterMap s.namespaceOf?) := by
  obtain ⟨there, d, hthere, hlookup, rfl⟩ := exists_directory_of_listNamespaces h
  obtain ⟨place, hplace, rfl⟩ := exists_place_of_locate hlanguage hthere.locate
  exact ⟨place, d, hplace, hlookup, rfl⟩

theorem isName_of_mem_namespaces {d : Directory} (h : d.WellFormed) {nameSpace : String}
    (hmem : nameSpace ∈ sorted (d.filterMap s.namespaceOf?)) : IsName (s.fileName nameSpace) := by
  obtain ⟨⟨name, node⟩, hentry, hname⟩ := List.mem_filterMap.mp (mem_sorted.mp hmem)
  cases h with
  | directory hnames _ _ => exact eq_of_namespaceOf? hname ▸ hnames _ hentry

/-- Names that are read off entries are distinct when they tell the entries apart. -/
theorem nodup_sorted_filterMap {d : Directory} (h : d.WellFormed)
    {name? : String × Node → Option String}
    (htell : ∀ entry entry' name, name? entry = some name → name? entry' = some name →
      entry.1 = entry'.1) : (sorted (d.filterMap name?)).Nodup := by
  cases h with
  | directory _ hdistinct _ =>
    rw [sorted, (List.mergeSort_perm _ _).nodup_iff, List.Nodup, List.pairwise_filterMap]
    refine (List.pairwise_map.mp hdistinct).imp fun {entry entry'} hne => ?_
    rintro name hname _ hname' rfl
    exact hne (htell entry entry' name hname hname')

theorem nodup_namespaces {d : Directory} (h : d.WellFormed) :
    (sorted (d.filterMap s.namespaceOf?)).Nodup := by
  apply nodup_sorted_filterMap h
  rintro ⟨name, node⟩ ⟨name', node'⟩ stem hstem hstem'
  exact (eq_of_namespaceOf? hstem).trans (eq_of_namespaceOf? hstem').symm

theorem languageOf?_eq_some_iff {name language : String} {node : Node} :
    languageOf? (name, node) = some language ↔
      name = language ∧ name.startsWith "." = false ∧ ∃ d, node = .directory d := by
  cases node with
  | file content => simp [languageOf?]
  | directory d =>
    cases hdot : name.startsWith "." <;> simp [languageOf?, hdot]

theorem nodup_languages {d : Directory} (h : d.WellFormed) :
    (sorted (d.filterMap languageOf?)).Nodup := by
  apply nodup_sorted_filterMap h
  rintro ⟨name, node⟩ ⟨name', node'⟩ language hname hname'
  exact (languageOf?_eq_some_iff.mp hname).1.trans (languageOf?_eq_some_iff.mp hname').1.symm

/-! ## Listing again -/

theorem mem_namespaces_iff {d : Directory} (hlookup : lookup place files = some (.directory d))
    (hd : d.WellFormed) {nameSpace : String} :
    nameSpace ∈ sorted (d.filterMap s.namespaceOf?) ↔
      Path.splitExtension (s.fileName nameSpace) = (nameSpace, some s.extension) ∧
        (fileAt (place ++ [s.fileName nameSpace]) files).isSome = true := by
  have hdistinct : (d.map Prod.fst).Nodup := by
    cases hd with
    | directory _ hdistinct _ => exact hdistinct
  rw [mem_sorted, List.mem_filterMap, isSome_fileAt_iff]
  constructor
  · rintro ⟨⟨name, node⟩, hentry, hname⟩
    obtain rfl := eq_of_namespaceOf? hname
    cases node with
    | directory entries => cases hname
    | file content =>
      refine ⟨?_, content, by rw [lookup_concat hlookup, Entries.get?_of_mem hdistinct hentry]⟩
      simp only [namespaceOf?] at hname
      split at hname
      · rename_i stem extension hsplit
        split at hname
        · rename_i hextension
          cases hname
          rw [hsplit, hextension]
        · cases hname
      · cases hname
  · rintro ⟨hsplit, content, hfile⟩
    rw [lookup_concat hlookup] at hfile
    refine ⟨_, Entries.mem_of_get? hfile, ?_⟩
    simp only [namespaceOf?, hsplit, if_true]

theorem pairwise_sorted (names : List String) : (sorted names).Pairwise (· ≤ ·) := by
  have hpairwise : (sorted names).Pairwise fun a b => decide (a ≤ b) = true := by
    refine List.pairwise_mergeSort (fun a b c => ?_) (fun a b => ?_) names
    · simpa only [decide_eq_true_eq] using String.le_trans
    · simpa only [Bool.or_eq_true, decide_eq_true_eq] using String.le_total a b
  simpa only [decide_eq_true_eq] using hpairwise

theorem sorted_eq {names names' : List String} (hnames : (sorted names).Nodup)
    (hnames' : (sorted names').Nodup) (h : ∀ name, name ∈ sorted names ↔ name ∈ sorted names') :
    sorted names = sorted names' := by
  refine List.Perm.eq_of_pairwise (fun a b _ _ => ?_) (pairwise_sorted names)
    (pairwise_sorted names') ((List.perm_ext_iff_of_nodup hnames hnames').mpr h)
  exact String.le_antisymm

/-- The namespaces of a language are listed as before when no file was added that would be another
one. -/
theorem listNamespaces_eq {language : String} {namespaces : List String}
    (hfiles : files.WellFormed) (hfiles' : files'.WellFormed) (h : Grows files files')
    (hlist : s.listNamespaces files language = .ok namespaces)
    (hkept : ∀ above nameSpace, nameSpace ∉ namespaces →
      fileAt (above ++ [s.fileName nameSpace]) files' =
        fileAt (above ++ [s.fileName nameSpace]) files) :
    s.listNamespaces files' language = .ok namespaces := by
  obtain ⟨place, d, hplace, hd, rfl⟩ := exists_directory_of_listNamespaces hlist
  obtain ⟨d', hd'⟩ := h.hasDirectory place ⟨d, hd⟩
  have hwell := hfiles.lookup hd
  have hwell' := hfiles'.lookup hd'
  rw [listNamespaces, (hplace.mono h.hasDirectory).readDirectory, entriesAt_eq hd']
  refine congrArg Except.ok (sorted_eq (nodup_namespaces hwell') (nodup_namespaces hwell) ?_)
  intro nameSpace
  by_cases hmem : nameSpace ∈ sorted (d.filterMap s.namespaceOf?)
  · obtain ⟨hsplit, hfile⟩ := (mem_namespaces_iff hd hwell).mp hmem
    exact iff_of_true ((mem_namespaces_iff hd' hwell').mpr ⟨hsplit, h.isFile _ hfile⟩) hmem
  · rw [mem_namespaces_iff hd' hwell', hkept place nameSpace hmem, ← mem_namespaces_iff hd hwell]

theorem nodup_of_listNamespaces {language : String} {namespaces : List String}
    (hfiles : files.WellFormed) (hlist : s.listNamespaces files language = .ok namespaces) :
    namespaces.Nodup := by
  obtain ⟨place, d, _, hd, rfl⟩ := exists_directory_of_listNamespaces hlist
  exact nodup_namespaces (hfiles.lookup hd)

/-- Listed documents have proper names and can be read. -/
theorem exists_readBytes_of_listed {language nameSpace : String} {namespaces : List String}
    (hfiles : files.WellFormed) (hlist : s.listNamespaces files language = .ok namespaces)
    (hmem : nameSpace ∈ namespaces) : IsName (s.fileName nameSpace) ∧
      ∃ bytes, files.readBytes (s.pathFor language nameSpace) = .ok bytes := by
  obtain ⟨place, d, hplace, hd, rfl⟩ := exists_directory_of_listNamespaces hlist
  have hwell := hfiles.lookup hd
  have hname := isName_of_mem_namespaces hwell hmem
  obtain ⟨_, hfile⟩ := (mem_namespaces_iff hd hwell).mp hmem
  obtain ⟨bytes, hbytes⟩ := Option.isSome_iff_exists.mp hfile
  exact ⟨hname, bytes, readBytes_eq_ok_iff_fileAt.mpr ⟨_, locate_join hplace hname, hbytes⟩⟩

end Store

end LocaleAudit
