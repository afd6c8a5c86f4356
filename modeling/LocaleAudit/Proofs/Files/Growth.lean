import LocaleAudit.Proofs.Entries
import LocaleAudit.Proofs.Files.Documents

namespace LocaleAudit.Directory

/-!
# Trees that grow

Making directories and writing files loses nothing: directories stay directories and files stay
files. So a path keeps leading where it led, and what could be read can be read again. Only a file
that is written to changes its content.
-/

variable {root root' root'' child : Directory} {above names here : List String}
  {name path : String} {content : ByteArray} {node : Node}

theorem isSome_fileAt_iff : (fileAt names root).isSome = true ↔
    ∃ content, lookup names root = some (.file content) := by
  rw [fileAt]
  cases lookup names root with
  | none => simp
  | some node => cases node <;> simp

theorem isFile_iff : isFile root path = true ↔
    ∃ names, locate root path = .ok names ∧ (fileAt names root).isSome = true := by
  rw [isFile, find]
  cases locate root path with
  | error fault => simp [Except.toOption]
  | ok names =>
    cases hlookup : lookup names root with
    | none => simp [Except.toOption, fileAt, hlookup]
    | some node => cases node <;> simp [Except.toOption, Node.isFile, fileAt, hlookup]

theorem isDirectory_iff : isDirectory root path = true ↔
    ∃ names, locate root path = .ok names ∧ HasDirectory names root := by
  rw [isDirectory, find]
  cases locate root path with
  | error fault => simp [Except.toOption]
  | ok names =>
    cases hlookup : lookup names root with
    | none => simp [Except.toOption, HasDirectory, hlookup]
    | some node =>
      cases node <;> simp [Except.toOption, Node.isDirectory, HasDirectory, hlookup]

/-- Nothing is lost. -/
structure Grows (root root' : Directory) : Prop where
  hasDirectory : ∀ names, HasDirectory names root → HasDirectory names root'
  isFile : ∀ names, (fileAt names root).isSome = true → (fileAt names root').isSome = true

namespace Grows

theorem refl (root : Directory) : Grows root root :=
  ⟨fun _ h => h, fun _ h => h⟩

theorem trans (h : Grows root root') (h' : Grows root' root'') : Grows root root'' :=
  ⟨fun names hnames => h'.hasDirectory names (h.hasDirectory names hnames),
    fun names hnames => h'.isFile names (h.isFile names hnames)⟩

variable (h : Grows root root')

include h

theorem exists_file (hnode : lookup names root = some (.file content)) :
    ∃ content', lookup names root' = some (.file content') :=
  isSome_fileAt_iff.mp (h.isFile names (isSome_fileAt_iff.mpr ⟨content, hnode⟩))

theorem isSome_lookup (hnode : (lookup names root).isSome = true) :
    (lookup names root').isSome = true := by
  obtain ⟨node, hnode⟩ := Option.isSome_iff_exists.mp hnode
  cases node with
  | file content =>
    obtain ⟨content', hnode'⟩ := h.exists_file hnode
    rw [hnode']
    rfl
  | directory d =>
    obtain ⟨d', hd'⟩ := h.hasDirectory names ⟨d, hnode⟩
    rw [hd']
    rfl

/-- Pieces lead where they led, unless something was missing. -/
theorem locateFrom_cases (pieces here : List String) :
    locateFrom root here pieces = .error .notFound ∨
      locateFrom root' here pieces = locateFrom root here pieces := by
  induction pieces generalizing here with
  | nil => exact Or.inr rfl
  | cons piece rest ih =>
    cases hhere : lookup here root with
    | none =>
      left
      simp only [locateFrom, hhere]
    | some node =>
      cases node with
      | file content =>
        obtain ⟨content', hhere'⟩ := h.exists_file hhere
        right
        simp only [locateFrom, hhere, hhere']
      | directory d =>
        obtain ⟨d', hhere'⟩ := h.hasDirectory here ⟨d, hhere⟩
        rw [locateFrom_cons hhere, locateFrom_cons hhere']
        by_cases hsilent : piece = "" ∨ piece = "."
        · simpa only [if_pos hsilent] using ih here
        by_cases hup : piece = ".."
        · simpa only [if_neg hsilent, if_pos hup] using ih here.dropLast
        simp only [if_neg hsilent, if_neg hup]
        cases hnext : rest.isEmpty || (Entries.get? piece d).isSome with
        | false => exact Or.inl rfl
        | true =>
          have hnext' : (rest.isEmpty || (Entries.get? piece d').isSome) = true := by
            rw [Bool.or_eq_true] at hnext ⊢
            refine hnext.imp_right fun hsome => ?_
            rw [← lookup_concat hhere] at hsome
            rw [← lookup_concat hhere']
            exact h.isSome_lookup hsome
          simpa only [hnext', if_true] using ih (here ++ [piece])

theorem locate_cases (path : String) :
    locate root path = .error .notFound ∨ locate root' path = locate root path := by
  rw [locate, locate]
  split
  · exact Or.inr rfl
  · exact h.locateFrom_cases (Path.pieces path) []

theorem locate_eq (hlocate : locate root path = .ok names) : locate root' path = .ok names := by
  rcases h.locate_cases path with hmissing | hsame
  · rw [hlocate] at hmissing
    cases hmissing
  · exact hsame.trans hlocate

theorem isDirectory (hpath : isDirectory root path = true) : isDirectory root' path = true := by
  obtain ⟨names, hlocate, hdirectory⟩ := isDirectory_iff.mp hpath
  exact isDirectory_iff.mpr ⟨names, h.locate_eq hlocate, h.hasDirectory names hdirectory⟩

/-- A file that is missing now was missing before. -/
theorem missing_before (hmissing : readBytes root' path = .error .notFound) :
    readBytes root path = .error .notFound := by
  rcases h.locate_cases path with hlocate | hsame
  · simp only [readBytes, find, hlocate]
  rw [readBytes, find] at hmissing ⊢
  rw [hsame] at hmissing
  cases hlocate : locate root path with
  | error fault => simpa only [hlocate] using hmissing
  | ok names =>
    simp only [hlocate] at hmissing ⊢
    cases hlookup : lookup names root with
    | none => rfl
    | some node =>
      cases node with
      | file content =>
        obtain ⟨content', hlookup'⟩ := h.exists_file hlookup
        simp [hlookup'] at hmissing
      | directory d =>
        obtain ⟨d', hlookup'⟩ := h.hasDirectory names ⟨d, hlookup⟩
        simp [hlookup'] at hmissing

end Grows

theorem readBytes_eq_ok_iff_fileAt :
    readBytes root path = .ok content ↔
      ∃ names, locate root path = .ok names ∧ fileAt names root = some content := by
  rw [readBytes, find]
  cases locate root path with
  | error fault => simp
  | ok names =>
    cases hlookup : lookup names root with
    | none => simp [fileAt, hlookup]
    | some node => cases node <;> simp [fileAt, hlookup]

/-- A file that could be read can be read again. -/
theorem Grows.exists_readBytes (h : Grows root root') (hread : readBytes root path = .ok content) :
    ∃ content', readBytes root' path = .ok content' := by
  obtain ⟨names, hlocate, hfile⟩ := readBytes_eq_ok_iff_fileAt.mp hread
  have hsome := h.isFile names (Option.isSome_iff_exists.mpr ⟨content, hfile⟩)
  obtain ⟨content', hfile'⟩ := Option.isSome_iff_exists.mp hsome
  exact ⟨content', readBytes_eq_ok_iff_fileAt.mpr ⟨names, h.locate_eq hlocate, hfile'⟩⟩

/-! ## Writing at some places -/

/-- A tree that grows, with new content at the places that are listed and at no other. -/
structure Rewrites (places : List (List String)) (root root' : Directory) : Prop extends
    Grows root root' where
  fileAt_eq : ∀ names, names ∉ places → fileAt names root' = fileAt names root
  wellFormed : root.WellFormed → root'.WellFormed

theorem Rewrites.refl (root : Directory) : Rewrites [] root root :=
  ⟨.refl root, fun _ _ => rfl, fun h => h⟩

theorem Rewrites.trans {places places' : List (List String)} (h : Rewrites places root root')
    (h' : Rewrites places' root' root'') : Rewrites (places ++ places') root root'' := by
  refine ⟨h.toGrows.trans h'.toGrows, fun names hnames => ?_,
    fun hroot => h'.wellFormed (h.wellFormed hroot)⟩
  rw [List.mem_append, not_or] at hnames
  rw [h'.fileAt_eq names hnames.2, h.fileAt_eq names hnames.1]

/-- Another file keeps its content. -/
theorem Rewrites.readBytes_eq {places : List (List String)} (h : Rewrites places root root')
    (hread : readBytes root path = .ok content)
    (hother : ∀ names, locate root path = .ok names → names ∉ places) :
    readBytes root' path = .ok content := by
  obtain ⟨names, hlocate, hfile⟩ := readBytes_eq_ok_iff_fileAt.mp hread
  refine readBytes_eq_ok_iff_fileAt.mpr ⟨names, h.locate_eq hlocate, ?_⟩
  rw [h.fileAt_eq names (hother names hlocate), hfile]

theorem WellFormed.put (h : root.WellFormed) (hname : IsName name) (hnode : node.WellFormed) :
    Directory.WellFormed (Entries.put name node root) := by
  cases h with
  | directory hnames hdistinct hnodes =>
    refine .directory ?_ (Entries.nodup_put hdistinct node) ?_
    · intro entry hentry
      rcases Entries.mem_put hentry with rfl | hentry
      · exact hname
      · exact hnames entry hentry
    · intro entry hentry
      rcases Entries.mem_put hentry with rfl | hentry
      · exact hnode
      · exact hnodes entry hentry

theorem WellFormed.insert (h : root.WellFormed) (hname : IsName name) (hnode : node.WellFormed)
    (hchild : Directory.lookup above root = some (.directory child)) :
    (Directory.insert node (above ++ [name]) root).WellFormed := by
  induction above generalizing root with
  | nil => exact h.put hname hnode
  | cons key above ih =>
    obtain ⟨entries, hget, hlookup⟩ := exists_of_lookup_cons hchild
    rw [List.cons_append, insert_cons hget]
    have hmem := Entries.mem_of_get? hget
    have hentries : Directory.WellFormed entries ∧ IsName key := by
      cases h with
      | directory hnames _ hnodes => exact ⟨hnodes _ hmem, hnames _ hmem⟩
    exact h.put hentries.2 (ih hentries.1 hlookup)

/-- A name under which a node can be put into a directory: no directory is there yet. -/
structure Vacant (root : Directory) (above : List String) (name : String) : Prop where
  isName : IsName name
  hasDirectory : HasDirectory above root
  free : ¬HasDirectory (above ++ [name]) root

namespace Vacant

variable (h : Vacant root above name)

include h

theorem exists_child : ∃ child, lookup above root = some (.directory child) ∧
    ∀ entries, Entries.get? name child ≠ some (.directory entries) := by
  obtain ⟨child, hchild⟩ := h.hasDirectory
  refine ⟨child, hchild, fun entries hentries => h.free ⟨entries, ?_⟩⟩
  rw [lookup_concat hchild, hentries]

theorem rewrites_file (content : ByteArray) :
    Rewrites [above ++ [name]] root (insert (.file content) (above ++ [name]) root) := by
  obtain ⟨child, hchild, hfree⟩ := h.exists_child
  refine ⟨⟨fun _ hnames => hnames.insert hchild hfree, fun names hnames => ?_⟩,
    fun names hnames => ?_, fun hroot => hroot.insert h.isName (.file content) hchild⟩
  · by_cases hplace : names = above ++ [name]
    · rw [hplace, isSome_fileAt_iff]
      exact ⟨content, lookup_insert_place hchild _ _⟩
    · rwa [fileAt_insert_of_ne hchild hfree (by simp) hplace]
  · exact fileAt_insert_of_ne hchild hfree (by simp) (by simpa using hnames)

theorem rewrites_directory (hnone : lookup (above ++ [name]) root = none) :
    Rewrites [] root (insert (.directory []) (above ++ [name]) root) := by
  obtain ⟨child, hchild, hfree⟩ := h.exists_child
  have hfiles : ∀ names, fileAt names (insert (.directory []) (above ++ [name]) root) =
      fileAt names root := by
    intro names
    by_cases hplace : names = above ++ [name]
    · rw [hplace, fileAt, fileAt, hnone, lookup_insert_place hchild]
    · exact fileAt_insert_of_ne hchild hfree (by simp) hplace
  have hempty : Node.WellFormed (.directory []) := .directory (by simp) (by simp) (by simp)
  exact ⟨⟨fun _ hnames => hnames.insert hchild hfree, fun names hnames => by rwa [hfiles]⟩,
    fun names _ => hfiles names, fun hroot => hroot.insert h.isName hempty hchild⟩

end Vacant

/-! ## Where a path leads that leads to no directory -/

theorem hasDirectory_dropLast (h : HasDirectory names root) : HasDirectory names.dropLast root := by
  obtain ⟨d, hd⟩ := h
  exact hasDirectory_above hd (List.dropLast_prefix names)

/-- What pieces name lies in a directory. -/
theorem hasDirectory_above_of_locateFrom {pieces : List String}
    (hlocate : locateFrom root here pieces = .ok names)
    (hhere : HasDirectory here.dropLast root) : HasDirectory names.dropLast root := by
  induction pieces generalizing here with
  | nil =>
    cases hlocate
    exact hhere
  | cons piece rest ih =>
    obtain ⟨d, hd⟩ := hasDirectory_of_locateFrom (List.cons_ne_nil _ _) hlocate
    rw [locateFrom_cons hd] at hlocate
    split at hlocate
    · exact ih hlocate hhere
    split at hlocate
    · exact ih hlocate (hasDirectory_dropLast hhere)
    split at hlocate
    · refine ih hlocate ?_
      rw [List.dropLast_concat]
      exact ⟨d, hd⟩
    · cases hlocate

theorem isName_of_locateFrom {pieces : List String}
    (hlocate : locateFrom root here pieces = .ok names) (hhere : ∀ name ∈ here, IsName name)
    (hpieces : ∀ piece ∈ pieces, '/' ∉ piece.toList ∧ '\x00' ∉ piece.toList) :
    ∀ name ∈ names, IsName name := by
  induction pieces generalizing here with
  | nil =>
    cases hlocate
    exact hhere
  | cons piece rest ih =>
    obtain ⟨d, hd⟩ := hasDirectory_of_locateFrom (List.cons_ne_nil _ _) hlocate
    rw [List.forall_mem_cons] at hpieces
    rw [locateFrom_cons hd] at hlocate
    split at hlocate
    · exact ih hlocate hhere hpieces.2
    split at hlocate
    · exact ih hlocate (fun name hname => hhere name (List.dropLast_subset _ hname)) hpieces.2
    split at hlocate
    · rename_i hsilent hup _
      rw [not_or] at hsilent
      refine ih hlocate (List.forall_mem_append.mpr ⟨hhere, ?_⟩) hpieces.2
      exact List.forall_mem_singleton.mpr
        ⟨hsilent.1, hsilent.2, hup, hpieces.1.1, hpieces.1.2⟩
    · cases hlocate

theorem exists_vacant (hlocate : locate root path = .ok names) (hfree : ¬HasDirectory names root) :
    ∃ above name, names = above ++ [name] ∧ Vacant root above name := by
  obtain ⟨hnul, hlocate⟩ := locate_eq_ok_iff.mp hlocate
  have hnames : ∀ name ∈ names, IsName name := by
    refine isName_of_locateFrom hlocate (by simp) fun piece hpiece => ?_
    exact ⟨Path.not_mem_of_mem_pieces hpiece, Path.not_mem_piece hnul hpiece⟩
  have habove := hasDirectory_above_of_locateFrom hlocate ⟨root, rfl⟩
  obtain rfl | ⟨above, name, rfl⟩ := List.eq_nil_or_concat names
  · exact absurd ⟨root, rfl⟩ hfree
  · rw [List.concat_eq_append] at hfree hnames habove
    rw [List.dropLast_concat] at habove
    exact ⟨above, name, List.concat_eq_append, hnames name (by simp), habove, hfree⟩

/-! ## Operations -/

theorem makeDirectory_rewrites (h : makeDirectory root path = .ok root') :
    Rewrites [] root root' := by
  rw [makeDirectory] at h
  split at h
  · cases h
  rename_i names hlocate
  split at h
  · cases h
  rename_i hnone
  cases h
  have hfree : ¬HasDirectory names root := by
    rintro ⟨d, hd⟩
    rw [hnone] at hd
    cases hd
  obtain ⟨above, name, rfl, hvacant⟩ := exists_vacant hlocate hfree
  exact hvacant.rewrites_directory hnone

theorem ensureDirectory_rewrites (h : ensureDirectory root path = .ok root') :
    Rewrites [] root root' := by
  rw [ensureDirectory] at h
  split at h
  · rename_i hmade
    cases h
    exact makeDirectory_rewrites hmade
  · split at h
    · cases h
      exact .refl root
    · cases h

theorem leftBy_rewrites {ε : Type} {result : Except ε Directory}
    (h : ∀ made, result = .ok made → Rewrites [] root made) :
    Rewrites [] root (leftBy root result).1 := by
  cases result with
  | ok made => exact h made rfl
  | error e => exact .refl root

theorem makeAll_rewrites (names : List String) (n : Nat) (root : Directory) :
    Rewrites [] root (makeAll names n root).1 := by
  induction n generalizing root with
  | zero => exact .refl root
  | succ n ih =>
    rw [makeAll]
    split
    · have hmade := ih root
      split
      · rename_i made hall
        rw [hall] at hmade
        exact hmade.trans (leftBy_rewrites fun _ => ensureDirectory_rewrites)
      · exact hmade
    · exact leftBy_rewrites fun _ => ensureDirectory_rewrites

theorem makeDirectories_rewrites (root : Directory) (path : String) :
    Rewrites [] root (makeDirectories root path).1 :=
  makeAll_rewrites _ _ root

theorem makeParent_rewrites (root : Directory) (path : String) :
    Rewrites [] root (makeParent root path).1 := by
  rw [makeParent]
  split
  · exact makeDirectories_rewrites root _
  · exact .refl root

/-- A file that is written lies where its path leads. -/
theorem exists_of_writeBytes (h : writeBytes root path content = .ok root') :
    ∃ names, locate root path = .ok names ∧ Rewrites [names] root root' ∧
      fileAt names root' = some content := by
  rw [writeBytes] at h
  split at h
  · cases h
  rename_i names hlocate
  have hpath : ∀ place : List Char, place <:+ path.toList.reverse → ¬place.length < path.length →
      String.ofList place.reverse = path := by
    intro place hplace hlength
    have hwhole : path.toList.reverse.length ≤ place.length := by
      rw [List.length_reverse, String.length_toList]
      exact Nat.le_of_not_lt hlength
    rw [hplace.eq_of_length_le hwhole, List.reverse_reverse, String.ofList_toList]
  split at h
  · cases h
  rename_i hplace
  split at h
  · cases h
  rename_i hlength
  cases h
  rw [hpath _ (List.dropWhile_suffix _) hlength] at hlocate
  have hfree : ¬HasDirectory names root := by
    rintro ⟨d, hd⟩
    exact hplace d hd
  obtain ⟨above, name, rfl, hvacant⟩ := exists_vacant hlocate hfree
  obtain ⟨child, hchild, _⟩ := hvacant.exists_child
  refine ⟨_, hlocate, hvacant.rewrites_file content, ?_⟩
  rw [fileAt, lookup_insert_place hchild]

end LocaleAudit.Directory
