import LocaleAudit.Proofs.Files.Locating

namespace LocaleAudit

/-!
# Files two names below a directory

A file with its directory below the place that a path leads to: where it is found, and what making
its directory and writing it do.
-/

namespace Path

theorem not_mem_of_mem_splitOnChar_of_not_mem {c separator : Char} {s piece : List Char}
    (h : c ∉ s) (hpiece : piece ∈ splitOnChar separator s) : c ∉ piece := by
  induction s generalizing piece with
  | nil => simp_all [splitOnChar]
  | cons d s ih =>
    rw [List.mem_cons, not_or] at h
    rw [splitOnChar] at hpiece
    split at hpiece
    · rcases List.mem_cons.mp hpiece with rfl | hpiece
      · simp
      · exact ih h.2 hpiece
    · split at hpiece
      · rw [List.mem_singleton.mp hpiece]
        simp [h.1]
      · rename_i first rest hrest
        rcases List.mem_cons.mp hpiece with rfl | hpiece
        · simpa [h.1] using ih h.2 (by simp [hrest])
        · exact ih h.2 (by simp [hrest, hpiece])

theorem not_mem_piece {c : Char} {p piece : String} (h : c ∉ p.toList) (hpiece : piece ∈ pieces p) :
    c ∉ piece.toList := by
  obtain ⟨s, hs, rfl⟩ := List.mem_map.mp hpiece
  rw [String.toList_ofList]
  exact not_mem_of_mem_splitOnChar_of_not_mem h hs

theorem not_mem_join {c : Char} {base name : String} (hc : c ≠ '/') (hbase : c ∉ base.toList)
    (hname : c ∉ name.toList) : c ∉ (join base name).toList := by
  rw [join]
  split
  · exact hname
  split
  · simp [String.toList_append, hbase, hname]
  · simp [String.toList_append, hbase, hname, hc]

theorem mem_join_of_mem {c : Char} {base name : String} (hname : IsName name)
    (h : c ∈ base.toList) : c ∈ (join base name).toList := by
  have hbase : base.isEmpty = false := by
    rw [Bool.eq_false_iff]
    intro hempty
    rw [String.isEmpty_iff.mp hempty] at h
    cases h
  rw [join, IsName.not_isAbsolute hname, hbase]
  split
  · contradiction
  split
  · simp [String.toList_append, h]
  · simp [String.toList_append, h]

/-! ## The names of a path -/

/-- What a component adds to a path that starts at the root. -/
def Component.name? : Component → Option String
  | .root => none
  | c => some c.text

def names (p : String) : List String :=
  (components p).filterMap Component.name?

def pieceName? (piece : String) : Option String :=
  (innerComponent? piece).bind Component.name?

theorem pieceName?_of_isSilent {piece : String} (h : piece = "" ∨ piece = ".") :
    pieceName? piece = none := by
  rw [pieceName?, innerComponent?, if_pos h]
  rfl

theorem pieceName?_of_not_isSilent {piece : String} (h : ¬(piece = "" ∨ piece = ".")) :
    pieceName? piece = some piece := by
  rw [pieceName?, innerComponent?, if_neg h]
  split
  · subst piece
    rfl
  · rfl

theorem slims_filterMap (pieces : List String) :
    Directory.Slims pieces (pieces.filterMap pieceName?) := by
  induction pieces with
  | nil => exact .nil
  | cons piece pieces ih =>
    by_cases hsilent : piece = "" ∨ piece = "."
    · rw [List.filterMap_cons_none (pieceName?_of_isSilent hsilent)]
      exact .drop hsilent ih
    · rw [List.filterMap_cons_some (pieceName?_of_not_isSilent hsilent)]
      exact .keep piece ih

theorem names_eq {p first : String} {rest : List String} (hpieces : pieces p = first :: rest) :
    names p = ((firstComponent? first rest.isEmpty).bind Component.name?).toList ++
      rest.filterMap pieceName? := by
  rw [names, components, markedPieces, hpieces, List.filterMap_filterMap, List.filterMap_cons,
    List.filterMap_map]
  simp only
  cases (firstComponent? first rest.isEmpty).bind Component.name? <;> rfl

/-- The names of a joined path are its pieces, but for some that name nothing. -/
theorem exists_slims_names (base : String) {name : String} (h : IsName name) :
    ∃ slim, Directory.Slims (piecesBefore base) slim ∧ names (join base name) = slim ++ [name] := by
  have hsilent : ¬(name = "" ∨ name = ".") := by simp [h.nonempty, h.not_here]
  have hname : pieceName? name = some name := pieceName?_of_not_isSilent hsilent
  have hpieces := pieces_join base h
  cases hbefore : piecesBefore base with
  | nil =>
    rw [hbefore, List.nil_append] at hpieces
    refine ⟨[], .nil, ?_⟩
    rw [names_eq hpieces, firstComponent?, if_neg h.nonempty, if_neg h.not_here]
    change (pieceName? name).toList ++ [] = _
    rw [hname]
    rfl
  | cons first rest =>
    rw [hbefore, List.cons_append] at hpieces
    have hmore : (rest ++ [name]).isEmpty = false := by simp
    rw [names_eq hpieces, hmore, List.filterMap_append, List.filterMap_cons_some hname,
      List.filterMap_nil, ← List.append_assoc]
    refine ⟨_, ?_, rfl⟩
    rw [firstComponent?]
    by_cases hempty : first = ""
    · rw [if_pos hempty]
      exact .drop (Or.inl hempty) (slims_filterMap rest)
    by_cases hhere : first = "."
    · subst hhere
      exact .keep "." (slims_filterMap rest)
    · rw [if_neg hempty, if_neg hhere]
      change Directory.Slims _ ((pieceName? first).toList ++ _)
      rw [pieceName?_of_not_isSilent (by simp [hempty, hhere])]
      exact .keep first (slims_filterMap rest)

end Path

namespace Directory

theorem Slims.mem {pieces slim : List String} (h : Slims pieces slim) {piece : String}
    (hpiece : piece ∈ slim) : piece ∈ pieces := by
  induction h with
  | nil => exact hpiece
  | keep first _ ih =>
    rcases List.mem_cons.mp hpiece with rfl | hpiece
    · exact List.mem_cons_self
    · exact List.mem_cons_of_mem _ (ih hpiece)
  | drop _ _ ih => exact List.mem_cons_of_mem _ (ih hpiece)

/-- Where a document lies: its directory and its name below a place that a path leads to. -/
structure Place (root : Directory) (base : String) (place : List String) : Prop where
  leads : Leads root [] (Path.piecesBefore base) place
  no_nul : '\x00' ∉ base.toList

/-- Without a directory lost, the path leads where it led. -/
theorem Place.mono {root root' : Directory} {base : String} {place : List String}
    (hmono : ∀ names, HasDirectory names root → HasDirectory names root')
    (h : Place root base place) : Place root' base place :=
  ⟨h.leads.mono hmono, h.no_nul⟩

section

variable {root : Directory} {base : String} {place : List String} (h : Place root base place)
  {directory name : String} (hdirectory : IsName directory) (hname : IsName name)

include h hdirectory

theorem locate_join : locate root (Path.join base directory) = .ok (place ++ [directory]) := by
  have hnul := Path.not_mem_join (by decide) h.no_nul hdirectory.no_nul
  rw [locate, if_neg (by simpa using hnul), Path.pieces_join base hdirectory,
    locateFrom_append_of_leads h.leads (List.cons_ne_nil _ _),
    locateFrom_last h.leads.hasDirectory hdirectory]

theorem find_join : find root (Path.join base directory) =
    match lookup (place ++ [directory]) root with
    | some node => .ok node
    | none => .error .notFound := by
  cases hlookup : lookup (place ++ [directory]) root <;>
    simp only [find, locate_join h hdirectory, hlookup]

/-- The path that is made of the names of a joined path leads where the joined path leads. -/
theorem locate_names :
    locate root ("/" ++ "/".intercalate (Path.names (Path.join base directory))) =
      .ok (place ++ [directory]) := by
  obtain ⟨slim, hslim, hnames⟩ := Path.exists_slims_names base hdirectory
  have hmem : ∀ piece ∈ slim ++ [directory], piece ∈ Path.pieces (Path.join base directory) := by
    intro piece hpiece
    rw [Path.pieces_join base hdirectory]
    rcases List.mem_append.mp hpiece with hpiece | hpiece
    · exact List.mem_append_left _ (hslim.mem hpiece)
    · exact List.mem_append_right _ hpiece
  have hnul : '\x00' ∉ ("/" ++ "/".intercalate (slim ++ [directory])).toList := by
    have hjoin := Path.not_mem_join (by decide) h.no_nul hdirectory.no_nul
    rw [String.toList_append, List.mem_append, not_or]
    exact ⟨by decide, Path.not_mem_intercalate_names (by decide) fun piece hpiece =>
      Path.not_mem_piece hjoin (hmem piece hpiece)⟩
  have hpieces : Path.pieces ("/" ++ "/".intercalate (slim ++ [directory])) =
      "" :: (slim ++ [directory]) := by
    have happend := Path.pieces_append_slash "" ("/".intercalate (slim ++ [directory]))
    rw [String.empty_append, Path.pieces_intercalate (by simp) fun piece hpiece =>
      Path.not_mem_of_mem_pieces (hmem piece hpiece)] at happend
    exact happend
  rw [hnames, locate, if_neg (by simpa using hnul), hpieces,
    locateFrom_cons (lookup_nil root), if_pos (Or.inl rfl), ← locateFrom_slims hslim,
    locateFrom_append_of_leads h.leads (List.cons_ne_nil _ _),
    locateFrom_last h.leads.hasDirectory hdirectory]

theorem ensureDirectory_names :
    ensureDirectory root ("/" ++ "/".intercalate (Path.names (Path.join base directory))) =
      match lookup (place ++ [directory]) root with
      | none => .ok (insert (.directory []) (place ++ [directory]) root)
      | some (.directory _) => .ok root
      | some (.file _) => .error .alreadyExists := by
  have hlocate := locate_names h hdirectory
  rw [ensureDirectory, makeDirectory, hlocate]
  cases hlookup : lookup (place ++ [directory]) root with
  | none => simp only [hlookup]
  | some node =>
    cases node with
    | file content => simp [isDirectory, find, hlocate, hlookup, Except.toOption, Node.isDirectory]
    | directory d => simp [isDirectory, find, hlocate, hlookup, Except.toOption, Node.isDirectory]

omit h in
/-- One step makes the directory when the place it goes to is there. -/
theorem makeDirectories_join {files : Directory}
    (hmade : ensureDirectory root ("/" ++ "/".intercalate (Path.names (Path.join base directory))) =
      .ok files) : makeDirectories root (Path.join base directory) = (files, .ok ()) := by
  obtain ⟨slim, _, hnames⟩ := Path.exists_slims_names base hdirectory
  have hlength : (Path.names (Path.join base directory)).length = slim.length + 1 := by
    simp [hnames]
  have htake : (Path.names (Path.join base directory)).take (slim.length + 1) =
      Path.names (Path.join base directory) := by
    rw [← hlength, List.take_length]
  change makeAll (Path.names (Path.join base directory))
    (Path.names (Path.join base directory)).length root = (files, .ok ())
  rw [hlength, makeAll, htake]
  simp only [hmade, leftBy]

include hname

theorem locate_join_join :
    locate root (Path.join (Path.join base directory) name) =
      if (lookup (place ++ [directory]) root).isSome then
        locateFrom root (place ++ [directory]) [name]
      else .error .notFound := by
  have hnul := Path.not_mem_join (by decide)
    (Path.not_mem_join (by decide) h.no_nul hdirectory.no_nul) hname.no_nul
  rw [locate, if_neg (by simpa using hnul), Path.pieces_join _ hname,
    Path.piecesBefore_join base hdirectory, List.append_assoc, List.singleton_append,
    locateFrom_append_of_leads h.leads (List.cons_ne_nil _ _),
    locateFrom_name h.leads.hasDirectory hdirectory]
  rfl

theorem locate_join_join_of_hasDirectory (hthere : HasDirectory (place ++ [directory]) root) :
    locate root (Path.join (Path.join base directory) name) =
      .ok (place ++ [directory] ++ [name]) := by
  have hsome : (lookup (place ++ [directory]) root).isSome = true := by
    obtain ⟨d, hd⟩ := hthere
    rw [hd]
    rfl
  rw [locate_join_join h hdirectory hname, if_pos hsome, locateFrom_last hthere hname]

/-- The bytes of a document, by its directory and its name. -/
theorem readBytes_join_join :
    readBytes root (Path.join (Path.join base directory) name) =
      match lookup (place ++ [directory]) root with
      | none => .error .notFound
      | some (.file _) => .error .notDirectory
      | some (.directory d) =>
        match Entries.get? name d with
        | none => .error .notFound
        | some (.file content) => .ok content
        | some (.directory _) => .error .isDirectory := by
  cases hlookup : lookup (place ++ [directory]) root with
  | none => simp [readBytes, find, locate_join_join h hdirectory hname, hlookup]
  | some node =>
    cases node with
    | file content =>
      simp [readBytes, find, locate_join_join h hdirectory hname, hlookup, locateFrom]
    | directory d =>
      have hlocate := locate_join_join_of_hasDirectory h hdirectory hname ⟨d, hlookup⟩
      simp only [readBytes, find, hlocate, lookup_concat hlookup]
      cases Entries.get? name d with
      | none => rfl
      | some node => cases node <;> rfl

/-- A document can be read when its file is there. -/
theorem readBytes_eq_ok_iff {content : ByteArray} :
    readBytes root (Path.join (Path.join base directory) name) = .ok content ↔
      fileAt (place ++ [directory] ++ [name]) root = some content := by
  rw [readBytes_join_join h hdirectory hname, fileAt]
  cases hlookup : lookup (place ++ [directory]) root with
  | none =>
    have hno : ¬HasDirectory (place ++ [directory]) root := by
      rintro ⟨d, hd⟩
      rw [hlookup] at hd
      cases hd
    rw [lookup_append_eq_none hno (List.cons_ne_nil _ _)]
    simp
  | some node =>
    cases node with
    | file content' =>
      have hno : ¬HasDirectory (place ++ [directory]) root := by
        rintro ⟨d, hd⟩
        rw [hlookup] at hd
        cases hd
      rw [lookup_append_eq_none hno (List.cons_ne_nil _ _)]
      simp
    | directory d =>
      rw [lookup_concat hlookup]
      cases hget : Entries.get? name d with
      | none => simp [hget]
      | some node => cases node <;> simp [hget]

theorem locate_of_readBytes {content : ByteArray}
    (hbytes : readBytes root (Path.join (Path.join base directory) name) = .ok content) :
    locate root (Path.join (Path.join base directory) name) =
      .ok (place ++ [directory] ++ [name]) := by
  refine locate_join_join_of_hasDirectory h hdirectory hname ?_
  rw [readBytes_join_join h hdirectory hname] at hbytes
  split at hbytes
  · cases hbytes
  · cases hbytes
  · rename_i d hd
    exact ⟨d, hd⟩

theorem writeBytes_join_join {d : Directory}
    (hthere : lookup (place ++ [directory]) root = some (.directory d))
    (hfree : ∀ entries, Entries.get? name d ≠ some (.directory entries)) (content : ByteArray) :
    writeBytes root (Path.join (Path.join base directory) name) content =
      .ok (insert (.file content) (place ++ [directory] ++ [name]) root) := by
  have hlocate := locate_join_join_of_hasDirectory h hdirectory hname ⟨d, hthere⟩
  obtain ⟨c, hlast, hc⟩ := Path.getLast?_join (Path.join base directory) hname
  have hplace : (Path.join (Path.join base directory) name).toList.reverse.dropWhile (· == '/') =
      (Path.join (Path.join base directory) name).toList.reverse := by
    obtain ⟨front, hfront⟩ := List.getLast?_eq_some_iff.mp hlast
    rw [hfront, List.reverse_append, List.reverse_singleton, List.singleton_append,
      List.dropWhile_cons_of_neg (by simpa using hc)]
  rw [writeBytes, hplace]
  simp only [List.reverse_reverse, String.ofList_toList, hlocate, lookup_concat hthere,
    List.length_reverse, String.length_toList, Nat.lt_irrefl, if_false]

end

/-- A path that ends in a name leads there from where the rest of it leads. -/
theorem exists_place_of_locate {root : Directory} {base name : String} {names : List String}
    (hname : IsName name) (h : locate root (Path.join base name) = .ok names) :
    ∃ place, Place root base place ∧ names = place ++ [name] := by
  obtain ⟨hnul, hpieces⟩ := locate_eq_ok_iff.mp h
  rw [Path.pieces_join base hname] at hpieces
  obtain ⟨place, hleads, hlast⟩ := exists_leads_of_append (List.cons_ne_nil _ _) hpieces
  rw [locateFrom_last hleads.hasDirectory hname] at hlast
  refine ⟨place, ⟨hleads, fun hmem => hnul ?_⟩, (Except.ok.inj hlast).symm⟩
  exact Path.mem_join_of_mem hname hmem

end Directory

end LocaleAudit
