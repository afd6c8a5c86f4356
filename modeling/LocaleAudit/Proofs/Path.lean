import LocaleAudit.Path
import LocaleAudit.Proofs.KeyPath.Segments

namespace LocaleAudit

/-!
# Joined paths

A path that ends in proper names has them as its last pieces, whatever stands before them, and its
parent is the path without the last one.
-/

/-- A name that an entry of a directory can have. -/
structure IsName (s : String) : Prop where
  nonempty : s ≠ ""
  not_here : s ≠ "."
  not_up : s ≠ ".."
  no_slash : '/' ∉ s.toList
  no_nul : '\x00' ∉ s.toList

instance (s : String) : Decidable (IsName s) :=
  decidable_of_iff (s ≠ "" ∧ s ≠ "." ∧ s ≠ ".." ∧ '/' ∉ s.toList ∧ '\x00' ∉ s.toList)
    ⟨fun ⟨h₁, h₂, h₃, h₄, h₅⟩ => ⟨h₁, h₂, h₃, h₄, h₅⟩,
      fun ⟨h₁, h₂, h₃, h₄, h₅⟩ => ⟨h₁, h₂, h₃, h₄, h₅⟩⟩

namespace Path

/-! ## Pieces -/

theorem pieces_of_isName {name : String} (h : IsName name) : pieces name = [name] := by
  rw [pieces, splitOnChar_of_not_mem h.no_slash, List.map_singleton, String.ofList_toList]

theorem pieces_append_slash (s t : String) : pieces (s ++ "/" ++ t) = pieces s ++ pieces t := by
  have htext : (s ++ "/" ++ t).toList = s.toList ++ '/' :: t.toList := by
    simp [String.toList_append]
  rw [pieces, htext, splitOnChar_append, List.map_append]
  rfl

theorem not_mem_of_mem_pieces {p piece : String} (h : piece ∈ pieces p) : '/' ∉ piece.toList := by
  obtain ⟨s, hs, rfl⟩ := List.mem_map.mp h
  rw [String.toList_ofList]
  exact not_mem_of_mem_splitOnChar hs

theorem intercalate_pieces (p : String) : "/".intercalate (pieces p) = p := by
  apply String.toList_injective
  rw [String.toList_intercalate, pieces, splitOnChar_eq_splitOn]
  simp [Function.comp_def, List.intercalate_splitOn]

theorem not_mem_intercalate {c : Char} {separator : List Char} {parts : List (List Char)}
    (hseparator : c ∉ separator) (h : ∀ part ∈ parts, c ∉ part) :
    c ∉ separator.intercalate parts := by
  induction parts with
  | nil => simp [List.intercalate]
  | cons part parts ih =>
    rw [List.forall_mem_cons] at h
    cases parts with
    | nil => simpa [List.intercalate] using h.1
    | cons next parts =>
      have hmore := ih h.2
      simp only [List.intercalate, List.intersperse_cons_cons, List.flatten_cons, List.mem_append,
        not_or] at hmore ⊢
      exact ⟨h.1, hseparator, hmore⟩

theorem not_mem_intercalate_names {c : Char} (hc : c ≠ '/') {names : List String}
    (h : ∀ name ∈ names, c ∉ name.toList) : c ∉ ("/".intercalate names).toList := by
  rw [String.toList_intercalate]
  apply not_mem_intercalate
  · simpa using hc
  · intro part hpart
    obtain ⟨name, hname, rfl⟩ := List.mem_map.mp hpart
    exact h name hname

theorem intercalate_concat (separator last : List Char) {parts : List (List Char)}
    (h : parts ≠ []) :
    separator.intercalate (parts ++ [last]) = separator.intercalate parts ++ separator ++ last := by
  induction parts with
  | nil => exact absurd rfl h
  | cons part parts ih =>
    cases parts with
    | nil => simp [List.intercalate]
    | cons next parts =>
      have hnext := ih (List.cons_ne_nil _ _)
      simp only [List.cons_append] at hnext ⊢
      rw [List.intercalate_cons_cons, List.intercalate_cons_cons, hnext]
      simp only [List.append_assoc]

theorem pieces_intercalate {names : List String} (hne : names ≠ [])
    (h : ∀ name ∈ names, '/' ∉ name.toList) : pieces ("/".intercalate names) = names := by
  have htext : ("/".intercalate names).toList = ['/'].intercalate (names.map String.toList) := by
    rw [String.toList_intercalate]
    rfl
  rw [pieces, splitOnChar_eq_splitOn, htext, List.splitOn_intercalate]
  · simp [Function.comp_def]
  · intro piece hpiece
    obtain ⟨name, hname, rfl⟩ := List.mem_map.mp hpiece
    exact h name hname
  · simpa using hne

/-- The pieces of a path in front of a name that is joined to it. -/
def piecesBefore (base : String) : List String :=
  if base.isEmpty then []
  else if base.toList.getLast? == some '/' then (pieces base).dropLast
  else pieces base

theorem IsName.not_isAbsolute {name : String} (h : IsName name) : isAbsolute name = false := by
  rw [isAbsolute]
  cases hname : name.toList with
  | nil => rfl
  | cons c rest =>
    have hc : c ≠ '/' := by
      rintro rfl
      exact h.no_slash (by simp [hname])
    simpa using hc

theorem exists_eq_append_slash {base : String} (h : (base.toList.getLast? == some '/') = true) :
    ∃ before, base = before ++ "/" := by
  obtain ⟨front, hfront⟩ := List.getLast?_eq_some_iff.mp (beq_iff_eq.mp h)
  refine ⟨String.ofList front, String.toList_injective ?_⟩
  simp [hfront, String.toList_append]

theorem pieces_slash (before : String) : pieces (before ++ "/") = pieces before ++ [""] := by
  rw [← String.append_empty (s := before ++ "/"), pieces_append_slash]
  rfl

theorem pieces_join_of_not_isAbsolute (base : String) {p : String} (h : isAbsolute p = false) :
    pieces (join base p) = piecesBefore base ++ pieces p := by
  rw [join, h, piecesBefore, Bool.false_or]
  split
  · rfl
  split
  · rename_i hslash
    obtain ⟨before, rfl⟩ := exists_eq_append_slash hslash
    rw [pieces_slash, List.dropLast_concat, pieces_append_slash]
  · rw [pieces_append_slash]

theorem pieces_join (base : String) {name : String} (h : IsName name) :
    pieces (join base name) = piecesBefore base ++ [name] := by
  rw [pieces_join_of_not_isAbsolute base (IsName.not_isAbsolute h), pieces_of_isName h]

theorem exists_pieces_of_isAbsolute {p : String} (h : isAbsolute p = true) :
    ∃ rest, pieces p = "" :: rest := by
  rw [isAbsolute, beq_iff_eq] at h
  obtain ⟨s, hs⟩ := List.head?_eq_some_iff.mp h
  exact ⟨(splitOnChar '/' s).map String.ofList, by rw [pieces, hs, splitOnChar]; rfl⟩

/-- Several names that are joined to a path are its last pieces. -/
theorem pieces_join_names (base : String) {names : List String} (hne : names ≠ [])
    (h : ∀ name ∈ names, IsName name) :
    pieces (join base ("/".intercalate names)) = piecesBefore base ++ names := by
  have hpieces : pieces ("/".intercalate names) = names :=
    pieces_intercalate hne fun name hname => (h name hname).no_slash
  have hrelative : isAbsolute ("/".intercalate names) = false := by
    rw [Bool.eq_false_iff]
    intro habsolute
    obtain ⟨rest, hrest⟩ := exists_pieces_of_isAbsolute habsolute
    rw [hpieces] at hrest
    exact (h "" (by simp [hrest])).nonempty rfl
  rw [pieces_join_of_not_isAbsolute base hrelative, hpieces]

/-- A joined path ends in the text that is joined. -/
theorem exists_toList_join (base name : String) :
    ∃ before, (join base name).toList = before ++ name.toList := by
  rw [join]
  split
  · exact ⟨[], rfl⟩
  split
  · exact ⟨base.toList, String.toList_append⟩
  · exact ⟨base.toList ++ ['/'], by simp [String.toList_append]⟩

theorem getLast?_join (base : String) {name : String} (h : IsName name) :
    ∃ c, (join base name).toList.getLast? = some c ∧ c ≠ '/' := by
  obtain ⟨before, hbefore⟩ := exists_toList_join base name
  obtain ⟨front, c, hname⟩ : ∃ front c, name.toList = front ++ [c] := by
    rcases List.eq_nil_or_concat name.toList with hnil | hconcat
    · exact absurd (String.toList_eq_nil_iff.mp hnil) h.nonempty
    · simpa using hconcat
  refine ⟨c, by rw [hbefore, hname, ← List.append_assoc, List.getLast?_concat], ?_⟩
  rintro rfl
  exact h.no_slash (by simp [hname])

/-- A joined path ends in a name, so more names go behind all of its pieces. -/
theorem piecesBefore_join (base : String) {name : String} (h : IsName name) :
    piecesBefore (join base name) = piecesBefore base ++ [name] := by
  obtain ⟨c, hlast, hc⟩ := getLast?_join base h
  have hempty : (join base name).isEmpty = false := by
    rw [Bool.eq_false_iff]
    intro hempty
    rw [String.isEmpty_iff.mp hempty] at hlast
    cases hlast
  rw [piecesBefore, hempty, hlast, pieces_join base h]
  simp [hc]

/-! ## Parents -/

theorem not_isSilent {name : String} (h : IsName name) : isSilent name = false := by
  simp [isSilent, h.nonempty, h.not_here]

theorem innerComponent?_of_isName {name : String} (h : IsName name) :
    innerComponent? name = some (.name name) := by
  rw [innerComponent?, if_neg (by simp [h.nonempty, h.not_here]), if_neg h.not_up]

theorem dropSilentEnd_concat (before : List String) {name : String} (h : IsName name) :
    dropSilentEnd (before ++ [name]) = before ++ [name] := by
  cases before with
  | nil => rfl
  | cons first rest =>
    rw [List.cons_append, dropSilentEnd, List.reverse_append, List.reverse_singleton,
      List.singleton_append, List.dropWhile_cons_of_neg (by simp [not_isSilent h])]
    simp

theorem getLast?_components {p first name : String} {rest : List String}
    (hpieces : pieces p = first :: (rest ++ [name])) (h : IsName name) :
    (components p).getLast? = some (.name name) := by
  have hmarked : markedPieces p =
      ((first, firstComponent? first (rest ++ [name]).isEmpty) ::
        rest.map fun piece => (piece, innerComponent? piece)) ++ [(name, some (.name name))] := by
    rw [markedPieces, hpieces]
    simp [innerComponent?_of_isName h]
  rw [components, hmarked, List.filterMap_append]
  simp

theorem parent?_join_join (base : String) {directory name : String} (hdirectory : IsName directory)
    (hname : IsName name) :
    parent? (join (join base directory) name) = some (join base directory) := by
  have hpieces : pieces (join (join base directory) name) =
      pieces (join base directory) ++ [name] := by
    rw [pieces_join _ hname, piecesBefore_join base hdirectory, pieces_join base hdirectory]
  have hfirst : ∃ first rest, pieces (join base directory) = first :: rest := by
    rw [pieces_join base hdirectory]
    exact List.exists_cons_of_ne_nil (by simp)
  obtain ⟨first, rest, hcons⟩ := hfirst
  rw [hcons, List.cons_append] at hpieces
  have hlast := getLast?_components hpieces hname
  have hdrop : dropSilentEnd (dropSilentEnd (pieces (join (join base directory) name))).dropLast =
      pieces (join base directory) := by
    rw [hpieces, ← List.cons_append, ← hcons, dropSilentEnd_concat _ hname, List.dropLast_concat,
      pieces_join base hdirectory, dropSilentEnd_concat _ hdirectory]
  rw [parent?, hlast, hdrop]
  simp only
  split
  · rename_i hroot
    rw [pieces_join base hdirectory] at hroot
    have := congrArg List.getLast? hroot
    simp only [List.getLast?_concat, List.getLast?_singleton, Option.some.injEq] at this
    exact absurd this hdirectory.nonempty
  · rw [intercalate_pieces]

/-! ## Extensions -/

/-- A file name comes apart at its last dot, with a stem before it and without a dot behind it. -/
theorem splitExtension_eq_some_iff {name stem extension : String} :
    splitExtension name = (stem, some extension) ↔
      name = stem ++ "." ++ extension ∧ stem ≠ "" ∧ '.' ∉ extension.toList := by
  constructor
  · intro h
    unfold splitExtension at h
    split at h
    · rename_i last before rest hpieces
      simp only at h
      split at h
      · cases h
      rename_i hstem
      cases h
      have hsplit : splitOnChar '.' name.toList = (before :: rest).reverse ++ [last] := by
        rw [← List.reverse_reverse (splitOnChar '.' name.toList), hpieces, List.reverse_cons]
      have hrest : (before :: rest).reverse ≠ [] := by simp
      refine ⟨String.toList_injective ?_, by simpa using hstem, ?_⟩
      · have hjoin := intercalate_concat ['.'] last hrest
        rw [← hsplit, intercalate_splitOnChar] at hjoin
        simpa [String.toList_append] using hjoin
      · rw [String.toList_ofList]
        exact not_mem_of_mem_splitOnChar (s := name.toList) (by simp [hsplit])
    · cases h
  · rintro ⟨rfl, hstem, hextension⟩
    have hname : (stem ++ "." ++ extension).toList = stem.toList ++ '.' :: extension.toList := by
      simp [String.toList_append]
    obtain ⟨before, rest, hbefore⟩ : ∃ before rest,
        (splitOnChar '.' stem.toList).reverse = before :: rest :=
      List.exists_cons_of_ne_nil (by simpa using splitOnChar_ne_nil '.' stem.toList)
    have hjoin : ['.'].intercalate (before :: rest).reverse = stem.toList := by
      rw [← hbefore, List.reverse_reverse, intercalate_splitOnChar]
    rw [splitExtension, hname, splitOnChar_append, splitOnChar_of_not_mem hextension,
      List.reverse_append, List.reverse_singleton, List.singleton_append, hbefore]
    simp only [hjoin, List.isEmpty_iff, String.toList_eq_nil_iff, hstem, if_false,
      String.ofList_toList]

end Path

end LocaleAudit
