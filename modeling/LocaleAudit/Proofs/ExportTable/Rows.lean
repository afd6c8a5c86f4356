import LocaleAudit.ExportTable
import LocaleAudit.Proofs.Catalog.Documents
import LocaleAudit.Proofs.FirstOccurrences

namespace LocaleAudit

/-!
# The rows of a namespace

A namespace has one row for each path that is a leaf in some column. The paths of the first language
come first; every further language adds those of its paths that no language before it has, in
document order. Which catalog belongs to which column is said by its language alone, so the order in
which catalogs are given makes no difference.
-/

namespace ExportTable

variable {t : ExportTable} {languages : List String} {nameSpace language path : String}
  {catalogs catalogs' : List Catalog}

/-! ## Columns -/

/-- The leaf paths of the catalogs of a language, in document order. -/
def pathsOf (catalogs : List Catalog) (language : String) : List String :=
  (catalogs.filter (·.language == language)).flatMap Catalog.leafPaths

/-- With one catalog for each language, a column has the only catalog of its language. -/
theorem toList_find? (hone : (catalogs.map (·.language)).Nodup) (language : String) :
    (catalogs.find? (·.language == language)).toList =
      catalogs.filter (·.language == language) := by
  induction catalogs with
  | nil => rfl
  | cons c rest ih =>
    rw [List.map_cons, List.nodup_cons] at hone
    cases hc : c.language == language with
    | true =>
      have hnone : rest.filter (·.language == language) = [] := by
        refine List.filter_eq_nil_iff.mpr fun other hother heq => hone.1 ?_
        rw [beq_iff_eq.mp hc, ← beq_iff_eq.mp heq]
        exact List.mem_map_of_mem hother
      simp only [List.find?_cons, List.filter_cons, hc, if_true, hnone, Option.toList_some]
    | false =>
      simp only [List.find?_cons, List.filter_cons, hc, Bool.false_eq_true, if_false, ih hone.2]

theorem eq_of_perm_toList {α : Type} {o o' : Option α} (h : o.toList.Perm o'.toList) : o = o' := by
  cases o <;> cases o' <;> simp_all

/-- The column of a language has the same catalog in whatever order catalogs are given. -/
theorem find?_perm (hone : (catalogs.map (·.language)).Nodup) (hperm : catalogs'.Perm catalogs)
    (language : String) : catalogs'.find? (·.language == language) =
      catalogs.find? (·.language == language) := by
  have hone' : (catalogs'.map (·.language)).Nodup := (hperm.map _).nodup_iff.mpr hone
  apply eq_of_perm_toList
  rw [toList_find? hone', toList_find? hone]
  exact hperm.filter _

theorem mem_pathsOf : path ∈ pathsOf catalogs language ↔
    ∃ c ∈ catalogs, c.language = language ∧ path ∈ c.leafPaths := by
  simp [pathsOf, and_assoc]

/-- In the tree of a document no path comes twice. -/
theorem nodup_pathsOf (hparsed : ∀ c ∈ catalogs, c.Parsed)
    (hone : (catalogs.map (·.language)).Nodup) (language : String) :
    (pathsOf catalogs language).Nodup := by
  rw [pathsOf, ← toList_find? hone]
  cases hfound : catalogs.find? (·.language == language) with
  | none => exact List.nodup_nil
  | some c =>
    have hc := hparsed c (List.mem_of_find?_eq_some hfound)
    rw [Option.toList_some, List.flatMap_singleton]
    exact KeyPath.nodup_leafPaths hc.wellFormed

/-! ## The list of paths -/

theorem flatten_columns (hone : (catalogs.map (·.language)).Nodup) (languages : List String) :
    (((languages.map fun language => catalogs.find? (·.language == language)).filterMap id).map
      Catalog.leafPaths).flatten = languages.flatMap (pathsOf catalogs) := by
  induction languages with
  | nil => rfl
  | cons language rest ih =>
    rw [List.flatMap_cons, ← ih, pathsOf, ← toList_find? hone]
    cases hfound : catalogs.find? (·.language == language) <;> simp [hfound]

/-- The paths of the rows: those of all columns, one after the other, each at its first place. -/
theorem map_path_rowsOf (hone : (catalogs.map (·.language)).Nodup) :
    (rowsOf languages nameSpace catalogs).map (·.path) =
      (languages.flatMap (pathsOf catalogs)).eraseDups := by
  rw [rowsOf, List.map_map, ← flatten_columns hone]
  exact List.map_id _

/-- Column by column, each adds the paths that are not listed yet. -/
theorem eraseDups_flatMap {paths : String → List String}
    (hpaths : ∀ language, (paths language).Nodup) (languages : List String) :
    (languages.flatMap paths).eraseDups = languages.foldl
      (fun listed language => listed ++ (paths language).filter (· ∉ listed)) [] := by
  induction languages using List.reverseRecOn with
  | nil => rfl
  | append_singleton languages language ih =>
    rw [List.flatMap_append, List.flatMap_singleton, List.foldl_append, List.foldl_cons,
      List.foldl_nil, ← ih, FirstOccurrences.eraseDups_append_of_nodup (hpaths language)]
    congr 1
    refine List.filter_congr fun path _ => ?_
    rw [List.elem_eq_mem, decide_not]

/-! ## The rows -/

/-- The rows that the catalogs of a namespace make in a table of some languages. -/
structure InColumnOrder (languages : List String) (nameSpace : String) (catalogs : List Catalog)
    (rows : List ExportRow) : Prop where
  /-- Each language in its turn adds those of its leaf paths that are not listed yet. -/
  paths_eq : rows.map (·.path) = languages.foldl
    (fun listed language => listed ++ (pathsOf catalogs language).filter (· ∉ listed)) []
  mem_iff : ∀ path, path ∈ rows.map (·.path) ↔
    ∃ c ∈ catalogs, c.language ∈ languages ∧ path ∈ c.leafPaths
  nodup : (rows.map (·.path)).Nodup
  nameSpace_eq : ∀ row ∈ rows, row.nameSpace = nameSpace
  width : ∀ row ∈ rows, row.cells.length = languages.length

theorem nameSpace_of_mem_rowsOf {row : ExportRow} (h : row ∈ rowsOf languages nameSpace catalogs) :
    row.nameSpace = nameSpace := by
  obtain ⟨path, _, rfl⟩ := List.mem_map.mp h
  rfl

theorem length_cells_of_mem_rowsOf {row : ExportRow}
    (h : row ∈ rowsOf languages nameSpace catalogs) : row.cells.length = languages.length := by
  obtain ⟨path, _, rfl⟩ := List.mem_map.mp h
  simp

theorem inColumnOrder_rowsOf (languages : List String) (nameSpace : String)
    (hparsed : ∀ c ∈ catalogs, c.Parsed) (hone : (catalogs.map (·.language)).Nodup) :
    InColumnOrder languages nameSpace catalogs (rowsOf languages nameSpace catalogs) where
  paths_eq := by rw [map_path_rowsOf hone, eraseDups_flatMap (nodup_pathsOf hparsed hone)]
  mem_iff := fun path => by
    rw [map_path_rowsOf hone, List.mem_eraseDups, List.mem_flatMap]
    simp only [mem_pathsOf]
    constructor
    · rintro ⟨_, hlanguage, c, hc, rfl, hpath⟩
      exact ⟨c, hc, hlanguage, hpath⟩
    · rintro ⟨c, hc, hlanguage, hpath⟩
      exact ⟨c.language, hlanguage, c, hc, rfl, hpath⟩
  nodup := by
    rw [map_path_rowsOf hone]
    exact (FirstOccurrences.eraseDups _).nodup
  nameSpace_eq := fun _ => nameSpace_of_mem_rowsOf
  width := fun _ => length_cells_of_mem_rowsOf

theorem rowsOf_perm (hone : (catalogs.map (·.language)).Nodup) (hperm : catalogs'.Perm catalogs) :
    rowsOf languages nameSpace catalogs' = rowsOf languages nameSpace catalogs := by
  simp only [rowsOf, find?_perm hone hperm]

/-- Adding a namespace appends its rows in the order of the columns, whatever the order in which its
catalogs are given. -/
theorem addNamespace_inColumnOrder (t : ExportTable) (nameSpace : String)
    (hparsed : ∀ c ∈ catalogs, c.Parsed) (hone : (catalogs.map (·.language)).Nodup) :
    (∃ rows, t.addNamespace nameSpace catalogs = { t with rows := t.rows ++ rows } ∧
      InColumnOrder t.languages nameSpace catalogs rows) ∧
    ∀ catalogs' : List Catalog, catalogs'.Perm catalogs →
      t.addNamespace nameSpace catalogs' = t.addNamespace nameSpace catalogs := by
  refine ⟨⟨_, rfl, inColumnOrder_rowsOf t.languages nameSpace hparsed hone⟩, ?_⟩
  intro catalogs' hperm
  rw [addNamespace, addNamespace, rowsOf_perm hone hperm]

/-- A path that only the second language has comes behind all paths of the first, also when the
second catalog is given first. -/
theorem addNamespace_inColumnOrder_extra :
    let en : Catalog := ⟨"en", "common", [("b", .string "B"), ("a", .object [("x", .string "X")])]⟩
    let uk : Catalog := ⟨"uk", "common", [("only", .string "O"), ("b", .string "V")]⟩
    en.Parsed ∧ uk.Parsed ∧ ([uk, en].map (·.language)).Nodup ∧
      (∃ rows, (new ["en", "uk"]).addNamespace "common" [uk, en] = ⟨["en", "uk"], rows⟩ ∧
        rows.map (·.path) = ["b", "a.x", "only"]) ∧
      (new ["en", "uk"]).addNamespace "common" [en, uk] =
        (new ["en", "uk"]).addNamespace "common" [uk, en] := by
  intro en uk
  have hen : en.Parsed :=
    ⟨"\x7b\"b\":\"B\",\"a\":\x7b\"x\":\"X\"\x7d\x7d", by decide +kernel⟩
  have huk : uk.Parsed := ⟨"\x7b\"only\":\"O\",\"b\":\"V\"\x7d", by decide +kernel⟩
  have hone : ([uk, en].map (·.language)).Nodup := by decide
  obtain ⟨⟨rows, hadded, horder⟩, hperm⟩ := addNamespace_inColumnOrder (new ["en", "uk"]) "common"
    (by simp [hen, huk]) hone
  refine ⟨hen, huk, hone, ⟨rows, hadded, ?_⟩, hperm _ (.swap uk en [])⟩
  rw [horder.paths_eq]
  decide +kernel

end ExportTable

end LocaleAudit
