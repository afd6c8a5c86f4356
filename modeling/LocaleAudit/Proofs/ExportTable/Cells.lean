import LocaleAudit.Proofs.ExportTable.Rows
import Mathlib.Data.List.Forall2

namespace LocaleAudit

/-!
# The cells of a row

A cell shows the leaf that its catalog has at the path of the row. Where the catalog has no leaf
there, most cells are empty. But cells are looked up by path, and a path that is a leaf in one
language can lead to an object in another: then the cell shows the JSON of that object.
-/

open Json (Value)

namespace ExportTable

variable {t : ExportTable} {languages : List String} {nameSpace path : String}
  {catalogs : List Catalog} {column : Option Catalog}

/-- What the cell of a column says at a path. -/
structure CellText (column : Option Catalog) (path text : String) : Prop where
  string : ∀ c ∈ column, ∀ s, (path, .string s) ∈ c.leaves → text = s
  null : ∀ c ∈ column, (path, .null) ∈ c.leaves → text = ""
  other : ∀ c ∈ column, ∀ v, (path, v) ∈ c.leaves → v ≠ .null → (∀ s, v ≠ .string s) →
    text = Json.compact v
  object : ∀ c ∈ column, ∀ fields, c.get? path = some (.object fields) →
    text = Json.compact (.object fields)
  /-- Without a leaf it is the objects that are shown, and nothing else. -/
  empty_iff : (∀ c ∈ column, path ∉ c.leafPaths) →
    (text = "" ↔ ∀ c ∈ column, ∀ fields, c.get? path ≠ some (.object fields))

theorem cell_other {v : Value} (hnull : v ≠ .null) (hstring : ∀ s, v ≠ .string s) :
    cell (some v) = Json.compact v := by
  cases v with
  | null => exact absurd rfl hnull
  | string s => exact absurd rfl (hstring s)
  | bool b => rfl
  | number n => rfl
  | array items => rfl
  | object fields => rfl

theorem compact_object_ne_empty (fields : Json.Fields) : Json.compact (.object fields) ≠ "" := by
  rw [Json.compact, ne_eq, String.ofList_eq_empty_iff]
  cases fields with
  | nil => simp [Json.writeCompact]
  | cons field rest => simp [Json.writeCompact]

/-- A lookup finds the leaf at a path. -/
theorem bind_get?_of_mem_leaves {c : Catalog} {v : Value} (hparsed : c.Parsed) (hc : c ∈ column)
    (hleaf : (path, v) ∈ c.leaves) : column.bind (·.get? path) = some v := by
  rw [Option.mem_def.mp hc, Option.bind_some]
  exact ((KeyPath.mem_leaves_iff hparsed.wellFormed).mp hleaf).1

/-- Without a leaf a lookup finds nothing or an object. -/
theorem bind_get?_cases (hparsed : ∀ c ∈ column, c.Parsed) (path : String) :
    (∃ c ∈ column, path ∈ c.leafPaths) ∨
      (∃ c ∈ column, ∃ fields, c.get? path = some (.object fields)) ∨
      column.bind (·.get? path) = none := by
  cases column with
  | none => exact Or.inr (Or.inr rfl)
  | some c =>
    cases hget : c.get? path with
    | none => exact Or.inr (Or.inr hget)
    | some v =>
      cases hobject : v.isObject with
      | false =>
        refine Or.inl ⟨c, rfl, ?_⟩
        exact (KeyPath.mem_leafPaths_iff (hparsed c rfl).wellFormed).mpr ⟨v, hget, hobject⟩
      | true =>
        cases v with
        | object fields => exact Or.inr (Or.inl ⟨c, rfl, fields, hget⟩)
        | _ => cases hobject

theorem cellText (hparsed : ∀ c ∈ column, c.Parsed) (path : String) :
    CellText column path (cell (column.bind (·.get? path))) where
  string c hc s hleaf := by rw [bind_get?_of_mem_leaves (hparsed c hc) hc hleaf, cell]
  null c hc hleaf := by rw [bind_get?_of_mem_leaves (hparsed c hc) hc hleaf, cell]
  other c hc v hleaf hnull hstring := by
    rw [bind_get?_of_mem_leaves (hparsed c hc) hc hleaf, cell_other hnull hstring]
  object c hc fields hget := by
    rw [Option.mem_def.mp hc, Option.bind_some, hget]
    exact cell_other (by simp) (by simp)
  empty_iff hnone := by
    constructor
    · intro hempty c hc fields hget
      rw [Option.mem_def.mp hc, Option.bind_some, hget, cell_other (by simp) (by simp)] at hempty
      exact compact_object_ne_empty fields hempty
    · intro hobjects
      obtain ⟨c, hc, hleaf⟩ | ⟨c, hc, fields, hget⟩ | hmissing := bind_get?_cases hparsed path
      · exact absurd hleaf (hnone c hc)
      · exact absurd hget (hobjects c hc fields)
      · rw [hmissing, cell]

/-- Every cell of the rows that a namespace adds shows the leaf of its language at the path of the
row. Without a leaf it is empty, unless the path leads to an object there. -/
theorem addNamespace_cells (t : ExportTable) (nameSpace : String)
    (hparsed : ∀ c ∈ catalogs, c.Parsed) :
    ∃ rows, t.addNamespace nameSpace catalogs = { t with rows := t.rows ++ rows } ∧
      ∀ row ∈ rows, List.Forall₂
        (fun language text =>
          CellText (catalogs.find? (·.language == language)) row.path text)
        t.languages row.cells := by
  refine ⟨rowsOf t.languages nameSpace catalogs, rfl, fun row hrow => ?_⟩
  obtain ⟨path, _, rfl⟩ := List.mem_map.mp hrow
  simp only [List.map_map, List.forall₂_map_right_iff, Function.comp_apply, List.forall₂_same]
  intro language _
  refine cellText (fun c hc => hparsed c ?_) path
  exact List.mem_of_find?_eq_some hc

/-- One language has a text where another has an object. -/
def textAtPath : Catalog := ⟨"en", "common", [("a", .string "x")]⟩

def objectAtPath : Catalog := ⟨"uk", "common", [("a", .object [("b", .string "y")])]⟩

theorem textAtPath_parsed : textAtPath.Parsed :=
  ⟨"\x7b\"a\":\"x\"\x7d", by decide +kernel⟩

theorem objectAtPath_parsed : objectAtPath.Parsed :=
  ⟨"\x7b\"a\":\x7b\"b\":\"y\"\x7d\x7d", by decide +kernel⟩

/-- The object is shown at the path of the text, and below the text there is nothing to show. -/
theorem addNamespace_cells_object :
    (∀ c ∈ [textAtPath, objectAtPath], c.Parsed) ∧
      (new ["en", "uk"]).addNamespace "common" [textAtPath, objectAtPath] =
        ⟨["en", "uk"], [⟨"common", "a", ["x", "\x7b\"b\":\"y\"\x7d"]⟩,
          ⟨"common", "a.b", ["", "y"]⟩]⟩ ∧
      CellText (some objectAtPath) "a" "\x7b\"b\":\"y\"\x7d" ∧
      CellText (some textAtPath) "a.b" "" := by
  have hparsed : ∀ c ∈ [textAtPath, objectAtPath], c.Parsed := by
    simp [textAtPath_parsed, objectAtPath_parsed]
  have htable : (new ["en", "uk"]).addNamespace "common" [textAtPath, objectAtPath] =
      ⟨["en", "uk"], [⟨"common", "a", ["x", "\x7b\"b\":\"y\"\x7d"]⟩,
        ⟨"common", "a.b", ["", "y"]⟩]⟩ := by
    decide +kernel
  obtain ⟨rows, hadded, hcells⟩ := addNamespace_cells (new ["en", "uk"]) "common" hparsed
  obtain rfl := (ExportTable.mk.inj (hadded.symm.trans htable)).2
  obtain ⟨_, hobject, _⟩ := List.forall₂_cons.mp (hcells _ List.mem_cons_self) |>.imp_right
    List.forall₂_cons.mp
  obtain ⟨htext, _⟩ := List.forall₂_cons.mp (hcells _ (List.mem_cons_of_mem _ List.mem_cons_self))
  exact ⟨hparsed, htable, hobject, htext⟩

/-- A cell can be filled although its catalog has no leaf at the path. -/
theorem cell_filled_of_object :
    ¬∀ (languages : List String) (nameSpace : String) (catalogs : List Catalog),
      (∀ c ∈ catalogs, c.Parsed) →
        ∀ row ∈ rowsOf languages nameSpace catalogs, ∀ entry ∈ languages.zip row.cells,
          (∀ c ∈ catalogs, c.language = entry.1 → row.path ∉ c.leafPaths) → entry.2 = "" := by
  intro hall
  have hparsed : ∀ c ∈ [textAtPath, objectAtPath], c.Parsed := by
    simp [textAtPath_parsed, objectAtPath_parsed]
  have hrow : ⟨"common", "a", ["x", "\x7b\"b\":\"y\"\x7d"]⟩ ∈
      rowsOf ["en", "uk"] "common" [textAtPath, objectAtPath] := by
    decide +kernel
  have hempty := hall _ _ _ hparsed _ hrow ("uk", "\x7b\"b\":\"y\"\x7d") (by decide)
    (by decide +kernel)
  revert hempty
  decide

end ExportTable

end LocaleAudit
