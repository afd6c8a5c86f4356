import LocaleAudit.Project
import LocaleAudit.Proofs.Config
import LocaleAudit.Proofs.ExportTable.Rows
import LocaleAudit.Proofs.Text.Delimited

namespace LocaleAudit

/-!
# Written tables

A table to which only namespaces were added has one cell for each language in every row. So its
records have the width of the header, the table is written whole, and a reader gets back the header
and the rows: no two such tables have the same text.
-/

open Delimited (IsDelimiter read?)

namespace ExportTable

variable {t t' : ExportTable} {delimiter : Char}

/-- A table that was made by adding namespaces. -/
inductive Built : ExportTable → Prop where
  | new (languages : List String) : Built (.new languages)
  | addNamespace {t : ExportTable} (h : Built t) (nameSpace : String) (catalogs : List Catalog) :
      Built (t.addNamespace nameSpace catalogs)

/-- Adding a namespace keeps the rows as wide as the table. -/
theorem Built.width (h : t.Built) : ∀ row ∈ t.rows, row.cells.length = t.languages.length := by
  induction h with
  | new languages => exact fun row hrow => absurd hrow List.not_mem_nil
  | addNamespace _ nameSpace catalogs ih =>
    intro row hrow
    rcases List.mem_append.mp hrow with hrow | hrow
    · exact ih row hrow
    · exact length_cells_of_mem_rowsOf hrow

theorem Built.length_records (h : t.Built) :
    ∀ record ∈ t.records, record.length = t.languages.length + 2 := by
  rw [records, List.forall_mem_cons]
  refine ⟨rfl, fun record hrecord => ?_⟩
  obtain ⟨row, hrow, rfl⟩ := List.mem_map.mp hrecord
  simp [h.width row hrow]

/-- The records say which table it is. -/
theorem records_injective : Function.Injective records := by
  rintro ⟨languages, rows⟩ ⟨languages', rows'⟩ h
  have hrow : Function.Injective fun r : ExportRow => r.nameSpace :: r.path :: r.cells := by
    rintro ⟨nameSpace, path, cells⟩ ⟨nameSpace', path', cells'⟩ heq
    simpa using heq
  simp only [records, header, List.cons.injEq, true_and] at h
  rw [h.1, List.map_injective_iff.mpr hrow h.2]

theorem Built.exists_render (h : t.Built) (hdelimiter : IsDelimiter delimiter) :
    ∃ text, t.render delimiter = (text, .ok ()) ∧ read? delimiter text = some t.records := by
  obtain ⟨text, hwrite, hread⟩ :=
    Delimited.exists_write_read? hdelimiter (Nat.succ_pos _) h.length_records
  refine ⟨text, ?_, hread⟩
  rw [render, hwrite]
  rfl

/-- A table that was made by adding namespaces is written whole. What a reader gets from the text are
the names of the columns and then one record for each row, so there is no other such table with the
same text. -/
theorem render_determines (h : t.Built) (hdelimiter : delimiter = ',' ∨ delimiter = '\t') :
    ∃ text, t.render delimiter = (text, .ok ()) ∧
      read? delimiter text = some (("namespace" :: "path" :: t.languages) ::
        t.rows.map fun row => row.nameSpace :: row.path :: row.cells) ∧
      ∀ t' : ExportTable, t'.Built → (t'.render delimiter).1 = text → t' = t := by
  have hd : IsDelimiter delimiter := by
    rcases hdelimiter with rfl | rfl
    · exact Delimited.isDelimiter_comma
    · exact Delimited.isDelimiter_tab
  obtain ⟨text, hrender, hread⟩ := h.exists_render hd
  refine ⟨text, hrender, hread, fun t' h' htext => ?_⟩
  obtain ⟨text', hrender', hread'⟩ := h'.exists_render hd
  have hsame : text' = text := by simpa [hrender'] using htext
  rw [hsame, hread] at hread'
  exact (records_injective (Option.some.inj hread')).symm

/-- Quotes, delimiters and line ends in a cell, a cell without text, and a language with a comma. -/
theorem render_determines_quoted :
    let t := (new ["en", "x,y"]).addNamespace "a\tb"
      [⟨"en", "a\tb", [("k", .string " \"q\",\r\nend ")]⟩]
    t.Built ∧
      (∃ text, t.render ',' = (text, .ok ()) ∧ read? ',' text =
        some [["namespace", "path", "en", "x,y"], ["a\tb", "k", " \"q\",\r\nend ", ""]]) ∧
      ∃ text, t.render '\t' = (text, .ok ()) ∧ read? '\t' text =
        some [["namespace", "path", "en", "x,y"], ["a\tb", "k", " \"q\",\r\nend ", ""]] := by
  intro t
  have hbuilt : t.Built := .addNamespace (.new _) _ _
  have hrows : t.rows = [⟨"a\tb", "k", [" \"q\",\r\nend ", ""]⟩] := by decide +kernel
  obtain ⟨text, hrender, hread, _⟩ := render_determines hbuilt (Or.inl rfl)
  obtain ⟨text', hrender', hread', _⟩ := render_determines hbuilt (Or.inr rfl)
  rw [hrows] at hread hread'
  exact ⟨hbuilt, ⟨text, hrender, hread⟩, text', hrender', hread'⟩

end ExportTable

/-- The table of a project is made by adding its namespaces, so it can be written. -/
theorem Project.built_of_exportTable {p : Project} {files : Directory} {t : ExportTable}
    {failures : Report} (h : p.exportTable files = .ok (t, failures)) : t.Built := by
  obtain ⟨set, _, h⟩ := Config.bind_eq_ok_iff.mp h
  cases h
  have hfold : ∀ (names : List String) (t : ExportTable), t.Built → ExportTable.Built
      (names.foldl (fun t nameSpace => t.addNamespace nameSpace (set.ofNamespace nameSpace)) t) := by
    intro names
    induction names with
    | nil => exact fun t ht => ht
    | cons name names ih => exact fun t ht => ih _ (ht.addNamespace name _)
  exact hfold _ _ (.new _)

end LocaleAudit
