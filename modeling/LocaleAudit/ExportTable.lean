import LocaleAudit.Catalog
import LocaleAudit.Text.Delimited

namespace LocaleAudit

/-!
# Export tables

One row for each path of a namespace and one column for each language. The written form is
delimited text with the names of the columns in its first record.
-/

structure ExportRow where
  nameSpace : String
  path : String
  cells : List String
  deriving DecidableEq, Repr

structure ExportTable where
  languages : List String
  rows : List ExportRow
  deriving DecidableEq, Repr

namespace ExportTable

def new (languages : List String) : ExportTable :=
  ⟨languages, []⟩

/-- The text of a value: a string as it is, nothing for null, and JSON for the rest. -/
def cell : Option Json.Value → String
  | none => ""
  | some .null => ""
  | some (.string s) => s
  | some other => Json.compact other

/-- The members of several lists, each at its first place. -/
def union (lists : List (List String)) : List String :=
  lists.flatten.eraseDups

/-- The rows of one namespace, in the order of the first language's leaves and then of those that
only later languages have. -/
def rowsOf (languages : List String) (nameSpace : String) (catalogs : List Catalog) :
    List ExportRow :=
  let columns := languages.map fun language => catalogs.find? (·.language == language)
  let paths := union ((columns.filterMap id).map Catalog.leafPaths)
  paths.map fun path =>
    ⟨nameSpace, path, columns.map fun column => cell (column.bind (·.get? path))⟩

def addNamespace (t : ExportTable) (nameSpace : String) (catalogs : List Catalog) : ExportTable :=
  { t with rows := t.rows ++ rowsOf t.languages nameSpace catalogs }

def header (t : ExportTable) : List String :=
  "namespace" :: "path" :: t.languages

def records (t : ExportTable) : List (List String) :=
  t.header :: t.rows.map fun r => r.nameSpace :: r.path :: r.cells

/-- The text of a table, with the error if it could not be written whole. -/
def render (t : ExportTable) (delimiter : Char) : String × Except Error Unit :=
  let (text, result) := Delimited.write delimiter t.records
  (text, result.mapError .table)

end ExportTable

end LocaleAudit
