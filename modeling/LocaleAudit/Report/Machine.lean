import LocaleAudit.Report.Human
import LocaleAudit.Json.Printer

namespace LocaleAudit

/-!
# Reports for programs

The report as a JSON object: the summary, whether the run passed, the number of findings of each
kind, and all errors and warnings.
-/

def natValue (n : Nat) : Json.Value :=
  .number (.integer n)

def optionalField (key : String) : Option String → Json.Fields
  | none => []
  | some s => [(key, .string s)]

def Finding.toFields (f : Finding) : Json.Fields :=
  [("kind", .string f.kind.name), ("namespace", .string f.nameSpace),
   ("language", .string f.language), ("path", .string f.path), ("message", .string f.message)] ++
  optionalField "value" f.value ++ optionalField "variable" f.variableName

def Finding.toValue (f : Finding) : Json.Value :=
  .object f.toFields

def RunSummary.toValue (s : RunSummary) : Json.Value :=
  .object [("namespaces", natValue s.namespaces), ("languages", natValue s.languages),
    ("files_scanned", natValue s.filesScanned), ("keys_referenced", natValue s.keysReferenced)]

namespace Report

def countsValue (r : Report) : Json.Value :=
  .object (Finding.Kind.all.map fun kind => (kind.name, natValue (r.count kind)))

def toValue (r : Report) (s : RunSummary) : Json.Value :=
  .object [("summary", s.toValue), ("passed", .bool !r.hasErrors), ("counts", r.countsValue),
    ("errors", .array (r.errors.map Finding.toValue)),
    ("warnings", .array (r.warnings.map Finding.toValue))]

def renderJson (r : Report) (s : RunSummary) : String :=
  Json.pretty (r.toValue s)

end Report

end LocaleAudit
