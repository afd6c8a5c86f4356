import LocaleAudit.Catalog
import LocaleAudit.Finding
import LocaleAudit.Interpolation
import LocaleAudit.Markup

namespace LocaleAudit

/-!
# Checks on single values

A value must not be empty, its markup must nest, and it must use the variables of the default
language's text. The checks do not depend on each other.
-/

namespace Validation

/-- No value, or no text. -/
def isEmptyValue : Json.Value → Bool
  | .null => true
  | .string s => s.isEmpty
  | _ => false

def variableFinding (kind : Finding.Kind) (nameSpace language path value name complaint : String) :
    Finding :=
  { kind, nameSpace, language, path
    message := "variable \x60\x7b\x7b" ++ name ++ "\x7d\x7d\x60 " ++ complaint
    value := some value
    variableName := some name }

/-- The variables that a text lacks, and those that it has beyond the default language's text. -/
def variableFindings (nameSpace language path defaultValue value : String) : List Finding :=
  let expected := Interpolation.variableNames defaultValue
  let actual := Interpolation.variableNames value
  (expected.filter (!actual.contains ·)).map
      (variableFinding .missingVariable nameSpace language path value · "is missing") ++
    (actual.filter (!expected.contains ·)).map
      (variableFinding .extraVariable nameSpace language path value ·
        "is not in the default language")

def checkVariables (nameSpace language path defaultValue value : String) : Report :=
  Report.ofList (variableFindings nameSpace language path defaultValue value)

/-- The findings for one leaf, given the default language's value at its path. -/
def leafFindings (nameSpace language path : String) (reference : Option Json.Value)
    (value : Json.Value) : List Finding :=
  let empty : List Finding :=
    if isEmptyValue value then
      [{ kind := .emptyValue, nameSpace, language, path, message := "value is empty" }]
    else []
  match value with
  | .string text =>
    let markup : List Finding :=
      match Markup.check text with
      | .ok () => []
      | .error fault =>
        [{ kind := .unbalancedMarkup, nameSpace, language, path, message := fault.message
           value := some text }]
    let inText : List Finding :=
      match reference with
      | some (.string defaultText) =>
        variableFindings nameSpace language path defaultText text
      | _ => []
    empty ++ markup ++ inText
  | _ => empty

/-- The findings for every leaf of a catalog. A default catalog of the same language is no
reference. -/
def catalogFindings (c : Catalog) (default : Option Catalog) : List Finding :=
  let reference := default.filter fun d => d.language != c.language
  c.leaves.flatMap fun (path, value) =>
    leafFindings c.nameSpace c.language path (reference.bind (·.get? path)) value

def validateCatalog (c : Catalog) (default : Option Catalog) : Report :=
  Report.ofList (catalogFindings c default)

end Validation

end LocaleAudit
