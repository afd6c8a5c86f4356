import LocaleAudit.Report.Machine

namespace LocaleAudit

/-!
# Reading a report back

What a report for programs says, read from its JSON value. Fields are found by their names in any
order, and a value or a variable that is missing or `null` is none.
-/

namespace Json.Value

def fields? : Value → Option Fields
  | .object fields => some fields
  | _ => none

def items? : Value → Option (List Value)
  | .array items => some items
  | _ => none

def bool? : Value → Option Bool
  | .bool b => some b
  | _ => none

def nat? : Value → Option Nat
  | .number (.integer n) => if 0 ≤ n then some n.toNat else none
  | _ => none

def field? (v : Value) (key : String) : Option Value :=
  v.fields?.bind (Entries.get? key)

/-- A text that need not be there. -/
def optionalText? (v : Value) (key : String) : Option (Option String) :=
  match v.field? key with
  | none => some none
  | some .null => some none
  | some (.string s) => some (some s)
  | some _ => none

end Json.Value

open Json (Value)

def Finding.Kind.ofName? (name : String) : Option Finding.Kind :=
  Finding.Kind.all.find? (·.name == name)

def Finding.ofValue? (v : Value) : Option Finding := do
  let kind ← (v.field? "kind").bind Value.text?
  let kind ← Finding.Kind.ofName? kind
  let nameSpace ← (v.field? "namespace").bind Value.text?
  let language ← (v.field? "language").bind Value.text?
  let path ← (v.field? "path").bind Value.text?
  let message ← (v.field? "message").bind Value.text?
  let value ← v.optionalText? "value"
  let variableName ← v.optionalText? "variable"
  return { kind, nameSpace, language, path, message, value, variableName }

def RunSummary.ofValue? (v : Value) : Option RunSummary := do
  let namespaces ← (v.field? "namespaces").bind Value.nat?
  let languages ← (v.field? "languages").bind Value.nat?
  let filesScanned ← (v.field? "files_scanned").bind Value.nat?
  let keysReferenced ← (v.field? "keys_referenced").bind Value.nat?
  return { namespaces, languages, filesScanned, keysReferenced }

/-- What a report for programs says. -/
structure Transcript where
  summary : RunSummary
  passed : Bool
  counts : List (Finding.Kind × Nat)
  errors : List Finding
  warnings : List Finding
  deriving DecidableEq, Repr

namespace Transcript

/-- The number of findings of each kind. -/
def countsOf? (v : Value) : Option (List (Finding.Kind × Nat)) :=
  Finding.Kind.all.mapM fun kind => ((v.field? kind.name).bind Value.nat?).map (kind, ·)

def findingsOf? (v : Value) : Option (List Finding) :=
  v.items?.bind (·.mapM Finding.ofValue?)

def ofValue? (v : Value) : Option Transcript := do
  let summary ← (v.field? "summary").bind RunSummary.ofValue?
  let passed ← (v.field? "passed").bind Value.bool?
  let counts ← (v.field? "counts").bind countsOf?
  let errors ← (v.field? "errors").bind findingsOf?
  let warnings ← (v.field? "warnings").bind findingsOf?
  return { summary, passed, counts, errors, warnings }

end Transcript

end LocaleAudit
