namespace LocaleAudit

/-!
# Findings

A finding is one problem at one path of one catalog. A report keeps findings in the order they
come in and drops a finding that names the same problem as one it has.
-/

inductive Severity where
  | error
  | warning
  deriving DecidableEq, Repr

def Severity.name : Severity → String
  | .error => "error"
  | .warning => "warning"

namespace Finding

inductive Kind where
  | missingKey
  | extraKey
  | missingVariable
  | extraVariable
  | unbalancedMarkup
  | emptyValue
  | untranslated
  | fileError
  deriving DecidableEq, Repr

def Kind.all : List Kind :=
  [.fileError, .missingKey, .missingVariable, .unbalancedMarkup, .extraKey, .extraVariable,
   .emptyValue, .untranslated]

def Kind.severity : Kind → Severity
  | .missingKey => .error
  | .missingVariable => .error
  | .unbalancedMarkup => .error
  | .fileError => .error
  | .extraKey => .warning
  | .extraVariable => .warning
  | .emptyValue => .warning
  | .untranslated => .warning

def Kind.name : Kind → String
  | .missingKey => "missing_key"
  | .extraKey => "extra_key"
  | .missingVariable => "missing_variable"
  | .extraVariable => "extra_variable"
  | .unbalancedMarkup => "unbalanced_markup"
  | .emptyValue => "empty_value"
  | .untranslated => "untranslated"
  | .fileError => "file_error"

theorem Kind.mem_all (k : Kind) : k ∈ Kind.all := by
  cases k <;> decide

end Finding

structure Finding where
  kind : Finding.Kind
  nameSpace : String
  language : String
  /-- The leaf path, or the path of the document for a file error. -/
  path : String
  message : String
  value : Option String := none
  variableName : Option String := none
  deriving DecidableEq, Repr

namespace Finding

def severity (f : Finding) : Severity :=
  f.kind.severity

def isError (f : Finding) : Bool :=
  f.severity == .error

/-- What two findings of the same problem agree in. -/
structure Identity where
  kind : Kind
  nameSpace : String
  language : String
  path : String
  variableName : Option String
  deriving DecidableEq, Repr

def identity (f : Finding) : Identity :=
  ⟨f.kind, f.nameSpace, f.language, f.path, f.variableName⟩

end Finding

structure Report where
  findings : List Finding
  deriving DecidableEq, Repr

namespace Report

def empty : Report := ⟨[]⟩

/-- The problems a report has. -/
def seen (r : Report) : List Finding.Identity :=
  r.findings.map Finding.identity

def knows (r : Report) (f : Finding) : Bool :=
  r.findings.any (·.identity == f.identity)

def push (r : Report) (f : Finding) : Report :=
  if r.knows f then r else ⟨r.findings ++ [f]⟩

def pushAll (r : Report) (findings : List Finding) : Report :=
  findings.foldl push r

def merge (r other : Report) : Report :=
  r.pushAll other.findings

def ofList (findings : List Finding) : Report :=
  empty.pushAll findings

def size (r : Report) : Nat :=
  r.findings.length

def isEmpty (r : Report) : Bool :=
  r.findings.isEmpty

def ofSeverity (r : Report) (severity : Severity) : List Finding :=
  r.findings.filter (·.severity == severity)

def errors (r : Report) : List Finding :=
  r.ofSeverity .error

def warnings (r : Report) : List Finding :=
  r.ofSeverity .warning

def hasErrors (r : Report) : Bool :=
  r.findings.any Finding.isError

def count (r : Report) (kind : Finding.Kind) : Nat :=
  r.findings.countP (·.kind == kind)

structure Group where
  nameSpace : String
  language : String
  findings : List Finding
  deriving DecidableEq, Repr

def addToGroups (f : Finding) : List Group → List Group
  | [] => [⟨f.nameSpace, f.language, [f]⟩]
  | g :: groups =>
    if g.nameSpace = f.nameSpace ∧ g.language = f.language then
      { g with findings := g.findings ++ [f] } :: groups
    else g :: addToGroups f groups

/-- The findings of one severity by namespace and language, groups and findings in order of first
appearance. -/
def grouped (r : Report) (severity : Severity) : List Group :=
  (r.ofSeverity severity).foldl (fun groups f => addToGroups f groups) []

/-- The outcome of a run: 1 when there is an error. -/
def exitCode (r : Report) : Nat :=
  if r.hasErrors then 1 else 0

end Report

end LocaleAudit
