import LocaleAudit.Finding
import LocaleAudit.Text.DisplayWidth
import LocaleAudit.Text.Search

namespace LocaleAudit

/-!
# Reports for people

A header with totals, the number of findings of each kind, the findings by namespace and language
with at most `maxItems` of each group, and the verdict.
-/

structure RunSummary where
  namespaces : Nat
  languages : Nat
  filesScanned : Nat
  keysReferenced : Nat
  deriving DecidableEq, Repr

/-- The longest beginning whose characters, measured alone, fit into a number of columns. -/
def takeColumns (w : Widths) : Nat → List Char → List Char
  | _, [] => []
  | columns, c :: cs =>
    let width := (w.ofChar c).getD 0
    if width ≤ columns then c :: takeColumns w (columns - width) cs else []

/-- Text on one line: cut, with dots at the end, when it takes more columns than given. -/
def truncateWith (w : Widths) (value : String) (width : Nat) : String :=
  let flat := replaceAll ['\n'] ['\\', 'n'] value.toList
  if w.ofText flat ≤ width then String.ofList flat
  else String.ofList (takeColumns w (width - 3) flat ++ ['.', '.', '.'])

def truncateDisplay : String → Nat → String :=
  truncateWith terminalWidths

def padEnd (width : Nat) (s : String) : String :=
  s ++ String.ofList (List.replicate (width - s.length) ' ')

namespace Report

def valueColumns : Nat := 60

def findingLine (f : Finding) : String :=
  let line := s!"    {padEnd 18 f.kind.name} {f.path}: {f.message}"
  match f.value with
  | none => line
  | some value => line ++ " (\"" ++ truncateDisplay value valueColumns ++ "\")"

def severityTitle : Severity → String
  | .error => "Errors"
  | .warning => "Warnings"

def groupLines (severity : Severity) (maxItems : Nat) (g : Group) : List String :=
  s!"\n{severityTitle severity} in {g.nameSpace} / {g.language} ({g.findings.length}):" ::
    (g.findings.take maxItems).map findingLine ++
    if maxItems < g.findings.length then [s!"    ... and {g.findings.length - maxItems} more"]
    else []

def countLines (r : Report) : List String :=
  Finding.Kind.all.filterMap fun kind =>
    if 0 < r.count kind then some s!"  {kind.name} ({kind.severity.name}): {r.count kind}" else none

def verdictLine (r : Report) : String :=
  if 0 < r.errors.length then
    s!"❌ FAILED: {r.errors.length} error(s), {r.warnings.length} warning(s)"
  else s!"✅ PASSED: 0 errors, {r.warnings.length} warning(s)"

def humanLines (r : Report) (s : RunSummary) (maxItems : Nat) : List String :=
  ["=== Translation check ===",
   s!"Namespaces: {s.namespaces}, Languages: {s.languages}, Source files: {s.filesScanned}, " ++
    s!"Referenced keys: {s.keysReferenced}",
   s!"Errors: {r.errors.length}, Warnings: {r.warnings.length}"] ++
  r.countLines ++
  (r.grouped .error).flatMap (groupLines .error maxItems) ++
  (r.grouped .warning).flatMap (groupLines .warning maxItems) ++
  ["", r.verdictLine]

def renderHuman (r : Report) (s : RunSummary) (maxItems : Nat) : String :=
  "\n".intercalate (r.humanLines s maxItems)

end Report

end LocaleAudit
