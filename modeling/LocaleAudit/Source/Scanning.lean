import LocaleAudit.Difference
import LocaleAudit.Files
import LocaleAudit.Source.Extractor
import LocaleAudit.Source.Literals

namespace LocaleAudit

/-!
# Scanning source files

The keys of all files make one set; a file that cannot be read is skipped and named. The search for
hard-coded text leaves out tests and files that use keys on most lines.
-/

namespace SourceScan

/-- The keys a text uses, in the namespaces they belong to. -/
def keysOfText (e : Extractor) (defaultNamespace text : String) : List ResolvedKey :=
  (e.extract text).map (·.resolve defaultNamespace)

/-- What one file adds: its keys, or the reason to skip it. -/
def readFile (e : Extractor) (files : Directory) (defaultNamespace path : String) :
    Except String (List ResolvedKey) :=
  match files.readText path with
  | .ok text => .ok (keysOfText e defaultNamespace text)
  | .error fault => .error (Error.io fault).message

def ofFiles (e : Extractor) (files : Directory) (defaultNamespace : String) (paths : List String) :
    SourceScan :=
  let results := paths.map fun path => (path, readFile e files defaultNamespace path)
  let found := results.filterMap fun (_, result) => result.toOption
  { keys := sortedSet ResolvedKey.le found.flatten
    filesScanned := found.length
    skipped := results.filterMap fun (path, result) =>
      match result with
      | .ok _ => none
      | .error reason => some (path, reason) }

end SourceScan

namespace Literals

def inFile (e : Extractor) (files : Directory) (path : String) : List LiteralHit :=
  if Path.isTestFile path then []
  else
    match files.readText path with
    | .error _ => []
    | .ok text =>
      if e.isFullyInstrumented text then []
      else (find text).map fun (line, text) => ⟨path, line, text⟩

def inFiles (e : Extractor) (files : Directory) (paths : List String) : List LiteralHit :=
  paths.flatMap (inFile e files)

end Literals

end LocaleAudit
