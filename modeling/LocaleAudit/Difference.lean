import LocaleAudit.Catalog
import LocaleAudit.Finding
import LocaleAudit.Marker
import LocaleAudit.Reference
import LocaleAudit.Text.Blank

namespace LocaleAudit

/-!
# Differences

Catalogs against the default language's catalog, and against the keys that source text uses.
Findings come in the order of leaves, so equal inputs give equal reports.
-/

/-- The keys used across a source tree. -/
structure SourceScan where
  /-- In order, each once. -/
  keys : List ResolvedKey
  filesScanned : Nat
  /-- Files that could not be read, with the reason. -/
  skipped : List (String × String)
  deriving DecidableEq, Repr

namespace SourceScan

def empty : SourceScan := ⟨[], 0, []⟩

def references (s : SourceScan) (nameSpace : String) : List ResolvedKey :=
  s.keys.filter (·.nameSpace == nameSpace)

def isReferenced (s : SourceScan) (nameSpace path : String) : Bool :=
  s.keys.contains ⟨nameSpace, path⟩

end SourceScan

namespace Difference

/-- The paths of the default catalog that the target lacks, in the default's order. -/
def missingPaths (default target : Catalog) : List String :=
  let present := target.leafPaths
  default.leafPaths.filter (!present.contains ·)

def extraPaths (default target : Catalog) : List String :=
  let expected := default.leafPaths
  target.leafPaths.filter (!expected.contains ·)

def missingFinding (default target : Catalog) (path : String) : Finding :=
  { kind := .missingKey
    nameSpace := target.nameSpace
    language := target.language
    path
    message := s!"missing in \x60{target.language}\x60, present in \x60{default.language}\x60"
    value := (default.get? path).bind Json.Value.text? }

def extraFinding (default target : Catalog) (path : String) : Finding :=
  { kind := .extraKey
    nameSpace := target.nameSpace
    language := target.language
    path
    message := s!"not present in default language \x60{default.language}\x60" }

/-- A catalog against the default language's catalog of the same namespace. -/
def betweenCatalogs (default target : Catalog) : Report :=
  Report.ofList <|
    (missingPaths default target).map (missingFinding default target) ++
      (extraPaths default target).map (extraFinding default target)

/-- The keys of the catalog's namespace that source uses and the catalog lacks. -/
def undefinedReferences (scan : SourceScan) (c : Catalog) : Report :=
  let present := c.leafPaths
  Report.ofList <|
    ((scan.references c.nameSpace).filter fun key => !present.contains key.path).map fun key =>
      { kind := .missingKey
        nameSpace := c.nameSpace
        language := c.language
        path := key.path
        message := "referenced in source but missing" }

/-- References into namespaces without a catalog, for every language. -/
def unknownNamespaces (scan : SourceScan) (namespaces languages : List String) : Report :=
  Report.ofList <|
    (scan.keys.filter fun key => !namespaces.contains key.nameSpace).flatMap fun key =>
      languages.map fun language =>
        { kind := .missingKey
          nameSpace := key.nameSpace
          language
          path := key.path
          message :=
            s!"referenced in source but namespace \x60{key.nameSpace}\x60 does not exist" }

/-- Leaves of the default catalog that source does not use. -/
def unusedKeys (scan : SourceScan) (default : Catalog) : Report :=
  Report.ofList <|
    (default.leafPaths.filter fun path => !scan.isReferenced default.nameSpace path).map fun path =>
      { kind := .extraKey
        nameSpace := default.nameSpace
        language := default.language
        path
        message := "not referenced in source" }

def untranslatedFinding (c : Catalog) (marking path value : String) : Finding :=
  { kind := .untranslated
    nameSpace := c.nameSpace
    language := c.language
    path
    message := s!"value still carries marker \x60{marking}\x60"
    value := some value }

/-- Values of a catalog that still carry the marker. -/
def untranslated (c : Catalog) (defaultLanguage : String) (marker : Marker) : Report :=
  let marking := String.ofList (trimEnd (marker.render defaultLanguage c.language).toList)
  Report.ofList <|
    c.leaves.filterMap fun (path, value) =>
      match value with
      | .string text =>
        if marker.marks text defaultLanguage c.language then
          some (untranslatedFinding c marking path text)
        else none
      | _ => none

end Difference

end LocaleAudit
