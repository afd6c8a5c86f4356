import LocaleAudit.KeyPath
import LocaleAudit.LanguageTag
import LocaleAudit.Marker
import LocaleAudit.Reference
import LocaleAudit.Toml

namespace LocaleAudit

/-!
# Configuration

What a run works on and how it judges. A configuration file overrides the defaults; a configuration
is used only when it passes `check`.
-/

structure Config where
  sourceDir : String := "src"
  catalogDir : String := "locales"
  defaultLanguage : String := "en"
  /-- The languages to check; when there are none, every language with a directory. -/
  languages : List String := []
  /-- The namespace of references that name none. -/
  defaultNamespace : String := "common"
  extension : String := "json"
  marker : String := Marker.default.template
  /-- Patterns of source files, relative to the source directory. -/
  includes : List String := ["**/*.\x7bjs,jsx,ts,tsx,vue,svelte,html\x7d"]
  /-- Names of directories that hold no sources. -/
  excludeDirs : List String :=
    ["node_modules", "dist", "build", ".next", "out", "coverage", "target", ".git"]
  /-- Functions whose first argument is a key. -/
  helpers : List String := ["translate", "getTranslation"]
  maxItems : Nat := 20
  checkReferences : Bool := true
  reportUnused : Bool := false
  overwriteConflicts : Bool := false
  deriving DecidableEq, Repr

namespace Config

/-- Sets the field that an assignment names to a value of its type. -/
def assign (c : Config) : String × Toml.Value → Option Config
  | ("source_dir", .text s) => some { c with sourceDir := s }
  | ("catalog_dir", .text s) => some { c with catalogDir := s }
  | ("default_language", .text s) => some { c with defaultLanguage := s }
  | ("languages", .texts ss) => some { c with languages := ss }
  | ("default_namespace", .text s) => some { c with defaultNamespace := s }
  | ("extension", .text s) => some { c with extension := s }
  | ("marker", .text s) => some { c with marker := s }
  | ("include", .texts ss) => some { c with includes := ss }
  | ("exclude_dirs", .texts ss) => some { c with excludeDirs := ss }
  | ("helpers", .texts ss) => some { c with helpers := ss }
  | ("max_items_per_group", .integer n) =>
    if 0 ≤ n then some { c with maxItems := n.toNat } else none
  | ("check_references", .switch b) => some { c with checkReferences := b }
  | ("report_unused", .switch b) => some { c with reportUnused := b }
  | ("overwrite_conflicts", .switch b) => some { c with overwriteConflicts := b }
  | _ => none

def dropDots (s : List Char) : List Char :=
  s.dropWhile (· == '.')

/-- The first fault of a configuration, if it has one. -/
def check (c : Config) : Except Error Unit := do
  LanguageTag.check c.defaultLanguage
  c.languages.forM LanguageTag.check
  if !c.languages.isEmpty && !c.languages.contains c.defaultLanguage then
    throw (.config (.defaultNotListed c.defaultLanguage))
  if !isNamespaceName c.defaultNamespace.toList then
    throw (.config (.invalidDefaultNamespace c.defaultNamespace))
  if (dropDots c.extension.toList).isEmpty then throw (.config .emptyExtension)
  if c.maxItems == 0 then throw (.config .zeroMaxItems)
  let _ ← Marker.ofTemplate c.marker
  return ()

/-- The configuration of a document, where what it does not assign has its default. -/
def ofText (text : String) : Except Error Config :=
  match (Toml.read? text).bind (·.foldlM assign {}) with
  | none => .error (.config .unreadable)
  | some c =>
    match c.check with
    | .ok () => .ok c
    | .error e => .error e

def policy (c : Config) : ConflictPolicy :=
  if c.overwriteConflicts then .overwrite else .fail

end Config

end LocaleAudit
