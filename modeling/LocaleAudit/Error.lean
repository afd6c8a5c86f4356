import LocaleAudit.Json.Reader
import LocaleAudit.Text.Delimited

namespace LocaleAudit

/-!
# Errors

Causes for which an operation has no result, and their wording. Problems found inside catalogs are
findings, not errors.
-/

inductive IoFault where
  | notFound
  | notDirectory
  | isDirectory
  | alreadyExists
  | notUtf8
  | nulInName
  | noSourceDirectory (path : String)
  deriving DecidableEq, Repr

def IoFault.message : IoFault → String
  | .notFound => "No such file or directory (os error 2)"
  | .notDirectory => "Not a directory (os error 20)"
  | .isDirectory => "Is a directory (os error 21)"
  | .alreadyExists => "File exists (os error 17)"
  | .notUtf8 => "stream did not contain valid UTF-8"
  | .nulInName => "file name contained an unexpected NUL byte"
  | .noSourceDirectory path => s!"source directory not found: {path}"

inductive ConfigFault where
  | unreadable
  | emptyLanguage
  | invalidLanguage (code : String)
  | defaultNotListed (language : String)
  | invalidDefaultNamespace (name : String)
  | emptyExtension
  | zeroMaxItems
  | noHelperNames
  | cannotListLanguages (directory : String) (fault : IoFault)
  | cannotListNamespaces (language directory : String) (fault : IoFault)
  deriving DecidableEq, Repr

def IoFault.display (fault : IoFault) : String :=
  s!"I/O error: {fault.message}"

def ConfigFault.message : ConfigFault → String
  | .unreadable => "toml parse error"
  | .emptyLanguage => "language code cannot be empty"
  | .invalidLanguage code =>
    s!"invalid language code \x60{code}\x60: expected a BCP 47 language identifier"
  | .defaultNotListed language =>
    s!"default language \x60{language}\x60 is not listed in \x60languages\x60"
  | .invalidDefaultNamespace name => s!"invalid default namespace \x60{name}\x60"
  | .emptyExtension => "catalog extension cannot be empty"
  | .zeroMaxItems => "max_items_per_group must be at least 1"
  | .noHelperNames => "helper matcher needs at least one name"
  | .cannotListLanguages directory fault =>
    s!"cannot list languages in {directory}: {fault.display}"
  | .cannotListNamespaces language directory fault =>
    s!"cannot list namespaces for default language \x60{language}\x60 in {directory}: " ++
      fault.display

inductive CatalogFault where
  | notObject (kind : String)
  | badKey (path : String)
  deriving DecidableEq, Repr

def CatalogFault.message : CatalogFault → String
  | .notObject kind => s!"top-level value must be an object, found {kind}"
  | .badKey path => s!"key \x60{path}\x60 cannot be addressed by a dotted path"

inductive Error where
  | io (fault : IoFault)
  | parse (fault : Json.Fault)
  | config (fault : ConfigFault)
  | invalidPath (path : String)
  | pathConflict (path blocked : String)
  | invalidCatalog (fault : CatalogFault)
  | pattern
  | table (fault : Delimited.WidthFault)
  | marker (template : String)
  deriving DecidableEq, Repr

def Error.message : Error → String
  | .io fault => fault.display
  | .parse fault => s!"parse error: {fault.message}"
  | .config fault => s!"configuration error: {fault.message}"
  | .invalidPath path => s!"invalid key path \x60{path}\x60"
  | .pathConflict path blocked =>
    s!"path conflict at \x60{blocked}\x60 while setting \x60{path}\x60"
  | .invalidCatalog fault => s!"invalid catalog: {fault.message}"
  | .pattern => "invalid pattern"
  | .table fault => s!"CSV error: {fault.message}"
  | .marker template =>
    s!"validation error: marker \x60{template}\x60 must render to a bracketed tag such as " ++
      "\x60[EN] \x60"

/-- What is left of a thing that an operation was to replace, with the error if there is one. -/
def leftBy {α ε : Type} (before : α) : Except ε α → α × Except ε Unit
  | .ok after => (after, .ok ())
  | .error e => (before, .error e)

end LocaleAudit
