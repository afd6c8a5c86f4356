import LocaleAudit.Catalog
import LocaleAudit.Config
import LocaleAudit.Files

namespace LocaleAudit

/-!
# Catalog stores

The document of a language and a namespace lies in the language's directory and is named for the
namespace. Listing takes the names apart the way they are put together.
-/

structure Store where
  root : String
  extension : String
  deriving DecidableEq, Repr

namespace Store

/-- A store whose extension is given with or without dots in front. -/
def new (root extension : String) : Store :=
  ⟨root, String.ofList (Config.dropDots extension.toList)⟩

def fileName (s : Store) (nameSpace : String) : String :=
  nameSpace ++ "." ++ s.extension

def pathFor (s : Store) (language nameSpace : String) : String :=
  Path.join (Path.join s.root language) (s.fileName nameSpace)

/-- The path of a document below the root of the store. -/
def displayPath (s : Store) (language nameSpace : String) : String :=
  language ++ "/" ++ s.fileName nameSpace

def load (s : Store) (files : Directory) (language nameSpace : String) : Except Error Catalog :=
  match files.readText (s.pathFor language nameSpace) with
  | .ok text => Catalog.parse language nameSpace text
  | .error fault => .error (.io fault)

/-- A missing document stands for an empty catalog. -/
def loadOrEmpty (s : Store) (files : Directory) (language nameSpace : String) :
    Except Error Catalog :=
  match s.load files language nameSpace with
  | .error (.io .notFound) => .ok (Catalog.empty language nameSpace)
  | other => other

/-- Writes a catalog's document, and its directory when it is missing. The directory stays when the
document cannot be written. -/
def save (s : Store) (files : Directory) (c : Catalog) : Directory × Except Error Unit :=
  let path := s.pathFor c.language c.nameSpace
  match files.makeParent path with
  | (files, .error fault) => (files, .error (.io fault))
  | (files, .ok ()) =>
    leftBy files ((files.writeText path (Catalog.render c.tree)).mapError .io)

/-- The namespace of an entry of a language's directory. -/
def namespaceOf? (s : Store) : String × Node → Option String
  | (name, .file _) =>
    match Path.splitExtension name with
    | (stem, some extension) => if extension = s.extension then some stem else none
    | (_, none) => none
  | (_, .directory _) => none

def languageOf? : String × Node → Option String
  | (name, .directory _) => if name.startsWith "." then none else some name
  | (_, .file _) => none

def sorted (names : List String) : List String :=
  names.mergeSort (· ≤ ·)

def listNamespaces (s : Store) (files : Directory) (language : String) :
    Except IoFault (List String) :=
  (files.readDirectory (Path.join s.root language)).map fun entries =>
    sorted (entries.filterMap s.namespaceOf?)

/-- The directories of languages, in order; those with a dot in front do not count. -/
def listLanguages (s : Store) (files : Directory) : Except IoFault (List String) :=
  (files.readDirectory s.root).map fun entries => sorted (entries.filterMap languageOf?)

end Store

end LocaleAudit
