import LocaleAudit.Entries
import LocaleAudit.Error
import LocaleAudit.Path
import LocaleAudit.Text.Decoding

namespace LocaleAudit

/-!
# Files

The files a run works on, as a tree of named entries. Operations take absolute paths; `..` leads to
the directory above, and every directory on the way must exist.

Permission faults, full disks and symbolic links are left out: an operation fails only when the tree
does not have what it needs.
-/

inductive Node where
  | file (content : ByteArray)
  | directory (entries : List (String × Node))
  deriving Inhabited

abbrev Directory := Entries Node

namespace Node

def isFile : Node → Bool
  | .file _ => true
  | .directory _ => false

def isDirectory : Node → Bool
  | .file _ => false
  | .directory _ => true

end Node

namespace Directory

/-- What lies behind a sequence of names. -/
def lookup : List String → Directory → Option Node
  | [], d => some (.directory d)
  | name :: names, d =>
    match d.get? name with
    | some (.directory child) => lookup names child
    | some (.file content) => if names.isEmpty then some (.file content) else none
    | none => none

/-- Puts a node behind a sequence of names whose directories exist. -/
def insert (node : Node) : List String → Directory → Directory
  | [], d => d
  | [name], d => d.put name node
  | name :: name' :: names, d =>
    match d.get? name with
    | some (.directory child) => d.put name (.directory (insert node (name' :: names) child))
    | _ => d

def erase : List String → Directory → Directory
  | [], d => d
  | [name], d => d.remove name
  | name :: name' :: names, d =>
    match d.get? name with
    | some (.directory child) => d.put name (.directory (erase (name' :: names) child))
    | _ => d

/-- The names that lead to what pieces of a path name, seen from `here`. What the last piece names
need not exist. -/
def locateFrom (root : Directory) :
    (here : List String) → List String → Except IoFault (List String)
  | here, [] => .ok here
  | here, piece :: rest =>
    match lookup here root with
    | none => .error .notFound
    | some (.file _) => .error .notDirectory
    | some (.directory d) =>
      if piece = "" ∨ piece = "." then locateFrom root here rest
      else if piece = ".." then locateFrom root here.dropLast rest
      else if rest.isEmpty || (Entries.get? piece d).isSome then
        locateFrom root (here ++ [piece]) rest
      else .error .notFound

def locate (root : Directory) (path : String) : Except IoFault (List String) :=
  if path.toList.contains '\x00' then .error .nulInName
  else locateFrom root [] (Path.pieces path)

def find (root : Directory) (path : String) : Except IoFault Node :=
  match locate root path with
  | .error fault => .error fault
  | .ok names =>
    match lookup names root with
    | some node => .ok node
    | none => .error .notFound

def pathExists (root : Directory) (path : String) : Bool :=
  (find root path).toOption.isSome

def isFile (root : Directory) (path : String) : Bool :=
  (find root path).toOption.any Node.isFile

def isDirectory (root : Directory) (path : String) : Bool :=
  (find root path).toOption.any Node.isDirectory

def readBytes (root : Directory) (path : String) : Except IoFault ByteArray :=
  match find root path with
  | .ok (.file content) => .ok content
  | .ok (.directory _) => .error .isDirectory
  | .error fault => .error fault

/-- The text of a file by its byte order mark. -/
def readText (root : Directory) (path : String) : Except IoFault String :=
  match readBytes root path with
  | .error fault => .error fault
  | .ok bytes =>
    match decodeText bytes with
    | some text => .ok text
    | none => .error .notUtf8

/-- The text of a file that must be UTF-8. -/
def readUtf8 (root : Directory) (path : String) : Except IoFault String :=
  match readBytes root path with
  | .error fault => .error fault
  | .ok bytes =>
    match String.fromUTF8? bytes with
    | some text => .ok text
    | none => .error .notUtf8

def readDirectory (root : Directory) (path : String) : Except IoFault Directory :=
  match find root path with
  | .ok (.directory d) => .ok d
  | .ok (.file _) => .error .notDirectory
  | .error fault => .error fault

def makeDirectory (root : Directory) (path : String) : Except IoFault Directory :=
  match locate root path with
  | .error fault => .error fault
  | .ok names =>
    match lookup names root with
    | some _ => .error .alreadyExists
    | none => .ok (insert (.directory []) names root)

def ensureDirectory (root : Directory) (path : String) : Except IoFault Directory :=
  match makeDirectory root path with
  | .ok root => .ok root
  | .error fault => if isDirectory root path then .ok root else .error fault

/-- Makes the directory that the first `n` names lead to, and before it those above that are
missing. What was made before an error stays. -/
def makeAll (names : List String) : Nat → Directory → Directory × Except IoFault Unit
  | 0, root => (root, .ok ())
  | n + 1, root =>
    let path := "/" ++ "/".intercalate (names.take (n + 1))
    match ensureDirectory root path with
    | .error .notFound =>
      match makeAll names n root with
      | (root, .ok ()) => leftBy root (ensureDirectory root path)
      | failed => failed
    | result => leftBy root result

def makeDirectories (root : Directory) (path : String) : Directory × Except IoFault Unit :=
  let names := (Path.components path).filterMap fun c =>
    match c with
    | .root => none
    | c => some c.text
  makeAll names names.length root

/-- Makes the directory that holds what a path names. -/
def makeParent (root : Directory) (path : String) : Directory × Except IoFault Unit :=
  match Path.parent? path with
  | some parent => makeDirectories root parent
  | none => (root, .ok ())

/-- Writes a file whose directory exists, over the file that may be there. A path with `/` at its
end names no file. -/
def writeBytes (root : Directory) (path : String) (content : ByteArray) :
    Except IoFault Directory :=
  let place := path.toList.reverse.dropWhile (· == '/')
  match locate root (String.ofList place.reverse) with
  | .error fault => .error fault
  | .ok names =>
    match lookup names root with
    | some (.directory _) => .error .isDirectory
    | _ =>
      if place.length < path.length then .error .isDirectory
      else .ok (insert (.file content) names root)

def writeText (root : Directory) (path text : String) : Except IoFault Directory :=
  writeBytes root path text.toUTF8

mutual

/-- The files of a node with the names that lead to them, below `above`. -/
def filesAt (above : List String) : Node → List (List String × ByteArray)
  | .file content => [(above, content)]
  | .directory entries => filesBelow above entries
termination_by structural n => n

def filesBelow (above : List String) : List (String × Node) → List (List String × ByteArray)
  | [] => []
  | (name, n) :: rest => filesAt (above ++ [name]) n ++ filesBelow above rest
termination_by structural entries => entries

end

end Directory

end LocaleAudit
