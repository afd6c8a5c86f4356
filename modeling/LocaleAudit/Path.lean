import LocaleAudit.Text.Search

namespace LocaleAudit

/-!
# Paths

A path is text with `/` between its components. Empty components and dots inside a path do not
count.
-/

namespace Path

inductive Component where
  | root
  | here
  | up
  | name (s : String)
  deriving DecidableEq, Repr

def pieces (p : String) : List String :=
  (splitOnChar '/' p.toList).map String.ofList

def isAbsolute (p : String) : Bool :=
  p.toList.head? == some '/'

/-- A path seen from a directory; an absolute path stays as it is. -/
def join (base p : String) : String :=
  if isAbsolute p || base.isEmpty then p
  else if base.toList.getLast? == some '/' then base ++ p
  else base ++ "/" ++ p

def innerComponent? (piece : String) : Option Component :=
  if piece = "" ∨ piece = "." then none
  else if piece = ".." then some .up
  else some (.name piece)

/-- The component of the first piece, with more pieces behind it or not. -/
def firstComponent? (piece : String) (isAlone : Bool) : Option Component :=
  if piece = "" then if isAlone then none else some .root
  else if piece = "." then some .here
  else innerComponent? piece

/-- The pieces of a path with the components they stand for. -/
def markedPieces (p : String) : List (String × Option Component) :=
  match pieces p with
  | [] => []
  | first :: rest =>
    (first, firstComponent? first rest.isEmpty) ::
      rest.map fun piece => (piece, innerComponent? piece)

def components (p : String) : List Component :=
  (markedPieces p).filterMap Prod.snd

def Component.text : Component → String
  | .root => ""
  | .here => "."
  | .up => ".."
  | .name s => s

def isSilent (piece : String) : Bool :=
  piece.isEmpty || piece == "."

/-- Drops pieces at the end that name nothing; the first piece stays. -/
def dropSilentEnd : List String → List String
  | [] => []
  | first :: rest => first :: (rest.reverse.dropWhile isSilent).reverse

/-- The directory that holds what a path names. The root and the empty path have none. -/
def parent? (p : String) : Option String :=
  match (components p).getLast? with
  | none => none
  | some .root => none
  | some _ =>
    match dropSilentEnd (dropSilentEnd (pieces p)).dropLast with
    | [""] => some "/"
    | pieces => some ("/".intercalate pieces)

def fileName? (p : String) : Option String :=
  match (components p).getLast? with
  | some (.name s) => some s
  | _ => none

/-- The pieces behind the first `n` components. -/
def dropComponents : Nat → List (String × Option Component) → List String
  | _, [] => []
  | 0, marked => marked.map Prod.fst
  | n + 1, (_, some _) :: rest => dropComponents n rest
  | n + 1, (_, none) :: rest => dropComponents (n + 1) rest

/-- The rest of a path below a directory. -/
def stripBase? (base p : String) : Option String :=
  if (components base).isPrefixOf (components p) then
    let rest := (dropComponents (components base).length (markedPieces p)).dropWhile isSilent
    some ("/".intercalate (rest.reverse.dropWhile isSilent).reverse)
  else none

/-- A file name without its extension, and the extension behind the last dot. A dot in front does
not begin an extension. -/
def splitExtension (name : String) : String × Option String :=
  match (splitOnChar '.' name.toList).reverse with
  | extension :: stem :: rest =>
    let stem := (List.intercalate ['.'] (stem :: rest).reverse)
    if stem.isEmpty then (name, none) else (String.ofList stem, some (String.ofList extension))
  | _ => (name, none)

/-- Sources of tests, by name or by the directory they lie in. -/
def isTestFile (p : String) : Bool :=
  let name := ((fileName? p).getD "").toList
  containsText ".test.".toList name || containsText ".spec.".toList name ||
    (components p).any fun c => c == .name "__tests__" || c == .name "__mocks__"

end Path

end LocaleAudit
