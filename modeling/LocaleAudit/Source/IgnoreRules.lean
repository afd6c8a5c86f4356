import LocaleAudit.Source.Glob
import LocaleAudit.Text.Blank

namespace LocaleAudit

/-!
# Ignore files

One rule a line: a pattern of what to leave out, or behind `!` of what to keep. A pattern with a
slash is tied to the directory of the file, one with a slash at the end matches directories only.
The last rule that matches decides.
-/

structure IgnoreRule where
  keeps : Bool
  directoriesOnly : Bool
  pattern : Glob
  deriving DecidableEq, Repr

namespace IgnoreRule

def endsWith (suffix s : List Char) : Bool :=
  startsWith suffix.reverse s.reverse

def dropEnd (n : Nat) (s : List Char) : List Char :=
  s.take (s.length - n)

/-- A line without blanks at its end; a blank behind a backslash holds them. -/
def trimLine (line : List Char) : List Char :=
  if endsWith ['\\', ' '] line then line else trimEnd line

/-- A line in parts: whether it keeps, whether it is tied to its directory, and the rest. -/
def readMarks (line : List Char) : Bool × Bool × List Char :=
  match line with
  | '\\' :: '!' :: s => (false, false, '!' :: s)
  | '\\' :: '#' :: s => (false, false, '#' :: s)
  | line =>
    let (keeps, line) :=
      match line with
      | '!' :: s => (true, s)
      | s => (false, s)
    match line with
    | '/' :: s => (keeps, true, s)
    | s => (keeps, false, s)

/-- Whether a line is for directories only, and the line without the slash that says so. -/
def readDirectoryMark (s : List Char) : Bool × List Char :=
  if endsWith ['\\', '/'] s then (true, dropEnd 2 s)
  else if endsWith ['/'] s then (true, dropEnd 1 s)
  else (false, s)

/-- The pattern of a line. A pattern without a slash matches at every depth, and one for all inside
a directory does not match the directory. -/
def patternText (tied : Bool) (s : List Char) : List Char :=
  let free := !tied && !s.contains '/' && s != ['*', '*']
  let s := if free then '*' :: '*' :: '/' :: s else s
  if endsWith ['/', '*', '*'] s then s ++ ['/', '*'] else s

/-- The rule of a line. Comments, empty lines and lines that are no patterns have none. -/
def ofLine? (line : List Char) : Option IgnoreRule :=
  if startsWith ['#'] line then none
  else
    let line := trimLine line
    if line.isEmpty then none
    else
      let (keeps, tied, rest) := readMarks line
      let (directoriesOnly, rest) := readDirectoryMark rest
      (Glob.parse? .lenient (String.ofList (patternText tied rest))).map fun pattern =>
        ⟨keeps, directoriesOnly, pattern⟩

def withoutReturn (line : List UInt8) : List UInt8 :=
  if line.getLast? = some 13 then line.dropLast else line

/-- The lines of a file up to the first that is not UTF-8. -/
def readLines (content : ByteArray) : List String :=
  let lines := (content.data.toList.splitOn 10).map fun line =>
    String.fromUTF8? (withoutReturn line).toByteArray
  (lines.takeWhile Option.isSome).filterMap id

def byteOrderMark : Char := Char.ofNat 0xFEFF

/-- The rules of a file; byte order marks in front do not count. -/
def parse (content : ByteArray) : List IgnoreRule :=
  match (readLines content).map String.toList with
  | [] => []
  | first :: rest => (first.dropWhile (· == byteOrderMark) :: rest).filterMap ofLine?

def applies (r : IgnoreRule) (path : String) (isDirectory : Bool) : Bool :=
  (isDirectory || !r.directoriesOnly) && r.pattern.isMatch path

/-- What the rules of one file say of a path below the file's directory: to keep it, to leave it
out, or nothing. -/
def verdict (rules : List IgnoreRule) (path : String) (isDirectory : Bool) : Option Bool :=
  (rules.reverse.find? (·.applies path isDirectory)).map (·.keeps)

end IgnoreRule

end LocaleAudit
