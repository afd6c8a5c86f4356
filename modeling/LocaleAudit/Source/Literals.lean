import LocaleAudit.Source.Grammar
import LocaleAudit.Text.Lines

namespace LocaleAudit

/-!
# Hard-coded text

Quoted texts with letters beyond ASCII, on lines that are neither comments nor already translated,
are likely to be shown to users. The search is line by line and only advises.
-/

structure LiteralHit where
  file : String
  /-- Lines count from 1. -/
  line : Nat
  text : String
  deriving DecidableEq, Repr

namespace Literals

def minLength : Nat := 3

def isNumberChar (c : Char) : Bool :=
  isAsciiDigit c || isBlank c || c == '.' || c == ',' || c == '-' || c == '+'

/-- Long enough, not only a number, and with a letter beyond ASCII. -/
def isCandidate (text : List Char) : Bool :=
  let text := trim text
  minLength ≤ text.length && !text.all isNumberChar &&
    text.any fun c => isLetter c && 128 ≤ c.toNat

def isComment (line : List Char) : Bool :=
  let code := trimStart line
  startsWith ['/', '/'] code || startsWith ['*'] code || startsWith ['/', '*'] code

def callStart : Recogniser (List Char) :=
  Grammar.behindBoundary isIdentifierChar fun s =>
    (stripStart? ['t', '('] ((stripStart? ['$'] s).getD s)).map fun rest => ([], rest)

/-- A name at the start of a word, blanks and an equals sign. -/
def assignment (name : List Char) : Recogniser (List Char) := fun before s =>
  if startsWord before then
    (Grammar.takeAssigned? name s).map fun rest => ([], s.length - rest.length)
  else none

def isTranslated (line : List Char) : Bool :=
  occurs callStart line || occurs (assignment Grammar.attributeName) line

def isStyling (line : List Char) : Bool :=
  occurs (assignment "className".toList) line || occurs (assignment "class".toList) line

def isIgnoredLine (line : List Char) : Bool :=
  isComment line || isTranslated line || isStyling line

/-- A text in quotes on one line, which may be empty. -/
def quoted : Recogniser (List Char) := fun _ s =>
  match s with
  | [] => none
  | quote :: cs =>
    if Grammar.isQuote quote then
      match cs.dropWhile (fun c => c != quote && c != '\n') with
      | c :: rest =>
        if c = quote then
          some (cs.takeWhile (fun c => c != quote && c != '\n'), s.length - rest.length)
        else none
      | [] => none
    else none

def inLine (line : List Char) : List String :=
  if isIgnoredLine line then []
  else ((scan quoted line).filter isCandidate).map fun text => String.ofList (trim text)

/-- The suspicious texts with their lines, where the first line has the given number. -/
def inLines : Nat → List (List Char) → List (Nat × String)
  | _, [] => []
  | n, line :: rest => (inLine line).map (n, ·) ++ inLines (n + 1) rest

def find (text : String) : List (Nat × String) :=
  inLines 1 (lines text.toList)

end Literals

end LocaleAudit
