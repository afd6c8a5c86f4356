import LocaleAudit.Text.Blank
import LocaleAudit.Text.Scan
import LocaleAudit.Text.Search
import LocaleAudit.Text.WordChars

namespace LocaleAudit

/-!
# Markup

Tags in a text must nest: every closing tag closes the innermost open one, and none stays open.
Elements without content and tags that close themselves do not count.
-/

namespace Markup

inductive Tag where
  | opening (name : String)
  | closing (name : String)
  deriving DecidableEq, Repr

inductive Fault where
  | mismatched (expected found : String)
  | unexpectedClose (name : String)
  | unclosed (name : String)
  deriving DecidableEq, Repr

def Fault.message : Fault → String
  | .mismatched expected found => s!"closing tag </{found}> does not match open <{expected}>"
  | .unexpectedClose name => s!"closing tag </{name}> has no opening tag"
  | .unclosed name => s!"tag <{name}> is never closed"

/-- Elements that have no content and so no closing tag. -/
def voidElements : List String :=
  ["br", "hr", "img", "input"]

structure WrittenTag where
  closes : Bool
  name : List Char
  closesItself : Bool
  deriving DecidableEq, Repr

def isNameStart (c : Char) : Bool :=
  isAsciiLetter c || isAsciiDigit c

def isNameChar (c : Char) : Bool :=
  isWordChar c || c == '-'

/-- The end of a tag behind its name: whether a slash stands in front of `>`, and the text behind
it. Attributes are set off by a blank and hold neither `<` nor `>`. -/
def takeEnd? : List Char → Option (Bool × List Char)
  | '>' :: rest => some (false, rest)
  | '/' :: '>' :: rest => some (true, rest)
  | c :: cs =>
    if isBlank c then
      match cs.dropWhile (fun d => d != '<' && d != '>') with
      | '>' :: rest =>
        some ((cs.takeWhile (fun d => d != '<' && d != '>')).getLast? == some '/', rest)
      | _ => none
    else none
  | [] => none

def takeSlash : List Char → Bool × List Char
  | '/' :: s => (true, s)
  | s => (false, s)

/-- A tag at the front and the number of its characters. -/
def recognise : Recogniser WrittenTag := fun _ s => do
  let inside ← stripStart? ['<'] s
  let (closes, named) := takeSlash inside
  match named with
  | c :: cs =>
    if isNameStart c then
      let (closesItself, rest) ← takeEnd? (cs.dropWhile isNameChar)
      return (⟨closes, c :: cs.takeWhile isNameChar, closesItself⟩, s.length - rest.length)
    else none
  | [] => none

/-- What a written tag means for nesting. -/
def WrittenTag.meaning (t : WrittenTag) : Option Tag :=
  let name := String.ofList t.name
  if voidElements.contains name then none
  else if t.closes then some (.closing name)
  else if t.closesItself then none
  else some (.opening name)

def tags (text : String) : List Tag :=
  (scan recognise text.toList).filterMap WrittenTag.meaning

/-- Checks tags behind the given open elements, the innermost first. -/
def checkFrom : List String → List Tag → Except Fault Unit
  | [], [] => .ok ()
  | name :: _, [] => .error (.unclosed name)
  | opened, .opening name :: rest => checkFrom (name :: opened) rest
  | [], .closing name :: _ => .error (.unexpectedClose name)
  | expected :: opened, .closing name :: rest =>
    if expected = name then checkFrom opened rest else .error (.mismatched expected name)

def check (text : String) : Except Fault Unit :=
  checkFrom [] (tags text)

end Markup

end LocaleAudit
