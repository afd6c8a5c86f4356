import LocaleAudit.Text.Blank
import LocaleAudit.Text.Consumed
import LocaleAudit.Text.Scan
import LocaleAudit.Text.Search
import LocaleAudit.Text.WordChars

namespace LocaleAudit

/-!
# Interpolation variables

A variable stands in double braces, with optional blanks, a minus sign in front and a format
behind a comma: `{{name}}`, `{{- user.name }}`, `{{count, number}}`.
-/

namespace Interpolation

def isNameStart (c : Char) : Bool :=
  isAsciiLetter c || c == '_' || c == '$'

/-- Further parts of a dotted name, and the text behind them. -/
def takeParts (s : List Char) : List Char × List Char :=
  match s with
  | '.' :: c :: cs =>
    if isIdentifierChar c then
      let part := c :: cs.takeWhile isIdentifierChar
      let (parts, rest) := takeParts (cs.dropWhile isIdentifierChar)
      ('.' :: part ++ parts, rest)
    else ([], s)
  | _ => ([], s)
  termination_by s.length
  decreasing_by
    have := length_dropWhile_le isIdentifierChar cs
    simp only [List.length_cons]
    omega

/-- A name such as `user.name` at the front, and the text behind it. -/
def takeName? : List Char → Option (List Char × List Char)
  | [] => none
  | c :: cs =>
    if isNameStart c then
      let (parts, rest) := takeParts (cs.dropWhile isIdentifierChar)
      some (c :: cs.takeWhile isIdentifierChar ++ parts, rest)
    else none

def dropMinus : List Char → List Char
  | '-' :: s => s
  | s => s

/-- A format behind a comma reaches to the next closing brace. -/
def dropFormat : List Char → List Char
  | ',' :: s => s.dropWhile (· != '}')
  | s => s

/-- A placeholder at the front: its name and the number of its characters. -/
def recognise : Recogniser (List Char) := fun _ s => do
  let inside ← stripStart? ['{', '{'] s
  let (name, rest) ← takeName? (trimStart (dropMinus (trimStart inside)))
  let rest ← stripStart? ['}', '}'] (dropFormat (trimStart rest))
  return (name, s.length - rest.length)

/-- The different names in a text, in the order of their first placeholder. -/
def variableNames (text : String) : List String :=
  ((scan recognise text.toList).map String.ofList).eraseDups

end Interpolation

end LocaleAudit
