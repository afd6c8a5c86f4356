import LocaleAudit.Text.Search

namespace LocaleAudit

/-!
# Lines

A line ends at a line feed, and a carriage return in front of the line feed belongs to the end.
Text behind the last line feed is a line only if there is any.
-/

def dropReturn (line : List Char) : List Char :=
  if line.getLast? = some '\r' then line.dropLast else line

def linesOfPieces : List (List Char) → List (List Char)
  | [] => []
  | [last] => if last.isEmpty then [] else [last]
  | line :: rest => dropReturn line :: linesOfPieces rest

def lines (s : List Char) : List (List Char) :=
  linesOfPieces (splitOnChar '\n' s)

@[simp] theorem lines_nil : lines [] = [] := rfl

end LocaleAudit
