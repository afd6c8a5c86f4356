import LocaleAudit.Text.Blank
import LocaleAudit.Text.Scan
import LocaleAudit.Text.Search
import LocaleAudit.Text.WordChars

namespace LocaleAudit

/-!
# How source text uses keys

Three forms: a call such as `t('key')` or `$t("key")`, an attribute such as
`i18nKey="key"`, and a call of a helper function by name. A key stands in quotes on one line.
-/

namespace Grammar

def isQuote (c : Char) : Bool :=
  c == '\'' || c == '"' || c == '\x60'

/-- A non-empty text in quotes on one line, and the text behind it. -/
def takeQuoted? (allowed : Char → Bool) : List Char → Option (List Char × List Char)
  | [] => none
  | quote :: s =>
    if allowed quote then
      match s.dropWhile (fun c => c != quote && c != '\n') with
      | c :: rest =>
        let body := s.takeWhile (fun c => c != quote && c != '\n')
        if c = quote ∧ body ≠ [] then some (body, rest) else none
      | [] => none
    else none

/-- An opening parenthesis and a text in quotes. -/
def takeArgument? (s : List Char) : Option (List Char × List Char) := do
  let rest ← stripStart? ['('] s
  takeQuoted? isQuote (trimStart rest)

/-- What `inside` finds at the beginning of the text, or behind one character of those that may
stand in front. -/
def behindBoundary (isInner : Char → Bool) (inside : List Char → Option (List Char × List Char)) :
    Recogniser (List Char) := fun before s =>
  let found :=
    match if before.isNone then inside s else none with
    | some found => some found
    | none =>
      match s with
      | [] => none
      | c :: cs => if isInner c then none else inside cs
  found.map fun (key, rest) => (key, s.length - rest.length)

/-- `t(` or `$t(` and a text in quotes. -/
def takeCall? (s : List Char) : Option (List Char × List Char) := do
  let rest ← stripStart? ['t'] ((stripStart? ['$'] s).getD s)
  takeArgument? rest

def call : Recogniser (List Char) :=
  behindBoundary isIdentifierChar takeCall?

/-- The first of the names at the front that an argument follows. -/
def takeHelper? (names : List (List Char)) (s : List Char) : Option (List Char × List Char) :=
  names.findSome? fun name => (stripStart? name s).bind takeArgument?

def helper (names : List (List Char)) : Recogniser (List Char) :=
  behindBoundary (fun c => isIdentifierChar c || c == '.') (takeHelper? names)

def attributeName : List Char := ['i', '1', '8', 'n', 'K', 'e', 'y']

/-- A name, blanks and an equals sign. -/
def takeAssigned? (name s : List Char) : Option (List Char) := do
  let rest ← stripStart? name s
  stripStart? ['='] (trimStart rest)

/-- A value in quotes, or in braces around quotes. -/
def takeAttributeValue? (s : List Char) : Option (List Char × List Char) :=
  match stripStart? ['{'] s with
  | none => takeQuoted? (fun c => c == '\'' || c == '"') s
  | some inside => do
    let (key, rest) ← takeQuoted? isQuote (trimStart inside)
    let rest ← stripStart? ['}'] (trimStart rest)
    return (key, rest)

def keyAttribute : Recogniser (List Char) := fun before s =>
  if startsWord before then do
    let rest ← takeAssigned? attributeName s
    let (key, rest) ← takeAttributeValue? (trimStart rest)
    return (key, s.length - rest.length)
  else none

end Grammar

end LocaleAudit
