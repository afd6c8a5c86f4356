import LocaleAudit.Error
import LocaleAudit.Text.Blank
import LocaleAudit.Text.Letters
import LocaleAudit.Text.Search

namespace LocaleAudit

/-!
# Language tags

A tag is a language, then at most one script, at most one region and any number of variants, in
this order, set off by `-` or `_`.
-/

namespace LanguageTag

def isAsciiAlphanumeric (c : Char) : Bool :=
  isAsciiLetter c || isAsciiDigit c

def subtags (tag : List Char) : List (List Char) :=
  splitOnChar '-' (tag.map fun c => if c = '_' then '-' else c)

def isLanguage (s : List Char) : Bool :=
  s.all isAsciiLetter && 2 ≤ s.length && s.length ≤ 8 && s.length != 4

def isScript (s : List Char) : Bool :=
  s.length == 4 && s.all isAsciiLetter

def isRegion (s : List Char) : Bool :=
  (s.length == 2 && s.all isAsciiLetter) || (s.length == 3 && s.all isAsciiDigit)

/-- Five to eight letters and digits, or four characters of which the first is a digit or the last
three are letters and digits. -/
def isVariant (s : List Char) : Bool :=
  (5 ≤ s.length && s.length ≤ 8 && s.all isAsciiAlphanumeric) ||
  (s.length == 4 && s.all (fun c => 0 < c.toNat && c.toNat < 128) &&
    (s.head?.any isAsciiDigit || s.tail.all isAsciiAlphanumeric))

def dropOne (p : List Char → Bool) : List (List Char) → List (List Char)
  | [] => []
  | s :: rest => if p s then rest else s :: rest

def isValid (tag : List Char) : Bool :=
  match subtags tag with
  | [] => false
  | language :: rest =>
    isLanguage language && (dropOne isRegion (dropOne isScript rest)).all isVariant

/-- Why a text is no language code. -/
def check (code : String) : Except Error Unit :=
  if (trim code.toList).isEmpty then .error (.config .emptyLanguage)
  else if isValid code.toList then .ok ()
  else .error (.config (.invalidLanguage code))

end LanguageTag

end LocaleAudit
