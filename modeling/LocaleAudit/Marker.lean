import LocaleAudit.Error
import LocaleAudit.Text.Search
import LocaleAudit.Text.UpperCase

namespace LocaleAudit

/-!
# Markers

A marker is put in front of a value that still has to be translated. Its template may name the
language the value comes from and the one it is for; both are written in upper case.
-/

structure Marker where
  template : String
  deriving DecidableEq, Repr

namespace Marker

def sourcePlace : List Char := ['{', 's', 'o', 'u', 'r', 'c', 'e', '}']

def targetPlace : List Char := ['{', 't', 'a', 'r', 'g', 'e', 't', '}']

def default : Marker := ⟨"[\x7bsource\x7d] "⟩

def render (m : Marker) (source target : String) : String :=
  String.ofList <|
    replaceAll targetPlace (upperCase target).toList <|
      replaceAll sourcePlace (upperCase source).toList m.template.toList

/-- Text in brackets: it starts with `[` and the first `]` is not the next character. -/
def isBracketed (s : List Char) : Bool :=
  s.head? == some '[' && (firstIndex? ']' s).any (1 < ·)

/-- A marker from a template that renders to text in brackets. -/
def ofTemplate (template : String) : Except Error Marker :=
  let m : Marker := ⟨template⟩
  if isBracketed (m.render "en" "fr").toList then .ok m else .error (.marker template)

def apply (m : Marker) (value source target : String) : String :=
  m.render source target ++ value

def marks (m : Marker) (value source target : String) : Bool :=
  startsWith (m.render source target).toList value.toList

end Marker

end LocaleAudit
