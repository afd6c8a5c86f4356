import LocaleAudit.Source.Grammar
import LocaleAudit.Reference
import LocaleAudit.Text.Lines

namespace LocaleAudit

/-!
# Extracting key references

An extractor applies several matchers to the whole text of a file and unites what they find. Keys
with a `${` in them are built when the program runs and are left out.
-/

/-- A grammar of source text, given by what it finds. -/
structure Matcher where
  name : String
  /-- The raw keys in a text, in order, with repetitions. -/
  findKeys : String → List String

instance : Repr Matcher where
  reprPrec m _ := m.name

namespace Matcher

def isComputed (key : List Char) : Bool :=
  containsText ['$', '{'] key

def ofRecogniser (name : String) (recognise : Recogniser (List Char)) : Matcher where
  name := name
  findKeys text := ((scan recognise text.toList).filter (!isComputed ·)).map String.ofList

def call : Matcher :=
  ofRecogniser "call" Grammar.call

def keyAttribute : Matcher :=
  ofRecogniser "attribute" Grammar.keyAttribute

def helper (names : List String) : Matcher :=
  ofRecogniser "helper" (Grammar.helper (names.map String.toList))

/-- The names of helper functions without blanks around them; names that are only blank do not
count, but one must remain. -/
def ofHelpers (names : List String) : Except Error Matcher :=
  match (names.map fun n => String.ofList (trim n.toList)).filter (!·.isEmpty) with
  | [] => .error (.config .noHelperNames)
  | name :: names => .ok (.helper (name :: names))

end Matcher

structure Extractor where
  matchers : List Matcher
  deriving Repr

namespace Extractor

def standard : Extractor :=
  ⟨[.call, .keyAttribute]⟩

def push (e : Extractor) (m : Matcher) : Extractor :=
  ⟨e.matchers ++ [m]⟩

/-- The standard matchers, and one for helpers when a name is not blank. -/
def ofHelpers (helpers : List String) : Except Error Extractor :=
  if helpers.any (fun h => !(trim h.toList).isEmpty) then
    (Matcher.ofHelpers helpers).map standard.push
  else .ok standard

def rawKeys (e : Extractor) (text : String) : List String :=
  e.matchers.flatMap (·.findKeys text)

/-- The different references in a text, in order. -/
def extract (e : Extractor) (text : String) : List KeyRef :=
  sortedSet KeyRef.le ((e.rawKeys text).filterMap KeyRef.parse?)

def matchCount (e : Extractor) (text : String) : Nat :=
  (e.rawKeys text).length

/-- Whether keys are used on more than a third of the lines. -/
def isFullyInstrumented (e : Extractor) (text : String) : Bool :=
  let count := (lines text.toList).length
  0 < count && count < e.matchCount text * 3

end Extractor

end LocaleAudit
