import LocaleAudit.Json.Value

namespace LocaleAudit

/-!
# Writing JSON

Two layouts: compact, without blanks, and pretty, with one element or field a line and two spaces a
level. A double is written with the fewest digits that read back, positionally when its first digit
stands for a power of ten from -5 to 15.
-/

namespace Json

def hexChar (n : Nat) : Char :=
  if n < 10 then Char.ofNat (48 + n) else Char.ofNat (87 + n)

def escapeChar (c : Char) : List Char :=
  if c = '"' then ['\\', '"']
  else if c = '\\' then ['\\', '\\']
  else if c = '\x08' then ['\\', 'b']
  else if c = '\x0c' then ['\\', 'f']
  else if c = '\n' then ['\\', 'n']
  else if c = '\r' then ['\\', 'r']
  else if c = '\t' then ['\\', 't']
  else if c.toNat < 0x20 then
    ['\\', 'u', '0', '0', hexChar (c.toNat / 16), hexChar (c.toNat % 16)]
  else [c]

def writeStringBody : List Char → List Char
  | [] => ['"']
  | c :: cs => escapeChar c ++ writeStringBody cs

def writeString (s : String) : List Char :=
  '"' :: writeStringBody s.toList

def writeNat (n : Nat) : List Char :=
  Nat.toDigits 10 n

def writeInt (n : Int) : List Char :=
  if n < 0 then '-' :: writeNat n.natAbs else writeNat n.natAbs

/-- `digits · 10 ^ power` in positional notation, with at least one digit behind the point. -/
def writePositional (digits : List Char) (power : Int) : List Char :=
  if 0 ≤ power then digits ++ List.replicate power.toNat '0' ++ ['.', '0']
  else
    let places := (-power).toNat
    if places < digits.length then
      digits.take (digits.length - places) ++ '.' :: digits.drop (digits.length - places)
    else '0' :: '.' :: List.replicate (places - digits.length) '0' ++ digits

def writeScientific (digits : List Char) (exponent : Int) : List Char :=
  let mantissa :=
    match digits with
    | [] => []
    | [d] => [d]
    | d :: ds => d :: '.' :: ds
  mantissa ++ 'e' :: (if exponent < 0 then '-' else '+') :: writeNat exponent.natAbs

def writeBinary64 (x : Binary64) : List Char :=
  let body :=
    if x.isZero then ['0', '.', '0']
    else
      let (digits, power) := x.shortest
      let digits := writeNat digits
      let exponent := power + digits.length - 1
      if -5 ≤ exponent ∧ exponent < 16 then writePositional digits power
      else writeScientific digits exponent
  if x.negative then '-' :: body else body

def writeNumber : Number → List Char
  | .integer n => writeInt n
  | .binary x => writeBinary64 x

/-! ## Compact -/

mutual

def writeCompact : Value → List Char
  | .null => ['n', 'u', 'l', 'l']
  | .bool true => ['t', 'r', 'u', 'e']
  | .bool false => ['f', 'a', 'l', 's', 'e']
  | .number n => writeNumber n
  | .string s => writeString s
  | .array [] => ['[', ']']
  | .array (v :: vs) => '[' :: writeCompact v ++ writeCompactItems vs
  | .object [] => ['{', '}']
  | .object ((k, v) :: fs) =>
    '{' :: writeString k ++ ':' :: writeCompact v ++ writeCompactFields fs
termination_by structural v => v

/-- The elements that follow one, and the closing bracket. -/
def writeCompactItems : List Value → List Char
  | [] => [']']
  | v :: vs => ',' :: writeCompact v ++ writeCompactItems vs
termination_by structural v => v

def writeCompactFields : List (String × Value) → List Char
  | [] => ['}']
  | (k, v) :: fs => ',' :: writeString k ++ ':' :: writeCompact v ++ writeCompactFields fs
termination_by structural v => v

end

/-! ## Pretty -/

/-- A line feed and two spaces a level. -/
def newLine (level : Nat) : List Char :=
  '\n' :: List.replicate (2 * level) ' '

mutual

def writePretty (level : Nat) : Value → List Char
  | .null => ['n', 'u', 'l', 'l']
  | .bool true => ['t', 'r', 'u', 'e']
  | .bool false => ['f', 'a', 'l', 's', 'e']
  | .number n => writeNumber n
  | .string s => writeString s
  | .array [] => ['[', ']']
  | .array (v :: vs) =>
    '[' :: newLine (level + 1) ++ writePretty (level + 1) v ++ writePrettyItems level vs
  | .object [] => ['{', '}']
  | .object ((k, v) :: fs) =>
    '{' :: newLine (level + 1) ++ writeString k ++ ':' :: ' ' :: writePretty (level + 1) v ++
      writePrettyFields level fs
termination_by structural v => v

/-- The elements that follow one in a list at `level`, and the closing bracket. -/
def writePrettyItems (level : Nat) : List Value → List Char
  | [] => newLine level ++ [']']
  | v :: vs =>
    ',' :: newLine (level + 1) ++ writePretty (level + 1) v ++ writePrettyItems level vs
termination_by structural v => v

def writePrettyFields (level : Nat) : List (String × Value) → List Char
  | [] => newLine level ++ ['}']
  | (k, v) :: fs =>
    ',' :: newLine (level + 1) ++ writeString k ++ ':' :: ' ' :: writePretty (level + 1) v ++
      writePrettyFields level fs
termination_by structural v => v

end

def compact (v : Value) : String :=
  String.ofList (writeCompact v)

def pretty (v : Value) : String :=
  String.ofList (writePretty 0 v)

end Json

end LocaleAudit
