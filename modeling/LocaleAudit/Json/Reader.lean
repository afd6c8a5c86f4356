import LocaleAudit.Json.Value
import LocaleAudit.Text.Consumed

namespace LocaleAudit

/-!
# Reading JSON

The reader takes values from the front of a text; arrays and objects nest at most 127 deep.

A fault is placed by the number of bytes read when it shows. Reading looks one byte ahead, so the
byte that does not fit counts as read.
-/

namespace Json

inductive Cause where
  | endInValue
  | endInObject
  | endInList
  | endInString
  | expectedValue
  | expectedColon
  | expectedCommaOrBrace
  | expectedCommaOrBracket
  | expectedWord
  | keyNotString
  | trailingComma
  | trailingText
  | invalidNumber
  | numberOutOfRange
  | tooDeep
  | controlCharacter
  | invalidEscape
  | loneSurrogate
  | endOfSurrogate
  deriving DecidableEq, Repr

def Cause.message : Cause → String
  | .endInValue => "EOF while parsing a value"
  | .endInObject => "EOF while parsing an object"
  | .endInList => "EOF while parsing a list"
  | .endInString => "EOF while parsing a string"
  | .expectedValue => "expected value"
  | .expectedColon => "expected \x60:\x60"
  | .expectedCommaOrBrace => "expected \x60,\x60 or \x60\x7d\x60"
  | .expectedCommaOrBracket => "expected \x60,\x60 or \x60]\x60"
  | .expectedWord => "expected ident"
  | .keyNotString => "key must be a string"
  | .trailingComma => "trailing comma"
  | .trailingText => "trailing characters"
  | .invalidNumber => "invalid number"
  | .numberOutOfRange => "number out of range"
  | .tooDeep => "recursion limit exceeded"
  | .controlCharacter => "control character (\\u0000-\\u001F) found while parsing a string"
  | .invalidEscape => "invalid escape"
  | .loneSurrogate => "lone leading surrogate in hex escape"
  | .endOfSurrogate => "unexpected end of hex escape"

def byteCount : List Char → Nat
  | [] => 0
  | c :: s => c.utf8Size + byteCount s

/-- Why reading stopped, and the number of bytes not read by then. -/
structure Stop where
  cause : Cause
  unread : Nat

/-- The first byte of `s` has been looked at and does not fit; at the end there is none. -/
def stopAt (cause : Cause) (s : List Char) : Stop :=
  ⟨cause, byteCount s - 1⟩

abbrev Reader (α : Type) := (s : List Char) → Except Stop (Consumed α s)

def isSpace (c : Char) : Bool :=
  c == ' ' || c == '\n' || c == '\t' || c == '\r'

def skipSpace (s : List Char) : List Char :=
  s.dropWhile isSpace

theorem length_skipSpace_le (s : List Char) : (skipSpace s).length ≤ s.length :=
  length_dropWhile_le isSpace s

/-! ## Words -/

def readWord : (word s : List Char) → Except Stop { rest : List Char // rest.length ≤ s.length }
  | [], s => .ok ⟨s, Nat.le_refl _⟩
  | _ :: _, [] => .error (stopAt .endInValue [])
  | w :: word, c :: s =>
    if w = c then
      match readWord word s with
      | .ok ⟨rest, h⟩ => .ok ⟨rest, Nat.le_succ_of_le h⟩
      | .error stop => .error stop
    else .error (stopAt .expectedWord (c :: s))

/-! ## Strings -/

def hexDigit? (c : Char) : Option Nat :=
  if '0' ≤ c ∧ c ≤ '9' then some (c.toNat - 48)
  else if 'a' ≤ c ∧ c ≤ 'f' then some (c.toNat - 87)
  else if 'A' ≤ c ∧ c ≤ 'F' then some (c.toNat - 55)
  else none

def hexValue? (a b c d : Char) : Option Nat := do
  let a ← hexDigit? a
  let b ← hexDigit? b
  let c ← hexDigit? c
  let d ← hexDigit? d
  return ((a * 16 + b) * 16 + c) * 16 + d

/-- Four bytes are read after `\u`, whatever they are. -/
def stopInHex (s : List Char) : Stop :=
  if byteCount s < 4 then ⟨.endInString, 0⟩ else ⟨.invalidEscape, byteCount s - 4⟩

def simpleEscape? (c : Char) : Option Char :=
  if c = '"' ∨ c = '\\' ∨ c = '/' then some c
  else if c = 'b' then some '\x08'
  else if c = 'f' then some '\x0c'
  else if c = 'n' then some '\n'
  else if c = 'r' then some '\r'
  else if c = 't' then some '\t'
  else none

def isHighSurrogate (n : Nat) : Bool :=
  0xD800 ≤ n && n ≤ 0xDBFF

def isLowSurrogate (n : Nat) : Bool :=
  0xDC00 ≤ n && n ≤ 0xDFFF

def pairValue (high low : Nat) : Nat :=
  0x10000 + (high - 0xD800) * 0x400 + (low - 0xDC00)

def readStringBody : Reader (List Char)
  | [] => .error (stopAt .endInString [])
  | '"' :: s => .ok (.behind [] s)
  | '\\' :: [] => .error (stopAt .endInString [])
  | '\\' :: 'u' :: a :: b :: c :: d :: s =>
    match hexValue? a b c d with
    | none => .error (stopInHex (a :: b :: c :: d :: s))
    | some n =>
      if isLowSurrogate n then .error ⟨.loneSurrogate, byteCount s⟩
      else if isHighSurrogate n then
        match s with
        | [] => .error (stopAt .endInString [])
        | '\\' :: [] => .error (stopAt .endInString [])
        | '\\' :: 'u' :: e :: f :: g :: h :: s' =>
          match hexValue? e f g h with
          | none => .error (stopInHex (e :: f :: g :: h :: s'))
          | some m =>
            if isLowSurrogate m then
              match readStringBody s' with
              | .ok r => .ok ⟨Char.ofNat (pairValue n m) :: r.value, r.rest,
                  by have := r.shorter; simp only [List.length_cons]; omega⟩
              | .error stop => .error stop
            else .error ⟨.loneSurrogate, byteCount s'⟩
        | '\\' :: 'u' :: s' => .error (stopInHex s')
        | '\\' :: s' => .error (stopAt .endOfSurrogate s')
        | s => .error (stopAt .endOfSurrogate s)
      else
        match readStringBody s with
        | .ok r => .ok ⟨Char.ofNat n :: r.value, r.rest,
            by have := r.shorter; simp only [List.length_cons]; omega⟩
        | .error stop => .error stop
  | '\\' :: 'u' :: s => .error (stopInHex s)
  | '\\' :: c :: s =>
    match simpleEscape? c with
    | none => .error (stopAt .invalidEscape (c :: s))
    | some e =>
      match readStringBody s with
      | .ok r => .ok ⟨e :: r.value, r.rest,
          by have := r.shorter; simp only [List.length_cons]; omega⟩
      | .error stop => .error stop
  | c :: s =>
    if c.toNat < 0x20 then .error (stopAt .controlCharacter (c :: s))
    else
      match readStringBody s with
      | .ok r => .ok ⟨c :: r.value, r.rest,
          by have := r.shorter; simp only [List.length_cons]; omega⟩
      | .error stop => .error stop

/-! ## Numbers -/

def isDigit (c : Char) : Bool :=
  '0' ≤ c && c ≤ '9'

/-- A number as it is written: digits before the point, digits behind it, and an exponent. -/
structure Numeral where
  negative : Bool
  whole : List Char
  fraction : Option (List Char)
  exponent : Option (Bool × List Char)
  deriving Repr

def digitValue (c : Char) : Nat :=
  c.toNat - 48

/-- What an unsigned integer stays below: `2 ^ 64`. -/
def unsignedLimit : Nat := 18446744073709551616

/-- The magnitude of the least signed integer: `2 ^ 63`. -/
def signedLimit : Nat := 9223372036854775808

/-- What an exponent stays below: `2 ^ 31`. -/
def exponentLimit : Nat := 2147483648

/-- Appends digits to a significand while it stays below its limit; the digits left over begin with
the first one that does not fit. -/
def absorb : Nat → List Char → Nat × List Char
  | n, [] => (n, [])
  | n, d :: ds =>
    let m := n * 10 + digitValue d
    if m < unsignedLimit then absorb m ds else (n, d :: ds)

/-- The exponent's value, or the number of digits behind the one that takes it past 31 bits. -/
def exponentValue : Nat → List Char → Except Nat Nat
  | n, [] => .ok n
  | n, d :: ds =>
    let m := n * 10 + digitValue d
    if m < exponentLimit then exponentValue m ds else .error ds.length

def doubleOf (negative : Bool) (significand : Nat) (power : Int) : Option Binary64 := do
  let x ← Binary64.ofRatio? negative significand 1
  x.scale? power

def Numeral.value (n : Numeral) (rest : List Char) : Except Stop Number :=
  let (significand, dropped) := absorb 0 n.whole
  match n.fraction, n.exponent, dropped with
  | none, none, [] =>
    if !n.negative then .ok (.integer significand)
    else if 0 < significand ∧ significand ≤ signedLimit then .ok (.integer (-significand))
    else finish significand 0
  | fraction, exponent, dropped =>
    let digits := fraction.getD []
    let (significand, ignored) := absorb significand digits
    let start : Int := dropped.length - (digits.length - ignored.length)
    match exponent with
    | none => finish significand start
    | some (down, digits) =>
      match exponentValue 0 digits with
      | .ok e => finish significand (if down then start - e else start + e)
      | .error behind =>
        if significand ≠ 0 ∧ !down then .error ⟨.numberOutOfRange, byteCount rest + behind⟩
        else .ok (.binary (Binary64.zero n.negative))
where
  finish (significand : Nat) (power : Int) : Except Stop Number :=
    match doubleOf n.negative significand power with
    | some x => .ok (.binary x)
    | none => .error (stopAt .numberOutOfRange rest)

/-- The digits at the front; there must be one. -/
def readDigits : Reader (List Char)
  | [] => .error (stopAt .endInValue [])
  | c :: s =>
    if isDigit c then
      .ok ⟨c :: s.takeWhile isDigit, s.dropWhile isDigit,
        Nat.lt_succ_of_le (length_dropWhile_le isDigit s)⟩
    else .error (stopAt .invalidNumber (c :: s))

/-- The digits before the point: a zero stands alone. -/
def readWhole : Reader (List Char)
  | '0' :: c :: s =>
    if isDigit c then .error (stopAt .invalidNumber (c :: s))
    else .ok ⟨['0'], c :: s, by simp⟩
  | s => readDigits s

def readFraction (s : List Char) :
    Except Stop (Option (List Char) × { rest : List Char // rest.length ≤ s.length }) :=
  match s with
  | '.' :: t =>
    match readDigits t with
    | .ok r =>
      .ok (some r.value, ⟨r.rest, by have := r.shorter; simp only [List.length_cons]; omega⟩)
    | .error stop => .error stop
  | s => .ok (none, ⟨s, Nat.le_refl _⟩)

def readSign (s : List Char) : Bool × { rest : List Char // rest.length ≤ s.length } :=
  match s with
  | '+' :: t => (false, ⟨t, by simp⟩)
  | '-' :: t => (true, ⟨t, by simp⟩)
  | s => (false, ⟨s, Nat.le_refl _⟩)

def readExponent (s : List Char) :
    Except Stop (Option (Bool × List Char) × { rest : List Char // rest.length ≤ s.length }) :=
  match s with
  | c :: t =>
    if c = 'e' ∨ c = 'E' then
      match readSign t with
      | (down, ⟨u, hu⟩) =>
        match readDigits u with
        | .ok r => .ok (some (down, r.value),
            ⟨r.rest, by have := r.shorter; simp only [List.length_cons]; omega⟩)
        | .error stop => .error stop
    else .ok (none, ⟨c :: t, Nat.le_refl _⟩)
  | [] => .ok (none, ⟨[], Nat.le_refl _⟩)

def readNumber (negative : Bool) : Reader Number := fun s =>
  match readWhole s with
  | .error stop => .error stop
  | .ok whole =>
    match readFraction whole.rest with
    | .error stop => .error stop
    | .ok (fraction, ⟨t, ht⟩) =>
      match readExponent t with
      | .error stop => .error stop
      | .ok (exponent, ⟨u, hu⟩) =>
        match Numeral.value ⟨negative, whole.value, fraction, exponent⟩ u with
        | .error stop => .error stop
        | .ok n => .ok ⟨n, u, by have := whole.shorter; omega⟩

/-! ## Arrays and objects -/

/-- The elements of an array from one on, up to the closing bracket. -/
def readItems (element : Reader Value) (s : List Char) : Except Stop (Consumed (List Value) s) :=
  match element s with
  | .error stop => .error stop
  | .ok v =>
    match h : skipSpace v.rest with
    | [] => .error (stopAt .endInList [])
    | ']' :: t => .ok ⟨[v.value], t, by
        have := v.shorter
        have := length_skipSpace_le v.rest
        simp only [h, List.length_cons] at this
        omega⟩
    | ',' :: t =>
      match ht : skipSpace t with
      | [] => .error (stopAt .endInValue [])
      | ']' :: u => .error (stopAt .trailingComma (']' :: u))
      | c :: u =>
        have shorter : (c :: u).length < s.length := by
          have h₁ := v.shorter
          have h₂ := length_skipSpace_le v.rest
          have h₃ := length_skipSpace_le t
          simp only [h, ht, List.length_cons] at h₂ h₃ ⊢
          omega
        match readItems element (c :: u) with
        | .error stop => .error stop
        | .ok r => .ok ⟨v.value :: r.value, r.rest, Nat.lt_trans r.shorter shorter⟩
    | c :: t => .error (stopAt .expectedCommaOrBracket (c :: t))
  termination_by s.length

def readArray (element : Reader Value) : Reader (List Value) := fun s =>
  match h : skipSpace s with
  | [] => .error (stopAt .endInList [])
  | ']' :: t => .ok ⟨[], t, by
      have := length_skipSpace_le s
      simp only [h, List.length_cons] at this
      omega⟩
  | c :: t =>
    match readItems element (c :: t) with
    | .error stop => .error stop
    | .ok r => .ok (r.widen (by have := length_skipSpace_le s; simpa only [h] using this))

/-- One field behind the opening quote of its key. -/
def readMember (element : Reader Value) : Reader (String × Value) := fun s =>
  match readStringBody s with
  | .error stop => .error stop
  | .ok key =>
    match h : skipSpace key.rest with
    | [] => .error (stopAt .endInObject [])
    | ':' :: t =>
      match element t with
      | .error stop => .error stop
      | .ok v => .ok ⟨(String.ofList key.value, v.value), v.rest, by
          have h₁ := key.shorter
          have h₂ := v.shorter
          have h₃ := length_skipSpace_le key.rest
          simp only [h, List.length_cons] at h₃
          omega⟩
    | c :: t => .error (stopAt .expectedColon (c :: t))

/-- The fields of an object from one on, behind the opening quote of its key. -/
def readMembers (element : Reader Value) (s : List Char) :
    Except Stop (Consumed (List (String × Value)) s) :=
  match readMember element s with
  | .error stop => .error stop
  | .ok m =>
    match h : skipSpace m.rest with
    | [] => .error (stopAt .endInObject [])
    | '}' :: t => .ok ⟨[m.value], t, by
        have := m.shorter
        have := length_skipSpace_le m.rest
        simp only [h, List.length_cons] at this
        omega⟩
    | ',' :: t =>
      match ht : skipSpace t with
      | [] => .error (stopAt .endInValue [])
      | '"' :: u =>
        have shorter : u.length < s.length := by
          have h₁ := m.shorter
          have h₂ := length_skipSpace_le m.rest
          have h₃ := length_skipSpace_le t
          simp only [h, ht, List.length_cons] at h₂ h₃
          omega
        match readMembers element u with
        | .error stop => .error stop
        | .ok r => .ok ⟨m.value :: r.value, r.rest, Nat.lt_trans r.shorter shorter⟩
      | '}' :: u => .error (stopAt .trailingComma ('}' :: u))
      | c :: u => .error (stopAt .keyNotString (c :: u))
    | c :: t => .error (stopAt .expectedCommaOrBrace (c :: t))
  termination_by s.length

def readObject (element : Reader Value) : Reader Fields := fun s =>
  match h : skipSpace s with
  | [] => .error (stopAt .endInObject [])
  | '}' :: t => .ok ⟨[], t, by
      have := length_skipSpace_le s
      simp only [h, List.length_cons] at this
      omega⟩
  | '"' :: t =>
    match readMembers element t with
    | .error stop => .error stop
    | .ok r => .ok ⟨Entries.ofList r.value, r.rest, by
        have h₁ := r.shorter
        have h₂ := length_skipSpace_le s
        simp only [h, List.length_cons] at h₂
        omega⟩
  | c :: t => .error (stopAt .keyNotString (c :: t))

/-! ## Values -/

/-- A value that starts at the front, where arrays and objects are read by `nested`; without it
they are too deep. -/
def readFrom (nested : Option (Reader Value)) : Reader Value
  | [] => .error (stopAt .endInValue [])
  | 'n' :: s =>
    match readWord ['u', 'l', 'l'] s with
    | .error stop => .error stop
    | .ok ⟨rest, h⟩ => .ok ⟨.null, rest, Nat.lt_succ_of_le h⟩
  | 't' :: s =>
    match readWord ['r', 'u', 'e'] s with
    | .error stop => .error stop
    | .ok ⟨rest, h⟩ => .ok ⟨.bool true, rest, Nat.lt_succ_of_le h⟩
  | 'f' :: s =>
    match readWord ['a', 'l', 's', 'e'] s with
    | .error stop => .error stop
    | .ok ⟨rest, h⟩ => .ok ⟨.bool false, rest, Nat.lt_succ_of_le h⟩
  | '"' :: s =>
    match readStringBody s with
    | .error stop => .error stop
    | .ok r => .ok ⟨.string (String.ofList r.value), r.rest, Nat.lt_succ_of_lt r.shorter⟩
  | '-' :: s =>
    match readNumber true s with
    | .error stop => .error stop
    | .ok r => .ok ⟨.number r.value, r.rest, Nat.lt_succ_of_lt r.shorter⟩
  | '[' :: s =>
    match nested with
    | none => .error (stopAt .tooDeep ('[' :: s))
    | some element =>
      match readArray element s with
      | .error stop => .error stop
      | .ok r => .ok ⟨.array r.value, r.rest, Nat.lt_succ_of_lt r.shorter⟩
  | '{' :: s =>
    match nested with
    | none => .error (stopAt .tooDeep ('{' :: s))
    | some element =>
      match readObject element s with
      | .error stop => .error stop
      | .ok r => .ok ⟨.object r.value, r.rest, Nat.lt_succ_of_lt r.shorter⟩
  | c :: s =>
    if isDigit c then
      match readNumber false (c :: s) with
      | .error stop => .error stop
      | .ok r => .ok ⟨.number r.value, r.rest, r.shorter⟩
    else .error (stopAt .expectedValue (c :: s))

/-- A value behind blanks, with at most `depth` arrays and objects inside one another. -/
def readValue : (depth : Nat) → Reader Value
  | 0, s =>
    (readFrom none (skipSpace s)).map (·.widen (length_skipSpace_le s))
  | depth + 1, s =>
    (readFrom (some (readValue depth)) (skipSpace s)).map (·.widen (length_skipSpace_le s))

def maxDepth : Nat := 127

/-! ## Documents -/

/-- A cause and its place: lines count from 1, columns are the bytes read in the line. -/
structure Fault where
  cause : Cause
  line : Nat
  column : Nat
  deriving DecidableEq, Repr

/-- The line and column behind the given bytes. -/
def placeAfter (bytes : List UInt8) : Nat × Nat :=
  bytes.foldl (fun (place : Nat × Nat) b =>
    if b = 10 then (place.1 + 1, 0) else (place.1, place.2 + 1)) (1, 0)

def Stop.toFault (text : String) (stop : Stop) : Fault :=
  let bytes := text.toUTF8.data.toList
  let (line, column) := placeAfter (bytes.take (bytes.length - stop.unread))
  ⟨stop.cause, line, column⟩

def Fault.message (f : Fault) : String :=
  s!"{f.cause.message} at line {f.line} column {f.column}"

def readDocument (s : List Char) : Except Stop Value :=
  match readValue maxDepth s with
  | .error stop => .error stop
  | .ok r =>
    match skipSpace r.rest with
    | [] => .ok r.value
    | c :: t => .error (stopAt .trailingText (c :: t))

def parse (text : String) : Except Fault Value :=
  match readDocument text.toList with
  | .ok v => .ok v
  | .error stop => .error (stop.toFault text)

end Json

end LocaleAudit
