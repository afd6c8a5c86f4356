import LocaleAudit.Text.Consumed
import LocaleAudit.Text.Search

namespace LocaleAudit

/-!
# File patterns

A pattern matches whole paths, byte by byte. `?` and `*` stay within one component, `**` as a whole
component crosses directories, brackets give a class of characters and braces give alternatives.
A pattern is read into tokens, and its alternatives are multiplied out into plain sequences.
-/

namespace Glob

/-- A class of characters: ranges with both ends included. -/
structure CharClass where
  negated : Bool
  ranges : List (Char × Char)
  deriving DecidableEq, Repr

inductive Token where
  | literal (c : Char)
  | anyOne
  | star
  | recursiveStart
  | recursiveMiddle
  | recursiveEnd
  | oneOf (c : CharClass)
  | alternatives (branches : List (List Token))
  deriving Repr, Inhabited

/-! ## Reading -/

inductive ClassFault where
  | unclosed
  | reversed
  deriving DecidableEq, Repr

/-- The ranges of a class. In front, a bracket or a hyphen stands for itself; a hyphen between two
characters makes a range of them. -/
def readRanges (first pending : Bool) (ranges : List (Char × Char)) :
    (s : List Char) → Except ClassFault (Consumed (List (Char × Char)) s)
  | [] => .error .unclosed
  | c :: s =>
    let go (pending : Bool) (ranges : List (Char × Char)) :=
      (readRanges false pending ranges s).map (·.widen (Nat.le_succ _))
    if c = ']' ∧ !first then
      .ok ⟨(if pending then ('-', '-') :: ranges else ranges).reverse, s, by simp⟩
    else if c = '-' ∧ !first ∧ !pending then go true ranges
    else
      match pending, ranges with
      | true, (low, _) :: rest =>
        if c < low then .error .reversed else go false ((low, c) :: rest)
      | _, ranges => go false ((c, c) :: ranges)

def readClass (s : List Char) : Except ClassFault (Consumed CharClass s) :=
  match s with
  | '!' :: t =>
    (readRanges true false [] t).map fun r => ⟨⟨true, r.value⟩, r.rest, Nat.lt_succ_of_lt r.shorter⟩
  | '^' :: t =>
    (readRanges true false [] t).map fun r => ⟨⟨true, r.value⟩, r.rest, Nat.lt_succ_of_lt r.shorter⟩
  | s => (readRanges true false [] s).map fun r => ⟨⟨false, r.value⟩, r.rest, r.shorter⟩

/-- What to do with an opening bracket that nothing closes. -/
inductive Brackets where
  /-- It is a fault. -/
  | strict
  /-- It stands for itself, and so do those behind it. -/
  | lenient
  /-- Brackets stand for themselves. -/
  | plain
  deriving DecidableEq, Repr

/-- A brace that is open: the branches that are complete and the tokens in front of it, the last
first. -/
structure OpenBrace where
  before : List Token
  done : List (List Token)

/-- What a double star becomes, given the tokens in front of it, the character in front of it, and
the text behind it: the new tokens and how much text it takes. -/
def doubleStar (inBraces : Bool) (before : Option Char) (tokens : List Token) (s : List Char) :
    List Token × Nat :=
  let plain : List Token × Nat := (.star :: .star :: tokens, 0)
  match tokens with
  | [] =>
    match s with
    | [] => ([.recursiveStart], 0)
    | '/' :: _ => ([.recursiveStart], 1)
    | _ => plain
  | last :: rest =>
    let afterSlash := before == some '/'
    let opensBranch := inBraces && (before == some ',' || before == some '{')
    if !afterSlash && !opensBranch then plain
    else
      let replaced (token : Token) : List Token :=
        match last with
        | .recursiveStart => tokens
        | .recursiveEnd => tokens
        | _ => token :: rest
      match s with
      | [] => (replaced .recursiveEnd, 0)
      | '/' :: _ => (replaced .recursiveMiddle, 1)
      | c :: _ =>
        if inBraces && (c == ',' || c == '}') then (replaced .recursiveEnd, 0) else plain

/-- Reads on with the tokens of the current branch, the last first, and the braces that are open,
the innermost first. -/
def readTokens (brackets : Brackets) (before : Option Char) (tokens : List Token)
    (done : List (List Token)) (opened : List OpenBrace) (s : List Char) : Option (List Token) :=
  match s with
  | [] => if opened.isEmpty then some tokens.reverse else none
  | '?' :: t => readTokens brackets (some '?') (.anyOne :: tokens) done opened t
  | '*' :: '*' :: '/' :: t =>
    match doubleStar (!opened.isEmpty) before tokens ('/' :: t) with
    | (tokens, 0) => readTokens brackets (some '*') tokens done opened ('/' :: t)
    | (tokens, _ + 1) => readTokens brackets (some '/') tokens done opened t
  | '*' :: '*' :: t =>
    readTokens brackets (some '*') (doubleStar (!opened.isEmpty) before tokens t).1 done opened t
  | '*' :: t => readTokens brackets (some '*') (.star :: tokens) done opened t
  | '[' :: t =>
    if brackets = .plain then readTokens brackets (some '[') (.literal '[' :: tokens) done opened t
    else
      match readClass t with
      | .ok r =>
        have := r.shorter
        readTokens brackets (some ']') (.oneOf r.value :: tokens) done opened r.rest
      | .error .reversed => none
      | .error .unclosed =>
        if brackets = .strict then none
        else readTokens .plain (some '[') (.literal '[' :: tokens) done opened t
  | '{' :: t => readTokens brackets (some '{') [] [] (⟨tokens, done⟩ :: opened) t
  | '}' :: t =>
    match opened with
    | [] => none
    | brace :: opened =>
      let branches := (tokens.reverse :: done).reverse
      readTokens brackets (some '}') (.alternatives branches :: brace.before) brace.done opened t
  | ',' :: t =>
    if opened.isEmpty then readTokens brackets (some ',') (.literal ',' :: tokens) done opened t
    else readTokens brackets (some ',') [] (tokens.reverse :: done) opened t
  | ['\\'] => none
  | '\\' :: c :: t => readTokens brackets (some c) (.literal c :: tokens) done opened t
  | c :: t => readTokens brackets (some c) (.literal c :: tokens) done opened t
  termination_by s.length
  decreasing_by all_goals simp only [List.length_cons]; omega

/-! ## Matching -/

inductive Atom where
  | byte (b : UInt8)
  | anyOne
  | star
  | recursiveStart
  | recursiveMiddle
  | recursiveEnd
  | everything
  | oneOf (negated : Bool) (ranges : List (UInt8 × UInt8))
  deriving DecidableEq, Repr

def charBytes (c : Char) : List UInt8 :=
  (String.singleton c).toUTF8.data.toList

/-- A class as a class of bytes: of a range only the last byte of its lower end and the first byte
of its upper end span a range. -/
def byteRanges (range : Char × Char) : List (UInt8 × UInt8) :=
  let single (b : UInt8) : UInt8 × UInt8 := (b, b)
  let low := charBytes range.1
  if range.1 = range.2 then low.map single
  else
    match low.reverse, charBytes range.2 with
    | last :: lowRest, first :: highRest =>
      lowRest.reverse.map single ++ (last, first) :: highRest.map single
    | _, _ => []

/-- All ways to go on with one of several beginnings. -/
def products (heads tails : List (List Atom)) : List (List Atom) :=
  heads.flatMap fun head => tails.map fun tail => head ++ tail

mutual

/-- The plain sequences that a token stands for. -/
def expandToken : Token → List (List Atom)
  | .literal c => [(charBytes c).map .byte]
  | .anyOne => [[.anyOne]]
  | .star => [[.star]]
  | .recursiveStart => [[.recursiveStart]]
  | .recursiveMiddle => [[.recursiveMiddle]]
  | .recursiveEnd => [[.recursiveEnd]]
  | .oneOf c => [[.oneOf c.negated (c.ranges.flatMap byteRanges)]]
  | .alternatives branches =>
    match expandBranches branches with
    | [] => [[]]
    | sequences => sequences
termination_by structural t => t

def expandTokens : List Token → List (List Atom)
  | [] => [[]]
  | t :: ts => products (expandToken t) (expandTokens ts)
termination_by structural ts => ts

/-- The sequences of all branches; an empty branch gives none. -/
def expandBranches : List (List Token) → List (List Atom)
  | [] => []
  | branch :: rest =>
    let sequences := expandTokens branch
    (if sequences == [[]] then [] else sequences) ++ expandBranches rest
termination_by structural branches => branches

end

def slash : UInt8 := 47

def suffixes : List UInt8 → List (List UInt8)
  | [] => [[]]
  | b :: s => (b :: s) :: suffixes s

/-- What may be left behind the rest of one component. -/
def withinComponent : List UInt8 → List (List UInt8)
  | [] => [[]]
  | b :: s => (b :: s) :: if b == slash then [] else withinComponent s

def behindSlashes : List UInt8 → List (List UInt8)
  | [] => []
  | b :: s => if b == slash then s :: behindSlashes s else behindSlashes s

/-- What may be left behind an atom. -/
def Atom.rests : Atom → List UInt8 → List (List UInt8)
  | .byte b, c :: s => if b == c then [s] else []
  | .anyOne, c :: s => if c == slash then [] else [s]
  | .star, s => withinComponent s
  | .recursiveStart, s => s :: behindSlashes s
  | .recursiveMiddle, c :: s => if c == slash then s :: behindSlashes s else []
  | .recursiveEnd, c :: s => if c == slash then suffixes s else []
  | .everything, s => suffixes s
  | .oneOf negated ranges, c :: s =>
    if (ranges.any fun r => r.1 ≤ c && c ≤ r.2) != negated then [s] else []
  | .byte _, [] => []
  | .anyOne, [] => []
  | .recursiveMiddle, [] => []
  | .recursiveEnd, [] => []
  | .oneOf _ _, [] => []

def matchAtoms : List Atom → List UInt8 → Bool
  | [], s => s.isEmpty
  | a :: as, s => (a.rests s).any (matchAtoms as)

end Glob

structure Glob where
  sequences : List (List Glob.Atom)
  deriving DecidableEq, Repr

namespace Glob

/-- The pattern that a text spells. `**` alone matches everything. -/
def parse? (brackets : Brackets) (text : String) : Option Glob :=
  match readTokens brackets none [] [] [] text.toList with
  | none => none
  | some [.recursiveStart] => some ⟨[[.everything]]⟩
  | some tokens => some ⟨expandTokens tokens⟩

def isMatch (g : Glob) (path : String) : Bool :=
  let bytes := path.toUTF8.data.toList
  g.sequences.any (matchAtoms · bytes)

end Glob

end LocaleAudit
