import LocaleAudit.Text.Consumed
import LocaleAudit.Text.Search

namespace LocaleAudit

/-!
# Flat TOML documents

A flat document assigns strings, integers, switches and lists of strings to plain keys. Tables,
dotted keys, dates and fractions have no place in it and are refused like any other fault, as is a
key that is assigned twice.
-/

namespace Toml

inductive Value where
  | text (value : String)
  | integer (value : Int)
  | switch (value : Bool)
  | texts (values : List String)
  deriving DecidableEq, Repr

abbrev Reader (α : Type) := (s : List Char) → Option (Consumed α s)

def isSpace (c : Char) : Bool :=
  c == ' ' || c == '\t'

def skipSpace (s : List Char) : List Char :=
  s.dropWhile isSpace

/-- Characters that may stand in comments and quotes. -/
def isPlain (c : Char) : Bool :=
  c == '\t' || (0x20 ≤ c.toNat && c.toNat != 0x7F)

def dropNewline? : List Char → Option (List Char)
  | '\n' :: s => some s
  | '\r' :: '\n' :: s => some s
  | _ => none

theorem length_dropNewline {s t : List Char} (h : dropNewline? s = some t) :
    t.length < s.length := by
  unfold dropNewline? at h
  split at h
  · obtain rfl := Option.some.inj h
    simp
  · obtain rfl := Option.some.inj h
    simp only [List.length_cons]
    omega
  · simp at h

def skipComment (s : List Char) : List Char :=
  match s with
  | '#' :: t => t.dropWhile isPlain
  | s => s

theorem length_skipSpace_le (s : List Char) : (skipSpace s).length ≤ s.length :=
  length_dropWhile_le isSpace s

theorem length_skipComment_le (s : List Char) : (skipComment s).length ≤ s.length := by
  unfold skipComment
  split
  · exact Nat.le_succ_of_le (length_dropWhile_le isPlain _)
  · exact Nat.le_refl _

def skipBlankLines : List Char → List Char
  | ' ' :: s => skipBlankLines s
  | '\t' :: s => skipBlankLines s
  | '\n' :: s => skipBlankLines s
  | '\r' :: '\n' :: s => skipBlankLines s
  | s => s

theorem length_skipBlankLines_le (s : List Char) : (skipBlankLines s).length ≤ s.length := by
  fun_induction skipBlankLines s with
  | case1 s ih => exact Nat.le_succ_of_le ih
  | case2 s ih => exact Nat.le_succ_of_le ih
  | case3 s ih => exact Nat.le_succ_of_le ih
  | case4 s ih => exact Nat.le_succ_of_le (Nat.le_succ_of_le ih)
  | case5 s => exact Nat.le_refl _

def skipLines (s : List Char) : List Char :=
  match h : skipBlankLines s with
  | '#' :: t =>
    have : (t.dropWhile isPlain).length < s.length := by
      have h₁ := length_skipBlankLines_le s
      have h₂ := length_dropWhile_le isPlain t
      rw [h, List.length_cons] at h₁
      omega
    skipLines (t.dropWhile isPlain)
  | t => t
  termination_by s.length

theorem length_skipLines_le (s : List Char) : (skipLines s).length ≤ s.length := by
  fun_induction skipLines s with
  | case1 s t h shorter ih => omega
  | case2 s => exact length_skipBlankLines_le s

/-! ## Strings -/

def hexDigit? (c : Char) : Option Nat :=
  if '0' ≤ c ∧ c ≤ '9' then some (c.toNat - 48)
  else if 'a' ≤ c ∧ c ≤ 'f' then some (c.toNat - 87)
  else if 'A' ≤ c ∧ c ≤ 'F' then some (c.toNat - 55)
  else none

/-- The character with a hexadecimal code, unless it is a surrogate or out of range. -/
def charOfHex? (digits : List Char) : Option Char := do
  let n ← digits.foldlM (fun n d => (hexDigit? d).map (n * 16 + ·)) 0
  if h : n.isValidChar then some (Char.ofNatAux n h) else none

/-- The character of an escape behind its backslash. -/
def readEscape : Reader Char
  | 'b' :: s => some (.behind '\x08' s)
  | 't' :: s => some (.behind '\t' s)
  | 'n' :: s => some (.behind '\n' s)
  | 'f' :: s => some (.behind '\x0c' s)
  | 'r' :: s => some (.behind '\r' s)
  | '"' :: s => some (.behind '"' s)
  | '\\' :: s => some (.behind '\\' s)
  | 'u' :: a :: b :: c :: d :: s =>
    (charOfHex? [a, b, c, d]).map fun x => ⟨x, s, by simp only [List.length_cons]; omega⟩
  | 'U' :: a :: b :: c :: d :: e :: f :: g :: h :: s =>
    (charOfHex? [a, b, c, d, e, f, g, h]).map fun x =>
      ⟨x, s, by simp only [List.length_cons]; omega⟩
  | _ => none

/-- The rest of a string in double quotes on one line. -/
def readBasic (s : List Char) : Option (Consumed (List Char) s) :=
  match s with
  | [] => none
  | '"' :: t => some (.behind [] t)
  | '\\' :: t => do
    let e ← readEscape t
    have := e.shorter
    let r ← readBasic e.rest
    return ⟨e.value :: r.value, r.rest, by
      have := r.shorter
      simp only [List.length_cons]
      omega⟩
  | c :: t =>
    if isPlain c then do
      let r ← readBasic t
      return ⟨c :: r.value, r.rest, Nat.lt_succ_of_lt r.shorter⟩
    else none
  termination_by s.length
  decreasing_by all_goals simp only [List.length_cons]; omega

/-- The rest of a string in single quotes on one line. -/
def readLiteral : Reader (List Char)
  | [] => none
  | '\'' :: t => some (.behind [] t)
  | c :: t =>
    if isPlain c then (readLiteral t).map fun r =>
      ⟨c :: r.value, r.rest, Nat.lt_succ_of_lt r.shorter⟩
    else none

/-- Up to two quotes may stand directly in front of the three that close a string. -/
def closing (quote : Char) (s : List Char) :
    Option { closed : List Char × List Char // closed.2.length < s.length } :=
  match s with
  | a :: b :: c :: t =>
    if a = quote ∧ b = quote ∧ c = quote then
      match t with
      | d :: e :: u =>
        if d = quote ∧ e = quote then
          some ⟨([quote, quote], u), by simp only [List.length_cons]; omega⟩
        else if d = quote then some ⟨([quote], e :: u), by simp only [List.length_cons]; omega⟩
        else some ⟨([], d :: e :: u), by simp only [List.length_cons]; omega⟩
      | [d] =>
        if d = quote then some ⟨([quote], []), by simp⟩
        else some ⟨([], [d]), by simp⟩
      | [] => some ⟨([], []), by simp⟩
    else none
  | _ => none

/-- The text behind a backslash at a line end and the blank lines after it. -/
def dropContinuation? (s : List Char) : Option (List Char) :=
  (dropNewline? (skipSpace s)).map skipBlankLines

theorem length_dropContinuation {s t : List Char} (h : dropContinuation? s = some t) :
    t.length < s.length := by
  obtain ⟨u, hu, rfl⟩ := Option.map_eq_some_iff.1 h
  have := length_dropNewline hu
  have := length_skipSpace_le s
  have := length_skipBlankLines_le u
  omega

/-- The rest of a string in three double quotes. -/
def readMultiBasic (s : List Char) : Option (Consumed (List Char) s) :=
  match closing '"' s with
  | some ⟨(quotes, t), h⟩ => some ⟨quotes, t, h⟩
  | none =>
    match s with
    | [] => none
    | '\\' :: t =>
      match h : dropContinuation? t with
      | some u => do
        have := length_dropContinuation h
        let r ← readMultiBasic u
        return ⟨r.value, r.rest, by
          have := r.shorter
          simp only [List.length_cons]
          omega⟩
      | none => do
        let e ← readEscape t
        have := e.shorter
        let r ← readMultiBasic e.rest
        return ⟨e.value :: r.value, r.rest, by
          have := r.shorter
          simp only [List.length_cons]
          omega⟩
    | '\r' :: '\n' :: t => do
      let r ← readMultiBasic t
      return ⟨'\n' :: r.value, r.rest, Nat.lt_succ_of_lt (Nat.lt_succ_of_lt r.shorter)⟩
    | c :: t =>
      if isPlain c || c == '\n' then do
        let r ← readMultiBasic t
        return ⟨c :: r.value, r.rest, Nat.lt_succ_of_lt r.shorter⟩
      else none
  termination_by s.length
  decreasing_by all_goals simp only [List.length_cons]; omega

/-- The rest of a string in three single quotes. -/
def readMultiLiteral (s : List Char) : Option (Consumed (List Char) s) :=
  match closing '\'' s with
  | some ⟨(quotes, t), h⟩ => some ⟨quotes, t, h⟩
  | none =>
    match s with
    | [] => none
    | '\r' :: '\n' :: t => do
      let r ← readMultiLiteral t
      return ⟨'\n' :: r.value, r.rest, Nat.lt_succ_of_lt (Nat.lt_succ_of_lt r.shorter)⟩
    | c :: t =>
      if isPlain c || c == '\n' then do
        let r ← readMultiLiteral t
        return ⟨c :: r.value, r.rest, Nat.lt_succ_of_lt r.shorter⟩
      else none

/-- A line end directly behind the opening quotes does not count. -/
def dropFirstNewline (s : List Char) : List Char :=
  (dropNewline? s).getD s

theorem length_dropFirstNewline_le (s : List Char) : (dropFirstNewline s).length ≤ s.length := by
  unfold dropFirstNewline
  cases h : dropNewline? s with
  | none => exact Nat.le_refl _
  | some t => exact Nat.le_of_lt (length_dropNewline h)

def readString : Reader String
  | '"' :: '"' :: '"' :: s =>
    (readMultiBasic (dropFirstNewline s)).map fun r => ⟨String.ofList r.value, r.rest, by
      have := r.shorter
      have := length_dropFirstNewline_le s
      simp only [List.length_cons]
      omega⟩
  | '\'' :: '\'' :: '\'' :: s =>
    (readMultiLiteral (dropFirstNewline s)).map fun r => ⟨String.ofList r.value, r.rest, by
      have := r.shorter
      have := length_dropFirstNewline_le s
      simp only [List.length_cons]
      omega⟩
  | '"' :: s =>
    (readBasic s).map fun r => ⟨String.ofList r.value, r.rest, Nat.lt_succ_of_lt r.shorter⟩
  | '\'' :: s =>
    (readLiteral s).map fun r => ⟨String.ofList r.value, r.rest, Nat.lt_succ_of_lt r.shorter⟩
  | _ => none

/-! ## Integers and switches -/

/-- A word of letters, digits, signs and underscores. -/
def isWordPart (c : Char) : Bool :=
  ('a' ≤ c && c ≤ 'z') || ('A' ≤ c && c ≤ 'Z') || ('0' ≤ c && c ≤ '9') || c == '_' || c == '+' ||
    c == '-'

/-- The value of digits of a base below 17, where an underscore may stand between two digits. -/
def digits? (base : Nat) (s : List Char) : Option Nat :=
  let groups := splitOnChar '_' s
  if groups.any List.isEmpty then none
  else
    groups.flatten.foldlM (fun n c => do
      let d ← hexDigit? c
      if d < base then some (n * base + d) else none) 0

/-- Decimal digits do not start with a zero, unless it is the only one. -/
def decimal? (s : List Char) : Option Nat :=
  match s with
  | '0' :: _ :: _ => none
  | s => digits? 10 s

/-- Integers have 64 bits with the sign. -/
def inWord (n : Int) : Option Int :=
  if -9223372036854775808 ≤ n ∧ n ≤ 9223372036854775807 then some n else none

def integer? : List Char → Option Int
  | '0' :: 'x' :: s => (digits? 16 s).bind fun n => inWord n
  | '0' :: 'o' :: s => (digits? 8 s).bind fun n => inWord n
  | '0' :: 'b' :: s => (digits? 2 s).bind fun n => inWord n
  | '+' :: s => (decimal? s).bind fun n => inWord n
  | '-' :: s => (decimal? s).bind fun n => inWord (-n)
  | s => (decimal? s).bind fun n => inWord n

def word? (s : List Char) : Option Value :=
  if s = ['t', 'r', 'u', 'e'] then some (.switch true)
  else if s = ['f', 'a', 'l', 's', 'e'] then some (.switch false)
  else (integer? s).map .integer

def readWord : Reader Value
  | [] => none
  | c :: s =>
    if isWordPart c then
      (word? (c :: s.takeWhile isWordPart)).map fun v =>
        ⟨v, s.dropWhile isWordPart, Nat.lt_succ_of_le (length_dropWhile_le _ _)⟩
    else none

/-! ## Lists -/

theorem length_of_skipLines {s t : List Char} {c : Char} (h : skipLines s = c :: t) :
    t.length < s.length := by
  have := length_skipLines_le s
  rw [h] at this
  exact this

/-- The strings of a list behind its opening bracket or a comma, up to the closing bracket. -/
def readTexts (s : List Char) : Option (Consumed (List String) s) :=
  match h : skipLines s with
  | ']' :: t => some ⟨[], t, length_of_skipLines h⟩
  | t => do
    let v ← readString t
    have inside : v.rest.length < s.length :=
      Nat.lt_of_lt_of_le v.shorter (h ▸ length_skipLines_le s)
    match h' : skipLines v.rest with
    | ',' :: u =>
      have further : u.length < s.length := Nat.lt_trans (length_of_skipLines h') inside
      let r ← readTexts u
      return ⟨v.value :: r.value, r.rest, Nat.lt_trans r.shorter further⟩
    | ']' :: u => return ⟨[v.value], u, Nat.lt_trans (length_of_skipLines h') inside⟩
    | _ => none
  termination_by s.length

/-! ## Assignments -/

def isKeyChar (c : Char) : Bool :=
  ('a' ≤ c && c ≤ 'z') || ('A' ≤ c && c ≤ 'Z') || ('0' ≤ c && c ≤ '9') || c == '_' || c == '-'

def readKey : Reader String
  | [] => none
  | '"' :: s =>
    (readBasic s).map fun r => ⟨String.ofList r.value, r.rest, Nat.lt_succ_of_lt r.shorter⟩
  | '\'' :: s =>
    (readLiteral s).map fun r => ⟨String.ofList r.value, r.rest, Nat.lt_succ_of_lt r.shorter⟩
  | c :: s =>
    if isKeyChar c then
      some ⟨String.ofList (c :: s.takeWhile isKeyChar), s.dropWhile isKeyChar,
        Nat.lt_succ_of_le (length_dropWhile_le _ _)⟩
    else none

def readValue : Reader Value
  | '[' :: s => (readTexts s).map fun r => ⟨.texts r.value, r.rest, Nat.lt_succ_of_lt r.shorter⟩
  | '"' :: s => (readString ('"' :: s)).map (·.map .text)
  | '\'' :: s => (readString ('\'' :: s)).map (·.map .text)
  | s => readWord s

def readAssignment : Reader (String × Value) := fun s => do
  let key ← readKey s
  match h : skipSpace key.rest with
  | '=' :: t =>
    let v ← readValue (skipSpace t)
    return ⟨(key.value, v.value), v.rest, by
      have h₁ := key.shorter
      have h₂ := v.shorter
      have h₃ := length_skipSpace_le key.rest
      have h₄ := length_skipSpace_le t
      rw [h, List.length_cons] at h₃
      omega⟩
  | _ => none

/-- Assignments, one a line, with blanks, comments and empty lines between them. -/
def readLines (s : List Char) : Option (List (String × Value)) :=
  match h : skipLines s with
  | [] => some []
  | c :: t => do
    let a ← readAssignment (c :: t)
    match h' : skipComment (skipSpace a.rest) with
    | [] => return [a.value]
    | d :: u =>
      match h'' : dropNewline? (d :: u) with
      | none => none
      | some rest =>
        have : rest.length < s.length := by
          have h₁ := length_skipLines_le s
          have h₂ := a.shorter
          have h₃ := length_skipSpace_le a.rest
          have h₄ := length_skipComment_le (skipSpace a.rest)
          have h₅ := length_dropNewline h''
          rw [h] at h₁
          rw [h'] at h₄
          omega
        return a.value :: (← readLines rest)
  termination_by s.length

def hasRepeats : List String → Bool
  | [] => false
  | key :: rest => rest.contains key || hasRepeats rest

/-- The assignments of a document; a byte order mark in front does not count. -/
def read? (text : String) : Option (List (String × Value)) := do
  let s := text.toList
  let s := (stripStart? [Char.ofNat 0xFEFF] s).getD s
  let assignments ← readLines s
  if hasRepeats (assignments.map Prod.fst) then none else some assignments

end Toml

end LocaleAudit
