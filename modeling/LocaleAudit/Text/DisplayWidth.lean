import LocaleAudit.Text.WidthClasses

namespace LocaleAudit

/-!
# Display width

The number of terminal columns that text takes. Inside a text a control character counts 1, and
some neighbours share their columns: an emoji sequence takes two, a Lam with its Alef one.
`textWidth` reads from the end, so that each character knows what follows it.

What is printed is laid out with any `Widths`; those of a terminal are `terminalWidths`.
-/

/-- The columns of single characters, and of texts. -/
structure Widths where
  ofChar : Char → Option Nat
  ofText : List Char → Nat

/-! ## Ligatures -/

/-- A letter that can join the letters in front of it. It is `joined` when a zero-width joiner
stands in front of it. -/
inductive Ligature where
  | alef
  | khmerLetter
  | lisuLowTone
  | hebrewLamed (joined : Bool)
  | bugineseYa (joined : Bool)
  | bugineseVowelYa
  | tifinagh (joined : Bool)
  | tifinaghPair
  | orkhonI (joined : Bool)
  | kiratRaiE
  | kiratRaiAi
  deriving DecidableEq

def isAlef (n : Nat) : Bool :=
  inRanges n [(0x622, 0x623), (0x625, 0x625), (0x627, 0x627), (0x671, 0x673), (0x675, 0x675),
    (0x773, 0x774), (0x870, 0x882)]

def isLam (n : Nat) : Bool :=
  inRanges n [(0x644, 0x644), (0x6B5, 0x6B8), (0x76A, 0x76A), (0x8A6, 0x8A6), (0x8C7, 0x8C7)]

def isKhmerSubscript (n : Nat) : Bool :=
  inRanges n [(0x1780, 0x1782), (0x1784, 0x1787), (0x1789, 0x178C), (0x178E, 0x1793),
    (0x1795, 0x1798), (0x179B, 0x179D), (0x17A0, 0x17A0), (0x17A2, 0x17A2), (0x17A7, 0x17A7),
    (0x17AB, 0x17AC), (0x17AF, 0x17AF)]

def isTifinaghConsonant (n : Nat) : Bool :=
  inRanges n [(0x2D31, 0x2D65), (0x2D6F, 0x2D6F)]

def zeroWidthJoiner : Nat := 0x200D

/-- Marks between an Arabic Lam and its Alef. -/
def isArabicMark (n : Nat) : Bool :=
  glyphWidth n == 0 && !inRanges n nonJoiningRanges

/-- Ignorable marks inside the other ligatures. -/
def isIgnorableMark (n : Nat) : Bool :=
  inRanges n [(0x34F, 0x34F), (0x17B4, 0x17B5), (0x180B, 0x180D), (0x180F, 0x180F),
    (0xFE00, 0xFE0F), (0xE0100, 0xE01EF)]

namespace Ligature

def ofCode? (n : Nat) : Option Ligature :=
  if isAlef n then some .alef
  else if isKhmerSubscript n then some .khmerLetter
  else if 0xA4FC ≤ n && n ≤ 0xA4FD then some .lisuLowTone
  else if n == 0x5DC then some (.hebrewLamed false)
  else if n == 0x1A10 then some (.bugineseYa false)
  else if isTifinaghConsonant n then some (.tifinagh false)
  else if n == 0x10C03 then some (.orkhonI false)
  else if n == 0x16D67 then some .kiratRaiE
  else if n == 0x16D68 then some .kiratRaiAi
  else none

def withJoiner : Ligature → Ligature
  | .hebrewLamed _ => .hebrewLamed true
  | .bugineseYa _ => .bugineseYa true
  | .tifinagh _ => .tifinagh true
  | .orkhonI _ => .orkhonI true
  | l => l

/-- A mark without columns in front of a ligature leaves it open for the next character. -/
def mark? (n : Nat) : Ligature → Option Ligature
  | .alef => if isArabicMark n then some .alef else none
  | l =>
    if n == zeroWidthJoiner then some l.withJoiner
    else if isIgnorableMark n then some l
    else none

/-- The columns a character adds in front of a letter it joins, and the ligature that is open
then. -/
def join? (n : Nat) : Ligature → Option (Int × Option Ligature)
  | .alef => if isLam n then some (0, none) else none
  | .khmerLetter => if n == 0x17D2 then some (-1, none) else none
  | .lisuLowTone => if 0xA4F8 ≤ n && n ≤ 0xA4FB then some (0, none) else none
  | .hebrewLamed joined => if joined && n == 0x5D0 then some (0, none) else none
  | .bugineseYa joined => if joined && n == 0x1A17 then some (0, some .bugineseVowelYa) else none
  | .bugineseVowelYa => if n == 0x1A15 then some (0, none) else none
  | .tifinagh joined =>
    if n == 0x2D7F then some (1, some .tifinaghPair)
    else if joined && isTifinaghConsonant n then some (0, none)
    else none
  | .tifinaghPair => if isTifinaghConsonant n then some (-1, none) else none
  | .orkhonI joined => if joined && n == 0x10C32 then some (0, none) else none
  | .kiratRaiE =>
    if n == 0x16D63 || n == 0x16D69 then some (0, none)
    else if n == 0x16D67 then some (0, some .kiratRaiAi)
    else if n == 0x16D68 then some (1, some .kiratRaiE)
    else none
  | .kiratRaiAi => if n == 0x16D63 then some (0, none) else none

end Ligature

/-! ## Emoji -/

def isFlagLetter (n : Nat) : Bool :=
  inRanges n [(0x1F1E6, 0x1F1FF)]

def isSkinTone (n : Nat) : Bool :=
  0x1F3FB ≤ n && n ≤ 0x1F3FF

def isTagLetter (n : Nat) : Bool :=
  0xE0061 ≤ n && n ≤ 0xE007A

def isTagDigit (n : Nat) : Bool :=
  0xE0030 ≤ n && n ≤ 0xE0039

/-- What stands behind a character, as far as it changes the character's width. In front of an
emoji, a joiner waits for another one, which may end in a keycap, in flag letters or in the tags of
a flag. -/
inductive Shape where
  | nothing
  | lineFeed
  | ligature (l : Ligature)
  | skinTone
  | picture
  | flagLetter
  | flagLetters
  | joiner
  | joinedKeycap
  | joinedFlagLetter
  | joinedFlags
  | joinedFlagsAndLetter
  | joinedTags (letters digits : Nat)
  deriving DecidableEq

namespace Shape

def ofCode (n : Nat) : Shape :=
  match Ligature.ofCode? n with
  | some l => .ligature l
  | none =>
    if n == 0x0A then .lineFeed
    else if isFlagLetter n then .flagLetter
    else if isSkinTone n then .skinTone
    else if inRanges n pictureRanges then .picture
    else .nothing

/-- The columns a character adds to a shape it becomes part of, and the shape that results. -/
def join? (n : Nat) : Shape → Option (Int × Shape)
  | .ligature l =>
    match l.mark? n with
    | some marked => some (0, .ligature marked)
    | none => (l.join? n).map fun (columns, next) => (columns, next.elim .nothing .ligature)
  | .lineFeed => if n == 0x0D then some (0, .nothing) else none
  | .skinTone =>
    if n == zeroWidthJoiner then some (0, .joiner)
    else if inRanges n tonedRanges then some (0, .picture)
    else none
  | .picture => if n == zeroWidthJoiner then some (0, .joiner) else none
  | .flagLetter => if isFlagLetter n then some (1, .flagLetters) else none
  | .flagLetters =>
    if isFlagLetter n then some (1, .flagLetters)
    else if n == zeroWidthJoiner then some (0, .joiner)
    else none
  | .joiner =>
    if n == 0x20E3 then some (0, .joinedKeycap)
    else if isFlagLetter n then some (1, .joinedFlagLetter)
    else if isSkinTone n then some (0, .skinTone)
    else if n == 0xE007F then some (0, .joinedTags 0 0)
    else if inRanges n pictureRanges then some (0, .picture)
    else none
  | .joinedKeycap => none
  | .joinedFlagLetter => if isFlagLetter n then some (-1, .joinedFlags) else none
  | .joinedFlags =>
    if isFlagLetter n then some (3, .joinedFlagsAndLetter)
    else if n == zeroWidthJoiner then some (0, .joiner)
    else none
  | .joinedFlagsAndLetter =>
    if isFlagLetter n then some (-1, .joinedFlags)
    else if n == zeroWidthJoiner then some (0, .joiner)
    else none
  | .joinedTags letters digits =>
    if isTagLetter n && digits == 0 && letters < 6 then some (0, .joinedTags (letters + 1) 0)
    else if isTagDigit n && (if digits == 0 then letters ≤ 4 else digits < 3) then
      some (0, .joinedTags letters (digits + 1))
    else if n == 0x1F3F4 && (if digits == 0 then 3 ≤ letters else digits == 3) then
      some (0, .picture)
    else none
  | .nothing => none

/-- What is left of a shape behind a text selector, or behind an emoji selector that has not
selected anything. -/
def behindSelector : Shape → Shape
  | .ligature l => .ligature l
  | _ => .nothing

/-- What is left of a shape behind an emoji selector. -/
def behindEmojiSelector : Shape → Shape
  | .joiner => .joiner
  | .joinedKeycap => .joinedKeycap
  | shape => shape.behindSelector

end Shape

inductive Selector where
  | absent
  | text
  | emoji
  deriving DecidableEq

/-- What follows a character: a shape, with the selector in front of it. -/
structure Following where
  shape : Shape
  selector : Selector
  deriving DecidableEq

namespace Following

def nothing : Following := ⟨.nothing, .absent⟩

/-- The shape that follows a character which the selector does not select. -/
def unselected (following : Following) : Shape :=
  match following.selector with
  | .emoji => following.shape.behindSelector
  | _ => following.shape

end Following

/-! ## Texts -/

/-- The columns a character adds in front of what follows it, and what it is to the character in
front. -/
def widthBefore (n : Nat) (following : Following) : Int × Following :=
  let shape := following.unselected
  if following.selector = .emoji ∧ inRanges n emojiRanges then
    (if following.shape = .joiner ∨ following.shape = .joinedKeycap then 0 else 2,
      ⟨.picture, .absent⟩)
  else if n = 0xFE0F then (0, ⟨shape.behindEmojiSelector, .emoji⟩)
  else if n = 0xFE0E then (0, ⟨shape.behindSelector, .text⟩)
  else if following.selector = .text ∧ inRanges n textRanges then (1, .nothing)
  else
    match shape.join? n with
    | some (columns, joined) => (columns, ⟨joined, .absent⟩)
    | none => (glyphWidth n, ⟨.ofCode n, .absent⟩)

def textWidthFrom : List Char → Int × Following
  | [] => (0, .nothing)
  | c :: cs =>
    let (columns, following) := textWidthFrom cs
    let (more, what) := widthBefore c.toNat following
    (columns + more, what)

def textWidth (s : List Char) : Nat :=
  (textWidthFrom s).1.toNat

def terminalWidths : Widths where
  ofChar := charWidth
  ofText := textWidth

end LocaleAudit
