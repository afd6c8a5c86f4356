import LocaleAudit.Text.DisplayWidth

namespace LocaleAudit

/-!
# Columns of a text and of its characters

A text takes at most the columns that its characters take alone, for neighbours that share columns
only save some. Two things cost one column more in a text than alone: a control character, and a
character that an emoji selector behind it makes a picture. Results on printed lines rest on this
much only, which `Widths.Documented` says; `terminalWidths_documented` shows it of a terminal.
-/

/-! ## Widths -/

def emojiSelector : Char := '\uFE0F'

namespace Widths

variable (w : Widths)

def soloWidth (c : Char) : Nat :=
  (w.ofChar c).getD 0

/-- The columns of characters that are measured one by one. -/
def soloColumns : List Char → Nat
  | [] => 0
  | c :: cs => w.soloWidth c + soloColumns cs

end Widths

/-- A character can take a column more with this text behind it than alone. -/
def isWidened (c : Char) (behind : List Char) : Bool :=
  isControl c || behind.head? == some emojiSelector

/-- The number of characters that can take a column more than alone. -/
def widened : List Char → Nat
  | [] => 0
  | c :: cs => (if isWidened c cs then 1 else 0) + widened cs

theorem widened_eq_zero {s : List Char}
    (h : ∀ c ∈ s, isControl c = false ∧ c ≠ emojiSelector) : widened s = 0 := by
  induction s with
  | nil => rfl
  | cons c cs ih =>
    rw [List.forall_mem_cons] at h
    obtain ⟨⟨hcontrol, _⟩, hcs⟩ := h
    have hhead : cs.head? ≠ some emojiSelector := by
      intro hhead
      exact (hcs emojiSelector (List.mem_of_head? hhead)).2 rfl
    have hplain : isWidened c cs = false := by simp [isWidened, hcontrol, hhead]
    rw [widened, ih hcs, hplain]
    rfl

/-- What lines are cut by: neighbours share columns and a text takes no more than its characters,
but for those that are widened; and a dot is nobody's neighbour. -/
structure Widths.Documented (w : Widths) : Prop where
  neighbours : ∀ s, w.ofText s ≤ w.soloColumns s + widened s
  dot : ∀ s, w.ofText (s ++ ['.']) = w.ofText s + 1

/-! ## Long tables -/

/-- No range of one ascending table overlaps one of the other. Both are read once from the front:
they are too long to compare every range with every other. -/
def noOverlap : List (Nat × Nat) → List (Nat × Nat) → Bool
  | [], _ => true
  | range :: ranges, others =>
    let ahead := others.dropWhile fun other => other.2 < range.1
    (ahead.head?.all fun other => range.2 < other.1) && noOverlap ranges ahead

theorem inRanges_dropWhile {n first : Nat} (hfirst : first ≤ n) {others : List (Nat × Nat)}
    (h : inRanges n others = true) :
    inRanges n (others.dropWhile fun other => other.2 < first) = true := by
  induction others with
  | nil => cases h
  | cons other others ih =>
    obtain ⟨start, last⟩ := other
    by_cases hlast : last < first
    · rw [List.dropWhile_cons_of_pos (by simpa using hlast)]
      apply ih
      have hbehind : ¬n ≤ last := by omega
      simp only [inRanges] at h
      split at h
      · cases h
      · simpa [hbehind] using h
    · rwa [List.dropWhile_cons_of_neg (by simpa using hlast)]

theorem inRanges_eq_false_of_noOverlap {n : Nat} {ranges others : List (Nat × Nat)}
    (h : noOverlap ranges others = true) (hn : inRanges n ranges = true) :
    inRanges n others = false := by
  induction ranges generalizing others with
  | nil => cases hn
  | cons range ranges ih =>
    obtain ⟨first, last⟩ := range
    rw [noOverlap, Bool.and_eq_true] at h
    obtain ⟨hhead, hrest⟩ := h
    simp only [inRanges] at hn
    split at hn
    · cases hn
    rename_i hfirst
    rw [Bool.eq_false_iff]
    intro hother
    have hahead := inRanges_dropWhile (Nat.le_of_not_lt hfirst) hother
    rw [Bool.or_eq_true, decide_eq_true_eq] at hn
    rcases hn with hlast | hn
    · -- What is ahead begins behind this range.
      cases hothers : others.dropWhile fun other => other.2 < first with
      | nil =>
        rw [hothers] at hahead
        cases hahead
      | cons other rest =>
        rw [hothers] at hhead hahead
        have hbehind : last < other.1 := by simpa using hhead
        rw [inRanges_cons_of_lt _ _ (Nat.lt_of_le_of_lt hlast hbehind)] at hahead
        cases hahead
    · rw [ih hrest hn] at hahead
      cases hahead

/-! ## Characters -/

def controlRanges : List (Nat × Nat) :=
  [(0, 0x1F), (0x7F, 0x9F)]

theorem isControl_eq (c : Char) : isControl c = inRanges c.toNat controlRanges := by
  rw [Bool.eq_iff_iff]
  simp only [isControl, controlRanges, inRanges, Bool.or_eq_true, Bool.and_eq_true,
    decide_eq_true_eq]
  split
  · omega
  · split <;> simp <;> omega

theorem soloWidth_of_not_control {c : Char} (h : isControl c = false) :
    terminalWidths.soloWidth c = glyphWidth c.toNat := by
  simp [Widths.soloWidth, terminalWidths, charWidth, h]

theorem glyphWidth_of_control {c : Char} (h : isControl c = true) : glyphWidth c.toNat = 1 := by
  have hcode : c.toNat < 0xA0 := by
    simp only [isControl, Bool.or_eq_true, Bool.and_eq_true, decide_eq_true_eq] at h
    omega
  rw [glyphWidth, if_pos hcode]

theorem glyphWidth_pos {n : Nat} (h : inRanges n zeroWidthRanges = false) : 0 < glyphWidth n := by
  unfold glyphWidth
  rw [h]
  repeat' split
  all_goals simp_all

theorem glyphWidth_pos_of_noOverlap {n : Nat} {ranges : List (Nat × Nat)}
    (h : noOverlap ranges zeroWidthRanges = true) (hn : inRanges n ranges = true) :
    0 < glyphWidth n :=
  glyphWidth_pos (inRanges_eq_false_of_noOverlap h hn)

/-- In a text a character takes its own columns, and one when it is a control character. -/
theorem glyphWidth_le (c : Char) (cs : List Char) :
    glyphWidth c.toNat ≤ terminalWidths.soloWidth c + if isWidened c cs then 1 else 0 := by
  cases hcontrol : isControl c with
  | true =>
    have hwidened : isWidened c cs = true := by simp [isWidened, hcontrol]
    rw [glyphWidth_of_control hcontrol, if_pos hwidened]
    exact Nat.le_add_left 1 _
  | false =>
    rw [soloWidth_of_not_control hcontrol]
    exact Nat.le_add_right _ _

theorem soloWidth_pos_of_noOverlap {c : Char} {ranges : List (Nat × Nat)}
    (hzero : noOverlap ranges zeroWidthRanges = true)
    (hcontrol : noOverlap ranges controlRanges = true) (hc : inRanges c.toNat ranges = true) :
    0 < terminalWidths.soloWidth c := by
  have hvisible : isControl c = false := by
    rw [isControl_eq]
    exact inRanges_eq_false_of_noOverlap hcontrol hc
  rw [soloWidth_of_not_control hvisible]
  exact glyphWidth_pos_of_noOverlap hzero hc

theorem glyphWidth_flagLetter {n : Nat} (h : isFlagLetter n = true) : 0 < glyphWidth n :=
  glyphWidth_pos_of_noOverlap (by decide +kernel) h

theorem glyphWidth_khmerSubscript {n : Nat} (h : isKhmerSubscript n = true) : 0 < glyphWidth n :=
  glyphWidth_pos_of_noOverlap (by decide +kernel) h

theorem soloWidth_emoji {c : Char} (h : inRanges c.toNat emojiRanges = true) :
    0 < terminalWidths.soloWidth c :=
  soloWidth_pos_of_noOverlap (by decide +kernel) (by decide +kernel) h

theorem soloWidth_textPicture {c : Char} (h : inRanges c.toNat textRanges = true) :
    0 < terminalWidths.soloWidth c :=
  soloWidth_pos_of_noOverlap (by decide +kernel) (by decide +kernel) h

/-! ## Neighbours

What follows a character can have columns to give: some that were counted for it and can be saved,
and some that were saved already and can be taken back.
-/

namespace Ligature

/-- Columns that a character in front can save. -/
def refund : Ligature → Nat
  | .khmerLetter => 1
  | .tifinaghPair => 1
  | _ => 0

theorem refund_mark {n : Nat} {l marked : Ligature} (h : l.mark? n = some marked) :
    marked.refund = l.refund := by
  cases l
  all_goals
    simp only [mark?] at h
    repeat' split at h
  all_goals
    cases h
    try rfl

/-- Only a letter that has a column of its own adds one. -/
theorem join?_bounds {n : Nat} {l : Ligature} {columns : Int} {next : Option Ligature}
    (h : l.join? n = some (columns, next)) :
    next.elim 0 refund ≤ l.refund + columns ∧ columns ≤ glyphWidth n := by
  have hjoiner : 0 < glyphWidth 0x2D7F := by decide +kernel
  have hvowel : 0 < glyphWidth 0x16D68 := by decide +kernel
  cases l
  all_goals
    simp only [join?] at h
    repeat' split at h
  all_goals cases h
  all_goals try rw [eq_of_beq ‹(n == 0x2D7F) = true›]
  all_goals try rw [eq_of_beq ‹(n == 0x16D68) = true›]
  all_goals
    simp only [refund, Option.elim]
    omega

theorem refund_le_of_ofCode? {n : Nat} {l : Ligature} (h : ofCode? n = some l) :
    l.refund ≤ glyphWidth n := by
  unfold ofCode? at h
  split at h
  · cases h
    exact Nat.zero_le _
  split at h
  · rename_i hkhmer
    cases h
    exact glyphWidth_khmerSubscript hkhmer
  repeat' split at h
  all_goals cases h
  all_goals exact Nat.zero_le _

end Ligature

namespace Shape

/-- Columns that a character in front can save. -/
def refund : Shape → Nat
  | .ligature l => l.refund
  | .joinedFlagLetter => 1
  | .joinedFlagsAndLetter => 1
  | _ => 0

/-- Columns that a character in front can take besides its own. -/
def credit : Shape → Nat
  | .joinedFlags => 2
  | _ => 0

theorem join?_bounds {n : Nat} {shape joined : Shape} {columns : Int}
    (h : shape.join? n = some (columns, joined)) :
    joined.refund ≤ shape.refund + columns ∧
      columns + joined.credit ≤ glyphWidth n + shape.credit := by
  cases shape with
  | ligature l =>
    rw [join?] at h
    split at h
    · rename_i hmark
      cases h
      have hrefund := Ligature.refund_mark hmark
      simp only [refund, credit]
      omega
    · obtain ⟨⟨more, next⟩, hjoin, hshape⟩ := Option.map_eq_some_iff.mp h
      cases hshape
      obtain ⟨hrefund, hcolumns⟩ := Ligature.join?_bounds hjoin
      cases next with
      | none => exact ⟨hrefund, by simpa [credit] using hcolumns⟩
      | some open' => exact ⟨hrefund, by simpa [credit] using hcolumns⟩
  | _ =>
    simp only [join?] at h
    repeat' split at h
    all_goals cases h
    -- Only flag letters add columns, and each has one of its own.
    all_goals try have hletter := glyphWidth_flagLetter ‹isFlagLetter n = true›
    all_goals
      simp only [refund, credit]
      omega

theorem refund_ofCode_le (n : Nat) : (ofCode n).refund ≤ glyphWidth n := by
  unfold ofCode
  split
  · rename_i hligature
    exact Ligature.refund_le_of_ofCode? hligature
  · repeat' split
    all_goals exact Nat.zero_le _

theorem credit_ofCode (n : Nat) : (ofCode n).credit = 0 := by
  unfold ofCode
  repeat' split
  all_goals rfl

end Shape

/-- The ways in which a character takes its columns in front of what follows it. -/
inductive Before (n : Nat) (following : Following) : Int → Following → Prop where
  | selected {columns : Int} (hselector : following.selector = .emoji)
      (hemoji : inRanges n emojiRanges = true) (hsome : 0 ≤ columns) (hmost : columns ≤ 2) :
      Before n following columns ⟨.picture, .absent⟩
  | emojiSelector (hcode : n = emojiSelector.toNat) :
      Before n following 0 ⟨following.unselected.behindEmojiSelector, .emoji⟩
  | textSelector : Before n following 0 ⟨following.unselected.behindSelector, .text⟩
  | shownAsText {columns : Int} (htext : inRanges n textRanges = true) (hone : columns = 1) :
      Before n following columns ⟨.nothing, .absent⟩
  | joined {columns : Int} {shape : Shape}
      (hjoin : following.unselected.join? n = some (columns, shape)) :
      Before n following columns ⟨shape, .absent⟩
  | alone : Before n following (glyphWidth n) ⟨.ofCode n, .absent⟩

theorem before_widthBefore (n : Nat) (following : Following) :
    Before n following (widthBefore n following).1 (widthBefore n following).2 := by
  unfold widthBefore
  dsimp only
  split
  · rename_i hselected
    split
    · exact .selected hselected.1 hselected.2 (by decide) (by decide)
    · exact .selected hselected.1 hselected.2 (by decide) (by decide)
  split
  · rename_i hcode
    exact .emojiSelector hcode
  split
  · exact .textSelector
  split
  · rename_i htext
    exact .shownAsText htext.2 rfl
  split
  · rename_i hjoin
    exact .joined hjoin
  · exact .alone

/-! ## Texts -/

/-- Columns counted for a text that begins with a shape: those that can be saved are among them, and
with those that can be taken besides they stay below a limit. -/
structure Covered (columns : Int) (limit : Nat) (shape : Shape) : Prop where
  refund_le : shape.refund ≤ columns
  le_limit : columns + shape.credit ≤ limit

namespace Covered

variable {columns more : Int} {limit wider n : Nat} {shape joined : Shape}

theorem nonneg (h : Covered columns limit shape) : 0 ≤ columns :=
  Int.le_trans (Int.natCast_nonneg _) h.refund_le

theorem le (h : Covered columns limit shape) : columns ≤ limit := by
  have hlimit := h.le_limit
  omega

theorem mono (h : Covered columns limit shape) (hlimit : limit ≤ wider) :
    Covered columns wider shape where
  refund_le := h.refund_le
  le_limit := Int.le_trans h.le_limit (Int.ofNat_le.mpr hlimit)

theorem behindSelector (h : Covered columns limit shape) :
    Covered columns limit shape.behindSelector := by
  cases shape with
  | ligature l => exact h
  | _ => exact ⟨h.nonneg, by simpa [Shape.behindSelector, Shape.credit] using h.le⟩

theorem behindEmojiSelector (h : Covered columns limit shape) :
    Covered columns limit shape.behindEmojiSelector := by
  cases shape with
  | joiner => exact h
  | joinedKeycap => exact h
  | _ => exact h.behindSelector

theorem unselected {following : Following} (h : Covered columns limit following.shape) :
    Covered columns limit following.unselected := by
  unfold Following.unselected
  split
  · exact h.behindSelector
  · exact h

theorem join (h : Covered columns limit shape) (hjoin : shape.join? n = some (more, joined)) :
    Covered (columns + more) (limit + glyphWidth n) joined := by
  obtain ⟨hrefund, hlimit⟩ := h
  obtain ⟨hsaved, htaken⟩ := Shape.join?_bounds hjoin
  constructor <;> omega

theorem alone (h : Covered columns limit shape) (n : Nat) :
    Covered (columns + glyphWidth n) (limit + glyphWidth n) (.ofCode n) := by
  have hnonneg := h.nonneg
  have hle := h.le
  have hown := Shape.refund_ofCode_le n
  have hcredit := Shape.credit_ofCode n
  constructor <;> omega

end Covered

theorem textWidthFrom_cons (c : Char) (cs : List Char) :
    textWidthFrom (c :: cs) =
      ((textWidthFrom cs).1 + (widthBefore c.toNat (textWidthFrom cs).2).1,
        (widthBefore c.toNat (textWidthFrom cs).2).2) :=
  rfl

theorem head?_of_selector {s : List Char} (h : (textWidthFrom s).2.selector = .emoji) :
    s.head? = some emojiSelector := by
  cases s with
  | nil => cases h
  | cons c cs =>
    rw [textWidthFrom_cons] at h
    have hbefore := before_widthBefore c.toNat (textWidthFrom cs).2
    generalize widthBefore c.toNat (textWidthFrom cs).2 = taken at h hbefore
    obtain ⟨columns, what⟩ := taken
    cases hbefore with
    | emojiSelector hcode => rw [List.head?_cons, Char.toNat_inj.mp hcode]
    | _ => cases h

/-- The step of `covered_textWidthFrom`: a character takes no more than it may. -/
theorem Covered.cons {c : Char} {cs : List Char} {limit : Nat}
    (h : Covered (textWidthFrom cs).1 limit (textWidthFrom cs).2.shape) :
    Covered (textWidthFrom (c :: cs)).1
      (limit + (terminalWidths.soloWidth c + if isWidened c cs then 1 else 0))
      (textWidthFrom (c :: cs)).2.shape := by
  have hown := Nat.add_le_add_left (glyphWidth_le c cs) limit
  have hnonneg := h.nonneg
  have hle := h.le
  have hhead := head?_of_selector (s := cs)
  rw [textWidthFrom_cons]
  have hbefore := before_widthBefore c.toNat (textWidthFrom cs).2
  generalize widthBefore c.toNat (textWidthFrom cs).2 = taken at hbefore
  obtain ⟨more, what⟩ := taken
  cases hbefore with
  | selected hselector hemoji hsome hmost =>
    have hwidened : isWidened c cs = true := by simp [isWidened, hhead hselector]
    have hpos := soloWidth_emoji hemoji
    rw [if_pos hwidened]
    constructor <;> simp only [Shape.refund, Shape.credit] <;> omega
  | emojiSelector _ =>
    exact (Int.add_zero _).symm ▸ h.unselected.behindEmojiSelector.mono (Nat.le_add_right _ _)
  | textSelector =>
    exact (Int.add_zero _).symm ▸ h.unselected.behindSelector.mono (Nat.le_add_right _ _)
  | shownAsText htext hone =>
    have hpos := soloWidth_textPicture htext
    constructor <;> simp only [Shape.refund, Shape.credit] <;> omega
  | joined hjoin => exact (h.unselected.join hjoin).mono hown
  | alone => exact (h.alone c.toNat).mono hown

theorem covered_textWidthFrom (s : List Char) :
    Covered (textWidthFrom s).1 (terminalWidths.soloColumns s + widened s)
      (textWidthFrom s).2.shape := by
  induction s with
  | nil => exact ⟨Int.le_refl 0, Int.le_refl 0⟩
  | cons c cs ih =>
    refine ih.cons.mono (Nat.le_of_eq ?_)
    rw [Widths.soloColumns, widened]
    omega

/-- Text that means nothing to what stands in front of it adds its own columns. -/
theorem textWidthFrom_append {tail : List Char} (h : (textWidthFrom tail).2 = .nothing)
    (s : List Char) : textWidthFrom (s ++ tail) =
      ((textWidthFrom s).1 + (textWidthFrom tail).1, (textWidthFrom s).2) := by
  induction s with
  | nil => simp [textWidthFrom, ← h]
  | cons c cs ih =>
    rw [List.cons_append, textWidthFrom_cons, textWidthFrom_cons, ih]
    simp only [Prod.mk.injEq, and_true]
    omega

theorem terminalWidths_documented : terminalWidths.Documented where
  neighbours := by
    intro s
    have hle := (covered_textWidthFrom s).le
    simp only [terminalWidths, textWidth] at hle ⊢
    omega
  dot := by
    intro s
    have hnonneg := (covered_textWidthFrom s).nonneg
    have hdot : textWidthFrom ['.'] = (1, .nothing) := by decide +kernel
    simp only [terminalWidths, textWidth]
    rw [textWidthFrom_append (by rw [hdot]), hdot]
    omega

end LocaleAudit
