import LocaleAudit.Proofs.Marker
import LocaleAudit.Proofs.Text.Classes

namespace LocaleAudit.Marker

/-!
# Templates of markers

A template is read into single characters and the places of the two languages. Filling the places
one after the other fills them at once, because no image of a language code and no other place can
be a part of a place. So the codes do not decide whether a template renders to text in brackets.
-/

inductive Place where
  | source
  | target
  deriving DecidableEq, Repr

def Place.text : Place → List Char
  | .source => sourcePlace
  | .target => targetPlace

/-- A part of a template: a character that stands for itself, or a place. -/
inductive Part where
  | char (c : Char)
  | place (p : Place)
  deriving DecidableEq, Repr

def part : Recogniser Part := fun _ s =>
  match [Place.source, Place.target].find? fun p => startsWith p.text s with
  | some p => some (.place p, p.text.length)
  | none => s.head?.map fun c => (.char c, 1)

/-- The parts of a template from left to right. -/
def parts (s : List Char) : List Part :=
  scan part s

/-- What a part becomes when every place is given a text. -/
def Part.filled (image : Place → List Char) : Part → List Char
  | .char c => [c]
  | .place p => image p

/-- All places of a template filled at once. -/
def fill (image : Place → List Char) (s : List Char) : List Char :=
  (parts s).flatMap (Part.filled image)

/-- The characters behind the brace that a place begins with. -/
def insideChars : List Char :=
  sourcePlace.tail ++ targetPlace.tail

/-! ## Reading a template -/

theorem Place.text_eq (p : Place) : ∃ inside, p.text = '{' :: inside ∧ '{' ∉ inside ∧
    ∀ c ∈ inside, c ∈ insideChars := by
  cases p
  · exact ⟨sourcePlace.tail, rfl, by decide, fun _ => List.mem_append_left _⟩
  · exact ⟨targetPlace.tail, rfl, by decide, fun _ => List.mem_append_right _⟩

theorem Place.text_ne_nil (p : Place) : p.text ≠ [] := by
  cases p <;> decide

/-- The places do not begin with one another. -/
theorem Place.prefix_iff {p q : Place} {rest : List Char} : p.text <+: q.text ++ rest ↔ p = q := by
  cases p <;> cases q <;> simp [Place.text, sourcePlace, targetPlace]

theorem part_place (before : Option Char) (p : Place) (rest : List Char) :
    part before (p.text ++ rest) = some (.place p, p.text.length) := by
  have hstarts : ∀ q : Place, startsWith q.text (p.text ++ rest) = decide (q = p) := by
    intro q
    rw [Bool.eq_iff_iff, startsWith_iff, Place.prefix_iff, decide_eq_true_iff]
  cases p <;> simp [part, hstarts]

theorem part_char {c : Char} {cs : List Char} (h : ∀ p : Place, ¬p.text <+: c :: cs)
    (before : Option Char) : part before (c :: cs) = some (.char c, 1) := by
  have hstarts : ∀ q : Place, startsWith q.text (c :: cs) = false := by
    intro q
    rw [Bool.eq_false_iff, ne_eq, startsWith_iff]
    exact h q
  simp [part, hstarts]

theorem part_contextFree : part.ContextFree := fun _ _ _ => rfl

theorem parts_nil : parts [] = [] := rfl

theorem parts_place (p : Place) (rest : List Char) :
    parts (p.text ++ rest) = .place p :: parts rest :=
  part_contextFree.scan_match p.text_ne_nil (part_place none p rest)

theorem parts_char {c : Char} {cs : List Char} (h : ∀ p : Place, ¬p.text <+: c :: cs) :
    parts (c :: cs) = .char c :: parts cs := by
  have hpart : part none ([c] ++ cs) = some (.char c, [c].length) := part_char h none
  exact part_contextFree.scan_match (List.cons_ne_nil c []) hpart

/-- A template is empty, or a place or a single character with a template behind it. -/
theorem parts_induction {motive : List Char → Prop} (nil : motive [])
    (place : ∀ p rest, motive rest → motive (Place.text p ++ rest))
    (char : ∀ c cs, (∀ p : Place, ¬p.text <+: c :: cs) → motive cs → motive (c :: cs))
    (s : List Char) : motive s := by
  induction hlength : s.length using Nat.strongRecOn generalizing s with
  | ind length ih =>
    subst hlength
    cases s with
    | nil => exact nil
    | cons c cs =>
      by_cases h : ∃ p : Place, p.text <+: c :: cs
      · obtain ⟨p, rest, hrest⟩ := h
        rw [← hrest] at ih ⊢
        apply place p rest
        refine ih rest.length ?_ rest rfl
        have := List.length_pos_iff.mpr p.text_ne_nil
        rw [List.length_append]
        omega
      · exact char c cs (not_exists.mp h) (ih cs.length (Nat.lt_succ_self _) cs rfl)

theorem fill_place (image : Place → List Char) (p : Place) (rest : List Char) :
    fill image (p.text ++ rest) = image p ++ fill image rest := by
  rw [fill, parts_place, List.flatMap_cons]
  rfl

theorem fill_char (image : Place → List Char) {c : Char} {cs : List Char}
    (h : ∀ p : Place, ¬p.text <+: c :: cs) : fill image (c :: cs) = c :: fill image cs := by
  rw [fill, parts_char h, List.flatMap_cons]
  rfl

/-! ## Filling one place -/

theorem replaceAll_other {p q : Place} (h : p ≠ q) (image rest : List Char) :
    replaceAll p.text image (q.text ++ rest) = q.text ++ replaceAll p.text image rest := by
  obtain ⟨inside, hp, _⟩ := p.text_eq
  obtain ⟨inside', hq, hbrace, _⟩ := q.text_eq
  have hmiss : ¬p.text <+: q.text ++ rest := fun hprefix => h (Place.prefix_iff.mp hprefix)
  rw [hq, List.cons_append] at hmiss ⊢
  rw [replaceAll_miss hmiss, hp, replaceAll_append_of_not_mem hbrace, List.cons_append]

/-- Replacing one place fills it and gives the other one its own text. -/
theorem replaceAll_place (p : Place) (x s : List Char) :
    replaceAll p.text x s = fill (Function.update Place.text p x) s := by
  induction s using parts_induction with
  | nil => rfl
  | place q rest ih =>
    rw [fill_place, ← ih]
    by_cases h : p = q
    · subst h
      rw [replaceAll_match p.text_ne_nil, Function.update_self]
    · rw [replaceAll_other h, Function.update_of_ne (Ne.symm h)]
  | char c cs h ih => rw [fill_char _ h, ← ih, replaceAll_miss (h p)]

/-! ## Reading a filled template -/

/-- A text in the stead of a place: it does not begin inside a place, and what is read behind it is
read as if it stood alone. -/
structure Fits (x : List Char) : Prop where
  outside : ∃ c cs, x = c :: cs ∧ c ∉ insideChars
  parts_append : ∀ rest, parts (x ++ rest) = parts x ++ parts rest

/-- A text that has no character in common with a place, and no brackets. -/
structure IsImage (x : List Char) : Prop where
  ne_nil : x ≠ []
  no_brace : '{' ∉ x
  apart : ∀ c ∈ x, c ∉ insideChars
  no_opening : '[' ∉ x
  no_closing : ']' ∉ x

theorem not_prefix_of_ne_brace {c : Char} (h : '{' ≠ c) (cs : List Char) (p : Place) :
    ¬p.text <+: c :: cs := by
  obtain ⟨inside, hp, _⟩ := p.text_eq
  rw [hp, List.cons_prefix_cons]
  exact fun hprefix => h hprefix.1

theorem parts_append_of_not_mem {x : List Char} (h : '{' ∉ x) (rest : List Char) :
    parts (x ++ rest) = x.map .char ++ parts rest := by
  induction x with
  | nil => rfl
  | cons c cs ih =>
    rw [List.mem_cons, not_or] at h
    rw [List.cons_append, parts_char (not_prefix_of_ne_brace h.1 _), ih h.2]
    rfl

theorem parts_of_not_mem {x : List Char} (h : '{' ∉ x) : parts x = x.map .char := by
  simpa [parts_nil] using parts_append_of_not_mem h []

theorem parts_text (p : Place) : parts p.text = [.place p] := by
  simpa [parts_nil] using parts_place p []

theorem fits_text (p : Place) : Fits p.text where
  outside := by
    obtain ⟨inside, hp, _⟩ := p.text_eq
    exact ⟨'{', inside, hp, by decide⟩
  parts_append := by
    intro rest
    rw [parts_place, parts_text]
    rfl

theorem IsImage.fits {x : List Char} (h : IsImage x) : Fits x where
  outside := by
    obtain ⟨c, cs, rfl⟩ := List.exists_cons_of_ne_nil h.ne_nil
    exact ⟨c, cs, rfl, h.apart c List.mem_cons_self⟩
  parts_append := by
    intro rest
    rw [parts_append_of_not_mem h.no_brace, parts_of_not_mem h.no_brace]

section

variable {image : Place → List Char} (himage : ∀ p, Fits (image p))

include himage

/-- What looks like the inside of a place in a filled template stood there before. -/
theorem prefix_of_prefix_fill {w s : List Char} (hw : ∀ c ∈ w, c ∈ insideChars)
    (h : w <+: fill image s) : w <+: s := by
  induction w generalizing s with
  | nil => exact List.nil_prefix
  | cons d w ih =>
    rw [List.forall_mem_cons] at hw
    cases s using parts_induction with
    | nil => exact h
    | place p rest =>
      obtain ⟨c, cs, hx, hc⟩ := (himage p).outside
      rw [fill_place, hx, List.cons_append, List.cons_prefix_cons] at h
      exact absurd hw.1 (h.1 ▸ hc)
    | char c cs hplain =>
      rw [fill_char image hplain, List.cons_prefix_cons] at h
      exact List.cons_prefix_cons.mpr ⟨h.1, ih hw.2 h.2⟩

theorem not_prefix_fill {c : Char} {cs : List Char} (h : ∀ p : Place, ¬p.text <+: c :: cs)
    (p : Place) : ¬p.text <+: c :: fill image cs := by
  obtain ⟨inside, hp, _, hinside⟩ := p.text_eq
  have hplain := h p
  rw [hp, List.cons_prefix_cons] at hplain ⊢
  rintro ⟨hfirst, hrest⟩
  exact hplain ⟨hfirst, prefix_of_prefix_fill himage hinside hrest⟩

/-- Filling creates no place and destroys none: the places of the filled template are those of the
texts that were filled in. -/
theorem parts_fill (s : List Char) :
    parts (fill image s) = (parts s).flatMap fun
      | .char c => [.char c]
      | .place p => parts (image p) := by
  induction s using parts_induction with
  | nil => rfl
  | place p rest ih =>
    rw [fill_place, parts_place, (himage p).parts_append, ih, List.flatMap_cons]
  | char c cs h ih =>
    rw [fill_char image h, parts_char h, parts_char (not_prefix_fill himage h), ih,
      List.flatMap_cons]
    rfl

theorem fill_fill (image' : Place → List Char) (s : List Char) :
    fill image' (fill image s) = fill (fun p => fill image' (image p)) s := by
  rw [fill, parts_fill himage, List.flatMap_assoc, fill]
  congr 1
  funext q
  cases q with
  | char c => rfl
  | place p => rfl

end

/-! ## Occurrences -/

/-- How often a place is written in a text. -/
def occurrences (p : Place) (s : List Char) : Nat :=
  s.tails.countP fun tail => startsWith p.text tail

theorem occurrences_cons (p : Place) (c : Char) (cs : List Char) :
    occurrences p (c :: cs) =
      occurrences p cs + if startsWith p.text (c :: cs) then 1 else 0 := by
  rw [occurrences, List.tails_cons, List.countP_cons]
  rfl

theorem startsWith_eq_false {p : Place} {s : List Char} (h : ¬p.text <+: s) :
    startsWith p.text s = false := by
  rw [Bool.eq_false_iff, ne_eq, startsWith_iff]
  exact h

theorem occurrences_append_of_not_mem {front : List Char} (h : '{' ∉ front) (p : Place)
    (rest : List Char) : occurrences p (front ++ rest) = occurrences p rest := by
  induction front with
  | nil => rfl
  | cons c cs ih =>
    rw [List.mem_cons, not_or] at h
    have hmiss := startsWith_eq_false (not_prefix_of_ne_brace h.1 (cs ++ rest) p)
    rw [List.cons_append, occurrences_cons, hmiss, ih h.2]
    rfl

theorem count_place_parts (p : Place) (s : List Char) :
    (parts s).count (.place p) = occurrences p s := by
  induction s using parts_induction with
  | nil => cases p <;> rfl
  | place q rest ih =>
    obtain ⟨inside, hq, hbrace, _⟩ := q.text_eq
    have hstarts : startsWith p.text (q.text ++ rest) = decide (q = p) := by
      rw [Bool.eq_iff_iff, startsWith_iff, Place.prefix_iff, decide_eq_true_iff, eq_comm]
    calc
      (parts (q.text ++ rest)).count (.place p) =
          occurrences p rest + if q = p then 1 else 0 := by
        rw [parts_place, List.count_cons, ih]
        simp
      _ = occurrences p (q.text ++ rest) := by
        rw [hq, List.cons_append] at hstarts ⊢
        rw [occurrences_cons, hstarts, occurrences_append_of_not_mem hbrace]
        simp
  | char c cs h ih =>
    rw [parts_char h, List.count_cons, ih, occurrences_cons, startsWith_eq_false (h p)]
    rfl

theorem fits_update {p : Place} {x : List Char} (h : IsImage x) (q : Place) :
    Fits (Function.update Place.text p x q) := by
  by_cases hq : q = p
  · subst hq
    rw [Function.update_self]
    exact h.fits
  · rw [Function.update_of_ne hq]
    exact fits_text q

/-- Replacing one place leaves every occurrence of the other. -/
theorem occurrences_replaceAll {p q : Place} (hne : q ≠ p) {x : List Char} (h : IsImage x)
    (s : List Char) : occurrences q (replaceAll p.text x s) = occurrences q s := by
  rw [replaceAll_place, ← count_place_parts, ← count_place_parts, parts_fill (fits_update h)]
  induction parts s with
  | nil => rfl
  | cons first rest ih =>
    rw [List.flatMap_cons, List.count_append, ih, List.count_cons, Nat.add_comm]
    congr 1
    cases first with
    | char c => rfl
    | place r =>
      by_cases hr : r = p
      · subst hr
        simp [parts_of_not_mem h.no_brace, Ne.symm hne, List.count_eq_zero]
      · simp [hr, parts_text, List.count_singleton]

/-! ## Text in brackets -/

/-- Text that starts with an opening bracket and has its first closing bracket behind at least one
more byte. -/
def InBrackets (s : String) : Prop :=
  ∃ front rest : String, s = "[" ++ front ++ "]" ++ rest ∧ ']' ∉ front.toList ∧
    1 < ("[" ++ front).utf8ByteSize

theorem firstIndex?_isSome_iff {c : Char} {s : List Char} :
    (firstIndex? c s).isSome = true ↔ c ∈ s := by
  induction s with
  | nil => simp [firstIndex?]
  | cons d ds ih =>
    rw [firstIndex?]
    split
    case isTrue h => simp [h]
    case isFalse h => simp [ih, Ne.symm h]

theorem isBracketed_iff {s : List Char} :
    isBracketed s = true ↔ ∃ c cs, s = '[' :: c :: cs ∧ c ≠ ']' ∧ ']' ∈ cs := by
  match s with
  | [] => simp [isBracketed]
  | [c] =>
    by_cases h : c = ']' <;> simp [isBracketed, firstIndex?, h]
  | a :: b :: cs =>
    have hcs := firstIndex?_isSome_iff (c := ']') (s := cs)
    by_cases ha : a = ']'
    · simp [isBracketed, ha]
    by_cases hb : b = ']'
    · simp [isBracketed, firstIndex?, ha, hb]
    · cases hindex : firstIndex? ']' cs <;>
        simp [isBracketed, firstIndex?, ha, hb, hindex] at hcs ⊢ <;> exact fun _ => hcs

theorem isBracketed_iff_inBrackets {s : String} :
    isBracketed s.toList = true ↔ InBrackets s := by
  rw [isBracketed_iff]
  constructor
  · rintro ⟨c, cs, hs, hc, hcs⟩
    obtain ⟨front, rest, rfl, hfront⟩ := List.eq_append_cons_of_mem hcs
    refine ⟨String.ofList (c :: front), String.ofList rest, ?_, ?_, ?_⟩
    · rw [← String.toList_inj, hs]
      simp
    · simp [Ne.symm hc, hfront]
    · have hbracket : "[".utf8ByteSize = 1 := by decide
      have hfirst := Char.utf8Size_pos c
      have hsize : (String.ofList (c :: front)).utf8ByteSize =
          c.utf8Size + (String.ofList front).utf8ByteSize := by simp
      rw [String.utf8ByteSize_append]
      omega
  · rintro ⟨front, rest, rfl, hfront, hbytes⟩
    cases hlist : front.toList with
    | nil =>
      obtain rfl : front = "" := String.toList_eq_nil_iff.mp hlist
      exact absurd hbytes (by decide)
    | cons c cs =>
      rw [hlist, List.mem_cons, not_or] at hfront
      exact ⟨c, cs ++ ']' :: rest.toList, by simp [hlist], Ne.symm hfront.1, by simp⟩

section

variable {image : Place → List Char} (himage : ∀ p, IsImage (image p))

include himage

/-- Every part is filled with some text, and brackets come from the template only. -/
theorem exists_filled_cons (q : Part) : ∃ c cs, q.filled image = c :: cs ∧
    (c = '[' ↔ q = .char '[') ∧ (c = ']' ↔ q = .char ']') ∧ ']' ∉ cs := by
  cases q with
  | char c => exact ⟨c, [], rfl, by simp, by simp, by simp⟩
  | place p =>
    obtain ⟨c, cs, hcons⟩ := List.exists_cons_of_ne_nil (himage p).ne_nil
    have hopening := (himage p).no_opening
    have hclosing := (himage p).no_closing
    rw [hcons, List.mem_cons, not_or] at hopening hclosing
    exact ⟨c, cs, hcons, by simp [Ne.symm hopening.1], by simp [Ne.symm hclosing.1], hclosing.2⟩

theorem closing_mem_iff {qs : List Part} :
    ']' ∈ qs.flatMap (Part.filled image) ↔ .char ']' ∈ qs := by
  rw [List.mem_flatMap]
  constructor
  · rintro ⟨q, hq, hmem⟩
    obtain ⟨c, cs, hfilled, _, hclosing, hrest⟩ := exists_filled_cons himage q
    rw [hfilled, List.mem_cons, or_iff_left hrest] at hmem
    rwa [← hclosing.mp hmem.symm]
  · intro hmem
    exact ⟨_, hmem, List.mem_singleton_self ']'⟩

/-- Whether a filled template is in brackets can be seen from its parts. -/
theorem isBracketed_fill_iff (s : List Char) :
    isBracketed (fill image s) = true ↔
      ∃ q qs, parts s = .char '[' :: q :: qs ∧ q ≠ .char ']' ∧ .char ']' ∈ qs := by
  rw [isBracketed_iff, fill]
  constructor
  · rintro ⟨c, cs, htext, hc, hmem⟩
    cases hparts : parts s with
    | nil =>
      rw [hparts] at htext
      cases htext
    | cons first qs =>
      obtain ⟨d, ds, hfirst, hopening, _⟩ := exists_filled_cons himage first
      rw [hparts, List.flatMap_cons, hfirst, List.cons_append, List.cons.injEq] at htext
      obtain ⟨rfl, hrest⟩ := htext
      obtain rfl : first = .char '[' := hopening.mp rfl
      obtain rfl : [] = ds := (List.cons.inj hfirst).2
      cases qs with
      | nil => cases hrest
      | cons q qs =>
        obtain ⟨e, es, hq, _, hclosing, hes⟩ := exists_filled_cons himage q
        rw [List.nil_append, List.flatMap_cons, hq, List.cons_append, List.cons.injEq] at hrest
        obtain ⟨rfl, rfl⟩ := hrest
        rw [List.mem_append, or_iff_right hes, closing_mem_iff himage] at hmem
        exact ⟨q, qs, rfl, fun h => hc (hclosing.mpr h), hmem⟩
  · rintro ⟨q, qs, hparts, hq, hmem⟩
    obtain ⟨c, cs, hfilled, _, hclosing, _⟩ := exists_filled_cons himage q
    refine ⟨c, cs ++ qs.flatMap (Part.filled image), ?_, fun h => hq (hclosing.mp h), ?_⟩
    · rw [hparts, List.flatMap_cons, List.flatMap_cons, hfilled]
      rfl
    · exact List.mem_append_right _ ((closing_mem_iff himage).mpr hmem)

end

/-! ## Language codes -/

def isCodeChar (c : Char) : Bool :=
  isAsciiLetter c || isAsciiDigit c || c == '-' || c == '_'

/-- A language code of ASCII letters, digits, `-` and `_`. -/
structure IsAsciiCode (code : String) : Prop where
  ne_empty : code ≠ ""
  chars : ∀ c ∈ code.toList, isCodeChar c = true

theorem toNat_lt_of_isCodeChar {c : Char} (h : isCodeChar c = true) : c.toNat < 128 := by
  simp only [isCodeChar, isAsciiLetter, isAsciiDigit, Bool.or_eq_true, Bool.and_eq_true,
    decide_eq_true_eq, beq_iff_eq, le_toNat_iff] at h
  rcases h with (((⟨_, h⟩ | ⟨_, h⟩) | ⟨_, h⟩) | rfl) | rfl
  · exact h.trans_lt (by decide)
  · exact h.trans_lt (by decide)
  · exact h.trans_lt (by decide)
  · decide
  · decide

theorem upperChar_ascii {c : Char} (hc : c.toNat < 128) :
    isCodeChar c = true →
      upperChar c ≠ [] ∧
        (upperChar c).all (fun d => d ∉ '{' :: '[' :: ']' :: insideChars) = true := by
  apply of_ascii _ hc
  decide +kernel

theorem IsAsciiCode.isImage {code : String} (h : IsAsciiCode code) :
    IsImage (upperCase code).toList := by
  have hupper : (upperCase code).toList = code.toList.flatMap upperChar := String.toList_ofList
  have hchars : ∀ d ∈ (upperCase code).toList, d ∉ '{' :: '[' :: ']' :: insideChars := by
    intro d hd
    rw [hupper, List.mem_flatMap] at hd
    obtain ⟨c, hc, hd⟩ := hd
    have hcode := h.chars c hc
    have hall := (upperChar_ascii (toNat_lt_of_isCodeChar hcode) hcode).2
    exact of_decide_eq_true (List.all_eq_true.mp hall d hd)
  refine ⟨?_, fun hd => hchars _ hd (by simp), fun d hd hinside => hchars d hd (by simp [hinside]),
    fun hd => hchars _ hd (by simp), fun hd => hchars _ hd (by simp)⟩
  obtain ⟨c, cs, hcode⟩ := List.exists_cons_of_ne_nil (mt String.toList_eq_nil_iff.mp h.ne_empty)
  have hc : isCodeChar c = true := h.chars c (by simp [hcode])
  have hfirst := (upperChar_ascii (toNat_lt_of_isCodeChar hc) hc).1
  rw [hupper, hcode, List.flatMap_cons]
  exact List.append_ne_nil_of_left_ne_nil hfirst _

/-! ## One sample for all codes -/

/-- The texts for the places of a template: the codes in upper case. -/
def codeImage (source target : String) : Place → List Char
  | .source => (upperCase source).toList
  | .target => (upperCase target).toList

variable {source target : String}

theorem isImage_codeImage (hsource : IsAsciiCode source) (htarget : IsAsciiCode target)
    (p : Place) : IsImage (codeImage source target p) := by
  cases p with
  | source => exact hsource.isImage
  | target => exact htarget.isImage

theorem fill_text (image : Place → List Char) (p : Place) : fill image p.text = image p := by
  rw [fill, parts_text]
  simp [Part.filled]

theorem fill_of_not_mem (image : Place → List Char) {x : List Char} (h : '{' ∉ x) :
    fill image x = x := by
  rw [fill, parts_of_not_mem h]
  simp [List.flatMap_map, Part.filled]

theorem render_eq_fill (hsource : IsAsciiCode source) (m : Marker) :
    (m.render source target).toList = fill (codeImage source target) m.template.toList := by
  have hfirst := replaceAll_place .source (upperCase source).toList m.template.toList
  have hsecond := replaceAll_place .target (upperCase target).toList
  rw [render, String.toList_ofList]
  calc
    replaceAll targetPlace (upperCase target).toList
        (replaceAll sourcePlace (upperCase source).toList m.template.toList) =
      fill (Function.update Place.text .target (upperCase target).toList)
        (fill (Function.update Place.text .source (upperCase source).toList)
          m.template.toList) := by
      rw [← hfirst, ← hsecond]
      rfl
    _ = fill (codeImage source target) m.template.toList := by
      rw [fill_fill (fits_update hsource.isImage)]
      congr 1
      funext p
      cases p with
      | source => exact fill_of_not_mem _ hsource.isImage.no_brace
      | target => exact fill_text _ .target

theorem inBrackets_render_iff (hsource : IsAsciiCode source) (htarget : IsAsciiCode target)
    (m : Marker) : InBrackets (m.render source target) ↔
      ∃ q qs, parts m.template.toList = .char '[' :: q :: qs ∧ q ≠ .char ']' ∧ .char ']' ∈ qs := by
  rw [← isBracketed_iff_inBrackets, render_eq_fill hsource,
    isBracketed_fill_iff (isImage_codeImage hsource htarget)]

theorem ofTemplate_eq_ok_iff {template : String} {m : Marker} :
    ofTemplate template = .ok m ↔ m = ⟨template⟩ ∧ InBrackets (m.render "en" "fr") := by
  rw [ofTemplate]
  by_cases h : isBracketed ((⟨template⟩ : Marker).render "en" "fr").toList = true
  · rw [if_pos h, Except.ok.injEq, eq_comm]
    refine (and_iff_left_of_imp ?_).symm
    rintro rfl
    exact isBracketed_iff_inBrackets.mp h
  · rw [if_neg h]
    refine iff_of_false (by simp) ?_
    rintro ⟨rfl, hbrackets⟩
    exact h (isBracketed_iff_inBrackets.mpr hbrackets)

theorem isAsciiCode_en : IsAsciiCode "en" :=
  ⟨by decide, List.all_eq_true.mp (by decide)⟩

theorem isAsciiCode_fr : IsAsciiCode "fr" :=
  ⟨by decide, List.all_eq_true.mp (by decide)⟩

/-- A template is accepted exactly if it renders to text in brackets for any one pair of codes, and
so for all. Rendering fills both places at once: replacing one place leaves every occurrence of the
other and makes no new one. -/
theorem ofTemplate_sample (hsource : IsAsciiCode source) (htarget : IsAsciiCode target) :
    (∀ template m, ofTemplate template = .ok m ↔
      m = ⟨template⟩ ∧ InBrackets (m.render source target)) ∧
    (∀ m : Marker, (m.render source target).toList =
      fill (codeImage source target) m.template.toList) ∧
    ∀ (p q : Place) (s : List Char), q ≠ p →
      occurrences q (replaceAll p.text (codeImage source target p) s) = occurrences q s := by
  refine ⟨fun template m => ?_, render_eq_fill hsource, fun p q s hne => ?_⟩
  · rw [ofTemplate_eq_ok_iff, inBrackets_render_iff isAsciiCode_en isAsciiCode_fr,
      inBrackets_render_iff hsource htarget]
  · exact occurrences_replaceAll hne (isImage_codeImage hsource htarget p) s

/-- A place inside what looks like the other one. -/
def nestedTemplate : String := "[\x7btar\x7bsource\x7dget\x7d \x7btarget\x7d] "

theorem ofTemplate_sample_nested :
    IsAsciiCode "pt-BR" ∧ IsAsciiCode "zh_Hant" ∧
      ofTemplate nestedTemplate = .ok ⟨nestedTemplate⟩ ∧
      InBrackets ((⟨nestedTemplate⟩ : Marker).render "pt-BR" "zh_Hant") ∧
      (⟨nestedTemplate⟩ : Marker).render "pt-BR" "zh_Hant" =
        "[\x7btarPT-BRget\x7d ZH_HANT] " ∧
      Place.target ≠ .source ∧
      occurrences .target (replaceAll Place.source.text "PT-BR".toList nestedTemplate.toList) =
        1 := by
  have hsource : IsAsciiCode "pt-BR" := ⟨by decide, List.all_eq_true.mp (by decide)⟩
  have htarget : IsAsciiCode "zh_Hant" := ⟨by decide, List.all_eq_true.mp (by decide)⟩
  have haccepted : ofTemplate nestedTemplate = .ok ⟨nestedTemplate⟩ := by decide +kernel
  obtain ⟨hbrackets, hfill, hothers⟩ := ofTemplate_sample hsource htarget
  have hone := hothers .source .target nestedTemplate.toList (by decide)
  refine ⟨hsource, htarget, haccepted, ((hbrackets _ _).mp haccepted).2, ?_, by decide, ?_⟩
  · rw [← String.toList_inj, hfill]
    decide +kernel
  · have himage : codeImage "pt-BR" "zh_Hant" .source = "PT-BR".toList := by decide +kernel
    rw [← himage, hone]
    decide +kernel

end LocaleAudit.Marker
