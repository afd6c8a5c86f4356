import LocaleAudit.Proofs.Text.Classes
import LocaleAudit.Proofs.Text.Matches
import LocaleAudit.Source.Extractor

namespace LocaleAudit

/-!
# Calls in source text

Where calls stand apart from each other, their keys are found one after the other, whatever the keys
hold: the search goes on behind the closing quote, and no call begins in the text between them.
-/

namespace Grammar

/-- The sign that may stand in front of the name of a call. -/
def dollarText : Bool → List Char
  | true => ['$']
  | false => []

/-- A call as it is written: its name, a parenthesis, blanks, and a key in quotes on one line. -/
structure Call where
  dollar : Bool
  blanks : List Char
  quote : Char
  key : List Char
  blanks_blank : ∀ c ∈ blanks, isBlank c = true
  quote_isQuote : isQuote quote = true
  key_ne_nil : key ≠ []
  key_inside : quote ∉ key ∧ '\n' ∉ key

def Call.text (w : Call) : List Char :=
  dollarText w.dollar ++ (['t', '('] ++ (w.blanks ++ (w.quote :: (w.key ++ [w.quote]))))

/-- Text in which no call begins. -/
def CallFree (chunk : List Char) : Prop :=
  ¬['t', '('] <:+: chunk

/-- Text behind which a name may begin. -/
def EndsOutside (chunk : List Char) : Prop :=
  ∃ c ∈ chunk.getLast?, isIdentifierChar c = false

instance (chunk : List Char) : Decidable (CallFree chunk) :=
  decidable_of_iff (¬containsText ['t', '('] chunk = true) (not_congr containsText_iff)

instance (chunk : List Char) : Decidable (EndsOutside chunk) :=
  decidable_of_iff (chunk.getLast?.any (!isIdentifierChar ·) = true) (by
    simp [EndsOutside, Option.any_eq_true])

/-- Text with calls in it, cut in front of each call and behind it. Only the first call may stand
at the very beginning. -/
structure CallText where
  /-- What stands in front of a call, and the call. -/
  pieces : List (List Char × Call)
  last : List Char
  pieces_free : ∀ p ∈ pieces, CallFree p.1
  last_free : CallFree last
  first_outside : ∀ p ∈ pieces.head?, p.1 = [] ∨ EndsOutside p.1
  more_outside : ∀ p ∈ pieces.tail, EndsOutside p.1

def pieceText (p : List Char × Call) : List Char :=
  p.1 ++ p.2.text

def CallText.text (t : CallText) : String :=
  String.ofList (t.pieces.flatMap pieceText ++ t.last)

/-- The keys of the calls in order, repetitions included. -/
def CallText.keys (t : CallText) : List String :=
  t.pieces.map fun p => String.ofList p.2.key

/-! ## One call -/

theorem isBlank_of_isQuote {c : Char} (h : isQuote c = true) : isBlank c = false := by
  simp only [isQuote, Bool.or_eq_true, beq_iff_eq] at h
  rcases h with (rfl | rfl) | rfl <;> decide

theorem takeQuoted?_append {allowed : Char → Bool} {quote : Char} {key : List Char}
    (hquote : allowed quote = true) (hne : key ≠ []) (hinside : quote ∉ key ∧ '\n' ∉ key)
    (rest : List Char) :
    takeQuoted? allowed (quote :: (key ++ quote :: rest)) = some (key, rest) := by
  have hkey := forall_ne_and_ne_iff.mpr hinside
  have hend : ∀ c ∈ (quote :: rest).head?, (c != quote && c != '\n') = false := by simp
  obtain ⟨htake, hdrop⟩ := span_append hkey hend
  rw [takeQuoted?, if_pos hquote, hdrop]
  simp [htake, hne]

theorem Call.takeCall?_append (w : Call) (rest : List Char) :
    takeCall? (w.text ++ rest) = some (w.key, rest) := by
  have hname : ((stripStart? ['$'] (w.text ++ rest)).getD (w.text ++ rest)) =
      't' :: '(' :: (w.blanks ++ (w.quote :: (w.key ++ w.quote :: rest))) := by
    cases hdollar : w.dollar <;> simp [Call.text, hdollar, dollarText, stripStart?]
  have hquote : ∀ c ∈ (w.quote :: (w.key ++ w.quote :: rest)).head?, isBlank c = false := by
    simpa using isBlank_of_isQuote w.quote_isQuote
  simp [takeCall?, takeArgument?, hname, stripStart?, trimStart_append w.blanks_blank hquote,
    takeQuoted?_append w.quote_isQuote w.key_ne_nil w.key_inside]

theorem exists_of_takeCall? {s : List Char} {found : List Char × List Char}
    (h : takeCall? s = some found) :
    ∃ dollar rest, s = dollarText dollar ++ ['t', '('] ++ rest := by
  obtain ⟨inside, hname, hargument⟩ := Option.bind_eq_some_iff.mp h
  obtain ⟨rest, hopen, _⟩ := Option.bind_eq_some_iff.mp hargument
  have hinside := eq_append_of_stripStart? hname
  rw [eq_append_of_stripStart? hopen] at hinside
  cases hdollar : stripStart? ['$'] s with
  | none => exact ⟨false, rest, by simpa [hdollar, dollarText] using hinside⟩
  | some behind =>
    have hs := eq_append_of_stripStart? hdollar
    rw [hdollar, Option.getD_some] at hinside
    exact ⟨true, rest, by simp [hs, hinside, dollarText]⟩

/-! ## Text without calls -/

/-- The beginnings of a call end inside a name, or they hold the parenthesis. -/
theorem beginning_of_call {dollar : Bool} {chunk : List Char}
    (h : chunk <+: dollarText dollar ++ ['t', '(']) (hne : chunk ≠ []) :
    ['t', '('] <:+: chunk ∨ ∀ c ∈ chunk.getLast?, isIdentifierChar c = true := by
  have hname : isIdentifierChar '$' = true ∧ isIdentifierChar 't' = true := by decide
  rw [← List.mem_inits] at h
  cases dollar with
  | false =>
    have hcases : chunk = [] ∨ chunk = ['t'] ∨ chunk = ['t', '('] := by
      simpa [dollarText] using h
    rcases hcases with rfl | rfl | rfl
    · exact absurd rfl hne
    · exact Or.inr (by simp [hname])
    · exact Or.inl List.infix_rfl
  | true =>
    have hcases : chunk = [] ∨ chunk = ['$'] ∨ chunk = ['$', 't'] ∨ chunk = ['$', 't', '('] := by
      simpa [dollarText] using h
    rcases hcases with rfl | rfl | rfl | rfl
    · exact absurd rfl hne
    · exact Or.inr (by simp [hname])
    · exact Or.inr (by simp [hname])
    · exact Or.inl (List.suffix_cons '$' _).isInfix

theorem CallFree.of_suffix {chunk tail : List Char} (h : CallFree chunk) (ht : tail <:+ chunk) :
    CallFree tail :=
  fun hcall => h (hcall.trans ht.isInfix)

theorem takeCall?_chunk {chunk rest : List Char} (hne : chunk ≠ []) (hfree : CallFree chunk)
    (hend : rest = [] ∨ EndsOutside chunk) : takeCall? (chunk ++ rest) = none := by
  rw [Option.eq_none_iff_forall_ne_some]
  intro found hfound
  obtain ⟨dollar, behind, hcall⟩ := exists_of_takeCall? hfound
  have hinside : ['t', '('] <:+: dollarText dollar ++ ['t', '('] :=
    (List.suffix_append _ _).isInfix
  have hopening : dollarText dollar ++ ['t', '('] <+: chunk ++ rest := by
    rw [hcall]
    exact List.prefix_append _ _
  rcases hend with rfl | ⟨c, hc, hchar⟩
  · rw [List.append_nil] at hopening
    exact hfree (hinside.trans hopening.isInfix)
  have hchunk : chunk <+: chunk ++ rest := List.prefix_append chunk rest
  rcases List.prefix_or_prefix_of_prefix hopening hchunk with hlong | hshort
  · exact hfree (hinside.trans hlong.isInfix)
  · rcases beginning_of_call hshort hne with hcall | hlast
    · exact hfree hcall
    · rw [hlast c hc] at hchar
      cases hchar

/-! ## Scanning -/

theorem call_eq_none {before : Option Char} {c : Char} {cs : List Char}
    (hhere : takeCall? (c :: cs) = none) (hbehind : takeCall? cs = none) :
    call before (c :: cs) = none := by
  simp [call, behindBoundary, hhere, hbehind]

theorem call_behind {before : Option Char} {c : Char} (w : Call) {rest : List Char}
    (hhere : takeCall? (c :: (w.text ++ rest)) = none) (hc : isIdentifierChar c = false) :
    call before (c :: w.text ++ rest) = some (w.key, (c :: w.text).length) := by
  simp only [call, behindBoundary, List.cons_append, hhere, hc, w.takeCall?_append]
  simp [Nat.sub_add_comm]

theorem Call.call_first (w : Call) (rest : List Char) :
    call none (w.text ++ rest) = some (w.key, w.text.length) := by
  simp [call, behindBoundary, w.takeCall?_append]

theorem Call.text_ne_nil (w : Call) : w.text ≠ [] := by
  cases hdollar : w.dollar <;> simp [Call.text, hdollar, dollarText]

/-- A call is found where the text in front of it ends, and the search goes on behind it. -/
theorem scanFrom_piece {chunk : List Char} (w : Call) (hfree : CallFree chunk)
    (hend : EndsOutside chunk) (before : Option Char) (rest : List Char) :
    ∃ last, scanFrom call before 0 (chunk ++ (w.text ++ rest)) =
      w.key :: scanFrom call last 0 rest := by
  induction chunk generalizing before with
  | nil =>
    obtain ⟨c, hc, _⟩ := hend
    cases hc
  | cons c cs ih =>
    have hhere : takeCall? (c :: cs ++ (w.text ++ rest)) = none :=
      takeCall?_chunk (List.cons_ne_nil c cs) hfree (Or.inr hend)
    cases cs with
    | nil =>
      obtain ⟨d, hd, hchar⟩ := hend
      obtain rfl : c = d := by simpa using hd
      exact ⟨_, scanFrom_front (List.cons_ne_nil c w.text) (call_behind w hhere hchar)⟩
    | cons d ds =>
      have hfree' : CallFree (d :: ds) := hfree.of_suffix (List.suffix_cons c _)
      have hend' : EndsOutside (d :: ds) := by
        simpa [EndsOutside, List.getLast?_cons] using hend
      have hbehind : takeCall? (d :: ds ++ (w.text ++ rest)) = none :=
        takeCall?_chunk (List.cons_ne_nil d ds) hfree' (Or.inr hend')
      obtain ⟨last, hlast⟩ := ih hfree' hend' (some c)
      exact ⟨last, (scanFrom_miss (call_eq_none hhere hbehind)).trans hlast⟩

theorem scanFrom_last {chunk : List Char} (hfree : CallFree chunk) (before : Option Char) :
    scanFrom call before 0 chunk = [] := by
  have hnone : ∀ tail, tail <:+ chunk → takeCall? tail = none := by
    intro tail htail
    cases tail with
    | nil => rfl
    | cons c cs =>
      simpa using takeCall?_chunk (List.cons_ne_nil c cs) (hfree.of_suffix htail) (Or.inl rfl)
  induction chunk generalizing before with
  | nil => rfl
  | cons c cs ih =>
    have htail : cs <:+ c :: cs := List.suffix_cons c cs
    rw [scanFrom_miss (call_eq_none (hnone _ (List.suffix_refl _)) (hnone _ htail))]
    exact ih (hfree.of_suffix htail) (some c) fun tail h => hnone tail (h.trans htail)

/-- The search through pieces that all stand apart, from anywhere in the text. -/
theorem scanFrom_pieces {pieces : List (List Char × Call)} {last : List Char}
    (hpieces : ∀ p ∈ pieces, CallFree p.1 ∧ EndsOutside p.1) (hlast : CallFree last)
    (before : Option Char) :
    scanFrom call before 0 (pieces.flatMap pieceText ++ last) = pieces.map fun p => p.2.key := by
  induction pieces generalizing before with
  | nil => exact scanFrom_last hlast before
  | cons p pieces ih =>
    rw [List.forall_mem_cons] at hpieces
    obtain ⟨⟨hfree, hend⟩, hpieces⟩ := hpieces
    obtain ⟨next, hnext⟩ := scanFrom_piece p.2 hfree hend before (pieces.flatMap pieceText ++ last)
    rw [List.flatMap_cons, pieceText, List.append_assoc, List.append_assoc, hnext, List.map_cons,
      ih hpieces next]

theorem scan_callText (t : CallText) :
    scan call (t.pieces.flatMap pieceText ++ t.last) = t.pieces.map fun p => p.2.key := by
  obtain ⟨pieces, last, hfree, hlast, hfirst, hmore⟩ := t
  cases pieces with
  | nil => exact scanFrom_last hlast none
  | cons p pieces =>
    rw [List.forall_mem_cons] at hfree
    have hpieces : ∀ q ∈ pieces, CallFree q.1 ∧ EndsOutside q.1 := fun q hq =>
      ⟨hfree.2 q hq, hmore q hq⟩
    rcases hfirst p rfl with hempty | hend
    · have hfound := p.2.call_first (pieces.flatMap pieceText ++ last)
      have htext : (p :: pieces).flatMap pieceText ++ last =
          p.2.text ++ (pieces.flatMap pieceText ++ last) := by
        simp [pieceText, hempty]
      rw [htext, scan, scanFrom_front p.2.text_ne_nil hfound, scanFrom_pieces hpieces hlast,
        List.map_cons]
    · exact scanFrom_pieces (List.forall_mem_cons.mpr ⟨⟨hfree.1, hend⟩, hpieces⟩) hlast none

end Grammar

/-! ## Keys -/

/-- Where calls stand apart, exactly their keys are found, in order and with repetitions, except
those that are built when the program runs. -/
theorem Matcher.findKeys_callText (t : Grammar.CallText) :
    Matcher.call.findKeys t.text =
      t.keys.filter fun key => !decide (['$', '{'] <:+: key.toList) := by
  have hscan : scan Grammar.call t.text.toList = t.pieces.map fun p => p.2.key := by
    rw [Grammar.CallText.text, String.toList_ofList, Grammar.scan_callText]
  have hcomputed : ∀ key, isComputed key = decide (['$', '{'] <:+: key) := by
    intro key
    rw [Bool.eq_iff_iff, isComputed, containsText_iff, decide_eq_true_iff]
  calc
    Matcher.call.findKeys t.text =
        ((scan Grammar.call t.text.toList).filter (!isComputed ·)).map String.ofList := rfl
    _ = ((t.pieces.map fun p => p.2.key).filter (!isComputed ·)).map String.ofList := by rw [hscan]
    _ = t.keys.filter fun key => !decide (['$', '{'] <:+: key.toList) := by
      rw [Grammar.CallText.keys, List.filter_map, List.filter_map, List.map_map]
      simp [hcomputed, Function.comp_def]

/-- A key may hold what looks like a call, and computed keys are left out. -/
example :
    let plain : Grammar.Call := ⟨false, ['\n'], '\'', ['t', '(', '"'],
      List.forall_mem_singleton.mpr (by decide), by decide, by decide, by decide⟩
    let computed : Grammar.Call := ⟨true, [], '"', ['$', '{'],
      List.forall_mem_nil _, by decide, by decide, by decide⟩
    let t : Grammar.CallText := ⟨[([], plain), ([')', ' '], computed), ([';'], plain)], [')'],
      by simp only [List.forall_mem_cons]; decide, by decide, by decide, by decide⟩
    t.text = "t(\n't(\"') $t(\"$\x7b\";t(\n't(\"')" ∧
      Matcher.call.findKeys t.text = ["t(\"", "t(\""] := by
  decide +kernel

end LocaleAudit
