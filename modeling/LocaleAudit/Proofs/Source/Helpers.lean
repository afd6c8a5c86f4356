import LocaleAudit.Proofs.Text.Classes
import LocaleAudit.Source.Extractor

namespace LocaleAudit

/-!
# Names of helpers

A name without a parenthesis is called where it is all the text up to the next parenthesis. So at
one place at most one name is called, and it makes no difference in which order the names are tried,
how often one is listed or whether one begins with another.
-/

namespace Grammar

variable {names : List (List Char)} {name s : List Char}

/-- The text up to the first opening parenthesis. -/
def calledName (s : List Char) : List Char :=
  s.takeWhile (· != '(')

def behindName (s : List Char) : List Char :=
  s.dropWhile (· != '(')

/-- A call of one of a set of names. -/
def takeNamed? (isName : List Char → Bool) (s : List Char) : Option (List Char × List Char) :=
  if isName (calledName s) then takeArgument? (behindName s) else none

/-! ## Which name is called -/

theorem calledName_append (hname : '(' ∉ name) (rest : List Char) :
    calledName (name ++ '(' :: rest) = name := by
  have hrun : ∀ c ∈ name, (c != '(') = true := by
    rintro c hc
    rw [bne_iff_ne]
    rintro rfl
    exact hname hc
  exact (span_append hrun (by simp)).1

theorem exists_cons_of_takeArgument? {found : List Char × List Char}
    (h : takeArgument? s = some found) : ∃ rest, s = '(' :: rest := by
  obtain ⟨rest, hopen, _⟩ := Option.bind_eq_some_iff.mp h
  exact ⟨rest, eq_append_of_stripStart? hopen⟩

/-- Only the text up to the parenthesis can be the name of a call. -/
theorem takeArgument?_behind_name (hname : '(' ∉ name) (s : List Char) :
    (stripStart? name s).bind takeArgument? =
      if name = calledName s then takeArgument? (behindName s) else none := by
  split
  case isTrue hcalled =>
    have hs : stripStart? name s = some (behindName s) := by
      have hsplit : s = name ++ behindName s := by
        rw [hcalled]
        exact List.takeWhile_append_dropWhile.symm
      calc
        stripStart? name s = stripStart? name (name ++ behindName s) := by rw [← hsplit]
        _ = some (behindName s) := stripStart?_append name (behindName s)
    rw [hs, Option.bind_some]
  case isFalse hother =>
    rw [Option.eq_none_iff_forall_ne_some]
    intro found hfound
    obtain ⟨behind, hstrip, hargument⟩ := Option.bind_eq_some_iff.mp hfound
    obtain ⟨rest, rfl⟩ := exists_cons_of_takeArgument? hargument
    apply hother
    rw [eq_append_of_stripStart? hstrip, calledName_append hname]

theorem takeHelper?_eq_takeNamed? (hnames : ∀ name ∈ names, '(' ∉ name) :
    takeHelper? names = takeNamed? (decide <| · ∈ names) := by
  funext s
  rw [takeHelper?, takeNamed?]
  induction names with
  | nil => rfl
  | cons name names ih =>
    rw [List.forall_mem_cons] at hnames
    obtain ⟨hname, hnames⟩ := hnames
    rw [List.findSome?_cons, ih hnames, takeArgument?_behind_name hname]
    by_cases hcalled : calledName s = name
    · -- The other names can only find what this one finds.
      cases hargument : takeArgument? (behindName s) <;> simp [hcalled]
    · simp [hcalled, Ne.symm hcalled]

end Grammar

namespace Matcher

variable {names names' : List String}

/-- The matcher for the calls of a set of names. -/
def ofNames (isName : List Char → Bool) : Matcher :=
  ofRecogniser "helper" <|
    Grammar.behindBoundary (fun c => isIdentifierChar c || c == '.') (Grammar.takeNamed? isName)

/-- A name of the list, without the blanks around it, that is not only blank. -/
def IsTrimmedName (names : List String) (w : List Char) : Prop :=
  w ≠ [] ∧ ∃ n ∈ names, trim n.toList = w

instance (names : List String) : DecidablePred (IsTrimmedName names) := fun w =>
  inferInstanceAs (Decidable (w ≠ [] ∧ ∃ n ∈ names, trim n.toList = w))

def trimmedNames (names : List String) : List String :=
  (names.map fun n => String.ofList (trim n.toList)).filter (!·.isEmpty)

/-! ## Trimmed names -/

theorem mem_of_mem_trim {c : Char} {s : List Char} (h : c ∈ trim s) : c ∈ s := by
  rw [trim, trimEnd, List.mem_reverse] at h
  have hstart := (List.dropWhile_suffix isBlank).subset h
  rw [List.mem_reverse] at hstart
  exact (List.dropWhile_suffix isBlank).subset hstart

theorem mem_trimmedNames {w : List Char} :
    w ∈ (trimmedNames names).map String.toList ↔ IsTrimmedName names w := by
  constructor
  · intro h
    obtain ⟨text, htext, rfl⟩ := List.mem_map.mp h
    obtain ⟨hmem, hne⟩ := List.mem_filter.mp htext
    obtain ⟨n, hn, rfl⟩ := List.mem_map.mp hmem
    refine ⟨?_, n, hn, by simp⟩
    simpa [String.isEmpty_iff] using hne
  · rintro ⟨hne, n, hn, rfl⟩
    refine List.mem_map.mpr ⟨String.ofList (trim n.toList), ?_, by simp⟩
    refine List.mem_filter.mpr ⟨List.mem_map.mpr ⟨n, hn, rfl⟩, ?_⟩
    simpa [String.isEmpty_iff] using hne

theorem not_mem_of_mem_trimmedNames (hnames : ∀ n ∈ names, '(' ∉ n.toList) :
    ∀ w ∈ (trimmedNames names).map String.toList, '(' ∉ w := by
  intro w hw hparen
  obtain ⟨_, n, hn, rfl⟩ := mem_trimmedNames.mp hw
  exact hnames n hn (mem_of_mem_trim hparen)

/-! ## The matcher of a list -/

theorem trimmedNames_eq_nil_iff : trimmedNames names = [] ↔ ¬∃ w, IsTrimmedName names w := by
  rw [← List.map_eq_nil_iff (f := String.toList), List.eq_nil_iff_forall_not_mem]
  simp only [mem_trimmedNames, not_exists]

theorem ofHelpers_eq (names : List String) :
    ofHelpers names =
      if trimmedNames names = [] then .error (.config .noHelperNames)
      else .ok (helper (trimmedNames names)) := by
  rw [ofHelpers, trimmedNames]
  split
  case h_1 hnil => rw [if_pos hnil]
  case h_2 hcons => simp [hcons]

theorem helper_trimmedNames (hnames : ∀ n ∈ names, '(' ∉ n.toList) :
    helper (trimmedNames names) = ofNames (decide <| IsTrimmedName names ·) := by
  have hfree := not_mem_of_mem_trimmedNames hnames
  rw [helper, ofNames, Grammar.helper, Grammar.takeHelper?_eq_takeNamed? hfree]
  simp only [mem_trimmedNames]

theorem ofHelpers_eq_ok (hnames : ∀ n ∈ names, '(' ∉ n.toList) (h : ∃ w, IsTrimmedName names w) :
    ofHelpers names = .ok (ofNames (decide <| IsTrimmedName names ·)) := by
  rw [ofHelpers_eq, if_neg (fun hnil => trimmedNames_eq_nil_iff.mp hnil h),
    helper_trimmedNames hnames]

theorem ofHelpers_eq_error (h : ¬∃ w, IsTrimmedName names w) :
    ofHelpers names = .error (.config .noHelperNames) := by
  rw [ofHelpers_eq, if_pos (trimmedNames_eq_nil_iff.mpr h)]

/-- Lists with the same names, in any order and with any repetitions, make the same matcher or are
both refused. A list is refused when all its names are blank; otherwise a call is found where the
text up to the parenthesis is one of its names. -/
theorem ofHelpers_nameSet (hnames : ∀ n ∈ names, '(' ∉ n.toList)
    (hnames' : ∀ n ∈ names', '(' ∉ n.toList)
    (hsame : ∀ w, IsTrimmedName names w ↔ IsTrimmedName names' w) :
    ofHelpers names = ofHelpers names' ∧
      ((∃ m, ofHelpers names = .ok m) ↔ ∃ w, IsTrimmedName names w) ∧
      ∀ m, ofHelpers names = .ok m → ∀ text,
        m.findKeys text = (ofNames (decide <| IsTrimmedName names ·)).findKeys text := by
  have hset : (fun w => decide (IsTrimmedName names w)) =
      fun w => decide (IsTrimmedName names' w) := by
    simp only [hsame]
  have hexists : (∃ w, IsTrimmedName names w) ↔ ∃ w, IsTrimmedName names' w := by
    simp only [hsame]
  by_cases h : ∃ w, IsTrimmedName names w
  · have hok := ofHelpers_eq_ok hnames h
    refine ⟨?_, iff_of_true ⟨_, hok⟩ h, ?_⟩
    · rw [hok, ofHelpers_eq_ok hnames' (hexists.mp h), hset]
    · intro m hm text
      obtain rfl : ofNames (decide <| IsTrimmedName names ·) = m :=
        Except.ok.inj (hok.symm.trans hm)
      rfl
  · have herror := ofHelpers_eq_error h
    refine ⟨?_, iff_of_false ?_ h, ?_⟩
    · rw [herror, ofHelpers_eq_error (mt hexists.mpr h)]
    · rintro ⟨m, hm⟩
      rw [herror] at hm
      cases hm
    · intro m hm
      rw [herror] at hm
      cases hm

/-- Names that begin with one another, with blanks and repetitions, in two orders. -/
theorem ofHelpers_nameSet_translate :
    (∀ n ∈ ["tr", " translate", "", "tr"], '(' ∉ n.toList) ∧
      (∀ n ∈ ["translate ", "tr"], '(' ∉ n.toList) ∧
      (∀ w, IsTrimmedName ["tr", " translate", "", "tr"] w ↔
        IsTrimmedName ["translate ", "tr"] w) ∧
      ofHelpers ["tr", " translate", "", "tr"] = ofHelpers ["translate ", "tr"] ∧
      (ofHelpers ["tr", " translate", "", "tr"]).toOption.map
          (·.findKeys "translate('a.b') tr( \"c\") trans('d')") = some ["a.b", "c"] := by
  have hnames : ∀ n ∈ ["tr", " translate", "", "tr"], '(' ∉ n.toList := by decide
  have hnames' : ∀ n ∈ ["translate ", "tr"], '(' ∉ n.toList := by decide
  have hsame : ∀ w, IsTrimmedName ["tr", " translate", "", "tr"] w ↔
      IsTrimmedName ["translate ", "tr"] w := by
    have htr : trim "tr".toList = "tr".toList := by decide
    have hfront : trim " translate".toList = "translate".toList := by decide
    have hbehind : trim "translate ".toList = "translate".toList := by decide
    have hempty : trim "".toList = [] := rfl
    intro w
    simp only [IsTrimmedName, List.mem_cons, List.not_mem_nil, or_false, exists_eq_or_imp,
      exists_eq_left, htr, hfront, hbehind, hempty]
    grind
  have hlist := ofHelpers_nameSet hnames hnames' hsame
  refine ⟨hnames, hnames', hsame, hlist.1, ?_⟩
  decide +kernel

end Matcher

end LocaleAudit
