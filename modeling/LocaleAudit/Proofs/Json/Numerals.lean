import LocaleAudit.Proofs.Json.Strings

namespace LocaleAudit.Json

/-!
# Numerals read back

A number is read as its numeral stands there: the digits before the point, those behind it, and an
exponent. Integers are written as numerals that give them back.
-/

def IsDigits (ds : List Char) : Prop :=
  ds ≠ [] ∧ ∀ c ∈ ds, isDigit c = true

/-- What stands behind a number does not go on with it. -/
def EndsNumber (rest : List Char) : Prop :=
  ∀ c ∈ rest.head?, isDigit c = false ∧ c ≠ '.' ∧ c ≠ 'e' ∧ c ≠ 'E'

theorem endsNumber_cons {c : Char} {rest : List Char} :
    EndsNumber (c :: rest) ↔ isDigit c = false ∧ c ≠ '.' ∧ c ≠ 'e' ∧ c ≠ 'E' := by
  simp [EndsNumber]

namespace Numeral

def fractionText : Option (List Char) → List Char
  | none => []
  | some ds => '.' :: ds

def exponentText : Option (Bool × List Char) → List Char
  | none => []
  | some (down, ds) => 'e' :: (if down then '-' else '+') :: ds

/-- A numeral as it is written, behind its sign. -/
def text (n : Numeral) : List Char :=
  n.whole ++ (fractionText n.fraction ++ exponentText n.exponent)

/-- There are digits wherever digits must be, and a zero in front stands alone. -/
structure Proper (n : Numeral) : Prop where
  whole : IsDigits n.whole
  zero_alone : ∀ ds, n.whole = '0' :: ds → ds = []
  fraction : ∀ ds ∈ n.fraction, IsDigits ds
  exponent : ∀ e ∈ n.exponent, IsDigits e.2

end Numeral

/-! ## Parts of a numeral -/

section

variable {ds rest : List Char}

theorem takes_digits (hds : IsDigits ds) (hrest : ∀ c ∈ rest.head?, isDigit c = false) :
    Reader.Takes readDigits (ds ++ rest) ds rest := by
  obtain ⟨hne, hdigits⟩ := hds
  cases ds with
  | nil => exact absurd rfl hne
  | cons d ds =>
    rw [List.forall_mem_cons] at hdigits
    have htake : (ds ++ rest).takeWhile isDigit = ds := by
      rw [List.takeWhile_append_of_pos hdigits.2]
      cases rest with
      | nil => simp
      | cons c rest => simp [hrest c (by simp)]
    have hdrop : (ds ++ rest).dropWhile isDigit = rest := by
      rw [List.dropWhile_append_of_pos hdigits.2]
      cases rest with
      | nil => simp
      | cons c rest => simp [hrest c (by simp)]
    refine ⟨by simp only [List.cons_append, List.length_cons, List.length_append]; omega, ?_⟩
    simp only [List.cons_append, readDigits, hdigits.1, if_true, htake, hdrop]

theorem takes_whole (hds : IsDigits ds) (hzero : ∀ tail, ds = '0' :: tail → tail = [])
    (hrest : ∀ c ∈ rest.head?, isDigit c = false) :
    Reader.Takes readWhole (ds ++ rest) ds rest := by
  by_cases halone : ds = ['0']
  · subst halone
    cases rest with
    | nil => exact ⟨by simp, by simp [readWhole, readDigits, isDigit]⟩
    | cons c rest =>
      have hc : isDigit c = false := hrest c (by simp)
      refine ⟨by simp, ?_⟩
      simp [readWhole, hc]
  · obtain ⟨hlength, hread⟩ := takes_digits hds hrest
    refine ⟨hlength, ?_⟩
    rw [readWhole, hread]
    intro c s hcons
    obtain ⟨hne, _⟩ := hds
    cases ds with
    | nil => exact hne rfl
    | cons d tail =>
      rw [List.cons_append, List.cons.injEq] at hcons
      have htail : tail = [] := hzero tail (by rw [hcons.1])
      exact halone (by rw [hcons.1, htail])

theorem readFraction_text {fraction : Option (List Char)} (hfraction : ∀ ds ∈ fraction, IsDigits ds)
    (hrest : ∀ c ∈ rest.head?, isDigit c = false ∧ c ≠ '.') :
    ∃ h, readFraction (Numeral.fractionText fraction ++ rest) = .ok (fraction, ⟨rest, h⟩) := by
  cases fraction with
  | none =>
    have hread : readFraction rest = .ok (none, ⟨rest, Nat.le_refl _⟩) := by
      rw [readFraction]
      rintro t rfl
      exact (hrest '.' rfl).2 rfl
    exact ⟨Nat.le_refl _, hread⟩
  | some ds =>
    obtain ⟨hlength, hread⟩ := takes_digits (hfraction ds rfl) fun c hc => (hrest c hc).1
    refine ⟨by simp only [Numeral.fractionText, List.cons_append, List.length_cons]; omega, ?_⟩
    simp only [Numeral.fractionText, List.cons_append, readFraction, hread]

theorem readExponent_text {exponent : Option (Bool × List Char)}
    (hexponent : ∀ e ∈ exponent, IsDigits e.2) (hrest : EndsNumber rest) :
    ∃ h, readExponent (Numeral.exponentText exponent ++ rest) = .ok (exponent, ⟨rest, h⟩) := by
  cases exponent with
  | none =>
    refine ⟨Nat.le_refl _, ?_⟩
    cases rest with
    | nil => rfl
    | cons c rest =>
      obtain ⟨_, _, hlower, hupper⟩ := endsNumber_cons.mp hrest
      simp [Numeral.exponentText, readExponent, hlower, hupper]
  | some e =>
    obtain ⟨down, ds⟩ := e
    have hds : IsDigits ds := hexponent (down, ds) rfl
    obtain ⟨hlength, hread⟩ := takes_digits hds fun c hc => (hrest c hc).1
    have hle : rest.length ≤ (ds ++ rest).length + 2 := by omega
    cases down with
    | true =>
      have hread' : readDigits (readSign ('-' :: (ds ++ rest))).2.val = .ok ⟨ds, rest, hlength⟩ :=
        hread
      refine ⟨hle, ?_⟩
      change readExponent ('e' :: '-' :: (ds ++ rest)) = .ok (some (true, ds), ⟨rest, hle⟩)
      simp only [readExponent, true_or, if_true, hread']
      rfl
    | false =>
      have hread' : readDigits (readSign ('+' :: (ds ++ rest))).2.val = .ok ⟨ds, rest, hlength⟩ :=
        hread
      refine ⟨hle, ?_⟩
      change readExponent ('e' :: '+' :: (ds ++ rest)) = .ok (some (false, ds), ⟨rest, hle⟩)
      simp only [readExponent, true_or, if_true, hread']
      rfl

theorem exponentText_head? (exponent : Option (Bool × List Char)) (hrest : EndsNumber rest) :
    ∀ c ∈ (Numeral.exponentText exponent ++ rest).head?, isDigit c = false ∧ c ≠ '.' := by
  intro c hc
  cases exponent with
  | none =>
    obtain ⟨hdigit, hpoint, _⟩ := hrest c hc
    exact ⟨hdigit, hpoint⟩
  | some e =>
    cases Option.mem_some.mp hc
    decide

theorem fractionText_head? (fraction : Option (List Char))
    (hrest : ∀ c ∈ rest.head?, isDigit c = false ∧ c ≠ '.') :
    ∀ c ∈ (Numeral.fractionText fraction ++ rest).head?, isDigit c = false := by
  intro c hc
  cases fraction with
  | none => exact (hrest c hc).1
  | some ds =>
    cases Option.mem_some.mp hc
    rfl

end

/-! ## Numbers -/

theorem takes_numeral {n : Numeral} (hn : n.Proper) {rest : List Char} (hrest : EndsNumber rest)
    {m : Number} (hvalue : n.value rest = .ok m) :
    Reader.Takes (readNumber n.negative) (n.text ++ rest) m rest := by
  have hexponent := exponentText_head? n.exponent hrest
  obtain ⟨hwhole, hreadWhole⟩ :=
    takes_whole hn.whole hn.zero_alone (fractionText_head? n.fraction hexponent)
  obtain ⟨hfraction, hreadFraction⟩ := readFraction_text hn.fraction hexponent
  obtain ⟨hend, hreadExponent⟩ := readExponent_text hn.exponent hrest
  rw [Numeral.text, List.append_assoc, List.append_assoc]
  refine ⟨by omega, ?_⟩
  simp only [readNumber, hreadWhole, hreadFraction, hreadExponent, hvalue]

theorem readFrom_digit {nested : Option (Reader Value)} {c : Char} {s : List Char}
    (hc : isDigit c = true) :
    readFrom nested (c :: s) =
      match readNumber false (c :: s) with
      | .error stop => .error stop
      | .ok r => .ok ⟨.number r.value, r.rest, r.shorter⟩ := by
  rw [readFrom]
  · exact if_pos hc
  all_goals
    rintro rfl
    exact absurd hc (by decide)

/-- A written numeral reads as the number of its digits. -/
theorem readFrom_numeral (nested : Option (Reader Value)) {n : Numeral} (hn : n.Proper)
    {rest : List Char} (hrest : EndsNumber rest) {m : Number} (hvalue : n.value rest = .ok m) :
    Reader.Takes (readFrom nested) ((if n.negative then '-' :: n.text else n.text) ++ rest)
      (.number m) rest := by
  have htakes := takes_numeral hn hrest hvalue
  cases hsign : n.negative with
  | true =>
    rw [hsign] at htakes
    obtain ⟨hlength, hread⟩ := htakes
    rw [if_pos rfl, List.cons_append]
    refine ⟨Nat.lt_succ_of_lt hlength, ?_⟩
    simp only [readFrom, hread]
  | false =>
    rw [hsign] at htakes
    rw [if_neg Bool.false_ne_true]
    obtain ⟨hne, hdigits⟩ := hn.whole
    cases hwhole : n.whole with
    | nil => exact absurd hwhole hne
    | cons c tail =>
      have hc : isDigit c = true := hdigits c (by rw [hwhole]; exact List.mem_cons_self)
      rw [Numeral.text, hwhole, List.cons_append, List.cons_append] at htakes ⊢
      obtain ⟨hlength, hread⟩ := htakes
      refine ⟨hlength, ?_⟩
      rw [readFrom_digit hc, hread]

/-! ## Digits of a natural number -/

theorem isDigit_of_isDigit {c : Char} (h : c.isDigit = true) : isDigit c = true := by
  simpa [Char.isDigit, isDigit, Char.le_def] using h

theorem isDigits_writeNat (n : Nat) : IsDigits (writeNat n) :=
  ⟨Nat.toDigits_ne_nil,
    fun _ hc => isDigit_of_isDigit (Nat.isDigit_of_mem_toDigits (by decide) (by decide) hc)⟩

/-- Only zero is written with a zero in front. -/
theorem head?_writeNat {n : Nat} (hn : n ≠ 0) : ∀ c ∈ (writeNat n).head?, c ≠ '0' := by
  induction n using Nat.strongRecOn with
  | ind n ih =>
    rw [writeNat, Nat.toDigits_eq_if (by decide)]
    split
    · rintro c hc rfl
      exact hn (Nat.digitChar_eq_zero.mp (Option.some.inj hc))
    · have hquotient : n / 10 ≠ 0 := by omega
      intro c hc
      refine ih (n / 10) (by omega) hquotient c ?_
      rw [writeNat]
      cases hdigits : Nat.toDigits 10 (n / 10) with
      | nil => exact absurd hdigits Nat.toDigits_ne_nil
      | cons d ds => rwa [hdigits] at hc

theorem zero_alone_writeNat (n : Nat) : ∀ ds, writeNat n = '0' :: ds → ds = [] := by
  intro ds hds
  by_cases hn : n = 0
  · subst hn
    rw [writeNat, Nat.toDigits_zero] at hds
    exact (List.cons.inj hds).2.symm
  · exact absurd rfl (head?_writeNat hn '0' (by rw [hds]; rfl))

theorem ofDigitChars_cons_eq (n : Nat) (d : Char) (ds : List Char) :
    Nat.ofDigitChars 10 (d :: ds) n = Nat.ofDigitChars 10 ds (n * 10 + digitValue d) := by
  rw [Nat.ofDigitChars_cons, Nat.mul_comm]
  rfl

theorem le_ofDigitChars (n : Nat) (ds : List Char) : n ≤ Nat.ofDigitChars 10 ds n := by
  rw [Nat.ofDigitChars_eq_ofDigitChars_zero]
  have hpow : 0 < 10 ^ ds.length := Nat.pow_pos (by decide)
  exact Nat.le_trans (Nat.le_mul_of_pos_left n hpow) (Nat.le_add_right _ _)

/-- A significand takes in digits as long as it stays below its limit. -/
theorem absorb_eq {n : Nat} {ds : List Char} (h : Nat.ofDigitChars 10 ds n < unsignedLimit) :
    absorb n ds = (Nat.ofDigitChars 10 ds n, []) := by
  induction ds generalizing n with
  | nil => rfl
  | cons d ds ih =>
    rw [ofDigitChars_cons_eq] at h ⊢
    rw [absorb]
    simp only [if_pos (Nat.lt_of_le_of_lt (le_ofDigitChars _ ds) h)]
    exact ih h

theorem absorb_writeNat {n : Nat} (h : n < unsignedLimit) : absorb 0 (writeNat n) = (n, []) := by
  have hvalue : Nat.ofDigitChars 10 (writeNat n) 0 = n := Nat.ofDigitChars_ten_toDigits
  rw [absorb_eq (by rwa [hvalue]), hvalue]

/-! ## Integers -/

/-- A number is written so that reading it gives another one, whatever stands behind it. -/
def Number.ReadsAs (n m : Number) : Prop :=
  ∀ nested rest, EndsNumber rest →
    Reader.Takes (readFrom nested) (writeNumber n ++ rest) (.number m) rest

/-- The integers of 64 bits, signed or not. -/
def IsLong (n : Int) : Prop :=
  -(signedLimit : Int) ≤ n ∧ n < unsignedLimit

theorem readsAs_integer {n : Int} (hn : IsLong n) :
    Number.ReadsAs (.integer n) (.integer n) := by
  intro nested rest hrest
  obtain ⟨hlower, hupper⟩ := hn
  let numeral : Numeral := ⟨n < 0, writeNat n.natAbs, none, none⟩
  have hproper : numeral.Proper :=
    ⟨isDigits_writeNat _, zero_alone_writeNat _, by simp [numeral], by simp [numeral]⟩
  have hvalue : numeral.value rest = .ok (.integer n) := by
    have habsorb : absorb 0 (writeNat n.natAbs) = (n.natAbs, []) :=
      absorb_writeNat (by simp only [signedLimit, unsignedLimit] at *; omega)
    simp only [Numeral.value, numeral, habsorb]
    by_cases hneg : n < 0
    · have hrange : 0 < n.natAbs ∧ n.natAbs ≤ signedLimit := by omega
      simp only [hneg, decide_true, Bool.not_true, Bool.false_eq_true, if_false, hrange, and_self,
        if_true]
      congr 2
      omega
    · simp only [hneg, decide_false, Bool.not_false, if_true]
      congr 2
      omega
  have htext : writeNumber (.integer n) =
      if numeral.negative then '-' :: numeral.text else numeral.text := by
    simp [writeNumber, writeInt, numeral, Numeral.text, Numeral.fractionText, Numeral.exponentText]
  rw [htext]
  exact readFrom_numeral nested hproper hrest hvalue

end LocaleAudit.Json
