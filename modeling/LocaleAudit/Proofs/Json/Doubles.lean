import LocaleAudit.Proofs.Json.DistinctKeys
import LocaleAudit.Proofs.Json.Numerals
import LocaleAudit.Proofs.Json.Scaling
import LocaleAudit.Proofs.Json.Shortest

namespace LocaleAudit.Json

/-!
# Doubles read back

Reading may drop digits, but what it keeps is not more than what is written. A double is written
with digits of a decimal that is hardly above it, so its text always reads as a double again: it is
never out of range. It need not be the same double. Zero, with either sign, is.
-/

open Binary64

namespace Numeral

/-- The digits before the point and those behind it as one number. -/
def significand (n : Numeral) : Nat :=
  Nat.ofDigitChars 10 (n.whole ++ n.fraction.getD []) 0

def exponentValue : Option (Bool × List Char) → Int
  | none => 0
  | some (down, ds) => if down then -(Nat.ofDigitChars 10 ds 0 : Int) else Nat.ofDigitChars 10 ds 0

/-- The power of ten of the last digit. -/
def power (n : Numeral) : Int :=
  exponentValue n.exponent - (n.fraction.getD []).length

def amount (n : Numeral) : ℚ :=
  n.significand * 10 ^ n.power

/-- A numeral with a point or an exponent that stands for an amount, with a part before the point
and an exponent that are read in full. -/
structure Writes (n : Numeral) (text : List Char) (amount : ℚ) : Prop where
  proper : n.Proper
  text_eq : n.text = text
  amount_eq : n.amount = amount
  isSome : n.fraction.isSome ∨ n.exponent.isSome
  whole_lt : Nat.ofDigitChars 10 n.whole 0 < unsignedLimit
  exponent_lt : ∀ e ∈ n.exponent, Nat.ofDigitChars 10 e.2 0 < exponentLimit

end Numeral

/-! ## Digits taken in -/

/-- Digits that are left over make what is kept smaller, never larger. -/
theorem absorb_bounds {n : Nat} (hn : n < unsignedLimit) (ds : List Char) :
    (absorb n ds).1 < unsignedLimit ∧ (absorb n ds).2.length ≤ ds.length ∧
      (absorb n ds).1 * 10 ^ (absorb n ds).2.length ≤ Nat.ofDigitChars 10 ds n := by
  induction ds generalizing n with
  | nil => exact ⟨hn, le_rfl, by simp [absorb]⟩
  | cons d ds ih =>
    rw [absorb]
    split
    · rename_i hm
      obtain ⟨hlt, hlength, hle⟩ := ih hm
      rw [ofDigitChars_cons_eq]
      exact ⟨hlt, hlength.trans (Nat.le_succ _), hle⟩
    · refine ⟨hn, le_rfl, ?_⟩
      rw [Nat.ofDigitChars_eq_ofDigitChars_zero, Nat.mul_comm]
      exact Nat.le_add_right _ _

theorem exponentValue_eq {n : Nat} {ds : List Char} (h : Nat.ofDigitChars 10 ds n < exponentLimit) :
    exponentValue n ds = .ok (Nat.ofDigitChars 10 ds n) := by
  induction ds generalizing n with
  | nil => rfl
  | cons d ds ih =>
    rw [ofDigitChars_cons_eq] at h ⊢
    rw [exponentValue]
    simp only [if_pos (Nat.lt_of_le_of_lt (le_ofDigitChars _ ds) h)]
    exact ih h

theorem exists_finish (n : Numeral) {significand : Nat} {power : Int}
    (hsignificand : significand < unsignedLimit)
    (h : (significand : ℚ) * 10 ^ power ≤ productLimit) :
    ∃ x, ∀ rest, Numeral.value.finish n rest significand power = .ok (.binary x) := by
  obtain ⟨x, hx⟩ := exists_doubleOf n.negative hsignificand h
  exact ⟨x, fun rest => by rw [Numeral.value.finish, hx]⟩

/-- What is kept of the digits, at the place of the last one, is no more than what is written. -/
theorem absorb_mul_le {n : Numeral} {text : List Char} {amount : ℚ} (hn : n.Writes text amount) :
    ((absorb (Nat.ofDigitChars 10 n.whole 0) (n.fraction.getD [])).1 : ℚ) *
      10 ^ (n.power +
        (absorb (Nat.ofDigitChars 10 n.whole 0) (n.fraction.getD [])).2.length : Int) ≤
      amount := by
  obtain ⟨_, _, hle⟩ := absorb_bounds hn.whole_lt (n.fraction.getD [])
  have hdigits : Nat.ofDigitChars 10 (n.fraction.getD []) (Nat.ofDigitChars 10 n.whole 0) =
      n.significand := (Nat.ofDigitChars_append 0).symm
  rw [hdigits] at hle
  set significand := (absorb (Nat.ofDigitChars 10 n.whole 0) (n.fraction.getD [])).1
  set ignored := (absorb (Nat.ofDigitChars 10 n.whole 0) (n.fraction.getD [])).2
  calc (significand : ℚ) * 10 ^ (n.power + ignored.length : Int)
      = (significand * 10 ^ ignored.length : Nat) * 10 ^ n.power := by
        rw [add_comm, zpow_add₀ (by norm_num), zpow_natCast]
        push_cast
        ring
    _ ≤ n.significand * 10 ^ n.power :=
        mul_le_mul_of_nonneg_right (by exact_mod_cast hle) (by positivity)
    _ = amount := hn.amount_eq

/-- A numeral whose amount stays below the largest double is in range. -/
theorem exists_value {n : Numeral} {text : List Char} {amount : ℚ} (hn : n.Writes text amount)
    (hamount : amount ≤ productLimit) : ∃ x, ∀ rest, n.value rest = .ok (.binary x) := by
  have hbelow := (absorb_mul_le hn).trans hamount
  obtain ⟨_, _, _, hpart, hwhole, hexponent⟩ := hn
  have hwhole' := absorb_eq hwhole
  obtain ⟨hlt, hlength, _⟩ := absorb_bounds hwhole (n.fraction.getD [])
  set significand := (absorb (Nat.ofDigitChars 10 n.whole 0) (n.fraction.getD [])).1
  set ignored := (absorb (Nat.ofDigitChars 10 n.whole 0) (n.fraction.getD [])).2
  have hkept : ∀ power : Int, power = n.power + ignored.length →
      (significand : ℚ) * 10 ^ power ≤ productLimit := by
    rintro power rfl
    exact hbelow
  obtain ⟨negative, whole, fraction, exponent⟩ := n
  cases exponent with
  | none =>
    cases fraction with
    | none => simp at hpart
    | some ds =>
      obtain ⟨x, hx⟩ := exists_finish ⟨negative, whole, some ds, none⟩ hlt
        (hkept (([] : List Char).length - (ds.length - ignored.length))
          (by simp [Numeral.power, Numeral.exponentValue]; omega))
      refine ⟨x, fun rest => ?_⟩
      simp only [Numeral.value, hwhole']
      exact hx rest
  | some e =>
    obtain ⟨down, ds⟩ := e
    have hread := exponentValue_eq (n := 0) (hexponent (down, ds) rfl)
    let start : Int := ([] : List Char).length - ((fraction.getD []).length - ignored.length)
    have hpower : (if down then start - (Nat.ofDigitChars 10 ds 0 : Int)
        else start + (Nat.ofDigitChars 10 ds 0 : Int)) =
          Numeral.power ⟨negative, whole, fraction, some (down, ds)⟩ + ignored.length := by
      cases down <;> simp [start, Numeral.power, Numeral.exponentValue] <;> omega
    obtain ⟨x, hx⟩ := exists_finish ⟨negative, whole, fraction, some (down, ds)⟩ hlt
      (hkept _ hpower)
    refine ⟨x, fun rest => ?_⟩
    simp only [Numeral.value, hwhole', hread]
    exact hx rest

/-! ## Forms of a decimal -/

theorem digitValue_lt {c : Char} (h : isDigit c = true) : digitValue c < 10 := by
  simp only [isDigit, Bool.and_eq_true, decide_eq_true_eq, Char.le_def] at h
  have hnine : c.toNat ≤ 57 := h.2
  rw [digitValue]
  omega

theorem ofDigitChars_lt {ds : List Char} (h : ∀ c ∈ ds, isDigit c = true) (n : Nat) :
    Nat.ofDigitChars 10 ds n < (n + 1) * 10 ^ ds.length := by
  induction ds generalizing n with
  | nil => simp
  | cons d ds ih =>
    rw [List.forall_mem_cons] at h
    have hd := digitValue_lt h.1
    rw [ofDigitChars_cons_eq]
    calc Nat.ofDigitChars 10 ds (n * 10 + digitValue d)
        < (n * 10 + digitValue d + 1) * 10 ^ ds.length := ih h.2 _
      _ ≤ (n + 1) * 10 * 10 ^ ds.length := Nat.mul_le_mul_right _ (by omega)
      _ = (n + 1) * 10 ^ (d :: ds).length := by rw [List.length_cons, pow_succ]; ring

theorem ofDigitChars_lt_unsignedLimit {ds : List Char} (h : ∀ c ∈ ds, isDigit c = true)
    (hlength : ds.length ≤ 16) : Nat.ofDigitChars 10 ds 0 < unsignedLimit :=
  calc Nat.ofDigitChars 10 ds 0 < (0 + 1) * 10 ^ ds.length := ofDigitChars_lt h 0
    _ ≤ (0 + 1) * 10 ^ 16 := Nat.mul_le_mul_left _ (Nat.pow_le_pow_right (by decide) hlength)
    _ < unsignedLimit := by decide

theorem isDigits_zero : IsDigits ['0'] :=
  isDigits_writeNat 0

section

variable (negative : Bool) {digits : List Char} (hdigits : IsDigits digits)
  (halone : ∀ ds, digits = '0' :: ds → ds = [])

include hdigits halone

theorem writes_trailing {power : Nat} (hlength : power + digits.length ≤ 16)
    (hzero : digits = ['0'] → power = 0) :
    Numeral.Writes ⟨negative, digits ++ List.replicate power '0', some ['0'], none⟩
      (digits ++ List.replicate power '0' ++ ['.', '0'])
      (Nat.ofDigitChars 10 digits 0 * 10 ^ (power : Int)) where
  proper := by
    obtain ⟨hne, hall⟩ := hdigits
    refine ⟨⟨by simp [hne], ?_⟩, ?_, ?_, by simp⟩
    · simp only [List.mem_append, List.mem_replicate]
      rintro c (hc | ⟨_, rfl⟩)
      · exact hall c hc
      · rfl
    · intro ds hds
      cases hcons : digits with
      | nil => exact absurd hcons hne
      | cons d tail =>
        rw [hcons, List.cons_append, List.cons.injEq] at hds
        have htail : tail = [] := halone tail (by rw [hcons, hds.1])
        have hpower : power = 0 := hzero (by rw [hcons, hds.1, htail])
        rw [← hds.2, htail, hpower]
        rfl
    · rintro _ ⟨⟩
      exact isDigits_zero
  text_eq := by simp [Numeral.text, Numeral.fractionText, Numeral.exponentText]
  amount_eq := by
    have hvalue : Nat.ofDigitChars 10 (digits ++ List.replicate power '0' ++ ['0']) 0 =
        10 * (10 ^ power * Nat.ofDigitChars 10 digits 0) := by
      rw [Nat.ofDigitChars_append, Nat.ofDigitChars_append, Nat.ofDigitChars_replicate_zero]
      rfl
    simp only [Numeral.amount, Numeral.significand, Numeral.power, Option.getD_some, hvalue,
      Numeral.exponentValue, zpow_natCast]
    push_cast
    norm_num
    ring
  isSome := Or.inl rfl
  whole_lt := by
    refine ofDigitChars_lt_unsignedLimit ?_ (by simp; omega)
    simp only [List.mem_append, List.mem_replicate]
    rintro c (hc | ⟨_, rfl⟩)
    · exact hdigits.2 c hc
    · rfl
  exponent_lt := by simp

theorem writes_split {places : Nat} (hpos : 0 < places) (hplaces : places < digits.length)
    (hlength : digits.length ≤ places + 16) :
    Numeral.Writes ⟨negative, digits.take (digits.length - places),
        some (digits.drop (digits.length - places)), none⟩
      (digits.take (digits.length - places) ++ '.' :: digits.drop (digits.length - places))
      (Nat.ofDigitChars 10 digits 0 * 10 ^ (-(places : Int))) where
  proper := by
    obtain ⟨_, hall⟩ := hdigits
    refine ⟨⟨?_, fun c hc => hall c (List.mem_of_mem_take hc)⟩, ?_, ?_, by simp⟩
    · intro hnil
      have := congrArg List.length hnil
      simp at this
      omega
    · intro ds hds
      exfalso
      have hcons : digits = '0' :: (ds ++ digits.drop (digits.length - places)) := by
        rw [← List.cons_append, ← hds, List.take_append_drop]
      have := congrArg List.length hcons
      rw [List.length_cons, halone _ hcons, List.length_nil] at this
      omega
    · rintro _ ⟨⟩
      refine ⟨?_, fun c hc => hall c (List.mem_of_mem_drop hc)⟩
      intro hnil
      have := congrArg List.length hnil
      simp at this
      omega
  text_eq := by simp [Numeral.text, Numeral.fractionText, Numeral.exponentText]
  amount_eq := by
    have hfraction : (digits.drop (digits.length - places)).length = places := by simp; omega
    simp only [Numeral.amount, Numeral.significand, Numeral.power, Option.getD_some,
      List.take_append_drop, Numeral.exponentValue, hfraction, zero_sub]
  isSome := Or.inl rfl
  whole_lt :=
    ofDigitChars_lt_unsignedLimit (fun c hc => hdigits.2 c (List.mem_of_mem_take hc))
      (by simp; omega)
  exponent_lt := by simp

omit halone in
theorem writes_leading {places : Nat} (hplaces : digits.length ≤ places) :
    Numeral.Writes
      ⟨negative, ['0'], some (List.replicate (places - digits.length) '0' ++ digits), none⟩
      ('0' :: '.' :: List.replicate (places - digits.length) '0' ++ digits)
      (Nat.ofDigitChars 10 digits 0 * 10 ^ (-(places : Int))) where
  proper := by
    obtain ⟨hne, hall⟩ := hdigits
    refine ⟨isDigits_zero, fun ds hds => (List.cons.inj hds).2.symm, ?_, by simp⟩
    rintro _ ⟨⟩
    refine ⟨by simp [hne], ?_⟩
    simp only [List.mem_append, List.mem_replicate]
    rintro c (⟨_, rfl⟩ | hc)
    · rfl
    · exact hall c hc
  text_eq := by simp [Numeral.text, Numeral.fractionText, Numeral.exponentText]
  amount_eq := by
    have hvalue : Nat.ofDigitChars 10
        (['0'] ++ (List.replicate (places - digits.length) '0' ++ digits)) 0 =
          Nat.ofDigitChars 10 digits 0 := by
      rw [Nat.ofDigitChars_append, Nat.ofDigitChars_append, Nat.ofDigitChars_replicate_zero]
      rfl
    have hfraction :
        (List.replicate (places - digits.length) '0' ++ digits).length = places := by
      simp only [List.length_append, List.length_replicate]
      omega
    simp only [Numeral.amount, Numeral.significand, Numeral.power, Option.getD_some, hvalue,
      Numeral.exponentValue, hfraction, zero_sub]
  isSome := Or.inl rfl
  whole_lt := ofDigitChars_lt_unsignedLimit isDigits_zero.2 (by simp)
  exponent_lt := by simp

/-- A positional text is a numeral for its decimal, as long as no zeros follow a zero. -/
theorem exists_positional (power : Int) (hlength : power + digits.length ≤ 16)
    (hzero : digits = ['0'] → power ≤ 0) :
    ∃ n : Numeral, n.negative = negative ∧
      n.Writes (writePositional digits power) (Nat.ofDigitChars 10 digits 0 * 10 ^ power) := by
  rw [writePositional]
  split
  · rename_i hpower
    lift power to Nat using hpower
    exact ⟨_, rfl, writes_trailing negative hdigits halone (by omega) fun h => by
      have := hzero h
      omega⟩
  · obtain ⟨places, rfl⟩ : ∃ places : Nat, power = -places := ⟨(-power).toNat, by omega⟩
    simp only [neg_neg, Int.toNat_natCast]
    split
    · exact ⟨_, rfl, writes_split negative hdigits halone (by omega) ‹_› (by omega)⟩
    · exact ⟨_, rfl, writes_leading negative hdigits (by omega)⟩

omit halone in
theorem exists_scientific (power : Int)
    (hexponent : (power + digits.length - 1).natAbs < exponentLimit) :
    ∃ n : Numeral, n.negative = negative ∧
      n.Writes (writeScientific digits (power + digits.length - 1))
        (Nat.ofDigitChars 10 digits 0 * 10 ^ power) := by
  obtain ⟨hne, hall⟩ := hdigits
  cases digits with
  | nil => exact absurd rfl hne
  | cons d ds =>
    rw [List.forall_mem_cons] at hall
    generalize hdown : power + (d :: ds).length - 1 = exponent at *
    refine ⟨⟨negative, [d], if ds = [] then none else some ds,
      some (decide (exponent < 0), writeNat exponent.natAbs)⟩, rfl, ?_⟩
    have hvalue : Nat.ofDigitChars 10 (writeNat exponent.natAbs) 0 = exponent.natAbs :=
      Nat.ofDigitChars_ten_toDigits
    have hgetD : (if ds = [] then none else some ds).getD [] = ds := by
      split
      · exact (‹ds = []›).symm
      · rfl
    refine ⟨⟨⟨by simp, by simp [hall.1]⟩, fun tail htail => (List.cons.inj htail).2.symm, ?_, ?_⟩,
      ?_, ?_, Or.inr rfl, ofDigitChars_lt_unsignedLimit (by simp [hall.1]) (by simp), ?_⟩
    · intro tail htail
      split at htail
      · exact absurd htail (by simp)
      · exact Option.some.inj htail ▸ ⟨‹_›, hall.2⟩
    · rintro _ ⟨⟩
      exact isDigits_writeNat _
    · cases ds with
      | nil => simp [Numeral.text, writeScientific, Numeral.fractionText, Numeral.exponentText]
      | cons e es =>
        simp [Numeral.text, writeScientific, Numeral.fractionText, Numeral.exponentText]
    · simp only [Numeral.amount, Numeral.significand, Numeral.power, hgetD, List.singleton_append]
      congr 2
      rw [List.length_cons] at hdown
      simp only [Numeral.exponentValue, hvalue, decide_eq_true_eq]
      split <;> omega
    · rintro _ ⟨⟩
      rwa [hvalue]

end

/-! ## Doubles -/

/-- A written double reads as the double that its numeral has. -/
theorem readsAs_of_value {x y : Binary64} {n : Numeral} (hn : n.Proper)
    (htext : writeNumber (.binary x) = if n.negative then '-' :: n.text else n.text)
    (hvalue : ∀ rest, n.value rest = .ok (.binary y)) :
    Number.ReadsAs (.binary x) (.binary y) := by
  intro nested rest hrest
  rw [htext]
  exact readFrom_numeral nested hn hrest (hvalue rest)

theorem scale?_zero (negative : Bool) : (zero negative).scale? (-1) = some (.zero negative) := by
  have hten : tenPower? 1 = some ⟨false, 5629499534213120, -49⟩ := by decide +kernel
  rw [scale?, if_neg (by decide), dif_neg (by decide)]
  change (tenPower? 1).bind _ = _
  rw [hten, Option.bind_some, zero_div?, Bool.bne_false]

/-- Zero reads as zero with its sign. -/
theorem readsAs_zero {x : Binary64} (hx : x.isZero = true) :
    Number.ReadsAs (.binary x) (.binary (.zero x.negative)) := by
  refine readsAs_of_value (n := ⟨x.negative, ['0'], some ['0'], none⟩)
    ⟨isDigits_zero, zero_alone_writeNat 0, ?_, by simp⟩ ?_ fun rest => ?_
  · rintro _ ⟨⟩
    exact isDigits_zero
  · rw [writeNumber, writeBinary64, hx]
    rfl
  · have habsorb : absorb 0 ['0'] = (0, []) := by decide
    have hstart : ((([] : List Char).length : Int) -
        ((['0'] : List Char).length - ([] : List Char).length : Int)) = -1 := rfl
    simp only [Numeral.value, habsorb, Option.getD_some, Numeral.value.finish]
    rw [hstart, doubleOf_zero, scale?_zero]

/-! ### The two largest doubles -/

/-- What is written for the largest double and the one before it: they differ in the last digit. -/
def largest (negative : Bool) (last : Char) : Numeral :=
  ⟨negative, ['1'], some ("797693134862315".toList ++ [last]), some (false, "308".toList)⟩

theorem largest_text (negative : Bool) :
    writeBinary64 ⟨negative, 2 ^ 53 - 1, 971⟩ =
        (if negative then '-' :: (largest negative '7').text else (largest negative '7').text) ∧
      writeBinary64 ⟨negative, 2 ^ 53 - 2, 971⟩ =
        (if negative then '-' :: (largest negative '5').text else (largest negative '5').text) := by
  revert negative
  decide +kernel

theorem doubleOf_largest (negative : Bool) :
    doubleOf negative 17976931348623157 292 = some ⟨negative, 2 ^ 53 - 1, 971⟩ ∧
      doubleOf negative 17976931348623155 292 = some ⟨negative, 2 ^ 53 - 1, 971⟩ := by
  -- Both integers are rounded to the even significand between them.
  have hround : ofRatio? negative 17976931348623157 1 = some ⟨negative, 8988465674311578, 1⟩ ∧
      ofRatio? negative 17976931348623155 1 = some ⟨negative, 8988465674311578, 1⟩ := by
    revert negative
    decide +kernel
  have hscale : scale? ⟨negative, 8988465674311578, 1⟩ 292 = some ⟨negative, 2 ^ 53 - 1, 971⟩ := by
    have hten : tenPower? 292 = some ⟨false, 4512985939662074, 918⟩ := by decide +kernel
    have hmul : mul? ⟨negative, 8988465674311578, 1⟩ ⟨false, 4512985939662074, 918⟩ =
        some ⟨negative, 2 ^ 53 - 1, 971⟩ := by
      revert negative
      decide +kernel
    rw [scale?, if_pos (by decide), if_neg (by simp [isZero]), if_neg (by decide)]
    change (tenPower? 292).bind _ = _
    rw [hten, Option.bind_some, hmul]
  rw [doubleOf, doubleOf, hround.1, hround.2]
  exact ⟨hscale, hscale⟩

theorem largest_proper (negative : Bool) {last : Char} (h : isDigit last = true) :
    (largest negative last).Proper := by
  refine ⟨⟨by simp [largest], by simp [largest, isDigit]⟩, by simp [largest], ?_, ?_⟩
  · rintro _ ⟨⟩
    exact ⟨by simp, by simp [isDigit] at h ⊢; exact h⟩
  · rintro _ ⟨⟩
    exact ⟨by simp, by simp [isDigit]⟩

theorem largest_value {negative : Bool} {last : Char} {significand : Nat} {y : Binary64}
    (habsorb : absorb 1 ("797693134862315".toList ++ [last]) = (significand, []))
    (hdouble : doubleOf negative significand 292 = some y) (rest : List Char) :
    (largest negative last).value rest = .ok (.binary y) := by
  have hwhole : absorb 0 ['1'] = (1, []) := by decide
  have hexponent : exponentValue 0 "308".toList = .ok 308 := by decide
  have hpower : ([] : List Char).length -
      ((("797693134862315".toList ++ [last]).length : Int) - ([] : List Char).length) +
        (308 : Nat) = 292 := by
    simp
  simp only [Numeral.value, largest, hwhole, Option.getD_some, habsorb, hexponent,
    Bool.false_eq_true, if_false, hpower, Numeral.value.finish, hdouble]

theorem readsAs_largest (negative : Bool) {significand : Nat}
    (h : significand = 2 ^ 53 - 1 ∨ significand = 2 ^ 53 - 2) :
    Number.ReadsAs (.binary ⟨negative, significand, 971⟩)
      (.binary ⟨negative, 2 ^ 53 - 1, 971⟩) := by
  obtain ⟨htext₁, htext₂⟩ := largest_text negative
  obtain ⟨hvalue₁, hvalue₂⟩ := doubleOf_largest negative
  rcases h with rfl | rfl
  · exact readsAs_of_value (largest_proper negative rfl) htext₁
      (largest_value (by decide +kernel) hvalue₁)
  · exact readsAs_of_value (largest_proper negative rfl) htext₂
      (largest_value (by decide +kernel) hvalue₂)

section

variable {x : Binary64} (hx : x.IsFinite)

include hx

theorem length_shortest_le :
    x.shortest.2 + (writeNat x.shortest.1).length ≤ 1025 := by
  obtain ⟨_, hupper⟩ := shortest_power_bounds hx
  by_contra hlong
  generalize hlength : (writeNat x.shortest.1).length = length at hlong
  have hle : 10 ^ (length - 1) ≤ x.shortest.1 := by
    by_contra hlt
    have := (Nat.length_toDigits_le_iff (b := 10) (by decide) (by omega)).mpr (not_le.mp hlt)
    rw [writeNat] at hlength
    omega
  have hlarge : (10 : ℚ) ^ (1025 : Int) ≤ 2 ^ 1024 :=
    calc (10 : ℚ) ^ (1025 : Int) ≤ 10 ^ (((length - 1 : Nat) : Int) + x.shortest.2) :=
          zpow_le_zpow_right₀ (by norm_num) (by omega)
      _ = (10 ^ (length - 1) : Nat) * 10 ^ x.shortest.2 := by
          rw [zpow_add₀ (by norm_num), zpow_natCast]
          push_cast
          rfl
      _ ≤ x.shortest.1 * 10 ^ x.shortest.2 :=
          mul_le_mul_of_nonneg_right (by exact_mod_cast hle) (by positivity)
      _ ≤ x.upperEnd := (shortest_found x).le_upperEnd
      _ ≤ 2 ^ 1024 := upperEnd_le hx
  have hsmall : 2 ^ 1024 < 10 ^ 1025 := by decide +kernel
  have hsmall' : (2 : ℚ) ^ 1024 < 10 ^ (1025 : Int) := by
    rw [show (1025 : Int) = ((1025 : Nat) : Int) from rfl, zpow_natCast]
    exact_mod_cast hsmall
  exact absurd hlarge (not_le.mpr hsmall')

/-- What is written for a double other than zero is a numeral for its shortest digits. -/
theorem exists_writes (hzero : x.isZero = false) :
    ∃ (n : Numeral) (text : List Char), n.Writes text (x.shortest.1 * 10 ^ x.shortest.2) ∧
      writeNumber (.binary x) = if n.negative then '-' :: n.text else n.text := by
  have hdigits := isDigits_writeNat x.shortest.1
  have halone := zero_alone_writeNat x.shortest.1
  have hvalue : Nat.ofDigitChars 10 (writeNat x.shortest.1) 0 = x.shortest.1 :=
    Nat.ofDigitChars_ten_toDigits
  obtain ⟨hlower, hupper⟩ := shortest_power_bounds hx
  have hlength := length_shortest_le hx
  have hpos : 0 < (writeNat x.shortest.1).length := Nat.length_toDigits_pos
  rw [writeNumber, writeBinary64, hzero]
  simp only [Bool.false_eq_true, if_false]
  by_cases hplace : -5 ≤ x.shortest.2 + (writeNat x.shortest.1).length - 1 ∧
      x.shortest.2 + (writeNat x.shortest.1).length - 1 < 16
  · obtain ⟨n, hsign, hn⟩ := exists_positional x.negative hdigits halone
      x.shortest.2 (by omega) fun hdigit => by
        by_contra hpower
        refine shortest_ne_zero hzero (by omega) (by omega) ?_
        rw [← hvalue, hdigit]
        rfl
    rw [hvalue] at hn
    exact ⟨n, _, hn, by rw [if_pos hplace, hsign, hn.text_eq]⟩
  · obtain ⟨n, hsign, hn⟩ := exists_scientific x.negative hdigits x.shortest.2
      (by simp only [exponentLimit]; omega)
    rw [hvalue] at hn
    exact ⟨n, _, hn, by rw [if_neg hplace, hsign, hn.text_eq]⟩

theorem upperEnd_le_productLimit (h : ¬(x.exponent = 971 ∧ 2 ^ 53 - 2 ≤ x.significand)) :
    x.upperEnd ≤ productLimit := by
  obtain ⟨hlt, _, hexponent⟩ := hx
  have hpow : (0 : ℚ) ≤ 2 ^ x.exponent := by positivity
  rw [upperEnd, productLimit]
  by_cases hlast : x.exponent = 971
  · have hle : x.significand + 3 ≤ 2 ^ 53 := by omega
    have hle' : (x.significand : ℚ) + 3 ≤ 2 ^ 53 := by exact_mod_cast hle
    rw [hlast] at hpow ⊢
    exact mul_le_mul_of_nonneg_right (by linarith) hpow
  · have hlt' : (x.significand : ℚ) + 1 ≤ 2 ^ 53 := by exact_mod_cast hlt
    calc ((x.significand : ℚ) + 1 / 2) * 2 ^ x.exponent
        ≤ 2 ^ 53 * 2 ^ x.exponent := mul_le_mul_of_nonneg_right (by linarith) hpow
      _ ≤ 2 ^ 53 * 2 ^ (970 : Int) :=
          mul_le_mul_of_nonneg_left (zpow_le_zpow_right₀ (by norm_num) (by omega)) (by norm_num)
      _ = 2 ^ 52 * 2 ^ (971 : Int) := by
          rw [show (971 : Int) = 1 + 970 from rfl, zpow_add₀ (by norm_num), ← mul_assoc]
          norm_num
      _ ≤ (2 ^ 53 - 5 / 2) * 2 ^ (971 : Int) :=
          mul_le_mul_of_nonneg_right (by norm_num) (zpow_nonneg (by norm_num) _)

/-- The text of a finite double reads as a double. -/
theorem exists_readsAs_binary : ∃ y, Number.ReadsAs (.binary x) (.binary y) := by
  by_cases hzero : x.isZero = true
  · exact ⟨_, readsAs_zero hzero⟩
  by_cases hlargest : x.exponent = 971 ∧ 2 ^ 53 - 2 ≤ x.significand
  · obtain ⟨negative, significand, exponent⟩ := x
    obtain ⟨rfl, hsignificand⟩ := hlargest
    have hlt := hx.significand_lt
    exact ⟨_, readsAs_largest negative (by simp only at *; omega)⟩
  · obtain ⟨n, text, hn, htext⟩ := exists_writes hx (Bool.eq_false_of_not_eq_true hzero)
    have hamount := (shortest_found x).le_upperEnd.trans (upperEnd_le_productLimit hx hlargest)
    obtain ⟨y, hy⟩ := exists_value hn hamount
    exact ⟨y, readsAs_of_value hn.proper htext hy⟩

end

/-! ## Numbers that are read -/

/-- The numbers that reading gives: integers of 64 bits and finite doubles. -/
def Number.Storable : Number → Prop
  | .integer n => IsLong n
  | .binary x => x.IsFinite

/-- A number that has been read can be written and read again. -/
theorem Number.Storable.exists_readsAs {n : Number} (h : n.Storable) : ∃ m, n.ReadsAs m := by
  cases n with
  | integer n => exact ⟨_, readsAs_integer h⟩
  | binary x =>
    obtain ⟨y, hy⟩ := exists_readsAs_binary h
    exact ⟨_, hy⟩

theorem storable_finish {n : Numeral} {rest : List Char} {significand : Nat} {power : Int}
    {m : Number} (h : Numeral.value.finish n rest significand power = .ok m) : m.Storable := by
  rw [Numeral.value.finish] at h
  split at h
  · cases h
    exact isFinite_doubleOf ‹_›
  · cases h

theorem storable_value {n : Numeral} {rest : List Char} {m : Number} (h : n.value rest = .ok m) :
    m.Storable := by
  obtain ⟨negative, whole, fraction, exponent⟩ := n
  have hlimit := (absorb_bounds (n := 0) (by decide) whole).1
  cases exponent with
  | some e =>
    simp only [Numeral.value] at h
    split at h
    · exact storable_finish h
    · split at h
      · cases h
      · cases h
        exact isFinite_zero negative
  | none =>
    cases fraction with
    | some ds => exact storable_finish h
    | none =>
      simp only [Numeral.value] at h
      split at h
      · split at h
        · cases h
          exact ⟨by simp only [signedLimit]; omega, by exact_mod_cast hlimit⟩
        · split at h
          · cases h
            rename_i hrange
            exact ⟨by omega, by simp only [unsignedLimit]; omega⟩
          · exact storable_finish h
      · exact storable_finish h

theorem readNumber_yields (negative : Bool) :
    Reader.Yields (readNumber negative) Number.Storable := by
  intro s r hr
  simp only [readNumber] at hr
  split at hr
  · cases hr
  · split at hr
    · cases hr
    · split at hr
      · cases hr
      · split at hr
        · cases hr
        · cases hr
          exact storable_value ‹_›

end LocaleAudit.Json
