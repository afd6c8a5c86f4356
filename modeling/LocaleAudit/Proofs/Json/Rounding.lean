import LocaleAudit.Json.Binary64
import Mathlib.Algebra.Order.Field.Power
import Mathlib.Data.Nat.Log
import Mathlib.Tactic.FieldSimp
import Mathlib.Tactic.Linarith
import Mathlib.Tactic.Positivity
import Mathlib.Tactic.Ring

namespace LocaleAudit.Binary64

/-!
# Rounding

The double that a ratio is rounded to is off by half a unit of its last place at most. A ratio
below the middle between the largest double and the next power of two has a double.
-/

/-- The absolute value of a double. -/
def magnitude (x : Binary64) : ℚ :=
  x.significand * 2 ^ x.exponent

/-- At most 53 bits, and an exponent of the range. -/
structure IsFinite (x : Binary64) : Prop where
  significand_lt : x.significand < 2 ^ 53
  le_exponent : -1074 ≤ x.exponent
  exponent_le : x.exponent ≤ 971

/-- The middle between the largest double and `2 ^ 1024`. -/
def roundingLimit : ℚ :=
  (2 ^ 53 - 1 / 2) * 2 ^ (971 : Int)

theorem twoPow_eq (k : Nat) : twoPow k = 2 ^ k := rfl

theorem tenPow_eq (k : Nat) : tenPow k = 10 ^ k := rfl

theorem zpow_eq_div (b : ℚ) (e : Int) : b ^ e = b ^ e.toNat / b ^ (-e).toNat := by
  rcases Int.le_total 0 e with h | h
  · have hzero : (-e).toNat = 0 := by omega
    rw [hzero, pow_zero, div_one]
    conv_lhs => rw [← Int.toNat_of_nonneg h]
    exact zpow_natCast b e.toNat
  · have hzero : e.toNat = 0 := by omega
    have he : e = -((-e).toNat : Int) := by omega
    rw [hzero, pow_zero, one_div]
    conv_lhs => rw [he]
    rw [zpow_neg, zpow_natCast]

theorem two_zpow_eq (e : Int) : (2 : ℚ) ^ e = (twoPow e.toNat : ℚ) / (twoPow (-e).toNat : ℚ) := by
  rw [zpow_eq_div 2, twoPow_eq, twoPow_eq]
  push_cast
  rfl

theorem twoPow_pos (k : Nat) : (0 : ℚ) < twoPow k := by
  rw [twoPow_eq]
  positivity

theorem magnitude_nonneg (x : Binary64) : 0 ≤ x.magnitude := by
  unfold magnitude
  positivity

theorem ratio_div (x : Binary64) : (x.ratio.1 : ℚ) / x.ratio.2 = x.magnitude := by
  rw [magnitude, two_zpow_eq, ratio]
  push_cast
  rw [mul_div_assoc]

theorem ratio_snd_pos (x : Binary64) : 0 < x.ratio.2 :=
  Nat.pow_pos (by decide)

@[simp] theorem zero_magnitude (negative : Bool) : (zero negative).magnitude = 0 := by
  simp [magnitude, zero]

/-! ## The exponent -/

section

variable {num den : Nat} (hnum : 0 < num) (hden : 0 < den)

include hnum hden

theorem log2_bounds : (2 : ℚ) ^ ((num.log2 : Int) - den.log2 - 1) < num / den ∧
    (num : ℚ) / den < 2 ^ ((num.log2 : Int) - den.log2 + 1) := by
  have hnum₁ : (2 : ℚ) ^ num.log2 ≤ num := by exact_mod_cast Nat.log2_self_le hnum.ne'
  have hnum₂ : (num : ℚ) < 2 ^ (num.log2 + 1) := by exact_mod_cast Nat.lt_log2_self
  have hden₁ : (2 : ℚ) ^ den.log2 ≤ den := by exact_mod_cast Nat.log2_self_le hden.ne'
  have hden₂ : (den : ℚ) < 2 ^ (den.log2 + 1) := by exact_mod_cast Nat.lt_log2_self
  have hpos : (0 : ℚ) < den := by exact_mod_cast hden
  constructor
  · rw [lt_div_iff₀ hpos]
    calc (2 : ℚ) ^ ((num.log2 : Int) - den.log2 - 1) * den
        < 2 ^ ((num.log2 : Int) - den.log2 - 1) * 2 ^ (den.log2 + 1) := by gcongr
      _ = 2 ^ num.log2 := by
          rw [← zpow_natCast, ← zpow_natCast, ← zpow_add₀ (by norm_num)]
          congr 1
          push_cast
          ring
      _ ≤ num := hnum₁
  · rw [div_lt_iff₀ hpos]
    calc (num : ℚ) < 2 ^ (num.log2 + 1) := hnum₂
      _ = 2 ^ ((num.log2 : Int) - den.log2 + 1) * 2 ^ den.log2 := by
          rw [← zpow_natCast, ← zpow_natCast, ← zpow_add₀ (by norm_num)]
          congr 1
          push_cast
          ring
      _ ≤ 2 ^ ((num.log2 : Int) - den.log2 + 1) * den := by gcongr

/-- The exponent leaves 53 bits, and more than 52 when it is not the least one. -/
theorem exponentFor_bounds : -1074 ≤ exponentFor num den ∧
    (num : ℚ) / den < 2 ^ (exponentFor num den + 53) ∧
    (-1074 < exponentFor num den → (2 : ℚ) ^ (exponentFor num den + 52) ≤ num / den) := by
  obtain ⟨hlower, hupper⟩ := log2_bounds hnum hden
  have hpos : (0 : ℚ) < den := by exact_mod_cast hden
  have hone : (1 : ℚ) ≤ 2 := by norm_num
  have hcompare : den * twoPow ((num.log2 : Int) - den.log2).toNat ≤
      num * twoPow (-((num.log2 : Int) - den.log2)).toNat ↔
        (2 : ℚ) ^ ((num.log2 : Int) - den.log2) ≤ num / den := by
    rw [two_zpow_eq, div_le_div_iff₀ (twoPow_pos _) hpos, mul_comm den]
    exact_mod_cast Iff.rfl
  simp only [exponentFor]
  split
  · rename_i hle
    rw [hcompare] at hle
    refine ⟨le_max_right _ _, hupper.trans_le (zpow_le_zpow_right₀ hone ?_), fun hleast => ?_⟩
    · omega
    · refine le_trans (zpow_le_zpow_right₀ hone ?_) hle
      omega
  · rename_i hgt
    rw [hcompare, not_le] at hgt
    refine ⟨le_max_right _ _, hgt.trans_le (zpow_le_zpow_right₀ hone ?_), fun hleast => ?_⟩
    · omega
    · refine le_trans (zpow_le_zpow_right₀ hone ?_) hlower.le
      omega

end

/-! ## The significand -/

theorem nearest_bounds (num : Nat) {den : Nat} (hden : 0 < den) :
    (num : ℚ) / den - 1 / 2 ≤ nearest num den ∧ (nearest num den : ℚ) ≤ num / den + 1 / 2 := by
  have hpos : (0 : ℚ) < den := by exact_mod_cast hden
  have hdiv : den * (num / den) + num % den = num := Nat.div_add_mod num den
  have hmod : num % den < den := Nat.mod_lt num hden
  have hlower : 2 * num ≤ 2 * (nearest num den * den) + den := by
    simp only [nearest]
    split
    · rw [Nat.add_mul, Nat.mul_comm (num / den)]
      omega
    · rw [Nat.mul_comm (num / den)]
      omega
  have hupper : 2 * (nearest num den * den) ≤ 2 * num + den := by
    simp only [nearest]
    split
    · rw [Nat.add_mul, Nat.mul_comm (num / den)]
      omega
    · rw [Nat.mul_comm (num / den)]
      omega
  have hlower' : 2 * (num : ℚ) ≤ 2 * (nearest num den * den) + den := by exact_mod_cast hlower
  have hupper' : 2 * ((nearest num den : ℚ) * den) ≤ 2 * num + den := by exact_mod_cast hupper
  constructor
  · rw [sub_le_iff_le_add, div_le_iff₀ hpos]
    linarith
  · rw [← sub_le_iff_le_add, le_div_iff₀ hpos]
    linarith

theorem nearest_le {num den bound : Nat} (hden : 0 < den) (h : (num : ℚ) / den < bound) :
    nearest num den ≤ bound := by
  have hupper := (nearest_bounds num hden).2
  have hlt : (nearest num den : ℚ) < bound + 1 := by linarith
  have hlt' : nearest num den < bound + 1 := by exact_mod_cast hlt
  omega

/-! ## The double nearest to a ratio -/

/-- What a ratio is in units of the exponent chosen for it. -/
theorem scaled_ratio (num den : Nat) (e : Int) :
    ((num * twoPow (-e).toNat : Nat) : ℚ) / ((den * twoPow e.toNat : Nat) : ℚ) =
      num / den / 2 ^ e := by
  rw [two_zpow_eq]
  push_cast
  rw [div_div_eq_mul_div, div_mul_eq_mul_div, div_div]

/-- Rounding to whole units of an exponent is off by half a unit at most. -/
theorem abs_nearest_sub_le (num : Nat) {den : Nat} (hden : 0 < den) (e : Int) :
    |(nearest (num * twoPow (-e).toNat) (den * twoPow e.toNat) : ℚ) * 2 ^ e - num / den| ≤
      2 ^ (e - 1) := by
  have hpow : (0 : ℚ) < 2 ^ e := by positivity
  have hden' : 0 < den * twoPow e.toNat := Nat.mul_pos hden (Nat.pow_pos (by decide))
  obtain ⟨hlower, hupper⟩ := nearest_bounds (num * twoPow (-e).toNat) hden'
  rw [scaled_ratio] at hlower hupper
  have hratio : (num : ℚ) / den = num / den / 2 ^ e * 2 ^ e := (div_mul_cancel₀ _ hpow.ne').symm
  have hhalf : (2 : ℚ) ^ (e - 1) = 2 ^ e * (1 / 2) := by
    rw [zpow_sub₀ (by norm_num), zpow_one, mul_one_div]
  rw [hratio, ← sub_mul, abs_mul, abs_of_pos hpow, hhalf, mul_comm]
  refine mul_le_mul_of_nonneg_left ?_ hpow.le
  rw [abs_le]
  constructor <;> linarith

/-- The significand and exponent that a ratio is rounded to, however large they are. -/
def rounded (num den : Nat) : Nat × Int :=
  let e := exponentFor num den
  let m := nearest (num * twoPow (-e).toNat) (den * twoPow e.toNat)
  if m = overflow then (leastFull, e + 1) else (m, e)

theorem ofRatio?_eq (negative : Bool) {num : Nat} (hnum : num ≠ 0) (den : Nat) :
    ofRatio? negative num den =
      if (rounded num den).2 > 971 then none
      else some ⟨negative, (rounded num den).1, (rounded num den).2⟩ := by
  simp only [ofRatio?, hnum, if_false, rounded]
  split <;> rfl

section

variable {num den : Nat} (hnum : 0 < num) (hden : 0 < den)

include hnum hden

/-- Rounding is off by half a unit at most, and only what reaches the limit needs an exponent beyond
the range. -/
theorem rounded_spec : (rounded num den).1 < 2 ^ 53 ∧ -1074 ≤ (rounded num den).2 ∧
    |((rounded num den).1 : ℚ) * 2 ^ (rounded num den).2 - num / den| ≤
      2 ^ (exponentFor num den - 1) ∧
    (971 < (rounded num den).2 → roundingLimit ≤ num / den) := by
  obtain ⟨hleast, hlt, hfull⟩ := exponentFor_bounds hnum hden
  have hclose := abs_nearest_sub_le num hden (exponentFor num den)
  rw [rounded]
  set e := exponentFor num den
  set m := nearest (num * twoPow (-e).toNat) (den * twoPow e.toNat)
  have hpow : (0 : ℚ) < 2 ^ e := by positivity
  have hunits : (num : ℚ) / den / 2 ^ e < ((2 ^ 53 : Nat) : ℚ) := by
    rw [div_lt_iff₀ hpow]
    refine hlt.trans_eq ?_
    rw [zpow_add₀ (by norm_num), mul_comm]
    norm_cast
  have hmle : m ≤ 2 ^ 53 :=
    nearest_le (Nat.mul_pos hden (Nat.pow_pos (by decide))) (by rwa [scaled_ratio])
  by_cases hover : m = overflow
  · -- The next power of two, with one more in the exponent, is the same number.
    rw [if_pos hover]
    have hsame : (leastFull : ℚ) * 2 ^ (e + 1) = m * 2 ^ e := by
      rw [hover, zpow_add₀ (by norm_num), zpow_one]
      norm_num [leastFull, overflow, twoPow_eq]
      ring
    have hleastFull : leastFull < 2 ^ 53 := by decide
    refine ⟨hleastFull, by omega, by rwa [hsame], fun hlarge => ?_⟩
    have hm : (m : ℚ) = 2 ^ 53 := by
      rw [hover, overflow, twoPow_eq]
      norm_cast
    have hhalf : (2 : ℚ) ^ (e - 1) = 2 ^ e / 2 := by rw [zpow_sub₀ (by norm_num), zpow_one]
    have hlast : (2 : ℚ) ^ (971 : Int) ≤ 2 ^ e := zpow_le_zpow_right₀ (by norm_num) (by omega)
    rw [hm, hhalf, abs_le] at hclose
    calc roundingLimit ≤ (2 ^ 53 - 1 / 2) * 2 ^ e := by
          rw [roundingLimit]
          exact mul_le_mul_of_nonneg_left hlast (by norm_num)
      _ ≤ num / den := by linarith [hclose.2]
  · rw [if_neg hover]
    have hoverflow : overflow = 2 ^ 53 := rfl
    refine ⟨by omega, hleast, hclose, fun hlarge => ?_⟩
    calc roundingLimit ≤ 2 ^ 53 * 2 ^ (971 : Int) := by
          rw [roundingLimit]
          exact mul_le_mul_of_nonneg_right (by norm_num) (zpow_nonneg (by norm_num) _)
      _ = 2 ^ ((53 : Int) + 971) := by rw [zpow_add₀ (by norm_num), zpow_ofNat 2 53]
      _ ≤ 2 ^ (e + 52) := zpow_le_zpow_right₀ (by norm_num) (by omega)
      _ ≤ num / den := hfull (by omega)

/-- Half a unit of the last place is less than the ratio, but for the least exponent. -/
theorem halfUnit_le : (2 : ℚ) ^ (exponentFor num den - 1) ≤ num / den + 1 := by
  obtain ⟨hleast, _, hfull⟩ := exponentFor_bounds hnum hden
  rcases hleast.eq_or_lt with heq | hlt
  · have hone : (2 : ℚ) ^ (exponentFor num den - 1) ≤ 2 ^ (0 : Int) :=
      zpow_le_zpow_right₀ (by norm_num) (by omega)
    have hratio : (0 : ℚ) ≤ num / den := by positivity
    rw [zpow_zero] at hone
    linarith
  · have hle : (2 : ℚ) ^ (exponentFor num den - 1) ≤ 2 ^ (exponentFor num den + 52) :=
      zpow_le_zpow_right₀ (by norm_num) (by omega)
    linarith [hfull hlt]

/-- From one on, rounding is off by one part in `2 ^ 53` at most. -/
theorem halfUnit_le_of_one_le (hone : (1 : ℚ) ≤ num / den) :
    (2 : ℚ) ^ (exponentFor num den - 1) ≤ num / den / 2 ^ 53 := by
  obtain ⟨hleast, hlt, hfull⟩ := exponentFor_bounds hnum hden
  have hpos : 0 < exponentFor num den + 53 :=
    (one_lt_zpow_iff_right₀ (by norm_num)).mp (hone.trans_lt hlt)
  calc (2 : ℚ) ^ (exponentFor num den - 1) = 2 ^ (exponentFor num den + 52) / 2 ^ 53 := by
        rw [eq_div_iff (by norm_num), ← zpow_ofNat 2 53, ← zpow_add₀ (by norm_num)]
        congr 1
        change exponentFor num den - 1 + 53 = exponentFor num den + 52
        omega
    _ ≤ num / den / 2 ^ 53 := by
        have := hfull (by omega)
        gcongr

/-- A ratio below the limit has a double, off by half a unit at most. -/
theorem exists_ofRatio? (negative : Bool) (h : (num : ℚ) / den < roundingLimit) :
    ∃ x, ofRatio? negative num den = some x ∧
      |x.magnitude - num / den| ≤ 2 ^ (exponentFor num den - 1) := by
  obtain ⟨_, _, hclose, hlimit⟩ := rounded_spec hnum hden
  have hexponent : ¬971 < (rounded num den).2 := fun hlarge => absurd (hlimit hlarge) (not_le.mpr h)
  refine ⟨⟨negative, (rounded num den).1, (rounded num den).2⟩, ?_, hclose⟩
  rw [ofRatio?_eq negative hnum.ne', if_neg hexponent]

end

theorem isFinite_zero (negative : Bool) : (zero negative).IsFinite :=
  ⟨Nat.two_pow_pos 53, by simp [zero], by simp [zero]⟩

theorem isFinite_ofRatio? {negative : Bool} {num den : Nat} {x : Binary64} (hden : 0 < den)
    (h : ofRatio? negative num den = some x) : x.IsFinite := by
  rcases Nat.eq_zero_or_pos num with rfl | hnum
  · rw [ofRatio?, if_pos rfl] at h
    exact Option.some.inj h ▸ isFinite_zero negative
  · rw [ofRatio?_eq negative hnum.ne'] at h
    obtain ⟨hlt, hleast, _, _⟩ := rounded_spec hnum hden
    split at h
    · exact absurd h (by simp)
    · rw [← Option.some.inj h]
      exact ⟨hlt, hleast, not_lt.mp ‹_›⟩

end LocaleAudit.Binary64
