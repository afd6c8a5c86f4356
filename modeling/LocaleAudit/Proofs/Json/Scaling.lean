import LocaleAudit.Json.Reader
import LocaleAudit.Proofs.Json.Rounding

namespace LocaleAudit.Binary64

/-!
# Digits and a power of ten

A decimal is read as the double of its digits times, or through, the double of a power of ten.
Three roundings cost less than three units of the last place, so a decimal that far below the
largest double still has a double.
-/

theorem roundingLimit_eq : roundingLimit = (((2 ^ 54 - 1) * 2 ^ 970 : Nat) : ℚ) := by
  rw [roundingLimit, show (971 : Int) = ((1 + 970 : Nat) : Int) from rfl, zpow_natCast, pow_add]
  rw [Nat.cast_mul, Nat.cast_pow, Nat.cast_ofNat, ← mul_assoc]
  congr 1
  norm_num

theorem lt_roundingLimit {n : Nat} (h : n < (2 ^ 54 - 1) * 2 ^ 970) : (n : ℚ) < roundingLimit := by
  rw [roundingLimit_eq]
  exact_mod_cast h

/-! ## Powers of ten -/

theorem exists_tenPower? {k : Nat} (hk : k ≤ 308) :
    ∃ y, tenPower? k = some y ∧ |y.magnitude - 10 ^ k| ≤ 10 ^ k / 2 ^ 53 := by
  have hpos : 0 < tenPow k := Nat.pow_pos (by decide)
  have hratio : ((tenPow k : Nat) : ℚ) / (1 : Nat) = 10 ^ k := by
    rw [tenPow_eq]
    push_cast
    exact div_one _
  have hlimit : ((tenPow k : Nat) : ℚ) / (1 : Nat) < roundingLimit := by
    rw [Nat.cast_one, div_one]
    refine lt_roundingLimit (lt_of_le_of_lt (Nat.pow_le_pow_right (by decide) hk) ?_)
    decide +kernel
  obtain ⟨y, hy, hclose⟩ := exists_ofRatio? hpos Nat.one_pos false hlimit
  have hhalf := halfUnit_le_of_one_le hpos Nat.one_pos
    (by rw [hratio]; exact one_le_pow₀ (by norm_num))
  rw [hratio] at hclose hhalf
  exact ⟨y, hy, hclose.trans hhalf⟩

theorem tenPower_half_le {k : Nat} {y : Binary64} (h : |y.magnitude - 10 ^ k| ≤ 10 ^ k / 2 ^ 53) :
    10 ^ k / 2 ≤ y.magnitude := by
  have hpos : (0 : ℚ) < 10 ^ k := by positivity
  have hlower := (abs_le.mp h).1
  linarith

/-! ## Quotients -/

theorem div?_ratio (x y : Binary64) :
    ((x.ratio.1 * y.ratio.2 : Nat) : ℚ) / ((x.ratio.2 * y.ratio.1 : Nat) : ℚ) =
      x.magnitude / y.magnitude := by
  rw [← ratio_div, ← ratio_div, div_div_div_eq]
  push_cast
  rfl

theorem ratio_fst_pos {y : Binary64} (hy : 0 < y.magnitude) : 0 < y.ratio.1 := by
  have hne : (y.ratio.1 : ℚ) / y.ratio.2 ≠ 0 := by
    rw [ratio_div]
    exact hy.ne'
  refine Nat.pos_of_ne_zero fun hzero => hne ?_
  rw [hzero, Nat.cast_zero, zero_div]

@[simp] theorem zero_div? (negative : Bool) (y : Binary64) :
    (zero negative).div? y = some (zero (negative != y.negative)) := by
  simp [div?, ratio, zero, ofRatio?]

theorem exists_div? {x y : Binary64} (hx : x.magnitude ≤ 2 ^ 65) (hy : 1 / 2 ≤ y.magnitude) :
    ∃ z, x.div? y = some z ∧ z.magnitude ≤ 2 * (x.magnitude / y.magnitude) + 1 := by
  have hypos : 0 < y.magnitude := lt_of_lt_of_le (by norm_num) hy
  have hxnonneg := magnitude_nonneg x
  have hden : 0 < x.ratio.2 * y.ratio.1 := Nat.mul_pos (ratio_snd_pos x) (ratio_fst_pos hypos)
  have hquotient : x.magnitude / y.magnitude ≤ 2 ^ 66 := by
    rw [div_le_iff₀ hypos]
    linarith
  rcases Nat.eq_zero_or_pos (x.ratio.1 * y.ratio.2) with hzero | hnum
  · refine ⟨zero (x.negative != y.negative), ?_, ?_⟩
    · rw [div?, ofRatio?, if_pos hzero]
    · rw [zero_magnitude]
      positivity
  · have hlimit : ((2 ^ 66 : Nat) : ℚ) < roundingLimit := lt_roundingLimit (by decide +kernel)
    push_cast at hlimit
    obtain ⟨z, hz, hclose⟩ := exists_ofRatio? hnum hden (x.negative != y.negative)
      (by rw [div?_ratio]; exact hquotient.trans_lt hlimit)
    have hhalf := halfUnit_le hnum hden
    rw [div?_ratio] at hclose hhalf
    refine ⟨z, hz, ?_⟩
    have hupper := (abs_le.mp hclose).2
    linarith

theorem exists_scale?_of_neg {x : Binary64} {k : Int} (hk : k < 0) (hx : x.magnitude ≤ 2 ^ 65) :
    ∃ z, x.scale? k = some z := by
  induction hsteps : k.natAbs using Nat.strong_induction_on generalizing x k with
  | _ steps ih =>
    rw [scale?, if_neg (not_le.mpr hk)]
    by_cases hfar : k < -308
    · rw [dif_pos hfar]
      split
      · exact ⟨x, rfl⟩
      · obtain ⟨y, hy, hclose⟩ := exists_tenPower? (Nat.le_refl 308)
        have hten : (4 : ℚ) ≤ y.magnitude := by
          refine le_trans ?_ (tenPower_half_le hclose)
          rw [le_div_iff₀ (by norm_num), show (308 : Nat) = 1 + 307 from rfl, pow_add]
          calc (4 : ℚ) * 2 ≤ 10 ^ 1 * 1 := by norm_num
            _ ≤ 10 ^ 1 * 10 ^ 307 :=
              mul_le_mul_of_nonneg_left (one_le_pow₀ (by norm_num)) (by norm_num)
        obtain ⟨z, hz, hbound⟩ := exists_div? hx (le_trans (by norm_num) hten)
        have hquotient : x.magnitude / y.magnitude ≤ 2 ^ 63 := by
          rw [div_le_iff₀ (lt_of_lt_of_le (by norm_num) hten)]
          linarith
        rw [hy, Option.bind_some, hz, Option.bind_some]
        exact ih (k + 308).natAbs (by omega) (by omega) (by linarith) rfl
    · rw [dif_neg hfar]
      obtain ⟨y, hy, hclose⟩ := exists_tenPower? (k := (-k).toNat) (by omega)
      have hten : (1 / 2 : ℚ) ≤ y.magnitude := by
        refine le_trans ?_ (tenPower_half_le hclose)
        have hone : (1 : ℚ) ≤ 10 ^ (-k).toNat := one_le_pow₀ (by norm_num)
        linarith
      obtain ⟨z, hz, _⟩ := exists_div? hx hten
      exact ⟨z, by rw [hy, Option.bind_some, hz]⟩

/-! ## Products -/

/-- Two units and a half below `2 ^ 1024`. -/
def productLimit : ℚ :=
  (2 ^ 53 - 5 / 2) * 2 ^ (971 : Int)

theorem productLimit_lt : productLimit * (1 + 1 / 2 ^ 53) ^ 2 < roundingLimit := by
  have hpow : (0 : ℚ) < 2 ^ (971 : Int) := zpow_pos (by norm_num) _
  rw [productLimit, roundingLimit, mul_right_comm]
  exact mul_lt_mul_of_pos_right (by norm_num) hpow

theorem le_of_pow_le_productLimit {significand k : Nat} (hpos : 0 < significand)
    (h : (significand : ℚ) * 10 ^ k ≤ productLimit) : k ≤ 308 := by
  by_contra hk
  have hten : (2 ^ 54 - 1) * 2 ^ 970 < significand * 10 ^ k :=
    calc (2 ^ 54 - 1) * 2 ^ 970 < 10 ^ 309 := by decide +kernel
      _ ≤ 10 ^ k := Nat.pow_le_pow_right (by decide) (by omega)
      _ ≤ significand * 10 ^ k := Nat.le_mul_of_pos_left _ hpos
  have hten' : roundingLimit < (significand : ℚ) * 10 ^ k := by
    rw [roundingLimit_eq]
    exact_mod_cast hten
  have hlimit : productLimit ≤ roundingLimit :=
    mul_le_mul_of_nonneg_right (by norm_num) (zpow_nonneg (by norm_num) _)
  linarith

theorem mul?_ratio (x y : Binary64) :
    ((x.ratio.1 * y.ratio.1 : Nat) : ℚ) / ((x.ratio.2 * y.ratio.2 : Nat) : ℚ) =
      x.magnitude * y.magnitude := by
  rw [← ratio_div, ← ratio_div, div_mul_div_comm]
  push_cast
  rfl

theorem exists_mul? {x y : Binary64} (h : x.magnitude * y.magnitude < roundingLimit) :
    ∃ z, x.mul? y = some z := by
  rcases Nat.eq_zero_or_pos (x.ratio.1 * y.ratio.1) with hzero | hnum
  · exact ⟨_, by rw [mul?, ofRatio?, if_pos hzero]⟩
  · obtain ⟨z, hz, _⟩ := exists_ofRatio? hnum (Nat.mul_pos (ratio_snd_pos x) (ratio_snd_pos y))
      (x.negative != y.negative) (by rwa [mul?_ratio])
    exact ⟨z, hz⟩

theorem exists_scale?_of_nonneg {x : Binary64} {significand k : Nat} (hpos : 0 < significand)
    (hx : |x.magnitude - significand| ≤ significand / 2 ^ 53)
    (h : (significand : ℚ) * 10 ^ k ≤ productLimit) : ∃ z, x.scale? k = some z := by
  have hk : k ≤ 308 := le_of_pow_le_productLimit hpos h
  rw [scale?, if_pos (Int.natCast_nonneg k)]
  split
  · exact ⟨x, rfl⟩
  · obtain ⟨y, hy, hclose⟩ := exists_tenPower? hk
    have hproduct : x.magnitude * y.magnitude < roundingLimit :=
      calc x.magnitude * y.magnitude
          ≤ significand * (1 + 1 / 2 ^ 53) * (10 ^ k * (1 + 1 / 2 ^ 53)) := by
            have hxle := (abs_le.mp hx).2
            have hyle := (abs_le.mp hclose).2
            refine mul_le_mul ?_ ?_ (magnitude_nonneg y) (by positivity) <;> linarith
        _ = significand * 10 ^ k * (1 + 1 / 2 ^ 53) ^ 2 := by ring
        _ ≤ productLimit * (1 + 1 / 2 ^ 53) ^ 2 := mul_le_mul_of_nonneg_right h (by positivity)
        _ < roundingLimit := productLimit_lt
    rw [if_neg (by omega), Int.toNat_natCast, hy, Option.bind_some]
    exact exists_mul? hproduct

/-! ## What scaling keeps -/

theorem isFinite_mul? {x y z : Binary64} (h : x.mul? y = some z) : z.IsFinite :=
  isFinite_ofRatio? (Nat.mul_pos (ratio_snd_pos x) (ratio_snd_pos y)) h

theorem isFinite_div?_tenPower {x y z : Binary64} {k : Nat} (hk : k ≤ 308)
    (hy : tenPower? k = some y) (h : x.div? y = some z) : z.IsFinite := by
  obtain ⟨y', hy', hclose⟩ := exists_tenPower? hk
  obtain rfl : y' = y := Option.some.inj (hy'.symm.trans hy)
  have hpos : 0 < y'.magnitude := lt_of_lt_of_le (by positivity) (tenPower_half_le hclose)
  exact isFinite_ofRatio? (Nat.mul_pos (ratio_snd_pos x) (ratio_fst_pos hpos)) h

theorem isFinite_scale? {x z : Binary64} {k : Int} (hx : x.IsFinite) (h : x.scale? k = some z) :
    z.IsFinite := by
  fun_induction scale? x k with
  | case1 => exact Option.some.inj h ▸ hx
  | case2 => exact absurd h (by simp)
  | case3 x k _ _ _ =>
    obtain ⟨y, _, hmul⟩ := Option.bind_eq_some_iff.mp h
    exact isFinite_mul? hmul
  | case4 => exact Option.some.inj h ▸ hx
  | case5 x k hk hfar hzero ih =>
    obtain ⟨w, hw, hscale⟩ := Option.bind_eq_some_iff.mp h
    obtain ⟨y, hy, hdiv⟩ := Option.bind_eq_some_iff.mp hw
    exact ih w (isFinite_div?_tenPower (Nat.le_refl 308) hy hdiv) hscale
  | case6 x k hk hfar =>
    obtain ⟨y, hy, hdiv⟩ := Option.bind_eq_some_iff.mp h
    exact isFinite_div?_tenPower (by omega) hy hdiv

end LocaleAudit.Binary64

namespace LocaleAudit.Json

open Binary64

theorem exists_ofNat (negative : Bool) {n : Nat} (hpos : 0 < n) (hn : n < unsignedLimit) :
    ∃ x, ofRatio? negative n 1 = some x ∧ |x.magnitude - n| ≤ n / 2 ^ 53 := by
  have hone : (1 : ℚ) ≤ (n : ℚ) / (1 : Nat) := by
    rw [Nat.cast_one, div_one]
    exact_mod_cast hpos
  have hlimit : (n : ℚ) / (1 : Nat) < roundingLimit := by
    rw [Nat.cast_one, div_one]
    refine lt_roundingLimit (hn.trans ?_)
    decide +kernel
  obtain ⟨x, hx, hclose⟩ := exists_ofRatio? hpos Nat.one_pos negative hlimit
  have hhalf := hclose.trans (halfUnit_le_of_one_le hpos Nat.one_pos hone)
  rw [Nat.cast_one, div_one] at hhalf
  exact ⟨x, hx, hhalf⟩

theorem doubleOf_zero (negative : Bool) (power : Int) :
    doubleOf negative 0 power = (zero negative).scale? power :=
  rfl

/-- Digits and a power of ten have a double when their product stays below the largest one. -/
theorem exists_doubleOf (negative : Bool) {significand : Nat} {power : Int}
    (hsignificand : significand < unsignedLimit)
    (h : (significand : ℚ) * 10 ^ power ≤ productLimit) :
    ∃ x, doubleOf negative significand power = some x := by
  rcases Nat.eq_zero_or_pos significand with rfl | hpos
  · rw [doubleOf_zero]
    rcases lt_or_ge power 0 with hneg | hnonneg
    · exact exists_scale?_of_neg hneg (by rw [zero_magnitude]; positivity)
    · rw [scale?, if_pos hnonneg]
      exact ⟨_, rfl⟩
  · obtain ⟨x, hx, hclose⟩ := exists_ofNat negative hpos hsignificand
    rw [doubleOf, hx]
    rcases lt_or_ge power 0 with hneg | hnonneg
    · have hlt : (significand : ℚ) < 2 ^ 64 := by exact_mod_cast hsignificand
      have hupper := (abs_le.mp hclose).2
      exact exists_scale?_of_neg hneg (by linarith)
    · lift power to Nat using hnonneg
      rw [zpow_natCast] at h
      exact exists_scale?_of_nonneg hpos hclose h

theorem isFinite_doubleOf {negative : Bool} {significand : Nat} {power : Int} {x : Binary64}
    (h : doubleOf negative significand power = some x) : x.IsFinite := by
  obtain ⟨y, hy, hscale⟩ := Option.bind_eq_some_iff.mp h
  exact isFinite_scale? (isFinite_ofRatio? Nat.one_pos hy) hscale

end LocaleAudit.Json
