import LocaleAudit.Proofs.Json.Rounding

namespace LocaleAudit.Binary64

/-!
# The digits printed for a double

Whatever grid they are taken from, the digits name a decimal that is not above the upper end of the
interval that rounds to the double.
-/

/-- The middle between a double and the next one. -/
def upperEnd (x : Binary64) : ℚ :=
  (x.significand + 1 / 2) * 2 ^ x.exponent

theorem ten_zpow_eq (k : Int) : (10 : ℚ) ^ k = (tenPow k.toNat : ℚ) / (tenPow (-k).toNat : ℚ) := by
  rw [zpow_eq_div 10, tenPow_eq, tenPow_eq]
  push_cast
  rfl

theorem tenPow_pos (k : Nat) : (0 : ℚ) < tenPow k := by
  rw [tenPow_eq]
  positivity

theorem quarter_zpow (e : Int) : (2 : ℚ) ^ (e - 2) = 2 ^ e / 4 := by
  rw [zpow_sub₀ (by norm_num)]
  norm_num

/-! ## Places on a grid -/

section

variable (x : Binary64) (k : Int)

/-- A multiple is compared with quarters of the last place as the numbers that they stand for. -/
theorem grid_le_iff (candidate quarters : Nat) :
    candidate * (x.grid k).step ≤
        quarters * (twoPow (x.exponent - 2).toNat * tenPow (-k).toNat) ↔
      (candidate : ℚ) * 10 ^ k ≤ quarters * 2 ^ (x.exponent - 2) := by
  rw [two_zpow_eq, ten_zpow_eq, mul_div_assoc', mul_div_assoc',
    div_le_div_iff₀ (tenPow_pos _) (twoPow_pos _), grid, mul_assoc (candidate : ℚ),
    mul_assoc (quarters : ℚ)]
  exact_mod_cast Iff.rfl

theorem grid_upper : (((4 * x.significand + 2 : Nat) : ℚ)) * 2 ^ (x.exponent - 2) = x.upperEnd := by
  rw [quarter_zpow, upperEnd]
  push_cast
  ring

theorem grid_middle : ((4 * x.significand : Nat) : ℚ) * 2 ^ (x.exponent - 2) = x.magnitude := by
  rw [quarter_zpow, magnitude]
  push_cast
  ring

theorem magnitude_le_upperEnd : x.magnitude ≤ x.upperEnd :=
  mul_le_mul_of_nonneg_right (by linarith) (by positivity)

variable {x k}

theorem le_upperEnd_of_holds {candidate : Nat} (h : (x.grid k).holds candidate = true) :
    (candidate : ℚ) * 10 ^ k ≤ x.upperEnd := by
  rw [← grid_upper, ← grid_le_iff]
  change candidate * (x.grid k).step ≤ (x.grid k).upper
  rw [Grid.holds] at h
  split at h
  · rw [Bool.and_eq_true, decide_eq_true_eq, decide_eq_true_eq] at h
    exact h.2
  · rw [Bool.and_eq_true, decide_eq_true_eq, decide_eq_true_eq] at h
    exact h.2.le

theorem Grid.holds_of_pick? {g : Grid} {candidate : Nat} (h : g.pick? = some candidate) :
    g.holds candidate = true := by
  simp only [Grid.pick?] at h
  split at h
  · exact absurd h (by simp)
  · exact Option.some.inj h ▸ ‹_›
  · exact Option.some.inj h ▸ ‹_›
  · split at h <;> exact Option.some.inj h ▸ ‹_›

theorem floor_le_upperEnd :
    (((x.grid k).middle / (x.grid k).step : Nat) : ℚ) * 10 ^ k ≤ x.upperEnd := by
  refine le_trans ?_ x.magnitude_le_upperEnd
  rw [← grid_middle, ← grid_le_iff]
  exact Nat.div_mul_le_self (x.grid k).middle (x.grid k).step

theorem magnitude_lt_of_floor (h : (x.grid k).middle / (x.grid k).step = 0) :
    x.magnitude < 10 ^ k := by
  have hstep : 0 < (x.grid k).step :=
    Nat.mul_pos (Nat.pow_pos (by decide)) (Nat.pow_pos (by decide))
  have hlt : (x.grid k).middle < (x.grid k).step :=
    (Nat.div_eq_zero_iff.mp h).resolve_left hstep.ne'
  rw [← grid_middle, ← not_le, ← one_mul ((10 : ℚ) ^ k), ← Nat.cast_one, ← grid_le_iff, one_mul,
    not_le]
  exact hlt

end

/-! ## The search for a grid -/

/-- What a search that starts at `k` finds. -/
structure Found (x : Binary64) (steps : Nat) (k : Int) (found : Nat × Int) : Prop where
  le_upperEnd : (found.1 : ℚ) * 10 ^ found.2 ≤ x.upperEnd
  le_start : found.2 ≤ k
  /-- No digits are found only where the search gives up. -/
  of_zero : found.1 = 0 → found.2 = k - steps ∧ x.magnitude < 10 ^ found.2
  last_le : k - steps ≤ found.2

theorem Found.succ {x : Binary64} {steps : Nat} {k : Int} {found : Nat × Int}
    (h : Found x steps (k - 1) found) : Found x (steps + 1) k found where
  le_upperEnd := h.le_upperEnd
  le_start := by have := h.le_start; omega
  of_zero hzero := by have := h.of_zero hzero; exact ⟨by omega, this.2⟩
  last_le := by have := h.last_le; omega

theorem shortestFrom_found (x : Binary64) (steps : Nat) (k : Int) :
    Found x steps k (shortestFrom x steps k) := by
  induction steps generalizing k with
  | zero =>
    exact ⟨floor_le_upperEnd, le_rfl, fun hzero => ⟨by simp [shortestFrom],
      magnitude_lt_of_floor hzero⟩, by simp [shortestFrom]⟩
  | succ steps ih =>
    rw [shortestFrom]
    split
    · rename_i candidate hpick
      split
      · exact (ih (k - 1)).succ
      · rename_i hne
        exact ⟨le_upperEnd_of_holds (Grid.holds_of_pick? hpick), le_rfl,
          fun hzero => absurd hzero hne, by simp only; omega⟩
    · exact (ih (k - 1)).succ

/-! ## The digits -/

/-- The search starts two places above the first digit, as far as logarithms tell. -/
theorem shortest_found (x : Binary64) :
    Found x 40 (((x.significand.log2 : Int) + x.exponent) * 30103 / 100000 + 2) x.shortest :=
  shortestFrom_found x 40 _

section

variable {x : Binary64} (hx : x.IsFinite)

include hx

theorem upperEnd_le : x.upperEnd ≤ 2 ^ 1024 := by
  obtain ⟨hsignificand, _, hexponent⟩ := hx
  have hle : (x.significand : ℚ) + 1 ≤ 2 ^ 53 := by exact_mod_cast hsignificand
  have hpow : (2 : ℚ) ^ x.exponent ≤ 2 ^ (971 : Int) := zpow_le_zpow_right₀ (by norm_num) hexponent
  calc x.upperEnd ≤ 2 ^ 53 * 2 ^ (971 : Int) :=
        mul_le_mul (by linarith) hpow (by positivity) (by norm_num)
    _ = 2 ^ 1024 := by rw [← zpow_ofNat 2 53, ← zpow_add₀ (by norm_num)]; rfl

theorem shortest_power_bounds : -362 ≤ x.shortest.2 ∧ x.shortest.2 ≤ 310 := by
  have hlog : x.significand.log2 < 53 := by
    rcases Nat.eq_zero_or_pos x.significand with hzero | hpos
    · rw [hzero]
      decide
    · exact (Nat.log2_lt hpos.ne').mpr hx.significand_lt
  have hstart := (shortest_found x).le_start
  have hlast := (shortest_found x).last_le
  obtain ⟨_, hleast, hgreatest⟩ := hx
  constructor <;> omega

end

/-- Where no digits are found the power of ten is not one that is written with zeros behind it. -/
theorem shortest_ne_zero {x : Binary64} (hx : x.isZero = false) (hlower : 0 < x.shortest.2)
    (hupper : x.shortest.2 < 16) : x.shortest.1 ≠ 0 := by
  intro hzero
  have hsignificand : x.significand ≠ 0 := by simpa [isZero] using hx
  obtain ⟨hpower, hlt⟩ := (shortest_found x).of_zero hzero
  have hlarge : (129 : Int) ≤ x.significand.log2 + x.exponent := by omega
  have hlog : (2 : ℚ) ^ x.significand.log2 ≤ x.significand := by
    exact_mod_cast Nat.log2_self_le hsignificand
  have hmagnitude : (2 : ℚ) ^ (129 : Int) ≤ x.magnitude :=
    calc (2 : ℚ) ^ (129 : Int) ≤ 2 ^ ((x.significand.log2 : Int) + x.exponent) :=
          zpow_le_zpow_right₀ (by norm_num) hlarge
      _ = 2 ^ x.significand.log2 * 2 ^ x.exponent := by
          rw [zpow_add₀ (by norm_num), zpow_natCast]
      _ ≤ x.magnitude := mul_le_mul_of_nonneg_right hlog (by positivity)
  have hten : (10 : ℚ) ^ x.shortest.2 ≤ 10 ^ (16 : Int) :=
    zpow_le_zpow_right₀ (by norm_num) hupper.le
  have hcompare : (10 : ℚ) ^ (16 : Int) ≤ 2 ^ (129 : Int) := by norm_num
  linarith

end LocaleAudit.Binary64
