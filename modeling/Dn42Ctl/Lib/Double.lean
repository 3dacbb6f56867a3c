import Mathlib.Data.Rat.Cast.Order
import Mathlib.Algebra.Order.Field.Power
import Mathlib.Tactic.NormNum
import Mathlib.Tactic.Ring
import Mathlib.Tactic.Positivity

/-!
# Double

Positive finite doubles: `mantissa * 2 ^ exponent` within the range of IEEE
binary64.  The one operation is the product with a power of two, which is
exact where the result is finite, so no rounding is involved.

* `PosDouble.scale` — the product, `none` standing for infinity;
* `PosDouble.scale_isSome_iff` — the result is finite below `2 ^ 1024`.
-/

/-- A positive finite double. -/
structure PosDouble where
  mantissa : Nat
  exponent : Int
  mantissa_pos : 0 < mantissa
  mantissa_lt : mantissa < 2 ^ 53
  exponent_ge : -1074 ≤ exponent
  exponent_le : exponent ≤ 971
deriving Repr

namespace PosDouble

/-- The number a double stands for. -/
def value (x : PosDouble) : ℚ := x.mantissa * (2 : ℚ) ^ x.exponent

/-- `x * float(2**k)`, where the power of two is finite: the exponent grows as
far as it can, then the mantissa. -/
def scale (x : PosDouble) (k : Nat) : Option PosDouble :=
  if hlow : x.exponent + k ≤ 971 then
    some ⟨x.mantissa, x.exponent + k, x.mantissa_pos, x.mantissa_lt, by
      have := x.exponent_ge
      omega, hlow⟩
  else
    if hfits : x.mantissa * 2 ^ (x.exponent + k - 971).toNat < 2 ^ 53 then
      some ⟨x.mantissa * 2 ^ (x.exponent + k - 971).toNat, 971,
        Nat.mul_pos x.mantissa_pos (Nat.two_pow_pos _), hfits, by omega, le_refl _⟩
    else none

def one : PosDouble := ⟨1, 0, by omega, by norm_num, by omega, by omega⟩

/-- A positive integer below `2 ^ 53`. -/
def ofNat (n : Nat) (hpos : 0 < n) (hlt : n < 2 ^ 53) : PosDouble :=
  ⟨n, 0, hpos, hlt, by omega, by omega⟩

theorem value_pos (x : PosDouble) : 0 < x.value :=
  mul_pos (by exact_mod_cast x.mantissa_pos) (zpow_pos (by norm_num) _)

theorem two_pow_split : (2 : ℚ) ^ 53 * (2 : ℚ) ^ (971 : ℤ) = 2 ^ 1024 := by
  rw [show (971 : ℤ) = ((971 : ℕ) : ℤ) from rfl, zpow_natCast, ← pow_add]

theorem value_lt (x : PosDouble) : x.value < 2 ^ 1024 := by
  have hm : (x.mantissa : ℚ) < 2 ^ 53 := by exact_mod_cast x.mantissa_lt
  have he : (2 : ℚ) ^ x.exponent ≤ 2 ^ (971 : ℤ) :=
    zpow_le_zpow_right₀ (by norm_num) x.exponent_le
  calc x.value ≤ x.mantissa * (2 : ℚ) ^ (971 : ℤ) :=
        mul_le_mul_of_nonneg_left he (Nat.cast_nonneg _)
    _ < 2 ^ 53 * (2 : ℚ) ^ (971 : ℤ) := mul_lt_mul_of_pos_right hm (zpow_pos (by norm_num) _)
    _ = 2 ^ 1024 := two_pow_split

/-- The exponent of a product beyond the largest one. -/
theorem value_mul_shift {x : PosDouble} {k : Nat} (h : ¬ x.exponent + k ≤ 971) :
    x.value * 2 ^ k =
      ((x.mantissa * 2 ^ (x.exponent + k - 971).toNat : Nat) : ℚ) * (2 : ℚ) ^ (971 : ℤ) := by
  obtain ⟨j, hj⟩ : ∃ j : ℕ, x.exponent + k = j + 971 := ⟨(x.exponent + k - 971).toNat, by omega⟩
  have hshift : (x.exponent + k - 971).toNat = j := by omega
  have htwo : (2 : ℚ) ≠ 0 := by norm_num
  rw [hshift, value, mul_assoc, ← zpow_natCast, ← zpow_add₀ htwo, hj, zpow_add₀ htwo, zpow_natCast,
    Nat.cast_mul, Nat.cast_pow, Nat.cast_ofNat, mul_assoc]

/-- A finite product is exact. -/
theorem value_scale {x y : PosDouble} {k : Nat} (h : x.scale k = some y) :
    y.value = x.value * 2 ^ k := by
  rw [scale] at h
  split at h
  · obtain rfl := Option.some.inj h
    rw [value, value, mul_assoc, ← zpow_natCast, ← zpow_add₀ (by norm_num)]
  · rename_i hhigh
    split at h
    · obtain rfl := Option.some.inj h
      rw [value_mul_shift hhigh]
      rfl
    · cases h

/-- The product is finite exactly below the first power of two that is not. -/
theorem scale_isSome_iff {x : PosDouble} {k : Nat} :
    (x.scale k).isSome ↔ x.value * 2 ^ k < 2 ^ 1024 := by
  cases h : x.scale k with
  | some y =>
      rw [← value_scale h]
      exact ⟨fun _ => y.value_lt, fun _ => rfl⟩
  | none =>
      rw [scale] at h
      split at h
      · cases h
      · rename_i hhigh
        split at h
        · cases h
        · rename_i hbig
          have hm : (2 : ℚ) ^ 53 ≤
              ((x.mantissa * 2 ^ (x.exponent + k - 971).toNat : Nat) : ℚ) := by
            exact_mod_cast Nat.le_of_not_lt hbig
          refine ⟨fun hsome => (by cases hsome), fun hlt => absurd hlt (not_lt.mpr ?_)⟩
          rw [value_mul_shift hhigh]
          calc (2 : ℚ) ^ 1024 = 2 ^ 53 * (2 : ℚ) ^ (971 : ℤ) := two_pow_split.symm
            _ ≤ _ := mul_le_mul_of_nonneg_right hm (zpow_pos (by norm_num) _).le

/-- `float(2**k)` is finite up to `2 ^ 1023`. -/
theorem one_scale_isSome_iff {k : Nat} : (one.scale k).isSome ↔ k < 1024 := by
  have hone : one.value = 1 := by
    rw [value, one]
    norm_num
  rw [scale_isSome_iff, hone, one_mul]
  exact pow_lt_pow_iff_right₀ (by norm_num)

end PosDouble
