import Mathlib.Data.Int.Order.Basic
import Mathlib.Tactic.Linarith

/-!
# Binary64

Doubles with their sums, differences and comparisons.  Every finite double is a
multiple of the smallest positive one, `2 ^ -1074`, so it is kept as an integer of
such units: a sum is the integer sum, rounded to 53 bits, to the nearest and from
halfway to the even one.

* `Binary64.roundNat_mono`, `Binary64.roundNat_of_fits` — rounding keeps the order,
  and every number that fits;
* `Double.le_trans` — the comparison, which is false of a NaN;
* `Double.not_ofUnits_le`, `Double.ofInt_lt_abs` — a difference of one or
  more is seen through the rounding of a sum.
-/

namespace Binary64

/-! ## rounding -/

/-- `n / p` to the nearest integer, and from halfway to the even one. -/
def roundDiv (n p : Nat) : Nat :=
  if 2 * (n % p) < p ∨ 2 * (n % p) = p ∧ n / p % 2 = 0 then n / p else n / p + 1

/-- How many of the last bits do not fit. -/
def excess (n : Nat) : Nat := n.log2 - 52

/-- The nearest number with 53 bits. -/
def roundNat (n : Nat) : Nat := roundDiv n (2 ^ excess n) * 2 ^ excess n

/-- All bits but the last 53 from the first one on are zero. -/
def Fits (n : Nat) : Prop := ∃ m s, m < 2 ^ 53 ∧ n = m * 2 ^ s

/-- Rounding a quotient does not go below it. -/
theorem div_le_roundDiv (n p : Nat) : n / p ≤ roundDiv n p := by
  unfold roundDiv
  split
  · exact le_refl _
  · exact Nat.le_succ _

/-- Nor above the next number. -/
theorem roundDiv_le (n p : Nat) : roundDiv n p ≤ n / p + 1 := by
  unfold roundDiv
  split
  · exact Nat.le_succ _
  · exact le_refl _

/-- Rounding a quotient keeps the order. -/
theorem roundDiv_mono {n n' p : Nat} (h : n ≤ n') : roundDiv n p ≤ roundDiv n' p := by
  obtain hlt | heq := Nat.lt_or_eq_of_le (Nat.div_le_div_right (c := p) h)
  · calc roundDiv n p ≤ n / p + 1 := roundDiv_le n p
      _ ≤ n' / p := hlt
      _ ≤ roundDiv n' p := div_le_roundDiv n' p
  · -- the same quotient, so the remainders are in order
    have hn := Nat.div_add_mod n p
    have hn' := Nat.div_add_mod n' p
    rw [heq] at hn
    have hmod : n % p ≤ n' % p := by omega
    unfold roundDiv
    rw [heq]
    split
    · split
      · exact le_refl _
      · exact Nat.le_succ _
    · next hup =>
        split
        · next hdown => exact absurd (by omega) hup
        · exact le_refl _

theorem lt_two_pow_log2 {n : Nat} : n < 2 ^ (n.log2 + 1) := Nat.lt_log2_self

theorem log2_mono {n n' : Nat} (h : n ≤ n') : n.log2 ≤ n'.log2 := by
  by_cases hn : n = 0
  · simp [hn]
  · exact (Nat.le_log2 (by omega)).mpr ((Nat.log2_self_le hn).trans h)

/-- The quotient of the rounding has 53 bits, or one more. -/
theorem roundDiv_excess_le (n : Nat) : roundDiv n (2 ^ excess n) ≤ 2 ^ (n.log2 + 1 - excess n) := by
  have hlt : n < 2 ^ (n.log2 + 1 - excess n) * 2 ^ excess n := by
    rw [← pow_add, Nat.sub_add_cancel (by unfold excess; omega)]
    exact lt_two_pow_log2
  exact (roundDiv_le _ _).trans ((Nat.div_lt_iff_lt_mul (Nat.two_pow_pos _)).mpr hlt)

/-- Rounding does not leave the binade, but to its end. -/
theorem roundNat_le (n : Nat) : roundNat n ≤ 2 ^ (n.log2 + 1) := by
  calc roundNat n ≤ 2 ^ (n.log2 + 1 - excess n) * 2 ^ excess n :=
        Nat.mul_le_mul_right _ (roundDiv_excess_le n)
    _ = 2 ^ (n.log2 + 1) := by rw [← pow_add, Nat.sub_add_cancel (by unfold excess; omega)]

/-- Rounding does not go below the leading power of two. -/
theorem le_roundNat {n : Nat} (hn : n ≠ 0) : 2 ^ n.log2 ≤ roundNat n := by
  have hsplit : 2 ^ n.log2 = 2 ^ (n.log2 - excess n) * 2 ^ excess n := by
    rw [← pow_add, Nat.sub_add_cancel (by unfold excess; omega)]
  rw [hsplit]
  refine Nat.mul_le_mul_right _ (le_trans ?_ (div_le_roundDiv _ _))
  rw [Nat.le_div_iff_mul_le (Nat.two_pow_pos _), ← hsplit]
  exact Nat.log2_self_le hn

/-- **Rounding keeps the order.** -/
theorem roundNat_mono {n n' : Nat} (h : n ≤ n') : roundNat n ≤ roundNat n' := by
  obtain hlt | heq := Nat.lt_or_eq_of_le (log2_mono h)
  · have hn' : n' ≠ 0 := by
      rintro rfl
      simp at hlt
    calc roundNat n ≤ 2 ^ (n.log2 + 1) := roundNat_le n
      _ ≤ 2 ^ n'.log2 := Nat.pow_le_pow_right (by omega) hlt
      _ ≤ roundNat n' := le_roundNat hn'
  · rw [roundNat, roundNat, excess, excess, heq]
    exact Nat.mul_le_mul_right _ (roundDiv_mono h)

/-- An exact quotient is not rounded. -/
theorem roundDiv_of_dvd {n p : Nat} (hp : 0 < p) (h : p ∣ n) : roundDiv n p = n / p := by
  rw [roundDiv, Nat.mod_eq_zero_of_dvd h, if_pos (.inl (by omega))]

/-- **What fits is not rounded.** -/
theorem roundNat_of_fits {n : Nat} (h : Fits n) : roundNat n = n := by
  obtain ⟨m, s, hm, rfl⟩ := h
  have hdvd : 2 ^ excess (m * 2 ^ s) ∣ m * 2 ^ s := by
    by_cases hzero : m * 2 ^ s = 0
    · rw [hzero]
      exact dvd_zero _
    · refine Dvd.dvd.mul_left (pow_dvd_pow 2 ?_) m
      have hlt : m * 2 ^ s < 2 ^ (53 + s) := by
        rw [pow_add]
        exact Nat.mul_lt_mul_of_pos_right hm (Nat.two_pow_pos s)
      have hlog := (Nat.log2_lt hzero).mpr hlt
      unfold excess
      omega
  rw [roundNat, roundDiv_of_dvd (Nat.two_pow_pos _) hdvd, Nat.div_mul_cancel hdvd]

/-- A rounded number fits the significand. -/
theorem fits_roundNat (n : Nat) : Fits (roundNat n) := by
  have hbits : n.log2 + 1 - excess n ≤ 53 := by
    unfold excess
    omega
  have hle : roundDiv n (2 ^ excess n) ≤ 2 ^ 53 :=
    (roundDiv_excess_le n).trans (Nat.pow_le_pow_right (by omega) hbits)
  obtain hlt | heq := Nat.lt_or_eq_of_le hle
  · exact ⟨_, _, hlt, rfl⟩
  · exact ⟨1, 53 + excess n, by norm_num, by rw [roundNat, heq, pow_add, one_mul]⟩

/-- The same of an integer. -/
def roundInt (z : ℤ) : ℤ := if z < 0 then -(roundNat z.natAbs : ℤ) else roundNat z.natAbs

/-- The sign is kept. -/
theorem natAbs_roundInt (z : ℤ) : (roundInt z).natAbs = roundNat z.natAbs := by
  unfold roundInt
  split
  · simp
  · simp

/-- A number that fits is not rounded. -/
theorem roundInt_of_fits {z : ℤ} (h : Fits z.natAbs) : roundInt z = z := by
  rw [roundInt, roundNat_of_fits h]
  split
  · omega
  · omega

/-- Rounding keeps the order. -/
theorem roundInt_mono {y z : ℤ} (h : y ≤ z) : roundInt y ≤ roundInt z := by
  unfold roundInt
  split
  · split
    · have := roundNat_mono (show z.natAbs ≤ y.natAbs by omega)
      omega
    · omega
  · split
    · omega
    · exact_mod_cast roundNat_mono (show y.natAbs ≤ z.natAbs by omega)

/-- The units of the number 1. -/
@[irreducible] def one : Nat := 2 ^ 1074

/-- The first power of two that is not finite, in units. -/
@[irreducible] def overflow : Nat := 2 ^ (1024 + 1074)

theorem one_pos : 0 < one := by
  unfold one
  positivity

theorem mul_two_pow_lt {n : Nat} (h : n < 2 ^ 53) (k : Nat) : n * 2 ^ k < 2 ^ (1024 + k) :=
  calc n * 2 ^ k < 2 ^ 53 * 2 ^ k := Nat.mul_lt_mul_of_pos_right h (Nat.two_pow_pos k)
    _ = 2 ^ (53 + k) := (pow_add 2 53 k).symm
    _ ≤ 2 ^ (1024 + k) := Nat.pow_le_pow_right (by omega) (by omega)

/-- Whole numbers of 53 bits do not overflow. -/
theorem mul_one_lt_overflow {n : Nat} (h : n < 2 ^ 53) : n * one < overflow := by
  unfold one overflow
  exact mul_two_pow_lt h 1074

/-- Whole numbers of up to 53 bits fit. -/
theorem fits_mul_one {n : Nat} (h : n < 2 ^ 53) : Fits (n * one) := by
  unfold one
  exact ⟨n, 1074, h, rfl⟩

end Binary64

open Binary64

/-- A finite double, in units of the smallest positive one. -/
structure FiniteDouble where
  units : ℤ
  fits : Fits units.natAbs
  bounded : units.natAbs < overflow
deriving DecidableEq

/-- A whole number that fits. -/
def FiniteDouble.ofNat (n : Nat) (h : n < 2 ^ 53) : FiniteDouble where
  units := (n * one : ℕ)
  fits := fits_mul_one h
  bounded := mul_one_lt_overflow h

inductive Double where
  | nan
  | inf (negative : Bool)
  | finite (x : FiniteDouble)
deriving DecidableEq

instance : Coe FiniteDouble Double := ⟨.finite⟩

namespace Double

/-! ## operations -/

/-- The double nearest to a number of units. -/
def ofUnits (z : ℤ) : Double :=
  if h : roundNat z.natAbs < overflow then
    .finite ⟨roundInt z, natAbs_roundInt z ▸ fits_roundNat _, natAbs_roundInt z ▸ h⟩
  else .inf (decide (z < 0))

/-- `float(n)`. -/
def ofInt (n : ℤ) : Double := ofUnits (n * one)

def add : Double → Double → Double
  | .nan, _ | _, .nan => .nan
  | .inf a, .inf b => if a = b then .inf a else .nan
  | .inf a, .finite _ => .inf a
  | .finite _, .inf b => .inf b
  | .finite x, .finite y => ofUnits (x.units + y.units)

def neg : Double → Double
  | .nan => .nan
  | .inf a => .inf !a
  | .finite x => .finite ⟨-x.units, by rw [Int.natAbs_neg]; exact x.fits, by
      rw [Int.natAbs_neg]; exact x.bounded⟩

def abs : Double → Double
  | .nan => .nan
  | .inf _ => .inf false
  | .finite x => if x.units < 0 then neg (.finite x) else .finite x

/-- `x <= y`. -/
def le : Double → Double → Bool
  | .nan, _ | _, .nan => false
  | .inf a, .inf b => a || !b
  | .inf a, .finite _ => a
  | .finite _, .inf b => !b
  | .finite x, .finite y => decide (x.units ≤ y.units)

instance : Add Double := ⟨add⟩

instance : Sub Double := ⟨fun x y => x + neg y⟩

instance : LE Double := ⟨fun x y => le x y = true⟩

/-- `x < y`. -/
instance : LT Double := ⟨fun x y => x ≤ y ∧ ¬ y ≤ x⟩

instance (x y : Double) : Decidable (x ≤ y) := inferInstanceAs (Decidable (le x y = true))

instance (x y : Double) : Decidable (x < y) := inferInstanceAs (Decidable (x ≤ y ∧ ¬ y ≤ x))

/-! ## the order -/

/-- Finite doubles are compared by their units. -/
theorem coe_le {x y : FiniteDouble} : (x : Double) ≤ y ↔ x.units ≤ y.units := by
  change decide (x.units ≤ y.units) = true ↔ _
  exact decide_eq_true_iff

theorem le_trans {x y z : Double} (hxy : x ≤ y) (hyz : y ≤ z) : x ≤ z := by
  change le x y = true at hxy
  change le y z = true at hyz
  change le x z = true
  cases x <;> cases y <;> cases z <;> grind [le]

/-! ## what rounding keeps -/

/-- A sum is rounded once. -/
theorem finite_add (x y : FiniteDouble) :
    (x : Double) + (y : Double) = ofUnits (x.units + y.units) := rfl

/-- The next whole number. -/
def next (x : FiniteDouble) : ℤ := x.units / one + 1

/-- The next whole number is above by one at most. -/
theorem next_spec (x : FiniteDouble) :
    x.units < next x * one ∧ next x * one ≤ x.units + one := by
  have hone : (0 : ℤ) < one := by exact_mod_cast one_pos
  constructor
  · exact Int.lt_ediv_add_one_mul_self _ hone
  · have := Int.ediv_mul_le x.units hone.ne'
    rw [next, add_mul, one_mul]
    omega

theorem natAbs_next_lt {x : FiniteDouble} (h : x.units.natAbs < 2 ^ 52 * one) :
    (next x).natAbs < 2 ^ 53 := by
  have hone : (0 : ℤ) < one := by exact_mod_cast one_pos
  have hup : x.units / one < 2 ^ 52 := Int.ediv_lt_of_lt_mul hone (by push_cast; omega)
  have hlow : -2 ^ 52 ≤ x.units / one := (Int.le_ediv_iff_mul_le hone).mpr (by omega)
  unfold next
  omega

/-- **A sum that is larger by one** is above a double of common size: a whole
number lies between them, and that is not rounded away. -/
theorem not_ofUnits_le {z : ℤ} {x : FiniteDouble} (hx : x.units.natAbs < 2 ^ 52 * one)
    (h : x.units + one ≤ z) : ¬ ofUnits z ≤ .finite x := by
  obtain ⟨hlt, hle⟩ := next_spec x
  have hbits := natAbs_next_lt hx
  have hnat : (next x * one).natAbs = (next x).natAbs * one := by
    rw [Int.natAbs_mul, Int.natAbs_natCast]
  have hround := roundInt_mono (hle.trans h)
  rw [roundInt_of_fits (hnat ▸ fits_mul_one hbits)] at hround
  unfold ofUnits
  split
  · intro hcmp
    have hcmp : roundInt z ≤ x.units := of_decide_eq_true hcmp
    omega
  · next hover =>
      -- an overflow is towards the positive infinity
      have hpos : ¬ z < 0 := by
        intro hneg
        have hsmall := mul_one_lt_overflow hbits
        rw [roundInt, if_pos hneg] at hround
        omega
      rw [decide_eq_false hpos]
      intro hcmp
      cases hcmp

/-- A whole number of common size, exactly. -/
theorem ofInt_eq {n : ℤ} (h : n.natAbs < 2 ^ 53) :
    ∃ x : FiniteDouble, ofInt n = .finite x ∧ x.units = n * one := by
  have hnat : (n * one).natAbs = n.natAbs * one := by rw [Int.natAbs_mul, Int.natAbs_natCast]
  have hfits : Fits (n * one).natAbs := hnat ▸ fits_mul_one h
  have hlt : roundNat (n * one).natAbs < overflow := by
    rw [roundNat_of_fits hfits, hnat]
    exact mul_one_lt_overflow h
  rw [ofInt, ofUnits, dif_pos hlt]
  exact ⟨_, rfl, roundInt_of_fits hfits⟩

/-- **A difference that is larger by one** than a whole number is not rounded to it. -/
theorem ofInt_lt_abs {z : ℤ} {n : Nat} (hn : n + 1 < 2 ^ 53) (h : z ≤ -((n + 1 : ℕ) * one)) :
    ofInt n < (ofUnits z).abs := by
  obtain ⟨x, hx, hunits⟩ := @ofInt_eq n (by omega)
  have hone : (0 : ℤ) < one := by exact_mod_cast one_pos
  have hnat : (-(((n + 1 : ℕ) : ℤ) * one)).natAbs = (n + 1) * one := by
    rw [Int.natAbs_neg, Int.natAbs_mul, Int.natAbs_natCast, Int.natAbs_natCast]
  have hkept : roundInt (-(((n + 1 : ℕ) : ℤ) * one)) = -(((n + 1 : ℕ) : ℤ) * one) :=
    roundInt_of_fits (hnat ▸ fits_mul_one hn)
  have hround := roundInt_mono h
  rw [hkept, Nat.cast_add, Nat.cast_one, add_mul, one_mul] at hround
  have hzero : (0 : ℤ) ≤ n * one := mul_nonneg (Int.natCast_nonneg n) hone.le
  rw [hx]
  unfold ofUnits
  split
  · rw [abs, if_pos (by dsimp only; omega), neg]
    constructor
    · exact decide_eq_true (by dsimp only; omega)
    · exact fun hle => absurd (of_decide_eq_true hle) (by dsimp only; omega)
  · exact ⟨rfl, fun hle => by cases hle⟩

end Double
