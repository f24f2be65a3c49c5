import Mathlib.Algebra.Order.Ring.Int
import Mathlib.Algebra.Order.Group.Unbundled.Int
import Mathlib.Tactic.Linarith
import Mathlib.Tactic.Ring

/-! Doubling in 64-bit arithmetic, with a cap: when the capped value is that of exact
arithmetic. -/

set_option autoImplicit false

namespace Doubling

/-- Doubles the value so many times, and wraps around. -/
def doubled : Nat → Int64 → Int64
  | 0, value => value
  | count + 1, value => doubled count (value * 2)

/-- Doubles the value so many times, or until it reaches the bound. -/
def doubledBelow (bound : Int64) : Nat → Int64 → Int64
  | 0, value => value
  | count + 1, value => if value < bound then doubledBelow bound count (value * 2) else value

/-- A shift drops the bits it moves out, also when it moves out all of them. -/
def shiftLeft (value : Int64) (count : Nat) : Int64 :=
  if count < 64 then value <<< Int64.ofNat count else 0

theorem doubled_ofInt (count : Nat) (value : Int) :
    doubled count (.ofInt value) = .ofInt (value * 2 ^ count) := by
  induction count generalizing value with
  | zero => simp [doubled]
  | succ count hypothesis =>
    have twice : Int64.ofInt value * 2 = .ofInt (value * 2) := (Int64.ofInt_mul value 2).symm
    rw [doubled, twice, hypothesis, pow_succ']
    ring_nf

theorem ofInt_two_pow_of_le {count : Nat} (all : 64 ≤ count) : Int64.ofInt (2 ^ count) = 0 := by
  obtain ⟨more, rfl⟩ := Nat.exists_eq_add_of_le all
  rw [pow_add, Int64.ofInt_mul, show Int64.ofInt (2 ^ 64) = 0 by decide, Int64.zero_mul]

theorem one_shiftLeft (count : Nat) : shiftLeft 1 count = .ofInt (2 ^ count) := by
  unfold shiftLeft
  split
  · rename_i within
    revert count
    decide
  · rename_i all
    exact (ofInt_two_pow_of_le (Nat.le_of_not_lt all)).symm

/-! ### Capped values -/

/-- The exact value fits, or what is left of it after wrapping around is above the cap too. -/
def Survives (value cap : Int) : Prop :=
  value < 2 ^ 63 ∨ cap ≤ value % 2 ^ 64 ∧ value % 2 ^ 64 < 2 ^ 63

instance (value cap : Int) : Decidable (Survives value cap) :=
  inferInstanceAs (Decidable (_ ∨ _ ∧ _))

theorem toInt_min (left right : Int64) : (min left right).toInt = min left.toInt right.toInt := by
  change (if left ≤ right then left else right).toInt = _
  split
  · rename_i ordered
    rw [min_eq_left (Int64.le_iff_toInt_le.mp ordered)]
  · rename_i reversed
    rw [Int64.le_iff_toInt_le, not_le] at reversed
    rw [min_eq_right reversed.le]

theorem toInt_ofInt_of_lt {value : Int} (nonneg : 0 ≤ value) (fits : value < 2 ^ 63) :
    (Int64.ofInt value).toInt = value := by
  rw [Int64.toInt_ofInt]
  apply Int.bmod_eq_of_le
  · exact le_trans (by decide) nonneg
  · exact lt_of_lt_of_le fits (by decide)

/-- A value that does not fit is read from its low 64 bits. -/
theorem toInt_ofInt_eq (value : Int) :
    (Int64.ofInt value).toInt =
      if value % 2 ^ 64 < 2 ^ 63 then value % 2 ^ 64 else value % 2 ^ 64 - 2 ^ 64 := by
  rw [Int64.toInt_ofInt, Int.bmod_def]
  rfl

theorem min_ofInt_eq_iff {value cap : Int} (nonneg : 0 ≤ value) (positive : 0 < cap)
    (small : cap < 2 ^ 63) :
    min (Int64.ofInt value).toInt cap = min value cap ↔ Survives value cap := by
  unfold Survives
  by_cases fits : value < 2 ^ 63
  · rw [toInt_ofInt_of_lt nonneg fits]
    exact iff_of_true rfl (.inl fits)
  · have capped : min value cap = cap := min_eq_right (by omega)
    have low : 0 ≤ value % 2 ^ 64 := Int.emod_nonneg _ (by decide)
    have high : value % 2 ^ 64 < 2 ^ 64 := Int.emod_lt_of_pos _ (by decide)
    rw [capped, min_eq_right_iff, toInt_ofInt_eq]
    split <;> omega

/-- Doubling that stops at a bound is exact below it: the last doubling still fits. -/
theorem min_doubledBelow (bound value : Int64) (count : Nat) (small : 2 * bound.toInt < 2 ^ 63)
    (positive : 0 < value.toInt) :
    min (doubledBelow bound count value).toInt bound.toInt =
      min (value.toInt * 2 ^ count) bound.toInt := by
  induction count generalizing value with
  | zero => simp [doubledBelow]
  | succ count hypothesis =>
    rw [doubledBelow]
    split
    · rename_i below
      have less : value.toInt < bound.toInt := Int64.lt_iff_toInt_lt.mp below
      have twice : (value * 2).toInt = value.toInt * 2 := by
        rw [Int64.toInt_mul]
        apply Int.bmod_eq_of_le
        · exact le_trans (by decide) (by omega : (0 : Int) ≤ value.toInt * 2)
        · exact lt_of_lt_of_le (by omega : value.toInt * 2 < 2 ^ 63) (by decide)
      rw [hypothesis (value * 2) (by omega), twice, pow_succ', mul_assoc]
    · rename_i reached
      have most : bound.toInt ≤ value.toInt :=
        Int64.le_iff_toInt_le.mp (Int64.not_lt.mp reached)
      have grown : value.toInt ≤ value.toInt * 2 ^ (count + 1) :=
        le_mul_of_one_le_right positive.le (one_le_pow₀ (by decide))
      rw [min_eq_right most, min_eq_right (most.trans grown)]

end Doubling
