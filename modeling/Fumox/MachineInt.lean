import Mathlib

/-!
Machine integers of a width as mathematical integers: conversions that wrap, operations that
saturate, and when either is exact.
-/

namespace MachineInt

def signed (width : ℕ) (z : ℤ) : ℤ := z.bmod (2 ^ width)

/-- The value fits a signed register of the width. -/
def Fits (width : ℕ) (z : ℤ) : Prop := -2 ^ width ≤ 2 * z ∧ 2 * z < 2 ^ width

theorem signed_eq_self {width : ℕ} {z : ℤ} (h : Fits width z) : signed width z = z := by
  obtain ⟨hlow, hhigh⟩ := h
  unfold signed
  apply Int.bmod_eq_of_le_mul_two
  · push_cast
    omega
  · push_cast
    omega

theorem signed_sub (width : ℕ) (z : ℤ) : signed width (z - 2 ^ width) = signed width z := by
  have hcast : ((2 ^ width : ℕ) : ℤ) = 2 ^ width := by
    push_cast
    rfl
  unfold signed
  rw [← hcast, Int.sub_bmod_right]

theorem signed_over {width : ℕ} {z : ℤ} (h : Fits width (z - 2 ^ width)) :
    signed width z = z - 2 ^ width := by
  rw [← signed_sub, signed_eq_self h]

/-- The value that an unsigned register of the width holds. -/
def unsigned (width : ℕ) (z : ℤ) : ℕ := (z % 2 ^ width).toNat

theorem unsigned_lt (width : ℕ) (z : ℤ) : unsigned width z < 2 ^ width := by
  have hpos : (0 : ℤ) < 2 ^ width := by positivity
  have hlt := Int.emod_lt_of_pos z hpos
  have hnonneg := Int.emod_nonneg z hpos.ne'
  have hcast : ((unsigned width z : ℕ) : ℤ) < ((2 ^ width : ℕ) : ℤ) := by
    unfold unsigned
    rw [Int.toNat_of_nonneg hnonneg]
    push_cast
    exact hlt
  exact Int.ofNat_lt.mp hcast

theorem unsigned_natCast (width n : ℕ) : unsigned width n = n % 2 ^ width := by
  unfold unsigned
  have hcast : ((n : ℤ) % 2 ^ width) = ((n % 2 ^ width : ℕ) : ℤ) := by
    push_cast
    rfl
  rw [hcast, Int.toNat_natCast]

theorem unsigned_cast_iff {width : ℕ} {z : ℤ} :
    (unsigned width z : ℤ) = z ↔ 0 ≤ z ∧ z < 2 ^ width := by
  have hpos : (0 : ℤ) < 2 ^ width := by positivity
  have hnonneg := Int.emod_nonneg z hpos.ne'
  unfold unsigned
  rw [Int.toNat_of_nonneg hnonneg]
  constructor
  · intro h
    rw [← h]
    exact ⟨hnonneg, Int.emod_lt_of_pos z hpos⟩
  · rintro ⟨hlow, hhigh⟩
    exact Int.emod_eq_of_lt hlow hhigh

def saturateUnsigned (width : ℕ) (n : ℕ) : ℕ := min n (2 ^ width - 1)

/-- The nearest value of the signed range `[-half, half)`. -/
def saturateSigned (half : ℤ) (z : ℤ) : ℤ := max (-half) (min (half - 1) z)

theorem saturateSigned_eq_self {half z : ℤ} (hlow : -half ≤ z) (hhigh : z < half) :
    saturateSigned half z = z := by
  unfold saturateSigned
  omega

end MachineInt
