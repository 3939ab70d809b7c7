import Mathlib.Data.UInt
import Mathlib.Tactic.Ring

/-!
# Saturating arithmetic on fixed-width unsigned integers

The operations that clamp at the ends of the range instead of wrapping, at the widths where they are
used, each with the one lemma that says what it is in `ℕ`. A proof about code that uses
them rewrites by that lemma and continues with `omega`.
-/

namespace UInt8

theorem toNat_ofNatClamp (n : ℕ) : (UInt8.ofNatClamp n).toNat = min n (2 ^ 8 - 1) := by
  unfold UInt8.ofNatClamp
  split
  · rename_i h
    rw [UInt8.toNat_ofNatLT, Nat.min_eq_left (by simp only [UInt8.size] at h; omega)]
  · rename_i h
    rw [UInt8.toNat_ofNatLT, Nat.min_eq_right (by simp only [UInt8.size] at h; omega)]
    rfl

end UInt8

namespace UInt32

/-- Addition that stays at the largest value instead of wrapping. -/
def saturatingAdd (a b : UInt32) : UInt32 := .ofNatClamp (a.toNat + b.toNat)

/-- Multiplication that stays at the largest value instead of wrapping. -/
def saturatingMul (a b : UInt32) : UInt32 := .ofNatClamp (a.toNat * b.toNat)

theorem toNat_ofNatClamp (n : ℕ) : (UInt32.ofNatClamp n).toNat = min n (2 ^ 32 - 1) := by
  unfold UInt32.ofNatClamp
  split
  · rename_i h
    rw [UInt32.toNat_ofNatLT, Nat.min_eq_left (by simp only [UInt32.size] at h; omega)]
  · rename_i h
    rw [UInt32.toNat_ofNatLT, Nat.min_eq_right (by simp only [UInt32.size] at h; omega)]
    rfl

@[simp] theorem toNat_saturatingAdd (a b : UInt32) :
    (a.saturatingAdd b).toNat = min (a.toNat + b.toNat) (2 ^ 32 - 1) :=
  toNat_ofNatClamp _

@[simp] theorem toNat_saturatingMul (a b : UInt32) :
    (a.saturatingMul b).toNat = min (a.toNat * b.toNat) (2 ^ 32 - 1) :=
  toNat_ofNatClamp _

/-- What counts up to the largest value counts one more. -/
theorem toNat_saturatingAdd_one {a : UInt32} {n : ℕ} (h : a.toNat = min n (2 ^ 32 - 1)) :
    (a.saturatingAdd 1).toNat = min (n + 1) (2 ^ 32 - 1) := by
  have hone : (1 : UInt32).toNat = 1 := rfl
  rw [toNat_saturatingAdd, h, hone]
  omega

theorem toNat_max_one (a : UInt32) : (max 1 a).toNat = max 1 a.toNat := by
  rw [UInt32.max_def]
  split <;> simp_all [UInt32.le_iff_toNat_le]

end UInt32

namespace UInt64

/-- Addition that stays at the largest value instead of wrapping. -/
def saturatingAdd (a b : UInt64) : UInt64 := .ofNatClamp (a.toNat + b.toNat)

/-- Subtraction that stays at zero instead of wrapping. -/
def saturatingSub (a b : UInt64) : UInt64 := .ofNatClamp (a.toNat - b.toNat)

/-- Multiplication that stays at the largest value instead of wrapping. -/
def saturatingMul (a b : UInt64) : UInt64 := .ofNatClamp (a.toNat * b.toNat)

theorem toNat_ofNatClamp (n : ℕ) : (UInt64.ofNatClamp n).toNat = min n (2 ^ 64 - 1) := by
  unfold UInt64.ofNatClamp
  split
  · rename_i h
    rw [UInt64.toNat_ofNatLT, Nat.min_eq_left (by simp only [UInt64.size] at h; omega)]
  · rename_i h
    rw [UInt64.toNat_ofNatLT, Nat.min_eq_right (by simp only [UInt64.size] at h; omega)]
    rfl

@[simp] theorem toNat_saturatingAdd (a b : UInt64) :
    (a.saturatingAdd b).toNat = min (a.toNat + b.toNat) (2 ^ 64 - 1) :=
  toNat_ofNatClamp _

/-- In `ℕ` the saturating difference is the truncated one. -/
@[simp] theorem toNat_saturatingSub (a b : UInt64) :
    (a.saturatingSub b).toNat = a.toNat - b.toNat := by
  have ha := a.toNat_lt
  rw [saturatingSub, toNat_ofNatClamp, Nat.min_eq_left (by omega)]

@[simp] theorem toNat_saturatingMul (a b : UInt64) :
    (a.saturatingMul b).toNat = min (a.toNat * b.toNat) (2 ^ 64 - 1) :=
  toNat_ofNatClamp _

/-- A list added up, saturating. -/
theorem toNat_foldl_saturatingAdd (l : List UInt64) (a : UInt64) :
    (l.foldl saturatingAdd a).toNat = min (a.toNat + (l.map UInt64.toNat).sum) (2 ^ 64 - 1) := by
  induction l generalizing a with
  | nil =>
    have ha := a.toNat_lt
    simp only [List.foldl_nil, List.map_nil, List.sum_nil]
    omega
  | cons b l ih =>
    rw [List.foldl_cons, ih, toNat_saturatingAdd, List.map_cons, List.sum_cons]
    omega

/-- A list added up without an overflow. -/
theorem toNat_sum {l : List UInt64} (h : (l.map UInt64.toNat).sum < 2 ^ 64) :
    l.sum.toNat = (l.map UInt64.toNat).sum := by
  induction l with
  | nil => rfl
  | cons a l ih =>
    rw [List.map_cons, List.sum_cons] at h
    rw [List.sum_cons, List.map_cons, List.sum_cons, UInt64.toNat_add, ih (by omega),
      Nat.mod_eq_of_lt h]

end UInt64

/-! ### Between signed and unsigned -/

/-- The unsigned number, and zero for a negative one. -/
def Int64.clampToUInt64 (n : Int64) : UInt64 := if 0 ≤ n then n.toUInt64 else 0

theorem Int64.toNat_clampToUInt64 (n : Int64) : n.clampToUInt64.toNat = n.toInt.toNat := by
  rw [clampToUInt64]
  split
  · rename_i h
    rw [toNat_toUInt64_of_le h, toNat_toInt]
  · rename_i h
    rw [Int64.le_iff_toInt_le, Int64.toInt_zero] at h
    rw [UInt64.toNat_zero]
    omega

/-- A count comes back as it was sent. -/
theorem Int64.toNat_clampToUInt64_ofNat {n : ℕ} (h : n < 2 ^ 63) :
    (Int64.ofNat n).clampToUInt64.toNat = n := by
  rw [toNat_clampToUInt64, toInt_ofNat_of_lt h, Int.toNat_natCast]

/-- The signed number, and the largest one where there is none. -/
def UInt64.clampToInt64 (n : UInt64) : Int64 :=
  if n.toNat < 2 ^ 63 then n.toInt64 else .maxValue

theorem UInt64.toInt_clampToInt64 (n : UInt64) :
    n.clampToInt64.toInt = (min n.toNat (2 ^ 63 - 1) : ℕ) := by
  rw [clampToInt64]
  split
  · rename_i h
    have hofNat : n.toInt64 = Int64.ofNat n.toNat := by
      rw [← UInt64.toInt64_ofNat', UInt64.ofNat_toNat]
    rw [hofNat, Int64.toInt_ofNat_of_lt h, Nat.min_eq_left (by omega)]
  · rename_i h
    rw [Nat.min_eq_right (by omega)]
    rfl
