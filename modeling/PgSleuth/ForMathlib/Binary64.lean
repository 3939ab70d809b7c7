import Mathlib

/-!
# Exact double-precision arithmetic

A double is, if it is finite, a rational number, and an operation on doubles gives the double
nearest to what the operation gives on the numbers. When that number is a double itself there is
nothing to round. This file says so for differences and products of `Float`, and that doubles
compare as their numbers do: what it takes to replace double-precision arithmetic by exact
arithmetic where the numbers are short enough.

## The model

`Float` is the binary64 format of the core library, with its rounding, infinities and signed
zeros. Its operations unpack the bits, compute on a sign, a mantissa and an exponent, round and
pack again. A mantissa that is not that of a subnormal has 53 digits, and it is in this canonical
form only that an exponent decides a comparison. The number of a double is read off its unpacked
form, since `Float.toRat?` goes through an operation that has no model.

## Main definitions

* `Binary64.value` — the rational number a double stands for, if it is finite
* `Binary64.Representable` — the numbers that are those of doubles

## Main results

* `Binary64.value_sub`, `Binary64.value_mul` — what is representable is not rounded
* `Binary64.lt_iff` — doubles compare as their numbers
-/

namespace Binary64

open Float.Model Float.Model.UnpackedFloat

/-- The number an unpacked double stands for. -/
def unpackedValue : UnpackedFloat → Option ℚ
  | .finite s m e _ => some (s.apply m * 2 ^ e)
  | .zero _ => some 0
  | .infinity _ => none
  | .notANumber => none

/-- The number a double stands for, if it is finite. -/
def value (x : Float) : Option ℚ := unpackedValue x.toModel.unpack

/-- A number of at most 53 binary digits, the last of them in a place that a double has. -/
def Representable (q : ℚ) : Prop :=
  ∃ n e : ℤ, |n| < 2 ^ 53 ∧ -1074 ≤ e ∧ e ≤ 971 ∧ q = n * 2 ^ e

/-! ### Canonical form -/

/-- The mantissa and the exponent are those of a double. -/
structure Canonical (m : ℕ) (e : ℤ) : Prop where
  lt : m < 2 ^ 53
  le_exponent : -1074 ≤ e
  exponent_le : e ≤ 971
  /-- Only a subnormal has leading zeros. -/
  normal : 2 ^ 52 ≤ m ∨ e = -1074

theorem toNat_one_append {w : ℕ} (b : BitVec w) : (1#1 ++ b).toNat = 2 ^ w + b.toNat := by
  rw [BitVec.toNat_append, ← Nat.shiftLeft_add_eq_or_of_lt b.isLt, Nat.shiftLeft_eq]
  simp

/-- What unpacking gives is canonical. -/
theorem canonical_of_unpack {x : Float.Model} {s : Sign} {m : ℕ} {e : ℤ} {h : 0 < m}
    (hx : x.unpack = .finite s m e h) : Canonical m e := by
  have hbias : (Format.binary64.exponentBias : ℤ) = 1023 := rfl
  unfold Float.Model.unpack UnpackedFloat.unpack at hx
  have hmantissa : (@unpackMantissa Format.binary64 x.toBits.toBitVec).toNat < 2 ^ 52 :=
    (@unpackMantissa Format.binary64 x.toBits.toBitVec).isLt
  have hexponent : (@unpackExponent Format.binary64 x.toBits.toBitVec).toNat < 2 ^ 11 :=
    (@unpackExponent Format.binary64 x.toBits.toBitVec).isLt
  dsimp only at hx
  split at hx
  · split at hx <;> cases hx
  · rename_i hfinite
    have hmax : (@unpackExponent Format.binary64 x.toBits.toBitVec).toNat ≠ 2047 :=
      fun h => hfinite (BitVec.eq_of_toNat_eq h)
    split at hx
    · rename_i hzero
      split at hx
      · cases hx
      · cases hx
        rw [hzero, hbias]
        exact ⟨by omega, by simp, by simp, Or.inr (by simp)⟩
    · rename_i hnormal
      have hmin : (@unpackExponent Format.binary64 x.toBits.toBitVec).toNat ≠ 0 :=
        fun h => hnormal (BitVec.eq_of_toNat_eq h)
      have happend : (1#1 ++ @unpackMantissa Format.binary64 x.toBits.toBitVec).toNat =
          2 ^ 52 + (@unpackMantissa Format.binary64 x.toBits.toBitVec).toNat :=
        toNat_one_append _
      cases hx
      rw [hbias, happend]
      exact ⟨by omega, by push_cast; omega, by push_cast; omega, Or.inl (Nat.le_add_right _ _)⟩

/-- A field that is neither all ones nor all zeros is that of a normal number. -/
theorem unpack_normal {m f : ℕ} (s : Sign) (h : 0 < m) (hge : 2 ^ 52 ≤ m) (hlt : m < 2 ^ 53)
    (hpos : 0 < f) (hmax : f < 2047) :
    UnpackedFloat.unpack Format.binary64
        (packComponents Format.binary64 s (BitVec.ofNat _ f) (BitVec.ofNat _ m)) =
      .finite s m (f - 1075) h := by
  have hfield : (BitVec.ofNat 11 f).toNat = f := by
    rw [BitVec.toNat_ofNat]
    omega
  have hones : BitVec.ofNat 11 f ≠ -1#11 := by
    intro heq
    have hf : (BitVec.ofNat 11 f).toNat = 2047 := congrArg BitVec.toNat heq
    omega
  have hzeros : BitVec.ofNat 11 f ≠ 0#11 := by
    intro heq
    have hf : (BitVec.ofNat 11 f).toNat = 0 := congrArg BitVec.toNat heq
    omega
  have hmantissa : (1#1 ++ BitVec.ofNat 52 m).toNat = m := by
    rw [toNat_one_append, BitVec.toNat_ofNat]
    omega
  simp only [UnpackedFloat.unpack, unpackMantissa_packComponents, unpackExponent_packComponents,
    unpackSign_packComponents, Sign.ofBitVec_toBitVec, if_neg hones, if_neg hzeros, hfield,
    hmantissa]
  rfl

/-- The field of zeros is that of a subnormal. -/
theorem unpack_subnormal {m : ℕ} (s : Sign) (h : 0 < m) (hlt : m < 2 ^ 52) :
    UnpackedFloat.unpack Format.binary64
        (packComponents Format.binary64 s 0#_ (BitVec.ofNat _ m)) = .finite s m (-1074) h := by
  have hmantissa : (BitVec.ofNat 52 m).toNat = m := by
    rw [BitVec.toNat_ofNat]
    omega
  have hones : (0#11) ≠ -1#11 := by decide
  have hzeros : BitVec.ofNat 52 m ≠ 0#52 := by
    intro heq
    have hm : (BitVec.ofNat 52 m).toNat = 0 := congrArg BitVec.toNat heq
    omega
  simp only [UnpackedFloat.unpack, unpackMantissa_packComponents, unpackExponent_packComponents,
    unpackSign_packComponents, Sign.ofBitVec_toBitVec, if_neg hones, if_true, dif_neg hzeros,
    hmantissa]
  rfl

/-- Packing loses nothing of what is canonical. -/
theorem unpack_pack {m : ℕ} {e : ℤ} (s : Sign) (h : 0 < m) (hc : Canonical m e) :
    (Float.Model.pack (.finite s m e h)).unpack = .finite s m e h := by
  obtain ⟨hlt, hle, hge, hnormal⟩ := hc
  have hbias : (Format.binary64.exponentBias : ℤ) = 1023 := rfl
  have hbits : Format.binary64.mantissaBits = 53 := rfl
  have hfits : ¬ 2 ^ 11 ≤ (e + 1023 + 52).toNat + 1 := by omega
  unfold Float.Model.unpack Float.Model.pack
  simp only [UnpackedFloat.pack, hbits, hbias, Nat.cast_ofNat, if_neg hfits]
  by_cases hm : 2 ^ 52 ≤ m
  · have hlog : m.log2 = 52 := (Nat.log2_eq_iff h.ne').mpr ⟨hm, hlt⟩
    have hexp : ((e + 1023 + 52).toNat : ℤ) - 1075 = e := by omega
    rw [if_pos (by rw [hlog])]
    exact (unpack_normal s h hm hlt (by omega) (by omega)).trans (by rw [hexp])
  · have hlog : m.log2 < 52 := (Nat.log2_lt h.ne').mpr (by omega)
    obtain rfl : e = -1074 := hnormal.resolve_left hm
    rw [if_neg (by omega)]
    exact unpack_subnormal s h (by omega)

/-! ### Rounding what is exact -/

theorem log2_mul_two_pow {m : ℕ} (h : m ≠ 0) (j : ℕ) : (m * 2 ^ j).log2 = m.log2 + j := by
  induction j with
  | zero => simp
  | succ j ih =>
    rw [pow_succ', Nat.mul_left_comm, Nat.log2_two_mul (by positivity), ih, Nat.add_assoc]

/-- A place is a whole number of those after it. -/
theorem two_zpow_eq_of_le {e f : ℤ} (h : e ≤ f) :
    (2 : ℚ) ^ f = 2 ^ (f - e).toNat * 2 ^ e := by
  rw [← zpow_natCast, ← zpow_add₀ two_ne_zero, Int.toNat_of_nonneg (by omega), sub_add_cancel]

/-- Two ways to write a number differ by zeros at the end. -/
theorem eq_mul_two_pow {m n : ℕ} {e f : ℤ} (h : (n : ℚ) * 2 ^ e = m * 2 ^ f) (hle : e ≤ f) :
    n = m * 2 ^ (f - e).toNat := by
  rw [two_zpow_eq_of_le hle, ← mul_assoc] at h
  exact_mod_cast mul_right_cancel₀ (zpow_ne_zero e two_ne_zero) h

/-- The place of the last digit that a double has room for. -/
def lastPlace (m : ℕ) (e : ℤ) : ℤ := max (m.log2 + e - 52) (-1074)

theorem targetExponent_totalExponent (m : ℕ) (e : ℤ) :
    Format.binary64.targetExponent (totalExponent m e) = lastPlace m e := by
  have hbits : (Format.binary64.mantissaBits : ℤ) = 53 := rfl
  have hmin : Format.binary64.minExponent = -1074 := rfl
  rw [Format.targetExponent, totalExponent, hbits, hmin, lastPlace]
  congr 1
  ring

theorem lastPlace_mul_two_pow {m : ℕ} (h : 0 < m) (j : ℕ) (e : ℤ) :
    lastPlace (m * 2 ^ j) e = lastPlace m (e + j) := by
  rw [lastPlace, log2_mul_two_pow h.ne', lastPlace]
  push_cast
  congr 1
  ring

/-- The last place belongs to the number. -/
theorem lastPlace_congr {m n : ℕ} {e f : ℤ} (hm : 0 < m) (hn : 0 < n)
    (h : (n : ℚ) * 2 ^ e = m * 2 ^ f) : lastPlace n e = lastPlace m f := by
  rcases le_total e f with hle | hle
  · rw [eq_mul_two_pow h hle, lastPlace_mul_two_pow hm]
    congr 1
    omega
  · rw [eq_mul_two_pow h.symm hle, lastPlace_mul_two_pow hn]
    congr 1
    omega

/-- A double has its last digit in the last place. -/
theorem Canonical.lastPlace_eq {m : ℕ} {e : ℤ} (hc : Canonical m e) (h : 0 < m) :
    lastPlace m e = e := by
  have hlog : m.log2 < 53 := (Nat.log2_lt h.ne').mpr hc.lt
  have hle := hc.le_exponent
  rw [lastPlace]
  rcases hc.normal with hm | rfl
  · have hlog' : 52 ≤ m.log2 := (Nat.le_log2 h.ne').mpr hm
    omega
  · omega

/-- **A representable number has a canonical form.** -/
theorem exists_canonical {n : ℕ} {e : ℤ} (hn : 0 < n) (h : Representable (n * 2 ^ e)) :
    ∃ (m : ℕ) (f : ℤ), 0 < m ∧ Canonical m f ∧ (n : ℚ) * 2 ^ e = m * 2 ^ f := by
  obtain ⟨k, f, hk, hle, hge, heq⟩ := h
  have hpos : 0 < k := by
    have hprod : (0 : ℚ) < k * 2 ^ f := heq ▸ by positivity
    exact_mod_cast pos_of_mul_pos_left hprod (by positivity)
  lift k to ℕ using hpos.le
  have hk0 : 0 < k := by exact_mod_cast hpos
  have hk53 : k < 2 ^ 53 := by
    rw [abs_of_pos hpos] at hk
    exact_mod_cast hk
  have hlog : k.log2 < 53 := (Nat.log2_lt hk0.ne').mpr hk53
  have hplace : lastPlace k f ≤ f ∧ k.log2 + f - 52 ≤ lastPlace k f ∧ -1074 ≤ lastPlace k f ∧
      (lastPlace k f = k.log2 + f - 52 ∨ lastPlace k f = -1074) := by
    rw [lastPlace]
    omega
  obtain ⟨j, hj⟩ : ∃ j : ℕ, f = lastPlace k f + j := ⟨(f - lastPlace k f).toNat, by omega⟩
  have hlog' := log2_mul_two_pow hk0.ne' j
  have hm : k * 2 ^ j ≠ 0 := by positivity
  refine ⟨k * 2 ^ j, lastPlace k f, by positivity, ⟨?_, by omega, by omega, ?_⟩, ?_⟩
  · exact (Nat.log2_lt hm).mp (by omega)
  · rcases hplace.2.2.2 with hnormal | hsub
    · exact Or.inl ((Nat.le_log2 hm).mp (by omega))
    · exact Or.inr hsub
  · rw [heq]
    conv_lhs => rw [hj, zpow_add₀ two_ne_zero, zpow_natCast]
    push_cast
    ring

theorem shiftRight_mul_two_pow (m j : ℕ) :
    (⟨m * 2 ^ j, false, false⟩ : ExtendedMantissa) >>> j = ⟨m, false, false⟩ := by
  change j.repeat ExtendedMantissa.shiftRightOne ⟨m * 2 ^ j, false, false⟩ = ⟨m, false, false⟩
  induction j generalizing m with
  | zero => simp [Nat.repeat]
  | succ j ih =>
    rw [Nat.repeat, pow_succ', ← Nat.mul_assoc, ih]
    simp [ExtendedMantissa.shiftRightOne]

/-- Zeros are all that rounding takes off. -/
theorem roundWithAccuracy_eq {m : ℕ} {e : ℤ} {j : ℕ} (s : Sign) (h : 0 < m)
    (hc : Canonical m (e + j)) :
    roundWithAccuracy Format.binary64 s (m * 2 ^ j) e .exact = .finite s m (e + j) h := by
  have hplace := hc.lastPlace_eq h
  have hfirst : shiftToTargetExponent Format.binary64 (m * 2 ^ j) e .exact =
      (⟨m, false, false⟩, e + j) := by
    have hshift : (e + j - e).toNat = j := by omega
    rw [shiftToTargetExponent, targetExponent_totalExponent, lastPlace_mul_two_pow h, hplace,
      shiftToExponent, hshift, ExtendedMantissa.ofMantissaAndAccuracy, shiftRight_mul_two_pow]
  have hsecond : shiftToTargetExponent Format.binary64 m (e + j) .exact =
      (⟨m, false, false⟩, e + j) := by
    rw [shiftToTargetExponent, targetExponent_totalExponent, hplace, shiftToExponent, sub_self]
    simp [ExtendedMantissa.ofMantissaAndAccuracy]
    rfl
  have hrounded : (⟨m, false, false⟩ : ExtendedMantissa).roundedMantissa = m := rfl
  simp only [roundWithAccuracy, hfirst, hrounded, hsecond, dif_neg h.ne']

/-- Rounding a representable number, with more digits than a double or fewer. -/
theorem round_eq {n m : ℕ} {e f : ℤ} (s : Sign) (hn : 0 < n) (h : 0 < m) (hc : Canonical m f)
    (heq : (n : ℚ) * 2 ^ e = m * 2 ^ f) :
    UnpackedFloat.round Format.binary64 s n e = .finite s m f h := by
  have hplace : lastPlace n e = f := (lastPlace_congr h hn heq).trans (hc.lastPlace_eq h)
  simp only [UnpackedFloat.round, targetExponent_totalExponent, hplace, decreaseExponent,
    Nat.shiftLeft_eq]
  rcases le_total e f with hle | hle
  · obtain ⟨j, rfl⟩ : ∃ j : ℕ, f = e + j := ⟨(f - e).toNat, by omega⟩
    have hzeros : (e - (e + j)).toNat = 0 := by omega
    have hj : (e + j - e).toNat = j := by omega
    rw [hzeros, pow_zero, mul_one, Nat.cast_zero, sub_zero, eq_mul_two_pow heq hle, hj]
    exact roundWithAccuracy_eq s h hc
  · have hf : e - ((e - f).toNat : ℕ) = f := by omega
    rw [← eq_mul_two_pow heq.symm hle, hf]
    simpa using roundWithAccuracy_eq s (j := 0) (e := f) h (by simpa using hc)

theorem Representable.neg {q : ℚ} (h : Representable q) : Representable (-q) := by
  obtain ⟨n, e, hn, hle, hge, rfl⟩ := h
  exact ⟨-n, e, by rwa [abs_neg], hle, hge, by push_cast; ring⟩

theorem unpack_pack_zero (s : Sign) : (Float.Model.pack (.zero s)).unpack = .zero s :=
  unpack_packedZero

/-- A representable result of an operation is the number of the double packed. -/
theorem unpackedValue_normalize {n e : ℤ} (z : Sign) (h : Representable (n * 2 ^ e)) :
    unpackedValue (Float.Model.pack (UnpackedFloat.normalize Format.binary64 n e z)).unpack =
      some ((n : ℚ) * 2 ^ e) := by
  rcases lt_trichotomy n 0 with hn | rfl | hn
  · obtain ⟨k, rfl⟩ : ∃ k : ℕ, n = -k := ⟨(-n).toNat, by omega⟩
    have hk : 0 < k := by omega
    have hneg : -(((-(k : ℤ) : ℤ) : ℚ) * 2 ^ e) = k * 2 ^ e := by push_cast; ring
    obtain ⟨m, f, hm, hc, heq⟩ := exists_canonical hk (hneg ▸ h.neg)
    have hcompare : compare (-(k : ℤ)) 0 = .lt := Int.compare_eq_lt.mpr hn
    simp only [UnpackedFloat.normalize, hcompare, neg_neg, Int.toNat_natCast]
    rw [round_eq .negative hk hm hc heq, unpack_pack .negative hm hc, unpackedValue, Sign.apply]
    push_cast
    rw [neg_mul, neg_mul, heq]
  · have hcompare : compare (0 : ℤ) 0 = .eq := rfl
    simp only [UnpackedFloat.normalize, hcompare]
    rw [unpack_pack_zero, unpackedValue, Int.cast_zero, zero_mul]
  · obtain ⟨k, rfl⟩ : ∃ k : ℕ, n = k := ⟨n.toNat, by omega⟩
    have hk : 0 < k := by omega
    obtain ⟨m, f, hm, hc, heq⟩ := exists_canonical hk (by exact_mod_cast h)
    have hcompare : compare (k : ℤ) 0 = .gt := Int.compare_eq_gt.mpr hn
    simp only [UnpackedFloat.normalize, hcompare, Int.toNat_natCast]
    rw [round_eq .positive hk hm hc heq, unpack_pack .positive hm hc, unpackedValue, Sign.apply]
    push_cast
    rw [heq]

/-- Zeros at the end do not change the number. -/
theorem decreaseExponent_value (m : ℕ) {e t : ℤ} (h : t ≤ e) :
    ((decreaseExponent m e t).1 : ℚ) * 2 ^ t = m * 2 ^ e := by
  rw [decreaseExponent, Nat.shiftLeft_eq, two_zpow_eq_of_le h]
  push_cast
  ring

theorem apply_neg (s : Sign) (n : ℤ) : (-s).apply n = -s.apply n := by
  cases s with
  | negative => exact (neg_neg n).symm
  | positive => rfl

theorem cast_apply (s : Sign) (n : ℤ) :
    ((s.apply n : ℤ) : ℚ) = ((s.apply 1 : ℤ) : ℚ) * n := by
  cases s <;> simp [Sign.apply]

/-! ### The operations -/

/-- What unpacking a finite double gives. -/
theorem unpack_of_value {x : Float} {a : ℚ} (hx : value x = some a) :
    (∃ s, x.toModel.unpack = .zero s ∧ a = 0) ∨
      ∃ s m e, ∃ h : 0 < m, x.toModel.unpack = .finite s m e h ∧ Canonical m e ∧
        a = s.apply m * 2 ^ e := by
  rw [value] at hx
  cases hu : x.toModel.unpack with
  | infinity s => simp [hu, unpackedValue] at hx
  | notANumber => simp [hu, unpackedValue] at hx
  | zero s =>
    rw [hu, unpackedValue, Option.some.injEq] at hx
    exact Or.inl ⟨s, rfl, hx.symm⟩
  | finite s m e h =>
    rw [hu, unpackedValue, Option.some.injEq] at hx
    exact Or.inr ⟨s, m, e, h, rfl, canonical_of_unpack hu, hx.symm⟩

variable {x y : Float} {a b : ℚ}

/-- **Subtraction is exact** when its result is representable. -/
theorem value_sub (hx : value x = some a) (hy : value y = some b) (h : Representable (a - b)) :
    value (x - y) = some (a - b) := by
  have hsub : value (x - y) = unpackedValue (Float.Model.pack
    (UnpackedFloat.sub Format.binary64 x.toModel.unpack y.toModel.unpack)).unpack := rfl
  rw [hsub]
  obtain ⟨s, hu, rfl⟩ | ⟨s, m, e, hm, hu, hc, rfl⟩ := unpack_of_value hx <;>
    obtain ⟨s', hu', rfl⟩ | ⟨s', m', e', hm', hu', hc', rfl⟩ := unpack_of_value hy <;>
    simp only [hu, hu', UnpackedFloat.sub]
  · split <;> rw [unpack_pack_zero, unpackedValue, sub_zero]
  · rw [unpack_pack (-s') hm' hc', unpackedValue, zero_sub, apply_neg, Int.cast_neg, neg_mul]
  · rw [unpack_pack s hm hc, unpackedValue, sub_zero]
  · have hvalue : ((s.apply ((decreaseExponent m e (min e e')).1 : ℕ) -
        s'.apply ((decreaseExponent m' e' (min e e')).1 : ℕ) : ℤ) : ℚ) * 2 ^ min e e' =
          s.apply m * 2 ^ e - s'.apply m' * 2 ^ e' := by
      rw [Int.cast_sub, sub_mul, cast_apply s, cast_apply s', mul_assoc, mul_assoc,
        Int.cast_natCast, Int.cast_natCast, decreaseExponent_value m (min_le_left ..),
        decreaseExponent_value m' (min_le_right ..), cast_apply s (m : ℤ),
        cast_apply s' (m' : ℤ)]
      push_cast
      ring
    rw [unpackedValue_normalize .positive (hvalue.symm ▸ h), hvalue]

/-- The last place of a product of doubles is not before the last digit. -/
theorem Canonical.le_lastPlace_mul {m m' : ℕ} {e e' : ℤ} (hc : Canonical m e)
    (hc' : Canonical m' e') (h : 0 < m) (h' : 0 < m') :
    e + e' ≤ lastPlace (m * m') (e + e') := by
  have hlog {k : ℕ} (hk : 2 ^ 52 ≤ k) (hle : k ≤ m * m') : 52 ≤ (m * m').log2 :=
    (Nat.le_log2 (Nat.mul_pos h h').ne').mpr (hk.trans hle)
  rw [lastPlace]
  rcases hc.normal with hm | he
  · have := hlog hm (Nat.le_mul_of_pos_right m h')
    omega
  · rcases hc'.normal with hm' | he'
    · have := hlog hm' (Nat.le_mul_of_pos_left m' h)
      omega
    · omega

theorem apply_mul (s s' : Sign) (n n' : ℤ) : (s * s').apply (n * n') = s.apply n * s'.apply n' := by
  cases s <;> cases s'
  · exact (neg_mul_neg n n').symm
  · exact (neg_mul n n').symm
  · exact (mul_neg n n').symm
  · rfl

/-- **Multiplication is exact** when its result is representable. -/
theorem value_mul (hx : value x = some a) (hy : value y = some b) (h : Representable (a * b)) :
    value (x * y) = some (a * b) := by
  have hmul : value (x * y) = unpackedValue (Float.Model.pack
    (UnpackedFloat.mul Format.binary64 x.toModel.unpack y.toModel.unpack)).unpack := rfl
  rw [hmul]
  obtain ⟨s, hu, rfl⟩ | ⟨s, m, e, hm, hu, hc, rfl⟩ := unpack_of_value hx <;>
    obtain ⟨s', hu', rfl⟩ | ⟨s', m', e', hm', hu', hc', rfl⟩ := unpack_of_value hy <;>
    simp only [hu, hu', UnpackedFloat.mul]
  · rw [unpack_pack_zero, unpackedValue, mul_zero]
  · rw [unpack_pack_zero, unpackedValue, zero_mul]
  · rw [unpack_pack_zero, unpackedValue, mul_zero]
  · have hvalue : ((s * s').apply 1 : ℚ) * ((m * m' : ℕ) * 2 ^ (e + e')) =
        s.apply m * 2 ^ e * (s'.apply m' * 2 ^ e') := by
      rw [← one_mul (1 : ℤ), apply_mul, cast_apply s m, cast_apply s' m', zpow_add₀ two_ne_zero]
      push_cast
      ring
    have hrep : Representable ((m * m' : ℕ) * 2 ^ (e + e')) := by
      rw [← hvalue] at h
      cases hs : s * s' with
      | negative => simpa [hs, Sign.apply] using h.neg
      | positive => simpa [hs, Sign.apply] using h
    obtain ⟨k, f, hk, hck, heq⟩ := exists_canonical (Nat.mul_pos hm hm') hrep
    have hplace := (lastPlace_congr hk (Nat.mul_pos hm hm') heq).trans (hck.lastPlace_eq hk)
    have hle : e + e' ≤ f := hplace ▸ hc.le_lastPlace_mul hc' hm hm'
    obtain ⟨j, rfl⟩ : ∃ j : ℕ, f = e + e' + j := ⟨(f - (e + e')).toNat, by omega⟩
    have hj : (e + e' + j - (e + e')).toNat = j := by omega
    rw [← hvalue, heq, eq_mul_two_pow heq hle, hj, roundWithAccuracy_eq (s * s') hk hck,
      unpack_pack (s * s') hk hck, unpackedValue, cast_apply, mul_assoc, Int.cast_natCast]

theorem Canonical.lt_of_exponent_lt {m m' : ℕ} {e e' : ℤ} (hc : Canonical m e)
    (hc' : Canonical m' e') (h : e < e') : (m : ℚ) * 2 ^ e < m' * 2 ^ e' := by
  have hle := hc.le_exponent
  have hlt : (m : ℚ) < 2 ^ (53 : ℤ) := by exact_mod_cast hc.lt
  have hge : (2 : ℚ) ^ (52 : ℤ) ≤ m' := by exact_mod_cast hc'.normal.resolve_right (by omega)
  calc (m : ℚ) * 2 ^ e < 2 ^ (53 : ℤ) * 2 ^ e := by gcongr
    _ = 2 ^ (53 + e) := (zpow_add₀ two_ne_zero ..).symm
    _ ≤ 2 ^ (52 + e') := zpow_le_zpow_right₀ one_le_two (by omega)
    _ = 2 ^ (52 : ℤ) * 2 ^ e' := zpow_add₀ two_ne_zero ..
    _ ≤ m' * 2 ^ e' := by gcongr

/-- Canonical forms compare by their exponents first. -/
theorem Canonical.compare_iff {m m' : ℕ} {e e' : ℤ} (hc : Canonical m e)
    (hc' : Canonical m' e') :
    (compare e e').then (compare m m') = .lt ↔ (m : ℚ) * 2 ^ e < m' * 2 ^ e' := by
  rcases lt_trichotomy e e' with h | rfl | h
  · rw [Int.compare_eq_lt.mpr h]
    exact iff_of_true rfl (hc.lt_of_exponent_lt hc' h)
  · rw [Int.compare_eq_eq.mpr rfl, Ordering.eq_then, Nat.compare_eq_lt,
      mul_lt_mul_iff_left₀ (by positivity), Nat.cast_lt]
  · rw [Int.compare_eq_gt.mpr h]
    exact iff_of_false (by simp) (hc'.lt_of_exponent_lt hc h).le.not_gt

/-- **Doubles compare as their numbers.** -/
theorem lt_iff (hx : value x = some a) (hy : value y = some b) : x < y ↔ a < b := by
  have hlt : x < y ↔ UnpackedFloat.compare x.toModel.unpack y.toModel.unpack = some .lt := by
    change (decide (x.toModel < y.toModel) = true) ↔ _
    rw [decide_eq_true_iff]
    change ((UnpackedFloat.compare _ _ == some .lt) = true) ↔ _
    rw [beq_iff_eq]
  have hpos {m : ℕ} {e : ℤ} (h : 0 < m) : (0 : ℚ) < m * 2 ^ e := by positivity
  rw [hlt]
  obtain ⟨s, hu, rfl⟩ | ⟨s, m, e, hm, hu, hc, rfl⟩ := unpack_of_value hx <;>
    obtain ⟨s', hu', rfl⟩ | ⟨s', m', e', hm', hu', hc', rfl⟩ := unpack_of_value hy
  · simp [hu, hu', UnpackedFloat.compare]
  · cases s' <;> simp [hu, hu', UnpackedFloat.compare, Sign.apply, (hpos hm').le, hm', hpos]
  · cases s <;> simp [hu, hu', UnpackedFloat.compare, Sign.apply, (hpos hm).le, hm, hpos]
  · have hneg (n : ℕ) (f : ℤ) : ((Sign.negative.apply n : ℤ) : ℚ) * 2 ^ f = -(n * 2 ^ f) := by
      simp [Sign.apply]
    have hcast (n : ℕ) (f : ℤ) : ((Sign.positive.apply n : ℤ) : ℚ) * 2 ^ f = n * 2 ^ f := by
      simp [Sign.apply]
    rw [hu, hu']
    cases s with
    | negative =>
      cases s' with
      | negative =>
        rw [UnpackedFloat.compare, Option.some.injEq, Ordering.swap_then, Int.compare_swap,
          Nat.compare_swap, hc'.compare_iff hc, hneg, hneg, neg_lt_neg_iff]
      | positive =>
        rw [hneg, hcast]
        exact iff_of_true rfl ((neg_neg_of_pos (hpos hm)).trans (hpos hm'))
    | positive =>
      cases s' with
      | negative =>
        rw [hneg, hcast]
        exact iff_of_false (by simp [UnpackedFloat.compare])
          ((neg_neg_of_pos (hpos hm')).trans (hpos hm)).le.not_gt
      | positive =>
        rw [UnpackedFloat.compare, Option.some.injEq, hc.compare_iff hc', hcast, hcast]

/-- The larger of two numbers, or the one that is a number. -/
def maxNum (x y : Float) : Float :=
  if x.isNaN then y else if y.isNaN then x else if x < y then y else x

theorem isNaN_of_value (hx : value x = some a) : x.isNaN = false := by
  have hnan : x.isNaN = UnpackedFloat.isNaN x.toModel.unpack := rfl
  rw [hnan]
  obtain ⟨s, hu, -⟩ | ⟨s, m, e, h, hu, -⟩ := unpack_of_value hx <;> rw [hu] <;> rfl

theorem value_maxNum (hx : value x = some a) (hy : value y = some b) :
    value (maxNum x y) = some (max a b) := by
  rw [maxNum, isNaN_of_value hx, isNaN_of_value hy]
  simp only [Bool.false_eq_true, if_false, lt_iff hx hy]
  split
  · rename_i h
    rw [hy, max_eq_right h.le]
  · rename_i h
    rw [hx, max_eq_left (not_lt.mp h)]

/-! ### Short numbers -/

/-- An integer of at most 53 digits is representable, and so is half of it. -/
theorem representable_half {n : ℤ} (h : |n| < 2 ^ 53) : Representable (n / 2) :=
  ⟨n, -1, h, by norm_num, by norm_num, by rw [zpow_neg_one, div_eq_mul_inv]⟩

theorem representable_int {n : ℤ} (h : |n| < 2 ^ 53) : Representable n :=
  ⟨n, 0, h, by norm_num, by norm_num, by rw [zpow_zero, mul_one]⟩

end Binary64
