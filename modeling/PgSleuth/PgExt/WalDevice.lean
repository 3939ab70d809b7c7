import PgSleuth.ForMathlib.BitFields

/-!
# The text of the WAL device

`pgsleuth_wal_device` from `pgsleuth-pg-ext/src/lib.rs` splits the `st_dev` of the WAL directory
into a major and a minor number and prints both. `validate-wal-device.sh` does the same in shell
arithmetic, to check the extension by. The layout of `st_dev` is the C library's, and what of it the
extension uses is a parameter here.

## Main definitions

* `stDev` — the device number the C library makes of a major and a minor number
* `SplitsDevT` — what `libc::major` and `libc::minor` are documented to compute
* `pgsleuthWalDevice`, `validateWalDevice` — the two texts

## Main results

* `toNat_stDev` — the fields of a device number
* `pgsleuthWalDevice_stDev`, `validateWalDevice_stDev` — both texts are `major:minor`
-/

namespace PgSleuth

/-- `st_dev` of a device: the low eight bits of the minor number, the major number, and the rest of
the minor number, from bit 0, 8 and 20 on. -/
def stDev (major minor : UInt32) : UInt64 :=
  (minor.toUInt64 &&& (0xff : UInt64)) ||| major.toUInt64 <<< (8 : UInt64) |||
    (minor.toUInt64 &&& ~~~(0xff : UInt64)) <<< (12 : UInt64)

/-- `libc::major` and `libc::minor` split a device number as the C library documents it. -/
structure SplitsDevT (libcMajor libcMinor : UInt64 → UInt32) : Prop where
  major_eq : ∀ dev : UInt64, libcMajor dev =
    ((dev >>> 8 &&& (0xfff : UInt64)) ||| (dev >>> 32 &&& ~~~(0xfff : UInt64))).toUInt32
  minor_eq : ∀ dev : UInt64, libcMinor dev =
    ((dev &&& (0xff : UInt64)) ||| (dev >>> 12 &&& ~~~(0xff : UInt64))).toUInt32

/-- The text `pgsleuth_wal_device` builds for the directory's device number. -/
def pgsleuthWalDevice (libcMajor libcMinor : UInt64 → UInt32) (dev : UInt64) : String :=
  let major := libcMajor dev
  let minor := libcMinor dev
  s!"{major}:{minor}"

/-- The text `validate_wal_device` expects, in the shell's signed arithmetic of 64 bits. -/
def validateWalDevice (dev : UInt64) : String :=
  let stDev := dev.toBitVec
  let expectedMajor := stDev.sshiftRight 8 &&& 0xfff
  let expectedMinor := (stDev &&& 0xff) ||| (stDev.sshiftRight 12 &&& 0xfff00)
  s!"{expectedMajor.toInt}:{expectedMinor.toInt}"

/-! ### The fields of a device number -/

/-- The mask `~0xff`, and the one below it, on 64 bits. -/
theorem toNat_and_not_low8 (x : UInt64) :
    (x &&& ~~~(0xff : UInt64)).toNat = x.toNat / 2 ^ 8 * 2 ^ 8 := by
  have hmask : (~~~(0xff : UInt64)).toNat = (2 ^ 56 - 1) * 2 ^ 8 := rfl
  have hx := x.toNat_lt
  rw [UInt64.toNat_and, hmask, Nat.and_mul_two_pow,
    Nat.and_two_pow_sub_one_of_lt_two_pow (by omega)]

theorem toNat_and_low8 (x : UInt64) : (x &&& (0xff : UInt64)).toNat = x.toNat % 2 ^ 8 := by
  have hmask : (0xff : UInt64).toNat = 2 ^ 8 - 1 := rfl
  rw [UInt64.toNat_and, hmask, Nat.and_two_pow_sub_one_eq_mod]

/-- **The fields of a device number.** -/
theorem toNat_stDev {major minor : UInt32} (hmajor : major.toNat < 2 ^ 12)
    (hminor : minor.toNat < 2 ^ 20) :
    (stDev major minor).toNat =
      minor.toNat % 2 ^ 8 + major.toNat * 2 ^ 8 + minor.toNat / 2 ^ 8 * 2 ^ 20 := by
  have h8 : (8 : UInt64).toNat % 64 = 8 := rfl
  have h12 : (12 : UInt64).toNat % 64 = 12 := rfl
  have hmid : (major.toUInt64 <<< (8 : UInt64)).toNat = major.toNat * 2 ^ 8 := by
    rw [UInt64.toNat_shiftLeft, UInt32.toNat_toUInt64, h8, Nat.shiftLeft_eq,
      Nat.mod_eq_of_lt (by omega)]
  have hhigh : ((minor.toUInt64 &&& ~~~(0xff : UInt64)) <<< (12 : UInt64)).toNat =
      minor.toNat / 2 ^ 8 * 2 ^ 20 := by
    rw [UInt64.toNat_shiftLeft, toNat_and_not_low8, UInt32.toNat_toUInt64, h12, Nat.shiftLeft_eq,
      Nat.mod_eq_of_lt (by omega)]
    omega
  have hlow : minor.toNat % 2 ^ 8 ||| major.toNat * 2 ^ 8 =
      minor.toNat % 2 ^ 8 + major.toNat * 2 ^ 8 := Nat.or_mul_two_pow (by omega) _
  rw [stDev, UInt64.toNat_or, UInt64.toNat_or, toNat_and_low8, UInt32.toNat_toUInt64, hmid, hhigh,
    hlow, Nat.or_mul_two_pow (by omega)]

/-! ### Both texts -/

section Split

variable {libcMajor libcMinor : UInt64 → UInt32} {major minor : UInt32}

/-- The major number is read back. -/
theorem SplitsDevT.major_stDev (h : SplitsDevT libcMajor libcMinor) (hmajor : major.toNat < 2 ^ 12)
    (hminor : minor.toNat < 2 ^ 20) : libcMajor (stDev major minor) = major := by
  have hdev := toNat_stDev hmajor hminor
  have hlow : (0xfff : UInt64).toNat = 2 ^ 12 - 1 := rfl
  have h8 : (8 : UInt64).toNat % 64 = 8 := rfl
  have h32 : (32 : UInt64).toNat % 64 = 32 := rfl
  have hzero : stDev major minor >>> 32 = 0 := by
    rw [← UInt64.toNat_inj, UInt64.toNat_shiftRight, h32, Nat.shiftRight_eq_div_pow, hdev,
      UInt64.toNat_zero]
    omega
  rw [h.major_eq, hzero, UInt64.zero_and, UInt64.or_zero, ← UInt32.toNat_inj,
    UInt64.toNat_toUInt32, UInt64.toNat_and, UInt64.toNat_shiftRight, hlow, h8,
    Nat.and_two_pow_sub_one_eq_mod, Nat.shiftRight_eq_div_pow, hdev]
  omega

/-- So is the minor number. -/
theorem SplitsDevT.minor_stDev (h : SplitsDevT libcMajor libcMinor) (hmajor : major.toNat < 2 ^ 12)
    (hminor : minor.toNat < 2 ^ 20) : libcMinor (stDev major minor) = minor := by
  have hdev := toNat_stDev hmajor hminor
  have h12 : (12 : UInt64).toNat % 64 = 12 := rfl
  rw [h.minor_eq, ← UInt32.toNat_inj, UInt64.toNat_toUInt32, UInt64.toNat_or, toNat_and_low8,
    toNat_and_not_low8, UInt64.toNat_shiftRight, h12, Nat.shiftRight_eq_div_pow, hdev,
    Nat.or_mul_two_pow (Nat.mod_lt _ (by decide))]
  omega

end Split

/-- The text of a device. -/
def deviceText (major minor : UInt32) : String := s!"{major}:{minor}"

theorem pgsleuthWalDevice_stDev {libcMajor libcMinor : UInt64 → UInt32} {major minor : UInt32}
    (h : SplitsDevT libcMajor libcMinor) (hmajor : major.toNat < 2 ^ 12)
    (hminor : minor.toNat < 2 ^ 20) :
    pgsleuthWalDevice libcMajor libcMinor (stDev major minor) = deviceText major minor := by
  rw [pgsleuthWalDevice, h.major_stDev hmajor hminor, h.minor_stDev hmajor hminor, deviceText]

/-- In the shell the sign bit of a device number is clear, so its shifts are quotients too. -/
theorem validateWalDevice_stDev {major minor : UInt32} (hmajor : major.toNat < 2 ^ 12)
    (hminor : minor.toNat < 2 ^ 20) :
    validateWalDevice (stDev major minor) = deviceText major minor := by
  have hdev : (stDev major minor).toBitVec.toNat = _ := toNat_stDev hmajor hminor
  have hmsb : (stDev major minor).toBitVec.msb = false := by
    rw [BitVec.msb_eq_false_iff_two_mul_lt, hdev]
    omega
  have hmajorMask : (0xfff : BitVec 64).toNat = 2 ^ 12 - 1 := rfl
  have hlowMask : (0xff : BitVec 64).toNat = 2 ^ 8 - 1 := rfl
  have hhighMask : (0xfff00 : BitVec 64).toNat = (2 ^ 12 - 1) * 2 ^ 8 := rfl
  rw [validateWalDevice]
  generalize (stDev major minor).toBitVec = st at hdev hmsb
  have hexpectedMajor : (st.sshiftRight 8 &&& 0xfff).toNat = major.toNat := by
    rw [BitVec.sshiftRight_eq_of_msb_false hmsb, BitVec.toNat_and, BitVec.toNat_ushiftRight,
      hmajorMask, Nat.and_two_pow_sub_one_eq_mod, Nat.shiftRight_eq_div_pow, hdev]
    omega
  have hexpectedMinor :
      ((st &&& 0xff) ||| (st.sshiftRight 12 &&& 0xfff00)).toNat = minor.toNat := by
    rw [BitVec.sshiftRight_eq_of_msb_false hmsb, BitVec.toNat_or, BitVec.toNat_and,
      BitVec.toNat_and, BitVec.toNat_ushiftRight, hlowMask, hhighMask, Nat.and_mul_two_pow,
      Nat.and_two_pow_sub_one_eq_mod, Nat.and_two_pow_sub_one_eq_mod, Nat.shiftRight_eq_div_pow,
      Nat.div_div_eq_div_mul, hdev, Nat.or_mul_two_pow (Nat.mod_lt _ (by decide))]
    omega
  show toString (BitVec.toInt _) ++ ":" ++ toString (BitVec.toInt _) = _
  rw [BitVec.toInt_eq_toNat_of_lt (by omega), BitVec.toInt_eq_toNat_of_lt (by omega),
    hexpectedMajor, hexpectedMinor]
  rfl

end PgSleuth
