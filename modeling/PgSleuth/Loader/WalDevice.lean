import Mathlib.Data.List.DropRight
import PgSleuth.Cli.CpuStat
import PgSleuth.ForMathlib.Numeral
import PgSleuth.Loader.Config
import PgSleuth.PgExt.WalDevice

/-!
# From the extension's text to the kernel's device number

The loader asks the extension for the WAL device and turns its text into the device number the
kernel puts into tracepoint records, which is laid out in another way than `st_dev`. So a device
number goes through two layouts and a decimal text before it is compared with anything.

## Main definitions

* `parseKernelDevT` — the loader's parser
* `discoverViaPgExt` — what the start-up query makes of the extension's answers

## Main results

* `parseKernelDevT_eq_some_iff` — the texts it accepts, and what it makes of them
* `walDevice_handshake` — a device keeps its identity from `st_dev` to the filter
-/

namespace PgSleuth

open CgroupThrottle (isWhitespace)

/-! ### The parser -/

/-- `str::split_once`. -/
def splitOnce (delim : Char) (s : List Char) : Option (List Char × List Char) :=
  if delim ∈ s then some (s.takeWhile (· ≠ delim), (s.dropWhile (· ≠ delim)).tail) else none

/-- `str::trim`. -/
def trim (s : List Char) : List Char := (s.dropWhile isWhitespace).rdropWhile isWhitespace

/-- `str::parse::<u32>`. -/
def parseU32 (s : List Char) : Option UInt32 :=
  (Numeral.parse s).bind fun n => if n < 2 ^ 32 then some (.ofNat n) else none

/-- Parse `"major:minor"` into the kernel encoding of `dev_t`. -/
def parseKernelDevT (s : String) : Option UInt32 := do
  let (majorS, minorS) ← splitOnce ':' s.toList
  let major ← parseU32 (trim majorS)
  let minor ← parseU32 (trim minorS)
  if (1 : UInt32) <<< 12 ≤ major || (1 : UInt32) <<< 20 ≤ minor then none
  else some (major <<< 20 ||| minor)

/-- What the start-up query reports, from the two answers of the extension. -/
def discoverViaPgExt (walDevice : String) (postmasterPid : Int32) : PgDiscovery :=
  { postmasterPid, walDevT := parseKernelDevT walDevice }

/-! ### Its parts -/

theorem splitOnce_append {delim : Char} {a : List Char} (ha : delim ∉ a) (b : List Char) :
    splitOnce delim (a ++ delim :: b) = some (a, b) := by
  have hpos : ∀ c ∈ a, decide (c ≠ delim) = true := by
    intro c hc
    have hne : c ≠ delim := fun h => ha (h ▸ hc)
    simpa using hne
  rw [splitOnce, if_pos (by simp), List.takeWhile_append_of_pos hpos,
    List.dropWhile_append_of_pos hpos]
  simp

/-- A text is split at its first delimiter. -/
theorem splitOnce_eq_some_iff {delim : Char} {s a b : List Char} :
    splitOnce delim s = some (a, b) ↔ s = a ++ delim :: b ∧ delim ∉ a := by
  constructor
  · intro h
    have hmem : delim ∈ s := by
      by_contra hmem
      rw [splitOnce, if_neg hmem] at h
      cases h
    obtain ⟨a', b', rfl, ha'⟩ := List.eq_append_cons_of_mem hmem
    rw [splitOnce_append ha'] at h
    cases h
    exact ⟨rfl, ha'⟩
  · rintro ⟨rfl, ha⟩
    exact splitOnce_append ha b

theorem trim_eq_self {s : List Char} (h : ∀ c ∈ s, isWhitespace c = false) : trim s = s := by
  have hdrop : ∀ l : List Char, (∀ c ∈ l, isWhitespace c = false) →
      l.dropWhile isWhitespace = l := by
    intro l hl
    cases l with
    | nil => rfl
    | cons c l => rw [List.dropWhile_cons, if_neg (by simp [hl c (List.mem_cons_self ..)])]
  rw [trim, hdrop s h, List.rdropWhile, hdrop s.reverse fun c hc => h c (List.mem_reverse.mp hc),
    List.reverse_reverse]

theorem parseU32_eq_some_iff {s : List Char} {n : UInt32} :
    parseU32 s = some n ↔ IsNumeral s n.toNat := by
  rw [parseU32, Option.bind_eq_some_iff, ← Numeral.parse_eq_some_iff]
  constructor
  · rintro ⟨m, hm, hmn⟩
    obtain ⟨hlt, hmn⟩ := Option.ite_none_right_eq_some.mp hmn
    rw [← Option.some.inj hmn, UInt32.toNat_ofNat_of_lt' hlt, hm]
  · intro h
    exact ⟨n.toNat, h, by rw [if_pos n.toNat_lt, UInt32.ofNat_toNat]⟩

/-- The device number the kernel makes of a major and a minor number. -/
theorem toNat_kernelDevT {major minor : UInt32} (hmajor : major.toNat < 2 ^ 12)
    (hminor : minor.toNat < 2 ^ 20) :
    (major <<< 20 ||| minor).toNat = minor.toNat + major.toNat * 2 ^ 20 := by
  have h20 : (20 : UInt32).toNat % 32 = 20 := rfl
  rw [UInt32.toNat_or, UInt32.toNat_shiftLeft, h20, Nat.shiftLeft_eq,
    Nat.mod_eq_of_lt (by omega), Nat.or_comm, Nat.or_mul_two_pow hminor]

/-- Its upper twelve bits are the major number. -/
theorem kernelDevT_shiftRight {major minor : UInt32} (hmajor : major.toNat < 2 ^ 12)
    (hminor : minor.toNat < 2 ^ 20) : (major <<< 20 ||| minor) >>> 20 = major := by
  have h20 : (20 : UInt32).toNat % 32 = 20 := rfl
  rw [← UInt32.toNat_inj, UInt32.toNat_shiftRight, h20, toNat_kernelDevT hmajor hminor,
    Nat.shiftRight_eq_div_pow]
  omega

/-- Its lower twenty are the minor number. -/
theorem kernelDevT_and {major minor : UInt32} (hmajor : major.toNat < 2 ^ 12)
    (hminor : minor.toNat < 2 ^ 20) :
    (major <<< 20 ||| minor) &&& (0xFFFFF : UInt32) = minor := by
  have hmask : (0xFFFFF : UInt32).toNat = 2 ^ 20 - 1 := rfl
  rw [← UInt32.toNat_inj, UInt32.toNat_and, toNat_kernelDevT hmajor hminor, hmask,
    Nat.and_two_pow_sub_one_eq_mod]
  omega

/-- **The texts the parser accepts**, and what it makes of them. -/
theorem parseKernelDevT_eq_some_iff {s : String} {d : UInt32} :
    parseKernelDevT s = some d ↔
      ∃ a b, s.toList = a ++ ':' :: b ∧ ':' ∉ a ∧
        ∃ major minor : UInt32, IsNumeral (trim a) major.toNat ∧ IsNumeral (trim b) minor.toNat ∧
          major.toNat < 2 ^ 12 ∧ minor.toNat < 2 ^ 20 ∧ d = major <<< 20 ||| minor := by
  have hbounds (major minor : UInt32) :
      ((1 : UInt32) <<< 12 ≤ major || (1 : UInt32) <<< 20 ≤ minor) = false ↔
        major.toNat < 2 ^ 12 ∧ minor.toNat < 2 ^ 20 := by
    have h12 : ((1 : UInt32) <<< 12).toNat = 2 ^ 12 := rfl
    have h20 : ((1 : UInt32) <<< 20).toNat = 2 ^ 20 := rfl
    rw [Bool.or_eq_false_iff, decide_eq_false_iff_not, decide_eq_false_iff_not,
      UInt32.le_iff_toNat_le, UInt32.le_iff_toNat_le, h12, h20, Nat.not_le, Nat.not_le]
  constructor
  · intro h
    obtain ⟨⟨a, b⟩, hsplit, h⟩ := Option.bind_eq_some_iff.mp h
    obtain ⟨major, hmajor, h⟩ := Option.bind_eq_some_iff.mp h
    obtain ⟨minor, hminor, h⟩ := Option.bind_eq_some_iff.mp h
    obtain ⟨hs, ha⟩ := splitOnce_eq_some_iff.mp hsplit
    obtain ⟨hin, hd⟩ := Option.ite_none_left_eq_some.mp h
    obtain ⟨hlt, hlt'⟩ := (hbounds major minor).mp (Bool.eq_false_of_not_eq_true hin)
    exact ⟨a, b, hs, ha, major, minor, parseU32_eq_some_iff.mp hmajor,
      parseU32_eq_some_iff.mp hminor, hlt, hlt', (Option.some.inj hd).symm⟩
  · rintro ⟨a, b, hs, ha, major, minor, hmajor, hminor, hlt, hlt', rfl⟩
    refine Option.bind_eq_some_iff.mpr ⟨(a, b), splitOnce_eq_some_iff.mpr ⟨hs, ha⟩, ?_⟩
    refine Option.bind_eq_some_iff.mpr ⟨major, parseU32_eq_some_iff.mpr hmajor, ?_⟩
    refine Option.bind_eq_some_iff.mpr ⟨minor, parseU32_eq_some_iff.mpr hminor, ?_⟩
    rw [(hbounds major minor).mpr ⟨hlt, hlt'⟩]
    rfl

/-- The text of a device is read back. -/
theorem parseKernelDevT_deviceText {major minor : UInt32} (hmajor : major.toNat < 2 ^ 12)
    (hminor : minor.toNat < 2 ^ 20) :
    parseKernelDevT (deviceText major minor) = some (major <<< 20 ||| minor) := by
  have htext : (deviceText major minor).toList =
      Nat.toDigits 10 major.toNat ++ ':' :: Nat.toDigits 10 minor.toNat := by
    show (toString major.toNat ++ ":" ++ toString minor.toNat).toList = _
    simp only [String.toList_append, Nat.toString_eq_ofList_toDigits, String.toList_ofList,
      List.append_assoc]
    rfl
  have hdigit {n : ℕ} {c : Char} (hc : c ∈ Nat.toDigits 10 n) : c.isDigit = true :=
    Nat.isDigit_of_mem_toDigits (by decide) (by decide) hc
  have htrim (n : ℕ) : trim (Nat.toDigits 10 n) = Nat.toDigits 10 n :=
    trim_eq_self fun c hc => CgroupThrottle.isWhitespace_of_isDigit (hdigit hc)
  have hcolon : ':' ∉ Nat.toDigits 10 major.toNat := fun h => absurd (hdigit h) (by decide)
  refine parseKernelDevT_eq_some_iff.mpr ⟨_, _, htext, hcolon, major, minor, ?_, ?_, hmajor, hminor,
    rfl⟩
  · rw [htrim]
    exact isNumeral_toDigits _
  · rw [htrim]
    exact isNumeral_toDigits _

/-! ### The handshake -/

/-- **A device keeps its identity from `st_dev` to the filter**, when `libc::major` and
`libc::minor` split a device number as documented. The extension's text for any device is parsed to
the kernel's number for it, and it is the text of the shell script; two devices with one filter
value are one device. And the parser gives a number only for a text that is, on both sides of its
first colon and apart from whitespace, a decimal numeral of its upper twelve and its lower twenty
bits. -/
theorem walDevice_handshake {libcMajor libcMinor : UInt64 → UInt32}
    (hlibc : SplitsDevT libcMajor libcMinor) :
    let filterValue (major minor : UInt32) :=
      parseKernelDevT (pgsleuthWalDevice libcMajor libcMinor (stDev major minor))
    (∀ major minor : UInt32, major.toNat < 2 ^ 12 → minor.toNat < 2 ^ 20 →
      filterValue major minor = some (major <<< 20 ||| minor) ∧
        validateWalDevice (stDev major minor) =
          pgsleuthWalDevice libcMajor libcMinor (stDev major minor)) ∧
    (∀ major minor major' minor' : UInt32, major.toNat < 2 ^ 12 → minor.toNat < 2 ^ 20 →
      major'.toNat < 2 ^ 12 → minor'.toNat < 2 ^ 20 →
        filterValue major minor = filterValue major' minor' → major = major' ∧ minor = minor') ∧
    (∀ (s : String) (d : UInt32), parseKernelDevT s = some d →
      ∃ a b, s.toList = a ++ ':' :: b ∧ ':' ∉ a ∧ IsNumeral (trim a) (d >>> 20).toNat ∧
        IsNumeral (trim b) (d &&& (0xFFFFF : UInt32)).toNat) := by
  intro filterValue
  have hvalue {major minor : UInt32} (hmajor : major.toNat < 2 ^ 12)
      (hminor : minor.toNat < 2 ^ 20) :
      filterValue major minor = some (major <<< 20 ||| minor) := by
    show parseKernelDevT _ = _
    rw [pgsleuthWalDevice_stDev hlibc hmajor hminor, parseKernelDevT_deviceText hmajor hminor]
  refine ⟨fun major minor hmajor hminor => ⟨hvalue hmajor hminor, ?_⟩, ?_, ?_⟩
  · rw [validateWalDevice_stDev hmajor hminor, pgsleuthWalDevice_stDev hlibc hmajor hminor]
  · intro major minor major' minor' hmajor hminor hmajor' hminor' heq
    rw [hvalue hmajor hminor, hvalue hmajor' hminor', Option.some.injEq, ← UInt32.toNat_inj,
      toNat_kernelDevT hmajor hminor, toNat_kernelDevT hmajor' hminor'] at heq
    rw [← UInt32.toNat_inj, ← UInt32.toNat_inj]
    omega
  · intro s d h
    obtain ⟨a, b, hs, ha, major, minor, hnum, hnum', hlt, hlt', rfl⟩ :=
      parseKernelDevT_eq_some_iff.mp h
    rw [kernelDevT_shiftRight hlt hlt', kernelDevT_and hlt hlt']
    exact ⟨a, b, hs, ha, hnum, hnum'⟩

/-- `libc::major`, as documented. -/
def libcMajor (dev : UInt64) : UInt32 :=
  ((dev >>> 8 &&& (0xfff : UInt64)) ||| (dev >>> 32 &&& ~~~(0xfff : UInt64))).toUInt32

/-- `libc::minor`, as documented. -/
def libcMinor (dev : UInt64) : UInt32 :=
  ((dev &&& (0xff : UInt64)) ||| (dev >>> 12 &&& ~~~(0xff : UInt64))).toUInt32

/-- A device whose minor number does not fit into the low bits. -/
theorem walDevice_handshake_split :
    SplitsDevT libcMajor libcMinor ∧
      parseKernelDevT (pgsleuthWalDevice libcMajor libcMinor (stDev 259 300)) =
        some ((259 : UInt32) <<< (20 : UInt32) ||| 300) :=
  ⟨⟨fun _ => rfl, fun _ => rfl⟩,
    ((walDevice_handshake ⟨fun _ => rfl, fun _ => rfl⟩).1 259 300 (by decide) (by decide)).1⟩

/-- Without a flag of its own, the loader filters by the device the extension reports. -/
theorem filterConfig_devT_discovered {libcMajor libcMinor : UInt64 → UInt32}
    (hlibc : SplitsDevT libcMajor libcMinor) {major minor : UInt32}
    (hmajor : major.toNat < 2 ^ 12) (hminor : minor.toNat < 2 ^ 20) {args : Args}
    (hargs : args.devT = none) (postmasterPid : Int32) :
    (filterConfig args (some (discoverViaPgExt
      (pgsleuthWalDevice libcMajor libcMinor (stDev major minor)) postmasterPid))).devT =
        major <<< 20 ||| minor := by
  rw [pgsleuthWalDevice_stDev hlibc hmajor hminor]
  simp [filterConfig, effectiveDevT, hargs, discoverViaPgExt,
    parseKernelDevT_deviceText hmajor hminor]

end PgSleuth
