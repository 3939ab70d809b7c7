import Mathlib.Data.List.Basic
import Mathlib.Data.UInt

/-!
# Decoding UTF-8, strictly and lossily

A decoder that reads a list of bytes from left to right. At each leading byte it either finds a
well-formed scalar value or an ill-formed sequence, and in both cases it knows how many of the
following bytes belong to what it found. An ill-formed sequence is the longest prefix of a
well-formed one that is actually there, which is the practice the Unicode standard recommends and
the one the common lossy decoders follow: each such sequence becomes one U+FFFD.

## Structural recursion

`decodeFrom skip` first drops `skip` bytes that an earlier leading byte already claimed, so the
recursion is on the list itself and the decoder evaluates in the kernel.

## Main results

* `decodeFrom_append_ascii` — an ASCII byte never belongs to the sequence before it
* `lossyChars_append_ascii` — so ASCII text survives a lossy decode wherever it stands
* `fromUtf8Lossy_toUTF8` — a text is read back from its bytes
-/

namespace Utf8

/-- A continuation byte, `0b10xxxxxx`. -/
def isContinuation (b : UInt8) : Bool := 0x80 ≤ b && b ≤ 0xBF

/-- The scalar value with bits `hi` above the six bits of the continuation byte `b`. -/
def push (hi : ℕ) (b : UInt8) : ℕ := hi * 64 + b.toNat % 64

/-- What stands at the leading byte `b`, followed by `rest`: a scalar value or an ill-formed
sequence, with the number of bytes of `rest` that belong to it. -/
def decodeOne (b : UInt8) (rest : List UInt8) : Option Char × ℕ :=
  if b < 0x80 then (some (Char.ofNat b.toNat), 0)
  else if 0xC2 ≤ b && b ≤ 0xDF then
    match rest with
    | c :: _ =>
      if isContinuation c then (some (Char.ofNat (push (b.toNat % 32) c)), 1) else (none, 0)
    | [] => (none, 0)
  else if 0xE0 ≤ b && b ≤ 0xEF then
    -- the second byte excludes overlong forms and surrogates
    let lo : UInt8 := if b = 0xE0 then 0xA0 else 0x80
    let hi : UInt8 := if b = 0xED then 0x9F else 0xBF
    match rest with
    | c :: rest =>
      if lo ≤ c && c ≤ hi then
        match rest with
        | d :: _ =>
          if isContinuation d then (some (Char.ofNat (push (push (b.toNat % 16) c) d)), 2)
          else (none, 1)
        | [] => (none, 1)
      else (none, 0)
    | [] => (none, 0)
  else if 0xF0 ≤ b && b ≤ 0xF4 then
    -- the second byte excludes overlong forms and values above U+10FFFF
    let lo : UInt8 := if b = 0xF0 then 0x90 else 0x80
    let hi : UInt8 := if b = 0xF4 then 0x8F else 0xBF
    match rest with
    | c :: rest =>
      if lo ≤ c && c ≤ hi then
        match rest with
        | d :: rest =>
          if isContinuation d then
            match rest with
            | e :: _ =>
              if isContinuation e then
                (some (Char.ofNat (push (push (push (b.toNat % 8) c) d) e)), 3)
              else (none, 2)
            | [] => (none, 2)
          else (none, 1)
        | [] => (none, 1)
      else (none, 0)
    | [] => (none, 0)
  else (none, 0)

/-- Decode after dropping `skip` bytes that are already claimed: one entry per scalar value or
ill-formed sequence. -/
def decodeFrom : ℕ → List UInt8 → List (Option Char)
  | _, [] => []
  | 0, b :: rest => (decodeOne b rest).1 :: decodeFrom (decodeOne b rest).2 rest
  | skip + 1, _ :: rest => decodeFrom skip rest

/-- The characters of a lossy decode: U+FFFD for each ill-formed sequence. -/
def lossyChars (bytes : List UInt8) : List Char :=
  (decodeFrom 0 bytes).map (·.getD (Char.ofNat 0xFFFD))

/-- The lossy decode as a string. -/
def fromUtf8Lossy (bytes : List UInt8) : String := String.ofList (lossyChars bytes)

/-- The strict decode: nothing at all when some sequence is ill formed. -/
def fromUtf8 (bytes : List UInt8) : Option String :=
  ((decodeFrom 0 bytes).mapM id).map String.ofList

/-! ### ASCII bytes stand alone -/

theorem decodeOne_ascii {b : UInt8} (hb : b < 0x80) (rest : List UInt8) :
    decodeOne b rest = (some (Char.ofNat b.toNat), 0) := by
  unfold decodeOne
  rw [if_pos hb]

theorem not_isContinuation_of_ascii {x : UInt8} (hx : x < 0x80) : isContinuation x = false := by
  rw [UInt8.lt_iff_toNat_lt] at hx
  simp only [isContinuation, Bool.and_eq_false_iff, decide_eq_false_iff_not, UInt8.le_iff_toNat_le]
  exact Or.inl (Nat.not_le.mpr hx)

/-- Below every lower bound the second byte may have. -/
theorem not_le_of_ascii {x lo : UInt8} (hx : x < 0x80) (hlo : 0x80 ≤ lo) : ¬ lo ≤ x := by
  rw [UInt8.lt_iff_toNat_lt] at hx
  rw [UInt8.le_iff_toNat_le] at hlo ⊢
  omega

/-- A decoder that meets an ASCII byte behaves as at the end of the input. -/
theorem decodeOne_append_ascii {x : UInt8} (hx : x < 0x80) (b : UInt8) (r t : List UInt8) :
    decodeOne b (r ++ x :: t) = decodeOne b r := by
  have hcont := not_isContinuation_of_ascii hx
  have h80 : ¬ (0x80 : UInt8) ≤ x := not_le_of_ascii hx (by decide)
  have hA0 : ¬ (0xA0 : UInt8) ≤ x := not_le_of_ascii hx (by decide)
  have h90 : ¬ (0x90 : UInt8) ≤ x := not_le_of_ascii hx (by decide)
  have hE0 : ¬ (if b = 0xE0 then (0xA0 : UInt8) else 0x80) ≤ x := by split <;> assumption
  have hF0 : ¬ (if b = 0xF0 then (0x90 : UInt8) else 0x80) ≤ x := by split <;> assumption
  rcases r with _ | ⟨c, _ | ⟨d, _ | ⟨e, r⟩⟩⟩
  · simp [decodeOne, hcont, hE0, hF0]
  · simp [decodeOne, hcont]
  · simp [decodeOne, hcont]
  · simp [decodeOne]

/-- What stands at a leading byte lies inside the input. -/
theorem decodeOne_le_length (b : UInt8) (r : List UInt8) : (decodeOne b r).2 ≤ r.length := by
  -- a case for each way out of the decoder, with as many bytes in sight as it claims
  fun_cases decodeOne b r <;> simp

/-- **An ASCII byte never belongs to the sequence before it.** -/
theorem decodeFrom_append_ascii {x : UInt8} (hx : x < 0x80) (t : List UInt8) :
    ∀ (pre : List UInt8) (skip : ℕ), skip ≤ pre.length →
      decodeFrom skip (pre ++ x :: t) = decodeFrom skip pre ++ decodeFrom 0 (x :: t) := by
  intro pre
  induction pre with
  | nil =>
    intro skip hskip
    obtain rfl : skip = 0 := by simpa using hskip
    simp [decodeFrom]
  | cons b pre ih =>
    intro skip hskip
    cases skip with
    | zero =>
      simp only [List.cons_append, decodeFrom, decodeOne_append_ascii hx]
      rw [ih _ (decodeOne_le_length b pre)]
      simp [decodeFrom]
    | succ skip =>
      simp only [List.cons_append, decodeFrom]
      exact ih skip (by simpa using hskip)

/-! ### Lossy decoding keeps ASCII text -/

@[simp] theorem lossyChars_nil : lossyChars [] = [] := rfl

theorem lossyChars_cons_ascii {x : UInt8} (hx : x < 0x80) (t : List UInt8) :
    lossyChars (x :: t) = Char.ofNat x.toNat :: lossyChars t := by
  simp [lossyChars, decodeFrom, decodeOne_ascii hx]

theorem lossyChars_append_of_ascii_cons {x : UInt8} (hx : x < 0x80) (pre t : List UInt8) :
    lossyChars (pre ++ x :: t) = lossyChars pre ++ lossyChars (x :: t) := by
  simp [lossyChars, decodeFrom_append_ascii hx t pre 0 (Nat.zero_le _)]

theorem lossyChars_ascii_append {a : List UInt8} (ha : ∀ x ∈ a, x < 0x80) (t : List UInt8) :
    lossyChars (a ++ t) = a.map (fun x => Char.ofNat x.toNat) ++ lossyChars t := by
  induction a with
  | nil => rfl
  | cons x a ih =>
    rw [List.cons_append, lossyChars_cons_ascii (ha x (List.mem_cons_self ..)),
      ih fun y hy => ha y (List.mem_cons_of_mem _ hy)]
    rfl

/-- **ASCII text survives wherever it stands**, whatever surrounds it. -/
theorem lossyChars_append_ascii {a : List UInt8} (ha : ∀ x ∈ a, x < 0x80) (hne : a ≠ [])
    (pre post : List UInt8) :
    lossyChars (pre ++ a ++ post)
      = lossyChars pre ++ a.map (fun x => Char.ofNat x.toNat) ++ lossyChars post := by
  obtain ⟨x, a, rfl⟩ := List.exists_cons_of_ne_nil hne
  rw [List.append_assoc, List.cons_append,
    lossyChars_append_of_ascii_cons (ha x (List.mem_cons_self ..)), ← List.cons_append,
    lossyChars_ascii_append ha, List.append_assoc]

/-! ### The encoding of a text is read back -/

theorem isContinuation_iff {c : UInt8} :
    isContinuation c = true ↔ 0x80 ≤ c.toNat ∧ c.toNat ≤ 0xBF := by
  simp only [isContinuation, Bool.and_eq_true, decide_eq_true_eq, UInt8.le_iff_toNat_le]
  rfl

/-- The continuation byte that carries the low six bits of `n`. -/
theorem isContinuation_ofNat (n : ℕ) : isContinuation (UInt8.ofNat (n % 64 + 128)) = true := by
  rw [isContinuation_iff, UInt8.toNat_ofNat_of_lt' (by show _ < 256; omega)]
  omega

theorem push_ofNat (hi n : ℕ) : push hi (UInt8.ofNat (n % 64 + 128)) = hi * 64 + n % 64 := by
  rw [push, UInt8.toNat_ofNat_of_lt' (by show _ < 256; omega)]
  omega

/-- A two-byte sequence. -/
theorem decodeOne_two {b c : UInt8} (hb : 0xC2 ≤ b.toNat ∧ b.toNat ≤ 0xDF)
    (hc : isContinuation c = true) (t : List UInt8) :
    decodeOne b (c :: t) = (some (Char.ofNat (push (b.toNat % 32) c)), 1) := by
  have hascii : ¬ b.toNat < 0x80 := by omega
  simp only [decodeOne, Bool.and_eq_true, decide_eq_true_eq, UInt8.lt_iff_toNat_lt,
    UInt8.le_iff_toNat_le, UInt8.reduceToNat]
  rw [if_neg hascii, if_pos hb, if_pos hc]

/-- A three-byte sequence. What the second byte may be depends on the first. -/
theorem decodeOne_three {b c d : UInt8} (hb : 0xE0 ≤ b.toNat ∧ b.toNat ≤ 0xEF)
    (hc : isContinuation c = true) (hE0 : b.toNat = 0xE0 → 0xA0 ≤ c.toNat)
    (hED : b.toNat = 0xED → c.toNat ≤ 0x9F) (hd : isContinuation d = true) (t : List UInt8) :
    decodeOne b (c :: d :: t) =
      (some (Char.ofNat (push (push (b.toNat % 16) c) d)), 2) := by
  have hascii : ¬ b.toNat < 0x80 := by omega
  have htwo : ¬ (0xC2 ≤ b.toNat ∧ b.toNat ≤ 0xDF) := by omega
  rw [isContinuation_iff] at hc
  have hsecond : (if b.toNat = 0xE0 then 0xA0 else 0x80) ≤ c.toNat ∧
      c.toNat ≤ if b.toNat = 0xED then 0x9F else 0xBF := by
    split_ifs <;> omega
  simp only [decodeOne, Bool.and_eq_true, decide_eq_true_eq, UInt8.lt_iff_toNat_lt,
    UInt8.le_iff_toNat_le, ← UInt8.toNat_inj, apply_ite UInt8.toNat, UInt8.reduceToNat]
  rw [if_neg hascii, if_neg htwo, if_pos hb, if_pos hsecond, if_pos hd]

/-- A four-byte sequence, likewise. -/
theorem decodeOne_four {b c d e : UInt8} (hb : 0xF0 ≤ b.toNat ∧ b.toNat ≤ 0xF4)
    (hc : isContinuation c = true) (hF0 : b.toNat = 0xF0 → 0x90 ≤ c.toNat)
    (hF4 : b.toNat = 0xF4 → c.toNat ≤ 0x8F) (hd : isContinuation d = true)
    (he : isContinuation e = true) (t : List UInt8) :
    decodeOne b (c :: d :: e :: t) =
      (some (Char.ofNat (push (push (push (b.toNat % 8) c) d) e)), 3) := by
  have hascii : ¬ b.toNat < 0x80 := by omega
  have htwo : ¬ (0xC2 ≤ b.toNat ∧ b.toNat ≤ 0xDF) := by omega
  have hthree : ¬ (0xE0 ≤ b.toNat ∧ b.toNat ≤ 0xEF) := by omega
  rw [isContinuation_iff] at hc
  have hsecond : (if b.toNat = 0xF0 then 0x90 else 0x80) ≤ c.toNat ∧
      c.toNat ≤ if b.toNat = 0xF4 then 0x8F else 0xBF := by
    split_ifs <;> omega
  simp only [decodeOne, Bool.and_eq_true, decide_eq_true_eq, UInt8.lt_iff_toNat_lt,
    UInt8.le_iff_toNat_le, ← UInt8.toNat_inj, apply_ite UInt8.toNat, UInt8.reduceToNat]
  rw [if_neg hascii, if_neg htwo, if_neg hthree, if_pos hb, if_pos hsecond, if_pos hd, if_pos he]

section encoded

variable {v : ℕ} (t : List UInt8)

/-- The two bytes that encode `v`. -/
theorem decodeOne_two_encoded (h1 : 0x7f < v) (h2 : v ≤ 0x7ff) :
    decodeOne (UInt8.ofNat (v / 64 % 32 + 0xc0)) (UInt8.ofNat (v % 64 + 0x80) :: t) =
      (some (Char.ofNat v), 1) := by
  have hb : (UInt8.ofNat (v / 64 % 32 + 0xc0)).toNat = v / 64 % 32 + 0xc0 :=
    UInt8.toNat_ofNat_of_lt' (by show _ < 256; omega)
  have hv : (v / 64 % 32 + 0xc0) % 32 * 64 + v % 64 = v := by omega
  rw [decodeOne_two (by rw [hb]; omega) (isContinuation_ofNat v), push_ofNat, hb, hv]

/-- The three bytes that encode `v`, which is not a surrogate. -/
theorem decodeOne_three_encoded (h1 : 0x7ff < v) (h2 : v ≤ 0xffff)
    (hsurrogate : v < 0xd800 ∨ 0xdfff < v) :
    decodeOne (UInt8.ofNat (v / 4096 % 16 + 0xe0))
        (UInt8.ofNat (v / 64 % 64 + 0x80) :: UInt8.ofNat (v % 64 + 0x80) :: t) =
      (some (Char.ofNat v), 2) := by
  have hb : (UInt8.ofNat (v / 4096 % 16 + 0xe0)).toNat = v / 4096 % 16 + 0xe0 :=
    UInt8.toNat_ofNat_of_lt' (by show _ < 256; omega)
  have hc : (UInt8.ofNat (v / 64 % 64 + 0x80)).toNat = v / 64 % 64 + 0x80 :=
    UInt8.toNat_ofNat_of_lt' (by show _ < 256; omega)
  have hv : ((v / 4096 % 16 + 0xe0) % 16 * 64 + v / 64 % 64) * 64 + v % 64 = v := by omega
  rw [decodeOne_three (by rw [hb]; omega) (isContinuation_ofNat (v / 64)) (by rw [hb, hc]; omega)
    (by rw [hb, hc]; omega) (isContinuation_ofNat v), push_ofNat, push_ofNat, hb, hv]

/-- The four bytes that encode `v`. -/
theorem decodeOne_four_encoded (h1 : 0xffff < v) (h2 : v < 0x110000) :
    decodeOne (UInt8.ofNat (v / 262144 % 8 + 0xf0))
        (UInt8.ofNat (v / 4096 % 64 + 0x80) :: UInt8.ofNat (v / 64 % 64 + 0x80) ::
          UInt8.ofNat (v % 64 + 0x80) :: t) =
      (some (Char.ofNat v), 3) := by
  have hb : (UInt8.ofNat (v / 262144 % 8 + 0xf0)).toNat = v / 262144 % 8 + 0xf0 :=
    UInt8.toNat_ofNat_of_lt' (by show _ < 256; omega)
  have hc : (UInt8.ofNat (v / 4096 % 64 + 0x80)).toNat = v / 4096 % 64 + 0x80 :=
    UInt8.toNat_ofNat_of_lt' (by show _ < 256; omega)
  have hv : (((v / 262144 % 8 + 0xf0) % 8 * 64 + v / 4096 % 64) * 64 + v / 64 % 64) * 64 +
      v % 64 = v := by omega
  rw [decodeOne_four (by rw [hb]; omega) (isContinuation_ofNat (v / 4096))
    (by rw [hb, hc]; omega) (by rw [hb, hc]; omega) (isContinuation_ofNat (v / 64))
    (isContinuation_ofNat v), push_ofNat, push_ofNat, push_ofNat, hb, hv]

end encoded

/-- **One character is read back**, whatever follows. -/
theorem decodeFrom_utf8EncodeChar_append (c : Char) (t : List UInt8) :
    decodeFrom 0 (String.utf8EncodeChar c ++ t) = some c :: decodeFrom 0 t := by
  have hvalid : c.val.toNat < 0xd800 ∨ 0xdfff < c.val.toNat ∧ c.val.toNat < 0x110000 := c.valid
  have hofNat : Char.ofNat c.val.toNat = c := Char.ofNat_toNat c
  rw [String.utf8EncodeChar]
  generalize c.val.toNat = v at hvalid hofNat
  show decodeFrom 0 ((if v ≤ 0x7f then _ else _) ++ t) = _
  split_ifs with h1 h2 h3
  · have hv : (UInt8.ofNat v).toNat = v := UInt8.toNat_ofNat_of_lt' (by show v < 256; omega)
    have hascii : UInt8.ofNat v < 0x80 := by
      rw [UInt8.lt_iff_toNat_lt, hv]
      exact Nat.lt_succ_of_le h1
    rw [List.cons_append, List.nil_append, decodeFrom, decodeOne_ascii hascii, hv, hofNat]
  · show (decodeOne _ (_ :: t)).1 :: decodeFrom (decodeOne _ (_ :: t)).2 (_ :: t) = _
    rw [decodeOne_two_encoded t (by omega) h2, hofNat]
    rfl
  · show (decodeOne _ (_ :: _ :: t)).1 :: decodeFrom (decodeOne _ (_ :: _ :: t)).2 (_ :: _ :: t) = _
    rw [decodeOne_three_encoded t (by omega) h3 (by omega), hofNat]
    rfl
  · show (decodeOne _ (_ :: _ :: _ :: t)).1 ::
      decodeFrom (decodeOne _ (_ :: _ :: _ :: t)).2 (_ :: _ :: _ :: t) = _
    rw [decodeOne_four_encoded t (by omega) (by omega), hofNat]
    rfl

theorem lossyChars_flatMap_utf8EncodeChar (cs : List Char) :
    lossyChars (cs.flatMap String.utf8EncodeChar) = cs := by
  induction cs with
  | nil => rfl
  | cons c cs ih =>
    rw [List.flatMap_cons, lossyChars, decodeFrom_utf8EncodeChar_append, List.map_cons]
    show c :: lossyChars _ = _
    rw [ih]

theorem toUTF8_eq_flatMap (s : String) :
    s.toUTF8.data.toList = s.toList.flatMap String.utf8EncodeChar := by
  rw [String.toUTF8_eq_toByteArray, ← String.utf8Encode_toList, List.utf8Encode]
  simp

/-- **A text is read back from its bytes.** -/
theorem fromUtf8Lossy_toUTF8 (s : String) : fromUtf8Lossy s.toUTF8.data.toList = s := by
  rw [fromUtf8Lossy, toUTF8_eq_flatMap, lossyChars_flatMap_utf8EncodeChar, String.ofList_toList]

end Utf8
