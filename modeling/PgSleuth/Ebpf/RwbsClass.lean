import PgSleuth.Ebpf.BlockLatency
import PgSleuth.ForMathlib.NulTerminated

/-!
# The class of a request and its flag string

`rwbs` is a NUL-terminated string in a field of eight bytes, and `classifyRwbs` is meant to classify
that string: its first character, and whether an `F` or an `A` occurs in it. The scan for the second
runs over the field, not over the string, so a byte left behind the terminator can turn a write into
a flush.

## Main definitions

* `rwbsString`, `AgreeUpToNul` — the string in a field, and when two fields hold the same one
* `ClassifiedByString` — what the class says about the string, when it is the string's class
* `LeftoverFlush` — the fields on which the scan finds a flag that is not in the string

## Main results

* `classifiedByString_iff` — the class is the string's exactly outside `LeftoverFlush`
* `classifyRwbs_independent_iff` — for any two fields, exactly when the class of both depends on
  nothing but the string
-/

namespace PgSleuth

/-- The flag string in an `rwbs` field: the bytes before its first NUL. -/
def rwbsString (rwbs : Vector UInt8 8) : List UInt8 := rwbs.toList.takeWhile (· ≠ 0)

/-- What the field holds from its first NUL on. -/
def rwbsLeftover (rwbs : Vector UInt8 8) : List UInt8 := rwbs.toList.dropWhile (· ≠ 0)

/-- Two fields agree up to and including their first NUL. -/
def AgreeUpToNul (a b : Vector UInt8 8) : Prop :=
  ∀ i : Fin 8, (∀ j < i, a[j] ≠ 0) → a[i] = b[i]

instance (a b : Vector UInt8 8) : Decidable (AgreeUpToNul a b) :=
  inferInstanceAs (Decidable (∀ i : Fin 8, (∀ j < i, a[j] ≠ 0) → a[i] = b[i]))

/-- `F` or `A` occurs: a flush, or forced unit access. -/
def HasFlushFlag (s : List UInt8) : Prop := 70 ∈ s ∨ 65 ∈ s

instance (s : List UInt8) : Decidable (HasFlushFlag s) :=
  inferInstanceAs (Decidable (70 ∈ s ∨ 65 ∈ s))

/-- The class of a field is the one its string stands for. -/
structure ClassifiedByString (rwbs : Vector UInt8 8) : Prop where
  /-- `R…` -/
  read : classifyRwbs rwbs = OpClass.read.asU8 ↔ (rwbsString rwbs).head? = some 82
  /-- `F…`, or `W…` with a flag. -/
  writeFlush : classifyRwbs rwbs = OpClass.writeFlush.asU8 ↔
    (rwbsString rwbs).head? = some 70 ∨
      ((rwbsString rwbs).head? = some 87 ∧ HasFlushFlag (rwbsString rwbs))
  /-- `W…` without one. -/
  write : classifyRwbs rwbs = OpClass.write.asU8 ↔
    (rwbsString rwbs).head? = some 87 ∧ ¬ HasFlushFlag (rwbsString rwbs)
  other : classifyRwbs rwbs = OpClass.other.asU8 ↔
    (rwbsString rwbs).head? ≠ some 82 ∧ (rwbsString rwbs).head? ≠ some 70 ∧
      (rwbsString rwbs).head? ≠ some 87

/-- A plain write with an `F` or an `A` behind the end of its string. -/
def LeftoverFlush (rwbs : Vector UInt8 8) : Prop :=
  (rwbsString rwbs).head? = some 87 ∧ ¬ HasFlushFlag (rwbsString rwbs) ∧
    HasFlushFlag (rwbsLeftover rwbs)

instance (rwbs : Vector UInt8 8) : Decidable (LeftoverFlush rwbs) :=
  inferInstanceAs (Decidable (_ ∧ _ ∧ _))

/-! ### The string in a field -/

/-- Fields that agree up to their first NUL hold the same string. -/
theorem AgreeUpToNul.rwbsString_eq {a b : Vector UInt8 8} (h : AgreeUpToNul a b) :
    rwbsString a = rwbsString b := by
  refine List.takeWhile_eq_of_agree fun i hi => ?_
  rw [Vector.getElem?_toList, Vector.getElem?_toList]
  rcases Nat.lt_or_ge i 8 with hlt | hge
  · have hagree : a[i] = b[i] := by
      refine h ⟨i, hlt⟩ fun j hj => ?_
      have hne := hi j hj a[j] (by rw [Vector.getElem?_toList]; simp)
      simpa using hne
    simp [hlt, hagree]
  · simp [hge]

/-- The flags the scan looks for are in the string or behind it. -/
theorem hasFlushFlag_toList (rwbs : Vector UInt8 8) :
    HasFlushFlag rwbs.toList ↔
      HasFlushFlag (rwbsString rwbs) ∨ HasFlushFlag (rwbsLeftover rwbs) := by
  unfold HasFlushFlag rwbsString rwbsLeftover
  rw [List.mem_iff_mem_takeWhile_or_dropWhile (l := rwbs.toList) (x := 70) (· ≠ 0),
    List.mem_iff_mem_takeWhile_or_dropWhile (l := rwbs.toList) (x := 65) (· ≠ 0)]
  tauto

/-- A string starts with the first byte of its field, unless that is the NUL. -/
theorem head?_rwbsString (rwbs : Vector UInt8 8) {c : UInt8} (hc : c ≠ 0) :
    (rwbsString rwbs).head? = some c ↔ rwbs.head = c := by
  have hcons : rwbs.toList = rwbs.head :: rwbs.toList.tail := by
    have hhead : rwbs.toList.head? = some rwbs.head := by
      rw [List.head?_eq_getElem?, Vector.getElem?_toList]
      simp [Vector.head]
    exact (List.cons_head?_tail hhead).symm
  rw [rwbsString, hcons, List.head?_takeWhile_cons]
  by_cases h0 : rwbs.head = 0
  · simp [h0, hc.symm]
  · simp [h0]

/-- A string that starts with `F` has a flag. -/
theorem hasFlushFlag_of_head? {s : List UInt8} (h : s.head? = some 70) : HasFlushFlag s :=
  Or.inl (List.mem_of_mem_head? h)

/-! ### What the program computes -/

/-- The class, in terms of the first byte and of the whole field. -/
theorem classifyRwbs_eq (rwbs : Vector UInt8 8) :
    classifyRwbs rwbs =
      if rwbs.head = 82 then OpClass.read.asU8
      else if rwbs.head = 87 ∨ rwbs.head = 70 then
        if HasFlushFlag rwbs.toList then OpClass.writeFlush.asU8 else OpClass.write.asU8
      else OpClass.other.asU8 := by
  have hany : rwbs.toList.any (fun c => c == 70 || c == 65) =
      decide (HasFlushFlag rwbs.toList) := by
    rw [Bool.eq_iff_iff, decide_eq_true_iff]
    simp only [List.any_eq_true, Bool.or_eq_true, beq_iff_eq, and_or_left, exists_or,
      exists_eq_right, HasFlushFlag]
  unfold classifyRwbs
  rw [hany, Vector.head]
  by_cases hflag : HasFlushFlag rwbs.toList <;>
    by_cases hfirst : rwbs[0] = 87 ∨ rwbs[0] = 70 <;> simp [hflag, hfirst]

/-- The class, in terms of the string and of what stands behind it. -/
theorem classifyRwbs_eq_string (rwbs : Vector UInt8 8) :
    classifyRwbs rwbs =
      if (rwbsString rwbs).head? = some 82 then OpClass.read.asU8
      else if (rwbsString rwbs).head? = some 70 then OpClass.writeFlush.asU8
      else if (rwbsString rwbs).head? = some 87 then
        if HasFlushFlag (rwbsString rwbs) ∨ HasFlushFlag (rwbsLeftover rwbs) then
          OpClass.writeFlush.asU8
        else OpClass.write.asU8
      else OpClass.other.asU8 := by
  rw [classifyRwbs_eq, if_congr (hasFlushFlag_toList rwbs) rfl rfl]
  by_cases h70 : (rwbsString rwbs).head? = some 70
  · -- an `F` at the front is itself a flag
    have hflag := hasFlushFlag_of_head? h70
    have hfirst := (head?_rwbsString rwbs (by decide)).mp h70
    simp [h70, hfirst, hflag]
  · rw [if_neg h70]
    rw [head?_rwbsString rwbs (by decide)] at h70
    simp only [head?_rwbsString rwbs (show (82 : UInt8) ≠ 0 by decide),
      head?_rwbsString rwbs (show (87 : UInt8) ≠ 0 by decide), h70, or_false]

/-! ### When the string decides -/

/-- On a leftover flag the class is not the string's. -/
theorem ClassifiedByString.not_leftoverFlush {rwbs : Vector UInt8 8}
    (h : ClassifiedByString rwbs) : ¬ LeftoverFlush rwbs := by
  rintro ⟨hwrite, hno, hleft⟩
  have hclass : classifyRwbs rwbs = OpClass.write.asU8 := h.write.mpr ⟨hwrite, hno⟩
  rw [classifyRwbs_eq_string, hwrite] at hclass
  simp [hleft, OpClass.asU8] at hclass

/-- Everywhere else it is. -/
theorem classifiedByString_of_not_leftoverFlush {rwbs : Vector UInt8 8}
    (h : ¬ LeftoverFlush rwbs) : ClassifiedByString rwbs := by
  have hscan : (rwbsString rwbs).head? = some 87 →
      (HasFlushFlag (rwbsString rwbs) ∨ HasFlushFlag (rwbsLeftover rwbs) ↔
        HasFlushFlag (rwbsString rwbs)) := by
    intro hwrite
    refine or_iff_left_of_imp fun hleft => ?_
    by_contra hno
    exact h ⟨hwrite, hno, hleft⟩
  have hclass := classifyRwbs_eq_string rwbs
  constructor
  all_goals
    rw [hclass]
    by_cases h82 : (rwbsString rwbs).head? = some 82
    · simp [h82, OpClass.asU8]
    by_cases h70 : (rwbsString rwbs).head? = some 70
    · simp [h70, OpClass.asU8]
    by_cases h87 : (rwbsString rwbs).head? = some 87
    · rw [if_congr (hscan h87) rfl rfl]
      by_cases hflag : HasFlushFlag (rwbsString rwbs) <;> simp [h87, hflag, OpClass.asU8]
    · simp [h82, h70, h87, OpClass.asU8]

/-- **The class is the string's exactly outside the leftover flags.** -/
theorem classifiedByString_iff (rwbs : Vector UInt8 8) :
    ClassifiedByString rwbs ↔ ¬ LeftoverFlush rwbs :=
  ⟨ClassifiedByString.not_leftoverFlush, classifiedByString_of_not_leftoverFlush⟩

/-- Two fields whose class is their string's, and whose string is the same, have one class. -/
theorem ClassifiedByString.classifyRwbs_eq {a b : Vector UInt8 8} (ha : ClassifiedByString a)
    (hb : ClassifiedByString b) (hs : rwbsString a = rwbsString b) :
    classifyRwbs a = classifyRwbs b := by
  have hscan : ∀ {x : Vector UInt8 8}, ClassifiedByString x →
      (rwbsString x).head? = some 87 → ¬ HasFlushFlag (rwbsString x) →
        ¬ HasFlushFlag (rwbsLeftover x) :=
    fun hx hwrite hno hleft => hx.not_leftoverFlush ⟨hwrite, hno, hleft⟩
  have ha' := hscan ha
  have hb' := hscan hb
  rw [hs] at ha'
  rw [classifyRwbs_eq_string a, classifyRwbs_eq_string b, hs]
  by_cases h87 : (rwbsString b).head? = some 87
  · by_cases hflag : HasFlushFlag (rwbsString b)
    · simp [hflag]
    · simp [h87, hflag, ha' h87 hflag, hb' h87 hflag]
  · simp [h87]

/-- **Exactly when classification reads only the string.** For any two fields: if they agree up to
their first NUL then they get the same class, and the class of each is the one its string stands
for, exactly when neither is a plain write with an `F` or an `A` behind the end of its string. -/
theorem classifyRwbs_independent_iff (a b : Vector UInt8 8) :
    ((AgreeUpToNul a b → classifyRwbs a = classifyRwbs b) ∧
        ClassifiedByString a ∧ ClassifiedByString b) ↔
      ¬ LeftoverFlush a ∧ ¬ LeftoverFlush b := by
  constructor
  · rintro ⟨-, ha, hb⟩
    exact ⟨ha.not_leftoverFlush, hb.not_leftoverFlush⟩
  · rintro ⟨ha, hb⟩
    have hca := classifiedByString_of_not_leftoverFlush ha
    have hcb := classifiedByString_of_not_leftoverFlush hb
    exact ⟨fun hagree => hca.classifyRwbs_eq hcb hagree.rwbsString_eq, hca, hcb⟩

/-- The field `"W\0F\0\0\0\0\0"`: the string is `"W"`, and an `F` was left behind it. -/
def leftoverW : Vector UInt8 8 := #v[87, 0, 70, 0, 0, 0, 0, 0]

/-- The field `"W\0\0\0\0\0\0\0"`. -/
def plainW : Vector UInt8 8 := #v[87, 0, 0, 0, 0, 0, 0, 0]

/-- The string alone does not decide: two fields that both hold `"W"` get two classes, and one of
them is classified as a flush although its string has no flag. -/
theorem not_classifyRwbs_independent :
    ¬ ∀ a b : Vector UInt8 8,
      (AgreeUpToNul a b → classifyRwbs a = classifyRwbs b) ∧
        ClassifiedByString a ∧ ClassifiedByString b := by
  intro h
  have hagree : AgreeUpToNul leftoverW plainW := by decide
  have hsame := (h leftoverW plainW).1 hagree
  exact absurd hsame (by decide)

end PgSleuth
