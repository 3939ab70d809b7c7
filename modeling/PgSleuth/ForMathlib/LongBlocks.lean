import Mathlib.Data.List.SplitBy
import PgSleuth.ForMathlib.Mealy
import PgSleuth.ForMathlib.TrailingRun

/-!
# Long blocks of a list

A list falls into blocks of equal neighbours. An alarm that goes off once in every block of the
right kind that is long enough counts those blocks, and it can count them one element at a time: a
block counts at the element that makes it long enough.

## Main definitions

* `longBlocks q k l` — how many blocks of `l` are at least `k` long and of the kind `q`

## Main results

* `longBlocks_concat` — what one more element does to the number
* `longBlocks_cut` — what cutting the list in two does to it
* `Mealy.length_flatMap_outputsOn` — a machine that reports something whenever a block gets long
  reports as much as there are long blocks
-/

section LongBlocks

variable {α : Type*} [DecidableEq α] (q : α → Bool) (k : ℕ)

/-- The block is at least `k` long, and its elements are of the kind `q`. -/
def IsLongBlock (b : List α) : Prop := k ≤ b.length ∧ b.head?.any q = true

instance : DecidablePred (IsLongBlock q k) := fun b =>
  inferInstanceAs (Decidable (k ≤ b.length ∧ b.head?.any q = true))

/-- How many blocks of equal neighbours are long and of the right kind. -/
def longBlocks (l : List α) : ℕ := (l.splitBy (· == ·)).countP (IsLongBlock q k)

@[simp] theorem longBlocks_nil : longBlocks q k [] = 0 := rfl

/-- The blocks of a list that ends with a block of `a`. -/
theorem splitBy_append_replicate {l : List α} {a : α} (h : a ∉ l.getLast?) {n : ℕ} (hn : 0 < n) :
    (l ++ List.replicate n a).splitBy (· == ·) =
      l.splitBy (· == ·) ++ [List.replicate n a] := by
  have hblock : (List.replicate n a).splitBy (· == ·) = [List.replicate n a] := by
    refine List.splitBy_of_isChain (by simpa using Nat.ne_of_gt hn) ?_
    exact List.isChain_replicate_of_rel n (beq_self_eq_true a)
  rw [List.splitBy_append, hblock]
  intro x hx y hy
  obtain rfl : y = a := List.eq_of_mem_replicate (List.mem_of_mem_head? hy)
  rw [beq_eq_false_iff_ne]
  rintro rfl
  exact h hx

/-- A list that ends with `n` times `a`, as far as long blocks go. -/
theorem longBlocks_append_replicate (hk : 0 < k) {l : List α} {a : α} (h : a ∉ l.getLast?)
    (n : ℕ) :
    longBlocks q k (l ++ List.replicate n a) =
      longBlocks q k l + if k ≤ n ∧ q a = true then 1 else 0 := by
  rcases Nat.eq_zero_or_pos n with rfl | hn
  · rw [if_neg (by omega)]
    simp
  · have hhead : (List.replicate n a).head? = some a := by
      rw [List.head?_replicate, if_neg (Nat.ne_of_gt hn)]
    rw [longBlocks, splitBy_append_replicate h hn, List.countP_append, List.countP_singleton,
      ← longBlocks]
    simp [IsLongBlock, hhead]

/-- What a list ends with, and what is before it. -/
theorem exists_append_replicate (l : List α) (a : α) :
    ∃ init, l = init ++ List.replicate (trailingRun (fun b => b = a) l) a ∧
      a ∉ init.getLast? := by
  induction l using List.reverseRecOn with
  | nil => exact ⟨[], rfl, by simp⟩
  | append_singleton l b ih =>
    rw [trailingRun_concat]
    by_cases hb : b = a
    · subst hb
      obtain ⟨init, hl, hlast⟩ := ih
      refine ⟨init, ?_, hlast⟩
      rw [if_pos (by simp), List.replicate_succ', ← List.append_assoc, ← hl]
    · refine ⟨l ++ [b], by simp [hb], ?_⟩
      simpa using hb

/-- **One more element** makes a block long when it makes it exactly `k` long. -/
theorem longBlocks_concat (hk : 0 < k) (l : List α) (a : α) :
    longBlocks q k (l ++ [a]) = longBlocks q k l +
      if trailingRun (fun b => b = a) (l ++ [a]) = k ∧ q a = true then 1 else 0 := by
  obtain ⟨init, hl, hlast⟩ := exists_append_replicate l a
  have hrun : trailingRun (fun b => b = a) (l ++ [a]) =
      trailingRun (fun b => b = a) l + 1 := by simp
  have hsnoc : l ++ [a] =
      init ++ List.replicate (trailingRun (fun b => b = a) l + 1) a := by
    rw [List.replicate_succ', ← List.append_assoc, ← hl]
  have hbefore : longBlocks q k l = longBlocks q k init +
      if k ≤ trailingRun (fun b => b = a) l ∧ q a = true then 1 else 0 := by
    conv_lhs => rw [hl]
    exact longBlocks_append_replicate q k hk hlast _
  rw [hrun, hsnoc, longBlocks_append_replicate q k hk hlast, hbefore, Nat.add_assoc,
    Nat.add_left_cancel_iff]
  generalize trailingRun (fun b => b = a) l = n
  cases q a with
  | false => simp
  | true =>
    simp only [and_true]
    split_ifs <;> omega

/-- A list that starts with the wrong kind. -/
theorem longBlocks_cons_of_not (hk : 0 < k) {a : α} (h : q a = false) (l : List α) :
    longBlocks q k (a :: l) = longBlocks q k l := by
  induction l using List.reverseRecOn with
  | nil => simpa [h] using longBlocks_concat q k hk [] a
  | append_singleton l b ih =>
    rw [← List.cons_append, longBlocks_concat q k hk, ih, longBlocks_concat q k hk]
    congr 1
    refine if_congr (and_congr_left ?_) rfl rfl
    intro hb
    have hne : decide (a = b) = false := decide_eq_false fun heq => by simp [← heq, h] at hb
    have hrun := trailingRun_append_cons_of_not (fun b' => decide (b' = b)) [] hne (l ++ [b])
    rw [List.cons_append, ← hrun, List.nil_append]

/-! ### Joining two lists -/

theorem longBlocks_append_of_ne {l m : List α} (h : ∀ a ∈ l.getLast?, a ∉ m.head?) :
    longBlocks q k (l ++ m) = longBlocks q k l + longBlocks q k m := by
  rw [longBlocks, List.splitBy_append, List.countP_append, longBlocks, longBlocks]
  intro x hx y hy
  rw [beq_eq_false_iff_ne]
  rintro rfl
  exact h x hx hy

/-- A list that starts with `n` times `a`, as far as long blocks go. -/
theorem longBlocks_replicate_append (hk : 0 < k) {m : List α} {a : α} (h : a ∉ m.head?) (n : ℕ) :
    longBlocks q k (List.replicate n a ++ m) =
      (if k ≤ n ∧ q a = true then 1 else 0) + longBlocks q k m := by
  have hblock := longBlocks_append_replicate q k hk (l := []) (a := a) (by simp) n
  rw [List.nil_append, longBlocks_nil, Nat.zero_add] at hblock
  rw [longBlocks_append_of_ne, hblock]
  intro b hb
  obtain rfl : b = a := List.eq_of_mem_replicate (List.mem_of_mem_getLast? hb)
  exact h

/-- What a list starts with, and what is after it. -/
theorem exists_replicate_append (m : List α) (a : α) :
    ∃ n rest, m = List.replicate n a ++ rest ∧ a ∉ rest.head? := by
  induction m with
  | nil => exact ⟨0, [], rfl, by simp⟩
  | cons b m ih =>
    by_cases hb : b = a
    · subst hb
      obtain ⟨n, rest, rfl, hrest⟩ := ih
      exact ⟨n + 1, rest, rfl, hrest⟩
    · exact ⟨0, b :: m, rfl, by simpa using hb⟩

/-- A block between two others. -/
theorem longBlocks_around (hk : 0 < k) {before rest : List α} {a : α}
    (hbefore : a ∉ before.getLast?) (hrest : a ∉ rest.head?) {n : ℕ} (hn : 0 < n) :
    longBlocks q k (before ++ (List.replicate n a ++ rest)) =
      longBlocks q k before + (if k ≤ n ∧ q a = true then 1 else 0) + longBlocks q k rest := by
  have hne : ∀ b ∈ before.getLast?, b ∉ (List.replicate n a ++ rest).head? := by
    rintro b hb hhead
    rw [List.head?_append, List.head?_replicate, if_neg (Nat.ne_of_gt hn), Option.some_or] at hhead
    exact hbefore (Option.some.inj hhead ▸ hb)
  rw [longBlocks_append_of_ne q k hne, longBlocks_replicate_append q k hk hrest, Nat.add_assoc]

/-- An element of the wrong kind separates. -/
theorem longBlocks_append_cons_of_not (hk : 0 < k) {a : α} (h : q a = false) (l m : List α) :
    longBlocks q k (l ++ a :: m) = longBlocks q k l + longBlocks q k m := by
  obtain ⟨before, hl, hbefore⟩ := exists_append_replicate l a
  obtain ⟨n, rest, rfl, hrest⟩ := exists_replicate_append m a
  generalize trailingRun (fun b => b = a) l = i at hl
  have hjoined : l ++ a :: (List.replicate n a ++ rest) =
      before ++ (List.replicate (i + (n + 1)) a ++ rest) := by
    rw [hl, List.replicate_add, List.replicate_succ]
    simp only [List.append_assoc, List.cons_append]
  rw [hjoined, longBlocks_around q k hk hbefore hrest (show 0 < i + (n + 1) by omega), hl,
    longBlocks_append_replicate q k hk hbefore, longBlocks_replicate_append q k hk hrest]
  simp [h]

/-- Two numbers that differ by one at most. -/
def OffByOne (m n : ℕ) : Prop := m ≤ n + 1 ∧ n ≤ m + 1

/-- **Cutting a list in two**, and losing at most one element, makes a difference of at most one:
only the block at the cut can become two, or one, or none. -/
theorem longBlocks_cut (hk : 0 < k) (l m : List α) (o : Option α) :
    OffByOne (longBlocks q k (l ++ o.toList ++ m)) (longBlocks q k l + longBlocks q k m) := by
  rcases List.eq_nil_or_concat (l ++ o.toList) with hnil | ⟨init, a, hinit⟩
  · obtain ⟨rfl, ho⟩ := List.append_eq_nil_iff.mp hnil
    rw [ho]
    exact ⟨by simp, by simp⟩
  · -- the block at the cut is made of `a`
    obtain ⟨before, hl, hbefore⟩ := exists_append_replicate l a
    obtain ⟨n, rest, rfl, hrest⟩ := exists_replicate_append m a
    obtain ⟨e, ho, hpos⟩ : ∃ e, o.toList = List.replicate e a ∧
        0 < trailingRun (fun b => b = a) l + e := by
      cases o with
      | none =>
        rw [Option.toList_none, List.append_nil] at hinit
        refine ⟨0, rfl, ?_⟩
        rw [hinit, List.concat_eq_append, trailingRun_concat]
        simp
      | some x =>
        rw [Option.toList_some, List.concat_eq_append] at hinit
        obtain rfl := List.singleton_inj.mp (List.append_inj_right' hinit rfl)
        exact ⟨1, rfl, Nat.succ_pos _⟩
    generalize trailingRun (fun b => b = a) l = i at hl hpos
    have hjoined : l ++ o.toList ++ (List.replicate n a ++ rest) =
        before ++ (List.replicate (i + e + n) a ++ rest) := by
      rw [hl, ho, List.replicate_add, List.replicate_add]
      simp only [List.append_assoc]
    rw [hjoined, longBlocks_around q k hk hbefore hrest (by omega), hl,
      longBlocks_append_replicate q k hk hbefore, longBlocks_replicate_append q k hk hrest]
    cases q a with
    | false => constructor <;> simp
    | true =>
      simp only [and_true]
      constructor <;> split_ifs <;> omega

/-- The same when the element after the cut is not lost but may have become another. -/
theorem longBlocks_cut_changed (hk : 0 < k) (l m : List Bool) (b b' : Bool) :
    OffByOne (longBlocks id k (l ++ b :: m)) (longBlocks id k l + longBlocks id k (b' :: m)) := by
  cases b' with
  | false =>
    have hcut := longBlocks_cut id k hk l m (some b)
    rw [longBlocks_cons_of_not id k hk rfl]
    simpa using hcut
  | true =>
    cases b with
    | true =>
      have hcut := longBlocks_cut id k hk l (true :: m) none
      simpa using hcut
    | false =>
      obtain ⟨hle, hge⟩ := longBlocks_cut id k hk [] m (some true)
      rw [longBlocks_append_cons_of_not id k hk rfl]
      simp only [Option.toList_some, List.nil_append, List.cons_append, longBlocks_nil,
        Nat.zero_add] at hle hge
      constructor <;> omega

example : longBlocks id 2 [true, true, true, false, true, false, true, true] = 2 := by decide

/-- A run of breaches, as a block of `true`. -/
theorem trailingRun_id_concat_iff (hk : 0 < k) {l : List Bool} {b : Bool} :
    trailingRun id (l ++ [b]) = k ↔
      trailingRun (fun b' => b' = b) (l ++ [b]) = k ∧ id b = true := by
  cases b with
  | true => simp [Function.id_def]
  | false => simp [Nat.ne_of_lt hk]

/-- **Counting reports.** A machine keeps a history. If each input adds at most one element to it,
and there is a report exactly when that element makes a block `k` long, then there are as many
reports as there are long blocks. -/
theorem Mealy.length_flatMap_outputsOn {σ ι ω β : Type*} {step : σ → ι → σ × ω} {p : ι → Bool}
    {report : ω → List β} {s : σ} {history : List ι → List α} (hk : 0 < k) (hnil : history [] = [])
    (hsilent : ∀ is i, p i = false → history (is ++ [i]) = history is)
    (hstep : ∀ is i, p i = true →
      (history (is ++ [i]) = history is ∧ report (step (final step s is) i).2 = []) ∨
        ∃ a, history (is ++ [i]) = history is ++ [a] ∧
          (report (step (final step s is) i).2).length =
            if trailingRun (fun b => b = a) (history is ++ [a]) = k ∧ q a = true then 1 else 0)
    (is : List ι) :
    ((outputsOn step p s is).flatMap report).length = longBlocks q k (history is) := by
  induction is using List.reverseRecOn with
  | nil => simp [hnil]
  | append_singleton is i ih =>
    rw [outputsOn_append, List.flatMap_append, List.length_append, ih]
    cases hp : p i with
    | false => simp [outputsOn_cons, hp, hsilent is i hp]
    | true =>
      rcases hstep is i hp with ⟨hhistory, hreport⟩ | ⟨a, hhistory, hreport⟩
      · simp [outputsOn_cons, hp, hhistory, hreport]
      · rw [hhistory, longBlocks_concat q k hk, ← hreport]
        simp [outputsOn_cons, hp]

end LongBlocks
