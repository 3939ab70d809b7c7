import Mathlib.Data.List.Basic
import Mathlib.Data.List.Induction

/-!
# Batches between ticks

A loop that collects samples and hands them over at every tick cuts its input into batches: the
samples since the last tick, and what is still pending after the last one. Here the batches are
defined on the whole input at once, by splitting it at the ticks, and the lemmas say how they grow
one input at a time, which is what an accumulator that is pushed to and cleared does.

## Main results

* `batches_concat_tick`, `pending_concat_tick`, `batches_concat`, `pending_concat` — one more input
* `batches_append_cons` — the batches up to a tick are a prefix of all batches
* `flatten_batches_append_pending` — every sample is in exactly one batch, or still pending
-/

section Batching

variable {ι α : Type*} (isTick : ι → Bool) (sample : ι → Option α)

/-- The samples of each stretch between ticks; the last one is still open. -/
def stretches (l : List ι) : List (List α) := (l.splitOnP isTick).map (List.filterMap sample)

/-- The batches that ticks have closed, in order. -/
def batches (l : List ι) : List (List α) := (stretches isTick sample l).dropLast

/-- The samples since the last tick. -/
def pending (l : List ι) : List α := (stretches isTick sample l).getLastD []

theorem batches_append_pending (l : List ι) :
    batches isTick sample l ++ [pending isTick sample l] = stretches isTick sample l := by
  have hne : stretches isTick sample l ≠ [] := by simp [stretches]
  rw [batches, pending, List.getLastD_eq_getLast?, List.getLast?_eq_some_getLast hne]
  exact List.dropLast_append_getLast hne

@[simp] theorem batches_nil : batches isTick sample [] = [] := by simp [batches, stretches]

@[simp] theorem pending_nil : pending isTick sample [] = [] := by simp [pending, stretches]

variable {isTick}

theorem stretches_concat_tick (l : List ι) {i : ι} (hi : isTick i = true) :
    stretches isTick sample (l ++ [i]) = stretches isTick sample l ++ [[]] := by
  simp [stretches, List.splitOnP_append_cons l [] hi]

theorem stretches_concat (l : List ι) {i : ι} (hi : isTick i = false) :
    stretches isTick sample (l ++ [i]) =
      batches isTick sample l ++ [pending isTick sample l ++ (sample i).toList] := by
  have hsplit : (l ++ [i]).splitOnP isTick =
      (l.splitOnP isTick).dropLast ++ [(l.splitOnP isTick).getLastD [] ++ [i]] := by
    induction l with
    | nil => simp [List.splitOnP_cons_eq_if_modifyHead, hi]
    | cons a l ih =>
      obtain ⟨hd, tl, htl⟩ := List.exists_cons_of_ne_nil (List.splitOnP_ne_nil isTick l)
      rw [List.cons_append, List.splitOnP_cons_eq_if_modifyHead, ih,
        List.splitOnP_cons_eq_if_modifyHead, htl]
      cases tl with
      | nil => by_cases ha : isTick a <;> simp [ha]
      | cons b tl => by_cases ha : isTick a <;> simp [ha]
  have hpending : pending isTick sample l =
      ((l.splitOnP isTick).getLastD []).filterMap sample := by
    rw [pending, stretches, List.getLastD_eq_getLast?, List.getLast?_map,
      List.getLastD_eq_getLast?]
    cases (l.splitOnP isTick).getLast? <;> simp
  rw [stretches, hsplit, batches, stretches, hpending, List.map_append, List.map_dropLast]
  cases h : sample i <;> simp [h]

/-! ### One more input -/

theorem batches_concat_tick (l : List ι) {i : ι} (hi : isTick i = true) :
    batches isTick sample (l ++ [i]) =
      batches isTick sample l ++ [pending isTick sample l] := by
  rw [batches, stretches_concat_tick sample l hi, List.dropLast_concat, batches_append_pending]

theorem pending_concat_tick (l : List ι) {i : ι} (hi : isTick i = true) :
    pending isTick sample (l ++ [i]) = [] := by
  rw [pending, stretches_concat_tick sample l hi, List.getLastD_concat]

theorem batches_concat (l : List ι) {i : ι} (hi : isTick i = false) :
    batches isTick sample (l ++ [i]) = batches isTick sample l := by
  rw [batches, stretches_concat sample l hi, List.dropLast_concat]

theorem pending_concat (l : List ι) {i : ι} (hi : isTick i = false) :
    pending isTick sample (l ++ [i]) = pending isTick sample l ++ (sample i).toList := by
  rw [pending, stretches_concat sample l hi, List.getLastD_concat]

/-- A whole batch at once: inputs that are no ticks, and then a tick. -/
theorem batches_append_batch (l batch : List ι) {i : ι} (hbatch : ∀ b ∈ batch, isTick b = false)
    (hi : isTick i = true) :
    batches isTick sample (l ++ (batch ++ [i])) =
      batches isTick sample l ++ [pending isTick sample l ++ batch.filterMap sample] := by
  induction batch generalizing l with
  | nil => simp [batches_concat_tick sample l hi]
  | cons b batch ih =>
    have hb := hbatch b (List.mem_cons_self ..)
    have hrest := ih (l ++ [b]) fun b' hb' => hbatch b' (List.mem_cons_of_mem b hb')
    rw [batches_concat sample l hb, pending_concat sample l hb] at hrest
    rw [List.cons_append, List.append_cons, hrest]
    cases h : sample b <;> simp [h]

/-! ### The whole input -/

theorem length_batches (l : List ι) :
    (batches isTick sample l).length = l.countP isTick := by
  induction l using List.reverseRecOn with
  | nil => simp
  | append_singleton l i ih =>
    cases hi : isTick i with
    | true => rw [batches_concat_tick sample l hi]; simp [ih, hi]
    | false => rw [batches_concat sample l hi]; simp [ih, hi]

/-- The batches closed up to a tick, and then those closed later. -/
theorem batches_append_cons (l l' : List ι) {i : ι} (hi : isTick i = true) :
    batches isTick sample (l ++ i :: l') =
      batches isTick sample (l ++ [i]) ++ batches isTick sample l' := by
  have hsplit : stretches isTick sample (l ++ i :: l') =
      stretches isTick sample l ++ stretches isTick sample l' := by
    simp [stretches, List.splitOnP_append_cons l l' hi]
  rw [batches, hsplit, List.dropLast_append_of_ne_nil (by simp [stretches]),
    ← batches_append_pending isTick sample l, ← batches_concat_tick sample l hi]
  rfl

/-- The batches of two inputs in a row: the first batch of the second starts with what was
pending. -/
theorem batches_append (l l' : List ι) :
    batches isTick sample (l ++ l') = batches isTick sample l ++
        (batches isTick sample l').modifyHead (pending isTick sample l ++ ·) ∧
      pending isTick sample (l ++ l') =
        if batches isTick sample l' = [] then pending isTick sample l ++ pending isTick sample l'
        else pending isTick sample l' := by
  induction l' using List.reverseRecOn with
  | nil => simp
  | append_singleton l' i ih =>
    obtain ⟨hbatches, hpending⟩ := ih
    rw [← List.append_assoc]
    cases hi : isTick i with
    | true =>
      rw [batches_concat_tick _ _ hi, pending_concat_tick _ _ hi, batches_concat_tick _ _ hi,
        pending_concat_tick _ _ hi, hbatches, hpending]
      cases batches isTick sample l' <;> simp
    | false =>
      rw [batches_concat _ _ hi, pending_concat _ _ hi, batches_concat _ _ hi,
        pending_concat _ _ hi, hbatches, hpending]
      cases batches isTick sample l' <;> simp

/-- **Every sample belongs to exactly one batch**, or is still pending. -/
theorem flatten_batches_append_pending (hsample : ∀ i, isTick i = true → sample i = none)
    (l : List ι) :
    (batches isTick sample l).flatten ++ pending isTick sample l = l.filterMap sample := by
  induction l using List.reverseRecOn with
  | nil => simp
  | append_singleton l i ih =>
    cases hi : isTick i with
    | true =>
      rw [batches_concat_tick sample l hi, pending_concat_tick sample l hi]
      simpa [hsample i hi] using ih
    | false =>
      rw [batches_concat sample l hi, pending_concat sample l hi, ← List.append_assoc, ih]
      cases h : sample i <;> simp [h]

end Batching
