import Mathlib.Data.List.ReduceOption
import Mathlib.Data.Option.NAry
import PgSleuth.ForMathlib.TrailingRun

/-!
# The last success

A loop that skips the polls that fail and remembers the last one that did not. What it remembers is
the last `some` of the list of answers, and the position of that answer tells how many polls have
failed since.

## Main results

* `lastSome_concat` — one more answer
* `lastSome_eq_some_iff` — the last success, by its position
* `lastSome_eq_some_true_iff` — the last verdict is a breach exactly when a run of breaches goes on
-/

section LastSome

variable {α : Type*}

/-- The last `some` of a list, if there is one. -/
def lastSome (l : List (Option α)) : Option α := (l.filterMap id).getLast?

@[simp] theorem lastSome_nil : lastSome ([] : List (Option α)) = none := rfl

@[simp] theorem lastSome_concat (l : List (Option α)) (o : Option α) :
    lastSome (l ++ [o]) = o.or (lastSome l) := by
  cases o <;> simp [lastSome]

/-- One more answer of a longer list. -/
theorem lastSome_take_succ (l : List (Option α)) (t : ℕ) :
    lastSome (l.take (t + 1)) = (l[t]?.join).or (lastSome (l.take t)) := by
  rw [List.take_add_one]
  cases l[t]? with
  | none => simp
  | some o => exact lastSome_concat _ o

/-- When the answers are verdicts, the last one is a breach exactly when those there were end with a
run of breaches. -/
theorem lastSome_eq_some_true_iff (l : List (Option Bool)) :
    lastSome l = some true ↔ 0 < trailingRun id l.reduceOption := by
  induction l using List.reverseRecOn with
  | nil => simp [List.reduceOption]
  | append_singleton l o ih =>
    rw [lastSome_concat, List.reduceOption_append]
    cases o with
    | none => simpa using ih
    | some b =>
      rw [show [some b].reduceOption = [b] from rfl, trailingRun_concat]
      cases b <;> simp

/-- One more element to compare with the one before it. -/
theorem zipWith_cons_concat {β : Type*} (f : Option α → α → β) (p : Option α) (l : List α) (a : α) :
    List.zipWith f (p :: (l ++ [a]).map some) (l ++ [a]) =
      List.zipWith f (p :: l.map some) l ++ [f (l.getLast?.or p) a] := by
  induction l generalizing p with
  | nil => rfl
  | cons b l ih =>
    have hlast : (b :: l).getLast?.or p = l.getLast?.or (some b) := by
      rw [List.getLast?_cons]
      cases l.getLast? <;> rfl
    rw [List.cons_append, List.map_cons, List.zipWith_cons_cons, ih, List.map_cons,
      List.zipWith_cons_cons, hlast, List.cons_append]

/-- **Comparing each success with the last one before it** is comparing successive successes. -/
theorem reduceOption_mapIdx_lastSome {β : Type*} (f : Option α → α → β) (l : List (Option α)) :
    (l.mapIdx fun t o => o.map (f (lastSome (l.take t)))).reduceOption =
      List.zipWith f (none :: l.reduceOption.map some) l.reduceOption := by
  induction l using List.reverseRecOn with
  | nil => rfl
  | append_singleton l o ih =>
    have hinit : (l.mapIdx fun t o' => o'.map (f (lastSome ((l ++ [o]).take t)))) =
        l.mapIdx fun t o' => o'.map (f (lastSome (l.take t))) := by
      refine List.mapIdx_eq_mapIdx_iff.mpr ?_
      intro t ht
      rw [List.take_append_of_le_length (Nat.le_of_lt ht)]
    rw [List.mapIdx_concat, hinit, List.reduceOption_append, List.reduceOption_append, ih,
      List.take_left]
    cases o with
    | none => simp
    | some a =>
      have hsome : [some a].reduceOption = [a] := rfl
      rw [hsome, zipWith_cons_concat, Option.or_none]
      rfl

/-- Comparing the elements of two lists in a row: the comparisons within each, and one across. -/
theorem zipWith_tail_append {β : Type*} (f : α → α → β) (l m : List α) :
    List.zipWith f (l ++ m) (l ++ m).tail = List.zipWith f l l.tail ++
      (Option.map₂ f l.getLast? m.head?).toList ++ List.zipWith f m m.tail := by
  induction l with
  | nil => simp
  | cons a l ih =>
    cases l with
    | nil => cases m <;> simp
    | cons a' l =>
      have hlast : (a :: a' :: l).getLast? = (a' :: l).getLast? := List.getLast?_cons_cons
      rw [hlast]
      simpa using ih

/-- The answer `a` came at position `s`, and all answers from there to position `t` are failures. -/
def LastSuccess (l : List (Option α)) (s t : ℕ) (a : α) : Prop :=
  s < t ∧ l[s]? = some (some a) ∧ ∀ r, s < r → r < t → l[r]? = some none

/-- **The last success, by its position.** -/
theorem lastSome_eq_some_iff {l : List (Option α)} {a : α} :
    lastSome l = some a ↔ ∃ s, LastSuccess l s l.length a := by
  induction l using List.reverseRecOn with
  | nil => simp [LastSuccess]
  | append_singleton l o ih =>
    rw [lastSome_concat]
    constructor
    · intro h
      cases o with
      | some b =>
        obtain rfl : b = a := by simpa using h
        exact ⟨l.length, by simp, by simp, fun r hr hr' => by simp at hr'; omega⟩
      | none =>
        obtain ⟨s, hlt, hs, hnone⟩ := ih.mp (by simpa using h)
        refine ⟨s, by simp; omega, by rwa [List.getElem?_append_left hlt], fun r hr hr' => ?_⟩
        rcases Nat.lt_or_ge r l.length with hin | hout
        · rw [List.getElem?_append_left hin]
          exact hnone r hr hin
        · obtain rfl : r = l.length := by simp at hr'; omega
          simp
    · rintro ⟨s, hlt, hs, hnone⟩
      rcases Nat.lt_or_ge s l.length with hin | hout
      · -- the new answer is one of the failures since
        have hlast := hnone l.length hin (by simp)
        obtain rfl : o = none := by simpa using hlast
        rw [List.getElem?_append_left hin] at hs
        refine ih.mpr ⟨s, hin, hs, ?_⟩
        intro r hr hr'
        have hr'' := hnone r hr (by simp; omega)
        rwa [List.getElem?_append_left hr'] at hr''
      · obtain rfl : s = l.length := by simp at hlt; omega
        have ho : o = some a := by simpa using hs
        simp [ho]

/-- The same for a prefix of a longer list. -/
theorem lastSome_take_eq_some_iff {l : List (Option α)} {t : ℕ} (ht : t ≤ l.length) {a : α} :
    lastSome (l.take t) = some a ↔ ∃ s, LastSuccess l s t a := by
  rw [lastSome_eq_some_iff, List.length_take, Nat.min_eq_left ht]
  refine exists_congr fun s => and_congr_right fun hst => ?_
  rw [List.getElem?_take_of_lt hst]
  refine and_congr_right fun _ => forall_congr' fun r => forall_congr' fun _ =>
    forall_congr' fun hr => ?_
  rw [List.getElem?_take_of_lt hr]

/-- Before any position there is only one last success. -/
theorem LastSuccess.unique {l : List (Option α)} {s s' t : ℕ} {a a' : α} (h : LastSuccess l s t a)
    (h' : LastSuccess l s' t a') : s = s' ∧ a = a' := by
  obtain ⟨hlt, hs, hnone⟩ := h
  obtain ⟨hlt', hs', hnone'⟩ := h'
  rcases Nat.lt_trichotomy s s' with hss | rfl | hss
  · rw [hnone s' hss hlt'] at hs'
    cases hs'
  · rw [hs] at hs'
    exact ⟨rfl, by simpa using hs'⟩
  · rw [hnone' s hss hlt] at hs
    cases hs

/-- Where the answers fail decides where the last success is. -/
theorem LastSuccess.of_map_isSome_eq {l l' : List (Option α)}
    (h : l'.map Option.isSome = l.map Option.isSome) {s t : ℕ} {a : α} (hs : LastSuccess l' s t a) :
    ∃ b, LastSuccess l s t b := by
  have hat (i : ℕ) : l'[i]?.map Option.isSome = l[i]?.map Option.isSome := by
    rw [← List.getElem?_map, ← List.getElem?_map, h]
  obtain ⟨hlt, hsome, hnone⟩ := hs
  obtain ⟨b, hb⟩ : ∃ b, l[s]? = some (some b) := by
    have := hat s
    rw [hsome] at this
    simpa [Option.isSome_iff_exists] using this.symm
  refine ⟨b, hlt, hb, ?_⟩
  intro r hr hr'
  have := hat r
  rw [hnone r hr hr'] at this
  simpa using this.symm

end LastSome
