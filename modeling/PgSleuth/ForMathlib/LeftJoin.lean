import Mathlib.Data.List.Nodup

/-!
# Left joins

Every row of the left table with each row of the right one it matches, and with none if it matches
none. Joining with a table that has no key twice looks the key of each row up.

## Main results

* `List.leftJoin_eq_map` — a join with a table in which the key is unique
-/

namespace List

variable {α β κ : Type*}

/-- Every row on the left, with the rows on the right that match it or with none. -/
def leftJoin (on : α → β → Bool) (l : List α) (r : List β) : List (α × Option β) :=
  l.flatMap fun a =>
    match r.filter (on a) with
    | [] => [(a, none)]
    | bs => bs.map fun b => (a, some b)

variable [DecidableEq κ] {key : β → κ}

/-- Of a unique key there is at most one row, the one that a search finds. -/
theorem filter_eq_toList_find? {r : List β} (h : (r.map key).Nodup) (k : κ) :
    r.filter (fun b => key b = k) = (r.find? fun b => key b = k).toList := by
  induction r with
  | nil => rfl
  | cons b r ih =>
    rw [map_cons, nodup_cons] at h
    by_cases hb : key b = k
    · have hrest : r.filter (fun b => key b = k) = [] := by
        refine filter_eq_nil_iff.mpr ?_
        intro b' hb'
        rw [decide_eq_true_eq]
        rintro rfl
        exact h.1 (hb ▸ mem_map_of_mem hb')
      rw [filter_cons_of_pos (by simpa using hb), find?_cons_of_pos (by simpa using hb), hrest]
      rfl
    · rw [filter_cons_of_neg (by simpa using hb), find?_cons_of_neg (by simpa using hb), ih h.2]

/-- **A join with a table in which the key is unique** keeps every row once and looks its key up. -/
theorem leftJoin_eq_map {r : List β} (h : (r.map key).Nodup) (ref : α → κ) (l : List α) :
    leftJoin (fun a b => key b = ref a) l r =
      l.map fun a => (a, r.find? fun b => key b = ref a) := by
  rw [leftJoin, map_eq_flatMap]
  refine flatMap_congr ?_
  intro a _
  simp only [filter_eq_toList_find? h]
  cases r.find? fun b => key b = ref a <;> rfl

end List
