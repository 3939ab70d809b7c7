import Mathlib.Algebra.BigOperators.Group.List.Lemmas
import Mathlib.Algebra.Ring.Nat
import PgSleuth.ForMathlib.OrderedMap

/-!
# Counts by key

What a query that groups its rows answers: one row for each key there is, with the number of rows
that have it. Such an answer comes in no particular order, so what is said about it here holds of
every rearrangement, and in particular of the map it is read into.

## Main results

* `List.sum_filter_groupCounts` — adding up the counts of some keys counts the rows that have them
* `List.groupCounts_relabel` — renaming the keys, when no two become one
* `Std.ExtTreeMap.perm_toList_ofList` — a map is read from its entries in any order
-/

namespace List

variable {α κ κ' : Type*} [DecidableEq κ] [DecidableEq κ']

/-- The keys of the rows, each once and with the number of rows that have it. -/
def groupCounts (key : α → κ) (rows : List α) : List (κ × ℕ) :=
  (rows.map key).dedup.map fun k => (k, (rows.map key).count k)

variable {key : α → κ} {rows : List α}

theorem map_fst_groupCounts : (groupCounts key rows).map Prod.fst = (rows.map key).dedup := by
  simp [groupCounts, Function.comp_def]

theorem nodup_keys_groupCounts : ((groupCounts key rows).map Prod.fst).Nodup := by
  rw [map_fst_groupCounts]
  exact nodup_dedup _

/-- What the answer has about a key. -/
theorem mem_groupCounts_iff {k : κ} {n : ℕ} :
    (k, n) ∈ groupCounts key rows ↔ n = rows.countP (fun x => key x = k) ∧ 0 < n := by
  have hcount : (rows.map key).count k = rows.countP fun x => key x = k := by
    rw [count, countP_map]
    exact countP_congr fun x _ => by simp
  simp only [groupCounts, mem_map, mem_dedup, Prod.mk.injEq]
  constructor
  · rintro ⟨k', hk', rfl, rfl⟩
    exact ⟨hcount, count_pos_iff.mpr (mem_map.mpr hk')⟩
  · rintro ⟨rfl, hpos⟩
    exact ⟨k, mem_map.mp (count_pos_iff.mp (hcount.symm ▸ hpos)), rfl, hcount⟩

/-- **Adding up the counts of some keys** counts the rows that have one of them. -/
theorem sum_filter_groupCounts (p : κ → Bool) :
    (((groupCounts key rows).filter fun g => p g.1).map Prod.snd).sum =
      rows.countP fun x => p (key x) := by
  have hsum := sum_map_count_dedup_filter_eq_countP p (rows.map key)
  rw [countP_map] at hsum
  rw [groupCounts, filter_map, map_map]
  exact hsum

theorem dedup_map_of_injOn {label : κ → κ'} {l : List κ}
    (h : ∀ a ∈ l, ∀ b ∈ l, label a = label b → a = b) :
    (l.map label).dedup = l.dedup.map label := by
  induction l with
  | nil => rfl
  | cons a l ih =>
    have hl := ih fun b hb c hc => h b (mem_cons_of_mem a hb) c (mem_cons_of_mem a hc)
    by_cases ha : a ∈ l
    · rw [map_cons, dedup_cons_of_mem (mem_map_of_mem ha), dedup_cons_of_mem ha, hl]
    · have hlabel : label a ∉ l.map label := by
        intro hmem
        obtain ⟨b, hb, heq⟩ := mem_map.mp hmem
        exact ha (h b (mem_cons_of_mem a hb) a mem_cons_self heq ▸ hb)
      rw [map_cons, dedup_cons_of_notMem hlabel, dedup_cons_of_notMem ha, hl, map_cons]

/-- **Renaming the keys** makes no difference, as long as no two keys of the rows become one. -/
theorem groupCounts_relabel {label : κ → κ'}
    (h : ∀ x ∈ rows, ∀ y ∈ rows, label (key x) = label (key y) → key x = key y) :
    (groupCounts key rows).map (fun g => (label g.1, g.2)) =
      groupCounts (fun x => label (key x)) rows := by
  have hkeys : ∀ k ∈ rows.map key, ∀ k' ∈ rows.map key, label k = label k' → k = k' := by
    simpa using h
  have hmap : rows.map (fun x => label (key x)) = (rows.map key).map label := by
    rw [map_map, Function.comp_def]
  rw [groupCounts, groupCounts, hmap, dedup_map_of_injOn hkeys, map_map, map_map]
  refine map_congr_left ?_
  intro k hk
  have hcount : ((rows.map key).map label).count (label k) = (rows.map key).count k := by
    rw [count, count, countP_map]
    refine countP_congr ?_
    intro k' hk'
    simp only [Function.comp_apply, beq_iff_eq]
    exact ⟨hkeys k' hk' k (mem_dedup.mp hk), congrArg label⟩
  exact congrArg (Prod.mk (label k)) hcount.symm

end List

namespace Std.ExtTreeMap

variable {α β : Type*} [Ord α] [LawfulEqOrd α] [TransOrd α]

/-- A map is read from its entries **in any order**. -/
theorem perm_toList_ofList {l : List (α × β)} (h : (l.map Prod.fst).Nodup) :
    (ofList l : ExtTreeMap α β).toList.Perm l := by
  refine (List.perm_ext_iff_of_nodup (nodup_keys_toList _).of_map h.of_map).mpr ?_
  rintro ⟨k, v⟩
  rw [mem_toList_iff_getElem?_eq_some, getElem?_ofList_eq_some_iff h]

end Std.ExtTreeMap
