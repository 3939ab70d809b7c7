import Mathlib.Data.List.Induction
import Mathlib.Data.List.Nodup
import Mathlib.Data.Rat.Defs

/-!
# Ordered maps and the lists they are read from and written to

`Std.ExtTreeMap` compares equal when the entries do, which makes it the map of a language that
prints its maps in key order and reads them back from any order. This file relates such a map to the
lists of entries without a repeated key.

## Main results

* `List.lookup_eq_some_iff_mem` — what a list without a repeated key has under one
* `Std.ExtTreeMap.getElem?_ofList_eq_some_iff` — what a map read from a list holds
* `Std.ExtTreeMap.ofList_toList` — reading what was written
* `Std.ExtTreeMap.toList_ofList` — writing what was read, when it was in order
-/

/-- Without a repeated key, looking an entry up finds it wherever it stands. -/
theorem List.lookup_eq_some_iff_mem {α β : Type*} [BEq α] [LawfulBEq α] {l : List (α × β)}
    (h : (l.map Prod.fst).Nodup) {k : α} {v : β} : l.lookup k = some v ↔ (k, v) ∈ l := by
  rw [List.lookup_eq_some_iff]
  constructor
  · rintro ⟨pre, post, rfl, -⟩
    simp
  · intro hmem
    obtain ⟨pre, post, rfl⟩ := List.append_of_mem hmem
    refine ⟨pre, post, rfl, ?_⟩
    rintro ⟨k', w⟩ hpre
    rw [List.map_append, List.map_cons, List.nodup_append] at h
    exact bne_iff_ne.mpr (h.2.2 k' (List.mem_map_of_mem hpre) k (List.mem_cons_self ..)).symm

namespace Std.ExtTreeMap

variable {α β : Type*} [Ord α] [LawfulEqOrd α]

/-- Keys that all differ, as the lemmas about `ofList` ask for it. -/
theorem pairwise_compare_ne_of_nodup {l : List (α × β)} (h : (l.map Prod.fst).Nodup) :
    l.Pairwise fun a b => ¬ compare a.1 b.1 = .eq := by
  rw [List.Nodup, List.pairwise_map] at h
  exact h.imp fun hne heq => hne (LawfulEqCmp.eq_of_compare heq)

/-- Entries in key order have no repeated key. -/
theorem nodup_keys_of_ordered {l : List (α × β)}
    (h : l.Pairwise fun a b => compare a.1 b.1 = .lt) : (l.map Prod.fst).Nodup := by
  rw [List.Nodup, List.pairwise_map]
  refine h.imp ?_
  intro a b hlt heq
  rw [heq, ReflOrd.compare_self] at hlt
  cases hlt

variable [TransOrd α]

theorem nodup_keys_toList (m : ExtTreeMap α β) : (m.toList.map Prod.fst).Nodup :=
  nodup_keys_of_ordered ordered_keys_toList

/-- A map read from a list holds entries of the list. -/
theorem mem_of_getElem?_ofList {l : List (α × β)} {k : α} {v : β}
    (h : (ofList l : ExtTreeMap α β)[k]? = some v) : (k, v) ∈ l := by
  induction l using List.reverseRecOn with
  | nil => simp at h
  | append_singleton l kv ih =>
    rw [ofList_eq_foldl, List.foldl_concat, ← ofList_eq_foldl, getElem?_insert] at h
    split at h
    · next hk =>
      obtain rfl := LawfulEqCmp.eq_of_compare hk
      obtain rfl := Option.some.inj h
      simp
    · exact List.mem_append_left _ (ih h)

/-- **What a map read from a list holds**, when no key is repeated: the entries of the list. -/
theorem getElem?_ofList_eq_some_iff {l : List (α × β)} (h : (l.map Prod.fst).Nodup) {k : α}
    {v : β} : (ofList l : ExtTreeMap α β)[k]? = some v ↔ (k, v) ∈ l := by
  classical
  let _ : BEq α := instBEqOfDecidableEq
  have hpairwise := pairwise_compare_ne_of_nodup h
  constructor
  · intro hv
    by_cases hk : k ∈ l.map Prod.fst
    · obtain ⟨⟨k', w⟩, hmem, rfl⟩ := List.mem_map.mp hk
      rw [getElem?_ofList_of_mem ReflCmp.compare_self hpairwise hmem] at hv
      obtain rfl := Option.some.inj hv
      exact hmem
    · rw [getElem?_ofList_of_contains_eq_false (by simpa using hk)] at hv
      cases hv
  · exact getElem?_ofList_of_mem ReflCmp.compare_self hpairwise

/-- Without a repeated key there is one value under each. -/
theorem mem_iff_eq_of_nodup {l : List (α × β)} (h : (l.map Prod.fst).Nodup) {k : α} {v : β}
    (hv : (k, v) ∈ l) (w : β) : (k, w) ∈ l ↔ w = v := by
  rw [← getElem?_ofList_eq_some_iff h] at hv ⊢
  rw [hv, Option.some.injEq, eq_comm]

/-- A map read from a list without a repeated key, one key at a time. -/
theorem getElem?_ofList_eq_lookup [BEq α] [LawfulBEq α] {l : List (α × β)}
    (h : (l.map Prod.fst).Nodup) (k : α) :
    (ofList l : ExtTreeMap α β)[k]? = l.lookup k := by
  refine Option.ext ?_
  intro v
  rw [getElem?_ofList_eq_some_iff h, List.lookup_eq_some_iff_mem h]

/-- **Reading what was written** gives the map back. -/
@[simp] theorem ofList_toList (m : ExtTreeMap α β) : ofList m.toList = m := by
  refine ext_getElem? ?_
  intro k
  refine Option.ext ?_
  intro v
  rw [getElem?_ofList_eq_some_iff (nodup_keys_toList m), mem_toList_iff_getElem?_eq_some]

/-- **Writing what was read** gives the list back, when it was in key order. -/
theorem toList_ofList {l : List (α × β)} (h : l.Pairwise fun a b => compare a.1 b.1 = .lt) :
    (ofList l : ExtTreeMap α β).toList = l := by
  have hkeys := nodup_keys_of_ordered h
  refine List.Perm.eq_of_pairwise ?_ ordered_keys_toList h ?_
  · intro a b _ _ hab hba
    exact absurd hba (OrientedCmp.not_lt_of_lt hab)
  · refine (List.perm_ext_iff_of_nodup (nodup_keys_toList _).of_map (hkeys.of_map)).mpr ?_
    rintro ⟨k, v⟩
    rw [mem_toList_iff_getElem?_eq_some, getElem?_ofList_eq_some_iff hkeys]

end Std.ExtTreeMap
