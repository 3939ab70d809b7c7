import Mathlib.Data.List.AList

/-!
# Maps with a fixed capacity

A preallocated map: at most `capacity` keys, where inserting a new key into a full map fails and
overwriting a present key always succeeds. The bound is a field, so a map over capacity cannot be
built. Failure is an `Option`, and the caller decides what a failed insertion means.

The association list underneath is Mathlib's `AList`; what is added here is the bound.
-/

/-- A finite map with at most `capacity` keys. -/
structure BoundedMap (κ ν : Type*) (capacity : ℕ) where
  /-- The entries, one per key. -/
  entries : AList fun _ : κ => ν
  /-- The map never holds more keys than it has room for. -/
  bounded : entries.keys.length ≤ capacity

namespace BoundedMap

variable {κ ν : Type*} {capacity : ℕ} [DecidableEq κ]

/-- The map with no entries. -/
def empty : BoundedMap κ ν capacity := ⟨∅, Nat.zero_le _⟩

/-- The value stored under `k`. -/
def get (m : BoundedMap κ ν capacity) (k : κ) : Option ν := m.entries.lookup k

/-- Store `v` under `k`: always possible when `k` is present, and otherwise only while there is
room. -/
def insert (m : BoundedMap κ ν capacity) (k : κ) (v : ν) : Option (BoundedMap κ ν capacity) :=
  if h : (m.entries.insert k v).keys.length ≤ capacity then some ⟨m.entries.insert k v, h⟩
  else none

/-- Forget `k`. -/
def remove (m : BoundedMap κ ν capacity) (k : κ) : BoundedMap κ ν capacity :=
  ⟨m.entries.erase k, by
    rw [AList.keys_erase]
    exact Nat.le_trans List.length_erase_le m.bounded⟩

@[simp] theorem get_empty (k : κ) : (empty : BoundedMap κ ν capacity).get k = none := rfl

theorem get_of_insert {m m' : BoundedMap κ ν capacity} {k : κ} {v : ν}
    (h : m.insert k v = some m') : m'.get k = some v := by
  unfold insert at h
  split at h
  · cases h
    exact AList.lookup_insert m.entries
  · cases h

theorem get_of_insert_ne {m m' : BoundedMap κ ν capacity} {k k' : κ} {v : ν}
    (h : m.insert k v = some m') (hk : k' ≠ k) : m'.get k' = m.get k' := by
  unfold insert at h
  split at h
  · cases h
    exact AList.lookup_insert_ne hk
  · cases h

/-- **Overwriting never fails.** Only a key that is absent can be refused. -/
theorem get_eq_none_of_insert_eq_none {m : BoundedMap κ ν capacity} {k : κ} {v : ν}
    (h : m.insert k v = none) : m.get k = none := by
  by_contra hk
  have hmem : k ∈ m.entries := by
    rw [← AList.lookup_isSome]
    exact Option.isSome_iff_ne_none.mpr hk
  have hlen : (m.entries.insert k v).keys.length ≤ capacity := by
    rw [AList.keys_insert, List.length_cons, List.length_erase_of_mem hmem]
    have hpos : 0 < m.entries.keys.length := List.length_pos_of_mem hmem
    have := m.bounded
    omega
  rw [insert, dif_pos hlen] at h
  cases h

@[simp] theorem get_remove_self (m : BoundedMap κ ν capacity) (k : κ) :
    (m.remove k).get k = none :=
  AList.lookup_erase k m.entries

theorem get_remove_of_ne (m : BoundedMap κ ν capacity) {k k' : κ} (hk : k' ≠ k) :
    (m.remove k).get k' = m.get k' :=
  AList.lookup_erase_ne hk

/-! ### How full a map is -/

/-- The number of keys. -/
def size (m : BoundedMap κ ν capacity) : ℕ := m.entries.keys.length

omit [DecidableEq κ] in
@[simp] theorem size_empty : (empty : BoundedMap κ ν capacity).size = 0 := rfl

omit [DecidableEq κ] in
theorem size_le (m : BoundedMap κ ν capacity) : m.size ≤ capacity := m.bounded

theorem get_isSome_iff_mem (m : BoundedMap κ ν capacity) (k : κ) :
    (m.get k).isSome = true ↔ k ∈ m.entries.keys :=
  AList.lookup_isSome

/-- A new key takes a place, a present key has one. -/
theorem size_of_insert {m m' : BoundedMap κ ν capacity} {k : κ} {v : ν}
    (h : m.insert k v = some m') :
    m'.size = if (m.get k).isSome then m.size else m.size + 1 := by
  unfold insert at h
  split at h
  · cases h
    rw [size, AList.keys_insert, List.length_cons]
    split_ifs with hk
    · have hmem := (m.get_isSome_iff_mem k).mp hk
      have hpos := List.length_pos_of_mem hmem
      rw [List.length_erase_of_mem hmem, size]
      omega
    · have hmem : k ∉ m.entries.keys := mt (m.get_isSome_iff_mem k).mpr hk
      rw [List.erase_of_not_mem hmem, size]
  · cases h

/-- **Only a full map refuses.** -/
theorem size_of_insert_eq_none {m : BoundedMap κ ν capacity} {k : κ} {v : ν}
    (h : m.insert k v = none) : m.size = capacity := by
  have hk := get_eq_none_of_insert_eq_none h
  unfold insert at h
  split at h
  · cases h
  · next hlen =>
    have hmem : k ∉ m.entries.keys := by
      rw [← m.get_isSome_iff_mem k, hk]
      simp
    rw [AList.keys_insert, List.length_cons, List.erase_of_not_mem hmem] at hlen
    have := m.bounded
    rw [size]
    omega

/-- A full map refuses every key it does not hold. -/
theorem insert_eq_none_of_size {m : BoundedMap κ ν capacity} {k : κ} (v : ν)
    (hsize : m.size = capacity) (hk : m.get k = none) : m.insert k v = none := by
  have hmem : k ∉ m.entries.keys := by
    rw [← m.get_isSome_iff_mem k, hk]
    simp
  rw [insert, dif_neg]
  rw [AList.keys_insert, List.length_cons, List.erase_of_not_mem hmem]
  rw [size] at hsize
  omega

/-- Forgetting a present key frees its place. -/
theorem size_remove {m : BoundedMap κ ν capacity} {k : κ} {v : ν} (h : m.get k = some v) :
    (m.remove k).size + 1 = m.size := by
  have hmem : k ∈ m.entries.keys := (m.get_isSome_iff_mem k).mp (by rw [h]; rfl)
  have hpos := List.length_pos_of_mem hmem
  rw [size, remove, AList.keys_erase, List.length_erase_of_mem hmem, size]
  omega

end BoundedMap
