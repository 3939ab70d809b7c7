import Mathlib.Algebra.BigOperators.Group.List.Basic
import Mathlib.Algebra.Ring.Nat

/-!
# Walks of a file tree

A directory tree as a program meets it that walks it while others write to it: an entry may be gone
or unreadable by the time it is looked at. A walk visits every entry once, a directory before what
is in it. In which order the entries of one directory come is up to the file system, so a result
about walks is one about every rearrangement of `FileTree.walk`.

## Main results

* `FileTree.sum_sizes_walk` — the sizes a walk visits add up to the size of the tree
* `FileTree.sum_sizes_of_perm` — whatever order the walk takes
-/

/-- A file tree, with what is known of each regular file. -/
inductive FileTree (φ : Type*)
  | file (info : φ)
  | dir (entries : List (FileTree φ))
  /-- A link, a device, a socket. -/
  | other
  /-- An entry that cannot be read, or the entries of a directory that cannot be listed. -/
  | unreadable

namespace FileTree

variable {φ : Type*}

/-- What a walk finds an entry to be. -/
inductive Visit (φ : Type*)
  | file (info : φ)
  | dir
  | other

mutual

/-- The visits of a walk, with `none` for an error. -/
def walk : FileTree φ → List (Option (Visit φ))
  | file info => [some (.file info)]
  | dir entries => some .dir :: walkEntries entries
  | other => [some .other]
  | unreadable => [none]

/-- The visits of a walk of the entries of a directory. -/
def walkEntries : List (FileTree φ) → List (Option (Visit φ))
  | [] => []
  | t :: ts => t.walk ++ walkEntries ts

end

mutual

/-- The size of all regular files of the tree together. -/
def totalSize (size : φ → ℕ) : FileTree φ → ℕ
  | file info => size info
  | dir entries => entriesSize size entries
  | other | unreadable => 0

/-- The size of the entries of a directory together. -/
def entriesSize (size : φ → ℕ) : List (FileTree φ) → ℕ
  | [] => 0
  | t :: ts => t.totalSize size + entriesSize size ts

end

/-- The size of what is visited, which only a regular file has. -/
def Visit.size (size : φ → ℕ) : Option (Visit φ) → ℕ
  | some (.file info) => size info
  | _ => 0

variable (size : φ → ℕ)

mutual

/-- **The sizes a walk visits** add up to the size of the tree. -/
theorem sum_sizes_walk : ∀ t : FileTree φ, (t.walk.map (Visit.size size)).sum = t.totalSize size
  | file info => by simp [walk, totalSize, Visit.size]
  | dir entries => by
    simp only [walk, totalSize, List.map_cons, List.sum_cons, sum_sizes_walkEntries entries]
    simp [Visit.size]
  | other => by simp [walk, totalSize, Visit.size]
  | unreadable => by simp [walk, totalSize, Visit.size]

theorem sum_sizes_walkEntries : ∀ ts : List (FileTree φ),
    ((walkEntries ts).map (Visit.size size)).sum = entriesSize size ts
  | [] => rfl
  | t :: ts => by
    rw [walkEntries, entriesSize, List.map_append, List.sum_append, sum_sizes_walk t,
      sum_sizes_walkEntries ts]

end

/-- The order of a walk makes no difference to the sum. -/
theorem sum_sizes_of_perm {t : FileTree φ} {visits : List (Option (Visit φ))}
    (h : visits.Perm t.walk) : (visits.map (Visit.size size)).sum = t.totalSize size := by
  rw [(h.map _).sum_eq, sum_sizes_walk]

end FileTree
