import Mathlib.Algebra.Order.Floor.Semiring
import Mathlib.Data.Rat.Floor
import PgSleuth.Core.Finding

/-!
# Rows of `pg_stat_statements`

`StatementSample` from `pgsleuth-postgres/src/stat_statements.rs`, with its five cumulative counters
under one name. The view has one row for each query, database and user, so the query alone does not
identify a row.
-/

namespace PgSleuth

/-- One row of the view. Values are cumulative since the extension was reset. -/
structure StatementSample where
  queryid : Int64
  database : String
  username : String
  calls : UInt64
  totalExecTimeMs : F64
  rows : UInt64
  sharedBlksHit : UInt64
  sharedBlksRead : UInt64

/-- The five counters of a row. -/
inductive StmtCounter
  | calls
  | execTimeMs
  | rows
  | blksHit
  | blksRead
deriving DecidableEq

namespace StatementSample

/-- What identifies a row of the view, and labels a recorded delta. -/
def identity (s : StatementSample) : Int64 × String × String :=
  (s.queryid, s.database, s.username)

/-- The execution time is a number a `u64` of milliseconds can hold the whole part of. -/
def ExecTimeInRange (s : StatementSample) : Prop :=
  ∃ q, s.totalExecTimeMs = .finite q ∧ 0 ≤ q ∧ q < 2 ^ 64

/-- The value of a counter, execution times in whole milliseconds. -/
def value (s : StatementSample) : StmtCounter → ℕ
  | .calls => s.calls.toNat
  | .execTimeMs =>
    match s.totalExecTimeMs with
    | .finite q => ⌊q⌋₊
    | _ => 0
  | .rows => s.rows.toNat
  | .blksHit => s.sharedBlksHit.toNat
  | .blksRead => s.sharedBlksRead.toNat

/-- The value of a counter in the last of the rows satisfying `p`, zero before the first. -/
def lastValue (p : StatementSample → Bool) (rows : List StatementSample) (c : StmtCounter) : ℕ :=
  ((rows.filter p).getLast?.map (·.value c)).getD 0

variable (p : StatementSample → Bool)

@[simp] theorem lastValue_nil (c : StmtCounter) : lastValue p [] c = 0 := rfl

theorem lastValue_concat (rows : List StatementSample) (s : StatementSample) (c : StmtCounter) :
    lastValue p (rows ++ [s]) c = if p s then s.value c else lastValue p rows c := by
  cases hp : p s <;> simp [lastValue, hp]

/-- Rows that do not satisfy `p` are passed over. -/
theorem lastValue_append_of_forall_not {rows rows' : List StatementSample}
    (h : ∀ s ∈ rows', p s = false) (c : StmtCounter) :
    lastValue p (rows ++ rows') c = lastValue p rows c := by
  have hnil : rows'.filter p = [] := List.filter_eq_nil_iff.mpr fun s hs => by simp [h s hs]
  rw [lastValue, List.filter_append, hnil, List.append_nil, lastValue]

/-- Once some row satisfies `p`, the rows before do not matter. -/
theorem lastValue_append_of_exists {rows rows' : List StatementSample}
    (h : ∃ s ∈ rows', p s = true) (c : StmtCounter) :
    lastValue p (rows ++ rows') c = lastValue p rows' c := by
  obtain ⟨s, hs, hp⟩ := h
  have hne : rows'.filter p ≠ [] := List.ne_nil_of_mem (List.mem_filter.mpr ⟨hs, hp⟩)
  rw [lastValue, lastValue, List.filter_append, List.getLast?_append_of_ne_nil _ hne]

end StatementSample

end PgSleuth
