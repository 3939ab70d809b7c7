import Mathlib
import PgSleuth.Cli.CollectPgStmt

/-!
# The metrics

`pgsleuth-otel/src/metrics.rs`: what is recorded with the instruments. A value is recorded with
attributes, so two labels whose attributes were the same could not be told apart again. What the
exporter adds up, and what it drops, comes after that and is not in this repository.

## Main definitions

* `MetricPoint` — one value recorded
* `recordPgStmtDelta`, `recordWalIoLatency` — the values recorded
* `recordedValues` — the values recorded with one instrument under some attributes

## Main results

* `stmtAttributes_injective` — the attributes of a statement tell which it is
* `recordedValues_flatMap` — what is recorded with a counter are the deltas, in order
-/

namespace PgSleuth

/-- A value recorded with an instrument. -/
structure MetricPoint where
  instrument : String
  value : UInt64
  attributes : List (String × String)
deriving DecidableEq

/-- `record_wal_io_latency`, on the one histogram there is. -/
def recordWalIoLatency (latencyNs : UInt64) (device op : String) : MetricPoint where
  instrument := "pgsleuth.wal.io.latency"
  value := latencyNs
  attributes := [("device", device), ("op", op)]

/-- The counter of each quantity. -/
def StmtCounter.instrument : StmtCounter → String
  | calls => "pgsleuth.pg.stmt.calls"
  | execTimeMs => "pgsleuth.pg.stmt.total_exec_time_ms"
  | rows => "pgsleuth.pg.stmt.rows"
  | blksHit => "pgsleuth.pg.stmt.shared_blks_hit"
  | blksRead => "pgsleuth.pg.stmt.shared_blks_read"

/-- The attributes of a label. -/
def stmtAttributes (id : Int64 × String × String) : List (String × String) :=
  [("pgsleuth.pg.queryid", toString id.1), ("db.name", id.2.1), ("pgsleuth.pg.user", id.2.2)]

/-- `record_pg_stmt_delta`. -/
def recordPgStmtDelta (delta : PgStmtDelta) : List MetricPoint :=
  let attrs := stmtAttributes delta.identity
  [⟨StmtCounter.calls.instrument, delta.calls, attrs⟩,
    ⟨StmtCounter.execTimeMs.instrument, delta.execTimeMs, attrs⟩,
    ⟨StmtCounter.rows.instrument, delta.rows, attrs⟩,
    ⟨StmtCounter.blksHit.instrument, delta.blksHit, attrs⟩,
    ⟨StmtCounter.blksRead.instrument, delta.blksRead, attrs⟩]

/-- The values recorded with an instrument under attributes that satisfy `p`, in order. -/
def recordedValues (instrument : String) (p : List (String × String) → Bool)
    (points : List MetricPoint) : List UInt64 :=
  (points.filter fun point => point.instrument = instrument && p point.attributes).map
    MetricPoint.value

/-! ### What is recorded with a counter -/

theorem recordedValues_append (instrument : String) (p : List (String × String) → Bool)
    (points points' : List MetricPoint) :
    recordedValues instrument p (points ++ points') =
      recordedValues instrument p points ++ recordedValues instrument p points' := by
  rw [recordedValues, List.filter_append, List.map_append, recordedValues, recordedValues]

/-- The text of a number tells which it is. -/
theorem Int64.toString_injective {a b : Int64} (h : toString a = toString b) : a = b :=
  Int64.toInt_inj.mp (Int.repr_injective h)

/-- **The attributes of a statement** tell which it is. -/
theorem stmtAttributes_injective : Function.Injective stmtAttributes := by
  rintro ⟨queryid, database, username⟩ ⟨queryid', database', username'⟩ h
  simp only [stmtAttributes, List.cons.injEq, Prod.mk.injEq, true_and, and_true] at h
  obtain ⟨hqueryid, rfl, rfl⟩ := h
  rw [Int64.toString_injective hqueryid]

/-- A point is one counter of a delta, under the attributes of its label. -/
theorem mem_recordPgStmtDelta_iff {delta : PgStmtDelta} {point : MetricPoint} :
    point ∈ recordPgStmtDelta delta ↔
      ∃ c : StmtCounter, point = ⟨c.instrument, delta.get c, stmtAttributes delta.identity⟩ := by
  simp only [recordPgStmtDelta, List.mem_cons, List.not_mem_nil, or_false]
  constructor
  · rintro (rfl | rfl | rfl | rfl | rfl)
    · exact ⟨.calls, rfl⟩
    · exact ⟨.execTimeMs, rfl⟩
    · exact ⟨.rows, rfl⟩
    · exact ⟨.blksHit, rfl⟩
    · exact ⟨.blksRead, rfl⟩
  · rintro ⟨c, rfl⟩
    cases c <;> simp [PgStmtDelta.get]

/-- The value recorded with one counter, and nothing of the others. -/
theorem recordedValues_recordPgStmtDelta (delta : PgStmtDelta) (c : StmtCounter)
    (p : List (String × String) → Bool) :
    recordedValues c.instrument p (recordPgStmtDelta delta) =
      if p (stmtAttributes delta.identity) then [delta.get c] else [] := by
  cases hp : p (stmtAttributes delta.identity) <;> cases c <;>
    simp [recordedValues, recordPgStmtDelta, StmtCounter.instrument, hp, PgStmtDelta.get]

/-- **What is recorded with a counter** are the deltas of the labels with such attributes. -/
theorem recordedValues_flatMap (deltas : List PgStmtDelta) (c : StmtCounter)
    (p : List (String × String) → Bool) :
    recordedValues c.instrument p (deltas.flatMap recordPgStmtDelta) =
      (deltas.filter fun delta => p (stmtAttributes delta.identity)).map (·.get c) := by
  induction deltas with
  | nil => rfl
  | cons delta deltas ih =>
    rw [List.flatMap_cons, recordedValues_append, ih, recordedValues_recordPgStmtDelta,
      List.filter_cons]
    split <;> rfl

end PgSleuth
