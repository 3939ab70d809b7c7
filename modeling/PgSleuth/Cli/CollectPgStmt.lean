import Mathlib.Logic.Function.Basic
import PgSleuth.ForMathlib.Mealy
import PgSleuth.ForMathlib.Saturating
import PgSleuth.Postgres.StatStatements

/-!
# The statement collector

`pgsleuth-cli/src/collect_pg_stmt.rs`: at each tick the collector reads the view, takes the
difference of every row with what it remembers, records it, and remembers the row. What it remembers
is keyed by the query alone; what it records is labelled with the database and the user as well.

## Rows, not polls

Nothing happens between two polls, so a run over polls is a run over all their rows in order, and
every invariant is about rows.

## Main results

* `collectStep_skip_failed` — a poll that fails changes nothing
* `flatten_outputs_emitDeltas` — a run over polls is a run over rows
* `final_emitRow` — what is remembered after any rows: the last row of each query
* `emitted_concat` — what one more row adds to the deltas recorded so far
-/

namespace PgSleuth

/-- The counters of one row, as they are remembered. -/
structure PrevCumulative where
  calls : UInt64
  totalExecTimeMs : UInt64
  rows : UInt64
  sharedBlksHit : UInt64
  sharedBlksRead : UInt64

/-- `Default::default()`. -/
def PrevCumulative.default : PrevCumulative := ⟨0, 0, 0, 0, 0⟩

/-- `cur - prev`, clamped at zero. -/
def delta (cur prev : UInt64) : UInt64 := cur.saturatingSub prev

/-- The whole part of a double, clamped to the range of a `u64`; the largest `u64` when it is not
finite. -/
def f64ClampToU64 : F64 → UInt64
  | .finite q => if q ≤ 0 then 0 else .ofNatClamp ⌊q⌋₊
  | _ => .ofNat (2 ^ 64 - 1)

/-- One recorded delta with its labels. -/
structure PgStmtDelta where
  queryid : Int64
  database : String
  username : String
  calls : UInt64
  execTimeMs : UInt64
  rows : UInt64
  blksHit : UInt64
  blksRead : UInt64

/-- What the collector remembers: the counters last seen for each query. -/
abbrev PrevMap := Int64 → Option PrevCumulative

/-- The counters of a row. -/
def cumulative (s : StatementSample) : PrevCumulative where
  calls := s.calls
  totalExecTimeMs := f64ClampToU64 s.totalExecTimeMs
  rows := s.rows
  sharedBlksHit := s.sharedBlksHit
  sharedBlksRead := s.sharedBlksRead

/-- The delta of a row against remembered counters. -/
def rowDelta (previous : PrevCumulative) (s : StatementSample) : PgStmtDelta where
  queryid := s.queryid
  database := s.database
  username := s.username
  calls := delta (cumulative s).calls previous.calls
  execTimeMs := delta (cumulative s).totalExecTimeMs previous.totalExecTimeMs
  rows := delta (cumulative s).rows previous.rows
  blksHit := delta (cumulative s).sharedBlksHit previous.sharedBlksHit
  blksRead := delta (cumulative s).sharedBlksRead previous.sharedBlksRead

/-- The body of the loop of `emit_deltas`. -/
def emitRow (prev : PrevMap) (s : StatementSample) : PrevMap × PgStmtDelta :=
  (Function.update prev s.queryid (some (cumulative s)),
    rowDelta ((prev s.queryid).getD .default) s)

/-- `emit_deltas`: the map afterwards, and the deltas recorded in order. -/
def emitDeltas (prev : PrevMap) (samples : List StatementSample) : PrevMap × List PgStmtDelta :=
  (Mealy.final emitRow prev samples, Mealy.outputs emitRow prev samples)

/-- The map the collector starts with. -/
def PrevMap.new : PrevMap := fun _ => none

/-- One tick of the collector. A poll that fails is skipped. -/
def collectStep (prev : PrevMap) : Option (List StatementSample) → PrevMap × List PgStmtDelta
  | none => (prev, [])
  | some samples => emitDeltas prev samples

/-- The map after a list of polls. -/
def prevAfter (polls : List (List StatementSample)) : PrevMap :=
  Mealy.final emitDeltas .new polls

/-- Everything a list of polls records. -/
def recorded (polls : List (List StatementSample)) : List PgStmtDelta :=
  (Mealy.outputs emitDeltas .new polls).flatten

/-- Ticks whose poll fails may be left out. -/
theorem collectStep_skip_failed (prev : PrevMap) (ticks : List (Option (List StatementSample))) :
    Mealy.final collectStep prev ticks = Mealy.final emitDeltas prev (ticks.filterMap id) ∧
      (Mealy.outputs collectStep prev ticks).flatten =
        (Mealy.outputs emitDeltas prev (ticks.filterMap id)).flatten := by
  induction ticks generalizing prev with
  | nil => exact ⟨rfl, rfl⟩
  | cons tick ticks ih =>
    cases tick with
    | none => simpa [collectStep] using ih prev
    | some samples => simpa [collectStep] using ih (emitDeltas prev samples).1

/-! ### A run over rows -/

/-- What is recorded does not depend on where one poll ends and the next begins. -/
theorem flatten_outputs_emitDeltas (prev : PrevMap) (polls : List (List StatementSample)) :
    (Mealy.outputs emitDeltas prev polls).flatten = Mealy.outputs emitRow prev polls.flatten := by
  induction polls generalizing prev with
  | nil => rfl
  | cons poll polls ih => simp [emitDeltas, ih]

/-- **What is remembered after any rows**: for each query the counters of its last row, and what was
remembered before where there is none. -/
theorem final_emitRow (prev : PrevMap) (rows : List StatementSample) (queryid : Int64) :
    Mealy.final emitRow prev rows queryid =
      (((rows.filter (·.queryid = queryid)).getLast?).map cumulative).or (prev queryid) := by
  refine Mealy.final_induction (P := fun rows (m : PrevMap) => m queryid =
    (((rows.filter (·.queryid = queryid)).getLast?).map cumulative).or (prev queryid)) _ rfl ?_ rows
  intro rows s ih
  by_cases h : s.queryid = queryid
  · subst h
    simp [emitRow]
  · simp [emitRow, Function.update_of_ne (Ne.symm h), ih, h]

/-- A query without a row keeps what was remembered. -/
theorem final_emitRow_of_notMem {rows : List StatementSample} {queryid : Int64}
    (h : queryid ∉ rows.map (·.queryid)) (prev : PrevMap) :
    Mealy.final emitRow prev rows queryid = prev queryid := by
  have hnil : rows.filter (·.queryid = queryid) = [] := by
    refine List.filter_eq_nil_iff.mpr ?_
    intro s hs
    have hne : s.queryid ≠ queryid := fun heq => h (heq ▸ List.mem_map_of_mem hs)
    simpa using hne
  simp [final_emitRow, hnil]

/-! ### Counters in `ℕ` -/

/-- A counter of what is remembered. -/
def PrevCumulative.get (p : PrevCumulative) : StmtCounter → UInt64
  | .calls => p.calls
  | .execTimeMs => p.totalExecTimeMs
  | .rows => p.rows
  | .blksHit => p.sharedBlksHit
  | .blksRead => p.sharedBlksRead

/-- A counter of a recorded delta. -/
def PgStmtDelta.get (d : PgStmtDelta) : StmtCounter → UInt64
  | .calls => d.calls
  | .execTimeMs => d.execTimeMs
  | .rows => d.rows
  | .blksHit => d.blksHit
  | .blksRead => d.blksRead

/-- The labels of a recorded delta. -/
def PgStmtDelta.identity (d : PgStmtDelta) : Int64 × String × String :=
  (d.queryid, d.database, d.username)

theorem rowDelta_get (previous : PrevCumulative) (s : StatementSample) (c : StmtCounter) :
    (rowDelta previous s).get c = delta ((cumulative s).get c) (previous.get c) := by
  cases c <;> rfl

/-- In range, the clamp only drops the fraction. -/
theorem toNat_f64ClampToU64 {q : ℚ} (h0 : 0 ≤ q) (h64 : q < 2 ^ 64) :
    (f64ClampToU64 (.finite q)).toNat = ⌊q⌋₊ := by
  have hlt : ⌊q⌋₊ < 2 ^ 64 := (Nat.floor_lt h0).mpr (by exact_mod_cast h64)
  by_cases hq : q ≤ 0
  · simp [f64ClampToU64, hq, Nat.floor_eq_zero.mpr (lt_of_le_of_lt hq one_pos)]
  · rw [f64ClampToU64, if_neg hq, UInt64.toNat_ofNatClamp]
    omega

theorem toNat_cumulative_get {s : StatementSample} (hs : s.ExecTimeInRange) (c : StmtCounter) :
    ((cumulative s).get c).toNat = s.value c := by
  cases c with
  | execTimeMs =>
    obtain ⟨q, hq, h0, h64⟩ := hs
    simp only [PrevCumulative.get, cumulative, StatementSample.value, hq]
    exact toNat_f64ClampToU64 h0 h64
  | _ => rfl

/-! ### What has been recorded -/

/-- The total of a counter over the deltas satisfying `p`. -/
def emitted (p : PgStmtDelta → Bool) (deltas : List PgStmtDelta) (c : StmtCounter) : ℕ :=
  ((deltas.filter p).map fun d => (d.get c).toNat).sum

theorem emitted_append (p : PgStmtDelta → Bool) (deltas deltas' : List PgStmtDelta)
    (c : StmtCounter) :
    emitted p (deltas ++ deltas') c = emitted p deltas c + emitted p deltas' c := by
  simp [emitted]

theorem emitted_cons (p : PgStmtDelta → Bool) (d : PgStmtDelta) (deltas : List PgStmtDelta)
    (c : StmtCounter) :
    emitted p (d :: deltas) c = (if p d then (d.get c).toNat else 0) + emitted p deltas c := by
  cases hp : p d <;> simp [emitted, hp]

/-- Each row records one delta, under its own labels. -/
theorem map_identity_outputs (prev : PrevMap) (rows : List StatementSample) :
    (Mealy.outputs emitRow prev rows).map PgStmtDelta.identity =
      rows.map StatementSample.identity := by
  induction rows generalizing prev with
  | nil => rfl
  | cons s rows ih => simp [ih, emitRow, rowDelta, PgStmtDelta.identity, StatementSample.identity]

/-- What a row records: how far it is above the last row of the same query. -/
theorem toNat_emitRow_get {rows : List StatementSample} {s : StatementSample}
    (hrows : ∀ r ∈ rows, r.ExecTimeInRange) (hs : s.ExecTimeInRange) (c : StmtCounter) :
    ((emitRow (Mealy.final emitRow .new rows) s).2.get c).toNat =
      s.value c - StatementSample.lastValue (·.queryid = s.queryid) rows c := by
  have hprev : ((((Mealy.final emitRow .new rows) s.queryid).getD .default).get c).toNat =
      StatementSample.lastValue (·.queryid = s.queryid) rows c := by
    rw [final_emitRow, StatementSample.lastValue]
    cases hlast : (rows.filter (·.queryid = s.queryid)).getLast? with
    | none => cases c <;> rfl
    | some r =>
      have hr : r ∈ rows := List.mem_of_mem_filter (List.mem_of_getLast? hlast)
      simp [toNat_cumulative_get (hrows r hr)]
  rw [emitRow, rowDelta_get, delta, UInt64.toNat_saturatingSub, hprev, toNat_cumulative_get hs]

/-- **What one more row adds** to the deltas recorded under the labels `p` selects. -/
theorem emitted_concat {rows : List StatementSample} {s : StatementSample}
    (hrows : ∀ r ∈ rows, r.ExecTimeInRange) (hs : s.ExecTimeInRange) (p : PgStmtDelta → Bool)
    (c : StmtCounter) :
    emitted p (Mealy.outputs emitRow .new (rows ++ [s])) c =
      emitted p (Mealy.outputs emitRow .new rows) c +
        if p (emitRow (Mealy.final emitRow .new rows) s).2 then
          s.value c - StatementSample.lastValue (·.queryid = s.queryid) rows c
        else 0 := by
  rw [Mealy.outputs_append, ← toNat_emitRow_get hrows hs]
  cases hp : p (emitRow (Mealy.final emitRow .new rows) s).2 <;> simp [emitted, hp]

end PgSleuth
