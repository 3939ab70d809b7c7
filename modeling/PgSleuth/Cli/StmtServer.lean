import PgSleuth.Cli.StmtResets
import PgSleuth.Postgres.StatementsView

/-!
# From the statements of a server to the recorded deltas

`pgsleuth-cli/src/collect_pg_stmt.rs` over `stat_statements::poll`: the collector over the views of
a server whose databases and roles come and go, and which does not answer every poll.

## Main definitions

* `StatementPoll` — a tick of the collector
* `ViewRow.value` — a counter of the server, in whole units

## Main results

* `collector_counts_statements` — what a run records of a server
-/

namespace PgSleuth

/-- A counter of a row of the view, execution times in whole milliseconds. -/
def ViewRow.value (s : ViewRow) : StmtCounter → ℕ
  | .calls => s.calls.toInt.toNat
  | .execTimeMs =>
    match s.totalExecTime with
    | .finite q => ⌊q⌋₊
    | _ => 0
  | .rows => s.rows.toInt.toNat
  | .blksHit => s.sharedBlksHit.toInt.toNat
  | .blksRead => s.sharedBlksRead.toInt.toNat

/-- A tick of the collector: what the server has, and whether it answers. -/
structure StatementPoll where
  view : StatementsView
  answered : Bool
  /-- Execution times are numbers a `u64` of milliseconds can hold the whole part of. -/
  execTime : ∀ s ∈ view.rows, ∃ q, s.totalExecTime = .finite q ∧ 0 ≤ q ∧ q < 2 ^ 64

namespace StatementPoll

/-- What the collector sees of a tick. -/
def samples (p : StatementPoll) : Option (List StatementSample) :=
  if p.answered then some p.view.poll else none

/-- The rows that are answered. -/
def rows (p : StatementPoll) : List ViewRow := if p.answered then p.view.rows else []

/-- The labels under which a row of the view is reported. -/
def label (p : StatementPoll) (s : ViewRow) : Option (Int64 × String × String) :=
  s.queryid.map fun queryid =>
    (queryid, p.view.pgDatabase.name s.dbid, p.view.pgRoles.name s.userid)

/-- The samples of a tick, row by row. -/
theorem toList_samples (p : StatementPoll) :
    (p.samples.getD []) = p.rows.filterMap p.view.sampleOf := by
  cases h : p.answered <;> simp [samples, rows, h, StatementsView.poll_eq]

theorem mem_rows {p : StatementPoll} {s : ViewRow} (h : s ∈ p.rows) : s ∈ p.view.rows := by
  rw [rows] at h
  split at h
  · exact h
  · cases h

end StatementPoll

/-- What a run records. -/
def recordedOf (run : List StatementPoll) : List PgStmtDelta :=
  (Mealy.outputs collectStep .new (run.map StatementPoll.samples)).flatten

/-- A run over ticks is a run over the rows that are answered. -/
theorem recordedOf_eq (run : List StatementPoll) :
    recordedOf run = Mealy.outputs emitRow .new
      (run.flatMap fun p => p.rows.filterMap p.view.sampleOf) := by
  rw [recordedOf, (collectStep_skip_failed _ _).2, flatten_outputs_emitDeltas]
  congr 1
  induction run with
  | nil => rfl
  | cons p run ih =>
    rw [List.flatMap_cons, ← ih, ← p.toList_samples, List.map_cons]
    cases p.samples <;> simp

theorem value_of_sampleOf {view : StatementsView} {s : ViewRow} {sample : StatementSample}
    (h : view.sampleOf s = some sample) (c : StmtCounter) : sample.value c = s.value c := by
  obtain ⟨queryid, -, rfl⟩ := Option.map_eq_some_iff.mp h
  cases c with
  | execTimeMs => rfl
  | _ => exact Int64.toNat_clampToUInt64 _

/-- The counters of the rows of one query, in the order in which they are answered. -/
def readingsOf (run : List StatementPoll) (queryid : Int64) (c : StmtCounter) : List ℕ :=
  ((run.flatMap StatementPoll.rows).filter fun s => s.queryid = some queryid).map fun s =>
    s.value c

theorem map_value_filterMap (view : StatementsView) (rows : List ViewRow) (queryid : Int64)
    (c : StmtCounter) :
    ((rows.filterMap view.sampleOf).filter (·.queryid = queryid)).map (·.value c) =
      (rows.filter fun s => s.queryid = some queryid).map fun s => s.value c := by
  induction rows with
  | nil => rfl
  | cons s rows ih =>
    cases hs : s.queryid with
    | none =>
      have hnone : view.sampleOf s = none := by rw [StatementsView.sampleOf, hs, Option.map_none]
      rw [List.filterMap_cons_none hnone, ih, List.filter_cons_of_neg (by simp [hs])]
    | some q =>
      obtain ⟨sample, hsample⟩ : ∃ sample, view.sampleOf s = some sample := by
        rw [StatementsView.sampleOf, hs]
        exact ⟨_, rfl⟩
      have hqueryid : sample.queryid = q := by
        rw [StatementsView.sampleOf, hs] at hsample
        obtain rfl := Option.some.inj hsample
        rfl
      rw [List.filterMap_cons_some hsample]
      by_cases hq : q = queryid
      · rw [List.filter_cons_of_pos (by simp [hqueryid, hq]),
          List.filter_cons_of_pos (by simp [hs, hq]), List.map_cons, List.map_cons, ih,
          value_of_sampleOf hsample]
      · rw [List.filter_cons_of_neg (by simp [hqueryid, hq]),
          List.filter_cons_of_neg (by simp [hs, hq]), ih]

/-- The rows of a query have the counters of the server. -/
theorem map_value_samples (run : List StatementPoll) (queryid : Int64) (c : StmtCounter) :
    ((run.flatMap fun p => p.rows.filterMap p.view.sampleOf).filter
      (·.queryid = queryid)).map (·.value c) = readingsOf run queryid c := by
  rw [readingsOf, List.filter_flatMap, List.map_flatMap, List.filter_flatMap, List.map_flatMap]
  refine List.flatMap_congr ?_
  intro p _
  exact map_value_filterMap p.view p.rows queryid c

theorem execTimeInRange_samples (run : List StatementPoll) :
    ∀ s ∈ run.flatMap (fun p => p.rows.filterMap p.view.sampleOf), s.ExecTimeInRange := by
  intro sample hsample
  obtain ⟨p, -, hp⟩ := List.mem_flatMap.mp hsample
  obtain ⟨s, hs, hsome⟩ := List.mem_filterMap.mp hp
  obtain ⟨queryid, -, rfl⟩ := Option.map_eq_some_iff.mp hsome
  exact p.execTime s (StatementPoll.mem_rows hs)

theorem identity_sampleOf (p : StatementPoll) (s : ViewRow) :
    (p.view.sampleOf s).map StatementSample.identity = p.label s := by
  rw [StatementsView.sampleOf, Option.map_map]
  rfl

/-- The total under a query. -/
theorem emitted_recordedOf (run : List StatementPoll) (queryid : Int64) (c : StmtCounter) :
    emitted (·.queryid = queryid) (recordedOf run) c = rises 0 (readingsOf run queryid c) := by
  rw [recordedOf_eq, emitted_queryid_eq_rises (execTimeInRange_samples run), map_value_samples]

/-- **What the collector records of a server.** Over any run, in which polls may fail, and databases
and roles may be dropped:

* under every label there are exactly as many deltas as rows with that label were answered, so no
  statement is lost or reported twice, not even that of a dropped database
* and the total under a query is the sum of the rises between its successive rows. -/
theorem collector_counts_statements (run : List StatementPoll) :
    (∀ id, (recordedOf run).countP (fun d => d.identity = id) =
        (run.map fun p => p.rows.countP fun s => p.label s = some id).sum) ∧
      ∀ queryid c, emitted (·.queryid = queryid) (recordedOf run) c =
        rises 0 (readingsOf run queryid c) := by
  refine ⟨fun id => ?_, emitted_recordedOf run⟩
  rw [recordedOf_eq]
  have hcount := congrArg (List.countP (· = id)) (map_identity_outputs .new
    (run.flatMap fun p => p.rows.filterMap p.view.sampleOf))
  rw [List.countP_map, List.countP_map, List.countP_flatMap] at hcount
  refine hcount.trans (congrArg List.sum (List.map_congr_left ?_))
  intro p _
  rw [Function.comp_apply, List.countP_filterMap]
  refine List.countP_congr ?_
  intro s _
  rw [← identity_sampleOf]
  cases p.view.sampleOf s <;> simp

/-- A view with one statement, of a role that there may be no more. -/
def oneStatement (calls : Int64) (pgRoles : Catalog) : StatementsView where
  rows := [{ queryid := some 1, dbid := 5, userid := 10, calls, totalExecTime := .finite (21 / 2)
             rows := 0, sharedBlksHit := 0, sharedBlksRead := 0 }]
  pgDatabase := ⟨[(5, "app")], by decide⟩
  pgRoles := pgRoles

/-- A poll of it. -/
def pollOneStatement (calls : Int64) (pgRoles : Catalog) (answered : Bool) : StatementPoll where
  view := oneStatement calls pgRoles
  answered := answered
  execTime s hs := by
    obtain rfl := List.mem_singleton.mp hs
    exact ⟨21 / 2, rfl, by norm_num, by norm_num⟩

/-- A hundred calls, a poll that fails, and sixty more calls after which the role is dropped. -/
def droppedRole : List StatementPoll :=
  let roles : Catalog := ⟨[(10, "reporting")], by decide⟩
  [pollOneStatement 100 roles true, pollOneStatement 130 roles false,
    pollOneStatement 160 ⟨[], by decide⟩ true]

/-- Both rows are recorded, the second under an empty name, and no call twice. -/
theorem collector_counts_statements_droppedRole :
    (recordedOf droppedRole).countP (fun d => d.identity = (1, "app", "")) = 1 ∧
      emitted (·.queryid = 1) (recordedOf droppedRole) .calls = 160 := by
  obtain ⟨hlabels, htotals⟩ := collector_counts_statements droppedRole
  exact ⟨(hlabels (1, "app", "")).trans (by decide +kernel),
    (htotals 1 .calls).trans (by decide +kernel)⟩

end PgSleuth
