import PgSleuth.Cli.StmtServer
import PgSleuth.Otel.Metrics

/-!
# From the statements of a server to the recorded values

`emit_deltas` hands every delta to `record_pg_stmt_delta`, which records five values under the
attributes of the label. A collector that is started again knows no previous values: by design its
first poll reports whatever the server has counted so far.

## Main results

* `points_count_statements` — what a run records with each counter, and what a restart adds
-/

namespace PgSleuth

/-- The values a run records. -/
def pointsOf (run : List StatementPoll) : List MetricPoint :=
  (recordedOf run).flatMap recordPgStmtDelta

/-- The attributes are those of a label of the query. -/
def ofQuery (queryid : Int64) (attrs : List (String × String)) : Bool :=
  attrs.lookup "pgsleuth.pg.queryid" = some (toString queryid)

theorem ofQuery_stmtAttributes (queryid : Int64) (id : Int64 × String × String) :
    ofQuery queryid (stmtAttributes id) = decide (id.1 = queryid) := by
  refine decide_eq_decide.mpr ?_
  simp only [stmtAttributes, List.lookup_cons_self, Option.some.injEq]
  exact ⟨Int64.toString_injective, congrArg toString⟩

/-- What is recorded with a counter for a query, all in all. -/
def recordedTotal (points : List MetricPoint) (queryid : Int64) (c : StmtCounter) : ℕ :=
  ((recordedValues c.instrument (ofQuery queryid) points).map UInt64.toNat).sum

theorem recordedTotal_append (points points' : List MetricPoint) (queryid : Int64)
    (c : StmtCounter) :
    recordedTotal (points ++ points') queryid c =
      recordedTotal points queryid c + recordedTotal points' queryid c := by
  rw [recordedTotal, recordedValues_append, List.map_append, List.sum_append, recordedTotal,
    recordedTotal]

theorem recordedTotal_pointsOf (run : List StatementPoll) (queryid : Int64) (c : StmtCounter) :
    recordedTotal (pointsOf run) queryid c = rises 0 (readingsOf run queryid c) := by
  rw [recordedTotal, pointsOf, recordedValues_flatMap, List.map_map, ← emitted_recordedOf]
  simp only [ofQuery_stmtAttributes]
  rfl

theorem readingsOf_append (before after : List StatementPoll) (queryid : Int64) (c : StmtCounter) :
    readingsOf (before ++ after) queryid c =
      readingsOf before queryid c ++ readingsOf after queryid c := by
  rw [readingsOf, List.flatMap_append, List.filter_append, List.map_append, ← readingsOf,
    ← readingsOf]

/-- **What a run records.** Over any run, in which polls may fail, and databases and roles may be
dropped:

* nothing is recorded but the counters of the deltas, each with its instrument and under the
  attributes of its label
* with a counter and the attributes of a label, exactly the deltas of that label are recorded, in
  order, and those of no other
* what is recorded with a counter for a query adds up to the rises between its successive rows
* and a collector that is stopped and started again records as much twice as the first row after the
  restart still shows of the last one before it. -/
theorem points_count_statements (run : List StatementPoll) :
    (∀ point ∈ pointsOf run, ∃ delta ∈ recordedOf run, ∃ c : StmtCounter,
        point = ⟨c.instrument, delta.get c, stmtAttributes delta.identity⟩) ∧
      (∀ id c, recordedValues c.instrument (fun attrs => attrs = stmtAttributes id)
          (pointsOf run) =
        ((recordedOf run).filter fun delta => delta.identity = id).map (·.get c)) ∧
      (∀ queryid c, recordedTotal (pointsOf run) queryid c =
        rises 0 (readingsOf run queryid c)) ∧
      ∀ before after, run = before ++ after → ∀ queryid c,
        recordedTotal (pointsOf before ++ pointsOf after) queryid c =
          recordedTotal (pointsOf run) queryid c +
            min ((readingsOf before queryid c).getLast?.getD 0)
              ((readingsOf after queryid c).head?.getD 0) := by
  refine ⟨?_, ?_, recordedTotal_pointsOf run, ?_⟩
  · intro point hpoint
    obtain ⟨delta, hdelta, hmem⟩ := List.mem_flatMap.mp hpoint
    exact ⟨delta, hdelta, mem_recordPgStmtDelta_iff.mp hmem⟩
  · intro id c
    rw [pointsOf, recordedValues_flatMap]
    simp only [stmtAttributes_injective.eq_iff]
  · rintro before after rfl queryid c
    rw [recordedTotal_append, recordedTotal_pointsOf, recordedTotal_pointsOf,
      recordedTotal_pointsOf, readingsOf_append, rises_append,
      rises_zero ((readingsOf before queryid c).getLast?.getD 0) (readingsOf after queryid c)]
    omega

/-- A collector that is restarted between the polls of `droppedRole` records the 100 calls of the
first a second time. -/
theorem points_count_statements_droppedRole :
    recordedValues StmtCounter.calls.instrument (fun attrs => attrs = stmtAttributes (1, "app", ""))
        (pointsOf droppedRole) = [60] ∧
      recordedTotal (pointsOf (droppedRole.take 2) ++ pointsOf (droppedRole.drop 2)) 1 .calls =
        160 + 100 := by
  obtain ⟨-, hvalues, htotal, hrestart⟩ := points_count_statements droppedRole
  refine ⟨(hvalues (1, "app", "") .calls).trans (by decide +kernel), ?_⟩
  rw [hrestart _ _ (List.take_append_drop 2 _).symm 1 .calls, htotal 1 .calls]
  decide +kernel

end PgSleuth
