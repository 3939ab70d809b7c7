import Mathlib.Data.List.Perm.Basic
import PgSleuth.Cli.CollectPgStmt
import PgSleuth.ForMathlib.RestartingCounter

/-!
# Resets, evictions and the order of rows

What the collector's totals mean when counters drop. The server side is a history of what it counts,
when its counters restart, and what it answers to a poll; the collector sees the answers only. As
long as no answer has two rows of one query, what it adds up for a query is the rises between
successive rows, and never more than the server really counted.

## Main definitions

* `ServerEvent` — what the server counts, restarts and answers
* `Truthful` — every sample reports its counter in whole units

## Main results

* `emitted_queryid_eq_rises` — the total of a query is the sum of its rises
* `emitted_le_counted` — and never exceeds the true count
* `rowDeltas_perm` — the order of the rows of a poll does not matter
* `collector_under_resets` — all of this, for every list of polls
-/

namespace PgSleuth

/-! ### Totals are sums of rises -/

/-- **The total recorded for a query** is the sum of the rises between its successive rows. -/
theorem emitted_queryid_eq_rises {rows : List StatementSample}
    (hrows : ∀ s ∈ rows, s.ExecTimeInRange) (queryid : Int64) (c : StmtCounter) :
    emitted (·.queryid = queryid) (Mealy.outputs emitRow .new rows) c =
      rises 0 ((rows.filter (·.queryid = queryid)).map (·.value c)) := by
  induction rows using List.reverseRecOn with
  | nil => rfl
  | append_singleton rows s ih =>
    have hinit : ∀ r ∈ rows, r.ExecTimeInRange := fun r hr => hrows r (List.mem_append_left _ hr)
    have hlabel : (emitRow (Mealy.final emitRow .new rows) s).2.queryid = s.queryid := rfl
    rw [emitted_concat hinit (hrows s (by simp)), ih hinit, hlabel]
    by_cases h : s.queryid = queryid
    · subst h
      simp [rises_concat, StatementSample.lastValue]
    · simp [h]

/-! ### The server's side -/

/-- What happens on the server, as far as the view shows. -/
inductive ServerEvent
  /-- The server counts `amount` for a query. -/
  | count (queryid : Int64) (c : StmtCounter) (amount : ℚ)
  /-- A reset or an eviction: the counters of the queries restart from zero. -/
  | restart (queryids : Int64 → Bool)
  /-- The view is read. -/
  | poll (samples : List StatementSample)

/-- What an event is for one counter of one query. -/
def ServerEvent.project (queryid : Int64) (c : StmtCounter) :
    ServerEvent → List (RestartingCounter.Event ℚ)
  | .count q c' amount => if q = queryid ∧ c' = c then [.count amount] else []
  | .restart queryids => if queryids queryid then [.restart] else []
  | .poll samples => (samples.filter (·.queryid = queryid)).map fun _ => .read

/-- The answers to the polls of a history. -/
def ServerEvent.polls (history : List ServerEvent) : List (List StatementSample) :=
  history.filterMap fun
    | .poll samples => some samples
    | _ => none

/-- The history of one counter of one query. -/
def ServerEvent.counterHistory (history : List ServerEvent) (queryid : Int64) (c : StmtCounter) :
    List (RestartingCounter.Event ℚ) :=
  history.flatMap (ServerEvent.project queryid c)

/-- A history in which nothing negative is counted, and every sample reports what its counters
show, in whole units. -/
structure ServerEvent.Truthful (history : List ServerEvent) : Prop where
  nonneg : ∀ queryid c amount, ServerEvent.count queryid c amount ∈ history → 0 ≤ amount
  reads : ∀ queryid c,
    ((polls history).flatten.filter (·.queryid = queryid)).map (·.value c) =
      RestartingCounter.readings (counterHistory history queryid c)

/-- **No total exceeds the true count**, whatever restarts in between. -/
theorem emitted_le_counted {history : List ServerEvent} (h : ServerEvent.Truthful history)
    (hexec : ∀ s ∈ (ServerEvent.polls history).flatten, s.ExecTimeInRange) (queryid : Int64)
    (c : StmtCounter) :
    (emitted (·.queryid = queryid) (recorded (ServerEvent.polls history)) c : ℚ) ≤
      RestartingCounter.counted (ServerEvent.counterHistory history queryid c) := by
  rw [recorded, flatten_outputs_emitDeltas, emitted_queryid_eq_rises hexec, h.reads]
  refine RestartingCounter.rises_readings_le_counted ?_
  intro e he
  obtain ⟨event, hevent, he⟩ := List.mem_flatMap.mp he
  cases event with
  | count q c' amount =>
    by_cases hq : q = queryid ∧ c' = c
    · obtain rfl : e = .count amount := by simpa [ServerEvent.project, hq] using he
      exact h.nonneg _ _ _ hevent
    · simp [ServerEvent.project, hq] at he
  | restart queryids =>
    by_cases hq : queryids queryid
    · obtain rfl : e = .restart := by simpa [ServerEvent.project, hq] using he
      exact le_refl 0
    · simp [ServerEvent.project, hq] at he
  | poll samples =>
    obtain ⟨-, -, rfl⟩ := List.mem_map.mp he
    exact le_refl 0

/-! ### The order of the rows -/

/-- Without two rows of one query, every row is compared with what was remembered before the
poll. -/
theorem outputs_emitRow_of_nodup {samples : List StatementSample}
    (h : (samples.map (·.queryid)).Nodup) (prev : PrevMap) :
    Mealy.outputs emitRow prev samples =
      samples.map fun s => rowDelta ((prev s.queryid).getD .default) s := by
  induction samples generalizing prev with
  | nil => rfl
  | cons s samples ih =>
    rw [List.map_cons, List.nodup_cons] at h
    have htail : ∀ r ∈ samples, r.queryid ≠ s.queryid := fun r hr heq =>
      h.1 (heq ▸ List.mem_map_of_mem hr)
    rw [Mealy.outputs_cons, ih h.2, List.map_cons]
    congr 1
    refine List.map_congr_left ?_
    intro r hr
    simp only [emitRow, Function.update_of_ne (htail r hr)]

/-- Without two rows of one query, the map does not depend on the order of the rows. -/
theorem final_emitRow_perm {samples samples' : List StatementSample} (h : samples.Perm samples')
    (hnodup : (samples.map (·.queryid)).Nodup) (prev : PrevMap) :
    Mealy.final emitRow prev samples = Mealy.final emitRow prev samples' := by
  induction h generalizing prev with
  | nil => rfl
  | cons s _ ih =>
    rw [List.map_cons, List.nodup_cons] at hnodup
    rw [Mealy.final_cons, Mealy.final_cons, ih hnodup.2]
  | swap s r samples =>
    have hne : s.queryid ≠ r.queryid := by
      rintro heq
      simp [heq] at hnodup
    simp only [Mealy.final_cons, emitRow, Function.update_comm hne]
  | trans h _ ih ih' =>
    rw [ih hnodup, ih' ((h.map _).nodup_iff.mp hnodup)]

/-- The rows of each poll, each with the delta it records. -/
def rowDeltas (prev : PrevMap) (polls : List (List StatementSample)) :
    List (List (StatementSample × PgStmtDelta)) :=
  List.zipWith List.zip polls (Mealy.outputs emitDeltas prev polls)

/-- **The order of the rows of a poll does not matter**, for the map or for any row's delta. -/
theorem rowDeltas_perm {polls polls' : List (List StatementSample)}
    (h : List.Forall₂ List.Perm polls polls')
    (hnodup : ∀ poll ∈ polls, (poll.map (·.queryid)).Nodup) (prev : PrevMap) :
    Mealy.final emitDeltas prev polls = Mealy.final emitDeltas prev polls' ∧
      List.Forall₂ List.Perm (rowDeltas prev polls) (rowDeltas prev polls') := by
  induction h generalizing prev with
  | nil => exact ⟨rfl, .nil⟩
  | @cons poll poll' polls polls' hperm _ ih =>
    have hpoll := hnodup poll (List.mem_cons_self ..)
    have hpoll' : (poll'.map (·.queryid)).Nodup := (hperm.map _).nodup_iff.mp hpoll
    have hmap : (emitDeltas prev poll).1 = (emitDeltas prev poll').1 :=
      final_emitRow_perm hperm hpoll prev
    obtain ⟨hfinal, hdeltas⟩ :=
      ih (fun p hp => hnodup p (List.mem_cons_of_mem _ hp)) (emitDeltas prev poll').1
    rw [Mealy.final_cons, Mealy.final_cons, rowDeltas, rowDeltas, Mealy.outputs_cons,
      Mealy.outputs_cons, hmap]
    refine ⟨hfinal, .cons ?_ hdeltas⟩
    rw [emitDeltas, emitDeltas, outputs_emitRow_of_nodup hpoll, outputs_emitRow_of_nodup hpoll',
      ← List.map_prod_left_eq_zip, ← List.map_prod_left_eq_zip]
    exact hperm.map _

/-! ### All of it -/

/-- **The collector under resets, evictions and any order of rows.** For polls without two rows of
one query: a query's total is the sum of the rises between its successive rows; it never exceeds
what a server that answered so had counted; a query without a row in a poll keeps what is remembered
of it; and permuting the rows of any polls changes neither a row's delta nor the map. -/
theorem collector_under_resets {polls : List (List StatementSample)}
    (hnodup : ∀ poll ∈ polls, (poll.map (·.queryid)).Nodup)
    (hexec : ∀ s ∈ polls.flatten, s.ExecTimeInRange) :
    (∀ queryid c, emitted (·.queryid = queryid) (recorded polls) c =
        rises 0 ((polls.flatten.filter (·.queryid = queryid)).map (·.value c))) ∧
      (∀ history, ServerEvent.polls history = polls → ServerEvent.Truthful history →
        ∀ queryid c, (emitted (·.queryid = queryid) (recorded polls) c : ℚ) ≤
          RestartingCounter.counted (ServerEvent.counterHistory history queryid c)) ∧
      (∀ k poll, polls[k]? = some poll → ∀ queryid ∉ poll.map (·.queryid),
        prevAfter (polls.take (k + 1)) queryid = prevAfter (polls.take k) queryid) ∧
      (∀ polls', List.Forall₂ List.Perm polls polls' →
        prevAfter polls = prevAfter polls' ∧
          List.Forall₂ List.Perm (rowDeltas .new polls) (rowDeltas .new polls')) := by
  refine ⟨?_, ?_, ?_, ?_⟩
  · intro queryid c
    rw [recorded, flatten_outputs_emitDeltas, emitted_queryid_eq_rises hexec]
  · intro history hpolls htrue queryid c
    subst hpolls
    exact emitted_le_counted htrue hexec queryid c
  · intro k poll hk queryid hq
    rw [prevAfter, List.take_add_one, hk, Option.toList_some, Mealy.final_append]
    exact final_emitRow_of_notMem hq _
  · intro polls' hperm
    exact rowDeltas_perm hperm hnodup .new

/-- A row polled at 100 calls, and at 40 after a reset. -/
def resetPolls : List (List StatementSample) :=
  let row (calls : UInt64) : StatementSample :=
    { queryid := 1, database := "app", username := "app", calls, totalExecTimeMs := .finite 10
      rows := 0, sharedBlksHit := 0, sharedBlksRead := 0 }
  [[row 100], [row 40]]

theorem collector_under_resets_resetPolls :
    (∀ poll ∈ resetPolls, (poll.map (·.queryid)).Nodup) ∧
      (∀ s ∈ resetPolls.flatten, s.ExecTimeInRange) ∧
      emitted (·.queryid = 1) (recorded resetPolls) .calls = 100 := by
  have hnodup : ∀ poll ∈ resetPolls, (poll.map (·.queryid)).Nodup := by decide
  have hexec : ∀ s ∈ resetPolls.flatten, s.ExecTimeInRange := by
    intro s hs
    simp only [resetPolls, List.flatten_cons, List.flatten_nil, List.append_nil,
      List.singleton_append, List.mem_cons, List.not_mem_nil, or_false] at hs
    rcases hs with rfl | rfl
    · exact ⟨10, rfl, by norm_num, by norm_num⟩
    · exact ⟨10, rfl, by norm_num, by norm_num⟩
  exact ⟨hnodup, hexec, (collector_under_resets hnodup hexec).1 1 .calls⟩

end PgSleuth
