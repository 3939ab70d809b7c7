import PgSleuth.Cli.Findings
import PgSleuth.Postgres.CheckpointerDoubles

/-!
# From the rows of the views to the checkpoint-storm findings

`pgsleuth-cli/src/checkpoint_storm.rs` over `stat_checkpointer::poll`: the rule over the rows a
server answers with, in the arithmetic the code uses. A server that reports its times in whole
milliseconds is never rounded, and the rule is then about the exact differences of the rows.

## Main definitions

* `stormStepF64` — one tick of the loop, in double precision
* `RowPoll` — a tick on a server that reports whole milliseconds

## Main results

* `findingsF64_eq` — on such a server the loop is the one in exact arithmetic
* `checkpoint_judges_rows` — the findings of a run are about the differences of successive rows
-/

namespace PgSleuth

namespace CheckpointStorm

/-- One tick, with the answer as the poll keeps it. -/
structure TickF64 where
  now : DateTime
  poll : Option CheckpointerSnapshotF64

/-- The variables of the loop. -/
structure StateF64 where
  prev : Option CheckpointerSnapshotF64
  streak : DominantStreak

namespace StateF64

/-- The state the loop starts in. -/
def new : StateF64 := ⟨none, .default⟩

/-- The state in exact arithmetic. -/
def exact (s : StateF64) : State := ⟨s.prev.map CheckpointerSnapshotF64.exact, s.streak⟩

/-- The snapshot remembered has whole times. -/
def WholeTimes (s : StateF64) : Prop := ∀ prev ∈ s.prev, prev.WholeTimes

end StateF64

variable (args : Args)

/-- One tick of the loop, in double precision. -/
def stormStepF64 (s : StateF64) (tick : TickF64) : StateF64 × Option Outcome :=
  match tick.poll with
  | none => (s, none)
  | some cur =>
    let bucket := s.prev.bind fun p => classifyF64 p cur
    let next := s.streak.observe bucket args.fireAfter
    let finding :=
      match next.2 with
      | .justFired b streak =>
        some (buildFinding tick.now args.pgInstanceId b streak args.intervalMs)
      | _ => none
    (⟨some cur, next.1⟩, some ⟨bucket, next.2, finding⟩)

/-- The findings of a run of the loop. -/
def findingsF64 (ticks : List TickF64) : List Finding :=
  (Mealy.outputs (stormStepF64 args) .new ticks).filterMap fun o => o.bind Outcome.finding

/-- A tick of the loop: the clock, and the row the server answers with, if it answers. -/
structure RowPoll where
  now : DateTime
  row : Option CheckpointerRow
  whole : ∀ r ∈ row, r.snapshot.WholeTimes

namespace RowPoll

/-- What the loop sees of a tick. -/
def tick (p : RowPoll) : TickF64 := ⟨p.now, p.row.map CheckpointerRow.snapshot⟩

/-- The tick in exact arithmetic. -/
def exactTick (p : RowPoll) : Tick := ⟨p.now, p.row.map fun r => r.snapshot.exact⟩

/-- The rows of the polls that are answered. -/
def rows (polls : List RowPoll) : List CheckpointerRow := polls.filterMap row

theorem snapshots_map_exactTick (polls : List RowPoll) :
    snapshots (polls.map exactTick) = (rows polls).map fun r => r.snapshot.exact := by
  rw [snapshots, List.map_map, rows, List.reduceOption, List.filterMap_map, List.map_filterMap]
  rfl

end RowPoll

/-- One tick on whole milliseconds is the tick in exact arithmetic. -/
theorem stormStepF64_tick {s : StateF64} (h : s.WholeTimes) (p : RowPoll) :
    (stormStepF64 args s p.tick).1.WholeTimes ∧
      stormStep args s.exact p.exactTick =
        ((stormStepF64 args s p.tick).1.exact, (stormStepF64 args s p.tick).2) := by
  obtain ⟨now, row, hwhole⟩ := p
  cases row with
  | none => exact ⟨h, rfl⟩
  | some cur =>
    have hcur : cur.snapshot.WholeTimes := hwhole cur rfl
    have hbucket : s.exact.prev.bind (fun p => classify p cur.snapshot.exact) =
        s.prev.bind fun p => classifyF64 p cur.snapshot := by
      rw [StateF64.exact, Option.bind_map]
      cases hprev : s.prev with
      | none => rfl
      | some prev => exact (classifyF64_eq_classify (h prev hprev) hcur).symm
    refine ⟨?_, ?_⟩
    · intro prev hprev
      obtain rfl : cur.snapshot = prev := Option.some.inj hprev
      exact hcur
    · simp only [stormStep, stormStepF64, RowPoll.tick, RowPoll.exactTick, Option.map_some, hbucket]
      rfl

/-- **On whole milliseconds the loop is the one in exact arithmetic.** -/
theorem findingsF64_eq (polls : List RowPoll) :
    findingsF64 args (polls.map RowPoll.tick) = findings args (polls.map RowPoll.exactTick) := by
  have hnew : StateF64.new.WholeTimes := by simp [StateF64.WholeTimes, StateF64.new]
  have hsim := @Mealy.simulation _ _ _ (fun s p => stormStepF64 args s (RowPoll.tick p)) _
    (fun t p => stormStep args t p.exactTick) fun s t => s.WholeTimes ∧ t = s.exact
  rw [findingsF64, findings, Mealy.outputs_map, Mealy.outputs_map, (hsim ?_ ⟨hnew, rfl⟩ polls).1]
  · rfl
  · rintro s _ p ⟨hs, rfl⟩
    obtain ⟨hwhole, hstep⟩ := stormStepF64_tick args hs p
    exact ⟨⟨hwhole, by rw [hstep]⟩, by rw [hstep]⟩

/-- A bucket is that of the last snapshot and the new one. -/
theorem exists_snapshots_of_classified {ticks : List Tick} {tick : Tick} {b : CheckpointBucket}
    (h : classified args (ticks ++ [tick]) = classified args ticks ++ [b]) :
    ∃ prev cur, (snapshots ticks).getLast? = some prev ∧ tick.poll = some cur ∧
      classify prev cur = some b := by
  have hprev : (Mealy.final (stormStep args) .new ticks).prev = (snapshots ticks).getLast? :=
    prev_final args ticks
  obtain ⟨now, poll⟩ := tick
  rw [classified_concat, List.append_cancel_left_eq] at h
  cases poll with
  | none => simp [stormStep] at h
  | some cur =>
    simp only [stormStep, Option.bind_some, hprev, Option.toList_eq_singleton_iff,
      Option.bind_eq_some_iff] at h
    obtain ⟨prev, hlast, hb⟩ := h
    exact ⟨prev, cur, hlast, rfl, hb⟩

open CheckpointerRow in
/-- **The checkpoint-storm rule is about the differences of the rows.** Whatever rows a server that
reports whole milliseconds answers with, and whichever polls fail:

* there are as many findings as there are long blocks of one bucket among the successive rows whose
  differences have a bucket at all
* and each finding is fired at an answered poll, and names the bucket between the last row before it
  and its own. -/
theorem checkpoint_judges_rows (polls : List RowPoll) :
    (findingsF64 args (polls.map RowPoll.tick)).length =
        longBlocks (fun _ => true) (max 1 args.fireAfter.toNat)
          (List.zipWith bucketBetween (RowPoll.rows polls) (RowPoll.rows polls).tail).reduceOption ∧
      ∀ f ∈ findingsF64 args (polls.map RowPoll.tick), ∃ pre p post prev cur b,
        polls = pre ++ p :: post ∧ f.firedAt = p.now ∧
          (RowPoll.rows pre).getLast? = some prev ∧ p.row = some cur ∧
          bucketBetween prev cur = some b ∧
          f.evidence.get? "bucket" = some (.string b.slug) := by
  rw [findingsF64_eq]
  constructor
  · rw [length_findings, classified_eq, RowPoll.snapshots_map_exactTick, ← List.map_tail,
      List.zipWith_map]
    simp only [classify_exact_snapshot]
  · intro f hf
    obtain ⟨pre, tick, post, hticks, hnow, b, hclassified, -, hbucket, -⟩ :=
      supports_of_mem_findings args hf
    obtain ⟨pre, rest, rfl, rfl, hrest⟩ := List.map_eq_append_iff.mp hticks
    obtain ⟨p, post, rfl, rfl, rfl⟩ := List.map_eq_cons_iff.mp hrest
    obtain ⟨_, _, hprev, hcur, hb⟩ := exists_snapshots_of_classified args hclassified
    rw [RowPoll.snapshots_map_exactTick, List.getLast?_map] at hprev
    obtain ⟨prev, hlast, rfl⟩ := Option.map_eq_some_iff.mp hprev
    obtain ⟨cur, hrow, rfl⟩ := Option.map_eq_some_iff.mp hcur
    rw [classify_exact_snapshot] at hb
    exact ⟨pre, p, post, prev, cur, b, rfl, hnow, hlast, hrow, hb, hbucket⟩

/-! ### A server that writes -/

/-- A poll that is answered. -/
def RowPoll.answered (now : DateTime) (row : CheckpointerRow) (h : row.snapshot.WholeTimes) :
    RowPoll where
  now := now
  row := some row
  whole _ hr := Option.some.inj hr ▸ h

/-- A poll that is not. -/
def RowPoll.failed (now : DateTime) : RowPoll where
  now := now
  row := none
  whole := by simp

open Binary64 in
/-- Two checkpoints of a second of writing each, and a poll between them that fails. -/
def writingPolls : List RowPoll :=
  [.answered (.atSecond 0) ⟨0, 0, 0, 0, 0⟩
      ⟨⟨0, by norm_num, by decide +kernel⟩, 0, by norm_num, by decide +kernel⟩,
    .answered (.atSecond 10) ⟨1, 0, 1000, 10, 0⟩
      ⟨⟨1000, by norm_num, by decide +kernel⟩, 10, by norm_num, by decide +kernel⟩,
    .failed (.atSecond 20),
    .answered (.atSecond 30) ⟨2, 0, 2000, 20, 0⟩
      ⟨⟨2000, by norm_num, by decide +kernel⟩, 20, by norm_num, by decide +kernel⟩]

/-- Both are dominated by their write phases, which is what the one finding says. -/
theorem checkpoint_judges_rows_writingPolls :
    (findingsF64 ⟨10000, 2, "fixture-pg"⟩ (writingPolls.map RowPoll.tick)).length = 1 ∧
      ∀ f ∈ findingsF64 ⟨10000, 2, "fixture-pg"⟩ (writingPolls.map RowPoll.tick),
        ∃ b : CheckpointBucket, f.evidence.get? "bucket" = some (.string b.slug) := by
  obtain ⟨hlength, hmem⟩ := checkpoint_judges_rows ⟨10000, 2, "fixture-pg"⟩ writingPolls
  refine ⟨hlength.trans (by decide +kernel), ?_⟩
  intro f hf
  obtain ⟨_, _, _, _, _, b, -, -, -, -, -, hbucket⟩ := hmem f hf
  exact ⟨b, hbucket⟩

end CheckpointStorm

end PgSleuth
