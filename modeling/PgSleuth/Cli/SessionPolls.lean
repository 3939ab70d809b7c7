import PgSleuth.Cli.Findings
import PgSleuth.Postgres.StatActivity

/-!
# From the sessions to the connection-storm findings

`pgsleuth-cli/src/connection_storm.rs` over `stat_activity::poll`: the rule over the sessions of a
server, with the queries in between.

## Main definitions

* `ActivityPoll` — a tick of the loop on a server that answers from its sessions

## Main results

* `storm_counts_sessions` — the findings of a run are about the client sessions there were
-/

namespace PgSleuth

open StatActivity

/-- A tick of the loop: the clock, the server, and the sessions it answers from. -/
structure ActivityPoll where
  now : DateTime
  server : Server
  views : Views
  answers : server.Answers views

namespace ActivityPoll

variable (longXactThresholdSeconds : UInt64)

/-- What the loop sees of a tick. -/
def tick (p : ActivityPoll) : ConnectionStorm.Tick where
  now := p.now
  poll := (poll p.server longXactThresholdSeconds).map fun snap => ⟨snap.clientBackends⟩

/-- Whether there are more client sessions than the threshold, unless the poll fails. -/
def verdict (backendThreshold : UInt64) (p : ActivityPoll) : Option Bool :=
  (poll p.server longXactThresholdSeconds).map fun _ =>
    backendThreshold.toNat < p.views.backends.clients.length

theorem toNat_clientBackends (p : ActivityPoll) {snap : StatActivity.SessionSnapshot}
    (h : poll p.server longXactThresholdSeconds = some snap) :
    snap.clientBackends.toNat = p.views.backends.clients.length :=
  (countsSessions_of_poll p.answers h).clientBackends

/-- The loop compares the number of client sessions. -/
theorem verdicts_map_tick (args : ConnectionStorm.Args) (polls : List ActivityPoll) :
    (ConnectionStorm.verdicts args (polls.map (tick longXactThresholdSeconds))).reduceOption =
      polls.filterMap (verdict longXactThresholdSeconds args.backendThreshold) := by
  rw [ConnectionStorm.verdicts, List.reduceOption, List.map_map, List.filterMap_map]
  refine List.filterMap_congr ?_
  intro p _
  cases h : poll p.server longXactThresholdSeconds with
  | none => simp [tick, verdict, h]
  | some snap =>
    simp [tick, verdict, h, UInt64.lt_iff_toNat_lt, toNat_clientBackends _ p h]

end ActivityPoll

/-- **The connection-storm rule is about sessions.** On servers that answer from the sessions they
have, whatever they have at each query, in whatever order they list their groups, and whichever
queries fail:

* every number of every snapshot is a number of sessions
* there are as many findings as there are long blocks of polls with too many client sessions
* and each finding says how many there were at its tick, which is more than the threshold. -/
theorem storm_counts_sessions (args : ConnectionStorm.Args) (longXactThresholdSeconds : UInt64)
    (polls : List ActivityPoll) :
    (∀ p ∈ polls, ∀ snap, poll p.server longXactThresholdSeconds = some snap →
        snap.CountsSessions p.views longXactThresholdSeconds) ∧
      (ConnectionStorm.findings args
          (polls.map (ActivityPoll.tick longXactThresholdSeconds))).length =
        longBlocks id (max 1 args.fireAfter.toNat)
          (polls.filterMap
            (ActivityPoll.verdict longXactThresholdSeconds args.backendThreshold)) ∧
      ∀ f ∈ ConnectionStorm.findings args
          (polls.map (ActivityPoll.tick longXactThresholdSeconds)),
        ∃ p ∈ polls, f.firedAt = p.now ∧
          args.backendThreshold.toNat < p.views.backends.clients.length ∧
          f.evidence.get? "client_backends" = some (.int p.views.backends.clients.length) ∧
          f.evidence.get? "backend_threshold" = some (.int args.backendThreshold.toNat) := by
  refine ⟨fun p _ snap h => countsSessions_of_poll p.answers h, ?_, ?_⟩
  · rw [ConnectionStorm.length_findings, ActivityPoll.verdicts_map_tick]
  · intro f hf
    obtain ⟨tick, htick, hnow, snap, hpoll, hlt, hbackends, hthreshold⟩ :=
      ConnectionStorm.supports_of_mem_findings args hf
    obtain ⟨p, hp, rfl⟩ := List.mem_map.mp htick
    obtain ⟨s, hs, rfl⟩ := Option.map_eq_some_iff.mp hpoll
    have hcount := p.toNat_clientBackends longXactThresholdSeconds hs
    rw [UInt64.lt_iff_toNat_lt, hcount] at hlt
    rw [hcount] at hbackends
    exact ⟨p, hp, hnow, hlt, hbackends, hthreshold⟩

/-! ### A crowded server -/

/-- Two client sessions, and a background process. -/
def crowd : Activity where
  sessions :=
    [⟨some "client backend", some "active", none, none, some 5, by decide, by decide, by decide⟩,
      ⟨some "client backend", some "idle in transaction", some "Client", some "ClientRead", some 90,
        by decide, by decide, by decide⟩,
      ⟨some "checkpointer", none, some "Activity", some "CheckpointerMain", none, by decide,
        by decide, by decide⟩]
  length_lt := by decide

/-- It is polled three times, the second time in vain. -/
def crowdedPolls : List ActivityPoll :=
  let views : Views := ⟨crowd, crowd, crowd, crowd⟩
  [⟨.atSecond 0, views.server, views, views.answers_server⟩,
    ⟨.atSecond 1, ⟨none, none, none, fun _ => none⟩, views, by constructor <;> simp⟩,
    ⟨.atSecond 2, views.server, views, views.answers_server⟩]

/-- The two sessions are one too many twice in a row, as far as the polls succeed. -/
theorem storm_counts_sessions_crowdedPolls :
    (ConnectionStorm.findings ⟨1000, 1, 2, "fixture-pg"⟩
        (crowdedPolls.map (ActivityPoll.tick 60))).length = 1 ∧
      ∀ f ∈ ConnectionStorm.findings ⟨1000, 1, 2, "fixture-pg"⟩
          (crowdedPolls.map (ActivityPoll.tick 60)),
        f.evidence.get? "client_backends" = some (.int 2) := by
  obtain ⟨-, hlength, hmem⟩ := storm_counts_sessions ⟨1000, 1, 2, "fixture-pg"⟩ 60 crowdedPolls
  refine ⟨hlength.trans (by decide +kernel), ?_⟩
  intro f hf
  obtain ⟨p, hp, -, -, hbackends, -⟩ := hmem f hf
  have htwo : p.views.backends.clients.length = 2 := by
    simp only [crowdedPolls, List.mem_cons, List.not_mem_nil, or_false] at hp
    rcases hp with rfl | rfl | rfl <;> rfl
  rw [hbackends, htwo]
  rfl

end PgSleuth
