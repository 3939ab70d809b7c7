import Mathlib.Data.Rat.Defs
import Mathlib.Algebra.Order.Ring.Rat
import PgSleuth.ForMathlib.GroupedCount
import PgSleuth.ForMathlib.Saturating

/-!
# The session poll

`pgsleuth-postgres/src/stat_activity.rs`: four queries on `pg_stat_activity`, put together into one
snapshot of gauges. Each query sees the sessions there are when it runs, so the four parts of a
snapshot may be about different sessions.

## The view

A row is kept as far as the queries read it, with what its documentation says about the strings: no
state is called `<null>`, and no wait event has an empty name. Without that, the rows for a missing
and a present one would be read into one entry of the snapshot, and the later would replace the
earlier.

## Main definitions

* `Activity` — the sessions at an instant, and what each query selects from them
* `Server.Answers` — the answers of a server are those of the sessions it had
* `poll` — the snapshot

## Main results

* `countsSessions_of_poll` — every number of a snapshot is the number of sessions it is named after
-/

namespace PgSleuth

namespace StatActivity

/-- A row of `pg_stat_activity`. -/
structure Session where
  backendType : Option String
  state : Option String
  waitEventType : Option String
  waitEvent : Option String
  /-- How long before the query the transaction started, in seconds. -/
  xactAge : Option ℚ
  state_ne : state ≠ some "<null>"
  waitEventType_ne : waitEventType ≠ some ""
  waitEvent_ne : waitEvent ≠ some ""

/-- The sessions there are at an instant. -/
structure Activity where
  sessions : List Session
  /-- There are no more than an `int8` can count. -/
  length_lt : sessions.length < 2 ^ 63

namespace Activity

variable (view : Activity)

/-- `WHERE backend_type = 'client backend'` -/
def clients : List Session := view.sessions.filter fun s => s.backendType = some "client backend"

/-- `count(*)::int8` of the client sessions. -/
def backendCount : Int64 := .ofNat view.clients.length

/-- `GROUP BY state` -/
def stateRows : List (String × Int64) :=
  (List.groupCounts Session.state view.clients).map fun g => (g.1.getD "<null>", .ofNat g.2)

/-- `AND state = 'active' GROUP BY wait_event_type, wait_event` -/
def waitRows : List ((String × String) × Int64) :=
  (List.groupCounts (fun s => (s.waitEventType, s.waitEvent))
    (view.clients.filter fun s => s.state = some "active")).map
      fun g => ((g.1.1.getD "", g.1.2.getD ""), .ofNat g.2)

/-- The client sessions in a transaction older than the threshold. -/
def longXactCount (threshold : Int64) : Int64 :=
  .ofNat (view.clients.countP fun s => s.xactAge.any fun age => (threshold.toInt : ℚ) < age)

end Activity

/-- What a server answers to the four queries, each of which may fail. -/
structure Server where
  backendCount : Option Int64
  stateRows : Option (List (String × Int64))
  waitRows : Option (List ((String × String) × Int64))
  longXactCount : Int64 → Option Int64

/-- The sessions at each of the four queries of a poll. -/
structure Views where
  backends : Activity
  states : Activity
  waits : Activity
  xacts : Activity

/-- What a server answers is what its sessions say, the rows of a grouped query in any order. -/
structure Server.Answers (server : Server) (views : Views) : Prop where
  backendCount : ∀ n ∈ server.backendCount, n = views.backends.backendCount
  stateRows : ∀ rows ∈ server.stateRows, rows.Perm views.states.stateRows
  waitRows : ∀ rows ∈ server.waitRows, rows.Perm views.waits.waitRows
  longXactCount : ∀ threshold, ∀ n ∈ server.longXactCount threshold,
    n = views.xacts.longXactCount threshold

/-- A server with these sessions that answers all four queries. -/
def Views.server (views : Views) : Server where
  backendCount := some views.backends.backendCount
  stateRows := some views.states.stateRows
  waitRows := some views.waits.waitRows
  longXactCount threshold := some (views.xacts.longXactCount threshold)

theorem Views.answers_server (views : Views) : views.server.Answers views := by
  constructor <;> simp [Views.server]

/-- Pairs are compared by their first components, then by their second. -/
instance instOrdWaitKey : Ord (String × String) := lexOrd

/-- One poll of the view. -/
structure SessionSnapshot where
  clientBackends : UInt64
  byState : Std.ExtTreeMap String UInt64
  byWait : Std.ExtTreeMap (String × String) UInt64
  longRunningXacts : UInt64

/-- `state.starts_with("idle in transaction")`. -/
def isIdleInXact (state : String) : Bool := "idle in transaction".toList.isPrefixOf state.toList

namespace SessionSnapshot

/-- The sessions in any "idle in transaction" state. -/
def idleInXact (snap : SessionSnapshot) : UInt64 :=
  snap.byState.toList.foldl
    (fun total entry =>
      if isIdleInXact entry.1 then total.saturatingAdd entry.2 else total) 0

/-- The active sessions that wait for a lock. -/
def activeWaitingOnLock (snap : SessionSnapshot) : UInt64 :=
  ((snap.byWait.toList.filter fun entry => entry.1.1 == "Lock").map Prod.snd).sum

end SessionSnapshot

/-- One poll: the four queries in turn, the first that fails being the end of it. -/
def poll (server : Server) (longXactThresholdSeconds : UInt64) : Option SessionSnapshot := do
  let total ← server.backendCount
  let stateRows ← server.stateRows
  let byState := .ofList (stateRows.map fun r => (r.1, r.2.clampToUInt64))
  let waitRows ← server.waitRows
  let byWait := .ofList (waitRows.map fun r => (r.1, r.2.clampToUInt64))
  let longRunningXacts ← server.longXactCount longXactThresholdSeconds.clampToInt64
  return { clientBackends := total.clampToUInt64, byState, byWait,
           longRunningXacts := longRunningXacts.clampToUInt64 }

/-! ### Counts -/

section counts

open Std (ExtTreeMap)

variable {κ : Type*} [Ord κ] [Std.TransOrd κ] [DecidableEq κ] {α : Type*}

/-- The map has the number of rows under each key of theirs. -/
def Counts (m : ExtTreeMap κ UInt64) (key : α → κ) (rows : List α) : Prop :=
  (m.toList.map fun entry => (entry.1, entry.2.toNat)).Perm (List.groupCounts key rows)

/-- What is read from the answer of a grouped query has the counts that were sent. -/
theorem counts_ofList [Std.LawfulEqOrd κ] {key : α → κ} {rows : List α}
    (hlength : rows.length < 2 ^ 63) {answer : List (κ × Int64)}
    (h : answer.Perm ((List.groupCounts key rows).map fun g => (g.1, Int64.ofNat g.2))) :
    Counts (.ofList (answer.map fun r => (r.1, r.2.clampToUInt64))) key rows := by
  have hread : ((answer.map fun r => (r.1, r.2.clampToUInt64)).map
      fun entry => (entry.1, entry.2.toNat)).Perm (List.groupCounts key rows) := by
    have hmap := h.map fun r : κ × Int64 => (r.1, r.2.clampToUInt64.toNat)
    rw [List.map_map] at hmap ⊢
    refine hmap.trans (.of_eq ?_)
    conv_rhs => rw [← List.map_id (List.groupCounts key rows)]
    refine List.map_congr_left ?_
    rintro ⟨k, n⟩ hn
    have hle := (List.mem_groupCounts_iff.mp hn).1.trans_le List.countP_le_length
    exact congrArg (Prod.mk k) (Int64.toNat_clampToUInt64_ofNat (hle.trans_lt hlength))
  have hkeys : ((answer.map fun r => (r.1, r.2.clampToUInt64)).map Prod.fst).Nodup := by
    have hperm := hread.map Prod.fst
    rw [List.map_map] at hperm
    exact hperm.nodup_iff.mpr List.nodup_keys_groupCounts
  exact ((ExtTreeMap.perm_toList_ofList hkeys).map _).trans hread

namespace Counts

variable {m : ExtTreeMap κ UInt64} {key : α → κ} {rows : List α}

/-- Adding up the entries under some keys counts the rows that have one of them. -/
theorem sum_filter (h : Counts m key rows) (p : κ → Bool) :
    ((m.toList.filter fun entry => p entry.1).map fun entry => entry.2.toNat).sum =
      rows.countP fun x => p (key x) := by
  have hperm := (h.filter fun g => p g.1).map Prod.snd
  rw [List.filter_map, List.map_map] at hperm
  rw [← List.sum_filter_groupCounts p, ← hperm.sum_eq]
  rfl

/-- What the map has under a key. -/
theorem getElem? [Std.LawfulEqOrd κ] (h : Counts m key rows) (k : κ) :
    (m[k]?.map UInt64.toNat).getD 0 = rows.countP fun x => key x = k := by
  have hmem : ∀ n, (k, n) ∈ List.groupCounts key rows ↔ m[k]?.map UInt64.toNat = some n := by
    intro n
    rw [← h.mem_iff, List.mem_map, Option.map_eq_some_iff]
    simp only [Prod.mk.injEq, Prod.exists, ← ExtTreeMap.mem_toList_iff_getElem?_eq_some]
    constructor
    · rintro ⟨k', v, hv, rfl, hn⟩
      exact ⟨v, hv, hn⟩
    · rintro ⟨v, hv, hn⟩
      exact ⟨k, v, hv, rfl, hn⟩
  rcases Nat.eq_zero_or_pos (rows.countP fun x => key x = k) with hzero | hpos
  · cases hm : m[k]? with
    | none => rw [hzero]; rfl
    | some v =>
      have hv := (hmem v.toNat).mpr (by rw [hm]; rfl)
      exact (List.mem_groupCounts_iff.mp hv).1
  · rw [(hmem _).mp (List.mem_groupCounts_iff.mpr ⟨rfl, hpos⟩)]
    rfl

end Counts

end counts

/-! ### What the queries count -/

theorem getD_inj {α : Type*} {d : α} {a b : Option α} (ha : a ≠ some d) (hb : b ≠ some d)
    (h : a.getD d = b.getD d) : a = b := by
  cases a <;> cases b <;> simp_all

namespace Activity

variable (view : Activity)

theorem length_clients_lt : view.clients.length < 2 ^ 63 :=
  (List.length_filter_le ..).trans_lt view.length_lt

/-- `<null>` stands for a missing state and nothing else. -/
theorem stateRows_eq : view.stateRows =
    (List.groupCounts (fun s => s.state.getD "<null>") view.clients).map
      fun g => (g.1, Int64.ofNat g.2) := by
  have hlabel := @List.groupCounts_relabel Session _ _ _ _ Session.state view.clients
    (fun state => state.getD "<null>")
    (fun s _ s' _ h => getD_inj s.state_ne s'.state_ne h)
  rw [stateRows, ← hlabel, List.map_map]
  rfl

/-- The empty names stand for missing ones and nothing else. -/
theorem waitRows_eq : view.waitRows =
    (List.groupCounts (fun s => (s.waitEventType.getD "", s.waitEvent.getD ""))
      (view.clients.filter fun s => s.state = some "active")).map
        fun g => (g.1, Int64.ofNat g.2) := by
  have hlabel := @List.groupCounts_relabel Session _ _ _ _
    (fun s => (s.waitEventType, s.waitEvent))
    (view.clients.filter fun s => s.state = some "active") (fun k => (k.1.getD "", k.2.getD ""))
    (fun s _ s' _ h => Prod.ext
      (getD_inj s.waitEventType_ne s'.waitEventType_ne (congrArg Prod.fst h))
      (getD_inj s.waitEvent_ne s'.waitEvent_ne (congrArg Prod.snd h)))
  rw [waitRows, ← hlabel, List.map_map]
  rfl

end Activity

/-! ### The snapshot -/

/-- Every number of a snapshot is the number of sessions it is named after. -/
structure SessionSnapshot.CountsSessions (snap : SessionSnapshot) (views : Views)
    (longXactThresholdSeconds : UInt64) : Prop where
  clientBackends : snap.clientBackends.toNat = views.backends.clients.length
  byState : ∀ state ≠ some "<null>", (snap.byState[state.getD "<null>"]?.map UInt64.toNat).getD 0 =
    views.states.clients.countP fun s => s.state = state
  byWait : ∀ waitEventType ≠ some "", ∀ waitEvent ≠ some "",
    (snap.byWait[(waitEventType.getD "", waitEvent.getD "")]?.map UInt64.toNat).getD 0 =
      views.waits.clients.countP fun s =>
        s.state = some "active" ∧ s.waitEventType = waitEventType ∧ s.waitEvent = waitEvent
  byState_sum : (snap.byState.toList.map fun entry => entry.2.toNat).sum =
    views.states.clients.length
  idleInXact : snap.idleInXact.toNat =
    views.states.clients.countP fun s => s.state.any isIdleInXact
  activeWaitingOnLock : snap.activeWaitingOnLock.toNat =
    views.waits.clients.countP fun s => s.state = some "active" ∧ s.waitEventType = some "Lock"
  longRunningXacts : snap.longRunningXacts.toNat = views.xacts.clients.countP fun s =>
    s.xactAge.any fun age => ((min longXactThresholdSeconds.toNat (2 ^ 63 - 1) : ℕ) : ℚ) < age

section derived

variable {view : Activity} {snap : SessionSnapshot}

theorem toNat_idleInXact
    (h : Counts snap.byState (fun s : Session => s.state.getD "<null>") view.clients) :
    snap.idleInXact.toNat = view.clients.countP fun s => s.state.any isIdleInXact := by
  have hcount : view.clients.countP (fun s => isIdleInXact (s.state.getD "<null>")) =
      view.clients.countP fun s => s.state.any isIdleInXact := by
    refine List.countP_congr ?_
    intro s _
    cases hs : s.state with
    | none => exact iff_of_false (by decide) (by simp)
    | some state => rfl
  have hsum := (h.sum_filter isIdleInXact).trans hcount
  have hlt : (view.clients.countP fun s => s.state.any isIdleInXact) < 2 ^ 63 :=
    List.countP_le_length.trans_lt view.length_clients_lt
  rw [SessionSnapshot.idleInXact, ← List.foldl_filter, ← List.foldl_map,
    UInt64.toNat_foldl_saturatingAdd, List.map_map, Function.comp_def, hsum, UInt64.toNat_zero]
  omega

theorem toNat_activeWaitingOnLock
    (h : Counts snap.byWait (fun s : Session => (s.waitEventType.getD "", s.waitEvent.getD ""))
      (view.clients.filter fun s => s.state = some "active")) :
    snap.activeWaitingOnLock.toNat =
      view.clients.countP fun s => s.state = some "active" ∧ s.waitEventType = some "Lock" := by
  have hcount : (view.clients.filter fun s => s.state = some "active").countP
        (fun s => s.waitEventType.getD "" == "Lock") =
      view.clients.countP fun s => s.state = some "active" ∧ s.waitEventType = some "Lock" := by
    rw [List.countP_filter]
    refine List.countP_congr ?_
    intro s _
    cases s.waitEventType <;> simp [and_comm]
  have hsum := (h.sum_filter fun k => k.1 == "Lock").trans hcount
  have hlt : (view.clients.countP fun s =>
      s.state = some "active" ∧ s.waitEventType = some "Lock") < 2 ^ 63 :=
    List.countP_le_length.trans_lt view.length_clients_lt
  rw [SessionSnapshot.activeWaitingOnLock, UInt64.toNat_sum, List.map_map, Function.comp_def, hsum]
  rw [List.map_map, Function.comp_def, hsum]
  omega

end derived

/-- A poll succeeds when all four queries do. -/
theorem poll_eq_some {server : Server} {threshold : UInt64} {snap : SessionSnapshot} :
    poll server threshold = some snap ↔ ∃ total states waits xacts,
      server.backendCount = some total ∧ server.stateRows = some states ∧
      server.waitRows = some waits ∧ server.longXactCount threshold.clampToInt64 = some xacts ∧
      snap = { clientBackends := total.clampToUInt64
               byState := .ofList (states.map fun r => (r.1, r.2.clampToUInt64))
               byWait := .ofList (waits.map fun r => (r.1, r.2.clampToUInt64))
               longRunningXacts := xacts.clampToUInt64 } := by
  simp [poll, Option.bind_eq_some_iff, eq_comm (a := snap)]

/-- **A snapshot counts sessions.** Whatever order the server lists its groups in, every number of
the snapshot is exactly the number of sessions, at the time of its query, that it is named after. -/
theorem countsSessions_of_poll {server : Server} {views : Views} (h : server.Answers views)
    {threshold : UInt64} {snap : SessionSnapshot} (hpoll : poll server threshold = some snap) :
    snap.CountsSessions views threshold := by
  obtain ⟨total, states, waits, xacts, htotal, hstates, hwaits, hxacts, rfl⟩ :=
    poll_eq_some.mp hpoll
  have hbyState := counts_ofList views.states.length_clients_lt
    ((h.stateRows states hstates).trans (.of_eq views.states.stateRows_eq))
  have hactive : (views.waits.clients.filter fun s => s.state = some "active").length < 2 ^ 63 :=
    (List.length_filter_le ..).trans_lt views.waits.length_clients_lt
  have hbyWait := counts_ofList hactive
    ((h.waitRows waits hwaits).trans (.of_eq views.waits.waitRows_eq))
  constructor
  case clientBackends =>
    rw [h.backendCount total htotal]
    exact Int64.toNat_clampToUInt64_ofNat views.backends.length_clients_lt
  case byState =>
    intro state hstate
    rw [hbyState.getElem?]
    refine List.countP_congr ?_
    intro s _
    simp only [decide_eq_true_eq]
    exact ⟨getD_inj s.state_ne hstate, fun heq => by rw [heq]⟩
  case byWait =>
    intro waitEventType htype waitEvent hevent
    rw [hbyWait.getElem?, List.countP_filter]
    refine List.countP_congr ?_
    intro s _
    simp only [Bool.and_eq_true, decide_eq_true_eq, Prod.mk.injEq]
    constructor
    · rintro ⟨⟨htypes, hevents⟩, hs⟩
      exact ⟨hs, getD_inj s.waitEventType_ne htype htypes, getD_inj s.waitEvent_ne hevent hevents⟩
    · rintro ⟨hs, rfl, rfl⟩
      exact ⟨⟨rfl, rfl⟩, hs⟩
  case byState_sum =>
    have hsum := hbyState.sum_filter fun _ => true
    rwa [List.filter_true, List.countP_true] at hsum
  case idleInXact => exact toNat_idleInXact hbyState
  case activeWaitingOnLock => exact toNat_activeWaitingOnLock hbyWait
  case longRunningXacts =>
    rw [h.longXactCount _ xacts hxacts, Activity.longXactCount, UInt64.toInt_clampToInt64]
    exact Int64.toNat_clampToUInt64_ofNat
      (List.countP_le_length.trans_lt views.xacts.length_clients_lt)

end StatActivity

end PgSleuth
