import PgSleuth.Ebpf.Correlation
import PgSleuth.ForMathlib.Components

/-!
# What becomes of a request

The kernel programs see issues and completions, and the map between them has 8192 places. An issue
is stored, or takes the place of an earlier issue of its key, or is refused because the map is full.
A completion finds its key or does not. Over a whole run the books balance: what was stored has been
matched or is still there.

An entry goes away only when a completion of its key is seen. A map full of requests whose
completions never come therefore stays full, and from then on nothing else is measured.

## Main definitions

* `Fate`, `fate` — what becomes of one event
* `fates` — what became of the events of a run
* `matchedContexts` — the completions that found their keys

## Main results

* `requests_accounted_for` — the books of a run
* `blind_once_full` — a map full of unfinished requests measures nothing any more
-/

namespace PgSleuth

/-- What becomes of an event a program acts on. -/
inductive Fate
  /-- An issue that takes a free place. -/
  | stored
  /-- An issue that replaces an earlier one of its key. -/
  | replaced
  /-- An issue for which there is no place. -/
  | refused
  /-- A completion that finds its key. -/
  | matched
  /-- A completion that does not. -/
  | unmatched
deriving DecidableEq

/-- What becomes of an event, when a program acts on it. -/
def fate (config : Option FilterConfig) (inflight : Inflight) : BlockRqEvent → Option Fate
  | .issue ctx => (observedKey config ctx).map fun key =>
    if (inflight.get key).isSome then .replaced
    else if inflight.size < 8192 then .stored
    else .refused
  | .complete ctx => (observedKey config ctx).map fun key =>
    if (inflight.get key).isSome then .matched else .unmatched

/-- What became of the events of a run. -/
def fates (config : Option FilterConfig) (evs : List BlockRqEvent) : List Fate :=
  Mealy.fed (blockRqStep config) (fun inflight ev => (fate config inflight ev).toList)
    BoundedMap.empty evs

/-- The context of a completion that finds its key. -/
def matchedContext (config : Option FilterConfig) (inflight : Inflight) (ev : BlockRqEvent) :
    Option BlockRqContext :=
  if fate config inflight ev = some .matched then some ev.ctx else none

/-- The contexts of the completions of a run that found their keys. -/
def matchedContexts (config : Option FilterConfig) (evs : List BlockRqEvent) :
    List BlockRqContext :=
  Mealy.fed (blockRqStep config) (fun inflight ev => (matchedContext config inflight ev).toList)
    BoundedMap.empty evs

/-- Whether an event is an issue that a program acts on. -/
def BlockRqEvent.isObservedIssue (config : Option FilterConfig) : BlockRqEvent → Bool
  | .issue ctx => (observedKey config ctx).isSome
  | .complete _ => false

/-- The record of the latency ring, if it is one. -/
def RingRecord.latencyEvent : RingRecord → Option BlockIoLatencyEvent
  | .block _ => none
  | .latency event => some event

variable (config : Option FilterConfig)

/-! ### One event -/

/-- How an event changes the number of entries. -/
theorem size_blockRqStep (inflight : Inflight) (ev : BlockRqEvent) :
    (blockRqStep config inflight ev).1.size + (fate config inflight ev).toList.count .matched =
      inflight.size + (fate config inflight ev).toList.count .stored := by
  cases hobs : observedKey config ev.ctx with
  | none =>
    rw [blockRqStep_of_observedKey_eq_none hobs]
    cases ev <;> rw [BlockRqEvent.ctx] at hobs <;> simp [fate, hobs]
  | some key =>
    cases ev with
    | issue ctx =>
      rw [BlockRqEvent.ctx] at hobs
      rw [blockRqStep_issue hobs, fate, hobs]
      cases hget : inflight.get key with
      | some ts =>
        cases hins : inflight.insert key ctx.ktimeNs with
        | none =>
          rw [BoundedMap.get_eq_none_of_insert_eq_none hins] at hget
          cases hget
        | some inflight' => simp [BoundedMap.size_of_insert hins, hget]
      | none =>
        cases hins : inflight.insert key ctx.ktimeNs with
        | none => simp [BoundedMap.size_of_insert_eq_none hins, hget]
        | some inflight' =>
          have hsize : inflight.size < 8192 := by
            have hle := inflight'.size_le
            rw [BoundedMap.size_of_insert hins, hget] at hle
            simpa [Nat.succ_le_iff] using hle
          simp [BoundedMap.size_of_insert hins, hget, hsize]
    | complete ctx =>
      rw [BlockRqEvent.ctx] at hobs
      rw [blockRqStep_complete hobs, fate, hobs]
      cases hget : inflight.get key with
      | none => simp [hget]
      | some ts => simpa [hget] using BoundedMap.size_remove hget

/-- An issue that a program acts on has one of three fates, and nothing else has them. -/
theorem count_issue_fates (inflight : Inflight) (ev : BlockRqEvent) :
    (fate config inflight ev).toList.count .stored +
        (fate config inflight ev).toList.count .replaced +
        (fate config inflight ev).toList.count .refused =
      [ev].countP (BlockRqEvent.isObservedIssue config) := by
  cases ev with
  | issue ctx =>
    cases hobs : observedKey config ctx with
    | none => simp [fate, hobs, BlockRqEvent.isObservedIssue]
    | some key =>
      simp only [fate, hobs, Option.map_some]
      split_ifs <;> simp [BlockRqEvent.isObservedIssue, hobs]
  | complete ctx =>
    cases hobs : observedKey config ctx with
    | none => simp [fate, hobs, BlockRqEvent.isObservedIssue]
    | some key =>
      simp only [fate, hobs, Option.map_some]
      split_ifs <;> simp [BlockRqEvent.isObservedIssue]

/-- An issue puts nothing on the latency ring. -/
theorem latencyEvent_issue (inflight : Inflight) (ctx : BlockRqContext) :
    (blockRqStep config inflight (.issue ctx)).2.bind RingRecord.latencyEvent = none := by
  cases h : (pgsleuthBlockRqIssue config inflight ctx).2 <;>
    simp [blockRqStep, RingRecord.latencyEvent, h]

/-- A completion is matched when its context is. -/
theorem length_matchedContext (inflight : Inflight) (ev : BlockRqEvent) :
    (matchedContext config inflight ev).toList.length =
      (fate config inflight ev).toList.count .matched := by
  rw [matchedContext]
  split
  · next h => simp [h]
  · next h =>
    cases hfate : fate config inflight ev with
    | none => simp
    | some f =>
      rw [hfate, Option.some.injEq] at h
      simp [h]

/-- A latency record comes of a matched completion, and of every one that finds room. -/
theorem length_latencyEvent (inflight : Inflight) (ev : BlockRqEvent) :
    ((blockRqStep config inflight ev).2.bind RingRecord.latencyEvent).toList.length =
      (matchedContext config inflight ev).toList.countP BlockRqContext.reserve := by
  cases hobs : observedKey config ev.ctx with
  | none =>
    rw [blockRqStep_of_observedKey_eq_none hobs, matchedContext]
    cases ev <;> rw [BlockRqEvent.ctx] at hobs <;> simp [fate, hobs]
  | some key =>
    cases ev with
    | issue ctx =>
      rw [BlockRqEvent.ctx] at hobs
      rw [latencyEvent_issue, matchedContext, fate, hobs]
      simp only [Option.map_some]
      split_ifs <;> simp_all
    | complete ctx =>
      rw [BlockRqEvent.ctx] at hobs
      rw [blockRqStep_complete hobs, matchedContext, fate, hobs, BlockRqEvent.ctx]
      cases hget : inflight.get key <;> cases hres : ctx.reserve <;>
        simp [RingRecord.latencyEvent, hget, hres]

/-! ### A run -/

/-- The latency records of a run. -/
def latencyRecords (evs : List BlockRqEvent) : List BlockIoLatencyEvent :=
  (Mealy.outputs (blockRqStep config) BoundedMap.empty evs).filterMap fun o =>
    o.bind RingRecord.latencyEvent

theorem fates_append (evs : List BlockRqEvent) (ev : BlockRqEvent) :
    fates config (evs ++ [ev]) =
      fates config evs ++ (fate config (inflightAfter config evs) ev).toList := by
  simp [fates, inflightAfter]

theorem inflightAfter_append (evs evs' : List BlockRqEvent) :
    inflightAfter config (evs ++ evs') =
      Mealy.final (blockRqStep config) (inflightAfter config evs) evs' :=
  Mealy.final_append ..

theorem latencyRecords_append (evs : List BlockRqEvent) (ev : BlockRqEvent) :
    latencyRecords config (evs ++ [ev]) = latencyRecords config evs ++
      ((blockRqStep config (inflightAfter config evs) ev).2.bind
        RingRecord.latencyEvent).toList := by
  rw [latencyRecords, latencyRecords, Mealy.outputs_append, List.filterMap_append,
    List.filterMap_eq_flatMap_toList _ (Mealy.outputs _ _ [ev])]
  simp [inflightAfter]

theorem matchedContexts_append (evs : List BlockRqEvent) (ev : BlockRqEvent) :
    matchedContexts config (evs ++ [ev]) =
      matchedContexts config evs ++
        (matchedContext config (inflightAfter config evs) ev).toList := by
  simp [matchedContexts, inflightAfter]

/-- **Every request is accounted for.** In every run, of any issues and completions in any order:

* each issue a program acts on is stored, or replaces an earlier one, or is refused;
* what was stored has been matched by a completion or is in the map;
* and there are as many latency records as matched completions for which the ring buffer had
  room. -/
theorem requests_accounted_for (evs : List BlockRqEvent) :
    let n (f : Fate) := (fates config evs).count f
    n .stored + n .replaced + n .refused = evs.countP (BlockRqEvent.isObservedIssue config) ∧
      n .stored = n .matched + (inflightAfter config evs).size ∧
      (matchedContexts config evs).length = n .matched ∧
      (latencyRecords config evs).length =
        (matchedContexts config evs).countP BlockRqContext.reserve := by
  intro n
  simp only [n]
  clear n
  induction evs using List.reverseRecOn with
  | nil => simp [fates, matchedContexts, latencyRecords, inflightAfter]
  | append_singleton evs ev ih =>
    obtain ⟨hissues, hbalance, hmatched, hrecords⟩ := ih
    have hone := count_issue_fates config (inflightAfter config evs) ev
    have hsize := size_blockRqStep config (inflightAfter config evs) ev
    have hcontext := length_matchedContext config (inflightAfter config evs) ev
    have hlen := length_latencyEvent config (inflightAfter config evs) ev
    simp only [fates_append, matchedContexts_append, latencyRecords_append, inflightAfter_append,
      List.count_append, List.countP_append, List.length_append, Mealy.final_cons, Mealy.final_nil]
    exact ⟨by omega, by omega, by omega, by omega⟩

/-! ### A map full of unfinished requests -/

/-- Without a completion of one of its keys, one event leaves the keys of a full map as they are and
puts nothing on the latency ring. -/
theorem blockRqStep_of_full {inflight : Inflight} (hfull : inflight.size = 8192)
    (ev : BlockRqEvent)
    (hquiet : ∀ ctx key, ev = .complete ctx → observedKey config ctx = some key →
      inflight.get key = none) :
    (blockRqStep config inflight ev).2.bind RingRecord.latencyEvent = none ∧
      (blockRqStep config inflight ev).1.size = 8192 ∧
      ∀ key, ((blockRqStep config inflight ev).1.get key).isSome = (inflight.get key).isSome := by
  cases hobs : observedKey config ev.ctx with
  | none =>
    rw [blockRqStep_of_observedKey_eq_none hobs]
    exact ⟨rfl, hfull, fun _ => rfl⟩
  | some key =>
    cases ev with
    | complete ctx =>
      rw [BlockRqEvent.ctx] at hobs
      rw [blockRqStep_complete hobs, hquiet ctx key rfl hobs]
      exact ⟨rfl, hfull, fun _ => rfl⟩
    | issue ctx =>
      rw [BlockRqEvent.ctx] at hobs
      refine ⟨latencyEvent_issue config inflight ctx, ?_⟩
      rw [blockRqStep_issue hobs]
      cases hget : inflight.get key with
      | none =>
        -- there is no place for a new key
        rw [BoundedMap.insert_eq_none_of_size _ hfull hget]
        exact ⟨hfull, fun _ => rfl⟩
      | some ts =>
        cases hins : inflight.insert key ctx.ktimeNs with
        | none => exact ⟨hfull, fun _ => rfl⟩
        | some inflight' =>
          rw [Option.getD_some]
          refine ⟨by rw [BoundedMap.size_of_insert hins, hget]; exact hfull, fun key' => ?_⟩
          by_cases hkey : key' = key
          · subst hkey
            rw [BoundedMap.get_of_insert hins, hget]
            rfl
          · rw [BoundedMap.get_of_insert_ne hins hkey]

/-- **A map full of unfinished requests measures nothing any more.** Once all places are taken, and
until a completion of one of the requests that take them is seen, no latency record is put out and
the same requests stay in the map, whatever else is issued and completed. -/
theorem blind_once_full (pre post : List BlockRqEvent)
    (hfull : (inflightAfter config pre).size = 8192)
    (hquiet : ∀ ctx key, .complete ctx ∈ post → observedKey config ctx = some key →
      (inflightAfter config pre).get key = none) :
    latencyRecords config (pre ++ post) = latencyRecords config pre ∧
      ∀ key, ((inflightAfter config (pre ++ post)).get key).isSome =
        ((inflightAfter config pre).get key).isSome := by
  suffices h : latencyRecords config (pre ++ post) = latencyRecords config pre ∧
      (inflightAfter config (pre ++ post)).size = 8192 ∧
      ∀ key, ((inflightAfter config (pre ++ post)).get key).isSome =
        ((inflightAfter config pre).get key).isSome from ⟨h.1, h.2.2⟩
  induction post using List.reverseRecOn with
  | nil => simp [hfull]
  | append_singleton post ev ih =>
    obtain ⟨hrecords, hsize, hkeys⟩ := ih fun ctx key hctx =>
      hquiet ctx key (List.mem_append_left _ hctx)
    obtain ⟨hout, hsize', hkeys'⟩ := blockRqStep_of_full config hsize ev
      fun ctx key hev hobs => by
        have hnone := hquiet ctx key (by simp [hev]) hobs
        rw [← Option.not_isSome_iff_eq_none] at hnone ⊢
        rwa [hkeys key]
    rw [← List.append_assoc, latencyRecords_append, hout, inflightAfter_append]
    exact ⟨by simpa using hrecords, hsize', fun key => (hkeys' key).trans (hkeys key)⟩

/-- Requests of different keys that are issued and never completed each take a place. -/
theorem inflightAfter_issues (ctxOf : RqKey → BlockRqContext) {keys : List RqKey}
    (hobs : ∀ key ∈ keys, observedKey config (ctxOf key) = some key) (hnodup : keys.Nodup)
    (hlen : keys.length ≤ 8192) :
    (inflightAfter config (keys.map fun key => .issue (ctxOf key))).size = keys.length ∧
      ∀ key, ((inflightAfter config (keys.map fun key => .issue (ctxOf key))).get key).isSome =
        true ↔ key ∈ keys := by
  induction keys using List.reverseRecOn with
  | nil => exact ⟨rfl, fun key => by simp [inflightAfter]⟩
  | append_singleton keys key ih =>
    rw [List.length_append, List.length_singleton] at hlen
    obtain ⟨hkeys, -, hdisjoint⟩ := List.nodup_append.mp hnodup
    have hnew : key ∉ keys := fun hmem => hdisjoint key hmem key (by simp) rfl
    obtain ⟨hsize, hget⟩ := ih (fun key' hmem => hobs key' (List.mem_append_left _ hmem)) hkeys
      (Nat.le_of_succ_le hlen)
    have hone := hobs key (by simp)
    rw [List.map_append, inflightAfter_append]
    generalize inflightAfter config (keys.map fun key => .issue (ctxOf key)) = inflight at *
    have habsent : inflight.get key = none := by
      rw [← Option.not_isSome_iff_eq_none, hget]
      exact hnew
    obtain ⟨inflight', hins⟩ :
        ∃ inflight', inflight.insert key (ctxOf key).ktimeNs = some inflight' := by
      refine Option.ne_none_iff_exists'.mp fun hins => ?_
      have := BoundedMap.size_of_insert_eq_none hins
      omega
    rw [List.map_singleton, Mealy.final_cons, Mealy.final_nil, blockRqStep_issue hone, hins,
      Option.getD_some]
    refine ⟨by simp [BoundedMap.size_of_insert hins, habsent, hsize], fun key' => ?_⟩
    by_cases hkey : key' = key
    · subst hkey
      simp [BoundedMap.get_of_insert hins]
    · simp [BoundedMap.get_of_insert_ne hins hkey, hget, hkey]

/-- The configuration without any filter. -/
def noFilter : FilterConfig := ⟨0, 0, Vector.replicate 16 0, 0⟩

/-- The requests that fill the map: one each of the first 8192 sectors of one disk. -/
def stuckRequests : List RqKey := (List.range 8192).map fun k => ⟨8, UInt64.ofNat k⟩

theorem nodup_stuckRequests : stuckRequests.Nodup := by
  refine List.Nodup.map_on ?_ List.nodup_range
  intro j hj k hk h
  rw [List.mem_range] at hj hk
  have hsector := congrArg (fun key : RqKey => key.sector.toNat) h
  simp only [UInt64.toNat_ofNat'] at hsector
  omega

/-- The request of another disk after that is not measured. -/
theorem blind_once_full_stuckRequests :
    let pre : List BlockRqEvent :=
      stuckRequests.map fun key => .issue (.readable key.dev key.sector 0)
    let post : List BlockRqEvent :=
      [.issue (.readable 9 100 1000), .complete (.readable 9 100 2000)]
    (inflightAfter (some noFilter) pre).size = 8192 ∧
      latencyRecords (some noFilter) (pre ++ post) = latencyRecords (some noFilter) pre := by
  intro pre post
  have hobs (key : RqKey) : observedKey (some noFilter) (.readable key.dev key.sector 0) =
      some key := by
    simp [observedKey, BlockRqContext.key?, BlockRqContext.readable, passDevFilter, noFilter,
      Option.filter_some]
  have hlen : stuckRequests.length = 8192 := by simp [stuckRequests]
  obtain ⟨hsize, hkeys⟩ := inflightAfter_issues (some noFilter)
    (fun key => .readable key.dev key.sector 0) (fun key _ => hobs key)
    nodup_stuckRequests (Nat.le_of_eq hlen)
  have hfull : (inflightAfter (some noFilter) pre).size = 8192 := hsize.trans hlen
  refine ⟨hfull, (blind_once_full (some noFilter) pre post hfull ?_).1⟩
  intro ctx key hctx hkey
  obtain rfl : ctx = .readable 9 100 2000 := by simpa [post] using hctx
  obtain rfl : key = ⟨9, 100⟩ := by
    have h := observedKey_some.mp hkey
    simpa [BlockRqContext.key?, BlockRqContext.readable, eq_comm] using h.1
  have hother : (⟨9, 100⟩ : RqKey) ∉ stuckRequests := by simp [stuckRequests]
  rw [← Option.not_isSome_iff_eq_none, hkeys]
  exact hother

end PgSleuth
