import PgSleuth.Ebpf.BlockLatency

/-!
# Correlating completions with issues

What the `INFLIGHT` map is for, as a statement about traces. The kernel programs never see a
trace: each firing knows the map, its own record and the clock. The claim that a reported latency
belongs to an issue is therefore a claim about every interleaving of the two tracepoints, over any
devices and sectors, including refused insertions, repeated issues, completions with no issue and
a full ring buffer.

## The invariant

`LatestIssue`: an entry `key ↦ ts` in the map is always the clock reading of the last event of
`key`, and that event is an issue. Overwriting keeps it because the newer issue is the later one;
a refused insertion keeps it because only an absent key can be refused; a completion keeps it
because it deletes.

## Requests

The map key is `(dev, sector)`, not the request. A `RequestTrace` tags the events with request
identities, and says what the programs cannot: whether the matched issue was the request's own.

## Main results

* `latestIssue_of_get` — the invariant
* `latencyAt_iff` — when a latency record is emitted, and what it says
* `latency_events_match_issues` — nothing is lost, duplicated or mismeasured
* `latency_eq_own_iff` — when the matched issue is the request's own
-/

namespace PgSleuth

/-! ### Traces -/

/-- The map after a trace, from boot. -/
def inflightAfter (config : Option FilterConfig) (evs : List BlockRqEvent) : Inflight :=
  Mealy.final (blockRqStep config) BoundedMap.empty evs

/-- The event at index `c` puts the record `e` on the latency ring. -/
def LatencyAt (config : Option FilterConfig) (evs : List BlockRqEvent) (c : ℕ)
    (e : BlockIoLatencyEvent) : Prop :=
  (Mealy.outputs (blockRqStep config) BoundedMap.empty evs)[c]? = some (some (.latency e))

instance (config : Option FilterConfig) (evs : List BlockRqEvent) (c : ℕ)
    (e : BlockIoLatencyEvent) : Decidable (LatencyAt config evs c e) :=
  inferInstanceAs (Decidable (_ = _))

/-- Clock readings never go backwards along the trace. -/
def ClockMonotone (evs : List BlockRqEvent) : Prop :=
  evs.Pairwise fun a b => a.ctx.ktimeNs ≤ b.ctx.ktimeNs

instance (evs : List BlockRqEvent) : Decidable (ClockMonotone evs) :=
  inferInstanceAs (Decidable (List.Pairwise _ evs))

/-- Strictly between two indices there is neither an issue nor a completion of `key`. -/
def QuietBetween (evs : List BlockRqEvent) (key : RqKey) (i c : ℕ) : Prop :=
  ∀ j ev, i < j → j < c → evs[j]? = some ev → ev.ctx.key? ≠ some key

/-- The last event of `key` is an issue that passed the filter at clock reading `ts`. -/
def LatestIssue (config : Option FilterConfig) (evs : List BlockRqEvent) (key : RqKey)
    (ts : UInt64) : Prop :=
  ∃ i ctx, evs[i]? = some (.issue ctx) ∧ observedKey config ctx = some key ∧ ctx.ktimeNs = ts ∧
    QuietBetween evs key i evs.length

/-- An event with another key leaves the last event of `key` where it is. -/
theorem LatestIssue.concat {config : Option FilterConfig} {evs : List BlockRqEvent} {key : RqKey}
    {ts : UInt64} (h : LatestIssue config evs key ts) {ev : BlockRqEvent}
    (hev : observedKey config ev.ctx ≠ some key) : LatestIssue config (evs ++ [ev]) key ts := by
  obtain ⟨i, ctx, hi, hkey, hts, hquiet⟩ := h
  have hlt : i < evs.length := (List.getElem?_eq_some_iff.mp hi).1
  refine ⟨i, ctx, by rwa [List.getElem?_append_left hlt], hkey, hts, ?_⟩
  intro j ev' hij hj hev' hcon
  rw [List.length_append, List.length_singleton] at hj
  rcases Nat.lt_or_ge j evs.length with hjl | hjl
  · rw [List.getElem?_append_left hjl] at hev'
    exact hquiet j ev' hij hjl hev' hcon
  · obtain rfl : j = evs.length := by omega
    obtain rfl : ev = ev' := by simpa using hev'
    -- the key is the same and passed the filter once, so it would pass it here
    refine hev ?_
    cases config with
    | none => simp [observedKey] at hkey
    | some config => exact observedKey_some.mpr ⟨hcon, (observedKey_some.mp hkey).2⟩

/-- An issue of `key` that reaches the map is the last event of `key`. -/
theorem latestIssue_concat_issue {config : Option FilterConfig} {evs : List BlockRqEvent}
    {key : RqKey} {ctx : BlockRqContext} (h : observedKey config ctx = some key) :
    LatestIssue config (evs ++ [.issue ctx]) key ctx.ktimeNs := by
  refine ⟨evs.length, ctx, by simp, h, rfl, ?_⟩
  intro j ev hj hj'
  rw [List.length_append, List.length_singleton] at hj'
  omega

/-- **The invariant.** Whatever the map holds for a key is the clock reading of the last event of
that key, which is an issue. -/
theorem latestIssue_of_get {config : Option FilterConfig} {evs : List BlockRqEvent} :
    ∀ {key : RqKey} {ts : UInt64}, (inflightAfter config evs).get key = some ts →
      LatestIssue config evs key ts := by
  refine Mealy.final_induction (blockRqStep config)
    (P := fun evs inflight => ∀ {key : RqKey} {ts : UInt64}, inflight.get key = some ts →
      LatestIssue config evs key ts) ?_ ?_ evs
  · intro key ts h
    simp at h
  · intro evs ev ih key ts h
    generalize Mealy.final (blockRqStep config) BoundedMap.empty evs = inflight at ih h
    cases hobs : observedKey config ev.ctx with
    | none =>
      rw [blockRqStep_of_observedKey_eq_none hobs] at h
      exact (ih h).concat (by simp [hobs])
    | some key' =>
      cases ev with
      | issue ctx =>
        rw [BlockRqEvent.ctx] at hobs
        rw [blockRqStep_issue hobs] at h
        cases hins : inflight.insert key' ctx.ktimeNs with
        | none =>
          rw [hins, Option.getD_none] at h
          refine (ih h).concat ?_
          intro hcon
          -- a refused key is absent
          obtain rfl : key' = key := by simpa [BlockRqEvent.ctx, hobs] using hcon
          rw [BoundedMap.get_eq_none_of_insert_eq_none hins] at h
          cases h
        | some inflight' =>
          rw [hins, Option.getD_some] at h
          by_cases hkey : key = key'
          · subst hkey
            rw [BoundedMap.get_of_insert hins] at h
            cases h
            exact latestIssue_concat_issue hobs
          · rw [BoundedMap.get_of_insert_ne hins hkey] at h
            refine (ih h).concat fun hcon => hkey ?_
            simpa [BlockRqEvent.ctx, hobs, eq_comm] using hcon
      | complete ctx =>
        rw [BlockRqEvent.ctx] at hobs
        rw [blockRqStep_complete hobs] at h
        cases hget : inflight.get key' with
        | none =>
          rw [hget] at h
          refine (ih h).concat ?_
          intro hcon
          obtain rfl : key' = key := by simpa [BlockRqEvent.ctx, hobs] using hcon
          rw [hget] at h
          cases h
        | some issueTs =>
          rw [hget] at h
          by_cases hkey : key = key'
          · subst hkey
            simp at h
          · simp only [BoundedMap.get_remove_of_ne _ hkey] at h
            refine (ih h).concat fun hcon => hkey ?_
            simpa [BlockRqEvent.ctx, hobs, eq_comm] using hcon

/-! ### Emissions -/

/-- **When a latency record is emitted, and what it says**: a completion whose key is in the map,
on a ring buffer with room. -/
theorem latencyAt_iff {config : Option FilterConfig} {evs : List BlockRqEvent} {c : ℕ}
    {e : BlockIoLatencyEvent} :
    LatencyAt config evs c e ↔
      ∃ ctx key issueTs, evs[c]? = some (.complete ctx) ∧ observedKey config ctx = some key ∧
        (inflightAfter config (evs.take c)).get key = some issueTs ∧ ctx.reserve = true ∧
        e = { dev := key.dev
              opClass := classifyRwbs (ctx.rwbs.getD (Vector.replicate 8 0))
              bytes := (ctx.nrSector.getD 0).saturatingMul sectorSizeBytes
              latencyNs := ctx.ktimeNs.saturatingSub issueTs } := by
  rw [LatencyAt, Mealy.getElem?_outputs, Option.map_eq_some_iff]
  change (∃ ev, evs[c]? = some ev ∧
    (blockRqStep config (inflightAfter config (evs.take c)) ev).2 = some (.latency e)) ↔ _
  generalize inflightAfter config (evs.take c) = inflight
  constructor
  · rintro ⟨ev, hev, hout⟩
    cases hobs : observedKey config ev.ctx with
    | none =>
      rw [blockRqStep_of_observedKey_eq_none hobs] at hout
      cases hout
    | some key =>
      cases ev with
      | issue ctx => simp [blockRqStep] at hout
      | complete ctx =>
        rw [BlockRqEvent.ctx] at hobs
        rw [blockRqStep_complete hobs] at hout
        cases hget : inflight.get key with
        | none => simp [hget] at hout
        | some issueTs =>
          cases hres : ctx.reserve with
          | false => simp [hget, hres] at hout
          | true =>
            simp only [hget, hres, if_true, Option.some.injEq, RingRecord.latency.injEq] at hout
            exact ⟨ctx, key, issueTs, hev, hobs, hget, hres, hout.symm⟩
  · rintro ⟨ctx, key, issueTs, hev, hobs, hget, hres, rfl⟩
    refine ⟨.complete ctx, hev, ?_⟩
    rw [blockRqStep_complete hobs]
    simp [hget, hres]

/-- The completion at index `c` and the issue at index `i` belong together: they have one key,
which passes the filter, and nothing of that key happens between them. -/
structure Matched (config : FilterConfig) (evs : List BlockRqEvent) (i c : ℕ) (key : RqKey)
    (issueCtx completeCtx : BlockRqContext) : Prop where
  before : i < c
  issue : evs[i]? = some (.issue issueCtx)
  complete : evs[c]? = some (.complete completeCtx)
  issueKey : issueCtx.key? = some key
  completeKey : completeCtx.key? = some key
  passes : passDevFilter config key.dev = true
  quiet : QuietBetween evs key i c

theorem ClockMonotone.le {evs : List BlockRqEvent} (h : ClockMonotone evs) {i c : ℕ}
    {a b : BlockRqEvent} (hic : i ≤ c) (ha : evs[i]? = some a) (hb : evs[c]? = some b) :
    a.ctx.ktimeNs.toNat ≤ b.ctx.ktimeNs.toNat := by
  obtain ⟨hi, rfl⟩ := List.getElem?_eq_some_iff.mp ha
  obtain ⟨hc, rfl⟩ := List.getElem?_eq_some_iff.mp hb
  rcases Nat.lt_or_ge i c with hlt | hge
  · exact UInt64.le_iff_toNat_le.mp (List.pairwise_iff_getElem.mp h i c hi hc hlt)
  · obtain rfl : i = c := by omega
    exact Nat.le_refl _

/-- Every emitted record has its matched issue, and measures the time since exactly. -/
theorem exists_matched_of_latencyAt {config : FilterConfig} {evs : List BlockRqEvent}
    (hclock : ClockMonotone evs) {c : ℕ} {e : BlockIoLatencyEvent}
    (he : LatencyAt (some config) evs c e) :
    ∃ i key issueCtx completeCtx, Matched config evs i c key issueCtx completeCtx ∧
      e.dev = key.dev ∧
      completeCtx.ktimeNs.toNat = issueCtx.ktimeNs.toNat + e.latencyNs.toNat := by
  obtain ⟨ctx, key, issueTs, hc, hobs, hget, -, rfl⟩ := latencyAt_iff.mp he
  obtain ⟨i, issueCtx, hi, hikey, rfl, hquiet⟩ := latestIssue_of_get hget
  obtain ⟨hkey, hpass⟩ := observedKey_some.mp hobs
  have hclt : c < evs.length := (List.getElem?_eq_some_iff.mp hc).1
  have hic : i < c := by
    have := (List.getElem?_eq_some_iff.mp hi).1
    simp at this
    omega
  rw [List.getElem?_take_of_lt hic] at hi
  have hmatched : Matched config evs i c key issueCtx ctx := by
    refine ⟨hic, hi, hc, (observedKey_some.mp hikey).1, hkey, hpass, ?_⟩
    intro j ev hij hjc hj
    refine hquiet j ev hij ?_ (by rwa [List.getElem?_take_of_lt hjc])
    simp
    omega
  refine ⟨i, key, issueCtx, ctx, hmatched, rfl, ?_⟩
  have hle := hclock.le hic.le hi hc
  simp only [BlockRqEvent.ctx] at hle
  rw [UInt64.toNat_saturatingSub]
  omega

/-- An issue is matched by at most one completion: the earlier of two would stand between the
later one and the issue. -/
theorem Matched.complete_unique {config : FilterConfig} {evs : List BlockRqEvent} {i c c' : ℕ}
    {key key' : RqKey} {issueCtx issueCtx' completeCtx completeCtx' : BlockRqContext}
    (h : Matched config evs i c key issueCtx completeCtx)
    (h' : Matched config evs i c' key' issueCtx' completeCtx') : c = c' := by
  have hctx : issueCtx = issueCtx' := by
    have := h.issue.symm.trans h'.issue
    simpa using this
  have hkey : key = key' := by
    have := h.issueKey.symm.trans (hctx ▸ h'.issueKey)
    simpa using this
  subst hkey
  rcases Nat.lt_trichotomy c c' with hlt | heq | hgt
  · exact absurd h.completeKey (h'.quiet c _ h.before hlt h.complete)
  · exact heq
  · exact absurd h'.completeKey (h.quiet c' _ h'.before hgt h'.complete)

/-! ### Nothing is lost -/

/-- Every issue that passes the filter finds room in the map, or overwrites. -/
def NoInsertFails (config : FilterConfig) (evs : List BlockRqEvent) : Prop :=
  ∀ i ctx key, evs[i]? = some (.issue ctx) → observedKey (some config) ctx = some key →
    ((inflightAfter (some config) (evs.take i)).insert key ctx.ktimeNs).isSome = true

/-- Every completion finds room on the ring buffer. -/
def NoReserveFails (evs : List BlockRqEvent) : Prop :=
  ∀ ctx, .complete ctx ∈ evs → ctx.reserve = true

/-- `key` passes the filter and was issued at `i`, with no completion of it in the `n` events
since. -/
def Outstanding (config : FilterConfig) (evs : List BlockRqEvent) (key : RqKey) (i n : ℕ) :
    Prop :=
  i < n ∧ passDevFilter config key.dev = true ∧
    (∃ ctx, evs[i]? = some (.issue ctx) ∧ ctx.key? = some key) ∧
    ∀ j ctx, i < j → j < n → evs[j]? = some (.complete ctx) → ctx.key? ≠ some key

/-- While no insertion fails, an outstanding key is in the map. -/
theorem get_isSome_of_outstanding {config : FilterConfig} {evs : List BlockRqEvent}
    (hins : NoInsertFails config evs) {key : RqKey} {i : ℕ} :
    ∀ {n : ℕ}, n ≤ evs.length → Outstanding config evs key i n →
      ((inflightAfter (some config) (evs.take n)).get key).isSome = true := by
  intro n
  induction n with
  | zero => exact fun _ h => absurd h.1 (Nat.not_lt_zero i)
  | succ n ih =>
    rintro hn ⟨hin, hpass, ⟨ctx, hi, hkey⟩, hquiet⟩
    have hstep : inflightAfter (some config) (evs.take (n + 1))
        = (blockRqStep (some config) (inflightAfter (some config) (evs.take n)) evs[n]).1 := by
      rw [inflightAfter, ← List.take_append_getElem hn, Mealy.final_append]
      rfl
    have hget : evs[n]? = some evs[n] := List.getElem?_eq_getElem hn
    rw [hstep]
    generalize hev : evs[n] = ev at hget
    have hold : i < n → ((inflightAfter (some config) (evs.take n)).get key).isSome = true :=
      fun h => ih (Nat.le_of_succ_le hn)
        ⟨h, hpass, ⟨ctx, hi, hkey⟩, fun j ctx hij hj => hquiet j ctx hij (Nat.lt_succ_of_lt hj)⟩
    have hnew : i = n → ev = .issue ctx := by
      rintro rfl
      exact Option.some.inj (hget.symm.trans hi)
    clear ih hstep
    cases hobs : observedKey (some config) ev.ctx with
    | none =>
      rw [blockRqStep_of_observedKey_eq_none hobs]
      refine hold (by_contra fun hlt => ?_)
      rw [hnew (by omega), BlockRqEvent.ctx] at hobs
      rw [observedKey_some.mpr ⟨hkey, hpass⟩] at hobs
      cases hobs
    | some key' =>
      cases ev with
      | issue ctx' =>
        rw [BlockRqEvent.ctx] at hobs
        rw [blockRqStep_issue hobs]
        obtain ⟨inflight', hinflight'⟩ := Option.isSome_iff_exists.mp (hins n ctx' key' hget hobs)
        rw [hinflight', Option.getD_some]
        by_cases heq : key = key'
        · subst heq
          rw [BoundedMap.get_of_insert hinflight']
          rfl
        · rw [BoundedMap.get_of_insert_ne hinflight' heq]
          refine hold (by_contra fun hlt => heq ?_)
          have := hnew (by omega)
          cases this
          rw [(observedKey_some.mp hobs).1] at hkey
          exact (Option.some.inj hkey).symm
      | complete ctx' =>
        rw [BlockRqEvent.ctx] at hobs
        have hlt : i < n := by
          rcases Nat.lt_or_ge i n with h | h
          · exact h
          · cases hnew (by omega)
        have hne : key ≠ key' := by
          rintro rfl
          exact hquiet n ctx' hlt (Nat.lt_succ_self n) hget (observedKey_some.mp hobs).1
        rw [blockRqStep_complete hobs]
        split
        · exact hold hlt
        · rw [BoundedMap.get_remove_of_ne _ hne]
          exact hold hlt

/-- **Issue and completion correlation loses and duplicates nothing.** Every emitted record is
matched with an earlier issue of its key with nothing of that key in between, different records
with different issues, and it measures the time between the two exactly. And while neither the
map nor the ring buffer is full, a completion of a key issued since that key's last completion
emits exactly one record. -/
theorem latency_events_match_issues (config : FilterConfig) (evs : List BlockRqEvent)
    (hclock : ClockMonotone evs) :
    (∃ issueOf : ℕ → ℕ,
      (∀ c e, LatencyAt (some config) evs c e →
        ∃ key issueCtx completeCtx,
          Matched config evs (issueOf c) c key issueCtx completeCtx ∧ e.dev = key.dev ∧
          completeCtx.ktimeNs.toNat = issueCtx.ktimeNs.toNat + e.latencyNs.toNat) ∧
      (∀ c c' e e', LatencyAt (some config) evs c e → LatencyAt (some config) evs c' e' →
        issueOf c = issueOf c' → c = c')) ∧
    (NoInsertFails config evs → NoReserveFails evs →
      ∀ c ctx key i, evs[c]? = some (.complete ctx) → ctx.key? = some key →
        Outstanding config evs key i c → ∃! e, LatencyAt (some config) evs c e) := by
  constructor
  · have hmatched : ∀ c, ∃ i, ∀ e, LatencyAt (some config) evs c e →
        ∃ key issueCtx completeCtx, Matched config evs i c key issueCtx completeCtx ∧
          e.dev = key.dev ∧
          completeCtx.ktimeNs.toNat = issueCtx.ktimeNs.toNat + e.latencyNs.toNat := by
      intro c
      by_cases hem : ∃ e, LatencyAt (some config) evs c e
      · obtain ⟨e, he⟩ := hem
        obtain ⟨i, hi⟩ := exists_matched_of_latencyAt hclock he
        refine ⟨i, ?_⟩
        intro e' he'
        obtain rfl : e = e' := by
          have := he.symm.trans he'
          simpa using this
        exact hi
      · exact ⟨0, fun e he => absurd ⟨e, he⟩ hem⟩
    choose issueOf hissueOf using hmatched
    refine ⟨issueOf, hissueOf, ?_⟩
    intro c c' e e' he he' heq
    obtain ⟨key, issueCtx, completeCtx, h, -⟩ := hissueOf c e he
    obtain ⟨key', issueCtx', completeCtx', h', -⟩ := hissueOf c' e' he'
    rw [← heq] at h'
    exact h.complete_unique h'
  · intro hins hres c ctx key i hc hkey hout
    have hle : c ≤ evs.length := Nat.le_of_lt (List.getElem?_eq_some_iff.mp hc).1
    obtain ⟨ts, hts⟩ := Option.isSome_iff_exists.mp (get_isSome_of_outstanding hins hle hout)
    have hobs : observedKey (some config) ctx = some key :=
      observedKey_some.mpr ⟨hkey, hout.2.1⟩
    refine ⟨_, latencyAt_iff.mpr ⟨ctx, key, ts, hc, hobs, hts,
      hres ctx (List.mem_of_getElem? hc), rfl⟩, ?_⟩
    intro e he
    obtain ⟨ctx', key', ts', hc', hobs', hts', -, rfl⟩ := latencyAt_iff.mp he
    rw [hc] at hc'
    cases hc'
    rw [hobs] at hobs'
    cases hobs'
    rw [hts] at hts'
    cases hts'
    rfl

/-- A record of the device `dev` and sector `sector` at clock reading `ktimeNs`, everything
readable and the ring buffer with room. -/
def BlockRqContext.readable (dev : UInt32) (sector ktimeNs : UInt64) : BlockRqContext where
  dev := some dev
  sector := some sector
  nrSector := some 8
  bytes := some 4096
  rwbs := some #v[87, 83, 0, 0, 0, 0, 0, 0]
  pid := 1
  comm := some Comm.zero
  ktimeNs := ktimeNs
  reserve := true

/-- A request that is issued twice before it completes, with no filter. -/
theorem latency_events_match_issues_reissued :
    (∃ i key issueCtx completeCtx, Matched ⟨0, 0, Vector.replicate 16 0, 0⟩
      [.issue (.readable 8 100 1000), .issue (.readable 8 100 1500),
        .complete (.readable 8 100 2000)] i 2 key issueCtx completeCtx) ∧
    ∃! e, LatencyAt (some ⟨0, 0, Vector.replicate 16 0, 0⟩)
      [.issue (.readable 8 100 1000), .issue (.readable 8 100 1500),
        .complete (.readable 8 100 2000)] 2 e := by
  obtain ⟨⟨issueOf, hmatched, -⟩, hemits⟩ := latency_events_match_issues
    ⟨0, 0, Vector.replicate 16 0, 0⟩
    [.issue (.readable 8 100 1000), .issue (.readable 8 100 1500),
      .complete (.readable 8 100 2000)] (by decide)
  constructor
  · obtain ⟨key, issueCtx, completeCtx, h, -⟩ :=
      hmatched 2 ⟨8, OpClass.write.asU8, 4096, 500⟩ (by decide)
    exact ⟨issueOf 2, key, issueCtx, completeCtx, h⟩
  · refine hemits ?_ ?_ 2 (.readable 8 100 2000) ⟨8, 100⟩ 1 rfl rfl
      ⟨by decide, rfl, ⟨_, rfl, rfl⟩, fun j ctx hj hj' => by omega⟩
    · rintro (_ | _ | _ | i) ctx key hi hobs
      · cases hi
        cases hobs
        decide
      · cases hi
        cases hobs
        decide
      · cases hi
      · cases hi
    · intro ctx hctx
      simp only [List.mem_cons, List.not_mem_nil, reduceCtorEq, or_false, false_or,
        BlockRqEvent.complete.injEq] at hctx
      rw [hctx]
      rfl

/-! ### Requests with identities -/

/-- A trace whose events are tagged with the request they belong to. A request has a device and a
starting sector, is issued at most once and completed at most once, after it was issued. Nothing
stops two requests that share a device and a sector from being in flight together. -/
structure RequestTrace (ρ : Type*) (key : ρ → RqKey) where
  events : List (ρ × BlockRqEvent)
  keyed : ∀ t ∈ events, t.2.ctx.key? = some (key t.1)
  clock : ClockMonotone (events.map Prod.snd)
  issuedOnce : ∀ (i j : ℕ) (r : ρ) (ctx ctx' : BlockRqContext),
    events[i]? = some (r, .issue ctx) → events[j]? = some (r, .issue ctx') → i = j
  completedOnce : ∀ (i j : ℕ) (r : ρ) (ctx ctx' : BlockRqContext),
    events[i]? = some (r, .complete ctx) → events[j]? = some (r, .complete ctx') → i = j
  issuedFirst : ∀ (c : ℕ) (r : ρ) (ctx : BlockRqContext),
    events[c]? = some (r, .complete ctx) → ∃ i < c, ∃ ctx', events[i]? = some (r, .issue ctx')

namespace RequestTrace

variable {ρ : Type*} {key : ρ → RqKey}

/-- The trace as the programs see it. -/
def untagged (t : RequestTrace ρ key) : List BlockRqEvent := t.events.map Prod.snd

/-- Every reported latency is the completed request's own. -/
def AttributesOwn (t : RequestTrace ρ key) (config : FilterConfig) : Prop :=
  ∀ (i c : ℕ) (r : ρ) (issueCtx completeCtx : BlockRqContext) (e : BlockIoLatencyEvent),
    t.events[i]? = some (r, .issue issueCtx) → t.events[c]? = some (r, .complete completeCtx) →
    LatencyAt (some config) t.untagged c e →
    e.latencyNs.toNat = completeCtx.ktimeNs.toNat - issueCtx.ktimeNs.toNat

theorem untagged_getElem? {t : RequestTrace ρ key} {j : ℕ} {r : ρ} {ev : BlockRqEvent}
    (h : t.events[j]? = some (r, ev)) : t.untagged[j]? = some ev := by
  rw [untagged, List.getElem?_map, h]
  rfl

theorem exists_tag {t : RequestTrace ρ key} {j : ℕ} {ev : BlockRqEvent}
    (h : t.untagged[j]? = some ev) :
    ∃ r, t.events[j]? = some (r, ev) ∧ ev.ctx.key? = some (key r) := by
  rw [untagged, List.getElem?_map, Option.map_eq_some_iff] at h
  obtain ⟨⟨r, ev'⟩, ht, rfl⟩ := h
  exact ⟨r, ht, t.keyed _ (List.mem_of_getElem? ht)⟩

/-- **Whose latency is reported.** The record emitted for a completion never exceeds the
request's own latency, and equals it exactly when no other request was issued to the same device
and sector, at a later clock reading, while this one was in flight. -/
theorem latency_eq_own_iff (t : RequestTrace ρ key) (config : FilterConfig) {i c : ℕ} {r : ρ}
    {issueCtx completeCtx : BlockRqContext} {e : BlockIoLatencyEvent}
    (hi : t.events[i]? = some (r, .issue issueCtx))
    (hc : t.events[c]? = some (r, .complete completeCtx))
    (he : LatencyAt (some config) t.untagged c e) :
    e.latencyNs.toNat ≤ completeCtx.ktimeNs.toNat - issueCtx.ktimeNs.toNat ∧
    (e.latencyNs.toNat = completeCtx.ktimeNs.toNat - issueCtx.ktimeNs.toNat ↔
      ∀ j q ctx, i < j → j < c → t.events[j]? = some (q, .issue ctx) → key q = key r →
        ctx.ktimeNs = issueCtx.ktimeNs) := by
  obtain ⟨m, key', matchCtx, completeCtx', hm, -, hlat⟩ := exists_matched_of_latencyAt t.clock he
  have hcu := untagged_getElem? hc
  have hiu := untagged_getElem? hi
  obtain rfl : completeCtx = completeCtx' := by simpa using hcu.symm.trans hm.complete
  have hrkey : completeCtx.key? = some (key r) := t.keyed _ (List.mem_of_getElem? hc)
  have hikey : issueCtx.key? = some (key r) := t.keyed _ (List.mem_of_getElem? hi)
  obtain rfl : key r = key' := by simpa using hrkey.symm.trans hm.completeKey
  have hic : i < c := by
    obtain ⟨i', hi', ctx', hissue⟩ := t.issuedFirst c r completeCtx hc
    obtain rfl := t.issuedOnce i i' r _ _ hi hissue
    exact hi'
  -- the request's own issue is not after the matched one, or it would disturb the match
  have him : i ≤ m := by
    by_contra hlt
    exact hm.quiet i _ (by omega) hic hiu hikey
  have hown : issueCtx.ktimeNs.toNat ≤ matchCtx.ktimeNs.toNat := t.clock.le him hiu hm.issue
  refine ⟨by omega, ?_, ?_⟩
  · intro heq j q ctx hij hjc hj hkey
    have hjm : j ≤ m := by
      by_contra hlt
      refine hm.quiet j _ (by omega) hjc (untagged_getElem? hj) ?_
      rw [t.keyed _ (List.mem_of_getElem? hj), hkey]
    have hle₁ := t.clock.le hij.le hiu (untagged_getElem? hj)
    have hle₂ := t.clock.le hjm (untagged_getElem? hj) hm.issue
    simp only [BlockRqEvent.ctx] at hle₁ hle₂
    refine UInt64.toNat_inj.mp ?_
    omega
  · intro hall
    rcases Nat.lt_or_ge i m with hlt | hge
    · obtain ⟨q, hq, hqkey⟩ := exists_tag hm.issue
      have hkey : key q = key r := by
        simpa using hqkey.symm.trans hm.issueKey
      have := hall m q matchCtx hlt hm.before hq hkey
      rw [this] at hlat
      omega
    · obtain rfl : i = m := by omega
      obtain rfl : issueCtx = matchCtx := by simpa using hiu.symm.trans hm.issue
      omega

/-- Two requests to one sector in flight together: the second is issued halfway through the
first. -/
def overlapping : RequestTrace Bool fun _ => ⟨8, 100⟩ where
  events :=
    [(false, .issue (.readable 8 100 1000)), (true, .issue (.readable 8 100 1500)),
      (false, .complete (.readable 8 100 2000)), (true, .complete (.readable 8 100 2500))]
  keyed := by decide
  clock := by decide
  issuedOnce := by
    rintro (_ | _ | _ | _ | i) (_ | _ | _ | _ | j) r ctx ctx' h h' <;>
      first | rfl | cases h <;> cases h'
  completedOnce := by
    rintro (_ | _ | _ | _ | i) (_ | _ | _ | _ | j) r ctx ctx' h h' <;>
      first | rfl | cases h <;> cases h'
  issuedFirst := by
    rintro (_ | _ | _ | _ | c) r ctx h
    · cases h
    · cases h
    · cases h
      exact ⟨0, by omega, _, rfl⟩
    · cases h
      exact ⟨1, by omega, _, rfl⟩
    · cases h

theorem latencyAt_overlapping : LatencyAt (some ⟨0, 0, Vector.replicate 16 0, 0⟩)
    overlapping.untagged 2 ⟨8, OpClass.write.asU8, 4096, 500⟩ := by decide

theorem latency_eq_own_iff_overlapping :
    (500 : UInt64).toNat ≤ (BlockRqContext.readable 8 100 2000).ktimeNs.toNat
      - (BlockRqContext.readable 8 100 1000).ktimeNs.toNat ∧
    ((500 : UInt64).toNat = (BlockRqContext.readable 8 100 2000).ktimeNs.toNat
        - (BlockRqContext.readable 8 100 1000).ktimeNs.toNat ↔
      ∀ j q ctx, 0 < j → j < 2 → overlapping.events[j]? = some (q, .issue ctx) →
        (⟨8, 100⟩ : RqKey) = ⟨8, 100⟩ →
        ctx.ktimeNs = (BlockRqContext.readable 8 100 1000).ktimeNs) := by
  have hissue : overlapping.events[0]? = some (false, .issue (.readable 8 100 1000)) := rfl
  have hcomplete : overlapping.events[2]? = some (false, .complete (.readable 8 100 2000)) := rfl
  exact overlapping.latency_eq_own_iff ⟨0, 0, Vector.replicate 16 0, 0⟩ hissue hcomplete
    latencyAt_overlapping

/-- The first completion takes the second issue's timestamp, and reports half of its latency. -/
theorem not_attributesOwn_overlapping :
    ¬ overlapping.AttributesOwn ⟨0, 0, Vector.replicate 16 0, 0⟩ := by
  intro h
  have hown := h 0 2 false (.readable 8 100 1000) (.readable 8 100 2000) _ rfl rfl
    latencyAt_overlapping
  exact absurd hown (by decide)

end RequestTrace

end PgSleuth
