import PgSleuth.Agent.Delivery
import PgSleuth.Ebpf.Correlation
import PgSleuth.Loader.DistinctSpills

/-!
# What does not matter

Two kinds of traffic have no influence. What a filter rejects leaves no trace at all: with a device
configured, the rest of the machine's disks might as well be idle. And the two rules share a loader
but no data: when the loader takes off the same records at the same points and ticks at the same
points, file calls change nothing for the fsync-jitter rule, and disk requests nothing for the
temp-spill rule.

## Main definitions

* `HostEvent.Foreign` — a firing the installed filter rejects
* `HostEvent.concernsFsync`, `HostEvent.concernsSpills` — the events each rule lives on

## Main results

* `foreign_leaves_no_trace` — what the filters reject can be left out of a run
* `rules_independent` — for each rule, everything that is not its own can
-/

namespace PgSleuth

/-- A firing the filter rejects: a request of another device, a file call of another process, a file
opened by a process that meets none of the configured criteria. -/
def HostEvent.Foreign (config : FilterConfig) : HostEvent → Prop
  | .kernel (.blockRq ev) => config.devT ≠ 0 ∧ ∃ dev, ev.ctx.dev = some dev ∧ dev ≠ config.devT
  | .kernel (.fileSyscall _ proc _) => config.pid ≠ 0 ∧ proc.pid ≠ config.pid
  | .kernel (.vfsOpen proc) =>
    ¬ (config.pid = 0 ∧ OnlyPid config) ∧ ¬ (config.pid ≠ 0 ∧ proc.pid = config.pid) ∧
      ¬ OtherCriterion config proc
  | .take _ _ => False
  | .tick _ => False

/-- What the fsync-jitter rule lives on. -/
def HostEvent.concernsFsync : HostEvent → Bool
  | .kernel (.blockRq _) => true
  | .take r _ => r = .latencyEvents
  | .tick _ => true
  | _ => false

/-- What the temp-spill rule lives on. -/
def HostEvent.concernsSpills : HostEvent → Bool
  | .kernel (.fileSyscall _ _ _) => true
  | .take r _ => r = .tempFileEvents
  | _ => false

/-- The effects of everything but the temp-spill rule. -/
def withoutSpills (effects : List Effect) : List Effect :=
  effects.filter fun e => e.spillFinding.isNone

variable (args : Args) (discovery : Option PgDiscovery) {sizes : RingSlots}

/-! ### What the filters reject -/

/-- The programs say nothing and remember nothing about a firing the filter rejects. -/
theorem kernelStep_of_foreign {config : FilterConfig} {ev : KernelEvent}
    (h : (HostEvent.kernel ev).Foreign config) (room : Ring → Bool) (inflight : Inflight) :
    kernelStep (some config) room inflight ev = (inflight, none) := by
  cases ev with
  | vfsOpen proc =>
    obtain ⟨hidle, hpid, hother⟩ := h
    have hnone : (pgsleuthEbpf (some config) proc true).2 = none := by
      rw [← Option.not_isSome_iff_eq_none, pgsleuthEbpf_isSome]
      rintro (⟨hcg, h0, hname⟩ | hmatch | hmatch)
      · exact hidle ⟨h0, hcg, hname⟩
      · exact hpid hmatch
      · exact hother hmatch
    simp only [kernelStep]
    rw [pgsleuthEbpf_reserve, hnone]
    rfl
  | blockRq ev =>
    obtain ⟨hdev, dev, hread, hne⟩ := h
    have hobs : observedKey (some config) (ev.reserving room).ctx = none := by
      rw [← Option.not_isSome_iff_eq_none, Option.isSome_iff_exists]
      rintro ⟨key, hkey⟩
      obtain ⟨hkey, hpass⟩ := observedKey_some.mp hkey
      have hctx : (ev.reserving room).ctx.dev = some dev := by cases ev <;> exact hread
      rw [BlockRqContext.key?, hctx, Option.bind_some, Option.map_eq_some_iff] at hkey
      obtain ⟨sector, -, rfl⟩ := hkey
      simp [passDevFilter, hdev, hne] at hpass
    simp only [kernelStep, blockRqStep_of_observedKey_eq_none hobs]
    rfl
  | fileSyscall call proc filename =>
    obtain ⟨hpid, hne⟩ := h
    have hnone (syscallKind : UInt8) :
        captureFileSyscall (some config) proc filename (room .tempFileEvents) syscallKind =
          none := by
      rw [Option.eq_none_iff_forall_ne_some]
      intro e he
      rcases (captureFileSyscall_eq_some.mp he).1 with h0 | hmatch
      · exact hpid h0
      · exact hne hmatch
    cases call <;>
      simp [kernelStep, pgsleuthSysEnterOpenat, pgsleuthSysEnterUnlinkat, hnone]

/-- A rejected firing is as good as none. -/
theorem agentStep_of_foreign {ev : HostEvent} (h : ev.Foreign (filterConfig args discovery))
    (s : AgentState sizes) : agentStep args discovery sizes s ev = (s, []) := by
  cases ev with
  | kernel ev => simp only [agentStep, kernelStep_of_foreign h, Rings.submit]
  | take r now => exact h.elim
  | tick now => exact h.elim

variable (sizes) in
/-- **What the filters reject leaves no trace.** Leave out of a run all requests of some other
devices, all file calls of some other processes and all files opened by some processes that meet no
criterion: the state at the end is the same, and so is all that is sent out. Any occurrences of such
events may be left out, or put in: all runs that agree on the rest are the same. -/
theorem foreign_leaves_no_trace (run : List HostEvent) (keep : HostEvent → Bool)
    (hkeep : ∀ ev, keep ev = false → ev.Foreign (filterConfig args discovery)) :
    sentOut args discovery sizes (run.filter keep) = sentOut args discovery sizes run ∧
      agentAfter args discovery sizes (run.filter keep) =
        agentAfter args discovery sizes run ∧
      ∀ run' : List HostEvent, run'.filter keep = run.filter keep →
        sentOut args discovery sizes run' = sentOut args discovery sizes run ∧
          agentAfter args discovery sizes run' = agentAfter args discovery sizes run := by
  have hunwind : Mealy.Unwinding (agentStep args discovery sizes) Eq keep id :=
    { respects := by
        rintro s t ev rfl hev
        rw [agentStep_of_foreign args discovery (hkeep ev hev)]
        exact ⟨rfl, rfl⟩
      consistent := by
        rintro s t ev rfl -
        exact ⟨rfl, rfl⟩ }
  have hpurge (run : List HostEvent) :
      sentOut args discovery sizes (run.filter keep) = sentOut args discovery sizes run ∧
        agentAfter args discovery sizes (run.filter keep) =
          agentAfter args discovery sizes run := by
    obtain ⟨hout, hstate⟩ := hunwind.purge (Eq.refl (AgentState.new sizes)) run
    rw [List.flatMap_id, List.flatMap_id] at hout
    exact ⟨hout.symm, hstate.symm⟩
  obtain ⟨hout, hstate⟩ := hpurge run
  refine ⟨hout, hstate, fun run' hrun => ?_⟩
  obtain ⟨hout', hstate'⟩ := hpurge run'
  exact ⟨by rw [← hout', hrun, hout], by rw [← hstate', hrun, hstate]⟩

/-- A request of another disk, between one of the configured disk and a tick. -/
def twoDisks : List HostEvent :=
  [.kernel (.blockRq (.issue (.readable 8 100 1000))),
    .kernel (.blockRq (.issue (.readable 9 100 1200))), .tick (.atSecond 1)]

theorem foreign_leaves_no_trace_twoDisks :
    let keep (ev : HostEvent) : Bool := match ev with
      | .kernel (.blockRq ev) => ev.ctx.dev != some 9
      | _ => true
    (∀ ev, keep ev = false → ev.Foreign (filterConfig { devT := some 8 } none)) ∧
      sentOut { devT := some 8 } none .aligned (twoDisks.filter keep) =
        sentOut { devT := some 8 } none .aligned twoDisks ∧
      agentAfter { devT := some 8 } none .aligned (twoDisks.filter keep) =
        agentAfter { devT := some 8 } none .aligned twoDisks := by
  intro keep
  have hkeep (ev : HostEvent) (hev : keep ev = false) :
      ev.Foreign (filterConfig { devT := some 8 } none) := by
    rcases ev with (_ | ev | _) | _ | _
    · cases hev
    · have hdev : ev.ctx.dev = some 9 := by simpa [keep] using hev
      exact ⟨by decide, 9, hdev, by decide⟩
    · cases hev
    · cases hev
    · cases hev
  obtain ⟨hout, hstate, -⟩ := foreign_leaves_no_trace { devT := some 8 } none .aligned twoDisks
    keep hkeep
  exact ⟨hkeep, hout, hstate⟩

/-! ### Two rules, one loader -/

/-- A program does nothing to a ring buffer it does not write to. -/
theorem rings_of_writesTo_eq_false {r : Ring} {s : AgentState sizes} {ev : HostEvent}
    (hwrite : ev.writesTo r = false) (htake : ev.takesFrom r = false) :
    (agentStep args discovery sizes s ev).1.rings r = s.rings r := by
  have hfeed : ringFeed args discovery r s ev = [] := by
    cases ev with
    | kernel ev =>
      rw [ringFeed]
      cases hoff : offered (some (filterConfig args discovery)) s.inflight ev with
      | none => rfl
      | some rec =>
        have hne : rec.1 ≠ r := by
          rw [← ring_of_offered hoff]
          simpa [HostEvent.writesTo] using hwrite
        simp [KernelRecord.on, hne]
    | take r' now =>
      have hne : r' ≠ r := by simpa [HostEvent.takesFrom] using htake
      simp [ringFeed, hne]
    | tick now => rfl
  rw [rings_agentStep, hfeed, Mealy.final_nil]

/-- A file call is the temp-spill rule's business alone. -/
theorem inflight_fileSyscall (s : AgentState sizes) (call : FileSyscall) (proc : Process)
    (filename : Option UserPtr) :
    (agentStep args discovery sizes s (.kernel (.fileSyscall call proc filename))).1.inflight =
      s.inflight := by
  cases call <;> rfl

/-- What is sent out for a temp-file event is a finding of the temp-spill rule. -/
theorem withoutSpills_tempFileEvent (s : LoaderState) (now : DateTime) (event : TempFileEvent) :
    withoutSpills (loaderStep args discovery s (.tempFileEvent now event)).2 = [] := by
  simp only [loaderStep]
  cases hout : (tempFileEvent args now s.seenSpills event).2 with
  | none => rfl
  | some f =>
    obtain ⟨-, -, rfl⟩ := (tempFileEvent_eq_some ..).mp hout
    simp [withoutSpills, Effect.spillFinding, buildTempFileFinding]

variable (sizes) in
theorem unwinding_fsync :
    Mealy.Unwinding (agentStep args discovery sizes)
      (fun s t => s.inflight = t.inflight ∧ s.rings .latencyEvents = t.rings .latencyEvents ∧
        s.loader.ruleState = t.loader.ruleState)
      HostEvent.concernsFsync withoutSpills where
  respects := by
    rintro s t ev ⟨hinflight, hring, hrule⟩ hev
    have hkeep (hwrite : ev.writesTo .latencyEvents = false)
        (htake : ev.takesFrom .latencyEvents = false) :
        (agentStep args discovery sizes s ev).1.rings .latencyEvents = t.rings .latencyEvents :=
      (rings_of_writesTo_eq_false args discovery hwrite htake).trans hring
    cases ev with
    | kernel ev =>
      cases ev with
      | vfsOpen proc => exact ⟨⟨hinflight, hkeep rfl rfl, hrule⟩, rfl⟩
      | blockRq ev => cases hev
      | fileSyscall call proc filename =>
        refine ⟨⟨?_, hkeep rfl rfl, hrule⟩, rfl⟩
        rw [inflight_fileSyscall, hinflight]
    | take r now =>
      have hr : r ≠ .latencyEvents := by simpa [HostEvent.concernsFsync] using hev
      have hrings := hkeep rfl (by simpa [HostEvent.takesFrom] using hr)
      cases h : (s.rings r).items.head? with
      | none =>
        simp only [agentStep, h] at hrings ⊢
        exact ⟨⟨hinflight, hring, hrule⟩, rfl⟩
      | some a =>
        simp only [agentStep, h] at hrings ⊢
        refine ⟨⟨hinflight, hrings, ?_⟩, ?_⟩
        · cases r with
          | latencyEvents => exact absurd rfl hr
          | _ => exact hrule
        · cases r with
          | latencyEvents => exact absurd rfl hr
          | tempFileEvents => exact withoutSpills_tempFileEvent ..
          | _ => rfl
    | tick now => cases hev
  consistent := by
    rintro s t ev ⟨hinflight, hring, hrule⟩ hev
    have hfeed : ringFeed args discovery .latencyEvents s ev =
        ringFeed args discovery .latencyEvents t ev := by
      cases ev with
      | kernel ev => rw [ringFeed, ringFeed, hinflight]
      | _ => rfl
    have hrings : (agentStep args discovery sizes s ev).1.rings .latencyEvents =
        (agentStep args discovery sizes t ev).1.rings .latencyEvents := by
      rw [rings_agentStep, rings_agentStep, hfeed, hring]
    cases ev with
    | kernel ev =>
      cases ev with
      | blockRq ev =>
        -- the two runs may differ in what the block ring has room for, and only in that
        have hprog : (kernelStep (some (filterConfig args discovery)) (Rings.room s.rings)
              s.inflight (.blockRq ev)).1 =
            (kernelStep (some (filterConfig args discovery)) (Rings.room t.rings)
              t.inflight (.blockRq ev)).1 := by
          rw [(kernelStep_room ..).1, hinflight]
          exact (kernelStep_room ..).1.symm
        exact ⟨⟨hprog, hrings, hrule⟩, rfl⟩
      | _ => cases hev
    | take r now =>
      obtain rfl : r = .latencyEvents := by simpa [HostEvent.concernsFsync] using hev
      cases h : (t.rings .latencyEvents).items.head? with
      | none =>
        simp only [agentStep, hring, h] at hrings ⊢
        exact ⟨⟨hinflight, hrings, hrule⟩, trivial⟩
      | some a =>
        simp only [agentStep, hring, h] at hrings ⊢
        refine ⟨⟨hinflight, hrings, ?_⟩, rfl⟩
        simp only [LoaderInput.ofRecord, loaderStep, hrule]
    | tick now =>
      simp only [agentStep, loaderStep, hrule] at hrings ⊢
      exact ⟨⟨hinflight, hrings, trivial⟩, trivial⟩

/-- Whether a file call is reported does not depend on the disk requests in flight. -/
theorem offered_fileSyscall (config : Option FilterConfig) (inflight inflight' : Inflight)
    (call : FileSyscall) (proc : Process) (filename : Option UserPtr) :
    offered config inflight (.fileSyscall call proc filename) =
      offered config inflight' (.fileSyscall call proc filename) := by
  cases call <;> rfl

variable (sizes) in
theorem unwinding_spills :
    Mealy.Unwinding (agentStep args discovery sizes)
      (fun s t => s.rings .tempFileEvents = t.rings .tempFileEvents ∧
        s.loader.seenSpills = t.loader.seenSpills)
      HostEvent.concernsSpills (fun es => es.filterMap Effect.spillFinding) where
  respects := by
    rintro s t ev ⟨hring, hseen⟩ hev
    have hkeep (hwrite : ev.writesTo .tempFileEvents = false)
        (htake : ev.takesFrom .tempFileEvents = false) :
        (agentStep args discovery sizes s ev).1.rings .tempFileEvents = t.rings .tempFileEvents :=
      (rings_of_writesTo_eq_false args discovery hwrite htake).trans hring
    cases ev with
    | kernel ev =>
      cases ev with
      | vfsOpen proc => exact ⟨⟨hkeep rfl rfl, hseen⟩, rfl⟩
      | blockRq ev =>
        refine ⟨⟨hkeep ?_ rfl, hseen⟩, rfl⟩
        cases ev <;> rfl
      | fileSyscall call proc filename => cases hev
    | take r now =>
      have hr : r ≠ .tempFileEvents := by simpa [HostEvent.concernsSpills] using hev
      have hrings := hkeep rfl (by simpa [HostEvent.takesFrom] using hr)
      cases h : (s.rings r).items.head? with
      | none =>
        simp only [agentStep, h] at hrings ⊢
        exact ⟨⟨hring, hseen⟩, rfl⟩
      | some a =>
        have hother (now' : DateTime) (event : TempFileEvent) :
            LoaderInput.ofRecord now ⟨r, a⟩ ≠ .tempFileEvent now' event := by
          cases r with
          | tempFileEvents => exact absurd rfl hr
          | _ => exact LoaderInput.noConfusion
        simp only [agentStep, h] at hrings ⊢
        exact ⟨⟨hrings, (seenSpills_other args discovery _ hother).trans hseen⟩,
          spillFinding_other args discovery _ hother⟩
    | tick now =>
      have hrings := hkeep rfl rfl
      exact ⟨⟨hrings, hseen⟩, spillFinding_other args discovery s.loader
        fun now' event => LoaderInput.noConfusion⟩
  consistent := by
    rintro s t ev ⟨hring, hseen⟩ hev
    have hfeed : ringFeed args discovery .tempFileEvents s ev =
        ringFeed args discovery .tempFileEvents t ev := by
      cases ev with
      | kernel ev =>
        cases ev with
        | fileSyscall call proc filename =>
          rw [ringFeed, ringFeed, offered_fileSyscall _ s.inflight t.inflight]
        | _ => cases hev
      | _ => rfl
    have hrings : (agentStep args discovery sizes s ev).1.rings .tempFileEvents =
        (agentStep args discovery sizes t ev).1.rings .tempFileEvents := by
      rw [rings_agentStep, rings_agentStep, hfeed, hring]
    cases ev with
    | kernel ev =>
      cases ev with
      | fileSyscall call proc filename => exact ⟨⟨hrings, hseen⟩, rfl⟩
      | _ => cases hev
    | take r now =>
      obtain rfl : r = .tempFileEvents := by simpa [HostEvent.concernsSpills] using hev
      cases h : (t.rings .tempFileEvents).items.head? with
      | none =>
        simp only [agentStep, hring, h] at hrings ⊢
        exact ⟨⟨hrings, hseen⟩, trivial⟩
      | some a =>
        simp only [agentStep, hring, h] at hrings ⊢
        simp only [LoaderInput.ofRecord, loaderStep, hseen]
        exact ⟨⟨hrings, trivial⟩, trivial⟩
    | tick now => cases hev

/-- **The two rules share a loader and nothing else.** Leave out of a run everything that is not a
disk request, a latency record taken off or a tick: the metrics and the findings of the fsync-jitter
rule are the same, and so are the requests in flight, the latency ring and the rule's state. Leave
out everything that is not a file call or its event taken off: the findings of the temp-spill rule
are the same, and so are its ring buffer and its memory. In both cases the records taken off for the
rule and the ticks stay where they are in the run: what the one rule costs the other in time, on the
loop they are served by, is in the order of these events and not in this theorem. -/
theorem rules_independent (run : List HostEvent) :
    let fsyncOnly := run.filter HostEvent.concernsFsync
    let spillsOnly := run.filter HostEvent.concernsSpills
    let s := agentAfter args discovery sizes run
    let sf := agentAfter args discovery sizes fsyncOnly
    let sp := agentAfter args discovery sizes spillsOnly
    (withoutSpills (sentOut args discovery sizes run) =
        withoutSpills (sentOut args discovery sizes fsyncOnly) ∧
      s.inflight = sf.inflight ∧ s.rings .latencyEvents = sf.rings .latencyEvents ∧
      s.loader.ruleState = sf.loader.ruleState) ∧
    ((sentOut args discovery sizes run).filterMap Effect.spillFinding =
        (sentOut args discovery sizes spillsOnly).filterMap Effect.spillFinding ∧
      s.rings .tempFileEvents = sp.rings .tempFileEvents ∧
      s.loader.seenSpills = sp.loader.seenSpills) := by
  intro fsyncOnly spillsOnly s sf sp
  constructor
  · obtain ⟨hout, hstate⟩ := (unwinding_fsync args discovery sizes).purge
      (s := .new sizes) (t := .new sizes) ⟨rfl, rfl, rfl⟩ run
    refine ⟨?_, hstate⟩
    simp only [withoutSpills, sentOut, List.filter_flatten, ← List.flatMap_def]
    exact hout
  · obtain ⟨hout, hstate⟩ := (unwinding_spills args discovery sizes).purge
      (s := .new sizes) (t := .new sizes) ⟨rfl, rfl⟩ run
    refine ⟨?_, hstate⟩
    simp only [sentOut, List.filterMap_flatten, ← List.flatMap_def]
    exact hout

end PgSleuth
