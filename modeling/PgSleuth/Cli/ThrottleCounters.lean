import PgSleuth.Cli.CpuStatText
import PgSleuth.Cli.Findings

/-!
# From the counters of the kernel to the cgroup-throttle findings

`pgsleuth-cli/src/cgroup_throttle.rs` over `read_cpu_stat`: the rule over the counters a kernel
keeps, with the file in between. The kernel writes its counters in any order and among other lines,
and a read may fail.

## Main definitions

* `StatRead` — a tick of the loop on a file that reports the counters of the kernel
* `Throttled` — too much throttling between two reads

## Main results

* `throttle_counts_usecs` — the findings of a run are about the growth of the kernel's counter
-/

namespace PgSleuth

namespace CgroupThrottle

/-- The text has one line for each counter of the snapshot, and otherwise lines that report
nothing. -/
def Reports (text : String) (stat : CpuStat) : Prop :=
  ∃ ls entries, text = textOf ls ∧ (∀ line ∈ ls, '\n' ∉ line) ∧
    List.Forall₂ Describes ls entries ∧ entries.reduceOption.Perm stat.reports

theorem Reports.parse_eq {text : String} {stat : CpuStat} (h : Reports text stat) :
    CpuStat.parse text = stat := by
  obtain ⟨ls, entries, rfl, hlines, hdescribes, hperm⟩ := h
  refine CpuStat.ext_get ?_
  intro key
  rw [parse_eq_foldl hlines hdescribes, get_foldl_enter, lastSome_of_perm hperm, Option.getD_some]

/-- `cpu.stat` as it is read, if it can be. -/
def readCpuStat (file : Option String) : Option CpuStat := file.map CpuStat.parse

/-- A tick of the loop: the clock, the file, and the counters it reports. -/
structure StatRead where
  now : DateTime
  file : Option String
  stat : CpuStat
  reports : ∀ text ∈ file, Reports text stat

namespace StatRead

/-- What the loop sees of a tick. -/
def tick (p : StatRead) : Tick where
  now := p.now
  read := readCpuStat p.file

/-- The counters that are read, unless the read fails. -/
def counters (p : StatRead) : Option CpuStat := p.file.map fun _ => p.stat

theorem read_tick (p : StatRead) : p.tick.read = p.counters := by
  rw [tick, readCpuStat, counters]
  cases hfile : p.file with
  | none => rfl
  | some text =>
    rw [Option.map_some, Option.map_some, (p.reports text hfile).parse_eq]

theorem reads_map_tick (run : List StatRead) : reads (run.map tick) = run.map counters := by
  rw [reads, List.map_map]
  exact List.map_congr_left fun p _ => p.read_tick

end StatRead

variable (args : Args)

/-- More microseconds of throttling between two reads than the threshold has in a single interval,
rounded up to the next whole millisecond in a second. -/
def Throttled (prev cur : CpuStat) : Prop :=
  0 < args.intervalMs.toNat ∧
    (args.throttledMsPerSecThreshold.toNat + 1) * args.intervalMs.toNat ≤
      cur.throttledUsec.toNat - prev.throttledUsec.toNat

instance (prev cur : CpuStat) : Decidable (Throttled args prev cur) :=
  inferInstanceAs (Decidable (_ ∧ _))

theorem exceeds_some (prev cur : CpuStat) :
    exceeds args (some prev) cur = decide (Throttled args prev cur) := by
  rw [exceeds, breachValue, Option.map_some, Option.any_some, decide_eq_decide]
  unfold Throttled
  by_cases hI : args.intervalMs = 0
  · simp [hI]
  · have hpos : 0 < args.intervalMs.toNat :=
      Nat.pos_of_ne_zero fun h => hI (UInt64.toNat_inj.mp h)
    simp only [if_neg hI, lt_div_iff hpos, UInt64.toNat_saturatingSub, and_iff_right hpos]

/-- The verdicts are about successive reads. -/
theorem reduceOption_verdicts (ticks : List Tick) :
    longBlocks id (max 1 args.fireAfter.toNat) (verdicts args ticks).reduceOption =
      longBlocks id (max 1 args.fireAfter.toNat)
        (List.zipWith (fun prev cur => decide (Throttled args prev cur))
          (reads ticks).reduceOption (reads ticks).reduceOption.tail) := by
  rw [verdicts, reduceOption_mapIdx_lastSome]
  cases (reads ticks).reduceOption with
  | nil => rfl
  | cons first rest =>
    have hfirst : exceeds args none first = false := rfl
    have hrest : List.zipWith (exceeds args) ((first :: rest).map some) rest =
        List.zipWith (fun prev cur => decide (Throttled args prev cur)) (first :: rest) rest := by
      rw [List.zipWith_map_left]
      simp only [exceeds_some]
    rw [List.zipWith_cons_cons, hfirst, longBlocks_cons_of_not id _ (by omega) rfl, hrest,
      List.tail_cons]

/-- What a finding says of the counters: the read before it, and how far the counter grew. -/
def StatRead.Supports (pre : List StatRead) (p : StatRead) (f : Finding) : Prop :=
  ∃ prev cur, lastSome (pre.map counters) = some prev ∧ p.counters = some cur ∧
    Throttled args prev cur ∧
    f.evidence.get? "throttled_usec_delta" =
      some (.int (cur.throttledUsec.toNat - prev.throttledUsec.toNat : ℕ)) ∧
    f.evidence.get? "throttled_ms_per_sec" =
      some (.int ((cur.throttledUsec.toNat - prev.throttledUsec.toNat) / args.intervalMs.toNat : ℕ))

/-- **The cgroup-throttle rule is about the kernel's counter.** Whatever else is in the file and in
whatever order, and whichever reads fail:

* there are as many findings as there are long blocks of successive reads between which the counter
  grew too much
* and each finding says how much the counter grew since the last read before it. -/
theorem throttle_counts_usecs (run : List StatRead) :
    (findings args (run.map StatRead.tick)).length =
        longBlocks id (max 1 args.fireAfter.toNat)
          (List.zipWith (fun prev cur => decide (Throttled args prev cur))
            (run.map StatRead.counters).reduceOption
            (run.map StatRead.counters).reduceOption.tail) ∧
      ∀ f ∈ findings args (run.map StatRead.tick), ∃ pre p post, run = pre ++ p :: post ∧
        f.firedAt = p.now ∧ StatRead.Supports args pre p f := by
  constructor
  · rw [length_findings, reduceOption_verdicts, StatRead.reads_map_tick]
  · intro f hf
    obtain ⟨pre, tick, post, hticks, hnow, prev, cur, b, hprev, hread, hb, hlt, hrate, -, hdelta,
      -⟩ := supports_of_mem_findings args hf
    obtain ⟨pre, rest, rfl, rfl, hrest⟩ := List.map_eq_append_iff.mp hticks
    obtain ⟨p, post, rfl, rfl, rfl⟩ := List.map_eq_cons_iff.mp hrest
    have hexceeds : exceeds args (some prev) cur = true := by
      rw [exceeds, hb]
      exact decide_eq_true hlt
    rw [exceeds_some, decide_eq_true_eq] at hexceeds
    rw [StatRead.reads_map_tick] at hprev
    rw [StatRead.read_tick] at hread
    have hne : ¬ args.intervalMs = 0 := by
      intro h
      have hpos := hexceeds.1
      rw [h] at hpos
      exact absurd hpos (by decide)
    rw [breachValue, Option.map_some] at hb
    obtain rfl := Option.some.inj hb
    simp only [if_neg hne, UInt64.toNat_div, UInt64.toNat_saturatingSub] at hrate hdelta
    exact ⟨pre, p, post, rfl, hnow, prev, cur, hprev, hread, hexceeds, hdelta, hrate⟩

/-! ### A kernel that throttles -/

/-- What a kernel may write for its counters: a line of no interest, and then the three. -/
def statLines (stat : CpuStat) : List (List Char) :=
  ["usage_usec 12345".toList, dataLine .nrPeriods stat.nrPeriods,
    dataLine .nrThrottled stat.nrThrottled, dataLine .throttledUsec stat.throttledUsec]

theorem newline_notMem_dataLine (key : StatKey) (n : UInt64) : '\n' ∉ dataLine key n := by
  have hdigits : '\n' ∉ Nat.toDigits 10 n.toNat := fun h =>
    absurd (Nat.isDigit_of_mem_toDigits (by norm_num) (by norm_num) h) (by decide)
  have hkey : '\n' ∉ key.text := by cases key <;> decide
  simp only [dataLine, List.mem_append, List.mem_cons, not_or]
  exact ⟨hkey, by decide, hdigits⟩

theorem reports_statLines (stat : CpuStat) : Reports (textOf (statLines stat)) stat := by
  have hnoise : NoiseLine ([] ++ ("usage_usec".toList ++ " 12345".toList)) :=
    .unknownKey (by simp [Blank]) (by decide) (fun key => by cases key <;> decide)
      (by simp [EndsToken, isWhitespace])
  refine ⟨statLines stat, none :: stat.reports.map some, rfl, ?_, ?_, ?_⟩
  · simp only [statLines, List.forall_mem_cons, newline_notMem_dataLine, not_false_eq_true,
      true_and]
    exact ⟨by decide, by simp⟩
  · exact .cons hnoise (.cons (describes_dataLine ..) (.cons (describes_dataLine ..)
      (.cons (describes_dataLine ..) .nil)))
  · simp [List.reduceOption]

/-- A read of such a file. -/
def StatRead.ofStat (now : DateTime) (stat : CpuStat) : StatRead where
  now := now
  file := some (textOf (statLines stat))
  stat := stat
  reports _ htext := Option.some.inj htext ▸ reports_statLines stat

/-- Half a second of throttling in each of two seconds, and a read between them that fails. -/
def throttledReads : List StatRead :=
  [.ofStat (.atSecond 0) ⟨0, 0, 0⟩, .ofStat (.atSecond 1) ⟨10, 5, 500000⟩,
    { StatRead.ofStat (.atSecond 2) ⟨20, 10, 1000000⟩ with file := none, reports := by simp },
    .ofStat (.atSecond 3) ⟨30, 15, 1000000⟩, .ofStat (.atSecond 4) ⟨40, 20, 1000000⟩]

theorem throttle_counts_usecs_throttledReads :
    (findings ⟨1000, 100, 2, "fixture-pg"⟩ (throttledReads.map StatRead.tick)).length = 1 := by
  have hcounters : (throttledReads.map StatRead.counters).reduceOption =
      [⟨0, 0, 0⟩, ⟨10, 5, 500000⟩, ⟨30, 15, 1000000⟩, ⟨40, 20, 1000000⟩] := rfl
  rw [(throttle_counts_usecs ⟨1000, 100, 2, "fixture-pg"⟩ throttledReads).1, hcounters]
  decide +kernel

end CgroupThrottle

end PgSleuth
