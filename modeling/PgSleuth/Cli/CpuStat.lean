import PgSleuth.Cli.CgroupThrottle
import PgSleuth.ForMathlib.Climb

/-!
# Reading `cpu.stat`

The text layer of the cgroup-throttle rule: `CpuStat::parse` from
`pgsleuth-cli/src/cgroup_throttle.rs`, with what it uses of `str`. A line that is missing or cannot
be read leaves its field at zero, and the loop takes the zero for a reading.

## Main definitions

* `CpuStat.parse` — the fields of a text
* `reported` — what a text says about `throttled_usec`, if anything
* `throttledTotal` — the sum of `throttled_usec_delta` over all ticks of a run

## Main results

* `parse_throttledUsec` — a text that does not report the counter is read as zero
* `throttledTotal_le_iff` — when malformed texts invent no throttling
-/

namespace PgSleuth

namespace CgroupThrottle

/-! ### Text -/

/-- `char::is_whitespace`. -/
def isWhitespace (c : Char) : Bool :=
  let n := c.toNat
  0x09 ≤ n && n ≤ 0x0d || n == 0x20 || n == 0x85 || n == 0xa0 || n == 0x1680 ||
    0x2000 ≤ n && n ≤ 0x200a || n == 0x2028 || n == 0x2029 || n == 0x202f || n == 0x205f ||
    n == 0x3000

/-- No digit is whitespace. -/
theorem isWhitespace_of_isDigit {c : Char} (h : c.isDigit = true) : isWhitespace c = false := by
  obtain ⟨hlow, hhigh⟩ := Char.isDigit_iff_toNat.mp h
  have h0 : '0'.toNat = 48 := rfl
  have h9 : '9'.toNat = 57 := rfl
  simp only [isWhitespace, Bool.or_eq_false_iff, Bool.and_eq_false_iff, decide_eq_false_iff_not,
    beq_eq_false_iff_ne]
  omega

/-- A line without the carriage return before its line feed. -/
def stripCarriageReturn (line : List Char) : List Char :=
  if line.getLast? = some '\r' then line.dropLast else line

/-- `str::lines`: the last line need not be ended. -/
def lines (text : List Char) : List (List Char) :=
  let parts := text.splitOn '\n'
  parts.dropLast.map stripCarriageReturn ++ parts.getLast?.toList.filter (· ≠ [])

/-- `str::split_whitespace`. -/
def splitWhitespace (line : List Char) : List (List Char) :=
  (line.splitOnP isWhitespace).filter (· ≠ [])

/-- `str::parse::<u64>`: decimal digits after at most one plus sign, within range. -/
def parseU64 (s : List Char) : Option UInt64 :=
  let digits := if s.head? = some '+' then s.tail else s
  let n := digits.foldl (fun n d => 10 * n + (d.toNat - '0'.toNat)) 0
  if digits ≠ [] ∧ digits.all Char.isDigit ∧ n < 2 ^ 64 then some (.ofNat n) else none

/-! ### The fields of a text -/

/-- A key and a number, if the line has them. Whatever follows them is not read. -/
def keyValue (line : List Char) : Option (List Char × UInt64) :=
  match splitWhitespace line with
  | key :: val :: _ => (parseU64 val).map fun n => (key, n)
  | _ => none

/-- One line of the file. -/
def CpuStat.parseLine (out : CpuStat) (line : List Char) : CpuStat :=
  match keyValue line with
  | some (key, n) =>
    if key = "nr_periods".toList then { out with nrPeriods := n }
    else if key = "nr_throttled".toList then { out with nrThrottled := n }
    else if key = "throttled_usec".toList then { out with throttledUsec := n }
    else out
  | none => out

/-- `CpuStat::parse`. -/
def CpuStat.parse (s : String) : CpuStat := (lines s.toList).foldl CpuStat.parseLine ⟨0, 0, 0⟩

example :
    CpuStat.parse "usage_usec 12345\nnr_periods 1000\nnr_throttled 5\nthrottled_usec 250000\n" =
      ⟨1000, 5, 250000⟩ := by decide +kernel

/-- The counter a line reports. -/
def reportedLine (line : List Char) : Option UInt64 :=
  (keyValue line).bind fun kv => if kv.1 = "throttled_usec".toList then some kv.2 else none

/-- The counter a text reports, in its last line that does. -/
def reported (s : String) : Option UInt64 := lastSome ((lines s.toList).map reportedLine)

theorem throttledUsec_parseLine (out : CpuStat) (line : List Char) :
    (out.parseLine line).throttledUsec = (reportedLine line).getD out.throttledUsec := by
  rw [CpuStat.parseLine, reportedLine]
  cases keyValue line with
  | none => rfl
  | some kv =>
    obtain ⟨key, n⟩ := kv
    have hperiods : "nr_periods".toList ≠ "throttled_usec".toList := by decide
    have hthrottled : "nr_throttled".toList ≠ "throttled_usec".toList := by decide
    simp only [Option.bind_some]
    split
    · next h => rw [if_neg (h ▸ hperiods), Option.getD_none]
    · split
      · next h => rw [if_neg (h ▸ hthrottled), Option.getD_none]
      · split <;> rfl

/-- **A text that does not report the counter is read as zero.** -/
theorem parse_throttledUsec (s : String) :
    (CpuStat.parse s).throttledUsec = (reported s).getD 0 := by
  rw [CpuStat.parse, reported]
  induction lines s.toList using List.reverseRecOn with
  | nil => rfl
  | append_singleton ls line ih =>
    rw [List.foldl_concat, throttledUsec_parseLine, ih, List.map_append, List.map_singleton,
      lastSome_concat]
    cases reportedLine line <;> rfl

/-! ### The loop on texts -/

variable (args : Args)

/-- A run in which every read succeeds: the clock, and the text of the file. -/
def ticksOf (texts : List (DateTime × String)) : List Tick :=
  texts.map fun text => ⟨text.1, some (.parse text.2)⟩

/-- The sum of `throttled_usec_delta` over all ticks. -/
def throttledTotal (texts : List (DateTime × String)) : ℕ :=
  ((Mealy.outputs (throttleStep args) .new (ticksOf texts)).map fun o =>
    ((o.bind Outcome.breach).map fun b => b.throttledUsecDelta.toNat).getD 0).sum

/-- What the texts of a run report, in order. -/
def reports (texts : List (DateTime × String)) : List (Option ℕ) :=
  texts.map fun text => (reported text.2).map UInt64.toNat

/-- What the loop takes the reports for. -/
theorem reports_getD (texts : List (DateTime × String)) :
    (reports texts).map (·.getD 0) =
      texts.map fun text => (CpuStat.parse text.2).throttledUsec.toNat := by
  rw [reports, List.map_map]
  refine List.map_congr_left ?_
  intro text _
  rw [parse_throttledUsec]
  cases h : reported text.2 <;> simp [h]

theorem prev_final_ticksOf (texts : List (DateTime × String)) :
    (Mealy.final (throttleStep args) .new (ticksOf texts)).prev =
      texts.getLast?.map fun text => CpuStat.parse text.2 := by
  rw [prev_final, reads, ticksOf, List.map_map, lastSome, List.filterMap_map,
    ← List.getLast?_map]
  show (texts.filterMap (some ∘ fun text => CpuStat.parse text.2)).getLast? = _
  rw [List.filterMap_eq_map]

/-- One more text adds the growth since the one before it. -/
theorem throttledTotal_concat (texts : List (DateTime × String)) (text : DateTime × String) :
    throttledTotal args (texts ++ [text]) = throttledTotal args texts +
      (texts.getLast?.map fun last => (CpuStat.parse text.2).throttledUsec.toNat -
        (CpuStat.parse last.2).throttledUsec.toNat).getD 0 := by
  have hprev := prev_final_ticksOf args texts
  rw [throttledTotal, ticksOf, List.map_append, ← ticksOf, Mealy.outputs_append, List.map_append,
    List.sum_append, ← throttledTotal, Nat.add_left_cancel_iff]
  simp only [List.map_cons, List.map_nil, Mealy.outputs_cons, Mealy.outputs_nil, throttleStep,
    hprev]
  cases texts.getLast? <;> simp [breachValue]

/-- **The run adds up** how far the parsed counter climbs. -/
theorem throttledTotal_eq_climb (texts : List (DateTime × String)) :
    throttledTotal args texts = climb ((reports texts).map (·.getD 0)) := by
  rw [reports_getD]
  induction texts using List.reverseRecOn with
  | nil => rfl
  | append_singleton texts text ih =>
    rw [throttledTotal_concat, ih, List.map_append, List.map_singleton, climb_concat,
      List.getLast?_map, Option.map_map]
    rfl

/-- The counter reported first. -/
def firstReported (texts : List (DateTime × String)) : ℕ := (firstSome (reports texts)).getD 0

/-- The counter reported last. -/
def lastReported (texts : List (DateTime × String)) : ℕ := (lastSome (reports texts)).getD 0

/-- Reports of a counter that never falls never fall. -/
theorem pairwise_reports {texts : List (DateTime × String)} {real : ℕ → ℕ} (hreal : Monotone real)
    (hreports : ∀ t v, (reports texts)[t]? = some (some v) → v = real t) :
    ((reports texts).filterMap id).Pairwise (· ≤ ·) := by
  rw [List.pairwise_filterMap, List.pairwise_iff_getElem]
  intro s t hs ht hst u hu v hv
  rw [id] at hu hv
  rw [hreports s u (by rw [List.getElem?_eq_getElem hs, hu]),
    hreports t v (by rw [List.getElem?_eq_getElem ht, hv])]
  exact hreal hst.le

/-- **When malformed texts invent no throttling.** With texts that report the real counter, or
nothing, the throttled time of a run is at most the growth of the reported counter exactly when
every report that follows a malformed text follows a counter last reported as zero, or is zero
itself when nothing was reported before. -/
theorem throttledTotal_le_iff {texts : List (DateTime × String)} {real : ℕ → ℕ}
    (hreal : Monotone real)
    (hreports : ∀ t v, (reports texts)[t]? = some (some v) → v = real t) :
    throttledTotal args texts ≤ lastReported texts - firstReported texts ↔
      ∀ pre v post, reports texts = pre ++ none :: some v :: post → (lastSome pre).getD v = 0 := by
  rw [throttledTotal_eq_climb]
  exact climb_getD_le_iff (pairwise_reports hreal hreports)

/-! ### One malformed text -/

/-- Three reads of a counter that stays at 100, the second of them malformed. -/
def malformedRead : List (DateTime × String) :=
  [(.atSecond 0, "nr_periods 10\nthrottled_usec 100\n"),
    (.atSecond 1, "nr_periods 10\nthrottled_usec\n"),
    (.atSecond 2, "nr_periods 10\nthrottled_usec 100\n")]

theorem reports_malformedRead : reports malformedRead = [some 100, none, some 100] := by
  decide +kernel

/-- Every report is of the counter's one value. -/
theorem eq_of_reports_malformedRead (t v : ℕ)
    (h : (reports malformedRead)[t]? = some (some v)) : v = 100 := by
  rw [reports_malformedRead] at h
  have hmem := List.mem_of_getElem? h
  simpa using hmem

theorem throttledTotal_le_iff_malformedRead :
    throttledTotal oneSecond malformedRead ≤
        lastReported malformedRead - firstReported malformedRead ↔
      ∀ pre v post, reports malformedRead = pre ++ none :: some v :: post →
        (lastSome pre).getD v = 0 :=
  throttledTotal_le_iff oneSecond (monotone_const : Monotone fun _ : ℕ => 100)
    eq_of_reports_malformedRead

/-- Malformed texts can invent throttling: a counter that never moves is read as 100 microseconds of
it. -/
theorem not_throttledTotal_le :
    ¬ ∀ (args : Args) (texts : List (DateTime × String)) (real : ℕ → ℕ), Monotone real →
      (∀ t v, (reports texts)[t]? = some (some v) → v = real t) →
        throttledTotal args texts ≤ lastReported texts - firstReported texts := by
  intro h
  have hle := h oneSecond malformedRead (fun _ => 100) monotone_const eq_of_reports_malformedRead
  rw [throttledTotal_eq_climb, lastReported, firstReported, reports_malformedRead] at hle
  exact absurd hle (by decide)

end CgroupThrottle

end PgSleuth
