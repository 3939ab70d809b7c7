import PgSleuth.Cli.DominantStreak
import PgSleuth.ForMathlib.GappedRun

/-!
# Does a checkpoint-storm finding tell the truth?

A finding says that one bucket was dominant for so many *consecutive* intervals. The streak behind
it counts classified intervals and ignores the others, so the intervals it counted need not be
consecutive. This file says exactly which runs are free of such findings.

## Main definitions

* `intervals` — what the intervals between successive polls are classified as
* `TellsTruth` — every finding's bucket is that of as many intervals as it says, the last one and
  those right before it

## Main results

* `DominantStreak.justFired_iff` — a streak fires when a block of one bucket gets long enough
* `tellsTruth_iff` — findings tell the truth exactly when no interval without a classification falls
  inside the beginning of a block that fires
-/

namespace PgSleuth

namespace CheckpointStorm

/-- The number of classified intervals with bucket `b` that a history ends with. -/
def blockLength (b : CheckpointBucket) (classified : List CheckpointBucket) : ℕ :=
  trailingRun (fun b' => b' = b) classified

theorem blockLength_concat (b b' : CheckpointBucket) (classified : List CheckpointBucket) :
    blockLength b (classified ++ [b']) = if b' = b then blockLength b classified + 1 else 0 := by
  simp [blockLength]

/-! ### When a streak fires -/

namespace DominantStreak

/-- What the next interval would make of the streak, whatever its bucket: the length of the block it
continues, and whether that block has fired. -/
structure TracksBlocks (fireAfter : UInt32) (classified : List CheckpointBucket)
    (d : DominantStreak) : Prop where
  streak : ∀ b, (d.counted b).streak.toNat = min (blockLength b classified + 1) (2 ^ 32 - 1)
  firedFor : ∀ b, (d.counted b).firedFor = some b ↔
    max 1 fireAfter.toNat ≤ blockLength b classified

theorem counted_of_current_ne {d : DominantStreak} {b : CheckpointBucket}
    (h : d.current ≠ some b) : d.counted b = ⟨some b, 1, none⟩ := if_neg h

theorem tracksBlocks_default (fireAfter : UInt32) : TracksBlocks fireAfter [] default where
  streak b := rfl
  firedFor b := by simp [counted_of_current_ne, default, blockLength]

/-- A streak stays below `fire_after` exactly when the block does. -/
theorem TracksBlocks.lt_fireAfter_iff {fireAfter : UInt32} {classified : List CheckpointBucket}
    {d : DominantStreak} (h : TracksBlocks fireAfter classified d) (b : CheckpointBucket) :
    (d.counted b).streak < fireAfter ↔ blockLength b classified + 1 < fireAfter.toNat := by
  have := fireAfter.toNat_lt
  rw [UInt32.lt_iff_toNat_lt, h.streak]
  omega

/-- One classified interval keeps the invariant. -/
theorem TracksBlocks.observe {fireAfter : UInt32} {classified : List CheckpointBucket}
    {d : DominantStreak} (h : TracksBlocks fireAfter classified d) (b : CheckpointBucket) :
    TracksBlocks fireAfter (classified ++ [b]) (d.observe (some b) fireAfter).1 := by
  have hlt := h.lt_fireAfter_iff b
  have hfired := h.firedFor b
  -- whatever the branch, this is all that matters of the next state
  obtain ⟨hcurrent, hstreak, hnext⟩ : (d.observe (some b) fireAfter).1.current = some b ∧
      (d.observe (some b) fireAfter).1.streak = (d.counted b).streak ∧
      ((d.observe (some b) fireAfter).1.firedFor = some b ↔
        max 1 fireAfter.toNat ≤ blockLength b classified + 1) := by
    rcases d.observe_cases b fireAfter with ⟨hbelow, heq⟩ | ⟨hreach, hflag, heq⟩ |
      ⟨hreach, hflag, heq⟩
    · rw [heq]
      rw [hlt] at hbelow
      exact ⟨d.current_counted b, rfl, by rw [hfired]; omega⟩
    · rw [heq]
      rw [hlt] at hreach
      have hrun := hfired.mp hflag
      exact ⟨d.current_counted b, rfl, by rw [hfired]; omega⟩
    · rw [heq]
      rw [hlt] at hreach
      exact ⟨d.current_counted b, rfl, by simp only [true_iff]; omega⟩
  constructor
  · intro b'
    rw [blockLength_concat]
    by_cases hb : b = b'
    · subst hb
      rw [counted, if_pos hcurrent, if_pos rfl]
      exact UInt32.toNat_saturatingAdd_one (by rw [hstreak, h.streak])
    · rw [counted_of_current_ne (by simpa [hcurrent] using hb), if_neg hb]
      rfl
  · intro b'
    rw [blockLength_concat]
    by_cases hb : b = b'
    · subst hb
      rw [counted, if_pos hcurrent, if_pos rfl]
      exact hnext
    · rw [counted_of_current_ne (by simpa [hcurrent] using hb), if_neg hb]
      simp

/-- **The invariant, after any intervals.** -/
theorem tracksBlocks_final (fireAfter : UInt32) (buckets : List (Option CheckpointBucket)) :
    TracksBlocks fireAfter buckets.reduceOption
      (Mealy.final (fun d o => DominantStreak.observe d o fireAfter) default buckets) := by
  refine Mealy.final_induction (P := fun buckets d =>
    TracksBlocks fireAfter buckets.reduceOption d) _ (tracksBlocks_default fireAfter) ?_ buckets
  intro buckets o h
  cases o with
  | none => simpa [List.reduceOption_append, DominantStreak.observe] using h
  | some b =>
    rw [List.reduceOption_append]
    exact h.observe b

/-- **A streak fires when a block of one bucket gets `max 1 fire_after` long**, and reports that
length. -/
theorem TracksBlocks.justFired_iff {fireAfter : UInt32} {classified : List CheckpointBucket}
    {d : DominantStreak} (h : TracksBlocks fireAfter classified d) {o : Option CheckpointBucket}
    {b : CheckpointBucket} {s : UInt32} :
    (d.observe o fireAfter).2 = .justFired b s ↔
      o = some b ∧ blockLength b (classified ++ [b]) = max 1 fireAfter.toNat ∧
        s.toNat = max 1 fireAfter.toNat := by
  cases o with
  | none => simp [DominantStreak.observe]
  | some b' =>
    have hlt := h.lt_fireAfter_iff b'
    have hstreak := h.streak b'
    have hfired := h.firedFor b'
    have hbound := fireAfter.toNat_lt
    rw [blockLength_concat, if_pos rfl, Option.some.injEq]
    rcases d.observe_cases b' fireAfter with ⟨hbelow, heq⟩ | ⟨hreach, hflag, heq⟩ |
      ⟨hreach, hflag, heq⟩
    · rw [heq]
      rw [hlt] at hbelow
      simp only [reduceCtorEq, false_iff]
      rintro ⟨rfl, hlen, -⟩
      omega
    · rw [heq]
      have hrun := hfired.mp hflag
      simp only [reduceCtorEq, false_iff]
      rintro ⟨rfl, hlen, -⟩
      omega
    · rw [heq]
      rw [hlt] at hreach
      rw [ne_eq, hfired] at hflag
      rw [StreakState.justFired.injEq, ← UInt32.toNat_inj, hstreak]
      constructor
      · rintro ⟨rfl, hs⟩
        exact ⟨rfl, by omega, by omega⟩
      · rintro ⟨rfl, hlen, hs⟩
        exact ⟨rfl, by omega⟩

end DominantStreak

/-! ### What a finding says -/

theorem slug_injective : Function.Injective CheckpointBucket.slug := by
  intro b b' h
  cases b <;> cases b' <;> first | rfl | exact absurd h (by decide)

theorem evidence_buildFinding (firedAt : DateTime) (pgInstance : String) (b : CheckpointBucket)
    (streak : UInt32) (intervalMs : UInt64) :
    (buildFinding firedAt pgInstance b streak intervalMs).evidence.get? "bucket" =
        some (.string b.slug) ∧
      (buildFinding firedAt pgInstance b streak intervalMs).evidence.get? "streak_intervals" =
        some (.int streak.toNat) := by
  rw [buildFinding]
  constructor
  · exact JsonValue.get?_ofJson_of_mem (by simp) (by simp) (Json.normalize_string b.slug)
  · exact JsonValue.get?_ofJson_of_mem (by simp) (by simp) (Json.normalize_int_uint32 streak)

/-! ### The loop -/

/-- What the intervals between successive polls are classified as. -/
def intervals (snaps : List CheckpointerSnapshot) : List (Option CheckpointBucket) :=
  List.zipWith classify snaps snaps.tail

/-- A run in which every poll succeeds. -/
def polled (polls : List (DateTime × CheckpointerSnapshot)) : List Tick :=
  polls.map fun poll => ⟨poll.1, some poll.2⟩

variable (args : Args)

/-- The finding a tick emits. -/
def findingAt (ticks : List Tick) (t : ℕ) : Option Finding :=
  ((Mealy.outputs (stormStep args) .new ticks)[t]?.bind id).bind Outcome.finding

/-- **Findings tell the truth**: a finding that names a bucket and a number of consecutive intervals
is right about each of the intervals before it. -/
def TellsTruth (polls : List (DateTime × CheckpointerSnapshot)) : Prop :=
  ∀ (t : ℕ) (f : Finding) (b : CheckpointBucket) (s : ℕ),
    findingAt args (polled polls) t = some f →
    f.evidence.get? "bucket" = some (.string b.slug) →
    f.evidence.get? "streak_intervals" = some (.int s) →
    ∀ i < s, i < t ∧ (intervals (polls.map Prod.snd))[t - 1 - i]? = some (some b)

theorem getElem?_intervals (snaps : List CheckpointerSnapshot) (u : ℕ) :
    (intervals snaps)[u]? = snaps[u]?.bind fun p => snaps[u + 1]?.map (classify p) := by
  rw [intervals, List.getElem?_zipWith, List.getElem?_tail]
  cases snaps[u]? <;> cases snaps[u + 1]? <;> rfl

theorem intervals_take (snaps : List CheckpointerSnapshot) (n : ℕ) :
    intervals (snaps.take (n + 1)) = (intervals snaps).take n := by
  refine List.ext_getElem? ?_
  intro u
  rw [getElem?_intervals, List.getElem?_take, List.getElem?_take, List.getElem?_take,
    getElem?_intervals]
  by_cases hu : u < n
  · rw [if_pos (by omega), if_pos (by omega), if_pos hu]
  · rw [if_neg (by omega : ¬ u + 1 < n + 1), if_neg hu]
    cases (if u < n + 1 then snaps[u]? else none) <;> rfl

/-- One more poll ends an interval, unless it is the first. -/
theorem intervals_concat (snaps : List CheckpointerSnapshot) (c : CheckpointerSnapshot) :
    intervals (snaps ++ [c]) =
      intervals snaps ++ (snaps.getLast?.map fun p => classify p c).toList := by
  cases snaps using List.reverseRecOn with
  | nil => rfl
  | append_singleton snaps p =>
    have htake := intervals_take (snaps ++ [p] ++ [c]) snaps.length
    rw [List.take_left' (by simp)] at htake
    have hlast : (intervals (snaps ++ [p] ++ [c]))[snaps.length]? = some (classify p c) := by
      simp [getElem?_intervals]
    have hlen : (intervals (snaps ++ [p] ++ [c])).length = snaps.length + 1 := by
      simp [intervals]
    calc intervals (snaps ++ [p] ++ [c])
        = (intervals (snaps ++ [p] ++ [c])).take (snaps.length + 1) :=
          (List.take_of_length_le hlen.le).symm
      _ = intervals (snaps ++ [p]) ++ ((snaps ++ [p]).getLast?.map (classify · c)).toList := by
          rw [List.take_add_one, ← htake, hlast, List.getLast?_concat, Option.map_some]

/-- The bucket of the interval a poll ends. -/
def bucketOf (snaps : List CheckpointerSnapshot) (c : CheckpointerSnapshot) :
    Option CheckpointBucket :=
  snaps.getLast?.bind fun p => classify p c

theorem prev_final_polled (polls : List (DateTime × CheckpointerSnapshot)) :
    (Mealy.final (stormStep args) .new (polled polls)).prev =
      (polls.map Prod.snd).getLast? := by
  rw [prev_final]
  simp [polled, lastSome]

/-- After any polls the streak is what the intervals between them make of it. -/
theorem streak_final (polls : List (DateTime × CheckpointerSnapshot)) :
    (Mealy.final (stormStep args) .new (polled polls)).streak =
      Mealy.final (fun d o => DominantStreak.observe d o args.fireAfter) .default
        (intervals (polls.map Prod.snd)) := by
  induction polls using List.reverseRecOn with
  | nil => rfl
  | append_singleton polls poll ih =>
    have hsplit : polled (polls ++ [poll]) = polled polls ++ [⟨poll.1, some poll.2⟩] := by
      simp [polled]
    have hprev := prev_final_polled args polls
    rw [hsplit, Mealy.final_append, List.map_append, List.map_singleton, intervals_concat,
      Mealy.final_append, ← ih]
    cases hlast : (polls.map Prod.snd).getLast? with
    | none =>
      rw [hlast] at hprev
      simp [stormStep, hprev, DominantStreak.observe]
    | some p =>
      rw [hlast] at hprev
      simp [stormStep, hprev]

/-- A poll emits a finding exactly when the streak fires. -/
theorem finding_stormStep_iff (s : State) (now : DateTime) (c : CheckpointerSnapshot)
    (f : Finding) :
    (stormStep args s ⟨now, some c⟩).2.bind Outcome.finding = some f ↔
      ∃ b k, (s.streak.observe (s.prev.bind fun p => classify p c) args.fireAfter).2 =
          .justFired b k ∧
        f = buildFinding now args.pgInstanceId b k args.intervalMs := by
  simp only [stormStep, Option.bind_some]
  constructor
  · intro h
    split at h
    · rename_i b k hfired
      exact ⟨b, k, hfired, (Option.some.inj h).symm⟩
    · cases h
  · rintro ⟨b, k, hfired, rfl⟩
    rw [hfired]

/-- **When a poll emits a finding**: when the interval it ends completes a block of one bucket. -/
theorem findingAt_iff (polls : List (DateTime × CheckpointerSnapshot)) (t : ℕ) (f : Finding) :
    findingAt args (polled polls) t = some f ↔
      ∃ now c b s, polls[t]? = some (now, c) ∧
        bucketOf ((polls.take t).map Prod.snd) c = some b ∧
        blockLength b ((intervals ((polls.take t).map Prod.snd)).reduceOption ++ [b]) =
          max 1 args.fireAfter.toNat ∧
        s.toNat = max 1 args.fireAfter.toNat ∧
        f = buildFinding now args.pgInstanceId b s args.intervalMs := by
  have hget : (polled polls)[t]? =
      polls[t]?.map fun poll : DateTime × CheckpointerSnapshot => ⟨poll.1, some poll.2⟩ :=
    List.getElem?_map ..
  have htake : (polled polls).take t = polled (polls.take t) := List.map_take.symm
  rw [findingAt, Mealy.getElem?_outputs, hget, htake]
  cases polls[t]? with
  | none => simp
  | some poll =>
    obtain ⟨now, c⟩ := poll
    have htracks := DominantStreak.tracksBlocks_final args.fireAfter
      (intervals ((polls.take t).map Prod.snd))
    rw [← streak_final] at htracks
    simp only [Option.map_some, Option.bind_some, id, finding_stormStep_iff, prev_final_polled,
      Option.some.injEq, Prod.mk.injEq]
    constructor
    · rintro ⟨b, s, hfired, rfl⟩
      obtain ⟨hb, hlen, hs⟩ := htracks.justFired_iff.mp hfired
      exact ⟨now, c, b, s, ⟨rfl, rfl⟩, hb, hlen, hs, rfl⟩
    · rintro ⟨now', c', b, s, ⟨rfl, rfl⟩, hb, hlen, hs, rfl⟩
      exact ⟨b, s, htracks.justFired_iff.mpr ⟨hb, hlen, hs⟩, rfl⟩

/-- The same, in terms of the intervals of the whole run. -/
theorem findingAt_succ_iff (polls : List (DateTime × CheckpointerSnapshot)) (u : ℕ)
    (f : Finding) :
    let L := intervals (polls.map Prod.snd)
    findingAt args (polled polls) (u + 1) = some f ↔
      ∃ now b s, polls[u + 1]?.map Prod.fst = some now ∧ L[u]? = some (some b) ∧
        blockLength b (L.take (u + 1)).reduceOption = max 1 args.fireAfter.toNat ∧
        s.toNat = max 1 args.fireAfter.toNat ∧
        f = buildFinding now args.pgInstanceId b s args.intervalMs := by
  intro L
  have hL : intervals ((polls.take (u + 1)).map Prod.snd) = L.take u := by
    rw [List.map_take, intervals_take]
  have hbucket {now : DateTime} {c : CheckpointerSnapshot} (hc : polls[u + 1]? = some (now, c)) :
      L[u]? = some (bucketOf ((polls.take (u + 1)).map Prod.snd) c) := by
    have hlt := (List.getElem?_eq_some_iff.mp hc).1
    have hlast : ((polls.take (u + 1)).map Prod.snd).getLast? = (polls.map Prod.snd)[u]? := by
      rw [List.getLast?_eq_getElem?, List.map_take, List.length_take, List.length_map,
        Nat.min_eq_left (by omega), Nat.add_sub_cancel, List.getElem?_take_of_lt (by omega)]
    have hcur : (polls.map Prod.snd)[u + 1]? = some c := by
      rw [List.getElem?_map, hc]
      rfl
    have hprev : (polls.map Prod.snd)[u]? = some polls[u].2 := by
      rw [List.getElem?_map, List.getElem?_eq_getElem (by omega)]
      rfl
    rw [getElem?_intervals, bucketOf, hlast, hcur, hprev]
    rfl
  rw [findingAt_iff, hL]
  constructor
  · rintro ⟨now, c, b, s, hc, hb, hlen, hs, rfl⟩
    have hat := hbucket hc
    rw [hb] at hat
    refine ⟨now, b, s, by rw [hc]; rfl, hat, ?_, hs, rfl⟩
    rw [List.take_add_one, hat, List.reduceOption_append]
    exact hlen
  · rintro ⟨now, b, s, hnow, hat, hlen, hs, rfl⟩
    obtain ⟨⟨now, c⟩, hc, rfl⟩ := Option.map_eq_some_iff.mp hnow
    have hb := hbucket hc
    rw [hat, Option.some.injEq] at hb
    refine ⟨now, c, b, s, hc, hb.symm, ?_, hs, rfl⟩
    rw [List.take_add_one, hat, List.reduceOption_append] at hlen
    exact hlen

/-! ### The truth of findings -/

/-- A gap inside the beginning of a block makes a finding that does not tell the truth. -/
theorem not_bridgesGap_of_tellsTruth {polls : List (DateTime × CheckpointerSnapshot)}
    (htruth : TellsTruth args polls) (b : CheckpointBucket) :
    ¬ BridgesGap (fun b' => b' = b) (max 1 args.fireAfter.toNat)
      (intervals (polls.map Prod.snd)) := by
  refine (forall_run_iff_not_bridgesGap _ _ _).mp ?_
  intro u a ha hrun
  have hsame := satisfies_of_trailingRun_pos (fun b' => b' = b) ha (by rw [hrun]; omega)
  obtain rfl : a = b := of_decide_eq_true hsame
  have hlt : u + 1 < polls.length := by
    have hu := (List.getElem?_eq_some_iff.mp ha).1
    simp only [intervals, List.length_zipWith, List.length_tail, List.length_map] at hu
    omega
  have hs := UInt32.toNat_max_one args.fireAfter
  have hfound := (findingAt_succ_iff args polls u _).mpr
    ⟨_, a, _, by rw [List.getElem?_eq_getElem hlt]; rfl, ha, hrun, hs, rfl⟩
  obtain ⟨hbucket, hstreak⟩ := evidence_buildFinding polls[u + 1].1 args.pgInstanceId a
    (max 1 args.fireAfter) args.intervalMs
  intro i hi
  obtain ⟨hit, hat⟩ := htruth (u + 1) _ a _ hfound hbucket hstreak i (by rwa [hs])
  exact ⟨by omega, a, by simpa using hat, by simp⟩

/-- Without such a gap, every finding tells the truth. -/
theorem tellsTruth_of_not_bridgesGap {polls : List (DateTime × CheckpointerSnapshot)}
    (hgap : ∀ b, ¬ BridgesGap (fun b' => b' = b) (max 1 args.fireAfter.toNat)
      (intervals (polls.map Prod.snd))) : TellsTruth args polls := by
  intro t f b s hf hb hs i hi
  cases t with
  | zero =>
    obtain ⟨now, c, b', s', -, hb', -⟩ := (findingAt_iff args polls 0 f).mp hf
    simp [bucketOf] at hb'
  | succ u =>
    obtain ⟨now, b', s', -, hat, hlen, hs', rfl⟩ := (findingAt_succ_iff args polls u f).mp hf
    obtain ⟨hbucket, hstreak⟩ := evidence_buildFinding now args.pgInstanceId b' s' args.intervalMs
    rw [hbucket, Option.some.injEq, Json.string.injEq] at hb
    rw [hstreak, Option.some.injEq, Json.int.injEq] at hs
    obtain rfl := slug_injective hb
    have hlong : i < max 1 args.fireAfter.toNat := by omega
    obtain ⟨hiu, b, hbi, hbb⟩ :=
      (forall_run_iff_not_bridgesGap _ _ _).mpr (hgap b') u b' hat hlen i hlong
    obtain rfl : b = b' := by simpa using hbb
    exact ⟨by omega, by simpa using hbi⟩

/-- **Exactly when findings tell the truth**: when no interval without a classification comes after
fewer than `max 1 fire_after` classified intervals of one bucket and is followed by as many more of
it as complete the streak. -/
theorem tellsTruth_iff (polls : List (DateTime × CheckpointerSnapshot)) :
    TellsTruth args polls ↔ ∀ b, ¬ BridgesGap (fun b' => b' = b) (max 1 args.fireAfter.toNat)
      (intervals (polls.map Prod.snd)) := by
  constructor
  · intro htruth b
    exact not_bridgesGap_of_tellsTruth args htruth b
  · intro hgap
    exact tellsTruth_of_not_bridgesGap args hgap

/-! ### A quiet interval in between -/

/-- One checkpoint requested, a quiet interval, and another one requested. -/
def quietBetween : List (DateTime × CheckpointerSnapshot) :=
  [(.atSecond 0, ⟨0, 0, 0, 0, 0⟩), (.atSecond 1, ⟨0, 1, 0, 0, 0⟩),
    (.atSecond 2, ⟨0, 1, 0, 0, 0⟩), (.atSecond 3, ⟨0, 2, 0, 0, 0⟩)]

theorem intervals_quietBetween :
    intervals (quietBetween.map Prod.snd) = [some .forced, none, some .forced] := by rfl

/-- Findings do not always tell the truth: two forced checkpoints with a quiet interval between them
are reported as two consecutive intervals. -/
theorem not_tellsTruth :
    ¬ ∀ (args : Args) (polls : List (DateTime × CheckpointerSnapshot)), TellsTruth args polls := by
  intro h
  refine not_bridgesGap_of_tellsTruth ⟨1000, 2, "fixture-pg"⟩ (h _ quietBetween) .forced ?_
  rw [intervals_quietBetween]
  exact ⟨[some .forced], [some .forced], rfl, by decide, by decide, by decide, by decide⟩

end CheckpointStorm

end PgSleuth
