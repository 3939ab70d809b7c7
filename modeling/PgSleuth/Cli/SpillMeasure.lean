import PgSleuth.Cli.Findings
import PgSleuth.ForMathlib.FileTree

/-!
# From the disk to the temp-spill findings

`pgsleuth-cli/src/temp_spill.rs` and `run_temp_spill` in `main.rs`: what the capacity rule is
started with, and how it measures the temporary files and their mount. Backends create and remove
files while the poller walks, so a file may be gone when its length is asked for, and the directory
may come or go between the walk and the look at the mount.

## The file system

The walk is that of the `walkdir` crate, of which only the documented part is used: each entry is
visited once, in whatever order a directory lists its entries. Links are not followed.

## Main definitions

* `Disk` — what the calls of one measurement find
* `sample` — the measurement
* `TempSpillArgs.config` — what the poller is started with

## Main results

* `capacity_counts_bytes` — the findings of a run are about the bytes on the disk
-/

namespace PgSleuth

namespace TempSpill

/-- The answer of `statvfs` for a mount. -/
structure Statvfs where
  fragmentSize : UInt64
  blocks : UInt64
  /-- Blocks available to processes that are not root's. -/
  blocksAvailable : UInt64
  fragmentSize_pos : 0 < fragmentSize.toNat
  available_le : blocksAvailable.toNat ≤ blocks.toNat
  /-- The size of a mount in bytes fits the 64 bits the kernel keeps it in. -/
  fits : fragmentSize.toNat * blocks.toNat < 2 ^ 64

/-- A tree of files with their lengths, unless `metadata()` fails. -/
abbrev SpillTree := FileTree (Option UInt64)

/-- A walk of the file system. -/
structure WalkDir where
  walk : SpillTree → List (Option (FileTree.Visit (Option UInt64)))
  /-- Every entry is visited once. -/
  visits : ∀ t, (walk t).Perm t.walk

/-- What one measurement finds under `$PGDATA/base`. -/
structure Disk where
  /-- `pgsql_tmp/`, when it is to be walked. -/
  tmpDir : Option SpillTree
  /-- `pgsql_tmp/` exists, when the mount is looked for. -/
  tmpDirExists : Bool
  /-- `statvfs` of `pgsql_tmp/`, unless it fails. -/
  statvfsTmpDir : Option Statvfs
  /-- `statvfs` of `base/`, unless it fails. -/
  statvfsBase : Option Statvfs

/-- One entry of the walk: the length of a regular file is added, errors are passed over. -/
def addVisit (total : UInt64) : Option (FileTree.Visit (Option UInt64)) → UInt64
  | some (.file (some len)) => total.saturatingAdd len
  | _ => total

/-- The sum of the file sizes of a walk of `pgsql_tmp/`, zero if it does not exist. -/
def footprint : Option (List (Option (FileTree.Visit (Option UInt64)))) → UInt64
  | none => 0
  | some visits => visits.foldl addVisit 0

/-- The mount that has `pgsql_tmp/`, or `base/` when there is none. -/
def Disk.mount (d : Disk) : Option Statvfs :=
  if d.tmpDirExists then d.statvfsTmpDir else d.statvfsBase

/-- Total and available bytes of the mount. -/
def mountCapacity (d : Disk) : Option (UInt64 × UInt64) := do
  let v ← d.mount
  return (v.fragmentSize.saturatingMul v.blocks, v.fragmentSize.saturatingMul v.blocksAvailable)

/-- One snapshot. -/
def sample (w : WalkDir) (d : Disk) : Option TempSpillSample := do
  let footprintBytes := footprint (d.tmpDir.map w.walk)
  let (total, available) ← mountCapacity d
  return { footprintBytes, mountTotalBytes := total, mountAvailableBytes := available }

/-- The command line. -/
structure TempSpillArgs where
  pgdata : Option String
  pgConn : Option String
  footprintThresholdMb : UInt64
  freeThresholdPct : UInt8
  pgInstance : String

/-- `$PGDATA`: from the command line, else what the server at the connection answers to
`SHOW data_directory`. -/
def resolvePgdata (args : TempSpillArgs) (showDataDirectory : String → Option String) :
    Option String :=
  match args.pgdata with
  | some p => some p
  | none => do
    let conn ← args.pgConn
    showDataDirectory conn

/-- What the poller is started with. -/
def TempSpillArgs.config (args : TempSpillArgs) (showDataDirectory : String → Option String) :
    Option TempSpillConfig := do
  let pgdata ← resolvePgdata args showDataDirectory
  return { pgdata, footprintThresholdBytes := args.footprintThresholdMb.saturatingMul (1024 * 1024),
           freeThresholdPct := args.freeThresholdPct, pgInstanceId := args.pgInstance }

/-! ### What is measured -/

/-- The length of a file, zero once it is gone. -/
def fileLen (len : Option UInt64) : ℕ := (len.map UInt64.toNat).getD 0

/-- The bytes of the regular files that can still be looked at. -/
def Disk.spilled (d : Disk) : ℕ := (d.tmpDir.map (FileTree.totalSize fileLen)).getD 0

theorem toNat_addVisit (total : UInt64) (entry : Option (FileTree.Visit (Option UInt64))) :
    (addVisit total entry).toNat =
      min (total.toNat + FileTree.Visit.size fileLen entry) (2 ^ 64 - 1) := by
  have htotal := total.toNat_lt
  match entry with
  | some (.file (some len)) => exact UInt64.toNat_saturatingAdd ..
  | some (.file none) | some .dir | some .other | none =>
    simp only [addVisit, FileTree.Visit.size, fileLen, Option.map_none, Option.getD_none]
    omega

theorem toNat_foldl_addVisit (visits : List (Option (FileTree.Visit (Option UInt64))))
    (total : UInt64) :
    (visits.foldl addVisit total).toNat =
      min (total.toNat + (visits.map (FileTree.Visit.size fileLen)).sum) (2 ^ 64 - 1) := by
  induction visits generalizing total with
  | nil =>
    have htotal := total.toNat_lt
    simp only [List.foldl_nil, List.map_nil, List.sum_nil]
    omega
  | cons entry visits ih =>
    rw [List.foldl_cons, ih, toNat_addVisit, List.map_cons, List.sum_cons]
    omega

/-- The walk adds up what is spilled, as far as 64 bits go. -/
theorem toNat_footprint (w : WalkDir) (d : Disk) :
    (footprint (d.tmpDir.map w.walk)).toNat = min d.spilled (2 ^ 64 - 1) := by
  cases h : d.tmpDir with
  | none => simp [footprint, Disk.spilled, h]
  | some t =>
    have hsum := FileTree.sum_sizes_of_perm fileLen (w.visits t)
    simp only [Option.map_some, footprint, toNat_foldl_addVisit, hsum, Disk.spilled, h,
      Option.getD_some, UInt64.toNat_zero, Nat.zero_add]

namespace Statvfs

variable (v : Statvfs)

/-- The share of the mount that is available, in percent. -/
def freePct : ℕ := if v.blocks = 0 then 100 else v.blocksAvailable.toNat * 100 / v.blocks.toNat

theorem toNat_total : (v.fragmentSize.saturatingMul v.blocks).toNat =
    v.fragmentSize.toNat * v.blocks.toNat := by
  have hfits := v.fits
  rw [UInt64.toNat_saturatingMul]
  omega

theorem toNat_available : (v.fragmentSize.saturatingMul v.blocksAvailable).toNat =
    v.fragmentSize.toNat * v.blocksAvailable.toNat := by
  have hfits := v.fits
  have hle := Nat.mul_le_mul_left v.fragmentSize.toNat v.available_le
  rw [UInt64.toNat_saturatingMul]
  omega

end Statvfs

/-- What is measured of a mount. -/
def sampleOf (w : WalkDir) (d : Disk) (v : Statvfs) : TempSpillSample where
  footprintBytes := footprint (d.tmpDir.map w.walk)
  mountTotalBytes := v.fragmentSize.saturatingMul v.blocks
  mountAvailableBytes := v.fragmentSize.saturatingMul v.blocksAvailable

theorem sample_eq (w : WalkDir) (d : Disk) : sample w d = d.mount.map (sampleOf w d) := by
  cases h : d.mount <;> simp [sample, mountCapacity, sampleOf, h]

/-- The percentage of a sample is that of the mount. -/
theorem toNat_freePct_sampleOf (w : WalkDir) (d : Disk) (v : Statvfs) :
    (sampleOf w d v).freePct.toNat = v.freePct := by
  have htotal : (sampleOf w d v).mountTotalBytes.toNat = v.fragmentSize.toNat * v.blocks.toNat :=
    v.toNat_total
  have havailable : (sampleOf w d v).mountAvailableBytes.toNat =
      v.fragmentSize.toNat * v.blocksAvailable.toNat := v.toNat_available
  have hpos := v.fragmentSize_pos
  have hlt := (sampleOf w d v).mountAvailableBytes.toNat_lt
  rw [TempSpillSample.freePct, Statvfs.freePct]
  by_cases hblocks : v.blocks = 0
  · have hzero : (sampleOf w d v).mountTotalBytes = 0 := by
      refine UInt64.toNat_inj.mp ?_
      rw [htotal, hblocks, UInt64.toNat_zero, Nat.mul_zero]
    rw [hzero, if_pos hblocks]
    rfl
  · have hblocks' : 0 < v.blocks.toNat :=
      Nat.pos_of_ne_zero fun h => hblocks (UInt64.toNat_inj.mp h)
    have hne : ¬ (sampleOf w d v).mountTotalBytes = 0 := by
      intro h
      rw [h, UInt64.toNat_zero] at htotal
      exact (Nat.mul_pos hpos hblocks').ne htotal
    have hdiv : min ((sampleOf w d v).mountAvailableBytes.toNat * 100) (2 ^ 128 - 1) /
        (sampleOf w d v).mountTotalBytes.toNat =
          v.blocksAvailable.toNat * 100 / v.blocks.toNat := by
      rw [Nat.min_eq_left (by omega), htotal, havailable, Nat.mul_assoc,
        Nat.mul_div_mul_left _ _ hpos]
    have hle : v.blocksAvailable.toNat * 100 / v.blocks.toNat ≤ 100 := by
      refine Nat.div_le_of_le_mul ?_
      rw [Nat.mul_comm v.blocks.toNat]
      exact Nat.mul_comm 100 _ ▸ Nat.mul_le_mul_left 100 v.available_le
    rw [if_neg (by simpa using hne), if_neg hblocks, UInt8.toNat_ofNatClamp, hdiv,
      Nat.min_eq_left (by omega)]

/-- Comparing the percentage with a threshold is comparing the shares, but of a mount without blocks
all is available. -/
theorem Statvfs.freePct_lt_iff (v : Statvfs) (pct : ℕ) :
    v.freePct < pct ↔ v.blocksAvailable.toNat * 100 < pct * v.blocks.toNat ∨
      v.blocks = 0 ∧ 100 < pct := by
  rw [freePct]
  by_cases hblocks : v.blocks = 0
  · rw [if_pos hblocks]
    simp only [hblocks, UInt64.toNat_zero, Nat.mul_zero, true_and, Nat.not_lt_zero, false_or]
  · have hpos : 0 < v.blocks.toNat :=
      Nat.pos_of_ne_zero fun h => hblocks (UInt64.toNat_inj.mp h)
    rw [if_neg hblocks, Nat.div_lt_iff_lt_mul hpos]
    simp only [hblocks, false_and, or_false]

/-! ### The rule over the disk -/

namespace TempSpillArgs

variable (args : TempSpillArgs)

/-- More is spilled than the threshold, as far as 64 bits go. -/
def Oversized (d : Disk) : Prop :=
  args.footprintThresholdMb.toNat * 2 ^ 20 < min d.spilled (2 ^ 64 - 1)

instance (d : Disk) : Decidable (args.Oversized d) := inferInstanceAs (Decidable (_ < _))

/-- Less of the mount is available than the threshold, of which a mount without blocks only falls
short when that is more than all. -/
def Scarce (v : Statvfs) : Prop :=
  v.blocksAvailable.toNat * 100 < args.freeThresholdPct.toNat * v.blocks.toNat ∨
    v.blocks = 0 ∧ 100 < args.freeThresholdPct.toNat

instance (v : Statvfs) : Decidable (args.Scarce v) := inferInstanceAs (Decidable (_ ∨ _))

theorem config_eq_some {showDataDirectory : String → Option String} {cfg : TempSpillConfig} :
    args.config showDataDirectory = some cfg ↔
      ∃ pgdata, resolvePgdata args showDataDirectory = some pgdata ∧
        cfg = ⟨pgdata, args.footprintThresholdMb.saturatingMul (1024 * 1024),
          args.freeThresholdPct, args.pgInstance⟩ := by
  simp [config, Option.bind_eq_some_iff, eq_comm (a := cfg)]

variable {args}

/-- What the poller makes of a measurement. -/
theorem breaches_sampleOf {showDataDirectory : String → Option String} {cfg : TempSpillConfig}
    (h : args.config showDataDirectory = some cfg) (w : WalkDir) (d : Disk) (v : Statvfs) :
    (sampleOf w d v).breaches cfg =
      if args.Oversized d then
        some (.footprint (footprint (d.tmpDir.map w.walk)) cfg.footprintThresholdBytes)
      else if args.Scarce v then
        some (.freeSpace (sampleOf w d v).freePct cfg.freeThresholdPct)
      else none := by
  obtain ⟨pgdata, -, rfl⟩ := (config_eq_some args).mp h
  have hfootprint : args.footprintThresholdMb.saturatingMul (1024 * 1024) <
      footprint (d.tmpDir.map w.walk) ↔ args.Oversized d := by
    have hmega : (1024 * 1024 : UInt64).toNat = 2 ^ 20 := rfl
    rw [UInt64.lt_iff_toNat_lt, UInt64.toNat_saturatingMul, toNat_footprint, hmega, Oversized]
    omega
  have hscarce : (0 < args.freeThresholdPct && (sampleOf w d v).freePct < args.freeThresholdPct) =
      true ↔ args.Scarce v := by
    rw [Scarce, ← v.freePct_lt_iff, ← toNat_freePct_sampleOf w d v, ← UInt8.lt_iff_toNat_lt,
      Bool.and_eq_true, decide_eq_true_eq, decide_eq_true_eq, and_iff_right_iff_imp]
    exact UInt8.lt_of_le_of_lt (UInt8.zero_le ..)
  unfold TempSpillSample.breaches
  rw [if_congr hscarce rfl rfl]
  exact if_congr hfootprint rfl rfl

end TempSpillArgs

/-- A tick of the loop: the clock, and what the measurement finds. -/
structure DiskTick where
  now : DateTime
  disk : Disk

/-- What the loop sees of a tick. -/
def DiskTick.tick (w : WalkDir) (p : DiskTick) : Tick where
  now := p.now
  sample := sample w p.disk

/-- Whether the disk is beyond one of the thresholds, unless the mount cannot be looked at. -/
def DiskTick.verdict (args : TempSpillArgs) (p : DiskTick) : Option Bool :=
  p.disk.mount.map fun v => args.Oversized p.disk ∨ args.Scarce v

/-- What a finding says of a disk. -/
def DiskTick.Supports (args : TempSpillArgs) (p : DiskTick) (f : Finding) : Prop :=
  ∃ v, p.disk.mount = some v ∧
    (args.Oversized p.disk ∧
        f.evidence.get? "trigger" = some (.string "footprint") ∧
        f.evidence.get? "footprint_bytes" = some (.int (min p.disk.spilled (2 ^ 64 - 1) : ℕ)) ∨
      ¬ args.Oversized p.disk ∧ args.Scarce v ∧
        f.evidence.get? "trigger" = some (.string "free_space") ∧
        f.evidence.get? "free_pct" = some (.int v.freePct))

section run

variable {args : TempSpillArgs} {showDataDirectory : String → Option String}
  {cfg : TempSpillConfig}

/-- The loop judges the disk. -/
theorem verdict_tick (h : args.config showDataDirectory = some cfg) (w : WalkDir) (p : DiskTick) :
    verdict cfg (p.tick w) = p.verdict args := by
  have hjudged (v : Statvfs) : ((sampleOf w p.disk v).breaches cfg).isSome =
      decide (args.Oversized p.disk ∨ args.Scarce v) := by
    rw [TempSpillArgs.breaches_sampleOf h]
    by_cases hoversized : args.Oversized p.disk
    · rw [if_pos hoversized, Option.isSome_some, decide_eq_true (Or.inl hoversized)]
    · rw [if_neg hoversized]
      by_cases hscarce : args.Scarce v
      · rw [if_pos hscarce, Option.isSome_some, decide_eq_true (Or.inr hscarce)]
      · rw [if_neg hscarce, Option.isSome_none, decide_eq_false (not_or.mpr ⟨hoversized, hscarce⟩)]
  rw [verdict, DiskTick.tick, DiskTick.verdict, sample_eq, Option.map_map]
  exact congrArg (p.disk.mount.map ·) (funext hjudged)

theorem verdicts_map_tick (h : args.config showDataDirectory = some cfg) (w : WalkDir)
    (run : List DiskTick) :
    (verdicts cfg (run.map (DiskTick.tick w))).reduceOption =
      run.filterMap (DiskTick.verdict args) := by
  rw [verdicts, List.reduceOption, List.map_map, List.filterMap_map]
  exact List.filterMap_congr fun p _ => verdict_tick h w p

theorem supports_of_mem_findings_disk (h : args.config showDataDirectory = some cfg)
    (w : WalkDir) {run : List DiskTick} {f : Finding}
    (hf : f ∈ findings cfg (run.map (DiskTick.tick w))) :
    ∃ p ∈ run, f.firedAt = p.now ∧ p.Supports args f := by
  obtain ⟨tick, htick, snap, reason, hsample, hbreach, rfl⟩ := exists_of_mem_findings cfg hf
  obtain ⟨p, hp, rfl⟩ := List.mem_map.mp htick
  rw [DiskTick.tick, sample_eq, Option.map_eq_some_iff] at hsample
  obtain ⟨v, hv, rfl⟩ := hsample
  have hsample : (p.tick w).sample = some (sampleOf w p.disk v) := by
    rw [DiskTick.tick, sample_eq, hv, Option.map_some]
  have hcarries := Emits.carries cfg ⟨_, hsample, hbreach, rfl⟩
  refine ⟨p, hp, rfl, v, hv, ?_⟩
  rw [TempSpillArgs.breaches_sampleOf h] at hbreach
  by_cases hoversized : args.Oversized p.disk
  · left
    rw [if_pos hoversized] at hbreach
    obtain rfl := Option.some.inj hbreach
    obtain ⟨htrigger, hbytes, -⟩ := hcarries
    rw [toNat_footprint] at hbytes
    exact ⟨hoversized, htrigger, hbytes⟩
  · right
    rw [if_neg hoversized] at hbreach
    split at hbreach
    · rename_i hscarce
      obtain rfl := Option.some.inj hbreach
      obtain ⟨htrigger, hpct, -⟩ := hcarries
      rw [toNat_freePct_sampleOf] at hpct
      exact ⟨hoversized, hscarce, htrigger, hpct⟩
    · cases hbreach

end run

/-- The entries of a directory in the order they are listed in. -/
def inOrder : WalkDir where
  walk := FileTree.walk
  visits _ := .refl _

/-- A mount of a thousand blocks, of which six hundred are available. -/
def roomyMount : Statvfs where
  fragmentSize := 4096
  blocks := 1000
  blocksAvailable := 600
  fragmentSize_pos := by decide
  available_le := by decide
  fits := by decide

/-- Two megabytes in two files, one of them in a directory of its own, and a third file that is gone
by the time it is looked at. -/
def twoSpills : DiskTick where
  now := .atSecond 0
  disk :=
    { tmpDir := some (.dir [.file (some 1048576), .dir [.file none, .file (some 1048576)], .other])
      tmpDirExists := true
      statvfsTmpDir := some roomyMount
      statvfsBase := none }

end TempSpill

end PgSleuth
