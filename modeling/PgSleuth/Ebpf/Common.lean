import Mathlib.Data.UInt
import Mathlib.Data.Vector.Basic

/-!
# Wire types shared by the kernel programs and the loader

The records of `pgsleuth-ebpf-common`. Explicit padding fields are always zero and no program
reads them, so they are left out; everything else is here at its own width.
-/

namespace PgSleuth

/-- A NUL-padded process name, as the kernel keeps it. -/
abbrev Comm := Vector UInt8 16

/-- The buffer a program falls back to when `bpf_get_current_comm` fails. -/
def Comm.zero : Comm := Vector.replicate 16 0

/-- Event sent from the `vfs_open` kprobe. -/
structure TraceEvent where
  pid : UInt32
  /-- Port number detected, 0 if unknown. -/
  port : UInt32
  comm : Comm
deriving DecidableEq

/-- Filter configuration for the kernel programs. Zero, or the empty name, turns a criterion
off. -/
structure FilterConfig where
  pid : UInt32
  cgroupId : UInt64
  name : Vector UInt8 16
  /-- Kernel-encoded `dev_t`, `(major << 20) | minor`. -/
  devT : UInt32
deriving DecidableEq

/-- Event sent when a block request is issued. -/
structure BlockEvent where
  dev : UInt32
  pid : UInt32
  bytes : UInt32
  comm : Comm
deriving DecidableEq

/-- Coarse classification of a block request. -/
inductive OpClass
  | read
  | write
  | writeFlush
  | other
deriving DecidableEq

/-- The discriminant, `op as u8`. -/
def OpClass.asU8 : OpClass → UInt8
  | .read => 0
  | .write => 1
  | .writeFlush => 2
  | .other => 3

/-- The key of an in-flight request: device and starting sector. -/
structure RqKey where
  dev : UInt32
  sector : UInt64
deriving DecidableEq

/-- Per-request latency event. -/
structure BlockIoLatencyEvent where
  dev : UInt32
  opClass : UInt8
  bytes : UInt32
  latencyNs : UInt64
deriving DecidableEq

/-- `FILE_EVENT_PATH_LEN`. -/
def fileEventPathLen : ℕ := 128

/-- Event emitted by the `openat` and `unlinkat` tracepoints. -/
structure TempFileEvent where
  pid : UInt32
  /-- 0 is `openat`, 1 is `unlinkat`. -/
  syscall : UInt8
  bytes : UInt64
  queryHash : UInt64
  comm : Comm
  /-- NUL-terminated path bytes. -/
  path : Vector UInt8 fileEventPathLen
deriving DecidableEq

end PgSleuth
