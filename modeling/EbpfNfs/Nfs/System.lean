import EbpfNfs.Nfs.Kernel
import EbpfNfs.Nfs.Server
import EbpfNfs.Counting

/-!
# The NFS server as a system of interleaved invocations

Frames arrive and start `nfs_server_tc` and `nfs_server_xdp` invocations, `openat` calls start
`trace_openat`, the control plane refreshes cache entries with `cache_file_in_kernel` and polls
the ring, and both clocks advance; every one of these is an invocation of the pool, and their
actions interleave arbitrarily. The system starts from the maps as the loader creates them.

An invocation's events say what it counted and what it committed: `NfsAct.statIndex` and
`NfsAct.committed` read with `statsOf` and `recordsOf`.
-/

namespace EbpfNfs

/-- What starts an invocation. -/
inductive NfsInput where
  /-- A frame reaches the TC hook; `junk` is what the handlers' stack buffer holds. -/
  | tc (frame junk : List UInt8)
  /-- A frame reaches the XDP hook. -/
  | xdp (frame : List UInt8)
  /-- A process calls `openat`. -/
  | openat
  /-- The control plane calls `cache_file_in_kernel` on the 256 bytes `filename`, with the file
  tree as `fs` finds it. -/
  | refresh (fs : FileSys) (filename : List UInt8)
  /-- The control plane's `ring_buffer__poll` takes one record. -/
  | poll

/-- The NFS server under the configuration `cfg` and the options `env`. The environment
advances `bpf_ktime_get_ns` and `time(NULL)`. -/
def nfsSystem (cfg : NfsConfig) (env : NfsServer.Env) :
    System NfsInput (Nat × Nat) NfsAct NfsAct.Res NfsState where
  prog
    | .tc f j => nfsServerTc cfg f j >>= fun _ => pure ()
    | .xdp f => nfsServerXdp f >>= fun _ => pure ()
    | .openat => traceOpenat cfg >>= fun _ => pure ()
    | .refresh fs n => NfsServer.cacheFileInKernel env fs n >>= fun _ => pure ()
    | .poll => NfsServer.pollEvent
  exec := NfsAct.exec
  envStep d s := { s with clock := s.clock + d.1, wall := s.wall + d.2 }

/-- The statistics of a server that has handled nothing. -/
def NfsUserStats.zero : NfsUserStats := ⟨0, 0, 0, 0, 0, 0, 0, 0⟩

/-- The maps as the loader creates them, with the clocks at `clock` and `wall`. -/
def NfsState.init (clock wall : Nat) : NfsState :=
  { fileCache := .empty 1024, fhToName := .empty 2048, clientTrack := .empty 1024,
    stats := fun _ => 0, events := [], clock := clock, wall := wall, consumed := 0,
    user := .zero }

end EbpfNfs
