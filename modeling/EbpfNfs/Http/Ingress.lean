import EbpfNfs.Http.Parse
import EbpfNfs.Http.Server
import EbpfNfs.Prog

/-!
# The file-server BPF object

The maps of `fileserver.bpf.c` (`file_cache`, `conn_track`, `stats`, the `events` ring), the
atomic actions its programs perform on them, and its three programs as `Prog`s:
`fileserverIngress` (the TC hook), `fileserverXdp` and `traceFileOpen`.

The actions are at the granularity of the C statements that touch shared memory:
`cache_entry->cache_hits++` is a load and a store, `update_stats` one atomic add, a reservation a
`Prog.choose` the environment resolves. A `file_cache` element is written in place only in its
`cache_hits`, so the other fields a program reads through its pointer (`valid`, `file_size`) are
those of the element as the lookup found it.
-/

namespace EbpfNfs

/-- The maps of `fileserver.bpf.c`, the clock `bpf_ktime_get_ns` reads, and the state of the
control plane: how many records `handle_event` has consumed and the statistics of `fileserver.c`.
`events` holds the committed records in commit order, each with the invocation that committed
it. -/
structure HttpMaps where
  fileCache : BpfHash (List UInt8) FileCacheEntry
  connTrack : BpfHash Nat Nat
  stats : Nat → Nat
  events : List (Nat × HttpRecord)
  clock : Nat
  consumed : Nat
  user : FileServer.Stats

/-- The `const volatile unsigned int` the programs read: `enable_kernel_processing`. The object's
`max_file_size` and `cache_ttl_seconds` are read by no program. -/
structure HttpConfig where
  enableKernelProcessing : UInt32
  deriving DecidableEq, Repr

/-- The shared-memory operations of the file-server programs. -/
inductive HttpAct where
  /-- `update_stats(i, 1)`. -/
  | statAdd (i : Nat)
  /-- `bpf_map_lookup_elem(&file_cache, k)`. -/
  | lookupCache (k : List UInt8)
  /-- The load of `cache_entry->cache_hits` through pointer `i`. -/
  | loadHits (i : Nat)
  /-- The store of `cache_entry->cache_hits` through pointer `i`. -/
  | storeHits (i v : Nat)
  /-- `bpf_ktime_get_ns()`. -/
  | ktime
  /-- `bpf_map_update_elem(&conn_track, &ip, &ts, BPF_ANY)`. -/
  | updateConn (ip ts : Nat)
  /-- `bpf_ringbuf_submit`. -/
  | submit (r : HttpRecord)
  /-- `handle_http_request` on a received request, with the file tree as `fs` finds it: its one
  access to a map is the update of `file_cache` in `cache_file_in_kernel`. -/
  | handleRequest (env : FileServer.Env) (fs : FileSys) (request : List UInt8)
  /-- `ring_buffer__poll` hands the next committed record to `handle_event`. -/
  | consume

/-- What each action returns. -/
@[reducible] def HttpAct.Res : HttpAct → Type
  | .lookupCache _ => Option (Nat × FileCacheEntry)
  | .loadHits _ | .ktime | .handleRequest _ _ _ => Nat
  | _ => Unit

/-- A file-server program. -/
abbrev HttpProg := Prog HttpAct HttpAct.Res

/-- The effect of one action of invocation `tid`. -/
def HttpAct.exec (tid : Nat) : (a : HttpAct) → HttpMaps → a.Res × HttpMaps
  | .statAdd i, s => ((), { s with stats := arrayAdd 16 s.stats i 1 })
  | .lookupCache k, s => (s.fileCache.lookup k, s)
  | .loadHits i, s => (((s.fileCache.heap i).map (·.cacheHits)).getD 0, s)
  | .storeHits i v, s =>
    ((), { s with fileCache := s.fileCache.modify i fun e => { e with cacheHits := v } })
  | .ktime, s => (s.clock, s)
  | .updateConn ip ts, s => ((), { s with connTrack := s.connTrack.put ip ts })
  | .submit r, s => ((), { s with events := s.events ++ [(tid, r)] })
  | .handleRequest env fs request, s =>
    let r := FileServer.handleHttpRequest env fs request s.fileCache s.user
    (r.1, { s with fileCache := r.2.1, user := r.2.2 })
  | .consume, s =>
    match s.events[s.consumed]? with
    | none => ((), s)
    | some (_, r) => ((), { s with consumed := s.consumed + 1, user := FileServer.handleEvent s.user r })

/-- The `stats` index an action adds to. -/
def HttpAct.statIndex : HttpAct → Option Nat
  | .statAdd i => some i
  | .lookupCache _ | .loadHits _ | .storeHits _ _ | .ktime | .updateConn _ _ | .submit _
  | .handleRequest _ _ _ | .consume => none

/-- The record an action commits. -/
def HttpAct.committed : HttpAct → Option HttpRecord
  | .submit r => some r
  | .statAdd _ | .lookupCache _ | .loadHits _ | .storeHits _ _ | .ktime | .updateConn _ _
  | .handleRequest _ _ _ | .consume => none

section Exec

variable (tid : Nat) (a : HttpAct) (s : HttpMaps)

theorem HttpAct.exec_stats :
    (HttpAct.exec tid a s).2.stats = a.statIndex.elim s.stats fun i => arrayAdd 16 s.stats i 1 := by
  cases a <;> simp only [HttpAct.exec, HttpAct.statIndex, Option.elim]
  case consume => split <;> rfl

theorem HttpAct.exec_events :
    (HttpAct.exec tid a s).2.events = s.events ++ (a.committed.map (tid, ·)).toList := by
  cases a <;> simp only [HttpAct.exec, HttpAct.committed, Option.map, Option.toList, List.append_nil]
  case consume => split <;> rfl

/-- Only `consume` moves the consumer or its `kernel_processed`. -/
theorem HttpAct.exec_consumer (ha : a ≠ .consume) :
    (HttpAct.exec tid a s).2.consumed = s.consumed ∧
      (HttpAct.exec tid a s).2.user.kernelProcessed = s.user.kernelProcessed := by
  cases a <;> simp only [HttpAct.exec, FileServer.handleHttpRequest_kernelProcessed, and_self]
  exact absurd rfl ha

end Exec

namespace HttpProg

/-- `update_stats(i, 1)` (fileserver.bpf.c:137). -/
def statAdd (i : Nat) : HttpProg Unit := .act (.statAdd i) .ret
/-- `bpf_ringbuf_reserve`: whether the ring had room. -/
def reserve : HttpProg Bool := .choose .ret
/-- `bpf_ktime_get_ns()`. -/
def ktime : HttpProg Nat := .act .ktime .ret
/-- `bpf_ringbuf_submit`. -/
def submit (r : HttpRecord) : HttpProg Unit := .act (.submit r) .ret

end HttpProg

open HttpProg

/-- Reserve, fill and submit a `file_event`; nothing when the ring is full.
Reference: fileserver.bpf.c:239-249 and its two siblings. -/
def emitFileEvent (v : HttpFrame) (filename : List UInt8) (op size fwd : Nat) :
    HttpProg Unit := do
  if ← reserve then
    let ts ← ktime
    submit (.fileEvent
      { clientAddr := v.clientIp, clientPort := v.clientPort, operation := op,
        filename := filename, fileSize := size, timestamp := ts, forwardedToUser := fwd })

/-- The cache-hit branch: count the hit, count the request as kernel-processed, report the
cached size. Returns `processed_in_kernel`. Reference: fileserver.bpf.c:232-249. -/
def cacheHit (v : HttpFrame) (filename : List UInt8) (i : Nat) (e : FileCacheEntry) :
    HttpProg Nat := do
  let h ← .act (.loadHits i) .ret
  .act (.storeHits i ((h + 1) % 2 ^ 32)) .ret
  statAdd 1
  emitFileEvent v filename fileOpSuccess e.fileSize 0
  pure 1

/-- A file that passes `check_file_exists` but has no valid entry: forward.
Reference: fileserver.bpf.c:250-265. -/
def cacheMiss (v : HttpFrame) (filename : List UInt8) : HttpProg Nat := do
  statAdd 2
  emitFileEvent v filename fileOpForwardToUser 0 1
  pure 0

/-- A name `check_file_exists` rejects: report it not found. Reference: fileserver.bpf.c:267-281. -/
def fileNotFound (v : HttpFrame) (filename : List UInt8) : HttpProg Nat := do
  emitFileEvent v filename fileOpNotFound 0 1
  statAdd 3
  pure 0

/-- The decision of `fileserver_ingress`, returning `processed_in_kernel`.
Reference: fileserver.bpf.c:226-285. -/
def ingressDecision (cfg : HttpConfig) (v : HttpFrame) (filename : List UInt8) :
    HttpProg Nat :=
  if cfg.enableKernelProcessing ≠ 0 ∧ v.method = httpGet then
    if checkFileExists filename then
      .act (.lookupCache filename) fun
        | some (i, e) => if e.valid ≠ 0 then cacheHit v filename i e else cacheMiss v filename
        | none => cacheMiss v filename
    else fileNotFound v filename
  else do
    statAdd 2
    pure 0

/-- The request record `fileserver_ingress` fills, with the `processed_in_kernel` its decision
set. Reference: fileserver.bpf.c:218-223. -/
def ingressRequest (v : HttpFrame) (filename : List UInt8) (processed : Nat) : HttpRequest :=
  { srcAddr := v.clientIp, srcPort := v.clientPort, method := v.method,
    processedInKernel := processed, filename := filename, contentLength := 0 }

/-- `fileserver_ingress`, the TC ingress program. Reference: fileserver.bpf.c:147. -/
def fileserverIngress (cfg : HttpConfig) (frame : List UInt8) : HttpProg Nat :=
  match httpFrame frame with
  | none => pure tcActOk
  | some v => do
    let filename := ingressFilename v.payload v.payloadLen
    statAdd 0
    if !(← reserve) then return tcActOk
    let processed ← ingressDecision cfg v filename
    let ts ← ktime
    .act (.updateConn v.clientIp ts) .ret
    submit (.request (ingressRequest v filename processed))
    pure tcActOk

/-- `fileserver_xdp`: count every IPv4 frame in `stats[4]`. Reference: fileserver.bpf.c:329. -/
def fileserverXdp (frame : List UInt8) : HttpProg Nat :=
  if ipv4Frame frame then do
    statAdd 4
    pure xdpPass
  else pure xdpPass

/-- `trace_file_open`, on `vfs_open` of a dentry named `name` (`none` for a NULL name): a
success `file_event` with no client. `bpf_probe_read_str` copies at most 255 bytes and a NUL.
Reference: fileserver.bpf.c:297. -/
def traceFileOpen (cfg : HttpConfig) (name : Option (List UInt8)) : HttpProg Nat :=
  if cfg.enableKernelProcessing = 0 then pure 0
  else match name with
    | none => pure 0
    | some n => do
      if ← reserve then
        let ts ← ktime
        submit (.fileEvent
          { clientAddr := 0, clientPort := 0, operation := fileOpSuccess,
            filename := (cstr n).take 255 ++ [0], fileSize := 0, timestamp := ts,
            forwardedToUser := 0 })
      pure 0

/-- Run a file-server program alone as invocation `0`. -/
def HttpProg.runAlone {α : Type} (p : HttpProg α) (ring : List Bool) (s : HttpMaps) :
    α × List Bool × HttpMaps :=
  Prog.run (HttpAct.exec 0) p ring s

end EbpfNfs
