import EbpfNfs.Http.Counters
import EbpfNfs.Http.Cache
import EbpfNfs.Nfs.Counters
import EbpfNfs.Nfs.Cache

/-!
# What both servers keep over every interleaving

The file server and the NFS server each run as a pool of interleaved invocations of their BPF
programs and control-plane routines (`httpSystem`, `nfsSystem`). Over every reachable state of
either:

* the caches hold only well-formed entries (`caches_wellFormed`);
* every counter of `stats` and `nfs_stats` is the number of adds to it modulo `2 ^ 64`; the adds
  of `fileserver_ingress` to `stats[1..3]` never exceed those to `stats[0]`, while those of
  `nfs_server_tc` to `nfs_stats[1]` and `nfs_stats[2]` balance those to `nfs_stats[0]` only up to
  the invocations caught between two of their updates (`stats_balance`), so that a snapshot can
  see `nfs_stats[1]` ahead of `nfs_stats[0]` (`stats_ahead_null_call`);
* the records agree with each other and with the counters, and a drained ring leaves the
  consumers' `kernel_processed` equal to `stats[1]` and `nfs_stats[1]` (`records_agree`).

Each is assembled from the per-system results of `Http.Counters`, `Http.Cache`, `Nfs.Counters`
and `Nfs.Cache`. The concrete runs after each theorem use the frames and files defined here.
-/

namespace EbpfNfs

open Prog

/-! ## Frames and files of the concrete runs -/

/-- A regular file of five bytes, wherever it is looked up. -/
def testFs : FileSys := fun _ =>
  some { mode := 33188, nlink := 1, uid := 0, gid := 0, size := 5, blocks := 8, ino := 2,
         atime := 0, mtime := 0, ctime := 0, openOk := true, readOk := true,
         contents := [104, 101, 108, 108, 111] }

/-- `GET /test.txt HTTP/1.1` with an empty header block. -/
def getRequest : List UInt8 := ascii "GET /test.txt HTTP/1.1\r\n\r\n"

/-- `getRequest` from 10.0.0.1:1000 to port 80, in one Ethernet frame. -/
def httpGetFrame : List UInt8 :=
  [0, 0, 0, 0, 0, 1, 0, 0, 0, 0, 0, 2, 8, 0] ++
  [0x45, 0, 0, 66, 0, 0, 0, 0, 64, 6, 0, 0, 10, 0, 0, 1, 10, 0, 0, 2] ++
  [3, 232, 0, 80, 0, 0, 0, 0, 0, 0, 0, 0, 0x50, 0x18, 0, 0, 0, 0, 0, 0] ++ getRequest

/-- An NFS v3 `NULL` call with `xid` 7 from 10.0.0.1:1000 to port 2049. -/
def nullCallFrame : List UInt8 :=
  [0, 0, 0, 0, 0, 1, 0, 0, 0, 0, 0, 2, 8, 0] ++
  [0x45, 0, 0, 60, 0, 0, 0, 0, 64, 17, 0, 0, 10, 0, 0, 1, 10, 0, 0, 2] ++
  [3, 232, 8, 1, 0, 40, 0, 0] ++
  [0, 0, 0, 7, 0, 0, 0, 0, 0, 0, 0, 2, 0, 1, 134, 163, 0, 0, 0, 3, 0, 0, 0, 0, 0, 0, 0, 0,
    0, 0, 0, 0]

/-- The file server with kernel processing and kernel caching on, serving `/srv`. -/
def httpTestSystem : System HttpInput Nat HttpAct HttpAct.Res HttpMaps :=
  httpSystem ⟨1⟩ ⟨ascii "/srv", true⟩

/-- The NFS server with kernel processing on, a TTL of 60 s, and kernel caching on. -/
def nfsTestSystem : System NfsInput (Nat × Nat) NfsAct NfsAct.Res NfsState :=
  nfsSystem ⟨1, 1024, 60⟩ ⟨ascii "/srv", true⟩

/-- The control plane handles `getRequest`, which caches `test.txt`; then `getRequest` arrives
as a frame and hits the cache; then the control plane polls the ring twice. -/
def httpHitRun : Pool HttpAct HttpAct.Res HttpMaps :=
  httpTestSystem.run (Pool.start (HttpMaps.init 0))
    ([.spawn (.request testFs getRequest)] ++ List.replicate 2 (.step 0 true) ++
      [.spawn (.ingress httpGetFrame)] ++ List.replicate 13 (.step 1 true) ++
      [.spawn .poll] ++ List.replicate 2 (.step 2 true) ++
      [.spawn .poll] ++ List.replicate 2 (.step 3 true))

/-- The control plane refreshes `test.txt`; then a `NULL` call is served in the kernel from start
to end, and the control plane polls the ring twice. -/
def nfsNullRun : Pool NfsAct NfsAct.Res NfsState :=
  nfsTestSystem.run (Pool.start (NfsState.init 0 0))
    ([.spawn (.refresh testFs (nameKey (ascii "test.txt")))] ++ List.replicate 4 (.step 0 true) ++
      [.spawn (.tc nullCallFrame [])] ++ List.replicate 11 (.step 1 true) ++
      [.spawn .poll] ++ List.replicate 2 (.step 2 true) ++
      [.spawn .poll] ++ List.replicate 2 (.step 3 true))

/-! ## The caches -/

/-- In every reachable state of the file server, every `file_cache` entry has `valid = 1`,
`file_size ≤ MAX_PACKET_SIZE` and a `filename` equal to its key; in every reachable state of the
NFS server, every `nfs_file_cache` entry has `valid = data_valid = 1` and
`data_size = attr.size ≤ MAX_NFS_DATA_SIZE`, and every handle `fh_to_name` maps to a name is the
`fh` of the entry cached under that name. -/
theorem caches_wellFormed :
    (∀ (cfg : HttpConfig) (env : FileServer.Env) (clock : Nat)
      (s : Pool HttpAct HttpAct.Res HttpMaps), (httpSystem cfg env).Reachable (HttpMaps.init clock) s →
      ∀ k i e, s.maps.fileCache.lookup k = some (i, e) →
        e.valid = 1 ∧ e.fileSize ≤ FileServer.maxPacketSize ∧ e.filename = k) ∧
    (∀ (cfg : NfsConfig) (env : NfsServer.Env) (clock wall : Nat)
      (s : Pool NfsAct NfsAct.Res NfsState), (nfsSystem cfg env).Reachable (NfsState.init clock wall) s →
      (∀ n i e, s.maps.fileCache.lookup n = some (i, e) →
        e.valid = 1 ∧ e.dataValid = 1 ∧ e.dataSize = e.attr.size ∧ e.attr.size ≤ maxNfsDataSize) ∧
      ∀ fh n, s.maps.fhToName.get fh = some n →
        ∃ i e, s.maps.fileCache.lookup n = some (i, e) ∧ e.fh = fh) :=
  ⟨fun _ _ _ _ h => httpCache_wellFormed h, fun _ _ _ _ _ h => nfsCaches_wellFormed h⟩

set_option maxRecDepth 8000 in
/-- After `httpHitRun` and `nfsNullRun`, `test.txt` is cached by both servers, well formed, and
its handle names it. -/
theorem caches_wellFormed_test_txt :
    (∃ i e, httpHitRun.maps.fileCache.lookup (nameKey (ascii "test.txt")) = some (i, e) ∧
      e.valid = 1 ∧ e.fileSize ≤ FileServer.maxPacketSize ∧ e.filename = nameKey (ascii "test.txt")) ∧
    ∃ i e, nfsNullRun.maps.fileCache.lookup (nameKey (ascii "test.txt")) = some (i, e) ∧
      e.fh = NfsServer.generateNfsFileHandle (nameKey (ascii "test.txt")) := by
  obtain ⟨⟨i, e⟩, he⟩ := Option.isSome_iff_exists.1
    (by decide : (httpHitRun.maps.fileCache.lookup (nameKey (ascii "test.txt"))).isSome)
  have hfh : nfsNullRun.maps.fhToName.get (NfsServer.generateNfsFileHandle (nameKey
      (ascii "test.txt"))) = some (nameKey (ascii "test.txt")) := by decide
  exact ⟨⟨i, e, he, caches_wellFormed.1 _ _ 0 httpHitRun ⟨_, rfl⟩ _ i e he⟩,
    (caches_wellFormed.2 _ _ 0 0 nfsNullRun ⟨_, rfl⟩).2 _ _ hfh⟩

/-! ## The counters -/

set_option maxRecDepth 8000 in
/-- A `NULL` call stopped right after `update_nfs_stats(1, 1)`, before its
`update_nfs_stats(0, 1)`: `nfs_stats[1]` is ahead of `nfs_stats[0]`. -/
theorem stats_ahead_null_call :
    let s := nfsTestSystem.run (Pool.start (NfsState.init 0 0))
      (.spawn (.tc nullCallFrame []) :: List.replicate 7 (.step 0 true))
    nfsTestSystem.Reachable (NfsState.init 0 0) s ∧ s.maps.stats 0 < s.maps.stats 1 + s.maps.stats 2 :=
  ⟨⟨_, rfl⟩, by decide⟩

/-- In every reachable state of either server every counter is the number of `update_stats`
(`update_nfs_stats`) calls on it, modulo `2 ^ 64`. The calls of the file server on `stats[1]`,
`stats[2]` and `stats[3]` are at most those on `stats[0]`. The calls of the NFS server on
`nfs_stats[1]` and `nfs_stats[2]`, plus the invocations in progress that have counted
`nfs_stats[0]` but not yet `nfs_stats[2]`, equal those on `nfs_stats[0]` plus the invocations in
progress that have counted `nfs_stats[1]` but not yet `nfs_stats[0]`. -/
theorem stats_balance :
    (∀ (cfg : HttpConfig) (env : FileServer.Env) (clock : Nat)
      (s : Pool HttpAct HttpAct.Res HttpMaps), (httpSystem cfg env).Reachable (HttpMaps.init clock) s →
      (∀ i < 16, s.maps.stats i = statCalls HttpAct.statIndex s.log i % 2 ^ 64) ∧
      statCalls HttpAct.statIndex s.log 1 + statCalls HttpAct.statIndex s.log 2 +
        statCalls HttpAct.statIndex s.log 3 ≤ statCalls HttpAct.statIndex s.log 0) ∧
    (∀ (cfg : NfsConfig) (env : NfsServer.Env) (clock wall : Nat)
      (s : Pool NfsAct NfsAct.Res NfsState), (nfsSystem cfg env).Reachable (NfsState.init clock wall) s →
      (∀ i < 16, s.maps.stats i = statCalls NfsAct.statIndex s.log i % 2 ^ 64) ∧
      statCalls NfsAct.statIndex s.log 1 + statCalls NfsAct.statIndex s.log 2 +
          ((Finset.range s.next).filter fun t => (s.running t).isSome && nfsBehind (s.hist t)).card =
        statCalls NfsAct.statIndex s.log 0 +
          ((Finset.range s.next).filter fun t => (s.running t).isSome && nfsAhead (s.hist t)).card) :=
  ⟨fun _ _ _ _ h => ⟨fun _ hi => httpStats_eq h hi, httpStatCalls_le h⟩,
    fun _ _ _ _ _ h => ⟨fun _ hi => nfsStats_eq h hi, nfsStatCalls_balance h⟩⟩

/-- `nfs_stats[1]` counts the calls on it in the stopped `NULL` call, and the calls balance. -/
theorem stats_balance_null_call :
    let s := nfsTestSystem.run (Pool.start (NfsState.init 0 0))
      (.spawn (.tc nullCallFrame []) :: List.replicate 7 (.step 0 true))
    s.maps.stats 1 = statCalls NfsAct.statIndex s.log 1 % 2 ^ 64 ∧
      statCalls NfsAct.statIndex s.log 1 + statCalls NfsAct.statIndex s.log 2 +
          ((Finset.range s.next).filter fun t => (s.running t).isSome && nfsBehind (s.hist t)).card =
        statCalls NfsAct.statIndex s.log 0 +
          ((Finset.range s.next).filter fun t => (s.running t).isSome && nfsAhead (s.hist t)).card :=
  have h := stats_balance.2 _ _ 0 0 _ ⟨_, rfl⟩
  ⟨h.1 1 (by decide), h.2⟩

/-! ## The records -/

/-- In every reachable state of the file server, a finished `fileserver_ingress` invocation added
to `stats[1]` exactly when it committed a request record with `processed_in_kernel = 1`. In every
reachable state of the NFS server, the records of a finished invocation are nothing or a request
record and then an operation event with equal `client_addr`, `client_port`, `xid` and
`procedure`, with `processed_in_kernel = 1`, `forwarded_to_user = 0` and `result = NFS_OP_SUCCESS`
or `processed_in_kernel = 0`, `forwarded_to_user = 1` and `result = NFS_OP_FORWARD_TO_USER`, the
first exactly when it added to `nfs_stats[1]` and the second exactly when it added to
`nfs_stats[2]`. For both, once no invocation is in progress and the control plane has consumed
every record, the `kernel_processed` of `handle_event` equals `stats[1]` (`nfs_stats[1]`). -/
theorem records_agree :
    (∀ (cfg : HttpConfig) (env : FileServer.Env) (clock : Nat)
      (s : Pool HttpAct HttpAct.Res HttpMaps), (httpSystem cfg env).Reachable (HttpMaps.init clock) s →
      (∀ t, s.running t = none →
        (1 ∈ statsOf HttpAct.statIndex (s.hist t) ↔ ∃ q, HttpRecord.request q ∈
          (s.maps.events.filter fun x => x.1 == t).map Prod.snd ∧ q.processedInKernel = 1)) ∧
      (s.Quiescent → s.maps.consumed = s.maps.events.length →
        s.maps.user.kernelProcessed = s.maps.stats 1)) ∧
    (∀ (cfg : NfsConfig) (env : NfsServer.Env) (clock wall : Nat)
      (s : Pool NfsAct NfsAct.Res NfsState), (nfsSystem cfg env).Reachable (NfsState.init clock wall) s →
      (∀ t, s.running t = none →
        (s.maps.events.filter fun x => x.1 == t).map Prod.snd = [] ∨
        ∃ req ev, (s.maps.events.filter fun x => x.1 == t).map Prod.snd = [.request req, .event ev] ∧
          PairOk req ev ∧ (req.processedInKernel = 1 ↔ 1 ∈ statsOf NfsAct.statIndex (s.hist t)) ∧
          (req.processedInKernel = 0 ↔ 2 ∈ statsOf NfsAct.statIndex (s.hist t))) ∧
      (s.Quiescent → s.maps.consumed = s.maps.events.length →
        s.maps.user.kernelProcessed = s.maps.stats 1)) :=
  ⟨fun _ _ _ _ h => ⟨fun _ ht => (httpRecords_of_finished h ht).1, httpKernelProcessed_eq h⟩,
    fun _ _ _ _ _ h => ⟨fun _ ht => nfsRecords_of_finished h ht, nfsKernelProcessed_eq h⟩⟩

set_option maxRecDepth 8000 in
/-- After `httpHitRun` and `nfsNullRun` every invocation has finished and the ring is drained:
the hit and the `NULL` call were counted once by both the kernel and the control plane, and the
`NULL` call (`xid` 7) committed an agreeing pair marked as processed in the kernel. -/
theorem records_agree_runs :
    httpHitRun.maps.user.kernelProcessed = httpHitRun.maps.stats 1 ∧ httpHitRun.maps.stats 1 = 1 ∧
    nfsNullRun.maps.user.kernelProcessed = nfsNullRun.maps.stats 1 ∧ nfsNullRun.maps.stats 1 = 1 ∧
    ∃ req ev, (nfsNullRun.maps.events.filter fun x => x.1 == 1).map Prod.snd =
        [.request req, .event ev] ∧ PairOk req ev ∧ req.xid = 7 ∧ req.processedInKernel = 1 := by
  have hh : httpTestSystem.Reachable (HttpMaps.init 0) httpHitRun := ⟨_, rfl⟩
  have hn : nfsTestSystem.Reachable (NfsState.init 0 0) nfsNullRun := ⟨_, rfl⟩
  have qh : httpHitRun.Quiescent :=
    (httpTestSystem.threadsOk_reachable (httpSystem_paths _ _) hh).quiescent (by decide)
  have qn : nfsNullRun.Quiescent :=
    (nfsTestSystem.threadsOk_reachable (nfsSystem_paths _ _) hn).quiescent (by decide)
  obtain h0 | ⟨req, ev, hl, hok, hk, -⟩ := (records_agree.2 _ _ 0 0 _ hn).1 1 (qn 1)
  · exact absurd h0 (by decide)
  have hx : ((nfsNullRun.maps.events.filter fun x => x.1 == 1).map Prod.snd).head?.map
      (fun | .request q => q.xid | .event e => e.xid) = some 7 := by decide
  rw [hl] at hx
  exact ⟨(records_agree.1 _ _ 0 _ hh).2 qh (by decide), by decide,
    (records_agree.2 _ _ 0 0 _ hn).2 qn (by decide), by decide, req, ev, hl, hok,
    by simpa using hx, hk.2 (by decide)⟩

end EbpfNfs
