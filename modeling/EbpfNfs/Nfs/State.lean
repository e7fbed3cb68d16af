import EbpfNfs.Nfs.Rpc
import EbpfNfs.Maps
import EbpfNfs.Prog

/-!
# The NFS server's shared state

The maps of the NFS BPF object (`nfs_file_cache`, `fh_to_name`, `client_track`, `nfs_stats`, the
`nfs_events` ring), the two clocks (`bpf_ktime_get_ns` counts from boot, `time(NULL)` from the
epoch), and the part of `nfs_server.c` the ring reaches: how many records `handle_event` has
consumed and the statistics it keeps.

The actions are those of the kernel programs and of the control plane, each one atomic step on
this state. `cache_hits++` and the client counters' `++` are a load and a store through the
element pointer; `update_nfs_stats` is one atomic add; an update installs a new element
(`BpfHash`), so a pointer taken earlier keeps naming the old one.
-/

namespace EbpfNfs

/-- `struct nfs_fh` (part_000:174): a length and 64 bytes. -/
structure NfsFh where
  len : Nat
  data : List UInt8
  deriving DecidableEq, Repr

/-- The handle `nfs_server_tc` leaves in every request record: `memset(&req_event->fh, 0, ...)`. -/
def NfsFh.zero : NfsFh := ⟨0, List.replicate 64 0⟩

/-- `struct nfs_fattr` (part_000:180). -/
structure NfsFattr where
  type : Nat
  mode : Nat
  nlink : Nat
  uid : Nat
  gid : Nat
  size : Nat
  used : Nat
  fsid : Nat
  fileid : Nat
  atimeSec : Nat
  atimeNsec : Nat
  mtimeSec : Nat
  mtimeNsec : Nat
  ctimeSec : Nat
  ctimeNsec : Nat
  deriving DecidableEq, Repr

/-- `struct nfs_file_cache_entry` (part_000:226). -/
structure NfsFileCacheEntry where
  filename : List UInt8
  fh : NfsFh
  attr : NfsFattr
  dataSize : Nat
  data : List UInt8
  cacheTime : Nat
  cacheHits : Nat
  valid : Nat
  dataValid : Nat
  deriving DecidableEq, Repr

/-- `struct nfs_request` (part_000:199). Of its `filename` the program writes only the first
byte and no modelled reader looks at it, so it is left out. -/
structure NfsRequest where
  clientAddr : Nat
  clientPort : Nat
  xid : Nat
  procedure : Nat
  processedInKernel : Nat
  offset : Nat
  count : Nat
  fh : NfsFh
  deriving DecidableEq, Repr

/-- `struct nfs_event` (part_000:212). `filename` holds the bytes the program wrote. -/
structure NfsEvent where
  clientAddr : Nat
  clientPort : Nat
  xid : Nat
  procedure : Nat
  result : Nat
  filename : List UInt8
  fileSize : Nat
  timestamp : Nat
  forwardedToUser : Nat
  fromCache : Nat
  deriving DecidableEq, Repr

/-- A record of `nfs_events`; the two sizes differ, which is how `handle_event` tells them
apart. -/
inductive NfsRecord where
  | request (r : NfsRequest)
  | event (e : NfsEvent)
  deriving DecidableEq, Repr

/-- `struct nfs_client_state` (part_000:247). -/
structure NfsClientState where
  clientAddr : Nat
  lastRequestTime : Nat
  requestCount : Nat
  kernelProcessed : Nat
  userForwarded : Nat
  deriving DecidableEq, Repr

/-- The three `__u32` counters of a client that `nfs_server_tc` increments. -/
inductive ClientCounter where
  | requestCount
  | kernelProcessed
  | userForwarded
  deriving DecidableEq, Repr

/-- Counter `c` of a client state. -/
def NfsClientState.get (st : NfsClientState) : ClientCounter → Nat
  | .requestCount => st.requestCount
  | .kernelProcessed => st.kernelProcessed
  | .userForwarded => st.userForwarded

/-- A client state with counter `c` set to `v`. -/
def NfsClientState.set (st : NfsClientState) : ClientCounter → Nat → NfsClientState
  | .requestCount, v => { st with requestCount := v }
  | .kernelProcessed, v => { st with kernelProcessed := v }
  | .userForwarded, v => { st with userForwarded := v }

@[simp] theorem NfsClientState.get_set (st : NfsClientState) (c c' : ClientCounter) (v : Nat) :
    (st.set c v).get c' = if c' = c then v else st.get c' := by
  cases c <;> cases c' <;> rfl

@[simp] theorem NfsClientState.set_lastRequestTime (st : NfsClientState) (c : ClientCounter)
    (v : Nat) : (st.set c v).lastRequestTime = st.lastRequestTime := by
  cases c <;> rfl

/-- `enum nfs_op_result`: `NFS_OP_SUCCESS`. -/
def nfsOpSuccess : Nat := 0
/-- `NFS_OP_FORWARD_TO_USER`. -/
def nfsOpForwardToUser : Nat := 10002
/-- `MAX_NFS_DATA_SIZE`, the capacity of an entry's `data`. -/
def maxNfsDataSize : Nat := 8192

/-- The `const volatile unsigned int` options of the NFS object (test_nfs_server.sh:378-380). -/
structure NfsConfig where
  enableKernelProcessing : UInt32
  maxCachedFileSize : UInt32
  cacheTtlSeconds : UInt32
  deriving DecidableEq, Repr

/-- `struct nfs_server_stats` of `nfs_server.c` (part_002:99). -/
structure NfsUserStats where
  totalRequests : Nat
  kernelProcessed : Nat
  userProcessed : Nat
  cacheHits : Nat
  cacheMisses : Nat
  fileNotFound : Nat
  accessDenied : Nat
  errors : Nat
  deriving DecidableEq, Repr

/-- `handle_event` of `nfs_server.c` on one record: only operation events count.
Reference: part_002:362. -/
def nfsHandleEvent (st : NfsUserStats) : NfsRecord → NfsUserStats
  | .request _ => st
  | .event e =>
    let st :=
      if e.fromCache ≠ 0 then { st with cacheHits := (st.cacheHits + 1) % 2 ^ 64 }
      else if e.forwardedToUser ≠ 0 then { st with cacheMisses := (st.cacheMisses + 1) % 2 ^ 64 }
      else st
    if e.result = nfsOpSuccess ∧ e.forwardedToUser = 0 then
      { st with kernelProcessed := (st.kernelProcessed + 1) % 2 ^ 64 }
    else st

/-- The maps of the NFS object, the two clocks, and the ring consumer's state. `events` holds
the committed records in commit order, each with the invocation that committed it; `consumed`
of them have been handed to `handle_event`. -/
structure NfsState where
  fileCache : BpfHash (List UInt8) NfsFileCacheEntry
  fhToName : BpfHash NfsFh (List UInt8)
  clientTrack : BpfHash Nat NfsClientState
  stats : Nat → Nat
  events : List (Nat × NfsRecord)
  /-- `bpf_ktime_get_ns()`: nanoseconds since boot. -/
  clock : Nat
  /-- `time(NULL)`: seconds since the epoch. -/
  wall : Nat
  consumed : Nat
  user : NfsUserStats

/-- The atomic operations on `NfsState`. -/
inductive NfsAct where
  /-- `update_nfs_stats(i, 1)`. -/
  | statAdd (i : Nat)
  /-- `bpf_map_lookup_elem(&fh_to_name, fh)`, with the name it points to. -/
  | lookupFh (fh : NfsFh)
  /-- `bpf_map_lookup_elem(&nfs_file_cache, k)`. -/
  | lookupCache (k : List UInt8)
  /-- The load of `cache_entry->cache_hits`. -/
  | loadHits (i : Nat)
  /-- The store of `cache_entry->cache_hits`. -/
  | storeHits (i v : Nat)
  /-- `bpf_ktime_get_ns()`. -/
  | ktime
  /-- `bpf_map_lookup_elem(&client_track, &ip)`: the element's pointer. -/
  | lookupClient (ip : Nat)
  /-- `bpf_map_update_elem(&client_track, &ip, &st, BPF_ANY)`: whether it succeeded. -/
  | updateClient (ip : Nat) (st : NfsClientState)
  /-- The store of `client_state->last_request_time`. -/
  | storeClientTime (i v : Nat)
  /-- The load of a client counter. -/
  | loadClient (c : ClientCounter) (i : Nat)
  /-- The store of a client counter. -/
  | storeClient (c : ClientCounter) (i v : Nat)
  /-- `bpf_ringbuf_submit`. -/
  | submit (r : NfsRecord)
  /-- `time(NULL)`. -/
  | time
  /-- `bpf_map_update_elem(cache_map_fd, filename, &cache_entry, BPF_ANY)`. -/
  | updateCache (k : List UInt8) (e : NfsFileCacheEntry)
  /-- `bpf_map_update_elem(fh_map_fd, &cache_entry.fh, filename, BPF_ANY)`. -/
  | updateFhName (h : NfsFh) (k : List UInt8)
  /-- `ring_buffer__poll` hands the next committed record to `handle_event`. -/
  | consume
  deriving DecidableEq

/-- What each operation returns. -/
@[reducible] def NfsAct.Res : NfsAct → Type
  | .lookupFh _ => Option (List UInt8)
  | .lookupCache _ => Option (Nat × NfsFileCacheEntry)
  | .loadHits _ | .ktime | .loadClient _ _ | .time => Nat
  | .lookupClient _ => Option Nat
  | .updateClient _ _ | .updateCache _ _ | .updateFhName _ _ => Bool
  | _ => Unit

/-- A program of the NFS server. -/
abbrev NfsProg := Prog NfsAct NfsAct.Res

/-! Case splits on what a lookup or an update returned, for `simp`. -/

@[simp] theorem NfsAct.forall_lookupFh_res {fh : NfsFh} {p : (NfsAct.lookupFh fh).Res → Prop} :
    (∀ r, p r) ↔ p none ∧ ∀ n, p (some n) := Option.forall

@[simp] theorem NfsAct.forall_lookupCache_res {k : List UInt8}
    {p : (NfsAct.lookupCache k).Res → Prop} : (∀ r, p r) ↔ p none ∧ ∀ n, p (some n) :=
  Option.forall

@[simp] theorem NfsAct.forall_lookupClient_res {ip : Nat} {p : (NfsAct.lookupClient ip).Res → Prop} :
    (∀ r, p r) ↔ p none ∧ ∀ n, p (some n) := Option.forall

@[simp] theorem NfsAct.forall_updateCache_res {k : List UInt8} {e : NfsFileCacheEntry}
    {p : (NfsAct.updateCache k e).Res → Prop} : (∀ r, p r) ↔ p false ∧ p true := Bool.forall_bool

@[simp] theorem NfsAct.forall_updateFhName_res {h : NfsFh} {k : List UInt8}
    {p : (NfsAct.updateFhName h k).Res → Prop} : (∀ r, p r) ↔ p false ∧ p true := Bool.forall_bool

/-- The result of a map update and the map after it. -/
def updateStatus {κ ν : Type} [DecidableEq κ] (m : BpfHash κ ν) (k : κ) (v : ν) :
    Bool × BpfHash κ ν :=
  match m.update k v with
  | none => (false, m)
  | some m' => (true, m')

/-- After an update, a key names the new element when the update reported success and the key is
the one updated, and what it named before otherwise. -/
theorem updateStatus_lookup {κ ν : Type} [DecidableEq κ] (m : BpfHash κ ν) (k : κ) (v : ν)
    (k' : κ) : (updateStatus m k v).2.lookup k' =
      if (updateStatus m k v).1 ∧ k' = k then some (m.next, v) else m.lookup k' := by
  unfold updateStatus
  split
  · simp
  · next m' h => simp [BpfHash.update_lookup h]

/-- An update that reports failure left the map as it was, and was refused. -/
theorem updateStatus_false {κ ν : Type} [DecidableEq κ] {m : BpfHash κ ν} {k : κ} {v : ν}
    (h : (updateStatus m k v).1 = false) : (updateStatus m k v).2 = m ∧ m.update k v = none := by
  unfold updateStatus at h ⊢
  split at h
  · next hu => exact ⟨rfl, hu⟩
  · cases h

/-- A full map stays full after an update. -/
theorem updateStatus_full {κ ν : Type} [DecidableEq κ] {m : BpfHash κ ν} (k : κ) (v : ν)
    (h : m.Full) : (updateStatus m k v).2.Full := by
  unfold updateStatus
  split
  · exact h
  · next m' hu =>
    obtain ⟨hc, hm⟩ := BpfHash.update_count hu
    show m'.maxEntries ≤ m'.count
    rw [hm]; exact h.trans hc

/-- The effect of one operation of invocation `tid`. -/
def NfsAct.exec (tid : Nat) : (a : NfsAct) → NfsState → a.Res × NfsState
  | .statAdd i, s => ((), { s with stats := arrayAdd 16 s.stats i 1 })
  | .lookupFh h, s => (s.fhToName.get h, s)
  | .lookupCache k, s => (s.fileCache.lookup k, s)
  | .loadHits i, s => (((s.fileCache.heap i).map (·.cacheHits)).getD 0, s)
  | .storeHits i v, s =>
    ((), { s with fileCache := s.fileCache.modify i fun e => { e with cacheHits := v } })
  | .ktime, s => (s.clock, s)
  | .lookupClient ip, s => ((s.clientTrack.lookup ip).map Prod.fst, s)
  | .updateClient ip st, s =>
    ((updateStatus s.clientTrack ip st).1, { s with clientTrack := (updateStatus s.clientTrack ip st).2 })
  | .storeClientTime i v, s =>
    ((), { s with clientTrack := s.clientTrack.modify i fun c => { c with lastRequestTime := v } })
  | .loadClient c i, s => (((s.clientTrack.heap i).map (·.get c)).getD 0, s)
  | .storeClient c i v, s => ((), { s with clientTrack := s.clientTrack.modify i (·.set c v) })
  | .submit r, s => ((), { s with events := s.events ++ [(tid, r)] })
  | .time, s => (s.wall, s)
  | .updateCache k e, s =>
    ((updateStatus s.fileCache k e).1, { s with fileCache := (updateStatus s.fileCache k e).2 })
  | .updateFhName h k, s =>
    ((updateStatus s.fhToName h k).1, { s with fhToName := (updateStatus s.fhToName h k).2 })
  | .consume, s =>
    match s.events[s.consumed]? with
    | none => ((), s)
    | some (_, r) => ((), { s with consumed := s.consumed + 1, user := nfsHandleEvent s.user r })

/-- The `nfs_stats` index an operation adds to. -/
def NfsAct.statIndex : NfsAct → Option Nat
  | .statAdd i => some i
  | .lookupFh _ => none
  | .lookupCache _ => none
  | .loadHits _ => none
  | .storeHits _ _ => none
  | .ktime => none
  | .lookupClient _ => none
  | .updateClient _ _ => none
  | .storeClientTime _ _ => none
  | .loadClient _ _ => none
  | .storeClient _ _ _ => none
  | .submit _ => none
  | .time => none
  | .updateCache _ _ => none
  | .updateFhName _ _ => none
  | .consume => none

/-- The record an operation commits. -/
def NfsAct.committed : NfsAct → Option NfsRecord
  | .statAdd _ => none
  | .lookupFh _ => none
  | .lookupCache _ => none
  | .loadHits _ => none
  | .storeHits _ _ => none
  | .ktime => none
  | .lookupClient _ => none
  | .updateClient _ _ => none
  | .storeClientTime _ _ => none
  | .loadClient _ _ => none
  | .storeClient _ _ _ => none
  | .submit r => some r
  | .time => none
  | .updateCache _ _ => none
  | .updateFhName _ _ => none
  | .consume => none

/-! ## What each operation changes -/

section Exec

variable (tid : Nat) (a : NfsAct) (s : NfsState)

theorem NfsAct.exec_stats :
    (NfsAct.exec tid a s).2.stats = a.statIndex.elim s.stats fun i => arrayAdd 16 s.stats i 1 := by
  cases a <;> simp only [NfsAct.exec, NfsAct.statIndex, Option.elim]
  case consume => split <;> rfl

theorem NfsAct.exec_events :
    (NfsAct.exec tid a s).2.events = s.events ++ (a.committed.map (tid, ·)).toList := by
  cases a <;> simp only [NfsAct.exec, NfsAct.committed, Option.map, Option.toList, List.append_nil]
  case consume => split <;> rfl

theorem NfsAct.exec_consumer :
    ((NfsAct.exec tid a s).2.consumed, (NfsAct.exec tid a s).2.user) =
      if a = .consume then
        match s.events[s.consumed]? with
        | none => (s.consumed, s.user)
        | some (_, r) => (s.consumed + 1, nfsHandleEvent s.user r)
      else (s.consumed, s.user) := by
  cases a <;> simp only [NfsAct.exec, reduceCtorEq, if_false, if_true]
  case consume => split <;> rfl

end Exec

namespace NfsProg

/-- `update_nfs_stats(i, 1)` (test_nfs_server.sh:435). -/
def statAdd (i : Nat) : NfsProg Unit := .act (.statAdd i) .ret
/-- `bpf_ringbuf_reserve`: whether the ring had room. -/
def reserve : NfsProg Bool := .choose .ret
/-- `bpf_ktime_get_ns()`. -/
def ktime : NfsProg Nat := .act .ktime .ret
/-- `bpf_ringbuf_submit`. -/
def submit (r : NfsRecord) : NfsProg Unit := .act (.submit r) .ret

end NfsProg

/-- Run an NFS program alone as invocation `0`. -/
def NfsProg.runAlone {α : Type} (p : NfsProg α) (ring : List Bool) (s : NfsState) :
    α × List Bool × NfsState :=
  Prog.run (NfsAct.exec 0) p ring s

end EbpfNfs
