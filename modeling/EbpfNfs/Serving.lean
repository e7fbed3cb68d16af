import EbpfNfs.Freshness

/-!
# What the NFS kernel serves from its cache

`handle_nfs_getattr` and `handle_nfs_read` answer a call in the kernel, returning 1, from the
entry `nfs_file_cache` holds under the name `fh_to_name` gives for the call's handle. Each makes
its own checks before it does: `GETATTR` that the entry is valid and no older than the TTL by
the kernel clock; `READ` that the entry is valid with valid data and that the requested range
lies inside it, in `__u32` arithmetic (`handleNfsGetattr_served`, `handleNfsRead_served`).

Over every reachable state of the NFS system the entries are those `cache_file_in_kernel`
installed (`nfsCaches_wellFormed`), so a served `READ` stays inside the cached content and the
`__u32` sum in its range check never wraps (`read_served_within_content`).

Two checks are missing. `handle_nfs_read` never reads a clock: its answer is the same at every
kernel time (`handleNfsRead_setClocks`), so an entry is served however long ago it was cached
(`read_served_at_any_age`). Neither handler reads `max_cached_file_size`, while
`cache_file_in_kernel` admits files up to `MAX_NFS_DATA_SIZE` (`cacheFileInKernel_ok`), twice
the shipped maximum (`oversized_file_served`).
-/

namespace EbpfNfs

open Prog

/-! ## The handlers' answers -/

section Served

variable {cfg : NfsConfig} {req : NfsRequest} {ev : NfsEvent} {junk : List UInt8}
  {o : List Bool} {s : NfsState}

/-- A `GETATTR` answered in the kernel was answered from a valid entry under the name of its
handle, no older than the TTL by the kernel clock, with the entry's size. -/
theorem handleNfsGetattr_served (h : ((handleNfsGetattr cfg req ev junk).runAlone o s).1.1 = 1) :
    ∃ name i e, s.fhToName.get req.fh = some name ∧
      s.fileCache.lookup (handlerFilename name junk) = some (i, e) ∧ e.valid ≠ 0 ∧
      subU64 s.clock e.cacheTime ≤ ttlNs cfg ∧
      ((handleNfsGetattr cfg req ev junk).runAlone o s).1.2 =
        { ev with result := nfsOpSuccess, forwardedToUser := 0, fromCache := 1,
                  fileSize := e.attr.size % 2 ^ 32, filename := handlerFilename name junk } := by
  rcases hf : s.fhToName.get req.fh with _ | name
  · simp [NfsProg.runAlone, handleNfsGetattr, NfsAct.exec, hf] at h
  rcases hc : s.fileCache.lookup (handlerFilename name junk) with _ | ⟨i, e⟩
  · simp [NfsProg.runAlone, handleNfsGetattr, NfsAct.exec, hf, hc] at h
  refine ⟨name, i, e, rfl, hc, ?_⟩
  simp only [NfsProg.runAlone, handleNfsGetattr, run_act, NfsAct.exec, hf, hc] at h ⊢
  split_ifs at h ⊢ with hv
  · simp at h
  by_cases ht : ttlNs cfg < subU64 s.clock e.cacheTime
  · simp [NfsAct.exec, ht] at h
  · simp [hv, NfsAct.exec, ht, bumpHits, NfsProg.statAdd, run_bind]
    omega

/-- A `READ` answered in the kernel was answered from a valid entry with valid data under the
name of its handle, for a range that passes the `__u32` bounds check, with the count asked. -/
theorem handleNfsRead_served (h : ((handleNfsRead req ev junk).runAlone o s).1.1 = 1) :
    ∃ name i e, s.fhToName.get req.fh = some name ∧
      s.fileCache.lookup (handlerFilename name junk) = some (i, e) ∧ e.valid ≠ 0 ∧
      e.dataValid ≠ 0 ∧ req.offset < e.dataSize ∧ req.count ≤ maxNfsDataSize ∧
      (req.offset + req.count) % 2 ^ 32 ≤ e.dataSize ∧
      ((handleNfsRead req ev junk).runAlone o s).1.2 =
        { ev with result := nfsOpSuccess, forwardedToUser := 0, fromCache := 1,
                  fileSize := req.count, filename := handlerFilename name junk } := by
  rcases hf : s.fhToName.get req.fh with _ | name
  · simp [NfsProg.runAlone, handleNfsRead, NfsAct.exec, hf] at h
  rcases hc : s.fileCache.lookup (handlerFilename name junk) with _ | ⟨i, e⟩
  · simp [NfsProg.runAlone, handleNfsRead, NfsAct.exec, hf, hc] at h
  refine ⟨name, i, e, rfl, hc, ?_⟩
  simp only [NfsProg.runAlone, handleNfsRead, run_act, NfsAct.exec, hf, hc] at h ⊢
  split_ifs at h ⊢ with hv hr
  · simp at h
  · simp at h
  · simp only [not_or, not_le, not_lt] at hv hr
    refine ⟨hv.1, hv.2, hr.1, hr.2.1, hr.2.2, ?_⟩
    simp [bumpHits, NfsProg.statAdd, run_bind]

/-- A `READ` whose handle names a valid entry with valid data, for a range that passes the
`__u32` bounds check, is answered in the kernel. -/
theorem handleNfsRead_hit {n : List UInt8} {i : Nat} {e : NfsFileCacheEntry}
    (hfh : s.fhToName.get req.fh = some n)
    (hc : s.fileCache.lookup (handlerFilename n junk) = some (i, e)) (hv : e.valid ≠ 0)
    (hd : e.dataValid ≠ 0) (hoff : req.offset < e.dataSize) (hcnt : req.count ≤ maxNfsDataSize)
    (hend : (req.offset + req.count) % 2 ^ 32 ≤ e.dataSize) :
    ((handleNfsRead req ev junk).runAlone o s).1.1 = 1 := by
  rw [show (2 : Nat) ^ 32 = 4294967296 from rfl] at hend
  simp [NfsProg.runAlone, handleNfsRead, NfsAct.exec, hfh, hc, hv, hd, not_le.2 hoff,
    not_lt.2 hcnt, not_lt.2 hend, bumpHits, NfsProg.statAdd, run_bind]

end Served

/-! ## `handle_nfs_read` reads no clock -/

/-- The operations that read a clock: `bpf_ktime_get_ns` and `time(NULL)`. -/
def NfsAct.readsClocks : NfsAct → Bool
  | .ktime | .time => true
  | _ => false

/-- An operation that reads no clock does the same whatever the clocks say, and leaves them. -/
theorem NfsAct.exec_setClocks (tid : Nat) {a : NfsAct} (ha : a.readsClocks = false)
    (s : NfsState) (c w : Nat) :
    NfsAct.exec tid a { s with clock := c, wall := w } =
      ((NfsAct.exec tid a s).1, { (NfsAct.exec tid a s).2 with clock := c, wall := w }) := by
  cases a <;> simp_all [NfsAct.readsClocks, NfsAct.exec]
  split <;> rfl

theorem handleNfsRead_readsNoClock (req : NfsRequest) (ev : NfsEvent) (junk : List UInt8) :
    Acts (fun a => a.readsClocks = false) (handleNfsRead req ev junk) := by
  simp [handleNfsRead, bumpHits, NfsProg.statAdd, acts_ite, NfsAct.readsClocks]

/-- `handle_nfs_read` answers the same at every time of both clocks. -/
theorem handleNfsRead_setClocks (req : NfsRequest) (ev : NfsEvent) (junk : List UInt8)
    (o : List Bool) (s : NfsState) (c w : Nat) :
    (handleNfsRead req ev junk).runAlone o { s with clock := c, wall := w } =
      (((handleNfsRead req ev junk).runAlone o s).1, ((handleNfsRead req ev junk).runAlone o s).2.1,
        { ((handleNfsRead req ev junk).runAlone o s).2.2 with clock := c, wall := w }) := by
  unfold NfsProg.runAlone
  exact (handleNfsRead_readsNoClock req ev junk).run_map (fun s => { s with clock := c, wall := w })
    (fun _ s ha => NfsAct.exec_setClocks 0 ha s c w) o s

/-! ## Over every reachable state -/

/-- Over every reachable state of the NFS system, a `READ` answered in the kernel, for any
handle, offset and count, was answered from an entry with `valid = data_valid = 1`, for a count
within `MAX_NFS_DATA_SIZE` and a range inside the cached content, measured without wrapping, and
reports the count asked as the event's `file_size`. -/
theorem read_served_within_content {cfg : NfsConfig} {env : NfsServer.Env} {clock wall : Nat}
    {s : Pool NfsAct NfsAct.Res NfsState}
    (h : (nfsSystem cfg env).Reachable (NfsState.init clock wall) s) {req : NfsRequest}
    {ev : NfsEvent} {junk : List UInt8} {o : List Bool}
    (hr : ((handleNfsRead req ev junk).runAlone o s.maps).1.1 = 1) :
    ∃ name i e, s.maps.fhToName.get req.fh = some name ∧
      s.maps.fileCache.lookup (handlerFilename name junk) = some (i, e) ∧
      e.valid = 1 ∧ e.dataValid = 1 ∧ req.count ≤ maxNfsDataSize ∧ req.offset < e.dataSize ∧
      req.offset + req.count ≤ e.dataSize ∧ e.dataSize ≤ maxNfsDataSize ∧
      ((handleNfsRead req ev junk).runAlone o s.maps).1.2.fileSize = req.count := by
  obtain ⟨name, i, e, hf, hc, -, -, hoff, hcnt, hend, hev⟩ := handleNfsRead_served hr
  have he := (nfsCacheInv_reachable h).entries _ i e hc
  have hsz : e.dataSize ≤ maxNfsDataSize := he.dataSize ▸ he.size_le
  have hwrap : req.offset + req.count < 2 ^ 32 := by simp only [maxNfsDataSize] at hsz hcnt; omega
  refine ⟨name, i, e, hf, hc, he.valid, he.dataValid, hcnt, hoff, ?_, hsz, by rw [hev]⟩
  rwa [Nat.mod_eq_of_lt hwrap] at hend

/-- A call of `procedure` on the file cached under `n`, by the handle `cache_file_in_kernel`
derives for `n`, for `count` bytes at offset 0, from 10.0.0.1:1000 with `xid` 8. -/
def requestFor (procedure : Nat) (n : List UInt8) (count : Nat) : NfsRequest :=
  { clientAddr := 0x0100000a, clientPort := 1000, xid := 8, procedure := procedure,
    processedInKernel := 0, offset := 0, count := count, fh := NfsServer.generateNfsFileHandle n }

/-- The event `nfs_server_tc` hands the handler of that call: forwarded until it is served. -/
def eventFor (procedure : Nat) : NfsEvent :=
  { clientAddr := 0x0100000a, clientPort := 1000, xid := 8, procedure := procedure,
    result := nfsOpForwardToUser, filename := [0], fileSize := 0, timestamp := 0,
    forwardedToUser := 1, fromCache := 0 }

set_option maxRecDepth 8000 in
/-- After `nfsNullRun`, a `READ` of five bytes of `test.txt` by the handle stored for it is
answered in the kernel. -/
theorem nullRun_read_test_txt :
    ((handleNfsRead (requestFor nfsproc3Read (nameKey (ascii "test.txt")) 5)
      (eventFor nfsproc3Read) (List.replicate 256 0)).runAlone [] nfsNullRun.maps).1.1 = 1 := by
  decide

set_option maxRecDepth 8000 in
theorem read_served_within_content_test_txt :
    let req := requestFor nfsproc3Read (nameKey (ascii "test.txt")) 5
    let junk := List.replicate 256 0
    (nfsTestSystem.Reachable (NfsState.init 0 0) nfsNullRun ∧
      ((handleNfsRead req (eventFor nfsproc3Read) junk).runAlone [] nfsNullRun.maps).1.1 = 1) ∧
    ∃ name i e, nfsNullRun.maps.fhToName.get req.fh = some name ∧
      nfsNullRun.maps.fileCache.lookup (handlerFilename name junk) = some (i, e) ∧
      e.valid = 1 ∧ e.dataValid = 1 ∧ req.count ≤ maxNfsDataSize ∧ req.offset < e.dataSize ∧
      req.offset + req.count ≤ e.dataSize ∧ e.dataSize ≤ maxNfsDataSize ∧
      ((handleNfsRead req (eventFor nfsproc3Read) junk).runAlone [] nfsNullRun.maps).1.2.fileSize =
        req.count :=
  ⟨⟨⟨_, rfl⟩, nullRun_read_test_txt⟩, read_served_within_content ⟨_, rfl⟩ nullRun_read_test_txt⟩

set_option maxRecDepth 8000 in
/-- After the control plane caches `test.txt` at wall-clock second 0 (`nfsNullRun`), and the
kernel clock then reads any time `t`, however far past the 60 s TTL, `handle_nfs_read` still
serves `test.txt` from the entry stamped `cache_time = 0`. -/
theorem read_served_at_any_age (t : Nat) :
    let s : Pool NfsAct NfsAct.Res NfsState := nfsTestSystem.run nfsNullRun [.env (t, 0)]
    nfsTestSystem.Reachable (NfsState.init 0 0) s ∧
      (s.maps.fileCache.lookup (nameKey (ascii "test.txt"))).map (·.2.cacheTime) = some 0 ∧
      ((handleNfsRead (requestFor nfsproc3Read (nameKey (ascii "test.txt")) 5)
        (eventFor nfsproc3Read) (List.replicate 256 0)).runAlone [] s.maps).1.1 = 1 := by
  refine ⟨.run _ ⟨_, rfl⟩ _, (by decide : (nfsNullRun.maps.fileCache.lookup
    (nameKey (ascii "test.txt"))).map (·.2.cacheTime) = some 0), ?_⟩
  show ((handleNfsRead _ _ _).runAlone [] { nfsNullRun.maps with
    clock := nfsNullRun.maps.clock + t, wall := nfsNullRun.maps.wall + 0 }).1.1 = 1
  rw [handleNfsRead_setClocks]
  exact nullRun_read_test_txt

/-! ## The configured maximum -/

/-- `cache_file_in_kernel` of `nfs_server.c` on a regular file of at most `MAX_NFS_DATA_SIZE`
bytes that opens and reads whole, when both map updates succeed: it installs the entry under the
name and the name under its handle, and returns 0. -/
theorem cacheFileInKernel_ok {env : NfsServer.Env} {fs : FileSys} {n : List UInt8}
    {st : FileStat} {data : List UInt8} {o : List Bool} {s : NfsState}
    {c : BpfHash (List UInt8) NfsFileCacheEntry} {f : BpfHash NfsFh (List UInt8)}
    (hon : env.enableKernelCache = true) (hst : fs (joinPath env.exportRoot n) = some st)
    (hreg : sIsReg st.mode = true) (hsz : st.size ≤ maxNfsDataSize) (hopen : st.openOk = true)
    (hread : st.read st.size = some data) (hlen : data.length = st.size)
    (hc : s.fileCache.update n (NfsServer.cacheEntry n st data s.wall) = some c)
    (hf : s.fhToName.update (NfsServer.generateNfsFileHandle n) n = some f) :
    (NfsServer.cacheFileInKernel env fs n).runAlone o s =
      (0, o, { s with fileCache := c, fhToName := f }) := by
  simp [NfsServer.cacheFileInKernel, NfsProg.runAlone, NfsAct.exec, updateStatus, hon, hst, hreg,
    not_lt.2 hsz, hopen, hread, hlen, hc, hf]

/-- The configuration `test_nfs_server.sh` ships: kernel processing on,
`max_cached_file_size = 4096` and `cache_ttl_seconds = 300` (test_nfs_server.sh:378-380). -/
def nfsShippedConfig : NfsConfig := ⟨1, 4096, 300⟩

/-- What `stat` reports for `big.bin`: a regular file of 4097 bytes, one more than the shipped
`max_cached_file_size`. -/
def bigStat : FileStat :=
  { mode := 33188, nlink := 1, uid := 0, gid := 0, size := 4097, blocks := 16, ino := 3,
    atime := 0, mtime := 0, ctime := 0, openOk := true, readOk := true,
    contents := List.replicate 4097 120 }

set_option maxRecDepth 8000 in
/-- From the maps as the loader creates them, the control plane caches `big.bin`, of 4097 bytes,
under the options `nfs_server.c` ships. Its entry is larger than the shipped
`max_cached_file_size`, and both `handle_nfs_getattr` and `handle_nfs_read` serve it. -/
theorem oversized_file_served :
    let s : NfsState := ((NfsServer.cacheFileInKernel ⟨ascii "./nfs_exports", true⟩
      (fun _ => some bigStat) (nameKey (ascii "big.bin"))).runAlone [] (NfsState.init 0 0)).2.2
    (∃ i e, s.fileCache.lookup (nameKey (ascii "big.bin")) = some (i, e) ∧
      nfsShippedConfig.maxCachedFileSize.toNat < e.attr.size ∧
      nfsShippedConfig.maxCachedFileSize.toNat < e.dataSize) ∧
    ((handleNfsGetattr nfsShippedConfig (requestFor nfsproc3Getattr (nameKey (ascii "big.bin")) 0)
      (eventFor nfsproc3Getattr) (List.replicate 256 0)).runAlone [] s).1.1 = 1 ∧
    ((handleNfsRead (requestFor nfsproc3Read (nameKey (ascii "big.bin")) 1)
      (eventFor nfsproc3Read) (List.replicate 256 0)).runAlone [] s).1.1 = 1 := by
  intro s
  obtain ⟨c, hc⟩ := BpfHash.exists_update_of_not_full (m := (NfsState.init 0 0).fileCache)
    (show ¬ 1024 ≤ 0 by decide) (nameKey (ascii "big.bin"))
    (NfsServer.cacheEntry (nameKey (ascii "big.bin")) bigStat (List.replicate 4097 120) 0)
  obtain ⟨f, hf⟩ := BpfHash.exists_update_of_not_full (m := (NfsState.init 0 0).fhToName)
    (show ¬ 2048 ≤ 0 by decide) (NfsServer.generateNfsFileHandle (nameKey (ascii "big.bin")))
    (nameKey (ascii "big.bin"))
  have hrun : (NfsServer.cacheFileInKernel ⟨ascii "./nfs_exports", true⟩ (fun _ => some bigStat)
      (nameKey (ascii "big.bin"))).runAlone [] (NfsState.init 0 0) =
      (0, [], { NfsState.init 0 0 with fileCache := c, fhToName := f }) :=
    cacheFileInKernel_ok rfl rfl (by decide) (by decide) rfl
      (by simp only [FileStat.read, bigStat, if_true, List.take_replicate, min_self])
      ((List.length_replicate _ _).trans rfl) hc hf
  have hs : s = { NfsState.init 0 0 with fileCache := c, fhToName := f } := congrArg (·.2.2) hrun
  have hkey : handlerFilename (nameKey (ascii "big.bin")) (List.replicate 256 0) =
      nameKey (ascii "big.bin") := by decide
  have hl : s.fileCache.lookup (nameKey (ascii "big.bin")) = some (0, NfsServer.cacheEntry
      (nameKey (ascii "big.bin")) bigStat (List.replicate 4097 120) 0) := by
    rw [hs]; exact (BpfHash.update_lookup hc _).trans (if_pos rfl)
  have hn : s.fhToName.get (NfsServer.generateNfsFileHandle (nameKey (ascii "big.bin"))) =
      some (nameKey (ascii "big.bin")) := by
    rw [hs]; exact (BpfHash.update_get hf _).trans (if_pos rfl)
  refine ⟨⟨_, _, hl, by decide, by decide⟩, ?_, handleNfsRead_hit hn (hkey ▸ hl) (by decide)
    (by decide) (by decide) (by decide) (by decide)⟩
  rw [@handleNfsGetattr_fresh nfsShippedConfig (requestFor nfsproc3Getattr
    (nameKey (ascii "big.bin")) 0) (eventFor nfsproc3Getattr) (List.replicate 256 0) [] _ _ _ _ hn
    (hkey ▸ hl) (by decide) (by rw [hs]; exact (by decide : subU64 0 0 ≤ ttlNs nfsShippedConfig))]

end EbpfNfs
