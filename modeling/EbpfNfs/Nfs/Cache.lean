import EbpfNfs.Nfs.System

/-!
# The NFS caches hold well-formed entries

`nfs_file_cache` and `fh_to_name` are written only by the control plane's `cache_file_in_kernel`,
with two updates in a row that can each fail, while the kernel stores into an entry only its
`cache_hits`. Over every interleaving, every entry is valid with valid data, as long as its
attributes say and within `MAX_NFS_DATA_SIZE`, and carries the handle `generate_nfs_file_handle`
derives from its key; and every handle `fh_to_name` maps to a name is the handle of the entry
cached under that name (`nfsCaches_wellFormed`).

The steps: the kernel programs update neither map (`nfsServerTc_acts` and its parts);
`cache_file_in_kernel` installs only well-formed entries and maps a handle to a name only after
its update of the name's entry succeeded (`cacheFileInKernel_cacheWrites`); and what every
invocation so contributes keeps `NfsCacheInv`, since no action removes a key
(`nfsCacheInv_reachable`).
-/

namespace EbpfNfs

open Prog

/-- The actions that update `nfs_file_cache` or `fh_to_name`. -/
def NfsAct.writesCache : NfsAct → Bool
  | .updateCache _ _ | .updateFhName _ _ => true
  | _ => false

/-- The actions that change `nfs_file_cache` or `fh_to_name`: the updates and the store of
`cache_hits`. -/
def NfsAct.touchesCache : NfsAct → Bool
  | .storeHits _ _ | .updateCache _ _ | .updateFhName _ _ => true
  | _ => false

/-- The key and entry an `nfs_file_cache` update installs. -/
def NfsAct.cacheWrite : NfsAct → Option (List UInt8 × NfsFileCacheEntry)
  | .updateCache k e => some (k, e)
  | _ => none

/-- The handle and name an `fh_to_name` update installs. -/
def NfsAct.fhWrite : NfsAct → Option (NfsFh × List UInt8)
  | .updateFhName h k => some (h, k)
  | _ => none

theorem NfsAct.exec_caches {tid : Nat} {a : NfsAct} (s : NfsState) (ha : a.touchesCache = false) :
    (NfsAct.exec tid a s).2.fileCache = s.fileCache ∧ (NfsAct.exec tid a s).2.fhToName = s.fhToName := by
  cases a <;> simp_all [NfsAct.exec, NfsAct.touchesCache]
  split <;> simp

/-- An entry fit to be cached under key `n`. -/
structure NfsEntryOk (n : List UInt8) (e : NfsFileCacheEntry) : Prop where
  valid : e.valid = 1
  dataValid : e.dataValid = 1
  dataSize : e.dataSize = e.attr.size
  size_le : e.attr.size ≤ maxNfsDataSize
  fh : e.fh = NfsServer.generateNfsFileHandle n

/-- A store of `cache_hits` keeps an entry fit. -/
theorem NfsEntryOk.setHits {n : List UInt8} {e : NfsFileCacheEntry} (h : NfsEntryOk n e) (v : Nat) :
    NfsEntryOk n { e with cacheHits := v } :=
  ⟨h.valid, h.dataValid, h.dataSize, h.size_le, h.fh⟩

/-- The entry `cache_file_in_kernel` builds for a file within `MAX_NFS_DATA_SIZE` is fit. -/
theorem cacheEntry_ok {n : List UInt8} {st : FileStat} (data : List UInt8) (w : Nat)
    (hs : st.size ≤ maxNfsDataSize) : NfsEntryOk n (NfsServer.cacheEntry n st data w) := by
  have h32 : st.size < 2 ^ 32 := lt_of_le_of_lt hs (by decide)
  have h64 : st.size < 2 ^ 64 := lt_of_le_of_lt hs (by decide)
  refine ⟨rfl, rfl, ?_, ?_, rfl⟩ <;>
    simp only [NfsServer.cacheEntry, Nat.mod_eq_of_lt h32, Nat.mod_eq_of_lt h64, hs]

/-! ## What one invocation writes -/

/-- What an invocation's updates of the caches satisfy: every entry it installs is fit for its key,
and every handle it maps to a name is that name's handle, mapped after an update of the name's
entry that succeeded. -/
def CacheWritesOk (l : List (Ev NfsAct NfsAct.Res)) : Prop :=
  (∀ p ∈ recordsOf NfsAct.cacheWrite l, NfsEntryOk p.1 p.2) ∧
    ∀ p ∈ recordsOf NfsAct.fhWrite l, p.1 = NfsServer.generateNfsFileHandle p.2 ∧
      ∃ e, (⟨.updateCache p.2 e, true⟩ : Ev NfsAct NfsAct.Res) ∈ l

/-- An action that updates neither map keeps `CacheWritesOk`. -/
theorem CacheWritesOk.snoc {l : List (Ev NfsAct NfsAct.Res)} (h : CacheWritesOk l)
    {e : Ev NfsAct NfsAct.Res} (he : e.1.writesCache = false) : CacheWritesOk (l ++ [e]) := by
  rcases e with ⟨a, r⟩
  have hc : a.cacheWrite = none := by cases a <;> simp_all [NfsAct.writesCache, NfsAct.cacheWrite]
  have hf : a.fhWrite = none := by cases a <;> simp_all [NfsAct.writesCache, NfsAct.fhWrite]
  simp only [CacheWritesOk, recordsOf_append, recordsOf_cons, recordsOf_nil, hc, hf,
    Option.toList_none, List.append_nil] at h ⊢
  exact ⟨h.1, fun p hp => ⟨(h.2 p hp).1, (h.2 p hp).2.imp fun _ he => List.mem_append_left _ he⟩⟩

section Kernel

/-- The kernel's actions, which update neither map. -/
def KernelSide (a : NfsAct) : Prop := a.writesCache = false

theorem bumpClient_acts (ptr : Option Nat) (c : ClientCounter) :
    Acts KernelSide (bumpClient ptr c) := by
  cases ptr <;> simp [bumpClient, KernelSide, NfsAct.writesCache]

theorem handleNfsGetattr_acts (cfg : NfsConfig) (req : NfsRequest) (ev : NfsEvent)
    (junk : List UInt8) : Acts KernelSide (handleNfsGetattr cfg req ev junk) := by
  simp [handleNfsGetattr, bumpHits, NfsProg.statAdd, acts_ite, KernelSide, NfsAct.writesCache]

theorem handleNfsRead_acts (req : NfsRequest) (ev : NfsEvent) (junk : List UInt8) :
    Acts KernelSide (handleNfsRead req ev junk) := by
  simp [handleNfsRead, bumpHits, NfsProg.statAdd, acts_ite, KernelSide, NfsAct.writesCache]

theorem nfsServe_acts (cfg : NfsConfig) (v : NfsFrame) (rpc : RpcHeader) (junk : List UInt8)
    (ptr : Option Nat) : Acts KernelSide (nfsServe cfg v rpc junk ptr) := by
  have hd : ∀ ev, Acts KernelSide (nfsDispatch cfg rpc (nfsRequestOf v rpc) ev junk) := fun ev => by
    unfold nfsDispatch
    split_ifs
    · trivial
    · simp [NfsProg.statAdd, KernelSide, NfsAct.writesCache]
    · exact handleNfsGetattr_acts cfg _ ev junk
    · exact handleNfsRead_acts _ ev junk
    · trivial
  simp only [nfsServe, NfsProg.reserve, NfsProg.ktime, choose_bind, act_bind, ret_bind,
    acts_choose, acts_act, Bool.forall_bool, Bool.not_false, Bool.not_true, Bool.false_eq_true,
    eq_self_iff_true, ↓reduceIte, pure_eq, Prog.bind_assoc, acts_ret]
  refine ⟨trivial, trivial, rfl, fun ts => acts_bind (hd _) fun r => ?_⟩
  simp only [NfsProg.statAdd, act_bind, ret_bind, acts_act]
  refine ⟨rfl, fun _ => ?_⟩
  split_ifs
  · exact acts_bind (bumpClient_acts ptr _) fun _ => by
      simp [NfsProg.submit, KernelSide, NfsAct.writesCache]
  · exact acts_bind (bumpClient_acts ptr _) fun _ => by
      simp [NfsProg.statAdd, NfsProg.submit, KernelSide, NfsAct.writesCache]

/-- `nfs_server_tc` updates neither `nfs_file_cache` nor `fh_to_name`. -/
theorem nfsServerTc_acts (cfg : NfsConfig) (f junk : List UInt8) :
    Acts KernelSide (nfsServerTc cfg f junk) := by
  unfold nfsServerTc
  split
  · trivial
  · exact acts_bind (by simp [trackClient, bumpClient, KernelSide, NfsAct.writesCache])
      fun p =>
      nfsServe_acts cfg _ _ junk p

end Kernel

/-- `cache_file_in_kernel` installs fit entries, and maps a name's handle to it only after the
name's entry was installed. -/
theorem cacheFileInKernel_cacheWrites (env : NfsServer.Env) (fs : FileSys) (n : List UInt8) :
    Paths CacheWritesOk (fun _ _ => True)
      (NfsServer.cacheFileInKernel env fs n >>= fun _ => pure ()) [] := by
  rcases NfsServer.cacheFileInKernel_cases env fs n with
    ⟨-, h⟩ | h | ⟨st, data, -, -, -, hsz, -, -, -, h⟩
  iterate 2 simp [h, CacheWritesOk]
  · simp [h, paths_ite, CacheWritesOk, NfsAct.cacheWrite, NfsAct.fhWrite]
    exact fun _ => cacheEntry_ok _ _ hsz

/-- Every invocation of the NFS system writes the caches as `CacheWritesOk` says. -/
theorem nfsSystem_cacheWrites (cfg : NfsConfig) (env : NfsServer.Env) :
    ∀ i, Paths CacheWritesOk (fun _ _ => True) ((nfsSystem cfg env).prog i) [] := by
  have hnil : CacheWritesOk [] := by simp [CacheWritesOk]
  have hk : ∀ {p : NfsProg Unit}, Acts KernelSide p →
      Paths CacheWritesOk (fun _ _ => True) p [] := fun h =>
    (h.paths (fun _ _ he hl => hl.snoc he) hnil).mono (fun _ h => h) fun _ _ _ => trivial
  intro i
  cases i with
  | tc f junk => exact hk (acts_bind (nfsServerTc_acts cfg f junk) fun _ => trivial)
  | xdp f =>
    refine hk (acts_bind ?_ fun _ => trivial)
    unfold nfsServerXdp; split_ifs <;> simp [NfsProg.statAdd, KernelSide, NfsAct.writesCache]
  | openat =>
    refine hk (acts_bind ?_ fun _ => trivial)
    unfold traceOpenat; split_ifs <;> simp [NfsProg.statAdd, KernelSide, NfsAct.writesCache]
  | refresh fs n => exact cacheFileInKernel_cacheWrites env fs n
  | poll => exact hk (by simp [nfsSystem, NfsServer.pollEvent, KernelSide, NfsAct.writesCache])

/-! ## The caches of a reachable state -/

/-- What the caches of every reachable state satisfy. -/
structure NfsCacheInv (m : NfsState) (log : List (Nat × Ev NfsAct NfsAct.Res)) : Prop where
  /-- A name whose update succeeded stays cached: no action removes a key. -/
  written : ∀ t n e, (t, (⟨.updateCache n e, true⟩ : Ev NfsAct NfsAct.Res)) ∈ log →
    (m.fileCache.lookup n).isSome
  /-- Every cached entry is fit for its key. -/
  entries : ∀ n i e, m.fileCache.lookup n = some (i, e) → NfsEntryOk n e
  /-- Every handle maps to a cached name whose handle it is. -/
  names : ∀ h n, m.fhToName.get h = some n →
    (m.fileCache.lookup n).isSome ∧ h = NfsServer.generateNfsFileHandle n

theorem NfsCacheInv.init (clock wall : Nat) : NfsCacheInv (NfsState.init clock wall) [] :=
  ⟨by simp, by simp [NfsState.init], by simp [NfsState.init]⟩

section Step

variable {m : NfsState} {log : List (Nat × Ev NfsAct NfsAct.Res)} {t : Nat}

/-- An action that changes neither map keeps the invariant. -/
theorem NfsCacheInv.frame (h : NfsCacheInv m log) {a : NfsAct} (ha : a.touchesCache = false) :
    NfsCacheInv (NfsAct.exec t a m).2 (log ++ [(t, ⟨a, (NfsAct.exec t a m).1⟩)]) := by
  obtain ⟨hc, hf⟩ := NfsAct.exec_caches m ha
  refine ⟨fun t' n e he => ?_, hc ▸ h.entries, hc ▸ hf ▸ h.names⟩
  rcases List.mem_append.1 he with he | he
  · exact hc ▸ h.written t' n e he
  · cases a <;> simp_all [NfsAct.touchesCache]

/-- A store of `cache_hits` keeps the invariant. -/
theorem NfsCacheInv.storeHits (h : NfsCacheInv m log) (i v : Nat) :
    NfsCacheInv (NfsAct.exec t (.storeHits i v) m).2
      (log ++ [(t, ⟨.storeHits i v, (NfsAct.exec t (.storeHits i v) m).1⟩)]) := by
  simp only [NfsAct.exec]
  refine ⟨fun t' n e he => ?_, fun n j e he => ?_, fun h' n hn => ?_⟩
  · rcases List.mem_append.1 he with he | he
    · simpa [BpfHash.modify_lookup] using h.written t' n e he
    · simp at he
  · simp only [BpfHash.modify_lookup, Option.map_eq_some'] at he
    obtain ⟨⟨j', e'⟩, hl, hp⟩ := he
    have := h.entries n j' e' hl
    split_ifs at hp <;> cases hp
    · exact this.setHits v
    · exact this
  · simpa [BpfHash.modify_lookup] using h.names h' n hn

/-- A successful update of a name installs a fit entry and keeps the invariant. -/
theorem NfsCacheInv.updateCache (h : NfsCacheInv m log) (k : List UInt8) (e : NfsFileCacheEntry)
    (he : NfsEntryOk k e) :
    NfsCacheInv (NfsAct.exec t (.updateCache k e) m).2
      (log ++ [(t, ⟨.updateCache k e, (NfsAct.exec t (.updateCache k e) m).1⟩)]) := by
  have hsome : ∀ n, (m.fileCache.lookup n).isSome →
      ((updateStatus m.fileCache k e).2.lookup n).isSome := fun n hn => by
    rw [updateStatus_lookup]; split_ifs <;> simp [hn]
  simp only [NfsAct.exec]
  refine ⟨fun t' n e' hw => ?_, fun n j e' hl => ?_, fun h' n hn => ?_⟩
  · rcases List.mem_append.1 hw with hw | hw
    · exact hsome n (h.written t' n e' hw)
    · simp only [List.mem_singleton, Prod.mk.injEq, Sigma.mk.inj_iff, NfsAct.updateCache.injEq]
        at hw
      obtain ⟨-, ⟨rfl, rfl⟩, hr⟩ := hw
      rw [updateStatus_lookup, if_pos ⟨(eq_of_heq hr).symm, rfl⟩]; rfl
  · rw [updateStatus_lookup] at hl
    split_ifs at hl with hk
    · cases hl; exact hk.2 ▸ he
    · exact h.entries n j e' hl
  · obtain ⟨hc, hfh⟩ := h.names h' n hn
    exact ⟨hsome n hc, hfh⟩

/-- An update of a handle to a name that is cached, whose handle it is, keeps the invariant. -/
theorem NfsCacheInv.updateFhName (h : NfsCacheInv m log) (fh : NfsFh) (k : List UInt8)
    (hk : (m.fileCache.lookup k).isSome) (hfh : fh = NfsServer.generateNfsFileHandle k) :
    NfsCacheInv (NfsAct.exec t (.updateFhName fh k) m).2
      (log ++ [(t, ⟨.updateFhName fh k, (NfsAct.exec t (.updateFhName fh k) m).1⟩)]) := by
  simp only [NfsAct.exec]
  refine ⟨fun t' n e he => ?_, h.entries, fun h' n hn => ?_⟩
  · rcases List.mem_append.1 he with he | he
    · exact h.written t' n e he
    · simp at he
  · simp only [BpfHash.get, updateStatus_lookup] at hn
    split_ifs at hn with hh
    · cases hn; exact ⟨hk, hh.2 ▸ hfh⟩
    · exact h.names h' n hn

end Step

/-- In every reachable state of the NFS system the caches satisfy `NfsCacheInv`. -/
theorem nfsCacheInv_reachable {cfg : NfsConfig} {env : NfsServer.Env} {clock wall : Nat}
    {s : Pool NfsAct NfsAct.Res NfsState}
    (h : (nfsSystem cfg env).Reachable (NfsState.init clock wall) s) :
    NfsCacheInv s.maps s.log := by
  refine (nfsSystem cfg env).inv_reachable (nfsSystem_cacheWrites cfg env) NfsCacheInv
    (NfsCacheInv.init clock wall) (fun s t a _ hI hk hP => ?_)
    (fun _ _ _ hI => ⟨hI.written, hI.entries, hI.names⟩) h
  simp only [nfsSystem] at hP ⊢
  cases ha : a.touchesCache
  · exact hI.frame ha
  cases a <;> simp [NfsAct.touchesCache] at ha
  case storeHits i v => exact hI.storeHits i v
  case updateCache k e =>
    exact hI.updateCache k e (hP.1 (k, e) (by simp [NfsAct.cacheWrite]))
  case updateFhName fh k =>
    obtain ⟨hfh, e, he⟩ := hP.2 (fh, k) (by simp [NfsAct.fhWrite])
    rcases List.mem_append.1 he with he | he
    · exact hI.updateFhName fh k (hI.written t k e (Pool.mem_hist he)) hfh
    · simp at he

/-- Every reachable state of the NFS system: every `nfs_file_cache` entry is valid with valid
data, `data_size = attr.size ≤ MAX_NFS_DATA_SIZE`, and every handle `fh_to_name` maps to a name
`n` is the `fh` of the entry cached under `n`. -/
theorem nfsCaches_wellFormed {cfg : NfsConfig} {env : NfsServer.Env} {clock wall : Nat}
    {s : Pool NfsAct NfsAct.Res NfsState}
    (h : (nfsSystem cfg env).Reachable (NfsState.init clock wall) s) :
    (∀ n i e, s.maps.fileCache.lookup n = some (i, e) →
      e.valid = 1 ∧ e.dataValid = 1 ∧ e.dataSize = e.attr.size ∧ e.attr.size ≤ maxNfsDataSize) ∧
    ∀ fh n, s.maps.fhToName.get fh = some n →
      ∃ i e, s.maps.fileCache.lookup n = some (i, e) ∧ e.fh = fh := by
  have hI := nfsCacheInv_reachable h
  refine ⟨fun n i e he => ?_, fun fh n hn => ?_⟩
  · have := hI.entries n i e he
    exact ⟨this.valid, this.dataValid, this.dataSize, this.size_le⟩
  · obtain ⟨hs, rfl⟩ := hI.names fh n hn
    obtain ⟨⟨i, e⟩, he⟩ := Option.isSome_iff_exists.1 hs
    exact ⟨i, e, he, (hI.entries n i e he).fh⟩

end EbpfNfs
