import EbpfNfs.Hits

/-!
# `nfs_server_tc` never serves from `nfs_file_cache`

`nfs_server_tc` zeroes the handle of the request record it hands to `handle_nfs_getattr` and
`handle_nfs_read` (`nfsRequestOf`), and both look that handle up in `fh_to_name` first. The only
writer of `fh_to_name` is `cache_file_in_kernel`, which installs the handle
`generate_nfs_file_handle` derives, whose length is 8: never the zeroed handle. So over every
interleaving the lookup fails and both handlers forward (`nfsCache_never_served`): no invocation
ever looks up, loads or stores an element of `nfs_file_cache`, every element keeps
`cache_hits = 0`, no committed operation event says `from_cache`, every request record marked
`processed_in_kernel` is a `NULL` call, and the control plane's `cache_hits` statistic stays 0.
The kernel cache the control plane fills is never read.

The programs' part is a monitor (`NfsAct.HandleRule`) whose state is whether a handle has been
found; the maps' part is an invariant of the whole pool (`NfsUnserved`).
-/

namespace EbpfNfs

open Prog

/-- A `fh_to_name` lookup that found a name. -/
def NfsAct.fhFound : Ev NfsAct NfsAct.Res → Bool
  | ⟨.lookupFh _, some _⟩ => true
  | _ => false

/-- The kernel's accesses to an element of `nfs_file_cache`: the lookup, and the load and store
of `cache_hits`. -/
def NfsAct.readsCache : NfsAct → Bool
  | .lookupCache _ | .loadHits _ | .storeHits _ _ => true
  | _ => false

/-- A record that says the cache served a call: an operation event with `from_cache` set, or a
request record marked `processed_in_kernel` that is not a `NULL` call. -/
def NfsRecord.claimsCache : NfsRecord → Bool
  | .event ev => ev.fromCache ≠ 0
  | .request r => r.processedInKernel ≠ 0 && r.procedure ≠ nfsproc3Null

/-- The rule the NFS programs keep, with the monitor state whether a handle has been found:
every `fh_to_name` lookup is of the zeroed handle and every `fh_to_name` update installs another
one; an element of `nfs_file_cache` is read, or a record committed that says the cache served,
only after a handle was found; an element is installed with `cache_hits = 0`. -/
def NfsAct.HandleRule (found : Bool) (e : Ev NfsAct NfsAct.Res) : Prop :=
  (∀ fh, e.1 = .lookupFh fh → fh = .zero) ∧ (∀ fh k, e.1 = .updateFhName fh k → fh ≠ .zero) ∧
  (e.1.readsCache = true → found = true) ∧ (∀ r, e.1 = .submit r → r.claimsCache = true → found = true) ∧
  NfsAct.FreshHits e.1

/-- The state of `NfsAct.HandleRule` after the event `e`. -/
def foundNext (found : Bool) (e : Ev NfsAct NfsAct.Res) : Bool := found || NfsAct.fhFound e

/-- What the NFS maps and log keep: `fh_to_name` has no zeroed handle, no event of the log found a
handle or read the cache, every element has `cache_hits = 0`, no committed record says the cache
served, and the control plane counted no hit. -/
def NfsUnserved (s : NfsState) (log : List (Nat × Ev NfsAct NfsAct.Res)) : Prop :=
  s.fhToName.get .zero = none ∧
  (∀ x ∈ log, NfsAct.fhFound x.2 = false ∧ x.2.1.readsCache = false) ∧
  (∀ i e, s.fileCache.heap i = some e → e.cacheHits = 0) ∧
  (∀ x ∈ s.events, x.2.claimsCache = false) ∧
  s.user.cacheHits = 0

theorem foldl_foundNext (l : List (Ev NfsAct NfsAct.Res)) (b : Bool) :
    l.foldl foundNext b = (b || l.any NfsAct.fhFound) := by
  induction l generalizing b with
  | nil => simp
  | cons e l ih => simp [foundNext, ih, Bool.or_assoc]

/-- A handle `cache_file_in_kernel` installs is never the zeroed one. -/
theorem generateNfsFileHandle_ne_zero (filename : List UInt8) :
    NfsServer.generateNfsFileHandle filename ≠ NfsFh.zero := by
  simp [NfsServer.generateNfsFileHandle, NfsFh.zero]

/-- `handle_event` counts a hit only for an event that says `from_cache`. -/
theorem nfsHandleEvent_cacheHits (st : NfsUserStats) {r : NfsRecord} (hr : r.claimsCache = false) :
    (nfsHandleEvent st r).cacheHits = st.cacheHits := by
  cases r with
  | request => rfl
  | event ev =>
    simp only [NfsRecord.claimsCache, decide_eq_false_iff_not, not_not] at hr
    simp only [nfsHandleEvent, hr, ne_eq, not_true_eq_false, if_false]
    split_ifs <;> rfl

/-! ## The maps -/

/-- One action that the rule allows, taken by an invocation that has found no handle, keeps the
invariant. -/
theorem NfsUnserved.step {s : NfsState} {log : List (Nat × Ev NfsAct NfsAct.Res)} {t : Nat}
    {a : NfsAct} (hI : NfsUnserved s log) (ha : NfsAct.HandleRule false ⟨a, (NfsAct.exec t a s).1⟩) :
    NfsUnserved (NfsAct.exec t a s).2 (log ++ [(t, ⟨a, (NfsAct.exec t a s).1⟩)]) := by
  obtain ⟨hfh, hlog, hhits, hev, hcnt⟩ := hI
  obtain ⟨hlook, hupd, hread, hsub, hfresh⟩ := ha
  have hread' : a.readsCache = false := by simpa using mt hread
  -- the new event found no handle and read no element
  have hnew : NfsAct.fhFound ⟨a, (NfsAct.exec t a s).1⟩ = false := by
    cases a with
    | lookupFh fh => simp [hlook fh rfl, NfsAct.exec, NfsAct.fhFound, hfh]
    | _ => rfl
  have hlog' : ∀ x ∈ log ++ [(t, ⟨a, (NfsAct.exec t a s).1⟩)],
      NfsAct.fhFound x.2 = false ∧ x.2.1.readsCache = false := by
    simp only [List.mem_append, List.mem_singleton]
    rintro x (hx | rfl)
    · exact hlog x hx
    · exact ⟨hnew, hread'⟩
  cases a with
  | lookupCache | loadHits | storeHits => simp [NfsAct.readsCache] at hread'
  | updateFhName fh k =>
    refine ⟨?_, hlog', hhits, hev, hcnt⟩
    simp only [NfsAct.exec, updateStatus]
    split
    · exact hfh
    · next m' hu => rw [BpfHash.update_get hu, if_neg (hupd fh k rfl).symm, hfh]
  | updateCache k e =>
    refine ⟨hfh, hlog', fun i e' he' => ?_, hev, hcnt⟩
    simp only [NfsAct.exec, updateStatus] at he'
    split at he'
    · exact hhits i e' he'
    · next m' hu =>
      rw [BpfHash.update_heap hu] at he'
      split_ifs at he'
      · cases he'; exact hfresh
      · exact hhits i e' he'
  | submit r =>
    refine ⟨hfh, hlog', hhits, fun x hx => ?_, hcnt⟩
    simp only [NfsAct.exec, List.mem_append, List.mem_singleton] at hx
    rcases hx with hx | rfl
    · exact hev x hx
    · simpa using mt (hsub r rfl)
  | consume =>
    simp only [NfsAct.exec]
    split
    · exact ⟨hfh, hlog', hhits, hev, hcnt⟩
    · next x r hr =>
      refine ⟨hfh, hlog', hhits, hev, ?_⟩
      obtain ⟨hlt, hx⟩ := List.getElem?_eq_some_iff.1 hr
      exact (nfsHandleEvent_cacheHits _ (hev _ (hx ▸ List.getElem_mem hlt))).trans hcnt
  | _ => exact ⟨hfh, hlog', hhits, hev, hcnt⟩

/-! ## The programs -/

section Programs

variable {q : Bool}

attribute [local simp] NfsAct.HandleRule foundNext NfsAct.fhFound NfsAct.readsCache
  NfsRecord.claimsCache NfsAct.FreshHits

theorem handleNfsGetattr_handleRule (cfg : NfsConfig) {req : NfsRequest} {ev : NfsEvent}
    (junk : List UInt8) (hfh : req.fh = .zero) (hev : ev.fromCache = 0) :
    Monitored NfsAct.HandleRule foundNext (fun q r => r.1 ≠ 0 ∨ r.2.fromCache ≠ 0 → q = true) q
      (handleNfsGetattr cfg req ev junk) := by
  simp [handleNfsGetattr, bumpHits, NfsProg.statAdd, monitored_ite, NfsEvent.forward, hfh, hev]

theorem handleNfsRead_handleRule {req : NfsRequest} {ev : NfsEvent} (junk : List UInt8)
    (hfh : req.fh = .zero) (hev : ev.fromCache = 0) :
    Monitored NfsAct.HandleRule foundNext (fun q r => r.1 ≠ 0 ∨ r.2.fromCache ≠ 0 → q = true) q
      (handleNfsRead req ev junk) := by
  simp [handleNfsRead, bumpHits, NfsProg.statAdd, monitored_ite, NfsEvent.forward, hfh, hev]

/-- The switch of `nfs_server_tc` reports a hit, or returns 1 for a call other than `NULL`, only
after it has found a handle. -/
theorem nfsDispatch_handleRule (cfg : NfsConfig) (rpc : RpcHeader) {req : NfsRequest}
    {ev : NfsEvent} (junk : List UInt8) (hfh : req.fh = .zero) (hev : ev.fromCache = 0) :
    Monitored NfsAct.HandleRule foundNext
      (fun q r => (r.2.fromCache ≠ 0 → q = true) ∧ (r.1 ≠ 0 → rpc.procedure ≠ nfsproc3Null → q = true))
      q (nfsDispatch cfg rpc req ev junk) := by
  unfold nfsDispatch
  split_ifs with h0 h1 h2 h3
  · simp [hev]
  · simp [NfsProg.statAdd, h1]
  · exact (handleNfsGetattr_handleRule cfg junk hfh hev).mono fun _ _ h =>
      ⟨fun h' => h (.inr h'), fun h' _ => h (.inl h')⟩
  · exact (handleNfsRead_handleRule junk hfh hev).mono fun _ _ h =>
      ⟨fun h' => h (.inr h'), fun h' _ => h (.inl h')⟩
  · simp [NfsEvent.forward, hev]

theorem bumpClient_handleRule (ptr : Option Nat) (c : ClientCounter) :
    Monitored NfsAct.HandleRule foundNext (fun q' _ => q' = q) q (bumpClient ptr c) := by
  cases ptr <;> simp [bumpClient]

theorem nfsServe_handleRule (cfg : NfsConfig) (v : NfsFrame) (rpc : RpcHeader) (junk : List UInt8)
    (ptr : Option Nat) :
    Monitored NfsAct.HandleRule foundNext (fun _ _ => True) q (nfsServe cfg v rpc junk ptr) := by
  simp only [nfsServe, NfsProg.reserve, NfsProg.ktime, choose_bind, act_bind, ret_bind,
    monitored_choose, monitored_act, Bool.forall_bool, Bool.not_false, Bool.not_true,
    Bool.false_eq_true, ↓reduceIte, pure_eq, Prog.bind_assoc, monitored_ret, and_true, true_and]
  refine fun ts => ⟨by simp, monitored_bind.2 ((nfsDispatch_handleRule cfg rpc junk rfl rfl).mono
    fun q' r hr => ?_)⟩
  simp only [NfsProg.statAdd, act_bind, ret_bind, monitored_act]
  refine fun _ => ⟨by simp, ?_⟩
  -- the two commits after the client counter: a request record claims the kernel only if `r.1 ≠ 0`
  split_ifs with h1
  · refine monitored_bind.2 ((bumpClient_handleRule ..).mono fun _ _ hq => ?_)
    simp [hq, NfsProg.submit, nfsRequestOf, h1]
    exact ⟨hr.2 h1, hr.1⟩
  · refine monitored_bind.2 ((bumpClient_handleRule ..).mono fun _ _ hq => ?_)
    simp [hq, NfsProg.submit, NfsProg.statAdd, nfsRequestOf, h1]
    exact hr.1

theorem nfsServerTc_handleRule (cfg : NfsConfig) (f junk : List UInt8) :
    Monitored NfsAct.HandleRule foundNext (fun _ _ => True) q (nfsServerTc cfg f junk) := by
  unfold nfsServerTc
  rcases nfsCall f with _ | ⟨v, rpc⟩
  · trivial
  · exact monitored_bind.2 ((by simp [trackClient, bumpClient] : Monitored NfsAct.HandleRule
      foundNext (fun _ _ => True) q (trackClient v.clientIp)).mono
        fun _ ptr _ => nfsServe_handleRule cfg v rpc junk ptr)

/-- Every program of the NFS system keeps the rule. -/
theorem nfsSystem_handleRule (cfg : NfsConfig) (env : NfsServer.Env) :
    ∀ i, Monitored NfsAct.HandleRule foundNext (fun _ _ => True) false ((nfsSystem cfg env).prog i)
  | .tc f junk => monitored_bind.2 ((nfsServerTc_handleRule cfg f junk).mono fun _ _ _ => trivial)
  | .xdp f => by simp [nfsSystem, monitored_bind, nfsServerXdp, NfsProg.statAdd, monitored_ite]
  | .openat => by simp [nfsSystem, monitored_bind, traceOpenat, NfsProg.statAdd, monitored_ite]
  | .refresh fs n => by
    rcases NfsServer.cacheFileInKernel_cases env fs n with
      ⟨-, h⟩ | h | ⟨st, data, -, -, -, -, -, -, -, h⟩
    all_goals simp [nfsSystem, monitored_bind, h, monitored_ite, NfsServer.cacheEntry,
      generateNfsFileHandle_ne_zero]
  | .poll => by simp [nfsSystem, NfsServer.pollEvent]

end Programs

/-! ## Every interleaving -/

/-- Over every interleaving of the NFS server's invocations: `fh_to_name` holds no zeroed handle;
no invocation looks up, loads or stores an element of `nfs_file_cache`; every element keeps
`cache_hits = 0`; no committed operation event says `from_cache`; every request record marked
`processed_in_kernel` is a `NULL` call; and the control plane's `cache_hits` statistic is 0. -/
theorem nfsCache_never_served {cfg : NfsConfig} {env : NfsServer.Env} {clock wall : Nat}
    {s : Pool NfsAct NfsAct.Res NfsState}
    (h : (nfsSystem cfg env).Reachable (NfsState.init clock wall) s) :
    s.maps.fhToName.get NfsFh.zero = none ∧ (∀ x ∈ s.log, x.2.1.readsCache = false) ∧
      (∀ i e, s.maps.fileCache.heap i = some e → e.cacheHits = 0) ∧
      (∀ t ev, (t, NfsRecord.event ev) ∈ s.maps.events → ev.fromCache = 0) ∧
      (∀ t req, (t, NfsRecord.request req) ∈ s.maps.events → req.processedInKernel ≠ 0 →
        req.procedure = nfsproc3Null) ∧
      s.maps.user.cacheHits = 0 := by
  have hI : NfsUnserved s.maps s.log := by
    refine (nfsSystem cfg env).inv_reachable (fun i => (nfsSystem_handleRule cfg env i).paths trivial)
      NfsUnserved (show NfsUnserved (NfsState.init clock wall) [] from ⟨rfl, by simp,
        fun _ _ h => by simp [NfsState.init, BpfHash.empty] at h, by simp [NfsState.init], rfl⟩) (fun s t a _ hI _ hP => ?_)
      (fun _ _ _ hI => hI) h
    simp only [monitor_append, Monitor, foldl_foundNext, Bool.false_or, and_true] at hP
    have hany : (s.hist t).any NfsAct.fhFound = false :=
      List.any_eq_false.2 fun e he => by simpa using (hI.2.1 _ (Pool.mem_hist he)).1
    exact hI.step (hany ▸ hP.2)
  obtain ⟨hfh, hlog, hhits, hev, hcnt⟩ := hI
  refine ⟨hfh, fun x hx => (hlog x hx).2, hhits, fun t ev hx => ?_, fun t req hx hk => ?_, hcnt⟩
  · simpa [NfsRecord.claimsCache] using hev _ hx
  · simpa [NfsRecord.claimsCache, hk] using hev _ hx

/-- `nullCallFrame` with procedure `GETATTR`. -/
def getattrCallFrame : List UInt8 := nullCallFrame.set 65 1

/-- The control plane refreshes `test.txt`; then a `GETATTR` call runs to its end, and the control
plane polls the ring twice. -/
def nfsGetattrRun : Pool NfsAct NfsAct.Res NfsState :=
  nfsTestSystem.run (Pool.start (NfsState.init 0 0))
    ([.spawn (.refresh testFs (nameKey (ascii "test.txt")))] ++ List.replicate 4 (.step 0 true) ++
      [.spawn (.tc getattrCallFrame [])] ++ List.replicate 12 (.step 1 true) ++
      [.spawn .poll] ++ List.replicate 2 (.step 2 true) ++
      [.spawn .poll] ++ List.replicate 2 (.step 3 true))

set_option maxRecDepth 8000 in
/-- After `test.txt` is cached, a `GETATTR` call commits its request record, and the control
plane still counts no cache hit. -/
theorem nfsCache_never_served_getattr :
    (nfsGetattrRun.maps.fileCache.lookup (nameKey (ascii "test.txt"))).isSome ∧
      (nfsGetattrRun.maps.events.map fun x => x.2).length = 2 ∧
      (∀ t req, (t, NfsRecord.request req) ∈ nfsGetattrRun.maps.events →
        req.processedInKernel ≠ 0 → req.procedure = nfsproc3Null) ∧
      nfsGetattrRun.maps.user.cacheHits = 0 :=
  have hr : (nfsSystem ⟨1, 1024, 60⟩ ⟨ascii "/srv", true⟩).Reachable (NfsState.init 0 0)
      nfsGetattrRun := ⟨_, rfl⟩
  ⟨by decide, by decide, (nfsCache_never_served hr).2.2.2.2.1, (nfsCache_never_served hr).2.2.2.2.2⟩

end EbpfNfs
