import EbpfNfs.Servers

/-!
# The TTL check of `handle_nfs_getattr` and the two clocks

`cache_file_in_kernel` of `nfs_server.c` stamps the entry it installs with
`time(NULL) * 1000000000ULL`, nanoseconds since the epoch (part_002:200), and
`handle_nfs_getattr` takes the entry's age to be `bpf_ktime_get_ns() - cache_time` in `__u64`,
with the kernel clock counting nanoseconds since boot (test_nfs_server.sh:476-477). While the
machine has been up for less time than has passed since the epoch, the subtraction wraps and the
age exceeds any TTL that fits the stamp in `__u64`: the handler forwards the request, so an entry
the control plane has just refreshed is never served by `GETATTR`, however fresh it is
(`getattr_forwards_after_refresh`).

The handler also looks the name up with the whole 256-byte stack buffer it copied the name into,
and the copy stops at the name's NUL: the bytes after it are whatever the stack held
(`handlerFilename_nameKey`), so the lookup finds the entry only when they are zero
(`handlerFilename_eq_nameKey_iff`).
-/

namespace EbpfNfs

open Prog

/-! ## The lookup key of the handlers -/

/-- The copy loop copies a NUL-terminated name and leaves the rest of the buffer as it was. -/
theorem copyName_append_zero {x : List UInt8} (hx : ∀ b ∈ x, b ≠ 0) (rest : List UInt8) :
    ∀ {n : Nat} {junk : List UInt8}, x.length < n → x.length < junk.length →
      copyName n (x ++ 0 :: rest) junk = x ++ 0 :: junk.drop (x.length + 1) := by
  induction x with
  | nil =>
    rintro (_ | n) (_ | ⟨j, junk⟩) hn hj
    all_goals simp_all [copyName]
  | cons b x ih =>
    rintro (_ | n) (_ | ⟨j, junk⟩) hn hj
    all_goals simp only [List.length_cons, List.length_nil] at hn hj
    all_goals try omega
    have hb : b ≠ 0 := hx b (List.mem_cons_self b x)
    rw [List.cons_append, copyName, if_neg hb, ih (fun c hc => hx c (List.mem_cons_of_mem b hc))
      (by omega) (by omega)]
    rfl

/-- The buffer a handler looks up for a name of fewer than 255 bytes: the name, its NUL, the
bytes the stack held up to the last one, and the NUL the handler writes there. -/
theorem handlerFilename_nameKey {x junk : List UInt8} (hx : ∀ b ∈ x, b ≠ 0)
    (hl : x.length < 255) (hj : junk.length = maxFilenameLen) :
    handlerFilename (nameKey x) junk =
      x ++ 0 :: ((junk.drop (x.length + 1)).take (254 - x.length) ++ [0]) := by
  have hpad : nameKey x = x ++ 0 :: List.replicate (255 - x.length) 0 := by
    rw [nameKey, zeroPad, List.take_of_length_le (by simp only [maxFilenameLen]; omega),
      show maxFilenameLen - x.length = 255 - x.length + 1 by simp only [maxFilenameLen]; omega,
      List.replicate_succ]
  have ht : (junk.drop (x.length + 1)).length = 254 - x.length + 1 := by
    simp only [List.length_drop, hj, maxFilenameLen]; omega
  rw [handlerFilename, hpad, copyName_append_zero hx _ hl (by simp only [hj, maxFilenameLen]; omega),
    List.set_append_right _ _ (by omega), show 255 - x.length = 254 - x.length + 1 by omega,
    List.set_cons_succ, List.set_eq_take_cons_drop _ (by omega),
    List.drop_eq_nil_of_le (show (junk.drop (x.length + 1)).length ≤ 254 - x.length + 1 by omega)]

/-- A handler's lookup finds the name's key exactly when the stack held zeros after the name's
NUL. -/
theorem handlerFilename_eq_nameKey_iff {x junk : List UInt8} (hx : ∀ b ∈ x, b ≠ 0)
    (hl : x.length < 255) (hj : junk.length = maxFilenameLen) :
    handlerFilename (nameKey x) junk = nameKey x ↔
      ∀ b ∈ (junk.drop (x.length + 1)).take (254 - x.length), b = 0 := by
  have hpad : nameKey x = x ++ 0 :: (List.replicate (254 - x.length) 0 ++ [0]) := by
    rw [nameKey, zeroPad, List.take_of_length_le (by simp only [maxFilenameLen]; omega),
      show maxFilenameLen - x.length = 254 - x.length + 1 + 1 by simp only [maxFilenameLen]; omega,
      List.replicate_succ, List.replicate_succ']
  have htake : ((junk.drop (x.length + 1)).take (254 - x.length)).length = 254 - x.length := by
    simp only [List.length_take, List.length_drop, hj, maxFilenameLen]; omega
  rw [handlerFilename_nameKey hx hl hj, hpad, List.append_cancel_left_eq, List.cons.injEq,
    List.append_cancel_right_eq, List.eq_replicate_iff]
  simp [htake]

/-! ## The handler at an entry -/

section Getattr

variable (cfg : NfsConfig) {req : NfsRequest} (ev : NfsEvent) (junk : List UInt8)
  (o : List Bool) {s : NfsState} {n : List UInt8} {i : Nat} {e : NfsFileCacheEntry}

/-- `handle_nfs_getattr` at a handle that names `n`, whose buffer finds an entry that is invalid
or older than the TTL by the kernel clock, forwards the request and changes nothing. -/
theorem handleNfsGetattr_stale (hfh : s.fhToName.get req.fh = some n)
    (hc : s.fileCache.lookup (handlerFilename n junk) = some (i, e))
    (he : e.valid = 0 ∨ ttlNs cfg < subU64 s.clock e.cacheTime) :
    (handleNfsGetattr cfg req ev junk).runAlone o s =
      ((0, { ev.forward with filename := handlerFilename n junk }), o, s) := by
  simp only [NfsProg.runAlone, handleNfsGetattr, run_act, NfsAct.exec, hfh, hc]
  rcases he with he | he
  · simp [he]
  · split_ifs <;> simp [he, NfsAct.exec]

/-- `handle_nfs_getattr` at a handle that names `n`, whose buffer finds a valid entry no older
than the TTL by the kernel clock, serves the attributes from the entry and counts the hit. -/
theorem handleNfsGetattr_fresh (hfh : s.fhToName.get req.fh = some n)
    (hc : s.fileCache.lookup (handlerFilename n junk) = some (i, e)) (hv : e.valid ≠ 0)
    (he : subU64 s.clock e.cacheTime ≤ ttlNs cfg) :
    ((handleNfsGetattr cfg req ev junk).runAlone o s).1 =
      (1, { ev with result := nfsOpSuccess, forwardedToUser := 0, fromCache := 1,
                    fileSize := e.attr.size % 2 ^ 32, filename := handlerFilename n junk }) := by
  simp [NfsProg.runAlone, handleNfsGetattr, NfsAct.exec, hfh, hc, hv, not_lt.2 he, bumpHits,
    NfsProg.statAdd, run_bind]

end Getattr

/-! ## A refresh and the clocks -/

/-- No operation moves either clock. -/
theorem NfsAct.exec_clocks (tid : Nat) (a : NfsAct) (s : NfsState) :
    (NfsAct.exec tid a s).2.clock = s.clock ∧ (NfsAct.exec tid a s).2.wall = s.wall := by
  cases a <;> simp only [NfsAct.exec, and_self]
  case consume => split <;> exact ⟨rfl, rfl⟩

/-- A program run alone leaves both clocks where they were. -/
theorem NfsProg.runAlone_clocks {α : Type} (p : NfsProg α) (o : List Bool) (s : NfsState) :
    (p.runAlone o s).2.2.clock = s.clock ∧ (p.runAlone o s).2.2.wall = s.wall := by
  induction p generalizing o s with
  | ret x => exact ⟨rfl, rfl⟩
  | act a k ih =>
    obtain ⟨h1, h2⟩ := NfsAct.exec_clocks 0 a s
    exact ⟨(ih _ _ _).1.trans h1, (ih _ _ _).2.trans h2⟩
  | choose k ih => exact ih _ _ _

/-- A refresh that returns `0` with kernel caching on has installed, under the name, the entry
`cacheEntry` builds at the wall-clock second of the refresh, and under the name's handle the
name. -/
theorem cacheFileInKernel_installs {env : NfsServer.Env} {fs : FileSys} {n : List UInt8}
    {o : List Bool} {s : NfsState} (hon : env.enableKernelCache = true)
    (hr : ((NfsServer.cacheFileInKernel env fs n).runAlone o s).1 = 0) :
    ∃ st data i,
      ((NfsServer.cacheFileInKernel env fs n).runAlone o s).2.2.fileCache.lookup n =
        some (i, NfsServer.cacheEntry n st data s.wall) ∧
      ((NfsServer.cacheFileInKernel env fs n).runAlone o s).2.2.fhToName.get
        (NfsServer.generateNfsFileHandle n) = some n := by
  rcases NfsServer.cacheFileInKernel_cases env fs n with
    ⟨hoff, -⟩ | h | ⟨st, data, -, -, -, -, -, -, -, h⟩
  · simp [hon] at hoff
  · rw [h] at hr; cases hr
  rw [h] at hr ⊢
  refine ⟨st, data, s.fileCache.next, ?_⟩
  simp only [NfsProg.runAlone, run_act, NfsAct.exec, Bool.not_eq_true', pure_eq] at hr ⊢
  split_ifs at hr ⊢ with h1 <;> try simp at hr
  simp only [NfsAct.exec] at hr ⊢
  split_ifs at hr ⊢ with h2 <;> try simp at hr
  simp_all [NfsAct.exec, BpfHash.get, updateStatus_lookup]

/-- For every boot moment at which the machine has been up for less time than has passed since
the epoch (and the stamp plus the TTL fits in `__u64`), a `GETATTR` whose handle names a file
the control plane has just refreshed is forwarded, at any time after the refresh, and changes
nothing. -/
theorem getattr_forwards_after_refresh {cfg : NfsConfig} {env : NfsServer.Env} {fs : FileSys}
    {n : List UInt8} {o : List Bool} {s : NfsState} {req : NfsRequest} (ev : NfsEvent)
    {junk : List UInt8} (dk dw : Nat) (o' : List Bool) (hon : env.enableKernelCache = true)
    (hr : ((NfsServer.cacheFileInKernel env fs n).runAlone o s).1 = 0)
    (hfh : req.fh = NfsServer.generateNfsFileHandle n) (hkey : handlerFilename n junk = n)
    (hboot : s.clock + dk < s.wall * 1000000000)
    (hwrap : s.wall * 1000000000 + ttlNs cfg < 2 ^ 64) :
    let s' := ((NfsServer.cacheFileInKernel env fs n).runAlone o s).2.2
    (handleNfsGetattr cfg req ev junk).runAlone o'
        { s' with clock := s'.clock + dk, wall := s'.wall + dw } =
      ((0, { ev.forward with filename := n }), o',
        { s' with clock := s'.clock + dk, wall := s'.wall + dw }) := by
  intro s'
  obtain ⟨st, data, i, hc, hn⟩ := cacheFileInKernel_installs hon hr
  obtain ⟨hclock, -⟩ := NfsProg.runAlone_clocks (NfsServer.cacheFileInKernel env fs n) o s
  have hstale : ttlNs cfg < subU64 (s'.clock + dk) (NfsServer.cacheEntry n st data s.wall).cacheTime := by
    have h64 : s.wall * 1000000000 < 2 ^ 64 := by omega
    rw [show s'.clock = s.clock from hclock]
    simp only [NfsServer.cacheEntry, subU64, Nat.mod_eq_of_lt h64]
    rw [Nat.mod_eq_of_lt (by omega)]
    omega
  let s'' : NfsState := { s' with clock := s'.clock + dk, wall := s'.wall + dw }
  have hn' : s''.fhToName.get req.fh = some n := hfh ▸ hn
  have hc' : s''.fileCache.lookup (handlerFilename n junk) =
      some (i, NfsServer.cacheEntry n st data s.wall) := by rw [hkey]; exact hc
  have := handleNfsGetattr_stale cfg ev junk o' hn' hc' (.inr hstale)
  rwa [hkey] at this

set_option maxRecDepth 8000 in
/-- Ten seconds after boot, at second 1767225600 of the epoch, the control plane refreshes
`test.txt`; one second later a `GETATTR` for its handle, with a zeroed stack buffer, is
forwarded to the control plane. -/
theorem getattr_forwards_fresh_test_txt (ev : NfsEvent) :
    let env : NfsServer.Env := ⟨ascii "/srv", true⟩
    let s := ((NfsServer.cacheFileInKernel env testFs (nameKey (ascii "test.txt"))).runAlone []
      (NfsState.init 10000000000 1767225600)).2.2
    let req : NfsRequest :=
      { clientAddr := 0x0a000001, clientPort := 1000, xid := 7, procedure := nfsproc3Getattr,
        processedInKernel := 0, offset := 0, count := 0,
        fh := NfsServer.generateNfsFileHandle (nameKey (ascii "test.txt")) }
    ((handleNfsGetattr ⟨1, 1024, 60⟩ req ev (List.replicate 256 0)).runAlone []
        { s with clock := s.clock + 1000000000, wall := s.wall + 1 }).1 =
      (0, { ev.forward with filename := nameKey (ascii "test.txt") }) :=
  congrArg Prod.fst (getattr_forwards_after_refresh ev 1000000000 1 [] rfl (by decide) rfl
    (by decide) (by decide) (by decide))

end EbpfNfs
