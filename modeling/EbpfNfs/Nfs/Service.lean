import EbpfNfs.Replies

/-!
# The NFS control plane's request loop

The loop of `main` in `nfs_server.c` takes, turn after turn, a ring record to `handle_event` or a
datagram from `recvfrom` to `process_nfs_request` (`NfsServer.serverLoop`). `process_nfs_request`
checks the RPC header, counts the call in `total_requests` and answers `GETATTR` and `READ`
(`NfsServer.processNfsRequest`); the words it sends are read back with `xdr_decode_u32`, which is
`be32`, so a word reads back modulo `2 ^ 32` (`be32_xdrWords`).

Over every run of the loop, the datagrams it sends are one reply to each `GETATTR` or `READ` call
it received, in the order of the calls, each opening with the accepted-reply header of its call's
`xid` (`serverLoop_replies`); `total_requests` counts every call whose header checks, answered or
not (`serverLoop_totalRequests`). The attributes a `GETATTR` reply carries read back, field for field,
as the attributes `cache_file_in_kernel` stores in `nfs_file_cache` for the same file
(`getattrReply_attr`): the two planes agree on the attributes they answer with.
-/

namespace EbpfNfs

namespace NfsServer

/-! ## Reading XDR words back -/

theorem natToUInt8_toNat (n : Nat) : n.toUInt8.toNat = n % 256 := rfl

theorem byteAt_append (p l : List UInt8) (i : Nat) : byteAt (p ++ l) (p.length + i) = byteAt l i := by
  simp [byteAt, List.getD_eq_getElem?_getD, List.getElem?_append_right]

theorem be32_append (p l : List UInt8) (i : Nat) : be32 (p ++ l) (p.length + i) = be32 l i := by
  simp only [be32, be16, Nat.add_assoc, byteAt_append]

/-- `xdr_decode_u32` of the bytes `xdr_encode_u32` wrote: the word modulo `2 ^ 32`. -/
theorem be32_xdrU32 (x : Nat) (rest : List UInt8) : be32 (xdrU32 x ++ rest) 0 = x % 2 ^ 32 := by
  simp only [be32, be16, byteAt, xdrU32, List.cons_append, List.getD_cons_zero, List.getD_cons_succ,
    natToUInt8_toNat]
  omega

/-- Word `k` of an XDR sequence reads back as the `k`-th word written, modulo `2 ^ 32`. -/
theorem be32_xdrWords (ws : List Nat) (rest : List UInt8) {k : Nat} (hk : k < ws.length) :
    be32 (xdrWords ws ++ rest) (4 * k) = ws[k] % 2 ^ 32 := by
  induction ws generalizing k with
  | nil => simp at hk
  | cons w ws ih =>
    cases k with
    | zero => simpa [xdrWords, List.append_assoc] using be32_xdrU32 w (xdrWords ws ++ rest)
    | succ k =>
      have h := be32_append (xdrU32 w) (xdrWords ws ++ rest) (4 * k)
      simp only [xdrU32_length] at h
      rw [show 4 * (k + 1) = 4 + 4 * k by omega, List.getElem_cons_succ]
      simp only [xdrWords, List.flatMap_cons, List.append_assoc] at h ih ⊢
      rw [h]
      exact ih (by simpa using hk)

/-- `xdr_encode_u64` is the high word and then the low word. -/
theorem xdrU64_eq (x : Nat) : xdrU64 x = xdrWords [x / 2 ^ 32, x] := by
  simp [xdrU64, xdrWords]

/-! ## `process_nfs_request` and the loop of `main` -/

/-- `process_nfs_request(sock, addr, buffer, len)`: the datagram it sends, if any, and the
statistics after it. `response` is what the stack holds where `handle_nfs_read` puts its
`response` buffer; `EbpfNfs.processNfsRequest` is the header check it starts with.
Reference: part_002:325. -/
def processNfsRequest (env : Env) (fs : FileSys) (buffer : List UInt8) (len : Nat)
    (response : List UInt8) (st : NfsUserStats) : Option (List UInt8) × NfsUserStats :=
  match EbpfNfs.processNfsRequest buffer len with
  | none => (none, st)
  | some (xid, proc) =>
    let st := { st with totalRequests := (st.totalRequests + 1) % 2 ^ 64 }
    if proc = nfsproc3Getattr then
      let r := handleNfsGetattr env fs xid st
      (some r.1, r.2)
    else if proc = nfsproc3Read then
      let r := handleNfsRead env fs xid response st
      (some r.1, r.2)
    else (none, st)

/-- What one turn of the loop of `main` takes: a record `ring_buffer__poll` hands to
`handle_event`, or a datagram `recvfrom` returns, with the file tree as the call finds it and
what the stack holds under `handle_nfs_read`'s `response`. -/
inductive LoopInput where
  | record (r : NfsRecord)
  | datagram (fs : FileSys) (p stack : List UInt8)

/-- One turn of the loop: the datagram sent, if any, and the statistics after it. A datagram
is handed on when `recvfrom` returned a positive length. Reference: part_002:531-554. -/
def loopStep (env : Env) (st : NfsUserStats) : LoopInput → Option (List UInt8) × NfsUserStats
  | .record r => (none, nfsHandleEvent st r)
  | .datagram fs p stack =>
    if 0 < (recvNfs p).2 then processNfsRequest env fs (recvNfs p).1 (recvNfs p).2 stack st
    else (none, st)

/-- The loop of `main` over its turns: the datagrams sent, in order, and the statistics. -/
def serverLoop (env : Env) : NfsUserStats → List LoopInput → List (List UInt8) × NfsUserStats
  | st, [] => ([], st)
  | st, i :: is =>
    ((loopStep env st i).1.toList ++ (serverLoop env (loopStep env st i).2 is).1,
      (serverLoop env (loopStep env st i).2 is).2)

/-- The `xid` of a datagram that gets an answer, read off its bytes: an NFS v3 call of at least
24 bytes whose procedure is `GETATTR` or `READ`. -/
def answeredXid (p : List UInt8) : Option Nat :=
  if 24 ≤ p.length ∧ be32 p 4 = 0 ∧ be32 p 8 = 2 ∧ be32 p 12 = rpcProgramNfs ∧
      be32 p 16 = nfsVersion3 ∧ (be32 p 20 = nfsproc3Getattr ∨ be32 p 20 = nfsproc3Read)
  then some (be32 p 0) else none

/-- The calls of a run that get an answer, in order. -/
def LoopInput.answered : LoopInput → Option Nat
  | .record _ => none
  | .datagram _ p _ => answeredXid p

/-! ## The replies -/

/-- A store at or past `n` leaves the first `n` bytes of the buffer. -/
theorem storeBytes_take_of_le (b bs : List UInt8) {off n : Nat} (hn : n ≤ off) (hb : n ≤ b.length) :
    (storeBytes b off bs).take n = b.take n := by
  rw [storeBytes, List.append_assoc, List.take_append_of_le_length (by simp; omega), List.take_take,
    min_eq_left hn]

theorem le_storeBytes_length (b bs : List UInt8) (off : Nat) {n : Nat} (hb : n ≤ b.length) :
    n ≤ (storeBytes b off bs).length := by
  simp [storeBytes]; omega

/-- Both handlers open their reply with the accepted-reply header of the call's `xid`. -/
theorem handleNfsGetattr_header (env : Env) (fs : FileSys) (xid : Nat) (st : NfsUserStats) :
    (handleNfsGetattr env fs xid st).1.take 24 = xdrWords (rpcReplyHeader xid) := by
  unfold handleNfsGetattr
  split <;> simp [List.take_append_eq_append_take, rpcReplyHeader]

theorem handleNfsRead_header (env : Env) (fs : FileSys) (xid : Nat) (response : List UInt8)
    (st : NfsUserStats) :
    (handleNfsRead env fs xid response st).1.take 24 = xdrWords (rpcReplyHeader xid) := by
  -- the buffer after the header opens with it, and so does every store past it
  have hH : (xdrWords (rpcReplyHeader xid)).length = 24 := by simp [rpcReplyHeader]
  have h0 : (storeBytes response 0 (xdrWords (rpcReplyHeader xid))).take 24 =
      xdrWords (rpcReplyHeader xid) := by
    simp [storeBytes, List.take_append_eq_append_take, hH]
  have hl0 : 24 ≤ (storeBytes response 0 (xdrWords (rpcReplyHeader xid))).length := by
    simp [storeBytes, hH]
  have hout : ∀ (b bs : List UInt8) (n : Nat), 24 ≤ n → 24 ≤ b.length →
      b.take 24 = xdrWords (rpcReplyHeader xid) →
      ((storeBytes b 24 bs).take n).take 24 = xdrWords (rpcReplyHeader xid) := fun b bs n hn hb h => by
    rw [List.take_take, min_eq_left hn, storeBytes_take_of_le _ _ le_rfl hb, h]
  unfold handleNfsRead
  split
  · exact hout _ _ _ (by omega) hl0 h0
  · split
    · exact hout _ _ _ (by omega) hl0 h0
    · split
      · exact hout _ _ _ (by omega) hl0 h0
      · exact hout _ _ _ (by omega) (le_storeBytes_length _ _ _ hl0)
          ((storeBytes_take_of_le _ _ (by omega) hl0).trans h0)

/-- The header check on what `recvfrom` kept reads the words of the datagram itself. -/
theorem processNfsRequest_recvNfs (p : List UInt8) :
    EbpfNfs.processNfsRequest (recvNfs p).1 (recvNfs p).2 =
      if 24 ≤ p.length ∧ be32 p 4 = 0 ∧ be32 p 8 = 2 ∧ be32 p 12 = rpcProgramNfs ∧
        be32 p 16 = nfsVersion3 then some (be32 p 0, be32 p 20) else none := by
  have hb : ∀ k, k + 4 ≤ 24 → be32 (p.take 4096) k = be32 p k := fun k hk => be32_take (by omega)
  unfold EbpfNfs.processNfsRequest recvNfs
  by_cases hl : 24 ≤ p.length
  · simp only [show ¬ min p.length 4096 < 24 by omega, hb 0 (by omega), hb 4 (by omega),
      hb 8 (by omega), hb 12 (by omega), hb 16 (by omega), hb 20 (by omega), hl, true_and, if_false]
    split_ifs <;> simp_all
  · simp [show min p.length 4096 < 24 by omega, hl]

/-- A turn on a datagram is `process_nfs_request` on what `recvfrom` kept; on an empty one that
returns at once. -/
theorem loopStep_datagram (env : Env) (st : NfsUserStats) (fs : FileSys) (p stack : List UInt8) :
    loopStep env st (.datagram fs p stack) =
      processNfsRequest env fs (recvNfs p).1 (recvNfs p).2 stack st := by
  by_cases h : 0 < (recvNfs p).2
  · simp [loopStep, h]
  · simp [loopStep, h, processNfsRequest, EbpfNfs.processNfsRequest, show (recvNfs p).2 < 24 by omega]

/-- `process_nfs_request` answers exactly the calls `answeredXid` reads off the bytes, and its
answer opens with the accepted-reply header of that call's `xid`. -/
theorem loopStep_reply (env : Env) (st : NfsUserStats) (i : LoopInput) :
    (loopStep env st i).1.map (·.take 24) =
      i.answered.map fun xid => xdrWords (rpcReplyHeader xid) := by
  cases i with
  | record r => rfl
  | datagram fs p stack =>
    rw [loopStep_datagram, LoopInput.answered, answeredXid, processNfsRequest,
      processNfsRequest_recvNfs]
    by_cases hc : 24 ≤ p.length ∧ be32 p 4 = 0 ∧ be32 p 8 = 2 ∧ be32 p 12 = rpcProgramNfs ∧
      be32 p 16 = nfsVersion3
    · simp only [hc, and_self, if_true, true_and]
      by_cases hg : be32 p 20 = nfsproc3Getattr
      · simp [hg, handleNfsGetattr_header]
      · by_cases hr : be32 p 20 = nfsproc3Read
        · rw [if_neg hg, if_pos hr]
          simp [hr, handleNfsRead_header]
        · simp [hg, hr]
    · rw [if_neg hc, if_neg fun h => hc ⟨h.1, h.2.1, h.2.2.1, h.2.2.2.1, h.2.2.2.2.1⟩]
      rfl

/-- Over every run of the loop, the datagrams sent are one reply to each `GETATTR` or `READ`
call received, in the order of the calls, each opening with the accepted-reply header of its
call's `xid`. -/
theorem serverLoop_replies (env : Env) (st : NfsUserStats) (inputs : List LoopInput) :
    (serverLoop env st inputs).1.map (·.take 24) =
      (inputs.filterMap LoopInput.answered).map fun xid => xdrWords (rpcReplyHeader xid) := by
  induction inputs generalizing st with
  | nil => rfl
  | cons i is ih =>
    have h := loopStep_reply env st i
    simp only [serverLoop, List.map_append, ih, List.filterMap_cons]
    cases hi : i.answered <;> cases hr : (loopStep env st i).1 <;> simp_all

/-! ## `total_requests` -/

/-- A turn that `process_nfs_request` counts in `total_requests`: a datagram holding an NFS v3
call of at least 24 bytes, whatever its procedure. -/
def LoopInput.counted : LoopInput → Bool
  | .record _ => false
  | .datagram _ p _ => (EbpfNfs.processNfsRequest (recvNfs p).1 (recvNfs p).2).isSome

/-- The handlers count what they serve in `user_processed`; `total_requests` is counted before
them. -/
theorem handleNfsGetattr_totalRequests (env : Env) (fs : FileSys) (xid : Nat) (st : NfsUserStats) :
    (handleNfsGetattr env fs xid st).2.totalRequests = st.totalRequests := by
  unfold handleNfsGetattr; split <;> rfl

theorem handleNfsRead_totalRequests (env : Env) (fs : FileSys) (xid : Nat) (response : List UInt8)
    (st : NfsUserStats) : (handleNfsRead env fs xid response st).2.totalRequests = st.totalRequests := by
  unfold handleNfsRead; repeat' split
  all_goals rfl

/-- A turn that gets an answer is counted. -/
theorem counted_of_answered (i : LoopInput) (h : i.answered.isSome) : i.counted := by
  cases i with
  | record r => cases h
  | datagram fs p stack =>
    rw [LoopInput.answered, answeredXid] at h
    rw [LoopInput.counted, processNfsRequest_recvNfs]
    split_ifs at h with hc
    · rw [if_pos ⟨hc.1, hc.2.1, hc.2.2.1, hc.2.2.2.1, hc.2.2.2.2.1⟩]; rfl
    · cases h

theorem nfsHandleEvent_totalRequests (st : NfsUserStats) (r : NfsRecord) :
    (nfsHandleEvent st r).totalRequests = st.totalRequests := by
  cases r with
  | request => rfl
  | event e => simp only [nfsHandleEvent]; split_ifs <;> rfl

theorem loopStep_totalRequests (env : Env) (st : NfsUserStats) (i : LoopInput) :
    (loopStep env st i).2.totalRequests =
      if i.counted then (st.totalRequests + 1) % 2 ^ 64 else st.totalRequests := by
  cases i with
  | record r => exact nfsHandleEvent_totalRequests st r
  | datagram fs p stack =>
    rw [loopStep_datagram, LoopInput.counted, processNfsRequest]
    rcases EbpfNfs.processNfsRequest (recvNfs p).1 (recvNfs p).2 with _ | ⟨xid, proc⟩
    · rfl
    · simp only [Option.isSome_some, if_true]
      split_ifs
      · exact handleNfsGetattr_totalRequests env fs xid _
      · exact handleNfsRead_totalRequests env fs xid stack _
      · rfl

/-- Over every run of the loop, `total_requests` counts, modulo `2 ^ 64`, every NFS v3 call it
received, answered or not, and the loop sends at most one datagram per counted call. -/
theorem serverLoop_totalRequests (env : Env) (st : NfsUserStats) (inputs : List LoopInput)
    (h : st.totalRequests < 2 ^ 64) :
    (serverLoop env st inputs).2.totalRequests =
        (st.totalRequests + inputs.countP LoopInput.counted) % 2 ^ 64 ∧
      (serverLoop env st inputs).1.length ≤ inputs.countP LoopInput.counted := by
  induction inputs generalizing st with
  | nil => exact ⟨(Nat.mod_eq_of_lt h).symm, le_refl 0⟩
  | cons i is ih =>
    have hs := loopStep_totalRequests env st i
    obtain ⟨h1, h2⟩ := ih (loopStep env st i).2 (by rw [hs]; split <;> omega)
    have hsent : (loopStep env st i).1.toList.length ≤ if i.counted then 1 else 0 := by
      have hr := congrArg Option.isSome (loopStep_reply env st i)
      cases hi : (loopStep env st i).1
      · exact Nat.zero_le _
      · rw [hi] at hr
        simp only [Option.map_some', Option.isSome_some] at hr
        simp [counted_of_answered i (by simpa using hr.symm)]
    simp only [serverLoop, List.countP_cons, List.length_append, h1, hs]
    constructor
    · split <;> omega
    · omega

/-- A `NULL` call is counted in `total_requests`. -/
theorem serverLoop_totalRequests_nullCall :
    (⟨0, 0, 0, 0, 0, 0, 0, 0⟩ : NfsUserStats).totalRequests < 2 ^ 64 ∧
      (serverLoop ⟨ascii "/srv", true⟩ ⟨0, 0, 0, 0, 0, 0, 0, 0⟩ [.datagram (fun _ => none)
        [0, 0, 0, 7, 0, 0, 0, 0, 0, 0, 0, 2, 0, 1, 134, 163, 0, 0, 0, 3, 0, 0, 0, 0, 0, 0, 0, 0,
          0, 0, 0, 0] []]).2.totalRequests = 1 :=
  ⟨by decide, (serverLoop_totalRequests _ _ _ (by decide)).1.trans (by decide)⟩

/-! ## The attributes a `GETATTR` reply carries -/

/-- The attributes of a `GETATTR` reply read back with `xdr_decode_u32` at the offsets
`handle_nfs_getattr` writes them to: after the header and the status word, the 64-bit fields high
word first. -/
def decodeFattr (b : List UInt8) : NfsFattr :=
  let w := fun k => be32 b (4 * k)
  let d := fun k => w k * 2 ^ 32 + w (k + 1)
  { type := w 7, mode := w 8, nlink := w 9, uid := w 10, gid := w 11, size := d 12, used := d 14
    fsid := d 16, fileid := d 18, atimeSec := d 20, atimeNsec := w 22, mtimeSec := d 23
    mtimeNsec := w 25, ctimeSec := d 26, ctimeNsec := w 28 }

theorem be32_xdrWords_at (ws : List Nat) {n : Nat} (h4 : n % 4 = 0) (hn : n / 4 < ws.length) :
    be32 (xdrWords ws) n = ws[n / 4] % 2 ^ 32 := by
  have h := be32_xdrWords ws [] hn
  rwa [List.append_nil, Nat.mul_div_cancel' (Nat.dvd_of_mod_eq_zero h4)] at h

/-- For a file that `stat` finds, the `GETATTR` reply is 29 XDR words. -/
theorem handleNfsGetattr_words (env : Env) (fs : FileSys) (xid : Nat) (st : NfsUserStats)
    {f : FileStat} (hf : fs (joinPath env.exportRoot (ascii "test.txt")) = some f) :
    (handleNfsGetattr env fs xid st).1 = xdrWords (rpcReplyHeader xid ++
      [0, if sIsDir f.mode then 2 else 1, f.mode, f.nlink, f.uid, f.gid, f.size / 2 ^ 32, f.size,
        f.blocks * 512 / 2 ^ 32, f.blocks * 512, 0, 1, f.ino / 2 ^ 32, f.ino, f.atime / 2 ^ 32,
        f.atime, 0, f.mtime / 2 ^ 32, f.mtime, 0, f.ctime / 2 ^ 32, f.ctime, 0]) := by
  simp [handleNfsGetattr, hf, xdrU64_eq, xdrWords, rpcReplyHeader]

/-- A `GETATTR` reply for a file `stat` finds is 116 bytes with status `NFS3_OK`, and its
attributes read back, field for field, as the ones `cache_file_in_kernel` stores for that file in
`nfs_file_cache`: the two planes answer with the same attributes. -/
theorem getattrReply_attr (env : Env) (fs : FileSys) (xid : Nat) (st : NfsUserStats) {f : FileStat}
    (hf : fs (joinPath env.exportRoot (ascii "test.txt")) = some f) (filename data : List UInt8)
    (w : Nat) :
    (handleNfsGetattr env fs xid st).1.length = 116 ∧ be32 (handleNfsGetattr env fs xid st).1 24 = 0 ∧
      decodeFattr (handleNfsGetattr env fs xid st).1 = (cacheEntry filename f data w).attr := by
  rw [handleNfsGetattr_words env fs xid st hf]
  refine ⟨by simp [rpcReplyHeader], by simp [be32_xdrWords_at, rpcReplyHeader], ?_⟩
  simp only [decodeFattr, cacheEntry, NfsFattr.mk.injEq]
  simp [be32_xdrWords_at, rpcReplyHeader]
  -- each 64-bit field is its high word times 2 ^ 32 plus its low word
  refine ⟨by split <;> decide, ?_, ?_, ?_, ?_, ?_, ?_⟩ <;> omega

theorem getattrReply_attr_sizeFive :
    (fun _ => some ⟨33188, 1, 0, 0, 5, 8, 2, 0, 0, 0, true, true, [104, 101, 108, 108, 111]⟩ : FileSys)
        (joinPath (ascii "/srv") (ascii "test.txt")) =
      some ⟨33188, 1, 0, 0, 5, 8, 2, 0, 0, 0, true, true, [104, 101, 108, 108, 111]⟩ ∧
    decodeFattr (handleNfsGetattr ⟨ascii "/srv", true⟩
        (fun _ => some ⟨33188, 1, 0, 0, 5, 8, 2, 0, 0, 0, true, true, [104, 101, 108, 108, 111]⟩)
        7 ⟨0, 0, 0, 0, 0, 0, 0, 0⟩).1 =
      (cacheEntry (ascii "test.txt") ⟨33188, 1, 0, 0, 5, 8, 2, 0, 0, 0, true, true,
        [104, 101, 108, 108, 111]⟩ [104, 101, 108, 108, 111] 0).attr :=
  ⟨rfl, (getattrReply_attr ⟨ascii "/srv", true⟩ _ 7 _ rfl _ _ 0).2.2⟩

end NfsServer

end EbpfNfs
