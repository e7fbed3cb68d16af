import EbpfNfs.Servers

/-!
# What the control planes answer

`fileserver.c` answers a `GET` only after it has handed the file name to `cache_file_in_kernel`,
and `serve_file` refuses a name holding `..` or `//` with 403 only then. So a refused request has
already run the cache step on the refused name (`handleHttpRequest_forbidden`), and a path that
leaves the document root puts its file into `file_cache` under that name
(`forbidden_request_caches`).

`nfs_server.c` builds its replies in a 4096-byte stack buffer with `xdr_encode_u32`. Its `READ`
handler writes the six words of the RPC reply, reads the file 12 bytes further on, and then
writes four more words there: status, count, end of file and data length, 16 bytes that cover
the first four bytes read. The datagram it sends is the ten words, the bytes read from the fifth
on, and as many bytes of the old buffer as it lost (`handleNfsRead_reply`), so a client never
receives the first four bytes of a file (`readReply_drops_leading_bytes`).
-/

namespace EbpfNfs

/-! ## A refused request -/

namespace FileServer

/-- `serve_file` answers 403 exactly on the names holding `..` or `//`. -/
theorem serveFile_eq_403_iff (env : Env) (fs : FileSys) (filename : List UInt8) (st : Stats) :
    (serveFile env fs filename st).1 = 403 ↔
      (hasInfix (cstr filename) (ascii "..") || hasInfix (cstr filename) (ascii "//")) = true := by
  unfold serveFile
  repeat' split
  all_goals simp_all

/-- A request `handle_http_request` answers with 403 is a `GET` whose file name holds `..` or
`//`, and `file_cache` after it is what `cache_file_in_kernel` made of that name. -/
theorem handleHttpRequest_forbidden {env : Env} {fs : FileSys} {request : List UInt8}
    {m : BpfHash (List UInt8) FileCacheEntry} {st : Stats}
    (h : (handleHttpRequest env fs request m st).1 = 403) :
    ∃ path ver, scanRequestLine (cstr request) = some (ascii "GET", path, ver) ∧
      (hasInfix (cstr (requestFilename path)) (ascii "..") ||
        hasInfix (cstr (requestFilename path)) (ascii "//")) = true ∧
      (handleHttpRequest env fs request m st).2.1 =
        (cacheFileInKernel env fs (requestFilename path) m).2 := by
  unfold handleHttpRequest at h ⊢
  rcases hs : scanRequestLine (cstr request) with _ | ⟨method, path, ver⟩
  · simp [hs] at h
  by_cases hm : method = ascii "GET"
  · subst hm
    simp only [hs, if_true] at h ⊢
    exact ⟨path, ver, rfl, (serveFile_eq_403_iff _ _ _ _).1 h, rfl⟩
  · simp [hs, hm] at h

end FileServer

set_option maxRecDepth 8000 in
/-- `GET /../secret.txt`, with kernel caching on and `secret.txt` a file next to the document
root: the server answers 403, and `file_cache`, empty before, now holds `../secret.txt`, a name
`serve_file` refuses. -/
theorem forbidden_request_caches :
    let r : Nat × BpfHash (List UInt8) FileCacheEntry × FileServer.Stats :=
      FileServer.handleHttpRequest ⟨ascii "/srv", true⟩ testFs
        (ascii "GET /../secret.txt HTTP/1.1\r\n\r\n") (HttpMaps.init 0).fileCache
        FileServer.Stats.zero
    r.1 = 403 ∧ (HttpMaps.init 0).fileCache.lookup (nameKey (ascii "../secret.txt")) = none ∧
      (r.2.1.lookup (nameKey (ascii "../secret.txt"))).isSome := by
  decide

/-! ## The NFS replies -/

namespace NfsServer

/-- `xdr_encode_u32(&p, val)`: the bytes of `htonl(val)`, most significant first.
Reference: part_002:115. -/
def xdrU32 (x : Nat) : List UInt8 :=
  [(x / 16777216).toUInt8, (x / 65536).toUInt8, (x / 256).toUInt8, x.toUInt8]

/-- `xdr_encode_u64(&p, val)`: the high word, then the low word. Reference: part_002:121. -/
def xdrU64 (x : Nat) : List UInt8 := xdrU32 (x / 2 ^ 32) ++ xdrU32 x

/-- `xdr_encode_u32` of each word in turn. -/
def xdrWords (ws : List Nat) : List UInt8 := ws.flatMap xdrU32

/-- The bytes `bs` stored into a buffer from offset `off` on. -/
def storeBytes (buf : List UInt8) (off : Nat) (bs : List UInt8) : List UInt8 :=
  buf.take off ++ bs ++ buf.drop (off + bs.length)

/-- The six words every reply starts with: the `xid`, `REPLY`, `MSG_ACCEPTED`, `AUTH_NULL`, an
empty verifier and `ACCEPT_STAT = SUCCESS`. -/
def rpcReplyHeader (xid : Nat) : List Nat := [xid, 1, 0, 0, 0, 0]

/-- `handle_nfs_getattr(sock, addr, request, len, xid)` of `nfs_server.c`: the datagram it sends
and the statistics after it. It answers for `test.txt` whatever the call, and writes every byte
it sends, in order. Reference: part_002:220. -/
def handleNfsGetattr (env : Env) (fs : FileSys) (xid : Nat) (st : NfsUserStats) :
    List UInt8 × NfsUserStats :=
  let header := xdrWords (rpcReplyHeader xid)
  match fs (joinPath env.exportRoot (ascii "test.txt")) with
  | none => (header ++ xdrU32 2, st)
  | some f =>
    (header ++ xdrWords [0, if sIsDir f.mode then 2 else 1, f.mode, f.nlink, f.uid, f.gid] ++
        xdrU64 f.size ++ xdrU64 (f.blocks * 512) ++ xdrU64 1 ++ xdrU64 f.ino ++
        xdrU64 f.atime ++ xdrU32 0 ++ xdrU64 f.mtime ++ xdrU32 0 ++ xdrU64 f.ctime ++ xdrU32 0,
      { st with userProcessed := (st.userProcessed + 1) % 2 ^ 64 })

/-- `handle_nfs_read(sock, addr, request, len, xid)` of `nfs_server.c` on the `response` buffer
as the stack left it: the datagram it sends and the statistics after it. It writes the reply
header, reads up to 1024 bytes of `test.txt` to 12 bytes past it, writes four more words from
the end of the header on, and sends everything up to the end of the data it read.
Reference: part_002:275. -/
def handleNfsRead (env : Env) (fs : FileSys) (xid : Nat) (response : List UInt8)
    (st : NfsUserStats) : List UInt8 × NfsUserStats :=
  let buf := storeBytes response 0 (xdrWords (rpcReplyHeader xid))
  let noent := ((storeBytes buf 24 (xdrU32 2)).take 28, st)
  match fs (joinPath env.exportRoot (ascii "test.txt")) with
  | none => noent
  | some f =>
    if !f.openOk then noent
    else match f.read 1024 with
      | none => ((storeBytes buf 24 (xdrU32 5)).take 28, st)
      | some data =>
        let buf := storeBytes buf 36 data
        let n := data.length
        ((storeBytes buf 24 (xdrWords [0, n, if n < 1024 then 1 else 0, n])).take (40 + n),
          { st with userProcessed := (st.userProcessed + 1) % 2 ^ 64 })

@[simp] theorem xdrU32_length (x : Nat) : (xdrU32 x).length = 4 := rfl

@[simp] theorem xdrWords_length (ws : List Nat) : (xdrWords ws).length = 4 * ws.length := by
  induction ws with
  | nil => rfl
  | cons w ws ih => simp [xdrWords, ih] at *; omega

/-- Storing right after a prefix replaces the bytes that follow it. -/
theorem storeBytes_append {p q : List UInt8} {off : Nat} (hp : p.length = off) (bs : List UInt8) :
    storeBytes (p ++ q) off bs = p ++ bs ++ q.drop bs.length := by
  subst hp
  simp [storeBytes, List.drop_append_eq_append_drop, List.take_append_eq_append_take]

/-- When `open` and `read` succeed, `handle_nfs_read` sends the ten words of a successful reply,
then the bytes read from the fifth on, then as many bytes of the old buffer as the words
overwrote of the data: the bytes from offset `36 + max n 4`, at most four of them. -/
theorem handleNfsRead_reply {env : Env} {fs : FileSys} {xid : Nat} {response : List UInt8}
    {st : NfsUserStats} {f : FileStat} {data : List UInt8} (hlen : response.length = 4096)
    (hf : fs (joinPath env.exportRoot (ascii "test.txt")) = some f) (hopen : f.openOk = true)
    (hread : f.read 1024 = some data) :
    (handleNfsRead env fs xid response st).1 =
      xdrWords (rpcReplyHeader xid ++
          [0, data.length, if data.length < 1024 then 1 else 0, data.length]) ++
        data.drop 4 ++ (response.drop (36 + max data.length 4)).take (min data.length 4) := by
  have hn : data.length ≤ 1024 := by
    simp only [FileStat.read] at hread
    split_ifs at hread
    cases hread
    exact List.length_take_le _ _
  have hH : (xdrWords (rpcReplyHeader xid)).length = 24 := by simp [rpcReplyHeader]
  have hT : ∀ ws : List Nat, ws.length = 4 → (xdrWords ws).length = 16 := fun ws h => by simp [h]
  -- the header, and the twelve bytes of the old buffer the read skips
  have h1 : storeBytes response 0 (xdrWords (rpcReplyHeader xid)) =
      (xdrWords (rpcReplyHeader xid) ++ (response.drop 24).take 12) ++ response.drop 36 := by
    rw [List.append_assoc, show response.drop 36 = (response.drop 24).drop 12 by
      rw [List.drop_drop], List.take_append_drop]
    simp [storeBytes, hH]
  -- the data read
  have h2 : storeBytes (storeBytes response 0 (xdrWords (rpcReplyHeader xid))) 36 data =
      xdrWords (rpcReplyHeader xid) ++ ((response.drop 24).take 12 ++ data ++
        (response.drop 36).drop data.length) := by
    have hp : (xdrWords (rpcReplyHeader xid) ++ (response.drop 24).take 12).length = 36 := by
      simp [hH, hlen]
    rw [h1, storeBytes_append hp]
    simp
  have hX : ((response.drop 24).take 12).length = 12 := by simp [hlen]
  -- the four words overwrite the skipped bytes and the first four bytes read
  have hW : ((response.drop 24).take 12 ++ data ++ (response.drop 36).drop data.length).drop 16 =
      data.drop 4 ++ ((response.drop 36).drop data.length).drop (4 - data.length) := by
    rw [List.append_assoc, show 16 = ((response.drop 24).take 12).length + 4 by rw [hX],
      List.drop_append, List.drop_append_eq_append_drop]
  -- what follows the data read is the old buffer past offset `36 + n`
  have hR : (data.drop 4 ++ ((response.drop 36).drop data.length).drop (4 - data.length)).take
      data.length = data.drop 4 ++ (response.drop (36 + max data.length 4)).take
        (min data.length 4) := by
    rw [List.take_append_eq_append_take, List.take_of_length_le (by simp), List.length_drop,
      List.drop_drop, List.drop_drop, show data.length - (data.length - 4) = min data.length 4 by
        omega, show 36 + (data.length + (4 - data.length)) = 36 + max data.length 4 by omega]
  simp only [handleNfsRead, hf, hopen, hread, Bool.not_true, Bool.false_eq_true, if_false]
  rw [h2, storeBytes_append hH, hT [0, data.length, if data.length < 1024 then 1 else 0,
    data.length] rfl, hW,
    show 40 + data.length = (xdrWords (rpcReplyHeader xid) ++ xdrWords [0, data.length,
      if data.length < 1024 then 1 else 0, data.length]).length + data.length by simp [hH],
    List.take_append, hR, xdrWords, xdrWords, xdrWords, List.flatMap_append]
  simp only [List.append_assoc]

/-- `test.txt` holding `hello`, `xid` 7 and a zeroed buffer: the reply carries `o` and four zero
bytes where it should carry `hello`. -/
theorem readReply_drops_leading_bytes :
    (handleNfsRead ⟨ascii "./nfs_exports", true⟩ testFs 7 (List.replicate 4096 0)
        NfsUserStats.zero).1 = xdrWords [7, 1, 0, 0, 0, 0, 0, 5, 1, 5] ++ [111, 0, 0, 0, 0] ∧
      (handleNfsRead ⟨ascii "./nfs_exports", true⟩ testFs 7 (List.replicate 4096 0)
        NfsUserStats.zero).1 ≠ xdrWords [7, 1, 0, 0, 0, 0, 0, 5, 1, 5] ++ ascii "hello" := by
  have h := @handleNfsRead_reply ⟨ascii "./nfs_exports", true⟩ testFs 7 (List.replicate 4096 0)
    NfsUserStats.zero _ (ascii "hello") (List.length_replicate _ _) rfl rfl rfl
  simp only [List.drop_replicate, List.take_replicate] at h
  rw [h]
  decide

end NfsServer

end EbpfNfs
