import EbpfNfs.Http.Records
import EbpfNfs.FileSys
import EbpfNfs.Maps

/-!
# The file server's control plane

`fileserver.c` parses each request line with `sscanf("%15s %255s %15s")`, takes the file name
from the path, and for a `GET` first copies the file into `file_cache` (`cacheFileInKernel`) and
then answers from the file tree (`serveFile`). Its ring consumer `handleEvent` counts the
requests the kernel reports as processed. The responses' bodies and headers go to the socket;
only their status codes are kept.
-/

namespace EbpfNfs

namespace FileServer

/-- The server's options that the modelled functions read (part_001:24). -/
structure Env where
  documentRoot : List UInt8
  enableKernelCache : Bool
  deriving DecidableEq, Repr

/-- `struct server_stats` (part_001:103): seven `uint64_t` counters, each incremented modulo
`2 ^ 64`. -/
structure Stats where
  totalRequests : Nat
  kernelProcessed : Nat
  userProcessed : Nat
  cacheHits : Nat
  cacheMisses : Nat
  fileNotFound : Nat
  errors : Nat
  deriving DecidableEq, Repr

/-- `MAX_PACKET_SIZE` of `fileserver.h`, the capacity of `cached_data` (part_000:7). -/
def maxPacketSize : Nat := 1024

/-- One `%Ns` conversion of `sscanf`: skip white space, then take at most `w` bytes up to the
next white space; it fails when no byte is left. Returns the token and the rest. -/
def scanToken (w : Nat) (s : List UInt8) : Option (List UInt8 × List UInt8) :=
  let t := ((s.dropWhile isSpace).takeWhile fun b => !isSpace b).take w
  if t = [] then none else some (t, (s.dropWhile isSpace).drop t.length)

/-- `sscanf(request, "%15s %255s %15s", method, path, version) == 3`: the three tokens when all
three conversions succeed. Reference: part_001:257. -/
def scanRequestLine (s : List UInt8) : Option (List UInt8 × List UInt8 × List UInt8) := do
  let (method, s) ← scanToken 15 s
  let (path, s) ← scanToken 255 s
  let (version, _) ← scanToken 15 s
  pure (method, path, version)

/-- A token and the rest after it are bytes of the scanned string. -/
theorem scanToken_subset {w : Nat} {s t rest : List UInt8} (h : scanToken w s = some (t, rest)) :
    t ⊆ s ∧ rest ⊆ s := by
  simp only [scanToken] at h
  split_ifs at h
  cases h
  have hd := (List.dropWhile_suffix isSpace (l := s)).subset
  exact ⟨fun b hb => hd ((List.takeWhile_prefix _).subset ((List.take_prefix _ _).subset hb)),
    fun b hb => hd ((List.drop_suffix _ _).subset hb)⟩

/-- The path `sscanf` reads is bytes of the request. -/
theorem scanRequestLine_subset {s method path version : List UInt8}
    (h : scanRequestLine s = some (method, path, version)) : path ⊆ s := by
  simp only [scanRequestLine, Option.bind_eq_bind, Option.bind_eq_some] at h
  obtain ⟨⟨m, s₁⟩, h₁, ⟨p, s₂⟩, h₂, ⟨v, s₃⟩, -, h₃⟩ := h
  cases h₃
  exact List.Subset.trans (scanToken_subset h₂).1 (scanToken_subset h₁).2

/-- The 256-byte `filename` buffer of `handle_http_request` for a request path: `index.html` for
`/`, otherwise the path without its first byte. Reference: part_001:254, part_001:263-267. -/
def requestFilename (path : List UInt8) : List UInt8 :=
  if path = ascii "/" then nameKey (ascii "index.html")
  else zeroPad maxFilenameLen ((path.drop 1).take (maxFilenameLen - 1))

/-- `cache_file_in_kernel` of `fileserver.c`: its return value and `file_cache` after it.
`filename` is the 256-byte buffer the caller passes, which is also the map key.
Reference: part_001:214. -/
def cacheFileInKernel (env : Env) (fs : FileSys) (filename : List UInt8)
    (m : BpfHash (List UInt8) FileCacheEntry) : Int × BpfHash (List UInt8) FileCacheEntry :=
  if !env.enableKernelCache then (0, m)
  else match fs (joinPath env.documentRoot filename) with
    | none => (-1, m)
    | some st =>
      if !sIsReg st.mode ∨ maxPacketSize < st.size then (-1, m)
      else if !st.openOk then (-1, m)
      else match st.read st.size with
        | none => (-1, m)
        | some data =>
          if data.length ≠ st.size then (-1, m)
          else
            let e : FileCacheEntry :=
              { filename := zeroPad maxFilenameLen ((cstr filename).take (maxFilenameLen - 1))
                fileSize := st.size % 2 ^ 32
                lastModified := st.mtime
                cachedData := zeroPad maxPacketSize data
                cacheHits := 0
                valid := 1 }
            match m.update filename e with
            | none => (-7, m)
            | some m' => (0, m')

/-- `serve_file`: the status it sends and the statistics after it. `malloc` is taken to succeed.
Reference: part_001:142. -/
def serveFile (env : Env) (fs : FileSys) (filename : List UInt8) (st : Stats) : Nat × Stats :=
  if hasInfix (cstr filename) (ascii "..") || hasInfix (cstr filename) (ascii "//") then (403, st)
  else match fs (joinPath env.documentRoot filename) with
    | none => (404, { st with fileNotFound := (st.fileNotFound + 1) % 2 ^ 64 })
    | some f =>
      if !sIsReg f.mode then (404, { st with fileNotFound := (st.fileNotFound + 1) % 2 ^ 64 })
      else if !f.openOk then (500, { st with errors := (st.errors + 1) % 2 ^ 64 })
      else match f.read f.size with
        | none => (500, { st with errors := (st.errors + 1) % 2 ^ 64 })
        | some data =>
          if data.length ≠ f.size then (500, { st with errors := (st.errors + 1) % 2 ^ 64 })
          else (200, { st with userProcessed := (st.userProcessed + 1) % 2 ^ 64 })

/-- `handle_http_request` on the received bytes: the status sent, `file_cache` and the
statistics after it. Reference: part_001:251. -/
def handleHttpRequest (env : Env) (fs : FileSys) (request : List UInt8)
    (m : BpfHash (List UInt8) FileCacheEntry) (st : Stats) :
    Nat × BpfHash (List UInt8) FileCacheEntry × Stats :=
  match scanRequestLine (cstr request) with
  | none => (400, m, st)
  | some (method, path, _) =>
    let filename := requestFilename path
    if method = ascii "GET" then
      let m' := (cacheFileInKernel env fs filename m).2
      let r := serveFile env fs filename st
      (r.1, m', { r.2 with totalRequests := (r.2.totalRequests + 1) % 2 ^ 64 })
    else (405, m, { st with totalRequests := (st.totalRequests + 1) % 2 ^ 64 })

theorem serveFile_kernelProcessed (env : Env) (fs : FileSys) (filename : List UInt8)
    (st : Stats) : (serveFile env fs filename st).2.kernelProcessed = st.kernelProcessed := by
  unfold serveFile
  repeat' split
  all_goals rfl

/-- `handle_http_request` leaves `kernel_processed`, which only `handle_event` counts. -/
theorem handleHttpRequest_kernelProcessed (env : Env) (fs : FileSys) (request : List UInt8)
    (m : BpfHash (List UInt8) FileCacheEntry) (st : Stats) :
    (handleHttpRequest env fs request m st).2.2.kernelProcessed = st.kernelProcessed := by
  unfold handleHttpRequest
  repeat' split
  all_goals simp only [serveFile_kernelProcessed]

/-- `recv(client_sock, buffer, sizeof(buffer) - 1, 0)` on a request: the bytes
`handle_http_request` is given. Reference: part_001:364-367. -/
def received (payload : List UInt8) : List UInt8 := payload.take 4095

/-- `handle_event` of `fileserver.c` on one ring record. Reference: part_001:380. -/
def handleEvent (st : Stats) : HttpRecord → Stats
  | .request r =>
    if r.processedInKernel ≠ 0 then { st with kernelProcessed := (st.kernelProcessed + 1) % 2 ^ 64 }
    else st
  | .fileEvent _ => st

end FileServer

end EbpfNfs
