import EbpfNfs.Nfs.State

/-!
# The NFS BPF programs

`nfs_server_tc` and its two handlers, `handle_nfs_getattr` and `handle_nfs_read`, as programs of
`NfsAct`, with `nfs_server_xdp` and `trace_openat`.

Two details of the C decide several results. The handlers copy the cached name into a stack
buffer up to its NUL and leave the rest of the buffer as it was (`handlerFilename`); the lookup
key is the whole 256-byte buffer. And when the client is new, `client_state` ends up pointing
at the stack copy `new_state`, so the later `kernel_processed++` or `user_forwarded++` never
reaches the map (`bumpClient none`).
-/

namespace EbpfNfs

open NfsProg

/-- The copy loop of the handlers (`filename[i] = cached_name[i]` for `i < n`, stopping after a
NUL) over the stack buffer `junk`: the bytes past the copied NUL keep what the stack held. -/
def copyName : Nat → List UInt8 → List UInt8 → List UInt8
  | 0, _, junk => junk
  | _, [], junk => junk
  | _, _, [] => []
  | n + 1, b :: src, _ :: junk => b :: if b = 0 then junk else copyName n src junk

/-- The handlers' `filename` buffer after the copy and `filename[MAX_FILENAME_LEN - 1] = '\0'`.
Reference: test_nfs_server.sh:460-465. -/
def handlerFilename (name junk : List UInt8) : List UInt8 := (copyName 255 name junk).set 255 0

/-- The event of a forwarded request. -/
def NfsEvent.forward (ev : NfsEvent) : NfsEvent :=
  { ev with result := nfsOpForwardToUser, forwardedToUser := 1 }

/-- `cache_entry->cache_hits++`: a load and a store through the pointer. -/
def bumpHits (i : Nat) : NfsProg Unit :=
  .act (.loadHits i) fun h => .act (.storeHits i ((h + 1) % 2 ^ 32)) .ret

/-- `client_state->c++`, through the map pointer, or on the stack copy `new_state`. -/
def bumpClient : Option Nat → ClientCounter → NfsProg Unit
  | none, _ => pure ()
  | some i, c => .act (.loadClient c i) fun v => .act (.storeClient c i ((v + 1) % 2 ^ 32)) .ret

/-- The TTL bound of the handlers: `cache_ttl_seconds * 1000000000ULL`, the `unsigned int`
widened to 64 bits before the product. -/
def ttlNs (cfg : NfsConfig) : Nat := cfg.cacheTtlSeconds.toNat * 1000000000 % 2 ^ 64

/-- `handle_nfs_getattr(req, event)`: the value returned and the event as it leaves it; `junk`
is what the `filename` stack buffer held. Reference: test_nfs_server.sh:445. -/
def handleNfsGetattr (cfg : NfsConfig) (req : NfsRequest) (ev : NfsEvent) (junk : List UInt8) :
    NfsProg (Nat × NfsEvent) :=
  .act (.lookupFh req.fh) fun
  | none => pure (0, ev.forward)
  | some name =>
    let filename := handlerFilename name junk
    .act (.lookupCache filename) fun
    | none => pure (0, { ev.forward with filename })
    | some (i, e) =>
      if e.valid = 0 then pure (0, { ev.forward with filename })
      else .act .ktime fun now =>
        if ttlNs cfg < subU64 now e.cacheTime then pure (0, { ev.forward with filename })
        else do
          bumpHits i
          statAdd 1
          pure (1, { ev with result := nfsOpSuccess, forwardedToUser := 0, fromCache := 1,
                             fileSize := e.attr.size % 2 ^ 32, filename })

/-- `handle_nfs_read(req, event)`. It checks `data_valid` and the requested range, in `__u32`,
but not the TTL. Reference: test_nfs_server.sh:498. -/
def handleNfsRead (req : NfsRequest) (ev : NfsEvent) (junk : List UInt8) :
    NfsProg (Nat × NfsEvent) :=
  .act (.lookupFh req.fh) fun
  | none => pure (0, ev.forward)
  | some name =>
    let filename := handlerFilename name junk
    .act (.lookupCache filename) fun
    | none => pure (0, { ev.forward with filename })
    | some (i, e) =>
      if e.valid = 0 ∨ e.dataValid = 0 then pure (0, { ev.forward with filename })
      else if e.dataSize ≤ req.offset ∨ maxNfsDataSize < req.count ∨
          e.dataSize < (req.offset + req.count) % 2 ^ 32 then
        pure (0, { ev.forward with filename })
      else do
        bumpHits i
        statAdd 1
        pure (1, { ev with result := nfsOpSuccess, forwardedToUser := 0, fromCache := 1,
                           fileSize := req.count, filename })

/-- The client-tracking step of `nfs_server_tc`: where `client_state` points afterwards, the
map element or (`none`) the stack copy. Reference: test_nfs_server.sh:616-631. -/
def trackClient (ip : Nat) : NfsProg (Option Nat) :=
  .act (.lookupClient ip) fun
  | none => .act .ktime fun now =>
    .act (.updateClient ip
      { clientAddr := ip, lastRequestTime := now, requestCount := 1, kernelProcessed := 0,
        userForwarded := 0 }) fun _ => pure none
  | some i => .act .ktime fun now => .act (.storeClientTime i now) fun _ => do
    bumpClient (some i) .requestCount
    pure (some i)

/-- The procedure switch of `nfs_server_tc`: whether the request was handled in the kernel, and
the event. Reference: test_nfs_server.sh:666-689. -/
def nfsDispatch (cfg : NfsConfig) (rpc : RpcHeader) (req : NfsRequest) (ev : NfsEvent)
    (junk : List UInt8) : NfsProg (Nat × NfsEvent) :=
  if cfg.enableKernelProcessing = 0 then pure (0, ev)
  else if rpc.procedure = nfsproc3Null then do
    statAdd 1
    pure (1, { ev with result := nfsOpSuccess, forwardedToUser := 0, fromCache := 0 })
  else if rpc.procedure = nfsproc3Getattr then handleNfsGetattr cfg req ev junk
  else if rpc.procedure = nfsproc3Read then handleNfsRead req ev junk
  else pure (0, ev.forward)

/-- The request record `nfs_server_tc` fills for a call. -/
def nfsRequestOf (v : NfsFrame) (rpc : RpcHeader) : NfsRequest :=
  { clientAddr := v.clientIp, clientPort := v.clientPort, xid := rpc.xid,
    procedure := rpc.procedure, processedInKernel := 0, offset := 0, count := 0, fh := .zero }

/-- The operation event `nfs_server_tc` fills for a call before the switch. -/
def nfsEventOf (v : NfsFrame) (rpc : RpcHeader) (ts : Nat) : NfsEvent :=
  { clientAddr := v.clientIp, clientPort := v.clientPort, xid := rpc.xid,
    procedure := rpc.procedure, result := nfsOpForwardToUser, filename := [0], fileSize := 0,
    timestamp := ts, forwardedToUser := 1, fromCache := 0 }

/-- What `nfs_server_tc` does after the client-tracking step: two reservations, the switch, the
counters and the two commits. Reference: test_nfs_server.sh:633-703. -/
def nfsServe (cfg : NfsConfig) (v : NfsFrame) (rpc : RpcHeader) (junk : List UInt8)
    (ptr : Option Nat) : NfsProg Nat := do
  if !(← reserve) then return tcActOk
  if !(← reserve) then return tcActOk
  let ts ← ktime
  let r ← nfsDispatch cfg rpc (nfsRequestOf v rpc) (nfsEventOf v rpc ts) junk
  statAdd 0
  if r.1 ≠ 0 then bumpClient ptr .kernelProcessed
  else do
    bumpClient ptr .userForwarded
    statAdd 2
  submit (.request { nfsRequestOf v rpc with processedInKernel := if r.1 ≠ 0 then 1 else 0 })
  submit (.event r.2)
  pure tcActOk

/-- `nfs_server_tc`, the TC ingress program; `junk` is what the handlers' stack buffer held.
Reference: test_nfs_server.sh:553. -/
def nfsServerTc (cfg : NfsConfig) (frame junk : List UInt8) : NfsProg Nat :=
  match nfsCall frame with
  | none => pure tcActOk
  | some (v, rpc) => do
    let ptr ← trackClient v.clientIp
    nfsServe cfg v rpc junk ptr

/-- `nfs_server_xdp`: count the IPv4 UDP frames to port 2049 in `nfs_stats[4]`.
Reference: test_nfs_server.sh:721. -/
def nfsServerXdp (frame : List UInt8) : NfsProg Nat :=
  if ipv4Frame frame && ipProtocol frame == ipprotoUdp &&
      transportOff frame + udpHlen ≤ frame.length && be16 frame (transportOff frame + 2) == nfsPort
  then do
    statAdd 4
    pure xdpPass
  else pure xdpPass

/-- `trace_openat`: count the `openat` calls in `nfs_stats[3]`. Reference: test_nfs_server.sh:707. -/
def traceOpenat (cfg : NfsConfig) : NfsProg Nat :=
  if cfg.enableKernelProcessing = 0 then pure 0
  else do
    statAdd 3
    pure 0

end EbpfNfs
