import EbpfNfs.Frame

/-!
# NFS calls as the two planes decode them

`nfs_server_tc` walks a frame to its UDP payload (`nfsFrame`), reads a 32-byte RPC header from
it (`parseRpcHeader`) and keeps the calls to NFS version 3 (`rpcIsNfsCall`). The control plane
receives the same payload through a 4096-byte `recvfrom` buffer and `process_nfs_request` decodes
six big-endian words of it after its own length check of 24 bytes (`processNfsRequest`).
-/

namespace EbpfNfs

/-- `NFS_PORT`. -/
def nfsPort : Nat := 2049
/-- `RPC_PROGRAM_NFS`. -/
def rpcProgramNfs : Nat := 100003
/-- `NFS_VERSION_3`. -/
def nfsVersion3 : Nat := 3
/-- `RPC_CALL`. -/
def rpcCall : Nat := 0
/-- `sizeof(struct udphdr)`. -/
def udpHlen : Nat := 8
/-- `sizeof(struct rpc_header)`: eight 32-bit words. -/
def rpcHeaderLen : Nat := 32

/-- `NFSPROC3_NULL`. -/
def nfsproc3Null : Nat := 0
/-- `NFSPROC3_GETATTR`. -/
def nfsproc3Getattr : Nat := 1
/-- `NFSPROC3_READ`. -/
def nfsproc3Read : Nat := 6

/-- `struct rpc_header` (part_000:162). -/
structure RpcHeader where
  xid : Nat
  msgType : Nat
  rpcVersion : Nat
  program : Nat
  version : Nat
  procedure : Nat
  authFlavor : Nat
  authLen : Nat
  deriving DecidableEq, Repr

/-- `extract_be32(data, data_end, offset)` over the bytes from `data` to `data_end`: `0` when the
word does not fit. Reference: test_nfs_server.sh:383. -/
def extractBe32 (p : List UInt8) (i : Nat) : Nat := if p.length < i + 4 then 0 else be32 p i

/-- `parse_rpc_header(data, data_end, payload_len, &rpc)`: `none` for `-1`.
Reference: test_nfs_server.sh:391. -/
def parseRpcHeader (p : List UInt8) (payloadLen : Nat) : Option RpcHeader :=
  if payloadLen < rpcHeaderLen then none
  else if p.length < rpcHeaderLen then none
  else some
    { xid := extractBe32 p 0
      msgType := extractBe32 p 4
      rpcVersion := extractBe32 p 8
      program := extractBe32 p 12
      version := extractBe32 p 16
      procedure := extractBe32 p 20
      authFlavor := extractBe32 p 24
      authLen := extractBe32 p 28 }

/-- The envelope check of `nfs_server_tc`: a call of RPC version 2 to NFS version 3.
Reference: test_nfs_server.sh:602-606. -/
def rpcIsNfsCall (rpc : RpcHeader) : Bool :=
  rpc.msgType == rpcCall && rpc.rpcVersion == 2 && rpc.program == rpcProgramNfs &&
    rpc.version == nfsVersion3

/-- What `nfs_server_tc` has read from a frame when it reaches the RPC parse. -/
structure NfsFrame where
  /-- The bytes from `nfs_payload` to `data_end`. -/
  payload : List UInt8
  /-- `payload_len`, a `__u16`. -/
  payloadLen : Nat
  clientIp : Nat
  clientPort : Nat
  deriving DecidableEq, Repr

/-- The walk of `nfs_server_tc` from `skb->data` to the RPC parse; `none` is every early
`return TC_ACT_OK`. Reference: test_nfs_server.sh:570-596. -/
def nfsFrame (f : List UInt8) : Option NfsFrame :=
  if !ipv4Frame f then none
  else if ipProtocol f ≠ ipprotoUdp then none
  else if f.length < transportOff f + udpHlen then none
  else if be16 f (transportOff f + 2) ≠ nfsPort then none
  else if f.length ≤ transportOff f + udpHlen then none
  else if (f.length - (transportOff f + udpHlen)) % 2 ^ 16 < rpcHeaderLen then none
  else some
    { payload := f.drop (transportOff f + udpHlen)
      payloadLen := (f.length - (transportOff f + udpHlen)) % 2 ^ 16
      clientIp := ipSaddr f
      clientPort := le16 f (transportOff f) }

/-- The RPC header of an NFS call on a UDP payload as the kernel sees it: parsed with the
16-bit `payload_len`, and kept only when the envelope check passes. -/
def kernelRpc (p : List UInt8) : Option RpcHeader :=
  (parseRpcHeader p (p.length % 2 ^ 16)).filter rpcIsNfsCall

/-- The frames `nfs_server_tc` goes on to count: their walk and their RPC header. -/
def nfsCall (f : List UInt8) : Option (NfsFrame × RpcHeader) :=
  match nfsFrame f with
  | none => none
  | some v =>
    match (parseRpcHeader v.payload v.payloadLen).filter rpcIsNfsCall with
    | none => none
    | some rpc => some (v, rpc)

/-- `process_nfs_request(sock, addr, buffer, len)`: the `xid` and procedure it dispatches on, or
`none` when it returns early. `xdr_decode_u32` reads each word from the receive buffer.
Reference: part_002:325. -/
def processNfsRequest (buffer : List UInt8) (len : Nat) : Option (Nat × Nat) :=
  if len < 24 then none
  else if be32 buffer 4 ≠ 0 ∨ be32 buffer 8 ≠ 2 ∨ be32 buffer 12 ≠ rpcProgramNfs ∨
      be32 buffer 16 ≠ nfsVersion3 then none
  else some (be32 buffer 0, be32 buffer 20)

/-- `recvfrom(server_sock, buffer, sizeof(buffer), ...)` on a datagram: the bytes kept and the
length returned. Reference: part_002:547. -/
def recvNfs (p : List UInt8) : List UInt8 × Nat := (p.take 4096, min p.length 4096)

/-! ## The two decoders -/

/-- On a UDP payload (below `2 ^ 16` bytes) the kernel keeps exactly the calls of at least 32
bytes that `process_nfs_request` dispatches, with the `xid` and procedure it decodes, which are
the big-endian words at offsets 0 and 20. -/
theorem kernelRpc_map_eq_processNfsRequest {p : List UInt8} (hp : p.length < 2 ^ 16) :
    (kernelRpc p).map (fun r => (r.xid, r.procedure)) =
        (if p.length < rpcHeaderLen then none else processNfsRequest (recvNfs p).1 (recvNfs p).2) ∧
      ∀ r, kernelRpc p = some r → r.xid = be32 p 0 ∧ r.procedure = be32 p 20 := by
  by_cases h32 : p.length < rpcHeaderLen
  · simp [kernelRpc, parseRpcHeader, Nat.mod_eq_of_lt hp, h32]
  have hw : ∀ i, i + 4 ≤ 32 → extractBe32 p i = be32 p i := fun i hi => by
    rw [extractBe32, if_neg (by simp only [rpcHeaderLen] at h32; omega)]
  have ht : ∀ i, i + 4 ≤ 32 → be32 (p.take 4096) i = be32 p i := fun i hi => be32_take (by omega)
  have hlen : ¬ min p.length 4096 < 24 := by simp only [rpcHeaderLen] at h32; omega
  simp only [kernelRpc, parseRpcHeader, Nat.mod_eq_of_lt hp, h32, if_false, Option.filter,
    rpcIsNfsCall, rpcCall, processNfsRequest, recvNfs, hlen, hw 0 (by decide), hw 4 (by decide),
    hw 8 (by decide), hw 12 (by decide), hw 16 (by decide), hw 20 (by decide), ht 0 (by decide),
    ht 4 (by decide), ht 8 (by decide), ht 12 (by decide), ht 16 (by decide), ht 20 (by decide)]
  by_cases hc : be32 p 4 = 0 ∧ be32 p 8 = 2 ∧ be32 p 12 = rpcProgramNfs ∧ be32 p 16 = nfsVersion3
  · simp [hc]
  · simp only [not_and_or] at hc
    rcases hc with hc | hc | hc | hc <;> simp [hc]

theorem kernelRpc_map_eq_processNfsRequest_getattr :
    [0, 0, 0, 1, 0, 0, 0, 0, 0, 0, 0, 2, 0, 1, 134, 163, 0, 0, 0, 3, 0, 0, 0, 1, 0, 0, 0, 0, 0, 0,
        0, 0].length < 2 ^ 16 ∧
      ((kernelRpc [0, 0, 0, 1, 0, 0, 0, 0, 0, 0, 0, 2, 0, 1, 134, 163, 0, 0, 0, 3, 0, 0, 0, 1, 0,
          0, 0, 0, 0, 0, 0, 0]).map (fun r => (r.xid, r.procedure)) =
        (if [0, 0, 0, 1, 0, 0, 0, 0, 0, 0, 0, 2, 0, 1, 134, 163, 0, 0, 0, 3, 0, 0, 0, 1, 0, 0, 0, 0,
            0, 0, 0, 0].length < rpcHeaderLen then none
          else processNfsRequest (recvNfs [0, 0, 0, 1, 0, 0, 0, 0, 0, 0, 0, 2, 0, 1, 134, 163, 0,
            0, 0, 3, 0, 0, 0, 1, 0, 0, 0, 0, 0, 0, 0, 0]).1 (recvNfs [0, 0, 0, 1, 0, 0, 0, 0, 0, 0,
            0, 2, 0, 1, 134, 163, 0, 0, 0, 3, 0, 0, 0, 1, 0, 0, 0, 0, 0, 0, 0, 0]).2) ∧
        ∀ r, kernelRpc [0, 0, 0, 1, 0, 0, 0, 0, 0, 0, 0, 2, 0, 1, 134, 163, 0, 0, 0, 3, 0, 0, 0, 1,
            0, 0, 0, 0, 0, 0, 0, 0] = some r →
          r.xid = be32 [0, 0, 0, 1, 0, 0, 0, 0, 0, 0, 0, 2, 0, 1, 134, 163, 0, 0, 0, 3, 0, 0, 0, 1,
            0, 0, 0, 0, 0, 0, 0, 0] 0 ∧
          r.procedure = be32 [0, 0, 0, 1, 0, 0, 0, 0, 0, 0, 0, 2, 0, 1, 134, 163, 0, 0, 0, 3, 0, 0,
            0, 1, 0, 0, 0, 0, 0, 0, 0, 0] 20) :=
  ⟨by decide, kernelRpc_map_eq_processNfsRequest (by decide)⟩

/-- A 24-byte call: `process_nfs_request` dispatches it, the kernel passes it through. -/
theorem kernelRpc_rejects_short_call :
    kernelRpc [0, 0, 0, 1, 0, 0, 0, 0, 0, 0, 0, 2, 0, 1, 134, 163, 0, 0, 0, 3, 0, 0, 0, 0] = none ∧
      processNfsRequest (recvNfs [0, 0, 0, 1, 0, 0, 0, 0, 0, 0, 0, 2, 0, 1, 134, 163, 0, 0, 0, 3,
        0, 0, 0, 0]).1 (recvNfs [0, 0, 0, 1, 0, 0, 0, 0, 0, 0, 0, 2, 0, 1, 134, 163, 0, 0, 0, 3,
        0, 0, 0, 0]).2 = some (1, 0) := by
  decide

/-! ## From the frame -/

/-- What the walk of `nfs_server_tc` hands on when it succeeds. -/
theorem nfsFrame_eq_some {f : List UInt8} {v : NfsFrame} (h : nfsFrame f = some v) :
    v = { payload := f.drop (transportOff f + udpHlen)
          payloadLen := (f.length - (transportOff f + udpHlen)) % 2 ^ 16
          clientIp := ipSaddr f
          clientPort := le16 f (transportOff f) } := by
  simp only [nfsFrame, Option.ite_none_left_eq_some, Option.some.injEq] at h
  exact h.2.2.2.2.2.2.symm

theorem nfsFrame_payloadLen {f : List UInt8} {v : NfsFrame} (h : nfsFrame f = some v) :
    v.payloadLen = v.payload.length % 2 ^ 16 := by
  rw [nfsFrame_eq_some h, List.length_drop]

/-- `nfs_server_tc` counts a frame when its walk succeeds and its payload is an NFS call. -/
theorem nfsCall_eq (f : List UInt8) :
    nfsCall f = (nfsFrame f).bind fun v => (kernelRpc v.payload).map (v, ·) := by
  cases h : nfsFrame f with
  | none => simp [nfsCall, h]
  | some v =>
    simp only [nfsCall, h, kernelRpc, ← nfsFrame_payloadLen h, Option.some_bind]
    cases (parseRpcHeader v.payload v.payloadLen).filter rpcIsNfsCall <;> rfl

end EbpfNfs
