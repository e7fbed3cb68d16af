import EbpfNfs.Nfs.State
import EbpfNfs.FileSys

/-!
# The NFS server's control plane

`cache_file_in_kernel` of `nfs_server.c` reads a file, builds a cache entry with the handle
`generate_nfs_file_handle` derives from the name, and installs it with two map updates, first
`nfs_file_cache` and then `fh_to_name`, either of which can fail. Between and around them any
number of kernel invocations run, so the routine is a program of the same actions as theirs.
-/

namespace EbpfNfs

namespace NfsServer

/-- The options of `nfs_server.c` the routine reads (part_002:24). -/
structure Env where
  exportRoot : List UInt8
  enableKernelCache : Bool
  deriving DecidableEq, Repr

/-- `hash * 31 + filename[i]` in `uint32_t`, with `char` signed as on x86-64. -/
def hashStep (hash : Nat) (b : UInt8) : Nat :=
  (hash * 31 + if b.toNat < 128 then b.toNat else b.toNat + (2 ^ 32 - 256)) % 2 ^ 32

/-- The four bytes of a `uint32_t` in memory, least significant first. -/
def u32Bytes (x : Nat) : List UInt8 :=
  [x.toUInt8, (x / 256).toUInt8, (x / 65536).toUInt8, (x / 16777216).toUInt8]

/-- `generate_nfs_file_handle(filename, fh)` into a zeroed handle: length 8, the hash of the
whole name and the hash XOR `0xdeadbeef`. Reference: part_002:137. -/
def generateNfsFileHandle (filename : List UInt8) : NfsFh :=
  let hash := (cstr filename).foldl hashStep 0
  ⟨8, u32Bytes hash ++ u32Bytes (hash ^^^ 0xdeadbeef) ++ List.replicate 56 0⟩

/-- The entry `cache_file_in_kernel` fills for a file read whole, at wall-clock second `w`.
Reference: part_002:181-203. -/
def cacheEntry (filename : List UInt8) (st : FileStat) (data : List UInt8) (w : Nat) :
    NfsFileCacheEntry :=
  { filename := zeroPad maxFilenameLen ((cstr filename).take (maxFilenameLen - 1))
    fh := generateNfsFileHandle filename
    attr :=
      { type := if sIsDir st.mode then 2 else 1
        mode := st.mode % 2 ^ 32
        nlink := st.nlink % 2 ^ 32
        uid := st.uid % 2 ^ 32
        gid := st.gid % 2 ^ 32
        size := st.size % 2 ^ 64
        used := st.blocks * 512 % 2 ^ 64
        fsid := 1
        fileid := st.ino % 2 ^ 64
        atimeSec := st.atime % 2 ^ 64
        atimeNsec := 0
        mtimeSec := st.mtime % 2 ^ 64
        mtimeNsec := 0
        ctimeSec := st.ctime % 2 ^ 64
        ctimeNsec := 0 }
    dataSize := st.size % 2 ^ 32
    data := zeroPad maxNfsDataSize data
    cacheTime := w * 1000000000 % 2 ^ 64
    cacheHits := 0
    valid := 1
    dataValid := 1 }

/-- `cache_file_in_kernel(skel, filename)` of `nfs_server.c`. `filename` is the 256 bytes at the
caller's pointer, which both maps read whole as key and value. Reference: part_002:152. -/
def cacheFileInKernel (env : Env) (fs : FileSys) (filename : List UInt8) : NfsProg Int :=
  if !env.enableKernelCache then pure 0
  else match fs (joinPath env.exportRoot filename) with
    | none => pure (-1)
    | some st =>
      if !sIsReg st.mode then pure (-1)
      else if maxNfsDataSize < st.size then pure (-1)
      else if !st.openOk then pure (-1)
      else match st.read st.size with
        | none => pure (-1)
        | some data =>
          if data.length ≠ st.size then pure (-1)
          else .act .time fun w =>
            .act (.updateCache filename (cacheEntry filename st data w)) fun ok =>
              if !ok then pure (-1)
              else .act (.updateFhName (generateNfsFileHandle filename) filename) fun ok =>
                if !ok then pure (-1) else pure 0

/-- `cache_file_in_kernel` either returns at once or, having read a regular file of at most
`MAX_NFS_DATA_SIZE` bytes whole, goes on to install it: the two map updates after `time(NULL)`. -/
theorem cacheFileInKernel_cases (env : Env) (fs : FileSys) (filename : List UInt8) :
    (env.enableKernelCache = false ∧ cacheFileInKernel env fs filename = pure 0) ∨
    cacheFileInKernel env fs filename = pure (-1) ∨
    ∃ st data, env.enableKernelCache = true ∧ fs (joinPath env.exportRoot filename) = some st ∧
      sIsReg st.mode = true ∧ st.size ≤ maxNfsDataSize ∧ st.openOk = true ∧
      st.read st.size = some data ∧ data.length = st.size ∧
      cacheFileInKernel env fs filename =
        .act .time fun w =>
          .act (.updateCache filename (cacheEntry filename st data w)) fun ok =>
            if !ok then pure (-1)
            else .act (.updateFhName (generateNfsFileHandle filename) filename) fun ok =>
              if !ok then pure (-1) else pure 0 := by
  unfold cacheFileInKernel
  rcases env with ⟨root, _ | _⟩
  · exact .inl ⟨rfl, rfl⟩
  refine .inr ?_
  rcases hst : fs (joinPath root filename) with _ | st
  · exact .inl rfl
  by_cases hreg : sIsReg st.mode = true
  swap; · exact .inl (by simp [hreg])
  by_cases hsz : st.size ≤ maxNfsDataSize
  swap; · exact .inl (by simp [hreg, not_le.1 hsz])
  by_cases hopen : st.openOk = true
  swap; · exact .inl (by simp [hreg, not_lt.2 hsz, hopen])
  rcases hread : st.read st.size with _ | data
  · exact .inl (by simp [hreg, not_lt.2 hsz, hopen, hread])
  by_cases hlen : data.length = st.size
  swap; · exact .inl (by simp [hreg, not_lt.2 hsz, hopen, hread, hlen])
  exact .inr ⟨st, data, rfl, rfl, hreg, hsz, hopen, hread, hlen,
    by simp [hreg, not_lt.2 hsz, hopen, hread, hlen]⟩

/-- One pass of `ring_buffer__poll` that hands a record to `handle_event`. -/
def pollEvent : NfsProg Unit := .act .consume .ret

end NfsServer

end EbpfNfs
