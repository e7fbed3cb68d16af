import EbpfNfs.Nfs.Server

/-!
# The two file-handle generators

The BPF object carries its own `generate_file_handle` beside the control plane's
`generate_nfs_file_handle`. Both set the length to 8 and store a 32-bit rolling hash of the name
and that hash XOR `0xdeadbeef`, but the BPF loop leaves after it has added byte 3, so it hashes
at most the first four bytes of the name (`fileHandleLoop_eq`). The two handles therefore agree
exactly when the name's hash is that of its first four bytes (`fileHandles_agree_iff`): on
every name of at most four bytes, and not on `test.txt` (`fileHandles_differ_test_txt`).

No program of the object calls `generate_file_handle`: `nfs_server_tc` zeroes the handle of
every request record it fills (`nfsRequestOf`), so the kernel derives no handle of its own.
-/

namespace EbpfNfs

open NfsServer

/-- The loop of `generate_file_handle` at index `i` with the hash so far, over the bytes from
`filename[i]` on: it stops at the NUL or at `MAX_FILENAME_LEN`, and breaks once it has added
byte 3. -/
def fileHandleLoop : Nat → Nat → List UInt8 → Nat
  | _, hash, [] => hash
  | i, hash, b :: rest =>
    if maxFilenameLen ≤ i ∨ b = 0 then hash
    else if 3 ≤ i then hashStep hash b
    else fileHandleLoop (i + 1) (hashStep hash b) rest

/-- `generate_file_handle(filename, fh)` of the BPF object: length 8, the hash and the hash XOR
`0xdeadbeef` in the first eight bytes, the rest of the caller's handle as it was.
Reference: test_nfs_server.sh:420-433. -/
def generateFileHandle (filename : List UInt8) (fh : NfsFh) : NfsFh :=
  let hash := fileHandleLoop 0 0 filename
  ⟨8, u32Bytes hash ++ u32Bytes (hash ^^^ 0xdeadbeef) ++ fh.data.drop 8⟩

/-! ## The loops as folds -/

/-- From index `i < 4` the BPF loop adds the name's bytes up to its NUL, at most `4 - i` of
them. -/
theorem fileHandleLoop_eq {i : Nat} (hi : i < 4) (hash : Nat) (l : List UInt8) :
    fileHandleLoop i hash l = ((cstr l).take (4 - i)).foldl hashStep hash := by
  induction l generalizing i hash with
  | nil => simp [fileHandleLoop, cstr]
  | cons b rest ih =>
    by_cases hb : b = 0
    · simp [fileHandleLoop, cstr, hb]
    have hcstr : cstr (b :: rest) = b :: cstr rest := by simp [cstr, hb]
    have htake : (cstr (b :: rest)).take (4 - i) = b :: (cstr rest).take (3 - i) := by
      rw [hcstr, show 4 - i = 3 - i + 1 by omega, List.take_succ_cons]
    rw [fileHandleLoop, if_neg (by simp only [maxFilenameLen, hb, or_false]; omega), htake,
      List.foldl_cons]
    split_ifs with h3
    · rw [show 3 - i = 0 by omega, List.take_zero, List.foldl_nil]
    · rw [ih (by omega), show 4 - (i + 1) = 3 - i by omega]

theorem hashStep_lt (hash : Nat) (b : UInt8) : hashStep hash b < 2 ^ 32 := Nat.mod_lt _ (by decide)

/-- A fold of `hashStep` from a 32-bit hash stays below `2 ^ 32`. -/
theorem foldl_hashStep_lt {hash : Nat} (h : hash < 2 ^ 32) (l : List UInt8) :
    l.foldl hashStep hash < 2 ^ 32 := by
  induction l generalizing hash with
  | nil => exact h
  | cons b l ih => exact ih (hashStep_lt hash b)

/-- The four bytes of a 32-bit value determine it. -/
theorem u32Bytes_inj {x y : Nat} (hx : x < 2 ^ 32) (hy : y < 2 ^ 32)
    (h : u32Bytes x = u32Bytes y) : x = y := by
  simp only [u32Bytes, List.cons.injEq, and_true] at h
  obtain ⟨h0, h1, h2, h3⟩ := h
  have h0 := congrArg UInt8.toNat h0
  have h1 := congrArg UInt8.toNat h1
  have h2 := congrArg UInt8.toNat h2
  have h3 := congrArg UInt8.toNat h3
  simp only [show ∀ n : Nat, n.toUInt8.toNat = n % 256 from fun _ => rfl] at h0 h1 h2 h3
  omega

/-! ## The two handles -/

/-- For every name and every handle the BPF helper writes into, its handle has the length of the
control plane's, and the first eight bytes of the two agree exactly when the hash of the name's
first four bytes is the hash of the whole name, as it is on every name of at most four bytes. -/
theorem fileHandles_agree_iff (s : List UInt8) (fh : NfsFh) :
    (generateFileHandle s fh).len = (generateNfsFileHandle s).len ∧
      ((generateFileHandle s fh).data.take 8 = (generateNfsFileHandle s).data.take 8 ↔
        ((cstr s).take 4).foldl hashStep 0 = (cstr s).foldl hashStep 0) := by
  have h4 := foldl_hashStep_lt (show 0 < 2 ^ 32 by decide) ((cstr s).take 4)
  have hall := foldl_hashStep_lt (show 0 < 2 ^ 32 by decide) (cstr s)
  have htake : ∀ x y (r : List UInt8), (u32Bytes x ++ u32Bytes y ++ r).take 8 =
      u32Bytes x ++ u32Bytes y := fun _ _ r => List.take_left' (by rfl)
  refine ⟨rfl, ?_⟩
  simp only [generateFileHandle, generateNfsFileHandle, fileHandleLoop_eq (by decide : 0 < 4),
    htake]
  constructor
  · intro h
    exact u32Bytes_inj h4 hall (List.append_inj h rfl).1
  · intro h
    rw [h]

/-- `test.txt`: the BPF helper hashes `test`, the control plane `test.txt`. -/
theorem fileHandles_differ_test_txt :
    (generateFileHandle (nameKey (ascii "test.txt")) NfsFh.zero).data.take 8 ≠
      (generateNfsFileHandle (nameKey (ascii "test.txt"))).data.take 8 := by
  decide

end EbpfNfs
