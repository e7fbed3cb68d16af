import Mathlib.Algebra.Order.BigOperators.Group.Finset

/-!
# Bytes, C buffers and machine words

Both BPF programs read a frame as the bytes from `skb->data` to `skb->data_end`, and both name
files by fixed `char[MAX_FILENAME_LEN]` buffers that serve as map keys. Both are `List UInt8`
here: a frame is its bytes, a buffer the bytes a helper reads through a `char *`. The C string
a buffer holds is its prefix before the first NUL (`cstr`); a buffer that starts zeroed and
receives a string is `zeroPad`. Machine words are `Nat`s, reduced modulo `2^w` wherever the C
arithmetic wraps.

The sources: `fileserver.bpf.c` (src/src); `fileserver.h` and `nfs_server.h` (part_000);
`fileserver.c` (part_001); `nfs_server.c` (part_002); `nfs_server.bpf.c`, which
`test_nfs_server.sh` writes out from its line 312 on. A reference `file:line` gives the line in
the file under src/ that holds the code.
-/

namespace EbpfNfs

/-- The bytes of an ASCII string, as the compiler lays out a C string literal. -/
def ascii (s : String) : List UInt8 := s.toList.map fun c => c.toNat.toUInt8

/-- Byte `i` of a buffer as a number. Both programs bound-check before they read, so the
default of a read past the end is never observed. -/
def byteAt (b : List UInt8) (i : Nat) : Nat := (b.getD i 0).toNat

/-- The big-endian 16-bit field at offset `i`: what `bpf_ntohs` makes of a `__be16`, and the
value `bpf_htons(c)` is compared against. -/
def be16 (b : List UInt8) (i : Nat) : Nat := byteAt b i * 256 + byteAt b (i + 1)

/-- The big-endian 32-bit field at offset `i`, as `bpf_ntohl` and `ntohl` decode it.
Reference: `extract_be32`, test_nfs_server.sh:383; `xdr_decode_u32`, part_002:129. -/
def be32 (b : List UInt8) (i : Nat) : Nat := be16 b i * 65536 + be16 b (i + 2)

/-- The 16-bit field at offset `i` as a little-endian host loads it: the raw `__be16` a program
copies into an event without conversion (`tcp->source`). -/
def le16 (b : List UInt8) (i : Nat) : Nat := byteAt b i + byteAt b (i + 1) * 256

/-- The 32-bit field at offset `i` as a little-endian host loads it (`ip->saddr`). -/
def le32 (b : List UInt8) (i : Nat) : Nat := le16 b i + le16 b (i + 2) * 65536

/-- `isspace` in the C locale: space, `\t`, `\n`, `\v`, `\f` and `\r`. -/
def isSpace (b : UInt8) : Bool := b == 32 || (9 ≤ b && b ≤ 13)

/-- The C string a buffer holds: its bytes before the first NUL. -/
def cstr (b : List UInt8) : List UInt8 := b.takeWhile (· ≠ 0)

/-- A zeroed `char[n]` that received the bytes `s` from its start. -/
def zeroPad (n : Nat) (s : List UInt8) : List UInt8 :=
  s.take n ++ List.replicate (n - s.length) 0

/-- `MAX_FILENAME_LEN`, the size of every file-name buffer and file-name map key.
Reference: part_000:6, part_000:103. -/
def maxFilenameLen : Nat := 256

/-- The 256-byte key a zeroed file-name buffer holding `s` makes. -/
def nameKey (s : List UInt8) : List UInt8 := zeroPad maxFilenameLen s

/-- `a - b` in `__u64` arithmetic, for `a b < 2^64`. -/
def subU64 (a b : Nat) : Nat := (a + (2 ^ 64 - b % 2 ^ 64)) % 2 ^ 64

/-! ## Lemmas -/

@[simp] theorem ascii_length (s : String) : (ascii s).length = s.length := by
  rw [ascii, List.length_map]; rfl

@[simp] theorem zeroPad_length (n : Nat) (s : List UInt8) : (zeroPad n s).length = n := by
  simp only [zeroPad, List.length_append, List.length_take, List.length_replicate]; omega

@[simp] theorem nameKey_length (s : List UInt8) : (nameKey s).length = maxFilenameLen :=
  zeroPad_length _ _

/-- A zero-padded buffer reads back as the string it received when that string has no NUL. -/
theorem cstr_zeroPad {n : Nat} {s : List UInt8} (hs : ∀ b ∈ s, b ≠ 0) (hn : s.length ≤ n) :
    cstr (zeroPad n s) = s := by
  rw [cstr, zeroPad, List.take_of_length_le hn, List.takeWhile_append_of_pos (by simpa using hs)]
  cases h : n - s.length with
  | zero => simp
  | succ m => simp [List.replicate_succ]

/-- Zero-padding is injective on NUL-free strings that fit. -/
theorem zeroPad_inj {n : Nat} {s t : List UInt8} (hs : ∀ b ∈ s, b ≠ 0) (ht : ∀ b ∈ t, b ≠ 0)
    (hsn : s.length ≤ n) (htn : t.length ≤ n) : zeroPad n s = zeroPad n t ↔ s = t := by
  refine ⟨fun h => ?_, fun h => h ▸ rfl⟩
  rw [← cstr_zeroPad hs hsn, ← cstr_zeroPad ht htn, h]

theorem byteAt_take {b : List UInt8} {n i : Nat} (h : i < n) : byteAt (b.take n) i = byteAt b i := by
  simp [byteAt, List.getD_eq_getElem?_getD, List.getElem?_take, h]

theorem be32_take {b : List UInt8} {n i : Nat} (h : i + 4 ≤ n) : be32 (b.take n) i = be32 b i := by
  simp only [be32, be16, byteAt_take (show i < n by omega), byteAt_take (show i + 1 < n by omega),
    byteAt_take (show i + 2 < n by omega), byteAt_take (show i + 2 + 1 < n by omega)]

end EbpfNfs
