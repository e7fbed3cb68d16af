import EbpfNfs.Bytes

/-!
# The file tree the control planes read

The control planes `stat`, `open` and `read` files under a root directory. A `FileSys` answers
`stat` for each path; what `open` and a `read` from offset 0 then return is part of the answer, so
that a file can change between the `stat` and the `read`, or fail to open, as a real one can.
-/

namespace EbpfNfs

/-- What `stat` reports for a path, and what opening and reading it from offset 0 give. -/
structure FileStat where
  mode : Nat
  nlink : Nat
  uid : Nat
  gid : Nat
  size : Nat
  blocks : Nat
  ino : Nat
  atime : Nat
  mtime : Nat
  ctime : Nat
  /-- `open(path, O_RDONLY)` succeeds. -/
  openOk : Bool
  /-- `read` returns bytes rather than `-1`. -/
  readOk : Bool
  /-- The bytes a read from offset 0 returns, up to the count asked for. -/
  contents : List UInt8
  deriving DecidableEq, Repr

/-- `stat(path)` for every path; `none` is a failing `stat`. -/
abbrev FileSys := List UInt8 → Option FileStat

/-- `S_ISREG(m)`. -/
def sIsReg (m : Nat) : Bool := m / 4096 % 16 == 8

/-- `S_ISDIR(m)`. -/
def sIsDir (m : Nat) : Bool := m / 4096 % 16 == 4

/-- `read(fd, buf, n)` on a file just opened: the bytes read, or `none` for `-1`. -/
def FileStat.read (st : FileStat) (n : Nat) : Option (List UInt8) :=
  if st.readOk then some (st.contents.take n) else none

/-- `snprintf(path, 512, "%s/%s", root, name)`: at most 511 bytes and a NUL. -/
def joinPath (root name : List UInt8) : List UInt8 := (cstr root ++ ascii "/" ++ cstr name).take 511

/-- `strstr(s, t) != NULL`. -/
def hasInfix (s t : List UInt8) : Bool := s.tails.any (t.isPrefixOf ·)

end EbpfNfs
