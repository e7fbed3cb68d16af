import EbpfNfs.Bytes

/-!
# The records of `fileserver.h`

The cache entry the control plane installs in `file_cache`, and the two records the kernel
commits to the `events` ring.
-/

namespace EbpfNfs

/-- `struct file_cache_entry` (part_000:65). -/
structure FileCacheEntry where
  filename : List UInt8
  fileSize : Nat
  lastModified : Nat
  cachedData : List UInt8
  cacheHits : Nat
  valid : Nat
  deriving DecidableEq, Repr

/-- `struct http_request` (part_000:43). Its `headers` are never written and no reader looks at
them, so they are left out. -/
structure HttpRequest where
  srcAddr : Nat
  srcPort : Nat
  method : Nat
  processedInKernel : Nat
  filename : List UInt8
  contentLength : Nat
  deriving DecidableEq, Repr

/-- `struct file_event` (part_000:54). -/
structure FileEvent where
  clientAddr : Nat
  clientPort : Nat
  operation : Nat
  filename : List UInt8
  fileSize : Nat
  timestamp : Nat
  forwardedToUser : Nat
  deriving DecidableEq, Repr

/-- A record of the `events` ring. The two structures differ in size, which is how the
consumer tells them apart. -/
inductive HttpRecord where
  | request (r : HttpRequest)
  | fileEvent (e : FileEvent)
  deriving DecidableEq, Repr

/-- `enum file_op_result` (part_000:20): the codes the programs write. -/
def fileOpSuccess : Nat := 0
/-- `FILE_OP_NOT_FOUND`. -/
def fileOpNotFound : Nat := 1
/-- `FILE_OP_FORWARD_TO_USER`. -/
def fileOpForwardToUser : Nat := 4

end EbpfNfs
