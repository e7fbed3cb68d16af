import EbpfNfs.Http.System

/-!
# The file cache holds well-formed entries

`file_cache` is written only by `cache_file_in_kernel` of `fileserver.c`, which `handle_http_request`
calls with the 256-byte name it derived from the request path, and the kernel stores into an entry
only its `cache_hits`. Over every interleaving every entry is valid, holds at most
`MAX_PACKET_SIZE` bytes, and names its own key (`httpCache_wellFormed`).

The name `cache_file_in_kernel` stores, `strncpy` of at most 255 bytes of the key into a zeroed
buffer, is the key itself because the key is a zero-padded run of at most 255 non-NUL bytes
(`requestFilename_stored`): the path comes from a C string.
-/

namespace EbpfNfs

open Prog

/-- Every entry of a file cache is valid, within `MAX_PACKET_SIZE`, and names its key. -/
def HttpCacheOk (m : BpfHash (List UInt8) FileCacheEntry) : Prop :=
  ∀ k i e, m.lookup k = some (i, e) →
    e.valid = 1 ∧ e.fileSize ≤ FileServer.maxPacketSize ∧ e.filename = k

/-- A zero-padded name of at most 255 non-NUL bytes survives `strncpy` into a zeroed buffer. -/
theorem zeroPad_cstr_take {x : List UInt8} (hx : ∀ b ∈ x, b ≠ 0) (hl : x.length ≤ 255) :
    zeroPad maxFilenameLen ((cstr (zeroPad maxFilenameLen x)).take (maxFilenameLen - 1)) =
      zeroPad maxFilenameLen x := by
  rw [cstr_zeroPad hx (by simp only [maxFilenameLen]; omega),
    List.take_of_length_le (show x.length ≤ maxFilenameLen - 1 from hl)]

/-- The name `cache_file_in_kernel` stores for a key `handle_http_request` derives from a path
with no NUL is the key. Reference: part_001:234. -/
theorem requestFilename_stored {path : List UInt8} (hp : ∀ b ∈ path, b ≠ 0) :
    zeroPad maxFilenameLen ((cstr (FileServer.requestFilename path)).take (maxFilenameLen - 1)) =
      FileServer.requestFilename path := by
  unfold FileServer.requestFilename
  split_ifs
  · exact zeroPad_cstr_take (by decide) (by decide)
  · exact zeroPad_cstr_take (fun b hb => hp b (List.mem_of_mem_drop (List.mem_of_mem_take hb)))
      (List.length_take_le _ _)

variable {m : BpfHash (List UInt8) FileCacheEntry}

/-- `cache_file_in_kernel` keeps the cache well formed when the name it is given survives its
`strncpy`. -/
theorem cacheFileInKernel_cacheOk (hm : HttpCacheOk m) (env : FileServer.Env) (fs : FileSys)
    {filename : List UInt8}
    (hf : zeroPad maxFilenameLen ((cstr filename).take (maxFilenameLen - 1)) = filename) :
    HttpCacheOk (FileServer.cacheFileInKernel env fs filename m).2 := by
  unfold FileServer.cacheFileInKernel
  repeat' split
  all_goals try exact hm
  intro k i e hk
  simp only at hk
  split at hk
  · exact hm k i e hk
  · next m' hu =>
    rw [BpfHash.update_lookup hu] at hk
    split_ifs at hk with he
    · cases hk
      exact ⟨rfl, (Nat.mod_le _ _).trans (not_lt.1 (not_or.1 ‹¬(_ ∨ _)›).2), he ▸ hf⟩
    · exact hm k i e hk

/-- `handle_http_request` keeps the cache well formed. -/
theorem handleHttpRequest_cacheOk (hm : HttpCacheOk m) (env : FileServer.Env) (fs : FileSys)
    (request : List UInt8) (st : FileServer.Stats) :
    HttpCacheOk (FileServer.handleHttpRequest env fs request m st).2.1 := by
  unfold FileServer.handleHttpRequest
  split
  · exact hm
  next method path version hs =>
    have hp : ∀ b ∈ path, b ≠ 0 := fun b hb => by
      simpa using List.mem_takeWhile_imp (FileServer.scanRequestLine_subset hs hb)
    split_ifs
    · exact cacheFileInKernel_cacheOk hm env fs (requestFilename_stored hp)
    · exact hm

/-- Every reachable state of the file-server system: every `file_cache` entry has `valid = 1`,
`file_size ≤ MAX_PACKET_SIZE` and a `filename` equal to its key. -/
theorem httpCache_wellFormed {cfg : HttpConfig} {env : FileServer.Env} {clock : Nat}
    {s : Pool HttpAct HttpAct.Res HttpMaps}
    (h : (httpSystem cfg env).Reachable (HttpMaps.init clock) s) : HttpCacheOk s.maps.fileCache := by
  refine (httpSystem cfg env).log_inv_reachable (fun m _ => HttpCacheOk m.fileCache)
    (by simp [HttpCacheOk, HttpMaps.init]) (fun t a m _ hm => ?_) (fun _ _ _ hm => hm) h
  cases a with
  | storeHits i v =>
    intro k j e hk
    simp only [httpSystem, HttpAct.exec, BpfHash.modify_lookup, Option.map_eq_some'] at hk
    obtain ⟨⟨j', e'⟩, hl, hp⟩ := hk
    split_ifs at hp <;> cases hp
    · exact hm k _ e' hl
    · exact hm k _ _ hl
  | handleRequest env' fs request => exact handleHttpRequest_cacheOk hm env' fs request m.user
  | consume =>
    show HttpCacheOk (HttpAct.exec t .consume m).2.fileCache
    simp only [HttpAct.exec]
    split <;> exact hm
  | _ => exact hm

end EbpfNfs
