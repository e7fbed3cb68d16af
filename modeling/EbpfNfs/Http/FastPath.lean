import EbpfNfs.Http.Keys
import EbpfNfs.Servers

/-!
# The file server's kernel path hits what its control plane caches

`handle_http_request` copies the file a `GET` names into `file_cache` before serving it
(`cache_file_in_kernel`), and `fileserver_ingress` looks the next `GET` up in `file_cache`. For a
request `GET /u ...` whose name `u` is short enough for the kernel's bounded scan, both key the
file by `u` (`requestKeys_short`, from `Http.Keys`). So once the control plane has cached the file,
the next invocation of `fileserver_ingress` on a frame carrying the same request takes the
cache-hit branch and commits its request record with `processed_in_kernel = 1`
(`cachedRequest_hits`), whatever else the maps hold. The pieces: the cache-hit branch of the
decision (`ingressDecision_hit`), and the record a run of the program commits last
(`fileserverIngress_lastEvent`).
-/

namespace EbpfNfs

open Prog

/-- What `fileserver_ingress` keeps of a frame it parses: the 16-bit length of the payload and the
method `parse_http_method` reads from it. -/
theorem httpFrame_fields {f : List UInt8} {v : HttpFrame} (h : httpFrame f = some v) :
    v.payloadLen = v.payload.length % 2 ^ 16 ∧ v.method = parseHttpMethod v.payload v.payloadLen := by
  simp only [httpFrame, Option.ite_none_left_eq_some, Option.some.injEq] at h
  obtain ⟨-, -, -, -, -, -, -, rfl⟩ := h
  simp

/-- The cache-hit branch of the decision: a `GET` for a name `check_file_exists` accepts, whose
`file_cache` element is valid, is processed in the kernel. -/
theorem ingressDecision_hit {cfg : HttpConfig} {v : HttpFrame} {filename : List UInt8} {s : HttpMaps}
    {i : Nat} {e : FileCacheEntry} (hk : cfg.enableKernelProcessing ≠ 0) (hm : v.method = httpGet)
    (hc : checkFileExists filename = true) (hl : s.fileCache.lookup filename = some (i, e))
    (he : e.valid ≠ 0) (tid : Nat) (o : List Bool) :
    (Prog.run (HttpAct.exec tid) (ingressDecision cfg v filename) o s).1 = 1 := by
  rw [ingressDecision, if_pos ⟨hk, hm⟩, if_pos hc, run_act]
  simp only [HttpAct.exec, hl, if_pos he]
  exact Returns.run (by simp [cacheHit, emitFileEvent, HttpProg.statAdd, HttpProg.reserve, HttpProg.ktime, HttpProg.submit, returns_bind_true, returns_ite]) _ _

/-- A run of `fileserver_ingress` on a frame it parses, with room in the ring, ends by committing
the request record with the `processed_in_kernel` its decision returned from the state the first
`update_stats` left. -/
theorem fileserverIngress_lastEvent {cfg : HttpConfig} {f : List UInt8} {v : HttpFrame}
    (h : httpFrame f = some v) (o : List Bool) (s : HttpMaps) :
    (HttpProg.runAlone (fileserverIngress cfg f) (true :: o) s).2.2.events.getLast? =
      some (0, .request (ingressRequest v (ingressFilename v.payload v.payloadLen)
        (Prog.run (HttpAct.exec 0) (ingressDecision cfg v (ingressFilename v.payload v.payloadLen)) o
          (HttpAct.exec 0 (.statAdd 0) s).2).1)) := by
  simp only [HttpProg.runAlone, fileserverIngress, h, HttpProg.statAdd, HttpProg.reserve, HttpProg.ktime,
    HttpProg.submit, run_bind, run_act, run_choose, run_ret, List.headD_cons, List.tail_cons, Bool.not_true,
    Bool.false_eq_true, if_false]
  simp [HttpAct.exec]

/-- `handle_http_request` on a `GET` caches the file under the key it builds from the path. -/
theorem handleHttpRequest_getCache {env : FileServer.Env} {fs : FileSys} {req : List UInt8}
    {c : BpfHash (List UInt8) FileCacheEntry} {st : FileServer.Stats} {path ver : List UInt8}
    (h : FileServer.scanRequestLine (cstr req) = some (ascii "GET", path, ver)) :
    (FileServer.handleHttpRequest env fs req c st).2.1 =
      (FileServer.cacheFileInKernel env fs (FileServer.requestFilename path) c).2 := by
  simp [FileServer.handleHttpRequest, h]

/-- For `GET /u ...` with `u` a short name, the kernel and the control plane key the file by
`u`. -/
theorem requestKeys_short {u rest : List UInt8} (hu : ∀ b ∈ u, b ≠ 0 ∧ isSpace b = false ∧ b ≠ 63)
    (hne : u ≠ []) (h8 : u.length ≤ 8) :
    ingressFilename (ascii "GET /" ++ u ++ 32 :: rest) (ascii "GET /" ++ u ++ 32 :: rest).length =
        nameKey u ∧
      FileServer.requestFilename ((47 :: u).take 255) = nameKey u := by
  have hreq : FileServer.requestFilename ((47 :: u).take 255) = nameKey u := by
    rw [requestFilename_take, if_neg fun h => hne h.2, List.take_of_length_le (by omega)]
    rfl
  refine ⟨?_, hreq⟩
  rw [← hreq, show ascii "GET /" ++ u ++ 32 :: rest = ascii "GET" ++ [32] ++ 47 :: u ++ 32 :: rest
    from rfl, ingressFilename, extractFilename_slash]
  exact (slashKey_eq_iff (fun b hb => ⟨(hu b hb).1, (hu b hb).2.1⟩) (by decide) rfl).2
    ⟨fun h => (hu _ h).2.2 rfl, h8, .inr rfl⟩

/-- With kernel caching on, `cache_file_in_kernel` returns 0 only after installing a valid element
under the name. -/
theorem FileServer.cacheFileInKernel_eq_zero {env : FileServer.Env} {fs : FileSys}
    {filename : List UInt8} {m : BpfHash (List UInt8) FileCacheEntry}
    (hon : env.enableKernelCache = true) (h : (FileServer.cacheFileInKernel env fs filename m).1 = 0) :
    ∃ e : FileCacheEntry, e.valid = 1 ∧
      m.update filename e = some (FileServer.cacheFileInKernel env fs filename m).2 := by
  unfold FileServer.cacheFileInKernel at h ⊢
  simp only [hon, Bool.not_true, Bool.false_eq_true, if_false] at h ⊢
  rcases hf : fs (joinPath env.documentRoot filename) with _ | f <;> simp only [hf] at h ⊢
  · cases h
  split_ifs at h ⊢
  · cases h
  · cases h
  rcases hd : f.read f.size with _ | data <;> simp only [hd] at h ⊢
  · cases h
  split_ifs at h ⊢
  · cases h
  split at h
  · cases h
  exact ⟨_, rfl, ‹_›⟩

/-- After `handle_http_request` has cached the file of `GET /u ...`, with `u` a short name that
`check_file_exists` accepts, the next `fileserver_ingress` on a frame carrying that request, with
kernel processing on and room in the ring, commits its request record as processed in the
kernel. -/
theorem cachedRequest_hits (cfg : HttpConfig) (hk : cfg.enableKernelProcessing ≠ 0)
    (env : FileServer.Env) (hon : env.enableKernelCache = true) (fs : FileSys)
    {frame : List UInt8} {v : HttpFrame} (hv : httpFrame frame = some v)
    {u rest : List UInt8} (hp : v.payload = ascii "GET /" ++ u ++ 32 :: rest)
    (hlen : v.payload.length < 2 ^ 16) (hu : ∀ b ∈ u, b ≠ 0 ∧ isSpace b = false ∧ b ≠ 63)
    (h8 : u.length ≤ 8) (hname : checkFileExists (nameKey u) = true)
    (hparse : (FileServer.scanRequestLine (cstr (FileServer.received v.payload))).isSome)
    (tid : Nat) (s : HttpMaps)
    (hc : (FileServer.cacheFileInKernel env fs (nameKey u) s.fileCache).1 = 0) (o : List Bool) :
    (HttpProg.runAlone (fileserverIngress cfg frame) (true :: o)
        (HttpAct.exec tid (.handleRequest env fs (FileServer.received v.payload)) s).2).2.2.events.getLast? =
      some (0, .request (ingressRequest v (nameKey u) 1)) := by
  have hne : u ≠ [] := by rintro rfl; exact absurd hname (by decide)
  obtain ⟨hkey, hreq⟩ := @requestKeys_short u rest hu hne h8
  obtain ⟨hpl, hmeth⟩ := httpFrame_fields hv
  rw [Nat.mod_eq_of_lt hlen] at hpl
  have hfn : ingressFilename v.payload v.payloadLen = nameKey u := by rw [hpl, hp]; exact hkey
  have hget : v.method = httpGet := by
    have h5 : (ascii "GET /").length = 5 := rfl
    have hl3 : ¬((ascii "GET /" ++ u ++ 32 :: rest).length < 3 ∨
        (ascii "GET /" ++ u ++ 32 :: rest).length < 3) := by
      simp only [List.length_append, h5, List.length_cons]; omega
    rw [hmeth, hpl, hp, parseHttpMethod, if_neg hl3]
    exact if_pos rfl
  -- the control plane parses `GET /u` and caches the file under `u`
  obtain ⟨⟨m, path, ver⟩, hsc⟩ := Option.isSome_iff_exists.1 hparse
  have htok : ∀ b ∈ 47 :: u, b ≠ 0 ∧ isSpace b = false := by
    simp only [List.mem_cons, forall_eq_or_imp]
    exact ⟨⟨by decide, by decide⟩, fun b hb => ⟨(hu b hb).1, (hu b hb).2.1⟩⟩
  obtain ⟨rfl, rfl⟩ := @FileServer.scanRequestLine_get [32] (47 :: u) rest _ _ _ 32
    ⟨List.cons_ne_nil _ _, by decide⟩ ⟨List.cons_ne_nil _ _, htok⟩ (by decide) (by rw [hp] at hsc; exact hsc)
  have hcache : (HttpAct.exec tid (.handleRequest env fs (FileServer.received v.payload)) s).2.fileCache =
      (FileServer.cacheFileInKernel env fs (nameKey u) s.fileCache).2 := by
    simp only [HttpAct.exec]
    rw [handleHttpRequest_getCache hsc, hreq]
  obtain ⟨e, he, hm⟩ := FileServer.cacheFileInKernel_eq_zero hon hc
  have hlk := BpfHash.update_lookup hm (nameKey u)
  rw [if_pos rfl, ← hcache] at hlk
  -- the first update_stats leaves the cache as the request left it
  have hlk' : (HttpAct.exec 0 (.statAdd 0)
      (HttpAct.exec tid (.handleRequest env fs (FileServer.received v.payload)) s).2).2.fileCache.lookup
        (nameKey u) = _ := hlk
  rw [fileserverIngress_lastEvent hv, hfn, ingressDecision_hit hk hget hname hlk' (he ▸ Nat.one_ne_zero) 0 o]

theorem cachedRequest_hits_getFrame :
    ∃ v, httpFrame httpGetFrame = some v ∧
      (HttpProg.runAlone (fileserverIngress ⟨1⟩ httpGetFrame) [true]
          (HttpAct.exec 0 (.handleRequest ⟨ascii "/srv", true⟩ testFs (FileServer.received v.payload))
            (HttpMaps.init 0)).2).2.2.events.getLast? =
        some (0, .request (ingressRequest v (nameKey (ascii "test.txt")) 1)) :=
  ⟨_, rfl, @cachedRequest_hits ⟨1⟩ (by decide) ⟨ascii "/srv", true⟩ rfl testFs httpGetFrame _ rfl
    (ascii "test.txt") (ascii "HTTP/1.1\r\n\r\n") (by decide) (by decide) (by decide) (by decide)
    (by decide) (by decide) 0 (HttpMaps.init 0) (by decide) []⟩

end EbpfNfs
