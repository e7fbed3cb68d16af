import EbpfNfs.Http.System

/-!
# The file-server counters and the ring over whole runs

Over every interleaving of the file-server system: `stats[i]` is the number of `update_stats(i)`
calls made, modulo `2 ^ 64` (`httpStats_eq`); the calls on `stats[1]`, `stats[2]` and `stats[3]`
are at most those on `stats[0]`, in every state (`httpStatCalls_le`); a finished invocation
counted `stats[1]` exactly when it committed a request record with `processed_in_kernel = 1`
(`httpRecords_of_finished`); and the `kernel_processed` of `handle_event` is `stats[1]` once
every invocation has finished and the ring is drained (`httpKernelProcessed_eq`).
-/

namespace EbpfNfs

open Prog

/-- The served request records among the records are the requests processed in the kernel. -/
theorem countP_servedInKernel (l : List (Ev HttpAct HttpAct.Res)) :
    (recordsOf HttpAct.committed l).countP HttpRecord.servedInKernel =
      (recordsOf HttpAct.request l).countP fun q => q.processedInKernel != 0 := by
  induction l with
  | nil => rfl
  | cons e l ih =>
    rcases e with ⟨a, r⟩
    cases a <;> simp [HttpAct.committed, HttpAct.request, ih]
    case submit rec =>
      cases rec <;>
        simp [HttpRecord.servedInKernel, HttpRecord.requestOf, List.countP_cons, ih, add_comm]

theorem HttpFinished.served {l : List (Ev HttpAct HttpAct.Res)} (h : HttpFinished l ()) :
    (recordsOf HttpAct.committed l).countP HttpRecord.servedInKernel =
      (statsOf HttpAct.statIndex l).count 1 := by
  rw [countP_servedInKernel]
  rcases h with ⟨hr, hs | hs | hs⟩ | ⟨req, hr, ⟨h1, hs⟩ | ⟨h1, hs | hs⟩⟩ <;> simp [*]

section Reachable

variable {cfg : HttpConfig} {env : FileServer.Env} {clock : Nat}
  {s : Pool HttpAct HttpAct.Res HttpMaps}

/-- `stats[i]` counts the `update_stats(i)` calls made, modulo `2 ^ 64`. -/
theorem httpStats_eq (h : (httpSystem cfg env).Reachable (HttpMaps.init clock) s) {i : Nat}
    (hi : i < 16) : s.maps.stats i = statCalls HttpAct.statIndex s.log i % 2 ^ 64 :=
  stats_eq_statCalls HttpAct.statIndex HttpMaps.stats (fun _ => rfl)
    (fun t a m => HttpAct.exec_stats t a m) (fun _ _ => rfl) h hi

/-- In every reachable state the calls on `stats[1]`, `stats[2]` and `stats[3]` are at most
those on `stats[0]`. -/
theorem httpStatCalls_le (h : (httpSystem cfg env).Reachable (HttpMaps.init clock) s) :
    statCalls HttpAct.statIndex s.log 1 + statCalls HttpAct.statIndex s.log 2 +
      statCalls HttpAct.statIndex s.log 3 ≤ statCalls HttpAct.statIndex s.log 0 := by
  have hT := (httpSystem cfg env).threadsOk_reachable (httpSystem_paths cfg env) h
  simp only [statCalls_eq_sum _ hT, ← Finset.sum_add_distrib]
  refine Finset.sum_le_sum fun t ht => ?_
  cases hr : s.running t with
  | none => exact (hT.2.1 t (Finset.mem_range.1 ht) hr).1
  | some p => exact (hT.1 t p hr).here

theorem httpEvents_eq (h : (httpSystem cfg env).Reachable (HttpMaps.init clock) s) :
    s.maps.events = committed HttpAct.committed s.log :=
  events_eq_committed HttpAct.committed HttpMaps.events rfl
    (fun t a m => HttpAct.exec_events t a m) (fun _ _ => rfl) h

/-- `handle_event` has counted in `kernel_processed`, modulo `2 ^ 64`, the request records of
requests processed in the kernel among the records it has consumed. -/
theorem httpUser_eq (h : (httpSystem cfg env).Reachable (HttpMaps.init clock) s) :
    ConsumerOk HttpRecord.servedInKernel s.maps.events s.maps.consumed
      s.maps.user.kernelProcessed := by
  refine (httpSystem cfg env).log_inv_reachable
    (fun m _ => ConsumerOk HttpRecord.servedInKernel m.events m.consumed m.user.kernelProcessed)
    ConsumerOk.zero (fun t a m l hm => ?_) (fun _ _ _ hm => hm) h
  simp only [httpSystem]
  by_cases ha : a = .consume
  · subst ha
    cases hx : m.events[m.consumed]? with
    | none => simpa [HttpAct.exec, hx] using hm
    | some x =>
      rcases x with ⟨t', r⟩
      simpa [HttpAct.exec, hx, HttpAct.committed, FileServer.handleEvent_kernelProcessed] using
        hm.consume hx
  · rw [(HttpAct.exec_consumer t a m ha).1, (HttpAct.exec_consumer t a m ha).2,
      HttpAct.exec_events]
    exact hm.append _

/-- A request record is among the records of a history exactly when its request is among the
requests the history committed. -/
theorem request_mem_recordsOf (l : List (Ev HttpAct HttpAct.Res)) (q : HttpRequest) :
    HttpRecord.request q ∈ recordsOf HttpAct.committed l ↔ q ∈ recordsOf HttpAct.request l := by
  induction l with
  | nil => simp
  | cons e l ih =>
    rcases e with ⟨a, r⟩
    cases a <;> simp [HttpAct.committed, HttpAct.request, ih]
    case submit rec => cases rec <;> simp [HttpRecord.requestOf, ih, eq_comm]

/-- A finished invocation counted `stats[1]` exactly when it committed a request record with
`processed_in_kernel = 1`, and it committed at most one request record. -/
theorem httpRecords_of_finished (h : (httpSystem cfg env).Reachable (HttpMaps.init clock) s)
    {t : Nat} (ht : s.running t = none) :
    (1 ∈ statsOf HttpAct.statIndex (s.hist t) ↔ ∃ q, HttpRecord.request q ∈
        (s.maps.events.filter fun x => x.1 == t).map Prod.snd ∧ q.processedInKernel = 1) ∧
      (((s.maps.events.filter fun x => x.1 == t).map Prod.snd).filterMap
        HttpRecord.requestOf).length ≤ 1 := by
  have hT := (httpSystem cfg env).threadsOk_reachable (httpSystem_paths cfg env) h
  have hreq : ((s.maps.events.filter fun x => x.1 == t).map Prod.snd).filterMap
      HttpRecord.requestOf = recordsOf HttpAct.request (s.hist t) := by
    rw [httpEvents_eq h, committed_filter]
    simp only [recordsOf, List.filterMap_filterMap, HttpAct.request]
    rfl
  rw [hreq, httpEvents_eq h, committed_filter,
    show (s.log.filter fun x => x.1 == t).map Prod.snd = s.hist t from rfl]
  simp only [request_mem_recordsOf]
  by_cases hlt : t < s.next
  · rcases (hT.2.1 t hlt ht).2 with ⟨hr, hs | hs | hs⟩ | ⟨req, hr, ⟨h1, hs⟩ | ⟨h1, hs | hs⟩⟩ <;>
      simp [*]
  · simp [show s.hist t = [] from hT.hist_eq_nil (by omega)]

/-- Once every invocation has finished and the control plane has consumed every record, the
`kernel_processed` of `handle_event` equals `stats[1]`. -/
theorem httpKernelProcessed_eq (h : (httpSystem cfg env).Reachable (HttpMaps.init clock) s)
    (hq : s.Quiescent) (hd : s.maps.consumed = s.maps.events.length) :
    s.maps.user.kernelProcessed = s.maps.stats 1 := by
  have hT := (httpSystem cfg env).threadsOk_reachable (httpSystem_paths cfg env) h
  rw [(httpUser_eq h).2, hd, List.take_length, httpStats_eq h (by decide), httpEvents_eq h,
    served_eq_statCalls HttpAct.statIndex HttpAct.committed hT hq fun _ hl => hl.served]

end Reachable

end EbpfNfs
