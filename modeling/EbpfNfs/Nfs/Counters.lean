import EbpfNfs.Nfs.Invocation

/-!
# The NFS counters and the ring over whole runs

Over every interleaving of the NFS system: `nfs_stats[i]` is the number of `update_nfs_stats(i)`
calls made, modulo `2 ^ 64` (`nfsStats_eq`); the calls on `nfs_stats[1]` and `nfs_stats[2]`
balance those on `nfs_stats[0]` up to the invocations caught between two of their updates
(`nfsStatCalls_balance`); the records of each finished invocation are nothing or one agreeing pair
(`nfsRecords_of_finished`); and the `kernel_processed` that `handle_event` keeps is
`nfs_stats[1]` once every invocation has finished and the ring is drained
(`nfsKernelProcessed_eq`).

Each is a sum over invocations of what `NfsRunning` and `NfsFinished` say about one.
-/

namespace EbpfNfs

open Prog

/-- An operation event of a request served in the kernel, which `handle_event` counts in
`kernel_processed`. -/
def NfsRecord.servedInKernel : NfsRecord → Bool
  | .event e => e.result == nfsOpSuccess && e.forwardedToUser == 0
  | .request _ => false

theorem nfsHandleEvent_kernelProcessed (st : NfsUserStats) (r : NfsRecord) :
    (nfsHandleEvent st r).kernelProcessed =
      if r.servedInKernel then (st.kernelProcessed + 1) % 2 ^ 64 else st.kernelProcessed := by
  cases r with
  | request => rfl
  | event e =>
    simp only [nfsHandleEvent, NfsRecord.servedInKernel, Bool.and_eq_true, beq_iff_eq]
    split_ifs <;> simp_all

theorem NfsFinished.served {l : List (Ev NfsAct NfsAct.Res)} (h : NfsFinished l ()) :
    (recordsOf NfsAct.committed l).countP NfsRecord.servedInKernel =
      (statsOf NfsAct.statIndex l).count 1 := by
  rcases h with ⟨h, h' | h' | h'⟩ | ⟨req, ev, h, ⟨-, -, -, -, hp⟩, h'⟩ <;> rw [h, h']
  · rfl
  · rfl
  · rfl
  · rcases hp with ⟨h1, h2, h3⟩ | ⟨h1, h2, h3⟩ <;> simp [NfsRecord.servedInKernel, h1, h2, h3]

theorem NfsFinished.calls {l : List (Ev NfsAct NfsAct.Res)} (h : NfsFinished l ()) :
    (statsOf NfsAct.statIndex l).count 1 + (statsOf NfsAct.statIndex l).count 2 =
      (statsOf NfsAct.statIndex l).count 0 := by
  rcases h with ⟨-, h | h | h⟩ | ⟨req, ev, -, -, h⟩ <;> rw [h]
  · rfl
  · rfl
  · rfl
  · split <;> rfl

section Reachable

variable {cfg : NfsConfig} {env : NfsServer.Env} {clock wall : Nat}
  {s : Pool NfsAct NfsAct.Res NfsState}

/-! ## The counters -/

/-- `nfs_stats[i]` counts the `update_nfs_stats(i)` calls made, modulo `2 ^ 64`. -/
theorem nfsStats_eq (h : (nfsSystem cfg env).Reachable (NfsState.init clock wall) s) {i : Nat}
    (hi : i < 16) : s.maps.stats i = statCalls NfsAct.statIndex s.log i % 2 ^ 64 :=
  stats_eq_statCalls NfsAct.statIndex NfsState.stats (fun _ => rfl)
    (fun t a m => NfsAct.exec_stats t a m) (fun _ _ => rfl) h hi

/-- An invocation that has counted its request in `nfs_stats[1]` but not yet in `nfs_stats[0]`. -/
def nfsAhead (l : List (Ev NfsAct NfsAct.Res)) : Bool :=
  (statsOf NfsAct.statIndex l).count 1 + (statsOf NfsAct.statIndex l).count 2 ==
    (statsOf NfsAct.statIndex l).count 0 + 1

/-- An invocation that has counted its request in `nfs_stats[0]` but not yet in `nfs_stats[2]`. -/
def nfsBehind (l : List (Ev NfsAct NfsAct.Res)) : Bool :=
  (statsOf NfsAct.statIndex l).count 0 ==
    (statsOf NfsAct.statIndex l).count 1 + (statsOf NfsAct.statIndex l).count 2 + 1

/-- In every reachable state the calls on `nfs_stats[1]` and `nfs_stats[2]` balance those on
`nfs_stats[0]`, up to the invocations in progress that are between two of their updates. -/
theorem nfsStatCalls_balance (h : (nfsSystem cfg env).Reachable (NfsState.init clock wall) s) :
    statCalls NfsAct.statIndex s.log 1 + statCalls NfsAct.statIndex s.log 2 +
        ((Finset.range s.next).filter fun t => (s.running t).isSome && nfsBehind (s.hist t)).card =
      statCalls NfsAct.statIndex s.log 0 +
        ((Finset.range s.next).filter fun t => (s.running t).isSome && nfsAhead (s.hist t)).card := by
  have hT := (nfsSystem cfg env).threadsOk_reachable (nfsSystem_paths cfg env) h
  simp only [statCalls_eq_sum _ hT, Finset.card_filter, ← Finset.sum_add_distrib]
  refine Finset.sum_congr rfl fun t ht => ?_
  cases hr : s.running t with
  | none => simpa using (hT.2.1 t (Finset.mem_range.1 ht) hr).2.calls
  | some p =>
    obtain ⟨h1, h2⟩ : NfsRunning (s.hist t) := (hT.1 t p hr).here
    simp only [Option.isSome_some, Bool.true_and, nfsAhead, nfsBehind, beq_iff_eq]
    split_ifs <;> omega

/-! ## The ring -/

theorem nfsEvents_eq (h : (nfsSystem cfg env).Reachable (NfsState.init clock wall) s) :
    s.maps.events = committed NfsAct.committed s.log :=
  events_eq_committed NfsAct.committed NfsState.events rfl
    (fun t a m => NfsAct.exec_events t a m) (fun _ _ => rfl) h

/-- `handle_event` has counted in `kernel_processed`, modulo `2 ^ 64`, the operation events of
requests served in the kernel among the records it has consumed. -/
theorem nfsUser_eq (h : (nfsSystem cfg env).Reachable (NfsState.init clock wall) s) :
    ConsumerOk NfsRecord.servedInKernel s.maps.events s.maps.consumed
      s.maps.user.kernelProcessed := by
  refine (nfsSystem cfg env).log_inv_reachable
    (fun m _ => ConsumerOk NfsRecord.servedInKernel m.events m.consumed m.user.kernelProcessed)
    ConsumerOk.zero (fun t a m l hm => ?_) (fun _ _ _ hm => hm) h
  have hc := NfsAct.exec_consumer t a m
  simp only [Prod.ext_iff] at hc
  simp only [nfsSystem, hc.1, hc.2, NfsAct.exec_events]
  by_cases ha : a = .consume
  · subst ha
    cases hx : m.events[m.consumed]? with
    | none => simpa [NfsAct.committed] using hm
    | some x =>
      simpa [NfsAct.committed, nfsHandleEvent_kernelProcessed] using hm.consume hx
  · simpa only [ha, if_false] using hm.append _

/-- The records of a finished invocation are nothing, or a request record and then an operation
event that agree; it handled the request in the kernel exactly when it added to `nfs_stats[1]`, and
forwarded it exactly when it added to `nfs_stats[2]`. -/
theorem nfsRecords_of_finished (h : (nfsSystem cfg env).Reachable (NfsState.init clock wall) s)
    {t : Nat} (ht : s.running t = none) :
    (s.maps.events.filter fun x => x.1 == t).map Prod.snd = [] ∨
      ∃ req ev, (s.maps.events.filter fun x => x.1 == t).map Prod.snd =
          [.request req, .event ev] ∧ PairOk req ev ∧
        (req.processedInKernel = 1 ↔ 1 ∈ statsOf NfsAct.statIndex (s.hist t)) ∧
        (req.processedInKernel = 0 ↔ 2 ∈ statsOf NfsAct.statIndex (s.hist t)) := by
  have hT := (nfsSystem cfg env).threadsOk_reachable (nfsSystem_paths cfg env) h
  rw [nfsEvents_eq h, committed_filter]
  by_cases hlt : t < s.next
  · rcases (hT.2.1 t hlt ht).2 with ⟨hr, -⟩ | ⟨req, ev, hr, hp, hs⟩
    · exact .inl hr
    · refine .inr ⟨req, ev, hr, hp, ?_⟩
      rw [hs]
      rcases hp.2.2.2.2 with ⟨h1, -⟩ | ⟨h1, -⟩ <;> simp [h1]
  · exact .inl (by rw [show (s.log.filter fun x => x.1 == t).map Prod.snd = s.hist t from rfl,
      hT.hist_eq_nil (by omega)]; rfl)

/-- Once every invocation has finished and the control plane has consumed every record, the
`kernel_processed` of `handle_event` equals `nfs_stats[1]`. -/
theorem nfsKernelProcessed_eq (h : (nfsSystem cfg env).Reachable (NfsState.init clock wall) s)
    (hq : s.Quiescent) (hd : s.maps.consumed = s.maps.events.length) :
    s.maps.user.kernelProcessed = s.maps.stats 1 := by
  have hT := (nfsSystem cfg env).threadsOk_reachable (nfsSystem_paths cfg env) h
  rw [(nfsUser_eq h).2, hd, List.take_length, nfsStats_eq h (by decide), nfsEvents_eq h,
    served_eq_statCalls NfsAct.statIndex NfsAct.committed hT hq fun _ hl => hl.served]

end Reachable

end EbpfNfs
