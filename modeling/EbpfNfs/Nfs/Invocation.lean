import EbpfNfs.Nfs.System

/-!
# What one NFS invocation counts and commits

Every path of every program of the NFS system, step by step: `nfs_server_tc` adds to
`nfs_stats[1]` at most once, in its handler or the `NULL` case, before it adds to
`nfs_stats[0]`, and to `nfs_stats[2]` only after; so at every point the two are at most one
ahead of `nfs_stats[0]` (`NfsRunning`). A finished invocation has committed nothing, or one
request record and then one operation event that agree, with `processed_in_kernel = 1` exactly
when it counted `nfs_stats[1]` (`NfsFinished`). The lemmas follow the programs' structure: the
handlers and the switch (`DispatchOk`), the counters and commits after them (`nfsServe_paths`),
the client-tracking step, which counts and commits nothing, and then each input of
`nfsSystem` (`nfsSystem_paths`).
-/

namespace EbpfNfs

open Prog

attribute [local simp] NfsAct.statIndex NfsAct.committed

/-- At every point of an invocation, `nfs_stats[1]` and `nfs_stats[2]` together have been added
to at most once more, and at most once less, than `nfs_stats[0]`. -/
def NfsRunning (l : List (Ev NfsAct NfsAct.Res)) : Prop :=
  (statsOf NfsAct.statIndex l).count 1 + (statsOf NfsAct.statIndex l).count 2 ≤
      (statsOf NfsAct.statIndex l).count 0 + 1 ∧
    (statsOf NfsAct.statIndex l).count 0 ≤
      (statsOf NfsAct.statIndex l).count 1 + (statsOf NfsAct.statIndex l).count 2 + 1

/-- Two operation events name the same client, call and procedure. -/
def NfsEvent.Agrees (ev ev' : NfsEvent) : Prop :=
  ev'.clientAddr = ev.clientAddr ∧ ev'.clientPort = ev.clientPort ∧ ev'.xid = ev.xid ∧
    ev'.procedure = ev.procedure

/-- How the switch of `nfs_server_tc` ends from the event `ev`: handled, with a success event,
after adding to `nfs_stats[1]`; or forwarded, having counted nothing. -/
def DispatchOk (ev : NfsEvent) (l : List (Ev NfsAct NfsAct.Res)) (r : Nat × NfsEvent) : Prop :=
  recordsOf NfsAct.committed l = [] ∧ ev.Agrees r.2 ∧
    ((r.1 = 1 ∧ statsOf NfsAct.statIndex l = [1] ∧ r.2.result = nfsOpSuccess ∧
        r.2.forwardedToUser = 0) ∨
      (r.1 = 0 ∧ statsOf NfsAct.statIndex l = [] ∧ r.2.result = nfsOpForwardToUser ∧
        r.2.forwardedToUser = 1))

/-- A committed request and operation event of one invocation agree. -/
def PairOk (req : NfsRequest) (ev : NfsEvent) : Prop :=
  ev.clientAddr = req.clientAddr ∧ ev.clientPort = req.clientPort ∧ ev.xid = req.xid ∧
    ev.procedure = req.procedure ∧
    ((req.processedInKernel = 1 ∧ ev.forwardedToUser = 0 ∧ ev.result = nfsOpSuccess) ∨
      (req.processedInKernel = 0 ∧ ev.forwardedToUser = 1 ∧ ev.result = nfsOpForwardToUser))

/-- How a finished invocation ends: with nothing committed and at most one counter of its own, or
with an agreeing pair committed and the counters of its outcome. -/
def NfsFinished (l : List (Ev NfsAct NfsAct.Res)) (_ : Unit) : Prop :=
  (recordsOf NfsAct.committed l = [] ∧
      (statsOf NfsAct.statIndex l = [] ∨ statsOf NfsAct.statIndex l = [3] ∨
        statsOf NfsAct.statIndex l = [4])) ∨
    ∃ req ev, recordsOf NfsAct.committed l = [.request req, .event ev] ∧ PairOk req ev ∧
      statsOf NfsAct.statIndex l = if req.processedInKernel = 1 then [1, 0] else [0, 2]

section Paths

variable {l : List (Ev NfsAct NfsAct.Res)}

/-! ## The handlers and the switch -/

theorem handleNfsGetattr_paths (cfg : NfsConfig) (req : NfsRequest) (ev : NfsEvent)
    (junk : List UInt8) (hl : statsOf NfsAct.statIndex l = [] ∧ recordsOf NfsAct.committed l = []) :
    Paths NfsRunning (DispatchOk ev) (handleNfsGetattr cfg req ev junk) l := by
  simp only [handleNfsGetattr, paths_act]
  refine ⟨by simp [NfsRunning, hl], ?_⟩
  rintro (_ | name)
  · simp [NfsRunning, DispatchOk, NfsEvent.forward, NfsEvent.Agrees, hl]
  simp only [paths_act]
  refine ⟨by simp [NfsRunning, hl], ?_⟩
  rintro (_ | ⟨i, e⟩)
  · simp [NfsRunning, DispatchOk, NfsEvent.forward, NfsEvent.Agrees, hl]
  simp [bumpHits, NfsProg.statAdd, paths_ite, NfsRunning, DispatchOk, NfsEvent.forward,
    NfsEvent.Agrees, hl]

theorem handleNfsRead_paths (req : NfsRequest) (ev : NfsEvent) (junk : List UInt8)
    (hl : statsOf NfsAct.statIndex l = [] ∧ recordsOf NfsAct.committed l = []) :
    Paths NfsRunning (DispatchOk ev) (handleNfsRead req ev junk) l := by
  simp only [handleNfsRead, paths_act]
  refine ⟨by simp [NfsRunning, hl], ?_⟩
  rintro (_ | name)
  · simp [NfsRunning, DispatchOk, NfsEvent.forward, NfsEvent.Agrees, hl]
  simp only [paths_act]
  refine ⟨by simp [NfsRunning, hl], ?_⟩
  rintro (_ | ⟨i, e⟩)
  · simp [NfsRunning, DispatchOk, NfsEvent.forward, NfsEvent.Agrees, hl]
  simp [bumpHits, NfsProg.statAdd, paths_ite, NfsRunning, DispatchOk, NfsEvent.forward,
    NfsEvent.Agrees, hl]

theorem nfsDispatch_paths (cfg : NfsConfig) (rpc : RpcHeader) (req : NfsRequest) (ev : NfsEvent)
    (junk : List UInt8) (hl : statsOf NfsAct.statIndex l = [] ∧ recordsOf NfsAct.committed l = [])
    (hev : ev.result = nfsOpForwardToUser ∧ ev.forwardedToUser = 1) :
    Paths NfsRunning (DispatchOk ev) (nfsDispatch cfg rpc req ev junk) l := by
  unfold nfsDispatch
  split_ifs
  · simp [NfsRunning, DispatchOk, NfsEvent.Agrees, hl, hev]
  · simp [NfsProg.statAdd, NfsRunning, DispatchOk, NfsEvent.Agrees, hl]
  · exact handleNfsGetattr_paths cfg req ev junk hl
  · exact handleNfsRead_paths req ev junk hl
  · simp [NfsRunning, DispatchOk, NfsEvent.forward, NfsEvent.Agrees, hl]

/-! ## The counters and the commits -/

theorem bumpClient_paths (ptr : Option Nat) (c : ClientCounter)
    {K : List (Ev NfsAct NfsAct.Res) → Unit → Prop} (hl : NfsRunning l)
    (hK : ∀ l', statsOf NfsAct.statIndex l' = statsOf NfsAct.statIndex l →
      recordsOf NfsAct.committed l' = recordsOf NfsAct.committed l → K l' ()) :
    Paths NfsRunning K (bumpClient ptr c) l := by
  cases ptr with
  | none => exact ⟨hl, hK l rfl rfl⟩
  | some i =>
    simp only [bumpClient, paths_act, paths_ret]
    refine ⟨hl, fun _ => ⟨by simpa [NfsRunning] using hl, fun _ =>
      ⟨by simpa [NfsRunning] using hl, hK _ (by simp) (by simp)⟩⟩⟩

theorem nfsServe_paths (cfg : NfsConfig) (v : NfsFrame) (rpc : RpcHeader) (junk : List UInt8)
    (ptr : Option Nat) (hl : statsOf NfsAct.statIndex l = [] ∧ recordsOf NfsAct.committed l = []) :
    Paths NfsRunning NfsFinished (nfsServe cfg v rpc junk ptr >>= fun _ => pure ()) l := by
  have hrun : NfsRunning l := by simp [NfsRunning, hl]
  have hquit : NfsFinished l () := by simp [NfsFinished, hl]
  simp only [nfsServe, NfsProg.reserve, NfsProg.ktime, choose_bind, act_bind, ret_bind,
    paths_choose, paths_act, Bool.forall_bool, Bool.not_false, Bool.not_true, Bool.false_eq_true,
    ↓reduceIte, pure_eq, Prog.bind_assoc, paths_ret]
  refine ⟨hrun, ⟨hrun, hquit⟩, hrun, ⟨hrun, hquit⟩, hrun, fun ts => paths_bind
    ((nfsDispatch_paths cfg rpc _ _ junk (by simpa using hl) (by simp [nfsEventOf])).mono
      (fun _ h => h) fun l' r hr => ?_)⟩
  obtain ⟨hrec, hag, hcase⟩ := hr
  -- after the dispatch: `nfs_stats[0]`, then the client counter and the two commits
  have hrun' : ∀ l'', statsOf NfsAct.statIndex l'' = statsOf NfsAct.statIndex l' ++ [0] →
      NfsRunning l'' := fun l'' h => by
    rcases hcase with ⟨-, hs, -⟩ | ⟨-, hs, -⟩ <;> simp [NfsRunning, h, hs]
  simp only [NfsProg.statAdd, act_bind, ret_bind, paths_act]
  refine ⟨by rcases hcase with ⟨-, hs, -⟩ | ⟨-, hs, -⟩ <;> simp [NfsRunning, hs], fun _ => ?_⟩
  rcases hcase with ⟨h1, hs, hres, hfwd⟩ | ⟨h1, hs, hres, hfwd⟩
  · -- served in the kernel
    simp only [h1, ne_eq, one_ne_zero, not_false_eq_true, ↓reduceIte, Prog.bind_assoc]
    refine paths_bind (bumpClient_paths ptr _ (hrun' _ (by simp)) fun l'' hs' hr' => ?_)
    simp only [NfsProg.submit, act_bind, ret_bind, paths_act, paths_ret]
    refine ⟨hrun' _ (by simp [hs']), fun _ => ⟨hrun' _ (by simp [hs']), fun _ =>
      ⟨hrun' _ (by simp [hs']), .inr ⟨{ nfsRequestOf v rpc with processedInKernel := 1 }, r.2,
        ?_, ⟨hag.1, hag.2.1, hag.2.2.1, hag.2.2.2, .inl ⟨rfl, hfwd, hres⟩⟩, ?_⟩⟩⟩⟩
    · simp [hr', hrec]
    · simp [hs', hs]
  · -- forwarded: `nfs_stats[2]` too
    simp only [h1, ne_eq, not_true_eq_false, ↓reduceIte, Prog.bind_assoc]
    refine paths_bind (bumpClient_paths ptr _ (hrun' _ (by simp)) fun l'' hs' hr' => ?_)
    simp only [NfsProg.submit, NfsProg.statAdd, act_bind, ret_bind, paths_act, paths_ret]
    have hrun'' : ∀ l₃, statsOf NfsAct.statIndex l₃ = [0, 2] → NfsRunning l₃ := fun l₃ h => by
      simp [NfsRunning, h]
    refine ⟨hrun' _ (by simp [hs']), fun _ => ⟨hrun'' _ (by simp [hs', hs]), fun _ =>
      ⟨hrun'' _ (by simp [hs', hs]), fun _ => ⟨hrun'' _ (by simp [hs', hs]),
        .inr ⟨{ nfsRequestOf v rpc with processedInKernel := 0 }, r.2, ?_,
          ⟨hag.1, hag.2.1, hag.2.2.1, hag.2.2.2, .inr ⟨rfl, hfwd, hres⟩⟩, ?_⟩⟩⟩⟩⟩
    · simp [hr', hrec]
    · simp [hs', hs]

/-! ## Whole invocations -/

/-- The client-tracking step counts and commits nothing. -/
theorem trackClient_paths (ip : Nat) {K : List (Ev NfsAct NfsAct.Res) → Option Nat → Prop}
    (hl : NfsRunning l)
    (hK : ∀ l' p, statsOf NfsAct.statIndex l' = statsOf NfsAct.statIndex l →
      recordsOf NfsAct.committed l' = recordsOf NfsAct.committed l → K l' p) :
    Paths NfsRunning K (trackClient ip) l := by
  simp only [NfsRunning] at hl
  simp only [trackClient, paths_act]
  refine ⟨hl, ?_⟩
  rintro (_ | i)
  · simp [NfsRunning, hl, hK]
  · simp [NfsRunning, hl, hK, bumpClient]

end Paths

theorem nfsServerTc_paths (cfg : NfsConfig) (f junk : List UInt8) :
    Paths NfsRunning NfsFinished (nfsServerTc cfg f junk >>= fun _ => pure ()) [] := by
  unfold nfsServerTc
  rcases nfsCall f with _ | ⟨v, rpc⟩
  · simp [NfsFinished, NfsRunning]
  · simp only [Prog.bind_assoc]
    exact paths_bind (trackClient_paths _ (by simp [NfsRunning]) fun l' p hs hr =>
      nfsServe_paths cfg v rpc junk p ⟨by simpa using hs, by simpa using hr⟩)

theorem cacheFileInKernel_paths (env : NfsServer.Env) (fs : FileSys) (n : List UInt8) :
    Paths NfsRunning NfsFinished
      (NfsServer.cacheFileInKernel env fs n >>= fun _ => pure ()) [] := by
  rcases NfsServer.cacheFileInKernel_cases env fs n with
    ⟨-, h⟩ | h | ⟨st, data, -, -, -, -, -, -, -, h⟩
  all_goals simp [h, NfsFinished, NfsRunning, paths_ite]

/-- Every input of the NFS system starts a program whose paths keep `NfsRunning` and end in
`NfsFinished`. -/
theorem nfsSystem_paths (cfg : NfsConfig) (env : NfsServer.Env) :
    ∀ i, Paths NfsRunning NfsFinished ((nfsSystem cfg env).prog i) []
  | .tc f junk => nfsServerTc_paths cfg f junk
  | .xdp f => by
    simp only [nfsSystem, nfsServerXdp]
    split_ifs <;> simp [NfsProg.statAdd, NfsFinished, NfsRunning]
  | .openat => by
    simp only [nfsSystem, traceOpenat]
    split_ifs <;> simp [NfsProg.statAdd, NfsFinished, NfsRunning]
  | .refresh fs n => cacheFileInKernel_paths env fs n
  | .poll => by simp [nfsSystem, NfsServer.pollEvent, NfsFinished, NfsRunning]

end EbpfNfs
