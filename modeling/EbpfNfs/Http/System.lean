import EbpfNfs.Http.Ingress
import EbpfNfs.Counting

/-!
# The file server as a system of interleaved invocations

Frames start `fileserver_ingress` and `fileserver_xdp` invocations, `vfs_open` starts
`trace_file_open`, the control plane handles received requests with `handle_http_request` and
polls the ring, and the clock advances; their actions interleave arbitrarily
(`httpSystem`). The system starts from the maps as the loader creates them (`HttpMaps.init`).

Every path of every program, step by step: `fileserver_ingress` adds to `stats[0]` first and then
to at most one of `stats[1]`, `stats[2]`, `stats[3]`, so at every point those three have been
added to at most as often as `stats[0]` (`HttpRunning`). A finished invocation has committed at
most one request record, with `processed_in_kernel = 1` exactly when it added to `stats[1]`
(`HttpFinished`). The lemmas follow the programs: the file event a branch may commit, the three
branches of the decision (`DecisionOk`), the whole program, and then each input
(`httpSystem_paths`).
-/

namespace EbpfNfs

open Prog HttpProg

/-- What starts an invocation. -/
inductive HttpInput where
  /-- A frame reaches the TC hook. -/
  | ingress (frame : List UInt8)
  /-- A frame reaches the XDP hook. -/
  | xdp (frame : List UInt8)
  /-- `vfs_open` opens a dentry named `name` (`none` for a NULL name). -/
  | fileOpen (name : Option (List UInt8))
  /-- The control plane receives the request `payload` on a connection and handles it, with the
  file tree as `fs` finds it. -/
  | request (fs : FileSys) (payload : List UInt8)
  /-- The control plane's `ring_buffer__poll` takes one record. -/
  | poll

/-- The file server under the configuration `cfg` and the options `env`. The environment
advances `bpf_ktime_get_ns`. -/
def httpSystem (cfg : HttpConfig) (env : FileServer.Env) :
    System HttpInput Nat HttpAct HttpAct.Res HttpMaps where
  prog
    | .ingress f => fileserverIngress cfg f >>= fun _ => pure ()
    | .xdp f => fileserverXdp f >>= fun _ => pure ()
    | .fileOpen n => traceFileOpen cfg n >>= fun _ => pure ()
    | .request fs p => .act (.handleRequest env fs (FileServer.received p)) fun _ => pure ()
    | .poll => .act .consume fun _ => pure ()
  exec := HttpAct.exec
  envStep d s := { s with clock := s.clock + d }

/-- The statistics of a server that has handled nothing (`stats = {0}`, part_001:111). -/
def FileServer.Stats.zero : FileServer.Stats := ⟨0, 0, 0, 0, 0, 0, 0⟩

/-- The maps as the loader creates them, with the clock at `clock`. Reference:
fileserver.bpf.c:23-50. -/
def HttpMaps.init (clock : Nat) : HttpMaps :=
  { fileCache := .empty 1024, connTrack := .empty 4096, stats := fun _ => 0, events := [],
    clock := clock, consumed := 0, user := .zero }

/-! ## What an invocation counts and commits -/

/-- The request a record carries. -/
def HttpRecord.requestOf : HttpRecord → Option HttpRequest
  | .request r => some r
  | .fileEvent _ => none

/-- A request record of a request served in the kernel, which `handle_event` counts in
`kernel_processed`. -/
def HttpRecord.servedInKernel (r : HttpRecord) : Bool :=
  match r with
  | .request q => q.processedInKernel != 0
  | .fileEvent _ => false

theorem FileServer.handleEvent_kernelProcessed (st : FileServer.Stats) (r : HttpRecord) :
    (FileServer.handleEvent st r).kernelProcessed =
      if r.servedInKernel then (st.kernelProcessed + 1) % 2 ^ 64 else st.kernelProcessed := by
  cases r with
  | request q =>
    by_cases h : q.processedInKernel = 0 <;>
      simp [FileServer.handleEvent, HttpRecord.servedInKernel, h]
  | fileEvent => rfl

/-- The request record an action commits. -/
def HttpAct.request (a : HttpAct) : Option HttpRequest := a.committed.bind HttpRecord.requestOf

/-- At every point of an invocation, `stats[1]`, `stats[2]` and `stats[3]` together have been
added to at most as often as `stats[0]`. -/
def HttpRunning (l : List (Ev HttpAct HttpAct.Res)) : Prop :=
  (statsOf HttpAct.statIndex l).count 1 + (statsOf HttpAct.statIndex l).count 2 +
    (statsOf HttpAct.statIndex l).count 3 ≤ (statsOf HttpAct.statIndex l).count 0

/-- The counters of a decision that returned `processed_in_kernel = r`: a hit counts `stats[1]`
and returns 1, a forward `stats[2]` and a missing file `stats[3]`, both returning 0. -/
def Decided (r : Nat) (stats : List Nat) : Prop :=
  (r = 1 ∧ stats = [0, 1]) ∨ (r = 0 ∧ (stats = [0, 2] ∨ stats = [0, 3]))

/-- How the decision of `fileserver_ingress` ends, after `stats[0]`: no request record yet, and
the counters of what it returned. -/
def DecisionOk (l : List (Ev HttpAct HttpAct.Res)) (r : Nat) : Prop :=
  recordsOf HttpAct.request l = [] ∧ Decided r (statsOf HttpAct.statIndex l)

/-- How a finished invocation ends: with no request record and at most `stats[0]` (a full ring)
or `stats[4]` (an XDP frame) counted, or with one request record and the counters of its
decision. -/
def HttpFinished (l : List (Ev HttpAct HttpAct.Res)) (_ : Unit) : Prop :=
  (recordsOf HttpAct.request l = [] ∧ (statsOf HttpAct.statIndex l = [] ∨ statsOf HttpAct.statIndex l = [0] ∨
      statsOf HttpAct.statIndex l = [4])) ∨
    ∃ req, recordsOf HttpAct.request l = [req] ∧ Decided req.processedInKernel (statsOf HttpAct.statIndex l)

theorem HttpRunning.of_stats {l l' : List (Ev HttpAct HttpAct.Res)} (h : HttpRunning l)
    (hs : statsOf HttpAct.statIndex l' = statsOf HttpAct.statIndex l) : HttpRunning l' := by
  rw [HttpRunning, hs]; exact h

theorem Decided.running {r : Nat} {l : List (Ev HttpAct HttpAct.Res)}
    (h : Decided r (statsOf HttpAct.statIndex l)) : HttpRunning l := by
  rcases h with ⟨-, h⟩ | ⟨-, h | h⟩ <;> simp [HttpRunning, h]

/-! ## The paths of the programs -/

section Paths

variable {l : List (Ev HttpAct HttpAct.Res)}

attribute [local simp] HttpAct.statIndex HttpAct.committed HttpAct.request
  HttpRecord.requestOf

/-- Reporting a file event counts nothing and commits no request record. -/
theorem emitFileEvent_paths (v : HttpFrame) (filename : List UInt8) (op size fwd : Nat)
    {K : List (Ev HttpAct HttpAct.Res) → Unit → Prop} (hl : HttpRunning l)
    (hK : ∀ l', statsOf HttpAct.statIndex l' = statsOf HttpAct.statIndex l →
      recordsOf HttpAct.request l' = recordsOf HttpAct.request l → K l' ()) :
    Paths HttpRunning K (emitFileEvent v filename op size fwd) l := by
  simp only [emitFileEvent, reserve, ktime, submit, choose_bind, act_bind, ret_bind,
    paths_choose, paths_act, Bool.forall_bool, Bool.false_eq_true, eq_self_iff_true, ↓reduceIte,
    paths_ret, pure_eq]
  refine ⟨hl, ⟨hl, hK l rfl rfl⟩, hl, fun _ => ⟨hl.of_stats ?_, fun _ =>
    ⟨hl.of_stats ?_, hK _ ?_ ?_⟩⟩⟩ <;>
    simp

section Decision

variable (hl : statsOf HttpAct.statIndex l = [0] ∧ recordsOf HttpAct.request l = [])
include hl

theorem cacheHit_paths (v : HttpFrame) (filename : List UInt8) (i : Nat) (e : FileCacheEntry) :
    Paths HttpRunning DecisionOk (cacheHit v filename i e) l := by
  have h1 : ∀ l', statsOf HttpAct.statIndex l' = [0, 1] → HttpRunning l' := fun l' h => by
    simp [HttpRunning, h]
  simp only [cacheHit, statAdd, act_bind, ret_bind, paths_act, Prog.bind_assoc]
  refine ⟨by simp [HttpRunning, hl], fun _ => ⟨by simp [HttpRunning, hl],
    fun _ => ⟨by simp [HttpRunning, hl], fun _ => ?_⟩⟩⟩
  refine paths_bind (emitFileEvent_paths v _ _ _ _ (h1 _ (by simp [hl]))
    fun l' hs hr => ?_)
  simp only [paths_ret, pure_eq]
  refine ⟨h1 _ (by simp [hs, hl]), ?_, .inl ⟨rfl, ?_⟩⟩ <;>
    simp [hs, hr, hl]

theorem cacheMiss_paths (v : HttpFrame) (filename : List UInt8) :
    Paths HttpRunning DecisionOk (cacheMiss v filename) l := by
  have h2 : ∀ l', statsOf HttpAct.statIndex l' = [0, 2] → HttpRunning l' := fun l' h => by
    simp [HttpRunning, h]
  simp only [cacheMiss, statAdd, act_bind, ret_bind, paths_act, Prog.bind_assoc]
  refine ⟨by simp [HttpRunning, hl], fun _ => paths_bind (emitFileEvent_paths v _ _ _ _
    (h2 _ (by simp [hl])) fun l' hs hr => ?_)⟩
  simp only [paths_ret, pure_eq]
  refine ⟨h2 _ (by simp [hs, hl]), ?_, .inr ⟨rfl, .inl ?_⟩⟩ <;>
    simp [hs, hr, hl]

theorem fileNotFound_paths (v : HttpFrame) (filename : List UInt8) :
    Paths HttpRunning DecisionOk (fileNotFound v filename) l := by
  have h0 : HttpRunning l := by simp [HttpRunning, hl]
  simp only [fileNotFound, statAdd, act_bind, ret_bind, Prog.bind_assoc]
  refine paths_bind (emitFileEvent_paths v _ _ _ _ h0 fun l' hs hr => ?_)
  simp only [paths_act, paths_ret, pure_eq]
  refine ⟨by simp [HttpRunning, hs, hl], fun _ => ⟨?_, ?_, .inr ⟨rfl, .inr ?_⟩⟩⟩ <;>
    simp [HttpRunning, hs, hr, hl]

theorem ingressDecision_paths (cfg : HttpConfig) (v : HttpFrame) (filename : List UInt8) :
    Paths HttpRunning DecisionOk (ingressDecision cfg v filename) l := by
  unfold ingressDecision
  split_ifs
  · have hl' : ∀ r, statsOf HttpAct.statIndex (l ++ [⟨.lookupCache filename, r⟩]) = [0] ∧
        recordsOf HttpAct.request (l ++ [⟨.lookupCache filename, r⟩]) = [] := fun r => by
      simpa using hl
    simp only [paths_act]
    refine ⟨by simp [HttpRunning, hl], ?_⟩
    rintro (_ | ⟨i, e⟩)
    · exact cacheMiss_paths (hl' _) v filename
    · dsimp only
      split_ifs
      · exact cacheHit_paths (hl' _) v filename i e
      · exact cacheMiss_paths (hl' _) v filename
  · exact fileNotFound_paths hl v filename
  · simp only [statAdd, act_bind, ret_bind, paths_act, paths_ret, pure_eq]
    refine ⟨by simp [HttpRunning, hl], fun _ => ⟨?_, ?_, .inr ⟨rfl, .inl ?_⟩⟩⟩ <;>
      simp [HttpRunning, hl]

end Decision

theorem fileserverIngress_paths (cfg : HttpConfig) (f : List UInt8) :
    Paths HttpRunning HttpFinished (fileserverIngress cfg f >>= fun _ => pure ()) [] := by
  unfold fileserverIngress
  rcases httpFrame f with _ | v
  · simp [HttpRunning, HttpFinished]
  have h0 : ∀ r, HttpRunning [⟨.statAdd 0, r⟩] := fun _ => by simp [HttpRunning]
  simp only [statAdd, reserve, ktime, submit, act_bind, choose_bind, ret_bind, Prog.bind_assoc,
    paths_act, paths_choose, Bool.forall_bool, Bool.not_false, Bool.not_true, Bool.false_eq_true,
    eq_self_iff_true, ↓reduceIte, pure_eq, paths_ret, List.nil_append]
  refine ⟨by simp [HttpRunning], fun _ => ⟨h0 _, ⟨h0 _, .inl ⟨by simp, .inr (.inl (by simp))⟩⟩,
    paths_bind ((ingressDecision_paths (by simp) cfg v _).mono (fun _ h => h)
      fun l' r ⟨hreq, hd⟩ => ?_)⟩⟩
  simp only [paths_act, paths_ret]
  refine ⟨hd.running, fun _ => ⟨hd.running.of_stats ?_, fun _ => ⟨hd.running.of_stats ?_,
    fun _ => ⟨hd.running.of_stats ?_,
      .inr ⟨ingressRequest v (ingressFilename v.payload v.payloadLen) r, ?_, ?_⟩⟩⟩⟩⟩ <;>
    simp [ingressRequest, hreq, hd]

/-- Every input of the file-server system starts a program whose paths keep `HttpRunning` and end
in `HttpFinished`. -/
theorem httpSystem_paths (cfg : HttpConfig) (env : FileServer.Env) :
    ∀ i, Paths HttpRunning HttpFinished ((httpSystem cfg env).prog i) []
  | .ingress f => fileserverIngress_paths cfg f
  | .xdp f => by
    simp only [httpSystem, fileserverXdp]
    split_ifs <;> simp [statAdd, HttpFinished, HttpRunning]
  | .fileOpen n => by
    simp only [httpSystem, traceFileOpen]
    split_ifs
    · simp [HttpFinished, HttpRunning]
    · rcases n with _ | n
      · simp [HttpFinished, HttpRunning]
      · simp only [reserve, ktime, submit, choose_bind, act_bind, ret_bind, Prog.bind_assoc,
          paths_choose, paths_act, Bool.forall_bool]
        simp [HttpFinished, HttpRunning]
  | .request fs p => by simp [httpSystem, HttpFinished, HttpRunning]
  | .poll => by simp [httpSystem, HttpFinished, HttpRunning]

end Paths

end EbpfNfs
