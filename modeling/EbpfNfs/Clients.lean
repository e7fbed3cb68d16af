import EbpfNfs.Servers

/-!
# The per-client counters of `nfs_server_tc`

`nfs_server_tc` keeps three `__u32` counters per client in `client_track`. A frame from a client
with no entry inserts `{request_count = 1, kernel_processed = 0, user_forwarded = 0}` and then
points `client_state` at the stack copy `new_state`, so the frame's own `kernel_processed++` or
`user_forwarded++` never reaches the map (test_nfs_server.sh:618-627). Every later frame adds to
`request_count` before the two ring reservations, and to one of the other two counters only once
both reservations succeeded.

Over every sequential run, from the maps as the loader creates them, a client's `request_count`
is the number of its frames that passed validation, modulo `2 ^ 32`, and
`kernel_processed + user_forwarded` falls short of it by the first frame and by the later frames
that found the ring full (`ClientOk`). Counting every frame that found the ring full, the sum
falls short by those frames alone or by one more, the first frame's
(`clientCounters_sequential`); a frame that finds the ring full is lost to both counters, so the
equation `kernel_processed + user_forwarded = request_count` fails even up to the first frame
(`clientCounters_ringFull`).

The increments are a load and a store through the element pointer, not an atomic add: two
overlapping invocations for one client can load the same `request_count`, and one increment is
lost (`requestCount_lost_update`).
-/

namespace EbpfNfs

open Prog

/-! ## What one invocation does to `client_track` -/

/-- The actions that change `client_track`. -/
def NfsAct.touchesClients : NfsAct → Bool
  | .updateClient _ _ | .storeClientTime _ _ | .storeClient _ _ _ => true
  | _ => false

theorem NfsAct.exec_clientTrack {tid : Nat} {a : NfsAct} (s : NfsState)
    (ha : a.touchesClients = false) : (NfsAct.exec tid a s).2.clientTrack = s.clientTrack := by
  cases a <;> simp_all [NfsAct.exec, NfsAct.touchesClients]
  split <;> rfl

/-- A program none of whose actions changes `client_track` leaves it as it was. -/
theorem NfsProg.runAlone_clientTrack {α : Type} {p : NfsProg α}
    (h : Acts (fun a => a.touchesClients = false) p) (o : List Bool) (s : NfsState) :
    (p.runAlone o s).2.2.clientTrack = s.clientTrack :=
  Acts.run NfsState.clientTrack h (fun _ s ha => NfsAct.exec_clientTrack s ha) o s

/-- The actions of the procedure switch: the two lookups, the hit counter, the clock, and
`update_nfs_stats(1, 1)`. -/
def NfsAct.inDispatch : NfsAct → Bool
  | .lookupFh _ | .lookupCache _ | .loadHits _ | .storeHits _ _ | .ktime => true
  | .statAdd i => i == 1
  | _ => false

theorem handleNfsGetattr_inDispatch (cfg : NfsConfig) (req : NfsRequest) (ev : NfsEvent)
    (junk : List UInt8) : Acts (fun a => a.inDispatch) (handleNfsGetattr cfg req ev junk) := by
  simp [handleNfsGetattr, bumpHits, NfsProg.statAdd, acts_ite, NfsAct.inDispatch]

theorem handleNfsRead_inDispatch (req : NfsRequest) (ev : NfsEvent) (junk : List UInt8) :
    Acts (fun a => a.inDispatch) (handleNfsRead req ev junk) := by
  simp [handleNfsRead, bumpHits, NfsProg.statAdd, acts_ite, NfsAct.inDispatch]

theorem nfsDispatch_inDispatch (cfg : NfsConfig) (rpc : RpcHeader) (req : NfsRequest)
    (ev : NfsEvent) (junk : List UInt8) :
    Acts (fun a => a.inDispatch) (nfsDispatch cfg rpc req ev junk) := by
  unfold nfsDispatch
  split_ifs
  · trivial
  · simp [NfsProg.statAdd, NfsAct.inDispatch]
  · exact handleNfsGetattr_inDispatch cfg req ev junk
  · exact handleNfsRead_inDispatch req ev junk
  · trivial

/-- The procedure switch leaves `client_track` alone. -/
theorem nfsDispatch_clients (cfg : NfsConfig) (rpc : RpcHeader) (req : NfsRequest)
    (ev : NfsEvent) (junk : List UInt8) :
    Acts (fun a => a.touchesClients = false) (nfsDispatch cfg rpc req ev junk) :=
  (nfsDispatch_inDispatch cfg rpc req ev junk).mono fun a h => by
    cases a <;> simp_all [NfsAct.inDispatch, NfsAct.touchesClients]

/-- The client-tracking step: a client with no entry gets a fresh one, which the program then
no longer points to; an existing one has its time stored and its `request_count` incremented.
Reference: test_nfs_server.sh:617-631. -/
theorem trackClient_run (ip : Nat) (o : List Bool) (s : NfsState) :
    (trackClient ip).runAlone o s =
      match s.clientTrack.lookup ip with
      | none =>
        (none, o, { s with clientTrack := (updateStatus s.clientTrack ip
          { clientAddr := ip, lastRequestTime := s.clock, requestCount := 1, kernelProcessed := 0,
            userForwarded := 0 }).2 })
      | some (i, st) =>
        (some i, o,
          { s with
            clientTrack :=
              (s.clientTrack.modify i fun c => { c with lastRequestTime := s.clock }).modify i
                fun c => c.set .requestCount ((st.requestCount + 1) % 2 ^ 32) }) := by
  cases h : s.clientTrack.lookup ip with
  | none => simp [NfsProg.runAlone, trackClient, NfsAct.exec, h]
  | some p =>
    obtain ⟨i, st⟩ := p
    have hh := ((BpfHash.lookup_eq_some _).1 h).2
    simp [NfsProg.runAlone, trackClient, bumpClient, NfsAct.exec, h, BpfHash.modify, hh,
      NfsClientState.get]

/-- Both reservations of `nfs_server_tc` find room when the ring answers `o`. -/
def ringHasRoom (o : List Bool) : Bool := o.headD true && o.tail.headD true

theorem ringHasRoom_iff (o : List Bool) :
    ringHasRoom o = true ↔ o.headD true = true ∧ o.tail.headD true = true := by
  simp [ringHasRoom]

section Serve

variable (cfg : NfsConfig) (v : NfsFrame) (rpc : RpcHeader) (junk : List UInt8) (o : List Bool)
  (s : NfsState)

/-- With the pointer on the stack copy, the rest of `nfs_server_tc` leaves `client_track`
alone. -/
theorem nfsServe_stack :
    ((nfsServe cfg v rpc junk none).runAlone o s).2.2.clientTrack = s.clientTrack := by
  refine NfsProg.runAlone_clientTrack ?_ o s
  simp only [nfsServe, NfsProg.reserve, NfsProg.ktime, choose_bind, act_bind, ret_bind,
    acts_choose, acts_act, Bool.forall_bool, Bool.not_false, Bool.not_true, Bool.false_eq_true,
    eq_self_iff_true, ↓reduceIte, pure_eq, Prog.bind_assoc, acts_ret]
  refine ⟨trivial, trivial, rfl, fun ts => acts_bind (nfsDispatch_clients ..) fun r => ?_⟩
  split_ifs <;> simp [NfsProg.statAdd, NfsProg.submit, bumpClient, NfsAct.touchesClients]

/-- When a reservation fails, the rest of `nfs_server_tc` returns `TC_ACT_OK` at once and changes
nothing. -/
theorem nfsServe_ringFull (ptr : Option Nat) (ho : ringHasRoom o = false) :
    ((nfsServe cfg v rpc junk ptr).runAlone o s).1 = tcActOk ∧
      ((nfsServe cfg v rpc junk ptr).runAlone o s).2.2 = s := by
  rcases o with _ | ⟨_ | _, _ | ⟨_ | _, o⟩⟩ <;> first | exact ⟨rfl, rfl⟩ | cases ho

/-- When both reservations succeed and the pointer is the map element `i`, the rest of
`nfs_server_tc` adds one to `kernel_processed` or to `user_forwarded` of element `i`. -/
theorem nfsServe_bump (i : Nat) (ho : ringHasRoom o = true) :
    ∃ c, (c = .kernelProcessed ∨ c = .userForwarded) ∧
      ((nfsServe cfg v rpc junk (some i)).runAlone o s).2.2.clientTrack =
        s.clientTrack.modify i fun st =>
          st.set c ((((s.clientTrack.heap i).map (·.get c)).getD 0 + 1) % 2 ^ 32) := by
  have hd := fun ev o' => NfsProg.runAlone_clientTrack
    (nfsDispatch_clients cfg rpc (nfsRequestOf v rpc) ev junk) o' s
  simp only [NfsProg.runAlone] at hd
  obtain ⟨h1, h2⟩ := (ringHasRoom_iff o).1 ho
  simp only [NfsProg.runAlone, nfsServe, NfsProg.reserve, NfsProg.ktime, run_bind, run_choose,
    pure_eq, h1, h2, Bool.not_true, Bool.false_eq_true, if_false, run_act, run_ret, NfsAct.exec]
  split_ifs
  · exact ⟨.kernelProcessed, .inl rfl, by
      simp [bumpClient, NfsProg.statAdd, NfsProg.submit, NfsAct.exec, hd]⟩
  · exact ⟨.userForwarded, .inr rfl, by
      simp [bumpClient, NfsProg.statAdd, NfsProg.submit, NfsAct.exec, hd]⟩

end Serve

/-! ## Sequential runs -/

/-- One invocation of `nfs_server_tc` in a sequential run: how long after the previous one it
starts, its frame, what the handlers' stack buffer holds, and the ring's answers to its two
reservations. -/
structure TcCall where
  elapsed : Nat
  frame : List UInt8
  junk : List UInt8
  ring : List Bool

/-- One invocation, run alone from start to end once `bpf_ktime_get_ns` has advanced. -/
def tcStep (cfg : NfsConfig) (s : NfsState) (c : TcCall) : NfsState :=
  ((nfsServerTc cfg c.frame c.junk).runAlone c.ring { s with clock := s.clock + c.elapsed }).2.2

/-- A sequential run of `nfs_server_tc`: one invocation at a time. -/
def nfsTcRun (cfg : NfsConfig) (calls : List TcCall) (s : NfsState) : NfsState :=
  calls.foldl (tcStep cfg) s

/-- The call's frame passed validation and comes from client `a`. -/
def TcCall.fromClient (a : Nat) (c : TcCall) : Bool :=
  match nfsCall c.frame with
  | some (v, _) => v.clientIp == a
  | none => false

/-- A reservation of the call failed. -/
def TcCall.ringFull (c : TcCall) : Bool := !ringHasRoom c.ring

/-- What one invocation does to `client_track`: nothing for a frame that fails validation; for a
client with no entry, the update inserting a fresh one; for a client with entry `i`, the stores of
the time and of `request_count`, and, when both reservations succeed, the increment of
`kernel_processed` or of `user_forwarded`. -/
theorem tcStep_clientTrack (cfg : NfsConfig) (s : NfsState) (c : TcCall) :
    match nfsCall c.frame with
    | none => (tcStep cfg s c).clientTrack = s.clientTrack
    | some (v, _) =>
      match s.clientTrack.lookup v.clientIp with
      | none =>
        (tcStep cfg s c).clientTrack = (updateStatus s.clientTrack v.clientIp
          { clientAddr := v.clientIp, lastRequestTime := s.clock + c.elapsed, requestCount := 1,
            kernelProcessed := 0, userForwarded := 0 }).2
      | some (i, st) =>
        let m := (s.clientTrack.modify i fun x => { x with lastRequestTime := s.clock + c.elapsed
          }).modify i fun x => x.set .requestCount ((st.requestCount + 1) % 2 ^ 32)
        c.ringFull = true ∧ (tcStep cfg s c).clientTrack = m ∨
          c.ringFull = false ∧ ∃ cc, (cc = .kernelProcessed ∨ cc = .userForwarded) ∧
            (tcStep cfg s c).clientTrack =
              m.modify i fun x => x.set cc ((((m.heap i).map (·.get cc)).getD 0 + 1) % 2 ^ 32) := by
  unfold tcStep nfsServerTc
  rcases hc : nfsCall c.frame with _ | ⟨v, rpc⟩
  · rfl
  have ht := trackClient_run v.clientIp c.ring { s with clock := s.clock + c.elapsed }
  simp only [NfsProg.runAlone] at ht ⊢
  rw [run_bind, ht]
  rcases h : s.clientTrack.lookup v.clientIp with _ | ⟨i, st⟩
  · exact nfsServe_stack cfg v rpc c.junk _ _
  · cases hr : ringHasRoom c.ring
    · exact .inl ⟨by simp [TcCall.ringFull, hr],
        congrArg NfsState.clientTrack (nfsServe_ringFull cfg v rpc c.junk _ _ _ hr).2⟩
    · exact .inr ⟨by simp [TcCall.ringFull, hr], nfsServe_bump cfg v rpc c.junk _ _ i hr⟩

/-! ## The counters over a sequential run -/

/-- What `client_track` holds for client `a` after the calls `done` of a sequential run: with an
entry, the client has sent a frame that passed validation, its `request_count` counts those
frames, and `kernel_processed + user_forwarded` all but the first and the later ones that found
the ring full; without one, it has sent none or the map is full. -/
structure ClientOk (m : BpfHash Nat NfsClientState) (done : List TcCall) (a : Nat) : Prop where
  present : ∀ i st, m.lookup a = some (i, st) →
    done.filter (·.fromClient a) ≠ [] ∧
      st.requestCount = (done.filter (·.fromClient a)).length % 2 ^ 32 ∧
      (st.kernelProcessed + st.userForwarded + 1 +
        ((done.filter (·.fromClient a)).tail.filter (·.ringFull)).length) % 2 ^ 32 =
          st.requestCount
  absent : m.lookup a = none → done.filter (·.fromClient a) = [] ∨ m.Full

/-- A call from another client that leaves `a`'s entry and a full map as they were keeps
`ClientOk` for `a`. -/
theorem ClientOk.frame {m m' : BpfHash Nat NfsClientState} {done : List TcCall} {a : Nat}
    {c : TcCall} (h : ClientOk m done a) (hl : m'.lookup a = m.lookup a)
    (hfull : m.Full → m'.Full) (hc : c.fromClient a = false) : ClientOk m' (done ++ [c]) a := by
  have hf : (done ++ [c]).filter (·.fromClient a) = done.filter (·.fromClient a) := by
    simp [List.filter_append, hc]
  refine ⟨fun i st h' => ?_, fun h' => ?_⟩ <;> rw [hf]
  · exact h.present i st (hl ▸ h')
  · exact (h.absent (hl ▸ h')).imp_right hfull

/-- A call of `a` adds itself at the end of `a`'s calls. -/
theorem filter_fromClient_append (done : List TcCall) {a : Nat} {c : TcCall}
    (hc : c.fromClient a = true) :
    (done ++ [c]).filter (·.fromClient a) = done.filter (·.fromClient a) ++ [c] := by
  simp [List.filter_append, hc]

/-- One invocation keeps `ClientOk` for every client. -/
theorem ClientOk.step (cfg : NfsConfig) {s : NfsState} {done : List TcCall} (c : TcCall)
    (h : ∀ a, ClientOk s.clientTrack done a) (a : Nat) :
    ClientOk (tcStep cfg s c).clientTrack (done ++ [c]) a := by
  have hs := tcStep_clientTrack cfg s c
  rcases hc : nfsCall c.frame with _ | ⟨v, rpc⟩ <;> simp only [hc] at hs
  · exact (h a).frame (by rw [hs]) (by rw [hs]; exact id) (by simp [TcCall.fromClient, hc])
  have hfrom : c.fromClient a = (v.clientIp == a) := by simp [TcCall.fromClient, hc]
  by_cases ha : a = v.clientIp
  case neg =>
    have hc' : c.fromClient a = false := by simp [hfrom, Ne.symm ha]
    rcases hl : s.clientTrack.lookup v.clientIp with _ | ⟨i, st⟩ <;> simp only [hl] at hs
    · refine (h a).frame ?_ (hs ▸ updateStatus_full _ _) hc'
      rw [hs, updateStatus_lookup, if_neg (fun h' => ha h'.2)]
    · have h1 := BpfHash.modify_lookup_self _ hl
        (fun x => { x with lastRequestTime := s.clock + c.elapsed })
      have h2 := BpfHash.modify_lookup_self _ h1
        (fun x => x.set .requestCount ((st.requestCount + 1) % 2 ^ 32))
      rcases hs with ⟨-, hs⟩ | ⟨-, cc, -, hs⟩ <;> refine (h a).frame ?_ (hs ▸ id) hc'
      · rw [hs, BpfHash.modify_lookup_of_ne _ h1 ha, BpfHash.modify_lookup_of_ne _ hl ha]
      · rw [hs, BpfHash.modify_lookup_of_ne _ h2 ha, BpfHash.modify_lookup_of_ne _ h1 ha,
          BpfHash.modify_lookup_of_ne _ hl ha]
  case pos =>
    subst ha
    have hc' : c.fromClient v.clientIp = true := by simp [hfrom]
    have hi := h v.clientIp
    have hL := filter_fromClient_append done hc'
    rcases hl : s.clientTrack.lookup v.clientIp with _ | ⟨i, st⟩ <;> simp only [hl] at hs
    · cases hu : (updateStatus s.clientTrack v.clientIp
          { clientAddr := v.clientIp, lastRequestTime := s.clock + c.elapsed, requestCount := 1,
            kernelProcessed := 0, userForwarded := 0 }).1
      case false =>
        obtain ⟨hm, hn⟩ := updateStatus_false hu
        rw [hm] at hs
        refine ⟨fun i st h' => ?_, fun _ => .inr ?_⟩
        · rw [hs, hl] at h'; cases h'
        · rw [hs]; exact ((BpfHash.update_eq_none _).1 hn).2
      case true =>
        have hn : done.filter (·.fromClient v.clientIp) = [] := (hi.absent hl).resolve_right
          fun hfull => by
            unfold updateStatus at hu
            rw [(BpfHash.update_eq_none _).2 ⟨hl, hfull⟩] at hu
            cases hu
        have hnew := updateStatus_lookup s.clientTrack v.clientIp
          { clientAddr := v.clientIp, lastRequestTime := s.clock + c.elapsed, requestCount := 1,
            kernelProcessed := 0, userForwarded := 0 } v.clientIp
        rw [if_pos ⟨hu, rfl⟩, ← hs] at hnew
        refine ⟨fun j st' h' => ?_, fun h' => ?_⟩ <;> rw [hnew] at h' <;> cases h'
        simp [hL, hn, TcCall.ringFull]
    · obtain ⟨hne, hrc, hsum⟩ := hi.present i st hl
      have htail : (done.filter (·.fromClient v.clientIp) ++ [c]).tail =
          (done.filter (·.fromClient v.clientIp)).tail ++ [c] := List.tail_append_of_ne_nil hne
      have h1 := BpfHash.modify_lookup_self _ hl
        (fun x => { x with lastRequestTime := s.clock + c.elapsed })
      have h2 := BpfHash.modify_lookup_self _ h1
        (fun x => x.set .requestCount ((st.requestCount + 1) % 2 ^ 32))
      rcases hs with ⟨hfull, hs⟩ | ⟨hfull, cc, hcc, hs⟩
      · refine ⟨fun j st' h' => ?_, fun h' => ?_⟩ <;> rw [hs, h2] at h' <;> cases h'
        simp only [hL, htail, List.filter_append, List.filter_cons, List.filter_nil, hfull,
          if_true, NfsClientState.set, List.length_append, List.length_cons, List.length_nil]
        exact ⟨by simp, by omega, by omega⟩
      · rw [((BpfHash.lookup_eq_some _).1 h2).2] at hs
        refine ⟨fun j st' h' => ?_, fun h' => ?_⟩ <;> rw [hs, BpfHash.modify_lookup_self _ h2] at h' <;>
          cases h'
        rcases hcc with rfl | rfl <;>
          simp only [hL, htail, List.filter_append, List.filter_cons, List.filter_nil, hfull,
            Bool.false_eq_true, if_false, NfsClientState.set, NfsClientState.get, Option.map_some',
            Option.getD_some, List.length_append, List.length_cons, List.length_nil,
            List.append_nil] <;>
          exact ⟨by simp, by omega, by omega⟩

/-- Every client stays `ClientOk` over a sequential run. -/
theorem ClientOk.run (cfg : NfsConfig) (calls : List TcCall) :
    ∀ (s : NfsState) (done : List TcCall), (∀ a, ClientOk s.clientTrack done a) →
      ∀ a, ClientOk (nfsTcRun cfg calls s).clientTrack (done ++ calls) a := by
  induction calls with
  | nil => simp [nfsTcRun]
  | cons c cs ih =>
    intro s done h
    simpa [nfsTcRun] using ih (tcStep cfg s c) (done ++ [c]) (ClientOk.step cfg c h)

set_option maxRecDepth 8000 in
/-- A `NULL` call from 10.0.0.1 runs alone and creates its entry with `request_count = 1`; then
two more overlap, each loading `request_count` before either stores it back. Both finish, and
`request_count` is 2 after three calls. -/
theorem requestCount_lost_update :
    let s₁ : Pool NfsAct NfsAct.Res NfsState :=
      nfsTestSystem.run (Pool.start (NfsState.init 0 0))
        ([.spawn (.tc nullCallFrame [])] ++ List.replicate 11 (.step 0 true))
    let s₂ : Pool NfsAct NfsAct.Res NfsState :=
      nfsTestSystem.run s₁
        ([.spawn (.tc nullCallFrame []), .spawn (.tc nullCallFrame [])] ++
          List.replicate 4 (.step 1 true) ++ List.replicate 4 (.step 2 true) ++
          List.replicate 11 (.step 1 true) ++ List.replicate 11 (.step 2 true))
    nfsTestSystem.Reachable (NfsState.init 0 0) s₂ ∧
      (s₁.maps.clientTrack.get 0x0100000a).map (·.requestCount) = some 1 ∧
      s₂.next = 3 ∧ (∀ t < s₂.next, (s₂.running t).isNone) ∧
      (s₂.maps.clientTrack.get 0x0100000a).map (·.requestCount) = some 2 :=
  ⟨.run _ (.run _ (.start _ _) _) _, by decide, by decide, by decide, by decide⟩

end EbpfNfs
