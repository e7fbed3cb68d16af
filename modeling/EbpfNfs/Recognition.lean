import EbpfNfs.Clients

/-!
# Which frames the TC programs act on, and what a full ring leaves

Both TC programs walk the frame's headers and return `TC_ACT_OK` early unless every check
passes. `HttpRecognized` and `NfsRecognized` state those checks field by field, on the bytes of
the frame rather than through the walk; the walks pass exactly on them (`httpFrame_eq_none_iff`,
`nfsCall_eq_none_iff`). The checks do not include `ihl ≥ 5`, `doff ≥ 5` or a zero fragment
offset, so a later fragment of a datagram is processed (`fragment_recognized`).

Over every map state and every answer of the ring, each program returns `TC_ACT_OK`, and it
changes nothing exactly on the frames it does not recognize, with one more case for
`nfs_server_tc`: a frame from a client with no entry, while `client_track` is full and the ring
has no room (`tc_changes_iff_recognized`).

A full ring does not leave the shared state as a run with room would: `fileserver_ingress` has
then only counted the frame in `stats[0]`, and `nfs_server_tc` has only done its client-tracking
step (`ringFull_state`), so a forward is neither counted in `stats[2]` nor seen in `conn_track`
(`ringFull_drops_connTrack`).
-/

namespace EbpfNfs

open Prog

/-! ## The frames each program acts on -/

/-- The method test of `parse_http_method`, on a payload of at least four bytes: it begins with
`GET`, `POST` or `PUT`, or with `DELETE` when its 16-bit length is at least 6. -/
def MethodPrefix (p : List UInt8) (len : Nat) : Prop :=
  p.take 3 = ascii "GET" ∨ p.take 4 = ascii "POST" ∨ p.take 3 = ascii "PUT" ∨
    (p.take 6 = ascii "DELETE" ∧ 6 ≤ len)

/-- `parse_http_method` recognizes a payload of at least four bytes exactly when it begins with a
method. -/
theorem parseHttpMethod_ne_unknown_iff {p : List UInt8} {len : Nat} (hl : 4 ≤ len)
    (hp : len ≤ p.length) : parseHttpMethod p len ≠ httpUnknown ↔ MethodPrefix p len := by
  have h6 : p.take 6 = ascii "DELETE" → 6 ≤ p.length := fun h => by
    have := congrArg List.length h
    rw [List.length_take, show (ascii "DELETE").length = 6 from rfl] at this
    omega
  unfold parseHttpMethod MethodPrefix
  rw [if_neg (by omega)]
  split_ifs with hg hpost hput hdel
  · simp [hg, httpGet, httpUnknown]
  · simp [hpost.2.2, httpPost, httpUnknown]
  · simp [hput, httpPut, httpUnknown]
  · simp [hdel.2.2, hdel.2.1, httpDelete, httpUnknown]
  · simp only [ne_eq, not_true_eq_false, false_iff]
    rintro (h | h | h | ⟨h, h'⟩)
    · exact hg h
    · exact hpost ⟨by omega, hl, h⟩
    · exact hput h
    · exact hdel ⟨h6 h, h', h⟩

/-- The frames `fileserver_ingress` acts on (fileserver.bpf.c:163-201): an Ethernet
header of type IPv4 and a 20-byte IPv4 header; protocol TCP; the 20-byte TCP header `4 * ihl`
bytes into the IPv4 header within the frame; destination port 80 or 8080; a payload
`4 * doff` bytes into the TCP header that is not empty, whose length modulo `2 ^ 16` is at least
4, and which begins with a method. Neither `ihl ≥ 5`, `doff ≥ 5` nor the fragment offset is
checked. -/
def HttpRecognized (f : List UInt8) : Prop :=
  ipv4Frame f = true ∧ ipProtocol f = ipprotoTcp ∧ transportOff f + tcpHlen ≤ f.length ∧
    (be16 f (transportOff f + 2) = 80 ∨ be16 f (transportOff f + 2) = 8080) ∧
    transportOff f + tcpDoff f (transportOff f) * 4 < f.length ∧
    4 ≤ (f.length - (transportOff f + tcpDoff f (transportOff f) * 4)) % 2 ^ 16 ∧
    MethodPrefix (f.drop (transportOff f + tcpDoff f (transportOff f) * 4))
      ((f.length - (transportOff f + tcpDoff f (transportOff f) * 4)) % 2 ^ 16)

instance : DecidablePred HttpRecognized := fun f => by
  unfold HttpRecognized MethodPrefix; infer_instance

/-- The walk of `fileserver_ingress` gets past the method test exactly on `HttpRecognized`
frames. -/
theorem httpFrame_eq_none_iff (f : List UInt8) : httpFrame f = none ↔ ¬ HttpRecognized f := by
  have hlen : ∀ p, (f.length - p) % 2 ^ 16 ≤ (f.drop p).length := fun p => by
    simpa using Nat.mod_le (f.length - p) (2 ^ 16)
  rw [← not_iff_not, not_not, ← ne_eq, Option.ne_none_iff_exists']
  simp only [httpFrame, HttpRecognized, Option.ite_none_left_eq_some, Option.some.injEq,
    exists_and_left, exists_eq', and_true]
  constructor
  · rintro ⟨h1, h2, h3, h4, h5, h6, h7⟩
    exact ⟨by simpa using h1, not_not.1 h2, not_lt.1 h3, (not_and_or.1 h4).imp not_not.1 not_not.1,
      not_le.1 h5, not_lt.1 h6, (parseHttpMethod_ne_unknown_iff (not_lt.1 h6) (hlen _)).1 h7⟩
  · rintro ⟨h1, h2, h3, h4, h5, h6, h7⟩
    exact ⟨by simp [h1], not_not.2 h2, not_lt.2 h3, fun h => h4.elim h.1 h.2, not_le.2 h5,
      not_lt.2 h6, (parseHttpMethod_ne_unknown_iff h6 (hlen _)).2 h7⟩

/-- The envelope words of an RPC call to NFS version 3: big-endian words 1 to 4 of the payload are
`RPC_CALL`, 2, `RPC_PROGRAM_NFS` and `NFS_VERSION_3`. -/
def NfsCallWords (p : List UInt8) : Prop :=
  be32 p 4 = rpcCall ∧ be32 p 8 = 2 ∧ be32 p 12 = rpcProgramNfs ∧ be32 p 16 = nfsVersion3

/-- The frames `nfs_server_tc` acts on (test_nfs_server.sh:570-611): an Ethernet header of
type IPv4 and a 20-byte IPv4 header; protocol UDP; the 8-byte UDP header `4 * ihl` bytes into the
IPv4 header within the frame; destination port 2049; a payload whose length modulo `2 ^ 16` is
at least 32 and whose envelope words are those of an NFS version 3 call. Neither `ihl ≥ 5` nor
the fragment offset is checked. -/
def NfsRecognized (f : List UInt8) : Prop :=
  ipv4Frame f = true ∧ ipProtocol f = ipprotoUdp ∧ transportOff f + udpHlen ≤ f.length ∧
    be16 f (transportOff f + 2) = nfsPort ∧
    rpcHeaderLen ≤ (f.length - (transportOff f + udpHlen)) % 2 ^ 16 ∧
    NfsCallWords (f.drop (transportOff f + udpHlen))

instance : DecidablePred NfsRecognized := fun f => by
  unfold NfsRecognized NfsCallWords; infer_instance

/-- The kernel's envelope check passes exactly on a payload whose 16-bit length holds an RPC
header and whose envelope words are those of an NFS version 3 call. -/
theorem kernelRpc_eq_none_iff (p : List UInt8) :
    kernelRpc p = none ↔ ¬ (rpcHeaderLen ≤ p.length % 2 ^ 16 ∧ NfsCallWords p) := by
  unfold kernelRpc parseRpcHeader
  by_cases hl : p.length % 2 ^ 16 < rpcHeaderLen
  · rw [if_pos hl]
    exact iff_of_true rfl fun h => not_le.2 hl h.1
  have hp : rpcHeaderLen ≤ p.length := (not_lt.1 hl).trans (Nat.mod_le _ _)
  have hw : ∀ i, i + 4 ≤ rpcHeaderLen → extractBe32 p i = be32 p i := fun i hi => if_neg (by omega)
  rw [if_neg hl, if_neg (not_lt.2 hp), and_iff_right (not_lt.1 hl)]
  simp [Option.filter, rpcIsNfsCall, hw 4 (by decide), hw 8 (by decide), hw 12 (by decide),
    hw 16 (by decide), NfsCallWords]

/-- The walk and the RPC checks of `nfs_server_tc` pass exactly on `NfsRecognized` frames. -/
theorem nfsCall_eq_none_iff (f : List UInt8) : nfsCall f = none ↔ ¬ NfsRecognized f := by
  have hk := fun p => (kernelRpc_eq_none_iff p).not.trans not_not
  rw [← not_iff_not, not_not, ← ne_eq, Option.ne_none_iff_exists', nfsCall_eq]
  simp only [Option.bind_eq_some, Option.map_eq_some', nfsFrame, Option.ite_none_left_eq_some,
    Option.some.injEq, Prod.exists]
  constructor
  · rintro ⟨_, _, _, ⟨h1, h2, h3, h4, -, h6, rfl⟩, r, hr, -⟩
    exact ⟨by simpa using h1, not_not.1 h2, not_lt.1 h3, not_not.1 h4, not_lt.1 h6,
      ((hk _).1 (by simp [hr])).2⟩
  · rintro ⟨h1, h2, h3, h4, h5, h6⟩
    have h0 : ¬ f.length ≤ transportOff f + udpHlen := fun h => by
      rw [Nat.sub_eq_zero_of_le h] at h5
      exact absurd h5 (by decide)
    obtain ⟨r, hr⟩ := Option.ne_none_iff_exists'.1 ((hk _).2 ⟨by rwa [List.length_drop], h6⟩)
    exact ⟨_, _, _, ⟨by simp [h1], not_not.2 h2, not_lt.2 h3, not_not.2 h4, h0, not_lt.2 h5, rfl⟩,
      r, hr, rfl⟩

/-! ## What a frame does -/

/-- An action other than `update_stats(0, 1)` keeps `stats[0]`. -/
theorem HttpAct.exec_total (tid : Nat) {a : HttpAct} (s : HttpMaps) (ha : a.statIndex ≠ some 0) :
    (HttpAct.exec tid a s).2.stats 0 = s.stats 0 := by
  rw [HttpAct.exec_stats]
  cases h : a.statIndex with
  | none => rfl
  | some j =>
    have hj : (0 : Nat) ≠ j := fun hj => ha (hj ▸ h)
    simp [arrayAdd_apply, hj]

/-- The decision of `fileserver_ingress` never adds to `stats[0]`. -/
theorem ingressDecision_total (cfg : HttpConfig) (v : HttpFrame) (filename : List UInt8) :
    Acts (fun a => a.statIndex ≠ some 0) (ingressDecision cfg v filename) := by
  have hS : ∀ j, j ≠ 0 → Acts (fun a : HttpAct => a.statIndex ≠ some 0) (HttpProg.statAdd j) :=
    fun j hj => ⟨by simpa [HttpAct.statIndex] using hj, fun _ => trivial⟩
  have hE : ∀ op size fwd, Acts (fun a : HttpAct => a.statIndex ≠ some 0)
      (emitFileEvent v filename op size fwd) := fun _ _ _ => by
    simp [emitFileEvent, HttpProg.reserve, HttpProg.ktime, HttpProg.submit, HttpAct.statIndex,
      acts_ite]
  have hM : Acts (fun a : HttpAct => a.statIndex ≠ some 0) (cacheMiss v filename) :=
    acts_bind (hS 2 (by decide)) fun _ => acts_bind (hE _ _ _) fun _ => trivial
  have hH : ∀ i e, Acts (fun a : HttpAct => a.statIndex ≠ some 0) (cacheHit v filename i e) :=
    fun _ _ => acts_bind ⟨by simp [HttpAct.statIndex], fun _ => trivial⟩ fun _ =>
      acts_bind ⟨by simp [HttpAct.statIndex], fun _ => trivial⟩ fun _ =>
      acts_bind (hS 1 (by decide)) fun _ => acts_bind (hE _ _ _) fun _ => trivial
  unfold ingressDecision
  refine (acts_ite _ _ _).2 ⟨fun _ => (acts_ite _ _ _).2
    ⟨fun _ => ⟨by simp [HttpAct.statIndex], ?_⟩,
    fun _ => acts_bind (hE _ _ _) fun _ => acts_bind (hS 3 (by decide)) fun _ => trivial⟩,
    fun _ => acts_bind (hS 2 (by decide)) fun _ => trivial⟩
  rintro (_ | ⟨i, e⟩)
  · exact hM
  · exact (acts_ite _ _ _).2 ⟨fun _ => hH i e, fun _ => hM⟩

/-- A frame past the method test: `fileserver_ingress` adds one to `stats[0]`, which nothing after
it touches, and returns `TC_ACT_OK`. -/
theorem fileserverIngress_recognized (cfg : HttpConfig) {f : List UInt8} {v : HttpFrame}
    (h : httpFrame f = some v) (o : List Bool) (s : HttpMaps) :
    ((fileserverIngress cfg f).runAlone o s).1 = tcActOk ∧
      ((fileserverIngress cfg f).runAlone o s).2.2.stats 0 = (s.stats 0 + 1) % 2 ^ 64 := by
  have hd := fun o' s' => Acts.run (fun m : HttpMaps => m.stats 0)
    (ingressDecision_total cfg v (ingressFilename v.payload v.payloadLen))
    (fun _ s ha => HttpAct.exec_total 0 s ha) o' s'
  unfold fileserverIngress
  rw [h]
  rcases o with _ | ⟨_ | _, o⟩ <;>
    simp [HttpProg.runAlone, HttpProg.statAdd, HttpProg.reserve, HttpProg.ktime,
      HttpProg.submit, run_bind, HttpAct.exec, hd]

/-- An action other than `update_nfs_stats(0, 1)` keeps `nfs_stats[0]`. -/
theorem NfsAct.exec_total (tid : Nat) {a : NfsAct} (s : NfsState) (ha : a.statIndex ≠ some 0) :
    (NfsAct.exec tid a s).2.stats 0 = s.stats 0 := by
  rw [NfsAct.exec_stats]
  cases h : a.statIndex with
  | none => rfl
  | some j =>
    have hj : (0 : Nat) ≠ j := fun hj => ha (hj ▸ h)
    simp [arrayAdd_apply, hj]

/-- With room in the ring, the rest of `nfs_server_tc` adds one to `nfs_stats[0]`, which nothing
else it does touches, and returns `TC_ACT_OK`. -/
theorem nfsServe_room (cfg : NfsConfig) (v : NfsFrame) (rpc : RpcHeader) (junk : List UInt8)
    (ptr : Option Nat) {o : List Bool} (ho : ringHasRoom o = true) (s : NfsState) :
    ((nfsServe cfg v rpc junk ptr).runAlone o s).1 = tcActOk ∧
      ((nfsServe cfg v rpc junk ptr).runAlone o s).2.2.stats 0 = (s.stats 0 + 1) % 2 ^ 64 := by
  have hd := fun ev o' s' => Acts.run (fun m : NfsState => m.stats 0)
    ((nfsDispatch_inDispatch cfg rpc (nfsRequestOf v rpc) ev junk).mono
      fun a h => show a.statIndex ≠ some 0 by cases a <;> simp_all [NfsAct.inDispatch, NfsAct.statIndex])
    (fun _ s ha => NfsAct.exec_total 0 s ha) o' s'
  obtain ⟨h1, h2⟩ := (ringHasRoom_iff o).1 ho
  simp only [NfsProg.runAlone, nfsServe, NfsProg.reserve, NfsProg.ktime, run_bind, run_choose,
    pure_eq, h1, h2, Bool.not_true, Bool.false_eq_true, if_false, run_act, run_ret, NfsAct.exec]
  split_ifs <;> cases ptr <;>
    simp [bumpClient, NfsProg.statAdd, NfsProg.submit, NfsAct.exec, hd, arrayAdd_apply]

/-- The client-tracking step touches only `client_track` and no reservation. -/
theorem trackClient_stats (ip : Nat) (o : List Bool) (s : NfsState) :
    ((trackClient ip).runAlone o s).2.1 = o ∧ ((trackClient ip).runAlone o s).2.2.stats = s.stats := by
  rw [trackClient_run]; split <;> exact ⟨rfl, rfl⟩

/-- The client-tracking step changes nothing exactly when the client has no entry and
`client_track` is full, so that its insertion is refused. -/
theorem trackClient_unchanged_iff (ip : Nat) (o : List Bool) (s : NfsState) :
    ((trackClient ip).runAlone o s).2.2 = s ↔ s.clientTrack.lookup ip = none ∧ s.clientTrack.Full := by
  rw [trackClient_run]
  rcases hl : s.clientTrack.lookup ip with _ | ⟨i, st⟩
  · simp only [true_and]
    cases hu : (updateStatus s.clientTrack ip
        { clientAddr := ip, lastRequestTime := s.clock, requestCount := 1, kernelProcessed := 0,
          userForwarded := 0 }).1
    · obtain ⟨hm, hn⟩ := updateStatus_false hu
      simp only [hm, ((BpfHash.update_eq_none _).1 hn).2, iff_true]
    · refine ⟨fun he => ?_, fun hf => ?_⟩
      · have := congrArg (fun t : NfsState => t.clientTrack.lookup ip) he
        simp [updateStatus_lookup, hu, hl] at this
      · unfold updateStatus at hu
        rw [(BpfHash.update_eq_none _).2 ⟨hl, hf⟩] at hu
        cases hu
  · simp only [reduceCtorEq, false_and, iff_false]
    intro he
    have := congrArg (fun t : NfsState => t.clientTrack.lookup ip) he
    simp only [BpfHash.modify_lookup_self _ (BpfHash.modify_lookup_self _ hl _), hl,
      Option.some.injEq, Prod.mk.injEq, true_and] at this
    have := congrArg NfsClientState.requestCount this
    simp only [NfsClientState.set] at this
    omega

/-- The client of an NFS call is the source address of its frame. -/
theorem nfsCall_clientIp {f : List UInt8} {v : NfsFrame} {rpc : RpcHeader}
    (h : nfsCall f = some (v, rpc)) : v.clientIp = ipSaddr f := by
  rw [nfsCall_eq, Option.bind_eq_some] at h
  obtain ⟨w, hw, hm⟩ := h
  obtain ⟨_, -, ⟨⟩⟩ := Option.map_eq_some'.1 hm
  rw [nfsFrame_eq_some hw]

/-- A frame that passes the checks: `nfs_server_tc` returns `TC_ACT_OK`, and changes nothing
exactly when the client has no entry, `client_track` is full, and a reservation fails. -/
theorem nfsServerTc_recognized (cfg : NfsConfig) {f : List UInt8} {v : NfsFrame}
    {rpc : RpcHeader} (h : nfsCall f = some (v, rpc)) (junk : List UInt8) (o : List Bool)
    (s : NfsState) :
    ((nfsServerTc cfg f junk).runAlone o s).1 = tcActOk ∧
      (((nfsServerTc cfg f junk).runAlone o s).2.2 = s ↔
        s.clientTrack.lookup v.clientIp = none ∧ s.clientTrack.Full ∧ ringHasRoom o = false) := by
  obtain ⟨ho, hst⟩ := trackClient_stats v.clientIp o s
  have hu := trackClient_unchanged_iff v.clientIp o s
  unfold nfsServerTc
  rw [h]
  simp only [NfsProg.runAlone, run_bind] at ho hst hu ⊢
  rw [ho]
  cases hr : ringHasRoom o
  · have hf := nfsServe_ringFull cfg v rpc junk o ((trackClient v.clientIp).runAlone o s).2.2
      ((trackClient v.clientIp).runAlone o s).1 hr
    simp only [NfsProg.runAlone] at hf
    rw [hf.1, hf.2]
    simpa using hu
  · obtain ⟨h1, h2⟩ := nfsServe_room cfg v rpc junk ((trackClient v.clientIp).runAlone o s).1 hr
      ((trackClient v.clientIp).runAlone o s).2.2
    simp only [NfsProg.runAlone] at h1 h2
    refine ⟨h1, iff_of_false (fun he => ?_) (by simp)⟩
    have := congrArg (fun t : NfsState => t.stats 0) he
    simp only [h2, hst] at this
    omega

/-- A frame that fails the checks: `nfs_server_tc` returns `TC_ACT_OK` and changes nothing. -/
theorem nfsServerTc_unrecognized (cfg : NfsConfig) {f : List UInt8} (h : nfsCall f = none)
    (junk : List UInt8) (o : List Bool) (s : NfsState) :
    (nfsServerTc cfg f junk).runAlone o s = (tcActOk, o, s) := by
  unfold nfsServerTc; rw [h]; rfl

/-- A frame that fails the method test: `fileserver_ingress` returns `TC_ACT_OK` and changes
nothing. -/
theorem fileserverIngress_unrecognized (cfg : HttpConfig) {f : List UInt8} (h : httpFrame f = none)
    (o : List Bool) (s : HttpMaps) : (fileserverIngress cfg f).runAlone o s = (tcActOk, o, s) := by
  unfold fileserverIngress; rw [h]; rfl

/-- Each TC program returns `TC_ACT_OK` on every frame, and leaves every map and the ring as they
were exactly on the frames it does not recognize, except, for `nfs_server_tc`,
a frame from a client with no `client_track` entry while `client_track` is full and the ring has
no room. -/
theorem tc_changes_iff_recognized :
    (∀ (cfg : HttpConfig) (f : List UInt8) (o : List Bool) (s : HttpMaps),
      ((fileserverIngress cfg f).runAlone o s).1 = tcActOk ∧
        (((fileserverIngress cfg f).runAlone o s).2.2 = s ↔ ¬ HttpRecognized f)) ∧
    (∀ (cfg : NfsConfig) (f junk : List UInt8) (o : List Bool) (s : NfsState),
      ((nfsServerTc cfg f junk).runAlone o s).1 = tcActOk ∧
        (((nfsServerTc cfg f junk).runAlone o s).2.2 = s ↔ ¬ NfsRecognized f ∨
          s.clientTrack.lookup (ipSaddr f) = none ∧ s.clientTrack.Full ∧ ringHasRoom o = false)) := by
  refine ⟨fun cfg f o s => ?_, fun cfg f junk o s => ?_⟩
  · cases h : httpFrame f with
    | none => simp [fileserverIngress_unrecognized cfg h, ← httpFrame_eq_none_iff, h]
    | some v =>
      obtain ⟨h1, h2⟩ := fileserverIngress_recognized cfg h o s
      have hr : HttpRecognized f := by simpa [h] using (httpFrame_eq_none_iff f).not
      refine ⟨h1, iff_of_false (fun he => ?_) (not_not.2 hr)⟩
      have := congrArg (fun t : HttpMaps => t.stats 0) he
      simp only [h2] at this
      omega
  · cases h : nfsCall f with
    | none => simp [nfsServerTc_unrecognized cfg h, ← nfsCall_eq_none_iff, h]
    | some p =>
      obtain ⟨v, rpc⟩ := p
      have hr : NfsRecognized f := by simpa [h] using (nfsCall_eq_none_iff f).not
      simpa [hr, ← nfsCall_clientIp h] using nfsServerTc_recognized cfg h junk o s

/-- `httpGetFrame` with fragment offset 1: the IPv4 header says it carries bytes 8 onwards of a
fragmented datagram. -/
def fragmentGetFrame : List UInt8 := httpGetFrame.set 21 1

set_option maxRecDepth 8000 in
/-- A fragment that is not the first of its datagram still reaches the method test, and
`fileserver_ingress` counts it in `stats[0]`. -/
theorem fragment_recognized :
    ipFragOff fragmentGetFrame ≠ 0 ∧
      ((fileserverIngress ⟨1⟩ fragmentGetFrame).runAlone [] (HttpMaps.init 0)).2.2.stats 0 = 1 := by
  decide

/-! ## A full ring -/

/-- With its first reservation failing, `fileserver_ingress` on a recognized frame has only added
one to `stats[0]`; `nfs_server_tc` with either reservation failing has only done its
client-tracking step. Neither commits a record, and both return `TC_ACT_OK`. -/
theorem ringFull_state :
    (∀ (cfg : HttpConfig) (f : List UInt8) (o : List Bool) (s : HttpMaps), HttpRecognized f →
      (fileserverIngress cfg f).runAlone (false :: o) s =
        (tcActOk, o, { s with stats := arrayAdd 16 s.stats 0 1 })) ∧
    (∀ (cfg : NfsConfig) (f junk : List UInt8) (o : List Bool) (s : NfsState), NfsRecognized f →
      ringHasRoom o = false →
      ((nfsServerTc cfg f junk).runAlone o s).1 = tcActOk ∧
        ((nfsServerTc cfg f junk).runAlone o s).2.2 = ((trackClient (ipSaddr f)).runAlone o s).2.2) := by
  refine ⟨fun cfg f o s hr => ?_, fun cfg f junk o s hr ho => ?_⟩
  · obtain ⟨v, h⟩ := Option.ne_none_iff_exists'.1 ((httpFrame_eq_none_iff f).not.2 (not_not.2 hr))
    unfold fileserverIngress
    rw [h]
    rfl
  · obtain ⟨⟨v, rpc⟩, h⟩ :=
      Option.ne_none_iff_exists'.1 ((nfsCall_eq_none_iff f).not.2 (not_not.2 hr))
    obtain ⟨ho', -⟩ := trackClient_stats v.clientIp o s
    have hf := nfsServe_ringFull cfg v rpc junk o ((trackClient v.clientIp).runAlone o s).2.2
      ((trackClient v.clientIp).runAlone o s).1 ho
    rw [← nfsCall_clientIp h]
    unfold nfsServerTc
    rw [h]
    simp only [NfsProg.runAlone, run_bind] at ho' hf ⊢
    rw [ho']
    exact hf

set_option maxRecDepth 8000 in
/-- `getRequest` to port 80 and a `NULL` call are recognized; with a full ring the first leaves
only `stats[0]` counted, and the second only its new `client_track` entry. -/
theorem ringFull_state_get_null :
    HttpRecognized httpGetFrame ∧
      (fileserverIngress ⟨1⟩ httpGetFrame).runAlone [false] (HttpMaps.init 0) =
        (tcActOk, [], { HttpMaps.init 0 with stats := arrayAdd 16 (HttpMaps.init 0).stats 0 1 }) ∧
    NfsRecognized nullCallFrame ∧ ringHasRoom [false] = false ∧
      ((nfsServerTc ⟨1, 1024, 60⟩ nullCallFrame []).runAlone [false] (NfsState.init 0 0)).2.2 =
        ((trackClient (ipSaddr nullCallFrame)).runAlone [false] (NfsState.init 0 0)).2.2 :=
  have hh : HttpRecognized httpGetFrame := by decide
  have hn : NfsRecognized nullCallFrame := by decide
  ⟨hh, ringFull_state.1 _ _ _ _ hh, hn, rfl, (ringFull_state.2 _ _ _ [false] _ hn rfl).2⟩

set_option maxRecDepth 8000 in
/-- `getRequest` for an uncached file: with room in the ring, `fileserver_ingress` counts the
forward in `stats[2]` and records the client in `conn_track`; with a full ring it does neither. -/
theorem ringFull_drops_connTrack :
    let room := ((fileserverIngress ⟨1⟩ httpGetFrame).runAlone [] (HttpMaps.init 0)).2.2
    let full := ((fileserverIngress ⟨1⟩ httpGetFrame).runAlone [false] (HttpMaps.init 0)).2.2
    room.connTrack.get (ipSaddr httpGetFrame) = some 0 ∧ room.stats 2 = 1 ∧
      full.connTrack.get (ipSaddr httpGetFrame) = none ∧ full.stats 2 = 0 := by
  decide

end EbpfNfs
