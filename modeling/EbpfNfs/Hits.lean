import EbpfNfs.Servers

/-!
# `cache_hits` never runs ahead of the hits

Both BPF objects count a hit on a cached file with `cache_entry->cache_hits++` on the element
the lookup returned: a load and a store through the map pointer, not an atomic add. Two
invocations that both load before either stores lose an increment, so `cache_hits` is not the
number of hits. What every interleaving does keep is the other direction: an element's
`cache_hits` is at most the number of stores made to it (`cacheHits_le_stores`). A lost update
only lowers the count, so does the wrap at `2 ^ 32`, and a new element starts at 0.

The argument is made once for any system and any family of counters (`CounterAccess.le_stores`).
Every invocation's history pairs each store to a counter with the load just before it, which
read the value the store writes less one: the monitor `StoreAfterLoad` accepts it, and each
program is checked against that monitor once (`Prog.Monitored`). The value a load reads was at most the
number of stores so far, and an invocation that has just loaded still holds such a value
(`CounterInv`); so a store writes at most the number of stores, its own included.
-/

namespace EbpfNfs

open Prog

section Counters

variable {ι ε A σ : Type} {R : A → Type}
  (loaded : Ev A R → Option (Nat × Nat)) (stored : A → Option (Nat × Nat)) (X : A → Prop)

/-- The monitor of the pairing, whose state is the last event: the event `e` is an action `X`
allows, and if it stores `v` to counter `i`, the event before it loaded `h` from `i` and
`v = (h + 1) % 2 ^ 32`. -/
def StoreAfterLoad (prev : Option (Ev A R)) (e : Ev A R) : Prop :=
  X e.1 ∧ ∀ i v, stored e.1 = some (i, v) →
    ∃ h, prev.bind loaded = some (i, h) ∧ v = (h + 1) % 2 ^ 32

/-- The state of `StoreAfterLoad` after the event `e`. -/
def lastEvent (_ : Option (Ev A R)) (e : Ev A R) : Option (Ev A R) := some e

/-- The stores to counter `j` in a log. -/
def storesTo (j : Nat) (log : List (Nat × Ev A R)) : Nat :=
  log.countP fun x => decide ((stored x.2.1).map Prod.fst = some j)

/-- What the counters hold: each at most the stores made to it, and so is the value any
invocation loaded last. -/
def CounterInv (cnt : σ → Nat → Option Nat) (m : σ) (log : List (Nat × Ev A R)) : Prop :=
  (∀ j c, cnt m j = some c → c ≤ storesTo stored j log) ∧
  ∀ t i h, ((log.filter fun x => x.1 == t).map Prod.snd).getLast?.bind loaded = some (i, h) →
    h ≤ storesTo stored i log

/-- How the actions of `S` reach the counters `cnt`: a load returns its counter, or 0 where
there is no element; a store sets its counter and no other; any other action `X` allows keeps
each counter or brings it into being at 0; the environment touches none. -/
structure CounterAccess (S : System ι ε A R σ) (cnt : σ → Nat → Option Nat) : Prop where
  load : ∀ t a s i h, loaded ⟨a, (S.exec t a s).1⟩ = some (i, h) → h = (cnt s i).getD 0
  store : ∀ t a s i v, stored a = some (i, v) → ∀ j,
    cnt (S.exec t a s).2 j = if j = i then (cnt s i).map (fun _ => v) else cnt s j
  other : ∀ t a s, X a → stored a = none → ∀ j c,
    cnt (S.exec t a s).2 j = some c → cnt s j = some c ∨ c = 0
  env : ∀ e s, cnt (S.envStep e s) = cnt s

variable {loaded stored X}

theorem foldl_lastEvent (l : List (Ev A R)) (q : Option (Ev A R)) :
    l.foldl lastEvent q = l.getLast?.or q := by
  induction l generalizing q with
  | nil => simp
  | cons e l ih => cases h : l.getLast? <;> simp [lastEvent, ih, h, List.getLast?_cons]

theorem storesTo_append (j : Nat) (log : List (Nat × Ev A R)) (x : Nat × Ev A R) :
    storesTo stored j (log ++ [x]) =
      storesTo stored j log + if (stored x.2.1).map Prod.fst = some j then 1 else 0 := by
  simp only [storesTo, List.countP_append, List.countP_cons, List.countP_nil, decide_eq_true_eq,
    Nat.zero_add]

theorem storesTo_le_append (j : Nat) (log : List (Nat × Ev A R)) (x : Nat × Ev A R) :
    storesTo stored j log ≤ storesTo stored j (log ++ [x]) := by
  rw [storesTo_append]; exact Nat.le_add_right _ _

variable {S : System ι ε A R σ} {cnt : σ → Nat → Option Nat}

/-- One action of invocation `t`, at a point where the pairing monitor accepts its history,
keeps the counters within the stores. -/
theorem CounterAccess.inv_step (hc : CounterAccess loaded stored X S cnt) {m : σ}
    {log : List (Nat × Ev A R)} {t : Nat} {a : A} (hI : CounterInv loaded stored cnt m log)
    (hP : Monitor (StoreAfterLoad loaded stored X) lastEvent none
      ((log.filter fun x => x.1 == t).map Prod.snd ++ [⟨a, (S.exec t a m).1⟩])) :
    CounterInv loaded stored cnt (S.exec t a m).2 (log ++ [(t, ⟨a, (S.exec t a m).1⟩)]) := by
  obtain ⟨hb, hl⟩ := hI
  simp only [monitor_append, Monitor, foldl_lastEvent, Option.or_none, and_true] at hP
  obtain ⟨-, hX, hst⟩ := hP
  -- what a load reads is within the stores so far
  have hread : ∀ i, (cnt m i).getD 0 ≤ storesTo stored i log := fun i => by
    cases h : cnt m i with
    | none => exact Nat.zero_le _
    | some c => exact hb i c h
  refine ⟨fun j c hj => ?_, fun t' i h hh => ?_⟩
  · rw [storesTo_append]
    cases hs : stored a with
    | none =>
      rcases hc.other t a m hX hs j c hj with h | rfl
      · simpa using hb j c h
      · exact Nat.zero_le _
    | some p =>
      obtain ⟨i, v⟩ := p
      rw [hc.store t a m i v hs j] at hj
      by_cases hji : j = i
      · subst hji
        obtain ⟨h, hh, rfl⟩ := hst j v hs
        obtain ⟨-, -, rfl⟩ := Option.map_eq_some'.1 (if_pos rfl ▸ hj)
        have := hl t j h hh
        simp only [Option.map_some', if_true]
        omega
      · rw [if_neg hji] at hj
        exact (hb j c hj).trans (Nat.le_add_right _ _)
  · refine le_trans ?_ (storesTo_le_append i log _)
    by_cases ht : t = t'
    · subst ht
      simp only [List.filter_append, List.filter_cons, beq_self_eq_true, if_true,
        List.filter_nil, List.map_append, List.map_cons, List.map_nil,
        List.getLast?_concat, Option.some_bind] at hh
      exact (hc.load t a m i h hh).symm ▸ hread i
    · simp only [List.filter_append, List.filter_cons, beq_iff_eq, ht, if_false,
        List.filter_nil, List.append_nil] at hh
      exact hl t' i h hh

/-- Over every interleaving of the programs of `S`, when the pairing monitor accepts each of
them, every counter is at most the number of stores made to it. -/
theorem CounterAccess.le_stores (hc : CounterAccess loaded stored X S cnt)
    (hp : ∀ i, Monitored (StoreAfterLoad loaded stored X) lastEvent (fun _ _ => True) none
      (S.prog i))
    {m : σ} (hm : ∀ j c, cnt m j = some c → c = 0) {s : Pool A R σ} (h : S.Reachable m s)
    {j c : Nat} (hj : cnt s.maps j = some c) : c ≤ storesTo stored j s.log := by
  refine (S.inv_reachable (fun i => (hp i).paths trivial) (CounterInv loaded stored cnt)
    ⟨fun j c hj => by simp [hm j c hj], fun _ _ _ hh => by simp at hh⟩
    (fun s t a _ hI _ hP => hc.inv_step hI hP) (fun e m' l hI => ?_) h).1 j c hj
  rwa [CounterInv, hc.env]

end Counters

/-! ## The NFS server -/

/-- The element a `cache_hits` load reads, with the value it read. -/
def NfsAct.hitsLoaded : Ev NfsAct NfsAct.Res → Option (Nat × Nat)
  | ⟨.loadHits i, h⟩ => some (i, h)
  | _ => none

/-- The element a `cache_hits` store writes, with the value it writes. -/
def NfsAct.hitsStored : NfsAct → Option (Nat × Nat)
  | .storeHits i v => some (i, v)
  | _ => none

/-- An update of `nfs_file_cache` installs an element whose `cache_hits` is 0. -/
def NfsAct.FreshHits : NfsAct → Prop
  | .updateCache _ e => e.cacheHits = 0
  | _ => True

/-- `cache_hits` of element `i` of `nfs_file_cache`, where there is one. -/
def NfsState.hits (s : NfsState) (i : Nat) : Option Nat := (s.fileCache.heap i).map (·.cacheHits)

/-- The NFS programs reach `cache_hits` only through `cache_entry->cache_hits++`, and
`cache_file_in_kernel` installs entries with `cache_hits = 0`. -/
theorem nfsHits_access (cfg : NfsConfig) (env : NfsServer.Env) :
    CounterAccess NfsAct.hitsLoaded NfsAct.hitsStored NfsAct.FreshHits (nfsSystem cfg env)
      NfsState.hits where
  load t a s i h hh := by
    cases a with
    | loadHits j =>
      simp only [nfsSystem, NfsAct.exec, NfsAct.hitsLoaded, Option.some.injEq, Prod.mk.injEq] at hh
      obtain ⟨rfl, rfl⟩ := hh
      rfl
    | _ => simp [NfsAct.hitsLoaded] at hh
  store t a s i v hs j := by
    cases a with
    | storeHits i' v' =>
      simp only [NfsAct.hitsStored, Option.some.injEq, Prod.mk.injEq] at hs
      obtain ⟨rfl, rfl⟩ := hs
      simp only [nfsSystem, NfsAct.exec, NfsState.hits, BpfHash.modify_heap]
      split_ifs <;> simp [Option.map_map, Function.comp_def]
    | _ => simp [NfsAct.hitsStored] at hs
  other t a s hX hs j c hj := by
    cases a with
    | storeHits => simp [NfsAct.hitsStored] at hs
    | updateCache k e =>
      simp only [nfsSystem, NfsAct.exec, NfsState.hits, updateStatus] at hj
      split at hj
      · exact .inl hj
      · next m' hu =>
        rw [BpfHash.update_heap hu] at hj
        split_ifs at hj
        · cases hj; exact .inr hX
        · exact .inl hj
    | consume =>
      simp only [nfsSystem, NfsAct.exec] at hj
      split at hj <;> exact .inl hj
    | _ => exact .inl hj
  env _ _ := rfl

/-- The pairing monitor of the NFS programs. -/
def NfsAct.HitsOk (prev : Option (Ev NfsAct NfsAct.Res)) (e : Ev NfsAct NfsAct.Res) : Prop :=
  StoreAfterLoad NfsAct.hitsLoaded NfsAct.hitsStored NfsAct.FreshHits prev e

section NfsPrograms

variable {prev : Option (Ev NfsAct NfsAct.Res)}

attribute [local simp] NfsAct.HitsOk StoreAfterLoad lastEvent NfsAct.hitsStored NfsAct.FreshHits

/-- `cache_entry->cache_hits++` stores one more than it loaded. -/
@[simp] theorem monitored_bumpHits_bind {α : Type} {post : Option (Ev NfsAct NfsAct.Res) → α → Prop}
    (i : Nat) (f : Unit → NfsProg α) :
    Monitored NfsAct.HitsOk lastEvent post prev (bumpHits i >>= f) ↔
      ∀ h, Monitored NfsAct.HitsOk lastEvent post
        (some ⟨.storeHits i ((h + 1) % 2 ^ 32), ()⟩) (f ()) := by
  simp [bumpHits, NfsAct.hitsLoaded]
  exact ⟨fun H h => H h (), fun H h _ => H h⟩

theorem handleNfsGetattr_hitsOk (cfg : NfsConfig) (req : NfsRequest) (ev : NfsEvent)
    (junk : List UInt8) :
    Monitored NfsAct.HitsOk lastEvent (fun _ _ => True) prev (handleNfsGetattr cfg req ev junk) := by
  simp [handleNfsGetattr, NfsProg.statAdd, monitored_ite]

theorem handleNfsRead_hitsOk (req : NfsRequest) (ev : NfsEvent) (junk : List UInt8) :
    Monitored NfsAct.HitsOk lastEvent (fun _ _ => True) prev (handleNfsRead req ev junk) := by
  simp [handleNfsRead, NfsProg.statAdd, monitored_ite]

theorem nfsDispatch_hitsOk (cfg : NfsConfig) (rpc : RpcHeader) (req : NfsRequest) (ev : NfsEvent)
    (junk : List UInt8) :
    Monitored NfsAct.HitsOk lastEvent (fun _ _ => True) prev (nfsDispatch cfg rpc req ev junk) := by
  unfold nfsDispatch
  split_ifs
  · trivial
  · simp [NfsProg.statAdd]
  · exact handleNfsGetattr_hitsOk cfg req ev junk
  · exact handleNfsRead_hitsOk req ev junk
  · trivial

theorem bumpClient_hitsOk (ptr : Option Nat) (c : ClientCounter) :
    Monitored NfsAct.HitsOk lastEvent (fun _ _ => True) prev (bumpClient ptr c) := by
  cases ptr <;> simp [bumpClient]

theorem nfsServe_hitsOk (cfg : NfsConfig) (v : NfsFrame) (rpc : RpcHeader) (junk : List UInt8)
    (ptr : Option Nat) :
    Monitored NfsAct.HitsOk lastEvent (fun _ _ => True) prev (nfsServe cfg v rpc junk ptr) := by
  simp only [nfsServe, NfsProg.reserve, NfsProg.ktime, choose_bind, act_bind, ret_bind,
    monitored_choose, monitored_act, Bool.forall_bool, Bool.not_false, Bool.not_true,
    Bool.false_eq_true, ↓reduceIte, pure_eq, Prog.bind_assoc, monitored_ret, NfsAct.HitsOk,
    StoreAfterLoad, NfsAct.FreshHits, NfsAct.hitsStored, reduceCtorEq, false_implies,
    implies_true, true_and, and_true]
  refine fun ts => monitored_bind.2 ((nfsDispatch_hitsOk ..).mono fun q r _ => ?_)
  simp only [NfsProg.statAdd, act_bind, ret_bind, monitored_act, NfsAct.HitsOk, StoreAfterLoad,
    NfsAct.FreshHits, NfsAct.hitsStored, reduceCtorEq, false_implies, implies_true, true_and]
  refine fun _ => ?_
  split_ifs <;> exact monitored_bind.2 ((bumpClient_hitsOk ..).mono fun _ _ _ => by
    simp [NfsProg.submit, NfsProg.statAdd])

theorem nfsServerTc_hitsOk (cfg : NfsConfig) (f junk : List UInt8) :
    Monitored NfsAct.HitsOk lastEvent (fun _ _ => True) prev (nfsServerTc cfg f junk) := by
  unfold nfsServerTc
  rcases nfsCall f with _ | ⟨v, rpc⟩
  · trivial
  · exact monitored_bind.2 ((by simp [trackClient, bumpClient] :
      Monitored NfsAct.HitsOk lastEvent (fun _ _ => True) prev (trackClient v.clientIp)).mono
        fun _ ptr _ => nfsServe_hitsOk cfg v rpc junk ptr)

/-- Every program of the NFS system stores to `cache_hits` only right after loading it. -/
theorem nfsSystem_hitsOk (cfg : NfsConfig) (env : NfsServer.Env) :
    ∀ i, Monitored NfsAct.HitsOk lastEvent (fun _ _ => True) none ((nfsSystem cfg env).prog i)
  | .tc f junk => monitored_bind.2 ((nfsServerTc_hitsOk cfg f junk).mono fun _ _ _ => trivial)
  | .xdp f => by simp [nfsSystem, monitored_bind, nfsServerXdp, NfsProg.statAdd, monitored_ite]
  | .openat => by simp [nfsSystem, monitored_bind, traceOpenat, NfsProg.statAdd, monitored_ite]
  | .refresh fs n => by
    rcases NfsServer.cacheFileInKernel_cases env fs n with
      ⟨-, h⟩ | h | ⟨st, data, -, -, -, -, -, -, -, h⟩
    all_goals simp [nfsSystem, monitored_bind, h, monitored_ite, NfsServer.cacheEntry]
  | .poll => by simp [nfsSystem, NfsServer.pollEvent]

end NfsPrograms

/-! ## The file server -/

/-- The element a `cache_hits` load reads, with the value it read. -/
def HttpAct.hitsLoaded : Ev HttpAct HttpAct.Res → Option (Nat × Nat)
  | ⟨.loadHits i, h⟩ => some (i, h)
  | _ => none

/-- The element a `cache_hits` store writes, with the value it writes. -/
def HttpAct.hitsStored : HttpAct → Option (Nat × Nat)
  | .storeHits i v => some (i, v)
  | _ => none

/-- `cache_hits` of element `i` of `file_cache`, where there is one. -/
def HttpMaps.hits (s : HttpMaps) (i : Nat) : Option Nat := (s.fileCache.heap i).map (·.cacheHits)

namespace FileServer

/-- `cache_file_in_kernel` of `fileserver.c` leaves `file_cache` as it was, or installs an element
with `cache_hits = 0`. -/
theorem cacheFileInKernel_fresh (env : Env) (fs : FileSys) (filename : List UInt8)
    (m : BpfHash (List UInt8) FileCacheEntry) :
    (cacheFileInKernel env fs filename m).2 = m ∨
      ∃ e, e.cacheHits = 0 ∧ m.update filename e = some (cacheFileInKernel env fs filename m).2 := by
  unfold cacheFileInKernel
  repeat' split
  all_goals try exact .inl rfl
  dsimp only
  split
  · exact .inl rfl
  · exact .inr ⟨_, rfl, ‹_›⟩

/-- So does `handle_http_request`. -/
theorem handleHttpRequest_fresh (env : Env) (fs : FileSys) (request : List UInt8)
    (m : BpfHash (List UInt8) FileCacheEntry) (st : Stats) :
    (handleHttpRequest env fs request m st).2.1 = m ∨
      ∃ k e, e.cacheHits = 0 ∧ m.update k e = some (handleHttpRequest env fs request m st).2.1 := by
  unfold handleHttpRequest
  split
  · exact .inl rfl
  · split_ifs
    · rcases cacheFileInKernel_fresh env fs _ m with h | ⟨e, he, hu⟩
      · exact .inl h
      · exact .inr ⟨_, e, he, hu⟩
    · exact .inl rfl

end FileServer

/-- The file-server programs reach `cache_hits` only through `cache_entry->cache_hits++`, and
`handle_http_request` installs entries with `cache_hits = 0`. -/
theorem httpHits_access (cfg : HttpConfig) (env : FileServer.Env) :
    CounterAccess HttpAct.hitsLoaded HttpAct.hitsStored (fun _ => True) (httpSystem cfg env)
      HttpMaps.hits where
  load t a s i h hh := by
    cases a with
    | loadHits j =>
      simp only [httpSystem, HttpAct.exec, HttpAct.hitsLoaded, Option.some.injEq,
        Prod.mk.injEq] at hh
      obtain ⟨rfl, rfl⟩ := hh
      rfl
    | _ => simp [HttpAct.hitsLoaded] at hh
  store t a s i v hs j := by
    cases a with
    | storeHits i' v' =>
      simp only [HttpAct.hitsStored, Option.some.injEq, Prod.mk.injEq] at hs
      obtain ⟨rfl, rfl⟩ := hs
      simp only [httpSystem, HttpAct.exec, HttpMaps.hits, BpfHash.modify_heap]
      split_ifs <;> simp [Option.map_map, Function.comp_def]
    | _ => simp [HttpAct.hitsStored] at hs
  other t a s _ hs j c hj := by
    cases a with
    | storeHits => simp [HttpAct.hitsStored] at hs
    | handleRequest env' fs request =>
      simp only [httpSystem, HttpAct.exec, HttpMaps.hits] at hj
      rcases FileServer.handleHttpRequest_fresh env' fs request s.fileCache s.user with
        h | ⟨k, e, he, hu⟩
      · rw [h] at hj; exact .inl hj
      · rw [BpfHash.update_heap hu] at hj
        split_ifs at hj
        · simp only [Option.map_some', Option.some.injEq] at hj
          exact .inr (hj ▸ he)
        · exact .inl hj
    | consume =>
      simp only [httpSystem, HttpAct.exec] at hj
      split at hj <;> exact .inl hj
    | _ => exact .inl hj
  env _ _ := rfl

/-- The pairing monitor of the file-server programs. -/
def HttpAct.HitsOk (prev : Option (Ev HttpAct HttpAct.Res)) (e : Ev HttpAct HttpAct.Res) : Prop :=
  StoreAfterLoad HttpAct.hitsLoaded HttpAct.hitsStored (fun _ => True) prev e

section HttpPrograms

variable {prev : Option (Ev HttpAct HttpAct.Res)}

attribute [local simp] HttpAct.HitsOk StoreAfterLoad lastEvent HttpAct.hitsStored

theorem emitFileEvent_hitsOk (v : HttpFrame) (filename : List UInt8) (op size fwd : Nat) :
    Monitored HttpAct.HitsOk lastEvent (fun _ _ => True) prev
      (emitFileEvent v filename op size fwd) := by
  simp [emitFileEvent, HttpProg.reserve, HttpProg.ktime, HttpProg.submit]

theorem ingressDecision_hitsOk (cfg : HttpConfig) (v : HttpFrame) (filename : List UInt8) :
    Monitored HttpAct.HitsOk lastEvent (fun _ _ => True) prev (ingressDecision cfg v filename) := by
  have hmiss : ∀ q, Monitored HttpAct.HitsOk lastEvent (fun _ _ => True) q (cacheMiss v filename) :=
    fun _ => by simp [cacheMiss, HttpProg.statAdd, monitored_bind, emitFileEvent_hitsOk]
  unfold ingressDecision
  split_ifs
  · simp only [monitored_act]
    refine fun r => ⟨by simp, ?_⟩
    rcases r with _ | ⟨i, e⟩
    · exact hmiss _
    · dsimp only
      split_ifs
      · simp [cacheHit, HttpAct.hitsLoaded, HttpProg.statAdd, monitored_bind, emitFileEvent_hitsOk]
      · exact hmiss _
  · simp [fileNotFound, HttpProg.statAdd, monitored_bind, emitFileEvent_hitsOk]
  · simp [HttpProg.statAdd]

/-- Every program of the file-server system stores to `cache_hits` only right after loading it. -/
theorem httpSystem_hitsOk (cfg : HttpConfig) (env : FileServer.Env) :
    ∀ i, Monitored HttpAct.HitsOk lastEvent (fun _ _ => True) none ((httpSystem cfg env).prog i)
  | .ingress f => by
    simp only [httpSystem, fileserverIngress]
    split
    · simp
    · simp [HttpProg.statAdd, HttpProg.reserve, HttpProg.ktime, HttpProg.submit, monitored_bind,
        ingressDecision_hitsOk]
  | .xdp f => by simp [httpSystem, monitored_bind, fileserverXdp, HttpProg.statAdd, monitored_ite]
  | .fileOpen n => by
    simp only [httpSystem, traceFileOpen]
    split_ifs
    · simp
    · cases n <;> simp [HttpProg.reserve, HttpProg.ktime, HttpProg.submit]
  | .request fs p => by simp [httpSystem]
  | .poll => by simp [httpSystem]

end HttpPrograms

/-! ## Both servers -/

/-- Over every interleaving of either server's invocations, every element of its file cache holds
in `cache_hits` at most the number of stores made to it: concurrent increments can be lost, but
no hit is counted that was not made. -/
theorem cacheHits_le_stores :
    (∀ (cfg : HttpConfig) (env : FileServer.Env) (clock : Nat)
      (s : Pool HttpAct HttpAct.Res HttpMaps), (httpSystem cfg env).Reachable (HttpMaps.init clock) s →
      ∀ i e, s.maps.fileCache.heap i = some e → e.cacheHits ≤ storesTo HttpAct.hitsStored i s.log) ∧
    (∀ (cfg : NfsConfig) (env : NfsServer.Env) (clock wall : Nat)
      (s : Pool NfsAct NfsAct.Res NfsState), (nfsSystem cfg env).Reachable (NfsState.init clock wall) s →
      ∀ i e, s.maps.fileCache.heap i = some e → e.cacheHits ≤ storesTo NfsAct.hitsStored i s.log) :=
  ⟨fun cfg env _ _ h i e he => (httpHits_access cfg env).le_stores (httpSystem_hitsOk cfg env)
      (fun _ _ h => by simp [HttpMaps.hits, HttpMaps.init, BpfHash.empty] at h) h
      (show HttpMaps.hits _ i = _ by simp [HttpMaps.hits, he]),
    fun cfg env _ _ _ h i e he => (nfsHits_access cfg env).le_stores (nfsSystem_hitsOk cfg env)
      (fun _ _ h => by simp [NfsState.hits, NfsState.init, BpfHash.empty] at h) h
      (show NfsState.hits _ i = _ by simp [NfsState.hits, he])⟩

/-- The control plane caches `test.txt`; then two `GET /test.txt` frames hit it, each loading
`cache_hits` before either stores it back. -/
def httpLostHitRun : Pool HttpAct HttpAct.Res HttpMaps :=
  httpTestSystem.run (Pool.start (HttpMaps.init 0))
    ([.spawn (.request testFs getRequest)] ++ List.replicate 2 (.step 0 true) ++
      [.spawn (.ingress httpGetFrame), .spawn (.ingress httpGetFrame)] ++
      List.replicate 4 (.step 1 true) ++ List.replicate 4 (.step 2 true) ++
      [.step 1 true, .step 2 true])

set_option maxRecDepth 8000 in
/-- Two hits on `test.txt` made two stores to its element and left `cache_hits` at 1; after
`nfsNullRun` the NFS element of `test.txt` has had no store. -/
theorem cacheHits_le_stores_runs :
    (∃ e, httpLostHitRun.maps.fileCache.heap 0 = some e ∧ e.cacheHits = 1 ∧
      storesTo HttpAct.hitsStored 0 httpLostHitRun.log = 2 ∧
      e.cacheHits ≤ storesTo HttpAct.hitsStored 0 httpLostHitRun.log) ∧
    ∃ e, nfsNullRun.maps.fileCache.heap 0 = some e ∧
      e.cacheHits ≤ storesTo NfsAct.hitsStored 0 nfsNullRun.log := by
  obtain ⟨e, he⟩ := Option.isSome_iff_exists.1
    (by decide : (httpLostHitRun.maps.fileCache.heap 0).isSome)
  obtain ⟨e', he'⟩ := Option.isSome_iff_exists.1
    (by decide : (nfsNullRun.maps.fileCache.heap 0).isSome)
  have h1 : (httpLostHitRun.maps.fileCache.heap 0).map (·.cacheHits) = some 1 := by decide
  have h2 : storesTo HttpAct.hitsStored 0 httpLostHitRun.log = 2 := by decide
  refine ⟨⟨e, he, by simpa [he] using h1, h2,
    cacheHits_le_stores.1 _ _ 0 _ ⟨_, rfl⟩ 0 e he⟩,
    e', he', cacheHits_le_stores.2 _ _ 0 0 _ ⟨_, rfl⟩ 0 e' he'⟩

end EbpfNfs
