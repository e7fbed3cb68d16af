import EbpfNfs.Hits

/-!
# No map of either object loses a key

Neither BPF object nor its control plane deletes a map element (there is no
`bpf_map_delete_elem` in `fileserver.bpf.c`, `test_nfs_server.sh`, `fileserver.c` or
`nfs_server.c`), and every hash map is a plain `BPF_MAP_TYPE_HASH`, which evicts nothing. An
update installs a key or replaces its element, and a store through a pointer rewrites an element
in place. So along every schedule, from any pool, each hash map keeps every key it holds, its key
count never falls, and a map that is full takes no new key again (`maps_retained`): once
`file_cache` holds its 1024 names, no other file is ever cached by that server.

The steps:
* `BpfHash.Retains`, the relation between a map and a later one, is a preorder that `update`,
  `put` and `modify` establish (`Retains.update`, `Retains.put`, `Retains.modify`);
* a system whose actions and environment each establish a preorder on its maps establishes it
  along every schedule (`System.run_maps_rel`, from the one-event lemma `System.step_maps_rel`);
* every action of either object establishes it on each of its hash maps
  (`HttpAct.exec_retains`, `NfsAct.exec_retains`).
-/

namespace EbpfNfs

namespace BpfHash

variable {κ ν : Type}

/-- `m'` keeps every key of `m` and holds at least as many keys under the same `max_entries`, and
a full `m` has taken no new key. -/
structure Retains (m m' : BpfHash κ ν) : Prop where
  keys : ∀ k, (m.lookup k).isSome → (m'.lookup k).isSome
  count_le : m.count ≤ m'.count
  maxEntries_eq : m'.maxEntries = m.maxEntries
  frozen : m.Full → ∀ k, (m'.lookup k).isSome → (m.lookup k).isSome

theorem Retains.refl (m : BpfHash κ ν) : m.Retains m :=
  ⟨fun _ h => h, le_rfl, rfl, fun _ _ h => h⟩

/-- A map that retains a full map is full. -/
theorem Retains.full {m m' : BpfHash κ ν} (h : m.Retains m') (hf : m.Full) : m'.Full := by
  unfold Full at *
  rw [h.maxEntries_eq]
  exact hf.trans h.count_le

theorem Retains.trans {m m' m'' : BpfHash κ ν} (h : m.Retains m') (h' : m'.Retains m'') :
    m.Retains m'' where
  keys k hk := h'.keys k (h.keys k hk)
  count_le := h.count_le.trans h'.count_le
  maxEntries_eq := h'.maxEntries_eq.trans h.maxEntries_eq
  frozen hf k hk := h.frozen hf k (h'.frozen (h.full hf) k hk)

/-- A store through a pointer changes no key. -/
theorem Retains.modify (m : BpfHash κ ν) (i : Nat) (f : ν → ν) : m.Retains (m.modify i f) :=
  ⟨fun k => by simp [modify_lookup], le_rfl, rfl, fun _ k => by simp [modify_lookup]⟩

variable [DecidableEq κ]

/-- An update adds at most its own key, and not to a full map that lacks it. -/
theorem Retains.update {m m' : BpfHash κ ν} {k : κ} {v : ν} (h : m.update k v = some m') :
    m.Retains m' where
  keys k' hk := by rw [update_lookup h]; split_ifs <;> simp [hk]
  count_le := (update_count h).1
  maxEntries_eq := (update_count h).2
  frozen hf k' hk := by
    rw [update_lookup h] at hk
    split_ifs at hk with hk'
    · subst hk'
      exact Option.isSome_iff_ne_none.2 fun hn => by simp [(update_eq_none m).2 ⟨hn, hf⟩] at h
    · exact hk

theorem Retains.put (m : BpfHash κ ν) (k : κ) (v : ν) : m.Retains (m.put k v) := by
  unfold BpfHash.put
  cases h : m.update k v with
  | none => exact .refl m
  | some m' => exact .update h

theorem Retains.updateStatus (m : BpfHash κ ν) (k : κ) (v : ν) :
    m.Retains (updateStatus m k v).2 := by
  unfold EbpfNfs.updateStatus
  split
  · exact .refl m
  · exact .update ‹_›

end BpfHash

/-! ## Along a schedule -/

namespace System

variable {ι ε A σ : Type} {R : A → Type} (S : System ι ε A R σ) (Rel : σ → σ → Prop)
  (hrefl : ∀ m, Rel m m) (hact : ∀ t a m, Rel m (S.exec t a m).2)
  (henv : ∀ e m, Rel m (S.envStep e m))

include hrefl hact henv

/-- One event relates the maps before it to the maps after it. -/
theorem step_maps_rel (s : Pool A R σ) : ∀ e, Rel s.maps (S.step s e).maps
  | .spawn _ => hrefl _
  | .step t _ => by
    cases hr : s.running t with
    | none => simpa [step, hr] using hrefl s.maps
    | some p =>
      cases p with
      | act a k => simpa [step, hr] using hact t a s.maps
      | _ => simpa [step, hr] using hrefl s.maps
  | .env e => henv e _

/-- A transitive relation that one event establishes relates the maps before and after every
schedule, from any pool. -/
theorem run_maps_rel (htrans : ∀ {m m' m''}, Rel m m' → Rel m' m'' → Rel m m'') :
    ∀ (s : Pool A R σ) evs, Rel s.maps (S.run s evs).maps
  | _, [] => hrefl _
  | s, e :: evs =>
    htrans (S.step_maps_rel Rel hrefl hact henv s e) (run_maps_rel htrans (S.step s e) evs)

end System

/-! ## The maps of the two objects -/

/-- Each hash map of the file-server object retains its keys: `file_cache` and `conn_track`. -/
structure HttpMaps.Retains (s s' : HttpMaps) : Prop where
  fileCache : s.fileCache.Retains s'.fileCache
  connTrack : s.connTrack.Retains s'.connTrack

/-- Each hash map of the NFS object retains its keys: `nfs_file_cache`, `fh_to_name` and
`client_track`. -/
structure NfsState.Retains (s s' : NfsState) : Prop where
  fileCache : s.fileCache.Retains s'.fileCache
  fhToName : s.fhToName.Retains s'.fhToName
  clientTrack : s.clientTrack.Retains s'.clientTrack

theorem HttpMaps.Retains.refl (s : HttpMaps) : s.Retains s := ⟨.refl _, .refl _⟩

theorem NfsState.Retains.refl (s : NfsState) : s.Retains s := ⟨.refl _, .refl _, .refl _⟩

theorem HttpMaps.Retains.trans {s s' s'' : HttpMaps} (h : s.Retains s') (h' : s'.Retains s'') :
    s.Retains s'' :=
  ⟨h.fileCache.trans h'.fileCache, h.connTrack.trans h'.connTrack⟩

theorem NfsState.Retains.trans {s s' s'' : NfsState} (h : s.Retains s') (h' : s'.Retains s'') :
    s.Retains s'' :=
  ⟨h.fileCache.trans h'.fileCache, h.fhToName.trans h'.fhToName,
    h.clientTrack.trans h'.clientTrack⟩

/-- `handle_http_request` leaves `file_cache` as it was or updates one key
(`handleHttpRequest_fresh`). -/
theorem FileServer.handleHttpRequest_retains (env : FileServer.Env) (fs : FileSys)
    (request : List UInt8) (m : BpfHash (List UInt8) FileCacheEntry) (st : FileServer.Stats) :
    m.Retains (FileServer.handleHttpRequest env fs request m st).2.1 := by
  rcases FileServer.handleHttpRequest_fresh env fs request m st with h | ⟨k, e, -, h⟩
  · rw [h]; exact .refl m
  · exact .update h

theorem HttpAct.exec_retains (t : Nat) (a : HttpAct) (s : HttpMaps) :
    s.Retains (HttpAct.exec t a s).2 := by
  cases a with
  | storeHits i v => exact ⟨.modify _ _ _, .refl _⟩
  | updateConn ip ts => exact ⟨.refl _, .put _ _ _⟩
  | handleRequest env fs request =>
    exact ⟨FileServer.handleHttpRequest_retains env fs request _ _, .refl _⟩
  | consume =>
    simp only [HttpAct.exec]
    split <;> exact ⟨.refl _, .refl _⟩
  | _ => exact ⟨.refl _, .refl _⟩

theorem NfsAct.exec_retains (t : Nat) (a : NfsAct) (s : NfsState) :
    s.Retains (NfsAct.exec t a s).2 := by
  cases a with
  | storeHits i v => exact ⟨.modify _ _ _, .refl _, .refl _⟩
  | updateClient ip st => exact ⟨.refl _, .refl _, .updateStatus _ _ _⟩
  | storeClientTime i v => exact ⟨.refl _, .refl _, .modify _ _ _⟩
  | storeClient c i v => exact ⟨.refl _, .refl _, .modify _ _ _⟩
  | updateCache k e => exact ⟨.updateStatus _ _ _, .refl _, .refl _⟩
  | updateFhName h k => exact ⟨.refl _, .updateStatus _ _ _, .refl _⟩
  | consume =>
    simp only [NfsAct.exec]
    split <;> exact ⟨.refl _, .refl _, .refl _⟩
  | _ => exact ⟨.refl _, .refl _, .refl _⟩

/-- Along every schedule, from any pool, no hash map of the file server (`file_cache`,
`conn_track`) or of the NFS server (`nfs_file_cache`, `fh_to_name`, `client_track`) loses a key,
lowers its key count or changes its `max_entries`, and one that was full has taken no new key. -/
theorem maps_retained (hcfg : HttpConfig) (henv : FileServer.Env) (ncfg : NfsConfig)
    (nenv : NfsServer.Env) :
    (∀ (s : Pool HttpAct HttpAct.Res HttpMaps) evs,
      s.maps.Retains ((httpSystem hcfg henv).run s evs).maps) ∧
    ∀ (s : Pool NfsAct NfsAct.Res NfsState) evs,
      s.maps.Retains ((nfsSystem ncfg nenv).run s evs).maps :=
  ⟨(httpSystem hcfg henv).run_maps_rel HttpMaps.Retains HttpMaps.Retains.refl HttpAct.exec_retains
      (fun _ _ => ⟨.refl _, .refl _⟩) .trans,
    (nfsSystem ncfg nenv).run_maps_rel NfsState.Retains NfsState.Retains.refl NfsAct.exec_retains
      (fun _ _ => ⟨.refl _, .refl _, .refl _⟩) .trans⟩

end EbpfNfs
