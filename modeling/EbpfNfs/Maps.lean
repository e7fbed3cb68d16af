import Mathlib.Algebra.Order.BigOperators.Group.Finset

/-!
# BPF maps

`BPF_MAP_TYPE_HASH` maps hand out pointers: `bpf_map_lookup_elem` returns the address of the
element a key names, the program loads and stores through it, and `bpf_map_update_elem`
installs a *new* element under the key. A program still holding a pointer to the old element
keeps reading and writing the old one. `BpfHash` therefore keeps a table from keys to element
identities over a heap of elements, and it carries as fields the facts that keep the table and
the heap apart. An update of a key not in the map fails once the map holds `max_entries` keys.

The maps of both objects are preallocated, and the kernel does not wait for an RCU grace period
before it reuses the memory of a replaced element: that element becomes the updating CPU's spare
and holds the value of that CPU's next replacing update. The model gives every update a fresh
identity instead, so an identity here names one installation, not a memory slot; a late store
through an old pointer, which in the kernel can land in a newer installation that reuses the
slot, lands in the old installation here.

`BPF_MAP_TYPE_ARRAY` maps of `__u64` counters are functions from index to value, changed only by
`arrayAdd`, the `__sync_fetch_and_add` of `update_stats`.
-/

namespace EbpfNfs

/-- A hash map: `slot k` is the element key `k` names, `heap i` element `i`'s value. -/
structure BpfHash (κ ν : Type) where
  slot : κ → Option Nat
  heap : Nat → Option ν
  /-- The identity the next element installed receives. -/
  next : Nat
  /-- The number of keys present, which the kernel compares with `max_entries`. -/
  count : Nat
  maxEntries : Nat
  slot_lt : ∀ k i, slot k = some i → i < next
  slot_live : ∀ k i, slot k = some i → (heap i).isSome
  heap_fresh : ∀ i, next ≤ i → heap i = none
  /-- Two keys never name one element: every update installs a fresh one. -/
  slot_inj : ∀ k k' i, slot k = some i → slot k' = some i → k = k'

namespace BpfHash

variable {κ ν : Type}

/-- The empty map a loader creates, with room for `n` keys. -/
def empty (n : Nat) : BpfHash κ ν :=
  ⟨fun _ => none, fun _ => none, 0, 0, n, fun _ _ h => Option.noConfusion h,
    fun _ _ h => Option.noConfusion h, fun _ _ => rfl, fun _ _ _ h => Option.noConfusion h⟩

/-- `bpf_map_lookup_elem`: the pointer (element identity) and value key `k` names. -/
def lookup (m : BpfHash κ ν) (k : κ) : Option (Nat × ν) :=
  (m.slot k).bind fun i => (m.heap i).map (i, ·)

/-- The value stored under `k`. -/
def get (m : BpfHash κ ν) (k : κ) : Option ν := (m.lookup k).map Prod.snd

/-- The map is full: a new key would be refused. -/
def Full (m : BpfHash κ ν) : Prop := m.maxEntries ≤ m.count

section Update

variable [DecidableEq κ]

/-- `bpf_map_update_elem(map, k, v, BPF_ANY)`: `none` is the `-E2BIG` of a full map asked to
take a new key; otherwise a new element holding `v` is installed under `k`, with a fresh
identity (the module header says how this differs from the kernel's reuse of slots). -/
def update (m : BpfHash κ ν) (k : κ) (v : ν) : Option (BpfHash κ ν) :=
  if m.slot k = none ∧ m.maxEntries ≤ m.count then none
  else some
    { slot := Function.update m.slot k (some m.next)
      heap := Function.update m.heap m.next (some v)
      next := m.next + 1
      count := if m.slot k = none then m.count + 1 else m.count
      maxEntries := m.maxEntries
      slot_lt := by
        intro k' i h
        by_cases hk : k' = k
        · subst hk; simp at h; omega
        · rw [Function.update_noteq hk] at h; have := m.slot_lt _ _ h; omega
      slot_live := by
        intro k' i h
        by_cases hk : k' = k
        · subst hk
          simp only [Function.update_same, Option.some.injEq] at h
          subst h; simp
        · rw [Function.update_noteq hk] at h
          rw [Function.update_noteq (by have := m.slot_lt _ _ h; omega)]
          exact m.slot_live _ _ h
      heap_fresh := by
        intro i h
        rw [Function.update_noteq (by omega)]
        exact m.heap_fresh _ (by omega)
      slot_inj := by
        intro k₁ k₂ i h₁ h₂
        by_cases hk₁ : k₁ = k <;> by_cases hk₂ : k₂ = k
        · rw [hk₁, hk₂]
        · rw [hk₁, Function.update_same] at h₁
          rw [Function.update_noteq hk₂] at h₂
          have := m.slot_lt _ _ h₂; simp at h₁; omega
        · rw [hk₂, Function.update_same] at h₂
          rw [Function.update_noteq hk₁] at h₁
          have := m.slot_lt _ _ h₁; simp at h₂; omega
        · rw [Function.update_noteq hk₁] at h₁
          rw [Function.update_noteq hk₂] at h₂
          exact m.slot_inj _ _ _ h₁ h₂ }

/-- The map after an update whose status the caller ignores. -/
def put (m : BpfHash κ ν) (k : κ) (v : ν) : BpfHash κ ν := (m.update k v).getD m

end Update

/-- A store through pointer `i`: element `i` becomes `f` of itself, wherever it is. -/
def modify (m : BpfHash κ ν) (i : Nat) (f : ν → ν) : BpfHash κ ν where
  slot := m.slot
  heap := Function.update m.heap i ((m.heap i).map f)
  next := m.next
  count := m.count
  maxEntries := m.maxEntries
  slot_lt := m.slot_lt
  slot_live := by
    intro k j h
    by_cases hj : j = i
    · subst hj; simpa using m.slot_live _ _ h
    · rw [Function.update_noteq hj]; exact m.slot_live _ _ h
  heap_fresh := by
    intro j h
    by_cases hj : j = i
    · subst hj; simp [m.heap_fresh _ h]
    · rw [Function.update_noteq hj]; exact m.heap_fresh _ h
  slot_inj := m.slot_inj

/-! ## Lookups after updates -/

section Lookup

variable (m : BpfHash κ ν)

@[simp] theorem empty_lookup (n : Nat) (k : κ) : (empty n : BpfHash κ ν).lookup k = none := rfl

@[simp] theorem empty_get (n : Nat) (k : κ) : (empty n : BpfHash κ ν).get k = none := rfl

theorem lookup_eq_some {k : κ} {i : Nat} {v : ν} :
    m.lookup k = some (i, v) ↔ m.slot k = some i ∧ m.heap i = some v := by
  simp only [lookup, Option.bind_eq_some, Option.map_eq_some']
  constructor
  · rintro ⟨j, hj, w, hw, h⟩; cases h; exact ⟨hj, hw⟩
  · rintro ⟨hj, hw⟩; exact ⟨i, hj, v, hw, rfl⟩

theorem lookup_eq_none {k : κ} : m.lookup k = none ↔ m.slot k = none := by
  cases h : m.slot k with
  | none => simp [lookup, h]
  | some i =>
    obtain ⟨v, hv⟩ := Option.isSome_iff_exists.1 (m.slot_live _ _ h)
    simp [lookup, h, hv]

theorem modify_lookup (i : Nat) (f : ν → ν) (k : κ) :
    (m.modify i f).lookup k = (m.lookup k).map fun p => if p.1 = i then (p.1, f p.2) else p := by
  cases hs : m.slot k with
  | none => simp [lookup, modify, hs]
  | some j =>
    by_cases hj : j = i
    · subst hj; cases hh : m.heap j <;> simp [lookup, modify, hs, hh]
    · cases hh : m.heap j <;> simp [lookup, modify, hs, Function.update_noteq hj, hh, hj]

/-- A store through the element a key names changes that key's value. -/
theorem modify_lookup_self {k : κ} {i : Nat} {v : ν} (h : m.lookup k = some (i, v)) (f : ν → ν) :
    (m.modify i f).lookup k = some (i, f v) := by
  simp [modify_lookup, h]

/-- A store through the element a key names leaves every other key's element as it was. -/
theorem modify_lookup_of_ne {k k' : κ} {i : Nat} {v : ν} (h : m.lookup k = some (i, v))
    (hk : k' ≠ k) (f : ν → ν) : (m.modify i f).lookup k' = m.lookup k' := by
  rw [modify_lookup]
  cases h' : m.lookup k' with
  | none => rfl
  | some p =>
    obtain ⟨j, w⟩ := p
    have hj : j ≠ i := by
      rintro rfl
      exact hk (m.slot_inj _ _ j ((lookup_eq_some m).1 h').1 ((lookup_eq_some m).1 h).1)
    simp [hj]

@[simp] theorem modify_slot (i : Nat) (f : ν → ν) : (m.modify i f).slot = m.slot := rfl

/-- A store through pointer `i` changes element `i` and no other. -/
theorem modify_heap (i : Nat) (f : ν → ν) (j : Nat) :
    (m.modify i f).heap j = if j = i then (m.heap i).map f else m.heap j := by
  by_cases hj : j = i
  · subst hj; simp [modify]
  · simp [modify, hj, Function.update_noteq hj]

@[simp] theorem modify_count (i : Nat) (f : ν → ν) : (m.modify i f).count = m.count := rfl

@[simp] theorem modify_maxEntries (i : Nat) (f : ν → ν) :
    (m.modify i f).maxEntries = m.maxEntries := rfl

end Lookup

variable [DecidableEq κ] (m : BpfHash κ ν)

theorem update_eq_none {k : κ} {v : ν} :
    m.update k v = none ↔ m.lookup k = none ∧ m.Full := by
  rw [lookup_eq_none, Full, update]; split_ifs with h <;> simp [h]

variable {m}

/-- An update of a map that is not full succeeds. -/
theorem exists_update_of_not_full (h : ¬ m.Full) (k : κ) (v : ν) : ∃ m', m.update k v = some m' :=
  Option.ne_none_iff_exists'.1 fun h' => h ((update_eq_none m).1 h').2

theorem update_lookup {k : κ} {v : ν} {m' : BpfHash κ ν} (h : m.update k v = some m') (k' : κ) :
    m'.lookup k' = if k' = k then some (m.next, v) else m.lookup k' := by
  by_cases hc : m.slot k = none ∧ m.maxEntries ≤ m.count
  · simp [update, hc] at h
  rw [update, if_neg hc] at h; cases h
  by_cases hk : k' = k
  · subst hk; simp [lookup]
  · rw [if_neg hk]
    cases hs : m.slot k' with
    | none => simp [lookup, Function.update_noteq hk, hs]
    | some i =>
      have : i ≠ m.next := by have := m.slot_lt _ _ hs; omega
      simp [lookup, Function.update_noteq hk, hs, Function.update_noteq this]

/-- An update installs its value as element `next` and keeps every other element. -/
theorem update_heap {k : κ} {v : ν} {m' : BpfHash κ ν} (h : m.update k v = some m') (j : Nat) :
    m'.heap j = if j = m.next then some v else m.heap j := by
  by_cases hc : m.slot k = none ∧ m.maxEntries ≤ m.count
  · simp [update, hc] at h
  rw [update, if_neg hc] at h; cases h
  exact Function.update_apply _ _ _ _

theorem update_get {k : κ} {v : ν} {m' : BpfHash κ ν} (h : m.update k v = some m') (k' : κ) :
    m'.get k' = if k' = k then some v else m.get k' := by
  rw [get, update_lookup h]; split_ifs <;> rfl

theorem update_count {k : κ} {v : ν} {m' : BpfHash κ ν} (h : m.update k v = some m') :
    m.count ≤ m'.count ∧ m'.maxEntries = m.maxEntries := by
  by_cases hc : m.slot k = none ∧ m.maxEntries ≤ m.count
  · simp [update, hc] at h
  rw [update, if_neg hc] at h; cases h
  exact ⟨by dsimp only; split_ifs <;> omega, rfl⟩

end BpfHash

/-! ## Array maps -/

/-- `__sync_fetch_and_add(&a[i], v)` on a `BPF_MAP_TYPE_ARRAY` of `n` `__u64` counters; a lookup
of an index `≥ n` returns `NULL` and `update_stats` then does nothing. -/
def arrayAdd (n : Nat) (a : Nat → Nat) (i v : Nat) : Nat → Nat :=
  if i < n then Function.update a i ((a i + v) % 2 ^ 64) else a

@[simp] theorem arrayAdd_apply (n : Nat) (a : Nat → Nat) (i v j : Nat) :
    arrayAdd n a i v j = if i < n ∧ j = i then (a i + v) % 2 ^ 64 else a j := by
  unfold arrayAdd
  by_cases hi : i < n
  · by_cases hj : j = i
    · subst hj; simp [hi]
    · simp [hi, hj, Function.update_noteq hj]
  · simp [hi]

end EbpfNfs
