import EbpfNfs.Prog

/-!
# Invocations interleaved on shared maps

Any number of invocations of the BPF programs, and of the control plane's routines, run at once
on one set of maps. A `Pool` holds the maps, the program each running invocation has left, and
the log of every action performed, tagged with the invocation that performed it; an
invocation's own history is its part of the log. A schedule (`Sched`) starts an invocation on
an input, lets one invocation take its next atomic step, or lets the environment move (the
clock advances).

The results every later invariant rests on: each invocation's history keeps any path property
its program has (`System.threadsOk_reachable`); a property of the maps and the log that every
action keeps holds everywhere (`System.log_inv_reachable`), also when the action's invocation
contributes what its path property says of it (`System.inv_reachable`). Counting an action in
the log is the sum of counting it in each invocation's history (`countP_log`).
-/

namespace EbpfNfs

open Prog

/-- One move of the environment's schedule. -/
inductive Sched (ι ε : Type) where
  /-- A new invocation starts on input `i`. -/
  | spawn (i : ι)
  /-- Invocation `t` takes its next step; `b` resolves a choice, such as a reservation. -/
  | step (t : Nat) (b : Bool)
  /-- The environment moves. -/
  | env (e : ε)

/-- The maps, the running invocations with the programs they have left, the next invocation's
id, and the log of actions. -/
structure Pool (A : Type) (R : A → Type) (σ : Type) where
  maps : σ
  running : Nat → Option (Prog A R Unit)
  next : Nat
  log : List (Nat × Ev A R)

/-- A system: the program an input starts, what an action of invocation `t` does, and how the
environment moves. -/
structure System (ι ε A : Type) (R : A → Type) (σ : Type) where
  prog : ι → Prog A R Unit
  exec : Nat → (a : A) → σ → R a × σ
  envStep : ε → σ → σ

variable {ι ε A σ : Type} {R : A → Type}

namespace Pool

/-- No invocation has started. -/
def start (m : σ) : Pool A R σ := ⟨m, fun _ => none, 0, []⟩

/-- The events of invocation `t`, in order. -/
def hist (s : Pool A R σ) (t : Nat) : List (Ev A R) :=
  (s.log.filter fun x => x.1 == t).map Prod.snd

/-- No invocation is in progress. -/
def Quiescent (s : Pool A R σ) : Prop := ∀ t, s.running t = none

theorem mem_hist {s : Pool A R σ} {t : Nat} {e : Ev A R} (h : e ∈ s.hist t) : (t, e) ∈ s.log := by
  obtain ⟨x, hx, rfl⟩ := List.mem_map.1 h
  obtain ⟨hx, ht⟩ := List.mem_filter.1 hx
  rwa [← (beq_iff_eq.1 ht : x.1 = t)]

theorem hist_append (s : Pool A R σ) (x : Nat × Ev A R) (t : Nat) :
    ({ s with log := s.log ++ [x] } : Pool A R σ).hist t =
      s.hist t ++ if x.1 = t then [x.2] else [] := by
  by_cases h : x.1 = t <;> simp [hist, List.filter_append, h]

/-- Counting actions in a log whose ids are below `n` sums the counts of each id. -/
theorem countP_log {E : Type} (l : List (Nat × E)) {n : Nat} (hl : ∀ x ∈ l, x.1 < n)
    (q : E → Bool) :
    (l.map Prod.snd).countP q =
      ∑ t ∈ Finset.range n, ((l.filter fun x => x.1 == t).map Prod.snd).countP q := by
  induction l with
  | nil => simp
  | cons x l ih =>
    have hx : x.1 ∈ Finset.range n := Finset.mem_range.2 (hl x (by simp))
    rw [List.map_cons, List.countP_cons, ih fun y hy => hl y (by simp [hy])]
    simp only [List.filter_cons, beq_iff_eq]
    have hone : (if q x.2 then 1 else 0) =
        ∑ t ∈ Finset.range n, if x.1 = t then (if q x.2 then 1 else 0) else 0 := by
      rw [Finset.sum_ite_eq, if_pos hx]
    rw [hone, ← Finset.sum_add_distrib]
    refine Finset.sum_congr rfl fun t _ => ?_
    by_cases h : x.1 = t <;> simp [h, List.countP_cons]

end Pool

namespace System

variable (S : System ι ε A R σ)

/-- One move of the schedule. A finished program leaves the pool on its next step. -/
def step (s : Pool A R σ) : Sched ι ε → Pool A R σ
  | .spawn i =>
    { s with running := Function.update s.running s.next (some (S.prog i)), next := s.next + 1 }
  | .step t b =>
    match s.running t with
    | none => s
    | some (.ret _) => { s with running := Function.update s.running t none }
    | some (.act a k) =>
      { s with
        maps := (S.exec t a s.maps).2
        running := Function.update s.running t (some (k (S.exec t a s.maps).1))
        log := s.log ++ [(t, ⟨a, (S.exec t a s.maps).1⟩)] }
    | some (.choose k) => { s with running := Function.update s.running t (some (k b)) }
  | .env e => { s with maps := S.envStep e s.maps }

/-- A schedule run from `s`. -/
def run (s : Pool A R σ) (evs : List (Sched ι ε)) : Pool A R σ := evs.foldl S.step s

/-- The pools some schedule reaches from the maps `m`. -/
def Reachable (m : σ) (s : Pool A R σ) : Prop := ∃ evs, S.run (Pool.start m) evs = s

theorem Reachable.start (m : σ) : S.Reachable m (Pool.start m) := ⟨[], rfl⟩

theorem Reachable.step {m : σ} {s : Pool A R σ} (h : S.Reachable m s) (e : Sched ι ε) :
    S.Reachable m (S.step s e) := by
  obtain ⟨evs, rfl⟩ := h
  exact ⟨evs ++ [e], by simp [run, List.foldl_append]⟩

theorem Reachable.run {m : σ} {s : Pool A R σ} (h : S.Reachable m s) (evs : List (Sched ι ε)) :
    S.Reachable m (S.run s evs) := by
  obtain ⟨evs₀, rfl⟩ := h
  exact ⟨evs₀ ++ evs, List.foldl_append _ _ _ _⟩

/-- Induction over reachable pools: what holds at the start and is kept by every move holds
everywhere. -/
theorem reachable_induction {m : σ} (I : Pool A R σ → Prop) (h0 : I (Pool.start m))
    (hs : ∀ s e, S.Reachable m s → I s → I (S.step s e)) {s : Pool A R σ}
    (h : S.Reachable m s) : I s := by
  obtain ⟨evs, rfl⟩ := h
  induction evs using List.reverseRecOn with
  | nil => exact h0
  | append_singleton evs e ih =>
    rw [run, List.foldl_append]
    exact hs _ e ⟨evs, rfl⟩ ih

/-! ## What each invocation has done -/

section Threads

variable {P : List (Ev A R) → Prop} {Q : List (Ev A R) → Unit → Prop}

/-- Every running invocation can still follow only paths with the property, every finished one
ended on such a path, and no action bears an id not yet given out. -/
def ThreadsOk (P : List (Ev A R) → Prop) (Q : List (Ev A R) → Unit → Prop) (s : Pool A R σ) :
    Prop :=
  (∀ t p, s.running t = some p → Paths P Q p (s.hist t)) ∧
  (∀ t, t < s.next → s.running t = none → P (s.hist t) ∧ Q (s.hist t) ()) ∧
  (∀ t, s.next ≤ t → s.running t = none) ∧
  (∀ x ∈ s.log, x.1 < s.next)

variable {S}

theorem ThreadsOk.start (m : σ) : ThreadsOk P Q (Pool.start m : Pool A R σ) :=
  ⟨by simp [Pool.start], by simp [Pool.start], by simp [Pool.start], by simp [Pool.start]⟩

theorem ThreadsOk.hist_eq_nil {s : Pool A R σ} (h : ThreadsOk P Q s) {t : Nat}
    (ht : s.next ≤ t) : s.hist t = [] := by
  simp only [Pool.hist, List.map_eq_nil_iff, List.filter_eq_nil_iff, beq_iff_eq]
  intro x hx hxt
  have := h.2.2.2 x hx
  omega

/-- A pool in which every invocation started so far has finished is quiescent. -/
theorem ThreadsOk.quiescent {s : Pool A R σ} (h : ThreadsOk P Q s)
    (hr : ∀ t < s.next, (s.running t).isNone) : s.Quiescent := fun t =>
  if ht : t < s.next then Option.isNone_iff_eq_none.1 (hr t ht) else h.2.2.1 t (by omega)

theorem ThreadsOk.spawn (hp : ∀ i, Paths P Q (S.prog i) []) {s : Pool A R σ}
    (h : ThreadsOk P Q s) (i : ι) : ThreadsOk P Q (S.step s (.spawn i)) := by
  have hnil := h.hist_eq_nil (le_refl s.next)
  obtain ⟨hrun, hdone, hfree, hlog⟩ := h
  refine ⟨fun t p ht => ?_, fun t ht hn => ?_, fun t ht => ?_, fun x hx => ?_⟩
  · by_cases he : t = s.next
    · subst he
      simp only [step, Function.update_same, Option.some.injEq] at ht
      subst ht
      exact hnil ▸ hp i
    · simp only [step, Function.update_noteq he] at ht
      exact hrun t p ht
  · have he : t ≠ s.next := fun he => by simp [step, he] at hn
    simp only [step, Function.update_noteq he] at hn ht
    exact hdone t (by omega) hn
  · simp only [step] at ht ⊢
    rw [Function.update_noteq (by omega)]
    exact hfree t (by omega)
  · exact Nat.lt_succ_of_lt (hlog x hx)

/-- A move of invocation `t` that extends its history by `l` and touches no other invocation
keeps `ThreadsOk`, provided what `t` has left has the property from there. -/
theorem ThreadsOk.of_thread {s s' : Pool A R σ} (h : ThreadsOk P Q s) {t : Nat}
    {l : List (Ev A R)}
    (ht : t < s.next) (hnext : s'.next = s.next)
    (hrun : ∀ t', t' ≠ t → s'.running t' = s.running t')
    (hhist : ∀ t', s'.hist t' = s.hist t' ++ if t = t' then l else [])
    (hlog : ∀ x ∈ s'.log, x ∈ s.log ∨ x.1 = t)
    (hq : ∀ p, s'.running t = some p → Paths P Q p (s.hist t ++ l))
    (hq' : s'.running t = none → P (s.hist t ++ l) ∧ Q (s.hist t ++ l) ()) :
    ThreadsOk P Q s' := by
  refine ⟨fun t' p hp => ?_, fun t' ht' hn => ?_, fun t' ht' => ?_, fun x hx => ?_⟩
  · by_cases e : t = t'
    · subst e; rw [hhist, if_pos rfl]; exact hq p hp
    · rw [hhist, if_neg e, List.append_nil]; rw [hrun t' (Ne.symm e)] at hp; exact h.1 t' p hp
  · by_cases e : t = t'
    · subst e; rw [hhist, if_pos rfl]; exact hq' hn
    · rw [hhist, if_neg e, List.append_nil]; rw [hrun t' (Ne.symm e)] at hn
      exact h.2.1 t' (hnext ▸ ht') hn
  · rw [hnext] at ht'
    rw [hrun t' (by omega)]
    exact h.2.2.1 t' ht'
  · rw [hnext]
    rcases hlog x hx with hx | hx
    · exact h.2.2.2 x hx
    · omega

theorem ThreadsOk.step_thread {s : Pool A R σ} (h : ThreadsOk P Q s) (t : Nat) (b : Bool) :
    ThreadsOk P Q (S.step s (.step t b)) := by
  cases hr : s.running t with
  | none => simpa [step, hr] using h
  | some p =>
    have ht : t < s.next := by
      by_contra hc; rw [h.2.2.1 t (by omega)] at hr; cases hr
    have hp := h.1 t p hr
    have hsame : ∀ t', s.hist t' = s.hist t' ++ if t = t' then [] else [] := by simp
    cases p with
    | ret x =>
      simp only [step, hr]
      refine h.of_thread (l := []) ht rfl (fun t' e => Function.update_noteq e _ _) hsame
        (fun _ => .inl) (fun q hq => by simp at hq) (fun _ => by simpa using hp)
    | act a k =>
      simp only [step, hr]
      refine h.of_thread (l := [⟨a, (S.exec t a s.maps).1⟩]) ht rfl
        (fun t' e => Function.update_noteq e _ _) (Pool.hist_append s (t, ⟨a, _⟩)) (fun x hx => ?_) (fun q hq => ?_)
        (fun hq => by simp at hq)
      · rcases List.mem_append.1 hx with hx | hx
        · exact .inl hx
        · exact .inr (by simp at hx; simp [hx])
      · simp only [Function.update_same, Option.some.injEq] at hq
        exact hq ▸ hp.2 _
    | choose k =>
      simp only [step, hr]
      refine h.of_thread (l := []) ht rfl (fun t' e => Function.update_noteq e _ _) hsame
        (fun _ => .inl) (fun q hq => ?_) (fun hq => by simp at hq)
      simp only [Function.update_same, Option.some.injEq] at hq
      simpa [← hq] using hp.2 b

theorem ThreadsOk.step (hp : ∀ i, Paths P Q (S.prog i) []) {s : Pool A R σ}
    (h : ThreadsOk P Q s) : ∀ e, ThreadsOk P Q (S.step s e)
  | .spawn i => h.spawn hp i
  | .step t b => h.step_thread t b
  | .env _ => h

/-- Every reachable pool keeps the path properties its programs have. -/
theorem threadsOk_reachable (hp : ∀ i, Paths P Q (S.prog i) []) {m : σ} {s : Pool A R σ}
    (h : S.Reachable m s) : ThreadsOk P Q s :=
  S.reachable_induction (ThreadsOk P Q) (ThreadsOk.start m) (fun _ e _ hs => hs.step hp e) h

/-- A property of the maps and the log holds in every reachable pool when it holds at the
start, the environment keeps it, and so does every action an invocation takes at a point its
program allows, given the events that action leaves in the invocation's history. -/
theorem inv_reachable (hp : ∀ i, Paths P Q (S.prog i) []) (Inv : σ → List (Nat × Ev A R) → Prop)
    {m : σ} (h0 : Inv m [])
    (hact : ∀ (s : Pool A R σ) t a, ThreadsOk P Q s → Inv s.maps s.log →
      (∃ k, s.running t = some (.act a k)) → P (s.hist t ++ [⟨a, (S.exec t a s.maps).1⟩]) →
      Inv (S.exec t a s.maps).2 (s.log ++ [(t, ⟨a, (S.exec t a s.maps).1⟩)]))
    (henv : ∀ e m' l, Inv m' l → Inv (S.envStep e m') l) {s : Pool A R σ}
    (h : S.Reachable m s) : Inv s.maps s.log := by
  refine (S.reachable_induction (fun s => ThreadsOk P Q s ∧ Inv s.maps s.log)
    ⟨ThreadsOk.start m, h0⟩ (fun s e _ hs => ⟨hs.1.step hp e, ?_⟩) h).2
  obtain ⟨hT, hI⟩ := hs
  cases e with
  | spawn i => exact hI
  | step t b =>
    cases hr : s.running t with
    | none => simpa [step, hr] using hI
    | some p =>
      cases p with
      | ret x => simpa [step, hr] using hI
      | act a k =>
        simp only [step, hr]
        exact hact s t a hT hI ⟨k, hr⟩ ((hT.1 t _ hr).2 _).here
      | choose k => simpa [step, hr] using hI
  | env e => exact henv e _ _ hI

end Threads

/-! ## Properties of the maps and the log -/

/-- A property of the maps and the log that every action and every move of the environment
keeps holds in every reachable pool. -/
theorem log_inv_reachable (Inv : σ → List (Nat × Ev A R) → Prop) {m : σ} (h0 : Inv m [])
    (hact : ∀ t a m' l, Inv m' l → Inv (S.exec t a m').2 (l ++ [(t, ⟨a, (S.exec t a m').1⟩)]))
    (henv : ∀ e m' l, Inv m' l → Inv (S.envStep e m') l) {s : Pool A R σ}
    (h : S.Reachable m s) : Inv s.maps s.log := by
  refine S.reachable_induction (fun s => Inv s.maps s.log) h0 (fun s e _ hs => ?_) h
  cases e with
  | spawn i => exact hs
  | step t b =>
    cases hr : s.running t with
    | none => simpa [step, hr] using hs
    | some p =>
      cases p with
      | ret x => simpa [step, hr] using hs
      | act a k => simpa [step, hr] using hact t a _ _ hs
      | choose k => simpa [step, hr] using hs
  | env e => exact henv e _ _ hs

end System

end EbpfNfs
