import EbpfNfs.Pool
import EbpfNfs.Maps

/-!
# Counters and a ring over whole runs

Both servers count in a `__u64` array with `__sync_fetch_and_add`, commit records to a ring, and
drain the ring in a control-plane consumer that counts the records of one kind. Given the counter
each action adds to (`idx`) and the record it commits (`rec`), this module turns facts about
single invocations into facts about every reachable pool:

* counter `i` is the number of adds to it modulo `2 ^ 64` (`stats_eq_statCalls`), and the adds
  are the sum of each invocation's (`statCalls_eq_sum`);
* the ring is what the log committed (`events_eq_committed`), and an invocation's part of it is
  what its own history committed (`committed_filter`);
* a consumer that counts one kind of record has counted those among the records it took, modulo
  `2 ^ 64` (`ConsumerOk`), and once it has taken all of them, when every invocation counted such
  a record exactly when it added to counter `j`, it agrees with counter `j` (`served_eq_statCalls`).
-/

namespace EbpfNfs

open Prog

variable {A : Type} {R : A → Type} {ρ : Type}

/-! ## What a history counted and committed -/

section Histories

variable (idx : A → Option Nat) (rec : A → Option ρ)

/-- The counters the events add to, in order. -/
def statsOf (l : List (Ev A R)) : List Nat := l.filterMap fun e => idx e.1

/-- The records the events commit, in order. -/
def recordsOf (l : List (Ev A R)) : List ρ := l.filterMap fun e => rec e.1

@[simp] theorem statsOf_nil : statsOf idx ([] : List (Ev A R)) = [] := rfl

@[simp] theorem recordsOf_nil : recordsOf rec ([] : List (Ev A R)) = [] := rfl

@[simp] theorem statsOf_cons (e : Ev A R) (l : List (Ev A R)) :
    statsOf idx (e :: l) = (idx e.1).toList ++ statsOf idx l := by
  cases h : idx e.1 <;> simp [statsOf, h]

@[simp] theorem recordsOf_cons (e : Ev A R) (l : List (Ev A R)) :
    recordsOf rec (e :: l) = (rec e.1).toList ++ recordsOf rec l := by
  cases h : rec e.1 <;> simp [recordsOf, h]

@[simp] theorem statsOf_append (l l' : List (Ev A R)) :
    statsOf idx (l ++ l') = statsOf idx l ++ statsOf idx l' := List.filterMap_append _ _ _

@[simp] theorem recordsOf_append (l l' : List (Ev A R)) :
    recordsOf rec (l ++ l') = recordsOf rec l ++ recordsOf rec l' := List.filterMap_append _ _ _

/-- How many events of a log added to counter `i`. -/
def statCalls (l : List (Nat × Ev A R)) (i : Nat) : Nat := (statsOf idx (l.map Prod.snd)).count i

/-- The records a log's events commit, each with the invocation that committed it. -/
def committed (l : List (Nat × Ev A R)) : List (Nat × ρ) :=
  l.filterMap fun x => (rec x.2.1).map (x.1, ·)

@[simp] theorem statCalls_nil (i : Nat) : statCalls idx ([] : List (Nat × Ev A R)) i = 0 := rfl

@[simp] theorem statCalls_snoc (l : List (Nat × Ev A R)) (x : Nat × Ev A R) (i : Nat) :
    statCalls idx (l ++ [x]) i = statCalls idx l i + if idx x.2.1 = some i then 1 else 0 := by
  cases h : idx x.2.1 <;> simp [statCalls, h, List.count_cons]

@[simp] theorem committed_nil : committed rec ([] : List (Nat × Ev A R)) = [] := rfl

@[simp] theorem committed_snoc (l : List (Nat × Ev A R)) (x : Nat × Ev A R) :
    committed rec (l ++ [x]) = committed rec l ++ ((rec x.2.1).map (x.1, ·)).toList := by
  cases h : rec x.2.1 <;> simp [committed, h]

theorem count_statsOf (l : List (Ev A R)) (i : Nat) :
    (statsOf idx l).count i = l.countP fun e => idx e.1 == some i := by
  induction l with
  | nil => rfl
  | cons e l ih =>
    rw [statsOf_cons, List.count_append, ih, List.countP_cons, add_comm]
    cases idx e.1 <;> simp [List.count_cons]

/-- Invocation `t`'s records are those its own events commit. -/
theorem committed_filter (l : List (Nat × Ev A R)) (t : Nat) :
    ((committed rec l).filter fun x => x.1 == t).map Prod.snd =
      recordsOf rec ((l.filter fun x => x.1 == t).map Prod.snd) := by
  induction l with
  | nil => rfl
  | cons x l ih =>
    rcases x with ⟨t', e⟩
    simp only [committed, recordsOf] at ih ⊢
    by_cases ht : t' = t <;> cases hc : rec e.1 <;>
      simp [List.filterMap_cons, List.filter_cons, ht, hc, ih]

end Histories

/-! ## The counters and the ring of a reachable pool -/

section Reachable

variable {ι ε σ : Type} {S : System ι ε A R σ} {m : σ} {s : Pool A R σ}
  {P : List (Ev A R) → Prop} {Q : List (Ev A R) → Unit → Prop}
  (idx : A → Option Nat) (rec : A → Option ρ)

/-- The adds to counter `i` are the sum of each invocation's. -/
theorem statCalls_eq_sum (hT : System.ThreadsOk P Q s) (i : Nat) :
    statCalls idx s.log i = ∑ t ∈ Finset.range s.next, (statsOf idx (s.hist t)).count i := by
  simp only [statCalls, count_statsOf, List.countP_map, Pool.hist]
  rw [← List.countP_map, Pool.countP_log s.log hT.2.2.2]
  simp only [count_statsOf, List.countP_map]

/-- Counter `i` of `stats` is the number of adds to it, modulo `2 ^ 64`, when the counters start
at zero, each action adds one to the counter `idx` names (`update_stats(i, 1)`, an atomic add on
an array of 16) and leaves the others, and the environment leaves them all. -/
theorem stats_eq_statCalls (stats : σ → Nat → Nat) (h0 : ∀ i, stats m i = 0)
    (hexec : ∀ t a m', stats (S.exec t a m').2 = (idx a).elim (stats m') fun j => arrayAdd 16 (stats m') j 1)
    (henv : ∀ e m', stats (S.envStep e m') = stats m') (h : S.Reachable m s) {i : Nat}
    (hi : i < 16) : stats s.maps i = statCalls idx s.log i % 2 ^ 64 := by
  refine S.log_inv_reachable (fun m l => ∀ i < 16, stats m i = statCalls idx l i % 2 ^ 64)
    (fun i _ => by simp [h0]) (fun t a m l hm i hi => ?_)
    (fun e m l hm i hi => (henv e m ▸ hm i hi :))
    h i hi
  rw [hexec, statCalls_snoc]
  cases hj : idx a with
  | none => simpa using hm i hi
  | some j =>
    by_cases hji : j = i
    · subst hji; simp [hm j hi, hi, Nat.add_mod]
    · simpa [hji, Ne.symm hji] using hm i hi

/-- The ring is the log's commits, in order, when it starts empty, each action appends what it
commits, and the environment leaves it. -/
theorem events_eq_committed (events : σ → List (Nat × ρ)) (h0 : events m = [])
    (hexec : ∀ t a m', events (S.exec t a m').2 = events m' ++ ((rec a).map (t, ·)).toList)
    (henv : ∀ e m', events (S.envStep e m') = events m') (h : S.Reachable m s) :
    events s.maps = committed rec s.log :=
  S.log_inv_reachable (fun m l => events m = committed rec l) h0
    (fun t a m l hm => by simp [hexec, hm]) (fun e m l hm => (henv e m).trans hm) h

end Reachable

/-! ## The consumer -/

section Consumer

variable (served : ρ → Bool)

/-- The consumer has taken the first `consumed` records of the ring and has counted in
`counter`, modulo `2 ^ 64`, those that are `served`. -/
def ConsumerOk (events : List (Nat × ρ)) (consumed counter : Nat) : Prop :=
  consumed ≤ events.length ∧
    counter = ((events.take consumed).map Prod.snd).countP served % 2 ^ 64

variable {served}

theorem ConsumerOk.zero : ConsumerOk served [] 0 0 := by simp [ConsumerOk]

/-- Committing records keeps what the consumer took. -/
theorem ConsumerOk.append {events : List (Nat × ρ)} {c k : Nat}
    (h : ConsumerOk served events c k) (x : List (Nat × ρ)) :
    ConsumerOk served (events ++ x) c k :=
  ⟨by rw [List.length_append]; exact h.1.trans (Nat.le_add_right _ _), by rw [List.take_append_of_le_length h.1]; exact h.2⟩

/-- Taking the next record, and counting it when it is `served`. -/
theorem ConsumerOk.consume {events : List (Nat × ρ)} {c k t : Nat} {r : ρ}
    (h : ConsumerOk served events c k) (hx : events[c]? = some (t, r)) :
    ConsumerOk served events (c + 1) (if served r then (k + 1) % 2 ^ 64 else k) := by
  obtain ⟨hlt, hx⟩ := List.getElem?_eq_some_iff.1 hx
  refine ⟨hlt, ?_⟩
  rw [List.take_succ, List.getElem?_eq_getElem hlt, hx, h.2]
  cases hr : served r <;> simp [hr, Nat.add_mod]

/-- Once the consumer has taken every record and every finished invocation counted a `served`
record exactly as often as it added to counter `j`, the consumer's count is the adds to `j`
modulo `2 ^ 64`. -/
theorem served_eq_statCalls {σ : Type} {s : Pool A R σ}
    {P : List (Ev A R) → Prop} {Q : List (Ev A R) → Unit → Prop} (idx : A → Option Nat)
    (rec : A → Option ρ) (hT : System.ThreadsOk P Q s) (hq : s.Quiescent) {j : Nat}
    (hQ : ∀ l, Q l () → (recordsOf rec l).countP served = (statsOf idx l).count j) :
    ((committed rec s.log).map Prod.snd).countP served = statCalls idx s.log j := by
  have hlt : ∀ x ∈ committed rec s.log, x.1 < s.next := by
    intro x hx
    obtain ⟨y, hy, hxy⟩ := List.mem_filterMap.1 hx
    obtain ⟨r, -, rfl⟩ := Option.map_eq_some'.1 hxy
    exact hT.2.2.2 y hy
  rw [Pool.countP_log _ hlt, statCalls_eq_sum idx hT]
  exact Finset.sum_congr rfl fun t ht => by
    rw [committed_filter]; exact hQ _ (hT.2.1 t (Finset.mem_range.1 ht) (hq t)).2

end Consumer

end EbpfNfs
