import Mathlib.Algebra.Order.BigOperators.Group.Finset

/-!
# Programs of atomic actions

A BPF program's body, or a control-plane routine, is a tree of the atomic operations it
performs on shared state — a map lookup, a load or store through a map pointer, an atomic add,
a ring-buffer commit — each followed by the rest of the program as a function of the
operation's result. A `choose` node is a choice the environment makes, such as whether
`bpf_ringbuf_reserve` finds room.

One definition serves three readings: `Prog.run` runs a program alone against a state, the pools
of `EbpfNfs.Pool` interleave the actions of many invocations, and `Prog.Paths` states what
holds at every point of every path, as a property of the events so far (each action with the
result it returned), which `Prog.paths_bind` lets a proof establish one sub-program at a time.
A property that a monitor checks event by event is established on the program alone
(`Prog.Monitored`), with no history to carry, and a result that every path returns
(`Prog.Returns`) is the result of every run.
-/

namespace EbpfNfs

/-- A program over the actions `A`, whose action `a` returns a value of type `R a`. -/
inductive Prog (A : Type) (R : A → Type) (α : Type) : Type where
  | ret (x : α)
  | act (a : A) (k : R a → Prog A R α)
  | choose (k : Bool → Prog A R α)

namespace Prog

variable {A : Type} {R : A → Type} {α β σ : Type}

/-- Sequencing: run `p`, then `f` on its result. -/
def bind : Prog A R α → (α → Prog A R β) → Prog A R β
  | ret x, f => f x
  | act a k, f => act a fun r => bind (k r) f
  | choose k, f => choose fun b => bind (k b) f

instance : Monad (Prog A R) where
  pure := ret
  bind := bind

/-- The program performing the single action `a`. -/
def op (a : A) : Prog A R (R a) := act a ret

@[simp] theorem pure_eq (x : α) : (pure x : Prog A R α) = ret x := rfl

@[simp] theorem ret_bind (x : α) (f : α → Prog A R β) : (ret x >>= f) = f x := rfl

@[simp] theorem act_bind (a : A) (k : R a → Prog A R α) (f : α → Prog A R β) :
    (act a k >>= f) = act a fun r => k r >>= f := rfl

@[simp] theorem choose_bind (k : Bool → Prog A R α) (f : α → Prog A R β) :
    (choose k >>= f) = choose fun b => k b >>= f := rfl

@[simp] theorem op_bind (a : A) (f : R a → Prog A R β) : (op a >>= f) = act a f := rfl

@[simp] theorem bind_assoc {γ : Type} (p : Prog A R α) (f : α → Prog A R β) (g : β → Prog A R γ) :
    (p >>= f) >>= g = p >>= fun x => f x >>= g := by
  induction p with
  | ret x => rfl
  | act a k ih => exact congrArg (act a) (funext ih)
  | choose k ih => exact congrArg choose (funext ih)

/-! ## Running a program alone -/

/-- Run a program alone from state `s`: `exec a s` is the result of action `a` and the state it
leaves, and the choices are read from `o` in order (a choice past its end is `true`).
Returns the result, the choices left and the final state. -/
def run (exec : (a : A) → σ → R a × σ) : Prog A R α → List Bool → σ → α × List Bool × σ
  | ret x, o, s => (x, o, s)
  | act a k, o, s => run exec (k (exec a s).1) o (exec a s).2
  | choose k, o, s => run exec (k (o.headD true)) o.tail s

variable {exec : (a : A) → σ → R a × σ}

@[simp] theorem run_ret (x : α) (o : List Bool) (s : σ) : run exec (ret x) o s = (x, o, s) := rfl

@[simp] theorem run_act (a : A) (k : R a → Prog A R α) (o : List Bool) (s : σ) :
    run exec (act a k) o s = run exec (k (exec a s).1) o (exec a s).2 := rfl

@[simp] theorem run_choose (k : Bool → Prog A R α) (o : List Bool) (s : σ) :
    run exec (choose k) o s = run exec (k (o.headD true)) o.tail s := rfl

/-- Running a sequence runs its first part, then the rest from where the first part left. -/
theorem run_bind (p : Prog A R α) (f : α → Prog A R β) (o : List Bool) (s : σ) :
    run exec (p >>= f) o s = run exec (f (run exec p o s).1) (run exec p o s).2.1
      (run exec p o s).2.2 := by
  induction p generalizing o s with
  | ret x => rfl
  | act a k ih => exact ih _ _ _
  | choose k ih => exact ih _ _ _

/-! ## Properties of every path -/

/-- An action performed, with the result it returned. -/
abbrev Ev (A : Type) (R : A → Type) : Type := (a : A) × R a

/-- Every point of every path of `p`, entered after the events `l`, satisfies `P` of the
events so far, and every path that returns `x` ends with `Q` of its events and `x`. -/
def Paths (P : List (Ev A R) → Prop) (Q : List (Ev A R) → α → Prop) :
    Prog A R α → List (Ev A R) → Prop
  | ret x, l => P l ∧ Q l x
  | act a k, l => P l ∧ ∀ r, Paths P Q (k r) (l ++ [⟨a, r⟩])
  | choose k, l => P l ∧ ∀ b, Paths P Q (k b) l

variable {P : List (Ev A R) → Prop} {Q : List (Ev A R) → α → Prop}

@[simp] theorem paths_ret (x : α) (l : List (Ev A R)) :
    Paths P Q (ret x : Prog A R α) l ↔ P l ∧ Q l x := Iff.rfl

@[simp] theorem paths_act (a : A) (k : R a → Prog A R α) (l : List (Ev A R)) :
    Paths P Q (act a k) l ↔ P l ∧ ∀ r, Paths P Q (k r) (l ++ [⟨a, r⟩]) := Iff.rfl

@[simp] theorem paths_choose (k : Bool → Prog A R α) (l : List (Ev A R)) :
    Paths P Q (choose k) l ↔ P l ∧ ∀ b, Paths P Q (k b) l := Iff.rfl

theorem paths_ite (c : Prop) [Decidable c] (p q : Prog A R α) (l : List (Ev A R)) :
    Paths P Q (if c then p else q) l ↔ (c → Paths P Q p l) ∧ (¬c → Paths P Q q l) := by
  split_ifs with h <;> simp [h]

/-- A path property holds at the point it is entered. -/
theorem Paths.here {p : Prog A R α} {l : List (Ev A R)} (h : Paths P Q p l) : P l := by
  cases p <;> exact h.1

/-- A sequence has a path property when its first part ends, on every path, where the rest
has it. -/
theorem paths_bind {p : Prog A R α} {f : α → Prog A R β} {Q' : List (Ev A R) → β → Prop}
    {l : List (Ev A R)} (h : Paths P (fun l x => Paths P Q' (f x) l) p l) :
    Paths P Q' (p >>= f) l := by
  induction p generalizing l with
  | ret x => exact h.2
  | act a k ih => exact ⟨h.1, fun r => ih r (h.2 r)⟩
  | choose k ih => exact ⟨h.1, fun b => ih b (h.2 b)⟩

/-- Path properties weaken pointwise. -/
theorem Paths.mono {P' : List (Ev A R) → Prop} {Q' : List (Ev A R) → α → Prop}
    (hP : ∀ l, P l → P' l) (hQ : ∀ l x, Q l x → Q' l x) {p : Prog A R α} {l : List (Ev A R)}
    (h : Paths P Q p l) : Paths P' Q' p l := by
  induction p generalizing l with
  | ret x => exact ⟨hP _ h.1, hQ _ _ h.2⟩
  | act a k ih => exact ⟨hP _ h.1, fun r => ih r (h.2 r)⟩
  | choose k ih => exact ⟨hP _ h.1, fun b => ih b (h.2 b)⟩

/-! ## The actions a program may perform -/

/-- Every action `p` may perform, on every path, satisfies `X`. -/
def Acts (X : A → Prop) : Prog A R α → Prop
  | ret _ => True
  | act a k => X a ∧ ∀ r, Acts X (k r)
  | choose k => ∀ b, Acts X (k b)

variable {X : A → Prop}

@[simp] theorem acts_ret (x : α) : Acts (R := R) X (ret x) := trivial

@[simp] theorem acts_act (a : A) (k : R a → Prog A R α) : Acts X (act a k) ↔ X a ∧ ∀ r, Acts X (k r) :=
  Iff.rfl

@[simp] theorem acts_choose (k : Bool → Prog A R α) : Acts X (choose k) ↔ ∀ b, Acts X (k b) :=
  Iff.rfl

theorem acts_ite (c : Prop) [Decidable c] (p q : Prog A R α) :
    Acts X (if c then p else q) ↔ (c → Acts X p) ∧ (¬c → Acts X q) := by
  split_ifs with h <;> simp [h]

theorem acts_bind {p : Prog A R α} {f : α → Prog A R β} (hp : Acts X p) (hf : ∀ x, Acts X (f x)) :
    Acts X (p >>= f) := by
  induction p with
  | ret x => exact hf x
  | act a k ih => exact ⟨hp.1, fun r => ih r (hp.2 r)⟩
  | choose k ih => exact fun b => ih b (hp b)

theorem Acts.mono {Y : A → Prop} {p : Prog A R α} (h : Acts X p) (hXY : ∀ a, X a → Y a) :
    Acts Y p := by
  induction p with
  | ret x => trivial
  | act a k ih => exact ⟨hXY a h.1, fun r => ih r (h.2 r)⟩
  | choose k ih => exact fun b => ih b (h b)

/-- A history property that every action satisfying `X` keeps holds along every path of a program
whose actions all satisfy `X`. -/
theorem Acts.paths {p : Prog A R α} (h : Acts X p) (hP : ∀ l e, X e.1 → P l → P (l ++ [e]))
    {l : List (Ev A R)} (hl : P l) : Paths P (fun l _ => P l) p l := by
  induction p generalizing l with
  | ret x => exact ⟨hl, hl⟩
  | act a k ih => exact ⟨hl, fun r => ih r (h.2 r) (hP l ⟨a, r⟩ h.1 hl)⟩
  | choose k ih => exact ⟨hl, fun b => ih b (h b) hl⟩

/-- A part `f` of the state that every action satisfying `X` keeps is kept by a program, run
alone, whose actions all satisfy `X`. -/
theorem Acts.run {γ : Type} (f : σ → γ) {p : Prog A R α} (h : Acts X p)
    (hf : ∀ a s, X a → f (exec a s).2 = f s) (o : List Bool) (s : σ) :
    f (run exec p o s).2.2 = f s := by
  induction p generalizing o s with
  | ret x => rfl
  | act a k ih => exact (ih _ (h.2 _) _ _).trans (hf a s h.1)
  | choose k ih => exact ih _ (h _) _ _

/-- A change `g` of the state that commutes with every action satisfying `X` commutes with a
program, run alone, whose actions all satisfy `X`: the program returns the same result. -/
theorem Acts.run_map (g : σ → σ) {p : Prog A R α} (h : Acts X p)
    (hg : ∀ a s, X a → exec a (g s) = ((exec a s).1, g (exec a s).2)) (o : List Bool) (s : σ) :
    Prog.run exec p o (g s) =
      ((Prog.run exec p o s).1, (Prog.run exec p o s).2.1, g (Prog.run exec p o s).2.2) := by
  induction p generalizing o s with
  | ret x => rfl
  | act a k ih => rw [run_act, run_act, hg a s h.1]; exact ih _ (h.2 _) _ _
  | choose k ih => exact ih _ (h _) _ _

/-! ## Programs that return one value on every path -/

/-- Every path of `p` returns `x`, whatever its actions return and its choices pick. -/
def Returns (x : α) : Prog A R α → Prop
  | ret y => y = x
  | act _ k => ∀ r, Returns x (k r)
  | choose k => ∀ b, Returns x (k b)

@[simp] theorem returns_ret (x y : α) : Returns x (ret y : Prog A R α) ↔ y = x := Iff.rfl

@[simp] theorem returns_pure (x y : α) : Returns x (pure y : Prog A R α) ↔ y = x := Iff.rfl

@[simp] theorem returns_act (x : α) (a : A) (k : R a → Prog A R α) :
    Returns x (act a k) ↔ ∀ r, Returns x (k r) := Iff.rfl

@[simp] theorem returns_choose (x : α) (k : Bool → Prog A R α) :
    Returns x (choose k) ↔ ∀ b, Returns x (k b) := Iff.rfl

/-- A sequence whose second part returns `x` whatever the first part returned. -/
theorem returns_bind {x : α} (p : Prog A R β) {f : β → Prog A R α} (h : ∀ y, Returns x (f y)) :
    Returns x (p >>= f) := by
  induction p with
  | ret y => exact h y
  | act a k ih => exact ih
  | choose k ih => exact ih

theorem returns_bind_true {x : α} {p : Prog A R β} {f : β → Prog A R α} (h : ∀ y, Returns x (f y)) :
    Returns x (p >>= f) ↔ True := iff_true_intro (returns_bind p h)

theorem returns_ite {x : α} (c : Prop) [Decidable c] (p q : Prog A R α) :
    Returns x (if c then p else q) ↔ (c → Returns x p) ∧ (¬ c → Returns x q) := by
  split_ifs with h <;> simp [h]

/-- A program that returns `x` on every path returns it on every run, from every state and with
every semantics of its actions. -/
theorem Returns.run {x : α} {p : Prog A R α} (h : Returns x p) (o : List Bool) (s : σ) :
    (run exec p o s).1 = x := by
  induction p generalizing o s with
  | ret y => exact h
  | act a k ih => exact ih _ (h _) _ _
  | choose k ih => exact ih _ (h _) _ _

/-! ## Monitors

A monitor reads the events of a path one at a time: `ok q e` says that the event `e` is allowed
in the monitor state `q`, and `next q e` is the state after it. `Monitor` is a history the
monitor accepts, `Monitored` a program all of whose paths it accepts, ending where `post` holds
of the state and the result. A program accepted from the state a history leaves keeps the
history accepted along every path (`Monitored.paths`).
-/

section Monitor

variable {M : Type} (ok : M → Ev A R → Prop) (next : M → Ev A R → M)

/-- Every event of `l`, read from the state `q`, is allowed. -/
def Monitor : M → List (Ev A R) → Prop
  | _, [] => True
  | q, e :: es => ok q e ∧ Monitor (next q e) es

/-- Every event of every path of `p`, read from the state `q`, is allowed, and every path that
returns `x` ends in a state `q'` with `post q' x`. -/
def Monitored (post : M → α → Prop) : M → Prog A R α → Prop
  | q, ret x => post q x
  | q, act a k => ∀ r, ok q ⟨a, r⟩ ∧ Monitored post (next q ⟨a, r⟩) (k r)
  | q, choose k => ∀ b, Monitored post q (k b)

variable {ok next} {q : M} {post : M → α → Prop}

@[simp] theorem monitored_ret (x : α) : Monitored ok next post q (ret x : Prog A R α) ↔ post q x :=
  Iff.rfl

@[simp] theorem monitored_act (a : A) (k : R a → Prog A R α) :
    Monitored ok next post q (act a k) ↔
      ∀ r, ok q ⟨a, r⟩ ∧ Monitored ok next post (next q ⟨a, r⟩) (k r) := Iff.rfl

@[simp] theorem monitored_choose (k : Bool → Prog A R α) :
    Monitored ok next post q (choose k) ↔ ∀ b, Monitored ok next post q (k b) := Iff.rfl

theorem monitored_ite (c : Prop) [Decidable c] (p p' : Prog A R α) :
    Monitored ok next post q (if c then p else p') ↔
      (c → Monitored ok next post q p) ∧ (¬c → Monitored ok next post q p') := by
  split_ifs with h <;> simp [h]

theorem monitor_append (l es : List (Ev A R)) :
    Monitor ok next q (l ++ es) ↔ Monitor ok next q l ∧ Monitor ok next (l.foldl next q) es := by
  induction l generalizing q with
  | nil => simp [Monitor]
  | cons e l ih => simp [Monitor, ih, and_assoc]

/-- A sequence is accepted when its first part ends where the rest is accepted. -/
theorem monitored_bind {p : Prog A R α} {f : α → Prog A R β} {post' : M → β → Prop} :
    Monitored ok next post' q (p >>= f) ↔
      Monitored ok next (fun q x => Monitored ok next post' q (f x)) q p := by
  induction p generalizing q with
  | ret x => rfl
  | act a k ih => exact forall_congr' fun r => and_congr_right' (ih r)
  | choose k ih => exact forall_congr' fun b => ih b

theorem Monitored.mono {post' : M → α → Prop} (h : ∀ q x, post q x → post' q x)
    {p : Prog A R α} (hp : Monitored ok next post q p) : Monitored ok next post' q p := by
  induction p generalizing q with
  | ret x => exact h q x hp
  | act a k ih => exact fun r => ⟨(hp r).1, ih r (hp r).2⟩
  | choose k ih => exact fun b => ih b (hp b)

/-- A program accepted from the state a history leaves keeps the history accepted along every
path. -/
theorem Monitored.paths {q₀ : M} {p : Prog A R α} {l : List (Ev A R)}
    (hp : Monitored ok next post (l.foldl next q₀) p) (hl : Monitor ok next q₀ l) :
    Paths (Monitor ok next q₀) (fun l x => post (l.foldl next q₀) x) p l := by
  induction p generalizing l with
  | ret x => exact ⟨hl, hp⟩
  | act a k ih =>
    refine ⟨hl, fun r => ih r ?_ ?_⟩
    · simpa using (hp r).2
    · simpa [monitor_append, Monitor] using ⟨hl, (hp r).1⟩
  | choose k ih => exact ⟨hl, fun b => ih b (hp b) hl⟩

end Monitor

end Prog

end EbpfNfs
