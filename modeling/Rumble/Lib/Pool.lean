import Rumble.Lib.Transition
import Mathlib.Data.List.Perm.Basic
import Mathlib.Algebra.BigOperators.Group.List.Basic
import Mathlib.Algebra.GroupWithZero.Nat

/-!
# Interleaved tasks

Handlers that give up control between their reads and their writes: a request starts with one piece
of work and may leave a task behind, and the scheduler resumes the tasks one piece at a time, in any
order. `step_cases` says what one move can do, up to the order of the tasks; the invariant rule is
read off it.
-/

namespace Rumble.Lib

/-- A shared state and the tasks suspended over it. -/
structure Pool (σ τ : Type) where
  shared : σ
  tasks : List τ

/-- What the scheduler runs next: a new request, or the next piece of a suspended task. -/
inductive Pick (ε : Type) where
  | start (request : ε)
  | resume (i : Nat)
  deriving DecidableEq

/-- The first piece of a request and the next piece of a task. `α` is what a piece reads from its
environment; the task that is left, if any, comes with the new state. -/
structure Interleaved (α σ ε τ : Type) where
  start : α → σ → ε → σ × Option τ
  resume : α → σ → τ → σ × Option τ

namespace Interleaved

variable {α σ ε τ : Type} (prog : Interleaved α σ ε τ)

/-- Run one piece. -/
def step (p : Pool σ τ) (m : α × Pick ε) : Pool σ τ :=
  match m.2 with
  | .start e => ⟨(prog.start m.1 p.shared e).1, p.tasks ++ (prog.start m.1 p.shared e).2.toList⟩
  | .resume i =>
    match p.tasks[i]? with
    | none => p
    | some t =>
      ⟨(prog.resume m.1 p.shared t).1,
        p.tasks.take i ++ (prog.resume m.1 p.shared t).2.toList ++ p.tasks.drop (i + 1)⟩

def run (p : Pool σ τ) (moves : List (α × Pick ε)) : Pool σ τ := moves.foldl prog.step p

theorem run_snoc (p : Pool σ τ) (moves : List (α × Pick ε)) (m : α × Pick ε) :
    prog.run p (moves ++ [m]) = prog.step (prog.run p moves) m := by
  rw [run, List.foldl_append]
  rfl

/-- A condition on requests and one on resumed tasks, read as a condition on moves. -/
def Meets (S : α → σ → ε → Prop) (R : α → σ → τ → Prop) (p : Pool σ τ) (m : α × Pick ε) : Prop :=
  match m.2 with
  | .start e => S m.1 p.shared e
  | .resume i => ∀ t ∈ p.tasks[i]?, R m.1 p.shared t

instance {S : α → σ → ε → Prop} {R : α → σ → τ → Prop} [∀ a s e, Decidable (S a s e)]
    [∀ a s t, Decidable (R a s t)] (p : Pool σ τ) (m : α × Pick ε) :
    Decidable (Meets S R p m) :=
  match m with
  | (a, .start e) => inferInstanceAs (Decidable (S a p.shared e))
  | (a, .resume i) => inferInstanceAs (Decidable (∀ t ∈ p.tasks[i]?, R a p.shared t))

/-- The task that runs and the others. -/
theorem perm_resume {l : List τ} {i : Nat} {t : τ} (h : l[i]? = some t) :
    l.Perm (t :: (l.take i ++ l.drop (i + 1))) := by
  obtain ⟨hi, rfl⟩ := List.getElem?_eq_some_iff.mp h
  conv_lhs => rw [← List.take_append_drop i l, List.drop_eq_getElem_cons hi]
  exact List.perm_middle

/-- **What one move does**: nothing, the first piece of a request, or the next piece of one of the
tasks. The order of the tasks is left open. -/
theorem step_cases (p : Pool σ τ) (m : α × Pick ε) :
    prog.step p m = p ∨
    (∃ e, m.2 = .start e ∧ (prog.step p m).shared = (prog.start m.1 p.shared e).1 ∧
      (prog.step p m).tasks = p.tasks ++ (prog.start m.1 p.shared e).2.toList) ∨
    ∃ i t others, m.2 = .resume i ∧ p.tasks[i]? = some t ∧ p.tasks.Perm (t :: others) ∧
      (prog.step p m).shared = (prog.resume m.1 p.shared t).1 ∧
      (prog.step p m).tasks.Perm ((prog.resume m.1 p.shared t).2.toList ++ others) := by
  obtain ⟨a, pick⟩ := m
  cases pick with
  | start e => exact .inr (.inl ⟨e, rfl, rfl, rfl⟩)
  | resume i =>
    cases hi : p.tasks[i]? with
    | none => exact .inl (by simp only [step, hi])
    | some t =>
      refine .inr (.inr ⟨i, t, p.tasks.take i ++ p.tasks.drop (i + 1), rfl, hi, perm_resume hi,
        ?_, ?_⟩)
      · simp only [step, hi]
      · simp only [step, hi]
        refine (List.Perm.append_right _ List.perm_append_comm).trans ?_
        rw [List.append_assoc]

/-! ## The invariant rule -/

section Rule

variable {S : α → σ → ε → Prop} {R : α → σ → τ → Prop} {I : σ → Prop} {J : σ → τ → Prop}
  {X : τ → τ → Prop}

/-- An invariant of the shared state, one of each task, and one of every two tasks. -/
structure Holds (I : σ → Prop) (J : σ → τ → Prop) (X : τ → τ → Prop) (p : Pool σ τ) : Prop where
  shared : I p.shared
  tasks : ∀ t ∈ p.tasks, J p.shared t
  pairs : p.tasks.Pairwise X

/-- What a piece has to establish, from a state to the next with the task it leaves: for a task
that it may coexist with (`Y`), that task's invariant again. -/
structure Keeps (I : σ → Prop) (J : σ → τ → Prop) (X : τ → τ → Prop) (Y : τ → Prop) (s : σ)
    (next : σ × Option τ) : Prop where
  shared : I next.1
  left : ∀ t ∈ next.2, J next.1 t
  others : ∀ t, Y t → J s t → J next.1 t
  pairs : ∀ t ∈ next.2, ∀ t', Y t' → J s t' → X t t'

theorem Keeps.mono {Y Y' : τ → Prop} {s : σ} {next : σ × Option τ} (h : Keeps I J X Y s next)
    (hY : ∀ t, Y' t → Y t) : Keeps I J X Y' s next :=
  ⟨h.shared, h.left, fun t ht => h.others t (hY t ht), fun t ht t' ht' => h.pairs t ht t' (hY t' ht')⟩

/-- **Invariant rule**, one move, which may know the other tasks. -/
theorem holds_move (hX : ∀ {t t' : τ}, X t t' → X t' t) {p : Pool σ τ} {m : α × Pick ε}
    (h : Holds I J X p)
    (hstart : ∀ e, m.2 = .start e →
      Keeps I J X (· ∈ p.tasks) p.shared (prog.start m.1 p.shared e))
    (hresume : ∀ i t, m.2 = .resume i → p.tasks[i]? = some t →
      Keeps I J X (fun t' => t' ∈ p.tasks ∧ X t t') p.shared (prog.resume m.1 p.shared t)) :
    Holds I J X (prog.step p m) := by
  rcases prog.step_cases p m with heq | ⟨e, he, hs, ht⟩ | ⟨i, t, others, he, hi, hp, hs, ht⟩
  · rwa [heq]
  · have hk := hstart e he
    refine ⟨hs ▸ hk.shared, ?_, ?_⟩
    · intro x hx
      rw [ht, List.mem_append, Option.mem_toList] at hx
      rw [hs]
      exact hx.elim (fun hx => hk.others x hx (h.tasks x hx)) (hk.left x)
    · rw [ht, List.pairwise_append]
      refine ⟨h.pairs, by cases (prog.start m.1 p.shared e).2 <;> simp, ?_⟩
      intro x hx y hy
      exact hX (hk.pairs y (Option.mem_toList.mp hy) x hx (h.tasks x hx))
  · have hk := hresume i t he hi
    obtain ⟨hXt, hothers⟩ := List.pairwise_cons.mp ((hp.pairwise_iff hX).mp h.pairs)
    have hmem : ∀ x ∈ others, x ∈ p.tasks := fun x hx =>
      hp.mem_iff.mpr (List.mem_cons_of_mem _ hx)
    refine ⟨hs ▸ hk.shared, ?_, (ht.pairwise_iff hX).mpr ?_⟩
    · intro x hx
      rw [ht.mem_iff, List.mem_append, Option.mem_toList] at hx
      rw [hs]
      exact hx.elim (hk.left x) fun hx =>
        hk.others x ⟨hmem x hx, hXt x hx⟩ (h.tasks x (hmem x hx))
    · refine List.pairwise_append.mpr ⟨?_, hothers, ?_⟩
      · cases (prog.resume m.1 p.shared t).2 <;> simp
      · intro x hx y hy
        exact hk.pairs x (Option.mem_toList.mp hx) y ⟨hmem y hy, hXt y hy⟩ (h.tasks y (hmem y hy))

/-- The rule for a condition on the shared state alone. -/
theorem holds_step (hX : ∀ {t t' : τ}, X t t' → X t' t)
    (hstart : ∀ a s e, S a s e → I s → Keeps I J X (fun _ => True) s (prog.start a s e))
    (hresume : ∀ a s t, R a s t → I s → J s t → Keeps I J X (X t) s (prog.resume a s t))
    {p : Pool σ τ} {m : α × Pick ε} (hm : Meets S R p m) (h : Holds I J X p) :
    Holds I J X (prog.step p m) := by
  refine prog.holds_move hX h (fun e he => ?_) fun i t he hi => ?_
  · simp only [Meets, he] at hm
    exact (hstart m.1 p.shared e hm h.shared).mono fun _ _ => trivial
  · simp only [Meets, he] at hm
    exact (hresume m.1 p.shared t (hm t hi) h.shared (h.tasks t (List.mem_of_getElem? hi))).mono
      fun _ ht => ht.2

end Rule

/-! ## Amounts held by tasks -/

section Balance

variable (amount : τ → Nat) {I : σ → Nat → Prop} {J : τ → Prop}

/-- What a task that may be left behind holds. -/
def held (left : Option τ) : Nat := (left.map amount).getD 0

/-- The shared state is in relation to the sum of what the tasks hold, and each task is sound. -/
structure Balanced (I : σ → Nat → Prop) (J : τ → Prop) (p : Pool σ τ) : Prop where
  shared : I p.shared (p.tasks.map amount).sum
  tasks : ∀ t ∈ p.tasks, J t

/-- **Balance rule**, one step: a piece settles for its own task, whatever the others hold. -/
theorem balanced_step
    (hstart : ∀ a s e n, I s n → I (prog.start a s e).1 (held amount (prog.start a s e).2 + n) ∧
      ∀ t ∈ (prog.start a s e).2, J t)
    (hresume : ∀ a s t n, J t → I s (amount t + n) →
      I (prog.resume a s t).1 (held amount (prog.resume a s t).2 + n) ∧
      ∀ t' ∈ (prog.resume a s t).2, J t')
    {p : Pool σ τ} (m : α × Pick ε) (h : Balanced amount I J p) :
    Balanced amount I J (prog.step p m) := by
  have hsum : ∀ left : Option τ, (left.toList.map amount).sum = held amount left := fun left => by
    cases left <;> simp [held]
  rcases prog.step_cases p m with heq | ⟨e, -, hs, ht⟩ | ⟨i, t, others, -, hi, hp, hs, ht⟩
  · rwa [heq]
  · obtain ⟨hI, hJ⟩ := hstart m.1 p.shared e _ h.shared
    refine ⟨?_, fun x hx => ?_⟩
    · rw [hs, ht, List.map_append, List.sum_append, hsum, Nat.add_comm]
      exact hI
    · rw [ht, List.mem_append, Option.mem_toList] at hx
      exact hx.elim (h.tasks x) (hJ x)
  · have hbefore : (p.tasks.map amount).sum = amount t + (others.map amount).sum := by
      rw [(hp.map amount).sum_eq, List.map_cons, List.sum_cons]
    have hshared := h.shared
    rw [hbefore] at hshared
    obtain ⟨hI, hJ⟩ := hresume m.1 p.shared t _ (h.tasks t (List.mem_of_getElem? hi)) hshared
    refine ⟨?_, fun x hx => ?_⟩
    · rw [hs, (ht.map amount).sum_eq, List.map_append, List.sum_append, hsum]
      exact hI
    · rw [ht.mem_iff, List.mem_append, Option.mem_toList] at hx
      exact hx.elim (hJ x) fun hx => h.tasks x (hp.mem_iff.mpr (List.mem_cons_of_mem _ hx))

/-- The rule over a run. -/
theorem balanced_run
    (hstart : ∀ a s e n, I s n → I (prog.start a s e).1 (held amount (prog.start a s e).2 + n) ∧
      ∀ t ∈ (prog.start a s e).2, J t)
    (hresume : ∀ a s t n, J t → I s (amount t + n) →
      I (prog.resume a s t).1 (held amount (prog.resume a s t).2 + n) ∧
      ∀ t' ∈ (prog.resume a s t).2, J t')
    {p : Pool σ τ} (moves : List (α × Pick ε)) (h : Balanced amount I J p) :
    Balanced amount I J (prog.run p moves) := by
  induction moves generalizing p with
  | nil => exact h
  | cons m moves ih => exact ih (prog.balanced_step amount hstart hresume m h)

end Balance

/-! ## A task that runs alone -/

/-- The pieces of `t`, one after the other from `s`, end in the last state. -/
inductive Alone (a : α) : σ → τ → σ → Prop where
  | last {s : σ} {t : τ} {s' : σ} (h : prog.resume a s t = (s', none)) : Alone a s t s'
  | next {s : σ} {t : τ} {s₁ : σ} {t₁ : τ} {s' : σ} (h : prog.resume a s t = (s₁, some t₁))
      (hrest : Alone a s₁ t₁ s') : Alone a s t s'

variable {prog}

theorem step_resume_zero (a : α) (s : σ) (t : τ) : prog.step ⟨s, [t]⟩ (a, .resume 0) =
    ⟨(prog.resume a s t).1, (prog.resume a s t).2.toList⟩ := by
  simp [step]

/-- The scheduler can run a task alone. -/
theorem Alone.run_eq {a : α} {s s' : σ} {t : τ} (h : prog.Alone a s t s') :
    ∃ n, prog.run ⟨s, [t]⟩ (List.replicate n (a, .resume 0)) = ⟨s', []⟩ := by
  induction h with
  | last h => exact ⟨1, by simp [run, step_resume_zero, h]⟩
  | next h _ ih =>
    obtain ⟨n, hn⟩ := ih
    refine ⟨n + 1, ?_⟩
    rw [run, List.replicate_succ, List.foldl_cons, step_resume_zero, h]
    exact hn

end Interleaved

end Rumble.Lib
