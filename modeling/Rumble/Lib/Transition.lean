import Mathlib.Data.List.Infix
import Mathlib.Logic.Relation

/-!
# Runs under a step condition

A deterministic transition function folded over a list of inputs, a condition on the state before
each step, and the rule that an invariant kept by every step that meets the condition holds in
every state such a run reaches.
-/

namespace Rumble.Lib.Transition

variable {σ ι : Type} (step : σ → ι → σ)

/-- Every step of the run from `s` over the inputs meets `C` in the state it starts from. -/
def Always (C : σ → ι → Prop) : σ → List ι → Prop
  | _, [] => True
  | s, i :: is => C s i ∧ Always C (step s i) is

variable {step} {C : σ → ι → Prop}

instance Always.decidable [∀ s i, Decidable (C s i)] :
    ∀ (s : σ) (is : List ι), Decidable (Always step C s is)
  | _, [] => isTrue trivial
  | s, i :: is =>
    have := Always.decidable (step s i) is
    inferInstanceAs (Decidable (C s i ∧ Always step C (step s i) is))

theorem always_append {is js : List ι} {s : σ} : Always step C s (is ++ js) ↔
    Always step C s is ∧ Always step C (is.foldl step s) js := by
  induction is generalizing s with
  | nil => exact ⟨fun h => ⟨trivial, h⟩, fun h => h.2⟩
  | cons i is ih => exact (and_congr_right fun _ => ih).trans and_assoc.symm

theorem Always.of_append {is js : List ι} {s : σ} (h : Always step C s (is ++ js)) :
    Always step C s is := (always_append.mp h).1

theorem Always.drop {is js : List ι} {s : σ} (h : Always step C s (is ++ js)) :
    Always step C (is.foldl step s) js := (always_append.mp h).2

theorem Always.mono {D : σ → ι → Prop} (hCD : ∀ s i, C s i → D s i) {is : List ι} {s : σ}
    (h : Always step C s is) : Always step D s is := by
  induction is generalizing s with
  | nil => trivial
  | cons i is ih => exact ⟨hCD _ _ h.1, ih h.2⟩

theorem Always.and {D : σ → ι → Prop} {is : List ι} {s : σ} (h : Always step C s is)
    (h' : Always step D s is) : Always step (fun s i => C s i ∧ D s i) s is := by
  induction is generalizing s with
  | nil => trivial
  | cons i is ih => exact ⟨⟨h.1, h'.1⟩, ih h.2 h'.2⟩

/-- **Invariant rule.** A property kept by every step that meets `C` is kept by the whole run. -/
theorem Always.invariant {I : σ → Prop} (hstep : ∀ s i, C s i → I s → I (step s i))
    {is : List ι} {s : σ} (h : Always step C s is) (hI : I s) : I (is.foldl step s) := by
  induction is generalizing s with
  | nil => exact hI
  | cons i is ih => exact ih h.2 (hstep s i h.1 hI)

/-- The same, in every state the run passes through. -/
theorem Always.invariant_all {I : σ → Prop} (hstep : ∀ s i, C s i → I s → I (step s i))
    {is pre : List ι} {s : σ} (h : Always step C s is) (hI : I s) (hp : pre <+: is) :
    I (pre.foldl step s) := by
  obtain ⟨rest, rfl⟩ := hp
  exact h.of_append.invariant hstep hI

/-- When a step that misses `C` always breaks the property, a run that keeps it meets `C`. -/
theorem Always.of_invariant {I : σ → Prop} (hbreak : ∀ s i, I s → ¬ C s i → ¬ I (step s i))
    {is : List ι} {s : σ} (h : ∀ pre, pre <+: is → I (pre.foldl step s)) : Always step C s is := by
  induction is generalizing s with
  | nil => trivial
  | cons i is ih =>
    refine ⟨by_contra fun hC => ?_, ih fun pre hp => h (i :: pre) (List.cons_prefix_cons.mpr ⟨rfl, hp⟩)⟩
    exact hbreak s i (h [] (List.nil_prefix)) hC (h [i] (List.cons_prefix_cons.mpr ⟨rfl, List.nil_prefix⟩))

/-- The condition at one step of the run. -/
theorem Always.at {is pre : List ι} {i : ι} {s : σ} (h : Always step C s is)
    (hp : pre ++ [i] <+: is) : C (pre.foldl step s) i := by
  obtain ⟨rest, rfl⟩ := hp
  rw [List.append_assoc] at h
  exact h.drop.1

/-- A run meets the condition when each of its steps does. -/
theorem always_of_at {is : List ι} {s : σ}
    (h : ∀ pre i, pre ++ [i] <+: is → C (pre.foldl step s) i) : Always step C s is := by
  induction is generalizing s with
  | nil => trivial
  | cons i is ih =>
    refine ⟨h [] i (List.cons_prefix_cons.mpr ⟨rfl, List.nil_prefix⟩), ih fun pre j hp => ?_⟩
    exact h (i :: pre) j (List.cons_prefix_cons.mpr ⟨rfl, hp⟩)

/-- **History rule.** A property of the inputs so far that one more input keeps exactly when it
meets `C` holds of every prefix exactly when every step meets `C`. `Q` is a second property that
every input keeps. -/
theorem always_iff_history {P Q : List ι → Prop} {s : σ} {is : List ι} (hP : P []) (hQ : Q [])
    (hsnoc : ∀ pre i, pre ++ [i] <+: is → P pre → Q pre →
      Q (pre ++ [i]) ∧ (P (pre ++ [i]) ↔ C (pre.foldl step s) i)) :
    (∀ pre, pre <+: is → P pre) ↔ Always step C s is := by
  have hkey : ∀ rest pre, pre ++ rest = is → P pre → Q pre →
      ((∀ post, post <+: rest → P (pre ++ post)) ↔ Always step C (pre.foldl step s) rest) := by
    intro rest
    induction rest with
    | nil =>
      intro pre _ hPpre _
      refine iff_of_true (fun post hp => ?_) trivial
      rwa [List.prefix_nil.mp hp, List.append_nil]
    | cons i rest ih =>
      intro pre hpre hPpre hQpre
      obtain ⟨hQ', hP'⟩ := hsnoc pre i ⟨rest, by rw [List.append_assoc]; exact hpre⟩ hPpre hQpre
      have hstep : (pre ++ [i]).foldl step s = step (pre.foldl step s) i := by
        rw [List.foldl_append]
        rfl
      have ih' := fun h => ih (pre ++ [i]) (by rw [List.append_assoc]; exact hpre) h hQ'
      rw [hstep] at ih'
      constructor
      · intro h
        have hi := h [i] (List.cons_prefix_cons.mpr ⟨rfl, List.nil_prefix⟩)
        refine ⟨hP'.mp hi, (ih' hi).mp fun post hp => ?_⟩
        rw [List.append_assoc]
        exact h (i :: post) (List.cons_prefix_cons.mpr ⟨rfl, hp⟩)
      · rintro ⟨hC, hrest⟩ post hp
        rcases List.prefix_cons_iff.mp hp with rfl | ⟨post', rfl, hp'⟩
        · rwa [List.append_nil]
        · have hpost := (ih' (hP'.mpr hC)).mpr hrest post' hp'
          rwa [List.append_assoc] at hpost
  exact (hkey is [] rfl hP hQ).trans Iff.rfl

/-- A property that every step keeps or ends: it still holds, or some step ended it. -/
theorem Always.holds_or_ended {I : σ → Prop} {E : ι → σ → Prop}
    (hstep : ∀ s i, C s i → I s → I (step s i) ∨ E i (step s i)) {is : List ι} {s : σ}
    (h : Always step C s is) (hI : I s) :
    I (is.foldl step s) ∨ ∃ pre i, pre ++ [i] <+: is ∧ E i ((pre ++ [i]).foldl step s) := by
  induction is generalizing s with
  | nil => exact .inl hI
  | cons i is ih =>
    rcases hstep s i h.1 hI with hI | hE
    · rcases ih h.2 hI with hI | ⟨pre, j, hp, hE⟩
      · exact .inl hI
      · exact .inr ⟨i :: pre, j, List.cons_prefix_cons.mpr ⟨rfl, hp⟩, hE⟩
    · exact .inr ⟨[], i, List.cons_prefix_cons.mpr ⟨rfl, List.nil_prefix⟩, hE⟩

/-- **Phase rule.** Items that each give at most one input: a property of the items done so far
that every item keeps holds of all of them in the end, and of some of them after every prefix of
the inputs. -/
theorem filterMap_phase (step : σ → ι → σ) {κ : Type} {I : List κ → σ → Prop}
    (input : κ → Option ι) (items : List κ)
    (hstep : ∀ done x rest s, items = done ++ x :: rest → I done s →
      I (done ++ [x]) ((input x).elim s (step s))) {s : σ} (h : I [] s) :
    I items ((items.filterMap input).foldl step s) ∧
      ∀ pre, pre <+: items.filterMap input → ∃ done, I done (pre.foldl step s) := by
  have hkey : ∀ todo done s, items = done ++ todo → I done s →
      I items ((todo.filterMap input).foldl step s) ∧
        ∀ pre, pre <+: todo.filterMap input → ∃ done, I done (pre.foldl step s) := by
    intro todo
    induction todo with
    | nil =>
      intro done s heq hI
      rw [List.append_nil] at heq
      refine ⟨heq ▸ hI, fun pre hp => ⟨done, ?_⟩⟩
      rwa [List.prefix_nil.mp hp]
    | cons x todo ih =>
      intro done s heq hI
      have hnext := hstep done x todo s heq hI
      have ih := fun s => ih (done ++ [x]) s (by rw [List.append_assoc]; exact heq)
      cases hx : input x with
      | none =>
        rw [hx] at hnext
        rw [List.filterMap_cons_none hx]
        exact ih s hnext
      | some i =>
        rw [hx] at hnext
        rw [List.filterMap_cons_some hx]
        refine ⟨(ih _ hnext).1, fun pre hp => ?_⟩
        rcases List.prefix_cons_iff.mp hp with rfl | ⟨pre, rfl, hp'⟩
        · exact ⟨done, hI⟩
        · exact (ih _ hnext).2 pre hp'
  exact hkey items [] s rfl h

/-- A property of every prefix of an appended list. -/
theorem forall_prefix_append {P : σ → Prop} {is js : List ι} {s : σ}
    (h : ∀ pre, pre <+: is → P (pre.foldl step s))
    (h' : ∀ pre, pre <+: js → P (pre.foldl step (is.foldl step s))) (pre : List ι)
    (hp : pre <+: is ++ js) : P (pre.foldl step s) := by
  rcases List.prefix_or_prefix_of_prefix hp (List.prefix_append is js) with hp' | ⟨post, rfl⟩
  · exact h pre hp'
  · rw [List.foldl_append]
    exact h' post ((List.prefix_append_right_inj is).mp hp)

/-- A fold whose steps are related to their results by a chain relates its start to its result. -/
theorem reflTransGen_foldl {α β γ : Type} {R : γ → γ → Prop} (g : β → γ) (f : β → α → β)
    (h : ∀ b a, Relation.ReflTransGen R (g b) (g (f b a))) (l : List α) (b : β) :
    Relation.ReflTransGen R (g b) (g (l.foldl f b)) := by
  induction l generalizing b with
  | nil => exact .refl
  | cons a l ih => exact (h b a).trans (ih _)

end Rumble.Lib.Transition
