import Mathlib.Data.List.DropRight
import Mathlib.Algebra.BigOperators.Group.List.Basic
import Mathlib.Algebra.Order.BigOperators.Group.List
import Mathlib.Data.List.Chain
import Mathlib.Algebra.GroupWithZero.Nat

/-!
# The last spell of a list

A counter that an event resets and other events increase holds the weight of the longest run at the
end of the history that the resetting event has no part in. `trailing p w` is that weight.
`lastChain r` is the longest end of the history in which each element follows the one before it.
-/

namespace Rumble.Lib

variable {α : Type}

/-- The weight of the longest run of elements with `p` at the end of the list. -/
def trailing (p : α → Bool) (w : α → Nat) (l : List α) : Nat :=
  ((l.rtakeWhile p).map w).sum

section

variable (p : α → Bool) (w : α → Nat)

@[simp] theorem trailing_nil : trailing p w [] = 0 := by
  simp [trailing]

theorem trailing_concat (l : List α) (x : α) :
    trailing p w (l ++ [x]) = if p x then trailing p w l + w x else 0 := by
  unfold trailing
  rw [List.rtakeWhile_concat]
  split <;> simp

theorem trailing_concat_pos (l : List α) {x : α} (h : p x = true) :
    trailing p w (l ++ [x]) = trailing p w l + w x := by
  rw [trailing_concat, if_pos h]

theorem trailing_concat_neg (l : List α) {x : α} (h : p x = false) :
    trailing p w (l ++ [x]) = 0 := by
  rw [trailing_concat, h]
  rfl

end

section

variable {p : α → Bool} {w : α → Nat}

/-- No run at the end of the list weighs more. -/
theorem sum_le_trailing {l pre run : List α} (h : l = pre ++ run) (hp : ∀ x ∈ run, p x = true) :
    (run.map w).sum ≤ trailing p w l := by
  induction run using List.reverseRecOn generalizing l with
  | nil => simp
  | append_singleton run x ih =>
    have hx : p x = true := hp x (by simp)
    have hrun := ih rfl fun y hy => hp y (List.mem_append_left _ hy)
    rw [h, ← List.append_assoc, trailing_concat_pos p w _ hx]
    simpa using hrun

/-- The longest run reaches a weight if and only if some run does. -/
theorem le_trailing_iff {l : List α} {m n : Nat} : m ≤ trailing p w l + n ↔
    ∃ pre run, l = pre ++ run ∧ (∀ x ∈ run, p x = true) ∧ m ≤ (run.map w).sum + n := by
  constructor
  · intro h
    exact ⟨l.rdropWhile p, l.rtakeWhile p, List.rdropWhile_append_rtakeWhile.symm,
      fun x hx => List.mem_rtakeWhile_imp hx, h⟩
  · rintro ⟨pre, run, hl, hp, h⟩
    have := sum_le_trailing (w := w) hl hp
    omega

end

/-! ## The last chain -/

section Chain

variable (r : α → α → Bool)

/-- The longest end of the list in which every element follows the one before. -/
def lastChain (l : List α) : List α :=
  l.foldl (fun run x => if run.getLast?.all fun y => r y x then run ++ [x] else [x]) []

theorem lastChain_concat (l : List α) (x : α) : lastChain r (l ++ [x]) =
    if (lastChain r l).getLast?.all fun y => r y x then lastChain r l ++ [x] else [x] := by
  rw [lastChain, List.foldl_append]
  rfl

theorem lastChain_suffix (l : List α) : lastChain r l <:+ l := by
  induction l using List.reverseRecOn with
  | nil => exact List.suffix_rfl
  | append_singleton l x ih =>
    rw [lastChain_concat]
    split
    · exact List.suffix_concat_iff.mpr (.inr ⟨_, rfl, ih⟩)
    · exact List.suffix_append l [x]

theorem isChain_lastChain (l : List α) : (lastChain r l).IsChain fun a b => r a b = true := by
  induction l using List.reverseRecOn with
  | nil => exact .nil
  | append_singleton l x ih =>
    rw [lastChain_concat]
    split
    · rename_i hnext
      refine List.isChain_append.mpr ⟨ih, .singleton x, fun y hy z hz => ?_⟩
      obtain rfl := Option.some.inj hz
      rw [Option.mem_def.mp hy] at hnext
      exact hnext
    · exact .singleton x

/-- No end of the list that is a chain is longer. -/
theorem suffix_lastChain {l run : List α} (hrun : run <:+ l)
    (hchain : run.IsChain fun a b => r a b = true) : run <:+ lastChain r l := by
  induction l using List.reverseRecOn generalizing run with
  | nil => exact hrun
  | append_singleton l x ih =>
    rcases List.suffix_concat_iff.mp hrun with rfl | ⟨front, rfl, hfront⟩
    · exact List.nil_suffix
    obtain ⟨hc, -, hnext⟩ := List.isChain_append.mp hchain
    obtain ⟨pre, hpre⟩ := ih hfront hc
    rw [lastChain_concat]
    split
    · exact List.suffix_concat_iff.mpr (.inr ⟨_, rfl, pre, hpre⟩)
    · rename_i hbreak
      -- A chain that reaches past `x` would have its last element followed by `x`.
      cases hlast : front.getLast? with
      | none =>
        obtain rfl := List.getLast?_eq_none_iff.mp hlast
        exact List.suffix_rfl
      | some y =>
        refine absurd ?_ hbreak
        rw [← hpre, List.getLast?_append, hlast]
        exact hnext y hlast x rfl

end Chain

end Rumble.Lib
