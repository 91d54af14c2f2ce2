import Mathlib.Data.List.Basic

/-!
# Cutting a stream into blocks

A stream arrives in pieces of any length and is worked on in blocks of one length. `blocks` are the
full blocks of what has arrived and `leftover` is what waits for more. `blocks_append` and
`leftover_append` say that only the leftover of what came before matters for the next piece: the
blocks of a stream do not depend on its pieces.
-/

namespace Rumble.Lib

variable {α : Type}

/-- The full blocks of `n` at the front of a list. -/
def blocks (n : Nat) (l : List α) : List (List α) :=
  if 0 < n ∧ n ≤ l.length then l.take n :: blocks n (l.drop n) else []
termination_by l.length
decreasing_by
  rw [List.length_drop]
  omega

/-- What is left behind the full blocks. -/
def leftover (n : Nat) (l : List α) : List α :=
  if 0 < n ∧ n ≤ l.length then leftover n (l.drop n) else l
termination_by l.length
decreasing_by
  rw [List.length_drop]
  omega

section Cut

variable {n : Nat} {l m : List α}

theorem blocks_of_lt (h : l.length < n) : blocks n l = [] := by
  rw [blocks, if_neg (by omega)]

theorem leftover_of_lt (h : l.length < n) : leftover n l = l := by
  rw [leftover, if_neg (by omega)]

theorem blocks_of_le (hn : 0 < n) (h : n ≤ l.length) :
    blocks n l = l.take n :: blocks n (l.drop n) := by
  rw [blocks, if_pos ⟨hn, h⟩]

theorem leftover_of_le (hn : 0 < n) (h : n ≤ l.length) :
    leftover n l = leftover n (l.drop n) := by
  rw [leftover, if_pos ⟨hn, h⟩]

@[simp] theorem blocks_nil : blocks n ([] : List α) = [] := by
  rw [blocks, if_neg fun h => Nat.not_lt.mpr h.2 h.1]

@[simp] theorem leftover_nil : leftover n ([] : List α) = [] := by
  rw [leftover, if_neg fun h => Nat.not_lt.mpr h.2 h.1]

theorem length_leftover_lt (hn : 0 < n) : (leftover n l).length < n := by
  fun_induction leftover n l with
  | case1 l h ih => exact ih
  | case2 l h => omega

theorem length_blocks_add (hn : 0 < n) (l : List α) :
    n * (blocks n l).length + (leftover n l).length = l.length := by
  fun_induction blocks n l with
  | case1 l h ih =>
    rw [leftover_of_le hn h.2, List.length_cons, Nat.mul_succ]
    rw [List.length_drop] at ih
    omega
  | case2 l h =>
    rw [leftover_of_lt (by omega), List.length_nil]
    omega

/-- Nothing is left exactly when the length is a multiple of the block. -/
theorem leftover_eq_nil_iff (hn : 0 < n) : leftover n l = [] ↔ n ∣ l.length := by
  have hlen := length_blocks_add hn l
  have hlt := length_leftover_lt (l := l) hn
  constructor
  · intro h
    rw [h] at hlen
    exact ⟨(blocks n l).length, hlen.symm⟩
  · rintro ⟨k, hk⟩
    refine List.length_eq_zero_iff.mp ?_
    have hmod : (leftover n l).length % n = 0 := by
      have hadd : (n * (blocks n l).length + (leftover n l).length) % n = (n * k) % n := by
        rw [hlen, hk]
      rwa [Nat.mul_add_mod, Nat.mul_mod_right] at hadd
    rwa [Nat.mod_eq_of_lt hlt] at hmod

/-- The next piece meets only what was left. -/
theorem blocks_append (n : Nat) (l m : List α) :
    blocks n (l ++ m) = blocks n l ++ blocks n (leftover n l ++ m) := by
  fun_induction blocks n l with
  | case1 l h ih =>
    have hle : n ≤ (l ++ m).length := by
      rw [List.length_append]
      omega
    rw [blocks_of_le h.1 hle, List.take_append_of_le_length h.2, List.drop_append_of_le_length h.2,
      ih, leftover_of_le h.1 h.2]
    rfl
  | case2 l h => rw [leftover, if_neg h, List.nil_append]

theorem leftover_append (n : Nat) (l m : List α) :
    leftover n (l ++ m) = leftover n (leftover n l ++ m) := by
  fun_induction leftover n l with
  | case1 l h ih =>
    have hle : n ≤ (l ++ m).length := by
      rw [List.length_append]
      omega
    rw [leftover_of_le h.1 hle, List.drop_append_of_le_length h.2, ih]
  | case2 l h => rfl

end Cut

end Rumble.Lib
