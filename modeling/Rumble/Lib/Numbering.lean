import Mathlib.Data.List.Induction
import Mathlib.Logic.Function.Iterate
import Rumble.Lib.Table

/-!
# Numbering by key

A log of items, each under a key, and of resets of keys. `since k log` are the items of `k` after
its last reset. A table of counters numbers the items: the next item of a key gets the number after
the key's counter, and a reset drops the counter.
-/

namespace Rumble.Lib

variable {κ α γ : Type}

inductive Mark (κ α : Type) where
  | item (k : κ) (a : α)
  | reset (k : κ)
  deriving DecidableEq

/-- Every item of a log has a property. -/
def AllItems (P : α → Prop) (log : List (Mark κ α)) : Prop := ∀ k a, Mark.item k a ∈ log → P a

namespace AllItems

variable {P : α → Prop} {log : List (Mark κ α)}

theorem nil : AllItems P ([] : List (Mark κ α)) := fun _ _ h => absurd h List.not_mem_nil

theorem item (h : AllItems P log) {k : κ} {a : α} (ha : P a) :
    AllItems P (log ++ [.item k a]) := by
  intro k' a' h'
  rcases List.mem_append.mp h' with h' | h'
  · exact h k' a' h'
  · cases List.mem_singleton.mp h'
    exact ha

theorem reset (h : AllItems P log) (k : κ) : AllItems P (log ++ [.reset k]) := by
  intro k' a' h'
  rcases List.mem_append.mp h' with h' | h'
  · exact h k' a' h'
  · cases List.mem_singleton.mp h'

end AllItems

section Keys

variable [DecidableEq κ]

/-- The items of a key after one more mark. -/
def Mark.after (k : κ) (items : List α) : Mark κ α → List α
  | .item k' a => if k' = k then items ++ [a] else items
  | .reset k' => if k' = k then [] else items

/-- The items of a key after its last reset. -/
def since (k : κ) (log : List (Mark κ α)) : List α := log.foldl (Mark.after k) []

theorem since_concat (k : κ) (log : List (Mark κ α)) (m : Mark κ α) :
    since k (log ++ [m]) = m.after k (since k log) := by
  rw [since, List.foldl_append]
  rfl

/-- A reset takes items away. -/
theorem since_reset (k k' : κ) (log : List (Mark κ α)) :
    (since k (log ++ [.reset k'])).Sublist (since k log) := by
  rw [since_concat, Mark.after]
  split
  · exact List.nil_sublist _
  · exact .refl _

theorem since_item (k k' : κ) (log : List (Mark κ α)) (a : α) :
    since k (log ++ [.item k' a]) = since k log ++ if k' = k then [a] else [] := by
  rw [since_concat, Mark.after]
  split
  · rfl
  · rw [List.append_nil]

/-- The items of every key are numbered from `zero` on, and its counter is the last number. -/
structure Numbered (next : γ → γ) (zero : γ) (number : α → γ) (counters : Table κ γ)
    (log : List (Mark κ α)) : Prop where
  numbers : ∀ k i a, (since k log)[i]? = some a → number a = next^[i + 1] zero
  counter : ∀ k, (counters.get k).getD zero = next^[(since k log).length] zero

namespace Numbered

variable {next : γ → γ} {zero : γ} {number : α → γ} {counters : Table κ γ}
  {log : List (Mark κ α)}

theorem nil : Numbered next zero number (∅ : Table κ γ) [] where
  numbers _ _ _ h := by cases h
  counter k := by
    rw [Table.get_empty]
    rfl

theorem item (h : Numbered next zero number counters log) {k : κ} {a : α} {n : γ}
    (hn : n = next ((counters.get k).getD zero)) (ha : number a = n) :
    Numbered next zero number (counters.set k n) (log ++ [.item k a]) where
  numbers k' i a' h' := by
    rw [since_concat, Mark.after] at h'
    split at h'
    · rename_i hk
      subst hk
      obtain hlt | hge := Nat.lt_or_ge i (since k log).length
      · rw [List.getElem?_append_left hlt] at h'
        exact h.numbers k i a' h'
      · rw [List.getElem?_append_right hge] at h'
        obtain ⟨hi, rfl⟩ : i - (since k log).length = 0 ∧ a = a' := by
          cases hd : i - (since k log).length with
          | zero =>
            rw [hd] at h'
            exact ⟨rfl, Option.some.inj h'⟩
          | succ d =>
            rw [hd] at h'
            cases h'
        obtain rfl : i = (since k log).length := by omega
        rw [ha, hn, h.counter k, Function.iterate_succ_apply']
    · exact h.numbers k' i a' h'
  counter k' := by
    rw [since_concat, Mark.after]
    split
    · rename_i hk
      subst hk
      rw [Table.get_set_self, Option.getD_some, hn, h.counter k, List.length_append,
        List.length_singleton, Function.iterate_succ_apply']
    · rename_i hk
      rw [Table.get_set_ne (Ne.symm hk)]
      exact h.counter k'

theorem reset (h : Numbered next zero number counters log) (k : κ) :
    Numbered next zero number (counters.del k) (log ++ [.reset k]) where
  numbers k' i a h' := by
    rw [since_concat, Mark.after] at h'
    split at h'
    · cases h'
    · exact h.numbers k' i a h'
  counter k' := by
    rw [since_concat, Mark.after]
    split
    · rename_i hk
      subst hk
      rw [Table.get_del_self]
      rfl
    · rename_i hk
      rw [Table.get_del_ne (Ne.symm hk)]
      exact h.counter k'

end Numbered

namespace AllItems

theorem of_mem_since {P : α → Prop} {log : List (Mark κ α)} (h : AllItems P log) {k : κ} :
    ∀ a ∈ since k log, P a := by
  induction log using List.reverseRecOn with
  | nil => exact fun a ha => absurd ha List.not_mem_nil
  | append_singleton log m ih =>
    have hlog := ih fun k a ha => h k a (List.mem_append_left _ ha)
    intro a ha
    rw [since_concat] at ha
    cases m with
    | item k' a' =>
      rw [Mark.after] at ha
      split at ha
      · rcases List.mem_append.mp ha with ha | ha
        · exact hlog a ha
        · obtain rfl := List.mem_singleton.mp ha
          exact h k' a (List.mem_append_right _ List.mem_cons_self)
      · exact hlog a ha
    | reset k' =>
      rw [Mark.after] at ha
      split at ha
      · exact absurd ha List.not_mem_nil
      · exact hlog a ha

end AllItems

end Keys

end Rumble.Lib
