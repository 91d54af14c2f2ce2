import Mathlib.Data.List.DropRight
import Mathlib.Data.List.OfFn
import Mathlib.Data.Nat.ModEq

/-!
# Ring buffers

A ring of slots that are allocated once, the slot of the oldest item and the number of items. What
the ring holds is read off as a list, oldest first: a push appends to that list and keeps as much of
its end as there are slots.
-/

namespace Rumble.Lib

/-! ## The end of a list -/

section End

variable {α β : Type} (l : List α) (n : Nat)

theorem rtake_suffix : l.rtake n <:+ l := List.drop_suffix _ _

theorem map_rtake (f : α → β) : (l.rtake n).map f = (l.map f).rtake n := by
  rw [List.rtake, List.rtake, List.length_map, List.map_drop]

theorem getLast?_rtake (h : 0 < n) : (l.rtake n).getLast? = l.getLast? := by
  rw [List.rtake, List.getLast?_drop]
  split
  · have hlen : l.length = 0 := by omega
    rw [List.length_eq_zero_iff.mp hlen]
    rfl
  · rfl

theorem rtake_rtake_succ : (l.rtake (n + 1)).rtake n = l.rtake n := by
  unfold List.rtake
  rw [List.drop_drop, List.length_drop]
  congr 1
  omega

/-- Only the end of a list matters for the end of a longer one. -/
theorem rtake_concat_rtake (x : α) : (l.rtake n ++ [x]).rtake n = (l ++ [x]).rtake n := by
  cases n with
  | zero => simp
  | succ n => rw [List.rtake_concat_succ, List.rtake_concat_succ, rtake_rtake_succ]

end End

/-! ## Rings -/

structure RingBuffer (α : Type) where
  slots : List α
  head : Nat
  len : Nat
  len_le : len ≤ slots.length
  head_lt : 0 < slots.length → head < slots.length

namespace RingBuffer

variable {α : Type}

/-- No items. -/
def new (slots : List α) : RingBuffer α where
  slots := slots
  head := 0
  len := 0
  len_le := Nat.zero_le _
  head_lt := id

variable (r : RingBuffer α)

def capacity : Nat := r.slots.length

/-- The slot `i` places after the oldest. -/
def slot (i : Nat) : Nat := (r.head + i) % r.slots.length

theorem slot_lt {i : Nat} (h : i < r.capacity) : r.slot i < r.slots.length :=
  Nat.mod_lt _ (Nat.zero_lt_of_lt h)

/-- What the ring holds, oldest first. -/
def items : List α :=
  List.ofFn fun i : Fin r.len => r.slots.get ⟨r.slot i, r.slot_lt (Nat.lt_of_lt_of_le i.isLt r.len_le)⟩

def newest : Option α := if 0 < r.len then r.slots[(r.head + r.len - 1) % r.slots.length]? else none

def clear : RingBuffer α := { r with len := 0, len_le := Nat.zero_le _ }

/-- Let go of the oldest item when the ring is full. -/
def evict : RingBuffer α :=
  if r.len = r.capacity then
    { r with
      head := (r.head + 1) % r.slots.length
      len := r.len - 1
      len_le := (Nat.sub_le _ _).trans r.len_le
      head_lt := Nat.mod_lt _ }
  else r

/-- Write the slot after the newest item. -/
def write (x : α) (h : r.len < r.capacity) : RingBuffer α where
  slots := r.slots.set ((r.head + r.len) % r.slots.length) x
  head := r.head
  len := r.len + 1
  len_le := by
    rw [List.length_set]
    exact h
  head_lt := by
    rw [List.length_set]
    exact r.head_lt

@[simp] theorem capacity_clear : r.clear.capacity = r.capacity := rfl

@[simp] theorem capacity_evict : r.evict.capacity = r.capacity := by
  unfold evict
  split <;> rfl

theorem len_evict_lt (h : 0 < r.capacity) : r.evict.len < r.evict.capacity := by
  rw [capacity_evict]
  have hle : r.len ≤ r.capacity := r.len_le
  unfold evict
  split
  · show r.len - 1 < r.capacity
    omega
  · omega

/-- The newest item in, the oldest out if need be. -/
def push (x : α) (h : 0 < r.capacity) : RingBuffer α := r.evict.write x (r.len_evict_lt h)

@[simp] theorem capacity_push (x : α) (h : 0 < r.capacity) : (r.push x h).capacity = r.capacity := by
  show (r.evict.slots.set _ x).length = r.capacity
  rw [List.length_set]
  exact r.capacity_evict

/-! ## The list -/

@[simp] theorem length_items : r.items.length = r.len := List.length_ofFn

theorem getElem?_items (i : Nat) :
    r.items[i]? = if i < r.len then r.slots[r.slot i]? else none := by
  split
  · rename_i hi
    have hslot := r.slot_lt (Nat.lt_of_lt_of_le hi r.len_le)
    rw [items, List.getElem?_ofFn, dif_pos hi, List.getElem?_eq_getElem hslot]
    rfl
  · rename_i hi
    rw [List.getElem?_eq_none (by rw [length_items]; omega)]

@[simp] theorem items_new (slots : List α) : (new slots).items = [] := rfl

@[simp] theorem items_clear : r.clear.items = [] := rfl

theorem newest_eq : r.newest = r.items.getLast? := by
  rw [newest, List.getLast?_eq_getElem?, length_items, getElem?_items]
  by_cases hpos : 0 < r.len
  · rw [if_pos hpos, if_pos (by omega), slot, Nat.add_sub_assoc hpos]
  · rw [if_neg hpos, if_neg (by omega)]

/-- Slots of different places are different. -/
theorem slot_ne {i j : Nat} (hi : i < r.capacity) (hj : j < r.capacity) (h : i ≠ j) :
    r.slot i ≠ r.slot j := by
  intro heq
  have hmod : Nat.ModEq r.slots.length i j := Nat.ModEq.add_left_cancel' r.head heq
  exact h (hmod.eq_of_lt_of_lt hi hj)

theorem items_write (x : α) (h : r.len < r.capacity) : (r.write x h).items = r.items ++ [x] := by
  have hwritten : ∀ i, (r.write x h).slots[(r.write x h).slot i]? =
      if r.slot r.len = r.slot i then some x else r.slots[r.slot i]? := by
    intro i
    have hslot : (r.write x h).slot i = r.slot i := by simp [slot, write]
    rw [hslot]
    show (r.slots.set (r.slot r.len) x)[r.slot i]? = _
    rw [List.getElem?_set, if_pos (r.slot_lt h)]
  refine List.ext_getElem? fun i => ?_
  rw [getElem?_items, hwritten, List.getElem?_append, length_items, getElem?_items]
  show (if i < r.len + 1 then _ else _) = _
  rcases Nat.lt_trichotomy i r.len with hi | rfl | hi
  · have hne := r.slot_ne h (hi.trans h) hi.ne'
    rw [if_pos (by omega), if_neg hne, if_pos hi, if_pos hi]
  · rw [if_pos (Nat.lt_succ_self _), if_pos rfl, if_neg (Nat.lt_irrefl _), Nat.sub_self]
    rfl
  · rw [if_neg (by omega), if_neg (by omega), List.getElem?_eq_none]
    simp only [List.length_singleton]
    omega

theorem items_evict : r.evict.items = r.items.rtake (r.capacity - 1) := by
  have hle : r.len ≤ r.capacity := r.len_le
  by_cases hfull : r.len = r.capacity
  · have hevict : r.evict.len = r.len - 1 ∧ r.evict.slots = r.slots ∧
        ∀ i, r.evict.slot i = r.slot (1 + i) := by
      simp [evict, hfull, slot, Nat.add_assoc]
    obtain ⟨hlen, hslots, hslot⟩ := hevict
    refine List.ext_getElem? fun i => ?_
    rw [List.rtake, length_items, List.getElem?_drop, getElem?_items, getElem?_items, hlen, hslots,
      hslot]
    by_cases hi : 1 + i < r.len
    · rw [if_pos (by omega), if_pos (by omega), show r.len - (r.capacity - 1) = 1 by omega]
    · rw [if_neg (by omega), if_neg (by omega)]
  · have hsame : r.evict = r := if_neg hfull
    rw [hsame, List.rtake, length_items, Nat.sub_eq_zero_of_le (by omega), List.drop_zero]

/-- **A push keeps the end of the list.** -/
theorem items_push (x : α) (h : 0 < r.capacity) :
    (r.push x h).items = (r.items ++ [x]).rtake r.capacity := by
  rw [push, items_write, items_evict, ← List.rtake_concat_succ, Nat.sub_add_cancel h]

end RingBuffer

end Rumble.Lib
