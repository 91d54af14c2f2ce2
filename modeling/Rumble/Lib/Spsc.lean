import Mathlib.Data.List.Basic

/-!
# A queue between two threads

A bounded first-in first-out queue with one producer and one consumer. Each side goes by what it has
last seen of the other: the space that the consumer has freed, the items that the producer has put
in. What a side sees may be late, but it never goes back and never says too much.
-/

namespace Rumble.Lib

variable {α : Type}

/-- The queue with both sides' views: `room` is the free space that the producer knows of, `ready`
the number of items that the consumer knows of. -/
structure Spsc (α : Type) where
  items : List α
  capacity : Nat
  room : Nat
  ready : Nat
  room_le : items.length + room ≤ capacity
  ready_le : ready ≤ items.length

namespace Spsc

/-- The empty queue. -/
def new (capacity : Nat) : Spsc α where
  items := []
  capacity := capacity
  room := capacity
  ready := 0
  room_le := by simp
  ready_le := Nat.le_refl 0

/-- The producer's load may answer this much free space. -/
def SeesRoom (q : Spsc α) (n : Nat) : Prop := q.room ≤ n ∧ q.items.length + n ≤ q.capacity

/-- The consumer's load may answer this many items. -/
def SeesReady (q : Spsc α) (n : Nat) : Prop := q.ready ≤ n ∧ n ≤ q.items.length

def seeRoom (q : Spsc α) (n : Nat) (h : q.SeesRoom n) : Spsc α :=
  { q with room := n, room_le := h.2 }

def seeReady (q : Spsc α) (n : Nat) (h : q.SeesReady n) : Spsc α :=
  { q with ready := n, ready_le := h.2 }

/-- Put items in, as two consecutive pieces, when the producer knows of space for them. -/
def write (q : Spsc α) (first second : List α) : Spsc α :=
  if h : first.length + second.length ≤ q.room then
    { q with
      items := q.items ++ (first ++ second)
      room := q.room - (first.length + second.length)
      room_le := by
        have := q.room_le
        simp only [List.length_append]
        omega
      ready_le := by
        have := q.ready_le
        simp only [List.length_append]
        omega }
  else q

/-- The oldest `n` items, when the consumer knows of so many. -/
def read (q : Spsc α) (n : Nat) : Option (List α) :=
  if n ≤ q.ready then some (q.items.take n) else none

/-- Take the oldest `n` items out. -/
def drop (q : Spsc α) (n : Nat) : Spsc α where
  items := q.items.drop n
  capacity := q.capacity
  room := q.room
  ready := q.ready - n
  room_le := by
    have := q.room_le
    simp only [List.length_drop]
    omega
  ready_le := by
    have := q.ready_le
    simp only [List.length_drop]
    omega

variable {q : Spsc α} {n : Nat}

@[simp] theorem items_seeRoom (h : q.SeesRoom n) : (q.seeRoom n h).items = q.items := rfl

@[simp] theorem capacity_seeRoom (h : q.SeesRoom n) :
    (q.seeRoom n h).capacity = q.capacity := rfl

@[simp] theorem room_seeRoom (h : q.SeesRoom n) : (q.seeRoom n h).room = n := rfl

@[simp] theorem items_seeReady (h : q.SeesReady n) : (q.seeReady n h).items = q.items := rfl

@[simp] theorem room_seeReady (h : q.SeesReady n) : (q.seeReady n h).room = q.room := rfl

@[simp] theorem items_drop : (q.drop n).items = q.items.drop n := rfl

@[simp] theorem room_drop : (q.drop n).room = q.room := rfl

@[simp] theorem capacity_write {first second : List α} :
    (q.write first second).capacity = q.capacity := by
  unfold write
  split <;> rfl

theorem items_write {first second : List α} (h : first.length + second.length ≤ q.room) :
    (q.write first second).items = q.items ++ (first ++ second) := by
  unfold write
  rw [dif_pos h]

theorem read_eq (h : n ≤ q.ready) : q.read n = some (q.items.take n) := if_pos h

/-- A load that answers what there is. -/
theorem seesRoom_exact : q.SeesRoom (q.capacity - q.items.length) := by
  have := q.room_le
  exact ⟨by omega, by omega⟩

end Spsc

end Rumble.Lib
