import Mathlib.Data.List.Count
import Mathlib.Data.List.Perm.Basic

/-!
# Counted references

A heap of cells that are shared by reference counting, as with `Arc`: a clone counts one more, a
drop one less, and a cell is freed when its last reference goes. `Counted h refs` says that the
counts are the references there are, given as a list. Whoever finds a count of one owns the only
reference, so a write in place is seen by nobody else.
-/

namespace Rumble.Lib

/-- A shared cell. -/
structure ArcCell (α : Type) where
  value : α
  strong : Nat
  deriving DecidableEq

/-- The cells by address; addresses are given out in order. -/
structure ArcHeap (α : Type) where
  cells : Nat → Option (ArcCell α)
  next : Nat

namespace ArcHeap

variable {α : Type}

def empty : ArcHeap α := ⟨fun _ => none, 0⟩

/-- `Arc::strong_count` -/
def strong (h : ArcHeap α) (a : Nat) : Nat := ((h.cells a).map ArcCell.strong).getD 0

/-- What is behind a reference, when it is not dangling. -/
def read (h : ArcHeap α) (a : Nat) : Option α := (h.cells a).map ArcCell.value

/-- The cells that are not freed. -/
def liveCells (h : ArcHeap α) : List Nat := (List.range h.next).filter fun a => (h.cells a).isSome

def put (h : ArcHeap α) (a : Nat) (c : Option (ArcCell α)) : ArcHeap α :=
  { h with cells := fun b => if b = a then c else h.cells b }

/-- `Arc::new`: the new reference is `h.next`. -/
def alloc (h : ArcHeap α) (value : α) : ArcHeap α :=
  { h.put h.next (some ⟨value, 1⟩) with next := h.next + 1 }

/-- `Arc::clone` -/
def clone (h : ArcHeap α) (a : Nat) : ArcHeap α :=
  h.put a ((h.cells a).map fun c => { c with strong := c.strong + 1 })

/-- `drop` of a reference. -/
def release (h : ArcHeap α) (a : Nat) : ArcHeap α :=
  h.put a ((h.cells a).bind fun c => if c.strong ≤ 1 then none else some ⟨c.value, c.strong - 1⟩)

/-- A write through `Arc::get_mut`. -/
def write (h : ArcHeap α) (a : Nat) (value : α) : ArcHeap α :=
  h.put a ((h.cells a).map fun c => { c with value := value })

/-! ## What the operations do to a cell -/

section Cells

variable (h : ArcHeap α) {a b : Nat}

@[simp] theorem cells_put_self (c : Option (ArcCell α)) : (h.put a c).cells a = c := if_pos rfl

theorem cells_put_ne (c : Option (ArcCell α)) (hb : b ≠ a) : (h.put a c).cells b = h.cells b :=
  if_neg hb

theorem strong_put_ne (c : Option (ArcCell α)) (hb : b ≠ a) :
    (h.put a c).strong b = h.strong b := by
  rw [strong, cells_put_ne h c hb, strong]

theorem read_put_ne (c : Option (ArcCell α)) (hb : b ≠ a) : (h.put a c).read b = h.read b := by
  rw [read, cells_put_ne h c hb, read]

theorem read_clone (b : Nat) : (h.clone a).read b = h.read b := by
  by_cases hb : b = a
  · subst hb
    unfold clone read
    rw [cells_put_self]
    cases h.cells b <;> rfl
  · exact read_put_ne h _ hb

theorem read_alloc_self (value : α) : (h.alloc value).read h.next = some value := by
  have hself : (h.alloc value).cells h.next = some ⟨value, 1⟩ := if_pos rfl
  rw [read, hself]
  rfl

theorem strong_write (value : α) (b : Nat) : (h.write a value).strong b = h.strong b := by
  by_cases hb : b = a
  · subst hb
    unfold write strong
    rw [cells_put_self]
    cases h.cells b <;> rfl
  · exact strong_put_ne h _ hb

theorem read_write_self (value : α) (ha : (h.cells a).isSome = true) :
    (h.write a value).read a = some value := by
  obtain ⟨c, hc⟩ := Option.isSome_iff_exists.mp ha
  unfold write read
  rw [cells_put_self, hc]
  rfl

theorem read_write_ne (value : α) (hb : b ≠ a) : (h.write a value).read b = h.read b :=
  read_put_ne h _ hb

theorem strong_release : (h.release a).strong a = h.strong a - 1 := by
  unfold release strong
  rw [cells_put_self]
  cases h.cells a with
  | none => rfl
  | some c =>
    show Option.getD (Option.map ArcCell.strong (if c.strong ≤ 1 then none else _)) 0 = c.strong - 1
    split
    · show 0 = _
      omega
    · rfl

/-- A cell that is still counted keeps its value. -/
theorem read_release (hb : 0 < (h.release a).strong b) : (h.release a).read b = h.read b := by
  by_cases hab : b = a
  · subst hab
    unfold release strong read at *
    rw [cells_put_self] at *
    cases hc : h.cells b with
    | none => rfl
    | some c =>
      rw [hc] at hb
      by_cases hone : c.strong ≤ 1
      · simp [hone] at hb
      · simp [hone]
  · exact read_put_ne h _ hab

end Cells

/-! ## Counts and references -/

/-- The counts are the references; a cell lives while it is counted. -/
structure Counted (h : ArcHeap α) (refs : List Nat) : Prop where
  count : ∀ a, h.strong a = refs.count a
  live : ∀ a, (h.cells a).isSome = true ↔ 0 < h.strong a
  fresh : ∀ a, h.next ≤ a → h.cells a = none

namespace Counted

variable {h : ArcHeap α} {refs refs' : List Nat} {a b : Nat}

theorem empty : (ArcHeap.empty : ArcHeap α).Counted [] :=
  ⟨fun _ => rfl, fun _ => ⟨fun ha => Bool.noConfusion ha, fun ha => absurd ha (Nat.lt_irrefl 0)⟩,
    fun _ _ => rfl⟩

theorem perm (hc : h.Counted refs) (hp : refs.Perm refs') : h.Counted refs' :=
  ⟨fun a => (hc.count a).trans (hp.count_eq a), hc.live, hc.fresh⟩

theorem isSome_of_mem (hc : h.Counted refs) (ha : a ∈ refs) : (h.cells a).isSome = true := by
  rw [hc.live, hc.count]
  exact List.count_pos_iff.mpr ha

theorem lt_next (hc : h.Counted refs) (ha : a ∈ refs) : a < h.next := by
  by_contra hge
  have hsome := hc.isSome_of_mem ha
  rw [hc.fresh a (by omega)] at hsome
  exact Bool.noConfusion hsome

/-- **A count of one is exclusive.** -/
theorem not_mem_of_unique (hc : h.Counted (a :: refs)) (hone : h.strong a = 1) : a ∉ refs := by
  have hcount := hc.count a
  rw [hone, List.count_cons_self] at hcount
  exact List.count_eq_zero.mp (by omega)

theorem alloc (hc : h.Counted refs) (value : α) : (h.alloc value).Counted (h.next :: refs) := by
  have hnew : h.next ∉ refs := fun hmem => absurd (hc.lt_next hmem) (Nat.lt_irrefl _)
  have hself : (h.alloc value).cells h.next = some ⟨value, 1⟩ := if_pos rfl
  refine ⟨fun a => ?_, fun a => ?_, fun a ha => ?_⟩
  · by_cases ha : a = h.next
    · subst ha
      rw [strong, hself, List.count_cons_self, List.count_eq_zero.mpr hnew]
      rfl
    · rw [List.count_cons_of_ne (Ne.symm ha), ← hc.count]
      exact strong_put_ne h _ ha
  · by_cases ha : a = h.next
    · subst ha
      rw [strong, hself]
      exact ⟨fun _ => Nat.zero_lt_one, fun _ => rfl⟩
    · have hcells : (h.alloc value).cells a = h.cells a := cells_put_ne h _ ha
      rw [strong, hcells]
      exact hc.live a
  · have ha' : h.next + 1 ≤ a := ha
    have hcells : (h.alloc value).cells a = h.cells a := cells_put_ne h _ (by omega)
    rw [hcells]
    exact hc.fresh a (by omega)

theorem clone (hc : h.Counted refs) (ha : a ∈ refs) : (h.clone a).Counted (a :: refs) := by
  obtain ⟨c, hcell⟩ := Option.isSome_iff_exists.mp (hc.isSome_of_mem ha)
  have hself : (h.clone a).cells a = some { c with strong := c.strong + 1 } := by
    rw [ArcHeap.clone, cells_put_self, hcell]
    rfl
  have hstrong : h.strong a = c.strong := by
    rw [strong, hcell]
    rfl
  refine ⟨fun b => ?_, fun b => ?_, fun b hb => ?_⟩
  · by_cases hb : b = a
    · subst hb
      rw [strong, hself, List.count_cons_self, ← hc.count, hstrong]
      rfl
    · rw [List.count_cons_of_ne (Ne.symm hb), ← hc.count]
      exact strong_put_ne h _ hb
  · by_cases hb : b = a
    · subst hb
      rw [strong, hself]
      exact ⟨fun _ => Nat.zero_lt_succ _, fun _ => rfl⟩
    · have hcells : (h.clone a).cells b = h.cells b := cells_put_ne h _ hb
      rw [strong, hcells]
      exact hc.live b
  · have hb' : h.next ≤ b := hb
    have hlt := hc.lt_next ha
    have hcells : (h.clone a).cells b = h.cells b := cells_put_ne h _ (by omega)
    rw [hcells]
    exact hc.fresh b hb'

theorem release (hc : h.Counted (a :: refs)) : (h.release a).Counted refs := by
  have hlt := hc.lt_next List.mem_cons_self
  refine ⟨fun b => ?_, fun b => ?_, fun b hb => ?_⟩
  · by_cases hb : b = a
    · subst hb
      rw [strong_release, hc.count, List.count_cons_self]
      rfl
    · rw [← List.count_cons_of_ne (Ne.symm hb), ← hc.count]
      exact strong_put_ne h _ hb
  · by_cases hb : b = a
    · subst hb
      unfold ArcHeap.release strong
      rw [cells_put_self]
      cases h.cells b with
      | none => simp
      | some c =>
        by_cases hone : c.strong ≤ 1
        · simp [hone]
        · simp only [Option.bind_some, if_neg hone, Option.isSome_some, Option.map_some,
            Option.getD_some, true_iff]
          omega
    · have hcells : (h.release a).cells b = h.cells b := cells_put_ne h _ hb
      rw [strong, hcells]
      exact hc.live b
  · have hb' : h.next ≤ b := hb
    have hcells : (h.release a).cells b = h.cells b := cells_put_ne h _ (by omega)
    rw [hcells]
    exact hc.fresh b hb'

theorem write (hc : h.Counted refs) (ha : a ∈ refs) (value : α) :
    (h.write a value).Counted refs := by
  have hlt := hc.lt_next ha
  refine ⟨fun b => (strong_write h value b).trans (hc.count b), fun b => ?_, fun b hb => ?_⟩
  · rw [strong_write, ← hc.live]
    by_cases hb : b = a
    · subst hb
      rw [ArcHeap.write, cells_put_self, Option.isSome_map]
    · rw [ArcHeap.write, cells_put_ne h _ hb]
  · have hb' : h.next ≤ b := hb
    rw [ArcHeap.write, cells_put_ne h _ (by omega)]
    exact hc.fresh b hb'

/-- Other references still read what they read. -/
theorem read_release_of_mem (hc : h.Counted (a :: refs)) (hb : b ∈ refs) :
    (h.release a).read b = h.read b := by
  refine read_release h ?_
  rw [hc.release.count]
  exact List.count_pos_iff.mpr hb

/-- There are no more cells than references. -/
theorem length_liveCells_le (hc : h.Counted refs) : h.liveCells.length ≤ refs.length := by
  have hnodup : h.liveCells.Nodup := List.nodup_range.filter _
  refine List.Nodup.length_le_of_subset hnodup fun a ha => ?_
  have hlive := (hc.live a).mp (List.mem_filter.mp ha).2
  rw [hc.count] at hlive
  exact List.count_pos_iff.mp hlive

theorem read_alloc_of_mem (hc : h.Counted refs) (value : α) (hb : b ∈ refs) :
    (h.alloc value).read b = h.read b :=
  read_put_ne h _ (Nat.ne_of_lt (hc.lt_next hb))

end Counted

end ArcHeap

end Rumble.Lib
