import Mathlib.Algebra.Order.BigOperators.Group.List
import Mathlib.Algebra.Order.Group.Nat
import Mathlib.Algebra.GroupWithZero.Nat

/-!
# Fixed windows and sliding intervals

A record whose elements are counted in windows: each has a time, a weight, and the start of the
window it is counted in. Windows are a period long and start at least a period apart. A bound on
every window is twice that bound on every interval of a period, wherever it starts.
-/

namespace Rumble.Lib

variable {α : Type}

/-- The weight of the elements with `p`. -/
def weigh (weight : α → Nat) (p : α → Bool) (l : List α) : Nat := ((l.filter p).map weight).sum

section Weigh

variable {weight : α → Nat} {p q r : α → Bool} {l : List α} {x : α}

@[simp] theorem weigh_nil : weigh weight p [] = 0 := rfl

theorem weigh_cons : weigh weight p (x :: l) = (if p x then weight x else 0) + weigh weight p l := by
  unfold weigh
  by_cases h : p x <;> simp [h]

theorem weigh_eq_zero (h : ∀ x ∈ l, p x = false) : weigh weight p l = 0 := by
  have hnone : l.filter p = [] := List.filter_eq_nil_iff.mpr fun x hx => by simp [h x hx]
  rw [weigh, hnone]
  rfl

theorem le_weigh (hx : x ∈ l) (h : p x = true) : weight x ≤ weigh weight p l :=
  List.le_sum_of_mem (List.mem_map_of_mem (List.mem_filter.mpr ⟨hx, h⟩))

theorem weigh_le_add (h : ∀ x ∈ l, p x = true → q x = true ∨ r x = true) :
    weigh weight p l ≤ weigh weight q l + weigh weight r l := by
  induction l with
  | nil => simp
  | cons x l ih =>
    have hrest := ih fun y hy => h y (List.mem_cons_of_mem _ hy)
    have hx := h x List.mem_cons_self
    simp only [weigh_cons]
    cases hp : p x <;> cases hq : q x <;> cases hr : r x <;> simp_all <;> omega

end Weigh

section Windows

variable {start time weight : α → Nat} {period limit : Nat} {l : List α}

/-- Times lie in their windows, and different windows do not overlap. -/
structure Windowed (start time : α → Nat) (period : Nat) (l : List α) : Prop where
  within : ∀ x ∈ l, start x ≤ time x ∧ time x < start x + period
  apart : ∀ x ∈ l, ∀ y ∈ l, start x = start y ∨ start x + period ≤ start y ∨
    start y + period ≤ start x

theorem windowed_nil : Windowed start time period [] :=
  ⟨fun _ hx => absurd hx List.not_mem_nil, fun _ hx => absurd hx List.not_mem_nil⟩

/-- One more element in front, in the first window or before it. -/
theorem Windowed.cons (h : Windowed start time period l) {x : α}
    (hx : start x ≤ time x ∧ time x < start x + period)
    (hfirst : ∀ y ∈ l, start y = start x ∨ start x + period ≤ start y) :
    Windowed start time period (x :: l) := by
  constructor
  · intro y hy
    rcases List.mem_cons.mp hy with rfl | hy
    · exact hx
    · exact h.within y hy
  · intro y hy z hz
    rcases List.mem_cons.mp hy with rfl | hyl <;> rcases List.mem_cons.mp hz with rfl | hzl
    · exact .inl rfl
    · have hafter := hfirst z hzl
      omega
    · have hafter := hfirst y hyl
      omega
    · exact h.apart y hyl z hzl

/-- An interval of a period does not reach from one window over a second into a third. -/
theorem Windowed.two (h : Windowed start time period l) {x y z : α} (hx : x ∈ l) (hy : y ∈ l)
    (hz : z ∈ l) (s : Nat) (hsx : s ≤ time x ∧ time x ≤ s + period)
    (hsy : s ≤ time y ∧ time y ≤ s + period) (hsz : s ≤ time z ∧ time z ≤ s + period)
    (hxy : start x ≠ start y) : start z = start x ∨ start z = start y := by
  have hwx := h.within x hx
  have hwy := h.within y hy
  have hwz := h.within z hz
  have hapart := h.apart x hx y hy
  have hapart' := h.apart x hx z hz
  have hapart'' := h.apart y hy z hz
  omega

/-- **A bound on every window** is twice that bound on every interval of a period. -/
theorem Windowed.weigh_interval_le (h : Windowed start time period l)
    (hlimit : ∀ a, weigh weight (fun x => start x == a) l ≤ limit) (s : Nat) :
    weigh weight (fun x => decide (s ≤ time x ∧ time x ≤ s + period)) l ≤ 2 * limit := by
  by_cases hpair : ∃ x ∈ l, ∃ y ∈ l, (s ≤ time x ∧ time x ≤ s + period) ∧
      (s ≤ time y ∧ time y ≤ s + period) ∧ start x ≠ start y
  · obtain ⟨x, hx, y, hy, hsx, hsy, hxy⟩ := hpair
    have hcover : weigh weight (fun x => decide (s ≤ time x ∧ time x ≤ s + period)) l ≤
        weigh weight (fun z => start z == start x) l +
          weigh weight (fun z => start z == start y) l := by
      refine weigh_le_add fun z hz hsz => ?_
      simpa using h.two hx hy hz s hsx hsy (by simpa using hsz) hxy
    have hlx := hlimit (start x)
    have hly := hlimit (start y)
    omega
  · push Not at hpair
    by_cases hsome : ∃ x ∈ l, s ≤ time x ∧ time x ≤ s + period
    · obtain ⟨x, hx, hsx⟩ := hsome
      have hcover : weigh weight (fun x => decide (s ≤ time x ∧ time x ≤ s + period)) l ≤
          weigh weight (fun z => start z == start x) l + weigh weight (fun _ => false) l := by
        refine weigh_le_add fun z hz hsz => ?_
        simpa using (hpair x hx z hz hsx (by simpa using hsz)).symm
      rw [weigh_eq_zero (p := fun _ => false) fun _ _ => rfl] at hcover
      have hlx := hlimit (start x)
      omega
    · rw [weigh_eq_zero fun x hx => decide_eq_false fun hsx => hsome ⟨x, hx, hsx⟩]
      exact Nat.zero_le _

end Windows

end Rumble.Lib
