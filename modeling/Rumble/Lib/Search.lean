import Mathlib.Data.List.Perm.Subperm
import Mathlib.Logic.Relation
import Rumble.Lib.Keyed

/-!
# Search with a visited set

A queue that is extended by those children of each node taken from it that were not seen before.
Over a graph whose children come from a finite list the search ends, whatever cycles there are, and
has then seen exactly the nodes that are reached from where it started, each once.
-/

namespace Rumble.Lib

open Relation

variable {α : Type} [DecidableEq α]

/-- The nodes of `kids` that were not seen before, each once. -/
def fresh (seen kids : List α) : List α :=
  kids.foldl (fun acc k => if k ∈ seen ++ acc then acc else acc ++ [k]) []

/-- What is seen once the queue is empty, none when the fuel is gone before. -/
def search (children : α → List α) : Nat → List α → List α → Option (List α)
  | _, [], seen => some seen
  | 0, _ :: _, _ => none
  | fuel + 1, x :: queue, seen =>
    search children fuel (queue ++ fresh seen (children x)) (seen ++ fresh seen (children x))

variable {children : α → List α} {seen acc kids queue : List α} {x : α}

/-- The fresh nodes are those that get in behind what was seen. -/
theorem append_foldl_fresh : seen ++
    kids.foldl (fun acc k => if k ∈ seen ++ acc then acc else acc ++ [k]) acc =
      kids.foldl (fun acc k => if k ∈ acc then acc else acc ++ [k]) (seen ++ acc) := by
  induction kids generalizing acc with
  | nil => rfl
  | cons k kids ih =>
    rw [List.foldl_cons, List.foldl_cons, ih]
    split
    · rfl
    · rw [List.append_assoc]

theorem append_fresh (seen kids : List α) : seen ++ fresh seen kids =
    kids.foldl (fun acc k => if k ∈ acc then acc else acc ++ [k]) seen := by
  rw [fresh, append_foldl_fresh, List.append_nil]

theorem mem_append_fresh : x ∈ seen ++ fresh seen kids ↔ x ∈ seen ∨ x ∈ kids := by
  rw [append_fresh]
  exact mem_foldl_pushNew seen

theorem nodup_append_fresh (h : seen.Nodup) (kids : List α) : (seen ++ fresh seen kids).Nodup := by
  rw [append_fresh]
  exact nodup_foldl_pushNew h

theorem fresh_subset (h : seen.Nodup) (hx : x ∈ fresh seen kids) : x ∈ kids := by
  have hdisjoint := (List.nodup_append.mp (nodup_append_fresh h kids)).2.2
  rcases mem_append_fresh.mp (List.mem_append_right seen hx) with hseen | hkids
  · exact absurd rfl (hdisjoint x hseen x hx)
  · exact hkids

/-- More fuel changes nothing. -/
theorem search_mono {fuel fuel' : Nat} (hle : fuel ≤ fuel') {result : List α}
    (h : search children fuel queue seen = some result) :
    search children fuel' queue seen = some result := by
  induction fuel generalizing fuel' queue seen with
  | zero =>
    cases queue with
    | nil => cases fuel' <;> exact h
    | cons => exact nomatch h
  | succ fuel ih =>
    cases queue with
    | nil => cases fuel' <;> exact h
    | cons x queue =>
      obtain ⟨n, rfl⟩ := Nat.exists_eq_add_of_lt hle
      rw [search] at h ⊢
      exact ih (Nat.le_add_right fuel n) h

/-! ## What the search has seen -/

/-- A search from `start` under way. -/
structure Searching (children : α → List α) (start : α) (queue seen : List α) : Prop where
  nodup : seen.Nodup
  start_mem : start ∈ seen
  closed : ∀ x ∈ seen, x ∈ queue ∨ ∀ y ∈ children x, y ∈ seen
  reached : ∀ x ∈ queue ++ seen, ReflTransGen (fun a b => b ∈ children a) start x

omit [DecidableEq α] in
theorem Searching.start (start : α) : Searching children start [start] [start] where
  nodup := List.nodup_singleton start
  start_mem := List.mem_singleton.mpr rfl
  closed := fun _ hx => .inl hx
  reached := fun x hx => by
    obtain rfl : x = start := by simpa using hx
    exact .refl

theorem Searching.step {start : α} (h : Searching children start (x :: queue) seen) :
    Searching children start (queue ++ fresh seen (children x)) (seen ++ fresh seen (children x)) := by
  have hx : ReflTransGen (fun a b => b ∈ children a) start x :=
    h.reached x List.mem_cons_self
  have hfresh : ∀ y ∈ fresh seen (children x),
      ReflTransGen (fun a b => b ∈ children a) start y := fun y hy =>
    hx.tail (fresh_subset h.nodup hy)
  refine ⟨nodup_append_fresh h.nodup _, List.mem_append_left _ h.start_mem, fun y hy => ?_,
    fun y hy => ?_⟩
  · have hkids : ∀ z ∈ children x, z ∈ seen ++ fresh seen (children x) := fun z hz =>
      mem_append_fresh.mpr (.inr hz)
    rcases List.mem_append.mp hy with hy | hy
    · rcases h.closed y hy with hqueue | hclosed
      · rcases List.mem_cons.mp hqueue with rfl | hqueue
        · exact .inr hkids
        · exact .inl (List.mem_append_left _ hqueue)
      · exact .inr fun z hz => List.mem_append_left _ (hclosed z hz)
    · exact .inl (List.mem_append_right _ hy)
  · rcases List.mem_append.mp hy with hy | hy
    · rcases List.mem_append.mp hy with hy | hy
      · exact h.reached y (List.mem_append_left _ (List.mem_cons_of_mem x hy))
      · exact hfresh y hy
    · rcases List.mem_append.mp hy with hy | hy
      · exact h.reached y (List.mem_append_right _ hy)
      · exact hfresh y hy

/-- **The search ends.** `nodes` has the start and every child of a node; each round takes one node
out of the queue, and no node comes in twice. -/
theorem Searching.ends {start : α} {nodes : List α} (hnodes : ∀ a, ∀ b ∈ children a, b ∈ nodes)
    (fuel : Nat) {queue seen : List α} (h : Searching children start queue seen)
    (hsub : seen ⊆ nodes) (hfuel : nodes.length + queue.length ≤ fuel + seen.length) :
    ∃ result, search children fuel queue seen = some result ∧
      Searching children start [] result := by
  induction fuel generalizing queue seen with
  | zero =>
    have hlength := (h.nodup.subperm hsub).length_le
    obtain rfl : queue = [] := List.eq_nil_of_length_eq_zero (by omega)
    exact ⟨seen, rfl, h⟩
  | succ fuel ih =>
    cases queue with
    | nil => exact ⟨seen, rfl, h⟩
    | cons x queue =>
      refine ih h.step (fun y hy => ?_) ?_
      · rcases List.mem_append.mp hy with hy | hy
        · exact hsub hy
        · exact hnodes x y (fresh_subset h.nodup hy)
      · simp only [List.length_append, List.length_cons] at hfuel ⊢
        omega

omit [DecidableEq α] in
/-- Once the queue is empty, what is seen is what is reached. -/
theorem Searching.mem_iff {start : α} (h : Searching children start [] seen) :
    x ∈ seen ↔ ReflTransGen (fun a b => b ∈ children a) start x := by
  refine ⟨fun hx => h.reached x hx, fun hx => ?_⟩
  induction hx with
  | refl => exact h.start_mem
  | tail _ hchild ih =>
    rcases h.closed _ ih with hqueue | hclosed
    · exact absurd hqueue List.not_mem_nil
    · exact hclosed _ hchild

end Rumble.Lib
