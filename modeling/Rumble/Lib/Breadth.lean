import Mathlib.Data.List.Nodup
import Mathlib.Data.List.Perm.Subperm

/-!
# Breadth-first order

A queue that is extended by the children of each node taken from it. When no node has two parents
and the root none, the walk over a finite list of nodes takes each node once and parents before
their children.
-/

namespace Rumble.Lib

variable {α : Type}

/-- The nodes in the order they leave the queue; `fuel` bounds their number. -/
def walk (children : α → List α) : Nat → List α → List α
  | 0, _ => []
  | _ + 1, [] => []
  | fuel + 1, x :: queue => x :: walk children fuel (queue ++ children x)

/-- A list of nodes in which every child of a node is a node, no node is a child twice and the root
is no child. -/
structure Forest (nodes : List α) (children : α → List α) (root : α) : Prop where
  root_mem : root ∈ nodes
  closed : ∀ x ∈ nodes, ∀ y ∈ children x, y ∈ nodes
  nodup : ∀ x ∈ nodes, (children x).Nodup
  unique : ∀ x ∈ nodes, ∀ x' ∈ nodes, ∀ y, y ∈ children x → y ∈ children x' → x = x'
  root_free : ∀ x ∈ nodes, root ∉ children x

/-- A walk under way: the nodes taken so far and the queue. -/
structure Walking (nodes : List α) (children : α → List α) (root : α) (done queue : List α) :
    Prop where
  nodup : (done ++ queue).Nodup
  subset : ∀ x ∈ done ++ queue, x ∈ nodes
  root_mem : root ∈ done ++ queue
  closed : ∀ x ∈ done, ∀ y ∈ children x, y ∈ done ++ queue
  queued : ∀ y ∈ queue, y = root ∨ ∃ x ∈ done, y ∈ children x
  ordered : ∀ pre y post, done = pre ++ y :: post → y = root ∨ ∃ x ∈ pre, y ∈ children x

variable {nodes : List α} {children : α → List α} {root : α} {done queue : List α}

theorem Forest.start (h : Forest nodes children root) : Walking nodes children root [] [root] where
  nodup := List.nodup_singleton root
  subset := fun x hx => List.mem_singleton.mp hx ▸ h.root_mem
  root_mem := List.mem_singleton.mpr rfl
  closed := fun x hx => absurd hx List.not_mem_nil
  queued := fun y hy => .inl (List.mem_singleton.mp hy)
  ordered := fun pre y post heq => by simp at heq

/-- A node taken so far is the root or has its parent before it. -/
theorem Walking.parent (h : Walking nodes children root done queue) {y : α}
    (hy : y ∈ done ++ queue) : y = root ∨ ∃ x ∈ done, y ∈ children x := by
  rcases List.mem_append.mp hy with hy | hy
  · obtain ⟨pre, post, rfl⟩ := List.append_of_mem hy
    rcases h.ordered pre y post rfl with heq | ⟨x, hx, hyx⟩
    · exact .inl heq
    · exact .inr ⟨x, List.mem_append_left _ hx, hyx⟩
  · exact h.queued y hy

/-- One node leaves the queue. -/
theorem Walking.step (hf : Forest nodes children root) {x : α}
    (h : Walking nodes children root done (x :: queue)) :
    Walking nodes children root (done ++ [x]) (queue ++ children x) := by
  have hx : x ∈ done ++ x :: queue := List.mem_append_right _ List.mem_cons_self
  have hassoc : done ++ [x] ++ (queue ++ children x) = done ++ x :: queue ++ children x := by simp
  have hsub : ∀ y, y ∈ done ++ x :: queue → y ∈ done ++ [x] ++ (queue ++ children x) :=
    fun y hy => hassoc ▸ List.mem_append_left _ hy
  have hxdone : x ∉ done := fun hmem =>
    (List.nodup_append.mp h.nodup).2.2 x hmem x List.mem_cons_self rfl
  refine ⟨?_, ?_, hsub _ h.root_mem, ?_, ?_, ?_⟩
  · rw [hassoc]
    refine List.nodup_append.mpr ⟨h.nodup, hf.nodup x (h.subset x hx), fun y hy z hz heq => ?_⟩
    subst heq
    -- a child that is already there has its parent before `x`
    rcases h.parent hy with rfl | ⟨x', hx', hyx'⟩
    · exact hf.root_free x (h.subset x hx) hz
    · have hsame := hf.unique x (h.subset x hx) x' (h.subset x' (List.mem_append_left _ hx')) y hz hyx'
      exact hxdone (hsame ▸ hx')
  · rw [hassoc]
    intro y hy
    rcases List.mem_append.mp hy with hy | hy
    · exact h.subset y hy
    · exact hf.closed x (h.subset x hx) y hy
  · intro z hz y hy
    rcases List.mem_append.mp hz with hz | hz
    · exact hsub y (h.closed z hz y hy)
    · rw [List.mem_singleton.mp hz] at hy
      exact List.mem_append_right _ (List.mem_append_right _ hy)
  · intro y hy
    rcases List.mem_append.mp hy with hy | hy
    · rcases h.queued y (List.mem_cons_of_mem x hy) with heq | ⟨z, hz, hyz⟩
      · exact .inl heq
      · exact .inr ⟨z, List.mem_append_left _ hz, hyz⟩
    · exact .inr ⟨x, List.mem_append_right _ List.mem_cons_self, hy⟩
  · intro pre y post heq
    rcases List.eq_nil_or_concat post with rfl | ⟨post', z, rfl⟩
    · obtain ⟨rfl, hyx⟩ := List.append_inj' heq rfl
      obtain rfl : x = y := by simpa using hyx
      exact h.queued x List.mem_cons_self
    · have heq : done ++ [x] = (pre ++ y :: post') ++ [z] := by simpa using heq
      obtain ⟨rfl, -⟩ := List.append_inj' heq rfl
      exact h.ordered pre y post' rfl

theorem Walking.length_le (h : Walking nodes children root done queue) :
    (done ++ queue).length ≤ nodes.length :=
  (h.nodup.subperm fun x hx => h.subset x hx).length_le

/-- **The walk ends** once it has had fuel for every node, with nothing left in the queue. -/
theorem Walking.finish (hf : Forest nodes children root) :
    ∀ (fuel : Nat) {done queue : List α}, Walking nodes children root done queue →
      nodes.length ≤ done.length + fuel →
      Walking nodes children root (done ++ walk children fuel queue) []
  | 0, done, queue, h, hfuel => by
    have hlen := h.length_le
    rw [List.length_append] at hlen
    obtain rfl : queue = [] := List.eq_nil_of_length_eq_zero (by omega)
    rwa [walk, List.append_nil]
  | fuel + 1, done, [], h, hfuel => by rwa [walk, List.append_nil]
  | fuel + 1, done, x :: queue, h, hfuel => by
    have hlen : (done ++ [x]).length = done.length + 1 := by simp
    have := Walking.finish hf fuel (h.step hf) (by omega)
    rwa [List.append_assoc] at this

end Rumble.Lib
