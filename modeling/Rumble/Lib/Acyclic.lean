import Mathlib.Data.List.Chain
import Mathlib.Data.List.Nodup
import Mathlib.Data.List.Perm.Subperm
import Mathlib.Logic.Relation
import Rumble.Lib.Rooted

/-!
# Finite relations without a cycle

A chain of a relation without a cycle has distinct elements, so over finitely many targets it is no
longer than these are many. Following a partial function upwards then ends by itself (`follow_full`),
and what holds of an element when it holds of all below it holds everywhere, with a bound on the depth
(`Acyclic.descend`). Where each element has one parent, what lies below two siblings is disjoint
(`Acyclic.eq_of_below`).
-/

namespace Rumble.Lib

open Relation

variable {α : Type} {R : α → α → Prop}

/-- No element reaches itself. -/
def Acyclic (R : α → α → Prop) : Prop := ∀ a, ¬ TransGen R a a

theorem Acyclic.nodup (h : Acyclic R) {l : List α} (hl : l.IsChain R) : l.Nodup := by
  have htrans : l.IsChain (TransGen R) := hl.imp fun _ _ => .single
  refine (List.isChain_iff_pairwise.mp htrans).imp ?_
  rintro a _ hab rfl
  exact h a hab

/-- What a chain reaches lies among the targets. -/
theorem subset_of_isChain {keys : List α} (hkeys : ∀ a b, R a b → b ∈ keys) {a : α} {l : List α}
    (hl : (a :: l).IsChain R) : l ⊆ keys := by
  induction l generalizing a with
  | nil => exact List.nil_subset _
  | cons b l ih =>
    obtain ⟨hab, hl⟩ := List.isChain_cons_cons.mp hl
    exact List.cons_subset.mpr ⟨hkeys a b hab, ih hl⟩

/-- **A chain is no longer than the targets are many.** -/
theorem Acyclic.length_le [DecidableEq α] (h : Acyclic R) {keys : List α}
    (hkeys : ∀ a b, R a b → b ∈ keys) {a : α} {l : List α} (hl : (a :: l).IsChain R) :
    l.length ≤ keys.length :=
  ((h.nodup hl).of_cons.subperm (subset_of_isChain hkeys hl)).length_le

/-! ## Downwards -/

/-- What holds of an element, with one more step, as soon as it holds of all that it is related to
holds of every element with as many steps as there are targets, and one. -/
theorem Acyclic.descend [DecidableEq α] (h : Acyclic R) {keys : List α}
    (hkeys : ∀ a b, R a b → b ∈ keys) {P : Nat → α → Prop}
    (step : ∀ n a, (∀ b, R a b → P n b) → P (n + 1) a) (a : α) : P (keys.length + 1) a := by
  have hpath : ∀ n (path : List α) b, (path ++ [b]).IsChain R →
      n + path.length = keys.length + 1 → P n b := by
    intro n
    induction n with
    | zero =>
      intro path b hchain hlen
      cases path with
      | nil => simp at hlen
      | cons c path =>
        have hle := h.length_le hkeys hchain
        simp at hle hlen
        omega
    | succ n ih =>
      intro path b hchain hlen
      refine step n b fun c hbc => ih (path ++ [b]) c ?_ (by simp; omega)
      refine List.isChain_append.mpr ⟨hchain, List.isChain_singleton c, ?_⟩
      intro x hx y hy
      simp only [List.getLast?_concat, Option.mem_def, Option.some.injEq, List.head?_cons] at hx hy
      subst hx hy
      exact hbc
  exact hpath (keys.length + 1) [] a (List.isChain_singleton a) (by simp)

/-- An element that reaches itself is reached by one step from another such. -/
theorem exists_of_transGen_self {a : α} (h : TransGen R a a) : ∃ b, R b a ∧ TransGen R b b := by
  obtain ⟨b, hab, hba⟩ := TransGen.tail'_iff.mp h
  exact ⟨b, hba, .head' hba hab⟩

theorem Acyclic.of_swap (h : Acyclic R) {S : α → α → Prop} (hS : ∀ a b, S a b → R b a) :
    Acyclic S := by
  intro a ha
  have hmono : TransGen S ≤ TransGen (Function.swap R) := TransGen.mono hS
  exact h a (transGen_swap.mp (hmono a a ha))

/-- Where each element has one parent, what lies below two siblings is disjoint. -/
theorem Acyclic.eq_of_below (h : Acyclic R) (hparent : ∀ a b c, R a c → R b c → a = b)
    {a b c t : α} (hab : R a b) (hac : R a c) (hbt : ReflTransGen R b t)
    (hct : ReflTransGen R c t) : b = c := by
  -- of two siblings, neither lies below the other: its parent would then lie below itself
  have hbelow : ∀ {b c}, R a b → R a c → ReflTransGen R b c → b = c := by
    intro b c hab hac hbc
    rcases hbc.cases_tail with rfl | ⟨d, hbd, hdc⟩
    · rfl
    · obtain rfl := hparent d a c hdc hac
      exact absurd (.head' hab hbd) (h d)
  have htotal := ReflTransGen.total_of_right_unique (r := Function.swap R)
    (fun c a b hca hcb => hparent a b c hca hcb) (reflTransGen_swap.mpr hbt)
    (reflTransGen_swap.mpr hct)
  rcases htotal with hcb | hbc
  · exact (hbelow hac hab (reflTransGen_swap.mp hcb)).symm
  · exact hbelow hab hac (reflTransGen_swap.mp hbc)

/-! ## Parent links to a root -/

section Rooted

variable {next : α → Option α} {root : α}

/-- The way up from an element, along the links of those that are not the root. -/
theorem above_iff {a b : α} :
    Above next root a b ↔ ReflTransGen (fun a b => a ≠ root ∧ next a = some b) a b := by
  constructor
  · intro h
    induction h with
    | refl => exact .refl
    | up hne hab _ ih => exact .head ⟨hne, hab⟩ ih
  · intro h
    induction h using ReflTransGen.head_induction_on with
    | refl => exact .refl _
    | head hab _ ih => exact .up hab.1 hab.2 ih

theorem Climbs.above {n : Nat} {a : α} (h : Climbs next root n a) : Above next root a root := by
  induction h with
  | here => exact .refl _
  | up hne hab _ ih => exact .up hne hab ih

theorem Rooted.acyclic (h : Rooted next root) :
    Acyclic fun a b => a ≠ root ∧ next a = some b := by
  intro a ha
  obtain ⟨b, ⟨hne, hab⟩, hba⟩ := TransGen.head'_iff.mp ha
  exact h.not_above hne hab (above_iff.mpr hba) rfl

end Rooted

/-! ## Upwards -/

/-- The links from `a`, at most `n` of them. -/
def follow (next : α → Option α) : Nat → Option α → List α
  | 0, _ => []
  | _ + 1, none => []
  | n + 1, some a => a :: follow next n (next a)

/-- All links from `a`, until there is none. -/
inductive FullChain (next : α → Option α) : α → List α → Prop
  | stop {a : α} : next a = none → FullChain next a []
  | up {a b : α} {chain : List α} : next a = some b → FullChain next b chain →
      FullChain next a (b :: chain)

/-- Following the links ends by itself or has used up its bound. -/
theorem follow_spec (next : α → Option α) (n : Nat) : ∀ a : α,
    (a :: follow next n (next a)).IsChain (fun a b => next a = some b) ∧
      (FullChain next a (follow next n (next a)) ∨
        (follow next n (next a)).length = n ∧ ∀ b ∈ a :: follow next n (next a),
          (next b).isSome) := by
  induction n with
  | zero =>
    intro a
    cases hnext : next a with
    | none => exact ⟨List.isChain_singleton a, .inl (.stop hnext)⟩
    | some b => exact ⟨List.isChain_singleton a, .inr ⟨rfl, by simp [follow, hnext]⟩⟩
  | succ n ih =>
    intro a
    cases hnext : next a with
    | none => exact ⟨List.isChain_singleton a, .inl (.stop hnext)⟩
    | some b =>
      obtain ⟨hchain, hend⟩ := ih b
      refine ⟨List.isChain_cons_cons.mpr ⟨hnext, hchain⟩, ?_⟩
      rcases hend with hfull | ⟨hlen, hsome⟩
      · exact .inl (.up hnext hfull)
      · refine .inr ⟨congrArg Nat.succ hlen, List.forall_mem_cons.mpr ⟨?_, hsome⟩⟩
        rw [hnext]
        rfl

/-- **Without a cycle the links end within as many steps as there are entries.** -/
theorem follow_full [DecidableEq α] {next : α → Option α}
    (h : Acyclic fun a b => next a = some b) {keys : List α}
    (hkeys : ∀ a, (next a).isSome → a ∈ keys) {n : Nat} (hn : keys.length ≤ n) (a : α) :
    FullChain next a (follow next n (next a)) := by
  obtain ⟨hchain, hend⟩ := follow_spec next n a
  rcases hend with hfull | ⟨hlen, hsome⟩
  · exact hfull
  · have hle := ((h.nodup hchain).subperm fun b hb => hkeys b (hsome b hb)).length_le
    rw [List.length_cons] at hle
    omega

end Rumble.Lib
