import Mathlib.Data.List.Nodup
import Mathlib.Data.List.Perm.Subperm
import Mathlib.Logic.Function.Basic

/-!
# Parent links that lead to a root

A partial function `next` read as a table of parent links. `Climbs next root n a` says that `root`
is reached from `a` in exactly `n` steps; `Rooted` is a table in which the root links to itself,
every link leads to an entry and every entry climbs to the root. Adding a leaf, moving an entry
out of its own subtree and removing a leaf keep a table rooted.
-/

namespace Rumble.Lib

variable {α : Type} {next next' : α → Option α} {root : α}

/-- The root is reached from `a` for the first time after `n` links. -/
inductive Climbs (next : α → Option α) (root : α) : Nat → α → Prop where
  | here : Climbs next root 0 root
  | up {n : Nat} {a b : α} (hne : a ≠ root) (hab : next a = some b) (hb : Climbs next root n b) :
      Climbs next root (n + 1) a

/-- `b` is met on the way up from `a`, `a` itself included, before the root is passed. -/
inductive Above (next : α → Option α) (root : α) : α → α → Prop where
  | refl (a : α) : Above next root a a
  | up {a b c : α} (hne : a ≠ root) (hab : next a = some b) (hbc : Above next root b c) :
      Above next root a c

theorem Climbs.unique {n m : Nat} {a : α} (h : Climbs next root n a) (h' : Climbs next root m a) :
    n = m := by
  induction h generalizing m with
  | here =>
    cases h' with
    | here => rfl
    | up hne => exact absurd rfl hne
  | up hne hab _ ih =>
    cases h' with
    | here => exact absurd rfl hne
    | up _ hab' hb' =>
      obtain rfl := Option.some.inj (hab.symm.trans hab')
      rw [ih hb']

/-- What is met on the way up is at most as high. -/
theorem Above.climbs {a b : α} (h : Above next root a b) {n : Nat} (ha : Climbs next root n a) :
    ∃ m, m ≤ n ∧ Climbs next root m b := by
  induction h generalizing n with
  | refl => exact ⟨n, Nat.le_refl n, ha⟩
  | up hne hab _ ih =>
    cases ha with
    | here => exact absurd rfl hne
    | up _ hab' hb =>
      obtain rfl := Option.some.inj (hab.symm.trans hab')
      obtain ⟨m, hm, hc⟩ := ih hb
      exact ⟨m, Nat.le_succ_of_le hm, hc⟩

/-- A change of links off the path keeps the climb. -/
theorem Climbs.congr {n : Nat} {a : α} (h : Climbs next root n a)
    (heq : ∀ b, Above next root a b → b ≠ root → next' b = next b) : Climbs next' root n a := by
  induction h with
  | here => exact .here
  | up hne hab _ ih =>
    exact .up hne ((heq _ (.refl _) hne).trans hab) (ih fun b hb => heq b (.up hne hab hb))

/-- Entries on one climb have distinct heights, so a climb is no longer than the entries are many. -/
theorem Climbs.le_card [DecidableEq α] {n : Nat} {a : α} (h : Climbs next root n a) {keys : List α}
    (hkeys : ∀ b, b ≠ root → (next b).isSome → b ∈ keys) : n ≤ keys.length := by
  have key : ∃ path : List α, path.length = n ∧ path.Nodup ∧
      ∀ b ∈ path, b ∈ keys ∧ ∃ m, m ≤ n ∧ Climbs next root m b := by
    induction h with
    | here => exact ⟨[], rfl, List.nodup_nil, by simp⟩
    | @up n a b hne hab hb ih =>
      obtain ⟨path, hlen, hnd, hmem⟩ := ih
      refine ⟨a :: path, by simp [hlen], List.nodup_cons.mpr ⟨fun ha => ?_, hnd⟩, ?_⟩
      · obtain ⟨-, m, hm, hc⟩ := hmem a ha
        have := hc.unique (.up hne hab hb)
        omega
      · intro c hc
        rcases List.mem_cons.mp hc with rfl | hc
        · exact ⟨hkeys _ hne (by simp [hab]), n + 1, Nat.le_refl _, .up hne hab hb⟩
        · obtain ⟨hk, m, hm, hcl⟩ := hmem c hc
          exact ⟨hk, m, Nat.le_succ_of_le hm, hcl⟩
  obtain ⟨path, hlen, hnd, hmem⟩ := key
  rw [← hlen]
  exact (hnd.subperm fun b hb => (hmem b hb).1).length_le

/-- The entries from the root down to `a`. -/
inductive Descent (next : α → Option α) (root : α) : α → List α → Prop where
  | root : Descent next root root [root]
  | down {a b : α} {path : List α} (hne : a ≠ root) (hab : next a = some b)
      (hb : Descent next root b path) : Descent next root a (path ++ [a])

namespace Descent

theorem head {a : α} {path : List α} (h : Descent next root a path) : path.head? = some root := by
  induction h with
  | root => rfl
  | down _ _ _ ih => rw [List.head?_append, ih, Option.some_or]

theorem mem {a b : α} {path : List α} (h : Descent next root a path) (hb : b ∈ path) :
    Above next root a b := by
  induction h with
  | root =>
    obtain rfl := List.mem_singleton.mp hb
    exact .refl _
  | down hne hab _ ih =>
    rcases List.mem_append.mp hb with hb | hb
    · exact .up hne hab (ih hb)
    · obtain rfl := List.mem_singleton.mp hb
      exact .refl _

/-- An entry that climbs is met once. -/
theorem nodup {a : α} {path : List α} (h : Descent next root a path) {n : Nat}
    (ha : Climbs next root n a) : path.Nodup := by
  induction h generalizing n with
  | root => exact List.nodup_singleton _
  | down hne hab hb ih =>
    cases ha with
    | here => exact absurd rfl hne
    | up _ hab' hclimb =>
      obtain rfl := Option.some.inj (hab.symm.trans hab')
      refine List.nodup_append.mpr ⟨ih hclimb, List.nodup_singleton _, ?_⟩
      rintro c hc d hd rfl
      obtain rfl := List.mem_singleton.mp hd
      -- The entry would be lower than its own parent.
      obtain ⟨m, hm, hc⟩ := (hb.mem hc).climbs hclimb
      have := hc.unique (.up hne hab hclimb)
      omega

end Descent

/-- A table of parent links over a root. -/
structure Rooted (next : α → Option α) (root : α) : Prop where
  /-- The root links to itself. -/
  root_link : next root = some root
  /-- Every link leads to an entry. -/
  closed : ∀ a b, next a = some b → (next b).isSome
  /-- Every entry climbs to the root. -/
  climbs : ∀ a, (next a).isSome → ∃ n, Climbs next root n a

namespace Rooted

/-- A link is not below its own target. -/
theorem not_above (h : Rooted next root) {a b c : α} (hne : a ≠ root) (hab : next a = some b)
    (hbc : Above next root b c) : c ≠ a := by
  rintro rfl
  obtain ⟨n, hn⟩ := h.climbs b (h.closed c b hab)
  obtain ⟨m, hm, hc⟩ := hbc.climbs hn
  have := hc.unique (.up hne hab hn)
  omega

/-- The image of a rooted table under a renaming of its entries. -/
theorem image {β : Type} {next' : β → Option β} (h : Rooted next root) (f : α → β)
    (hinj : ∀ a a', (next a).isSome → (next a').isSome → f a = f a' → a = a')
    (hlink : ∀ a a', next a = some a' → next' (f a) = some (f a'))
    (honto : ∀ b, (next' b).isSome → ∃ a, (next a).isSome ∧ f a = b) :
    Rooted next' (f root) := by
  have hroot : (next root).isSome := by rw [h.root_link]; rfl
  have hclimbs : ∀ n a, Climbs next root n a → Climbs next' (f root) n (f a) := by
    intro n a hclimb
    induction hclimb with
    | here => exact .here
    | up hne hab _ ih =>
      refine .up (fun heq => hne (hinj _ _ ?_ hroot heq)) (hlink _ _ hab) ih
      rw [hab]
      rfl
  refine ⟨hlink _ _ h.root_link, fun b b' hb => ?_, fun b hb => ?_⟩
  · obtain ⟨a, ha, rfl⟩ := honto b (by rw [hb]; rfl)
    obtain ⟨a', ha'⟩ := Option.isSome_iff_exists.mp ha
    obtain rfl := Option.some.inj ((hlink a a' ha').symm.trans hb)
    obtain ⟨a'', ha''⟩ := Option.isSome_iff_exists.mp (h.closed a a' ha')
    rw [hlink a' a'' ha'']
    rfl
  · obtain ⟨a, ha, rfl⟩ := honto b hb
    obtain ⟨n, hn⟩ := h.climbs a ha
    exact ⟨n, hclimbs n a hn⟩

variable [DecidableEq α]

/-- Add an entry that was not there, below an entry that was. -/
theorem addLeaf (h : Rooted next root) {x p : α} (hx : next x = none) (hp : (next p).isSome) :
    Rooted (Function.update next x (some p)) root := by
  have hroot : root ≠ x := by rintro rfl; simp [h.root_link] at hx
  have hpx : p ≠ x := by rintro rfl; simp [hx] at hp
  have hsome : ∀ b, (next b).isSome → (Function.update next x (some p) b).isSome := by
    intro b hb
    by_cases hbx : b = x
    · simp [hbx]
    · rwa [Function.update_of_ne hbx]
  have hold : ∀ a, (next a).isSome → ∃ n, Climbs (Function.update next x (some p)) root n a := by
    intro a ha
    obtain ⟨n, hn⟩ := h.climbs a ha
    refine ⟨n, hn.congr fun b hb _ => Function.update_of_ne ?_ _ _⟩
    rintro rfl
    obtain ⟨m, -, hm⟩ := hb.climbs hn
    cases hm with
    | here => exact hroot rfl
    | up _ hab => simp [hx] at hab
  refine ⟨?_, ?_, ?_⟩
  · rw [Function.update_of_ne hroot, h.root_link]
  · intro a b hab
    by_cases hax : a = x
    · subst hax
      obtain rfl : p = b := by simpa using hab
      exact hsome p hp
    · rw [Function.update_of_ne hax] at hab
      exact hsome b (h.closed a b hab)
  · intro a ha
    by_cases hax : a = x
    · subst hax
      obtain ⟨n, hn⟩ := hold p hp
      exact ⟨n + 1, .up hroot.symm (by simp) hn⟩
    · rw [Function.update_of_ne hax] at ha
      exact hold a ha

/-- Move an entry below one whose way up does not meet it. -/
theorem moveEntry (h : Rooted next root) {x p : α} (hx : x ≠ root) (hxs : (next x).isSome)
    (hp : (next p).isSome) (hfree : ¬ Above next root p x) :
    Rooted (Function.update next x (some p)) root := by
  have hsome : ∀ b, (Function.update next x (some p) b).isSome = (next b).isSome := by
    intro b
    by_cases hbx : b = x
    · subst hbx; simp [hxs]
    · rw [Function.update_of_ne hbx]
  obtain ⟨k, hk⟩ := h.climbs p hp
  have hpk : Climbs (Function.update next x (some p)) root k p := by
    refine hk.congr fun b hb _ => Function.update_of_ne ?_ _ _
    rintro rfl
    exact hfree hb
  have hall : ∀ n a, Climbs next root n a →
      ∃ m, Climbs (Function.update next x (some p)) root m a := by
    intro n a ha
    induction ha with
    | here => exact ⟨0, .here⟩
    | @up n a b hne hab _ ih =>
      by_cases hax : a = x
      · subst hax
        exact ⟨k + 1, .up hne (by simp) hpk⟩
      · obtain ⟨m, hm⟩ := ih
        exact ⟨m + 1, .up hne (by rw [Function.update_of_ne hax, hab]) hm⟩
  refine ⟨?_, ?_, ?_⟩
  · rw [Function.update_of_ne hx.symm, h.root_link]
  · intro a b hab
    rw [hsome]
    by_cases hax : a = x
    · subst hax
      obtain rfl : p = b := by simpa using hab
      exact hp
    · rw [Function.update_of_ne hax] at hab
      exact h.closed a b hab
  · intro a ha
    rw [hsome] at ha
    obtain ⟨n, hn⟩ := h.climbs a ha
    exact hall n a hn

/-- An entry moved below itself, or below one that climbs over it, climbs no more. -/
theorem not_moveEntry {x p : α} (hx : x ≠ root) (h : Above next root p x) :
    ¬ Rooted (Function.update next x (some p)) root := by
  have hpath : ∀ a c, Above next root a c → c = x →
      Above (Function.update next x (some p)) root a c := by
    intro a c hac
    induction hac with
    | refl a => exact fun _ => .refl a
    | @up a b c hne hab _ ih =>
      intro hc
      by_cases hax : a = x
      · rw [hax, hc]
        exact .refl x
      · exact .up hne (by rw [Function.update_of_ne hax, hab]) (ih hc)
  exact fun h' => h'.not_above hx (by simp) (hpath p x h rfl) rfl

/-- Remove an entry nothing links to. -/
theorem removeLeaf (h : Rooted next root) {x : α} (hx : x ≠ root) (hleaf : ∀ a, next a ≠ some x) :
    Rooted (Function.update next x none) root := by
  have hne : ∀ a b, a ≠ x → Above next root a b → b ≠ x := by
    intro a b ha hab
    induction hab with
    | refl => exact ha
    | up _ hab _ ih => exact ih (by rintro rfl; exact hleaf _ hab)
  refine ⟨?_, ?_, ?_⟩
  · rw [Function.update_of_ne hx.symm, h.root_link]
  · intro a b hab
    by_cases hax : a = x
    · subst hax; simp at hab
    · rw [Function.update_of_ne hax] at hab
      rw [Function.update_of_ne (by rintro rfl; exact hleaf a hab)]
      exact h.closed a b hab
  · intro a ha
    by_cases hax : a = x
    · subst hax; simp at ha
    · rw [Function.update_of_ne hax] at ha
      obtain ⟨n, hn⟩ := h.climbs a ha
      exact ⟨n, hn.congr fun b hb _ => Function.update_of_ne (hne a b hax hb) _ _⟩

end Rooted

end Rumble.Lib
