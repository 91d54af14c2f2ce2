import Mathlib.Data.List.Sort
import Mathlib.Data.List.Perm.Basic
import Mathlib.Data.List.Nodup

/-!
# Lists read through a key

A `Vec` searched by key and edited in place at the first match. An edit that keeps the keys keeps
what is found under the other keys, and when the keys are pairwise distinct, sorting by the key is a
canonical form.
-/

namespace Rumble.Lib

variable {α κ : Type}

/-- Edit the first element that satisfies `p` in place. -/
def modifyFirst (p : α → Bool) (f : α → α) : List α → List α
  | [] => []
  | a :: l => if p a then f a :: l else a :: modifyFirst p f l

/-- `modifyFirst` with the success flag: `none` when nothing satisfies `p`. -/
def modifyFirst? (p : α → Bool) (f : α → α) (l : List α) : Option (List α) :=
  if l.any p then some (modifyFirst p f l) else none

@[simp] theorem modifyFirst_nil (p : α → Bool) (f : α → α) : modifyFirst p f [] = [] := rfl

theorem modifyFirst_cons (p : α → Bool) (f : α → α) (a : α) (l : List α) :
    modifyFirst p f (a :: l) = if p a then f a :: l else a :: modifyFirst p f l := rfl

theorem modifyFirst_eq_self {p : α → Bool} {f : α → α} {l : List α} (h : ∀ a ∈ l, p a = false) :
    modifyFirst p f l = l := by
  induction l with
  | nil => rfl
  | cons a l ih =>
    rw [modifyFirst_cons, if_neg (by simp [h a List.mem_cons_self]),
      ih fun b hb => h b (List.mem_cons_of_mem _ hb)]

/-- What holds of every element and survives the edit. -/
theorem forall_modifyFirst {P : α → Prop} {p : α → Bool} {f : α → α} {l : List α}
    (hl : ∀ a ∈ l, P a) (hf : ∀ a, P a → P (f a)) : ∀ a ∈ modifyFirst p f l, P a := by
  induction l with
  | nil => exact hl
  | cons a l ih =>
    obtain ⟨ha, hl⟩ := List.forall_mem_cons.mp hl
    rw [modifyFirst_cons]
    split
    · exact List.forall_mem_cons.mpr ⟨hf a ha, hl⟩
    · exact List.forall_mem_cons.mpr ⟨ha, ih hl⟩

/-- Only what is edited counts of an edit. -/
theorem modifyFirst_congr {p : α → Bool} {f f' : α → α} (h : ∀ a, p a = true → f a = f' a)
    (l : List α) : modifyFirst p f l = modifyFirst p f' l := by
  induction l with
  | nil => rfl
  | cons a l ih =>
    rw [modifyFirst_cons, modifyFirst_cons, ih]
    cases ha : p a with
    | true => rw [if_pos rfl, if_pos rfl, h a ha]
    | false => rfl

/-- An edit that keeps the keys keeps the key list. -/
theorem map_key_modifyFirst (key : α → κ) (p : α → Bool) (f : α → α) (hf : ∀ a, key (f a) = key a)
    (l : List α) : (modifyFirst p f l).map key = l.map key := by
  induction l with
  | nil => rfl
  | cons a l ih =>
    rw [modifyFirst_cons]
    split
    · simp [hf]
    · simp [ih]

/-- An edit that cannot be seen through `g`. -/
theorem map_modifyFirst_eq {β : Type} (g : α → β) {p : α → Bool} {f : α → α}
    (h : ∀ a, p a = true → g (f a) = g a) (l : List α) :
    (modifyFirst p f l).map g = l.map g := by
  induction l with
  | nil => rfl
  | cons a l ih =>
    rw [modifyFirst_cons]
    split
    · rename_i ha
      rw [List.map_cons, List.map_cons, h a ha]
    · rw [List.map_cons, List.map_cons, ih]

/-- An edit that is seen through `g` as the edit `f'`. -/
theorem map_modifyFirst {β : Type} (g : α → β) {p : α → Bool} {q : β → Bool} {f : α → α}
    {f' : β → β} (hp : ∀ a, p a = q (g a)) (hf : ∀ a, g (f a) = f' (g a)) (l : List α) :
    (modifyFirst p f l).map g = modifyFirst q f' (l.map g) := by
  induction l with
  | nil => rfl
  | cons a l ih =>
    rw [modifyFirst_cons, List.map_cons, modifyFirst_cons, hp]
    split
    · rw [List.map_cons, hf]
    · rw [List.map_cons, ih]

/-! ## Lookups by key -/

section Lookup

variable [DecidableEq κ] (key : α → κ)

theorem find?_modifyFirst (k : κ) {f : α → α} (hf : ∀ a, key (f a) = key a) (l : List α) (k' : κ) :
    (modifyFirst (fun a => key a == k) f l).find? (fun a => key a == k') =
      if k' = k then (l.find? fun a => key a == k').map f else l.find? fun a => key a == k' := by
  induction l with
  | nil => simp
  | cons a l ih =>
    rw [modifyFirst_cons]
    by_cases ha : key a = k
    · by_cases hk : k' = k
      · simp [ha, hk, hf]
      · simp [ha, hk, hf, Ne.symm hk]
    · by_cases hk : key a = k'
      · subst hk; simp [ha]
      · simp [ha, hk, ih]

theorem find?_filter_ne (k : κ) (l : List α) (k' : κ) :
    (l.filter fun a => key a ≠ k).find? (fun a => key a == k') =
      if k' = k then none else l.find? fun a => key a == k' := by
  induction l with
  | nil => simp
  | cons a l ih =>
    by_cases ha : key a = k
    · by_cases hk : k' = k
      · simp_all
      · simp_all [Ne.symm hk]
    · by_cases hk : key a = k'
      · subst hk; simp [ha]
      · simp_all

/-- Under distinct keys the last match is the first. -/
theorem find?_reverse_key {l : List α} (h : (l.map key).Nodup) (k : κ) :
    l.reverse.find? (fun a => key a == k) = l.find? fun a => key a == k := by
  induction l with
  | nil => rfl
  | cons a l ih =>
    obtain ⟨hnot, hl⟩ := List.nodup_cons.mp h
    rw [List.reverse_cons, List.find?_append, ih hl, List.find?_cons]
    by_cases ha : key a = k
    · have hnone : l.find? (fun b => key b == k) = none :=
        List.find?_eq_none.mpr fun b hb heq =>
          hnot (ha.trans (beq_iff_eq.mp heq).symm ▸ List.mem_map_of_mem hb)
      simp [ha, hnone]
    · simp [beq_eq_false_iff_ne.mpr ha]

end Lookup

/-! ## Association lists with distinct keys -/

section Assoc

variable [DecidableEq κ] {l : List (κ × α)}

/-- The first entry of a key is the only one. -/
theorem find?_key_eq_some (h : (l.map Prod.fst).Nodup) {k : κ} {a : α} :
    (l.find? fun e => e.1 == k).map Prod.snd = some a ↔ (k, a) ∈ l := by
  constructor
  · intro hfind
    obtain ⟨⟨k', a'⟩, he, rfl⟩ := Option.map_eq_some_iff.mp hfind
    obtain rfl : k' = k := by simpa using List.find?_some he
    exact List.mem_of_find?_eq_some he
  · intro hmem
    cases hfind : l.find? fun e => e.1 == k with
    | none => exact absurd (beq_self_eq_true k) (List.find?_eq_none.mp hfind _ hmem)
    | some e =>
      have hkey : e.1 = k := by simpa using List.find?_some hfind
      have he := List.inj_on_of_nodup_map h (List.mem_of_find?_eq_some hfind) hmem hkey
      rw [he]
      rfl

/-- Drop the entries of a key, then push its new one. -/
theorem find?_replace (l : List (κ × α)) (k : κ) (a : α) (k' : κ) :
    ((l.filter (fun e => e.1 ≠ k) ++ [(k, a)]).find? fun e => e.1 == k').map Prod.snd =
      if k' = k then some a else (l.find? fun e => e.1 == k').map Prod.snd := by
  rw [List.find?_append, find?_filter_ne Prod.fst]
  by_cases h : k' = k
  · subst h
    simp
  · simp [h, Ne.symm h]

variable {β : Type} {key : β → κ} {f : κ × α → Option β}

/-- What the entries of distinct keys are mapped to is found under the same keys. -/
theorem find?_filterMap_key (hkey : ∀ e b, f e = some b → key b = e.1)
    (h : (l.map Prod.fst).Nodup) (k : κ) :
    (l.filterMap f).find? (fun b => key b == k) = (l.find? fun e => e.1 == k).bind f := by
  induction l with
  | nil => rfl
  | cons e l ih =>
    obtain ⟨hnot, hl⟩ := List.nodup_cons.mp h
    by_cases he : e.1 = k
    · subst he
      have hnone : l.find? (fun e' => e'.1 == e.1) = none :=
        List.find?_eq_none.mpr fun e' he' heq => hnot (by
          have hsame : e'.1 = e.1 := by simpa using heq
          exact hsame ▸ List.mem_map_of_mem he')
      cases hf : f e with
      | none => simp [hf, ih hl, hnone]
      | some b => simp [hf, hkey e b hf]
    · cases hf : f e with
      | none => simp [hf, ih hl, he]
      | some b => simp [hf, hkey e b hf, ih hl, he]

omit [DecidableEq κ] in
theorem sublist_map_filterMap (hkey : ∀ e b, f e = some b → key b = e.1) (l : List (κ × α)) :
    ((l.filterMap f).map key).Sublist (l.map Prod.fst) := by
  induction l with
  | nil => exact .slnil
  | cons e l ih =>
    cases hf : f e with
    | none => simpa [hf] using ih.cons e.1
    | some b => simpa [hf, hkey e b hf] using ih.cons_cons e.1

end Assoc

/-! ## Pushing what is not there yet -/

section PushNew

variable [DecidableEq α]

theorem mem_foldl_pushNew {l : List α} {x : α} : ∀ acc : List α,
    x ∈ l.foldl (fun acc a => if a ∈ acc then acc else acc ++ [a]) acc ↔ x ∈ acc ∨ x ∈ l := by
  induction l with
  | nil => intro acc; simp
  | cons a l ih =>
    intro acc
    rw [List.foldl_cons, ih, List.mem_cons]
    by_cases ha : a ∈ acc
    · rw [if_pos ha]
      constructor
      · exact fun h => h.imp_right .inr
      · rintro (h | rfl | h)
        exacts [.inl h, .inl ha, .inr h]
    · rw [if_neg ha, List.mem_append, List.mem_singleton, or_assoc]

theorem nodup_foldl_pushNew {l : List α} : ∀ {acc : List α}, acc.Nodup →
    (l.foldl (fun acc a => if a ∈ acc then acc else acc ++ [a]) acc).Nodup := by
  induction l with
  | nil => exact fun h => h
  | cons a l ih =>
    intro acc h
    refine ih ?_
    dsimp only
    by_cases ha : a ∈ acc
    · rwa [if_pos ha]
    · rw [if_neg ha, ← List.concat_eq_append]
      exact (List.nodup_concat acc a).mpr ⟨ha, h⟩

end PushNew

/-! ## Sorting by the key -/

section InsertionSort

variable [LE κ] [Std.IsLinearOrder κ]

/-- Two permutations of a list with distinct keys sort to the same list. -/
theorem insertionSort_eq_of_perm (key : α → κ) [DecidableRel fun a b : α => key a ≤ key b]
    {l l' : List α} (h : l.Perm l') (hnd : (l.map key).Nodup) :
    l.insertionSort (fun a b => key a ≤ key b) = l'.insertionSort (fun a b => key a ≤ key b) := by
  have hp : (l.insertionSort (fun a b => key a ≤ key b)).Perm
      (l'.insertionSort (fun a b => key a ≤ key b)) :=
    (List.perm_insertionSort _ l).trans (h.trans (List.perm_insertionSort _ l').symm)
  have : Std.Total (fun a b : α => key a ≤ key b) := ⟨fun _ _ => Std.le_total⟩
  have : IsTrans α (fun a b : α => key a ≤ key b) := ⟨fun _ _ _ h1 h2 => Std.le_trans h1 h2⟩
  refine hp.eq_of_pairwise ?_ (List.pairwise_insertionSort _ l) (List.pairwise_insertionSort _ l')
  intro a b ha hb hab hba
  have ha' := (List.perm_insertionSort _ l).mem_iff.mp ha
  have hb' := h.mem_iff.mpr ((List.perm_insertionSort _ l').mem_iff.mp hb)
  exact List.inj_on_of_nodup_map hnd ha' hb' (Std.le_antisymm hab hba)

end InsertionSort

section StableSort

variable [LinearOrder κ]

/-- A stable sort by the key, as `sort_by_key` does it. -/
theorem pairwise_mergeSort_key (key : α → κ) (l : List α) :
    (l.mergeSort fun a b => decide (key a ≤ key b)).Pairwise fun a b => key a ≤ key b := by
  have hsorted : (l.mergeSort fun a b => decide (key a ≤ key b)).Pairwise
      fun a b => decide (key a ≤ key b) = true := by
    apply List.pairwise_mergeSort
    · intro a b c hab hbc
      simp_all only [decide_eq_true_eq]
      exact le_trans hab hbc
    · intro a b
      simpa using le_total (key a) (key b)
  exact hsorted.imp fun h => by simpa using h

/-- Two orders of elements with distinct keys sort to the same list. -/
theorem mergeSort_eq_of_perm (key : α → κ) {l l' : List α} (h : l.Perm l')
    (hinj : ∀ a ∈ l, ∀ b ∈ l, key a = key b → a = b) :
    (l.mergeSort fun a b => decide (key a ≤ key b)) =
      l'.mergeSort fun a b => decide (key a ≤ key b) := by
  have hperm := List.mergeSort_perm l fun a b => decide (key a ≤ key b)
  have hperm' := List.mergeSort_perm l' fun a b => decide (key a ≤ key b)
  refine (hperm.trans (h.trans hperm'.symm)).eq_of_pairwise ?_ (pairwise_mergeSort_key key l)
    (pairwise_mergeSort_key key l')
  intro a b ha hb hab hba
  exact hinj a (hperm.mem_iff.mp ha) b (h.mem_iff.mpr (hperm'.mem_iff.mp hb)) (le_antisymm hab hba)

/-- What has the same key stays in order. -/
theorem filter_mergeSort_key (key : α → κ) (l : List α) (k : κ) :
    (l.mergeSort fun a b => decide (key a ≤ key b)).filter (fun a => key a = k) =
      l.filter fun a => key a = k := by
  have hperm := (List.mergeSort_perm l fun a b => decide (key a ≤ key b)).filter fun a => key a = k
  have hequal : (l.filter fun a => key a = k).Pairwise fun a b => decide (key a ≤ key b) = true := by
    apply List.pairwise_of_forall_mem_list
    intro a ha b hb
    have hka := (List.mem_filter.mp ha).2
    have hkb := (List.mem_filter.mp hb).2
    simp_all
  have hsub : (l.filter fun a => key a = k).Sublist
      (l.mergeSort fun a b => decide (key a ≤ key b)) :=
    List.sublist_mergeSort
      (fun a b c hab hbc => by simp_all only [decide_eq_true_eq]; exact le_trans hab hbc)
      (fun a b => by simpa using le_total (key a) (key b)) hequal List.filter_sublist
  have hfiltered := hsub.filter fun a => key a = k
  rw [List.filter_filter] at hfiltered
  simp only [Bool.and_self] at hfiltered
  exact (hfiltered.eq_of_length hperm.length_eq.symm).symm

end StableSort

end Rumble.Lib
