import Mathlib.Data.List.Pairwise
import Mathlib.Data.List.Perm.Subperm
import Mathlib.Data.List.Nodup
import Mathlib.Order.Basic
import Mathlib.Order.Lattice

/-!
# Sorted maps

A finite map with ordered keys, as the list of its entries by ascending key.
-/

namespace Rumble.Lib

/-- A `BTreeMap`. -/
structure SortedMap (κ β : Type) [LinearOrder κ] where
  entries : List (κ × β)
  sorted : entries.Pairwise (·.1 < ·.1)

namespace SortedMap

variable {κ β : Type} [LinearOrder κ]

/-- `clear` -/
def empty : SortedMap κ β := ⟨[], .nil⟩

/-- `insert`; an entry with the same key gives way. -/
def insert (m : SortedMap κ β) (k : κ) (v : β) : SortedMap κ β where
  entries := m.entries.filter (·.1 < k) ++ (k, v) :: m.entries.filter (k < ·.1)
  sorted := by
    refine List.pairwise_append.mpr ⟨m.sorted.filter _, ?_, fun a ha b hb => ?_⟩
    · refine List.pairwise_cons.mpr ⟨fun b hb => ?_, m.sorted.filter _⟩
      simpa using (List.mem_filter.mp hb).2
    · have ha : a.1 < k := by simpa using (List.mem_filter.mp ha).2
      rcases List.mem_cons.mp hb with rfl | hb
      · exact ha
      · exact ha.trans (by simpa using (List.mem_filter.mp hb).2)

/-- `remove` -/
def erase (m : SortedMap κ β) (k : κ) : SortedMap κ β where
  entries := m.entries.filter (·.1 ≠ k)
  sorted := m.sorted.filter _

/-- `get` -/
def get? (m : SortedMap κ β) (k : κ) : Option β :=
  (m.entries.find? (·.1 = k)).map (·.2)

/-- The first entry of `range(k + 1..)`. -/
def after (m : SortedMap κ β) (k : κ) : Option (κ × β) :=
  m.entries.find? (k < ·.1)

/-- `range(k..).count()` -/
def countFrom (m : SortedMap κ β) (k : κ) : Nat :=
  (m.entries.filter (k ≤ ·.1)).length

/-- What is left of a map when its first entries go. -/
def dropped (m : SortedMap κ β) (l : List (κ × β)) (h : l <:+ m.entries) : SortedMap κ β :=
  ⟨l, m.sorted.sublist h.sublist⟩

variable {m : SortedMap κ β} {k : κ} {v : β} {e : κ × β}

@[simp] theorem entries_empty : (empty : SortedMap κ β).entries = [] := rfl

@[simp] theorem entries_dropped {l : List (κ × β)} (h : l <:+ m.entries) :
    (m.dropped l h).entries = l := rfl

theorem mem_insert : e ∈ (m.insert k v).entries ↔ e = (k, v) ∨ (e ∈ m.entries ∧ e.1 ≠ k) := by
  simp only [insert, List.mem_append, List.mem_cons, List.mem_filter, decide_eq_true_eq]
  constructor
  · rintro (⟨hmem, hlt⟩ | rfl | ⟨hmem, hlt⟩)
    · exact .inr ⟨hmem, hlt.ne⟩
    · exact .inl rfl
    · exact .inr ⟨hmem, hlt.ne'⟩
  · rintro (rfl | ⟨hmem, hne⟩)
    · exact .inr (.inl rfl)
    · rcases lt_or_gt_of_ne hne with hlt | hlt
      · exact .inl ⟨hmem, hlt⟩
      · exact .inr (.inr ⟨hmem, hlt⟩)

theorem mem_insert_self (m : SortedMap κ β) (k : κ) (v : β) : (k, v) ∈ (m.insert k v).entries :=
  mem_insert.mpr (.inl rfl)

/-- Nothing is in the map twice after an insertion. -/
theorem insert_subperm (m : SortedMap κ β) (k : κ) (v : β) :
    (m.insert k v).entries.Subperm ((k, v) :: m.entries) := by
  have hdisjoint : (m.entries.filter (·.1 < k) ++ m.entries.filter (k < ·.1)).Subperm
      m.entries := by
    refine (List.Perm.subperm ?_).trans (List.filter_sublist (p := (·.1 ≠ k))).subperm
    induction m.entries with
    | nil => exact .nil
    | cons a l ih =>
      rcases lt_trichotomy a.1 k with h | h | h
      · simpa [List.filter_cons, h, h.not_gt, h.ne] using ih
      · simpa [List.filter_cons, h] using ih
      · simpa [List.filter_cons, h, h.not_gt, h.ne'] using
          List.perm_middle.trans (ih.cons a)
  exact List.perm_middle.subperm.trans ((List.subperm_cons _).mpr hdisjoint)

theorem nodup_keys (m : SortedMap κ β) : (m.entries.map (·.1)).Nodup :=
  List.pairwise_map.mpr (m.sorted.imp fun h => h.ne)

/-- A key has one value. -/
theorem eq_of_key {e' : κ × β} (h : e ∈ m.entries) (h' : e' ∈ m.entries) (hkey : e.1 = e'.1) :
    e = e' :=
  List.inj_on_of_nodup_map m.nodup_keys h h' hkey

theorem get?_eq_some : m.get? k = some v ↔ (k, v) ∈ m.entries := by
  unfold get?
  constructor
  · intro h
    obtain ⟨e, hfind, rfl⟩ := Option.map_eq_some_iff.mp h
    have hkey : e.1 = k := by simpa using List.find?_some hfind
    exact hkey ▸ List.mem_of_find?_eq_some hfind
  · intro h
    cases hfind : m.entries.find? (·.1 = k) with
    | none => exact absurd (List.find?_eq_none.mp hfind _ h) (by simp)
    | some e =>
      have hkey : e.1 = k := by simpa using List.find?_some hfind
      rw [eq_of_key (List.mem_of_find?_eq_some hfind) h hkey]
      rfl

theorem get?_eq_none : m.get? k = none ↔ ∀ e ∈ m.entries, e.1 ≠ k := by
  simp [get?]

/-- An entry goes out of the map once. -/
theorem erase_subperm (h : (k, v) ∈ m.entries) :
    ((k, v) :: (m.erase k).entries).Subperm m.entries := by
  have hnodup : m.entries.Nodup := m.nodup_keys.of_map _
  refine List.Nodup.subperm (List.nodup_cons.mpr ⟨fun hmem => ?_, hnodup.filter _⟩) ?_
  · simpa using (List.mem_filter.mp hmem).2
  · exact List.cons_subset.mpr ⟨h, fun _ he => (List.mem_filter.mp he).1⟩

/-- With every key behind `k` the next entry is the first one. -/
theorem after_eq_head? (h : ∀ e ∈ m.entries, k < e.1) : m.after k = m.entries.head? := by
  unfold after
  generalize m.entries = entries at h
  cases entries with
  | nil => rfl
  | cons e rest => exact List.find?_cons_of_pos (decide_eq_true (h e List.mem_cons_self))

/-- The first entry has the smallest key. -/
theorem head?_le {first : κ × β} (hfirst : m.entries.head? = some first) (he : e ∈ m.entries) :
    first.1 ≤ e.1 := by
  have hsorted := m.sorted
  generalize m.entries = entries at *
  cases entries with
  | nil => exact nomatch he
  | cons a rest =>
    obtain rfl := Option.some.inj hfirst
    rcases List.mem_cons.mp he with rfl | he
    · exact le_refl _
    · exact ((List.pairwise_cons.mp hsorted).1 e he).le

end SortedMap

end Rumble.Lib
