import Mathlib.Data.List.AList
import Mathlib.Algebra.GroupWithZero.Nat

/-!
# Finite tables

`Table κ β` is a finite map from keys to values, an association list without repeated keys. The
lemmas read a lookup after an insertion, a removal and a fold of either.
-/

namespace Rumble.Lib

/-- A finite map. -/
abbrev Table (κ β : Type) := AList (fun _ : κ => β)

namespace Table

variable {κ β : Type} [DecidableEq κ]

/-- The value at `k`. -/
abbrev get (t : Table κ β) (k : κ) : Option β := AList.lookup k t

/-- Write `v` at `k`. -/
abbrev set (t : Table κ β) (k : κ) (v : β) : Table κ β := AList.insert k v t

/-- Remove the entry at `k`. -/
abbrev del (t : Table κ β) (k : κ) : Table κ β := AList.erase k t

/-- The entries as pairs. -/
def toPairs (t : Table κ β) : List (κ × β) := t.entries.map fun e => (e.1, e.2)

theorem get_set (t : Table κ β) (k k' : κ) (v : β) :
    (t.set k v).get k' = if k' = k then some v else t.get k' := by
  by_cases h : k' = k
  · subst h; simp
  · rw [if_neg h]; exact AList.lookup_insert_ne h

@[simp] theorem get_set_self (t : Table κ β) (k : κ) (v : β) : (t.set k v).get k = some v :=
  AList.lookup_insert t

theorem get_set_ne {t : Table κ β} {k k' : κ} {v : β} (h : k' ≠ k) :
    (t.set k v).get k' = t.get k' := AList.lookup_insert_ne h

theorem get_del (t : Table κ β) (k k' : κ) :
    (t.del k).get k' = if k' = k then none else t.get k' := by
  by_cases h : k' = k
  · subst h; simp
  · rw [if_neg h]; exact AList.lookup_erase_ne h

@[simp] theorem get_del_self (t : Table κ β) (k : κ) : (t.del k).get k = none :=
  AList.lookup_erase k t

theorem get_del_ne {t : Table κ β} {k k' : κ} (h : k' ≠ k) : (t.del k).get k' = t.get k' :=
  AList.lookup_erase_ne h

@[simp] theorem get_empty (k : κ) : (∅ : Table κ β).get k = none := AList.lookup_empty k

theorem mem_toPairs {t : Table κ β} {k : κ} {v : β} : (k, v) ∈ t.toPairs ↔ t.get k = some v := by
  unfold toPairs get
  rw [← Option.mem_def, AList.mem_lookup_iff]
  constructor
  · intro h
    obtain ⟨⟨a, b⟩, he, heq⟩ := List.mem_map.mp h
    obtain ⟨rfl, rfl⟩ := Prod.mk.inj heq
    exact he
  · exact fun h => List.mem_map.mpr ⟨⟨k, v⟩, h, rfl⟩

omit [DecidableEq κ] in
/-- The keys are pairwise distinct. -/
theorem nodup_keys (t : Table κ β) : (t.toPairs.map Prod.fst).Nodup := by
  have h := t.nodupKeys
  unfold List.NodupKeys List.keys at h
  simpa [toPairs, Function.comp_def] using h

/-- What was written last comes first. -/
theorem toPairs_set (t : Table κ β) (k : κ) (v : β) :
    (t.set k v).toPairs = (k, v) :: (t.del k).toPairs := rfl

theorem toPairs_del (t : Table κ β) (k : κ) :
    (t.del k).toPairs = t.toPairs.filter fun e => e.1 ≠ k := by
  have hentries : ∀ l : List (Sigma fun _ : κ => β), l.NodupKeys →
      (l.kerase k).map (fun e => (e.1, e.2)) =
        (l.map fun e => (e.1, e.2)).filter fun e => e.1 ≠ k := by
    intro l hl
    induction l with
    | nil => rfl
    | cons e l ih =>
      obtain ⟨hnot, hl⟩ := List.nodupKeys_cons.mp hl
      by_cases he : k = e.1
      · subst he
        rw [List.kerase_cons_eq rfl, List.map_cons, List.filter_cons_of_neg (by simp)]
        refine (List.filter_eq_self.mpr fun e' he' => ?_).symm
        obtain ⟨e'', hmem, rfl⟩ := List.mem_map.mp he'
        exact decide_eq_true fun heq => hnot (heq ▸ List.mem_map_of_mem hmem)
      · rw [List.kerase_cons_ne he, List.map_cons, List.map_cons,
          List.filter_cons_of_pos (by simpa using Ne.symm he), ih hl]
  exact hentries t.entries t.nodupKeys

/-- Removing every key of a list removes exactly those keys. -/
theorem get_foldl_del (ks : List κ) (k : κ) :
    ∀ t : Table κ β, (ks.foldl del t).get k = if k ∈ ks then none else t.get k := by
  induction ks with
  | nil => intro t; simp
  | cons a ks ih =>
    intro t
    rw [List.foldl_cons, ih, get_del]
    by_cases h1 : k = a <;> by_cases h2 : k ∈ ks <;> simp [h1, h2]

/-! ## Sums over a table -/

section Total

variable (f : β → Nat) {t : Table κ β} {k : κ} {v : β}

/-- The sum of a measure of the values. -/
def total (t : Table κ β) : Nat := (t.entries.map fun e => f e.2).sum

omit [DecidableEq κ] in
@[simp] theorem total_empty : (∅ : Table κ β).total f = 0 := rfl

/-- A new key adds the measure of its value. -/
theorem total_set (h : t.get k = none) : (t.set k v).total f = f v + t.total f := by
  unfold total set
  rw [AList.entries_insert_of_notMem (AList.lookup_eq_none.mp h)]
  simp

/-- A removed entry takes its measure with it. -/
theorem total_del (h : t.get k = some v) : f v + (t.del k).total f = t.total f := by
  have hkey : k ∈ t.entries.keys := AList.lookup_isSome.mp (Option.isSome_of_eq_some h)
  obtain ⟨b, l₁, l₂, -, hentries, herase⟩ := List.exists_of_kerase hkey
  have hb : t.get k = some b := by
    rw [get, ← Option.mem_def, AList.mem_lookup_iff, hentries]
    exact List.mem_append_right l₁ List.mem_cons_self
  obtain rfl : b = v := Option.some.inj (hb.symm.trans h)
  have hdel : (t.del k).entries = l₁ ++ l₂ := herase
  unfold total
  rw [hdel, hentries]
  simp only [List.map_append, List.map_cons, List.sum_append, List.sum_cons]
  omega

theorem le_total (h : t.get k = some v) : f v ≤ t.total f := by
  rw [← total_del f h]
  exact Nat.le_add_right _ _

end Total

/-! ## Mapping the values -/

section MapValues

variable {γ : Type} (f : β → γ) (t : Table κ β) (k : κ)

omit [DecidableEq κ] in
/-- The same keys, each with the image of its value. -/
def mapValues : Table κ γ where
  entries := t.entries.map fun e => ⟨e.1, f e.2⟩
  nodupKeys := List.NodupKeys.map₂ (fun _ => f) t.entries t.nodupKeys

omit [DecidableEq κ] in
theorem toPairs_mapValues : (t.mapValues f).toPairs = t.toPairs.map fun e => (e.1, f e.2) := by
  unfold toPairs mapValues
  rw [List.map_map, List.map_map]
  rfl

@[simp] theorem get_mapValues : (t.mapValues f).get k = (t.get k).map f :=
  List.dlookup_map₂ (l := t.entries) (f := fun _ => f) k

@[simp] theorem mapValues_del : (t.del k).mapValues f = (t.mapValues f).del k := by
  refine AList.ext ?_
  show (t.entries.kerase k).map _ = (t.entries.map _).kerase k
  generalize t.entries = l
  induction l with
  | nil => rfl
  | cons e l ih =>
    let e' : Sigma fun _ : κ => γ := ⟨e.1, f e.2⟩
    by_cases h : k = e.1
    · rw [List.kerase_cons_eq h, List.map_cons]
      exact (List.kerase_cons_eq (s := e') h).symm
    · rw [List.kerase_cons_ne h, List.map_cons, List.map_cons, ih]
      exact (List.kerase_cons_ne (s := e') h).symm

@[simp] theorem mapValues_set (v : β) : (t.set k v).mapValues f = (t.mapValues f).set k (f v) := by
  refine AList.ext ?_
  have hdel := congrArg AList.entries (mapValues_del f t k)
  exact congrArg (List.cons (⟨k, f v⟩ : Sigma fun _ : κ => γ)) hdel

end MapValues

end Table

end Rumble.Lib
