import Rumble.Lib.Table
import Mathlib.Data.List.Range

/-!
# Two-way maps with 32-bit ids

A map from keys to 32-bit ids with its reverse map and a counter that ids are taken from. The
counter is kept without its wrap-around: the id is its value cut to 32 bits. While the counter has
not left the type, ids are never handed out twice and the two maps stay inverse.
-/

namespace Rumble.Lib

/-- Two tables and the next number to hand out. -/
structure IdMap (κ : Type) where
  forward : Table κ UInt32
  back : Table UInt32 κ
  next : Nat

namespace IdMap

variable {κ : Type} [DecidableEq κ]

def empty (base : Nat) : IdMap κ where
  forward := ∅
  back := ∅
  next := base

/-- Map a key to an id that does not come from the counter. -/
def pin (m : IdMap κ) (k : κ) (id : UInt32) : IdMap κ :=
  { m with forward := m.forward.set k id, back := m.back.set id k }

/-- Take the next id. -/
def issue (m : IdMap κ) (k : κ) : UInt32 × IdMap κ :=
  (UInt32.ofNat m.next, { m.pin k (UInt32.ofNat m.next) with next := m.next + 1 })

def getOrInsert (m : IdMap κ) (k : κ) : UInt32 × IdMap κ :=
  match m.forward.get k with
  | some id => (id, m)
  | none => m.issue k

def remove (m : IdMap κ) (k : κ) : IdMap κ :=
  match m.forward.get k with
  | some id => { m with forward := m.forward.del k, back := m.back.del id }
  | none => m

/-- The ids a counter that started at `base` has handed out. -/
def issued (base : Nat) (m : IdMap κ) : List UInt32 :=
  (List.range' base (m.next - base)).map UInt32.ofNat

theorem issued_issue {base : Nat} {m : IdMap κ} (h : base ≤ m.next) (k : κ) :
    issued base (m.issue k).2 = issued base m ++ [(m.issue k).1] := by
  have hlen : m.next + 1 - base = m.next - base + 1 := by omega
  unfold issued issue
  dsimp only
  rw [hlen, List.range'_1_concat, List.map_append, Nat.add_sub_cancel' h]
  rfl

omit [DecidableEq κ] in
theorem mem_issued {base : Nat} {m : IdMap κ} {id : UInt32} : id ∈ issued base m ↔
    ∃ i, base ≤ i ∧ i < m.next ∧ UInt32.ofNat i = id := by
  unfold issued
  simp only [List.mem_map, List.mem_range'_1]
  constructor
  · rintro ⟨i, ⟨hb, hi⟩, rfl⟩
    exact ⟨i, hb, by omega, rfl⟩
  · rintro ⟨i, hb, hi, rfl⟩
    exact ⟨i, ⟨hb, by omega⟩, rfl⟩

/-- Below the size of the type, different numbers are different ids. -/
theorem ofNat_inj {i j : Nat} (hi : i < 2 ^ 32) (hj : j < 2 ^ 32)
    (h : UInt32.ofNat i = UInt32.ofNat j) : i = j := by
  have hi' : (UInt32.ofNat i).toNat = i := UInt32.toNat_ofNat_of_lt' hi
  have hj' : (UInt32.ofNat j).toNat = j := UInt32.toNat_ofNat_of_lt' hj
  rw [← hi', h, hj']

/-- Ranges of numbers that fit the type give lists without repetition. -/
theorem nodup_map_ofNat {base n : Nat} (h : base + n ≤ 2 ^ 32) :
    ((List.range' base n).map UInt32.ofNat).Nodup := by
  refine (List.nodup_range').map_on fun i hi j hj heq => ?_
  have hi := (List.mem_range'_1.mp hi).2
  have hj := (List.mem_range'_1.mp hj).2
  exact ofNat_inj (by omega) (by omega) heq

/-- The maps are inverse, and every id is pinned or was handed out. `Pinned` is a set of pairs
outside of the counter. -/
structure Sound (Pinned : κ → UInt32 → Prop) (base : Nat) (m : IdMap κ) : Prop where
  inverse : ∀ k id, m.forward.get k = some id ↔ m.back.get id = some k
  known : ∀ k id, m.forward.get k = some id → Pinned k id ∨ id ∈ issued base m
  base_le : base ≤ m.next

variable {Pinned : κ → UInt32 → Prop} {base : Nat} {m : IdMap κ}

theorem sound_empty : Sound Pinned base (empty base : IdMap κ) where
  inverse := fun k id => by simp [empty]
  known := fun k id h => by simp [empty] at h
  base_le := le_rfl

theorem inverse_set {forward : Table κ UInt32} {back : Table UInt32 κ} {k : κ} {id : UInt32}
    (h : ∀ k id, forward.get k = some id ↔ back.get id = some k)
    (hk : ∀ id', forward.get k = some id' → id' = id)
    (hid : ∀ k', back.get id = some k' → k' = k) (k' : κ) (id' : UInt32) :
    (forward.set k id).get k' = some id' ↔ (back.set id k).get id' = some k' := by
  rw [Table.get_set, Table.get_set]
  by_cases hkk : k' = k
  · subst hkk
    rw [if_pos rfl, Option.some.injEq]
    constructor
    · rintro rfl
      rw [if_pos rfl]
    · intro hback
      split at hback
      · rename_i heq
        exact heq.symm
      · exact (hk id' ((h k' id').mpr hback)).symm
  · rw [if_neg hkk, h]
    split
    · rename_i heq
      subst heq
      exact ⟨fun hb => absurd (hid k' hb) hkk, fun hb => absurd (Option.some.inj hb).symm hkk⟩
    · rfl

theorem inverse_del {forward : Table κ UInt32} {back : Table UInt32 κ} {k : κ} {id : UInt32}
    (h : ∀ k id, forward.get k = some id ↔ back.get id = some k) (hk : forward.get k = some id)
    (k' : κ) (id' : UInt32) :
    (forward.del k).get k' = some id' ↔ (back.del id).get id' = some k' := by
  have hback := (h k id).mp hk
  rw [Table.get_del, Table.get_del]
  by_cases hkk : k' = k
  · subst hkk
    rw [if_pos rfl]
    refine ⟨fun hc => (Option.some_ne_none _ hc.symm).elim, fun hb => ?_⟩
    split at hb
    · cases hb
    · rename_i hne
      exact absurd (Option.some.inj (((h k' id').mpr hb).symm.trans hk)) hne
  · rw [if_neg hkk]
    by_cases hii : id' = id
    · subst hii
      rw [if_pos rfl]
      refine ⟨fun hf => ?_, fun hc => (Option.some_ne_none _ hc.symm).elim⟩
      exact absurd (Option.some.inj (((h k' id').mp hf).symm.trans hback)) hkk
    · rw [if_neg hii, h]

/-- The next id is not in use. -/
theorem Sound.fresh (h : Sound Pinned base m) (hfit : m.next < 2 ^ 32)
    (hpin : ∀ k, ¬ Pinned k (UInt32.ofNat m.next)) (k : κ) :
    m.back.get (UInt32.ofNat m.next) ≠ some k := by
  intro hb
  rcases h.known k _ ((h.inverse k _).mpr hb) with hp | hi
  · exact hpin k hp
  · obtain ⟨i, -, hi, heq⟩ := mem_issued.mp hi
    have := ofNat_inj (hi.trans hfit) hfit heq
    omega

theorem Sound.issue (h : Sound Pinned base m) (hfit : m.next < 2 ^ 32)
    (hpin : ∀ k, ¬ Pinned k (UInt32.ofNat m.next)) {k : κ} (hk : m.forward.get k = none) :
    Sound Pinned base (m.issue k).2 where
  inverse := by
    refine inverse_set h.inverse (fun id' hid => ?_) fun k' hk' => ?_
    · rw [hk] at hid
      cases hid
    · exact absurd hk' (h.fresh hfit hpin k')
  known := by
    intro k' id' hget
    rw [issued_issue h.base_le]
    have hget : (m.forward.set k (UInt32.ofNat m.next)).get k' = some id' := hget
    rw [Table.get_set] at hget
    split at hget
    · obtain rfl := Option.some.inj hget
      exact .inr (List.mem_append_right _ (List.mem_singleton.mpr rfl))
    · exact (h.known k' id' hget).imp id (List.mem_append_left _)
  base_le := h.base_le.trans (Nat.le_succ _)

theorem Sound.pin (h : Sound Pinned base m) {k : κ} {id : UInt32} (hp : Pinned k id)
    (hk : ∀ id', m.forward.get k = some id' → id' = id)
    (hid : ∀ k', m.back.get id = some k' → k' = k) : Sound Pinned base (m.pin k id) where
  inverse := inverse_set h.inverse hk hid
  known := by
    intro k' id' hget
    have hget : (m.forward.set k id).get k' = some id' := hget
    rw [Table.get_set] at hget
    split at hget
    · rename_i heq
      obtain rfl := Option.some.inj hget
      exact .inl (heq ▸ hp)
    · exact h.known k' id' hget
  base_le := h.base_le

theorem Sound.remove (h : Sound Pinned base m) (k : κ) : Sound Pinned base (m.remove k) := by
  unfold IdMap.remove
  cases hk : m.forward.get k with
  | none => exact h
  | some id =>
    refine ⟨inverse_del h.inverse hk, fun k' id' hget => ?_, h.base_le⟩
    · have hget : (m.forward.del k).get k' = some id' := hget
      rw [Table.get_del] at hget
      split at hget
      · cases hget
      · exact h.known k' id' hget

theorem next_remove (k : κ) : (m.remove k).next = m.next := by
  unfold IdMap.remove
  split <;> rfl

theorem next_le_getOrInsert (k : κ) : m.next ≤ (m.getOrInsert k).2.next := by
  unfold getOrInsert
  split
  · exact le_rfl
  · exact Nat.le_succ _

/-- A lookup that inserts keeps a sound map while the counter fits. -/
theorem Sound.getOrInsert (h : Sound Pinned base m) {k : κ}
    (hfit : (m.getOrInsert k).2.next ≤ 2 ^ 32) (hpin : ∀ i k, base ≤ i → i < 2 ^ 32 →
      ¬ Pinned k (UInt32.ofNat i)) : Sound Pinned base (m.getOrInsert k).2 := by
  unfold IdMap.getOrInsert at hfit ⊢
  cases hk : m.forward.get k with
  | some id => exact h
  | none =>
    rw [hk] at hfit
    have hlt : m.next < 2 ^ 32 := hfit
    exact h.issue hlt (fun k => hpin _ k h.base_le hlt) hk

theorem forward_getOrInsert (k : κ) :
    (m.getOrInsert k).2.forward.get k = some (m.getOrInsert k).1 := by
  unfold IdMap.getOrInsert
  split
  · assumption
  · exact Table.get_set_self _ _ _

theorem forward_getOrInsert_ne {k k' : κ} (m : IdMap κ) (h : k' ≠ k) :
    (m.getOrInsert k).2.forward.get k' = m.forward.get k' := by
  unfold IdMap.getOrInsert
  split
  · rfl
  · exact Table.get_set_ne h

theorem forward_remove_ne {k k' : κ} (m : IdMap κ) (h : k' ≠ k) :
    (m.remove k).forward.get k' = m.forward.get k' := by
  unfold IdMap.remove
  split
  · exact Table.get_del_ne h
  · rfl

theorem forward_of_remove {k k' : κ} {id : UInt32} (h : (m.remove k).forward.get k' = some id) :
    m.forward.get k' = some id := by
  unfold IdMap.remove at h
  split at h
  · change (m.forward.del k).get k' = some id at h
    rw [Table.get_del] at h
    split at h
    · cases h
    · exact h
  · exact h

/-! ## Growing maps -/

/-- Every entry of the first map is one of the second. -/
def Extends (m m' : IdMap κ) : Prop :=
  ∀ k id, m.forward.get k = some id → m'.forward.get k = some id

theorem Extends.refl (m : IdMap κ) : Extends m m := fun _ _ h => h

theorem Extends.trans {m m' m'' : IdMap κ} (h : Extends m m') (h' : Extends m' m'') :
    Extends m m'' := fun k id hk => h' k id (h k id hk)

theorem Extends.isSome {m m' : IdMap κ} (h : Extends m m') {k : κ}
    (hk : (m.forward.get k).isSome) : (m'.forward.get k).isSome := by
  obtain ⟨id, hid⟩ := Option.isSome_iff_exists.mp hk
  rw [h k id hid]
  rfl

theorem extends_getOrInsert (m : IdMap κ) (k : κ) : Extends m (m.getOrInsert k).2 := by
  intro k' id hk'
  unfold getOrInsert
  split
  · exact hk'
  · rename_i hnone
    refine (Table.get_set_ne ?_).trans hk'
    rintro rfl
    rw [hnone] at hk'
    cases hk'

theorem isSome_getOrInsert (m : IdMap κ) (k k' : κ) :
    ((m.getOrInsert k).2.forward.get k').isSome ↔ k' = k ∨ (m.forward.get k').isSome := by
  by_cases h : k' = k
  · subst h
    rw [forward_getOrInsert]
    exact iff_of_true rfl (.inl rfl)
  · rw [forward_getOrInsert_ne m h]
    exact (or_iff_right h).symm

/-- Insert every key of a list. -/
def insertAll (m : IdMap κ) (ks : List κ) : IdMap κ := ks.foldl (fun m k => (m.getOrInsert k).2) m

theorem next_le_insertAll (ks : List κ) (m : IdMap κ) : m.next ≤ (m.insertAll ks).next := by
  induction ks generalizing m with
  | nil => exact le_rfl
  | cons k ks ih => exact (next_le_getOrInsert k).trans (ih _)

/-- The counter stays where it is exactly when every key is already there. -/
theorem next_insertAll_eq_iff (ks : List κ) (m : IdMap κ) :
    (m.insertAll ks).next = m.next ↔ ∀ k ∈ ks, (m.forward.get k).isSome := by
  induction ks generalizing m with
  | nil => exact iff_of_true rfl fun k hk => absurd hk List.not_mem_nil
  | cons k ks ih =>
    show ((m.getOrInsert k).2.insertAll ks).next = m.next ↔ _
    rw [List.forall_mem_cons]
    cases hk : m.forward.get k with
    | some id =>
      have hsame : (m.getOrInsert k).2 = m := by rw [getOrInsert, hk]
      rw [hsame, ih]
      exact (and_iff_right rfl).symm
    | none =>
      have hnext : (m.getOrInsert k).2.next = m.next + 1 := by rw [getOrInsert, hk]; rfl
      have := next_le_insertAll ks (m.getOrInsert k).2
      refine iff_of_false (by omega) fun h => Bool.false_ne_true h.1

theorem extends_insertAll (ks : List κ) (m : IdMap κ) : Extends m (m.insertAll ks) := by
  induction ks generalizing m with
  | nil => exact .refl m
  | cons k ks ih => exact (extends_getOrInsert m k).trans (ih _)

theorem isSome_insertAll (ks : List κ) (m : IdMap κ) (k : κ) :
    ((m.insertAll ks).forward.get k).isSome ↔ k ∈ ks ∨ (m.forward.get k).isSome := by
  induction ks generalizing m with
  | nil => simp [insertAll]
  | cons a ks ih =>
    rw [insertAll, List.foldl_cons]
    exact (ih _).trans (by rw [isSome_getOrInsert, List.mem_cons]; tauto)

theorem forward_remove_self (m : IdMap κ) (k : κ) : (m.remove k).forward.get k = none := by
  unfold IdMap.remove
  split
  · exact Table.get_del_self _ _
  · assumption

/-- Removing keys removes exactly these. -/
theorem forward_foldl_remove (ks : List κ) (m : IdMap κ) (k : κ) :
    (ks.foldl remove m).forward.get k = if k ∈ ks then none else m.forward.get k := by
  induction ks generalizing m with
  | nil => simp
  | cons a ks ih =>
    rw [List.foldl_cons, ih]
    by_cases hks : k ∈ ks
    · simp [hks]
    · by_cases hka : k = a
      · subst hka
        simp [forward_remove_self]
      · simp [hks, hka, forward_remove_ne m hka]

theorem forward_foldl_remove_ne {k : κ} {ks : List κ} (h : k ∉ ks) (m : IdMap κ) :
    (ks.foldl remove m).forward.get k = m.forward.get k := by
  rw [forward_foldl_remove, if_neg h]

theorem next_foldl_remove (ks : List κ) (m : IdMap κ) : (ks.foldl remove m).next = m.next := by
  induction ks generalizing m with
  | nil => rfl
  | cons k ks ih => exact (ih _).trans (next_remove k)

theorem Sound.foldl_remove (ks : List κ) (h : Sound Pinned base m) :
    Sound Pinned base (ks.foldl IdMap.remove m) := by
  induction ks generalizing m with
  | nil => exact h
  | cons k ks ih => exact ih (h.remove k)

/-- In a sound map an id belongs to one key. -/
theorem Sound.inj (h : Sound Pinned base m) {k k' : κ} {id : UInt32}
    (hk : m.forward.get k = some id) (hk' : m.forward.get k' = some id) : k = k' :=
  Option.some.inj (((h.inverse k id).mp hk).symm.trans ((h.inverse k' id).mp hk'))

end IdMap

end Rumble.Lib
