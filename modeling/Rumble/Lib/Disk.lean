import Mathlib.Data.List.Basic
import Mathlib.Logic.Function.Basic

/-!
# Files and power losses

Names over inodes, as a running system sees them. A power loss may go back to any version of the
directory since the last boot, and leaves arbitrary contents in an inode that was not synced.

A name is *safe* when it is only changed by renaming. `Lasting` says that every version of the
directory shows something allowed under the safe names; it survives writes to the other names
(`Lasting.write`), and a file that was synced is published under a safe name by a rename
(`Lasting.publish`).
-/

namespace Rumble.Lib

/-- The directory, its earlier versions since the last boot, and the inodes; those from `next` on
are free. -/
structure Disk (N α : Type) where
  dir : N → Option Nat
  past : List (N → Option Nat)
  data : Nat → α
  synced : Nat → Bool
  next : Nat

namespace Disk

variable {N α : Type} (d : Disk N α)

/-- What a power loss may leave of the directory. -/
def versions : List (N → Option Nat) := d.dir :: d.past

theorem getD_mem_versions (i : Nat) : d.versions.getD i d.dir ∈ d.versions := by
  rw [List.getD_eq_getElem?_getD]
  cases hv : d.versions[i]? with
  | none => exact List.mem_cons_self
  | some v => exact List.mem_of_getElem? hv

/-- The contents under every name, in one version of the directory. -/
def view (v : N → Option Nat) : N → Option α := fun n => (v n).map d.data

def read (n : N) : Option α := d.view d.dir n

def setDir (v : N → Option Nat) : Disk N α := { d with dir := v, past := d.dir :: d.past }

/-- The contents of an inode change, in memory. -/
def setData (i : Nat) (a : α) : Disk N α :=
  { d with data := Function.update d.data i a, synced := Function.update d.synced i false }

/-- Opens a file for writing and truncates it to `a`. -/
def create [DecidableEq N] (n : N) (a : α) : Disk N α :=
  match d.dir n with
  | some i => d.setData i a
  | none =>
    { d.setData d.next a with next := d.next + 1 }.setDir (Function.update d.dir n (some d.next))

def write (n : N) (a : α) : Disk N α :=
  match d.dir n with
  | some i => d.setData i a
  | none => d

def sync (n : N) : Disk N α :=
  match d.dir n with
  | some i => { d with synced := Function.update d.synced i true }
  | none => d

/-- Replaces what was under the second name. -/
def rename [DecidableEq N] (a b : N) : Disk N α :=
  match d.dir a with
  | some i => d.setDir (Function.update (Function.update d.dir a none) b (some i))
  | none => d

/-- A power loss leaves the version `v`, and `lost` in the inodes that were not synced. -/
def powerLoss (v : N → Option Nat) (lost : Nat → α) : Disk N α where
  dir := v
  past := []
  data := fun i => if d.synced i then d.data i else lost i
  synced := fun _ => true
  next := d.next

/-! ## What lasts -/

/-- Every version shows something in `Q` under the safe names, whatever is lost. `Q` speaks about
the safe names only (`Local`). -/
structure Lasting (safe : N → Prop) (Q : (N → Option α) → Prop) (d : Disk N α) : Prop where
  views : ∀ v ∈ d.versions, Q (d.view v)
  synced : ∀ v ∈ d.versions, ∀ n i, safe n → v n = some i → d.synced i = true
  /-- No file has two names. -/
  unique : ∀ v ∈ d.versions, ∀ a b i, v a = some i → v b = some i → a = b
  /-- What is under an unsafe name now is under no safe name in any version. -/
  apart : ∀ a i, ¬ safe a → d.dir a = some i → ∀ v ∈ d.versions, ∀ n, safe n → v n ≠ some i
  used : ∀ v ∈ d.versions, ∀ n i, v n = some i → i < d.next

def Local (safe : N → Prop) (Q : (N → Option α) → Prop) : Prop :=
  ∀ f g, (∀ n, safe n → f n = g n) → Q f → Q g

namespace Lasting

variable {safe : N → Prop} {Q Q' : (N → Option α) → Prop} {d : Disk N α} {n : N}

theorem mono (h : Lasting safe Q d) (hQ : ∀ f, Q f → Q' f) : Lasting safe Q' d :=
  { h with views := fun v hv => hQ _ (h.views v hv) }

/-- The contents of an inode that no version has under a safe name. -/
theorem setData (h : Lasting safe Q d) (hQ : Local safe Q) {i : Nat}
    (hi : ∀ v ∈ d.versions, ∀ n, safe n → v n ≠ some i) (a : α) :
    Lasting safe Q (d.setData i a) := by
  refine { h with views := fun v hv => ?_, synced := fun v hv n j hn hj => ?_ }
  · refine hQ _ _ (fun n hn => ?_) (h.views v hv)
    cases hj : v n with
    | none => rw [view, view, hj]; rfl
    | some j =>
      have hne : j ≠ i := fun heq => hi v hv n hn (heq ▸ hj)
      rw [view, view, hj]
      exact congrArg some (Function.update_of_ne hne _ _).symm
  · have hne : j ≠ i := fun heq => hi v hv n hn (heq ▸ hj)
    exact (Function.update_of_ne hne _ _).trans (h.synced v hv n j hn hj)

/-- A new version of the directory. -/
theorem setDir (h : Lasting safe Q d) {v : N → Option Nat} (hview : Q (d.view v))
    (hsynced : ∀ n i, safe n → v n = some i → d.synced i = true)
    (hunique : ∀ a b i, v a = some i → v b = some i → a = b)
    (hapart : ∀ a i, ¬ safe a → v a = some i → ∀ w ∈ d.versions, ∀ n, safe n → w n ≠ some i)
    (hused : ∀ n i, v n = some i → i < d.next) : Lasting safe Q (d.setDir v) where
  views := List.forall_mem_cons.mpr ⟨hview, h.views⟩
  synced := List.forall_mem_cons.mpr ⟨hsynced, h.synced⟩
  unique := List.forall_mem_cons.mpr ⟨hunique, h.unique⟩
  apart := fun a i ha hi => List.forall_mem_cons.mpr
    ⟨fun n hn heq => ha (hunique a n i hi heq ▸ hn), hapart a i ha hi⟩
  used := List.forall_mem_cons.mpr ⟨hused, h.used⟩

theorem write (h : Lasting safe Q d) (hQ : Local safe Q) (hn : ¬ safe n) (a : α) :
    Lasting safe Q (d.write n a) := by
  unfold Disk.write
  split
  · exact h.setData hQ (h.apart n _ hn ‹_›) a
  · exact h

theorem sync (h : Lasting safe Q d) (n : N) : Lasting safe Q (d.sync n) := by
  unfold Disk.sync
  split
  · rename_i i _
    refine { h with synced := fun v hv m j hm hj => ?_ }
    have hsynced := h.synced v hv m j hm hj
    by_cases hji : j = i
    · rw [hji]
      exact Function.update_self _ _ _
    · exact (Function.update_of_ne hji _ _).trans hsynced
  · exact h

/-- Opening a file leaves what is safe alone. -/
theorem create [DecidableEq N] (h : Lasting safe Q d) (hQ : Local safe Q) (hn : ¬ safe n) (a : α) :
    Lasting safe Q (d.create n a) := by
  unfold Disk.create
  split
  · exact h.setData hQ (h.apart n _ hn ‹_›) a
  rename_i hnone
  have hfresh : ∀ v ∈ d.versions, ∀ m, v m ≠ some d.next := fun v hv m heq =>
    Nat.lt_irrefl _ (h.used v hv m d.next heq)
  have hdir : d.dir ∈ d.versions := List.mem_cons_self
  have hdata : Lasting safe Q { d.setData d.next a with next := d.next + 1 } :=
    { h.setData hQ (fun v hv m _ => hfresh v hv m) a with
      used := fun v hv m i hi => Nat.lt_succ_of_lt (h.used v hv m i hi) }
  have hsame : ∀ m, m ≠ n → Function.update d.dir n (some d.next) m = d.dir m := fun m hm =>
    Function.update_of_ne hm _ _
  have hnew : Function.update d.dir n (some d.next) n = some d.next := Function.update_self _ _ _
  have hsafe : ∀ m, safe m → m ≠ n := fun m hm heq => hn (heq ▸ hm)
  refine hdata.setDir (hQ _ _ (fun m hm => ?_) (hdata.views _ hdir)) (fun m i hm hi => ?_)
    (fun x y i hx hy => ?_) (fun x i hx hi => ?_) (fun m i hi => ?_)
  · rw [view, view, hsame m (hsafe m hm)]
  · exact hdata.synced _ hdir m i hm ((hsame m (hsafe m hm)).symm.trans hi)
  · by_cases hxn : x = n <;> by_cases hyn : y = n
    · exact hxn.trans hyn.symm
    · rw [hxn, hnew] at hx
      exact absurd ((hsame y hyn).symm.trans (hy.trans hx.symm)) (hfresh _ hdir y)
    · rw [hyn, hnew] at hy
      exact absurd ((hsame x hxn).symm.trans (hx.trans hy.symm)) (hfresh _ hdir x)
    · exact h.unique _ hdir x y i ((hsame x hxn).symm.trans hx) ((hsame y hyn).symm.trans hy)
  · by_cases hxn : x = n
    · rw [hxn, hnew] at hi
      exact fun w hw m _ => hi ▸ hfresh w hw m
    · exact h.apart x i hx ((hsame x hxn).symm.trans hi)
  · by_cases hm : m = n
    · rw [hm, hnew] at hi
      exact Option.some.inj hi ▸ Nat.lt_succ_self _
    · exact hdata.used _ hdir m i ((hsame m hm).symm.trans hi)

/-- A file that was synced, or that is safe already, is put under a safe name. -/
theorem rename [DecidableEq N] (h : Lasting safe Q d) (hQ : Local safe Q) {a b : N} (hb : safe b)
    (hsynced : ∀ i, d.dir a = some i → d.synced i = true)
    (hview : Q (Function.update (Function.update (d.view d.dir) a none) b (d.read a))) :
    Lasting safe Q (d.rename a b) := by
  unfold Disk.rename
  split
  case h_2 => exact h
  rename_i i hi
  have hdir : d.dir ∈ d.versions := List.mem_cons_self
  have hself : Function.update (Function.update d.dir a none) b (some i) b = some i :=
    Function.update_self _ _ _
  have hrest : ∀ x j, x ≠ b → Function.update (Function.update d.dir a none) b (some i) x = some j →
      x ≠ a ∧ d.dir x = some j := by
    intro x j hx hj
    rw [Function.update_of_ne hx] at hj
    by_cases hxa : x = a
    · rw [hxa, Function.update_self] at hj
      cases hj
    · exact ⟨hxa, (Function.update_of_ne hxa _ _).symm.trans hj⟩
  refine h.setDir (hQ _ _ (fun m hm => ?_) hview) (fun m j hm hj => ?_) (fun x y j hx hy => ?_)
    (fun x j hx hj => ?_) (fun m j hj => ?_)
  · unfold view Disk.read
    by_cases hmb : m = b
    · rw [hmb, Function.update_self, Function.update_self, view, hi]
    · rw [Function.update_of_ne hmb, Function.update_of_ne hmb]
      by_cases hma : m = a
      · rw [hma, Function.update_self, Function.update_self]
        rfl
      · rw [Function.update_of_ne hma, Function.update_of_ne hma]
  · by_cases hmb : m = b
    · rw [hmb, hself] at hj
      exact hsynced j (hi.trans hj)
    · exact h.synced _ hdir m j hm (hrest m j hmb hj).2
  · by_cases hxb : x = b <;> by_cases hyb : y = b
    · exact hxb.trans hyb.symm
    · obtain ⟨hya, hy⟩ := hrest y j hyb hy
      rw [hxb, hself] at hx
      exact absurd (h.unique _ hdir y a j hy (hi.trans hx)) hya
    · obtain ⟨hxa, hx⟩ := hrest x j hxb hx
      rw [hyb, hself] at hy
      exact absurd (h.unique _ hdir x a j hx (hi.trans hy)) hxa
    · exact h.unique _ hdir x y j (hrest x j hxb hx).2 (hrest y j hyb hy).2
  · exact h.apart x j hx (hrest x j (fun heq => hx (heq ▸ hb)) hj).2
  · by_cases hmb : m = b
    · rw [hmb, hself] at hj
      exact h.used _ hdir a j (hi.trans hj)
    · exact h.used _ hdir m j (hrest m j hmb hj).2

/-- **Power losses** keep what is safe, whatever they leave of the rest. -/
theorem powerLoss (h : Lasting safe Q d) (hQ : Local safe Q) {v : N → Option Nat}
    (hv : v ∈ d.versions) (lost : Nat → α) : Lasting safe Q (d.powerLoss v lost) where
  views := List.forall_mem_singleton.mpr <| by
    refine hQ (d.view v) ((d.powerLoss v lost).view v) (fun n hn => ?_) (h.views v hv)
    cases hi : v n with
    | none => rw [view, view, hi, Option.map_none, Option.map_none]
    | some i =>
      rw [view, view, hi, Option.map_some, Option.map_some]
      exact congrArg some (if_pos (h.synced v hv n i hn hi)).symm
  synced := fun _ _ _ _ _ _ => rfl
  unique := List.forall_mem_singleton.mpr (h.unique v hv)
  apart := fun a i ha hi => List.forall_mem_singleton.mpr fun n hn heq =>
    ha (h.unique v hv a n i hi heq ▸ hn)
  used := List.forall_mem_singleton.mpr (h.used v hv)

/-! ## What the running system reads -/

theorem read_setData (h : Lasting safe Q d) {m : N} {i : Nat} (hi : d.dir n = some i) (hm : m ≠ n)
    (a : α) : (d.setData i a).read m = d.read m := by
  unfold Disk.read view
  show (d.dir m).map (Function.update d.data i a) = (d.dir m).map d.data
  cases hj : d.dir m with
  | none => rfl
  | some j =>
    have hne : j ≠ i := fun heq =>
      hm (h.unique _ List.mem_cons_self m n i (heq ▸ hj) hi)
    exact congrArg some (Function.update_of_ne hne _ _)

theorem read_write (h : Lasting safe Q d) {m : N} (hm : m ≠ n) (a : α) :
    (d.write n a).read m = d.read m := by
  unfold Disk.write
  split
  · exact h.read_setData ‹_› hm a
  · rfl

theorem read_create [DecidableEq N] (h : Lasting safe Q d) {m : N} (hm : m ≠ n) (a : α) :
    (d.create n a).read m = d.read m := by
  unfold Disk.create
  split
  · exact h.read_setData ‹_› hm a
  show (Function.update d.dir n (some d.next) m).map (Function.update d.data d.next a) =
    (d.dir m).map d.data
  rw [Function.update_of_ne hm]
  cases hj : d.dir m with
  | none => rfl
  | some j =>
    have hne : j ≠ d.next := Nat.ne_of_lt (h.used _ List.mem_cons_self m j hj)
    exact congrArg some (Function.update_of_ne hne _ _)

end Lasting

theorem read_create_self [DecidableEq N] (n : N) (a : α) : (d.create n a).read n = some a := by
  unfold create
  split
  · rename_i i hi
    unfold read view setData
    dsimp only
    rw [hi, Option.map_some, Function.update_self]
  · unfold read view setDir setData
    dsimp only
    rw [Function.update_self, Option.map_some, Function.update_self]

theorem read_write_self {n : N} {a₀ : α} (h : d.read n = some a₀) (a : α) :
    (d.write n a).read n = some a := by
  obtain ⟨i, hi, -⟩ := Option.map_eq_some_iff.mp h
  unfold write
  rw [hi]
  unfold read view setData
  dsimp only
  rw [hi, Option.map_some, Function.update_self]

theorem read_sync (n m : N) : (d.sync n).read m = d.read m := by
  unfold sync
  split <;> rfl

theorem synced_sync (n : N) (i : Nat) (hi : (d.sync n).dir n = some i) :
    (d.sync n).synced i = true := by
  unfold sync at hi ⊢
  split at hi
  · rename_i j hj
    obtain rfl : j = i := Option.some.inj (hj.symm.trans hi)
    exact Function.update_self _ _ _
  · rename_i hnone
    rw [hnone] at hi
    cases hi

theorem read_rename [DecidableEq N] {a : N} {x : α} (h : d.read a = some x) (b m : N) :
    (d.rename a b).read m = if m = b then some x else if m = a then none else d.read m := by
  obtain ⟨i, hi, hx⟩ := Option.map_eq_some_iff.mp h
  unfold rename
  rw [hi]
  show (Function.update (Function.update d.dir a none) b (some i) m).map d.data = _
  by_cases hmb : m = b
  · rw [if_pos hmb, hmb, Function.update_self, Option.map_some, hx]
  rw [if_neg hmb, Function.update_of_ne hmb]
  by_cases hma : m = a
  · rw [if_pos hma, hma, Function.update_self, Option.map_none]
  · rw [if_neg hma, Function.update_of_ne hma]
    rfl

/-! ## A disk at rest -/

/-- A disk at boot: everything is on it. -/
structure Booted (d : Disk N α) : Prop where
  past : d.past = []
  synced : ∀ i, d.synced i = true
  unique : ∀ a b i, d.dir a = some i → d.dir b = some i → a = b
  used : ∀ n i, d.dir n = some i → i < d.next

theorem Booted.lasting {d : Disk N α} (h : d.Booted) {safe : N → Prop} {Q : (N → Option α) → Prop}
    (hQ : Q (d.view d.dir)) : Lasting safe Q d := by
  have honly : d.versions = [d.dir] := by rw [versions, h.past]
  refine ⟨?_, fun _ _ _ i _ _ => h.synced i, ?_, fun a i ha hi => ?_, ?_⟩ <;> rw [honly]
  · exact List.forall_mem_singleton.mpr hQ
  · exact List.forall_mem_singleton.mpr h.unique
  · exact List.forall_mem_singleton.mpr fun n hn heq => ha (h.unique a n i hi heq ▸ hn)
  · exact List.forall_mem_singleton.mpr h.used

end Disk

end Rumble.Lib
