import Mathlib.Data.List.Flatten
import Rumble.Lib.ArcHeap

/-!
# The latest value

`Snapshot` and `SnapshotWriter`: one value, replaced by its writers and sampled by its readers
without a lock. A writer keeps the buffer that its last store took out when nobody else holds it,
and writes the next value into it. Writers and readers are threads, a store takes three steps and a
load holds its reference for a while. `load_run`: whatever the interleaving, a reader sees the value
that was the newest when it took its reference, for as long as it holds it. `reuse_run`: a single
writer allocates only after a store that met a reader.
-/

namespace Rumble.Client

open Rumble.Lib

/-- Where a writer is in `store`. -/
inductive Storing (α : Type) where
  | idle
  | swapping (new : Nat) (value : α)
  | reclaiming (old : Nat)
  deriving DecidableEq

structure SnapshotWriter (α : Type) where
  spare : Option Nat
  storing : Storing α
  deriving DecidableEq

/-- A reader, between loads or inside one; `latest` is the value that was the newest when it took
its reference. -/
inductive SnapshotReader (α : Type) where
  | idle
  | loading (arc : Nat) (latest : α)
  deriving DecidableEq

/-- All threads of one channel. `latest` is the value that was swapped in last, and `contended`
counts the stores that met a reader. -/
structure SnapshotChannel (α : Type) where
  heap : ArcHeap α
  cell : Nat
  writers : List (SnapshotWriter α)
  readers : List (SnapshotReader α)
  latest : α
  contended : Nat

inductive SnapshotMove (α : Type) where
  | prepare (w : Nat) (value : α)
  | swap (w : Nat)
  | reclaim (w : Nat)
  | cloneWriter (w : Nat)
  | cloneReader
  | grab (r : Nat)
  | release (r : Nat)

namespace SnapshotChannel

variable {α : Type}

/-- `Snapshot::new` -/
def new (initial : α) : SnapshotChannel α where
  heap := ArcHeap.empty.alloc initial
  cell := 0
  writers := [⟨none, .idle⟩]
  readers := [.idle]
  latest := initial
  contended := 0

def setWriter (s : SnapshotChannel α) (w : Nat) (writer : SnapshotWriter α) :
    SnapshotChannel α :=
  { s with writers := s.writers.set w writer }

def setReader (s : SnapshotChannel α) (r : Nat) (reader : SnapshotReader α) :
    SnapshotChannel α :=
  { s with readers := s.readers.set r reader }

/-- The buffer of the next value: the spare one when this writer owns it, else a new one. -/
def fill (h : ArcHeap α) (spare : Option Nat) (value : α) : Nat × ArcHeap α :=
  match spare with
  | some arc => if h.strong arc = 1 then (arc, h.write arc value)
    else (h.next, (h.alloc value).release arc)
  | none => (h.next, h.alloc value)

/-- The first part of `store`; a writer that is elsewhere stays where it is, here and below. -/
def prepare (s : SnapshotChannel α) (w : Nat) (value : α) : SnapshotChannel α :=
  match s.writers[w]? with
  | some ⟨spare, .idle⟩ =>
    let filled := fill s.heap spare value
    { s.setWriter w ⟨none, .swapping filled.1 value⟩ with heap := filled.2 }
  | _ => s

/-- `cell.swap` -/
def swap (s : SnapshotChannel α) (w : Nat) : SnapshotChannel α :=
  match s.writers[w]? with
  | some ⟨spare, .swapping new value⟩ =>
    { s.setWriter w ⟨spare, .reclaiming s.cell⟩ with cell := new, latest := value }
  | _ => s

/-- The last part of `store`: keep the old buffer when nobody else holds it. -/
def reclaim (s : SnapshotChannel α) (w : Nat) : SnapshotChannel α :=
  match s.writers[w]? with
  | some ⟨_, .reclaiming old⟩ =>
    if s.heap.strong old = 1 then s.setWriter w ⟨some old, .idle⟩
    else
      { s.setWriter w ⟨none, .idle⟩ with
        heap := s.heap.release old
        contended := s.contended + 1 }
  | _ => s

/-- A clone of a writer shares its spare buffer. -/
def cloneWriter (s : SnapshotChannel α) (w : Nat) : SnapshotChannel α :=
  match s.writers[w]? with
  | some ⟨spare, .idle⟩ =>
    { s with
      heap := spare.elim s.heap s.heap.clone
      writers := s.writers ++ [⟨spare, .idle⟩] }
  | _ => s

def cloneReader (s : SnapshotChannel α) : SnapshotChannel α :=
  { s with readers := s.readers ++ [.idle] }

/-- `load_full` -/
def grab (s : SnapshotChannel α) (r : Nat) : SnapshotChannel α :=
  match s.readers[r]? with
  | some .idle => { s.setReader r (.loading s.cell s.latest) with heap := s.heap.clone s.cell }
  | _ => s

/-- The value is copied and the reference dropped. -/
def release (s : SnapshotChannel α) (r : Nat) : SnapshotChannel α :=
  match s.readers[r]? with
  | some (.loading arc _) => { s.setReader r .idle with heap := s.heap.release arc }
  | _ => s

/-- One thread takes its next step. -/
def step (s : SnapshotChannel α) : SnapshotMove α → SnapshotChannel α
  | .prepare w value => s.prepare w value
  | .swap w => s.swap w
  | .reclaim w => s.reclaim w
  | .cloneWriter w => s.cloneWriter w
  | .cloneReader => s.cloneReader
  | .grab r => s.grab r
  | .release r => s.release r

end SnapshotChannel

/-! ## References -/

section Refs

variable {α β : Type}

/-- The references that a writer holds. -/
def SnapshotWriter.refs (w : SnapshotWriter α) : List Nat :=
  w.spare.toList ++ match w.storing with
    | .idle => []
    | .swapping new _ => [new]
    | .reclaiming old => [old]

def SnapshotReader.refs : SnapshotReader α → List Nat
  | .idle => []
  | .loading arc _ => [arc]

/-- All references of the channel. -/
def SnapshotChannel.refs (s : SnapshotChannel α) : List Nat :=
  s.cell :: (s.writers.flatMap SnapshotWriter.refs ++ s.readers.flatMap SnapshotReader.refs)

/-- What an entry has is exchanged with what the others have. -/
theorem perm_flatMap_set {l : List α} {f : α → List β} {i : Nat} {x : α} (h : l[i]? = some x)
    (y : α) : (f x ++ (l.set i y).flatMap f).Perm (f y ++ l.flatMap f) := by
  induction l generalizing i with
  | nil => cases h
  | cons z l ih =>
    cases i with
    | zero =>
      obtain rfl := Option.some.inj h
      simp only [List.set_cons_zero, List.flatMap_cons]
      exact List.perm_append_comm_assoc _ _ _
    | succ i =>
      simp only [List.set_cons_succ, List.flatMap_cons]
      exact (List.perm_append_comm_assoc _ _ _).trans
        (((ih h).append_left (f z)).trans (List.perm_append_comm_assoc _ _ _))

theorem flatMap_set_subset {l : List α} {f : α → List β} {i j : Nat} {x y : α} (hx : l[j]? = some x)
    (hij : j ≠ i) {b : β} (hb : b ∈ f x) : b ∈ (l.set i y).flatMap f := by
  have hset : (l.set i y)[j]? = some x := by rwa [List.getElem?_set_ne (Ne.symm hij)]
  exact List.mem_flatMap.mpr ⟨x, List.mem_of_getElem? hset, hb⟩

theorem length_flatMap_le {l : List α} {f : α → List β} (h : ∀ x ∈ l, (f x).length ≤ 1) :
    (l.flatMap f).length ≤ l.length := by
  induction l with
  | nil => exact Nat.le_refl 0
  | cons x l ih =>
    obtain ⟨hx, hl⟩ := List.forall_mem_cons.mp h
    have hrest := ih hl
    rw [List.flatMap_cons, List.length_append, List.length_cons]
    omega

end Refs

/-! ## What every step keeps -/

namespace SnapshotChannel

variable {α : Type} {s : SnapshotChannel α}

/-- The counts are the references, and whoever holds one reads what it is entitled to. -/
structure Sound (s : SnapshotChannel α) : Prop where
  counted : s.heap.Counted s.refs
  latest : s.heap.read s.cell = some s.latest
  prepared : ∀ (i new : Nat) (spare : Option Nat) (value : α),
    s.writers[i]? = some ⟨spare, .swapping new value⟩ → s.heap.read new = some value
  loading : ∀ (i arc : Nat) (value : α), s.readers[i]? = some (.loading arc value) →
    s.heap.read arc = some value
  /-- A writer in a store has taken its spare buffer. -/
  taken : ∀ (i : Nat) (w : SnapshotWriter α), s.writers[i]? = some w → w.storing ≠ .idle →
    w.spare = none

theorem sound_new (initial : α) : (new initial).Sound where
  counted := ArcHeap.Counted.empty.alloc initial
  latest := rfl
  prepared := by
    intro i n spare value h
    cases i with
    | zero => cases h
    | succ i => cases h
  loading := by
    intro i arc value h
    cases i with
    | zero => cases h
    | succ i => cases h
  taken := by
    intro i w h hbusy
    cases i with
    | zero =>
      obtain rfl := Option.some.inj h
      exact absurd rfl hbusy
    | succ i => cases h

/-- The references of everybody but one writer. -/
def refsBut (s : SnapshotChannel α) (w : Nat) : List Nat := (s.setWriter w ⟨none, .idle⟩).refs

theorem refs_setWriter {w : Nat} {x : SnapshotWriter α} (hx : s.writers[w]? = some x)
    (y : SnapshotWriter α) : (s.setWriter w y).refs.Perm (y.refs ++ s.refsBut w) := by
  have hidle : (s.writers.set w ⟨none, .idle⟩)[w]? = some ⟨none, .idle⟩ := by
    rw [List.getElem?_set_self (List.getElem?_eq_some_iff.mp hx).1]
  have hset := perm_flatMap_set (f := SnapshotWriter.refs) hidle y
  rw [List.set_set] at hset
  have hwriters : ((s.writers.set w y).flatMap SnapshotWriter.refs).Perm
      (y.refs ++ (s.writers.set w ⟨none, .idle⟩).flatMap SnapshotWriter.refs) := hset
  unfold refsBut refs setWriter
  dsimp only
  refine ((hwriters.append_right _).cons s.cell).trans ?_
  rw [List.append_assoc]
  exact List.perm_middle.symm

theorem refs_perm {w : Nat} {x : SnapshotWriter α} (hx : s.writers[w]? = some x) :
    s.refs.Perm (x.refs ++ s.refsBut w) := by
  have hset : s.writers.set w x = s.writers := by
    obtain ⟨hw, rfl⟩ := List.getElem?_eq_some_iff.mp hx
    exact List.set_getElem_self hw
  have hsame : s.setWriter w x = s := by
    unfold setWriter
    rw [hset]
  have hperm := refs_setWriter hx x
  rwa [hsame] at hperm

theorem cell_mem_refsBut (s : SnapshotChannel α) (w : Nat) : s.cell ∈ s.refsBut w :=
  List.mem_cons_self

theorem mem_refsBut_of_writer {w i : Nat} {x : SnapshotWriter α} (hx : s.writers[i]? = some x)
    (hi : i ≠ w) {a : Nat} (ha : a ∈ x.refs) : a ∈ s.refsBut w :=
  List.mem_cons_of_mem _ (List.mem_append_left _ (flatMap_set_subset hx hi ha))

theorem mem_refsBut_of_reader {w i : Nat} {x : SnapshotReader α} (hx : s.readers[i]? = some x)
    {a : Nat} (ha : a ∈ x.refs) : a ∈ s.refsBut w :=
  List.mem_cons_of_mem _ (List.mem_append_right _
    (List.mem_flatMap.mpr ⟨x, List.mem_of_getElem? hx, ha⟩))

/-- **Frame rule for writers.** A step of one writer that keeps the counts and what the others'
references read. -/
theorem Sound.writer (hs : s.Sound) {w : Nat} {x y : SnapshotWriter α} {h : ArcHeap α}
    (hx : s.writers[w]? = some x) (hcounted : h.Counted (y.refs ++ s.refsBut w))
    (hread : ∀ a ∈ s.refsBut w, h.read a = s.heap.read a)
    (hprepared : ∀ new value, y.storing = .swapping new value → h.read new = some value)
    (htaken : y.storing ≠ .idle → y.spare = none) (contended : Nat) :
    ({ s.setWriter w y with heap := h, contended := contended } : SnapshotChannel α).Sound := by
  refine ⟨hcounted.perm (refs_setWriter hx y).symm, ?_, fun i new spare value hi => ?_,
    fun i arc value hi => ?_, fun i z hi => ?_⟩
  · exact (hread _ (cell_mem_refsBut s w)).trans hs.latest
  · have hi' : (s.writers.set w y)[i]? = some ⟨spare, .swapping new value⟩ := hi
    by_cases hiw : i = w
    · subst hiw
      rw [List.getElem?_set_self (List.getElem?_eq_some_iff.mp hx).1] at hi'
      obtain rfl := Option.some.inj hi'
      exact hprepared new value rfl
    · rw [List.getElem?_set_ne (Ne.symm hiw)] at hi'
      have hnew : new ∈ s.refsBut w := mem_refsBut_of_writer hi' hiw
        (List.mem_append_right _ List.mem_cons_self)
      exact (hread new hnew).trans (hs.prepared i new spare value hi')
  · have hi' : s.readers[i]? = some (.loading arc value) := hi
    exact (hread arc (mem_refsBut_of_reader hi' List.mem_cons_self)).trans
      (hs.loading i arc value hi')
  · have hi' : (s.writers.set w y)[i]? = some z := hi
    by_cases hiw : i = w
    · subst hiw
      rw [List.getElem?_set_self (List.getElem?_eq_some_iff.mp hx).1] at hi'
      obtain rfl := Option.some.inj hi'
      exact htaken
    · rw [List.getElem?_set_ne (Ne.symm hiw)] at hi'
      exact hs.taken i z hi'

theorem Sound.fill (hs : s.Sound) {w : Nat} {spare : Option Nat}
    (hx : s.writers[w]? = some ⟨spare, .idle⟩) (value : α) :
    (fill s.heap spare value).2.Counted ((fill s.heap spare value).1 :: s.refsBut w) ∧
      (∀ a ∈ s.refsBut w, (fill s.heap spare value).2.read a = s.heap.read a) ∧
      (fill s.heap spare value).2.read (fill s.heap spare value).1 = some value := by
  have hcounted := hs.counted.perm (refs_perm hx)
  cases spare with
  | none =>
    exact ⟨hcounted.alloc value, fun a ha => hcounted.read_alloc_of_mem value ha,
      s.heap.read_alloc_self value⟩
  | some arc =>
    have hcounted : s.heap.Counted (arc :: s.refsBut w) := hcounted
    unfold SnapshotChannel.fill
    dsimp only
    split
    · rename_i hone
      have hnot := hcounted.not_mem_of_unique hone
      exact ⟨hcounted.write List.mem_cons_self value,
        fun a ha => s.heap.read_write_ne value fun heq => hnot (heq ▸ ha),
        s.heap.read_write_self value (hcounted.isSome_of_mem List.mem_cons_self)⟩
    · have hmore := hcounted.alloc value
      have hswap := hmore.perm (List.Perm.swap arc s.heap.next (s.refsBut w))
      refine ⟨hswap.release, fun a ha => ?_, ?_⟩
      · rw [hswap.read_release_of_mem (List.mem_cons_of_mem _ ha),
          hcounted.read_alloc_of_mem value (List.mem_cons_of_mem _ ha)]
      · rw [hswap.read_release_of_mem List.mem_cons_self, s.heap.read_alloc_self]

theorem Sound.prepare (hs : s.Sound) (w : Nat) (value : α) : (s.prepare w value).Sound := by
  unfold SnapshotChannel.prepare
  split
  · rename_i spare hx
    obtain ⟨hcounted, hread, hnew⟩ := hs.fill hx value
    refine hs.writer hx hcounted hread (fun new v heq => ?_) (fun _ => rfl) s.contended
    obtain ⟨rfl, rfl⟩ := Storing.swapping.inj heq
    exact hnew
  · exact hs

theorem Sound.swap (hs : s.Sound) (w : Nat) : (s.swap w).Sound := by
  unfold SnapshotChannel.swap
  split
  · rename_i spare new value hx
    obtain rfl : spare = none := hs.taken w _ hx (by intro h; cases h)
    have hrefs : (⟨none, .reclaiming s.cell⟩ : SnapshotWriter α).refs = [s.cell] := rfl
    have htail := (refs_setWriter hx ⟨none, .reclaiming s.cell⟩).cons_inv
    refine ⟨hs.counted.perm ((refs_perm hx).trans (htail.symm.cons new)), ?_, fun i n sp v hi => ?_,
      hs.loading, fun i z hi => ?_⟩
    · exact hs.prepared w new none value hx
    · have hi' : (s.writers.set w ⟨none, .reclaiming s.cell⟩)[i]? = some ⟨sp, .swapping n v⟩ := hi
      by_cases hiw : i = w
      · subst hiw
        rw [List.getElem?_set_self (List.getElem?_eq_some_iff.mp hx).1] at hi'
        cases hi'
      · rw [List.getElem?_set_ne (Ne.symm hiw)] at hi'
        exact hs.prepared i n sp v hi'
    · have hi' : (s.writers.set w ⟨none, .reclaiming s.cell⟩)[i]? = some z := hi
      by_cases hiw : i = w
      · subst hiw
        rw [List.getElem?_set_self (List.getElem?_eq_some_iff.mp hx).1] at hi'
        obtain rfl := Option.some.inj hi'
        exact fun _ => rfl
      · rw [List.getElem?_set_ne (Ne.symm hiw)] at hi'
        exact hs.taken i z hi'
  · exact hs

theorem Sound.reclaim (hs : s.Sound) (w : Nat) : (s.reclaim w).Sound := by
  unfold SnapshotChannel.reclaim
  split
  · rename_i spare old hx
    obtain rfl : spare = none := hs.taken w _ hx (by intro h; cases h)
    have hcounted : s.heap.Counted (old :: s.refsBut w) := hs.counted.perm (refs_perm hx)
    split
    · exact hs.writer (y := ⟨some old, .idle⟩) hx hcounted (fun _ _ => rfl)
        (by intro _ _ h; cases h) (fun h => absurd rfl h) s.contended
    · exact hs.writer (y := ⟨none, .idle⟩) hx hcounted.release
        (fun a ha => hcounted.read_release_of_mem ha) (by intro _ _ h; cases h) (fun _ => rfl)
        (s.contended + 1)
  · exact hs

theorem mem_refs_of_writer {i : Nat} {x : SnapshotWriter α} (hx : s.writers[i]? = some x) {a : Nat}
    (ha : a ∈ x.refs) : a ∈ s.refs :=
  List.mem_cons_of_mem _ (List.mem_append_left _
    (List.mem_flatMap.mpr ⟨x, List.mem_of_getElem? hx, ha⟩))

theorem Sound.cloneWriter (hs : s.Sound) (w : Nat) : (s.cloneWriter w).Sound := by
  unfold SnapshotChannel.cloneWriter
  split
  · rename_i spare hx
    have hread : ∀ a, (spare.elim s.heap s.heap.clone).read a = s.heap.read a := by
      cases spare with
      | none => exact fun _ => rfl
      | some arc => exact fun a => s.heap.read_clone a
    have hcounted : (spare.elim s.heap s.heap.clone).Counted (spare.toList ++ s.refs) := by
      cases spare with
      | none => exact hs.counted
      | some arc => exact hs.counted.clone (mem_refs_of_writer hx List.mem_cons_self)
    have hget : ∀ (i : Nat) (z : SnapshotWriter α),
        (s.writers ++ [(⟨spare, .idle⟩ : SnapshotWriter α)])[i]? = some z →
          s.writers[i]? = some z ∨ z = ⟨spare, .idle⟩ := by
      intro i z hi
      rcases Nat.lt_or_ge i s.writers.length with hlt | hge
      · rw [List.getElem?_append_left hlt] at hi
        exact .inl hi
      · rw [List.getElem?_append_right hge] at hi
        exact .inr (List.mem_singleton.mp (List.mem_of_getElem? hi))
    refine ⟨hcounted.perm ?_, (hread _).trans hs.latest, fun i new sp v hi => ?_,
      fun i arc v hi => (hread arc).trans (hs.loading i arc v hi), fun i z hi => ?_⟩
    · refine List.perm_iff_count.mpr fun a => ?_
      simp only [refs, List.flatMap_append, List.flatMap_singleton, SnapshotWriter.refs,
        List.append_nil, List.count_append, List.count_cons]
      omega
    · rcases hget i _ hi with hi | heq
      · exact (hread new).trans (hs.prepared i new sp v hi)
      · cases heq
    · rcases hget i _ hi with hi | rfl
      · exact hs.taken i z hi
      · exact fun h => absurd rfl h
  · exact hs

theorem Sound.cloneReader (hs : s.Sound) : s.cloneReader.Sound := by
  have hrefs : s.cloneReader.refs = s.refs := by
    unfold SnapshotChannel.cloneReader refs
    dsimp only
    rw [List.flatMap_append]
    simp [SnapshotReader.refs]
  refine ⟨hrefs ▸ hs.counted, hs.latest, hs.prepared, fun i arc v hi => ?_, hs.taken⟩
  have hi' : (s.readers ++ [SnapshotReader.idle])[i]? = some (.loading arc v) := hi
  rcases Nat.lt_or_ge i s.readers.length with hlt | hge
  · rw [List.getElem?_append_left hlt] at hi'
    exact hs.loading i arc v hi'
  · rw [List.getElem?_append_right hge] at hi'
    cases List.mem_singleton.mp (List.mem_of_getElem? hi')

theorem refs_setReader {r : Nat} {x : SnapshotReader α} (hx : s.readers[r]? = some x)
    (y : SnapshotReader α) : (x.refs ++ (s.setReader r y).refs).Perm (y.refs ++ s.refs) := by
  refine List.perm_iff_count.mpr fun a => ?_
  have hset := (perm_flatMap_set (f := SnapshotReader.refs) hx y).count_eq a
  simp only [refs, setReader, List.count_append, List.count_cons] at hset ⊢
  omega

theorem Sound.grab (hs : s.Sound) (r : Nat) : (s.grab r).Sound := by
  unfold SnapshotChannel.grab
  split
  · rename_i hx
    have hread : ∀ a, (s.heap.clone s.cell).read a = s.heap.read a := fun a => s.heap.read_clone a
    have hcounted := hs.counted.clone (a := s.cell) List.mem_cons_self
    have hrefs : (s.cell :: s.refs).Perm (s.setReader r (.loading s.cell s.latest)).refs :=
      (refs_setReader hx (.loading s.cell s.latest)).symm
    refine ⟨hcounted.perm hrefs, (hread _).trans hs.latest,
      fun i new sp v hi => (hread new).trans (hs.prepared i new sp v hi),
      fun i arc v hi => ?_, hs.taken⟩
    have hi' : (s.readers.set r (.loading s.cell s.latest))[i]? = some (.loading arc v) := hi
    by_cases hir : i = r
    · subst hir
      rw [List.getElem?_set_self (List.getElem?_eq_some_iff.mp hx).1] at hi'
      obtain ⟨rfl, rfl⟩ := SnapshotReader.loading.inj (Option.some.inj hi')
      exact (hread _).trans hs.latest
    · rw [List.getElem?_set_ne (Ne.symm hir)] at hi'
      exact (hread arc).trans (hs.loading i arc v hi')
  · exact hs

theorem Sound.release (hs : s.Sound) (r : Nat) : (s.release r).Sound := by
  unfold SnapshotChannel.release
  split
  · rename_i arc latest hx
    have hcounted : s.heap.Counted (arc :: (s.setReader r .idle).refs) :=
      hs.counted.perm (refs_setReader hx .idle).symm
    have hread : ∀ a ∈ (s.setReader r .idle).refs, (s.heap.release arc).read a = s.heap.read a :=
      fun a ha => hcounted.read_release_of_mem ha
    refine ⟨hcounted.release, (hread _ List.mem_cons_self).trans hs.latest,
      fun i new sp v hi => ?_, fun i a v hi => ?_, hs.taken⟩
    · have hmem : new ∈ (s.setReader r .idle).refs :=
        mem_refs_of_writer (s := s.setReader r .idle) hi
          (List.mem_append_right _ List.mem_cons_self)
      exact (hread new hmem).trans (hs.prepared i new sp v hi)
    · have hi' : (s.readers.set r .idle)[i]? = some (.loading a v) := hi
      have hmem : a ∈ (s.setReader r .idle).refs :=
        List.mem_cons_of_mem _ (List.mem_append_right _
          (List.mem_flatMap.mpr ⟨.loading a v, List.mem_of_getElem? hi', List.mem_cons_self⟩))
      by_cases hir : i = r
      · subst hir
        rw [List.getElem?_set_self (List.getElem?_eq_some_iff.mp hx).1] at hi'
        cases hi'
      · rw [List.getElem?_set_ne (Ne.symm hir)] at hi'
        exact (hread a hmem).trans (hs.loading i a v hi')
  · exact hs

/-- **Step lemma.** -/
theorem Sound.step (hs : s.Sound) (m : SnapshotMove α) : (s.step m).Sound := by
  cases m with
  | prepare w value => exact hs.prepare w value
  | swap w => exact hs.swap w
  | reclaim w => exact hs.reclaim w
  | cloneWriter w => exact hs.cloneWriter w
  | cloneReader => exact hs.cloneReader
  | grab r => exact hs.grab r
  | release r => exact hs.release r

theorem sound_run (initial : α) (moves : List (SnapshotMove α)) :
    (moves.foldl SnapshotChannel.step (new initial)).Sound :=
  List.foldlRecOn moves SnapshotChannel.step (sound_new initial) fun _ hs m _ => Sound.step hs m

theorem length_refs_le (hs : s.Sound) :
    s.refs.length ≤ 1 + s.writers.length + s.readers.length := by
  have hwriters : (s.writers.flatMap SnapshotWriter.refs).length ≤ s.writers.length := by
    refine length_flatMap_le fun w hw => ?_
    obtain ⟨i, hi⟩ := List.getElem?_of_mem hw
    have htaken := hs.taken i w hi
    obtain ⟨spare, storing⟩ := w
    cases storing with
    | idle => cases spare <;> simp [SnapshotWriter.refs]
    | swapping new value =>
      obtain rfl : spare = none := htaken (by intro h; cases h)
      exact Nat.le_refl 1
    | reclaiming old =>
      obtain rfl : spare = none := htaken (by intro h; cases h)
      exact Nat.le_refl 1
  have hreaders : (s.readers.flatMap SnapshotReader.refs).length ≤ s.readers.length := by
    refine length_flatMap_le fun r _ => ?_
    cases r with
    | idle => exact Nat.zero_le 1
    | loading arc latest => exact Nat.le_refl 1
  rw [refs, List.length_cons, List.length_append]
  omega

/-- **A load sees the newest value.** Whatever the threads do and in any order, a reader that holds
a reference reads the value that was the newest when it took it, the next reader reads the newest
value, and there is one buffer at most for the cell and for each thread. -/
theorem load_run (initial : α) (moves : List (SnapshotMove α)) :
    let s := moves.foldl SnapshotChannel.step (new initial)
    (∀ (r arc : Nat) (latest : α), s.readers[r]? = some (.loading arc latest) →
        s.heap.read arc = some latest) ∧
      s.heap.read s.cell = some s.latest ∧
      s.heap.liveCells.length ≤ 1 + s.writers.length + s.readers.length := by
  intro s
  have hs : s.Sound := sound_run initial moves
  exact ⟨hs.loading, hs.latest, Nat.le_trans hs.counted.length_liveCells_le (length_refs_le hs)⟩

/-! ## Buffers -/

/-- A second writer. -/
def forks : SnapshotMove α → Bool
  | .cloneWriter _ => true
  | _ => false

/-- There is one writer, nobody else has its spare buffer, and it has paid for every buffer but
two. -/
structure Thrifty (s : SnapshotChannel α) (writer : SnapshotWriter α) : Prop where
  single : s.writers = [writer]
  own : ∀ arc, writer.spare = some arc → s.heap.strong arc = 1
  paid : s.heap.next ≤ 2 + s.contended
  bare : writer = ⟨none, .idle⟩ → s.heap.next ≤ 1 + s.contended

theorem getElem?_singleton {w : Nat} {x writer : SnapshotWriter α}
    (h : [writer][w]? = some x) : w = 0 ∧ x = writer := by
  cases w with
  | zero => exact ⟨rfl, (Option.some.inj h).symm⟩
  | succ w => cases h

/-- The spare buffer is not among the other references. -/
theorem Sound.spare_not_mem (hs : s.Sound) {w : Nat} {x : SnapshotWriter α} {arc : Nat}
    (hx : s.writers[w]? = some x) (harc : x.spare = some arc) (hone : s.heap.strong arc = 1) :
    arc ∉ s.refsBut w := by
  have hcount := (hs.counted.perm (refs_perm hx)).count arc
  have hmem : 0 < x.refs.count arc := by
    refine List.count_pos_iff.mpr (List.mem_append_left _ ?_)
    rw [harc]
    exact List.mem_cons_self
  rw [hone, List.count_append] at hcount
  exact List.count_eq_zero.mp (by omega)

/-- Nobody else's reference is the spare buffer. -/
theorem Thrifty.ne_spare {writer : SnapshotWriter α} (h : s.Thrifty writer) (hs : s.Sound)
    {arc b : Nat} (harc : writer.spare = some arc) (hb : b ∈ s.refsBut 0) : arc ≠ b := by
  have hx : s.writers[0]? = some writer := by rw [h.single]; rfl
  exact fun heq => hs.spare_not_mem hx harc (h.own arc harc) (heq ▸ hb)

theorem Thrifty.step {writer : SnapshotWriter α} (h : s.Thrifty writer) (hs : s.Sound)
    {m : SnapshotMove α} (hm : forks m = false) : ∃ writer', (s.step m).Thrifty writer' := by
  cases m with
  | prepare w value =>
    show ∃ writer', (s.prepare w value).Thrifty writer'
    unfold prepare
    split
    · rename_i spare hx
      rw [h.single] at hx
      obtain ⟨rfl, hwriter⟩ := getElem?_singleton hx
      have hset : s.writers.set 0 ⟨none, .swapping (fill s.heap spare value).1 value⟩ =
          [⟨none, .swapping (fill s.heap spare value).1 value⟩] := by rw [h.single]; rfl
      refine ⟨_, hset, fun arc harc => (by cases harc), ?_, fun heq => by cases heq⟩
      cases spare with
      | none =>
        have hbare := h.bare hwriter.symm
        show s.heap.next + 1 ≤ 2 + s.contended
        omega
      | some arc =>
        have hown := h.own arc (by rw [← hwriter])
        have hfill : fill s.heap (some arc) value = (arc, s.heap.write arc value) := if_pos hown
        show (fill s.heap (some arc) value).2.next ≤ 2 + s.contended
        rw [hfill]
        exact h.paid
    · exact ⟨writer, h⟩
  | swap w =>
    show ∃ writer', (s.swap w).Thrifty writer'
    unfold swap
    split
    · rename_i spare new value hx
      rw [h.single] at hx
      obtain ⟨rfl, hwriter⟩ := getElem?_singleton hx
      have hset : s.writers.set 0 ⟨spare, .reclaiming s.cell⟩ = [⟨spare, .reclaiming s.cell⟩] := by
        rw [h.single]; rfl
      exact ⟨_, hset, fun arc harc => h.own arc (by rw [← hwriter]; exact harc), h.paid,
        fun heq => by cases heq⟩
    · exact ⟨writer, h⟩
  | reclaim w =>
    show ∃ writer', (s.reclaim w).Thrifty writer'
    unfold reclaim
    split
    · rename_i spare old hx
      rw [h.single] at hx
      obtain ⟨rfl, hwriter⟩ := getElem?_singleton hx
      have hset : ∀ y, s.writers.set 0 y = [y] := fun y => by rw [h.single]; rfl
      split
      · rename_i hone
        refine ⟨_, hset _, fun arc harc => ?_, h.paid, fun heq => by cases heq⟩
        obtain rfl := Option.some.inj harc
        exact hone
      · have hpaid := h.paid
        refine ⟨_, hset _, fun arc harc => (by cases harc), ?_, fun _ => ?_⟩
        · show s.heap.next ≤ 2 + (s.contended + 1)
          omega
        · show s.heap.next ≤ 1 + (s.contended + 1)
          omega
    · exact ⟨writer, h⟩
  | cloneWriter w => cases hm
  | cloneReader => exact ⟨writer, h.single, h.own, h.paid, h.bare⟩
  | grab r =>
    show ∃ writer', (s.grab r).Thrifty writer'
    unfold grab
    split
    · refine ⟨writer, h.single, fun arc harc => ?_, h.paid, h.bare⟩
      exact (s.heap.strong_put_ne _ (h.ne_spare hs harc (cell_mem_refsBut s 0))).trans
        (h.own arc harc)
    · exact ⟨writer, h⟩
  | release r =>
    show ∃ writer', (s.release r).Thrifty writer'
    unfold release
    split
    · rename_i b latest hx
      refine ⟨writer, h.single, fun arc harc => ?_, h.paid, h.bare⟩
      have hb : b ∈ s.refsBut 0 := mem_refsBut_of_reader hx List.mem_cons_self
      exact (s.heap.strong_put_ne _ (h.ne_spare hs harc hb)).trans (h.own arc harc)
    · exact ⟨writer, h⟩

theorem thrifty_new (initial : α) : (new initial).Thrifty ⟨none, .idle⟩ :=
  ⟨rfl, fun arc harc => (by cases harc), Nat.le_succ 1, fun _ => Nat.le_refl 1⟩

/-- **A buffer is reused.** A channel with one writer allocates one buffer for its first store, and
then only after a store that met a reader. -/
theorem reuse_run (initial : α) {moves : List (SnapshotMove α)} (h : ∀ m ∈ moves, forks m = false) :
    let s := moves.foldl SnapshotChannel.step (new initial)
    s.heap.next ≤ 2 + s.contended := by
  intro s
  have hrun : ∃ writer, s.Thrifty writer ∧ s.Sound := by
    refine List.foldlRecOn (motive := fun s : SnapshotChannel α =>
      ∃ writer, s.Thrifty writer ∧ s.Sound) moves SnapshotChannel.step
        ⟨_, thrifty_new initial, sound_new initial⟩ ?_
    rintro s ⟨writer, hthrifty, hs⟩ m hm
    obtain ⟨writer', h'⟩ := hthrifty.step hs (h m hm)
    exact ⟨writer', h', hs.step m⟩
  obtain ⟨writer, hthrifty, -⟩ := hrun
  exact hthrifty.paid

/-- Two stores around a load, the second of which meets the reader, and one more. -/
def sampleMoves : List (SnapshotMove Nat) :=
  [.prepare 0 5, .swap 0, .reclaim 0, .grab 0, .prepare 0 6, .swap 0, .reclaim 0, .release 0,
    .prepare 0 7, .swap 0, .reclaim 0]

theorem reuse_run_sample :
    (sampleMoves.foldl SnapshotChannel.step (new 4)).heap.next ≤
      2 + (sampleMoves.foldl SnapshotChannel.step (new 4)).contended :=
  reuse_run 4 (by decide)

example : ((sampleMoves.foldl SnapshotChannel.step (new 4)).heap.next,
    (sampleMoves.foldl SnapshotChannel.step (new 4)).contended) = (3, 1) := by decide

end SnapshotChannel

end Rumble.Client
