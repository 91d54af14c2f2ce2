import Rumble.Lib.Keyed
import Rumble.Lib.Table
import Mathlib.Algebra.BigOperators.Group.List.Basic
import Mathlib.Data.Finset.Basic

/-!
# Eviction from the media cache

`media_cache.rs` of `rumble-damascene`. `plan_evictions` goes once through the candidates, least
recently used first, and serves a budget for main memory and one for the GPU. What it skips cannot
become useful later, because both totals only shrink (`Useful.of_le`). Sizes are those of memory in
use, so their sums stay below the word size.
-/

namespace Rumble.Damascene

open Rumble.Lib

inductive MediaKind where
  | image
  | lightboxFull
  | videoThumb
  | model
  deriving DecidableEq

structure EvictionCandidate where
  kind : MediaKind
  id : String
  lastUsed : Nat
  cpuBytes : Nat
  gpuBytes : Nat
  deriving DecidableEq

namespace EvictionCandidate

/-- What a plan says of a candidate. -/
def family (c : EvictionCandidate) : MediaKind × String := (c.kind, c.id)

end EvictionCandidate

def cpuTotal (cs : List EvictionCandidate) : Nat := (cs.map EvictionCandidate.cpuBytes).sum

def gpuTotal (cs : List EvictionCandidate) : Nat := (cs.map EvictionCandidate.gpuBytes).sum

section Plan

variable (cpuBudget gpuBudget recentFloor : Nat) (pinned : Finset String)

/-- The loop of `plan_evictions`, with the two totals that are left. -/
def planLoop : Nat → Nat → List EvictionCandidate → List (MediaKind × String)
  | _, _, [] => []
  | cpu, gpu, c :: cs =>
    if cpu ≤ cpuBudget ∧ gpu ≤ gpuBudget then []
    else if c.id ∈ pinned ∨ c.lastUsed > recentFloor then planLoop cpu gpu cs
    else
      let helpsCpu := decide (cpu > cpuBudget) && decide (c.cpuBytes > 0)
      let helpsGpu := decide (gpu > gpuBudget) && decide (c.gpuBytes > 0)
      if !helpsCpu && !helpsGpu then planLoop cpu gpu cs
      else c.family :: planLoop (cpu - c.cpuBytes) (gpu - c.gpuBytes) cs

def planEvictions (candidates : List EvictionCandidate) : List (MediaKind × String) :=
  if cpuTotal candidates ≤ cpuBudget ∧ gpuTotal candidates ≤ gpuBudget then []
  else planLoop cpuBudget gpuBudget recentFloor pinned (cpuTotal candidates) (gpuTotal candidates)
    (candidates.mergeSort fun a b => a.lastUsed ≤ b.lastUsed)

/-! ## What a plan is -/

/-- Neither pinned nor used since the last pass. -/
def Evictable (c : EvictionCandidate) : Prop := c.id ∉ pinned ∧ c.lastUsed ≤ recentFloor

/-- With these totals, `c` has bytes in a dimension that is over its budget. -/
def Useful (cpu gpu : Nat) (c : EvictionCandidate) : Prop :=
  cpuBudget < cpu ∧ 0 < c.cpuBytes ∨ gpuBudget < gpu ∧ 0 < c.gpuBytes

/-- The candidates fit both budgets. -/
def Fits (cs : List EvictionCandidate) : Prop := cpuTotal cs ≤ cpuBudget ∧ gpuTotal cs ≤ gpuBudget

/-- `chosen` are evicted from the candidates in this order, and `kept` stay. -/
structure EvictionPlan (candidates chosen kept : List EvictionCandidate) : Prop where
  split : (chosen ++ kept).Perm candidates
  evictable : ∀ c ∈ chosen, Evictable recentFloor pinned c
  useful : ∀ before c after, chosen = before ++ c :: after →
    Useful cpuBudget gpuBudget (cpuTotal (c :: after ++ kept)) (gpuTotal (c :: after ++ kept)) c
  enough : Fits cpuBudget gpuBudget kept ∨ ∀ c ∈ kept, Evictable recentFloor pinned c →
    ¬ Useful cpuBudget gpuBudget (cpuTotal kept) (gpuTotal kept) c

end Plan

/-! ## Totals -/

theorem cpuTotal_perm {l l' : List EvictionCandidate} (h : l.Perm l') : cpuTotal l = cpuTotal l' :=
  (h.map _).sum_eq

theorem gpuTotal_perm {l l' : List EvictionCandidate} (h : l.Perm l') : gpuTotal l = gpuTotal l' :=
  (h.map _).sum_eq

@[simp] theorem cpuTotal_append (l l' : List EvictionCandidate) :
    cpuTotal (l ++ l') = cpuTotal l + cpuTotal l' := by
  simp [cpuTotal]

@[simp] theorem gpuTotal_append (l l' : List EvictionCandidate) :
    gpuTotal (l ++ l') = gpuTotal l + gpuTotal l' := by
  simp [gpuTotal]

@[simp] theorem cpuTotal_cons (c : EvictionCandidate) (l : List EvictionCandidate) :
    cpuTotal (c :: l) = c.cpuBytes + cpuTotal l := by
  simp [cpuTotal]

@[simp] theorem gpuTotal_cons (c : EvictionCandidate) (l : List EvictionCandidate) :
    gpuTotal (c :: l) = c.gpuBytes + gpuTotal l := by
  simp [gpuTotal]

/-! ## The loop -/

section Loop

variable {cpuBudget gpuBudget recentFloor : Nat} {pinned : Finset String}

/-- **What does not help now does not help once the totals are smaller.** -/
theorem Useful.of_le {cpu gpu cpu' gpu' : Nat} {c : EvictionCandidate}
    (h : Useful cpuBudget gpuBudget cpu' gpu' c) (hcpu : cpu' ≤ cpu) (hgpu : gpu' ≤ gpu) :
    Useful cpuBudget gpuBudget cpu gpu c := by
  unfold Useful at *
  omega

/-- The two branches of the loop that go on, read as conditions. -/
theorem helps_eq_false {cpu gpu : Nat} {c : EvictionCandidate} :
    (!(decide (cpu > cpuBudget) && decide (c.cpuBytes > 0)) &&
      !(decide (gpu > gpuBudget) && decide (c.gpuBytes > 0))) = true ↔
      ¬ Useful cpuBudget gpuBudget cpu gpu c := by
  unfold Useful
  simp only [Bool.and_eq_true, Bool.not_eq_true', Bool.and_eq_false_iff, decide_eq_false_iff_not,
    gt_iff_lt]
  omega

theorem not_evictable {c : EvictionCandidate} :
    (c.id ∈ pinned ∨ c.lastUsed > recentFloor) ↔ ¬ Evictable recentFloor pinned c := by
  unfold Evictable
  rw [not_and_or, not_not, not_le]

/-- Nothing is evicted: the candidates fit, or none of those that may be evicted is useful. -/
theorem EvictionPlan.nothing {cs : List EvictionCandidate}
    (h : Fits cpuBudget gpuBudget cs ∨ ∀ c ∈ cs, Evictable recentFloor pinned c →
      ¬ Useful cpuBudget gpuBudget (cpuTotal cs) (gpuTotal cs) c) :
    EvictionPlan cpuBudget gpuBudget recentFloor pinned cs [] cs where
  split := List.Perm.refl _
  evictable _ hc := absurd hc List.not_mem_nil
  useful before c after h := by simp at h
  enough := h

/-- A useful candidate is evicted, and the plan for the others follows. -/
theorem EvictionPlan.cons {c : EvictionCandidate} {cs cs' chosen kept : List EvictionCandidate}
    (h : EvictionPlan cpuBudget gpuBudget recentFloor pinned cs chosen kept)
    (hperm : (c :: cs).Perm cs') (hev : Evictable recentFloor pinned c)
    (huse : Useful cpuBudget gpuBudget (cpuTotal cs') (gpuTotal cs') c) :
    EvictionPlan cpuBudget gpuBudget recentFloor pinned cs' (c :: chosen) kept := by
  have hsplit : (c :: chosen ++ kept).Perm cs' := (h.split.cons c).trans hperm
  refine ⟨hsplit, List.forall_mem_cons.mpr ⟨hev, h.evictable⟩, ?_, h.enough⟩
  intro before d after heq
  cases before with
  | nil =>
    obtain ⟨rfl, rfl⟩ := List.cons.inj heq
    rw [cpuTotal_perm hsplit, gpuTotal_perm hsplit]
    exact huse
  | cons b before => exact h.useful before d after (List.cons.inj heq).2

/-- The rest of the loop. `skipped` are the candidates it has passed over: none of them may be
evicted and has bytes where these are still over budget. -/
theorem planLoop_spec (cs : List EvictionCandidate) : ∀ skipped : List EvictionCandidate,
    (∀ c ∈ skipped, Evictable recentFloor pinned c → ¬ Useful cpuBudget gpuBudget
      (cpuTotal (skipped ++ cs)) (gpuTotal (skipped ++ cs)) c) →
    ∃ chosen kept, planLoop cpuBudget gpuBudget recentFloor pinned (cpuTotal (skipped ++ cs))
        (gpuTotal (skipped ++ cs)) cs = chosen.map EvictionCandidate.family ∧
      chosen.Sublist cs ∧
      EvictionPlan cpuBudget gpuBudget recentFloor pinned (skipped ++ cs) chosen kept := by
  induction cs with
  | nil =>
    intro skipped hskip
    rw [List.append_nil] at hskip ⊢
    exact ⟨[], skipped, rfl, List.Sublist.refl _, .nothing (Or.inr hskip)⟩
  | cons c cs ih =>
    intro skipped hskip
    have hshift : skipped ++ c :: cs = (skipped ++ [c]) ++ cs := by simp
    -- passing over `c` adds it to what has been skipped
    have hpass : (Evictable recentFloor pinned c → ¬ Useful cpuBudget gpuBudget
        (cpuTotal (skipped ++ c :: cs)) (gpuTotal (skipped ++ c :: cs)) c) →
        ∃ chosen kept, planLoop cpuBudget gpuBudget recentFloor pinned
            (cpuTotal (skipped ++ c :: cs)) (gpuTotal (skipped ++ c :: cs)) cs =
            chosen.map EvictionCandidate.family ∧ chosen.Sublist (c :: cs) ∧
          EvictionPlan cpuBudget gpuBudget recentFloor pinned (skipped ++ c :: cs) chosen kept := by
      intro hc
      rw [hshift] at hskip hc ⊢
      obtain ⟨chosen, kept, hloop, hsub, hplan⟩ := ih (skipped ++ [c]) (by
        intro d hd
        rcases List.mem_append.mp hd with hd | hd
        · exact hskip d hd
        · rw [List.mem_singleton.mp hd]
          exact hc)
      exact ⟨chosen, kept, hloop, hsub.cons c, hplan⟩
    unfold planLoop
    by_cases hfits : cpuTotal (skipped ++ c :: cs) ≤ cpuBudget ∧
        gpuTotal (skipped ++ c :: cs) ≤ gpuBudget
    · rw [if_pos hfits]
      exact ⟨[], skipped ++ c :: cs, rfl, List.nil_sublist _, .nothing (Or.inl hfits)⟩
    rw [if_neg hfits]
    by_cases hexempt : c.id ∈ pinned ∨ c.lastUsed > recentFloor
    · rw [if_pos hexempt]
      exact hpass fun hev => absurd hev (not_evictable.mp hexempt)
    rw [if_neg hexempt]
    by_cases huse : Useful cpuBudget gpuBudget (cpuTotal (skipped ++ c :: cs))
        (gpuTotal (skipped ++ c :: cs)) c
    · rw [if_neg (fun h => helps_eq_false.mp h huse)]
      have hcpu : cpuTotal (skipped ++ c :: cs) - c.cpuBytes = cpuTotal (skipped ++ cs) := by
        simp only [cpuTotal_append, cpuTotal_cons]
        omega
      have hgpu : gpuTotal (skipped ++ c :: cs) - c.gpuBytes = gpuTotal (skipped ++ cs) := by
        simp only [gpuTotal_append, gpuTotal_cons]
        omega
      rw [hcpu, hgpu]
      obtain ⟨chosen, kept, hloop, hsub, hplan⟩ := ih skipped (by
        intro d hd hev huse'
        refine hskip d hd hev (huse'.of_le ?_ ?_)
        · rw [← hcpu]
          exact Nat.sub_le _ _
        · rw [← hgpu]
          exact Nat.sub_le _ _)
      exact ⟨c :: chosen, kept, by rw [hloop]; rfl, hsub.cons_cons c,
        hplan.cons List.perm_middle.symm (not_not.mp (mt not_evictable.mpr hexempt)) huse⟩
    · rw [if_pos (helps_eq_false.mpr huse)]
      exact hpass fun _ => huse

end Loop

theorem planEvictions_plan (cpuBudget gpuBudget recentFloor : Nat) (pinned : Finset String)
    (candidates : List EvictionCandidate) :
    ∃ chosen kept, planEvictions cpuBudget gpuBudget recentFloor pinned candidates =
        chosen.map EvictionCandidate.family ∧
      chosen.Sublist (candidates.mergeSort fun a b => a.lastUsed ≤ b.lastUsed) ∧
      EvictionPlan cpuBudget gpuBudget recentFloor pinned candidates chosen kept := by
  have hperm := List.mergeSort_perm candidates fun a b => decide (a.lastUsed ≤ b.lastUsed)
  unfold planEvictions
  split
  · rename_i hfits
    exact ⟨[], candidates, rfl, List.nil_sublist _, .nothing (Or.inl hfits)⟩
  · obtain ⟨chosen, kept, hloop, hsub, hspec⟩ := @planLoop_spec cpuBudget gpuBudget
      recentFloor pinned (candidates.mergeSort fun a b => decide (a.lastUsed ≤ b.lastUsed)) []
      (fun c hc => absurd hc List.not_mem_nil)
    rw [List.nil_append, cpuTotal_perm hperm, gpuTotal_perm hperm] at hloop
    exact ⟨chosen, kept, hloop, hsub, { hspec with split := hspec.split.trans hperm }⟩

/-- **The eviction plan is sound and complete.** -/
theorem planEvictions_spec (cpuBudget gpuBudget recentFloor : Nat) (pinned : Finset String)
    (candidates : List EvictionCandidate) :
    ∃ chosen kept,
      planEvictions cpuBudget gpuBudget recentFloor pinned candidates =
        chosen.map EvictionCandidate.family ∧
      EvictionPlan cpuBudget gpuBudget recentFloor pinned candidates chosen kept ∧
      chosen.Sublist (candidates.mergeSort fun a b => a.lastUsed ≤ b.lastUsed) ∧
      chosen.Pairwise (fun a b => a.lastUsed ≤ b.lastUsed) ∧
      ((candidates.map EvictionCandidate.family).Nodup →
        (planEvictions cpuBudget gpuBudget recentFloor pinned candidates).Nodup) := by
  have hperm := List.mergeSort_perm candidates fun a b => decide (a.lastUsed ≤ b.lastUsed)
  have hsorted := pairwise_mergeSort_key EvictionCandidate.lastUsed candidates
  obtain ⟨chosen, kept, hplan, hsub, hspec⟩ :=
    planEvictions_plan cpuBudget gpuBudget recentFloor pinned candidates
  refine ⟨chosen, kept, hplan, hspec, hsub, hsorted.sublist hsub, fun hdistinct => ?_⟩
  rw [hplan]
  exact (hsub.map _).nodup ((hperm.map _).nodup_iff.mpr hdistinct)

/-- The order of what is kept does not matter. -/
theorem EvictionPlan.of_perm {cpuBudget gpuBudget recentFloor : Nat} {pinned : Finset String}
    {candidates chosen kept kept' : List EvictionCandidate}
    (h : EvictionPlan cpuBudget gpuBudget recentFloor pinned candidates chosen kept)
    (hperm : kept.Perm kept') :
    EvictionPlan cpuBudget gpuBudget recentFloor pinned candidates chosen kept' where
  split := (hperm.append_left chosen).symm.trans h.split
  evictable := h.evictable
  useful := by
    intro before c after hchosen
    have huse := h.useful before c after hchosen
    have hrest : (c :: after ++ kept).Perm (c :: after ++ kept') := hperm.append_left _
    rw [cpuTotal_perm hrest, gpuTotal_perm hrest] at huse
    exact huse
  enough := by
    unfold Fits
    rw [← cpuTotal_perm hperm, ← gpuTotal_perm hperm]
    rcases h.enough with hfits | hnone
    · exact Or.inl hfits
    · exact Or.inr fun c hc => hnone c (hperm.mem_iff.mpr hc)

/-! ## The cache -/

structure Image where
  width : Nat
  height : Nat
  deriving DecidableEq

/-- `chat::CachedImage`. A frame has a delay. -/
inductive CachedImage where
  | static (img : Image)
  | animated (frames : List (Image × Nat))
  | svg
  deriving DecidableEq

structure GifPlayback where
  frameIdx : Nat
  lastAdvance : Nat
  playing : Bool
  deriving DecidableEq

structure AnimatedGpu where
  size : Nat × Nat
  deriving DecidableEq

/-- A parsed model: how many vertices and indices a mesh has, or how many points. -/
inductive LoadedModel where
  | mesh (vertices : Nat) (indices : Option Nat)
  | points (points : Nat)
  deriving DecidableEq

/-- `size_of` of the two types of the scene library. -/
structure SceneSizes where
  meshVertex : Nat
  scenePoint : Nat

def svgNominalBytes : Nat := 256 * 1024

def imageBytes (img : Image) : Nat := img.width * img.height * 4

def cachedImageCpuBytes : CachedImage → Nat
  | .static img => imageBytes img
  | .animated frames => (frames.map fun f => imageBytes f.1).sum
  | .svg => svgNominalBytes

def modelCpuBytes (sizes : SceneSizes) : LoadedModel → Nat
  | .mesh vertices indices => vertices * sizes.meshVertex + indices.elim 0 (· * 4)
  | .points points => points * sizes.scenePoint

def animatedGpuBytes (gpu : AnimatedGpu) : Nat := gpu.size.1 * gpu.size.2 * 4

structure LruState where
  clock : Nat
  floor : Nat
  lastUsed : Table (MediaKind × String) Nat

/-- The maps of `MediaCache` that eviction reads or writes. -/
structure MediaCache where
  imageCache : Table String CachedImage
  gifPlayback : Table String GifPlayback
  animatedGpu : Table String AnimatedGpu
  lightboxFull : Table String CachedImage
  videoThumbs : Table String Image
  models : Table String LoadedModel
  modelThumbs : Table String Image
  lru : LruState
  pinned : Finset String

/-- The candidates of one map. -/
def candidatesOf {β : Type} (kind : MediaKind) (lastUsed : Table (MediaKind × String) Nat)
    (cpu : String → β → Nat) (gpu : String → Nat) (t : Table String β) : List EvictionCandidate :=
  t.toPairs.map fun e =>
    { kind := kind
      id := e.1
      lastUsed := (lastUsed.get (kind, e.1)).getD 0
      cpuBytes := cpu e.1 e.2
      gpuBytes := gpu e.1 }

namespace MediaCache

variable (sizes : SceneSizes)

def imageCandidates (m : MediaCache) : List EvictionCandidate :=
  candidatesOf .image m.lru.lastUsed (fun _ cached => cachedImageCpuBytes cached)
    (fun id => (m.animatedGpu.get id).elim 0 animatedGpuBytes) m.imageCache

def lightboxCandidates (m : MediaCache) : List EvictionCandidate :=
  candidatesOf .lightboxFull m.lru.lastUsed (fun _ cached => cachedImageCpuBytes cached)
    (fun _ => 0) m.lightboxFull

def thumbCandidates (m : MediaCache) : List EvictionCandidate :=
  candidatesOf .videoThumb m.lru.lastUsed (fun _ thumb => imageBytes thumb) (fun _ => 0)
    m.videoThumbs

def modelCandidates (m : MediaCache) : List EvictionCandidate :=
  candidatesOf .model m.lru.lastUsed
    (fun id model => modelCpuBytes sizes model + (m.modelThumbs.get id).elim 0 imageBytes)
    (fun _ => 0) m.models

/-- What `enforce_budgets_with` collects. -/
def candidates (m : MediaCache) : List EvictionCandidate :=
  m.imageCandidates ++ m.lightboxCandidates ++ m.thumbCandidates ++ m.modelCandidates sizes

def evictEntry (m : MediaCache) (kind : MediaKind) (id : String) : MediaCache :=
  let m := { m with lru := { m.lru with lastUsed := m.lru.lastUsed.del (kind, id) } }
  match kind with
  | .image => { m with
      imageCache := m.imageCache.del id
      gifPlayback := m.gifPlayback.del id
      animatedGpu := m.animatedGpu.del id }
  | .lightboxFull => { m with lightboxFull := m.lightboxFull.del id }
  | .videoThumb => { m with videoThumbs := m.videoThumbs.del id }
  | .model => { m with models := m.models.del id, modelThumbs := m.modelThumbs.del id }

def enforceBudgetsWith (m : MediaCache) (cpuBudget gpuBudget : Nat) : MediaCache :=
  let recentFloor := m.lru.floor
  let m := { m with lru := { m.lru with floor := m.lru.clock } }
  (planEvictions cpuBudget gpuBudget recentFloor m.pinned (m.candidates sizes)).foldl
    (fun m e => m.evictEntry e.1 e.2) m

end MediaCache

/-! ## Evicting a family -/

section CandidatesOf

variable {β : Type} {kind : MediaKind} {lastUsed lastUsed' : Table (MediaKind × String) Nat}
  {cpu cpu' : String → β → Nat} {gpu gpu' : String → Nat} {t : Table String β}

theorem family_candidatesOf :
    (candidatesOf kind lastUsed cpu gpu t).map EvictionCandidate.family =
      (t.toPairs.map Prod.fst).map fun id => (kind, id) := by
  simp [candidatesOf, EvictionCandidate.family, Function.comp_def]

/-- Evicting another family leaves the candidates of a map. -/
theorem candidatesOf_other {gone : MediaKind} {id : String} (hkind : kind ≠ gone) :
    candidatesOf kind (lastUsed.del (gone, id)) cpu gpu t =
      (candidatesOf kind lastUsed cpu gpu t).filter fun c => c.family ≠ (gone, id) := by
  have hstay : candidatesOf kind (lastUsed.del (gone, id)) cpu gpu t =
      candidatesOf kind lastUsed cpu gpu t := by
    unfold candidatesOf
    refine List.map_congr_left fun e _ => ?_
    rw [Table.get_del_ne (by simp [hkind])]
  rw [hstay, List.filter_eq_self.mpr]
  intro c hc
  obtain ⟨e, -, rfl⟩ := List.mem_map.mp hc
  simp [EvictionCandidate.family, hkind]

/-- Evicting a family takes it out of the candidates of its map. -/
theorem candidatesOf_del {id : String} (hcpu : ∀ i ≠ id, cpu' i = cpu i)
    (hgpu : ∀ i ≠ id, gpu' i = gpu i) :
    candidatesOf kind (lastUsed.del (kind, id)) cpu' gpu' (t.del id) =
      (candidatesOf kind lastUsed cpu gpu t).filter fun c => c.family ≠ (kind, id) := by
  unfold candidatesOf
  rw [Table.toPairs_del, List.filter_map]
  have hpred : (fun e : String × β => decide (e.1 ≠ id)) =
      (fun c : EvictionCandidate => decide (c.family ≠ (kind, id))) ∘ fun e =>
        { kind := kind, id := e.1, lastUsed := (lastUsed.get (kind, e.1)).getD 0,
          cpuBytes := cpu e.1 e.2, gpuBytes := gpu e.1 } := by
    funext e
    simp [EvictionCandidate.family]
  rw [← hpred]
  refine List.map_congr_left fun e he => ?_
  have hne : e.1 ≠ id := by simpa using (List.mem_filter.mp he).2
  rw [Table.get_del_ne (by simp [hne]), hcpu e.1 hne, hgpu e.1 hne]

end CandidatesOf

namespace MediaCache

variable {sizes : SceneSizes}

theorem candidates_evictEntry (m : MediaCache) (kind : MediaKind) (id : String) :
    (m.evictEntry kind id).candidates sizes =
      (m.candidates sizes).filter fun c => c.family ≠ (kind, id) := by
  unfold candidates
  rw [List.filter_append, List.filter_append, List.filter_append]
  congr 1
  · congr 1
    · congr 1
      · cases kind
        · exact candidatesOf_del (fun _ _ => rfl) fun i hi => by
            simp only [evictEntry, Table.get_del_ne hi]
        all_goals exact candidatesOf_other (by decide)
      · cases kind
        case lightboxFull => exact candidatesOf_del (fun _ _ => rfl) fun _ _ => rfl
        all_goals exact candidatesOf_other (by decide)
    · cases kind
      case videoThumb => exact candidatesOf_del (fun _ _ => rfl) fun _ _ => rfl
      all_goals exact candidatesOf_other (by decide)
  · cases kind
    case model =>
      refine candidatesOf_del (fun i hi => ?_) fun _ _ => rfl
      simp only [evictEntry, Table.get_del_ne hi]
    all_goals exact candidatesOf_other (by decide)

theorem candidates_foldl_evictEntry (evict : List (MediaKind × String)) : ∀ m : MediaCache,
    (evict.foldl (fun m e => m.evictEntry e.1 e.2) m).candidates sizes =
      (m.candidates sizes).filter fun c => c.family ∉ evict := by
  induction evict with
  | nil => intro m; simp
  | cons e evict ih =>
    intro m
    rw [List.foldl_cons, ih, candidates_evictEntry, List.filter_filter]
    congr 1
    funext c
    simp only [List.mem_cons, not_or, ne_eq, Prod.mk.eta, Bool.decide_and]
    rw [Bool.and_comm]

/-- The families of the cache are distinct. -/
theorem nodup_families (m : MediaCache) :
    ((m.candidates sizes).map EvictionCandidate.family).Nodup := by
  have hmap : ∀ (kind : MediaKind) (ids : List String), ids.Nodup →
      (ids.map fun id => (kind, id)).Nodup := by
    intro kind ids h
    exact h.map fun a b hab => (Prod.mk.inj hab).2
  have hapart : ∀ (l : List (MediaKind × String)) (kind : MediaKind) (ids : List String),
      (∀ e ∈ l, e.1 ≠ kind) → l.Disjoint (ids.map fun id => (kind, id)) := by
    intro l kind ids hl e he he'
    obtain ⟨id, -, rfl⟩ := List.mem_map.mp he'
    exact hl _ he rfl
  unfold candidates imageCandidates lightboxCandidates thumbCandidates modelCandidates
  simp only [List.map_append, family_candidatesOf]
  refine List.Nodup.append (List.Nodup.append (List.Nodup.append ?_ ?_ ?_) ?_ ?_) ?_ ?_
  case refine_3 | refine_5 | refine_7 =>
    apply hapart
    intro e he
    simp only [List.mem_append, List.mem_map] at he
    grind
  all_goals exact hmap _ _ (Table.nodup_keys _)

/-- **A pass evicts by the plan and fits the budgets where it can.** `chosen` leave the cache and
`kept` are what is left of it; what is pinned or was used since the last pass stays. -/
theorem enforceBudgetsWith_spec (m : MediaCache) (cpuBudget gpuBudget : Nat) :
    ∃ chosen, EvictionPlan cpuBudget gpuBudget m.lru.floor m.pinned (m.candidates sizes) chosen
        ((m.enforceBudgetsWith sizes cpuBudget gpuBudget).candidates sizes) := by
  obtain ⟨chosen, kept, hplan, hsub, hspec⟩ := planEvictions_plan cpuBudget gpuBudget m.lru.floor
    m.pinned (m.candidates sizes)
  refine ⟨chosen, ?_⟩
  have hleft : (m.enforceBudgetsWith sizes cpuBudget gpuBudget).candidates sizes =
      (m.candidates sizes).filter fun c => c.family ∉ chosen.map EvictionCandidate.family := by
    unfold enforceBudgetsWith
    rw [candidates_foldl_evictEntry, ← hplan]
    rfl
  have hkept : kept.Perm ((m.candidates sizes).filter fun c =>
      c.family ∉ chosen.map EvictionCandidate.family) := by
    have hdistinct := (hspec.split.map EvictionCandidate.family).nodup_iff.mpr m.nodup_families
    rw [List.map_append] at hdistinct
    refine List.Perm.trans (List.Perm.of_eq ?_) (hspec.split.filter _)
    rw [List.filter_append, List.filter_eq_nil_iff.mpr, List.nil_append, List.filter_eq_self.mpr]
    · intro c hc
      exact decide_eq_true fun hin =>
        (List.nodup_append.mp hdistinct).2.2 _ hin _ (List.mem_map_of_mem hc) rfl
    · intro c hc hnot
      exact of_decide_eq_true hnot (List.mem_map_of_mem hc)
  rw [hleft]
  exact hspec.of_perm hkept

end MediaCache

end Rumble.Damascene
