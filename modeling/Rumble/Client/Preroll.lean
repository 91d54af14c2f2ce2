import Rumble.Client.AudioTask
import Rumble.Lib.RingBuffer
import Rumble.Lib.Trailing

/-!
# The slots of the pre-roll ring

`rumble-client/src/preroll.rs` as it is written: slots that are allocated once, the oldest of them
and how many are in use. `preroll_ring` says what the ring holds and emits over any pushes and
flushes; the ring of consecutive frames that the audio task keeps is the same ring with its slots
out of sight.
-/

namespace Rumble.Client.Preroll

open Rumble.Lib

variable {σ : Type}

structure Slot (σ : Type) where
  timestampUs : Nat
  samples : σ
  deriving DecidableEq

/-- `frameUs` is the step between consecutive frames. -/
structure PreRollRing (σ : Type) extends RingBuffer (Slot σ) where
  frameUs : Nat

namespace PreRollRing

/-- Every slot is there from the start, with an empty buffer. -/
def new (capacity frameUs : Nat) (empty : σ) : PreRollRing σ where
  toRingBuffer := .new (.replicate capacity { timestampUs := 0, samples := empty })
  frameUs := frameUs

variable (ring : PreRollRing σ)

def newestTimestamp : Option Nat := ring.newest.map Slot.timestampUs

/-- A frame that does not follow the newest one resets the ring before it is stashed. -/
def kept (timestampUs : Nat) : RingBuffer (Slot σ) :=
  if ring.newestTimestamp.any fun newest => newest + ring.frameUs != timestampUs then ring.clear
  else ring.toRingBuffer

@[simp] theorem capacity_kept (timestampUs : Nat) :
    (ring.kept timestampUs).capacity = ring.capacity := by
  unfold kept
  split <;> rfl

/-- Stash a suppressed frame. -/
def push (timestampUs : Nat) (samples : σ) : PreRollRing σ :=
  if h : 0 < ring.capacity then
    { toRingBuffer := (ring.kept timestampUs).push { timestampUs, samples } (by simpa using h)
      frameUs := ring.frameUs }
  else ring

/-- What is emitted, oldest first, and the ring afterwards. -/
def flushInto (currentTimestampUs : Nat) : List (Slot σ) × PreRollRing σ :=
  (if ring.newestTimestamp.any fun newest => newest + ring.frameUs == currentTimestampUs then
    ring.items else [], { ring with toRingBuffer := ring.clear })

/-! ## By the list of what it holds -/

theorem newestTimestamp_eq : ring.newestTimestamp = ring.items.getLast?.map Slot.timestampUs := by
  rw [newestTimestamp, RingBuffer.newest_eq]

@[simp] theorem frameUs_push (timestampUs : Nat) (samples : σ) :
    (ring.push timestampUs samples).frameUs = ring.frameUs := by
  unfold push
  split <;> rfl

@[simp] theorem capacity_push (timestampUs : Nat) (samples : σ) :
    (ring.push timestampUs samples).capacity = ring.capacity := by
  unfold push
  split
  · rename_i h
    have hkept : 0 < (ring.kept timestampUs).capacity := by simpa using h
    exact (RingBuffer.capacity_push _ _ hkept).trans (ring.capacity_kept timestampUs)
  · rfl

theorem items_kept (timestampUs : Nat) : (ring.kept timestampUs).items =
    if ring.newestTimestamp.all fun newest => newest + ring.frameUs == timestampUs then ring.items
    else [] := by
  have hstale : (ring.newestTimestamp.any fun newest => newest + ring.frameUs != timestampUs) =
      !ring.newestTimestamp.all fun newest => newest + ring.frameUs == timestampUs := by
    cases ring.newestTimestamp with
    | none => rfl
    | some newest => simp [bne]
  unfold kept
  rw [hstale]
  cases ring.newestTimestamp.all fun newest => newest + ring.frameUs == timestampUs <;> rfl

theorem items_push (timestampUs : Nat) (samples : σ) : (ring.push timestampUs samples).items =
    ((ring.kept timestampUs).items ++ [Slot.mk timestampUs samples]).rtake ring.capacity := by
  unfold push
  split
  · rename_i h
    have hkept : 0 < (ring.kept timestampUs).capacity := by simpa using h
    refine (RingBuffer.items_push _ _ hkept).trans ?_
    rw [capacity_kept]
  · rename_i hzero
    have hlen : ring.len ≤ ring.capacity := ring.len_le
    rw [show ring.capacity = 0 by omega, List.rtake_zero]
    apply List.eq_nil_of_length_eq_zero
    rw [RingBuffer.length_items]
    omega

end PreRollRing

/-! ## Runs on the media clock -/

/-- A suppressed frame is pushed, one that is sent flushes the ring first. -/
inductive RingOp (σ : Type) where
  | push (timestampUs : Nat) (samples : σ)
  | flush (currentTimestampUs : Nat)
  deriving DecidableEq

namespace RingOp

def timestampUs : RingOp σ → Nat
  | push timestampUs _ | flush timestampUs => timestampUs

end RingOp

/-- The ring after an operation, and what is transmitted by its timestamps: the flushed frames and
then the live one. -/
def step (ring : PreRollRing σ) : RingOp σ → PreRollRing σ × List Nat
  | .push timestampUs samples => (ring.push timestampUs samples, [])
  | .flush currentTimestampUs => ((ring.flushInto currentTimestampUs).2,
    (ring.flushInto currentTimestampUs).1.map Slot.timestampUs ++ [currentTimestampUs])

def run (ring : PreRollRing σ) (ops : List (RingOp σ)) : PreRollRing σ :=
  ops.foldl (fun ring op => (step ring op).1) ring

/-- The frames that are transmitted, by their timestamps. -/
def transmitted : PreRollRing σ → List (RingOp σ) → List Nat
  | _, [] => []
  | ring, op :: ops => (step ring op).2 ++ transmitted (step ring op).1 ops

/-- The frames pushed since the last flush. -/
def pushed (ops : List (RingOp σ)) : List (Slot σ) :=
  ops.foldl (fun frames op => match op with
    | .push timestampUs samples => frames ++ [⟨timestampUs, samples⟩]
    | .flush _ => []) []

/-- The next frame of the media clock. -/
def follows (frameUs : Nat) (a b : Slot σ) : Bool := a.timestampUs + frameUs == b.timestampUs

/-! ## What the ring holds -/

/-- The newest frames of the latest run of consecutive ones, as many as there are slots. -/
def held (capacity frameUs : Nat) (frames : List (Slot σ)) : List (Slot σ) :=
  (lastChain (follows frameUs) frames).rtake capacity

structure Holds (capacity frameUs : Nat) (frames : List (Slot σ)) (ring : PreRollRing σ) :
    Prop where
  frameUs_eq : ring.frameUs = frameUs
  capacity_eq : ring.capacity = capacity
  items_eq : ring.items = held capacity frameUs frames

section Held

variable {capacity frameUs : Nat} {frames : List (Slot σ)} {ring : PreRollRing σ}

theorem held_increasing (hframe : 0 < frameUs) :
    (held capacity frameUs frames).Pairwise fun a b => a.timestampUs < b.timestampUs := by
  have hchain : (held capacity frameUs frames).IsChain fun a b => a.timestampUs < b.timestampUs :=
    ((isChain_lastChain (follows frameUs) frames).suffix (rtake_suffix _ _)).imp fun a b h => by
      simp only [follows, beq_iff_eq] at h
      omega
  have htrans : IsTrans (Slot σ) fun a b => a.timestampUs < b.timestampUs :=
    ⟨fun _ _ _ hab hbc => hab.trans hbc⟩
  exact List.isChain_iff_pairwise.mp hchain

/-- No frame is newer than the last. -/
theorem le_of_mem_held (hframe : 0 < frameUs) {x last : Slot σ}
    (hx : x ∈ held capacity frameUs frames)
    (hlast : (lastChain (follows frameUs) frames).getLast? = some last) :
    x.timestampUs ≤ last.timestampUs := by
  have hpos : 0 < capacity := by
    rcases Nat.eq_zero_or_pos capacity with rfl | hpos
    · simp [held] at hx
    · exact hpos
  have hend : (held capacity frameUs frames).getLast? = some last := by
    rw [held, getLast?_rtake _ _ hpos, hlast]
  obtain ⟨front, hfront⟩ := List.getLast?_eq_some_iff.mp hend
  have hincreasing := @held_increasing _ capacity _ frames hframe
  rw [hfront] at hx hincreasing
  rcases List.mem_append.mp hx with hx | hx
  · exact ((List.pairwise_append.mp hincreasing).2.2 x hx last List.mem_cons_self).le
  · rw [List.mem_singleton.mp hx]

theorem mem_held_concat {a x : Slot σ} (h : x ∈ held capacity frameUs (frames ++ [a])) :
    x ∈ held capacity frameUs frames ∨ x = a := by
  rw [held, lastChain_concat] at h
  split at h
  · rw [← rtake_concat_rtake] at h
    have hmem := (rtake_suffix _ _).subset h
    simpa [held] using hmem
  · exact .inr (List.mem_singleton.mp ((rtake_suffix _ _).subset h))

/-- With a slot to hold it, the newest frame of the run is the newest item. -/
theorem Holds.newestTimestamp (h : Holds capacity frameUs frames ring) (hpos : 0 < capacity) :
    ring.newestTimestamp =
      (lastChain (follows frameUs) frames).getLast?.map Slot.timestampUs := by
  rw [ring.newestTimestamp_eq, h.items_eq, held, getLast?_rtake _ _ hpos]

theorem Holds.push (h : Holds capacity frameUs frames ring) (timestampUs : Nat) (samples : σ) :
    Holds capacity frameUs (frames ++ [⟨timestampUs, samples⟩])
      (ring.push timestampUs samples) := by
  refine ⟨(ring.frameUs_push _ _).trans h.frameUs_eq, (ring.capacity_push _ _).trans h.capacity_eq, ?_⟩
  rw [ring.items_push, h.capacity_eq, held]
  cases capacity with
  | zero => simp
  | succ n =>
    have hnext : (ring.newestTimestamp.all fun newest => newest + ring.frameUs == timestampUs) =
        (lastChain (follows frameUs) frames).getLast?.all fun last =>
          follows frameUs last ⟨timestampUs, samples⟩ := by
      rw [h.newestTimestamp (Nat.succ_pos n), h.frameUs_eq, Option.all_map]
      rfl
    rw [ring.items_kept, hnext, lastChain_concat, h.items_eq]
    split
    · rw [held, rtake_concat_rtake]
    · rfl

/-- What a flush emits, and that it leaves nothing. -/
theorem Holds.flush (h : Holds capacity frameUs frames ring) (current : Nat) :
    (ring.flushInto current).1 =
        (if (lastChain (follows frameUs) frames).getLast?.any fun last =>
            last.timestampUs + frameUs == current then
          held capacity frameUs frames else []) ∧
      Holds capacity frameUs [] (ring.flushInto current).2 := by
  refine ⟨?_, h.frameUs_eq, h.capacity_eq, by simp [PreRollRing.flushInto, held, lastChain]⟩
  rw [PreRollRing.flushInto, h.items_eq]
  rcases Nat.eq_zero_or_pos capacity with rfl | hpos
  · simp [held]
  · rw [h.newestTimestamp hpos, h.frameUs_eq, Option.any_map]

theorem holds_new (capacity frameUs : Nat) (empty : σ) :
    Holds capacity frameUs [] (.new capacity frameUs empty) :=
  ⟨rfl, List.length_replicate, by simp [PreRollRing.new, held, lastChain]⟩

theorem Holds.run (ops : List (RingOp σ)) (capacity frameUs : Nat) (empty : σ) :
    Holds capacity frameUs (pushed ops) (run (.new capacity frameUs empty) ops) := by
  induction ops using List.reverseRecOn with
  | nil => exact holds_new capacity frameUs empty
  | append_singleton ops op ih =>
    rw [pushed, Preroll.run, List.foldl_append, List.foldl_append]
    cases op with
    | push timestampUs samples => exact ih.push timestampUs samples
    | flush current => exact (ih.flush current).2

/-! ## What is transmitted -/

/-- What a flush transmits, the live frame last. -/
theorem Holds.transmits (h : Holds capacity frameUs frames ring) (hframe : 0 < frameUs)
    (current : Nat) :
    ∃ emitted, (step ring (.flush current)).2 = emitted ++ [current] ∧
      emitted.Pairwise (· < ·) ∧
      ∀ n ∈ emitted, n < current ∧ n ∈ (held capacity frameUs frames).map Slot.timestampUs := by
  refine ⟨(ring.flushInto current).1.map Slot.timestampUs, rfl, ?_⟩
  rw [(h.flush current).1]
  split
  · rename_i hnext
    refine ⟨List.pairwise_map.mpr (held_increasing hframe), fun n hn => ⟨?_, hn⟩⟩
    obtain ⟨x, hx, rfl⟩ := List.mem_map.mp hn
    cases hlast : (lastChain (follows frameUs) frames).getLast? with
    | none =>
      rw [hlast] at hnext
      exact absurd hnext Bool.false_ne_true
    | some last =>
      have hle := le_of_mem_held hframe hx hlast
      rw [hlast, Option.any_some, beq_iff_eq] at hnext
      omega
  · exact ⟨.nil, by simp⟩

/-- Nothing that is transmitted lies before what is held and what is to come. -/
theorem Holds.lt_transmitted (h : Holds capacity frameUs frames ring) (hframe : 0 < frameUs)
    {bound : Nat} {ops : List (RingOp σ)}
    (hheld : ∀ x ∈ held capacity frameUs frames, bound < x.timestampUs)
    (hops : ∀ op ∈ ops, bound < op.timestampUs) : ∀ n ∈ transmitted ring ops, bound < n := by
  induction ops generalizing frames ring with
  | nil => exact fun n hn => absurd hn List.not_mem_nil
  | cons op ops ih =>
    have hop := hops op List.mem_cons_self
    have hrest : ∀ op ∈ ops, bound < op.timestampUs :=
      fun op hmem => hops op (List.mem_cons_of_mem _ hmem)
    intro n hn
    rcases List.mem_append.mp hn with hn | hn
    · cases op with
      | push timestampUs samples => exact absurd hn List.not_mem_nil
      | flush current =>
        obtain ⟨emitted, heq, -, hemitted⟩ := h.transmits hframe current
        rw [heq] at hn
        rcases List.mem_append.mp hn with hn | hn
        · obtain ⟨x, hx, rfl⟩ := List.mem_map.mp (hemitted n hn).2
          exact hheld x hx
        · rw [List.mem_singleton.mp hn]
          exact hop
    · cases op with
      | push timestampUs samples =>
        refine ih (h.push timestampUs samples) (fun x hx => ?_) hrest n hn
        rcases mem_held_concat hx with hx | rfl
        · exact hheld x hx
        · exact hop
      | flush current =>
        exact ih (h.flush current).2 (fun x hx => by simp [held, lastChain] at hx) hrest n hn

/-- While the media clock runs on, what is transmitted does too. -/
theorem Holds.transmitted_increasing (h : Holds capacity frameUs frames ring)
    (hframe : 0 < frameUs) {ops : List (RingOp σ)}
    (hops : (ops.map RingOp.timestampUs).Pairwise (· < ·)) :
    (transmitted ring ops).Pairwise (· < ·) := by
  induction ops generalizing frames ring with
  | nil => exact .nil
  | cons op ops ih =>
    obtain ⟨hlater, hrest⟩ := List.pairwise_cons.mp hops
    cases op with
    | push timestampUs samples => exact ih (h.push timestampUs samples) hrest
    | flush current =>
      have hempty := (h.flush current).2
      obtain ⟨emitted, heq, hemitted, hbefore⟩ := h.transmits hframe current
      rw [transmitted, heq]
      refine List.pairwise_append.mpr ⟨?_, ih hempty hrest, fun a ha b hb => ?_⟩
      · refine List.pairwise_append.mpr ⟨hemitted, List.pairwise_singleton _ _, fun a ha b hb => ?_⟩
        rw [List.mem_singleton.mp hb]
        exact (hbefore a ha).1
      · have hafter : current < b := by
          refine hempty.lt_transmitted hframe (fun x hx => by simp [held, lastChain] at hx)
            (fun op hop => ?_) b hb
          exact hlater op.timestampUs (List.mem_map_of_mem hop)
        rcases List.mem_append.mp ha with ha | ha
        · exact (hbefore a ha).1.trans hafter
        · rw [List.mem_singleton.mp ha]
          exact hafter

end Held

/-- **The pre-roll ring**: after any pushes and flushes it holds the newest frames of the latest run
of consecutive ones, no more than there are slots; a flush emits exactly these, oldest first, when
the run ends right before the live frame and nothing otherwise, and leaves the ring empty; and from
any such ring on, while the media clock runs on, the transmitted frames are in order and none
twice. -/
theorem preroll_ring (capacity frameUs : Nat) (hframe : 0 < frameUs) (empty : σ) :
    (∀ ops, ∃ latest, latest <:+ pushed ops ∧
      latest.IsChain (fun a b => a.timestampUs + frameUs = b.timestampUs) ∧
      (∀ other, other <:+ pushed ops →
        other.IsChain (fun a b => a.timestampUs + frameUs = b.timestampUs) → other <:+ latest) ∧
      let ring := run (.new capacity frameUs empty) ops
      ring.items = latest.rtake capacity ∧
      ∀ current, (ring.flushInto current).1 =
          (if latest.getLast?.any fun last => last.timestampUs + frameUs == current then
            latest.rtake capacity else []) ∧
        ((ring.flushInto current).1.map Slot.timestampUs).Pairwise (· < ·) ∧
        (ring.flushInto current).2.items = []) ∧
    ∀ before ops, (ops.map RingOp.timestampUs).Pairwise (· < ·) →
      (transmitted (run (.new capacity frameUs empty) before) ops).Pairwise (· < ·) := by
  refine ⟨fun ops => ⟨lastChain (follows frameUs) (pushed ops), lastChain_suffix _ _, ?_, ?_, ?_⟩,
    ?_⟩
  · simpa [follows] using isChain_lastChain (follows frameUs) (pushed ops)
  · intro other hsuffix hchain
    exact suffix_lastChain (follows frameUs) hsuffix (by simpa [follows] using hchain)
  · have hring := Holds.run ops capacity frameUs empty
    refine ⟨hring.items_eq, fun current => ⟨(hring.flush current).1, ?_, rfl⟩⟩
    rw [(hring.flush current).1]
    split
    · exact List.pairwise_map.mpr (held_increasing hframe)
    · exact .nil
  · intro before ops hops
    exact (Holds.run before capacity frameUs empty).transmitted_increasing hframe hops

/-- Frames 3 and 4 are suppressed and then sent ahead of frame 5. -/
theorem preroll_ring_sample :
    (transmitted (run (.new preRollFrames frameUs ()) [.push 20000 (), .push 60000 ()])
      [.push 80000 (), .flush 100000]).Pairwise (· < ·) :=
  (preroll_ring preRollFrames frameUs (by decide) ()).2 _ _ (by decide)

/-- **The media clock starts over with each connection**, and then so do the frames. -/
theorem not_increasing : ¬ ∀ ops : List (RingOp Unit),
    (transmitted (.new preRollFrames frameUs ()) ops).Pairwise (· < ·) := by
  intro h
  have hrestart := h [.flush 120000, .flush 0]
  revert hrestart
  decide

/-! ## The ring of the audio task -/

/-- A slot as the audio task has it: of a frame, the connection at its capture. -/
def Slot.captured (slot : Slot (Option Nat)) : CapturedFrame :=
  { timestampUs := slot.timestampUs, capturedOn := slot.samples }

/-- The same frames, the slots out of sight. -/
structure Shows (ring : PreRollRing (Option Nat)) (frames : Client.PreRollRing) : Prop where
  frameUs_eq : ring.frameUs = frameUs
  capacity_eq : ring.capacity = preRollFrames
  items_eq : ring.items.map Slot.captured = frames.slots

section Shows

variable {ring : PreRollRing (Option Nat)} {frames : Client.PreRollRing}

theorem shows_new : Shows (.new preRollFrames frameUs none) .new :=
  ⟨rfl, List.length_replicate, by simp [PreRollRing.new, Client.PreRollRing.new]⟩

theorem Shows.newestTimestamp (h : Shows ring frames) :
    ring.newestTimestamp = frames.newestTimestamp := by
  rw [ring.newestTimestamp_eq, Client.PreRollRing.newestTimestamp, ← h.items_eq, List.getLast?_map,
    Option.map_map]
  rfl

/-- A push of the slots is a push of the list. -/
theorem Shows.push (h : Shows ring frames) (frame : CapturedFrame) :
    Shows (ring.push frame.timestampUs frame.capturedOn) (frames.push frame) := by
  refine ⟨(ring.frameUs_push _ _).trans h.frameUs_eq, (ring.capacity_push _ _).trans h.capacity_eq, ?_⟩
  have hbound := frames.bounded
  have hpos : 0 < preRollFrames := by decide
  rw [ring.items_push, ring.items_kept, h.newestTimestamp, h.frameUs_eq, h.capacity_eq, map_rtake,
    List.map_append, List.map_singleton]
  show _ = frames.kept frame.timestampUs ++ [frame]
  unfold Client.PreRollRing.kept
  split
  · rw [h.items_eq]
    show (frames.slots ++ [frame]).rtake preRollFrames = _
    rw [List.rtake, List.length_append, List.length_singleton]
    split
    · rename_i hfull
      rw [hfull, List.drop_append_of_le_length (by omega), Nat.add_sub_cancel_left, List.drop_one]
    · rw [Nat.sub_eq_zero_of_le (by omega), List.drop_zero]
  · rfl

theorem Shows.flush (h : Shows ring frames) (timestampUs : Nat) :
    (ring.flushInto timestampUs).1.map Slot.captured = frames.flushed timestampUs ∧
      Shows (ring.flushInto timestampUs).2 .new := by
  refine ⟨?_, h.frameUs_eq, h.capacity_eq, rfl⟩
  rw [PreRollRing.flushInto, h.newestTimestamp, h.frameUs_eq, Client.PreRollRing.flushed,
    ← h.items_eq]
  split <;> rfl

end Shows

end Rumble.Client.Preroll
