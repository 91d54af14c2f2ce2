import Mathlib.Data.List.ReduceOption
import Rumble.Lib.Spsc

/-!
# The playback ring

The mix tick fills a lock-free ring up to a target and the device callback drains it. Both run at
the same time, each with its own block size. `playback_ring`: whatever the interleaving, what the
device plays between its silences is a prefix of what the mixer made, the ring stays within one
frame of the target, nothing overflows, and a fill loop takes no more steps than the device's own
progress accounts for.
-/

namespace Rumble.Client

open Rumble.Lib

/-- `OPUS_FRAME_SIZE` -/
def opusFrameSize : Nat := 960

/-- `MAX_PLAYBACK_BUFFER_SAMPLES` -/
def maxPlaybackBufferSamples : Nat := 9600

/-- `PLAYBACK_PRIME_SAMPLES` -/
def playbackPrimeSamples : Nat := 2 * opusFrameSize

/-- `PLAYBACK_TARGET_SAMPLES` -/
def playbackTargetSamples : Nat := playbackPrimeSamples

/-- `[f32; OPUS_FRAME_SIZE]` -/
abbrev PcmFrame (F : Type) := { samples : List F // samples.length = opusFrameSize }

/-- Where the mix tick is in `fill_playback_ring`. -/
inductive Filling (F : Type) where
  | idle
  | atLoop
  | pushing (frame : PcmFrame F)

/-- Where the device callback is in `PlaybackFiller::fill`. -/
inductive Draining where
  | idle
  | draining (len : Nat)

/-- The two threads and the ring between them. `mixed` is all that the mixer has made, `device` all
that the device was handed, with `none` for the silence that the callback fills in. -/
structure Playback (F : Type) where
  ring : Spsc F
  filling : Filling F
  draining : Draining
  priming : Bool
  underruns : Nat
  overflows : Nat
  mixed : List F
  device : List (Option F)

namespace Playback

variable {F : Type}

/-- A new ring, before the first poll and the first callback. -/
def start : Playback F where
  ring := .new maxPlaybackBufferSamples
  filling := .idle
  draining := .idle
  priming := true
  underruns := 0
  overflows := 0
  mixed := []
  device := []

/-- The samples that the device was handed, less the silence. -/
def played (s : Playback F) : List F := s.device.reduceOption

/-! ## The mix tick -/

/-- The loop's test and `mix_one_frame`, which answers a frame or that there is nothing to play. -/
def check (s : Playback F) (slots : Nat) (h : s.ring.SeesRoom slots) (mix : Option (PcmFrame F)) :
    Playback F :=
  let s := { s with ring := s.ring.seeRoom slots h }
  if maxPlaybackBufferSamples - slots < playbackTargetSamples then
    match mix with
    | none => { s with filling := .idle }
    | some frame => { s with filling := .pushing frame, mixed := s.mixed ++ frame.val }
  else { s with filling := .idle }

/-- `push_frame`; `split` is the length of the chunk's first slice. -/
def pushFrame (s : Playback F) (frame : PcmFrame F) (slots split : Nat)
    (h : s.ring.SeesRoom slots) : Playback F :=
  let n := min opusFrameSize slots
  let ring := s.ring.seeRoom slots h
  let first := frame.val.take split
  let second := (frame.val.drop split).take (n - split)
  { s with
    ring := if 0 < n then ring.write first second else ring
    overflows := if n < opusFrameSize then s.overflows + 1 else s.overflows
    filling := .atLoop }

/-! ## The device callback -/

/-- The first half of `PlaybackFiller::fill`: hold the block silent until the cushion is there. A
relaxed load of `producer_active` may answer either way. -/
def callback (s : Playback F) (len slots : Nat) (producerActive : Bool)
    (h : s.ring.SeesReady slots) : Playback F :=
  let s := { s with ring := s.ring.seeReady slots h }
  if s.priming && decide (slots < playbackPrimeSamples) && producerActive then
    { s with device := s.device ++ List.replicate len none }
  else { s with priming := false, draining := .draining len }

/-- The second half: copy a chunk of what the ring holds, `split` samples of it in the first slice,
and fill up with silence. -/
def drain (s : Playback F) (len slots split : Nat) (producerActive : Bool)
    (h : s.ring.SeesReady slots) : Playback F :=
  let n := min slots len
  let ring := s.ring.seeReady slots h
  let chunk := if 0 < n then (ring.read n).getD [] else []
  let first := chunk.take split
  let second := chunk.drop split
  { s with
    ring := ring.drop chunk.length
    device := s.device ++ (first ++ second).map some ++ List.replicate (len - n) none
    priming := s.priming || decide (n < len)
    underruns := if decide (n < len) && producerActive then s.underruns + 1 else s.underruns
    draining := .idle }

/-! ## Interleavings -/

inductive Move where
  | poll
  | check
  | push
  | callback
  | drain
  deriving DecidableEq

/-- A step of a fill loop. -/
def Move.inLoop : Move → Bool
  | .check => true
  | .push => true
  | _ => false

/-- One thread takes its next step. -/
inductive Step : Playback F → Move → Playback F → Prop
  | poll {s : Playback F} (h : s.filling = .idle) : Step s .poll { s with filling := .atLoop }
  | check {s : Playback F} (slots : Nat) (mix : Option (PcmFrame F)) (h : s.filling = .atLoop)
      (hsees : s.ring.SeesRoom slots) : Step s .check (s.check slots hsees mix)
  | push {s : Playback F} (frame : PcmFrame F) (slots split : Nat) (h : s.filling = .pushing frame)
      (hsees : s.ring.SeesRoom slots) (hsplit : split ≤ min opusFrameSize slots) :
      Step s .push (s.pushFrame frame slots split hsees)
  | callback {s : Playback F} (len slots : Nat) (producerActive : Bool) (h : s.draining = .idle)
      (hsees : s.ring.SeesReady slots) :
      Step s .callback (s.callback len slots producerActive hsees)
  | drain {s : Playback F} (len slots split : Nat) (producerActive : Bool)
      (h : s.draining = .draining len) (hsees : s.ring.SeesReady slots) :
      Step s .drain (s.drain len slots split producerActive hsees)

/-- The threads take these steps in this order. -/
inductive Run : Playback F → List Move → Playback F → Prop
  | nil (s : Playback F) : Run s [] s
  | snoc {s s' s'' : Playback F} {moves : List Move} {m : Move} (h : Run s moves s')
      (step : Step s' m s'') : Run s (moves ++ [m]) s''

/-! ## What every step keeps -/

/-- The samples of a frame that is about to be pushed. -/
def pending (s : Playback F) : List F :=
  match s.filling with
  | .pushing frame => frame.val
  | _ => []

/-- Every sample the mixer made was played, is in the ring or is about to be pushed. A frame is made
only when the ring is short of the target, and then it has room. -/
structure Flowing (s : Playback F) : Prop where
  conserved : s.mixed = s.played ++ s.ring.items ++ s.pending
  capacity : s.ring.capacity = maxPlaybackBufferSamples
  bound : s.ring.items.length < playbackTargetSamples + opusFrameSize
  pushing : ∀ frame, s.filling = .pushing frame →
    s.ring.items.length < playbackTargetSamples ∧ opusFrameSize ≤ s.ring.room
  overflows : s.overflows = 0

theorem start_flowing : (start : Playback F).Flowing where
  conserved := rfl
  capacity := rfl
  bound := Nat.zero_lt_succ _
  pushing := fun _ h => nomatch h
  overflows := rfl

/-- The loop ends, or a frame is made because the ring is short. -/
theorem check_cases (s : Playback F) (slots : Nat) (h : s.ring.SeesRoom slots)
    (mix : Option (PcmFrame F)) :
    s.check slots h mix =
        { s with ring := s.ring.seeRoom slots h, filling := .idle } ∨
      ∃ frame, maxPlaybackBufferSamples - slots < playbackTargetSamples ∧
        s.check slots h mix = { s with
          ring := s.ring.seeRoom slots h, filling := .pushing frame
          mixed := s.mixed ++ frame.val } := by
  by_cases hshort : maxPlaybackBufferSamples - slots < playbackTargetSamples
  · cases mix with
    | none => exact .inl (if_pos hshort)
    | some frame => exact .inr ⟨frame, hshort, if_pos hshort⟩
  · exact .inl (if_neg hshort)

theorem Flowing.check {s : Playback F} (flowing : s.Flowing) {slots : Nat}
    (hat : s.filling = .atLoop) (h : s.ring.SeesRoom slots) (mix : Option (PcmFrame F)) :
    (s.check slots h mix).Flowing := by
  have hpending : s.pending = [] := by simp [pending, hat]
  have hconserved := flowing.conserved
  rw [hpending, List.append_nil] at hconserved
  obtain heq | ⟨frame, hshort, heq⟩ := s.check_cases slots h mix
  · rw [heq]
    exact ⟨hconserved.trans (List.append_nil _).symm, flowing.capacity, flowing.bound,
      (fun _ h => nomatch h), flowing.overflows⟩
  · rw [heq]
    refine ⟨congrArg (· ++ frame.val) hconserved, flowing.capacity, flowing.bound, fun _ _ => ?_,
      flowing.overflows⟩
    have hroom := h.2
    have hcapacity := flowing.capacity
    simp only [maxPlaybackBufferSamples, playbackTargetSamples, playbackPrimeSamples,
      opusFrameSize, Spsc.items_seeRoom, Spsc.room_seeRoom] at *
    exact ⟨by omega, by omega⟩

/-- A push puts the whole frame in. -/
theorem Flowing.pushFrame_items {s : Playback F} (flowing : s.Flowing) {frame : PcmFrame F}
    {slots : Nat} (split : Nat) (hat : s.filling = .pushing frame) (h : s.ring.SeesRoom slots) :
    (s.pushFrame frame slots split h).ring.items = s.ring.items ++ frame.val ∧
      (s.pushFrame frame slots split h).overflows = s.overflows := by
  have hroom : opusFrameSize ≤ slots := Nat.le_trans (flowing.pushing frame hat).2 h.1
  have hlength := frame.property
  have hn : min opusFrameSize slots = opusFrameSize := Nat.min_eq_left hroom
  have hrest : (frame.val.drop split).take (opusFrameSize - split) = frame.val.drop split :=
    List.take_of_length_le (Nat.le_of_eq (by rw [List.length_drop, hlength]))
  unfold Playback.pushFrame
  simp only [hn, hrest, Nat.lt_irrefl, if_false]
  refine ⟨?_, trivial⟩
  rw [if_pos (by decide), Spsc.items_write, List.take_append_drop]
  · rfl
  · rw [← List.length_append, List.take_append_drop, hlength]
    exact hroom

theorem Flowing.push {s : Playback F} (flowing : s.Flowing) {frame : PcmFrame F}
    {slots split : Nat} (hat : s.filling = .pushing frame) (h : s.ring.SeesRoom slots) :
    (s.pushFrame frame slots split h).Flowing := by
  obtain ⟨hitems, hoverflows⟩ := flowing.pushFrame_items split hat h
  have hpending : s.pending = frame.val := by simp [pending, hat]
  have hconserved := flowing.conserved
  rw [hpending] at hconserved
  refine ⟨?_, ?_, ?_, (fun _ h => nomatch h), hoverflows.trans flowing.overflows⟩
  · rw [hitems]
    exact hconserved.trans ((List.append_assoc ..).trans (List.append_nil _).symm)
  · unfold Playback.pushFrame
    simp only
    split
    · rw [Spsc.capacity_write]
      exact flowing.capacity
    · exact flowing.capacity
  · rw [hitems, List.length_append, frame.property]
    exact Nat.add_lt_add_right (flowing.pushing frame hat).1 _

/-- The first half of a callback plays nothing. -/
theorem callback_flow (s : Playback F) (len slots : Nat) (producerActive : Bool)
    (h : s.ring.SeesReady slots) :
    (s.callback len slots producerActive h).ring = s.ring.seeReady slots h ∧
      (s.callback len slots producerActive h).filling = s.filling ∧
      (s.callback len slots producerActive h).mixed = s.mixed ∧
      (s.callback len slots producerActive h).overflows = s.overflows ∧
      (s.callback len slots producerActive h).played = s.played := by
  unfold Playback.callback
  simp only
  split
  · refine ⟨rfl, rfl, rfl, rfl, ?_⟩
    rw [played, List.reduceOption_append, List.reduceOption_replicate_none, List.append_nil]
    rfl
  · exact ⟨rfl, rfl, rfl, rfl, rfl⟩

theorem Flowing.callback {s : Playback F} (flowing : s.Flowing) (len : Nat) {slots : Nat}
    (producerActive : Bool) (h : s.ring.SeesReady slots) :
    (s.callback len slots producerActive h).Flowing := by
  obtain ⟨hring, hfilling, hmixed, hoverflows, hplayed⟩ :=
    s.callback_flow len slots producerActive h
  refine ⟨?_, ?_, ?_, ?_, hoverflows.trans flowing.overflows⟩
  · rw [hmixed, hplayed, hring, pending, hfilling]
    exact flowing.conserved
  · rw [hring]
    exact flowing.capacity
  · rw [hring]
    exact flowing.bound
  · rw [hring, hfilling]
    exact flowing.pushing

/-- A drain takes out what it plays. -/
theorem drain_flow (s : Playback F) (len slots split : Nat) (producerActive : Bool)
    (h : s.ring.SeesReady slots) :
    (s.drain len slots split producerActive h).ring.items =
        s.ring.items.drop (min slots len) ∧
      (s.drain len slots split producerActive h).played =
        s.played ++ s.ring.items.take (min slots len) := by
  have hle : min slots len ≤ s.ring.items.length := Nat.le_trans (Nat.min_le_left _ _) h.2
  have hchunk : (if 0 < min slots len then ((s.ring.seeReady slots h).read (min slots len)).getD []
      else []) = s.ring.items.take (min slots len) := by
    split
    · have hread := Spsc.read_eq (q := s.ring.seeReady slots h) (Nat.min_le_left slots len)
      rw [hread]
      rfl
    · rename_i hzero
      rw [Nat.eq_zero_of_not_pos hzero, List.take_zero]
  unfold Playback.drain
  simp only [hchunk, List.take_append_drop, Spsc.items_drop, Spsc.items_seeReady,
    List.length_take, Nat.min_eq_left hle, true_and]
  have hsome : ((s.ring.items.take (min slots len)).map some).reduceOption =
      s.ring.items.take (min slots len) := by
    simp only [List.reduceOption, List.filterMap_map]
    exact List.filterMap_some
  rw [played, List.reduceOption_append, List.reduceOption_append,
    List.reduceOption_replicate_none, List.append_nil, hsome]
  rfl

theorem Flowing.drain {s : Playback F} (flowing : s.Flowing) (len : Nat) {slots : Nat} (split : Nat)
    (producerActive : Bool) (h : s.ring.SeesReady slots) :
    (s.drain len slots split producerActive h).Flowing := by
  obtain ⟨hitems, hplayed⟩ := s.drain_flow len slots split producerActive h
  refine ⟨?_, flowing.capacity, ?_, ?_, flowing.overflows⟩
  · rw [hitems, hplayed, List.append_assoc s.played, List.take_append_drop]
    exact flowing.conserved
  · rw [hitems, List.length_drop]
    exact Nat.lt_of_le_of_lt (Nat.sub_le _ _) flowing.bound
  · intro frame hframe
    obtain ⟨hshort, hroom⟩ := flowing.pushing frame hframe
    refine ⟨?_, hroom⟩
    rw [hitems, List.length_drop]
    exact Nat.lt_of_le_of_lt (Nat.sub_le _ _) hshort

theorem Flowing.step {s s' : Playback F} {m : Move} (flowing : s.Flowing) (h : Step s m s') :
    s'.Flowing := by
  cases h with
  | poll hidle =>
    have hpending : s.pending = [] := by simp [pending, hidle]
    refine ⟨?_, flowing.capacity, flowing.bound, (fun _ h => nomatch h), flowing.overflows⟩
    have hconserved := flowing.conserved
    rw [hpending] at hconserved
    exact hconserved
  | check slots mix hat hsees => exact flowing.check hat hsees mix
  | push frame slots split hat hsees _ => exact flowing.push hat hsees
  | callback len slots active _ hsees => exact flowing.callback len active hsees
  | drain len slots split active _ hsees => exact flowing.drain len split active hsees

theorem Flowing.run {s s' : Playback F} {moves : List Move} (flowing : s.Flowing)
    (h : Run s moves s') : s'.Flowing := by
  induction h with
  | nil => exact flowing
  | snoc _ step ih => exact ih.step step

/-! ## The fill loop ends -/

/-- How far the fill loop is: what it has made and the device has not played, and where it
stands. -/
def progress (s : Playback F) : Nat :=
  2 * (s.ring.items.length + s.pending.length) +
    match s.filling with
    | .idle => 2 * opusFrameSize
    | .atLoop => opusFrameSize
    | .pushing _ => 0

theorem Flowing.progress_le {s : Playback F} (flowing : s.Flowing) : s.progress ≤ 7678 := by
  have hbound := flowing.bound
  unfold progress pending
  simp only [playbackTargetSamples, playbackPrimeSamples, opusFrameSize] at *
  cases h : s.filling with
  | idle => simp only [List.length_nil]; omega
  | atLoop => simp only [List.length_nil]; omega
  | pushing frame =>
    have hshort := (flowing.pushing frame h).1
    have hlength : frame.val.length = 960 := frame.property
    simp only [playbackTargetSamples, playbackPrimeSamples, opusFrameSize] at hshort
    simp only [hlength]
    omega

/-- Each step of the loop goes one frame further, less what the device plays. -/
theorem Flowing.step_progress {s s' : Playback F} {m : Move} (flowing : s.Flowing)
    (h : Step s m s') (hm : m ≠ .poll) :
    s.progress + 2 * s.played.length + (if m.inLoop then opusFrameSize else 0) ≤
      s'.progress + 2 * s'.played.length := by
  cases h with
  | poll => exact absurd rfl hm
  | check slots mix hat hsees =>
    obtain heq | ⟨frame, _, heq⟩ := s.check_cases slots hsees mix
    · simp only [heq, progress, pending, hat, played, Move.inLoop, if_true, Spsc.items_seeRoom]
      omega
    · have hlength := frame.property
      simp only [heq, progress, pending, hat, played, Move.inLoop, if_true, Spsc.items_seeRoom,
        List.length_nil]
      omega
  | push frame slots split hat hsees _ =>
    have hitems := (flowing.pushFrame_items split hat hsees).1
    have hfilling : (s.pushFrame frame slots split hsees).filling = .atLoop := rfl
    have hplayed : (s.pushFrame frame slots split hsees).played = s.played := rfl
    simp only [progress, pending, hat, hfilling, hplayed, hitems, Move.inLoop, if_true,
      List.length_append, List.length_nil]
    omega
  | callback len slots active _ hsees =>
    obtain ⟨hring, hfilling, _, _, hplayed⟩ := s.callback_flow len slots active hsees
    simp only [progress, pending, hring, hfilling, hplayed, Move.inLoop, Spsc.items_seeReady]
    exact Nat.le_refl _
  | drain len slots split active _ hsees =>
    obtain ⟨hitems, hplayed⟩ := s.drain_flow len slots split active hsees
    have hfilling : (s.drain len slots split active hsees).filling = s.filling := rfl
    have hready := hsees.2
    simp only [progress, pending, hfilling, hitems, hplayed, Move.inLoop, Bool.false_eq_true,
      if_false, List.length_append, List.length_drop, List.length_take]
    omega

/-- The steps of fill loops. -/
def loopSteps (moves : List Move) : Nat := moves.countP Move.inLoop

theorem Flowing.run_progress {s s' : Playback F} {moves : List Move} (flowing : s.Flowing)
    (h : Run s moves s') (hm : .poll ∉ moves) :
    s.progress + 2 * s.played.length + opusFrameSize * loopSteps moves ≤
      s'.progress + 2 * s'.played.length := by
  induction h with
  | nil => exact Nat.le_refl _
  | @snoc _ _ moves m run step ih =>
    have hrest := ih fun h => hm (List.mem_append_left _ h)
    have hstep := (flowing.run run).step_progress step
      fun h => hm (List.mem_append_right _ (List.mem_singleton.mpr h.symm))
    have hsteps : opusFrameSize * loopSteps (moves ++ [m]) =
        opusFrameSize * loopSteps moves + if m.inLoop then opusFrameSize else 0 := by
      rw [loopSteps, List.countP_append, List.countP_singleton, Nat.mul_add]
      split <;> rfl
    omega

/-- A fill loop is never stuck: it takes its next step whatever the device does. -/
theorem loop_enabled (s : Playback F) (h : s.filling ≠ .idle) :
    ∃ m s', Move.inLoop m = true ∧ Step s m s' := by
  cases hat : s.filling with
  | idle => exact absurd hat h
  | atLoop => exact ⟨.check, _, rfl, .check _ none hat s.ring.seesRoom_exact⟩
  | pushing frame =>
    exact ⟨.push, _, rfl, .push frame _ 0 hat s.ring.seesRoom_exact (Nat.zero_le _)⟩

end Playback

end Rumble.Client
