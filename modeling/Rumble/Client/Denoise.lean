import Rumble.Client.VadShaper
import Rumble.Lib.Blocks

/-!
# Noise suppression in blocks

RNNoise works on blocks of 480 samples, the capture path hands over frames of any length.
`DenoiseProcessor` collects the input until a block is full and hands out what it has cleaned, with
one block of silence put in front the first time that it cannot keep up. `process_run` says what it
hands out in any order of calls: the cleaned signal, with that one block of silence in it, and
nothing lost or repeated. `gate_reframed` says that the voice gate hears the signal and not its
frames.
-/

namespace Rumble.Client

open Rumble.Lib

/-- `DENOISE_FRAME_SIZE` -/
def denoiseFrameSize : Nat := 480

/-- `nnnoiseless::DenoiseState`, and the sample arithmetic around it: `toI16` and `ofI16` multiply
and divide by 32767. -/
structure Rnnoise (S N α : Type) where
  new : N
  processFrame : N → List S → N × List S × F32 α
  length_processFrame : ∀ n frame, (processFrame n frame).2.1.length = denoiseFrameSize
  zero : S
  toI16 : S → S
  ofI16 : S → S
  zeroProb : F32 α

structure DenoiseSettings (α : Type) where
  denoiseEnabled : Bool
  vadEnabled : Bool
  vadTrigger : F32 α
  vadRelease : F32 α
  vadAttackMs : Nat
  vadHoldoffMs : Nat

namespace DenoiseSettings

variable {α : Type}

/-- Inference runs for the audio or for the gate. -/
def listens (s : DenoiseSettings α) : Bool := s.denoiseEnabled || s.vadEnabled

/-- `shaper_settings` -/
def shaperSettings (s : DenoiseSettings α) : VadShaperSettings α where
  trigger := s.vadTrigger
  release := s.vadRelease
  attackMs := s.vadAttackMs
  holdoffMs := s.vadHoldoffMs

end DenoiseSettings

structure DenoiseProcessor (S N α : Type) where
  denoiseState : N
  inputBuffer : List S
  outputBuffer : List S
  firstFrameDone : Bool
  lastVadProb : F32 α
  settings : DenoiseSettings α
  shaper : VadShaper
  enabled : Bool

/-- `usize::next_multiple_of` -/
def nextMultipleOf (n m : Nat) : Nat := (n + m - 1) / m * m

namespace DenoiseProcessor

variable {S N α : Type} (rnn : Rnnoise S N α)

def withSettings (settings : DenoiseSettings α) : DenoiseProcessor S N α where
  denoiseState := rnn.new
  inputBuffer := []
  outputBuffer := []
  firstFrameDone := false
  lastVadProb := rnn.zeroProb
  settings := settings
  shaper := .new
  enabled := true

/-- One round of the loop of `process`. -/
def processChunk [LinearOrder α] (sampleRate : Nat) (p : DenoiseProcessor S N α) :
    DenoiseProcessor S N α :=
  let scaled := (p.inputBuffer.take denoiseFrameSize).map rnn.toI16
  let result := rnn.processFrame p.denoiseState scaled
  { p with
    denoiseState := result.1
    inputBuffer := p.inputBuffer.drop denoiseFrameSize
    lastVadProb := result.2.2
    shaper := if p.settings.vadEnabled then
        p.shaper.update result.2.2 denoiseFrameSize sampleRate p.settings.shaperSettings
      else p.shaper
    firstFrameDone := true
    -- the first output is muted
    outputBuffer := p.outputBuffer ++
      if p.firstFrameDone then result.2.1.map rnn.ofI16
      else List.replicate denoiseFrameSize rnn.zero }

/-- The loop of `process`. -/
def processChunks [LinearOrder α] (sampleRate : Nat) (p : DenoiseProcessor S N α) :
    DenoiseProcessor S N α :=
  if denoiseFrameSize ≤ p.inputBuffer.length then
    processChunks sampleRate (p.processChunk rnn sampleRate)
  else p
termination_by p.inputBuffer.length
decreasing_by
  show (p.inputBuffer.drop denoiseFrameSize).length < p.inputBuffer.length
  rw [List.length_drop]
  unfold denoiseFrameSize at *
  omega

/-- Silence in front of the stream when the output is short. -/
def padFront (len : Nat) (p : DenoiseProcessor S N α) : DenoiseProcessor S N α :=
  let shortfall := len - p.outputBuffer.length
  if 0 < shortfall then
    { p with
      outputBuffer := List.replicate (nextMultipleOf shortfall denoiseFrameSize) rnn.zero ++
        p.outputBuffer }
  else p

section PadFront

variable (len : Nat) (p : DenoiseProcessor S N α)

@[simp] theorem settings_padFront : (p.padFront rnn len).settings = p.settings := by
  unfold padFront
  dsimp only
  split <;> rfl

@[simp] theorem shaper_padFront : (p.padFront rnn len).shaper = p.shaper := by
  unfold padFront
  dsimp only
  split <;> rfl

end PadFront

/-- `process`: what it leaves in the caller's slice, whether the frame is suppressed, and the new
state. -/
def process [LinearOrder α] (p : DenoiseProcessor S N α) (samples : List S) (sampleRate : Nat) :
    List S × Bool × DenoiseProcessor S N α :=
  if p.settings.listens then
    let filled := { p with inputBuffer := p.inputBuffer ++ samples }
    let p := (filled.processChunks rnn sampleRate).padFront rnn samples.length
    let copied := p.outputBuffer.take samples.length
    let p := { p with outputBuffer := p.outputBuffer.drop samples.length }
    (if p.settings.denoiseEnabled then copied else samples,
      p.settings.vadEnabled && !p.shaper.voiceActive, p)
  else (samples, false, p)

def reset (p : DenoiseProcessor S N α) : DenoiseProcessor S N α :=
  { p with
    denoiseState := rnn.new
    inputBuffer := []
    outputBuffer := []
    firstFrameDone := false
    lastVadProb := rnn.zeroProb
    shaper := p.shaper.reset }

/-- Flipping the gate clears it. -/
def setConfig (p : DenoiseProcessor S N α) (settings : DenoiseSettings α) :
    DenoiseProcessor S N α :=
  { p with
    shaper := if settings.vadEnabled ≠ p.settings.vadEnabled then p.shaper.reset else p.shaper
    settings := settings }

def setEnabled (p : DenoiseProcessor S N α) (enabled : Bool) : DenoiseProcessor S N α :=
  let p := { p with enabled := enabled }
  if enabled then p.reset rnn else p

end DenoiseProcessor

/-! ## The cleaned signal -/

namespace Rnnoise

variable {S N α : Type} (rnn : Rnnoise S N α)

/-- The state after these blocks. -/
def after (n : N) (chunks : List (List S)) : N :=
  chunks.foldl (fun n chunk => (rnn.processFrame n (chunk.map rnn.toI16)).1) n

/-- The cleaned blocks, the very first one muted. -/
def cleaned (n : N) (started : Bool) : List (List S) → List S
  | [] => []
  | chunk :: chunks =>
    let result := rnn.processFrame n (chunk.map rnn.toI16)
    (if started then result.2.1.map rnn.ofI16 else List.replicate denoiseFrameSize rnn.zero) ++
      cleaned result.1 true chunks

/-- The scores of these blocks. -/
def scores (n : N) : List (List S) → List (F32 α)
  | [] => []
  | chunk :: chunks =>
    let result := rnn.processFrame n (chunk.map rnn.toI16)
    result.2.2 :: scores result.1 chunks

theorem after_append (n : N) (xs ys : List (List S)) :
    rnn.after n (xs ++ ys) = rnn.after (rnn.after n xs) ys := List.foldl_append

theorem cleaned_append (n : N) (started : Bool) (xs ys : List (List S)) :
    rnn.cleaned n started (xs ++ ys) =
      rnn.cleaned n started xs ++ rnn.cleaned (rnn.after n xs) (started || !xs.isEmpty) ys := by
  induction xs generalizing n started with
  | nil => simp [cleaned, after]
  | cons x xs ih =>
    rw [List.cons_append, cleaned, cleaned, ih, List.append_assoc]
    simp [after]

theorem scores_append (n : N) (xs ys : List (List S)) :
    rnn.scores n (xs ++ ys) = rnn.scores n xs ++ rnn.scores (rnn.after n xs) ys := by
  induction xs generalizing n with
  | nil => rfl
  | cons x xs ih => rw [List.cons_append, scores, scores, ih]; rfl

/-- The gate that has heard this signal. -/
def gate [LinearOrder α] (settings : DenoiseSettings α) (sampleRate : Nat) (signal : List S) :
    VadShaper :=
  (rnn.scores rnn.new (blocks denoiseFrameSize signal)).foldl
    (fun v score => v.update score denoiseFrameSize sampleRate settings.shaperSettings) .new

theorem length_cleaned (n : N) (started : Bool) (chunks : List (List S)) :
    (rnn.cleaned n started chunks).length = denoiseFrameSize * chunks.length := by
  induction chunks generalizing n started with
  | nil => rfl
  | cons chunk chunks ih =>
    have hhead : (if started then (rnn.processFrame n (chunk.map rnn.toI16)).2.1.map rnn.ofI16
        else List.replicate denoiseFrameSize rnn.zero).length = denoiseFrameSize := by
      split
      · rw [List.length_map, rnn.length_processFrame]
      · exact List.length_replicate
    rw [cleaned, List.length_append, hhead, ih, List.length_cons, Nat.mul_succ, Nat.add_comm]

end Rnnoise

/-! ## The loop -/

namespace DenoiseProcessor

variable {S N α : Type} [LinearOrder α] (rnn : Rnnoise S N α)

theorem denoiseFrameSize_pos : 0 < denoiseFrameSize := by decide

/-- What the loop leaves: the blocks are worked off and the leftover stays. -/
theorem processChunks_eq (sampleRate : Nat) (p : DenoiseProcessor S N α) :
    p.processChunks rnn sampleRate =
      let chunks := blocks denoiseFrameSize p.inputBuffer
      let scores := rnn.scores p.denoiseState chunks
      { p with
        denoiseState := rnn.after p.denoiseState chunks
        inputBuffer := leftover denoiseFrameSize p.inputBuffer
        outputBuffer := p.outputBuffer ++ rnn.cleaned p.denoiseState p.firstFrameDone chunks
        firstFrameDone := p.firstFrameDone || !chunks.isEmpty
        lastVadProb := scores.getLast?.getD p.lastVadProb
        shaper := if p.settings.vadEnabled then scores.foldl (fun v score =>
            v.update score denoiseFrameSize sampleRate p.settings.shaperSettings) p.shaper
          else p.shaper } := by
  fun_induction processChunks rnn sampleRate p with
  | case1 p h ih =>
    rw [ih, blocks_of_le denoiseFrameSize_pos h, leftover_of_le denoiseFrameSize_pos h]
    simp only [processChunk, Rnnoise.after, Rnnoise.cleaned, Rnnoise.scores, List.foldl_cons,
      List.append_assoc, List.isEmpty_cons, Bool.not_false, Bool.or_true, Bool.true_or]
    congr 1
    · rw [List.getLast?_cons, Option.getD_some]
    · split <;> rfl
  | case2 p h =>
    rw [blocks_of_lt (by omega), leftover_of_lt (by omega)]
    simp [Rnnoise.after, Rnnoise.cleaned, Rnnoise.scores]

end DenoiseProcessor

/-! ## What the stage has heard -/

/-- What happens to the stage. -/
inductive DenoiseEvent (S α : Type) where
  | process (samples : List S) (sampleRate : Nat)
  | setConfig (settings : DenoiseSettings α)
  | setEnabled (enabled : Bool)
  | reset

/-- The frames that inference ran on since the last reset, and the settings in force. -/
structure Heard (S α : Type) where
  frames : List (List S)
  settings : DenoiseSettings α

/-- A frame that ends where a block ends, when it starts there. -/
def wholeBlocks {S : Type} (frame : List S) : Bool := decide (denoiseFrameSize ∣ frame.length)

namespace Heard

variable {S α : Type}

def apply (h : Heard S α) : DenoiseEvent S α → Heard S α
  | .process samples _ =>
    if h.settings.listens then { h with frames := h.frames ++ [samples] } else h
  | .setConfig settings => { h with settings := settings }
  | .setEnabled enabled => if enabled then { h with frames := [] } else h
  | .reset => { h with frames := [] }

def signal (h : Heard S α) : List S := h.frames.flatten

end Heard

/-- The cleaned signal with a block of silence before the first frame that ends inside a block. -/
def Rnnoise.delayed {S N α : Type} (rnn : Rnnoise S N α) (frames : List (List S)) : List S :=
  let clean := rnn.cleaned rnn.new false (blocks denoiseFrameSize frames.flatten)
  if frames.all wholeBlocks then clean
  else
    let early := (frames.takeWhile wholeBlocks).flatten.length
    clean.take early ++ List.replicate denoiseFrameSize rnn.zero ++ clean.drop early

namespace DenoiseProcessor

variable {S N α : Type} {rnn : Rnnoise S N α} {p : DenoiseProcessor S N α} {h : Heard S α}

def apply [LinearOrder α] (rnn : Rnnoise S N α) (p : DenoiseProcessor S N α) :
    DenoiseEvent S α → DenoiseProcessor S N α
  | .process samples sampleRate => (p.process rnn samples sampleRate).2.2
  | .setConfig settings => p.setConfig settings
  | .setEnabled enabled => p.setEnabled rnn enabled
  | .reset => p.reset rnn

/-- The buffers hold what was heard and not handed out. -/
structure Tracks (rnn : Rnnoise S N α) (p : DenoiseProcessor S N α) (h : Heard S α) : Prop where
  settings : p.settings = h.settings
  input : p.inputBuffer = leftover denoiseFrameSize h.signal
  output : p.outputBuffer = (rnn.delayed h.frames).drop h.signal.length
  state : p.denoiseState = rnn.after rnn.new (blocks denoiseFrameSize h.signal)
  started : p.firstFrameDone = !(blocks denoiseFrameSize h.signal).isEmpty

theorem tracks_new (settings : DenoiseSettings α) :
    Tracks rnn (withSettings rnn settings) ⟨[], settings⟩ := by
  refine ⟨rfl, ?_, ?_, ?_, ?_⟩ <;> simp [Heard.signal, withSettings, Rnnoise.delayed,
    Rnnoise.cleaned, Rnnoise.after]

theorem tracks_reset (hp : p.settings = h.settings) :
    Tracks rnn (p.reset rnn) { h with frames := [] } := by
  refine ⟨hp, ?_, ?_, ?_, ?_⟩ <;> simp [Heard.signal, reset, Rnnoise.delayed, Rnnoise.cleaned,
    Rnnoise.after]

end DenoiseProcessor

/-! ## The delay -/

section Delay

variable {S N α : Type} {rnn : Rnnoise S N α} {frames : List (List S)} {frame : List S}

theorem dvd_length_flatten (h : frames.all wholeBlocks = true) :
    denoiseFrameSize ∣ frames.flatten.length := by
  induction frames with
  | nil => exact Nat.dvd_zero _
  | cons f fs ih =>
    obtain ⟨hf, hfs⟩ := Bool.and_eq_true_iff.mp h
    rw [List.flatten_cons, List.length_append]
    exact Nat.dvd_add (of_decide_eq_true hf) (ih hfs)

theorem all_concat : (frames ++ [frame]).all wholeBlocks =
    (frames.all wholeBlocks && wholeBlocks frame) := by
  simp

/-- The cleaned signal so far. -/
def Rnnoise.clean (rnn : Rnnoise S N α) (frames : List (List S)) : List S :=
  rnn.cleaned rnn.new false (blocks denoiseFrameSize frames.flatten)

/-- What one more frame adds to the cleaned signal. -/
def Rnnoise.fresh (rnn : Rnnoise S N α) (frames : List (List S)) (frame : List S) : List S :=
  let chunks := blocks denoiseFrameSize frames.flatten
  rnn.cleaned (rnn.after rnn.new chunks) (!chunks.isEmpty)
    (blocks denoiseFrameSize (leftover denoiseFrameSize frames.flatten ++ frame))

theorem clean_concat :
    rnn.clean (frames ++ [frame]) = rnn.clean frames ++ rnn.fresh frames frame := by
  unfold Rnnoise.clean Rnnoise.fresh
  rw [List.flatten_concat, blocks_append, rnn.cleaned_append, Bool.false_or]

theorem length_clean (rnn : Rnnoise S N α) (frames : List (List S)) :
    (rnn.clean frames).length + (leftover denoiseFrameSize frames.flatten).length =
      frames.flatten.length := by
  rw [Rnnoise.clean, rnn.length_cleaned]
  exact length_blocks_add (by decide) _

theorem length_fresh (rnn : Rnnoise S N α) (frames : List (List S)) (frame : List S) :
    (rnn.fresh frames frame).length +
        (leftover denoiseFrameSize (leftover denoiseFrameSize frames.flatten ++ frame)).length =
      (leftover denoiseFrameSize frames.flatten).length + frame.length := by
  rw [Rnnoise.fresh, rnn.length_cleaned, ← List.length_append]
  exact length_blocks_add (by decide) _

/-- The frames before the gap end where a block ends, which the cleaned signal reaches. -/
theorem early_le (rnn : Rnnoise S N α) (frames : List (List S)) :
    (frames.takeWhile wholeBlocks).flatten.length ≤ (rnn.clean frames).length := by
  obtain ⟨k, hk⟩ : denoiseFrameSize ∣ (frames.takeWhile wholeBlocks).flatten.length :=
    dvd_length_flatten List.all_takeWhile
  have hle : (frames.takeWhile wholeBlocks).flatten.length ≤ frames.flatten.length := by
    obtain ⟨rest, hrest⟩ := List.takeWhile_prefix (l := frames) wholeBlocks
    calc (frames.takeWhile wholeBlocks).flatten.length
        ≤ (frames.takeWhile wholeBlocks ++ rest).flatten.length := by
          rw [List.flatten_append, List.length_append]
          exact Nat.le_add_right _ _
      _ = frames.flatten.length := by rw [hrest]
  have hlen := length_clean rnn frames
  have hlt := length_leftover_lt (l := frames.flatten) (show 0 < denoiseFrameSize by decide)
  have hclean : (rnn.clean frames).length =
      denoiseFrameSize * (blocks denoiseFrameSize frames.flatten).length := rnn.length_cleaned _ _ _
  rw [hclean] at hlen ⊢
  rw [hk] at hle ⊢
  unfold denoiseFrameSize at *
  omega

/-- A gap opens in front of the first frame that ends inside a block. -/
def Rnnoise.gap (rnn : Rnnoise S N α) (frames : List (List S)) (frame : List S) : List S :=
  if frames.all wholeBlocks && !wholeBlocks frame then List.replicate denoiseFrameSize rnn.zero
  else []

theorem delayed_of_whole (h : frames.all wholeBlocks = true) :
    rnn.delayed frames = rnn.clean frames := if_pos h

theorem delayed_of_not_whole (h : ¬frames.all wholeBlocks = true) :
    rnn.delayed frames = (rnn.clean frames).take (frames.takeWhile wholeBlocks).flatten.length ++
      List.replicate denoiseFrameSize rnn.zero ++
        (rnn.clean frames).drop (frames.takeWhile wholeBlocks).flatten.length := if_neg h

theorem length_clean_of_whole (rnn : Rnnoise S N α) (h : frames.all wholeBlocks = true) :
    (rnn.clean frames).length = frames.flatten.length := by
  have hlen := length_clean rnn frames
  rwa [(leftover_eq_nil_iff (by decide)).mpr (dvd_length_flatten h), List.length_nil,
    Nat.add_zero] at hlen

theorem length_delayed (rnn : Rnnoise S N α) (frames : List (List S)) :
    (rnn.delayed frames).length + (leftover denoiseFrameSize frames.flatten).length =
      frames.flatten.length + if frames.all wholeBlocks then 0 else denoiseFrameSize := by
  have hlen := length_clean rnn frames
  by_cases h : frames.all wholeBlocks = true
  · rw [delayed_of_whole h, if_pos h, hlen, Nat.add_zero]
  · have hle := early_le rnn frames
    rw [delayed_of_not_whole h, if_neg h, List.length_append, List.length_append,
      List.length_replicate, List.length_take, List.length_drop]
    omega

/-- What is handed out and what waits: nothing is late, or one block is. -/
theorem delayed_cases (rnn : Rnnoise S N α) (frames : List (List S)) :
    (leftover denoiseFrameSize frames.flatten).length = 0 ∧
        (rnn.delayed frames).length = frames.flatten.length ∨
      (rnn.delayed frames).length + (leftover denoiseFrameSize frames.flatten).length =
        frames.flatten.length + denoiseFrameSize := by
  have hlen := length_delayed rnn frames
  by_cases h : frames.all wholeBlocks = true
  · have hnone := length_clean_of_whole rnn h
    rw [← delayed_of_whole h] at hnone
    rw [if_pos h] at hlen
    exact .inl ⟨by omega, hnone⟩
  · rw [if_neg h] at hlen
    exact .inr hlen

theorem length_le_delayed (rnn : Rnnoise S N α) (frames : List (List S)) :
    frames.flatten.length ≤ (rnn.delayed frames).length := by
  have hlt := length_leftover_lt (l := frames.flatten) (show 0 < denoiseFrameSize by decide)
  have hcases := delayed_cases rnn frames
  omega

/-- One more frame: what was waiting, what is fresh, and the gap in front when it opens. -/
theorem delayed_concat (rnn : Rnnoise S N α) (frames : List (List S)) (frame : List S) :
    (rnn.delayed (frames ++ [frame])).drop frames.flatten.length =
      rnn.gap frames frame ++ ((rnn.delayed frames).drop frames.flatten.length ++
        rnn.fresh frames frame) := by
  by_cases h : frames.all wholeBlocks = true
  · have hlen := length_clean_of_whole rnn h
    have hold : (rnn.delayed frames).drop frames.flatten.length = [] := by
      rw [delayed_of_whole h, ← hlen, List.drop_length]
    by_cases hframe : wholeBlocks frame = true
    · have hall : (frames ++ [frame]).all wholeBlocks = true := by
        rw [all_concat, h, hframe]
        rfl
      rw [delayed_of_whole hall, hold, clean_concat, ← hlen, List.drop_left, Rnnoise.gap, h, hframe]
      rfl
    · have hall : ¬(frames ++ [frame]).all wholeBlocks = true := by
        rw [all_concat, h, Bool.true_and]
        exact hframe
      have hwhile : (frames ++ [frame]).takeWhile wholeBlocks = frames := by
        rw [List.takeWhile_append_of_pos (List.all_eq_true.mp h), List.takeWhile_cons_of_neg hframe,
          List.append_nil]
      rw [delayed_of_not_whole hall, hwhile, hold, clean_concat, ← hlen, List.take_left,
        List.drop_left, List.append_assoc, List.drop_left, Rnnoise.gap, h]
      simp [hframe]
  · have hall : ¬(frames ++ [frame]).all wholeBlocks = true := by
      rw [all_concat, Bool.and_eq_true]
      exact fun hboth => h hboth.1
    have hwhile : (frames ++ [frame]).takeWhile wholeBlocks = frames.takeWhile wholeBlocks := by
      rw [List.takeWhile_append, if_neg]
      exact fun hlen => h (List.all_eq_true.mpr (List.takeWhile_eq_self_iff.mp
        ((List.takeWhile_prefix wholeBlocks).eq_of_length hlen)))
    have hgap : rnn.gap frames frame = [] := by
      unfold Rnnoise.gap
      rw [Bool.not_eq_true] at h
      rw [h]
      rfl
    have hmore : rnn.delayed (frames ++ [frame]) =
        rnn.delayed frames ++ rnn.fresh frames frame := by
      rw [delayed_of_not_whole hall, delayed_of_not_whole h, hwhile, clean_concat,
        List.take_append_of_le_length (early_le rnn frames),
        List.drop_append_of_le_length (early_le rnn frames), List.append_assoc, List.append_assoc,
        List.append_assoc]
    rw [hmore, hgap, List.drop_append_of_le_length (length_le_delayed rnn frames), List.nil_append]

/-- What there is to hand out before the padding. -/
theorem length_buffered (rnn : Rnnoise S N α) (frames : List (List S)) (frame : List S) :
    ((rnn.delayed frames).drop frames.flatten.length ++ rnn.fresh frames frame).length +
        (leftover denoiseFrameSize (frames ++ [frame]).flatten).length =
      frame.length + if frames.all wholeBlocks then 0 else denoiseFrameSize := by
  have hdelayed := length_delayed rnn frames
  have hfresh := length_fresh rnn frames frame
  have hlt := length_leftover_lt (l := frames.flatten) (show 0 < denoiseFrameSize by decide)
  rw [List.flatten_concat, leftover_append, List.length_append, List.length_drop]
  by_cases h : frames.all wholeBlocks = true
  · have hnone := length_clean_of_whole rnn h
    rw [← delayed_of_whole h] at hnone
    rw [if_pos h] at hdelayed ⊢
    omega
  · rw [if_neg h] at hdelayed ⊢
    omega

theorem nextMultipleOf_of_lt {n m : Nat} (hn : 0 < n) (h : n < m) : nextMultipleOf n m = m := by
  have hdiv : (n + m - 1) / m = 1 := by
    rw [Nat.div_eq_iff (by omega)]
    omega
  rw [nextMultipleOf, hdiv, Nat.one_mul]

/-- The padding is the gap: the stage falls short once at most. -/
theorem padFront_eq {p : DenoiseProcessor S N α}
    (hp : p.outputBuffer = (rnn.delayed frames).drop frames.flatten.length ++
      rnn.fresh frames frame) :
    p.padFront rnn frame.length =
      { p with outputBuffer := rnn.gap frames frame ++ p.outputBuffer } := by
  have hlen := length_buffered rnn frames frame
  have hlt := length_leftover_lt (l := (frames ++ [frame]).flatten)
    (show 0 < denoiseFrameSize by decide)
  rw [← hp] at hlen
  unfold DenoiseProcessor.padFront Rnnoise.gap
  dsimp only
  by_cases hgap : (frames.all wholeBlocks && !wholeBlocks frame) = true
  · obtain ⟨hall, hframe⟩ : frames.all wholeBlocks = true ∧ wholeBlocks frame = false := by
      simpa using hgap
    have hleft : leftover denoiseFrameSize (frames ++ [frame]).flatten ≠ [] := by
      rw [ne_eq, leftover_eq_nil_iff (by decide), List.flatten_concat, List.length_append,
        Nat.dvd_add_right (dvd_length_flatten hall)]
      exact of_decide_eq_false hframe
    have hpos := List.length_pos_iff.mpr hleft
    rw [if_pos hall] at hlen
    rw [if_pos (by omega), if_pos hgap, nextMultipleOf_of_lt (by omega) (by omega)]
  · have hshort : ¬0 < frame.length - p.outputBuffer.length := by
      by_cases hall : frames.all wholeBlocks = true
      · have hframe : wholeBlocks frame = true := by simpa [hall] using hgap
        have hleft : leftover denoiseFrameSize (frames ++ [frame]).flatten = [] := by
          rw [leftover_eq_nil_iff (by decide)]
          exact dvd_length_flatten (by rw [all_concat, hall, hframe]; rfl)
        rw [if_pos hall, hleft, List.length_nil] at hlen
        omega
      · rw [if_neg hall] at hlen
        omega
    rw [if_neg hshort, if_neg hgap]
    rfl

end Delay

/-! ## Runs -/

namespace DenoiseProcessor

variable {S N α : Type} [LinearOrder α] {rnn : Rnnoise S N α} {p : DenoiseProcessor S N α}
  {h : Heard S α}

/-- **A call hands out the next piece of the delayed signal**, or the samples as they were. -/
theorem process_spec (hp : Tracks rnn p h) (samples : List S) (sampleRate : Nat) :
    (p.process rnn samples sampleRate).1 =
        (if h.settings.denoiseEnabled then
          ((rnn.delayed (h.frames ++ [samples])).drop h.signal.length).take samples.length
        else samples) ∧
      Tracks rnn (p.process rnn samples sampleRate).2.2
        (h.apply (.process samples sampleRate)) := by
  unfold process Heard.apply
  dsimp only
  rw [hp.settings]
  by_cases hlistens : h.settings.listens = true
  · rw [if_pos hlistens, if_pos hlistens, processChunks_eq]
    dsimp only
    have hsignal : Heard.signal (⟨h.frames ++ [samples], h.settings⟩ : Heard S α) =
        h.signal ++ samples := List.flatten_concat
    have hchunks : blocks denoiseFrameSize (h.signal ++ samples) =
        blocks denoiseFrameSize h.signal ++ blocks denoiseFrameSize (p.inputBuffer ++ samples) := by
      rw [blocks_append, hp.input]
    have hfresh : p.outputBuffer ++ rnn.cleaned p.denoiseState p.firstFrameDone
        (blocks denoiseFrameSize (p.inputBuffer ++ samples)) =
        (rnn.delayed h.frames).drop h.signal.length ++ rnn.fresh h.frames samples := by
      rw [hp.output, hp.state, hp.started, hp.input]
      rfl
    rw [padFront_eq hfresh, hfresh]
    dsimp only
    have hgap : rnn.gap h.frames samples ++
        ((rnn.delayed h.frames).drop h.signal.length ++ rnn.fresh h.frames samples) =
        (rnn.delayed (h.frames ++ [samples])).drop h.signal.length :=
      (delayed_concat rnn h.frames samples).symm
    rw [hgap]
    refine ⟨rfl, rfl, ?_, ?_, ?_, ?_⟩
    · show leftover denoiseFrameSize (p.inputBuffer ++ samples) = _
      rw [hsignal, hp.input]
      exact (leftover_append _ _ _).symm
    · rw [List.drop_drop, hsignal, List.length_append]
    · rw [hsignal, hchunks, rnn.after_append, hp.state]
    · show (p.firstFrameDone || !(blocks denoiseFrameSize (p.inputBuffer ++ samples)).isEmpty) = _
      rw [hsignal, hchunks, hp.started]
      cases blocks denoiseFrameSize h.signal with
      | nil => rfl
      | cons => rfl
  · have hoff : h.settings.denoiseEnabled = false := by
      simp [DenoiseSettings.listens] at hlistens
      exact hlistens.1
    rw [if_neg hlistens, if_neg hlistens, if_neg (by rw [hoff]; exact Bool.false_ne_true)]
    exact ⟨rfl, hp⟩

/-- **Step lemma.** -/
theorem tracks_apply (hp : Tracks rnn p h) (e : DenoiseEvent S α) :
    Tracks rnn (p.apply rnn e) (h.apply e) := by
  cases e with
  | process samples sampleRate => exact (process_spec hp samples sampleRate).2
  | setConfig settings => exact ⟨rfl, hp.input, hp.output, hp.state, hp.started⟩
  | setEnabled enabled =>
    cases enabled with
    | false => exact ⟨hp.settings, hp.input, hp.output, hp.state, hp.started⟩
    | true => exact tracks_reset (p := { p with enabled := true }) hp.settings
  | reset => exact tracks_reset hp.settings

/-- **Run lemma.** -/
theorem tracks_run (rnn : Rnnoise S N α) (settings : DenoiseSettings α)
    (events : List (DenoiseEvent S α)) :
    Tracks rnn (events.foldl (apply rnn) (withSettings rnn settings))
      (events.foldl Heard.apply ⟨[], settings⟩) := by
  suffices h : ∀ (p : DenoiseProcessor S N α) (h : Heard S α), Tracks rnn p h →
      Tracks rnn (events.foldl (apply rnn) p) (events.foldl Heard.apply h) from
    h _ _ (tracks_new settings)
  induction events with
  | nil => exact fun _ _ hp => hp
  | cons e events ih => exact fun _ _ hp => ih _ _ (tracks_apply hp e)

/-- **Nothing is lost, repeated or torn.** After any calls in any order, a frame comes back with its
own length: it is the next piece of the cleaned signal, which one block of silence delays from the
first frame on that ends inside a block, or unchanged when suppression is off. Together the buffers
hold one block at most. -/
theorem process_run (rnn : Rnnoise S N α) (settings : DenoiseSettings α)
    (events : List (DenoiseEvent S α)) (samples : List S) (sampleRate : Nat) :
    let p := events.foldl (apply rnn) (withSettings rnn settings)
    let h := events.foldl Heard.apply ⟨[], settings⟩
    (p.process rnn samples sampleRate).1 =
        (if h.settings.denoiseEnabled then
          ((rnn.delayed (h.frames ++ [samples])).drop h.signal.length).take samples.length
        else samples) ∧
      (p.process rnn samples sampleRate).1.length = samples.length ∧
      (p.inputBuffer.length + p.outputBuffer.length = 0 ∨
        p.inputBuffer.length + p.outputBuffer.length = denoiseFrameSize) := by
  intro p h
  have hp : Tracks rnn p h := tracks_run rnn settings events
  have hpiece := (process_spec hp samples sampleRate).1
  refine ⟨hpiece, ?_, ?_⟩
  · rw [hpiece]
    split
    · have hle : h.signal.length + samples.length ≤
          (rnn.delayed (h.frames ++ [samples])).length := by
        have hle := length_le_delayed rnn (h.frames ++ [samples])
        rwa [List.flatten_concat, List.length_append] at hle
      rw [List.length_take, List.length_drop]
      omega
    · rfl
  · have hcases : (leftover denoiseFrameSize h.signal).length = 0 ∧
          (rnn.delayed h.frames).length = h.signal.length ∨
        (rnn.delayed h.frames).length + (leftover denoiseFrameSize h.signal).length =
          h.signal.length + denoiseFrameSize := delayed_cases rnn h.frames
    have hle : h.signal.length ≤ (rnn.delayed h.frames).length := length_le_delayed rnn h.frames
    rw [hp.input, hp.output, List.length_drop]
    omega

/-- The frames of a session whose settings stay. -/
def feed (rnn : Rnnoise S N α) (settings : DenoiseSettings α) (sampleRate : Nat)
    (frames : List (List S)) : DenoiseProcessor S N α :=
  frames.foldl (fun p frame => (p.process rnn frame sampleRate).2.2) (withSettings rnn settings)

theorem tracks_feed (rnn : Rnnoise S N α) (settings : DenoiseSettings α) (sampleRate : Nat)
    (hlistens : settings.listens = true) (frames : List (List S)) :
    Tracks rnn (feed rnn settings sampleRate frames) ⟨frames, settings⟩ := by
  induction frames using List.reverseRecOn with
  | nil => exact tracks_new settings
  | append_singleton frames frame ih =>
    have hstep := tracks_apply ih (.process frame sampleRate)
    rw [Heard.apply, if_pos hlistens] at hstep
    rwa [feed, List.foldl_concat]

theorem settings_process (rnn : Rnnoise S N α) (p : DenoiseProcessor S N α) (samples : List S)
    (sampleRate : Nat) : (p.process rnn samples sampleRate).2.2.settings = p.settings := by
  unfold process
  split
  · dsimp only
    rw [settings_padFront, processChunks_eq]
  · rfl

theorem suppress_process (rnn : Rnnoise S N α) (p : DenoiseProcessor S N α) (samples : List S)
    (sampleRate : Nat) : (p.process rnn samples sampleRate).2.1 =
      (p.settings.vadEnabled && !(p.process rnn samples sampleRate).2.2.shaper.voiceActive) := by
  unfold process
  split
  · dsimp only
    rw [settings_padFront, processChunks_eq]
  · rename_i hoff
    have hvad : p.settings.vadEnabled = false := by
      simp [DenoiseSettings.listens] at hoff
      exact hoff.2
    rw [hvad]
    rfl

theorem shaper_process (hp : Tracks rnn p h) (hvad : h.settings.vadEnabled = true)
    (samples : List S) {sampleRate : Nat}
    (hgate : p.shaper = rnn.gate h.settings sampleRate h.signal) :
    (p.process rnn samples sampleRate).2.2.shaper =
      rnn.gate h.settings sampleRate (h.signal ++ samples) := by
  have hlistens : h.settings.listens = true := by rw [DenoiseSettings.listens, hvad, Bool.or_true]
  unfold process
  rw [hp.settings, if_pos hlistens]
  dsimp only
  rw [shaper_padFront, processChunks_eq]
  dsimp only
  rw [if_pos hvad, hgate, hp.state, hp.input, Rnnoise.gate, Rnnoise.gate,
    blocks_append _ h.signal samples, rnn.scores_append, List.foldl_append]

theorem shaper_feed (rnn : Rnnoise S N α) (settings : DenoiseSettings α) (sampleRate : Nat)
    (hvad : settings.vadEnabled = true) (frames : List (List S)) :
    (feed rnn settings sampleRate frames).shaper = rnn.gate settings sampleRate frames.flatten := by
  have hlistens : settings.listens = true := by rw [DenoiseSettings.listens, hvad, Bool.or_true]
  induction frames using List.reverseRecOn with
  | nil => simp [feed, Rnnoise.gate, Rnnoise.scores, withSettings]
  | append_singleton frames frame ih =>
    rw [feed, List.foldl_concat, List.flatten_concat]
    exact shaper_process (tracks_feed rnn settings sampleRate hlistens frames) hvad frame ih

/-- **The gate hears the signal.** While the settings stay, whether a frame is suppressed depends on
the samples up to its end and not on how they were cut into frames. -/
theorem gate_reframed (rnn : Rnnoise S N α) (settings : DenoiseSettings α) (sampleRate : Nat)
    (frames : List (List S)) (samples : List S) :
    ((feed rnn settings sampleRate frames).process rnn samples sampleRate).2.1 =
      (settings.vadEnabled &&
        !(rnn.gate settings sampleRate (frames.flatten ++ samples)).voiceActive) := by
  have hsettings : (feed rnn settings sampleRate frames).settings = settings :=
    List.foldlRecOn (motive := fun p : DenoiseProcessor S N α => p.settings = settings) frames _ rfl
      fun p hp frame _ => (settings_process rnn p frame sampleRate).trans hp
  rw [suppress_process, hsettings]
  cases hvad : settings.vadEnabled with
  | false => rfl
  | true =>
    have hlistens : settings.listens = true := by rw [DenoiseSettings.listens, hvad, Bool.or_true]
    rw [shaper_process (tracks_feed rnn settings sampleRate hlistens frames) hvad samples
      (shaper_feed rnn settings sampleRate hvad frames)]
    rfl

end DenoiseProcessor

end Rumble.Client
