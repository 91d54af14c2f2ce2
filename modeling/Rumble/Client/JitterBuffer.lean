import Mathlib.Algebra.Order.Ring.Abs
import Rumble.Client.AudioTask
import Rumble.Lib.Saturating
import Rumble.Lib.SortedMap

/-!
# The jitter buffer

Received voice packets wait in a map from media frames to packets until the playout cursor comes to
them. An arrival updates the jitter estimate and the depth to hold, is dropped when it is late, or
goes in and may push the oldest out. A playout tick plays the frame at the cursor, conceals a lost
one, or takes a jump of the media clock for silence and starts over. `jitter_sound`: the map, the
cursor and the counters stay in step along every sequence of arrivals, end markers and ticks.
-/

namespace Rumble.Client.Jitter

open Rumble.Lib

/-! ## Constants -/

/-- `JITTER_BUFFER_MAX_PACKETS` -/
def jitterBufferMaxPackets : Nat := 20

/-- `MIN_TARGET_FRAMES` -/
def minTargetFrames : Nat := 2

/-- `MAX_TARGET_FRAMES` -/
def maxTargetFrames : Nat := 12

/-- `DRIFT_DROP_SLACK` -/
def driftDropSlack : Nat := 4

/-- `RESTART_BACKWARD_FRAMES` -/
def restartBackwardFrames : Nat := 100

/-- `LATE_RESYNC_FRAMES` -/
def lateResyncFrames : Nat := 10

/-- `STREAM_STALE_THRESHOLD`, in nanoseconds. -/
def streamStaleThreshold : Nat := 200000000

/-! ## State -/

structure BufferedPacket where
  seq : UInt32
  opus : List UInt8
  deriving DecidableEq

/-- `UserAudioState`. Instants are nanoseconds, the jitter estimate is exact. -/
structure UserAudioState where
  jitterBuffer : SortedMap Nat BufferedPacket
  nextPlayFrame : Nat
  started : Bool
  lastPlayedSeq : UInt32
  lastPlayedFrame : Nat
  targetFrames : Nat
  baseFrames : Nat
  jitterEstUs : Rat
  lastArrival : Nat
  lastArrivalFrame : Nat
  haveArrival : Bool
  packetsReceived : Nat
  packetsLost : Nat
  packetsRecoveredFec : Nat
  framesConcealed : Nat
  bytesReceived : Nat
  streamEnded : Bool
  needsPrime : Bool
  pendingEosSeqs : List UInt32
  consecutiveLate : Nat

/-- What the peer's decoder answers during one tick: the samples it wrote, if any. -/
structure Codec where
  decode : List UInt8 → Option Nat
  decodeFec : List UInt8 → Option Nat
  decodePlc : Option Nat

/-- `u32::clamp` to the floor and the ceiling of the target. -/
def clampTarget (n : Nat) : Nat := max minTargetFrames (min n maxTargetFrames)

theorem clampTarget_bounds (n : Nat) :
    minTargetFrames ≤ clampTarget n ∧ clampTarget n ≤ maxTargetFrames := by
  simp only [clampTarget, minTargetFrames, maxTargetFrames]
  omega

theorem clampTarget_mono {n n' : Nat} (h : n ≤ n') : clampTarget n ≤ clampTarget n' := by
  simp only [clampTarget]
  omega

/-- `jitter_frames`: twice the estimate in frames, rounded up and cast to `u32`. -/
def jitterFrames (est : Rat) : Nat := saturatingCast ⌈2 * est / frameUs⌉

namespace UserAudioState

/-- `UserAudioState::new` -/
def new (baseDelay now : Nat) : UserAudioState where
  jitterBuffer := .empty
  nextPlayFrame := 0
  started := false
  lastPlayedSeq := 0
  lastPlayedFrame := 0
  targetFrames := clampTarget baseDelay
  baseFrames := clampTarget baseDelay
  jitterEstUs := 0
  lastArrival := now
  lastArrivalFrame := 0
  haveArrival := false
  packetsReceived := 0
  packetsLost := 0
  packetsRecoveredFec := 0
  framesConcealed := 0
  bytesReceived := 0
  streamEnded := true
  needsPrime := false
  pendingEosSeqs := []
  consecutiveLate := 0

variable (s : UserAudioState)

/-- `depth` -/
def depth : Nat := s.jitterBuffer.countFrom s.nextPlayFrame

/-! ## Arrivals -/

/-- The difference between how far the arrival and the media clock moved, in microseconds. -/
def transit (frame now : Nat) : Rat :=
  |(((now - s.lastArrival) / 1000 : Nat) : Rat) -
    ((frame - s.lastArrivalFrame : Nat) : Rat) * frameUs|

/-- Only an arrival ahead of the last one counts for the jitter. -/
def forward (frame : Nat) : Bool := s.haveArrival && decide (s.lastArrivalFrame < frame)

/-- The smoothed estimate after an arrival. -/
def nextEstimate (frame now : Nat) : Rat :=
  s.jitterEstUs + (s.transit frame now - s.jitterEstUs) / 16

/-- `update_jitter`; the sum is one of `u32`s and wraps in a release build. -/
def updateJitter (frame now : Nat) : UserAudioState :=
  let s :=
    if s.forward frame then
      let est := s.nextEstimate frame now
      { s with
        jitterEstUs := est
        targetFrames := clampTarget ((s.baseFrames + jitterFrames est) % 2 ^ 32) }
    else s
  { s with lastArrival := now, lastArrivalFrame := frame, haveArrival := true }

/-- `reanchor` -/
def reanchor (frame : Nat) : UserAudioState :=
  { s with nextPlayFrame := frame, started := false, needsPrime := true, pendingEosSeqs := [] }

/-- The media clock jumped far back. -/
def restarts (frame : Nat) : Bool :=
  s.started && decide (frame + restartBackwardFrames < s.nextPlayFrame)

/-- The packet is behind the playout cursor, but not far. -/
def late (frame : Nat) : Bool :=
  s.started && !s.restarts frame && decide (frame < s.nextPlayFrame)

/-- The late packet ends a run of late packets that is longer than reordering explains. -/
def resyncs (frame : Nat) : Bool :=
  s.late frame && decide (lateResyncFrames < saturatingAdd s.consecutiveLate 1)

/-- `jitter_buffer.clear()` and `reanchor`. -/
def startOver (frame : Nat) : UserAudioState :=
  ({ s with jitterBuffer := .empty }).reanchor frame

/-- An accepted packet ends a run of late ones and shows that the stream is live. -/
def accept : UserAudioState := { s with consecutiveLate := 0, streamEnded := false }

/-- What `insert_packet_at` does with the media frame of a packet: none when the packet is dropped,
else the state that it is put in. -/
def admission (frame : Nat) : Option UserAudioState :=
  if s.restarts frame then some (s.startOver frame).accept
  else if s.late frame then
    if saturatingAdd s.consecutiveLate 1 ≤ lateResyncFrames then none
    else some (s.startOver frame).accept
  else some s.accept

/-- `jitter_buffer.insert`; until playout starts the cursor is on the first frame. -/
def place (frame : Nat) (packet : BufferedPacket) : UserAudioState :=
  let buffer := s.jitterBuffer.insert frame packet
  { s with
    jitterBuffer := buffer
    nextPlayFrame :=
      if s.started then s.nextPlayFrame
      else (buffer.entries.head?.map (·.1)).getD s.nextPlayFrame }

/-- Where the cursor goes when the oldest frame is taken out. -/
def cursorPast (started : Bool) (cursor oldest : Nat) (rest : List (Nat × BufferedPacket)) : Nat :=
  if started then (if cursor ≤ oldest then oldest + 1 else cursor)
  else (rest.head?.map (·.1)).getD cursor

/-- The trim loop over the entries of the buffer: the cursor and what is left. -/
def trimLoop (started : Bool) (maxDepth : Nat) :
    Nat → List (Nat × BufferedPacket) → Nat × List (Nat × BufferedPacket)
  | cursor, [] => (cursor, [])
  | cursor, oldest :: rest =>
    if jitterBufferMaxPackets < rest.length + 1 ∨
        maxDepth < ((oldest :: rest).filter (cursor ≤ ·.1)).length then
      trimLoop started maxDepth (cursorPast started cursor oldest.1 rest) rest
    else (cursor, oldest :: rest)

theorem trimLoop_suffix (started : Bool) (maxDepth cursor : Nat)
    (entries : List (Nat × BufferedPacket)) :
    (trimLoop started maxDepth cursor entries).2 <:+ entries := by
  induction entries generalizing cursor with
  | nil => exact List.suffix_refl _
  | cons entry rest ih =>
    unfold trimLoop
    split
    · exact (ih _).trans (List.suffix_cons _ _)
    · exact List.suffix_refl _

def maxDepth : Nat :=
  if s.started then s.targetFrames + driftDropSlack else jitterBufferMaxPackets

/-- The end of `insert_packet_at`: the oldest frames go while the buffer is too deep. -/
def trim : UserAudioState :=
  { s with
    jitterBuffer := s.jitterBuffer.dropped
      (trimLoop s.started s.maxDepth s.nextPlayFrame s.jitterBuffer.entries).2
      (trimLoop_suffix _ _ _ _)
    nextPlayFrame := (trimLoop s.started s.maxDepth s.nextPlayFrame s.jitterBuffer.entries).1 }

/-- The statistics of an arrival and its jitter. -/
def arrive (timestampUs : Nat) (opus : List UInt8) (arrival : Nat) : UserAudioState :=
  ({ s with
    packetsReceived := s.packetsReceived + 1
    bytesReceived := s.bytesReceived + opus.length }).updateJitter (timestampUs / frameUs) arrival

/-- `insert_packet_at` -/
def insertPacketAt (sequence : UInt32) (timestampUs : Nat) (opus : List UInt8) (arrival : Nat) :
    UserAudioState :=
  let frame := timestampUs / frameUs
  let s := s.arrive timestampUs opus arrival
  match s.admission frame with
  | none => { s with consecutiveLate := saturatingAdd s.consecutiveLate 1 }
  | some s => (s.place frame ⟨sequence, opus⟩).trim

/-- `mark_end_of_stream` -/
def markEndOfStream (sequence : UInt32) : UserAudioState :=
  { s with
    streamEnded := true
    pendingEosSeqs :=
      if sequence ∈ s.pendingEosSeqs then s.pendingEosSeqs
      else (if 8 ≤ s.pendingEosSeqs.length then s.pendingEosSeqs.tail else s.pendingEosSeqs) ++
        [sequence] }

/-! ## Playout -/

/-- `ready_to_play` -/
def readyToPlay : Bool := s.started || decide (s.targetFrames ≤ s.depth)

/-- What a tick leaves: the state, the samples written, and the packet given to the decoder. -/
structure Tick where
  state : UserAudioState
  samples : Option Nat
  decoded : Option (Nat × BufferedPacket)

/-- The stale-stream guard. -/
def guardStale (now : Nat) : UserAudioState :=
  if !s.streamEnded && s.haveArrival && decide (streamStaleThreshold < now - s.lastArrival) then
    { s with streamEnded := true }
  else s

/-- The end marker `seq` is ahead of the packet `played`. -/
def eosAhead (played seq : UInt32) : Bool :=
  decide (seq - played ≠ 0) && decide ((seq - played).toNat < u32Max / 2)

/-- The frame at the cursor is there. -/
def play (packet : BufferedPacket) (codec : Codec) : Tick :=
  let state := { s with
    jitterBuffer := s.jitterBuffer.erase s.nextPlayFrame
    started := true
    lastPlayedSeq := packet.seq
    lastPlayedFrame := s.nextPlayFrame
    nextPlayFrame := s.nextPlayFrame + 1
    pendingEosSeqs := s.pendingEosSeqs.filter (eosAhead packet.seq) }
  match codec.decode packet.opus with
  | some n => ⟨state, some n, some (s.nextPlayFrame, packet)⟩
  | none =>
    ⟨{ state with framesConcealed := s.framesConcealed + 1 }, codec.decodePlc,
      some (s.nextPlayFrame, packet)⟩

/-- Nothing is there at the cursor or ahead of it, but the stream goes on. -/
def conceal (codec : Codec) : Tick :=
  ⟨{ s with
      framesConcealed := s.framesConcealed + 1
      nextPlayFrame := s.nextPlayFrame + 1 }, codec.decodePlc, none⟩

/-- The media clock jumped further than the sequence numbers, less the end markers in between. -/
def silence (nextFrame : Nat) (nextSeq : UInt32) : Bool :=
  let mediaSpan := nextFrame - s.lastPlayedFrame
  let seqSpan := (nextSeq - s.lastPlayedSeq).toNat
  let eosInSpan := s.pendingEosSeqs.countP fun seq =>
    decide (0 < (seq - s.lastPlayedSeq).toNat) && decide ((seq - s.lastPlayedSeq).toNat < seqSpan)
  decide (seqSpan - eosInSpan < mediaSpan)

/-- The frame at the cursor is lost. -/
def lose (nextFrame : Nat) (next : BufferedPacket) (codec : Codec) : Tick :=
  let state := { s with
    packetsLost := s.packetsLost + 1
    nextPlayFrame := s.nextPlayFrame + 1 }
  let concealed : Tick :=
    ⟨{ state with framesConcealed := s.framesConcealed + 1 }, codec.decodePlc, none⟩
  if nextFrame = s.nextPlayFrame + 1 then
    match codec.decodeFec next.opus with
    | some n => ⟨{ state with packetsRecoveredFec := s.packetsRecoveredFec + 1 }, some n, none⟩
    | none => concealed
  else concealed

/-- `decode_next_into` from where the cursor is looked up. -/
def decodeAtCursor (codec : Codec) : Tick :=
  match s.jitterBuffer.get? s.nextPlayFrame with
  | some packet => s.play packet codec
  | none =>
    match s.jitterBuffer.after s.nextPlayFrame with
    | none => if s.streamEnded then ⟨s, none, none⟩ else s.conceal codec
    | some (nextFrame, next) =>
      if s.started && s.silence nextFrame next.seq then ⟨s.reanchor nextFrame, none, none⟩
      else s.lose nextFrame next codec

/-- `decode_next_into` -/
def decodeNextInto (now : Nat) (codec : Codec) : Tick :=
  if !s.readyToPlay then ⟨s, none, none⟩
  else
    let s := s.guardStale now
    if s.streamEnded && s.jitterBuffer.entries.isEmpty then ⟨s, none, none⟩
    else decodeAtCursor { s with needsPrime := false } codec

end UserAudioState

/-! ## Runs -/

/-- What happens to a peer's playback state. -/
inductive JitterEvent where
  | packet (sequence : UInt32) (timestampUs : Nat) (opus : List UInt8) (arrival : Nat)
  | endOfStream (sequence : UInt32)
  | tick (now : Nat) (codec : Codec)

/-- The packets among the events. -/
def JitterEvent.isPacket : JitterEvent → Bool
  | .packet .. => true
  | _ => false

namespace UserAudioState

variable (s : UserAudioState)

def step : JitterEvent → UserAudioState
  | .packet sequence timestampUs opus arrival => s.insertPacketAt sequence timestampUs opus arrival
  | .endOfStream sequence => s.markEndOfStream sequence
  | .tick now codec => (s.decodeNextInto now codec).state

def run (es : List JitterEvent) : UserAudioState := es.foldl step s

/-- The event is a packet that is dropped for being late. -/
def DropsLate : JitterEvent → Prop
  | .packet _ timestampUs opus arrival =>
    (s.arrive timestampUs opus arrival).admission (timestampUs / frameUs) = none
  | _ => False

/-! ## What every step keeps -/

/-- What playout goes by. -/
structure Core where
  buffer : SortedMap Nat BufferedPacket
  next : Nat
  started : Bool
  lastSeq : UInt32
  lastFrame : Nat
  eos : List UInt32
  late : Nat
  lost : Nat
  target : Nat

def core : Core where
  buffer := s.jitterBuffer
  next := s.nextPlayFrame
  started := s.started
  lastSeq := s.lastPlayedSeq
  lastFrame := s.lastPlayedFrame
  eos := s.pendingEosSeqs
  late := s.consecutiveLate
  lost := s.packetsLost
  target := s.targetFrames

/-- The target's floor and ceiling. -/
def InRange (target : Nat) : Prop := minTargetFrames ≤ target ∧ target ≤ maxTargetFrames

/-- **The invariant.** Every buffered frame is at or ahead of the cursor, the buffer is not over its
cap, a stopped playout has its cursor on the first buffered frame, and a running one is past the
frame it last played. -/
structure Core.Sound (c : Core) : Prop where
  ahead : ∀ e ∈ c.buffer.entries, c.next ≤ e.1
  size : c.buffer.entries.length ≤ jitterBufferMaxPackets
  first : c.started = false → ∀ e ∈ c.buffer.entries.head?, c.next = e.1
  played : c.started = true → c.lastFrame < c.next
  target : InRange c.target
  late : c.late ≤ lateResyncFrames

theorem new_sound (baseDelay now : Nat) : (new baseDelay now).core.Sound where
  ahead := fun _ h => nomatch h
  size := Nat.zero_le _
  first := fun _ _ h => nomatch h
  played := fun h => nomatch h
  target := clampTarget_bounds baseDelay
  late := Nat.zero_le _

/-- An arrival changes nothing but the target. -/
theorem arrive_core (timestampUs : Nat) (opus : List UInt8) (arrival : Nat) :
    ∃ target, (s.arrive timestampUs opus arrival).core = { s.core with target := target } ∧
      (InRange s.targetFrames → InRange target) := by
  unfold arrive updateJitter
  split
  · exact ⟨_, rfl, fun _ => clampTarget_bounds _⟩
  · exact ⟨_, rfl, id⟩

theorem Core.Sound.retarget {c : Core} (sound : c.Sound) {target : Nat} (h : InRange target) :
    ({ c with target := target } : Core).Sound :=
  { sound with target := h }

theorem Core.Sound.arrive {s : UserAudioState} (sound : s.core.Sound) (timestampUs : Nat)
    (opus : List UInt8) (arrival : Nat) : (s.arrive timestampUs opus arrival).core.Sound := by
  obtain ⟨target, hcore, htarget⟩ := s.arrive_core timestampUs opus arrival
  rw [hcore]
  exact sound.retarget (htarget sound.target)

/-- What the trim loop does to a buffer whose frames are at or ahead of the cursor. -/
structure Trims (started : Bool) (maxDepth cursor : Nat) (entries : List (Nat × BufferedPacket))
    (r : Nat × List (Nat × BufferedPacket)) : Prop where
  cursor : cursor ≤ r.1
  ahead : ∀ e ∈ r.2, r.1 ≤ e.1
  gone : ∀ e ∈ entries, e ∉ r.2 → e.1 < r.1
  first : started = false → ∀ e ∈ r.2.head?, r.1 = e.1
  size : r.2.length ≤ jitterBufferMaxPackets
  depth : r.2.length ≤ maxDepth

theorem trimLoop_trims {started : Bool} {maxDepth cursor : Nat}
    {entries : List (Nat × BufferedPacket)} (hdepth : 0 < maxDepth)
    (hsorted : entries.Pairwise (·.1 < ·.1)) (hahead : ∀ e ∈ entries, cursor ≤ e.1)
    (hfirst : started = false → ∀ e ∈ entries.head?, cursor = e.1) :
    Trims started maxDepth cursor entries (trimLoop started maxDepth cursor entries) := by
  induction entries generalizing cursor with
  | nil =>
    exact ⟨Nat.le_refl _, fun _ h => (nomatch h), fun _ h => (nomatch h),
      fun _ _ h => (nomatch h), Nat.zero_le _, Nat.zero_le _⟩
  | cons entry rest ih =>
    obtain ⟨oldest, packet⟩ := entry
    obtain ⟨hbehind, hrest⟩ := List.pairwise_cons.mp hsorted
    have holdest : cursor ≤ oldest := hahead _ List.mem_cons_self
    have hall : ((oldest, packet) :: rest).filter (cursor ≤ ·.1) = (oldest, packet) :: rest :=
      List.filter_eq_self.mpr fun e he => decide_eq_true (hahead e he)
    unfold trimLoop
    rw [hall, List.length_cons]
    split
    case isFalse hfits =>
      refine ⟨Nat.le_refl _, hahead, fun e he hgone => absurd he hgone, hfirst, ?_, ?_⟩
      · exact Nat.not_lt.mp fun h => hfits (.inl h)
      · exact Nat.not_lt.mp fun h => hfits (.inr h)
    case isTrue hover =>
      -- the cursor moves past the frame that goes, up to the next one at most
      have hne : rest ≠ [] := by
        rintro rfl
        simp only [jitterBufferMaxPackets, List.length_nil] at hover
        omega
      obtain ⟨next, tail, rfl⟩ := List.exists_cons_of_ne_nil hne
      have hnext : ∀ e ∈ next :: tail, next.1 ≤ e.1 := by
        intro e he
        rcases List.mem_cons.mp he with rfl | he
        · exact Nat.le_refl _
        · exact Nat.le_of_lt ((List.pairwise_cons.mp hrest).1 e he)
      have hlt : oldest < next.1 := hbehind _ List.mem_cons_self
      cases started with
      | true =>
        have hcursor : cursorPast true cursor oldest (next :: tail) = oldest + 1 := if_pos holdest
        rw [hcursor]
        have h : Trims true maxDepth (oldest + 1) (next :: tail) _ :=
          ih hrest (fun e he => Nat.le_trans hlt (hnext e he)) (fun h => nomatch h)
        refine ⟨by have := h.cursor; omega, h.ahead, fun e he hgone => ?_, h.first, h.size,
          h.depth⟩
        rcases List.mem_cons.mp he with rfl | he
        · exact h.cursor
        · exact h.gone e he hgone
      | false =>
        have hcursor : cursorPast false cursor oldest (next :: tail) = next.1 := rfl
        rw [hcursor]
        have h : Trims false maxDepth next.1 (next :: tail) _ :=
          ih hrest hnext (fun _ e he => by rw [Option.mem_some_iff.mp he])
        refine ⟨by have := h.cursor; omega, h.ahead, fun e he hgone => ?_, h.first, h.size,
          h.depth⟩
        rcases List.mem_cons.mp he with rfl | he
        · exact Nat.lt_of_lt_of_le hlt h.cursor
        · exact h.gone e he hgone

/-- The state that a packet is put in: playout starts over, or it goes on and the packet is at or
ahead of the cursor. -/
theorem admission_cases {s s' : UserAudioState} {frame : Nat} (h : s.admission frame = some s') :
    (s.restarts frame || s.resyncs frame) = true ∧ s' = (s.startOver frame).accept ∨
      (s.restarts frame || s.resyncs frame) = false ∧ s' = s.accept ∧
        (s.started = true → s.nextPlayFrame ≤ frame) := by
  unfold admission at h
  split at h
  case isTrue hrestarts =>
    exact .inl ⟨by rw [hrestarts]; rfl, (Option.some.inj h).symm⟩
  case isFalse hrestarts =>
    have hrestarts : s.restarts frame = false := Bool.eq_false_iff.mpr hrestarts
    split at h
    case isTrue hlate =>
      split at h
      · exact nomatch h
      · rename_i hlong
        refine .inl ⟨?_, (Option.some.inj h).symm⟩
        rw [hrestarts, resyncs, hlate, decide_eq_true (Nat.not_le.mp hlong)]
        rfl
    case isFalse hlate =>
      have hlate : s.late frame = false := Bool.eq_false_iff.mpr hlate
      refine .inr ⟨?_, (Option.some.inj h).symm, fun hstarted => ?_⟩
      · rw [hrestarts, resyncs, hlate]
        rfl
      · simpa [late, hstarted, hrestarts] using hlate

/-- A packet is dropped only behind the cursor of a running playout, and only so often. -/
theorem admission_none {s : UserAudioState} {frame : Nat} (h : s.admission frame = none) :
    s.started = true ∧ frame < s.nextPlayFrame ∧ s.consecutiveLate + 1 ≤ lateResyncFrames ∧
      (s.restarts frame || s.resyncs frame) = false := by
  unfold admission at h
  split at h
  · exact nomatch h
  · split at h
    case isTrue hlate =>
      split at h
      · rename_i hfew
        have hresyncs : s.resyncs frame = false := by
          rw [resyncs, hlate, decide_eq_false (Nat.not_lt.mpr hfew)]
          rfl
        have hlate : (s.started = true ∧ s.restarts frame = false) ∧ frame < s.nextPlayFrame := by
          simpa [late] using hlate
        refine ⟨hlate.1.1, hlate.2, ?_, by rw [hlate.1.2, hresyncs]; rfl⟩
        simp only [saturatingAdd, u32Max, lateResyncFrames] at *
        omega
      · exact nomatch h
    case isFalse => exact nomatch h

theorem Core.Sound.admission {s s' : UserAudioState} (sound : s.core.Sound) {frame : Nat}
    (h : s.admission frame = some s') :
    s'.core.Sound ∧ s'.consecutiveLate = 0 ∧ (s'.started = true → s'.nextPlayFrame ≤ frame) := by
  rcases admission_cases h with ⟨_, rfl⟩ | ⟨_, rfl, hahead⟩
  · exact ⟨⟨fun _ h => (nomatch h), Nat.zero_le _, fun _ _ h => (nomatch h), fun h => (nomatch h),
      sound.target, Nat.zero_le _⟩, rfl, fun h => (nomatch h)⟩
  · exact ⟨⟨sound.ahead, sound.size, sound.first, sound.played, sound.target, Nat.zero_le _⟩, rfl,
      hahead⟩

/-- The cursor after a packet went in, before the buffer is trimmed. -/
theorem place_next {s : UserAudioState} (sound : s.core.Sound) {frame : Nat}
    (hahead : s.started = true → s.nextPlayFrame ≤ frame) (packet : BufferedPacket) :
    (∀ e ∈ (s.jitterBuffer.insert frame packet).entries,
      (s.place frame packet).nextPlayFrame ≤ e.1) ∧
    (s.started = false → ∀ e ∈ (s.jitterBuffer.insert frame packet).entries.head?,
      (s.place frame packet).nextPlayFrame = e.1) := by
  cases hstarted : s.started with
  | true =>
    have hnext : (s.place frame packet).nextPlayFrame = s.nextPlayFrame := by
      simp [place, hstarted]
    rw [hnext]
    refine ⟨fun e he => ?_, fun h => nomatch h⟩
    rcases SortedMap.mem_insert.mp he with rfl | ⟨he, _⟩
    · exact hahead hstarted
    · exact sound.ahead e he
  | false =>
    have hsorted := (s.jitterBuffer.insert frame packet).sorted
    have hmem := s.jitterBuffer.mem_insert_self frame packet
    unfold place
    simp only [hstarted, Bool.false_eq_true, if_false]
    generalize (s.jitterBuffer.insert frame packet).entries = entries at *
    cases entries with
    | nil => exact nomatch hmem
    | cons first rest =>
      refine ⟨fun e he => ?_, fun _ e he => by rw [Option.mem_some_iff.mp he]; rfl⟩
      rcases List.mem_cons.mp he with rfl | he
      · exact Nat.le_refl _
      · exact Nat.le_of_lt ((List.pairwise_cons.mp hsorted).1 e he)

/-- A packet goes in and the oldest frames go out until the buffer is shallow enough. -/
theorem place_trims {s : UserAudioState} (sound : s.core.Sound) {frame : Nat}
    (hahead : s.started = true → s.nextPlayFrame ≤ frame) (packet : BufferedPacket) :
    Trims s.started s.maxDepth (s.place frame packet).nextPlayFrame
      (s.jitterBuffer.insert frame packet).entries
      ((s.place frame packet).trim.nextPlayFrame,
        (s.place frame packet).trim.jitterBuffer.entries) := by
  obtain ⟨hbehind, hfirst⟩ := place_next sound hahead packet
  have hdepth : 0 < s.maxDepth := by
    unfold maxDepth
    split
    · exact Nat.succ_pos _
    · exact Nat.succ_pos _
  exact trimLoop_trims hdepth (s.jitterBuffer.insert frame packet).sorted hbehind hfirst

/-- What the buffer holds after an insertion it held before or came in. -/
theorem place_trim_subperm (s : UserAudioState) (frame : Nat) (packet : BufferedPacket) :
    (s.place frame packet).trim.jitterBuffer.entries.Subperm
      ((frame, packet) :: s.jitterBuffer.entries) :=
  (trimLoop_suffix _ _ _ _).sublist.subperm.trans (s.jitterBuffer.insert_subperm frame packet)

theorem place_next_le {s : UserAudioState} (frame : Nat) (packet : BufferedPacket)
    (hstarted : s.started = true) : (s.place frame packet).nextPlayFrame = s.nextPlayFrame := by
  simp [place, hstarted]

/-- Frames that are behind the cursor stay behind it when a packet goes in that is ahead of them. -/
theorem behind_placed {s : UserAudioState} (sound : s.core.Sound) {frame : Nat}
    (hahead : s.started = true → s.nextPlayFrame ≤ frame) (packet : BufferedPacket)
    {frames : List Nat} (hbehind : ∀ played ∈ frames, played < s.nextPlayFrame)
    (hfresh : s.started = false → ∀ played ∈ frames, played < frame) :
    ∀ played ∈ frames, played < (s.place frame packet).trim.nextPlayFrame := by
  intro played hplayed
  have trims := place_trims sound hahead packet
  refine Nat.lt_of_lt_of_le ?_ trims.cursor
  cases hstarted : s.started with
  | true =>
    rw [place_next_le frame packet hstarted]
    exact hbehind played hplayed
  | false =>
    -- the cursor goes to the first buffered frame, the new one or an old one
    obtain ⟨_, hfirst⟩ := place_next sound hahead packet
    cases hhead : (s.jitterBuffer.insert frame packet).entries.head? with
    | none =>
      have hmem := s.jitterBuffer.mem_insert_self frame packet
      rw [List.head?_eq_none_iff.mp hhead] at hmem
      exact nomatch hmem
    | some e =>
      rw [hfirst hstarted e hhead]
      rcases SortedMap.mem_insert.mp (List.mem_of_head? hhead) with rfl | ⟨he, _⟩
      · exact hfresh hstarted played hplayed
      · exact Nat.lt_of_lt_of_le (hbehind played hplayed) (sound.ahead e he)

theorem Core.Sound.placed {s : UserAudioState} (sound : s.core.Sound) {frame : Nat}
    (hahead : s.started = true → s.nextPlayFrame ≤ frame) (packet : BufferedPacket) :
    (s.place frame packet).trim.core.Sound := by
  have trims := place_trims sound hahead packet
  refine ⟨trims.ahead, trims.size, trims.first, fun hstarted => ?_, sound.target, sound.late⟩
  have hkept : (s.place frame packet).nextPlayFrame = s.nextPlayFrame :=
    place_next_le frame packet hstarted
  exact Nat.lt_of_lt_of_le (sound.played hstarted)
    ((Nat.le_of_eq hkept.symm).trans trims.cursor)

theorem Core.Sound.insert {s : UserAudioState} (sound : s.core.Sound) (sequence : UInt32)
    (timestampUs : Nat) (opus : List UInt8) (arrival : Nat) :
    (s.insertPacketAt sequence timestampUs opus arrival).core.Sound := by
  have sound := sound.arrive timestampUs opus arrival
  unfold insertPacketAt
  simp only
  cases hadmitted : (s.arrive timestampUs opus arrival).admission (timestampUs / frameUs) with
  | none =>
    obtain ⟨_, _, hfew, _⟩ := admission_none hadmitted
    refine ⟨sound.ahead, sound.size, sound.first, sound.played, sound.target, ?_⟩
    refine Nat.le_trans (Nat.min_le_left _ _) hfew
  | some s' =>
    obtain ⟨sound', _, hahead⟩ := sound.admission hadmitted
    exact sound'.placed hahead ⟨sequence, opus⟩

/-! ## What a tick can do -/

/-- The outcomes of a playout tick. -/
inductive Ticks (s : UserAudioState) : Tick → Prop
  | idle {t : Tick} (hcore : t.state.core = s.core) (hdecoded : t.decoded = none) : Ticks s t
  | played {t : Tick} (packet : BufferedPacket)
      (hget : s.jitterBuffer.get? s.nextPlayFrame = some packet)
      (hcore : t.state.core = { s.core with
        buffer := s.jitterBuffer.erase s.nextPlayFrame
        next := s.nextPlayFrame + 1
        started := true
        lastSeq := packet.seq
        lastFrame := s.nextPlayFrame
        eos := s.pendingEosSeqs.filter (eosAhead packet.seq) })
      (hdecoded : t.decoded = some (s.nextPlayFrame, packet)) : Ticks s t
  | concealed {t : Tick} (hstarted : s.started = true) (hempty : s.jitterBuffer.entries = [])
      (hcore : t.state.core = { s.core with next := s.nextPlayFrame + 1 })
      (hdecoded : t.decoded = none) : Ticks s t
  | silent {t : Tick} (nextFrame : Nat) (next : BufferedPacket) (hstarted : s.started = true)
      (hget : s.jitterBuffer.get? s.nextPlayFrame = none)
      (hafter : s.jitterBuffer.after s.nextPlayFrame = some (nextFrame, next))
      (hsilence : s.silence nextFrame next.seq = true)
      (hcore : t.state.core = { s.core with next := nextFrame, started := false, eos := [] })
      (hdecoded : t.decoded = none) : Ticks s t
  | lost {t : Tick} (nextFrame : Nat) (next : BufferedPacket) (hstarted : s.started = true)
      (hget : s.jitterBuffer.get? s.nextPlayFrame = none)
      (hafter : s.jitterBuffer.after s.nextPlayFrame = some (nextFrame, next))
      (hsilence : s.silence nextFrame next.seq = false)
      (hcore : t.state.core =
        { s.core with next := s.nextPlayFrame + 1, lost := s.packetsLost + 1 })
      (hdecoded : t.decoded = none) : Ticks s t

theorem guardStale_core (now : Nat) : (s.guardStale now).core = s.core := by
  unfold guardStale
  split <;> rfl

theorem play_ticks {packet : BufferedPacket} (codec : Codec)
    (hget : s.jitterBuffer.get? s.nextPlayFrame = some packet) : Ticks s (s.play packet codec) := by
  unfold play
  split
  · exact .played packet hget rfl rfl
  · exact .played packet hget rfl rfl

theorem lose_core (nextFrame : Nat) (next : BufferedPacket) (codec : Codec) :
    (s.lose nextFrame next codec).state.core =
        { s.core with next := s.nextPlayFrame + 1, lost := s.packetsLost + 1 } ∧
      (s.lose nextFrame next codec).decoded = none := by
  unfold lose
  simp only
  split
  · split
    · exact ⟨rfl, rfl⟩
    · exact ⟨rfl, rfl⟩
  · exact ⟨rfl, rfl⟩

/-- With nothing at the cursor or after it the buffer is empty. -/
theorem Core.Sound.empty_of_after {s : UserAudioState} (sound : s.core.Sound)
    (hget : s.jitterBuffer.get? s.nextPlayFrame = none)
    (hafter : s.jitterBuffer.after s.nextPlayFrame = none) : s.jitterBuffer.entries = [] := by
  refine List.eq_nil_iff_forall_not_mem.mpr fun e he => ?_
  have hne := SortedMap.get?_eq_none.mp hget e he
  have hle := List.find?_eq_none.mp hafter e he
  have hahead := sound.ahead e he
  simp only [core, decide_eq_true_eq, Nat.not_lt] at hle hahead
  omega

/-- A stopped playout that is ready has a frame at its cursor. -/
theorem Core.Sound.get_of_ready {s : UserAudioState} (sound : s.core.Sound)
    (hready : s.readyToPlay = true) (hstopped : s.started = false) :
    ∃ packet, s.jitterBuffer.get? s.nextPlayFrame = some packet := by
  have hdepth : s.targetFrames ≤ s.depth := by simpa [readyToPlay, hstopped] using hready
  have htarget : 0 < s.targetFrames := Nat.lt_of_lt_of_le (by decide) sound.target.1
  have hpos : 0 < s.depth := Nat.lt_of_lt_of_le htarget hdepth
  have hlength : s.depth ≤ s.jitterBuffer.entries.length := List.length_filter_le _ _
  cases hentries : s.jitterBuffer.entries with
  | nil => rw [hentries] at hlength; exact absurd hlength (Nat.not_le.mpr hpos)
  | cons e rest =>
    have hfirst : s.nextPlayFrame = e.1 := sound.first hstopped e (by
      change e ∈ s.jitterBuffer.entries.head?
      rw [hentries]
      rfl)
    refine ⟨e.2, SortedMap.get?_eq_some.mpr ?_⟩
    rw [hfirst, hentries]
    exact List.mem_cons_self

theorem decodeAtCursor_ticks {s : UserAudioState} (sound : s.core.Sound)
    (hready : s.readyToPlay = true) (codec : Codec) : Ticks s (s.decodeAtCursor codec) := by
  unfold decodeAtCursor
  cases hget : s.jitterBuffer.get? s.nextPlayFrame with
  | some packet => exact s.play_ticks codec hget
  | none =>
    have hstarted : s.started = true := by
      refine by_contra fun h => ?_
      obtain ⟨packet, hsome⟩ := sound.get_of_ready hready (Bool.eq_false_iff.mpr h)
      rw [hget] at hsome
      exact nomatch hsome
    cases hafter : s.jitterBuffer.after s.nextPlayFrame with
    | none =>
      simp only
      split
      · exact .idle rfl rfl
      · exact .concealed hstarted (sound.empty_of_after hget hafter) rfl rfl
    | some next =>
      obtain ⟨nextFrame, next⟩ := next
      simp only [hstarted, Bool.true_and]
      split
      case isTrue hsilence => exact .silent nextFrame next hstarted hget hafter hsilence rfl rfl
      case isFalse hsilence =>
        obtain ⟨hcore, hdecoded⟩ := s.lose_core nextFrame next codec
        exact .lost nextFrame next hstarted hget hafter (Bool.eq_false_iff.mpr hsilence) hcore
          hdecoded

/-- The outcomes depend on the core only. -/
theorem Ticks.of_core {s s' : UserAudioState} {t : Tick} (h : Ticks s' t)
    (hcore : s'.core = s.core) : Ticks s t := by
  have hbuffer : s'.jitterBuffer = s.jitterBuffer := congrArg Core.buffer hcore
  have hnext : s'.nextPlayFrame = s.nextPlayFrame := congrArg Core.next hcore
  have hstarted : s'.started = s.started := congrArg Core.started hcore
  have hseq : s'.lastPlayedSeq = s.lastPlayedSeq := congrArg Core.lastSeq hcore
  have hframe : s'.lastPlayedFrame = s.lastPlayedFrame := congrArg Core.lastFrame hcore
  have heos : s'.pendingEosSeqs = s.pendingEosSeqs := congrArg Core.eos hcore
  have hlost : s'.packetsLost = s.packetsLost := congrArg Core.lost hcore
  have hsilence (nextFrame : Nat) (nextSeq : UInt32) :
      s'.silence nextFrame nextSeq = s.silence nextFrame nextSeq := by
    simp only [silence, hseq, hframe, heos]
  cases h with
  | idle h hdecoded => exact .idle (h.trans hcore) hdecoded
  | played packet hget h hdecoded =>
    rw [hbuffer, hnext] at hget
    rw [hcore, hbuffer, hnext, heos] at h
    exact .played packet hget h (hnext ▸ hdecoded)
  | concealed hs hempty h hdecoded =>
    rw [hcore, hnext] at h
    exact .concealed (hstarted ▸ hs) (hbuffer ▸ hempty) h hdecoded
  | silent nextFrame next hs hget hafter hsil h hdecoded =>
    rw [hbuffer, hnext] at hget hafter
    rw [hcore] at h
    exact .silent nextFrame next (hstarted ▸ hs) hget hafter (hsilence _ _ ▸ hsil) h hdecoded
  | lost nextFrame next hs hget hafter hsil h hdecoded =>
    rw [hbuffer, hnext] at hget hafter
    rw [hcore, hnext, hlost] at h
    exact .lost nextFrame next (hstarted ▸ hs) hget hafter (hsilence _ _ ▸ hsil) h hdecoded

theorem readyToPlay_of_core {s s' : UserAudioState} (hcore : s'.core = s.core) :
    s'.readyToPlay = s.readyToPlay := by
  have hbuffer : s'.jitterBuffer = s.jitterBuffer := congrArg Core.buffer hcore
  have hnext : s'.nextPlayFrame = s.nextPlayFrame := congrArg Core.next hcore
  have hstarted : s'.started = s.started := congrArg Core.started hcore
  have htarget : s'.targetFrames = s.targetFrames := congrArg Core.target hcore
  unfold readyToPlay depth
  rw [hbuffer, hnext, hstarted, htarget]

theorem decodeNextInto_ticks {s : UserAudioState} (sound : s.core.Sound) (now : Nat)
    (codec : Codec) : Ticks s (s.decodeNextInto now codec) := by
  unfold decodeNextInto
  split
  · exact .idle rfl rfl
  · rename_i hready
    simp only
    split
    · exact .idle (s.guardStale_core now) rfl
    · have hcore : ({ s.guardStale now with needsPrime := false } : UserAudioState).core = s.core :=
        s.guardStale_core now
      refine (decodeAtCursor_ticks (hcore ▸ sound) ?_ codec).of_core hcore
      rw [readyToPlay_of_core hcore]
      simpa using hready

/-- Behind a missing frame at the cursor the next packet is the first one of the buffer. -/
theorem Core.Sound.after_first {s : UserAudioState} (sound : s.core.Sound)
    (hget : s.jitterBuffer.get? s.nextPlayFrame = none) :
    (∀ e ∈ s.jitterBuffer.entries, s.nextPlayFrame < e.1) ∧
      s.jitterBuffer.after s.nextPlayFrame = s.jitterBuffer.entries.head? := by
  have hahead : ∀ e ∈ s.jitterBuffer.entries, s.nextPlayFrame < e.1 := fun e he =>
    Nat.lt_of_le_of_ne (sound.ahead e he) (SortedMap.get?_eq_none.mp hget e he).symm
  exact ⟨hahead, SortedMap.after_eq_head? hahead⟩

theorem Core.Sound.tick {s : UserAudioState} (sound : s.core.Sound) (now : Nat) (codec : Codec) :
    (s.decodeNextInto now codec).state.core.Sound := by
  cases decodeNextInto_ticks sound now codec with
  | idle hcore _ => exact hcore ▸ sound
  | played packet hget hcore _ =>
    rw [hcore]
    refine ⟨fun e he => ?_, ?_, fun h => (nomatch h), fun _ => Nat.lt_succ_self _, sound.target,
      sound.late⟩
    · obtain ⟨he, hne⟩ := List.mem_filter.mp he
      have hne : e.1 ≠ s.nextPlayFrame := by simpa using hne
      have hahead := sound.ahead e he
      exact Nat.lt_of_le_of_ne hahead hne.symm
    · exact Nat.le_trans (List.length_filter_le _ _) sound.size
  | concealed hstarted hempty hcore _ =>
    rw [hcore]
    refine ⟨fun e he => ?_, sound.size, fun h => ?_, fun _ => ?_, sound.target, sound.late⟩
    · exact absurd he (hempty ▸ List.not_mem_nil)
    · exact absurd (hstarted.symm.trans h) (by decide)
    · exact Nat.lt_succ_of_lt (sound.played hstarted)
  | silent nextFrame next hstarted hget hafter _ hcore _ =>
    rw [hcore]
    rw [(sound.after_first hget).2] at hafter
    refine ⟨fun e he => SortedMap.head?_le hafter he, sound.size, fun _ e he => ?_,
      fun h => (nomatch h), sound.target, sound.late⟩
    exact congrArg Prod.fst (Option.some.inj (hafter.symm.trans he))
  | lost nextFrame next hstarted hget hafter _ hcore _ =>
    rw [hcore]
    refine ⟨(sound.after_first hget).1, sound.size, fun h => ?_, fun _ => ?_, sound.target,
      sound.late⟩
    · exact absurd (hstarted.symm.trans h) (by decide)
    · exact Nat.lt_succ_of_lt (sound.played hstarted)

theorem Core.Sound.step {s : UserAudioState} (sound : s.core.Sound) (e : JitterEvent) :
    (s.step e).core.Sound := by
  cases e with
  | packet sequence timestampUs opus arrival =>
    exact sound.insert sequence timestampUs opus arrival
  | endOfStream sequence =>
    exact ⟨sound.ahead, sound.size, sound.first, sound.played, sound.target, sound.late⟩
  | tick now codec => exact sound.tick now codec

theorem run_concat (es : List JitterEvent) (e : JitterEvent) :
    s.run (es ++ [e]) = (s.run es).step e := by
  simp [run, List.foldl_append]

theorem run_append (es es' : List JitterEvent) : s.run (es ++ es') = (s.run es).run es' := by
  simp [run, List.foldl_append]

theorem Core.Sound.run {s : UserAudioState} (sound : s.core.Sound) (es : List JitterEvent) :
    (s.run es).core.Sound := by
  induction es using List.reverseRecOn with
  | nil => exact sound
  | append_singleton es e ih =>
    rw [run_concat]
    exact ih.step e

/-- An insert that goes through leaves a running playout near its target. -/
theorem depth_of_inserted {s : UserAudioState} (sound : s.core.Sound) (sequence : UInt32)
    (timestampUs : Nat) (opus : List UInt8) (arrival : Nat)
    (h : ¬ s.DropsLate (.packet sequence timestampUs opus arrival))
    (hstarted : (s.insertPacketAt sequence timestampUs opus arrival).started = true) :
    (s.insertPacketAt sequence timestampUs opus arrival).depth ≤
      (s.insertPacketAt sequence timestampUs opus arrival).targetFrames + driftDropSlack := by
  have sound := sound.arrive timestampUs opus arrival
  unfold insertPacketAt at *
  simp only at *
  cases hadmitted : (s.arrive timestampUs opus arrival).admission (timestampUs / frameUs) with
  | none => exact absurd hadmitted h
  | some s' =>
    obtain ⟨sound', _, hahead⟩ := sound.admission hadmitted
    rw [hadmitted] at hstarted
    have trims := place_trims sound' hahead ⟨sequence, opus⟩
    have hdepth := trims.depth
    have hmax : s'.maxDepth = s'.targetFrames + driftDropSlack := if_pos hstarted
    rw [hmax] at hdepth
    exact Nat.le_trans (List.length_filter_le _ _) hdepth

/-- Only packets count as late, and each that is dropped counts once. -/
theorem late_of_dropped {s : UserAudioState} (sound : s.core.Sound) (e : JitterEvent)
    (h : e.isPacket = true → s.DropsLate e) :
    (s.step e).consecutiveLate = s.consecutiveLate + if e.isPacket then 1 else 0 := by
  cases e with
  | packet sequence timestampUs opus arrival =>
    have hadmitted : (s.arrive timestampUs opus arrival).admission (timestampUs / frameUs) = none := h rfl
    obtain ⟨_, _, hfew, _⟩ := admission_none hadmitted
    obtain ⟨target, hcore, _⟩ := s.arrive_core timestampUs opus arrival
    have hlate : (s.arrive timestampUs opus arrival).consecutiveLate = s.consecutiveLate :=
      congrArg Core.late hcore
    change (s.insertPacketAt sequence timestampUs opus arrival).consecutiveLate = _
    unfold insertPacketAt
    simp only [hadmitted, hlate, JitterEvent.isPacket, if_true]
    refine saturatingAdd_of_le (Nat.le_trans (hlate ▸ hfew) ?_)
    decide
  | endOfStream => rfl
  | tick now codec =>
    change (s.decodeNextInto now codec).state.core.late = s.core.late
    cases decodeNextInto_ticks sound now codec with
    | idle hcore _ => rw [hcore]
    | played _ _ hcore _ => rw [hcore]
    | concealed _ _ hcore _ => rw [hcore]
    | silent _ _ _ _ _ _ hcore _ => rw [hcore]
    | lost _ _ _ _ _ _ hcore _ => rw [hcore]

/-- While every packet is dropped, the counter counts them. -/
theorem late_run {s : UserAudioState} (sound : s.core.Sound) (es : List JitterEvent)
    (h : ∀ pre e, pre ++ [e] <+: es → e.isPacket = true → (s.run pre).DropsLate e) :
    (s.run es).consecutiveLate = s.consecutiveLate + es.countP JitterEvent.isPacket := by
  induction es using List.reverseRecOn with
  | nil => rfl
  | append_singleton es e ih =>
    have hrest := ih fun pre e' hp => h pre e' (hp.trans (List.prefix_append _ _))
    rw [run_concat, late_of_dropped (sound.run es) e (h es e (List.prefix_refl _)), hrest,
      List.countP_append, List.countP_singleton, Nat.add_assoc]

/-- **The jitter buffer stays sound.** After any packets, end markers and ticks, every buffered
frame is at or ahead of the cursor, the buffer is not over its cap, and a running playout is past
the frame it last played. An insert that is not dropped as late leaves a running playout at most the
slack deeper than its target, and no more than ten packets in a row are dropped as late. -/
theorem jitter_sound (baseDelay now : Nat) (es : List JitterEvent) :
    (∀ e ∈ ((new baseDelay now).run es).jitterBuffer.entries,
      ((new baseDelay now).run es).nextPlayFrame ≤ e.1) ∧
    ((new baseDelay now).run es).jitterBuffer.entries.length ≤ jitterBufferMaxPackets ∧
    (((new baseDelay now).run es).started = true →
      ((new baseDelay now).run es).lastPlayedFrame < ((new baseDelay now).run es).nextPlayFrame) ∧
    (∀ sequence timestampUs opus arrival,
      ¬ ((new baseDelay now).run es).DropsLate (.packet sequence timestampUs opus arrival) →
      (((new baseDelay now).run es).insertPacketAt sequence timestampUs opus arrival).started =
        true →
      (((new baseDelay now).run es).insertPacketAt sequence timestampUs opus arrival).depth ≤
        (((new baseDelay now).run es).insertPacketAt sequence timestampUs opus
          arrival).targetFrames + driftDropSlack) ∧
    ∀ es', (∀ pre e, pre ++ [e] <+: es' → e.isPacket = true →
        ((new baseDelay now).run (es ++ pre)).DropsLate e) →
      es'.countP JitterEvent.isPacket ≤ lateResyncFrames := by
  have sound := (new_sound baseDelay now).run es
  refine ⟨sound.ahead, sound.size, sound.played, fun sequence timestampUs opus arrival =>
    depth_of_inserted sound sequence timestampUs opus arrival, fun es' h => ?_⟩
  have hrun := late_run sound es' fun pre e hp he => by
    rw [← run_append]
    exact h pre e hp he
  have hlate := (sound.run es').late
  change ((new baseDelay now).run es |>.run es').consecutiveLate ≤ _ at hlate
  omega

end UserAudioState

end Rumble.Client.Jitter
