import Mathlib.Data.List.DropRight
import Rumble.Client.JitterBuffer
import Rumble.Lib.Transition

/-!
# Playout order

What the decoder is given, in the order it is given. A packet that comes in while playout is stopped
is not held against what was played before, so after a jump over silence a late or repeated packet
takes the cursor back and old audio is played again (`not_inOrder`). `inOrder_run`: when every
packet that comes in during a stop lies ahead of what was decoded since the last restart or resync,
each packet is decoded at most once and frames are decoded in ascending order between restarts.
-/

namespace Rumble.Client.Jitter

open Rumble.Lib Rumble.Lib.Transition

/-! ## The log -/

/-- A packet that was given to the decoder, or a start over: the sender restarted, or a run of late
packets grew too long. -/
inductive PlayoutMark where
  | decoded (frame : Nat) (packet : BufferedPacket)
  | startedOver
  deriving DecidableEq

def PlayoutMark.entry : PlayoutMark → Option (Nat × BufferedPacket)
  | decoded frame packet => some (frame, packet)
  | startedOver => none

/-- The frames decoded since the last start over, oldest first. -/
def recent (log : List PlayoutMark) : List Nat :=
  ((log.rtakeWhile (·.entry.isSome)).filterMap PlayoutMark.entry).map (·.1)

@[simp] theorem recent_nil : recent [] = [] := rfl

@[simp] theorem recent_decoded (log : List PlayoutMark) (frame : Nat) (packet : BufferedPacket) :
    recent (log ++ [.decoded frame packet]) = recent log ++ [frame] := by
  unfold recent
  rw [List.rtakeWhile_concat_pos _ _ _ rfl]
  simp [PlayoutMark.entry]

@[simp] theorem recent_startedOver (log : List PlayoutMark) :
    recent (log ++ [.startedOver]) = [] := by
  unfold recent
  rw [List.rtakeWhile_concat_neg _ _ _ (by decide)]
  rfl

/-- The packets that were given to the decoder. -/
def decodedPackets (log : List PlayoutMark) : List (Nat × BufferedPacket) :=
  log.filterMap PlayoutMark.entry

/-- Every frame that is decoded is ahead of all that were decoded since the last start over. -/
def Ascending (log : List PlayoutMark) : Prop :=
  ∀ pre frame packet, pre ++ [.decoded frame packet] <+: log → ∀ played ∈ recent pre, played < frame

theorem ascending_nil : Ascending [] := fun _ _ _ hp => absurd hp.length_le (by simp)

theorem Ascending.startedOver {log : List PlayoutMark} (h : Ascending log) :
    Ascending (log ++ [.startedOver]) := by
  intro pre frame packet hp
  rcases List.prefix_concat_iff.mp hp with heq | hp
  · exact absurd (List.append_inj_right' heq rfl) (by simp)
  · exact h pre frame packet hp

theorem Ascending.decoded {log : List PlayoutMark} (h : Ascending log) {frame : Nat}
    (hframe : ∀ played ∈ recent log, played < frame) (packet : BufferedPacket) :
    Ascending (log ++ [.decoded frame packet]) := by
  intro pre frame' packet' hp
  rcases List.prefix_concat_iff.mp hp with heq | hp
  · obtain ⟨rfl, hlast⟩ := List.append_inj' heq rfl
    obtain ⟨rfl, _⟩ := PlayoutMark.decoded.inj (List.cons.inj hlast).1
    exact hframe
  · exact h pre frame' packet' hp

/-- A playback state with the packets that came in so far and the log. -/
structure Traced where
  state : UserAudioState
  inserted : List (Nat × BufferedPacket)
  log : List PlayoutMark

namespace UserAudioState

/-- What an event adds to the log. -/
def marks (s : UserAudioState) : JitterEvent → List PlayoutMark
  | .packet _ timestampUs opus arrival =>
    let s := s.arrive timestampUs opus arrival
    if s.restarts (timestampUs / frameUs) || s.resyncs (timestampUs / frameUs) then [.startedOver]
    else []
  | .endOfStream _ => []
  | .tick now codec =>
    match (s.decodeNextInto now codec).decoded with
    | some (frame, packet) => [.decoded frame packet]
    | none => []

end UserAudioState

/-- The packet that comes in with an event. -/
def JitterEvent.inserted : JitterEvent → List (Nat × BufferedPacket)
  | .packet sequence timestampUs opus _ => [(timestampUs / frameUs, ⟨sequence, opus⟩)]
  | _ => []

namespace Traced

/-- A new peer. -/
def start (baseDelay now : Nat) : Traced := ⟨.new baseDelay now, [], []⟩

def step (t : Traced) (e : JitterEvent) : Traced where
  state := t.state.step e
  inserted := t.inserted ++ e.inserted
  log := t.log ++ t.state.marks e

/-! ## The property and its condition -/

/-- Every packet is decoded at most as often as it came in, and every frame that is decoded is ahead
of all that were decoded since the last start over. -/
structure InOrder (t : Traced) : Prop where
  once : (decodedPackets t.log).Subperm t.inserted
  ascending : Ascending t.log

/-- A packet that comes in while playout is stopped is ahead of all frames decoded since the last
start over. -/
def Fresh (t : Traced) : JitterEvent → Prop
  | .packet _ timestampUs _ _ =>
    t.state.started = false → ∀ played ∈ recent t.log, played < timestampUs / frameUs
  | _ => True

instance (t : Traced) : ∀ e, Decidable (t.Fresh e)
  | .packet _ timestampUs _ _ => inferInstanceAs (Decidable
      (t.state.started = false → ∀ played ∈ recent t.log, played < timestampUs / frameUs))
  | .endOfStream _ => isTrue trivial
  | .tick _ _ => isTrue trivial

/-! ## What every step keeps -/

/-- What was decoded and what is buffered came in, and the cursor is past all that was decoded since
the last start over. -/
structure Tracks (t : Traced) : Prop where
  sound : t.state.core.Sound
  once : (decodedPackets t.log ++ t.state.jitterBuffer.entries).Subperm t.inserted
  behind : ∀ played ∈ recent t.log, played < t.state.nextPlayFrame
  ascending : Ascending t.log

theorem start_tracks (baseDelay now : Nat) : (start baseDelay now).Tracks where
  sound := UserAudioState.new_sound baseDelay now
  once := List.nil_subperm
  behind := fun _ h => nomatch h
  ascending := ascending_nil

theorem Tracks.inOrder {t : Traced} (tracks : t.Tracks) : t.InOrder where
  once := (List.sublist_append_left _ _).subperm.trans tracks.once
  ascending := tracks.ascending

/-- The log so far with one more packet that came in. -/
theorem once_insert {decoded buffered buffered' inserted : List (Nat × BufferedPacket)}
    {entry : Nat × BufferedPacket} (h : (decoded ++ buffered).Subperm inserted)
    (hbuffered : buffered'.Subperm (entry :: buffered)) :
    (decoded ++ buffered').Subperm (inserted ++ [entry]) := by
  have hall : (decoded ++ buffered').Subperm (decoded ++ entry :: buffered) :=
    (List.subperm_append_left decoded).mpr hbuffered
  refine hall.trans (List.perm_middle.subperm.trans ?_)
  exact ((List.subperm_cons entry).mpr h).trans
    (List.perm_append_singleton entry inserted).symm.subperm

theorem Tracks.packet {t : Traced} (tracks : t.Tracks) (sequence : UInt32) (timestampUs : Nat)
    (opus : List UInt8) (arrival : Nat)
    (fresh : t.Fresh (.packet sequence timestampUs opus arrival)) :
    (t.step (.packet sequence timestampUs opus arrival)).Tracks := by
  have sound := tracks.sound.arrive timestampUs opus arrival
  have hsound := tracks.sound.step (.packet sequence timestampUs opus arrival)
  obtain ⟨target, hcore, _⟩ := t.state.arrive_core timestampUs opus arrival
  have hbuffer : (t.state.arrive timestampUs opus arrival).jitterBuffer = t.state.jitterBuffer :=
    congrArg UserAudioState.Core.buffer hcore
  have hnext : (t.state.arrive timestampUs opus arrival).nextPlayFrame = t.state.nextPlayFrame :=
    congrArg UserAudioState.Core.next hcore
  have hstarted : (t.state.arrive timestampUs opus arrival).started = t.state.started :=
    congrArg UserAudioState.Core.started hcore
  have honce := tracks.once
  have hbehind := tracks.behind
  rw [← hbuffer] at honce
  rw [← hnext] at hbehind
  have hfresh : (t.state.arrive timestampUs opus arrival).started = false →
      ∀ played ∈ recent t.log, played < timestampUs / frameUs := fun h =>
    fresh (hstarted.symm.trans h)
  have hmarks : t.state.marks (.packet sequence timestampUs opus arrival) =
      if (t.state.arrive timestampUs opus arrival).restarts (timestampUs / frameUs) ||
        (t.state.arrive timestampUs opus arrival).resyncs (timestampUs / frameUs)
      then [.startedOver] else [] := rfl
  have hstep : (t.state.step (.packet sequence timestampUs opus arrival)) =
      t.state.insertPacketAt sequence timestampUs opus arrival := rfl
  unfold Traced.step
  rw [hmarks]
  rw [hstep] at hsound ⊢
  unfold UserAudioState.insertPacketAt at *
  simp only [JitterEvent.inserted] at *
  generalize t.state.arrive timestampUs opus arrival = s at *
  cases hadmitted : s.admission (timestampUs / frameUs) with
  | none =>
    rw [hadmitted] at hsound
    obtain ⟨_, _, _, hkept⟩ := UserAudioState.admission_none hadmitted
    rw [hkept]
    refine ⟨hsound, ?_, ?_, ?_⟩
    · exact (List.append_nil t.log).symm ▸ honce.trans (List.sublist_append_left _ _).subperm
    · exact (List.append_nil t.log).symm ▸ hbehind
    · exact (List.append_nil t.log).symm ▸ tracks.ascending
  | some s' =>
    rw [hadmitted] at hsound
    obtain ⟨sound', _, hahead⟩ := sound.admission hadmitted
    have hplaced := s'.place_trim_subperm (timestampUs / frameUs) ⟨sequence, opus⟩
    rcases UserAudioState.admission_cases hadmitted with ⟨hover, rfl⟩ | ⟨hover, rfl, _⟩
    · rw [hover]
      refine ⟨hsound, ?_, ?_, tracks.ascending.startedOver⟩
      · have hdecoded : decodedPackets (t.log ++ [.startedOver]) = decodedPackets t.log := by
          simp [decodedPackets, PlayoutMark.entry]
        refine hdecoded.symm ▸ once_insert honce (hplaced.trans ?_)
        exact (List.subperm_cons _).mpr List.nil_subperm
      · intro played hplayed
        simp only [if_true, recent_startedOver] at hplayed
        exact nomatch hplayed
    · rw [hover]
      refine ⟨hsound, ?_, ?_, ?_⟩
      · exact (List.append_nil t.log).symm ▸ once_insert honce hplaced
      · exact (List.append_nil t.log).symm ▸
          UserAudioState.behind_placed sound' hahead ⟨sequence, opus⟩ hbehind hfresh
      · exact (List.append_nil t.log).symm ▸ tracks.ascending

/-- A tick that decodes nothing and does not take the cursor back. -/
theorem Tracks.silentTick {t : Traced} (tracks : t.Tracks) {s' : UserAudioState}
    (sound : s'.core.Sound) (hbuffer : s'.jitterBuffer = t.state.jitterBuffer)
    (hnext : t.state.nextPlayFrame ≤ s'.nextPlayFrame) :
    Tracks ⟨s', t.inserted ++ [], t.log ++ []⟩ := by
  rw [List.append_nil, List.append_nil]
  refine ⟨sound, ?_, fun played h => Nat.lt_of_lt_of_le (tracks.behind played h) hnext,
    tracks.ascending⟩
  rw [hbuffer]
  exact tracks.once

theorem Tracks.tick {t : Traced} (tracks : t.Tracks) (now : Nat) (codec : Codec) :
    (t.step (.tick now codec)).Tracks := by
  have sound := tracks.sound.tick now codec
  have hmarks : t.state.marks (.tick now codec) =
      match (t.state.decodeNextInto now codec).decoded with
      | some (frame, packet) => [.decoded frame packet]
      | none => [] := rfl
  unfold Traced.step
  rw [hmarks]
  change Tracks ⟨(t.state.decodeNextInto now codec).state, t.inserted ++ [], _⟩
  cases UserAudioState.decodeNextInto_ticks tracks.sound now codec with
  | idle hcore hdecoded =>
    rw [hdecoded]
    exact tracks.silentTick sound (congrArg UserAudioState.Core.buffer hcore)
      (Nat.le_of_eq (congrArg UserAudioState.Core.next hcore).symm)
  | played packet hget hcore hdecoded =>
    have hbuffer : (t.state.decodeNextInto now codec).state.jitterBuffer =
        t.state.jitterBuffer.erase t.state.nextPlayFrame :=
      congrArg UserAudioState.Core.buffer hcore
    have hnext : (t.state.decodeNextInto now codec).state.nextPlayFrame =
        t.state.nextPlayFrame + 1 := congrArg UserAudioState.Core.next hcore
    rw [hdecoded, List.append_nil]
    refine ⟨sound, ?_, fun played hplayed => ?_, tracks.ascending.decoded tracks.behind packet⟩
    · have hdecoded : decodedPackets (t.log ++ [.decoded t.state.nextPlayFrame packet]) =
          decodedPackets t.log ++ [(t.state.nextPlayFrame, packet)] := by
        simp [decodedPackets, PlayoutMark.entry]
      have hout := SortedMap.erase_subperm (SortedMap.get?_eq_some.mp hget)
      rw [hbuffer, hdecoded, List.append_assoc]
      exact ((List.subperm_append_left _).mpr hout).trans tracks.once
    · rw [hnext]
      rw [recent_decoded] at hplayed
      rcases List.mem_append.mp hplayed with hplayed | hplayed
      · exact Nat.lt_succ_of_lt (tracks.behind played hplayed)
      · rw [List.mem_singleton.mp hplayed]
        exact Nat.lt_succ_self _
  | concealed _ _ hcore hdecoded =>
    have hnext : (t.state.decodeNextInto now codec).state.nextPlayFrame =
        t.state.nextPlayFrame + 1 := congrArg UserAudioState.Core.next hcore
    rw [hdecoded]
    refine tracks.silentTick sound (congrArg UserAudioState.Core.buffer hcore) ?_
    rw [hnext]
    exact Nat.le_succ _
  | silent nextFrame next hstarted hget hafter _ hcore hdecoded =>
    have hnext : (t.state.decodeNextInto now codec).state.nextPlayFrame = nextFrame :=
      congrArg UserAudioState.Core.next hcore
    rw [hdecoded]
    refine tracks.silentTick sound (congrArg UserAudioState.Core.buffer hcore) ?_
    rw [hnext]
    rw [(tracks.sound.after_first hget).2] at hafter
    exact tracks.sound.ahead _ (List.mem_of_head? hafter)
  | lost _ _ _ _ _ _ hcore hdecoded =>
    have hnext : (t.state.decodeNextInto now codec).state.nextPlayFrame =
        t.state.nextPlayFrame + 1 := congrArg UserAudioState.Core.next hcore
    rw [hdecoded]
    refine tracks.silentTick sound (congrArg UserAudioState.Core.buffer hcore) ?_
    rw [hnext]
    exact Nat.le_succ _

theorem Tracks.step {t : Traced} (tracks : t.Tracks) (e : JitterEvent) (fresh : t.Fresh e) :
    (t.step e).Tracks := by
  cases e with
  | packet sequence timestampUs opus arrival =>
    exact tracks.packet sequence timestampUs opus arrival fresh
  | endOfStream sequence =>
    exact tracks.silentTick (tracks.sound.step (.endOfStream sequence)) rfl (Nat.le_refl _)
  | tick now codec => exact tracks.tick now codec

/-- **Playout order.** In a run whose every step meets `Fresh`, every packet is decoded at most once
and frames are decoded in ascending order from one start over to the next, in each state reached. -/
theorem inOrder_run {baseDelay now : Nat} {es : List JitterEvent}
    (h : Always step Fresh (start baseDelay now) es) {pre : List JitterEvent} (hp : pre <+: es) :
    (pre.foldl step (start baseDelay now)).InOrder :=
  (h.invariant_all (fun _ e fresh tracks => Tracks.step tracks e fresh) (start_tracks baseDelay now)
    hp).inOrder

/-- A decoder that answers whole frames. -/
def plainCodec : Codec := ⟨fun _ => some 960, fun _ => some 960, some 960⟩

/-- Two packets are played in order, then the sender is silent and comes back. -/
def spurtAfterSilence : List JitterEvent :=
  [.packet 0 0 [1] 0, .packet 1 20000 [2] 20000000, .tick 20000000 plainCodec,
    .tick 40000000 plainCodec, .endOfStream 2, .packet 3 400000 [3] 400000000,
    .tick 400000000 plainCodec]

theorem inOrder_spurt :
    (spurtAfterSilence.foldl step (start 2 0)).InOrder ∧
      recent (spurtAfterSilence.foldl step (start 2 0)).log = [0, 1] := by
  have fresh : Always step Fresh (start 2 0) spurtAfterSilence := by decide +kernel
  exact ⟨inOrder_run fresh (List.prefix_refl _), by decide +kernel⟩

/-- The same, then a second copy of the first packet. -/
def staleCopy : List JitterEvent :=
  spurtAfterSilence ++ [.packet 0 0 [1] 405000000, .tick 420000000 plainCodec]

/-- **Old audio is played again.** After the silence playout has stopped, and the copy takes the
cursor back. No restart and no run of late packets is there. -/
theorem not_inOrder : ¬ (staleCopy.foldl step (start 2 0)).InOrder ∧
    PlayoutMark.startedOver ∉ (staleCopy.foldl step (start 2 0)).log := by
  have hlog : (staleCopy.foldl step (start 2 0)).log =
      [.decoded 0 ⟨0, [1]⟩, .decoded 1 ⟨1, [2]⟩] ++ [.decoded 0 ⟨0, [1]⟩] := by decide +kernel
  refine ⟨fun h => ?_, by rw [hlog]; decide⟩
  have hold := h.ascending [.decoded 0 ⟨0, [1]⟩, .decoded 1 ⟨1, [2]⟩] 0 ⟨0, [1]⟩
    (hlog ▸ List.prefix_refl _) 0 (by decide)
  exact absurd hold (by decide)

end Traced

end Rumble.Client.Jitter
