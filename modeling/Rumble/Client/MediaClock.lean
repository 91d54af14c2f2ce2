import Mathlib.Data.List.Pairwise
import Rumble.Client.CaptureGate
import Rumble.Lib.Transition

/-!
# Frames stay on their connection

The capture callback fills a queue of encoded frames, and the loop of the audio task empties it onto
the connection it holds at that time. A new connection swaps the handle and the media clock without
looking at the queue, so what waits there goes out on the new connection (`not_keptApart`).
`keptApart_run`: as long as every new connection finds no frame waiting, in the queue or in the
pre-roll ring, each frame is sent on the connection it was captured on, and the timestamps sent on a
connection increase.
-/

namespace Rumble.Client

open Rumble.Lib Rumble.Lib.Transition

variable {π : Type}

/-! ## The task and its queue -/

def Output.queuedMessage : Output π → Option CaptureMessage
  | .queued message => some message
  | _ => none

def CaptureMessage.frame : CaptureMessage → Option CapturedFrame
  | .encodedFrame _ frame => some frame
  | .endOfStream _ => none

/-- A frame that went out, and on which connection. -/
def Output.sentFrame : Output π → Option (Nat × CapturedFrame)
  | .sent connection message _ => message.frame.map (connection, ·)
  | _ => none

/-- The task with its queue of encoded frames, the number of connections so far, and a record of the
frames sent, oldest first. -/
structure CaptureSys (π : Type) where
  task : AudioTask π
  encoded : List CaptureMessage
  established : Nat
  sent : List (Nat × CapturedFrame)

/-- The moves of `Turn`, where an encoded frame is the oldest of the queue, and the end of the
datagram stream. -/
inductive CaptureMove (π : Type) where
  | command (env : AudioEnv) (command : AudioCommand π)
  | encodedReady (sends : Bool)
  | datagram (env : AudioEnv) (voice : VoiceDatagram)
  | cleanup (env : AudioEnv)
  | deviceHealth (env : AudioEnv)
  | captureFrame (processed : AudioTask.Processed)
  | datagramsEnded

namespace CaptureSys

variable (s : CaptureSys π)

def start (env : AudioEnv) (settings : AudioSettings) (tx rx : π)
    (perUserRx : Table UserId (UserRxConfig π)) : CaptureSys π where
  task := .start env settings tx rx perUserRx
  encoded := []
  established := 0
  sent := []

/-- What a turn queued and sent. -/
def absorb (t : AudioTask π) : CaptureSys π :=
  { s with
    task := t
    encoded := s.encoded ++ t.out.filterMap Output.queuedMessage
    sent := s.sent ++ t.out.filterMap Output.sentFrame }

/-- Connections are numbered as they are established. -/
def numbered : AudioCommand π → AudioCommand π
  | .connectionEstablished _ myUserId => .connectionEstablished (s.established + 1) myUserId
  | command => command

def establishes : AudioCommand π → Nat
  | .connectionEstablished _ _ => 1
  | _ => 0

def step [BEq π] (s : CaptureSys π) : CaptureMove π → CaptureSys π
  | .command env command =>
    { s.absorb (s.task.turn (.command env (s.numbered command))) with
      established := s.established + establishes command }
  | .encodedReady sends =>
    match s.encoded with
    | [] => s
    | message :: rest =>
      if s.task.running then
        { s with encoded := rest }.absorb (s.task.turn (.encodedReady message sends))
      else s
  | .datagram env voice => s.absorb (s.task.turn (.datagram env voice))
  | .cleanup env => s.absorb (s.task.turn (.cleanup env))
  | .deviceHealth env => s.absorb (s.task.turn (.deviceHealth env))
  | .captureFrame processed => s.absorb (s.task.turn (.captureFrame processed))
  | .datagramsEnded => if s.task.running then { s with task := s.task.datagramsEnded } else s

/-! ## What is to hold -/

/-- The frames that wait in the queue. -/
def waiting : List CapturedFrame := s.encoded.filterMap CaptureMessage.frame

/-- The frames sent on a connection. -/
def sentOn (c : Nat) : List CapturedFrame :=
  (s.sent.filter fun e => e.1 == c).map Prod.snd

/-- **Kept apart.** Every frame was sent on the connection it was captured on, and on each
connection the timestamps increase. -/
structure KeptApart : Prop where
  own : ∀ e ∈ s.sent, e.2.capturedOn = some e.1
  rising : ∀ c, (s.sentOn c).Pairwise fun a b => a.timestampUs < b.timestampUs

/-- A new connection finds no frame waiting, in the queue or in the ring of the open stream. -/
def Drained (s : CaptureSys π) : CaptureMove π → Prop
  | .command _ (.connectionEstablished _ _) => s.waiting = [] ∧ s.task.ring = []
  | _ => True

instance (m : CaptureMove π) : Decidable (s.Drained m) := by
  unfold Drained
  split <;> infer_instance

end CaptureSys

/-! ## Frames on one clock -/

/-- Frames captured on a connection, in rising order, all before the next frame of the clock. -/
structure OnClock (c index : Nat) (frames : List CapturedFrame) : Prop where
  rising : frames.Pairwise fun a b => a.timestampUs < b.timestampUs
  own : ∀ f ∈ frames, f.capturedOn = some c
  before : ∀ f ∈ frames, f.timestampUs < index * frameUs

namespace OnClock

variable {c index index' : Nat} {frames frames' : List CapturedFrame}

theorem nil : OnClock c index [] := ⟨.nil, by simp, by simp⟩

/-- Frames may be lost, and the clock moves forward. -/
theorem mono (h : OnClock c index frames) (hsub : frames'.Sublist frames) (hle : index ≤ index') :
    OnClock c index' frames' where
  rising := h.rising.sublist hsub
  own := fun f hf => h.own f (hsub.subset hf)
  before := fun f hf =>
    (h.before f (hsub.subset hf)).trans_le (Nat.mul_le_mul_right frameUs hle)

/-- The next frame of the clock. -/
theorem snoc (h : OnClock c index frames) :
    OnClock c (index + 1) (frames ++ [⟨index * frameUs, some c⟩]) where
  rising := by
    refine List.pairwise_append.mpr ⟨h.rising, List.pairwise_singleton _ _, fun a ha b hb => ?_⟩
    rw [List.mem_singleton.mp hb]
    exact h.before a ha
  own := by
    intro f hf
    rcases List.mem_append.mp hf with hf | hf
    · exact h.own f hf
    · rw [List.mem_singleton.mp hf]
  before := by
    have hlt : index * frameUs < (index + 1) * frameUs :=
      Nat.mul_lt_mul_of_pos_right (Nat.lt_succ_self index) (by decide)
    intro f hf
    rcases List.mem_append.mp hf with hf | hf
    · exact (h.before f hf).trans hlt
    · rw [List.mem_singleton.mp hf]
      exact hlt

end OnClock

/-! ## What a turn does to the frames -/

/-- The frames among the messages a turn queued. -/
def queuedFrames (out : List (Output π)) : List CapturedFrame :=
  (out.filterMap Output.queuedMessage).filterMap CaptureMessage.frame

namespace AudioTask

variable (t : AudioTask π)

/-- Nothing but the callback queues a frame, and only an encoded frame is sent. -/
theorem quiet_of_adds {t t' : AudioTask π} (h : Adds t t') (hout : t.out = []) :
    queuedFrames t'.out = [] ∧ t'.out.filterMap Output.sentFrame = [] := by
  obtain ⟨os, ho, hann, hsent⟩ := h.outs
  have ho : t'.out = os := ho.trans (by rw [show t.clockwork.out = [] from hout]; rfl)
  rw [ho]
  constructor
  · refine List.filterMap_eq_nil_iff.mpr fun m hm => ?_
    obtain ⟨o, hmem, hq⟩ := List.mem_filterMap.mp hm
    cases m with
    | endOfStream ts => rfl
    | encodedFrame data frame =>
      cases o with
      | queued m => exact absurd (Option.some.inj hq ▸ hmem) hann.not_frame
      | _ => exact nomatch hq
  · refine List.filterMap_eq_nil_iff.mpr fun o hmem => ?_
    cases o with
    | sent c m d => exact absurd hmem (hsent c m d)
    | _ => rfl

/-- The frames that the callback queues and keeps are those it kept before and the new one. -/
structure Captured (t t' : AudioTask π) : Prop where
  connection : t'.connection = t.connection
  sent : t'.out.filterMap Output.sentFrame = []
  frames : (t'.captureFrameIndex = t.captureFrameIndex ∧
      (queuedFrames t'.out ++ t'.ring).Sublist t.ring) ∨
    (t'.captureFrameIndex = t.captureFrameIndex + 1 ∧
      (queuedFrames t'.out ++ t'.ring).Sublist
        (t.ring ++ [⟨t.captureFrameIndex * frameUs, t.connection⟩]))

section Callback

variable {t} (stream : CaptureStream) (frame : CapturedFrame)

theorem queuedFrames_encoded (encode : CapturedFrame → Option (List UInt8))
    (frames : List CapturedFrame) :
    (queuedFrames (frames.filterMap fun frame => (encode frame).map fun data =>
      (.queued (.encodedFrame data frame) : Output π))).Sublist frames := by
  induction frames with
  | nil => exact .slnil
  | cons frame frames ih =>
    cases h : encode frame with
    | none =>
      rw [List.filterMap_cons_none (by rw [h]; rfl)]
      exact ih.cons frame
    | some data =>
      rw [List.filterMap_cons_some (by rw [h]; rfl)]
      exact ih.cons_cons frame

theorem flushed_sublist (ring : PreRollRing) (ts : Nat) : (ring.flushed ts).Sublist ring.slots := by
  unfold PreRollRing.flushed
  split
  · exact .refl _
  · exact List.nil_sublist _

theorem kept_sublist (ring : PreRollRing) (ts : Nat) : (ring.kept ts).Sublist ring.slots :=
  (ring.kept_suffix ts).sublist

/-- A suppressed frame enters the ring. -/
theorem captured_suppressFrame (hout : queuedFrames t.out = [])
    (hsent : t.out.filterMap Output.sentFrame = []) :
    let t' := t.suppressFrame stream frame
    t'.out.filterMap Output.sentFrame = [] ∧
      (queuedFrames t'.out ++ t'.ring).Sublist (stream.preroll.slots ++ [frame]) := by
  have hring : ((stream.preroll.push frame).slots).Sublist (stream.preroll.slots ++ [frame]) :=
    (kept_sublist stream.preroll frame.timestampUs).append_right [frame]
  unfold suppressFrame
  dsimp only
  split
  · refine ⟨?_, ?_⟩
    · simp [put, hsent, Output.sentFrame]
    · have hqueued : queuedFrames (t.out ++ [.queued (.endOfStream frame.timestampUs)]) = [] := by
        simpa [queuedFrames, Output.queuedMessage, CaptureMessage.frame] using hout
      rw [put, hqueued]
      exact hring
  · refine ⟨hsent, ?_⟩
    rw [hout]
    exact hring

/-- A frame that goes out is queued behind what the ring held. -/
theorem captured_transmit (hinput : t.audioInput = some stream) (hout : queuedFrames t.out = [])
    (hsent : t.out.filterMap Output.sentFrame = [])
    (encode : CapturedFrame → Option (List UInt8)) :
    let t' := t.transmit stream frame encode
    t'.out.filterMap Output.sentFrame = [] ∧
      (queuedFrames t'.out ++ t'.ring).Sublist (stream.preroll.slots ++ [frame]) := by
  unfold transmit
  dsimp only
  split
  · rw [foldl_queueEncoded]
    refine ⟨?_, ?_⟩
    · rw [List.filterMap_append, hsent, List.filterMap_filterMap]
      refine List.filterMap_eq_nil_iff.mpr fun f _ => ?_
      cases encode f <;> rfl
    · have hqueued := queuedFrames_encoded (π := π) encode
        (stream.preroll.flushed frame.timestampUs ++ [frame])
      have hsub := (flushed_sublist stream.preroll frame.timestampUs).append_right [frame]
      simp only [queuedFrames, List.filterMap_append] at hqueued hout ⊢
      rw [hout, List.nil_append]
      exact (List.append_nil _).symm ▸ hqueued.trans hsub
  · refine ⟨hsent, ?_⟩
    rw [hout, List.nil_append]
    have hring : t.ring = stream.preroll.slots := by rw [ring, hinput]; rfl
    exact hring ▸ List.sublist_append_left _ _

/-- The connection and the clock are the loop's. -/
def dial (t : AudioTask π) : Option Nat × Nat := (t.connection, t.captureFrameIndex)

theorem dial_suppressFrame : (t.suppressFrame stream frame).dial = t.dial := by
  unfold suppressFrame
  dsimp only
  split <;> rfl

theorem dial_transmit (encode : CapturedFrame → Option (List UInt8)) :
    (t.transmit stream frame encode).dial = t.dial := by
  unfold transmit
  dsimp only
  split
  · rw [foldl_queueEncoded]
    rfl
  · rfl

/-- The voice gate puts out an event at most. -/
theorem noteTransmitting_cases (t : AudioTask π) (transmitting : Bool) :
    t.noteTransmitting transmitting = t ∨
      t.noteTransmitting transmitting = t.emit (.transmittingChanged transmitting) := by
  unfold noteTransmitting
  split
  · exact .inr rfl
  · exact .inl rfl

/-- **The callback** moves the clock by one frame, which joins those the ring held. -/
theorem captured_captureFrame (hout : t.out = []) (processed : Processed) :
    Captured t (t.captureFrame processed) := by
  have hring {stream : CaptureStream} (h : t.audioInput = some stream) :
      t.ring = stream.preroll.slots := by
    rw [ring, h]
    rfl
  have hsame : Captured t t := ⟨rfl, by rw [hout]; rfl, .inl ⟨rfl, by rw [hout]; exact .refl _⟩⟩
  unfold captureFrame
  split
  · exact hsame
  · rename_i stream hinput
    split
    · dsimp only
      split
      · refine ⟨rfl, by rw [hout]; rfl, .inr ⟨rfl, ?_⟩⟩
        rw [hout, hring hinput]
        exact List.sublist_append_left _ _
      · let u := noteTransmitting { t with captureFrameIndex := t.captureFrameIndex + 1 }
          (!(processed.suppress && !t.vadGateBypass))
        have hu : u.audioInput = some stream ∧ u.dial = (t.connection, t.captureFrameIndex + 1) ∧
            queuedFrames u.out = [] ∧ u.out.filterMap Output.sentFrame = [] := by
          rcases noteTransmitting_cases { t with captureFrameIndex := t.captureFrameIndex + 1 }
            (!(processed.suppress && !t.vadGateBypass)) with h | h <;> rw [show u = _ from h]
          · exact ⟨hinput, rfl, by rw [hout]; rfl, by rw [hout]; rfl⟩
          · refine ⟨hinput, rfl, ?_, ?_⟩ <;> rw [emit, put, hout] <;> rfl
        obtain ⟨hopen, hdial, hqueued, hsent⟩ := hu
        have hnext {t' : AudioTask π} (hd : t'.dial = u.dial)
            (h : t'.out.filterMap Output.sentFrame = [] ∧ (queuedFrames t'.out ++ t'.ring).Sublist
              (stream.preroll.slots ++ [⟨t.captureFrameIndex * frameUs, t.connection⟩])) :
            Captured t t' := by
          have hd := Prod.ext_iff.mp (hd.trans hdial)
          exact ⟨hd.1, h.1, .inr ⟨hd.2, hring hinput ▸ h.2⟩⟩
        split
        · exact hnext (dial_suppressFrame ..) (captured_suppressFrame stream _ hqueued hsent)
        · exact hnext (dial_transmit ..) (captured_transmit stream _ hopen hqueued hsent _)
    · exact hsame

end Callback

end AudioTask

/-! ## The invariant -/

namespace CaptureSys

variable (s : CaptureSys π)

/-- The frames of the current connection, from the oldest sent to the newest kept. -/
def timeline (c : Nat) : List CapturedFrame := s.sentOn c ++ (s.waiting ++ s.task.ring)

structure Sound : Prop where
  kept : s.KeptApart
  numbered : ∀ e ∈ s.sent, e.1 ≤ s.established
  current : ∀ c ∈ s.task.connection, c ≤ s.established ∧
    OnClock c s.task.captureFrameIndex (s.timeline c)

theorem sound_start (env : AudioEnv) (settings : AudioSettings) (tx rx : π)
    (perUserRx : Table UserId (UserRxConfig π)) : (start env settings tx rx perUserRx).Sound where
  kept := ⟨fun _ h => (nomatch h), fun _ => List.Pairwise.nil⟩
  numbered := fun _ h => nomatch h
  current := fun _ h => nomatch h

variable {s}

/-- A turn that sends no frame, when what it leaves is on the clock of the connection it leaves. -/
theorem Sound.absorb (h : s.Sound) {t' : AudioTask π} {n : Nat} (hn : s.established ≤ n)
    (hsent : t'.out.filterMap Output.sentFrame = [])
    (hcurrent : ∀ c ∈ t'.connection, c ≤ n ∧ OnClock c t'.captureFrameIndex
      (s.sentOn c ++ (s.waiting ++ (queuedFrames t'.out ++ t'.ring)))) :
    { s.absorb t' with established := n }.Sound := by
  have hs : (s.absorb t').sent = s.sent := by
    rw [CaptureSys.absorb, hsent, List.append_nil]
  refine ⟨⟨hs ▸ h.kept.own, fun c => ?_⟩, fun e he => (h.numbered e (hs ▸ he)).trans hn, ?_⟩
  · rw [sentOn, hs]
    exact h.kept.rising c
  · intro c hc
    refine ⟨(hcurrent c hc).1, ?_⟩
    have hclock := (hcurrent c hc).2
    rw [← List.append_assoc s.waiting] at hclock
    rw [timeline, sentOn, hs, waiting, CaptureSys.absorb, List.filterMap_append]
    exact hclock

/-- A turn of the loop, from the state with nothing put out. -/
theorem Sound.absorb_adds (h : s.Sound) {t' : AudioTask π} {n : Nat} (hn : s.established ≤ n)
    (hadds : Adds { s.task with out := [] } t') : { s.absorb t' with established := n }.Sound := by
  obtain ⟨hqueued, hsent⟩ := AudioTask.quiet_of_adds hadds rfl
  refine h.absorb hn hsent fun c hc => ?_
  have hconn : c ∈ s.task.connection := by
    rcases hadds.connection with heq | hnone
    · rw [show t'.connection = s.task.connection from heq] at hc
      exact hc
    · rw [show t'.connection = none from hnone] at hc
      exact absurd hc (Option.not_mem_none c)
  obtain ⟨hle, hclock⟩ := h.current c hconn
  refine ⟨hle.trans hn, hclock.mono ?_ hadds.index⟩
  rw [hqueued, List.nil_append]
  exact (hadds.ring.append_left s.waiting).append_left (s.sentOn c)

/-- A call of the callback. -/
theorem Sound.absorb_captured (h : s.Sound) {t' : AudioTask π}
    (hcap : AudioTask.Captured { s.task with out := [] } t') : (s.absorb t').Sound := by
  refine h.absorb le_rfl hcap.sent fun c hc => ?_
  have hconn : s.task.connection = some c := hcap.connection.symm.trans hc
  obtain ⟨hle, hclock⟩ := h.current c hconn
  refine ⟨hle, ?_⟩
  rcases hcap.frames with ⟨hindex, hsub⟩ | ⟨hindex, hsub⟩
  · exact hclock.mono ((hsub.append_left s.waiting).append_left (s.sentOn c)) hindex.ge
  · have hsnoc := hclock.snoc
    rw [timeline, List.append_assoc, List.append_assoc, ← hconn] at hsnoc
    exact hsnoc.mono ((hsub.append_left s.waiting).append_left (s.sentOn c)) hindex.ge

/-- The oldest message leaves the queue. -/
theorem Sound.drop (h : s.Sound) {message : CaptureMessage} {rest : List CaptureMessage}
    (hq : s.encoded = message :: rest) : { s with encoded := rest }.Sound where
  kept := ⟨h.kept.own, h.kept.rising⟩
  numbered := h.numbered
  current := by
    intro c hc
    obtain ⟨hle, hclock⟩ := h.current c hc
    refine ⟨hle, hclock.mono ?_ le_rfl⟩
    have hsub : (rest.filterMap CaptureMessage.frame).Sublist s.waiting := by
      rw [waiting, hq]
      exact (List.sublist_cons_self message rest).filterMap _
    exact (hsub.append_right s.task.ring).append_left (s.sentOn c)

theorem sentOn_snoc {e : Nat × CapturedFrame} (c : Nat) :
    { s with sent := s.sent ++ [e] }.sentOn c = s.sentOn c ++ if e.1 = c then [e.2] else [] := by
  unfold sentOn
  rw [List.filter_append, List.map_append]
  by_cases h : e.1 = c <;> simp [h]

/-- The oldest frame goes out on the connection it was captured on. -/
theorem Sound.send (h : s.Sound) {data : List UInt8} {frame : CapturedFrame}
    {rest : List CaptureMessage} (hq : s.encoded = .encodedFrame data frame :: rest) {c : Nat}
    (hc : s.task.connection = some c) :
    { s with encoded := rest, sent := s.sent ++ [(c, frame)] }.Sound := by
  have hwait : s.waiting = frame :: rest.filterMap CaptureMessage.frame := by
    rw [waiting, hq]
    rfl
  obtain ⟨hle, hclock⟩ := h.current c hc
  have hline : s.timeline c = (s.sentOn c ++ [frame]) ++
      (rest.filterMap CaptureMessage.frame ++ s.task.ring) := by
    rw [timeline, hwait, List.append_assoc]
    rfl
  rw [hline] at hclock
  have hsentOn (d : Nat) : sentOn { s with encoded := rest, sent := s.sent ++ [(c, frame)] } d =
      s.sentOn d ++ if c = d then [frame] else [] := sentOn_snoc (s := s) d
  refine ⟨⟨?_, fun d => ?_⟩, ?_, fun d hd => ?_⟩
  · intro e he
    rcases List.mem_append.mp he with he | he
    · exact h.kept.own e he
    · rw [List.mem_singleton.mp he]
      exact hclock.own frame (by simp)
  · rw [hsentOn]
    split
    · rename_i hcd
      exact hcd ▸ (hclock.mono (List.sublist_append_left ..) le_rfl).rising
    · rw [List.append_nil]
      exact h.kept.rising d
  · intro e he
    rcases List.mem_append.mp he with he | he
    · exact h.numbered e he
    · rw [List.mem_singleton.mp he]
      exact hle
  · obtain rfl : c = d := Option.some.inj (hc.symm.trans hd)
    refine ⟨hle, ?_⟩
    rw [timeline, hsentOn, if_pos rfl]
    exact hclock

/-- The turn that takes a message from the queue. -/
theorem Sound.absorb_sent (h : s.Sound) {message : CaptureMessage} {rest : List CaptureMessage}
    (hq : s.encoded = message :: rest) {t' : AudioTask π} {os : List (Output π)}
    (hclock : t'.clockwork = { s.task.clockwork with out := os })
    (hos : os = [] ∨ ∃ c d, s.task.connection = some c ∧ os = [.sent c message d]) :
    ({ s with encoded := rest }.absorb t').Sound := by
  have hout : t'.out = os := congrArg Clockwork.out hclock
  have hconn : t'.connection = s.task.connection := congrArg Clockwork.connection hclock
  have hring : t'.ring = s.task.ring := congrArg Clockwork.ring hclock
  have hindex : t'.captureFrameIndex = s.task.captureFrameIndex := congrArg Clockwork.index hclock
  have hunsent (hs : os.filterMap Output.sentFrame = []) (hqf : queuedFrames os = []) :
      ({ s with encoded := rest }.absorb t').Sound := by
    refine (h.drop hq).absorb le_rfl (hout ▸ hs) fun c hc => ?_
    have hcur := (h.drop hq).current c (hconn ▸ hc)
    rw [hout, hqf, hring, hindex]
    exact hcur
  rcases hos with rfl | ⟨c, d, hc, rfl⟩
  · exact hunsent rfl rfl
  · cases message with
    | endOfStream ts => exact hunsent rfl rfl
    | encodedFrame data frame =>
      have hsend := h.send hq hc
      have heq : { s with encoded := rest }.absorb t' =
          { s with task := t', encoded := rest, sent := s.sent ++ [(c, frame)] } := by
        rw [CaptureSys.absorb, hout]
        simp [Output.queuedMessage, Output.sentFrame, CaptureMessage.frame]
      rw [heq]
      refine ⟨⟨hsend.kept.own, hsend.kept.rising⟩, hsend.numbered, fun c hc => ?_⟩
      have hcur := hsend.current c (hconn ▸ hc)
      rw [timeline, show AudioTask.ring _ = _ from hring]
      exact hindex ▸ hcur

/-- A new connection starts with an empty timeline when nothing waits. -/
theorem Sound.established (h : s.Sound) {t' : AudioTask π} {env : AudioEnv} {uid : UserId}
    (hadds : Adds ({ s.task with out := [] }.adoptConnection env (s.established + 1) uid) t')
    (hwait : s.waiting = []) (hring : s.task.ring = []) :
    { s.absorb t' with established := s.established + 1 }.Sound := by
  obtain ⟨hqueued, hsent⟩ := AudioTask.quiet_of_adds hadds rfl
  refine h.absorb (Nat.le_succ _) hsent fun c hc => ?_
  have hconn : c = s.established + 1 := by
    rcases hadds.connection with heq | hnone
    · exact (Option.some.inj (hc.symm.trans heq))
    · exact absurd (hc.symm.trans hnone) (Option.some_ne_none c)
  have hunsent : s.sentOn c = [] := by
    unfold sentOn
    rw [List.filter_eq_nil_iff.mpr, List.map_nil]
    intro e he
    have hle := h.numbered e he
    simp only [beq_iff_eq]
    omega
  have hring' : t'.ring = [] := List.sublist_nil.mp (hring ▸ hadds.ring)
  rw [hunsent, hwait, hqueued, hring']
  exact ⟨hconn.le, .nil⟩

/-- The frames are on their clock, and capture has its stream. -/
structure Healthy (s : CaptureSys π) : Prop where
  frames : s.Sound
  opened : s.task.gate.Open

theorem Healthy.absorb_guards (h : s.Healthy) {t' : AudioTask π} {n : Nat}
    (hn : s.established ≤ n) (hg : Guards { s.task with out := [] } t') :
    { s.absorb t' with established := n }.Healthy :=
  ⟨h.frames.absorb_adds hn hg.adds, hg.opened h.opened⟩

/-- A command; a connection is established with nothing waiting. -/
theorem Healthy.step_command [BEq π] (h : s.Healthy) (env : AudioEnv) (command : AudioCommand π)
    (hd : s.Drained (.command env command)) : (s.step (.command env command)).Healthy := by
  let u : AudioTask π := { s.task with out := [] }
  have hle : s.established ≤ s.established + establishes command := Nat.le_add_right ..
  have hg := u.guards_handle env h.opened (s.numbered command)
  by_cases hrun : s.task.running = true
  · have hturn : s.task.turn (.command env (s.numbered command)) =
        u.handle env (s.numbered command) := if_pos hrun
    rw [CaptureSys.step, hturn]
    cases command with
    | connectionEstablished d uid =>
      exact ⟨h.frames.established hg.adds hd.1 hd.2, hg.opened h.opened⟩
    | _ => exact h.absorb_guards hle hg
  · have hturn : s.task.turn (.command env (s.numbered command)) = u := if_neg hrun
    rw [CaptureSys.step, hturn]
    exact h.absorb_guards hle (Aside.refl u).guards

/-- The oldest message is taken from the queue. -/
theorem Healthy.step_encodedReady [BEq π] (h : s.Healthy) (sends : Bool) :
    (s.step (.encodedReady sends)).Healthy := by
  let u : AudioTask π := { s.task with out := [] }
  dsimp only [CaptureSys.step]
  split
  · exact h
  · rename_i message rest hq
    split
    · rename_i hrun
      obtain ⟨os, hclock, hgate, hos⟩ := u.encodedReady_cases message sends
      have hturn : s.task.turn (.encodedReady message sends) = u.encodedReady message sends :=
        if_pos hrun
      have hgate : (u.encodedReady message sends).gate = s.task.gate := hgate
      rw [hturn]
      refine ⟨h.frames.absorb_sent hq hclock hos, ?_⟩
      rw [CaptureSys.absorb, hgate]
      exact h.opened
    · exact h

/-- A turn that a task shut down does not take, and that keeps the frames otherwise. -/
theorem Healthy.absorb_turn [BEq π] (h : s.Healthy) (i : AudioTask.Turn π) {t' : AudioTask π}
    (hpos : s.task.running = true → s.task.turn i = t') (ht' : (s.absorb t').Healthy) :
    (s.absorb (s.task.turn i)).Healthy := by
  by_cases hrun : s.task.running = true
  · exact hpos hrun ▸ ht'
  · have hturn : s.task.turn i = { s.task with out := [] } := if_neg hrun
    rw [hturn]
    exact h.absorb_guards le_rfl (Aside.refl _).guards

/-- **One step.** A move keeps the frames on their clock, unless it establishes a connection while a
frame waits. -/
theorem Healthy.step [BEq π] (h : s.Healthy) (m : CaptureMove π) (hd : s.Drained m) :
    (s.step m).Healthy := by
  let u : AudioTask π := { s.task with out := [] }
  cases m with
  | command env command => exact h.step_command env command hd
  | encodedReady sends => exact h.step_encodedReady sends
  | datagram env voice =>
    refine h.absorb_turn _ (fun hrun => if_pos hrun) ?_
    exact h.absorb_guards le_rfl (u.aside_recvDatagram env voice).guards
  | cleanup env =>
    refine h.absorb_turn _ (fun hrun => if_pos hrun) ?_
    exact h.absorb_guards le_rfl (u.aside_cleanup env).guards
  | deviceHealth env =>
    refine h.absorb_turn _ (fun hrun => if_pos hrun) ?_
    exact h.absorb_guards le_rfl (u.guards_deviceHealth env h.opened)
  | captureFrame processed =>
    refine h.absorb_turn _ (fun hrun => if_pos hrun) ?_
    refine ⟨h.frames.absorb_captured (u.captured_captureFrame rfl processed), ?_⟩
    have hgate : (u.captureFrame processed).gate = s.task.gate := u.gate_captureFrame processed
    rw [CaptureSys.absorb, show AudioTask.gate _ = _ from hgate]
    exact h.opened
  | datagramsEnded =>
    dsimp only [CaptureSys.step]
    split
    · exact ⟨⟨⟨h.frames.kept.own, h.frames.kept.rising⟩, h.frames.numbered,
        fun _ hc => absurd hc (Option.not_mem_none _)⟩, h.opened⟩
    · exact h

end CaptureSys

/-! ## Runs -/

/-- **Kept apart.** In a run in which every new connection finds no frame waiting, every frame is
sent on the connection it was captured on, and the timestamps on a connection increase, in every
state the run reaches. -/
theorem keptApart_run [BEq π] (env : AudioEnv) (settings : AudioSettings) (tx rx : π)
    (perUserRx : Table UserId (UserRxConfig π)) (moves : List (CaptureMove π))
    (h : Always CaptureSys.step CaptureSys.Drained
      (CaptureSys.start env settings tx rx perUserRx) moves) :
    ∀ pre, pre <+: moves →
      (pre.foldl CaptureSys.step (CaptureSys.start env settings tx rx perUserRx)).KeptApart := by
  intro pre hpre
  have hstart : (CaptureSys.start env settings tx rx perUserRx).Healthy :=
    ⟨CaptureSys.sound_start env settings tx rx perUserRx, fun hactive => nomatch hactive⟩
  exact (h.invariant_all (fun s m hd hs => hs.step m hd) hstart hpre).frames.kept

/-! ## A hand-over from one connection to the next -/

section Sample

def sampleCaptureStart : CaptureSys Unit :=
  .start .working .default () () ∅

/-- A frame that the pipeline lets through. -/
def sampleFrame : CaptureMove Unit := .captureFrame ⟨false, fun _ => some [1]⟩

def sampleEstablished : CaptureMove Unit :=
  .command .working (.connectionEstablished 0 7)

/-- Four frames, of which a new stream discards three. -/
def sampleSpeech : List (CaptureMove Unit) :=
  [sampleEstablished, .command .working (.setVoiceMode .continuous),
    sampleFrame, sampleFrame, sampleFrame, sampleFrame]

/-- The queue is emptied before the next connection. -/
def sampleHandOver : List (CaptureMove Unit) :=
  sampleSpeech ++ [.encodedReady true, .command .working .connectionClosed,
    .encodedReady true] ++ sampleSpeech ++ [.encodedReady true]

theorem keptApart_sample :
    (sampleHandOver.foldl CaptureSys.step sampleCaptureStart).KeptApart ∧
      (sampleHandOver.foldl CaptureSys.step sampleCaptureStart).sent =
        [(1, ⟨60000, some 1⟩), (2, ⟨60000, some 2⟩)] :=
  ⟨keptApart_run .working .default () () ∅ sampleHandOver
    (by decide +kernel) sampleHandOver List.prefix_rfl, by decide +kernel⟩

/-- The connection is replaced while a frame waits: it goes out on the new one. -/
theorem not_keptApart : ¬ ((sampleSpeech ++ [.command .working .connectionClosed,
    sampleEstablished, .encodedReady true]).foldl CaptureSys.step sampleCaptureStart).KeptApart :=
  fun h => absurd (h.own (2, ⟨60000, some 1⟩) (by decide +kernel)) (by decide)

end Sample

end Rumble.Client
