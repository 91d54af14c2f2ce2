import Rumble.Client.AudioTask

/-!
# Capture is gated

Capture is on only while a stream is open, a connection is there, nobody has muted the user, and in
push-to-talk mode the key is held (`capture_gated`). Every switch from on to off puts out one
end-of-stream marker before it and one `TransmittingChanged` after it, and nothing else puts out
either (`Announced`).
-/

namespace Rumble.Client

open Rumble.Lib

variable {π : Type}

/-! ## What a turn announces -/

/-- **Switches are announced.** The outputs take the capture flag from one value to another, each
assignment starting at the value the last one left. A switch from on to off stands between an
end-of-stream marker and a `TransmittingChanged` event, and neither is put out anywhere else. -/
inductive Announced : Bool → List (Output π) → Bool → Prop
  | nil (a : Bool) : Announced a [] a
  | emitted {a b : Bool} {os : List (Output π)} (event : VoiceEvent π)
      (h : event ≠ .transmittingChanged false) (rest : Announced a os b) :
      Announced a (.emitted event :: os) b
  | sent {a b : Bool} {os : List (Output π)} (connection : Nat) (message : CaptureMessage)
      (datagram : VoiceDatagram) (rest : Announced a os b) :
      Announced a (.sent connection message datagram :: os) b
  | set {a active b : Bool} {os : List (Output π)} (h : a = true → active = true)
      (rest : Announced active os b) : Announced a (.captureSet a active :: os) b
  | stop {b : Bool} {os : List (Output π)} (timestampUs : Nat) (rest : Announced false os b) :
      Announced true (.queued (.endOfStream timestampUs) :: .captureSet true false ::
        .emitted (.transmittingChanged false) :: os) b

theorem Announced.append {a b c : Bool} {os os' : List (Output π)} (h : Announced a os b)
    (h' : Announced b os' c) : Announced a (os ++ os') c := by
  induction h with
  | nil => exact h'
  | emitted event hne _ ih => exact .emitted event hne (ih h')
  | sent connection message datagram _ ih => exact .sent connection message datagram (ih h')
  | set hle _ ih => exact .set hle (ih h')
  | stop ts _ ih => exact .stop ts (ih h')

/-- The switches from on to off, the end-of-stream markers and the events that say so. -/
def switchesOff (os : List (Output π)) : Nat := os.countP fun
  | .captureSet true false => true
  | _ => false

def endsOfStream (os : List (Output π)) : Nat := os.countP fun
  | .queued (.endOfStream _) => true
  | _ => false

def transmittingOffs (os : List (Output π)) : Nat := os.countP fun
  | .emitted (.transmittingChanged false) => true
  | _ => false

/-- One marker and one event for each switch. -/
theorem Announced.counts {a b : Bool} {os : List (Output π)} (h : Announced a os b) :
    endsOfStream os = switchesOff os ∧ transmittingOffs os = switchesOff os := by
  induction h with
  | nil => exact ⟨rfl, rfl⟩
  | emitted event hne _ ih =>
    refine ⟨ih.1, Eq.trans (List.countP_cons_of_neg ?_) ih.2⟩
    rintro h
    split at h
    · rename_i heq
      exact hne (Output.emitted.inj heq)
    · exact nomatch h
  | sent => assumption
  | @set a active _ _ hle _ ih =>
    have hoff : ¬ (a = true ∧ active = false) := fun h => by simp [hle h.1] at h
    cases a <;> cases active <;> first | exact ih | exact absurd ⟨rfl, rfl⟩ hoff
  | stop _ _ ih =>
    simpa [endsOfStream, switchesOff, transmittingOffs, List.countP_cons] using ih

/-- A turn queues no frame by itself: the capture callback does. -/
theorem Announced.not_frame {a b : Bool} {os : List (Output π)} (h : Announced a os b)
    {data : List UInt8} {frame : CapturedFrame} :
    .queued (.encodedFrame data frame) ∉ os := by
  induction h with
  | nil => exact List.not_mem_nil
  | emitted _ _ _ ih => exact fun h => (List.mem_cons.mp h).elim (fun h => nomatch h) ih
  | sent _ _ _ _ ih => exact fun h => (List.mem_cons.mp h).elim (fun h => nomatch h) ih
  | set _ _ ih => exact fun h => (List.mem_cons.mp h).elim (fun h => nomatch h) ih
  | stop _ _ ih =>
    intro h
    simp only [List.mem_cons, reduceCtorEq, Output.queued.injEq, false_or] at h
    exact ih h

/-! ## What an arm leaves behind -/

/-- The frames that the open stream's ring holds. -/
def AudioTask.ring (t : AudioTask π) : List CapturedFrame :=
  (t.audioInput.map fun stream => stream.preroll.slots).getD []

/-- The outputs and the media clock. -/
structure Clockwork (π : Type) where
  out : List (Output π)
  active : Bool
  ring : List CapturedFrame
  index : Nat
  connection : Option Nat

def AudioTask.clockwork (t : AudioTask π) : Clockwork π where
  out := t.out
  active := t.captureIsActive
  ring := t.ring
  index := t.captureFrameIndex
  connection := t.connection

/-- Outputs were added that announce how the capture flag got to where it is, and no datagram was
sent. The clock has not gone back, the connection is the one before, and what the ring holds it held
before. -/
structure Clockwork.Advances (v v' : Clockwork π) : Prop where
  outs : ∃ os, v'.out = v.out ++ os ∧ Announced v.active os v'.active ∧
    ∀ c m d, .sent c m d ∉ os
  ring : v'.ring.Sublist v.ring
  index : v.index ≤ v'.index
  connection : v'.connection = v.connection ∨ v'.connection = none

def Adds (t t' : AudioTask π) : Prop := t.clockwork.Advances t'.clockwork

namespace Adds

variable {t t' t'' : AudioTask π}

theorem refl (t : AudioTask π) : Adds t t where
  outs := ⟨[], (List.append_nil _).symm, .nil _, fun _ _ _ => List.not_mem_nil⟩
  ring := .refl _
  index := le_rfl
  connection := .inl rfl

theorem trans (h : Adds t t') (h' : Adds t' t'') : Adds t t'' where
  outs := by
    obtain ⟨os, hout, hann, hsent⟩ := h.outs
    obtain ⟨os', hout', hann', hsent'⟩ := h'.outs
    refine ⟨os ++ os', by rw [hout', hout, List.append_assoc], hann.append hann', ?_⟩
    exact fun c m d hmem => (List.mem_append.mp hmem).elim (hsent c m d) (hsent' c m d)
  ring := h'.ring.trans h.ring
  index := h.index.trans h'.index
  connection := h'.connection.elim (fun heq => heq ▸ h.connection) .inr

/-- Outputs alone. -/
theorem of_outs (os : List (Output π)) (hout : t'.out = t.out ++ os)
    (hann : Announced t.captureIsActive os t'.captureIsActive) (hsent : ∀ c m d, .sent c m d ∉ os)
    (hring : t'.ring = t.ring) (hindex : t'.captureFrameIndex = t.captureFrameIndex)
    (hconn : t'.connection = t.connection) : Adds t t' where
  outs := ⟨os, hout, hann, hsent⟩
  ring := by
    rw [show t'.clockwork.ring = _ from hring]
    exact .refl _
  index := hindex.ge
  connection := .inl hconn

theorem emit (t : AudioTask π) {event : VoiceEvent π} (h : event ≠ .transmittingChanged false) :
    Adds t (t.emit event) :=
  of_outs [_] rfl (.emitted event h (.nil _)) (by simp) rfl rfl rfl

theorem setCapture (t : AudioTask π) {active : Bool}
    (h : t.captureIsActive = true → active = true) :
    Adds t (t.setCapture active) := of_outs [_] rfl (.set h (.nil _)) (by simp) rfl rfl rfl

end Adds

/-- The ring stays with its stream. -/
theorem AudioTask.ring_setStreamActive (t : AudioTask π) (active : Bool) :
    (t.setStreamActive active).ring = t.ring := by
  unfold AudioTask.ring AudioTask.setStreamActive
  cases t.audioInput <;> rfl

theorem AudioTask.deactivateCapture_of_active {t : AudioTask π} (h : t.captureIsActive = true) :
    t.deactivateCapture = { t with
      audioInput := t.audioInput.map fun stream => { stream with active := false }
      captureIsActive := false
      wasTransmitting := false
      out := t.out ++ [.queued (.endOfStream (t.captureFrameIndex * frameUs)),
        .captureSet true false, .emitted (.transmittingChanged false)] } := by
  simp [deactivateCapture, emit, put, setCapture, setStreamActive, h]

theorem Adds.deactivateCapture (t : AudioTask π) : Adds t t.deactivateCapture := by
  by_cases hactive : t.captureIsActive = true
  · rw [AudioTask.deactivateCapture_of_active hactive]
    refine .of_outs _ rfl ?_ (by simp) (AudioTask.ring_setStreamActive t false) rfl rfl
    rw [hactive]
    exact .stop _ (.nil false)
  · rw [AudioTask.deactivateCapture, if_neg hactive]
    exact .refl t

/-- Without a stream there is no ring. -/
theorem Adds.stopTransmission (t : AudioTask π) : Adds t t.stopTransmission where
  outs := (Adds.refl t).outs
  ring := List.nil_sublist _
  index := le_rfl
  connection := .inl rfl

/-- Arming the stream moves the clock forward. -/
theorem Adds.arm (t : AudioTask π) (elapsed : Nat) :
    Adds t ({ t with captureFrameIndex := max t.captureFrameIndex elapsed }.setStreamActive
      true) where
  outs := (Adds.refl t).outs
  ring := by
    change (t.setStreamActive true).ring.Sublist t.ring
    rw [AudioTask.ring_setStreamActive]
  index := le_max_left ..
  connection := .inl rfl

/-! ## The gate -/

/-- What decides whether capture may be on. -/
structure Gate where
  active : Bool
  input : Bool
  voiceMode : VoiceMode
  selfMuted : Bool
  serverMuted : Bool
  pttActive : Bool
  connected : Bool

def AudioTask.gate (t : AudioTask π) : Gate where
  active := t.captureIsActive
  input := t.audioInput.isSome
  voiceMode := t.voiceMode
  selfMuted := t.selfMuted
  serverMuted := t.serverMuted
  pttActive := t.pttActive
  connected := t.connection.isSome

namespace Gate

/-- Capture is on only with an open stream. -/
def Open (g : Gate) : Prop := g.active = true → g.input = true

structure Sound (g : Gate) : Prop where
  input : g.Open
  want : g.active = true →
    shouldCapture g.voiceMode g.selfMuted g.serverMuted g.pttActive g.connected = true

theorem Sound.of_inactive {g : Gate} (h : g.active = false) : g.Sound where
  input := fun hactive => absurd (h.symm.trans hactive) Bool.false_ne_true
  want := fun hactive => absurd (h.symm.trans hactive) Bool.false_ne_true

end Gate

theorem shouldCapture_eq_true_iff {mode : VoiceMode} {selfMuted serverMuted ptt connected : Bool} :
    shouldCapture mode selfMuted serverMuted ptt connected = true ↔
      connected = true ∧ selfMuted = false ∧ serverMuted = false ∧
        (mode = .pushToTalk → ptt = true) := by
  cases connected <;> cases selfMuted <;> cases serverMuted <;> cases mode <;>
    simp [shouldCapture]

namespace AudioTask

variable (t : AudioTask π) (env : AudioEnv)

theorem deactivateCapture_inactive : t.deactivateCapture.captureIsActive = false := by
  unfold deactivateCapture
  split
  · rfl
  · exact Bool.eq_false_iff.mpr ‹_›

/-- A sync that starts from a state with a stream under every active capture ends gated. -/
theorem sound_syncTransmission (h : t.gate.Open) : (t.syncTransmission env).gate.Sound := by
  unfold syncTransmission
  dsimp only
  cases hwant : shouldCapture t.voiceMode t.selfMuted t.serverMuted t.pttActive
      t.connection.isSome <;>
    cases hactive : t.captureIsActive <;> dsimp only [captureTransition]
  · exact .of_inactive hactive
  · exact .of_inactive t.deactivateCapture_inactive
  · split
    · rename_i hinput
      exact ⟨fun _ => (Option.isSome_map ..).trans hinput, fun _ => hwant⟩
    · exact .of_inactive hactive
  · exact ⟨h, fun _ => hwant⟩

theorem adds_syncTransmission : Adds t (t.syncTransmission env) := by
  unfold syncTransmission
  dsimp only
  cases hwant : shouldCapture t.voiceMode t.selfMuted t.serverMuted t.pttActive
      t.connection.isSome <;>
    cases hactive : t.captureIsActive <;> dsimp only [captureTransition]
  · exact .refl t
  · exact .deactivateCapture t
  · split
    · exact (Adds.setCapture t fun _ => rfl).trans (.arm _ _)
    · exact .refl t
  · exact .refl t

/-- A teardown leaves capture off, when it needed the stream. -/
theorem closeInput_inactive (h : t.gate.Open) : t.closeInput.captureIsActive = false := by
  unfold closeInput
  split
  · exact t.deactivateCapture_inactive
  · exact Bool.eq_false_iff.mpr fun hactive => ‹¬ _› (h hactive)

theorem adds_closeInput : Adds t t.closeInput := by
  unfold closeInput
  split
  · exact (Adds.deactivateCapture t).trans (.stopTransmission _)
  · exact .refl t

/-- Opening a stream leaves the capture flag and the outputs, and a new stream has an empty ring. It
fails only without a stream. -/
theorem startTransmission_cases :
    (∃ input : Option CaptureStream, input.isSome ∧ Adds t { t with audioInput := input } ∧
      t.startTransmission env = ({ t with audioInput := input }, .ok ())) ∨
    (∃ e, t.audioInput = none ∧ t.startTransmission env = (t, .error e)) := by
  unfold startTransmission
  split
  · exact .inl ⟨t.audioInput, ‹_›, .refl t, rfl⟩
  · have hnone := Option.not_isSome_iff_eq_none.mp ‹¬ t.audioInput.isSome = true›
    split
    · exact .inr ⟨_, hnone, rfl⟩
    · split
      · refine .inl ⟨_, rfl, ?_, rfl⟩
        exact { Adds.refl t with ring := List.nil_sublist _ }
      · exact .inr ⟨_, hnone, rfl⟩

/-- A failure to open switches nothing off, as there was no stream to be active on. -/
theorem adds_inputUnavailable (h : t.gate.Open) (hnone : t.audioInput = none) (e : String) :
    Adds t (t.inputUnavailable e) := by
  refine (Adds.setCapture t fun hactive => ?_).trans (.emit _ (by simp))
  have hinput := h hactive
  simp [gate, hnone] at hinput

theorem open_openInput : (t.openInput env).gate.Open := by
  unfold openInput
  rcases t.startTransmission_cases env with ⟨input, hinput, -, heq⟩ | ⟨e, hnone, heq⟩ <;> rw [heq]
  · exact fun _ => hinput
  · exact fun hactive => nomatch hactive

theorem adds_openInput (h : t.gate.Open) : Adds t (t.openInput env) := by
  unfold openInput
  rcases t.startTransmission_cases env with ⟨input, -, hadds, heq⟩ | ⟨e, hnone, heq⟩ <;> rw [heq]
  · exact hadds
  · exact t.adds_inputUnavailable h hnone e

end AudioTask

/-! ## The arms of the loop -/

/-- An arm announces its switches and keeps the gate. -/
structure Guards (t t' : AudioTask π) : Prop where
  adds : Adds t t'
  opened : t.gate.Open → t'.gate.Open
  sound : t.gate.Sound → t'.gate.Sound

/-- An arm leaves the gate as it is. -/
structure Aside (t t' : AudioTask π) : Prop where
  adds : Adds t t'
  gate : t'.gate = t.gate

namespace Aside

variable {t t' t'' : AudioTask π}

theorem refl (t : AudioTask π) : Aside t t := ⟨.refl t, rfl⟩

theorem trans (h : Aside t t') (h' : Aside t' t'') : Aside t t'' :=
  ⟨h.adds.trans h'.adds, h'.gate.trans h.gate⟩

theorem emit (t : AudioTask π) {event : VoiceEvent π} (h : event ≠ .transmittingChanged false) :
    Aside t (t.emit event) := ⟨.emit t h, rfl⟩

theorem foldl {α : Type} {f : AudioTask π → α → AudioTask π} (h : ∀ t a, Aside t (f t a))
    (as : List α) (t : AudioTask π) : Aside t (as.foldl f t) := by
  induction as generalizing t with
  | nil => exact refl t
  | cons a as ih => exact (h t a).trans (ih (f t a))

theorem emitStops (t : AudioTask π) (users : List UserId) : Aside t (t.emitStops users) :=
  foldl (fun t _ => emit t (by simp)) users t

theorem insertUser (t : AudioTask π) (env : AudioEnv) (userId : UserId) :
    Aside t (t.insertUser env userId) := by
  unfold AudioTask.insertUser
  split
  · exact ⟨.refl t, rfl⟩
  · exact refl t

theorem guards (h : Aside t t') : Guards t t' where
  adds := h.adds
  opened := fun hopen => h.gate ▸ hopen
  sound := fun hsound => h.gate ▸ hsound

end Aside

namespace Guards

variable {t u t' : AudioTask π} (env : AudioEnv)

theorem trans (h : Guards t u) (h' : Guards u t') : Guards t t' where
  adds := h.adds.trans h'.adds
  opened := fun hopen => h'.opened (h.opened hopen)
  sound := fun hsound => h'.sound (h.sound hsound)

/-- An arm that leaves capture off. -/
theorem of_inactive (hadds : Adds t t') (h : t'.captureIsActive = false) : Guards t t' where
  adds := hadds
  opened := fun _ => (Gate.Sound.of_inactive h).input
  sound := fun _ => .of_inactive h

/-- An arm that ends with a sync. -/
theorem sync (hadds : Adds t u) (hopen : u.gate.Open) : Guards t (u.syncTransmission env) where
  adds := hadds.trans (u.adds_syncTransmission env)
  opened := fun _ => (u.sound_syncTransmission env hopen).input
  sound := fun _ => u.sound_syncTransmission env hopen

/-- An arm that changes what capture depends on, and syncs. -/
theorem sync_of_eq (hadds : Adds t u) (hactive : u.captureIsActive = t.captureIsActive)
    (hinput : u.audioInput = t.audioInput) (h : t.gate.Open) :
    Guards t (u.syncTransmission env) := by
  refine sync env hadds fun hon => ?_
  simp only [AudioTask.gate, hactive, hinput] at hon ⊢
  exact h hon

end Guards

namespace AudioTask

variable (t : AudioTask π) (env : AudioEnv)

/-- Where the arm of a command starts: a new connection comes with a new clock. -/
def adopted : AudioCommand π → AudioTask π
  | .connectionEstablished datagram myUserId => t.adoptConnection env datagram myUserId
  | _ => t

theorem sound_adoptConnection (h : t.gate.Sound) (datagram : Nat) (uid : UserId) :
    (t.adoptConnection env datagram uid).gate.Sound where
  input := h.input
  want := fun hactive =>
    have hwant := shouldCapture_eq_true_iff.mp (h.want hactive)
    shouldCapture_eq_true_iff.mpr ⟨rfl, hwant.2⟩

theorem sound_adopted (h : t.gate.Sound) (command : AudioCommand π) :
    (t.adopted env command).gate.Sound := by
  cases command with
  | connectionEstablished datagram uid => exact t.sound_adoptConnection env h datagram uid
  | _ => exact h

theorem adopted_eq (command : AudioCommand π) : (t.adopted env command).out = t.out ∧
    (t.adopted env command).captureIsActive = t.captureIsActive := by
  cases command <;> exact ⟨rfl, rfl⟩

theorem aside_ensurePlayback : Aside t (t.ensurePlayback env) := by
  unfold ensurePlayback
  split
  · exact ⟨.refl t, rfl⟩
  · exact .refl t

theorem guards_connectionEstablished (h : t.gate.Open) (datagram : Nat) (uid : UserId) :
    Guards (t.adoptConnection env datagram uid) (t.connectionEstablished env datagram uid) := by
  let u := t.adoptConnection env datagram uid
  let v := u.ensurePlayback env
  have hv : Aside u v := u.aside_ensurePlayback env
  have hopen : v.gate.Open := hv.gate ▸ h
  unfold connectionEstablished
  dsimp only
  split
  · exact .sync env (hv.adds.trans (v.adds_openInput env hopen)) (v.open_openInput env)
  · exact .sync env hv.adds hopen

/-- With the connection gone a sync leaves capture off, so the stream can be dropped. -/
theorem syncTransmission_disconnected (h : t.connection = none) :
    (t.syncTransmission env).captureIsActive = false := by
  have hwant : shouldCapture t.voiceMode t.selfMuted t.serverMuted t.pttActive
      t.connection.isSome = false := by
    rw [h]
    rfl
  unfold syncTransmission
  rw [hwant]
  cases hactive : t.captureIsActive
  · exact hactive
  · exact t.deactivateCapture_inactive

theorem guards_connectionClosed : Guards t (t.connectionClosed env) := by
  unfold connectionClosed
  let u : AudioTask π := { t with connection := none, myUserId := 0 }
  have hoff : (u.syncTransmission env).captureIsActive = false :=
    u.syncTransmission_disconnected env rfl
  have hu : Adds t u := { Adds.refl t with connection := .inr rfl }
  have hadds : Adds t (u.syncTransmission env).stopTransmission :=
    (hu.trans (u.adds_syncTransmission env)).trans (.stopTransmission _)
  let v : AudioTask π := { (u.syncTransmission env).stopTransmission with
    inputRecovering := false
    encoder := false
    pttActive := false
    serverMuted := false }
  have hstops : Aside v (v.emitStops env.talkingUsers) := .emitStops v _
  have hv : Adds t (v.emitStops env.talkingUsers) := hadds.trans hstops.adds
  refine .of_inactive hv ?_
  exact (congrArg Gate.active hstops.gate).trans hoff

theorem guards_setInputDevice (h : t.gate.Open) (deviceId : Option String) :
    Guards t (t.setInputDevice env deviceId) := by
  unfold setInputDevice
  split
  · exact .sync_of_eq env (.emit t (by simp)) rfl rfl h
  · dsimp only
    let u : AudioTask π := { t with selectedInput := deviceId, inputRecovering := false }
    have hclose : Adds t u.closeInput := (Adds.refl t).trans u.adds_closeInput
    have hinactive : u.closeInput.captureIsActive = false := u.closeInput_inactive h
    have hopen : u.closeInput.gate.Open := (Gate.Sound.of_inactive hinactive).input
    split
    · rcases u.closeInput.startTransmission_cases env with
        ⟨input, hinput, hstart, heq⟩ | ⟨e, hnone, heq⟩
      · rw [show (closeInput _).startTransmission env = _ from heq]
        have hconfirm := Adds.emit { u.closeInput with audioInput := input }
          (show .selectedDeviceChanged .input deviceId ≠ _ by simp)
        exact .sync env ((hclose.trans hstart).trans hconfirm) fun _ => hinput
      · rw [show (closeInput _).startTransmission env = _ from heq]
        exact .sync env (hclose.trans (adds_inputUnavailable _ hopen hnone e))
          fun hactive => nomatch hactive
    · exact .sync env (hclose.trans (.emit _ (by simp))) hopen

theorem guards_rebuildInput {u : AudioTask π} (hadds : Adds t u) (hgate : u.gate = t.gate)
    (h : t.gate.Open) : Guards t (u.rebuildInput env) := by
  have hclose : Adds t u.closeInput := hadds.trans u.adds_closeInput
  have hopen : u.closeInput.gate.Open :=
    (Gate.Sound.of_inactive (u.closeInput_inactive (hgate ▸ h))).input
  unfold rebuildInput
  dsimp only
  split
  · exact .sync env (hclose.trans (adds_openInput _ env hopen)) (open_openInput _ env)
  · exact .sync env hclose hopen

theorem aside_deafenPlayback (deafened : Bool) : Aside t (t.deafenPlayback env deafened) := by
  unfold deafenPlayback
  split
  · have hclear : Aside t { t with playback := false, outputRecovering := false, userAudio := ∅ } :=
      ⟨.refl t, rfl⟩
    exact hclear.trans (.emitStops _ env.talkingUsers)
  · split
    · exact ⟨.refl t, rfl⟩
    · exact .refl t

theorem guards_setDeafened (h : t.gate.Open) (deafened : Bool) :
    Guards t (t.setDeafened env deafened) := by
  let u : AudioTask π := { t with
    selfDeafened := deafened
    selfMuted := if deafened && !t.selfMuted then true else t.selfMuted }
  let v := (u.emit (.selfDeafenedChanged deafened)).emit (.selfMutedChanged u.selfMuted)
  have hv : Adds t v := (Adds.emit t (by simp)).trans (.emit _ (by simp))
  have hplayback : Aside v (v.deafenPlayback env deafened) := v.aside_deafenPlayback env deafened
  refine .sync env (hv.trans hplayback.adds) ?_
  rw [hplayback.gate]
  exact h

theorem aside_setVolume (userId : UserId) (volumeDb : Int) :
    Aside t (t.setVolume userId volumeDb) := by
  unfold setVolume
  split
  · exact ⟨.refl t, rfl⟩
  · exact .refl t

theorem aside_setUserRx (userId : UserId) (config : UserRxConfig π) :
    Aside t (t.setUserRx userId config) := by
  let u := { t with perUserRx := t.perUserRx.set userId config }.emit
    (.userRxConfigChanged userId config)
  have hu : Aside t u := ⟨.emit t (by simp), rfl⟩
  exact hu.trans (u.aside_setVolume userId config.volumeDb)

theorem aside_setOutputDevice (deviceId : Option String) :
    Aside t (t.setOutputDevice env deviceId) := by
  unfold setOutputDevice
  dsimp only
  split
  · split
    · exact ⟨.emit t (by simp), rfl⟩
    · exact ⟨.emit t (by simp), rfl⟩
  · exact ⟨.emit t (by simp), rfl⟩

theorem aside_userJoinedRoom (userId : UserId) : Aside t (t.userJoinedRoom env userId) := by
  unfold userJoinedRoom
  split
  · exact .refl t
  · have hjoin : Aside t { t with roomMembers := t.roomMembers.insert userId } := ⟨.refl t, rfl⟩
    dsimp only
    split
    · exact hjoin.trans (.insertUser _ env userId)
    · exact hjoin

theorem aside_userLeftRoom (userId : UserId) : Aside t (t.userLeftRoom env userId) := by
  unfold userLeftRoom
  dsimp only
  split
  · split
    · exact ⟨.emit t (by simp), rfl⟩
    · exact ⟨.refl t, rfl⟩
  · exact ⟨.refl t, rfl⟩

theorem aside_roomChanged (users : List UserId) : Aside t (t.roomChanged env users) := by
  let u := { t with userAudio := ∅ }.emitStops env.talkingUsers
  let others := users.filter (· ≠ u.myUserId)
  have hclear : Aside t { t with userAudio := ∅ } := ⟨.refl t, rfl⟩
  have hu : Aside t u := hclear.trans (.emitStops _ env.talkingUsers)
  have hmembers : Aside u { u with roomMembers := others.dedup } := ⟨.refl u, rfl⟩
  exact (hu.trans hmembers).trans (.foldl (fun t userId => .insertUser t env userId) others _)

theorem guards_setServerMuted (h : t.gate.Open) (muted : Bool) :
    Guards t (t.setServerMuted env muted) := by
  unfold setServerMuted
  split
  · exact (Aside.refl t).guards
  · exact .sync_of_eq env (.emit t (by simp)) rfl rfl h

theorem guards_updateSettings (h : t.gate.Open) (settings : AudioSettings) :
    Guards t (t.updateSettings env settings) := by
  unfold updateSettings
  split
  · exact (Aside.refl t).guards
  · exact t.guards_rebuildInput env (.emit t (by simp)) rfl h

theorem guards_updateTxPipeline [BEq π] (h : t.gate.Open) (config : π) :
    Guards t (t.updateTxPipeline env config) := by
  unfold updateTxPipeline
  split
  · exact (Aside.refl t).guards
  · exact t.guards_rebuildInput env (.emit t (by simp)) rfl h

theorem aside_clearUserRxOverride (userId : UserId) :
    Aside t (({ t with perUserRx := t.perUserRx.del userId }.emit
      (.userRxOverrideCleared userId)).setVolume userId 0) := by
  let u := { t with perUserRx := t.perUserRx.del userId }.emit (.userRxOverrideCleared userId)
  have hu : Aside t u := ⟨.emit t (by simp), rfl⟩
  exact hu.trans (u.aside_setVolume userId 0)

/-- Every command keeps the gate sound and announces its switches. -/
theorem guards_handle [BEq π] (h : t.gate.Open) (command : AudioCommand π) :
    Guards (t.adopted env command) (t.handle env command) := by
  cases command with
  | connectionEstablished datagram uid => exact t.guards_connectionEstablished env h datagram uid
  | connectionClosed => exact t.guards_connectionClosed env
  | setInputDevice deviceId => exact t.guards_setInputDevice env h deviceId
  | setOutputDevice deviceId => exact (t.aside_setOutputDevice env deviceId).guards
  | startTransmit => exact .sync_of_eq env (.refl t) rfl rfl h
  | stopTransmit => exact .sync_of_eq env (.refl t) rfl rfl h
  | setVoiceMode mode => exact .sync_of_eq env (.emit t (by simp)) rfl rfl h
  | setMuted muted => exact .sync_of_eq env (.emit t (by simp)) rfl rfl h
  | setDeafened deafened => exact t.guards_setDeafened env h deafened
  | setServerMuted muted => exact t.guards_setServerMuted env h muted
  | muteUser userId => exact Aside.guards ⟨.emit t (by simp), rfl⟩
  | unmuteUser userId => exact Aside.guards ⟨.emit t (by simp), rfl⟩
  | refreshDevices => exact Aside.guards ⟨.emit t (by simp), rfl⟩
  | updateSettings settings => exact t.guards_updateSettings env h settings
  | resetStats => exact Aside.guards ⟨.refl t, rfl⟩
  | updateTxPipeline config => exact t.guards_updateTxPipeline env h config
  | updateRxPipelineDefaults config => exact Aside.guards ⟨.emit t (by simp), rfl⟩
  | updateUserRxConfig userId config => exact (t.aside_setUserRx userId config).guards
  | clearUserRxOverride userId => exact (t.aside_clearUserRxOverride userId).guards
  | setUserVolume userId volumeDb => exact (t.aside_setUserRx userId _).guards
  | userJoinedRoom userId => exact (t.aside_userJoinedRoom env userId).guards
  | userLeftRoom userId => exact (t.aside_userLeftRoom env userId).guards
  | roomChanged users => exact (t.aside_roomChanged env users).guards
  | peerLeft userId => exact Aside.guards ⟨.refl t, rfl⟩
  | playSfx => exact (Aside.refl t).guards
  | shutdown => exact Aside.guards ⟨.refl t, rfl⟩

/-- A message for the connection goes out on it or is lost. -/
theorem encodedReady_cases (message : CaptureMessage) (sends : Bool) :
    ∃ os, (t.encodedReady message sends).clockwork = { t.clockwork with out := t.out ++ os } ∧
      (t.encodedReady message sends).gate = t.gate ∧
      (os = [] ∨ ∃ c d, t.connection = some c ∧ os = [.sent c message d]) := by
  unfold encodedReady
  split
  · exact ⟨[], by rw [List.append_nil]; rfl, rfl, .inl rfl⟩
  · rename_i c hconn
    cases message <;> cases sends
    · exact ⟨[], by rw [List.append_nil]; rfl, rfl, .inl rfl⟩
    · exact ⟨_, rfl, rfl, .inr ⟨c, _, hconn, rfl⟩⟩
    · exact ⟨[], by rw [List.append_nil]; rfl, rfl, .inl rfl⟩
    · exact ⟨_, rfl, rfl, .inr ⟨c, _, hconn, rfl⟩⟩

theorem aside_handleVoiceDatagram (senderId : UserId) (voice : VoiceDatagram) :
    Aside t (t.handleVoiceDatagram env senderId voice) := by
  unfold handleVoiceDatagram
  split
  · exact .refl t
  · let u := if (t.userAudio.get senderId).isNone then t.insertUser env senderId else t
    have hu : Aside t u := by
      unfold u
      split
      · exact .insertUser t env senderId
      · exact .refl t
    dsimp only
    split
    · exact hu
    · split
      · exact hu.trans ⟨.refl u, rfl⟩
      · exact hu.trans ⟨.emit u (by simp), rfl⟩

theorem aside_recvDatagram (voice : VoiceDatagram) : Aside t (t.recvDatagram env voice) := by
  unfold recvDatagram
  split
  · split
    · exact t.aside_handleVoiceDatagram env _ voice
    · exact .refl t
  · exact .refl t

theorem aside_cleanup : Aside t (t.cleanup env) := by
  have hstale : Aside t (t.cleanupStaleUsers env) := .emitStops t _
  exact hstale.trans ⟨.refl _, rfl⟩

/-- A dead stream is closed before the task tries to open it again. -/
theorem guards_inputHealth (h : t.gate.Open) : Guards t (t.inputHealth env) := by
  unfold inputHealth
  split
  · dsimp only
    let u : AudioTask π := { t.closeInput with inputRecovering := true }
    have hadds : Adds t u := t.adds_closeInput
    have hinactive : u.captureIsActive = false := t.closeInput_inactive h
    split
    · rcases u.startTransmission_cases env with ⟨input, hinput, hstart, heq⟩ | ⟨e, hnone, heq⟩
      · rw [show startTransmission _ env = _ from heq]
        have hconfirm := Adds.emit { u with audioInput := input, inputRecovering := false }
          (show .selectedDeviceChanged .input u.selectedInput ≠ _ by simp)
        exact .sync env ((hadds.trans hstart).trans hconfirm) fun _ => hinput
      · rw [show startTransmission _ env = _ from heq]
        exact .of_inactive (hadds.trans (.emit u (by simp))) hinactive
    · exact .of_inactive (hadds.trans (Adds.emit u (by simp))) hinactive
  · exact (Aside.refl t).guards

theorem aside_outputHealth : Aside t (t.outputHealth env) := by
  unfold outputHealth
  dsimp only
  split
  · split
    · split
      · exact ⟨.emit t (by simp), rfl⟩
      · exact ⟨.emit t (by simp), rfl⟩
    · exact ⟨.emit t (by simp), rfl⟩
  · exact .refl t

theorem guards_deviceHealth (h : t.gate.Open) : Guards t (t.deviceHealth env) :=
  (t.guards_inputHealth env h).trans (aside_outputHealth _ env).guards

/-- The frames that encode are queued, and nothing else changes. -/
theorem foldl_queueEncoded (encode : CapturedFrame → Option (List UInt8))
    (frames : List CapturedFrame) : frames.foldl (queueEncoded encode) t =
      { t with out := t.out ++ frames.filterMap fun frame =>
        (encode frame).map fun data => .queued (.encodedFrame data frame) } := by
  induction frames generalizing t with
  | nil => simp
  | cons frame frames ih =>
    rw [List.foldl_cons, ih, queueEncoded]
    cases h : encode frame <;> simp [h, put]

section Callback

variable {t} (stream : CaptureStream) (frame : CapturedFrame)

/-- The ring's stream is put back. -/
theorem gate_setInput (h : t.audioInput.isSome) :
    { t with audioInput := some stream }.gate = t.gate := by
  simp only [gate, h, Option.isSome_some]

theorem gate_transmit (h : t.audioInput.isSome)
    (encode : CapturedFrame → Option (List UInt8)) :
    (t.transmit stream frame encode).gate = t.gate := by
  unfold transmit
  dsimp only
  split
  · rw [foldl_queueEncoded]
    exact gate_setInput _ h
  · rfl

theorem gate_suppressFrame (h : t.audioInput.isSome) :
    (t.suppressFrame stream frame).gate = t.gate := by
  unfold suppressFrame
  dsimp only
  split
  · exact gate_setInput _ h
  · exact gate_setInput _ h

theorem gate_noteTransmitting (t : AudioTask π) (transmitting : Bool) :
    (t.noteTransmitting transmitting).gate = t.gate := by
  unfold noteTransmitting
  split <;> rfl

end Callback

/-- A captured frame leaves the gate alone. -/
theorem gate_captureFrame (processed : Processed) : (t.captureFrame processed).gate = t.gate := by
  unfold captureFrame
  split
  · rfl
  · rename_i stream hstream
    have hinput : t.audioInput.isSome := Option.isSome_of_eq_some hstream
    split
    · dsimp only
      split
      · exact gate_setInput _ hinput
      · let u := noteTransmitting { t with captureFrameIndex := t.captureFrameIndex + 1 }
          (!(processed.suppress && !t.vadGateBypass))
        have hu : u.gate = t.gate := gate_noteTransmitting _ _
        have hopen : u.audioInput.isSome := (congrArg Gate.input hu).trans hinput
        split
        · exact (gate_suppressFrame _ _ hopen).trans hu
        · exact (gate_transmit _ _ hopen _).trans hu
    · rfl

/-! ## Runs -/

/-- The turns of the loop announce their switches; a frame of the capture callback, which puts out
markers of its own when the pipeline suppresses it, switches nothing. -/
def AnnouncesSwitches [BEq π] (t : AudioTask π) : Turn π → Prop
  | .captureFrame processed =>
    (t.turn (.captureFrame processed)).captureIsActive = t.captureIsActive
  | i => Announced t.captureIsActive (t.turn i).out (t.turn i).captureIsActive ∧
      endsOfStream (t.turn i).out = switchesOff (t.turn i).out ∧
      transmittingOffs (t.turn i).out = switchesOff (t.turn i).out

theorem gate_turn_captureFrame [BEq π] (processed : Processed) :
    (t.turn (.captureFrame processed)).gate = t.gate := by
  unfold turn
  dsimp only
  split
  · exact gate_captureFrame { t with out := [] } processed
  · rfl

/-- A turn of the loop announces its switches and ends gated. -/
theorem announced_turn [BEq π] (h : t.gate.Sound) (i : Turn π) (hi : ∀ p, i ≠ .captureFrame p) :
    Announced t.captureIsActive (t.turn i).out (t.turn i).captureIsActive ∧
      (t.turn i).gate.Sound := by
  let u : AudioTask π := { t with out := [] }
  have hu : u.gate.Sound := h
  have hguards (v : AudioTask π) {t' : AudioTask π} (hv : v.out = [])
      (hactive : v.captureIsActive = t.captureIsActive) (hsound : v.gate.Sound)
      (hg : Guards v t') :
      Announced t.captureIsActive t'.out t'.captureIsActive ∧ t'.gate.Sound := by
    obtain ⟨os, hout, hann, -⟩ := hg.adds.outs
    have hout : t'.out = os := hout.trans (by rw [show v.clockwork.out = [] from hv]; rfl)
    rw [hout, ← hactive]
    exact ⟨hann, hg.sound hsound⟩
  unfold turn
  dsimp only
  split
  · cases i with
    | command env command =>
      have hadopted : (u.adopted env command).gate.Sound := u.sound_adopted env hu command
      have heq := u.adopted_eq env command
      exact hguards _ heq.1 heq.2 hadopted (u.guards_handle env hu.input command)
    | encodedReady message sends =>
      obtain ⟨os, hclock, hgate, hos⟩ := u.encodedReady_cases message sends
      have hout : (u.encodedReady message sends).out = os := congrArg Clockwork.out hclock
      have hactive : (u.encodedReady message sends).captureIsActive = t.captureIsActive :=
        congrArg Clockwork.active hclock
      refine ⟨?_, hgate ▸ hu⟩
      rw [hactive, hout]
      rcases hos with rfl | ⟨c, d, -, rfl⟩
      · exact .nil _
      · exact .sent c message d (.nil _)
    | datagram env voice => exact hguards u rfl rfl hu (u.aside_recvDatagram env voice).guards
    | cleanup env => exact hguards u rfl rfl hu (u.aside_cleanup env).guards
    | deviceHealth env => exact hguards u rfl rfl hu (u.guards_deviceHealth env hu.input)
    | captureFrame processed => exact absurd rfl (hi processed)
  · exact ⟨.nil _, h⟩

theorem sound_turn [BEq π] (h : t.gate.Sound) (i : Turn π) : (t.turn i).gate.Sound := by
  by_cases hi : ∃ p, i = .captureFrame p
  · obtain ⟨p, rfl⟩ := hi
    rw [gate_turn_captureFrame]
    exact h
  · exact (t.announced_turn h i (not_exists.mp hi)).2

theorem announcesSwitches [BEq π] (h : t.gate.Sound) (i : Turn π) : t.AnnouncesSwitches i := by
  by_cases hi : ∃ p, i = .captureFrame p
  · obtain ⟨p, rfl⟩ := hi
    exact congrArg Gate.active (t.gate_turn_captureFrame p)
  · have hann := (t.announced_turn h i (not_exists.mp hi)).1
    cases i with
    | captureFrame p => exact absurd ⟨p, rfl⟩ hi
    | _ => exact ⟨hann, hann.counts⟩

/-- **The gate holds in every state of a run.** -/
theorem sound_run [BEq π] (turns : List (Turn π)) (h : t.gate.Sound) :
    (turns.foldl turn t).gate.Sound := by
  induction turns generalizing t with
  | nil => exact h
  | cons i turns ih => exact ih _ (t.sound_turn h i)

end AudioTask

end Rumble.Client
