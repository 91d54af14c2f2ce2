import Mathlib.Data.List.Chain
import Rumble.Lib.Table
import Rumble.Protocol.Wire

/-!
# The audio task

`rumble-client/src/audio_task.rs`: the loop that owns the capture and playback streams, the
connection's datagram handle and the decoders of the other users. One turn of the loop handles a
command, sends an encoded frame, takes a datagram, or runs a timer; the capture callback runs on the
device's thread and shares the media clock with the loop. `rumble-client/src/preroll.rs` is the ring
of suppressed frames that the callback keeps.

Left out: the samples, the codec's state and the processing pipelines, the jitter buffers behind a
decoder (only the time of its last packet is kept), the sound effects and the statistics of what is
received.
-/

namespace Rumble.Client

open Rumble.Lib

/-! ## The pre-roll ring -/

/-- Microseconds of one frame on the media clock. -/
def frameUs : Nat := 20000

def preRollFrames : Nat := 5

/-- A captured frame on the media clock, with the connection that was current at its capture. -/
structure CapturedFrame where
  timestampUs : Nat
  capturedOn : Option Nat
  deriving DecidableEq

/-- Suppressed frames, oldest first: a run of consecutive frames of bounded length. -/
structure PreRollRing where
  slots : List CapturedFrame
  consecutive : slots.IsChain fun a b => a.timestampUs + frameUs = b.timestampUs
  bounded : slots.length ≤ preRollFrames

namespace PreRollRing

def new : PreRollRing := ⟨[], .nil, Nat.zero_le _⟩

variable (ring : PreRollRing)

def newestTimestamp : Option Nat := ring.slots.getLast?.map CapturedFrame.timestampUs

/-- What a push keeps: nothing when the frame does not follow the newest one. -/
def kept (timestampUs : Nat) : List CapturedFrame :=
  if ring.newestTimestamp.all fun newest => newest + frameUs == timestampUs then
    if ring.slots.length = preRollFrames then ring.slots.tail else ring.slots
  else []

theorem kept_suffix (ts : Nat) : ring.kept ts <:+ ring.slots := by
  unfold kept
  split
  · split
    · exact List.tail_suffix _
    · exact List.suffix_rfl
  · exact List.nil_suffix

theorem kept_length (ts : Nat) : (ring.kept ts).length < preRollFrames := by
  have hbound := ring.bounded
  unfold kept
  split
  · split
    · rename_i hfull
      rw [List.length_tail, hfull]
      decide
    · omega
  · decide

/-- What is kept leads up to the pushed frame. -/
theorem kept_newest {ts : Nat} {newest : CapturedFrame} (h : newest ∈ (ring.kept ts).getLast?) :
    newest.timestampUs + frameUs = ts := by
  unfold kept at h
  split at h
  · rename_i hnext
    have hlast : newest ∈ ring.slots.getLast? := by
      split at h
      · rw [List.getLast?_tail] at h
        split at h
        · exact absurd h (Option.not_mem_none _)
        · exact h
      · exact h
    unfold newestTimestamp at hnext
    rw [Option.mem_def.mp hlast] at hnext
    simpa using hnext
  · exact absurd h (Option.not_mem_none _)

/-- Stash a suppressed frame. -/
def push (frame : CapturedFrame) : PreRollRing where
  slots := ring.kept frame.timestampUs ++ [frame]
  consecutive := by
    refine List.isChain_append.mpr ⟨?_, .singleton _, fun newest hnewest first hfirst => ?_⟩
    · exact ring.consecutive.suffix (ring.kept_suffix _)
    · obtain rfl := Option.some.inj hfirst
      exact ring.kept_newest hnewest
  bounded := by
    rw [List.length_append]
    exact ring.kept_length _

/-- The frames a flush emits: all of them when they lead up to the current frame. -/
def flushed (timestampUs : Nat) : List CapturedFrame :=
  if ring.newestTimestamp.any fun newest => newest + frameUs == timestampUs then ring.slots else []

end PreRollRing

/-! ## Commands and events -/

inductive VoiceMode where
  | pushToTalk
  | continuous
  deriving DecidableEq

inductive DeviceKind where
  | input
  | output
  deriving DecidableEq

structure AudioSettings where
  bitrate : Int
  encoderComplexity : Int
  jitterBufferDelayPackets : Nat
  fecEnabled : Bool
  packetLossPercent : Int
  deriving DecidableEq

/-- `π` is the configuration of a pipeline; the volume is in whole decibels. -/
structure UserRxConfig (π : Type) where
  pipelineOverride : Option π
  volumeDb : Int
  deriving DecidableEq

inductive AudioCommand (π : Type) where
  | connectionEstablished (datagram : Nat) (myUserId : UserId)
  | connectionClosed
  | setInputDevice (deviceId : Option String)
  | setOutputDevice (deviceId : Option String)
  | startTransmit
  | stopTransmit
  | setVoiceMode (mode : VoiceMode)
  | setMuted (muted : Bool)
  | setDeafened (deafened : Bool)
  | setServerMuted (muted : Bool)
  | muteUser (userId : UserId)
  | unmuteUser (userId : UserId)
  | refreshDevices
  | updateSettings (settings : AudioSettings)
  | resetStats
  | updateTxPipeline (config : π)
  | updateRxPipelineDefaults (config : π)
  | updateUserRxConfig (userId : UserId) (config : UserRxConfig π)
  | clearUserRxOverride (userId : UserId)
  | setUserVolume (userId : UserId) (volumeDb : Int)
  | userJoinedRoom (userId : UserId)
  | userLeftRoom (userId : UserId)
  | roomChanged (userIdsInRoom : List UserId)
  | peerLeft (userId : UserId)
  | playSfx
  | shutdown
  deriving DecidableEq

inductive VoiceEvent (π : Type) where
  | userStartedTalking (userId : UserId)
  | userStoppedTalking (userId : UserId)
  | selfMutedChanged (muted : Bool)
  | selfDeafenedChanged (deafened : Bool)
  | localMuteToggled (userId : UserId) (muted : Bool)
  | serverMutedChanged (muted : Bool)
  | transmittingChanged (active : Bool)
  | devicesEnumerated (inputs outputs : List String)
  | selectedDeviceChanged (kind : DeviceKind) (id : Option String)
  | deviceUnavailable (kind : DeviceKind) (message : String)
  | deviceError (kind : DeviceKind) (message : String) (recovering : Bool)
  | voiceModeChanged (mode : VoiceMode)
  | audioSettingsChanged (settings : AudioSettings)
  | txPipelineChanged (config : π)
  | rxPipelineDefaultsChanged (config : π)
  | userRxConfigChanged (userId : UserId) (config : UserRxConfig π)
  | userRxOverrideCleared (userId : UserId)
  deriving DecidableEq

/-- What the capture callback and the loop leave in the queue of encoded frames. -/
inductive CaptureMessage where
  | encodedFrame (data : List UInt8) (frame : CapturedFrame)
  | endOfStream (timestampUs : Nat)
  deriving DecidableEq

/-- What a turn puts out, in order: events, messages for the encoded queue, datagrams handed to a
connection, and the assignments of `capture_is_active`, each with the value it replaces. -/
inductive Output (π : Type) where
  | emitted (event : VoiceEvent π)
  | queued (message : CaptureMessage)
  | sent (connection : Nat) (message : CaptureMessage) (datagram : VoiceDatagram)
  | captureSet (was active : Bool)
  deriving DecidableEq

/-! ## The task's variables -/

structure CaptureStream where
  active : Bool
  framesToDiscard : Nat
  preroll : PreRollRing

structure UserAudioState where
  lastArrival : Nat
  volumeDb : Int
  deriving DecidableEq

structure AudioTask (π : Type) where
  running : Bool
  connection : Option Nat
  myUserId : UserId
  voiceMode : VoiceMode
  selfMuted : Bool
  selfDeafened : Bool
  pttActive : Bool
  serverMuted : Bool
  mutedUsers : List UserId
  audioInput : Option CaptureStream
  playback : Bool
  userAudio : Table UserId UserAudioState
  roomMembers : List UserId
  selectedInput : Option String
  selectedOutput : Option String
  audioSettings : AudioSettings
  txPipelineConfig : π
  rxPipelineDefaults : π
  perUserRx : Table UserId (UserRxConfig π)
  sendSequence : Nat
  captureFrameIndex : Nat
  captureEpoch : Nat
  packetsSent : Nat
  bytesSent : Nat
  encoder : Bool
  captureIsActive : Bool
  inputRecovering : Bool
  outputRecovering : Bool
  wasTransmitting : Bool
  vadGateBypass : Bool
  out : List (Output π)

/-- What a turn finds outside the loop: the clock in microseconds and how much later the media clock
is read, whether devices and codecs open, whether the streams are healthy, and the projection's
talking set as it stands. -/
structure AudioEnv where
  now : Nat
  delay : Nat
  openInput : Except String Unit
  openOutput : Bool
  createEncoder : Bool
  createDecoder : UserId → Bool
  inputHealthy : Bool
  outputHealthy : Bool
  inputDevices : List String
  outputDevices : List String
  talkingUsers : List UserId

/-- Every device and codec works. -/
def AudioEnv.working : AudioEnv where
  now := 0
  delay := 0
  openInput := .ok ()
  openOutput := true
  createEncoder := true
  createDecoder := fun _ => true
  inputHealthy := true
  outputHealthy := true
  inputDevices := []
  outputDevices := []
  talkingUsers := []

def AudioSettings.default : AudioSettings where
  bitrate := 64000
  encoderComplexity := 10
  jitterBufferDelayPackets := 3
  fecEnabled := true
  packetLossPercent := 5

/-- Should captured audio be processed. -/
def shouldCapture (voiceMode : VoiceMode) (selfMuted serverMuted pttActive connected : Bool) :
    Bool :=
  if !connected || selfMuted || serverMuted then false
  else match voiceMode with
    | .continuous => true
    | .pushToTalk => pttActive

inductive CaptureTransition where
  | none
  | activate
  | deactivate
  deriving DecidableEq

def captureTransition (want active : Bool) : CaptureTransition :=
  match want, active with
  | true, false => .activate
  | false, true => .deactivate
  | _, _ => .none

namespace AudioTask

variable {π : Type}

/-- The variables before the loop starts; the settings come from the client's state. -/
def start (env : AudioEnv) (settings : AudioSettings) (tx rx : π)
    (perUserRx : Table UserId (UserRxConfig π)) : AudioTask π where
  running := true
  connection := none
  myUserId := 0
  voiceMode := .pushToTalk
  selfMuted := false
  selfDeafened := false
  pttActive := false
  serverMuted := false
  mutedUsers := []
  audioInput := none
  playback := env.openOutput
  userAudio := ∅
  roomMembers := []
  selectedInput := none
  selectedOutput := none
  audioSettings := settings
  txPipelineConfig := tx
  rxPipelineDefaults := rx
  perUserRx := perUserRx
  sendSequence := 0
  captureFrameIndex := 0
  captureEpoch := env.now
  packetsSent := 0
  bytesSent := 0
  encoder := false
  captureIsActive := false
  inputRecovering := false
  outputRecovering := false
  wasTransmitting := false
  vadGateBypass := true
  out := []

section Capture

variable (t : AudioTask π)

def put (o : Output π) : AudioTask π := { t with out := t.out ++ [o] }

def emit (event : VoiceEvent π) : AudioTask π := t.put (.emitted event)

/-- Every assignment of `capture_is_active`. -/
def setCapture (active : Bool) : AudioTask π :=
  { t.put (.captureSet t.captureIsActive active) with captureIsActive := active }

def setStreamActive (active : Bool) : AudioTask π :=
  { t with audioInput := t.audioInput.map fun stream => { stream with active := active } }

/-- `deactivate_capture!`. -/
def deactivateCapture : AudioTask π :=
  if t.captureIsActive then
    let t := t.put (.queued (.endOfStream (t.captureFrameIndex * frameUs)))
    let t := (t.setCapture false).setStreamActive false
    { t with wasTransmitting := false }.emit (.transmittingChanged false)
  else t

/-- `sync_transmission!`. Activation waits for an open stream, and moves the media clock over the
time that was not captured. -/
def syncTransmission (env : AudioEnv) : AudioTask π :=
  let want := shouldCapture t.voiceMode t.selfMuted t.serverMuted t.pttActive t.connection.isSome
  match captureTransition want t.captureIsActive with
  | .activate =>
    if t.audioInput.isSome then
      let t := t.setCapture true
      let elapsedFrames := (env.now + env.delay - t.captureEpoch) / frameUs
      let t := { t with captureFrameIndex := max t.captureFrameIndex elapsedFrames }
      t.setStreamActive true
    else t
  | .deactivate => t.deactivateCapture
  | .none => t

/-- The stream starts inactive; its first frames are discarded. -/
def startTransmission (env : AudioEnv) : AudioTask π × Except String Unit :=
  if t.audioInput.isSome then (t, .ok ())
  else if !t.encoder then (t, .error "connection-scoped encoder not available")
  else match env.openInput with
    | .ok () => ({ t with audioInput := some ⟨false, 3, .new⟩ }, .ok ())
    | .error e => (t, .error e)

def stopTransmission : AudioTask π := { t with audioInput := none }

/-- The teardown that comes before a re-open. -/
def closeInput : AudioTask π :=
  if t.audioInput.isSome then t.deactivateCapture.stopTransmission else t

/-- What follows a stream that does not open. -/
def inputUnavailable (e : String) : AudioTask π :=
  (t.setCapture false).emit (.deviceUnavailable .input e)

/-- Open the stream, and report a failure. -/
def openInput (env : AudioEnv) : AudioTask π :=
  match t.startTransmission env with
  | (t, .ok ()) => t
  | (t, .error e) => t.inputUnavailable e

/-- `open_playback!`. -/
def openPlayback (env : AudioEnv) : AudioTask π := { t with playback := env.openOutput }

def emitStops (users : List UserId) : AudioTask π :=
  users.foldl (fun t userId => t.emit (.userStoppedTalking userId)) t

/-- A decoder for a user, as the user's own configuration asks. -/
def insertUser (env : AudioEnv) (userId : UserId) : AudioTask π :=
  if env.createDecoder userId then
    let volumeDb := ((t.perUserRx.get userId).map UserRxConfig.volumeDb).getD 0
    { t with userAudio := t.userAudio.set userId ⟨env.now, volumeDb⟩ }
  else t

end Capture

/-! ## Commands -/

section Commands

variable (env : AudioEnv) (t : AudioTask π)

/-- A new connection starts a new media clock and gets its encoder. -/
def adoptConnection (datagram : Nat) (myUserId : UserId) : AudioTask π :=
  { t with
    connection := some datagram
    myUserId := myUserId
    captureEpoch := env.now
    captureFrameIndex := 0
    encoder := t.encoder || env.createEncoder }

/-- The playback stream is open unless the user is deafened. -/
def ensurePlayback : AudioTask π :=
  if !t.playback && !t.selfDeafened then t.openPlayback env else t

def connectionEstablished (datagram : Nat) (myUserId : UserId) : AudioTask π :=
  let t := (t.adoptConnection env datagram myUserId).ensurePlayback env
  let t := if t.audioInput.isNone then t.openInput env else t
  t.syncTransmission env

def connectionClosed : AudioTask π :=
  let t := { t with connection := none, myUserId := 0 }
  let t := (t.syncTransmission env).stopTransmission
  let t := { t with
    inputRecovering := false
    encoder := false
    pttActive := false
    serverMuted := false }
  let t := t.emitStops env.talkingUsers
  { t with userAudio := ∅, roomMembers := [] }

def setInputDevice (deviceId : Option String) : AudioTask π :=
  if deviceId = t.selectedInput ∧ t.audioInput.isSome then
    (t.emit (.selectedDeviceChanged .input deviceId)).syncTransmission env
  else
    let t := { t with selectedInput := deviceId, inputRecovering := false }.closeInput
    let t :=
      if t.connection.isSome then
        match t.startTransmission env with
        | (t, .ok ()) => t.emit (.selectedDeviceChanged .input deviceId)
        | (t, .error e) => t.inputUnavailable e
      else t.emit (.selectedDeviceChanged .input deviceId)
    t.syncTransmission env

/-- The message about a sink that did not open. -/
def outputMessage (what : String) : String :=
  let device := (t.selectedOutput.getD "default").quote
  s!"failed to {what} output device {device}"

def setOutputDevice (deviceId : Option String) : AudioTask π :=
  let t := { t with selectedOutput := deviceId, outputRecovering := false, playback := false }
  if !t.selfDeafened then
    let t := t.openPlayback env
    if t.playback then t.emit (.selectedDeviceChanged .output deviceId)
    else t.emit (.deviceUnavailable .output (t.outputMessage "open"))
  else t.emit (.selectedDeviceChanged .output deviceId)

def setVoiceMode (mode : VoiceMode) : AudioTask π :=
  let t := { t with voiceMode := mode, vadGateBypass := mode == VoiceMode.pushToTalk }
  (t.emit (.voiceModeChanged mode)).syncTransmission env

def setMuted (muted : Bool) : AudioTask π :=
  ({ t with selfMuted := muted }.emit (.selfMutedChanged muted)).syncTransmission env

/-- Deafening closes the playback stream and drops every decoder. -/
def deafenPlayback (deafened : Bool) : AudioTask π :=
  if deafened then
    { t with playback := false, outputRecovering := false, userAudio := ∅ }.emitStops
      env.talkingUsers
  else if t.connection.isSome && !t.playback then t.openPlayback env
  else t

/-- Deafening mutes; undeafening does not unmute. -/
def setDeafened (deafened : Bool) : AudioTask π :=
  let t := { t with
    selfDeafened := deafened
    selfMuted := if deafened && !t.selfMuted then true else t.selfMuted }
  let t := (t.emit (.selfDeafenedChanged deafened)).emit (.selfMutedChanged t.selfMuted)
  (t.deafenPlayback env deafened).syncTransmission env

def setServerMuted (muted : Bool) : AudioTask π :=
  if t.serverMuted = muted then t
  else ({ t with serverMuted := muted }.emit (.serverMutedChanged muted)).syncTransmission env

/-- The stream is rebuilt after a change of settings or of the pipeline. -/
def rebuildInput : AudioTask π :=
  let t := t.closeInput
  let t := if t.connection.isSome then t.openInput env else t
  t.syncTransmission env

def updateSettings (settings : AudioSettings) : AudioTask π :=
  if settings = t.audioSettings then t
  else ({ t with audioSettings := settings }.emit (.audioSettingsChanged settings)).rebuildInput env

def updateTxPipeline [BEq π] (config : π) : AudioTask π :=
  if config == t.txPipelineConfig then t
  else ({ t with txPipelineConfig := config }.emit (.txPipelineChanged config)).rebuildInput env

/-- The volume of a decoder that exists. -/
def setVolume (userId : UserId) (volumeDb : Int) : AudioTask π :=
  match t.userAudio.get userId with
  | some userState =>
    { t with userAudio := t.userAudio.set userId { userState with volumeDb := volumeDb } }
  | none => t

def setUserRx (userId : UserId) (config : UserRxConfig π) : AudioTask π :=
  ({ t with perUserRx := t.perUserRx.set userId config }.emit
    (.userRxConfigChanged userId config)).setVolume userId config.volumeDb

def setUserVolume (userId : UserId) (volumeDb : Int) : AudioTask π :=
  t.setUserRx userId { (t.perUserRx.get userId).getD ⟨none, 0⟩ with volumeDb := volumeDb }

def userJoinedRoom (userId : UserId) : AudioTask π :=
  if userId = t.myUserId then t
  else
    let t := { t with roomMembers := t.roomMembers.insert userId }
    if (t.userAudio.get userId).isNone then t.insertUser env userId else t

/-- The talking set is read as the projection has it. -/
def userLeftRoom (userId : UserId) : AudioTask π :=
  let t := { t with roomMembers := t.roomMembers.filter (· ≠ userId) }
  if (t.userAudio.get userId).isSome then
    let t := { t with userAudio := t.userAudio.del userId }
    if userId ∈ env.talkingUsers then t.emit (.userStoppedTalking userId) else t
  else t

def roomChanged (userIdsInRoom : List UserId) : AudioTask π :=
  let t := { t with userAudio := ∅ }.emitStops env.talkingUsers
  let others := userIdsInRoom.filter (· ≠ t.myUserId)
  others.foldl (fun t userId => t.insertUser env userId) { t with roomMembers := others.dedup }

/-- No event goes out. -/
def peerLeft (userId : UserId) : AudioTask π :=
  { t with
    roomMembers := t.roomMembers.filter (· ≠ userId)
    userAudio := t.userAudio.del userId }

def handle [BEq π] : AudioCommand π → AudioTask π
  | .connectionEstablished datagram myUserId => t.connectionEstablished env datagram myUserId
  | .connectionClosed => t.connectionClosed env
  | .setInputDevice deviceId => t.setInputDevice env deviceId
  | .setOutputDevice deviceId => t.setOutputDevice env deviceId
  | .startTransmit => { t with pttActive := true }.syncTransmission env
  | .stopTransmit => { t with pttActive := false }.syncTransmission env
  | .setVoiceMode mode => t.setVoiceMode env mode
  | .setMuted muted => t.setMuted env muted
  | .setDeafened deafened => t.setDeafened env deafened
  | .setServerMuted muted => t.setServerMuted env muted
  | .muteUser userId =>
    { t with mutedUsers := t.mutedUsers.insert userId }.emit (.localMuteToggled userId true)
  | .unmuteUser userId =>
    { t with mutedUsers := t.mutedUsers.filter (· ≠ userId) }.emit (.localMuteToggled userId false)
  | .refreshDevices => t.emit (.devicesEnumerated env.inputDevices env.outputDevices)
  | .updateSettings settings => t.updateSettings env settings
  | .resetStats => { t with packetsSent := 0, bytesSent := 0 }
  | .updateTxPipeline config => t.updateTxPipeline env config
  | .updateRxPipelineDefaults config =>
    { t with rxPipelineDefaults := config }.emit (.rxPipelineDefaultsChanged config)
  | .updateUserRxConfig userId config => t.setUserRx userId config
  | .clearUserRxOverride userId =>
    ({ t with perUserRx := t.perUserRx.del userId }.emit
      (.userRxOverrideCleared userId)).setVolume userId 0
  | .setUserVolume userId volumeDb => t.setUserVolume userId volumeDb
  | .userJoinedRoom userId => t.userJoinedRoom env userId
  | .userLeftRoom userId => t.userLeftRoom env userId
  | .roomChanged userIdsInRoom => t.roomChanged env userIdsInRoom
  | .peerLeft userId => t.peerLeft userId
  | .playSfx => t
  | .shutdown => { t with running := false }

end Commands

/-! ## The other arms of the loop -/

section Arms

variable (env : AudioEnv) (t : AudioTask π)

/-- An encoded frame, or the end of a stream, goes out as a datagram. Without a connection it is
dropped; a send that fails leaves a warning. -/
def encodedReady (message : CaptureMessage) (sends : Bool) : AudioTask π :=
  match t.connection with
  | none => t
  | some connection =>
    let (opusData, endOfStream, timestampUs) : List UInt8 × Bool × Nat :=
      match message with
      | .encodedFrame data frame => (data, false, frame.timestampUs)
      | .endOfStream timestampUs => ([], true, timestampUs)
    let datagram : VoiceDatagram :=
      { opusData := opusData
        sequence := t.sendSequence
        timestampUs := timestampUs
        endOfStream := endOfStream
        senderId := some t.myUserId
        roomId := none }
    let t := { t with sendSequence := (t.sendSequence + 1) % 2 ^ 32 }
    let t := if endOfStream then t else
      { t with packetsSent := t.packetsSent + 1, bytesSent := t.bytesSent + opusData.length }
    if sends then t.put (.sent connection message datagram) else t

/-- `handle_voice_datagram`: the talking set is read as the projection has it. -/
def handleVoiceDatagram (senderId : UserId) (voice : VoiceDatagram) : AudioTask π :=
  if voice.endOfStream then t
  else
    let t := if (t.userAudio.get senderId).isNone then t.insertUser env senderId else t
    match t.userAudio.get senderId with
    | none => t
    | some userState =>
      let t := { t with
        userAudio := t.userAudio.set senderId { userState with lastArrival := env.now } }
      if senderId ∈ env.talkingUsers then t else t.emit (.userStartedTalking senderId)

/-- A datagram arrives: not our own, and not of a user muted here. -/
def recvDatagram (voice : VoiceDatagram) : AudioTask π :=
  match voice.senderId with
  | some senderId =>
    if senderId ≠ t.myUserId ∧ senderId ∉ t.mutedUsers then
      t.handleVoiceDatagram env senderId voice
    else t
  | none => t

/-- The datagram stream closes or fails: the handle goes, and the rest is left to
`ConnectionClosed`. -/
def datagramsEnded : AudioTask π := { t with connection := none }

/-- 300 ms, in microseconds. -/
def staleThreshold : Nat := 300000

def orphanDecoderTtl : Nat := 300000000

/-- `cleanup_stale_users`: a stop for each user that has gone quiet and is still in the projection's
talking set. -/
def cleanupStaleUsers : AudioTask π :=
  let staleUsers := (t.userAudio.toPairs.filter fun e =>
    staleThreshold < env.now - e.2.lastArrival).map Prod.fst
  t.emitStops (staleUsers.filter (· ∈ env.talkingUsers))

/-- `gc_orphaned_users`. -/
def gcOrphanedUsers : AudioTask π :=
  let orphans := (t.userAudio.toPairs.filter fun e =>
    e.1 ∉ t.roomMembers ∧ orphanDecoderTtl < env.now - e.2.lastArrival).map Prod.fst
  { t with userAudio := orphans.foldl Table.del t.userAudio }

def cleanup : AudioTask π := (t.cleanupStaleUsers env).gcOrphanedUsers env

/-- The capture half of the device-health tick. -/
def inputHealth : AudioTask π :=
  if t.audioInput.isSome && !env.inputHealthy || t.audioInput.isNone && t.inputRecovering then
    let t := { t.closeInput with inputRecovering := true }
    if t.connection.isSome then
      match t.startTransmission env with
      | (t, .ok ()) =>
        ({ t with inputRecovering := false }.emit
          (.selectedDeviceChanged .input t.selectedInput)).syncTransmission env
      | (t, .error e) => t.emit (.deviceError .input e true)
    else { t with inputRecovering := false }.emit (.deviceError .input "capture device lost" false)
  else t

/-- The playback half. -/
def outputHealth : AudioTask π :=
  if t.playback && !env.outputHealthy || !t.playback && t.outputRecovering then
    let t := { t with playback := false, outputRecovering := true }
    if !t.selfDeafened then
      let t := t.openPlayback env
      if t.playback then
        { t with outputRecovering := false }.emit (.selectedDeviceChanged .output t.selectedOutput)
      else t.emit (.deviceError .output (t.outputMessage "re-open") true)
    else
      { t with outputRecovering := false }.emit (.deviceError .output "playback device lost" false)
  else t

def deviceHealth : AudioTask π := (t.inputHealth env).outputHealth env

end Arms

/-! ## The capture callback -/

/-- What the pipeline and the encoder make of a frame: whether it is suppressed, and the packet that
each frame encodes to. -/
structure Processed where
  suppress : Bool
  encode : CapturedFrame → Option (List UInt8)

def queueEncoded (encode : CapturedFrame → Option (List UInt8)) (t : AudioTask π)
    (frame : CapturedFrame) : AudioTask π :=
  match encode frame with
  | some data => t.put (.queued (.encodedFrame data frame))
  | none => t

/-- A frame that the pipeline lets through goes out after the suppressed frames that lead up to
it. -/
def transmit (t : AudioTask π) (stream : CaptureStream) (frame : CapturedFrame)
    (encode : CapturedFrame → Option (List UInt8)) : AudioTask π :=
  let t := { t with wasTransmitting := true }
  if t.encoder then
    let t := { t with audioInput := some { stream with preroll := .new } }
    (stream.preroll.flushed frame.timestampUs ++ [frame]).foldl (queueEncoded encode) t
  else t

/-- A suppressed frame is kept in the ring; the first one ends the stream. -/
def suppressFrame (t : AudioTask π) (stream : CaptureStream) (frame : CapturedFrame) :
    AudioTask π :=
  let t := if t.wasTransmitting then
      { t with wasTransmitting := false }.put (.queued (.endOfStream frame.timestampUs))
    else t
  { t with audioInput := some { stream with preroll := stream.preroll.push frame } }

/-- The voice gate opens or closes. -/
def noteTransmitting (t : AudioTask π) (transmitting : Bool) : AudioTask π :=
  if t.wasTransmitting ≠ transmitting then t.emit (.transmittingChanged transmitting) else t

/-- The device hands over a frame. An inactive stream takes none. -/
def captureFrame (t : AudioTask π) (processed : Processed) : AudioTask π :=
  match t.audioInput with
  | none => t
  | some stream =>
    if stream.active then
      let frame : CapturedFrame := ⟨t.captureFrameIndex * frameUs, t.connection⟩
      let t := { t with captureFrameIndex := t.captureFrameIndex + 1 }
      if 0 < stream.framesToDiscard then
        { t with audioInput := some { stream with framesToDiscard := stream.framesToDiscard - 1 } }
      else
        let suppress := processed.suppress && !t.vadGateBypass
        let t := t.noteTransmitting (!suppress)
        if suppress then t.suppressFrame stream frame
        else t.transmit stream frame processed.encode
    else t

/-! ## Turns -/

/-- A turn of the loop, or a call of the capture callback on the device's thread. -/
inductive Turn (π : Type) where
  | command (env : AudioEnv) (command : AudioCommand π)
  | encodedReady (message : CaptureMessage) (sends : Bool)
  | datagram (env : AudioEnv) (voice : VoiceDatagram)
  | cleanup (env : AudioEnv)
  | deviceHealth (env : AudioEnv)
  | captureFrame (processed : Processed)

/-- A task that was shut down takes no more turns. -/
def turn [BEq π] (t : AudioTask π) (i : Turn π) : AudioTask π :=
  let t := { t with out := [] }
  if t.running then
    match i with
    | .command env command => t.handle env command
    | .encodedReady message sends => t.encodedReady message sends
    | .datagram env voice => t.recvDatagram env voice
    | .cleanup env => t.cleanup env
    | .deviceHealth env => t.deviceHealth env
    | .captureFrame processed => t.captureFrame processed
  else t

end AudioTask

end Rumble.Client
