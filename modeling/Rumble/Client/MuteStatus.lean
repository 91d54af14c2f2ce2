import Rumble.Client.Listening
import Rumble.Lib.Transition
import Rumble.Server.Handlers

/-!
# The user's own mute status

A mute or deafen command is delivered twice, to the audio task, which gates capture and playback
with it, and to the connection task, which tells the server. The status message carries both flags;
the one that the command does not set is read from the projection's state, which follows the audio
task at a distance, and a new connection starts with both flags off on the server
(`not_agrees`). `agrees_run`: when the last message under way is completed from the flags that the
audio task will have, and a connection is made with both of them off, server and audio task agree
as soon as everything is delivered.
-/

namespace Rumble.Client

open Rumble.Lib Rumble.Lib.Transition Rumble.Server

variable {π : Type}

/-! ## The flags in the audio task -/

structure Flags where
  selfMuted : Bool
  selfDeafened : Bool
  deriving DecidableEq

namespace Flags

def off : Flags := ⟨false, false⟩

/-- Deafening mutes; undeafening does not unmute. -/
def apply (f : Flags) : AudioCommand π → Flags
  | .setMuted muted => { f with selfMuted := muted }
  | .setDeafened deafened => ⟨deafened || f.selfMuted, deafened⟩
  | _ => f

/-- The flags as `apply_voice` shows them. -/
def see (f : Flags) : VoiceEvent π → Flags
  | .selfMutedChanged muted => { f with selfMuted := muted }
  | .selfDeafenedChanged deafened => { f with selfDeafened := deafened }
  | _ => f

end Flags

namespace AudioTask

variable (t : AudioTask π) (env : AudioEnv)

def flags : Flags := ⟨t.selfMuted, t.selfDeafened⟩

variable {t} in
theorem flags_of_listening {t' : AudioTask π} (h : t'.listening = t.listening) :
    t'.flags = t.flags := congrArg (fun l => Flags.mk l.selfMuted l.selfDeafened) h

theorem flags_syncTransmission : (t.syncTransmission env).flags = t.flags :=
  flags_of_listening (t.listening_syncTransmission env)

theorem flags_emitStops (users : List UserId) : (t.emitStops users).flags = t.flags :=
  congrArg (fun l => Flags.mk l.selfMuted l.selfDeafened) (t.listening_emitStops users)

theorem flags_insertUser (userId : UserId) : (t.insertUser env userId).flags = t.flags := by
  unfold insertUser
  split <;> rfl

theorem flags_foldl_insertUser (users : List UserId) :
    (users.foldl (fun t userId => t.insertUser env userId) t).flags = t.flags := by
  induction users generalizing t with
  | nil => rfl
  | cons u users ih => exact (ih _).trans (t.flags_insertUser env u)

theorem flags_connectionClosed : (t.connectionClosed env).flags = t.flags := by
  unfold connectionClosed
  exact (flags_emitStops ..).trans (flags_syncTransmission ..)

theorem flags_deafenPlayback (deafened : Bool) :
    (t.deafenPlayback env deafened).flags = t.flags := by
  unfold deafenPlayback
  split
  · exact flags_emitStops ..
  · split <;> rfl

theorem flags_setDeafened (deafened : Bool) :
    (t.setDeafened env deafened).flags = ⟨deafened || t.selfMuted, deafened⟩ := by
  unfold setDeafened
  dsimp only
  rw [flags_syncTransmission, flags_deafenPlayback]
  cases hmuted : t.selfMuted <;> cases deafened <;>
    simp [flags, emit, put]

theorem flags_userJoinedRoom (userId : UserId) :
    (t.userJoinedRoom env userId).flags = t.flags := by
  unfold userJoinedRoom
  dsimp only
  split
  · rfl
  · split
    · exact flags_insertUser ..
    · rfl

theorem flags_userLeftRoom (userId : UserId) : (t.userLeftRoom env userId).flags = t.flags := by
  unfold userLeftRoom
  dsimp only
  split
  · split <;> rfl
  · rfl

theorem flags_roomChanged (users : List UserId) : (t.roomChanged env users).flags = t.flags := by
  unfold roomChanged
  exact (flags_foldl_insertUser ..).trans (flags_emitStops ..)

theorem flags_setVolume (userId : UserId) (volumeDb : Int) :
    (t.setVolume userId volumeDb).flags = t.flags := by
  unfold setVolume
  split <;> rfl

/-- **The flags after a command.** -/
theorem flags_handle [BEq π] (command : AudioCommand π) :
    (t.handle env command).flags = t.flags.apply command := by
  have hleft {t' : AudioTask π} (h : t'.listening = t.listening) : t'.flags = t.flags :=
    flags_of_listening h
  cases command with
  | connectionEstablished d uid => exact hleft (t.listening_connectionEstablished env d uid)
  | connectionClosed => exact t.flags_connectionClosed env
  | setInputDevice deviceId => exact hleft (t.listening_setInputDevice env deviceId)
  | setOutputDevice deviceId => exact hleft (t.listening_setOutputDevice env deviceId)
  | startTransmit => exact flags_syncTransmission ..
  | stopTransmit => exact flags_syncTransmission ..
  | setVoiceMode mode => exact flags_syncTransmission ..
  | setMuted muted => exact flags_syncTransmission ..
  | setDeafened deafened => exact t.flags_setDeafened env deafened
  | setServerMuted muted => exact hleft (t.listening_setServerMuted env muted)
  | muteUser userId => rfl
  | unmuteUser userId => rfl
  | refreshDevices => rfl
  | updateSettings settings => exact hleft (t.listening_updateSettings env settings)
  | resetStats => rfl
  | updateTxPipeline config => exact hleft (t.listening_updateTxPipeline env config)
  | updateRxPipelineDefaults config => rfl
  | updateUserRxConfig userId config => exact flags_setVolume ..
  | clearUserRxOverride userId => exact flags_setVolume ..
  | setUserVolume userId volumeDb => exact flags_setVolume ..
  | userJoinedRoom userId => exact t.flags_userJoinedRoom env userId
  | userLeftRoom userId => exact t.flags_userLeftRoom env userId
  | roomChanged users => exact t.flags_roomChanged env users
  | peerLeft userId => rfl
  | playSfx => rfl
  | shutdown => rfl

theorem flags_recvDatagram (voice : VoiceDatagram) :
    (t.recvDatagram env voice).flags = t.flags := by
  have hvoice (senderId : UserId) :
      (t.handleVoiceDatagram env senderId voice).flags = t.flags := by
    unfold handleVoiceDatagram
    have hinsert : (if (t.userAudio.get senderId).isNone then t.insertUser env senderId
        else t).flags = t.flags := by
      split
      · exact t.flags_insertUser env senderId
      · rfl
    split
    · rfl
    · dsimp only
      split
      · exact hinsert
      · split <;> exact hinsert
  unfold recvDatagram
  split
  · split
    · exact hvoice _
    · rfl
  · rfl

/-- The turns that are no command. -/
def Turn.isCommand : Turn π → Bool
  | .command .. => true
  | _ => false

/-- No other turn changes the flags. -/
theorem flags_turn [BEq π] {i : Turn π} (h : i.isCommand = false) :
    (t.turn i).flags = t.flags := by
  let u : AudioTask π := { t with out := [] }
  have hturn {t' : AudioTask π} (h' : t'.flags = u.flags) :
      (if u.running then t' else u).flags = t.flags := by
    split
    · exact h'
    · rfl
  cases i with
  | command env command => exact nomatch h
  | encodedReady message sends =>
    exact hturn (flags_of_listening (u.listening_encodedReady message sends))
  | datagram env voice => exact hturn (u.flags_recvDatagram env voice)
  | cleanup env => exact hturn (u.flags_emitStops _)
  | deviceHealth env => exact hturn (flags_of_listening (u.listening_deviceHealth env))
  | captureFrame processed =>
    exact hturn (flags_of_listening (u.listening_captureFrame processed))

end AudioTask

/-! ## The server's record -/

/-- What `handle_set_user_status` writes: the server's own two flags stay. -/
def recordStatus (d : StateData) (userId : UserId) (f : Flags) : StateData :=
  d.setUserStatus userId
    { d.getUserStatus userId with isMuted := f.selfMuted, isDeafened := f.selfDeafened }

theorem data_handleSetUserStatus (sender : HandleId) (f : Flags) (w : World) :
    (w.handleSetUserStatus sender f.selfMuted f.selfDeafened).state.data =
      recordStatus w.state.data sender.user f := rfl

/-- The flags that the server holds for a user. -/
def held (d : StateData) (userId : UserId) : Flags :=
  ⟨(d.getUserStatus userId).isMuted, (d.getUserStatus userId).isDeafened⟩

theorem getUserStatus_setUserStatus (d : StateData) (u v : UserId) (status : UserStatus) :
    (d.setUserStatus u status).getUserStatus v = if v = u then status else d.getUserStatus v := by
  unfold StateData.setUserStatus StateData.getUserStatus
  rw [List.find?_append, find?_filter_ne Prod.fst]
  by_cases h : v = u
  · subst h
    simp
  · simp [h, Ne.symm h]

theorem getUserStatus_removeUserMembership (d : StateData) (u v : UserId) :
    (d.removeUserMembership u).getUserStatus v = if v = u then {} else d.getUserStatus v := by
  unfold StateData.removeUserMembership StateData.getUserStatus
  dsimp only
  rw [find?_filter_ne Prod.fst]
  split <;> rfl

theorem held_setUserStatus_ne {d : StateData} {u v : UserId} (status : UserStatus) (h : v ≠ u) :
    held (d.setUserStatus u status) v = held d v := by
  simp only [held, getUserStatus_setUserStatus, if_neg h]

theorem held_recordStatus (d : StateData) (u v : UserId) (f : Flags) :
    held (recordStatus d u f) v = if v = u then f else held d v := by
  unfold held recordStatus
  rw [getUserStatus_setUserStatus]
  split <;> rfl

theorem held_removeUserMembership (d : StateData) (u v : UserId) :
    held (d.removeUserMembership u) v = if v = u then .off else held d v := by
  unfold held
  rw [getUserStatus_removeUserMembership]
  split <;> rfl

/-! ## The two copies of a command -/

/-- The commands of which `route_command` sends two copies. -/
inductive MuteCommand where
  | setMuted (muted : Bool)
  | setDeafened (deafened : Bool)
  deriving DecidableEq

namespace MuteCommand

def toAudio : MuteCommand → AudioCommand π
  | .setMuted muted => .setMuted muted
  | .setDeafened deafened => .setDeafened deafened

/-- The status message, completed from the flags that the projection shows. -/
def statusMessage (shown : Flags) : MuteCommand → Flags
  | .setMuted muted => ⟨muted, shown.selfDeafened⟩
  | .setDeafened deafened => ⟨shown.selfMuted || deafened, deafened⟩

end MuteCommand

/-- Sent by `route_command` only. -/
def AudioCommand.isMute : AudioCommand π → Bool
  | .setMuted _ | .setDeafened _ => true
  | _ => false

theorem Flags.apply_of_not_isMute {command : AudioCommand π} (h : command.isMute = false)
    (f : Flags) : f.apply command = f := by
  cases command <;> first | rfl | exact nomatch h

/-- The messages of a session that the server has not handled. -/
def inboxOf (frames : Table UserId (List Flags)) (userId : UserId) : List Flags :=
  (frames.get userId).getD []

/-- What the server will hold after the messages of a session. -/
def outcomeOf (frames : Table UserId (List Flags)) (d : StateData) (userId : UserId) : Flags :=
  (inboxOf frames userId).foldl (fun _ f => f) (held d userId)

/-- The queues of both tasks, the calls of `route_command` that have sent the first copy only, the
projection's channel and what it shows, the connection by the session it belongs to, and the server.
A session has its own stream of status messages. -/
structure MuteSys (π : Type) where
  task : AudioTask π
  audio : List (AudioCommand π)
  routing : List MuteCommand
  commands : List MuteCommand
  voice : List (VoiceEvent π)
  shown : Flags
  transport : Option UserId
  frames : Table UserId (List Flags)
  sessions : List UserId
  nextUserId : UserId
  data : StateData

inductive MuteMove (π : Type) where
  /-- A call sends the audio task its copy, -/
  | route (command : MuteCommand)
  /-- and the connection task the other one; calls of several threads can overtake each other. -/
  | forward (i : Nat)
  /-- Any other command for the audio task. -/
  | enqueue (command : AudioCommand π)
  | audioRecv (env : AudioEnv)
  | turn (i : AudioTask.Turn π)
  | datagramsEnded
  | applyVoice
  /-- The connection task handles a command; the send can fail. -/
  | connectionRecv (sends : Bool)
  | connect
  | disconnect
  /-- The server handles the next status message of a session. -/
  | serve (userId : UserId)
  /-- The server ends a session. -/
  | cleanupClient (userId : UserId)
  /-- Another user's status is written. -/
  | setOther (userId : UserId) (status : UserStatus)
  | connectOther

namespace MuteSys

def start (env : AudioEnv) (settings : AudioSettings) (tx rx : π)
    (perUserRx : Table UserId (UserRxConfig π)) : MuteSys π where
  task := .start env settings tx rx perUserRx
  audio := []
  routing := []
  commands := []
  voice := []
  shown := .off
  transport := none
  frames := ∅
  sessions := []
  nextUserId := 1
  data := .new

section

variable (s : MuteSys π)

def inbox (userId : UserId) : List Flags := inboxOf s.frames userId

/-- The events of a turn join the channel. -/
def absorb (t : AudioTask π) : MuteSys π :=
  { s with task := t, voice := s.voice ++ t.out.filterMap Output.event }

/-- Without a connection nothing is sent; a send that fails ends the connection. -/
def sendStatus (sends : Bool) (command : MuteCommand) : MuteSys π :=
  match s.transport with
  | none => s
  | some userId =>
    if sends then
      let message := command.statusMessage s.shown
      { s with frames := s.frames.set userId (s.inbox userId ++ [message]) }
    else { s with transport := none, audio := s.audio ++ [.connectionClosed] }

end

def step [BEq π] (s : MuteSys π) : MuteMove π → MuteSys π
  | .route command =>
    { s with audio := s.audio ++ [command.toAudio], routing := s.routing ++ [command] }
  | .forward i =>
    match s.routing[i]? with
    | none => s
    | some command =>
      { s with routing := s.routing.eraseIdx i, commands := s.commands ++ [command] }
  | .enqueue command => if command.isMute then s else { s with audio := s.audio ++ [command] }
  | .audioRecv env =>
    match s.audio with
    | [] => s
    | command :: rest =>
      if s.task.running then
        { s with audio := rest }.absorb (s.task.turn (.command env command))
      else s
  | .turn i => if i.isCommand then s else s.absorb (s.task.turn i)
  | .datagramsEnded => { s with task := s.task.datagramsEnded }
  | .applyVoice =>
    match s.voice with
    | [] => s
    | event :: rest => { s with voice := rest, shown := s.shown.see event }
  | .connectionRecv sends =>
    match s.commands with
    | [] => s
    | command :: rest => { s with commands := rest }.sendStatus sends command
  | .connect =>
    { s with
      transport := some s.nextUserId
      sessions := s.nextUserId :: s.sessions
      nextUserId := s.nextUserId + 1
      audio := s.audio ++ [.connectionEstablished s.nextUserId s.nextUserId] }
  | .disconnect => { s with transport := none, audio := s.audio ++ [.connectionClosed] }
  | .serve userId =>
    if userId ∈ s.sessions then
      match s.inbox userId with
      | [] => s
      | message :: rest =>
        { s with
          frames := s.frames.set userId rest
          data := recordStatus s.data userId message }
    else s
  | .cleanupClient userId =>
    { s with
      sessions := s.sessions.filter (· ≠ userId)
      data := s.data.removeUserMembership userId }
  | .setOther userId status =>
    if s.transport = some userId ∨ s.nextUserId ≤ userId then s
    else { s with data := s.data.setUserStatus userId status }
  | .connectOther => { s with nextUserId := s.nextUserId + 1 }

/-! ## What is to hold -/

section

variable (s : MuteSys π)

/-- Everything that was sent has arrived. -/
def Drained (userId : UserId) : Prop :=
  s.routing = [] ∧ s.audio = [] ∧ s.commands = [] ∧ s.voice = [] ∧ s.inbox userId = []

instance (userId : UserId) [DecidableEq π] : Decidable (s.Drained userId) := by
  unfold Drained
  infer_instance

/-- **Mute status agreement.** -/
def Agrees : Prop :=
  ∀ userId, s.transport = some userId → userId ∈ s.sessions → s.Drained userId →
    held s.data userId = s.task.flags

/-- The flags that the audio task will have after its queue. -/
def due : Flags := s.audio.foldl Flags.apply s.task.flags

def outcome (userId : UserId) : Flags := outcomeOf s.frames s.data userId

/-- The last message under way is completed from flags as new as the audio task's queue, and no
command overtook another on one side only; a connection is made with both flags off, unless a
command is still to be handled. -/
def Settled (s : MuteSys π) : MuteMove π → Prop
  | .connectionRecv sends =>
    match s.commands with
    | [command] => s.routing = [] → sends = true → s.transport.isSome →
        command.statusMessage s.shown = s.due
    | _ => True
  | .connect => s.commands = [] → s.routing = [] → s.due = .off
  | _ => True

instance (m : MuteMove π) : Decidable (s.Settled m) := by
  unfold Settled
  split
  · split <;> infer_instance
  · infer_instance
  · infer_instance

end

/-! ## The invariant -/

theorem inboxOf_set (frames : Table UserId (List Flags)) (u v : UserId) (messages : List Flags) :
    inboxOf (frames.set u messages) v = if v = u then messages else inboxOf frames v := by
  unfold inboxOf
  rw [Table.get_set]
  split <;> rfl

/-- The last message counts. -/
theorem outcomeOf_concat (frames : Table UserId (List Flags)) (d : StateData) (u : UserId)
    (message : Flags) :
    outcomeOf (frames.set u (inboxOf frames u ++ [message])) d u = message := by
  rw [outcomeOf, inboxOf_set, if_pos rfl, List.foldl_append]
  rfl

/-- The server records the oldest message of a session. -/
theorem outcomeOf_serve {frames : Table UserId (List Flags)} {d : StateData} {u : UserId}
    {message : Flags} {rest : List Flags} (h : inboxOf frames u = message :: rest) (v : UserId) :
    outcomeOf (frames.set u rest) (recordStatus d u message) v = outcomeOf frames d v := by
  unfold outcomeOf
  rw [inboxOf_set, held_recordStatus]
  by_cases hv : v = u
  · rw [if_pos hv, if_pos hv, hv, h]
    rfl
  · rw [if_neg hv, if_neg hv]

variable {s : MuteSys π}

/-- Sessions to come have no status and no messages, and with no command under way the server ends
up with the flags that the audio task ends up with. -/
structure Sound (s : MuteSys π) : Prop where
  fresh : ∀ userId, s.nextUserId ≤ userId → s.inbox userId = [] ∧ held s.data userId = .off
  mine : ∀ userId, s.transport = some userId → userId < s.nextUserId
  agree : ∀ userId, s.transport = some userId → userId ∈ s.sessions → s.commands = [] →
    s.routing = [] → s.outcome userId = s.due

theorem Sound.agrees (h : s.Sound) : s.Agrees := by
  intro userId htransport hsession ⟨hrouting, haudio, hcommands, _, hinbox⟩
  have hout := h.agree userId htransport hsession hcommands hrouting
  rw [outcome, outcomeOf, show inboxOf s.frames userId = [] from hinbox, due, haudio] at hout
  exact hout

/-- A move that keeps the flags due, and changes nothing on the way to the server. -/
theorem Sound.of_due (h : s.Sound) {s' : MuteSys π} (hframes : s'.frames = s.frames)
    (hdata : s'.data = s.data) (hnext : s'.nextUserId = s.nextUserId)
    (htransport : s'.transport = s.transport) (hsessions : s'.sessions = s.sessions)
    (hcommands : s'.commands = [] → s'.routing = [] →
      s.commands = [] ∧ s.routing = [] ∧ s'.due = s.due) : s'.Sound := by
  constructor
  · intro userId hle
    rw [inbox, hframes, hdata]
    exact h.fresh userId (hnext ▸ hle)
  · intro userId hu
    exact (h.mine userId (htransport ▸ hu)).trans_eq hnext.symm
  · intro userId hu hsession hc hr
    obtain ⟨hc, hr, hdue⟩ := hcommands hc hr
    rw [outcome, hframes, hdata, hdue]
    exact h.agree userId (htransport ▸ hu) (hsessions ▸ hsession) hc hr

/-- Without a connection nothing is claimed. -/
theorem Sound.of_disconnected (h : s.Sound) {s' : MuteSys π} (hframes : s'.frames = s.frames)
    (hdata : s'.data = s.data) (hnext : s'.nextUserId = s.nextUserId)
    (htransport : s'.transport = none) : s'.Sound where
  fresh userId hle := by
    rw [inbox, hframes, hdata]
    exact h.fresh userId (hnext ▸ hle)
  mine userId hu := nomatch htransport.symm.trans hu
  agree userId hu := nomatch htransport.symm.trans hu

/-- A command that is no mute command leaves the flags due alone. -/
theorem due_enqueue (s : MuteSys π) {command : AudioCommand π} (h : command.isMute = false) :
    (s.audio ++ [command]).foldl Flags.apply s.task.flags = s.due := by
  rw [List.foldl_append]
  exact Flags.apply_of_not_isMute h _

/-- A turn of the audio task that is no command. -/
theorem Sound.absorb (h : s.Sound) {t : AudioTask π} (hflags : t.flags = s.task.flags) :
    (s.absorb t).Sound :=
  h.of_due rfl rfl rfl rfl rfl fun hc hr =>
    ⟨hc, hr, congrArg (fun f => s.audio.foldl Flags.apply f) hflags⟩

/-- The audio task handles its oldest command: the flags due are the same. -/
theorem Sound.step_audioRecv [BEq π] (h : s.Sound) (env : AudioEnv) :
    (s.step (.audioRecv env)).Sound := by
  dsimp only [MuteSys.step]
  split
  · exact h
  · rename_i command rest haudio
    split
    · rename_i hrun
      refine h.of_due rfl rfl rfl rfl rfl fun hc hr => ⟨hc, hr, ?_⟩
      let u : AudioTask π := { s.task with out := [] }
      have hturn : s.task.turn (.command env command) = u.handle env command := if_pos hrun
      have hflags : (s.task.turn (.command env command)).flags = s.task.flags.apply command := by
        rw [hturn]
        exact u.flags_handle env command
      unfold due
      rw [haudio, List.foldl_cons, ← hflags]
      rfl
    · exact h

/-- A status message joins its stream. -/
theorem Sound.step_connectionRecv [BEq π] (h : s.Sound) (sends : Bool)
    (hd : s.Settled (.connectionRecv sends)) : (s.step (.connectionRecv sends)).Sound := by
  dsimp only [MuteSys.step]
  split
  · exact h
  · rename_i command rest hcommands
    unfold sendStatus
    dsimp only
    split
    · rename_i hnone
      exact h.of_disconnected rfl rfl rfl hnone
    · rename_i me hme
      split
      · rename_i hsends
        have hinbox (v) := inboxOf_set s.frames me v
          (inboxOf s.frames me ++ [command.statusMessage s.shown])
        refine ⟨fun v hle => ?_, h.mine, fun v hu _ hc hr => ?_⟩
        · have hne : v ≠ me := fun heq => absurd (h.mine me hme) (heq ▸ hle).not_gt
          exact ⟨(hinbox v).trans ((if_neg hne).trans (h.fresh v hle).1), (h.fresh v hle).2⟩
        · obtain rfl : me = v := Option.some.inj (hme.symm.trans hu)
          have hlast : s.Settled (.connectionRecv sends) := hd
          rw [Settled, hcommands, show rest = [] from hc] at hlast
          have hlast := hlast hr hsends (Option.isSome_iff_exists.mpr ⟨me, hme⟩)
          exact (outcomeOf_concat ..).trans hlast
      · exact h.of_disconnected rfl rfl rfl rfl

/-- The server handles the oldest message of a session: what it ends up with is the same. -/
theorem Sound.step_serve [BEq π] (h : s.Sound) (userId : UserId) :
    (s.step (.serve userId)).Sound := by
  dsimp only [MuteSys.step]
  split
  · split
    · exact h
    · rename_i message rest hinbox
      refine ⟨fun v hle => ?_, h.mine, fun v hu hmem hc hr => ?_⟩
      · obtain ⟨hnil, hoff⟩ := h.fresh v hle
        have hne : v ≠ userId := by
          rintro rfl
          exact nomatch hnil.symm.trans hinbox
        exact ⟨(inboxOf_set ..).trans ((if_neg hne).trans hnil),
          (held_recordStatus ..).trans ((if_neg hne).trans hoff)⟩
      · exact (outcomeOf_serve hinbox v).trans (h.agree v hu hmem hc hr)
  · exact h

/-- The status of another user, or of a session that has ended. -/
theorem Sound.of_data (h : s.Sound) {d : StateData} {sessions : List UserId}
    (hsessions : ∀ v ∈ sessions, v ∈ s.sessions)
    (hfresh : ∀ v, s.nextUserId ≤ v → held d v = .off)
    (hheld : ∀ v, s.transport = some v → v ∈ sessions → held d v = held s.data v) :
    Sound { s with data := d, sessions := sessions } where
  fresh v hle := ⟨(h.fresh v hle).1, hfresh v hle⟩
  mine := h.mine
  agree v hu hmem hc hr := by
    refine Eq.trans ?_ (h.agree v hu (hsessions v hmem) hc hr)
    unfold outcome outcomeOf
    rw [hheld v hu hmem]

/-- A connection begins a session that the server knows nothing of. -/
theorem Sound.step_connect [BEq π] (h : s.Sound) (hd : s.Settled .connect) :
    (s.step .connect).Sound := by
  refine ⟨fun v hle => h.fresh v (Nat.le_of_succ_le hle), ?_, ?_⟩
  · rintro v hv
    obtain rfl : s.nextUserId = v := Option.some.inj hv
    exact Nat.lt_succ_self _
  · rintro v hv - hc hr
    obtain rfl : s.nextUserId = v := Option.some.inj hv
    obtain ⟨hnil, hoff⟩ := h.fresh s.nextUserId le_rfl
    have hdue : (s.step .connect).due = .off := (s.due_enqueue rfl).trans (hd hc hr)
    rw [hdue, outcome, outcomeOf, show inboxOf (s.step .connect).frames s.nextUserId = [] from hnil]
    exact hoff

/-- **One step.** Every settled move keeps the two sides together. -/
theorem Sound.step [BEq π] (h : s.Sound) (m : MuteMove π) (hd : s.Settled m) :
    (s.step m).Sound := by
  cases m with
  | route command =>
    refine h.of_due rfl rfl rfl rfl rfl fun _ hr => ?_
    exact absurd (List.append_eq_nil_iff.mp hr).2 (List.cons_ne_nil _ _)
  | forward i =>
    dsimp only [MuteSys.step]
    split
    · exact h
    · refine h.of_due rfl rfl rfl rfl rfl fun hc _ => ?_
      exact absurd (List.append_eq_nil_iff.mp hc).2 (List.cons_ne_nil _ _)
  | enqueue command =>
    dsimp only [MuteSys.step]
    split
    · exact h
    · rename_i hother
      exact h.of_due rfl rfl rfl rfl rfl fun hc hr =>
        ⟨hc, hr, s.due_enqueue (Bool.eq_false_iff.mpr hother)⟩
  | audioRecv env => exact h.step_audioRecv env
  | turn i =>
    dsimp only [MuteSys.step]
    split
    · exact h
    · exact h.absorb (s.task.flags_turn (Bool.eq_false_iff.mpr ‹_›))
  | datagramsEnded => exact h.of_due rfl rfl rfl rfl rfl fun hc hr => ⟨hc, hr, rfl⟩
  | applyVoice =>
    dsimp only [MuteSys.step]
    split
    · exact h
    · exact h.of_due rfl rfl rfl rfl rfl fun hc hr => ⟨hc, hr, rfl⟩
  | connectionRecv sends => exact h.step_connectionRecv sends hd
  | connect => exact h.step_connect hd
  | disconnect => exact h.of_disconnected rfl rfl rfl rfl
  | serve userId => exact h.step_serve userId
  | cleanupClient userId =>
    refine h.of_data (fun v hv => List.mem_of_mem_filter hv) (fun v hle => ?_) fun v _ hv => ?_
    · rw [held_removeUserMembership]
      split
      · rfl
      · exact (h.fresh v hle).2
    · have hne : v ≠ userId := of_decide_eq_true (List.mem_filter.mp hv).2
      rw [held_removeUserMembership, if_neg hne]
  | setOther userId status =>
    dsimp only [MuteSys.step]
    split
    · exact h
    · rename_i hother
      obtain ⟨hmine, hold⟩ := not_or.mp hother
      refine h.of_data (fun v hv => hv) (fun v hle => ?_) fun v hu _ => ?_
      · rw [held_setUserStatus_ne status fun heq : v = userId => hold (heq ▸ hle)]
        exact (h.fresh v hle).2
      · exact held_setUserStatus_ne status fun heq => hmine (heq ▸ hu)
  | connectOther =>
    exact ⟨fun v hle => h.fresh v (Nat.le_of_succ_le hle),
      fun v hu => Nat.lt_succ_of_lt (h.mine v hu), h.agree⟩

end MuteSys

/-! ## Runs -/

/-- **Mute status agreement.** In a run in which every connection is made with both flags off and
the last status message under way is completed from flags as new as the audio task's queue, server
and audio task agree whenever everything is delivered, in every state the run reaches. -/
theorem agrees_run [BEq π] (env : AudioEnv) (settings : AudioSettings) (tx rx : π)
    (perUserRx : Table UserId (UserRxConfig π)) (moves : List (MuteMove π))
    (h : Always MuteSys.step MuteSys.Settled (MuteSys.start env settings tx rx perUserRx) moves) :
    ∀ pre, pre <+: moves →
      (pre.foldl MuteSys.step (MuteSys.start env settings tx rx perUserRx)).Agrees := by
  intro pre hpre
  have hstart : (MuteSys.start env settings tx rx perUserRx).Sound :=
    { fresh := fun userId _ => by
        refine ⟨?_, rfl⟩
        show ((∅ : Table UserId (List Flags)).get userId).getD [] = []
        rw [Table.get_empty]
        rfl
      mine := fun userId hu => nomatch hu
      agree := fun userId hu => nomatch hu }
  exact (h.invariant_all (fun s m hd hs => hs.step m hd) hstart hpre).agrees

/-! ## A user mutes before and after connecting -/

section Sample

def sampleMuteStart : MuteSys Unit := .start .working .default () () ∅

/-- Both copies of a command arrive, and the projection is up to date afterwards. -/
def sampleMute (command : MuteCommand) : List (MuteMove Unit) :=
  [.route command, .forward 0, .connectionRecv true, .audioRecv .working, .applyVoice, .applyVoice]

def sampleMuteConnect : List (MuteMove Unit) := [.connect, .audioRecv .working]

theorem agrees_sample :
    let moves := sampleMuteConnect ++ sampleMute (.setDeafened true) ++ [.serve 1] ++
      sampleMute (.setMuted false) ++ [.serve 1]
    (moves.foldl MuteSys.step sampleMuteStart).Agrees ∧
      held (moves.foldl MuteSys.step sampleMuteStart).data 1 = ⟨false, true⟩ :=
  ⟨agrees_run .working .default () () ∅ (sampleMuteConnect ++ sampleMute (.setDeafened true) ++
    [.serve 1] ++ sampleMute (.setMuted false) ++ [.serve 1]) (by decide +kernel) _
    List.prefix_rfl, by decide +kernel⟩

/-- The user mutes while there is no connection: the server shows the user as live. -/
theorem not_agrees :
    ¬ ((sampleMute (.setMuted true) ++ sampleMuteConnect).foldl MuteSys.step
      sampleMuteStart).Agrees :=
  fun h => absurd (h 1 (by decide +kernel) (by decide +kernel) (by decide +kernel))
    (by decide +kernel)

end Sample

end Rumble.Client
