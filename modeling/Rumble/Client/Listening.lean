import Rumble.Client.AudioTask

/-!
# What the audio task hears

The half of the audio task that capture leaves alone: the decoders, the room's members, the user's
own mute and deafen, and the events about who talks. Every arm of the loop is read here for what it
does to this half.
-/

namespace Rumble.Client

open Rumble.Lib

variable {π : Type}

/-- A user begins or ends to talk. -/
inductive Talk where
  | started (userId : UserId)
  | stopped (userId : UserId)
  deriving DecidableEq

def VoiceEvent.talk : VoiceEvent π → Option Talk
  | .userStartedTalking userId => some (.started userId)
  | .userStoppedTalking userId => some (.stopped userId)
  | _ => none

def Output.event : Output π → Option (VoiceEvent π)
  | .emitted event => some event
  | _ => none

/-- What was put out about who talks. -/
def talksOf (out : List (Output π)) : List Talk :=
  (out.filterMap Output.event).filterMap VoiceEvent.talk

structure Listening where
  userAudio : Table UserId UserAudioState
  roomMembers : List UserId
  selfMuted : Bool
  selfDeafened : Bool
  talks : List Talk

theorem talksOf_append (os os' : List (Output π)) :
    talksOf (os ++ os') = talksOf os ++ talksOf os' := by
  simp only [talksOf, List.filterMap_append]

namespace AudioTask

variable (t : AudioTask π) (env : AudioEnv)

def listening : Listening where
  userAudio := t.userAudio
  roomMembers := t.roomMembers
  selfMuted := t.selfMuted
  selfDeafened := t.selfDeafened
  talks := talksOf t.out

/-! ## Capture leaves it alone -/

/-- What is put out that is no talk event. -/
theorem listening_put (o : Output π) (h : talksOf [o] = []) :
    (t.put o).listening = t.listening := by
  simp [listening, put, talksOf_append, h]

theorem listening_emit (event : VoiceEvent π) (h : event.talk = none) :
    (t.emit event).listening = t.listening :=
  t.listening_put _ (List.filterMap_cons_none h)

theorem listening_setCapture (active : Bool) : (t.setCapture active).listening = t.listening :=
  t.listening_put _ rfl

theorem listening_deactivateCapture : t.deactivateCapture.listening = t.listening := by
  unfold deactivateCapture
  split
  · simp [listening, emit, put, setCapture, setStreamActive, talksOf, Output.event, VoiceEvent.talk]
  · rfl

theorem listening_syncTransmission : (t.syncTransmission env).listening = t.listening := by
  unfold syncTransmission
  dsimp only
  cases hwant : captureTransition (shouldCapture t.voiceMode t.selfMuted t.serverMuted t.pttActive
      t.connection.isSome) t.captureIsActive <;> dsimp only
  · split
    · exact t.listening_setCapture true
    · rfl
  · exact t.listening_deactivateCapture

theorem listening_closeInput : t.closeInput.listening = t.listening := by
  unfold closeInput
  split
  · exact t.listening_deactivateCapture
  · rfl

theorem listening_inputUnavailable (e : String) : (t.inputUnavailable e).listening = t.listening :=
  (listening_emit _ _ rfl).trans (t.listening_setCapture false)

theorem listening_startTransmission : (t.startTransmission env).1.listening = t.listening := by
  unfold startTransmission
  split
  · rfl
  · split
    · rfl
    · split <;> rfl

theorem listening_openInput : (t.openInput env).listening = t.listening := by
  have hstart := t.listening_startTransmission env
  unfold openInput
  split
  · rename_i heq
    rw [heq] at hstart
    exact hstart
  · rename_i heq
    rw [heq] at hstart
    exact (listening_inputUnavailable ..).trans hstart

/-! ## The arms -/

theorem listening_ensurePlayback : (t.ensurePlayback env).listening = t.listening := by
  unfold ensurePlayback
  split <;> rfl

theorem listening_connectionEstablished (datagram : Nat) (uid : UserId) :
    (t.connectionEstablished env datagram uid).listening = t.listening := by
  unfold connectionEstablished
  dsimp only
  rw [listening_syncTransmission]
  split
  · rw [listening_openInput]
    exact listening_ensurePlayback ..
  · exact listening_ensurePlayback ..

theorem listening_setInputDevice (deviceId : Option String) :
    (t.setInputDevice env deviceId).listening = t.listening := by
  unfold setInputDevice
  split
  · rw [listening_syncTransmission]
    exact t.listening_emit _ rfl
  · dsimp only
    rw [listening_syncTransmission]
    let u : AudioTask π := { t with selectedInput := deviceId, inputRecovering := false }
    have hclose : u.closeInput.listening = t.listening := u.listening_closeInput
    have hstart := u.closeInput.listening_startTransmission env
    split
    · split
      · rename_i heq
        rw [heq] at hstart
        exact (listening_emit _ _ rfl).trans (hstart.trans hclose)
      · rename_i heq
        rw [heq] at hstart
        exact (listening_inputUnavailable ..).trans (hstart.trans hclose)
    · exact (listening_emit _ _ rfl).trans hclose

theorem listening_setOutputDevice (deviceId : Option String) :
    (t.setOutputDevice env deviceId).listening = t.listening := by
  unfold setOutputDevice
  dsimp only
  split
  · split <;> exact listening_emit _ _ rfl
  · exact listening_emit _ _ rfl

theorem listening_rebuildInput : (t.rebuildInput env).listening = t.listening := by
  unfold rebuildInput
  dsimp only
  rw [listening_syncTransmission]
  split
  · rw [listening_openInput, listening_closeInput]
  · exact t.listening_closeInput

theorem listening_setServerMuted (muted : Bool) :
    (t.setServerMuted env muted).listening = t.listening := by
  unfold setServerMuted
  split
  · rfl
  · rw [listening_syncTransmission]
    exact listening_emit _ _ rfl

theorem listening_updateSettings (settings : AudioSettings) :
    (t.updateSettings env settings).listening = t.listening := by
  unfold updateSettings
  split
  · rfl
  · rw [listening_rebuildInput]
    exact listening_emit _ _ rfl

theorem listening_updateTxPipeline [BEq π] (config : π) :
    (t.updateTxPipeline env config).listening = t.listening := by
  unfold updateTxPipeline
  split
  · rfl
  · rw [listening_rebuildInput]
    exact listening_emit _ _ rfl

/-! ## Stops and decoders -/

theorem listening_emitStops (users : List UserId) : (t.emitStops users).listening =
    { t.listening with talks := t.listening.talks ++ users.map .stopped } := by
  induction users generalizing t with
  | nil => simp [emitStops]
  | cons u users ih =>
    rw [emitStops, List.foldl_cons]
    refine (ih (t.emit (.userStoppedTalking u))).trans ?_
    simp [listening, emit, put, talksOf, Output.event, VoiceEvent.talk]

/-- A user with a decoder. -/
def Decodes (t : AudioTask π) (u : UserId) : Prop := (t.userAudio.get u).isSome

instance (u : UserId) : Decidable (t.Decodes u) := by
  unfold Decodes
  infer_instance

/-- The stops a turn puts out, and the decoders it keeps. -/
structure Hears (stops : List UserId) (drops : UserId → Prop) (t t' : AudioTask π) : Prop where
  talks : talksOf t'.out = talksOf t.out ++ stops.map .stopped
  kept : ∀ u, t.Decodes u → ¬ drops u → t'.Decodes u

/-- What leaves the listening half alone. -/
theorem Hears.of_eq {t t' : AudioTask π} (h : t'.listening = t.listening) (drops : UserId → Prop) :
    Hears [] drops t t' where
  talks := (congrArg Listening.talks h).trans (List.append_nil _).symm
  kept := fun u hu _ => by
    rw [Decodes, show t'.userAudio = t.userAudio from congrArg Listening.userAudio h]
    exact hu

theorem Hears.of_listening {u t t' : AudioTask π} {stops : List UserId} {drops : UserId → Prop}
    (h : Hears stops drops t u) (heq : t'.listening = u.listening) : Hears stops drops t t' where
  talks := (congrArg Listening.talks heq).trans h.talks
  kept := fun v hv hd => by
    rw [Decodes, show t'.userAudio = u.userAudio from congrArg Listening.userAudio heq]
    exact h.kept v hv hd

/-- Every decoder goes, with a stop for each user of a list. -/
theorem Hears.clear {t t' : AudioTask π} {stops : List UserId}
    (h : talksOf t'.out = talksOf t.out ++ stops.map .stopped) : Hears stops (fun _ => True) t t' :=
  ⟨h, fun _ _ hd => absurd trivial hd⟩

theorem talks_emitStops (users : List UserId) :
    talksOf (t.emitStops users).out = talksOf t.out ++ users.map .stopped :=
  congrArg Listening.talks (t.listening_emitStops users)

/-- A new decoder takes none away. -/
theorem hears_insertUser (userId : UserId) (drops : UserId → Prop) :
    Hears [] drops t (t.insertUser env userId) := by
  unfold insertUser
  split
  · refine ⟨(List.append_nil _).symm, fun u hu _ => ?_⟩
    simp only [Decodes, Table.get_set]
    split
    · rfl
    · exact hu
  · exact .of_eq rfl drops

theorem talks_foldl_insertUser (users : List UserId) :
    talksOf (users.foldl (fun t userId => t.insertUser env userId) t).out = talksOf t.out := by
  induction users generalizing t with
  | nil => rfl
  | cons u users ih =>
    refine (ih _).trans ?_
    exact ((t.hears_insertUser env u fun _ => False).talks).trans (List.append_nil _)

theorem hears_connectionClosed :
    Hears env.talkingUsers (fun _ => True) t (t.connectionClosed env) := by
  refine .clear ?_
  unfold connectionClosed
  refine (talks_emitStops ..).trans (congrArg (· ++ _) ?_)
  exact congrArg Listening.talks (listening_syncTransmission ..)

theorem hears_deafenPlayback (deafened : Bool) :
    Hears (if deafened then env.talkingUsers else []) (fun _ => deafened = true) t
      (t.deafenPlayback env deafened) := by
  unfold deafenPlayback
  split
  · rename_i hdeaf
    exact ⟨talks_emitStops .., fun _ _ hd => absurd hdeaf hd⟩
  · split
    · exact .of_eq (show (t.openPlayback env).listening = t.listening from rfl) _
    · exact .of_eq rfl _

theorem hears_setDeafened (deafened : Bool) :
    Hears (if deafened then env.talkingUsers else []) (fun _ => deafened = true) t
      (t.setDeafened env deafened) := by
  let u : AudioTask π := { t with
    selfDeafened := deafened
    selfMuted := if deafened && !t.selfMuted then true else t.selfMuted }
  let v := (u.emit (.selfDeafenedChanged deafened)).emit (.selfMutedChanged u.selfMuted)
  have hv : v.listening = u.listening := (listening_emit _ _ rfl).trans (u.listening_emit _ rfl)
  have htalks : talksOf v.out = talksOf t.out := congrArg Listening.talks hv
  have hplayback := v.hears_deafenPlayback env deafened
  refine .of_listening (u := v.deafenPlayback env deafened) ?_ (listening_syncTransmission ..)
  exact ⟨hplayback.talks.trans (congrArg (· ++ _) htalks), hplayback.kept⟩

theorem hears_userJoinedRoom (userId : UserId) (drops : UserId → Prop) :
    Hears [] drops t (t.userJoinedRoom env userId) := by
  unfold userJoinedRoom
  split
  · exact .of_eq rfl drops
  · dsimp only
    split
    · have hins := hears_insertUser { t with roomMembers := t.roomMembers.insert userId } env userId
        drops
      exact ⟨hins.talks, hins.kept⟩
    · exact ⟨(List.append_nil _).symm, fun _ hu _ => hu⟩

/-- A decoder goes. -/
theorem decodes_del {u v : UserId} (hu : t.Decodes u) (h : u ≠ v) :
    ((t.userAudio.del v).get u).isSome := by
  rw [Table.get_del_ne h]
  exact hu

theorem hears_userLeftRoom (userId : UserId) :
    Hears (if t.Decodes userId ∧ userId ∈ env.talkingUsers then [userId] else [])
      (fun u => u = userId) t (t.userLeftRoom env userId) := by
  unfold userLeftRoom
  dsimp only
  by_cases hdec : t.Decodes userId
  · rw [if_pos (show (t.userAudio.get userId).isSome = true from hdec)]
    by_cases htalk : userId ∈ env.talkingUsers
    · rw [if_pos ⟨hdec, htalk⟩, if_pos htalk]
      refine ⟨?_, fun u hu hne => t.decodes_del hu hne⟩
      simp [emit, put, talksOf, Output.event, VoiceEvent.talk]
    · rw [if_neg (fun h => htalk h.2), if_neg htalk]
      exact ⟨(List.append_nil _).symm, fun u hu hne => t.decodes_del hu hne⟩
  · rw [if_neg (show ¬ (t.userAudio.get userId).isSome = true from hdec),
      if_neg (fun h => hdec h.1)]
    exact ⟨(List.append_nil _).symm, fun _ hu _ => hu⟩

theorem hears_roomChanged (users : List UserId) :
    Hears env.talkingUsers (fun _ => True) t (t.roomChanged env users) := by
  refine .clear ?_
  unfold roomChanged
  dsimp only
  rw [talks_foldl_insertUser]
  exact talks_emitStops ..

/-- The volume is set on a decoder that stays. -/
theorem hears_setVolume (userId : UserId) (volumeDb : Int) (drops : UserId → Prop) :
    Hears [] drops t (t.setVolume userId volumeDb) := by
  unfold setVolume
  split
  · refine ⟨(List.append_nil _).symm, fun u hu _ => ?_⟩
    simp only [Decodes, Table.get_set]
    split
    · rfl
    · exact hu
  · exact .of_eq rfl drops

theorem hears_setUserRx (userId : UserId) (config : UserRxConfig π) (drops : UserId → Prop) :
    Hears [] drops t (t.setUserRx userId config) := by
  let u := { t with perUserRx := t.perUserRx.set userId config }.emit
    (.userRxConfigChanged userId config)
  have hu : u.listening = t.listening := listening_emit _ _ rfl
  have hvol := u.hears_setVolume userId config.volumeDb drops
  exact ⟨hvol.talks.trans (congrArg (· ++ _) (congrArg Listening.talks hu)), hvol.kept⟩

theorem hears_clearUserRxOverride (userId : UserId) (drops : UserId → Prop) :
    Hears [] drops t (({ t with perUserRx := t.perUserRx.del userId }.emit
      (.userRxOverrideCleared userId)).setVolume userId 0) := by
  let u := { t with perUserRx := t.perUserRx.del userId }.emit (.userRxOverrideCleared userId)
  have hu : u.listening = t.listening := listening_emit _ _ rfl
  have hvol := u.hears_setVolume userId 0 drops
  exact ⟨hvol.talks.trans (congrArg (· ++ _) (congrArg Listening.talks hu)), hvol.kept⟩

end AudioTask

/-! ## Commands -/

namespace AudioCommand

/-- The decoders that a command drops; a change of rooms makes new ones. -/
def drops : AudioCommand π → UserId → Bool
  | .connectionClosed, _ => true
  | .setDeafened deafened, _ => deafened
  | .roomChanged _, _ => true
  | .userLeftRoom userId, u => u == userId
  | .peerLeft userId, u => u == userId
  | _, _ => false

/-- A peer's decoder is dropped without a stop. -/
def silent : AudioCommand π → Bool
  | .peerLeft _ => true
  | _ => false

end AudioCommand

namespace AudioTask

variable (t : AudioTask π) (env : AudioEnv)

/-- **What a command does to the decoders.** Each user it drops who is in the projection's talking
set gets a stop, unless the command is silent; the other decoders stay. -/
theorem hears_handle [BEq π] (command : AudioCommand π) :
    ∃ stops, Hears stops (fun u => command.drops u = true) t (t.handle env command) ∧
      ∀ u, command.drops u = true → command.silent = false → t.Decodes u →
        u ∈ env.talkingUsers → u ∈ stops := by
  have hquiet {t' : AudioTask π} (h : ∀ drops : UserId → Prop, Hears [] drops t t')
      (hdrops : ∀ u, command.drops u = false) :
      ∃ stops, Hears stops (fun u => command.drops u = true) t t' ∧
        ∀ u, command.drops u = true → command.silent = false → t.Decodes u →
          u ∈ env.talkingUsers → u ∈ stops :=
    ⟨[], h _, fun u hu => absurd (hu.symm.trans (hdrops u)) (Bool.false_ne_true ∘ Eq.symm)⟩
  have hleft {t' : AudioTask π} (h : t'.listening = t.listening)
      (hdrops : ∀ u, command.drops u = false) :
      ∃ stops, Hears stops (fun u => command.drops u = true) t t' ∧
        ∀ u, command.drops u = true → command.silent = false → t.Decodes u →
          u ∈ env.talkingUsers → u ∈ stops := hquiet (fun drops => .of_eq h drops) hdrops
  cases command with
  | connectionEstablished d uid =>
    exact hleft (t.listening_connectionEstablished env d uid) fun _ => rfl
  | connectionClosed =>
    have hears := t.hears_connectionClosed env
    exact ⟨_, ⟨hears.talks, fun _ _ hd => absurd rfl hd⟩, fun _ _ _ _ htalk => htalk⟩
  | setInputDevice deviceId => exact hleft (t.listening_setInputDevice env deviceId) fun _ => rfl
  | setOutputDevice deviceId => exact hleft (t.listening_setOutputDevice env deviceId) fun _ => rfl
  | startTransmit => exact hleft (listening_syncTransmission ..) fun _ => rfl
  | stopTransmit => exact hleft (listening_syncTransmission ..) fun _ => rfl
  | setVoiceMode mode =>
    exact hleft ((listening_syncTransmission ..).trans (listening_emit _ _ rfl)) fun _ => rfl
  | setMuted muted =>
    refine hquiet (fun drops => ?_) fun _ => rfl
    have hsync := listening_syncTransmission
      ({ t with selfMuted := muted }.emit (.selfMutedChanged muted)) env
    have hemit := listening_emit { t with selfMuted := muted } (.selfMutedChanged muted) rfl
    exact .of_listening (u := { t with selfMuted := muted })
      ⟨(List.append_nil _).symm, fun _ hu _ => hu⟩ (hsync.trans hemit)
  | setDeafened deafened =>
    have hears := t.hears_setDeafened env deafened
    refine ⟨_, ⟨hears.talks, hears.kept⟩, fun u hu _ _ htalk => ?_⟩
    rw [if_pos (show deafened = true from hu)]
    exact htalk
  | setServerMuted muted => exact hleft (t.listening_setServerMuted env muted) fun _ => rfl
  | muteUser userId => exact hleft (listening_emit _ _ rfl) fun _ => rfl
  | unmuteUser userId => exact hleft (listening_emit _ _ rfl) fun _ => rfl
  | refreshDevices => exact hleft (listening_emit _ _ rfl) fun _ => rfl
  | updateSettings settings => exact hleft (t.listening_updateSettings env settings) fun _ => rfl
  | resetStats => exact hleft rfl fun _ => rfl
  | updateTxPipeline config => exact hleft (t.listening_updateTxPipeline env config) fun _ => rfl
  | updateRxPipelineDefaults config => exact hleft (listening_emit _ _ rfl) fun _ => rfl
  | updateUserRxConfig userId config =>
    exact hquiet (fun drops => t.hears_setUserRx userId config drops) fun _ => rfl
  | clearUserRxOverride userId =>
    exact hquiet (fun drops => t.hears_clearUserRxOverride userId drops) fun _ => rfl
  | setUserVolume userId volumeDb =>
    exact hquiet (fun drops => t.hears_setUserRx userId _ drops) fun _ => rfl
  | userJoinedRoom userId =>
    exact hquiet (fun drops => t.hears_userJoinedRoom env userId drops) fun _ => rfl
  | userLeftRoom userId =>
    have hears := t.hears_userLeftRoom env userId
    refine ⟨_, ⟨hears.talks, fun u hu hd => hears.kept u hu ?_⟩, fun u hu _ hdec htalk => ?_⟩
    · exact fun heq => hd (beq_iff_eq.mpr heq)
    · obtain rfl : u = userId := beq_iff_eq.mp hu
      rw [if_pos ⟨hdec, htalk⟩]
      exact List.mem_singleton_self u
  | roomChanged users =>
    have hears := t.hears_roomChanged env users
    exact ⟨_, ⟨hears.talks, fun _ _ hd => absurd rfl hd⟩, fun _ _ _ _ htalk => htalk⟩
  | peerLeft userId =>
    refine ⟨[], ⟨(List.append_nil _).symm, fun u hu hd => ?_⟩, fun _ _ hsilent => nomatch hsilent⟩
    exact t.decodes_del hu fun heq => hd (beq_iff_eq.mpr heq)
  | playSfx => exact hleft rfl fun _ => rfl
  | shutdown => exact hleft rfl fun _ => rfl

/-! ## The other arms -/

theorem hears_handleVoiceDatagram (senderId : UserId) (voice : VoiceDatagram) :
    ∃ starts : List UserId,
      talksOf (t.handleVoiceDatagram env senderId voice).out =
        talksOf t.out ++ starts.map .started ∧
      (∀ u, t.Decodes u → (t.handleVoiceDatagram env senderId voice).Decodes u) ∧
      ∀ u ∈ starts, (t.handleVoiceDatagram env senderId voice).Decodes u := by
  have hsame : ∃ starts : List UserId, talksOf t.out = talksOf t.out ++ starts.map .started ∧
      (∀ u, t.Decodes u → t.Decodes u) ∧ ∀ u ∈ starts, t.Decodes u :=
    ⟨[], (List.append_nil _).symm, fun _ h => h, fun _ h => nomatch h⟩
  unfold handleVoiceDatagram
  split
  · exact hsame
  · let v := if (t.userAudio.get senderId).isNone then t.insertUser env senderId else t
    have hv : Hears [] (fun _ => False) t v := by
      unfold v
      split
      · exact t.hears_insertUser env senderId _
      · exact .of_eq rfl _
    have htalks : talksOf v.out = talksOf t.out := hv.talks.trans (List.append_nil _)
    dsimp only
    split
    · exact ⟨[], hv.talks, fun u hu => hv.kept u hu id, fun _ h => nomatch h⟩
    · rename_i userState hstate
      have hset (st : UserAudioState) (u : UserId) (hu : v.Decodes u ∨ u = senderId) :
          ((v.userAudio.set senderId st).get u).isSome := by
        rw [Table.get_set]
        split
        · rfl
        · exact hu.resolve_right ‹_›
      split
      · exact ⟨[], hv.talks, fun u hu => hset _ u (.inl (hv.kept u hu id)), fun _ h => nomatch h⟩
      · refine ⟨[senderId], ?_, fun u hu => hset _ u (.inl (hv.kept u hu id)), fun u hu => ?_⟩
        · rw [← htalks]
          simp [emit, put, talksOf, Output.event, VoiceEvent.talk, v]
        · exact hset _ u (.inr (List.mem_singleton.mp hu))

theorem hears_recvDatagram (voice : VoiceDatagram) :
    ∃ starts : List UserId,
      talksOf (t.recvDatagram env voice).out = talksOf t.out ++ starts.map .started ∧
      (∀ u, t.Decodes u → (t.recvDatagram env voice).Decodes u) ∧
      ∀ u ∈ starts, (t.recvDatagram env voice).Decodes u := by
  have hsame : ∃ starts : List UserId, talksOf t.out = talksOf t.out ++ starts.map .started ∧
      (∀ u, t.Decodes u → t.Decodes u) ∧ ∀ u ∈ starts, t.Decodes u :=
    ⟨[], (List.append_nil _).symm, fun _ h => h, fun _ h => nomatch h⟩
  unfold recvDatagram
  split
  · split
    · exact t.hears_handleVoiceDatagram env _ voice
    · exact hsame
  · exact hsame

/-- The users that the cleanup drops. -/
def orphan (u : UserId) : Bool :=
  decide (u ∉ t.roomMembers) &&
    (t.userAudio.get u).any fun st => orphanDecoderTtl < env.now - st.lastArrival

/-- An orphan has been quiet long enough to be stopped first. -/
theorem hears_cleanup :
    ∃ stops, Hears stops (fun u => t.orphan env u = true) t (t.cleanup env) ∧
      ∀ u, t.orphan env u = true → u ∈ env.talkingUsers → u ∈ stops := by
  have hlisten := t.listening_emitStops (((t.userAudio.toPairs.filter fun e =>
    staleThreshold < env.now - e.2.lastArrival).map Prod.fst).filter (· ∈ env.talkingUsers))
  refine ⟨_, ⟨congrArg Listening.talks hlisten, fun u hu hd => ?_⟩, fun u hu htalk => ?_⟩
  · have haudio : (t.cleanupStaleUsers env).userAudio = t.userAudio :=
      congrArg Listening.userAudio hlisten
    have hmembers : (t.cleanupStaleUsers env).roomMembers = t.roomMembers :=
      congrArg Listening.roomMembers hlisten
    rw [Decodes, cleanup, gcOrphanedUsers, Table.get_foldl_del, if_neg, haudio]
    · exact hu
    · intro hmem
      obtain ⟨⟨v, st⟩, hv, rfl⟩ := List.mem_map.mp hmem
      obtain ⟨hpair, hcond⟩ := List.mem_filter.mp hv
      rw [haudio] at hpair
      rw [hmembers] at hcond
      refine hd ?_
      simp only [orphan, Table.mem_toPairs.mp hpair]
      simpa using hcond
  · simp only [orphan, Bool.and_eq_true] at hu
    obtain ⟨st, hst, hidle⟩ := Option.any_eq_true _ _ |>.mp hu.2
    refine List.mem_filter.mpr ⟨List.mem_map.mpr ⟨(u, st), ?_, rfl⟩, decide_eq_true htalk⟩
    refine List.mem_filter.mpr ⟨Table.mem_toPairs.mpr hst, ?_⟩
    have hidle : orphanDecoderTtl < env.now - st.lastArrival := of_decide_eq_true hidle
    have hstale : staleThreshold < orphanDecoderTtl := by decide
    exact decide_eq_true (hstale.trans hidle)

theorem listening_inputHealth : (t.inputHealth env).listening = t.listening := by
  unfold inputHealth
  split
  · dsimp only
    let u : AudioTask π := { t.closeInput with inputRecovering := true }
    have hclose : u.listening = t.listening := t.listening_closeInput
    have hstart := u.listening_startTransmission env
    split
    · split
      · rename_i heq
        rw [show u.startTransmission env = _ from heq] at hstart
        rw [listening_syncTransmission]
        exact (listening_emit _ _ rfl).trans (hstart.trans hclose)
      · rename_i heq
        rw [show u.startTransmission env = _ from heq] at hstart
        exact (listening_emit _ _ rfl).trans (hstart.trans hclose)
    · exact (listening_emit _ _ rfl).trans hclose
  · rfl

theorem listening_outputHealth : (t.outputHealth env).listening = t.listening := by
  unfold outputHealth
  dsimp only
  split
  · split
    · split <;> exact listening_emit _ _ rfl
    · exact listening_emit _ _ rfl
  · rfl

theorem listening_deviceHealth : (t.deviceHealth env).listening = t.listening :=
  (listening_outputHealth ..).trans (t.listening_inputHealth env)

theorem listening_encodedReady (message : CaptureMessage) (sends : Bool) :
    (t.encodedReady message sends).listening = t.listening := by
  unfold encodedReady
  split
  · rfl
  · cases message <;> cases sends
    · rfl
    · exact listening_put _ _ rfl
    · rfl
    · exact listening_put _ _ rfl

theorem listening_captureFrame (processed : Processed) :
    (t.captureFrame processed).listening = t.listening := by
  have hnote (u : AudioTask π) (b : Bool) : (u.noteTransmitting b).listening = u.listening := by
    unfold noteTransmitting
    split
    · exact u.listening_emit _ rfl
    · rfl
  have hqueue (u : AudioTask π) (encode : CapturedFrame → Option (List UInt8))
      (frames : List CapturedFrame) :
      (frames.foldl (queueEncoded encode) u).listening = u.listening := by
    induction frames generalizing u with
    | nil => rfl
    | cons frame frames ih =>
      refine (ih _).trans ?_
      unfold queueEncoded
      split
      · exact u.listening_put _ rfl
      · rfl
  unfold captureFrame
  split
  · rfl
  · split
    · dsimp only
      split
      · rfl
      · split
        · unfold suppressFrame
          dsimp only
          split
          · exact (listening_put _ _ rfl).trans (hnote ..)
          · exact hnote ..
        · unfold transmit
          dsimp only
          split
          · exact (hqueue ..).trans (hnote ..)
          · exact hnote ..
    · rfl

end AudioTask

end Rumble.Client
