import Rumble.Server.Alike
import Rumble.Server.Step

/-!
# Runs under other names

Every handler takes alike worlds to alike worlds, and a registration does so under two names. Two
runs whose registrations differ in the names alone end in alike worlds (`alike_run`).
-/

namespace Rumble.Server

open Rumble.Lib

namespace World

namespace Alike

variable {w w' : World}

/-! ## Handshake -/

section Handshake

variable (h : Alike w w') (cfg : Config) (env : Env) (t : HandleId)
include h

theorem sendAuthFailed (error : String) :
    Alike (w.sendAuthFailed t error) (w'.sendAuthFailed t error) :=
  h.sent.setConn _ _

theorem handleClientHello (name : String) (publicKey : List UInt8) (password : Option String) :
    Alike (World.handleClientHello cfg env t name publicKey password w)
      (World.handleClientHello cfg env t name publicKey password w') := by
  unfold World.handleClientHello
  rw [h.store]
  split
  · exact h.sendAuthFailed t _
  split
  · exact h.sendAuthFailed t _
  · rename_i key _ _ _
    have hissued : Alike (w.issueNonce env t name key) (w'.issueNonce env t name key) :=
      h.mapState (f := (·.setPendingAuth ⟨env.nonce, t.user, key, name⟩)) fun _ => rfl
    exact (hissued.setConn _ _).sent

theorem markAuthenticated (pending : PendingAuth) :
    Alike (w.markAuthenticated env t pending) (w'.markAuthenticated env t pending) := by
  have hknown := (h.setConn t.user fun c => { c with authenticated := true }).mapStore
    (·.addKnownKey pending.publicKey)
  unfold World.markAuthenticated
  dsimp only
  rw [hknown.store]
  exact (hknown.mapStore _).setIdentity _ _

theorem enterServer (key : PublicKey) :
    Alike (w.enterServer cfg t key) (w'.enterServer cfg t key) := by
  have hroom : w'.initialRoom key = w.initialRoom key := by
    unfold initialRoom
    rw [h.store, h.data]
  have hplaced := h.mapData (·.setUserRoom t.user (w.initialRoom key))
  unfold World.enterServer
  dsimp only
  rw [hroom]
  split
  · exact Alike.sent (Alike.sent hplaced.sent)
  · exact Alike.sent hplaced.sent

theorem publishAuth (pending : PendingAuth) (session : SessionEntry) :
    Alike (w.publishAuth cfg env t pending session) (w'.publishAuth cfg env t pending session) := by
  have hmarked := h.markAuthenticated env t pending
  unfold World.publishAuth displayNameOf
  dsimp only
  rw [hmarked.conn]
  have hsession := (hmarked.evictSupersededSessions pending.publicKey
    ((w.markAuthenticated env t pending).state.conn t.user).identity.displayName t.user).mapState
      (f := (·.addSession t.user session)) fun _ => rfl
  exact hsession.enterServer cfg t pending.publicKey

theorem handleAuthenticate (signature : List UInt8) (timestampMs : Int)
    (cert : Option SessionCertificate) :
    Alike (World.handleAuthenticate cfg env t signature timestampMs cert w)
      (World.handleAuthenticate cfg env t signature timestampMs cert w') := by
  unfold World.handleAuthenticate ServerState.takePendingAuth
  rw [h.pendingAuth]
  cases w.state.pendingAuth.get t.user with
  | none => exact h.sendAuthFailed t _
  | some pending =>
    have htaken : Alike
        (w.mapState fun _ => { w.state with pendingAuth := w.state.pendingAuth.del t.user })
        (w'.mapState fun _ => { w'.state with pendingAuth := w.state.pendingAuth.del t.user }) := by
      refine h.setState ?_
      exact congrArg (fun s : ServerState =>
        { s with pendingAuth := w.state.pendingAuth.del t.user }) h.state
    have hchecked := htaken.mapStore fun _ => (banCheck w.store pending.publicKey env.nowSecs).2
    dsimp only at htaken ⊢
    rw [htaken.store]
    split
    · exact htaken.sendAuthFailed t _
    split
    · exact hchecked.sendAuthFailed t _
    split
    · exact hchecked.sendAuthFailed t _
    · exact hchecked.publishAuth cfg env t pending _

end Handshake

/-! ## Handlers -/

theorem sentAll (cs : List UserId) (frame : Frame) (w : World) :
    Alike w (cs.foldl (fun w c => w.sendFrame (primary c) frame) w) := by
  induction cs generalizing w with
  | nil => exact .refl w
  | cons c cs ih =>
    have hsent : Alike w (w.sendFrame (primary c) frame) := ⟨rfl, rfl⟩
    exact hsent.trans (ih _)

theorem broadcastChatInRoom (w : World) (author : UserId) (room : Uuid) (text : String)
    (tree : Bool) (id : List UInt8) (timestampMs : Int) (attachment : Option ChatAttachment) :
    Alike w (w.broadcastChatInRoom author room text tree id timestampMs attachment).2 := by
  unfold World.broadcastChatInRoom
  split
  · exact .refl w
  dsimp only
  split
  · split
    · exact ⟨rfl, rfl⟩
    · exact .refl w
  · exact sentAll _ _ w

theorem handleDirectMessage (env : Env) (t : HandleId) (target : UserId) (text : String)
    (id : List UInt8) (timestampMs : Int) (w : World) :
    Alike w (World.handleDirectMessage env t target text id timestampMs w) := by
  unfold World.handleDirectMessage
  split
  · exact ⟨rfl, rfl⟩
  split
  · exact ⟨rfl, rfl⟩
  · exact ⟨rfl, rfl⟩

section Handlers

variable (h : Alike w w') (cfg : Config) (env : Env) (t : HandleId)
include h

/-- Two worlds that each only sent something. -/
theorem silent {a a' : World} (hw : Alike w a) (hw' : Alike w' a') : Alike a a' :=
  hw.symm.trans (h.trans hw')

theorem refreshJoinMute (room : Uuid) :
    Alike (w.refreshJoinMute t room) (w'.refreshJoinMute t room) := by
  unfold World.refreshJoinMute
  dsimp only
  rw [h.permissions, h.handle]
  exact (h.setHandle _ _).sentIf _ _

theorem saveLastRoom (u : UserId) (room : Uuid) :
    Alike (w.saveLastRoom u room) (w'.saveLastRoom u room) := by
  unfold World.saveLastRoom
  rw [h.getUserPublicKey, h.store]
  split
  · split
    · exact h.mapStore _
    · exact h
  · exact h

theorem handleJoinRoom (roomId : Option RoomId) :
    Alike (World.handleJoinRoom t roomId w) (World.handleJoinRoom t roomId w') := by
  unfold World.handleJoinRoom
  dsimp only
  refine h.requirePermission ?_ _ _ _
  rw [h.data]
  split
  · exact h.sent
  · exact Alike.sent (((h.mapData _).refreshJoinMute t _).saveLastRoom _ _).sent

theorem handleCreateRoom (name : String) (parentId : Option RoomId)
    (description : Option String) : Alike (World.handleCreateRoom env t name parentId description w)
      (World.handleCreateRoom env t name parentId description w') := by
  unfold World.handleCreateRoom
  dsimp only
  refine h.requirePermission ?_ _ _ _
  have hcreated := h.applyCreateRoom env name (parentId.bind uuidFromRoomId) description
  generalize w.applyCreateRoom env name (parentId.bind uuidFromRoomId) description = r at hcreated
  generalize w'.applyCreateRoom env name (parentId.bind uuidFromRoomId) description = r' at hcreated
  obtain ⟨_ | _, a⟩ := r <;> obtain ⟨_ | _, a'⟩ := r' <;> exact hcreated.sent

theorem handleDeleteRoom (roomId : Option RoomId) :
    Alike (World.handleDeleteRoom t roomId w) (World.handleDeleteRoom t roomId w') := by
  unfold World.handleDeleteRoom
  dsimp only
  refine h.requirePermission ?_ _ _ _
  have hdeleted := h.applyDeleteRoom (roomIdOrRoot roomId)
  generalize w.applyDeleteRoom (roomIdOrRoot roomId) = r at hdeleted
  generalize w'.applyDeleteRoom (roomIdOrRoot roomId) = r' at hdeleted
  obtain ⟨_ | _, a⟩ := r <;> obtain ⟨_ | _, a'⟩ := r' <;> exact hdeleted.sent

theorem handleRenameRoom (roomId : Option RoomId) (name : String) :
    Alike (World.handleRenameRoom t roomId name w) (World.handleRenameRoom t roomId name w') := by
  unfold World.handleRenameRoom
  dsimp only
  refine h.requirePermission ?_ _ _ _
  rw [h.data]
  split
  · exact h.sent
  · exact Alike.sent ((h.mapData _).mapStore _).sent

theorem handleMoveRoom (roomId newParentId : Option RoomId) :
    Alike (World.handleMoveRoom t roomId newParentId w)
      (World.handleMoveRoom t roomId newParentId w') := by
  unfold World.handleMoveRoom
  dsimp only
  refine h.requirePermission (h.requirePermission ?_ _ _ _) _ _ _
  rw [h.data]
  split
  · exact h.sent
  split
  · exact h.sent
  split
  · exact h.sent
  · exact Alike.sent ((h.mapData _).mapStore _).sent

theorem handleSetRoomDescription (roomId : Option RoomId) (text : String) :
    Alike (World.handleSetRoomDescription t roomId text w)
      (World.handleSetRoomDescription t roomId text w') := by
  unfold World.handleSetRoomDescription
  dsimp only
  refine h.requirePermission ?_ _ _ _
  rw [h.data]
  split
  · exact h.sent
  · exact Alike.sent ((h.mapData _).mapStore _).sent

theorem handleSetServerMute (target : UserId) (muted : Bool) :
    Alike (World.handleSetServerMute t target muted w)
      (World.handleSetServerMute t target muted w') := by
  have hflagged := h.setHandle (primary target) fun c => { c with manuallyServerMuted := muted }
  unfold World.handleSetServerMute
  dsimp only
  rw [h.data]
  refine h.requirePermission ?_ _ _ _
  rw [h.getClient]
  split
  · exact h.sent
  · rw [hflagged.permissions]
    exact Alike.sent (hflagged.setHandle _ _).sent

theorem handleElevate (password : String) :
    Alike (World.handleElevate cfg t password w) (World.handleElevate cfg t password w') := by
  refine h.requirePermission ?_ _ _ _
  dsimp only
  rw [h.store]
  split
  · exact h.sent
  split
  · exact h.sent
  · exact Alike.sent (h.setHandle _ _).sent

theorem handleKickUser (target : UserId) (reason : String) :
    Alike (World.handleKickUser t target reason w) (World.handleKickUser t target reason w') := by
  refine h.requirePermission ?_ _ _ _
  unfold displayNameOf
  rw [h.conn]
  split
  · exact h.sent
  · exact (h.applyKick _ _ _).replyResult _ _

theorem handleBanUser (target : UserId) (d : Nat) (reason : String) :
    Alike (World.handleBanUser env t target d reason w)
      (World.handleBanUser env t target d reason w') := by
  refine h.requirePermission ?_ _ _ _
  unfold displayNameOf
  rw [h.conn]
  split
  · exact h.sent
  · exact (h.applyBan _ _ _ _ _).replyResult _ _

theorem manageAcl {op : World → OpResult} (hop : Alike (op w).2 (op w').2) (command : String) :
    Alike (World.manageAcl t command op w) (World.manageAcl t command op w') :=
  h.requirePermission (hop.replyResult _ _) _ _ _

theorem handleSetRegisteredUserGroup (publicKey : List UInt8) (group : String) (add : Bool)
    (expiresAt : Nat) :
    Alike (World.handleSetRegisteredUserGroup t publicKey group add expiresAt w)
      (World.handleSetRegisteredUserGroup t publicKey group add expiresAt w') := by
  refine h.manageAcl t ?_ _
  split
  · exact h
  · exact h.applySetUserGroupByKey _ group add expiresAt

theorem handleRequestRegisteredUsers :
    Alike (World.handleRequestRegisteredUsers env t w)
      (World.handleRequestRegisteredUsers env t w') := by
  refine h.requirePermission ?_ _ _ _
  dsimp only
  rw [h.snapshotClients, h.getUserPublicKey, h.store]
  exact (h.mapStore _).sent

theorem handleSetRoomAcl (roomId : List UInt8) (inherit : Bool) (entries : List RoomAclEntry)
    (base : Nat) : Alike (World.handleSetRoomAcl cfg t roomId inherit entries base w)
      (World.handleSetRoomAcl cfg t roomId inherit entries base w') := by
  unfold World.handleSetRoomAcl
  split
  · exact h.sent
  · exact h.requirePermission ((h.applySetRoomAcl cfg _ _ _ _).replyResult _ _) _ _ _

theorem handleControllerHello :
    Alike (World.handleControllerHello t w) (World.handleControllerHello t w') := by
  unfold World.handleControllerHello
  rw [h.handle, h.permissions]
  split
  · exact h.sent
  split
  · exact h.sent
  · exact Alike.sent ((h.setHandle _ _).mapData _).sent

/-- The one handler that stores a participant's name. -/
theorem handleRegisterParticipant (name name' : String) (label : Option String) :
    Alike (World.handleRegisterParticipant t name label w)
      (World.handleRegisterParticipant t name' label w') := by
  unfold World.handleRegisterParticipant
  rw [h.conn, h.store]
  exact (h.createParticipant _ name name' label none _ true).sent

theorem withParticipant {rest : World → World} (hrest : Alike (rest w) (rest w'))
    (command : String) (u : UserId) :
    Alike (World.withParticipant t command u rest w)
      (World.withParticipant t command u rest w') := by
  unfold World.withParticipant
  rw [h.isParticipantOf]
  split
  · exact hrest
  · exact h.sent

theorem handleMoveParticipant (u : UserId) (roomId : Option RoomId) :
    Alike (World.handleMoveParticipant t u roomId w)
      (World.handleMoveParticipant t u roomId w') := by
  refine h.withParticipant t ?_ _ _
  have hmoved := h.moveParticipantToRoom u (roomIdOrRoot roomId)
  generalize w.moveParticipantToRoom u (roomIdOrRoot roomId) = r at hmoved
  generalize w'.moveParticipantToRoom u (roomIdOrRoot roomId) = r' at hmoved
  obtain ⟨_ | _, a⟩ := r <;> obtain ⟨_ | _, a'⟩ := r' <;> exact hmoved.sent

theorem handleController (payload : Payload) :
    Alike (World.handleController env t payload w) (World.handleController env t payload w') := by
  unfold World.handleController
  rw [h.handle]
  split
  · exact h
  cases payload
  case registerParticipant name label => exact h.handleRegisterParticipant t name name label
  case unregisterParticipant u =>
    exact h.withParticipant t (h.removeParticipant u).sent _ _
  case moveParticipant u roomId => exact h.handleMoveParticipant t u roomId
  case setParticipantStatus u isMuted isDeafened =>
    exact h.withParticipant t (h.mapData _).sent _ _
  case participantChat u text tree roomId =>
    refine h.withParticipant t ?_ _ _
    split
    · exact h.silent (broadcastChatInRoom ..) (broadcastChatInRoom ..)
    · exact h.silent (broadcastChatInRoom ..) (broadcastChatInRoom ..)
  all_goals exact h

theorem handleAuthenticated (payload : Payload) :
    Alike (World.handleAuthenticated cfg env t payload w)
      (World.handleAuthenticated cfg env t payload w') := by
  unfold World.handleAuthenticated
  cases payload
  case chatMessage => exact h.silent (broadcastChatInRoom ..) (broadcastChatInRoom ..)
  case directMessage => exact h.silent (handleDirectMessage ..) (handleDirectMessage ..)
  case joinRoom roomId => exact h.handleJoinRoom t roomId
  case createRoom name parentId description =>
    exact h.handleCreateRoom env t name parentId description
  case deleteRoom roomId => exact h.handleDeleteRoom t roomId
  case renameRoom roomId name => exact h.handleRenameRoom t roomId name
  case moveRoom roomId newParentId => exact h.handleMoveRoom t roomId newParentId
  case setRoomDescription roomId text => exact h.handleSetRoomDescription t roomId text
  case requestStateSync => exact h.sent
  case setUserStatus => exact (h.mapData _).sent
  case registerUser userId =>
    dsimp only
    unfold handleRegisterUser
    refine h.requirePermission ?_ _ _ _
    exact (h.applyRegisterUser _).replyResult _ _
  case unregisterUser userId =>
    dsimp only
    unfold handleUnregisterUser
    refine h.requirePermission ?_ _ _ _
    exact (h.applyUnregisterUser _).replyResult _ _
  case controllerHello => exact h.handleControllerHello t
  case kickUser target reason => exact h.handleKickUser t target reason
  case banUser target d reason => exact h.handleBanUser env t target d reason
  case setServerMute target muted => exact h.handleSetServerMute t target muted
  case elevate password => exact h.handleElevate cfg t password
  case createGroup => exact h.manageAcl t (h.applyCreateGroup _ _) _
  case deleteGroup => exact h.manageAcl t (h.applyDeleteGroup _) _
  case modifyGroup => exact h.manageAcl t (h.applyModifyGroup _ _) _
  case toggleGroupPermission => exact h.manageAcl t (h.applyToggleGroupPermission _ _ _) _
  case setUserGroup => exact h.manageAcl t (h.applySetUserGroup _ _ _ _) _
  case setRoomAcl roomId inherit entries base =>
    exact h.handleSetRoomAcl cfg t roomId inherit entries base
  case requestRegisteredUsers => exact h.handleRequestRegisteredUsers env t
  case setRegisteredUserGroup publicKey group add expiresAt =>
    exact h.handleSetRegisteredUserGroup t publicKey group add expiresAt
  all_goals exact h.handleController env t _

theorem handleEnvelope (payload : Payload) :
    Alike (World.handleEnvelope cfg env t payload w)
      (World.handleEnvelope cfg env t payload w') := by
  unfold World.handleEnvelope
  rw [h.conn]
  cases payload
  case clientHello name publicKey password =>
    exact h.handleClientHello cfg env t name publicKey password
  case authenticate signature timestampMs cert =>
    exact h.handleAuthenticate cfg env t signature timestampMs cert
  case disconnect | other => exact h
  all_goals
    dsimp only
    split
    · exact h.handleAuthenticated cfg env t _
    · exact h

theorem handleDatagram (u : UserId) (dgram : VoiceDatagram) (len : Nat) :
    Alike (World.handleDatagram env u dgram len w) (World.handleDatagram env u dgram len w') := by
  have hrelay : (buildRelayPacket w'.state env u dgram len).2.nameless =
      (buildRelayPacket w.state env u dgram len).2.nameless := by
    rw [nameless_buildRelayPacket, h.state, nameless_buildRelayPacket]
  have hstate := h.setState hrelay
  unfold World.handleDatagram
  dsimp only
  split
  · split
    · exact hstate
    · exact ⟨hstate.state, hstate.store⟩
  · split
    · exact ⟨hstate.state, hstate.store⟩
    · exact hstate.sent

theorem handleConnect : Alike w.handleConnect w'.handleConnect := by
  unfold World.handleConnect
  rw [h.nextUserId]
  exact h.mapState fun s => ServerState.nameless_registerClient _ _

theorem handleConnectionLost (u : UserId) :
    Alike (w.handleConnectionLost u) (w'.handleConnectionLost u) := by
  obtain ⟨hclaimed, hteardown⟩ := h.beginTeardown u
  unfold World.handleConnectionLost
  dsimp only
  rw [hclaimed]
  split
  · exact hteardown.cleanupClient u
  · exact hteardown

end Handlers

end Alike

end World

/-! ## Runs -/

open World (Alike)

/-- The same input, or two registrations of a participant under two names. -/
inductive Renamed : Input → Input → Prop
  | same (i : Input) : Renamed i i
  | registration (env : Env) (sender : HandleId) (name name' : String) (label : Option String) :
      Renamed (env, .envelope sender (.registerParticipant name label))
        (env, .envelope sender (.registerParticipant name' label))

section Runs

variable {cfg : Config} {w w' : World} {i i' : Input} {inputs inputs' : List Input}

theorem alike_step (env : Env) (e : Event) (h : Alike w w') :
    Alike (step cfg env w e) (step cfg env w' e) := by
  unfold step
  rw [h.conn]
  cases e with
  | connect => exact h.handleConnect
  | envelope t payload =>
    dsimp only
    split
    · exact h.handleEnvelope cfg env t payload
    · exact h
  | readTimeout t =>
    dsimp only
    split
    · exact h.sent
    · exact h
  | datagram u dgram len =>
    dsimp only
    split
    · exact h.handleDatagram env u dgram len
    · exact h
  | connectionLost u =>
    dsimp only
    split
    · exact h.handleConnectionLost u
    · exact h
  | sweep => exact h.sweepExpired env

/-- A registration under another name ends in an alike world. -/
theorem alike_stepInput (hi : Renamed i i') (h : Alike w w') :
    Alike (stepInput cfg w i) (stepInput cfg w' i') := by
  cases hi with
  | same => exact alike_step _ _ h
  | registration env t name name' label =>
    unfold stepInput step World.handleEnvelope World.handleAuthenticated World.handleController
    dsimp only
    rw [h.conn, h.handle]
    split
    · split
      · split
        · exact h
        · exact h.handleRegisterParticipant t name name' label
      · exact h
    · exact h

theorem alike_run (hinputs : List.Forall₂ Renamed inputs inputs') (h : Alike w w') :
    Alike (run cfg w inputs) (run cfg w' inputs') := by
  induction hinputs generalizing w w' with
  | nil => exact h
  | cons hi _ ih => exact ih (alike_stepInput hi h)

end Runs

end Rumble.Server
