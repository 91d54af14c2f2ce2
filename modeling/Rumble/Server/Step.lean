import Rumble.Server.Handlers

/-!
# The server as a transition system

`handle_envelope` and the connection lifecycle of `server/src/server.rs`. One `Event` is handled
from start to end; `run` folds `step` over a list of events, each with what it reads from the clock
and the random generator. A stream of a connection is `⟨userId, n⟩`; messages are accepted from
any stream of a connection that was opened, also after the server has closed it, since frames
already buffered are still handled.
-/

namespace Rumble.Server

/-- What the server reacts to. -/
inductive Event where
  /-- A connection is accepted and opens its control stream. -/
  | connect
  /-- A decoded envelope arrives on a stream. -/
  | envelope (sender : HandleId) (payload : Payload)
  /-- Thirty seconds without data on a stream. -/
  | readTimeout (sender : HandleId)
  /-- A voice datagram of the given encoded length arrives. -/
  | datagram (userId : UserId) (dgram : VoiceDatagram) (len : Nat)
  /-- The connection or its control stream ends. -/
  | connectionLost (userId : UserId)
  /-- The periodic sweep. -/
  | sweep
  deriving DecidableEq

namespace World

/-- Payloads that need a controller as well as authentication. -/
def handleController (env : Env) (sender : HandleId) (payload : Payload) (w : World) : World :=
  if !(w.state.handle sender).isController then w
  else match payload with
    | .registerParticipant username label => handleRegisterParticipant sender username label w
    | .unregisterParticipant userId => handleUnregisterParticipant sender userId w
    | .moveParticipant userId roomId => handleMoveParticipant sender userId roomId w
    | .setParticipantStatus userId isMuted isDeafened =>
      handleSetParticipantStatus sender userId isMuted isDeafened w
    | .participantChat userId text tree roomId =>
      handleParticipantChat env sender userId text tree roomId w
    | _ => w

/-- Payloads that need an authenticated connection. -/
def handleAuthenticated (cfg : Config) (env : Env) (sender : HandleId) (payload : Payload)
    (w : World) : World :=
  match payload with
  | .chatMessage id timestampMs text tree attachment =>
    handleChatMessage env sender id timestampMs text tree attachment w
  | .directMessage target text id timestampMs =>
    handleDirectMessage env sender target text id timestampMs w
  | .joinRoom roomId => handleJoinRoom sender roomId w
  | .createRoom name parentId description =>
    handleCreateRoom env sender name parentId description w
  | .deleteRoom roomId => handleDeleteRoom sender roomId w
  | .renameRoom roomId newName => handleRenameRoom sender roomId newName w
  | .moveRoom roomId newParentId => handleMoveRoom sender roomId newParentId w
  | .setRoomDescription roomId description =>
    handleSetRoomDescription sender roomId description w
  | .requestStateSync => w.sendServerStateToClient cfg sender
  | .setUserStatus isMuted isDeafened => handleSetUserStatus sender isMuted isDeafened w
  | .registerUser userId => handleRegisterUser sender userId w
  | .unregisterUser userId => handleUnregisterUser sender userId w
  | .controllerHello => handleControllerHello sender w
  | .kickUser target reason => handleKickUser sender target reason w
  | .banUser target durationSeconds reason =>
    handleBanUser env sender target durationSeconds reason w
  | .setServerMute target muted => handleSetServerMute sender target muted w
  | .elevate password => handleElevate cfg sender password w
  | .createGroup name permissions => handleCreateGroup sender name permissions w
  | .deleteGroup name => handleDeleteGroup sender name w
  | .modifyGroup name permissions => handleModifyGroup sender name permissions w
  | .toggleGroupPermission name bits enable =>
    handleToggleGroupPermission sender name bits enable w
  | .setUserGroup target group add expiresAt =>
    handleSetUserGroup sender target group add expiresAt w
  | .setRoomAcl roomId inheritAcl entries baseVersion =>
    handleSetRoomAcl cfg sender roomId inheritAcl entries baseVersion w
  | .requestRegisteredUsers => handleRequestRegisteredUsers env sender w
  | .setRegisteredUserGroup publicKey group add expiresAt =>
    handleSetRegisteredUserGroup sender publicKey group add expiresAt w
  | payload => handleController env sender payload w

def handleEnvelope (cfg : Config) (env : Env) (sender : HandleId) (payload : Payload) (w : World) :
    World :=
  match payload with
  | .clientHello username publicKey password =>
    handleClientHello cfg env sender username publicKey password w
  | .authenticate signature timestampMs sessionCert =>
    handleAuthenticate cfg env sender signature timestampMs sessionCert w
  | .disconnect => w
  | .other => w
  | payload =>
    if (w.state.conn sender.user).authenticated then
      handleAuthenticated cfg env sender payload w
    else w

/-- A new connection gets the next user id and is registered as a client. -/
def handleConnect (w : World) : World :=
  let userId := w.state.nextUserId
  w.mapState fun s =>
    ({ s with nextUserId := s.nextUserId + 1 }.setConn userId fun c =>
      { c with opened := true }).registerClient userId

/-- The first teardown of a connection cleans it up. -/
def handleConnectionLost (w : World) (userId : UserId) : World :=
  let (claimed, w) := w.beginTeardown userId
  if claimed then w.cleanupClient userId else w

end World

/-- One event, handled to completion. -/
def step (cfg : Config) (env : Env) (w : World) : Event → World
  | .connect => w.handleConnect
  | .envelope sender payload =>
    if (w.state.conn sender.user).opened then w.handleEnvelope cfg env sender payload else w
  | .readTimeout sender =>
    if (w.state.conn sender.user).opened then w.sendFrame sender .keepAlive else w
  | .datagram userId dgram len =>
    if (w.state.conn userId).opened then w.handleDatagram env userId dgram len else w
  | .connectionLost userId =>
    if (w.state.conn userId).opened then w.handleConnectionLost userId else w
  | .sweep => w.sweepExpired env

/-- The server at start, over a database. -/
def World.init (store : Persistence) : World where
  state := ServerState.new
  store := store
  log := []

/-- An event with what it reads from its environment. -/
abbrev Input := Env × Event

def stepInput (cfg : Config) (w : World) (i : Input) : World := step cfg i.1 w i.2

def run (cfg : Config) (w : World) (inputs : List Input) : World := inputs.foldl (stepInput cfg) w

theorem run_snoc (cfg : Config) (w : World) (inputs : List Input) (i : Input) :
    run cfg w (inputs ++ [i]) = stepInput cfg (run cfg w inputs) i := by
  rw [run, List.foldl_append]
  rfl

/-! ## Sample inputs

A configuration and the messages of a login, for the runs on concrete inputs below. -/

/-- Accepts every key and signature, no password, no welcome. -/
def sampleConfig : Config where
  serverPassword := none
  serverCertHash := Bytes.rep 32 0
  welcomeMessage := none
  slashCommands := []
  blake3 := fun _ => Bytes.rep 32 0
  validKey := fun _ => true
  verifyStrict := fun _ _ _ => true
  bcryptVerify := fun _ _ => false

def sampleEnv : Env where
  newUuid := Bytes.rep 16 7
  nonce := Bytes.rep 32 1
  nowMs := 0
  nowSecs := 1000
  instant := 0

/-- A fresh database with the default groups. -/
def sampleStore : Persistence := Persistence.empty.ensureDefaultGroups

/-- A database in which the key `rep 32 9` is an administrator. -/
def sampleAdminStore : Persistence := sampleStore.addUserToGroup (Bytes.rep 32 9) "admin"

def sampleCert : SessionCertificate where
  sessionPublicKey := List.replicate 32 5
  issuedMs := 0
  expiresMs := 10
  device := none
  userSignature := List.replicate 64 0

/-- A message on a control stream. -/
def sampleMsg (userId : UserId) (payload : Payload) : Input :=
  (sampleEnv, .envelope (primary userId) payload)

def sampleHello (userId : UserId) (key : PublicKey) (name : String) : Input :=
  sampleMsg userId (.clientHello name key.data none)

def sampleAuth (userId : UserId) : Input :=
  sampleMsg userId (.authenticate (List.replicate 64 0) 0 (some sampleCert))

/-- Connect and authenticate; `userId` is the next id the server assigns. -/
def sampleLogin (userId : UserId) (key : PublicKey) (name : String) : List Input :=
  [(sampleEnv, .connect), sampleHello userId key name, sampleAuth userId]

end Rumble.Server
