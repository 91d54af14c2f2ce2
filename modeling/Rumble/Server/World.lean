import Rumble.Protocol.Wire
import Rumble.Server.Acl

/-!
# The server's world

The whole state a handler reads and writes: the server state, the database and the log of what
has been sent. `broadcastStateUpdate` and the reply helpers are the sending half of
`server/src/handlers.rs`.
-/

namespace Rumble.Server

open Rumble.Lib

/-- Process configuration, and the outside crates the server calls. -/
structure Config where
  /-- `RUMBLE_SERVER_PASSWORD`. -/
  serverPassword : Option String
  serverCertHash : Bytes 32
  welcomeMessage : Option String
  slashCommands : List SlashCommand
  blake3 : List UInt8 → Bytes 32
  /-- `VerifyingKey::from_bytes(..).is_ok()`. -/
  validKey : PublicKey → Bool
  /-- `VerifyingKey::verify_strict(message, signature).is_ok()`. -/
  verifyStrict : PublicKey → List UInt8 → List UInt8 → Bool
  bcryptVerify : String → String → Bool

/-- What one step reads from the clock and the random generator. -/
structure Env where
  newUuid : Uuid
  nonce : Nonce
  nowMs : Int
  nowSecs : Nat
  /-- Monotonic nanoseconds. -/
  instant : Nat
  deriving DecidableEq

/-- A frame sent on one stream, a frame sent to the control stream of every listed client, or a
voice datagram relayed to the listed connections. -/
inductive Out where
  | send (target : HandleId) (frame : Frame)
  | broadcast (clients : List UserId) (frame : Frame)
  | relay (connections : List UserId) (datagram : VoiceDatagram)
  deriving DecidableEq

structure World where
  state : ServerState
  store : Persistence
  log : List Out

namespace World

def emit (w : World) (o : Out) : World := { w with log := w.log ++ [o] }

def mapState (w : World) (f : ServerState → ServerState) : World := { w with state := f w.state }

def mapData (w : World) (f : StateData → StateData) : World :=
  { w with state := { w.state with data := f w.state.data } }

def mapStore (w : World) (f : Persistence → Persistence) : World := { w with store := f w.store }

section Fields

variable (w : World)

@[simp] theorem emit_state (o : Out) : (w.emit o).state = w.state := rfl
@[simp] theorem emit_store (o : Out) : (w.emit o).store = w.store := rfl
@[simp] theorem emit_log (o : Out) : (w.emit o).log = w.log ++ [o] := rfl
@[simp] theorem mapState_state (f : ServerState → ServerState) :
    (w.mapState f).state = f w.state := rfl
@[simp] theorem mapState_store (f : ServerState → ServerState) :
    (w.mapState f).store = w.store := rfl
@[simp] theorem mapState_log (f : ServerState → ServerState) : (w.mapState f).log = w.log := rfl
@[simp] theorem mapData_state (f : StateData → StateData) :
    (w.mapData f).state = { w.state with data := f w.state.data } := rfl
@[simp] theorem mapData_store (f : StateData → StateData) : (w.mapData f).store = w.store := rfl
@[simp] theorem mapData_log (f : StateData → StateData) : (w.mapData f).log = w.log := rfl
@[simp] theorem mapStore_state (f : Persistence → Persistence) :
    (w.mapStore f).state = w.state := rfl
@[simp] theorem mapStore_store (f : Persistence → Persistence) :
    (w.mapStore f).store = f w.store := rfl
@[simp] theorem mapStore_log (f : Persistence → Persistence) : (w.mapStore f).log = w.log := rfl

end Fields

/-! ## Sending -/

def sendFrame (w : World) (target : HandleId) (frame : Frame) : World :=
  w.emit (.send target frame)

def sendCommandResult (w : World) (sender : HandleId) (command : String) (success : Bool)
    (message : String) : World :=
  w.sendFrame sender (.commandResult command success message)

def sendPermissionDenied (w : World) (sender : HandleId) (room : Uuid) (required : Permissions) :
    World :=
  w.sendFrame sender (.permissionDenied required room.data
    ("You do not have permission to perform this action (requires " ++ required.debug ++ ")"))

/-- The notice, then the connection is closed. -/
def sendAuthFailed (w : World) (sender : HandleId) (error : String) : World :=
  (w.sendFrame sender (.authFailed error)).mapState
    (·.setConn sender.user fun c => { c with closed := true })

/-- An update to every registered client, with the hash of the state as it is now. -/
def broadcastStateUpdate (w : World) (update : Update) : World :=
  w.emit (.broadcast w.state.snapshotClients (.stateUpdate w.state.hashInput update))

/-- The group definitions sent to clients. -/
def groupInfos (w : World) : List Group :=
  w.store.listGroups.map fun g =>
    { name := g.1, permissions := g.2, isBuiltin := ["default", "admin"].contains g.1 }

/-- The full state as one client sees it: its own permissions in every room. -/
def serverStateFor (cfg : Config) (w : World) (client : HandleId) : ServerStateMsg where
  rooms := w.state.data.rooms.map fun r =>
    Room.toProto { r with
      effectivePermissions := evaluateUserPermissions w.state w.store client r.id }
  users := w.state.buildUserList.map User.toProto
  groups := w.groupInfos
  slashCommands := cfg.slashCommands

/-- The hash is taken before the per-client permissions are filled in. -/
def sendServerStateToClient (cfg : Config) (w : World) (client : HandleId) : World :=
  w.sendFrame client (.serverState
    (stateHashInput { w.state.hashMsg with groups := w.groupInfos }) (w.serverStateFor cfg client))

/-! ## Authorization -/

/-- `check_permission`, then the rest of the handler, or a denial. -/
def requirePermission (w : World) (sender : HandleId) (room : Uuid) (required : Permissions)
    (rest : World → World) : World :=
  if (evaluateUserPermissions w.state w.store sender room).contains required then rest w
  else w.sendPermissionDenied sender room required

/-- Report the outcome of an operation to the requesting stream. -/
def replyResult (sender : HandleId) (command : String) : Except String String × World → World
  | (.ok message, w) => w.sendCommandResult sender command true message
  | (.error message, w) => w.sendCommandResult sender command false message

section Fields

variable (w : World) (h : HandleId)

@[simp] theorem sendFrame_state (f : Frame) : (w.sendFrame h f).state = w.state := rfl
@[simp] theorem sendFrame_store (f : Frame) : (w.sendFrame h f).store = w.store := rfl
@[simp] theorem sendFrame_log (f : Frame) : (w.sendFrame h f).log = w.log ++ [.send h f] := rfl
@[simp] theorem sendCommandResult_state (c : String) (b : Bool) (m : String) :
    (w.sendCommandResult h c b m).state = w.state := rfl
@[simp] theorem sendCommandResult_store (c : String) (b : Bool) (m : String) :
    (w.sendCommandResult h c b m).store = w.store := rfl
@[simp] theorem sendCommandResult_log (c : String) (b : Bool) (m : String) :
    (w.sendCommandResult h c b m).log = w.log ++ [.send h (.commandResult c b m)] := rfl
@[simp] theorem sendPermissionDenied_state (r : Uuid) (p : Permissions) :
    (w.sendPermissionDenied h r p).state = w.state := rfl
@[simp] theorem sendPermissionDenied_store (r : Uuid) (p : Permissions) :
    (w.sendPermissionDenied h r p).store = w.store := rfl
@[simp] theorem sendAuthFailed_state (e : String) : (w.sendAuthFailed h e).state =
    w.state.setConn h.user fun c => { c with closed := true } := rfl
@[simp] theorem sendAuthFailed_store (e : String) : (w.sendAuthFailed h e).store = w.store := rfl
@[simp] theorem sendAuthFailed_log (e : String) :
    (w.sendAuthFailed h e).log = w.log ++ [.send h (.authFailed e)] := rfl
@[simp] theorem broadcastStateUpdate_state (u : Update) :
    (w.broadcastStateUpdate u).state = w.state := rfl
@[simp] theorem broadcastStateUpdate_store (u : Update) :
    (w.broadcastStateUpdate u).store = w.store := rfl
@[simp] theorem broadcastStateUpdate_log (u : Update) : (w.broadcastStateUpdate u).log =
    w.log ++ [.broadcast w.state.snapshotClients (.stateUpdate w.state.hashInput u)] := rfl
@[simp] theorem replyResult_state (c : String) (r : Except String String × World) :
    (replyResult h c r).state = r.2.state := by obtain ⟨m | m, w⟩ := r <;> rfl
@[simp] theorem replyResult_store (c : String) (r : Except String String × World) :
    (replyResult h c r).store = r.2.store := by obtain ⟨m | m, w⟩ := r <;> rfl
@[simp] theorem sendServerStateToClient_state (cfg : Config) :
    (w.sendServerStateToClient cfg h).state = w.state := rfl
@[simp] theorem sendServerStateToClient_store (cfg : Config) :
    (w.sendServerStateToClient cfg h).store = w.store := rfl

end Fields

end World

end Rumble.Server
