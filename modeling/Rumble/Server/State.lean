import Rumble.Lib.Keyed
import Rumble.Server.Persistence
import Mathlib.Logic.Function.Basic

/-!
# Server state

`server/src/state.rs`. `StateData` is what the consolidated lock protects (rooms, memberships,
statuses); `ServerState` adds the member table, the sessions, the pending handshakes and the cells
that live on connections.

A connection may have several streams. Each stream has its own `ClientHandle` with its own flags
(stream 0 is the control stream, whose handle is the registered one); the public key, the
`authenticated` flag and the identity are cells shared by all handles of the connection
(`Conn`). A handle that does not exist yet has the flags it will be created with.
-/

namespace Rumble.Server

open Rumble.Lib

/-! ## State data -/

structure UserStatus where
  isMuted : Bool := false
  isDeafened : Bool := false
  serverMuted : Bool := false
  isElevated : Bool := false
  deriving DecidableEq

structure StateData where
  rooms : List Room
  memberships : List (UserId × Uuid)
  userStatuses : List (UserId × UserStatus)

namespace StateData

/-- Root self-parents. -/
def rootRoom : Room where
  id := rootRoomUuid
  name := "Root"
  parent := rootRoomUuid
  description := none
  inheritAcl := true
  acls := []
  effectivePermissions := 0

def new : StateData where
  rooms := [rootRoom]
  memberships := []
  userStatuses := []

/-- Add a user to a room, replacing any existing membership. -/
def setUserRoom (d : StateData) (userId : UserId) (room : Uuid) : StateData :=
  { d with memberships := d.memberships.filter (fun m => m.1 ≠ userId) ++ [(userId, room)] }

/-- Remove a user from all rooms, and its status. -/
def removeUserMembership (d : StateData) (userId : UserId) : StateData :=
  { d with
    memberships := d.memberships.filter (fun m => m.1 ≠ userId)
    userStatuses := d.userStatuses.filter (fun m => m.1 ≠ userId) }

def setUserStatus (d : StateData) (userId : UserId) (status : UserStatus) : StateData :=
  { d with userStatuses := d.userStatuses.filter (fun m => m.1 ≠ userId) ++ [(userId, status)] }

def getUserStatus (d : StateData) (userId : UserId) : UserStatus :=
  ((d.userStatuses.find? fun m => m.1 == userId).map Prod.snd).getD {}

def getUserRoom (d : StateData) (userId : UserId) : Option Uuid :=
  (d.memberships.find? fun m => m.1 == userId).map Prod.snd

def getRoomMembers (d : StateData) (room : Uuid) : List UserId :=
  (d.memberships.filter fun m => m.2 == room).map Prod.fst

def findRoom (d : StateData) (room : Uuid) : Option Room := d.rooms.find? fun r => r.id == room

/-- Push a room under the UUID `newUuid` that `Uuid::new_v4` returned. -/
def createRoomWithParentDesc (d : StateData) (newUuid : Uuid) (name : String) (parent : Uuid)
    (description : Option String) : StateData :=
  { d with rooms := d.rooms ++ [{
      id := newUuid
      name := name
      parent := parent
      description := description
      inheritAcl := true
      acls := []
      effectivePermissions := 0 }] }

/-- `none` when the room is Root or does not exist. Users of the room move to Root. -/
def deleteRoom (d : StateData) (room : Uuid) : Option StateData :=
  if room = rootRoomUuid then none
  else if d.rooms.any (fun r => r.id == room) then
    some { d with
      rooms := d.rooms.filter (fun r => r.id ≠ room)
      memberships := d.memberships.map fun m => if m.2 = room then (m.1, rootRoomUuid) else m }
  else none

theorem deleteRoom_eq_some {d d' : StateData} {room : Uuid} :
    d.deleteRoom room = some d' ↔ room ≠ rootRoomUuid ∧ (∃ r ∈ d.rooms, r.id = room) ∧
      d' = { d with
        rooms := d.rooms.filter (fun r => r.id ≠ room)
        memberships := d.memberships.map fun m =>
          if m.2 = room then (m.1, rootRoomUuid) else m } := by
  unfold deleteRoom
  by_cases h1 : room = rootRoomUuid
  · simp [h1]
  by_cases h2 : ∃ r ∈ d.rooms, r.id = room
  · have h2' : d.rooms.any (fun r => r.id == room) = true := by simpa using h2
    rw [if_neg h1, if_pos h2', Option.some.injEq]
    exact ⟨fun h => ⟨h1, h2, h.symm⟩, fun h => h.2.2.symm⟩
  · have h2' : ¬ d.rooms.any (fun r => r.id == room) = true := by simpa using h2
    rw [if_neg h1, if_neg h2']
    exact ⟨fun h => (Option.some_ne_none _ h.symm).elim, fun h => absurd h.2.1 h2⟩

/-- The in-place room edits: `none` when no room has the id. -/
def editRoom (d : StateData) (room : Uuid) (f : Room → Room) : Option StateData :=
  (modifyFirst? (fun r => r.id == room) f d.rooms).map fun rooms => { d with rooms := rooms }

theorem editRoom_eq_some {d d' : StateData} {room : Uuid} {f : Room → Room} :
    d.editRoom room f = some d' ↔ (∃ r ∈ d.rooms, r.id = room) ∧
      d' = { d with rooms := modifyFirst (fun r => r.id == room) f d.rooms } := by
  unfold editRoom modifyFirst?
  by_cases h : ∃ r ∈ d.rooms, r.id = room
  · have h' : d.rooms.any (fun r => r.id == room) = true := by simpa using h
    rw [if_pos h', Option.map_some, Option.some.injEq]
    exact ⟨fun e => ⟨h, e.symm⟩, fun e => e.2.symm⟩
  · have h' : ¬ d.rooms.any (fun r => r.id == room) = true := by simpa using h
    rw [if_neg h']
    exact ⟨fun e => (Option.some_ne_none _ e.symm).elim, fun e => absurd e.1 h⟩

theorem editRoom_eq_none {d : StateData} {room : Uuid} {f : Room → Room} :
    d.editRoom room f = none ↔ ∀ r ∈ d.rooms, r.id ≠ room := by
  simp [editRoom, modifyFirst?]

def renameRoom (d : StateData) (room : Uuid) (newName : String) : Option StateData :=
  d.editRoom room fun r => { r with name := newName }

def moveRoom (d : StateData) (room newParent : Uuid) : Option StateData :=
  d.editRoom room fun r => { r with parent := newParent }

def setRoomAcl (d : StateData) (room : Uuid) (inheritAcl : Bool) (acls : List RoomAclEntry) :
    Option StateData :=
  d.editRoom room fun r => { r with inheritAcl := inheritAcl, acls := acls }

/-- An empty description is stored as `None`. -/
def setRoomDescription (d : StateData) (room : Uuid) (description : String) : Option StateData :=
  d.editRoom room fun r =>
    { r with description := if description.isEmpty then none else some description }

/-- Root always exists. -/
def roomExists (d : StateData) (room : Uuid) : Bool :=
  room == rootRoomUuid || d.rooms.any fun r => r.id == room

def roomParentAndChildren (d : StateData) (room : Uuid) : Option (Uuid × List Uuid) :=
  (d.findRoom room).map fun r =>
    (r.parent, (d.rooms.filter fun c => c.parent == room).map Room.id)

end StateData

/-! ## Members and connections -/

structure Identity where
  displayName : String
  verifiedUsername : Option String
  label : Option String
  groups : List String
  deriving DecidableEq

/-- The identity of a connection before authentication. -/
def Identity.empty : Identity where
  displayName := ""
  verifiedUsername := none
  label := none
  groups := []

/-- Who controls an owned participant. -/
inductive OwnerId where
  | plugin (index : Nat)
  | connection (userId : UserId)
  deriving DecidableEq

/-- A roster member. A client's identity is the cell of its connection; a participant has no
connection and carries its own. -/
inductive Member where
  | client
  | owned (owner : OwnerId) (identity : Identity)
  deriving DecidableEq

/-- A stream of a connection; stream 0 is the control stream. -/
structure HandleId where
  user : UserId
  stream : Nat
  deriving DecidableEq

/-- The registered handle of a connection. -/
abbrev primary (userId : UserId) : HandleId := ⟨userId, 0⟩

/-- The flags of one stream's handle. -/
structure ClientHandle where
  isController : Bool := false
  isSuperuser : Bool := false
  serverMuted : Bool := false
  manuallyServerMuted : Bool := false
  tornDown : Bool := false
  deriving DecidableEq

/-- The cells all handles of a connection share, whether its control stream was ever opened, and
whether the server has closed it. -/
structure Conn where
  opened : Bool := false
  publicKey : Option PublicKey := none
  authenticated : Bool := false
  identity : Identity := Identity.empty
  closed : Bool := false
  deriving DecidableEq

structure PendingAuth where
  nonce : Nonce
  userId : UserId
  publicKey : PublicKey
  username : String
  deriving DecidableEq

structure SessionEntry where
  userPublicKey : PublicKey
  sessionPublicKey : Bytes 32
  sessionId : Bytes 32
  issuedMs : Int
  expiresMs : Int
  device : Option String
  deriving DecidableEq

/-- A one-second window of voice bytes; `windowStart` in nanoseconds. -/
structure VoiceRateLimit where
  windowStart : Nat
  bytesInWindow : Nat
  deriving DecidableEq

def voiceRateLimitBytesPerSec : Nat := 32000

/-- The verdict on a datagram of `bytes` at `now`, and the limiter after it. -/
def VoiceRateLimit.check (r : VoiceRateLimit) (now bytes : Nat) : Bool × VoiceRateLimit :=
  if 1 ≤ (now - r.windowStart) / 10 ^ 9 then (true, ⟨now, bytes⟩)
  else if r.bytesInWindow + bytes > voiceRateLimitBytesPerSec then (false, r)
  else (true, { r with bytesInWindow := r.bytesInWindow + bytes })

structure ServerState where
  members : Table UserId Member
  data : StateData
  nextUserId : UserId
  pendingAuth : Table UserId PendingAuth
  sessions : Table UserId SessionEntry
  sessionsById : Table (Bytes 32) UserId
  voiceRateLimits : Table UserId VoiceRateLimit
  conn : UserId → Conn
  handle : HandleId → ClientHandle

namespace ServerState

def new : ServerState where
  members := ∅
  data := StateData.new
  nextUserId := 1
  pendingAuth := ∅
  sessions := ∅
  sessionsById := ∅
  voiceRateLimits := ∅
  conn := fun _ => {}
  handle := fun _ => {}

/-! ### Cells -/

def setConn (s : ServerState) (userId : UserId) (f : Conn → Conn) : ServerState :=
  { s with conn := Function.update s.conn userId (f (s.conn userId)) }

def setHandle (s : ServerState) (h : HandleId) (f : ClientHandle → ClientHandle) : ServerState :=
  { s with handle := Function.update s.handle h (f (s.handle h)) }

def setIdentity (s : ServerState) (userId : UserId) (f : Identity → Identity) : ServerState :=
  s.setConn userId fun c => { c with identity := f c.identity }

/-! ### Handshakes and sessions -/

def setPendingAuth (s : ServerState) (p : PendingAuth) : ServerState :=
  { s with pendingAuth := s.pendingAuth.set p.userId p }

def takePendingAuth (s : ServerState) (userId : UserId) : Option PendingAuth × ServerState :=
  (s.pendingAuth.get userId, { s with pendingAuth := s.pendingAuth.del userId })

def addSession (s : ServerState) (userId : UserId) (session : SessionEntry) : ServerState :=
  { s with
    sessions := s.sessions.set userId session
    sessionsById := s.sessionsById.set session.sessionId userId }

def removeSession (s : ServerState) (userId : UserId) : ServerState :=
  match s.sessions.get userId with
  | some session =>
    { s with
      sessions := s.sessions.del userId
      sessionsById := s.sessionsById.del session.sessionId }
  | none => s

def getUserPublicKey (s : ServerState) (userId : UserId) : Option PublicKey :=
  (s.sessions.get userId).map SessionEntry.userPublicKey

def userIdsWithKey (s : ServerState) (key : PublicKey) : List UserId :=
  (s.sessions.toPairs.filter fun e => e.2.userPublicKey == key).map Prod.fst

/-! ### Members -/

def registerClient (s : ServerState) (userId : UserId) : ServerState :=
  { s with members := s.members.set userId .client }

def registerParticipant (s : ServerState) (userId : UserId) (owner : OwnerId)
    (identity : Identity) : ServerState :=
  { s with members := s.members.set userId (.owned owner identity) }

/-- The state without the member, and whether it was there. -/
def removeClient (s : ServerState) (userId : UserId) : Bool × ServerState :=
  ((s.members.get userId).isSome, { s with members := s.members.del userId })

/-- Everything `cleanup_client` removes for one client. -/
def forgetClient (s : ServerState) (userId : UserId) : ServerState :=
  let s := (s.removeClient userId).2
  let s := { s with data := s.data.removeUserMembership userId }
  let s := s.removeSession userId
  { s with voiceRateLimits := s.voiceRateLimits.del userId }

section ForgetClient

variable (s : ServerState) (u v : UserId)

@[simp] theorem members_forgetClient : (s.forgetClient u).members = s.members.del u := by
  unfold forgetClient removeSession
  dsimp only
  split <;> rfl

@[simp] theorem data_forgetClient : (s.forgetClient u).data = s.data.removeUserMembership u := by
  unfold forgetClient removeSession
  dsimp only
  split <;> rfl

@[simp] theorem conn_forgetClient : (s.forgetClient u).conn = s.conn := by
  unfold forgetClient removeSession
  dsimp only
  split <;> rfl

@[simp] theorem handle_forgetClient : (s.forgetClient u).handle = s.handle := by
  unfold forgetClient removeSession
  dsimp only
  split <;> rfl

theorem get_sessions_forgetClient : (s.forgetClient u).sessions.get v =
    if v = u then none else s.sessions.get v := by
  unfold forgetClient removeSession removeClient
  dsimp only
  split
  · exact Table.get_del _ _ _
  · rename_i hnone
    by_cases hv : v = u
    · rw [if_pos hv, hv]
      exact hnone
    · rw [if_neg hv]

end ForgetClient

/-- Whether `userId` is a live client; its handle is then `primary userId`. -/
def getClient (s : ServerState) (userId : UserId) : Bool := s.members.get userId == some .client

def getMember (s : ServerState) (userId : UserId) : Option Member := s.members.get userId

/-- The identity of a member: the shared cell of a client, the own one of a participant. -/
def memberIdentity (s : ServerState) (userId : UserId) : Member → Identity
  | .client => (s.conn userId).identity
  | .owned _ identity => identity

def memberIsController (s : ServerState) (userId : UserId) : Member → Bool
  | .client => (s.handle (primary userId)).isController
  | .owned _ _ => false

def memberIsSuperuser (s : ServerState) (userId : UserId) : Member → Bool
  | .client => (s.handle (primary userId)).isSuperuser
  | .owned _ _ => false

/-- The user ids of all live client connections. -/
def snapshotClients (s : ServerState) : List UserId :=
  (s.members.toPairs.filter fun e => e.2 == .client).map Prod.fst

def isParticipantOf (s : ServerState) (userId : UserId) (owner : OwnerId) : Bool :=
  match s.members.get userId with
  | some (.owned o _) => o == owner
  | _ => false

def membersByOwner (s : ServerState) (owner : OwnerId) : List UserId :=
  (s.members.toPairs.filter fun e => match e.2 with
    | .owned o _ => o == owner
    | .client => false).map Prod.fst

/-- The connection that voice and chat for a member are delivered over. -/
def deliveryClient (s : ServerState) (userId : UserId) : Option UserId :=
  match s.members.get userId with
  | some .client => some userId
  | some (.owned (.connection c) _) => if s.getClient c then some c else none
  | _ => none

/-! ### The user list and the state hash -/

/-- The roster entry of one membership; controllers and missing members have none. -/
def rosterEntry (s : ServerState) (m : UserId × Uuid) : Option User :=
  match s.getMember m.1 with
  | none => none
  | some member =>
    if s.memberIsController m.1 member then none
    else
      let status := s.data.getUserStatus m.1
      let identity := s.memberIdentity m.1 member
      some {
        userId := m.1
        currentRoom := m.2
        username := identity.displayName
        isMuted := status.isMuted
        isDeafened := status.isDeafened
        -- Server-mute is a connection flag for clients, part of the status for participants.
        serverMuted := match member with
          | .client => (s.handle (primary m.1)).serverMuted
          | .owned _ _ => status.serverMuted
        isElevated := s.memberIsSuperuser m.1 member
        groups := identity.groups
        label := identity.label }

def buildUserList (s : ServerState) : List User := s.data.memberships.filterMap s.rosterEntry

/-- The message `broadcast_state_update` hashes: rooms and users, no groups, no commands. -/
def hashMsg (s : ServerState) : ServerStateMsg where
  rooms := s.data.rooms.map Room.toProto
  users := s.buildUserList.map User.toProto
  groups := []
  slashCommands := []

/-- The server's hash input. -/
def hashInput (s : ServerState) : ServerStateMsg := stateHashInput s.hashMsg

end ServerState

end Rumble.Server
