import Rumble.Lib.Keyed
import Rumble.Lib.Table
import Rumble.Server.Acl
import Rumble.Protocol.Wire

/-!
# The client's projection

`rumble-client/src/projection.rs`: the task that is the sole writer of the client's state. It
applies connection events and room events, and recomputes the permissions of the user after the
events that can change them. `roomEvents` is `apply_state_update` of `handle.rs`, which translates
an update of the server into room events.

The chat log, the voice state, the transfers and the room tree (which is derived from the room
list) are left out.
-/

namespace Rumble.Client

open Rumble.Lib

/-! ## State and events -/

/-- What the user is asked to confirm about an untrusted certificate. -/
structure PendingCertificate where
  serverName : String
  serverAddr : String
  username : String
  deriving DecidableEq

inductive ConnectionState where
  | disconnected
  | connecting (serverAddr : String)
  | connected (serverName : String) (userId : UserId)
  | connectionLost (error : String)
  | certificatePending (certInfo : PendingCertificate)
  deriving DecidableEq

structure ClientState where
  connection : ConnectionState
  kicked : Option String
  myUserId : Option UserId
  myRoomId : Option Uuid
  mySession : Option (Bytes 32 × Bytes 32)
  rooms : List Room
  users : List User
  groupDefinitions : List Group
  slashCommands : List SlashCommand
  perRoomPermissions : Table Uuid (BitVec 32)
  effectivePermissions : BitVec 32
  registeredUsers : List RegisteredUserInfo

namespace ClientState

def new : ClientState where
  connection := .disconnected
  kicked := none
  myUserId := none
  myRoomId := none
  mySession := none
  rooms := []
  users := []
  groupDefinitions := []
  slashCommands := []
  perRoomPermissions := ∅
  effectivePermissions := 0
  registeredUsers := []

/-- The roster entry of a user. -/
def findUser (users : List User) (userId : UserId) : Option User :=
  users.find? fun u => u.userId == userId

end ClientState

inductive ConnectionEvent where
  | connectStarted (serverAddr : String)
  | certificatePending (certInfo : PendingCertificate)
  | connected (serverName : String) (userId : UserId) (sessionPublicKey sessionId : Bytes 32)
  | disconnected
  | connectionLost (error : String)
  | kicked (reason : String)
  | permissionDenied (message : String)
  | elevatedChanged (isElevated : Bool)
  | welcomeMessageReceived (text : String)
  deriving DecidableEq

inductive RoomEvent where
  | fullStateReplaced (rooms : List Room) (users : List User) (groups : List Group)
      (slashCommands : List SlashCommand) (perRoomPermissions : Table Uuid (BitVec 32))
  | roomAdded (room : Room)
  | roomRemoved (roomId : Uuid)
  | roomRenamed (roomId : Uuid) (name : String)
  | roomMoved (roomId : Uuid) (newParent : Option Uuid)
  | roomDescriptionSet (roomId : Uuid) (description : Option String)
  | roomAclChanged (roomId : Uuid) (inheritAcl : Bool) (acls : List RoomAclEntry)
  | userJoined (user : User)
  | userLeft (userId : UserId)
  | userMoved (userId : UserId) (roomId : Option Uuid)
  | userStatusChanged (userId : UserId) (isMuted isDeafened serverMuted isElevated : Bool)
  | userGroupChanged (userId : UserId) (group : String) (added : Bool)
  | groupAdded (group : Group)
  | groupModified (group : Group)
  | groupRemoved (name : String)
  | registeredUsersReplaced (users : List RegisteredUserInfo)
  | selfMovedToRoom (roomId : Uuid)
  /-- Carries what the server's hash was computed from. -/
  | stateHashCheckpoint (expected : ServerStateMsg)

/-- What the projection asks of other tasks: of the audio task, of the file-transfer plugin, and a
resync of the connection task. -/
inductive Effect where
  | roomChanged (userIdsInRoom : List UserId)
  | setServerMuted (muted : Bool)
  | userJoinedRoom (userId : UserId)
  | userLeftRoom (userId : UserId)
  | setRoomId (roomId : Uuid)
  | requestStateSync
  deriving DecidableEq

/-! ## Permissions -/

/-- The upward walk of `build_room_chain`, which stops at a room it has visited. `fuel` bounds the
rooms pushed. -/
def walkVisited (rooms : List Room) : Nat → List Uuid → Uuid → List Uuid
  | 0, _, _ => []
  | fuel + 1, visited, current =>
    if current ∈ visited then []
    else current ::
      if current = rootRoomUuid then []
      else match parentLink rooms current with
        | some parent => walkVisited rooms fuel (current :: visited) parent
        | none => []

/-- The ACL of a room as the client decodes it: an empty entry list is no ACL. -/
def roomAcl (rooms : List Room) (room : Uuid) : Option RoomAclData :=
  (rooms.find? fun r => r.id == room && !r.acls.isEmpty).map fun r =>
    { inheritAcl := r.inheritAcl, entries := r.acls.map AclEntry.ofRoomEntry }

/-- A walk pushes each room at most once, and one id that is not in the list. -/
def buildRoomChain (rooms : List Room) (target : Uuid) : List (Uuid × Option RoomAclData) :=
  (finishChain (walkVisited rooms (rooms.length + 2) [] target)).map fun u => (u, roomAcl rooms u)

namespace ClientState

/-- The groups of the own user: its assigned groups, and its displayed name. -/
def userGroups (s : ClientState) (me : UserId) : List String :=
  match findUser s.users me with
  | some user => userGroupList user.groups (some user.username)
  | none => userGroupList [] none

/-- The last definition of a name counts. -/
def groupPermissions (s : ClientState) (name : String) : Option Permissions :=
  (s.groupDefinitions.reverse.find? fun g => g.name == name).map fun g =>
    Permissions.fromBitsTruncate g.permissions

def isElevated (s : ClientState) (me : UserId) : Bool :=
  ((findUser s.users me).map User.isElevated).getD false

/-- The permissions of the own user in one room. -/
def roomPermissions (s : ClientState) (me : UserId) (room : Uuid) : BitVec 32 :=
  Rumble.effectivePermissions (s.userGroups me) s.groupPermissions (buildRoomChain s.rooms room)
    (s.isElevated me)

/-- The permissions of the room the user is in, when they are known. -/
def adoptRoomPermissions (s : ClientState) : ClientState :=
  match s.myRoomId.bind s.perRoomPermissions.get with
  | some perms => { s with effectivePermissions := perms }
  | none => s

def recomputeEffectivePermissions (s : ClientState) : ClientState :=
  match s.myUserId with
  | none => s
  | some me => adoptRoomPermissions { s with
      perRoomPermissions := s.rooms.foldl
        (fun map r => map.set r.id (s.roomPermissions me r.id)) ∅ }

/-! ## Connection events -/

/-- The session identity is gone. -/
def forgetSession (s : ClientState) : ClientState :=
  { s with myUserId := none, myRoomId := none, mySession := none, registeredUsers := [] }

def applyConnection (s : ClientState) : ConnectionEvent → ClientState
  | .connectStarted serverAddr => { s with connection := .connecting serverAddr }
  | .certificatePending certInfo => { s with connection := .certificatePending certInfo }
  | .connected serverName userId sessionPublicKey sessionId =>
    recomputeEffectivePermissions { s with
      connection := .connected serverName userId
      kicked := none
      myUserId := some userId
      mySession := some (sessionPublicKey, sessionId) }
  | .disconnected => { s.forgetSession with connection := .disconnected }
  | .connectionLost error => { s.forgetSession with connection := .connectionLost error }
  | .kicked reason => { s with kicked := some reason }
  | .permissionDenied _ | .elevatedChanged _ | .welcomeMessageReceived _ => s

/-! ## Room events -/

/-- The users in a room, without the own one. -/
def roomUserIds (s : ClientState) (room : Uuid) (exclude : Option UserId) : List UserId :=
  (s.users.filter fun u => u.currentRoom == room && some u.userId != exclude).map User.userId

/-- Edit the first room with this id. -/
def editRoom (s : ClientState) (room : Uuid) (f : Room → Room) : ClientState :=
  { s with rooms := modifyFirst (fun r => r.id == room) f s.rooms }

/-- Edit the first user with this id. -/
def editUser (s : ClientState) (userId : UserId) (f : User → User) : ClientState :=
  { s with users := modifyFirst (fun u => u.userId == userId) f s.users }

/-- The client itself is in another room. -/
def enterRoom (s : ClientState) (room : Uuid) : ClientState × List Effect :=
  let s := { s with myRoomId := some room }
  (s.recomputeEffectivePermissions,
    [.roomChanged (s.roomUserIds room s.myUserId), .setRoomId room])

def replaceFullState (s : ClientState) (rooms : List Room) (users : List User)
    (groups : List Group) (slashCommands : List SlashCommand)
    (perRoomPermissions : Table Uuid (BitVec 32)) : ClientState × List Effect :=
  let s := adoptRoomPermissions { s with
    perRoomPermissions := perRoomPermissions
    rooms := rooms
    users := users
    groupDefinitions := groups
    slashCommands := slashCommands }
  let roomChanged := s.myRoomId.map fun room => Effect.roomChanged (s.roomUserIds room s.myUserId)
  let muted := (s.myUserId.bind (findUser s.users)).map fun u => Effect.setServerMuted u.serverMuted
  (s.recomputeEffectivePermissions, roomChanged.toList ++ muted.toList)

/-- A user that is listed already is not added again. -/
def addUser (s : ClientState) (user : User) : ClientState × List Effect :=
  if s.users.any (fun u => u.userId == user.userId) then (s, [])
  else ({ s with users := s.users ++ [user] },
    if s.myRoomId = some user.currentRoom then [.userJoinedRoom user.userId] else [])

def removeUser (s : ClientState) (userId : UserId) : ClientState × List Effect :=
  let wasInOurRoom := match findUser s.users userId with
    | some u => some u.currentRoom == s.myRoomId
    | none => false
  ({ s with users := s.users.filter fun u => u.userId ≠ userId },
    if wasInOurRoom then [.userLeftRoom userId] else [])

/-- An absent destination is Root for the roster, and no destination for the client itself. -/
def moveUser (s : ClientState) (userId : UserId) (room : Option Uuid) :
    ClientState × List Effect :=
  let fromRoom := (findUser s.users userId).map User.currentRoom
  let s := s.editUser userId fun u => { u with currentRoom := room.getD rootRoomUuid }
  if s.myUserId = some userId then
    match room with
    | some room => s.enterRoom room
    | none => (s, [])
  else if s.myRoomId.isSome && room == s.myRoomId then (s, [.userJoinedRoom userId])
  else if s.myRoomId.isSome && fromRoom == s.myRoomId then (s, [.userLeftRoom userId])
  else (s, [])

def setUserStatus (s : ClientState) (userId : UserId)
    (isMuted isDeafened serverMuted isElevated : Bool) : ClientState × List Effect :=
  match findUser s.users userId with
  | none => (s, [])
  | some user =>
    let s' := s.editUser userId fun u => { u with
      isMuted := isMuted
      isDeafened := isDeafened
      serverMuted := serverMuted
      isElevated := isElevated }
    if s.myUserId = some userId then
      (if user.isElevated ≠ isElevated then s'.recomputeEffectivePermissions else s',
        if user.serverMuted ≠ serverMuted then [.setServerMuted serverMuted] else [])
    else (s', [])

def setUserGroup (s : ClientState) (userId : UserId) (group : String) (added : Bool) :
    ClientState :=
  match findUser s.users userId with
  | none => s
  | some user =>
    let groups := if added then pushGroup user.groups group else user.groups.filter (· ≠ group)
    let s' := s.editUser userId fun u => { u with groups := groups }
    if groups.length ≠ user.groups.length ∧ s.myUserId = some userId then
      s'.recomputeEffectivePermissions
    else s'

/-- The first definition of the name is replaced in place, a new name is added. -/
def upsertGroup (s : ClientState) (group : Group) : ClientState :=
  recomputeEffectivePermissions { s with
    groupDefinitions := (modifyFirst? (fun g => g.name == group.name) (fun _ => group)
      s.groupDefinitions).getD (s.groupDefinitions ++ [group]) }

/-- What the client hashes to compare with the server. -/
def hashInput (s : ClientState) : ServerStateMsg :=
  stateHashInput
    { rooms := s.rooms.map Room.toHashInput
      users := s.users.map User.toProto
      groups := []
      slashCommands := [] }

def applyRoom (s : ClientState) : RoomEvent → ClientState × List Effect
  | .stateHashCheckpoint expected =>
    (s, if s.hashInput ≠ expected then [.requestStateSync] else [])
  | .fullStateReplaced rooms users groups slashCommands perRoomPermissions =>
    s.replaceFullState rooms users groups slashCommands perRoomPermissions
  | .roomAdded room => (recomputeEffectivePermissions { s with rooms := s.rooms ++ [room] }, [])
  | .roomRemoved roomId =>
    (recomputeEffectivePermissions { s with rooms := s.rooms.filter fun r => r.id ≠ roomId }, [])
  | .roomRenamed roomId name => (s.editRoom roomId fun r => { r with name := name }, [])
  | .roomMoved roomId newParent =>
    (s.editRoom roomId fun r => { r with parent := newParent.getD rootRoomUuid }, [])
  | .roomDescriptionSet roomId description =>
    (s.editRoom roomId fun r => { r with description := description }, [])
  | .roomAclChanged roomId inheritAcl acls =>
    ((s.editRoom roomId fun r => { r with inheritAcl := inheritAcl, acls := acls
      }).recomputeEffectivePermissions, [])
  | .userJoined user => s.addUser user
  | .userLeft userId => s.removeUser userId
  | .userMoved userId roomId => s.moveUser userId roomId
  | .userStatusChanged userId isMuted isDeafened serverMuted isElevated =>
    s.setUserStatus userId isMuted isDeafened serverMuted isElevated
  | .userGroupChanged userId group added => (s.setUserGroup userId group added, [])
  | .groupAdded group | .groupModified group => (s.upsertGroup group, [])
  | .groupRemoved name =>
    (recomputeEffectivePermissions { s with
      groupDefinitions := s.groupDefinitions.filter fun g => g.name ≠ name }, [])
  | .registeredUsersReplaced users => ({ s with registeredUsers := users }, [])
  | .selfMovedToRoom roomId => s.enterRoom roomId

end ClientState

/-! ## Translation of server messages -/

/-- The permissions the server computed, by room. -/
def serverPermissions (rooms : List Room) : Table Uuid (BitVec 32) :=
  rooms.foldl (fun map r => map.set r.id r.effectivePermissions) ∅

/-- A full state as an event; records without an id are dropped. -/
def fullState (m : ServerStateMsg) : RoomEvent :=
  let rooms := m.rooms.filterMap Room.fromProto
  .fullStateReplaced rooms (m.users.filterMap User.fromProto) m.groups m.slashCommands
    (serverPermissions rooms)

/-- The event of an update, when its ids are there. -/
def updateEvent : Update → Option RoomEvent
  | .roomCreated room => (room.bind Room.fromProto).map .roomAdded
  | .roomDeleted roomId _ => (roomId.bind uuidFromRoomId).map .roomRemoved
  | .roomRenamed roomId newName => (roomId.bind uuidFromRoomId).map (.roomRenamed · newName)
  | .roomMoved roomId newParentId =>
    (roomId.bind uuidFromRoomId).map (.roomMoved · (newParentId.bind uuidFromRoomId))
  | .roomDescriptionChanged roomId description =>
    (roomId.bind uuidFromRoomId).map
      (.roomDescriptionSet · (if description.isEmpty then none else some description))
  | .userJoined user => (user.bind User.fromProto).map .userJoined
  | .userLeft userId => userId.map .userLeft
  | .userMoved userId toRoomId =>
    match userId, toRoomId with
    | some userId, some toRoom => some (.userMoved userId (uuidFromRoomId toRoom))
    | _, _ => none
  | .userStatusChanged userId isMuted isDeafened serverMuted isElevated =>
    userId.map (.userStatusChanged · isMuted isDeafened serverMuted isElevated)
  | .groupChanged group deleted =>
    if deleted then group.map fun g => .groupRemoved g.name else group.map .groupModified
  | .userGroupChanged userId group added _ => some (.userGroupChanged userId group added)
  | .roomAclChanged roomId inheritAcl entries =>
    (roomId.bind uuidFromRoomId).map (.roomAclChanged · inheritAcl entries)

/-- `apply_state_update`: the event, then the checkpoint. -/
def roomEvents (expectedHash : ServerStateMsg) (u : Update) : List RoomEvent :=
  (updateEvent u).toList ++ [.stateHashCheckpoint expectedHash]

end Rumble.Client
