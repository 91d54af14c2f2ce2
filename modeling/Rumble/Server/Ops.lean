import Rumble.Server.World

/-!
# Mutation cores

`server/src/ops.rs`, with the teardown, eviction and participant operations of
`server/src/handlers.rs` they share. Each `apply*` runs after authorization: it persists, mutates
the state and broadcasts, and returns its user-facing outcome with the new world.
-/

namespace Rumble.Server

open Rumble.Lib

/-- The outcome of an operation (`Err` carries the message shown to the user) and the new world. -/
abbrev OpResult := Except String String × World

/-- Built-in group names that may not be created or deleted. -/
def builtinGroups : List String := ["default", "admin"]

namespace World

/-! ## Teardown -/

/-- One participant of a departing controller. -/
def cleanupParticipant (w : World) (vuId : UserId) : World :=
  if (w.state.removeClient vuId).1 then
    let w := w.mapState fun s => (s.removeClient vuId).2
    let w := w.mapData (·.removeUserMembership vuId)
    w.broadcastStateUpdate (.userLeft (some vuId))
  else w

/-- The participants of a departing client, when it is a controller. -/
def cleanupParticipants (w : World) (userId : UserId) (isController : Bool) : World :=
  if isController then (w.state.membersByOwner (.connection userId)).foldl cleanupParticipant w
  else w

/-- Remove a client, its participants if it is a controller, and announce the departure once. -/
def cleanupClient (w : World) (userId : UserId) : World :=
  let isController := (w.state.handle (primary userId)).isController
  let w := w.cleanupParticipants userId isController
  let wasPresent := (w.state.removeClient userId).1
  let w := w.mapState (·.forgetClient userId)
  if wasPresent && (w.state.conn userId).authenticated && !isController then
    w.broadcastStateUpdate (.userLeft (some userId))
  else w

/-- Close a connection from the server side. -/
def closeConn (w : World) (userId : UserId) : World :=
  w.mapState (·.setConn userId fun c => { c with closed := true })

/-- `begin_teardown`: whether this call claimed the teardown, and the world after it. -/
def beginTeardown (w : World) (userId : UserId) : Bool × World :=
  if (w.state.handle (primary userId)).tornDown then (false, w)
  else (true, w.mapState (·.setHandle (primary userId) fun h => { h with tornDown := true }))

/-- One candidate of the session takeover. -/
def evictOne (username : String) (newUserId : UserId) (w : World) (oldId : UserId) : World :=
  if oldId = newUserId then w
  else if !w.state.getClient oldId then w
  else if (w.state.conn oldId).identity.displayName ≠ username then w
  else
    let (claimed, w) := w.beginTeardown oldId
    if !claimed then w
    else
      let w := w.sendFrame (primary oldId)
        (.userKicked oldId "Superseded by a new login with the same identity" "server")
      (w.closeConn oldId).cleanupClient oldId

/-- Evict live connections with the same key and display name as a fresh login. -/
def evictSupersededSessions (w : World) (publicKey : PublicKey) (username : String)
    (newUserId : UserId) : World :=
  (w.state.userIdsWithKey publicKey).foldl (evictOne username newUserId) w

/-! ## User moderation -/

/-- Why a target has no moderatable connection. -/
def notAClientReason (w : World) (target : UserId) (action : String) : String :=
  if (w.state.getMember target).isSome then
    "Cannot " ++ action ++
      " a controller-driven participant directly; moderate it through its controller"
  else "User not found"

def displayNameOf (w : World) (userId : UserId) : String :=
  (w.state.conn userId).identity.displayName

def applyKick (w : World) (target : UserId) (reason actor : String) : OpResult :=
  if !w.state.getClient target then (.error (w.notAClientReason target "kick"), w)
  else if (w.state.handle (primary target)).isSuperuser then (.error "Cannot kick a superuser", w)
  else if (w.state.handle (primary target)).isController then
    (.error "Cannot kick a bridge connection", w)
  else
    let targetUsername := w.displayNameOf target
    let w := w.sendFrame (primary target) (.userKicked target reason actor)
    (.ok ("Kicked '" ++ targetUsername ++ "'"), (w.closeConn target).cleanupClient target)

/-- The "banned" group is created when missing; an existing one is left as it is. -/
def ensureBannedGroup (store : Persistence) : Persistence :=
  if (store.getGroup "banned").isNone then store.createGroup "banned" Permissions.banned else store

/-- The store writes of a ban: the membership, then the record. -/
def recordBan (store : Persistence) (key : PublicKey) (ban : PersistedBan) : Persistence :=
  (store.addUserToGroup key "banned").setBan key ban

def durationDesc (durationSeconds : Nat) : String :=
  if durationSeconds = 0 then "permanent" else toString durationSeconds ++ "s"

def banReason (actor reason : String) (durationSeconds : Nat) : String :=
  if reason.isEmpty then "Banned by " ++ actor ++ " (" ++ durationDesc durationSeconds ++ ")"
  else "Banned by " ++ actor ++ " (" ++ durationDesc durationSeconds ++ "): " ++ reason

/-- `durationSeconds = 0` is a permanent ban. -/
def applyBan (w : World) (env : Env) (target : UserId) (durationSeconds : Nat)
    (reason actor : String) : OpResult :=
  if !w.state.getClient target then (.error (w.notAClientReason target "ban"), w)
  else if (w.state.handle (primary target)).isSuperuser then (.error "Cannot ban a superuser", w)
  else if (w.state.handle (primary target)).isController then
    (.error "Cannot ban a bridge connection", w)
  else
    let w := w.mapStore ensureBannedGroup
    match w.state.getUserPublicKey target with
    | none => (.error "Cannot resolve user's public key", w)
    | some targetKey =>
      let w := w.mapStore fun store => recordBan store targetKey
        { bannedAtSecs := some env.nowSecs
          durationSeconds := durationSeconds
          reason := reason
          bannedBy := actor }
      let w := w.mapState (·.setIdentity target fun i =>
        { i with groups := pushGroup i.groups "banned" })
      let targetUsername := w.displayNameOf target
      let w := w.sendFrame (primary target)
        (.userKicked target (banReason actor reason durationSeconds) actor)
      (.ok ("Banned '" ++ targetUsername ++ "' (" ++ durationDesc durationSeconds ++ ")"),
        (w.closeConn target).cleanupClient target)

/-! ## User registration -/

def applyRegisterUser (w : World) (target : UserId) : OpResult :=
  match w.state.getUserPublicKey target with
  | none => (.error "User not found", w)
  | some targetKey =>
    if !w.state.getClient target then (.error "User not found", w)
    else
      let username := w.displayNameOf target
      if (w.store.getRegisteredUser targetKey).isSome then (.error "User already registered", w)
      else if builtinGroups.contains username || (w.store.getGroup username).isSome then
        (.error "Username conflicts with an existing permission group", w)
      else
        (.ok ("Registered '" ++ username ++ "' successfully"),
          w.mapStore (·.registerUser targetKey { username := username, lastRoom := none }))

def applyUnregisterUser (w : World) (target : UserId) : OpResult :=
  match w.state.getUserPublicKey target with
  | none => (.error "User not found", w)
  | some targetKey =>
    let username := if w.state.getClient target then w.displayNameOf target else "user"
    (.ok ("Unregistered '" ++ username ++ "' successfully"),
      w.mapStore (·.unregisterUser targetKey))

/-! ## Rooms -/

/-- Re-evaluate SPEAK of a member in a room and refresh its server-mute, announcing a change.
A no-op for participants. -/
def reevaluateMemberMute (w : World) (memberId : UserId) (room : Uuid) : World :=
  if !w.state.getClient memberId then w
  else
    let h := primary memberId
    let speakDenied :=
      !(evaluateUserPermissions w.state w.store h room).contains Permissions.speak
    let shouldMute := speakDenied || (w.state.handle h).manuallyServerMuted
    if shouldMute = (w.state.handle h).serverMuted then w
    else
      let w := w.mapState (·.setHandle h fun c => { c with serverMuted := shouldMute })
      let status := w.state.data.getUserStatus memberId
      w.broadcastStateUpdate (.userStatusChanged (some memberId) status.isMuted status.isDeafened
        shouldMute (w.state.handle h).isSuperuser)

/-- The new room's UUID. An unknown parent is rejected; an absent one is Root. -/
def applyCreateRoom (w : World) (env : Env) (name : String) (parentUuid : Option Uuid)
    (description : Option String) : Except String Uuid × World :=
  if parentUuid.any fun parent => !w.state.data.roomExists parent then
    (.error "Parent room does not exist", w)
  else
    let parent := parentUuid.getD rootRoomUuid
    let w := w.mapData (·.createRoomWithParentDesc env.newUuid name parent description)
    let w := w.mapStore (·.saveRoom env.newUuid
      { name := name, parent := parentUuid, description := description.getD "", permanent := true })
    let room : Room :=
      { id := env.newUuid
        name := name
        parent := parent
        description := description
        inheritAcl := true
        acls := []
        effectivePermissions := 0 }
    (.ok env.newUuid, w.broadcastStateUpdate (.roomCreated (some room.toProto)))

/-- One child of a deleted room moves to the deleted room's parent. -/
def reparentChild (newParent : Uuid) (w : World) (child : Uuid) : World :=
  let w := w.mapData fun d => (d.moveRoom child newParent).getD d
  let w := w.mapStore (·.updateRoom child fun r => { r with parent := some newParent })
  w.broadcastStateUpdate
    (.roomMoved (some (roomIdFromUuid child)) (some (roomIdFromUuid newParent)))

def roomNameOr (w : World) (room : Uuid) (fallback : String) : String :=
  ((w.state.data.findRoom room).map Room.name).getD fallback

/-- The direct children of a room that is about to be deleted. -/
def reparentChildren (w : World) (room : Uuid) : World :=
  match w.state.data.roomParentAndChildren room with
  | some (newParent, children) => children.foldl (reparentChild newParent) w
  | none => w

/-- The deleted room's name. Children are re-parented first, members end up in Root. -/
def applyDeleteRoom (w : World) (room : Uuid) : OpResult :=
  if room = rootRoomUuid then (.error "Cannot delete the Root room", w)
  else
    let roomName := w.roomNameOr room "room"
    let w := w.reparentChildren room
    let displacedMembers := w.state.data.getRoomMembers room
    match w.state.data.deleteRoom room with
    | none => (.error "Room not found", w)
    | some data =>
      let w := w.mapData fun _ => data
      let w := w.mapStore fun store => (store.deleteRoom room).deleteRoomAcl room
      let w := w.broadcastStateUpdate
        (.roomDeleted (some (roomIdFromUuid room)) (some (roomIdFromUuid rootRoomUuid)))
      (.ok roomName, displacedMembers.foldl (fun w m => w.reevaluateMemberMute m rootRoomUuid) w)

/-! ## Permission groups -/

def broadcastGroup (w : World) (name : String) (permissions : BitVec 32) (isBuiltin : Bool)
    (deleted : Bool) : World :=
  w.broadcastStateUpdate (.groupChanged
    (some { name := name, permissions := permissions, isBuiltin := isBuiltin }) deleted)

def applyCreateGroup (w : World) (name : String) (permissions : BitVec 32) : OpResult :=
  if name.isEmpty then (.error "Group name cannot be empty", w)
  else if name.toList.contains ':' then (.error "Group name cannot contain ':'", w)
  else if builtinGroups.contains name then (.error "Cannot create built-in groups", w)
  else if (w.store.getGroup name).isSome then (.error "Group already exists", w)
  else if w.store.isUsernameRegistered name then
    (.error "Group name conflicts with a registered username", w)
  else
    (.ok ("Created group '" ++ name ++ "'"),
      (w.mapStore (·.createGroup name permissions)).broadcastGroup name permissions false false)

/-- Scrub a group from one connected client, announcing it when it was there. -/
def scrubGroup (name : String) (w : World) (userId : UserId) : World :=
  if (w.state.conn userId).identity.groups.contains name then
    let w := w.mapState (·.setIdentity userId fun i =>
      { i with groups := i.groups.filter (· ≠ name) })
    w.broadcastStateUpdate (.userGroupChanged userId name false 0)
  else w

def applyDeleteGroup (w : World) (name : String) : OpResult :=
  if builtinGroups.contains name then (.error "Cannot delete built-in groups", w)
  else
    let w := w.state.snapshotClients.foldl (scrubGroup name) w
    let w := w.mapStore fun store => (store.removeGroupFromAllUsers name).deleteGroup name
    (.ok ("Deleted group '" ++ name ++ "'"), w.broadcastGroup name 0 false true)

def applyModifyGroup (w : World) (name : String) (permissions : BitVec 32) : OpResult :=
  match w.store.modifyGroup name permissions with
  | none => (.error "Group not found", w)
  | some store =>
    (.ok ("Modified group '" ++ name ++ "'"),
      (w.mapStore fun _ => store).broadcastGroup name permissions (builtinGroups.contains name)
        false)

def applyToggleGroupPermission (w : World) (name : String) (bits : BitVec 32) (enable : Bool) :
    OpResult :=
  if bits = 0 then (.error "No permission bits specified", w)
  else if (Permissions.fromBits bits).isNone then (.error "Unknown permission bits", w)
  else match w.store.toggleGroupPermission name bits enable with
    | none => (.error "Group not found", w)
    | some (newPermissions, store) =>
      (.ok ("Modified group '" ++ name ++ "'"),
        (w.mapStore fun _ => store).broadcastGroup name newPermissions
          (builtinGroups.contains name) false)

/-- Mirror a membership change onto one live connection, if it holds the key. -/
def mirrorGroup (key : PublicKey) (group : String) (add : Bool) (expiresAt : Nat) (w : World)
    (userId : UserId) : World :=
  if w.state.getUserPublicKey userId ≠ some key then w
  else
    let w := w.mapState (·.setIdentity userId fun i => { i with
      groups := if add then pushGroup i.groups group else i.groups.filter (· ≠ group) })
    w.broadcastStateUpdate (.userGroupChanged userId group add expiresAt)

/-- Persist a membership change of a key and mirror it onto every live connection of that key. -/
def applySetUserGroupByKey (w : World) (key : PublicKey) (group : String) (add : Bool)
    (expiresAt : Nat) : OpResult :=
  if add && w.store.isUsernameRegistered group then
    (.error ("'" ++ group ++ "' is a registered username, not a group"), w)
  else if add && !builtinGroups.contains group && (w.store.getGroup group).isNone then
    (.error ("Group '" ++ group ++ "' does not exist"), w)
  else
    let w := w.mapStore fun store =>
      if add then store.addUserToGroupWithExpiry key group expiresAt
      else store.removeUserFromGroup key group
    let w := w.state.snapshotClients.foldl (mirrorGroup key group add expiresAt) w
    (.ok ((if add then "Added" else "Removed") ++ " user " ++ (if add then "to" else "from") ++
      " group '" ++ group ++ "'"), w)

def applySetUserGroup (w : World) (target : UserId) (group : String) (add : Bool)
    (expiresAt : Nat) : OpResult :=
  match w.state.getUserPublicKey target with
  | none => (.error "User is not connected", w)
  | some key => w.applySetUserGroupByKey key group add expiresAt

/-- One lapsed membership of the periodic sweep. -/
def mirrorExpired (w : World) (expired : PublicKey × String) : World :=
  w.state.snapshotClients.foldl (mirrorGroup expired.1 expired.2 false 0) w

/-- The periodic task: expired bans, then expired memberships. -/
def sweepExpired (w : World) (env : Env) : World :=
  let w := w.mapStore fun store => (store.sweepExpiredBans env.nowSecs).2
  let (expired, store) := w.store.sweepExpiredMemberships env.nowSecs
  expired.foldl mirrorExpired (w.mapStore fun _ => store)

/-! ## Room ACLs -/

def aclConflictMsg : String :=
  "Room ACL changed while you were editing — reopen the editor to load the latest rules and retry"

def currentRoomAclVersion (cfg : Config) (store : Persistence) (room : Uuid) : Nat :=
  match store.getRoomAcl room with
  | some acl => roomAclVersion cfg.blake3 acl.inheritAcl acl.entries
  | none => roomAclVersion cfg.blake3 true []

/-- `baseVersion = 0` is an unversioned write. Members of this room have SPEAK re-evaluated. -/
def applySetRoomAcl (cfg : Config) (w : World) (room : Uuid) (inheritAcl : Bool)
    (entries : List RoomAclEntry) (baseVersion : Nat) : OpResult :=
  if baseVersion ≠ 0 ∧ baseVersion ≠ currentRoomAclVersion cfg w.store room then
    (.error aclConflictMsg, w)
  else match w.state.data.setRoomAcl room inheritAcl entries with
    | none => (.error "Room not found", w)
    | some data =>
      let w := w.mapData fun _ => data
      let w := w.mapStore (·.setRoomAcl room { inheritAcl := inheritAcl, entries := entries })
      let w := w.broadcastStateUpdate
        (.roomAclChanged (some (roomIdFromUuid room)) inheritAcl entries)
      (.ok "Room ACL updated",
        (w.state.data.getRoomMembers room).foldl (fun w m => w.reevaluateMemberMute m room) w)

/-! ## Participants -/

/-- Mint a participant, placed in Root and announced when `present`. -/
def createParticipant (w : World) (owner : OwnerId) (username : String) (label : Option String)
    (verifiedUsername : Option String) (groups : List String) (present : Bool) :
    UserId × World :=
  let userId := w.state.nextUserId
  let identity : Identity :=
    { displayName := username, verifiedUsername := verifiedUsername, label := label,
      groups := groups }
  let w := w.mapState fun s =>
    { s with nextUserId := s.nextUserId + 1 }.registerParticipant userId owner identity
  if present then
    let w := w.mapData (·.setUserRoom userId rootRoomUuid)
    (userId, w.broadcastStateUpdate (.userJoined (some
      { userId := some userId
        username := username
        currentRoom := some (roomIdFromUuid rootRoomUuid)
        isMuted := false
        isDeafened := false
        serverMuted := false
        isElevated := false
        groups := groups
        label := label })))
  else (userId, w)

def removeParticipant (w : World) (userId : UserId) : World :=
  let wasPresent := (w.state.data.getUserRoom userId).isSome
  let w := w.mapState fun s => (s.removeClient userId).2
  let w := w.mapData (·.removeUserMembership userId)
  if wasPresent then w.broadcastStateUpdate (.userLeft (some userId)) else w

/-- Whether the room exists; a first appearance is announced as a join. -/
def moveParticipantToRoom (w : World) (userId : UserId) (room : Uuid) : Bool × World :=
  if !w.state.data.rooms.any (fun r => r.id == room) then (false, w)
  else
    let wasPresent := (w.state.data.getUserRoom userId).isSome
    let w := w.mapData (·.setUserRoom userId room)
    if wasPresent then
      (true, w.broadcastStateUpdate (.userMoved (some userId) (some (roomIdFromUuid room))))
    else match w.state.getMember userId with
      | none => (true, w)
      | some member =>
        let status := w.state.data.getUserStatus userId
        let identity := w.state.memberIdentity userId member
        (true, w.broadcastStateUpdate (.userJoined (some
          { userId := some userId
            username := identity.displayName
            currentRoom := some (roomIdFromUuid room)
            isMuted := status.isMuted
            isDeafened := status.isDeafened
            serverMuted := status.serverMuted
            isElevated := status.isElevated
            groups := identity.groups
            label := identity.label })))

def setParticipantStatusCore (w : World) (userId : UserId) (isMuted isDeafened : Bool) : World :=
  let w := w.mapData (·.setUserStatus userId { isMuted := isMuted, isDeafened := isDeafened })
  w.broadcastStateUpdate (.userStatusChanged (some userId) isMuted isDeafened false false)

end World

end Rumble.Server
