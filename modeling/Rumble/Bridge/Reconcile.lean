import Rumble.Bridge.State
import Rumble.Lib.Breadth
import Mathlib.Data.List.Sort

/-!
# Full-state reconciliation

`mumble-bridge/src/reconcile.rs`: the difference of two full Rumble states as the ordered Mumble
messages that bring connected clients up to date, with the id maps updated on the way.
-/

namespace Rumble.Bridge

open Rumble.Lib

/-- Users that are never shown to Mumble clients. -/
structure SkipRules where
  bridgeUserId : Option UserId
  virtualUserIds : List UserId
  pendingUsernames : List String
  deriving DecidableEq

def SkipRules.skips (skip : SkipRules) (user : User) : Bool :=
  some user.userId == skip.bridgeUserId || skip.virtualUserIds.contains user.userId ||
    skip.pendingUsernames.contains user.username

/-- The rooms keyed by id; of two rooms with one id the later counts. -/
def roomByUuid (rooms : List Room) (uuid : Uuid) : Option Room :=
  rooms.reverse.find? fun r => r.id == uuid

def userById (users : List User) (userId : UserId) : Option User :=
  users.reverse.find? fun u => u.userId == userId

/-- The rooms below a room, in list order. -/
def childRooms (rooms : List Room) (uuid : Uuid) : List Room :=
  rooms.filter fun r => r.id ≠ rootRoomUuid ∧ r.parent = uuid

/-- The breadth-first walk; `fuel` bounds the rooms taken from the queue. -/
def walkRooms (rooms : List Room) : Nat → List Room → List Room :=
  walk fun room => childRooms rooms room.id

/-- Where the walk starts: the Root room, or its children when there is none. -/
def walkStart (rooms : List Room) : List Room :=
  match rooms.find? fun r => r.id == rootRoomUuid with
  | some root => [root]
  | none => childRooms rooms rootRoomUuid

/-- The rooms in the order they are announced, parents first. -/
def roomsInOrder (rooms : List Room) : List Room :=
  walkRooms rooms rooms.length (walkStart rooms)

/-- The upward walk of `old_depth`; it stops once it has taken more steps than there are rooms. -/
def depthFrom (oldRooms : List Room) : Nat → Uuid → Nat
  | 0, _ => 0
  | fuel + 1, cur =>
    if cur = rootRoomUuid then 0
    else match roomByUuid oldRooms cur with
      | some room => depthFrom oldRooms fuel room.parent + 1
      | none => 0

/-- `old_by_uuid.len()` is the number of distinct ids. -/
def oldDepth (oldRooms : List Room) (uuid : Uuid) : Nat :=
  depthFrom oldRooms ((oldRooms.map Room.id).dedup.length + 1) uuid

/-! ## The four phases -/

/-- Proxy sessions that no user of the new state accounts for, by user id. -/
def vanished (newUsers : List User) (users : UserMap) (skip : SkipRules) : List (UserId × UInt32) :=
  let newUserIds := (newUsers.filter fun u => !skip.skips u).map User.userId
  ((UserMap.entries users).filter fun e => e.1 ∉ newUserIds).insertionSort fun a b => a.1 ≤ b.1

/-- The announcement of a room, when it is new or differs from the old one. -/
def channelMessage (oldRooms : List Room) (room : Room) (channelId : UInt32)
    (parent : Option UInt32) : Option SyncMessage :=
  let changed := match roomByUuid oldRooms room.id with
    | none => true
    | some old =>
      old.name != room.name || old.description != room.description || old.parent != room.parent
  if changed then
    some (.channelState
      { channelId := channelId
        parent := parent
        name := some room.name
        description := room.description })
  else none

/-- One room of the walk. -/
def visitRoom (oldRooms : List Room) (acc : List SyncMessage × ChannelMap) (room : Room) :
    List SyncMessage × ChannelMap :=
  let (channelId, channels) := ChannelMap.getOrInsert acc.2 room.id
  if room.id = rootRoomUuid then
    (acc.1 ++ (channelMessage oldRooms room channelId none).toList, channels)
  else
    let (parent, channels) := ChannelMap.getOrInsert channels room.parent
    (acc.1 ++ (channelMessage oldRooms room channelId (some parent)).toList, channels)

/-- Whether a user has to be announced. -/
def userChanged (oldUsers : List User) (users : UserMap) (user : User) : Bool :=
  match UserMap.getMumbleSession users user.userId, userById oldUsers user.userId with
  | none, _ => true
  | some _, none => true
  | some _, some old =>
    old.username != user.username || old.currentRoom != user.currentRoom ||
      old.isMuted != user.isMuted || old.isDeafened != user.isDeafened

/-- One user of the new state. -/
def visitUser (oldUsers : List User) (acc : List SyncMessage × ChannelMap × UserMap) (user : User) :
    List SyncMessage × ChannelMap × UserMap :=
  let (channelId, channels) := ChannelMap.getOrInsert acc.2.1 user.currentRoom
  let changed := userChanged oldUsers acc.2.2 user
  let (session, users) := UserMap.getOrInsert acc.2.2 user.userId
  let message : SyncMessage := .userState
    { session := session
      actor := none
      name := some user.username
      channelId := some channelId
      selfMute := some user.isMuted
      selfDeaf := some user.isDeafened }
  (acc.1 ++ (if changed then [message] else []), channels, users)

/-- The order of the removals: by depth, the deepest first, then by channel id. -/
def RemovedBefore (a b : Nat × UInt32 × Uuid) : Prop := b.1 < a.1 ∨ b.1 = a.1 ∧ a.2.1 ≤ b.2.1

instance : DecidableRel RemovedBefore := fun a b =>
  inferInstanceAs (Decidable (b.1 < a.1 ∨ b.1 = a.1 ∧ a.2.1 ≤ b.2.1))

/-- Mapped channels that the new state has no room for, with their depth in the old tree. -/
def removedChannels (oldRooms newRooms : List Room) (channels : ChannelMap) :
    List (Nat × UInt32 × Uuid) :=
  let removed := channels.forward.toPairs.filter fun e =>
    e.1 ≠ rootRoomUuid ∧ e.1 ∉ newRooms.map Room.id
  (removed.map fun e => (oldDepth oldRooms e.1, e.2, e.1)).insertionSort RemovedBefore

structure ReconcileOutput where
  messages : List SyncMessage
  removedUserIds : List UserId
  channels : ChannelMap
  users : UserMap

def reconcileServerState (oldRooms : List Room) (oldUsers : List User) (newRooms : List Room)
    (newUsers : List User) (channels : ChannelMap) (users : UserMap) (skip : SkipRules) :
    ReconcileOutput :=
  let gone := vanished newUsers users skip
  let users := gone.foldl (fun m e => UserMap.removeByRumbleId m e.1) users
  let removes := gone.map fun e => SyncMessage.userRemove e.2 "Left"
  let (rooms, channels) := (roomsInOrder newRooms).foldl (visitRoom oldRooms) ([], channels)
  let (userStates, channels, users) :=
    (newUsers.filter fun u => !skip.skips u).foldl (visitUser oldUsers) ([], channels, users)
  let removed := removedChannels oldRooms newRooms channels
  { messages := removes ++ rooms ++ userStates ++
      removed.map fun e => SyncMessage.channelRemove e.2.1
    removedUserIds := gone.map Prod.fst
    channels := removed.foldl (fun m e => ChannelMap.removeByUuid m e.2.2) channels
    users := users }

end Rumble.Bridge
