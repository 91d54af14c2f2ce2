import Rumble.Server.State
import Mathlib.Data.List.Destutter

/-!
# Server-side permission evaluation

`server/src/acl.rs`: the group list of an identity, the room chain from Root to a room, and the
permissions they give.
-/

namespace Rumble

/-- Push a group unless it is already listed. -/
def pushGroup (groups : List String) (g : String) : List String :=
  if g ∈ groups then groups else groups ++ [g]

/-- "default", the assigned groups, then an optional implicit group, without repetition. -/
def userGroupList (assigned : List String) (implicit : Option String) : List String :=
  implicit.toList.foldl pushGroup (assigned.foldl pushGroup ["default"])

/-- The parent link of the first room with this id. -/
def parentLink (rooms : List Room) (u : Uuid) : Option Uuid :=
  (rooms.find? fun r => r.id == u).map Room.parent

/-- Root-first order, Root put in front when the walk did not reach it, adjacent repeats removed. -/
def finishChain (path : List Uuid) : List Uuid :=
  let path := path.reverse
  let path := if path.head? = some rootRoomUuid then path else rootRoomUuid :: path
  path.destutter (· ≠ ·)

namespace Server

/-- The upward walk from `current`; `fuel` bounds the number of rooms pushed. -/
def walkUp (rooms : List Room) : Nat → Uuid → List Uuid
  | 0, _ => []
  | fuel + 1, current =>
    current ::
      if current = rootRoomUuid then []
      else match parentLink rooms current with
        | some parent => walkUp rooms fuel parent
        | none => []

/-- The loop stops once the path is longer than `rooms.len() + 1`. -/
def roomPath (rooms : List Room) (target : Uuid) : List Uuid :=
  finishChain (walkUp rooms (rooms.length + 2) target)

def decodeAcl (acl : PersistedRoomAcl) : RoomAclData where
  inheritAcl := acl.inheritAcl
  entries := acl.entries.map AclEntry.ofRoomEntry

def buildRoomChainOwned (rooms : List Room) (store : Persistence) (target : Uuid) :
    List (Uuid × Option RoomAclData) :=
  (roomPath rooms target).map fun u => (u, (store.getRoomAcl u).map decodeAcl)

/-- Core ACL evaluation, on an identity and a superuser flag. The implicit group is the verified
username, never the display name. -/
def evaluateIdentityPermissions (rooms : List Room) (store : Persistence) (isSuperuser : Bool)
    (identity : Identity) (room : Uuid) : Permissions :=
  effectivePermissions (userGroupList identity.groups identity.verifiedUsername) store.groupPerms
    (buildRoomChainOwned rooms store room) isSuperuser

/-- Permissions of the connection behind a stream, with that stream's superuser flag. -/
def evaluateUserPermissions (s : ServerState) (store : Persistence) (sender : HandleId)
    (room : Uuid) : Permissions :=
  evaluateIdentityPermissions s.data.rooms store (s.handle sender).isSuperuser
    (s.conn sender.user).identity room

/-- Permissions of a roster member, client or participant. -/
def evaluateMemberPermissions (s : ServerState) (store : Persistence) (userId : UserId)
    (member : Member) (room : Uuid) : Permissions :=
  evaluateIdentityPermissions s.data.rooms store (s.memberIsSuperuser userId member)
    (s.memberIdentity userId member) room

end Server

end Rumble
