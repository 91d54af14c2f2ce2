import Mathlib.Data.List.Sort
import Mathlib.Data.List.Basic
import Mathlib.Order.Lex
import Mathlib.Data.List.Lex
import Mathlib.Algebra.Group.Nat.Defs
import Mathlib.Algebra.Group.Int.Defs

/-!
# Domain and wire types

The hand-written domain types of `rumble-protocol/src/types.rs` and the prost wire types they are
converted from and to. Wire records keep proto3 presence (`Option`) and ids as raw bytes; domain
records carry a plain `Uuid` and a real parent. `Room.fromProto`/`Room.toProto` and their `User`
counterparts are the only boundary between the two.
-/

namespace Rumble

/-! ## Fixed-size byte arrays -/

/-- A byte array `[u8; n]`. -/
structure Bytes (n : Nat) where
  data : List UInt8
  size : data.length = n
  deriving DecidableEq

namespace Bytes

/-- `<[u8; n]>::try_from(slice)`: fails on a wrong length. -/
def ofList? (n : Nat) (l : List UInt8) : Option (Bytes n) :=
  if h : l.length = n then some ⟨l, h⟩ else none

/-- Every byte equal to `b`. -/
def rep (n : Nat) (b : UInt8) : Bytes n := ⟨List.replicate n b, List.length_replicate⟩

@[simp] theorem ofList?_data {n : Nat} (b : Bytes n) : ofList? n b.data = some b := by
  simp [ofList?, b.size]

theorem data_inj {n : Nat} {a b : Bytes n} (h : a.data = b.data) : a = b := by
  cases a; cases b; cases h; rfl

end Bytes

abbrev Uuid := Bytes 16

instance : LawfulBEq Uuid := inferInstance

abbrev PublicKey := Bytes 32

abbrev Nonce := Bytes 32

abbrev UserId := Nat

/-- The Root room UUID (all zeros). -/
def rootRoomUuid : Uuid := Bytes.rep 16 0

/-- The bytes of a byte string as numbers; slices compare lexicographically on these. -/
def byteKey (l : List UInt8) : List Nat := l.map UInt8.toNat

/-! ## Wire ids -/

/-- `proto::RoomId`: the uuid field is any byte string. -/
structure RoomId where
  uuid : List UInt8
  deriving DecidableEq

def roomIdFromUuid (u : Uuid) : RoomId := ⟨u.data⟩

/-- `none` when the uuid field is not exactly 16 bytes. -/
def uuidFromRoomId (r : RoomId) : Option Uuid := Bytes.ofList? 16 r.uuid

@[simp] theorem uuidFromRoomId_roomIdFromUuid (u : Uuid) :
    uuidFromRoomId (roomIdFromUuid u) = some u := Bytes.ofList?_data u

/-! ## Rooms -/

/-- One grant/deny ACL delta on a room (the wire entry has the same fields). -/
structure RoomAclEntry where
  group : String
  grant : BitVec 32
  deny : BitVec 32
  applyHere : Bool
  applySubs : Bool
  deriving DecidableEq

structure Room where
  id : Uuid
  name : String
  parent : Uuid
  description : Option String
  inheritAcl : Bool
  acls : List RoomAclEntry
  effectivePermissions : BitVec 32
  deriving DecidableEq

/-- `proto::RoomInfo`. -/
structure RoomInfo where
  id : Option RoomId
  name : String
  parentId : Option RoomId
  description : Option String
  inheritAcl : Bool
  acls : List RoomAclEntry
  effectivePermissions : BitVec 32
  deriving DecidableEq

namespace Room

def isRoot (r : Room) : Bool := r.id == rootRoomUuid

def isTopLevel (r : Room) : Bool := r.parent == rootRoomUuid

/-- A missing or malformed id drops the record; a missing or malformed parent means Root. -/
def fromProto (p : RoomInfo) : Option Room :=
  (p.id.bind uuidFromRoomId).map fun id =>
    { id := id
      name := p.name
      parent := (p.parentId.bind uuidFromRoomId).getD rootRoomUuid
      description := p.description
      inheritAcl := p.inheritAcl
      acls := p.acls
      effectivePermissions := p.effectivePermissions }

/-- The canonical wire encoding: a Root parent is an absent `parent_id`. -/
def toProto (r : Room) : RoomInfo where
  id := some (roomIdFromUuid r.id)
  name := r.name
  parentId := if r.parent ≠ rootRoomUuid then some (roomIdFromUuid r.parent) else none
  description := r.description
  inheritAcl := r.inheritAcl
  acls := r.acls
  effectivePermissions := r.effectivePermissions

/-- The state-hash encoding: `toProto` with the per-client permissions zeroed. -/
def toHashInput (r : Room) : RoomInfo := { r.toProto with effectivePermissions := 0 }

@[simp] theorem fromProto_toProto (r : Room) : fromProto r.toProto = some r := by
  obtain ⟨id, name, parent, description, inheritAcl, acls, eff⟩ := r
  by_cases h : parent = rootRoomUuid <;> simp [fromProto, toProto, h]

theorem toProto_inj {a b : Room} (h : a.toProto = b.toProto) : a = b := by
  have : fromProto a.toProto = fromProto b.toProto := by rw [h]
  simpa using this

end Room

/-! ## Users -/

structure User where
  userId : UserId
  username : String
  currentRoom : Uuid
  isMuted : Bool
  isDeafened : Bool
  serverMuted : Bool
  isElevated : Bool
  groups : List String
  label : Option String
  deriving DecidableEq

/-- `proto::User`. -/
structure UserInfo where
  userId : Option UserId
  username : String
  currentRoom : Option RoomId
  isMuted : Bool
  isDeafened : Bool
  serverMuted : Bool
  isElevated : Bool
  groups : List String
  label : Option String
  deriving DecidableEq

namespace User

/-- A record with no user id is dropped; a missing room means Root. -/
def fromProto (p : UserInfo) : Option User :=
  p.userId.map fun uid =>
    { userId := uid
      username := p.username
      currentRoom := (p.currentRoom.bind uuidFromRoomId).getD rootRoomUuid
      isMuted := p.isMuted
      isDeafened := p.isDeafened
      serverMuted := p.serverMuted
      isElevated := p.isElevated
      groups := p.groups
      label := p.label }

def toProto (u : User) : UserInfo where
  userId := some u.userId
  username := u.username
  currentRoom := some (roomIdFromUuid u.currentRoom)
  isMuted := u.isMuted
  isDeafened := u.isDeafened
  serverMuted := u.serverMuted
  isElevated := u.isElevated
  groups := u.groups
  label := u.label

@[simp] theorem fromProto_toProto (u : User) : fromProto u.toProto = some u := by
  simp [fromProto, toProto]

theorem toProto_inj {a b : User} (h : a.toProto = b.toProto) : a = b := by
  have : fromProto a.toProto = fromProto b.toProto := by rw [h]
  simpa using this

end User

/-! ## Groups, commands, the full state and its updates -/

/-- A server-wide permission group (the wire record has the same fields). -/
structure Group where
  name : String
  permissions : BitVec 32
  isBuiltin : Bool
  deriving DecidableEq

structure SlashCommand where
  name : String
  description : String
  deriving DecidableEq

/-- `proto::ServerState`. -/
structure ServerStateMsg where
  rooms : List RoomInfo
  users : List UserInfo
  groups : List Group
  slashCommands : List SlashCommand
  deriving DecidableEq

/-- `proto::state_update::Update`. -/
inductive Update where
  | userMoved (userId : Option UserId) (toRoomId : Option RoomId)
  | userJoined (user : Option UserInfo)
  | userLeft (userId : Option UserId)
  | roomCreated (room : Option RoomInfo)
  | roomDeleted (roomId fallbackRoomId : Option RoomId)
  | roomRenamed (roomId : Option RoomId) (newName : String)
  | roomMoved (roomId newParentId : Option RoomId)
  | roomDescriptionChanged (roomId : Option RoomId) (description : String)
  | userStatusChanged (userId : Option UserId) (isMuted isDeafened serverMuted isElevated : Bool)
  | groupChanged (group : Option Group) (deleted : Bool)
  | userGroupChanged (userId : UserId) (group : String) (added : Bool) (expiresAt : Nat)
  | roomAclChanged (roomId : Option RoomId) (inheritAcl : Bool) (entries : List RoomAclEntry)
  deriving DecidableEq

/-! ## The state-hash input -/

/-- The sort key of a wire room: its uuid bytes, empty when absent. -/
def RoomInfo.sortKey (r : RoomInfo) : List Nat := byteKey ((r.id.map RoomId.uuid).getD [])

/-- The sort key of a wire user: its id, 0 when absent. -/
def UserInfo.sortKey (u : UserInfo) : Nat := u.userId.getD 0

/-- The message `compute_server_state_hash` encodes and hashes: groups and slash commands cleared,
rooms sorted by uuid bytes and users by id (both sorts stable). -/
def stateHashInput (s : ServerStateMsg) : ServerStateMsg where
  rooms := s.rooms.insertionSort (fun a b => a.sortKey ≤ b.sortKey)
  users := s.users.insertionSort (fun a b => a.sortKey ≤ b.sortKey)
  groups := []
  slashCommands := []

end Rumble
