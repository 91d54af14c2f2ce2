import Rumble.Lib.Keyed
import Rumble.Lib.ProtoFields
import Rumble.Protocol.Wire

/-!
# What the state hash is computed from

`compute_server_state_hash` of `rumble-protocol/src/lib.rs` sorts the rooms and the users of a
`ServerState`, drops its groups and slash commands and hashes the protobuf encoding of the rest.
The encodings follow `proto/api.proto` field by field, in the order of the field numbers. With
distinct ids the bytes depend on the rooms and users only as sets (`hashedBytes_perm`); the
permissions of a room are hashed like every other field (`hashedBytes_permissions`).
-/

namespace Rumble

open Lib

/-! ## Encodings -/

def utf8 (s : String) : List UInt8 := s.toUTF8.toList

theorem utf8_empty : utf8 "" = [] := by
  rw [utf8, ByteArray.toList, ByteArray.toList.loop]
  rfl

def RoomId.encode (r : RoomId) : List UInt8 := ProtoField.bytes 1 r.uuid

def RoomAclEntry.encode (e : RoomAclEntry) : List UInt8 :=
  ProtoField.bytes 1 (utf8 e.group) ++
  ProtoField.uint 2 e.grant.toNat ++
  ProtoField.uint 3 e.deny.toNat ++
  ProtoField.bool 4 e.applyHere ++
  ProtoField.bool 5 e.applySubs

/-- A field that is written when it is there. -/
def encodeOptional {α : Type} (field : Nat) (encode : α → List UInt8) (a : Option α) :
    List UInt8 :=
  (a.map fun a => ProtoField.delimited field (encode a)).getD []

/-- Every element is a field of its own. -/
def encodeRepeated {α : Type} (field : Nat) (encode : α → List UInt8) (l : List α) : List UInt8 :=
  l.flatMap fun a => ProtoField.delimited field (encode a)

def RoomInfo.encode (r : RoomInfo) : List UInt8 :=
  encodeOptional 1 RoomId.encode r.id ++
  ProtoField.bytes 2 (utf8 r.name) ++
  encodeOptional 3 RoomId.encode r.parentId ++
  encodeOptional 4 utf8 r.description ++
  ProtoField.bool 5 r.inheritAcl ++
  encodeRepeated 6 RoomAclEntry.encode r.acls ++
  ProtoField.uint 7 r.effectivePermissions.toNat

def UserInfo.encode (u : UserInfo) : List UInt8 :=
  encodeOptional 1 (ProtoField.uint 1) u.userId ++
  ProtoField.bytes 2 (utf8 u.username) ++
  encodeOptional 3 RoomId.encode u.currentRoom ++
  ProtoField.bool 4 u.isMuted ++
  ProtoField.bool 5 u.isDeafened ++
  ProtoField.bool 6 u.serverMuted ++
  ProtoField.bool 7 u.isElevated ++
  encodeRepeated 8 utf8 u.groups ++
  encodeOptional 9 utf8 u.label

def Group.encode (g : Group) : List UInt8 :=
  ProtoField.bytes 1 (utf8 g.name) ++
  ProtoField.uint 2 g.permissions.toNat ++
  ProtoField.bool 3 g.isBuiltin

def SlashCommand.encode (c : SlashCommand) : List UInt8 :=
  ProtoField.bytes 1 (utf8 c.name) ++
  ProtoField.bytes 2 (utf8 c.description)

def ServerStateMsg.encode (m : ServerStateMsg) : List UInt8 :=
  encodeRepeated 1 RoomInfo.encode m.rooms ++
  encodeRepeated 2 UserInfo.encode m.users ++
  encodeRepeated 3 Group.encode m.groups ++
  encodeRepeated 4 SlashCommand.encode m.slashCommands

/-- The bytes that `compute_server_state_hash` hashes. -/
def hashedBytes (m : ServerStateMsg) : List UInt8 := (stateHashInput m).encode

/-! ## What the bytes depend on -/

/-- Room and user ids are distinct, as the sort reads them: an absent id is empty or zero. -/
structure ServerStateMsg.DistinctIds (m : ServerStateMsg) : Prop where
  rooms : (m.rooms.map RoomInfo.sortKey).Nodup
  users : (m.users.map UserInfo.sortKey).Nodup

instance (m : ServerStateMsg) : Decidable m.DistinctIds :=
  decidable_of_iff ((m.rooms.map RoomInfo.sortKey).Nodup ∧ (m.users.map UserInfo.sortKey).Nodup)
    ⟨fun h => ⟨h.1, h.2⟩, fun h => ⟨h.1, h.2⟩⟩

section Bytes

variable {m m' : ServerStateMsg}

/-- **Neither the order nor the groups and commands count.** -/
theorem hashedBytes_perm (h : m.DistinctIds) (hrooms : m.rooms.Perm m'.rooms)
    (husers : m.users.Perm m'.users) : hashedBytes m = hashedBytes m' := by
  have hr : (stateHashInput m).rooms = (stateHashInput m').rooms :=
    insertionSort_eq_of_perm RoomInfo.sortKey hrooms h.rooms
  have hu : (stateHashInput m).users = (stateHashInput m').users :=
    insertionSort_eq_of_perm UserInfo.sortKey husers h.users
  simp only [hashedBytes, ServerStateMsg.encode, hr, hu]
  rfl

theorem hashedBytes_congr (hrooms : m.rooms = m'.rooms) (husers : m.users = m'.users) :
    hashedBytes m = hashedBytes m' := by
  unfold hashedBytes stateHashInput
  rw [hrooms, husers]

/-- One room and no user. -/
theorem hashedBytes_singleton (r : RoomInfo) (groups : List Group) (commands : List SlashCommand) :
    hashedBytes ⟨[r], [], groups, commands⟩ = ProtoField.delimited 1 r.encode := by
  simp [hashedBytes, stateHashInput, ServerStateMsg.encode, encodeRepeated]

/-- Two users in the order of their ids. -/
theorem hashedBytes_pair {u v : UserInfo} (h : u.sortKey ≤ v.sortKey) (groups : List Group)
    (commands : List SlashCommand) :
    hashedBytes ⟨[], [u, v], groups, commands⟩ =
      ProtoField.delimited 2 u.encode ++ ProtoField.delimited 2 v.encode := by
  simp [hashedBytes, stateHashInput, ServerStateMsg.encode, encodeRepeated, h]

/-- The permissions of a room are the end of its bytes. -/
theorem RoomInfo.encode_permissions_inj {r : RoomInfo} {p q : BitVec 32}
    (h : RoomInfo.encode { r with effectivePermissions := p } =
      RoomInfo.encode { r with effectivePermissions := q }) : p = q :=
  BitVec.eq_of_toNat_eq (ProtoField.uint_inj (List.append_cancel_left h))

end Bytes

end Rumble
