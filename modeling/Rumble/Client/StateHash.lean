import Rumble.Client.Roster
import Rumble.Protocol.StateHash
import Rumble.Server.StoredRooms

/-!
# The state hash on both sides

The server hashes its stored rooms and users; the client rebuilds the same bytes from the records
it decoded (`state_hash_input` of `projection.rs`), where every room holds the permissions of this
client. The two agree because the client zeroes the permissions and the server never stores any.
-/

namespace Rumble.Client

open Rumble.Lib Rumble.Server

/-! ## The client's bytes -/

namespace ClientState

variable (s : ClientState)

/-- Other permissions: in the record of each room, by room, and for the room the user is in. -/
def assignPermissions (perms : Nat → BitVec 32) (perRoom : Table Uuid (BitVec 32))
    (current : BitVec 32) : ClientState :=
  { s with
    rooms := s.rooms.mapIdx fun i r => { r with effectivePermissions := perms i }
    perRoomPermissions := perRoom
    effectivePermissions := current }

/-- **The client's hash input has no permissions in it.** -/
theorem hashInput_assignPermissions (perms : Nat → BitVec 32) (perRoom : Table Uuid (BitVec 32))
    (current : BitVec 32) :
    (s.assignPermissions perms perRoom current).hashInput = s.hashInput := by
  have hrooms : (s.assignPermissions perms perRoom current).rooms.map Room.toHashInput =
      s.rooms.map Room.toHashInput := by
    unfold assignPermissions
    apply List.ext_getElem?
    intro i
    rw [List.getElem?_map, List.getElem?_mapIdx, List.getElem?_map, Option.map_map]
    rfl
  unfold hashInput
  rw [hrooms]
  rfl

end ClientState

/-! ## Decoding the server's state -/

/-- What one side writes the other reads back. -/
theorem filterMap_fromProto_rooms (rooms : List Room) (f : Room → Room) :
    (rooms.map fun r => (f r).toProto).filterMap Room.fromProto = rooms.map f := by
  rw [List.filterMap_map, ← List.filterMap_eq_map]
  congr 1
  funext r
  exact Room.fromProto_toProto (f r)

theorem filterMap_fromProto_users (users : List User) :
    (users.map User.toProto).filterMap User.fromProto = users := by
  rw [List.filterMap_map]
  have hsome : User.fromProto ∘ User.toProto = some := funext User.fromProto_toProto
  rw [hsome, List.filterMap_some]

section Decoded

variable (cfg : Config) (w : World) (client : HandleId) (c : ClientState)

/-- The rooms the client holds are the server's with its own permissions, the users are theirs. -/
theorem roster_fullState :
    (c.applyRoom (fullState (w.serverStateFor cfg client))).1.rooms =
        w.rooms.map (fun r => { r with
          effectivePermissions := evaluateUserPermissions w.state w.store client r.id }) ∧
      (c.applyRoom (fullState (w.serverStateFor cfg client))).1.users = w.state.buildUserList := by
  have hroster := ClientState.roster_applyRoom c (fullState (w.serverStateFor cfg client))
  refine ⟨(congrArg Roster.rooms hroster).trans (filterMap_fromProto_rooms w.rooms _),
    (congrArg Roster.users hroster).trans (filterMap_fromProto_users w.state.buildUserList)⟩

/-- A room without permissions is hashed as it is sent. -/
theorem toHashInput_of_unassigned {rooms : List Room} (h : Unassigned rooms) (p : Room → BitVec 32) :
    (rooms.map fun r => Room.toHashInput { r with effectivePermissions := p r }) =
      rooms.map Room.toProto := by
  apply List.map_congr_left
  intro r hr
  have hzero : r.toProto.effectivePermissions = 0 := h r hr
  show { r.toProto with effectivePermissions := 0 } = r.toProto
  rw [← hzero]

/-- **A client that decoded the state** has the server's hash input. -/
theorem hashInput_fullState {w : World} (h : Unassigned w.rooms) :
    (c.applyRoom (fullState (w.serverStateFor cfg client))).1.hashInput = w.state.hashInput := by
  obtain ⟨hrooms, husers⟩ := roster_fullState cfg w client c
  unfold ClientState.hashInput ServerState.hashInput ServerState.hashMsg
  rw [hrooms, husers, List.map_map, ← toHashInput_of_unassigned h]
  rfl

end Decoded

/-! ## The hash input is canonical -/

/-- **The state hash input.** With distinct ids the hashed bytes do not depend on the order of rooms
and users, and never on groups and slash commands. A client that decoded the `ServerState` of a
server whose rooms hold no permissions hashes the bytes of that server, whatever permissions the
client holds; every state reached from a start over any database is such a server. -/
theorem state_hash_canonical :
    (∀ m m' : ServerStateMsg, m.DistinctIds → m.rooms.Perm m'.rooms → m.users.Perm m'.users →
      hashedBytes m = hashedBytes m') ∧
    (∀ (m : ServerStateMsg) (groups : List Group) (commands : List SlashCommand),
      hashedBytes { m with groups := groups, slashCommands := commands } = hashedBytes m) ∧
    (∀ (cfg : Config) (w : World) (client : HandleId) (c : ClientState) (perms : Nat → BitVec 32)
        (perRoom : Table Uuid (BitVec 32)) (current : BitVec 32), Unassigned w.rooms →
      (((c.applyRoom (fullState (w.serverStateFor cfg client))).1.assignPermissions perms perRoom
        current).hashInput).encode = hashedBytes w.state.hashMsg) ∧
    (∀ (cfg : Config) (store : Persistence) (inputs : List Input),
      Unassigned (run cfg (World.boot store) inputs).rooms) := by
  refine ⟨fun m m' h hrooms husers => hashedBytes_perm h hrooms husers,
    fun m groups commands => hashedBytes_congr rfl rfl, ?_, unassigned_run⟩
  intro cfg w client c perms perRoom current hw
  have hclient := hashInput_fullState cfg client c hw
  rw [ClientState.hashInput_assignPermissions, hclient]
  rfl

/-- Root and a room below it, as one client sees them, and two users. -/
def sampleState : ServerStateMsg where
  rooms := [
    { id := some (roomIdFromUuid rootRoomUuid), name := "Root", parentId := none
      description := none, inheritAcl := true, acls := [], effectivePermissions := 511 },
    { id := some (roomIdFromUuid (Bytes.rep 16 7)), name := "lobby", parentId := none
      description := some "", inheritAcl := false, acls := [⟨"mods", 4, 2, true, false⟩]
      effectivePermissions := 0 }]
  users := [
    User.toProto ⟨2, "bob", rootRoomUuid, false, false, false, false, [], none⟩,
    User.toProto ⟨1, "ann", Bytes.rep 16 7, true, false, false, true, ["admin"], some "bot"⟩]
  groups := [⟨"admin", 511, true⟩]
  slashCommands := [⟨"echo", "Say it again"⟩]

/-- The state with its lists turned round and other groups and commands, and a client of a server
that was started with someone logged in. -/
theorem state_hash_canonical_sample :
    hashedBytes sampleState = hashedBytes
      { rooms := sampleState.rooms.reverse, users := sampleState.users.reverse
        groups := [], slashCommands := [] } ∧
    (∀ perms : Nat → BitVec 32,
      let w := run sampleConfig (World.boot sampleStore) (sampleLogin 1 (Bytes.rep 32 9) "ann")
      let c := (ClientState.new.applyRoom (fullState (w.serverStateFor sampleConfig (primary 1)))).1
      ((c.assignPermissions perms ∅ 511).hashInput).encode = hashedBytes w.state.hashMsg) := by
  refine ⟨state_hash_canonical.1 _ _ (by decide) (List.reverse_perm _).symm
    (List.reverse_perm _).symm, ?_⟩
  intro perms w c
  exact state_hash_canonical.2.2.1 sampleConfig w (primary 1) ClientState.new perms ∅ 511
    (state_hash_canonical.2.2.2 _ _ _)

/-! ## What is hashed all the same -/

/-- Root as a client with these permissions sees it. -/
def rootFor (perms : BitVec 32) : RoomInfo where
  id := some (roomIdFromUuid rootRoomUuid)
  name := "Root"
  parentId := none
  description := none
  inheritAcl := true
  acls := []
  effectivePermissions := perms

/-- A user record with or without an id, and nothing else in it. -/
def nobody (userId : Option UserId) : UserInfo where
  userId := userId
  username := ""
  currentRoom := none
  isMuted := false
  isDeafened := false
  serverMuted := false
  isElevated := false
  groups := []
  label := none

theorem encode_nobody (userId : Option UserId) :
    (nobody userId).encode = encodeOptional 1 (ProtoField.uint 1) userId := by
  simp [nobody, UserInfo.encode, encodeOptional, encodeRepeated, ProtoField.bytes,
    ProtoField.bool, ProtoField.uint, utf8_empty]

/-- The permissions are hashed: the states of two clients of one server differ in their bytes. And
an absent id is sorted as zero but not written as zero, so that the order of the two shows. -/
theorem not_hash_ignores_permissions :
    ServerStateMsg.DistinctIds ⟨[rootFor 511], [], [], []⟩ ∧
      hashedBytes ⟨[rootFor 511], [], [], []⟩ ≠ hashedBytes ⟨[rootFor 0], [], [], []⟩ ∧
      ([nobody none, nobody (some 0)].map UserInfo.userId).Nodup ∧
      hashedBytes ⟨[], [nobody none, nobody (some 0)], [], []⟩ ≠
        hashedBytes ⟨[], [nobody (some 0), nobody none], [], []⟩ := by
  refine ⟨by decide, fun h => ?_, by decide, fun h => ?_⟩
  · rw [hashedBytes_singleton, hashedBytes_singleton] at h
    have hperms : (511 : BitVec 32) = 0 :=
      RoomInfo.encode_permissions_inj (r := rootFor 0) (ProtoField.delimited_inj h)
    exact absurd hperms (by decide)
  · rw [hashedBytes_pair (by decide), hashedBytes_pair (by decide)] at h
    obtain ⟨hsame, -⟩ := ProtoField.delimited_append_inj h
    rw [encode_nobody, encode_nobody] at hsame
    exact ProtoField.delimited_ne_nil _ _ hsame.symm

end Rumble.Client
