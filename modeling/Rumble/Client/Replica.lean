import Rumble.Client.StateHash
import Rumble.Lib.Replication
import Rumble.Server.UserViews

/-!
# The client as a replica of the server

A client in session applies every full state and every update the server sends it on its control
stream (`handle_server_message` and `apply_state_update` of `rumble-client/src/handle.rs`, through
the projection); during its handshake it waits for the first full state and drops what comes before
(`wait_for_auth_result`). `Roster.Matches` says that the lists of a client are those of the server,
and `replicas` is the feed of all clients: the rules of `Rumble.Lib.Replication` apply to it.
-/

namespace Rumble.Client

open Rumble.Lib Rumble.Lib.Replication Rumble.Server

/-! ## The client -/

/-- A client in session: its projection, and whether it waits for a full state it asked for. -/
structure Replica where
  state : ClientState
  resync : Bool

namespace Replica

/-- The projection applies an event. -/
def apply (r : Replica) (e : RoomEvent) : Replica where
  state := (r.state.applyRoom e).1
  resync := match e with
    | .fullStateReplaced .. => false
    | _ => r.resync || (r.state.applyRoom e).2.contains .requestStateSync

end Replica

/-- What a connect starts from: the projection, and the session keys made for it. -/
structure Handshake where
  state : ClientState
  sessionPublicKey : Bytes 32
  sessionId : Bytes 32

/-- What `connect` leads to: the connection, the full state and the room of the own entry. -/
def Handshake.connected (h : Handshake) (c : UserId) (m : ServerStateMsg) : Replica :=
  let s := h.state.applyConnection
    (.connected "Rumble Server" c h.sessionPublicKey h.sessionId)
  (Replica.apply ⟨s, false⟩ (fullState m)).apply
    (.selfMovedToRoom (ClientSys.roomOf (m.users.filterMap User.fromProto) c))

/-- Full states and updates. -/
def isStateFrame : Frame → Bool
  | .serverState .. | .stateUpdate .. => true
  | _ => false

/-- What client `c` does with an entry of the server's log; `none` stands for the handshake. -/
def receive (h : Handshake) (c : UserId) (r : Option Replica) : Out → Option Replica
  | .send t (.serverState _ m) =>
    if t = primary c then
      match r with
      | none => some (h.connected c m)
      | some r => some (r.apply (fullState m))
    else r
  | .broadcast clients (.stateUpdate expectedHash u) =>
    if c ∈ clients then r.map ((roomEvents expectedHash u).foldl Replica.apply) else r
  | _ => r

/-! ## Agreement -/

/-- A room without the permissions of one client. -/
def bareRoom (r : Room) : Room := { r with effectivePermissions := 0 }

/-- A group definition of the server, as it is sent. -/
def groupView (store : Persistence) (name : String) : Option Group :=
  (store.getGroup name).map fun permissions =>
    { name := name, permissions := permissions, isBuiltin := builtinGroups.contains name }

/-- The lists of a client are the server's: the same rooms in the same order, and under every id and
every name the same user and the same group. -/
structure Roster.Matches (r : Roster) (w : World) : Prop where
  rooms : r.rooms.map bareRoom = w.rooms
  ids : (r.users.map User.userId).Nodup
  users : ∀ u, ClientState.findUser r.users u = w.state.userView u
  names : (r.groups.map Group.name).Nodup
  groups : ∀ name, r.groups.find? (fun g => g.name == name) = groupView w.store name

/-- The lists after an update. -/
def Roster.update (r : Roster) (u : Update) : Roster :=
  match updateEvent u with
  | some e => r.apply e
  | none => r

/-- A client past its login: it is in a room, or a controller. -/
def Attending (w : World) (c : UserId) : Prop :=
  w.state.getClient c = true ∧ (w.state.conn c).authenticated = true ∧
    ((w.state.handle (primary c)).isController = true ∨ (w.state.data.getUserRoom c).isSome = true)

/-- The client is in session and shows what the server has; when `strict`, it waits for no full
state. -/
def Agrees (strict : Prop) (r : Option Replica) (w : World) : Prop :=
  ∃ x ∈ r, x.state.roster.Matches w ∧ (strict → x.resync = false)

/-- Full states go to one stream and updates to all clients, and what an update says of a user names
the user and the room. -/
def Proper : Out → Prop
  | .send _ (.stateUpdate ..) | .broadcast _ (.serverState ..) => False
  | .broadcast _ (.stateUpdate _ (.userMoved none _))
  | .broadcast _ (.stateUpdate _ (.userMoved _ none))
  | .broadcast _ (.stateUpdate _ (.userLeft none))
  | .broadcast _ (.stateUpdate _ (.userStatusChanged none ..)) => False
  | _ => True

/-- All clients, fed by the log of the server. -/
def replicas (strict : Prop) (h : UserId → Handshake) : Feed World UserId (Option Replica) Out where
  log := World.log
  live := Attending
  sound := Proper
  receive := fun c => receive (h c) c
  agrees := fun _ => Agrees strict

/-! ## The state hash -/

/-- Lists with distinct keys that answer every lookup alike. -/
theorem perm_of_lookup {l l' : List User} (h : (l.map User.userId).Nodup)
    (h' : (l'.map User.userId).Nodup)
    (hfind : ∀ u, ClientState.findUser l u = ClientState.findUser l' u) : l.Perm l' := by
  have hmem : ∀ {l : List User}, (l.map User.userId).Nodup → ∀ x,
      x ∈ l ↔ ClientState.findUser l x.userId = some x := by
    intro l hl x
    constructor
    · intro hx
      cases hf : ClientState.findUser l x.userId with
      | none => exact absurd (beq_self_eq_true x.userId) (List.find?_eq_none.mp hf x hx)
      | some y =>
        have hkey : y.userId = x.userId := by simpa using List.find?_some hf
        rw [List.inj_on_of_nodup_map hl (List.mem_of_find?_eq_some hf) hx hkey]
    · exact fun hf => List.mem_of_find?_eq_some hf
  refine (List.perm_ext_iff_of_nodup h.of_map h'.of_map).mpr fun x => ?_
  rw [hmem h, hmem h', hfind]

/-- **Clients that match pass the hash check.** -/
theorem hashInput_of_matches {s : ClientState} {w : World} (h : s.roster.Matches w)
    (hw : w.state.data.Single) : s.hashInput = w.state.hashInput := by
  have hrooms : s.rooms.map Room.toHashInput = w.state.data.rooms.map Room.toProto := by
    have hbare : w.state.data.rooms = s.rooms.map bareRoom := h.rooms.symm
    rw [hbare, List.map_map]
    rfl
  have hperm : s.users.Perm w.state.buildUserList :=
    perm_of_lookup h.ids (ServerState.nodup_buildUserList hw) fun u =>
      (h.users u).trans (ServerState.find?_buildUserList hw u).symm
  have hkeys : ((s.users.map User.toProto).map UserInfo.sortKey).Nodup := by
    rw [List.map_map]
    exact h.ids
  unfold ClientState.hashInput ServerState.hashInput ServerState.hashMsg stateHashInput
  dsimp only
  rw [hrooms, insertionSort_eq_of_perm UserInfo.sortKey (hperm.map User.toProto) hkeys]

/-! ## Entries of the log -/

/-- Only a checkpoint asks for a full state. -/
theorem requestStateSync_not_mem {e : RoomEvent} (s : ClientState)
    (he : ∀ m, e ≠ .stateHashCheckpoint m) : .requestStateSync ∉ (s.applyRoom e).2 := by
  cases e with
  | stateHashCheckpoint m => exact absurd rfl (he m)
  | fullStateReplaced rooms users =>
    unfold ClientState.applyRoom ClientState.replaceFullState
    intro hmem
    rcases List.mem_append.mp hmem with hmem | hmem
    · obtain ⟨room, -, heq⟩ := Option.map_eq_some_iff.mp (Option.mem_toList.mp hmem)
      cases heq
    · obtain ⟨user, -, heq⟩ := Option.map_eq_some_iff.mp (Option.mem_toList.mp hmem)
      cases heq
  | userJoined user =>
    unfold ClientState.applyRoom ClientState.addUser
    dsimp only
    split
    · simp
    · split <;> simp
  | userLeft u =>
    unfold ClientState.applyRoom ClientState.removeUser
    dsimp only
    split <;> split <;> simp
  | userMoved u room =>
    unfold ClientState.applyRoom ClientState.moveUser ClientState.enterRoom
    dsimp only
    split
    · split <;> simp
    split
    · simp
    split <;> simp
  | userStatusChanged =>
    unfold ClientState.applyRoom ClientState.setUserStatus
    dsimp only
    split
    · simp
    split
    · split <;> simp
    · simp
  | selfMovedToRoom room =>
    unfold ClientState.applyRoom ClientState.enterRoom
    simp
  | roomAdded | roomRemoved | roomRenamed | roomMoved | roomDescriptionSet | roomAclChanged
    | userGroupChanged | groupAdded | groupModified | groupRemoved | registeredUsersReplaced =>
    exact List.not_mem_nil

/-- An update is neither a checkpoint nor a full state. -/
theorem updateEvent_kind {u : Update} {e : RoomEvent} (he : updateEvent u = some e) :
    (∀ m, e ≠ .stateHashCheckpoint m) ∧
      ∀ rooms users groups commands perms,
        e ≠ .fullStateReplaced rooms users groups commands perms := by
  have hmap : ∀ {α : Type} {x : Option α} {f : α → RoomEvent}, x.map f = some e → ∃ a, f a = e :=
    fun hx => (Option.map_eq_some_iff.mp hx).imp fun _ h => h.2
  cases u
  case userMoved userId room =>
    cases userId with
    | none => cases he
    | some userId =>
      cases room with
      | none => cases he
      | some room =>
        obtain rfl := Option.some.inj he
        exact ⟨nofun, nofun⟩
  case groupChanged group deleted =>
    cases deleted with
    | true =>
      obtain ⟨a, rfl⟩ := hmap he
      exact ⟨nofun, nofun⟩
    | false =>
      obtain ⟨a, rfl⟩ := hmap he
      exact ⟨nofun, nofun⟩
  case userGroupChanged =>
    obtain rfl := Option.some.inj he
    exact ⟨nofun, nofun⟩
  all_goals
    obtain ⟨a, rfl⟩ := hmap he
    exact ⟨nofun, nofun⟩

theorem resync_update {u : Update} {e : RoomEvent} (he : updateEvent u = some e) (r : Replica) :
    (r.apply e).resync = r.resync := by
  obtain ⟨hcheck, hfull⟩ := updateEvent_kind he
  have hquiet : (r.state.applyRoom e).2.contains .requestStateSync = false := by
    simpa using requestStateSync_not_mem r.state hcheck
  unfold Replica.apply
  dsimp only
  split
  · exact absurd rfl (hfull _ _ _ _ _)
  · rw [hquiet, Bool.or_false]

section Entries

variable {strict : Prop} {h : UserId → Handshake}

theorem ignored_send (t : HandleId) {f : Frame} (hf : isStateFrame f = false) :
    (replicas strict h).Ignored (.send t f) := by
  cases f
  case serverState | stateUpdate => exact Bool.noConfusion hf
  all_goals exact ⟨trivial, fun _ _ => rfl⟩

theorem ignored_relay (connections : List UserId) (dgram : VoiceDatagram) :
    (replicas strict h).Ignored (.relay connections dgram) := ⟨trivial, fun _ _ => rfl⟩

/-- A full state for another stream. -/
theorem receive_fullState_ne (k : Handshake) {c : UserId} {t : HandleId} (ht : t ≠ primary c)
    (r : Option Replica) (hash m : ServerStateMsg) :
    receive k c r (.send t (.serverState hash m)) = r := by
  unfold receive
  exact if_neg ht

/-- An update is applied, and its checkpoint leaves the lists alone. -/
theorem receive_update (h : Handshake) {c : UserId} {clients : List UserId} (hc : c ∈ clients)
    (x : Replica) (expected : ServerStateMsg) (u : Update) :
    ∃ y ∈ receive h c (some x) (.broadcast clients (.stateUpdate expected u)),
      y.state.roster = x.state.roster.update u ∧
      (x.resync = false → y.state.hashInput = expected → y.resync = false) := by
  have hcheck : ∀ r : Replica, r.resync = false → r.state.hashInput = expected →
      (r.apply (.stateHashCheckpoint expected)).resync = false := by
    intro r hr hhash
    simp [Replica.apply, ClientState.applyRoom, hr, hhash]
  have hreceive : receive h c (some x) (.broadcast clients (.stateUpdate expected u)) =
      some ((roomEvents expected u).foldl Replica.apply x) := by
    unfold receive
    exact if_pos hc
  rw [hreceive]
  refine ⟨_, rfl, ?_⟩
  unfold roomEvents Roster.update
  cases hu : updateEvent u with
  | none => exact ⟨rfl, fun hr hhash => hcheck x hr hhash⟩
  | some e =>
    refine ⟨ClientState.roster_applyRoom x.state e,
      fun hr hhash => hcheck (x.apply e) ?_ hhash⟩
    rw [resync_update hu, hr]

end Entries

/-! ## The full state -/

theorem find?_toPairs {κ β : Type} [DecidableEq κ] (t : Table κ β) (k : κ) :
    (t.toPairs.find? fun e => e.1 == k).map Prod.snd = t.get k := by
  cases hget : t.get k with
  | some v => exact (find?_key_eq_some (Table.nodup_keys t)).mpr (Table.mem_toPairs.mpr hget)
  | none =>
    rw [Option.map_eq_none_iff, List.find?_eq_none]
    intro e he hkey
    have hmem : (k, e.2) ∈ t.toPairs := by
      rw [← eq_of_beq hkey]
      exact he
    rw [Table.mem_toPairs.mp hmem] at hget
    cases hget

theorem find?_groupInfos (w : World) (name : String) :
    w.groupInfos.find? (fun g => g.name == name) = groupView w.store name := by
  unfold World.groupInfos Persistence.listGroups groupView Persistence.getGroup
  rw [← find?_toPairs, List.find?_map]
  have hpred : ((fun g : Group => g.name == name) ∘ fun g : String × BitVec 32 =>
      ({ name := g.1, permissions := g.2, isBuiltin := ["default", "admin"].contains g.1 } : Group)) =
      fun e => e.1 == name := rfl
  rw [hpred]
  cases hfind : w.store.groups.toPairs.find? fun e => e.1 == name with
  | none => rfl
  | some e =>
    have hname : e.1 = name := by simpa using List.find?_some hfind
    rw [Option.map_some, Option.map_some, ← hname]
    rfl

/-- **A full state puts the client in step**, whatever it had. -/
theorem matches_fullState {w : World} (hw : w.state.data.Plain) (cfg : Config) (c : HandleId)
    (r : Roster) : (r.apply (fullState (w.serverStateFor cfg c))).Matches w := by
  have hrooms : (w.serverStateFor cfg c).rooms.filterMap Room.fromProto = w.rooms.map fun r =>
      { r with effectivePermissions := evaluateUserPermissions w.state w.store c r.id } :=
    filterMap_fromProto_rooms w.rooms _
  have husers : (w.serverStateFor cfg c).users.filterMap User.fromProto = w.state.buildUserList :=
    filterMap_fromProto_users w.state.buildUserList
  have hroster : r.apply (fullState (w.serverStateFor cfg c)) =
      ⟨(w.serverStateFor cfg c).rooms.filterMap Room.fromProto,
        (w.serverStateFor cfg c).users.filterMap User.fromProto, w.groupInfos⟩ := rfl
  rw [hroster, hrooms, husers]
  refine ⟨?_, ServerState.nodup_buildUserList hw.single, ServerState.find?_buildUserList hw.single,
    ?_, find?_groupInfos w⟩
  · show (w.rooms.map _).map bareRoom = w.rooms
    rw [List.map_map]
    refine (List.map_congr_left fun x hx => ?_).trans (List.map_id w.rooms)
    show bareRoom x = x
    rw [bareRoom, ← hw.unassigned x hx]
  · show (w.groupInfos.map Group.name).Nodup
    unfold World.groupInfos Persistence.listGroups
    rw [List.map_map]
    exact Table.nodup_keys w.store.groups

/-- A client that gets a full state is in session and in step. -/
theorem agrees_fullState (strict : Prop) {w : World} (hw : w.state.data.Plain) (cfg : Config)
    (h : Handshake) (c : UserId) (r : Option Replica) (hash : ServerStateMsg) :
    Agrees strict (receive h c r (.send (primary c) (.serverState hash
      (w.serverStateFor cfg (primary c))))) w := by
  have hreceive : receive h c r (.send (primary c) (.serverState hash
      (w.serverStateFor cfg (primary c)))) =
      match r with
      | none => some (h.connected c (w.serverStateFor cfg (primary c)))
      | some r => some (r.apply (fullState (w.serverStateFor cfg (primary c)))) := by
    unfold receive
    exact if_pos rfl
  rw [hreceive]
  cases r with
  | some x =>
    refine ⟨_, rfl, ?_, fun _ => rfl⟩
    exact (ClientState.roster_applyRoom x.state _) ▸ matches_fullState hw cfg (primary c) _
  | none =>
    refine ⟨_, rfl, ?_, fun _ => ?_⟩
    · unfold Handshake.connected Replica.apply
      dsimp only
      rw [ClientState.roster_applyRoom, ClientState.roster_applyRoom]
      exact matches_fullState hw cfg (primary c) (ClientState.applyConnection h.state
        (.connected "Rumble Server" c h.sessionPublicKey h.sessionId)).roster
    · unfold Handshake.connected Replica.apply ClientState.applyRoom ClientState.enterRoom fullState
      simp

end Rumble.Client
