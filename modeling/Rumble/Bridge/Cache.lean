import Rumble.Bridge.Events
import Rumble.Client.ReplicaRuns

/-!
# The cache of the bridge

The bridge is a client of the Rumble server that keeps the rooms and users in lists of its own
(`handle_server_state` and `handle_state_update` of `mumble-bridge/src/bridge.rs`), while Mumble
clients come, go and move. A client that is fed the same log shows what the server has
(`Rumble.Client.ReplicaRuns`), and the cache is compared with that client entry by entry:
`roomsAgree_receive` and `userAgrees_receive` are the step lemmas, `cache_run` is the result.
-/

namespace Rumble.Bridge

open Rumble.Lib Rumble.Lib.Replication Rumble.Lib.Transition Rumble.Server Rumble.Client

/-! ## The connection -/

/-- A frame on the control stream, as the receiver task hands it to the loop. -/
def RumbleEnvelope.ofFrame : Frame → RumbleEnvelope
  | .serverState _ m => .serverState m
  | .stateUpdate _ u => .stateUpdate (some u)
  | .participantRegistered userId username => .participantRegistered userId username
  | .commandResult command success _ => .commandResult command success
  | _ => .other

/-- The full state of the handshake, which is turned into domain types and back on its way. -/
def connectState (m : ServerStateMsg) : ServerStateMsg where
  rooms := (m.rooms.filterMap Room.fromProto).map Room.toProto
  users := (m.users.filterMap User.fromProto).map User.toProto
  groups := []
  slashCommands := []

/-- The bridge on a connection; `online` from the full state of the handshake on. -/
structure Subscriber where
  bridge : BridgeState
  online : Bool

inductive BridgeInput where
  /-- An entry of the server's log. -/
  | entry (o : Out)
  /-- A step of the bridge that is not about the connection. -/
  | own (step : BridgeStep)

def BridgeInput.entry? : BridgeInput → Option Out
  | .entry o => some o
  | .own _ => none

/-- The events of Mumble clients, and what their tasks do outside of the loop. -/
def BridgeStep.Own : BridgeStep → Prop
  | .event (.rumbleEnvelope _) | .reconnect _ => False
  | _ => True

namespace Subscriber

variable (s : Subscriber)

def handle (env : RumbleEnvelope) : Subscriber :=
  ⟨(s.bridge.handleEvent (.rumbleEnvelope env)).1, true⟩

/-- What the connection of user `c` does with an entry of the log. -/
def receive (c : UserId) : Out → Subscriber
  | .send t f =>
    if t = primary c then
      if s.online then s.handle (.ofFrame f)
      else match f with
        | .serverState _ m => s.handle (.serverState (connectState m))
        | _ => s
    else s
  | .broadcast clients f => if c ∈ clients ∧ s.online then s.handle (.ofFrame f) else s
  | .relay _ _ => s

def step (c : UserId) : BridgeInput → Subscriber
  | .entry o => s.receive c o
  | .own step => { s with bridge := s.bridge.step step }

end Subscriber

/-! ## What is compared -/

/-- The rooms that were renamed or moved since the last full state: the cache keeps the old name and
the old parent. -/
structure Stale where
  renamed : List Uuid
  moved : List Uuid

namespace Stale

def none : Stale := ⟨[], []⟩

def update (stale : Stale) : Update → Stale
  | .roomRenamed roomId _ =>
    { stale with renamed := (roomId.bind uuidFromRoomId).toList ++ stale.renamed }
  | .roomMoved roomId _ =>
    { stale with moved := (roomId.bind uuidFromRoomId).toList ++ stale.moved }
  | _ => stale

def receive (c : UserId) (stale : Stale) : Out → Stale
  | .send t (.serverState ..) => if t = primary c then none else stale
  | .broadcast clients (.stateUpdate _ u) => if c ∈ clients then stale.update u else stale
  | _ => stale

end Stale

/-- What the cache has of a room; no name when it is stale, and no parent. -/
structure RoomEntry where
  id : Uuid
  name : Option String
  parent : Option Uuid
  description : Option String
  deriving DecidableEq

def roomEntry (stale : Stale) (r : Room) : RoomEntry where
  id := r.id
  name := if r.id ∈ stale.renamed then none else some r.name
  parent := if r.id ∈ stale.moved then none else some r.parent
  description := r.description

/-- What the cache keeps up to date of a user. -/
structure UserEntry where
  username : String
  currentRoom : Uuid
  isMuted : Bool
  isDeafened : Bool
  deriving DecidableEq

def userEntry (u : User) : UserEntry := ⟨u.username, u.currentRoom, u.isMuted, u.isDeafened⟩

/-- Lists of rooms that are the same, up to what is stale. -/
def RoomsAgree (stale : Stale) (l l' : List Room) : Prop :=
  l.map (roomEntry stale) = l'.map (roomEntry stale)

/-- Lists that say the same of the user. -/
def UserAgrees (v : UserId) (l l' : List User) : Prop :=
  (ClientState.findUser l v).map userEntry = (ClientState.findUser l' v).map userEntry

/-- The user is none of the bridge's participants, and does not join under a name that the bridge
waits to see registered. -/
def Native (v : UserId) (s : BridgeState) : BridgeInput → Prop
  | .entry (.broadcast _ (.stateUpdate _ (.userJoined (some user)))) =>
    s.isVirtual v = false ∧ (user.userId = some v → s.isPending user.username = false)
  | _ => s.isVirtual v = false

instance (v : UserId) (s : BridgeState) (i : BridgeInput) : Decidable (Native v s i) := by
  unfold Native
  split
  · exact instDecidableAnd
  · exact instDecidableEqBool _ _

/-! ## Rooms -/

section Rooms

variable {stale : Stale} {l l' : List Room}

/-- More is stale. -/
def RoomEntry.hide (stale : Stale) (e : RoomEntry) : RoomEntry :=
  { e with
    name := if e.id ∈ stale.renamed then none else e.name
    parent := if e.id ∈ stale.moved then none else e.parent }

theorem hide_roomEntry {stale' : Stale} (hrenamed : stale.renamed ⊆ stale'.renamed)
    (hmoved : stale.moved ⊆ stale'.moved) (r : Room) :
    (roomEntry stale r).hide stale' = roomEntry stale' r := by
  have hhide : ∀ {ids ids' : List Uuid} {α : Type} (a : α), ids ⊆ ids' →
      (if r.id ∈ ids' then none else if r.id ∈ ids then none else some a) =
        if r.id ∈ ids' then none else some a := by
    intro ids ids' α a hsub
    split
    · rfl
    · rename_i hnot
      rw [if_neg fun hmem => hnot (hsub hmem)]
  unfold roomEntry RoomEntry.hide
  dsimp only
  rw [hhide _ hrenamed, hhide _ hmoved]

namespace RoomsAgree

theorem hide (h : RoomsAgree stale l l') {stale' : Stale}
    (hrenamed : stale.renamed ⊆ stale'.renamed) (hmoved : stale.moved ⊆ stale'.moved) :
    RoomsAgree stale' l l' := by
  have hentry : roomEntry stale' = RoomEntry.hide stale' ∘ roomEntry stale :=
    funext fun r => (hide_roomEntry hrenamed hmoved r).symm
  unfold RoomsAgree at h ⊢
  rw [hentry, ← List.map_map, ← List.map_map, h]

theorem append (h : RoomsAgree stale l l') (rooms : List Room) :
    RoomsAgree stale (l ++ rooms) (l' ++ rooms) := by
  unfold RoomsAgree at h ⊢
  rw [List.map_append, List.map_append, h]

theorem filter (h : RoomsAgree stale l l') (room : Uuid) :
    RoomsAgree stale (l.filter fun r => r.id ≠ room) (l'.filter fun r => r.id ≠ room) := by
  have hmap : ∀ l : List Room, (l.filter fun r => r.id ≠ room).map (roomEntry stale) =
      (l.map (roomEntry stale)).filter fun e => e.id ≠ room := fun l => by
    rw [List.filter_map]
    rfl
  unfold RoomsAgree at h ⊢
  rw [hmap, hmap, h]

theorem describe (h : RoomsAgree stale l l') (room : Uuid) (text : Option String) :
    RoomsAgree stale
      (modifyFirst (fun r => r.id == room) (fun r => { r with description := text }) l)
      (modifyFirst (fun r => r.id == room) (fun r => { r with description := text }) l') := by
  have hmap : ∀ l : List Room,
      (modifyFirst (fun r => r.id == room) (fun r => { r with description := text }) l).map
        (roomEntry stale) =
      modifyFirst (fun e => e.id == room) (fun e => { e with description := text })
        (l.map (roomEntry stale)) :=
    map_modifyFirst (roomEntry stale) (fun _ => rfl) (fun _ => rfl)
  unfold RoomsAgree at h ⊢
  rw [hmap, hmap, h]

/-- An edit that only the client makes. -/
theorem edit (h : RoomsAgree stale l l') (room : Uuid) {f : Room → Room}
    (hf : ∀ r, r.id = room → roomEntry stale (f r) = roomEntry stale r) :
    RoomsAgree stale l (modifyFirst (fun r => r.id == room) f l') := by
  unfold RoomsAgree at h ⊢
  rw [map_modifyFirst_eq _ fun r hr => hf r (eq_of_beq hr), h]

end RoomsAgree

/-- Updates about users and groups leave the rooms alone. -/
def aboutUsers : Update → Bool
  | .userJoined _ | .userLeft _ | .userMoved .. | .userStatusChanged .. | .groupChanged ..
  | .userGroupChanged .. => true
  | _ => false

theorem rooms_handleStateUpdate (s : BridgeState) {u : Update} (hu : aboutUsers u = true) :
    (s.handleStateUpdate u).1.rumbleRooms = s.rumbleRooms := by
  cases u with
  | userJoined user =>
    cases user with
    | none => rfl
    | some user =>
      unfold BridgeState.handleStateUpdate BridgeState.handleUserJoined
      dsimp only
      split_ifs <;> rfl
  | userLeft userId =>
    unfold BridgeState.handleStateUpdate BridgeState.handleUserLeft
    dsimp only
    split_ifs <;> rfl
  | userMoved userId toRoomId =>
    unfold BridgeState.handleStateUpdate BridgeState.handleUserMoved
    dsimp only
    split_ifs <;> rfl
  | userStatusChanged userId isMuted isDeafened serverMuted isElevated =>
    unfold BridgeState.handleStateUpdate BridgeState.handleUserStatusChanged
    dsimp only
    split_ifs <;> rfl
  | groupChanged | userGroupChanged => rfl
  | _ => exact Bool.noConfusion hu

theorem rooms_update (r : Roster) {u : Update} (hu : aboutUsers u = true) :
    (r.update u).rooms = r.rooms := by
  cases u with
  | userJoined user =>
    unfold Roster.update updateEvent
    dsimp only
    cases user.bind User.fromProto with
    | none => rfl
    | some user =>
      show (if _ then r else _).rooms = r.rooms
      split_ifs <;> rfl
  | userLeft userId | userStatusChanged userId => cases userId <;> rfl
  | userMoved userId toRoomId => cases userId <;> cases toRoomId <;> rfl
  | groupChanged group deleted => cases group <;> cases deleted <;> rfl
  | userGroupChanged => rfl
  | _ => exact Bool.noConfusion hu

/-- **Step lemma** for rooms: only the names and parents that become stale are missed. -/
theorem roomsAgree_update {s : BridgeState} {r : Roster}
    (h : RoomsAgree stale s.rumbleRooms r.rooms) (u : Update) :
    RoomsAgree (stale.update u) (s.handleStateUpdate u).1.rumbleRooms (r.update u).rooms := by
  have hwiden : ∀ ids ids' : List Uuid, ids ⊆ ids' ++ ids := fun ids ids' =>
    List.subset_append_right ids' ids
  cases u with
  | roomCreated room =>
    cases room with
    | none => exact h
    | some room =>
      obtain ⟨id, name, parent, description, inheritAcl, acls, perms⟩ := room
      unfold BridgeState.handleStateUpdate BridgeState.handleRoomCreated Roster.update updateEvent
      dsimp only [Option.bind_some, Room.fromProto]
      cases id.bind uuidFromRoomId with
      | none => exact h
      | some room => exact h.append _
  | roomDeleted roomId fallback =>
    unfold BridgeState.handleStateUpdate BridgeState.handleRoomDeleted Roster.update updateEvent
    dsimp only
    cases roomId.bind uuidFromRoomId with
    | none => exact h
    | some room => exact h.filter room
  | roomRenamed roomId newName =>
    have hstale : RoomsAgree (stale.update (.roomRenamed roomId newName)) s.rumbleRooms r.rooms :=
      h.hide (hwiden _ _) (List.Subset.refl _)
    unfold Roster.update updateEvent Stale.update at *
    dsimp only at hstale ⊢
    cases hid : roomId.bind uuidFromRoomId with
    | none => exact h
    | some room =>
      rw [hid] at hstale
      refine hstale.edit room fun r hr => ?_
      simp [roomEntry, hr]
  | roomMoved roomId newParentId =>
    have hstale : RoomsAgree (stale.update (.roomMoved roomId newParentId)) s.rumbleRooms r.rooms :=
      h.hide (List.Subset.refl _) (hwiden _ _)
    unfold Roster.update updateEvent Stale.update at *
    dsimp only at hstale ⊢
    cases hid : roomId.bind uuidFromRoomId with
    | none => exact h
    | some room =>
      rw [hid] at hstale
      refine hstale.edit room fun r hr => ?_
      simp [roomEntry, hr]
  | roomDescriptionChanged roomId description =>
    unfold BridgeState.handleStateUpdate BridgeState.handleRoomDescriptionChanged Roster.update
      updateEvent
    dsimp only
    cases roomId.bind uuidFromRoomId with
    | none => exact h
    | some room => exact h.describe room _
  | roomAclChanged roomId inheritAcl entries =>
    unfold Roster.update updateEvent
    dsimp only
    cases roomId.bind uuidFromRoomId with
    | none => exact h
    | some room => exact h.edit room fun _ _ => rfl
  | userJoined | userLeft | userMoved | userStatusChanged | groupChanged | userGroupChanged =>
    show RoomsAgree stale _ _
    rwa [rooms_handleStateUpdate s rfl, rooms_update r rfl]

end Rooms

/-! ## Users -/

section Users

variable {v : UserId} {l l' : List User}

namespace UserAgrees

/-- An edit of one user that is the same for the entry. -/
theorem edit (h : UserAgrees v l l') (u : UserId) {f f' : User → User}
    (hf : ∀ x, (f x).userId = x.userId) (hf' : ∀ x, (f' x).userId = x.userId)
    (g : UserEntry → UserEntry) (hentry : ∀ x, userEntry (f x) = g (userEntry x))
    (hentry' : ∀ x, userEntry (f' x) = g (userEntry x)) :
    UserAgrees v (modifyFirst (fun x => x.userId == u) f l)
      (modifyFirst (fun x => x.userId == u) f' l') := by
  unfold UserAgrees ClientState.findUser at *
  rw [find?_modifyFirst User.userId u hf, find?_modifyFirst User.userId u hf']
  split
  · have hcomp : userEntry ∘ f = g ∘ userEntry := funext hentry
    have hcomp' : userEntry ∘ f' = g ∘ userEntry := funext hentry'
    rw [Option.map_map, Option.map_map, hcomp, hcomp', ← Option.map_map, ← Option.map_map, h]
  · exact h

/-- An edit that only the client makes. -/
theorem edit_client (h : UserAgrees v l l') (u : UserId) {f : User → User}
    (hf : ∀ x, (f x).userId = x.userId) (hentry : v = u → ∀ x, userEntry (f x) = userEntry x) :
    UserAgrees v l (modifyFirst (fun x => x.userId == u) f l') := by
  unfold UserAgrees ClientState.findUser at *
  rw [find?_modifyFirst User.userId u hf]
  split
  · have hcomp : userEntry ∘ f = userEntry := funext (hentry ‹_›)
    rw [Option.map_map, hcomp]
    exact h
  · exact h

theorem filter (h : UserAgrees v l l') (u : UserId) :
    UserAgrees v (l.filter fun x => x.userId ≠ u) (l'.filter fun x => x.userId ≠ u) := by
  unfold UserAgrees ClientState.findUser at *
  rw [find?_filter_ne User.userId, find?_filter_ne User.userId]
  split
  · rfl
  · exact h

theorem filter_client (h : UserAgrees v l l') {u : UserId} (hu : v ≠ u) :
    UserAgrees v l (l'.filter fun x => x.userId ≠ u) := by
  unfold UserAgrees ClientState.findUser at *
  rw [find?_filter_ne User.userId, if_neg hu]
  exact h

/-- A newcomer at the end of the bridge's list; the client does not list a user twice. -/
theorem join (h : UserAgrees v l l') (x : User) :
    UserAgrees v (l ++ [x]) (if l'.any (fun u => u.userId == x.userId) then l' else l' ++ [x]) := by
  have hone : ∀ l : List User, ClientState.findUser (l ++ [x]) v =
      (ClientState.findUser l v).or (if x.userId = v then some x else none) := fun l => by
    unfold ClientState.findUser
    rw [List.find?_append]
    by_cases hx : x.userId = v <;> simp [hx]
  have hlisted : x.userId = v → l'.any (fun u => u.userId == x.userId) =
      (ClientState.findUser l' v).isSome := fun hx => by
    unfold ClientState.findUser
    rw [hx, Bool.eq_iff_iff, List.any_eq_true, List.find?_isSome]
  unfold UserAgrees at *
  rw [hone]
  by_cases hx : x.userId = v
  · rw [if_pos hx, hlisted hx]
    cases hl : ClientState.findUser l v with
    | none =>
      rw [hl, Option.map_none, eq_comm, Option.map_eq_none_iff] at h
      rw [h, Option.isSome_none, if_neg Bool.false_ne_true, hone, h, if_pos hx]
    | some y =>
      rw [hl, Option.map_some, eq_comm, Option.map_eq_some_iff] at h
      obtain ⟨y', hy', hentry⟩ := h
      rw [hy', if_pos Option.isSome_some, hy', Option.some_or, Option.map_some, Option.map_some,
        hentry]
  · rw [if_neg hx, Option.or_none]
    split
    · exact h
    · rw [hone, if_neg hx, Option.or_none]
      exact h

/-- A newcomer that the bridge does not list. -/
theorem join_client (h : UserAgrees v l l') {x : User} (hx : x.userId ≠ v) :
    UserAgrees v l (if l'.any (fun u => u.userId == x.userId) then l' else l' ++ [x]) := by
  have hjoin := h.join x
  unfold UserAgrees ClientState.findUser at *
  rw [← hjoin, List.find?_append]
  simp [hx]

end UserAgrees

theorem users_userJoined (r : Roster) (x : User) : (r.apply (.userJoined x)).users =
    if r.users.any (fun u => u.userId == x.userId) then r.users else r.users ++ [x] := by
  show (if _ then r else _).users = _
  split <;> rfl

theorem userAgrees_userJoined {s : BridgeState} {r : Roster}
    (h : UserAgrees v s.rumbleUsers r.users) (hself : s.bridgeUserId ≠ some v)
    (hvirtual : s.isVirtual v = false) {user : UserInfo}
    (hpending : user.userId = some v → s.isPending user.username = false) :
    UserAgrees v (s.handleUserJoined user).1.rumbleUsers
      (r.update (.userJoined (some user))).users := by
  have hevent : updateEvent (.userJoined (some user)) = (User.fromProto user).map .userJoined := rfl
  unfold BridgeState.handleUserJoined Roster.update
  rw [hevent]
  dsimp only
  cases hid : User.fromProto user with
  | none =>
    dsimp only [Option.toList_none, Option.map_none]
    rw [List.append_nil]
    split_ifs <;> exact h
  | some x =>
    have hx : user.userId = some x.userId := by
      unfold User.fromProto at hid
      obtain ⟨i, hi, rfl⟩ := Option.map_eq_some_iff.mp hid
      exact hi
    dsimp only [Option.toList_some, Option.map_some]
    rw [users_userJoined, hx, Option.getD_some]
    have hjoin := h.join x
    have hskip : x.userId ≠ v → UserAgrees v s.rumbleUsers _ := h.join_client
    generalize (if r.users.any (fun u => u.userId == x.userId) then r.users
      else r.users ++ [x]) = users at hjoin hskip ⊢
    split_ifs with hown hvirt hpend
    · exact hskip fun hv => hself (hv ▸ hown.symm)
    · exact hskip fun hv => by rw [hv, hvirtual] at hvirt; cases hvirt
    · exact hskip fun hv => by rw [hpending (hx.trans (congrArg some hv))] at hpend; cases hpend
    · exact hjoin

/-- The updates about rooms leave the users alone. -/
theorem users_handleStateUpdate (s : BridgeState) {u : Update} (hu : aboutUsers u = false) :
    (s.handleStateUpdate u).1.rumbleUsers = s.rumbleUsers := by
  cases u with
  | roomCreated room =>
    cases room with
    | none => rfl
    | some room =>
      unfold BridgeState.handleStateUpdate BridgeState.handleRoomCreated
      dsimp only
      split <;> rfl
  | roomDeleted roomId fallback =>
    unfold BridgeState.handleStateUpdate BridgeState.handleRoomDeleted
    dsimp only
    split <;> rfl
  | roomDescriptionChanged roomId description =>
    unfold BridgeState.handleStateUpdate BridgeState.handleRoomDescriptionChanged
    dsimp only
    split <;> rfl
  | roomRenamed | roomMoved | roomAclChanged => rfl
  | _ => exact Bool.noConfusion hu

theorem users_update (r : Roster) {u : Update} (hu : aboutUsers u = false) :
    (r.update u).users = r.users := by
  cases u with
  | roomCreated room =>
    unfold Roster.update updateEvent
    dsimp only
    cases room.bind Room.fromProto <;> rfl
  | roomDeleted roomId | roomRenamed roomId | roomMoved roomId | roomDescriptionChanged roomId
  | roomAclChanged roomId =>
    unfold Roster.update updateEvent
    dsimp only
    cases roomId.bind uuidFromRoomId <;> rfl
  | _ => exact Bool.noConfusion hu

/-- **Step lemma** for a user that is none of the bridge's. -/
theorem userAgrees_update {s : BridgeState} {r : Roster} (h : UserAgrees v s.rumbleUsers r.users)
    (hself : s.bridgeUserId ≠ some v) {clients : List UserId} {expected : ServerStateMsg}
    {u : Update} (hproper : Proper (.broadcast clients (.stateUpdate expected u)))
    (hnative : Native v s (.entry (.broadcast clients (.stateUpdate expected u)))) :
    UserAgrees v (s.handleStateUpdate u).1.rumbleUsers (r.update u).users := by
  have hvirtual : s.isVirtual v = false := by
    unfold Native at hnative
    split at hnative
    · exact hnative.1
    · exact hnative
  have hother : ∀ {u}, s.isVirtual u = true → v ≠ u := by
    rintro u hu rfl
    rw [hvirtual] at hu
    cases hu
  cases u with
  | userJoined user =>
    cases user with
    | none => exact h
    | some user => exact userAgrees_userJoined h hself hvirtual hnative.2
  | userLeft userId =>
    cases userId with
    | none => exact absurd hproper id
    | some u =>
      unfold BridgeState.handleStateUpdate BridgeState.handleUserLeft
      dsimp only [Option.getD_some]
      split_ifs with hu
      · exact h.filter_client (hother hu)
      · exact h.filter u
  | userMoved userId toRoomId =>
    cases userId with
    | none => exact absurd hproper id
    | some u =>
      cases toRoomId with
      | none => exact absurd hproper id
      | some room =>
        unfold BridgeState.handleStateUpdate BridgeState.handleUserMoved
        dsimp only [Option.getD_some]
        split_ifs with hu
        · exact h.edit_client u (fun _ => rfl) fun heq => absurd heq (hother hu)
        · exact h.edit u (fun _ => rfl) (fun _ => rfl)
            (fun e => { e with currentRoom := (uuidFromRoomId room).getD rootRoomUuid })
            (fun _ => rfl) fun _ => rfl
  | userStatusChanged userId isMuted isDeafened serverMuted isElevated =>
    cases userId with
    | none => exact absurd hproper id
    | some u =>
      unfold BridgeState.handleStateUpdate BridgeState.handleUserStatusChanged
      dsimp only [Option.getD_some]
      split_ifs with hu
      · exact h.edit_client u (fun _ => rfl) fun heq => absurd heq (hother hu)
      · exact h.edit u (fun _ => rfl) (fun _ => rfl)
          (fun e => { e with isMuted := isMuted, isDeafened := isDeafened })
          (fun _ => rfl) fun _ => rfl
  | userGroupChanged u group added expires =>
    exact h.edit_client u (fun _ => rfl) fun _ _ => rfl
  | groupChanged group deleted => cases group <;> cases deleted <;> exact h
  | roomCreated | roomDeleted | roomRenamed | roomMoved | roomDescriptionChanged
  | roomAclChanged => rwa [users_handleStateUpdate s rfl, users_update r rfl]

end Users

/-! ## Steps -/

/-- The cache, and who the bridge is, are left alone. -/
structure SameCache (s s' : BridgeState) : Prop where
  rooms : s'.rumbleRooms = s.rumbleRooms
  users : s'.rumbleUsers = s.rumbleUsers
  self : s'.bridgeUserId = s.bridgeUserId

theorem sameCache_own (s : BridgeState) {step : BridgeStep} (h : step.Own) :
    SameCache s (s.step step) := by
  cases step with
  | reconnect userId => exact absurd h id
  | removeClient session => exact ⟨rfl, rfl, rfl⟩
  | registerClient username =>
    show SameCache s (s.registerClient username).2
    unfold BridgeState.registerClient
    split
    · exact ⟨rfl, rfl, rfl⟩
    · generalize Option.map MumbleClient.session _ = superseded
      cases superseded <;> exact ⟨rfl, rfl, rfl⟩
  | event e =>
    cases e with
    | rumbleEnvelope env => exact absurd h id
    | mumbleClientJoined session username => exact ⟨rfl, rfl, rfl⟩
    | mumbleClientLeft session => exact ⟨rfl, rfl, rfl⟩
    | mumbleClientSender session =>
      show SameCache s (s.handleClientSender session).1
      unfold BridgeState.handleClientSender
      dsimp only
      split <;> exact ⟨rfl, rfl, rfl⟩
    | mumbleChannelChange session channelId =>
      show SameCache s (s.handleChannelChange session channelId).1
      unfold BridgeState.handleChannelChange
      dsimp only
      split <;> exact ⟨rfl, rfl, rfl⟩
    | mumbleMuteDeafChange session isMuted isDeafened =>
      show SameCache s (s.handleMuteDeafChange session isMuted isDeafened).1
      unfold BridgeState.handleMuteDeafChange
      dsimp only
      split <;> exact ⟨rfl, rfl, rfl⟩

/-- Only full states and updates reach the cache. -/
theorem sameCache_ofFrame (s : BridgeState) {f : Frame} (hf : isStateFrame f = false) :
    SameCache s (s.handleEvent (.rumbleEnvelope (.ofFrame f))).1 := by
  cases f with
  | serverState | stateUpdate => exact Bool.noConfusion hf
  | participantRegistered userId username =>
    show SameCache s (s.handleParticipantRegistered userId username).1
    unfold BridgeState.handleParticipantRegistered
    split <;> exact ⟨rfl, rfl, rfl⟩
  | _ => exact ⟨rfl, rfl, rfl⟩

theorem bridgeUserId_handleStateUpdate (s : BridgeState) (u : Update) :
    (s.handleStateUpdate u).1.bridgeUserId = s.bridgeUserId := by
  unfold BridgeState.handleStateUpdate
  split
  case h_1 user =>
    unfold BridgeState.handleUserJoined
    dsimp only
    split_ifs <;> rfl
  case h_3 =>
    unfold BridgeState.handleUserLeft
    dsimp only
    split_ifs <;> rfl
  case h_4 =>
    unfold BridgeState.handleUserMoved
    dsimp only
    split_ifs <;> rfl
  case h_5 =>
    unfold BridgeState.handleUserStatusChanged
    dsimp only
    split_ifs <;> rfl
  case h_6 =>
    unfold BridgeState.handleRoomCreated
    split <;> rfl
  case h_8 =>
    unfold BridgeState.handleRoomDeleted
    split <;> rfl
  case h_11 =>
    unfold BridgeState.handleRoomDescriptionChanged
    dsimp only
    split <;> rfl
  all_goals rfl

/-- The cache has what the client has that is fed by the same log. -/
structure Caches (V : UserId → Prop) (c : UserId) (stale : Stale) (s : Subscriber)
    (r : Option Replica) : Prop where
  self : s.bridge.bridgeUserId = some c
  online : s.online = r.isSome
  rooms : ∀ x ∈ r, RoomsAgree stale s.bridge.rumbleRooms x.state.roster.rooms
  users : ∀ v, V v → ∀ x ∈ r, UserAgrees v s.bridge.rumbleUsers x.state.roster.users

namespace Caches

variable {V : UserId → Prop} {c : UserId} {stale : Stale} {s : Subscriber} {r : Option Replica}

/-- Before the first full state the cache has nothing to agree on. -/
theorem offline (hself : s.bridge.bridgeUserId = some c) (hoff : s.online = false) :
    Caches V c stale s none where
  self := hself
  online := hoff
  rooms x hx := absurd hx (Option.not_mem_none x)
  users _ _ x hx := absurd hx (Option.not_mem_none x)

theorem of_sameCache (h : Caches V c stale s r) {b : BridgeState} (hb : SameCache s.bridge b) :
    Caches V c stale ⟨b, s.online⟩ r where
  self := hb.self.trans h.self
  online := h.online
  rooms := fun x hx => by
    rw [hb.rooms]
    exact h.rooms x hx
  users := fun v hv x hx => by
    rw [hb.users]
    exact h.users v hv x hx

/-- A full state replaces everything on both sides. -/
theorem fullState (hself : s.bridge.bridgeUserId = some c) {m m' : ServerStateMsg}
    (hrooms : m'.rooms.filterMap Room.fromProto = m.rooms.filterMap Room.fromProto)
    (husers : m'.users.filterMap User.fromProto = m.users.filterMap User.fromProto) {x : Replica}
    (hx : x.state.roster = ⟨m.rooms.filterMap Room.fromProto, m.users.filterMap User.fromProto,
      m.groups⟩) : Caches V c stale (s.handle (.serverState m')) (some x) where
  self := hself
  online := rfl
  rooms := fun y hy => by
    obtain rfl := Option.some.inj hy
    rw [hx]
    exact congrArg (List.map (roomEntry stale)) hrooms
  users := fun v _ y hy => by
    obtain rfl := Option.some.inj hy
    rw [hx]
    exact congrArg (fun l => (ClientState.findUser l v).map userEntry) husers

theorem roster_fullState (x : Replica) (m : ServerStateMsg) :
    (x.apply (Client.fullState m)).state.roster =
      ⟨m.rooms.filterMap Room.fromProto, m.users.filterMap User.fromProto, m.groups⟩ :=
  ClientState.roster_applyRoom x.state _

theorem roster_connected (k : Handshake) (m : ServerStateMsg) :
    (k.connected c m).state.roster =
      ⟨m.rooms.filterMap Room.fromProto, m.users.filterMap User.fromProto, m.groups⟩ :=
  (ClientState.roster_applyRoom _ _).trans (roster_fullState _ m)

/-- The full state of the handshake, and every later one. -/
theorem receive_fullState (h : Caches V c stale s r) (k : Handshake) (hash m : ServerStateMsg) :
    Caches V c .none (s.receive c (.send (primary c) (.serverState hash m)))
      (Client.receive k c r (.send (primary c) (.serverState hash m))) := by
  have hs : s.receive c (.send (primary c) (.serverState hash m)) =
      if s.online then s.handle (.serverState m) else s.handle (.serverState (connectState m)) :=
    if_pos rfl
  obtain ⟨x, hx, hroster⟩ : ∃ x, Client.receive k c r (.send (primary c) (.serverState hash m)) =
      some x ∧ x.state.roster = ⟨m.rooms.filterMap Room.fromProto,
        m.users.filterMap User.fromProto, m.groups⟩ := by
    unfold Client.receive
    dsimp only
    rw [if_pos rfl]
    cases r with
    | none => exact ⟨_, rfl, roster_connected k m⟩
    | some x => exact ⟨_, rfl, roster_fullState x m⟩
  rw [hs, hx]
  split
  · exact fullState h.self rfl rfl hroster
  · exact fullState h.self ((filterMap_fromProto_rooms _ id).trans (List.map_id _))
      (filterMap_fromProto_users _) hroster

/-- An update. -/
theorem receive_stateUpdate (h : Caches V c stale s r) (k : Handshake) (hV : ¬ V c)
    {clients : List UserId} {expected : ServerStateMsg} {u : Update} (hc : c ∈ clients)
    (hproper : Proper (.broadcast clients (.stateUpdate expected u)))
    (hnative : ∀ v, V v →
      Native v s.bridge (.entry (.broadcast clients (.stateUpdate expected u)))) :
    Caches V c (stale.update u) (s.receive c (.broadcast clients (.stateUpdate expected u)))
      (Client.receive k c r (.broadcast clients (.stateUpdate expected u))) := by
  unfold Subscriber.receive
  dsimp only
  cases r with
  | none =>
    have hoff : s.online = false := h.online
    rw [if_neg (by rw [hoff]; simp)]
    have hr : Client.receive k c none (.broadcast clients (.stateUpdate expected u)) = none := by
      unfold Client.receive
      exact if_pos hc
    rw [hr]
    exact .offline h.self hoff
  | some x =>
    obtain ⟨y, hy, hroster, -⟩ := receive_update k hc x expected u
    have hself : ∀ v, V v → s.bridge.bridgeUserId ≠ some v := fun v hv heq =>
      hV (Option.some.inj (h.self.symm.trans heq) ▸ hv)
    rw [if_pos ⟨hc, h.online⟩, Option.mem_def.mp hy]
    refine ⟨(bridgeUserId_handleStateUpdate _ _).trans h.self, rfl, fun z hz => ?_,
      fun v hv z hz => ?_⟩
    · obtain rfl := Option.some.inj hz
      rw [hroster]
      exact roomsAgree_update (h.rooms x rfl) u
    · obtain rfl := Option.some.inj hz
      rw [hroster]
      exact userAgrees_update (h.users v hv x rfl) (hself v hv) hproper (hnative v hv)

/-- Any other frame. -/
theorem handle_quiet (h : Caches V c stale s r) {f : Frame} (hf : isStateFrame f = false)
    (hon : s.online = true) : Caches V c stale (s.handle (.ofFrame f)) r := by
  have hsame := h.of_sameCache (sameCache_ofFrame s.bridge hf)
  rwa [hon] at hsame

theorem receive_send_quiet (h : Caches V c stale s r) {f : Frame} (hf : isStateFrame f = false) :
    Caches V c stale (s.receive c (.send (primary c) f)) r := by
  unfold Subscriber.receive
  dsimp only
  rw [if_pos rfl]
  split
  · exact h.handle_quiet hf ‹_›
  · cases f with
    | serverState => exact Bool.noConfusion hf
    | _ => exact h

theorem receive_broadcast_quiet (h : Caches V c stale s r) (clients : List UserId) {f : Frame}
    (hf : isStateFrame f = false) : Caches V c stale (s.receive c (.broadcast clients f)) r := by
  unfold Subscriber.receive
  dsimp only
  split
  · rename_i hboth
    exact h.handle_quiet hf hboth.2
  · exact h

/-- **Step lemma** for an entry of the log. -/
theorem receive (h : Caches V c stale s r) (k : Handshake) (hV : ¬ V c) {o : Out}
    (hproper : Proper o) (hnative : ∀ v, V v → Native v s.bridge (.entry o)) :
    Caches V c (stale.receive c o) (s.receive c o) (Client.receive k c r o) := by
  cases o with
  | relay => exact h
  | send t f =>
    by_cases ht : t = primary c
    · subst t
      cases f
      case stateUpdate => exact absurd hproper id
      case serverState hash m =>
        have hstale : stale.receive c (.send (primary c) (.serverState hash m)) = .none :=
          if_pos rfl
        rw [hstale]
        exact h.receive_fullState k hash m
      all_goals exact h.receive_send_quiet rfl
    · have hs : s.receive c (.send t f) = s := if_neg ht
      have hr : Client.receive k c r (.send t f) = r := by
        cases f with
        | serverState hash m => exact receive_fullState_ne k ht r hash m
        | _ => rfl
      have hstale : stale.receive c (.send t f) = stale := by
        cases f with
        | serverState hash m => exact if_neg ht
        | _ => rfl
      rwa [hs, hr, hstale]
  | broadcast clients f =>
    by_cases hc : c ∈ clients
    · cases f
      case stateUpdate expected u =>
        have hstale : stale.receive c (.broadcast clients (.stateUpdate expected u)) =
            stale.update u := if_pos hc
        rw [hstale]
        exact h.receive_stateUpdate k hV hc hproper hnative
      case serverState => exact absurd hproper id
      all_goals exact h.receive_broadcast_quiet clients rfl
    · have hs : s.receive c (.broadcast clients f) = s := if_neg fun hboth => hc hboth.1
      have hr : Client.receive k c r (.broadcast clients f) = r := by
        cases f with
        | stateUpdate expected u => exact if_neg hc
        | _ => rfl
      have hstale : stale.receive c (.broadcast clients f) = stale := by
        cases f with
        | stateUpdate expected u => exact if_neg hc
        | _ => rfl
      rwa [hs, hr, hstale]

end Caches

/-! ## Runs -/

/-- Where the log comes in: the entries of the inputs, in order. -/
def entries (inputs : List BridgeInput) : List Out := inputs.filterMap BridgeInput.entry?

/-- **Run lemma.** The bridge's own steps are about Mumble clients, and the users in `V` stay
native. -/
theorem Caches.run {V : UserId → Prop} {c : UserId} (k : Handshake) (hV : ¬ V c)
    {inputs : List BridgeInput} {stale : Stale} {s : Subscriber} {r : Option Replica}
    (h : Caches V c stale s r) (hproper : ∀ o ∈ entries inputs, Proper o)
    (hown : ∀ step, .own step ∈ inputs → BridgeStep.Own step)
    (hnative : ∀ v, V v →
      Always (Subscriber.step · c ·) (fun s i => Native v s.bridge i) s inputs) :
    Caches V c ((entries inputs).foldl (Stale.receive c) stale)
      (inputs.foldl (Subscriber.step · c ·) s) ((entries inputs).foldl (Client.receive k c) r) := by
  induction inputs generalizing stale s r with
  | nil => exact h
  | cons i inputs ih =>
    have hrest := fun step hstep => hown step (List.mem_cons_of_mem i hstep)
    cases i with
    | entry o =>
      obtain ⟨ho, hproper⟩ := List.forall_mem_cons.mp hproper
      exact ih (h.receive k hV ho fun v hv => (hnative v hv).1) hproper hrest
        fun v hv => (hnative v hv).2
    | own step =>
      have hstep := h.of_sameCache (sameCache_own s.bridge (hown step List.mem_cons_self))
      exact ih hstep hproper hrest fun v hv => (hnative v hv).2

/-- A new connection of user `c`, with whatever the bridge kept of the ones before. -/
def BridgeState.onConnection (b : BridgeState) (c : UserId) : Subscriber :=
  ⟨{ b with bridgeUserId := some c }, false⟩

/-- **The cache follows the server.** Take any run of followable events on the server, and any order
in which the bridge, which logged in as user `c`, reads the whole log and does steps of its own in
between. Then it has got a full state, its rooms are those of the server in the same order, with
their descriptions, and their names and parents unless they changed since the last full state; and
of every user that was native all along it has the name, the room and the mute and deafen flags. -/
theorem cache_run (cfg : Config) (store : Persistence) {events : List Input}
    (ho : Always (stepInput cfg) (fun w i => Followable False w i.2) (World.boot store) events)
    {c : UserId} (hclient : (run cfg (World.boot store) events).state.getClient c = true)
    (hauth : ((run cfg (World.boot store) events).state.conn c).authenticated = true)
    (b : BridgeState) {inputs : List BridgeInput}
    (hlog : entries inputs = (run cfg (World.boot store) events).log)
    (hown : ∀ step, .own step ∈ inputs → BridgeStep.Own step) :
    (inputs.foldl (Subscriber.step · c ·) (b.onConnection c)).online = true ∧
    RoomsAgree ((entries inputs).foldl (Stale.receive c) .none)
      (inputs.foldl (Subscriber.step · c ·) (b.onConnection c)).bridge.rumbleRooms
      (run cfg (World.boot store) events).rooms ∧
    ∀ v, v ≠ c →
      Always (Subscriber.step · c ·) (fun s i => Native v s.bridge i) (b.onConnection c) inputs →
      (ClientState.findUser (inputs.foldl (Subscriber.step · c ·)
        (b.onConnection c)).bridge.rumbleUsers v).map userEntry =
        ((run cfg (World.boot store) events).state.userView v).map userEntry := by
  let k : Handshake := ⟨ClientState.new, Bytes.rep 32 0, Bytes.rep 32 0⟩
  have htracked := tracked_run (h := fun _ => k) cfg store ho
  have hproper : ∀ o ∈ entries inputs, Proper o := hlog ▸ htracked.sound
  obtain ⟨x, hx, hmatch, -⟩ := htracked.agrees c
    ⟨hclient, hauth, htracked.holds.placed c hclient hauth nofun⟩
  have hshown : (entries inputs).foldl (Client.receive k c) none = some x := hlog ▸ hx
  have hrun : ∀ V : UserId → Prop, ¬ V c →
      (∀ v, V v →
        Always (Subscriber.step · c ·) (fun s i => Native v s.bridge i) (b.onConnection c) inputs) →
      Caches V c ((entries inputs).foldl (Stale.receive c) .none)
        (inputs.foldl (Subscriber.step · c ·) (b.onConnection c)) (some x) := by
    intro V hV hnative
    have hstart : Caches V c .none (b.onConnection c) none := .offline rfl rfl
    rw [← hshown]
    exact hstart.run k hV hproper hown hnative
  have hbase := hrun (fun _ => False) id fun _ => False.elim
  refine ⟨hbase.online, ?_, fun v hv hnative => ?_⟩
  · have hrooms := hbase.rooms x rfl
    unfold RoomsAgree at *
    rw [hrooms, ← hmatch.rooms, List.map_map]
    rfl
  · have huser := (hrun (· = v) hv.symm fun _ heq => heq ▸ hnative).users v rfl x rfl
    unfold UserAgrees at huser
    exact huser.trans (congrArg (Option.map userEntry) (hmatch.users v))

/-- While the bridge reads the log, a Mumble client comes in. -/
def sampleReading : List BridgeInput :=
  .own (.registerClient "mia") ::
    (run sampleConfig (World.boot sampleAdminStore) sampleSession).log.map .entry ++
      [.own (.event (.mumbleClientJoined 1000 "mia"))]

theorem cache_run_sample : (ClientState.findUser (sampleReading.foldl (Subscriber.step · 1 ·)
      (BridgeState.new.onConnection 1)).bridge.rumbleUsers 2).map userEntry =
    ((run sampleConfig (World.boot sampleAdminStore) sampleSession).state.userView 2).map
      userEntry := by
  have ho : Always (stepInput sampleConfig) (fun w i => Followable False w i.2)
      (World.boot sampleAdminStore) sampleSession := by decide +kernel
  have hlog : entries sampleReading =
      (run sampleConfig (World.boot sampleAdminStore) sampleSession).log := by
    have hentries : ∀ log : List Out,
        (log.map BridgeInput.entry).filterMap BridgeInput.entry? = log := fun log => by
      rw [List.filterMap_map]
      exact List.filterMap_some
    unfold entries sampleReading
    rw [List.cons_append, List.filterMap_cons, List.filterMap_append, hentries]
    exact List.append_nil _
  have hown : ∀ step, BridgeInput.own step ∈ sampleReading → step.Own := by
    intro step hstep
    unfold sampleReading at hstep
    simp only [List.cons_append, List.mem_cons, List.mem_append, List.mem_map,
      BridgeInput.own.injEq, reduceCtorEq, and_false, exists_false, false_or, List.not_mem_nil,
      or_false] at hstep
    rcases hstep with rfl | rfl <;> trivial
  have hnative : Always (Subscriber.step · 1 ·) (fun s i => Native 2 s.bridge i)
      (BridgeState.new.onConnection 1) sampleReading := by decide +kernel
  exact (cache_run sampleConfig sampleAdminStore ho (by decide +kernel) (by decide +kernel) .new
    hlog hown).2.2 2 (by decide) hnative

end Rumble.Bridge
