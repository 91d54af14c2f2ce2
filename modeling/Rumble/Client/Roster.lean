import Rumble.Client.OwnRoom

/-!
# The lists of the projection

The rooms, users and groups the client shows, as room events edit them (`apply_room` of
`rumble-client/src/projection.rs`). What an event does to the lists depends on nothing else in the
client's state, and connection events leave them alone: `roster_applyRoom` and
`roster_applyConnection`. So the lists that the events on their way lead to are known when they are
sent (`ClientSys.sentRoster`).
-/

namespace Rumble.Client

open Rumble.Lib

/-- Rooms, users and group definitions. -/
structure Roster where
  rooms : List Room
  users : List User
  groups : List Group
  deriving DecidableEq

namespace Roster

def empty : Roster := ⟨[], [], []⟩

variable (r : Roster)

def editRoom (room : Uuid) (f : Room → Room) : Roster :=
  { r with rooms := modifyFirst (fun r => r.id == room) f r.rooms }

def editUser (userId : UserId) (f : User → User) : Roster :=
  { r with users := modifyFirst (fun u => u.userId == userId) f r.users }

def apply : RoomEvent → Roster
  | .fullStateReplaced rooms users groups _ _ => ⟨rooms, users, groups⟩
  | .roomAdded room => { r with rooms := r.rooms ++ [room] }
  | .roomRemoved roomId => { r with rooms := r.rooms.filter fun x => x.id ≠ roomId }
  | .roomRenamed roomId name => r.editRoom roomId fun x => { x with name := name }
  | .roomMoved roomId newParent =>
    r.editRoom roomId fun x => { x with parent := newParent.getD rootRoomUuid }
  | .roomDescriptionSet roomId description =>
    r.editRoom roomId fun x => { x with description := description }
  | .roomAclChanged roomId inheritAcl acls =>
    r.editRoom roomId fun x => { x with inheritAcl := inheritAcl, acls := acls }
  | .userJoined user =>
    if r.users.any (fun u => u.userId == user.userId) then r
    else { r with users := r.users ++ [user] }
  | .userLeft userId => { r with users := r.users.filter fun u => u.userId ≠ userId }
  | .userMoved userId roomId =>
    r.editUser userId fun u => { u with currentRoom := roomId.getD rootRoomUuid }
  | .userStatusChanged userId isMuted isDeafened serverMuted isElevated =>
    r.editUser userId fun u => { u with
      isMuted := isMuted
      isDeafened := isDeafened
      serverMuted := serverMuted
      isElevated := isElevated }
  | .userGroupChanged userId group added =>
    r.editUser userId fun u => { u with
      groups := if added then pushGroup u.groups group else u.groups.filter (· ≠ group) }
  | .groupAdded group | .groupModified group =>
    { r with groups := (modifyFirst? (fun g => g.name == group.name) (fun _ => group)
      r.groups).getD (r.groups ++ [group]) }
  | .groupRemoved name => { r with groups := r.groups.filter fun g => g.name ≠ name }
  | .registeredUsersReplaced _ | .selfMovedToRoom _ | .stateHashCheckpoint _ => r

end Roster

namespace ClientState

variable (s : ClientState)

def roster : Roster := ⟨s.rooms, s.users, s.groupDefinitions⟩

@[simp] theorem roster_recompute : s.recomputeEffectivePermissions.roster = s.roster := by
  obtain ⟨_, _, h⟩ := s.recompute_eq
  rw [h]
  rfl

@[simp] theorem roster_adopt : s.adoptRoomPermissions.roster = s.roster := by
  unfold adoptRoomPermissions
  split <;> rfl

@[simp] theorem roster_editUser (userId : UserId) (f : User → User) :
    (s.editUser userId f).roster = s.roster.editUser userId f := rfl

theorem roster_moveUser (userId : UserId) (room : Option Uuid) :
    (s.moveUser userId room).1.roster = s.roster.apply (.userMoved userId room) := by
  unfold moveUser
  dsimp only
  split
  · split
    · unfold enterRoom
      rw [roster_recompute]
      rfl
    · rfl
  split
  · rfl
  split
  · rfl
  · rfl

/-- An edit of a user that is not listed changes nothing. -/
theorem editUser_of_not_listed {r : Roster} {userId : UserId} (f : User → User)
    (h : findUser r.users userId = none) : r.editUser userId f = r := by
  unfold Roster.editUser
  rw [modifyFirst_eq_self fun u hu => by simpa using List.find?_eq_none.mp h u hu]

theorem roster_setUserStatus (userId : UserId) (m d sm e : Bool) :
    (s.setUserStatus userId m d sm e).1.roster =
      s.roster.apply (.userStatusChanged userId m d sm e) := by
  unfold setUserStatus
  split
  · rename_i hfind
    exact (editUser_of_not_listed (r := s.roster) _ hfind).symm
  dsimp only
  split
  · dsimp only
    split
    · rw [roster_recompute]
      rfl
    · rfl
  · rfl

/-- Two edits that agree on the first user with the id. -/
theorem editUser_congr {r : Roster} {userId : UserId} {f g : User → User} {user : User}
    (hfind : findUser r.users userId = some user) (hfg : f user = g user) :
    r.editUser userId f = r.editUser userId g := by
  have hlist : ∀ {users : List User}, findUser users userId = some user →
      modifyFirst (fun u => u.userId == userId) f users =
        modifyFirst (fun u => u.userId == userId) g users := by
    intro users
    induction users with
    | nil => exact fun _ => rfl
    | cons u users ih =>
      intro h
      unfold findUser at h
      rw [List.find?_cons] at h
      cases hu : u.userId == userId with
      | true =>
        rw [hu] at h
        obtain rfl : u = user := Option.some.inj h
        simp [modifyFirst_cons, hu, hfg]
      | false =>
        rw [hu] at h
        simp [modifyFirst_cons, hu, ih h]
  unfold Roster.editUser
  rw [hlist hfind]

theorem roster_setUserGroup (userId : UserId) (group : String) (added : Bool) :
    (s.setUserGroup userId group added).roster =
      s.roster.apply (.userGroupChanged userId group added) := by
  unfold setUserGroup
  split
  · rename_i hfind
    exact (editUser_of_not_listed (r := s.roster) _ hfind).symm
  rename_i user hfind
  have hedit : s.roster.editUser userId (fun u => { u with
      groups := if added then pushGroup user.groups group else user.groups.filter (· ≠ group) }) =
      s.roster.apply (.userGroupChanged userId group added) :=
    editUser_congr (r := s.roster) hfind rfl
  rw [← hedit]
  dsimp only
  generalize (if added then pushGroup user.groups group else
    user.groups.filter (· ≠ group)) = groups
  split
  · rw [roster_recompute]
    rfl
  · rfl

/-- **What a room event does to the lists** depends on the lists only. -/
theorem roster_applyRoom (e : RoomEvent) : (s.applyRoom e).1.roster = s.roster.apply e := by
  cases e with
  | userMoved userId room => exact s.roster_moveUser userId room
  | userStatusChanged userId m d sm e => exact s.roster_setUserStatus userId m d sm e
  | userGroupChanged userId group added => exact s.roster_setUserGroup userId group added
  | userJoined user =>
    unfold applyRoom addUser Roster.apply
    dsimp only
    by_cases h : s.users.any (fun u => u.userId == user.userId)
    · rw [if_pos h]
      exact (if_pos h).symm
    · rw [if_neg h]
      exact (if_neg h).symm
  | fullStateReplaced =>
    unfold applyRoom replaceFullState
    rw [roster_recompute, roster_adopt]
    rfl
  | roomAdded | roomRemoved | roomAclChanged | groupAdded | groupModified | groupRemoved
    | selfMovedToRoom => exact roster_recompute _
  | stateHashCheckpoint | roomRenamed | roomMoved | roomDescriptionSet | userLeft
    | registeredUsersReplaced => rfl

/-- Connection events leave the lists alone. -/
@[simp] theorem roster_applyConnection (e : ConnectionEvent) :
    (s.applyConnection e).roster = s.roster := by
  cases e with
  | connected => exact roster_recompute _
  | _ => rfl

end ClientState

/-! ## The lists that the events sent so far lead to -/

namespace ClientSys

variable (c : ClientSys)

/-- The lists once the room channel is drained. -/
def sentRoster : Roster := c.room.foldl (fun r x => r.apply x.event) c.state.roster

@[simp] theorem sentRoster_sendConnection (e : ConnectionEvent) :
    (c.sendConnection e).sentRoster = c.sentRoster := rfl

@[simp] theorem sentRoster_sendRoom (e : RoomEvent) :
    (c.sendRoom e).sentRoster = c.sentRoster.apply e := by
  simp [sentRoster, sendRoom, List.foldl_append]

theorem sentRoster_drainConnection : (c.step .drainConnection).sentRoster = c.sentRoster := by
  obtain hstep | ⟨e, rest, -, hstep⟩ := c.drainConnection_cases
  · rw [hstep]
  · simp [hstep, sentRoster]

theorem sentRoster_drainRoom : (c.step .drainRoom).sentRoster = c.sentRoster := by
  obtain hstep | ⟨e, rest, hroom, hstep⟩ := c.drainRoom_cases
  · rw [hstep]
  · simp [hstep, sentRoster, hroom, ClientState.roster_applyRoom]

theorem sentRoster_of_drained (h : c.room = []) : c.sentRoster = c.state.roster := by
  simp [sentRoster, h]

end ClientSys

end Rumble.Client
