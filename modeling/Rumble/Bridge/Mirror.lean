import Rumble.Bridge.Ids
import Rumble.Bridge.RoomOrder

/-!
# What a Mumble client shows

A Mumble client as a table of channels and a table of users, and how it applies the messages of
reconciliation: an absent field of a state message leaves the old value. `Mirrors` says that a
client shows exactly the rooms of a projection and the users that have a proxy session. The
messages of reconciliation are then read off the final id maps.
-/

namespace Rumble.Bridge

open Rumble.Lib Rumble.Lib.Transition Rumble.Server

/-! ## The client -/

structure ViewChannel where
  parent : Option UInt32
  name : String
  description : Option String
  deriving DecidableEq

structure ViewUser where
  name : String
  channelId : UInt32
  selfMute : Bool
  selfDeaf : Bool
  deriving DecidableEq

structure ClientView where
  channels : Table UInt32 ViewChannel
  users : Table UInt32 ViewUser

namespace ClientView

/-- A channel state creates the channel or writes the fields that are present. -/
def applyChannelState (v : ClientView) (m : ChannelState) : ClientView :=
  let old := v.channels.get m.channelId
  let channel : ViewChannel :=
    { parent := m.parent <|> old.bind ViewChannel.parent
      name := m.name.getD ((old.map ViewChannel.name).getD "")
      description := m.description <|> old.bind ViewChannel.description }
  { v with channels := v.channels.set m.channelId channel }

/-- A user state creates the user or writes the fields that are present. -/
def applyUserState (v : ClientView) (m : MumbleUserState) : ClientView :=
  let old := v.users.get m.session
  let user : ViewUser :=
    { name := m.name.getD ((old.map ViewUser.name).getD "")
      channelId := m.channelId.getD ((old.map ViewUser.channelId).getD 0)
      selfMute := m.selfMute.getD ((old.map ViewUser.selfMute).getD false)
      selfDeaf := m.selfDeaf.getD ((old.map ViewUser.selfDeaf).getD false) }
  { v with users := v.users.set m.session user }

def apply (v : ClientView) : SyncMessage → ClientView
  | .userRemove session _ => { v with users := v.users.del session }
  | .userState m => v.applyUserState m
  | .channelRemove channelId => { v with channels := v.channels.del channelId }
  | .channelState m => v.applyChannelState m

def applyAll (v : ClientView) (messages : List SyncMessage) : ClientView := messages.foldl apply v

/-- The parent links of the channels; the root channel has no parent and links to itself. -/
def link (v : ClientView) (channelId : UInt32) : Option UInt32 :=
  (v.channels.get channelId).map fun c => c.parent.getD 0

/-- The channels form a tree under channel 0 and every user is in one of them. -/
structure Consistent (v : ClientView) : Prop where
  tree : Rooted v.link 0
  housed : ∀ session u, v.users.get session = some u → (v.channels.get u.channelId).isSome

end ClientView

/-! ## Projections -/

/-- A well-formed projection: a room tree, users with distinct ids, everyone in an existing room. -/
structure WellFormed (rooms : List Room) (users : List User) : Prop where
  tree : RoomTree rooms
  distinct : (users.map User.userId).Nodup
  housed : ∀ u ∈ users, u.currentRoom ∈ rooms.map Room.id

/-- A room as a client shows it. -/
def viewRoom (m : ChannelMap) (room : Room) : ViewChannel where
  parent := if room.id = rootRoomUuid then none else ChannelMap.getMumbleId m room.parent
  name := room.name
  description := room.description

/-- A user as a client shows it. -/
def viewUser (m : ChannelMap) (user : User) : ViewUser where
  name := user.username
  channelId := (ChannelMap.getMumbleId m user.currentRoom).getD 0
  selfMute := user.isMuted
  selfDeaf := user.isDeafened

/-- The client shows the rooms, and the users that have a proxy session. -/
structure Mirrors (v : ClientView) (rooms : List Room) (users : List User) (channels : ChannelMap)
    (sessions : UserMap) : Prop where
  channel : ∀ id, v.channels.get id = (ChannelMap.getRumbleUuid channels id).bind fun uuid =>
    (roomByUuid rooms uuid).map (viewRoom channels)
  mapped : ∀ room ∈ rooms, (ChannelMap.getMumbleId channels room.id).isSome
  user : ∀ session, v.users.get session = (UserMap.getRumbleId sessions session).bind fun userId =>
    (userById users userId).map (viewUser channels)
  known : ∀ userId, (UserMap.getMumbleSession sessions userId).isSome →
    userId ∈ users.map User.userId

/-! ## Channel maps that grow -/

theorem ChannelMap.extends_getOrInsert {m : ChannelMap} (h : ChannelMap.Sound m) (uuid : Uuid) :
    IdMap.Extends m (ChannelMap.getOrInsert m uuid).2 := by
  unfold ChannelMap.getOrInsert
  split
  · rename_i huuid
    subst huuid
    intro k id hk
    show (m.forward.set rootRoomUuid 0).get k = some id
    by_cases hroot : k = rootRoomUuid
    · subst hroot
      rw [Table.get_set_self, h.root id hk]
    · rw [Table.get_set_ne hroot, hk]
  · exact IdMap.extends_getOrInsert m uuid

theorem ChannelMap.forward_getOrInsert (m : ChannelMap) (uuid : Uuid) :
    (ChannelMap.getOrInsert m uuid).2.forward.get uuid =
      some (ChannelMap.getOrInsert m uuid).1 := by
  unfold ChannelMap.getOrInsert
  split
  · exact Table.get_set_self _ _ _
  · exact IdMap.forward_getOrInsert uuid

theorem ChannelMap.isSome_getOrInsert (m : ChannelMap) (uuid k : Uuid) :
    ((ChannelMap.getOrInsert m uuid).2.forward.get k).isSome ↔
      k = uuid ∨ (m.forward.get k).isSome := by
  unfold ChannelMap.getOrInsert
  split
  · rename_i huuid
    subst huuid
    show ((m.forward.set rootRoomUuid 0).get k).isSome ↔ _
    rw [Table.get_set]
    by_cases hroot : k = rootRoomUuid
    · simp [hroot]
    · simp [hroot]
  · exact IdMap.isSome_getOrInsert m uuid k

/-- The id of a room, channel 0 when it has none. -/
def ChannelMap.idOf (m : ChannelMap) (uuid : Uuid) : UInt32 := (m.forward.get uuid).getD 0

theorem ChannelMap.idOf_eq {m m' : ChannelMap} (h : IdMap.Extends m m') {uuid : Uuid} {id : UInt32}
    (hid : m.forward.get uuid = some id) : ChannelMap.idOf m' uuid = id := by
  rw [ChannelMap.idOf, h uuid id hid]
  rfl

/-! ## The messages of each phase -/

/-- The announcement of a room under the final channel map. -/
def roomMessage (oldRooms : List Room) (m : ChannelMap) (room : Room) : Option SyncMessage :=
  channelMessage oldRooms room (ChannelMap.idOf m room.id)
    (if room.id = rootRoomUuid then none else some (ChannelMap.idOf m room.parent))

/-- The announcement of a user under the final maps. -/
def userMessage (oldUsers : List User) (sessions : UserMap) (m : ChannelMap) (m' : UserMap)
    (user : User) : Option SyncMessage :=
  if userChanged oldUsers sessions user then
    some (.userState
      { session := (m'.forward.get user.userId).getD 0
        actor := none
        name := some user.username
        channelId := some (ChannelMap.idOf m user.currentRoom)
        selfMute := some user.isMuted
        selfDeaf := some user.isDeafened })
  else none

theorem visitRoom_sound {oldRooms : List Room} {acc : List SyncMessage × ChannelMap} {room : Room}
    (h : ChannelMap.Sound acc.2) (hfit : (visitRoom oldRooms acc room).2.next ≤ 2 ^ 32) :
    ChannelMap.Sound (visitRoom oldRooms acc room).2 ∧
      IdMap.Extends acc.2 (visitRoom oldRooms acc room).2 := by
  refine ⟨(edited_visitRoom oldRooms acc room).sound h hfit, ?_⟩
  unfold visitRoom at hfit ⊢
  dsimp only at hfit ⊢
  split at hfit
  · rename_i hroot
    rw [if_pos hroot]
    exact ChannelMap.extends_getOrInsert h room.id
  · rename_i hroot
    rw [if_neg hroot]
    have hnext := ChannelMap.next_le_getOrInsert (ChannelMap.getOrInsert acc.2 room.id).2 room.parent
    exact (ChannelMap.extends_getOrInsert h room.id).trans
      (ChannelMap.extends_getOrInsert (h.getOrInsert room.id (hnext.trans hfit)) room.parent)

/-- One room of the walk, with ids from any map that extends the result. -/
theorem visitRoom_messages {oldRooms : List Room} {acc : List SyncMessage × ChannelMap} {room : Room}
    (h : ChannelMap.Sound acc.2) (hfit : (visitRoom oldRooms acc room).2.next ≤ 2 ^ 32)
    {m : ChannelMap} (hm : IdMap.Extends (visitRoom oldRooms acc room).2 m) :
    (visitRoom oldRooms acc room).1 = acc.1 ++ (roomMessage oldRooms m room).toList := by
  unfold visitRoom roomMessage at *
  dsimp only at hfit hm ⊢
  by_cases hroot : room.id = rootRoomUuid
  · rw [if_pos hroot] at hfit hm ⊢
    rw [if_pos hroot, ChannelMap.idOf_eq hm (ChannelMap.forward_getOrInsert acc.2 room.id)]
  · rw [if_neg hroot] at hfit hm ⊢
    have hnext := ChannelMap.next_le_getOrInsert (ChannelMap.getOrInsert acc.2 room.id).2 room.parent
    have hext := ChannelMap.extends_getOrInsert (h.getOrInsert room.id (hnext.trans hfit)) room.parent
    rw [if_neg hroot,
      ChannelMap.idOf_eq (hext.trans hm) (ChannelMap.forward_getOrInsert acc.2 room.id),
      ChannelMap.idOf_eq hm (ChannelMap.forward_getOrInsert _ room.parent)]

/-- **The rooms of the walk**: the channel map grows, and the messages carry its final ids. -/
theorem visitRooms_messages (oldRooms : List Room) (order : List Room) :
    ∀ acc : List SyncMessage × ChannelMap, ChannelMap.Sound acc.2 →
      (order.foldl (visitRoom oldRooms) acc).2.next ≤ 2 ^ 32 →
      ChannelMap.Sound (order.foldl (visitRoom oldRooms) acc).2 ∧
      IdMap.Extends acc.2 (order.foldl (visitRoom oldRooms) acc).2 ∧
      ∀ m, IdMap.Extends (order.foldl (visitRoom oldRooms) acc).2 m →
        (order.foldl (visitRoom oldRooms) acc).1 =
          acc.1 ++ order.filterMap (roomMessage oldRooms m) := by
  induction order with
  | nil => exact fun acc h _ => ⟨h, .refl _, fun m _ => (List.append_nil _).symm⟩
  | cons room order ih =>
    intro acc h hfit
    rw [List.foldl_cons] at hfit ⊢
    have hle := (reflTransGen_foldl (fun acc : List SyncMessage × ChannelMap => acc.2)
      (visitRoom oldRooms) (edited_visitRoom oldRooms) order (visitRoom oldRooms acc room))
    have hnext := (ChannelMap.Edited.next_le hle).trans hfit
    obtain ⟨hsound, hext⟩ := visitRoom_sound h hnext
    obtain ⟨hsound', hext', hmessages⟩ := ih _ hsound hfit
    refine ⟨hsound', hext.trans hext', fun m hm => ?_⟩
    rw [hmessages m hm, visitRoom_messages h hnext (hext'.trans hm), List.append_assoc,
      List.filterMap_cons]
    cases roomMessage oldRooms m room <;> rfl

theorem userChanged_congr {oldUsers : List User} {m m' : UserMap} {user : User}
    (h : m.forward.get user.userId = m'.forward.get user.userId) :
    userChanged oldUsers m user = userChanged oldUsers m' user := by
  unfold userChanged UserMap.getMumbleSession
  rw [h]

theorem userMessage_congr {oldUsers : List User} {m m' : UserMap} {channels : ChannelMap}
    {sessions : UserMap} {user : User}
    (h : m.forward.get user.userId = m'.forward.get user.userId) :
    userMessage oldUsers m channels sessions user =
      userMessage oldUsers m' channels sessions user := by
  unfold userMessage
  rw [userChanged_congr h]

/-- One user, with ids from any maps that extend the result. -/
theorem visitUser_messages {oldUsers : List User} {acc : List SyncMessage × ChannelMap × UserMap}
    {user : User} {m : ChannelMap} {m' : UserMap}
    (hm : IdMap.Extends (visitUser oldUsers acc user).2.1 m)
    (hm' : IdMap.Extends (visitUser oldUsers acc user).2.2 m') :
    (visitUser oldUsers acc user).1 =
      acc.1 ++ (userMessage oldUsers acc.2.2 m m' user).toList := by
  have hchannel := ChannelMap.idOf_eq hm (ChannelMap.forward_getOrInsert acc.2.1 user.currentRoom)
  have hsession := hm' _ _ (IdMap.forward_getOrInsert user.userId)
  unfold visitUser userMessage
  dsimp only
  rw [hchannel, hsession]
  cases userChanged oldUsers acc.2.2 user <;> rfl

/-- **The users in order**: the maps grow, and the messages carry their final ids. -/
theorem visitUsers_messages (oldUsers : List User) (l : List User)
    (hnd : (l.map User.userId).Nodup) :
    ∀ acc : List SyncMessage × ChannelMap × UserMap, ChannelMap.Sound acc.2.1 →
      (l.foldl (visitUser oldUsers) acc).2.1.next ≤ 2 ^ 32 →
      ChannelMap.Sound (l.foldl (visitUser oldUsers) acc).2.1 ∧
      IdMap.Extends acc.2.1 (l.foldl (visitUser oldUsers) acc).2.1 ∧
      ∀ m m', IdMap.Extends (l.foldl (visitUser oldUsers) acc).2.1 m →
        IdMap.Extends (l.foldl (visitUser oldUsers) acc).2.2 m' →
        (l.foldl (visitUser oldUsers) acc).1 =
          acc.1 ++ l.filterMap (userMessage oldUsers acc.2.2 m m') := by
  induction l with
  | nil => exact fun acc h _ => ⟨h, .refl _, fun m m' _ _ => (List.append_nil _).symm⟩
  | cons user l ih =>
    intro acc h hfit
    rw [List.map_cons, List.nodup_cons] at hnd
    rw [List.foldl_cons] at hfit ⊢
    have hle := reflTransGen_foldl (fun acc : List SyncMessage × ChannelMap × UserMap => acc.2.1)
      (visitUser oldUsers) (fun acc user => ChannelMap.Edited.insert acc.2.1 user.currentRoom) l
      (visitUser oldUsers acc user)
    have hnext := (ChannelMap.Edited.next_le hle).trans hfit
    have hext := ChannelMap.extends_getOrInsert h user.currentRoom
    obtain ⟨hsound', hext', hmessages⟩ := ih hnd.2 _ (h.getOrInsert user.currentRoom hnext) hfit
    refine ⟨hsound', hext.trans hext', fun m m' hm hm' => ?_⟩
    have husers : IdMap.Extends (visitUser oldUsers acc user).2.2 m' := by
      refine IdMap.Extends.trans ?_ hm'
      rw [BridgeState.users_foldl_visitUser]
      exact IdMap.extends_insertAll _ _
    have hrest : l.filterMap (userMessage oldUsers (visitUser oldUsers acc user).2.2 m m') =
        l.filterMap (userMessage oldUsers acc.2.2 m m') := by
      refine List.filterMap_congr fun u hu => userMessage_congr ?_
      refine IdMap.forward_getOrInsert_ne acc.2.2 ?_
      intro heq
      exact hnd.1 (heq ▸ List.mem_map_of_mem hu)
    rw [hmessages m m' hm hm', visitUser_messages (hext'.trans hm) husers, hrest, List.append_assoc,
      List.filterMap_cons]
    cases userMessage oldUsers acc.2.2 m m' user <;> rfl

/-! ## Reconciliation by its final maps -/

section Reconcile

variable (oldRooms : List Room) (oldUsers : List User) (newRooms : List Room)
  (newUsers : List User) (channels : ChannelMap) (users : UserMap) (skip : SkipRules)

/-- The users of the new state that are shown. -/
def shownUsers : List User := newUsers.filter fun u => !skip.skips u

/-- The sessions that are left when the vanished users are gone. -/
def remainingSessions : UserMap :=
  (vanished newUsers users skip).foldl (fun m e => UserMap.removeByRumbleId m e.1) users

def visitedRooms : List SyncMessage × ChannelMap :=
  (roomsInOrder newRooms).foldl (visitRoom oldRooms) ([], channels)

def visitedUsers : List SyncMessage × ChannelMap × UserMap :=
  (shownUsers newUsers skip).foldl (visitUser oldUsers)
    ([], (visitedRooms oldRooms newRooms channels).2, remainingSessions newUsers users skip)

/-- The channel map once every room and user has been visited. -/
def assignedChannels : ChannelMap :=
  (visitedUsers oldRooms oldUsers newRooms newUsers channels users skip).2.1

/-- What reconciliation does, in terms of the channel map `m` with every id assigned. -/
structure Reconciles (m : ChannelMap) (out : ReconcileOutput) : Prop where
  sound : ChannelMap.Sound m
  fits : m.next ≤ 2 ^ 32
  grows : IdMap.Extends channels m
  rooms : ∀ room ∈ newRooms, (m.forward.get room.id).isSome
  messages : out.messages =
    (vanished newUsers users skip).map (fun e => SyncMessage.userRemove e.2 "Left") ++
    (roomsInOrder newRooms).filterMap (roomMessage oldRooms m) ++
    (shownUsers newUsers skip).filterMap (userMessage oldUsers users m out.users) ++
    (removedChannels oldRooms newRooms m).map fun e => SyncMessage.channelRemove e.2.1
  channels : out.channels =
    ((removedChannels oldRooms newRooms m).map fun e => e.2.2).foldl IdMap.remove m
  sessions : UserMap.Sound out.users
  shown : ∀ userId, (out.users.forward.get userId).isSome ↔
    userId ∈ (shownUsers newUsers skip).map User.userId
  kept : ∀ userId ∈ (shownUsers newUsers skip).map User.userId, ∀ session,
    users.forward.get userId = some session → out.users.forward.get userId = some session

/-- The counters have room for the ids that reconciliation takes. -/
def RoomForIds : Prop :=
  let out := reconcileServerState oldRooms oldUsers newRooms newUsers channels users skip
  out.channels.next ≤ 2 ^ 32 ∧ out.users.next ≤ 2 ^ 32

variable {oldRooms oldUsers newRooms newUsers channels users skip}

theorem isSome_visitRooms (order : List Room) (acc : List SyncMessage × ChannelMap)
    {k : Uuid} : k ∈ order.map Room.id ∨ (acc.2.forward.get k).isSome →
      ((order.foldl (visitRoom oldRooms) acc).2.forward.get k).isSome := by
  induction order generalizing acc with
  | nil => simp
  | cons room order ih =>
    intro h
    refine ih _ ?_
    have hvisit : k = room.id ∨ (acc.2.forward.get k).isSome →
        ((visitRoom oldRooms acc room).2.forward.get k).isSome := by
      intro h
      have hid := (ChannelMap.isSome_getOrInsert acc.2 room.id k).mpr h
      unfold visitRoom
      dsimp only
      split
      · exact hid
      · exact (ChannelMap.isSome_getOrInsert _ room.parent k).mpr (.inr hid)
    rw [List.map_cons, List.mem_cons] at h
    rcases h with (heq | hmem) | hsome
    · exact .inr (hvisit (.inl heq))
    · exact .inl hmem
    · exact .inr (hvisit (.inr hsome))

theorem nodup_shownUsers (h : (newUsers.map User.userId).Nodup) :
    ((shownUsers newUsers skip).map User.userId).Nodup :=
  h.sublist (List.filter_sublist.map _)

theorem remainingSessions_eq : remainingSessions newUsers users skip =
    ((vanished newUsers users skip).map Prod.fst).foldl IdMap.remove users := by
  rw [List.foldl_map]
  rfl

theorem forward_remainingSessions {user : User} (h : user ∈ shownUsers newUsers skip) :
    (remainingSessions newUsers users skip).forward.get user.userId =
      users.forward.get user.userId := by
  rw [remainingSessions_eq]
  exact IdMap.forward_foldl_remove_ne (BridgeState.not_mem_vanished h) users

/-- Every session that is left belongs to a shown user. -/
theorem isSome_remainingSessions {userId : UserId}
    (h : ((remainingSessions newUsers users skip).forward.get userId).isSome) :
    userId ∈ (shownUsers newUsers skip).map User.userId := by
  rw [remainingSessions_eq, IdMap.forward_foldl_remove] at h
  split at h
  · cases h
  · rename_i hmem
    by_contra hshown
    obtain ⟨session, hsession⟩ := Option.isSome_iff_exists.mp h
    refine hmem (List.mem_map.mpr ⟨(userId, session), ?_, rfl⟩)
    unfold vanished
    rw [List.mem_insertionSort, List.mem_filter, decide_eq_true_eq]
    exact ⟨Table.mem_toPairs.mpr hsession, hshown⟩

theorem next_visitedRooms_le : (visitedRooms oldRooms newRooms channels).2.next ≤
    (assignedChannels oldRooms oldUsers newRooms newUsers channels users skip).next :=
  ChannelMap.Edited.next_le (reflTransGen_foldl
    (fun acc : List SyncMessage × ChannelMap × UserMap => acc.2.1) (visitUser oldUsers)
    (fun acc user => ChannelMap.Edited.insert acc.2.1 user.currentRoom) (shownUsers newUsers skip)
    ([], (visitedRooms oldRooms newRooms channels).2, remainingSessions newUsers users skip))

theorem channels_reconcile :
    (reconcileServerState oldRooms oldUsers newRooms newUsers channels users skip).channels =
      ((removedChannels oldRooms newRooms (assignedChannels oldRooms oldUsers newRooms newUsers
        channels users skip)).map fun e => e.2.2).foldl IdMap.remove
          (assignedChannels oldRooms oldUsers newRooms newUsers channels users skip) := by
  rw [List.foldl_map]
  rfl

theorem users_reconcile_eq :
    (reconcileServerState oldRooms oldUsers newRooms newUsers channels users skip).users =
      IdMap.insertAll (remainingSessions newUsers users skip)
        ((shownUsers newUsers skip).map User.userId) := by
  rw [remainingSessions_eq]
  exact BridgeState.users_reconcile _ _ _ _ _ _ _

/-- **Reconciliation by its final maps.** -/
theorem reconciles (hc : ChannelMap.Sound channels) (hu : UserMap.Sound users)
    (hnew : WellFormed newRooms newUsers)
    (hfit : RoomForIds oldRooms oldUsers newRooms newUsers channels users skip) :
    Reconciles oldRooms oldUsers newRooms newUsers channels users skip
      (assignedChannels oldRooms oldUsers newRooms newUsers channels users skip)
      (reconcileServerState oldRooms oldUsers newRooms newUsers channels users skip) := by
  have hfits : (assignedChannels oldRooms oldUsers newRooms newUsers channels users skip).next ≤
      2 ^ 32 := by
    have := hfit.1
    rwa [channels_reconcile, IdMap.next_foldl_remove] at this
  obtain ⟨hsound, hext, hrooms⟩ := visitRooms_messages oldRooms (roomsInOrder newRooms)
    ([], channels) hc (next_visitedRooms_le.trans hfits)
  obtain ⟨hsound', hext', husers⟩ := visitUsers_messages oldUsers (shownUsers newUsers skip)
    (nodup_shownUsers hnew.distinct) ([], _, remainingSessions newUsers users skip) hsound hfits
  have hsessions : (reconcileServerState oldRooms oldUsers newRooms newUsers channels users
      skip).users = (visitedUsers oldRooms oldUsers newRooms newUsers channels users skip).2.2 := rfl
  refine ⟨hsound', hfits, hext.trans hext', ?_, ?_, channels_reconcile, ?_, ?_, ?_⟩
  · intro room hroom
    refine hext'.isSome (isSome_visitRooms _ _ (.inl (List.mem_map_of_mem ?_)))
    exact ((roomOrder_roomsInOrder hnew.tree).mem_iff room).mpr hroom
  · have hroomMessages : (visitedRooms oldRooms newRooms channels).1 =
        (roomsInOrder newRooms).filterMap (roomMessage oldRooms (assignedChannels oldRooms oldUsers
          newRooms newUsers channels users skip)) := hrooms _ hext'
    have huserMessages : (visitedUsers oldRooms oldUsers newRooms newUsers channels users skip).1 =
        (shownUsers newUsers skip).filterMap (userMessage oldUsers users
          (assignedChannels oldRooms oldUsers newRooms newUsers channels users skip)
          (visitedUsers oldRooms oldUsers newRooms newUsers channels users skip).2.2) :=
      (husers _ _ (.refl _) (.refl _)).trans
        (List.filterMap_congr fun u hu => userMessage_congr (forward_remainingSessions hu))
    rw [hsessions, ← hroomMessages, ← huserMessages]
    rfl
  · exact (edited_users_reconcile _ _ _ _ _ _ _).sound hu hfit.2
  · intro userId
    rw [users_reconcile_eq, IdMap.isSome_insertAll]
    exact or_iff_left_of_imp isSome_remainingSessions
  · intro userId hmem session hsession
    obtain ⟨user, huser, rfl⟩ := List.mem_map.mp hmem
    rw [users_reconcile_eq]
    refine IdMap.extends_insertAll _ _ _ _ ?_
    rw [forward_remainingSessions huser, hsession]

end Reconcile

end Rumble.Bridge
