import Rumble.Bridge.Mirror

/-!
# The phases of reconciliation

The messages of reconciliation, applied in order by a client that mirrors the old projection. Each
phase has an invariant on the items done so far: channels are announced parents first, so a channel
is only ever put below channels that are already in their new place; users move before channels go;
and the channels that go are leaves, the deepest first.
-/

namespace Rumble.Bridge

open Rumble.Lib Rumble.Lib.Transition Rumble.Server

/-! ## Links of a client -/

namespace ClientView

theorem link_set {v v' : ClientView} {x : UInt32} {c : ViewChannel}
    (h : ∀ id, v'.channels.get id = if id = x then some c else v.channels.get id) :
    v'.link = Function.update v.link x (some (c.parent.getD 0)) := by
  funext id
  rw [link, h]
  by_cases hid : id = x
  · subst hid
    simp
  · rw [if_neg hid, Function.update_of_ne hid, link]

theorem link_del {v v' : ClientView} {x : UInt32}
    (h : ∀ id, v'.channels.get id = if id = x then none else v.channels.get id) :
    v'.link = Function.update v.link x none := by
  funext id
  rw [link, h]
  by_cases hid : id = x
  · subst hid
    simp
  · rw [if_neg hid, Function.update_of_ne hid, link]

end ClientView

theorem mem_map_concat {α β : Type} {f : α → β} {done : List α} {a : α} {b : β} (h : b ≠ f a) :
    b ∈ done.map f ++ [a].map f ↔ b ∈ done.map f := by
  rw [List.mem_append]
  exact or_iff_left fun hlast => h (List.mem_singleton.mp hlast)

/-! ## The setting -/

/-- A room after its announcement: a description that is not sent stays. -/
def mergedRoom (oldRooms : List Room) (m : ChannelMap) (room : Room) : ViewChannel :=
  { viewRoom m room with
    description := room.description <|> (roomByUuid oldRooms room.id).bind Room.description }

/-- The channel of a room once the rooms in `done` have been announced. -/
def announced (oldRooms newRooms : List Room) (m : ChannelMap) (done : List Uuid) (uuid : Uuid) :
    Option ViewChannel :=
  if uuid ∈ done then (roomByUuid newRooms uuid).map (mergedRoom oldRooms m)
  else (roomByUuid oldRooms uuid).map (viewRoom m)

/-- A client that mirrors the old projection, and what reconciliation with the new one does. -/
structure Setting (oldRooms : List Room) (oldUsers : List User) (newRooms : List Room)
    (newUsers : List User) (channels : ChannelMap) (users : UserMap) (skip : SkipRules)
    (v : ClientView) (m : ChannelMap) (out : ReconcileOutput) : Prop where
  old : WellFormed oldRooms oldUsers
  new : WellFormed newRooms newUsers
  channelIds : ChannelMap.Sound channels
  userIds : UserMap.Sound users
  mirrors : Mirrors v oldRooms oldUsers channels users
  reconciles : Reconciles oldRooms oldUsers newRooms newUsers channels users skip m out

namespace Setting

variable {oldRooms newRooms : List Room} {oldUsers newUsers : List User} {channels : ChannelMap}
  {users : UserMap} {skip : SkipRules} {v : ClientView} {m : ChannelMap} {out : ReconcileOutput}

section Ids

variable (h : Setting oldRooms oldUsers newRooms newUsers channels users skip v m out)

include h

theorem mapped_old {uuid : Uuid} (huuid : uuid ∈ oldRooms.map Room.id) :
    ∃ id, channels.forward.get uuid = some id ∧ m.forward.get uuid = some id := by
  obtain ⟨room, hroom, rfl⟩ := List.mem_map.mp huuid
  obtain ⟨id, hid⟩ := Option.isSome_iff_exists.mp (h.mirrors.mapped room hroom)
  exact ⟨id, hid, h.reconciles.grows _ _ hid⟩

theorem mapped_new {uuid : Uuid} (huuid : uuid ∈ newRooms.map Room.id) :
    ∃ id, m.forward.get uuid = some id := by
  obtain ⟨room, hroom, rfl⟩ := List.mem_map.mp huuid
  exact Option.isSome_iff_exists.mp (h.reconciles.rooms room hroom)

theorem back_iff {uuid : Uuid} {id : UInt32} :
    m.back.get id = some uuid ↔ m.forward.get uuid = some id :=
  (h.reconciles.sound.ids.inverse uuid id).symm

theorem root_new : rootRoomUuid ∈ newRooms.map Room.id := by
  obtain ⟨root, hroot, -, huniq⟩ := h.new.tree.root
  exact List.mem_map.mpr ⟨root, hroot, (huniq root hroot).mpr rfl⟩

theorem root_id {id : UInt32} (hid : m.forward.get rootRoomUuid = some id) : id = 0 :=
  h.reconciles.sound.root id hid

theorem root_of_zero {uuid : Uuid} (hid : m.forward.get uuid = some 0) : uuid = rootRoomUuid :=
  h.reconciles.sound.at_zero h.reconciles.fits hid

theorem parent_new {room : Room} (hroom : room ∈ newRooms) (hne : room.id ≠ rootRoomUuid) :
    room.parent ∈ newRooms.map Room.id := by
  obtain ⟨p, hp, hpid⟩ := h.new.tree.parents room hroom hne
  exact hpid ▸ List.mem_map_of_mem hp

theorem parent_old {room : Room} (hroom : room ∈ oldRooms) (hne : room.id ≠ rootRoomUuid) :
    room.parent ∈ oldRooms.map Room.id := by
  obtain ⟨p, hp, hpid⟩ := h.old.tree.parents room hroom hne
  exact hpid ▸ List.mem_map_of_mem hp

/-- Old rooms look the same under the grown map. -/
theorem viewRoom_old {room : Room} (hroom : room ∈ oldRooms) :
    viewRoom m room = viewRoom channels room := by
  unfold viewRoom ChannelMap.getMumbleId
  by_cases hroot : room.id = rootRoomUuid
  · rw [if_pos hroot, if_pos hroot]
  · obtain ⟨id, hid, hid'⟩ := h.mapped_old (h.parent_old hroom hroot)
    rw [if_neg hroot, if_neg hroot, hid, hid']

/-- Old users look the same under the grown map. -/
theorem viewUser_old {user : User} (huser : user ∈ oldUsers) :
    viewUser m user = viewUser channels user := by
  unfold viewUser ChannelMap.getMumbleId
  obtain ⟨id, hid, hid'⟩ := h.mapped_old (h.old.housed user huser)
  rw [hid, hid']

/-- The client starts with the old rooms, under the grown map. -/
theorem channel_start (id : UInt32) :
    v.channels.get id = (m.back.get id).bind (announced oldRooms newRooms m []) := by
  rw [h.mirrors.channel id]
  have hannounced : announced oldRooms newRooms m [] =
      fun uuid => (roomByUuid oldRooms uuid).map (viewRoom m) := by
    funext uuid
    rw [announced, if_neg List.not_mem_nil]
  rw [hannounced]
  cases hback : ChannelMap.getRumbleUuid channels id with
  | some uuid =>
    have hm := h.reconciles.grows _ _ ((h.channelIds.ids.inverse uuid id).mpr hback)
    rw [h.back_iff.mpr hm, Option.bind_some, Option.bind_some]
    refine Option.map_congr fun room hroom => ?_
    exact (h.viewRoom_old ((roomByUuid_eq_some_iff h.old.tree.distinct).mp hroom).1).symm
  | none =>
    cases hm : m.back.get id with
    | none => rfl
    | some uuid =>
      -- an id that the walk has taken is not of an old room
      rw [Option.bind_none, Option.bind_some, eq_comm, Option.map_eq_none_iff,
        roomByUuid_eq_none_iff]
      intro hold
      obtain ⟨id', hid, hid'⟩ := h.mapped_old hold
      obtain rfl := Option.some.inj ((h.back_iff.mp hm).symm.trans hid')
      rw [ChannelMap.getRumbleUuid, (h.channelIds.ids.inverse uuid id).mp hid] at hback
      cases hback

end Ids

/-! ## Consistent clients -/

section Consistency

variable (h : Setting oldRooms oldUsers newRooms newUsers channels users skip v m out)

include h

/-- The client starts with a tree. -/
theorem tree_start : Rooted v.link 0 := by
  have hnd := h.old.tree.distinct
  have hlinks := h.old.tree.rooted
  have hmem : ∀ uuid, (parentLink oldRooms uuid).isSome → uuid ∈ oldRooms.map Room.id := by
    intro uuid huuid
    obtain ⟨room, hroom, rfl⟩ := parentLink_isSome.mp huuid
    exact List.mem_map_of_mem hroom
  have hidOf : ∀ uuid ∈ oldRooms.map Room.id,
      m.forward.get uuid = some (ChannelMap.idOf m uuid) := by
    intro uuid huuid
    obtain ⟨id, -, hid⟩ := h.mapped_old huuid
    rw [ChannelMap.idOf, hid]
    rfl
  have hview : ∀ room ∈ oldRooms,
      v.link (ChannelMap.idOf m room.id) = some ((viewRoom m room).parent.getD 0) := by
    intro room hroom
    rw [ClientView.link, h.channel_start,
      h.back_iff.mpr (hidOf _ (List.mem_map_of_mem hroom)), Option.bind_some, announced,
      if_neg List.not_mem_nil, (roomByUuid_eq_some_iff hnd).mpr ⟨hroom, rfl⟩]
    rfl
  have hroot : ChannelMap.idOf m rootRoomUuid = 0 := by
    refine h.root_id (hidOf _ (hmem _ ?_))
    rw [hlinks.root_link]
    rfl
  suffices hrooted : Rooted v.link (ChannelMap.idOf m rootRoomUuid) from hroot ▸ hrooted
  refine hlinks.image (ChannelMap.idOf m) ?_ ?_ ?_
  · intro a a' ha ha' heq
    refine h.reconciles.sound.ids.inj (hidOf a (hmem a ha)) ?_
    rw [heq]
    exact hidOf a' (hmem a' ha')
  · intro a a' haa
    obtain ⟨room, hroom, rfl, rfl⟩ := exists_of_parentLink haa
    rw [hview room hroom]
    unfold viewRoom ChannelMap.getMumbleId
    by_cases hid : room.id = rootRoomUuid
    · rw [hid, hlinks.root_link] at haa
      rw [if_pos hid, ← Option.some.inj haa, hroot]
      rfl
    · rw [if_neg hid]
      rfl
  · intro id hid
    obtain ⟨b, hb⟩ := Option.isSome_iff_exists.mp hid
    rw [ClientView.link, h.channel_start] at hb
    obtain ⟨c, hc, -⟩ := Option.map_eq_some_iff.mp hb
    obtain ⟨uuid, huuid, hannounced⟩ := Option.bind_eq_some_iff.mp hc
    rw [announced, if_neg List.not_mem_nil] at hannounced
    obtain ⟨room, hfind, -⟩ := Option.map_eq_some_iff.mp hannounced
    obtain ⟨hroom, rfl⟩ := (roomByUuid_eq_some_iff hnd).mp hfind
    refine ⟨room.id, parentLink_isSome.mpr ⟨room, hroom, rfl⟩, ?_⟩
    rw [ChannelMap.idOf, h.back_iff.mp huuid]
    rfl

/-- A client is consistent when its users are in rooms whose channels it has. -/
theorem consistent {w : ClientView} {f : Uuid → Option ViewChannel}
    (hchannel : ∀ id, w.channels.get id = (m.back.get id).bind f) (htree : Rooted w.link 0)
    (husers : ∀ session u, w.users.get session = some u → ∃ user : User,
      u = viewUser m user ∧ (m.forward.get user.currentRoom).isSome ∧
        (f user.currentRoom).isSome) : w.Consistent := by
  refine ⟨htree, fun session u hu => ?_⟩
  obtain ⟨user, rfl, hmapped, hf⟩ := husers session u hu
  obtain ⟨id, hid⟩ := Option.isSome_iff_exists.mp hmapped
  have hview : (viewUser m user).channelId = id := by
    show (m.forward.get user.currentRoom).getD 0 = id
    rw [hid]
    rfl
  rwa [hview, hchannel, h.back_iff.mpr hid, Option.bind_some]

end Consistency

/-! ## Channels: additions and changes -/

section Rooms

variable (h : Setting oldRooms oldUsers newRooms newUsers channels users skip v m out)

include h

theorem roomMessage_eq {room : Room} (hroom : room ∈ newRooms) :
    roomMessage oldRooms m room =
      channelMessage oldRooms room (ChannelMap.idOf m room.id) (viewRoom m room).parent := by
  unfold roomMessage viewRoom ChannelMap.getMumbleId
  by_cases hroot : room.id = rootRoomUuid
  · rw [if_pos hroot, if_pos hroot]
  · obtain ⟨id, hid⟩ := h.mapped_new (h.parent_new hroom hroot)
    rw [if_neg hroot, if_neg hroot, hid, ChannelMap.idOf, ChannelMap.idOf, hid]
    rfl

/-- A parent that is not sent is the old one. -/
theorem parent_view {room old : Room} (hroom : room ∈ newRooms)
    (hold : roomByUuid oldRooms room.id = some old) :
    ((viewRoom m room).parent <|> (viewRoom m old).parent) = (viewRoom m room).parent := by
  have hid := ((roomByUuid_eq_some_iff h.old.tree.distinct).mp hold).2
  unfold viewRoom ChannelMap.getMumbleId
  by_cases hroot : room.id = rootRoomUuid
  · rw [if_pos hroot, if_pos (hid.trans hroot)]
    rfl
  · obtain ⟨id, hmapped⟩ := h.mapped_new (h.parent_new hroom hroot)
    rw [if_neg hroot, hmapped]
    rfl

/-- A room that is not announced looks as it did. -/
theorem merged_unchanged {room old : Room} (hold : roomByUuid oldRooms room.id = some old)
    (hname : old.name = room.name) (hdescription : old.description = room.description)
    (hparent : old.parent = room.parent) : mergedRoom oldRooms m room = viewRoom m old := by
  have hid := ((roomByUuid_eq_some_iff h.old.tree.distinct).mp hold).2
  unfold mergedRoom viewRoom
  rw [hold, hid, hname, hparent, Option.bind_some, hdescription]
  cases room.description <;> rfl

/-- The announcement of a room writes its channel and nothing else. -/
theorem apply_roomMessage {w : ClientView} {room : Room} (hroom : room ∈ newRooms)
    (hw : w.channels.get (ChannelMap.idOf m room.id) =
      (roomByUuid oldRooms room.id).map (viewRoom m)) :
    (∀ id, ((roomMessage oldRooms m room).elim w w.apply).channels.get id =
      if id = ChannelMap.idOf m room.id then some (mergedRoom oldRooms m room)
      else w.channels.get id) ∧
    ((roomMessage oldRooms m room).elim w w.apply).users = w.users := by
  rw [h.roomMessage_eq hroom]
  unfold channelMessage
  cases hold : roomByUuid oldRooms room.id with
  | none =>
    rw [hold] at hw
    refine ⟨fun id => ?_, rfl⟩
    refine (Table.get_set _ _ id _).trans (if_congr Iff.rfl (congrArg some ?_) rfl)
    rw [hw, mergedRoom, hold]
    simp [viewRoom]
  | some old =>
    rw [hold] at hw
    dsimp only
    split
    · refine ⟨fun id => ?_, rfl⟩
      refine (Table.get_set _ _ id _).trans (if_congr Iff.rfl (congrArg some ?_) rfl)
      dsimp only
      rw [hw, mergedRoom, hold, Option.map_some, Option.bind_some, Option.bind_some, Option.bind_some,
        h.parent_view hroom hold]
      rfl
    · rename_i hsame
      simp only [Bool.or_eq_true, bne_iff_ne, ne_eq, not_or, Decidable.not_not] at hsame
      refine ⟨fun id => ?_, rfl⟩
      show w.channels.get id = _
      split
      · rename_i heq
        rw [heq, hw, h.merged_unchanged hold hsame.1.1 hsame.1.2 hsame.2]
        rfl
      · rfl

omit h in
/-- The channels of the client while rooms are announced. -/
structure Announcing (oldRooms newRooms : List Room) (m : ChannelMap) (w : ClientView)
    (done : List Room) (w' : ClientView) : Prop where
  channel : ∀ id, w'.channels.get id =
    (m.back.get id).bind (announced oldRooms newRooms m (done.map Room.id))
  tree : Rooted w'.link 0
  users : w'.users = w.users

theorem get_idOf {w : ClientView} {f : Uuid → Option ViewChannel}
    (hw : ∀ id, w.channels.get id = (m.back.get id).bind f) {uuid : Uuid}
    (huuid : uuid ∈ newRooms.map Room.id) :
    w.channels.get (ChannelMap.idOf m uuid) = f uuid := by
  obtain ⟨id, hid⟩ := h.mapped_new huuid
  rw [ChannelMap.idOf, hid, Option.getD_some, hw, h.back_iff.mpr hid, Option.bind_some]

/-- A room that has been announced links to a room that has been announced. -/
theorem link_done {w w' : ClientView} {done rest : List Room}
    (hw : Announcing oldRooms newRooms m w done w') (horder : roomsInOrder newRooms = done ++ rest)
    {a b : UInt32} (hne : a ≠ 0) (hab : w'.link a = some b)
    (ha : ∃ uuid ∈ done.map Room.id, m.forward.get uuid = some a) :
    ∃ uuid ∈ done.map Room.id, m.forward.get uuid = some b := by
  have ho := roomOrder_roomsInOrder h.new.tree
  obtain ⟨uuid, hdone, hid⟩ := ha
  obtain ⟨room, hroom, rfl⟩ := List.mem_map.mp hdone
  have hnew : room ∈ newRooms := by
    rw [← ho.mem_iff, horder]
    exact List.mem_append_left _ hroom
  have hroot : room.id ≠ rootRoomUuid := by
    intro hroot
    rw [hroot] at hid
    exact hne (h.root_id hid)
  have hparent : room.parent ∈ done.map Room.id := by
    obtain ⟨pre, post, rfl⟩ := List.append_of_mem hroom
    have := ho.parent pre room (post ++ rest) (by rw [horder]; simp) hroot
    rw [List.map_append]
    exact List.mem_append_left _ this
  obtain ⟨p, hp⟩ := h.mapped_new (h.parent_new hnew hroot)
  refine ⟨room.parent, hparent, ?_⟩
  have hfind := (roomByUuid_eq_some_iff h.new.tree.distinct).mpr ⟨hnew, rfl⟩
  rw [ClientView.link, hw.channel, h.back_iff.mpr hid, Option.bind_some, announced, if_pos hdone,
    hfind] at hab
  have hview : (mergedRoom oldRooms m room).parent = some p := by
    show (if room.id = rootRoomUuid then none else m.forward.get room.parent) = _
    rw [if_neg hroot, hp]
  rw [Option.map_some, Option.map_some, hview, Option.getD_some] at hab
  rw [hp, Option.some.inj hab]

theorem above_done {w w' : ClientView} {done rest : List Room}
    (hw : Announcing oldRooms newRooms m w done w') (horder : roomsInOrder newRooms = done ++ rest)
    {a b : UInt32} (hab : Above w'.link 0 a b)
    (ha : ∃ uuid ∈ done.map Room.id, m.forward.get uuid = some a) :
    ∃ uuid ∈ done.map Room.id, m.forward.get uuid = some b := by
  induction hab with
  | refl => exact ha
  | up hne hlink _ ih => exact ih (h.link_done hw horder hne hlink ha)

/-- **One room of the walk** keeps the channels a tree. -/
theorem announce_step {w w' : ClientView} {done rest : List Room} {room : Room}
    (horder : roomsInOrder newRooms = done ++ room :: rest)
    (hw : Announcing oldRooms newRooms m w done w') :
    Announcing oldRooms newRooms m w (done ++ [room])
      ((roomMessage oldRooms m room).elim w' w'.apply) := by
  have ho := roomOrder_roomsInOrder h.new.tree
  have hnew : room ∈ newRooms := by
    rw [← ho.mem_iff, horder]
    exact List.mem_append_right _ List.mem_cons_self
  have hfresh : room.id ∉ done.map Room.id := by
    have hnd := ho.nodup
    rw [horder, List.map_append, List.map_cons] at hnd
    intro hmem
    exact (List.nodup_append.mp hnd).2.2 _ hmem _ List.mem_cons_self rfl
  have hcurrent : w'.channels.get (ChannelMap.idOf m room.id) =
      (roomByUuid oldRooms room.id).map (viewRoom m) := by
    rw [h.get_idOf hw.channel (List.mem_map_of_mem hnew), announced, if_neg hfresh]
  obtain ⟨id, hid⟩ := h.mapped_new (List.mem_map_of_mem hnew)
  have hidOf : ChannelMap.idOf m room.id = id := by rw [ChannelMap.idOf, hid]; rfl
  obtain ⟨hchannel, husers⟩ := h.apply_roomMessage hnew hcurrent
  rw [hidOf] at hchannel hcurrent
  refine ⟨fun id' => ?_, ?_, husers.trans hw.users⟩
  · rw [hchannel, List.map_append]
    by_cases heq : id' = id
    · subst heq
      have hfind := (roomByUuid_eq_some_iff h.new.tree.distinct).mpr ⟨hnew, rfl⟩
      have hlast : room.id ∈ done.map Room.id ++ [room].map Room.id := by simp
      rw [if_pos rfl, h.back_iff.mpr hid, Option.bind_some, announced, if_pos hlast, hfind]
      rfl
    · rw [if_neg heq, hw.channel]
      refine Option.bind_congr fun uuid huuid => ?_
      have hne : uuid ≠ room.id := by
        rintro rfl
        exact heq (Option.some.inj ((h.back_iff.mp huuid).symm.trans hid))
      simp [announced, hne]
  · rw [ClientView.link_set hchannel]
    by_cases hroot : room.id = rootRoomUuid
    · obtain rfl := h.root_id (hroot ▸ hid)
      have hparent : (mergedRoom oldRooms m room).parent.getD 0 = 0 := by
        show (if room.id = rootRoomUuid then none else m.forward.get room.parent).getD 0 = 0
        rw [if_pos hroot]
        rfl
      rw [hparent, ← hw.tree.root_link, Function.update_eq_self]
      exact hw.tree
    · have hne : id ≠ 0 := by
        rintro rfl
        exact hroot (h.root_of_zero hid)
      obtain ⟨p, hp⟩ := h.mapped_new (h.parent_new hnew hroot)
      have hdone := ho.parent done room rest horder hroot
      have hparent : (mergedRoom oldRooms m room).parent.getD 0 = p := by
        show (if room.id = rootRoomUuid then none else m.forward.get room.parent).getD 0 = p
        rw [if_neg hroot, hp]
        rfl
      have hexists : (w'.link p).isSome := by
        obtain ⟨parent, hparentRoom⟩ := List.mem_map.mp (h.parent_new hnew hroot)
        have hfind := (roomByUuid_eq_some_iff h.new.tree.distinct).mpr hparentRoom
        rw [ClientView.link, hw.channel, h.back_iff.mpr hp, Option.bind_some, announced, if_pos hdone,
          hfind]
        rfl
      rw [hparent]
      cases hlink : w'.link id with
      | none => exact hw.tree.addLeaf hlink hexists
      | some b =>
        refine hw.tree.moveEntry hne (by rw [hlink]; rfl) hexists fun habove => ?_
        obtain ⟨uuid, huuid, hid'⟩ := h.above_done hw horder habove ⟨room.parent, hdone, hp⟩
        exact hfresh (h.reconciles.sound.ids.inj hid hid' ▸ huuid)

end Rooms

/-! ## Users -/

/-- The user of a session once the users in `done` have been announced. -/
def placed (oldUsers newUsers : List User) (users : UserMap) (m : ChannelMap) (done : List UserId)
    (userId : UserId) : Option ViewUser :=
  if userId ∈ done then (userById newUsers userId).map (viewUser m)
  else if (users.forward.get userId).isSome then (userById oldUsers userId).map (viewUser m)
  else none

theorem mem_vanished {userId : UserId} {session : UInt32} :
    (userId, session) ∈ vanished newUsers users skip ↔
      users.forward.get userId = some session ∧
        userId ∉ (shownUsers newUsers skip).map User.userId := by
  unfold vanished
  rw [List.mem_insertionSort, List.mem_filter, decide_eq_true_eq]
  exact and_congr_left' Table.mem_toPairs

/-- A user that is not announced looks as it did. -/
theorem placed_unchanged {user : User}
    (hsame : userChanged oldUsers users user = false) :
    placed oldUsers newUsers users m [] user.userId = some (viewUser m user) := by
  unfold userChanged at hsame
  split at hsame
  · cases hsame
  · cases hsame
  · rename_i session old hsession hold
    simp only [Bool.or_eq_false_iff, bne_eq_false_iff_eq] at hsame
    obtain ⟨⟨⟨hname, hroom⟩, hmuted⟩, hdeafened⟩ := hsame
    have hforward : users.forward.get user.userId = some session := hsession
    rw [placed, if_neg List.not_mem_nil, hforward, Option.isSome_some, if_pos rfl, hold,
      Option.map_some, viewUser, viewUser, hname, hroom, hmuted, hdeafened]

section Users

variable (h : Setting oldRooms oldUsers newRooms newUsers channels users skip v m out)

include h

/-- When the vanished users are gone, the client shows the old users that stay. -/
theorem user_start (session : UInt32) :
    (if session ∈ (vanished newUsers users skip).map Prod.snd then none
      else v.users.get session) =
      (out.users.back.get session).bind (placed oldUsers newUsers users m []) := by
  have hsessions := h.reconciles.sessions
  rw [h.mirrors.user session]
  cases hback : UserMap.getRumbleId users session with
  | none =>
    rw [Option.bind_none, ite_self]
    cases hout : out.users.back.get session with
    | none => rfl
    | some userId =>
      -- the session is new
      have hforward := (hsessions.inverse userId session).mpr hout
      rw [Option.bind_some, placed, if_neg List.not_mem_nil]
      cases huser : users.forward.get userId with
      | none => rfl
      | some session' =>
        have hshown := (h.reconciles.shown userId).mp (by rw [hforward]; rfl)
        have hkept := h.reconciles.kept userId hshown session' huser
        obtain rfl := Option.some.inj (hforward.symm.trans hkept)
        rw [UserMap.getRumbleId, (h.userIds.inverse userId session).mp huser] at hback
        cases hback
  | some userId =>
    have huser := (h.userIds.inverse userId session).mpr hback
    rw [Option.bind_some]
    by_cases hshown : userId ∈ (shownUsers newUsers skip).map User.userId
    · have hkept := h.reconciles.kept userId hshown session huser
      rw [(hsessions.inverse userId session).mp hkept, Option.bind_some, placed,
        if_neg List.not_mem_nil, huser, Option.isSome_some, if_pos rfl, if_neg]
      · refine Option.map_congr fun user hold => ?_
        exact (h.viewUser_old ((userById_eq_some_iff h.old.distinct).mp hold).1).symm
      · intro hgone
        obtain ⟨⟨userId', session'⟩, hmem, rfl⟩ := List.mem_map.mp hgone
        obtain ⟨huser', hhidden⟩ := mem_vanished.mp hmem
        exact hhidden (h.userIds.inj huser huser' ▸ hshown)
    · rw [if_pos (List.mem_map.mpr ⟨(userId, session), mem_vanished.mpr ⟨huser, hshown⟩, rfl⟩)]
      cases hout : out.users.back.get session with
      | none => rfl
      | some userId' =>
        have hforward := (hsessions.inverse userId' session).mpr hout
        have hshown' := (h.reconciles.shown userId').mp (by rw [hforward]; rfl)
        rw [Option.bind_some, placed, if_neg List.not_mem_nil]
        cases huser' : users.forward.get userId' with
        | none => rfl
        | some session' =>
          have hkept := h.reconciles.kept userId' hshown' session' huser'
          obtain rfl := Option.some.inj (hforward.symm.trans hkept)
          exact absurd (h.userIds.inj huser huser' ▸ hshown') hshown

omit h in
/-- The users of the client while users are announced. -/
structure Placing (oldUsers newUsers : List User) (users : UserMap) (m : ChannelMap)
    (sessions : UserMap) (w : ClientView) (done : List User) (w' : ClientView) : Prop where
  user : ∀ session, w'.users.get session =
    (sessions.back.get session).bind
      (placed oldUsers newUsers users m (done.map User.userId))
  channels : w'.channels = w.channels

/-- **One user** is put in its place. -/
theorem place_step {w w' : ClientView} {done rest : List User} {user : User}
    (hlist : shownUsers newUsers skip = done ++ user :: rest)
    (hw : Placing oldUsers newUsers users m out.users w done w') :
    Placing oldUsers newUsers users m out.users w (done ++ [user])
      ((userMessage oldUsers users m out.users user).elim w' w'.apply) := by
  have hshown : user ∈ shownUsers newUsers skip := by
    rw [hlist]
    exact List.mem_append_right _ List.mem_cons_self
  have hnew : user ∈ newUsers := List.mem_of_mem_filter hshown
  have hfind := (userById_eq_some_iff h.new.distinct).mpr ⟨hnew, rfl⟩
  have hfresh : user.userId ∉ done.map User.userId := by
    have hnd : ((shownUsers newUsers skip).map User.userId).Nodup := nodup_shownUsers h.new.distinct
    rw [hlist, List.map_append, List.map_cons] at hnd
    intro hmem
    exact (List.nodup_append.mp hnd).2.2 _ hmem _ List.mem_cons_self rfl
  obtain ⟨session, hsession⟩ := Option.isSome_iff_exists.mp
    ((h.reconciles.shown user.userId).mpr (List.mem_map_of_mem hshown))
  have hback := (h.reconciles.sessions.inverse _ _).mp hsession
  have hwrite : ∀ id, ((userMessage oldUsers users m out.users user).elim w' w'.apply).users.get id =
      if id = session then some (viewUser m user) else w'.users.get id := by
    intro id
    unfold userMessage
    split
    · rw [hsession]
      exact Table.get_set _ _ id _
    · rename_i hsame
      rw [Bool.not_eq_true] at hsame
      show w'.users.get id = _
      split
      · rename_i heq
        subst heq
        have hplaced : placed oldUsers newUsers users m [] user.userId = some (viewUser m user) :=
          placed_unchanged hsame
        unfold placed at hplaced
        rw [if_neg List.not_mem_nil] at hplaced
        rw [hw.user, hback, Option.bind_some, placed, if_neg hfresh, hplaced]
      · rfl
  refine ⟨fun id => ?_, ?_⟩
  · rw [hwrite, List.map_append]
    by_cases heq : id = session
    · subst heq
      have hlast : user.userId ∈ done.map User.userId ++ [user].map User.userId := by simp
      rw [if_pos rfl, hback, Option.bind_some, placed, if_pos hlast, hfind]
      rfl
    · rw [if_neg heq, hw.user]
      refine Option.bind_congr fun userId huserId => ?_
      have hne : userId ≠ user.userId := by
        rintro rfl
        have := (h.reconciles.sessions.inverse _ _).mpr huserId
        exact heq (Option.some.inj (this.symm.trans hsession))
      simp [placed, hne]
  · unfold userMessage
    split
    · exact hw.channels
    · exact hw.channels

end Users

/-! ## Channels: removals -/

section Removals

theorem mem_removedChannels {e : Nat × UInt32 × Uuid} :
    e ∈ removedChannels oldRooms newRooms m ↔ m.forward.get e.2.2 = some e.2.1 ∧
      e.1 = oldDepth oldRooms e.2.2 ∧ e.2.2 ≠ rootRoomUuid ∧ e.2.2 ∉ newRooms.map Room.id := by
  obtain ⟨depth, id, uuid⟩ := e
  unfold removedChannels
  rw [List.mem_insertionSort, List.mem_map]
  constructor
  · rintro ⟨⟨k, id'⟩, hmem, heq⟩
    obtain ⟨rfl, rfl, rfl⟩ := Prod.mk.injEq .. ▸ (Prod.mk.injEq .. ▸ heq)
    rw [List.mem_filter, decide_eq_true_eq] at hmem
    exact ⟨Table.mem_toPairs.mp hmem.1, rfl, hmem.2⟩
  · rintro ⟨hmem, hdepth, hkeep⟩
    refine ⟨(uuid, id), ?_, Prod.ext hdepth.symm rfl⟩
    rw [List.mem_filter, decide_eq_true_eq]
    exact ⟨Table.mem_toPairs.mpr hmem, hkeep⟩

instance : Std.Total RemovedBefore where
  total := by
    intro a b
    rcases Nat.lt_trichotomy a.1 b.1 with hlt | heq | hlt
    · exact .inr (.inl hlt)
    · exact (UInt32.le_total a.2.1 b.2.1).imp (fun h => .inr ⟨heq.symm, h⟩) fun h => .inr ⟨heq, h⟩
    · exact .inl (.inl hlt)

instance : IsTrans (Nat × UInt32 × Uuid) RemovedBefore where
  trans := by
    rintro a b c (hab | ⟨hab, hab'⟩) (hbc | ⟨hbc, hbc'⟩)
    · exact .inl (hbc.trans hab)
    · exact .inl (hbc ▸ hab)
    · exact .inl (hab ▸ hbc)
    · exact .inr ⟨hbc.trans hab, UInt32.le_trans hab' hbc'⟩

/-- The deepest channels come first. -/
theorem sorted_removedChannels :
    (removedChannels oldRooms newRooms m).Pairwise fun a b => b.1 ≤ a.1 := by
  unfold removedChannels
  refine List.Pairwise.imp ?_ (List.pairwise_insertionSort RemovedBefore _)
  rintro a b (hlt | ⟨heq, -⟩)
  · exact hlt.le
  · exact heq.le

variable (h : Setting oldRooms oldUsers newRooms newUsers channels users skip v m out)

include h

/-- The ids of the rooms that have been announced in the end. -/
theorem mem_order {uuid : Uuid} :
    uuid ∈ (roomsInOrder newRooms).map Room.id ↔ uuid ∈ newRooms.map Room.id := by
  have ho := roomOrder_roomsInOrder h.new.tree
  simp only [List.mem_map, ho.mem_iff]

omit h in
/-- The channels of the client while channels are removed. -/
structure Removing (oldRooms newRooms : List Room) (m : ChannelMap) (w : ClientView)
    (done : List (Nat × UInt32 × Uuid)) (w' : ClientView) : Prop where
  channel : ∀ id, w'.channels.get id = (m.back.get id).bind fun uuid =>
    if uuid ∈ done.map fun e => e.2.2 then none
    else announced oldRooms newRooms m ((roomsInOrder newRooms).map Room.id) uuid
  tree : Rooted w'.link 0
  users : w'.users = w.users

/-- No channel that is left is below the next one to go. -/
theorem leaf_of_removing {w w' : ClientView} {done rest : List (Nat × UInt32 × Uuid)}
    {e : Nat × UInt32 × Uuid} (hlist : removedChannels oldRooms newRooms m = done ++ e :: rest)
    (hw : Removing oldRooms newRooms m w done w') (a : UInt32) : w'.link a ≠ some e.2.1 := by
  intro hlink
  have hmem : ∀ x ∈ done ++ e :: rest, x ∈ removedChannels oldRooms newRooms m :=
    fun x hx => hlist ▸ hx
  obtain ⟨hid, hdepth, hroot, hgone⟩ := mem_removedChannels.mp
    (hmem e (List.mem_append_right _ List.mem_cons_self))
  rw [ClientView.link, hw.channel] at hlink
  obtain ⟨c, hc, hparent⟩ := Option.map_eq_some_iff.mp hlink
  obtain ⟨uuid, huuid, hc⟩ := Option.bind_eq_some_iff.mp hc
  split at hc
  · cases hc
  rename_i hleft
  -- a link to channel `e` comes from a room whose parent is the room of `e`
  have hcase : ∀ room : Room, c.parent = (viewRoom m room).parent →
      room.id ≠ rootRoomUuid ∧ room.parent = e.2.2 := by
    intro room hview
    rw [hview] at hparent
    unfold viewRoom ChannelMap.getMumbleId at hparent
    dsimp only at hparent
    split at hparent
    · exact absurd (h.root_of_zero ((show 0 = e.2.1 from hparent) ▸ hid)) hroot
    · rename_i hne
      cases hp : m.forward.get room.parent with
      | none =>
        rw [hp] at hparent
        exact absurd (h.root_of_zero ((show 0 = e.2.1 from hparent) ▸ hid)) hroot
      | some p =>
        rw [hp] at hparent
        exact ⟨hne, h.reconciles.sound.ids.inj hp ((show p = e.2.1 from hparent) ▸ hid)⟩
  unfold announced at hc
  split at hc
  · obtain ⟨room, hfind, rfl⟩ := Option.map_eq_some_iff.mp hc
    obtain ⟨hroom, rfl⟩ := (roomByUuid_eq_some_iff h.new.tree.distinct).mp hfind
    obtain ⟨hne, hp⟩ := hcase room rfl
    exact hgone (hp ▸ h.parent_new hroom hne)
  · rename_i hnew
    obtain ⟨room, hfind, rfl⟩ := Option.map_eq_some_iff.mp hc
    obtain ⟨hroom, rfl⟩ := (roomByUuid_eq_some_iff h.old.tree.distinct).mp hfind
    obtain ⟨hne, hp⟩ := hcase room rfl
    -- the room goes too, and it is deeper
    have hdeep : oldDepth oldRooms room.id = e.1 + 1 := by
      rw [oldDepth_parent h.old.tree hroom hne, hp, hdepth]
    have hremoved : (oldDepth oldRooms room.id, a, room.id) ∈ removedChannels oldRooms newRooms m :=
      mem_removedChannels.mpr ⟨h.back_iff.mp huuid, rfl, hne, fun hmem => hnew (h.mem_order.mpr hmem)⟩
    have hsorted : (removedChannels oldRooms newRooms m).Pairwise fun a b => b.1 ≤ a.1 :=
      sorted_removedChannels
    rw [hlist] at hremoved hsorted
    rcases List.mem_append.mp hremoved with hdone | hrest
    · exact hleft (List.mem_map_of_mem hdone)
    · rcases List.mem_cons.mp hrest with heq | hrest
      · have := congrArg Prod.fst heq
        dsimp only at this
        omega
      · have := (List.pairwise_cons.mp (List.pairwise_append.mp hsorted).2.1).1 _ hrest
        dsimp only at this
        omega

/-- **One channel goes**, and the rest is a tree. -/
theorem remove_step {w w' : ClientView} {done rest : List (Nat × UInt32 × Uuid)}
    {e : Nat × UInt32 × Uuid} (hlist : removedChannels oldRooms newRooms m = done ++ e :: rest)
    (hw : Removing oldRooms newRooms m w done w') :
    Removing oldRooms newRooms m w (done ++ [e]) (w'.apply (.channelRemove e.2.1)) := by
  obtain ⟨hid, -, hroot, -⟩ := mem_removedChannels.mp
    (hlist ▸ List.mem_append_right done List.mem_cons_self)
  have hchannel : ∀ id, (w'.apply (.channelRemove e.2.1)).channels.get id =
      if id = e.2.1 then none else w'.channels.get id := fun id => Table.get_del _ _ id
  refine ⟨fun id => ?_, ?_, hw.users⟩
  · rw [hchannel, List.map_append]
    by_cases heq : id = e.2.1
    · rw [if_pos heq, heq, h.back_iff.mpr hid]
      simp
    · rw [if_neg heq, hw.channel]
      refine Option.bind_congr fun uuid huuid => ?_
      have hne : uuid ≠ e.2.2 := by
        rintro rfl
        exact heq (Option.some.inj ((h.back_iff.mp huuid).symm.trans hid))
      exact if_congr (mem_map_concat (f := fun e : Nat × UInt32 × Uuid => e.2.2) hne).symm rfl rfl
  · rw [ClientView.link_del hchannel]
    refine hw.tree.removeLeaf ?_ (h.leaf_of_removing hlist hw)
    intro hzero
    exact hroot (h.root_of_zero (hzero ▸ hid))

end Removals

/-! ## All phases -/

section Phases

variable (h : Setting oldRooms oldUsers newRooms newUsers channels users skip v m out)

include h

theorem isSome_old {uuid : Uuid} (huuid : uuid ∈ oldRooms.map Room.id) :
    (m.forward.get uuid).isSome := by
  obtain ⟨id, -, hid⟩ := h.mapped_old huuid
  rw [hid]
  rfl

theorem isSome_new {uuid : Uuid} (huuid : uuid ∈ newRooms.map Room.id) :
    (m.forward.get uuid).isSome := by
  obtain ⟨id, hid⟩ := h.mapped_new huuid
  rw [hid]
  rfl

/-- Rooms of either projection have a channel while rooms are announced. -/
theorem isSome_announced {done : List Uuid} (hdone : ∀ uuid ∈ done, uuid ∈ newRooms.map Room.id)
    {uuid : Uuid} (huuid : uuid ∈ done ∨ uuid ∈ oldRooms.map Room.id) :
    (announced oldRooms newRooms m done uuid).isSome := by
  unfold announced
  split
  · rename_i hmem
    obtain ⟨room, hroom⟩ := List.mem_map.mp (hdone uuid hmem)
    rw [(roomByUuid_eq_some_iff h.new.tree.distinct).mpr hroom]
    rfl
  · rename_i hmem
    obtain ⟨room, hroom⟩ := List.mem_map.mp (huuid.resolve_left hmem)
    rw [(roomByUuid_eq_some_iff h.old.tree.distinct).mpr hroom]
    rfl

theorem mem_of_placed {done : List UserId} {userId : UserId} {u : ViewUser}
    (hu : placed oldUsers newUsers users m done userId = some u) : ∃ user : User,
      u = viewUser m user ∧ (user ∈ newUsers ∧ userId ∈ done ∨ user ∈ oldUsers) := by
  unfold placed at hu
  split at hu
  · rename_i hmem
    obtain ⟨user, hfind, rfl⟩ := Option.map_eq_some_iff.mp hu
    exact ⟨user, rfl, .inl ⟨((userById_eq_some_iff h.new.distinct).mp hfind).1, hmem⟩⟩
  · split at hu
    · obtain ⟨user, hfind, rfl⟩ := Option.map_eq_some_iff.mp hu
      exact ⟨user, rfl, .inr ((userById_eq_some_iff h.old.distinct).mp hfind).1⟩
    · cases hu

/-- The first phase: vanished users go. -/
theorem removeUsers : ∃ w, v.applyAll ((vanished newUsers users skip).map fun e =>
      SyncMessage.userRemove e.2 "Left") = w ∧ Announcing oldRooms newRooms m w [] w ∧
    (∀ session, w.users.get session =
      (out.users.back.get session).bind (placed oldUsers newUsers users m [])) ∧
    ∀ pre, pre <+: ((vanished newUsers users skip).map fun e =>
      SyncMessage.userRemove e.2 "Left") → (v.applyAll pre).Consistent := by
  have hphase := filterMap_phase ClientView.apply
    (I := fun done w => w.channels = v.channels ∧ ∀ session, w.users.get session =
      if session ∈ done.map Prod.snd then none else v.users.get session)
    (fun e : UserId × UInt32 => some (SyncMessage.userRemove e.2 "Left"))
    (vanished newUsers users skip) ?_ ⟨rfl, fun session => by simp⟩
  · rw [List.filterMap_eq_map'] at hphase
    refine ⟨_, rfl, ⟨?_, ?_, rfl⟩, fun session => ?_, fun pre hp => ?_⟩
    · intro id
      rw [ClientView.applyAll, hphase.1.1]
      exact h.channel_start id
    · have hlink : (v.applyAll ((vanished newUsers users skip).map fun e =>
          SyncMessage.userRemove e.2 "Left")).link = v.link := by
        funext id
        rw [ClientView.link, ClientView.applyAll, hphase.1.1, ClientView.link]
      rw [hlink]
      exact h.tree_start
    · exact (hphase.1.2 session).trans (h.user_start session)
    · obtain ⟨done, hchannels, husers⟩ := hphase.2 pre hp
      have hlink : (v.applyAll pre).link = v.link := by
        funext id
        rw [ClientView.link, ClientView.applyAll, hchannels, ClientView.link]
      refine h.consistent (f := announced oldRooms newRooms m [])
        (fun id => ?_) (hlink ▸ h.tree_start) fun session u hu => ?_
      · rw [ClientView.applyAll, hchannels]
        exact h.channel_start id
      · rw [ClientView.applyAll, husers] at hu
        split at hu
        · cases hu
        rw [h.mirrors.user] at hu
        obtain ⟨userId, -, hu⟩ := Option.bind_eq_some_iff.mp hu
        obtain ⟨user, hfind, rfl⟩ := Option.map_eq_some_iff.mp hu
        have huser := ((userById_eq_some_iff h.old.distinct).mp hfind).1
        have hroom := h.old.housed user huser
        exact ⟨user, (h.viewUser_old huser).symm, h.isSome_old hroom,
          h.isSome_announced (fun _ hmem => absurd hmem List.not_mem_nil) (.inr hroom)⟩
  · rintro done ⟨userId, session⟩ rest w - ⟨hchannels, husers⟩
    refine ⟨hchannels, fun session' => ?_⟩
    refine (Table.get_del _ _ session').trans ?_
    rw [husers, List.map_append]
    by_cases heq : session' = session
    · simp [heq]
    · rw [if_neg heq]
      exact if_congr (mem_map_concat heq).symm rfl rfl

/-- The second phase: rooms are announced. -/
theorem announceRooms {w : ClientView} (hw : Announcing oldRooms newRooms m w [] w)
    (husers : ∀ session, w.users.get session =
      (out.users.back.get session).bind (placed oldUsers newUsers users m [])) :
    Announcing oldRooms newRooms m w (roomsInOrder newRooms)
      (w.applyAll ((roomsInOrder newRooms).filterMap (roomMessage oldRooms m))) ∧
    ∀ pre, pre <+: (roomsInOrder newRooms).filterMap (roomMessage oldRooms m) →
      (w.applyAll pre).Consistent := by
  have hphase := filterMap_phase ClientView.apply
    (I := fun done w' => Announcing oldRooms newRooms m w done w' ∧ ∃ rest,
      roomsInOrder newRooms = done ++ rest)
    (roomMessage oldRooms m) (roomsInOrder newRooms)
    (fun done room rest w' horder hI => ⟨h.announce_step horder hI.1, rest, by simp [horder]⟩)
    ⟨hw, _, rfl⟩
  refine ⟨hphase.1.1, fun pre hp => ?_⟩
  obtain ⟨done, hdone, rest, horder⟩ := hphase.2 pre hp
  have hnew : ∀ uuid ∈ done.map Room.id, uuid ∈ newRooms.map Room.id := by
    intro uuid huuid
    rw [← h.mem_order, horder, List.map_append]
    exact List.mem_append_left _ huuid
  refine h.consistent hdone.channel hdone.tree fun session u hu => ?_
  rw [ClientView.applyAll, hdone.users, husers] at hu
  obtain ⟨userId, -, hu⟩ := Option.bind_eq_some_iff.mp hu
  obtain ⟨user, rfl, hmem⟩ := h.mem_of_placed hu
  have hroom := h.old.housed user (hmem.resolve_left fun hmem => List.not_mem_nil hmem.2)
  exact ⟨user, rfl, h.isSome_old hroom, h.isSome_announced hnew (.inr hroom)⟩

/-- The third phase: users are put in their places. -/
theorem placeUsers {w w' : ClientView}
    (hw : Announcing oldRooms newRooms m w (roomsInOrder newRooms) w')
    (husers : ∀ session, w'.users.get session =
      (out.users.back.get session).bind (placed oldUsers newUsers users m [])) :
    Placing oldUsers newUsers users m out.users w' (shownUsers newUsers skip)
      (w'.applyAll ((shownUsers newUsers skip).filterMap
        (userMessage oldUsers users m out.users))) ∧
    ∀ pre, pre <+: (shownUsers newUsers skip).filterMap (userMessage oldUsers users m out.users) →
      (w'.applyAll pre).Consistent := by
  have hphase := filterMap_phase ClientView.apply
    (I := fun done w'' => Placing oldUsers newUsers users m out.users w' done w'')
    (userMessage oldUsers users m out.users) (shownUsers newUsers skip)
    (fun done user rest w'' hlist hI => h.place_step hlist hI) ⟨husers, rfl⟩
  refine ⟨hphase.1, fun pre hp => ?_⟩
  obtain ⟨done, hdone⟩ := hphase.2 pre hp
  have hlink : (w'.applyAll pre).link = w'.link := by
    funext id
    rw [ClientView.link, ClientView.applyAll, hdone.channels, ClientView.link]
  refine h.consistent (f := announced oldRooms newRooms m ((roomsInOrder newRooms).map Room.id))
    (fun id => ?_) (hlink ▸ hw.tree) fun session u hu => ?_
  · rw [ClientView.applyAll, hdone.channels]
    exact hw.channel id
  · rw [ClientView.applyAll, hdone.user] at hu
    obtain ⟨userId, -, hu⟩ := Option.bind_eq_some_iff.mp hu
    obtain ⟨user, rfl, hmem⟩ := h.mem_of_placed hu
    rcases hmem with ⟨hmem, -⟩ | hmem
    · have hroom := h.new.housed user hmem
      exact ⟨user, rfl, h.isSome_new hroom,
        h.isSome_announced (fun _ => h.mem_order.mp) (.inl (h.mem_order.mpr hroom))⟩
    · have hroom := h.old.housed user hmem
      exact ⟨user, rfl, h.isSome_old hroom, h.isSome_announced (fun _ => h.mem_order.mp) (.inr hroom)⟩

/-- Once every shown user is in its place, sessions show users of the new state. -/
theorem placed_all {session : UInt32} {userId : UserId}
    (hback : out.users.back.get session = some userId) :
    placed oldUsers newUsers users m ((shownUsers newUsers skip).map User.userId) userId =
      (userById newUsers userId).map (viewUser m) := by
  have hforward := (h.reconciles.sessions.inverse userId session).mpr hback
  rw [placed, if_pos ((h.reconciles.shown userId).mp (by rw [hforward]; rfl))]

/-- The last phase: channels go. -/
theorem removeChannels {w : ClientView}
    (hw : Removing oldRooms newRooms m w [] w)
    (husers : ∀ session, w.users.get session = (out.users.back.get session).bind fun userId =>
      (userById newUsers userId).map (viewUser m)) :
    Removing oldRooms newRooms m w (removedChannels oldRooms newRooms m)
      (w.applyAll ((removedChannels oldRooms newRooms m).map fun e =>
        SyncMessage.channelRemove e.2.1)) ∧
    ∀ pre, pre <+: ((removedChannels oldRooms newRooms m).map fun e =>
      SyncMessage.channelRemove e.2.1) → (w.applyAll pre).Consistent := by
  have hphase := filterMap_phase ClientView.apply
    (I := fun done w' => Removing oldRooms newRooms m w done w' ∧ ∃ rest,
      removedChannels oldRooms newRooms m = done ++ rest)
    (fun e : Nat × UInt32 × Uuid => some (SyncMessage.channelRemove e.2.1))
    (removedChannels oldRooms newRooms m)
    (fun done e rest w' hlist hI => ⟨h.remove_step hlist hI.1, rest, by simp [hlist]⟩)
    ⟨hw, _, rfl⟩
  rw [List.filterMap_eq_map'] at hphase
  refine ⟨hphase.1.1, fun pre hp => ?_⟩
  obtain ⟨done, hdone, rest, hlist⟩ := hphase.2 pre hp
  refine h.consistent hdone.channel hdone.tree fun session u hu => ?_
  rw [ClientView.applyAll, hdone.users, husers] at hu
  obtain ⟨userId, -, hu⟩ := Option.bind_eq_some_iff.mp hu
  obtain ⟨user, hfind, rfl⟩ := Option.map_eq_some_iff.mp hu
  have hroom := h.new.housed user ((userById_eq_some_iff h.new.distinct).mp hfind).1
  refine ⟨user, rfl, h.isSome_new hroom, ?_⟩
  have hkept : user.currentRoom ∉ done.map fun e => e.2.2 := by
    intro hmem
    obtain ⟨e, he, heq⟩ := List.mem_map.mp hmem
    have hgone := (mem_removedChannels.mp (hlist ▸ List.mem_append_left rest he)).2.2.2
    exact hgone (heq ▸ hroom)
  rw [if_neg hkept]
  exact h.isSome_announced (fun _ => h.mem_order.mp) (.inl (h.mem_order.mpr hroom))

theorem forward_out {uuid : Uuid} (huuid : uuid ∈ newRooms.map Room.id) :
    out.channels.forward.get uuid = m.forward.get uuid := by
  rw [h.reconciles.channels]
  refine IdMap.forward_foldl_remove_ne (fun hmem => ?_) m
  obtain ⟨e, he, rfl⟩ := List.mem_map.mp hmem
  exact (mem_removedChannels.mp he).2.2.2 huuid

theorem sound_out : IdMap.Sound RootPinned 1 out.channels := by
  rw [h.reconciles.channels]
  exact h.reconciles.sound.ids.foldl_remove _

/-- Only rooms of the new state keep a channel id. -/
theorem mem_of_forward_out {uuid : Uuid} {id : UInt32}
    (hid : out.channels.forward.get uuid = some id) :
    m.forward.get uuid = some id ∧ uuid ∈ newRooms.map Room.id := by
  rw [h.reconciles.channels, IdMap.forward_foldl_remove] at hid
  split at hid
  · cases hid
  · rename_i hkept
    refine ⟨hid, by_contra fun hgone => hkept ?_⟩
    refine List.mem_map.mpr ⟨(oldDepth oldRooms uuid, id, uuid), ?_, rfl⟩
    refine mem_removedChannels.mpr ⟨hid, rfl, fun hroot => hgone ?_, hgone⟩
    exact (show uuid = rootRoomUuid from hroot) ▸ h.root_new

/-- A table over the assigned ids, cut to the new rooms, is one over the final ids. -/
theorem bind_back_out (f : Room → ViewChannel) (id : UInt32) :
    ((m.back.get id).bind fun uuid =>
      if uuid ∈ newRooms.map Room.id then (roomByUuid newRooms uuid).map f else none) =
    (out.channels.back.get id).bind fun uuid => (roomByUuid newRooms uuid).map f := by
  cases hout : out.channels.back.get id with
  | some uuid =>
    obtain ⟨hid, hnew⟩ := h.mem_of_forward_out ((h.sound_out.inverse uuid id).mpr hout)
    rw [h.back_iff.mpr hid, Option.bind_some, Option.bind_some, if_pos hnew]
  | none =>
    cases hback : m.back.get id with
    | none => rfl
    | some uuid =>
      rw [Option.bind_some, if_neg]
      · rfl
      · intro hnew
        have hid := (h.forward_out hnew).trans (h.back_iff.mp hback)
        rw [(h.sound_out.inverse uuid id).mp hid] at hout
        cases hout

/-- **All messages, applied in order**: the rooms and users of the new state, up to descriptions
that were cleared, and a consistent client after every message. -/
theorem applyAll_messages :
    (∀ id, (v.applyAll out.messages).channels.get id =
      (out.channels.back.get id).bind fun uuid =>
        (roomByUuid newRooms uuid).map (mergedRoom oldRooms m)) ∧
    (∀ session, (v.applyAll out.messages).users.get session =
      (out.users.back.get session).bind fun userId =>
        (userById newUsers userId).map (viewUser m)) ∧
    ∀ pre, pre <+: out.messages → (v.applyAll pre).Consistent := by
  obtain ⟨w₁, hw₁, hstart, husers₁, hprefix₁⟩ := h.removeUsers
  obtain ⟨hannounced, hprefix₂⟩ := h.announceRooms hstart husers₁
  have husers₂ := fun session => (congrArg (fun t => Table.get t session) hannounced.users).trans
    (husers₁ session)
  obtain ⟨hplaced, hprefix₃⟩ := h.placeUsers hannounced husers₂
  generalize hw₂ : w₁.applyAll ((roomsInOrder newRooms).filterMap (roomMessage oldRooms m)) = w₂ at *
  generalize hw₃ : w₂.applyAll ((shownUsers newUsers skip).filterMap
    (userMessage oldUsers users m out.users)) = w₃ at *
  have husers₃ : ∀ session, w₃.users.get session =
      (out.users.back.get session).bind fun userId =>
        (userById newUsers userId).map (viewUser m) := by
    intro session
    rw [hplaced.user]
    exact Option.bind_congr fun userId huserId => h.placed_all huserId
  have hremoving : Removing oldRooms newRooms m w₃ [] w₃ := by
    refine ⟨fun id => ?_, ?_, rfl⟩
    · rw [hplaced.channels, hannounced.channel]
      exact Option.bind_congr fun uuid _ => (if_neg List.not_mem_nil).symm
    · have hlink : w₃.link = w₂.link := by
        funext id
        rw [ClientView.link, hplaced.channels, ClientView.link]
      exact hlink ▸ hannounced.tree
  obtain ⟨hremoved, hprefix₄⟩ := h.removeChannels hremoving husers₃
  have hall : v.applyAll out.messages = w₃.applyAll ((removedChannels oldRooms newRooms m).map
      fun e => SyncMessage.channelRemove e.2.1) := by
    rw [h.reconciles.messages, ← hw₃, ← hw₂, ← hw₁]
    simp only [ClientView.applyAll, List.foldl_append]
  refine ⟨fun id => ?_, fun session => ?_, ?_⟩
  · rw [hall, hremoved.channel, ← h.bind_back_out]
    refine Option.bind_congr fun uuid huuid => ?_
    have hid := h.back_iff.mp huuid
    by_cases hnew : uuid ∈ newRooms.map Room.id
    · rw [if_pos hnew, announced, if_pos (h.mem_order.mpr hnew), if_neg]
      intro hmem
      obtain ⟨e, he, rfl⟩ := List.mem_map.mp hmem
      exact (mem_removedChannels.mp he).2.2.2 hnew
    · rw [if_neg hnew, if_pos]
      refine List.mem_map.mpr ⟨(oldDepth oldRooms uuid, id, uuid), ?_, rfl⟩
      refine mem_removedChannels.mpr ⟨hid, rfl, fun hroot => hnew ?_, hnew⟩
      exact (show uuid = rootRoomUuid from hroot) ▸ h.root_new
  · rw [hall, hremoved.users]
    exact husers₃ session
  · rw [h.reconciles.messages]
    subst hw₁ hw₂ hw₃
    refine forall_prefix_append (forall_prefix_append (forall_prefix_append hprefix₁ ?_) ?_) ?_
    · exact hprefix₂
    · rw [List.foldl_append]
      exact hprefix₃
    · rw [List.foldl_append, List.foldl_append]
      exact hprefix₄

end Phases

end Setting

end Rumble.Bridge
