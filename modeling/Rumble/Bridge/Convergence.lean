import Rumble.Bridge.Phases

/-!
# Reconciliation brings a client up to date

What a client is left with differs from the new projection in one way only: a description that was
cleared stays, because an absent field of a message is no change. Without such a room the client
mirrors the new projection, and reconciling that projection with itself emits nothing.
-/

namespace Rumble.Bridge

open Rumble.Lib Rumble.Lib.Transition Rumble.Server

/-! ## A second reconciliation -/

section Again

variable {rooms : List Room} {users : List User}

theorem channelMessage_self (hnd : (rooms.map Room.id).Nodup) {room : Room} (hroom : room ∈ rooms)
    (channelId : UInt32) (parent : Option UInt32) :
    channelMessage rooms room channelId parent = none := by
  unfold channelMessage
  rw [(roomByUuid_eq_some_iff hnd).mpr ⟨hroom, rfl⟩]
  simp

/-- Rooms that are known as they are stay silent, and take no id outside of the rooms. -/
theorem visitRooms_self (h : RoomTree rooms) (order : List Room) (horder : ∀ r ∈ order, r ∈ rooms)
    (acc : List SyncMessage × ChannelMap)
    (hacc : ∀ k, (acc.2.forward.get k).isSome → k ∈ rooms.map Room.id) :
    (order.foldl (visitRoom rooms) acc).1 = acc.1 ∧
      ∀ k, ((order.foldl (visitRoom rooms) acc).2.forward.get k).isSome → k ∈ rooms.map Room.id := by
  induction order generalizing acc with
  | nil => exact ⟨rfl, hacc⟩
  | cons room order ih =>
    rw [List.forall_mem_cons] at horder
    have hvisit : (visitRoom rooms acc room).1 = acc.1 ∧
        ∀ k, ((visitRoom rooms acc room).2.forward.get k).isSome → k ∈ rooms.map Room.id := by
      unfold visitRoom
      dsimp only
      rw [channelMessage_self h.distinct horder.1, channelMessage_self h.distinct horder.1]
      have hid : ∀ k, ((ChannelMap.getOrInsert acc.2 room.id).2.forward.get k).isSome →
          k ∈ rooms.map Room.id := by
        intro k hk
        rcases (ChannelMap.isSome_getOrInsert acc.2 room.id k).mp hk with rfl | hk
        · exact List.mem_map_of_mem horder.1
        · exact hacc k hk
      split
      · exact ⟨List.append_nil _, hid⟩
      · rename_i hne
        refine ⟨List.append_nil _, fun k hk => ?_⟩
        rcases (ChannelMap.isSome_getOrInsert _ room.parent k).mp hk with rfl | hk
        · obtain ⟨p, hp, hpid⟩ := h.parents room horder.1 hne
          exact hpid ▸ List.mem_map_of_mem hp
        · exact hid k hk
    obtain ⟨hmessages, hkeys⟩ := ih horder.2 _ hvisit.2
    exact ⟨hmessages.trans hvisit.1, hkeys⟩

theorem userChanged_self (hnd : (users.map User.userId).Nodup) {sessions : UserMap} {user : User}
    (huser : user ∈ users) (hsession : (sessions.forward.get user.userId).isSome) :
    userChanged users sessions user = false := by
  obtain ⟨session, hsession⟩ := Option.isSome_iff_exists.mp hsession
  unfold userChanged UserMap.getMumbleSession
  rw [hsession, (userById_eq_some_iff hnd).mpr ⟨huser, rfl⟩]
  simp

/-- Users that are known as they are stay silent, and take no id outside of the rooms. -/
theorem visitUsers_self (h : WellFormed rooms users) (l : List User) (hl : ∀ u ∈ l, u ∈ users)
    (acc : List SyncMessage × ChannelMap × UserMap)
    (hsessions : ∀ u ∈ l, (acc.2.2.forward.get u.userId).isSome)
    (hacc : ∀ k, (acc.2.1.forward.get k).isSome → k ∈ rooms.map Room.id) :
    (l.foldl (visitUser users) acc).1 = acc.1 ∧
      ∀ k, ((l.foldl (visitUser users) acc).2.1.forward.get k).isSome → k ∈ rooms.map Room.id := by
  induction l generalizing acc with
  | nil => exact ⟨rfl, hacc⟩
  | cons user l ih =>
    rw [List.forall_mem_cons] at hl hsessions
    have hmessages : (visitUser users acc user).1 = acc.1 := by
      unfold visitUser
      dsimp only
      rw [userChanged_self h.distinct hl.1 hsessions.1]
      exact List.append_nil _
    have hnext := ih hl.2 (visitUser users acc user)
      (fun u hu => (IdMap.extends_getOrInsert acc.2.2 user.userId).isSome (hsessions.2 u hu)) ?_
    · exact ⟨hnext.1.trans hmessages, hnext.2⟩
    · intro k hk
      rcases (ChannelMap.isSome_getOrInsert acc.2.1 user.currentRoom k).mp hk with rfl | hk
      · exact h.housed user hl.1
      · exact hacc k hk

/-- **A projection reconciled with itself emits nothing**, when the maps hold its rooms and its
shown users only. -/
theorem messages_self (h : WellFormed rooms users) {channels : ChannelMap} {sessions : UserMap}
    {skip : SkipRules} (hchannels : ∀ k, (channels.forward.get k).isSome → k ∈ rooms.map Room.id)
    (hsessions : ∀ userId, (sessions.forward.get userId).isSome ↔
      userId ∈ (shownUsers users skip).map User.userId) :
    (reconcileServerState rooms users rooms users channels sessions skip).messages = [] := by
  have hvanished : vanished users sessions skip = [] := by
    refine List.eq_nil_iff_forall_not_mem.mpr ?_
    rintro ⟨userId, session⟩ hmem
    obtain ⟨hsession, hhidden⟩ := Setting.mem_vanished.mp hmem
    exact hhidden ((hsessions userId).mp (by rw [hsession]; rfl))
  have ho := roomOrder_roomsInOrder h.tree
  obtain ⟨hroomMessages, hkeys⟩ := visitRooms_self h.tree (roomsInOrder rooms)
    (fun r hr => (ho.mem_iff r).mp hr) ([], channels) hchannels
  obtain ⟨huserMessages, hkeys⟩ := visitUsers_self h (shownUsers users skip)
    (fun u hu => List.mem_of_mem_filter hu) ([], _, sessions)
    (fun u hu => (hsessions u.userId).mpr (List.mem_map_of_mem hu)) hkeys
  have hremoved : removedChannels rooms rooms (visitedUsers rooms users rooms users channels sessions
      skip).2.1 = [] := by
    refine List.eq_nil_iff_forall_not_mem.mpr fun e he => ?_
    obtain ⟨hid, -, -, hgone⟩ := Setting.mem_removedChannels.mp he
    refine hgone (hkeys e.2.2 ?_)
    have hremaining : remainingSessions users sessions skip = sessions := by
      rw [remainingSessions, hvanished]
      rfl
    rw [visitedUsers, hremaining] at hid
    exact Option.isSome_iff_exists.mpr ⟨e.2.1, hid⟩
  have hmessages : (reconcileServerState rooms users rooms users channels sessions skip).messages =
      (vanished users sessions skip).map (fun e => SyncMessage.userRemove e.2 "Left") ++
      (visitedRooms rooms rooms channels).1 ++
      (visitedUsers rooms users rooms users channels sessions skip).1 ++
      (removedChannels rooms rooms (visitedUsers rooms users rooms users channels sessions
        skip).2.1).map fun e => SyncMessage.channelRemove e.2.1 := rfl
  have husers : (visitedUsers rooms users rooms users channels sessions skip).1 = [] := by
    rw [visitedUsers, remainingSessions, hvanished]
    exact huserMessages
  rw [hmessages, hremoved, hvanished, husers]
  exact (List.append_nil _).trans (List.append_nil _ |>.trans hroomMessages)

end Again

/-! ## The result -/

/-- What reconciliation is for: a client that applies the messages in order shows the new state and
is consistent all along, and the new state reconciled with itself is silent. -/
structure BringsUpToDate (newRooms : List Room) (newUsers : List User) (skip : SkipRules)
    (v : ClientView) (out : ReconcileOutput) : Prop where
  mirrors : Mirrors (v.applyAll out.messages) newRooms newUsers out.channels out.users
  shown : ∀ userId, (UserMap.getMumbleSession out.users userId).isSome ↔
    userId ∈ (shownUsers newUsers skip).map User.userId
  consistent : ∀ pre, pre <+: out.messages → (v.applyAll pre).Consistent
  quiet : (reconcileServerState newRooms newUsers newRooms newUsers out.channels out.users
    skip).messages = []

/-- No room that stays loses its description. -/
def KeepsDescriptions (oldRooms newRooms : List Room) : Prop :=
  ∀ old ∈ oldRooms, ∀ room ∈ newRooms, old.id = room.id → room.description = none →
    old.description = none

instance (oldRooms newRooms : List Room) : Decidable (KeepsDescriptions oldRooms newRooms) :=
  inferInstanceAs (Decidable (∀ old ∈ oldRooms, ∀ room ∈ newRooms, _))

section Result

variable {oldRooms newRooms : List Room} {oldUsers newUsers : List User} {channels : ChannelMap}
  {users : UserMap} {skip : SkipRules} {v : ClientView} {m : ChannelMap} {out : ReconcileOutput}

namespace Setting

variable (h : Setting oldRooms oldUsers newRooms newUsers channels users skip v m out)

include h

theorem viewRoom_out {room : Room} (hroom : room ∈ newRooms) :
    viewRoom out.channels room = viewRoom m room := by
  unfold viewRoom ChannelMap.getMumbleId
  by_cases hroot : room.id = rootRoomUuid
  · rw [if_pos hroot, if_pos hroot]
  · rw [if_neg hroot, if_neg hroot, h.forward_out (h.parent_new hroom hroot)]

theorem viewUser_out {user : User} (huser : user ∈ newUsers) :
    viewUser out.channels user = viewUser m user := by
  unfold viewUser ChannelMap.getMumbleId
  rw [h.forward_out (h.new.housed user huser)]

/-- A room is shown as it is unless its description was cleared. -/
theorem merged_eq_iff {room : Room} (hroom : room ∈ newRooms) :
    mergedRoom oldRooms m room = viewRoom out.channels room ↔
      ∀ old ∈ oldRooms, old.id = room.id → room.description = none → old.description = none := by
  rw [h.viewRoom_out hroom]
  have hdescription : mergedRoom oldRooms m room = viewRoom m room ↔
      (room.description <|> (roomByUuid oldRooms room.id).bind Room.description) =
        room.description := by
    unfold mergedRoom viewRoom
    exact ⟨fun heq => congrArg ViewChannel.description heq, fun heq => by rw [heq]⟩
  rw [hdescription]
  cases hnew : room.description with
  | some d =>
    exact iff_of_true rfl fun _ _ _ hnone => by cases hnone
  | none =>
    cases hold : roomByUuid oldRooms room.id with
    | none =>
      refine iff_of_true rfl fun old hmem hid _ => ?_
      exact absurd (hid ▸ List.mem_map_of_mem hmem) (roomByUuid_eq_none_iff.mp hold)
    | some old =>
      obtain ⟨hmem, hid⟩ := (roomByUuid_eq_some_iff h.old.tree.distinct).mp hold
      constructor
      · intro heq old' hmem' hid' _
        rw [List.inj_on_of_nodup_map h.old.tree.distinct hmem' hmem (hid'.trans hid.symm)]
        exact heq
      · exact fun hkept => hkept old hmem hid rfl

/-- The client mirrors the new state exactly when no description was cleared. -/
theorem mirrors_iff : Mirrors (v.applyAll out.messages) newRooms newUsers out.channels out.users ↔
    KeepsDescriptions oldRooms newRooms := by
  obtain ⟨hchannel, huser, -⟩ := h.applyAll_messages
  constructor
  · intro hmirrors old hold room hroom hid
    obtain ⟨id, hm⟩ := h.mapped_new (List.mem_map_of_mem hroom)
    have hback := (h.sound_out.inverse room.id id).mp
      ((h.forward_out (List.mem_map_of_mem hroom)).trans hm)
    have hfind := (roomByUuid_eq_some_iff h.new.tree.distinct).mpr ⟨hroom, rfl⟩
    have heq := (hchannel id).symm.trans (hmirrors.channel id)
    rw [ChannelMap.getRumbleUuid, hback, Option.bind_some, Option.bind_some, hfind] at heq
    exact (h.merged_eq_iff hroom).mp (Option.some.inj heq) old hold hid
  · intro hkeeps
    refine ⟨fun id => (hchannel id).trans (Option.bind_congr fun uuid _ => ?_), fun room hroom => ?_,
      fun session => (huser session).trans (Option.bind_congr fun userId _ => ?_),
      fun userId hsome => ?_⟩
    · refine Option.map_congr fun room hfind => ?_
      have hroom := ((roomByUuid_eq_some_iff h.new.tree.distinct).mp hfind).1
      exact (h.merged_eq_iff hroom).mpr fun old hold => hkeeps old hold room hroom
    · rw [ChannelMap.getMumbleId, h.forward_out (List.mem_map_of_mem hroom)]
      exact h.isSome_new (List.mem_map_of_mem hroom)
    · refine Option.map_congr fun user hfind => ?_
      exact (h.viewUser_out ((userById_eq_some_iff h.new.distinct).mp hfind).1).symm
    · obtain ⟨user, hmem, rfl⟩ := List.mem_map.mp ((h.reconciles.shown userId).mp hsome)
      exact List.mem_map_of_mem (List.mem_of_mem_filter hmem)

end Setting

/-- **Reconciliation brings a client up to date exactly when no room that stays loses its
description.** The old state is the one the client mirrors; the id maps are sound and their counters
have room for the new ids. -/
theorem bringsUpToDate_iff (hold : WellFormed oldRooms oldUsers)
    (hnew : WellFormed newRooms newUsers) (hchannels : ChannelMap.Sound channels)
    (husers : UserMap.Sound users) (hv : Mirrors v oldRooms oldUsers channels users)
    (hfit : RoomForIds oldRooms oldUsers newRooms newUsers channels users skip) :
    BringsUpToDate newRooms newUsers skip v
      (reconcileServerState oldRooms oldUsers newRooms newUsers channels users skip) ↔
      KeepsDescriptions oldRooms newRooms := by
  have h : Setting oldRooms oldUsers newRooms newUsers channels users skip v _ _ :=
    ⟨hold, hnew, hchannels, husers, hv, reconciles hchannels husers hnew hfit⟩
  refine ⟨fun hdone => h.mirrors_iff.mp hdone.mirrors, fun hkeeps => ?_⟩
  refine ⟨h.mirrors_iff.mpr hkeeps, h.reconciles.shown, h.applyAll_messages.2.2, ?_⟩
  refine messages_self hnew (fun k hk => ?_) h.reconciles.shown
  obtain ⟨id, hid⟩ := Option.isSome_iff_exists.mp hk
  exact (h.mem_of_forward_out hid).2

end Result

/-! ## A description that is cleared -/

/-- The Root room with a description. -/
def rootWith (description : Option String) : Room :=
  { StateData.rootRoom with description := description }

theorem wellFormed_rootWith (description : Option String) :
    WellFormed [rootWith description] [] where
  tree := by
    have h := roomTree_new.edit rootRoomUuid (f := fun r => { r with description := description })
      (fun _ => rfl) (fun _ => rfl)
    exact h
  distinct := List.nodup_nil
  housed := fun u hu => absurd hu List.not_mem_nil

/-- The channel map that knows Root. -/
def rootChannels : ChannelMap := (ChannelMap.getOrInsert ChannelMap.new rootRoomUuid).2

theorem sound_rootChannels : ChannelMap.Sound rootChannels := by
  refine ChannelMap.Sound.getOrInsert ⟨IdMap.sound_empty, fun id hid => ?_⟩ _ (by decide)
  simp [IdMap.empty] at hid

/-- A client that shows Root. -/
def rootClient (description : Option String) : ClientView where
  channels := (∅ : Table UInt32 ViewChannel).set 0
    { parent := none, name := StateData.rootRoom.name, description := description }
  users := ∅

theorem mirrors_rootClient (description : Option String) :
    Mirrors (rootClient description) [rootWith description] [] rootChannels UserMap.new where
  channel := by
    intro id
    show (Table.set ∅ 0 _).get id =
      ((Table.set (∅ : Table UInt32 Uuid) 0 rootRoomUuid).get id).bind _
    rw [Table.get_set, Table.get_set]
    split
    · rfl
    · rfl
  mapped := by
    intro room hroom
    rw [List.mem_singleton.mp hroom]
    rfl
  user := fun _ => rfl
  known := by
    intro userId h
    cases h

def noSkips : SkipRules := { bridgeUserId := none, virtualUserIds := [], pendingUsernames := [] }

theorem roomForIds_root (a b : Option String) : RoomForIds [rootWith a] [] [rootWith b] []
    rootChannels UserMap.new noSkips := by
  have hchannels : (reconcileServerState [rootWith a] [] [rootWith b] [] rootChannels UserMap.new
    noSkips).channels.next = 1 := rfl
  have husers : (reconcileServerState [rootWith a] [] [rootWith b] [] rootChannels UserMap.new
    noSkips).users.next = UserMap.proxyBase := rfl
  rw [RoomForIds, hchannels, husers]
  decide

theorem bringsUpToDate_root : KeepsDescriptions [rootWith none] [rootWith (some "hall")] ∧
    (BringsUpToDate [rootWith (some "hall")] [] noSkips (rootClient none)
      (reconcileServerState [rootWith none] [] [rootWith (some "hall")] [] rootChannels UserMap.new
        noSkips) ↔ KeepsDescriptions [rootWith none] [rootWith (some "hall")]) :=
  ⟨by decide, bringsUpToDate_iff (wellFormed_rootWith none) (wellFormed_rootWith (some "hall"))
    sound_rootChannels IdMap.sound_empty (mirrors_rootClient none) (roomForIds_root _ _)⟩

/-- **A cleared description stays on the client**: the message has no description field. -/
theorem bringsUpToDate_fails : ¬ ∀ (oldRooms : List Room) (oldUsers : List User)
    (newRooms : List Room) (newUsers : List User) (channels : ChannelMap) (users : UserMap)
    (skip : SkipRules) (v : ClientView), WellFormed oldRooms oldUsers →
    WellFormed newRooms newUsers → ChannelMap.Sound channels → UserMap.Sound users →
    Mirrors v oldRooms oldUsers channels users →
    RoomForIds oldRooms oldUsers newRooms newUsers channels users skip →
    BringsUpToDate newRooms newUsers skip v
      (reconcileServerState oldRooms oldUsers newRooms newUsers channels users skip) := by
  intro h
  have hdone := h [rootWith (some "hall")] [] [rootWith none] [] rootChannels UserMap.new noSkips
    (rootClient (some "hall")) (wellFormed_rootWith _) (wellFormed_rootWith _) sound_rootChannels
    IdMap.sound_empty (mirrors_rootClient _) (roomForIds_root _ _)
  have hchannel := congrArg (Option.map ViewChannel.description) (hdone.mirrors.channel 0)
  exact absurd hchannel (by decide +kernel)

end Rumble.Bridge
