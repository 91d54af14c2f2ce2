import Rumble.Server.Homes
import Rumble.Server.Pieces

/-!
# Interleaved room edits

CreateRoom, MoveRoom, DeleteRoom and JoinRoom check on one reading of the room list and commit
under a later acquisition of the lock. `RoomTask.resume` runs one such piece, any number of
requests side by side and between all other events. The rooms stay a tree with every membership in
an existing room exactly in the runs whose commits still find what their checks found
(`roomsSound_run_iff`).
-/

namespace Rumble.Server

open Rumble.Lib Rumble.Lib.Transition World

/-! ## Tasks -/

/-- What is left of a request that edits rooms or memberships. -/
inductive RoomTask where
  /-- ENTER is granted, the room is to be looked up. -/
  | join (sender : HandleId) (room : Uuid)
  | joinCommit (sender : HandleId) (room : Uuid) (name : String)
  | joined (sender : HandleId) (room : Uuid) (name : String)
  /-- MAKE_ROOM is granted, the parent is to be looked up. -/
  | create (sender : HandleId) (name : String) (parent : Option Uuid) (description : Option String)
  | createCommit (sender : HandleId) (name : String) (parent : Option Uuid)
      (description : Option String)
  | created (sender : HandleId) (room : Uuid) (name : String) (parent : Option Uuid)
      (description : Option String)
  /-- MODIFY_ROOM is granted, MAKE_ROOM on the new parent is to be checked. -/
  | move (sender : HandleId) (roomId newParentId : Option RoomId)
  | moveNames (sender : HandleId) (roomId newParentId : Option RoomId)
  | moveWalk (sender : HandleId) (roomId newParentId : Option RoomId)
      (roomName newParentName : String)
  | moveCommit (sender : HandleId) (roomId newParentId : Option RoomId)
      (roomName newParentName : String)
  | moved (sender : HandleId) (roomId newParentId : Option RoomId)
      (roomName newParentName : String)
  /-- MODIFY_ROOM is granted. -/
  | delete (sender : HandleId) (room : Uuid)
  | deleteChildren (sender : HandleId) (room : Uuid) (name : String)
  /-- These children are still to be moved. -/
  | reparent (sender : HandleId) (room : Uuid) (name : String) (newParent : Uuid)
      (children : List Uuid)
  | deleteMembers (sender : HandleId) (room : Uuid) (name : String)
  | deleteCommit (sender : HandleId) (room : Uuid) (name : String) (displaced : List UserId)
  | deleted (sender : HandleId) (room : Uuid) (name : String) (displaced : List UserId)
  /-- These members of the deleted room are still to be re-evaluated. -/
  | remute (sender : HandleId) (name : String) (displaced : List UserId)
  deriving DecidableEq

namespace RoomTask

/-- The next piece of a task. -/
def resume (env : Env) (w : World) : RoomTask → World × Option RoomTask
  | .join sender room =>
    ((w.joinLookup sender room).2, (w.joinLookup sender room).1.map (.joinCommit sender room))
  | .joinCommit sender room name =>
    (w.mapData (·.setUserRoom sender.user room), some (.joined sender room name))
  | .joined sender room name =>
    (((w.refreshJoinMute sender room).saveLastRoom sender.user room).announceJoin sender room name,
      none)
  | .create sender name parent description =>
    if parent.any fun p => !w.state.data.roomExists p then
      (w.sendCommandResult sender "CreateRoom" false "Parent room does not exist", none)
    else (w, some (.createCommit sender name parent description))
  | .createCommit sender name parent description =>
    (w.mapData (·.createRoomWithParentDesc env.newUuid name (parent.getD rootRoomUuid) description),
      some (.created sender env.newUuid name parent description))
  | .created sender room name parent description =>
    let stored := w.mapStore (·.saveRoom room
      { name := name, parent := parent, description := description.getD "", permanent := true })
    let info : Room :=
      { id := room
        name := name
        parent := parent.getD rootRoomUuid
        description := description
        inheritAcl := true
        acls := []
        effectivePermissions := 0 }
    ((stored.broadcastStateUpdate (.roomCreated (some info.toProto))).sendCommandResult sender
      "CreateRoom" true ("Created room '" ++ name ++ "'"), none)
  | .move sender roomId newParentId =>
    ((w.demand sender (roomIdOrRoot newParentId) Permissions.makeRoom).2,
      if (w.demand sender (roomIdOrRoot newParentId) Permissions.makeRoom).1 then
        some (.moveNames sender roomId newParentId)
      else none)
  | .moveNames sender roomId newParentId =>
    let roomName := w.roomNameOr (roomIdOrRoot roomId) "room"
    let newParentName := w.roomNameOr (roomIdOrRoot newParentId) "Root"
    if roomIdOrRoot newParentId = roomIdOrRoot roomId then
      (w.sendCommandResult sender "MoveRoom" false "Cannot move a room into itself", none)
    else (w, some (.moveWalk sender roomId newParentId roomName newParentName))
  | .moveWalk sender roomId newParentId roomName newParentName =>
    if closesCycle w.state.data.rooms (roomIdOrRoot roomId) (roomIdOrRoot newParentId) then
      (w.sendCommandResult sender "MoveRoom" false "Cannot move a room into its own descendant",
        none)
    else (w, some (.moveCommit sender roomId newParentId roomName newParentName))
  | .moveCommit sender roomId newParentId roomName newParentName =>
    match w.state.data.moveRoom (roomIdOrRoot roomId) (roomIdOrRoot newParentId) with
    | none => (w.sendCommandResult sender "MoveRoom" false "Room not found", none)
    | some data =>
      (w.mapData fun _ => data, some (.moved sender roomId newParentId roomName newParentName))
  | .moved sender roomId newParentId roomName newParentName =>
    let stored := w.mapStore (·.updateRoom (roomIdOrRoot roomId) fun r =>
      { r with parent := some (roomIdOrRoot newParentId) })
    ((stored.broadcastStateUpdate (.roomMoved roomId newParentId)).sendCommandResult sender
      "MoveRoom" true ("Moved '" ++ roomName ++ "' into '" ++ newParentName ++ "'"), none)
  | .delete sender room =>
    if room = rootRoomUuid then
      (w.sendCommandResult sender "DeleteRoom" false "Cannot delete the Root room", none)
    else (w, some (.deleteChildren sender room (w.roomNameOr room "room")))
  | .deleteChildren sender room name =>
    match w.state.data.roomParentAndChildren room with
    | some (newParent, children) => (w, some (.reparent sender room name newParent children))
    | none => (w, some (.deleteMembers sender room name))
  | .reparent sender room name newParent (child :: children) =>
    (reparentChild newParent w child, some (.reparent sender room name newParent children))
  | .reparent sender room name _ [] => (w, some (.deleteMembers sender room name))
  | .deleteMembers sender room name =>
    (w, some (.deleteCommit sender room name (w.state.data.getRoomMembers room)))
  | .deleteCommit sender room name displaced =>
    match w.state.data.deleteRoom room with
    | none => (w.sendCommandResult sender "DeleteRoom" false "Room not found", none)
    | some data => (w.mapData fun _ => data, some (.deleted sender room name displaced))
  | .deleted sender room name displaced =>
    let stored := w.mapStore fun store => (store.deleteRoom room).deleteRoomAcl room
    (stored.broadcastStateUpdate
      (.roomDeleted (some (roomIdFromUuid room)) (some (roomIdFromUuid rootRoomUuid))),
      some (.remute sender name displaced))
  | .remute sender name (m :: displaced) =>
    (w.reevaluateMemberMute m rootRoomUuid, some (.remute sender name displaced))
  | .remute sender name [] =>
    (w.sendCommandResult sender "DeleteRoom" true ("Deleted room '" ++ name ++ "'"), none)

end RoomTask

/-- A room request runs its first permission check, any other event is handled at once. -/
def RoomTask.start (cfg : Config) (env : Env) (w : World) (e : Event) : World × Option RoomTask :=
  match e with
  | .envelope sender (.joinRoom roomId) =>
    w.grant sender (roomIdOrRoot roomId) Permissions.enter (.join sender (roomIdOrRoot roomId))
  | .envelope sender (.createRoom name parentId description) =>
    w.grant sender ((parentId.bind uuidFromRoomId).getD rootRoomUuid) Permissions.makeRoom
      (.create sender name (parentId.bind uuidFromRoomId) description)
  | .envelope sender (.moveRoom roomId newParentId) =>
    w.grant sender (roomIdOrRoot roomId) Permissions.modifyRoom (.move sender roomId newParentId)
  | .envelope sender (.deleteRoom roomId) =>
    w.grant sender (roomIdOrRoot roomId) Permissions.modifyRoom
      (.delete sender (roomIdOrRoot roomId))
  | e => (step cfg env w e, none)

def roomProgram (cfg : Config) : Interleaved Env World Event RoomTask where
  start := RoomTask.start cfg
  resume := RoomTask.resume

/-! ## The pieces make the handlers -/

section Alone

variable (cfg : Config) (env : Env) {w : World} {sender : HandleId}

theorem alone_joinRoom {roomId : Option RoomId}
    (hperm : (w.demand sender (roomIdOrRoot roomId) Permissions.enter).1 = true) :
    (roomProgram cfg).Alone env w (.join sender (roomIdOrRoot roomId))
      (handleJoinRoom sender roomId w) := by
  rw [handleJoinRoom_eq]
  dsimp only
  rw [if_pos hperm]
  cases hl : w.joinLookup sender (roomIdOrRoot roomId) with
  | mk name w' =>
    cases name with
    | none => exact .last (by unfold roomProgram RoomTask.resume; simp only [hl, Option.map_none])
    | some name =>
      refine .next (by unfold roomProgram RoomTask.resume; simp only [hl, Option.map_some]; rfl)
        (.next rfl (.last ?_))
      unfold roomProgram RoomTask.resume
      simp only [saveLastRoom_eq]

theorem alone_createRoom {name : String} {parentId : Option RoomId} {description : Option String}
    (hperm : (w.demand sender ((parentId.bind uuidFromRoomId).getD rootRoomUuid)
      Permissions.makeRoom).1 = true) :
    (roomProgram cfg).Alone env w (.create sender name (parentId.bind uuidFromRoomId) description)
      (handleCreateRoom env sender name parentId description w) := by
  unfold handleCreateRoom
  dsimp only
  rw [requirePermission_eq, if_pos hperm]
  unfold applyCreateRoom
  by_cases hp : (parentId.bind uuidFromRoomId).any fun p => !w.state.data.roomExists p
  · rw [if_pos hp]
    exact .last (by unfold roomProgram RoomTask.resume; simp only [if_pos hp])
  · rw [if_neg hp]
    exact .next (by unfold roomProgram RoomTask.resume; simp only [if_neg hp]; rfl)
      (.next rfl (.last rfl))

theorem alone_moveRoom {roomId newParentId : Option RoomId}
    (hperm : (w.demand sender (roomIdOrRoot roomId) Permissions.modifyRoom).1 = true) :
    (roomProgram cfg).Alone env w (.move sender roomId newParentId)
      (handleMoveRoom sender roomId newParentId w) := by
  unfold handleMoveRoom
  dsimp only
  rw [requirePermission_eq, if_pos hperm, requirePermission_eq]
  by_cases hmake :
    (w.demand sender (roomIdOrRoot newParentId) Permissions.makeRoom).1 = true
  swap
  · rw [if_neg hmake]
    exact .last (by unfold roomProgram RoomTask.resume; simp only [if_neg hmake])
  rw [if_pos hmake]
  have hdemand : (w.demand sender (roomIdOrRoot newParentId) Permissions.makeRoom).2 = w := by
    unfold demand at hmake ⊢
    split at hmake
    · rw [if_pos (by assumption)]
    · exact Bool.noConfusion hmake
  have hnames : ∀ {w' : World},
      (roomProgram cfg).Alone env w (.moveNames sender roomId newParentId) w' →
        (roomProgram cfg).Alone env w (.move sender roomId newParentId) w' := fun h =>
    .next (by unfold roomProgram RoomTask.resume; simp only [if_pos hmake, hdemand]) h
  refine hnames ?_
  by_cases hself : roomIdOrRoot newParentId = roomIdOrRoot roomId
  · rw [if_pos hself]
    exact .last (by unfold roomProgram RoomTask.resume; simp only [if_pos hself])
  rw [if_neg hself]
  refine .next (by unfold roomProgram RoomTask.resume; simp only [if_neg hself]; rfl) ?_
  by_cases hwalk :
    closesCycle w.state.data.rooms (roomIdOrRoot roomId) (roomIdOrRoot newParentId) = true
  · rw [if_pos hwalk]
    exact .last (by unfold roomProgram RoomTask.resume; simp only [if_pos hwalk])
  rw [if_neg hwalk]
  refine .next (by unfold roomProgram RoomTask.resume; simp only [if_neg hwalk]; rfl) ?_
  cases hd : w.state.data.moveRoom (roomIdOrRoot roomId) (roomIdOrRoot newParentId) with
  | none => exact .last (by unfold roomProgram RoomTask.resume; simp only [hd])
  | some d => exact .next (by unfold roomProgram RoomTask.resume; simp only [hd]; rfl) (.last rfl)

theorem alone_remute (name : String) (displaced : List UserId) : ∀ w : World,
    (roomProgram cfg).Alone env w (.remute sender name displaced)
      ((displaced.foldl (fun w m => w.reevaluateMemberMute m rootRoomUuid) w).sendCommandResult
        sender "DeleteRoom" true ("Deleted room '" ++ name ++ "'")) := by
  induction displaced with
  | nil => exact fun w => .last rfl
  | cons m ms ih => exact fun w => .next rfl (ih _)

theorem alone_deleteMembers (t : HandleId) (room : Uuid) (name : String) (w : World) :
    (roomProgram cfg).Alone env w (.deleteMembers t room name)
      (match w.state.data.deleteRoom room with
      | none => w.sendCommandResult t "DeleteRoom" false "Room not found"
      | some data =>
        let stored := (w.mapData fun _ => data).mapStore fun store =>
          (store.deleteRoom room).deleteRoomAcl room
        ((w.state.data.getRoomMembers room).foldl (fun w m => w.reevaluateMemberMute m rootRoomUuid)
          (stored.broadcastStateUpdate (.roomDeleted (some (roomIdFromUuid room))
            (some (roomIdFromUuid rootRoomUuid))))).sendCommandResult t "DeleteRoom" true
              ("Deleted room '" ++ name ++ "'")) := by
  refine .next rfl ?_
  cases hd : w.state.data.deleteRoom room with
  | none => exact .last (by unfold roomProgram RoomTask.resume; simp only [hd])
  | some d =>
    exact .next (by unfold roomProgram RoomTask.resume; simp only [hd]; rfl)
      (.next rfl (alone_remute cfg env name _ _))

theorem alone_reparent {room newParent : Uuid} {name : String} {w' : World} (children : List Uuid) :
    ∀ w : World, (roomProgram cfg).Alone env (children.foldl (reparentChild newParent) w)
        (.deleteMembers sender room name) w' →
      (roomProgram cfg).Alone env w (.reparent sender room name newParent children) w' := by
  induction children with
  | nil => exact fun w h => .next rfl h
  | cons c cs ih => exact fun w h => .next rfl (ih _ h)

theorem alone_deleteChildren {room : Uuid} {name : String} {w' : World}
    (h : (roomProgram cfg).Alone env (w.reparentChildren room) (.deleteMembers sender room name)
      w') : (roomProgram cfg).Alone env w (.deleteChildren sender room name) w' := by
  unfold reparentChildren at h
  cases hc : w.state.data.roomParentAndChildren room with
  | none =>
    rw [hc] at h
    exact .next (by unfold roomProgram RoomTask.resume; simp only [hc]) h
  | some pc =>
    rw [hc] at h
    exact .next (by unfold roomProgram RoomTask.resume; simp only [hc])
      (alone_reparent cfg env _ _ h)

theorem alone_deleteRoom {roomId : Option RoomId}
    (hperm : (w.demand sender (roomIdOrRoot roomId) Permissions.modifyRoom).1 = true) :
    (roomProgram cfg).Alone env w (.delete sender (roomIdOrRoot roomId))
      (handleDeleteRoom sender roomId w) := by
  unfold handleDeleteRoom
  dsimp only
  rw [requirePermission_eq, if_pos hperm]
  unfold applyDeleteRoom
  by_cases hroot : roomIdOrRoot roomId = rootRoomUuid
  · rw [if_pos hroot]
    exact .last (by unfold roomProgram RoomTask.resume; simp only [if_pos hroot])
  rw [if_neg hroot]
  have hrest := alone_deleteMembers cfg env sender (roomIdOrRoot roomId)
    (w.roomNameOr (roomIdOrRoot roomId) "room") (w.reparentChildren (roomIdOrRoot roomId))
  refine .next (by unfold roomProgram RoomTask.resume; simp only [if_neg hroot]; rfl)
    (alone_deleteChildren cfg env ?_)
  cases hd : (w.reparentChildren (roomIdOrRoot roomId)).state.data.deleteRoom
      (roomIdOrRoot roomId) with
  | none =>
    rw [hd] at hrest
    simpa only [hd] using hrest
  | some d =>
    rw [hd] at hrest
    simpa only [hd] using hrest

end Alone

/-! ## Moving a room -/

/-- The walk only meets rooms on the way up. -/
theorem above_of_walkMeets {rooms : List Room} {k : Uuid}
    (hroot : parentLink rooms rootRoomUuid = some rootRoomUuid) :
    ∀ fuel c, walkMeets rooms k fuel c = true → Above (parentLink rooms) rootRoomUuid c k := by
  intro fuel
  induction fuel with
  | zero =>
    intro c h
    rw [walkMeets, beq_iff_eq] at h
    exact h ▸ .refl c
  | succ fuel ih =>
    intro c h
    rw [walkMeets, Bool.or_eq_true, beq_iff_eq] at h
    rcases h with rfl | h
    · exact .refl c
    cases hpp : properParent rooms c with
    | none => simp [hpp] at h
    | some b =>
      rw [hpp] at h
      obtain ⟨hlink, hb⟩ := Option.mem_filter_iff.mp hpp
      have hc : c ≠ rootRoomUuid := by
        rintro rfl
        have hbroot : b = rootRoomUuid := Option.some.inj (hlink.symm.trans hroot)
        simp [hbroot] at hb
      exact .up hc hlink (ih b h)

/-- The move of an existing room is still sound: the room is not Root, and the new parent exists
and is not below it. -/
def MoveStands (rooms : List Room) (room newParent : Uuid) : Prop :=
  (∃ r ∈ rooms, r.id = room) → room ≠ rootRoomUuid ∧ (∃ r ∈ rooms, r.id = newParent) ∧
    closesCycle rooms room newParent = false

instance (rooms : List Room) (room newParent : Uuid) : Decidable (MoveStands rooms room newParent) :=
  inferInstanceAs (Decidable (_ → _))

/-- **A move keeps the tree exactly when it stands.** -/
theorem roomTree_move_iff {d : StateData} (h : RoomTree d.rooms) {room newParent : Uuid}
    (hne : newParent ≠ room) :
    RoomTree ((d.moveRoom room newParent).getD d).rooms ↔ MoveStands d.rooms room newParent := by
  cases hd : d.moveRoom room newParent with
  | none =>
    have hmissing := StateData.editRoom_eq_none.mp hd
    exact iff_of_true h fun ⟨r, hr, hid⟩ => absurd hid (hmissing r hr)
  | some d' =>
    obtain ⟨hroom, rfl⟩ := StateData.editRoom_eq_some.mp hd
    rw [Option.getD_some]
    have hlink := parentLink_move (parentLink_isSome.mpr hroom) newParent
    constructor
    · intro h' _
      have hroot : room ≠ rootRoomUuid := by
        rintro rfl
        have hself := h'.rooted.root_link
        rw [hlink, Function.update_self] at hself
        exact hne (Option.some.inj hself)
      refine ⟨hroot, ?_, ?_⟩
      · have hp := h'.rooted.closed room newParent (by rw [hlink, Function.update_self])
        rw [hlink, Function.update_of_ne hne] at hp
        exact parentLink_isSome.mp hp
      · rw [Bool.eq_false_iff]
        intro hwalk
        have habove := above_of_walkMeets h.rooted.root_link _ _ hwalk
        exact Rooted.not_moveEntry hroot habove (hlink ▸ h'.rooted)
    · intro hstands
      obtain ⟨hroot, hp, hwalk⟩ := hstands hroom
      exact h.move hroot hroom hp (h.not_above_of_walk hroot hp hwalk)

/-! ## Commits -/

/-- What the checks of a commit found is still so. -/
def CommitStands (w : World) : RoomTask → Prop
  | .joinCommit _ room _ => ∃ r ∈ w.rooms, r.id = room
  | .createCommit _ _ parent _ => ∃ r ∈ w.rooms, r.id = parent.getD rootRoomUuid
  | .moveCommit _ roomId newParentId _ _ =>
    MoveStands w.rooms (roomIdOrRoot roomId) (roomIdOrRoot newParentId)
  | .reparent _ _ _ newParent (child :: _) => MoveStands w.rooms child newParent
  | .deleteCommit _ room _ _ => (∃ r ∈ w.rooms, r.id = room) → ∀ r ∈ w.rooms, r.parent ≠ room
  | _ => True

instance (w : World) (t : RoomTask) : Decidable (CommitStands w t) := by
  unfold CommitStands
  split <;> infer_instance

/-- The UUID drawn for a created room is new. -/
def FreshDraw (env : Env) (w : World) : RoomTask → Prop
  | .createCommit .. => ∀ r ∈ w.rooms, r.id ≠ env.newUuid
  | _ => True

instance (env : Env) (w : World) (t : RoomTask) : Decidable (FreshDraw env w t) := by
  unfold FreshDraw
  split <;> infer_instance

/-- What a task has established for good: a room is not moved into itself, Root is not deleted. -/
def RoomTask.WellFormed : RoomTask → Prop
  | .moveWalk _ roomId newParentId _ _ | .moveCommit _ roomId newParentId _ _ =>
    roomIdOrRoot newParentId ≠ roomIdOrRoot roomId
  | .deleteChildren _ room _ | .deleteMembers _ room _ | .deleteCommit _ room _ _ =>
    room ≠ rootRoomUuid
  | .reparent _ room _ newParent children => room ≠ rootRoomUuid ∧ ∀ c ∈ children, newParent ≠ c
  | _ => True

section Commits

variable {env : Env} {w w' : World}

theorem Housed.sound_iff (h : Housed w w') (hw : RoomsSound w) :
    RoomsSound w' ↔ RoomTree w'.rooms := ⟨fun h' => h'.tree, fun ht => ⟨ht, h.homes_of hw⟩⟩

theorem RoomsSound.touches {S : List Field} (hw : RoomsSound w) (h : Touches S w w')
    (hS : ∀ f ∈ [Field.rooms, .memberships], f ∉ S) : RoomsSound w' := by
  have hrooms : w'.rooms = w.rooms := h .rooms (hS _ (by decide))
  exact ((Housed.of_touches h hS).sound_iff hw).mpr (hrooms ▸ hw.tree)

theorem sound_joinCommit_iff (hw : RoomsSound w) (u : UserId) (room : Uuid) :
    RoomsSound (w.mapData (·.setUserRoom u room)) ↔ ∃ r ∈ w.rooms, r.id = room := by
  constructor
  · intro h
    exact h.homes (u, room) (List.mem_append_right _ (List.mem_singleton.mpr rfl))
  · rintro ⟨r, hr, rfl⟩
    exact ((Housed.setUserRoom u (.inr (List.mem_map_of_mem hr))).sound_iff hw).mpr hw.tree

theorem sound_createCommit_iff (hw : RoomsSound w) {id : Uuid} (hfresh : ∀ r ∈ w.rooms, r.id ≠ id)
    (name : String) (parent : Uuid) (description : Option String) :
    RoomsSound (w.mapData (·.createRoomWithParentDesc id name parent description)) ↔
      ∃ r ∈ w.rooms, r.id = parent := by
  obtain ⟨root, hrootMem, hrootId, -⟩ := exists_of_parentLink hw.tree.rooted.root_link
  have hid : id ≠ rootRoomUuid := fun he => hfresh root hrootMem (hrootId.trans he.symm)
  constructor
  · intro h
    obtain ⟨p, hp, hpid⟩ := h.tree.parents ⟨id, name, parent, description, true, [], 0⟩
      (List.mem_append_right _ (List.mem_singleton.mpr rfl)) hid
    rcases List.mem_append.mp hp with hp | hp
    · exact ⟨p, hp, hpid⟩
    · -- A room cannot be its own parent: nothing would climb from it.
      obtain rfl := List.mem_singleton.mp hp
      have hself := parentLink_eq_some h.tree.distinct
        (List.mem_append_right w.rooms (List.mem_singleton.mpr rfl))
      exact absurd rfl (h.tree.rooted.not_above hid (hself.trans (congrArg some hpid.symm)) (.refl id))
  · intro hparent
    refine ⟨hw.tree.create (r := ⟨id, name, parent, description, true, [], 0⟩) hfresh hparent, ?_⟩
    intro m hm
    obtain ⟨r, hr, hrid⟩ := hw.homes m hm
    exact ⟨r, List.mem_append_left _ hr, hrid⟩

theorem housed_moveRoom (room newParent : Uuid) :
    Housed w (w.mapData fun d => (d.moveRoom room newParent).getD d) := by
  cases hd : w.state.data.moveRoom room newParent with
  | none =>
    have hsame : (w.mapData fun d => (d.moveRoom room newParent).getD d) = w := by
      simp only [mapData, hd, Option.getD_none]
    rw [hsame]
    exact .refl
  | some d =>
    have hmoved : (w.mapData fun d => (d.moveRoom room newParent).getD d) =
        w.mapData fun _ => d := by
      simp only [mapData, hd, Option.getD_some]
    rw [hmoved]
    exact housed_edit (f := fun r => { r with parent := newParent }) (fun _ => rfl) hd

theorem sound_moveRoom_iff (hw : RoomsSound w) {room newParent : Uuid} (hne : newParent ≠ room) :
    RoomsSound (w.mapData fun d => (d.moveRoom room newParent).getD d) ↔
      MoveStands w.rooms room newParent :=
  ((housed_moveRoom room newParent).sound_iff hw).trans (roomTree_move_iff hw.tree hne)

theorem sound_deleteCommit_iff (hw : RoomsSound w) {room : Uuid} (hroot : room ≠ rootRoomUuid)
    {d : StateData} (hd : w.state.data.deleteRoom room = some d) :
    RoomsSound (w.mapData fun _ => d) ↔ ∀ r ∈ w.rooms, r.parent ≠ room := by
  obtain ⟨-, ⟨x, hx, hxid⟩, rfl⟩ := StateData.deleteRoom_eq_some.mp hd
  have hkept : ∀ r ∈ w.rooms, r.id ≠ room → r ∈ w.rooms.filter fun r => r.id ≠ room :=
    fun r hr hne => List.mem_filter.mpr ⟨hr, by simpa using hne⟩
  obtain ⟨root, hrootMem, hrootId, -⟩ := exists_of_parentLink hw.tree.rooted.root_link
  constructor
  · intro h r hr hparent
    -- A child that is left behind has lost its parent.
    have hlink := parentLink_eq_some hw.tree.distinct hr
    have hrid : r.id ≠ room := fun he =>
      hw.tree.rooted.not_above (he ▸ hroot) hlink (.refl _) (hparent.trans he.symm)
    have hrroot : r.id ≠ rootRoomUuid := fun he => by
      rw [he, hw.tree.rooted.root_link] at hlink
      exact hroot (hparent.symm.trans (Option.some.inj hlink).symm)
    obtain ⟨p, hp, hpid⟩ := h.tree.parents r (hkept r hr hrid) hrroot
    have hpne : p.id ≠ room := by simpa using (List.mem_filter.mp hp).2
    exact hpne (hpid.trans hparent)
  · intro hleaf
    refine ⟨hw.tree.remove hroot fun u hu => ?_, fun m hm => ?_⟩
    · obtain ⟨r, hr, -, hparent⟩ := exists_of_parentLink hu
      exact hleaf r hr hparent
    · obtain ⟨m', hm', rfl⟩ := List.mem_map.mp hm
      split
      · exact ⟨root, hkept root hrootMem (hrootId ▸ hroot.symm), hrootId⟩
      · rename_i hne
        obtain ⟨r, hr, hrid⟩ := hw.homes m' hm'
        exact ⟨r, hkept r hr (hrid ▸ hne), hrid⟩

theorem RoomsSound.of_data (hw : RoomsSound w) (h : w'.state.data = w.state.data) :
    RoomsSound w' := by
  have hrooms : w'.rooms = w.rooms := congrArg StateData.rooms h
  exact ((Housed.of_data h).sound_iff hw).mpr (hrooms ▸ hw.tree)

end Commits

/-! ## One piece -/

section Pieces

variable {cfg : Config} {env : Env} {w : World}

theorem sound_moveCommit_iff (hw : RoomsSound w) {sender : HandleId}
    {roomId newParentId : Option RoomId} {roomName newParentName : String}
    (hne : roomIdOrRoot newParentId ≠ roomIdOrRoot roomId) :
    RoomsSound ((RoomTask.moveCommit sender roomId newParentId roomName newParentName).resume
        env w).1 ↔
      MoveStands w.rooms (roomIdOrRoot roomId) (roomIdOrRoot newParentId) := by
  rw [← sound_moveRoom_iff hw hne]
  unfold RoomTask.resume
  dsimp only
  cases hd : w.state.data.moveRoom (roomIdOrRoot roomId) (roomIdOrRoot newParentId) with
  | none =>
    refine iff_of_true (hw.of_data rfl) (hw.of_data ?_)
    simp only [mapData_state, hd, Option.getD_none]
  | some d =>
    dsimp only
    rw [show (w.mapData fun d => (d.moveRoom (roomIdOrRoot roomId)
      (roomIdOrRoot newParentId)).getD d) = w.mapData fun _ => d by
        simp only [mapData, hd, Option.getD_some]]

theorem sound_reparent_iff (hw : RoomsSound w) {child newParent : Uuid} (hne : newParent ≠ child) :
    RoomsSound (reparentChild newParent w child) ↔ MoveStands w.rooms child newParent := by
  rw [← sound_moveRoom_iff hw hne]
  exact ⟨fun h => h.of_data rfl, fun h => h.of_data rfl⟩

theorem sound_deletion_iff (hw : RoomsSound w) {sender : HandleId} {room : Uuid} {name : String}
    {displaced : List UserId} (hroot : room ≠ rootRoomUuid) :
    RoomsSound ((RoomTask.deleteCommit sender room name displaced).resume env w).1 ↔
      ((∃ r ∈ w.rooms, r.id = room) → ∀ r ∈ w.rooms, r.parent ≠ room) := by
  unfold RoomTask.resume
  dsimp only
  cases hd : w.state.data.deleteRoom room with
  | none =>
    refine iff_of_true (hw.of_data rfl) fun hroom => ?_
    exact absurd hd (by rw [StateData.deleteRoom_eq_some.mpr ⟨hroot, hroom, rfl⟩]; simp)
  | some d =>
    have hroom := (StateData.deleteRoom_eq_some.mp hd).2.1
    exact (sound_deleteCommit_iff hw hroot hd).trans ⟨fun h _ => h, fun h => h hroom⟩

/-- **A piece keeps the rooms sound exactly when its commit stands.** -/
theorem sound_resume_iff {t : RoomTask} (hw : RoomsSound w) (ht : t.WellFormed)
    (hfresh : FreshDraw env w t) : RoomsSound (t.resume env w).1 ↔ CommitStands w t := by
  cases t with
  | join sender room =>
    exact iff_of_true (hw.touches (touches_joinLookup w sender room) (by decide)) trivial
  | joinCommit sender room name => exact sound_joinCommit_iff hw sender.user room
  | joined sender room name =>
    refine iff_of_true ?_ trivial
    have hmute := hw.touches (touches_refreshJoinMute w sender room) (by decide)
    have hlast := hmute.touches (touches_saveLastRoom _ sender.user room) (by decide)
    exact hlast.touches (touches_announceJoin _ sender room name) (by decide)
  | create sender name parent description =>
    refine iff_of_true ?_ trivial
    unfold RoomTask.resume
    dsimp only
    split
    · exact hw.of_data rfl
    · exact hw
  | createCommit sender name parent description =>
    exact sound_createCommit_iff hw hfresh name _ description
  | created => exact iff_of_true (hw.of_data rfl) trivial
  | move sender roomId newParentId =>
    exact iff_of_true (hw.touches (touches_demand w sender _ _) (by decide)) trivial
  | moveNames =>
    refine iff_of_true ?_ trivial
    unfold RoomTask.resume
    dsimp only
    split
    · exact hw.of_data rfl
    · exact hw
  | moveWalk =>
    refine iff_of_true ?_ trivial
    unfold RoomTask.resume
    dsimp only
    split
    · exact hw.of_data rfl
    · exact hw
  | moveCommit => exact sound_moveCommit_iff hw ht
  | moved => exact iff_of_true (hw.of_data rfl) trivial
  | delete =>
    refine iff_of_true ?_ trivial
    unfold RoomTask.resume
    dsimp only
    split
    · exact hw.of_data rfl
    · exact hw
  | deleteChildren =>
    refine iff_of_true ?_ trivial
    unfold RoomTask.resume
    dsimp only
    split <;> exact hw
  | reparent sender room name newParent children =>
    cases children with
    | nil => exact iff_of_true hw trivial
    | cons child children => exact sound_reparent_iff hw (ht.2 child List.mem_cons_self)
  | deleteMembers => exact iff_of_true hw trivial
  | deleteCommit => exact sound_deletion_iff hw ht
  | deleted => exact iff_of_true (hw.of_data rfl) trivial
  | remute sender name displaced =>
    cases displaced with
    | nil => exact iff_of_true (hw.of_data rfl) trivial
    | cons m displaced =>
      exact iff_of_true (hw.touches (touches_reevaluateMemberMute w m _) (by decide)) trivial

/-- The children of a room that is no Root are not its parent. -/
theorem newParent_ne_child (hw : RoomsSound w) {room newParent : Uuid} {children : List Uuid}
    (hroot : room ≠ rootRoomUuid)
    (hc : w.state.data.roomParentAndChildren room = some (newParent, children)) :
    ∀ c ∈ children, newParent ≠ c := by
  obtain ⟨r, hr, heq⟩ := Option.map_eq_some_iff.mp hc
  obtain ⟨rfl, rfl⟩ := Prod.mk.inj heq
  have hlink : parentLink w.rooms room = some r.parent := by
    unfold StateData.findRoom at hr
    rw [parentLink, hr, Option.map_some]
  intro c hmem hcp
  obtain ⟨x, hx, rfl⟩ := List.mem_map.mp hmem
  obtain ⟨hx, hxp⟩ := List.mem_filter.mp hx
  -- The child would lead back to the room.
  have hxlink : parentLink w.rooms r.parent = some room := by
    rw [hcp, parentLink_eq_some hw.tree.distinct hx, beq_iff_eq.mp hxp]
  have hne : r.parent ≠ rootRoomUuid := fun he => by
    rw [he, hw.tree.rooted.root_link] at hxlink
    exact hroot (Option.some.inj hxlink).symm
  exact hw.tree.rooted.not_above hroot hlink (.up hne hxlink (.refl room)) rfl

theorem wellFormed_resume {t t' : RoomTask} (hw : RoomsSound w) (ht : t.WellFormed)
    (h : t' ∈ (t.resume env w).2) : t'.WellFormed := by
  cases t with
  | join sender room =>
    obtain ⟨name, -, rfl⟩ := Option.map_eq_some_iff.mp h
    trivial
  | moveNames =>
    unfold RoomTask.resume at h
    dsimp only at h
    split at h
    · cases h
    · rename_i hne
      obtain rfl := Option.some.inj h
      exact hne
  | moveWalk =>
    unfold RoomTask.resume at h
    dsimp only at h
    split at h
    · cases h
    · obtain rfl := Option.some.inj h
      exact ht
  | delete =>
    unfold RoomTask.resume at h
    dsimp only at h
    split at h
    · cases h
    · rename_i hroot
      obtain rfl := Option.some.inj h
      exact hroot
  | deleteChildren =>
    unfold RoomTask.resume at h
    dsimp only at h
    split at h
    · rename_i hc
      obtain rfl := Option.some.inj h
      exact ⟨ht, newParent_ne_child hw ht hc⟩
    · obtain rfl := Option.some.inj h
      exact ht
  | reparent sender room name newParent children =>
    cases children with
    | nil =>
      obtain rfl := Option.some.inj h
      exact ht.1
    | cons child children =>
      obtain rfl := Option.some.inj h
      exact ⟨ht.1, fun c hc => ht.2 c (List.mem_cons_of_mem _ hc)⟩
  | deleteMembers =>
    obtain rfl := Option.some.inj h
    exact ht
  | create | move | moveCommit | deleteCommit =>
    unfold RoomTask.resume at h
    dsimp only at h
    split at h
    all_goals first
      | exact (Option.not_mem_none _ h).elim
      | obtain rfl := Option.some.inj h
        trivial
  | joinCommit | createCommit | deleted =>
    obtain rfl := Option.some.inj h
    trivial
  | remute sender name displaced =>
    cases displaced with
    | nil => cases h
    | cons m displaced =>
      obtain rfl := Option.some.inj h
      trivial
  | joined | created | moved => cases h

/-- The first piece of a request, or another event, keeps the rooms sound. -/
theorem sound_start (hw : RoomsSound w) (e : Event) : RoomsSound (RoomTask.start cfg env w e).1 := by
  unfold RoomTask.start
  split
  · exact hw.touches (touches_grant w _ _ _ _) (by decide)
  · exact hw.touches (touches_grant w _ _ _ _) (by decide)
  · exact hw.touches (touches_grant w _ _ _ _) (by decide)
  · exact hw.touches (touches_grant w _ _ _ _) (by decide)
  · rename_i hjoin hcreate hmove hdelete
    have hedits : e.editsRooms = false := by
      unfold Event.editsRooms
      split
      · exact (hjoin _ _ rfl).elim
      · exact (hcreate _ _ _ _ rfl).elim
      · exact (hmove _ _ _ rfl).elim
      · exact (hdelete _ _ rfl).elim
      · rfl
    refine ((housed_step cfg env w hedits).sound_iff hw).mpr
      (roomTree_step cfg (i := (env, e)) (fun hc => ?_) (fun m hm => ?_) hw.tree)
    · unfold Event.createsRoom at hc
      split at hc
      · rename_i he
        exact (hcreate _ _ _ _ he).elim
      · exact Bool.noConfusion hc
    · unfold Event.moveRequest at hm
      split at hm
      · rename_i he
        exact (hmove _ _ _ he).elim
      · cases hm

theorem wellFormed_start {e : Event} {t : RoomTask} (h : t ∈ (RoomTask.start cfg env w e).2) :
    t.WellFormed := by
  unfold RoomTask.start at h
  split at h
  · rw [mem_grant w h]
    trivial
  · rw [mem_grant w h]
    trivial
  · rw [mem_grant w h]
    trivial
  · rw [mem_grant w h]
    trivial
  · cases h

end Pieces

/-! ## Every interleaving -/

/-- The scheduler resumes no commit whose checks no longer hold. -/
def CommitOrderly : Pool World RoomTask → Env × Pick Event → Prop :=
  Interleaved.Meets (fun _ _ _ => True) fun _ => CommitStands

/-- Every room is created under a new UUID. -/
def FreshDraws : Pool World RoomTask → Env × Pick Event → Prop :=
  Interleaved.Meets (fun _ _ _ => True) FreshDraw

instance (p : Pool World RoomTask) (m : Env × Pick Event) : Decidable (CommitOrderly p m) :=
  inferInstanceAs (Decidable (Interleaved.Meets _ _ p m))

instance (p : Pool World RoomTask) (m : Env × Pick Event) : Decidable (FreshDraws p m) :=
  inferInstanceAs (Decidable (Interleaved.Meets _ _ p m))

section Runs

variable {cfg : Config} {p : Pool World RoomTask} {m : Env × Pick Event}

theorem wellFormed_pool_step (hw : RoomsSound p.shared) (ht : ∀ t ∈ p.tasks, t.WellFormed) :
    ∀ t ∈ ((roomProgram cfg).step p m).tasks, t.WellFormed := by
  intro t hmem
  rcases (roomProgram cfg).step_cases p m with
    heq | ⟨e, -, -, htasks⟩ | ⟨i, u, others, -, hi, hp, -, hperm⟩
  · exact ht t (heq ▸ hmem)
  · rw [htasks, List.mem_append, Option.mem_toList] at hmem
    exact hmem.elim (ht t) wellFormed_start
  · rw [hperm.mem_iff, List.mem_append, Option.mem_toList] at hmem
    rcases hmem with hleft | hother
    · exact wellFormed_resume hw (ht u (List.mem_of_getElem? hi)) hleft
    · exact ht t (hp.mem_iff.mpr (List.mem_cons_of_mem u hother))

/-- **One move keeps the rooms sound exactly when it is orderly.** -/
theorem sound_pool_step_iff (hw : RoomsSound p.shared) (ht : ∀ t ∈ p.tasks, t.WellFormed)
    (hfresh : FreshDraws p m) :
    RoomsSound ((roomProgram cfg).step p m).shared ↔ CommitOrderly p m := by
  obtain ⟨env, pick⟩ := m
  cases pick with
  | start e => exact iff_of_true (sound_start hw e) trivial
  | resume i =>
    cases hi : p.tasks[i]? with
    | none =>
      have hsame : (roomProgram cfg).step p (env, .resume i) = p := by
        simp only [Interleaved.step, hi]
      refine iff_of_true (by rwa [hsame]) ?_
      intro t hmem
      exact absurd hmem (by simp [hi])
    | some t =>
      have hshared : ((roomProgram cfg).step p (env, .resume i)).shared =
          (t.resume env p.shared).1 := by
        simp only [Interleaved.step, hi]
        rfl
      have hdraw : FreshDraw env p.shared t := hfresh t hi
      rw [hshared, sound_resume_iff hw (ht t (List.mem_of_getElem? hi)) hdraw]
      constructor
      · intro hstands u hu
        obtain rfl := Option.some.inj (hi.symm.trans hu)
        exact hstands
      · exact fun horderly => horderly t hi

/-- **The rooms stay a tree and every membership in an existing room, in every state of an
interleaving, exactly when every commit still finds what its checks found.** -/
theorem roomsSound_run_iff {w : World} {moves : List (Env × Pick Event)} (hw : RoomsSound w)
    (hfresh : Always (roomProgram cfg).step FreshDraws ⟨w, []⟩ moves) :
    (∀ pre, pre <+: moves → RoomsSound ((roomProgram cfg).run ⟨w, []⟩ pre).shared) ↔
      Always (roomProgram cfg).step CommitOrderly ⟨w, []⟩ moves := by
  refine always_iff_history
    (P := fun pre => RoomsSound ((roomProgram cfg).run ⟨w, []⟩ pre).shared)
    (Q := fun pre => ∀ t ∈ ((roomProgram cfg).run ⟨w, []⟩ pre).tasks, t.WellFormed)
    hw (fun t ht => (List.not_mem_nil ht).elim) ?_
  intro pre m hpre hsound hformed
  rw [(roomProgram cfg).run_snoc]
  exact ⟨wellFormed_pool_step hsound hformed, sound_pool_step_iff hsound hformed (hfresh.at hpre)⟩

theorem roomsSound_init (store : Persistence) : RoomsSound (World.init store) :=
  ⟨roomTree_new, fun _ hm => (List.not_mem_nil hm).elim⟩

end Runs

/-- Two clients log in, the first creates two rooms. -/
def sampleRooms : List (Env × Pick Event) :=
  (sampleLogin 1 (Bytes.rep 32 9) "ann" ++ sampleLogin 2 (Bytes.rep 32 8) "bob").map
    (fun i => (i.1, .start i.2)) ++
  [sampleStart 1 (.createRoom "lobby" none none), (sampleEnv, .resume 0), (sampleEnv, .resume 0),
    (sampleEnv, .resume 0), sampleStart 1 (.createRoom "attic" none none), (sampleEnv, .resume 0),
    ({ sampleEnv with newUuid := Bytes.rep 16 8 }, .resume 0), (sampleEnv, .resume 0)]

def sampleLobby : Option RoomId := some (roomIdFromUuid (Bytes.rep 16 7))

def sampleAttic : Option RoomId := some (roomIdFromUuid (Bytes.rep 16 8))

/-- The lobby is moved into the attic while the second client joins the attic, then the attic is
deleted with both in it. -/
def sampleTreeEdits : List (Env × Pick Event) :=
  sampleRooms ++
    [sampleStart 1 (.moveRoom sampleLobby sampleAttic), sampleStart 2 (.joinRoom sampleAttic)] ++
    List.replicate 3 (sampleEnv, .resume 0) ++ List.replicate 3 (sampleEnv, .resume 1) ++
    List.replicate 2 (sampleEnv, .resume 0) ++ [sampleStart 1 (.deleteRoom sampleAttic)] ++
    List.replicate 9 (sampleEnv, .resume 0)

theorem roomsSound_sampleTreeEdits : RoomsSound ((roomProgram sampleConfig).run
    ⟨World.init sampleStore, []⟩ sampleTreeEdits).shared :=
  (roomsSound_run_iff (roomsSound_init sampleStore) (by decide +kernel)).mpr (by decide +kernel)
    sampleTreeEdits (List.prefix_refl _)

/-- Two moves pass their walks before either commits. -/
def crossedMoves : List (Env × Pick Event) :=
  sampleRooms ++
    [sampleStart 1 (.moveRoom sampleLobby sampleAttic),
      sampleStart 2 (.moveRoom sampleAttic sampleLobby)] ++
    List.replicate 3 (sampleEnv, .resume 0) ++ List.replicate 3 (sampleEnv, .resume 1) ++
    [(sampleEnv, .resume 0), (sampleEnv, .resume 1)]

/-- A room is deleted between the lookup and the commit of a JoinRoom. -/
def lateJoin : List (Env × Pick Event) :=
  sampleRooms ++ [sampleStart 2 (.joinRoom sampleAttic), (sampleEnv, .resume 0),
      sampleStart 1 (.deleteRoom sampleAttic)] ++
    List.replicate 5 (sampleEnv, .resume 1) ++ [(sampleEnv, .resume 0)]

/-- With fresh UUIDs, the crossed moves end with two rooms in each other, and the late join with a
member of a room that does not exist. -/
theorem not_roomsSound_interleaved :
    (∀ moves ∈ [crossedMoves, lateJoin],
        Always (roomProgram sampleConfig).step FreshDraws ⟨World.init sampleStore, []⟩ moves) ∧
      ¬ RoomTree ((roomProgram sampleConfig).run ⟨World.init sampleStore, []⟩
        crossedMoves).shared.rooms ∧
      ¬ ∀ m ∈ ((roomProgram sampleConfig).run ⟨World.init sampleStore, []⟩
          lateJoin).shared.memberships,
        ∃ r ∈ ((roomProgram sampleConfig).run ⟨World.init sampleStore, []⟩ lateJoin).shared.rooms,
          r.id = m.2 := by
  refine ⟨by decide +kernel, fun h => ?_, by decide +kernel⟩
  have hlobby : parentLink ((roomProgram sampleConfig).run ⟨World.init sampleStore, []⟩
      crossedMoves).shared.rooms (Bytes.rep 16 7) = some (Bytes.rep 16 8) := by decide +kernel
  have hattic : parentLink ((roomProgram sampleConfig).run ⟨World.init sampleStore, []⟩
      crossedMoves).shared.rooms (Bytes.rep 16 8) = some (Bytes.rep 16 7) := by decide +kernel
  exact h.rooted.not_above (by decide) hlobby (.up (by decide) hattic (.refl _)) rfl

end Rumble.Server
