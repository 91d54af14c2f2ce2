import Rumble.Server.Startup

/-!
# Stored rooms carry no permissions

The permissions in a room record are those of one receiving client, so the server keeps them zero:
it fills them in on a copy for each client after the hash is taken. `unassigned_run` shows it for
every state reached from a start over any database.
-/

namespace Rumble.Server

open Rumble.Lib Rumble.Lib.Transition World

/-- No stored room holds the permissions of some client. -/
def Unassigned (rooms : List Room) : Prop := ∀ r ∈ rooms, r.effectivePermissions = 0

namespace Unassigned

variable {rooms : List Room}

theorem edit (h : Unassigned rooms) (p : Room → Bool) {f : Room → Room}
    (hf : ∀ r, (f r).effectivePermissions = r.effectivePermissions) :
    Unassigned (modifyFirst p f rooms) :=
  forall_modifyFirst h fun r hr => (hf r).trans hr

theorem append (h : Unassigned rooms) {r : Room} (hr : r.effectivePermissions = 0) :
    Unassigned (rooms ++ [r]) := by
  intro x hx
  rcases List.mem_append.mp hx with hx | hx
  · exact h x hx
  · rw [List.mem_singleton.mp hx, hr]

theorem filter (h : Unassigned rooms) (p : Room → Bool) : Unassigned (rooms.filter p) :=
  fun x hx => h x (List.mem_filter.mp hx).1

theorem of_editRoom {d d' : StateData} {room : Uuid} {f : Room → Room} (h : Unassigned d.rooms)
    (hd : d.editRoom room f = some d')
    (hf : ∀ r, (f r).effectivePermissions = r.effectivePermissions) : Unassigned d'.rooms := by
  obtain ⟨-, rfl⟩ := StateData.editRoom_eq_some.mp hd
  exact h.edit _ hf

end Unassigned

/-! ## The mutators -/

section Mutators

variable {w : World}

theorem unassigned_applyCreateRoom (h : Unassigned w.rooms) (env : Env) (name : String)
    (parent : Option Uuid) (description : Option String) :
    Unassigned (w.applyCreateRoom env name parent description).2.rooms := by
  unfold applyCreateRoom
  split
  · exact h
  · exact h.append rfl

theorem unassigned_reparentChild (h : Unassigned w.rooms) (newParent child : Uuid) :
    Unassigned (reparentChild newParent w child).rooms := by
  show Unassigned ((w.state.data.moveRoom child newParent).getD w.state.data).rooms
  cases hd : w.state.data.moveRoom child newParent with
  | none => exact h
  | some d => exact h.of_editRoom hd fun _ => rfl

theorem unassigned_reparentChildren (h : Unassigned w.rooms) (room : Uuid) :
    Unassigned (w.reparentChildren room).rooms := by
  unfold reparentChildren
  split
  · rename_i newParent children _
    exact List.foldlRecOn (motive := fun w : World => Unassigned w.rooms) children
      (reparentChild newParent) h fun w h child _ => unassigned_reparentChild h newParent child
  · exact h

theorem unassigned_applyDeleteRoom (h : Unassigned w.rooms) (room : Uuid) :
    Unassigned (w.applyDeleteRoom room).2.rooms := by
  have hre := unassigned_reparentChildren h room
  unfold applyDeleteRoom
  split
  · exact h
  dsimp only
  split
  · exact hre
  · rename_i d hd
    obtain ⟨-, -, rfl⟩ := StateData.deleteRoom_eq_some.mp hd
    rw [rooms_reevaluateMembers]
    exact hre.filter _

theorem unassigned_applySetRoomAcl (h : Unassigned w.rooms) (cfg : Config) (room : Uuid)
    (inheritAcl : Bool) (entries : List RoomAclEntry) (baseVersion : Nat) :
    Unassigned (w.applySetRoomAcl cfg room inheritAcl entries baseVersion).2.rooms := by
  unfold applySetRoomAcl
  split
  · exact h
  split
  · exact h
  · rename_i d hd
    rw [rooms_reevaluateMembers]
    exact h.of_editRoom hd fun _ => rfl

end Mutators

/-! ## Requests -/

section Requests

variable {w : World} (h : Unassigned w.rooms) (t : HandleId)

include h

theorem unassigned_handleCreateRoom (env : Env) (name : String) (parentId : Option RoomId)
    (description : Option String) :
    Unassigned (handleCreateRoom env t name parentId description w).rooms := by
  unfold handleCreateRoom
  refine rooms_requirePermission h ?_
  have hop := unassigned_applyCreateRoom h env name (parentId.bind uuidFromRoomId) description
  split <;> (rename_i heq; rw [heq] at hop; exact hop)

theorem unassigned_handleDeleteRoom (roomId : Option RoomId) :
    Unassigned (handleDeleteRoom t roomId w).rooms := by
  unfold handleDeleteRoom
  refine rooms_requirePermission h ?_
  have hop := unassigned_applyDeleteRoom h (roomIdOrRoot roomId)
  split <;> (rename_i heq; rw [heq] at hop; exact hop)

theorem unassigned_handleRenameRoom (roomId : Option RoomId) (name : String) :
    Unassigned (handleRenameRoom t roomId name w).rooms := by
  unfold handleRenameRoom
  refine rooms_requirePermission h ?_
  dsimp only
  split
  · exact h
  · rename_i d hd
    exact h.of_editRoom hd fun _ => rfl

theorem unassigned_handleSetRoomDescription (roomId : Option RoomId) (description : String) :
    Unassigned (handleSetRoomDescription t roomId description w).rooms := by
  unfold handleSetRoomDescription
  refine rooms_requirePermission h ?_
  dsimp only
  split
  · exact h
  · rename_i d hd
    exact h.of_editRoom hd fun _ => rfl

theorem unassigned_handleMoveRoom (roomId newParentId : Option RoomId) :
    Unassigned (handleMoveRoom t roomId newParentId w).rooms := by
  unfold handleMoveRoom
  refine rooms_requirePermission h (rooms_requirePermission h ?_)
  dsimp only
  split
  · exact h
  split
  · exact h
  split
  · exact h
  · rename_i d hd
    exact h.of_editRoom hd fun _ => rfl

theorem unassigned_handleSetRoomAcl (cfg : Config) (roomId : List UInt8) (inheritAcl : Bool)
    (entries : List RoomAclEntry) (baseVersion : Nat) :
    Unassigned (handleSetRoomAcl cfg t roomId inheritAcl entries baseVersion w).rooms := by
  unfold handleSetRoomAcl
  split
  · exact h
  rename_i room _
  refine rooms_requirePermission h ?_
  show Unassigned (replyResult t "SetRoomAcl" _).state.data.rooms
  rw [replyResult_state]
  exact unassigned_applySetRoomAcl h cfg room inheritAcl entries baseVersion

end Requests

/-! ## Runs -/

/-- **No step stores the permissions of a client.** -/
theorem unassigned_step (cfg : Config) {w : World} (i : Input) (h : Unassigned w.rooms) :
    Unassigned (stepInput cfg w i).rooms := by
  obtain ⟨env, e⟩ := i
  show Unassigned (step cfg env w e).rooms
  rcases rooms_step_cases cfg env w e with hrooms | ⟨t, -, hreq⟩
  · exact hrooms.symm ▸ h
  generalize step cfg env w e = w' at hreq
  cases hreq with
  | create name parent description =>
    exact unassigned_handleCreateRoom h t env name parent description
  | delete room => exact unassigned_handleDeleteRoom h t room
  | rename room name => exact unassigned_handleRenameRoom h t room name
  | move room newParent => exact unassigned_handleMoveRoom h t room newParent
  | setDescription room description =>
    exact unassigned_handleSetRoomDescription h t room description
  | setAcl room inheritAcl entries baseVersion =>
    exact unassigned_handleSetRoomAcl h t cfg room inheritAcl entries baseVersion

theorem unassigned_boot (store : Persistence) : Unassigned (World.boot store).rooms := by
  have hnew : Unassigned StateData.new.rooms := by
    intro r hr
    rw [List.mem_singleton.mp hr]
    rfl
  have hload : Unassigned (store.getAllRooms.foldl loadRoom StateData.new).rooms := by
    refine List.foldlRecOn (motive := fun d => Unassigned d.rooms) _ loadRoom hnew ?_
    intro d h e _
    unfold loadRoom StateData.addRoomWithUuidAndParentDesc
    split
    · exact h
    split
    · exact h
    · exact h.append rfl
  show Unassigned (loadPersistedRooms store StateData.new).rooms
  refine List.foldlRecOn (motive := fun d => Unassigned d.rooms) _ (hydrateRoom store) hload ?_
  intro d h room _
  unfold hydrateRoom
  split
  · rename_i acl _
    cases hd : d.setRoomAcl room acl.inheritAcl acl.entries with
    | none => exact h
    | some d' => exact h.of_editRoom hd fun _ => rfl
  · exact h

/-- **Runs.** No room of a state reached from a start over any database carries permissions. -/
theorem unassigned_run (cfg : Config) (store : Persistence) (inputs : List Input) :
    Unassigned (run cfg (World.boot store) inputs).rooms :=
  List.foldlRecOn (motive := fun w : World => Unassigned w.rooms) inputs (stepInput cfg)
    (unassigned_boot store) fun _ h i _ => unassigned_step cfg i h

end Rumble.Server
