import Rumble.Server.Bans
import Rumble.Server.Startup

/-!
# Restart equivalence

Every room operation writes the room list and the store separately. `restart_run_iff` says for
which runs a restart over the store gives the room list back: Root has no stored record, so an edit
of its name, parent or description is lost, and a room created with an empty description comes back
with none.
-/

namespace Rumble.Server

open Rumble.Lib Rumble.Lib.Transition World

/-- A restart over the store gives the rooms of the state, ACLs included. -/
def SurvivesRestart (w : World) : Prop :=
  ∀ r, r ∈ (World.boot w.store).rooms ↔ r ∈ w.rooms

/-- The lookups agree with what a restart finds. -/
def Synced (d : StateData) (p : Persistence) : Prop := ∀ k, d.findRoom k = p.loadedRoom k

/-- Distinct ids and lookups that agree with the store. -/
structure RoomsSynced (w : World) : Prop where
  distinct : w.state.data.DistinctIds
  synced : Synced w.state.data w.store

theorem survivesRestart_iff {w : World} (h : w.state.data.DistinctIds) :
    SurvivesRestart w ↔ Synced w.state.data w.store := by
  have hboot : ∀ r, r ∈ (World.boot w.store).rooms ↔ w.store.loadedRoom r.id = some r := fun r => by
    rw [← findRoom_loadPersistedRooms]
    exact (distinctIds_loadPersistedRooms (p := w.store)).mem_iff
  constructor
  · intro hs k
    cases hk : w.state.data.findRoom k with
    | some r =>
      obtain rfl := id_of_findRoom hk
      exact ((hboot r).mp ((hs r).mpr (h.mem_iff.mpr hk))).symm
    | none =>
      refine (Option.eq_none_iff_forall_ne_some.mpr fun r hr => ?_).symm
      have hid : r.id = k := by
        rw [← findRoom_loadPersistedRooms] at hr
        exact id_of_findRoom hr
      subst k
      have hmem := h.mem_iff.mp ((hs r).mp ((hboot r).mpr hr))
      exact Option.some_ne_none r (hmem.symm.trans hk)
  · intro hs r
    rw [hboot, h.mem_iff, hs]

/-! ## One write to each side -/

section Writes

variable {d : StateData} {p : Persistence}

theorem Synced.root (h : Synced d p) : d.findRoom rootRoomUuid = some (p.withAcl StateData.rootRoom) := by
  rw [h, Persistence.loadedRoom, if_pos rfl]
  rfl

theorem get_updateRoom (room : Uuid) (g : PersistedRoom → PersistedRoom) (k : Uuid) :
    (p.updateRoom room g).rooms.get k =
      if k = room then (p.rooms.get k).map g else p.rooms.get k := by
  unfold Persistence.updateRoom Persistence.getRoom
  cases hr : p.rooms.get room with
  | none =>
    dsimp only
    split
    · subst k
      rw [hr]
      rfl
    · rfl
  | some r =>
    refine (Table.get_set _ _ _ _).trans ?_
    split
    · subst k
      rw [hr]
      rfl
    · rfl

theorem getRoomAcl_updateRoom (room : Uuid) (g : PersistedRoom → PersistedRoom) :
    (p.updateRoom room g).getRoomAcl = p.getRoomAcl := by
  unfold Persistence.updateRoom
  split <;> rfl

/-- **An edit of one room**, made in the list and in its stored record, keeps them in step unless
it is an edit of Root that changes Root. -/
theorem synced_edit_iff (h : Synced d p) {room : Uuid} {f : Room → Room}
    {g : PersistedRoom → PersistedRoom} (hid : ∀ r, (f r).id = r.id)
    (hcomm : ∀ r, f (p.withAcl (r.toRoom room)) = p.withAcl ((g r).toRoom room)) :
    Synced ((d.editRoom room f).getD d) (p.updateRoom room g) ↔
      (room = rootRoomUuid → f (p.withAcl StateData.rootRoom) = p.withAcl StateData.rootRoom) := by
  have hacl : (p.updateRoom room g).withAcl = p.withAcl := by
    funext r
    unfold Persistence.withAcl
    rw [getRoomAcl_updateRoom]
  constructor
  · rintro h' rfl
    have hroot := h'.root
    rw [findRoom_editRoom hid, if_pos rfl, h.root, hacl] at hroot
    exact Option.some.inj hroot
  · intro hroot k
    rw [findRoom_editRoom hid]
    unfold Persistence.loadedRoom
    rw [hacl, get_updateRoom, h]
    unfold Persistence.loadedRoom
    by_cases hk : k = room
    · subst k
      rw [if_pos rfl, if_pos rfl]
      by_cases hr : room = rootRoomUuid
      · rw [if_pos hr, if_pos hr, Option.map_some, Option.map_some, hroot hr]
      · rw [if_neg hr, if_neg hr]
        cases p.rooms.get room with
        | none => rfl
        | some r => exact congrArg some (hcomm r)
    · rw [if_neg hk, if_neg hk]

/-- **A new room** comes back as it is unless its description is empty but present. -/
theorem synced_create_iff (h : Synced d p) {uuid : Uuid} (hnew : d.findRoom uuid = none)
    (hacl : p.getRoomAcl uuid = none) {name : String} {parent : Option Uuid}
    {description : Option String} :
    Synced (d.createRoomWithParentDesc uuid name (parent.getD rootRoomUuid) description)
      (p.saveRoom uuid ⟨name, parent, description.getD "", true⟩) ↔ description ≠ some "" := by
  have hroot : uuid ≠ rootRoomUuid := by
    rintro rfl
    exact Option.some_ne_none _ (h.root.symm.trans hnew)
  have hold : ∀ k, k ≠ uuid →
      (p.saveRoom uuid ⟨name, parent, description.getD "", true⟩).loadedRoom k = p.loadedRoom k := by
    intro k hk
    unfold Persistence.loadedRoom Persistence.saveRoom
    rw [Table.get_set_ne hk]
    rfl
  have hself : (p.saveRoom uuid ⟨name, parent, description.getD "", true⟩).loadedRoom uuid =
      some ⟨uuid, name, parent.getD rootRoomUuid,
        if (description.getD "").isEmpty then none else some (description.getD ""), true, [], 0⟩ := by
    unfold Persistence.loadedRoom Persistence.saveRoom
    rw [Table.get_set_self, if_neg hroot]
    simp only [Option.map_some, PersistedRoom.toRoom, Persistence.withAcl]
    show some (Room.mk _ _ _ _ (((p.getRoomAcl uuid).map _).getD _)
      (((p.getRoomAcl uuid).map _).getD _) _) = _
    rw [hacl]
    rfl
  have hdesc : (if (description.getD "").isEmpty then none else some (description.getD "")) =
      description ↔ description ≠ some "" := by
    cases description with
    | none => simp
    | some s =>
      by_cases hs : s = ""
      · subst s
        simp
      · simp [hs]
  rw [← hdesc]
  constructor
  · intro h'
    have := h' uuid
    rw [findRoom_createRoomWithParentDesc hnew, if_pos rfl, hself] at this
    exact (congrArg Room.description (Option.some.inj this)).symm
  · intro heq k
    rw [findRoom_createRoomWithParentDesc hnew]
    by_cases hk : k = uuid
    · subst k
      rw [if_pos rfl, hself, heq]
    · rw [if_neg hk, hold k hk]
      exact h k

/-- The room of an id before its ACL is filled in. -/
theorem id_of_base {k : Uuid} {r : Room} (h : (if k = rootRoomUuid then some StateData.rootRoom
    else (p.rooms.get k).map (PersistedRoom.toRoom k)) = some r) : r.id = k := by
  split at h
  · rename_i hk
    rw [← Option.some.inj h, hk]
    rfl
  · obtain ⟨r', -, rfl⟩ := Option.map_eq_some_iff.mp h
    rfl

theorem synced_setRoomAcl (h : Synced d p) (room : Uuid) (inheritAcl : Bool)
    (entries : List RoomAclEntry) :
    Synced ((d.setRoomAcl room inheritAcl entries).getD d)
      (p.setRoomAcl room ⟨inheritAcl, entries⟩) := by
  have hacl : ∀ k, (p.setRoomAcl room ⟨inheritAcl, entries⟩).getRoomAcl k =
      if k = room then some ⟨inheritAcl, entries⟩ else p.getRoomAcl k :=
    fun k => Table.get_set _ _ _ _
  intro k
  refine (findRoom_editRoom (f := fun r => { r with
    inheritAcl := inheritAcl, acls := entries }) fun _ => rfl).trans ?_
  rw [h]
  show _ = Option.map _ (if k = rootRoomUuid then some StateData.rootRoom
    else (p.rooms.get k).map (PersistedRoom.toRoom k))
  unfold Persistence.loadedRoom
  cases hb : (if k = rootRoomUuid then some StateData.rootRoom
    else (p.rooms.get k).map (PersistedRoom.toRoom k)) with
  | none => simp
  | some r =>
    obtain rfl := id_of_base hb
    by_cases hk : r.id = room
    · simp [Persistence.withAcl, hacl, hk]
    · simp [Persistence.withAcl, hacl, hk]

theorem synced_deleteRoom (h : Synced d p) {room : Uuid} {d' : StateData}
    (hd : d.deleteRoom room = some d') : Synced d' ((p.deleteRoom room).deleteRoomAcl room) := by
  obtain ⟨hroot, -, rfl⟩ := StateData.deleteRoom_eq_some.mp hd
  intro k
  refine (find?_filter_ne Room.id room d.rooms k).trans ?_
  show (if k = room then none else d.findRoom k) = _
  rw [h]
  unfold Persistence.loadedRoom
  have hrooms : ((p.deleteRoom room).deleteRoomAcl room).rooms.get k =
      if k = room then none else p.rooms.get k := Table.get_del _ _ _
  rw [hrooms]
  by_cases hk : k = room
  · subst k
    rw [if_pos rfl, if_pos rfl, if_neg hroot]
    rfl
  · rw [if_neg hk, if_neg hk]
    cases hb : (if k = rootRoomUuid then some StateData.rootRoom
      else (p.rooms.get k).map (PersistedRoom.toRoom k)) with
    | none => rfl
    | some r =>
      obtain rfl := id_of_base hb
      have hacl : ((p.deleteRoom room).deleteRoomAcl room).getRoomAcl r.id = p.getRoomAcl r.id :=
        Table.get_del_ne hk
      simp [Persistence.withAcl, hacl]

theorem distinctIds_deleteRoom (h : d.DistinctIds) {room : Uuid} {d' : StateData}
    (hd : d.deleteRoom room = some d') : d'.DistinctIds := by
  obtain ⟨-, -, rfl⟩ := StateData.deleteRoom_eq_some.mp hd
  exact h.sublist (List.filter_sublist.map _)

end Writes

/-! ## Operations -/

/-- What one event does: distinct ids stay distinct, and the lookups stay synced exactly when `C`
holds. -/
def Syncs (w' : World) (C : Prop) : Prop :=
  w'.state.data.DistinctIds ∧ (Synced w'.state.data w'.store ↔ C)

section Operations

variable {cfg : Config} {env : Env} {w w' : World} {C : Prop}

theorem RoomsSynced.syncs (h : RoomsSynced w) (hC : C) : Syncs w C :=
  ⟨h.distinct, iff_of_true h.synced hC⟩

theorem Touches.syncs {S : List Field} (ht : Touches S w w')
    (hS : ∀ f ∈ [Field.rooms, .storedRooms, .roomAcls], f ∉ S) (h : Syncs w C) : Syncs w' C := by
  have h1 : w'.state.data.rooms = w.state.data.rooms := ht _ (hS .rooms (by decide))
  have h2 : w'.store.rooms = w.store.rooms := ht _ (hS .storedRooms (by decide))
  have h3 : w'.store.roomAcls = w.store.roomAcls := ht _ (hS .roomAcls (by decide))
  refine ⟨?_, Iff.trans (forall_congr' fun k => ?_) h.2⟩
  · unfold StateData.DistinctIds
    rw [h1]
    exact h.1
  · unfold StateData.findRoom Persistence.loadedRoom Persistence.withAcl Persistence.getRoomAcl
    rw [h1, h2, h3]

/-- The edit handlers, after their checks. -/
theorem syncs_edit (h : RoomsSynced w) {room : Uuid} {f : Room → Room}
    {g : PersistedRoom → PersistedRoom} {data : StateData} (hid : ∀ r, (f r).id = r.id)
    (hcomm : ∀ r, f (w.store.withAcl (r.toRoom room)) = w.store.withAcl ((g r).toRoom room))
    (hd : w.state.data.editRoom room f = some data) :
    Syncs ((w.mapData fun _ => data).mapStore (·.updateRoom room g)) (room = rootRoomUuid →
      f (w.store.withAcl StateData.rootRoom) = w.store.withAcl StateData.rootRoom) := by
  have hdata : (w.state.data.editRoom room f).getD w.state.data = data := by rw [hd]; rfl
  refine ⟨?_, ?_⟩
  · show data.DistinctIds
    rw [← hdata]
    exact distinctIds_editRoom hid h.distinct
  · show Synced data _ ↔ _
    rw [← hdata]
    exact synced_edit_iff h.synced hid hcomm

theorem roomsSynced_reparentChild (h : RoomsSynced w) (newParent : Uuid) {child : Uuid}
    (hchild : child ≠ rootRoomUuid) : RoomsSynced (reparentChild newParent w child) :=
  ⟨distinctIds_editRoom (fun _ => rfl) h.distinct,
    (synced_edit_iff (f := fun r => { r with parent := newParent })
      (g := fun r => { r with parent := some newParent }) h.synced (fun _ => rfl)
      fun _ => rfl).mpr fun hroot => absurd hroot hchild⟩

/-- Root is nobody's child while it has its own parent. -/
theorem roomsSynced_reparentChildren (h : RoomsSynced w) {room : Uuid}
    (hroom : room ≠ rootRoomUuid) : RoomsSynced (w.reparentChildren room) := by
  unfold reparentChildren StateData.roomParentAndChildren
  cases w.state.data.findRoom room with
  | none => exact h
  | some r =>
    refine List.foldlRecOn _ _ h fun w' h' child hchild => roomsSynced_reparentChild h' _ ?_
    rintro rfl
    obtain ⟨x, hx, hid⟩ := List.mem_map.mp hchild
    obtain ⟨hx, hparent⟩ := List.mem_filter.mp hx
    have hfind := h.distinct.mem_iff.mp hx
    rw [hid, h.synced.root] at hfind
    refine hroom ?_
    rw [← beq_iff_eq.mp hparent, ← Option.some.inj hfind]
    rfl

theorem syncs_applyDeleteRoom (h : RoomsSynced w) (room : Uuid) :
    Syncs (w.applyDeleteRoom room).2 True := by
  unfold applyDeleteRoom
  split
  · exact h.syncs trivial
  rename_i hroom
  have hre := roomsSynced_reparentChildren h hroom
  dsimp only
  split
  · exact hre.syncs trivial
  · rename_i data hd
    have hdel : Syncs (((w.reparentChildren room).mapData fun _ => data).mapStore
        fun store => (store.deleteRoom room).deleteRoomAcl room) True :=
      ⟨distinctIds_deleteRoom hre.distinct hd, iff_of_true (synced_deleteRoom hre.synced hd) trivial⟩
    have hmute : ∀ (ms : List UserId) (w' : World), Touches [.serverMuted, .log] w'
        (ms.foldl (fun w m => w.reevaluateMemberMute m rootRoomUuid) w') := fun ms w' =>
      .foldl (fun w m => touches_reevaluateMemberMute w m rootRoomUuid) ms
    exact (hmute _ _).syncs (by decide)
      ((Touches.broadcast (S := [.log]) .refl _).syncs (by decide) hdel)

theorem syncs_applySetRoomAcl (h : RoomsSynced w) (room : Uuid) (inheritAcl : Bool)
    (entries : List RoomAclEntry) (v : Nat) :
    Syncs (w.applySetRoomAcl cfg room inheritAcl entries v).2 True := by
  unfold applySetRoomAcl
  split
  · exact h.syncs trivial
  split
  · exact h.syncs trivial
  · rename_i data hd
    have hdata : (w.state.data.setRoomAcl room inheritAcl entries).getD w.state.data = data := by
      rw [hd]
      rfl
    have hset : Syncs ((w.mapData fun _ => data).mapStore
        (·.setRoomAcl room ⟨inheritAcl, entries⟩)) True := by
      refine ⟨?_, iff_of_true ?_ trivial⟩
      · show data.DistinctIds
        rw [← hdata]
        exact distinctIds_editRoom (fun _ => rfl) h.distinct
      · show Synced data _
        rw [← hdata]
        exact synced_setRoomAcl h.synced room inheritAcl entries
    have hmute : ∀ (ms : List UserId) (w' : World), Touches [.serverMuted, .log] w'
        (ms.foldl (fun w m => w.reevaluateMemberMute m room) w') := fun ms w' =>
      .foldl (fun w m => touches_reevaluateMemberMute w m room) ms
    exact (hmute _ _).syncs (by decide)
      ((Touches.broadcast (S := [.log]) .refl _).syncs (by decide) hset)

end Operations

/-! ## Requests -/

/-- An authenticated sender holds a permission in a room. -/
def World.permits (w : World) (sender : HandleId) (room : Uuid) (required : Permissions) : Bool :=
  (w.state.conn sender.user).opened && (w.state.conn sender.user).authenticated &&
    (evaluateUserPermissions w.state w.store sender room).contains required

/-- The request is not carried out, or leaves nothing that the store cannot keep: it gives no new
room an empty description, and Root keeps its name, its parent and its empty description. -/
def Durable (w : World) (i : Input) : Prop :=
  match i.2 with
  | .envelope sender (.createRoom _ parentId description) =>
    w.permits sender ((parentId.bind uuidFromRoomId).getD rootRoomUuid) Permissions.makeRoom = true →
      (∀ parent ∈ parentId.bind uuidFromRoomId, w.state.data.roomExists parent = true) →
        description ≠ some ""
  | .envelope sender (.renameRoom roomId newName) =>
    roomIdOrRoot roomId = rootRoomUuid →
      w.permits sender rootRoomUuid Permissions.modifyRoom = true → newName = "Root"
  | .envelope sender (.moveRoom roomId newParentId) =>
    roomIdOrRoot roomId = rootRoomUuid →
      w.permits sender rootRoomUuid Permissions.modifyRoom = true →
        w.permits sender (roomIdOrRoot newParentId) Permissions.makeRoom = true →
          roomIdOrRoot newParentId = rootRoomUuid
  | .envelope sender (.setRoomDescription roomId description) =>
    roomIdOrRoot roomId = rootRoomUuid →
      w.permits sender rootRoomUuid Permissions.modifyRoom = true → description = ""
  | _ => True

instance (w : World) : ∀ i : Input, Decidable (Durable w i)
  | (_, .envelope _ payload) => by
    cases payload <;> first | exact isTrue trivial | exact inferInstanceAs (Decidable (_ → _))
  | (_, .connect) | (_, .readTimeout _) | (_, .datagram ..) | (_, .connectionLost _)
  | (_, .sweep) => isTrue trivial

/-- The id drawn for a created room is used neither by a room nor by a stored ACL. -/
def FreshRoomId (w : World) (i : Input) : Prop :=
  i.2.createsRoom = true → w.state.data.findRoom i.1.newUuid = none ∧
    w.store.getRoomAcl i.1.newUuid = none

instance (w : World) (i : Input) : Decidable (FreshRoomId w i) :=
  inferInstanceAs (Decidable (_ → _))

section Requests

variable {cfg : Config} {env : Env} {w : World} {t : HandleId}

theorem syncs_requirePermission (h : RoomsSynced w) {room : Uuid} {p : Permissions}
    {rest : World → World} {C : Prop}
    (hrest : (evaluateUserPermissions w.state w.store t room).contains p = true → Syncs (rest w) C)
    (hdenied : ¬ (evaluateUserPermissions w.state w.store t room).contains p = true → C) :
    Syncs (w.requirePermission t room p rest) C := by
  unfold requirePermission
  split
  · rename_i hp
    exact hrest hp
  · rename_i hp
    exact (Touches.sendPermissionDenied (S := [.log]) .refl _ _ _).syncs (by decide)
      (h.syncs (hdenied hp))

theorem permits_of_open {room : Uuid} {p : Permissions}
    (hopen : (w.state.conn t.user).opened = true ∧ (w.state.conn t.user).authenticated = true) :
    w.permits t room p = (evaluateUserPermissions w.state w.store t room).contains p := by
  rw [World.permits, hopen.1, hopen.2]
  rfl

theorem syncs_handleCreateRoom (h : RoomsSynced w)
    (hopen : (w.state.conn t.user).opened = true ∧ (w.state.conn t.user).authenticated = true)
    (name : String) (parentId : Option RoomId) (description : Option String)
    (hfresh : FreshRoomId w (env, .envelope t (.createRoom name parentId description))) :
    Syncs (handleCreateRoom env t name parentId description w)
      (Durable w (env, .envelope t (.createRoom name parentId description))) := by
  obtain ⟨hnew, hacl⟩ := hfresh rfl
  unfold handleCreateRoom Durable
  dsimp only
  rw [permits_of_open hopen]
  refine syncs_requirePermission h (fun hp => ?_) fun hp hp' => absurd hp' hp
  unfold applyCreateRoom
  by_cases hparent : (parentId.bind uuidFromRoomId).any
      (fun parent => !w.state.data.roomExists parent) = true
  · rw [if_pos hparent]
    obtain ⟨parent, hmem, hno⟩ := (Option.any_eq_true _ _).mp hparent
    refine (Touches.sendCommandResult (S := [.log]) .refl _ _ _ _).syncs (by decide)
      (h.syncs fun _ hall => ?_)
    rw [hall parent hmem] at hno
    exact Bool.noConfusion hno
  · rw [if_neg hparent]
    have hall : ∀ parent ∈ parentId.bind uuidFromRoomId, w.state.data.roomExists parent = true := by
      intro parent hmem
      by_contra hno
      refine hparent ((Option.any_eq_true _ _).mpr ⟨parent, hmem, ?_⟩)
      simpa using hno
    refine ((Touches.broadcast (S := [.log]) .refl _).sendCommandResult _ _ _ _).syncs (by decide) ?_
    refine ⟨distinctIds_createRoom h.distinct hnew, Iff.trans (synced_create_iff h.synced hnew hacl) ?_⟩
    exact ⟨fun hd _ _ => hd, fun hd => hd hp hall⟩

/-- The edit requests: not found, or made on both sides, announced and reported. -/
theorem syncs_editRequest (h : RoomsSynced w) {room : Uuid} {f : Room → Room}
    {g : PersistedRoom → PersistedRoom} (hid : ∀ r, (f r).id = r.id)
    (hcomm : ∀ r, f (w.store.withAcl (r.toRoom room)) = w.store.withAcl ((g r).toRoom room))
    {C : Prop} (hC : (room = rootRoomUuid →
      f (w.store.withAcl StateData.rootRoom) = w.store.withAcl StateData.rootRoom) ↔ C)
    (c m m' : String) (u : Update) :
    Syncs (match w.state.data.editRoom room f with
      | none => w.sendCommandResult t c false m
      | some data => (((w.mapData fun _ => data).mapStore
          (·.updateRoom room g)).broadcastStateUpdate u).sendCommandResult t c true m') C := by
  split
  · rename_i hnone
    refine (Touches.sendCommandResult (S := [.log]) .refl _ _ _ _).syncs (by decide)
      (h.syncs (hC.mp fun hroot => ?_))
    have hmissing : w.state.data.findRoom room = none :=
      List.find?_eq_none.mpr fun r hr => by
        simpa using StateData.editRoom_eq_none.mp hnone r hr
    rw [hroot, h.synced.root] at hmissing
    cases hmissing
  · rename_i data hd
    have hedit := syncs_edit h hid hcomm hd
    exact ((Touches.broadcast (S := [.log]) .refl _).sendCommandResult _ _ _ _).syncs (by decide)
      ⟨hedit.1, hedit.2.trans hC⟩

theorem syncs_handleRenameRoom (h : RoomsSynced w)
    (hopen : (w.state.conn t.user).opened = true ∧ (w.state.conn t.user).authenticated = true)
    (roomId : Option RoomId) (newName : String) :
    Syncs (handleRenameRoom t roomId newName w)
      (Durable w (env, .envelope t (.renameRoom roomId newName))) := by
  unfold handleRenameRoom Durable
  dsimp only
  rw [permits_of_open hopen]
  refine syncs_requirePermission h (fun hp => ?_) fun hp hroot hp' => absurd (hroot ▸ hp') hp
  refine syncs_editRequest (f := fun r => { r with name := newName })
    (g := fun r => { r with name := newName }) h (fun _ => rfl)
    (fun _ => rfl) ⟨fun hr hroot _ => ?_, fun hd hroot => ?_⟩ _ _ _ _
  · exact congrArg Room.name (hr hroot)
  · rw [hd hroot (hroot ▸ hp)]
    rfl

theorem syncs_handleSetRoomDescription (h : RoomsSynced w)
    (hopen : (w.state.conn t.user).opened = true ∧ (w.state.conn t.user).authenticated = true)
    (roomId : Option RoomId) (description : String) :
    Syncs (handleSetRoomDescription t roomId description w)
      (Durable w (env, .envelope t (.setRoomDescription roomId description))) := by
  unfold handleSetRoomDescription Durable
  dsimp only
  rw [permits_of_open hopen]
  refine syncs_requirePermission h (fun hp => ?_) fun hp hroot hp' => absurd (hroot ▸ hp') hp
  refine syncs_editRequest (f := fun r =>
      { r with description := if description.isEmpty then none else some description })
    (g := fun r => { r with description := description }) h (fun _ => rfl) (fun _ => rfl)
    ⟨fun hr hroot _ => ?_, fun hd hroot => ?_⟩ _ _ _ _
  · have hdesc : (if description.isEmpty then none else some description) = none :=
      congrArg Room.description (hr hroot)
    by_contra hne
    rw [if_neg (by simpa using hne)] at hdesc
    cases hdesc
  · rw [hd hroot (hroot ▸ hp)]
    rfl

theorem syncs_handleMoveRoom (h : RoomsSynced w)
    (hopen : (w.state.conn t.user).opened = true ∧ (w.state.conn t.user).authenticated = true)
    (roomId newParentId : Option RoomId) :
    Syncs (handleMoveRoom t roomId newParentId w)
      (Durable w (env, .envelope t (.moveRoom roomId newParentId))) := by
  unfold handleMoveRoom Durable
  dsimp only
  rw [permits_of_open hopen, permits_of_open hopen]
  refine syncs_requirePermission h (fun hmod => ?_) fun hp hroot hp' => absurd (hroot ▸ hp') hp
  refine syncs_requirePermission h (fun hmake => ?_) fun hp _ _ hp' => absurd hp' hp
  split
  · rename_i hself
    exact (Touches.sendCommandResult (S := [.log]) .refl _ _ _ _).syncs (by decide)
      (h.syncs fun hroot _ _ => hself.trans hroot)
  rename_i hself
  split
  · rename_i hcycle
    refine (Touches.sendCommandResult (S := [.log]) .refl _ _ _ _).syncs (by decide)
      (h.syncs fun hroot _ _ => by_contra fun hp => ?_)
    rw [closesCycle, hroot, walkMeets_root _ _ _ hp] at hcycle
    exact Bool.noConfusion hcycle
  · refine syncs_editRequest (f := fun r => { r with parent := roomIdOrRoot newParentId })
      (g := fun r => { r with parent := some (roomIdOrRoot newParentId) }) h (fun _ => rfl)
      (fun _ => rfl) ⟨fun hr hroot _ _ => ?_, fun hd hroot => ?_⟩ _ _ _ _
    · exact congrArg Room.parent (hr hroot)
    · rw [hd hroot (hroot ▸ hmod) hmake]
      rfl

theorem syncs_handleDeleteRoom (h : RoomsSynced w) (roomId : Option RoomId) :
    Syncs (handleDeleteRoom t roomId w) True := by
  have hop := syncs_applyDeleteRoom h (roomIdOrRoot roomId)
  unfold handleDeleteRoom
  refine syncs_requirePermission h (fun _ => ?_) fun _ => trivial
  split
  · rename_i he
    rw [he] at hop
    exact (Touches.sendCommandResult (S := [.log]) .refl _ _ _ _).syncs (by decide) hop
  · rename_i he
    rw [he] at hop
    exact (Touches.sendCommandResult (S := [.log]) .refl _ _ _ _).syncs (by decide) hop

theorem syncs_handleSetRoomAcl (h : RoomsSynced w) (roomId : List UInt8) (inheritAcl : Bool)
    (entries : List RoomAclEntry) (v : Nat) :
    Syncs (handleSetRoomAcl cfg t roomId inheritAcl entries v w) True := by
  unfold handleSetRoomAcl
  split
  · exact (Touches.sendCommandResult (S := [.log]) .refl _ _ _ _).syncs (by decide) (h.syncs trivial)
  · refine syncs_requirePermission h (fun _ => ?_) fun _ => trivial
    exact (Touches.replyResult (S := [.log]) t _ (r := w.applySetRoomAcl cfg _ inheritAcl entries v)
      .refl).syncs (by decide) (syncs_applySetRoomAcl h _ _ _ _)

/-- **One event** keeps distinct ids, and keeps the store in step exactly when it is durable. -/
theorem syncs_step (cfg : Config) {w : World} (h : RoomsSynced w) {i : Input}
    (hfresh : FreshRoomId w i) : Syncs (stepInput cfg w i) (Durable w i) := by
  obtain ⟨env, e⟩ := i
  have ht := touches_step cfg env w e
  unfold stepInput
  cases e with
  | connect => exact ht.syncs (by dsimp only [Event.footprint]; decide) (h.syncs trivial)
  | readTimeout => exact ht.syncs (by dsimp only [Event.footprint]; decide) (h.syncs trivial)
  | datagram => exact ht.syncs (by dsimp only [Event.footprint]; decide) (h.syncs trivial)
  | connectionLost => exact ht.syncs (by dsimp only [Event.footprint]; decide) (h.syncs trivial)
  | sweep => exact ht.syncs (by dsimp only [Event.footprint]; decide) (h.syncs trivial)
  | envelope t payload =>
    by_cases hopen : (w.state.conn t.user).opened = true ∧ (w.state.conn t.user).authenticated = true
    · have hhandle : ∀ w' : World, (if (w.state.conn t.user).opened = true then
          (if (w.state.conn t.user).authenticated = true then w' else w) else w) = w' := fun w' => by
        rw [if_pos hopen.1, if_pos hopen.2]
      cases payload
      case createRoom name parentId description =>
        dsimp only [step, handleEnvelope]
        rw [hhandle]
        exact syncs_handleCreateRoom h hopen name parentId description hfresh
      case renameRoom roomId newName =>
        dsimp only [step, handleEnvelope]
        rw [hhandle]
        exact syncs_handleRenameRoom h hopen roomId newName
      case moveRoom roomId newParentId =>
        dsimp only [step, handleEnvelope]
        rw [hhandle]
        exact syncs_handleMoveRoom h hopen roomId newParentId
      case setRoomDescription roomId description =>
        dsimp only [step, handleEnvelope]
        rw [hhandle]
        exact syncs_handleSetRoomDescription h hopen roomId description
      case deleteRoom roomId =>
        dsimp only [step, handleEnvelope]
        rw [hhandle]
        exact syncs_handleDeleteRoom h roomId
      case setRoomAcl roomId inheritAcl entries baseVersion =>
        dsimp only [step, handleEnvelope]
        rw [hhandle]
        exact syncs_handleSetRoomAcl h roomId inheritAcl entries baseVersion
      all_goals
        exact ht.syncs (by dsimp only [Event.footprint, footprint]; decide) (h.syncs trivial)
    · -- The request is ignored, and it has no permission.
      have hpermits : ∀ room p, w.permits t room p ≠ true := by
        intro room p hp
        unfold World.permits at hp
        simp only [Bool.and_eq_true] at hp
        exact hopen hp.1
      have hstep : ∀ w' : World, (if (w.state.conn t.user).opened = true then
          (if (w.state.conn t.user).authenticated = true then w' else w) else w) = w := by
        intro w'
        split
        · rename_i ho
          exact if_neg fun ha => hopen ⟨ho, ha⟩
        · rfl
      cases payload
      case createRoom =>
        dsimp only [step, handleEnvelope]
        rw [hstep]
        exact h.syncs fun hp => absurd hp (hpermits _ _)
      case renameRoom | moveRoom | setRoomDescription =>
        dsimp only [step, handleEnvelope]
        rw [hstep]
        exact h.syncs fun _ hp => absurd hp (hpermits _ _)
      case deleteRoom | setRoomAcl =>
        dsimp only [step, handleEnvelope]
        rw [hstep]
        exact h.syncs trivial
      all_goals
        exact ht.syncs (by dsimp only [Event.footprint, footprint]; decide) (h.syncs trivial)

end Requests

theorem roomsSynced_boot (store : Persistence) : RoomsSynced (World.boot store) where
  distinct := distinctIds_loadPersistedRooms
  synced := fun _ => findRoom_loadPersistedRooms

/-- **Restart equivalence.** In a run of the server over any database, with fresh room ids, a
restart gives back the rooms and ACLs of every state exactly when every request of the run is
durable. -/
theorem restart_run_iff (cfg : Config) (store : Persistence) (inputs : List Input)
    (hfresh : Always (stepInput cfg) FreshRoomId (World.boot store) inputs) :
    (∀ pre, pre <+: inputs → SurvivesRestart (run cfg (World.boot store) pre)) ↔
      Always (stepInput cfg) Durable (World.boot store) inputs := by
  have hboot := roomsSynced_boot store
  refine always_iff_history
    (Q := fun pre => (run cfg (World.boot store) pre).state.data.DistinctIds)
    ((survivesRestart_iff hboot.distinct).mpr hboot.synced) hboot.distinct fun pre i hp h hd => ?_
  have hpre : RoomsSynced (run cfg (World.boot store) pre) := ⟨hd, (survivesRestart_iff hd).mp h⟩
  obtain ⟨hd', hsync⟩ := syncs_step cfg hpre (hfresh.at hp)
  rw [run_snoc]
  exact ⟨hd', (survivesRestart_iff hd').trans hsync⟩

/-- A room is created, described and moved, and its ACL set. -/
def sampleRoomEdits : List Input :=
  sampleLogin 1 (Bytes.rep 32 9) "ann" ++
    [sampleMsg 1 (.createRoom "lobby" none none),
      ({ sampleEnv with newUuid := Bytes.rep 16 8 },
        .envelope (primary 1) (.createRoom "attic" none (some "dusty"))),
      sampleMsg 1 (.moveRoom (some (roomIdFromUuid (Bytes.rep 16 7)))
        (some (roomIdFromUuid (Bytes.rep 16 8)))),
      sampleMsg 1 (.setRoomDescription (some (roomIdFromUuid (Bytes.rep 16 8))) ""),
      sampleMsg 1 (.setRoomAcl (List.replicate 16 8) false [] 0)]

theorem restart_roomEdits : SurvivesRestart (run sampleConfig (World.boot sampleAdminStore)
    sampleRoomEdits) :=
  (restart_run_iff sampleConfig sampleAdminStore sampleRoomEdits (by decide +kernel)).mpr
    (by decide +kernel) sampleRoomEdits (List.prefix_refl _)

/-- Root is renamed. -/
def sampleRenamedRoot : List Input :=
  sampleLogin 1 (Bytes.rep 32 9) "ann" ++ [sampleMsg 1 (.renameRoom none "Hall")]

theorem not_restart_renamedRoot :
    Always (stepInput sampleConfig) FreshRoomId (World.boot sampleAdminStore) sampleRenamedRoot ∧
      ¬ SurvivesRestart (run sampleConfig (World.boot sampleAdminStore) sampleRenamedRoot) := by
  refine ⟨by decide +kernel, fun h => ?_⟩
  obtain ⟨r, hr, hname⟩ : ∃ r ∈ (run sampleConfig (World.boot sampleAdminStore)
      sampleRenamedRoot).rooms, r.name = "Hall" := by decide +kernel
  have hboot : ∀ r ∈ (World.boot (run sampleConfig (World.boot sampleAdminStore)
      sampleRenamedRoot).store).rooms, r.name = "Root" := by decide +kernel
  exact absurd (hname.symm.trans (hboot r ((h r).mpr hr))) (by decide)

end Rumble.Server
