import Rumble.Server.RoomTree

/-!
# Starting over a database

`load_persisted_rooms` of `server/src/server.rs` with `add_room_with_uuid_and_parent_desc` and
`hydrate_room_acls` of `server/src/state.rs`. `findRoom_loadPersistedRooms` reads the loaded room
list entry by entry: Root as built in and every stored record decoded, both with their stored ACL.
-/

namespace Rumble.Server

open Rumble.Lib World

/-! ## The loader -/

/-- Every stored room, in key order (the iteration order of the tree). -/
def Persistence.getAllRooms (p : Persistence) : List (Uuid × PersistedRoom) :=
  p.rooms.toPairs.insertionSort fun a b => byteKey a.1.data ≤ byteKey b.1.data

/-- A room with a known id; an id that is taken is left as it is. -/
def StateData.addRoomWithUuidAndParentDesc (d : StateData) (uuid : Uuid) (name : String)
    (parent : Uuid) (description : Option String) : StateData :=
  if d.rooms.any (fun r => r.id == uuid) then d
  else d.createRoomWithParentDesc uuid name parent description

/-- One stored room. A record under Root's id is skipped, an absent parent is Root, an empty
description is none. -/
def loadRoom (d : StateData) (e : Uuid × PersistedRoom) : StateData :=
  if e.1 = rootRoomUuid then d
  else d.addRoomWithUuidAndParentDesc e.1 e.2.name (e.2.parent.getD rootRoomUuid)
    (if e.2.description.isEmpty then none else some e.2.description)

/-- The stored ACL of one room, if there is one. -/
def hydrateRoom (p : Persistence) (d : StateData) (room : Uuid) : StateData :=
  match p.getRoomAcl room with
  | some acl => (d.setRoomAcl room acl.inheritAcl acl.entries).getD d
  | none => d

def hydrateRoomAcls (p : Persistence) (d : StateData) : StateData :=
  (d.rooms.map Room.id).foldl (hydrateRoom p) d

def loadPersistedRooms (p : Persistence) (d : StateData) : StateData :=
  hydrateRoomAcls p (p.getAllRooms.foldl loadRoom d)

/-- The server started over a database. -/
def World.boot (store : Persistence) : World :=
  (World.init store).mapData (loadPersistedRooms store)

/-! ## What is loaded -/

/-- The ACL fields of a room as the store has them. -/
def Persistence.withAcl (p : Persistence) (r : Room) : Room :=
  { r with
    inheritAcl := ((p.getRoomAcl r.id).map PersistedRoomAcl.inheritAcl).getD r.inheritAcl
    acls := ((p.getRoomAcl r.id).map PersistedRoomAcl.entries).getD r.acls }

/-- A stored record as a room, before its ACL. -/
def PersistedRoom.toRoom (id : Uuid) (r : PersistedRoom) : Room where
  id := id
  name := r.name
  parent := r.parent.getD rootRoomUuid
  description := if r.description.isEmpty then none else some r.description
  inheritAcl := true
  acls := []
  effectivePermissions := 0

/-- The room a restart finds under an id. -/
def Persistence.loadedRoom (p : Persistence) (id : Uuid) : Option Room :=
  (if id = rootRoomUuid then some StateData.rootRoom
    else (p.rooms.get id).map (PersistedRoom.toRoom id)).map p.withAcl

section Loading

variable {p : Persistence} {d : StateData} {k : Uuid}

theorem findRoom_createRoomWithParentDesc {uuid : Uuid} {name : String} {parent : Uuid}
    {description : Option String} (h : d.findRoom uuid = none) :
    (d.createRoomWithParentDesc uuid name parent description).findRoom k =
      if k = uuid then some ⟨uuid, name, parent, description, true, [], 0⟩ else d.findRoom k := by
  unfold StateData.createRoomWithParentDesc StateData.findRoom at *
  rw [List.find?_append]
  by_cases hk : k = uuid
  · subst k
    rw [h, if_pos rfl]
    simp
  · rw [if_neg hk]
    simp [Ne.symm hk]

theorem any_id_eq : d.rooms.any (fun r => r.id == k) = (d.findRoom k).isSome := by
  rw [Bool.eq_iff_iff, StateData.findRoom, List.find?_isSome, List.any_eq_true]

/-- A record is loaded unless its id is Root's or already there. -/
theorem findRoom_loadRoom (e : Uuid × PersistedRoom) : (loadRoom d e).findRoom k =
    (d.findRoom k).or
      (if k ≠ rootRoomUuid ∧ e.1 = k then some (e.2.toRoom e.1) else none) := by
  unfold loadRoom StateData.addRoomWithUuidAndParentDesc
  split
  · rename_i hroot
    have hno : ¬ (k ≠ rootRoomUuid ∧ e.1 = k) := fun h => h.1 (h.2.symm.trans hroot)
    rw [if_neg hno, Option.or_none]
  rename_i hroot
  split
  · rename_i hany
    rw [any_id_eq] at hany
    by_cases hk : e.1 = k
    · obtain ⟨r, hr⟩ := Option.isSome_iff_exists.mp (hk ▸ hany)
      rw [hr, Option.some_or]
    · rw [if_neg fun h => hk h.2, Option.or_none]
  · rename_i hany
    rw [any_id_eq] at hany
    have hnone := Option.not_isSome_iff_eq_none.mp hany
    rw [findRoom_createRoomWithParentDesc hnone]
    by_cases hk : k = e.1
    · subst k
      have hload : e.1 ≠ rootRoomUuid ∧ e.1 = e.1 := ⟨hroot, rfl⟩
      rw [if_pos rfl, hnone, Option.none_or, if_pos hload]
      rfl
    · rw [if_neg hk, if_neg fun h => hk h.2.symm, Option.or_none]

theorem findRoom_foldl_loadRoom (l : List (Uuid × PersistedRoom)) : ∀ d : StateData,
    (l.foldl loadRoom d).findRoom k = (d.findRoom k).or
      (if k = rootRoomUuid then none
        else (l.find? fun e => e.1 == k).map fun e => e.2.toRoom e.1) := by
  induction l with
  | nil => intro d; simp
  | cons e l ih =>
    intro d
    rw [List.foldl_cons, ih, findRoom_loadRoom, Option.or_assoc]
    congr 1
    by_cases hroot : k = rootRoomUuid
    · simp [hroot]
    by_cases hk : e.1 = k
    · simp [hroot, hk]
    · simp [hroot, hk]

/-- The stored record of an id is found by the loader. -/
theorem find?_getAllRooms :
    (p.getAllRooms.find? fun e => e.1 == k) = (p.rooms.get k).map (k, ·) := by
  have hmem : ∀ e, e ∈ p.getAllRooms ↔ p.rooms.get e.1 = some e.2 := fun e => by
    unfold Persistence.getAllRooms
    rw [(List.perm_insertionSort _ _).mem_iff, ← Table.mem_toPairs]
  cases hf : p.getAllRooms.find? fun e => e.1 == k with
  | none =>
    cases hg : p.rooms.get k with
    | none => rfl
    | some r => exact absurd (List.find?_eq_none.mp hf (k, r) ((hmem (k, r)).mpr hg)) (by simp)
  | some e =>
    obtain rfl : e.1 = k := by simpa using List.find?_some hf
    rw [(hmem e).mp (List.mem_of_find?_eq_some hf)]
    rfl

/-- An in-place edit seen through the lookup. -/
theorem findRoom_editRoom {room : Uuid} {f : Room → Room} (hid : ∀ r, (f r).id = r.id) :
    ((d.editRoom room f).getD d).findRoom k =
      if k = room then (d.findRoom k).map f else d.findRoom k := by
  unfold StateData.findRoom
  cases hd : d.editRoom room f with
  | some d' =>
    obtain ⟨-, rfl⟩ := StateData.editRoom_eq_some.mp hd
    exact find?_modifyFirst Room.id room hid d.rooms k
  | none =>
    rw [Option.getD_none]
    split
    · subst k
      have hnone : d.rooms.find? (fun r => r.id == room) = none :=
        List.find?_eq_none.mpr fun r hr => by simpa using StateData.editRoom_eq_none.mp hd r hr
      rw [hnone]
      rfl
    · rfl

theorem id_of_findRoom {r : Room} (h : d.findRoom k = some r) : r.id = k := by
  simpa using List.find?_some h

theorem findRoom_hydrateRoom (room : Uuid) : (hydrateRoom p d room).findRoom k =
    if k = room then (d.findRoom k).map p.withAcl else d.findRoom k := by
  unfold hydrateRoom
  rcases ha : p.getRoomAcl room with _ | acl
  · dsimp only
    split
    · subst k
      cases hr : d.findRoom room with
      | none => rfl
      | some r =>
        obtain rfl := id_of_findRoom hr
        simp [Persistence.withAcl, ha]
    · rfl
  · refine (findRoom_editRoom (f := fun r => { r with
      inheritAcl := acl.inheritAcl, acls := acl.entries }) fun _ => rfl).trans ?_
    split
    · subst k
      cases hr : d.findRoom room with
      | none => rfl
      | some r =>
        obtain rfl := id_of_findRoom hr
        simp [Persistence.withAcl, ha]
    · rfl

theorem withAcl_withAcl (r : Room) : p.withAcl (p.withAcl r) = p.withAcl r := by
  unfold Persistence.withAcl
  dsimp only
  cases p.getRoomAcl r.id <;> rfl

theorem findRoom_foldl_hydrateRoom (l : List Uuid) : ∀ d : StateData,
    (l.foldl (hydrateRoom p) d).findRoom k =
      if k ∈ l then (d.findRoom k).map p.withAcl else d.findRoom k := by
  induction l with
  | nil => intro d; simp
  | cons room l ih =>
    intro d
    rw [List.foldl_cons, ih, findRoom_hydrateRoom]
    have hcomp : p.withAcl ∘ p.withAcl = p.withAcl := funext withAcl_withAcl
    by_cases h1 : k = room
    · subst k
      simp [hcomp]
    · simp [h1]

theorem mem_ids : k ∈ d.rooms.map Room.id ↔ (d.findRoom k).isSome = true := by
  rw [← any_id_eq, List.any_eq_true, List.mem_map]
  simp only [beq_iff_eq]

/-- **A restart finds the stored rooms.** -/
theorem findRoom_loadPersistedRooms :
    (loadPersistedRooms p StateData.new).findRoom k = p.loadedRoom k := by
  have hload : (p.getAllRooms.foldl loadRoom StateData.new).findRoom k =
      if k = rootRoomUuid then some StateData.rootRoom
      else (p.rooms.get k).map (PersistedRoom.toRoom k) := by
    rw [findRoom_foldl_loadRoom, find?_getAllRooms]
    by_cases hroot : k = rootRoomUuid
    · subst k
      rfl
    · have hnew : StateData.new.findRoom k = none := by
        simp [StateData.new, StateData.findRoom, StateData.rootRoom, Ne.symm hroot]
      rw [if_neg hroot, if_neg hroot, hnew, Option.none_or, Option.map_map]
      rfl
  unfold loadPersistedRooms hydrateRoomAcls Persistence.loadedRoom
  rw [findRoom_foldl_hydrateRoom, ← hload]
  split
  · rfl
  · rename_i hk
    rw [mem_ids, Option.not_isSome_iff_eq_none] at hk
    rw [hk]
    rfl

/-! ## Distinct ids -/

/-- No two rooms share an id. -/
def StateData.DistinctIds (d : StateData) : Prop := (d.rooms.map Room.id).Nodup

/-- With distinct ids the lookups determine the rooms. -/
theorem StateData.DistinctIds.mem_iff (h : d.DistinctIds) {r : Room} :
    r ∈ d.rooms ↔ d.findRoom r.id = some r := by
  refine ⟨fun hr => ?_, fun hr => List.mem_of_find?_eq_some hr⟩
  obtain ⟨r', hr'⟩ := Option.isSome_iff_exists.mp (mem_ids.mp (List.mem_map_of_mem hr))
  have hmem : r' ∈ d.rooms := List.mem_of_find?_eq_some hr'
  rw [hr', List.inj_on_of_nodup_map h hmem hr (id_of_findRoom hr')]

theorem distinctIds_createRoom {uuid : Uuid} {name : String} {parent : Uuid}
    {description : Option String} (h : d.DistinctIds) (hnew : d.findRoom uuid = none) :
    (d.createRoomWithParentDesc uuid name parent description).DistinctIds := by
  unfold StateData.DistinctIds StateData.createRoomWithParentDesc
  rw [List.map_append, List.nodup_append]
  refine ⟨h, List.nodup_singleton _, ?_⟩
  rintro a ha b hb rfl
  obtain rfl := List.mem_singleton.mp hb
  have hsome := mem_ids.mp ha
  rw [hnew] at hsome
  exact Bool.noConfusion hsome

theorem distinctIds_editRoom {room : Uuid} {f : Room → Room} (hid : ∀ r, (f r).id = r.id)
    (h : d.DistinctIds) : ((d.editRoom room f).getD d).DistinctIds := by
  cases hd : d.editRoom room f with
  | none => exact h
  | some d' =>
    obtain ⟨-, rfl⟩ := StateData.editRoom_eq_some.mp hd
    unfold StateData.DistinctIds
    rw [Option.getD_some, map_key_modifyFirst Room.id _ f hid]
    exact h

theorem distinctIds_loadPersistedRooms : (loadPersistedRooms p StateData.new).DistinctIds := by
  have hload : (p.getAllRooms.foldl loadRoom StateData.new).DistinctIds := by
    refine List.foldlRecOn _ loadRoom (List.nodup_singleton _ : StateData.new.DistinctIds) ?_
    intro d h e _
    unfold loadRoom StateData.addRoomWithUuidAndParentDesc
    split
    · exact h
    split
    · exact h
    · rename_i hany
      rw [any_id_eq, Option.not_isSome_iff_eq_none] at hany
      exact distinctIds_createRoom h hany
  refine List.foldlRecOn _ (hydrateRoom p) hload fun d h room _ => ?_
  unfold hydrateRoom
  split
  · exact distinctIds_editRoom (fun _ => rfl) h
  · exact h

end Loading

end Rumble.Server
