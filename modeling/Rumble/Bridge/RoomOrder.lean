import Rumble.Bridge.Reconcile
import Rumble.Server.RoomTree

/-!
# Orders on a room tree

On a well-formed room list the breadth-first walk of reconciliation takes every room once and
parents first, and the upward walk of `old_depth` counts the links to Root.
-/

namespace Rumble.Bridge

open Rumble.Lib Rumble.Server

variable {rooms : List Room}

/-! ## Lookups -/

theorem find?_reverse_eq_some_iff {α κ : Type} [DecidableEq κ] {key : α → κ} {l : List α}
    (hnd : (l.map key).Nodup) {k : κ} {a : α} :
    l.reverse.find? (fun x => key x == k) = some a ↔ a ∈ l ∧ key a = k := by
  constructor
  · intro h
    exact ⟨List.mem_reverse.mp (List.mem_of_find?_eq_some h), by simpa using List.find?_some h⟩
  · rintro ⟨ha, rfl⟩
    cases hfind : l.reverse.find? fun x => key x == key a with
    | none =>
      have := List.find?_eq_none.mp hfind a (List.mem_reverse.mpr ha)
      exact absurd (beq_self_eq_true (key a)) this
    | some b =>
      have hb := List.mem_reverse.mp (List.mem_of_find?_eq_some hfind)
      have hkey : key b = key a := by simpa using List.find?_some hfind
      rw [List.inj_on_of_nodup_map hnd hb ha hkey]

theorem roomByUuid_eq_some_iff (hnd : (rooms.map Room.id).Nodup) {uuid : Uuid} {room : Room} :
    roomByUuid rooms uuid = some room ↔ room ∈ rooms ∧ room.id = uuid :=
  find?_reverse_eq_some_iff hnd

theorem userById_eq_some_iff {users : List User} (hnd : (users.map User.userId).Nodup)
    {userId : UserId} {user : User} :
    userById users userId = some user ↔ user ∈ users ∧ user.userId = userId :=
  find?_reverse_eq_some_iff hnd

theorem roomByUuid_eq_none_iff {uuid : Uuid} :
    roomByUuid rooms uuid = none ↔ uuid ∉ rooms.map Room.id := by
  unfold roomByUuid
  simp

/-! ## The walk -/

theorem mem_childRooms {uuid : Uuid} {room : Room} : room ∈ childRooms rooms uuid ↔
    room ∈ rooms ∧ room.id ≠ rootRoomUuid ∧ room.parent = uuid := by
  unfold childRooms
  simp

theorem RoomTree.forest (h : RoomTree rooms) {root : Room} (hmem : root ∈ rooms)
    (hid : root.id = rootRoomUuid) :
    Forest rooms (fun room => childRooms rooms room.id) root where
  root_mem := hmem
  closed := fun _ _ y hy => (mem_childRooms.mp hy).1
  nodup := fun _ _ => (List.Nodup.of_map _ h.distinct).filter _
  unique := by
    intro x hx x' hx' y hy hy'
    refine List.inj_on_of_nodup_map h.distinct hx hx' ?_
    rw [← (mem_childRooms.mp hy).2.2, ← (mem_childRooms.mp hy').2.2]
  root_free := fun x _ hroot => (mem_childRooms.mp hroot).2.1 hid

theorem RoomTree.walkStart (h : RoomTree rooms) : ∃ root ∈ rooms, root.id = rootRoomUuid ∧
    walkStart rooms = [root] := by
  obtain ⟨root, hroot, -, huniq⟩ := h.root
  have hid := (huniq root hroot).mpr rfl
  unfold Bridge.walkStart
  cases hfind : rooms.find? fun r => r.id == rootRoomUuid with
  | none => exact absurd (List.find?_eq_none.mp hfind root hroot) (by simp [hid])
  | some r =>
    have hr : r.id = rootRoomUuid := by simpa using List.find?_some hfind
    exact ⟨r, List.mem_of_find?_eq_some hfind, hr, rfl⟩

/-- The order in which rooms are announced. -/
structure RoomOrder (rooms order : List Room) : Prop where
  nodup : (order.map Room.id).Nodup
  mem_iff : ∀ room, room ∈ order ↔ room ∈ rooms
  parent : ∀ pre room post, order = pre ++ room :: post → room.id ≠ rootRoomUuid →
    room.parent ∈ pre.map Room.id

/-- **Every room once, parents first.** -/
theorem roomOrder_roomsInOrder (h : RoomTree rooms) : RoomOrder rooms (roomsInOrder rooms) := by
  obtain ⟨root, hroot, hid, hstart⟩ := RoomTree.walkStart h
  have hf := RoomTree.forest h hroot hid
  have hend := Walking.finish hf rooms.length hf.start (by simp)
  rw [List.nil_append, ← hstart] at hend
  change Walking rooms _ root (roomsInOrder rooms) [] at hend
  have hsub : ∀ room ∈ roomsInOrder rooms, room ∈ rooms := by
    intro room hr
    exact hend.subset room (List.mem_append_left _ hr)
  have hall : ∀ n uuid, Climbs (parentLink rooms) rootRoomUuid n uuid →
      ∀ room ∈ rooms, room.id = uuid → room ∈ roomsInOrder rooms := by
    intro n uuid hclimb
    induction hclimb with
    | here =>
      intro room hr hrid
      rw [List.inj_on_of_nodup_map h.distinct hr hroot (hrid.trans hid.symm)]
      simpa using hend.root_mem
    | up hne hlink _ ih =>
      intro room hr hrid
      obtain ⟨x, hx, hxid, rfl⟩ := exists_of_parentLink hlink
      obtain rfl := List.inj_on_of_nodup_map h.distinct hr hx (hrid.trans hxid.symm)
      obtain ⟨p, hp, hpid⟩ := h.parents room hr (hrid ▸ hne)
      have hchild := mem_childRooms.mpr ⟨hr, hrid ▸ hne, hpid.symm⟩
      simpa using hend.closed p (ih p hp hpid) room hchild
  refine ⟨?_, fun room => ⟨hsub room, fun hr => ?_⟩, fun pre room post heq hne => ?_⟩
  · have hnd := hend.nodup
    rw [List.append_nil] at hnd
    exact hnd.map_on fun a ha b hb => List.inj_on_of_nodup_map h.distinct (hsub a ha) (hsub b hb)
  · obtain ⟨n, hn⟩ := h.reaches room hr
    exact hall n room.id hn room hr rfl
  · rcases hend.ordered pre room post heq with rfl | ⟨p, hp, hchild⟩
    · exact absurd hid hne
    · rw [(mem_childRooms.mp hchild).2.2]
      exact List.mem_map_of_mem hp

/-! ## Depths -/

theorem depthFrom_of_climbs (hnd : (rooms.map Room.id).Nodup) {n : Nat} {uuid : Uuid}
    (h : Climbs (parentLink rooms) rootRoomUuid n uuid) :
    ∀ fuel, n < fuel → depthFrom rooms fuel uuid = n := by
  induction h with
  | here =>
    intro fuel hfuel
    obtain ⟨fuel, rfl⟩ := Nat.exists_eq_add_of_lt hfuel
    rw [depthFrom, if_pos rfl]
  | @up n a b hne hlink _ ih =>
    intro fuel hfuel
    obtain ⟨fuel, rfl⟩ : ∃ m, fuel = m + 1 := ⟨fuel - 1, by omega⟩
    obtain ⟨room, hroom, hid, rfl⟩ := exists_of_parentLink hlink
    rw [depthFrom, if_neg hne, (roomByUuid_eq_some_iff hnd).mpr ⟨hroom, hid⟩]
    dsimp only
    rw [ih fuel (by omega)]

/-- The depth of a room of a tree is the number of links to Root. -/
theorem oldDepth_of_climbs (h : RoomTree rooms) {n : Nat} {uuid : Uuid}
    (hclimb : Climbs (parentLink rooms) rootRoomUuid n uuid) : oldDepth rooms uuid = n := by
  have hle : n ≤ (rooms.map Room.id).length := hclimb.le_card fun b _ hb => by
    obtain ⟨r, hr, rfl⟩ := parentLink_isSome.mp hb
    exact List.mem_map_of_mem hr
  refine depthFrom_of_climbs h.distinct hclimb _ ?_
  rw [h.distinct.dedup]
  omega

/-- A room is one deeper than its parent. -/
theorem oldDepth_parent (h : RoomTree rooms) {room : Room} (hr : room ∈ rooms)
    (hne : room.id ≠ rootRoomUuid) : oldDepth rooms room.id = oldDepth rooms room.parent + 1 := by
  obtain ⟨p, hp, hpid⟩ := h.parents room hr hne
  obtain ⟨n, hn⟩ := h.reaches p hp
  rw [hpid] at hn
  rw [oldDepth_of_climbs h hn]
  exact oldDepth_of_climbs h (.up hne (parentLink_eq_some h.distinct hr) hn)

end Rumble.Bridge
