import Rumble.Lib.Search
import Rumble.Server.Handlers

/-!
# Subtrees

`collect_descendant_rooms` of `server/src/handlers.rs`. A room is in the subtree of `top` when the
way up its parent links meets `top`; a way up ends at Root, whatever parent Root has. On any list of
rooms, with repeated ids, cycles and missing parents, the search ends and finds exactly these rooms.
-/

namespace Rumble.Server

open Rumble.Lib Relation World

/-- The way up from a room meets `top`; it ends at Root. -/
inductive ChainReaches (rooms : List Room) (top : Uuid) : Uuid → Prop where
  | here : ChainReaches rooms top top
  | up {r : Room} (hr : r ∈ rooms) (hroot : r.id ≠ rootRoomUuid)
      (h : ChainReaches rooms top r.parent) : ChainReaches rooms top r.id

/-- The entry of a room in the map from parents to children. -/
def childIds (rooms : List Room) (u : Uuid) : List Uuid :=
  (rooms.filter fun r => r.id ≠ rootRoomUuid ∧ r.parent = u).map Room.id

variable {rooms : List Room} {top u v : Uuid}

theorem mem_childIds : v ∈ childIds rooms u ↔
    ∃ r ∈ rooms, r.id ≠ rootRoomUuid ∧ r.parent = u ∧ r.id = v := by
  unfold childIds
  simp [and_assoc]

/-- Down along the children is up along the parents. -/
theorem chainReaches_iff :
    ChainReaches rooms top u ↔ ReflTransGen (fun a b => b ∈ childIds rooms a) top u := by
  constructor
  · intro h
    induction h with
    | here => exact .refl
    | up hr hroot _ ih => exact ih.tail (mem_childIds.mpr ⟨_, hr, hroot, rfl, rfl⟩)
  · intro h
    induction h with
    | refl => exact .here
    | tail _ hchild ih =>
      obtain ⟨r, hr, hroot, rfl, rfl⟩ := mem_childIds.mp hchild
      exact .up hr hroot ih

/-- When the queue of the search runs empty, its result is that of the loop. -/
theorem bfsRooms_of_search {fuel : Nat} {queue seen result : List Uuid}
    (h : search (childIds rooms) fuel queue seen = some result) :
    bfsRooms rooms fuel queue seen = result := by
  induction fuel generalizing queue seen with
  | zero =>
    cases queue with
    | nil => exact Option.some.inj h
    | cons => exact nomatch h
  | succ fuel ih =>
    cases queue with
    | nil => exact Option.some.inj h
    | cons current queue => exact ih h

/-- **The search of a subtree.** -/
theorem search_collectDescendantRooms (rooms : List Room) (top : Uuid) :
    search (childIds rooms) (rooms.length + 1) [top] [top] =
        some (collectDescendantRooms rooms top) ∧
      Searching (childIds rooms) top [] (collectDescendantRooms rooms top) := by
  have hnodes : ∀ a, ∀ b ∈ childIds rooms a, b ∈ top :: rooms.map Room.id := fun a b hb => by
    obtain ⟨r, hr, _, _, rfl⟩ := mem_childIds.mp hb
    exact List.mem_cons_of_mem _ (List.mem_map_of_mem hr)
  obtain ⟨result, hsearch, hdone⟩ := (Searching.start top).ends hnodes (rooms.length + 1)
    (fun _ h => List.mem_singleton.mp h ▸ List.mem_cons_self) (by simp)
  obtain rfl : collectDescendantRooms rooms top = result := bfsRooms_of_search hsearch
  exact ⟨hsearch, hdone⟩

theorem mem_collectDescendantRooms :
    u ∈ collectDescendantRooms rooms top ↔ ChainReaches rooms top u :=
  (search_collectDescendantRooms rooms top).2.mem_iff.trans chainReaches_iff.symm

end Rumble.Server
