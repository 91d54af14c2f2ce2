import Rumble.Bridge.Ids
import Rumble.Server.Subtree

/-!
# Subtrees of the bridge

`collect_subtree_channels` of `mumble-bridge/src/bridge.rs`: the search over the cached rooms, with
the channels of the rooms it visits as its result. `subtree_collection` sets it against the search
of the server.
-/

namespace Rumble.Bridge

open Rumble.Lib Rumble.Lib.Transition Rumble.Server World

/-- The room that a channel stands for; channel 0 is always Root. -/
def roomOfChannel (channels : ChannelMap) (channel : UInt32) : Option Uuid :=
  (ChannelMap.getRumbleUuid channels channel).or (if channel = 0 then some rootRoomUuid else none)

/-- One child: the rooms visited, the queue and the channels so far. -/
def visitKid (channels : ChannelMap) (acc : List Uuid × List Uuid × List UInt32) (kid : Uuid) :
    List Uuid × List Uuid × List UInt32 :=
  if kid ∈ acc.1 then acc
  else (acc.1 ++ [kid], acc.2.1 ++ [kid],
    match ChannelMap.getMumbleId channels kid with
    | some channel => if channel ∈ acc.2.2 then acc.2.2 else acc.2.2 ++ [channel]
    | none => acc.2.2)

/-- The loop over the queue; none when the fuel is gone before the queue is empty. -/
def subtreeLoop (rooms : List Room) (channels : ChannelMap) :
    Nat → List Uuid × List Uuid × List UInt32 → Option (List UInt32)
  | _, (_, [], result) => some result
  | 0, (_, _ :: _, _) => none
  | fuel + 1, (visited, current :: queue, result) =>
    subtreeLoop rooms channels fuel (((childRooms rooms current).map Room.id).foldl
      (visitKid channels) (visited, queue, result))

/-- `collect_subtree_channels` -/
def collectSubtreeChannels (rooms : List Room) (channels : ChannelMap) (rootChannel : UInt32) :
    Option (List UInt32) :=
  match roomOfChannel channels rootChannel with
  | none => some [rootChannel]
  | some root =>
    subtreeLoop rooms channels (rooms.length + 1) ([root], [root], [rootChannel])

/-! ## The two searches -/

variable {rooms : List Room} {channels : ChannelMap}

/-- The channels that a list of rooms adds to those found so far. -/
def Adds (channels : ChannelMap) (found result : List UInt32) (kids : List Uuid) : Prop :=
  ∀ channel, channel ∈ result ↔
    channel ∈ found ∨ ∃ kid ∈ kids, ChannelMap.getMumbleId channels kid = some channel

theorem Adds.trans {found mid result : List UInt32} {kids kids' : List Uuid}
    (h : Adds channels found mid kids) (h' : Adds channels mid result kids') :
    Adds channels found result (kids ++ kids') := by
  intro channel
  rw [h' channel, h channel]
  constructor
  · rintro ((hfound | ⟨kid, hkid, hid⟩) | ⟨kid, hkid, hid⟩)
    · exact .inl hfound
    · exact .inr ⟨kid, List.mem_append_left _ hkid, hid⟩
    · exact .inr ⟨kid, List.mem_append_right _ hkid, hid⟩
  · rintro (hfound | ⟨kid, hkid, hid⟩)
    · exact .inl (.inl hfound)
    · rcases List.mem_append.mp hkid with hkid | hkid
      · exact .inl (.inr ⟨kid, hkid, hid⟩)
      · exact .inr ⟨kid, hkid, hid⟩

variable (channels) in
/-- One child that was not visited. -/
theorem visitKid_of_not_mem {visited : List Uuid} {kid : Uuid} (h : kid ∉ visited)
    (queue : List Uuid) (found : List UInt32) : ∃ result,
      visitKid channels (visited, queue, found) kid = (visited ++ [kid], queue ++ [kid], result) ∧
        Adds channels found result [kid] := by
  refine ⟨_, if_neg h, fun channel => ?_⟩
  cases hid : ChannelMap.getMumbleId channels kid with
  | none => simp [hid]
  | some id =>
    simp only [List.mem_singleton, exists_eq_left, hid, Option.some.injEq]
    split
    · rename_i hmem
      exact ⟨.inl, fun h => h.elim (fun hfound => hfound) fun heq => heq ▸ hmem⟩
    · rw [List.mem_append, List.mem_singleton, eq_comm (b := id)]

variable (channels) in
/-- The children of a room: those that were not visited get in. -/
theorem foldl_visitKid (kids : List Uuid) (visited queue acc : List Uuid) (found : List UInt32) :
    ∃ result, kids.foldl (visitKid channels) (visited ++ acc, queue ++ acc, found) =
        (visited ++ kids.foldl (fun acc k => if k ∈ visited ++ acc then acc else acc ++ [k]) acc,
          queue ++ kids.foldl (fun acc k => if k ∈ visited ++ acc then acc else acc ++ [k]) acc,
          result) ∧
      ∃ new, kids.foldl (fun acc k => if k ∈ visited ++ acc then acc else acc ++ [k]) acc =
        acc ++ new ∧ Adds channels found result new := by
  induction kids generalizing acc found with
  | nil => exact ⟨found, rfl, [], (List.append_nil acc).symm, fun _ => by simp⟩
  | cons kid kids ih =>
    rw [List.foldl_cons, List.foldl_cons]
    by_cases hkid : kid ∈ visited ++ acc
    · rw [if_pos hkid, visitKid, if_pos hkid]
      exact ih acc found
    · rw [if_neg hkid]
      obtain ⟨mid, hvisit, hmid⟩ := visitKid_of_not_mem channels hkid (queue ++ acc) found
      rw [hvisit, List.append_assoc, List.append_assoc]
      obtain ⟨result, hfold, new, hnew, hresult⟩ := ih (acc ++ [kid]) mid
      exact ⟨result, hfold, kid :: new, by rw [hnew, List.append_assoc]; rfl, hmid.trans hresult⟩

variable (channels) in
/-- **The loops agree.** The bridge visits what the server's search sees, and adds its channels. -/
theorem subtreeLoop_of_search {fuel : Nat} {queue seen seen' : List Uuid} (found : List UInt32)
    (h : search (childIds rooms) fuel queue seen = some seen') :
    ∃ result new, subtreeLoop rooms channels fuel (seen, queue, found) = some result ∧
      seen' = seen ++ new ∧ Adds channels found result new := by
  induction fuel generalizing queue seen found with
  | zero =>
    cases queue with
    | nil =>
      exact ⟨found, [], rfl, by rw [List.append_nil]; exact (Option.some.inj h).symm,
        fun _ => by simp⟩
    | cons => exact nomatch h
  | succ fuel ih =>
    cases queue with
    | nil =>
      exact ⟨found, [], rfl, by rw [List.append_nil]; exact (Option.some.inj h).symm,
        fun _ => by simp⟩
    | cons current queue =>
      rw [search] at h
      obtain ⟨mid, hfold, new, hnew, hmid⟩ :=
        foldl_visitKid channels (childIds rooms current) seen queue [] found
      rw [List.append_nil, List.append_nil, List.nil_append] at *
      obtain ⟨result, new', hloop, hseen, hresult⟩ := ih mid h
      refine ⟨result, new ++ new', ?_, ?_, hmid.trans hresult⟩
      · rw [subtreeLoop]
        change subtreeLoop rooms channels fuel ((childIds rooms current).foldl _ _) = _
        rw [hfold]
        exact hloop
      · rw [hseen, fresh, hnew, List.append_assoc]

/-- **The bridge's subtree is the server's.** On any list of rooms, over a channel map that is
inverse to its reverse map, the bridge finds the channels of the server's rooms. -/
theorem collectSubtreeChannels_spec (rooms : List Room) (sound : ChannelMap.Sound channels)
    {root : Uuid} {rootChannel : UInt32} (hroot : roomOfChannel channels rootChannel = some root) :
    ∃ result, collectSubtreeChannels rooms channels rootChannel = some result ∧
      ∀ u, (∃ channel ∈ result, roomOfChannel channels channel = some u) ↔
        u ∈ collectDescendantRooms rooms root ∧
          (u = root ∨ (ChannelMap.getMumbleId channels u).isSome) := by
  obtain ⟨hsearch, hdone⟩ := search_collectDescendantRooms rooms root
  obtain ⟨result, new, hloop, hseen, hadds⟩ :=
    subtreeLoop_of_search channels [rootChannel] hsearch
  have hread : ∀ {u channel}, ChannelMap.getMumbleId channels u = some channel →
      roomOfChannel channels channel = some u := fun h => by
    have hback : ChannelMap.getRumbleUuid channels _ = some _ := (sound.ids.inverse _ _).mp h
    rw [roomOfChannel, hback]
    rfl
  refine ⟨result, ?_, fun u => ⟨?_, ?_⟩⟩
  · rw [collectSubtreeChannels, hroot]
    exact hloop
  · rintro ⟨channel, hmem, hu⟩
    rcases (hadds channel).mp hmem with hfound | ⟨kid, hkid, hid⟩
    · rw [List.mem_singleton.mp hfound, hroot] at hu
      obtain rfl := Option.some.inj hu
      exact ⟨hdone.start_mem, .inl rfl⟩
    · obtain rfl : kid = u := Option.some.inj ((hread hid).symm.trans hu)
      rw [hseen]
      exact ⟨List.mem_append_right _ hkid, .inr (by rw [hid]; rfl)⟩
  · rintro ⟨hmem, hknown⟩
    rw [hseen] at hmem
    rcases List.mem_append.mp hmem with hfirst | hnew
    · obtain rfl := List.mem_singleton.mp hfirst
      exact ⟨rootChannel, (hadds _).mpr (.inl (List.mem_singleton.mpr rfl)), hroot⟩
    · have hne : u ≠ root := by
        rintro rfl
        have hnodup := hdone.nodup
        rw [hseen, List.singleton_append] at hnodup
        exact (List.nodup_cons.mp hnodup).1 hnew
      obtain ⟨channel, hid⟩ := Option.isSome_iff_exists.mp (hknown.resolve_left hne)
      exact ⟨channel, (hadds _).mpr (.inr ⟨u, hnew, hid⟩), hread hid⟩

/-- **Subtrees.** On any list of rooms, with cycles and missing parents, the server's search ends,
finds every room once, and finds exactly the rooms whose way up meets the root. On any list of rooms,
every room tree among them, the bridge's search ends too, with the channels of those of the server's
rooms that have one: when every room has a channel, these are the same rooms. -/
theorem subtree_collection :
    (∀ (rooms : List Room) (root : Uuid),
      (∀ fuel, rooms.length + 1 ≤ fuel → search (childIds rooms) fuel [root] [root] =
        some (collectDescendantRooms rooms root)) ∧
      (collectDescendantRooms rooms root).Nodup ∧
      ∀ u, u ∈ collectDescendantRooms rooms root ↔ ChainReaches rooms root u) ∧
    ∀ (rooms : List Room) (channels : ChannelMap), ChannelMap.Sound channels →
      ∀ (root : Uuid) (rootChannel : UInt32), roomOfChannel channels rootChannel = some root →
        ∃ result, collectSubtreeChannels rooms channels rootChannel = some result ∧
          (∀ u, (∃ channel ∈ result, roomOfChannel channels channel = some u) ↔
            u ∈ collectDescendantRooms rooms root ∧
              (u = root ∨ (ChannelMap.getMumbleId channels u).isSome)) ∧
          ((∀ room ∈ rooms, (ChannelMap.getMumbleId channels room.id).isSome) →
            ∀ u, (∃ channel ∈ result, roomOfChannel channels channel = some u) ↔
              u ∈ collectDescendantRooms rooms root) := by
  refine ⟨fun rooms root => ?_, fun rooms channels sound root rootChannel hroot => ?_⟩
  · obtain ⟨hsearch, hdone⟩ := search_collectDescendantRooms rooms root
    exact ⟨fun fuel hle => search_mono hle hsearch, hdone.nodup,
      fun u => mem_collectDescendantRooms⟩
  · obtain ⟨result, hresult, hspec⟩ := collectSubtreeChannels_spec rooms sound hroot
    refine ⟨result, hresult, hspec, fun hmapped u => ?_⟩
    refine (hspec u).trans (and_iff_left_of_imp fun hmem => ?_)
    cases mem_collectDescendantRooms.mp hmem with
    | here => exact .inl rfl
    | up hr _ _ => exact .inr (hmapped _ hr)

/-- Root, a room under it, and two rooms that are each other's parent. -/
def looseRooms : List Room :=
  let room (id parent : UInt8) : Room :=
    { id := Bytes.rep 16 id, name := "", parent := Bytes.rep 16 parent, description := none,
      inheritAcl := true, acls := [], effectivePermissions := 0 }
  [room 0 0, room 1 0, room 2 3, room 3 2]

def looseChannels : ChannelMap :=
  (looseRooms.map Room.id).foldl (fun m id => (ChannelMap.getOrInsert m id).2) ChannelMap.new

theorem subtree_collection_loose : ∃ result,
    collectSubtreeChannels looseRooms looseChannels 2 = some result ∧
      ∀ u, (∃ channel ∈ result, roomOfChannel looseChannels channel = some u) ↔
        u ∈ [Bytes.rep 16 2, Bytes.rep 16 3] := by
  have sound : ChannelMap.Sound looseChannels := by
    refine ChannelMap.Edited.sound (m := ChannelMap.new) ?_ BridgeState.idsKept_new.channels
      (by decide +kernel)
    exact reflTransGen_foldl (fun m : ChannelMap => m) _
      (fun m id => ChannelMap.Edited.insert m id) _ _
  obtain ⟨result, hresult, -, hsame⟩ := subtree_collection.2 looseRooms looseChannels sound
    (Bytes.rep 16 2) 2 (by decide +kernel)
  exact ⟨result, hresult, fun u => hsame (by decide +kernel) u⟩

end Rumble.Bridge
