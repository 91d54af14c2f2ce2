import Rumble.Lib.Loop
import Rumble.Client.Projection
import Rumble.Server.RoomTree

/-!
# Room chains

`build_room_chain_owned` of the server and `build_room_chain` of the client walk from a room up to
Root, in loops that a length and a set of visited rooms bound. Both loops end on every room list, on
a room tree they give the path from Root to the room, and the chain of a room other than Root has at
least two rooms, so its permissions are never server-scoped (`room_chain_correct`).
-/

namespace Rumble

open Rumble.Lib Rumble.Server Rumble.Client

/-! ## The loops as written -/

/-- The body of the server's loop, on the path so far and the current room. -/
def walkBody (rooms : List Room) (s : List Uuid × Uuid) : List Uuid ⊕ List Uuid × Uuid :=
  let path := s.1 ++ [s.2]
  if s.2 = rootRoomUuid then .inl path
  else match parentLink rooms s.2 with
    | none => .inl path
    | some parent =>
      if rooms.length + 1 < path.length then .inl path else .inr (path, parent)

/-- The body of the client's loop, which also has the rooms it has visited. -/
def visitedBody (rooms : List Room) (s : List Uuid × List Uuid × Uuid) :
    List Uuid ⊕ List Uuid × List Uuid × Uuid :=
  let (visited, path, current) := s
  if current ∈ visited then .inl path
  else
    let path := path ++ [current]
    if current = rootRoomUuid then .inl path
    else match parentLink rooms current with
      | none => .inl path
      | some parent => .inr (current :: visited, path, parent)

section Loops

variable {rooms : List Room} {fuel : Nat} {path visited : List Uuid} {current : Uuid}

/-- The server's loop ends with what the bounded walk gives. -/
theorem loops_walkBody (hfuel : path.length + fuel = rooms.length + 2) (hpos : 0 < fuel) :
    Loops (walkBody rooms) (path, current) (path ++ walkUp rooms fuel current) := by
  induction fuel generalizing path current with
  | zero => exact absurd hpos (Nat.lt_irrefl 0)
  | succ fuel ih =>
    have hlen : (path ++ [current]).length = path.length + 1 := by simp
    rw [walkUp]
    by_cases hroot : current = rootRoomUuid
    · rw [if_pos hroot]
      exact .stop (if_pos hroot)
    rw [if_neg hroot]
    cases hlink : parentLink rooms current with
    | none =>
      refine .stop ?_
      simp only [walkBody, if_neg hroot, hlink]
    | some parent =>
      by_cases hbound : rooms.length + 1 < path.length + 1
      · obtain rfl : fuel = 0 := by omega
        refine .stop ?_
        simp only [walkBody, if_neg hroot, hlink, hlen, if_pos hbound, walkUp]
      · have hnext : walkBody rooms (path, current) = .inr (path ++ [current], parent) := by
          simp only [walkBody, if_neg hroot, hlink, hlen, if_neg hbound]
        refine .next hnext ?_
        have h : Loops (walkBody rooms) (path ++ [current], parent)
            (path ++ [current] ++ walkUp rooms fuel parent) := ih (by omega) (by omega)
        rwa [List.append_assoc] at h

/-- The client's loop pushes no room twice, and at most one that is not in the list. -/
theorem loops_visitedBody (hnodup : visited.Nodup) (hsub : visited ⊆ rooms.map Room.id)
    (hfuel : visited.length + fuel = rooms.length + 2) :
    Loops (visitedBody rooms) (visited, path, current)
      (path ++ walkVisited rooms fuel visited current) := by
  induction fuel generalizing visited path current with
  | zero =>
    have hlen := (hnodup.subperm hsub).length_le
    rw [List.length_map] at hlen
    omega
  | succ fuel ih =>
    rw [walkVisited]
    by_cases hmem : current ∈ visited
    · rw [if_pos hmem, List.append_nil]
      exact .stop (if_pos hmem)
    rw [if_neg hmem]
    by_cases hroot : current = rootRoomUuid
    · rw [if_pos hroot]
      refine .stop ?_
      simp only [visitedBody, if_neg hmem, if_pos hroot]
    rw [if_neg hroot]
    cases hlink : parentLink rooms current with
    | none =>
      refine .stop ?_
      simp only [visitedBody, if_neg hmem, if_neg hroot, hlink]
    | some parent =>
      have hnext : visitedBody rooms (visited, path, current) =
          .inr (current :: visited, path ++ [current], parent) := by
        simp only [visitedBody, if_neg hmem, if_neg hroot, hlink]
      have hid : current ∈ rooms.map Room.id := by
        obtain ⟨r, hr, rfl, -⟩ := exists_of_parentLink hlink
        exact List.mem_map_of_mem hr
      refine .next hnext ?_
      have h : Loops (visitedBody rooms) (current :: visited, path ++ [current], parent)
          (path ++ [current] ++ walkVisited rooms fuel (current :: visited) parent) :=
        ih (List.nodup_cons.mpr ⟨hmem, hnodup⟩) (List.cons_subset.mpr ⟨hid, hsub⟩)
          (by rw [List.length_cons]; omega)
      rwa [List.append_assoc] at h

end Loops

/-! ## On a room tree -/

section Tree

variable {rooms : List Room} {n : Nat} {current : Uuid}

/-- The server's walk from a room that climbs to Root. -/
theorem descent_walkUp (h : Climbs (parentLink rooms) rootRoomUuid n current) {fuel : Nat}
    (hfuel : n < fuel) :
    Descent (parentLink rooms) rootRoomUuid current (walkUp rooms fuel current).reverse := by
  induction h generalizing fuel with
  | here =>
    obtain ⟨fuel, rfl⟩ := Nat.exists_eq_succ_of_ne_zero (Nat.ne_zero_of_lt hfuel)
    rw [walkUp, if_pos rfl]
    exact .root
  | up hne hab _ ih =>
    obtain ⟨fuel, rfl⟩ := Nat.exists_eq_succ_of_ne_zero (Nat.ne_zero_of_lt hfuel)
    rw [walkUp, if_neg hne, hab, List.reverse_cons]
    exact .down hne hab (ih (Nat.lt_of_succ_lt_succ hfuel))

/-- The client's walk is the same: what it has visited is higher up than where it is. -/
theorem walkVisited_eq (h : Climbs (parentLink rooms) rootRoomUuid n current) {fuel : Nat}
    {visited : List Uuid} (hvisited : ∀ v ∈ visited, ∀ m,
      Climbs (parentLink rooms) rootRoomUuid m v → n < m) :
    walkVisited rooms fuel visited current = walkUp rooms fuel current := by
  induction h generalizing fuel visited with
  | here =>
    cases fuel with
    | zero => rfl
    | succ fuel =>
      have hnot : rootRoomUuid ∉ visited := fun hmem =>
        absurd (hvisited _ hmem 0 .here) (Nat.lt_irrefl 0)
      rw [walkVisited, walkUp, if_neg hnot, if_pos rfl, if_pos rfl]
  | @up n a b hne hab hb ih =>
    cases fuel with
    | zero => rfl
    | succ fuel =>
      have ha : Climbs (parentLink rooms) rootRoomUuid (n + 1) a := .up hne hab hb
      have hnot : a ∉ visited := fun hmem => absurd (hvisited _ hmem _ ha) (Nat.lt_irrefl _)
      rw [walkVisited, walkUp, if_neg hnot, if_neg hne, if_neg hne, hab]
      refine congrArg (a :: ·) (ih fun v hv m hm => ?_)
      rcases List.mem_cons.mp hv with rfl | hv
      · rw [hm.unique ha]
        exact Nat.lt_succ_self n
      · exact Nat.lt_of_succ_lt (hvisited v hv m hm)

/-- A path from Root without repetition is a chain as it stands. -/
theorem finishChain_of_descent {path : List Uuid}
    (h : Descent (parentLink rooms) rootRoomUuid current path.reverse)
    (hclimbs : Climbs (parentLink rooms) rootRoomUuid n current) :
    finishChain path = path.reverse := by
  rw [finishChain, if_pos h.head]
  exact List.destutter_of_isChain _ _ (h.nodup hclimbs).isChain

end Tree

/-! ## Rooms other than Root -/

theorem mem_destutter'_ne {α : Type} [DecidableEq α] {x : α} {l : List α} :
    ∀ {a : α}, x ∈ a :: l → x ∈ l.destutter' (· ≠ ·) a := by
  induction l with
  | nil => exact id
  | cons b l ih =>
    intro a hx
    rw [List.destutter'_cons]
    split
    · rcases List.mem_cons.mp hx with rfl | hx
      · exact List.mem_cons_self
      · exact List.mem_cons_of_mem _ (ih hx)
    · rename_i hab
      obtain rfl := not_not.mp hab
      refine ih ((List.mem_cons.mp hx).elim (fun heq => ?_) id)
      exact heq ▸ List.mem_cons_self

/-- A finished chain starts at Root and has every room of the walk. -/
theorem mem_finishChain {path : List Uuid} {u : Uuid} (h : u = rootRoomUuid ∨ u ∈ path) :
    u ∈ finishChain path := by
  have hmem : ∀ {l : List Uuid}, u ∈ l → u ∈ l.destutter (· ≠ ·) := fun {l} hl => by
    cases l with
    | nil => exact hl
    | cons a l => exact mem_destutter'_ne hl
  refine hmem ?_
  split
  · rename_i hroot
    rcases h with rfl | h
    · exact List.mem_of_mem_head? hroot
    · exact List.mem_reverse.mpr h
  · rcases h with rfl | h
    · exact List.mem_cons_self
    · exact List.mem_cons_of_mem _ (List.mem_reverse.mpr h)

/-- **The chain of another room is not Root's.** -/
theorem one_lt_length_roomPath (rooms : List Room) {target : Uuid} (h : target ≠ rootRoomUuid) :
    1 < (roomPath rooms target).length := by
  have htarget : target ∈ roomPath rooms target :=
    mem_finishChain (.inr (by rw [walkUp]; exact List.mem_cons_self))
  have hroot : rootRoomUuid ∈ roomPath rooms target := mem_finishChain (.inl rfl)
  generalize roomPath rooms target = path at htarget hroot ⊢
  match path, htarget, hroot with
  | [_], htarget, hroot =>
    exact absurd ((List.mem_singleton.mp htarget).trans (List.mem_singleton.mp hroot).symm) h
  | _ :: _ :: path, _, _ => exact Nat.succ_lt_succ (Nat.succ_pos _)

/-- Server-scoped bits are stripped over a chain of more than one room. -/
theorem effectivePermissions_scoped {userGroups : List String}
    {groupPermissions : String → Option Permissions} {chain : List (Uuid × Option RoomAclData)}
    (h : 1 < chain.length) :
    effectivePermissions userGroups groupPermissions chain false &&& Permissions.allServerScoped =
      0 := by
  rw [effectivePermissions, if_neg Bool.false_ne_true]
  dsimp only
  split
  · exact BitVec.zero_and
  · rw [if_pos h, BitVec.and_assoc, BitVec.and_comm (~~~ _), BitVec.and_not_self]
    exact BitVec.and_zero

theorem map_fst_buildRoomChainOwned (rooms : List Room) (store : Persistence) (target : Uuid) :
    (buildRoomChainOwned rooms store target).map Prod.fst = roomPath rooms target := by
  rw [buildRoomChainOwned, List.map_map]
  exact List.map_id _

theorem map_fst_buildRoomChain (rooms : List Room) (target : Uuid) :
    (buildRoomChain rooms target).map Prod.fst =
      finishChain (walkVisited rooms (rooms.length + 2) [] target) := by
  rw [buildRoomChain, List.map_map]
  exact List.map_id _

/-- **Room chains are correct.** The loops of both sides end; on a room tree both chains are the
path from Root to the room, each room once; and in a room other than Root nobody but a superuser
has a server-scoped permission, whatever the list is. -/
theorem room_chain_correct (rooms : List Room) (store : Persistence) (target : Uuid) :
    (∃ path, Loops (walkBody rooms) ([], target) path ∧
      (buildRoomChainOwned rooms store target).map Prod.fst = finishChain path) ∧
    (∃ path, Loops (visitedBody rooms) ([], [], target) path ∧
      (buildRoomChain rooms target).map Prod.fst = finishChain path) ∧
    (RoomTree rooms → (∃ r ∈ rooms, r.id = target) →
      Descent (parentLink rooms) rootRoomUuid target
        ((buildRoomChainOwned rooms store target).map Prod.fst) ∧
      ((buildRoomChainOwned rooms store target).map Prod.fst).Nodup ∧
      (buildRoomChain rooms target).map Prod.fst =
        (buildRoomChainOwned rooms store target).map Prod.fst) ∧
    (target ≠ rootRoomUuid → 1 < (buildRoomChainOwned rooms store target).length ∧
      ∀ identity, evaluateIdentityPermissions rooms store false identity target &&&
        Permissions.allServerScoped = 0) := by
  rw [map_fst_buildRoomChainOwned, map_fst_buildRoomChain]
  refine ⟨⟨_, loops_walkBody (Nat.zero_add _) (Nat.succ_pos _), rfl⟩,
    ⟨_, loops_visitedBody List.nodup_nil (List.nil_subset _) (Nat.zero_add _), rfl⟩, ?_, ?_⟩
  · rintro htree ⟨r, hr, rfl⟩
    obtain ⟨n, hclimbs⟩ := htree.reaches r hr
    have hn : n < rooms.length + 2 := by
      have hle : n ≤ (rooms.map Room.id).length := hclimbs.le_card fun b _ hb => by
        obtain ⟨r', hr', rfl⟩ := parentLink_isSome.mp hb
        exact List.mem_map_of_mem hr'
      rw [List.length_map] at hle
      omega
    have hdescent := descent_walkUp hclimbs hn
    have hpath : roomPath rooms r.id = _ := finishChain_of_descent hdescent hclimbs
    have hsame : walkVisited rooms (rooms.length + 2) [] r.id = _ :=
      walkVisited_eq hclimbs fun v hv => absurd hv List.not_mem_nil
    rw [hpath, hsame]
    exact ⟨hdescent, hdescent.nodup hclimbs, hpath⟩
  · intro hne
    have hlen : 1 < (buildRoomChainOwned rooms store target).length := by
      rw [buildRoomChainOwned, List.length_map]
      exact one_lt_length_roomPath rooms hne
    exact ⟨hlen, fun identity => effectivePermissions_scoped hlen⟩

/-- Root, a room in it and one in that. -/
def sampleChainRooms : List Room :=
  StateData.new.rooms ++ [{ StateData.rootRoom with id := Bytes.rep 16 1 }] ++
    [{ StateData.rootRoom with id := Bytes.rep 16 2, parent := Bytes.rep 16 1 }]

theorem room_chain_correct_sample :
    (buildRoomChain sampleChainRooms (Bytes.rep 16 2)).map Prod.fst =
        (buildRoomChainOwned sampleChainRooms .empty (Bytes.rep 16 2)).map Prod.fst ∧
      1 < (buildRoomChainOwned sampleChainRooms .empty (Bytes.rep 16 2)).length := by
  have htree : RoomTree sampleChainRooms :=
    (roomTree_new.create (by decide) (by decide)).create (by decide) (by decide)
  obtain ⟨-, -, hpath, hother⟩ := room_chain_correct sampleChainRooms .empty (Bytes.rep 16 2)
  exact ⟨(hpath htree (by decide)).2.2, (hother (by decide)).1⟩

end Rumble
