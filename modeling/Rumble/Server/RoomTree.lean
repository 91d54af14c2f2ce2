import Rumble.Lib.Rooted
import Rumble.Lib.Transition
import Rumble.Server.Footprint

/-!
# The room tree

What every reader of the room list relies on: one Root that parents itself, distinct ids, and every
room climbing to Root over existing rooms. The mutators keep it, and so does every request but one
kind: a MoveRoom that moves Root or names a new parent that does not exist.
-/

namespace Rumble.Server

open Rumble.Lib Rumble.Lib.Transition World

/-! ## Parent links of a room list -/

theorem parentLink_isSome {rooms : List Room} {u : Uuid} :
    (parentLink rooms u).isSome ↔ ∃ r ∈ rooms, r.id = u := by
  simp [parentLink]

theorem parentLink_eq_some {rooms : List Room} (hnd : (rooms.map Room.id).Nodup) {r : Room}
    (hr : r ∈ rooms) : parentLink rooms r.id = some r.parent := by
  cases hf : rooms.find? (fun x => x.id == r.id) with
  | none => exact absurd (List.find?_eq_none.mp hf r hr) (by simp)
  | some x =>
    have hx := List.mem_of_find?_eq_some hf
    have hid : x.id = r.id := by simpa using List.find?_some hf
    rw [parentLink, hf, Option.map_some, List.inj_on_of_nodup_map hnd hx hr hid]

theorem exists_of_parentLink {rooms : List Room} {u p : Uuid} (h : parentLink rooms u = some p) :
    ∃ r ∈ rooms, r.id = u ∧ r.parent = p := by
  obtain ⟨r, hr, hp⟩ := Option.map_eq_some_iff.mp h
  exact ⟨r, List.mem_of_find?_eq_some hr, by simpa using List.find?_some hr, hp⟩

/-- An edit that keeps ids and parents keeps the links. -/
theorem parentLink_edit {f : Room → Room} (hid : ∀ r, (f r).id = r.id)
    (hp : ∀ r, (f r).parent = r.parent) (k : Uuid) (rooms : List Room) :
    parentLink (modifyFirst (fun r => r.id == k) f rooms) = parentLink rooms := by
  funext u
  rw [parentLink, find?_modifyFirst Room.id k hid]
  split
  · simp [parentLink, Function.comp_def, hp]
  · rfl

/-- Moving an existing room is an update of its link. -/
theorem parentLink_move {rooms : List Room} {k : Uuid} (hk : (parentLink rooms k).isSome)
    (p : Uuid) :
    parentLink (modifyFirst (fun r => r.id == k) (fun r => { r with parent := p }) rooms) =
      Function.update (parentLink rooms) k (some p) := by
  have hid : ∀ r : Room, ({ r with parent := p } : Room).id = r.id := fun _ => rfl
  funext u
  rw [parentLink, find?_modifyFirst Room.id k hid]
  by_cases hu : u = k
  · subst hu
    obtain ⟨q, hq⟩ := Option.isSome_iff_exists.mp hk
    obtain ⟨r, hr, -⟩ := Option.map_eq_some_iff.mp hq
    simp [hr]
  · rw [if_neg hu, Function.update_of_ne hu, parentLink]

theorem parentLink_filter (k : Uuid) (rooms : List Room) :
    parentLink (rooms.filter fun r => r.id ≠ k) = Function.update (parentLink rooms) k none := by
  funext u
  rw [parentLink, find?_filter_ne Room.id]
  by_cases hu : u = k
  · simp [hu]
  · rw [if_neg hu, Function.update_of_ne hu, parentLink]

theorem parentLink_append {rooms : List Room} {r : Room} (hr : parentLink rooms r.id = none) :
    parentLink (rooms ++ [r]) = Function.update (parentLink rooms) r.id (some r.parent) := by
  funext u
  rw [parentLink, List.find?_append]
  by_cases hu : u = r.id
  · subst hu
    have : rooms.find? (fun x => x.id == r.id) = none := by
      simpa [parentLink] using hr
    simp [this]
  · rw [Function.update_of_ne hu]
    have : [r].find? (fun x => x.id == u) = none := by simp [Ne.symm hu]
    rw [this, Option.or_none, parentLink]

/-! ## The invariant -/

/-- A well-formed room list. -/
structure RoomTree (rooms : List Room) : Prop where
  /-- Exactly one room is Root, and Root parents itself. -/
  root : ∃ r ∈ rooms, r.parent = rootRoomUuid ∧ ∀ r' ∈ rooms, r'.id = rootRoomUuid ↔ r' = r
  distinct : (rooms.map Room.id).Nodup
  parents : ∀ r ∈ rooms, r.id ≠ rootRoomUuid → ∃ p ∈ rooms, p.id = r.parent
  /-- Following parent links from any room reaches Root. -/
  reaches : ∀ r ∈ rooms, ∃ n, Climbs (parentLink rooms) rootRoomUuid n r.id

theorem roomTree_iff {rooms : List Room} :
    RoomTree rooms ↔ (rooms.map Room.id).Nodup ∧ Rooted (parentLink rooms) rootRoomUuid := by
  constructor
  · intro h
    obtain ⟨r, hr, hrp, huniq⟩ := h.root
    have hrid : r.id = rootRoomUuid := (huniq r hr).mpr rfl
    have hlink : parentLink rooms rootRoomUuid = some rootRoomUuid := by
      rw [← hrid, parentLink_eq_some h.distinct hr, hrp, hrid]
    refine ⟨h.distinct, hlink, ?_, ?_⟩
    · intro a b hab
      obtain ⟨x, hx, rfl, rfl⟩ := exists_of_parentLink hab
      by_cases hroot : x.id = rootRoomUuid
      · rw [(huniq x hx).mp hroot, hrp, hlink]; rfl
      · exact parentLink_isSome.mpr (h.parents x hx hroot)
    · intro a ha
      obtain ⟨x, hx, rfl⟩ := parentLink_isSome.mp ha
      exact h.reaches x hx
  · rintro ⟨hnd, h⟩
    obtain ⟨r, hr, hrid, hrp⟩ := exists_of_parentLink h.root_link
    refine ⟨⟨r, hr, hrp, fun r' hr' => ?_⟩, hnd, ?_, ?_⟩
    · exact ⟨fun h' => List.inj_on_of_nodup_map hnd hr' hr (h'.trans hrid.symm),
        fun h' => h' ▸ hrid⟩
    · intro x hx _
      exact parentLink_isSome.mp (h.closed x.id x.parent (parentLink_eq_some hnd hx))
    · intro x hx
      exact h.climbs x.id (parentLink_isSome.mpr ⟨x, hx, rfl⟩)

theorem roomTree_new : RoomTree StateData.new.rooms := by
  refine ⟨⟨StateData.rootRoom, List.mem_singleton.mpr rfl, rfl, ?_⟩, List.nodup_singleton _, ?_, ?_⟩
  · intro r hr
    obtain rfl := List.mem_singleton.mp hr
    exact ⟨fun _ => rfl, fun _ => rfl⟩
  · intro r hr hne
    obtain rfl := List.mem_singleton.mp hr
    exact absurd rfl hne
  · intro r hr
    obtain rfl := List.mem_singleton.mp hr
    exact ⟨0, .here⟩

namespace RoomTree

variable {rooms : List Room}

theorem rooted (h : RoomTree rooms) : Rooted (parentLink rooms) rootRoomUuid :=
  (roomTree_iff.mp h).2

/-- An edit that keeps ids and parents. -/
theorem edit (h : RoomTree rooms) (k : Uuid) {f : Room → Room} (hid : ∀ r, (f r).id = r.id)
    (hp : ∀ r, (f r).parent = r.parent) :
    RoomTree (modifyFirst (fun r => r.id == k) f rooms) := by
  refine roomTree_iff.mpr ⟨?_, ?_⟩
  · rw [map_key_modifyFirst Room.id _ _ hid]
    exact h.distinct
  · rw [parentLink_edit hid hp]
    exact h.rooted

/-- A new room under an existing one. -/
theorem create (h : RoomTree rooms) {r : Room} (hfresh : ∀ x ∈ rooms, x.id ≠ r.id)
    (hp : ∃ x ∈ rooms, x.id = r.parent) : RoomTree (rooms ++ [r]) := by
  have hnone : parentLink rooms r.id = none := by
    rw [← Option.not_isSome_iff_eq_none, parentLink_isSome]
    rintro ⟨x, hx, hxid⟩
    exact hfresh x hx hxid
  refine roomTree_iff.mpr ⟨?_, ?_⟩
  · rw [List.map_append, List.map_singleton]
    refine h.distinct.append (List.nodup_singleton _) (List.disjoint_singleton.mpr ?_)
    intro hmem
    obtain ⟨x, hx, hxid⟩ := List.mem_map.mp hmem
    exact hfresh x hx hxid
  · rw [parentLink_append hnone]
    exact h.rooted.addLeaf hnone (parentLink_isSome.mpr hp)

/-- A room moved to where its own subtree is not. -/
theorem move (h : RoomTree rooms) {k p : Uuid} (hk : k ≠ rootRoomUuid) (hkm : ∃ r ∈ rooms, r.id = k)
    (hp : ∃ r ∈ rooms, r.id = p) (hfree : ¬ Above (parentLink rooms) rootRoomUuid p k) :
    RoomTree (modifyFirst (fun r => r.id == k) (fun r => { r with parent := p }) rooms) := by
  have hid : ∀ r : Room, ({ r with parent := p } : Room).id = r.id := fun _ => rfl
  have hks : (parentLink rooms k).isSome := parentLink_isSome.mpr hkm
  refine roomTree_iff.mpr ⟨?_, ?_⟩
  · rw [map_key_modifyFirst Room.id _ _ hid]
    exact h.distinct
  · rw [parentLink_move hks]
    exact h.rooted.moveEntry hk hks (parentLink_isSome.mpr hp) hfree

/-- A room without children removed. -/
theorem remove (h : RoomTree rooms) {k : Uuid} (hk : k ≠ rootRoomUuid)
    (hleaf : ∀ u, parentLink rooms u ≠ some k) :
    RoomTree (rooms.filter fun r => r.id ≠ k) := by
  refine roomTree_iff.mpr ⟨?_, ?_⟩
  · exact h.distinct.sublist ((List.filter_sublist).map _)
  · rw [parentLink_filter]
    exact h.rooted.removeLeaf hk hleaf

end RoomTree

/-! ## The cycle walk -/

/-- On a well-formed tree the bounded walk finds every room on the way up, Root apart. -/
theorem walkMeets_of_above {rooms : List Room} {k c : Uuid} (hk : k ≠ rootRoomUuid)
    (h : Above (parentLink rooms) rootRoomUuid c k) :
    ∀ n fuel, Climbs (parentLink rooms) rootRoomUuid n c → n ≤ fuel →
      walkMeets rooms k fuel c = true := by
  induction h with
  | refl =>
    intro n fuel _ _
    cases fuel <;> simp [walkMeets]
  | @up a b c hne hab hbc ih =>
    intro n fuel hn hle
    -- The link leads to a room below Root: Root has nothing but itself above.
    have hb : b ≠ rootRoomUuid := by
      rintro rfl
      cases hbc with
      | refl => exact hk rfl
      | up hne' => exact hne' rfl
    cases hn with
    | here => exact absurd rfl hne
    | @up m _ b' _ hab' hb' =>
      obtain rfl := Option.some.inj (hab.symm.trans hab')
      obtain ⟨fuel, rfl⟩ : ∃ f, fuel = f + 1 := ⟨fuel - 1, by omega⟩
      have hpp : properParent rooms a = some b := by simp [properParent, hab, hb]
      rw [walkMeets, hpp]
      simp [ih hk m fuel hb' (by omega)]

theorem RoomTree.not_above_of_walk {rooms : List Room} (h : RoomTree rooms) {k p : Uuid}
    (hk : k ≠ rootRoomUuid) (hp : ∃ r ∈ rooms, r.id = p) (hwalk : closesCycle rooms k p = false) :
    ¬ Above (parentLink rooms) rootRoomUuid p k := by
  intro habove
  obtain ⟨n, hn⟩ := h.rooted.climbs p (parentLink_isSome.mpr hp)
  have hle : n ≤ rooms.length := by
    rw [← List.length_map (f := Room.id)]
    refine hn.le_card fun b _ hb => ?_
    obtain ⟨r, hr, rfl⟩ := parentLink_isSome.mp hb
    exact List.mem_map_of_mem hr
  have := walkMeets_of_above hk habove n rooms.length hn hle
  rw [closesCycle, this] at hwalk
  exact Bool.noConfusion hwalk

/-! ## Deleting a room -/

/-- The room list of a world. -/
abbrev World.rooms (w : World) : List Room := w.state.data.rooms

theorem rooms_reparentChild (w : World) {p c : Uuid} (hc : ∃ r ∈ w.rooms, r.id = c) :
    (reparentChild p w c).rooms =
      modifyFirst (fun r => r.id == c) (fun r => { r with parent := p }) w.rooms := by
  have hmove : w.state.data.moveRoom c p = some { w.state.data with
      rooms := modifyFirst (fun r => r.id == c) (fun r => { r with parent := p }) w.rooms } :=
    StateData.editRoom_eq_some.mpr ⟨hc, rfl⟩
  unfold reparentChild
  dsimp only [World.rooms, broadcastStateUpdate_state, mapStore_state, mapData_state]
  rw [hmove, Option.getD_some]

/-- **Re-parenting** the children of `d` to its parent keeps the tree and empties `d`. -/
theorem roomTree_reparent {d p : Uuid} (hd : d ≠ rootRoomUuid) (cs : List Uuid) :
    ∀ w : World, RoomTree w.rooms → parentLink w.rooms d = some p →
      (∀ c ∈ cs, parentLink w.rooms c = some d) → cs.Nodup →
      RoomTree (cs.foldl (reparentChild p) w).rooms ∧
        ∀ u, parentLink (cs.foldl (reparentChild p) w).rooms u = some d →
          parentLink w.rooms u = some d ∧ u ∉ cs := by
  induction cs with
  | nil => exact fun w h _ _ _ => ⟨h, fun u hu => ⟨hu, List.not_mem_nil⟩⟩
  | cons c cs ih =>
    intro w h hdp hcs hnd
    have hcd : parentLink w.rooms c = some d := hcs c List.mem_cons_self
    have hpd : p ≠ d := fun hpd => h.rooted.not_above hd hdp (.refl p) hpd
    have hc : c ≠ rootRoomUuid := by
      rintro rfl
      exact hd (Option.some.inj (hcd.symm.trans h.rooted.root_link))
    have hcne : d ≠ c := by
      rintro rfl
      exact hpd (Option.some.inj (hdp.symm.trans hcd))
    have hcm : ∃ r ∈ w.rooms, r.id = c := parentLink_isSome.mp (by simp [hcd])
    have hpm : ∃ r ∈ w.rooms, r.id = p := parentLink_isSome.mp (h.rooted.closed d p hdp)
    have hfree : ¬ Above (parentLink w.rooms) rootRoomUuid p c := fun hpc =>
      h.rooted.not_above hc hcd (.up hd hdp hpc) rfl
    have hrooms := rooms_reparentChild w (p := p) hcm
    have h' : RoomTree (reparentChild p w c).rooms := hrooms ▸ h.move hc hcm hpm hfree
    have hlink : parentLink (reparentChild p w c).rooms =
        Function.update (parentLink w.rooms) c (some p) :=
      hrooms ▸ parentLink_move (by simp [hcd]) p
    obtain ⟨hnotin, hnd'⟩ := List.nodup_cons.mp hnd
    obtain ⟨htree, hrest⟩ := ih (reparentChild p w c) h'
      (by rw [hlink, Function.update_of_ne hcne, hdp])
      (fun x hx => by
        have hxc : x ≠ c := by rintro rfl; exact hnotin hx
        rw [hlink, Function.update_of_ne hxc]
        exact hcs x (List.mem_cons_of_mem _ hx)) hnd'
    refine ⟨htree, fun u hu => ?_⟩
    obtain ⟨hu1, hu2⟩ := hrest u hu
    by_cases huc : u = c
    · subst huc
      rw [hlink, Function.update_self] at hu1
      exact absurd (Option.some.inj hu1) hpd
    · rw [hlink, Function.update_of_ne huc] at hu1
      exact ⟨hu1, by simp [huc, hu2]⟩

/-- The re-evaluation of some members leaves the rooms alone. -/
theorem rooms_reevaluateMembers (members : List UserId) (room : Uuid) (w : World) :
    (members.foldl (fun w m => w.reevaluateMemberMute m room) w).rooms = w.rooms :=
  (Touches.foldl (fun w m => touches_reevaluateMemberMute w m room) members) .rooms (by decide)

theorem roomTree_applyDeleteRoom {w : World} (h : RoomTree w.rooms) (room : Uuid) :
    RoomTree (w.applyDeleteRoom room).2.rooms := by
  unfold applyDeleteRoom
  split
  · exact h
  rename_i hroot
  -- After the re-parenting no room is left below `room`, unless `room` does not exist at all.
  have hre : RoomTree (w.reparentChildren room).rooms ∧
      ∀ u, parentLink (w.reparentChildren room).rooms u ≠ some room := by
    unfold reparentChildren StateData.roomParentAndChildren StateData.findRoom
    cases hf : w.state.data.rooms.find? (fun r => r.id == room) with
    | none =>
      refine ⟨h, fun u hu => ?_⟩
      have hsome := h.rooted.closed u room hu
      rw [parentLink, hf] at hsome
      exact Bool.noConfusion hsome
    | some r =>
      have hlink : parentLink w.rooms room = some r.parent := by
        simp only [parentLink, hf, Option.map_some]
      obtain ⟨htree, hempty⟩ := roomTree_reparent hroot
        ((w.rooms.filter fun c => c.parent == room).map Room.id) w h hlink
        (by
          intro c hc
          obtain ⟨x, hx, rfl⟩ := List.mem_map.mp hc
          obtain ⟨hx, hxp⟩ := List.mem_filter.mp hx
          rw [parentLink_eq_some h.distinct hx, eq_of_beq hxp])
        (h.distinct.sublist ((List.filter_sublist).map _))
      refine ⟨htree, fun u hu => ?_⟩
      obtain ⟨hu1, hu2⟩ := hempty u hu
      obtain ⟨x, hx, rfl, hxp⟩ := exists_of_parentLink hu1
      exact hu2 (List.mem_map_of_mem (List.mem_filter.mpr ⟨hx, by simpa using hxp⟩))
  dsimp only
  split
  · exact hre.1
  · rename_i data hd
    obtain ⟨-, -, rfl⟩ := StateData.deleteRoom_eq_some.mp hd
    rw [rooms_reevaluateMembers]
    exact hre.1.remove hroot hre.2

/-! ## The handlers -/

theorem rooms_requirePermission {w : World} {t : HandleId} {r : Uuid} {p : Permissions}
    {rest : World → World} {P : List Room → Prop} (hw : P w.rooms) (hrest : P (rest w).rooms) :
    P (w.requirePermission t r p rest).rooms := by
  unfold requirePermission
  split
  · exact hrest
  · exact hw

theorem roomTree_handleCreateRoom {w : World} (h : RoomTree w.rooms) (env : Env) (t : HandleId)
    (n : String) (p : Option RoomId) (d : Option String)
    (hfresh : ∀ r ∈ w.rooms, r.id ≠ env.newUuid) :
    RoomTree (handleCreateRoom env t n p d w).rooms := by
  unfold handleCreateRoom
  refine rooms_requirePermission h ?_
  have hop : RoomTree (w.applyCreateRoom env n (p.bind uuidFromRoomId) d).2.rooms := by
    unfold applyCreateRoom
    split
    · exact h
    · rename_i hp
      refine h.create (r := _) hfresh ?_
      -- Root exists in every tree; any other parent has just been looked up.
      have hroot : ∃ x ∈ w.rooms, x.id = rootRoomUuid :=
        parentLink_isSome.mp (by simp [h.rooted.root_link])
      cases hpar : p.bind uuidFromRoomId with
      | none => exact hroot
      | some q =>
        rw [hpar] at hp
        by_cases hq : q = rootRoomUuid
        · simpa [hq] using hroot
        · simpa [StateData.roomExists, hq] using hp
  split
  · rename_i heq; rw [heq] at hop; exact hop
  · rename_i heq; rw [heq] at hop; exact hop

theorem roomTree_handleDeleteRoom {w : World} (h : RoomTree w.rooms) (t : HandleId)
    (r : Option RoomId) : RoomTree (handleDeleteRoom t r w).rooms := by
  unfold handleDeleteRoom
  refine rooms_requirePermission h ?_
  have hop := roomTree_applyDeleteRoom h (roomIdOrRoot r)
  split
  · rename_i heq; rw [heq] at hop; exact hop
  · rename_i heq; rw [heq] at hop; exact hop

theorem roomTree_handleRenameRoom {w : World} (h : RoomTree w.rooms) (t : HandleId)
    (r : Option RoomId) (n : String) : RoomTree (handleRenameRoom t r n w).rooms := by
  unfold handleRenameRoom
  refine rooms_requirePermission h ?_
  dsimp only
  split
  · exact h
  · rename_i d hd
    obtain ⟨-, rfl⟩ := StateData.editRoom_eq_some.mp hd
    exact h.edit _ (fun _ => rfl) fun _ => rfl

theorem roomTree_handleSetRoomDescription {w : World} (h : RoomTree w.rooms) (t : HandleId)
    (r : Option RoomId) (x : String) : RoomTree (handleSetRoomDescription t r x w).rooms := by
  unfold handleSetRoomDescription
  refine rooms_requirePermission h ?_
  dsimp only
  split
  · exact h
  · rename_i d hd
    obtain ⟨-, rfl⟩ := StateData.editRoom_eq_some.mp hd
    exact h.edit _ (fun _ => rfl) fun _ => rfl

theorem roomTree_handleSetRoomAcl {w : World} (h : RoomTree w.rooms) (cfg : Config) (t : HandleId)
    (r : List UInt8) (i : Bool) (es : List RoomAclEntry) (v : Nat) :
    RoomTree (handleSetRoomAcl cfg t r i es v w).rooms := by
  unfold handleSetRoomAcl
  split
  · exact h
  rename_i room _
  refine rooms_requirePermission h ?_
  have hop : RoomTree (w.applySetRoomAcl cfg room i es v).2.rooms := by
    unfold applySetRoomAcl
    split
    · exact h
    split
    · exact h
    · rename_i d hd
      obtain ⟨-, rfl⟩ := StateData.editRoom_eq_some.mp hd
      rw [rooms_reevaluateMembers]
      exact h.edit _ (fun _ => rfl) fun _ => rfl
  unfold replyResult
  split
  · rename_i heq; rw [heq] at hop; exact hop
  · rename_i heq; rw [heq] at hop; exact hop

/-- A MoveRoom request that reaches the mutation although it damages the tree: it moves Root, or
moves a room below one that does not exist. -/
def DamagingMove (w : World) (sender : HandleId) (room newParent : Uuid) : Prop :=
  ((w.state.conn sender.user).opened ∧ (w.state.conn sender.user).authenticated) ∧
  (evaluateUserPermissions w.state w.store sender room).contains Permissions.modifyRoom ∧
  (evaluateUserPermissions w.state w.store sender newParent).contains Permissions.makeRoom ∧
  newParent ≠ room ∧ (∃ r ∈ w.rooms, r.id = room) ∧
  (room = rootRoomUuid ∨ ∀ r ∈ w.rooms, r.id ≠ newParent)

instance (w : World) (t : HandleId) (r p : Uuid) : Decidable (DamagingMove w t r p) :=
  inferInstanceAs (Decidable (_ ∧ _))

theorem roomTree_handleMoveRoom {w : World} (h : RoomTree w.rooms) {t : HandleId}
    (hc : (w.state.conn t.user).opened ∧ (w.state.conn t.user).authenticated)
    (r p : Option RoomId) (hsafe : ¬ DamagingMove w t (roomIdOrRoot r) (roomIdOrRoot p)) :
    RoomTree (handleMoveRoom t r p w).rooms := by
  unfold handleMoveRoom requirePermission
  dsimp only
  split
  · rename_i hmod
    split
    · rename_i hmake
      split
      · exact h
      rename_i hself
      split
      · exact h
      rename_i hwalk
      split
      · exact h
      rename_i d hd
      obtain ⟨hr, rfl⟩ := StateData.editRoom_eq_some.mp hd
      have hgood : roomIdOrRoot r ≠ rootRoomUuid ∧ ∃ x ∈ w.rooms, x.id = roomIdOrRoot p := by
        refine ⟨fun hroot => hsafe ⟨hc, hmod, hmake, hself, hr, .inl hroot⟩, ?_⟩
        by_contra hp
        push Not at hp
        exact hsafe ⟨hc, hmod, hmake, hself, hr, .inr hp⟩
      exact h.move hgood.1 hr hgood.2
        (h.not_above_of_walk hgood.1 hgood.2 (by simpa using hwalk))
    · exact h
  · exact h

/-! ## Runs -/

/-- The event is a CreateRoom request. -/
def Event.createsRoom : Event → Bool
  | .envelope _ (.createRoom ..) => true
  | _ => false

/-- The sender, the room and the new parent of a MoveRoom request, ids resolved. -/
def Event.moveRequest : Event → Option (HandleId × Uuid × Uuid)
  | .envelope sender (.moveRoom room newParent) =>
    some (sender, roomIdOrRoot room, roomIdOrRoot newParent)
  | _ => none

/-- The random UUID drawn for a created room is new. -/
def FreshUuid (w : World) (i : Input) : Prop :=
  i.2.createsRoom = true → ∀ r ∈ w.rooms, r.id ≠ i.1.newUuid

instance (w : World) (i : Input) : Decidable (FreshUuid w i) := inferInstanceAs (Decidable (_ → _))

/-- No MoveRoom request moves Root or names a missing parent and is carried out. -/
def TreeSafe (w : World) (i : Input) : Prop :=
  ∀ m ∈ i.2.moveRequest, ¬ DamagingMove w m.1 m.2.1 m.2.2

instance (w : World) (i : Input) : Decidable (TreeSafe w i) :=
  inferInstanceAs (Decidable (∀ m ∈ i.2.moveRequest, _))

/-- The requests that edit rooms, each with the world its handler leaves. -/
inductive RoomRequest (cfg : Config) (env : Env) (w : World) (t : HandleId) : Event → World → Prop
  | create (name : String) (parent : Option RoomId) (description : Option String) :
      RoomRequest cfg env w t (.envelope t (.createRoom name parent description))
        (handleCreateRoom env t name parent description w)
  | delete (room : Option RoomId) :
      RoomRequest cfg env w t (.envelope t (.deleteRoom room)) (handleDeleteRoom t room w)
  | rename (room : Option RoomId) (name : String) :
      RoomRequest cfg env w t (.envelope t (.renameRoom room name)) (handleRenameRoom t room name w)
  | move (room newParent : Option RoomId) :
      RoomRequest cfg env w t (.envelope t (.moveRoom room newParent))
        (handleMoveRoom t room newParent w)
  | setDescription (room : Option RoomId) (description : String) :
      RoomRequest cfg env w t (.envelope t (.setRoomDescription room description))
        (handleSetRoomDescription t room description w)
  | setAcl (room : List UInt8) (inheritAcl : Bool) (entries : List RoomAclEntry)
      (baseVersion : Nat) :
      RoomRequest cfg env w t (.envelope t (.setRoomAcl room inheritAcl entries baseVersion))
        (handleSetRoomAcl cfg t room inheritAcl entries baseVersion w)

/-- **What a step does to the rooms**: nothing, unless it handles a request that edits them. -/
theorem rooms_step_cases (cfg : Config) (env : Env) (w : World) (e : Event) :
    (step cfg env w e).rooms = w.rooms ∨
      ∃ t, ((w.state.conn t.user).opened ∧ (w.state.conn t.user).authenticated) ∧
        RoomRequest cfg env w t e (step cfg env w e) := by
  by_cases hf : Field.rooms ∈ e.footprint
  swap
  · exact .inl (touches_step cfg env w e .rooms hf)
  cases e with
  | envelope t payload =>
    by_cases hc : (w.state.conn t.user).opened ∧ (w.state.conn t.user).authenticated
    · refine .inr ⟨t, hc, ?_⟩
      cases payload
      case createRoom | deleteRoom | renameRoom | moveRoom | setRoomDescription | setRoomAcl =>
        dsimp only [step, handleEnvelope]
        rw [if_pos hc.1, if_pos hc.2]
        constructor
      all_goals
        dsimp only [Event.footprint, footprint] at hf
        exact absurd hf (by decide)
    · refine .inl ?_
      cases payload
      case createRoom | deleteRoom | renameRoom | moveRoom | setRoomDescription | setRoomAcl =>
        dsimp only [step, handleEnvelope]
        split
        · rename_i hopen
          rw [if_neg fun hauth => hc ⟨hopen, hauth⟩]
        · rfl
      all_goals
        dsimp only [Event.footprint, footprint] at hf
        exact absurd hf (by decide)
  | connect | readTimeout | datagram | connectionLost | sweep =>
    dsimp only [Event.footprint] at hf
    exact absurd hf (by decide)

/-- **One step** that is safe and draws a fresh UUID keeps the room tree. -/
theorem roomTree_step (cfg : Config) {w : World} {i : Input} (hfresh : FreshUuid w i)
    (hsafe : TreeSafe w i) (h : RoomTree w.rooms) : RoomTree (step cfg i.1 w i.2).rooms := by
  obtain ⟨env, e⟩ := i
  rcases rooms_step_cases cfg env w e with hrooms | ⟨t, hc, hreq⟩
  · exact hrooms.symm ▸ h
  generalize step cfg env w e = w' at hreq
  cases hreq with
  | create name parent description =>
    exact roomTree_handleCreateRoom h env t name parent description (hfresh rfl)
  | delete room => exact roomTree_handleDeleteRoom h t room
  | rename room name => exact roomTree_handleRenameRoom h t room name
  | move room newParent => exact roomTree_handleMoveRoom h hc room newParent (hsafe _ rfl)
  | setDescription room description => exact roomTree_handleSetRoomDescription h t room description
  | setAcl room inheritAcl entries baseVersion =>
    exact roomTree_handleSetRoomAcl h cfg t room inheritAcl entries baseVersion

/-- The walk never meets Root below the top level. -/
theorem walkMeets_root (rooms : List Room) :
    ∀ fuel c, c ≠ rootRoomUuid → walkMeets rooms rootRoomUuid fuel c = false := by
  intro fuel
  induction fuel with
  | zero => intro c hc; simpa [walkMeets] using hc
  | succ fuel ih =>
    intro c hc
    rw [walkMeets]
    cases hpp : properParent rooms c with
    | none => simpa using hc
    | some b =>
      have hb : b ≠ rootRoomUuid := by
        have := Option.mem_filter_iff.mp hpp
        simpa using this.2
      simp [hc, ih b hb]

/-- A damaging move is carried out. -/
theorem rooms_of_damagingMove {w : World} {t : HandleId} {r p : Option RoomId}
    (hd : DamagingMove w t (roomIdOrRoot r) (roomIdOrRoot p)) :
    (handleMoveRoom t r p w).rooms = modifyFirst (fun x => x.id == roomIdOrRoot r)
      (fun x => { x with parent := roomIdOrRoot p }) w.rooms := by
  obtain ⟨-, hmod, hmake, hself, hr, hbad⟩ := hd
  have hwalk : closesCycle w.rooms (roomIdOrRoot r) (roomIdOrRoot p) = false := by
    rcases hbad with hroot | hmissing
    · rw [hroot] at hself ⊢
      exact walkMeets_root _ _ _ hself
    · have hnone : parentLink w.rooms (roomIdOrRoot p) = none := by
        rw [← Option.not_isSome_iff_eq_none, parentLink_isSome]
        rintro ⟨x, hx, hxid⟩
        exact hmissing x hx hxid
      unfold closesCycle
      cases w.rooms.length <;> simp [walkMeets, properParent, hnone, hself]
  have hmove : w.state.data.moveRoom (roomIdOrRoot r) (roomIdOrRoot p) = some { w.state.data with
      rooms := modifyFirst (fun x => x.id == roomIdOrRoot r)
        (fun x => { x with parent := roomIdOrRoot p }) w.rooms } :=
    StateData.editRoom_eq_some.mpr ⟨hr, rfl⟩
  unfold handleMoveRoom requirePermission
  dsimp only
  rw [if_pos hmod, if_pos hmake, if_neg hself, hwalk, hmove]
  rfl

theorem not_roomTree_of_damagingMove {w : World} {t : HandleId} {r p : Uuid}
    (hd : DamagingMove w t r p) : ¬ RoomTree
      (modifyFirst (fun x => x.id == r) (fun x => { x with parent := p }) w.rooms) := by
  obtain ⟨-, -, -, hself, hr, hbad⟩ := hd
  intro h
  have hlink := parentLink_move (parentLink_isSome.mpr hr) p
  rcases hbad with rfl | hmissing
  · have hroot := h.rooted.root_link
    rw [hlink, Function.update_self] at hroot
    exact hself (Option.some.inj hroot)
  · have hp := h.rooted.closed r p (by rw [hlink, Function.update_self])
    rw [hlink, Function.update_of_ne hself] at hp
    obtain ⟨x, hx, hxid⟩ := parentLink_isSome.mp hp
    exact hmissing x hx hxid

theorem roomTree_broken_step (cfg : Config) {w : World} {i : Input} (hdamage : ¬ TreeSafe w i) :
    ¬ RoomTree (step cfg i.1 w i.2).rooms := by
  obtain ⟨env, e⟩ := i
  unfold TreeSafe at hdamage
  push Not at hdamage
  obtain ⟨m, hm, hd⟩ := hdamage
  unfold Event.moveRequest at hm
  split at hm
  · rename_i t r p he
    obtain rfl := Option.some.inj hm
    obtain rfl : e = .envelope t (.moveRoom r p) := he
    have hstep : step cfg env w (.envelope t (.moveRoom r p)) = handleMoveRoom t r p w := by
      simp [step, handleEnvelope, handleAuthenticated, hd.1.1, hd.1.2]
    rw [hstep, rooms_of_damagingMove hd]
    exact not_roomTree_of_damagingMove hd
  · exact absurd hm (Option.not_mem_none m)

/-- **The room tree over whole runs.** From the initial state, with fresh UUIDs, the room list is a
tree in every state of a run exactly when no request of the run is a damaging move. -/
theorem roomTree_run_iff (cfg : Config) (store : Persistence) (inputs : List Input)
    (hfresh : Always (stepInput cfg) FreshUuid (World.init store) inputs) :
    (∀ pre, pre <+: inputs → RoomTree (run cfg (World.init store) pre).rooms) ↔
      Always (stepInput cfg) TreeSafe (World.init store) inputs := by
  constructor
  · exact Always.of_invariant (I := fun w : World => RoomTree w.rooms)
      fun w i _ hdamage => roomTree_broken_step cfg hdamage
  · intro hsafe pre hpre
    exact (hfresh.and hsafe).invariant_all (I := fun w : World => RoomTree w.rooms)
      (fun w i hc h => roomTree_step cfg hc.1 hc.2 h) roomTree_new hpre

/-- A login, two rooms, and the first moved below the second. -/
def movedRoomRun : List Input :=
  sampleLogin 1 (Bytes.rep 32 9) "ann" ++
    [sampleMsg 1 (.createRoom "lobby" none none),
      ({ sampleEnv with newUuid := Bytes.rep 16 8 },
        .envelope (primary 1) (.createRoom "attic" none none)),
      sampleMsg 1 (.moveRoom (some (roomIdFromUuid (Bytes.rep 16 7)))
        (some (roomIdFromUuid (Bytes.rep 16 8))))]

theorem roomTree_movedRoomRun :
    RoomTree (run sampleConfig (World.init sampleStore) movedRoomRun).rooms :=
  (roomTree_run_iff sampleConfig sampleStore movedRoomRun (by decide +kernel)).mpr
    (by decide +kernel) movedRoomRun (List.prefix_refl _)

/-- A login, a room, and a MoveRoom with no room id: it moves Root below the room. -/
def movedRootRun : List Input :=
  sampleLogin 1 (Bytes.rep 32 9) "ann" ++
    [sampleMsg 1 (.createRoom "lobby" none none),
      sampleMsg 1 (.moveRoom none (some (roomIdFromUuid (Bytes.rep 16 7))))]

/-- With fresh UUIDs the run ends in a room list that is no tree. -/
theorem not_roomTree_movedRootRun :
    Always (stepInput sampleConfig) FreshUuid (World.init sampleStore) movedRootRun ∧
      ¬ RoomTree (run sampleConfig (World.init sampleStore) movedRootRun).rooms := by
  refine ⟨by decide +kernel, fun h => ?_⟩
  have hroot := h.rooted.root_link
  have hmoved : parentLink (run sampleConfig (World.init sampleStore) movedRootRun).rooms
      rootRoomUuid = some (Bytes.rep 16 7) := by decide +kernel
  rw [hmoved] at hroot
  exact absurd hroot (by decide)

end Rumble.Server
