import Rumble.Client.OwnRoom
import Rumble.Client.ReplicaRuns
import Rumble.Client.RoomChain
import Rumble.Server.Restart

/-!
# Both sides compute the same permissions

The client computes the permissions of its own user from the lists it shows, the server from its
room list, the stored ACLs, the groups of the connection and the verified username. They differ in
three things: the client takes an ACL without entries for none, it has the displayed name for the
verified one, and it cannot see a controller. `permissions_run` says that they agree otherwise.
-/

namespace Rumble.Client

open Rumble.Lib Rumble.Lib.Replication Rumble.Lib.Transition Rumble.Server
open Rumble.Server.ServerState (Settled)

/-! ## One walk for two lists of groups -/

section Walk

variable {gs gs' : List String} {base : Permissions}

/-- Two ACLs that do to `gs` and `gs'` the same. -/
def ActsSame (gs gs' : List String) (base : Permissions) (a b : Option RoomAclData) : Prop :=
  ∀ isTarget granted, applyRoomAcl gs base isTarget granted a =
    applyRoomAcl gs' base isTarget granted b

theorem walkRoomChain_alike {chain chain' : List (Uuid × Option RoomAclData)}
    (hc : List.Forall₂ (fun x y => ActsSame gs gs' base x.2 y.2) chain chain')
    (granted : Permissions) :
    walkRoomChain gs base granted chain = walkRoomChain gs' base granted chain' := by
  induction hc generalizing granted with
  | nil => rfl
  | @cons x y rest rest' hxy hrest ih =>
    have hempty : rest.isEmpty = rest'.isEmpty := by
      cases hrest with
      | nil => rfl
      | cons => rfl
    rw [walkRoomChain, walkRoomChain, hempty, hxy, ih]

theorem effectivePermissions_alike {f f' : String → Option Permissions}
    {chain chain' : List (Uuid × Option RoomAclData)} {superuser : Bool}
    (hbase : basePermissions gs f = basePermissions gs' f')
    (hc : List.Forall₂ (fun x y => ActsSame gs gs' (basePermissions gs f) x.2 y.2) chain chain') :
    effectivePermissions gs f chain superuser = effectivePermissions gs' f' chain' superuser := by
  unfold effectivePermissions
  dsimp only
  rw [← hbase, walkRoomChain_alike hc, hc.length_eq]

/-- An entry looks at the groups for its own name only. -/
theorem actsSame_entries {inheritAcl : Bool} {entries : List AclEntry}
    (hg : ∀ e ∈ entries, gs.contains e.group = gs'.contains e.group) :
    ActsSame gs gs' base (some ⟨inheritAcl, entries⟩) (some ⟨inheritAcl, entries⟩) := by
  intro isTarget granted
  unfold applyRoomAcl
  dsimp only
  generalize (if inheritAcl = true then granted else base) = start
  induction entries generalizing start with
  | nil => rfl
  | cons e entries ih =>
    obtain ⟨he, hg⟩ := List.forall_mem_cons.mp hg
    rw [List.foldl_cons, List.foldl_cons, ih hg]
    unfold applyAclEntry
    rw [he]

/-- An ACL that inherits and has no entries is none. -/
theorem actsSame_none (acl : Option RoomAclData)
    (ha : ∀ a ∈ acl, a.inheritAcl = true ∧ a.entries = []) : ActsSame gs gs' base acl none := by
  intro isTarget granted
  cases acl with
  | none => rfl
  | some a =>
    obtain ⟨hinherit, hentries⟩ := ha a rfl
    unfold applyRoomAcl
    dsimp only
    rw [hinherit, hentries]
    rfl

/-- A group that gives nothing adds nothing. -/
theorem basePermissions_pushGroup {f : String → Option Permissions} {name : String}
    (hname : f name = none) : basePermissions (pushGroup gs name) f = basePermissions gs f := by
  unfold pushGroup
  split
  · rfl
  · unfold basePermissions
    rw [List.foldl_append, List.foldl_cons, hname]
    rfl

theorem contains_pushGroup_of_ne {name group : String} (hne : group ≠ name) :
    (pushGroup gs name).contains group = gs.contains group := by
  unfold pushGroup
  split
  · rfl
  · simp [hne]

end Walk

/-! ## The room chain of the client -/

section Chain

variable {rooms : List Room}

theorem parentLink_bareRoom (rooms : List Room) :
    parentLink (rooms.map bareRoom) = parentLink rooms := by
  funext u
  unfold parentLink
  rw [List.find?_map, Option.map_map]
  rfl

theorem walkVisited_bareRoom (fuel : Nat) (visited : List Uuid) (current : Uuid) :
    walkVisited (rooms.map bareRoom) fuel visited current =
      walkVisited rooms fuel visited current := by
  induction fuel generalizing visited current with
  | zero => rfl
  | succ fuel ih =>
    rw [walkVisited, walkVisited, parentLink_bareRoom]
    split
    · rfl
    split
    · rfl
    split
    · rw [ih]
    · rfl

theorem roomAcl_bareRoom (u : Uuid) : roomAcl (rooms.map bareRoom) u = roomAcl rooms u := by
  unfold roomAcl
  rw [List.find?_map, Option.map_map]
  rfl

/-- The permissions of a room are not looked at. -/
theorem buildRoomChain_bareRoom (target : Uuid) :
    buildRoomChain (rooms.map bareRoom) target = buildRoomChain rooms target := by
  unfold buildRoomChain
  rw [walkVisited_bareRoom, List.length_map]
  exact List.map_congr_left fun u _ => by rw [roomAcl_bareRoom]

end Chain

/-! ## The two chains -/

section Chains

variable {rooms : List Room} {w : World}

/-- The walk stays in the room list. -/
theorem listed_of_walkUp (htree : Server.RoomTree rooms) {fuel : Nat} {current : Uuid}
    (hcurrent : (parentLink rooms current).isSome = true) {u : Uuid}
    (hu : u ∈ walkUp rooms fuel current) : (parentLink rooms u).isSome = true := by
  induction fuel generalizing current with
  | zero => exact absurd hu List.not_mem_nil
  | succ fuel ih =>
    rw [walkUp] at hu
    rcases List.mem_cons.mp hu with rfl | hu
    · exact hcurrent
    split at hu
    · exact absurd hu List.not_mem_nil
    split at hu
    · exact ih (htree.rooted.closed _ _ ‹_›) hu
    · exact absurd hu List.not_mem_nil

theorem listed_of_roomPath (htree : Server.RoomTree rooms) {target u : Uuid}
    (ht : ∃ r ∈ rooms, r.id = target) (hu : u ∈ roomPath rooms target) :
    ∃ r ∈ rooms, r.id = u := by
  rw [← parentLink_isSome] at ht ⊢
  have hwalk : ∀ v ∈ (walkUp rooms (rooms.length + 2) target).reverse,
      (parentLink rooms v).isSome = true :=
    fun v hv => listed_of_walkUp htree ht (List.mem_reverse.mp hv)
  have hmem := (List.destutter_sublist _ _).subset hu
  split at hmem
  · exact hwalk u hmem
  · rcases List.mem_cons.mp hmem with rfl | hmem
    · exact Option.isSome_iff_exists.mpr ⟨_, htree.rooted.root_link⟩
    · exact hwalk u hmem

/-- What the store has for a listed room. -/
theorem acl_of_synced {d : StateData} {p : Persistence} (hs : Synced d p) {u : Uuid} {r : Room}
    (hr : d.findRoom u = some r) :
    r.inheritAcl = ((p.getRoomAcl u).map PersistedRoomAcl.inheritAcl).getD true ∧
      r.acls = ((p.getRoomAcl u).map PersistedRoomAcl.entries).getD [] := by
  rw [hs, Persistence.loadedRoom] at hr
  obtain ⟨x, hx, rfl⟩ := Option.map_eq_some_iff.mp hr
  unfold Persistence.withAcl
  split at hx
  · rename_i hroot
    obtain rfl := Option.some.inj hx
    rw [hroot]
    exact ⟨rfl, rfl⟩
  · obtain ⟨record, -, rfl⟩ := Option.map_eq_some_iff.mp hx
    exact ⟨rfl, rfl⟩

/-- No ACL is empty and cuts the room off. -/
def NoBareCut (rooms : List Room) : Prop := ∀ r ∈ rooms, r.inheritAcl = true ∨ r.acls ≠ []

theorem roomAcl_of_findRoom {d : StateData} (hd : d.DistinctIds) {u : Uuid} {r : Room}
    (hr : d.findRoom u = some r) : roomAcl d.rooms u =
      if r.acls = [] then none else some ⟨r.inheritAcl, r.acls.map AclEntry.ofRoomEntry⟩ := by
  have honly : ∀ x ∈ d.rooms, x.id = u → x = r := fun x hx hxu =>
    List.inj_on_of_nodup_map hd hx (List.mem_of_find?_eq_some hr)
      (hxu.trans (id_of_findRoom hr).symm)
  unfold roomAcl
  cases hfind : d.rooms.find? fun x => x.id == u && !x.acls.isEmpty with
  | none =>
    have hempty := List.find?_eq_none.mp hfind r (List.mem_of_find?_eq_some hr)
    rw [if_pos (by simpa [id_of_findRoom hr] using hempty)]
    rfl
  | some x =>
    have hx := List.find?_some hfind
    rw [Bool.and_eq_true, beq_iff_eq] at hx
    obtain rfl := honly x (List.mem_of_find?_eq_some hfind) hx.1
    rw [if_neg (by simpa using hx.2)]
    rfl

/-- The stored ACL and the shown one do the same to groups that the entries do not tell apart. -/
theorem actsSame_of_synced {d : StateData} {p : Persistence} (hs : Synced d p)
    (hd : d.DistinctIds) (hcut : NoBareCut d.rooms) {u : Uuid} {r : Room}
    (hr : d.findRoom u = some r) {gs gs' : List String} {base : Permissions}
    (hg : ∀ e ∈ r.acls, gs.contains e.group = gs'.contains e.group) :
    ActsSame gs gs' base ((p.getRoomAcl u).map decodeAcl) (roomAcl d.rooms u) := by
  obtain ⟨hinherit, hacls⟩ := acl_of_synced hs hr
  rw [roomAcl_of_findRoom hd hr]
  cases hstored : p.getRoomAcl u with
  | none =>
    rw [hstored] at hacls
    have hacls' : r.acls = [] := hacls
    rw [if_pos hacls']
    exact actsSame_none none fun a ha => by cases ha
  | some acl =>
    rw [hstored] at hinherit hacls
    have hinherit' : r.inheritAcl = acl.inheritAcl := hinherit
    have hacls' : r.acls = acl.entries := hacls
    rw [hinherit', hacls']
    split
    · rename_i hempty
      refine actsSame_none _ fun a ha => ?_
      obtain rfl := Option.some.inj ha
      have hin := (hcut r (List.mem_of_find?_eq_some hr)).resolve_right
        (not_not.mpr (hacls'.trans hempty))
      exact ⟨hinherit'.symm.trans hin, by rw [decodeAcl, hempty]; rfl⟩
    · refine actsSame_entries fun e he => ?_
      obtain ⟨x, hx, rfl⟩ := List.mem_map.mp he
      exact hg x (hacls' ▸ hx)

/-- **The chains of both sides** do the same to groups that no ACL tells apart. -/
theorem chains_alike (hw : RoomsSynced w) (htree : Server.RoomTree w.rooms)
    (hcut : NoBareCut w.rooms) {shown : List Room} (hshown : shown.map bareRoom = w.rooms)
    {gs gs' : List String} {base : Permissions}
    (hg : ∀ r ∈ w.rooms, ∀ e ∈ r.acls, gs.contains e.group = gs'.contains e.group) {room : Room}
    (hr : room ∈ w.rooms) : List.Forall₂ (fun x y => ActsSame gs gs' base x.2 y.2)
      (buildRoomChainOwned w.rooms w.store room.id) (buildRoomChain shown room.id) := by
  obtain ⟨n, hclimbs⟩ := htree.reaches room hr
  have hwalk : walkVisited w.rooms (w.rooms.length + 2) [] room.id =
      walkUp w.rooms (w.rooms.length + 2) room.id :=
    walkVisited_eq hclimbs fun v hv => absurd hv List.not_mem_nil
  rw [← buildRoomChain_bareRoom, hshown, buildRoomChain, hwalk, buildRoomChainOwned]
  refine List.forall₂_map_left_iff.mpr (List.forall₂_map_right_iff.mpr
    (List.forall₂_same.mpr fun u hu => ?_))
  obtain ⟨r, hr, rfl⟩ := listed_of_roomPath htree ⟨room, hr, rfl⟩ hu
  have hfind : w.state.data.findRoom r.id = some r := hw.distinct.mem_iff.mp hr
  exact actsSame_of_synced hw.synced hw.distinct hcut hfind (hg r hr)

end Chains

/-! ## The own user -/

section Own

variable {w : World} {c : UserId} {s : ClientState}

/-- The displayed name is the verified one, or it is a name of no group and of no ACL entry. -/
def PlainName (w : World) (c : UserId) : Prop :=
  let identity := (w.state.conn c).identity
  identity.verifiedUsername = some identity.displayName ∨
    identity.verifiedUsername = none ∧ w.store.getGroup identity.displayName = none ∧
      ∀ r ∈ w.rooms, ∀ e ∈ r.acls, e.group ≠ identity.displayName

/-- The groups the client has for itself. -/
def shownGroups (i : Identity) : List String := userGroupList i.groups (some i.displayName)

theorem groups_of_plainName (hp : PlainName w c) :
    let i := (w.state.conn c).identity
    basePermissions (userGroupList i.groups i.verifiedUsername) w.store.groupPerms =
        basePermissions (shownGroups i) w.store.groupPerms ∧
      ∀ r ∈ w.rooms, ∀ e ∈ r.acls,
        (userGroupList i.groups i.verifiedUsername).contains e.group =
          (shownGroups i).contains e.group := by
  dsimp only
  unfold shownGroups
  rcases hp with hv | ⟨hv, hgroup, hacls⟩
  · rw [hv]
    exact ⟨rfl, fun _ _ _ _ => rfl⟩
  · have hpush : ∀ l name, userGroupList l (some name) = pushGroup (userGroupList l none) name :=
      fun _ _ => rfl
    have hperms : w.store.groupPerms (w.state.conn c).identity.displayName = none :=
      congrArg (Option.map Permissions.fromBitsTruncate) hgroup
    rw [hv, hpush]
    exact ⟨(basePermissions_pushGroup hperms).symm,
      fun r hr e he => (contains_pushGroup_of_ne (hacls r hr e he)).symm⟩

/-- A connected client that is no controller is shown as its connection says. -/
theorem userView_own (hclient : w.state.getClient c = true)
    (hc : (w.state.handle (primary c)).isController = false)
    (hroom : (w.state.data.getUserRoom c).isSome = true) : ∃ user, w.state.userView c = some user ∧
      user.username = (w.state.conn c).identity.displayName ∧
      user.groups = (w.state.conn c).identity.groups ∧
      user.isElevated = (w.state.handle (primary c)).isSuperuser := by
  obtain ⟨room, hroom⟩ := Option.isSome_iff_exists.mp hroom
  unfold ServerState.userView ServerState.rosterEntry ServerState.getMember
  rw [hroom, Option.bind_some]
  dsimp only
  rw [getClient_iff.mp hclient]
  unfold ServerState.memberIsController ServerState.memberIdentity ServerState.memberIsSuperuser
  dsimp only
  rw [hc]
  exact ⟨_, rfl, rfl, rfl, rfl⟩

/-- The client has the definitions of the groups. -/
theorem groupPermissions_of_matches (hs : s.roster.Matches w) :
    s.groupPermissions = w.store.groupPerms := by
  funext name
  unfold ClientState.groupPermissions Persistence.groupPerms
  have hfind : s.groupDefinitions.reverse.find? (fun g => g.name == name) =
      groupView w.store name := (find?_reverse_key Group.name hs.names name).trans (hs.groups name)
  rw [hfind, groupView, Option.map_map]
  rfl

theorem get_foldl_set {V : Type} (f : Uuid → V) (l : List Room) (t : Table Uuid V) (u : Uuid) :
    (l.foldl (fun t r => t.set r.id (f r.id)) t).get u =
      if u ∈ l.map Room.id then some (f u) else t.get u := by
  induction l generalizing t with
  | nil => rfl
  | cons r l ih =>
    rw [List.foldl_cons, ih, Table.get_set, List.map_cons]
    by_cases hu : u ∈ l.map Room.id
    · rw [if_pos hu, if_pos (List.mem_cons_of_mem _ hu)]
    · rw [if_neg hu]
      by_cases hr : u = r.id
      · rw [if_pos hr, if_pos (List.mem_cons.mpr (.inl hr)), hr]
      · rw [if_neg hr, if_neg (by simp [hr, hu])]

/-- What a recomputation leaves for a listed room. -/
theorem perRoomPermissions_recompute (hme : s.myUserId = some c) {u : Uuid}
    (hu : u ∈ s.rooms.map Room.id) :
    s.recomputeEffectivePermissions.perRoomPermissions.get u = some (s.roomPermissions c u) := by
  unfold ClientState.recomputeEffectivePermissions
  rw [hme]
  unfold ClientState.adoptRoomPermissions
  dsimp only
  split
  · rw [get_foldl_set, if_pos hu]
  · rw [get_foldl_set, if_pos hu]

/-- **In step, both sides compute the same.** -/
theorem roomPermissions_eq (hs : s.roster.Matches w) (hw : RoomsSynced w)
    (htree : Server.RoomTree w.rooms) (hcut : NoBareCut w.rooms)
    (hclient : w.state.getClient c = true) (hc : (w.state.handle (primary c)).isController = false)
    (hplaced : (w.state.data.getUserRoom c).isSome = true) (hp : PlainName w c) {room : Room}
    (hr : room ∈ w.rooms) :
    s.roomPermissions c room.id = evaluateUserPermissions w.state w.store (primary c) room.id := by
  obtain ⟨user, huser, hname, hgroups, helevated⟩ := userView_own hclient hc hplaced
  have hfind : ClientState.findUser s.users c = some user := (hs.users c).trans huser
  obtain ⟨hbase, hcontains⟩ := groups_of_plainName hp
  unfold ClientState.roomPermissions ClientState.userGroups ClientState.isElevated
  rw [hfind, groupPermissions_of_matches hs]
  dsimp only
  rw [hname, hgroups, Option.map_some, Option.getD_some, helevated]
  exact (effectivePermissions_alike hbase
    (chains_alike hw htree hcut hs.rooms hcontains hr)).symm

end Own

/-! ## Runs -/

/-- A client that has a full state knows who it is. -/
theorem myUserId_shown (k : Handshake) (c : UserId) (w : World) :
    ∀ x ∈ shown k c w, x.state.myUserId = some c := by
  have happly : ∀ (x : Replica) (e : RoomEvent), x.state.myUserId = some c →
      (x.apply e).state.myUserId = some c :=
    fun x e hx => (ClientState.myUserId_applyRoom x.state e).trans hx
  unfold shown
  refine List.foldlRecOn (motive := fun r : Option Replica => ∀ x ∈ r, x.state.myUserId = some c) _
    (receive k c) (fun x hx => by cases hx) fun r hr o _ => ?_
  unfold receive
  split
  · split
    · split
      · intro x hx
        obtain rfl := Option.some.inj hx
        exact happly _ _ (happly _ _ (ClientState.recompute_myUserId _))
      · intro x hx
        obtain rfl := Option.some.inj hx
        exact happly _ _ (hr _ rfl)
    · exact hr
  · split
    · intro x hx
      obtain ⟨y, rfl, rfl⟩ := Option.map_eq_some_iff.mp hx
      exact List.foldlRecOn (motive := fun z : Replica => z.state.myUserId = some c) _ Replica.apply
        (hr y rfl) fun z hz e _ => happly z e hz
    · exact hr
  · exact hr

/-- **Client and server agree on permissions.** After any run of followable events whose rooms
survive a restart, on a room tree without an empty ACL that cuts its room off, a client whose
displayed name is its verified one (or names nothing) computes for every room the permissions that
the server evaluates for it. -/
theorem permissions_run (cfg : Config) (store : Persistence) (k : Handshake) {inputs : List Input}
    (ho : Always (stepInput cfg) (fun w i => Followable False w i.2) (World.boot store) inputs)
    (hfresh : Always (stepInput cfg) FreshRoomId (World.boot store) inputs)
    (hdurable : Always (stepInput cfg) Durable (World.boot store) inputs) {c : UserId} {w : World}
    (hw : run cfg (World.boot store) inputs = w) (htree : Server.RoomTree w.rooms)
    (hcut : NoBareCut w.rooms) (hclient : w.state.getClient c = true)
    (hauth : (w.state.conn c).authenticated = true)
    (hc : (w.state.handle (primary c)).isController = false) (hp : PlainName w c) :
    ∃ x ∈ shown k c w, ∀ room ∈ w.rooms,
      x.state.recomputeEffectivePermissions.perRoomPermissions.get room.id =
        some (evaluateUserPermissions w.state w.store (primary c) room.id) := by
  subst hw
  have htracked := tracked_run (h := fun _ => k) cfg store ho
  have hplaced := htracked.holds.placed c hclient hauth nofun
  obtain ⟨x, hx, hmatch, -⟩ := htracked.agrees c ⟨hclient, hauth, hplaced⟩
  have hsynced : RoomsSynced (run cfg (World.boot store) inputs) :=
    (hfresh.and hdurable).invariant (I := RoomsSynced) (fun w i hi h =>
      have hnext := syncs_step cfg h hi.1
      ⟨hnext.1, hnext.2.mpr hi.2⟩) (roomsSynced_boot store)
  refine ⟨x, hx, fun room hroom => ?_⟩
  have hlisted : room.id ∈ x.state.rooms.map Room.id := by
    have hids : (x.state.rooms.map bareRoom).map Room.id = x.state.rooms.map Room.id :=
      List.map_map
    have hsame : x.state.rooms.map bareRoom = (run cfg (World.boot store) inputs).rooms :=
      hmatch.rooms
    rw [← hids, hsame]
    exact List.mem_map_of_mem hroom
  rw [perRoomPermissions_recompute (myUserId_shown k c _ x hx) hlisted]
  refine congrArg some (roomPermissions_eq hmatch hsynced htree hcut hclient hc ?_ hp hroom)
  rw [hc] at hplaced
  exact hplaced.resolve_left Bool.false_ne_true

/-- The second user, whose name is nobody's, sees what it may do in the new room. -/
theorem permissions_run_sample : ∃ x ∈ shown sampleHandshake 2
      (run sampleConfig (World.boot sampleAdminStore) sampleSession),
    ∀ room ∈ (run sampleConfig (World.boot sampleAdminStore) sampleSession).rooms,
      x.state.recomputeEffectivePermissions.perRoomPermissions.get room.id =
        some (evaluateUserPermissions
          (run sampleConfig (World.boot sampleAdminStore) sampleSession).state
          (run sampleConfig (World.boot sampleAdminStore) sampleSession).store (primary 2)
          room.id) := by
  have hrooms : (run sampleConfig (World.boot sampleAdminStore) sampleSession).rooms =
      StateData.new.rooms ++ [⟨Bytes.rep 16 7, "Lab", rootRoomUuid, none, true, [], 0⟩] := by
    decide +kernel
  have ho : Always (stepInput sampleConfig) (fun w i => Followable False w i.2)
      (World.boot sampleAdminStore) sampleSession := by decide +kernel
  refine permissions_run sampleConfig sampleAdminStore sampleHandshake ho (by decide +kernel)
    (by decide +kernel) rfl ?_ ?_ (by decide +kernel) (by decide +kernel) (by decide +kernel) ?_
  · rw [hrooms]
    refine roomTree_new.create ?_ ?_
    · decide
    · exact ⟨StateData.rootRoom, List.mem_singleton.mpr rfl, rfl⟩
  · rw [NoBareCut, hrooms]
    decide
  · refine .inr ⟨by decide +kernel, by decide +kernel, ?_⟩
    rw [hrooms]
    decide

end Rumble.Client
