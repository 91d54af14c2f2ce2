import Rumble.Client.ReplicaSteps

/-!
# The server's operations, followed

Every operation of the server keeps the replicas: teardown and moderation, rooms, flags, groups and
participants. Each lemma states what the operation does to the views and matches it with what the
update it broadcasts does to a list.
-/

namespace Rumble.Client

open Rumble.Lib Rumble.Lib.Replication Rumble.Server Rumble.Server.World
open Rumble.Server.ServerState (SameEntry Settled Removal)

variable {strict : Prop} {h : UserId → Handshake} {g : Option UserId} {w w₁ : World} {u : UserId}

/-! ## Teardown -/

theorem attending_removal (hr : Removal w.state w₁.state u) {c : UserId} (hc : Attending w₁ c) :
    Attending w c := by
  obtain ⟨hclient, hauth, hplace⟩ := hc
  obtain ⟨hne, hclient⟩ := hr.getClient hclient
  rw [hr.handle, hr.data, StateData.getUserRoom_removeUserMembership, if_neg hne] at hplace
  exact ⟨hclient, (hr.conn c).1 ▸ hauth, hplace⟩

/-- A departure that is announced. -/
theorem keeps_userLeft (hlog : Hushed strict h w w₁) (hu : w.state.Settled g → g ≠ some u)
    (hr : Removal w.state w₁.state u) (hgroups : w₁.store.groups = w.store.groups) :
    Keeps strict h g g w (w₁.broadcastStateUpdate (.userLeft (some u))) :=
  .announce _ hlog trivial (fun hw => hw.remove (hu hw) hr) (fun _ _ => attending_removal hr)
    fun _ _ hm => hm.userLeft u hr.rooms hgroups hr.userView

/-- The departure of someone who was not shown. -/
theorem keeps_removal (hlog : Hushed strict h w w₁) (hu : w.state.Settled g → g ≠ some u)
    (hr : Removal w.state w₁.state u) (hgroups : w₁.store.groups = w.store.groups)
    (hview : w.state.Settled g → w.state.userView u = none) : Keeps strict h g g w w₁ := by
  refine Feed.Follows.of_holds fun hw => Feed.Follows.hushed (fun hw => hw.remove (hu hw) hr) hlog
    (fun c => attending_removal hr) ?_
  rintro c r - ⟨x, hx, hmatch, hsync⟩
  refine ⟨x, hx, ?_, hsync⟩
  refine hmatch.withUsers hr.rooms hgroups hmatch.ids fun v => ?_
  refine (hmatch.users v).trans ?_
  rw [hr.userView]
  by_cases hv : v = u
  · rw [if_pos hv, hv]
    exact hview hw
  · rw [if_neg hv]

theorem keeps_cleanupParticipant (hu : w.state.Settled g → g ≠ some u) :
    Keeps strict h g g w (w.cleanupParticipant u) := by
  unfold cleanupParticipant
  split
  · have hremoval : Removal w.state ((w.mapState fun s => (s.removeClient u).2).mapData
        (·.removeUserMembership u)).state u :=
      ⟨Table.get_del _ _, rfl, rfl, fun _ => ⟨rfl, rfl, rfl⟩, fun _ _ => rfl, rfl⟩
    exact keeps_userLeft (.of_log rfl) hu hremoval rfl
  · exact .refl

theorem keeps_cleanupParticipants (w : World) (u : UserId) (b : Bool) :
    Keeps strict h g g w (w.cleanupParticipants u b) := by
  unfold cleanupParticipants
  split
  swap
  · exact .refl
  -- A participant of the list is one still when its turn comes, or it is gone.
  refine Feed.Follows.foldl (P := fun w v => ∀ m, w.state.members.get v = some m → m ≠ .client) _
    ?_ ?_ ?_
  · intro w b b' hP m hm
    rw [members_cleanupParticipant] at hm
    split at hm
    · cases hm
    · exact hP m hm
  · intro w b hP
    refine keeps_cleanupParticipant fun hw hg => ?_
    exact hP _ (getClient_iff.mp (hw.guest b hg).client) rfl
  · intro v hv m hm
    obtain ⟨i, hi⟩ := mem_membersByOwner.mp hv
    rw [hi] at hm
    obtain rfl := Option.some.inj hm
    intro hmember
    cases hmember

/-- Participants go, the member itself stays. -/
theorem members_cleanupParticipants (b : Bool)
    (hu : ∀ owner i, w.state.members.get u ≠ some (.owned owner i)) :
    (w.cleanupParticipants u b).state.members.get u = w.state.members.get u := by
  unfold cleanupParticipants
  split
  · rw [members_foldl_cleanupParticipant, if_neg fun hmem => ?_]
    obtain ⟨i, hi⟩ := mem_membersByOwner.mp hmem
    exact hu _ i hi
  · rfl

/-- The client itself. Nobody was shown it when its departure is not announced. -/
theorem keeps_forgetClient (hg : w.state.Settled g → g ≠ some u)
    (hu : ∀ owner i, w.state.members.get u ≠ some (.owned owner i)) :
    Keeps strict h g g w
      (if (w.state.removeClient u).1 && (w.state.conn u).authenticated &&
          !(w.state.handle (primary u)).isController then
        (w.mapState (·.forgetClient u)).broadcastStateUpdate (.userLeft (some u))
      else w.mapState (·.forgetClient u)) := by
  have hremoval := Removal.forgetClient w.state u
  split
  · exact keeps_userLeft (.of_log rfl) hg hremoval rfl
  rename_i hquiet
  refine keeps_removal (.of_log rfl) hg hremoval rfl fun hw => ?_
  cases hm : w.state.members.get u with
  | none => exact ServerState.userView_of_no_member hm
  | some m =>
    obtain rfl : m = .client := by
      cases m with
      | client => rfl
      | owned owner i => exact absurd hm (hu owner i)
    by_cases hauth : (w.state.conn u).authenticated = true
    · refine ServerState.userView_of_controller hm ?_
      simpa [ServerState.removeClient, hm, hauth] using hquiet
    · refine hw.userView_of_not_known fun hk => ?_
      rcases hk with hk | ⟨owner, i, hk⟩
      · exact hauth hk
      · exact hu owner i hk

/-- **A client goes** with its participants. -/
theorem keeps_cleanupClient (hg : w.state.Settled g → g ≠ some u)
    (hu : ∀ owner i, w.state.members.get u ≠ some (.owned owner i)) :
    Keeps strict h g g w (w.cleanupClient u) := by
  refine Feed.Follows.of_holds fun hw => ?_
  have hflags : (w.state.handle (primary u)).isController =
      ((w.cleanupParticipants u (w.state.handle (primary u)).isController).state.handle
        (primary u)).isController :=
    (congrFun (touches_cleanupParticipants w u _ .isController (by decide)) (primary u)).symm
  have hmember := members_cleanupParticipants (w.state.handle (primary u)).isController hu
  refine (keeps_cleanupParticipants w u (w.state.handle (primary u)).isController).trans ?_
  unfold cleanupClient
  dsimp only
  rw [mapState_state, ServerState.conn_forgetClient]
  generalize w.cleanupParticipants u (w.state.handle (primary u)).isController = w₂ at hflags hmember ⊢
  rw [hflags]
  exact keeps_forgetClient (fun _ => hg hw) fun owner i => hmember ▸ hu owner i

/-! ## Moderation -/

theorem keeps_evictOne (username : String) (new old : UserId) (hg : ∀ v ∈ g, v = new) :
    Keeps strict h g g w (w.evictOne username new old) := by
  cases hy : w.state.yields username new old with
  | false =>
    rw [evictOne_eq_self hy]
    exact .refl
  | true =>
    rw [evictOne_eq hy]
    have hy' := hy
    unfold ServerState.yields at hy'
    simp only [Bool.and_eq_true, bne_iff_ne] at hy'
    obtain ⟨⟨⟨hne, hclient⟩, -⟩, -⟩ := hy'
    have hdown : Unseen w (w.mapState (·.setHandle (primary old) fun c =>
        { c with tornDown := true })) := by
      refine .of_touches (S := [.tornDown]) ?_ (by decide)
      exact Touches.refl.setHandle _ _ fun _ =>
        ⟨fun _ => rfl, fun _ => rfl, fun _ => rfl, fun _ => rfl, (absurd (by decide) ·)⟩
    refine (Keeps.silent hdown (.of_log rfl)).trans ?_
    refine (Keeps.send _ (primary old) (.userKicked old
      "Superseded by a new login with the same identity" "server") rfl).trans ?_
    refine (Keeps.silent (.of_touches (Touches.setClosed (S := [.closed]) .refl old) (by decide))
      (.of_log rfl)).trans ?_
    refine keeps_cleanupClient (fun _ hgo => hne (hg old hgo)) fun owner i hm => ?_
    have hm' : w.state.members.get old = some (.owned owner i) := hm
    rw [getClient_iff.mp hclient] at hm'
    cases hm'

theorem keeps_evictSupersededSessions (key : PublicKey) (username : String) (new : UserId)
    (hg : ∀ v ∈ g, v = new) :
    Keeps strict h g g w (w.evictSupersededSessions key username new) :=
  Feed.Follows.foldl (P := fun _ _ => True) _ (fun _ _ _ _ => trivial)
    (fun _ old _ => keeps_evictOne username new old hg) fun _ _ => trivial

theorem keeps_applyKick (target : UserId) (reason actor : String) :
    Keeps strict h none none w (w.applyKick target reason actor).2 := by
  unfold applyKick
  split
  · exact .refl
  rename_i hclient
  split
  · exact .refl
  split
  · exact .refl
  refine (Keeps.send w (primary target) (.userKicked target reason actor) rfl).trans ?_
  refine (Keeps.silent (.of_touches (Touches.setClosed (S := [.closed]) .refl target) (by decide))
    (.of_log rfl)).trans ?_
  refine keeps_cleanupClient (fun _ => nofun) fun owner i hm => ?_
  have hm' : w.state.members.get target = some (.owned owner i) := hm
  rw [getClient_iff.mp (by simpa using hclient)] at hm'
  cases hm'

theorem cleanupClient_of_not_controller
    (hu : (w.state.handle (primary u)).isController = false) : w.cleanupClient u =
      (if (w.state.members.get u).isSome && (w.state.conn u).authenticated then
        (w.mapState (·.forgetClient u)).broadcastStateUpdate (.userLeft (some u))
      else w.mapState (·.forgetClient u)) := by
  unfold cleanupClient cleanupParticipants
  rw [hu]
  dsimp only
  rw [if_neg Bool.false_ne_true, mapState_state, ServerState.conn_forgetClient]
  simp [ServerState.removeClient]

/-- A client is forgotten after its identity was written. -/
theorem removal_of_written {s : ServerState} (hm : s.members = w.state.members)
    (hd : s.data = w.state.data) (hn : s.nextUserId = w.state.nextUserId)
    (hh : s.handle = w.state.handle)
    (hc : ∀ v, (s.conn v).authenticated = (w.state.conn v).authenticated ∧
      (s.conn v).opened = (w.state.conn v).opened ∧
      (s.conn v).identity.label = (w.state.conn v).identity.label)
    (hi : ∀ v, v ≠ u → (s.conn v).identity = (w.state.conn v).identity) :
    Removal w.state (s.forgetClient u) u := by
  have hr := Removal.forgetClient s u
  refine ⟨fun v => hm ▸ hr.members v, hd ▸ hr.data, hr.nextUserId.trans hn, fun v => ?_,
    fun v hv => ?_, hr.handle.trans hh⟩
  · rw [ServerState.conn_forgetClient]
    exact hc v
  · rw [ServerState.conn_forgetClient]
    exact hi v hv

/-- The target of a ban is sent away after its groups were written, which nobody is shown. -/
theorem keeps_expelled {target : UserId} (groups : List String → List String)
    (hclient : w.state.getClient target = true)
    (hcontroller : (w.state.handle (primary target)).isController = false)
    (hstate : w₁.state = w.state.setIdentity target fun i => { i with groups := groups i.groups })
    (hgroups : w₁.store.groups = w.store.groups) (hlog : w₁.log = w.log) (frame : Frame)
    (hframe : isStateFrame frame = false) :
    Keeps strict h none none w
      (((w₁.sendFrame (primary target) frame).closeConn target).cleanupClient target) := by
  have hmember := getClient_iff.mp hclient
  have hclosed : ((w₁.sendFrame (primary target) frame).closeConn target).state =
      (w.state.setIdentity target fun i => { i with groups := groups i.groups }).setConn target
        fun c => { c with closed := true } := by
    rw [← hstate]
    rfl
  have hsent : Hushed strict h w
      (((w₁.sendFrame (primary target) frame).closeConn target).mapState
        (·.forgetClient target)) := by
    refine .of_entry (o := .send (primary target) frame) ?_ (ignored_send _ hframe)
    exact congrArg (· ++ [Out.send (primary target) frame]) hlog
  have hremoval : Removal w.state
      (((w₁.sendFrame (primary target) frame).closeConn target).state.forgetClient target)
        target := by
    rw [hclosed]
    refine removal_of_written rfl rfl rfl rfl (fun v => ?_) fun v hv => ?_
    · by_cases hv : v = target
      · subst v
        simp [ServerState.setIdentity, ServerState.setConn]
      · simp [ServerState.setIdentity, ServerState.setConn, hv]
    · simp [ServerState.setIdentity, ServerState.setConn, hv]
  rw [cleanupClient_of_not_controller (by rw [hclosed]; exact hcontroller)]
  split
  · exact keeps_userLeft hsent (fun _ => (Option.some_ne_none target).symm) hremoval hgroups
  rename_i hquiet
  refine keeps_removal hsent (fun _ => (Option.some_ne_none target).symm) hremoval hgroups
    fun hw => ?_
  refine hw.userView_of_not_known fun hk => ?_
  rcases hk with hk | ⟨owner, i, hk⟩
  · refine hquiet ?_
    rw [hclosed]
    simp [ServerState.setIdentity, ServerState.setConn, hmember, hk]
  · rw [hmember] at hk
    cases hk

/-- **A ban**, when its group is defined already: the groups of the target change, and it leaves. -/
theorem keeps_applyBan (env : Env) (target : UserId) (d : Nat) (reason actor : String)
    (hb : (w.store.getGroup "banned").isSome = true) :
    Keeps strict h none none w (w.applyBan env target d reason actor).2 := by
  have hensure : ensureBannedGroup w.store = w.store := by
    unfold ensureBannedGroup
    rw [if_neg (by simpa using Option.isSome_iff_ne_none.mp hb)]
  have hstore : w.mapStore ensureBannedGroup = w := by
    unfold mapStore
    rw [hensure]
  unfold applyBan
  split
  · exact .refl
  split
  · exact .refl
  split
  · exact .refl
  rename_i hclient _ hcontroller
  dsimp only
  rw [hstore]
  split
  · exact .refl
  rename_i key _
  have hgroups : ∀ ban : PersistedBan, (recordBan w.store key ban).groups = w.store.groups :=
    fun ban => touches_recordBan (S := [.userGroups, .bans]) (w := w) .refl key ban .groups
      (by decide)
  have hclient' : w.state.getClient target = true := by simpa using hclient
  have hcontroller' : (w.state.handle (primary target)).isController = false := by
    simpa using hcontroller
  dsimp only
  refine keeps_expelled (fun groups => pushGroup groups "banned") hclient' hcontroller' ?_ ?_ ?_ _ ?_
  · rfl
  · exact hgroups _
  · rfl
  · rfl

/-! ## Rooms -/

/-- Only the room list was written. -/
theorem keeps_rooms {rooms : List Room} (update : Update)
    (hstate : w₁.state = { w.state with data := { w.state.data with rooms := rooms } })
    (hgroups : w₁.store.groups = w.store.groups) (hlog : w₁.log = w.log)
    (hproper : Proper (.broadcast w₁.state.snapshotClients
      (.stateUpdate w₁.state.hashInput update)))
    (hrooms : Unassigned w.state.data.rooms → Unassigned rooms)
    (hupdate : ∀ r : Roster, r.Matches w → ∃ l, r.update update = { r with rooms := l } ∧
      l.map bareRoom = rooms) :
    Keeps strict h g g w (w₁.broadcastStateUpdate update) := by
  have hviews : ∀ v, w₁.state.userView v = w.state.userView v := fun v => by
    rw [hstate]
    have hentry : SameEntry w.state
        { w.state with data := { w.state.data with rooms := rooms } } v :=
      ⟨rfl, rfl, rfl, rfl, rfl, rfl⟩
    exact hentry.userView rfl
  refine .announce _ (.of_log hlog) hproper (fun hw => ?_) (fun _ c hc => ?_) fun _ r hr => ?_
  · rw [hstate]
    exact hw.withRooms (hrooms hw.data.unassigned)
  · unfold Attending at hc
    rw [hstate] at hc
    exact hc
  · obtain ⟨l, hl, hmap⟩ := hupdate r hr
    rw [hl]
    refine hr.withRooms (hmap.trans ?_) hgroups hviews
    show rooms = w₁.state.data.rooms
    rw [hstate]

/-- An edit of one room, made on both sides. -/
theorem keeps_editRoom (room : Uuid) (f : Room → Room) (update : Update)
    (hstate : w₁.state = { w.state with data := { w.state.data with
      rooms := modifyFirst (fun r => r.id == room) f w.state.data.rooms } })
    (hgroups : w₁.store.groups = w.store.groups) (hlog : w₁.log = w.log)
    (hproper : Proper (.broadcast w₁.state.snapshotClients
      (.stateUpdate w₁.state.hashInput update)))
    (hperms : ∀ r, (f r).effectivePermissions = r.effectivePermissions)
    (hbare : ∀ r, bareRoom (f r) = f (bareRoom r))
    (hupdate : ∀ r : Roster, r.update update = r.editRoom room f) :
    Keeps strict h g g w (w₁.broadcastStateUpdate update) := by
  refine keeps_rooms update hstate hgroups hlog hproper (fun hun => hun.edit _ hperms) fun r hr =>
    ⟨_, hupdate r, ?_⟩
  have hsame : w.state.data.rooms = r.rooms.map bareRoom := hr.rooms.symm
  rw [hsame]
  exact map_bareRoom_modifyFirst room hbare r.rooms

theorem keeps_roomCreated (room : Room) (hperms : room.effectivePermissions = 0)
    (hstate : w₁.state = { w.state with data := { w.state.data with
      rooms := w.state.data.rooms ++ [room] } })
    (hgroups : w₁.store.groups = w.store.groups) (hlog : w₁.log = w.log) :
    Keeps strict h g g w (w₁.broadcastStateUpdate (.roomCreated (some room.toProto))) := by
  refine keeps_rooms _ hstate hgroups hlog trivial (fun hun => hun.append hperms) fun r hr =>
    ⟨r.rooms ++ [room], ?_, ?_⟩
  · unfold Roster.update updateEvent
    dsimp only
    rw [Option.bind_some, Room.fromProto_toProto]
    rfl
  · have hbare : bareRoom room = room := by rw [bareRoom, ← hperms]
    have hsame : r.rooms.map bareRoom = w.state.data.rooms := hr.rooms
    rw [List.map_append, hsame, List.map_singleton, hbare]

theorem keeps_applyCreateRoom (env : Env) (name : String) (parent : Option Uuid)
    (description : Option String) :
    Keeps strict h g g w (w.applyCreateRoom env name parent description).2 := by
  unfold applyCreateRoom
  split
  · exact .refl
  · exact keeps_roomCreated _ rfl rfl rfl rfl

/-- The events of the updates that edit a room. -/
theorem update_room (r : Roster) (room : Uuid) :
    (∀ name, r.update (.roomRenamed (some (roomIdFromUuid room)) name) =
      r.editRoom room fun x => { x with name := name }) ∧
    (∀ parent, r.update (.roomMoved (some (roomIdFromUuid room)) parent) =
      r.editRoom room fun x => { x with parent := roomIdOrRoot parent }) ∧
    (∀ description, r.update (.roomDescriptionChanged (some (roomIdFromUuid room)) description) =
      r.editRoom room fun x => { x with
        description := if description.isEmpty then none else some description }) ∧
    ∀ inheritAcl acls, r.update (.roomAclChanged (some (roomIdFromUuid room)) inheritAcl acls) =
      r.editRoom room fun x => { x with inheritAcl := inheritAcl, acls := acls } := by
  have hid : (some (roomIdFromUuid room)).bind uuidFromRoomId = some room := by simp
  refine ⟨fun name => ?_, fun parent => ?_, fun description => ?_, fun inheritAcl acls => ?_⟩ <;>
    (unfold Roster.update updateEvent; dsimp only; rw [hid]; rfl)

theorem update_roomDeleted (r : Roster) (room : Uuid) (fallback : Option RoomId) :
    r.update (.roomDeleted (some (roomIdFromUuid room)) fallback) =
      { r with rooms := r.rooms.filter fun x => x.id ≠ room } := by
  have hid : (some (roomIdFromUuid room)).bind uuidFromRoomId = some room := by simp
  unfold Roster.update updateEvent
  dsimp only
  rw [hid]
  rfl

theorem keeps_reparentChild (newParent child : Uuid) :
    Keeps strict h g g w (reparentChild newParent w child) := by
  have hdata : (w.state.data.moveRoom child newParent).getD w.state.data = { w.state.data with
      rooms := modifyFirst (fun r => r.id == child) (fun r => { r with parent := newParent })
        w.state.data.rooms } := by
    cases hmove : w.state.data.moveRoom child newParent with
    | some d => exact (StateData.editRoom_eq_some.mp hmove).2
    | none =>
      have hnone := StateData.editRoom_eq_none.mp hmove
      rw [modifyFirst_eq_self fun r hr => beq_eq_false_iff_ne.mpr (hnone r hr)]
      rfl
  unfold reparentChild
  refine keeps_editRoom child (fun r => { r with parent := newParent }) _ ?_ ?_ ?_ trivial
    (fun _ => rfl) (fun _ => rfl) fun r => ?_
  · exact congrArg (fun d => { w.state with data := d }) hdata
  · exact Touches.updateRoom (S := [.storedRooms]) .refl child _ .groups (by decide)
  · rfl
  · rw [(update_room r child).2.1]
    simp [roomIdOrRoot]

theorem keeps_reparentChildren (room : Uuid) :
    Keeps strict h g g w (w.reparentChildren room) := by
  unfold reparentChildren
  split
  · exact Feed.Follows.foldl (P := fun _ _ => True) _ (fun _ _ _ _ => trivial)
      (fun _ child _ => keeps_reparentChild _ child) fun _ _ => trivial
  · exact .refl

/-! ## Flags -/

/-- The entry of a connection after its flags were written. -/
theorem userView_setHandle {s : ServerState} {f : ClientHandle → ClientHandle}
    (hu : ∀ owner i, s.members.get u ≠ some (.owned owner i))
    (hf : ∀ c, (f c).isController = c.isController) :
    (s.setHandle (primary u) f).userView u = (s.userView u).map fun user => { user with
      serverMuted := (f (s.handle (primary u))).serverMuted
      isElevated := (f (s.handle (primary u))).isSuperuser } := by
  cases hm : s.members.get u with
  | none =>
    rw [ServerState.userView_of_no_member hm]
    exact ServerState.userView_of_no_member hm
  | some m =>
    obtain rfl : m = .client := by
      cases m with
      | client => rfl
      | owned owner i => exact absurd hm (hu owner i)
    unfold ServerState.userView
    show (s.data.getUserRoom u).bind _ = _
    cases s.data.getUserRoom u with
    | none => rfl
    | some room =>
      unfold ServerState.rosterEntry ServerState.getMember ServerState.memberIsController
        ServerState.memberIsSuperuser ServerState.memberIdentity ServerState.setHandle
      simp only [Option.bind_some, hm, Function.update_self, hf]
      split <;> rfl

theorem userView_setHandle_ne {s : ServerState} {f : ClientHandle → ClientHandle} {v : UserId}
    (hv : v ≠ u) : (s.setHandle (primary u) f).userView v = s.userView v := by
  have hhandle : (s.setHandle (primary u) f).handle (primary v) = s.handle (primary v) :=
    (ServerState.handle_setHandle f v).trans (if_neg hv)
  have hentry : SameEntry s (s.setHandle (primary u) f) v :=
    ⟨rfl, rfl, rfl, by rw [hhandle], by rw [hhandle], by rw [hhandle]⟩
  exact hentry.userView rfl

/-- The status shown is the stored one. -/
theorem userView_status {s : ServerState} {user : User} (hu : s.userView u = some user) :
    user.isMuted = (s.data.getUserStatus u).isMuted ∧
      user.isDeafened = (s.data.getUserStatus u).isDeafened := by
  unfold ServerState.userView at hu
  obtain ⟨room, -, hu⟩ := Option.bind_eq_some_iff.mp hu
  unfold ServerState.rosterEntry at hu
  split at hu
  · cases hu
  split at hu
  · cases hu
  · obtain rfl := Option.some.inj hu
    exact ⟨rfl, rfl⟩

theorem isController_setHandle {s : ServerState} {f : ClientHandle → ClientHandle}
    (hf : ∀ c, (f c).isController = c.isController) (v : UserId) :
    ((s.setHandle (primary u) f).handle (primary v)).isController =
      (s.handle (primary v)).isController := by
  rw [ServerState.handle_setHandle]
  split
  · exact hf _
  · rfl

theorem settled_setHandle {f : ClientHandle → ClientHandle} (hw : w.state.Settled none)
    (hf : ∀ c, (f c).isController = c.isController)
    (hs : (f (w.state.handle (primary u))).isSuperuser = true →
      (w.state.handle (primary u)).isSuperuser = true ∨ (w.state.conn u).authenticated = true) :
    (w.state.setHandle (primary u) f).Settled none := by
  refine hw.withCells rfl rfl rfl (fun _ => ⟨rfl, rfl, rfl⟩) (isController_setHandle hf)
    (fun v hv => ?_) fun v hv => by cases hv
  rw [ServerState.handle_setHandle] at hv
  split at hv
  · rename_i hvu
    exact hvu ▸ hs (hvu ▸ hv)
  · exact .inl hv

/-- The lists after the flags of a connection, announced with the status the server has. -/
theorem matches_flags {r : Roster} (hr : r.Matches w) (f : ClientHandle → ClientHandle)
    (hstate : w₁.state = w.state.setHandle (primary u) f)
    (hgroups : w₁.store.groups = w.store.groups)
    (hu : ∀ owner i, w.state.members.get u ≠ some (.owned owner i))
    (hf : ∀ c, (f c).isController = c.isController) :
    (r.update (.userStatusChanged (some u) (w.state.data.getUserStatus u).isMuted
      (w.state.data.getUserStatus u).isDeafened (f (w.state.handle (primary u))).serverMuted
      (f (w.state.handle (primary u))).isSuperuser)).Matches w₁ := by
  refine hr.editUser u (fun _ => rfl) (congrArg (fun s => s.data.rooms) hstate) hgroups fun v => ?_
  rw [hstate]
  by_cases hv : v = u
  · subst v
    rw [if_pos rfl, userView_setHandle hu hf]
    cases hview : w.state.userView u with
    | none => rfl
    | some user =>
      obtain ⟨hmuted, hdeaf⟩ := userView_status hview
      rw [Option.map_some, Option.map_some, ← hmuted, ← hdeaf]
  · rw [if_neg hv, userView_setHandle_ne hv]

/-- **Flags of a connection** are announced. -/
theorem keeps_flags (f : ClientHandle → ClientHandle) {m d sm e : Bool}
    (hstate : w₁.state = w.state.setHandle (primary u) f) (hlog : w₁.log = w.log)
    (hgroups : w₁.store.groups = w.store.groups)
    (hu : w.state.Settled none → ∀ owner i, w.state.members.get u ≠ some (.owned owner i))
    (hf : ∀ c, (f c).isController = c.isController)
    (hs : (f (w.state.handle (primary u))).isSuperuser = true →
      (w.state.handle (primary u)).isSuperuser = true ∨ (w.state.conn u).authenticated = true)
    (hm : m = (w.state.data.getUserStatus u).isMuted)
    (hd : d = (w.state.data.getUserStatus u).isDeafened)
    (hsm : sm = (f (w.state.handle (primary u))).serverMuted)
    (he : e = (f (w.state.handle (primary u))).isSuperuser) :
    Keeps strict h none none w
      (w₁.broadcastStateUpdate (.userStatusChanged (some u) m d sm e)) := by
  subst hm hd hsm he
  refine .announce _ (.of_log hlog) trivial (fun hw => hstate ▸ settled_setHandle hw hf hs)
    (fun _ c hc => ?_) fun hw r hr => matches_flags hr f hstate hgroups (hu hw) hf
  unfold Attending at hc ⊢
  rw [hstate, isController_setHandle hf] at hc
  exact hc

theorem not_owned_of_client (hclient : w.state.getClient u = true) (owner : OwnerId)
    (i : Identity) : w.state.members.get u ≠ some (.owned owner i) := by
  rw [getClient_iff.mp hclient]
  exact nofun

theorem keeps_reevaluateMemberMute (member : UserId) (room : Uuid) :
    Keeps strict h none none w (w.reevaluateMemberMute member room) := by
  unfold reevaluateMemberMute
  split
  · exact .refl
  rename_i hclient
  dsimp only
  split
  · exact .refl
  have hmember := not_owned_of_client (w := w) (u := member) (by simpa using hclient)
  refine keeps_flags (fun c => { c with serverMuted :=
      !(evaluateUserPermissions w.state w.store (primary member) room).contains Permissions.speak ||
        (w.state.handle (primary member)).manuallyServerMuted })
    rfl rfl rfl (fun _ => hmember) (fun _ => rfl) .inl rfl rfl rfl ?_
  exact congrArg ClientHandle.isSuperuser (Function.update_self _ _ _)

theorem keeps_reevaluateMembers (room : Uuid) (members : List UserId) :
    Keeps strict h none none w (members.foldl (fun w m => w.reevaluateMemberMute m room) w) :=
  Feed.Follows.foldl (P := fun _ _ => True) _ (fun _ _ _ _ => trivial)
    (fun _ member _ => keeps_reevaluateMemberMute member room) fun _ _ => trivial

/-- The room goes, and those of its members that nobody is shown end up in Root. -/
theorem keeps_roomDeleted {room : Uuid} {data : StateData}
    (hdata : w.state.data.deleteRoom room = some data)
    (hunlisted : ∀ u user, w.state.userView u = some user → user.currentRoom ≠ room) :
    Keeps strict h none none w
      (((w.mapData fun _ => data).mapStore fun store =>
          (store.deleteRoom room).deleteRoomAcl room).broadcastStateUpdate
        (.roomDeleted (some (roomIdFromUuid room)) (some (roomIdFromUuid rootRoomUuid)))) := by
  obtain ⟨-, -, hd⟩ := StateData.deleteRoom_eq_some.mp hdata
  have hroomOf : ∀ v, data.getUserRoom v =
      (w.state.data.getUserRoom v).map fun r => if r = room then rootRoomUuid else r := fun v => by
    rw [hd]
    exact StateData.getUserRoom_relocate
      { w.state.data with rooms := w.state.data.rooms.filter (fun r => r.id ≠ room) } v room _
  refine .announce _ (.of_log rfl) trivial (fun hw => ?_) (fun _ c hc => ?_) fun hw r hr => ?_
  · refine hw.withData ⟨hw.data.single.edit (.deleteRoom hdata), ?_, ?_⟩ (fun m hm => ?_) ?_
      (fun v hv => ?_) fun v hv => by cases hv
    · rw [hd]
      exact hw.data.unassigned.filter _
    · rw [hd]
      exact hw.data.statuses
    · rw [hd] at hm
      obtain ⟨m', hm', rfl⟩ := List.mem_map.mp hm
      split
      · exact hw.rooms m' hm'
      · exact hw.rooms m' hm'
    · rw [hd]
      exact hw.statuses
    · rw [hroomOf, Option.isSome_map]
      exact hv
  · obtain ⟨hclient, hauth, hplace⟩ := hc
    refine ⟨hclient, hauth, hplace.imp_right fun hroom => ?_⟩
    rw [← Option.isSome_map, ← hroomOf]
    exact hroom
  · rw [update_roomDeleted]
    refine hr.withRooms ?_ rfl fun v => ?_
    · show (r.rooms.filter fun x => x.id ≠ room).map bareRoom = data.rooms
      have hsame : w.state.data.rooms = r.rooms.map bareRoom := hr.rooms.symm
      rw [hd, hsame, List.filter_map]
      rfl
    · have hentry : SameEntry w.state { w.state with data := data } v :=
        ⟨rfl, rfl, by rw [hd]; rfl, rfl, rfl, rfl⟩
      show ServerState.userView { w.state with data := data } v = w.state.userView v
      unfold ServerState.userView
      show (data.getUserRoom v).bind _ = _
      rw [hroomOf]
      cases hroom : w.state.data.getUserRoom v with
      | none => rfl
      | some room' =>
        rw [Option.map_some, Option.bind_some, Option.bind_some, hentry.rosterEntry]
        by_cases heq : room' = room
        · -- A member that would be listed in the room.
          have hnone : w.state.rosterEntry (v, room') = none := by
            cases hshown : w.state.rosterEntry (v, room') with
            | none => rfl
            | some user =>
              have hview : w.state.userView v = some user := by
                unfold ServerState.userView
                rw [hroom]
                exact hshown
              exact absurd ((ServerState.rosterEntry_userId hshown).2.trans heq)
                (hunlisted v user hview)
          rw [if_pos heq, ServerState.rosterEntry_room room', hnone]
          rfl
        · rw [if_neg heq]

/-- **A room without listed users is deleted**; its children are moved up first. -/
theorem keeps_applyDeleteRoom (room : Uuid)
    (hempty : ∀ user ∈ w.state.buildUserList, user.currentRoom ≠ room) :
    Keeps strict h none none w (w.applyDeleteRoom room).2 := by
  unfold applyDeleteRoom
  split
  · exact .refl
  refine Feed.Follows.of_holds fun hw => (keeps_reparentChildren room).trans ?_
  have hviews := ServerState.userView_of_touches (touches_reparentChildren w room) (by decide)
  have hunlisted : ∀ u user, (w.reparentChildren room).state.userView u = some user →
      user.currentRoom ≠ room := by
    intro u user hu
    rw [hviews, ← ServerState.find?_buildUserList hw.data.single] at hu
    exact hempty user (List.mem_of_find?_eq_some hu)
  generalize w.reparentChildren room = w₁ at hunlisted
  dsimp only
  split
  · exact .refl
  rename_i data hdata
  exact (keeps_roomDeleted hdata hunlisted).trans (keeps_reevaluateMembers rootRoomUuid _)

theorem keeps_applySetRoomAcl (cfg : Config) (room : Uuid) (inheritAcl : Bool)
    (entries : List RoomAclEntry) (baseVersion : Nat) :
    Keeps strict h none none w
      (w.applySetRoomAcl cfg room inheritAcl entries baseVersion).2 := by
  unfold applySetRoomAcl
  split
  · exact .refl
  split
  · exact .refl
  rename_i data hdata
  obtain ⟨-, rfl⟩ := StateData.editRoom_eq_some.mp hdata
  refine Keeps.trans (keeps_editRoom room
    (fun x => { x with inheritAcl := inheritAcl, acls := entries })
    (.roomAclChanged (some (roomIdFromUuid room)) inheritAcl entries) ?_ ?_ ?_ trivial
    (fun _ => rfl) (fun _ => rfl) fun r => (update_room r room).2.2.2 inheritAcl entries)
    (keeps_reevaluateMembers room _)
  · rfl
  · rfl
  · rfl

end Rumble.Client
