import Rumble.Client.ReplicaLogin
import Rumble.Client.ReplicaUsers

/-!
# Handlers the replicas follow

Every handler of `server/src/handlers.rs` that a message reaches, on the control stream of its
sender. Those that only answer or relay leave the lists of the clients alone; the others end in one
of the operations before, or in one of the announcements below.
-/

namespace Rumble.Client

open Rumble.Lib Rumble.Lib.Replication Rumble.Server Rumble.Server.World
open Rumble.Server.ServerState (SameEntry Settled)

variable {strict : Prop} {h : UserId → Handshake} {g g' : Option UserId} {w w₁ : World} {u : UserId}

/-! ## Answers -/

theorem keeps_requirePermission {t : HandleId} {room : Uuid} {p : Permissions}
    {rest : World → World} (hrest : Keeps strict h g g w (rest w)) :
    Keeps strict h g g w (w.requirePermission t room p rest) := by
  unfold requirePermission
  split
  · exact hrest
  · exact .send _ _ _ rfl

theorem keeps_replyResult {r : OpResult} (hr : Keeps strict h g g w r.2) (t : HandleId)
    (command : String) : Keeps strict h g g w (replyResult t command r) := by
  obtain ⟨_ | _, w'⟩ := r
  · exact hr.trans (.send _ _ _ rfl)
  · exact hr.trans (.send _ _ _ rfl)

theorem keeps_manageAcl {t : HandleId} {command : String} {op : World → OpResult}
    (hop : Keeps strict h g g w (op w).2) :
    Keeps strict h g g w (manageAcl t command op w) :=
  keeps_requirePermission (keeps_replyResult hop t command)

theorem keeps_withParticipant {t : HandleId} {command : String} {rest : World → World}
    (hrest : w.state.isParticipantOf u (.connection t.user) = true →
      Keeps strict h g g w (rest w)) :
    Keeps strict h g g w (withParticipant t command u rest w) := by
  unfold withParticipant
  split
  · exact hrest ‹_›
  · exact .send _ _ _ rfl

/-- Only the database entries that no client is shown were written. -/
theorem keeps_stored {S : List Field} (ht : Touches S w w₁) (hS : ∀ f ∈ shownFields, f ∉ S)
    (hlog : w₁.log = w.log) : Keeps strict h g g w w₁ := .silent (.of_touches ht hS) (.of_log hlog)

/-! ## Chat and registration -/

theorem keeps_broadcastChatInRoom (author : UserId) (room : Uuid) (text : String) (isTree : Bool)
    (id : List UInt8) (timestampMs : Int) (attachment : Option ChatAttachment) :
    Keeps strict h g g w
      (w.broadcastChatInRoom author room text isTree id timestampMs attachment).2 := by
  unfold broadcastChatInRoom
  split
  · exact .refl
  rename_i member _
  dsimp only
  split
  · cases member with
    | client => exact .send _ _ _ rfl
    | owned owner i => exact .refl
  · exact Feed.Follows.foldl (P := fun _ _ => True) _ (fun _ _ _ _ => trivial)
      (fun w c _ => Keeps.send w (primary c) _ rfl) fun _ _ => trivial

theorem keeps_handleDirectMessage (env : Env) (t : HandleId) (target : UserId) (text : String)
    (id : List UInt8) (timestampMs : Int) :
    Keeps strict h g g w (handleDirectMessage env t target text id timestampMs w) := by
  unfold handleDirectMessage
  split
  · exact .send _ _ _ rfl
  split
  · exact .send _ _ _ rfl
  · exact .send _ _ _ rfl

theorem keeps_handleRegisterUser (t : HandleId) (userId : Option UserId) :
    Keeps strict h g g w (handleRegisterUser t userId w) := by
  refine keeps_requirePermission (keeps_replyResult
    (keeps_stored (touches_applyRegisterUser w _) (by decide) ?_) t _)
  unfold applyRegisterUser
  split
  · rfl
  split
  · rfl
  dsimp only
  split
  · rfl
  split
  · rfl
  · rfl

theorem keeps_handleUnregisterUser (t : HandleId) (userId : Option UserId) :
    Keeps strict h g g w (handleUnregisterUser t userId w) := by
  refine keeps_requirePermission (keeps_replyResult
    (keeps_stored (touches_applyUnregisterUser w _) (by decide) ?_) t _)
  unfold applyUnregisterUser
  split
  · rfl
  · rfl

/-- Reading the registered users sweeps the lapsed memberships of each. -/
theorem keeps_handleRequestRegisteredUsers (env : Env) (t : HandleId) :
    Keeps strict h g g w (handleRequestRegisteredUsers env t w) := by
  refine .silent (.of_touches (touches_handleRequestRegisteredUsers env t w) (by decide)) ?_
  unfold handleRequestRegisteredUsers requirePermission
  split
  · exact .of_entry rfl (ignored_send t rfl)
  · exact .of_entry rfl (ignored_send t rfl)

theorem keeps_handleClientHello (cfg : Config) (env : Env) (t : HandleId) (username : String)
    (publicKey : List UInt8) (password : Option String) :
    Keeps strict h g g w (handleClientHello cfg env t username publicKey password w) := by
  refine .silent (.of_touches (touches_handleClientHello cfg env t username publicKey password w)
    (by decide)) ?_
  unfold handleClientHello
  split
  · exact .of_entry rfl (ignored_send t rfl)
  split
  · exact .of_entry rfl (ignored_send t rfl)
  · exact .of_entry rfl (ignored_send t rfl)

/-! ## Rooms -/

theorem keeps_handleCreateRoom (env : Env) (t : HandleId) (name : String)
    (parentId : Option RoomId) (description : Option String) :
    Keeps strict h g g w (handleCreateRoom env t name parentId description w) := by
  have hcreate : Keeps strict h g g w (w.applyCreateRoom env name (parentId.bind uuidFromRoomId)
      description).2 := keeps_applyCreateRoom env name _ description
  refine keeps_requirePermission ?_
  split
  · rename_i heq
    rw [heq] at hcreate
    exact hcreate.trans (.send _ _ _ rfl)
  · rename_i heq
    rw [heq] at hcreate
    exact hcreate.trans (.send _ _ _ rfl)

theorem keeps_handleDeleteRoom (t : HandleId) (roomId : Option RoomId)
    (hempty : ∀ user ∈ w.state.buildUserList, user.currentRoom ≠ roomIdOrRoot roomId) :
    Keeps strict h none none w (handleDeleteRoom t roomId w) := by
  have hdelete : Keeps strict h none none w (w.applyDeleteRoom (roomIdOrRoot roomId)).2 :=
    keeps_applyDeleteRoom _ hempty
  refine keeps_requirePermission ?_
  split
  · rename_i heq
    rw [heq] at hdelete
    exact hdelete.trans (.send _ _ _ rfl)
  · rename_i heq
    rw [heq] at hdelete
    exact hdelete.trans (.send _ _ _ rfl)

theorem keeps_handleRenameRoom (t : HandleId) (roomId : Option RoomId) (name : String) :
    Keeps strict h g g w (handleRenameRoom t roomId name w) := by
  refine keeps_requirePermission ?_
  dsimp only
  split
  · exact .send _ _ _ rfl
  rename_i data hdata
  obtain ⟨-, rfl⟩ := StateData.editRoom_eq_some.mp hdata
  refine Keeps.trans (keeps_editRoom (roomIdOrRoot roomId) (fun x => { x with name := name }) _ ?_
    ?_ ?_ ?_ (fun _ => rfl) (fun _ => rfl) fun r => (update_room r _).1 name) (.send _ _ _ rfl)
  · rfl
  · exact Touches.updateRoom (S := [.storedRooms]) .refl _ _ .groups (by decide)
  · rfl
  · trivial

theorem keeps_handleSetRoomDescription (t : HandleId) (roomId : Option RoomId)
    (description : String) :
    Keeps strict h g g w (handleSetRoomDescription t roomId description w) := by
  refine keeps_requirePermission ?_
  dsimp only
  split
  · exact .send _ _ _ rfl
  rename_i data hdata
  obtain ⟨-, rfl⟩ := StateData.editRoom_eq_some.mp hdata
  refine Keeps.trans (keeps_editRoom (roomIdOrRoot roomId) (fun x => { x with
    description := if description.isEmpty then none else some description }) _ ?_ ?_ ?_
    ?_ (fun _ => rfl) (fun _ => rfl) fun r => (update_room r _).2.2.1 description) (.send _ _ _ rfl)
  · rfl
  · exact Touches.updateRoom (S := [.storedRooms]) .refl _ _ .groups (by decide)
  · rfl
  · trivial

/-- A well-formed room id is the one that names its room. -/
theorem roomId_eq {roomId : Option RoomId} (hr : (roomId.bind uuidFromRoomId).isSome = true) :
    roomId = some (roomIdFromUuid (roomIdOrRoot roomId)) := by
  obtain ⟨room, hroom⟩ := Option.isSome_iff_exists.mp hr
  obtain ⟨rid, rfl, hrid⟩ := Option.bind_eq_some_iff.mp hroom
  have hdata : room.data = rid.uuid := by
    unfold uuidFromRoomId Bytes.ofList? at hrid
    split at hrid
    · exact congrArg Bytes.data (Option.some.inj hrid).symm
    · cases hrid
  unfold roomIdOrRoot roomIdFromUuid
  rw [Option.bind_some, hrid, Option.getD_some, hdata]

/-- **A room is moved**; the announcement carries the ids as they came. -/
theorem keeps_handleMoveRoom (t : HandleId) (roomId newParentId : Option RoomId)
    (hr : (roomId.bind uuidFromRoomId).isSome = true) :
    Keeps strict h g g w (handleMoveRoom t roomId newParentId w) := by
  have hroom := roomId_eq hr
  refine keeps_requirePermission (keeps_requirePermission ?_)
  dsimp only
  split
  · exact .send _ _ _ rfl
  split
  · exact .send _ _ _ rfl
  split
  · exact .send _ _ _ rfl
  rename_i data hdata
  obtain ⟨-, rfl⟩ := StateData.editRoom_eq_some.mp hdata
  refine Keeps.trans (keeps_editRoom (roomIdOrRoot roomId) (fun x => { x with
    parent := roomIdOrRoot newParentId }) _ ?_ ?_ ?_ ?_ (fun _ => rfl) (fun _ => rfl)
    fun r => ?_) (.send _ _ _ rfl)
  · rfl
  · exact Touches.updateRoom (S := [.storedRooms]) .refl _ _ .groups (by decide)
  · rfl
  · trivial
  · rw [hroom]
    simpa [roomIdOrRoot] using (update_room r (roomIdOrRoot roomId)).2.1 newParentId

theorem keeps_handleSetRoomAcl (cfg : Config) (t : HandleId) (roomId : List UInt8)
    (inheritAcl : Bool) (entries : List RoomAclEntry) (baseVersion : Nat) :
    Keeps strict h none none w
      (handleSetRoomAcl cfg t roomId inheritAcl entries baseVersion w) := by
  unfold handleSetRoomAcl
  split
  · exact .send _ _ _ rfl
  · exact keeps_requirePermission (keeps_replyResult
      (keeps_applySetRoomAcl cfg _ inheritAcl entries baseVersion) t _)

/-! ## Joining a room -/

/-- A connection that has authenticated is in a room, or is not shown in any. -/
theorem movable_of_authenticated (hw : w.state.Settled none)
    (hauth : (w.state.conn u).authenticated = true) : Movable w.state u := by
  cases hm : w.state.members.get u with
  | none => exact .inr (.inl hm)
  | some m =>
    cases m with
    | client =>
      rcases hw.placed u (getClient_iff.mpr hm) hauth nofun with hc | hroom
      · exact .inr (.inr ⟨hm, hc⟩)
      · exact .inl hroom
    | owned owner i => exact absurd hm (hw.cells.not_owned (hw.cells.opened u hauth) owner i)

/-- An update whose checkpoint is left to fail: it still brings the lists into step. -/
theorem keeps_unchecked (hstrict : ¬ strict) (update : Update) (expected : ServerStateMsg)
    (hlog : w₁.log = w.log ++ [.broadcast w₁.state.snapshotClients (.stateUpdate expected update)])
    (hproper : Proper (.broadcast w₁.state.snapshotClients (.stateUpdate expected update)))
    (hsettled : w.state.Settled g → w₁.state.Settled g')
    (hlive : ∀ c, Attending w₁ c → Attending w c)
    (hmatch : w.state.Settled g → ∀ r : Roster, r.Matches w → (r.update update).Matches w₁) :
    Keeps strict h g g' w w₁ := by
  intro hw
  refine ⟨hsettled hw, _, hlog, List.forall_mem_singleton.mpr hproper, fun c r hc hr => ?_⟩
  obtain ⟨x, rfl, hx, -⟩ := hr (hlive c hc)
  obtain ⟨y, hy, hroster, -⟩ := receive_update (h c) (mem_snapshotClients.mpr hc.1) x expected update
  exact ⟨y, hy, hroster ▸ hmatch hw _ hx, fun hs => absurd hs hstrict⟩

/-- The mute flag that joining a room leaves. -/
def joinMute (w : World) (t : HandleId) (room : Uuid) : Bool :=
  let w := w.mapData (·.setUserRoom t.user room)
  !(evaluateUserPermissions w.state w.store t room).contains Permissions.speak ||
    (w.state.handle t).manuallyServerMuted

theorem saveLastRoom_eq (w : World) (u : UserId) (room : Uuid) : ∃ store : Persistence,
    store.groups = w.store.groups ∧ w.saveLastRoom u room = w.mapStore fun _ => store := by
  refine ⟨(w.saveLastRoom u room).store,
    touches_saveLastRoom w u room .groups (by decide), ?_⟩
  unfold saveLastRoom
  split
  · split <;> rfl
  · rfl

/-- The mute flag of a connection written. -/
def withMute (w : World) (t : HandleId) (muted : Bool) : World :=
  w.mapState (·.setHandle t fun c => { c with serverMuted := muted })

theorem withMute_self (w : World) (t : HandleId) :
    withMute w t (w.state.handle t).serverMuted = w := by
  unfold withMute mapState ServerState.setHandle
  dsimp only
  rw [Function.update_eq_self]

/-- A move with the mute flag it leads to. -/
theorem refreshJoinMute_eq (w : World) (t : HandleId) (room : Uuid) :
    (w.mapData (·.setUserRoom t.user room)).refreshJoinMute t room =
      let muted := joinMute w t room
      let moved := (withMute w t muted).mapData (·.setUserRoom t.user room)
      if muted ≠ (w.state.handle t).serverMuted then
        moved.broadcastStateUpdate (.userStatusChanged (some t.user)
          (w.state.data.getUserStatus t.user).isMuted (w.state.data.getUserStatus t.user).isDeafened
          muted (w.state.handle t).isSuperuser)
      else moved := by
  have hhandle : (withMute w t (joinMute w t room)).state.handle t =
      { w.state.handle t with serverMuted := joinMute w t room } := Function.update_self _ _ _
  have hsuper : ((withMute w t (joinMute w t room)).state.handle t).isSuperuser =
      (w.state.handle t).isSuperuser := by rw [hhandle]
  unfold refreshJoinMute
  show (if joinMute w t room ≠ _ then _ else _) = _
  split
  · rw [if_pos ‹_›]
    exact congrArg (fun elevated : Bool => ((withMute w t (joinMute w t room)).mapData
      (·.setUserRoom t.user room)).broadcastStateUpdate (.userStatusChanged (some t.user)
        (w.state.data.getUserStatus t.user).isMuted (w.state.data.getUserStatus t.user).isDeafened
        (joinMute w t room) elevated)) hsuper
  · rw [if_neg ‹_›]
    rfl

/-- **A user moves into a room.** The mute flag is written between the move and its announcement:
when it changes, the clients learn of it while the server is ahead of them by the move. -/
theorem keeps_joined (room : Uuid) (hauth : (w.state.conn u).authenticated = true)
    (hflag : strict → joinMute w (primary u) room = (w.state.handle (primary u)).serverMuted) :
    Keeps strict h none none w
      ((((w.mapData (·.setUserRoom u room)).refreshJoinMute (primary u) room).saveLastRoom u
        room).broadcastStateUpdate (.userMoved (some u) (some (roomIdFromUuid room)))) := by
  obtain ⟨store, hgroups, hsave⟩ := saveLastRoom_eq
    ((w.mapData (·.setUserRoom u room)).refreshJoinMute (primary u) room) u room
  have hgroups' : store.groups = w.store.groups :=
    hgroups.trans (touches_refreshJoinMute _ (primary u) room .groups (by decide))
  have hmove := refreshJoinMute_eq w (primary u) room
  rw [hsave]
  dsimp only at hmove
  split at hmove
  · rename_i hm
    -- The flag changes: the announcement of it carries the hash of the state after the move.
    refine Feed.Follows.of_holds fun hw => ?_
    have hnot := hw.cells.not_owned (hw.cells.opened u hauth)
    rw [hmove]
    let f : ClientHandle → ClientHandle := fun c => { c with
      serverMuted := joinMute w (primary u) room }
    let flagged := w.mapState (·.setHandle (primary u) f)
    let update : Update := .userStatusChanged (some u) (w.state.data.getUserStatus u).isMuted
      (w.state.data.getUserStatus u).isDeafened (f (w.state.handle (primary u))).serverMuted
      (f (w.state.handle (primary u))).isSuperuser
    let told : World := flagged.emit (.broadcast flagged.state.snapshotClients
      (.stateUpdate (flagged.mapData (·.setUserRoom u room)).state.hashInput update))
    have htold : Keeps strict h none none w told := by
      refine keeps_unchecked (fun hs => hm (hflag hs)) update
        (flagged.mapData (·.setUserRoom u room)).state.hashInput rfl trivial
        (fun hw => settled_setHandle (u := u) (f := f) hw (fun _ => rfl) .inl) (fun c hc => ?_)
        fun hw r hr => matches_flags hr f rfl rfl hnot fun _ => rfl
      obtain ⟨hclient, hauth, hplace⟩ := hc
      have hcontroller := isController_setHandle (u := u) (s := w.state) (f := f) (fun _ => rfl) c
      exact ⟨hclient, hauth, hplace.imp_left hcontroller.symm.trans⟩
    exact htold.trans (keeps_userMoved room rfl rfl hgroups'
      (fun hw => movable_of_authenticated hw hauth) (.inl hauth))
  · rename_i hm
    rw [not_not.mp hm, withMute_self] at hmove
    rw [hmove]
    exact keeps_userMoved room rfl rfl hgroups' (fun hw => movable_of_authenticated hw hauth)
      (.inl hauth)

theorem keeps_handleJoinRoom (roomId : Option RoomId)
    (hauth : (w.state.conn u).authenticated = true)
    (hflag : strict →
      joinMute w (primary u) (roomIdOrRoot roomId) = (w.state.handle (primary u)).serverMuted) :
    Keeps strict h none none w (handleJoinRoom (primary u) roomId w) := by
  refine keeps_requirePermission ?_
  split
  · exact .send _ _ _ rfl
  · exact (keeps_joined _ hauth hflag).trans (.send _ _ _ rfl)

/-! ## Controllers -/

/-- A connection made a controller, and out of its room. -/
def promoted (w : World) (u : UserId) : World :=
  (w.mapState (·.setHandle (primary u) fun c => { c with isController := true })).mapData
    (·.removeUserMembership u)

theorem handle_promoted (v : UserId) : (promoted w u).state.handle (primary v) =
    if v = u then { w.state.handle (primary v) with isController := true }
    else w.state.handle (primary v) :=
  ServerState.handle_setHandle (s := w.state) (u := u) (fun c => { c with isController := true }) v

theorem getUserRoom_promoted (v : UserId) : (promoted w u).state.data.getUserRoom v =
    if v = u then none else w.state.data.getUserRoom v :=
  StateData.getUserRoom_removeUserMembership _ u v

theorem settled_promoted (hw : w.state.Settled none)
    (hauth : (w.state.conn u).authenticated = true) : (promoted w u).state.Settled none where
  data := ⟨hw.data.single.edit (.removeUserMembership _ u), hw.data.unassigned,
    fun e he => hw.data.statuses e (List.mem_filter.mp he).1⟩
  cells := hw.cells.shrink (fun _ _ hm => hm) rfl (fun _ => ⟨rfl, rfl, rfl⟩) fun v => by
    rw [handle_promoted]
    split
    · rename_i hv
      exact ⟨fun _ => .inr (hv ▸ hauth), .inl⟩
    · exact ⟨.inl, .inl⟩
  rooms := fun m hm => hw.rooms m (List.mem_filter.mp hm).1
  statuses := fun e he => hw.statuses e (List.mem_filter.mp he).1
  placed := fun v hc ha hg => by
    rw [handle_promoted, getUserRoom_promoted]
    split
    · exact .inl rfl
    · exact hw.placed v hc ha hg
  guest := fun v hv => by cases hv

theorem attending_promoted (hw : w.state.Settled none) {c : UserId}
    (hc : Attending (promoted w u) c) : Attending w c := by
  obtain ⟨hclient, hauth, hplace⟩ := hc
  exact ⟨hclient, hauth, hw.placed c hclient hauth nofun⟩

theorem userView_promoted (v : UserId) :
    (promoted w u).state.userView v = if v = u then none else w.state.userView v := by
  by_cases hv : v = u
  · rw [if_pos hv]
    exact ServerState.userView_of_no_room ((getUserRoom_promoted v).trans (if_pos hv))
  · rw [if_neg hv]
    have hhandle := (handle_promoted (w := w) (u := u) v).trans (if_neg hv)
    have hentry : SameEntry w.state (promoted w u).state v :=
      ⟨rfl, rfl, (StateData.status_removeUserMembership _ u v).trans (if_neg hv),
        by rw [hhandle], by rw [hhandle], by rw [hhandle]⟩
    exact hentry.userView ((getUserRoom_promoted v).trans (if_neg hv))

/-- **A client becomes a controller** and leaves the lists. -/
theorem keeps_handleControllerHello (hauth : (w.state.conn u).authenticated = true) :
    Keeps strict h none none w (handleControllerHello (primary u) w) := by
  unfold handleControllerHello
  split
  · exact .send _ _ _ rfl
  split
  · exact .send _ _ _ rfl
  have hleft : Keeps strict h none none w
      ((promoted w u).broadcastStateUpdate (.userLeft (some u))) :=
    .announce _ (.of_log rfl) trivial (fun hw => settled_promoted hw hauth)
      (fun hw _ hc => attending_promoted hw hc)
      fun _ _ hr => hr.userLeft u rfl rfl userView_promoted
  exact hleft.trans (.send _ _ _ rfl)

/-! ## Status and flags -/

/-- The stored status of a user has the flags of its connection unset. -/
theorem plain_getUserStatus {d : StateData} (hd : d.Plain) (u : UserId) :
    (d.getUserStatus u).serverMuted = false ∧ (d.getUserStatus u).isElevated = false := by
  unfold StateData.getUserStatus
  cases hfind : d.userStatuses.find? fun e => e.1 == u with
  | none => exact ⟨rfl, rfl⟩
  | some e => exact hd.statuses e (List.mem_of_find?_eq_some hfind)

theorem keeps_handleSetUserStatus (isMuted isDeafened : Bool)
    (hauth : (w.state.conn u).authenticated = true) :
    Keeps strict h none none w (handleSetUserStatus (primary u) isMuted isDeafened w) := by
  refine Feed.Follows.of_holds fun hw => ?_
  have hnot := hw.cells.not_owned (hw.cells.opened u hauth)
  refine keeps_setUserStatus (fun hw => plain_getUserStatus hw.data u) (.inl hauth)
    (fun _ m hm => ?_) fun _ m hm => ?_
  · cases m with
    | client => rfl
    | owned owner i => exact absurd hm (hnot owner i)
  · cases m with
    | client => rfl
    | owned owner i => exact absurd hm (hnot owner i)

theorem keeps_handleSetServerMute (t : HandleId) (target : UserId) (muted : Bool) :
    Keeps strict h none none w (handleSetServerMute t target muted w) := by
  refine keeps_requirePermission ?_
  split
  · exact .send _ _ _ rfl
  rename_i hclient
  have hmember := not_owned_of_client (w := w) (u := target) (by simpa using hclient)
  -- The manual flag itself is not shown.
  refine Keeps.trans (.silent (.of_touches (S := [.manuallyServerMuted]) (.setHandle .refl
    (primary target) (fun c => { c with manuallyServerMuted := muted }) ?_) (by decide))
    (.of_log rfl)) ?_
  · exact fun _ => ⟨fun _ => rfl, fun _ => rfl, fun _ => rfl, (absurd (by decide) ·), fun _ => rfl⟩
  dsimp only
  generalize (muted || _) = effectiveMuted
  refine Keeps.trans (keeps_flags (fun c => { c with serverMuted := effectiveMuted }) ?_ ?_ ?_
    (fun _ => hmember) (fun _ => rfl) .inl ?_ ?_ ?_ ?_) (.send _ _ _ rfl)
  · rfl
  · rfl
  · rfl
  · rfl
  · rfl
  · rfl
  · exact congrArg ClientHandle.isSuperuser (Function.update_self _ _ _)

theorem keeps_handleElevate (cfg : Config) (password : String)
    (hauth : (w.state.conn u).authenticated = true) :
    Keeps strict h none none w (handleElevate cfg (primary u) password w) := by
  refine Feed.Follows.of_holds fun hw => keeps_requirePermission ?_
  have hnot := hw.cells.not_owned (hw.cells.opened u hauth)
  split
  · exact .send _ _ _ rfl
  split
  · exact .send _ _ _ rfl
  refine Keeps.trans (keeps_flags (fun c => { c with isSuperuser := true }) ?_ ?_ ?_
    (fun _ => hnot) (fun _ => rfl) (fun _ => .inr hauth) ?_ ?_ ?_ ?_) (.send _ _ _ rfl)
  · rfl
  · rfl
  · rfl
  · rfl
  · rfl
  · exact congrArg ClientHandle.serverMuted (Function.update_self _ _ _)
  · rfl

/-! ## Moderation and groups -/

theorem keeps_handleKickUser (t : HandleId) (target : UserId) (reason : String) :
    Keeps strict h none none w (handleKickUser t target reason w) := by
  refine keeps_requirePermission ?_
  split
  · exact .send _ _ _ rfl
  · exact keeps_replyResult (keeps_applyKick target reason _) t _

theorem keeps_handleBanUser (env : Env) (t : HandleId) (target : UserId) (durationSeconds : Nat)
    (reason : String) (hb : (w.store.getGroup "banned").isSome = true) :
    Keeps strict h none none w (handleBanUser env t target durationSeconds reason w) := by
  refine keeps_requirePermission ?_
  split
  · exact .send _ _ _ rfl
  · exact keeps_replyResult (keeps_applyBan env target durationSeconds reason _ hb) t _

theorem keeps_handleSetUserGroup (t : HandleId) (target : UserId) (group : String) (add : Bool)
    (expiresAt : Nat) :
    Keeps strict h none none w (handleSetUserGroup t target group add expiresAt w) := by
  refine keeps_manageAcl ?_
  unfold applySetUserGroup
  split
  · exact .refl
  · exact keeps_applySetUserGroupByKey _ group add expiresAt

theorem keeps_handleSetRegisteredUserGroup (t : HandleId) (publicKey : List UInt8)
    (group : String) (add : Bool) (expiresAt : Nat) :
    Keeps strict h none none w
      (handleSetRegisteredUserGroup t publicKey group add expiresAt w) := by
  refine keeps_manageAcl ?_
  split
  · exact .refl
  · exact keeps_applySetUserGroupByKey _ group add expiresAt

/-! ## Participants -/

theorem owned_of_isParticipantOf {owner : OwnerId}
    (hu : w.state.isParticipantOf u owner = true) :
    ∃ i, w.state.members.get u = some (.owned owner i) := by
  unfold ServerState.isParticipantOf at hu
  split at hu
  · rename_i owner' i hm
    exact ⟨i, eq_of_beq hu ▸ hm⟩
  · exact Bool.noConfusion hu

theorem keeps_handleRegisterParticipant (t : HandleId) (username : String)
    (label : Option String) :
    Keeps strict h none none w (handleRegisterParticipant t username label w) :=
  (keeps_createParticipant _ username label _).trans (.send _ _ _ rfl)

theorem keeps_handleUnregisterParticipant (t : HandleId) (userId : UserId) :
    Keeps strict h none none w (handleUnregisterParticipant t userId w) :=
  keeps_withParticipant fun _ => keeps_removeParticipant.trans (.send _ _ _ rfl)

theorem keeps_handleSetParticipantStatus (t : HandleId) (userId : UserId)
    (isMuted isDeafened : Bool) :
    Keeps strict h none none w (handleSetParticipantStatus t userId isMuted isDeafened w) := by
  refine keeps_withParticipant fun hu => ?_
  obtain ⟨i, hi⟩ := owned_of_isParticipantOf hu
  refine keeps_setUserStatus (fun _ => ⟨rfl, rfl⟩) (.inr ⟨_, i, hi⟩) (fun _ m hm => ?_)
    fun _ m hm => ?_
  · obtain rfl := Option.some.inj (hi.symm.trans hm)
    rfl
  · obtain rfl := Option.some.inj (hi.symm.trans hm)
    rfl

theorem keeps_handleParticipantChat (env : Env) (t : HandleId) (userId : UserId) (text : String)
    (tree : Option Bool) (roomId : Option RoomId) :
    Keeps strict h g g w (handleParticipantChat env t userId text tree roomId w) := by
  refine keeps_withParticipant fun _ => ?_
  split
  · exact keeps_broadcastChatInRoom _ _ _ _ _ _ _
  · exact keeps_broadcastChatInRoom _ _ _ _ _ _ _

/-- A participant that is in no room appears in its first. -/
theorem keeps_participantPlaced (room : Uuid) {owner : OwnerId} {i : Identity}
    (hi : w.state.members.get u = some (.owned owner i)) (hnone : w.state.data.getUserRoom u = none)
    {user : User} (huser : w.state.Settled none → w.state.rosterEntry (u, room) = some user) :
    Keeps strict h none none w ((w.mapData (·.setUserRoom u room)).broadcastStateUpdate
      (.userJoined (some user.toProto))) := by
  have hroom : ∀ v, (w.mapData (·.setUserRoom u room)).state.data.getUserRoom v =
      if v = u then some room else w.state.data.getUserRoom v :=
    fun v => StateData.getUserRoom_setUserRoom w.state.data u v room
  have hentry : ∀ v, SameEntry w.state (w.mapData (·.setUserRoom u room)).state v :=
    fun _ => ⟨rfl, rfl, rfl, rfl, rfl, rfl⟩
  refine .announce _ (.of_log rfl) trivial (fun hw => ?_) (fun _ c hc => ?_) fun hw r hr => ?_
  · exact hw.setUserRoom (.inr ⟨owner, i, hi⟩) (fun v hv => by cases hv) room
  · obtain ⟨hclient, hauth, hplace⟩ := hc
    have hcu : c ≠ u := by
      rintro rfl
      exact not_owned_of_client hclient owner i hi
    exact ⟨hclient, hauth, hplace.imp_right ((hroom c).trans (if_neg hcu) ▸ ·)⟩
  · have hid : user.userId = u := (ServerState.rosterEntry_userId (huser hw)).1
    refine hr.userJoined user (hid ▸ ServerState.userView_of_no_room hnone) rfl rfl fun v => ?_
    rw [hid]
    by_cases hv : v = u
    · subst v
      rw [if_pos rfl]
      unfold ServerState.userView
      rw [hroom, if_pos rfl, Option.bind_some, (hentry u).rosterEntry, huser hw]
    · rw [if_neg hv]
      exact (hentry v).userView ((hroom v).trans (if_neg hv))

/-- **A participant is moved**, or appears in its first room. -/
theorem keeps_moveParticipantToRoom (room : Uuid)
    (hu : ∃ owner i, w.state.members.get u = some (.owned owner i)) :
    Keeps strict h none none w (w.moveParticipantToRoom u room).2 := by
  obtain ⟨owner, i, hi⟩ := hu
  unfold moveParticipantToRoom
  split
  · exact .refl
  dsimp only
  split
  · rename_i hplaced
    exact keeps_userMoved room rfl rfl rfl (fun _ => .inl hplaced) (.inr ⟨owner, i, hi⟩)
  rename_i habsent
  have hmember : (w.mapData (·.setUserRoom u room)).state.getMember u = some (.owned owner i) := hi
  rw [hmember]
  let user : User :=
    { userId := u, currentRoom := room, username := i.displayName
      isMuted := (w.state.data.getUserStatus u).isMuted
      isDeafened := (w.state.data.getUserStatus u).isDeafened
      serverMuted := (w.state.data.getUserStatus u).serverMuted
      isElevated := (w.state.data.getUserStatus u).isElevated
      groups := i.groups, label := i.label }
  have huser : w.state.Settled none → w.state.rosterEntry (u, room) = some user := fun hw => by
    have hmember' : w.state.getMember u = some (.owned owner i) := hi
    unfold ServerState.rosterEntry
    dsimp only [user]
    rw [hmember', (plain_getUserStatus hw.data u).2]
    rfl
  exact keeps_participantPlaced room hi (by simpa using habsent) huser

theorem keeps_handleMoveParticipant (t : HandleId) (userId : UserId) (roomId : Option RoomId) :
    Keeps strict h none none w (handleMoveParticipant t userId roomId w) := by
  refine keeps_withParticipant fun hu => ?_
  obtain ⟨i, hi⟩ := owned_of_isParticipantOf hu
  have hmove : Keeps strict h none none w
      (w.moveParticipantToRoom userId (roomIdOrRoot roomId)).2 :=
    keeps_moveParticipantToRoom _ ⟨_, i, hi⟩
  split
  · rename_i heq
    rw [heq] at hmove
    exact hmove.trans (.send _ _ _ rfl)
  · rename_i heq
    rw [heq] at hmove
    exact hmove.trans (.send _ _ _ rfl)

end Rumble.Client
