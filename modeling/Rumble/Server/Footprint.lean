import Rumble.Server.Frames

/-!
# Footprints

The fields each operation, handler and event may change, read off the frame rules of
`Rumble.Server.Frames`. `touches_step` is the summary the invariants use: a field outside the
footprint of an event is as it was.
-/

namespace Rumble.Server

open Rumble.Lib World

variable {w w' : World} {S : List Field}

/-! ## Store writes -/

theorem Touches.onlyMemberships (h : Touches S w w') {g : Persistence → Persistence}
    (hg : Persistence.OnlyMemberships w'.store (g w'.store))
    [hS : Listed .userGroups S] : Touches S w (w'.mapStore g) := by
  refine h.trans fun f hf => ?_
  unfold Persistence.OnlyMemberships at hg
  cases f
  case userGroups => exact absurd hS.mem hf
  case registeredUsers | knownKeys | storedRooms | groups | roomAcls | sudoPassword |
      participantDefaults | bans =>
    simp only [Field.val, mapStore_store]
    rw [hg]
  all_goals rfl

theorem Touches.setGroups (h : Touches S w w') {g : Persistence → Persistence}
    (hg : ∃ gs, g w'.store = { w'.store with groups := gs })
    [hS : Listed .groups S] : Touches S w (w'.mapStore g) := by
  refine h.trans fun f hf => ?_
  obtain ⟨gs, hgs⟩ := hg
  cases f
  case groups => exact absurd hS.mem hf
  case registeredUsers | knownKeys | storedRooms | userGroups | roomAcls | sudoPassword |
      participantDefaults | bans =>
    simp only [Field.val, mapStore_store]
    rw [hgs]
  all_goals rfl

/-- Lifting a ban writes the ban table and the memberships. -/
theorem Touches.liftBan (h : Touches S w w') (key : PublicKey)
    [hS : Listed .userGroups S] [hS' : Listed .bans S] :
    Touches S w (w'.mapStore (·.liftBan key)) := by
  refine h.trans fun f hf => ?_
  cases f <;> first | rfl | exact absurd hS.mem hf | exact absurd hS'.mem hf

/-! ## Teardown -/

/-- What `cleanup_client` may change. -/
@[reducible] def teardownFields : List Field :=
  [.members, .memberships, .userStatuses, .sessions, .voiceRateLimits, .log]

theorem touches_cleanupParticipant (w : World) (u : UserId) :
    Touches teardownFields w (w.cleanupParticipant u) := by
  unfold cleanupParticipant
  split
  · refine .broadcast (.removeUserMembership ?_ u) _
    intro f hf
    cases f <;> first | rfl | exact absurd (by decide) hf
  · exact .refl

theorem touches_forgetClient (w : World) (u : UserId) :
    Touches teardownFields w (w.mapState (·.forgetClient u)) := by
  intro f hf
  simp only [mapState, ServerState.forgetClient, ServerState.removeSession]
  split <;> cases f <;> first | rfl | exact absurd (by decide) hf

theorem touches_cleanupParticipants (w : World) (u : UserId) (b : Bool) :
    Touches teardownFields w (w.cleanupParticipants u b) := by
  unfold cleanupParticipants
  split
  · exact .foldl touches_cleanupParticipant _
  · exact .refl

theorem touches_cleanupClient (w : World) (u : UserId) :
    Touches teardownFields w (w.cleanupClient u) := by
  have h := (touches_cleanupParticipants w u (w.state.handle (primary u)).isController).trans
    (touches_forgetClient _ u)
  unfold cleanupClient
  dsimp only
  split
  · exact h.broadcast _
  · exact h

/-- What the eviction of a superseded session may change. -/
@[reducible] def evictFields : List Field := .tornDown :: .closed :: teardownFields

theorem touches_evictOne (username : String) (new : UserId) (w : World) (old : UserId) :
    Touches evictFields w (w.evictOne username new old) := by
  unfold evictOne
  split
  · exact .refl
  split
  · exact .refl
  split
  · exact .refl
  dsimp only
  split
  · exact .beginTeardown .refl old
  · exact (((Touches.refl.beginTeardown old).sendFrame _ _).setClosed old).trans
      ((touches_cleanupClient _ old).mono (by decide))

theorem touches_evictSupersededSessions (w : World) (key : PublicKey) (name : String)
    (new : UserId) : Touches evictFields w (w.evictSupersededSessions key name new) :=
  .foldl (touches_evictOne name new) _

/-! ## Operations -/

theorem touches_applyKick (w : World) (target : UserId) (reason actor : String) :
    Touches (.closed :: teardownFields) w (w.applyKick target reason actor).2 := by
  unfold applyKick
  split
  · exact .refl
  split
  · exact .refl
  split
  · exact .refl
  · exact ((Touches.refl.sendFrame _ _).setClosed target).trans
      ((touches_cleanupClient _ target).mono (by decide))

theorem ensureBannedGroup_eq (p : Persistence) :
    ∃ gs, ensureBannedGroup p = { p with groups := gs } := by
  unfold ensureBannedGroup
  split
  · exact ⟨_, rfl⟩
  · exact ⟨p.groups, rfl⟩

theorem touches_recordBan (h : Touches S w w') (key : PublicKey) (ban : PersistedBan)
    [hS : Listed .userGroups S] [hS' : Listed .bans S] :
    Touches S w (w'.mapStore fun store => recordBan store key ban) := by
  have h1 : Touches S w (w'.mapStore (·.addUserToGroup key "banned")) :=
    h.onlyMemberships (Persistence.onlyMemberships_addUserToGroupWithExpiry _ _ _ _)
  refine h1.trans fun f hf => ?_
  cases f <;> first | rfl | exact absurd hS.mem hf | exact absurd hS'.mem hf

/-- What a ban may change. -/
@[reducible] def banFields : List Field :=
  .groups :: .userGroups :: .bans :: .identity :: .closed :: teardownFields

theorem touches_applyBan (w : World) (env : Env) (target : UserId) (d : Nat)
    (reason actor : String) : Touches banFields w (w.applyBan env target d reason actor).2 := by
  have hg : Touches banFields w (w.mapStore ensureBannedGroup) :=
    .setGroups .refl (ensureBannedGroup_eq _)
  unfold applyBan
  split
  · exact .refl
  split
  · exact .refl
  split
  · exact .refl
  dsimp only
  split
  · exact hg
  · exact ((((touches_recordBan hg _ _).setIdentity target _).sendFrame _ _).setClosed
      target).trans ((touches_cleanupClient _ target).mono (by decide))

theorem touches_applyRegisterUser (w : World) (target : UserId) :
    Touches [.registeredUsers] w (w.applyRegisterUser target).2 := by
  unfold applyRegisterUser
  split
  · exact .refl
  split
  · exact .refl
  dsimp only
  split
  · exact .refl
  split
  · exact .refl
  · intro f hf
    cases f <;> first | rfl | exact absurd (by decide) hf

theorem touches_applyUnregisterUser (w : World) (target : UserId) :
    Touches [.registeredUsers] w (w.applyUnregisterUser target).2 := by
  unfold applyUnregisterUser
  split
  · exact .refl
  · intro f hf
    cases f <;> first | rfl | exact absurd (by decide) hf

theorem touches_reevaluateMemberMute (w : World) (m : UserId) (r : Uuid) :
    Touches [.serverMuted, .log] w (w.reevaluateMemberMute m r) := by
  unfold reevaluateMemberMute
  split
  · exact .refl
  dsimp only
  split
  · exact .refl
  · exact (Touches.refl.setServerMuted _ _).broadcast _

theorem touches_applyCreateRoom (w : World) (env : Env) (name : String) (parent : Option Uuid)
    (desc : Option String) :
    Touches [.rooms, .storedRooms, .log] w (w.applyCreateRoom env name parent desc).2 := by
  unfold applyCreateRoom
  split
  · exact .refl
  · refine .broadcast ?_ _
    intro f hf
    cases f <;> first | rfl | exact absurd (by decide) hf

theorem touches_reparentChild (p : Uuid) (w : World) (c : Uuid) :
    Touches [.rooms, .storedRooms, .log] w (reparentChild p w c) := by
  have h : Touches [.rooms, .storedRooms, .log] w
      (w.mapData fun d => (d.moveRoom c p).getD d) := by
    cases hd : w.state.data.moveRoom c p with
    | none =>
      simp only [mapData, hd, Option.getD_none]
      exact .refl
    | some d =>
      simp only [mapData, hd, Option.getD_some]
      exact Touches.editRoom .refl hd
  exact (h.updateRoom c _).broadcast _

theorem touches_reparentChildren (w : World) (room : Uuid) :
    Touches [.rooms, .storedRooms, .log] w (w.reparentChildren room) := by
  unfold reparentChildren
  split
  · exact .foldl (fun w c => touches_reparentChild _ w c) _
  · exact .refl

/-- What the deletion of a room may change. -/
@[reducible] def deleteRoomFields : List Field :=
  [.rooms, .memberships, .storedRooms, .roomAcls, .serverMuted, .log]

theorem touches_applyDeleteRoom (w : World) (room : Uuid) :
    Touches deleteRoomFields w (w.applyDeleteRoom room).2 := by
  have h1 := (touches_reparentChildren w room).mono (T := deleteRoomFields) (by decide)
  unfold applyDeleteRoom
  split
  · exact .refl
  dsimp only
  split
  · exact h1
  · rename_i data hd
    obtain ⟨-, -, rfl⟩ := StateData.deleteRoom_eq_some.mp hd
    refine h1.trans (.trans (.broadcast ?_ _)
      (.foldl (fun w m => (touches_reevaluateMemberMute w m _).mono (by decide)) _))
    intro f hf
    cases f <;> first | rfl | exact absurd (by decide) hf

theorem touches_applyCreateGroup (w : World) (name : String) (p : BitVec 32) :
    Touches [.groups, .log] w (w.applyCreateGroup name p).2 := by
  unfold applyCreateGroup
  repeat' split
  all_goals first | exact .refl | exact .broadcast (Touches.setGroups .refl ⟨_, rfl⟩) _

theorem touches_scrubGroup (name : String) (w : World) (u : UserId) :
    Touches [.identity, .log] w (scrubGroup name w u) := by
  unfold scrubGroup
  split
  · exact (Touches.refl.setIdentity u _).broadcast _
  · exact .refl

theorem touches_applyDeleteGroup (w : World) (name : String) :
    Touches [.groups, .userGroups, .identity, .log] w (w.applyDeleteGroup name).2 := by
  have h1 : ∀ l : List UserId, Touches [.groups, .userGroups, .identity, .log] w
      (l.foldl (scrubGroup name) w) :=
    .foldl fun w u => (touches_scrubGroup name w u).mono (by decide)
  have h2 : ∀ w' : World, Touches [.groups, .userGroups, .identity, .log] w'
      (w'.mapStore (·.removeGroupFromAllUsers name)) := fun w' =>
    Touches.refl.onlyMemberships (Persistence.onlyMemberships_removeGroupFromAllUsers _ name)
  have h3 : ∀ w' : World, Touches [.groups, .userGroups, .identity, .log] w'
      (w'.mapStore (·.deleteGroup name)) := fun w' => Touches.setGroups .refl ⟨_, rfl⟩
  unfold applyDeleteGroup
  split
  · exact .refl
  · exact .broadcast (((h1 _).trans (h2 _)).trans (h3 _)) _

theorem touches_applyModifyGroup (w : World) (name : String) (p : BitVec 32) :
    Touches [.groups, .log] w (w.applyModifyGroup name p).2 := by
  unfold applyModifyGroup Persistence.modifyGroup
  split
  · exact .refl
  · rename_i store h
    split at h
    · obtain rfl := Option.some.inj h
      exact (Touches.setGroups .refl ⟨_, rfl⟩).broadcast _
    · cases h

theorem touches_applyToggleGroupPermission (w : World) (name : String) (b : BitVec 32) (e : Bool) :
    Touches [.groups, .log] w (w.applyToggleGroupPermission name b e).2 := by
  unfold applyToggleGroupPermission
  split
  · exact .refl
  split
  · exact .refl
  split
  · exact .refl
  · rename_i p store h
    obtain ⟨old, -, h⟩ := Option.map_eq_some_iff.mp h
    obtain ⟨-, rfl⟩ := Prod.mk.inj h
    exact (Touches.setGroups .refl ⟨_, rfl⟩).broadcast _

theorem touches_mirrorGroup (key : PublicKey) (g : String) (add : Bool) (e : Nat) (w : World)
    (u : UserId) : Touches [.identity, .log] w (mirrorGroup key g add e w u) := by
  unfold mirrorGroup
  split
  · exact .refl
  · exact (Touches.refl.setIdentity u _).broadcast _

theorem touches_applySetUserGroupByKey (w : World) (key : PublicKey) (g : String) (add : Bool)
    (e : Nat) : Touches [.userGroups, .identity, .log] w
      (w.applySetUserGroupByKey key g add e).2 := by
  unfold applySetUserGroupByKey
  split
  · exact .refl
  split
  · exact .refl
  refine Touches.trans (Touches.onlyMemberships .refl ?_)
    (.foldl (fun w u => (touches_mirrorGroup key g add e w u).mono (by decide)) _)
  split
  · exact Persistence.onlyMemberships_addUserToGroupWithExpiry _ _ _ _
  · exact Persistence.onlyMemberships_removeUserFromGroup _ _ _

theorem touches_applySetUserGroup (w : World) (t : UserId) (g : String) (add : Bool) (e : Nat) :
    Touches [.userGroups, .identity, .log] w (w.applySetUserGroup t g add e).2 := by
  unfold applySetUserGroup
  split
  · exact .refl
  · exact touches_applySetUserGroupByKey _ _ _ _ _

theorem touches_sweepExpiredBans (w : World) (now : Nat) :
    Touches [.userGroups, .bans] w (w.mapStore fun s => (s.sweepExpiredBans now).2) := by
  have key : ∀ (ks : List PublicKey) (p : Persistence) (w : World),
      Touches [.userGroups, .bans] { w with store := p }
        { w with store := ks.foldl Persistence.liftBan p } := by
    intro ks
    induction ks with
    | nil => exact fun p w => .refl
    | cons k ks ih => exact fun p w => .trans (Touches.refl.liftBan k) (ih _ w)
  exact key _ w.store w

theorem touches_sweepExpired (w : World) (env : Env) :
    Touches [.userGroups, .bans, .identity, .log] w (w.sweepExpired env) := by
  unfold sweepExpired
  refine .trans ((touches_sweepExpiredBans w env.nowSecs).mono (by decide)) ?_
  refine .trans (Touches.onlyMemberships .refl ?_) (.foldl (fun w e => ?_) _)
  · exact Persistence.onlyMemberships_sweepExpiredMemberships _ _
  · exact .foldl (fun w u => (touches_mirrorGroup _ _ _ _ w u).mono (by decide)) _

theorem touches_applySetRoomAcl (cfg : Config) (w : World) (r : Uuid) (i : Bool)
    (es : List RoomAclEntry) (v : Nat) :
    Touches [.rooms, .roomAcls, .serverMuted, .log] w (w.applySetRoomAcl cfg r i es v).2 := by
  unfold applySetRoomAcl
  split
  · exact .refl
  split
  · exact .refl
  · rename_i data hd
    refine Touches.trans (.broadcast (.trans (Touches.editRoom .refl hd) ?_) _)
      (.foldl (fun w m => (touches_reevaluateMemberMute w m r).mono (by decide)) _)
    intro f hf
    cases f <;> first | rfl | exact absurd (by decide) hf

theorem touches_createParticipant (w : World) (o : OwnerId) (n : String) (l v : Option String)
    (gs : List String) (b : Bool) :
    Touches [.nextUserId, .members, .memberships, .log] w
      (w.createParticipant o n l v gs b).2 := by
  unfold createParticipant
  dsimp only
  split
  · refine .broadcast (.setUserRoom ?_ _ _) _
    intro f hf
    cases f <;> first | rfl | exact absurd (by decide) hf
  · intro f hf
    cases f <;> first | rfl | exact absurd (by decide) hf

theorem touches_removeParticipant (w : World) (u : UserId) :
    Touches [.members, .memberships, .userStatuses, .log] w (w.removeParticipant u) := by
  have h : Touches [.members, .memberships, .userStatuses, .log] w
      (w.mapState fun s => (s.removeClient u).2) := by
    intro f hf
    cases f <;> first | rfl | exact absurd (by decide) hf
  unfold removeParticipant
  dsimp only
  split
  · exact (h.removeUserMembership u).broadcast _
  · exact h.removeUserMembership u

theorem touches_moveParticipantToRoom (w : World) (u : UserId) (r : Uuid) :
    Touches [.memberships, .log] w (w.moveParticipantToRoom u r).2 := by
  have h : Touches [.memberships, .log] w (w.mapData (·.setUserRoom u r)) :=
    Touches.refl.setUserRoom u r
  unfold moveParticipantToRoom
  split
  · exact .refl
  dsimp only
  split
  · exact h.broadcast _
  split
  · exact h
  · exact h.broadcast _

/-! ## Handlers -/

theorem touches_handleClientHello (cfg : Config) (env : Env) (t : HandleId) (n : String)
    (k : List UInt8) (p : Option String) (w : World) :
    Touches [.pendingAuth, .publicKey, .closed, .log] w (handleClientHello cfg env t n k p w) := by
  unfold handleClientHello
  split
  · exact .sendAuthFailed .refl _ _
  split
  · exact .sendAuthFailed .refl _ _
  · refine .sendFrame (.setConn ?_ _ _ ?_) _ _
    · intro f hf
      cases f <;> first | rfl | exact absurd (by decide) hf
    · exact fun c => ⟨fun _ => rfl, (absurd (by decide) ·), fun _ => rfl, fun _ => rfl,
        fun _ => rfl⟩

theorem touches_banCheck (w : World) (key : PublicKey) (now : Nat) :
    Touches [.userGroups, .bans] w (w.mapStore fun _ => (banCheck w.store key now).2) := by
  have h1 : Touches [.userGroups, .bans] w
      (w.mapStore fun _ => liftExpiredBan w.store key now) := by
    unfold liftExpiredBan
    split
    · split
      · exact Touches.refl.liftBan key
      · exact .refl
    · exact .refl
  exact h1.onlyMemberships (g := fun _ => (banCheck w.store key now).2)
    (Persistence.onlyMemberships_activeUserGroups (liftExpiredBan w.store key now) key now)

theorem touches_markAuthenticated (w : World) (env : Env) (t : HandleId) (p : PendingAuth) :
    Touches [.authenticated, .knownKeys, .userGroups, .identity] w
      (w.markAuthenticated env t p) := by
  have h1 : Touches [.authenticated, .knownKeys, .userGroups, .identity] w
      (w.mapState (·.setConn t.user fun c => { c with authenticated := true })) :=
    Touches.refl.setConn _ _ fun c =>
      ⟨fun _ => rfl, fun _ => rfl, (absurd (by decide) ·), fun _ => rfl, fun _ => rfl⟩
  have h2 : ∀ w' : World, Touches [.authenticated, .knownKeys, .userGroups, .identity] w'
      (w'.mapStore (·.addKnownKey p.publicKey)) := by
    intro w' f hf
    cases f <;> first | rfl | exact absurd (by decide) hf
  exact ((h1.trans (h2 _)).onlyMemberships
    (Persistence.onlyMemberships_activeUserGroups _ _ _)).setIdentity _ _

/-- What a successful authentication may change after its checks. -/
@[reducible] def publishFields : List Field :=
  .authenticated :: .knownKeys :: .userGroups :: .identity :: evictFields

theorem touches_enterServer (cfg : Config) (w : World) (t : HandleId) (key : PublicKey) :
    Touches [.memberships, .log] w (w.enterServer cfg t key) := by
  have h : Touches [.memberships, .log] w (w.mapData (·.setUserRoom t.user (w.initialRoom key))) :=
    Touches.refl.setUserRoom _ _
  unfold enterServer
  dsimp only
  split
  · exact ((h.sendServerState cfg t).broadcast _).sendFrame _ _
  · exact (h.sendServerState cfg t).broadcast _

theorem touches_publishAuth (cfg : Config) (w : World) (env : Env) (t : HandleId)
    (p : PendingAuth) (s : SessionEntry) :
    Touches publishFields w (w.publishAuth cfg env t p s) := by
  have h1 := (touches_markAuthenticated w env t p).mono (T := publishFields) (by decide)
  have h2 : ∀ w' key name, Touches publishFields w'
      (w'.evictSupersededSessions key name t.user) := fun w' key name =>
    (touches_evictSupersededSessions w' key name t.user).mono (by decide)
  have h3 : ∀ w' : World, Touches publishFields w' (w'.mapState (·.addSession t.user s)) := by
    intro w' f hf
    cases f <;> first | rfl | exact absurd (by decide) hf
  exact ((h1.trans (h2 _ _ _)).trans (h3 _)).trans
    ((touches_enterServer cfg _ t p.publicKey).mono (by decide))

theorem touches_handleAuthenticate (cfg : Config) (env : Env) (t : HandleId) (sig : List UInt8)
    (ts : Int) (cert : Option SessionCertificate) (w : World) :
    Touches (.pendingAuth :: .bans :: publishFields) w
      (handleAuthenticate cfg env t sig ts cert w) := by
  have htake : ∀ p s, w.state.takePendingAuth t.user = (p, s) →
      Touches (.pendingAuth :: .bans :: publishFields) w (w.mapState fun _ => s) := by
    intro p s h
    obtain ⟨-, rfl⟩ := Prod.mk.inj h
    intro f hf
    cases f <;> first | rfl | exact absurd (by decide) hf
  unfold handleAuthenticate
  split
  · exact .sendAuthFailed .refl _ _
  · rename_i pending state h
    have h1 := htake _ _ h
    dsimp only
    split
    · exact h1.sendAuthFailed _ _
    · have h2 := h1.trans ((touches_banCheck _ pending.publicKey env.nowSecs).mono (by decide))
      split
      · exact h2.sendAuthFailed _ _
      split
      · exact h2.sendAuthFailed _ _
      · exact h2.trans ((touches_publishAuth cfg _ env t pending _).mono (by decide))

theorem touches_broadcastChatInRoom (w : World) (u : UserId) (r : Uuid) (x : String) (b : Bool)
    (id : List UInt8) (ts : Int) (a : Option ChatAttachment) :
    Touches [.log] w (w.broadcastChatInRoom u r x b id ts a).2 := by
  unfold broadcastChatInRoom
  split
  · exact .refl
  split
  · dsimp only
    split
    · exact .sendPermissionDenied .refl _ _ _
    · exact .refl
  · exact .foldl (fun w c => Touches.refl.sendFrame _ _) _

theorem touches_handleDirectMessage (env : Env) (t : HandleId) (u : UserId) (x : String)
    (id : List UInt8) (ts : Int) (w : World) :
    Touches [.log] w (handleDirectMessage env t u x id ts w) := by
  unfold handleDirectMessage
  split
  · exact .sendCommandResult .refl _ _ _ _
  split
  · exact .sendFrame .refl _ _
  · exact .sendCommandResult .refl _ _ _ _

theorem touches_saveLastRoom (w : World) (u : UserId) (r : Uuid) :
    Touches [.registeredUsers] w (w.saveLastRoom u r) := by
  unfold saveLastRoom
  split
  · split
    · simp only [mapStore, Persistence.updateUserLastRoom]
      split
      · intro f hf
        cases f <;> first | rfl | exact absurd (by decide) hf
      · exact .refl
    · exact .refl
  · exact .refl

theorem touches_refreshJoinMute (w : World) (t : HandleId) (r : Uuid) :
    Touches [.serverMuted, .log] w (w.refreshJoinMute t r) := by
  unfold refreshJoinMute
  dsimp only
  split
  · exact (Touches.refl.setServerMuted _ _).broadcast _
  · exact Touches.refl.setServerMuted _ _

/-- What a join may change. -/
@[reducible] def joinFields : List Field := [.memberships, .serverMuted, .registeredUsers, .log]

theorem touches_handleJoinRoom (t : HandleId) (r : Option RoomId) (w : World) :
    Touches joinFields w (handleJoinRoom t r w) := by
  unfold handleJoinRoom
  refine .requirePermission _ _ _ ?_
  dsimp only
  split
  · exact .sendCommandResult .refl _ _ _ _
  · refine .sendCommandResult (.broadcast ?_ _) _ _ _ _
    exact ((Touches.refl.setUserRoom _ _).trans
      ((touches_refreshJoinMute _ t _).mono (by decide))).trans
        ((touches_saveLastRoom _ _ _).mono (by decide))

theorem touches_handleCreateRoom (env : Env) (t : HandleId) (n : String) (p : Option RoomId)
    (d : Option String) (w : World) :
    Touches [.rooms, .storedRooms, .log] w (handleCreateRoom env t n p d w) := by
  unfold handleCreateRoom
  refine .requirePermission _ _ _ ?_
  have h := touches_applyCreateRoom w env n (p.bind uuidFromRoomId) d
  split
  · rename_i heq
    rw [heq] at h
    exact h.sendCommandResult _ _ _ _
  · rename_i heq
    rw [heq] at h
    exact h.sendCommandResult _ _ _ _

theorem touches_handleDeleteRoom (t : HandleId) (r : Option RoomId) (w : World) :
    Touches deleteRoomFields w (handleDeleteRoom t r w) := by
  unfold handleDeleteRoom
  refine .requirePermission _ _ _ ?_
  have h := touches_applyDeleteRoom w (roomIdOrRoot r)
  split
  · rename_i heq
    rw [heq] at h
    exact h.sendCommandResult _ _ _ _
  · rename_i heq
    rw [heq] at h
    exact h.sendCommandResult _ _ _ _

theorem touches_handleRenameRoom (t : HandleId) (r : Option RoomId) (n : String) (w : World) :
    Touches [.rooms, .storedRooms, .log] w (handleRenameRoom t r n w) := by
  unfold handleRenameRoom
  refine .requirePermission _ _ _ ?_
  dsimp only
  split
  · exact .sendCommandResult .refl _ _ _ _
  · rename_i d hd
    exact (((Touches.editRoom .refl hd).updateRoom _ _).broadcast _).sendCommandResult _ _ _ _

theorem touches_handleMoveRoom (t : HandleId) (r p : Option RoomId) (w : World) :
    Touches [.rooms, .storedRooms, .log] w (handleMoveRoom t r p w) := by
  unfold handleMoveRoom
  refine .requirePermission _ _ _ (.requirePermission _ _ _ ?_)
  dsimp only
  split
  · exact .sendCommandResult .refl _ _ _ _
  split
  · exact .sendCommandResult .refl _ _ _ _
  split
  · exact .sendCommandResult .refl _ _ _ _
  · rename_i d hd
    exact (((Touches.editRoom .refl hd).updateRoom _ _).broadcast _).sendCommandResult _ _ _ _

theorem touches_handleSetRoomDescription (t : HandleId) (r : Option RoomId) (x : String)
    (w : World) : Touches [.rooms, .storedRooms, .log] w (handleSetRoomDescription t r x w) := by
  unfold handleSetRoomDescription
  refine .requirePermission _ _ _ ?_
  dsimp only
  split
  · exact .sendCommandResult .refl _ _ _ _
  · rename_i d hd
    exact (((Touches.editRoom .refl hd).updateRoom _ _).broadcast _).sendCommandResult _ _ _ _

theorem touches_handleSetUserStatus (t : HandleId) (m d : Bool) (w : World) :
    Touches [.userStatuses, .log] w (handleSetUserStatus t m d w) :=
  (Touches.refl.setUserStatus _ _).broadcast _

theorem touches_handleSetServerMute (t : HandleId) (u : UserId) (m : Bool) (w : World) :
    Touches [.serverMuted, .manuallyServerMuted, .log] w (handleSetServerMute t u m w) := by
  unfold handleSetServerMute
  refine .requirePermission _ _ _ ?_
  split
  · exact .sendCommandResult .refl _ _ _ _
  · refine (((Touches.setHandle .refl _ _ ?_).setServerMuted _ _).broadcast _).sendCommandResult
      _ _ _ _
    exact fun _ => ⟨fun _ => rfl, fun _ => rfl, fun _ => rfl, (absurd (by decide) ·), fun _ => rfl⟩

theorem touches_handleElevate (cfg : Config) (t : HandleId) (p : String) (w : World) :
    Touches [.isSuperuser, .log] w (handleElevate cfg t p w) := by
  unfold handleElevate
  refine .requirePermission _ _ _ ?_
  split
  · exact .sendCommandResult .refl _ _ _ _
  split
  · exact .sendCommandResult .refl _ _ _ _
  · refine ((Touches.setHandle .refl _ _ ?_).broadcast _).sendCommandResult _ _ _ _
    exact fun _ => ⟨fun _ => rfl, (absurd (by decide) ·), fun _ => rfl, fun _ => rfl, fun _ => rfl⟩

theorem touches_handleControllerHello (t : HandleId) (w : World) :
    Touches [.isController, .memberships, .userStatuses, .log] w (handleControllerHello t w) := by
  unfold handleControllerHello
  split
  · exact .sendCommandResult .refl _ _ _ _
  split
  · exact .sendCommandResult .refl _ _ _ _
  · refine (((Touches.setHandle .refl _ _ ?_).removeUserMembership _).broadcast
      _).sendCommandResult _ _ _ _
    exact fun _ => ⟨(absurd (by decide) ·), fun _ => rfl, fun _ => rfl, fun _ => rfl, fun _ => rfl⟩

theorem touches_handleRequestRegisteredUsers (env : Env) (t : HandleId) (w : World) :
    Touches [.userGroups, .log] w (handleRequestRegisteredUsers env t w) := by
  unfold handleRequestRegisteredUsers
  refine .requirePermission _ _ _ (.sendFrame (.onlyMemberships .refl ?_) _ _)
  have key : ∀ (l : List (PublicKey × RegisteredUser)) (online : List PublicKey)
      (acc : List RegisteredUserInfo × Persistence), Persistence.OnlyMemberships acc.2
        (l.foldl (registeredUserInfo online env.nowSecs) acc).2 := by
    intro l
    induction l with
    | nil => exact fun _ acc => .refl acc.2
    | cons e l ih =>
      exact fun online acc =>
        (Persistence.onlyMemberships_activeUserGroups acc.2 e.1 env.nowSecs).trans (ih _ _)
  exact key _ _ ([], w.store)

theorem touches_withParticipant (t : HandleId) (c : String) (u : UserId) {rest : World → World}
    {w : World} (h : Touches S w (rest w)) [Listed .log S] :
    Touches S w (withParticipant t c u rest w) := by
  unfold withParticipant
  split
  · exact h
  · exact .sendCommandResult .refl _ _ _ _

theorem touches_handleMoveParticipant (t : HandleId) (u : UserId) (r : Option RoomId) (w : World) :
    Touches [.memberships, .log] w (handleMoveParticipant t u r w) := by
  refine touches_withParticipant t _ u ?_
  have h := touches_moveParticipantToRoom w u (roomIdOrRoot r)
  split
  · rename_i heq
    rw [heq] at h
    exact h.sendCommandResult _ _ _ _
  · rename_i heq
    rw [heq] at h
    exact h.sendCommandResult _ _ _ _

theorem touches_handleParticipantChat (env : Env) (t : HandleId) (u : UserId) (x : String)
    (b : Option Bool) (r : Option RoomId) (w : World) :
    Touches [.log] w (handleParticipantChat env t u x b r w) := by
  refine touches_withParticipant t _ u ?_
  split
  · exact touches_broadcastChatInRoom _ _ _ _ _ _ _ _
  · exact touches_broadcastChatInRoom _ _ _ _ _ _ _ _

theorem touches_manageAcl (t : HandleId) (c : String) {op : World → OpResult} {w : World}
    (h : Touches S w (op w).2) [Listed .log S] :
    Touches S w (manageAcl t c op w) :=
  .requirePermission _ _ _ (.replyResult _ _ h)

theorem touches_handleRegisterUser (t : HandleId) (u : Option UserId) (w : World) :
    Touches [.registeredUsers, .log] w (handleRegisterUser t u w) := by
  unfold handleRegisterUser
  exact .requirePermission _ _ _
    (.replyResult _ _ ((touches_applyRegisterUser w _).mono (by decide)))

theorem touches_handleUnregisterUser (t : HandleId) (u : Option UserId) (w : World) :
    Touches [.registeredUsers, .log] w (handleUnregisterUser t u w) := by
  unfold handleUnregisterUser
  exact .requirePermission _ _ _
    (.replyResult _ _ ((touches_applyUnregisterUser w _).mono (by decide)))

theorem touches_handleKickUser (t : HandleId) (u : UserId) (r : String) (w : World) :
    Touches (.closed :: teardownFields) w (handleKickUser t u r w) := by
  unfold handleKickUser
  refine .requirePermission _ _ _ ?_
  split
  · exact .sendCommandResult .refl _ _ _ _
  · exact .replyResult _ _ (touches_applyKick _ _ _ _)

theorem touches_handleBanUser (env : Env) (t : HandleId) (u : UserId) (d : Nat) (r : String)
    (w : World) : Touches banFields w (handleBanUser env t u d r w) := by
  unfold handleBanUser
  refine .requirePermission _ _ _ ?_
  split
  · exact .sendCommandResult .refl _ _ _ _
  · exact .replyResult _ _ (touches_applyBan _ _ _ _ _ _)

theorem touches_handleSetRoomAcl (cfg : Config) (t : HandleId) (r : List UInt8) (i : Bool)
    (es : List RoomAclEntry) (v : Nat) (w : World) :
    Touches [.rooms, .roomAcls, .serverMuted, .log] w (handleSetRoomAcl cfg t r i es v w) := by
  unfold handleSetRoomAcl
  split
  · exact .sendCommandResult .refl _ _ _ _
  · exact .requirePermission _ _ _ (.replyResult _ _ (touches_applySetRoomAcl _ _ _ _ _ _))

theorem touches_handleSetRegisteredUserGroup (t : HandleId) (k : List UInt8) (g : String)
    (add : Bool) (e : Nat) (w : World) : Touches [.userGroups, .identity, .log] w
      (handleSetRegisteredUserGroup t k g add e w) := by
  refine touches_manageAcl _ _ ?_
  split
  · exact .refl
  · exact touches_applySetUserGroupByKey _ _ _ _ _

theorem touches_handleRegisterParticipant (t : HandleId) (n : String) (l : Option String)
    (w : World) : Touches [.nextUserId, .members, .memberships, .log] w
      (handleRegisterParticipant t n l w) := by
  unfold handleRegisterParticipant
  dsimp only
  exact .sendFrame (touches_createParticipant w _ _ _ _ _ _) _ _

theorem touches_handleUnregisterParticipant (t : HandleId) (u : UserId) (w : World) :
    Touches [.members, .memberships, .userStatuses, .log] w
      (handleUnregisterParticipant t u w) :=
  touches_withParticipant t _ u ((touches_removeParticipant w u).sendCommandResult _ _ _ _)

theorem touches_handleSetParticipantStatus (t : HandleId) (u : UserId) (m d : Bool) (w : World) :
    Touches [.userStatuses, .log] w (handleSetParticipantStatus t u m d w) :=
  touches_withParticipant t _ u ((Touches.refl.setUserStatus _ _).broadcast _)

/-! ## Payloads and events -/

/-- The fields the handler of a payload may change. -/
def footprint : Payload → List Field
  | .clientHello .. => [.pendingAuth, .publicKey, .closed, .log]
  | .authenticate .. => .pendingAuth :: .bans :: publishFields
  | .chatMessage .. | .directMessage .. | .requestStateSync | .participantChat .. => [.log]
  | .joinRoom _ => joinFields
  | .createRoom .. | .renameRoom .. | .moveRoom .. | .setRoomDescription .. =>
    [.rooms, .storedRooms, .log]
  | .deleteRoom _ => deleteRoomFields
  | .setUserStatus .. | .setParticipantStatus .. => [.userStatuses, .log]
  | .registerUser _ | .unregisterUser _ => [.registeredUsers, .log]
  | .controllerHello => [.isController, .memberships, .userStatuses, .log]
  | .registerParticipant .. => [.nextUserId, .members, .memberships, .log]
  | .unregisterParticipant _ => [.members, .memberships, .userStatuses, .log]
  | .moveParticipant .. => [.memberships, .log]
  | .kickUser .. => .closed :: teardownFields
  | .banUser .. => banFields
  | .setServerMute .. => [.serverMuted, .manuallyServerMuted, .log]
  | .elevate _ => [.isSuperuser, .log]
  | .createGroup .. | .modifyGroup .. | .toggleGroupPermission .. => [.groups, .log]
  | .deleteGroup _ => [.groups, .userGroups, .identity, .log]
  | .setUserGroup .. | .setRegisteredUserGroup .. => [.userGroups, .identity, .log]
  | .setRoomAcl .. => [.rooms, .roomAcls, .serverMuted, .log]
  | .requestRegisteredUsers => [.userGroups, .log]
  | .disconnect | .other => []

theorem touches_handleController (env : Env) (t : HandleId) (p : Payload) (w : World) :
    Touches (footprint p) w (handleController env t p w) := by
  unfold handleController
  split
  · exact .refl
  cases p
  case registerParticipant => exact touches_handleRegisterParticipant _ _ _ _
  case unregisterParticipant => exact touches_handleUnregisterParticipant _ _ _
  case moveParticipant => exact touches_handleMoveParticipant _ _ _ _
  case setParticipantStatus => exact touches_handleSetParticipantStatus _ _ _ _ _
  case participantChat => exact touches_handleParticipantChat _ _ _ _ _ _ _
  all_goals exact .refl

theorem touches_handleAuthenticated (cfg : Config) (env : Env) (t : HandleId) (p : Payload)
    (w : World) : Touches (footprint p) w (handleAuthenticated cfg env t p w) := by
  unfold handleAuthenticated
  cases p
  case chatMessage => exact touches_broadcastChatInRoom _ _ _ _ _ _ _ _
  case directMessage => exact touches_handleDirectMessage _ _ _ _ _ _ _
  case joinRoom => exact touches_handleJoinRoom _ _ _
  case createRoom => exact touches_handleCreateRoom _ _ _ _ _ _
  case deleteRoom => exact touches_handleDeleteRoom _ _ _
  case renameRoom => exact touches_handleRenameRoom _ _ _ _
  case moveRoom => exact touches_handleMoveRoom _ _ _ _
  case setRoomDescription => exact touches_handleSetRoomDescription _ _ _ _
  case requestStateSync => exact Touches.sendServerState (S := [.log]) .refl _ _
  case setUserStatus => exact touches_handleSetUserStatus _ _ _ _
  case registerUser => exact touches_handleRegisterUser _ _ _
  case unregisterUser => exact touches_handleUnregisterUser _ _ _
  case controllerHello => exact touches_handleControllerHello _ _
  case kickUser => exact touches_handleKickUser _ _ _ _
  case banUser => exact touches_handleBanUser _ _ _ _ _ _
  case setServerMute => exact touches_handleSetServerMute _ _ _ _
  case elevate => exact touches_handleElevate _ _ _ _
  case createGroup =>
    exact touches_manageAcl (S := [.groups, .log]) _ _ (touches_applyCreateGroup _ _ _)
  case deleteGroup =>
    exact touches_manageAcl (S := [.groups, .userGroups, .identity, .log]) _ _
      (touches_applyDeleteGroup _ _)
  case modifyGroup =>
    exact touches_manageAcl (S := [.groups, .log]) _ _ (touches_applyModifyGroup _ _ _)
  case toggleGroupPermission =>
    exact touches_manageAcl (S := [.groups, .log]) _ _ (touches_applyToggleGroupPermission _ _ _ _)
  case setUserGroup =>
    exact touches_manageAcl (S := [.userGroups, .identity, .log]) _ _
      (touches_applySetUserGroup _ _ _ _ _)
  case setRoomAcl => exact touches_handleSetRoomAcl _ _ _ _ _ _ _
  case requestRegisteredUsers => exact touches_handleRequestRegisteredUsers _ _ _
  case setRegisteredUserGroup => exact touches_handleSetRegisteredUserGroup _ _ _ _ _ _
  all_goals exact touches_handleController _ _ _ _

theorem touches_handleEnvelope (cfg : Config) (env : Env) (t : HandleId) (p : Payload)
    (w : World) : Touches (footprint p) w (handleEnvelope cfg env t p w) := by
  unfold handleEnvelope
  split
  · exact touches_handleClientHello _ _ _ _ _ _ _
  · exact touches_handleAuthenticate _ _ _ _ _ _ _
  · exact .refl
  · exact .refl
  split
  · exact touches_handleAuthenticated _ _ _ _ _
  · exact .refl

/-- The fields an event may change. -/
def Event.footprint : Event → List Field
  | .connect => [.nextUserId, .opened, .members]
  | .envelope _ payload => Server.footprint payload
  | .readTimeout _ => [.log]
  | .datagram .. => [.voiceRateLimits, .log]
  | .connectionLost _ => .tornDown :: teardownFields
  | .sweep => [.userGroups, .bans, .identity, .log]

theorem touches_handleConnect (w : World) :
    Touches [.nextUserId, .opened, .members] w w.handleConnect := by
  have h : Touches [.nextUserId, .opened, .members] w
      ((w.mapState fun s => { s with nextUserId := s.nextUserId + 1 }).mapState
        (·.setConn w.state.nextUserId fun c => { c with opened := true })) := by
    refine .setConn ?_ _ _ fun _ =>
      ⟨(absurd (by decide) ·), fun _ => rfl, fun _ => rfl, fun _ => rfl, fun _ => rfl⟩
    intro f hf
    cases f <;> first | rfl | exact absurd (by decide) hf
  refine h.trans fun f hf => ?_
  cases f <;> first | rfl | exact absurd (by decide) hf

theorem touches_handleDatagram (env : Env) (u : UserId) (d : VoiceDatagram) (n : Nat) (w : World) :
    Touches [.voiceRateLimits, .log] w (handleDatagram env u d n w) := by
  have h : Touches [.voiceRateLimits, .log] w
      (w.mapState fun _ => (buildRelayPacket w.state env u d n).2) := by
    unfold buildRelayPacket
    split
    · exact .refl
    dsimp only
    split
    · exact .refl
    split
    · exact .refl
    split <;>
    · intro f hf
      cases f <;> first | rfl | exact absurd (by decide) hf
  unfold handleDatagram
  dsimp only
  split
  · exact h
  · exact h.emit _

theorem touches_handleConnectionLost (w : World) (u : UserId) :
    Touches (.tornDown :: teardownFields) w (w.handleConnectionLost u) := by
  unfold handleConnectionLost
  dsimp only
  split
  · exact (Touches.refl.beginTeardown u).trans ((touches_cleanupClient _ u).mono (by decide))
  · exact .beginTeardown .refl u

/-- **A field outside the footprint of an event is as it was.** -/
theorem touches_step (cfg : Config) (env : Env) (w : World) (e : Event) :
    Touches e.footprint w (step cfg env w e) := by
  unfold step
  cases e with
  | connect => exact touches_handleConnect w
  | sweep => exact touches_sweepExpired w env
  | envelope t p =>
    dsimp only
    split
    · exact touches_handleEnvelope cfg env t p w
    · exact .refl
  | readTimeout t =>
    dsimp only
    split
    · exact Touches.sendFrame (S := [.log]) .refl _ _
    · exact .refl
  | datagram u d n =>
    dsimp only
    split
    · exact touches_handleDatagram env u d n w
    · exact .refl
  | connectionLost u =>
    dsimp only
    split
    · exact touches_handleConnectionLost w u
    · exact .refl

end Rumble.Server
