import Rumble.Server.Handlers

/-!
# Names of participants

A controller names its participants freely. Two worlds are `Alike` when they differ in those names
and in what has been sent. The names are kept in the member table alone and no operation reads them
back but to send them, so every operation takes alike worlds to alike worlds, whatever the two send.
-/

namespace Rumble.Server

open Rumble.Lib

/-! ## Forgetting the names -/

def Identity.nameless (i : Identity) : Identity := { i with displayName := "" }

/-- The name of a client is a cell of its connection and stays. -/
def Member.nameless : Member → Member
  | .client => .client
  | .owned owner i => .owned owner i.nameless

namespace ServerState

/-- The state with the names of its participants forgotten. -/
def nameless (s : ServerState) : ServerState :=
  { s with members := s.members.mapValues Member.nameless }

section Nameless

variable (s : ServerState) (u v : UserId) (owner : OwnerId)

theorem getMember_nameless : s.nameless.getMember u = (s.getMember u).map Member.nameless :=
  Table.get_mapValues _ _ _

@[simp] theorem data_nameless : s.nameless.data = s.data := rfl

@[simp] theorem handle_nameless : s.nameless.handle = s.handle := rfl

@[simp] theorem getClient_nameless : s.nameless.getClient u = s.getClient u := by
  show (s.nameless.getMember u == some .client) = (s.getMember u == some .client)
  rw [getMember_nameless]
  cases s.getMember u with
  | none => rfl
  | some m => cases m <;> rfl

@[simp] theorem isParticipantOf_nameless :
    s.nameless.isParticipantOf u owner = s.isParticipantOf u owner := by
  have h : s.nameless.members.get u = (s.members.get u).map Member.nameless :=
    s.getMember_nameless u
  unfold isParticipantOf
  rw [h]
  cases s.members.get u with
  | none => rfl
  | some m => cases m <;> rfl

/-- A filter that does not read names lists the same keys. -/
theorem keys_nameless {p : UserId × Member → Bool} (hp : ∀ u m, p (u, m.nameless) = p (u, m)) :
    (s.nameless.members.toPairs.filter p).map Prod.fst =
      (s.members.toPairs.filter p).map Prod.fst := by
  show ((s.members.mapValues Member.nameless).toPairs.filter p).map Prod.fst = _
  rw [Table.toPairs_mapValues, List.filter_map, List.map_map]
  simp only [Function.comp_def, hp]

@[simp] theorem snapshotClients_nameless : s.nameless.snapshotClients = s.snapshotClients := by
  unfold snapshotClients
  refine s.keys_nameless fun u m => ?_
  cases m <;> rfl

@[simp] theorem membersByOwner_nameless :
    s.nameless.membersByOwner owner = s.membersByOwner owner := by
  unfold membersByOwner
  refine s.keys_nameless fun u m => ?_
  cases m <;> rfl

/-! ### Member edits -/

@[simp] theorem nameless_registerClient :
    (s.registerClient u).nameless = s.nameless.registerClient u := by
  unfold nameless registerClient
  rw [Table.mapValues_set]
  rfl

@[simp] theorem nameless_registerParticipant (i : Identity) :
    (s.registerParticipant u owner i).nameless =
      s.nameless.registerParticipant u owner i.nameless := by
  unfold nameless registerParticipant
  rw [Table.mapValues_set]
  rfl

@[simp] theorem nameless_removeClient :
    (s.removeClient u).2.nameless = (s.nameless.removeClient u).2 := by
  unfold nameless removeClient
  rw [Table.mapValues_del]

@[simp] theorem nameless_forgetClient :
    (s.forgetClient u).nameless = s.nameless.forgetClient u := by
  have hdel := Table.mapValues_del Member.nameless s.members u
  unfold forgetClient removeSession removeClient nameless
  dsimp only
  rw [← hdel]
  split
  · rfl
  · rfl

end Nameless

end ServerState

namespace World

/-! ### The voice relay -/

theorem effectiveSender_nameless (s : ServerState) (u : UserId) (dgram : VoiceDatagram) :
    effectiveSender s.nameless u dgram = effectiveSender s u dgram := by
  unfold effectiveSender
  simp only [ServerState.getClient_nameless, ServerState.isParticipantOf_nameless]
  rfl

/-- The relay edits the state apart from the names. -/
theorem nameless_buildRelayPacket (s : ServerState) (env : Env) (u : UserId)
    (dgram : VoiceDatagram) (len : Nat) : (buildRelayPacket s env u dgram len).2.nameless =
      (buildRelayPacket s.nameless env u dgram len).2 := by
  unfold buildRelayPacket
  rw [effectiveSender_nameless]
  cases effectiveSender s u dgram with
  | none => rfl
  | some sender =>
    have hrate : (checkVoiceRate s.nameless env u len).1 = (checkVoiceRate s env u len).1 := rfl
    dsimp only
    rw [s.getClient_nameless, s.handle_nameless, s.data_nameless, hrate]
    split
    · rfl
    split
    · rfl
    split
    · rfl
    · rfl

/-! ## Alike worlds -/

/-- The worlds differ in the names of participants and in what has been sent, at most. -/
structure Alike (w w' : World) : Prop where
  state : w'.state.nameless = w.state.nameless
  store : w'.store = w.store

namespace Alike

variable {w w' : World}

theorem refl (w : World) : Alike w w := ⟨rfl, rfl⟩

theorem symm (h : Alike w w') : Alike w' w := ⟨h.state.symm, h.store.symm⟩

theorem trans {w'' : World} (h : Alike w w') (h' : Alike w' w'') : Alike w w'' :=
  ⟨h'.state.trans h.state, h'.store.trans h.store⟩

/-! ### What alike worlds agree on -/

section Reads

variable (h : Alike w w')
include h

/-- A reading that ignores the names. -/
theorem read {α : Type} (f : ServerState → α) (hf : ∀ s, f s.nameless = f s) :
    f w'.state = f w.state := by
  rw [← hf, h.state, hf]

theorem data : w'.state.data = w.state.data := h.read ServerState.data fun _ => rfl

theorem conn : w'.state.conn = w.state.conn := h.read ServerState.conn fun _ => rfl

theorem handle : w'.state.handle = w.state.handle := h.read ServerState.handle fun _ => rfl

theorem nextUserId : w'.state.nextUserId = w.state.nextUserId :=
  h.read ServerState.nextUserId fun _ => rfl

theorem pendingAuth : w'.state.pendingAuth = w.state.pendingAuth :=
  h.read ServerState.pendingAuth fun _ => rfl

theorem getUserPublicKey : w'.state.getUserPublicKey = w.state.getUserPublicKey :=
  h.read ServerState.getUserPublicKey fun _ => rfl

theorem userIdsWithKey : w'.state.userIdsWithKey = w.state.userIdsWithKey :=
  h.read ServerState.userIdsWithKey fun _ => rfl

theorem getMember (u : UserId) :
    (w'.state.getMember u).map Member.nameless = (w.state.getMember u).map Member.nameless := by
  rw [← ServerState.getMember_nameless, h.state, ServerState.getMember_nameless]

theorem isMember (u : UserId) :
    (w'.state.getMember u).isSome = (w.state.getMember u).isSome := by
  rw [← Option.isSome_map (f := Member.nameless), h.getMember, Option.isSome_map]

theorem getClient (u : UserId) : w'.state.getClient u = w.state.getClient u :=
  h.read (·.getClient u) fun s => s.getClient_nameless u

theorem isParticipantOf (u : UserId) (owner : OwnerId) :
    w'.state.isParticipantOf u owner = w.state.isParticipantOf u owner :=
  h.read (·.isParticipantOf u owner) fun s => s.isParticipantOf_nameless u owner

theorem snapshotClients : w'.state.snapshotClients = w.state.snapshotClients :=
  h.read (·.snapshotClients) fun s => s.snapshotClients_nameless

theorem membersByOwner (owner : OwnerId) :
    w'.state.membersByOwner owner = w.state.membersByOwner owner :=
  h.read (·.membersByOwner owner) fun s => s.membersByOwner_nameless owner

theorem permissions (t : HandleId) (room : Uuid) :
    evaluateUserPermissions w'.state w'.store t room =
      evaluateUserPermissions w.state w.store t room := by
  unfold evaluateUserPermissions
  rw [h.data, h.conn, h.handle, h.store]

end Reads

/-! ### Edits -/

section Edits

variable (h : Alike w w')
include h

/-- Whatever the two worlds send. -/
theorem sent {o o' : Out} : Alike (w.emit o) (w'.emit o') := ⟨h.state, h.store⟩

theorem sentIf {o o' : Out} (c c' : Prop) [Decidable c] [Decidable c'] :
    Alike (if c then w.emit o else w) (if c' then w'.emit o' else w') := by
  split
  · split
    · exact h.sent
    · exact ⟨h.state, h.store⟩
  · split
    · exact ⟨h.state, h.store⟩
    · exact h

theorem mapData (f : StateData → StateData) : Alike (w.mapData f) (w'.mapData f) := by
  refine ⟨?_, h.store⟩
  show { w'.state.nameless with data := f w'.state.data } =
    { w.state.nameless with data := f w.state.data }
  rw [h.state, h.data]

theorem mapStore (f : Persistence → Persistence) : Alike (w.mapStore f) (w'.mapStore f) :=
  ⟨h.state, congrArg f h.store⟩

/-- An edit that commutes with forgetting the names. -/
theorem mapState {f : ServerState → ServerState} (hf : ∀ s, (f s).nameless = f s.nameless) :
    Alike (w.mapState f) (w'.mapState f) :=
  ⟨(hf _).trans ((congrArg f h.state).trans (hf _).symm), h.store⟩

theorem setConn (u : UserId) (f : Conn → Conn) :
    Alike (w.mapState (·.setConn u f)) (w'.mapState (·.setConn u f)) :=
  h.mapState (f := (·.setConn u f)) fun _ => rfl

theorem setHandle (t : HandleId) (f : ClientHandle → ClientHandle) :
    Alike (w.mapState (·.setHandle t f)) (w'.mapState (·.setHandle t f)) :=
  h.mapState (f := (·.setHandle t f)) fun _ => rfl

theorem setIdentity (u : UserId) (f : Identity → Identity) :
    Alike (w.mapState (·.setIdentity u f)) (w'.mapState (·.setIdentity u f)) :=
  h.setConn u _

theorem setState {s s' : ServerState} (hs : s'.nameless = s.nameless) :
    Alike (w.mapState fun _ => s) (w'.mapState fun _ => s') := ⟨hs, h.store⟩

theorem foldl {α : Type} {f : World → α → World}
    (hf : ∀ a {w w'}, Alike w w' → Alike (f w a) (f w' a)) (l : List α) :
    Alike (l.foldl f w) (l.foldl f w') := by
  induction l generalizing w w' with
  | nil => exact h
  | cons a l ih => exact ih (hf a h)

theorem requirePermission {rest rest' : World → World} (hrest : Alike (rest w) (rest' w'))
    (t : HandleId) (room : Uuid) (p : Permissions) :
    Alike (w.requirePermission t room p rest) (w'.requirePermission t room p rest') := by
  unfold World.requirePermission
  rw [h.permissions]
  split
  · exact hrest
  · exact h.sent

end Edits

theorem replyResult {r r' : OpResult} (h : Alike r.2 r'.2) (t : HandleId) (command : String) :
    Alike (World.replyResult t command r) (World.replyResult t command r') := by
  obtain ⟨_ | _, w⟩ := r
  · obtain ⟨_ | _, w'⟩ := r'
    · exact h.sent
    · exact h.sent
  · obtain ⟨_ | _, w'⟩ := r'
    · exact h.sent
    · exact h.sent

/-! ## Operations -/

section Operations

variable (h : Alike w w')
include h

theorem cleanupParticipant (u : UserId) :
    Alike (w.cleanupParticipant u) (w'.cleanupParticipant u) := by
  have hwas : (w'.state.removeClient u).1 = (w.state.removeClient u).1 := h.isMember u
  unfold World.cleanupParticipant
  rw [hwas]
  split
  · exact ((h.mapState fun s => s.nameless_removeClient u).mapData _).sent
  · exact h

theorem cleanupClient (u : UserId) : Alike (w.cleanupClient u) (w'.cleanupClient u) := by
  have hparticipants : ∀ b, Alike (w.cleanupParticipants u b) (w'.cleanupParticipants u b) := by
    intro b
    unfold cleanupParticipants
    rw [h.membersByOwner]
    split
    · exact h.foldl (fun v _ _ h => h.cleanupParticipant v) _
    · exact h
  unfold World.cleanupClient
  rw [h.handle]
  exact ((hparticipants _).mapState fun s => s.nameless_forgetClient u).sentIf _ _

theorem closeConn (u : UserId) : Alike (w.closeConn u) (w'.closeConn u) := h.setConn u _

theorem beginTeardown (u : UserId) :
    (w'.beginTeardown u).1 = (w.beginTeardown u).1 ∧
      Alike (w.beginTeardown u).2 (w'.beginTeardown u).2 := by
  unfold World.beginTeardown
  rw [h.handle]
  split
  · exact ⟨rfl, h⟩
  · refine ⟨rfl, ?_⟩
    dsimp only
    exact h.setHandle _ _

theorem evictOne (name : String) (new old : UserId) :
    Alike (w.evictOne name new old) (w'.evictOne name new old) := by
  obtain ⟨hclaimed, hteardown⟩ := h.beginTeardown old
  unfold World.evictOne
  dsimp only
  rw [h.getClient, h.conn, hclaimed]
  split
  · exact h
  split
  · exact h
  split
  · exact h
  split
  · exact hteardown
  · exact (hteardown.sent.closeConn old).cleanupClient old

theorem evictSupersededSessions (key : PublicKey) (name : String) (new : UserId) :
    Alike (w.evictSupersededSessions key name new) (w'.evictSupersededSessions key name new) := by
  unfold World.evictSupersededSessions
  rw [h.userIdsWithKey]
  exact h.foldl (fun old _ _ h => h.evictOne name new old) _

theorem applyKick (target : UserId) (reason actor : String) :
    Alike (w.applyKick target reason actor).2 (w'.applyKick target reason actor).2 := by
  unfold World.applyKick
  rw [h.getClient, h.handle]
  split
  · exact h
  split
  · exact h
  split
  · exact h
  · exact (h.sent.closeConn target).cleanupClient target

theorem applyBan (env : Env) (target : UserId) (d : Nat) (reason actor : String) :
    Alike (w.applyBan env target d reason actor).2 (w'.applyBan env target d reason actor).2 := by
  have hgroup := h.mapStore ensureBannedGroup
  unfold World.applyBan
  dsimp only
  rw [h.getClient, h.handle, hgroup.getUserPublicKey]
  split
  · exact h
  split
  · exact h
  split
  · exact h
  split
  · exact hgroup
  · exact (((hgroup.mapStore _).setIdentity target _).sent.closeConn target).cleanupClient target

theorem applyRegisterUser (target : UserId) :
    Alike (w.applyRegisterUser target).2 (w'.applyRegisterUser target).2 := by
  unfold World.applyRegisterUser displayNameOf
  rw [h.getUserPublicKey, h.getClient, h.conn, h.store]
  split
  · exact h
  split
  · exact h
  dsimp only
  split
  · exact h
  split
  · exact h
  · dsimp only
    exact h.mapStore _

theorem applyUnregisterUser (target : UserId) :
    Alike (w.applyUnregisterUser target).2 (w'.applyUnregisterUser target).2 := by
  unfold World.applyUnregisterUser
  rw [h.getUserPublicKey]
  split
  · exact h
  · dsimp only
    exact h.mapStore _

theorem reevaluateMemberMute (u : UserId) (room : Uuid) :
    Alike (w.reevaluateMemberMute u room) (w'.reevaluateMemberMute u room) := by
  unfold World.reevaluateMemberMute
  dsimp only
  rw [h.getClient, h.permissions, h.handle]
  split
  · exact h
  split
  · exact h
  · exact (h.setHandle _ _).sent

theorem applyCreateRoom (env : Env) (name : String) (parent : Option Uuid)
    (description : Option String) : Alike (w.applyCreateRoom env name parent description).2
      (w'.applyCreateRoom env name parent description).2 := by
  unfold World.applyCreateRoom
  rw [h.data]
  split
  · exact h
  · exact ((h.mapData _).mapStore _).sent

theorem reparentChildren (room : Uuid) :
    Alike (w.reparentChildren room) (w'.reparentChildren room) := by
  have hchild : ∀ parent child {w w' : World}, Alike w w' →
      Alike (reparentChild parent w child) (reparentChild parent w' child) :=
    fun _ _ _ _ h => ((h.mapData _).mapStore _).sent
  unfold World.reparentChildren
  rw [h.data]
  split
  · exact h.foldl (hchild _) _
  · exact h

theorem applyDeleteRoom (room : Uuid) :
    Alike (w.applyDeleteRoom room).2 (w'.applyDeleteRoom room).2 := by
  have hreparented := h.reparentChildren room
  unfold World.applyDeleteRoom
  dsimp only
  rw [hreparented.data]
  split
  · exact h
  split
  · exact hreparented
  · exact Alike.foldl ((hreparented.mapData _).mapStore _).sent
      (fun m _ _ h => h.reevaluateMemberMute m rootRoomUuid) _

theorem applyCreateGroup (name : String) (permissions : BitVec 32) :
    Alike (w.applyCreateGroup name permissions).2 (w'.applyCreateGroup name permissions).2 := by
  unfold World.applyCreateGroup
  rw [h.store]
  split
  · exact h
  split
  · exact h
  split
  · exact h
  split
  · exact h
  split
  · exact h
  · exact (h.mapStore _).sent

theorem applyDeleteGroup (name : String) :
    Alike (w.applyDeleteGroup name).2 (w'.applyDeleteGroup name).2 := by
  have hscrub : ∀ u {w w' : World}, Alike w w' → Alike (w.scrubGroup name u)
      (w'.scrubGroup name u) := by
    intro u w w' h
    unfold scrubGroup
    rw [h.conn]
    split
    · exact (h.setIdentity _ _).sent
    · exact h
  unfold World.applyDeleteGroup
  rw [h.snapshotClients]
  split
  · exact h
  · exact ((h.foldl hscrub _).mapStore _).sent

theorem applyModifyGroup (name : String) (permissions : BitVec 32) :
    Alike (w.applyModifyGroup name permissions).2 (w'.applyModifyGroup name permissions).2 := by
  unfold World.applyModifyGroup
  rw [h.store]
  split
  · exact h
  · exact (h.mapStore _).sent

theorem applyToggleGroupPermission (name : String) (bits : BitVec 32) (enable : Bool) :
    Alike (w.applyToggleGroupPermission name bits enable).2
      (w'.applyToggleGroupPermission name bits enable).2 := by
  unfold World.applyToggleGroupPermission
  rw [h.store]
  split
  · exact h
  split
  · exact h
  split
  · exact h
  · exact (h.mapStore _).sent

theorem mirrorGroup (key : PublicKey) (group : String) (add : Bool) (expiresAt : Nat)
    (u : UserId) : Alike (w.mirrorGroup key group add expiresAt u)
      (w'.mirrorGroup key group add expiresAt u) := by
  unfold World.mirrorGroup
  rw [h.getUserPublicKey]
  split
  · exact h
  · exact (h.setIdentity _ _).sent

/-- A membership mirrored onto every connection. -/
theorem mirrorAll (key : PublicKey) (group : String) (add : Bool) (expiresAt : Nat) :
    Alike (w.state.snapshotClients.foldl (World.mirrorGroup key group add expiresAt) w)
      (w'.state.snapshotClients.foldl (World.mirrorGroup key group add expiresAt) w') := by
  rw [h.snapshotClients]
  exact h.foldl (fun u _ _ h => h.mirrorGroup key group add expiresAt u) _

theorem applySetUserGroupByKey (key : PublicKey) (group : String) (add : Bool)
    (expiresAt : Nat) : Alike (w.applySetUserGroupByKey key group add expiresAt).2
      (w'.applySetUserGroupByKey key group add expiresAt).2 := by
  unfold World.applySetUserGroupByKey
  rw [h.store]
  split
  · exact h
  split
  · exact h
  · exact (h.mapStore _).mirrorAll key group add expiresAt

theorem applySetUserGroup (target : UserId) (group : String) (add : Bool) (expiresAt : Nat) :
    Alike (w.applySetUserGroup target group add expiresAt).2
      (w'.applySetUserGroup target group add expiresAt).2 := by
  unfold World.applySetUserGroup
  rw [h.getUserPublicKey]
  split
  · exact h
  · exact h.applySetUserGroupByKey _ group add expiresAt

theorem sweepExpired (env : Env) : Alike (w.sweepExpired env) (w'.sweepExpired env) := by
  have hbans := h.mapStore fun store => (store.sweepExpiredBans env.nowSecs).2
  unfold World.sweepExpired
  dsimp only
  rw [hbans.store]
  exact Alike.foldl (hbans.mapStore _) (fun e _ _ h => h.mirrorAll e.1 e.2 false 0) _

theorem applySetRoomAcl (cfg : Config) (room : Uuid) (inherit : Bool)
    (entries : List RoomAclEntry) (base : Nat) :
    Alike (w.applySetRoomAcl cfg room inherit entries base).2
      (w'.applySetRoomAcl cfg room inherit entries base).2 := by
  unfold World.applySetRoomAcl
  rw [h.store, h.data]
  split
  · exact h
  split
  · exact h
  · exact Alike.foldl ((h.mapData _).mapStore _).sent
      (fun m _ _ h => h.reevaluateMemberMute m room) _

/-- Two registrations, each with a name of its own. -/
theorem createParticipant (owner : OwnerId) (name name' : String) (label verified : Option String)
    (groups : List String) (present : Bool) :
    Alike (w.createParticipant owner name label verified groups present).2
      (w'.createParticipant owner name' label verified groups present).2 := by
  have hregistered : ∀ u, Alike
      (w.mapState fun s => ServerState.registerParticipant
        { s with nextUserId := s.nextUserId + 1 } u owner ⟨name, verified, label, groups⟩)
      (w'.mapState fun s => ServerState.registerParticipant
        { s with nextUserId := s.nextUserId + 1 } u owner ⟨name', verified, label, groups⟩) := by
    intro u
    refine ⟨?_, h.store⟩
    simp only [mapState_state, ServerState.nameless_registerParticipant]
    have hnext : ({ w'.state with nextUserId := w'.state.nextUserId + 1 } : ServerState).nameless =
        ({ w.state with nextUserId := w.state.nextUserId + 1 } : ServerState).nameless :=
      congrArg (fun s : ServerState => { s with nextUserId := s.nextUserId + 1 }) h.state
    rw [hnext]
    rfl
  unfold World.createParticipant
  dsimp only
  rw [h.nextUserId]
  split
  · exact ((hregistered _).mapData _).sent
  · exact hregistered _

theorem removeParticipant (u : UserId) :
    Alike (w.removeParticipant u) (w'.removeParticipant u) := by
  have hremoved := (h.mapState fun s => s.nameless_removeClient u).mapData
    (·.removeUserMembership u)
  exact hremoved.sentIf _ _

theorem moveParticipantToRoom (u : UserId) (room : Uuid) :
    Alike (w.moveParticipantToRoom u room).2 (w'.moveParticipantToRoom u room).2 := by
  have hmoved := h.mapData (·.setUserRoom u room)
  unfold World.moveParticipantToRoom
  dsimp only
  rw [h.data]
  split
  · exact h
  split
  · exact hmoved.sent
  · split
    · split
      · exact hmoved
      · exact ⟨hmoved.state, hmoved.store⟩
    · split
      · exact ⟨hmoved.state, hmoved.store⟩
      · exact hmoved.sent

end Operations

end Alike

end World

end Rumble.Server
