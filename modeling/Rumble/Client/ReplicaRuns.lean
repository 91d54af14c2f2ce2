import Rumble.Client.ReplicaHandlers

/-!
# The clients follow the server

`Followable` names the events that leave no client behind, `keeps_step` is the step lemma over them,
and the run rule of `Rumble.Lib.Replication` carries it through whole runs of the server: every
client past its login shows the rooms, the users and the groups the server has.
-/

namespace Rumble.Client

open Rumble.Lib Rumble.Lib.Replication Rumble.Lib.Transition Rumble.Server Rumble.Server.World
open Rumble.Server.ServerState (SameEntry Settled)

variable {strict : Prop} {h : UserId → Handshake} {w : World} {u : UserId}

/-! ## Connections -/

section Connect

theorem members_handleConnect (w : World) (v : UserId) : w.handleConnect.state.members.get v =
    if v = w.state.nextUserId then some .client else w.state.members.get v :=
  Table.get_set _ _ _ _

/-- Only the next connection is opened. -/
theorem conn_handleConnect (w : World) (v : UserId) :
    (w.handleConnect.state.conn v).opened = (v == w.state.nextUserId || (w.state.conn v).opened) ∧
      (w.handleConnect.state.conn v).authenticated = (w.state.conn v).authenticated ∧
      (w.handleConnect.state.conn v).identity = (w.state.conn v).identity := by
  unfold handleConnect ServerState.registerClient ServerState.setConn
  by_cases hv : v = w.state.nextUserId
  · subst v
    simp
  · simp [hv]

theorem known_handleConnect (hw : w.state.Settled none) {v : UserId} (hk : w.state.Known v) :
    w.handleConnect.state.Known v := by
  refine hk.imp (fun ha => (conn_handleConnect w v).2.1.trans ha) ?_
  rintro ⟨owner, i, hm⟩
  refine ⟨owner, i, (members_handleConnect w v).trans ((if_neg fun hv => ?_).trans hm)⟩
  exact not_known_fresh hw (hv ▸ .inr ⟨owner, i, hm⟩)

theorem settled_handleConnect (hw : w.state.Settled none) :
    w.handleConnect.state.Settled none where
  data := hw.data
  cells := by
    refine ⟨fun v hv => ?_, fun v hv => ?_, fun v owner i hv => ?_, fun v hv => ?_, fun v => ?_⟩
    · rw [(conn_handleConnect w v).2.1]
      exact hw.cells.flagged v hv
    · rw [(conn_handleConnect w v).1, hw.cells.opened v ((conn_handleConnect w v).2.1 ▸ hv),
        Bool.or_true]
    · rw [members_handleConnect] at hv
      split at hv
      · cases hv
      · rename_i hne
        rw [(conn_handleConnect w v).1, hw.cells.owned v owner i hv, Bool.or_false]
        exact beq_eq_false_iff_ne.mpr hne
    · have hlt : w.state.nextUserId < v := hv
      obtain ⟨hnone, hclosed⟩ := hw.cells.fresh v hlt.le
      rw [members_handleConnect, if_neg hlt.ne', (conn_handleConnect w v).1, hclosed, Bool.or_false]
      exact ⟨hnone, beq_eq_false_iff_ne.mpr hlt.ne'⟩
    · rw [(conn_handleConnect w v).2.2]
      exact hw.cells.label v
  rooms := fun m hm => known_handleConnect hw (hw.rooms m hm)
  statuses := fun e he => known_handleConnect hw (hw.statuses e he)
  placed := fun v hc ha hg => by
    rw [(conn_handleConnect w v).2.1] at ha
    have hclient := (members_handleConnect w v).symm.trans (getClient_iff.mp hc)
    split at hclient
    · rename_i hv
      exact absurd (.inl (hv ▸ ha)) (not_known_fresh hw)
    · exact hw.placed v (getClient_iff.mpr hclient) ha hg
  guest := fun v hv => by cases hv

/-- **A new connection** is shown to nobody. -/
theorem keeps_handleConnect (w : World) : Keeps strict h none none w w.handleConnect := by
  refine Feed.Follows.of_holds fun hw => Feed.Follows.hushed settled_handleConnect (.of_log rfl)
    (fun c hc => ?_) ?_
  · obtain ⟨hclient, hauth, hplace⟩ := hc
    rw [(conn_handleConnect w c).2.1] at hauth
    have hclient' := (members_handleConnect w c).symm.trans (getClient_iff.mp hclient)
    split at hclient'
    · rename_i hv
      exact absurd (.inl (hv ▸ hauth)) (not_known_fresh hw)
    · exact ⟨getClient_iff.mpr hclient', hauth, hplace⟩
  · rintro c r - ⟨x, hx, hmatch, hsync⟩
    refine ⟨x, hx, hmatch.withUsers rfl rfl hmatch.ids fun v => (hmatch.users v).trans ?_, hsync⟩
    by_cases hv : v = w.state.nextUserId
    · subst v
      have hroom : w.handleConnect.state.data.getUserRoom w.state.nextUserId = none := by
        rw [StateData.getUserRoom_eq_none]
        exact fun m hm heq => not_known_fresh hw (heq ▸ hw.rooms m hm)
      rw [hw.userView_of_not_known (not_known_fresh hw)]
      exact (ServerState.userView_of_no_room hroom).symm
    · have hentry : SameEntry w.state w.handleConnect.state v :=
        ⟨(members_handleConnect w v).trans (if_neg hv), (conn_handleConnect w v).2.2, rfl, rfl, rfl,
          rfl⟩
      exact (hentry.userView rfl).symm

end Connect

theorem keeps_handleConnectionLost (hopened : (w.state.conn u).opened = true) :
    Keeps strict h none none w (w.handleConnectionLost u) := by
  refine Feed.Follows.of_holds fun hw => ?_
  have hnot := hw.cells.not_owned hopened
  have hteardown : w.handleConnectionLost u = if (w.state.handle (primary u)).tornDown then w
      else (w.mapState (·.setHandle (primary u) fun c => { c with tornDown := true })).cleanupClient
        u := by
    unfold handleConnectionLost beginTeardown
    cases (w.state.handle (primary u)).tornDown <;> rfl
  rw [hteardown]
  split
  · exact .refl
  refine Keeps.trans (.silent (.of_touches (S := [.tornDown]) (.setHandle .refl (primary u)
    (fun c => { c with tornDown := true }) ?_) (by decide)) (.of_log rfl)) ?_
  · exact fun _ => ⟨fun _ => rfl, fun _ => rfl, fun _ => rfl, fun _ => rfl, (absurd (by decide) ·)⟩
  · exact keeps_cleanupClient (fun _ => nofun) hnot

/-- A datagram is relayed at most. -/
theorem keeps_handleDatagram (env : Env) (u : UserId) (dgram : VoiceDatagram) (len : Nat) :
    Keeps strict h none none w (handleDatagram env u dgram len w) := by
  refine .silent (.of_touches (touches_handleDatagram env u dgram len w) (by decide)) ?_
  unfold handleDatagram
  dsimp only
  split
  · exact .of_log rfl
  · exact .of_entry rfl (ignored_relay _ _)

/-! ## Envelopes -/

/-- What keeps the clients in step with an event. Messages come on the control stream. A connection
logs in once, while it is listed and before anybody mutes it; a room is deleted when nobody is shown
in it; a move names its room; and the group of the first ban exists. When `strict`, joining a room
does not change whether the user may speak. -/
def Followable (strict : Prop) (w : World) : Event → Prop
  | .envelope sender payload => sender = primary sender.user ∧
    match payload with
    | .authenticate .. => LoginReady w sender.user
    | .joinRoom roomId => strict →
      joinMute w sender (roomIdOrRoot roomId) = (w.state.handle sender).serverMuted
    | .deleteRoom roomId =>
      ∀ user ∈ w.state.buildUserList, user.currentRoom ≠ roomIdOrRoot roomId
    | .moveRoom roomId _ => (roomId.bind uuidFromRoomId).isSome = true
    | .banUser .. => (w.store.getGroup "banned").isSome = true
    | _ => True
  | _ => True

instance (w : World) (u : UserId) : Decidable (LoginReady w u) :=
  decidable_of_iff (w.state.getClient u = true ∧ (w.state.conn u).opened = true ∧
    (w.state.conn u).authenticated = false ∧ (w.state.handle (primary u)).serverMuted = false)
    ⟨fun ⟨hc, ho, ha, hm⟩ => ⟨hc, ho, ha, hm⟩,
      fun hu => ⟨hu.client, hu.opened, hu.authenticated, hu.serverMuted⟩⟩

instance [Decidable strict] (w : World) : (e : Event) → Decidable (Followable strict w e)
  | .envelope sender payload => @instDecidableAnd _ _ inferInstance <| match payload with
    | .authenticate .. => inferInstanceAs (Decidable (LoginReady w sender.user))
    | .joinRoom roomId => inferInstanceAs (Decidable (strict →
      joinMute w sender (roomIdOrRoot roomId) = (w.state.handle sender).serverMuted))
    | .deleteRoom roomId => inferInstanceAs (Decidable
      (∀ user ∈ w.state.buildUserList, user.currentRoom ≠ roomIdOrRoot roomId))
    | .moveRoom roomId _ => inferInstanceAs (Decidable ((roomId.bind uuidFromRoomId).isSome = true))
    | .banUser .. => inferInstanceAs (Decidable ((w.store.getGroup "banned").isSome = true))
    | .clientHello .. | .chatMessage .. | .directMessage .. | .disconnect | .createRoom ..
    | .renameRoom .. | .setRoomDescription .. | .requestStateSync | .setUserStatus ..
    | .registerUser .. | .unregisterUser .. | .controllerHello | .registerParticipant ..
    | .unregisterParticipant .. | .moveParticipant .. | .setParticipantStatus ..
    | .participantChat .. | .kickUser .. | .setServerMute .. | .elevate .. | .createGroup ..
    | .deleteGroup .. | .modifyGroup .. | .toggleGroupPermission .. | .setUserGroup ..
    | .setRoomAcl .. | .requestRegisteredUsers | .setRegisteredUserGroup .. | .other =>
      .isTrue trivial
  | .connect | .readTimeout .. | .datagram .. | .connectionLost .. | .sweep => .isTrue trivial

theorem keeps_handleController (env : Env) (t : HandleId) (payload : Payload) :
    Keeps strict h none none w (handleController env t payload w) := by
  unfold handleController
  split
  · exact .refl
  cases payload
  case registerParticipant => exact keeps_handleRegisterParticipant _ _ _
  case unregisterParticipant => exact keeps_handleUnregisterParticipant _ _
  case moveParticipant => exact keeps_handleMoveParticipant _ _ _
  case setParticipantStatus => exact keeps_handleSetParticipantStatus _ _ _ _
  case participantChat => exact keeps_handleParticipantChat _ _ _ _ _ _
  all_goals exact .refl

theorem keeps_handleAuthenticated (cfg : Config) (env : Env) {payload : Payload}
    (hauth : (w.state.conn u).authenticated = true)
    (ho : Followable strict w (.envelope (primary u) payload)) :
    Keeps strict h none none w (handleAuthenticated cfg env (primary u) payload w) := by
  unfold handleAuthenticated
  cases payload
  case chatMessage => exact keeps_broadcastChatInRoom _ _ _ _ _ _ _
  case directMessage => exact keeps_handleDirectMessage _ _ _ _ _ _
  case joinRoom => exact keeps_handleJoinRoom _ hauth ho.2
  case createRoom => exact keeps_handleCreateRoom _ _ _ _ _
  case deleteRoom => exact keeps_handleDeleteRoom _ _ ho.2
  case renameRoom => exact keeps_handleRenameRoom _ _ _
  case moveRoom => exact keeps_handleMoveRoom _ _ _ ho.2
  case setRoomDescription => exact keeps_handleSetRoomDescription _ _ _
  case requestStateSync => exact keeps_sendServerState cfg _
  case setUserStatus => exact keeps_handleSetUserStatus _ _ hauth
  case registerUser => exact keeps_handleRegisterUser _ _
  case unregisterUser => exact keeps_handleUnregisterUser _ _
  case controllerHello => exact keeps_handleControllerHello hauth
  case kickUser => exact keeps_handleKickUser _ _ _
  case banUser => exact keeps_handleBanUser _ _ _ _ _ ho.2
  case setServerMute => exact keeps_handleSetServerMute _ _ _
  case elevate => exact keeps_handleElevate cfg _ hauth
  case createGroup => exact keeps_manageAcl (keeps_applyCreateGroup _ _)
  case deleteGroup => exact keeps_manageAcl (keeps_applyDeleteGroup _)
  case modifyGroup => exact keeps_manageAcl (keeps_applyModifyGroup _ _)
  case toggleGroupPermission => exact keeps_manageAcl (keeps_applyToggleGroupPermission _ _ _)
  case setUserGroup => exact keeps_handleSetUserGroup _ _ _ _ _
  case setRoomAcl => exact keeps_handleSetRoomAcl cfg _ _ _ _ _
  case requestRegisteredUsers => exact keeps_handleRequestRegisteredUsers env _
  case setRegisteredUserGroup => exact keeps_handleSetRegisteredUserGroup _ _ _ _ _
  all_goals exact keeps_handleController env _ _

theorem keeps_handleEnvelope (cfg : Config) (env : Env) {sender : HandleId} {payload : Payload}
    (ho : Followable strict w (.envelope sender payload)) :
    Keeps strict h none none w (handleEnvelope cfg env sender payload w) := by
  obtain ⟨u, hu⟩ : ∃ u, sender = primary u := ⟨sender.user, ho.1⟩
  subst hu
  unfold handleEnvelope
  split
  · exact keeps_handleClientHello cfg env _ _ _ _
  · exact keeps_handleAuthenticate cfg env _ _ _ ho.2
  · exact .refl
  · exact .refl
  split
  · exact keeps_handleAuthenticated cfg env ‹_› ho
  · exact .refl

/-- **Step lemma.** An orderly event keeps every client past its login in step. -/
theorem keeps_step (cfg : Config) (i : Input) (ho : Followable strict w i.2) :
    Keeps strict h none none w (stepInput cfg w i) := by
  obtain ⟨env, e⟩ := i
  unfold stepInput step
  cases e with
  | connect => exact keeps_handleConnect w
  | sweep => exact keeps_sweepExpired env
  | envelope t p =>
    dsimp only
    split
    · exact keeps_handleEnvelope cfg env ho
    · exact .refl
  | readTimeout t =>
    dsimp only
    split
    · exact .send _ _ _ rfl
    · exact .refl
  | datagram u d len =>
    dsimp only
    split
    · exact keeps_handleDatagram env u d len
    · exact .refl
  | connectionLost u =>
    dsimp only
    split
    · exact keeps_handleConnectionLost ‹_›
    · exact .refl

/-! ## Runs -/

/-- Start-up loads rooms and nothing of users. -/
theorem roster_boot (store : Persistence) : (World.boot store).state.data.memberships = [] ∧
    (World.boot store).state.data.userStatuses = [] := by
  have hload : (store.getAllRooms.foldl loadRoom StateData.new).memberships = [] ∧
      (store.getAllRooms.foldl loadRoom StateData.new).userStatuses = [] := by
    refine List.foldlRecOn (motive := fun d : StateData => d.memberships = [] ∧ d.userStatuses = [])
      _ loadRoom ⟨rfl, rfl⟩ ?_
    intro d h e _
    unfold loadRoom StateData.addRoomWithUuidAndParentDesc
    split
    · exact h
    split
    · exact h
    · exact h
  show (loadPersistedRooms store StateData.new).memberships = [] ∧
    (loadPersistedRooms store StateData.new).userStatuses = []
  refine List.foldlRecOn (motive := fun d : StateData => d.memberships = [] ∧ d.userStatuses = [])
    _ (hydrateRoom store) hload ?_
  intro d h room _
  unfold hydrateRoom
  split
  · rename_i acl _
    cases hd : d.setRoomAcl room acl.inheritAcl acl.entries with
    | none => exact h
    | some d' =>
      obtain ⟨-, rfl⟩ := StateData.editRoom_eq_some.mp hd
      exact h
  · exact h

theorem settled_boot (store : Persistence) : (World.boot store).state.Settled none := by
  obtain ⟨hmemberships, hstatuses⟩ := roster_boot store
  have hmembers : ∀ u, (World.boot store).state.members.get u = none := fun u => Table.get_empty u
  refine ⟨⟨StateData.single_new.edits (enrolled_boot store), unassigned_boot store, ?_⟩,
    ⟨fun u hu => ?_, fun u hu => ?_, fun u owner i hm => ?_, fun u _ => ⟨hmembers u, rfl⟩,
      fun _ => rfl⟩, ?_, ?_, fun u hc => ?_, fun v hv => by cases hv⟩
  · rw [hstatuses]
    exact fun _ he => absurd he List.not_mem_nil
  · exact hu.elim nofun nofun
  · exact absurd hu nofun
  · rfl
  · rw [hmemberships]
    exact fun _ hm => absurd hm List.not_mem_nil
  · rw [hstatuses]
    exact fun _ he => absurd he List.not_mem_nil
  · rw [getClient_iff, hmembers u] at hc
    cases hc

/-- Nobody is in session at the start. -/
theorem tracked_boot (store : Persistence) : (replicas strict h).Tracked (fun _ => none)
    (fun w => w.state.Settled none) (World.boot store) := by
  refine ⟨settled_boot store, fun _ ho => absurd ho List.not_mem_nil, fun c hc => ?_⟩
  obtain ⟨hclient, -⟩ := hc
  rw [getClient_iff] at hclient
  cases (Table.get_empty c).symm.trans hclient

/-- **Run lemma.** -/
theorem tracked_run (cfg : Config) (store : Persistence) {inputs : List Input}
    (ho : Always (stepInput cfg) (fun w i => Followable strict w i.2) (World.boot store) inputs) :
    (replicas strict h).Tracked (fun _ => none) (fun w => w.state.Settled none)
      (run cfg (World.boot store) inputs) :=
  Feed.Tracked.run (fun _ i hi => keeps_step cfg i hi) ho (tracked_boot store)

/-- What client `c` shows: the entries of the server's log, from its handshake on. -/
def shown (k : Handshake) (c : UserId) (w : World) : Option Replica :=
  w.log.foldl (receive k c) none

/-- An administrator makes a room, a user moves into it, speaks, and is muted. -/
def sampleSession : List Input :=
  sampleLogin 1 (Bytes.rep 32 9) "ann" ++ sampleLogin 2 (Bytes.rep 32 8) "bob" ++
    [sampleMsg 1 (.createRoom "Lab" none none),
      sampleMsg 2 (.joinRoom (some (roomIdFromUuid (Bytes.rep 16 7)))),
      sampleMsg 2 (.setUserStatus true false), sampleMsg 1 (.setServerMute 2 true)]

def sampleHandshake : Handshake := ⟨ClientState.new, Bytes.rep 32 5, Bytes.rep 32 0⟩

/-- **The clients follow the server.** After any run of followable events, over any database and in
any order, every connected client past its login has a full state, and shows the rooms, the users
and the groups of the server: its lists pass the hash check. -/
theorem shown_run (cfg : Config) (store : Persistence) (k : Handshake) {inputs : List Input}
    (ho : Always (stepInput cfg) (fun w i => Followable False w i.2) (World.boot store) inputs)
    {c : UserId} (hclient : (run cfg (World.boot store) inputs).state.getClient c = true)
    (hauth : ((run cfg (World.boot store) inputs).state.conn c).authenticated = true) :
    ∃ x ∈ shown k c (run cfg (World.boot store) inputs),
      x.state.roster.Matches (run cfg (World.boot store) inputs) ∧
      x.state.hashInput = (run cfg (World.boot store) inputs).state.hashInput := by
  have htracked := tracked_run (h := fun _ => k) cfg store ho
  obtain ⟨x, hx, hmatch, -⟩ := htracked.agrees c
    ⟨hclient, hauth, htracked.holds.placed c hclient hauth nofun⟩
  exact ⟨x, hx, hmatch, hashInput_of_matches hmatch htracked.holds.data.single⟩

theorem shown_run_sample : ∃ x ∈ shown sampleHandshake 1
      (run sampleConfig (World.boot sampleAdminStore) sampleSession),
    x.state.roster.Matches (run sampleConfig (World.boot sampleAdminStore) sampleSession) ∧
    x.state.hashInput =
      (run sampleConfig (World.boot sampleAdminStore) sampleSession).state.hashInput := by
  have ho : Always (stepInput sampleConfig) (fun w i => Followable False w i.2)
      (World.boot sampleAdminStore) sampleSession := by decide +kernel
  exact shown_run sampleConfig sampleAdminStore sampleHandshake ho (by decide +kernel)
    (by decide +kernel)

example : ((shown sampleHandshake 1 (run sampleConfig (World.boot sampleAdminStore)
    sampleSession)).map fun x => x.state.users.map fun user =>
      (user.username, user.currentRoom, user.isMuted, user.serverMuted)) =
    some [("ann", rootRoomUuid, false, false), ("bob", Bytes.rep 16 7, true, true)] := by
  decide +kernel

/-- **No client loses its place.** When moreover no join changes whether the user may speak, no
client past its login waits for a full state it asked for. -/
theorem resync_run (cfg : Config) (store : Persistence) (k : Handshake) {inputs : List Input}
    (ho : Always (stepInput cfg) (fun w i => Followable True w i.2) (World.boot store) inputs)
    {c : UserId} (hclient : (run cfg (World.boot store) inputs).state.getClient c = true)
    (hauth : ((run cfg (World.boot store) inputs).state.conn c).authenticated = true) :
    (shown k c (run cfg (World.boot store) inputs)).map Replica.resync = some false := by
  have htracked := tracked_run (h := fun _ => k) cfg store ho
  obtain ⟨x, hx, -, hsync⟩ := htracked.agrees c
    ⟨hclient, hauth, htracked.holds.placed c hclient hauth nofun⟩
  have hshown : shown k c (run cfg (World.boot store) inputs) = some x := hx
  rw [hshown, Option.map_some, hsync trivial]

theorem resync_run_sample : (shown sampleHandshake 2
    (run sampleConfig (World.boot sampleAdminStore) sampleSession)).map Replica.resync =
      some false := by
  have ho : Always (stepInput sampleConfig) (fun w i => Followable True w i.2)
      (World.boot sampleAdminStore) sampleSession := by decide +kernel
  exact resync_run sampleConfig sampleAdminStore sampleHandshake ho (by decide +kernel)
    (by decide +kernel)

end Rumble.Client
