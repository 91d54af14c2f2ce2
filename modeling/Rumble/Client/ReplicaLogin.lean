import Rumble.Client.ReplicaOps
import Rumble.Server.Sessions

/-!
# A login, followed

`publishAuth` marks the connection authenticated, evicts the sessions it supersedes, places the user
and announces it. In between the user is a guest: authenticated and in no room. The full state it is
sent brings it into step, and the others learn of it by the update that follows.
-/

namespace Rumble.Client

open Rumble.Lib Rumble.Lib.Replication Rumble.Server Rumble.Server.World
open Rumble.Server.ServerState (SameEntry Settled Removal Guest Known)

variable {strict : Prop} {h : UserId → Handshake} {g : Option UserId} {w w₁ : World} {u : UserId}

/-- The connection may log in: it is live, not authenticated, and not muted by anyone. -/
structure LoginReady (w : World) (u : UserId) : Prop where
  client : w.state.getClient u = true
  opened : (w.state.conn u).opened = true
  authenticated : (w.state.conn u).authenticated = false
  serverMuted : (w.state.handle (primary u)).serverMuted = false

section Mark

variable {env : Env} {pending : PendingAuth}

theorem not_known (hw : w.state.Settled none) (hu : LoginReady w u) : ¬ w.state.Known u := by
  rintro (hk | ⟨owner, i, hk⟩)
  · rw [hu.authenticated] at hk
    exact Bool.noConfusion hk
  · exact hw.cells.not_owned hu.opened owner i hk

/-- What marking a connection leaves. -/
theorem markAuthenticated_conn (v : UserId) :
    ((w.markAuthenticated env (primary u) pending).state.conn v).authenticated =
        (v == u || (w.state.conn v).authenticated) ∧
      ((w.markAuthenticated env (primary u) pending).state.conn v).identity.label =
        (w.state.conn v).identity.label := by
  unfold markAuthenticated
  by_cases hv : v = u
  · subst v
    simp [ServerState.setIdentity, ServerState.setConn]
  · simp [ServerState.setIdentity, ServerState.setConn, hv]

theorem known_markAuthenticated {v : UserId} (hk : w.state.Known v) :
    (w.markAuthenticated env (primary u) pending).state.Known v := by
  rcases hk with hk | hk
  · exact .inl (by rw [(markAuthenticated_conn v).1, hk, Bool.or_true])
  · exact .inr hk

theorem settled_markAuthenticated (hw : w.state.Settled none) (hu : LoginReady w u) :
    (w.markAuthenticated env (primary u) pending).state.Settled (some u) := by
  have hopened : ∀ v, ((w.markAuthenticated env (primary u) pending).state.conn v).opened =
      (w.state.conn v).opened :=
    congrFun (touches_markAuthenticated w env (primary u) pending .opened (by decide))
  have hflags := fun hf => hu.authenticated.symm.trans (hw.cells.flagged u hf)
  refine ⟨hw.data, ⟨fun v hv => ?_, fun v hv => ?_, fun v owner i hv => ?_, fun v hv => ?_,
    fun v => ?_⟩, fun m hm => known_markAuthenticated (hw.rooms m hm),
    fun e he => known_markAuthenticated (hw.statuses e he), fun v hc ha hg => ?_, fun v hv => ?_⟩
  · rw [(markAuthenticated_conn v).1, hw.cells.flagged v hv, Bool.or_true]
  · rw [hopened]
    rw [(markAuthenticated_conn v).1, Bool.or_eq_true, beq_iff_eq] at hv
    rcases hv with rfl | hv
    · exact hu.opened
    · exact hw.cells.opened v hv
  · exact (hopened v).trans (hw.cells.owned v owner i hv)
  · exact ⟨(hw.cells.fresh v hv).1, (hopened v).trans (hw.cells.fresh v hv).2⟩
  · exact (markAuthenticated_conn v).2.trans (hw.cells.label v)
  · have hv : v ≠ u := fun hv => hg (congrArg some hv.symm)
    rw [(markAuthenticated_conn v).1, beq_eq_false_iff_ne.mpr hv, Bool.false_or] at ha
    exact hw.placed v hc ha nofun
  · obtain rfl : u = v := Option.some.inj hv
    refine ⟨hu.client, by rw [(markAuthenticated_conn u).1, beq_self_eq_true, Bool.true_or], ?_,
      hw.status_of_not_known (not_known hw hu), ?_, ?_, hu.serverMuted⟩
    · show w.state.data.getUserRoom u = none
      rw [StateData.getUserRoom_eq_none]
      exact fun m hm heq => not_known hw hu (heq ▸ hw.rooms m hm)
    · show (w.state.handle (primary u)).isController = false
      exact Bool.eq_false_iff.mpr fun hc => Bool.noConfusion (hflags (.inl hc))
    · show (w.state.handle (primary u)).isSuperuser = false
      exact Bool.eq_false_iff.mpr fun hs => Bool.noConfusion (hflags (.inr hs))

/-- Who comes into session with the mark: nobody. -/
theorem attending_markAuthenticated (hw : w.state.Settled none) (hu : LoginReady w u) {c : UserId}
    (hc : Attending (w.markAuthenticated env (primary u) pending) c) : c ≠ u ∧ Attending w c := by
  obtain ⟨hclient, hauth, hplace⟩ := hc
  have hsettled : (w.markAuthenticated env (primary u) pending).state.Settled (some u) :=
    settled_markAuthenticated hw hu
  have hguest := hsettled.guest u rfl
  have hne : c ≠ u := by
    rintro rfl
    rcases hplace with hplace | hplace
    · exact Bool.noConfusion (hplace.symm.trans hguest.isController)
    · rw [hguest.room] at hplace
      exact Bool.noConfusion hplace
  rw [(markAuthenticated_conn c).1, beq_eq_false_iff_ne.mpr hne, Bool.false_or] at hauth
  exact ⟨hne, hclient, hauth, hplace⟩

theorem userView_markAuthenticated (hw : w.state.Settled none) (hu : LoginReady w u) (v : UserId) :
    (w.markAuthenticated env (primary u) pending).state.userView v = w.state.userView v := by
  by_cases hv : v = u
  · subst v
    have hsettled : (w.markAuthenticated env (primary u) pending).state.Settled (some u) :=
      settled_markAuthenticated hw hu
    rw [hw.userView_of_not_known (not_known hw hu)]
    exact ServerState.userView_of_no_room (hsettled.guest u rfl).room
  · have hentry : SameEntry w.state (w.markAuthenticated env (primary u) pending).state v :=
      ⟨rfl, identity_markAuthenticated_of_ne hv, rfl, rfl, rfl, rfl⟩
    exact hentry.userView rfl

theorem keeps_markAuthenticated (env : Env) (pending : PendingAuth) (hu : LoginReady w u) :
    Keeps strict h none (some u) w (w.markAuthenticated env (primary u) pending) := by
  refine Feed.Follows.of_holds fun hw => Feed.Follows.hushed
    (fun hw => settled_markAuthenticated hw hu) (.of_log rfl)
    (fun c hc => (attending_markAuthenticated hw hu hc).2) ?_
  rintro c r - ⟨x, hx, hmatch, hsync⟩
  refine ⟨x, hx, hmatch.withUsers rfl ?_ hmatch.ids fun v => ?_, hsync⟩
  · exact touches_markAuthenticated w env (primary u) pending .groups (by decide)
  · exact (hmatch.users v).trans (userView_markAuthenticated hw hu v).symm

end Mark

section Enter

variable {room : Uuid}

/-- The user a login announces. -/
def arrival (w : World) (u : UserId) (room : Uuid) : User where
  userId := u
  username := w.displayNameOf u
  currentRoom := room
  isMuted := false
  isDeafened := false
  serverMuted := false
  isElevated := false
  groups := (w.state.conn u).identity.groups
  label := none

theorem rosterEntry_guest (hw : w.state.Settled (some u)) (room : Uuid) :
    w.state.rosterEntry (u, room) = some (arrival w u room) := by
  have hguest := hw.guest u rfl
  unfold ServerState.rosterEntry ServerState.getMember ServerState.memberIsController
    ServerState.memberIdentity ServerState.memberIsSuperuser
  rw [getClient_iff.mp hguest.client]
  dsimp only
  rw [hguest.isController, hguest.status, hguest.serverMuted, hguest.isSuperuser, hw.cells.label]
  rfl

theorem userView_placed (hw : w.state.Settled (some u)) (room : Uuid) (v : UserId) :
    (w.mapData (·.setUserRoom u room)).state.userView v =
      if v = u then some (arrival w u room) else w.state.userView v := by
  have hentry : SameEntry w.state (w.mapData (·.setUserRoom u room)).state v :=
    ⟨rfl, rfl, rfl, rfl, rfl, rfl⟩
  by_cases hv : v = u
  · subst v
    have hroom : (w.mapData (·.setUserRoom u room)).state.data.getUserRoom u = some room := by
      exact (StateData.getUserRoom_setUserRoom _ u u room).trans (if_pos rfl)
    unfold ServerState.userView
    rw [hroom, if_pos rfl]
    exact (hentry.rosterEntry room).trans (rosterEntry_guest hw room)
  · rw [if_neg hv]
    refine hentry.userView ?_
    exact (StateData.getUserRoom_setUserRoom _ u v room).trans (if_neg hv)

/-- A user that is listed is not added again. -/
theorem userJoined_listed {r : Roster} {user : User}
    (hlisted : ClientState.findUser r.users user.userId = some user) :
    r.update (.userJoined (some user.toProto)) = r := by
  have hevent : updateEvent (.userJoined (some user.toProto)) = some (.userJoined user) :=
    congrArg (Option.map RoomEvent.userJoined) (User.fromProto_toProto user)
  have hany : r.users.any (fun x => x.userId == user.userId) = true :=
    List.any_eq_true.mpr ⟨user, List.mem_of_find?_eq_some hlisted, beq_self_eq_true _⟩
  unfold Roster.update Roster.apply
  rw [hevent]
  exact if_pos hany

/-- **A user enters**: it gets the full state, and the others hear of it. -/
theorem keeps_placed (cfg : Config) (u : UserId) (room : Uuid) :
    Keeps strict h (some u) none w
      (((w.mapData (·.setUserRoom u room)).sendServerStateToClient cfg
        (primary u)).broadcastStateUpdate (.userJoined (some (arrival w u room).toProto))) := by
  intro hw
  have hguest := hw.guest u rfl
  have hsettled : (w.mapData (·.setUserRoom u room)).state.Settled none :=
    hw.setUserRoom (.inl hguest.authenticated) (fun v hv => (Option.some.inj hv).symm) room
  refine ⟨hsettled, _, (List.append_assoc _ _ _),
    List.forall_mem_append.mpr ⟨List.forall_mem_singleton.mpr trivial,
      List.forall_mem_singleton.mpr trivial⟩, ?_⟩
  rintro c r ⟨hclient, hauth, hplace⟩ hr
  have hsent : Unseen (w.mapData (·.setUserRoom u room))
      ((w.mapData (·.setUserRoom u room)).sendServerStateToClient cfg (primary u)) :=
    .of_touches (Touches.sendServerState (S := [.log]) .refl cfg (primary u)) (by decide)
  have hin : ((w.mapData (·.setUserRoom u room)).sendServerStateToClient cfg
      (primary u)).state.getClient c = true := hclient
  by_cases hc : c = u
  · -- The newcomer is shown itself in the full state already.
    subst c
    obtain ⟨x, hx, hmatch, hsync⟩ := agrees_fullState strict hsettled.data cfg (h u) u r
      (stateHashInput { (w.mapData (·.setUserRoom u room)).state.hashMsg with
        groups := (w.mapData (·.setUserRoom u room)).groupInfos })
    have hlisted := (hmatch.users u).trans ((userView_placed hw room u).trans (if_pos rfl))
    have hsame : x.state.roster.update (.userJoined (some (arrival w u room).toProto)) =
        x.state.roster := userJoined_listed hlisted
    have hnow := hsent.matches_of hmatch
    rw [← hsame] at hnow
    have hagrees := agrees_update strict (h u) _ hin hsettled.data.single _ hnow hsync
    rwa [← Option.mem_def.mp hx] at hagrees
  · have hother : Attending w c := by
      refine ⟨hclient, hauth, hplace.imp_right fun hroom => ?_⟩
      have hsame : (w.state.data.setUserRoom u room).getUserRoom c = w.state.data.getUserRoom c :=
        (StateData.getUserRoom_setUserRoom _ u c room).trans (if_neg hc)
      exact hsame ▸ hroom
    obtain ⟨x, rfl, hmatch, hsync⟩ := hr hother
    have hskip : ∀ hash m, (replicas strict h).follow c (some x)
        [.send (primary u) (.serverState hash m)] = some x :=
      receive_fullState_ne (h c) (fun heq => hc (congrArg HandleId.user heq).symm) (some x)
    have hnew : w.state.userView (arrival w u room).userId = none :=
      ServerState.userView_of_no_room hguest.room
    have hjoined : (x.state.roster.update (.userJoined (some (arrival w u room).toProto))).Matches
        (w.mapData (·.setUserRoom u room)) :=
      hmatch.userJoined _ hnew rfl rfl (userView_placed hw room)
    have hagrees := agrees_update strict (h c) _ hin hsettled.data.single _
      (hsent.matches_of hjoined) hsync
    rw [Feed.follow_append, hskip]
    exact hagrees

/-- The full state a client asks for. -/
theorem keeps_sendServerState (cfg : Config) (t : HandleId) :
    Keeps strict h none none w (w.sendServerStateToClient cfg t) := by
  intro hw
  have hsent : Unseen w (w.sendServerStateToClient cfg t) :=
    .of_touches (Touches.sendServerState (S := [.log]) .refl cfg t) (by decide)
  refine ⟨hw, _, rfl, List.forall_mem_singleton.mpr trivial, fun c r hc hr => ?_⟩
  have hagrees : Agrees strict (receive (h c) c r (.send t (.serverState (stateHashInput
      { w.state.hashMsg with groups := w.groupInfos }) (w.serverStateFor cfg t)))) w := by
    by_cases ht : t = primary c
    · subst t
      exact agrees_fullState strict hw.data cfg (h c) c r _
    · rw [receive_fullState_ne (h c) ht]
      exact hr ((hsent.attending c).mp hc)
  obtain ⟨x, hx, hmatch, hsync⟩ := hagrees
  exact ⟨x, hx, hsent.matches_of hmatch, hsync⟩

theorem keeps_enterServer (cfg : Config) (u : UserId) (key : PublicKey) :
    Keeps strict h (some u) none w (w.enterServer cfg (primary u) key) := by
  have hplaced : Keeps strict h (some u) none w
      (((w.mapData (·.setUserRoom u (w.initialRoom key))).sendServerStateToClient cfg
        (primary u)).broadcastStateUpdate (.userJoined
          (some (arrival w u (w.initialRoom key)).toProto))) := keeps_placed cfg u _
  unfold enterServer
  dsimp only
  split
  · exact hplaced.trans (Keeps.send _ _ _ rfl)
  · exact hplaced

end Enter

/-! ## Authentication -/

theorem keeps_closed (t : HandleId) (error : String) :
    Keeps strict h none none w (w.sendAuthFailed t error) :=
  .silent (.of_touches (Touches.sendAuthFailed (S := [.closed, .log]) .refl t error) (by decide))
    (.of_entry rfl (ignored_send t rfl))

theorem keeps_publishAuth (cfg : Config) (env : Env) (pending : PendingAuth)
    (session : SessionEntry) (hu : LoginReady w u) :
    Keeps strict h none none w (w.publishAuth cfg env (primary u) pending session) := by
  unfold publishAuth
  refine (keeps_markAuthenticated env pending hu).trans ?_
  refine (keeps_evictSupersededSessions pending.publicKey
    ((w.markAuthenticated env (primary u) pending).displayNameOf u) u fun v hv => ?_).trans ?_
  · exact (Option.some.inj hv).symm
  refine Keeps.trans (.silent (.of_touches (touches_addSession _ u session) (by decide))
    (.of_log rfl)) ?_
  exact keeps_enterServer cfg u pending.publicKey

/-- **An authentication** on a connection that may log in. -/
theorem keeps_handleAuthenticate (cfg : Config) (env : Env) (signature : List UInt8)
    (timestampMs : Int) (cert : Option SessionCertificate) (hu : LoginReady w u) :
    Keeps strict h none none w
      (handleAuthenticate cfg env (primary u) signature timestampMs cert w) := by
  unfold handleAuthenticate ServerState.takePendingAuth
  split
  · exact keeps_closed _ _
  rename_i pending state heq
  obtain ⟨-, rfl⟩ := Prod.mk.inj heq
  have htake : Unseen w (w.mapState fun _ => { w.state with
      pendingAuth := w.state.pendingAuth.del (primary u).user }) :=
    ⟨rfl, rfl, rfl, fun _ => ⟨rfl, rfl, rfl⟩, fun _ => ⟨rfl, rfl, rfl⟩, rfl⟩
  refine Keeps.trans (.silent htake (.of_log rfl)) ?_
  dsimp only
  split
  · exact keeps_closed _ _
  refine Keeps.trans (.silent (.of_touches (touches_banCheck _ pending.publicKey env.nowSecs)
    (by decide)) (.of_log rfl)) ?_
  split
  · exact keeps_closed _ _
  split
  · exact keeps_closed _ _
  · exact keeps_publishAuth cfg env pending _ ⟨hu.client, hu.opened, hu.authenticated, hu.serverMuted⟩

end Rumble.Client
