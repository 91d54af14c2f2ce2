import Rumble.Client.ReplicaOps

/-!
# Groups and participants, followed

The operations that write group definitions and the groups of connected users, and those of a
controller on its participants.
-/

namespace Rumble.Client

open Rumble.Lib Rumble.Lib.Replication Rumble.Server Rumble.Server.World
open Rumble.Server.ServerState (SameEntry Settled Removal)

variable {strict : Prop} {h : UserId → Handshake} {g : Option UserId} {w w₁ : World} {u : UserId}

/-! ## Group definitions -/

theorem keeps_groupDefined (name : String) (permissions : BitVec 32)
    (hstate : w₁.state = w.state) (hlog : w₁.log = w.log)
    (hgroups : w₁.store.groups = w.store.groups.set name permissions) :
    Keeps strict h g g w
      (w₁.broadcastGroup name permissions (builtinGroups.contains name) false) := by
  refine .announce _ (.of_log hlog) trivial (fun hw => hstate ▸ hw) (fun _ c hc => ?_)
    fun _ r hr => ?_
  · unfold Attending at hc
    rw [hstate] at hc
    exact hc
  · exact hr.groupModified name permissions (congrArg (fun s => s.data.rooms) hstate)
      (fun v => by rw [hstate]) hgroups

theorem keeps_groupRemoved (name : String) (permissions : BitVec 32) (isBuiltin : Bool)
    (hstate : w₁.state = w.state) (hlog : w₁.log = w.log)
    (hgroups : w₁.store.groups = w.store.groups.del name) :
    Keeps strict h g g w (w₁.broadcastGroup name permissions isBuiltin true) := by
  refine .announce _ (.of_log hlog) trivial (fun hw => hstate ▸ hw) (fun _ c hc => ?_)
    fun _ r hr => ?_
  · unfold Attending at hc
    rw [hstate] at hc
    exact hc
  · exact hr.groupRemoved ⟨name, permissions, isBuiltin⟩
      (congrArg (fun s => s.data.rooms) hstate) (fun v => by rw [hstate]) hgroups

theorem keeps_applyCreateGroup (name : String) (permissions : BitVec 32) :
    Keeps strict h g g w (w.applyCreateGroup name permissions).2 := by
  unfold applyCreateGroup
  split
  · exact .refl
  split
  · exact .refl
  split
  · exact .refl
  rename_i hbuiltin
  split
  · exact .refl
  split
  · exact .refl
  have hkeeps : Keeps strict h g g w ((w.mapStore (·.createGroup name permissions)).broadcastGroup
      name permissions (builtinGroups.contains name) false) :=
    keeps_groupDefined name permissions rfl rfl rfl
  rw [Bool.eq_false_iff.mpr hbuiltin] at hkeeps
  exact hkeeps

theorem keeps_applyModifyGroup (name : String) (permissions : BitVec 32) :
    Keeps strict h g g w (w.applyModifyGroup name permissions).2 := by
  unfold applyModifyGroup Persistence.modifyGroup
  split
  · exact .refl
  rename_i store hstore
  split at hstore
  · obtain rfl := Option.some.inj hstore
    exact keeps_groupDefined name permissions rfl rfl rfl
  · cases hstore

theorem keeps_applyToggleGroupPermission (name : String) (bits : BitVec 32) (enable : Bool) :
    Keeps strict h g g w (w.applyToggleGroupPermission name bits enable).2 := by
  unfold applyToggleGroupPermission
  split
  · exact .refl
  split
  · exact .refl
  split
  · exact .refl
  rename_i permissions store hstore
  obtain ⟨old, -, hstore⟩ := Option.map_eq_some_iff.mp hstore
  obtain ⟨rfl, rfl⟩ := Prod.mk.inj hstore
  exact keeps_groupDefined name _ rfl rfl rfl

/-! ## Groups of users -/

theorem userView_setIdentity {s : ServerState} {f : Identity → Identity}
    (hu : s.members.get u = some .client) (groups : List String → List String)
    (hf : ∀ i, f i = { i with groups := groups i.groups }) (v : UserId) :
    (s.setIdentity u f).userView v = if v = u then
      (s.userView v).map fun user => { user with groups := groups user.groups }
    else s.userView v := by
  by_cases hv : v = u
  · subst v
    rw [if_pos rfl]
    unfold ServerState.userView
    show (s.data.getUserRoom u).bind _ = _
    cases s.data.getUserRoom u with
    | none => rfl
    | some room =>
      unfold ServerState.rosterEntry ServerState.getMember ServerState.memberIsController
        ServerState.memberIsSuperuser ServerState.memberIdentity ServerState.setIdentity
        ServerState.setConn
      simp only [Option.bind_some, hu, Function.update_self, hf]
      split <;> rfl
  · rw [if_neg hv]
    have hconn : (s.setIdentity u f).conn v = s.conn v := Function.update_of_ne hv _ _
    have hentry : SameEntry s (s.setIdentity u f) v := ⟨rfl, by rw [hconn], rfl, rfl, rfl, rfl⟩
    exact hentry.userView rfl

/-- **The groups of a connected user** change on both sides. -/
theorem keeps_setGroups (group : String) (added : Bool) (expiresAt : Nat)
    (hclient : w.state.getClient u = true) (f : Identity → Identity)
    (hf : ∀ i, f i = { i with
      groups := if added then pushGroup i.groups group else i.groups.filter (· ≠ group) }) :
    Keeps strict h none none w ((w.mapState (·.setIdentity u f)).broadcastStateUpdate
      (.userGroupChanged u group added expiresAt)) := by
  have hmember := getClient_iff.mp hclient
  have hconn : ∀ v, ((w.state.setIdentity u f).conn v).authenticated =
      (w.state.conn v).authenticated ∧
      ((w.state.setIdentity u f).conn v).opened = (w.state.conn v).opened ∧
      ((w.state.setIdentity u f).conn v).identity.label = (w.state.conn v).identity.label := by
    intro v
    by_cases hv : v = u
    · subst v
      simp [ServerState.setIdentity, ServerState.setConn, hf]
    · simp [ServerState.setIdentity, ServerState.setConn, hv]
  refine .announce _ (.of_log rfl) trivial (fun hw => ?_) (fun _ c hc => ?_) fun _ r hr => ?_
  · exact hw.withCells rfl rfl rfl hconn (fun _ => rfl) (fun _ hv => .inl hv)
      fun v hv => by cases hv
  · obtain ⟨hc, hauth, hplace⟩ := hc
    exact ⟨hc, (hconn c).1 ▸ hauth, hplace⟩
  · exact hr.editUser u (fun _ => rfl) rfl rfl (userView_setIdentity hmember
      (fun groups => if added then pushGroup groups group else groups.filter (· ≠ group)) hf)

theorem keeps_scrubGroup (name : String) (hclient : w.state.getClient u = true) :
    Keeps strict h none none w (scrubGroup name w u) := by
  unfold scrubGroup
  split
  · exact keeps_setGroups name false 0 hclient _ fun _ => rfl
  · exact .refl

theorem keeps_mirrorGroup (key : PublicKey) (group : String) (add : Bool) (expiresAt : Nat)
    (hclient : w.state.getClient u = true) :
    Keeps strict h none none w (mirrorGroup key group add expiresAt w u) := by
  unfold mirrorGroup
  split
  · exact .refl
  · exact keeps_setGroups group add expiresAt hclient _ fun _ => rfl

/-- A loop over the connected clients that leaves the members alone. -/
theorem keeps_overClients {f : World → UserId → World}
    (hmembers : ∀ w u, (f w u).state.members = w.state.members)
    (hf : ∀ w u, w.state.getClient u = true → Keeps strict h none none w (f w u)) :
    Keeps strict h none none w (w.state.snapshotClients.foldl f w) := by
  refine Feed.Follows.foldl (P := fun w u => w.state.getClient u = true) _ (fun w u v hv => ?_) hf
    fun u hu => mem_snapshotClients.mp hu
  unfold ServerState.getClient at hv ⊢
  rwa [hmembers]

theorem keeps_applyDeleteGroup (name : String) :
    Keeps strict h none none w (w.applyDeleteGroup name).2 := by
  unfold applyDeleteGroup
  split
  · exact .refl
  refine (keeps_overClients (fun w u => touches_scrubGroup name w u .members (by decide))
    fun w u hu => keeps_scrubGroup name hu).trans ?_
  refine keeps_groupRemoved name 0 false rfl rfl ?_
  exact congrArg (Table.del · name)
    (Persistence.onlyMemberships_removeGroupFromAllUsers _ name).groups_eq

theorem keeps_applySetUserGroupByKey (key : PublicKey) (group : String) (add : Bool)
    (expiresAt : Nat) :
    Keeps strict h none none w (w.applySetUserGroupByKey key group add expiresAt).2 := by
  unfold applySetUserGroupByKey
  split
  · exact .refl
  split
  · exact .refl
  refine Keeps.trans (.silent (.of_touches (S := [.userGroups]) (Touches.onlyMemberships .refl ?_)
    (by decide)) (.of_log rfl)) (keeps_overClients
      (fun w u => touches_mirrorGroup key group add expiresAt w u .members (by decide))
      fun w u hu => keeps_mirrorGroup key group add expiresAt hu)
  split
  · exact Persistence.onlyMemberships_addUserToGroupWithExpiry _ _ _ _
  · exact Persistence.onlyMemberships_removeUserFromGroup _ _ _

/-- Only the stored memberships of keys are written. -/
theorem keeps_withMemberships {store : Persistence}
    (hs : Persistence.OnlyMemberships w.store store) :
    Keeps strict h g g w (w.mapStore fun _ => store) :=
  .silent ⟨rfl, rfl, rfl, fun _ => ⟨rfl, rfl, rfl⟩, fun _ => ⟨rfl, rfl, rfl⟩, hs.groups_eq⟩
    (.of_log rfl)

theorem keeps_sweepExpired (env : Env) : Keeps strict h none none w (w.sweepExpired env) := by
  unfold sweepExpired
  refine Keeps.trans (.silent (.of_touches (touches_sweepExpiredBans w env.nowSecs) (by decide))
    (.of_log rfl)) ?_
  refine Keeps.trans (keeps_withMemberships
    (Persistence.onlyMemberships_sweepExpiredMemberships _ env.nowSecs)) ?_
  · exact Feed.Follows.foldl (P := fun _ _ => True) _ (fun _ _ _ _ => trivial) (fun w e _ =>
      keeps_overClients (fun w u => touches_mirrorGroup _ _ _ _ w u .members (by decide))
        fun w u hu => keeps_mirrorGroup _ _ _ _ hu) fun _ _ => trivial

/-! ## Participants -/

section Participants

/-- The next id belongs to nobody. -/
theorem not_known_fresh (hw : w.state.Settled g) : ¬ w.state.Known w.state.nextUserId := by
  obtain ⟨hmember, hopened⟩ := hw.cells.fresh w.state.nextUserId le_rfl
  rintro (hk | ⟨owner, i, hk⟩)
  · rw [hw.cells.opened _ hk] at hopened
    exact Bool.noConfusion hopened
  · rw [hmember] at hk
    cases hk

/-- The state after a participant was minted into Root. -/
def minted (s : ServerState) (owner : OwnerId) (identity : Identity) : ServerState :=
  let s' := { s with nextUserId := s.nextUserId + 1 }.registerParticipant s.nextUserId owner identity
  { s' with data := s'.data.setUserRoom s.nextUserId rootRoomUuid }

theorem members_minted (s : ServerState) (owner : OwnerId) (identity : Identity) (v : UserId) :
    (minted s owner identity).members.get v =
      if v = s.nextUserId then some (.owned owner identity) else s.members.get v :=
  Table.get_set _ _ _ _

theorem getUserRoom_minted (s : ServerState) (owner : OwnerId) (identity : Identity) (v : UserId) :
    (minted s owner identity).data.getUserRoom v =
      if v = s.nextUserId then some rootRoomUuid else s.data.getUserRoom v :=
  StateData.getUserRoom_setUserRoom s.data s.nextUserId v rootRoomUuid

/-- The participant is shown as it was announced. -/
theorem userView_minted (hw : w.state.Settled none) (owner : OwnerId) (identity : Identity)
    (v : UserId) : (minted w.state owner identity).userView v =
      if v = w.state.nextUserId then
        some { userId := w.state.nextUserId, username := identity.displayName
               currentRoom := rootRoomUuid, isMuted := false, isDeafened := false
               serverMuted := false, isElevated := false, groups := identity.groups
               label := identity.label }
      else w.state.userView v := by
  by_cases hv : v = w.state.nextUserId
  · subst v
    have hstatus : (minted w.state owner identity).data.getUserStatus w.state.nextUserId = {} :=
      hw.status_of_not_known (not_known_fresh hw)
    rw [if_pos rfl]
    unfold ServerState.userView
    rw [getUserRoom_minted, if_pos rfl, Option.bind_some]
    unfold ServerState.rosterEntry ServerState.getMember
    rw [members_minted, if_pos rfl, hstatus]
    rfl
  · rw [if_neg hv]
    have hentry : SameEntry w.state (minted w.state owner identity) v :=
      ⟨(members_minted w.state owner identity v).trans (if_neg hv), rfl, rfl, rfl, rfl, rfl⟩
    exact hentry.userView ((getUserRoom_minted w.state owner identity v).trans (if_neg hv))

/-- **A participant is minted** into Root. -/
theorem keeps_createParticipant (owner : OwnerId) (username : String) (label : Option String)
    (groups : List String) :
    Keeps strict h none none w
      (w.createParticipant owner username label none groups true).2 := by
  have hmember := members_minted w.state owner { displayName := username, verifiedUsername := none
                                                 label := label, groups := groups }
  have hroom := getUserRoom_minted w.state owner { displayName := username, verifiedUsername := none
                                                   label := label, groups := groups }
  unfold createParticipant
  rw [if_pos rfl]
  refine .announce _ (.of_log rfl) trivial (fun hw => ?_) (fun hw c hc => ?_) fun hw r hr => ?_
  · exact (hw.registerParticipant owner _).setUserRoom
      (.inr ⟨owner, _, (hmember _).trans (if_pos rfl)⟩) (fun v hv => by cases hv) rootRoomUuid
  · obtain ⟨hclient, hauth, hplace⟩ := hc
    have hclient' := (hmember c).symm.trans (getClient_iff.mp hclient)
    split at hclient'
    · cases hclient'
    · rename_i hne
      refine ⟨getClient_iff.mpr hclient', hauth, hplace.imp_right fun hplaced => ?_⟩
      rw [← (hroom c).trans (if_neg hne)]
      exact hplaced
  · exact hr.userJoined { userId := w.state.nextUserId, username := username
                          currentRoom := rootRoomUuid, isMuted := false, isDeafened := false
                          serverMuted := false, isElevated := false, groups := groups
                          label := label }
      (hw.userView_of_not_known (not_known_fresh hw)) rfl rfl (userView_minted hw owner _)

theorem keeps_removeParticipant : Keeps strict h none none w (w.removeParticipant u) := by
  have hremoval : Removal w.state ((w.mapState fun s => (s.removeClient u).2).mapData
      (·.removeUserMembership u)).state u :=
    ⟨Table.get_del _ _, rfl, rfl, fun _ => ⟨rfl, rfl, rfl⟩, fun _ _ => rfl, rfl⟩
  unfold removeParticipant
  dsimp only
  split
  · exact keeps_userLeft (.of_log rfl) (fun _ => nofun) hremoval rfl
  · rename_i habsent
    exact keeps_removal (.of_log rfl) (fun _ => nofun) hremoval rfl fun _ =>
      ServerState.userView_of_no_room (by simpa using habsent)

/-- Someone who is shown in a room, or is not shown in any: it is no member, or a controller. -/
def Movable (s : ServerState) (u : UserId) : Prop :=
  (s.data.getUserRoom u).isSome = true ∨ s.members.get u = none ∨
    (s.members.get u = some .client ∧ (s.handle (primary u)).isController = true)

/-- The lists after a move. -/
theorem matches_userMoved {r : Roster} (hr : r.Matches w) (room : Uuid)
    (hstate : w₁.state = { w.state with data := w.state.data.setUserRoom u room })
    (hgroups : w₁.store.groups = w.store.groups) (hu : Movable w.state u) :
    (r.update (.userMoved (some u) (some (roomIdFromUuid room)))).Matches w₁ := by
  have hentry : ∀ v, SameEntry w.state w₁.state v := fun v => by
    rw [hstate]
    exact ⟨rfl, rfl, rfl, rfl, rfl, rfl⟩
  have hroom : ∀ v, w₁.state.data.getUserRoom v =
      if v = u then some room else w.state.data.getUserRoom v := fun v => by
    rw [hstate]
    exact StateData.getUserRoom_setUserRoom _ u v room
  have hupdate : r.update (.userMoved (some u) (some (roomIdFromUuid room))) =
      r.editUser u fun user => { user with currentRoom := room } := by
    unfold Roster.update updateEvent Roster.apply
    simp
  rw [hupdate]
  refine hr.editUser u (fun _ => rfl) (congrArg (fun s => s.data.rooms) hstate) hgroups fun v => ?_
  by_cases hv : v = u
  · subst v
    rw [if_pos rfl]
    unfold ServerState.userView
    rw [hroom, if_pos rfl, Option.bind_some, (hentry u).rosterEntry]
    cases hplaced : w.state.data.getUserRoom u with
    | some room' => exact ServerState.rosterEntry_room room' room
    | none =>
      refine ServerState.rosterEntry_eq_none (hu.resolve_left fun hmove => ?_)
      rw [hplaced] at hmove
      exact Bool.noConfusion hmove
  · rw [if_neg hv]
    exact (hentry v).userView ((hroom v).trans (if_neg hv))

/-- **A user moves.** -/
theorem keeps_userMoved (room : Uuid)
    (hstate : w₁.state = { w.state with data := w.state.data.setUserRoom u room })
    (hlog : w₁.log = w.log) (hgroups : w₁.store.groups = w.store.groups)
    (hu : w.state.Settled none → Movable w.state u) (hknown : w.state.Known u) :
    Keeps strict h none none w
      (w₁.broadcastStateUpdate (.userMoved (some u) (some (roomIdFromUuid room)))) := by
  have hentry : ∀ v, SameEntry w.state w₁.state v := fun v => by
    rw [hstate]
    exact ⟨rfl, rfl, rfl, rfl, rfl, rfl⟩
  have hroom : ∀ v, w₁.state.data.getUserRoom v =
      if v = u then some room else w.state.data.getUserRoom v := fun v => by
    rw [hstate]
    exact StateData.getUserRoom_setUserRoom _ u v room
  refine .announce _ (.of_log hlog) trivial (fun hw => ?_) (fun hw c hc => ?_) fun hw r hr => ?_
  · rw [hstate]
    exact hw.setUserRoom hknown (fun v hv => by cases hv) room
  · obtain ⟨hclient, hauth, hplace⟩ := hc
    rw [hstate] at hauth
    have hclient' : w.state.getClient c = true := by
      rw [hstate] at hclient
      exact hclient
    refine ⟨hclient', hauth, ?_⟩
    rw [(hentry c).isController, hroom] at hplace
    by_cases hcu : c = u
    · subst c
      rcases hu hw with hmove | hmove | ⟨-, hmove⟩
      · exact .inr hmove
      · rw [getClient_iff.mp hclient'] at hmove
        cases hmove
      · exact .inl hmove
    · rwa [if_neg hcu] at hplace
  · exact matches_userMoved hr room hstate hgroups (hu hw)

/-- The entry of a user after its status was written. -/
theorem userView_setUserStatus {s : ServerState} {status : UserStatus} {sm e : Bool}
    (hsm : ∀ m, s.members.get u = some m → sm = match m with
      | .client => (s.handle (primary u)).serverMuted
      | .owned _ _ => status.serverMuted)
    (he : ∀ m, s.members.get u = some m → e = s.memberIsSuperuser u m) (v : UserId) :
    ServerState.userView { s with data := s.data.setUserStatus u status } v =
      if v = u then (s.userView v).map fun user => { user with
        isMuted := status.isMuted, isDeafened := status.isDeafened
        serverMuted := sm, isElevated := e }
      else s.userView v := by
  have hstatus := StateData.status_setUserStatus s.data u v status
  by_cases hv : v = u
  · subst v
    rw [if_pos rfl] at hstatus ⊢
    unfold ServerState.userView
    show (s.data.getUserRoom u).bind _ = _
    cases s.data.getUserRoom u with
    | none => rfl
    | some room =>
      rw [Option.bind_some, Option.bind_some]
      unfold ServerState.rosterEntry ServerState.getMember
      rw [hstatus]
      dsimp only
      cases hm : s.members.get u with
      | none => rfl
      | some m =>
        rw [hsm m hm, he m hm]
        cases m with
        | client =>
          unfold ServerState.memberIsController ServerState.memberIdentity
            ServerState.memberIsSuperuser
          dsimp only
          split <;> rfl
        | owned owner i => rfl
  · rw [if_neg hv] at hstatus ⊢
    have hentry : SameEntry s { s with data := s.data.setUserStatus u status } v :=
      ⟨rfl, rfl, hstatus, rfl, rfl, rfl⟩
    exact hentry.userView rfl

/-- **A status** is announced as it is stored, with the flags of the connection. -/
theorem keeps_setUserStatus {status : UserStatus} {sm e : Bool}
    (hplain : w.state.Settled none → status.serverMuted = false ∧ status.isElevated = false)
    (hknown : w.state.Known u)
    (hsm : w.state.Settled none → ∀ m, w.state.members.get u = some m → sm = match m with
      | .client => (w.state.handle (primary u)).serverMuted
      | .owned _ _ => status.serverMuted)
    (he : w.state.Settled none → ∀ m, w.state.members.get u = some m →
      e = w.state.memberIsSuperuser u m) :
    Keeps strict h none none w ((w.mapData (·.setUserStatus u status)).broadcastStateUpdate
      (.userStatusChanged (some u) status.isMuted status.isDeafened sm e)) :=
  .announce _ (.of_log rfl) trivial (fun hw => hw.setUserStatus hknown (hplain hw)) (fun _ _ hc => hc)
    fun hw _ hr => hr.editUser u (fun _ => rfl) rfl rfl (userView_setUserStatus (hsm hw) (he hw))

end Participants

end Rumble.Client
