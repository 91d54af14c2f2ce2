import Rumble.Server.Homes
import Rumble.Server.Startup
import Mathlib.Logic.Relation

/-!
# The roster

The memberships and statuses of `StateData`, and the five ways in which the server writes them.
`Enrolled w w'` says that the roster of `w'` comes from that of `w` by such writes; `enrolled_step`
proves it of every event. In every reachable state a user then has at most one membership and at
most one status entry, so that the order in which a table is searched does not matter.
-/

namespace Rumble.Server

open Rumble.Lib World Relation

/-! ## Writes of the roster -/

/-- One write under the state lock, as far as memberships and statuses go. -/
inductive RosterEdit : StateData → StateData → Prop
  | rooms (d : StateData) (rooms : List Room) : RosterEdit d { d with rooms := rooms }
  | setUserRoom (d : StateData) (u : UserId) (room : Uuid) : RosterEdit d (d.setUserRoom u room)
  | removeUserMembership (d : StateData) (u : UserId) : RosterEdit d (d.removeUserMembership u)
  | setUserStatus (d : StateData) (u : UserId) (status : UserStatus) :
    RosterEdit d (d.setUserStatus u status)
  | deleteRoom {d d' : StateData} {room : Uuid} (h : d.deleteRoom room = some d') : RosterEdit d d'

/-- The roster of `w'` comes from the roster of `w` by writes under the lock. -/
def Enrolled (w w' : World) : Prop := ReflTransGen RosterEdit w.state.data w'.state.data

namespace Enrolled

variable {w w' w'' : World} {S : List Field}

theorem refl : Enrolled w w := ReflTransGen.refl

theorem trans (h : Enrolled w w') (h' : Enrolled w' w'') : Enrolled w w'' := ReflTransGen.trans h h'

theorem of_edit (h : RosterEdit w.state.data w'.state.data) : Enrolled w w' := .single h

theorem of_data (h : w'.state.data = w.state.data) : Enrolled w w' := by
  unfold Enrolled
  rw [h]

theorem foldl {β : Type} {f : World → β → World} (hf : ∀ w b, Enrolled w (f w b)) (l : List β) :
    Enrolled w (l.foldl f w) :=
  Transition.reflTransGen_foldl (fun w : World => w.state.data) f hf l w

/-- An operation that writes neither memberships nor statuses. -/
theorem of_touches (h : Touches S w w') (hS : ∀ f ∈ [Field.memberships, .userStatuses], f ∉ S) :
    Enrolled w w' := by
  have hmem : w'.state.data.memberships = w.state.data.memberships :=
    h .memberships (hS _ (by decide))
  have hstat : w'.state.data.userStatuses = w.state.data.userStatuses :=
    h .userStatuses (hS _ (by decide))
  refine .of_edit ?_
  have hedit := RosterEdit.rooms w.state.data w'.state.data.rooms
  rwa [← hmem, ← hstat] at hedit

theorem broadcast (h : Enrolled w w') (u : Update) : Enrolled w (w'.broadcastStateUpdate u) := h

theorem setUserRoom (u : UserId) (room : Uuid) : Enrolled w (w.mapData (·.setUserRoom u room)) :=
  .of_edit (.setUserRoom _ _ _)

theorem removeUserMembership (u : UserId) : Enrolled w (w.mapData (·.removeUserMembership u)) :=
  .of_edit (.removeUserMembership _ _)

end Enrolled

/-! ## Teardown and login -/

section Operations

variable {w : World}

theorem enrolled_cleanupParticipant (w : World) (u : UserId) :
    Enrolled w (w.cleanupParticipant u) := by
  unfold cleanupParticipant
  split
  · exact .of_edit (.removeUserMembership _ u)
  · exact .refl

theorem enrolled_cleanupClient (w : World) (u : UserId) : Enrolled w (w.cleanupClient u) := by
  have hparticipants : ∀ b, Enrolled w (w.cleanupParticipants u b) := fun b => by
    unfold cleanupParticipants
    split
    · exact .foldl enrolled_cleanupParticipant _
    · exact .refl
  have hforget : ∀ w' : World, Enrolled w' (w'.mapState (·.forgetClient u)) := fun w' =>
    (Enrolled.removeUserMembership u).trans (.of_data (w'.state.data_forgetClient u))
  unfold cleanupClient
  dsimp only
  split
  · exact ((hparticipants _).trans (hforget _)).broadcast _
  · exact (hparticipants _).trans (hforget _)

theorem enrolled_evictSupersededSessions (w : World) (key : PublicKey) (name : String)
    (new : UserId) : Enrolled w (w.evictSupersededSessions key name new) := by
  refine .foldl (fun w old => ?_) _
  unfold evictOne
  split
  · exact .refl
  split
  · exact .refl
  split
  · exact .refl
  have hteardown : Touches [.tornDown, .closed, .log] w (w.beginTeardown old).2 :=
    Touches.beginTeardown .refl old
  dsimp only
  split
  · exact .of_touches hteardown (by decide)
  · exact (Enrolled.of_touches ((hteardown.sendFrame _ _).setClosed old) (by decide)).trans
      (enrolled_cleanupClient _ old)

theorem enrolled_enterServer (cfg : Config) (sender : HandleId) (key : PublicKey) :
    Enrolled w (w.enterServer cfg sender key) := by
  have hframes : ∀ w' : World, Touches [.log] w' ((w'.sendServerStateToClient cfg sender)) :=
    fun w' => Touches.sendServerState .refl cfg sender
  refine (Enrolled.setUserRoom sender.user (w.initialRoom key)).trans ?_
  unfold enterServer
  dsimp only
  split
  · exact .of_touches (((hframes _).broadcast _).sendFrame _ _) (by decide)
  · exact .of_touches ((hframes _).broadcast _) (by decide)

theorem enrolled_handleAuthenticate (cfg : Config) (env : Env) (sender : HandleId)
    (signature : List UInt8) (timestampMs : Int) (cert : Option SessionCertificate) :
    Enrolled w (handleAuthenticate cfg env sender signature timestampMs cert w) := by
  have hfailed : ∀ {w' : World} (error : String), Enrolled w w' →
      Enrolled w (w'.sendAuthFailed sender error) := fun error h =>
    h.trans (.of_touches (Touches.sendAuthFailed (S := [.closed, .log]) .refl _ _) (by decide))
  have hpublish : ∀ (w' : World) (p : PendingAuth) (session : SessionEntry),
      Enrolled w' (w'.publishAuth cfg env sender p session) := fun w' p session =>
    (Enrolled.of_touches (touches_markAuthenticated w' env sender p) (by decide)).trans
      ((enrolled_evictSupersededSessions _ _ _ _).trans
        ((Enrolled.of_touches (touches_addSession _ sender.user session) (by decide)).trans
          (enrolled_enterServer cfg sender p.publicKey)))
  unfold handleAuthenticate ServerState.takePendingAuth
  split
  · exact hfailed _ .refl
  · rename_i pending state heq
    obtain ⟨-, rfl⟩ := Prod.mk.inj heq
    have htake : Enrolled w (w.mapState fun _ => { w.state with
        pendingAuth := w.state.pendingAuth.del sender.user }) := .of_data rfl
    dsimp only
    split
    · exact hfailed _ htake
    · have hban := htake.trans (Enrolled.of_touches
        (touches_banCheck _ pending.publicKey env.nowSecs) (by decide))
      split
      · exact hfailed _ hban
      split
      · exact hfailed _ hban
      · exact hban.trans (hpublish _ _ _)

/-! ## Participants -/

theorem enrolled_createParticipant (owner : OwnerId) (name : String)
    (label verified : Option String) (groups : List String) (present : Bool) :
    Enrolled w (w.createParticipant owner name label verified groups present).2 := by
  have hmember : Enrolled w (w.mapState fun s => ServerState.registerParticipant
      { s with nextUserId := s.nextUserId + 1 } w.state.nextUserId owner
      { displayName := name, verifiedUsername := verified, label := label, groups := groups }) :=
    .of_data rfl
  unfold createParticipant
  dsimp only
  split
  · exact (hmember.trans (.setUserRoom w.state.nextUserId rootRoomUuid)).broadcast _
  · exact hmember

theorem enrolled_removeParticipant (u : UserId) : Enrolled w (w.removeParticipant u) := by
  have hremove : Enrolled w ((w.mapState fun s => (s.removeClient u).2).mapData
      (·.removeUserMembership u)) := .of_edit (.removeUserMembership _ u)
  unfold removeParticipant
  dsimp only
  split
  · exact hremove.broadcast _
  · exact hremove

theorem enrolled_moveParticipantToRoom (u : UserId) (room : Uuid) :
    Enrolled w (w.moveParticipantToRoom u room).2 := by
  have hset := Enrolled.setUserRoom (w := w) u room
  unfold moveParticipantToRoom
  split
  · exact .refl
  dsimp only
  split
  · exact hset.broadcast _
  split
  · exact hset
  · exact hset.broadcast _

theorem enrolled_withParticipant {sender : HandleId} {command : String} {u : UserId}
    {rest : World → World} (h : Enrolled w (rest w)) :
    Enrolled w (withParticipant sender command u rest w) := by
  unfold withParticipant
  split
  · exact h
  · exact .of_data rfl

/-! ## Handlers -/

theorem enrolled_requirePermission {sender : HandleId} {room : Uuid} {p : Permissions}
    {rest : World → World} (h : Enrolled w (rest w)) :
    Enrolled w (w.requirePermission sender room p rest) := by
  unfold requirePermission
  split
  · exact h
  · exact .of_data rfl

theorem enrolled_replyResult {sender : HandleId} {command : String} {r : OpResult}
    (h : Enrolled w r.2) : Enrolled w (replyResult sender command r) :=
  h.trans (.of_data (by rw [replyResult_state]))

theorem enrolled_applyKick (target : UserId) (reason actor : String) :
    Enrolled w (w.applyKick target reason actor).2 := by
  unfold applyKick
  split
  · exact .refl
  split
  · exact .refl
  split
  · exact .refl
  · refine .trans ?_ (enrolled_cleanupClient _ target)
    exact .of_data rfl

theorem enrolled_applyBan (env : Env) (target : UserId) (d : Nat) (reason actor : String) :
    Enrolled w (w.applyBan env target d reason actor).2 := by
  have hrecord := Enrolled.of_touches (touches_banRecord w env target d reason actor) (by decide)
  rw [applyBan_eq]
  generalize w.banRecord env target d reason actor = r at hrecord
  obtain ⟨e | _, w'⟩ := r
  · exact hrecord
  · refine hrecord.trans (.trans ?_ (enrolled_cleanupClient _ target))
    exact .of_data rfl

theorem enrolled_applyDeleteRoom (room : Uuid) : Enrolled w (w.applyDeleteRoom room).2 := by
  unfold applyDeleteRoom
  split
  · exact .refl
  have hchildren := Enrolled.of_touches (touches_reparentChildren w room) (by decide)
  generalize w.reparentChildren room = w₁ at hchildren
  dsimp only
  split
  · exact hchildren
  rename_i data hdata
  refine hchildren.trans (.trans ?_ (.foldl (fun w m =>
    .of_touches (touches_reevaluateMemberMute w m rootRoomUuid) (by decide)) _))
  exact .of_edit (.deleteRoom hdata)

theorem enrolled_handleJoinRoom (t : HandleId) (roomId : Option RoomId) :
    Enrolled w (handleJoinRoom t roomId w) := by
  unfold handleJoinRoom
  refine enrolled_requirePermission ?_
  split
  · exact .of_data rfl
  · refine (Enrolled.setUserRoom t.user (roomIdOrRoot roomId)).trans ?_
    refine .trans (.of_touches (touches_refreshJoinMute _ t (roomIdOrRoot roomId)) (by decide)) ?_
    exact .trans (.of_touches (touches_saveLastRoom _ t.user (roomIdOrRoot roomId)) (by decide))
      (.of_data rfl)

end Operations

theorem enrolled_handleAuthenticated (cfg : Config) (env : Env) {t : HandleId} {payload : Payload}
    (w : World) : Enrolled w (handleAuthenticated cfg env t payload w) := by
  by_cases hf : ∀ f ∈ [Field.memberships, .userStatuses], f ∉ footprint payload
  · exact .of_touches (touches_handleAuthenticated cfg env t payload w) hf
  unfold handleAuthenticated
  cases payload
  case joinRoom roomId => exact enrolled_handleJoinRoom t roomId
  case deleteRoom roomId =>
    dsimp only
    unfold handleDeleteRoom
    refine enrolled_requirePermission ?_
    have hdelete := enrolled_applyDeleteRoom (w := w) (roomIdOrRoot roomId)
    generalize w.applyDeleteRoom (roomIdOrRoot roomId) = r at hdelete
    obtain ⟨_ | _, w'⟩ := r
    · exact hdelete.trans (.of_data rfl)
    · exact hdelete.trans (.of_data rfl)
  case setUserStatus isMuted isDeafened => exact .of_edit (.setUserStatus _ _ _)
  case kickUser target reason =>
    dsimp only
    unfold handleKickUser
    refine enrolled_requirePermission ?_
    split
    · exact .of_data rfl
    · exact enrolled_replyResult (enrolled_applyKick _ _ _)
  case banUser target d reason =>
    dsimp only
    unfold handleBanUser
    refine enrolled_requirePermission ?_
    split
    · exact .of_data rfl
    · exact enrolled_replyResult (enrolled_applyBan _ _ _ _ _)
  case controllerHello =>
    dsimp only
    unfold handleControllerHello
    split
    · exact .of_data rfl
    split
    · exact .of_data rfl
    · refine .trans ?_ (.trans (Enrolled.removeUserMembership t.user) (.of_data rfl))
      exact .of_data rfl
  case registerParticipant name label =>
    dsimp only
    unfold handleController
    split
    · exact .refl
    · exact .trans (enrolled_createParticipant (.connection t.user) name label none
        ((w.state.conn t.user).publicKey.bind w.store.getParticipantDefaultGroup).toList true)
        (.of_data rfl)
  case unregisterParticipant u =>
    dsimp only
    unfold handleController
    split
    · exact .refl
    · exact enrolled_withParticipant ((enrolled_removeParticipant u).trans (.of_data rfl))
  case moveParticipant u roomId =>
    dsimp only
    unfold handleController
    split
    · exact .refl
    · refine enrolled_withParticipant ?_
      have hmove := enrolled_moveParticipantToRoom (w := w) u (roomIdOrRoot roomId)
      generalize w.moveParticipantToRoom u (roomIdOrRoot roomId) = r at hmove
      obtain ⟨_ | _, w'⟩ := r
      · exact hmove.trans (.of_data rfl)
      · exact hmove.trans (.of_data rfl)
  case setParticipantStatus u isMuted isDeafened =>
    dsimp only
    unfold handleController
    split
    · exact .refl
    · refine enrolled_withParticipant ?_
      exact .of_edit (.setUserStatus _ _ _)
  case authenticate =>
    dsimp only
    unfold handleController
    split
    · exact .refl
    · exact .refl
  all_goals
    dsimp only [footprint] at hf
    exact absurd (by decide) hf

/-- **Every event writes the roster through the five writes only.** -/
theorem enrolled_step (cfg : Config) (env : Env) (w : World) (e : Event) :
    Enrolled w (step cfg env w e) := by
  by_cases hf : ∀ f ∈ [Field.memberships, .userStatuses], f ∉ e.footprint
  · exact .of_touches (touches_step cfg env w e) hf
  cases e with
  | envelope t payload =>
    show Enrolled w (if (w.state.conn t.user).opened then w.handleEnvelope cfg env t payload else w)
    split
    swap
    · exact .refl
    unfold handleEnvelope
    cases payload
    case authenticate signature timestampMs cert => exact enrolled_handleAuthenticate _ _ _ _ _ _
    case clientHello | disconnect | other =>
      dsimp only [Event.footprint, footprint] at hf
      exact absurd (by decide) hf
    all_goals
      dsimp only
      split
      · exact enrolled_handleAuthenticated cfg env w
      · exact .refl
  | connectionLost u =>
    show Enrolled w (if (w.state.conn u).opened then w.handleConnectionLost u else w)
    split
    swap
    · exact .refl
    unfold handleConnectionLost
    have hteardown := Enrolled.of_touches
      (Touches.beginTeardown (S := [.tornDown]) (w := w) .refl u) (by decide)
    dsimp only
    split
    · exact hteardown.trans (enrolled_cleanupClient _ u)
    · exact hteardown
  | connect | readTimeout | datagram | sweep =>
    dsimp only [Event.footprint] at hf
    exact absurd (by decide) hf

theorem enrolled_run (cfg : Config) (w : World) (inputs : List Input) :
    Enrolled w (run cfg w inputs) :=
  .foldl (fun w i => enrolled_step cfg i.1 w i.2) inputs

/-! ## One entry for each user -/

/-- A user has at most one membership and at most one status. -/
structure StateData.Single (d : StateData) : Prop where
  memberships : (d.memberships.map Prod.fst).Nodup
  statuses : (d.userStatuses.map Prod.fst).Nodup

namespace StateData

theorem single_new : StateData.new.Single := ⟨List.nodup_nil, List.nodup_nil⟩

/-- Drop the entries of a user, then push its new one. -/
theorem nodup_replace {β : Type} {l : List (UserId × β)} (h : (l.map Prod.fst).Nodup) (u : UserId)
    (b : β) : ((l.filter (fun m => m.1 ≠ u) ++ [(u, b)]).map Prod.fst).Nodup := by
  have hsub : ((l.filter (fun m => m.1 ≠ u)).map Prod.fst).Nodup :=
    h.sublist (List.filter_sublist.map _)
  rw [List.map_append]
  refine hsub.append (List.nodup_singleton u) ?_
  intro k hk hku
  obtain rfl : k = u := List.mem_singleton.mp hku
  obtain ⟨m, hm, rfl⟩ := List.mem_map.mp hk
  exact of_decide_eq_true (List.mem_filter.mp hm).2 rfl

theorem Single.edit {d d' : StateData} (hd : d.Single) (h : RosterEdit d d') : d'.Single := by
  cases h with
  | rooms => exact ⟨hd.memberships, hd.statuses⟩
  | setUserRoom u room => exact ⟨nodup_replace hd.memberships u room, hd.statuses⟩
  | removeUserMembership u =>
    exact ⟨hd.memberships.sublist (List.filter_sublist.map _),
      hd.statuses.sublist (List.filter_sublist.map _)⟩
  | setUserStatus u status => exact ⟨hd.memberships, nodup_replace hd.statuses u status⟩
  | @deleteRoom _ room hdelete =>
    obtain ⟨-, -, rfl⟩ := deleteRoom_eq_some.mp hdelete
    refine ⟨?_, hd.statuses⟩
    rw [List.map_map]
    have hkeys : ∀ m ∈ d.memberships, (Prod.fst ∘ fun m : UserId × Uuid =>
        if m.2 = room then (m.1, rootRoomUuid) else m) m = m.1 := by
      intro m _
      by_cases hm : m.2 = room
      · simp [hm]
      · simp [hm]
    rw [List.map_congr_left hkeys]
    exact hd.memberships

theorem Single.edits {d d' : StateData} (hd : d.Single) (h : ReflTransGen RosterEdit d d') :
    d'.Single := by
  induction h with
  | refl => exact hd
  | tail _ hedit ih => exact ih.edit hedit

end StateData

/-- Start-up loads rooms only. -/
theorem enrolled_boot (store : Persistence) : Enrolled (World.init store) (World.boot store) := by
  have hload : ∀ (d : StateData) (e : Uuid × PersistedRoom),
      ReflTransGen RosterEdit d (loadRoom d e) := fun d e => by
    unfold loadRoom StateData.addRoomWithUuidAndParentDesc
    split
    · exact .refl
    split
    · exact .refl
    · exact .single (.rooms d _)
  have hacl : ∀ (d : StateData) (room : Uuid),
      ReflTransGen RosterEdit d (hydrateRoom store d room) := fun d room => by
    unfold hydrateRoom
    split
    · rename_i acl _
      cases hset : d.setRoomAcl room acl.inheritAcl acl.entries with
      | none => exact .refl
      | some d' =>
        obtain ⟨-, rfl⟩ := StateData.editRoom_eq_some.mp hset
        exact .single (.rooms d _)
    · exact .refl
  exact (Transition.reflTransGen_foldl id loadRoom hload store.getAllRooms _).trans
    (Transition.reflTransGen_foldl id (hydrateRoom store) hacl _ _)

/-- **In every reachable state a user is in at most one room.** -/
theorem single_run (cfg : Config) (store : Persistence) (inputs : List Input) :
    (run cfg (World.boot store) inputs).state.data.Single :=
  StateData.single_new.edits ((enrolled_boot store).trans (enrolled_run cfg _ inputs))

end Rumble.Server
