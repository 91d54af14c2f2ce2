import Rumble.Server.Interleaving
import Rumble.Server.RoomTree

/-!
# Where members are

Every membership names an existing room. `Housed w w'` says that an operation leaves the room ids
as they are and puts members into Root or an existing room only; `housed_step` proves it of every
event that is none of CreateRoom, MoveRoom, DeleteRoom and JoinRoom.
-/

namespace Rumble.Server

open Rumble.Lib World

abbrev World.memberships (w : World) : List (UserId × Uuid) := w.state.data.memberships

/-- A room list that is a tree, and memberships in its rooms. -/
structure RoomsSound (w : World) : Prop where
  tree : RoomTree w.rooms
  homes : ∀ m ∈ w.memberships, ∃ r ∈ w.rooms, r.id = m.2

/-- The room ids are kept, and a new membership is in Root or in an existing room. -/
structure Housed (w w' : World) : Prop where
  ids : w'.rooms.map Room.id = w.rooms.map Room.id
  homes : ∀ m ∈ w'.memberships,
    m ∈ w.memberships ∨ m.2 = rootRoomUuid ∨ m.2 ∈ w.rooms.map Room.id

namespace Housed

variable {w w' w'' : World} {S : List Field}

theorem refl : Housed w w := ⟨rfl, fun _ hm => .inl hm⟩

theorem trans (h : Housed w w') (h' : Housed w' w'') : Housed w w'' := by
  refine ⟨h'.ids.trans h.ids, fun m hm => ?_⟩
  rcases h'.homes m hm with hm | hm | hm
  · exact h.homes m hm
  · exact .inr (.inl hm)
  · exact .inr (.inr (h.ids ▸ hm))

theorem foldl {β : Type} {f : World → β → World} (hf : ∀ w b, Housed w (f w b)) (l : List β) :
    Housed w (l.foldl f w) := by
  induction l generalizing w with
  | nil => exact refl
  | cons b l ih => exact (hf w b).trans ih

theorem of_touches (h : Touches S w w') (hS : ∀ f ∈ [Field.rooms, .memberships], f ∉ S) :
    Housed w w' := by
  have hrooms : w'.rooms = w.rooms := h .rooms (hS _ (by decide))
  have hmem : w'.memberships = w.memberships := h .memberships (hS _ (by decide))
  exact ⟨by rw [hrooms], fun m hm => .inl (hmem ▸ hm)⟩

/-- The rooms are as they were and some memberships are gone. -/
theorem of_subset (hrooms : w'.rooms = w.rooms) (hsub : w'.memberships ⊆ w.memberships) :
    Housed w w' := ⟨by rw [hrooms], fun _ hm => .inl (hsub hm)⟩

theorem of_data (h : w'.state.data = w.state.data) : Housed w w' :=
  of_subset (congrArg StateData.rooms h) fun m hm => by
    have hmem : w'.memberships = w.memberships := congrArg StateData.memberships h
    rwa [hmem] at hm

/-- An announcement moves nobody. -/
theorem broadcast (h : Housed w w') (u : Update) : Housed w (w'.broadcastStateUpdate u) :=
  ⟨h.ids, h.homes⟩

theorem setUserRoom (u : UserId) {room : Uuid}
    (hroom : room = rootRoomUuid ∨ room ∈ w.rooms.map Room.id) :
    Housed w (w.mapData (·.setUserRoom u room)) := by
  refine ⟨rfl, fun m hm => ?_⟩
  rcases List.mem_append.mp hm with hm | hm
  · exact .inl (List.mem_filter.mp hm).1
  · obtain rfl := List.mem_singleton.mp hm
    exact .inr hroom

theorem removeUserMembership (u : UserId) : Housed w (w.mapData (·.removeUserMembership u)) :=
  of_subset rfl fun _ hm => (List.mem_filter.mp hm).1

/-- A sound room list stays sound. -/
theorem homes_of (h : Housed w w') (hw : RoomsSound w) :
    ∀ m ∈ w'.memberships, ∃ r ∈ w'.rooms, r.id = m.2 := by
  intro m hm
  have hid : m.2 ∈ w.rooms.map Room.id := by
    rcases h.homes m hm with hm | hm | hm
    · obtain ⟨r, hr, hid⟩ := hw.homes m hm
      exact hid ▸ List.mem_map_of_mem hr
    · obtain ⟨r, hr, hid, -⟩ := exists_of_parentLink hw.tree.rooted.root_link
      rw [hm, ← hid]
      exact List.mem_map_of_mem hr
    · exact hm
  rw [← h.ids] at hid
  exact List.mem_map.mp hid

end Housed

/-! ## Teardown and login -/

section Operations

variable {w : World}

theorem housed_cleanupParticipant (w : World) (u : UserId) : Housed w (w.cleanupParticipant u) := by
  unfold cleanupParticipant
  split
  · exact .of_subset rfl fun _ hm => (List.mem_filter.mp hm).1
  · exact .refl

theorem housed_cleanupClient (w : World) (u : UserId) : Housed w (w.cleanupClient u) := by
  have hparticipants : ∀ b, Housed w (w.cleanupParticipants u b) := fun b => by
    unfold cleanupParticipants
    split
    · exact .foldl housed_cleanupParticipant _
    · exact .refl
  have hforget : ∀ w' : World, Housed w' (w'.mapState (·.forgetClient u)) := fun w' =>
    (Housed.removeUserMembership u).trans (.of_data (w'.state.data_forgetClient u))
  unfold cleanupClient
  dsimp only
  split
  · exact ((hparticipants _).trans (hforget _)).broadcast _
  · exact (hparticipants _).trans (hforget _)

theorem housed_evictSupersededSessions (w : World) (key : PublicKey) (name : String)
    (new : UserId) : Housed w (w.evictSupersededSessions key name new) := by
  refine .foldl (fun w old => ?_) _
  unfold evictOne
  split
  · exact .refl
  split
  · exact .refl
  split
  · exact .refl
  have hteardown : Touches [.tornDown, .closed, .log] w (w.beginTeardown old).2 :=
    Touches.beginTeardown .refl old
  dsimp only
  split
  · exact .of_touches hteardown (by decide)
  · exact (Housed.of_touches ((hteardown.sendFrame _ _).setClosed old) (by decide)).trans
      (housed_cleanupClient _ old)

theorem housed_enterServer (cfg : Config) (sender : HandleId) (key : PublicKey) :
    Housed w (w.enterServer cfg sender key) := by
  have hroom : w.initialRoom key = rootRoomUuid ∨ w.initialRoom key ∈ w.rooms.map Room.id := by
    unfold initialRoom
    split
    · split
      · rename_i hany
        obtain ⟨r, hr, hid⟩ := List.any_eq_true.mp hany
        exact .inr (eq_of_beq hid ▸ List.mem_map_of_mem hr)
      · exact .inl rfl
    · exact .inl rfl
  have hframes : ∀ w' : World, Touches [.log] w' ((w'.sendServerStateToClient cfg sender)) :=
    fun w' => Touches.sendServerState .refl cfg sender
  refine (Housed.setUserRoom sender.user hroom).trans ?_
  unfold enterServer
  dsimp only
  split
  · exact .of_touches (((hframes _).broadcast _).sendFrame _ _) (by decide)
  · exact .of_touches ((hframes _).broadcast _) (by decide)

theorem housed_handleAuthenticate (cfg : Config) (env : Env) (sender : HandleId)
    (signature : List UInt8) (timestampMs : Int) (cert : Option SessionCertificate) :
    Housed w (handleAuthenticate cfg env sender signature timestampMs cert w) := by
  have hfailed : ∀ {w' : World} (error : String), Housed w w' →
      Housed w (w'.sendAuthFailed sender error) := fun error h =>
    h.trans (.of_touches (Touches.sendAuthFailed (S := [.closed, .log]) .refl _ _) (by decide))
  have hpublish : ∀ (w' : World) (p : PendingAuth) (session : SessionEntry),
      Housed w' (w'.publishAuth cfg env sender p session) := fun w' p session =>
    (Housed.of_touches (touches_markAuthenticated w' env sender p) (by decide)).trans
      ((housed_evictSupersededSessions _ _ _ _).trans
        ((Housed.of_touches (touches_addSession _ sender.user session) (by decide)).trans
          (housed_enterServer cfg sender p.publicKey)))
  unfold handleAuthenticate ServerState.takePendingAuth
  split
  · exact hfailed _ .refl
  · rename_i pending state heq
    obtain ⟨-, rfl⟩ := Prod.mk.inj heq
    have htake : Housed w (w.mapState fun _ => { w.state with
        pendingAuth := w.state.pendingAuth.del sender.user }) := .of_data rfl
    dsimp only
    split
    · exact hfailed _ htake
    · have hban := htake.trans (Housed.of_touches
        (touches_banCheck _ pending.publicKey env.nowSecs) (by decide))
      split
      · exact hfailed _ hban
      split
      · exact hfailed _ hban
      · exact hban.trans (hpublish _ _ _)

/-! ## Participants -/

theorem housed_createParticipant (owner : OwnerId) (name : String) (label verified : Option String)
    (groups : List String) (present : Bool) :
    Housed w (w.createParticipant owner name label verified groups present).2 := by
  have hmember : Housed w (w.mapState fun s => ServerState.registerParticipant
      { s with nextUserId := s.nextUserId + 1 } w.state.nextUserId owner
      { displayName := name, verifiedUsername := verified, label := label, groups := groups }) :=
    .of_data rfl
  unfold createParticipant
  dsimp only
  split
  · exact (hmember.trans (.setUserRoom w.state.nextUserId (.inl rfl))).broadcast _
  · exact hmember

theorem housed_removeParticipant (u : UserId) : Housed w (w.removeParticipant u) := by
  have hremove : Housed w ((w.mapState fun s => (s.removeClient u).2).mapData
      (·.removeUserMembership u)) :=
    .of_subset rfl fun _ hm => (List.mem_filter.mp hm).1
  unfold removeParticipant
  dsimp only
  split
  · exact hremove.broadcast _
  · exact hremove

theorem housed_moveParticipantToRoom (u : UserId) (room : Uuid) :
    Housed w (w.moveParticipantToRoom u room).2 := by
  unfold moveParticipantToRoom
  split
  · exact .refl
  rename_i hany
  have hroom : room ∈ w.rooms.map Room.id := by
    simp only [Bool.not_eq_true, Bool.not_eq_false'] at hany
    obtain ⟨r, hr, hid⟩ := List.any_eq_true.mp hany
    exact eq_of_beq hid ▸ List.mem_map_of_mem hr
  have hset := Housed.setUserRoom (w := w) u (.inr hroom)
  dsimp only
  split
  · exact hset.broadcast _
  split
  · exact hset
  · exact hset.broadcast _

theorem housed_withParticipant {sender : HandleId} {command : String} {u : UserId}
    {rest : World → World} (h : Housed w (rest w)) :
    Housed w (withParticipant sender command u rest w) := by
  unfold withParticipant
  split
  · exact h
  · exact .of_data rfl

/-! ## Handlers -/

theorem housed_requirePermission {sender : HandleId} {room : Uuid} {p : Permissions}
    {rest : World → World} (h : Housed w (rest w)) :
    Housed w (w.requirePermission sender room p rest) := by
  unfold requirePermission
  split
  · exact h
  · exact .of_data rfl

theorem housed_replyResult {sender : HandleId} {command : String} {r : OpResult}
    (h : Housed w r.2) : Housed w (replyResult sender command r) :=
  h.trans (.of_data (by rw [replyResult_state]))

/-- An in-place edit that keeps the ids. -/
theorem housed_edit {room : Uuid} {f : Room → Room} {d : StateData} (hid : ∀ r, (f r).id = r.id)
    (hd : w.state.data.editRoom room f = some d) : Housed w (w.mapData fun _ => d) := by
  obtain ⟨-, rfl⟩ := StateData.editRoom_eq_some.mp hd
  exact ⟨map_key_modifyFirst Room.id _ _ hid _, fun _ hm => .inl hm⟩

theorem housed_applyKick (target : UserId) (reason actor : String) :
    Housed w (w.applyKick target reason actor).2 := by
  unfold applyKick
  split
  · exact .refl
  split
  · exact .refl
  split
  · exact .refl
  · refine .trans ?_ (housed_cleanupClient _ target)
    exact .of_data rfl

theorem housed_applyBan (env : Env) (target : UserId) (d : Nat) (reason actor : String) :
    Housed w (w.applyBan env target d reason actor).2 := by
  have hrecord := Housed.of_touches (touches_banRecord w env target d reason actor) (by decide)
  rw [applyBan_eq]
  generalize w.banRecord env target d reason actor = r at hrecord
  obtain ⟨e | _, w'⟩ := r
  · exact hrecord
  · refine hrecord.trans (.trans ?_ (housed_cleanupClient _ target))
    exact .of_data rfl

theorem housed_applySetRoomAcl (cfg : Config) (room : Uuid) (inherit : Bool)
    (entries : List RoomAclEntry) (base : Nat) :
    Housed w (w.applySetRoomAcl cfg room inherit entries base).2 := by
  unfold applySetRoomAcl
  split
  · exact .refl
  split
  · exact .refl
  · rename_i d hd
    have hwritten : Housed w (w.mapData fun _ => d) :=
      housed_edit (f := fun r => { r with inheritAcl := inherit, acls := entries })
        (fun _ => rfl) hd
    refine .trans ?_ (.foldl (fun w m =>
      .of_touches (touches_reevaluateMemberMute w m room) (by decide)) _)
    exact hwritten.trans (.of_data rfl)

end Operations

/-- The event is a request of the room tree or a JoinRoom. -/
def Event.editsRooms : Event → Bool
  | .envelope _ (.joinRoom _) | .envelope _ (.createRoom ..) | .envelope _ (.moveRoom ..)
  | .envelope _ (.deleteRoom _) => true
  | _ => false

theorem housed_handleAuthenticated (cfg : Config) (env : Env) {t : HandleId} {payload : Payload}
    (w : World) (he : (Event.envelope t payload).editsRooms = false) :
    Housed w (handleAuthenticated cfg env t payload w) := by
  by_cases hf : ∀ f ∈ [Field.rooms, .memberships], f ∉ footprint payload
  · exact .of_touches (touches_handleAuthenticated cfg env t payload w) hf
  unfold handleAuthenticated
  cases payload
  case joinRoom | createRoom | moveRoom | deleteRoom => exact Bool.noConfusion he
  case renameRoom roomId name =>
    dsimp only
    unfold handleRenameRoom
    refine housed_requirePermission ?_
    dsimp only
    split
    · exact .of_data rfl
    · rename_i d hd
      exact (housed_edit (f := fun r => { r with name := name }) (fun _ => rfl) hd).trans
        (.of_data rfl)
  case setRoomDescription roomId text =>
    dsimp only
    unfold handleSetRoomDescription
    refine housed_requirePermission ?_
    dsimp only
    split
    · exact .of_data rfl
    · rename_i d hd
      exact (housed_edit
        (f := fun r => { r with description := if text.isEmpty then none else some text })
        (fun _ => rfl) hd).trans (.of_data rfl)
  case setRoomAcl roomId inherit entries base =>
    dsimp only
    unfold handleSetRoomAcl
    split
    · exact .of_data rfl
    · exact housed_requirePermission (housed_replyResult (housed_applySetRoomAcl _ _ _ _ _))
  case kickUser target reason =>
    dsimp only
    unfold handleKickUser
    refine housed_requirePermission ?_
    split
    · exact .of_data rfl
    · exact housed_replyResult (housed_applyKick _ _ _)
  case banUser target d reason =>
    dsimp only
    unfold handleBanUser
    refine housed_requirePermission ?_
    split
    · exact .of_data rfl
    · exact housed_replyResult (housed_applyBan _ _ _ _ _)
  case controllerHello =>
    dsimp only
    unfold handleControllerHello
    split
    · exact .of_data rfl
    split
    · exact .of_data rfl
    · refine .trans ?_ (.trans (Housed.removeUserMembership t.user) (.of_data rfl))
      exact .of_data rfl
  case registerParticipant name label =>
    dsimp only
    unfold handleController
    split
    · exact .refl
    · exact .trans (housed_createParticipant (.connection t.user) name label none
        ((w.state.conn t.user).publicKey.bind w.store.getParticipantDefaultGroup).toList true)
        (.of_data rfl)
  case unregisterParticipant u =>
    dsimp only
    unfold handleController
    split
    · exact .refl
    · exact housed_withParticipant ((housed_removeParticipant u).trans (.of_data rfl))
  case moveParticipant u roomId =>
    dsimp only
    unfold handleController
    split
    · exact .refl
    · refine housed_withParticipant ?_
      have hmove := housed_moveParticipantToRoom (w := w) u (roomIdOrRoot roomId)
      generalize w.moveParticipantToRoom u (roomIdOrRoot roomId) = r at hmove
      obtain ⟨_ | _, w'⟩ := r
      · exact hmove.trans (.of_data rfl)
      · exact hmove.trans (.of_data rfl)
  case authenticate =>
    dsimp only
    unfold handleController
    split
    · exact .refl
    · exact .refl
  all_goals
    dsimp only [footprint] at hf
    exact absurd (by decide) hf

/-- **Members stay in existing rooms** over every event that edits no rooms. -/
theorem housed_step (cfg : Config) (env : Env) (w : World) {e : Event}
    (he : e.editsRooms = false) : Housed w (step cfg env w e) := by
  by_cases hf : ∀ f ∈ [Field.rooms, .memberships], f ∉ e.footprint
  · exact .of_touches (touches_step cfg env w e) hf
  cases e with
  | envelope t payload =>
    show Housed w (if (w.state.conn t.user).opened then w.handleEnvelope cfg env t payload else w)
    split
    swap
    · exact .refl
    unfold handleEnvelope
    cases payload
    case authenticate signature timestampMs cert => exact housed_handleAuthenticate _ _ _ _ _ _
    case clientHello | disconnect | other =>
      dsimp only [Event.footprint, footprint] at hf
      exact absurd (by decide) hf
    all_goals
      dsimp only
      split
      · exact housed_handleAuthenticated cfg env w he
      · exact .refl
  | connectionLost u =>
    show Housed w (if (w.state.conn u).opened then w.handleConnectionLost u else w)
    split
    swap
    · exact .refl
    unfold handleConnectionLost
    have hteardown := Housed.of_touches (Touches.beginTeardown (S := [.tornDown]) (w := w) .refl u)
      (by decide)
    dsimp only
    split
    · exact hteardown.trans (housed_cleanupClient _ u)
    · exact hteardown
  | connect | readTimeout | datagram | sweep =>
    dsimp only [Event.footprint] at hf
    exact absurd (by decide) hf

end Rumble.Server
