import Rumble.Server.Roster
import Rumble.Server.StoredRooms
import Rumble.Server.Teardown

/-!
# What the server shows of a user

`userView` reads the user list through a user id, and each write of the state changes it for one
user at most. `Settled` is what the server keeps besides: a flag is set on authenticated connections
only, memberships and statuses belong to authenticated users and participants, and a client that is
through its login is in a room or a controller.
-/

namespace Rumble.Server

open Rumble.Lib World

/-! ## Memberships and statuses of one user -/

namespace StateData

variable (d : StateData) (u v : UserId)

theorem getUserRoom_setUserRoom (room : Uuid) : (d.setUserRoom u room).getUserRoom v =
    if v = u then some room else d.getUserRoom v := find?_replace d.memberships u room v

theorem getUserRoom_removeUserMembership : (d.removeUserMembership u).getUserRoom v =
    if v = u then none else d.getUserRoom v := by
  unfold removeUserMembership getUserRoom
  rw [find?_filter_ne Prod.fst]
  split <;> rfl

theorem status_setUserStatus (status : UserStatus) : (d.setUserStatus u status).getUserStatus v =
    if v = u then status else d.getUserStatus v := by
  unfold getUserStatus setUserStatus
  rw [find?_replace]
  split <;> rfl

theorem status_removeUserMembership : (d.removeUserMembership u).getUserStatus v =
    if v = u then {} else d.getUserStatus v := by
  unfold removeUserMembership getUserStatus
  rw [find?_filter_ne Prod.fst]
  split <;> rfl

/-- The members of one room are sent to another. -/
theorem getUserRoom_relocate (room room' : Uuid) :
    getUserRoom { d with memberships := d.memberships.map fun m =>
      if m.2 = room then (m.1, room') else m } v =
      (d.getUserRoom v).map fun r => if r = room then room' else r := by
  unfold getUserRoom
  dsimp only
  rw [List.find?_map, Option.map_map, Option.map_map]
  have hkey : ((fun m : UserId × Uuid => m.1 == v) ∘ fun m : UserId × Uuid =>
      if m.2 = room then (m.1, room') else m) = fun m => m.1 == v := by
    funext m
    by_cases hm : m.2 = room <;> simp [hm]
  rw [hkey]
  congr 1
  funext m
  by_cases hm : m.2 = room <;> simp [hm]

theorem getUserRoom_eq_none : d.getUserRoom u = none ↔ ∀ m ∈ d.memberships, m.1 ≠ u := by
  unfold getUserRoom
  rw [Option.map_eq_none_iff, List.find?_eq_none]
  simp

theorem status_of_none (h : ∀ e ∈ d.userStatuses, e.1 ≠ u) : d.getUserStatus u = {} := by
  unfold getUserStatus
  rw [List.find?_eq_none.mpr fun e he => by simpa using h e he]
  rfl

end StateData

/-! ## The view of a user -/

namespace ServerState

variable {s s' : ServerState} {u : UserId}

theorem handle_setHandle (f : ClientHandle → ClientHandle) (v : UserId) :
    (s.setHandle (primary u) f).handle (primary v) =
      if v = u then f (s.handle (primary v)) else s.handle (primary v) := by
  unfold setHandle
  by_cases hv : v = u
  · subst v
    rw [if_pos rfl]
    exact Function.update_self _ _ _
  · rw [if_neg hv]
    exact Function.update_of_ne (fun heq => hv (congrArg HandleId.user heq)) _ _

/-- The entry of a user in the user list. -/
def userView (s : ServerState) (u : UserId) : Option User :=
  (s.data.getUserRoom u).bind fun room => s.rosterEntry (u, room)

theorem rosterEntry_userId {m : UserId × Uuid} {user : User} (h : s.rosterEntry m = some user) :
    user.userId = m.1 ∧ user.currentRoom = m.2 := by
  unfold rosterEntry at h
  split at h
  · cases h
  split at h
  · cases h
  · obtain rfl := Option.some.inj h
    exact ⟨rfl, rfl⟩

/-- **The user list is read through the views.** -/
theorem find?_buildUserList (h : s.data.Single) (u : UserId) :
    s.buildUserList.find? (fun user => user.userId == u) = s.userView u := by
  unfold buildUserList userView StateData.getUserRoom
  rw [find?_filterMap_key (fun _ _ he => (rosterEntry_userId he).1) h.memberships]
  cases hfind : s.data.memberships.find? fun m => m.1 == u with
  | none => rfl
  | some m =>
    obtain rfl : m.1 = u := by simpa using List.find?_some hfind
    rfl

theorem nodup_buildUserList (h : s.data.Single) : (s.buildUserList.map User.userId).Nodup :=
  h.memberships.sublist (sublist_map_filterMap (fun _ _ he => (rosterEntry_userId he).1) _)

/-- A controller and someone who is no member are not shown. -/
theorem rosterEntry_eq_none {room : Uuid} (h : s.members.get u = none ∨
    (s.members.get u = some .client ∧ (s.handle (primary u)).isController = true)) :
    s.rosterEntry (u, room) = none := by
  unfold rosterEntry getMember
  obtain h | ⟨h, hctl⟩ := h
  · rw [h]
  · rw [h]
    exact if_pos hctl

theorem userView_of_no_member (h : s.members.get u = none) : s.userView u = none := by
  unfold userView
  cases s.data.getUserRoom u with
  | none => rfl
  | some room => exact rosterEntry_eq_none (.inl h)

theorem userView_of_controller (h : s.members.get u = some .client)
    (hctl : (s.handle (primary u)).isController = true) : s.userView u = none := by
  unfold userView
  cases s.data.getUserRoom u with
  | none => rfl
  | some room => exact rosterEntry_eq_none (.inr ⟨h, hctl⟩)

theorem userView_of_no_room (h : s.data.getUserRoom u = none) : s.userView u = none := by
  unfold userView
  rw [h]
  rfl

/-- The cells and entries the view of a user is read from, up to its room. -/
structure SameEntry (s s' : ServerState) (u : UserId) : Prop where
  member : s'.members.get u = s.members.get u
  identity : (s'.conn u).identity = (s.conn u).identity
  status : s'.data.getUserStatus u = s.data.getUserStatus u
  isController : (s'.handle (primary u)).isController = (s.handle (primary u)).isController
  isSuperuser : (s'.handle (primary u)).isSuperuser = (s.handle (primary u)).isSuperuser
  serverMuted : (s'.handle (primary u)).serverMuted = (s.handle (primary u)).serverMuted

theorem SameEntry.rosterEntry (h : SameEntry s s' u) (room : Uuid) :
    s'.rosterEntry (u, room) = s.rosterEntry (u, room) := by
  unfold ServerState.rosterEntry getMember memberIsController memberIdentity memberIsSuperuser
  rw [h.member, h.identity, h.status, h.isController, h.isSuperuser, h.serverMuted]

theorem SameEntry.userView (h : SameEntry s s' u)
    (hroom : s'.data.getUserRoom u = s.data.getUserRoom u) : s'.userView u = s.userView u := by
  unfold ServerState.userView
  rw [hroom]
  congr 1
  funext room
  exact h.rosterEntry room

/-- The fields the view of a user is read from. -/
@[reducible] def viewFields : List Field :=
  [.members, .identity, .userStatuses, .memberships, .isController, .isSuperuser, .serverMuted]

theorem userView_of_touches {w w' : World} {S : List Field} (ht : Touches S w w')
    (hS : ∀ f ∈ viewFields, f ∉ S) (u : UserId) : w'.state.userView u = w.state.userView u := by
  have hmem : w'.state.data.memberships = w.state.data.memberships :=
    ht .memberships (hS _ (by decide))
  have hstat : w'.state.data.userStatuses = w.state.data.userStatuses :=
    ht .userStatuses (hS _ (by decide))
  have hmembers : w'.state.members = w.state.members := ht .members (hS _ (by decide))
  have hentry : SameEntry w.state w'.state u :=
    ⟨by rw [hmembers], congrFun (ht .identity (hS _ (by decide))) u,
      by unfold StateData.getUserStatus; rw [hstat],
      congrFun (ht .isController (hS _ (by decide))) (primary u),
      congrFun (ht .isSuperuser (hS _ (by decide))) (primary u),
      congrFun (ht .serverMuted (hS _ (by decide))) (primary u)⟩
  refine hentry.userView ?_
  unfold StateData.getUserRoom
  rw [hmem]

/-- The entry in another room. -/
theorem rosterEntry_room (room room' : Uuid) : s.rosterEntry (u, room') =
    (s.rosterEntry (u, room)).map fun user => { user with currentRoom := room' } := by
  unfold rosterEntry
  dsimp only
  split
  · rfl
  split
  · rfl
  · rfl

end ServerState

/-! ## What the server keeps -/

/-- One entry per user, no permissions in the rooms, and the flags of a status that belong to the
connection never set. -/
structure StateData.Plain (d : StateData) : Prop where
  single : d.Single
  unassigned : Unassigned d.rooms
  statuses : ∀ e ∈ d.userStatuses, e.2.serverMuted = false ∧ e.2.isElevated = false

namespace ServerState

variable {s s' : ServerState} {u : UserId}

/-- The user has authenticated or is a participant. -/
def Known (s : ServerState) (u : UserId) : Prop :=
  (s.conn u).authenticated = true ∨ ∃ owner i, s.members.get u = some (.owned owner i)

/-- What holds of the connections. Ids are assigned in order, to connections and participants
alike. -/
structure Cells (s : ServerState) : Prop where
  flagged : ∀ u, (s.handle (primary u)).isController = true ∨
    (s.handle (primary u)).isSuperuser = true → (s.conn u).authenticated = true
  opened : ∀ u, (s.conn u).authenticated = true → (s.conn u).opened = true
  owned : ∀ u owner i, s.members.get u = some (.owned owner i) → (s.conn u).opened = false
  fresh : ∀ u, s.nextUserId ≤ u → s.members.get u = none ∧ (s.conn u).opened = false
  label : ∀ u, (s.conn u).identity.label = none

/-- A login under way: the client is in no room yet and has no flag. -/
structure Guest (s : ServerState) (u : UserId) : Prop where
  client : s.getClient u = true
  authenticated : (s.conn u).authenticated = true
  room : s.data.getUserRoom u = none
  status : s.data.getUserStatus u = {}
  isController : (s.handle (primary u)).isController = false
  isSuperuser : (s.handle (primary u)).isSuperuser = false
  serverMuted : (s.handle (primary u)).serverMuted = false

/-- What the server keeps, with `g` the login under way. -/
structure Settled (g : Option UserId) (s : ServerState) : Prop where
  data : s.data.Plain
  cells : s.Cells
  rooms : ∀ m ∈ s.data.memberships, s.Known m.1
  statuses : ∀ e ∈ s.data.userStatuses, s.Known e.1
  placed : ∀ u, s.getClient u = true → (s.conn u).authenticated = true → g ≠ some u →
    (s.handle (primary u)).isController = true ∨ (s.data.getUserRoom u).isSome = true
  guest : ∀ u ∈ g, s.Guest u

/-- Members may go, and nothing else that the connections' part speaks of changes. -/
theorem Cells.shrink (h : s.Cells)
    (hmembers : ∀ v m, s'.members.get v = some m → s.members.get v = some m)
    (hnext : s'.nextUserId = s.nextUserId)
    (hconn : ∀ v, (s'.conn v).authenticated = (s.conn v).authenticated ∧
      (s'.conn v).opened = (s.conn v).opened ∧
      (s'.conn v).identity.label = (s.conn v).identity.label)
    (hflags : ∀ v, ((s'.handle (primary v)).isController = true →
        (s.handle (primary v)).isController = true ∨ (s.conn v).authenticated = true) ∧
      ((s'.handle (primary v)).isSuperuser = true →
        (s.handle (primary v)).isSuperuser = true ∨ (s.conn v).authenticated = true)) :
    s'.Cells where
  flagged := fun v hv => by
    rw [(hconn v).1]
    rcases hv with hv | hv
    · exact ((hflags v).1 hv).elim (fun hc => h.flagged v (.inl hc)) id
    · exact ((hflags v).2 hv).elim (fun hs => h.flagged v (.inr hs)) id
  opened := fun v hv => by
    rw [(hconn v).2.1]
    exact h.opened v ((hconn v).1 ▸ hv)
  owned := fun v owner i hv => (hconn v).2.1.trans (h.owned v owner i (hmembers v _ hv))
  fresh := fun v hv => by
    obtain ⟨hnone, hopened⟩ := h.fresh v (hnext ▸ hv)
    refine ⟨?_, (hconn v).2.1.trans hopened⟩
    cases hm : s'.members.get v with
    | none => rfl
    | some m => exact absurd ((hmembers v m hm).symm.trans hnone) (Option.some_ne_none m)
  label := fun v => (hconn v).2.2.trans (h.label v)

/-- A client is no participant. -/
theorem Cells.not_owned (h : s.Cells) (hu : (s.conn u).opened = true) (owner : OwnerId)
    (i : Identity) : s.members.get u ≠ some (.owned owner i) := fun hm => by
  rw [h.owned u owner i hm] at hu
  exact Bool.noConfusion hu

/-- A member is gone, with its membership and its status, and nothing is changed that is shown of
others. -/
structure Removal (s s' : ServerState) (u : UserId) : Prop where
  members : ∀ v, s'.members.get v = if v = u then none else s.members.get v
  data : s'.data = s.data.removeUserMembership u
  nextUserId : s'.nextUserId = s.nextUserId
  conn : ∀ v, (s'.conn v).authenticated = (s.conn v).authenticated ∧
    (s'.conn v).opened = (s.conn v).opened ∧
    (s'.conn v).identity.label = (s.conn v).identity.label
  identity : ∀ v, v ≠ u → (s'.conn v).identity = (s.conn v).identity
  handle : s'.handle = s.handle

namespace Removal

theorem members_of (hr : Removal s s' u) (v : UserId) (m : Member)
    (hm : s'.members.get v = some m) : s.members.get v = some m := by
  rw [hr.members] at hm
  split at hm
  · cases hm
  · exact hm

theorem rooms (hr : Removal s s' u) : s'.data.rooms = s.data.rooms := by
  rw [hr.data]
  rfl

theorem getClient (hr : Removal s s' u) {v : UserId} (hv : s'.getClient v = true) :
    v ≠ u ∧ s.getClient v = true := by
  have hclient := getClient_iff.mp hv
  refine ⟨fun hvu => ?_, getClient_iff.mpr (hr.members_of v _ hclient)⟩
  rw [hr.members, if_pos hvu] at hclient
  cases hclient

theorem userView (hr : Removal s s' u) (v : UserId) :
    s'.userView v = if v = u then none else s.userView v := by
  by_cases hv : v = u
  · rw [if_pos hv]
    exact userView_of_no_member ((hr.members v).trans (if_pos hv))
  · rw [if_neg hv]
    have hentry : SameEntry s s' v := by
      refine ⟨(hr.members v).trans (if_neg hv), hr.identity v hv, ?_, by rw [hr.handle],
        by rw [hr.handle], by rw [hr.handle]⟩
      rw [hr.data, StateData.status_removeUserMembership, if_neg hv]
    refine hentry.userView ?_
    rw [hr.data, StateData.getUserRoom_removeUserMembership, if_neg hv]

theorem forgetClient (s : ServerState) (u : UserId) : Removal s (s.forgetClient u) u where
  members := fun v => by
    rw [members_forgetClient]
    exact Table.get_del _ _ _
  data := data_forgetClient s u
  nextUserId := by
    unfold ServerState.forgetClient removeSession removeClient
    dsimp only
    split <;> rfl
  conn := fun v => by
    rw [conn_forgetClient]
    exact ⟨rfl, rfl, rfl⟩
  identity := fun v _ => by rw [conn_forgetClient]
  handle := handle_forgetClient s u

end Removal

namespace Settled

variable {g : Option UserId}

/-- Who is neither authenticated nor a participant is not shown. -/
theorem userView_of_not_known (h : s.Settled g) (hu : ¬ s.Known u) : s.userView u = none := by
  refine userView_of_no_room ?_
  rw [StateData.getUserRoom_eq_none]
  exact fun m hm heq => hu (heq ▸ h.rooms m hm)

theorem status_of_not_known (h : s.Settled g) (hu : ¬ s.Known u) : s.data.getUserStatus u = {} :=
  s.data.status_of_none u fun e he heq => hu (heq ▸ h.statuses e he)

/-- A write of the state data. -/
theorem withData (h : s.Settled g) {d : StateData} (hd : d.Plain)
    (hrooms : ∀ m ∈ d.memberships, s.Known m.1) (hstatuses : ∀ e ∈ d.userStatuses, s.Known e.1)
    (hplaced : ∀ v, (s.data.getUserRoom v).isSome = true → (d.getUserRoom v).isSome = true)
    (hguest : ∀ v ∈ g, d.getUserRoom v = none ∧ d.getUserStatus v = {}) :
    Settled g { s with data := d } where
  data := hd
  cells := ⟨h.cells.flagged, h.cells.opened, h.cells.owned, h.cells.fresh, h.cells.label⟩
  rooms := hrooms
  statuses := hstatuses
  placed := fun v hc ha hg => (h.placed v hc ha hg).imp_right (hplaced v)
  guest := fun v hv =>
    have hguest' := h.guest v hv
    ⟨hguest'.client, hguest'.authenticated, (hguest v hv).1, (hguest v hv).2,
      hguest'.isController, hguest'.isSuperuser, hguest'.serverMuted⟩

/-- A write of cells: connections stay as authenticated as they are, and only those that are get a
flag. -/
theorem withCells (h : s.Settled g) (hdata : s'.data = s.data) (hmembers : s'.members = s.members)
    (hnext : s'.nextUserId = s.nextUserId)
    (hconn : ∀ v, (s'.conn v).authenticated = (s.conn v).authenticated ∧
      (s'.conn v).opened = (s.conn v).opened ∧
      (s'.conn v).identity.label = (s.conn v).identity.label)
    (hcontroller : ∀ v, (s'.handle (primary v)).isController = (s.handle (primary v)).isController)
    (hsuperuser : ∀ v, (s'.handle (primary v)).isSuperuser = true →
      (s.handle (primary v)).isSuperuser = true ∨ (s.conn v).authenticated = true)
    (hguest : ∀ v ∈ g, (s'.handle (primary v)).isSuperuser = (s.handle (primary v)).isSuperuser ∧
      (s'.handle (primary v)).serverMuted = (s.handle (primary v)).serverMuted) :
    s'.Settled g := by
  have hknown : ∀ v, s.Known v → s'.Known v := fun v hv => by
    unfold Known
    rw [(hconn v).1, hmembers]
    exact hv
  have hclient : ∀ v, s'.getClient v = s.getClient v := fun v => by
    unfold getClient
    rw [hmembers]
  refine ⟨hdata ▸ h.data, ?_, ?_, ?_, ?_, ?_⟩
  · exact h.cells.shrink (fun v m hm => hmembers ▸ hm) hnext hconn fun v =>
      ⟨fun hc => .inl (hcontroller v ▸ hc), hsuperuser v⟩
  · rw [hdata]
    exact fun m hm => hknown m.1 (h.rooms m hm)
  · rw [hdata]
    exact fun e he => hknown e.1 (h.statuses e he)
  · intro v hc ha hg
    rw [hdata, hcontroller]
    exact h.placed v (hclient v ▸ hc) ((hconn v).1 ▸ ha) hg
  · intro v hv
    have hguest' := h.guest v hv
    exact ⟨(hclient v).trans hguest'.client, (hconn v).1.trans hguest'.authenticated,
      hdata ▸ hguest'.room, hdata ▸ hguest'.status, (hcontroller v).trans hguest'.isController,
      (hguest v hv).1.trans hguest'.isSuperuser, (hguest v hv).2.trans hguest'.serverMuted⟩

/-- A member goes, with its membership and its status. -/
theorem remove (h : s.Settled g) (hu : g ≠ some u) (hr : Removal s s' u) : s'.Settled g := by
  have hknown : ∀ v, v ≠ u → s.Known v → s'.Known v := fun v hv hk => by
    unfold Known
    rw [(hr.conn v).1, hr.members, if_neg hv]
    exact hk
  refine ⟨?_, ?_, ?_, ?_, ?_, ?_⟩
  · rw [hr.data]
    exact ⟨h.data.single.edit (.removeUserMembership _ u), h.data.unassigned,
      fun e he => h.data.statuses e (List.mem_filter.mp he).1⟩
  · exact h.cells.shrink hr.members_of hr.nextUserId hr.conn
      fun v => by rw [hr.handle]; exact ⟨.inl, .inl⟩
  · rw [hr.data]
    intro m hm
    obtain ⟨hm, hne⟩ := List.mem_filter.mp hm
    exact hknown m.1 (of_decide_eq_true hne) (h.rooms m hm)
  · rw [hr.data]
    intro e he
    obtain ⟨he, hne⟩ := List.mem_filter.mp he
    exact hknown e.1 (of_decide_eq_true hne) (h.statuses e he)
  · intro v hc ha hg
    obtain ⟨hv, hclient⟩ := hr.getClient hc
    rw [hr.data, hr.handle, StateData.getUserRoom_removeUserMembership, if_neg hv]
    exact h.placed v hclient ((hr.conn v).1 ▸ ha) hg
  · intro v hv
    have hguest := h.guest v hv
    have hne : v ≠ u := fun heq => hu (heq ▸ hv)
    refine ⟨?_, (hr.conn v).1.trans hguest.authenticated, ?_, ?_, hr.handle ▸ hguest.isController,
      hr.handle ▸ hguest.isSuperuser, hr.handle ▸ hguest.serverMuted⟩
    · rw [getClient_iff, hr.members, if_neg hne]
      exact getClient_iff.mp hguest.client
    · rw [hr.data, StateData.getUserRoom_removeUserMembership, if_neg hne]
      exact hguest.room
    · rw [hr.data, StateData.status_removeUserMembership, if_neg hne]
      exact hguest.status

theorem withRooms (h : s.Settled g) {rooms : List Room} (hrooms : Unassigned rooms) :
    Settled g { s with data := { s.data with rooms := rooms } } :=
  h.withData ⟨⟨h.data.single.memberships, h.data.single.statuses⟩, hrooms, h.data.statuses⟩
    h.rooms h.statuses (fun _ => id) fun v hv => ⟨(h.guest v hv).room, (h.guest v hv).status⟩

/-- A known user is put into a room; a login under way ends so. -/
theorem setUserRoom (h : s.Settled g) (hu : s.Known u) (hg : ∀ v ∈ g, v = u) (room : Uuid) :
    Settled none { s with data := s.data.setUserRoom u room } where
  data := ⟨h.data.single.edit (.setUserRoom _ u room), h.data.unassigned, h.data.statuses⟩
  cells := ⟨h.cells.flagged, h.cells.opened, h.cells.owned, h.cells.fresh, h.cells.label⟩
  rooms := fun m hm => by
    rcases List.mem_append.mp hm with hm | hm
    · exact h.rooms m (List.mem_filter.mp hm).1
    · exact List.mem_singleton.mp hm ▸ hu
  statuses := h.statuses
  placed := fun v hc ha _ => by
    show _ ∨ ((s.data.setUserRoom u room).getUserRoom v).isSome = true
    rw [StateData.getUserRoom_setUserRoom]
    by_cases hv : v = u
    · exact .inr (by rw [if_pos hv]; rfl)
    · rw [if_neg hv]
      exact h.placed v hc ha fun hgv => hv (hg v hgv)
  guest := fun v hv => by cases hv

/-- The next id goes to a participant. -/
theorem registerParticipant (h : s.Settled none) (owner : OwnerId) (identity : Identity) :
    Settled none ({ s with nextUserId := s.nextUserId + 1 }.registerParticipant s.nextUserId owner
      identity) := by
  have hget : ∀ v, (s.members.set s.nextUserId (.owned owner identity)).get v =
      if v = s.nextUserId then some (.owned owner identity) else s.members.get v :=
    fun v => Table.get_set _ _ _ _
  have hfresh := h.cells.fresh s.nextUserId le_rfl
  have hknown : ∀ v, s.Known v → Known ({ s with nextUserId := s.nextUserId + 1
      }.registerParticipant s.nextUserId owner identity) v := by
    intro v hk
    refine hk.imp_right ?_
    rintro ⟨owner', i, hm⟩
    refine ⟨owner', i, (hget v).trans ((if_neg fun hv => ?_).trans hm)⟩
    rw [hv, hfresh.1] at hm
    cases hm
  refine ⟨h.data, ⟨h.cells.flagged, h.cells.opened, fun v o i hv => ?_, fun v hv => ?_,
    h.cells.label⟩, fun m hm => hknown _ (h.rooms m hm), fun e he => hknown _ (h.statuses e he),
    fun v hc ha hg => ?_, fun v hv => by cases hv⟩
  · by_cases hvn : v = s.nextUserId
    · exact hvn ▸ hfresh.2
    · exact h.cells.owned v o i (((hget v).trans (if_neg hvn)).symm.trans hv)
  · have hlt : s.nextUserId < v := hv
    obtain ⟨hnone, hopened⟩ := h.cells.fresh v hlt.le
    exact ⟨(hget v).trans ((if_neg hlt.ne').trans hnone), hopened⟩
  · have hclient : (s.members.set s.nextUserId (.owned owner identity)).get v = some .client :=
      getClient_iff.mp hc
    rw [hget] at hclient
    split at hclient
    · cases hclient
    · exact h.placed v (getClient_iff.mpr hclient) ha hg

theorem setUserStatus (h : s.Settled none) (hu : s.Known u) {status : UserStatus}
    (hplain : status.serverMuted = false ∧ status.isElevated = false) :
    Settled none { s with data := s.data.setUserStatus u status } := by
  refine h.withData ⟨h.data.single.edit (.setUserStatus _ u status), h.data.unassigned, ?_⟩
    h.rooms ?_ (fun _ => id) fun v hv => by cases hv
  · intro e he
    rcases List.mem_append.mp he with he | he
    · exact h.data.statuses e (List.mem_filter.mp he).1
    · exact List.mem_singleton.mp he ▸ hplain
  · intro e he
    rcases List.mem_append.mp he with he | he
    · exact h.statuses e (List.mem_filter.mp he).1
    · exact List.mem_singleton.mp he ▸ hu

end Settled

end ServerState

end Rumble.Server
