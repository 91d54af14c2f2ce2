import Rumble.Client.Replica

/-!
# Operations the replicas follow

`Keeps g g' w w'`: the operation from `w` to `w'` keeps every client in session in agreement with
the server, from a state with the login `g` under way to one with `g'`. A change nobody is shown
needs no announcement (`Keeps.silent`); every other one is announced by an update that says to the
clients what it does to the lists of the server (`Keeps.announce`).
-/

namespace Rumble.Client

open Rumble.Lib Rumble.Lib.Replication Rumble.Server Rumble.Server.World
open Rumble.Server.ServerState (SameEntry Settled)

variable {strict : Prop} {h : UserId → Handshake} {g g' g'' : Option UserId} {w w' w'' w₁ : World}

/-! ## The rules -/

/-- The log between the two worlds holds neither full states nor updates. -/
abbrev Hushed (strict : Prop) (h : UserId → Handshake) (w w' : World) : Prop :=
  (replicas strict h).Hushed w w'

abbrev Keeps (strict : Prop) (h : UserId → Handshake) (g g' : Option UserId) (w w' : World) :
    Prop :=
  (replicas strict h).Follows (fun w => w.state.Settled g) (fun w => w.state.Settled g') w w'

/-- The fields that clients are shown or that their session depends on. -/
@[reducible] def shownFields : List Field :=
  [.members, .rooms, .memberships, .userStatuses, .nextUserId, .opened, .authenticated, .identity,
    .isController, .isSuperuser, .serverMuted, .groups]

/-- A write of other fields. -/
structure Unseen (w w' : World) : Prop where
  members : w'.state.members = w.state.members
  data : w'.state.data = w.state.data
  nextUserId : w'.state.nextUserId = w.state.nextUserId
  conn : ∀ v, (w'.state.conn v).opened = (w.state.conn v).opened ∧
    (w'.state.conn v).authenticated = (w.state.conn v).authenticated ∧
    (w'.state.conn v).identity = (w.state.conn v).identity
  handle : ∀ t, (w'.state.handle t).isController = (w.state.handle t).isController ∧
    (w'.state.handle t).isSuperuser = (w.state.handle t).isSuperuser ∧
    (w'.state.handle t).serverMuted = (w.state.handle t).serverMuted
  groups : w'.store.groups = w.store.groups

namespace Unseen

theorem of_touches {S : List Field} (ht : Touches S w w') (hS : ∀ f ∈ shownFields, f ∉ S) :
    Unseen w w' where
  members := ht .members (hS _ (by decide))
  data := by
    have hrooms : w'.state.data.rooms = w.state.data.rooms := ht .rooms (hS _ (by decide))
    have hmem : w'.state.data.memberships = w.state.data.memberships :=
      ht .memberships (hS _ (by decide))
    have hstat : w'.state.data.userStatuses = w.state.data.userStatuses :=
      ht .userStatuses (hS _ (by decide))
    show StateData.mk w'.state.data.rooms w'.state.data.memberships w'.state.data.userStatuses =
      StateData.mk w.state.data.rooms w.state.data.memberships w.state.data.userStatuses
    rw [hrooms, hmem, hstat]
  nextUserId := ht .nextUserId (hS _ (by decide))
  conn := fun v => ⟨congrFun (ht .opened (hS _ (by decide))) v,
    congrFun (ht .authenticated (hS _ (by decide))) v,
    congrFun (ht .identity (hS _ (by decide))) v⟩
  handle := fun t => ⟨congrFun (ht .isController (hS _ (by decide))) t,
    congrFun (ht .isSuperuser (hS _ (by decide))) t,
    congrFun (ht .serverMuted (hS _ (by decide))) t⟩
  groups := ht .groups (hS _ (by decide))

theorem settled (hu : Unseen w w') (hw : w.state.Settled g) : w'.state.Settled g := by
  refine hw.withCells hu.data hu.members hu.nextUserId (fun v => ?_)
    (fun v => (hu.handle (primary v)).1) (fun v hv => .inl ((hu.handle (primary v)).2.1 ▸ hv))
    fun v _ => (hu.handle (primary v)).2
  obtain ⟨ho, ha, hi⟩ := hu.conn v
  exact ⟨ha, ho, congrArg Identity.label hi⟩

theorem attending (hu : Unseen w w') (c : UserId) : Attending w' c ↔ Attending w c := by
  unfold Attending ServerState.getClient
  rw [hu.members, hu.data, (hu.conn c).2.1, (hu.handle (primary c)).1]

theorem userView (hu : Unseen w w') (u : UserId) : w'.state.userView u = w.state.userView u := by
  have hentry : SameEntry w.state w'.state u :=
    ⟨by rw [hu.members], (hu.conn u).2.2, by rw [hu.data], (hu.handle (primary u)).1,
      (hu.handle (primary u)).2.1, (hu.handle (primary u)).2.2⟩
  exact hentry.userView (by rw [hu.data])

theorem matches_of (hu : Unseen w w') {r : Roster} (hr : r.Matches w) : r.Matches w' where
  rooms := hr.rooms.trans (congrArg StateData.rooms hu.data).symm
  ids := hr.ids
  users := fun u => (hr.users u).trans (hu.userView u).symm
  names := hr.names
  groups := fun name => by
    unfold groupView Persistence.getGroup
    rw [hu.groups]
    exact hr.groups name

end Unseen

/-- A client that was brought into step by an update, which then passes the hash check. -/
theorem agrees_update (strict : Prop) (k : Handshake) (w₁ : World) {c : UserId}
    (hc : w₁.state.getClient c = true) (hsingle : w₁.state.data.Single) (u : Update) {x : Replica}
    (hmatch : (x.state.roster.update u).Matches w₁) (hsync : strict → x.resync = false) :
    Agrees strict (receive k c (some x) (.broadcast w₁.state.snapshotClients
      (.stateUpdate w₁.state.hashInput u))) (w₁.broadcastStateUpdate u) := by
  have hlisted : c ∈ w₁.state.snapshotClients := mem_snapshotClients.mpr hc
  have hlogged : Unseen w₁ (w₁.broadcastStateUpdate u) :=
    .of_touches (Touches.broadcast (S := [.log]) .refl u) (by decide)
  obtain ⟨y, hy, hroster, hcheck⟩ := receive_update k hlisted x w₁.state.hashInput u
  have hy' : y.state.roster.Matches w₁ := hroster ▸ hmatch
  exact ⟨y, hy, hlogged.matches_of hy', fun hs =>
    hcheck (hsync hs) (hashInput_of_matches hy' hsingle)⟩

namespace Keeps

theorem refl : Keeps strict h g g w w := Feed.Follows.refl

theorem trans (hk : Keeps strict h g g' w w') (hk' : Keeps strict h g' g'' w' w'') :
    Keeps strict h g g'' w w'' := Feed.Follows.trans hk hk'

/-- What nobody is shown needs no announcement. -/
theorem silent (hu : Unseen w w') (hlog : Hushed strict h w w') : Keeps strict h g g w w' := by
  refine Feed.Follows.hushed hu.settled hlog (fun c => (hu.attending c).mp) ?_
  rintro c r - ⟨x, hx, hmatch, hsync⟩
  exact ⟨x, hx, hu.matches_of hmatch, hsync⟩

theorem send (w : World) (t : HandleId) (f : Frame) (hf : isStateFrame f = false) :
    Keeps strict h g g w (w.sendFrame t f) :=
  silent (.of_touches (Touches.sendFrame (S := [.log]) .refl t f) (by decide))
    (.of_entry rfl (ignored_send t hf))

/-- **Announcement.** An update that does to the lists of the clients what the operation did to the
server's. -/
theorem announce (u : Update) (hlog : Hushed strict h w w₁)
    (hproper : Proper (.broadcast w₁.state.snapshotClients (.stateUpdate w₁.state.hashInput u)))
    (hsettled : w.state.Settled g → w₁.state.Settled g')
    (hlive : w.state.Settled g → ∀ c, Attending w₁ c → Attending w c)
    (hmatch : w.state.Settled g → ∀ r : Roster, r.Matches w → (r.update u).Matches w₁) :
    Keeps strict h g g' w (w₁.broadcastStateUpdate u) := by
  refine Feed.Follows.announced hsettled hlog rfl hproper ?_
  intro hw c r hc hr
  obtain ⟨x, rfl, hx, hsync⟩ := hr (hlive hw c hc)
  exact agrees_update strict (h c) w₁ hc.1 (hsettled hw).data.single u (hmatch hw _ hx) hsync

end Keeps

/-! ## What an update does to the lists -/

/-- An edit that does not look at the permissions. -/
theorem map_bareRoom_modifyFirst (room : Uuid) {f : Room → Room}
    (hf : ∀ x, bareRoom (f x) = f (bareRoom x)) (l : List Room) :
    (modifyFirst (fun x => x.id == room) f l).map bareRoom =
      modifyFirst (fun x => x.id == room) f (l.map bareRoom) := by
  induction l with
  | nil => rfl
  | cons x l ih =>
    have hid : (bareRoom x).id = x.id := rfl
    rw [List.map_cons, modifyFirst_cons, modifyFirst_cons, hid]
    split
    · rw [List.map_cons, hf]
    · rw [List.map_cons, ih]

namespace Roster.Matches

variable {r : Roster}

/-- Only users change. -/
theorem withUsers (hr : r.Matches w) {users : List User} (hrooms : w₁.rooms = w.rooms)
    (hgroups : w₁.store.groups = w.store.groups) (hids : (users.map User.userId).Nodup)
    (husers : ∀ u, ClientState.findUser users u = w₁.state.userView u) :
    Roster.Matches { r with users := users } w₁ where
  rooms := hr.rooms.trans hrooms.symm
  ids := hids
  users := husers
  names := hr.names
  groups := fun name => by
    unfold groupView Persistence.getGroup
    rw [hgroups]
    exact hr.groups name

theorem userLeft (hr : r.Matches w) (u : UserId) (hrooms : w₁.rooms = w.rooms)
    (hgroups : w₁.store.groups = w.store.groups)
    (hviews : ∀ v, w₁.state.userView v = if v = u then none else w.state.userView v) :
    (r.update (.userLeft (some u))).Matches w₁ := by
  refine hr.withUsers hrooms hgroups (hr.ids.sublist (List.filter_sublist.map _)) fun v => ?_
  rw [hviews, ← hr.users]
  exact find?_filter_ne User.userId u r.users v

/-- The entry of one user is edited, if it is there. -/
theorem editUser (hr : r.Matches w) (u : UserId) {f : User → User}
    (hf : ∀ x, (f x).userId = x.userId) (hrooms : w₁.rooms = w.rooms)
    (hgroups : w₁.store.groups = w.store.groups)
    (hviews : ∀ v, w₁.state.userView v =
      if v = u then (w.state.userView v).map f else w.state.userView v) :
    (r.editUser u f).Matches w₁ := by
  refine hr.withUsers hrooms hgroups ?_ fun v => ?_
  · rw [map_key_modifyFirst User.userId _ f hf]
    exact hr.ids
  · rw [hviews, ← hr.users]
    exact find?_modifyFirst User.userId u hf r.users v

theorem userJoined (hr : r.Matches w) (user : User) (hnew : w.state.userView user.userId = none)
    (hrooms : w₁.rooms = w.rooms) (hgroups : w₁.store.groups = w.store.groups)
    (hviews : ∀ v, w₁.state.userView v =
      if v = user.userId then some user else w.state.userView v) :
    (r.update (.userJoined (some user.toProto))).Matches w₁ := by
  have hnone := (hr.users user.userId).trans hnew
  have hfree : ∀ x ∈ r.users, x.userId ≠ user.userId := fun x hx => by
    simpa using List.find?_eq_none.mp hnone x hx
  have hany : r.users.any (fun x => x.userId == user.userId) = false := by simpa using hfree
  have hupdate : r.update (.userJoined (some user.toProto)) =
      { r with users := r.users ++ [user] } := by
    have hevent : updateEvent (.userJoined (some user.toProto)) = some (.userJoined user) :=
      congrArg (Option.map RoomEvent.userJoined) (User.fromProto_toProto user)
    unfold Roster.update Roster.apply
    rw [hevent]
    dsimp only
    rw [hany]
    rfl
  rw [hupdate]
  refine hr.withUsers hrooms hgroups ?_ fun v => ?_
  · rw [List.map_append]
    refine hr.ids.append (List.nodup_singleton _) ?_
    intro k hk hku
    obtain ⟨x, hx, rfl⟩ := List.mem_map.mp hk
    exact hfree x hx (List.mem_singleton.mp hku)
  · rw [hviews, ← hr.users]
    unfold ClientState.findUser
    rw [List.find?_append]
    by_cases hv : v = user.userId
    · subst v
      have hnone' : r.users.find? (fun x => x.userId == user.userId) = none := hnone
      simp [hnone']
    · simp [hv, Ne.symm hv]

/-- Only rooms change. -/
theorem withRooms (hr : r.Matches w) {rooms : List Room} (hrooms : rooms.map bareRoom = w₁.rooms)
    (hgroups : w₁.store.groups = w.store.groups)
    (hviews : ∀ v, w₁.state.userView v = w.state.userView v) :
    Roster.Matches { r with rooms := rooms } w₁ where
  rooms := hrooms
  ids := hr.ids
  users := fun u => (hr.users u).trans (hviews u).symm
  names := hr.names
  groups := fun name => by
    unfold groupView Persistence.getGroup
    rw [hgroups]
    exact hr.groups name

theorem withGroups (hr : r.Matches w) {groups : List Group} (hdata : w₁.rooms = w.rooms)
    (hviews : ∀ v, w₁.state.userView v = w.state.userView v)
    (hnames : (groups.map Group.name).Nodup)
    (hgroups : ∀ name, groups.find? (fun x => x.name == name) = groupView w₁.store name) :
    Roster.Matches { r with groups := groups } w₁ where
  rooms := hr.rooms.trans hdata.symm
  ids := hr.ids
  users := fun u => (hr.users u).trans (hviews u).symm
  names := hnames
  groups := hgroups

/-- A group is defined, or defined anew. -/
theorem groupModified (hr : r.Matches w) (name : String) (permissions : BitVec 32)
    (hdata : w₁.rooms = w.rooms) (hviews : ∀ v, w₁.state.userView v = w.state.userView v)
    (hgroups : w₁.store.groups = w.store.groups.set name permissions) :
    (r.update (.groupChanged (some ⟨name, permissions, builtinGroups.contains name⟩)
      false)).Matches w₁ := by
  have hview : ∀ n, groupView w₁.store n = if n = name then
      some ⟨name, permissions, builtinGroups.contains name⟩ else groupView w.store n := by
    intro n
    unfold groupView Persistence.getGroup
    rw [hgroups, Table.get_set]
    by_cases hn : n = name
    · rw [if_pos hn, if_pos hn, hn]
      rfl
    · rw [if_neg hn, if_neg hn]
  have hupdate : r.update (.groupChanged
      (some ⟨name, permissions, builtinGroups.contains name⟩) false) = ⟨r.rooms, r.users,
      (modifyFirst? (fun x => x.name == name)
        (fun _ => ⟨name, permissions, builtinGroups.contains name⟩) r.groups).getD
        (r.groups ++ [⟨name, permissions, builtinGroups.contains name⟩])⟩ := rfl
  rw [hupdate]
  unfold modifyFirst?
  by_cases hany : r.groups.any (fun x => x.name == name) = true
  · rw [if_pos hany, Option.getD_some]
    -- The edit renames nothing, since it is made where the name is.
    have hedit : modifyFirst (fun x : Group => x.name == name)
        (fun _ => ⟨name, permissions, builtinGroups.contains name⟩) r.groups =
        modifyFirst (fun x : Group => x.name == name) (fun x => { x with
          permissions := permissions, isBuiltin := builtinGroups.contains name }) r.groups :=
      modifyFirst_congr (fun x hx => by rw [← eq_of_beq hx]) r.groups
    have hname : ∀ x : Group, (Group.mk x.name permissions (builtinGroups.contains name)).name =
        x.name := fun _ => rfl
    rw [hedit]
    refine hr.withGroups hdata hviews ?_ fun n => ?_
    · rw [map_key_modifyFirst Group.name _ _ hname]
      exact hr.names
    · rw [find?_modifyFirst Group.name name hname, hview]
      by_cases hn : n = name
      · subst n
        obtain ⟨x, hx, hsame⟩ := List.any_eq_true.mp hany
        rw [if_pos rfl, if_pos rfl]
        cases hfind : r.groups.find? fun x => x.name == name with
        | none => exact absurd hsame (List.find?_eq_none.mp hfind x hx)
        | some y =>
          have hy : y.name = name := by simpa using List.find?_some hfind
          rw [Option.map_some, ← hy]
      · rw [if_neg hn, if_neg hn]
        exact hr.groups n
  · rw [if_neg hany, Option.getD_none]
    have hfree : ∀ x ∈ r.groups, x.name ≠ name := by simpa using hany
    refine hr.withGroups hdata hviews ?_ fun n => ?_
    · rw [List.map_append]
      refine hr.names.append (List.nodup_singleton _) ?_
      intro k hk hkn
      obtain ⟨x, hx, rfl⟩ := List.mem_map.mp hk
      exact hfree x hx (List.mem_singleton.mp hkn)
    · rw [hview, List.find?_append, hr.groups n]
      by_cases hn : n = name
      · subst n
        have hnone : groupView w.store name = none := by
          rw [← hr.groups]
          exact List.find?_eq_none.mpr fun x hx => by simpa using hfree x hx
        simp [hnone]
      · simp [hn, Ne.symm hn]

theorem groupRemoved (hr : r.Matches w) (group : Group)
    (hdata : w₁.rooms = w.rooms) (hviews : ∀ v, w₁.state.userView v = w.state.userView v)
    (hgroups : w₁.store.groups = w.store.groups.del group.name) :
    (r.update (.groupChanged (some group) true)).Matches w₁ := by
  refine hr.withGroups hdata hviews (hr.names.sublist (List.filter_sublist.map _)) fun n => ?_
  rw [find?_filter_ne Group.name group.name r.groups n, hr.groups]
  unfold groupView Persistence.getGroup
  rw [hgroups, Table.get_del]
  by_cases hn : n = group.name
  · rw [if_pos hn, if_pos hn]
    rfl
  · rw [if_neg hn, if_neg hn]

end Roster.Matches

end Rumble.Client
