import Rumble.Client.Roster

/-!
# A client that is not connected

Who the client shows once its connection is over. The lists are wiped by a room event and the
session is forgotten by a connection event; the two travel on separate channels, and some ways out
of a connection attempt send only the second (`rumble-client/src/handle.rs`). `nobodyShown_run`
proves that a client which is not connected shows nobody, over every run in which an attempt fails
only while nothing is listed, no server message that lists something is passed on after the end was
announced, and the end is applied after the placements and registered users sent before it.
-/

namespace Rumble.Client

open Rumble.Lib Rumble.Lib.Transition

/-! ## The property and its condition -/

/-- `Disconnected` or `ConnectionLost`. -/
def ConnectionState.isOver : ConnectionState → Bool
  | .disconnected | .connectionLost _ => true
  | .connecting _ | .connected .. | .certificatePending _ => false

/-- The session is forgotten. -/
structure ClientState.Forgotten (s : ClientState) : Prop where
  myUserId : s.myUserId = none
  myRoomId : s.myRoomId = none
  registeredUsers : s.registeredUsers = []

/-- Neither rooms nor users nor groups, and no session. -/
def ClientState.ShowsNobody (s : ClientState) : Prop := s.roster = .empty ∧ s.Forgotten

/-- Once both channels are drained and the connection is over, the client shows nobody. -/
def NobodyShown (c : ClientSys) : Prop :=
  c.connection = [] → c.room = [] → c.state.connection.isOver = true → c.state.ShowsNobody

/-- The connection state a connection event leads to. -/
def ConnectionEvent.leadsTo : ConnectionEvent → Option ConnectionState
  | .connectStarted serverAddr => some (.connecting serverAddr)
  | .certificatePending certInfo => some (.certificatePending certInfo)
  | .connected serverName userId _ _ => some (.connected serverName userId)
  | .disconnected => some .disconnected
  | .connectionLost error => some (.connectionLost error)
  | .kicked _ | .permissionDenied _ | .elevatedChanged _ | .welcomeMessageReceived _ => none

/-- The event puts the client in a room, or lists registered users. -/
def RoomEvent.lingers : RoomEvent → Bool
  | .selfMovedToRoom _ => true
  | .registeredUsersReplaced users => !users.isEmpty
  | _ => false

/-- The event lists something, or lingers. -/
def RoomEvent.fills (e : RoomEvent) : Bool := e.lingers || Roster.empty.apply e ≠ .empty

/-- The connection state once the connection channel is drained. -/
def ClientSys.announced (c : ClientSys) : ConnectionState :=
  c.connection.foldl (fun s x => (x.event.leadsTo).getD s) c.state.connection

/-- An attempt is given up only while nothing is listed. After the end of a connection was
announced, no server message that lists something is passed on. The end is applied after the
placements and the registered users sent before it. -/
def Tidy (c : ClientSys) : ClientMove → Prop
  | .connectAbandoned | .connectFailed _ => c.sentRoster = .empty
  | .serverState m => c.announced.isOver = true → (fullState m).fills = false
  | .stateUpdate expectedHash update => c.announced.isOver = true →
    ∀ e ∈ roomEvents expectedHash update, e.fills = false
  | .registeredUsers users => c.announced.isOver = true → users = []
  | .drainConnection => ∀ x ∈ c.connection.head?, ∀ next ∈ x.event.leadsTo, next.isOver = true →
    ∀ e ∈ c.room, e.stamp < x.stamp → e.event.lingers = false
  | _ => True

instance (c : ClientSys) (m : ClientMove) : Decidable (Tidy c m) := by
  unfold Tidy
  split <;> infer_instance

/-! ## What the events change -/

namespace ClientState

variable {s : ClientState}

@[simp] theorem recompute_connection :
    s.recomputeEffectivePermissions.connection = s.connection := by
  obtain ⟨_, _, h⟩ := s.recompute_eq
  rw [h]

@[simp] theorem recompute_registeredUsers :
    s.recomputeEffectivePermissions.registeredUsers = s.registeredUsers := by
  obtain ⟨_, _, h⟩ := s.recompute_eq
  rw [h]

theorem connection_applyConnection (e : ConnectionEvent) :
    (s.applyConnection e).connection = e.leadsTo.getD s.connection := by
  cases e with
  | connected => exact recompute_connection
  | _ => rfl

/-- Room events leave the connection state alone. -/
theorem connection_applyRoom (e : RoomEvent) : (s.applyRoom e).1.connection = s.connection := by
  cases e with
  | userJoined user =>
    unfold applyRoom addUser
    dsimp only
    split <;> rfl
  | userMoved userId room =>
    unfold applyRoom moveUser
    dsimp only
    split
    · split
      · exact recompute_connection
      · rfl
    split
    · rfl
    split
    · rfl
    · rfl
  | userStatusChanged userId m d sm e =>
    unfold applyRoom setUserStatus
    dsimp only
    split
    · rfl
    split
    · dsimp only
      split
      · exact recompute_connection
      · rfl
    · rfl
  | userGroupChanged userId group added =>
    unfold applyRoom setUserGroup
    dsimp only
    cases findUser s.users userId with
    | none => rfl
    | some user =>
      dsimp only
      generalize (if added then pushGroup user.groups group else
        user.groups.filter (· ≠ group)) = groups
      split
      · exact recompute_connection
      · rfl
  | fullStateReplaced =>
    refine recompute_connection.trans ?_
    unfold adoptRoomPermissions
    split <;> rfl
  | selfMovedToRoom | roomAdded | roomRemoved | roomAclChanged | groupAdded | groupModified
    | groupRemoved => exact recompute_connection
  | stateHashCheckpoint | roomRenamed | roomMoved | roomDescriptionSet | userLeft
    | registeredUsersReplaced => rfl

/-- The end of a connection forgets the session. -/
theorem forgotten_applyConnection {e : ConnectionEvent} {next : ConnectionState}
    (he : e.leadsTo = some next) (hnext : next.isOver = true) :
    (s.applyConnection e).Forgotten := by
  cases e with
  | disconnected | connectionLost => exact ⟨rfl, rfl, rfl⟩
  | connectStarted | certificatePending | connected =>
    obtain rfl := Option.some.inj he
    exact Bool.noConfusion hnext
  | kicked | permissionDenied | elevatedChanged | welcomeMessageReceived => exact nomatch he

/-- A notice leaves it forgotten. -/
theorem Forgotten.applyConnection (h : s.Forgotten) {e : ConnectionEvent} (he : e.leadsTo = none) :
    (s.applyConnection e).Forgotten := by
  cases e with
  | kicked | permissionDenied | elevatedChanged | welcomeMessageReceived =>
    exact ⟨h.myUserId, h.myRoomId, h.registeredUsers⟩
  | connectStarted | certificatePending | connected | disconnected | connectionLost =>
    exact nomatch he

/-- Recomputing permissions leaves it forgotten. -/
theorem Forgotten.recompute (h : s.Forgotten) : s.recomputeEffectivePermissions.Forgotten :=
  ⟨by simpa using h.myUserId, by simpa using h.myRoomId, by simpa using h.registeredUsers⟩

/-- The user that moves is another one: the client does not know who it is. -/
theorem Forgotten.moveUser (h : s.Forgotten) (userId : UserId) (room : Option Uuid) :
    (s.moveUser userId room).1.Forgotten := by
  unfold ClientState.moveUser
  dsimp only
  rw [if_neg (by simp [editUser, h.myUserId])]
  split
  · exact ⟨h.myUserId, h.myRoomId, h.registeredUsers⟩
  split
  · exact ⟨h.myUserId, h.myRoomId, h.registeredUsers⟩
  · exact ⟨h.myUserId, h.myRoomId, h.registeredUsers⟩

theorem Forgotten.setUserStatus (h : s.Forgotten) (userId : UserId) (m d sm e : Bool) :
    (s.setUserStatus userId m d sm e).1.Forgotten := by
  unfold ClientState.setUserStatus
  split
  · exact h
  dsimp only
  rw [if_neg (by simp [h.myUserId])]
  exact ⟨h.myUserId, h.myRoomId, h.registeredUsers⟩

theorem Forgotten.setUserGroup (h : s.Forgotten) (userId : UserId) (group : String)
    (added : Bool) : (s.setUserGroup userId group added).Forgotten := by
  unfold ClientState.setUserGroup
  split
  · exact h
  dsimp only
  rw [if_neg (by simp [h.myUserId])]
  exact ⟨h.myUserId, h.myRoomId, h.registeredUsers⟩

theorem Forgotten.addUser (h : s.Forgotten) (user : User) : (s.addUser user).1.Forgotten := by
  unfold ClientState.addUser
  split
  · exact h
  · exact ⟨h.myUserId, h.myRoomId, h.registeredUsers⟩

/-- **A room event that does not linger** leaves the session forgotten. -/
theorem Forgotten.applyRoom (h : s.Forgotten) {e : RoomEvent} (he : e.lingers = false) :
    (s.applyRoom e).1.Forgotten := by
  have hsame : ∀ {s' : ClientState}, s'.myUserId = s.myUserId → s'.myRoomId = s.myRoomId →
      s'.registeredUsers = s.registeredUsers → s'.Forgotten := fun hu hr hreg =>
    ⟨hu.trans h.myUserId, hr.trans h.myRoomId, hreg.trans h.registeredUsers⟩
  cases e with
  | selfMovedToRoom => exact Bool.noConfusion he
  | registeredUsersReplaced users =>
    have hnone : users = [] := by simpa [RoomEvent.lingers] using he
    exact ⟨h.myUserId, h.myRoomId, hnone⟩
  | userMoved userId room => exact h.moveUser userId room
  | userStatusChanged userId m d sm e => exact h.setUserStatus userId m d sm e
  | userGroupChanged userId group added => exact h.setUserGroup userId group added
  | userJoined user => exact h.addUser user
  | fullStateReplaced rooms users groups commands perms =>
    refine Forgotten.recompute ?_
    unfold adoptRoomPermissions
    split
    · exact hsame rfl rfl rfl
    · exact hsame rfl rfl rfl
  | roomAdded | roomRemoved | groupAdded | groupModified | groupRemoved | roomAclChanged =>
    exact Forgotten.recompute (hsame rfl rfl rfl)
  | stateHashCheckpoint | roomRenamed | roomMoved | roomDescriptionSet | userLeft =>
    exact hsame rfl rfl rfl

end ClientState

/-! ## What is announced -/

namespace ClientSys

variable {c : ClientSys}

theorem announced_sendConnection (e : ConnectionEvent) :
    (c.sendConnection e).announced = e.leadsTo.getD c.announced := by
  simp [announced, sendConnection, List.foldl_append]

@[simp] theorem announced_sendRoom (e : RoomEvent) : (c.sendRoom e).announced = c.announced := rfl

/-- When nothing on its way leads to another state, the state is the one announced. -/
theorem foldl_leadsTo {q : List (Sent ConnectionEvent)} (h : ∀ x ∈ q, x.event.leadsTo = none)
    (s : ConnectionState) : q.foldl (fun s x => x.event.leadsTo.getD s) s = s := by
  induction q with
  | nil => rfl
  | cons x q ih =>
    rw [List.foldl_cons, h x List.mem_cons_self]
    exact ih fun y hy => h y (List.mem_cons_of_mem x hy)

end ClientSys

/-! ## The invariant -/

/-- Stamps follow the order of sending. -/
structure InOrder (c : ClientSys) : Prop where
  sorted : c.connection.Pairwise fun x y => x.stamp < y.stamp
  connection : ∀ x ∈ c.connection, x.stamp < c.clock
  room : ∀ e ∈ c.room, e.stamp < c.clock

/-- What holds once the end was announced. -/
structure Leaving (c : ClientSys) : Prop where
  roster : c.sentRoster = .empty
  /-- A placement on its way was sent before an event that ends the connection. -/
  lingers : ∀ e ∈ c.room, e.event.lingers = true →
    ∃ x ∈ c.connection, x.event.leadsTo.isSome = true ∧ e.stamp < x.stamp
  forgotten : (∀ x ∈ c.connection, x.event.leadsTo = none) → c.state.Forgotten

/-- Sent in order, and leaving when the end was announced. -/
structure Shows (c : ClientSys) : Prop where
  order : InOrder c
  leaving : c.announced.isOver = true → Leaving c

namespace InOrder

variable {c : ClientSys} (h : InOrder c)
include h

theorem sendConnection (e : ConnectionEvent) : InOrder (c.sendConnection e) where
  sorted := by
    refine List.pairwise_append.mpr ⟨h.sorted, List.pairwise_singleton _ _, fun x hx y hy => ?_⟩
    obtain rfl := List.mem_singleton.mp hy
    exact h.connection x hx
  connection x hx := by
    rcases List.mem_append.mp hx with hx | hx
    · exact Nat.lt_succ_of_lt (h.connection x hx)
    · obtain rfl := List.mem_singleton.mp hx
      exact Nat.lt_succ_self c.clock
  room e he := Nat.lt_succ_of_lt (h.room e he)

theorem sendRoom (e : RoomEvent) : InOrder (c.sendRoom e) where
  sorted := h.sorted
  connection x hx := Nat.lt_succ_of_lt (h.connection x hx)
  room x hx := by
    rcases List.mem_append.mp hx with hx | hx
    · exact Nat.lt_succ_of_lt (h.room x hx)
    · obtain rfl := List.mem_singleton.mp hx
      exact Nat.lt_succ_self c.clock

end InOrder

namespace Shows

variable {c : ClientSys}

theorem new : Shows .new where
  order := ⟨List.Pairwise.nil, fun _ h => (nomatch h), fun _ h => (nomatch h)⟩
  leaving _ := ⟨rfl, fun _ h => (nomatch h), fun _ => ⟨rfl, rfl, rfl⟩⟩

theorem nobodyShown (h : Shows c) : NobodyShown c := by
  intro hcon hroom hover
  have hann : c.announced = c.state.connection := by simp [ClientSys.announced, hcon]
  obtain ⟨hroster, -, hforgotten⟩ := h.leaving (by rwa [hann])
  refine ⟨?_, hforgotten fun x hx => ?_⟩
  · rw [← hroster, c.sentRoster_of_drained hroom]
  · rw [hcon] at hx
    exact nomatch hx

/-- Nothing is listed, and no placement was sent after an event that ends the connection. -/
theorem ended (h : InOrder c) (hroster : c.sentRoster = .empty) {x : Sent ConnectionEvent}
    (hx : x ∈ c.connection) (hleads : x.event.leadsTo.isSome = true)
    (hroom : ∀ e ∈ c.room, e.event.lingers = true → e.stamp < x.stamp) : Shows c where
  order := h
  leaving _ := by
    refine ⟨hroster, fun e he hl => ⟨x, hx, hleads, hroom e he hl⟩, fun hnone => ?_⟩
    rw [hnone x hx] at hleads
    exact Bool.noConfusion hleads

/-- An event that ends the connection, sent when nothing is listed. -/
theorem sendEnd (h : InOrder c) (hroster : c.sentRoster = .empty) {e : ConnectionEvent}
    (he : e.leadsTo.isSome = true) : Shows (c.sendConnection e) :=
  ended (x := ⟨c.clock, e⟩) (h.sendConnection e) hroster
    (List.mem_append_right _ (List.mem_singleton.mpr rfl)) he fun r hr _ => h.room r hr

/-- The loss of a connection, and the wipe behind it. -/
theorem connectionLost (h : InOrder c) (error : String) :
    Shows (c.step (.connectionLost error)) := by
  refine ended (x := ⟨c.clock, .connectionLost error⟩) ((h.sendConnection _).sendRoom _) ?_
    (List.mem_append_right _ (List.mem_singleton.mpr rfl)) rfl fun r hr hl => ?_
  · exact (ClientSys.sentRoster_sendRoom _ _).trans rfl
  · rcases List.mem_append.mp hr with hr | hr
    · exact h.room r hr
    · obtain rfl := List.mem_singleton.mp hr
      exact Bool.noConfusion hl

/-- An event that leads elsewhere leaves nothing to show. -/
theorem sendOpen (h : InOrder c) {e : ConnectionEvent} {next : ConnectionState}
    (he : e.leadsTo = some next) (hnext : next.isOver = false) : Shows (c.sendConnection e) where
  order := h.sendConnection e
  leaving hover := by
    rw [ClientSys.announced_sendConnection, he, Option.getD_some, hnext] at hover
    exact Bool.noConfusion hover

theorem sendNotice (h : Shows c) {e : ConnectionEvent} (he : e.leadsTo = none) :
    Shows (c.sendConnection e) where
  order := h.order.sendConnection e
  leaving hover := by
    rw [ClientSys.announced_sendConnection, he] at hover
    obtain ⟨hroster, hlingers, hforgotten⟩ := h.leaving hover
    refine ⟨hroster, fun r hr hl => ?_, fun hnone => hforgotten fun x hx => ?_⟩
    · obtain ⟨x, hx, hleads⟩ := hlingers r hr hl
      exact ⟨x, List.mem_append_left _ hx, hleads⟩
    · exact hnone x (List.mem_append_left _ hx)

/-- A room event that lists nothing once the end was announced. -/
theorem sendRoom (h : Shows c) {e : RoomEvent}
    (he : c.announced.isOver = true → e.fills = false) : Shows (c.sendRoom e) where
  order := h.order.sendRoom e
  leaving hover := by
    obtain ⟨hroster, hlingers, hforgotten⟩ := h.leaving hover
    have hfills := he hover
    simp only [RoomEvent.fills, Bool.or_eq_false_iff, decide_eq_false_iff_not, not_not] at hfills
    refine ⟨?_, fun r hr hl => ?_, hforgotten⟩
    · rw [ClientSys.sentRoster_sendRoom, hroster]
      exact hfills.2
    · rcases List.mem_append.mp hr with hr | hr
      · exact hlingers r hr hl
      · obtain rfl := List.mem_singleton.mp hr
        rw [hfills.1] at hl
        exact Bool.noConfusion hl

theorem sendRooms {es : List RoomEvent} (h : Shows c)
    (he : c.announced.isOver = true → ∀ e ∈ es, e.fills = false) :
    Shows (es.foldl ClientSys.sendRoom c) := by
  induction es generalizing c with
  | nil => exact h
  | cons e es ih =>
    refine ih (h.sendRoom fun hover => he hover e List.mem_cons_self) fun hover x hx => ?_
    exact he hover x (List.mem_cons_of_mem e hx)

theorem drainConnection (h : Shows c) (hc : Tidy c .drainConnection) :
    Shows (c.step .drainConnection) := by
  obtain hstep | ⟨x, rest, hq, hstep⟩ := c.drainConnection_cases
  · rwa [hstep]
  have hsent := c.sentRoster_drainConnection
  rw [hstep] at hsent ⊢
  have hsorted := h.order.sorted
  rw [hq, List.pairwise_cons] at hsorted
  refine ⟨⟨hsorted.2, fun y hy => h.order.connection y (by simp [hq, hy]), h.order.room⟩,
    fun hover => ?_⟩
  have hann : c.announced.isOver = true := by
    unfold ClientSys.announced at hover ⊢
    rw [hq, List.foldl_cons, ← ClientState.connection_applyConnection]
    exact hover
  obtain ⟨hroster, hlingers, hforgotten⟩ := h.leaving hann
  by_cases hlast : ∀ y ∈ rest, y.event.leadsTo = none
  · -- nothing behind it leads elsewhere: the event is what ends the connection, or a notice
    have hstate : (c.state.applyConnection x.event).connection.isOver = true := by
      unfold ClientSys.announced at hover
      rwa [ClientSys.foldl_leadsTo hlast] at hover
    rw [ClientState.connection_applyConnection] at hstate
    have hearlier : ∀ e ∈ c.room, e.event.lingers = true →
        x.event.leadsTo.isSome = true ∧ e.stamp < x.stamp := by
      intro e he hl
      obtain ⟨y, hy, hleads, hlt⟩ := hlingers e he hl
      rw [hq] at hy
      rcases List.mem_cons.mp hy with rfl | hy
      · exact ⟨hleads, hlt⟩
      · rw [hlast y hy] at hleads
        exact Bool.noConfusion hleads
    have hx : x ∈ c.connection.head? := by simp [hq]
    cases hnext : x.event.leadsTo with
    | none =>
      refine ⟨hsent.trans hroster, fun e he hl => ?_, fun _ => ?_⟩
      · have hsome := (hearlier e he hl).1
        rw [hnext] at hsome
        exact Bool.noConfusion hsome
      · refine (hforgotten fun y hy => ?_).applyConnection hnext
        rw [hq] at hy
        rcases List.mem_cons.mp hy with rfl | hy
        · exact hnext
        · exact hlast y hy
    | some next =>
      rw [hnext, Option.getD_some] at hstate
      refine ⟨hsent.trans hroster, fun e he hl => ?_, fun _ =>
        ClientState.forgotten_applyConnection hnext hstate⟩
      have hno := hc x hx next hnext hstate e he (hearlier e he hl).2
      rw [hl] at hno
      exact Bool.noConfusion hno
  · -- a later event ends the connection
    obtain ⟨y, hy, hleads⟩ : ∃ y ∈ rest, y.event.leadsTo.isSome = true := by
      push Not at hlast
      obtain ⟨y, hy, hne⟩ := hlast
      exact ⟨y, hy, Option.isSome_iff_ne_none.mpr hne⟩
    refine ⟨hsent.trans hroster, fun e he hl => ?_, fun hnone => absurd hnone hlast⟩
    obtain ⟨z, hz, hzleads, hlt⟩ := hlingers e he hl
    rw [hq] at hz
    rcases List.mem_cons.mp hz with rfl | hz
    · exact ⟨y, hy, hleads, hlt.trans (hsorted.1 y hy)⟩
    · exact ⟨z, hz, hzleads, hlt⟩

theorem drainRoom (h : Shows c) : Shows (c.step .drainRoom) := by
  obtain hstep | ⟨x, rest, hq, hstep⟩ := c.drainRoom_cases
  · rwa [hstep]
  have hsent := c.sentRoster_drainRoom
  rw [hstep] at hsent ⊢
  refine ⟨⟨h.order.sorted, h.order.connection, fun e he => h.order.room e (by simp [hq, he])⟩,
    fun hover => ?_⟩
  have hcon : (c.state.applyRoom x.event).1.connection = c.state.connection :=
    ClientState.connection_applyRoom x.event
  have hann : c.announced.isOver = true := by
    unfold ClientSys.announced at hover ⊢
    rwa [hcon] at hover
  obtain ⟨hroster, hlingers, hforgotten⟩ := h.leaving hann
  refine ⟨hsent.trans hroster, fun e he hl => hlingers e (by simp [hq, he]) hl, fun hnone => ?_⟩
  refine (hforgotten hnone).applyRoom (Bool.eq_false_iff.mpr fun hl => ?_)
  obtain ⟨y, hy, hleads, -⟩ := hlingers x (by simp [hq]) hl
  rw [hnone y hy] at hleads
  exact Bool.noConfusion hleads

/-- **One move** that meets the condition. -/
theorem step (h : Shows c) {m : ClientMove} (hc : Tidy c m) : Shows (c.step m) := by
  cases m with
  | connectStarted | certificatePending => exact sendOpen h.order rfl rfl
  | connectSucceeded userId key session rooms users groups commands =>
    have hopen := sendOpen h.order (e := .connected "Rumble Server" userId key session) rfl rfl
    have hann : (c.sendConnection (.connected "Rumble Server" userId key session)).announced.isOver
        = false := by
      rw [ClientSys.announced_sendConnection]
      rfl
    refine (hopen.sendRoom fun hover => ?_).sendRoom fun hover => ?_
    · rw [hann] at hover
      exact Bool.noConfusion hover
    · rw [ClientSys.announced_sendRoom, hann] at hover
      exact Bool.noConfusion hover
  | connectAbandoned | connectFailed => exact sendEnd h.order hc rfl
  | disconnect =>
    refine sendEnd (h.order.sendRoom _) ?_ rfl
    rw [ClientSys.sentRoster_sendRoom]
    rfl
  | connectionLost error => exact connectionLost h.order error
  | serverState m => exact h.sendRoom hc
  | stateUpdate expected update => exact h.sendRooms hc
  | registeredUsers users =>
    refine h.sendRoom fun hover => ?_
    rw [hc hover]
    rfl
  | kicked | permissionDenied | welcomeMessage => exact h.sendNotice rfl
  | drainConnection => exact h.drainConnection hc
  | drainRoom => exact h.drainRoom

end Shows

/-- **A client that is not connected shows nobody** in every run whose moves meet `Tidy`. -/
theorem nobodyShown_run (moves : List ClientMove) (h : Always ClientSys.step Tidy .new moves) :
    ∀ pre, pre <+: moves → NobodyShown (ClientSys.new.run pre) := fun _ hpre =>
  (h.invariant_all (fun _ _ hc hshows => hshows.step hc) Shows.new hpre).nobodyShown

/-! ## Runs -/

/-- A connect, a lost connection, a reconnect that times out, and one that succeeds until the user
disconnects. -/
def sampleLeaving : List ClientMove :=
  sampleConnect 1 rootRoomUuid ++ sampleDrain 2 2 ++ [.connectionLost "Connection closed"] ++
    sampleDrain 1 1 ++ [.connectStarted "localhost", .connectAbandoned] ++ sampleDrain 2 0 ++
    sampleConnect 2 rootRoomUuid ++ sampleDrain 2 2 ++
    [.registeredUsers [⟨Bytes.rep 32 3, "bob", [], true⟩], .disconnect] ++ sampleDrain 0 2 ++
    sampleDrain 1 0

theorem nobodyShown_sample :
    (ClientSys.new.run sampleLeaving).connection.isEmpty = true ∧
      (ClientSys.new.run sampleLeaving).room.isEmpty = true ∧
        (ClientSys.new.run sampleLeaving).state.connection = .disconnected ∧
          NobodyShown (ClientSys.new.run sampleLeaving) :=
  ⟨by decide +kernel, by decide +kernel, by decide +kernel,
    nobodyShown_run sampleLeaving (by decide +kernel) _ (List.prefix_refl _)⟩

/-- A connected client connects elsewhere, and the attempt fails. -/
def sampleSwitch : List ClientMove :=
  sampleConnect 1 rootRoomUuid ++ sampleDrain 2 2 ++
    [.connectStarted "elsewhere", .connectFailed "connection refused"] ++ sampleDrain 2 0

/-- The same, and the user rejects the certificate of the other server. -/
def sampleReject : List ClientMove :=
  sampleConnect 1 rootRoomUuid ++ sampleDrain 2 2 ++
    [.connectStarted "elsewhere", .certificatePending ⟨"elsewhere", "elsewhere", "bob"⟩] ++
    sampleDrain 2 0 ++ [.connectAbandoned] ++ sampleDrain 1 0

/-- **The rooms and users of the server left behind stay** when the attempt to connect elsewhere
fails, and when its certificate is rejected. -/
theorem not_nobodyShown :
    ¬ NobodyShown (ClientSys.new.run sampleSwitch) ∧
      ¬ NobodyShown (ClientSys.new.run sampleReject) := by
  have hkeeps : ∀ {c : ClientSys}, c.connection.isEmpty = true → c.room.isEmpty = true →
      c.state.connection.isOver = true → c.state.roster ≠ .empty → ¬ NobodyShown c :=
    fun hcon hroom hover hne h =>
      hne (h (List.isEmpty_iff.mp hcon) (List.isEmpty_iff.mp hroom) hover).1
  exact ⟨hkeeps (by decide +kernel) (by decide +kernel) (by decide +kernel) (by decide +kernel),
    hkeeps (by decide +kernel) (by decide +kernel) (by decide +kernel) (by decide +kernel)⟩

end Rumble.Client
