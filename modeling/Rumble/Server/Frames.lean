import Rumble.Server.Step

/-!
# What each handler can change

The world cut into fields, and for every operation and handler the list of fields it may change.
`Touches S w w'` says that `w'` differs from `w` in fields of `S` only.
-/

namespace Rumble.Server

open Rumble.Lib

/-- The fields of a world. The cells of connections and the flags of handles are one field each. -/
inductive Field where
  | members | rooms | memberships | userStatuses | nextUserId
  | pendingAuth | sessions | voiceRateLimits
  | opened | publicKey | authenticated | identity | closed
  | isController | isSuperuser | serverMuted | manuallyServerMuted | tornDown
  | registeredUsers | knownKeys | storedRooms | groups | userGroups | roomAcls | sudoPassword
  | participantDefaults | bans
  | log
  deriving DecidableEq

namespace Field

def Ty : Field → Type
  | members => Table UserId Member
  | rooms => List Room
  | memberships => List (UserId × Uuid)
  | userStatuses => List (UserId × UserStatus)
  | nextUserId => UserId
  | pendingAuth => Table UserId PendingAuth
  | sessions => Table UserId SessionEntry × Table (Bytes 32) UserId
  | voiceRateLimits => Table UserId VoiceRateLimit
  | opened => UserId → Bool
  | publicKey => UserId → Option PublicKey
  | authenticated => UserId → Bool
  | identity => UserId → Identity
  | closed => UserId → Bool
  | isController => HandleId → Bool
  | isSuperuser => HandleId → Bool
  | serverMuted => HandleId → Bool
  | manuallyServerMuted => HandleId → Bool
  | tornDown => HandleId → Bool
  | registeredUsers => Table PublicKey RegisteredUser
  | knownKeys => Table PublicKey Unit
  | storedRooms => Table Uuid PersistedRoom
  | groups => Table String (BitVec 32)
  | userGroups => Table PublicKey (List String) × Table (PublicKey × String) Nat
  | roomAcls => Table Uuid PersistedRoomAcl
  | sudoPassword => Option String
  | participantDefaults => Table PublicKey String
  | bans => Table PublicKey PersistedBan
  | log => List Out

def val : (f : Field) → World → f.Ty
  | members, w => w.state.members
  | rooms, w => w.state.data.rooms
  | memberships, w => w.state.data.memberships
  | userStatuses, w => w.state.data.userStatuses
  | nextUserId, w => w.state.nextUserId
  | pendingAuth, w => w.state.pendingAuth
  | sessions, w => (w.state.sessions, w.state.sessionsById)
  | voiceRateLimits, w => w.state.voiceRateLimits
  | opened, w => fun u => (w.state.conn u).opened
  | publicKey, w => fun u => (w.state.conn u).publicKey
  | authenticated, w => fun u => (w.state.conn u).authenticated
  | identity, w => fun u => (w.state.conn u).identity
  | closed, w => fun u => (w.state.conn u).closed
  | isController, w => fun h => (w.state.handle h).isController
  | isSuperuser, w => fun h => (w.state.handle h).isSuperuser
  | serverMuted, w => fun h => (w.state.handle h).serverMuted
  | manuallyServerMuted, w => fun h => (w.state.handle h).manuallyServerMuted
  | tornDown, w => fun h => (w.state.handle h).tornDown
  | registeredUsers, w => w.store.registeredUsers
  | knownKeys, w => w.store.knownKeys
  | storedRooms, w => w.store.rooms
  | groups, w => w.store.groups
  | userGroups, w => (w.store.userGroups, w.store.groupExpiries)
  | roomAcls, w => w.store.roomAcls
  | sudoPassword, w => w.store.sudoPassword
  | participantDefaults, w => w.store.participantDefaults
  | bans, w => w.store.bans
  | log, w => w.log

end Field

/-- `f` is listed in `S`. An instance is found by walking down the list. -/
class Listed (f : Field) (S : List Field) : Prop where
  mem : f ∈ S

instance Listed.head {f : Field} {S : List Field} : Listed f (f :: S) := ⟨List.mem_cons_self⟩

instance Listed.tail {f g : Field} {S : List Field} [h : Listed f S] : Listed f (g :: S) :=
  ⟨List.mem_cons_of_mem g h.mem⟩

/-- `w'` differs from `w` in fields of `S` only. -/
def Touches (S : List Field) (w w' : World) : Prop := ∀ f, f ∉ S → f.val w' = f.val w

namespace Touches

variable {S T : List Field} {w w' w'' : World}

theorem refl : Touches S w w := fun _ _ => rfl

theorem trans (h : Touches S w w') (h' : Touches S w' w'') : Touches S w w'' :=
  fun f hf => (h' f hf).trans (h f hf)

theorem mono (hST : S ⊆ T) (h : Touches S w w') : Touches T w w' :=
  fun f hf => h f fun hS => hf (hST hS)

theorem foldl {β : Type} {f : World → β → World} (hf : ∀ w b, Touches S w (f w b)) (l : List β) :
    Touches S w (l.foldl f w) := by
  induction l generalizing w with
  | nil => exact refl
  | cons b l ih => exact (hf w b).trans ih

/-! ## The log -/

theorem emit (h : Touches S w w') (o : Out) [hS : Listed .log S] :
    Touches S w (w'.emit o) := by
  refine h.trans fun f hf => ?_
  cases f <;> first | rfl | exact absurd hS.mem hf

theorem sendFrame (h : Touches S w w') (t : HandleId) (f : Frame)
    [Listed .log S] : Touches S w (w'.sendFrame t f) := h.emit _

theorem sendCommandResult (h : Touches S w w') (t : HandleId) (c : String) (b : Bool) (m : String)
    [Listed .log S] : Touches S w (w'.sendCommandResult t c b m) := h.emit _

theorem sendPermissionDenied (h : Touches S w w') (t : HandleId) (r : Uuid) (p : Permissions)
    [Listed .log S] : Touches S w (w'.sendPermissionDenied t r p) := h.emit _

theorem broadcast (h : Touches S w w') (u : Update) [Listed .log S] :
    Touches S w (w'.broadcastStateUpdate u) := h.emit _

theorem sendServerState (h : Touches S w w') (cfg : Config) (t : HandleId)
    [Listed .log S] : Touches S w (w'.sendServerStateToClient cfg t) :=
  h.emit _

theorem requirePermission (t : HandleId) (r : Uuid) (p : Permissions) {rest : World → World}
    (h : Touches S w (rest w)) [Listed .log S] :
    Touches S w (w.requirePermission t r p rest) := by
  unfold World.requirePermission
  split
  · exact h
  · exact refl.sendPermissionDenied _ _ _

theorem replyResult (t : HandleId) (c : String) {r : OpResult} (h : Touches S w r.2)
    [Listed .log S] : Touches S w (World.replyResult t c r) := by
  obtain ⟨m | m, w'⟩ := r
  · exact h.sendCommandResult _ _ _ _
  · exact h.sendCommandResult _ _ _ _

/-! ## Cells of connections and flags of handles -/

theorem setConn (h : Touches S w w') (u : UserId) (g : Conn → Conn)
    (hg : ∀ c, (Field.opened ∉ S → (g c).opened = c.opened) ∧
      (Field.publicKey ∉ S → (g c).publicKey = c.publicKey) ∧
      (Field.authenticated ∉ S → (g c).authenticated = c.authenticated) ∧
      (Field.identity ∉ S → (g c).identity = c.identity) ∧
      (Field.closed ∉ S → (g c).closed = c.closed)) :
    Touches S w (w'.mapState (·.setConn u g)) := by
  refine h.trans fun f hf => ?_
  obtain ⟨h1, h2, h3, h4, h5⟩ := hg (w'.state.conn u)
  cases f
  case opened | publicKey | authenticated | identity | closed =>
    funext x
    by_cases hx : x = u
    · subst hx; simp_all [Field.val, ServerState.setConn]
    · simp [Field.val, ServerState.setConn, hx]
  all_goals rfl

theorem setHandle (h : Touches S w w') (t : HandleId) (g : ClientHandle → ClientHandle)
    (hg : ∀ c, (Field.isController ∉ S → (g c).isController = c.isController) ∧
      (Field.isSuperuser ∉ S → (g c).isSuperuser = c.isSuperuser) ∧
      (Field.serverMuted ∉ S → (g c).serverMuted = c.serverMuted) ∧
      (Field.manuallyServerMuted ∉ S → (g c).manuallyServerMuted = c.manuallyServerMuted) ∧
      (Field.tornDown ∉ S → (g c).tornDown = c.tornDown)) :
    Touches S w (w'.mapState (·.setHandle t g)) := by
  refine h.trans fun f hf => ?_
  obtain ⟨h1, h2, h3, h4, h5⟩ := hg (w'.state.handle t)
  cases f
  case isController | isSuperuser | serverMuted | manuallyServerMuted | tornDown =>
    funext x
    by_cases hx : x = t
    · subst hx; simp_all [Field.val, ServerState.setHandle]
    · simp [Field.val, ServerState.setHandle, hx]
  all_goals rfl

theorem setClosed (h : Touches S w w') (u : UserId) [hS : Listed .closed S] :
    Touches S w (w'.closeConn u) :=
  h.setConn u _ fun _ => ⟨fun _ => rfl, fun _ => rfl, fun _ => rfl, fun _ => rfl, (absurd hS.mem ·)⟩

theorem setIdentity (h : Touches S w w') (u : UserId) (g : Identity → Identity)
    [hS : Listed .identity S] : Touches S w (w'.mapState (·.setIdentity u g)) :=
  h.setConn u _ fun _ => ⟨fun _ => rfl, fun _ => rfl, fun _ => rfl, (absurd hS.mem ·), fun _ => rfl⟩

theorem setServerMuted (h : Touches S w w') (t : HandleId) (b : Bool)
    [hS : Listed .serverMuted S] :
    Touches S w (w'.mapState (·.setHandle t fun c => { c with serverMuted := b })) :=
  h.setHandle t _ fun _ => ⟨fun _ => rfl, fun _ => rfl, (absurd hS.mem ·), fun _ => rfl, fun _ => rfl⟩

theorem sendAuthFailed (h : Touches S w w') (t : HandleId) (e : String)
    [Listed .log S] [Listed .closed S] :
    Touches S w (w'.sendAuthFailed t e) := (h.sendFrame t _).setClosed t.user

theorem beginTeardown (h : Touches S w w') (u : UserId) [hS : Listed .tornDown S] :
    Touches S w (w'.beginTeardown u).2 := by
  unfold World.beginTeardown
  split
  · exact h
  · exact h.setHandle _ _ fun _ =>
      ⟨fun _ => rfl, fun _ => rfl, fun _ => rfl, fun _ => rfl, (absurd hS.mem ·)⟩

/-! ## State data -/

theorem setUserRoom (h : Touches S w w') (u : UserId) (r : Uuid)
    [hS : Listed .memberships S] : Touches S w (w'.mapData (·.setUserRoom u r)) := by
  refine h.trans fun f hf => ?_
  cases f <;> first | rfl | exact absurd hS.mem hf

theorem setUserStatus (h : Touches S w w') (u : UserId) (g : StateData → UserStatus)
    [hS : Listed .userStatuses S] :
    Touches S w (w'.mapData fun d => d.setUserStatus u (g d)) := by
  refine h.trans fun f hf => ?_
  cases f <;> first | rfl | exact absurd hS.mem hf

theorem removeUserMembership (h : Touches S w w') (u : UserId)
    [hS : Listed .memberships S] [hS' : Listed .userStatuses S] :
    Touches S w (w'.mapData (·.removeUserMembership u)) := by
  refine h.trans fun f hf => ?_
  cases f <;> first | rfl | exact absurd hS.mem hf | exact absurd hS'.mem hf

theorem editRoom (h : Touches S w w') {r : Uuid} {g : Room → Room} {d : StateData}
    (hd : w'.state.data.editRoom r g = some d) [hS : Listed .rooms S] :
    Touches S w (w'.mapData fun _ => d) := by
  refine h.trans fun f hf => ?_
  obtain ⟨rooms, -, rfl⟩ := Option.map_eq_some_iff.mp hd
  cases f <;> first | rfl | exact absurd hS.mem hf

theorem mapStore (h : Touches S w w') {g : Persistence → Persistence}
    (hg : Touches S w' (w'.mapStore g)) : Touches S w (w'.mapStore g) := h.trans hg

/-! ## The store -/

theorem updateRoom (h : Touches S w w') (r : Uuid) (g : PersistedRoom → PersistedRoom)
    [hS : Listed .storedRooms S] : Touches S w (w'.mapStore (·.updateRoom r g)) := by
  refine h.trans fun f hf => ?_
  simp only [World.mapStore, Persistence.updateRoom]
  split
  · cases f <;> first | rfl | exact absurd hS.mem hf
  · rfl

end Touches

end Rumble.Server
