import Rumble.Server.Namespaces
import Rumble.Server.Pieces

/-!
# Interleaved registrations

RegisterUser, UnregisterUser and the last-room update of JoinRoom read the registrations in one
piece and write them in a later one, between the pieces of handshakes and any other event. Neither
write looks again: a registration does not ask whether its name has been registered to another key,
and a last-room update writes its record back also when the key has been unregistered since. Runs
in which every write still finds what it relies on keep the names unique
(`registered_names_unique`).
-/

namespace Rumble.Server

open Rumble.Lib Rumble.Lib.Transition World

/-! ## Pieces -/

namespace World

/-- The key and the name to register, or the refusal. -/
def registerCheck (w : World) (target : UserId) : Except String (PublicKey × String) :=
  match w.state.getUserPublicKey target with
  | none => .error "User not found"
  | some targetKey =>
    if !w.state.getClient target then .error "User not found"
    else
      let username := w.displayNameOf target
      if (w.store.getRegisteredUser targetKey).isSome then .error "User already registered"
      else if builtinGroups.contains username || (w.store.getGroup username).isSome then
        .error "Username conflicts with an existing permission group"
      else .ok (targetKey, username)

/-- The key to unregister and the name to report, or the refusal. -/
def unregisterCheck (w : World) (target : UserId) : Except String (PublicKey × String) :=
  match w.state.getUserPublicKey target with
  | none => .error "User not found"
  | some targetKey =>
    .ok (targetKey, if w.state.getClient target then w.displayNameOf target else "user")

theorem applyRegisterUser_eq (w : World) (target : UserId) : w.applyRegisterUser target =
    match w.registerCheck target with
    | .error message => (.error message, w)
    | .ok (key, username) =>
      (.ok ("Registered '" ++ username ++ "' successfully"),
        w.mapStore (·.registerUser key { username := username, lastRoom := none })) := by
  unfold applyRegisterUser registerCheck
  cases w.state.getUserPublicKey target with
  | none => rfl
  | some key =>
    dsimp only
    split
    · rfl
    split
    · rfl
    split <;> rfl

theorem applyUnregisterUser_eq (w : World) (target : UserId) : w.applyUnregisterUser target =
    match w.unregisterCheck target with
    | .error message => (.error message, w)
    | .ok (key, username) =>
      (.ok ("Unregistered '" ++ username ++ "' successfully"),
        w.mapStore (·.unregisterUser key)) := by
  unfold applyUnregisterUser unregisterCheck
  cases w.state.getUserPublicKey target <;> rfl

end World

/-- What is left of a request that reads or writes registrations. -/
inductive RegTask where
  /-- A suspended handshake. -/
  | handshake (task : Task)
  /-- ENTER is granted, the room is to be looked up. -/
  | join (sender : HandleId) (room : Uuid)
  /-- The room was found. -/
  | enter (sender : HandleId) (room : Uuid) (name : String)
  /-- In the room; the registration is to be read. -/
  | readRecord (sender : HandleId) (room : Uuid) (name : String)
  /-- The registration, if there was one, is to be written back. -/
  | lastRoom (sender : HandleId) (room : Uuid) (name : String)
      (record : Option (PublicKey × RegisteredUser))
  /-- A registration whose permission is granted. -/
  | register (sender : HandleId) (target : UserId)
  /-- A registration whose checks have passed. -/
  | registerWrite (sender : HandleId) (key : PublicKey) (username : String)
  | unregister (sender : HandleId) (target : UserId)
  | unregisterWrite (sender : HandleId) (key : PublicKey) (username : String)
  deriving DecidableEq

/-- The world, and the keys whose last registration write was a removal. -/
structure RegServer where
  world : World
  unregistered : List PublicKey

namespace RegTask

/-- The next piece of a task. -/
def resume (cfg : Config) (env : Env) (s : RegServer) (t : RegTask) : RegServer × Option RegTask :=
  let w := s.world
  match t with
  | .handshake task =>
    ({ s with world := (task.run cfg env w).1 }, (task.run cfg env w).2.map .handshake)
  | .join sender room =>
    ({ s with world := (w.joinLookup sender room).2 },
      (w.joinLookup sender room).1.map (.enter sender room))
  | .enter sender room name =>
    ({ s with world := (w.mapData (·.setUserRoom sender.user room)).refreshJoinMute sender room },
      some (.readRecord sender room name))
  | .readRecord sender room name => (s, some (.lastRoom sender room name (w.recallRegistration sender.user)))
  | .lastRoom sender room name record =>
    ({ s with world := (w.storeLastRoom record room).announceJoin sender room name }, none)
  | .register sender target =>
    match w.registerCheck target with
    | .error message => ({ s with world := w.sendCommandResult sender "RegisterUser" false message }, none)
    | .ok (key, username) => (s, some (.registerWrite sender key username))
  | .registerWrite sender key username =>
    ({ world := (w.mapStore (·.registerUser key
        { username := username, lastRoom := none })).sendCommandResult sender "RegisterUser" true
          ("Registered '" ++ username ++ "' successfully")
       unregistered := s.unregistered.filter (· ≠ key) }, none)
  | .unregister sender target =>
    match w.unregisterCheck target with
    | .error message =>
      ({ s with world := w.sendCommandResult sender "UnregisterUser" false message }, none)
    | .ok (key, username) => (s, some (.unregisterWrite sender key username))
  | .unregisterWrite sender key username =>
    ({ world := (w.mapStore (·.unregisterUser key)).sendCommandResult sender "UnregisterUser" true
        ("Unregistered '" ++ username ++ "' successfully")
       unregistered := key :: s.unregistered }, none)

end RegTask

/-- A request runs its permission check, a handshake its first half, any other event at once. -/
def RegServer.start (cfg : Config) (env : Env) (s : RegServer) (e : Event) :
    RegServer × Option RegTask :=
  let admitted (r : World × Option RegTask) : RegServer × Option RegTask :=
    ({ s with world := r.1 }, r.2)
  match e with
  | .envelope sender (.joinRoom roomId) =>
    admitted (s.world.grant sender (roomIdOrRoot roomId) Permissions.enter
      (.join sender (roomIdOrRoot roomId)))
  | .envelope sender (.registerUser userId) =>
    admitted (s.world.grant sender rootRoomUuid (registrationPermission sender (userId.getD 0))
      (.register sender (userId.getD 0)))
  | .envelope sender (.unregisterUser userId) =>
    admitted (s.world.grant sender rootRoomUuid (registrationPermission sender (userId.getD 0))
      (.unregister sender (userId.getD 0)))
  | e =>
    ({ s with world := (s.world.admitEvent cfg env e).1 },
      (s.world.admitEvent cfg env e).2.map .handshake)

def regProgram (cfg : Config) : Interleaved Env RegServer Event RegTask where
  start := RegServer.start cfg
  resume := RegTask.resume cfg

/-- A world at rest. -/
def RegServer.rest (w : World) : Pool RegServer RegTask := ⟨⟨w, []⟩, []⟩

/-! ## The pieces make the handlers -/

section Alone

variable (cfg : Config) (env : Env) (w : World) (u : List PublicKey) (sender : HandleId)

theorem alone_join (roomId : Option RoomId)
    (hperm : (w.demand sender (roomIdOrRoot roomId) Permissions.enter).1 = true) :
    (regProgram cfg).Alone env ⟨w, u⟩ (.join sender (roomIdOrRoot roomId))
      ⟨handleJoinRoom sender roomId w, u⟩ := by
  rw [handleJoinRoom_eq]
  dsimp only
  rw [if_pos hperm]
  cases hl : w.joinLookup sender (roomIdOrRoot roomId) with
  | mk name w' =>
    cases name with
    | none => exact .last (by simp only [regProgram, RegTask.resume, hl, Option.map_none])
    | some name =>
      refine .next (by simp only [regProgram, RegTask.resume, hl, Option.map_some]; rfl)
        (.next rfl (.next rfl (.last rfl)))

theorem alone_register (target : UserId) :
    ∃ u', (regProgram cfg).Alone env ⟨w, u⟩ (.register sender target)
      ⟨replyResult sender "RegisterUser" (w.applyRegisterUser target), u'⟩ := by
  rw [applyRegisterUser_eq]
  cases hc : w.registerCheck target with
  | error message => exact ⟨u, .last (by simp only [regProgram, RegTask.resume, hc]; rfl)⟩
  | ok e => exact ⟨_, .next (by simp only [regProgram, RegTask.resume, hc]; rfl) (.last rfl)⟩

theorem alone_unregister (target : UserId) :
    ∃ u', (regProgram cfg).Alone env ⟨w, u⟩ (.unregister sender target)
      ⟨replyResult sender "UnregisterUser" (w.applyUnregisterUser target), u'⟩ := by
  rw [applyUnregisterUser_eq]
  cases hc : w.unregisterCheck target with
  | error message => exact ⟨u, .last (by simp only [regProgram, RegTask.resume, hc]; rfl)⟩
  | ok e => exact ⟨_, .next (by simp only [regProgram, RegTask.resume, hc]; rfl) (.last rfl)⟩

end Alone

/-! ## Unique names -/

/-- No two keys are registered under names equal up to ASCII case. -/
def NamesUnique (p : Persistence) : Prop :=
  ∀ k k' r r', p.getRegisteredUser k = some r → p.getRegisteredUser k' = some r' →
    Persistence.eqIgnoreAsciiCase r.username r'.username = true → k = k'

/-- Names are unique, and a key that was unregistered is not registered. -/
structure RegSound (s : RegServer) : Prop where
  unique : NamesUnique s.world.store
  gone : ∀ k ∈ s.unregistered, s.world.store.isRegistered k = false

section Writes

variable {p : Persistence} {key : PublicKey} {user : RegisteredUser}

theorem getRegisteredUser_registerUser (k : PublicKey) : (p.registerUser key user).getRegisteredUser k =
    if k = key then some user else p.getRegisteredUser k := Table.get_set _ _ _ _

theorem getRegisteredUser_unregisterUser (k : PublicKey) :
    (p.unregisterUser key).getRegisteredUser k =
      if k = key then none else p.getRegisteredUser k := Table.get_del _ _ _

theorem eqIgnoreAsciiCase_comm (a b : String) :
    Persistence.eqIgnoreAsciiCase a b = Persistence.eqIgnoreAsciiCase b a := by
  unfold Persistence.eqIgnoreAsciiCase
  exact Bool.beq_comm

/-- A name nobody holds is nobody's. -/
theorem not_eqIgnoreAsciiCase_of_free {name : String} (h : p.isUsernameRegistered name = false)
    {k : PublicKey} {r : RegisteredUser} (hr : p.getRegisteredUser k = some r) :
    Persistence.eqIgnoreAsciiCase r.username name = false := by
  have hall := List.any_eq_false.mp h (k, r) (mem_listRegisteredUsers.mpr hr)
  simpa using hall

/-- A record written under a name that no other key holds. -/
theorem NamesUnique.registerUser (h : NamesUnique p)
    (hfree : ∀ k r, k ≠ key → p.getRegisteredUser k = some r →
      Persistence.eqIgnoreAsciiCase r.username user.username = false) :
    NamesUnique (p.registerUser key user) := by
  have hother : ∀ k r, k ≠ key → p.getRegisteredUser k = some r →
      ¬ Persistence.eqIgnoreAsciiCase r.username user.username = true := fun k r hk hr heq => by
    rw [hfree k r hk hr] at heq
    exact Bool.noConfusion heq
  intro k k' r r' hr hr' heq
  rw [getRegisteredUser_registerUser] at hr hr'
  by_cases hk : k = key <;> by_cases hk' : k' = key
  · rw [hk, hk']
  · rw [if_pos hk] at hr
    rw [if_neg hk'] at hr'
    obtain rfl := Option.some.inj hr
    rw [eqIgnoreAsciiCase_comm] at heq
    exact (hother k' r' hk' hr' heq).elim
  · rw [if_neg hk] at hr
    rw [if_pos hk'] at hr'
    obtain rfl := Option.some.inj hr'
    exact (hother k r hk hr heq).elim
  · rw [if_neg hk] at hr
    rw [if_neg hk'] at hr'
    exact h k k' r r' hr hr' heq

theorem NamesUnique.unregisterUser (h : NamesUnique p) : NamesUnique (p.unregisterUser key) := by
  have hold : ∀ k r, (p.unregisterUser key).getRegisteredUser k = some r →
      p.getRegisteredUser k = some r := fun k r hr => by
    rw [getRegisteredUser_unregisterUser] at hr
    split at hr
    · cases hr
    · exact hr
  exact fun k k' r r' hr hr' heq => h k k' r r' (hold k r hr) (hold k' r' hr') heq

/-- A record written back under the name its key has. -/
theorem NamesUnique.rewrite (h : NamesUnique p)
    (hsame : (p.getRegisteredUser key).map RegisteredUser.username = some user.username) :
    NamesUnique (p.registerUser key user) := by
  obtain ⟨old, hold, hname⟩ := Option.map_eq_some_iff.mp hsame
  refine h.registerUser fun k r hk hr => ?_
  rw [Bool.eq_false_iff]
  intro heq
  rw [← hname] at heq
  exact hk (h k key r old hr hold heq)

end Writes

/-! ## One piece -/

/-- What a registration write relies on still holds: the key to register is not registered and no
key is registered under the name; the key of a last-room update has kept its name. -/
def WriteStands (s : RegServer) (t : RegTask) : Prop :=
  match t with
  | .registerWrite _ key username =>
    s.world.store.isRegistered key = false ∧ s.world.store.isUsernameRegistered username = false
  | .lastRoom _ _ _ (some (key, user)) =>
    (s.world.store.getRegisteredUser key).map RegisteredUser.username = some user.username
  | _ => True

instance (s : RegServer) (t : RegTask) : Decidable (WriteStands s t) := by
  unfold WriteStands
  split <;> infer_instance

section Steps

variable {cfg : Config} {env : Env} {s : RegServer}

theorem RegSound.world {S : List Field} {w' : World} (h : RegSound s) (ht : Touches S s.world w')
    (hS : Field.registeredUsers ∉ S) : RegSound { s with world := w' } := by
  have hreg : w'.store.registeredUsers = s.world.store.registeredUsers := ht .registeredUsers hS
  refine ⟨fun k k' r r' hr hr' => ?_, fun k hk => ?_⟩
  · have hr : w'.store.registeredUsers.get k = some r := hr
    have hr' : w'.store.registeredUsers.get k' = some r' := hr'
    rw [hreg] at hr hr'
    exact h.unique k k' r r' hr hr'
  · show (w'.store.registeredUsers.get k).isSome = false
    rw [hreg]
    exact h.gone k hk

theorem regSound_lastRoom {sender : HandleId} {room : Uuid} {name : String}
    {record : Option (PublicKey × RegisteredUser)} (h : RegSound s)
    (hw : WriteStands s (.lastRoom sender room name record)) :
    RegSound ((RegTask.lastRoom sender room name record).resume cfg env s).1 := by
  rcases record with _ | ⟨key, user⟩
  · exact h.world (touches_announceJoin s.world sender room name) (by decide)
  · have hsame : (s.world.store.getRegisteredUser key).map RegisteredUser.username =
        some user.username := hw
    have hunique : NamesUnique (s.world.store.registerUser key { user with lastRoom := some room }) :=
      h.unique.rewrite hsame
    refine ⟨hunique, fun k hk => ?_⟩
    have hgone := h.gone k hk
    -- The key has kept a registration, so it is none of the unregistered ones.
    have hne : k ≠ key := by
      rintro rfl
      obtain ⟨old, hold, -⟩ := Option.map_eq_some_iff.mp hsame
      have hsome : s.world.store.isRegistered k = true := Option.isSome_of_eq_some hold
      rw [hgone] at hsome
      exact Bool.noConfusion hsome
    show ((s.world.store.registeredUsers.set key { user with lastRoom := some room }).get k).isSome =
      false
    rwa [Table.get_set_ne hne]

theorem regSound_registerWrite {sender : HandleId} {key : PublicKey} {username : String}
    (h : RegSound s) (hw : WriteStands s (.registerWrite sender key username)) :
    RegSound ((RegTask.registerWrite sender key username).resume cfg env s).1 := by
  refine ⟨h.unique.registerUser fun k r _ hr => not_eqIgnoreAsciiCase_of_free hw.2 hr,
    fun k hk => ?_⟩
  obtain ⟨hk, hne⟩ := List.mem_filter.mp hk
  have hne : k ≠ key := by simpa using hne
  show ((s.world.store.registeredUsers.set key ⟨username, none⟩).get k).isSome = false
  rw [Table.get_set_ne hne]
  exact h.gone k hk

theorem regSound_unregisterWrite {sender : HandleId} {key : PublicKey} {username : String}
    (h : RegSound s) : RegSound ((RegTask.unregisterWrite sender key username).resume cfg env s).1 := by
  refine ⟨h.unique.unregisterUser, fun k hk => ?_⟩
  show ((s.world.store.registeredUsers.del key).get k).isSome = false
  rw [Table.get_del]
  split
  · rfl
  · rename_i hne
    exact h.gone k ((List.mem_cons.mp hk).resolve_left hne)

/-- **The next piece of a task** whose write still stands. -/
theorem regSound_resume {t : RegTask} (hw : WriteStands s t) (h : RegSound s) :
    RegSound (t.resume cfg env s).1 := by
  cases t with
  | handshake task => exact h.world (touches_taskRun cfg env s.world task) (by decide)
  | join sender room => exact h.world (touches_joinLookup s.world sender room) (by decide)
  | enter sender room name =>
    have henter : Touches [.memberships, .serverMuted, .log] s.world
        (s.world.mapData (·.setUserRoom sender.user room)) := Touches.refl.setUserRoom _ _
    exact h.world (henter.trans ((touches_refreshJoinMute _ sender room).mono (by decide)))
      (by decide)
  | readRecord sender room name => exact h
  | lastRoom sender room name record => exact regSound_lastRoom h hw
  | register sender target =>
    simp only [RegTask.resume]
    split
    · exact h.world (Touches.sendCommandResult (S := [.log]) .refl _ _ _ _) (by decide)
    · exact h
  | registerWrite sender key username => exact regSound_registerWrite h hw
  | unregister sender target =>
    simp only [RegTask.resume]
    split
    · exact h.world (Touches.sendCommandResult (S := [.log]) .refl _ _ _ _) (by decide)
    · exact h
  | unregisterWrite sender key username => exact regSound_unregisterWrite h

/-- **The first piece of a request**, or another event. -/
theorem regSound_start {e : Event} (h : RegSound s) : RegSound (s.start cfg env e).1 := by
  have hevent : Field.registeredUsers ∉ e.footprint →
      RegSound { s with world := (s.world.admitEvent cfg env e).1 } :=
    h.world (touches_admitEvent cfg env s.world e)
  unfold RegServer.start
  dsimp only
  split
  · exact h.world (touches_grant s.world _ _ _ _) (by decide)
  · exact h.world (touches_grant s.world _ _ _ _) (by decide)
  · exact h.world (touches_grant s.world _ _ _ _) (by decide)
  · rename_i hjoin hregister hunregister
    refine hevent ?_
    cases e with
    | envelope t payload =>
      cases payload
      case joinRoom roomId => exact absurd rfl (hjoin t roomId)
      case registerUser userId => exact absurd rfl (hregister t userId)
      case unregisterUser userId => exact absurd rfl (hunregister t userId)
      all_goals
        dsimp only [Event.footprint, footprint]
        decide
    | connect | readTimeout | datagram | connectionLost | sweep =>
      dsimp only [Event.footprint]
      decide

end Steps

/-! ## Every run -/

/-- The scheduler resumes no registration write that no longer stands. -/
def RegOrderly : Pool RegServer RegTask → Env × Pick Event → Prop :=
  Interleaved.Meets (fun _ _ _ => True) fun _ => WriteStands

instance (p : Pool RegServer RegTask) (m : Env × Pick Event) : Decidable (RegOrderly p m) :=
  inferInstanceAs (Decidable (Interleaved.Meets _ _ p m))

/-- **Registered names stay unique.** From a store with unique names, in every state of a run in
which every registration write still finds what its checks found: no two keys are registered under
names equal up to case, and a key that was unregistered and not registered since is not
registered. -/
theorem registered_names_unique {cfg : Config} {w : World} {moves : List (Env × Pick Event)}
    (hw : NamesUnique w.store)
    (horderly : Always (regProgram cfg).step RegOrderly (RegServer.rest w) moves)
    {pre : List (Env × Pick Event)} (hpre : pre <+: moves) :
    RegSound ((regProgram cfg).run (RegServer.rest w) pre).shared := by
  have hrest : Interleaved.Holds RegSound (fun _ _ => True) (fun _ _ => True) (RegServer.rest w) :=
    ⟨⟨hw, fun k hk => (List.not_mem_nil hk).elim⟩, fun _ _ => trivial, .nil⟩
  have hrun := horderly.invariant_all
    (fun p m hm h => (regProgram cfg).holds_step id
      (fun a s e _ h => ⟨regSound_start h, fun _ _ => trivial, fun _ _ _ => trivial,
        fun _ _ _ _ _ => trivial⟩)
      (fun a s t hw h _ => ⟨regSound_resume hw h, fun _ _ => trivial, fun _ _ _ => trivial,
        fun _ _ _ _ _ => trivial⟩) hm h) hrest hpre
  exact hrun.shared

/-- The pieces of a login, one after the other. -/
def sampleLoginMoves (userId : UserId) (key : PublicKey) (name : String) :
    List (Env × Pick Event) :=
  [(sampleEnv, .start .connect),
    (sampleEnv, .start (.envelope (primary userId) (.clientHello name key.data none))),
    (sampleEnv, .resume 0),
    (sampleEnv, .start (.envelope (primary userId)
      (.authenticate (List.replicate 64 0) 0 (some sampleCert))))] ++
  List.replicate 4 (sampleEnv, .resume 0)

/-- Connection 1 registers itself, joins Root and is unregistered after its last room is stored. -/
def sampleRegistration : List (Env × Pick Event) :=
  sampleLoginMoves 1 (Bytes.rep 32 9) "ann" ++
    [sampleStart 1 (.registerUser (some 1)), (sampleEnv, .resume 0), (sampleEnv, .resume 0),
      sampleStart 1 (.joinRoom none)] ++ List.replicate 4 (sampleEnv, .resume 0) ++
    [sampleStart 1 (.unregisterUser (some 1)), (sampleEnv, .resume 0), (sampleEnv, .resume 0)]

theorem namesUnique_sampleStore : NamesUnique sampleStore := by
  intro k k' r r' hr
  have hnone : sampleStore.registeredUsers.get k = none := Table.get_empty k
  exact absurd (hr.symm.trans hnone) (Option.some_ne_none r)

theorem registered_names_unique_one_user : RegSound ((regProgram sampleConfig).run
    (RegServer.rest (World.init sampleStore)) sampleRegistration).shared :=
  registered_names_unique namesUnique_sampleStore (by decide +kernel) (List.prefix_refl _)

/-- Two connections under one name and different keys register themselves. -/
def sampleSameName : List (Env × Pick Event) :=
  sampleLoginMoves 1 (Bytes.rep 32 9) "ann" ++ sampleLoginMoves 2 (Bytes.rep 32 8) "ann" ++
    [sampleStart 1 (.registerUser (some 1)), (sampleEnv, .resume 0), (sampleEnv, .resume 0),
      sampleStart 2 (.registerUser (some 2)), (sampleEnv, .resume 0), (sampleEnv, .resume 0)]

/-- The last room of a key is written back after the key was unregistered. -/
def sampleStaleRecord : List (Env × Pick Event) :=
  sampleLoginMoves 1 (Bytes.rep 32 9) "ann" ++
    [sampleStart 1 (.registerUser (some 1)), (sampleEnv, .resume 0), (sampleEnv, .resume 0),
      sampleStart 1 (.joinRoom none)] ++ List.replicate 3 (sampleEnv, .resume 0) ++
    [sampleStart 1 (.unregisterUser (some 1)), (sampleEnv, .resume 1), (sampleEnv, .resume 1),
      (sampleEnv, .resume 0)]

/-- Both runs start from a store with unique names; the first registers one name to two keys, the
second registers a key again that had been unregistered. -/
theorem not_registered_names_unique : NamesUnique sampleStore ∧
    ¬ NamesUnique ((regProgram sampleConfig).run (RegServer.rest (World.init sampleStore))
      sampleSameName).shared.world.store ∧
    ¬ ∀ k ∈ ((regProgram sampleConfig).run (RegServer.rest (World.init sampleStore))
        sampleStaleRecord).shared.unregistered,
      ((regProgram sampleConfig).run (RegServer.rest (World.init sampleStore))
        sampleStaleRecord).shared.world.store.isRegistered k = false := by
  refine ⟨namesUnique_sampleStore, fun h => ?_, by decide +kernel⟩
  have hnames : ∀ k ∈ [(Bytes.rep 32 9 : PublicKey), Bytes.rep 32 8],
      ((regProgram sampleConfig).run (RegServer.rest (World.init sampleStore))
        sampleSameName).shared.world.store.getRegisteredUser k = some ⟨"ann", none⟩ := by
    decide +kernel
  exact absurd (h _ _ _ _ (hnames (Bytes.rep 32 9) (by decide)) (hnames (Bytes.rep 32 8) (by decide))
    (eqIgnoreAsciiCase_refl _)) (by decide)

end Rumble.Server
