import Rumble.Lib.Pool
import Rumble.Server.Interleaving

/-!
# Handlers in pieces

What the interleaved models share: how a message is admitted, the permission check that comes
first, the halves of a handshake, and JoinRoom cut where it can be interrupted. `touches_admitEvent`
and `touches_taskRun` say what the handshake pieces may change.
-/

namespace Rumble.Server

open Rumble.Lib World

namespace World

/-! ## Admission -/

/-- A message of an opened and authenticated connection is handled, any other is dropped. -/
def accepts (w : World) (sender : HandleId) : Bool :=
  (w.state.conn sender.user).opened && (w.state.conn sender.user).authenticated

/-- `check_permission`: whether it is granted, with the denial sent when it is not. -/
def demand (w : World) (sender : HandleId) (room : Uuid) (required : Permissions) : Bool × World :=
  if (evaluateUserPermissions w.state w.store sender room).contains required then (true, w)
  else (false, w.sendPermissionDenied sender room required)

theorem requirePermission_eq (w : World) (sender : HandleId) (room : Uuid) (p : Permissions)
    (rest : World → World) : w.requirePermission sender room p rest =
      if (w.demand sender room p).1 then rest w else (w.demand sender room p).2 := by
  unfold requirePermission demand
  split <;> rfl

/-- The first piece of a request: the task is left behind when the permission is granted. -/
def grant {τ : Type} (w : World) (sender : HandleId) (room : Uuid) (required : Permissions)
    (task : τ) : World × Option τ :=
  if w.accepts sender then
    ((w.demand sender room required).2,
      if (w.demand sender room required).1 then some task else none)
  else (w, none)

/-- A handshake message runs its first half, any other event is handled at once. -/
def admitEvent (cfg : Config) (env : Env) (w : World) (e : Event) : World × Option Task :=
  match e with
  | .envelope sender (.clientHello username publicKey password) =>
    if (w.state.conn sender.user).opened then
      match w.helloCheck cfg env sender username publicKey password with
      | (none, w) => (w, none)
      | (some key, w) => (w, some (.hello sender key env.nonce))
    else (w, none)
  | .envelope sender (.authenticate signature timestampMs cert) =>
    if (w.state.conn sender.user).opened then
      match w.authCheck cfg env sender signature timestampMs cert with
      | (none, w) => (w, none)
      | (some (pending, session), w) => (w, some (.auth sender pending session .checked))
    else (w, none)
  | e => (step cfg env w e, none)

/-! ## Joining a room -/

/-- The name of the room to join, or the refusal. -/
def joinLookup (w : World) (sender : HandleId) (room : Uuid) : Option String × World :=
  match w.state.data.findRoom room with
  | none => (none, w.sendCommandResult sender "JoinRoom" false "Room not found")
  | some r => (some r.name, w)

/-- The registration record of a user, read before its last room is stored. -/
def recallRegistration (w : World) (userId : UserId) : Option (PublicKey × RegisteredUser) :=
  match w.state.getUserPublicKey userId with
  | some key => (w.store.getRegisteredUser key).map (key, ·)
  | none => none

/-- Write the record that was read back with the new last room. -/
def storeLastRoom (w : World) (record : Option (PublicKey × RegisteredUser)) (room : Uuid) :
    World :=
  match record with
  | some (key, user) => w.mapStore (·.registerUser key { user with lastRoom := some room })
  | none => w

def announceJoin (w : World) (sender : HandleId) (room : Uuid) (name : String) : World :=
  (w.broadcastStateUpdate (.userMoved (some sender.user) (some (roomIdFromUuid room)))).sendCommandResult
    sender "JoinRoom" true ("Joined '" ++ name ++ "'")

theorem saveLastRoom_eq (w : World) (userId : UserId) (room : Uuid) :
    w.saveLastRoom userId room = w.storeLastRoom (w.recallRegistration userId) room := by
  unfold saveLastRoom storeLastRoom recallRegistration Persistence.isRegistered
    Persistence.updateUserLastRoom Persistence.getRegisteredUser
  cases w.state.getUserPublicKey userId with
  | none => rfl
  | some key =>
    dsimp only
    cases h : w.store.registeredUsers.get key with
    | none => rfl
    | some user =>
      simp only [Option.isSome_some, if_true, Option.map_some, mapStore, h]

/-- **The pieces make the handler.** -/
theorem handleJoinRoom_eq (sender : HandleId) (roomId : Option RoomId) (w : World) :
    handleJoinRoom sender roomId w =
      let room := roomIdOrRoot roomId
      if (w.demand sender room Permissions.enter).1 then
        match w.joinLookup sender room with
        | (none, w) => w
        | (some name, w) =>
          let w := (w.mapData (·.setUserRoom sender.user room)).refreshJoinMute sender room
          (w.storeLastRoom (w.recallRegistration sender.user) room).announceJoin sender room name
      else (w.demand sender room Permissions.enter).2 := by
  unfold handleJoinRoom
  dsimp only
  rw [requirePermission_eq]
  unfold joinLookup announceJoin
  cases w.state.data.findRoom (roomIdOrRoot roomId) with
  | none => rfl
  | some r => simp only [saveLastRoom_eq]

end World

/-! ## What the pieces change -/

section Touches

variable (cfg : Config) (env : Env) (w : World)

theorem touches_demand (sender : HandleId) (room : Uuid) (p : Permissions) :
    Touches [.log] w (w.demand sender room p).2 := by
  unfold demand
  split
  · exact .refl
  · exact .sendPermissionDenied .refl _ _ _

theorem touches_grant {τ : Type} (sender : HandleId) (room : Uuid) (p : Permissions) (task : τ) :
    Touches [.log] w (w.grant sender room p task).1 := by
  unfold grant
  split
  · exact touches_demand w sender room p
  · exact .refl

theorem mem_grant {τ : Type} {sender : HandleId} {room : Uuid} {p : Permissions} {task t : τ}
    (h : t ∈ (w.grant sender room p task).2) : t = task := by
  unfold grant at h
  split at h
  · split at h
    · exact (Option.some.inj h).symm
    · exact (Option.not_mem_none _ h).elim
  · exact (Option.not_mem_none _ h).elim

theorem touches_admitEvent (e : Event) : Touches e.footprint w (w.admitEvent cfg env e).1 := by
  unfold admitEvent
  split
  · rename_i sender username publicKey password
    show Touches [.pendingAuth, .publicKey, .closed, .log] w _
    split
    swap
    · exact .refl
    rcases helloCheck_cases cfg env sender username publicKey password w with
      ⟨key, -, -, h⟩ | ⟨error, h⟩
    · rw [h]
      intro f hf
      cases f <;> first | rfl | exact absurd (by decide) hf
    · rw [h]
      exact Touches.sendAuthFailed .refl _ _
  · rename_i sender signature timestampMs cert
    show Touches (.pendingAuth :: .bans :: publishFields) w _
    split
    swap
    · exact .refl
    rcases authCheck_cases cfg env sender signature timestampMs cert w with
      ⟨p, session, -, -, -, -, h⟩ | ⟨w', error, hw', h⟩
    · rw [h]
      exact (touches_checked w sender p.publicKey env.nowSecs).mono (by decide)
    · rw [h]
      refine Touches.sendAuthFailed ?_ _ _
      rcases hw' with ⟨rfl, -⟩ | rfl | ⟨p, -, rfl⟩
      · exact .refl
      · exact (touches_take w sender.user).mono (by decide)
      · exact (touches_checked w sender p.publicKey env.nowSecs).mono (by decide)
  · exact touches_step cfg env w e

/-- What the second halves of handshakes and bans may change. -/
@[reducible] def taskFields : List Field := .publicKey :: publishFields

theorem touches_taskRun (task : Task) : Touches taskFields w (task.run cfg env w).1 := by
  cases task with
  | hello sender key nonce => exact (touches_storeHelloKey w sender key nonce).mono (by decide)
  | ban target d reason actor =>
    exact (touches_banDisconnect w target d reason actor).mono (by decide)
  | auth sender p session stage =>
    cases stage with
    | checked => exact (touches_markAuthenticated w env sender p).mono (by decide)
    | marked name =>
      exact (touches_evictSupersededSessions w p.publicKey name sender.user).mono (by decide)
    | evicted => exact (touches_addSession w sender.user session).mono (by decide)
    | tracked => exact (touches_enterServer cfg w sender p.publicKey).mono (by decide)

theorem touches_joinLookup (sender : HandleId) (room : Uuid) :
    Touches [.log] w (w.joinLookup sender room).2 := by
  unfold joinLookup
  split
  · exact .sendCommandResult .refl _ _ _ _
  · exact .refl

theorem touches_announceJoin (sender : HandleId) (room : Uuid) (name : String) :
    Touches [.log] w (w.announceJoin sender room name) :=
  (Touches.refl.broadcast _).sendCommandResult _ _ _ _

end Touches

/-- A request on a control stream. -/
def sampleStart (userId : UserId) (payload : Payload) : Env × Pick Event :=
  (sampleEnv, .start (.envelope (primary userId) payload))

end Rumble.Server
