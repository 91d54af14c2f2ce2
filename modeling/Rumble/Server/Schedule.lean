import Rumble.Server.BanSessions

/-!
# The server with suspended handshakes

The scheduler admits an event or resumes a suspended handshake. A hello and an authentication run
in the pieces of `Interleaving`; every other event is handled at once. `fades_step` says that such
an event leaves the identities of the connections as they are, apart from removing some.
-/

namespace Rumble.Server

open Rumble.Lib World

/-- What the scheduler does next. -/
inductive Move where
  /-- An event arrives; a handshake message runs its first half. -/
  | event (e : Event)
  /-- The `i`-th suspended task takes its next step. -/
  | resume (i : Nat)
  deriving DecidableEq

/-- One move of the scheduler. -/
def Sys.move (cfg : Config) (s : Sys) (m : Env × Move) : Sys :=
  match m with
  | (env, .event (.envelope sender (.clientHello username publicKey password))) =>
    if (s.world.state.conn sender.user).opened then
      s.step cfg (env, .hello sender username publicKey password)
    else s
  | (env, .event (.envelope sender (.authenticate signature timestampMs cert))) =>
    if (s.world.state.conn sender.user).opened then
      s.step cfg (env, .authenticate sender signature timestampMs cert)
    else s
  | (env, .event e) => { s with world := Server.step cfg env s.world e }
  | (env, .resume i) => s.step cfg (env, .resume i)

/-! ## Identities fade -/

/-- Every live client and session of `w'` was there in `w`, under the same display name, and a
teardown that was claimed still is. -/
structure Fades (w w' : World) : Prop extends Shrinks w w' where
  name : ∀ u, (w'.state.conn u).identity.displayName = (w.state.conn u).identity.displayName
  down : ∀ u, (w.state.handle (primary u)).tornDown = true →
    (w'.state.handle (primary u)).tornDown = true

namespace Fades

variable {w w' w'' : World}

theorem refl : Fades w w := ⟨.refl, fun _ => rfl, fun _ => id⟩

theorem trans (h : Fades w w') (h' : Fades w' w'') : Fades w w'' :=
  ⟨h.toShrinks.trans h'.toShrinks, fun u => (h'.name u).trans (h.name u),
    fun u hu => h'.down u (h.down u hu)⟩

theorem foldl {β : Type} {f : World → β → World} (hf : ∀ w b, Fades w (f w b)) (l : List β) :
    Fades w (l.foldl f w) := by
  induction l generalizing w with
  | nil => exact refl
  | cons b l ih => exact (hf w b).trans ih

end Fades

section Steps

variable {w w' : World} {cfg : Config} {env : Env}

theorem Shrinks.fades {S : List Field} (h : Shrinks w w') (ht : Touches S w w')
    (hS : ∀ f ∈ [Field.identity, .tornDown], f ∉ S) : Fades w w' where
  toShrinks := h
  name := fun u => congrArg Identity.displayName (congrFun (ht .identity (hS _ (by decide))) u)
  down := fun u hu => (congrFun (ht .tornDown (hS _ (by decide))) (primary u)).trans hu

theorem Touches.fades {S : List Field} (ht : Touches S w w')
    (hS : ∀ f ∈ [Field.members, .sessions, .identity, .tornDown], f ∉ S) : Fades w w' :=
  (ht.shrinks fun f hf => hS f (by revert f; decide)).fades ht fun f hf => hS f (by revert f; decide)

/-- Edits of a cached group list keep the display name. -/
theorem fades_setGroups (u : UserId) (f : List String → List String) :
    Fades w (w.mapState (·.setIdentity u fun i => { i with groups := f i.groups })) where
  toShrinks := (Touches.setIdentity (S := [.identity]) .refl u _).shrinks (by decide)
  name := fun v => by
    by_cases hv : v = u
    · subst v
      simp [ServerState.setIdentity, ServerState.setConn]
    · simp [ServerState.setIdentity, ServerState.setConn, hv]
  down := fun _ => id

theorem fades_mapStore (f : Persistence → Persistence) : Fades w (w.mapStore f) :=
  ⟨⟨fun _ => id, fun _ _ => id⟩, fun _ => rfl, fun _ => id⟩

theorem fades_broadcast (u : Update) : Fades w (w.broadcastStateUpdate u) :=
  (Touches.broadcast (S := [.log]) .refl u).fades (by decide)

theorem fades_beginTeardown (u : UserId) : Fades w (w.beginTeardown u).2 where
  toShrinks := (Touches.beginTeardown (S := [.tornDown]) .refl u).shrinks (by decide)
  name := fun v => congrArg Identity.displayName
    (congrFun (Touches.beginTeardown (S := [.tornDown]) .refl u .identity (by decide)) v)
  down := fun v hv => by
    unfold beginTeardown
    split
    · exact hv
    · by_cases hu : v = u
      · subst v
        simp [ServerState.setHandle]
      · simpa [ServerState.setHandle, hu] using hv

theorem fades_cleanupClient (u : UserId) : Fades w (w.cleanupClient u) :=
  (shrinks_cleanupClient w u).fades (touches_cleanupClient w u) (by decide)

theorem fades_closeConn (u : UserId) : Fades w (w.closeConn u) :=
  (Touches.setClosed (S := [.closed]) .refl u).fades (by decide)

theorem fades_sendFrame (t : HandleId) (f : Frame) : Fades w (w.sendFrame t f) :=
  (Touches.sendFrame (S := [.log]) .refl t f).fades (by decide)

theorem fades_evictOne (username : String) (new old : UserId) :
    Fades w (w.evictOne username new old) := by
  unfold evictOne
  split
  · exact .refl
  split
  · exact .refl
  split
  · exact .refl
  dsimp only
  split
  · exact fades_beginTeardown old
  · exact (((fades_beginTeardown old).trans (fades_sendFrame _ _)).trans (fades_closeConn old)).trans
      (fades_cleanupClient old)

theorem fades_evictSupersededSessions (key : PublicKey) (username : String) (new : UserId) :
    Fades w (w.evictSupersededSessions key username new) :=
  .foldl (fun _ old => fades_evictOne username new old) _

theorem fades_handleConnectionLost (u : UserId) : Fades w (w.handleConnectionLost u) := by
  unfold handleConnectionLost
  dsimp only
  split
  · exact (fades_beginTeardown u).trans (fades_cleanupClient u)
  · exact fades_beginTeardown u

theorem fades_applyKick (target : UserId) (reason actor : String) :
    Fades w (w.applyKick target reason actor).2 := by
  unfold applyKick
  split
  · exact .refl
  split
  · exact .refl
  split
  · exact .refl
  · exact ((fades_sendFrame _ _).trans (fades_closeConn target)).trans (fades_cleanupClient target)

theorem fades_banRecord (target : UserId) (d : Nat) (reason actor : String) :
    Fades w (w.banRecord env target d reason actor).2 := by
  unfold banRecord
  split
  · exact .refl
  split
  · exact .refl
  split
  · exact .refl
  dsimp only
  split
  · exact fades_mapStore _
  · exact ((fades_mapStore _).trans (fades_mapStore _)).trans
      (fades_setGroups target (pushGroup · "banned"))

theorem fades_applyBan (target : UserId) (d : Nat) (reason actor : String) :
    Fades w (w.applyBan env target d reason actor).2 := by
  have hrec : Fades w (w.banRecord env target d reason actor).2 := fades_banRecord ..
  rw [applyBan_eq]
  split
  · rename_i he
    rwa [he] at hrec
  · rename_i he
    rw [he] at hrec
    exact hrec.trans (((fades_sendFrame _ _).trans (fades_closeConn target)).trans
      (fades_cleanupClient target))

theorem fades_scrubGroup (name : String) (u : UserId) : Fades w (w.scrubGroup name u) := by
  unfold scrubGroup
  split
  · exact (fades_setGroups u (·.filter (· ≠ name))).trans (fades_broadcast _)
  · exact .refl

theorem fades_applyDeleteGroup (name : String) : Fades w (w.applyDeleteGroup name).2 := by
  unfold applyDeleteGroup
  split
  · exact .refl
  · exact ((Fades.foldl (fun _ u => fades_scrubGroup name u) _).trans (fades_mapStore _)).trans
      (fades_broadcast _)

theorem fades_mirrorGroup (key : PublicKey) (group : String) (add : Bool) (e : Nat) (u : UserId) :
    Fades w (w.mirrorGroup key group add e u) := by
  unfold mirrorGroup
  split
  · exact .refl
  · exact (fades_setGroups u fun gs =>
      if add then pushGroup gs group else gs.filter (· ≠ group)).trans (fades_broadcast _)

theorem fades_applySetUserGroupByKey (key : PublicKey) (group : String) (add : Bool) (e : Nat) :
    Fades w (w.applySetUserGroupByKey key group add e).2 := by
  unfold applySetUserGroupByKey
  split
  · exact .refl
  split
  · exact .refl
  · exact (fades_mapStore _).trans (.foldl (fun _ u => fades_mirrorGroup key group add e u) _)

theorem fades_sweepExpired : Fades w (w.sweepExpired env) := by
  unfold sweepExpired
  dsimp only
  refine ((fades_mapStore _).trans (fades_mapStore _)).trans (.foldl (fun w' e => ?_) _)
  exact .foldl (fun _ u => fades_mirrorGroup e.1 e.2 false 0 u) _

/-- A new participant is no client. -/
theorem fades_createParticipant (owner : OwnerId) (name : String) (label verified : Option String)
    (groups : List String) (present : Bool) :
    Fades w (w.createParticipant owner name label verified groups present).2 := by
  have hnew : ∀ identity, Fades w (w.mapState fun s =>
      { s with nextUserId := s.nextUserId + 1, members :=
        s.members.set s.nextUserId (.owned owner identity) }) := by
    refine fun identity => ⟨⟨fun u hu => ?_, fun _ _ => id⟩, fun _ => rfl, fun _ => id⟩
    have hu : ((w.state.members.set w.state.nextUserId (.owned owner identity)).get u ==
      some Member.client) = true := hu
    rw [Table.get_set] at hu
    split at hu
    · exact Bool.noConfusion hu
    · exact hu
  unfold createParticipant
  dsimp only
  split
  · exact (hnew _).trans (((Touches.setUserRoom (S := [.memberships, .log]) .refl _ _).broadcast
      _).fades (by decide))
  · exact hnew _

theorem fades_removeParticipant (u : UserId) : Fades w (w.removeParticipant u) := by
  have hdel : Fades w (w.mapState fun s => (s.removeClient u).2) :=
    ⟨⟨fun v hv => getClient_del hv, fun _ _ => id⟩, fun _ => rfl, fun _ => id⟩
  have hrest := Touches.removeUserMembership (S := [.memberships, .userStatuses, .log])
    (w := w.mapState fun s => (s.removeClient u).2) .refl u
  unfold removeParticipant
  dsimp only
  split
  · exact hdel.trans ((hrest.broadcast _).fades (by decide))
  · exact hdel.trans (hrest.fades (by decide))

theorem fades_requirePermission (t : HandleId) (r : Uuid) (p : Permissions) {rest : World → World}
    (h : Fades w (rest w)) : Fades w (w.requirePermission t r p rest) := by
  unfold requirePermission
  split
  · exact h
  · exact (Touches.sendPermissionDenied (S := [.log]) .refl _ _ _).fades (by decide)

theorem fades_replyResult (t : HandleId) (c : String) {r : OpResult} (h : Fades w r.2) :
    Fades w (replyResult t c r) :=
  h.trans ((Touches.replyResult (S := [.log]) t c (r := r) .refl).fades (by decide))

theorem fades_sendCommandResult (t : HandleId) (c : String) (b : Bool) (m : String) :
    Fades w (w.sendCommandResult t c b m) := fades_sendFrame t _

theorem fades_manageAcl (t : HandleId) (c : String) {op : World → OpResult} (h : Fades w (op w).2) :
    Fades w (manageAcl t c op w) := fades_requirePermission _ _ _ (fades_replyResult _ _ h)

theorem fades_handleController (t : HandleId) (payload : Payload) :
    Fades w (handleController env t payload w) := by
  have ht := touches_handleController env t payload w
  unfold handleController at ht ⊢
  split
  · exact .refl
  rename_i hc
  rw [if_neg hc] at ht
  cases payload
  case registerParticipant username label =>
    have hp : Fades w (w.createParticipant (.connection t.user) username label none
      ((w.state.conn t.user).publicKey.bind w.store.getParticipantDefaultGroup).toList true).2 :=
      fades_createParticipant ..
    exact hp.trans (fades_sendFrame t _)
  case unregisterParticipant userId =>
    show Fades w (withParticipant _ _ _ _ w)
    unfold withParticipant
    split
    · exact (fades_removeParticipant userId).trans (fades_sendCommandResult _ _ _ _)
    · exact fades_sendCommandResult _ _ _ _
  case moveParticipant => exact ht.fades (by dsimp only [footprint]; decide)
  case setParticipantStatus => exact ht.fades (by dsimp only [footprint]; decide)
  case participantChat => exact ht.fades (by dsimp only [footprint]; decide)
  all_goals exact .refl

theorem fades_handleAuthenticated (t : HandleId) (payload : Payload) :
    Fades w (handleAuthenticated cfg env t payload w) := by
  have ht := touches_handleAuthenticated cfg env t payload w
  unfold handleAuthenticated at ht ⊢
  cases payload
  case kickUser target reason =>
    refine fades_requirePermission _ _ _ ?_
    split
    · exact fades_sendCommandResult _ _ _ _
    · exact fades_replyResult _ _ (fades_applyKick _ _ _)
  case banUser target d reason =>
    refine fades_requirePermission _ _ _ ?_
    split
    · exact fades_sendCommandResult _ _ _ _
    · exact fades_replyResult _ _ (fades_applyBan _ _ _ _)
  case deleteGroup => exact fades_manageAcl _ _ (fades_applyDeleteGroup _)
  case setUserGroup target group add e =>
    refine fades_manageAcl _ _ ?_
    unfold applySetUserGroup
    split
    · exact .refl
    · exact fades_applySetUserGroupByKey _ _ _ _
  case setRegisteredUserGroup key group add e =>
    refine fades_manageAcl _ _ ?_
    split
    · exact .refl
    · exact fades_applySetUserGroupByKey _ _ _ _
  case registerParticipant | unregisterParticipant | authenticate | clientHello =>
    exact fades_handleController _ _
  all_goals exact ht.fades (by dsimp only [footprint]; decide)

end Steps

/-- A hello or an authentication. -/
def Event.isHandshake : Event → Bool
  | .envelope _ (.clientHello ..) | .envelope _ (.authenticate ..) => true
  | _ => false

/-- **An event that is neither a connection nor a handshake** creates no client and no session and
renames nobody. -/
theorem fades_step {cfg : Config} {env : Env} {w : World} {e : Event} (hc : e ≠ .connect)
    (hh : e.isHandshake = false) : Fades w (step cfg env w e) := by
  have ht := touches_step cfg env w e
  cases e with
  | connect => exact absurd rfl hc
  | sweep => exact fades_sweepExpired
  | readTimeout => exact ht.fades (by dsimp only [Event.footprint]; decide)
  | datagram => exact ht.fades (by dsimp only [Event.footprint]; decide)
  | connectionLost u =>
    dsimp only [step]
    split
    · exact fades_handleConnectionLost u
    · exact .refl
  | envelope t payload =>
    dsimp only [step]
    split
    swap
    · exact .refl
    unfold handleEnvelope
    split
    · exact Bool.noConfusion hh
    · exact Bool.noConfusion hh
    · exact .refl
    · exact .refl
    split
    · exact fades_handleAuthenticated t payload
    · exact .refl

/-- Only a new connection is opened. -/
theorem opened_step {cfg : Config} {env : Env} {w : World} {e : Event} (hc : e ≠ .connect)
    (u : UserId) : ((step cfg env w e).state.conn u).opened = (w.state.conn u).opened := by
  refine congrFun (touches_step cfg env w e .opened ?_) u
  cases e with
  | connect => exact absurd rfl hc
  | envelope t payload => cases payload <;> dsimp only [Event.footprint, footprint] <;> decide
  | _ => dsimp only [Event.footprint]; decide

/-- User ids are assigned in ascending order. -/
theorem nextUserId_step {cfg : Config} {env : Env} {w : World} {e : Event} :
    w.state.nextUserId ≤ (step cfg env w e).state.nextUserId := by
  by_cases hf : Field.nextUserId ∈ e.footprint
  swap
  · exact le_of_eq (touches_step cfg env w e .nextUserId hf).symm
  cases e with
  | connect => exact Nat.le_succ _
  | envelope t payload =>
    cases payload
    case registerParticipant username label =>
      dsimp only [step, handleEnvelope]
      split
      · split
        · show _ ≤ (handleController env t (.registerParticipant username label) w).state.nextUserId
          unfold handleController
          split
          · exact le_rfl
          · exact Nat.le_succ _
        · exact le_rfl
      · exact le_rfl
    all_goals
      dsimp only [Event.footprint, footprint] at hf
      exact absurd hf (by decide)
  | _ => exact absurd hf (by dsimp only [Event.footprint]; decide)

end Rumble.Server
