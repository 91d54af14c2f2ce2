import Rumble.Server.GroupCache
import Rumble.Server.Registrations

/-!
# Verified names

A login caches the name its key is registered under, and permission checks treat it as a group.
Registering and unregistering a key rewrite the store and no connection, so the names of the live
connections match the store exactly while no registration changes under a live connection of the
key (`verified_matches_iff`).
-/

namespace Rumble.Server

open Rumble.Lib Rumble.Lib.Transition World

def Persistence.registeredName (p : Persistence) (k : PublicKey) : Option String :=
  (p.getRegisteredUser k).map RegisteredUser.username

/-- Every live connection has the name under which its key is registered. -/
def VerifiedMatches (w : World) : Prop :=
  ∀ u, w.state.getClient u = true → ∀ k, w.state.getUserPublicKey u = some k →
    (w.state.conn u).identity.verifiedUsername = w.store.registeredName k

/-- The registration requests of this sender about this target are granted. -/
def World.mayRegister (w : World) (sender : HandleId) (target : UserId) : Bool :=
  w.accepts sender && (evaluateUserPermissions w.state w.store sender rootRoomUuid).contains
    (registrationPermission sender target)

/-- A registration takes effect, or one ends whose key is connected. -/
def StalesName (w : World) (i : Input) : Prop :=
  match i.2 with
  | .envelope sender (.registerUser userId) =>
    w.mayRegister sender (userId.getD 0) = true ∧ (w.registerCheck (userId.getD 0)).isOk = true
  | .envelope sender (.unregisterUser userId) =>
    w.mayRegister sender (userId.getD 0) = true ∧
      ∃ k ∈ w.state.getUserPublicKey (userId.getD 0), w.store.registeredName k ≠ none ∧
        ∃ u ∈ w.state.snapshotClients, w.state.getUserPublicKey u = some k
  | _ => False

/-! ## Names that stay -/

/-- No connection gets another verified name. -/
def SameVerified (w w' : World) : Prop :=
  ∀ u, (w'.state.conn u).identity.verifiedUsername = (w.state.conn u).identity.verifiedUsername

namespace SameVerified

variable {w w' w'' : World}

theorem refl : SameVerified w w := fun _ => rfl

theorem trans (h : SameVerified w w') (h' : SameVerified w' w'') : SameVerified w w'' :=
  fun u => (h' u).trans (h u)

theorem foldl {β : Type} {f : World → β → World} (hf : ∀ w b, SameVerified w (f w b))
    (l : List β) : SameVerified w (l.foldl f w) := by
  induction l generalizing w with
  | nil => exact refl
  | cons b l ih => exact (hf w b).trans ih

end SameVerified

theorem Touches.sameVerified {S : List Field} {w w' : World} (h : Touches S w w')
    (hS : Field.identity ∉ S) : SameVerified w w' :=
  fun u => congrArg Identity.verifiedUsername (congrFun (h .identity hS) u)

section Steps

variable {w : World} {cfg : Config} {env : Env}

theorem sameVerified_setGroups (u : UserId) (f : List String → List String) :
    SameVerified w (w.mapState (·.setIdentity u fun i => { i with groups := f i.groups })) := by
  intro v
  by_cases hv : v = u
  · subst v
    simp [ServerState.setIdentity, ServerState.setConn]
  · simp [ServerState.setIdentity, ServerState.setConn, hv]

theorem sameVerified_scrubGroup (name : String) (w : World) (u : UserId) :
    SameVerified w (w.scrubGroup name u) := by
  unfold scrubGroup
  split
  · exact sameVerified_setGroups u (·.filter (· ≠ name))
  · exact .refl

theorem sameVerified_mirrorGroup (key : PublicKey) (group : String) (add : Bool) (e : Nat)
    (w : World) (u : UserId) : SameVerified w (w.mirrorGroup key group add e u) := by
  unfold mirrorGroup
  split
  · exact .refl
  · exact sameVerified_setGroups u fun gs =>
      if add then pushGroup gs group else gs.filter (· ≠ group)

theorem sameVerified_applySetUserGroupByKey (key : PublicKey) (group : String) (add : Bool)
    (e : Nat) : SameVerified w (w.applySetUserGroupByKey key group add e).2 := by
  unfold applySetUserGroupByKey
  split
  · exact .refl
  split
  · exact .refl
  · exact SameVerified.foldl (fun w u => sameVerified_mirrorGroup key group add e w u) _

theorem sameVerified_applyBan (target : UserId) (d : Nat) (reason actor : String) :
    SameVerified w (w.applyBan env target d reason actor).2 := by
  have hrec : SameVerified w (w.banRecord env target d reason actor).2 := by
    unfold banRecord
    split
    · exact .refl
    split
    · exact .refl
    split
    · exact .refl
    dsimp only
    split
    · exact .refl
    · exact sameVerified_setGroups target (pushGroup · "banned")
  rw [applyBan_eq]
  split
  · rename_i he
    rwa [he] at hrec
  · rename_i w' he
    rw [he] at hrec
    exact hrec.trans ((touches_banDisconnect w' target d reason actor).sameVerified (by decide))

theorem sameVerified_replyResult (t : HandleId) (c : String) {r : OpResult}
    (h : SameVerified w r.2) : SameVerified w (replyResult t c r) :=
  h.trans ((Touches.replyResult (S := [.log]) t c .refl).sameVerified (by decide))

theorem sameVerified_requirePermission (t : HandleId) (room : Uuid) (required : Permissions)
    {rest : World → World} (h : SameVerified w (rest w)) :
    SameVerified w (w.requirePermission t room required rest) := by
  unfold requirePermission
  split
  · exact h
  · exact .refl

theorem sameVerified_manageAcl (t : HandleId) (c : String) {op : World → OpResult}
    (h : SameVerified w (op w).2) : SameVerified w (manageAcl t c op w) :=
  sameVerified_requirePermission _ _ _ (sameVerified_replyResult t c h)

theorem sameVerified_handleAuthenticated (t : HandleId) (payload : Payload) :
    SameVerified w (handleAuthenticated cfg env t payload w) := by
  have ht := touches_handleAuthenticated cfg env t payload w
  unfold handleAuthenticated at ht ⊢
  cases payload
  case banUser target d reason =>
    refine sameVerified_requirePermission _ _ _ ?_
    split
    · exact .refl
    · exact sameVerified_replyResult _ _ (sameVerified_applyBan _ _ _ _)
  case deleteGroup name =>
    refine sameVerified_manageAcl _ _ ?_
    unfold applyDeleteGroup
    split
    · exact .refl
    · exact SameVerified.foldl (fun w u => sameVerified_scrubGroup name w u) _
  case setUserGroup target group add e =>
    refine sameVerified_manageAcl _ _ ?_
    unfold applySetUserGroup
    split
    · exact .refl
    · exact sameVerified_applySetUserGroupByKey _ _ _ _
  case setRegisteredUserGroup key group add e =>
    refine sameVerified_manageAcl _ _ ?_
    split
    · exact .refl
    · exact sameVerified_applySetUserGroupByKey _ _ _ _
  case authenticate =>
    show SameVerified w (handleController env t _ w)
    unfold handleController
    split
    · exact .refl
    · exact .refl
  all_goals exact ht.sameVerified (by dsimp only [footprint]; decide)

/-- **Only an authentication gives a connection a verified name.** -/
theorem sameVerified_step {e : Event} (h : ∀ t signature timestampMs cert,
    e ≠ .envelope t (.authenticate signature timestampMs cert)) :
    SameVerified w (step cfg env w e) := by
  have ht := touches_step cfg env w e
  cases e with
  | sweep =>
    refine SameVerified.foldl (fun w c => ?_) _
    exact SameVerified.foldl (fun w u => sameVerified_mirrorGroup c.1 c.2 false 0 w u) _
  | connect | readTimeout | datagram | connectionLost =>
    exact ht.sameVerified (by dsimp only [Event.footprint]; decide)
  | envelope t payload =>
    dsimp only [step]
    split
    swap
    · exact .refl
    unfold handleEnvelope
    split
    · exact (touches_handleClientHello _ _ _ _ _ _ _).sameVerified (by decide)
    · exact absurd rfl (h _ _ _ _)
    · exact .refl
    · exact .refl
    split
    · exact sameVerified_handleAuthenticated t payload
    · exact .refl

/-! ## Registered names that stay -/

theorem Touches.registeredName_eq {S : List Field} {w' : World} (h : Touches S w w')
    (hS : Field.registeredUsers ∉ S) : w'.store.registeredName = w.store.registeredName := by
  have husers : w'.store.registeredUsers = w.store.registeredUsers := h .registeredUsers hS
  funext k
  rw [Persistence.registeredName, Persistence.getRegisteredUser, husers]
  rfl

theorem registeredName_saveLastRoom (u : UserId) (room : Uuid) :
    (w.saveLastRoom u room).store.registeredName = w.store.registeredName := by
  unfold saveLastRoom
  split
  swap
  · rfl
  split
  swap
  · rfl
  rename_i key _ _
  show (w.store.updateUserLastRoom key (some room)).registeredName = _
  unfold Persistence.updateUserLastRoom
  split
  · rename_i user huser
    funext k
    have hget : (w.store.registerUser key { user with lastRoom := some room }).getRegisteredUser k =
        if k = key then some { user with lastRoom := some room } else w.store.getRegisteredUser k :=
      Table.get_set _ _ _ _
    rw [Persistence.registeredName, Persistence.registeredName, hget]
    split
    · rename_i hk
      rw [hk, huser]
      rfl
    · rfl
  · rfl

/-- The event registers or unregisters a key. -/
def Event.registers : Event → Bool
  | .envelope _ (.registerUser _) | .envelope _ (.unregisterUser _) => true
  | _ => false

/-- **Only the two registration requests change the name of a key.** -/
theorem registeredName_step {e : Event} (h : e.registers = false) :
    (step cfg env w e).store.registeredName = w.store.registeredName := by
  by_cases hf : Field.registeredUsers ∈ e.footprint
  swap
  · exact (touches_step cfg env w e).registeredName_eq hf
  cases e with
  | connect | readTimeout | datagram | connectionLost | sweep =>
    dsimp only [Event.footprint] at hf
    exact absurd hf (by decide)
  | envelope t payload =>
    cases payload
    case registerUser | unregisterUser => exact Bool.noConfusion h
    case joinRoom roomId =>
      dsimp only [step, handleEnvelope]
      split
      swap
      · rfl
      split
      swap
      · rfl
      unfold handleAuthenticated handleJoinRoom requirePermission
      dsimp only
      split
      swap
      · rfl
      split
      · rfl
      · exact (registeredName_saveLastRoom _ _).trans
          ((touches_refreshJoinMute _ _ _).registeredName_eq (by decide))
    all_goals
      dsimp only [Event.footprint, footprint] at hf
      exact absurd hf (by decide)

/-! ## What the events do to the match -/

/-- Connections and sessions that go away match as long as names stay. -/
theorem VerifiedMatches.keep {w' : World} (h : VerifiedMatches w) (hs : Shrinks w w')
    (hv : SameVerified w w') (hn : w'.store.registeredName = w.store.registeredName) :
    VerifiedMatches w' := by
  intro u hu k hk
  rw [hv u, hn]
  exact h u (hs.client u hu) k (hs.getUserPublicKey hk)

theorem verifiedMatches_handleConnect (h : VerifiedMatches w) (ha : SessionsAssigned w) :
    VerifiedMatches w.handleConnect := by
  have ht := touches_handleConnect w
  intro u hu k hk
  rw [ht.getUserPublicKey_eq (by decide)] at hk
  rw [ht.sameVerified (by decide) u, ht.registeredName_eq (by decide)]
  exact h u (ha.client_of_handleConnect hu hk) k hk

/-- The name a login loads. -/
theorem verifiedUsername_markAuthenticated {sender : HandleId} {pending : PendingAuth} :
    ((w.markAuthenticated env sender pending).state.conn sender.user).identity.verifiedUsername =
      w.store.registeredName pending.publicKey := by
  have ht : Touches [.authenticated, .knownKeys, .userGroups, .identity] w _ :=
    touches_markAuthenticated w env sender pending
  rw [← ht.registeredName_eq (by decide)]
  unfold markAuthenticated Persistence.registeredName
  simp [ServerState.setIdentity, ServerState.setConn]

theorem verifiedMatches_publishAuth {sender : HandleId} {pending : PendingAuth}
    {session : SessionEntry} (h : VerifiedMatches w)
    (hkey : session.userPublicKey = pending.publicKey) :
    VerifiedMatches (w.publishAuth cfg env sender pending session) := by
  have hmark := touches_markAuthenticated w env sender pending
  rw [publishAuth_eq]
  dsimp only
  generalize hmarked : w.markAuthenticated env sender pending = marked at hmark
  generalize marked.displayNameOf sender.user = name
  have hevict := touches_evictSupersededSessions marked pending.publicKey name sender.user
  have hshrinks : Shrinks marked (marked.evictSupersededSessions pending.publicKey name
    sender.user) := (fades_evictSupersededSessions pending.publicKey name sender.user).toShrinks
  generalize marked.evictSupersededSessions pending.publicKey name sender.user = evicted
    at hevict hshrinks ⊢
  have henter := touches_enterServer cfg (evicted.mapState (·.addSession sender.user session))
    sender pending.publicKey
  intro u hu k hk
  rw [henter.getClient_eq (by decide)] at hu
  rw [henter.getUserPublicKey_eq (by decide)] at hk
  rw [henter.sameVerified (by decide) u, henter.registeredName_eq (by decide)]
  have hname : evicted.store.registeredName = w.store.registeredName :=
    (hevict.registeredName_eq (by decide)).trans (hmark.registeredName_eq (by decide))
  show (evicted.state.conn u).identity.verifiedUsername = evicted.store.registeredName k
  rw [hevict.sameVerified (by decide) u, hname]
  by_cases hsender : u = sender.user
  · subst hsender
    have hself : (some session).map SessionEntry.userPublicKey = some k := by
      rw [← hk]
      exact congrArg _ (Table.get_set_self _ _ _).symm
    obtain rfl : pending.publicKey = k := hkey.symm.trans (Option.some.inj hself)
    rw [← hmarked]
    exact verifiedUsername_markAuthenticated
  · have hlive : w.state.getClient u = true :=
      (hmark.getClient_eq (by decide) u).symm.trans (hshrinks.client u hu)
    have hkevicted : evicted.state.getUserPublicKey u = some k := by
      rw [← hk]
      exact congrArg (Option.map SessionEntry.userPublicKey) (Table.get_set_ne hsender).symm
    have hkold : w.state.getUserPublicKey u = some k :=
      (hmark.getUserPublicKey_eq (by decide) u).symm.trans (hshrinks.getUserPublicKey hkevicted)
    rw [← hmarked, identity_markAuthenticated_of_ne hsender]
    exact h u hlive k hkold

theorem verifiedMatches_handleAuthenticate (h : VerifiedMatches w) {sender : HandleId}
    {signature : List UInt8} {timestampMs : Int} {cert : Option SessionCertificate} :
    VerifiedMatches (handleAuthenticate cfg env sender signature timestampMs cert w) := by
  have htouched : ∀ {S : List Field} {w' : World}, Touches S w w' →
      (∀ f ∈ [Field.members, .sessions, .identity, .registeredUsers], f ∉ S) →
      VerifiedMatches w' := fun ht hS =>
    h.keep (ht.shrinks fun f hf => hS f (by revert f; decide))
      (ht.sameVerified (hS _ (by decide))) (ht.registeredName_eq (hS _ (by decide)))
  rw [handleAuthenticate_eq]
  rcases authCheck_cases cfg env sender signature timestampMs cert w with
    ⟨pending, session, hp, hv, -, hkey, hc⟩ | ⟨w', error, hw', hc⟩
  · rw [hc]
    exact verifiedMatches_publishAuth
      (htouched (touches_checked w sender pending.publicKey env.nowSecs) (by decide)) hkey
  · rw [hc]
    have hfail : Touches [.pendingAuth, .userGroups, .bans, .log, .closed] w'
        (w'.sendAuthFailed sender error) := .sendAuthFailed .refl sender error
    have hbefore : Touches [.pendingAuth, .userGroups, .bans, .log, .closed] w w' := by
      rcases hw' with ⟨rfl, -⟩ | rfl | ⟨pending, -, rfl⟩
      · exact .refl
      · exact (touches_take w sender.user).mono (by decide)
      · exact (touches_checked w sender pending.publicKey env.nowSecs).mono (by decide)
    exact htouched (hbefore.trans hfail) (by decide)

/-! ### Registrations -/

/-- A granted request does what its operation does to the store, another one nothing. -/
theorem store_registration {sender : HandleId} (target : UserId) (command : String)
    (op : World → OpResult) (payload : Payload)
    (hpayload : handleEnvelope cfg env sender payload w =
      if (w.state.conn sender.user).authenticated then
        w.requirePermission sender rootRoomUuid (registrationPermission sender target) fun w =>
          replyResult sender command (op w)
      else w) :
    (step cfg env w (.envelope sender payload)).store =
      if w.mayRegister sender target = true then (op w).2.store else w.store := by
  have hreply : (replyResult sender command (op w)).store = (op w).2.store := by
    obtain ⟨outcome, w'⟩ := op w
    cases outcome <;> rfl
  dsimp only [step]
  rw [mayRegister, accepts, hpayload]
  unfold requirePermission
  cases (w.state.conn sender.user).opened with
  | false => rfl
  | true =>
    cases (w.state.conn sender.user).authenticated with
    | false => rfl
    | true =>
      simp only [if_true, Bool.and_self, Bool.true_and]
      split
      · exact hreply
      · rfl

theorem registeredName_applyRegisterUser (target : UserId) :
    (w.applyRegisterUser target).2.store.registeredName = match w.registerCheck target with
      | .error _ => w.store.registeredName
      | .ok (key, username) => Function.update w.store.registeredName key (some username) := by
  rw [applyRegisterUser_eq]
  cases w.registerCheck target with
  | error message => rfl
  | ok e =>
    funext k
    have hget : (w.store.registerUser e.1 { username := e.2, lastRoom := none }).getRegisteredUser
        k = if k = e.1 then some { username := e.2, lastRoom := none }
          else w.store.getRegisteredUser k := Table.get_set _ _ _ _
    show ((w.store.registerUser e.1 _).getRegisteredUser k).map RegisteredUser.username =
      Function.update w.store.registeredName e.1 (some e.2) k
    rw [hget, Function.update_apply]
    split <;> rfl

theorem registeredName_applyUnregisterUser (target : UserId) :
    (w.applyUnregisterUser target).2.store.registeredName =
      match w.state.getUserPublicKey target with
      | none => w.store.registeredName
      | some key => Function.update w.store.registeredName key none := by
  unfold applyUnregisterUser
  cases w.state.getUserPublicKey target with
  | none => rfl
  | some key =>
    funext k
    have hget : (w.store.unregisterUser key).getRegisteredUser k =
        if k = key then none else w.store.getRegisteredUser k := Table.get_del _ _ _
    show ((w.store.unregisterUser key).getRegisteredUser k).map RegisteredUser.username =
      Function.update w.store.registeredName key none k
    rw [hget, Function.update_apply]
    split <;> rfl

/-- A check that passes names a live connection of an unregistered key. -/
theorem of_registerCheck {target : UserId} {e : PublicKey × String}
    (h : w.registerCheck target = .ok e) : w.state.getUserPublicKey target = some e.1 ∧
      w.state.getClient target = true ∧ w.store.registeredName e.1 = none := by
  unfold registerCheck at h
  split at h
  · cases h
  rename_i key hkey
  split at h
  · cases h
  rename_i hclient
  dsimp only at h
  split at h
  · cases h
  rename_i hregistered
  split at h
  · cases h
  obtain rfl := Except.ok.inj h
  refine ⟨hkey, by simpa using hclient, ?_⟩
  rw [Persistence.registeredName, Option.not_isSome_iff_eq_none.mp hregistered]
  rfl

theorem registeredName_registerUser (sender : HandleId) (userId : Option UserId)
    (h : w.mayRegister sender (userId.getD 0) = true) :
    (step cfg env w (.envelope sender (.registerUser userId))).store.registeredName =
      match w.registerCheck (userId.getD 0) with
      | .error _ => w.store.registeredName
      | .ok (key, username) => Function.update w.store.registeredName key (some username) := by
  rw [store_registration (userId.getD 0) "RegisterUser" (·.applyRegisterUser (userId.getD 0))
    (.registerUser userId) rfl, if_pos h]
  exact registeredName_applyRegisterUser _

theorem registeredName_unregisterUser (sender : HandleId) (userId : Option UserId)
    (h : w.mayRegister sender (userId.getD 0) = true) :
    (step cfg env w (.envelope sender (.unregisterUser userId))).store.registeredName =
      match w.state.getUserPublicKey (userId.getD 0) with
      | none => w.store.registeredName
      | some key => Function.update w.store.registeredName key none := by
  rw [store_registration (userId.getD 0) "UnregisterUser" (·.applyUnregisterUser (userId.getD 0))
    (.unregisterUser userId) rfl, if_pos h]
  exact registeredName_applyUnregisterUser _

/-- **A registration that changes under a connection** leaves it with the old name. -/
theorem not_verifiedMatches_step {i : Input} (h : VerifiedMatches w) (hstale : StalesName w i) :
    ¬ VerifiedMatches (stepInput cfg w i) := by
  obtain ⟨env, e⟩ := i
  show ¬ VerifiedMatches (step cfg env w e)
  intro hafter
  unfold StalesName at hstale
  split at hstale
  · rename_i sender userId heq
    obtain rfl : e = .envelope sender (.registerUser userId) := heq
    obtain ⟨hmay, hok⟩ := hstale
    have ht : Touches [.registeredUsers, .log] w
        (step cfg env w (.envelope sender (.registerUser userId))) :=
      touches_step cfg env w (.envelope sender (.registerUser userId))
    cases hcheck : w.registerCheck (userId.getD 0) with
    | error message => rw [hcheck] at hok; exact Bool.noConfusion hok
    | ok e =>
      obtain ⟨hkey, hlive, hnone⟩ := of_registerCheck hcheck
      have hnew := hafter (userId.getD 0) ((ht.getClient_eq (by decide) _).trans hlive) e.1
        ((ht.getUserPublicKey_eq (by decide) _).trans hkey)
      rw [registeredName_registerUser sender userId hmay, hcheck,
        ht.sameVerified (by decide), h _ hlive _ hkey, hnone] at hnew
      have hself : Function.update w.store.registeredName e.1 (some e.2) e.1 = some e.2 :=
        Function.update_self ..
      exact Option.some_ne_none e.2 (hself.symm.trans hnew.symm)
  · rename_i sender userId heq
    obtain rfl : e = .envelope sender (.unregisterUser userId) := heq
    obtain ⟨hmay, k, hk, hname, u, hu, hkey⟩ := hstale
    have ht : Touches [.registeredUsers, .log] w
        (step cfg env w (.envelope sender (.unregisterUser userId))) :=
      touches_step cfg env w (.envelope sender (.unregisterUser userId))
    have hlive := mem_snapshotClients.mp hu
    have hnew := hafter u ((ht.getClient_eq (by decide) _).trans hlive) k
      ((ht.getUserPublicKey_eq (by decide) _).trans hkey)
    rw [registeredName_unregisterUser sender userId hmay, Option.mem_def.mp hk,
      ht.sameVerified (by decide), h _ hlive _ hkey] at hnew
    have hself : Function.update w.store.registeredName k none k = none := Function.update_self ..
    exact hname (hnew.trans hself)
  · exact hstale

/-- Any other event keeps the match. -/
theorem verifiedMatches_step {i : Input} (h : VerifiedMatches w) (ha : SessionsAssigned w)
    (hok : ¬ StalesName w i) : VerifiedMatches (stepInput cfg w i) := by
  obtain ⟨env, e⟩ := i
  show VerifiedMatches (step cfg env w e)
  have ht := touches_step cfg env w e
  by_cases hc : e = .connect
  · subst hc
    exact verifiedMatches_handleConnect h ha
  by_cases hh : e.isHandshake = false
  swap
  · unfold Event.isHandshake at hh
    split at hh
    · exact h.keep (ht.shrinks (by dsimp only [Event.footprint, footprint]; decide))
        (ht.sameVerified (by dsimp only [Event.footprint, footprint]; decide))
        (ht.registeredName_eq (by dsimp only [Event.footprint, footprint]; decide))
    · rename_i t signature timestampMs cert
      dsimp only [step]
      split
      · exact verifiedMatches_handleAuthenticate h
      · exact h
    · exact absurd rfl hh
  have hshrinks : Shrinks w (step cfg env w e) := (fades_step hc hh).toShrinks
  have hverified : SameVerified w (step cfg env w e) := sameVerified_step fun t signature
    timestampMs cert heq => by subst heq; exact Bool.noConfusion hh
  by_cases hr : e.registers = false
  · exact h.keep hshrinks hverified (registeredName_step hr)
  unfold Event.registers at hr
  split at hr
  · rename_i sender userId
    refine h.keep hshrinks hverified ?_
    by_cases hmay : w.mayRegister sender (userId.getD 0) = true
    · rw [registeredName_registerUser sender userId hmay]
      cases hcheck : w.registerCheck (userId.getD 0) with
      | error message => rfl
      | ok e => exact absurd ⟨hmay, by rw [hcheck]; rfl⟩ hok
    · rw [store_registration (userId.getD 0) "RegisterUser" (·.applyRegisterUser (userId.getD 0))
        (.registerUser userId) rfl, if_neg hmay]
  · rename_i sender userId
    by_cases hmay : w.mayRegister sender (userId.getD 0) = true
    swap
    · refine h.keep hshrinks hverified ?_
      rw [store_registration (userId.getD 0) "UnregisterUser"
        (·.applyUnregisterUser (userId.getD 0)) (.unregisterUser userId) rfl, if_neg hmay]
    have hnames : (step cfg env w (.envelope sender (.unregisterUser
        userId))).store.registeredName = _ := registeredName_unregisterUser sender userId hmay
    cases hkey : w.state.getUserPublicKey (userId.getD 0) with
    | none => exact h.keep hshrinks hverified (by rw [hnames, hkey])
    | some k =>
      rw [hkey] at hnames
      dsimp only at hnames
      intro u hu k' hk'
      have hlive := hshrinks.client u hu
      have hkold := hshrinks.getUserPublicKey hk'
      rw [hverified u, hnames, h u hlive k' hkold, Function.update_apply]
      split
      · -- The key is connected, so it was not registered.
        subst k'
        by_contra hname
        exact hok ⟨hmay, k, hkey, hname, u, mem_snapshotClients.mpr hlive, hkold⟩
      · rfl
  · exact absurd rfl hr

end Steps

/-! ## Every run -/

/-- **Verified names match the store in every state of a run** exactly when no registration takes
effect in it and none ends whose key is connected. -/
theorem verified_matches_iff (cfg : Config) (store : Persistence) (inputs : List Input) :
    (∀ pre, pre <+: inputs → VerifiedMatches (run cfg (World.init store) pre)) ↔
      Always (stepInput cfg) (fun w i => ¬ StalesName w i) (World.init store) inputs := by
  constructor
  · exact Always.of_invariant fun w i h hC => not_verifiedMatches_step h (not_not.mp hC)
  · intro hall pre hpre
    have hinit : VerifiedMatches (World.init store) ∧ SessionsAssigned (World.init store) :=
      ⟨fun u hu => absurd hu Bool.false_ne_true, fun _ _ => ⟨rfl, rfl⟩⟩
    exact (hall.invariant_all (I := fun w => VerifiedMatches w ∧ SessionsAssigned w)
      (fun w i hok h => ⟨verifiedMatches_step h.1 h.2 hok, sessionsAssigned_step h.2⟩)
      hinit hpre).1

/-- The administrator's key is registered as "ann". -/
def sampleAnnStore : Persistence :=
  sampleAdminStore.registerUser (Bytes.rep 32 9) { username := "ann", lastRoom := none }

/-- Unregistered while connected, the connection keeps the name. -/
theorem not_verified_matches : ¬ VerifiedMatches (run sampleConfig (World.init sampleAnnStore)
    (sampleLogin 1 (Bytes.rep 32 9) "ann" ++ [sampleMsg 1 (.unregisterUser (some 1))])) := by
  intro h
  have hname := h 1 (by decide +kernel) (Bytes.rep 32 9) (by decide +kernel)
  exact absurd hname (by decide +kernel)

end Rumble.Server
