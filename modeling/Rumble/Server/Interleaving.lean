import Rumble.Server.Footprint

/-!
# Handshakes and bans as interleaved tasks

The handlers of a hello, an authentication and a ban suspend between their reads and their writes,
and other handlers run in between. Here each of them is a first half, which reads and may leave a
task behind, and the steps the task still has to take; `Sys.step` runs one such piece, in any order
the scheduler likes. Run back to back the pieces are the handlers of `Handlers` and `Ops`
(`handleClientHello_eq`, `handleAuthenticate_eq`, `publishAuth_eq`, `applyBan_eq`).
-/

namespace Rumble.Server

open Rumble.Lib World

namespace World

/-! ## The halves of a handler -/

/-- The first half of a hello: its checks, then the pending authentication. The key of an accepted
hello is still to be stored. -/
def helloCheck (cfg : Config) (env : Env) (sender : HandleId) (username : String)
    (publicKey : List UInt8) (password : Option String) (w : World) : Option PublicKey × World :=
  match Bytes.ofList? 32 publicKey with
  | none => (none, w.sendAuthFailed sender "Invalid public key length")
  | some key =>
    match helloRefusal cfg w.store username key password with
    | some error => (none, w.sendAuthFailed sender error)
    | none => (some key, w.issueNonce env sender username key)

/-- The first half of an authentication: the pending record is taken, and everything is checked.
What is left to publish is returned. -/
def authCheck (cfg : Config) (env : Env) (sender : HandleId) (signature : List UInt8)
    (timestampMs : Int) (sessionCert : Option SessionCertificate) (w : World) :
    Option (PendingAuth × SessionEntry) × World :=
  match w.state.takePendingAuth sender.user with
  | (none, _) => (none, w.sendAuthFailed sender "No pending authentication")
  | (some pending, state) =>
    let w := w.mapState fun _ => state
    match verifyAuth cfg env pending signature timestampMs with
    | .error error => (none, w.sendAuthFailed sender error)
    | .ok () =>
      let (banned, store) := banCheck w.store pending.publicKey env.nowSecs
      let w := w.mapStore fun _ => store
      if banned then (none, w.sendAuthFailed sender "You are banned from this server")
      else match verifyCert cfg env pending.publicKey sessionCert with
        | .error error => (none, w.sendAuthFailed sender error)
        | .ok session => (some (pending, session), w)

/-- The connection, key and nonce of the signature an authentication verifies, if it does. -/
def newProof (cfg : Config) (env : Env) (sender : HandleId) (signature : List UInt8)
    (timestampMs : Int) (w : World) : Option (UserId × PublicKey × Nonce) :=
  match w.state.pendingAuth.get sender.user with
  | none => none
  | some pending =>
    if (verifyAuth cfg env pending signature timestampMs).isOk then
      some (sender.user, pending.publicKey, pending.nonce)
    else none

/-- The first half of a ban: its checks, then the store and the cached groups. -/
def banRecord (w : World) (env : Env) (target : UserId) (durationSeconds : Nat)
    (reason actor : String) : Except String Unit × World :=
  if !w.state.getClient target then (.error (w.notAClientReason target "ban"), w)
  else if (w.state.handle (primary target)).isSuperuser then (.error "Cannot ban a superuser", w)
  else if (w.state.handle (primary target)).isController then
    (.error "Cannot ban a bridge connection", w)
  else
    let w := w.mapStore ensureBannedGroup
    match w.state.getUserPublicKey target with
    | none => (.error "Cannot resolve user's public key", w)
    | some targetKey =>
      let w := w.mapStore fun store => recordBan store targetKey
        { bannedAtSecs := some env.nowSecs
          durationSeconds := durationSeconds
          reason := reason
          bannedBy := actor }
      (.ok (), w.mapState (·.setIdentity target fun i =>
        { i with groups := pushGroup i.groups "banned" }))

/-- The second half of a ban: the notice, and the connection is closed and cleaned up. -/
def banDisconnect (w : World) (target : UserId) (durationSeconds : Nat) (reason actor : String) :
    OpResult :=
  let targetUsername := w.displayNameOf target
  let w := w.sendFrame (primary target)
    (.userKicked target (banReason actor reason durationSeconds) actor)
  (.ok ("Banned '" ++ targetUsername ++ "' (" ++ durationDesc durationSeconds ++ ")"),
    (w.closeConn target).cleanupClient target)

theorem handleClientHello_eq (cfg : Config) (env : Env) (sender : HandleId) (username : String)
    (publicKey : List UInt8) (password : Option String) (w : World) :
    handleClientHello cfg env sender username publicKey password w =
      match helloCheck cfg env sender username publicKey password w with
      | (none, w) => w
      | (some key, w) => w.storeHelloKey sender key env.nonce := by
  unfold handleClientHello helloCheck
  cases Bytes.ofList? 32 publicKey with
  | none => rfl
  | some key =>
    dsimp only
    cases helloRefusal cfg w.store username key password <;> rfl

theorem handleAuthenticate_eq (cfg : Config) (env : Env) (sender : HandleId)
    (signature : List UInt8) (timestampMs : Int) (cert : Option SessionCertificate) (w : World) :
    handleAuthenticate cfg env sender signature timestampMs cert w =
      match authCheck cfg env sender signature timestampMs cert w with
      | (none, w) => w
      | (some (pending, session), w) => w.publishAuth cfg env sender pending session := by
  unfold handleAuthenticate authCheck ServerState.takePendingAuth
  cases w.state.pendingAuth.get sender.user with
  | none => rfl
  | some pending =>
    dsimp only
    cases verifyAuth cfg env pending signature timestampMs with
    | error error => rfl
    | ok _ =>
      dsimp only
      generalize banCheck _ pending.publicKey env.nowSecs = verdict
      obtain ⟨banned, store⟩ := verdict
      cases banned with
      | true => rfl
      | false => cases verifyCert cfg env pending.publicKey cert <;> rfl

theorem publishAuth_eq (cfg : Config) (env : Env) (sender : HandleId) (pending : PendingAuth)
    (session : SessionEntry) (w : World) :
    w.publishAuth cfg env sender pending session =
      let marked := w.markAuthenticated env sender pending
      enterServer cfg ((marked.evictSupersededSessions pending.publicKey
        (marked.displayNameOf sender.user) sender.user).mapState
          (·.addSession sender.user session)) sender pending.publicKey := rfl

theorem applyBan_eq (env : Env) (target : UserId) (d : Nat) (reason actor : String) (w : World) :
    w.applyBan env target d reason actor =
      match w.banRecord env target d reason actor with
      | (.error message, w) => (.error message, w)
      | (.ok (), w) => w.banDisconnect target d reason actor := by
  unfold applyBan banRecord
  split
  · rfl
  split
  · rfl
  split
  · rfl
  dsimp only [World.mapStore_state]
  cases w.state.getUserPublicKey target <;> rfl

end World

/-! ## Tasks -/

/-- Where the publication of an authentication stands. -/
inductive Stage where
  | checked
  | marked (username : String)
  | evicted
  | tracked
  deriving DecidableEq

/-- What a suspended handler has still to do. -/
inductive Task where
  | hello (sender : HandleId) (key : PublicKey) (nonce : Nonce)
  | auth (sender : HandleId) (pending : PendingAuth) (session : SessionEntry) (stage : Stage)
  | ban (target : UserId) (durationSeconds : Nat) (reason actor : String)
  deriving DecidableEq

/-- What the scheduler may run next. -/
inductive Act where
  /-- The first half of a hello. -/
  | hello (sender : HandleId) (username : String) (publicKey : List UInt8)
      (password : Option String)
  /-- The first half of an authentication. -/
  | authenticate (sender : HandleId) (signature : List UInt8) (timestampMs : Int)
      (sessionCert : Option SessionCertificate)
  /-- The first half of a ban. -/
  | ban (target : UserId) (durationSeconds : Nat) (reason actor : String)
  /-- A connection ends and is cleaned up. -/
  | lost (userId : UserId)
  /-- The next step of the `i`-th suspended task. -/
  | resume (i : Nat)
  deriving DecidableEq

/-- The server with its suspended tasks, and what has been issued, verified and accepted so far. -/
structure Sys where
  world : World
  tasks : List Task
  /-- The nonces issued to each connection. -/
  issued : List (UserId × Nonce)
  /-- Per connection, a key and the nonce over which its signature was verified. -/
  proven : List (UserId × PublicKey × Nonce)
  /-- The connections and nonces of the authentications that passed. -/
  accepted : List (UserId × Nonce)

namespace Task

/-- One step of a task: the new world, and the task that is left of it. -/
def run (cfg : Config) (env : Env) (w : World) : Task → World × Option Task
  | .hello sender key nonce => (w.storeHelloKey sender key nonce, none)
  | .auth sender pending session .checked =>
    let w := w.markAuthenticated env sender pending
    (w, some (.auth sender pending session (.marked (w.displayNameOf sender.user))))
  | .auth sender pending session (.marked username) =>
    (w.evictSupersededSessions pending.publicKey username sender.user,
      some (.auth sender pending session .evicted))
  | .auth sender pending session .evicted =>
    (w.mapState (·.addSession sender.user session), some (.auth sender pending session .tracked))
  | .auth sender pending _ .tracked => (w.enterServer cfg sender pending.publicKey, none)
  | .ban target d reason actor => ((w.banDisconnect target d reason actor).2, none)

end Task

namespace Sys

/-- The system at rest over a world. -/
def init (w : World) : Sys := ⟨w, [], [], [], []⟩

/-- Run one piece. -/
def step (cfg : Config) (s : Sys) (i : Env × Act) : Sys :=
  let (env, act) := i
  match act with
  | .hello sender username publicKey password =>
    match s.world.helloCheck cfg env sender username publicKey password with
    | (none, w) => { s with world := w }
    | (some key, w) => { s with
        world := w
        tasks := s.tasks ++ [.hello sender key env.nonce]
        issued := s.issued ++ [(sender.user, env.nonce)] }
  | .authenticate sender signature timestampMs cert =>
    let proven := s.proven ++ (s.world.newProof cfg env sender signature timestampMs).toList
    match s.world.authCheck cfg env sender signature timestampMs cert with
    | (none, w) => { s with world := w, proven := proven }
    | (some (pending, session), w) => { s with
        world := w
        tasks := s.tasks ++ [.auth sender pending session .checked]
        proven := proven
        accepted := s.accepted ++ [(sender.user, pending.nonce)] }
  | .ban target d reason actor =>
    match s.world.banRecord env target d reason actor with
    | (.error _, w) => { s with world := w }
    | (.ok (), w) => { s with world := w, tasks := s.tasks ++ [.ban target d reason actor] }
  | .lost userId => { s with world := s.world.handleConnectionLost userId }
  | .resume i =>
    match s.tasks[i]? with
    | none => s
    | some task =>
      let (w, rest) := task.run cfg env s.world
      { s with world := w, tasks := s.tasks.take i ++ rest.toList ++ s.tasks.drop (i + 1) }

end Sys

/-! ## What the pieces change -/

section Pieces

variable {cfg : Config} {env : Env} {sender : HandleId} {signature : List UInt8}
  {timestampMs : Int} {cert : Option SessionCertificate} {w w' : World}

/-- A hello is accepted with its key, or refused with a notice. -/
theorem helloCheck_cases (cfg : Config) (env : Env) (sender : HandleId) (username : String)
    (publicKey : List UInt8) (password : Option String) (w : World) :
    (∃ key, Bytes.ofList? 32 publicKey = some key ∧
      helloRefusal cfg w.store username key password = none ∧
      helloCheck cfg env sender username publicKey password w =
        (some key, w.issueNonce env sender username key)) ∨
    ∃ error, helloCheck cfg env sender username publicKey password w =
      (none, w.sendAuthFailed sender error) := by
  unfold helloCheck
  cases Bytes.ofList? 32 publicKey with
  | none => exact .inr ⟨_, rfl⟩
  | some key =>
    dsimp only
    cases h : helloRefusal cfg w.store username key password with
    | none => exact .inl ⟨key, rfl, h, rfl⟩
    | some error => exact .inr ⟨error, rfl⟩

theorem userPublicKey_verifyCert {key : PublicKey} {session : SessionEntry}
    (h : verifyCert cfg env key cert = .ok session) : session.userPublicKey = key := by
  unfold verifyCert at h
  repeat' split at h
  all_goals cases h
  rfl

/-- The store after the ban check of an authentication. -/
def World.checked (w : World) (sender : HandleId) (key : PublicKey) (nowSecs : Nat) : World :=
  (w.mapState fun s => (s.takePendingAuth sender.user).2).mapStore fun store =>
    (banCheck store key nowSecs).2

/-- An authentication passes all its checks, or is refused with a notice. -/
theorem authCheck_cases (cfg : Config) (env : Env) (sender : HandleId) (signature : List UInt8)
    (timestampMs : Int) (cert : Option SessionCertificate) (w : World) :
    (∃ pending session, w.state.pendingAuth.get sender.user = some pending ∧
      verifyAuth cfg env pending signature timestampMs = .ok () ∧
      (banCheck w.store pending.publicKey env.nowSecs).1 = false ∧
      session.userPublicKey = pending.publicKey ∧
      authCheck cfg env sender signature timestampMs cert w =
        (some (pending, session), w.checked sender pending.publicKey env.nowSecs)) ∨
    ∃ w' error, (w' = w ∧ w.state.pendingAuth.get sender.user = none ∨
        w' = w.mapState (fun s => (s.takePendingAuth sender.user).2) ∨
        ∃ pending, (w.state.pendingAuth.get sender.user = some pending ∧
          verifyAuth cfg env pending signature timestampMs = .ok ()) ∧
            w' = w.checked sender pending.publicKey env.nowSecs) ∧
      authCheck cfg env sender signature timestampMs cert w =
        (none, w'.sendAuthFailed sender error) := by
  unfold authCheck ServerState.takePendingAuth
  cases hp : w.state.pendingAuth.get sender.user with
  | none => exact .inr ⟨w, _, .inl ⟨rfl, rfl⟩, rfl⟩
  | some pending =>
    dsimp only
    cases hv : verifyAuth cfg env pending signature timestampMs with
    | error error => exact .inr ⟨_, error, .inr (.inl rfl), rfl⟩
    | ok _ =>
      have hbanned : ∀ b, (banCheck w.store pending.publicKey env.nowSecs).1 = b →
          (banCheck (w.mapState fun _ => { w.state with
            pendingAuth := w.state.pendingAuth.del sender.user }).store pending.publicKey
            env.nowSecs).1 = b := fun b h => h
      cases hb : (banCheck w.store pending.publicKey env.nowSecs).1 with
      | true =>
        rw [if_pos (hbanned true hb)]
        exact .inr ⟨_, _, .inr (.inr ⟨pending, ⟨rfl, hv⟩, rfl⟩), rfl⟩
      | false =>
        rw [if_neg (Bool.eq_false_iff.mp (hbanned false hb))]
        cases hc : verifyCert cfg env pending.publicKey cert with
        | error error => exact .inr ⟨_, error, .inr (.inr ⟨pending, ⟨rfl, hv⟩, rfl⟩), rfl⟩
        | ok session => exact .inl ⟨pending, session, rfl, hv, hb, userPublicKey_verifyCert hc, rfl⟩

theorem touches_take (w : World) (u : UserId) :
    Touches [.pendingAuth] w (w.mapState fun s => (s.takePendingAuth u).2) := by
  intro f hf
  cases f <;> first | rfl | exact absurd (by decide) hf

theorem touches_checked (w : World) (sender : HandleId) (key : PublicKey) (now : Nat) :
    Touches [.pendingAuth, .userGroups, .bans] w (w.checked sender key now) :=
  ((touches_take w sender.user).mono (by decide)).trans ((touches_banCheck _ key now).mono
    (by decide))

theorem touches_addSession (w : World) (u : UserId) (session : SessionEntry) :
    Touches [.sessions] w (w.mapState (·.addSession u session)) := by
  intro f hf
  cases f <;> first | rfl | exact absurd (by decide) hf

theorem touches_storeHelloKey (w : World) (sender : HandleId) (key : PublicKey) (nonce : Nonce) :
    Touches [.publicKey, .log] w (w.storeHelloKey sender key nonce) := by
  unfold storeHelloKey
  refine .sendFrame (.setConn .refl _ _ ?_) _ _
  exact fun c => ⟨fun _ => rfl, (absurd (by decide) ·), fun _ => rfl, fun _ => rfl, fun _ => rfl⟩

theorem touches_banRecord (w : World) (env : Env) (target : UserId) (d : Nat)
    (reason actor : String) : Touches [.groups, .userGroups, .bans, .identity] w
      (w.banRecord env target d reason actor).2 := by
  have hg : Touches [.groups, .userGroups, .bans, .identity] w (w.mapStore ensureBannedGroup) :=
    Touches.refl.setGroups (ensureBannedGroup_eq _)
  unfold banRecord
  split
  · exact .refl
  split
  · exact .refl
  split
  · exact .refl
  dsimp only
  split
  · exact hg
  · exact (touches_recordBan hg _ _).setIdentity _ _

theorem touches_banDisconnect (w : World) (target : UserId) (d : Nat) (reason actor : String) :
    Touches (.closed :: teardownFields) w (w.banDisconnect target d reason actor).2 :=
  ((Touches.refl.sendFrame _ _).setClosed target).trans
    ((touches_cleanupClient _ target).mono (by decide))

end Pieces

/-- What is left of a task is an authentication of the same connection. -/
theorem run_rest {cfg : Config} {env : Env} {w : World} {task rest : Task}
    (h : rest ∈ (task.run cfg env w).2) :
    ∃ sender p session stage stage', task = .auth sender p session stage ∧
      rest = .auth sender p session stage' := by
  unfold Task.run at h
  split at h <;> first | exact absurd h (Option.not_mem_none _) | skip
  all_goals
    obtain rfl := Option.some.inj h
    exact ⟨_, _, _, _, _, rfl, rfl⟩

/-- The tasks around the one that runs. -/
theorem mem_resume {l : List Task} {i : Nat} {a x : Task} (h : l[i]? = some a) :
    x ∈ l ↔ x = a ∨ x ∈ l.take i ++ l.drop (i + 1) := by
  obtain ⟨hi, rfl⟩ := List.getElem?_eq_some_iff.mp h
  have hl : l = l.take i ++ l[i] :: l.drop (i + 1) := by
    rw [← List.drop_eq_getElem_cons hi, List.take_append_drop]
  conv_lhs => rw [hl]
  simp only [List.mem_append, List.mem_cons]
  tauto

end Rumble.Server
