import Rumble.Lib.Transition
import Rumble.Server.Interleaving
import Rumble.Server.Teardown

/-!
# The session index

`sessions` maps a user to its session and `sessionsById` maps the id of a session back to the user.
A teardown removes both entries. An authentication inserts both without looking for what it
replaces: a session of the same user under another id leaves its id behind, and another user's
session with the same id loses its id. `sessionIndex_run_iff` says for which runs the two tables
stay inverse to each other, with live owners only.
-/

namespace Rumble.Server

open Rumble.Lib Rumble.Lib.Transition World

/-- The two session tables are inverse to each other, and only live clients have sessions. -/
structure SessionIndex (s : ServerState) : Prop where
  inverse : ∀ id u, s.sessionsById.get id = some u ↔
    ∃ e, s.sessions.get u = some e ∧ e.sessionId = id
  live : ∀ u e, s.sessions.get u = some e → s.getClient u = true

/-- The ids of members have all been assigned. -/
def MembersAssigned (s : ServerState) : Prop :=
  ∀ u, s.nextUserId ≤ u → s.members.get u = none

/-- What every step but an authentication keeps. -/
structure Indexed (w : World) : Prop where
  index : SessionIndex w.state
  assigned : MembersAssigned w.state

section Index

variable {s s' : ServerState} {u : UserId}

theorem SessionIndex.congr (h : SessionIndex s) (hs : s'.sessions = s.sessions)
    (hb : s'.sessionsById = s.sessionsById)
    (hc : ∀ u, s.getClient u = true → s'.getClient u = true) : SessionIndex s' where
  inverse := fun id u => by rw [hs, hb]; exact h.inverse id u
  live := fun u e he => hc u (h.live u e (hs ▸ he))

/-- The id of a session leads back to its owner. -/
theorem SessionIndex.owner (h : SessionIndex s) {e : SessionEntry}
    (he : s.sessions.get u = some e) : s.sessionsById.get e.sessionId = some u :=
  (h.inverse e.sessionId u).mpr ⟨e, he, rfl⟩

theorem sessionIndex_removeSession (h : SessionIndex s) (u : UserId) :
    SessionIndex (s.removeSession u) := by
  unfold ServerState.removeSession
  split
  · rename_i session hu
    refine ⟨fun id v => ?_, fun v e he => ?_⟩
    · rw [Table.get_del]
      by_cases hid : id = session.sessionId
      · subst id
        simp only [if_true, reduceCtorEq, false_iff, not_exists, not_and]
        intro e he heq
        have hv := h.owner hu
        rw [Table.get_del] at he
        split at he
        · cases he
        · rename_i hne
          exact hne (Option.some.inj ((heq ▸ h.owner he).symm.trans hv))
      · rw [if_neg hid, h.inverse id v, Table.get_del]
        refine exists_congr fun e => ⟨fun he => ⟨?_, he.2⟩, fun he => ⟨?_, he.2⟩⟩
        · refine (if_neg fun hv => hid ?_).trans he.1
          subst v
          rw [← he.2, Option.some.inj (hu.symm.trans he.1)]
        · by_cases hv : v = u
          · exact absurd (he.1.symm.trans (if_pos hv)) (Option.some_ne_none e)
          · exact (if_neg hv).symm.trans he.1
    · rw [Table.get_del] at he
      split at he
      · cases he
      · exact h.live v e he
  · exact h

theorem sessionIndex_forgetClient (h : SessionIndex s) (u : UserId) :
    SessionIndex (s.forgetClient u) := by
  have hr := sessionIndex_removeSession h u
  have hs : (s.forgetClient u).sessions = (s.removeSession u).sessions ∧
      (s.forgetClient u).sessionsById = (s.removeSession u).sessionsById := by
    unfold ServerState.forgetClient ServerState.removeSession ServerState.removeClient
    dsimp only
    split <;> exact ⟨rfl, rfl⟩
  refine ⟨fun id v => ?_, fun v e he => ?_⟩
  · rw [hs.1, hs.2]
    exact hr.inverse id v
  · rw [ServerState.get_sessions_forgetClient] at he
    split at he
    · cases he
    · rename_i hv
      rw [getClient_iff, ServerState.members_forgetClient, Table.get_del_ne hv]
      exact getClient_iff.mp (h.live v e he)

/-- **When an insertion keeps the index.** The user is a live client, a session it already has has
the same id, and nobody else has a session with this id. -/
theorem sessionIndex_addSession_iff (h : SessionIndex s) (session : SessionEntry) :
    SessionIndex (s.addSession u session) ↔ s.getClient u = true ∧
      (∀ e, s.sessions.get u = some e → e.sessionId = session.sessionId) ∧
      ∀ v e, s.sessions.get v = some e → e.sessionId = session.sessionId → v = u := by
  constructor
  · intro h'
    have hnew : (s.addSession u session).sessions.get u = some session := Table.get_set_self _ _ _
    refine ⟨h'.live u session hnew, fun e he => by_contra fun hne => ?_, fun v e he hid => ?_⟩
    · -- The id of the replaced session still leads to the user.
      have hold : (s.addSession u session).sessionsById.get e.sessionId = some u :=
        (Table.get_set_ne hne).trans (h.owner he)
      obtain ⟨e', he', hid⟩ := (h'.inverse _ _).mp hold
      exact hne (hid ▸ congrArg SessionEntry.sessionId (Option.some.inj (hnew.symm.trans he'))).symm
    · -- The other owner's id now leads to the user.
      by_contra hv
      have he' : (s.addSession u session).sessions.get v = some e := (Table.get_set_ne hv).trans he
      have hid' := h'.owner he'
      rw [hid] at hid'
      exact hv (Option.some.inj (hid'.symm.trans (h'.owner hnew)))
  · rintro ⟨hlive, hown, hother⟩
    refine ⟨fun id v => ?_, fun v e he => ?_⟩
    · show (s.sessionsById.set session.sessionId u).get id = some v ↔
        ∃ e, (s.sessions.set u session).get v = some e ∧ e.sessionId = id
      rw [Table.get_set, Table.get_set]
      by_cases hid : id = session.sessionId
      · subst id
        rw [if_pos rfl, Option.some.injEq]
        constructor
        · rintro rfl
          exact ⟨session, if_pos rfl, rfl⟩
        · rintro ⟨e, he, heq⟩
          by_cases hv : v = u
          · exact hv.symm
          · rw [if_neg hv] at he
            exact (hother v e he heq).symm
      · rw [if_neg hid, h.inverse id v]
        by_cases hv : v = u
        · subst v
          rw [if_pos rfl]
          constructor
          · rintro ⟨e, he, rfl⟩
            exact absurd (hown e he) hid
          · rintro ⟨e, he, rfl⟩
            exact absurd (congrArg SessionEntry.sessionId (Option.some.inj he)).symm hid
        · rw [if_neg hv]
    · have he : (s.sessions.set u session).get v = some e := he
      rw [Table.get_set] at he
      split at he
      · subst v
        exact hlive
      · exact h.live v e he

end Index

/-! ## Steps that are not authentications -/

section Steps

variable {cfg : Config} {env : Env} {w w' : World}

theorem Touches.symm {S : List Field} (ht : Touches S w w') : Touches S w' w :=
  fun f hf => (ht f hf).symm

theorem Touches.indexed {S : List Field} (ht : Touches S w w')
    (hS : ∀ f ∈ [Field.members, .sessions, .nextUserId], f ∉ S) (h : Indexed w) : Indexed w' := by
  have hm : w'.state.members = w.state.members := ht _ (hS .members (by decide))
  have hs : (w'.state.sessions, _) = (w.state.sessions, _) := ht _ (hS .sessions (by decide))
  have hn : w'.state.nextUserId = w.state.nextUserId := ht _ (hS .nextUserId (by decide))
  obtain ⟨hs, hb⟩ := Prod.mk.inj hs
  refine ⟨h.index.congr hs hb fun u hu => ?_, fun u hu => ?_⟩
  · rwa [getClient_iff, hm, ← getClient_iff]
  · rw [hm]
    exact h.assigned u (hn ▸ hu)

/-- A removal leaves the ids of the remaining members assigned. -/
theorem MembersAssigned.shrink {s s' : ServerState} (h : MembersAssigned s)
    (hn : s'.nextUserId = s.nextUserId)
    (hm : ∀ u, s.members.get u = none → s'.members.get u = none) : MembersAssigned s' :=
  fun u hu => hm u (h u (hn ▸ hu))

theorem indexed_cleanupClient (h : Indexed w) (u : UserId) : Indexed (w.cleanupClient u) := by
  have hs := sessions_cleanupParticipants w u (w.state.handle (primary u)).isController
  have hp : SessionIndex
      (w.cleanupParticipants u (w.state.handle (primary u)).isController).state :=
    h.index.congr hs.1 hs.2 fun v hv => by rwa [getClient_cleanupParticipants]
  refine ⟨?_, h.assigned.shrink ?_ fun v hv => ?_⟩
  · rw [cleanupClient_state]
    exact sessionIndex_forgetClient hp u
  · exact touches_cleanupClient w u .nextUserId (by decide)
  · rw [cleanupClient_state, ServerState.members_forgetClient, Table.get_del]
    split
    · rfl
    unfold cleanupParticipants
    split
    · rw [members_foldl_cleanupParticipant, hv, ite_self]
    · exact hv

theorem indexed_evictOne {username : String} {new : UserId} (h : Indexed w) (old : UserId) :
    Indexed (w.evictOne username new old) := by
  cases hy : w.state.yields username new old with
  | false => rwa [evictOne_eq_self hy]
  | true =>
    rw [evictOne_eq hy]
    refine indexed_cleanupClient ?_ old
    have ht : Touches [.tornDown, .log, .closed] w
        (w.mapState (·.setHandle (primary old) fun c => { c with tornDown := true })) :=
      Touches.refl.setHandle _ _ fun _ =>
        ⟨fun _ => rfl, fun _ => rfl, fun _ => rfl, fun _ => rfl, (absurd (by decide) ·)⟩
    exact ((ht.sendFrame _ _).setClosed old).indexed (by decide) h

theorem indexed_evictSupersededSessions (h : Indexed w) (key : PublicKey) (username : String)
    (new : UserId) : Indexed (w.evictSupersededSessions key username new) :=
  List.foldlRecOn _ _ h fun _ h old _ => indexed_evictOne h old

theorem indexed_handleConnectionLost (h : Indexed w) (u : UserId) :
    Indexed (w.handleConnectionLost u) := by
  have hb : Indexed (w.beginTeardown u).2 :=
    (Touches.beginTeardown (S := [.tornDown]) .refl u).indexed (by decide) h
  unfold handleConnectionLost
  dsimp only
  split
  · exact indexed_cleanupClient hb u
  · exact hb

theorem indexed_handleConnect (h : Indexed w) : Indexed w.handleConnect := by
  refine ⟨h.index.congr rfl rfl fun u hu => ?_, fun u hu => ?_⟩
  · rw [getClient_iff] at hu ⊢
    show (w.state.members.set w.state.nextUserId .client).get u = some .client
    rw [Table.get_set]
    split
    · rfl
    · exact hu
  · show (w.state.members.set w.state.nextUserId .client).get u = none
    have hu : w.state.nextUserId < u := hu
    rw [Table.get_set_ne hu.ne']
    exact h.assigned u hu.le

/-- A new participant takes an id that no client has. -/
theorem indexed_createParticipant (h : Indexed w) (owner : OwnerId) (name : String)
    (label verified : Option String) (groups : List String) (present : Bool) :
    Indexed (w.createParticipant owner name label verified groups present).2 := by
  have key : ∀ m, Indexed (w.mapState fun s =>
      { s with nextUserId := s.nextUserId + 1, members := s.members.set s.nextUserId m }) := by
    refine fun m => ⟨h.index.congr rfl rfl fun u hu => ?_, fun u hu => ?_⟩
    · rw [getClient_iff] at hu ⊢
      have hne : u ≠ w.state.nextUserId := by
        rintro rfl
        exact Option.some_ne_none _ (hu.symm.trans (h.assigned _ le_rfl))
      exact (Table.get_set_ne hne).trans hu
    · have hu : w.state.nextUserId < u := hu
      show (w.state.members.set w.state.nextUserId m).get u = none
      rw [Table.get_set_ne hu.ne']
      exact h.assigned u hu.le
  unfold createParticipant
  dsimp only
  split
  · exact ((Touches.setUserRoom (S := [.memberships, .log]) .refl _ _).broadcast _).indexed
      (by decide) (key _)
  · exact key _

theorem indexed_removeParticipant (h : Indexed w) {u : UserId} {owner : OwnerId}
    (hu : w.state.isParticipantOf u owner = true) : Indexed (w.removeParticipant u) := by
  have hne : w.state.members.get u ≠ some .client := by
    intro he
    unfold ServerState.isParticipantOf at hu
    rw [he] at hu
    exact Bool.noConfusion hu
  have hdel : Indexed (w.mapState fun s => (s.removeClient u).2) := by
    refine ⟨h.index.congr rfl rfl fun v hv => ?_, h.assigned.shrink rfl fun v hv => ?_⟩
    · rw [getClient_iff] at hv ⊢
      have hvu : v ≠ u := fun e => hne (e ▸ hv)
      exact (Table.get_del_ne hvu).trans hv
    · show (w.state.members.del u).get v = none
      rw [Table.get_del, hv, ite_self]
  have hrest := Touches.removeUserMembership (S := [.memberships, .userStatuses, .log])
    (w := w.mapState fun s => (s.removeClient u).2) .refl u
  unfold removeParticipant
  dsimp only
  split
  · exact (hrest.broadcast _).indexed (by decide) hdel
  · exact hrest.indexed (by decide) hdel

theorem indexed_withParticipant (h : Indexed w) (t : HandleId) (c : String) (u : UserId)
    {rest : World → World}
    (hrest : w.state.isParticipantOf u (.connection t.user) = true → Indexed (rest w)) :
    Indexed (withParticipant t c u rest w) := by
  unfold withParticipant
  split
  · rename_i hu
    exact hrest hu
  · exact (Touches.sendCommandResult (S := [.log]) .refl _ _ _ _).indexed (by decide) h

theorem indexed_applyKick (h : Indexed w) (target : UserId) (reason actor : String) :
    Indexed (w.applyKick target reason actor).2 := by
  unfold applyKick
  split
  · exact h
  split
  · exact h
  split
  · exact h
  refine indexed_cleanupClient ?_ target
  exact ((Touches.sendFrame (S := [.log, .closed]) .refl _ _).setClosed target).indexed
    (by decide) h

theorem indexed_applyBan (h : Indexed w) (target : UserId) (d : Nat) (reason actor : String) :
    Indexed (w.applyBan env target d reason actor).2 := by
  have hrec := (touches_banRecord w env target d reason actor).indexed (by decide) h
  rw [applyBan_eq]
  split
  · rename_i he
    rwa [he] at hrec
  · rename_i he
    rw [he] at hrec
    refine indexed_cleanupClient ?_ target
    exact ((Touches.sendFrame (S := [.log, .closed]) .refl _ _).setClosed target).indexed
      (by decide) hrec

theorem indexed_requirePermission (h : Indexed w) (t : HandleId) (r : Uuid) (p : Permissions)
    {rest : World → World} (hrest : Indexed (rest w)) :
    Indexed (w.requirePermission t r p rest) := by
  unfold requirePermission
  split
  · exact hrest
  · exact (Touches.sendPermissionDenied (S := [.log]) .refl _ _ _).indexed (by decide) h

theorem indexed_replyResult {r : OpResult} (h : Indexed r.2) (t : HandleId) (c : String) :
    Indexed (replyResult t c r) :=
  (Touches.replyResult (S := [.log]) t c (r := r) .refl).indexed (by decide) h

end Steps

/-! ## Authentications -/

/-- The display name of a login: the registered one, else the one its hello asked for. -/
def World.loginName (w : World) (pending : PendingAuth) : String :=
  ((w.store.getRegisteredUser pending.publicKey).map RegisteredUser.username).getD pending.username

/-- The new session keeps the index: its owner is a live client whose present session, if any, has
the same id, and any other owner of this id is superseded by the login. -/
def World.admits (w : World) (u : UserId) (pending : PendingAuth) (session : SessionEntry) : Prop :=
  w.state.getClient u = true ∧
    (∀ e, w.state.sessions.get u = some e → e.sessionId = session.sessionId) ∧
    ∀ v e, w.state.sessions.get v = some e → e.sessionId = session.sessionId → v = u ∨
      w.state.superseded pending.publicKey (w.loginName pending) u v = true

/-- An authentication that passes its checks admits its session; other events always do. -/
def SessionAdmitted (cfg : Config) (w : World) (i : Input) : Prop :=
  match i.2 with
  | .envelope sender (.authenticate signature timestampMs cert) =>
    (w.state.conn sender.user).opened = true → ∀ pending session,
      (authCheck cfg i.1 sender signature timestampMs cert w).1 = some (pending, session) →
        w.admits sender.user pending session
  | _ => True

section Authenticate

variable {cfg : Config} {env : Env} {w w' : World} {sender : HandleId} {pending : PendingAuth}
  {session : SessionEntry}

theorem Touches.loginName {S : List Field} (ht : Touches S w w') (hS : Field.registeredUsers ∉ S)
    (pending : PendingAuth) : w'.loginName pending = w.loginName pending := by
  have h : w'.store.registeredUsers = w.store.registeredUsers := ht _ hS
  unfold World.loginName Persistence.getRegisteredUser
  rw [h]

theorem displayNameOf_markAuthenticated : (w.markAuthenticated env sender pending).displayNameOf
    sender.user = w.loginName pending := by
  have ht : Touches [.authenticated, .knownKeys, .userGroups, .identity] w _ :=
    touches_markAuthenticated w env sender pending
  rw [← ht.loginName (by decide) pending]
  unfold World.displayNameOf markAuthenticated World.loginName
  simp [ServerState.setIdentity, ServerState.setConn]

theorem identity_markAuthenticated_of_ne {v : UserId} (hv : v ≠ sender.user) :
    ((w.markAuthenticated env sender pending).state.conn v).identity =
      (w.state.conn v).identity := by
  unfold markAuthenticated
  simp [ServerState.setIdentity, ServerState.setConn, hv]

/-- Marking the connection does not change whom its login supersedes. -/
theorem superseded_markAuthenticated (key : PublicKey) (name : String) (v : UserId) :
    (w.markAuthenticated env sender pending).state.superseded key name sender.user v =
      w.state.superseded key name sender.user v := by
  have ht := touches_markAuthenticated w env sender pending
  have hs := (Prod.mk.inj (ht .sessions (by decide) : (_, _) = (w.state.sessions, _))).1
  have hm : _ = w.state.members := ht .members (by decide)
  have hd : _ = (w.state.handle (primary v)).tornDown := congrFun (ht .tornDown (by decide)) _
  unfold ServerState.superseded ServerState.yields ServerState.getUserPublicKey
    ServerState.getClient
  by_cases hv : v = sender.user
  · simp [hv]
  · rw [identity_markAuthenticated_of_ne hv]
    simp only [Field.val] at hs hm hd
    rw [hs, hm, hd]

/-- **A publication keeps the index exactly when it admits its session.** -/
theorem indexed_publishAuth_iff (h : Indexed w) :
    Indexed (w.publishAuth cfg env sender pending session) ↔
      w.admits sender.user pending session := by
  have hm := (touches_markAuthenticated w env sender pending).indexed (by decide) h
  have hs : (w.markAuthenticated env sender pending).state.sessions = w.state.sessions :=
    (Prod.mk.inj (touches_markAuthenticated w env sender pending .sessions (by decide) :
      (_, _) = (w.state.sessions, _))).1
  have hc : ∀ u, (w.markAuthenticated env sender pending).state.getClient u =
      w.state.getClient u := fun u => congrArg (fun m => Table.get m u == some Member.client)
    (touches_markAuthenticated w env sender pending .members (by decide))
  have hev := indexed_evictSupersededSessions hm pending.publicKey (w.loginName pending) sender.user
  have hself : w.state.superseded pending.publicKey (w.loginName pending) sender.user sender.user =
      false := by
    simp [ServerState.superseded, ServerState.yields]
  have hadd := sessionIndex_addSession_iff (u := sender.user) hev.index session
  have henter := fun w' : World => touches_enterServer cfg w' sender pending.publicKey
  rw [publishAuth_eq]
  dsimp only
  rw [displayNameOf_markAuthenticated]
  simp only [getClient_evictSupersededSessions, get_sessions_evictSupersededSessions,
    superseded_markAuthenticated, hs, hc, hself] at hadd
  constructor
  · intro h'
    obtain ⟨h1, h2, h3⟩ := hadd.mp ((henter _).symm.indexed (by decide) h').index
    refine ⟨by simpa using h1, by simpa using h2, fun v e he hid => ?_⟩
    by_cases hv : w.state.superseded pending.publicKey (w.loginName pending) sender.user v = true
    · exact .inr hv
    · exact .inl (h3 v e ((if_neg hv).trans he) hid)
  · rintro ⟨h1, h2, h3⟩
    refine (henter _).indexed (by decide) ⟨hadd.mpr ⟨by simpa using h1, by simpa using h2, ?_⟩,
      hev.assigned⟩
    intro v e he hid
    by_cases hv : w.state.superseded pending.publicKey (w.loginName pending) sender.user v = true
    · exact absurd ((if_pos hv).symm.trans he) (Option.some_ne_none e).symm
    · exact (h3 v e ((if_neg hv).symm.trans he) hid).resolve_right hv

theorem assigned_publishAuth (h : Indexed w) :
    MembersAssigned (w.publishAuth cfg env sender pending session).state := by
  have hm := (touches_markAuthenticated w env sender pending).indexed (by decide) h
  have hev := indexed_evictSupersededSessions hm pending.publicKey (w.loginName pending) sender.user
  rw [publishAuth_eq]
  dsimp only
  rw [displayNameOf_markAuthenticated]
  have ht := touches_enterServer cfg
    (((w.markAuthenticated env sender pending).evictSupersededSessions pending.publicKey
      (w.loginName pending) sender.user).mapState (·.addSession sender.user session)) sender
    pending.publicKey
  have hmem : _ = _ := ht .members (by decide)
  exact hev.assigned.shrink (ht .nextUserId (by decide)) fun v hv =>
    (congrArg (Table.get · v) hmem).trans hv

/-- The checks of an authentication do not change whether its session is admitted. -/
theorem admits_checked (now : Nat) : (w.checked sender pending.publicKey now).admits sender.user
    pending session ↔ w.admits sender.user pending session := by
  have ht := touches_checked w sender pending.publicKey now
  unfold World.admits
  rw [ht.loginName (by decide)]
  rfl

theorem indexed_handleAuthenticate_iff {signature : List UInt8} {timestampMs : Int}
    {cert : Option SessionCertificate} (h : Indexed w) :
    Indexed (handleAuthenticate cfg env sender signature timestampMs cert w) ↔
      ∀ pending session,
        (authCheck cfg env sender signature timestampMs cert w).1 = some (pending, session) →
          w.admits sender.user pending session := by
  rw [handleAuthenticate_eq]
  rcases authCheck_cases cfg env sender signature timestampMs cert w with
    ⟨pending, session, -, -, -, -, hc⟩ | ⟨w', error, hw', hc⟩
  · have hchecked := (touches_checked w sender pending.publicKey env.nowSecs).indexed (by decide) h
    rw [hc]
    refine (indexed_publishAuth_iff hchecked).trans ((admits_checked env.nowSecs).trans ?_)
    constructor
    · intro ha p s hps
      obtain ⟨rfl, rfl⟩ := Prod.mk.inj (Option.some.inj hps)
      exact ha
    · exact fun ha => ha pending session rfl
  · have hw : Indexed w' := by
      rcases hw' with ⟨rfl, -⟩ | rfl | ⟨pending, -, rfl⟩
      · exact h
      · exact (touches_take w sender.user).indexed (by decide) h
      · exact (touches_checked w sender _ _).indexed (by decide) h
    rw [hc]
    refine ⟨fun _ p s hps => absurd hps (Option.some_ne_none _).symm, fun _ => ?_⟩
    exact (Touches.sendAuthFailed (S := [.log, .closed]) .refl sender error).indexed (by decide) hw

end Authenticate

/-! ## Runs -/

theorem indexed_init (store : Persistence) : Indexed (World.init store) where
  index := ⟨fun id u => by simp [World.init, ServerState.new], fun u e he => by
    simp [World.init, ServerState.new] at he⟩
  assigned := fun u _ => Table.get_empty u

theorem indexed_handleController {env : Env} {sender : HandleId} {payload : Payload} {w : World}
    (h : Indexed w) : Indexed (handleController env sender payload w) := by
  have ht := touches_handleController env sender payload w
  unfold handleController at ht ⊢
  split
  · exact h
  rename_i hc
  rw [if_neg hc] at ht
  cases payload
  case registerParticipant username label =>
    have hp := indexed_createParticipant h (.connection sender.user) username label none
      ((w.state.conn sender.user).publicKey.bind w.store.getParticipantDefaultGroup).toList true
    exact (Touches.sendFrame (S := [.log]) .refl sender _).indexed (by decide) hp
  case unregisterParticipant userId =>
    refine indexed_withParticipant h _ _ _ fun hu => ?_
    exact (Touches.sendCommandResult (S := [.log]) .refl _ _ _ _).indexed (by decide)
      (indexed_removeParticipant h hu)
  case moveParticipant => exact ht.indexed (by dsimp only [footprint]; decide) h
  case setParticipantStatus => exact ht.indexed (by dsimp only [footprint]; decide) h
  case participantChat => exact ht.indexed (by dsimp only [footprint]; decide) h
  all_goals exact h

theorem indexed_handleAuthenticated {cfg : Config} {env : Env} {sender : HandleId}
    {payload : Payload} {w : World} (h : Indexed w) :
    Indexed (handleAuthenticated cfg env sender payload w) := by
  have ht := touches_handleAuthenticated cfg env sender payload w
  unfold handleAuthenticated at ht ⊢
  cases payload
  case kickUser target reason =>
    refine indexed_requirePermission h _ _ _ ?_
    split
    · exact (Touches.sendCommandResult (S := [.log]) .refl _ _ _ _).indexed (by decide) h
    · exact indexed_replyResult (indexed_applyKick h _ _ _) _ _
  case banUser target d reason =>
    refine indexed_requirePermission h _ _ _ ?_
    split
    · exact (Touches.sendCommandResult (S := [.log]) .refl _ _ _ _).indexed (by decide) h
    · exact indexed_replyResult (indexed_applyBan h _ _ _ _) _ _
  case registerParticipant | unregisterParticipant | authenticate =>
    exact indexed_handleController h
  all_goals exact ht.indexed (by dsimp only [footprint]; decide) h

/-- One event keeps the index exactly when it admits its session. -/
theorem indexed_step_iff {cfg : Config} {w : World} (h : Indexed w) (i : Input) :
    Indexed (stepInput cfg w i) ↔ SessionAdmitted cfg w i := by
  obtain ⟨env, e⟩ := i
  have ht := touches_step cfg env w e
  unfold stepInput SessionAdmitted
  cases e with
  | connect => exact iff_of_true (indexed_handleConnect h) trivial
  | sweep => exact iff_of_true (ht.indexed (by dsimp only [Event.footprint]; decide) h) trivial
  | readTimeout t =>
    exact iff_of_true (ht.indexed (by dsimp only [Event.footprint]; decide) h) trivial
  | datagram u d n =>
    exact iff_of_true (ht.indexed (by dsimp only [Event.footprint]; decide) h) trivial
  | connectionLost u =>
    refine iff_of_true ?_ trivial
    dsimp only [step]
    split
    · exact indexed_handleConnectionLost h u
    · exact h
  | envelope sender payload =>
    dsimp only [step]
    split
    · rename_i hopen
      cases payload
      case authenticate =>
        exact (indexed_handleAuthenticate_iff h).trans ⟨fun hp _ => hp, fun hp => hp hopen⟩
      case clientHello =>
        exact iff_of_true ((touches_handleClientHello _ _ _ _ _ _ _).indexed (by decide) h) trivial
      case disconnect | other => exact iff_of_true h trivial
      all_goals
        refine iff_of_true ?_ trivial
        dsimp only [handleEnvelope]
        split
        · exact indexed_handleAuthenticated h
        · exact h
    · rename_i hopen
      refine iff_of_true h ?_
      cases payload
      case authenticate => exact fun ho => absurd ho hopen
      all_goals trivial

theorem assigned_step (cfg : Config) {w : World} (h : Indexed w) (i : Input) :
    MembersAssigned (stepInput cfg w i).state := by
  by_cases hi : SessionAdmitted cfg w i
  · exact ((indexed_step_iff h i).mpr hi).assigned
  obtain ⟨env, e⟩ := i
  unfold SessionAdmitted at hi
  split at hi
  · rename_i sender signature timestampMs cert he
    obtain ⟨hopen, hi⟩ := Classical.not_imp.mp hi
    have he : e = .envelope sender (.authenticate signature timestampMs cert) := he
    subst he
    show MembersAssigned (if _ then _ else _ : World).state
    rw [if_pos hopen]
    show MembersAssigned (handleAuthenticate cfg env sender signature timestampMs cert w).state
    rw [handleAuthenticate_eq]
    rcases authCheck_cases cfg env sender signature timestampMs cert w with
      ⟨pending, session, -, -, -, -, hc⟩ | ⟨w', error, -, hc⟩
    · rw [hc]
      exact assigned_publishAuth ((touches_checked w sender _ _).indexed (by decide) h)
    · rw [hc] at hi
      exact absurd (fun p s hps => absurd hps (Option.some_ne_none _).symm) hi
  · exact absurd trivial hi

/-- **The session tables stay inverse to each other**, with live owners, in every state of a run
exactly when every authentication of the run admits its session. -/
theorem sessionIndex_run_iff (cfg : Config) (store : Persistence) (inputs : List Input) :
    (∀ pre, pre <+: inputs → SessionIndex (run cfg (World.init store) pre).state) ↔
      Always (stepInput cfg) (SessionAdmitted cfg) (World.init store) inputs := by
  refine always_iff_history (Q := fun pre => MembersAssigned (run cfg (World.init store) pre).state)
    (indexed_init store).index (indexed_init store).assigned fun pre i _ h hn => ?_
  have hpre : Indexed (run cfg (World.init store) pre) := ⟨h, hn⟩
  have hnext := assigned_step cfg hpre i
  rw [run_snoc]
  refine ⟨hnext, Iff.trans ⟨fun h' => ⟨h', hnext⟩, fun h' => h'.index⟩ (indexed_step_iff hpre i)⟩

/-- A session id of its own for every session key. -/
def sampleSessionConfig : Config :=
  { sampleConfig with blake3 := fun key => (Bytes.ofList? 32 key).getD (Bytes.rep 32 0) }

/-- One connection authenticates twice, with two session keys. -/
def sampleReauthentication : List Input :=
  sampleLogin 1 (Bytes.rep 32 9) "eve" ++ [sampleHello 1 (Bytes.rep 32 9) "eve",
    sampleMsg 1 (.authenticate (List.replicate 64 0) 0
      (some { sampleCert with sessionPublicKey := List.replicate 32 6 }))]

/-- The id of the first session still leads to the connection. -/
theorem not_sessionIndex_reauthentication : ¬ SessionIndex
    (run sampleSessionConfig (World.init sampleStore) sampleReauthentication).state := by
  intro h
  obtain ⟨e, he, hid⟩ := (h.inverse (Bytes.rep 32 5) 1).mp (by decide +kernel)
  have hnow : ((run sampleSessionConfig (World.init sampleStore)
      sampleReauthentication).state.sessions.get 1).map SessionEntry.sessionId =
        some (Bytes.rep 32 6) := by decide +kernel
  rw [he, Option.map_some, hid] at hnow
  exact absurd hnow (by decide)

end Rumble.Server
