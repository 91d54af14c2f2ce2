import Rumble.Server.Bans

/-!
# A ban and the sessions of its key

A ban closes the connection of its target. Other connections of the same key, and authentications
of it that passed their check before the ban was recorded, are not looked for; so the ban ends
every session of the key when there are none. `ban_ends_sessions` says so for every interleaving of
the two halves of the ban with the pieces of any number of handshakes and teardowns.
-/

namespace Rumble.Server

open Rumble.Lib World

/-! ## Sessions only go away -/

/-- Every live client and every session of `w'` was there in `w`. -/
structure Shrinks (w w' : World) : Prop where
  client : ∀ u, w'.state.getClient u = true → w.state.getClient u = true
  session : ∀ u e, w'.state.sessions.get u = some e → w.state.sessions.get u = some e

namespace Shrinks

variable {w w' w'' : World}

theorem refl : Shrinks w w := ⟨fun _ => id, fun _ _ => id⟩

theorem trans (h : Shrinks w w') (h' : Shrinks w' w'') : Shrinks w w'' :=
  ⟨fun u hu => h.client u (h'.client u hu), fun u e he => h.session u e (h'.session u e he)⟩

theorem foldl {β : Type} {f : World → β → World} (hf : ∀ w b, Shrinks w (f w b)) (l : List β) :
    Shrinks w (l.foldl f w) := by
  induction l generalizing w with
  | nil => exact refl
  | cons b l ih => exact (hf w b).trans ih

theorem getUserPublicKey (h : Shrinks w w') {u : UserId} {k : PublicKey}
    (hk : w'.state.getUserPublicKey u = some k) : w.state.getUserPublicKey u = some k := by
  obtain ⟨e, he, rfl⟩ := Option.map_eq_some_iff.mp hk
  exact Option.map_eq_some_iff.mpr ⟨e, h.session u e he, rfl⟩

end Shrinks

theorem Touches.shrinks {S : List Field} {w w' : World} (h : Touches S w w')
    (hS : ∀ f ∈ [Field.members, .sessions], f ∉ S) : Shrinks w w' := by
  have hm : w'.state.members = w.state.members := h _ (hS .members (by decide))
  have hs : (w'.state.sessions, _) = (w.state.sessions, _) := h _ (hS .sessions (by decide))
  obtain ⟨hs, -⟩ := Prod.mk.inj hs
  refine ⟨fun u hu => ?_, fun u e he => ?_⟩
  · unfold ServerState.getClient at hu ⊢
    rwa [← hm]
  · rwa [← hs]

theorem getClient_del {m : Table UserId Member} {u v : UserId}
    (h : ((m.del v).get u == some Member.client) = true) : (m.get u == some Member.client) = true := by
  rw [Table.get_del] at h
  split at h
  · exact Bool.noConfusion h
  · exact h

theorem shrinks_cleanupParticipant (w : World) (u : UserId) : Shrinks w (w.cleanupParticipant u) := by
  unfold cleanupParticipant
  split
  · exact ⟨fun v hv => getClient_del hv, fun v e he => he⟩
  · exact .refl

theorem shrinks_forgetClient (w : World) (u : UserId) :
    Shrinks w (w.mapState (·.forgetClient u)) := by
  refine ⟨fun v hv => ?_, fun v e he => ?_⟩
  · unfold ServerState.getClient at hv
    rw [mapState_state, ServerState.members_forgetClient] at hv
    exact getClient_del hv
  · rw [mapState_state, ServerState.get_sessions_forgetClient] at he
    split at he
    · cases he
    · exact he

theorem shrinks_cleanupClient (w : World) (u : UserId) : Shrinks w (w.cleanupClient u) := by
  have h1 : Shrinks w (w.cleanupParticipants u (w.state.handle (primary u)).isController) := by
    unfold cleanupParticipants
    split
    · exact .foldl shrinks_cleanupParticipant _
    · exact .refl
  have h2 := h1.trans (shrinks_forgetClient _ u)
  unfold cleanupClient
  dsimp only
  split
  · exact h2.trans ((Touches.broadcast (S := [.log]) .refl _).shrinks (by decide))
  · exact h2

/-- A cleaned up connection is not a client any more. -/
theorem not_getClient_cleanupClient (w : World) (u : UserId) :
    (w.cleanupClient u).state.getClient u = false := by
  have key : ∀ w' : World, (w'.mapState (·.forgetClient u)).state.getClient u = false := by
    intro w'
    unfold ServerState.getClient
    rw [mapState_state, ServerState.members_forgetClient, Table.get_del_self]
    rfl
  unfold cleanupClient
  dsimp only
  split
  · exact key _
  · exact key _

theorem shrinks_evictSupersededSessions (w : World) (key : PublicKey) (name : String)
    (new : UserId) : Shrinks w (w.evictSupersededSessions key name new) := by
  refine .foldl (fun w old => ?_) _
  unfold evictOne
  split
  · exact .refl
  split
  · exact .refl
  split
  · exact .refl
  have hbegin : Shrinks w (w.beginTeardown old).2 :=
    (Touches.beginTeardown (S := [.tornDown]) .refl old).shrinks (by decide)
  dsimp only
  split
  · exact hbegin
  · refine (hbegin.trans ?_).trans (shrinks_cleanupClient _ old)
    exact ((Touches.sendFrame (S := [.log, .closed]) .refl _ _).setClosed old).shrinks (by decide)

theorem shrinks_handleConnectionLost (w : World) (u : UserId) :
    Shrinks w (w.handleConnectionLost u) := by
  have hbegin : Shrinks w (w.beginTeardown u).2 :=
    (Touches.beginTeardown (S := [.tornDown]) .refl u).shrinks (by decide)
  unfold handleConnectionLost
  dsimp only
  split
  · exact hbegin.trans (shrinks_cleanupClient _ u)
  · exact hbegin

theorem shrinks_banDisconnect (w : World) (target : UserId) (d : Nat) (reason actor : String) :
    Shrinks w (w.banDisconnect target d reason actor).2 :=
  (((Touches.sendFrame (S := [.log, .closed]) .refl _ _).setClosed target).shrinks
    (by decide)).trans (shrinks_cleanupClient _ target)

/-! ## After the ban is recorded -/

/-- A publication of a session with key `k` is under way. -/
def Sys.publishing (s : Sys) (k : PublicKey) : Bool :=
  s.tasks.any fun
    | .auth _ _ session _ => session.userPublicKey == k
    | _ => false

/-- The ban is in force, nobody is about to get a session with the key, and at most the target,
which is about to be disconnected, still has one. -/
structure BanClosing (k : PublicKey) (t d : Nat) (target : UserId) (s : Sys) : Prop where
  ban : BanInForce s.world.store k t d
  publishing : ∀ sender p session stage, Task.auth sender p session stage ∈ s.tasks →
    session.userPublicKey ≠ k
  holders : ∀ u, s.world.state.getClient u = true → s.world.state.getUserPublicKey u = some k →
    u = target ∧ ∃ d reason actor, Task.ban target d reason actor ∈ s.tasks

/-- Acts that only clear what has lapsed. -/
def housekeepingOnly : BanActs where
  housekeeping := True
  ban _ := False
  grant _ := False
  revoke := False
  regroup := False
  drop := False

section Closing

variable {cfg : Config} {env : Env} {k : PublicKey} {t d now : Nat} {target : UserId} {s : Sys}

theorem BanInForce.housekeeping {p q : Persistence} (h : BanInForce p k t d)
    (hnow : ¬ BanOver t d now) (he : BanEffects housekeepingOnly k now p q) :
    BanInForce q k t d := by
  have hkeep : housekeepingOnly.Keep t d now :=
    ⟨fun _ h => h.elim, fun _ h => h.elim, id, id, id⟩
  rcases h.effects hkeep (fun _ => ⟨fun _ => id, fun _ => id⟩) he with h | ⟨-, hover, -⟩
  · exact h
  · exact absurd hover hnow

/-- A piece that changes the world without new sessions and leaves the tasks alone. -/
theorem BanClosing.shrink {w' : World} (h : BanClosing k t d target s)
    (hs : Shrinks s.world w') (hb : BanInForce w'.store k t d) :
    BanClosing k t d target { s with world := w' } where
  ban := hb
  publishing := h.publishing
  holders := fun u hu hk => h.holders u (hs.client u hu) (hs.getUserPublicKey hk)

theorem BanClosing.sameStore {w' : World} (h : BanClosing k t d target s)
    (hs : Shrinks s.world w') (hstore : SameBan k s.world.store w'.store) :
    BanClosing k t d target { s with world := w' } := h.shrink hs (h.ban.congr hstore)

theorem banClosing_hello {sender : HandleId} {username : String} {publicKey : List UInt8}
    {password : Option String} (h : BanClosing k t d target s) :
    BanClosing k t d target (s.step cfg (env, .hello sender username publicKey password)) := by
  rcases helloCheck_cases cfg env sender username publicKey password s.world with
    ⟨key, -, -, hc⟩ | ⟨error, hc⟩
  · simp only [Sys.step, hc]
    refine ⟨h.ban, fun t p session stage ht => ?_, fun u hu hk => ?_⟩
    · have ht' : Task.auth t p session stage ∈ s.tasks := by simpa using ht
      exact h.publishing t p session stage ht'
    · obtain ⟨hu, d, reason, actor, ht⟩ := h.holders u hu hk
      exact ⟨hu, d, reason, actor, List.mem_append_left _ ht⟩
  · simp only [Sys.step, hc]
    have ht : Touches [.log, .closed] s.world (s.world.sendAuthFailed sender error) :=
      .sendAuthFailed .refl _ _
    exact h.sameStore (ht.shrinks (by decide)) (ht.sameBan (by decide))

theorem banClosing_authenticate {sender : HandleId} {signature : List UInt8} {timestampMs : Int}
    {cert : Option SessionCertificate} (h : BanClosing k t d target s)
    (hnow : ¬ BanOver t d env.nowSecs) :
    BanClosing k t d target
      (s.step cfg (env, .authenticate sender signature timestampMs cert)) := by
  have hcheck : ∀ key, BanInForce (s.world.checked sender key env.nowSecs).store k t d :=
    fun key => h.ban.housekeeping hnow (banEffects_banCheck trivial)
  rcases authCheck_cases cfg env sender signature timestampMs cert s.world with
    ⟨pending, session, hp, -, hb, hkey, hc⟩ | ⟨w', error, hw', hc⟩
  · simp only [Sys.step, hc]
    have hne : session.userPublicKey ≠ k := by
      rw [hkey]
      rintro rfl
      exact Bool.false_ne_true (hb.symm.trans (h.ban.banCheck_true hnow))
    have hworld := h.shrink
      ((touches_checked s.world sender pending.publicKey env.nowSecs).shrinks (by decide))
      (hcheck pending.publicKey)
    refine ⟨hworld.ban, fun t p session' stage ht => ?_, fun u hu hk => ?_⟩
    · rcases List.mem_append.mp ht with ht | ht
      · exact h.publishing t p session' stage ht
      · obtain ⟨-, -, rfl, -⟩ := Task.auth.inj (List.mem_singleton.mp ht)
        exact hne
    · obtain ⟨hu, d, reason, actor, ht⟩ := hworld.holders u hu hk
      exact ⟨hu, d, reason, actor, List.mem_append_left _ ht⟩
  · have hw : Shrinks s.world w' ∧ BanInForce w'.store k t d := by
      rcases hw' with ⟨rfl, -⟩ | rfl | ⟨pending, -, rfl⟩
      · exact ⟨.refl, h.ban⟩
      · exact ⟨(touches_take s.world sender.user).shrinks (by decide), h.ban⟩
      · exact ⟨(touches_checked s.world sender _ _).shrinks (by decide), hcheck _⟩
    have ht : Touches [.log, .closed] w' (w'.sendAuthFailed sender error) :=
      .sendAuthFailed .refl _ _
    simp only [Sys.step, hc]
    exact ⟨hw.2.congr (ht.sameBan (by decide)), h.publishing,
      (h.shrink (hw.1.trans (ht.shrinks (by decide))) (hw.2.congr (ht.sameBan (by decide)))).holders⟩

/-- One step of a suspended task: nobody gets a session with the key. -/
theorem banClosing_run {task : Task} (h : BanClosing k t d target s) (hmem : task ∈ s.tasks)
    (hnow : ¬ BanOver t d env.nowSecs) :
    BanInForce (task.run cfg env s.world).1.store k t d ∧
      ∀ u, (task.run cfg env s.world).1.state.getClient u = true →
        (task.run cfg env s.world).1.state.getUserPublicKey u = some k →
          s.world.state.getClient u = true ∧ s.world.state.getUserPublicKey u = some k := by
  have key : ∀ {w' : World}, Shrinks s.world w' → BanInForce w'.store k t d →
      BanInForce w'.store k t d ∧ ∀ u, w'.state.getClient u = true →
        w'.state.getUserPublicKey u = some k →
          s.world.state.getClient u = true ∧ s.world.state.getUserPublicKey u = some k :=
    fun hs hb => ⟨hb, fun u hu hk => ⟨hs.client u hu, hs.getUserPublicKey hk⟩⟩
  cases task with
  | hello sender pk nonce =>
    have ht := touches_storeHelloKey s.world sender pk nonce
    exact key (ht.shrinks (by decide)) (h.ban.congr (ht.sameBan (by decide)))
  | auth sender p session stage =>
    cases stage with
    | checked =>
      refine key ((touches_markAuthenticated s.world env sender p).shrinks (by decide)) ?_
      refine h.ban.housekeeping hnow ?_
      exact .head (b := s.world.store.addKnownKey p.publicKey) (.same ⟨rfl, rfl, rfl⟩)
        (.single (banEffect_activeUserGroups trivial))
    | marked username =>
      exact key (shrinks_evictSupersededSessions s.world p.publicKey username sender.user)
        (h.ban.congr ((touches_evictSupersededSessions _ _ _ _).sameBan (by decide)))
    | evicted =>
      refine ⟨h.ban, fun u hu hk => ⟨hu, ?_⟩⟩
      have hne := h.publishing sender p session _ hmem
      obtain ⟨e, he, rfl⟩ := Option.map_eq_some_iff.mp hk
      have he : (s.world.state.sessions.set sender.user session).get u = some e := he
      rw [Table.get_set] at he
      split at he
      · obtain rfl := Option.some.inj he
        exact absurd rfl hne
      · exact Option.map_eq_some_iff.mpr ⟨e, he, rfl⟩
    | tracked =>
      have ht := touches_enterServer cfg s.world sender p.publicKey
      exact key (ht.shrinks (by decide)) (h.ban.congr (ht.sameBan (by decide)))
  | ban v d' reason actor =>
    exact key (shrinks_banDisconnect s.world v d' reason actor)
      (h.ban.congr ((touches_banDisconnect s.world v d' reason actor).sameBan (by decide)))

theorem banClosing_resume {n : Nat} (h : BanClosing k t d target s)
    (hnow : ¬ BanOver t d env.nowSecs) : BanClosing k t d target (s.step cfg (env, .resume n)) := by
  cases hi : s.tasks[n]? with
  | none => simpa only [Sys.step, hi] using h
  | some task =>
    have hmem : task ∈ s.tasks := (mem_resume hi).mpr (.inl rfl)
    obtain ⟨hban, hhold⟩ := (banClosing_run h hmem hnow :
      BanInForce (task.run cfg env s.world).1.store k t d ∧ _)
    simp only [Sys.step, hi]
    refine ⟨hban, fun t p session stage ht => ?_, fun u hu hk => ?_⟩
    · simp only [List.mem_append, Option.mem_toList] at ht
      rcases ht with (ht | ht) | ht
      · exact h.publishing t p session stage (List.mem_of_mem_take ht)
      · obtain ⟨_, _, _, st, _, rfl, he⟩ := run_rest ht
        obtain ⟨rfl, rfl, rfl, -⟩ := Task.auth.inj he
        exact h.publishing _ _ _ _ hmem
      · exact h.publishing t p session stage (List.mem_of_mem_drop ht)
    · obtain ⟨hu', hk'⟩ := hhold u hu hk
      obtain ⟨rfl, d', reason, actor, ht⟩ := h.holders u hu' hk'
      refine ⟨rfl, d', reason, actor, ?_⟩
      rcases (mem_resume hi).mp ht with rfl | ht
      · -- The ban's own second half has just removed its target.
        exact absurd hu (Bool.eq_false_iff.mp (not_getClient_cleanupClient _ u))
      · simp only [List.mem_append] at ht ⊢
        rcases ht with ht | ht
        · exact .inl (.inl ht)
        · exact .inr ht

/-- The act is not a ban. -/
def Act.isBan : Act → Bool
  | .ban .. => true
  | _ => false

theorem banClosing_step {i : Env × Act} (h : BanClosing k t d target s)
    (hnow : ¬ BanOver t d i.1.nowSecs) (hban : i.2.isBan = false) :
    BanClosing k t d target (s.step cfg i) := by
  obtain ⟨env, act⟩ := i
  cases act with
  | hello sender username publicKey password => exact banClosing_hello h
  | authenticate sender signature timestampMs cert => exact banClosing_authenticate h hnow
  | ban target d reason actor => exact Bool.noConfusion hban
  | lost v =>
    exact h.sameStore (shrinks_handleConnectionLost s.world v)
      ((touches_handleConnectionLost s.world v).sameBan (by decide))
  | resume n => exact banClosing_resume h hnow

/-- The first half of a ban leaves its closing state, when only the target has the key. -/
theorem banClosing_ban {reason actor : String}
    (hkey : s.world.state.getUserPublicKey target = some k)
    (hok : (s.world.banRecord env target d reason actor).1.isOk = true)
    (hbit : (s.world.store.getGroup "banned").all (Permissions.contains · Permissions.banned) =
      true)
    (honly : ∀ u ∈ s.world.state.userIdsWithKey k, s.world.state.getClient u = true → u = target)
    (hidle : s.publishing k = false) :
    BanClosing k env.nowSecs d target (s.step cfg (env, .ban target d reason actor)) := by
  have hstore := store_banRecord hkey hok
  have hshrinks := (touches_banRecord s.world env target d reason actor).shrinks (by decide)
  rcases hrec : s.world.banRecord env target d reason actor with ⟨message | _, w'⟩
  · rw [hrec] at hok
    exact Bool.noConfusion hok
  rw [hrec] at hstore hshrinks
  simp only [Sys.step, hrec]
  refine ⟨?_, fun sender p session stage ht hne => ?_, fun u hu hk => ⟨?_, d, reason, actor, ?_⟩⟩
  · rw [hstore]
    exact banInForce_recordBan hbit
  · have ht' : Task.auth sender p session stage ∈ s.tasks := by simpa using ht
    have hpub : s.publishing k = true :=
      List.any_eq_true.mpr ⟨_, ht', beq_iff_eq.mpr hne⟩
    exact Bool.false_ne_true (hidle.symm.trans hpub)
  · refine honly u ?_ (hshrinks.client u hu)
    obtain ⟨e, he, hkey'⟩ := Option.map_eq_some_iff.mp (hshrinks.getUserPublicKey hk)
    refine List.mem_map.mpr ⟨(u, e), List.mem_filter.mpr ⟨Table.mem_toPairs.mpr he, ?_⟩, rfl⟩
    exact beq_iff_eq.mpr hkey'
  · exact List.mem_append_right _ (List.mem_singleton.mpr rfl)

end Closing

/-- **A ban ends every session of its key.** From any state of the server with any tasks suspended,
when the target is the only live client with the key, no session of the key is being published and
an existing group "banned" carries its flag, then after the first half of the ban and any
interleaving of pieces before the ban's end, once nothing is suspended any more no authenticated
client with the key is left. -/
theorem ban_ends_sessions {cfg : Config} {s : Sys} {env : Env} {target : UserId} {d : Nat}
    {reason actor : String} {k : PublicKey}
    (hkey : s.world.state.getUserPublicKey target = some k)
    (hok : (s.world.banRecord env target d reason actor).1.isOk = true)
    (hbit : (s.world.store.getGroup "banned").all (Permissions.contains · Permissions.banned) =
      true)
    (honly : ∀ u ∈ s.world.state.userIdsWithKey k, s.world.state.getClient u = true → u = target)
    (hidle : s.publishing k = false) {acts : List (Env × Act)}
    (hacts : ∀ i ∈ acts, ¬ BanOver env.nowSecs d i.1.nowSecs ∧ i.2.isBan = false) {s' : Sys}
    (hs' : acts.foldl (Sys.step cfg) (s.step cfg (env, .ban target d reason actor)) = s')
    (hdone : s'.tasks = []) (u : UserId) :
    ¬ (s'.world.state.getClient u = true ∧ (s'.world.state.conn u).authenticated = true ∧
      s'.world.state.getUserPublicKey u = some k) := by
  have hend : BanClosing k env.nowSecs d target (acts.foldl (Sys.step cfg)
      (s.step cfg (env, .ban target d reason actor))) :=
    List.foldlRecOn acts (Sys.step cfg) (banClosing_ban hkey hok hbit honly hidle)
      fun s h i hi => banClosing_step h (hacts i hi).1 (hacts i hi).2
  rw [hs'] at hend
  rintro ⟨hu, -, hk⟩
  obtain ⟨-, d', reason', actor', ht⟩ := hend.holders u hu hk
  rw [hdone] at ht
  exact List.not_mem_nil ht

/-- The user of `sampleBan` before its ban. -/
def sampleBeforeBan : Sys :=
  .init (run sampleConfig (World.init sampleStore) (sampleLogin 1 (Bytes.rep 32 9) "eve"))

/-- Both halves of a ban for 100 seconds. -/
def sampleAfterBan : Sys :=
  [(sampleEnv, .resume 0)].foldl (Sys.step sampleConfig)
    (sampleBeforeBan.step sampleConfig (sampleEnv, .ban 1 100 "" "ann"))

theorem ban_ends_sessions_of_one_login :
    ¬ (sampleAfterBan.world.state.getClient 1 = true ∧
      (sampleAfterBan.world.state.conn 1).authenticated = true ∧
      sampleAfterBan.world.state.getUserPublicKey 1 = some (Bytes.rep 32 9)) := by
  have hrun : [(sampleEnv, Act.resume 0)].foldl (Sys.step sampleConfig)
    (sampleBeforeBan.step sampleConfig (sampleEnv, .ban 1 100 "" "ann")) = sampleAfterBan := rfl
  exact ban_ends_sessions (by decide +kernel) (by decide +kernel) (by decide +kernel)
    (by decide +kernel) (by decide +kernel) (by decide +kernel) hrun (by decide +kernel) 1

/-- Two connections of one key under different names; the ban of one leaves the other. -/
theorem not_ban_ends_sessions_of_two_names :
    let s := Sys.init (run sampleConfig (World.init sampleStore)
      (sampleLogin 1 (Bytes.rep 32 9) "eve" ++ sampleLogin 2 (Bytes.rep 32 9) "eva"))
    let s' := (s.step sampleConfig (sampleEnv, .ban 1 100 "" "ann")).step sampleConfig
      (sampleEnv, .resume 0)
    s.world.state.getUserPublicKey 1 = some (Bytes.rep 32 9) ∧
      (s.world.banRecord sampleEnv 1 100 "" "ann").1.isOk = true ∧ s'.tasks = [] ∧
      s'.world.state.getClient 2 = true ∧ (s'.world.state.conn 2).authenticated = true ∧
      s'.world.state.getUserPublicKey 2 = some (Bytes.rep 32 9) := by
  decide +kernel

end Rumble.Server
