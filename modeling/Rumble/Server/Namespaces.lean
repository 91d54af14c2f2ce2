import Rumble.Server.Bans

/-!
# Usernames and group names

A verified username acts as a permission group, so a registered username and a group must not share
a name. Registering looks for a group of that name, creating a group looks for a username; the
group "banned" that the first ban creates is the one insertion without such a look.
`namespaces_disjoint_run_iff` says that this is the only way the two namespaces meet.
-/

namespace Rumble.Server

open Rumble.Lib Rumble.Lib.Transition World

/-! ## One event -/

/-- An authorised ban of a client that can be banned, when there is no group "banned" yet. -/
def Event.createsBanned (w : World) : Event → Bool
  | .envelope sender (.banUser target _ _) =>
    (w.state.conn sender.user).opened && w.allows sender Permissions.ban &&
      target != sender.user && w.state.getClient target &&
      !(w.state.handle (primary target)).isSuperuser &&
      !(w.state.handle (primary target)).isController && (w.store.getGroup "banned").isNone
  | _ => false

/-- The groups are as they were; every registration was there under this username, or its username
names no group. -/
def KeepsGroups (p q : Persistence) : Prop :=
  q.groups = p.groups ∧ ∀ key r, q.getRegisteredUser key = some r →
    (∃ r₀, p.getRegisteredUser key = some r₀ ∧ r₀.username = r.username) ∨
      p.getGroup r.username = none

/-- The registrations are as they were; every group was there, or its name is no registered
username, or it is the group "banned" when `ban` holds. -/
def KeepsUsers (ban : Bool) (p q : Persistence) : Prop :=
  q.registeredUsers = p.registeredUsers ∧ ∀ g, (q.getGroup g).isSome = true →
    (p.getGroup g).isSome = true ∨ p.isUsernameRegistered g = false ∨ ban = true ∧ g = "banned"

section Names

variable {p q : Persistence} {b : Bool}

theorem KeepsGroups.refl : KeepsGroups p p := ⟨rfl, fun _ r h => .inl ⟨r, h, rfl⟩⟩

theorem KeepsGroups.trans {r : Persistence} (h : KeepsGroups p q) (h' : KeepsGroups q r) :
    KeepsGroups p r := by
  refine ⟨h'.1.trans h.1, fun key u hu => ?_⟩
  rcases h'.2 key u hu with ⟨u₁, h₁, hname⟩ | hnone
  · rw [← hname]
    exact h.2 key u₁ h₁
  · refine .inr ?_
    unfold Persistence.getGroup at hnone ⊢
    rwa [← h.1]

theorem KeepsUsers.refl : KeepsUsers b p p := ⟨rfl, fun _ h => .inl h⟩

theorem KeepsUsers.trans {r : Persistence} (h : KeepsUsers b p q) (h' : KeepsUsers b q r) :
    KeepsUsers b p r := by
  refine ⟨h'.1.trans h.1, fun g hg => ?_⟩
  rcases h'.2 g hg with hq | hname | hban
  · exact h.2 g hq
  · refine .inr (.inl ?_)
    unfold Persistence.isUsernameRegistered Persistence.listRegisteredUsers at hname ⊢
    rwa [← h.1]
  · exact .inr (.inr hban)

theorem eqIgnoreAsciiCase_refl (s : String) : Persistence.eqIgnoreAsciiCase s s = true :=
  beq_self_eq_true _

theorem mem_listRegisteredUsers {key : PublicKey} {r : RegisteredUser} :
    (key, r) ∈ p.listRegisteredUsers ↔ p.getRegisteredUser key = some r := by
  unfold Persistence.listRegisteredUsers
  rw [(List.perm_insertionSort _ _).mem_iff, Table.mem_toPairs]
  rfl

/-- A registered username is found by the case-insensitive search. -/
theorem isUsernameRegistered_of_get {key : PublicKey} {r : RegisteredUser}
    (h : p.getRegisteredUser key = some r) : p.isUsernameRegistered r.username = true :=
  List.any_eq_true.mpr ⟨(key, r), mem_listRegisteredUsers.mpr h, eqIgnoreAsciiCase_refl _⟩

theorem keepsUsers_createGroup {name : String} {bits : BitVec 32}
    (h : (p.getGroup name).isSome = true ∨ p.isUsernameRegistered name = false ∨
      b = true ∧ name = "banned") : KeepsUsers b p (p.createGroup name bits) := by
  refine ⟨rfl, fun g hg => ?_⟩
  have hg : ((p.groups.set name bits).get g).isSome = true := hg
  rw [Table.get_set] at hg
  split at hg
  · subst g
    exact h
  · exact .inl hg

theorem keepsUsers_deleteGroup {name : String} : KeepsUsers b p (p.deleteGroup name) := by
  refine ⟨rfl, fun g hg => ?_⟩
  have hg : ((p.groups.del name).get g).isSome = true := hg
  rw [Table.get_del] at hg
  split at hg
  · exact Bool.noConfusion hg
  · exact .inl hg

theorem Touches.keepsUsers {S : List Field} {w w' : World} (ht : Touches S w w')
    (hS : ∀ f ∈ [Field.groups, .registeredUsers], f ∉ S) (h : KeepsUsers b p w.store) :
    KeepsUsers b p w'.store := by
  have hg : w'.store.groups = w.store.groups := ht _ (hS .groups (by decide))
  have hr : w'.store.registeredUsers = w.store.registeredUsers :=
    ht _ (hS .registeredUsers (by decide))
  refine ⟨hr.trans h.1, fun g h' => h.2 g ?_⟩
  unfold Persistence.getGroup at h' ⊢
  rwa [← hg]

theorem Touches.keepsGroups {S : List Field} {w w' : World} (ht : Touches S w w')
    (hS : ∀ f ∈ [Field.groups, .registeredUsers], f ∉ S) (h : KeepsGroups p w.store) :
    KeepsGroups p w'.store := by
  have hg : w'.store.groups = w.store.groups := ht _ (hS .groups (by decide))
  have hr : w'.store.registeredUsers = w.store.registeredUsers :=
    ht _ (hS .registeredUsers (by decide))
  refine ⟨hg.trans h.1, fun key r h' => h.2 key r ?_⟩
  unfold Persistence.getRegisteredUser at h' ⊢
  rwa [← hr]

end Names

section Operations

variable {w : World} {b : Bool}

theorem keepsGroups_updateUserLastRoom (p : Persistence) (key : PublicKey) (room : Option Uuid) :
    KeepsGroups p (p.updateUserLastRoom key room) := by
  unfold Persistence.updateUserLastRoom
  split
  · rename_i user hu
    refine ⟨rfl, fun k r hr => .inl ?_⟩
    have hr : (p.registeredUsers.set key ⟨user.username, room⟩).get k = some r := hr
    rw [Table.get_set] at hr
    split at hr
    · obtain rfl := Option.some.inj hr
      subst k
      exact ⟨user, hu, rfl⟩
    · exact ⟨r, hr, rfl⟩
  · exact .refl

theorem keepsGroups_saveLastRoom (u : UserId) (room : Uuid) :
    KeepsGroups w.store (w.saveLastRoom u room).store := by
  unfold saveLastRoom
  split
  · split
    · exact keepsGroups_updateUserLastRoom _ _ _
    · exact .refl
  · exact .refl

theorem keepsGroups_handleJoinRoom (sender : HandleId) (roomId : Option RoomId) :
    KeepsGroups w.store (handleJoinRoom sender roomId w).store := by
  unfold handleJoinRoom requirePermission
  dsimp only
  split
  swap
  · exact .refl
  split
  · exact .refl
  · have hm : Touches [.memberships, .serverMuted, .log] w
        ((w.mapData (·.setUserRoom sender.user (roomIdOrRoot roomId))).refreshJoinMute sender
          (roomIdOrRoot roomId)) :=
      (Touches.refl.setUserRoom _ _).trans ((touches_refreshJoinMute _ _ _).mono (by decide))
    exact (hm.keepsGroups (by decide) .refl).trans (keepsGroups_saveLastRoom _ _)

theorem keepsGroups_applyRegisterUser (target : UserId) :
    KeepsGroups w.store (w.applyRegisterUser target).2.store := by
  unfold applyRegisterUser
  split
  · exact .refl
  rename_i key _
  split
  · exact .refl
  dsimp only
  split
  · exact .refl
  split
  · exact .refl
  rename_i hgroup
  refine ⟨rfl, fun k r hr => ?_⟩
  have hr : (w.store.registeredUsers.set key ⟨w.displayNameOf target, none⟩).get k = some r := hr
  rw [Table.get_set] at hr
  split at hr
  · -- The name of the new registration is no group.
    obtain rfl := Option.some.inj hr
    refine .inr (Option.not_isSome_iff_eq_none.mp fun hg => hgroup ?_)
    exact Bool.or_eq_true_iff.mpr (.inr hg)
  · exact .inl ⟨r, hr, rfl⟩

theorem keepsGroups_applyUnregisterUser (target : UserId) :
    KeepsGroups w.store (w.applyUnregisterUser target).2.store := by
  unfold applyUnregisterUser
  split
  · exact .refl
  rename_i key _
  refine ⟨rfl, fun k r hr => .inl ⟨r, ?_, rfl⟩⟩
  have hr : (w.store.registeredUsers.del key).get k = some r := hr
  rw [Table.get_del] at hr
  split at hr
  · cases hr
  · exact hr

theorem keepsUsers_applyCreateGroup (name : String) (bits : BitVec 32) :
    KeepsUsers b w.store (w.applyCreateGroup name bits).2.store := by
  unfold applyCreateGroup
  repeat' split
  all_goals try exact .refl
  rename_i hname
  exact keepsUsers_createGroup (.inr (.inl (Bool.eq_false_iff.mpr hname)))

theorem keepsUsers_applyModifyGroup (name : String) (bits : BitVec 32) :
    KeepsUsers b w.store (w.applyModifyGroup name bits).2.store := by
  unfold applyModifyGroup Persistence.modifyGroup
  split
  · exact .refl
  rename_i store hstore
  split at hstore
  · rename_i hsome
    obtain rfl := Option.some.inj hstore
    exact keepsUsers_createGroup (.inl hsome)
  · cases hstore

theorem keepsUsers_applyToggleGroupPermission (name : String) (bits : BitVec 32) (enable : Bool) :
    KeepsUsers b w.store (w.applyToggleGroupPermission name bits enable).2.store := by
  unfold applyToggleGroupPermission Persistence.toggleGroupPermission
  split
  · exact .refl
  split
  · exact .refl
  split
  · exact .refl
  rename_i perms store hstore
  obtain ⟨old, hold, he⟩ := Option.map_eq_some_iff.mp hstore
  obtain rfl := (Prod.mk.inj he).2
  refine keepsUsers_createGroup (.inl ?_)
  rw [Persistence.getGroup, hold]
  rfl

theorem keepsUsers_applyDeleteGroup (name : String) :
    KeepsUsers b w.store (w.applyDeleteGroup name).2.store := by
  unfold applyDeleteGroup
  split
  · exact .refl
  have hscrub : Touches [.identity, .log] w (w.state.snapshotClients.foldl (scrubGroup name) w) :=
    .foldl (fun w u => touches_scrubGroup name w u) _
  have hall : Touches [.userGroups] _ ((w.state.snapshotClients.foldl (scrubGroup name) w).mapStore
      (·.removeGroupFromAllUsers name)) :=
    Touches.refl.onlyMemberships (Persistence.onlyMemberships_removeGroupFromAllUsers _ _)
  have hkeep := hall.keepsUsers (by decide) (hscrub.keepsUsers (by decide) (.refl (b := b)))
  exact hkeep.trans keepsUsers_deleteGroup

theorem keepsUsers_ensureBannedGroup {p : Persistence}
    (h : (p.getGroup "banned").isNone = true → b = true) :
    KeepsUsers b p (ensureBannedGroup p) := by
  unfold ensureBannedGroup
  split
  · rename_i hnone
    exact keepsUsers_createGroup (.inr (.inr ⟨h hnone, rfl⟩))
  · exact .refl

/-- A ban creates at most the group "banned", when its target can be banned. -/
theorem keepsUsers_applyBan {env : Env} {target : UserId} {d : Nat} {reason actor : String}
    (h : w.state.getClient target = true → (w.state.handle (primary target)).isSuperuser = false →
      (w.state.handle (primary target)).isController = false →
        (w.store.getGroup "banned").isNone = true → b = true) :
    KeepsUsers b w.store (w.applyBan env target d reason actor).2.store := by
  unfold applyBan
  split
  · exact .refl
  rename_i hclient
  split
  · exact .refl
  rename_i hsuper
  split
  · exact .refl
  rename_i hcontroller
  have hensure : KeepsUsers b w.store (ensureBannedGroup w.store) :=
    keepsUsers_ensureBannedGroup (h (by simpa using hclient) (Bool.eq_false_iff.mpr hsuper)
      (Bool.eq_false_iff.mpr hcontroller))
  dsimp only
  split
  · exact hensure
  · rename_i key _
    refine (touches_cleanupClient _ target).keepsUsers (by decide) ?_
    have hrec : Touches [.userGroups, .bans] (w.mapStore ensureBannedGroup) _ :=
      touches_recordBan .refl key
        { bannedAtSecs := some env.nowSecs, durationSeconds := d, reason := reason
          bannedBy := actor }
    exact hrec.keepsUsers (by decide) hensure

end Operations

section Step

variable {cfg : Config} {env : Env} {w : World}

theorem keepsUsers_manageAcl {b : Bool} {t : HandleId} {c : String} {op : World → OpResult}
    (h : KeepsUsers b w.store (op w).2.store) : KeepsUsers b w.store (manageAcl t c op w).store := by
  unfold manageAcl requirePermission
  split
  · rw [replyResult_store]
    exact h
  · exact .refl

theorem keepsGroups_registration {t : HandleId} {c : String} {r : Permissions}
    {op : World → OpResult} (h : KeepsGroups w.store (op w).2.store) :
    KeepsGroups w.store
      (w.requirePermission t rootRoomUuid r fun w => replyResult t c (op w)).store := by
  unfold requirePermission
  split
  · rw [replyResult_store]
    exact h
  · exact .refl

theorem keepsUsers_handleBanUser {t : HandleId} {target : UserId} {d : Nat} {reason : String}
    (hopen : (w.state.conn t.user).opened = true)
    (hauth : (w.state.conn t.user).authenticated = true) :
    KeepsUsers ((Event.envelope t (.banUser target d reason)).createsBanned w) w.store
      (handleBanUser env t target d reason w).store := by
  unfold handleBanUser requirePermission
  split
  swap
  · exact .refl
  rename_i hperm
  split
  · exact .refl
  rename_i hself
  rw [replyResult_store]
  refine keepsUsers_applyBan fun h1 h2 h3 h4 => ?_
  simp [Event.createsBanned, World.allows, hopen, hauth, hperm, hself, h1, h2, h3, h4]

/-- A ban that gets past its checks leaves a group "banned" behind. -/
theorem getGroup_applyBan {target : UserId} {d : Nat} {reason actor : String}
    (h1 : w.state.getClient target = true)
    (h2 : (w.state.handle (primary target)).isSuperuser = false)
    (h3 : (w.state.handle (primary target)).isController = false) :
    ((w.applyBan env target d reason actor).2.store.getGroup "banned").isSome = true := by
  have hensure : ((ensureBannedGroup w.store).getGroup "banned").isSome = true := by
    unfold ensureBannedGroup
    split
    · unfold Persistence.createGroup Persistence.getGroup
      rw [Table.get_set_self]
      rfl
    · rename_i hsome
      exact Option.isSome_iff_ne_none.mpr (by simpa using hsome)
  have hclient : ¬ (!w.state.getClient target) = true := by simp [h1]
  unfold applyBan
  dsimp only [mapStore_state]
  rw [if_neg hclient, if_neg (Bool.eq_false_iff.mp h2), if_neg (Bool.eq_false_iff.mp h3)]
  split
  · exact hensure
  · refine (congrArg (fun t => (Table.get t "banned").isSome)
      (touches_cleanupClient _ target .groups (by decide))).trans ?_
    refine (congrArg (fun t => (Table.get t "banned").isSome)
      (touches_recordBan (w := w.mapStore ensureBannedGroup) (S := [.userGroups, .bans]) .refl _ _
        .groups (by decide))).trans hensure

/-- **One event inserts into one namespace at most**, and only "banned" without a look at the
other one. -/
theorem names_step (cfg : Config) (env : Env) (w : World) (e : Event) :
    KeepsGroups w.store (step cfg env w e).store ∨
      KeepsUsers (e.createsBanned w) w.store (step cfg env w e).store := by
  by_cases hf : ∀ f ∈ [Field.groups, .registeredUsers], f ∉ e.footprint
  · exact .inl ((touches_step cfg env w e).keepsGroups hf .refl)
  cases e with
  | envelope t p =>
    unfold step
    dsimp only
    split
    swap
    · exact .inl .refl
    rename_i hopen
    unfold handleEnvelope
    split
    · exact .inl ((touches_handleClientHello _ _ _ _ _ _ _).keepsGroups (by decide) .refl)
    · exact .inl ((touches_handleAuthenticate _ _ _ _ _ _ _).keepsGroups (by decide) .refl)
    · exact .inl .refl
    · exact .inl .refl
    split
    swap
    · exact .inl .refl
    rename_i hauth
    cases p
    case joinRoom => exact .inl (keepsGroups_handleJoinRoom _ _)
    case registerUser => exact .inl (keepsGroups_registration (keepsGroups_applyRegisterUser _))
    case unregisterUser =>
      exact .inl (keepsGroups_registration (keepsGroups_applyUnregisterUser _))
    case createGroup => exact .inr (keepsUsers_manageAcl (keepsUsers_applyCreateGroup _ _))
    case modifyGroup => exact .inr (keepsUsers_manageAcl (keepsUsers_applyModifyGroup _ _))
    case toggleGroupPermission =>
      exact .inr (keepsUsers_manageAcl (keepsUsers_applyToggleGroupPermission _ _ _))
    case deleteGroup => exact .inr (keepsUsers_manageAcl (keepsUsers_applyDeleteGroup _))
    case banUser => exact .inr (keepsUsers_handleBanUser hopen hauth)
    all_goals exact absurd (by dsimp only [Event.footprint, footprint]; decide) hf
  | _ => exact absurd (by dsimp only [Event.footprint]; decide) hf

/-- The ban that creates the group leaves the registrations alone. -/
theorem createsBanned_step (cfg : Config) (env : Env) {e : Event} (h : e.createsBanned w = true) :
    ((step cfg env w e).store.getGroup "banned").isSome = true ∧
      (step cfg env w e).store.registeredUsers = w.store.registeredUsers ∧
      w.store.getGroup "banned" = none := by
  unfold Event.createsBanned at h
  split at h
  swap
  · exact Bool.noConfusion h
  rename_i t target d reason
  simp only [Bool.and_eq_true, bne_iff_ne, Bool.not_eq_true', World.allows] at h
  obtain ⟨⟨⟨⟨⟨⟨hopen, hauth, hperm⟩, hself⟩, h1⟩, h2⟩, h3⟩, h4⟩ := h
  refine ⟨?_, touches_step cfg env w _ .registeredUsers
    (by dsimp only [Event.footprint, footprint]; decide), Option.isNone_iff_eq_none.mp h4⟩
  unfold step
  dsimp only
  rw [if_pos hopen]
  show ((if _ then handleBanUser env t target d reason w else w).store.getGroup _).isSome = true
  rw [if_pos hauth]
  unfold handleBanUser requirePermission
  dsimp only
  rw [if_pos hperm, if_neg hself, replyResult_store]
  exact getGroup_applyBan h1 h2 h3

end Step

/-! ## Runs -/

/-- The username is registered to some key. -/
def Persistence.hasUsername (p : Persistence) (name : String) : Prop :=
  ∃ key r, p.getRegisteredUser key = some r ∧ r.username = name

/-- The ban does not create "banned" over a registered username. -/
def BannedNameFree (w : World) (i : Input) : Prop :=
  i.2.createsBanned w = true → ¬ w.store.hasUsername "banned"

/-- No group that was missing at some point of the run has the name of a registered user. -/
def NamespacesDisjoint (cfg : Config) (store : Persistence) (inputs : List Input) : Prop :=
  ∀ g, (∃ before, before <+: inputs ∧
      (run cfg (World.init store) before).store.getGroup g = none) →
    ((run cfg (World.init store) inputs).store.getGroup g).isSome = true →
      ¬ (run cfg (World.init store) inputs).store.hasUsername g

section Runs

variable {cfg : Config} {store : Persistence} {inputs : List Input} {i : Input}

/-- One more event keeps the namespaces disjoint when it does not create a taken "banned". -/
theorem namespacesDisjoint_snoc (h : NamespacesDisjoint cfg store inputs)
    (hi : BannedNameFree (run cfg (World.init store) inputs) i) :
    NamespacesDisjoint cfg store (inputs ++ [i]) := by
  rintro g ⟨before, hbefore, hmissing⟩ hg ⟨key, r, hr, rfl⟩
  rcases List.prefix_concat_iff.mp hbefore with rfl | hbefore
  · rw [hmissing] at hg
    exact Bool.noConfusion hg
  rw [run_snoc] at hg hr
  have hold := h r.username ⟨before, hbefore, hmissing⟩
  rcases names_step cfg i.1 (run cfg (World.init store) inputs) i.2 with ⟨hgroups, hnew⟩ | ⟨hreg, hnew⟩
  · have hg : ((run cfg (World.init store) inputs).store.getGroup r.username).isSome = true := by
      unfold Persistence.getGroup at hg ⊢
      rwa [← hgroups]
    rcases hnew key r hr with ⟨r₀, hr₀, hname⟩ | hnone
    · exact hold hg ⟨key, r₀, hr₀, hname⟩
    · rw [hnone] at hg
      exact Bool.noConfusion hg
  · have hr : (run cfg (World.init store) inputs).store.getRegisteredUser key = some r := by
      unfold Persistence.getRegisteredUser at hr ⊢
      rwa [← hreg]
    rcases hnew r.username hg with hg | hfree | ⟨hban, hname⟩
    · exact hold hg ⟨key, r, hr, rfl⟩
    · exact Bool.false_ne_true (hfree.symm.trans (isUsernameRegistered_of_get hr))
    · exact hi hban ⟨key, r, hr, hname⟩

/-- A ban that creates a taken "banned" makes the namespaces meet. -/
theorem not_namespacesDisjoint_snoc (hi : ¬ BannedNameFree (run cfg (World.init store) inputs) i) :
    ¬ NamespacesDisjoint cfg store (inputs ++ [i]) := by
  obtain ⟨hban, hname⟩ := Classical.not_imp.mp hi
  obtain ⟨key, r, hr, hname⟩ := not_not.mp hname
  obtain ⟨hg, hreg, hmissing⟩ := createsBanned_step cfg i.1 hban
  intro h
  refine h "banned" ⟨inputs, List.prefix_append _ _, hmissing⟩ ?_ ⟨key, r, ?_, hname⟩
  · rw [run_snoc]
    exact hg
  · rw [run_snoc]
    unfold Persistence.getRegisteredUser at hr ⊢
    rw [← hr]
    exact congrArg (Table.get · key) hreg

end Runs

/-- **Usernames and groups stay apart** in every state of a run exactly when no ban of the run
creates the group "banned" while "banned" is a registered username. -/
theorem namespaces_disjoint_run_iff (cfg : Config) (store : Persistence) (inputs : List Input) :
    (∀ pre, pre <+: inputs → NamespacesDisjoint cfg store pre) ↔
      Always (stepInput cfg) BannedNameFree (World.init store) inputs := by
  refine always_iff_history (Q := fun _ => True) ?_ trivial fun pre i _ h _ =>
    ⟨trivial, fun h' => ?_, namespacesDisjoint_snoc h⟩
  · rintro g ⟨before, hbefore, hmissing⟩ hg
    obtain rfl := List.prefix_nil.mp hbefore
    rw [hmissing] at hg
    exact Bool.noConfusion hg
  · exact by_contra fun hi => not_namespacesDisjoint_snoc hi h'

/-- A user is registered as "banned"; the first ban then creates the group. -/
def sampleTakenBanned : List Input :=
  sampleLogin 1 (Bytes.rep 32 9) "ann" ++ sampleLogin 2 (Bytes.rep 32 8) "banned" ++
    [sampleMsg 1 (.registerUser (some 2))] ++ sampleLogin 3 (Bytes.rep 32 7) "eve" ++
    [sampleMsg 1 (.banUser 3 0 "")]

theorem not_namespacesDisjoint_takenBanned :
    ¬ NamespacesDisjoint sampleConfig sampleAdminStore sampleTakenBanned := by
  intro h
  have hreg : (run sampleConfig (World.init sampleAdminStore)
      sampleTakenBanned).store.getRegisteredUser (Bytes.rep 32 8) = some ⟨"banned", none⟩ := by
    decide +kernel
  exact h "banned" ⟨[], List.nil_prefix, by decide +kernel⟩ (by decide +kernel) ⟨_, _, hreg, rfl⟩

end Rumble.Server
