import Mathlib.Logic.Relation
import Rumble.Server.Footprint
import Rumble.Server.Memberships

/-!
# What can happen to a ban

A ban of a key is kept twice: as a membership of the group "banned", which the check at
authentication reads through the BANNED flag of that group, and as a timed record that lifts the
membership once it has expired. `BanEffect` lists every change one store operation can make to the
three entries involved, with what permits it; `banEffects_step` says that an event changes them by
such effects only.
-/

namespace Rumble.Server

open Rumble.Lib World Relation

/-- Store `q` says about the ban of `k` what `p` says. -/
structure SameBan (k : PublicKey) (p q : Persistence) : Prop where
  group : q.groups.get "banned" = p.groups.get "banned"
  member : q.membership k "banned" = p.membership k "banned"
  record : q.bans.get k = p.bans.get k

/-- What a request may do to the ban of a key. -/
structure BanActs where
  /-- Lapsed memberships and expired records are cleared. -/
  housekeeping : Prop
  /-- The key is banned for a duration. -/
  ban : Nat → Prop
  /-- The key is added to "banned" with an expiry. -/
  grant : Nat → Prop
  /-- The key is removed from "banned". -/
  revoke : Prop
  /-- The permissions of "banned" are set. -/
  regroup : Prop
  /-- The group "banned" is deleted. -/
  drop : Prop

/-- One change to the ban of `k`, at time `now`. -/
inductive BanEffect (A : BanActs) (k : PublicKey) (now : Nat) : Persistence → Persistence → Prop where
  | same {p q : Persistence} (h : SameBan k p q) : BanEffect A k now p q
  | lapse {p q : Persistence} (hA : A.housekeeping) (hl : p.Lapsed k "banned" now)
      (hm : q.membership k "banned" = (false, none))
      (hg : q.groups.get "banned" = p.groups.get "banned")
      (hb : q.bans.get k = p.bans.get k) : BanEffect A k now p q
  | lift {p q : Persistence} {b : PersistedBan} (hA : A.housekeeping) (hp : p.bans.get k = some b)
      (hexp : b.isExpired now = true) (hb : q.bans.get k = none)
      (hm : q.membership k "banned" = (false, none))
      (hg : q.groups.get "banned" = p.groups.get "banned") : BanEffect A k now p q
  | ban {p q : Persistence} {b : PersistedBan} (hA : A.ban b.durationSeconds)
      (hb : q.bans.get k = some b) (ht : b.bannedAtSecs = some now)
      (hm : q.membership k "banned" = (true, none))
      (hg : q.groups.get "banned" = p.groups.get "banned") : BanEffect A k now p q
  | ensure {p q : Persistence} (hp : p.groups.get "banned" = none)
      (hq : q.groups.get "banned" = some Permissions.banned)
      (hm : q.membership k "banned" = p.membership k "banned")
      (hb : q.bans.get k = p.bans.get k) : BanEffect A k now p q
  | grant {p q : Persistence} {e : Nat} (hA : A.grant e)
      (hm : q.membership k "banned" = (true, if e = 0 then none else some e))
      (hg : q.groups.get "banned" = p.groups.get "banned")
      (hb : q.bans.get k = p.bans.get k) : BanEffect A k now p q
  | revoke {p q : Persistence} (hA : A.revoke) (hm : q.membership k "banned" = (false, none))
      (hg : q.groups.get "banned" = p.groups.get "banned")
      (hb : q.bans.get k = p.bans.get k) : BanEffect A k now p q
  | regroup {p q : Persistence} (hA : A.regroup)
      (hm : q.membership k "banned" = p.membership k "banned")
      (hb : q.bans.get k = p.bans.get k) : BanEffect A k now p q
  | drop {p q : Persistence} (hA : A.drop) (hm : (q.membership k "banned").1 = false)
      (hb : q.bans.get k = p.bans.get k) : BanEffect A k now p q

/-- A sequence of effects. -/
abbrev BanEffects (A : BanActs) (k : PublicKey) (now : Nat) := ReflTransGen (BanEffect A k now)

variable {A : BanActs} {k pk : PublicKey} {now : Nat} {p : Persistence} {w : World}

/-! ## Store operations -/

theorem banEffect_liftBan (hA : A.housekeeping) {b : PersistedBan} (hb : p.bans.get pk = some b)
    (hexp : b.isExpired now = true) : BanEffect A k now p (p.liftBan pk) := by
  have hm : (p.liftBan pk).membership k "banned" =
      if k = pk then (false, none) else p.membership k "banned" := by
    unfold Persistence.liftBan
    rw [Persistence.membership_removeUserFromGroup]
    simp only [and_true]
    rfl
  have hbans : (p.liftBan pk).bans.get k = if k = pk then none else p.bans.get k :=
    Table.get_del _ _ _
  by_cases hk : k = pk
  · subst hk
    exact .lift hA hb hexp (by rw [hbans, if_pos rfl]) (by rw [hm, if_pos rfl]) rfl
  · exact .same ⟨rfl, by rw [hm, if_neg hk], by rw [hbans, if_neg hk]⟩

theorem banEffects_liftExpiredBan (hA : A.housekeeping) :
    BanEffects A k now p (liftExpiredBan p pk now) := by
  unfold liftExpiredBan
  split
  · rename_i b hb
    split
    · rename_i hexp
      exact .single (banEffect_liftBan hA hb hexp)
    · exact .refl
  · exact .refl

theorem banEffect_activeUserGroups (hA : A.housekeeping) :
    BanEffect A k now p (p.activeUserGroups pk now).2 := by
  have hg : (p.activeUserGroups pk now).2.groups.get "banned" = p.groups.get "banned" := by
    rw [Persistence.groups_activeUserGroups]
  have hb : (p.activeUserGroups pk now).2.bans.get k = p.bans.get k := by
    rw [Persistence.bans_activeUserGroups]
  have hm : (p.activeUserGroups pk now).2.membership k "banned" = _ ∨ _ :=
    Persistence.membership_activeUserGroups_cases
  rcases hm with hm | ⟨hl, hm⟩
  · exact .same ⟨hg, hm, hb⟩
  · exact .lapse hA hl hm hg hb

theorem banEffects_banCheck (hA : A.housekeeping) :
    BanEffects A k now p (banCheck p pk now).2 :=
  (banEffects_liftExpiredBan hA).tail (banEffect_activeUserGroups hA)

theorem banEffects_sweepExpiredBans (hA : A.housekeeping) :
    BanEffects A k now p (p.sweepExpiredBans now).2 := by
  -- Along the fold the keys still to be lifted are distinct and keep their expired records.
  have key : ∀ (ks : List PublicKey) (p : Persistence), ks.Nodup →
      (∀ pk ∈ ks, ∃ b, p.bans.get pk = some b ∧ b.isExpired now = true) →
      BanEffects A k now p (ks.foldl Persistence.liftBan p) := by
    intro ks
    induction ks with
    | nil => exact fun p _ _ => .refl
    | cons pk ks ih =>
      intro p hnd h
      obtain ⟨hnotin, hnd⟩ := List.nodup_cons.mp hnd
      obtain ⟨b, hb, hexp⟩ := h pk List.mem_cons_self
      refine .head (banEffect_liftBan hA hb hexp) (ih _ hnd fun pk' hpk' => ?_)
      have hne : pk' ≠ pk := by rintro rfl; exact hnotin hpk'
      obtain ⟨b', hb', hexp'⟩ := h pk' (List.mem_cons_of_mem _ hpk')
      exact ⟨b', (Table.get_del_ne hne).trans hb', hexp'⟩
  refine key _ p ((Table.nodup_keys p.bans).sublist ((List.filter_sublist).map _)) ?_
  intro pk hpk
  obtain ⟨⟨pk, b⟩, hmem, rfl⟩ := List.mem_map.mp hpk
  obtain ⟨hmem, hexp⟩ := List.mem_filter.mp hmem
  exact ⟨b, Table.mem_toPairs.mp hmem, hexp⟩

theorem banEffect_sweepExpiredMemberships (hA : A.housekeeping) :
    BanEffect A k now p (p.sweepExpiredMemberships now).2 := by
  have honly := Persistence.onlyMemberships_sweepExpiredMemberships p now
  have hg : (p.sweepExpiredMemberships now).2.groups.get "banned" = p.groups.get "banned" := by
    rw [honly.groups_eq]
  have hb : (p.sweepExpiredMemberships now).2.bans.get k = p.bans.get k := by rw [honly.bans_eq]
  have hm := Persistence.membership_foldl_remove (k := k) (g := "banned")
    (p.sweepExpiredMemberships now).1 p
  by_cases hin : (k, "banned") ∈ (p.sweepExpiredMemberships now).1
  · rw [if_pos hin] at hm
    obtain ⟨⟨e, x⟩, hx, he⟩ := List.mem_map.mp hin
    obtain ⟨hx, hlap⟩ := List.mem_filter.mp hx
    obtain rfl : e = (k, "banned") := he
    have hget : p.groupExpiries.get (k, "banned") = some x := Table.mem_toPairs.mp hx
    refine .lapse hA ?_ hm hg hb
    simpa [Persistence.Lapsed, Persistence.getGroupExpiry, hget] using hlap
  · rw [if_neg hin] at hm
    exact .same ⟨hg, hm, hb⟩

theorem banEffect_ensureBannedGroup : BanEffect A k now p (ensureBannedGroup p) := by
  unfold ensureBannedGroup Persistence.getGroup
  split
  · rename_i h
    exact .ensure (Option.isNone_iff_eq_none.mp h) (Table.get_set_self _ _ _) rfl rfl
  · exact .same ⟨rfl, rfl, rfl⟩

theorem banEffect_addUserToGroup {e : Nat} (hA : pk = k → A.grant e) :
    BanEffect A k now p (p.addUserToGroupWithExpiry pk "banned" e) := by
  have honly := Persistence.onlyMemberships_addUserToGroupWithExpiry p pk "banned" e
  have hm : (p.addUserToGroupWithExpiry pk "banned" e).membership k "banned" = _ :=
    Persistence.membership_addUserToGroupWithExpiry
  by_cases hk : k = pk
  · rw [if_pos ⟨hk, rfl⟩] at hm
    exact .grant (hA hk.symm) hm (by rw [honly.groups_eq]) (by rw [honly.bans_eq])
  · rw [if_neg fun h => hk h.1] at hm
    exact .same ⟨by rw [honly.groups_eq], hm, by rw [honly.bans_eq]⟩

theorem banEffect_removeUserFromGroup (hA : pk = k → A.revoke) :
    BanEffect A k now p (p.removeUserFromGroup pk "banned") := by
  have hm : (p.removeUserFromGroup pk "banned").membership k "banned" = _ :=
    Persistence.membership_removeUserFromGroup
  by_cases hk : k = pk
  · rw [if_pos ⟨hk, rfl⟩] at hm
    exact .revoke (hA hk.symm) hm rfl rfl
  · rw [if_neg fun h => hk h.1] at hm
    exact .same ⟨rfl, hm, rfl⟩

/-- Operations on another group. -/
theorem sameBan_addUserToGroup {g : String} {e : Nat} (hg : g ≠ "banned") :
    SameBan k p (p.addUserToGroupWithExpiry pk g e) := by
  have honly := Persistence.onlyMemberships_addUserToGroupWithExpiry p pk g e
  refine ⟨by rw [honly.groups_eq], ?_, by rw [honly.bans_eq]⟩
  rw [Persistence.membership_addUserToGroupWithExpiry, if_neg fun h => hg h.2.symm]

theorem sameBan_removeUserFromGroup {g : String} (hg : g ≠ "banned") :
    SameBan k p (p.removeUserFromGroup pk g) := by
  refine ⟨rfl, ?_, rfl⟩
  rw [Persistence.membership_removeUserFromGroup, if_neg fun h => hg h.2.symm]

theorem banEffect_createGroup {g : String} {bits : BitVec 32} (hA : g = "banned" → A.regroup) :
    BanEffect A k now p (p.createGroup g bits) := by
  by_cases hg : g = "banned"
  · exact .regroup (hA hg) rfl rfl
  · exact .same ⟨Table.get_set_ne fun h => hg h.symm, rfl, rfl⟩

theorem banEffect_deleteGroup {g : String} (hA : g = "banned" → A.drop) :
    BanEffect A k now p ((p.removeGroupFromAllUsers g).deleteGroup g) := by
  have honly := Persistence.onlyMemberships_removeGroupFromAllUsers p g
  have hb : ((p.removeGroupFromAllUsers g).deleteGroup g).bans.get k = p.bans.get k := by
    show (p.removeGroupFromAllUsers g).bans.get k = _
    rw [honly.bans_eq]
  by_cases hg : g = "banned"
  · subst hg
    exact .drop (hA rfl) Persistence.not_member_removeGroupFromAllUsers hb
  · refine .same ⟨?_, ?_, hb⟩
    · show ((p.removeGroupFromAllUsers g).groups.del g).get "banned" = _
      rw [Table.get_del_ne fun h => hg h.symm, honly.groups_eq]
    · show (p.removeGroupFromAllUsers g).membership k "banned" = _
      rw [Persistence.membership_removeGroupFromAllUsers, if_neg fun h => hg h.1.symm]

section RecordBan

variable {b : PersistedBan}

theorem membership_recordBan : (recordBan p pk b).membership k "banned" =
    if k = pk then (true, none) else p.membership k "banned" := by
  show (p.addUserToGroupWithExpiry pk "banned" 0).membership k "banned" = _
  rw [Persistence.membership_addUserToGroupWithExpiry]
  simp

theorem bans_recordBan :
    (recordBan p pk b).bans.get k = if k = pk then some b else p.bans.get k := by
  have honly := Persistence.onlyMemberships_addUserToGroupWithExpiry p pk "banned" 0
  show ((p.addUserToGroup pk "banned").bans.set pk b).get k = _
  rw [Table.get_set, Persistence.addUserToGroup, honly.bans_eq]

theorem groups_recordBan : (recordBan p pk b).groups = p.groups :=
  (Persistence.onlyMemberships_addUserToGroupWithExpiry p pk "banned" 0).groups_eq

theorem banEffect_recordBan (hA : pk = k → A.ban b.durationSeconds)
    (ht : b.bannedAtSecs = some now) : BanEffect A k now p (recordBan p pk b) := by
  by_cases hk : k = pk
  · exact .ban (hA hk.symm) (by rw [bans_recordBan, if_pos hk]) ht
      (by rw [membership_recordBan, if_pos hk]) (by rw [groups_recordBan])
  · exact .same ⟨by rw [groups_recordBan], by rw [membership_recordBan, if_neg hk],
      by rw [bans_recordBan, if_neg hk]⟩

end RecordBan

/-! ## Requests -/

/-- An authenticated sender holds a permission at Root. -/
def World.allows (w : World) (sender : HandleId) (required : Permissions) : Bool :=
  (w.state.conn sender.user).authenticated &&
    (evaluateUserPermissions w.state w.store sender rootRoomUuid).contains required

/-- The key whose membership of "banned" an authorised request edits, with the direction and the
expiry. -/
def Event.bannedEdit (w : World) : Event → Option (PublicKey × Bool × Nat)
  | .envelope sender (.setUserGroup target group add expiresAt) =>
    if w.allows sender Permissions.manageAcl && group == "banned" then
      (w.state.getUserPublicKey target).map fun key => (key, add, expiresAt)
    else none
  | .envelope sender (.setRegisteredUserGroup publicKey group add expiresAt) =>
    if w.allows sender Permissions.manageAcl && group == "banned" then
      (Bytes.ofList? 32 publicKey).map fun key => (key, add, expiresAt)
    else none
  | _ => none

/-- The key an authorised ban request bans, and for how long. -/
def Event.bannedKey (w : World) : Event → Option (PublicKey × Nat)
  | .envelope sender (.banUser target durationSeconds _) =>
    if w.allows sender Permissions.ban then
      (w.state.getUserPublicKey target).map fun key => (key, durationSeconds)
    else none
  | _ => none

/-- An authorised request creates "banned" or sets its permissions. -/
def Event.editsBannedGroup (w : World) : Event → Bool
  | .envelope sender (.createGroup name _) =>
    w.allows sender Permissions.manageAcl && name == "banned" &&
      (w.store.getGroup "banned").isNone
  | .envelope sender (.modifyGroup name _) | .envelope sender (.toggleGroupPermission name ..) =>
    w.allows sender Permissions.manageAcl && name == "banned"
  | _ => false

/-- An authorised request deletes "banned". -/
def Event.deletesBannedGroup (w : World) : Event → Bool
  | .envelope sender (.deleteGroup name) =>
    w.allows sender Permissions.manageAcl && name == "banned"
  | _ => false

/-- Authentications, sweeps and the registered-user listing clear what has lapsed. -/
def Event.housekeeps : Event → Bool
  | .envelope _ (.authenticate ..) | .envelope _ .requestRegisteredUsers | .sweep => true
  | _ => false

/-- What an event may do to the ban of `k`. -/
def Event.banActs (w : World) (k : PublicKey) (e : Event) : BanActs where
  housekeeping := e.housekeeps = true
  ban d := e.bannedKey w = some (k, d)
  grant x := e.bannedEdit w = some (k, true, x)
  revoke := ∃ x, e.bannedEdit w = some (k, false, x)
  regroup := e.editsBannedGroup w = true
  drop := e.deletesBannedGroup w = true

/-! ## Handlers -/

/-- A change outside the three entries. -/
theorem Touches.sameBan {S : List Field} {w' : World} (h : Touches S w w')
    (hS : ∀ f ∈ [Field.groups, .userGroups, .bans], f ∉ S) : SameBan k w.store w'.store := by
  have hg : w'.store.groups = w.store.groups := h _ (hS .groups (by decide))
  have hu : (w'.store.userGroups, w'.store.groupExpiries) =
    (w.store.userGroups, w.store.groupExpiries) := h _ (hS .userGroups (by decide))
  have hb : w'.store.bans = w.store.bans := h _ (hS .bans (by decide))
  obtain ⟨hu, he⟩ := Prod.mk.inj hu
  refine ⟨by rw [hg], ?_, by rw [hb]⟩
  unfold Persistence.membership Persistence.getUserGroups
  rw [hu, he]

theorem Touches.banEffects {S : List Field} {w' : World} (ht : Touches S w w')
    (hS : ∀ f ∈ [Field.groups, .userGroups, .bans], f ∉ S)
    (h : BanEffects A k now p w.store) : BanEffects A k now p w'.store :=
  h.tail (.same (ht.sameBan hS))

theorem banEffects_publishAuth (hA : A.housekeeping) (cfg : Config) (w : World) (env : Env)
    (t : HandleId) (pending : PendingAuth) (s : SessionEntry) :
    BanEffects A k env.nowSecs w.store (w.publishAuth cfg env t pending s).store := by
  have hmark : BanEffects A k env.nowSecs w.store (w.markAuthenticated env t pending).store :=
    .head (b := w.store.addKnownKey pending.publicKey) (.same ⟨rfl, rfl, rfl⟩)
      (.single (banEffect_activeUserGroups hA))
  unfold publishAuth
  refine (touches_enterServer cfg _ t pending.publicKey).banEffects (by decide) ?_
  exact (touches_evictSupersededSessions _ _ _ _).banEffects (by decide) hmark

theorem banEffects_handleAuthenticate (hA : A.housekeeping) (cfg : Config) (env : Env)
    (t : HandleId) (sig : List UInt8) (ts : Int) (cert : Option SessionCertificate) (w : World) :
    BanEffects A k env.nowSecs w.store (handleAuthenticate cfg env t sig ts cert w).store := by
  unfold handleAuthenticate
  split
  · exact .refl
  rename_i pending state _
  dsimp only
  split
  · exact .refl
  have hcheck : BanEffects A k env.nowSecs w.store
      (banCheck w.store pending.publicKey env.nowSecs).2 := banEffects_banCheck hA
  split
  · exact hcheck
  split
  · exact hcheck
  · refine hcheck.trans ?_
    exact banEffects_publishAuth hA cfg ((w.mapState fun _ => state).mapStore fun _ => _) env t _ _

theorem banEffects_handleRequestRegisteredUsers (hA : A.housekeeping) (env : Env) (t : HandleId)
    (w : World) :
    BanEffects A k env.nowSecs w.store (handleRequestRegisteredUsers env t w).store := by
  have key : ∀ (online : List PublicKey) (users : List (PublicKey × RegisteredUser))
      (acc : List RegisteredUserInfo × Persistence), BanEffects A k env.nowSecs acc.2
        (users.foldl (registeredUserInfo online env.nowSecs) acc).2 := by
    intro online users
    induction users with
    | nil => exact fun acc => .refl
    | cons u us ih =>
      intro acc
      exact .head (banEffect_activeUserGroups hA) (ih (registeredUserInfo online env.nowSecs acc u))
  unfold handleRequestRegisteredUsers requirePermission
  split
  · exact key _ _ ([], w.store)
  · exact .refl

theorem banEffects_sweepExpired (hA : A.housekeeping) (w : World) (env : Env) :
    BanEffects A k env.nowSecs w.store (w.sweepExpired env).store := by
  have hstore : BanEffects A k env.nowSecs w.store
      ((w.store.sweepExpiredBans env.nowSecs).2.sweepExpiredMemberships env.nowSecs).2 :=
    (banEffects_sweepExpiredBans hA).tail (banEffect_sweepExpiredMemberships hA)
  unfold sweepExpired
  dsimp only
  refine Touches.banEffects (S := [.identity, .log]) (.foldl (fun w e => ?_) _) (by decide) hstore
  exact .foldl (fun w u => touches_mirrorGroup _ _ _ _ w u) _

theorem banEffects_applyBan {target : UserId} {d : Nat}
    (hA : w.state.getUserPublicKey target = some k → A.ban d) (env : Env)
    (reason actor : String) :
    BanEffects A k env.nowSecs w.store (w.applyBan env target d reason actor).2.store := by
  have hensure : BanEffects A k env.nowSecs w.store (ensureBannedGroup w.store) :=
    .single banEffect_ensureBannedGroup
  unfold applyBan
  split
  · exact .refl
  split
  · exact .refl
  split
  · exact .refl
  dsimp only
  split
  · exact hensure
  · rename_i key hkey
    have hrecord : BanEffect A k env.nowSecs (ensureBannedGroup w.store)
        (recordBan (ensureBannedGroup w.store) key
          { bannedAtSecs := some env.nowSecs, durationSeconds := d, reason := reason
            bannedBy := actor }) := banEffect_recordBan (fun h => hA (h ▸ hkey)) rfl
    exact (touches_cleanupClient _ target).banEffects (by decide) (hensure.tail hrecord)

theorem banEffects_applySetUserGroupByKey {key : PublicKey} {g : String} {add : Bool} {e : Nat}
    (hgrant : g = "banned" → key = k → add = true → A.grant e)
    (hrevoke : g = "banned" → key = k → add = false → A.revoke) :
    BanEffects A k now w.store (w.applySetUserGroupByKey key g add e).2.store := by
  unfold applySetUserGroupByKey
  split
  · exact .refl
  split
  · exact .refl
  have hstore : BanEffect A k now w.store (if add then w.store.addUserToGroupWithExpiry key g e
      else w.store.removeUserFromGroup key g) := by
    by_cases hg : g = "banned"
    · subst hg
      cases add with
      | true => exact banEffect_addUserToGroup fun hk => hgrant rfl hk rfl
      | false => exact banEffect_removeUserFromGroup fun hk => hrevoke rfl hk rfl
    · cases add with
      | true => exact .same (sameBan_addUserToGroup hg)
      | false => exact .same (sameBan_removeUserFromGroup hg)
  exact Touches.banEffects (S := [.identity, .log])
    (.foldl (fun w u => touches_mirrorGroup _ _ _ _ w u) _) (by decide) (.single hstore)

theorem banEffects_manageAcl {t : HandleId} {c : String} {op : World → OpResult}
    (h : (evaluateUserPermissions w.state w.store t rootRoomUuid).contains
      Permissions.manageAcl = true → BanEffects A k now w.store (op w).2.store) :
    BanEffects A k now w.store (manageAcl t c op w).store := by
  unfold manageAcl requirePermission
  split
  · rename_i hperm
    rw [replyResult_store]
    exact h hperm
  · exact .refl

theorem banEffects_handleBanUser {t : HandleId} {target : UserId} {d : Nat}
    (hA : (evaluateUserPermissions w.state w.store t rootRoomUuid).contains Permissions.ban = true →
      w.state.getUserPublicKey target = some k → A.ban d) (env : Env) (reason : String) :
    BanEffects A k env.nowSecs w.store (handleBanUser env t target d reason w).store := by
  unfold handleBanUser requirePermission
  split
  swap
  · exact .refl
  rename_i hperm
  split
  · exact .refl
  · rw [replyResult_store]
    exact banEffects_applyBan (hA hperm) env reason _

theorem banEffects_handleAuthenticated (cfg : Config) (env : Env) (t : HandleId) (p : Payload)
    (w : World) (hauth : (w.state.conn t.user).authenticated = true) :
    BanEffects ((Event.envelope t p).banActs w k) k env.nowSecs w.store
      (handleAuthenticated cfg env t p w).store := by
  have hallows : ∀ {r : Permissions},
      (evaluateUserPermissions w.state w.store t rootRoomUuid).contains r = true →
        w.allows t r = true := fun h => by rw [World.allows, hauth, h]; rfl
  cases p
  case banUser target d reason =>
    refine banEffects_handleBanUser (fun hperm hkey => ?_) env reason
    simp [Event.banActs, Event.bannedKey, hallows hperm, hkey]
  case requestRegisteredUsers => exact banEffects_handleRequestRegisteredUsers rfl env t w
  case createGroup name bits =>
    refine banEffects_manageAcl fun hperm => ?_
    unfold applyCreateGroup
    repeat' split
    all_goals try exact .refl
    rename_i hnone _
    refine .single (banEffect_createGroup fun hg => ?_)
    subst hg
    simpa [Event.banActs, Event.editsBannedGroup, hallows hperm] using hnone
  case modifyGroup name bits =>
    refine banEffects_manageAcl fun hperm => ?_
    unfold applyModifyGroup Persistence.modifyGroup
    split
    · exact .refl
    · rename_i store hstore
      obtain ⟨-, hstore⟩ := Option.ite_none_right_eq_some.mp hstore
      obtain rfl := Option.some.inj hstore
      refine .single (banEffect_createGroup fun hg => ?_)
      simp [Event.banActs, Event.editsBannedGroup, hallows hperm, hg]
  case toggleGroupPermission name bits enable =>
    refine banEffects_manageAcl fun hperm => ?_
    unfold applyToggleGroupPermission
    split
    · exact .refl
    split
    · exact .refl
    split
    · exact .refl
    · rename_i perms store hstore
      obtain ⟨old, -, hstore⟩ := Option.map_eq_some_iff.mp hstore
      obtain ⟨-, rfl⟩ := Prod.mk.inj hstore
      refine .single (banEffect_createGroup fun hg => ?_)
      simp [Event.banActs, Event.editsBannedGroup, hallows hperm, hg]
  case deleteGroup name =>
    refine banEffects_manageAcl fun hperm => ?_
    unfold applyDeleteGroup
    split
    · exact .refl
    have hscrub : BanEffects ((Event.envelope t (.deleteGroup name)).banActs w k) k env.nowSecs
        w.store (w.state.snapshotClients.foldl (scrubGroup name) w).store :=
      Touches.banEffects (S := [.identity, .log])
        (.foldl (fun w u => touches_scrubGroup name w u) _) (by decide) .refl
    refine hscrub.tail (banEffect_deleteGroup fun hg => ?_)
    simp [Event.banActs, Event.deletesBannedGroup, hallows hperm, hg]
  case setUserGroup target group add e =>
    refine banEffects_manageAcl fun hperm => ?_
    unfold applySetUserGroup
    split
    · exact .refl
    rename_i key hkey
    refine banEffects_applySetUserGroupByKey ?_ ?_
    · rintro rfl rfl rfl
      simp [Event.banActs, Event.bannedEdit, hallows hperm, hkey]
    · rintro rfl rfl rfl
      simp [Event.banActs, Event.bannedEdit, hallows hperm, hkey]
  case setRegisteredUserGroup bytes group add e =>
    refine banEffects_manageAcl fun hperm => ?_
    split
    · exact .refl
    rename_i key hkey
    refine banEffects_applySetUserGroupByKey ?_ ?_
    · rintro rfl rfl rfl
      simp [Event.banActs, Event.bannedEdit, hallows hperm, hkey]
    · rintro rfl rfl rfl
      simp [Event.banActs, Event.bannedEdit, hallows hperm, hkey]
  case authenticate =>
    show BanEffects _ k env.nowSecs w.store (handleController env t _ w).store
    unfold handleController
    split <;> exact .refl
  all_goals
    exact (touches_handleAuthenticated cfg env t _ w).banEffects
      (by dsimp only [footprint]; decide) .refl

/-- **An event changes the ban of a key by its effects only.** -/
theorem banEffects_step (cfg : Config) (env : Env) (w : World) (e : Event) :
    BanEffects (e.banActs w k) k env.nowSecs w.store (step cfg env w e).store := by
  cases e with
  | sweep => exact banEffects_sweepExpired rfl w env
  | envelope t p =>
    unfold step
    dsimp only
    split
    swap
    · exact .refl
    unfold handleEnvelope
    split
    · exact (touches_handleClientHello _ _ _ _ _ _ _).banEffects (by decide) .refl
    · exact banEffects_handleAuthenticate rfl _ _ _ _ _ _ _
    · exact .refl
    · exact .refl
    split
    · rename_i hauth
      exact banEffects_handleAuthenticated cfg env t p w hauth
    · exact .refl
  | connect => exact (touches_step cfg env w _).banEffects (by decide) .refl
  | readTimeout t =>
    exact (touches_step cfg env w _).banEffects (by dsimp only [Event.footprint]; decide) .refl
  | datagram u d n =>
    exact (touches_step cfg env w _).banEffects (by dsimp only [Event.footprint]; decide) .refl
  | connectionLost u =>
    exact (touches_step cfg env w _).banEffects (by dsimp only [Event.footprint]; decide) .refl

/-- A housekeeping event does nothing else to a ban. -/
theorem Event.banActs_housekeeping {e : Event} (h : (e.banActs w k).housekeeping) :
    (∀ d, ¬ (e.banActs w k).ban d) ∧ (∀ x, ¬ (e.banActs w k).grant x) := by
  simp only [Event.banActs, Event.housekeeps] at h
  split at h <;> simp_all [Event.banActs, Event.bannedKey, Event.bannedEdit]

/-- An event that edits memberships of "banned" does not ban. -/
theorem Event.banActs_ban {e : Event} {d : Nat} (h : (e.banActs w k).ban d) :
    (∀ x, ¬ (e.banActs w k).grant x) ∧ ¬ (e.banActs w k).revoke ∧ ¬ (e.banActs w k).drop := by
  simp only [Event.banActs, Event.bannedKey] at h
  split at h <;> simp_all [Event.banActs, Event.bannedEdit, Event.deletesBannedGroup]

end Rumble.Server
