import Rumble.Server.MembershipEdits
import Rumble.Server.Schedule

/-!
# Cached group lists

A live connection caches the groups of its key, and timed memberships run out. The sweep removes a
lapsed membership from the store and from every cached list; an authentication, a listing and the
lift of an expired ban remove it from the store only. While no step does that to a membership that
a live connection caches, every sweep leaves only active groups cached (`sweep_leaves_active`).
-/

namespace Rumble.Server

open Rumble.Lib Rumble.Lib.Transition World

/-! ## What the live connections cache -/

/-- Connection, key of its session and group. "default" is left out: it starts every list and is no
record of any key. -/
def World.cachedGroups (w : World) : List (UserId × PublicKey × String) :=
  w.state.snapshotClients.flatMap fun u => (w.state.getUserPublicKey u).toList.flatMap fun k =>
    ((w.state.conn u).identity.groups.filter (· ≠ "default")).map fun g => (u, k, g)

/-- Every cached group is recorded for the key. -/
def GroupsBacked (w : World) : Prop :=
  ∀ c ∈ w.cachedGroups, c.2.2 ∈ w.store.getUserGroups c.2.1

/-- Every live connection caches only groups that the store has in force for its key at `now`, as
an authentication reads them. -/
def GroupsActive (w : World) (now : Nat) : Prop :=
  ∀ u, w.state.getClient u = true → ∀ k, w.state.getUserPublicKey u = some k →
    ∀ g ∈ (w.state.conn u).identity.groups,
      g ∈ userGroupList (w.store.activeUserGroups k now).1 none

/-- A session has an assigned user id, and so has an open connection. -/
def SessionsAssigned (w : World) : Prop :=
  ∀ u, w.state.nextUserId ≤ u → w.state.sessions.get u = none ∧ (w.state.conn u).opened = false

theorem mem_cachedGroups {w : World} {u : UserId} {k : PublicKey} {g : String} :
    (u, k, g) ∈ w.cachedGroups ↔ w.state.getClient u = true ∧
      w.state.getUserPublicKey u = some k ∧ g ∈ (w.state.conn u).identity.groups ∧
        g ≠ "default" := by
  simp only [World.cachedGroups, List.mem_flatMap, List.mem_map, List.mem_filter, Option.mem_toList,
    mem_snapshotClients, Prod.mk.injEq, decide_eq_true_eq]
  constructor
  · rintro ⟨u', hu, k', hk, g', ⟨hg, hne⟩, rfl, rfl, rfl⟩
    exact ⟨hu, hk, hg, hne⟩
  · rintro ⟨hu, hk, hg, hne⟩
    exact ⟨u, hu, k, hk, g, ⟨hg, hne⟩, rfl, rfl, rfl⟩

/-- Connections that go away and lists that shrink cache nothing new. -/
theorem Shrinks.cachedGroups {w w' : World} (h : Shrinks w w')
    (hsub : ∀ u, (w'.state.conn u).identity.groups ⊆ (w.state.conn u).identity.groups) :
    w'.cachedGroups ⊆ w.cachedGroups := by
  rintro ⟨u, k, g⟩ hc
  obtain ⟨hu, hk, hg, hne⟩ := mem_cachedGroups.mp hc
  exact mem_cachedGroups.mpr ⟨h.client u hu, h.getUserPublicKey hk, hsub u hg, hne⟩

theorem Touches.groups_eq {S : List Field} {w w' : World} (h : Touches S w w')
    (hS : Field.identity ∉ S) (u : UserId) :
    (w'.state.conn u).identity.groups = (w.state.conn u).identity.groups :=
  congrArg Identity.groups (congrFun (h .identity hS) u)

/-- Nothing new is cached and no cached record goes away. -/
theorem GroupsBacked.keep {w w' : World} (h : GroupsBacked w)
    (hsub : w'.cachedGroups ⊆ w.cachedGroups)
    (hstore : ∀ c ∈ w'.cachedGroups, c.2.2 ∈ w.store.getUserGroups c.2.1 →
      c.2.2 ∈ w'.store.getUserGroups c.2.1) : GroupsBacked w' :=
  fun c hc => hstore c hc (h c (hsub hc))

theorem Touches.getUserGroups_eq {S : List Field} {w w' : World} (h : Touches S w w')
    (hS : Field.userGroups ∉ S) (k : PublicKey) :
    w'.store.getUserGroups k = w.store.getUserGroups k := by
  have hgroups : (w'.store.userGroups, _) = (w.store.userGroups, _) := h .userGroups hS
  exact congrArg (fun t => (Table.get t k).getD []) (Prod.mk.inj hgroups).1

theorem GroupsBacked.touches {S : List Field} {w w' : World} (h : GroupsBacked w)
    (hf : Shrinks w w') (ht : Touches S w w') (hS : ∀ f ∈ [Field.identity, .userGroups], f ∉ S) :
    GroupsBacked w' := by
  refine h.keep (hf.cachedGroups fun u => ?_) fun c _ hm => ?_
  · rw [ht.groups_eq (hS _ (by decide)) u]
    exact fun _ hg => hg
  · rwa [ht.getUserGroups_eq (hS _ (by decide))]

/-! ## Memberships that run out -/

namespace Persistence

variable {p q : Persistence} {k pk : PublicKey} {g : String} {now : Nat}

/-- The ban record of the key has expired. Lifting it removes the "banned" membership too. -/
def BanExpired (p : Persistence) (k : PublicKey) (now : Nat) : Prop :=
  (p.getBan k).any (·.isExpired now) = true

/-- What an authentication of the key removes from the store. -/
def RunsOut (p : Persistence) (k : PublicKey) (g : String) (now : Nat) : Prop :=
  p.Lapsed k g now ∨ g = "banned" ∧ p.BanExpired k now

instance (p : Persistence) (k : PublicKey) (g : String) (now : Nat) : Decidable (p.Lapsed k g now) :=
  inferInstanceAs (Decidable (_ ∧ _))

instance (p : Persistence) (k : PublicKey) (now : Nat) : Decidable (p.BanExpired k now) :=
  inferInstanceAs (Decidable (_ = _))

instance (p : Persistence) (k : PublicKey) (g : String) (now : Nat) :
    Decidable (p.RunsOut k g now) := inferInstanceAs (Decidable (_ ∨ _))

theorem mem_of_membership (h : q.membership k g = p.membership k g) :
    g ∈ q.getUserGroups k ↔ g ∈ p.getUserGroups k :=
  decide_eq_decide.mp (Prod.mk.inj h).1

theorem lapsed_of_membership (h : q.membership k g = p.membership k g) :
    q.Lapsed k g now ↔ p.Lapsed k g now := by
  unfold Lapsed
  rw [getGroupExpiry_of_membership h]

/-- The lazy expiry of one key leaves the other keys alone. -/
theorem membership_activeUserGroups_of_ne (h : k ≠ pk) :
    (p.activeUserGroups pk now).2.membership k g = p.membership k g := by
  have key : ∀ (gs : List String) (acc : List String × Persistence),
      (gs.foldl (activeStep pk now) acc).2.membership k g = acc.2.membership k g := by
    intro gs
    induction gs with
    | nil => exact fun acc => rfl
    | cons g' gs ih =>
      intro acc
      rw [List.foldl_cons, ih]
      unfold activeStep
      dsimp only
      split
      · rw [membership_removeUserFromGroup, if_neg fun hk => h hk.1]
      · rfl
  exact key _ ([], p)

theorem membership_activeUserGroups_keep (h : k = pk → ¬ p.Lapsed k g now) :
    (p.activeUserGroups pk now).2.membership k g = p.membership k g := by
  by_cases hk : k = pk
  · exact membership_activeUserGroups (h hk)
  · exact membership_activeUserGroups_of_ne hk

theorem membership_liftBan : (p.liftBan pk).membership k g =
    if k = pk ∧ g = "banned" then (false, none) else p.membership k g :=
  membership_removeUserFromGroup

theorem membership_liftExpiredBan (h : k = pk → ¬ (g = "banned" ∧ p.BanExpired k now)) :
    (liftExpiredBan p pk now).membership k g = p.membership k g := by
  unfold liftExpiredBan
  split
  · rename_i ban hban
    split
    · rename_i hexp
      rw [membership_liftBan, if_neg]
      rintro ⟨rfl, rfl⟩
      exact h rfl ⟨rfl, by simp [BanExpired, hban, hexp]⟩
    · rfl
  · rfl

/-- **What an authentication keeps**: everything that has not run out. -/
theorem membership_banCheck (h : k = pk → ¬ p.RunsOut k g now) :
    (banCheck p pk now).2.membership k g = p.membership k g := by
  have hlift : (liftExpiredBan p pk now).membership k g = p.membership k g :=
    membership_liftExpiredBan fun hk hban => h hk (.inr hban)
  refine (membership_activeUserGroups_keep fun hk hl => ?_).trans hlift
  exact h hk (.inl ((lapsed_of_membership hlift).mp hl))

theorem membership_sweepExpiredBans (h : ¬ (g = "banned" ∧ p.BanExpired k now)) :
    (p.sweepExpiredBans now).2.membership k g = p.membership k g := by
  have key : ∀ (ks : List PublicKey) (p : Persistence), (g = "banned" → k ∉ ks) →
      (ks.foldl liftBan p).membership k g = p.membership k g := by
    intro ks
    induction ks with
    | nil => exact fun p _ => rfl
    | cons pk ks ih =>
      intro p hks
      rw [List.foldl_cons, ih _ fun hg hk => hks hg (List.mem_cons_of_mem _ hk), membership_liftBan,
        if_neg]
      rintro ⟨rfl, hg⟩
      exact hks hg List.mem_cons_self
  refine key _ p fun hg hk => h ⟨hg, ?_⟩
  obtain ⟨⟨k, ban⟩, hmem, rfl⟩ := List.mem_map.mp hk
  obtain ⟨hmem, hexp⟩ := List.mem_filter.mp hmem
  have hban : p.getBan k = some ban := Table.mem_toPairs.mp hmem
  simp [BanExpired, hban, hexp]

/-- A lapsed membership is swept. -/
theorem mem_sweepExpiredMemberships (h : p.Lapsed k g now) :
    (k, g) ∈ (p.sweepExpiredMemberships now).1 := by
  unfold Lapsed getGroupExpiry at h
  cases he : p.groupExpiries.get (k, g) with
  | none => simp [he] at h
  | some e =>
    rw [he, Option.getD_some] at h
    refine List.mem_map.mpr ⟨((k, g), e), List.mem_filter.mpr ⟨Table.mem_toPairs.mpr he, ?_⟩, rfl⟩
    simpa using h

theorem membership_sweepExpiredMemberships :
    (p.sweepExpiredMemberships now).2.membership k g =
      if (k, g) ∈ (p.sweepExpiredMemberships now).1 then (false, none) else p.membership k g :=
  membership_foldl_remove _ p

/-- Some memberships are gone. -/
def Trims (p q : Persistence) : Prop := ∀ k, (q.getUserGroups k).Sublist (p.getUserGroups k)

theorem Trims.refl : Trims p p := fun _ => .refl _

theorem Trims.trans {r : Persistence} (h : Trims p q) (h' : Trims q r) : Trims p r :=
  fun k => (h' k).trans (h k)

theorem Trims.foldl {β : Type} {f : Persistence → β → Persistence} (hf : ∀ p b, Trims p (f p b))
    (l : List β) : ∀ p, Trims p (l.foldl f p) := by
  induction l with
  | nil => exact fun p => .refl
  | cons b l ih => exact fun p => (hf p b).trans (ih _)

theorem DistinctGroups.trims (h : p.DistinctGroups) (ht : Trims p q) : q.DistinctGroups :=
  fun k => (h k).sublist (ht k)

theorem trims_removeUserFromGroup (p : Persistence) (pk : PublicKey) (g : String) :
    Trims p (p.removeUserFromGroup pk g) := by
  intro k
  rw [getUserGroups_removeUserFromGroup]
  split
  · exact List.filter_sublist
  · exact .refl _

theorem trims_activeUserGroups (p : Persistence) (pk : PublicKey) (now : Nat) :
    Trims p (p.activeUserGroups pk now).2 := by
  have key : ∀ (gs : List String) (acc : List String × Persistence),
      Trims acc.2 (gs.foldl (activeStep pk now) acc).2 := by
    intro gs
    induction gs with
    | nil => exact fun acc => .refl
    | cons g gs ih =>
      intro acc
      refine Trims.trans ?_ (ih (activeStep pk now acc g))
      unfold activeStep
      dsimp only
      split
      · exact trims_removeUserFromGroup acc.2 pk g
      · exact .refl
  exact key _ ([], p)

theorem trims_liftBan (p : Persistence) (pk : PublicKey) : Trims p (p.liftBan pk) :=
  trims_removeUserFromGroup (p.removeBan pk) pk "banned"

theorem trims_banCheck (p : Persistence) (pk : PublicKey) (now : Nat) :
    Trims p (banCheck p pk now).2 := by
  refine Trims.trans ?_ (trims_activeUserGroups (liftExpiredBan p pk now) pk now)
  unfold liftExpiredBan
  split
  · split
    · exact trims_liftBan p pk
    · exact .refl
  · exact .refl

/-- A lapsed group is passed over: the list holds it once. -/
theorem not_mem_foldl_activeStep (gs : List String) : ∀ acc : List String × Persistence,
    gs.Nodup → acc.2.Lapsed pk g now → g ∉ acc.1 → g ∉ (gs.foldl (activeStep pk now) acc).1 := by
  induction gs with
  | nil => exact fun acc _ _ hg => hg
  | cons g' gs ih =>
    intro acc hnd hl hg
    obtain ⟨hnotin, hnd⟩ := List.nodup_cons.mp hnd
    rw [List.foldl_cons]
    by_cases hgg : g = g'
    · subst hgg
      have hstep : activeStep pk now acc g = (acc.1, acc.2.removeUserFromGroup pk g) := if_pos hl
      rw [hstep]
      exact fun hmem => (mem_foldl_activeStep gs _ hmem).elim hg hnotin
    · have hm : (activeStep pk now acc g').2.membership pk g = acc.2.membership pk g := by
        unfold activeStep
        dsimp only
        split
        · rw [membership_removeUserFromGroup, if_neg fun h => hgg h.2]
        · rfl
      refine ih _ hnd ((lapsed_of_membership hm).mpr hl) ?_
      unfold activeStep
      dsimp only
      split
      · exact hg
      · simp [hg, hgg]

/-- What a login loads is still recorded after it. -/
theorem mem_getUserGroups_of_active (hd : p.DistinctGroups)
    (h : g ∈ (p.activeUserGroups pk now).1) :
    g ∈ (p.activeUserGroups pk now).2.getUserGroups pk := by
  by_cases hl : p.Lapsed pk g now
  · exact absurd h (not_mem_foldl_activeStep _ ([], p) (hd pk) hl List.not_mem_nil)
  · exact (mem_of_membership (membership_activeUserGroups hl)).mpr (mem_of_mem_activeUserGroups h)

/-- The listing removes the lapsed memberships of the registered keys. -/
theorem membership_listing (online : List PublicKey) (l : List (PublicKey × RegisteredUser)) :
    ∀ acc : List RegisteredUserInfo × Persistence,
      (k ∈ l.map Prod.fst → ¬ acc.2.Lapsed k g now) →
      (l.foldl (registeredUserInfo online now) acc).2.membership k g = acc.2.membership k g := by
  induction l with
  | nil => exact fun acc _ => rfl
  | cons e l ih =>
    intro acc h
    have hstep : (registeredUserInfo online now acc e).2.membership k g = acc.2.membership k g :=
      membership_activeUserGroups_keep fun hk => h (List.mem_cons.mpr (.inl hk))
    rw [List.foldl_cons, ih, hstep]
    intro hk hl
    exact h (List.mem_cons_of_mem _ hk) ((lapsed_of_membership hstep).mp hl)

end Persistence

/-! ## Mirrors -/

theorem Touches.getUserPublicKey_eq {S : List Field} {w w' : World} (h : Touches S w w')
    (hS : Field.sessions ∉ S) (u : UserId) :
    w'.state.getUserPublicKey u = w.state.getUserPublicKey u := by
  have hs : (w'.state.sessions, _) = (w.state.sessions, _) := h .sessions hS
  unfold ServerState.getUserPublicKey
  rw [(Prod.mk.inj hs).1]

theorem Touches.getClient_eq {S : List Field} {w w' : World} (h : Touches S w w')
    (hS : Field.members ∉ S) (u : UserId) : w'.state.getClient u = w.state.getClient u :=
  congrArg (fun m => Table.get m u == some Member.client) (h .members hS)

section Mirrors

variable {key : PublicKey} {group g : String} {add : Bool} {e : Nat} {v : UserId}

theorem groups_mirrorGroup (w : World) (u : UserId) :
    ((mirrorGroup key group add e w u).state.conn v).identity.groups =
      if v = u ∧ w.state.getUserPublicKey u = some key then
        if add then pushGroup (w.state.conn v).identity.groups group
        else (w.state.conn v).identity.groups.filter (· ≠ group)
      else (w.state.conn v).identity.groups := by
  unfold mirrorGroup
  by_cases hk : w.state.getUserPublicKey u = some key
  · rw [if_neg (not_not.mpr hk)]
    by_cases hv : v = u
    · subst hv
      simp [hk, ServerState.setIdentity, ServerState.setConn]
    · simp [hv, ServerState.setIdentity, ServerState.setConn]
  · rw [if_pos hk, if_neg fun h => hk h.2]

/-- A mirror adds the group to connections of the key only. -/
theorem mem_foldl_mirrorGroup (l : List UserId) : ∀ w : World,
    g ∈ ((l.foldl (mirrorGroup key group add e) w).state.conn v).identity.groups →
      g ∈ (w.state.conn v).identity.groups ∨
        add = true ∧ g = group ∧ w.state.getUserPublicKey v = some key := by
  induction l with
  | nil => exact fun w hg => .inl hg
  | cons u l ih =>
    intro w hg
    have hkey := (touches_mirrorGroup key group add e w u).getUserPublicKey_eq (by decide) v
    rcases ih _ hg with hg | ⟨ha, hg, hk⟩
    · rw [groups_mirrorGroup] at hg
      split at hg
      · rename_i hu
        cases add with
        | false => exact .inl (List.mem_of_mem_filter hg)
        | true =>
          rcases mem_pushGroup.mp hg with hg | hg
          · exact .inl hg
          · exact .inr ⟨rfl, hg, hu.1 ▸ hu.2⟩
      · exact .inl hg
    · exact .inr ⟨ha, hg, hkey ▸ hk⟩

/-- A mirrored removal reaches every listed connection of the key. -/
theorem not_mem_foldl_mirrorGroup (l : List UserId) : ∀ w : World, v ∈ l →
    w.state.getUserPublicKey v = some key →
      group ∉ ((l.foldl (mirrorGroup key group false e) w).state.conn v).identity.groups := by
  induction l with
  | nil => exact fun w hv _ => absurd hv List.not_mem_nil
  | cons u l ih =>
    intro w hv hk hg
    have hkey := (touches_mirrorGroup key group false e w u).getUserPublicKey_eq (by decide) v
    rcases List.mem_cons.mp hv with rfl | hv
    · rcases mem_foldl_mirrorGroup l _ hg with hg | ⟨ha, -, -⟩
      · rw [groups_mirrorGroup, if_pos ⟨rfl, hk⟩] at hg
        simp at hg
      · exact Bool.noConfusion ha
    · exact ih _ hv (hkey.trans hk) hg

theorem mem_foldl_mirrorExpired (l : List (PublicKey × String)) : ∀ w : World,
    g ∈ ((l.foldl mirrorExpired w).state.conn v).identity.groups →
      g ∈ (w.state.conn v).identity.groups := by
  induction l with
  | nil => exact fun w hg => hg
  | cons c l ih =>
    intro w hg
    rcases mem_foldl_mirrorGroup _ w (ih _ hg) with hg | ⟨ha, -, -⟩
    · exact hg
    · exact Bool.noConfusion ha

/-- **The sweep reaches every live connection** of a lapsed membership. -/
theorem not_mem_foldl_mirrorExpired (l : List (PublicKey × String)) : ∀ w : World,
    (key, g) ∈ l → w.state.getClient v = true → w.state.getUserPublicKey v = some key →
      g ∉ ((l.foldl mirrorExpired w).state.conn v).identity.groups := by
  induction l with
  | nil => exact fun w hc _ _ => absurd hc List.not_mem_nil
  | cons c l ih =>
    intro w hc hv hk hg
    have ht : Touches [.identity, .log] w (mirrorExpired w c) :=
      touches_foldl_mirrorGroup c.1 c.2 false 0 w _
    rcases List.mem_cons.mp hc with rfl | hc
    · exact not_mem_foldl_mirrorGroup _ w (mem_snapshotClients.mpr hv) hk
        (mem_foldl_mirrorExpired l _ hg)
    · exact ih _ hc ((ht.getClient_eq (by decide) v).trans hv)
        ((ht.getUserPublicKey_eq (by decide) v).trans hk) hg

/-- Scrubbing a deleted group. -/
theorem groups_scrubGroup (w : World) (u : UserId) :
    ((scrubGroup group w u).state.conn v).identity.groups =
      if v = u then (w.state.conn v).identity.groups.filter (· ≠ group)
      else (w.state.conn v).identity.groups := by
  unfold scrubGroup
  split
  · by_cases hv : v = u
    · subst hv
      simp [ServerState.setIdentity, ServerState.setConn]
    · simp [hv, ServerState.setIdentity, ServerState.setConn]
  · rename_i hg
    split
    · rename_i hv
      subst hv
      refine (List.filter_eq_self.mpr fun x hx => ?_).symm
      simp only [List.contains_iff_mem] at hg
      exact decide_eq_true fun he => hg (he ▸ hx)
    · rfl

theorem groups_foldl_scrubGroup (l : List UserId) : ∀ w : World,
    ((l.foldl (scrubGroup group) w).state.conn v).identity.groups =
      if v ∈ l then (w.state.conn v).identity.groups.filter (· ≠ group)
      else (w.state.conn v).identity.groups := by
  induction l with
  | nil => exact fun w => rfl
  | cons u l ih =>
    intro w
    rw [List.foldl_cons, ih, groups_scrubGroup]
    by_cases hv : v = u
    · subst hv
      simp
    · simp [hv]

theorem mem_foldl_scrubGroup (l : List UserId) (w : World)
    (hg : g ∈ ((l.foldl (scrubGroup group) w).state.conn v).identity.groups) :
    g ∈ (w.state.conn v).identity.groups ∧ (v ∈ l → g ≠ group) := by
  rw [groups_foldl_scrubGroup] at hg
  split at hg
  · obtain ⟨hg, hne⟩ := List.mem_filter.mp hg
    exact ⟨hg, fun _ => of_decide_eq_true hne⟩
  · rename_i hv
    exact ⟨hg, fun hmem => absurd hmem hv⟩

end Mirrors

/-! ## Steps that mirror what they remove -/

/-- No live connection keeps a group that the step removes from the store alone. An authentication
removes what has run out for its key; a connection of the key may cache it only when the login
succeeds and reloads or supersedes that connection. A listing removes what has lapsed for the
registered keys, and a sweep lifts expired bans. -/
def ExpiryMirrored (cfg : Config) (w : World) (i : Input) : Prop :=
  match i.2 with
  | .envelope sender (.authenticate signature timestampMs cert) =>
    (w.state.conn sender.user).opened = true → ∀ pending ∈ w.state.pendingAuth.get sender.user,
      verifyAuth cfg i.1 pending signature timestampMs = .ok () → ∀ c ∈ w.cachedGroups,
        c.2.1 = pending.publicKey → w.store.RunsOut c.2.1 c.2.2 i.1.nowSecs →
          (authCheck cfg i.1 sender signature timestampMs cert w).1.isSome = true ∧
            (c.1 = sender.user ∨ w.state.superseded pending.publicKey (w.loginName pending)
              sender.user c.1 = true)
  | .envelope sender .requestRegisteredUsers =>
    (w.state.conn sender.user).opened = true → (w.state.conn sender.user).authenticated = true →
      (evaluateUserPermissions w.state w.store sender rootRoomUuid).contains
        Permissions.manageAcl = true →
      ∀ c ∈ w.cachedGroups, w.store.isRegistered c.2.1 = true →
        ¬ w.store.Lapsed c.2.1 c.2.2 i.1.nowSecs
  | .sweep => ∀ c ∈ w.cachedGroups, ¬ (c.2.2 = "banned" ∧ w.store.BanExpired c.2.1 i.1.nowSecs)
  | _ => True

instance (cfg : Config) (w : World) (i : Input) : Decidable (ExpiryMirrored cfg w i) := by
  unfold ExpiryMirrored
  split
  · exact @forall_prop_decidable _ _ inferInstance fun _ => inferInstance
  · infer_instance
  · infer_instance
  · infer_instance

section Steps

variable {cfg : Config} {env : Env} {w : World}

theorem backed_sendFrame (h : GroupsBacked w) (t : HandleId) (f : Frame) :
    GroupsBacked (w.sendFrame t f) := by
  have ht : Touches [.log] w (w.sendFrame t f) := .sendFrame .refl t f
  exact h.touches (ht.shrinks (by decide)) ht (by decide)

theorem backed_replyResult (t : HandleId) (c : String) {r : OpResult} (h : GroupsBacked r.2) :
    GroupsBacked (replyResult t c r) := by
  have ht : Touches [.log] r.2 (replyResult t c r) := Touches.replyResult t c .refl
  exact h.touches (ht.shrinks (by decide)) ht (by decide)

theorem backed_requirePermission (t : HandleId) (room : Uuid) (p : Permissions)
    {rest : World → World} (h : GroupsBacked w) (hrest : GroupsBacked (rest w)) :
    GroupsBacked (w.requirePermission t room p rest) := by
  unfold requirePermission
  split
  · exact hrest
  · exact backed_sendFrame h t _

/-- A mirrored store change: what was added is recorded, and so is all that is cached besides what
was removed. -/
theorem backed_foldl_mirrorGroup {key : PublicKey} {group : String} {add : Bool} {e : Nat}
    (hadd : add = true → group ∈ w.store.getUserGroups key)
    (hkept : ∀ u k g, (u, k, g) ∈ w.cachedGroups → (add = false → k = key → g ≠ group) →
      g ∈ w.store.getUserGroups k) :
    GroupsBacked (w.state.snapshotClients.foldl (mirrorGroup key group add e) w) := by
  have ht := touches_foldl_mirrorGroup key group add e w w.state.snapshotClients
  rintro ⟨u, k, g⟩ hc
  obtain ⟨hu, hk, hg, hne⟩ := mem_cachedGroups.mp hc
  rw [ht.getClient_eq (by decide)] at hu
  rw [ht.getUserPublicKey_eq (by decide)] at hk
  rw [ht.getUserGroups_eq (by decide)]
  rcases mem_foldl_mirrorGroup _ w hg with hold | ⟨ha, rfl, hkey⟩
  · refine hkept u k g (mem_cachedGroups.mpr ⟨hu, hk, hold, hne⟩) ?_
    rintro rfl rfl rfl
    exact not_mem_foldl_mirrorGroup _ w (mem_snapshotClients.mpr hu) hk hg
  · obtain rfl := Option.some.inj (hk.symm.trans hkey)
    exact hadd ha

theorem backed_applySetUserGroupByKey (h : GroupsBacked w) (key : PublicKey) (group : String)
    (add : Bool) (e : Nat) : GroupsBacked (w.applySetUserGroupByKey key group add e).2 := by
  unfold applySetUserGroupByKey
  split
  · exact h
  split
  · exact h
  refine backed_foldl_mirrorGroup (w := w.mapStore fun store =>
    if add then store.addUserToGroupWithExpiry key group e
    else store.removeUserFromGroup key group) ?_ fun u k g hc hkept => ?_
  · rintro rfl
    have hm : (w.store.addUserToGroupWithExpiry key group e).membership key group = _ :=
      Persistence.membership_addUserToGroupWithExpiry
    rw [if_pos ⟨rfl, rfl⟩] at hm
    exact of_decide_eq_true (Prod.mk.inj hm).1
  · have hmem := h (u, k, g) hc
    cases add with
    | true =>
      have hm : (w.store.addUserToGroupWithExpiry key group e).membership k g = _ :=
        Persistence.membership_addUserToGroupWithExpiry
      split at hm
      · exact of_decide_eq_true (Prod.mk.inj hm).1
      · exact (Persistence.mem_of_membership hm).mpr hmem
    | false =>
      have hm : (w.store.removeUserFromGroup key group).membership k g = _ :=
        Persistence.membership_removeUserFromGroup
      rw [if_neg fun hkg => hkept rfl hkg.1 hkg.2] at hm
      exact (Persistence.mem_of_membership hm).mpr hmem

theorem backed_applyDeleteGroup (h : GroupsBacked w) (name : String) :
    GroupsBacked (w.applyDeleteGroup name).2 := by
  unfold applyDeleteGroup
  split
  · exact h
  have ht : Touches [.identity, .log] w (w.state.snapshotClients.foldl (scrubGroup name) w) :=
    .foldl (fun w u => touches_scrubGroup name w u) _
  rintro ⟨u, k, g⟩ hc
  obtain ⟨hu, hk, hg, hne⟩ := mem_cachedGroups.mp hc
  have hu : w.state.getClient u = true := (ht.getClient_eq (by decide) u).symm.trans hu
  have hk : w.state.getUserPublicKey u = some k :=
    (ht.getUserPublicKey_eq (by decide) u).symm.trans hk
  obtain ⟨hg, hname⟩ := mem_foldl_scrubGroup _ w hg
  have hmem := h (u, k, g) (mem_cachedGroups.mpr ⟨hu, hk, hg, hne⟩)
  have hm : ((w.state.snapshotClients.foldl (scrubGroup name) w).store.removeGroupFromAllUsers
      name).membership k g = _ := Persistence.membership_removeGroupFromAllUsers
  rw [if_neg fun hkg => hname (mem_snapshotClients.mpr hu) hkg.1] at hm
  refine (Persistence.mem_of_membership hm).mpr ?_
  rwa [ht.getUserGroups_eq (by decide)]

theorem backed_banRecord (h : GroupsBacked w) (target : UserId) (d : Nat) (reason actor : String) :
    GroupsBacked (w.banRecord env target d reason actor).2 := by
  unfold banRecord
  split
  · exact h
  split
  · exact h
  split
  · exact h
  have hgroups : ∀ k, (ensureBannedGroup w.store).getUserGroups k = w.store.getUserGroups k := by
    intro k
    unfold ensureBannedGroup
    split <;> rfl
  dsimp only
  split
  · exact fun c hc => (hgroups c.2.1).symm ▸ h c hc
  rename_i targetKey htarget
  rintro ⟨u, k, g⟩ hc
  obtain ⟨hu, hk, hg, hne⟩ := mem_cachedGroups.mp hc
  show g ∈ ((ensureBannedGroup w.store).addUserToGroup targetKey "banned").getUserGroups k
  have hm : ((ensureBannedGroup w.store).addUserToGroup targetKey "banned").membership k g = _ :=
    Persistence.membership_addUserToGroupWithExpiry
  split at hm
  · exact of_decide_eq_true (Prod.mk.inj hm).1
  rename_i hother
  refine (Persistence.mem_of_membership hm).mpr ?_
  rw [hgroups]
  refine h (u, k, g) (mem_cachedGroups.mpr ⟨hu, hk, ?_, hne⟩)
  by_cases htu : u = target
  · subst htu
    have hg : g ∈ pushGroup (w.state.conn u).identity.groups "banned" := by
      simpa [ServerState.setIdentity, ServerState.setConn] using hg
    refine (mem_pushGroup.mp hg).resolve_right fun hb => hother ⟨?_, hb⟩
    exact Option.some.inj (hk.symm.trans htarget)
  · simpa [ServerState.setIdentity, ServerState.setConn, htu] using hg

theorem backed_applyBan (h : GroupsBacked w) (target : UserId) (d : Nat) (reason actor : String) :
    GroupsBacked (w.applyBan env target d reason actor).2 := by
  have hrec : GroupsBacked (w.banRecord env target d reason actor).2 :=
    backed_banRecord h target d reason actor
  rw [applyBan_eq]
  split
  · rename_i he
    rwa [he] at hrec
  · rename_i w' he
    rw [he] at hrec
    exact hrec.touches (shrinks_banDisconnect w' target d reason actor)
      (touches_banDisconnect w' target d reason actor) (by decide)

theorem backed_handleRequestRegisteredUsers (h : GroupsBacked w) {sender : HandleId}
    (hkept : (evaluateUserPermissions w.state w.store sender rootRoomUuid).contains
      Permissions.manageAcl = true → ∀ c ∈ w.cachedGroups, w.store.isRegistered c.2.1 = true →
        ¬ w.store.Lapsed c.2.1 c.2.2 env.nowSecs) :
    GroupsBacked (handleRequestRegisteredUsers env sender w) := by
  unfold handleRequestRegisteredUsers requirePermission
  split
  · rename_i hperm
    rintro ⟨u, k, g⟩ hc
    have hc : (u, k, g) ∈ w.cachedGroups := hc
    have hlisted : k ∈ w.store.listRegisteredUsers.map Prod.fst →
        ¬ w.store.Lapsed k g env.nowSecs := by
      intro hk
      obtain ⟨⟨k, user⟩, hmem, rfl⟩ := List.mem_map.mp hk
      have hget := Table.mem_toPairs.mp ((List.perm_insertionSort _ _).mem_iff.mp hmem)
      exact hkept hperm _ hc (by simp [Persistence.isRegistered, hget])
    have hm := Persistence.membership_listing
      (w.state.snapshotClients.filterMap w.state.getUserPublicKey) w.store.listRegisteredUsers
      ([], w.store) hlisted
    exact (Persistence.mem_of_membership hm).mpr (h _ hc)
  · exact backed_sendFrame h sender _

/-- **A login** loads recorded groups, and the connections of the key that stay cache nothing that
has lapsed. -/
theorem backed_publishAuth {sender : HandleId} {pending : PendingAuth} {session : SessionEntry}
    (hd : w.store.DistinctGroups) (hkey : session.userPublicKey = pending.publicKey)
    (hkept : ∀ c ∈ w.cachedGroups, c.1 ≠ sender.user →
      w.state.superseded pending.publicKey (w.loginName pending) sender.user c.1 = false →
        c.2.2 ∈ w.store.getUserGroups c.2.1 ∧
          (c.2.1 = pending.publicKey → ¬ w.store.Lapsed c.2.1 c.2.2 env.nowSecs)) :
    GroupsBacked (w.publishAuth cfg env sender pending session) := by
  have hmark := touches_markAuthenticated w env sender pending
  have hevict := touches_evictSupersededSessions (w.markAuthenticated env sender pending)
    pending.publicKey (w.loginName pending) sender.user
  have henter := touches_enterServer cfg (((w.markAuthenticated env sender
    pending).evictSupersededSessions pending.publicKey (w.loginName pending) sender.user).mapState
      (·.addSession sender.user session)) sender pending.publicKey
  rw [publishAuth_eq]
  dsimp only
  rw [displayNameOf_markAuthenticated]
  rintro ⟨u, k, g⟩ hc
  obtain ⟨hu, hk, hg, hne⟩ := mem_cachedGroups.mp hc
  rw [henter.getClient_eq (by decide)] at hu
  rw [henter.getUserPublicKey_eq (by decide)] at hk
  rw [henter.groups_eq (by decide)] at hg
  rw [henter.getUserGroups_eq (by decide)]
  have hg : g ∈ ((w.markAuthenticated env sender pending).state.conn u).identity.groups :=
    hevict.groups_eq (by decide) u ▸ hg
  show g ∈ ((w.markAuthenticated env sender pending).evictSupersededSessions pending.publicKey
    (w.loginName pending) sender.user).store.getUserGroups k
  rw [hevict.getUserGroups_eq (by decide)]
  show g ∈ ((w.store.addKnownKey pending.publicKey).activeUserGroups pending.publicKey
    env.nowSecs).2.getUserGroups k
  by_cases hsender : u = sender.user
  · subst hsender
    obtain rfl : k = pending.publicKey := by
      have hself : (some session).map SessionEntry.userPublicKey = some k := by
        rw [← hk]
        exact congrArg _ (Table.get_set_self _ _ _).symm
      exact (Option.some.inj hself).symm.trans hkey
    have hg : g ∈ userGroupList ((w.store.addKnownKey pending.publicKey).activeUserGroups
        pending.publicKey env.nowSecs).1 none := by
      unfold markAuthenticated at hg
      simpa [ServerState.setIdentity, ServerState.setConn] using hg
    rcases mem_userGroupList.mp hg with rfl | hg | hg
    · exact absurd rfl hne
    · exact Persistence.mem_getUserGroups_of_active hd hg
    · cases hg
  · rw [identity_markAuthenticated_of_ne hsender] at hg
    have hu : ((w.markAuthenticated env sender pending).evictSupersededSessions pending.publicKey
      (w.loginName pending) sender.user).state.getClient u = true := hu
    rw [getClient_evictSupersededSessions, superseded_markAuthenticated, Bool.and_eq_true,
      hmark.getClient_eq (by decide), Bool.not_eq_true'] at hu
    have hk : w.state.getUserPublicKey u = some k := by
      have hse : (((w.markAuthenticated env sender pending).evictSupersededSessions
          pending.publicKey (w.loginName pending) sender.user).state.sessions.set sender.user
            session).get u = _ := Table.get_set_ne hsender
      rw [get_sessions_evictSupersededSessions, superseded_markAuthenticated,
        if_neg (Bool.eq_false_iff.mp hu.2)] at hse
      rw [← hmark.getUserPublicKey_eq (by decide), ← hk]
      exact congrArg (Option.map SessionEntry.userPublicKey) hse.symm
    obtain ⟨hmem, hlapsed⟩ := hkept _ (mem_cachedGroups.mpr ⟨hu.1, hk, hg, hne⟩) hsender hu.2
    have hm : ((w.store.addKnownKey pending.publicKey).activeUserGroups pending.publicKey
        env.nowSecs).2.membership k g = (w.store.addKnownKey pending.publicKey).membership k g :=
      Persistence.membership_activeUserGroups_keep hlapsed
    exact (Persistence.mem_of_membership hm).mpr hmem

theorem backed_handleAuthenticate (h : GroupsBacked w) (hd : w.store.DistinctGroups)
    {sender : HandleId} {signature : List UInt8} {timestampMs : Int}
    {cert : Option SessionCertificate}
    (hkept : ∀ pending ∈ w.state.pendingAuth.get sender.user,
      verifyAuth cfg env pending signature timestampMs = .ok () → ∀ c ∈ w.cachedGroups,
        c.2.1 = pending.publicKey → w.store.RunsOut c.2.1 c.2.2 env.nowSecs →
          (authCheck cfg env sender signature timestampMs cert w).1.isSome = true ∧
            (c.1 = sender.user ∨ w.state.superseded pending.publicKey (w.loginName pending)
              sender.user c.1 = true)) :
    GroupsBacked (handleAuthenticate cfg env sender signature timestampMs cert w) := by
  rw [handleAuthenticate_eq]
  rcases authCheck_cases cfg env sender signature timestampMs cert w with
    ⟨pending, session, hp, hv, -, hkey, hc⟩ | ⟨w', error, hw', hc⟩
  · have ht := touches_checked w sender pending.publicKey env.nowSecs
    rw [hc]
    refine backed_publishAuth (hd.trims (Persistence.trims_banCheck _ _ _)) hkey ?_
    rintro ⟨u, k, g⟩ hcached hu hsup
    have hcached : (u, k, g) ∈ w.cachedGroups := hcached
    have hsup : w.state.superseded pending.publicKey (w.loginName pending) sender.user u = false := by
      rw [← ht.loginName (by decide)]
      exact hsup
    have hstays : k = pending.publicKey → ¬ w.store.RunsOut k g env.nowSecs := by
      intro hk hout
      obtain ⟨-, hu' | hsup'⟩ := hkept pending hp hv _ hcached hk hout
      · exact hu hu'
      · exact Bool.noConfusion (hsup.symm.trans hsup')
    have hm : (banCheck w.store pending.publicKey env.nowSecs).2.membership k g = _ :=
      Persistence.membership_banCheck hstays
    refine ⟨(Persistence.mem_of_membership hm).mpr (h _ hcached), fun hk hl => ?_⟩
    exact hstays hk (.inl ((Persistence.lapsed_of_membership hm).mp hl))
  · rw [hc]
    have hfail : ∀ w' : World, GroupsBacked w' → GroupsBacked (w'.sendAuthFailed sender error) := by
      intro w' h'
      have ht : Touches [.log, .closed] w' (w'.sendAuthFailed sender error) :=
        .sendAuthFailed .refl sender error
      exact h'.touches (ht.shrinks (by decide)) ht (by decide)
    refine hfail w' ?_
    rcases hw' with ⟨rfl, -⟩ | rfl | ⟨pending, ⟨hp, hv⟩, rfl⟩
    · exact h
    · exact h
    · rintro ⟨u, k, g⟩ hcached
      have hm : (banCheck w.store pending.publicKey env.nowSecs).2.membership k g = _ :=
        Persistence.membership_banCheck fun hk hout => by
          obtain ⟨hsome, -⟩ := hkept pending hp hv (u, k, g) hcached hk hout
          rw [hc] at hsome
          exact Bool.noConfusion hsome
      exact (Persistence.mem_of_membership hm).mpr (h (u, k, g) hcached)

/-- **The sweep** leaves a cached group only when it is recorded and has not lapsed. -/
theorem cached_sweepExpired (h : GroupsBacked w)
    (hkept : ∀ c ∈ w.cachedGroups, ¬ (c.2.2 = "banned" ∧ w.store.BanExpired c.2.1 env.nowSecs)) :
    ∀ c ∈ (w.sweepExpired env).cachedGroups,
      c.2.2 ∈ (w.sweepExpired env).store.getUserGroups c.2.1 ∧
        ¬ (w.sweepExpired env).store.Lapsed c.2.1 c.2.2 env.nowSecs := by
  rintro ⟨u, k, g⟩ hc
  obtain ⟨hu, hk, hg, hne⟩ := mem_cachedGroups.mp hc
  let lifted := (w.store.sweepExpiredBans env.nowSecs).2
  let swept := w.mapStore fun _ => (lifted.sweepExpiredMemberships env.nowSecs).2
  have hsweep : w.sweepExpired env =
      (lifted.sweepExpiredMemberships env.nowSecs).1.foldl mirrorExpired swept := rfl
  have ht := touches_foldl_mirrorExpired swept (lifted.sweepExpiredMemberships env.nowSecs).1
  rw [hsweep] at hu hk hg ⊢
  have hstore : ((lifted.sweepExpiredMemberships env.nowSecs).1.foldl mirrorExpired
      swept).store.membership k g = swept.store.membership k g := by
    have hgroups : (_, _) = (swept.store.userGroups, swept.store.groupExpiries) :=
      ht .userGroups (by decide)
    unfold Persistence.membership Persistence.getUserGroups
    rw [(Prod.mk.inj hgroups).1, (Prod.mk.inj hgroups).2]
  have hu : w.state.getClient u = true := (ht.getClient_eq (by decide) u).symm.trans hu
  have hk : w.state.getUserPublicKey u = some k :=
    (ht.getUserPublicKey_eq (by decide) u).symm.trans hk
  have hcached : (u, k, g) ∈ w.cachedGroups :=
    mem_cachedGroups.mpr ⟨hu, hk, mem_foldl_mirrorExpired _ swept hg, hne⟩
  have hnot : (k, g) ∉ (lifted.sweepExpiredMemberships env.nowSecs).1 := fun hmem =>
    not_mem_foldl_mirrorExpired _ swept hmem hu hk hg
  have hlifted : lifted.membership k g = w.store.membership k g :=
    Persistence.membership_sweepExpiredBans (hkept _ hcached)
  have hswept : swept.store.membership k g = lifted.membership k g := by
    refine Persistence.membership_sweepExpiredMemberships.trans (if_neg hnot)
  have hm := hstore.trans hswept
  refine ⟨(Persistence.mem_of_membership (hm.trans hlifted)).mpr (h _ hcached), fun hl => hnot ?_⟩
  exact Persistence.mem_sweepExpiredMemberships ((Persistence.lapsed_of_membership hm).mp hl)

theorem backed_manageAcl (h : GroupsBacked w) (t : HandleId) (c : String) {op : World → OpResult}
    (hop : GroupsBacked (op w).2) : GroupsBacked (manageAcl t c op w) :=
  backed_requirePermission _ _ _ h (backed_replyResult t c hop)

theorem backed_handleAuthenticated (h : GroupsBacked w) {t : HandleId} {payload : Payload}
    (hlist : payload = .requestRegisteredUsers →
      (evaluateUserPermissions w.state w.store t rootRoomUuid).contains
        Permissions.manageAcl = true → ∀ c ∈ w.cachedGroups, w.store.isRegistered c.2.1 = true →
          ¬ w.store.Lapsed c.2.1 c.2.2 env.nowSecs) :
    GroupsBacked (handleAuthenticated cfg env t payload w) := by
  have ht := touches_handleAuthenticated cfg env t payload w
  have hf : Fades w (handleAuthenticated cfg env t payload w) := fades_handleAuthenticated t payload
  unfold handleAuthenticated at ht hf ⊢
  cases payload
  case banUser target d reason =>
    refine backed_requirePermission _ _ _ h ?_
    split
    · exact backed_sendFrame h _ _
    · exact backed_replyResult _ _ (backed_applyBan h _ _ _ _)
  case deleteGroup name => exact backed_manageAcl h _ _ (backed_applyDeleteGroup h name)
  case setUserGroup target group add e =>
    refine backed_manageAcl h _ _ ?_
    unfold applySetUserGroup
    split
    · exact h
    · exact backed_applySetUserGroupByKey h _ _ _ _
  case setRegisteredUserGroup key group add e =>
    refine backed_manageAcl h _ _ ?_
    split
    · exact h
    · exact backed_applySetUserGroupByKey h _ _ _ _
  case requestRegisteredUsers => exact backed_handleRequestRegisteredUsers h (hlist rfl)
  case authenticate | clientHello =>
    show GroupsBacked (handleController env t _ w)
    unfold handleController
    split
    · exact h
    · exact h
  all_goals exact h.touches hf.toShrinks ht (by dsimp only [footprint]; decide)

/-- A connect lets in a client without a session: whoever has one was there before. -/
theorem SessionsAssigned.client_of_handleConnect (ha : SessionsAssigned w) {u : UserId}
    {k : PublicKey} (hu : w.handleConnect.state.getClient u = true)
    (hk : w.state.getUserPublicKey u = some k) : w.state.getClient u = true := by
  have hnew : u ≠ w.state.nextUserId := by
    rintro rfl
    unfold ServerState.getUserPublicKey at hk
    rw [(ha _ le_rfl).1] at hk
    cases hk
  have hu : ((w.state.members.set w.state.nextUserId .client).get u == some Member.client) = true := hu
  rwa [Table.get_set_ne hnew] at hu

theorem backed_handleConnect (h : GroupsBacked w) (ha : SessionsAssigned w) :
    GroupsBacked w.handleConnect := by
  have ht := touches_handleConnect w
  rintro ⟨u, k, g⟩ hc
  obtain ⟨hu, hk, hg, hne⟩ := mem_cachedGroups.mp hc
  rw [ht.getUserPublicKey_eq (by decide)] at hk
  rw [ht.groups_eq (by decide)] at hg
  rw [ht.getUserGroups_eq (by decide)]
  exact h (u, k, g) (mem_cachedGroups.mpr ⟨ha.client_of_handleConnect hu hk, hk, hg, hne⟩)

theorem backed_step {i : Input} (h : GroupsBacked w) (hd : w.store.DistinctGroups)
    (ha : SessionsAssigned w) (hm : ExpiryMirrored cfg w i) : GroupsBacked (stepInput cfg w i) := by
  obtain ⟨env, e⟩ := i
  have ht := touches_step cfg env w e
  show GroupsBacked (step cfg env w e)
  cases e with
  | connect => exact backed_handleConnect h ha
  | sweep => exact fun c hc => (cached_sweepExpired h hm c hc).1
  | readTimeout | datagram =>
    have hshrinks := ht.shrinks (by dsimp only [Event.footprint]; decide)
    exact h.touches hshrinks ht (by dsimp only [Event.footprint]; decide)
  | connectionLost u =>
    have hf : Fades w (step cfg env w (.connectionLost u)) := fades_step (by simp) rfl
    exact h.touches hf.toShrinks ht (by dsimp only [Event.footprint]; decide)
  | envelope t payload =>
    by_cases hopen : (w.state.conn t.user).opened = true
    swap
    · simpa only [step, if_neg hopen] using h
    simp only [step, if_pos hopen] at ht ⊢
    unfold handleEnvelope at ht ⊢
    cases payload
    case clientHello =>
      have hshrinks := ht.shrinks (by dsimp only [Event.footprint, footprint]; decide)
      exact h.touches hshrinks ht (by dsimp only [Event.footprint, footprint]; decide)
    case authenticate signature timestampMs cert => exact backed_handleAuthenticate h hd (hm hopen)
    case disconnect | other => exact h
    case requestRegisteredUsers =>
      dsimp only
      by_cases hauth : (w.state.conn t.user).authenticated = true
      · rw [if_pos hauth]
        exact backed_handleAuthenticated h fun _ => hm hopen hauth
      · rwa [if_neg hauth]
    all_goals
      dsimp only
      split
      · exact backed_handleAuthenticated h fun he => by cases he
      · exact h

theorem get_sessions_eq_of_touches {S : List Field} {w' : World} (ht : Touches S w w')
    (hS : Field.sessions ∉ S) (u : UserId) : w'.state.sessions.get u = w.state.sessions.get u := by
  have hs : (w'.state.sessions, _) = (w.state.sessions, _) := ht .sessions hS
  rw [(Prod.mk.inj hs).1]

/-- An authentication creates no session but its own. -/
theorem get_sessions_handleAuthenticate {sender : HandleId} {signature : List UInt8}
    {timestampMs : Int} {cert : Option SessionCertificate} {u : UserId} (hu : u ≠ sender.user)
    (hnone : w.state.sessions.get u = none) :
    (handleAuthenticate cfg env sender signature timestampMs cert w).state.sessions.get u = none := by
  rw [handleAuthenticate_eq]
  rcases authCheck_cases cfg env sender signature timestampMs cert w with
    ⟨pending, session, -, -, -, -, hc⟩ | ⟨w', error, hw', hc⟩
  · rw [hc]
    dsimp only
    rw [publishAuth_eq]
    dsimp only
    rw [get_sessions_eq_of_touches (touches_enterServer _ _ _ _) (by decide)]
    refine (Table.get_set_ne hu).trans ?_
    rw [get_sessions_evictSupersededSessions,
      get_sessions_eq_of_touches (touches_markAuthenticated _ _ _ _) (by decide)]
    exact ite_eq_left_iff.mpr fun _ => hnone
  · rw [hc]
    rcases hw' with ⟨rfl, -⟩ | rfl | ⟨pending, -, rfl⟩
    · exact hnone
    · exact hnone
    · exact hnone

theorem sessionsAssigned_step {i : Input} (h : SessionsAssigned w) :
    SessionsAssigned (stepInput cfg w i) := by
  obtain ⟨env, e⟩ := i
  show SessionsAssigned (step cfg env w e)
  intro u hu
  have hold := h u (nextUserId_step.trans hu)
  have ht := touches_step cfg env w e
  by_cases hc : e = .connect
  · subst hc
    have hu : w.state.nextUserId < u := hu
    refine ⟨hold.1, ?_⟩
    show (Function.update w.state.conn w.state.nextUserId _ u).opened = false
    rw [Function.update_of_ne hu.ne']
    exact hold.2
  refine ⟨?_, (opened_step hc u).trans hold.2⟩
  by_cases hh : e.isHandshake = false
  · refine Option.eq_none_iff_forall_ne_some.mpr fun s hs => ?_
    exact Option.some_ne_none s (((fades_step hc hh).session u s hs).symm.trans hold.1)
  unfold Event.isHandshake at hh
  split at hh
  · exact (get_sessions_eq_of_touches ht (by dsimp only [Event.footprint, footprint]; decide) u).trans
      hold.1
  · rename_i t signature timestampMs cert
    by_cases hopen : (w.state.conn t.user).opened = true
    · simp only [step, if_pos hopen]
      refine get_sessions_handleAuthenticate (fun heq => ?_) hold.1
      exact Bool.noConfusion (hopen.symm.trans (heq ▸ hold.2))
    · simp only [step, if_neg hopen]
      exact hold.1
  · exact absurd rfl hh

end Steps

/-! ## Every run -/

/-- What every run with mirrored expiry keeps. -/
structure CacheSound (w : World) : Prop where
  backed : GroupsBacked w
  distinct : w.store.DistinctGroups
  assigned : SessionsAssigned w

theorem cacheSound_step {cfg : Config} {w : World} {i : Input} (hm : ExpiryMirrored cfg w i)
    (h : CacheSound w) : CacheSound (stepInput cfg w i) where
  backed := backed_step h.backed h.distinct h.assigned hm
  distinct := h.distinct.edited edited_step
  assigned := sessionsAssigned_step h.assigned

theorem cacheSound_init {store : Persistence} (h : store.DistinctGroups) :
    CacheSound (World.init store) where
  backed := fun _ hc => absurd hc List.not_mem_nil
  distinct := h
  assigned := fun _ _ => ⟨rfl, rfl⟩

/-- What the sweep leaves cached is in force. -/
theorem groupsActive_sweepExpired {w : World} {env : Env} (h : GroupsBacked w)
    (hm : ∀ c ∈ w.cachedGroups, ¬ (c.2.2 = "banned" ∧ w.store.BanExpired c.2.1 env.nowSecs)) :
    GroupsActive (w.sweepExpired env) env.nowSecs := by
  intro u hu k hk g hg
  by_cases hne : g = "default"
  · exact mem_userGroupList.mpr (.inl hne)
  · obtain ⟨hmem, hl⟩ := cached_sweepExpired h hm (u, k, g) (mem_cachedGroups.mpr ⟨hu, hk, hg, hne⟩)
    exact mem_userGroupList.mpr (.inr (.inl (Persistence.mem_activeUserGroups hmem hl)))

theorem distinctGroups_sampleAdminStore : sampleAdminStore.DistinctGroups := by
  have hempty : sampleStore.DistinctGroups := by
    intro k
    have hnone : sampleStore.userGroups.get k = none := Table.get_empty k
    rw [Persistence.getUserGroups, hnone]
    exact List.nodup_nil
  exact hempty.addUserToGroup (Bytes.rep 32 9) "admin" 0

def sampleLate : Env := { sampleEnv with nowSecs := 2000 }

/-- The second user is registered and an administrator until second 1500. -/
def sampleTimedAdmin : List Input :=
  sampleLogin 1 (Bytes.rep 32 9) "ann" ++ sampleLogin 2 (Bytes.rep 32 8) "bob" ++
    [sampleMsg 1 (.registerUser (some 2)), sampleMsg 1 (.setUserGroup 2 "admin" true 1500)]

end Rumble.Server
