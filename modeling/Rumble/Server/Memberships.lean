import Rumble.Server.Handlers

/-!
# Memberships and the ban check

How the store operations act on one membership, and what the ban check of an authentication
answers. A membership is held or not and may carry an expiry; it has lapsed when its expiry has
passed.
-/

namespace Rumble.Server

open Rumble.Lib

namespace Persistence

variable {p : Persistence} {k pk : PublicKey} {g g' : String} {now : Nat}

/-- A membership as stored: held or not, and its expiry entry. -/
def membership (p : Persistence) (k : PublicKey) (g : String) : Bool × Option Nat :=
  (decide (g ∈ p.getUserGroups k), p.groupExpiries.get (k, g))

/-- The membership carries an expiry that has passed. -/
def Lapsed (p : Persistence) (k : PublicKey) (g : String) (now : Nat) : Prop :=
  p.getGroupExpiry k g ≠ 0 ∧ p.getGroupExpiry k g ≤ now

theorem getUserGroups_removeUserFromGroup :
    (p.removeUserFromGroup pk g').getUserGroups k =
      if k = pk then (p.getUserGroups k).filter (· ≠ g') else p.getUserGroups k := by
  simp only [removeUserFromGroup, updateUserGroups, getUserGroups]
  rw [Table.get_set]
  by_cases h : k = pk
  · subst h; simp
  · simp [h]

theorem membership_removeUserFromGroup :
    (p.removeUserFromGroup pk g').membership k g =
      if k = pk ∧ g = g' then (false, none) else p.membership k g := by
  have hexp : (p.removeUserFromGroup pk g').groupExpiries.get (k, g) =
      if (k, g) = (pk, g') then none else p.groupExpiries.get (k, g) := Table.get_del _ _ _
  unfold membership
  rw [getUserGroups_removeUserFromGroup, hexp]
  by_cases hk : k = pk
  · by_cases hg : g = g'
    · simp [hk, hg]
    · simp [hk, hg]
  · simp [hk]

theorem membership_addUserToGroupWithExpiry {e : Nat} :
    (p.addUserToGroupWithExpiry pk g' e).membership k g =
      if k = pk ∧ g = g' then (true, if e = 0 then none else some e) else p.membership k g := by
  have hgs : (p.addUserToGroupWithExpiry pk g' e).getUserGroups k =
      if k = pk then (if g' ∈ p.getUserGroups k then p.getUserGroups k
        else p.getUserGroups k ++ [g']) else p.getUserGroups k := by
    have hug : (p.addUserToGroupWithExpiry pk g' e).userGroups = p.userGroups.set pk
        (if g' ∈ p.getUserGroups pk then p.getUserGroups pk else p.getUserGroups pk ++ [g']) := by
      unfold addUserToGroupWithExpiry setGroupExpiry
      split <;> rfl
    simp only [getUserGroups] at hug ⊢
    rw [hug, Table.get_set]
    by_cases hk : k = pk
    · subst hk; simp
    · simp [hk]
  have hexp : (p.addUserToGroupWithExpiry pk g' e).groupExpiries.get (k, g) =
      if (k, g) = (pk, g') then (if e = 0 then none else some e)
      else p.groupExpiries.get (k, g) := by
    unfold addUserToGroupWithExpiry setGroupExpiry
    by_cases he : e = 0
    · rw [if_pos he, if_pos he]; exact Table.get_del _ _ _
    · rw [if_neg he, if_neg he]; exact Table.get_set _ _ _ _
  unfold membership
  rw [hgs, hexp]
  by_cases hk : k = pk
  · by_cases hg : g = g'
    · subst hk hg
      by_cases hm : g ∈ p.getUserGroups k <;> simp [hm]
    · subst hk
      by_cases hm : g' ∈ p.getUserGroups k <;> simp [hm, hg]
  · simp [hk]

/-- Removing a list of memberships removes exactly those. -/
theorem membership_foldl_remove (l : List (PublicKey × String)) (p : Persistence) :
    (l.foldl (fun p e => p.removeUserFromGroup e.1 e.2) p).membership k g =
      if (k, g) ∈ l then (false, none) else p.membership k g := by
  induction l generalizing p with
  | nil => simp
  | cons e l ih =>
    rw [List.foldl_cons, ih, membership_removeUserFromGroup]
    by_cases he : (k, g) = e
    · simp [← he]
    · have : ¬ (k = e.1 ∧ g = e.2) := fun h => he (Prod.ext h.1 h.2)
      simp [he, this]

/-- Scrubbing a group removes it from every stored key. -/
theorem membership_removeGroupFromAllUsers :
    (p.removeGroupFromAllUsers g').membership k g =
      if g = g' ∧ k ∈ p.userGroups.toPairs.map Prod.fst then (false, none)
      else p.membership k g := by
  have hfold : p.removeGroupFromAllUsers g' =
      ((p.userGroups.toPairs.map Prod.fst).map fun pk => (pk, g')).foldl
        (fun p e => p.removeUserFromGroup e.1 e.2) p := by
    rw [List.foldl_map]
    rfl
  rw [hfold, membership_foldl_remove]
  congr 1
  simp only [List.mem_map, Prod.mk.injEq, eq_iff_iff]
  constructor
  · rintro ⟨pk, h, rfl, rfl⟩
    exact ⟨rfl, h⟩
  · rintro ⟨rfl, h⟩
    exact ⟨k, h, rfl, rfl⟩

theorem not_member_removeGroupFromAllUsers :
    ((p.removeGroupFromAllUsers g).membership k g).1 = false := by
  rw [membership_removeGroupFromAllUsers]
  split
  · rfl
  · rename_i h
    have hget : p.userGroups.get k = none := by
      by_contra hne
      obtain ⟨gs, hgs⟩ := Option.ne_none_iff_exists'.mp hne
      exact h ⟨rfl, List.mem_map.mpr ⟨(k, gs), Table.mem_toPairs.mpr hgs, rfl⟩⟩
    simp [membership, getUserGroups, hget]

/-! ## The lazy expiry loop -/

theorem getGroupExpiry_of_membership {q : Persistence} (h : q.membership k g = p.membership k g) :
    q.getGroupExpiry k g = p.getGroupExpiry k g := by
  have := congrArg Prod.snd h
  simp only [membership] at this
  simp only [getGroupExpiry, this]

/-- One loop step keeps a membership that has not lapsed. -/
theorem membership_activeStep {acc : List String × Persistence} (h : ¬ acc.2.Lapsed k g now) :
    (activeStep pk now acc g').2.membership k g = acc.2.membership k g := by
  unfold activeStep
  dsimp only
  split
  · rename_i hl
    rw [membership_removeUserFromGroup, if_neg]
    rintro ⟨rfl, rfl⟩
    exact h hl
  · rfl

theorem membership_foldl_activeStep (gs : List String) :
    ∀ acc : List String × Persistence, ¬ acc.2.Lapsed k g now →
      (gs.foldl (activeStep pk now) acc).2.membership k g = acc.2.membership k g := by
  induction gs with
  | nil => exact fun acc _ => rfl
  | cons g' gs ih =>
    intro acc h
    have h1 : (activeStep pk now acc g').2.membership k g = _ := membership_activeStep h
    rw [List.foldl_cons, ih, h1]
    unfold Lapsed at h ⊢
    rwa [getGroupExpiry_of_membership h1]

/-- A membership that has not lapsed survives the loop. -/
theorem membership_activeUserGroups (h : ¬ p.Lapsed k g now) :
    (p.activeUserGroups pk now).2.membership k g = p.membership k g :=
  membership_foldl_activeStep _ ([], p) h

/-- A held membership that has not lapsed is in force. -/
theorem mem_activeUserGroups (hg : g ∈ p.getUserGroups pk) (h : ¬ p.Lapsed pk g now) :
    g ∈ (p.activeUserGroups pk now).1 := by
  have hmono : ∀ (gs : List String) (acc : List String × Persistence), g ∈ acc.1 →
      g ∈ (gs.foldl (activeStep pk now) acc).1 := by
    intro gs
    induction gs with
    | nil => exact fun acc h => h
    | cons g' gs ih =>
      intro acc h
      refine ih _ ?_
      unfold activeStep
      dsimp only
      split
      · exact h
      · exact List.mem_append_left _ h
  have key : ∀ (gs : List String) (acc : List String × Persistence), g ∈ gs →
      ¬ acc.2.Lapsed pk g now → g ∈ (gs.foldl (activeStep pk now) acc).1 := by
    intro gs
    induction gs with
    | nil => exact fun acc hm _ => absurd hm List.not_mem_nil
    | cons g' gs ih =>
      intro acc hm hl
      rcases List.mem_cons.mp hm with rfl | hm
      · refine hmono gs _ ?_
        unfold activeStep
        dsimp only
        split
        · rename_i hl'
          exact absurd hl' hl
        · exact List.mem_append_right _ (List.mem_singleton.mpr rfl)
      · refine ih _ hm ?_
        have h1 : (activeStep pk now acc g').2.membership pk g = _ := membership_activeStep hl
        unfold Lapsed at hl ⊢
        rwa [getGroupExpiry_of_membership h1]
  exact key _ ([], p) hg h

/-- The loop lists only what it walks over. -/
theorem mem_foldl_activeStep (gs : List String) : ∀ acc : List String × Persistence,
    g ∈ (gs.foldl (activeStep pk now) acc).1 → g ∈ acc.1 ∨ g ∈ gs := by
  induction gs with
  | nil => exact fun acc h => .inl h
  | cons g' gs ih =>
    intro acc h
    rcases ih _ h with h | h
    · unfold activeStep at h
      dsimp only at h
      split at h
      · exact .inl h
      · rcases List.mem_append.mp h with h | h
        · exact .inl h
        · exact .inr (by simp [List.mem_singleton.mp h])
    · exact .inr (List.mem_cons_of_mem _ h)

/-- What is in force is held. -/
theorem mem_of_mem_activeUserGroups (h : g ∈ (p.activeUserGroups pk now).1) :
    g ∈ p.getUserGroups pk :=
  (mem_foldl_activeStep _ ([], p) h).resolve_left List.not_mem_nil

theorem bans_activeUserGroups : (p.activeUserGroups pk now).2.bans = p.bans :=
  (onlyMemberships_activeUserGroups p pk now).bans_eq

theorem groups_activeUserGroups : (p.activeUserGroups pk now).2.groups = p.groups :=
  (onlyMemberships_activeUserGroups p pk now).groups_eq

/-- The loop removes a membership or leaves it. -/
theorem membership_activeUserGroups_cases :
    (p.activeUserGroups pk now).2.membership k g = p.membership k g ∨
      (p.Lapsed k g now ∧ (p.activeUserGroups pk now).2.membership k g = (false, none)) := by
  have key : ∀ (gs : List String) (acc : List String × Persistence),
      (gs.foldl (activeStep pk now) acc).2.membership k g = acc.2.membership k g ∨
        (acc.2.Lapsed k g now ∧
          (gs.foldl (activeStep pk now) acc).2.membership k g = (false, none)) := by
    intro gs
    induction gs with
    | nil => exact fun acc => .inl rfl
    | cons g' gs ih =>
      intro acc
      by_cases hl : acc.2.Lapsed k g now
      · have h1 : (activeStep pk now acc g').2.membership k g = acc.2.membership k g ∨
            (activeStep pk now acc g').2.membership k g = (false, none) := by
          unfold activeStep
          dsimp only
          split
          · rw [membership_removeUserFromGroup]
            split
            · exact .inr rfl
            · exact .inl rfl
          · exact .inl rfl
        rcases ih (activeStep pk now acc g') with h2 | ⟨-, h2⟩
        · rcases h1 with h1 | h1
          · exact .inl (h2.trans h1)
          · exact .inr ⟨hl, h2.trans h1⟩
        · exact .inr ⟨hl, h2⟩
      · exact .inl (membership_foldl_activeStep (g' :: gs) acc hl)
  exact key _ ([], p)

end Persistence

/-! ## The group list and the ban check -/

theorem mem_pushGroup {gs : List String} {g h : String} : h ∈ pushGroup gs g ↔ h ∈ gs ∨ h = g := by
  unfold pushGroup
  split
  · rename_i hg
    exact ⟨.inl, fun hh => hh.elim id fun e => e ▸ hg⟩
  · simp

theorem mem_foldl_pushGroup {l : List String} {h : String} (gs : List String) :
    h ∈ l.foldl pushGroup gs ↔ h ∈ gs ∨ h ∈ l := mem_foldl_pushNew gs

theorem mem_userGroupList {assigned : List String} {implicit : Option String} {g : String} :
    g ∈ userGroupList assigned implicit ↔ g = "default" ∨ g ∈ assigned ∨ implicit = some g := by
  unfold userGroupList
  rw [mem_foldl_pushGroup, mem_foldl_pushGroup, List.mem_singleton, or_assoc]
  simp

theorem fromBitsTruncate_banned {bits : BitVec 32} :
    (Permissions.fromBitsTruncate bits).getLsbD 22 = bits.getLsbD 22 := by
  have : Permissions.all.getLsbD 22 = true := by decide
  rw [Permissions.fromBitsTruncate, BitVec.getLsbD_and, this, Bool.and_true]

/-- **The ban check** answers yes exactly when a group in force carries the BANNED flag. -/
theorem banCheck_iff {p : Persistence} {k : PublicKey} {now : Nat} :
    (World.banCheck p k now).1 = true ↔
      ∃ g ∈ userGroupList ((World.liftExpiredBan p k now).activeUserGroups k now).1
        (((World.liftExpiredBan p k now).activeUserGroups k now).2.getRegisteredUser k |>.map
          RegisteredUser.username),
        ∃ bits, (World.liftExpiredBan p k now).groups.get g = some bits ∧
          bits.getLsbD 22 = true := by
  have heff : ∀ (gs : List String) (f : String → Option Permissions),
      effectivePermissions gs f [(rootRoomUuid, none)] false = basePermissions gs f := by
    intro gs f
    simp [effectivePermissions, walkRoomChain, applyRoomAcl]
  unfold World.banCheck
  dsimp only
  rw [heff, contains_banned_iff, basePermissions_getLsbD]
  simp only [Persistence.groupPerms, Persistence.groups_activeUserGroups,
    Option.map_eq_some_iff, exists_exists_and_eq_and, fromBitsTruncate_banned]

end Rumble.Server
