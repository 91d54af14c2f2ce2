import Mathlib.Data.List.Induction
import Rumble.Protocol.Permissions

/-!
# What effective permissions are

`effectivePermissions` runs over the chain and its entries with an accumulator. Here is what it
computes, bit by bit: the last applicable entry that mentions a bit decides it, counted from the
last room that does not inherit; a bit that no such entry mentions is as the groups have it
(`effectivePermissions_reference`).
-/

namespace Rumble

/-! ## The reference -/

namespace AclEntry

def mentions (e : AclEntry) (b : Nat) : Bool := e.grant.getLsbD b || e.deny.getLsbD b

/-- The group is held, and the entry is meant for the target or for what is below it. -/
def applies (userGroups : List String) (isTarget : Bool) (e : AclEntry) : Bool :=
  userGroups.contains e.group && if isTarget then e.applyHere else e.applySubs

end AclEntry

/-- A room of the chain: whether it is the target, and its ACL. -/
abbrev ChainStep := Bool × Option RoomAclData

/-- The last room of a chain is the target, the others are its ancestors. -/
def chainSteps : List (Uuid × Option RoomAclData) → List ChainStep
  | [] => []
  | (_, acl) :: rest => (rest.isEmpty, acl) :: chainSteps rest

namespace ChainStep

def resets (r : ChainStep) : Bool := r.2.any fun acl => !acl.inheritAcl

/-- The entries of a room that apply to the user, in order. -/
def applicable (userGroups : List String) (r : ChainStep) : List AclEntry :=
  (r.2.elim [] RoomAclData.entries).filter (AclEntry.applies userGroups r.1)

end ChainStep

/-- The rooms from the last one on that does not inherit; all of them when every room does. -/
def sinceReset : List ChainStep → List ChainStep
  | [] => []
  | r :: rest => if rest.any ChainStep.resets then sinceReset rest else r :: rest

/-- The applicable entries that count after some rooms. -/
def inForce (userGroups : List String) (rooms : List ChainStep) : List AclEntry :=
  (sinceReset rooms).flatMap (ChainStep.applicable userGroups)

/-- The last entry that mentions the bit. -/
def lastMention (b : Nat) (entries : List AclEntry) : Option AclEntry :=
  (entries.filter (AclEntry.mentions · b)).getLast?

/-- What the last mention makes of a bit that was `bit` before. -/
def decided (b : Nat) (bit : Bool) (entries : List AclEntry) : Bool :=
  ((lastMention b entries).map fun e => e.grant.getLsbD b && !e.deny.getLsbD b).getD bit

/-- The union of the base permissions of the groups. -/
def baseHolds (userGroups : List String) (groupPermissions : String → Option Permissions)
    (b : Nat) : Bool :=
  userGroups.any fun g => (groupPermissions g).any (·.getLsbD b)

/-- The bit holds after the first `n` rooms of the chain. -/
def holdsAfter (userGroups : List String) (groupPermissions : String → Option Permissions)
    (chain : List (Uuid × Option RoomAclData)) (n b : Nat) : Bool :=
  decided b (baseHolds userGroups groupPermissions b)
    (inForce userGroups ((chainSteps chain).take n))

/-! ## Entries -/

theorem decided_nil (b : Nat) (bit : Bool) : decided b bit [] = bit := rfl

theorem decided_concat (b : Nat) (bit : Bool) (entries : List AclEntry) (e : AclEntry) :
    decided b bit (entries ++ [e]) =
      if e.mentions b then e.grant.getLsbD b && !e.deny.getLsbD b else decided b bit entries := by
  unfold decided lastMention
  rw [List.filter_append]
  by_cases h : e.mentions b = true
  · simp [h]
  · simp [h]

/-- Deciding in two goes. -/
theorem decided_append (b : Nat) (bit : Bool) (es es' : List AclEntry) :
    decided b bit (es ++ es') = decided b (decided b bit es) es' := by
  induction es' using List.reverseRecOn with
  | nil => rw [List.append_nil, decided_nil]
  | append_singleton es' e ih => rw [← List.append_assoc, decided_concat, decided_concat, ih]

/-- A grant and then a denial, as the loop does it. -/
theorem getLsbD_grantDeny (granted : Permissions) (e : AclEntry) {b : Nat} (hb : b < 32) :
    ((granted ||| e.grant) &&& ~~~ e.deny).getLsbD b =
      if e.mentions b then e.grant.getLsbD b && !e.deny.getLsbD b else granted.getLsbD b := by
  rw [BitVec.getLsbD_and, BitVec.getLsbD_or, BitVec.getLsbD_not, AclEntry.mentions]
  cases e.grant.getLsbD b <;> cases e.deny.getLsbD b <;> simp [hb]

/-- Entries that do not apply are skipped. -/
theorem applyAclEntry_eq (userGroups : List String) (isTarget : Bool) (granted : Permissions)
    (e : AclEntry) : applyAclEntry userGroups isTarget granted e =
      if e.applies userGroups isTarget then (granted ||| e.grant) &&& ~~~ e.deny else granted := by
  unfold applyAclEntry AclEntry.applies
  cases userGroups.contains e.group <;> cases isTarget <;> cases e.applyHere <;>
    cases e.applySubs <;> rfl

theorem getLsbD_foldl_applyAclEntry (userGroups : List String) (isTarget : Bool)
    (granted : Permissions) (entries : List AclEntry) {b : Nat} (hb : b < 32) :
    (entries.foldl (applyAclEntry userGroups isTarget) granted).getLsbD b =
      decided b (granted.getLsbD b) (entries.filter (AclEntry.applies userGroups isTarget)) := by
  induction entries using List.reverseRecOn with
  | nil => rfl
  | append_singleton entries e ih =>
    rw [List.foldl_append, List.foldl_cons, List.foldl_nil, applyAclEntry_eq, List.filter_append]
    by_cases h : e.applies userGroups isTarget = true
    · rw [if_pos h, List.filter_cons_of_pos h, List.filter_nil, decided_concat,
        getLsbD_grantDeny _ _ hb, ih]
    · rw [if_neg h, List.filter_cons_of_neg h, List.filter_nil, List.append_nil, ih]

/-! ## Rooms -/

/-- One more room: it starts over, or it follows. -/
theorem sinceReset_concat (rooms : List ChainStep) (r : ChainStep) :
    sinceReset (rooms ++ [r]) = if r.resets then [r] else sinceReset rooms ++ [r] := by
  induction rooms with
  | nil =>
    rw [List.nil_append, sinceReset]
    split <;> simp [sinceReset]
  | cons r' rest ih =>
    rw [List.cons_append, sinceReset, List.any_append, ih]
    by_cases hr : r.resets = true
    · simp [hr]
    · by_cases hrest : rest.any ChainStep.resets = true
      · simp [hr, hrest, sinceReset]
      · simp [hr, hrest, sinceReset]

theorem inForce_concat (userGroups : List String) (rooms : List ChainStep) (r : ChainStep) :
    inForce userGroups (rooms ++ [r]) =
      if r.resets then r.applicable userGroups
      else inForce userGroups rooms ++ r.applicable userGroups := by
  unfold inForce
  rw [sinceReset_concat]
  split <;> simp

/-- The accumulator after some rooms. -/
def grantedAfter (userGroups : List String) (base : Permissions) (granted : Permissions)
    (rooms : List ChainStep) : Permissions :=
  rooms.foldl (fun granted r => applyRoomAcl userGroups base r.1 granted r.2) granted

theorem getLsbD_applyRoomAcl (userGroups : List String) (base granted : Permissions)
    (r : ChainStep) {b : Nat} (hb : b < 32) :
    (applyRoomAcl userGroups base r.1 granted r.2).getLsbD b =
      decided b ((if r.resets then base else granted).getLsbD b) (r.applicable userGroups) := by
  obtain ⟨isTarget, acl⟩ := r
  cases acl with
  | none => rfl
  | some acl =>
    have hfold := getLsbD_foldl_applyAclEntry userGroups isTarget
      (if acl.inheritAcl then granted else base) acl.entries hb
    refine hfold.trans ?_
    cases hinherit : acl.inheritAcl <;> simp [ChainStep.resets, ChainStep.applicable, hinherit]

/-- **The accumulator, bit by bit.** -/
theorem getLsbD_grantedAfter (userGroups : List String) (base : Permissions)
    (rooms : List ChainStep) {b : Nat} (hb : b < 32) :
    (grantedAfter userGroups base base rooms).getLsbD b =
      decided b (base.getLsbD b) (inForce userGroups rooms) := by
  induction rooms using List.reverseRecOn with
  | nil => rfl
  | append_singleton rooms r ih =>
    have hlast : grantedAfter userGroups base base (rooms ++ [r]) =
        applyRoomAcl userGroups base r.1 (grantedAfter userGroups base base rooms) r.2 :=
      List.foldl_concat ..
    rw [hlast, getLsbD_applyRoomAcl _ _ _ _ hb, inForce_concat]
    by_cases h : r.resets = true
    · rw [if_pos h, if_pos h]
    · rw [if_neg h, if_neg h, ih, decided_append]

/-! ## The walk -/

theorem length_chainSteps (chain : List (Uuid × Option RoomAclData)) :
    (chainSteps chain).length = chain.length := by
  induction chain with
  | nil => rfl
  | cons room rest ih => rw [chainSteps, List.length_cons, List.length_cons, ih]

/-- Every ancestor lets the user through. -/
def Through (userGroups : List String) (base granted : Permissions)
    (chain : List (Uuid × Option RoomAclData)) : Prop :=
  ∀ i, i + 1 < chain.length →
    (grantedAfter userGroups base granted ((chainSteps chain).take (i + 1))).contains
      Permissions.traverse = true

theorem through_cons {userGroups : List String} {base granted : Permissions} {id : Uuid}
    {acl : Option RoomAclData} {room : Uuid × Option RoomAclData}
    {rest : List (Uuid × Option RoomAclData)} :
    Through userGroups base granted ((id, acl) :: room :: rest) ↔
      (applyRoomAcl userGroups base false granted acl).contains Permissions.traverse = true ∧
        Through userGroups base (applyRoomAcl userGroups base false granted acl) (room :: rest) := by
  constructor
  · exact fun h => ⟨h 0 (by simp), fun i hi => h (i + 1) (Nat.succ_lt_succ hi)⟩
  · rintro ⟨hhead, hrest⟩ i hi
    cases i with
    | zero => exact hhead
    | succ i => exact hrest i (Nat.lt_of_succ_lt_succ hi)

/-- The walk ends at the target when every ancestor lets the user through. -/
theorem walkRoomChain_eq_some {userGroups : List String} {base : Permissions}
    {chain : List (Uuid × Option RoomAclData)} {granted granted' : Permissions} :
    walkRoomChain userGroups base granted chain = some granted' ↔
      Through userGroups base granted chain ∧
        grantedAfter userGroups base granted (chainSteps chain) = granted' := by
  induction chain generalizing granted with
  | nil =>
    have hnone : Through userGroups base granted [] := fun i hi => absurd hi (Nat.not_lt_zero _)
    exact Option.some_inj.trans (and_iff_right hnone).symm
  | cons room rest ih =>
    obtain ⟨id, acl⟩ := room
    cases rest with
    | nil =>
      have hnone : Through userGroups base granted [(id, acl)] :=
        fun i hi => absurd hi (by simp)
      exact Option.some_inj.trans (and_iff_right hnone).symm
    | cons room' rest' =>
      rw [through_cons, and_assoc, walkRoomChain]
      dsimp only [List.isEmpty_cons]
      by_cases hthrough :
          (applyRoomAcl userGroups base false granted acl).contains Permissions.traverse = true
      · rw [if_neg (by simp [hthrough]), ih]
        exact (and_iff_right hthrough).symm
      · rw [if_pos (by simp [hthrough])]
        exact iff_of_false (fun h => nomatch h) fun h => hthrough h.1

/-! ## The result -/

theorem getLsbD_basePermissions (userGroups : List String)
    (groupPermissions : String → Option Permissions) (b : Nat) :
    (basePermissions userGroups groupPermissions).getLsbD b =
      baseHolds userGroups groupPermissions b := by
  rw [Bool.eq_iff_iff, basePermissions_getLsbD]
  simp [baseHolds, Option.any_eq_true]

/-- TRAVERSE is the single bit 0. -/
theorem contains_traverse_iff {p : Permissions} :
    p.contains Permissions.traverse = true ↔ p.getLsbD 0 = true := by
  have hbit : Permissions.traverse = BitVec.twoPow 32 0 := by decide
  rw [contains_iff, hbit, BitVec.and_twoPow]
  cases p.getLsbD 0
  · exact iff_of_false (by decide) Bool.false_ne_true
  · exact iff_of_true rfl rfl

theorem through_iff {userGroups : List String} {groupPermissions : String → Option Permissions}
    {chain : List (Uuid × Option RoomAclData)} :
    Through userGroups (basePermissions userGroups groupPermissions)
        (basePermissions userGroups groupPermissions) chain ↔
      ∀ n, 0 < n → n < chain.length → holdsAfter userGroups groupPermissions chain n 0 = true := by
  have hbit (n : Nat) : (grantedAfter userGroups (basePermissions userGroups groupPermissions)
      (basePermissions userGroups groupPermissions) ((chainSteps chain).take n)).contains
        Permissions.traverse = true ↔ holdsAfter userGroups groupPermissions chain n 0 = true := by
    rw [contains_traverse_iff, getLsbD_grantedAfter _ _ _ (by decide), getLsbD_basePermissions]
    rfl
  constructor
  · intro h n hpos hlt
    obtain ⟨i, rfl⟩ := Nat.exists_eq_add_of_lt hpos
    rw [Nat.zero_add] at hlt ⊢
    exact (hbit _).mp (h i hlt)
  · exact fun h i hi => (hbit _).mpr (h (i + 1) (Nat.succ_pos i) hi)

/-- The result, bit by bit. -/
theorem getLsbD_effectivePermissions (userGroups : List String)
    (groupPermissions : String → Option Permissions)
    (chain : List (Uuid × Option RoomAclData)) {b : Nat} (hb : b < 32) :
    (effectivePermissions userGroups groupPermissions chain false).getLsbD b = true ↔
      (∀ n, 0 < n → n < chain.length →
        holdsAfter userGroups groupPermissions chain n 0 = true) ∧
      holdsAfter userGroups groupPermissions chain chain.length b = true ∧
      ¬ (1 < chain.length ∧ Permissions.allServerScoped.getLsbD b = true) := by
  let base := basePermissions userGroups groupPermissions
  have hwhole : (grantedAfter userGroups base base (chainSteps chain)).getLsbD b =
      holdsAfter userGroups groupPermissions chain chain.length b := by
    rw [getLsbD_grantedAfter _ _ _ hb, getLsbD_basePermissions, holdsAfter,
      ← length_chainSteps chain, List.take_length]
  unfold effectivePermissions
  rw [if_neg Bool.false_ne_true, ← through_iff, ← hwhole]
  dsimp only
  cases hwalk : walkRoomChain userGroups base base chain with
  | none =>
    refine iff_of_false (by simp) fun h => ?_
    exact Option.some_ne_none _ ((walkRoomChain_eq_some.mpr ⟨h.1, rfl⟩).symm.trans hwalk)
  | some granted =>
    obtain ⟨hthrough, rfl⟩ := walkRoomChain_eq_some.mp hwalk
    rw [and_iff_right hthrough]
    by_cases hlong : 1 < chain.length
    · simp [hlong, hb]
    · simp [hlong]

/-- **The reference.** A user without superuser rights has a bit exactly when every ancestor of the
target lets the user through, the bit holds after the last room, and it is no server-scoped bit
below Root. Only the set of the user's groups counts. -/
theorem effectivePermissions_reference (userGroups : List String)
    (groupPermissions : String → Option Permissions)
    (chain : List (Uuid × Option RoomAclData)) :
    (∀ b < 32, (effectivePermissions userGroups groupPermissions chain false).getLsbD b = true ↔
      (∀ n, 0 < n → n < chain.length →
        holdsAfter userGroups groupPermissions chain n 0 = true) ∧
      holdsAfter userGroups groupPermissions chain chain.length b = true ∧
      ¬ (1 < chain.length ∧ Permissions.allServerScoped.getLsbD b = true)) ∧
    ∀ userGroups' : List String, (∀ g, g ∈ userGroups' ↔ g ∈ userGroups) →
      effectivePermissions userGroups' groupPermissions chain false =
        effectivePermissions userGroups groupPermissions chain false := by
  refine ⟨fun b hb => getLsbD_effectivePermissions _ _ _ hb, fun userGroups' hset => ?_⟩
  have happlies : AclEntry.applies userGroups' = AclEntry.applies userGroups := by
    funext isTarget e
    simp [AclEntry.applies, hset]
  have hholds (n b : Nat) : holdsAfter userGroups' groupPermissions chain n b =
      holdsAfter userGroups groupPermissions chain n b := by
    have hbase : baseHolds userGroups' groupPermissions b =
        baseHolds userGroups groupPermissions b := by
      rw [Bool.eq_iff_iff]
      simp [baseHolds, hset]
    have happlicable : ChainStep.applicable userGroups' = ChainStep.applicable userGroups := by
      funext r
      rw [ChainStep.applicable, happlies]
      rfl
    rw [holdsAfter, hbase, inForce, happlicable]
    rfl
  refine BitVec.eq_of_getLsbD_eq fun b hb => ?_
  rw [Bool.eq_iff_iff, getLsbD_effectivePermissions _ _ _ hb,
    getLsbD_effectivePermissions _ _ _ hb]
  simp only [hholds]

end Rumble
