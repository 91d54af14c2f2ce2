import Rumble.Protocol.Types

/-!
# Permission flags and ACL evaluation

`rumble-protocol/src/permissions.rs`. A permission set is a 32-bit mask; `effectivePermissions`
walks a room chain from Root to the target and is shared by the server and the client.
-/

namespace Rumble

abbrev Permissions := BitVec 32

namespace Permissions

-- Room-scoped flags.
def traverse : Permissions := 0x001
def enter : Permissions := 0x002
def speak : Permissions := 0x004
def textMessage : Permissions := 0x008
def shareFile : Permissions := 0x010
def muteDeafen : Permissions := 0x020
def moveUser : Permissions := 0x040
def makeRoom : Permissions := 0x080
def modifyRoom : Permissions := 0x100
def write : Permissions := 0x200

-- Server-scoped flags, only meaningful at Root.
def kick : Permissions := 0x10000
def ban : Permissions := 0x20000
def register : Permissions := 0x40000
def selfRegister : Permissions := 0x80000
def manageAcl : Permissions := 0x100000
def sudoFlag : Permissions := 0x200000
def banned : Permissions := 0x400000
def manageParticipants : Permissions := 0x800000

def allRoomScoped : Permissions :=
  traverse ||| enter ||| speak ||| textMessage ||| shareFile ||| muteDeafen ||| moveUser |||
    makeRoom ||| modifyRoom ||| write

def allServerScoped : Permissions :=
  kick ||| ban ||| register ||| selfRegister ||| manageAcl ||| sudoFlag ||| banned |||
    manageParticipants

def all : Permissions := allRoomScoped ||| allServerScoped

def defaultPermissions : Permissions :=
  traverse ||| enter ||| speak ||| textMessage ||| shareFile ||| selfRegister ||| makeRoom |||
    modifyRoom

/-- Every capability bit; the `banned` marker is left out. -/
def adminPermissions : Permissions := all &&& ~~~ banned

/-- `self` has every bit of `other`. -/
def contains (self other : Permissions) : Bool := self &&& other == other

/-- Drop the bits no flag defines. -/
def fromBitsTruncate (bits : BitVec 32) : Permissions := bits &&& all

/-- `none` when a bit no flag defines is set. -/
def fromBits (bits : BitVec 32) : Option Permissions :=
  if bits &&& ~~~ all = 0 then some bits else none

end Permissions

/-- A decoded ACL entry (`permissions::AclEntry`). -/
structure AclEntry where
  group : String
  grant : Permissions
  deny : Permissions
  applyHere : Bool
  applySubs : Bool
  deriving DecidableEq

structure RoomAclData where
  inheritAcl : Bool
  entries : List AclEntry
  deriving DecidableEq

/-- The decoding both chain builders share: undefined bits are truncated. -/
def AclEntry.ofRoomEntry (e : RoomAclEntry) : AclEntry where
  group := e.group
  grant := Permissions.fromBitsTruncate e.grant
  deny := Permissions.fromBitsTruncate e.deny
  applyHere := e.applyHere
  applySubs := e.applySubs

/-- One entry of the loop over a room's ACL. -/
def applyAclEntry (userGroups : List String) (isTarget : Bool) (granted : Permissions)
    (e : AclEntry) : Permissions :=
  if !userGroups.contains e.group then granted
  else if isTarget && !e.applyHere then granted
  else if !isTarget && !e.applySubs then granted
  else (granted ||| e.grant) &&& ~~~ e.deny

/-- The permissions after one room of the chain. -/
def applyRoomAcl (userGroups : List String) (base : Permissions) (isTarget : Bool)
    (granted : Permissions) : Option RoomAclData → Permissions
  | none => granted
  | some acl =>
    acl.entries.foldl (applyAclEntry userGroups isTarget) (if acl.inheritAcl then granted else base)

/-- The walk from Root to the target; `none` when a room on the way denies TRAVERSE. -/
def walkRoomChain (userGroups : List String) (base : Permissions) :
    Permissions → List (Uuid × Option RoomAclData) → Option Permissions
  | granted, [] => some granted
  | granted, (_, acl) :: rest =>
    let isTarget := rest.isEmpty
    let granted := applyRoomAcl userGroups base isTarget granted acl
    if !isTarget && !granted.contains Permissions.traverse then none
    else walkRoomChain userGroups base granted rest

/-- The union of the base permissions of the user's groups. -/
def basePermissions (userGroups : List String) (groupPermissions : String → Option Permissions) :
    Permissions :=
  userGroups.foldl (fun base g => match groupPermissions g with
    | some perms => base ||| perms
    | none => base) 0

/-- Effective permissions of a user in the last room of `roomChain` (Root first). -/
def effectivePermissions (userGroups : List String)
    (groupPermissions : String → Option Permissions)
    (roomChain : List (Uuid × Option RoomAclData)) (isSuperuser : Bool) : Permissions :=
  if isSuperuser then Permissions.all
  else
    let base := basePermissions userGroups groupPermissions
    match walkRoomChain userGroups base base roomChain with
    | none => 0
    | some granted =>
      if roomChain.length > 1 then granted &&& ~~~ Permissions.allServerScoped else granted

/-! ## The base permissions -/

theorem contains_iff {p q : Permissions} : p.contains q = true ↔ p &&& q = q := by
  simp [Permissions.contains]

/-- The `banned` marker is the single bit 22. -/
theorem contains_banned_iff {p : Permissions} :
    p.contains Permissions.banned = true ↔ p.getLsbD 22 = true := by
  rw [contains_iff]
  constructor
  · intro h
    have := congrArg (·.getLsbD 22) h
    simpa [Permissions.banned] using this
  · intro h
    apply BitVec.eq_of_getLsbD_eq
    intro i hi
    by_cases hi22 : i = 22
    · subst hi22; simp [Permissions.banned, h]
    · have : (Permissions.banned).getLsbD i = false := by
        have : Permissions.banned = BitVec.twoPow 32 22 := by decide
        rw [this, BitVec.getLsbD_twoPow]; simp; omega
      simp [this]

theorem foldl_base_getLsbD (f : String → Option Permissions) (i : Nat) (gs : List String) :
    ∀ acc : Permissions,
      (gs.foldl (fun base g => match f g with | some perms => base ||| perms | none => base)
        acc).getLsbD i = true ↔
      acc.getLsbD i = true ∨ ∃ g ∈ gs, ∃ p, f g = some p ∧ p.getLsbD i = true := by
  induction gs with
  | nil => intro acc; simp
  | cons g gs ih =>
    intro acc
    rw [List.foldl_cons, ih]
    cases hg : f g with
    | none => simp [hg]
    | some p => simp [hg, BitVec.getLsbD_or, or_assoc]

/-- A bit is in the base exactly when a group of the user carries it. -/
theorem basePermissions_getLsbD {userGroups : List String} {f : String → Option Permissions}
    {i : Nat} : (basePermissions userGroups f).getLsbD i = true ↔
      ∃ g ∈ userGroups, ∃ p, f g = some p ∧ p.getLsbD i = true := by
  unfold basePermissions
  rw [foldl_base_getLsbD]
  simp

end Rumble
