import Rumble.Lib.Table
import Rumble.Protocol.Permissions

/-!
# The persistence layer

`server/src/persistence.rs`: the sled trees and the operations on them. Every tree is a `Table`;
writes succeed. An operation that both answers and writes returns the answer with the new store.
-/

namespace Rumble.Server

open Rumble.Lib

/-! ## Records -/

/-- The largest `u64`. -/
def u64Max : Nat := 2 ^ 64 - 1

/-- `u64::saturating_add`. -/
def saturatingAdd (a b : Nat) : Nat := min (a + b) u64Max

structure PersistedBan where
  bannedAtSecs : Option Nat
  durationSeconds : Nat
  reason : String
  bannedBy : String
  deriving DecidableEq

/-- Permanent bans and bans with no recorded time never expire. -/
def PersistedBan.isExpired (b : PersistedBan) (nowSecs : Nat) : Bool :=
  if b.durationSeconds = 0 then false
  else match b.bannedAtSecs with
    | some since => decide (saturatingAdd since b.durationSeconds ≤ nowSecs)
    | none => false

structure RegisteredUser where
  username : String
  lastRoom : Option Uuid
  deriving DecidableEq

structure PersistedRoom where
  name : String
  parent : Option Uuid
  description : String
  permanent : Bool
  deriving DecidableEq

/-- Persisted room ACL; its entries have the fields of `RoomAclEntry`. -/
structure PersistedRoomAcl where
  inheritAcl : Bool
  entries : List RoomAclEntry
  deriving DecidableEq

/-- The trees. A membership with no `groupExpiries` entry is permanent. -/
structure Persistence where
  registeredUsers : Table PublicKey RegisteredUser
  knownKeys : Table PublicKey Unit
  rooms : Table Uuid PersistedRoom
  groups : Table String (BitVec 32)
  userGroups : Table PublicKey (List String)
  groupExpiries : Table (PublicKey × String) Nat
  roomAcls : Table Uuid PersistedRoomAcl
  sudoPassword : Option String
  participantDefaults : Table PublicKey String
  bans : Table PublicKey PersistedBan

namespace Persistence

/-- An empty database. -/
def empty : Persistence where
  registeredUsers := ∅
  knownKeys := ∅
  rooms := ∅
  groups := ∅
  userGroups := ∅
  groupExpiries := ∅
  roomAcls := ∅
  sudoPassword := none
  participantDefaults := ∅
  bans := ∅

/-! ## Registered users and known keys -/

/-- `str::eq_ignore_ascii_case`. -/
def eqIgnoreAsciiCase (a b : String) : Bool :=
  a.toList.map Char.toLower == b.toList.map Char.toLower

def getRegisteredUser (p : Persistence) (pk : PublicKey) : Option RegisteredUser :=
  p.registeredUsers.get pk

/-- Every registered user, in key order (the iteration order of the tree). -/
def listRegisteredUsers (p : Persistence) : List (PublicKey × RegisteredUser) :=
  p.registeredUsers.toPairs.insertionSort fun a b => byteKey a.1.data ≤ byteKey b.1.data

def registerUser (p : Persistence) (pk : PublicKey) (user : RegisteredUser) : Persistence :=
  { p with registeredUsers := p.registeredUsers.set pk user }

def unregisterUser (p : Persistence) (pk : PublicKey) : Persistence :=
  { p with registeredUsers := p.registeredUsers.del pk }

/-- The first registration of the name decides. -/
def isUsernameTaken (p : Persistence) (username : String) (pk : PublicKey) : Bool :=
  match p.listRegisteredUsers.find? fun e => eqIgnoreAsciiCase e.2.username username with
  | some (key, _) => key != pk
  | none => false

def isRegistered (p : Persistence) (pk : PublicKey) : Bool := (p.registeredUsers.get pk).isSome

def isKnownKey (p : Persistence) (pk : PublicKey) : Bool := (p.knownKeys.get pk).isSome

def addKnownKey (p : Persistence) (pk : PublicKey) : Persistence :=
  { p with knownKeys := p.knownKeys.set pk () }

def isUsernameRegistered (p : Persistence) (username : String) : Bool :=
  p.listRegisteredUsers.any fun e => eqIgnoreAsciiCase e.2.username username

def updateUserLastRoom (p : Persistence) (pk : PublicKey) (room : Option Uuid) : Persistence :=
  match p.getRegisteredUser pk with
  | some user => p.registerUser pk { user with lastRoom := room }
  | none => p

/-! ## Rooms and room ACLs -/

def getRoom (p : Persistence) (id : Uuid) : Option PersistedRoom := p.rooms.get id

def saveRoom (p : Persistence) (id : Uuid) (room : PersistedRoom) : Persistence :=
  { p with rooms := p.rooms.set id room }

def deleteRoom (p : Persistence) (id : Uuid) : Persistence := { p with rooms := p.rooms.del id }

/-- Rewrite a stored room, if it is stored. -/
def updateRoom (p : Persistence) (id : Uuid) (f : PersistedRoom → PersistedRoom) : Persistence :=
  match p.getRoom id with
  | some room => p.saveRoom id (f room)
  | none => p

def setRoomAcl (p : Persistence) (id : Uuid) (acl : PersistedRoomAcl) : Persistence :=
  { p with roomAcls := p.roomAcls.set id acl }

def getRoomAcl (p : Persistence) (id : Uuid) : Option PersistedRoomAcl := p.roomAcls.get id

def deleteRoomAcl (p : Persistence) (id : Uuid) : Persistence :=
  { p with roomAcls := p.roomAcls.del id }

/-! ## Permission groups -/

def createGroup (p : Persistence) (name : String) (permissions : BitVec 32) : Persistence :=
  { p with groups := p.groups.set name permissions }

def getGroup (p : Persistence) (name : String) : Option (BitVec 32) := p.groups.get name

def deleteGroup (p : Persistence) (name : String) : Persistence :=
  { p with groups := p.groups.del name }

/-- `none` when there is no such group. -/
def modifyGroup (p : Persistence) (name : String) (permissions : BitVec 32) : Option Persistence :=
  if (p.groups.get name).isSome then some (p.createGroup name permissions) else none

/-- The new mask and store; `none` when there is no such group. -/
def toggleGroupPermission (p : Persistence) (name : String) (bits : BitVec 32) (enable : Bool) :
    Option (BitVec 32 × Persistence) :=
  (p.groups.get name).map fun old =>
    let permissions := if enable then old ||| bits else old &&& ~~~ bits
    (permissions, p.createGroup name permissions)

def listGroups (p : Persistence) : List (String × BitVec 32) := p.groups.toPairs

/-- The groups as decoded by every permission check: undefined bits truncated. -/
def groupPerms (p : Persistence) (name : String) : Option Permissions :=
  (p.groups.get name).map Permissions.fromBitsTruncate

def ensureDefaultGroups (p : Persistence) : Persistence :=
  let p := if p.groups.entries.isEmpty then
      (p.createGroup "default" Permissions.defaultPermissions).createGroup "admin"
        Permissions.adminPermissions
    else p
  match p.getGroup "admin" with
  | some g =>
    let perms := Permissions.fromBitsTruncate g
    if perms.contains Permissions.banned then
      (p.modifyGroup "admin" (perms &&& ~~~ Permissions.banned)).getD p
    else p
  | none => p

/-! ## Group memberships -/

def getUserGroups (p : Persistence) (pk : PublicKey) : List String :=
  (p.userGroups.get pk).getD []

def updateUserGroups (p : Persistence) (pk : PublicKey) (mutate : List String → List String) :
    Persistence :=
  { p with userGroups := p.userGroups.set pk (mutate (p.getUserGroups pk)) }

/-- `0` removes the expiry record. -/
def setGroupExpiry (p : Persistence) (pk : PublicKey) (group : String) (expiresAt : Nat) :
    Persistence :=
  if expiresAt = 0 then { p with groupExpiries := p.groupExpiries.del (pk, group) }
  else { p with groupExpiries := p.groupExpiries.set (pk, group) expiresAt }

/-- `0` when the membership is permanent. -/
def getGroupExpiry (p : Persistence) (pk : PublicKey) (group : String) : Nat :=
  (p.groupExpiries.get (pk, group)).getD 0

def addUserToGroupWithExpiry (p : Persistence) (pk : PublicKey) (group : String)
    (expiresAt : Nat) : Persistence :=
  (p.updateUserGroups pk fun gs => if group ∈ gs then gs else gs ++ [group]).setGroupExpiry pk
    group expiresAt

def addUserToGroup (p : Persistence) (pk : PublicKey) (group : String) : Persistence :=
  p.addUserToGroupWithExpiry pk group 0

def removeUserFromGroup (p : Persistence) (pk : PublicKey) (group : String) : Persistence :=
  let p := p.updateUserGroups pk fun gs => gs.filter (· ≠ group)
  { p with groupExpiries := p.groupExpiries.del (pk, group) }

/-- Scrub a group from every stored membership list. -/
def removeGroupFromAllUsers (p : Persistence) (group : String) : Persistence :=
  (p.userGroups.toPairs.map Prod.fst).foldl (fun p pk => p.removeUserFromGroup pk group) p

/-- One membership of the lazy expiry loop. -/
def activeStep (pk : PublicKey) (nowSecs : Nat) (acc : List String × Persistence) (g : String) :
    List String × Persistence :=
  let expiry := acc.2.getGroupExpiry pk g
  if expiry ≠ 0 ∧ expiry ≤ nowSecs then (acc.1, acc.2.removeUserFromGroup pk g)
  else (acc.1 ++ [g], acc.2)

/-- The groups of `pk` in force at `nowSecs`; lapsed ones are removed on the way. -/
def activeUserGroups (p : Persistence) (pk : PublicKey) (nowSecs : Nat) :
    List String × Persistence :=
  (p.getUserGroups pk).foldl (activeStep pk nowSecs) ([], p)

/-- The removed `(key, group)` pairs and the store without them. -/
def sweepExpiredMemberships (p : Persistence) (nowSecs : Nat) :
    List (PublicKey × String) × Persistence :=
  let expired := (p.groupExpiries.toPairs.filter fun e => e.2 ≠ 0 ∧ e.2 ≤ nowSecs).map Prod.fst
  (expired, expired.foldl (fun p e => p.removeUserFromGroup e.1 e.2) p)

def getParticipantDefaultGroup (p : Persistence) (pk : PublicKey) : Option String :=
  p.participantDefaults.get pk

/-- `q` differs from `p` in the memberships and their expiries only. -/
def OnlyMemberships (p q : Persistence) : Prop :=
  q = { p with userGroups := q.userGroups, groupExpiries := q.groupExpiries }

theorem OnlyMemberships.refl (p : Persistence) : OnlyMemberships p p := rfl

theorem OnlyMemberships.trans {p q r : Persistence} (h : OnlyMemberships p q)
    (h' : OnlyMemberships q r) : OnlyMemberships p r := by
  unfold OnlyMemberships at *
  rw [h'] at *
  rw [h]

theorem OnlyMemberships.groups_eq {p q : Persistence} (h : OnlyMemberships p q) :
    q.groups = p.groups := by
  unfold OnlyMemberships at h
  rw [h]

theorem OnlyMemberships.bans_eq {p q : Persistence} (h : OnlyMemberships p q) :
    q.bans = p.bans := by
  unfold OnlyMemberships at h
  rw [h]

theorem onlyMemberships_removeUserFromGroup (p : Persistence) (pk : PublicKey) (group : String) :
    OnlyMemberships p (p.removeUserFromGroup pk group) := rfl

theorem onlyMemberships_addUserToGroupWithExpiry (p : Persistence) (pk : PublicKey)
    (group : String) (expiresAt : Nat) :
    OnlyMemberships p (p.addUserToGroupWithExpiry pk group expiresAt) := by
  unfold addUserToGroupWithExpiry setGroupExpiry
  split <;> rfl

theorem onlyMemberships_foldl {β : Type} {f : Persistence → β → Persistence}
    (hf : ∀ p b, OnlyMemberships p (f p b)) (l : List β) (p : Persistence) :
    OnlyMemberships p (l.foldl f p) := by
  induction l generalizing p with
  | nil => exact .refl p
  | cons b l ih => exact (hf p b).trans (ih _)

theorem onlyMemberships_activeUserGroups (p : Persistence) (pk : PublicKey) (nowSecs : Nat) :
    OnlyMemberships p (p.activeUserGroups pk nowSecs).2 := by
  have key : ∀ (gs : List String) (acc : List String × Persistence),
      OnlyMemberships acc.2 (gs.foldl (activeStep pk nowSecs) acc).2 := by
    intro gs
    induction gs with
    | nil => exact fun acc => .refl acc.2
    | cons g gs ih =>
      intro acc
      refine OnlyMemberships.trans ?_ (ih (activeStep pk nowSecs acc g))
      unfold activeStep
      dsimp only
      split
      · exact onlyMemberships_removeUserFromGroup _ _ _
      · exact .refl _
  exact key _ ([], p)

theorem onlyMemberships_sweepExpiredMemberships (p : Persistence) (nowSecs : Nat) :
    OnlyMemberships p (p.sweepExpiredMemberships nowSecs).2 :=
  onlyMemberships_foldl (fun p (e : PublicKey × String) =>
    onlyMemberships_removeUserFromGroup p e.1 e.2) _ p

theorem onlyMemberships_removeGroupFromAllUsers (p : Persistence) (group : String) :
    OnlyMemberships p (p.removeGroupFromAllUsers group) :=
  onlyMemberships_foldl (fun p pk => onlyMemberships_removeUserFromGroup p pk group) _ p

/-! ## Bans -/

def setBan (p : Persistence) (pk : PublicKey) (ban : PersistedBan) : Persistence :=
  { p with bans := p.bans.set pk ban }

def getBan (p : Persistence) (pk : PublicKey) : Option PersistedBan := p.bans.get pk

def removeBan (p : Persistence) (pk : PublicKey) : Persistence := { p with bans := p.bans.del pk }

/-- Lift one ban: the record and the membership. -/
def liftBan (p : Persistence) (pk : PublicKey) : Persistence :=
  (p.removeBan pk).removeUserFromGroup pk "banned"

/-- The store with every expired ban lifted, and how many there were. -/
def sweepExpiredBans (p : Persistence) (nowSecs : Nat) : Nat × Persistence :=
  let expiredKeys := (p.bans.toPairs.filter fun e => e.2.isExpired nowSecs).map Prod.fst
  (expiredKeys.length, expiredKeys.foldl liftBan p)

end Persistence

end Rumble.Server
