import Mathlib.Data.List.DropRight
import Rumble.Damascene.MoveRoom
import Rumble.Server.AclSaves

/-!
# The room editor

`rumble-damascene/src/room_acl.rs`. The editor copies the name, the description and the ACL of a
room, each entry with a scope in the place of its two flags, and Save sends what it holds. An entry
with both flags off has no scope; it is opened, and saved, with both flags on. The rest is saved as it was,
so that saving without an edit leaves the permissions of everyone as they were (`save_unedited`,
`save_keeps_permissions`).
-/

namespace Rumble.Damascene

open Rumble.Lib Rumble.Client
open Rumble.Server (World HandleId Config PersistedRoomAcl Identity decodeAcl evaluateIdentityPermissions)

/-- The Unicode property White_Space. -/
def isWhiteSpace (c : Char) : Bool :=
  let n := c.toNat
  (9 ≤ n && n ≤ 13) || n = 0x20 || n = 0x85 || n = 0xA0 || n = 0x1680 ||
    (0x2000 ≤ n && n ≤ 0x200A) || n = 0x2028 || n = 0x2029 || n = 0x202F || n = 0x205F || n = 0x3000

/-- `str::trim` -/
def trim (s : String) : String :=
  .ofList ((s.toList.dropWhile isWhiteSpace).rdropWhile isWhiteSpace)

/-! ## Entries -/

inductive AclScope where
  /-- Only this room. -/
  | here
  /-- Only the rooms below. -/
  | subtree
  | both
  deriving DecidableEq

namespace AclScope

def fromFlags : Bool → Bool → AclScope
  | true, true => both
  | true, false => here
  | false, true => subtree
  | false, false => both -- so that the entry stays visible and the user can correct it

def applyHere : AclScope → Bool
  | subtree => false
  | _ => true

def applySubs : AclScope → Bool
  | here => false
  | _ => true

end AclScope

structure AclEditEntry where
  group : String
  grant : BitVec 32
  deny : BitVec 32
  scope : AclScope
  deriving DecidableEq

namespace AclEditEntry

def fromDomain (entry : RoomAclEntry) : AclEditEntry where
  group := entry.group
  grant := entry.grant
  deny := entry.deny
  scope := .fromFlags entry.applyHere entry.applySubs

def toDomain (e : AclEditEntry) : RoomAclEntry where
  group := e.group
  grant := e.grant
  deny := e.deny
  applyHere := e.scope.applyHere
  applySubs := e.scope.applySubs

theorem toDomain_fromDomain (entry : RoomAclEntry) : (fromDomain entry).toDomain =
    if entry.applyHere || entry.applySubs then entry
    else { entry with applyHere := true, applySubs := true } := by
  obtain ⟨group, grant, deny, applyHere, applySubs⟩ := entry
  cases applyHere <;> cases applySubs <;> rfl

end AclEditEntry

/-! ## The modal -/

/-- The commands the editor sends. -/
inductive Command where
  | renameRoom (roomId : Uuid) (newName : String)
  | setRoomDescription (roomId : Uuid) (description : String)
  | setRoomAcl (roomId : Uuid) (inheritAcl : Bool) (entries : List RoomAclEntry) (baseVersion : Nat)
  deriving DecidableEq

structure RoomAclModalState where
  roomId : Uuid
  roomName : String
  nameInput : String
  roomDescription : String
  descriptionInput : String
  canModify : Bool
  canWriteAcl : Bool
  inheritAcl : Bool
  entries : List AclEditEntry
  baseVersion : Nat
  deriving DecidableEq

def getRoom (state : ClientState) (roomId : Uuid) : Option Room :=
  state.rooms.find? fun r => r.id == roomId

namespace RoomAclModalState

def openFor (blake3 : List UInt8 → Bytes 32) (state : ClientState) (roomId : Uuid) :
    Option RoomAclModalState :=
  (getRoom state roomId).map fun room =>
    { roomId := roomId
      roomName := room.name
      nameInput := room.name
      roomDescription := room.description.getD ""
      descriptionInput := room.description.getD ""
      canModify := (roomPerms state roomId).contains Permissions.modifyRoom
      canWriteAcl := (roomPerms state roomId).contains Permissions.write
      inheritAcl := room.inheritAcl
      entries := room.acls.map .fromDomain
      baseVersion := roomAclVersion blake3 room.inheritAcl room.acls }

def toCommands (s : RoomAclModalState) : List Command :=
  let newName := trim s.nameInput
  let newDesc := trim s.descriptionInput
  (if s.canModify && !newName.isEmpty && newName != s.roomName then
    [.renameRoom s.roomId newName] else []) ++
  (if s.canModify && newDesc != trim s.roomDescription then
    [.setRoomDescription s.roomId newDesc] else []) ++
  if s.canWriteAcl then
    [.setRoomAcl s.roomId s.inheritAcl (s.entries.map AclEditEntry.toDomain) s.baseVersion] else []

end RoomAclModalState

/-! ## ACLs with the same effect -/

/-- Two ACLs in the place of each other on a chain, in whatever room of it. -/
def ActsAlike (a b : Option RoomAclData) : Prop := ∀ userGroups base isTarget granted,
  applyRoomAcl userGroups base isTarget granted a = applyRoomAcl userGroups base isTarget granted b

theorem walkRoomChain_congr {chain chain' : List (Uuid × Option RoomAclData)}
    (h : List.Forall₂ (fun x y => ActsAlike x.2 y.2) chain chain') (userGroups : List String)
    (base granted : Permissions) :
    walkRoomChain userGroups base granted chain = walkRoomChain userGroups base granted chain' := by
  induction h generalizing granted with
  | nil => rfl
  | @cons x y rest rest' hxy hrest ih =>
    have hempty : rest.isEmpty = rest'.isEmpty := by
      cases hrest with
      | nil => rfl
      | cons => rfl
    simp only [walkRoomChain, hempty, hxy _ _ _ _, ih]

theorem effectivePermissions_congr {chain chain' : List (Uuid × Option RoomAclData)}
    (h : List.Forall₂ (fun x y => ActsAlike x.2 y.2) chain chain') (userGroups : List String)
    (groupPermissions : String → Option Permissions) (isSuperuser : Bool) :
    effectivePermissions userGroups groupPermissions chain isSuperuser =
      effectivePermissions userGroups groupPermissions chain' isSuperuser := by
  unfold effectivePermissions
  simp only [walkRoomChain_congr h, h.length_eq]

/-- With either ACL for the room, every user has the same permissions in the room and in all rooms
below it. -/
def SameEffect (room : Uuid) (a b : PersistedRoomAcl) : Prop :=
  ∀ userGroups groupPermissions isSuperuser before after,
    effectivePermissions userGroups groupPermissions
      (before ++ (room, some (decodeAcl a)) :: after) isSuperuser =
    effectivePermissions userGroups groupPermissions
      (before ++ (room, some (decodeAcl b)) :: after) isSuperuser

theorem ActsAlike.sameEffect {a b : PersistedRoomAcl}
    (h : ActsAlike (some (decodeAcl a)) (some (decodeAcl b))) (room : Uuid) : SameEffect room a b := by
  intro userGroups groupPermissions isSuperuser before after
  refine effectivePermissions_congr (List.rel_append ?_ (.cons h ?_)) _ _ _
  · exact List.forall₂_same.mpr fun x _ _ _ _ _ => rfl
  · exact List.forall₂_same.mpr fun x _ _ _ _ _ => rfl

/-! ## What saving does to an entry -/

/-- Entries that are opened and saved without an edit. -/
def savedEntries (entries : List RoomAclEntry) : List RoomAclEntry :=
  (entries.map AclEditEntry.fromDomain).map AclEditEntry.toDomain

/-- The entry applies somewhere, or it grants and denies nothing. -/
def Kept (e : RoomAclEntry) : Prop := (e.applyHere || e.applySubs) = false →
  Permissions.fromBitsTruncate e.grant = 0 ∧ Permissions.fromBitsTruncate e.deny = 0

instance (e : RoomAclEntry) : Decidable (Kept e) := inferInstanceAs (Decidable (_ → _))

theorem applyAclEntry_saved {e : RoomAclEntry} (h : Kept e) (userGroups : List String)
    (isTarget : Bool) (granted : Permissions) :
    applyAclEntry userGroups isTarget granted
      (.ofRoomEntry (AclEditEntry.fromDomain e).toDomain) =
      applyAclEntry userGroups isTarget granted (.ofRoomEntry e) := by
  rw [AclEditEntry.toDomain_fromDomain]
  cases hflags : e.applyHere || e.applySubs with
  | true => rw [if_pos rfl]
  | false =>
    obtain ⟨hgrant, hdeny⟩ := h hflags
    obtain ⟨hhere, hsubs⟩ := Bool.or_eq_false_iff.mp hflags
    rw [if_neg Bool.false_ne_true]
    -- off, the entry is passed over; on, it adds and takes away nothing
    have hnothing : (granted ||| 0) &&& ~~~(0 : Permissions) = granted := by
      show (granted ||| 0#32) &&& ~~~0#32 = granted
      rw [BitVec.or_zero, BitVec.not_zero, BitVec.and_allOnes]
    unfold applyAclEntry AclEntry.ofRoomEntry
    dsimp only
    rw [hgrant, hdeny, hhere, hsubs, hnothing]
    cases isTarget <;> simp

theorem actsAlike_saved {entries : List RoomAclEntry} (h : ∀ e ∈ entries, Kept e)
    (inheritAcl : Bool) :
    ActsAlike (some (decodeAcl ⟨inheritAcl, savedEntries entries⟩))
      (some (decodeAcl ⟨inheritAcl, entries⟩)) := by
  intro userGroups base isTarget granted
  have hloop : ∀ start, entries.foldl (fun granted e => applyAclEntry userGroups isTarget granted
      (.ofRoomEntry (AclEditEntry.fromDomain e).toDomain)) start =
      entries.foldl (fun granted e => applyAclEntry userGroups isTarget granted (.ofRoomEntry e))
        start := by
    induction entries with
    | nil => exact fun start => rfl
    | cons e entries ih =>
      intro start
      obtain ⟨he, hrest⟩ := List.forall_mem_cons.mp h
      rw [List.foldl_cons, List.foldl_cons, applyAclEntry_saved he]
      exact ih hrest _
  simp only [applyRoomAcl, decodeAcl, savedEntries, List.foldl_map]
  exact hloop _

theorem savedEntries_eq {entries : List RoomAclEntry}
    (h : ∀ e ∈ entries, (e.applyHere || e.applySubs) = true) : savedEntries entries = entries := by
  rw [savedEntries, List.map_map]
  refine (List.map_congr_left fun e he => ?_).trans (List.map_id entries)
  rw [Function.comp_apply, AclEditEntry.toDomain_fromDomain, if_pos (h e he), id]

/-! ## Saving without an edit -/

section Unedited

variable (blake3 : List UInt8 → Bytes 32) (state : ClientState) {roomId : Uuid} {room : Room}

/-- What Save sends when nothing was edited: at most the trimmed name, and the ACL. -/
theorem toCommands_openFor (hroom : getRoom state roomId = some room) :
    ∃ modal, RoomAclModalState.openFor blake3 state roomId = some modal ∧
      modal.toCommands =
        (if modal.canModify && !(trim room.name).isEmpty && trim room.name != room.name then
          [.renameRoom roomId (trim room.name)] else []) ++
        if modal.canWriteAcl then
          [.setRoomAcl roomId room.inheritAcl (savedEntries room.acls)
            (roomAclVersion blake3 room.inheritAcl room.acls)] else [] := by
  refine ⟨_, congrArg (Option.map _) hroom, ?_⟩
  simp [RoomAclModalState.toCommands, savedEntries]

/-- **Saving an unedited ACL changes nothing**, where no entry with a bit has both flags off. -/
theorem save_unedited (hroom : getRoom state roomId = some room) (hkept : ∀ e ∈ room.acls, Kept e) :
    ∃ modal, RoomAclModalState.openFor blake3 state roomId = some modal ∧
      (modal.canWriteAcl = true → ∃ entries, .setRoomAcl roomId room.inheritAcl entries
        (roomAclVersion blake3 room.inheritAcl room.acls) ∈ modal.toCommands) ∧
      ∀ saved inheritAcl entries baseVersion,
        .setRoomAcl saved inheritAcl entries baseVersion ∈ modal.toCommands →
        saved = roomId ∧ SameEffect roomId ⟨inheritAcl, entries⟩ ⟨room.inheritAcl, room.acls⟩ ∧
        ((∀ e ∈ room.acls, (e.applyHere || e.applySubs) = true) →
          inheritAcl = room.inheritAcl ∧ entries = room.acls) := by
  obtain ⟨modal, hopen, hcommands⟩ := toCommands_openFor blake3 state hroom
  refine ⟨modal, hopen, fun hwrite => ?_, fun saved inheritAcl entries baseVersion hmem => ?_⟩
  · exact ⟨_, by rw [hcommands, if_pos hwrite]; exact List.mem_append_right _ List.mem_cons_self⟩
  · have hsent : Command.setRoomAcl saved inheritAcl entries baseVersion = .setRoomAcl roomId
        room.inheritAcl (savedEntries room.acls)
          (roomAclVersion blake3 room.inheritAcl room.acls) := by
      rw [hcommands, List.mem_append] at hmem
      rcases hmem with hmem | hmem
      · split at hmem <;> simp at hmem
      · split at hmem
        · exact List.mem_singleton.mp hmem
        · exact absurd hmem List.not_mem_nil
    obtain ⟨rfl, rfl, rfl, -⟩ := Command.setRoomAcl.inj hsent
    exact ⟨rfl, (actsAlike_saved hkept _).sameEffect _, fun h => ⟨rfl, savedEntries_eq h⟩⟩

end Unedited

/-! ## On the server -/

/-- What a command asks of the server. -/
def Command.deliver (cfg : Config) (sender : HandleId) : Command → World → World
  | .renameRoom roomId newName => World.handleRenameRoom sender (some (roomIdFromUuid roomId)) newName
  | .setRoomDescription roomId description =>
    World.handleSetRoomDescription sender (some (roomIdFromUuid roomId)) description
  | .setRoomAcl roomId inheritAcl entries baseVersion =>
    World.handleSetRoomAcl cfg sender roomId.data inheritAcl entries baseVersion

/-- What permissions are computed from, up to the effect of the ACLs. -/
structure SameAccess (w w' : World) : Prop where
  links : parentLink w'.rooms = parentLink w.rooms
  count : w'.rooms.length = w.rooms.length
  groups : w'.store.groups = w.store.groups
  acls : ∀ room, ActsAlike ((w'.store.getRoomAcl room).map decodeAcl)
    ((w.store.getRoomAcl room).map decodeAcl)

namespace SameAccess

variable {w w' w'' : World}

theorem refl (w : World) : SameAccess w w := ⟨rfl, rfl, rfl, fun _ _ _ _ _ => rfl⟩

theorem trans (h : SameAccess w w') (h' : SameAccess w' w'') : SameAccess w w'' where
  links := h'.links.trans h.links
  count := h'.count.trans h.count
  groups := h'.groups.trans h.groups
  acls := fun room _ _ _ _ => (h'.acls room _ _ _ _).trans (h.acls room _ _ _ _)

theorem roomPath (h : SameAccess w w') (room : Uuid) :
    Server.roomPath w'.rooms room = Server.roomPath w.rooms room := by
  have hwalk : ∀ fuel current,
      Server.walkUp w'.rooms fuel current = Server.walkUp w.rooms fuel current := by
    intro fuel
    induction fuel with
    | zero => exact fun current => rfl
    | succ fuel ih =>
      intro current
      simp only [Server.walkUp, h.links, ih]
  rw [Server.roomPath, hwalk, h.count, Server.roomPath]

/-- Everyone has the same permissions in every room. -/
theorem permissions (h : SameAccess w w') (isSuperuser : Bool) (identity : Identity) (room : Uuid) :
    evaluateIdentityPermissions w'.rooms w'.store isSuperuser identity room =
      evaluateIdentityPermissions w.rooms w.store isSuperuser identity room := by
  have hgroups : w'.store.groupPerms = w.store.groupPerms := by
    funext name
    rw [Server.Persistence.groupPerms, h.groups, Server.Persistence.groupPerms]
  unfold evaluateIdentityPermissions
  rw [hgroups]
  refine effectivePermissions_congr ?_ _ _ _
  unfold Server.buildRoomChainOwned
  rw [h.roomPath, List.forall₂_map_left_iff, List.forall₂_map_right_iff]
  exact List.forall₂_same.mpr fun u _ => h.acls u

end SameAccess

/-- An edit of a room that keeps its id and its parent. -/
theorem sameAccess_edit {w w' : World} {k : Uuid} {f : Room → Room} (hid : ∀ r, (f r).id = r.id)
    (hparent : ∀ r, (f r).parent = r.parent)
    (hrooms : w'.rooms = modifyFirst (fun r => r.id == k) f w.rooms)
    (hgroups : w'.store.groups = w.store.groups)
    (hacls : ∀ room, ActsAlike ((w'.store.getRoomAcl room).map decodeAcl)
      ((w.store.getRoomAcl room).map decodeAcl)) : SameAccess w w' where
  links := by rw [hrooms, Server.parentLink_edit hid hparent]
  count := by
    have hids := congrArg List.length (map_key_modifyFirst Room.id (fun r => r.id == k) f hid w.rooms)
    rwa [List.length_map, List.length_map, ← hrooms] at hids
  groups := hgroups
  acls := hacls

/-- A rename edits the name of the room, or nothing. -/
theorem rooms_handleRenameRoom (sender : HandleId) (roomId : Option RoomId) (newName : String)
    (w : World) : (World.handleRenameRoom sender roomId newName w).rooms = w.rooms ∨
      (World.handleRenameRoom sender roomId newName w).rooms =
        modifyFirst (fun r => r.id == World.roomIdOrRoot roomId) (fun r => { r with name := newName })
          w.rooms := by
  unfold World.handleRenameRoom World.requirePermission
  dsimp only
  split
  · cases hdata : w.state.data.renameRoom (World.roomIdOrRoot roomId) newName with
    | none => exact .inl rfl
    | some data =>
      obtain ⟨-, rfl⟩ := Server.StateData.editRoom_eq_some.mp hdata
      exact .inr rfl
  · exact .inl rfl

theorem sameAccess_rename (sender : HandleId) (roomId : Option RoomId) (newName : String)
    (w : World) : SameAccess w (World.handleRenameRoom sender roomId newName w) ∧
      (World.handleRenameRoom sender roomId newName w).store.roomAcls = w.store.roomAcls := by
  have htouches := Server.touches_handleRenameRoom sender roomId newName w
  have hroomAcls : (World.handleRenameRoom sender roomId newName w).store.roomAcls =
      w.store.roomAcls := htouches .roomAcls (by decide)
  have hgroups : (World.handleRenameRoom sender roomId newName w).store.groups = w.store.groups :=
    htouches .groups (by decide)
  have hacls : ∀ room, ActsAlike
      (((World.handleRenameRoom sender roomId newName w).store.getRoomAcl room).map decodeAcl)
      ((w.store.getRoomAcl room).map decodeAcl) := by
    intro room _ _ _ _
    rw [Server.Persistence.getRoomAcl, hroomAcls, Server.Persistence.getRoomAcl]
  refine ⟨?_, hroomAcls⟩
  rcases rooms_handleRenameRoom sender roomId newName w with hrooms | hrooms
  · exact ⟨by rw [hrooms], by rw [hrooms], hgroups, hacls⟩
  · refine sameAccess_edit ?_ ?_ hrooms hgroups hacls
    · exact fun _ => rfl
    · exact fun _ => rfl

/-- A save writes the ACL of its room, or nothing. -/
theorem handleSetRoomAcl_writes (cfg : Config) (sender : HandleId) (room : Uuid) (inheritAcl : Bool)
    (entries : List RoomAclEntry) (baseVersion : Nat) (w : World) :
    let w' := World.handleSetRoomAcl cfg sender room.data inheritAcl entries baseVersion w
    (w'.rooms = w.rooms ∧ w'.store.roomAcls = w.store.roomAcls) ∨
      w'.rooms = modifyFirst (fun r => r.id == room)
        (fun r => { r with inheritAcl := inheritAcl, acls := entries }) w.rooms ∧
      w'.store.roomAcls = w.store.roomAcls.set room ⟨inheritAcl, entries⟩ := by
  unfold World.handleSetRoomAcl World.requirePermission World.applySetRoomAcl
  rw [Bytes.ofList?_data]
  dsimp only
  split
  · split
    · exact .inl ⟨rfl, rfl⟩
    · cases hdata : w.state.data.setRoomAcl room inheritAcl entries with
      | none => exact .inl ⟨rfl, rfl⟩
      | some data =>
        obtain ⟨-, rfl⟩ := Server.StateData.editRoom_eq_some.mp hdata
        -- the members are re-evaluated afterwards
        have hmutes := fun (v : World) (ms : List UserId) => Server.Touches.foldl
          (fun w m => Server.touches_reevaluateMemberMute w m room) ms (w := v)
        refine .inr ⟨?_, ?_⟩
        · exact (hmutes _ _ .rooms (by decide)).trans rfl
        · exact (hmutes _ _ .roomAcls (by decide)).trans rfl
  · exact .inl ⟨rfl, rfl⟩

/-- An ACL that is stored, or the one of a room without a record. -/
theorem actsAlike_stored {p : Server.Persistence} {room : Uuid} {acl : PersistedRoomAcl}
    (h : p.aclContent room = acl) :
    ActsAlike (some (decodeAcl acl)) ((p.getRoomAcl room).map decodeAcl) := by
  subst h
  unfold Server.Persistence.aclContent
  cases p.getRoomAcl room with
  | none =>
    intro userGroups base isTarget granted
    rfl
  | some acl =>
    intro userGroups base isTarget granted
    rfl

/-- Saving the stored ACL of a room as the editor does it. -/
theorem sameAccess_save {cfg : Config} {w : World} {room : Uuid} {inheritAcl : Bool}
    {entries : List RoomAclEntry} (hstored : w.store.aclContent room = ⟨inheritAcl, entries⟩)
    (hkept : ∀ e ∈ entries, Kept e) (sender : HandleId) (baseVersion : Nat) :
    SameAccess w (World.handleSetRoomAcl cfg sender room.data inheritAcl (savedEntries entries)
      baseVersion w) := by
  have htouches := Server.touches_handleSetRoomAcl cfg sender room.data inheritAcl
    (savedEntries entries) baseVersion w
  have hgroups := htouches .groups (by decide)
  rcases handleSetRoomAcl_writes cfg sender room inheritAcl (savedEntries entries) baseVersion w with
    ⟨hrooms, hacls⟩ | ⟨hrooms, hacls⟩
  · refine ⟨by rw [hrooms], by rw [hrooms], hgroups, fun u _ _ _ _ => ?_⟩
    rw [Server.Persistence.getRoomAcl, hacls, Server.Persistence.getRoomAcl]
  · refine sameAccess_edit ?_ ?_ hrooms hgroups fun u => ?_
    · exact fun _ => rfl
    · exact fun _ => rfl
    · rw [Server.Persistence.getRoomAcl, hacls, Table.get_set]
      split
      · rename_i hu
        subst hu
        intro userGroups base isTarget granted
        exact (actsAlike_saved hkept inheritAcl userGroups base isTarget granted).trans
          (actsAlike_stored hstored userGroups base isTarget granted)
      · intro userGroups base isTarget granted
        rfl

/-- The trimmed name leaves the stored ACL, so that the save finds what was opened. -/
theorem sameAccess_renames {cfg : Config} {w : World} {roomId : Uuid} {commands : List Command}
    (h : commands = [] ∨ ∃ newName, commands = [.renameRoom roomId newName]) (sender : HandleId) :
    SameAccess w (commands.foldl (fun w command => command.deliver cfg sender w) w) ∧
      (commands.foldl (fun w command => command.deliver cfg sender w) w).store.roomAcls =
        w.store.roomAcls := by
  rcases h with rfl | ⟨newName, rfl⟩
  · exact ⟨.refl w, rfl⟩
  · exact sameAccess_rename sender (some (roomIdFromUuid roomId)) newName w

/-- **An unedited save on the server.** Whatever becomes of its commands, everyone keeps the
permissions in every room. -/
theorem save_keeps_permissions (cfg : Config) (state : ClientState) {roomId : Uuid} {room : Room}
    (hroom : getRoom state roomId = some room) (hkept : ∀ e ∈ room.acls, Kept e) {w : World}
    (hstored : w.store.aclContent roomId = ⟨room.inheritAcl, room.acls⟩) (sender : HandleId) :
    ∃ modal, RoomAclModalState.openFor cfg.blake3 state roomId = some modal ∧
      let w' := modal.toCommands.foldl (fun w command => command.deliver cfg sender w) w
      ∀ isSuperuser identity u,
        evaluateIdentityPermissions w'.rooms w'.store isSuperuser identity u =
          evaluateIdentityPermissions w.rooms w.store isSuperuser identity u := by
  obtain ⟨modal, hopen, hcommands⟩ := toCommands_openFor cfg.blake3 state hroom
  refine ⟨modal, hopen, SameAccess.permissions ?_⟩
  rw [hcommands, List.foldl_append]
  obtain ⟨hfirst, hacls⟩ := @sameAccess_renames cfg w roomId
    (if modal.canModify && !(trim room.name).isEmpty && trim room.name != room.name then
      [.renameRoom roomId (trim room.name)] else []) (by
      split
      · exact .inr ⟨_, rfl⟩
      · exact .inl rfl) sender
  by_cases hwrite : modal.canWriteAcl = true
  · rw [if_pos hwrite]
    refine hfirst.trans (sameAccess_save ?_ hkept sender _)
    rw [Server.Persistence.aclContent, Server.Persistence.getRoomAcl, hacls]
    exact hstored
  · rw [if_neg hwrite]
    exact hfirst

/-! A room whose rules each apply somewhere, and one with a rule that applies nowhere. -/

def sampleAclState (acls : List RoomAclEntry) : ClientState :=
  { ClientState.new with
    rooms := [⟨Bytes.rep 16 1, "Lobby", rootRoomUuid, none, true, acls, 0⟩]
    effectivePermissions := Permissions.all }

def sampleRules : List RoomAclEntry := [⟨"mods", 4, 2, true, false⟩, ⟨"default", 0, 4, false, true⟩]

theorem save_unedited_sample : ∃ modal, RoomAclModalState.openFor (fun _ => Bytes.rep 32 7)
    (sampleAclState sampleRules) (Bytes.rep 16 1) = some modal ∧
      ∀ saved inheritAcl entries baseVersion,
        .setRoomAcl saved inheritAcl entries baseVersion ∈ modal.toCommands →
          entries = sampleRules := by
  obtain ⟨modal, hopen, -, hsaved⟩ := @save_unedited (fun _ => Bytes.rep 32 7)
    (sampleAclState sampleRules) (Bytes.rep 16 1) _ rfl (by decide)
  exact ⟨modal, hopen, fun _ _ _ _ hmem => ((hsaved _ _ _ _ hmem).2.2 (by decide)).2⟩

def sampleOff : List RoomAclEntry := [⟨"default", 0x20, 0, false, false⟩]

/-- Opened and saved, a rule with both flags off gives every user of its group what it grants. -/
theorem not_save_unedited : ∃ modal, RoomAclModalState.openFor (fun _ => Bytes.rep 32 7)
    (sampleAclState sampleOff) (Bytes.rep 16 1) = some modal ∧ ∃ entries baseVersion,
      .setRoomAcl (Bytes.rep 16 1) true entries baseVersion ∈ modal.toCommands ∧
        ¬ SameEffect (Bytes.rep 16 1) ⟨true, entries⟩ ⟨true, sampleOff⟩ := by
  refine ⟨_, rfl, savedEntries sampleOff, _, List.mem_append_right _ List.mem_cons_self, ?_⟩
  intro h
  have hgranted := h ["default"] (fun _ => some Permissions.defaultPermissions) false
    [(rootRoomUuid, none)] []
  revert hgranted
  decide

end Rumble.Damascene
