import Rumble.Protocol.AclVersion
import Rumble.Server.Pieces
import Rumble.Server.Startup

/-!
# Concurrent ACL saves

`apply_set_room_acl` of `server/src/ops.rs` cut where it can be interrupted: the permission check,
the wait for `acl_write_gate`, the version check, the write to the room list, the write to the
store, the broadcast and one re-evaluation per member. Saves of any number of clients run
interleaved with each other and with every other event that edits no ACL and deletes no room. Each
save that carries a version replaces exactly the ACL it was computed from
(`saves_replace_what_was_loaded`).
-/

namespace Rumble.Server

open Rumble.Lib Rumble.Lib.Transition World

/-! ## ACLs as values -/

/-- A room without a record has the default configuration. -/
def Persistence.aclContent (p : Persistence) (room : Uuid) : PersistedRoomAcl :=
  (p.getRoomAcl room).getD { inheritAcl := true, entries := [] }

/-- The ACL of a room as the room list has it. -/
def World.mirroredAcl (w : World) (room : Uuid) : Option PersistedRoomAcl :=
  (w.state.data.findRoom room).map fun r => { inheritAcl := r.inheritAcl, entries := r.acls }

namespace PersistedRoomAcl

def version (cfg : Config) (a : PersistedRoomAcl) : Nat :=
  roomAclVersion cfg.blake3 a.inheritAcl a.entries

/-- What the version is the hash of. -/
def bytes (a : PersistedRoomAcl) : List UInt8 := aclBytes a.inheritAcl a.entries

/-- Every group name is as long as a string can be. -/
def Sized (a : PersistedRoomAcl) : Prop := ∀ e ∈ a.entries, e.Sized

instance (a : PersistedRoomAcl) : Decidable a.Sized :=
  inferInstanceAs (Decidable (∀ e ∈ a.entries, e.Sized))

theorem bytes_inj {a b : PersistedRoomAcl} (ha : a.Sized) (hb : b.Sized) (h : a.bytes = b.bytes) :
    a = b := by
  obtain ⟨i, es⟩ := a
  obtain ⟨i', es'⟩ := b
  obtain ⟨rfl, rfl⟩ := aclBytes_inj ha hb h
  rfl

end PersistedRoomAcl

theorem currentRoomAclVersion_eq (cfg : Config) (p : Persistence) (room : Uuid) :
    currentRoomAclVersion cfg p room = (p.aclContent room).version cfg := by
  unfold currentRoomAclVersion Persistence.aclContent
  cases p.getRoomAcl room <;> rfl

/-! ## The pieces of a save -/

/-- A SetRoomAcl request that may write. `loaded` is what its editor had read when the version was
computed; `none` sends no version. -/
structure AclSave where
  sender : HandleId
  room : Uuid
  content : PersistedRoomAcl
  loaded : Option PersistedRoomAcl
  deriving DecidableEq

/-- The `base_version` on the wire. -/
def baseVersion (cfg : Config) (loaded : Option PersistedRoomAcl) : Nat :=
  (loaded.map (PersistedRoomAcl.version cfg)).getD 0

/-- Where a save stands. -/
inductive SaveStage where
  /-- Permission granted, waiting for the gate. -/
  | waiting
  /-- Holds the gate. -/
  | gated
  /-- The version matched. -/
  | checked
  /-- The room list is written. -/
  | mirrored
  /-- The store is written. -/
  | persisted
  /-- Announced; these members are still to be re-evaluated. -/
  | announced (members : List UserId)
  deriving DecidableEq

structure SaveTask where
  save : AclSave
  stage : SaveStage
  deriving DecidableEq

/-- A persisted save, with the ACL that its store write replaced. -/
structure SavedAcl where
  save : AclSave
  replaced : PersistedRoomAcl
  deriving DecidableEq

/-- The world, whether `acl_write_gate` is held, and the saves persisted so far. -/
structure AclServer where
  world : World
  gate : Bool
  saves : List SavedAcl

/-- The event saves an ACL or deletes a room. -/
def Event.editsAcls : Event → Bool
  | .envelope _ (.setRoomAcl ..) | .envelope _ (.deleteRoom _) => true
  | _ => false

/-- A SetRoomAcl request, or any event that edits no ACL. -/
inductive AclRequest where
  | save (sender : HandleId) (roomId : List UInt8) (content : PersistedRoomAcl)
      (loaded : Option PersistedRoomAcl)
  | other (event : { e : Event // e.editsAcls = false })

namespace World

/-- The room a SetRoomAcl request may write, or a refusal. -/
def aclRequest (w : World) (sender : HandleId) (roomId : List UInt8) : Option Uuid × World :=
  match Bytes.ofList? 16 roomId with
  | none => (none, w.sendCommandResult sender "SetRoomAcl" false "Missing or invalid room ID")
  | some room =>
    if (evaluateUserPermissions w.state w.store sender room).contains Permissions.write then
      (some room, w)
    else (none, w.sendPermissionDenied sender room Permissions.write)

end World

/-- The next piece of a save. A save that waits for a gate that is held goes on waiting. -/
def SaveTask.resume (cfg : Config) (s : AclServer) (t : SaveTask) : AclServer × Option SaveTask :=
  let reply (success : Bool) (message : String) : AclServer × Option SaveTask :=
    ({ s with
      world := s.world.sendCommandResult t.save.sender "SetRoomAcl" success message
      gate := false }, none)
  match t.stage with
  | .waiting =>
    if s.gate then (s, some t) else ({ s with gate := true }, some { t with stage := .gated })
  | .gated =>
    let base := baseVersion cfg t.save.loaded
    if base ≠ 0 ∧ base ≠ currentRoomAclVersion cfg s.world.store t.save.room then
      reply false aclConflictMsg
    else (s, some { t with stage := .checked })
  | .checked =>
    match s.world.state.data.setRoomAcl t.save.room t.save.content.inheritAcl
        t.save.content.entries with
    | none => reply false "Room not found"
    | some data =>
      ({ s with world := s.world.mapData fun _ => data }, some { t with stage := .mirrored })
  | .mirrored =>
    ({ s with
      world := s.world.mapStore (·.setRoomAcl t.save.room t.save.content)
      saves := s.saves ++ [⟨t.save, s.world.store.aclContent t.save.room⟩] },
      some { t with stage := .persisted })
  | .persisted =>
    ({ s with world := s.world.broadcastStateUpdate (.roomAclChanged
        (some (roomIdFromUuid t.save.room)) t.save.content.inheritAcl t.save.content.entries) },
      some { t with stage := .announced (s.world.state.data.getRoomMembers t.save.room) })
  | .announced (m :: ms) =>
    ({ s with world := s.world.reevaluateMemberMute m t.save.room },
      some { t with stage := .announced ms })
  | .announced [] => reply true "Room ACL updated"

def AclRequest.start (cfg : Config) (env : Env) (s : AclServer) :
    AclRequest → AclServer × Option SaveTask
  | .save sender roomId content loaded =>
    if s.world.accepts sender then
      match s.world.aclRequest sender roomId with
      | (none, w) => ({ s with world := w }, none)
      | (some room, w) => ({ s with world := w }, some ⟨⟨sender, room, content, loaded⟩, .waiting⟩)
    else (s, none)
  | .other e => ({ s with world := step cfg env s.world e.1 }, none)

/-- ACL saves between the other events. -/
def aclProgram (cfg : Config) : Interleaved Env AclServer AclRequest SaveTask where
  start := AclRequest.start cfg
  resume := fun _ => SaveTask.resume cfg

/-- The server at rest, started over a database. -/
def AclServer.boot (store : Persistence) : Pool AclServer SaveTask :=
  ⟨⟨World.boot store, false, []⟩, []⟩

/-! ## Other events leave the ACLs alone -/

section Frame

variable {w w' : World} {room : Uuid} {a : PersistedRoomAcl}

theorem aclContent_of_touches {S : List Field} (h : Touches S w w') (hS : Field.roomAcls ∉ S) :
    w'.store.aclContent = w.store.aclContent := by
  have hacls : w'.store.roomAcls = w.store.roomAcls := h .roomAcls hS
  funext room
  rw [Persistence.aclContent, Persistence.getRoomAcl, hacls]
  rfl

theorem mirroredAcl_of_rooms (hrooms : w'.state.data.rooms = w.state.data.rooms) :
    w'.mirroredAcl = w.mirroredAcl := by
  funext room
  rw [World.mirroredAcl, StateData.findRoom, hrooms]
  rfl

theorem mirroredAcl_of_touches {S : List Field} (h : Touches S w w') (hS : Field.rooms ∉ S) :
    w'.mirroredAcl = w.mirroredAcl := mirroredAcl_of_rooms (h .rooms hS)

/-- An in-place edit that keeps the ACL fields. -/
theorem mirroredAcl_edit {k : Uuid} {f : Room → Room} {d : StateData}
    (hid : ∀ r, (f r).id = r.id) (hf : ∀ r, (f r).inheritAcl = r.inheritAcl ∧ (f r).acls = r.acls)
    (hd : w.state.data.editRoom k f = some d) :
    (w.mapData fun _ => d).mirroredAcl = w.mirroredAcl := by
  have hfind : ∀ room, d.findRoom room =
      if room = k then (w.state.data.findRoom room).map f else w.state.data.findRoom room := by
    intro room
    have h : ((w.state.data.editRoom k f).getD w.state.data).findRoom room = _ :=
      findRoom_editRoom hid
    rwa [hd, Option.getD_some] at h
  funext room
  simp only [World.mirroredAcl, mapData_state, hfind]
  split
  · rw [Option.map_map]
    congr 1
    funext r
    simp only [Function.comp_apply, hf]
  · rfl

/-- A room keeps its mirrored ACL when another one is created. -/
theorem mirroredAcl_applyCreateRoom (env : Env) (name : String) (parent : Option Uuid)
    (description : Option String) (h : w.mirroredAcl room = some a) :
    (w.applyCreateRoom env name parent description).2.mirroredAcl room = some a := by
  unfold applyCreateRoom
  split
  · exact h
  obtain ⟨r, hr, rfl⟩ := Option.map_eq_some_iff.mp h
  simp only [World.mirroredAcl, broadcastStateUpdate_state, mapStore_state, mapData_state]
  unfold StateData.createRoomWithParentDesc StateData.findRoom
  unfold StateData.findRoom at hr
  rw [List.find?_append, hr]
  rfl

theorem mirroredAcl_requirePermission {t : HandleId} {r : Uuid} {p : Permissions}
    {rest : World → World} (h : w.mirroredAcl room = some a)
    (hrest : (rest w).mirroredAcl room = some a) :
    (w.requirePermission t r p rest).mirroredAcl room = some a := by
  unfold requirePermission
  split
  · exact hrest
  · exact h

/-- A room keeps its mirrored ACL over every event that edits none. -/
theorem mirroredAcl_step (cfg : Config) (env : Env) {e : Event} (he : e.editsAcls = false)
    (h : w.mirroredAcl room = some a) : (step cfg env w e).mirroredAcl room = some a := by
  have hedit : ∀ {k : Uuid} {f : Room → Room} {d : StateData}, w.state.data.editRoom k f = some d →
      (∀ r, (f r).id = r.id) → (∀ r, (f r).inheritAcl = r.inheritAcl ∧ (f r).acls = r.acls) →
      (w.mapData fun _ => d).mirroredAcl room = some a := fun hd hid hf =>
    (congrFun (mirroredAcl_edit hid hf hd) room).trans h
  rcases rooms_step_cases cfg env w e with hrooms | ⟨t, -, hreq⟩
  · rwa [mirroredAcl_of_rooms hrooms]
  generalize step cfg env w e = w' at hreq
  cases hreq with
  | delete | setAcl => exact Bool.noConfusion he
  | create name parent description =>
    unfold handleCreateRoom
    refine mirroredAcl_requirePermission h ?_
    have hop := mirroredAcl_applyCreateRoom env name (parent.bind uuidFromRoomId) description h
    split
    · rename_i heq; rw [heq] at hop; exact hop
    · rename_i heq; rw [heq] at hop; exact hop
  | rename r newName =>
    unfold handleRenameRoom
    refine mirroredAcl_requirePermission h ?_
    dsimp only
    split
    · exact h
    · rename_i d hd
      exact hedit hd (fun _ => rfl) fun _ => ⟨rfl, rfl⟩
  | move r newParent =>
    unfold handleMoveRoom
    refine mirroredAcl_requirePermission h (mirroredAcl_requirePermission h ?_)
    dsimp only
    split
    · exact h
    split
    · exact h
    split
    · exact h
    · rename_i d hd
      exact hedit hd (fun _ => rfl) fun _ => ⟨rfl, rfl⟩
  | setDescription r description =>
    unfold handleSetRoomDescription
    refine mirroredAcl_requirePermission h ?_
    dsimp only
    split
    · exact h
    · rename_i d hd
      exact hedit hd (fun _ => rfl) fun _ => ⟨rfl, rfl⟩

theorem aclContent_step (cfg : Config) (env : Env) (w : World) {e : Event}
    (he : e.editsAcls = false) : (step cfg env w e).store.aclContent = w.store.aclContent := by
  refine aclContent_of_touches (touches_step cfg env w e) ?_
  cases e with
  | envelope t payload =>
    cases payload
    case deleteRoom | setRoomAcl => exact Bool.noConfusion he
    all_goals
      dsimp only [Event.footprint, footprint]
      decide
  | connect | readTimeout | datagram | connectionLost | sweep =>
    dsimp only [Event.footprint]
    decide

/-- The refusals of a request only add to the log. -/
theorem touches_aclRequest (w : World) (sender : HandleId) (roomId : List UInt8) :
    Touches [.log] w (w.aclRequest sender roomId).2 := by
  unfold aclRequest
  split
  · exact .sendCommandResult .refl _ _ _ _
  split
  · exact .refl
  · exact .sendPermissionDenied .refl _ _ _

end Frame

/-! ## The invariant -/

/-- The ACLs after a list of saves. -/
def contentAfter (store : Persistence) (saves : List SavedAcl) : Uuid → PersistedRoomAcl :=
  saves.foldl (fun c s => Function.update c s.save.room s.save.content) store.aclContent

theorem contentAfter_snoc (store : Persistence) (saves : List SavedAcl) (c : SavedAcl) :
    contentAfter store (saves ++ [c]) =
      Function.update (contentAfter store saves) c.save.room c.save.content := by
  rw [contentAfter, List.foldl_append]
  rfl

/-- Every save replaced what the saves before it left, and what its editor had loaded. -/
def NoLostSave (store : Persistence) (saves : List SavedAcl) : Prop :=
  ∀ pre c, pre ++ [c] <+: saves →
    c.replaced = contentAfter store pre c.save.room ∧ ∀ a, c.save.loaded = some a → c.replaced = a

theorem NoLostSave.snoc {store : Persistence} {saves : List SavedAcl} {c : SavedAcl}
    (h : NoLostSave store saves) (hreplaced : c.replaced = contentAfter store saves c.save.room)
    (hloaded : ∀ a, c.save.loaded = some a → c.replaced = a) : NoLostSave store (saves ++ [c]) := by
  intro pre c' hp
  rcases List.prefix_concat_iff.mp hp with heq | hp
  · obtain ⟨hpre, hc⟩ := List.append_inj' heq rfl
    obtain rfl := hpre
    obtain rfl := List.singleton_inj.mp hc
    exact ⟨hreplaced, hloaded⟩
  · exact h pre c' hp

/-- Among the ACLs of `C`, group names fit and no two have the same version by a collision. -/
structure CollisionFree (cfg : Config) (C : PersistedRoomAcl → Prop) : Prop where
  sized : ∀ a, C a → a.Sized
  hash : ∀ a b, C a → C b → a.version cfg = b.version cfg → a.bytes = b.bytes

theorem CollisionFree.version_inj {cfg : Config} {C : PersistedRoomAcl → Prop}
    (h : CollisionFree cfg C) {a b : PersistedRoomAcl} (ha : C a) (hb : C b)
    (hv : a.version cfg = b.version cfg) : a = b :=
  PersistedRoomAcl.bytes_inj (h.sized a ha) (h.sized b hb) (h.hash a b ha hb hv)

section Invariant

variable {cfg : Config} {store : Persistence} {C : PersistedRoomAcl → Prop}

/-- The store holds what the saves left, all of it in `C`, and no save was lost. -/
structure SavesOk (store : Persistence) (C : PersistedRoomAcl → Prop) (s : AclServer) : Prop where
  stored : s.world.store.aclContent = contentAfter store s.saves
  known : ∀ room, C (s.world.store.aclContent room)
  kept : NoLostSave store s.saves

/-- The save holds the gate. -/
def SaveTask.inside (t : SaveTask) : Bool := t.stage != .waiting

/-- What a save knows about the ACLs of its room at its stage. -/
def SaveTask.knows (s : AclServer) (t : SaveTask) : Prop :=
  match t.stage with
  | .waiting | .gated => True
  | .checked => ∀ a, t.save.loaded = some a → s.world.store.aclContent t.save.room = a
  | .mirrored => (∀ a, t.save.loaded = some a → s.world.store.aclContent t.save.room = a) ∧
      s.world.mirroredAcl t.save.room = some t.save.content
  | .persisted | .announced _ => s.world.store.aclContent t.save.room = t.save.content ∧
      s.world.mirroredAcl t.save.room = some t.save.content

structure SaveOk (C : PersistedRoomAcl → Prop) (s : AclServer) (t : SaveTask) : Prop where
  content : C t.save.content
  loaded : ∀ a, t.save.loaded = some a → C a
  gate : t.inside = true → s.gate = true
  knows : t.knows s

/-- At most one save holds the gate. -/
def Exclusive (t t' : SaveTask) : Prop := ¬ (t.inside = true ∧ t'.inside = true)

/-- A save that waits knows nothing yet. -/
theorem SaveOk.waiting {s s' : AclServer} {t : SaveTask} (h : SaveOk C s t)
    (hout : t.inside = false) : SaveOk C s' t := by
  have hstage : t.stage = .waiting := by simpa [SaveTask.inside] using hout
  refine ⟨h.content, h.loaded, fun hin => ?_, ?_⟩
  · rw [hout] at hin
    exact Bool.noConfusion hin
  · simp only [SaveTask.knows, hstage]

/-- What a save knows survives a change that keeps the stored ACLs and the mirrored ones. -/
theorem SaveTask.knows_frame {s s' : AclServer} {t : SaveTask}
    (hstored : s'.world.store.aclContent = s.world.store.aclContent)
    (hmirror : ∀ room a, s.world.mirroredAcl room = some a → s'.world.mirroredAcl room = some a)
    (h : t.knows s) : t.knows s' := by
  unfold SaveTask.knows at h ⊢
  rw [hstored]
  split at h <;> simp_all

theorem SaveOk.frame {s s' : AclServer} {t : SaveTask} (hgate : s'.gate = s.gate)
    (hstored : s'.world.store.aclContent = s.world.store.aclContent)
    (hmirror : ∀ room a, s.world.mirroredAcl room = some a → s'.world.mirroredAcl room = some a)
    (h : SaveOk C s t) : SaveOk C s' t :=
  ⟨h.content, h.loaded, fun hin => hgate ▸ h.gate hin, t.knows_frame hstored hmirror h.knows⟩

/-- The next piece of the save that holds the gate, when it stays inside. -/
theorem keeps_inside {s s' : AclServer} {t t' : SaveTask} (ht : t.inside = true)
    (hI : SavesOk store C s') (hJ : SaveOk C s' t') :
    Interleaved.Keeps (SavesOk store C) (SaveOk C) Exclusive (Exclusive t) s (s', some t') := by
  have hout : ∀ x, Exclusive t x → x.inside = false := fun x hx => by
    simpa [Exclusive, ht] using hx
  refine ⟨hI, fun x hx => ?_, fun x hx h => h.waiting (hout x hx), fun x _ y hy _ hin => ?_⟩
  · rwa [← Option.some.inj hx]
  · rw [hout y hy] at hin
    exact Bool.noConfusion hin.2

/-- The last piece of the save that holds the gate. -/
theorem keeps_leave {s s' : AclServer} {t : SaveTask} (ht : t.inside = true)
    (hI : SavesOk store C s') :
    Interleaved.Keeps (SavesOk store C) (SaveOk C) Exclusive (Exclusive t) s (s', none) :=
  ⟨hI, fun _ hx => (Option.not_mem_none _ hx).elim,
    fun x hx h => h.waiting (by simpa [Exclusive, ht] using hx),
    fun _ hx => (Option.not_mem_none _ hx).elim⟩

/-- A reply only adds to the log. -/
theorem SavesOk.reply {s : AclServer} (h : SavesOk store C s) (b : Bool) (t : HandleId)
    (c : String) (ok : Bool) (m : String) :
    SavesOk store C { s with world := s.world.sendCommandResult t c ok m, gate := b } :=
  ⟨h.stored, h.known, h.kept⟩

/-- A save that has its turn at the gate. -/
theorem keeps_waiting {s : AclServer} {t : SaveTask} (hI : SavesOk store C s) (hJ : SaveOk C s t)
    (hstage : t.stage = .waiting) :
    Interleaved.Keeps (SavesOk store C) (SaveOk C) Exclusive (Exclusive t) s
      (t.resume cfg s) := by
  simp only [SaveTask.resume, hstage]
  split
  · refine ⟨hI, fun x hx => ?_, fun x _ h => h, fun x hx y hy _ => ?_⟩
    · rwa [← Option.some.inj hx]
    · rwa [← Option.some.inj hx]
  · rename_i hgate
    -- The gate is free, so every other save is still waiting.
    have hout : ∀ x, SaveOk C s x → x.inside = false := fun x hx => by
      by_contra hin
      exact hgate (hx.gate (by simpa using hin))
    refine ⟨⟨hI.stored, hI.known, hI.kept⟩, fun x hx => ?_, fun x _ h => h.waiting (hout x h),
      fun x _ y _ h hin => ?_⟩
    · obtain rfl := Option.some.inj hx
      exact ⟨hJ.content, hJ.loaded, fun _ => rfl, trivial⟩
    · rw [hout y h] at hin
      exact Bool.noConfusion hin.2

/-- The ACL a written room list mirrors. -/
theorem mirroredAcl_setRoomAcl {w : World} {room : Uuid} {content : PersistedRoomAcl}
    {d : StateData} (hd : w.state.data.setRoomAcl room content.inheritAcl content.entries = some d) :
    (w.mapData fun _ => d).mirroredAcl room = some content := by
  have hfind : ((w.state.data.editRoom room fun r => { r with
      inheritAcl := content.inheritAcl, acls := content.entries }).getD
        w.state.data).findRoom room = _ := findRoom_editRoom fun _ => rfl
  obtain ⟨⟨r, hr, hid⟩, -⟩ := StateData.editRoom_eq_some.mp hd
  have hsome : (w.state.data.findRoom room).isSome = true :=
    mem_ids.mp (hid ▸ List.mem_map_of_mem hr)
  obtain ⟨x, hx⟩ := Option.isSome_iff_exists.mp hsome
  have hd' : (w.state.data.editRoom room fun r =>
    { r with inheritAcl := content.inheritAcl, acls := content.entries }) = some d := hd
  rw [hd', Option.getD_some, if_pos rfl, hx] at hfind
  simp only [World.mirroredAcl, mapData_state, hfind, Option.map_some]

theorem aclContent_setRoomAcl (p : Persistence) (room : Uuid) (a : PersistedRoomAcl) :
    (p.setRoomAcl room a).aclContent = Function.update p.aclContent room a := by
  funext k
  unfold Persistence.aclContent Persistence.getRoomAcl Persistence.setRoomAcl
  by_cases hk : k = room
  · subst hk
    simp
  · rw [Function.update_of_ne hk]
    dsimp only
    rw [Table.get_set_ne hk]

/-- A version that matches was computed from the stored ACL. -/
theorem loaded_of_match (hfree : CollisionFree cfg C) {s : AclServer} {t : SaveTask}
    (hI : SavesOk store C s) (hJ : SaveOk C s t)
    (hmatch : ¬ (baseVersion cfg t.save.loaded ≠ 0 ∧
      baseVersion cfg t.save.loaded ≠ currentRoomAclVersion cfg s.world.store t.save.room))
    {a : PersistedRoomAcl} (ha : t.save.loaded = some a) :
    s.world.store.aclContent t.save.room = a := by
  have hbase : baseVersion cfg t.save.loaded = a.version cfg := by rw [ha]; rfl
  rw [hbase, currentRoomAclVersion_eq] at hmatch
  have hne : a.version cfg ≠ 0 := roomAclVersion_ne_zero _ _ _
  have hv : a.version cfg = (s.world.store.aclContent t.save.room).version cfg := by
    by_contra hv
    exact hmatch ⟨hne, hv⟩
  exact (hfree.version_inj (hJ.loaded a ha) (hI.known _) hv).symm

/-- **One piece of a save.** -/
theorem keeps_resume (hfree : CollisionFree cfg C) {s : AclServer} {t : SaveTask}
    (hI : SavesOk store C s) (hJ : SaveOk C s t) :
    Interleaved.Keeps (SavesOk store C) (SaveOk C) Exclusive (Exclusive t) s
      (t.resume cfg s) := by
  obtain ⟨save, stage⟩ := t
  have hknows := hJ.knows
  cases stage with
  | waiting => exact keeps_waiting hI hJ rfl
  | gated =>
    simp only [SaveTask.resume]
    split
    · exact keeps_leave rfl (hI.reply _ _ _ _ _)
    · rename_i hmatch
      exact keeps_inside rfl hI
        ⟨hJ.content, hJ.loaded, fun _ => hJ.gate rfl, fun a ha => loaded_of_match hfree hI hJ hmatch ha⟩
  | checked =>
    simp only [SaveTask.resume]
    split
    · exact keeps_leave rfl (hI.reply _ _ _ _ _)
    · rename_i d hd
      exact keeps_inside rfl ⟨hI.stored, hI.known, hI.kept⟩
        ⟨hJ.content, hJ.loaded, fun _ => hJ.gate rfl, hknows, mirroredAcl_setRoomAcl hd⟩
  | mirrored =>
    simp only [SaveTask.resume]
    obtain ⟨hloaded, hmirror⟩ := hknows
    have hstored := aclContent_setRoomAcl s.world.store save.room save.content
    refine keeps_inside rfl ⟨?_, fun room => ?_, ?_⟩
      ⟨hJ.content, hJ.loaded, fun _ => hJ.gate rfl, ?_, hmirror⟩
    · rw [contentAfter_snoc, ← hI.stored]
      exact hstored
    · show C ((s.world.store.setRoomAcl save.room save.content).aclContent room)
      rw [hstored, Function.update_apply]
      split
      · exact hJ.content
      · exact hI.known room
    · exact hI.kept.snoc (congrFun hI.stored save.room) hloaded
    · show (s.world.store.setRoomAcl save.room save.content).aclContent save.room = save.content
      rw [hstored, Function.update_self]
  | persisted =>
    exact keeps_inside rfl ⟨hI.stored, hI.known, hI.kept⟩
      ⟨hJ.content, hJ.loaded, fun _ => hJ.gate rfl, hknows⟩
  | announced members =>
    cases members with
    | nil => exact keeps_leave rfl (hI.reply _ _ _ _ _)
    | cons m ms =>
      have ht := touches_reevaluateMemberMute s.world m save.room
      have hstored := aclContent_of_touches ht (by decide)
      have hmirror := mirroredAcl_of_touches ht (by decide)
      refine keeps_inside rfl ⟨hstored.trans hI.stored, fun room => ?_, hI.kept⟩
        ⟨hJ.content, hJ.loaded, fun _ => hJ.gate rfl,
          (congrFun hstored _).trans hknows.1, (congrFun hmirror _).trans hknows.2⟩
      show C ((s.world.reevaluateMemberMute m save.room).store.aclContent room)
      rw [hstored]
      exact hI.known room

/-- The ACLs a request carries are in `C`. -/
def AclRequest.Within (C : PersistedRoomAcl → Prop) : AclRequest → Prop
  | .save _ _ content loaded => C content ∧ ∀ a, loaded = some a → C a
  | .other _ => True

/-- **The first piece of a request**, or another event. -/
theorem keeps_start (env : Env) {s : AclServer} {r : AclRequest} (hr : r.Within C)
    (hI : SavesOk store C s) :
    Interleaved.Keeps (SavesOk store C) (SaveOk C) Exclusive (fun _ => True) s
      (r.start cfg env s) := by
  have hframe : ∀ w' : World, w'.store.aclContent = s.world.store.aclContent →
      SavesOk store C { s with world := w' } := fun w' hw' =>
    ⟨hw'.trans hI.stored, fun room => by rw [hw']; exact hI.known room, hI.kept⟩
  cases r with
  | other e =>
    have hstored := aclContent_step cfg env s.world e.2
    exact ⟨hframe _ hstored, fun _ hx => (Option.not_mem_none _ hx).elim,
      fun x _ h => h.frame (by rfl) hstored fun _ _ => mirroredAcl_step cfg env e.2,
      fun _ hx => (Option.not_mem_none _ hx).elim⟩
  | save sender roomId content loaded =>
    simp only [AclRequest.start]
    have ht := touches_aclRequest s.world sender roomId
    have hstored := aclContent_of_touches ht (by decide)
    have hmirror := mirroredAcl_of_touches ht (by decide)
    split
    swap
    · exact ⟨hI, fun _ hx => (Option.not_mem_none _ hx).elim, fun _ _ h => h,
        fun _ hx => (Option.not_mem_none _ hx).elim⟩
    generalize s.world.aclRequest sender roomId = verdict at hstored hmirror ⊢
    have hothers : ∀ x, SaveOk C s x → SaveOk C { s with world := verdict.2 } x := fun x h =>
      h.frame (by rfl) hstored fun room a ha => by rw [← ha, ← hmirror]
    obtain ⟨_ | room, w'⟩ := verdict
    · exact ⟨hframe _ hstored, fun _ hx => (Option.not_mem_none _ hx).elim,
        fun x _ h => hothers x h, fun _ hx => (Option.not_mem_none _ hx).elim⟩
    · refine ⟨hframe _ hstored, fun x hx => ?_, fun x _ h => hothers x h,
        fun x hx y _ _ hin => ?_⟩
      · obtain rfl := Option.some.inj hx
        exact ⟨hr.1, hr.2, fun hin => Bool.noConfusion hin, trivial⟩
      · obtain rfl := Option.some.inj hx
        exact Bool.noConfusion hin.1

end Invariant

/-! ## A save that runs alone -/

theorem alone_announced (cfg : Config) (env : Env) (save : AclSave) (saves : List SavedAcl)
    (members : List UserId) : ∀ w : World, (aclProgram cfg).Alone env ⟨w, true, saves⟩
      ⟨save, .announced members⟩ ⟨(members.foldl (fun w m => w.reevaluateMemberMute m save.room)
        w).sendCommandResult save.sender "SetRoomAcl" true "Room ACL updated", false, saves⟩ := by
  induction members with
  | nil => exact fun w => .last rfl
  | cons m ms ih => exact fun w => .next rfl (ih _)

theorem alone_checked (cfg : Config) (env : Env) (save : AclSave) (saves : List SavedAcl)
    {w : World} {d : StateData}
    (hd : w.state.data.setRoomAcl save.room save.content.inheritAcl save.content.entries = some d) :
    let written := ((w.mapData fun _ => d).mapStore
      (·.setRoomAcl save.room save.content)).broadcastStateUpdate (.roomAclChanged
        (some (roomIdFromUuid save.room)) save.content.inheritAcl save.content.entries)
    (aclProgram cfg).Alone env ⟨w, true, saves⟩ ⟨save, .checked⟩
      ⟨((written.state.data.getRoomMembers save.room).foldl
        (fun w m => w.reevaluateMemberMute m save.room) written).sendCommandResult save.sender
          "SetRoomAcl" true "Room ACL updated", false,
        saves ++ [⟨save, w.store.aclContent save.room⟩]⟩ := by
  have hmirror : (aclProgram cfg).resume env ⟨w, true, saves⟩ ⟨save, .checked⟩ =
      (⟨w.mapData fun _ => d, true, saves⟩, some ⟨save, .mirrored⟩) := by
    simp only [aclProgram, SaveTask.resume, hd]
  exact .next hmirror (.next rfl (.next rfl (alone_announced cfg env save _ _ _)))

/-- **The pieces make the handler.** A request that passes its checks and whose save runs alone
ends in the world the handler computes. -/
theorem save_alone (cfg : Config) (env : Env) {w : World} (saves : List SavedAcl)
    {sender : HandleId} {roomId : List UInt8} (content : PersistedRoomAcl)
    (loaded : Option PersistedRoomAcl) (haccepts : w.accepts sender = true) :
    let (s, task) :=
      AclRequest.start cfg env ⟨w, false, saves⟩ (.save sender roomId content loaded)
    ∃ saves', let final : AclServer := ⟨handleSetRoomAcl cfg sender roomId content.inheritAcl
        content.entries (baseVersion cfg loaded) w, false, saves'⟩
      (task = none ∧ s = final) ∨ ∃ t, task = some t ∧ (aclProgram cfg).Alone env s t final := by
  simp only [AclRequest.start, if_pos haccepts, aclRequest, handleSetRoomAcl, requirePermission]
  rcases Bytes.ofList? 16 roomId with _ | room
  · exact ⟨saves, .inl ⟨rfl, rfl⟩⟩
  dsimp only
  by_cases hperm :
    (evaluateUserPermissions w.state w.store sender room).contains Permissions.write = true
  swap
  · rw [if_neg hperm, if_neg hperm]
    exact ⟨saves, .inl ⟨rfl, rfl⟩⟩
  rw [if_pos hperm, if_pos hperm]
  have hnext : ∀ {s' : AclServer}, (aclProgram cfg).Alone env ⟨w, true, saves⟩
      ⟨⟨sender, room, content, loaded⟩, .gated⟩ s' → (aclProgram cfg).Alone env ⟨w, false, saves⟩
        ⟨⟨sender, room, content, loaded⟩, .waiting⟩ s' := fun h => .next rfl h
  unfold applySetRoomAcl
  by_cases hmatch : baseVersion cfg loaded ≠ 0 ∧
    baseVersion cfg loaded ≠ currentRoomAclVersion cfg w.store room
  · rw [if_pos hmatch]
    refine ⟨saves, .inr ⟨_, rfl, hnext (.last ?_)⟩⟩
    simp only [aclProgram, SaveTask.resume, if_pos hmatch]
    rfl
  rw [if_neg hmatch]
  have hchecked : ∀ {s' : AclServer}, (aclProgram cfg).Alone env ⟨w, true, saves⟩
      ⟨⟨sender, room, content, loaded⟩, .checked⟩ s' → (aclProgram cfg).Alone env ⟨w, true, saves⟩
        ⟨⟨sender, room, content, loaded⟩, .gated⟩ s' := fun h =>
    .next (by simp only [aclProgram, SaveTask.resume, if_neg hmatch]) h
  cases hd : w.state.data.setRoomAcl room content.inheritAcl content.entries with
  | none =>
    refine ⟨saves, .inr ⟨_, rfl, hnext (hchecked (.last ?_))⟩⟩
    simp only [aclProgram, SaveTask.resume, hd]
    rfl
  | some d =>
    exact ⟨_, .inr ⟨_, rfl, hnext (hchecked (alone_checked cfg env _ saves hd))⟩⟩

/-! ## Every run -/

/-- The ACL is in the database at start, or is sent or was loaded by a request of the run. -/
def Occurs (store : Persistence) (moves : List (Env × Pick AclRequest)) (a : PersistedRoomAcl) :
    Prop :=
  (∃ room, store.aclContent room = a) ∨
    ∃ env sender roomId content loaded,
      (env, Pick.start (.save sender roomId content loaded)) ∈ moves ∧
        (content = a ∨ loaded = some a)

/-- The save whose success the move reports. -/
def acceptedSave (p : Pool AclServer SaveTask) (m : Env × Pick AclRequest) : Option AclSave :=
  match m.2 with
  | .start _ => none
  | .resume i =>
    match p.tasks[i]? with
    | some ⟨save, .announced []⟩ => some save
    | _ => none

section Runs

variable {cfg : Config} {store : Persistence} {moves : List (Env × Pick AclRequest)}

abbrev AclInvariant (store : Persistence) (moves : List (Env × Pick AclRequest)) :
    Pool AclServer SaveTask → Prop :=
  Interleaved.Holds (SavesOk store (Occurs store moves)) (SaveOk (Occurs store moves)) Exclusive

theorem aclInvariant_boot : AclInvariant store moves (AclServer.boot store) := by
  refine ⟨⟨rfl, fun room => .inl ⟨room, rfl⟩, fun pre c hp => ?_⟩,
    fun _ ht => (List.not_mem_nil ht).elim, .nil⟩
  exact absurd (List.prefix_nil.mp hp) (by simp)

theorem aclInvariant_step (hfree : CollisionFree cfg (Occurs store moves))
    {p : Pool AclServer SaveTask} {m : Env × Pick AclRequest} (hm : m ∈ moves)
    (h : AclInvariant store moves p) : AclInvariant store moves ((aclProgram cfg).step p m) := by
  refine (aclProgram cfg).holds_step (S := fun _ _ r => r.Within (Occurs store moves))
    (R := fun _ _ _ => True) (fun hx hin => hx ⟨hin.2, hin.1⟩)
    (fun a s r hr hI => keeps_start a hr hI) (fun _ s t _ hI hJ => keeps_resume hfree hI hJ) ?_ h
  obtain ⟨env, pick⟩ := m
  cases pick with
  | resume i => exact fun _ _ => trivial
  | start r =>
    cases r with
    | other e => trivial
    | save sender roomId content loaded =>
      exact ⟨.inr ⟨env, sender, roomId, content, loaded, hm, .inl rfl⟩,
        fun a ha => .inr ⟨env, sender, roomId, content, loaded, hm, .inr ha⟩⟩

theorem aclInvariant_run (hfree : CollisionFree cfg (Occurs store moves))
    {pre : List (Env × Pick AclRequest)} (hpre : pre <+: moves) :
    AclInvariant store moves ((aclProgram cfg).run (AclServer.boot store) pre) :=
  List.foldlRecOn (motive := AclInvariant store moves) pre (aclProgram cfg).step aclInvariant_boot
    fun _ h _ hm => aclInvariant_step hfree (hpre.subset hm) h

/-- The reported save is in the room list and in the store. -/
theorem content_of_acceptedSave {p : Pool AclServer SaveTask} {m : Env × Pick AclRequest}
    {save : AclSave} (h : AclInvariant store moves p) (hm : acceptedSave p m = some save) :
    let w := ((aclProgram cfg).step p m).shared.world
    w.mirroredAcl save.room = some save.content ∧ w.store.aclContent save.room = save.content := by
  obtain ⟨env, pick⟩ := m
  cases pick with
  | start r => exact absurd hm (Option.some_ne_none _).symm
  | resume i =>
    simp only [acceptedSave] at hm
    split at hm
    · rename_i save' hi
      obtain rfl := Option.some.inj hm
      obtain ⟨hstored, hmirror⟩ := (h.tasks _ (List.mem_of_getElem? hi)).knows
      simp only [Interleaved.step, hi]
      exact ⟨hmirror, hstored⟩
    · exact absurd hm (Option.some_ne_none _).symm

/-- **Versioned ACL saves lose no update.** For any interleaving, when no two ACLs of the run share
a version by a hash collision: every persisted save replaced what the saves before it had left, and
one that carried a version replaced exactly the ACL that version was computed from; and when a save
reports success, the room list and the store both hold its ACL. -/
theorem saves_replace_what_was_loaded (hfree : CollisionFree cfg (Occurs store moves)) :
    (∀ pre c,
      pre ++ [c] <+: ((aclProgram cfg).run (AclServer.boot store) moves).shared.saves →
        c.replaced = contentAfter store pre c.save.room ∧
          ∀ a, c.save.loaded = some a → c.replaced = a) ∧
    (∀ pre m save, pre ++ [m] <+: moves →
      acceptedSave ((aclProgram cfg).run (AclServer.boot store) pre) m = some save →
        let w := ((aclProgram cfg).run (AclServer.boot store) (pre ++ [m])).shared.world
        w.mirroredAcl save.room = some save.content ∧
          w.store.aclContent save.room = save.content) := by
  refine ⟨(aclInvariant_run hfree (List.prefix_refl _)).shared.kept, ?_⟩
  intro pre m save hp hm
  rw [Interleaved.run_snoc]
  exact content_of_acceptedSave (aclInvariant_run hfree ((List.prefix_append _ _).trans hp)) hm

end Runs

/-- BLAKE3 on the hashed bytes of the two ACLs without entries and on the sample session key. -/
def sampleBlake3 (bytes : List UInt8) : Bytes 32 :=
  if bytes = [1] then ⟨[72, 252, 114, 31, 187, 193, 114, 224, 146, 95, 162, 122, 241, 103, 29, 226,
    37, 186, 146, 113, 52, 128, 41, 152, 177, 10, 21, 104, 161, 136, 101, 43], rfl⟩
  else if bytes = [0] then ⟨[45, 58, 222, 223, 241, 27, 97, 241, 76, 136, 110, 53, 175, 160, 54,
    115, 109, 205, 135, 167, 77, 39, 181, 193, 81, 2, 37, 208, 245, 146, 226, 19], rfl⟩
  else ⟨[223, 108, 149, 147, 226, 250, 172, 69, 65, 175, 34, 248, 247, 61, 237, 119, 182, 94, 26,
    79, 249, 191, 118, 116, 161, 150, 228, 95, 183, 66, 148, 92], rfl⟩

def sampleAclConfig : Config := { sampleConfig with blake3 := sampleBlake3 }

/-- The administrator of connection 1 stops Root from inheriting, having loaded the default. -/
def sampleAclSave : Env × Pick AclRequest :=
  (sampleEnv, .start (.save (primary 1) rootRoomUuid.data ⟨false, []⟩ (some ⟨true, []⟩)))

/-- After a login two saves start from the same ACL; the second waits for the first and is
refused. -/
def concurrentSaves : List (Env × Pick AclRequest) :=
  [(sampleEnv, .start (.other ⟨.connect, rfl⟩)),
    (sampleEnv, .start (.other
      ⟨.envelope (primary 1) (.clientHello "ann" (Bytes.rep 32 9).data none), rfl⟩)),
    (sampleEnv, .start (.other
      ⟨.envelope (primary 1) (.authenticate (List.replicate 64 0) 0 (some sampleCert)), rfl⟩)),
    sampleAclSave, sampleAclSave] ++
  List.replicate 3 (sampleEnv, .resume 0) ++ [(sampleEnv, .resume 1)] ++
  List.replicate 4 (sampleEnv, .resume 0) ++ List.replicate 2 (sampleEnv, .resume 0)

theorem collisionFree_concurrentSaves :
    CollisionFree sampleAclConfig (Occurs sampleAdminStore concurrentSaves) := by
  have hocc : ∀ a, Occurs sampleAdminStore concurrentSaves a →
      a = ⟨true, []⟩ ∨ a = ⟨false, []⟩ := by
    rintro a (⟨room, rfl⟩ | ⟨env, sender, roomId, content, loaded, hm, ha⟩)
    · exact .inl rfl
    · simp only [concurrentSaves, sampleAclSave, List.replicate, List.mem_append, List.mem_cons,
        List.not_mem_nil, Prod.mk.injEq, Pick.start.injEq, AclRequest.save.injEq, reduceCtorEq,
        and_false, or_false, false_or, or_self] at hm
      obtain ⟨-, -, -, rfl, rfl⟩ := hm
      exact ha.elim (fun h => .inr h.symm) fun h => .inl (Option.some.inj h).symm
  have hne : (⟨true, []⟩ : PersistedRoomAcl).version sampleAclConfig ≠
      (⟨false, []⟩ : PersistedRoomAcl).version sampleAclConfig := by decide +kernel
  refine ⟨fun a ha => ?_, fun a b ha hb hv => ?_⟩
  · obtain rfl | rfl := hocc a ha <;> exact fun e he => (List.not_mem_nil he).elim
  · obtain rfl | rfl := hocc a ha <;> obtain rfl | rfl := hocc b hb
    · rfl
    · exact absurd hv hne
    · exact absurd hv.symm hne
    · rfl

/-- Of the two saves one is persisted, over the ACL it had loaded. -/
theorem one_of_concurrentSaves : ∃ c, c.replaced = ⟨true, []⟩ ∧ c.save.content = ⟨false, []⟩ ∧
    ((aclProgram sampleAclConfig).run (AclServer.boot sampleAdminStore)
      concurrentSaves).shared.saves = [c] := by
  have hone : (((aclProgram sampleAclConfig).run (AclServer.boot sampleAdminStore)
      concurrentSaves).shared.saves.map SavedAcl.save) =
        [⟨primary 1, rootRoomUuid, ⟨false, []⟩, some ⟨true, []⟩⟩] := by decide +kernel
  obtain ⟨c, hc, hsave⟩ := List.map_eq_singleton_iff.mp hone
  have hreplaced := (saves_replace_what_was_loaded collisionFree_concurrentSaves).1 [] c
    (by rw [hc]; exact List.prefix_refl _)
  exact ⟨c, hreplaced.2 _ (by rw [hsave]), by rw [hsave], hc⟩

end Rumble.Server
