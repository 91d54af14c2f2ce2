import Rumble.Server.AclSaves

/-!
# ACL saves that fail half way

`apply_set_room_acl` writes the room list, then the store, and tells the clients. The store write
can fail, and the broadcast has an error arm too. Nothing is taken back then, so a save that answers
with an error leaves the server as it was exactly when it is refused before the first write or
writes what is there already (`setRoomAcl_atomic_iff`).
-/

namespace Rumble.Server

open Rumble.Lib World

/-- What the two calls of a save answer that may fail. -/
structure SaveFaults where
  /-- `persist.set_room_acl` fails. -/
  persist : Bool
  /-- The error of `broadcast_state_update`. It has none today; this is the arm of its caller. -/
  broadcast : Option String
  deriving DecidableEq

/-- `applySetRoomAcl` with these answers. -/
def World.applySetRoomAclFaulty (cfg : Config) (faults : SaveFaults) (w : World) (room : Uuid)
    (content : PersistedRoomAcl) (baseVersion : Nat) : OpResult :=
  if baseVersion ≠ 0 ∧ baseVersion ≠ currentRoomAclVersion cfg w.store room then
    (.error aclConflictMsg, w)
  else match w.state.data.setRoomAcl room content.inheritAcl content.entries with
    | none => (.error "Room not found", w)
    | some data =>
      let w := w.mapData fun _ => data
      if faults.persist then (.error "Failed to persist ACL", w)
      else
        let w := w.mapStore (·.setRoomAcl room content)
        match faults.broadcast with
        | some e => (.error ("Failed to broadcast ACL change: " ++ e), w)
        | none =>
          let w := w.broadcastStateUpdate
            (.roomAclChanged (some (roomIdFromUuid room)) content.inheritAcl content.entries)
          (.ok "Room ACL updated",
            (w.state.data.getRoomMembers room).foldl (fun w m => w.reevaluateMemberMute m room) w)

/-- The ACLs in memory and in the store, the server mutes and what the clients were told. -/
structure SameAcls (w w' : World) : Prop where
  mirrored : ∀ room, w'.mirroredAcl room = w.mirroredAcl room
  stored : ∀ room, w'.store.getRoomAcl room = w.store.getRoomAcl room
  muted : ∀ h, (w'.state.handle h).serverMuted = (w.state.handle h).serverMuted
  log : w'.log = w.log

/-- **Atomic on error.** -/
def AtomicOnError (w : World) (r : OpResult) : Prop := ∀ message, r.1 = .error message → SameAcls w r.2

/-- The save is refused before it writes. -/
def World.refusesSave (cfg : Config) (w : World) (room : Uuid) (baseVersion : Nat) : Prop :=
  baseVersion ≠ 0 ∧ baseVersion ≠ currentRoomAclVersion cfg w.store room ∨
    ∀ r ∈ w.state.data.rooms, r.id ≠ room

theorem SameAcls.refl (w : World) : SameAcls w w := ⟨fun _ => rfl, fun _ => rfl, fun _ => rfl, rfl⟩

section

variable {cfg : Config} {faults : SaveFaults} {w : World} {room : Uuid} {content : PersistedRoomAcl}
  {baseVersion : Nat}

/-- Without faults it is the operation. -/
theorem applySetRoomAclFaulty_none : w.applySetRoomAclFaulty cfg ⟨false, none⟩ room content
    baseVersion = w.applySetRoomAcl cfg room content.inheritAcl content.entries baseVersion := by
  unfold applySetRoomAclFaulty applySetRoomAcl
  split
  · rfl
  · cases w.state.data.setRoomAcl room content.inheritAcl content.entries with
    | none => rfl
    | some data => rfl

theorem applySetRoomAclFaulty_of_refuses (h : w.refusesSave cfg room baseVersion) :
    (w.applySetRoomAclFaulty cfg faults room content baseVersion).2 = w := by
  unfold applySetRoomAclFaulty
  split
  · rfl
  · rename_i hfresh
    have hnone : w.state.data.setRoomAcl room content.inheritAcl content.entries = none :=
      StateData.editRoom_eq_none.mpr (h.resolve_left hfresh)
    rw [hnone]

variable (faults) in
/-- A save that is not refused writes the room list, and what comes after depends on the faults. -/
theorem applySetRoomAclFaulty_of_not_refuses (h : ¬ w.refusesSave cfg room baseVersion) :
    ∃ data, w.state.data.setRoomAcl room content.inheritAcl content.entries = some data ∧
      w.applySetRoomAclFaulty cfg faults room content baseVersion =
        let w' := w.mapData fun _ => data
        if faults.persist then (.error "Failed to persist ACL", w')
        else match faults.broadcast with
          | some e => (.error ("Failed to broadcast ACL change: " ++ e),
              w'.mapStore (·.setRoomAcl room content))
          | none => w.applySetRoomAcl cfg room content.inheritAcl content.entries baseVersion := by
  obtain ⟨hfresh, hroom⟩ := not_or.mp h
  cases hdata : w.state.data.setRoomAcl room content.inheritAcl content.entries with
  | none => exact absurd (StateData.editRoom_eq_none.mp hdata) hroom
  | some data =>
    refine ⟨data, rfl, ?_⟩
    rw [applySetRoomAclFaulty, applySetRoomAcl, if_neg hfresh, if_neg hfresh, hdata]

/-- The ACLs that a written room list mirrors. -/
theorem mirroredAcl_mapData {data : StateData}
    (hdata : w.state.data.setRoomAcl room content.inheritAcl content.entries = some data)
    (room' : Uuid) : (w.mapData fun _ => data).mirroredAcl room' =
      if room' = room then some content else w.mirroredAcl room' := by
  split
  · rename_i heq
    exact heq ▸ mirroredAcl_setRoomAcl hdata
  · rename_i hne
    have hfind : ((w.state.data.editRoom room fun r => { r with
        inheritAcl := content.inheritAcl, acls := content.entries }).getD
          w.state.data).findRoom room' = _ := findRoom_editRoom fun _ => rfl
    have hdata' : (w.state.data.editRoom room fun r => { r with
        inheritAcl := content.inheritAcl, acls := content.entries }) = some data := hdata
    rw [hdata', Option.getD_some, if_neg hne] at hfind
    simp only [World.mirroredAcl, mapData_state, hfind]

theorem getRoomAcl_setRoomAcl (p : Persistence) (room' : Uuid) :
    (p.setRoomAcl room content).getRoomAcl room' =
      if room' = room then some content else p.getRoomAcl room' :=
  Table.get_set _ _ _ _

/-- One place of many is overwritten. -/
theorem forall_ite_eq {κ β : Type} [DecidableEq κ] {k : κ} {v : β} {f : κ → β} :
    (∀ x, (if x = k then v else f x) = f x) ↔ f k = v := by
  constructor
  · intro h
    have hk := h k
    rw [if_pos rfl] at hk
    exact hk.symm
  · intro h x
    split
    · rename_i hx
      rw [hx, h]
    · rfl

/-- The room list alone is written. -/
theorem sameAcls_mapData {data : StateData}
    (hdata : w.state.data.setRoomAcl room content.inheritAcl content.entries = some data) :
    SameAcls w (w.mapData fun _ => data) ↔ w.mirroredAcl room = some content := by
  have hmirrored := forall_ite_eq (k := room) (v := some content) (f := w.mirroredAcl)
  constructor
  · exact fun h => hmirrored.mp fun x => (mirroredAcl_mapData hdata x).symm.trans (h.mirrored x)
  · exact fun h => ⟨fun x => (mirroredAcl_mapData hdata x).trans (hmirrored.mpr h x),
      fun _ => rfl, fun _ => rfl, rfl⟩

/-- The store is written as well. -/
theorem sameAcls_mapStore {data : StateData}
    (hdata : w.state.data.setRoomAcl room content.inheritAcl content.entries = some data) :
    SameAcls w ((w.mapData fun _ => data).mapStore (·.setRoomAcl room content)) ↔
      w.mirroredAcl room = some content ∧ w.store.getRoomAcl room = some content := by
  have hstored := forall_ite_eq (k := room) (v := some content) (f := w.store.getRoomAcl)
  constructor
  · exact fun h => ⟨(sameAcls_mapData hdata).mp ⟨h.mirrored, fun _ => rfl, fun _ => rfl, rfl⟩,
      hstored.mp fun x => (getRoomAcl_setRoomAcl w.store x).symm.trans (h.stored x)⟩
  · rintro ⟨hmirrored, h⟩
    have hlist := (sameAcls_mapData hdata).mpr hmirrored
    exact ⟨hlist.mirrored, fun x => (getRoomAcl_setRoomAcl w.store x).trans (hstored.mpr h x),
      fun _ => rfl, rfl⟩

end

/-- Refused at once, without faults, or writing what is there. -/
def SaveSafe (cfg : Config) (faults : SaveFaults) (w : World) (room : Uuid)
    (content : PersistedRoomAcl) (baseVersion : Nat) : Prop :=
  w.refusesSave cfg room baseVersion ∨ faults = ⟨false, none⟩ ∨
    w.mirroredAcl room = some content ∧
      (faults.persist = true ∨ w.store.getRoomAcl room = some content)

/-- **A save is atomic on error** exactly when it is safe. -/
theorem setRoomAcl_atomic_iff (cfg : Config) (faults : SaveFaults) (w : World) (room : Uuid)
    (content : PersistedRoomAcl) (baseVersion : Nat) :
    AtomicOnError w (w.applySetRoomAclFaulty cfg faults room content baseVersion) ↔
      SaveSafe cfg faults w room content baseVersion := by
  by_cases hrefuses : w.refusesSave cfg room baseVersion
  · refine iff_of_true (fun _ _ => ?_) (.inl hrefuses)
    rw [applySetRoomAclFaulty_of_refuses hrefuses]
    exact .refl w
  obtain ⟨data, hdata, heq⟩ := applySetRoomAclFaulty_of_not_refuses faults hrefuses
  rw [heq, SaveSafe, or_iff_right hrefuses]
  obtain ⟨persist, broadcast⟩ := faults
  cases persist with
  | true =>
    have hsame : AtomicOnError w (.error "Failed to persist ACL", w.mapData fun _ => data) ↔
        SameAcls w (w.mapData fun _ => data) := ⟨fun h => h _ rfl, fun h _ _ => h⟩
    refine hsame.trans ((sameAcls_mapData hdata).trans ?_)
    simp
  | false =>
    cases broadcast with
    | some e =>
      have hsame : AtomicOnError w (.error ("Failed to broadcast ACL change: " ++ e),
          (w.mapData fun _ => data).mapStore (·.setRoomAcl room content)) ↔
          SameAcls w ((w.mapData fun _ => data).mapStore (·.setRoomAcl room content)) :=
        ⟨fun h => h _ rfl, fun h _ _ => h⟩
      refine hsame.trans ((sameAcls_mapStore hdata).trans ?_)
      simp
    | none =>
      refine iff_of_true (fun message herror => ?_) (.inl rfl)
      -- Without faults the operation answers with a success.
      obtain ⟨hfresh, -⟩ := not_or.mp hrefuses
      dsimp only at herror
      rw [applySetRoomAcl, if_neg hfresh, hdata] at herror
      cases herror

/-- The write of the first ACL of Root fails: the room list has it and the store does not. -/
theorem not_setRoomAcl_atomic : ¬ AtomicOnError (World.init sampleStore)
    ((World.init sampleStore).applySetRoomAclFaulty sampleConfig ⟨true, none⟩ rootRoomUuid
      ⟨false, []⟩ 0) := by
  intro h
  have hmirrored := (h "Failed to persist ACL" (by decide +kernel)).mirrored rootRoomUuid
  exact absurd hmirrored (by decide +kernel)

end Rumble.Server
