import Rumble.Desktop.Hotkeys
import Rumble.Lib.Disk

/-!
# The settings file

`SettingsStore` of `rumble-desktop-shell/src/settings.rs`: the settings are loaded when the app
starts and written after every change, through a temporary file that is synced and renamed. Every
operation on the disk may fail, the app may be killed between any two of them, and the power may be
lost. The file then holds what it held first or one whole serialization (`stored_run`), a file that
could not be parsed is kept (`kept_run`), and what was saved is what is loaded (`reloaded_run`).
-/

namespace Rumble.Desktop

open Rumble.Lib Rumble.Lib.Transition

/-! ## The settings -/

/-- `KeyboardSettings` as a file holds it, with the single bindings of old files. -/
structure StoredKeyboard extends KeyboardSettings where
  rpcServerEnabled : Bool
  legacyPtt : Option HotkeyBinding
  legacyToggleMute : Option HotkeyBinding
  legacyToggleDeafen : Option HotkeyBinding
  deriving DecidableEq

namespace StoredKeyboard

def default : StoredKeyboard := ⟨⟨true, []⟩, false, none, none, none⟩

/-- `normalize_legacy`, with the ids that `ShortcutEntry::new_id` draws. -/
def normalizeLegacy (newId : Nat → String) (k : StoredKeyboard) : StoredKeyboard :=
  let row (n : Nat) (legacy : Option HotkeyBinding) (function : HotkeyFunction)
      (data : HotkeyData) : List ShortcutEntry :=
    legacy.toList.map fun binding => ⟨newId n, function, data, some binding⟩
  { k with
    shortcuts := k.shortcuts ++ row 0 k.legacyPtt .pushToTalk .hold ++
      row 1 k.legacyToggleMute .muteSelf .toggle ++
      row 2 k.legacyToggleDeafen .deafenSelf .toggle
    legacyPtt := none
    legacyToggleMute := none
    legacyToggleDeafen := none }

end StoredKeyboard

/-- `Settings`; `rest` stands for the other fields, which the store only passes on. -/
structure Settings (R : Type) where
  keyboard : StoredKeyboard
  rest : R
  deriving DecidableEq

/-- `serde_json`, and the defaults of the other fields. -/
structure SettingsFormat (R : Type) where
  fromStr : String → Option (Settings R)
  toStringPretty : Settings R → Option String
  defaultRest : R

namespace Settings

variable {R : Type}

def normalize (newId : Nat → String) (s : Settings R) : Settings R :=
  { s with keyboard := s.keyboard.normalizeLegacy newId }

/-- `Settings::default`. -/
def initialisedDefaults (fmt : SettingsFormat R) : Settings R := ⟨.default, fmt.defaultRest⟩

/-- The single bindings are gone. -/
def Migrated (s : Settings R) : Prop :=
  s.keyboard.legacyPtt = none ∧ s.keyboard.legacyToggleMute = none ∧
    s.keyboard.legacyToggleDeafen = none

theorem migrated_normalize (newId : Nat → String) (s : Settings R) : (s.normalize newId).Migrated :=
  ⟨rfl, rfl, rfl⟩

theorem Migrated.normalize_eq {s : Settings R} (h : s.Migrated) (newId : Nat → String) :
    s.normalize newId = s := by
  obtain ⟨⟨keyboard, rpc, ptt, mute, deafen⟩, rest⟩ := s
  obtain ⟨rfl, rfl, rfl⟩ := h
  unfold normalize StoredKeyboard.normalizeLegacy
  simp

end Settings

/-! ## The store -/

/-- The file at `path`, its `.tmp` and its `.corrupt` sibling. -/
inductive SettingsFile where
  | settings | tmp | corrupt
  deriving DecidableEq

abbrev SettingsDisk := Disk SettingsFile ByteArray

/-- `path` is whether the store has one. -/
structure SettingsStore (R : Type) where
  settings : Settings R
  path : Bool

/-- `backup_corrupt_settings_file`, whose rename may fail. -/
def backupCorruptSettingsFile (disk : SettingsDisk) (renames : Bool) : SettingsDisk × Bool :=
  if renames ∧ (disk.read .settings).isSome then (disk.rename .settings .corrupt, true)
  else (disk, false)

/-- `fs::read_to_string` when the file can be read. -/
inductive ReadOutcome where
  | text (text : String)
  | notFound
  | error
  deriving DecidableEq

def readToString (disk : SettingsDisk) (readable : Bool) : ReadOutcome :=
  if readable then
    match disk.read .settings with
    | none => .notFound
    | some bytes =>
      match String.fromUTF8? bytes with
      | some text => .text text
      | none => .error
  else .error

section Load

variable {R : Type} (fmt : SettingsFormat R) (newId : Nat → String)

/-- The defaults, once what is at `path` has been set aside. -/
def loadDefaults (disk : SettingsDisk) (renames : Bool) : SettingsDisk × SettingsStore R :=
  let backup := backupCorruptSettingsFile disk renames
  (backup.1, ⟨(Settings.initialisedDefaults fmt).normalize newId, backup.2⟩)

/-- `load_from_path`; not `located` without a configuration directory. -/
def loadFromPath (disk : SettingsDisk) (located readable renames : Bool) :
    SettingsDisk × SettingsStore R :=
  if located then
    match readToString disk readable with
    | .text text =>
      match fmt.fromStr text with
      | some settings => (disk, ⟨settings.normalize newId, true⟩)
      | none => loadDefaults fmt newId disk renames
    | .notFound => (disk, ⟨(Settings.initialisedDefaults fmt).normalize newId, true⟩)
    | .error => loadDefaults fmt newId disk renames
  else (disk, ⟨.initialisedDefaults fmt, false⟩)

end Load

/-! ## The app and its disk -/

/-- Where `save` is, with the bytes that it writes from `atomic_write` on. -/
inductive SavePhase where
  | createDirAll
  | openTmp (contents : ByteArray)
  | writeAll (contents : ByteArray)
  | syncAll
  | rename

structure SettingsApp (R : Type) where
  store : SettingsStore R
  saving : Option SavePhase

/-- The disk and the app while it runs. `saved` lists the settings that `save` was called with. -/
structure SettingsSystem (R : Type) where
  disk : SettingsDisk
  app : Option (SettingsApp R)
  saved : List (Settings R)

inductive SettingsMove (R : Type) where
  | start (newId : Nat → String) (located readable renames : Bool)
  /-- `modify`, with what it leaves in the fields that other modules can name. -/
  | modify (keyboard : KeyboardSettings) (rpcServerEnabled : Bool) (rest : R)
  | save
  /-- The next operation of `save`; one that fails has written some of the bytes. -/
  | advance (succeeds : Bool) (written : Nat)
  /-- The app ends, or is killed. -/
  | exit
  /-- The power is lost: an earlier version of the directory is found, and anything in what was not
  synced. -/
  | powerLoss (version : Nat) (lost : Nat → ByteArray)

/-- The directory can be read when the app starts. -/
def SettingsMove.readable {R : Type} : SettingsMove R → Bool
  | .start _ _ readable _ => readable
  | _ => true

namespace SettingsSystem

variable {R : Type} (fmt : SettingsFormat R) (s : SettingsSystem R)

/-- `save` up to its first operation. -/
def beginSave (store : SettingsStore R) : SettingsSystem R :=
  if store.path then
    { s with
      app := some ⟨store, some .createDirAll⟩
      saved := s.saved ++ [store.settings] }
  else { s with app := some ⟨store, none⟩ }

/-- One operation of `save`. -/
def advance (store : SettingsStore R) (phase : SavePhase) (succeeds : Bool) (written : Nat) :
    SettingsSystem R :=
  let goOn (disk : SettingsDisk) (phase : SavePhase) : SettingsSystem R :=
    { s with disk := disk, app := some ⟨store, some phase⟩ }
  let giveUp (disk : SettingsDisk) : SettingsSystem R :=
    { s with disk := disk, app := some ⟨store, none⟩ }
  match phase, succeeds with
  | .createDirAll, true =>
    match fmt.toStringPretty store.settings with
    | some json => goOn s.disk (.openTmp json.toUTF8)
    | none => giveUp s.disk
  | .openTmp contents, true => goOn (s.disk.create .tmp .empty) (.writeAll contents)
  | .writeAll contents, true => goOn (s.disk.write .tmp contents) .syncAll
  | .writeAll contents, false => giveUp (s.disk.write .tmp (contents.extract 0 written))
  | .syncAll, true => goOn (s.disk.sync .tmp) .rename
  | .rename, true => giveUp (s.disk.rename .tmp .settings)
  | .createDirAll, false | .openTmp _, false | .syncAll, false | .rename, false => giveUp s.disk

def step : SettingsMove R → SettingsSystem R
  | .start newId located readable renames =>
    match s.app with
    | some _ => s
    | none =>
      let load := loadFromPath fmt newId s.disk located readable renames
      { s with disk := load.1, app := some ⟨load.2, none⟩ }
  | .modify keyboard rpcServerEnabled rest =>
    match s.app with
    | some ⟨store, none⟩ =>
      let stored := { store.settings.keyboard with
        toKeyboardSettings := keyboard, rpcServerEnabled := rpcServerEnabled }
      s.beginSave { store with settings := ⟨stored, rest⟩ }
    | _ => s
  | .save =>
    match s.app with
    | some ⟨store, none⟩ => s.beginSave store
    | _ => s
  | .advance succeeds written =>
    match s.app with
    | some ⟨store, some phase⟩ => s.advance fmt store phase succeeds written
    | _ => s
  | .exit => { s with app := none }
  | .powerLoss version lost =>
    { s with
      disk := s.disk.powerLoss (s.disk.versions.getD version s.disk.dir) lost
      app := none }

/-- A disk at rest. -/
def boot (disk : SettingsDisk) : SettingsSystem R := ⟨disk, none, []⟩

end SettingsSystem

/-! ## What the file holds -/

/-- The bytes are a whole serialization of the settings. -/
def Settings.Serialized {R : Type} (fmt : SettingsFormat R) (x : Settings R) (bytes : ByteArray) :
    Prop :=
  ∃ json, fmt.toStringPretty x = some json ∧ bytes = json.toUTF8

/-- Every name but `.tmp` is only renamed to. -/
def SettingsFile.Safe (n : SettingsFile) : Prop := n ≠ .tmp

/-- The file at `path` is the first one, or one that was saved as a whole. -/
def Legit {R : Type} (fmt : SettingsFormat R) (first : Option ByteArray) (saved : List (Settings R))
    (f : SettingsFile → Option ByteArray) : Prop :=
  ∀ bytes, f .settings = some bytes → first = some bytes ∨ ∃ x ∈ saved, x.Serialized fmt bytes

theorem Legit.mono {R : Type} {fmt : SettingsFormat R} {first : Option ByteArray}
    {saved saved' : List (Settings R)} {f : SettingsFile → Option ByteArray}
    (h : Legit fmt first saved f) (hsub : saved ⊆ saved') : Legit fmt first saved' f :=
  fun bytes hbytes => (h bytes hbytes).imp_right fun ⟨x, hx, heq⟩ => ⟨x, hsub hx, heq⟩

/-- What `save` has done before the operation. -/
def SavePhase.Ready {R : Type} (fmt : SettingsFormat R) (disk : SettingsDisk) (x : Settings R) :
    SavePhase → Prop
  | .createDirAll => True
  | .openTmp contents => x.Serialized fmt contents
  | .writeAll contents => x.Serialized fmt contents ∧ disk.read .tmp = some .empty
  | .syncAll => ∃ contents, x.Serialized fmt contents ∧ disk.read .tmp = some contents
  | .rename => ∃ contents, x.Serialized fmt contents ∧ disk.read .tmp = some contents ∧
    ∀ i, disk.dir .tmp = some i → disk.synced i = true

namespace SettingsSystem

variable {R : Type} {fmt : SettingsFormat R} {first : Option ByteArray} {s : SettingsSystem R}

theorem local_legit (saved : List (Settings R)) :
    Disk.Local SettingsFile.Safe (Legit fmt first saved) := by
  intro f g hfg hf bytes hbytes
  exact hf bytes ((hfg .settings nofun).trans hbytes)

structure Sound (fmt : SettingsFormat R) (first : Option ByteArray) (s : SettingsSystem R) :
    Prop where
  lasting : s.disk.Lasting SettingsFile.Safe (Legit fmt first s.saved)
  migrated : ∀ app ∈ s.app, app.store.settings.Migrated
  saving : ∀ app ∈ s.app, ∀ phase ∈ app.saving, app.store.path = true ∧
    app.store.settings ∈ s.saved ∧ phase.Ready fmt s.disk app.store.settings
  saved : ∀ x ∈ s.saved, x.Migrated

/-- What was loaded needs no further change. -/
theorem migrated_loadFromPath (newId : Nat → String) (disk : SettingsDisk)
    (located readable renames : Bool) :
    (loadFromPath fmt newId disk located readable renames).2.settings.Migrated := by
  have hdefaults : (loadDefaults fmt newId disk renames).2.settings.Migrated :=
    Settings.migrated_normalize newId _
  unfold loadFromPath
  split
  · split
    · split
      · exact Settings.migrated_normalize newId _
      · exact hdefaults
    · exact Settings.migrated_normalize newId _
    · exact hdefaults
  · exact ⟨rfl, rfl, rfl⟩

/-- Loading reads only, or sets the file aside. -/
theorem disk_loadFromPath (newId : Nat → String) (disk : SettingsDisk)
    (located readable renames : Bool) :
    (loadFromPath fmt newId disk located readable renames).1 = disk ∨
      (loadFromPath fmt newId disk located readable renames).1 =
        disk.rename .settings .corrupt := by
  have hdefaults : (loadDefaults fmt newId disk renames).1 = disk ∨
      (loadDefaults fmt newId disk renames).1 = disk.rename .settings .corrupt := by
    unfold loadDefaults backupCorruptSettingsFile
    dsimp only
    split
    · exact .inr rfl
    · exact .inl rfl
  unfold loadFromPath
  split
  · split
    · split
      · exact .inl rfl
      · exact hdefaults
    · exact .inl rfl
    · exact hdefaults
  · exact .inl rfl

namespace Sound

theorem beginSave (h : Sound fmt first s) {store : SettingsStore R}
    (hstore : store.settings.Migrated) : Sound fmt first (s.beginSave store) := by
  unfold SettingsSystem.beginSave
  split
  · rename_i hpath
    have hsub : s.saved ⊆ s.saved ++ [store.settings] := List.subset_append_left _ _
    refine ⟨h.lasting.mono fun f hf => hf.mono hsub, ?_, ?_, ?_⟩
    · rintro app ⟨⟩
      exact hstore
    · rintro app ⟨⟩ phase ⟨⟩
      exact ⟨hpath, List.mem_append_right _ List.mem_cons_self, trivial⟩
    · exact List.forall_mem_append.mpr ⟨h.saved, List.forall_mem_singleton.mpr hstore⟩
  · refine { h with migrated := ?_, saving := ?_ }
    · rintro app ⟨⟩
      exact hstore
    · rintro app ⟨⟩ phase ⟨⟩

/-- `save` goes on, on a disk that shows as much. -/
theorem goOn (h : Sound fmt first s) {store : SettingsStore R} {disk : SettingsDisk}
    (hstore : store.settings.Migrated)
    (hdisk : disk.Lasting SettingsFile.Safe (Legit fmt first s.saved)) {saving : Option SavePhase}
    (hsaving : ∀ phase ∈ saving, store.path = true ∧ store.settings ∈ s.saved ∧
      phase.Ready fmt disk store.settings) :
    Sound fmt first { s with disk := disk, app := some ⟨store, saving⟩ } where
  lasting := hdisk
  migrated := by
    rintro app ⟨⟩
    exact hstore
  saving := by
    rintro app ⟨⟩
    exact hsaving
  saved := h.saved

theorem advance (h : Sound fmt first s) {store : SettingsStore R} {phase : SavePhase}
    (happ : s.app = some ⟨store, some phase⟩) (succeeds : Bool) (written : Nat) :
    Sound fmt first (s.advance fmt store phase succeeds written) := by
  have hstore := h.migrated _ happ
  obtain ⟨hpath, hmem, hready⟩ := h.saving _ happ phase rfl
  have hQ : Disk.Local SettingsFile.Safe (Legit fmt first s.saved) := local_legit s.saved
  have htmp : ¬ SettingsFile.Safe .tmp := fun hne => hne rfl
  have hgiveUp : ∀ disk : SettingsDisk, disk.Lasting SettingsFile.Safe (Legit fmt first s.saved) →
      Sound fmt first { s with disk := disk, app := some ⟨store, none⟩ } :=
    fun disk hdisk => h.goOn hstore hdisk nofun
  have hgoOn : ∀ (disk : SettingsDisk) (phase : SavePhase),
      disk.Lasting SettingsFile.Safe (Legit fmt first s.saved) →
      phase.Ready fmt disk store.settings →
      Sound fmt first { s with disk := disk, app := some ⟨store, some phase⟩ } := by
    refine fun disk phase hdisk hphase => h.goOn hstore hdisk ?_
    rintro phase ⟨⟩
    exact ⟨hpath, hmem, hphase⟩
  unfold SettingsSystem.advance
  dsimp only
  split
  · split
    · exact hgoOn _ _ h.lasting ⟨_, ‹_›, rfl⟩
    · exact hgiveUp _ h.lasting
  · exact hgoOn _ _ (h.lasting.create hQ htmp _) ⟨hready, Disk.read_create_self _ _ _⟩
  · rename_i contents
    exact hgoOn _ _ (h.lasting.write hQ htmp _)
      ⟨contents, hready.1, Disk.read_write_self _ hready.2 _⟩
  · exact hgiveUp _ (h.lasting.write hQ htmp _)
  · obtain ⟨contents, hserialized, hread⟩ := hready
    refine hgoOn _ _ (h.lasting.sync _) ⟨contents, hserialized, ?_, ?_⟩
    · rw [Disk.read_sync, hread]
    · exact Disk.synced_sync _ _
  · obtain ⟨contents, hserialized, hread, hsynced⟩ := hready
    refine hgiveUp _ (h.lasting.rename hQ nofun hsynced fun bytes hbytes => .inr ?_)
    rw [Function.update_self, hread] at hbytes
    exact ⟨store.settings, hmem, Option.some.inj hbytes ▸ hserialized⟩
  all_goals exact hgiveUp _ h.lasting

theorem start (h : Sound fmt first s) (newId : Nat → String) (located readable renames : Bool) :
    Sound fmt first
      { s with
        disk := (loadFromPath fmt newId s.disk located readable renames).1
        app := some ⟨(loadFromPath fmt newId s.disk located readable renames).2, none⟩ } := by
  refine h.goOn (migrated_loadFromPath newId s.disk located readable renames) ?_ nofun
  rcases disk_loadFromPath newId s.disk located readable renames with heq | heq
  · rw [heq]
    exact h.lasting
  · rw [heq]
    refine h.lasting.rename (a := .settings) (b := .corrupt) (local_legit s.saved) nofun
      (fun i hi => h.lasting.synced _ List.mem_cons_self .settings i nofun hi)
      fun bytes hbytes => ?_
    rw [Function.update_of_ne (fun heq => by cases heq), Function.update_self] at hbytes
    cases hbytes

theorem stopped (h : Sound fmt first s) {disk : SettingsDisk}
    (hdisk : disk.Lasting SettingsFile.Safe (Legit fmt first s.saved)) :
    Sound fmt first { s with disk := disk, app := none } where
  lasting := hdisk
  migrated := fun _ happ => absurd happ (Option.not_mem_none _)
  saving := fun _ happ => absurd happ (Option.not_mem_none _)
  saved := h.saved

/-- **Step lemma.** -/
theorem step (h : Sound fmt first s) (m : SettingsMove R) : Sound fmt first (s.step fmt m) := by
  cases m with
  | start newId located readable renames =>
    unfold SettingsSystem.step
    dsimp only
    split
    · exact h
    · exact h.start newId located readable renames
  | modify keyboard rpcServerEnabled rest =>
    unfold SettingsSystem.step
    dsimp only
    split
    · exact h.beginSave (h.migrated _ ‹_›)
    · exact h
  | save =>
    unfold SettingsSystem.step
    dsimp only
    split
    · exact h.beginSave (h.migrated _ ‹_›)
    · exact h
  | advance succeeds written =>
    unfold SettingsSystem.step
    dsimp only
    split
    · exact h.advance ‹_› succeeds written
    · exact h
  | exit => exact h.stopped h.lasting
  | powerLoss version lost =>
    exact h.stopped (h.lasting.powerLoss (local_legit s.saved) (Disk.getD_mem_versions _ _) lost)

end Sound

theorem sound_boot (fmt : SettingsFormat R) {disk : SettingsDisk} (hdisk : disk.Booted) :
    Sound fmt (disk.read .settings) (boot disk) where
  lasting := hdisk.lasting fun _ hbytes => .inl hbytes
  migrated := fun _ happ => absurd happ (Option.not_mem_none _)
  saving := fun _ happ => absurd happ (Option.not_mem_none _)
  saved := fun _ hx => absurd hx List.not_mem_nil

theorem sound_run (fmt : SettingsFormat R) {disk : SettingsDisk} (hdisk : disk.Booted)
    (moves : List (SettingsMove R)) :
    Sound fmt (disk.read .settings) (moves.foldl (SettingsSystem.step fmt) (boot disk)) :=
  List.foldlRecOn (motive := Sound fmt (disk.read .settings)) moves (SettingsSystem.step fmt)
    (sound_boot fmt hdisk) fun _ h m _ => h.step m

theorem saved_beginSave (s : SettingsSystem R) (store : SettingsStore R) :
    s.saved ⊆ (s.beginSave store).saved := by
  unfold SettingsSystem.beginSave
  split
  · exact List.subset_append_left _ _
  · exact List.Subset.refl _

theorem saved_advance (s : SettingsSystem R) (store : SettingsStore R) (phase : SavePhase)
    (succeeds : Bool) (written : Nat) :
    (s.advance fmt store phase succeeds written).saved = s.saved := by
  unfold SettingsSystem.advance
  dsimp only
  split
  · split <;> rfl
  all_goals rfl

theorem saved_step (s : SettingsSystem R) (m : SettingsMove R) :
    s.saved ⊆ (s.step fmt m).saved := by
  unfold SettingsSystem.step
  split
  · split <;> exact List.Subset.refl _
  · split
    · exact saved_beginSave _ _
    · exact List.Subset.refl _
  · split
    · exact saved_beginSave _ _
    · exact List.Subset.refl _
  · split
    · exact (saved_advance ..).symm ▸ List.Subset.refl _
    · exact List.Subset.refl _
  · exact List.Subset.refl _
  · exact List.Subset.refl _

theorem saved_run (s : SettingsSystem R) (moves : List (SettingsMove R)) :
    s.saved ⊆ (moves.foldl (SettingsSystem.step fmt) s).saved := by
  induction moves generalizing s with
  | nil => exact List.Subset.refl _
  | cons m moves ih => exact List.Subset.trans (saved_step s m) (ih _)

end SettingsSystem

/-! ## What is loaded -/

namespace SettingsFormat

variable {R : Type} (fmt : SettingsFormat R)

/-- The settings in a file. -/
def parse (bytes : ByteArray) : Option (Settings R) :=
  (String.fromUTF8? bytes).bind fmt.fromStr

/-- Each of the settings can be read back. -/
def RoundTrips (saved : List (Settings R)) : Prop :=
  ∀ x ∈ saved, ∀ json, fmt.toStringPretty x = some json → fmt.fromStr json = some x

variable {fmt}

theorem parse_toUTF8 {json : String} {x : Settings R} (h : fmt.fromStr json = some x) :
    fmt.parse json.toUTF8 = some x := by
  have hdecode : String.fromUTF8? json.toUTF8 = some json := dif_pos json.isValidUTF8
  rw [parse, hdecode, Option.bind_some, h]

theorem parse_serialized {saved : List (Settings R)} (h : fmt.RoundTrips saved) {x : Settings R}
    (hx : x ∈ saved) {bytes : ByteArray} (hbytes : x.Serialized fmt bytes) :
    fmt.parse bytes = some x := by
  obtain ⟨json, hjson, rfl⟩ := hbytes
  exact parse_toUTF8 (h x hx json hjson)

end SettingsFormat

/-- **Loading** from a directory that can be read. -/
theorem loadFromPath_readable {R : Type} (fmt : SettingsFormat R) (newId : Nat → String)
    (disk : SettingsDisk) (renames : Bool) :
    loadFromPath fmt newId disk true true renames =
      match disk.read .settings with
      | none => (disk, ⟨(Settings.initialisedDefaults fmt).normalize newId, true⟩)
      | some bytes =>
        match fmt.parse bytes with
        | some x => (disk, ⟨x.normalize newId, true⟩)
        | none => loadDefaults fmt newId disk renames := by
  unfold loadFromPath readToString SettingsFormat.parse
  rw [if_pos rfl, if_pos rfl]
  cases disk.read .settings with
  | none => rfl
  | some bytes =>
    dsimp only
    cases String.fromUTF8? bytes <;> rfl

/-! ## A sample -/

def sampleSettings : Settings Bool := ⟨.default, true⟩

/-- A format that can write down one value. -/
def sampleFormat : SettingsFormat Bool where
  fromStr := fun text => if text = "dark" then some sampleSettings else none
  toStringPretty := fun x => if x = sampleSettings then some "dark" else none
  defaultRest := false

theorem sampleFormat_roundTrips (saved : List (Settings Bool)) : sampleFormat.RoundTrips saved := by
  intro x _ json hjson
  unfold sampleFormat at hjson ⊢
  dsimp only at hjson ⊢
  split at hjson
  · obtain rfl := Option.some.inj hjson
    rename_i hx
    rw [if_pos rfl, hx]
  · cases hjson

/-- A file that was cut off. -/
def sampleDisk : SettingsDisk where
  dir := fun n => if n = .settings then some 0 else none
  past := []
  data := fun _ => "dar".toUTF8
  synced := fun _ => true
  next := 1

theorem sampleDisk_booted : sampleDisk.Booted where
  past := rfl
  synced := fun _ => rfl
  unique := fun a b i ha hb => by
    unfold sampleDisk at ha hb
    dsimp only at ha hb
    split at ha
    · split at hb
      · exact (‹a = _›).trans (‹b = _›).symm
      · cases hb
    · cases ha
  used := fun n i hi => by
    unfold sampleDisk at hi ⊢
    dsimp only at hi ⊢
    split at hi
    · exact Option.some.inj hi ▸ Nat.zero_lt_one
    · cases hi

/-- The user turns on dark mode, and the power fails before the file is renamed. -/
def sampleSettingsMoves : List (SettingsMove Bool) :=
  [.start (fun _ => "") true true true, .modify ⟨true, []⟩ false true, .advance true 0,
    .advance true 0, .advance true 0, .advance true 0, .powerLoss 1 fun _ => .empty]

namespace SettingsSystem

variable {R : Type} {fmt : SettingsFormat R} {first : Option ByteArray} {s : SettingsSystem R}

/-- The settings of an app that has just started: those of the first file, some that were saved, or
the defaults, which it only takes when there is no other file. -/
def Recovers (fmt : SettingsFormat R) (first : Option ByteArray) (s : SettingsSystem R)
    (newId : Nat → String) (readable : Bool) (x : Settings R) : Prop :=
  x ∈ s.saved ∨ (∃ bytes ∈ first, ∃ y ∈ fmt.parse bytes, x = y.normalize newId) ∨
    x = (Settings.initialisedDefaults fmt).normalize newId ∧
      (readable = true → s.disk.read .settings = none ∨
        ∃ bytes ∈ first, s.disk.read .settings = some bytes ∧ fmt.parse bytes = none)

theorem Sound.recovers (h : Sound fmt first s) (hround : fmt.RoundTrips s.saved)
    (newId : Nat → String) (readable renames : Bool) :
    Recovers fmt first s newId readable
      (loadFromPath fmt newId s.disk true readable renames).2.settings := by
  cases readable with
  | false => exact .inr (.inr ⟨rfl, nofun⟩)
  | true =>
    rw [loadFromPath_readable]
    cases hread : s.disk.read .settings with
    | none => exact .inr (.inr ⟨rfl, fun _ => .inl hread⟩)
    | some bytes =>
      dsimp only
      rcases h.lasting.views _ List.mem_cons_self bytes hread with hfirst | ⟨x, hx, hbytes⟩
      · cases hparse : fmt.parse bytes with
        | none => exact .inr (.inr ⟨rfl, fun _ => .inr ⟨bytes, hfirst, hread, hparse⟩⟩)
        | some y => exact .inr (.inl ⟨bytes, hfirst, y, hparse, rfl⟩)
      · rw [SettingsFormat.parse_serialized hround hx hbytes]
        left
        show x.normalize newId ∈ s.saved
        rw [(h.saved x hx).normalize_eq]
        exact hx

/-- **The file is never torn.** In every run of saves, failing disk operations, kills, restarts and
power losses, in every version of the directory that a power loss may leave, the file is the first
one or one that was saved as a whole, and the app starts with such settings. -/
theorem stored_run (fmt : SettingsFormat R) {disk : SettingsDisk} (hdisk : disk.Booted)
    (moves : List (SettingsMove R)) {s : SettingsSystem R}
    (hs : s = moves.foldl (SettingsSystem.step fmt) (boot disk)) :
    (∀ v ∈ s.disk.versions, Legit fmt (disk.read .settings) s.saved (s.disk.view v)) ∧
      (fmt.RoundTrips s.saved → ∀ newId readable renames,
        Recovers fmt (disk.read .settings) s newId readable
          (loadFromPath fmt newId s.disk true readable renames).2.settings) := by
  subst hs
  have hrun := sound_run fmt hdisk moves
  exact ⟨hrun.lasting.views, hrun.recovers⟩

theorem stored_run_sample : Recovers sampleFormat (some "dar".toUTF8)
    (sampleSettingsMoves.foldl (SettingsSystem.step sampleFormat) (boot sampleDisk)) (fun _ => "")
    true (loadFromPath sampleFormat (fun _ => "") (sampleSettingsMoves.foldl
      (SettingsSystem.step sampleFormat) (boot sampleDisk)).disk true true true).2.settings :=
  (stored_run sampleFormat sampleDisk_booted sampleSettingsMoves rfl).2
    (sampleFormat_roundTrips _) (fun _ => "") true true

/-! ## A file that cannot be parsed -/

/-- The bytes are still there. -/
def KeptIn (bytes : ByteArray) (f : SettingsFile → Option ByteArray) : Prop :=
  f .settings = some bytes ∨ f .corrupt = some bytes

theorem local_keptIn (bytes : ByteArray) : Disk.Local SettingsFile.Safe (KeptIn bytes) :=
  fun _ _ hfg hf => hf.imp (fun h => (hfg .settings nofun).symm.trans h)
    fun h => (hfg .corrupt nofun).symm.trans h

structure Kept (bytes : ByteArray) (s : SettingsSystem R) : Prop where
  lasting : s.disk.Lasting SettingsFile.Safe (KeptIn bytes)
  /-- An app that writes has set the file aside. -/
  aside : ∀ app ∈ s.app, app.store.path = true → s.disk.read .corrupt = some bytes

namespace Kept

variable {bytes : ByteArray}

theorem beginSave (h : Kept bytes s) {store : SettingsStore R}
    (hstore : store.path = true → s.disk.read .corrupt = some bytes) :
    Kept bytes (s.beginSave store) := by
  unfold SettingsSystem.beginSave
  split
  · refine ⟨h.lasting, ?_⟩
    rintro app ⟨⟩
    exact hstore
  · refine ⟨h.lasting, ?_⟩
    rintro app ⟨⟩
    exact hstore

theorem advance (h : Kept bytes s) (hs : Sound fmt first s) {store : SettingsStore R}
    {phase : SavePhase} (happ : s.app = some ⟨store, some phase⟩) (succeeds : Bool)
    (written : Nat) : Kept bytes (s.advance fmt store phase succeeds written) := by
  obtain ⟨hpath, -, hready⟩ := hs.saving _ happ phase rfl
  have hcorrupt : s.disk.read .corrupt = some bytes := h.aside _ happ hpath
  have hQ := local_keptIn bytes
  have htmp : ¬ SettingsFile.Safe .tmp := fun hne => hne rfl
  have hne : SettingsFile.corrupt ≠ .tmp := nofun
  have hgoOn : ∀ (disk : SettingsDisk) (saving : Option SavePhase),
      disk.Lasting SettingsFile.Safe (KeptIn bytes) → disk.read .corrupt = s.disk.read .corrupt →
      Kept bytes { s with disk := disk, app := some ⟨store, saving⟩ } := by
    refine fun disk saving hdisk hread => ⟨hdisk, ?_⟩
    rintro app ⟨⟩ -
    exact hread.trans hcorrupt
  unfold SettingsSystem.advance
  dsimp only
  split
  · split <;> exact hgoOn _ _ h.lasting rfl
  · exact hgoOn _ _ (h.lasting.create hQ htmp _) (h.lasting.read_create hne _)
  · exact hgoOn _ _ (h.lasting.write hQ htmp _) (h.lasting.read_write hne _)
  · exact hgoOn _ _ (h.lasting.write hQ htmp _) (h.lasting.read_write hne _)
  · exact hgoOn _ _ (h.lasting.sync _) (Disk.read_sync _ _ _)
  · obtain ⟨contents, -, hread, hsynced⟩ := hready
    refine hgoOn _ _ (h.lasting.rename hQ nofun hsynced (.inr ?_)) ?_
    · rw [Function.update_of_ne (fun heq => by cases heq), Function.update_of_ne hne]
      exact hcorrupt
    · rw [Disk.read_rename _ hread, if_neg (fun heq => by cases heq), if_neg hne]
  all_goals exact hgoOn _ _ h.lasting rfl

/-- **Loading** sets the file aside, or leaves the disk alone and reads a later file. -/
theorem start (h : Kept bytes s) (hs : Sound fmt (some bytes) s) (hround : fmt.RoundTrips s.saved)
    (hparse : fmt.parse bytes = none) (newId : Nat → String) (located renames : Bool) :
    Kept bytes
      { s with
        disk := (loadFromPath fmt newId s.disk located true renames).1
        app := some ⟨(loadFromPath fmt newId s.disk located true renames).2, none⟩ } := by
  have hsame : ∀ store : SettingsStore R,
      (store.path = true → s.disk.read .corrupt = some bytes) →
      Kept bytes { s with disk := s.disk, app := some ⟨store, none⟩ } := by
    refine fun store hstore => ⟨h.lasting, ?_⟩
    rintro app ⟨⟩
    exact hstore
  have hnow : KeptIn bytes (s.disk.view s.disk.dir) := h.lasting.views _ List.mem_cons_self
  cases located with
  | false => exact hsame ⟨.initialisedDefaults fmt, false⟩ nofun
  | true =>
    rw [loadFromPath_readable]
    cases hread : s.disk.read .settings with
    | none =>
      refine hsame _ fun _ => hnow.resolve_left fun heq => ?_
      cases hread.symm.trans heq
    | some now =>
      dsimp only
      by_cases heq : now = bytes
      · subst heq
        rw [hparse]
        unfold loadDefaults backupCorruptSettingsFile
        dsimp only
        split
        · refine ⟨h.lasting.rename (local_keptIn now) nofun
            (fun i hi => h.lasting.synced _ List.mem_cons_self .settings i nofun hi)
            (.inr ((Function.update_self _ _ _).trans hread)), ?_⟩
          rintro app ⟨⟩ -
          exact (Disk.read_rename _ hread .corrupt .corrupt).trans (if_pos rfl)
        · exact hsame _ nofun
      · obtain ⟨x, hx, hbytes⟩ := (hs.lasting.views _ List.mem_cons_self now hread).resolve_left
          fun hfirst => heq (Option.some.inj hfirst).symm
        rw [SettingsFormat.parse_serialized hround hx hbytes]
        refine hsame _ fun _ => hnow.resolve_left fun hsettings => ?_
        exact heq (Option.some.inj (hread.symm.trans hsettings))

theorem stopped {disk : SettingsDisk} (hdisk : disk.Lasting SettingsFile.Safe (KeptIn bytes)) :
    Kept bytes { s with disk := disk, app := none } :=
  ⟨hdisk, fun _ happ => absurd happ (Option.not_mem_none _)⟩

/-- **Step lemma.** -/
theorem step (h : Kept bytes s) (hs : Sound fmt (some bytes) s) (hround : fmt.RoundTrips s.saved)
    (hparse : fmt.parse bytes = none) {m : SettingsMove R} (hm : m.readable = true) :
    Kept bytes (s.step fmt m) := by
  unfold SettingsSystem.step
  split
  · split
    · exact h
    · obtain rfl := hm
      exact h.start hs hround hparse _ _ _
  · split
    · exact h.beginSave (h.aside _ ‹_›)
    · exact h
  · split
    · exact h.beginSave (h.aside _ ‹_›)
    · exact h
  · split
    · exact h.advance hs ‹_› _ _
    · exact h
  · exact stopped h.lasting
  · exact stopped (h.lasting.powerLoss (local_keptIn bytes) (Disk.getD_mem_versions _ _) _)

/-- **Run lemma.** -/
theorem run (hparse : fmt.parse bytes = none) (moves : List (SettingsMove R))
    (hreadable : ∀ m ∈ moves, m.readable = true) (h : Kept bytes s)
    (hs : Sound fmt (some bytes) s)
    (hround : fmt.RoundTrips (moves.foldl (SettingsSystem.step fmt) s).saved) :
    Kept bytes (moves.foldl (SettingsSystem.step fmt) s) := by
  induction moves generalizing s with
  | nil => exact h
  | cons m moves ih =>
    have hnow : fmt.RoundTrips s.saved := fun x hx => hround x (saved_run s (m :: moves) hx)
    exact ih (fun m hm => hreadable m (List.mem_cons_of_mem _ hm))
      (h.step hs hnow hparse (hreadable m List.mem_cons_self)) (hs.step m) hround

end Kept

/-- **A file that cannot be parsed is kept.** In every run whose loads can read the directory, in
every version of the directory that a power loss may leave, the bytes of the first file are at
`path` or at `.corrupt`. -/
theorem kept_run (fmt : SettingsFormat R) {disk : SettingsDisk} (hdisk : disk.Booted)
    {bytes : ByteArray} (hfirst : disk.read .settings = some bytes)
    (hparse : fmt.parse bytes = none) (moves : List (SettingsMove R))
    (hreadable : ∀ m ∈ moves, m.readable = true)
    (hround : fmt.RoundTrips (moves.foldl (SettingsSystem.step fmt) (boot disk)).saved) :
    ∀ v ∈ (moves.foldl (SettingsSystem.step fmt) (boot disk)).disk.versions,
      KeptIn bytes ((moves.foldl (SettingsSystem.step fmt) (boot disk)).disk.view v) := by
  have hboot : Kept bytes (boot disk : SettingsSystem R) :=
    ⟨hdisk.lasting (.inl hfirst), fun _ happ => absurd happ (Option.not_mem_none _)⟩
  have hsound := sound_boot fmt hdisk
  rw [hfirst] at hsound
  exact (hboot.run hparse moves hreadable hsound hround).lasting.views

theorem kept_run_sample : KeptIn "dar".toUTF8 ((sampleSettingsMoves.foldl
    (SettingsSystem.step sampleFormat) (boot sampleDisk)).disk.view (sampleSettingsMoves.foldl
      (SettingsSystem.step sampleFormat) (boot sampleDisk)).disk.dir) :=
  kept_run sampleFormat sampleDisk_booted rfl (by decide +kernel) sampleSettingsMoves (by decide)
    (sampleFormat_roundTrips _) _ List.mem_cons_self

/-! ## What was saved is what is loaded -/

/-- A change of the settings, the operations of its `save`, the end of the app, its next start. -/
def reload (newId : Nat → String) (renames : Bool) (keyboard : KeyboardSettings)
    (rpcServerEnabled : Bool) (rest : R) : List (SettingsMove R) :=
  [.modify keyboard rpcServerEnabled rest, .advance true 0, .advance true 0, .advance true 0,
    .advance true 0, .advance true 0, .exit, .start newId true true renames]

/-- **What was saved is what is loaded.** In every reachable state in which the app can save, once
the operations of `save` have succeeded the next start finds the settings as they were changed. -/
theorem reloaded_run (fmt : SettingsFormat R) {disk : SettingsDisk} (hdisk : disk.Booted)
    (moves : List (SettingsMove R)) {s : SettingsSystem R}
    (hs : s = moves.foldl (SettingsSystem.step fmt) (boot disk)) {settings : Settings R}
    (happ : s.app = some ⟨⟨settings, true⟩, none⟩) (keyboard : KeyboardSettings)
    (rpcServerEnabled : Bool) (rest : R) {x : Settings R}
    (hx : x = ⟨{ settings.keyboard with
      toKeyboardSettings := keyboard, rpcServerEnabled := rpcServerEnabled }, rest⟩)
    {json : String} (hjson : fmt.toStringPretty x = some json) (hround : fmt.fromStr json = some x)
    (newId : Nat → String) (renames : Bool) :
    ((reload newId renames keyboard rpcServerEnabled rest).foldl (SettingsSystem.step fmt) s).app =
      some ⟨⟨x, true⟩, none⟩ := by
  have hmigrated : x.Migrated := by
    subst hs hx
    exact (sound_run fmt hdisk moves).migrated _ happ
  have hsaved : ∃ saved, ((reload newId renames keyboard rpcServerEnabled rest).foldl
      (SettingsSystem.step fmt) s) = SettingsSystem.step fmt ⟨(((s.disk.create .tmp .empty).write
        .tmp json.toUTF8).sync .tmp).rename .tmp .settings, none, saved⟩
        (.start newId true true renames) := by
    refine ⟨s.saved ++ [x], ?_⟩
    simp only [reload, List.foldl_cons, List.foldl_nil, SettingsSystem.step, happ,
      SettingsSystem.beginSave, if_true, ← hx, SettingsSystem.advance, hjson]
  obtain ⟨saved, hsaved⟩ := hsaved
  have htmp : (((s.disk.create .tmp .empty).write .tmp json.toUTF8).sync .tmp).read .tmp =
      some json.toUTF8 :=
    (Disk.read_sync _ _ _).trans (Disk.read_write_self _ (Disk.read_create_self _ _ _) _)
  have hread := (Disk.read_rename _ htmp .settings .settings).trans (if_pos rfl)
  rw [hsaved]
  unfold SettingsSystem.step
  dsimp only
  rw [loadFromPath_readable, hread]
  dsimp only
  rw [SettingsFormat.parse_toUTF8 hround]
  dsimp only
  rw [hmigrated.normalize_eq]

/-- Without a file, the app starts on the defaults. -/
def emptyDisk : SettingsDisk := ⟨fun _ => none, [], fun _ => .empty, fun _ => true, 0⟩

theorem reloaded_run_sample : ((reload (fun _ => "") true ⟨true, []⟩ false true).foldl
    (SettingsSystem.step sampleFormat) ([.start (fun _ => "") true true true].foldl
      (SettingsSystem.step sampleFormat) (boot emptyDisk))).app =
    some ⟨⟨sampleSettings, true⟩, none⟩ := by
  have hdisk : emptyDisk.Booted := ⟨rfl, fun _ => rfl, fun _ _ _ ha => (by cases ha), fun _ _ hi =>
    (by cases hi)⟩
  exact reloaded_run sampleFormat hdisk [.start (fun _ => "") true true true] rfl rfl ⟨true, []⟩
    false true rfl rfl rfl (fun _ => "") true

end SettingsSystem

end Rumble.Desktop
