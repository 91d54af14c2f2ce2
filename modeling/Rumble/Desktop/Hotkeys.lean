import Rumble.Lib.Holds
import Rumble.Lib.Table
import Rumble.Lib.Transition

/-!
# Global hotkeys

`rumble-desktop-shell/src/hotkeys`: the manager, its map of registered keys and the portal backend
with its queue, and a system that runs them: reports of the operating system, tasks of the portal,
settings changes and polls in any order. A key event is given its action when it is polled, a portal
signal when it arrives, so that a change of the settings between a press and its release leaves the
one without the other. In every run whose settings changes keep what the held keys stand for, each
Hold shortcut is released as often as it is pressed (`holds_released`).
-/

namespace Rumble.Desktop

open Rumble.Lib Rumble.Lib.Transition

/-! ## Settings -/

inductive HotkeyFunction where
  | pushToTalk | muteSelf | deafenSelf
  deriving DecidableEq

inductive HotkeyData where
  /-- Press-and-hold; fires `Released` events. -/
  | hold
  | toggle | on | off
  deriving DecidableEq

abbrev HotkeyAction := HotkeyFunction × HotkeyData

/-- The function of an action that is held. -/
def HotkeyAction.held : HotkeyAction → Option HotkeyFunction
  | (function, .hold) => some function
  | _ => none

structure HotkeyModifiers where
  ctrl : Bool
  shift : Bool
  alt : Bool
  superKey : Bool
  deriving DecidableEq

structure HotkeyBinding where
  modifiers : HotkeyModifiers
  key : String
  deriving DecidableEq

structure ShortcutEntry where
  id : String
  function : HotkeyFunction
  data : HotkeyData
  binding : Option HotkeyBinding
  deriving DecidableEq

structure KeyboardSettings where
  globalHotkeysEnabled : Bool
  shortcuts : List ShortcutEntry
  deriving DecidableEq

inductive HotkeyRegistrationStatus where
  | registered | conflict | unsupported | failed | notConfigured
  deriving DecidableEq

inductive HotkeyEvent where
  | pressed (function : HotkeyFunction) (data : HotkeyData)
  | released (function : HotkeyFunction) (data : HotkeyData)
  deriving DecidableEq

def HotkeyEvent.new (state : KeyState) (action : HotkeyAction) : HotkeyEvent :=
  match state with
  | .pressed => .pressed action.1 action.2
  | .released => .released action.1 action.2

/-- The id that the crate has for a hotkey. -/
abbrev HotkeyId := BitVec 32

/-- What the crate answers to a registration. -/
inductive RegisterAnswer where
  | ok | alreadyRegistered | error
  deriving DecidableEq

/-! ## The portal backend -/

/-- `tasks` are the writes to the map of actions that spawned tasks have still to make. -/
structure PortalHotkeyBackend where
  actions : Table String HotkeyAction
  events : List HotkeyEvent
  hasBound : Bool
  tasks : List (Table String HotkeyAction)

namespace PortalHotkeyBackend

def new : PortalHotkeyBackend where
  actions := ∅
  events := []
  hasBound := false
  tasks := []

def setShortcuts (p : PortalHotkeyBackend) (entries : List ShortcutEntry) : PortalHotkeyBackend :=
  { p with
    hasBound := !entries.isEmpty
    tasks := p.tasks ++ [entries.foldl (fun m e => m.set e.id (e.function, e.data)) ∅] }

def releaseAll (p : PortalHotkeyBackend) : PortalHotkeyBackend :=
  { p with hasBound := false, tasks := p.tasks ++ [∅] }

/-- The listener on a signal; one for an unknown shortcut is dropped. -/
def handleSignal (p : PortalHotkeyBackend) (e : KeyEvent String) : PortalHotkeyBackend :=
  { p with events := p.events ++ ((p.actions.get e.key).map (HotkeyEvent.new e.state)).toList }

/-- A task makes its write. The runtime may run the tasks in any order. -/
def runTask (p : PortalHotkeyBackend) (n : Nat) : PortalHotkeyBackend :=
  { p with actions := p.tasks.getD n p.actions, tasks := p.tasks.eraseIdx n }

end PortalHotkeyBackend

/-! ## The manager -/

structure HotkeyManager where
  /-- The crate's manager was created. -/
  manager : Bool
  hotkeyActions : Table HotkeyId HotkeyAction
  registeredHotkeys : List HotkeyId
  registrationStatus : Table String HotkeyRegistrationStatus
  isWayland : Bool
  initFailed : Bool
  globalHotkeysEnabled : Bool
  portalBackend : Option PortalHotkeyBackend

namespace HotkeyManager

/-- On Wayland the crate's manager is not tried; elsewhere it may fail. -/
def new (isWayland created : Bool) : HotkeyManager where
  manager := !isWayland && created
  hotkeyActions := ∅
  registeredHotkeys := []
  registrationStatus := ∅
  isWayland := isWayland
  initFailed := !isWayland && !created
  globalHotkeysEnabled := true
  portalBackend := none

def initPortalBackend (m : HotkeyManager) (available : Bool) : HotkeyManager :=
  if m.isWayland && available then { m with portalBackend := some .new } else m

def unregisterAll (m : HotkeyManager) : HotkeyManager :=
  { m with hotkeyActions := ∅, registeredHotkeys := [] }

def setStatus (m : HotkeyManager) (entryId : String) (status : HotkeyRegistrationStatus) :
    HotkeyManager :=
  { m with registrationStatus := m.registrationStatus.set entryId status }

/-- One row; `toHotkey` is `binding_to_hotkey`. -/
def registerEntry (toHotkey : HotkeyBinding → Option HotkeyId) (m : HotkeyManager)
    (entry : ShortcutEntry) (answer : RegisterAnswer) : HotkeyManager :=
  match entry.binding with
  | none => m
  | some binding => match toHotkey binding with
    | none => m.setStatus entry.id .unsupported
    | some id => match answer with
      | .ok =>
        { m with
          hotkeyActions := m.hotkeyActions.set id (entry.function, entry.data)
          registeredHotkeys := m.registeredHotkeys ++ [id] }.setStatus entry.id .registered
      | .alreadyRegistered => m.setStatus entry.id .conflict
      | .error => m.setStatus entry.id .failed

/-- The portal's part of a settings change. -/
def registerPortal (m : HotkeyManager) (settings : KeyboardSettings) : HotkeyManager :=
  match m.portalBackend with
  | none => m
  | some portal =>
    if settings.globalHotkeysEnabled then
      settings.shortcuts.foldl (fun m entry => m.setStatus entry.id .registered)
        { m with portalBackend := some (portal.setShortcuts settings.shortcuts) }
    else { m with portalBackend := some portal.releaseAll }

/-- `answers` are the crate's, by the position of the row. -/
def registerFromSettings (toHotkey : HotkeyBinding → Option HotkeyId) (m : HotkeyManager)
    (settings : KeyboardSettings) (answers : Nat → RegisterAnswer) : HotkeyManager :=
  let m := { m.unregisterAll with registrationStatus := ∅ }
  let m := settings.shortcuts.foldl (fun m entry => m.setStatus entry.id .notConfigured) m
  let m := { m with globalHotkeysEnabled := settings.globalHotkeysEnabled }
  let m := m.registerPortal settings
  if settings.globalHotkeysEnabled && m.manager then
    settings.shortcuts.zipIdx.foldl
      (fun m row => m.registerEntry toHotkey row.1 (answers row.2)) m
  else m

/-- The event of a key, when it is registered. -/
def dispatch (m : HotkeyManager) (e : KeyEvent HotkeyId) : Option HotkeyEvent :=
  (m.hotkeyActions.get e.key).map (HotkeyEvent.new e.state)

/-- The events, the manager and what is left of the queue. The portal's events are drained in any
case and delivered when hotkeys are enabled. -/
def pollEvents (m : HotkeyManager) (queue : List (KeyEvent HotkeyId)) :
    List HotkeyEvent × HotkeyManager × List (KeyEvent HotkeyId) :=
  let portalEvents := if m.globalHotkeysEnabled then
    (m.portalBackend.map PortalHotkeyBackend.events).getD [] else []
  let drained := { m with portalBackend := m.portalBackend.map fun p => { p with events := [] } }
  if m.manager then (portalEvents ++ queue.filterMap m.dispatch, drained, [])
  else (portalEvents, drained, queue)

end HotkeyManager

/-! ## The system -/

/-- `down` and `portalDown` are the keys and the portal shortcuts that the operating system has
reported pressed and not yet released, `polled` the keys that were down at the last poll, and
`reported` all that the polls returned. -/
structure HotkeySystem where
  hotkeys : HotkeyManager
  queue : List (KeyEvent HotkeyId)
  down : List HotkeyId
  polled : List HotkeyId
  portalDown : List String
  reported : List HotkeyEvent

inductive HotkeyInput where
  /-- The crate reports a key. -/
  | key (e : KeyEvent HotkeyId)
  /-- The portal reports a shortcut. -/
  | signal (e : KeyEvent String)
  /-- A task of the portal backend runs. -/
  | task (n : Nat)
  | register (settings : KeyboardSettings) (answers : Nat → RegisterAnswer)
  | poll

namespace HotkeySystem

variable (toHotkey : HotkeyBinding → Option HotkeyId)

/-- The application at its start. -/
def start (isWayland created available : Bool) : HotkeySystem where
  hotkeys := (HotkeyManager.new isWayland created).initPortalBackend available
  queue := []
  down := []
  polled := []
  portalDown := []
  reported := []

def mapPortal (s : HotkeySystem) (f : PortalHotkeyBackend → PortalHotkeyBackend) : HotkeySystem :=
  { s with hotkeys := { s.hotkeys with portalBackend := s.hotkeys.portalBackend.map f } }

def step (s : HotkeySystem) : HotkeyInput → HotkeySystem
  | .key e => { s with queue := s.queue ++ [e], down := e.apply s.down }
  | .signal e => { s.mapPortal (·.handleSignal e) with portalDown := e.apply s.portalDown }
  | .task n => s.mapPortal (·.runTask n)
  | .register settings answers =>
    { s with hotkeys := s.hotkeys.registerFromSettings toHotkey settings answers }
  | .poll =>
    let (events, hotkeys, queue) := s.hotkeys.pollEvents s.queue
    { s with
      hotkeys := hotkeys
      queue := queue
      polled := s.down
      reported := s.reported ++ events }

/-- A backend that is there reports presses of what is up and releases of what is down. -/
def Reports (s : HotkeySystem) : HotkeyInput → Prop
  | .key e => s.hotkeys.manager = true ∧ e.Fits s.down
  | .signal e => s.hotkeys.portalBackend.isSome = true ∧ e.Fits s.portalDown
  | _ => True

/-- All keys are up and a poll has drained the queues. -/
structure Drained (s : HotkeySystem) : Prop where
  down : s.down = []
  portalDown : s.portalDown = []
  queue : s.queue = []
  events : ∀ p, s.hotkeys.portalBackend = some p → p.events = []

/-- Each Hold shortcut was reported pressed and released equally often. -/
def Balanced (s : HotkeySystem) : Prop := ∀ function,
  s.reported.count (.pressed function .hold) = s.reported.count (.released function .hold)

end HotkeySystem

/-! ## What the settings change -/

/-- What the settings bind a key to: the last row for it that the crate registers. -/
def KeyboardSettings.keyAction (toHotkey : HotkeyBinding → Option HotkeyId)
    (settings : KeyboardSettings) (answers : Nat → RegisterAnswer) (id : HotkeyId) :
    Option HotkeyAction :=
  if settings.globalHotkeysEnabled then
    ((settings.shortcuts.zipIdx.filter fun row =>
      row.1.binding.bind toHotkey = some id ∧ answers row.2 = .ok).getLast?).map
        fun row => (row.1.function, row.1.data)
  else none

/-- The Hold function that a map has for a key. -/
def heldIn {κ : Type} [DecidableEq κ] (actions : Table κ HotkeyAction) (k : κ) :
    Option HotkeyFunction :=
  (actions.get k).bind HotkeyAction.held

/-- The Hold presses and releases among events. -/
def HotkeyEvent.held : HotkeyEvent → Option (KeyEvent HotkeyFunction)
  | .pressed function .hold => some ⟨function, .pressed⟩
  | .released function .hold => some ⟨function, .released⟩
  | _ => none

def holds (events : List HotkeyEvent) : List (KeyEvent HotkeyFunction) :=
  events.filterMap HotkeyEvent.held

namespace HotkeySystem

variable (toHotkey : HotkeyBinding → Option HotkeyId)

/-- No Hold press was taken from the portal's queue whose release was not: each Hold shortcut that
is down waits there. -/
def PortalUntaken (s : HotkeySystem) : Prop := ∀ p, s.hotkeys.portalBackend = some p →
  ∀ function, (held (heldIn p.actions) s.portalDown function : Int) = net function (holds p.events)

/-- What is held keeps its meaning. A settings change binds the keys that were down at the last poll
to the Hold functions that they have, and hotkeys are enabled or disabled when nothing is taken from
the portal by half; while they are enabled, a task of the portal keeps what the shortcuts that are
down stand for. -/
def Keeps (s : HotkeySystem) : HotkeyInput → Prop
  | .register settings answers =>
    (∀ id ∈ s.polled, heldIn s.hotkeys.hotkeyActions id =
      (settings.keyAction toHotkey answers id).bind HotkeyAction.held) ∧
    (settings.globalHotkeysEnabled ≠ s.hotkeys.globalHotkeysEnabled → s.PortalUntaken)
  | .task n => s.hotkeys.globalHotkeysEnabled = true → ∀ p, s.hotkeys.portalBackend = some p →
    ∀ actions, p.tasks[n]? = some actions → ∀ id ∈ s.portalDown,
      heldIn p.actions id = heldIn actions id
  | _ => True

end HotkeySystem

/-! ## Events of held functions -/

theorem held_new (state : KeyState) (action : HotkeyAction) :
    (HotkeyEvent.new state action).held = action.held.map (⟨·, state⟩) := by
  obtain ⟨function, data⟩ := action
  cases state <;> cases data <;> rfl

theorem held_eq_some {e : HotkeyEvent} {function : HotkeyFunction} {state : KeyState} :
    e.held = some ⟨function, state⟩ ↔ e = HotkeyEvent.new state (function, .hold) := by
  cases e with
  | pressed f data => cases data <;> cases state <;> simp [HotkeyEvent.held, HotkeyEvent.new]
  | released f data => cases data <;> cases state <;> simp [HotkeyEvent.held, HotkeyEvent.new]

theorem count_holds (events : List HotkeyEvent) (function : HotkeyFunction) (state : KeyState) :
    (holds events).count ⟨function, state⟩ = events.count (.new state (function, .hold)) := by
  rw [holds, List.count_filterMap, List.count]
  refine List.countP_congr fun e _ => ?_
  rw [beq_iff_eq, beq_iff_eq, held_eq_some]

/-- What the events of some keys come to. -/
theorem holds_filterMap {κ : Type} [DecidableEq κ] (actions : Table κ HotkeyAction)
    (es : List (KeyEvent κ)) :
    holds (es.filterMap fun e => (actions.get e.key).map (HotkeyEvent.new e.state)) =
      es.filterMap (KeyEvent.translate (heldIn actions)) := by
  unfold holds
  rw [List.filterMap_filterMap]
  refine List.filterMap_congr fun e _ => ?_
  rw [KeyEvent.translate, heldIn]
  cases actions.get e.key with
  | none => rfl
  | some action => simp [held_new]

theorem HotkeySystem.balanced_iff {s : HotkeySystem} :
    s.Balanced ↔ ∀ function, net function (holds s.reported) = 0 := by
  refine forall_congr' fun function => ?_
  rw [net_eq_count, count_holds, count_holds]
  simp only [HotkeyEvent.new]
  omega

/-! ## A settings change -/

section Register

variable {toHotkey : HotkeyBinding → Option HotkeyId}

theorem get_registerEntry (m : HotkeyManager) (entry : ShortcutEntry) (answer : RegisterAnswer)
    (id : HotkeyId) : (m.registerEntry toHotkey entry answer).hotkeyActions.get id =
      if entry.binding.bind toHotkey = some id ∧ answer = .ok then
        some (entry.function, entry.data)
      else m.hotkeyActions.get id := by
  unfold HotkeyManager.registerEntry
  cases entry.binding with
  | none => simp
  | some binding =>
    dsimp only
    rw [Option.bind_some]
    cases toHotkey binding with
    | none => simp [HotkeyManager.setStatus]
    | some id' =>
      cases answer with
      | ok => simp [HotkeyManager.setStatus, Table.get_set, eq_comm]
      | alreadyRegistered => simp [HotkeyManager.setStatus]
      | error => simp [HotkeyManager.setStatus]

/-- The rows in turn: the last one that the crate registers for a key counts. -/
theorem get_foldl_registerEntry (answers : Nat → RegisterAnswer) (id : HotkeyId)
    (rows : List (ShortcutEntry × Nat)) (m : HotkeyManager) :
    (rows.foldl (fun m row => m.registerEntry toHotkey row.1 (answers row.2)) m).hotkeyActions.get
        id =
      (((rows.filter fun row => row.1.binding.bind toHotkey = some id ∧
          answers row.2 = .ok).getLast?).map fun row => (row.1.function, row.1.data)).or
        (m.hotkeyActions.get id) := by
  induction rows using List.reverseRecOn with
  | nil => rfl
  | append_singleton rows row ih =>
    rw [List.foldl_concat, get_registerEntry, List.filter_append]
    by_cases hrow : row.1.binding.bind toHotkey = some id ∧ answers row.2 = .ok
    · simp [hrow]
    · rw [if_neg hrow, ih]
      simp [hrow]

/-- Rows have their status set, and nothing else. -/
theorem foldl_setStatus (status : HotkeyRegistrationStatus) (entries : List ShortcutEntry)
    (m : HotkeyManager) : ∃ registrationStatus,
      entries.foldl (fun m entry => m.setStatus entry.id status) m =
        { m with registrationStatus := registrationStatus } := by
  induction entries generalizing m with
  | nil => exact ⟨m.registrationStatus, rfl⟩
  | cons entry entries ih => exact ih (m.setStatus entry.id status)

/-- Registering rows changes what the manager has of the keys, and nothing else. -/
theorem foldl_registerEntry (answers : Nat → RegisterAnswer) (rows : List (ShortcutEntry × Nat))
    (m : HotkeyManager) : ∃ hotkeyActions registeredHotkeys registrationStatus,
      rows.foldl (fun m row => m.registerEntry toHotkey row.1 (answers row.2)) m =
        { m with
          hotkeyActions := hotkeyActions
          registeredHotkeys := registeredHotkeys
          registrationStatus := registrationStatus } := by
  induction rows generalizing m with
  | nil => exact ⟨_, _, _, rfl⟩
  | cons row rows ih =>
    obtain ⟨actions, ids, status, hrest⟩ := ih (m.registerEntry toHotkey row.1 (answers row.2))
    refine ⟨actions, ids, status, hrest.trans ?_⟩
    unfold HotkeyManager.registerEntry
    cases row.1.binding with
    | none => rfl
    | some binding =>
      dsimp only
      cases toHotkey binding with
      | none => rfl
      | some id => cases answers row.2 <;> rfl

theorem registerPortal_spec (m : HotkeyManager) (settings : KeyboardSettings) :
    ∃ registrationStatus, m.registerPortal settings =
      { m with
        registrationStatus := registrationStatus
        portalBackend := m.portalBackend.map fun p =>
          if settings.globalHotkeysEnabled then p.setShortcuts settings.shortcuts
          else p.releaseAll } := by
  obtain ⟨manager, actions, ids, status, isWayland, initFailed, enabled, portalBackend⟩ := m
  unfold HotkeyManager.registerPortal
  cases portalBackend with
  | none => exact ⟨status, rfl⟩
  | some portal =>
    dsimp only
    rw [Option.map_some]
    split
    · exact foldl_setStatus .registered settings.shortcuts _
    · exact ⟨status, rfl⟩

/-- What a settings change does to the manager. -/
theorem registerFromSettings_spec (m : HotkeyManager) (settings : KeyboardSettings)
    (answers : Nat → RegisterAnswer) : ∃ hotkeyActions registeredHotkeys registrationStatus,
      m.registerFromSettings toHotkey settings answers =
        { m with
          hotkeyActions := hotkeyActions
          registeredHotkeys := registeredHotkeys
          registrationStatus := registrationStatus
          globalHotkeysEnabled := settings.globalHotkeysEnabled
          portalBackend := m.portalBackend.map fun p =>
            if settings.globalHotkeysEnabled then p.setShortcuts settings.shortcuts
            else p.releaseAll } ∧
      (m.manager = true → ∀ id, hotkeyActions.get id = settings.keyAction toHotkey answers id) := by
  unfold HotkeyManager.registerFromSettings
  obtain ⟨status, hseed⟩ := foldl_setStatus .notConfigured settings.shortcuts
    { m.unregisterAll with registrationStatus := ∅ }
  simp only [hseed]
  obtain ⟨status', hportal⟩ := registerPortal_spec { m with
    hotkeyActions := ∅
    registeredHotkeys := []
    registrationStatus := status
    globalHotkeysEnabled := settings.globalHotkeysEnabled } settings
  unfold HotkeyManager.unregisterAll
  simp only [hportal]
  by_cases hregisters : (settings.globalHotkeysEnabled && m.manager) = true
  · rw [if_pos hregisters]
    generalize hm' : HotkeyManager.mk m.manager ∅ [] status' m.isWayland m.initFailed
      settings.globalHotkeysEnabled _ = m'
    obtain ⟨actions, ids, status'', hrows⟩ :=
      @foldl_registerEntry toHotkey answers settings.shortcuts.zipIdx m'
    refine ⟨actions, ids, status'', hrows.trans (by rw [← hm']), fun _ id => ?_⟩
    have hget := @get_foldl_registerEntry toHotkey answers id settings.shortcuts.zipIdx m'
    rw [hrows, ← hm', Table.get_empty, Option.or_none] at hget
    rw [KeyboardSettings.keyAction, if_pos (Bool.and_eq_true_iff.mp hregisters).1]
    exact hget
  · rw [if_neg hregisters]
    refine ⟨∅, [], status', rfl, fun hmanager id => ?_⟩
    have henabled : ¬ settings.globalHotkeysEnabled = true := by simpa [hmanager] using hregisters
    rw [KeyboardSettings.keyAction, if_neg henabled, Table.get_empty]

theorem manager_registerFromSettings (m : HotkeyManager) (settings : KeyboardSettings)
    (answers : Nat → RegisterAnswer) :
    (m.registerFromSettings toHotkey settings answers).manager = m.manager := by
  obtain ⟨_, _, _, hspec, _⟩ := @registerFromSettings_spec toHotkey m settings answers
  rw [hspec]

end Register

/-! ## The account of a run -/

/-- The Hold presses that were taken from the portal's queue and delivered without their release. -/
def portalTaken (enabled : Bool) (portal : Option PortalHotkeyBackend) (down : List String)
    (function : HotkeyFunction) : Int :=
  match portal with
  | none => 0
  | some p => if enabled then held (heldIn p.actions) down function - net function (holds p.events)
    else 0

namespace HotkeySystem

variable {toHotkey : HotkeyBinding → Option HotkeyId} {s : HotkeySystem}

/-- What was reported pressed and not released are the Hold keys that were down at the last poll and
the Hold shortcuts that were taken from the portal. -/
structure Accounted (s : HotkeySystem) : Prop where
  plays : PlaysTo s.polled s.queue s.down
  noManager : s.hotkeys.manager = false → s.polled = [] ∧ s.queue = []
  net : ∀ function, net function (holds s.reported) =
    held (heldIn s.hotkeys.hotkeyActions) s.polled function +
      portalTaken s.hotkeys.globalHotkeysEnabled s.hotkeys.portalBackend s.portalDown function

theorem accounted_start (isWayland created available : Bool) :
    (start isWayland created available).Accounted := by
  refine ⟨rfl, fun _ => ⟨rfl, rfl⟩, fun function => ?_⟩
  cases isWayland <;> cases created <;> cases available <;> rfl

theorem accounted_key {e : KeyEvent HotkeyId} (h : s.Accounted) (hreports : s.Reports (.key e)) :
    (s.step toHotkey (.key e)).Accounted where
  plays := h.plays.concat hreports.2
  noManager := fun hnone => absurd (hreports.1.symm.trans hnone) (by decide)
  net := h.net

theorem accounted_signal {e : KeyEvent String} (h : s.Accounted)
    (hreports : s.Reports (.signal e)) : (s.step toHotkey (.signal e)).Accounted := by
  refine ⟨h.plays, h.noManager, fun function => (h.net function).trans (congrArg _ ?_)⟩
  obtain ⟨p, hp⟩ := Option.isSome_iff_exists.mp hreports.1
  simp only [step, mapPortal, hp, Option.map_some, portalTaken]
  split
  · have hone : holds ((p.actions.get e.key).map (HotkeyEvent.new e.state)).toList =
        (e.translate (heldIn p.actions)).toList := by
      rw [KeyEvent.translate, heldIn]
      cases p.actions.get e.key with
      | none => rfl
      | some action => cases haction : action.held <;> simp [holds, held_new, haction]
    have happly := held_apply (heldIn p.actions) hreports.2 function
    have hevents : holds (p.handleSignal e).events =
        holds p.events ++ (e.translate (heldIn p.actions)).toList := by
      rw [← hone]
      exact List.filterMap_append
    rw [hevents, net_append]
    show _ = (held (heldIn p.actions) (e.apply s.portalDown) function : Int) - _
    omega
  · rfl

theorem accounted_task {n : Nat} (h : s.Accounted) (hkeeps : s.Keeps toHotkey (.task n)) :
    (s.step toHotkey (.task n)).Accounted := by
  refine ⟨h.plays, h.noManager, fun function => (h.net function).trans (congrArg _ ?_)⟩
  cases hp : s.hotkeys.portalBackend with
  | none => simp only [step, mapPortal, hp, Option.map_none]
  | some p =>
    simp only [step, mapPortal, hp, Option.map_some, portalTaken]
    split
    · rename_i henabled
      have hheld : held (heldIn (p.tasks.getD n p.actions)) s.portalDown function =
          held (heldIn p.actions) s.portalDown function := by
        refine held_congr (fun id hid => ?_) function
        cases htask : p.tasks[n]? with
        | none => rw [List.getD_eq_getElem?_getD, htask, Option.getD_none]
        | some actions =>
          rw [List.getD_eq_getElem?_getD, htask, Option.getD_some]
          exact (hkeeps henabled p hp actions htask id hid).symm
      show _ = (held (heldIn (p.tasks.getD n p.actions)) s.portalDown function : Int) - _
      rw [hheld]
      rfl
    · rfl

/-- A settings change leaves what the portal's queue and its map hold. -/
theorem portalTaken_register {enabled enabled' : Bool} {portal : Option PortalHotkeyBackend}
    {down : List String} {entries : List ShortcutEntry}
    (h : enabled' ≠ enabled → ∀ p, portal = some p → ∀ function,
      (held (heldIn p.actions) down function : Int) = net function (holds p.events))
    (function : HotkeyFunction) :
    portalTaken enabled' (portal.map fun p =>
      if enabled' then p.setShortcuts entries else p.releaseAll) down function =
      portalTaken enabled portal down function := by
  cases portal with
  | none => rfl
  | some p =>
    by_cases hflag : enabled' = enabled
    · subst hflag
      cases enabled' <;> rfl
    · have huntaken := h hflag p rfl function
      cases enabled' with
      | true =>
        obtain rfl : enabled = false := by simpa using hflag
        show (held (heldIn p.actions) down function : Int) - net function (holds p.events) = 0
        omega
      | false =>
        obtain rfl : enabled = true := by simpa using hflag
        show 0 = (held (heldIn p.actions) down function : Int) - net function (holds p.events)
        omega

theorem accounted_register {settings : KeyboardSettings} {answers : Nat → RegisterAnswer}
    (h : s.Accounted) (hkeeps : s.Keeps toHotkey (.register settings answers)) :
    (s.step toHotkey (.register settings answers)).Accounted := by
  obtain ⟨actions, ids, status, hspec, hget⟩ :=
    @registerFromSettings_spec toHotkey s.hotkeys settings answers
  simp only [step, hspec]
  refine ⟨h.plays, h.noManager, fun function => ?_⟩
  have hheld : held (heldIn actions) s.polled function =
      held (heldIn s.hotkeys.hotkeyActions) s.polled function := by
    refine held_congr (fun id hid => ?_) function
    cases hmanager : s.hotkeys.manager with
    | false =>
      rw [(h.noManager hmanager).1] at hid
      exact absurd hid List.not_mem_nil
    | true => rw [hkeeps.1 id hid, heldIn, hget hmanager]
  rw [h.net, hheld, portalTaken_register hkeeps.2]

/-- The events that a poll takes from the portal and delivers. -/
def portalEvents (m : HotkeyManager) : List HotkeyEvent :=
  if m.globalHotkeysEnabled then (m.portalBackend.map PortalHotkeyBackend.events).getD [] else []

/-- A poll drains both queues. Without the crate's manager there is nothing in the first. -/
theorem step_poll (h : s.Accounted) : s.step toHotkey .poll = { s with
    hotkeys := { s.hotkeys with
      portalBackend := s.hotkeys.portalBackend.map fun p => { p with events := [] } }
    queue := []
    polled := s.down
    reported := s.reported ++ (portalEvents s.hotkeys ++ s.queue.filterMap s.hotkeys.dispatch) } := by
  cases hmanager : s.hotkeys.manager with
  | true => simp [step, HotkeyManager.pollEvents, hmanager, portalEvents]
  | false =>
    have hqueue := (h.noManager hmanager).2
    simp [step, HotkeyManager.pollEvents, hmanager, hqueue, portalEvents]

theorem portalTaken_poll (m : HotkeyManager) (down : List String) (function : HotkeyFunction) :
    portalTaken m.globalHotkeysEnabled (m.portalBackend.map fun p => { p with events := [] }) down
        function =
      net function (holds (portalEvents m)) +
        portalTaken m.globalHotkeysEnabled m.portalBackend down function := by
  unfold portalEvents
  cases m.portalBackend with
  | none => cases m.globalHotkeysEnabled <;> rfl
  | some p =>
    cases m.globalHotkeysEnabled with
    | false => rfl
    | true =>
      show (held (heldIn p.actions) down function : Int) - 0 = net function (holds p.events) +
        ((held (heldIn p.actions) down function : Int) - net function (holds p.events))
      omega

theorem accounted_poll (h : s.Accounted) : (s.step toHotkey .poll).Accounted := by
  rw [step_poll h]
  refine ⟨rfl, fun hmanager => ⟨?_, rfl⟩, fun function => ?_⟩
  · obtain ⟨hpolled, hqueue⟩ := h.noManager hmanager
    have hplays := h.plays
    rwa [hpolled, hqueue] at hplays
  · have hkeys := net_translate (heldIn s.hotkeys.hotkeyActions) h.plays function
    rw [← holds_filterMap] at hkeys
    have hnet := h.net function
    have hholds : holds (s.reported ++
        (portalEvents s.hotkeys ++ s.queue.filterMap s.hotkeys.dispatch)) = holds s.reported ++
          (holds (portalEvents s.hotkeys) ++ holds (s.queue.filterMap s.hotkeys.dispatch)) := by
      simp only [holds, List.filterMap_append]
    refine (congrArg (net function) hholds).trans ?_
    rw [net_append, net_append]
    have hkeys' : net function (holds (s.queue.filterMap s.hotkeys.dispatch)) = _ := hkeys
    refine Eq.trans ?_ (congrArg _ (portalTaken_poll s.hotkeys s.portalDown function).symm)
    dsimp only
    omega

theorem accounted_step {i : HotkeyInput} (hi : s.Reports i ∧ s.Keeps toHotkey i)
    (h : s.Accounted) : (s.step toHotkey i).Accounted := by
  cases i with
  | key e => exact accounted_key h hi.1
  | signal e => exact accounted_signal h hi.1
  | task n => exact accounted_task h hi.2
  | register settings answers => exact accounted_register h hi.2
  | poll => exact accounted_poll h

/-- When all keys are up and the queues drained, nothing is left to be released. -/
theorem Accounted.balanced (h : s.Accounted) (hdrained : s.Drained) : s.Balanced := by
  have hpolled : s.polled = [] := by
    have hplays := h.plays
    rw [hdrained.queue, hdrained.down] at hplays
    exact hplays.symm
  refine balanced_iff.mpr fun function => ?_
  have htaken : portalTaken s.hotkeys.globalHotkeysEnabled s.hotkeys.portalBackend [] function =
      0 := by
    cases hportal : s.hotkeys.portalBackend with
    | none => rfl
    | some p =>
      rw [portalTaken, hdrained.events p hportal]
      split <;> rfl
  rw [h.net, hpolled, hdrained.portalDown, htaken]
  rfl

def samplePushToTalk : KeyboardSettings where
  globalHotkeysEnabled := true
  shortcuts := [⟨"row", .pushToTalk, .hold, some ⟨⟨false, false, false, false⟩, "Space"⟩⟩]

def sampleHotkey (binding : HotkeyBinding) : Option HotkeyId :=
  if binding.key = "Space" then some 62 else none

/-- The key is pressed and reported, the settings change, and the key is released. -/
def sampleHold (settings : KeyboardSettings) : List HotkeyInput :=
  [.register samplePushToTalk fun _ => .ok, .key ⟨62, .pressed⟩, .poll,
    .register settings fun _ => .ok, .key ⟨62, .released⟩, .poll]

theorem reports_sampleHold (settings : KeyboardSettings) :
    Always (step sampleHotkey) Reports (start false true false) (sampleHold settings) := by
  refine ⟨trivial, ⟨rfl, by decide⟩, trivial, trivial, ⟨?_, List.mem_singleton_self 62⟩, trivial,
    trivial⟩
  simp only [step]
  rw [manager_registerFromSettings]
  rfl

end HotkeySystem

end Rumble.Desktop
