import Rumble.Client.Chat
import Rumble.Client.NotConnected

/-!
# Connection generations

The connection task of the client and the receiver task of each connection it opened
(`run_connection_task` and `run_receiver_task` of `rumble-client/src/handle.rs`), with what they
share: the audio task, the file-transfer slot, the uploads under way and the event channels of the
projection. A step is what a task does between two points where another may run: an arm of the
connection task up to its handshake and the rest of it, one of the last steps of a receiver, one
event applied. `ui_step` says that the backend moves its two channels as `ClientSys` does.

`isolated_run` proves that nothing of an earlier connection takes effect on a later one, over every
run in which receivers take their last steps before the next handshake succeeds, uploads are
announced by then, and chat is drained when the next attempt is shown.
-/

namespace Rumble.Client

open Rumble.Lib Rumble.Lib.Transition

/-! ## The chat log, by origin -/

/-- A chat event or message, with the attempt whose connection it was received on. -/
structure Origin (α : Type) where
  attempt : Option Nat
  item : α
  deriving DecidableEq

/-- `ChatLog` with the origin of each message. -/
structure OriginLog where
  messages : List (Origin ChatMessage)
  ids : List (Bytes 16)
  epoch : Nat

namespace OriginLog

variable (l : OriginLog)

/-- The log as the client has it. -/
def toChatLog : ChatLog := ⟨l.messages.map Origin.item, l.ids, l.epoch⟩

def push (attempt : Option Nat) (m : ChatMessage) : OriginLog :=
  { l with messages := l.messages ++ [⟨attempt, m⟩], ids := m.id :: l.ids }

def pushNew (attempt : Option Nat) (m : ChatMessage) : OriginLog :=
  if m.id ∈ l.ids then l else l.push attempt m

def apply (newId : Bytes 16) (now : Int) (e : Origin ChatEvent) : OriginLog :=
  match e.item with
  | .messageAdded msg => l.pushNew e.attempt msg
  | .systemNotice text => l.push e.attempt
      { id := newId, sender := "", senderId := none, text := text, timestamp := now, kind := .room
        attachment := none, visibility := .system }
  | .senderDraftInserted msg | .senderMirrorInserted msg => l.push e.attempt msg
  | .historyMerged msgs =>
    let merged := msgs.foldl (fun l m => l.pushNew e.attempt m) l
    if merged.messages.length = l.messages.length then l
    else { merged with
      messages := merged.messages.mergeSort fun a b => a.item.timestamp ≤ b.item.timestamp
      epoch := l.epoch + 1 }

def clear : OriginLog := ⟨[], [], l.epoch + 1⟩

variable {l}

theorem toChatLog_pushNew (attempt : Option Nat) (m : ChatMessage) :
    (l.pushNew attempt m).toChatLog = l.toChatLog.pushNew m := by
  unfold pushNew ChatLog.pushNew
  by_cases h : m.id ∈ l.ids
  · rw [if_pos h]
    exact (if_pos h).symm
  · rw [if_neg h]
    exact Eq.trans (by simp [push, toChatLog, ChatLog.push]) (if_neg h).symm

theorem toChatLog_foldl (attempt : Option Nat) (msgs : List ChatMessage) :
    (msgs.foldl (fun l m => l.pushNew attempt m) l).toChatLog =
      msgs.foldl ChatLog.pushNew l.toChatLog := by
  induction msgs generalizing l with
  | nil => rfl
  | cons m msgs ih => rw [List.foldl_cons, ih, toChatLog_pushNew, List.foldl_cons]

/-- **Origins do not matter to the log.** -/
theorem toChatLog_apply (newId : Bytes 16) (now : Int) (e : Origin ChatEvent) :
    (l.apply newId now e).toChatLog = l.toChatLog.apply newId now e.item := by
  have hpush : ∀ m, (l.push e.attempt m).toChatLog = l.toChatLog.push m := fun m => by
    simp [push, toChatLog, ChatLog.push]
  unfold apply
  cases e.item with
  | messageAdded msg => exact toChatLog_pushNew e.attempt msg
  | systemNotice | senderDraftInserted | senderMirrorInserted => exact hpush _
  | historyMerged msgs =>
    have hmerged := toChatLog_foldl (l := l) e.attempt msgs
    have hlength : ∀ l' : OriginLog, l'.toChatLog.messages.length = l'.messages.length :=
      fun l' => by simp [toChatLog]
    dsimp only [ChatLog.apply]
    rw [← hmerged, hlength, hlength]
    split
    · rfl
    · simp only [toChatLog, ChatLog.mk.injEq, and_true]
      exact List.map_mergeSort fun _ _ _ _ => rfl

theorem forall_push {P : Option Nat → Prop} {attempt : Option Nat} {m : ChatMessage}
    (h : ∀ x ∈ l.messages, P x.attempt) (ha : P attempt) :
    ∀ x ∈ (l.push attempt m).messages, P x.attempt := by
  intro x hx
  rcases List.mem_append.mp hx with hx | hx
  · exact h x hx
  · obtain rfl := List.mem_singleton.mp hx
    exact ha

theorem forall_pushNew {P : Option Nat → Prop} {attempt : Option Nat} {m : ChatMessage}
    (h : ∀ x ∈ l.messages, P x.attempt) (ha : P attempt) :
    ∀ x ∈ (l.pushNew attempt m).messages, P x.attempt := by
  unfold pushNew
  split
  · exact h
  · exact forall_push h ha

theorem forall_foldl {P : Option Nat → Prop} {attempt : Option Nat} (msgs : List ChatMessage)
    (h : ∀ x ∈ l.messages, P x.attempt) (ha : P attempt) :
    ∀ x ∈ (msgs.foldl (fun l m => l.pushNew attempt m) l).messages, P x.attempt := by
  induction msgs generalizing l with
  | nil => exact h
  | cons m msgs ih => exact ih (forall_pushNew h ha)

/-- An event brings in messages of its own origin. -/
theorem forall_apply {P : Option Nat → Prop} {newId : Bytes 16} {now : Int} {e : Origin ChatEvent}
    (h : ∀ x ∈ l.messages, P x.attempt) (ha : P e.attempt) :
    ∀ x ∈ (l.apply newId now e).messages, P x.attempt := by
  unfold apply
  cases e.item with
  | messageAdded => exact forall_pushNew h ha
  | systemNotice | senderDraftInserted | senderMirrorInserted => exact forall_push h ha
  | historyMerged msgs =>
    dsimp only
    split
    · exact h
    · intro x hx
      exact forall_foldl msgs h ha x (List.mem_mergeSort.mp hx)

end OriginLog

/-! ## The backend -/

/-- What a receiver task has still to do: it reads, or has its last steps ahead. -/
inductive ReceiverPhase where
  | reading
  | closingAudio
  | clearingSlot
  | deciding
  | reporting
  | finished
  deriving DecidableEq

/-- The receiver task of a connection, the attempt that opened it and its close flag. -/
structure Receiver where
  attempt : Nat
  localClose : Bool
  phase : ReceiverPhase
  deriving DecidableEq

/-- The connection task takes what comes next, or waits for a handshake. -/
inductive TaskPhase where
  | idle
  | dialing (serverAddr : String) (accepting : Bool)
  deriving DecidableEq

/-- A file on its way to the server, through the plugin of one connection. -/
structure Share where
  generation : Nat
  messageId : Bytes 16
  sender : String
  timestamp : Int
  attachment : ChatAttachment
  deriving DecidableEq

/-- The tasks of the client. A connection is named by its generation. -/
structure Backend where
  ui : ClientSys
  task : TaskPhase
  transport : Option Nat
  localClose : Option Nat
  fileTransfer : Option Nat
  connGen : Nat
  teardowns : List Nat
  uploads : List Share
  deferred : List Share
  receivers : Table Nat Receiver
  /-- The connection the audio task was told of. -/
  audio : Option Nat
  slot : Option Nat
  /-- The shares that were announced, and the connection each was announced on. -/
  announcedShares : List (Share × Nat)
  chat : List (Origin ChatEvent)
  log : OriginLog
  /-- How many `ConnectStarted` were sent, and how many of them were applied. -/
  attempts : Nat
  started : Nat

/-- What a server sends to a connected client. -/
inductive ServerMessage where
  | serverState (m : ServerStateMsg)
  | stateUpdate (expectedHash : ServerStateMsg) (update : Update)
  | registeredUsers (users : List RegisteredUserInfo)
  | userKicked (userId : UserId) (reason kickedBy : String)
  | permissionDenied (message : String)
  | chatBroadcast (cb : ChatBroadcast)
  | directMessageReceived (id : Option (Bytes 16)) (senderId : UserId) (senderName text : String)
      (timestampMs : Int)
  /-- A welcome message or the result of a command. -/
  | notice (text : String)

namespace ServerMessage

def kickReason (reason kickedBy : String) : String :=
  if reason.isEmpty then s!"Kicked by {kickedBy}" else s!"Kicked by {kickedBy}: {reason}"

/-- What `handle_server_message` sends on the connection and room channels. -/
def uiMove (me : Option UserId) : ServerMessage → Option ClientMove
  | .serverState m => some (.serverState m)
  | .stateUpdate expectedHash update => some (.stateUpdate expectedHash update)
  | .registeredUsers users => some (.registeredUsers users)
  | .userKicked userId reason kickedBy =>
    if me = some userId then some (.kicked (kickReason reason kickedBy)) else none
  | .permissionDenied message => some (.permissionDenied message)
  | .chatBroadcast _ | .directMessageReceived .. | .notice _ => none

/-- What it sends on the chat channel. -/
def chatEvents (codec : HistoryCodec) (log : ChatLog) (newId : Bytes 16) (now : Int) :
    ServerMessage → List ChatEvent
  | .chatBroadcast cb =>
    (ChatSys.receiveChat codec { ChatSys.new with log := log } newId now cb).queue
  | .directMessageReceived id senderId senderName text timestampMs =>
    (ChatSys.receiveDirect .new newId now id senderId senderName text timestampMs).queue
  | .notice text => [.systemNotice text]
  | .serverState _ | .stateUpdate .. | .registeredUsers _ | .userKicked .. | .permissionDenied _ =>
    []

end ServerMessage

inductive BackendMove where
  /-- The user connects, or accepts the certificate that is pending. -/
  | connect (serverAddr : String)
  | acceptCertificate
  /-- The handshake ends; a plugin may not exist on the platform. -/
  | dialSucceeded (userId : UserId) (sessionPublicKey sessionId : Bytes 32)
      (rooms : List Room) (users : List User) (groups : List Group)
      (slashCommands : List SlashCommand) (plugin : Bool)
  | dialTimedOut
  | dialUntrusted (certInfo : PendingCertificate)
  | dialFailed (error : String)
  | rejectCertificate
  | disconnect
  /-- A send over the open transport fails. -/
  | sendFailed (error : String)
  /-- The connection task takes a teardown request. -/
  | teardown
  | shareFile (messageId : Bytes 16) (sender : String) (timestamp : Int)
      (attachment : ChatAttachment)
  /-- A watcher finds its upload done, or failed. -/
  | uploadDone (share : Share)
  | uploadFailed (share : Share)
  /-- The connection task announces a finished upload, if the send succeeds. -/
  | finalize (sent : Bool)
  /-- The client adds an entry of its own to the chat. -/
  | localChat (e : ChatEvent)
  /-- A receiver passes on a message, sees the end of its stream, takes one of its last steps. -/
  | receive (generation : Nat) (newId : Bytes 16) (now : Int) (m : ServerMessage)
  | endOfStream (generation : Nat)
  | receiverStep (generation : Nat)
  /-- The projection applies an event. -/
  | drainConnection
  | drainRoom
  | drainChat (newId : Bytes 16) (now : Int)

namespace Backend

def new : Backend where
  ui := .new
  task := .idle
  transport := none
  localClose := none
  fileTransfer := none
  connGen := 0
  teardowns := []
  uploads := []
  deferred := []
  receivers := ∅
  audio := none
  slot := none
  announcedShares := []
  chat := []
  log := ⟨[], [], 0⟩
  attempts := 0
  started := 0

/-! ## Steps -/

variable (b : Backend)

def moveUi (m : ClientMove) : Backend := { b with ui := b.ui.step m }

def sendChat (attempt : Option Nat) (e : ChatEvent) : Backend :=
  { b with chat := b.chat ++ [⟨attempt, e⟩] }

def setReceiver (generation : Nat) (r : Receiver) : Backend :=
  { b with receivers := b.receivers.set generation r }

/-- The close flag that the task holds is set. -/
def storeFlag : Backend :=
  match b.localClose with
  | none => b
  | some g =>
    match b.receivers.get g with
    | none => b
    | some r => b.setReceiver g { r with localClose := true }

/-- The flag is set and given up. -/
def takeFlag : Backend := { b.storeFlag with localClose := none }

def publishFt (ft : Option Nat) : Backend := { b with fileTransfer := ft, slot := ft }

/-- A connect closes the connection that is open. -/
def supersede : Backend :=
  match b.transport with
  | none => b.takeFlag
  | some _ => { b.takeFlag.publishFt none with transport := none, audio := none }

/-- `ConnectStarted` is sent and the handshake starts. -/
def dial (serverAddr : String) (accepting : Bool) : Backend :=
  { b.moveUi (.connectStarted serverAddr) with
    task := .dialing serverAddr accepting
    attempts := b.attempts + 1 }

def established (userId : UserId) (sessionPublicKey sessionId : Bytes 32) (rooms : List Room)
    (users : List User) (groups : List Group) (slashCommands : List SlashCommand) (plugin : Bool) :
    Backend :=
  let gen := b.connGen + 1
  { (((b.moveUi (.connectSucceeded userId sessionPublicKey sessionId rooms users groups
      slashCommands)).publishFt (if plugin then some gen else none)).setReceiver gen
        ⟨b.attempts, false, .reading⟩) with
    task := .idle
    audio := some gen
    transport := some gen
    localClose := some gen
    connGen := gen }

def disconnected : Backend :=
  { (b.takeFlag.publishFt none).moveUi .disconnect with transport := none, audio := none }

/-- `send_tracked` on an error: the flag is set and kept. -/
def sendFailed (error : String) : Backend :=
  { b.storeFlag.moveUi (.connectionLost error) with transport := none, audio := none }

/-- A request for another connection than the current one is stale. -/
def teardown : Backend :=
  match b.teardowns with
  | [] => b
  | g :: rest =>
    if g = b.connGen then { (b.takeFlag.publishFt none) with transport := none, teardowns := rest }
    else { b with teardowns := rest }

def shareFile (messageId : Bytes 16) (sender : String) (timestamp : Int)
    (attachment : ChatAttachment) : Backend :=
  match b.fileTransfer with
  | none => b
  | some g =>
    { b.sendChat none (.senderDraftInserted
        { id := messageId, sender := sender, senderId := b.ui.state.myUserId
          text := attachment.fallbackText, timestamp := timestamp, kind := .room
          attachment := some attachment, visibility := .senderDraft }) with
      uploads := b.uploads ++ [⟨g, messageId, sender, timestamp, attachment⟩] }

/-- A share is announced on the connection that is open, and dropped when none is. -/
def finalize (sent : Bool) : Backend :=
  match b.deferred with
  | [] => b
  | share :: rest =>
    match b.transport, sent with
    | some g, true =>
      { b.sendChat none (.senderMirrorInserted
          { id := share.messageId, sender := share.sender, senderId := none
            text := share.attachment.fallbackText, timestamp := share.timestamp, kind := .room
            attachment := some share.attachment, visibility := .senderMirror }) with
        deferred := rest
        announcedShares := b.announcedShares ++ [(share, g)] }
    | _, _ => { b with deferred := rest }

def receive (codec : HistoryCodec) (generation : Nat) (newId : Bytes 16) (now : Int)
    (m : ServerMessage) : Backend :=
  match b.receivers.get generation with
  | some ⟨attempt, _, .reading⟩ =>
    { b with
      ui := b.ui.run (m.uiMove b.ui.state.myUserId).toList
      chat := b.chat ++
        (m.chatEvents codec b.log.toChatLog newId now).map fun e => ⟨some attempt, e⟩ }
  | _ => b

/-- The loop is left, and the connection task is asked for a teardown. -/
def endOfStream (generation : Nat) : Backend :=
  match b.receivers.get generation with
  | some ⟨attempt, flag, .reading⟩ =>
    { b.setReceiver generation ⟨attempt, flag, .closingAudio⟩ with
      teardowns := b.teardowns ++ [generation] }
  | _ => b

/-- The audio task is told, the slot is cleared, and the loss is reported unless the close was
local or the client is disconnected already. -/
def receiverStep (generation : Nat) : Backend :=
  match b.receivers.get generation with
  | some ⟨attempt, flag, .closingAudio⟩ =>
    { b.setReceiver generation ⟨attempt, flag, .clearingSlot⟩ with audio := none }
  | some ⟨attempt, flag, .clearingSlot⟩ =>
    { b.setReceiver generation ⟨attempt, flag, .deciding⟩ with slot := none }
  | some ⟨attempt, flag, .deciding⟩ =>
    b.setReceiver generation ⟨attempt, flag,
      if flag ∨ b.ui.state.connection = .disconnected then .finished else .reporting⟩
  | some ⟨attempt, flag, .reporting⟩ =>
    (b.setReceiver generation ⟨attempt, flag, .finished⟩).moveUi
      (.connectionLost "Connection closed")
  | _ => b

/-- A `ConnectStarted` starts a new log. -/
def drainConnection : Backend :=
  match b.ui.connection with
  | ⟨_, .connectStarted _⟩ :: _ =>
    { b.moveUi .drainConnection with log := b.log.clear, started := b.started + 1 }
  | _ => b.moveUi .drainConnection

def drainChat (newId : Bytes 16) (now : Int) : Backend :=
  match b.chat with
  | [] => b
  | e :: rest => { b with log := b.log.apply newId now e, chat := rest }

/-- The connection task takes a command or a request only between handshakes. -/
def whenIdle (next : Backend) : Backend :=
  match b.task with
  | .idle => next
  | .dialing .. => b

/-- The outcome of a handshake. -/
def whenDialing (next : String → Bool → Backend) : Backend :=
  match b.task with
  | .idle => b
  | .dialing serverAddr accepting => next serverAddr accepting

def step (codec : HistoryCodec) (b : Backend) : BackendMove → Backend
  | .connect serverAddr => b.whenIdle (b.supersede.dial serverAddr false)
  | .acceptCertificate => b.whenIdle <|
    match b.ui.state.connection with
    | .certificatePending certInfo => b.dial certInfo.serverAddr true
    | _ => b
  | .dialSucceeded userId sessionPublicKey sessionId rooms users groups slashCommands plugin =>
    b.whenDialing fun _ _ =>
      b.established userId sessionPublicKey sessionId rooms users groups slashCommands plugin
  | .dialTimedOut => b.whenDialing fun serverAddr _ =>
    { (b.moveUi .connectAbandoned).sendChat none
        (.systemNotice s!"Connection to {serverAddr} timed out") with task := .idle }
  | .dialUntrusted certInfo => b.whenDialing fun _ accepting =>
    if accepting then b else { b.moveUi (.certificatePending certInfo) with task := .idle }
  | .dialFailed error => b.whenDialing fun _ _ =>
    { b.moveUi (.connectFailed error) with task := .idle }
  | .rejectCertificate => b.whenIdle (b.moveUi .connectAbandoned)
  | .disconnect => b.whenIdle b.disconnected
  | .sendFailed error => b.whenIdle (if b.transport.isSome then b.sendFailed error else b)
  | .teardown => b.whenIdle b.teardown
  | .shareFile messageId sender timestamp attachment =>
    b.whenIdle (b.shareFile messageId sender timestamp attachment)
  | .uploadDone share =>
    if share ∈ b.uploads then
      { b with uploads := b.uploads.erase share, deferred := b.deferred ++ [share] }
    else b
  | .uploadFailed share => { b with uploads := b.uploads.erase share }
  | .finalize sent => b.whenIdle (b.finalize sent)
  | .localChat e => b.sendChat none e
  | .receive generation newId now m => b.receive codec generation newId now m
  | .endOfStream generation => b.endOfStream generation
  | .receiverStep generation => b.receiverStep generation
  | .drainConnection => b.drainConnection
  | .drainRoom => b.moveUi .drainRoom
  | .drainChat newId now => b.drainChat newId now

def run (codec : HistoryCodec) (b : Backend) (moves : List BackendMove) : Backend :=
  moves.foldl (step codec) b

/-! ## The property and its condition -/

/-- The receiver whose end a step belongs to. -/
def ending (b : Backend) : BackendMove → Option Nat
  | .endOfStream generation | .receiverStep generation => some generation
  | .teardown => b.teardowns.head?
  | _ => none

/-- The step neither closes the audio connection of connection `g`, nor clears its slot, nor closes
it and resets its state. -/
structure Untouched (g : Nat) (b b' : Backend) : Prop where
  audio : b.audio = some g → b'.audio = some g
  slot : b.slot = some g → b'.slot = some g
  state : b.transport = some g → b'.transport = some g ∧ b'.ui = b.ui

/-- The end of a receiver leaves every later connection untouched. -/
def EndIsolated (codec : HistoryCodec) (b : Backend) (m : BackendMove) : Prop :=
  ∀ n ∈ b.ending m, ∀ g, n < g → Untouched g b (b.step codec m)

/-- No share is announced on a later connection than the one it was uploaded over. -/
def SharesIsolated (b : Backend) : Prop := ∀ p ∈ b.announcedShares, ¬ p.1.generation < p.2

/-- No message received on a connection is in the log once a later `ConnectStarted` was applied. -/
def ChatIsolated (b : Backend) : Prop := ∀ x ∈ b.log.messages, ∀ a ∈ x.attempt, ¬ a < b.started

instance (b : Backend) : Decidable b.SharesIsolated :=
  inferInstanceAs (Decidable (∀ p ∈ b.announcedShares, ¬ p.1.generation < p.2))

instance (b : Backend) : Decidable b.ChatIsolated :=
  inferInstanceAs (Decidable (∀ x ∈ b.log.messages, ∀ a ∈ x.attempt, ¬ a < b.started))

end Backend

/-- The phases whose step reaches beyond the receiver. -/
def ReceiverPhase.acts : ReceiverPhase → Bool
  | .closingAudio | .clearingSlot | .reporting => true
  | .reading | .deciding | .finished => false

/-- `ConnectStarted`. -/
def ConnectionEvent.isStart : ConnectionEvent → Bool
  | .connectStarted _ => true
  | _ => false

/-- The message adds to the chat. -/
def ServerMessage.isChat : ServerMessage → Bool
  | .chatBroadcast _ | .directMessageReceived .. | .notice _ => true
  | _ => false

namespace Backend

/-- A receiver takes its last steps before a later handshake succeeds. An upload is found done
before that, and no finished upload waits when it does. A receiver passes on chat before the
`ConnectStarted` of a later attempt is applied, and what it passed on is applied by then. -/
def Timely (b : Backend) : BackendMove → Prop
  | .dialSucceeded .. => b.task = .idle ∨ b.deferred = []
  | .uploadDone share => share ∈ b.uploads → share.generation = b.connGen
  | .receiverStep generation =>
    ∀ r ∈ b.receivers.get generation, r.phase.acts = true → generation = b.connGen
  | .receive generation _ _ m => ∀ r ∈ b.receivers.get generation, r.phase = .reading →
    m.isChat = true → b.started ≤ r.attempt
  | .drainConnection => ∀ x ∈ b.ui.connection.head?, x.event.isStart = true →
    ∀ e ∈ b.chat, ∀ a ∈ e.attempt, b.started < a
  | _ => True

instance (b : Backend) (m : BackendMove) : Decidable (b.Timely m) := by
  unfold Timely
  split <;> infer_instance

/-! ## What the tasks leave alone -/

section Frame

variable {b b' b'' : Backend}

/-- A step that opens no connection, finishes no upload and receives and applies no chat. -/
structure Frame (b b' : Backend) : Prop where
  connGen : b'.connGen = b.connGen
  audio : b'.audio = none ∨ b'.audio = b.audio
  slot : b'.slot = none ∨ b'.slot = b.slot
  transport : b'.transport = none ∨ b'.transport = b.transport
  deferred : b'.deferred ⊆ b.deferred
  announcedShares : b'.announcedShares = b.announcedShares
  chat : ∀ e ∈ b'.chat, e ∈ b.chat ∨ e.attempt = none
  log : b'.log = b.log
  started : b'.started = b.started

/-- What the frame does not mention may be anything. -/
theorem frame_update {audio slot transport : Option Nat} (ha : audio = none ∨ audio = b.audio)
    (hs : slot = none ∨ slot = b.slot) (ht : transport = none ∨ transport = b.transport)
    (ui : ClientSys) (task : TaskPhase) (localClose fileTransfer : Option Nat)
    (teardowns : List Nat) (uploads : List Share) (receivers : Table Nat Receiver)
    (attempts : Nat) : Frame b { b with
      ui := ui
      task := task
      transport := transport
      localClose := localClose
      fileTransfer := fileTransfer
      teardowns := teardowns
      uploads := uploads
      receivers := receivers
      audio := audio
      slot := slot
      attempts := attempts } where
  connGen := rfl
  audio := ha
  slot := hs
  transport := ht
  deferred := List.Subset.refl _
  announcedShares := rfl
  chat _ he := .inl he
  log := rfl
  started := rfl

theorem Frame.refl (b : Backend) : Frame b b := frame_update (.inr rfl) (.inr rfl) (.inr rfl) ..

theorem Frame.trans (h : Frame b b') (h' : Frame b' b'') : Frame b b'' where
  connGen := h'.connGen.trans h.connGen
  audio := h'.audio.elim .inl fun e => e ▸ h.audio
  slot := h'.slot.elim .inl fun e => e ▸ h.slot
  transport := h'.transport.elim .inl fun e => e ▸ h.transport
  deferred := List.Subset.trans h'.deferred h.deferred
  announcedShares := h'.announcedShares.trans h.announcedShares
  chat e he := (h'.chat e he).elim (h.chat e) .inr
  log := h'.log.trans h.log
  started := h'.started.trans h.started

theorem frame_moveUi (m : ClientMove) : Frame b (b.moveUi m) :=
  frame_update (.inr rfl) (.inr rfl) (.inr rfl) ..

theorem frame_sendChat (e : ChatEvent) : Frame b (b.sendChat none e) where
  connGen := rfl
  audio := .inr rfl
  slot := .inr rfl
  transport := .inr rfl
  deferred := List.Subset.refl _
  announcedShares := rfl
  chat x hx := by
    rcases List.mem_append.mp hx with hx | hx
    · exact .inl hx
    · obtain rfl := List.mem_singleton.mp hx
      exact .inr rfl
  log := rfl
  started := rfl

theorem Frame.task (h : Frame b b') (phase : TaskPhase) : Frame b { b' with task := phase } :=
  h.trans (frame_update (.inr rfl) (.inr rfl) (.inr rfl) ..)

theorem frame_dial (serverAddr : String) (accepting : Bool) :
    Frame b (b.dial serverAddr accepting) :=
  frame_update (.inr rfl) (.inr rfl) (.inr rfl) ..

theorem frame_storeFlag : Frame b b.storeFlag := by
  unfold storeFlag
  split
  · exact .refl b
  split
  · exact .refl b
  · exact frame_update (.inr rfl) (.inr rfl) (.inr rfl) ..

theorem frame_takeFlag : Frame b b.takeFlag :=
  frame_storeFlag.trans (frame_update (.inr rfl) (.inr rfl) (.inr rfl) ..)

theorem frame_supersede : Frame b b.supersede := by
  unfold supersede
  split
  · exact frame_takeFlag
  · exact frame_takeFlag.trans (frame_update (.inl rfl) (.inl rfl) (.inl rfl) ..)

theorem frame_disconnected : Frame b b.disconnected :=
  frame_takeFlag.trans (frame_update (.inl rfl) (.inl rfl) (.inl rfl) ..)

theorem frame_sendFailed (error : String) : Frame b (b.sendFailed error) :=
  frame_storeFlag.trans (frame_update (.inl rfl) (.inr rfl) (.inl rfl) ..)

theorem frame_teardown : Frame b b.teardown := by
  unfold teardown
  split
  · exact .refl b
  split
  · exact frame_takeFlag.trans (frame_update (.inr rfl) (.inl rfl) (.inl rfl) ..)
  · exact frame_update (.inr rfl) (.inr rfl) (.inr rfl) ..

theorem frame_shareFile (messageId : Bytes 16) (sender : String) (timestamp : Int)
    (attachment : ChatAttachment) :
    Frame b (b.shareFile messageId sender timestamp attachment) := by
  unfold shareFile
  split
  · exact .refl b
  · exact (frame_sendChat _).trans (frame_update (.inr rfl) (.inr rfl) (.inr rfl) ..)

theorem frame_endOfStream (g : Nat) : Frame b (b.endOfStream g) := by
  unfold endOfStream
  split
  · exact frame_update (.inr rfl) (.inr rfl) (.inr rfl) ..
  · exact .refl b

theorem frame_receiverStep (g : Nat) : Frame b (b.receiverStep g) := by
  unfold receiverStep
  split
  · exact frame_update (.inl rfl) (.inr rfl) (.inr rfl) ..
  · exact frame_update (.inr rfl) (.inl rfl) (.inr rfl) ..
  · exact frame_update (.inr rfl) (.inr rfl) (.inr rfl) ..
  · exact frame_update (.inr rfl) (.inr rfl) (.inr rfl) ..
  · exact .refl b

end Frame

/-! ## The two channels -/

section Channels

variable (b : Backend)

@[simp] theorem ui_storeFlag : b.storeFlag.ui = b.ui := by
  unfold storeFlag
  split
  · rfl
  split
  · rfl
  · rfl

@[simp] theorem ui_supersede : b.supersede.ui = b.ui := by
  unfold supersede
  split
  · exact b.ui_storeFlag
  · exact b.ui_storeFlag

@[simp] theorem ui_teardown : b.teardown.ui = b.ui := by
  unfold teardown
  split
  · rfl
  split
  · exact b.ui_storeFlag
  · rfl

@[simp] theorem ui_finalize (sent : Bool) : (b.finalize sent).ui = b.ui := by
  unfold finalize
  split
  · rfl
  split
  · rfl
  · rfl

@[simp] theorem ui_shareFile (messageId : Bytes 16) (sender : String) (timestamp : Int)
    (attachment : ChatAttachment) :
    (b.shareFile messageId sender timestamp attachment).ui = b.ui := by
  unfold shareFile
  split
  · rfl
  · rfl

/-- **The backend moves the two channels** as the client's moves do. -/
theorem ui_step (codec : HistoryCodec) (m : BackendMove) :
    ∃ moves, (b.step codec m).ui = b.ui.run moves := by
  have hstay : ∀ {b' : Backend}, b'.ui = b.ui → ∃ moves, b'.ui = b.ui.run moves := fun h => ⟨[], h⟩
  have hmove : ∀ {b' : Backend} (m : ClientMove), b'.ui = b.ui.step m →
      ∃ moves, b'.ui = b.ui.run moves := fun m h => ⟨[m], h⟩
  have hidle : ∀ {next : Backend}, (∃ moves, next.ui = b.ui.run moves) →
      ∃ moves, (b.whenIdle next).ui = b.ui.run moves := by
    intro next hnext
    unfold whenIdle
    split
    · exact hnext
    · exact hstay rfl
  have hdialing : ∀ {next : String → Bool → Backend},
      (∀ addr acc, ∃ moves, (next addr acc).ui = b.ui.run moves) →
      ∃ moves, (b.whenDialing next).ui = b.ui.run moves := by
    intro next hnext
    unfold whenDialing
    split
    · exact hstay rfl
    · exact hnext _ _
  cases m with
  | connect addr =>
    exact hidle (hmove (.connectStarted addr)
      (congrArg (ClientSys.step · (.connectStarted addr)) b.ui_supersede))
  | acceptCertificate =>
    refine hidle ?_
    split
    · rename_i certInfo _
      exact hmove (.connectStarted certInfo.serverAddr) rfl
    · exact hstay rfl
  | dialSucceeded userId key session rooms users groups commands plugin =>
    exact hdialing fun _ _ =>
      hmove (.connectSucceeded userId key session rooms users groups commands) rfl
  | dialTimedOut => exact hdialing fun _ _ => hmove .connectAbandoned rfl
  | dialUntrusted certInfo =>
    refine hdialing fun _ accepting => ?_
    split
    · exact hstay rfl
    · exact hmove (.certificatePending certInfo) rfl
  | dialFailed error => exact hdialing fun _ _ => hmove (.connectFailed error) rfl
  | rejectCertificate => exact hidle (hmove .connectAbandoned rfl)
  | disconnect => exact hidle (hmove .disconnect
    (congrArg (ClientSys.step · .disconnect) b.ui_storeFlag))
  | sendFailed error =>
    refine hidle ?_
    split
    · exact hmove (.connectionLost error)
        (congrArg (ClientSys.step · (.connectionLost error)) b.ui_storeFlag)
    · exact hstay rfl
  | teardown => exact hidle (hstay b.ui_teardown)
  | shareFile => exact hidle (hstay (b.ui_shareFile _ _ _ _))
  | uploadDone share =>
    unfold step
    dsimp only
    split
    · exact hstay rfl
    · exact hstay rfl
  | uploadFailed share => exact hstay rfl
  | finalize sent => exact hidle (hstay (b.ui_finalize sent))
  | localChat e => exact hstay rfl
  | receive g newId now m =>
    change ∃ moves, (b.receive codec g newId now m).ui = _
    unfold receive
    split
    · exact ⟨_, rfl⟩
    · exact hstay rfl
  | endOfStream g =>
    change ∃ moves, (b.endOfStream g).ui = _
    unfold endOfStream
    split
    · exact hstay rfl
    · exact hstay rfl
  | receiverStep g =>
    change ∃ moves, (b.receiverStep g).ui = _
    unfold receiverStep
    split
    · exact hstay rfl
    · exact hstay rfl
    · exact hstay rfl
    · exact hmove (.connectionLost "Connection closed") rfl
    · exact hstay rfl
  | drainConnection =>
    change ∃ moves, b.drainConnection.ui = _
    unfold drainConnection
    split
    · exact hmove .drainConnection rfl
    · exact hmove .drainConnection rfl
  | drainRoom => exact hmove .drainRoom rfl
  | drainChat newId now =>
    change ∃ moves, (b.drainChat newId now).ui = _
    unfold drainChat
    split
    · exact hstay rfl
    · exact hstay rfl

/-- The chat log of the projection is `ChatLog`'s. -/
theorem toChatLog_drainChat {e : Origin ChatEvent} {rest : List (Origin ChatEvent)}
    (hq : b.chat = e :: rest) (newId : Bytes 16) (now : Int) :
    (b.drainChat newId now).log.toChatLog = b.log.toChatLog.apply newId now e.item := by
  simp only [drainChat, hq]
  exact OriginLog.toChatLog_apply newId now e

end Channels

/-! ## The invariant -/

/-- Nothing is held for a connection that was not opened yet, every finished upload belongs to the
latest connection, and no chat is older than the attempt that is shown. -/
structure Current (b : Backend) : Prop where
  audio : ∀ g ∈ b.audio, g ≤ b.connGen
  slot : ∀ g ∈ b.slot, g ≤ b.connGen
  transport : ∀ g ∈ b.transport, g ≤ b.connGen
  deferred : ∀ s ∈ b.deferred, b.connGen ≤ s.generation
  shares : ∀ p ∈ b.announcedShares, p.2 ≤ p.1.generation
  chat : ∀ e ∈ b.chat, ∀ a ∈ e.attempt, b.started ≤ a
  log : ∀ x ∈ b.log.messages, ∀ a ∈ x.attempt, b.started ≤ a

namespace Current

variable {b b' : Backend}

theorem new : Current .new :=
  ⟨fun _ h => (nomatch h), fun _ h => (nomatch h), fun _ h => (nomatch h), fun _ h => (nomatch h),
    fun _ h => (nomatch h), fun _ h => (nomatch h), fun _ h => (nomatch h)⟩

theorem frame (h : Current b) (hf : Frame b b') : Current b' := by
  have hheld : ∀ {o o' : Option Nat}, o' = none ∨ o' = o → (∀ g ∈ o, g ≤ b.connGen) →
      ∀ g ∈ o', g ≤ b'.connGen := by
    rintro o o' (rfl | rfl) ho g hg
    · exact absurd hg (Option.not_mem_none g)
    · rw [hf.connGen]
      exact ho g hg
  refine ⟨hheld hf.audio h.audio, hheld hf.slot h.slot, hheld hf.transport h.transport,
    fun s hs => ?_, ?_, fun e he a ha => ?_, ?_⟩
  · rw [hf.connGen]
    exact h.deferred s (hf.deferred hs)
  · rw [hf.announcedShares]
    exact h.shares
  · rw [hf.started]
    rcases hf.chat e he with he | hnone
    · exact h.chat e he a ha
    · rw [hnone] at ha
      exact absurd ha (Option.not_mem_none a)
  · rw [hf.log, hf.started]
    exact h.log

theorem established (h : Current b) (hd : b.deferred = []) (userId : UserId)
    (key session : Bytes 32) (rooms : List Room) (users : List User) (groups : List Group)
    (commands : List SlashCommand) (plugin : Bool) :
    Current (b.established userId key session rooms users groups commands plugin) where
  audio g hg := le_of_eq (Option.some.inj hg).symm
  slot g hg := by
    have hg' : (if plugin then some (b.connGen + 1) else none) = some g := hg
    cases plugin with
    | true => exact le_of_eq (Option.some.inj hg').symm
    | false => exact nomatch hg'
  transport g hg := le_of_eq (Option.some.inj hg).symm
  deferred s hs := by
    have hs' : s ∈ b.deferred := hs
    rw [hd] at hs'
    exact nomatch hs'
  shares := h.shares
  chat := h.chat
  log := h.log

theorem uploadDone (h : Current b) (codec : HistoryCodec) (share : Share)
    (hc : b.Timely (.uploadDone share)) : Current (b.step codec (.uploadDone share)) := by
  unfold step
  dsimp only
  split
  · rename_i hmem
    refine { h with deferred := fun s hs => ?_ }
    rcases List.mem_append.mp hs with hs | hs
    · exact h.deferred s hs
    · obtain rfl := List.mem_singleton.mp hs
      exact le_of_eq (hc hmem).symm
  · exact h

theorem finalize (h : Current b) (sent : Bool) : Current (b.finalize sent) := by
  unfold Backend.finalize
  split
  · exact h
  rename_i share rest hq
  have hrest : ∀ s ∈ rest, b.connGen ≤ s.generation := fun s hs =>
    h.deferred s (by rw [hq]; exact List.mem_cons_of_mem share hs)
  split
  · rename_i g htransport
    have hsent := h.frame (frame_sendChat (.senderMirrorInserted
      { id := share.messageId, sender := share.sender, senderId := none
        text := share.attachment.fallbackText, timestamp := share.timestamp, kind := .room
        attachment := some share.attachment, visibility := .senderMirror }))
    refine { hsent with deferred := hrest, shares := fun p hp => ?_ }
    rcases List.mem_append.mp hp with hp | hp
    · exact h.shares p hp
    · obtain rfl := List.mem_singleton.mp hp
      exact (h.transport g htransport).trans
        (h.deferred share (by rw [hq]; exact List.mem_cons_self))
  · exact { h with deferred := hrest }

theorem receive (h : Current b) (codec : HistoryCodec) {g : Nat} {newId : Bytes 16} {now : Int}
    {m : ServerMessage} (hc : b.Timely (.receive g newId now m)) :
    Current (b.receive codec g newId now m) := by
  unfold Backend.receive
  split
  · rename_i attempt flag hr
    refine { h with chat := fun e he a ha => ?_ }
    rcases List.mem_append.mp he with he | he
    · exact h.chat e he a ha
    · obtain ⟨c, hmem, rfl⟩ := List.mem_map.mp he
      obtain rfl := Option.some.inj ha
      refine hc _ hr rfl ?_
      cases m with
      | chatBroadcast | directMessageReceived | notice => rfl
      | serverState | stateUpdate | registeredUsers | userKicked | permissionDenied =>
        exact nomatch hmem
  · exact h

theorem drainConnection (h : Current b) (hc : b.Timely .drainConnection) :
    Current b.drainConnection := by
  unfold Backend.drainConnection
  split
  · rename_i stamp addr rest hq
    have hlater := hc ⟨stamp, .connectStarted addr⟩ (by simp [hq]) rfl
    exact { h with chat := hlater, log := fun x hx => (nomatch hx) }
  · exact h.frame (frame_moveUi _)

theorem drainChat (h : Current b) (newId : Bytes 16) (now : Int) :
    Current (b.drainChat newId now) := by
  unfold Backend.drainChat
  split
  · exact h
  rename_i e rest hq
  refine { h with chat := fun x hx => h.chat x ?_, log := ?_ }
  · rw [hq]
    exact List.mem_cons_of_mem e hx
  · exact OriginLog.forall_apply (P := fun o => ∀ a ∈ o, b.started ≤ a) h.log
      (h.chat e (by rw [hq]; exact List.mem_cons_self))

/-- **One move** that meets the condition. -/
theorem step (h : Current b) (codec : HistoryCodec) {m : BackendMove} (hc : b.Timely m) :
    Current (b.step codec m) := by
  have hidle : ∀ {next : Backend}, Current next → Current (b.whenIdle next) := by
    intro next hnext
    unfold whenIdle
    split
    · exact hnext
    · exact h
  have hdialing : ∀ {next : String → Bool → Backend}, (∀ addr acc, Current (next addr acc)) →
      Current (b.whenDialing next) := by
    intro next hnext
    unfold whenDialing
    split
    · exact h
    · exact hnext _ _
  cases m with
  | connect addr => exact hidle (h.frame (frame_supersede.trans (frame_dial addr false)))
  | acceptCertificate =>
    refine hidle ?_
    split
    · exact h.frame (frame_dial _ true)
    · exact h
  | dialSucceeded userId key session rooms users groups commands plugin =>
    unfold Backend.step whenDialing
    dsimp only
    split
    · exact h
    · rename_i htask
      refine h.established (hc.resolve_left ?_) userId key session rooms users groups commands
        plugin
      rw [htask]
      exact TaskPhase.noConfusion
  | dialTimedOut =>
    exact hdialing fun _ _ => h.frame (((frame_moveUi _).trans (frame_sendChat _)).task .idle)
  | dialUntrusted certInfo =>
    refine hdialing fun _ accepting => ?_
    split
    · exact h
    · exact h.frame ((frame_moveUi _).task .idle)
  | dialFailed error => exact hdialing fun _ _ => h.frame ((frame_moveUi _).task .idle)
  | rejectCertificate => exact hidle (h.frame (frame_moveUi _))
  | disconnect => exact hidle (h.frame frame_disconnected)
  | sendFailed error =>
    refine hidle ?_
    split
    · exact h.frame (frame_sendFailed error)
    · exact h
  | teardown => exact hidle (h.frame frame_teardown)
  | shareFile messageId sender timestamp attachment =>
    exact hidle (h.frame (frame_shareFile messageId sender timestamp attachment))
  | uploadDone share => exact h.uploadDone codec share hc
  | uploadFailed share => exact { h with }
  | finalize sent => exact hidle (h.finalize sent)
  | localChat e => exact h.frame (frame_sendChat e)
  | receive g newId now m => exact h.receive codec hc
  | endOfStream g => exact h.frame (frame_endOfStream g)
  | receiverStep g => exact h.frame (frame_receiverStep g)
  | drainConnection => exact h.drainConnection hc
  | drainRoom => exact h.frame (frame_moveUi _)
  | drainChat newId now => exact h.drainChat newId now

theorem sharesIsolated (h : Current b) : b.SharesIsolated := fun p hp => (h.shares p hp).not_gt

theorem chatIsolated (h : Current b) : b.ChatIsolated := fun x hx a ha => (h.log x hx a ha).not_gt

/-- Later connections than the latest hold nothing. -/
theorem untouched (h : Current b) {g : Nat} (hg : b.connGen < g) (b' : Backend) :
    Untouched g b b' where
  audio ha := absurd hg (h.audio g ha).not_gt
  slot hs := absurd hg (h.slot g hs).not_gt
  state ht := absurd hg (h.transport g ht).not_gt

/-- **The end of a receiver** that comes in time. -/
theorem endIsolated (h : Current b) (codec : HistoryCodec) {m : BackendMove} (hc : b.Timely m) :
    EndIsolated codec b m := by
  have hrefl : ∀ {g : Nat} {b' : Backend}, b'.audio = b.audio → b'.slot = b.slot →
      b'.transport = b.transport → b'.ui = b.ui → Untouched g b b' := fun ha hs ht hu =>
    ⟨fun e => ha.trans e, fun e => hs.trans e, fun e => ⟨ht.trans e, hu⟩⟩
  intro n hn g hg
  cases m with
  | endOfStream n' =>
    change Untouched g b (b.endOfStream n')
    unfold endOfStream
    split
    · exact hrefl rfl rfl rfl rfl
    · exact hrefl rfl rfl rfl rfl
  | receiverStep n' =>
    obtain rfl := Option.some.inj hn
    by_cases hacts : ∃ r ∈ b.receivers.get n', r.phase.acts = true
    · obtain ⟨r, hr, hact⟩ := hacts
      exact h.untouched (hc r hr hact ▸ hg) _
    · have hquiet : ∀ {attempt flag phase}, b.receivers.get n' = some ⟨attempt, flag, phase⟩ →
          phase.acts = true → False := fun hr hact => hacts ⟨_, hr, hact⟩
      change Untouched g b (b.receiverStep n')
      unfold receiverStep
      split
      · rename_i hr
        exact (hquiet hr rfl).elim
      · rename_i hr
        exact (hquiet hr rfl).elim
      · exact hrefl rfl rfl rfl rfl
      · rename_i hr
        exact (hquiet hr rfl).elim
      · exact hrefl rfl rfl rfl rfl
  | teardown =>
    have hhead : b.teardowns.head? = some n := hn
    change Untouched g b (b.whenIdle b.teardown)
    unfold whenIdle teardown
    split
    · split
      · exact hrefl rfl rfl rfl rfl
      · rename_i n' rest hq
        rw [hq] at hhead
        obtain rfl : n' = n := Option.some.inj hhead
        split
        · rename_i hcur
          exact h.untouched (hcur ▸ hg) _
        · exact hrefl rfl rfl rfl rfl
    · exact hrefl rfl rfl rfl rfl
  | _ => exact nomatch hn

end Current

/-- A handshake that succeeds for bob in Root. -/
def sampleDial : BackendMove :=
  .dialSucceeded 1 (Bytes.rep 32 1) (Bytes.rep 32 2) sampleRooms [sampleUser 1 rootRoomUuid] [] []
    true

/-- The receiver of a connection comes to its end. -/
def sampleEnd (generation : Nat) : List BackendMove :=
  .endOfStream generation :: List.replicate 4 (.receiverStep generation)

def sampleDraw (n : UInt8) : BackendMove := .drainChat (Bytes.rep 16 n) 0

def sampleFile : ChatAttachment where
  nspace := "file"
  schemaVersion := 1
  payload := []
  fallbackText := "plans.txt"

def sampleShare : Share := ⟨1, Bytes.rep 16 5, "bob", 0, sampleFile⟩

/-- A share and a notice over the first connection, all of it drained; a second connection. -/
def sampleInTime : List BackendMove :=
  [.connect "localhost", sampleDial, .drainConnection, .drainConnection,
    .shareFile (Bytes.rep 16 5) "bob" 0 sampleFile, .receive 1 (Bytes.rep 16 6) 0 (.notice "hello"),
    .uploadDone sampleShare, .finalize true, sampleDraw 7, sampleDraw 8, sampleDraw 9,
    .connect "elsewhere"] ++ sampleEnd 1 ++ [.drainConnection, sampleDial, .teardown]

/-- The receiver of the first connection ends after the second one is up. -/
def sampleLateEnd : List BackendMove :=
  [.connect "localhost", sampleDial, .connect "elsewhere", sampleDial, .endOfStream 1]

/-- A share is uploaded over the first connection and announced on the second. -/
def sampleLateShare : List BackendMove :=
  [.connect "localhost", sampleDial, .shareFile (Bytes.rep 16 5) "bob" 0 sampleFile,
    .uploadDone sampleShare, .connect "elsewhere", sampleDial, .finalize true]

/-- A notice of the first server is applied after the second attempt was shown. -/
def sampleLateChat : List BackendMove :=
  [.connect "localhost", sampleDial, .drainConnection, .drainConnection,
    .receive 1 (Bytes.rep 16 6) 0 (.notice "hello"), .connect "elsewhere", .drainConnection,
    sampleDraw 7]

end Backend

end Rumble.Client
