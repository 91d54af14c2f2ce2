import Rumble.Protocol.Wire
import Rumble.Lib.Transition

/-!
# The chat log and its history shares

The chat log of the client (`rumble-client/src/projection.rs`), the events that fill it
(`rumble-client/src/handle.rs`) and the share of recent messages that a peer may ask for
(`rumble-client/src/events.rs`). `sharesNoDirect_iff` says exactly when a share is free of direct
messages, and equal to that of a log that differs only in direct messages and notices.

Parsing and printing of the history messages is a parameter (`HistoryCodec`).
-/

namespace Rumble.Client

open Rumble.Lib

/-! ## Messages -/

inductive ChatMessageKind where
  | room
  | directMessage (otherUserId : UserId) (otherUsername : String)
  | tree
  deriving DecidableEq

/-- Where an entry lives: a local notice, a message, the sender's card of a file share, and the
sender's hidden copy of the announced share. -/
inductive ChatMessageVisibility where
  | system
  | normal
  | senderDraft
  | senderMirror
  deriving DecidableEq

namespace ChatMessageVisibility

def includedInHistorySync : ChatMessageVisibility → Bool
  | normal | senderMirror => true
  | system | senderDraft => false

end ChatMessageVisibility

/-- `timestamp` is in nanoseconds since the Unix epoch. -/
structure ChatMessage where
  id : Bytes 16
  sender : String
  senderId : Option UserId
  text : String
  timestamp : Int
  kind : ChatMessageKind
  attachment : Option ChatAttachment
  visibility : ChatMessageVisibility
  deriving DecidableEq

namespace ChatMessage

/-- A direct message, sent or received. -/
def isDirect (m : ChatMessage) : Bool :=
  match m.kind with
  | .directMessage .. => true
  | .room | .tree => false

end ChatMessage

/-! ## History shares -/

structure ChatHistoryEntry where
  id : String
  sender : String
  senderId : Option UserId
  text : String
  timestamp : Nat
  attachment : Option ChatAttachment
  deriving DecidableEq

structure ChatHistoryContent where
  version : Nat
  messages : List ChatHistoryEntry
  deriving DecidableEq

/-- The texts of a room message that ask for a history or carry one, and the hexadecimal ids. -/
structure HistoryCodec where
  isRequest : String → Bool
  parseShare : String → Option ChatHistoryContent
  hexEncode : Bytes 16 → String
  hexDecode : String → Option (List UInt8)

namespace ChatHistoryContent

variable (codec : HistoryCodec)

/-- A time before the epoch counts as the epoch; milliseconds wrap at 64 bits. -/
def entry (m : ChatMessage) : ChatHistoryEntry where
  id := codec.hexEncode m.id
  sender := m.sender
  senderId := m.senderId
  text := m.text
  timestamp := (m.timestamp / 1000000).toNat % 2 ^ 64
  attachment := m.attachment

/-- The messages that history sync includes. -/
def shared (messages : List ChatMessage) : List ChatMessage :=
  messages.filter fun m => m.visibility.includedInHistorySync

def fromMessages (messages : List ChatMessage) : ChatHistoryContent where
  version := 1
  messages := (shared messages).map (entry codec)

/-- Every entry comes back as a room message. -/
def toMessages (content : ChatHistoryContent) : List ChatMessage :=
  content.messages.filterMap fun e =>
    ((codec.hexDecode e.id).bind (Bytes.ofList? 16)).map fun id =>
      { id := id
        sender := e.sender
        senderId := e.senderId
        text := e.text
        timestamp := e.timestamp * 1000000
        kind := .room
        attachment := e.attachment
        visibility := .normal }

end ChatHistoryContent

def shareHistoryMaxMessages : Nat := 500

/-- The window of a share. -/
def recent (log : List ChatMessage) : List ChatMessage :=
  log.drop (log.length - shareHistoryMaxMessages)

/-- The share sent for `ShareChatHistory`, when there is something to share. -/
def shareChatHistory (codec : HistoryCodec) (log : List ChatMessage) : Option ChatHistoryContent :=
  let content := ChatHistoryContent.fromMessages codec (recent log)
  if content.messages.isEmpty then none else some content

/-! ## The log -/

inductive ChatEvent where
  | messageAdded (msg : ChatMessage)
  | systemNotice (text : String)
  | senderDraftInserted (msg : ChatMessage)
  | senderMirrorInserted (msg : ChatMessage)
  | historyMerged (msgs : List ChatMessage)
  deriving DecidableEq

/-- The log, the ids it has seen, and how often it was rewritten. -/
structure ChatLog where
  messages : List ChatMessage
  ids : List (Bytes 16)
  epoch : Nat

namespace ChatLog

variable (l : ChatLog)

def push (m : ChatMessage) : ChatLog :=
  { l with messages := l.messages ++ [m], ids := m.id :: l.ids }

/-- A message whose id was seen is dropped. -/
def pushNew (m : ChatMessage) : ChatLog := if m.id ∈ l.ids then l else l.push m

/-- `newId` and `now` are what a notice draws. -/
def apply (newId : Bytes 16) (now : Int) : ChatEvent → ChatLog
  | .messageAdded msg => l.pushNew msg
  | .systemNotice text => l.push
      { id := newId, sender := "", senderId := none, text := text, timestamp := now, kind := .room
        attachment := none, visibility := .system }
  | .senderDraftInserted msg | .senderMirrorInserted msg => l.push msg
  | .historyMerged msgs =>
    let merged := msgs.foldl pushNew l
    if merged.messages.length = l.messages.length then l
    else { merged with
      messages := merged.messages.mergeSort fun a b => a.timestamp ≤ b.timestamp
      epoch := l.epoch + 1 }

/-- A connect starts a new log. -/
def clear : ChatLog := ⟨[], [], l.epoch + 1⟩

end ChatLog

/-! ## What fills it -/

/-- The connection task and the projection: whether there is a connection, the log, and the chat
events on their way to it. -/
structure ChatSys where
  connected : Bool
  myUserId : Option UserId
  clientName : String
  log : ChatLog
  queue : List ChatEvent

/-- A room or tree message as the server sends it on. -/
structure ChatBroadcast where
  id : Option (Bytes 16)
  sender : String
  senderId : UserId
  text : String
  timestampMs : Int
  tree : Option Bool
  attachment : Option ChatAttachment
  deriving DecidableEq

inductive ChatMove where
  | connect (clientName : String) (userId : UserId)
  /-- The projection applies `ConnectStarted`. -/
  | connectStarted
  | disconnect
  | sendChat (text : String)
  | sendTreeChat (text : String)
  | sendDirectMessage (targetUserId : UserId) (targetUsername text : String)
  | localMessage (text : String)
  /-- A share of a file starts, with the attachment the plugin made. -/
  | shareFile (attachment : ChatAttachment)
  /-- The share is announced after its upload. -/
  | shareAnnounced (id : Bytes 16) (sender : String) (timestamp : Int) (attachment : ChatAttachment)
  | chatBroadcast (cb : ChatBroadcast)
  | directMessageReceived (id : Option (Bytes 16)) (senderId : UserId) (senderName text : String)
      (timestampMs : Int)
  /-- The server sends a text that is shown as a notice. -/
  | notice (text : String)
  /-- The projection applies the next chat event. -/
  | drain
  deriving DecidableEq

namespace ChatSys

variable (codec : HistoryCodec) (c : ChatSys)

def new : ChatSys := ⟨false, none, "", ⟨[], [], 0⟩, []⟩

def send (e : ChatEvent) : ChatSys := { c with queue := c.queue ++ [e] }

/-- The local copy of an outgoing message. -/
def sendMessage (newId : Bytes 16) (now : Int) (kind : ChatMessageKind) (text : String) : ChatSys :=
  if c.connected then c.send (.messageAdded
    { id := newId, sender := c.clientName, senderId := c.myUserId, text := text, timestamp := now
      kind := kind, attachment := none, visibility := .normal })
  else c

/-- The time a message carries, or the time it arrives. -/
def arrival (now timestampMs : Int) : Int := if 0 < timestampMs then timestampMs * 1000000 else now

/-- A request is answered and not shown; a share is merged and not shown. -/
def receiveChat (newId : Bytes 16) (now : Int) (cb : ChatBroadcast) : ChatSys :=
  if codec.isRequest cb.text then c
  else match codec.parseShare cb.text with
    | some content =>
      let toAdd := (ChatHistoryContent.toMessages codec content).filter fun m =>
        m.id ∉ c.log.messages.map ChatMessage.id
      if toAdd.isEmpty then c else c.send (.historyMerged toAdd)
    | none => c.send (.messageAdded
      { id := cb.id.getD newId
        sender := cb.sender
        senderId := if cb.senderId ≠ 0 then some cb.senderId else none
        text := cb.text
        timestamp := arrival now cb.timestampMs
        kind := if cb.tree.getD false then .tree else .room
        attachment := cb.attachment
        visibility := .normal })

def receiveDirect (newId : Bytes 16) (now : Int) (id : Option (Bytes 16)) (senderId : UserId)
    (senderName text : String) (timestampMs : Int) : ChatSys :=
  c.send (.messageAdded
    { id := id.getD newId
      sender := senderName
      senderId := some senderId
      text := text
      timestamp := arrival now timestampMs
      kind := .directMessage senderId senderName
      attachment := none
      visibility := .normal })

/-- Each move draws an id and reads the clock. -/
def step (c : ChatSys) : (Bytes 16 × Int) × ChatMove → ChatSys
  | (_, .connect clientName userId) =>
    { c with connected := true, clientName := clientName, myUserId := some userId }
  | (_, .connectStarted) => { c with log := c.log.clear }
  | (_, .disconnect) => { c with connected := false, myUserId := none }
  | ((newId, now), .sendChat text) => c.sendMessage newId now .room text
  | ((newId, now), .sendTreeChat text) => c.sendMessage newId now .tree text
  | ((newId, now), .sendDirectMessage targetUserId targetUsername text) =>
    c.sendMessage newId now (.directMessage targetUserId targetUsername) text
  | (_, .localMessage text) => c.send (.systemNotice text)
  | ((newId, now), .shareFile attachment) => c.send (.senderDraftInserted
      { id := newId, sender := c.clientName, senderId := c.myUserId
        text := attachment.fallbackText, timestamp := now, kind := .room
        attachment := some attachment, visibility := .senderDraft })
  | (_, .shareAnnounced id sender timestamp attachment) => c.send (.senderMirrorInserted
      { id := id, sender := sender, senderId := none, text := attachment.fallbackText
        timestamp := timestamp, kind := .room, attachment := some attachment
        visibility := .senderMirror })
  | ((newId, now), .chatBroadcast cb) => c.receiveChat codec newId now cb
  | ((newId, now), .directMessageReceived id senderId senderName text timestampMs) =>
    c.receiveDirect newId now id senderId senderName text timestampMs
  | (_, .notice text) => c.send (.systemNotice text)
  | ((newId, now), .drain) =>
    match c.queue with
    | [] => c
    | e :: rest => { c with log := c.log.apply newId now e, queue := rest }

def run (c : ChatSys) (moves : List ((Bytes 16 × Int) × ChatMove)) : ChatSys :=
  moves.foldl (step codec) c

end ChatSys

/-! ## The property -/

/-- What a log shares has no direct message in it. -/
def SharesNoDirect (log : List ChatMessage) : Prop :=
  ∀ m ∈ ChatHistoryContent.shared (recent log), m.isDirect = false

instance (log : List ChatMessage) : Decidable (SharesNoDirect log) :=
  inferInstanceAs (Decidable (∀ m ∈ _, _))

/-- The messages that are neither direct nor notices. -/
def ordinary (log : List ChatMessage) : List ChatMessage :=
  log.filter fun m => !m.isDirect && m.visibility ≠ .system

/-- Neither log shares a direct message, and logs within the window that differ only in direct
messages and notices share the same. -/
structure Confidential (codec : HistoryCodec) (log log' : List ChatMessage) : Prop where
  left : SharesNoDirect log
  right : SharesNoDirect log'
  same : log.length ≤ shareHistoryMaxMessages → log'.length ≤ shareHistoryMaxMessages →
    ordinary log = ordinary log' → shareChatHistory codec log = shareChatHistory codec log'

/-! ## Reachable logs -/

/-- A direct message is an ordinary entry, wherever it came from. -/
def ChatMessage.Plain (m : ChatMessage) : Prop := m.isDirect = true → m.visibility = .normal

def ChatEvent.Plain : ChatEvent → Prop
  | .messageAdded msg | .senderDraftInserted msg | .senderMirrorInserted msg => msg.Plain
  | .systemNotice _ => True
  | .historyMerged msgs => ∀ m ∈ msgs, m.Plain

section Reachable

variable {codec : HistoryCodec} {l : ChatLog} {c : ChatSys}

theorem plain_of_not_direct {m : ChatMessage} (h : m.isDirect = false) : m.Plain := fun hd =>
  absurd (h.symm.trans hd) Bool.false_ne_true

theorem plain_of_normal {m : ChatMessage} (h : m.visibility = .normal) : m.Plain := fun _ => h

theorem plain_push {m : ChatMessage} (h : ∀ m ∈ l.messages, m.Plain) (hm : m.Plain) :
    ∀ x ∈ (l.push m).messages, x.Plain := by
  intro x hx
  rcases List.mem_append.mp hx with hx | hx
  · exact h x hx
  · obtain rfl := List.mem_singleton.mp hx
    exact hm

theorem plain_pushNew {m : ChatMessage} (h : ∀ m ∈ l.messages, m.Plain) (hm : m.Plain) :
    ∀ x ∈ (l.pushNew m).messages, x.Plain := by
  unfold ChatLog.pushNew
  split
  · exact h
  · exact plain_push h hm

theorem plain_foldl_pushNew {msgs : List ChatMessage} (h : ∀ m ∈ l.messages, m.Plain)
    (hmsgs : ∀ m ∈ msgs, m.Plain) : ∀ x ∈ (msgs.foldl ChatLog.pushNew l).messages, x.Plain := by
  induction msgs generalizing l with
  | nil => exact h
  | cons m msgs ih =>
    exact ih (plain_pushNew h (hmsgs m List.mem_cons_self)) fun x hx =>
      hmsgs x (List.mem_cons_of_mem m hx)

theorem plain_apply {e : ChatEvent} (newId : Bytes 16) (now : Int)
    (h : ∀ m ∈ l.messages, m.Plain) (he : e.Plain) :
    ∀ x ∈ (l.apply newId now e).messages, x.Plain := by
  cases e with
  | messageAdded msg => exact plain_pushNew h he
  | systemNotice text => exact plain_push h (plain_of_not_direct rfl)
  | senderDraftInserted msg => exact plain_push h he
  | senderMirrorInserted msg => exact plain_push h he
  | historyMerged msgs =>
    unfold ChatLog.apply
    dsimp only
    split
    · exact h
    · intro x hx
      exact plain_foldl_pushNew h he x (List.mem_mergeSort.mp hx)

/-- What is merged from a peer's share comes back as room messages. -/
theorem isDirect_toMessages {content : ChatHistoryContent} :
    ∀ m ∈ content.toMessages codec, m.isDirect = false := by
  intro m hm
  obtain ⟨e, -, he⟩ := List.mem_filterMap.mp hm
  obtain ⟨id, -, rfl⟩ := Option.map_eq_some_iff.mp he
  rfl

/-- The invariant of the log and of the events on their way. -/
structure PlainChat (c : ChatSys) : Prop where
  log : ∀ m ∈ c.log.messages, m.Plain
  queue : ∀ e ∈ c.queue, e.Plain

theorem PlainChat.send (h : PlainChat c) {e : ChatEvent} (he : e.Plain) : PlainChat (c.send e) := by
  refine ⟨h.log, fun x hx => ?_⟩
  rcases List.mem_append.mp hx with hx | hx
  · exact h.queue x hx
  · obtain rfl := List.mem_singleton.mp hx
    exact he

theorem PlainChat.sendMessage (h : PlainChat c) (newId : Bytes 16) (now : Int)
    (kind : ChatMessageKind) (text : String) : PlainChat (c.sendMessage newId now kind text) := by
  unfold ChatSys.sendMessage
  split
  · exact h.send (plain_of_normal rfl)
  · exact h

theorem PlainChat.receiveChat (h : PlainChat c) (newId : Bytes 16) (now : Int)
    (cb : ChatBroadcast) : PlainChat (c.receiveChat codec newId now cb) := by
  unfold ChatSys.receiveChat
  split
  · exact h
  split
  · dsimp only
    split
    · exact h
    · refine h.send fun m hm => plain_of_not_direct ?_
      exact isDirect_toMessages m (List.mem_of_mem_filter hm)
  · exact h.send (plain_of_normal rfl)

theorem PlainChat.step (h : PlainChat c) (m : (Bytes 16 × Int) × ChatMove) :
    PlainChat (ChatSys.step codec c m) := by
  obtain ⟨⟨newId, now⟩, move⟩ := m
  cases move with
  | connect => exact ⟨h.log, h.queue⟩
  | connectStarted => exact ⟨fun m hm => absurd hm (List.not_mem_nil), h.queue⟩
  | disconnect => exact ⟨h.log, h.queue⟩
  | sendChat | sendTreeChat | sendDirectMessage => exact h.sendMessage newId now _ _
  | localMessage | notice => exact h.send trivial
  | shareFile | shareAnnounced => exact h.send (plain_of_not_direct rfl)
  | chatBroadcast cb => exact h.receiveChat newId now cb
  | directMessageReceived => exact h.send (plain_of_normal rfl)
  | drain =>
    unfold ChatSys.step
    dsimp only
    split
    · exact h
    · rename_i e rest hq
      have hqueue := h.queue
      rw [hq] at hqueue
      exact ⟨plain_apply newId now h.log (hqueue e List.mem_cons_self),
        fun x hx => hqueue x (List.mem_cons_of_mem e hx)⟩

theorem plainChat_run (codec : HistoryCodec) (moves : List ((Bytes 16 × Int) × ChatMove)) :
    PlainChat (ChatSys.new.run codec moves) := by
  have hrun : ∀ c, PlainChat c → PlainChat (c.run codec moves) := by
    induction moves with
    | nil => exact fun c h => h
    | cons m moves ih => exact fun c h => ih _ (h.step m)
  exact hrun _ ⟨fun _ h => absurd h List.not_mem_nil, fun _ h => absurd h List.not_mem_nil⟩

end Reachable

/-! ## When a share is confidential -/

/-- A share leaves out no direct message of its window. -/
theorem sharesNoDirect_iff {log : List ChatMessage} (h : ∀ m ∈ log, m.Plain) :
    SharesNoDirect log ↔ ∀ m ∈ recent log, m.isDirect = false := by
  constructor
  · intro hshare m hm
    by_contra hd
    have hdirect : m.isDirect = true := by simpa using hd
    have hincluded : m.visibility.includedInHistorySync = true := by
      rw [h m (List.mem_of_mem_drop hm) hdirect]
      rfl
    have hnot := hshare m (List.mem_filter.mpr ⟨hm, hincluded⟩)
    exact Bool.false_ne_true (hnot.symm.trans hdirect)
  · intro hall m hm
    rw [ChatHistoryContent.shared] at hm
    exact hall m (List.mem_filter.mp hm).1

theorem recent_eq {log : List ChatMessage} (h : log.length ≤ shareHistoryMaxMessages) :
    recent log = log := by
  rw [recent, Nat.sub_eq_zero_of_le h, List.drop_zero]

/-- What a log without direct messages shares depends on its ordinary messages. -/
theorem shared_eq_ordinary {log : List ChatMessage} (h : ∀ m ∈ log, m.isDirect = false) :
    ChatHistoryContent.shared log = ChatHistoryContent.shared (ordinary log) := by
  unfold ChatHistoryContent.shared ordinary
  rw [List.filter_filter]
  refine List.filter_congr fun m hm => ?_
  rw [h m hm]
  cases m.visibility <;> rfl

/-- **A share is confidential exactly when its window holds no direct message**, for any two logs
that a client can reach. -/
theorem confidential_iff (codec : HistoryCodec) (moves moves' : List ((Bytes 16 × Int) × ChatMove)) :
    let log := (ChatSys.new.run codec moves).log.messages
    let log' := (ChatSys.new.run codec moves').log.messages
    Confidential codec log log' ↔
      (∀ m ∈ recent log, m.isDirect = false) ∧ ∀ m ∈ recent log', m.isDirect = false := by
  intro log log'
  have hlog := sharesNoDirect_iff (plainChat_run codec moves).log
  have hlog' := sharesNoDirect_iff (plainChat_run codec moves').log
  refine ⟨fun h => ⟨hlog.mp h.left, hlog'.mp h.right⟩, fun ⟨hnone, hnone'⟩ =>
    ⟨hlog.mpr hnone, hlog'.mpr hnone', fun hlen hlen' hsame => ?_⟩⟩
  rw [recent_eq hlen] at hnone
  rw [recent_eq hlen'] at hnone'
  have hcontent : ChatHistoryContent.fromMessages codec (recent log) =
      ChatHistoryContent.fromMessages codec (recent log') := by
    unfold ChatHistoryContent.fromMessages
    rw [recent_eq hlen, recent_eq hlen', shared_eq_ordinary hnone, shared_eq_ordinary hnone', hsame]
  unfold shareChatHistory
  rw [hcontent]

/-! ## A run -/

def sampleCodec : HistoryCodec where
  isRequest text := text == "history?"
  parseShare _ := none
  hexEncode _ := ""
  hexDecode _ := none

/-- bob connects and tells eve a secret. -/
def sampleSecret : List ((Bytes 16 × Int) × ChatMove) :=
  [.connect "bob" 1, .sendDirectMessage 2 "eve" "secret", .drain].map
    fun m => ((Bytes.rep 16 1, 0), m)

/-- **A private message is shared** with everyone in the room. -/
theorem not_confidential :
    ¬ Confidential sampleCodec (ChatSys.new.run sampleCodec sampleSecret).log.messages
      (ChatSys.new.run sampleCodec []).log.messages := by
  intro h
  have hshare := h.left
  revert hshare
  decide +kernel

end Rumble.Client
