import Rumble.Client.ChatLog

/-!
# The rows of the chat history

`ChatHistory` of `rumble-damascene/src/chat.rs`, the rows that the chat panel keeps between frames.
`sync` extends them when the epoch of the log is the one it saw last and rebuilds them otherwise;
`rows_eq_rebuild` says that they are those of a rebuild whenever a frame is drawn. The decoding of a
relay payload is a parameter.
-/

namespace Rumble.Client.ChatMessageVisibility

def rendersLocally : ChatMessageVisibility → Bool
  | senderMirror => false
  | system | normal | senderDraft => true

def isSystem : ChatMessageVisibility → Bool
  | system => true
  | normal | senderDraft | senderMirror => false

end Rumble.Client.ChatMessageVisibility

namespace Rumble.Damascene

open Rumble.Lib Rumble.Client

/-! ## Rows -/

structure RelayFileSharePayload where
  transferId : String
  name : String
  size : Nat
  mime : String
  shareData : String
  deriving DecidableEq

inductive RowAttachment where
  | relay (offer : RelayFileSharePayload)
  | unknown (fallbackText : String)
  deriving DecidableEq

def fileTransferRelayNamespace : String := "rumble.file_transfer.relay"

/-- `decode_relay_payload` -/
abbrev DecodeRelayPayload := List UInt8 → Option RelayFileSharePayload

def RowAttachment.fromAttachment (decode : DecodeRelayPayload) (att : ChatAttachment) :
    RowAttachment :=
  if att.nspace ≠ fileTransferRelayNamespace then .unknown att.fallbackText
  else match decode att.payload with
    | some offer => .relay offer
    | none => .unknown att.fallbackText

/-- `u128::from_le_bytes` -/
def fromLeBytes (bytes : Bytes 16) : Nat := bytes.data.foldr (fun b acc => b.toNat + 256 * acc) 0

structure ChatRow where
  text : String
  sender : String
  kind : ChatMessageKind
  timestamp : Int
  msgKey : Nat
  isOwn : Bool
  isSystem : Bool
  attachment : Option RowAttachment
  deriving DecidableEq

/-- The user id decides whether a message is one's own where both ids are known. -/
def ChatRow.fromMsg (decode : DecodeRelayPayload) (msg : ChatMessage) (myUserId : Option UserId)
    (ownUsername : String) : ChatRow :=
  let isSystem := msg.visibility.isSystem
  let isOwn := if isSystem then false
    else match myUserId, msg.senderId with
      | some mine, some theirs => mine == theirs
      | _, _ => msg.senderId.isNone && msg.sender == ownUsername
  { text := msg.text
    sender := msg.sender
    kind := msg.kind
    timestamp := msg.timestamp
    msgKey := fromLeBytes msg.id
    isOwn := isOwn
    isSystem := isSystem
    attachment := msg.attachment.map (RowAttachment.fromAttachment decode) }

/-- The rows of messages: those that are drawn, converted. -/
def rebuild (decode : DecodeRelayPayload) (msgs : List ChatMessage) (myUserId : Option UserId)
    (ownUsername : String) : List ChatRow :=
  (msgs.filter fun m => m.visibility.rendersLocally).map fun m =>
    ChatRow.fromMsg decode m myUserId ownUsername

/-! ## The cache -/

/-- `rawLen` messages have been looked at; fewer may have a row. -/
structure ChatHistory where
  epoch : Nat
  rawLen : Nat
  myUserId : Option UserId
  ownUsername : String
  rows : List ChatRow
  deriving DecidableEq

namespace ChatHistory

/-- `ChatHistory::default` -/
def default : ChatHistory :=
  { epoch := 0, rawLen := 0, myUserId := none, ownUsername := "", rows := [] }

def sync (decode : DecodeRelayPayload) (history : ChatHistory) (log : ChatLog)
    (myUserId : Option UserId) (ownUsername : String) : ChatHistory :=
  let msgs := log.messages
  let appendable := log.epoch = history.epoch ∧ history.rawLen ≤ msgs.length ∧
    myUserId = history.myUserId ∧ ownUsername = history.ownUsername
  if appendable then
    if msgs.length > history.rawLen then
      { history with
        rows := history.rows ++ rebuild decode (msgs.drop history.rawLen) myUserId ownUsername
        rawLen := msgs.length }
    else history
  else
    { epoch := log.epoch
      rawLen := msgs.length
      myUserId := myUserId
      ownUsername := ownUsername
      rows := rebuild decode msgs myUserId ownUsername }

end ChatHistory

/-! ## Runs -/

/-- The log and the cache. -/
structure Panel where
  log : ChatLog
  history : ChatHistory

/-- A chat or connection event, or a frame drawn for a user. -/
inductive PanelEvent where
  | log (e : LogEvent)
  | frame (myUserId : Option UserId) (ownUsername : String)
  deriving DecidableEq

namespace Panel

def new : Panel := ⟨.empty, .default⟩

def step (decode : DecodeRelayPayload) (p : Panel) : PanelEvent → Panel
  | .log e => { p with log := p.log.step e }
  | .frame myUserId ownUsername => { p with history := p.history.sync decode p.log myUserId ownUsername }

def run (decode : DecodeRelayPayload) (events : List PanelEvent) : Panel :=
  events.foldl (step decode) new

end Panel

/-! ## The epoch discipline -/

/-- An event extends the log or starts a new epoch. -/
theorem step_extends (l : ChatLog) (e : LogEvent) :
    ((l.step e).epoch = l.epoch ∧ l.messages <+: (l.step e).messages) ∨
      l.epoch < (l.step e).epoch := by
  cases e with
  | connectStarted => exact .inr (Nat.lt_succ_self l.epoch)
  | chat newId now e =>
    cases e with
    | messageAdded msg =>
      refine .inl ?_
      show (l.pushNew msg).epoch = l.epoch ∧ l.messages <+: (l.pushNew msg).messages
      unfold ChatLog.pushNew
      split
      · exact ⟨rfl, List.prefix_refl _⟩
      · exact ⟨rfl, List.prefix_append _ _⟩
    | systemNotice | senderDraftInserted | senderMirrorInserted =>
      exact .inl ⟨rfl, List.prefix_append _ _⟩
    | historyMerged msgs =>
      show ((l.apply newId now (.historyMerged msgs)).epoch = l.epoch ∧ _) ∨
        l.epoch < (l.apply newId now (.historyMerged msgs)).epoch
      simp only [ChatLog.step, ChatLog.apply]
      split
      · exact .inl ⟨rfl, List.prefix_refl _⟩
      · exact .inr (Nat.lt_succ_self l.epoch)

section Cache

variable (decode : DecodeRelayPayload)

theorem rebuild_append (msgs msgs' : List ChatMessage) (myUserId : Option UserId)
    (ownUsername : String) : rebuild decode (msgs ++ msgs') myUserId ownUsername =
      rebuild decode msgs myUserId ownUsername ++ rebuild decode msgs' myUserId ownUsername := by
  simp [rebuild]

/-- While the epoch stays, the rows are those of the messages that the cache has looked at. -/
structure Cached (log : ChatLog) (history : ChatHistory) : Prop where
  epoch_le : history.epoch ≤ log.epoch
  rows : history.epoch = log.epoch → history.rawLen ≤ log.messages.length ∧
    history.rows = rebuild decode (log.messages.take history.rawLen) history.myUserId
      history.ownUsername

namespace Cached

variable {decode} {log : ChatLog} {history : ChatHistory}

theorem step (h : Cached decode log history) (e : LogEvent) : Cached decode (log.step e) history := by
  rcases step_extends log e with ⟨hepoch, added, hadded⟩ | hepoch
  · refine ⟨h.epoch_le.trans hepoch.ge, fun hsame => ?_⟩
    obtain ⟨hlen, hrows⟩ := h.rows (hsame.trans hepoch)
    rw [← hadded, List.length_append, List.take_append_of_le_length hlen]
    exact ⟨by omega, hrows⟩
  · exact ⟨h.epoch_le.trans hepoch.le, fun hsame =>
      absurd (hsame ▸ h.epoch_le) (Nat.not_le_of_lt hepoch)⟩

/-- A frame leaves the rows of a rebuild. -/
theorem sync (h : Cached decode log history) (myUserId : Option UserId) (ownUsername : String) :
    (history.sync decode log myUserId ownUsername).rows =
        rebuild decode log.messages myUserId ownUsername ∧
      Cached decode log (history.sync decode log myUserId ownUsername) := by
  unfold ChatHistory.sync
  dsimp only
  split
  · rename_i happend
    obtain ⟨hepoch, hlen, rfl, rfl⟩ := happend
    obtain ⟨-, hrows⟩ := h.rows hepoch.symm
    split
    · rename_i hlonger
      have hall : history.rows ++ rebuild decode (log.messages.drop history.rawLen) history.myUserId
          history.ownUsername = rebuild decode log.messages history.myUserId history.ownUsername := by
        rw [hrows, ← rebuild_append, List.take_append_drop]
      refine ⟨hall, hepoch.ge, fun _ => ⟨le_rfl, ?_⟩⟩
      rw [List.take_length]
      exact hall
    · rename_i hnot
      have hfull : history.rawLen = log.messages.length := by omega
      rw [hfull, List.take_length] at hrows
      exact ⟨hrows, h⟩
  · refine ⟨rfl, le_rfl, fun _ => ⟨le_rfl, ?_⟩⟩
    rw [List.take_length]

end Cached

theorem cached_step {p : Panel} (h : Cached decode p.log p.history) (e : PanelEvent) :
    Cached decode (p.step decode e).log (p.step decode e).history := by
  cases e with
  | log e => exact h.step e
  | frame myUserId ownUsername => exact (h.sync myUserId ownUsername).2

theorem cached_run (events : List PanelEvent) :
    Cached decode (Panel.run decode events).log (Panel.run decode events).history := by
  have hrun : ∀ p : Panel, Cached decode p.log p.history →
      Cached decode (events.foldl (Panel.step decode) p).log
        (events.foldl (Panel.step decode) p).history := by
    induction events with
    | nil => exact fun p h => h
    | cons e events ih => exact fun p h => ih _ (cached_step decode h e)
  exact hrun .new ⟨le_rfl, fun _ => ⟨le_rfl, rfl⟩⟩

/-- **The rows of a frame are those of a rebuild** with the identity of the frame, after every run of
events and frames. -/
theorem rows_eq_rebuild (events : List PanelEvent) (myUserId : Option UserId)
    (ownUsername : String) :
    (Panel.run decode (events ++ [.frame myUserId ownUsername])).history.rows =
      rebuild decode (Panel.run decode events).log.messages myUserId ownUsername := by
  rw [Panel.run, List.foldl_append]
  exact ((cached_run decode events).sync myUserId ownUsername).1

end Cache

end Rumble.Damascene
