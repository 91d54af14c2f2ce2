import Rumble.Client.Chat
import Rumble.Lib.Keyed

/-!
# Runs of the chat log

`apply_chat` and the `ConnectStarted` case of `apply_connection` (`rumble-client/src/projection.rs`)
over runs of events: what the id set is, which messages may share an id, what is kept and how a
merge leaves the log.
-/

namespace Rumble.Client

open Rumble.Lib Transition

/-! ## Events -/

/-- What reaches the log; `newId` and `now` are what a notice draws. -/
inductive LogEvent where
  | chat (newId : Bytes 16) (now : Int) (e : ChatEvent)
  | connectStarted
  deriving DecidableEq

namespace ChatLog

def empty : ChatLog := ⟨[], [], 0⟩

def step (l : ChatLog) : LogEvent → ChatLog
  | .chat newId now e => l.apply newId now e
  | .connectStarted => l.clear

def run (events : List LogEvent) : ChatLog := events.foldl step empty

/-- `Uuid::new_v4` draws an id that is not in use. -/
def DrawsFresh (l : ChatLog) : LogEvent → Prop
  | .chat newId _ (.systemNotice _) => newId ∉ l.ids
  | _ => True

end ChatLog

/-! ## Arrivals -/

/-- A message in the order in which the log took it, and whether as the draft or the mirror of a
share. -/
structure Arrival where
  message : ChatMessage
  twin : Bool
  deriving DecidableEq

/-- The drafts and mirrors among the arrivals. -/
def twinsOf (arrivals : List Arrival) : List ChatMessage :=
  (arrivals.filter Arrival.twin).map Arrival.message

/-- The drafts and mirrors inserted since the last connect. -/
def twinsSince (events : List LogEvent) : List ChatMessage :=
  events.foldl (fun twins e => match e with
    | .chat _ _ (.senderDraftInserted msg) | .chat _ _ (.senderMirrorInserted msg) => twins ++ [msg]
    | .chat .. => twins
    | .connectStarted => []) []

/-- The messages of the log are the arrivals, the ids theirs, and only a draft or a mirror arrives
under an id that is there. -/
structure Arrived (l : ChatLog) (arrivals : List Arrival) : Prop where
  perm : l.messages.Perm (arrivals.map Arrival.message)
  ids : ∀ id, id ∈ l.ids ↔ id ∈ arrivals.map fun a => a.message.id
  apart : arrivals.Pairwise fun a b => b.twin = false → a.message.id ≠ b.message.id

namespace Arrived

variable {l : ChatLog} {arrivals : List Arrival}

theorem empty {l : ChatLog} (hmessages : l.messages = []) (hids : l.ids = []) : Arrived l [] := by
  refine ⟨?_, ?_, .nil⟩
  · rw [hmessages]
    rfl
  · simp [hids]

theorem push (h : Arrived l arrivals) (m : ChatMessage) (twin : Bool)
    (hnew : twin = false → m.id ∉ l.ids) : Arrived (l.push m) (arrivals ++ [⟨m, twin⟩]) := by
  refine ⟨?_, fun id => ?_, ?_⟩
  · rw [List.map_append]
    exact h.perm.append_right [m]
  · have hids := h.ids id
    simp only [ChatLog.push, List.mem_cons, List.map_append, List.mem_append, List.map_singleton, hids]
    tauto
  · rw [List.pairwise_append]
    refine ⟨h.apart, List.pairwise_singleton _ _, fun a ha b hb htwin heq => ?_⟩
    obtain rfl := List.mem_singleton.mp hb
    apply hnew htwin
    rw [h.ids, ← heq]
    exact List.mem_map_of_mem (f := fun a => a.message.id) ha

/-- What the log takes only under a new id. -/
theorem pushNew (h : Arrived l arrivals) (m : ChatMessage) :
    ∃ arrivals', Arrived (l.pushNew m) arrivals' ∧ twinsOf arrivals' = twinsOf arrivals := by
  unfold ChatLog.pushNew
  split
  · exact ⟨arrivals, h, rfl⟩
  · rename_i hnew
    exact ⟨_, h.push m false fun _ => hnew, by simp [twinsOf]⟩

theorem foldl_pushNew (h : Arrived l arrivals) (msgs : List ChatMessage) :
    ∃ arrivals', Arrived (msgs.foldl ChatLog.pushNew l) arrivals' ∧
      twinsOf arrivals' = twinsOf arrivals := by
  induction msgs generalizing l arrivals with
  | nil => exact ⟨arrivals, h, rfl⟩
  | cons m msgs ih =>
    obtain ⟨arrivals', h', htwins⟩ := h.pushNew m
    obtain ⟨arrivals'', h'', htwins'⟩ := ih h'
    exact ⟨arrivals'', h'', htwins'.trans htwins⟩

/-- A merge sorts what it has taken. -/
theorem merge (h : Arrived l arrivals) (newId : Bytes 16) (now : Int) (msgs : List ChatMessage) :
    ∃ arrivals', Arrived (l.apply newId now (.historyMerged msgs)) arrivals' ∧
      twinsOf arrivals' = twinsOf arrivals := by
  obtain ⟨arrivals', h', htwins⟩ := h.foldl_pushNew msgs
  simp only [ChatLog.apply]
  split
  · exact ⟨arrivals, h, rfl⟩
  · exact ⟨arrivals', ⟨(List.mergeSort_perm _ _).trans h'.perm, h'.ids, h'.apart⟩, htwins⟩

theorem twinsOf_concat (a : Arrival) :
    twinsOf (arrivals ++ [a]) = if a.twin then twinsOf arrivals ++ [a.message] else twinsOf arrivals := by
  unfold twinsOf
  cases htwin : a.twin <;> simp [htwin]

/-- One case for each event: what dedups, what does not, and the connect. -/
theorem step (h : Arrived l (arrivals : List Arrival)) {events : List LogEvent}
    (htwins : twinsOf arrivals = twinsSince events) {e : LogEvent} (hfresh : l.DrawsFresh e) :
    ∃ arrivals', Arrived (l.step e) arrivals' ∧
      twinsOf arrivals' = twinsSince (events ++ [e]) := by
  simp only [twinsSince, List.foldl_append, List.foldl_cons, List.foldl_nil] at htwins ⊢
  cases e with
  | connectStarted => exact ⟨[], .empty rfl rfl, rfl⟩
  | chat newId now e =>
    cases e with
    | messageAdded msg =>
      obtain ⟨arrivals', h', htwins'⟩ := h.pushNew msg
      exact ⟨arrivals', h', htwins'.trans htwins⟩
    | systemNotice text =>
      exact ⟨_, h.push _ false fun _ => hfresh, (twinsOf_concat _).trans htwins⟩
    | senderDraftInserted msg | senderMirrorInserted msg =>
      refine ⟨_, h.push msg true fun htwin => absurd htwin (by decide), ?_⟩
      rw [twinsOf_concat, if_pos rfl, htwins]
    | historyMerged msgs =>
      obtain ⟨arrivals', h', htwins'⟩ := h.merge newId now msgs
      exact ⟨arrivals', h', htwins'.trans htwins⟩

/-- A run, by the events from the first to the last. -/
theorem run {events : List LogEvent} (hfresh : Always ChatLog.step ChatLog.DrawsFresh .empty events) :
    ∃ arrivals, Arrived (ChatLog.run events) arrivals ∧ twinsOf arrivals = twinsSince events := by
  induction events using List.reverseRecOn with
  | nil => exact ⟨[], .empty rfl rfl, rfl⟩
  | append_singleton events e ih =>
    obtain ⟨hbefore, hlast⟩ := always_append.mp hfresh
    obtain ⟨arrivals, h, htwins⟩ := ih hbefore
    have hrun : ChatLog.run (events ++ [e]) = (ChatLog.run events).step e := by
      rw [ChatLog.run, List.foldl_append]
      rfl
    rw [hrun]
    exact h.step htwins hlast.1

end Arrived

/-! ## What is kept -/

namespace ChatLog

variable (l : ChatLog)

/-- What a merge takes from its messages. -/
theorem foldl_pushNew_messages (msgs : List ChatMessage) :
    ∃ added, added.Sublist msgs ∧ (msgs.foldl pushNew l).messages = l.messages ++ added ∧
      ((∃ m ∈ msgs, m.id ∉ l.ids) → added ≠ []) := by
  induction msgs generalizing l with
  | nil => exact ⟨[], .slnil, (List.append_nil _).symm, fun ⟨m, hm, _⟩ => absurd hm List.not_mem_nil⟩
  | cons msg msgs ih =>
    obtain ⟨added, hsub, heq, hnew⟩ := ih (l.pushNew msg)
    rw [List.foldl_cons, heq]
    by_cases hid : msg.id ∈ l.ids
    · have hsame : l.pushNew msg = l := if_pos hid
      rw [hsame] at hnew ⊢
      refine ⟨added, hsub.cons msg, rfl, fun ⟨m, hm, hmid⟩ => hnew ⟨m, ?_, hmid⟩⟩
      rcases List.mem_cons.mp hm with rfl | hm
      · exact absurd hid hmid
      · exact hm
    · have hpush : l.pushNew msg = l.push msg := if_neg hid
      rw [hpush]
      refine ⟨msg :: added, hsub.cons_cons msg, ?_, fun _ => List.cons_ne_nil _ _⟩
      simp [push]

theorem sublist_pushNew (m : ChatMessage) : l.messages.Sublist (l.pushNew m).messages := by
  unfold pushNew
  split
  · exact .refl _
  · exact List.sublist_append_left _ _

/-- Only a connect takes messages away. -/
theorem subperm_step {e : LogEvent} (he : e ≠ .connectStarted) :
    l.messages.Subperm (l.step e).messages := by
  cases e with
  | connectStarted => exact absurd rfl he
  | chat newId now e =>
    cases e with
    | messageAdded msg => exact (l.sublist_pushNew msg).subperm
    | systemNotice | senderDraftInserted | senderMirrorInserted =>
      exact (List.sublist_append_left _ _).subperm
    | historyMerged msgs =>
      obtain ⟨added, -, heq, -⟩ := l.foldl_pushNew_messages msgs
      show l.messages.Subperm (l.apply newId now (.historyMerged msgs)).messages
      simp only [apply]
      split
      · exact .refl _
      · rw [heq]
        exact (List.sublist_append_left _ _).subperm.trans (List.mergeSort_perm _ _).symm.subperm

theorem subperm_foldl {events : List LogEvent} (h : .connectStarted ∉ events) :
    l.messages.Subperm (events.foldl step l).messages := by
  induction events generalizing l with
  | nil => exact .refl _
  | cons e events ih =>
    rw [List.mem_cons, not_or] at h
    exact (l.subperm_step (Ne.symm h.1)).trans (ih (l.step e) h.2)

end ChatLog

/-- The log after a merge that added something: sorted by time, and messages of one time in the
order that they had, the new ones last. -/
structure MergedStably (old added merged : List ChatMessage) : Prop where
  perm : merged.Perm (old ++ added)
  sorted : merged.Pairwise fun a b => a.timestamp ≤ b.timestamp
  stable : ∀ t, merged.filter (fun m => m.timestamp = t) =
    (old ++ added).filter fun m => m.timestamp = t

theorem ChatLog.merge_stable (l : ChatLog) (newId : Bytes 16) (now : Int) {msgs : List ChatMessage}
    (hnew : ∃ m ∈ msgs, m.id ∉ l.ids) : ∃ added, added ≠ [] ∧ added.Sublist msgs ∧
      MergedStably l.messages added (l.apply newId now (.historyMerged msgs)).messages := by
  obtain ⟨added, hsub, heq, hadded⟩ := l.foldl_pushNew_messages msgs
  refine ⟨added, hadded hnew, hsub, ?_⟩
  have hlen : ¬ (msgs.foldl pushNew l).messages.length = l.messages.length := by
    have hpos := List.length_pos_of_ne_nil (hadded hnew)
    rw [heq, List.length_append]
    omega
  simp only [apply]
  rw [if_neg hlen]
  dsimp only
  rw [heq]
  exact ⟨List.mergeSort_perm _ _, pairwise_mergeSort_key ChatMessage.timestamp _,
    filter_mergeSort_key ChatMessage.timestamp _⟩

/-- A message under the id 1. -/
def sampleMessage (visibility : ChatMessageVisibility) : ChatMessage where
  id := Bytes.rep 16 1
  sender := "alice"
  senderId := some 1
  text := "notes.txt"
  timestamp := 0
  kind := .room
  attachment := none
  visibility := visibility

def sampleShare : List LogEvent :=
  [.chat (Bytes.rep 16 2) 5 (.systemNotice "joined"),
    .chat (Bytes.rep 16 3) 6 (.senderDraftInserted (sampleMessage .senderDraft)),
    .chat (Bytes.rep 16 4) 7 (.senderMirrorInserted (sampleMessage .senderMirror)),
    .chat (Bytes.rep 16 5) 8 (.messageAdded (sampleMessage .normal))]

end Rumble.Client
