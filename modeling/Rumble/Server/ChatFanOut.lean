import Rumble.Server.Subtree
import Rumble.Server.VoiceRouting

/-!
# Chat fan-out

`broadcast_chat_in_room` of `server/src/handlers.rs` and the messages that lead to it. A message
into a room, or into a room and its subtree, goes once to every connection that hosts a member
there, however many members it hosts, and never to the connection of its author.
-/

namespace Rumble.Server

open Rumble.Lib World

/-! ## Who is to get a message -/

/-- A message into `room` is meant for the room `u`: the room itself, or its subtree. -/
def TargetRoom (rooms : List Room) (room : Uuid) (tree : Bool) (u : Uuid) : Prop :=
  if tree then ChainReaches rooms room u else u = room

/-- The stream a chat message was sent on. -/
def Out.chatTarget : Out → Option HandleId
  | .send target (.chatBroadcast ..) => some target
  | _ => none

/-- The streams that got a chat message, once for each frame. -/
def chatTargets (sent : List Out) : List HandleId := sent.filterMap Out.chatTarget

/-- The message of `author` went once to the control stream of each connection that hosts a member
of a target room and does not host the author. -/
structure FansOut (s : ServerState) (author : UserId) (room : Uuid) (tree : Bool)
    (targets : List HandleId) : Prop where
  once : targets.Nodup
  exact : ∀ h, h ∈ targets ↔ h = primary h.user ∧ ¬ s.Hosts h.user author ∧
    ∃ m ∈ s.data.memberships, TargetRoom s.data.rooms room tree m.2 ∧ s.Hosts h.user m.1

/-- The author is a member that may post into the room. -/
def MayPost (w : World) (author : UserId) (room : Uuid) : Prop :=
  ∃ member, w.state.getMember author = some member ∧
    (evaluateMemberPermissions w.state w.store author member room).contains
      Permissions.textMessage = true

/-- What a message sends: all that it should when the author may post, else no chat message. -/
structure Delivers (w w' : World) (author : UserId) (room : Uuid) (tree : Bool) : Prop where
  log : ∃ sent, w'.log = w.log ++ sent ∧
    (MayPost w author room → FansOut w.state author room tree (chatTargets sent)) ∧
    (¬ MayPost w author room → chatTargets sent = [])

/-! ## The broadcast -/

variable {w : World}

theorem log_foldl_sendFrame (frame : Frame) (targets : List UserId) (w : World) :
    (targets.foldl (fun w c => w.sendFrame (primary c) frame) w).log =
      w.log ++ targets.map fun c => Out.send (primary c) frame := by
  induction targets generalizing w with
  | nil => exact (List.append_nil _).symm
  | cons c targets ih =>
    rw [List.foldl_cons, ih, sendFrame_log, List.append_assoc]
    rfl

/-- The connections that are chosen: each once. -/
theorem fansOut_of_targets (s : ServerState) (author : UserId) (room : Uuid) (tree : Bool)
    {members : List UserId} (hmembers : ∀ u, u ∈ members ↔
      ∃ m ∈ s.data.memberships, TargetRoom s.data.rooms room tree m.2 ∧ m.1 = u) :
    FansOut s author room tree (((dedupDeliveryTargets members s.deliveryClient).filter fun c =>
      some c ≠ s.deliveryClient author).map primary) := by
  have hinj : Function.Injective primary := fun _ _ h => congrArg HandleId.user h
  have hmem : ∀ c, c ∈ (dedupDeliveryTargets members s.deliveryClient).filter (fun c =>
      some c ≠ s.deliveryClient author) ↔ ¬ s.Hosts c author ∧
        ∃ m ∈ s.data.memberships, TargetRoom s.data.rooms room tree m.2 ∧ s.Hosts c m.1 := by
    intro c
    have hauthor : some c ≠ s.deliveryClient author ↔ ¬ s.Hosts c author :=
      not_congr (eq_comm.trans ServerState.deliveryClient_eq_some)
    rw [List.mem_filter, decide_eq_true_eq, hauthor, and_comm, dedupDeliveryTargets,
      mem_foldl_pushNew, List.mem_filterMap]
    refine and_congr_right fun _ => ?_
    constructor
    · rintro (h | ⟨u, hu, hc⟩)
      · exact absurd h List.not_mem_nil
      · obtain ⟨m, hm, hroom, rfl⟩ := (hmembers u).mp hu
        exact ⟨m, hm, hroom, ServerState.deliveryClient_eq_some.mp hc⟩
    · rintro ⟨m, hm, hroom, hc⟩
      exact .inr ⟨m.1, (hmembers m.1).mpr ⟨m, hm, hroom, rfl⟩,
        ServerState.deliveryClient_eq_some.mpr hc⟩
  refine ⟨?_, fun h => ?_⟩
  · exact ((nodup_foldl_pushNew List.nodup_nil).filter _).map hinj
  · rw [List.mem_map]
    constructor
    · rintro ⟨c, hc, rfl⟩
      exact ⟨rfl, (hmem c).mp hc⟩
    · rintro ⟨hprimary, hc⟩
      exact ⟨h.user, (hmem h.user).mpr hc, hprimary.symm⟩

/-- **The broadcast delivers.** -/
theorem delivers_broadcastChatInRoom (w : World) (author : UserId) (room : Uuid) (text : String)
    (tree : Bool) (id : List UInt8) (timestampMs : Int) (attachment : Option ChatAttachment) :
    Delivers w (w.broadcastChatInRoom author room text tree id timestampMs attachment).2 author room
      tree := by
  unfold broadcastChatInRoom
  cases hmember : w.state.getMember author with
  | none =>
    refine ⟨[], (List.append_nil _).symm, ?_, fun _ => rfl⟩
    rintro ⟨member, hsome, _⟩
    rw [hmember] at hsome
    exact nomatch hsome
  | some member =>
    simp only
    split
    · rename_i hdenied
      have hmay : ¬ MayPost w author room := by
        rintro ⟨member', hsome, hmay⟩
        obtain rfl := Option.some.inj (hmember.symm.trans hsome)
        rw [hmay] at hdenied
        exact absurd hdenied (by decide)
      cases member with
      | client => exact ⟨_, rfl, fun h => absurd h hmay, fun _ => rfl⟩
      | owned owner identity =>
        exact ⟨[], (List.append_nil _).symm, fun h => absurd h hmay, fun _ => rfl⟩
    · rename_i hallowed
      have hmay : MayPost w author room := ⟨member, hmember, by simpa using hallowed⟩
      refine ⟨_, log_foldl_sendFrame _ _ _, fun _ => ?_, fun h => absurd hmay h⟩
      rw [chatTargets, List.filterMap_map]
      have hprimary : (Out.chatTarget ∘ fun c => Out.send (primary c) (Frame.chatBroadcast id
          timestampMs (w.state.memberIdentity author member).displayName author text
          (if tree then some true else none) attachment)) = some ∘ primary := rfl
      rw [hprimary, List.filterMap_eq_map]
      refine fansOut_of_targets w.state author room tree fun u => ?_
      have htarget : ∀ v, v ∈ (if tree then collectDescendantRooms w.state.data.rooms room
          else [room]) ↔ TargetRoom w.state.data.rooms room tree v := by
        intro v
        unfold TargetRoom
        split
        · exact mem_collectDescendantRooms
        · exact List.mem_singleton
      simp only [List.mem_map, List.mem_filter, decide_eq_true_eq, htarget, and_assoc]

/-! ## The messages -/

/-- The event is a chat message of `author` into `room`: a client's own, into the room that it is
in, or one that a controller posts for a participant of its own. -/
inductive Posts (w : World) : Event → UserId → Uuid → Bool → Prop
  | client (sender : HandleId) (id : List UInt8) (timestampMs : Int) (text : String)
      (tree : Option Bool) (attachment : Option ChatAttachment)
      (hopened : (w.state.conn sender.user).opened = true)
      (hauthenticated : (w.state.conn sender.user).authenticated = true) :
      Posts w (.envelope sender (.chatMessage id timestampMs text tree attachment)) sender.user
        ((w.state.data.getUserRoom sender.user).getD rootRoomUuid) (tree.getD false)
  | participant (sender : HandleId) (userId : UserId) (text : String) (tree : Option Bool)
      (roomId : Option RoomId) (hopened : (w.state.conn sender.user).opened = true)
      (hauthenticated : (w.state.conn sender.user).authenticated = true)
      (hcontroller : (w.state.handle sender).isController = true)
      (hown : w.state.isParticipantOf userId (.connection sender.user) = true) :
      Posts w (.envelope sender (.participantChat userId text tree roomId)) userId
        ((roomId.bind uuidFromRoomId).getD ((w.state.data.getUserRoom userId).getD rootRoomUuid))
        (tree.getD false)

theorem delivers_step (cfg : Config) (env : Env) {e : Event} {author : UserId} {room : Uuid}
    {tree : Bool} (h : Posts w e author room tree) :
    Delivers w (step cfg env w e) author room tree := by
  cases h with
  | client sender id timestampMs text tree attachment hopened hauthenticated =>
    have hstep : step cfg env w (.envelope sender (.chatMessage id timestampMs text tree
        attachment)) = handleChatMessage env sender id timestampMs text tree attachment w :=
      (if_pos hopened).trans (if_pos hauthenticated)
    rw [hstep]
    exact delivers_broadcastChatInRoom ..
  | participant sender _ text tree roomId hopened hauthenticated hcontroller hown =>
    have hstep : step cfg env w (.envelope sender (.participantChat author text tree roomId)) =
        handleController env sender (.participantChat author text tree roomId) w :=
      (if_pos hopened).trans (if_pos hauthenticated)
    rw [hstep, handleController, if_neg (by rw [hcontroller]; decide)]
    rw [handleParticipantChat, withParticipant, if_pos hown]
    cases roomId.bind uuidFromRoomId with
    | some room => exact delivers_broadcastChatInRoom ..
    | none => exact delivers_broadcastChatInRoom ..

/-- **Chat fan-out.** In every reachable state, whoever posts into a room or a subtree: when the
author may post there, the message goes to exactly the connections that host a member of a target
room, less the one that hosts the author, and to each of them once; else it goes nowhere. -/
theorem chat_fan_out (cfg : Config) (store : Persistence) (inputs : List Input) (env : Env) :
    let w := run cfg (World.boot store) inputs
    (∀ author room text tree id timestampMs attachment, Delivers w
      (w.broadcastChatInRoom author room text tree id timestampMs attachment).2 author room tree) ∧
    ∀ e author room tree, Posts w e author room tree →
      Delivers w (step cfg env w e) author room tree :=
  ⟨fun author room text tree id timestampMs attachment =>
    delivers_broadcastChatInRoom _ author room text tree id timestampMs attachment,
    fun _ _ _ _ h => delivers_step cfg env h⟩

/-- Two clients in Root, and a bridge with two participants there. -/
def sampleCrowd : List Input :=
  sampleVoices ++ [sampleMsg 3 (.registerParticipant "joe" none)]

/-- Eve's message goes to bob, and once to the bridge of ann and joe. -/
theorem chat_fan_out_crowd :
    let w := run sampleConfig (World.boot sampleAdminStore) sampleCrowd
    let w' := step sampleConfig sampleEnv w
      (.envelope (primary 1) (.chatMessage [] 0 "hi" none none))
    chatTargets (w'.log.drop w.log.length) = [primary 2, primary 3] ∧
      Delivers w w' 1 ((w.state.data.getUserRoom 1).getD rootRoomUuid) false :=
  ⟨by decide +kernel, (chat_fan_out sampleConfig sampleAdminStore sampleCrowd sampleEnv).2 _ _ _ _
    (.client (primary 1) [] 0 "hi" none none (by decide +kernel) (by decide +kernel))⟩

end Rumble.Server
