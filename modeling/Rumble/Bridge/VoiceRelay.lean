import Rumble.Bridge.Events
import Rumble.Bridge.MumbleVoice
import Rumble.Lib.Numbering
import Rumble.Protocol.Wire

/-!
# Voice through the bridge

The voice events of `run_bridge`: a packet of a Mumble client becomes a datagram for the Rumble
server, and a datagram of the server becomes a packet for the Mumble clients that hear it. The
counters of `BridgeLoopState` number both. A counter of packets is kept without its wrap-around. The
logs are what was relayed, with the ends of the counters.
-/

namespace Rumble.Bridge

open Rumble.Lib

/-! ## The relay -/

/-- A datagram of the server as it went to Mumble clients. `own` is the client whose own voice it
is, `session` the speaker that the packet names. -/
structure Relayed where
  datagram : VoiceDatagram
  session : UInt32
  own : Option UInt32
  sequence : Nat
  packet : List UInt8
  clients : List UInt32

/-- A packet of a Mumble client, and the datagram sent for it. -/
structure Forwarded where
  packet : List UInt8
  datagram : VoiceDatagram

/-- A packet of a Mumble client's echo test, and the one that goes back to it. -/
structure Echo where
  client : UInt32
  packet : List UInt8
  answer : List UInt8

/-- The state of the bridge and `BridgeLoopState`, and the logs. -/
structure VoiceLoop where
  bridge : BridgeState
  clientSenders : Table UInt32 Unit
  mumbleToRumbleSeq : Table UInt32 UInt32
  rumbleOutboundSeq : Table UserId Nat
  relayed : List (Mark UserId Relayed)
  forwarded : List (Mark UInt32 Forwarded)
  echoes : List Echo

/-- What the loop takes: a step of the model of its other events, or voice. -/
inductive VoiceMove where
  | bridge (m : BridgeStep)
  | rumbleVoice (datagram : VoiceDatagram)
  | mumbleVoice (session : UInt32) (data : List UInt8)

/-- The users whose counters end with a step. -/
def BridgeState.departed (s : BridgeState) : BridgeStep → List UserId
  | .event (.rumbleEnvelope (.serverState ss)) =>
    (reconcileServerState s.rumbleRooms s.rumbleUsers (ss.rooms.filterMap Room.fromProto)
      (ss.users.filterMap User.fromProto) s.channels s.users s.skipRules).removedUserIds
  | .event (.rumbleEnvelope (.stateUpdate (some (.userLeft userId)))) =>
    let rumbleId := userId.getD 0
    if s.isVirtual rumbleId then [] else [rumbleId]
  | _ => []

namespace VoiceLoop

def new : VoiceLoop := ⟨.new, ∅, ∅, ∅, [], [], []⟩

variable (s : VoiceLoop)

/-- `rumble_outbound_seq.remove` -/
def endUser (userId : UserId) : VoiceLoop :=
  { s with
    rumbleOutboundSeq := s.rumbleOutboundSeq.del userId
    relayed := s.relayed ++ [.reset userId] }

def bridgeStep (m : BridgeStep) : VoiceLoop :=
  let s := (s.bridge.departed m).foldl endUser { s with bridge := s.bridge.step m }
  match m with
  | .event (.mumbleClientLeft session) =>
    { s with
      clientSenders := s.clientSenders.del session
      mumbleToRumbleSeq := s.mumbleToRumbleSeq.del session
      forwarded := s.forwarded ++ [.reset session] }
  | .event (.mumbleClientSender session) =>
    { s with clientSenders := s.clientSenders.set session () }
  | _ => s

/-- Deafened clients hear nothing, and a client hears its channel, or every one when the datagram
names no room that is known. -/
def hears (own targetChannel : Option UInt32) (client : UInt32) : Bool :=
  own != some client &&
    match targetChannel with
    | some channel =>
      (s.bridge.mumbleClients.get client).any fun c => !c.isDeafened && c.channelId == channel
    | none => !(s.bridge.mumbleClients.get client).any MumbleClient.isDeafened

def handleRumbleVoice (datagram : VoiceDatagram) : VoiceLoop :=
  if datagram.opusData.isEmpty && !datagram.endOfStream then s
  else match datagram.senderId with
    | none => s
    | some senderId =>
      -- a virtual user speaks with the session of its client, and is not sent back to it
      let vuSession := s.bridge.reverseVirtualUserMap.get senderId
      let targetChannel := (datagram.roomId.bind (Bytes.ofList? 16)).bind fun uuid =>
        ChannelMap.getMumbleId s.bridge.channels uuid
      match vuSession <|> UserMap.getMumbleSession s.bridge.users senderId with
      | none => s
      | some session =>
        let currentSeq := (s.rumbleOutboundSeq.get senderId).getD 0 + 2
        { s with
          rumbleOutboundSeq := s.rumbleOutboundSeq.set senderId currentSeq
          relayed := s.relayed ++ [.item senderId
            { datagram := datagram
              session := session
              own := vuSession
              sequence := currentSeq
              packet := encodeVoicePacket session (.ofNat currentSeq) datagram.opusData
                datagram.endOfStream
              clients := (s.clientSenders.toPairs.map Prod.fst).filter
                (s.hears vuSession targetChannel) }] }

/-- Voice of muted and of unregistered clients is dropped, and so are whispers; target 31 is the
client's echo test. -/
def handleMumbleVoice (session : UInt32) (data : List UInt8) : VoiceLoop :=
  if (s.bridge.mumbleClients.get session).any MumbleClient.isMuted then s
  else match s.bridge.virtualUserMap.get session with
    | none => s
    | some virtualUserId =>
      match parseVoicePacket data with
      | .ok (some voice) =>
        if voice.target = 31 then
          match s.clientSenders.get session with
          | some () =>
            { s with
              echoes := s.echoes ++ [⟨session, data, encodeVoicePacket session voice.sequence
                voice.opusData voice.isLast⟩] }
          | none => s
        else if voice.target ≠ 0 then s
        else
          let seq := (s.mumbleToRumbleSeq.get session).getD 0 + 1
          { s with
            mumbleToRumbleSeq := s.mumbleToRumbleSeq.set session seq
            forwarded := s.forwarded ++ [.item session
              { packet := data
                datagram :=
                  { opusData := voice.opusData
                    sequence := seq.toNat
                    timestampUs := seq.toNat * 20000
                    endOfStream := voice.isLast
                    senderId := some virtualUserId
                    roomId := none } }] }
      | _ => s

def step : VoiceMove → VoiceLoop
  | .bridge m => s.bridgeStep m
  | .rumbleVoice datagram => s.handleRumbleVoice datagram
  | .mumbleVoice session data => s.handleMumbleVoice session data

def run (moves : List VoiceMove) : VoiceLoop := moves.foldl step new

end VoiceLoop

/-! ## What was relayed -/

/-- The clients that hear a datagram hear it once, its own client does not, and the packet decodes
to the datagram. -/
structure Relayed.Sound (r : Relayed) : Prop where
  once : r.clients.Nodup
  noEcho : ∀ client ∈ r.clients, r.own ≠ some client
  decodes : r.datagram.opusData.length ≤ 0x1FFF →
    parseVoicePacket (withoutSession r.session r.packet) =
      .ok (some ⟨0, .ofNat r.sequence, r.datagram.opusData, r.datagram.endOfStream⟩)

/-- The datagram is the packet's, of normal talking, as a participant's, stamped by its number. -/
structure Forwarded.Sound (f : Forwarded) : Prop where
  parses : ∃ sequence, parseVoicePacket f.packet =
    .ok (some ⟨0, sequence, f.datagram.opusData, f.datagram.endOfStream⟩)
  stamped : f.datagram.timestampUs = f.datagram.sequence * 20000
  attributed : f.datagram.senderId.isSome ∧ f.datagram.roomId = none

/-- The answer decodes to what the client sent. -/
structure Echo.Sound (e : Echo) : Prop where
  decodes : ∃ sequence opusData isLast,
    parseVoicePacket e.packet = .ok (some ⟨31, sequence, opusData, isLast⟩) ∧
    (opusData.length ≤ 0x1FFF → parseVoicePacket (withoutSession e.client e.answer) =
      .ok (some ⟨0, sequence, opusData, isLast⟩))

theorem parseVoicePacket_answer (session : UInt32) (sequence : UInt64) {opusData : List UInt8}
    (isLast : Bool) (h : opusData.length ≤ 0x1FFF) :
    parseVoicePacket (withoutSession session (encodeVoicePacket session sequence opusData isLast)) =
      .ok (some ⟨0, sequence, opusData, isLast⟩) := by
  rw [withoutSession_encodeVoicePacket, parseVoicePacket_body isLast _ _ h,
    if_pos (by decide)]
  rfl

namespace VoiceLoop

/-- **The invariant**: the counters number what was relayed, and all of it is sound. -/
structure Counted (s : VoiceLoop) : Prop where
  relayed : Numbered (· + 2) 0 Relayed.sequence s.rumbleOutboundSeq s.relayed
  forwarded : Numbered (· + 1) 0 (fun f : Forwarded => UInt32.ofNat f.datagram.sequence)
    s.mumbleToRumbleSeq s.forwarded
  relayedSound : AllItems Relayed.Sound s.relayed
  forwardedSound : AllItems (fun f => f.Sound ∧ f.datagram.sequence < 2 ^ 32) s.forwarded
  echoesSound : ∀ e ∈ s.echoes, e.Sound

namespace Counted

variable {s : VoiceLoop}

theorem new : VoiceLoop.new.Counted where
  relayed := .nil
  forwarded := .nil
  relayedSound := .nil
  forwardedSound := .nil
  echoesSound _ h := absurd h List.not_mem_nil

theorem endUser (h : s.Counted) (userId : UserId) : (s.endUser userId).Counted where
  relayed := h.relayed.reset userId
  forwarded := h.forwarded
  relayedSound := h.relayedSound.reset userId
  forwardedSound := h.forwardedSound
  echoesSound := h.echoesSound

theorem foldl_endUser (h : s.Counted) (userIds : List UserId) :
    (userIds.foldl VoiceLoop.endUser s).Counted := by
  induction userIds generalizing s with
  | nil => exact h
  | cons userId userIds ih => exact ih (h.endUser userId)

theorem bridgeStep (h : s.Counted) (m : BridgeStep) : (s.bridgeStep m).Counted := by
  have hbridge : ({ s with bridge := s.bridge.step m } : VoiceLoop).Counted :=
    ⟨h.relayed, h.forwarded, h.relayedSound, h.forwardedSound, h.echoesSound⟩
  have hended := hbridge.foldl_endUser (s.bridge.departed m)
  unfold VoiceLoop.bridgeStep
  dsimp only
  split
  · rename_i session
    exact ⟨hended.relayed, hended.forwarded.reset session, hended.relayedSound,
      hended.forwardedSound.reset session, hended.echoesSound⟩
  · exact ⟨hended.relayed, hended.forwarded, hended.relayedSound, hended.forwardedSound,
      hended.echoesSound⟩
  · exact hended

theorem handleRumbleVoice (h : s.Counted) (datagram : VoiceDatagram) :
    (s.handleRumbleVoice datagram).Counted := by
  unfold VoiceLoop.handleRumbleVoice
  split
  · exact h
  split
  · exact h
  rename_i senderId _
  dsimp only
  split
  · exact h
  rename_i session _
  refine ⟨h.relayed.item rfl rfl, h.forwarded, h.relayedSound.item ?_, h.forwardedSound,
    h.echoesSound⟩
  refine ⟨(Table.nodup_keys _).filter _, fun client hclient => ?_,
    parseVoicePacket_answer session _ _⟩
  have hhears := (List.mem_filter.mp hclient).2
  exact bne_iff_ne.mp (Bool.and_eq_true_iff.mp hhears).1

theorem handleMumbleVoice (h : s.Counted) (session : UInt32) (data : List UInt8) :
    (s.handleMumbleVoice session data).Counted := by
  unfold VoiceLoop.handleMumbleVoice
  split
  · exact h
  split
  · exact h
  split
  · rename_i voice hvoice
    obtain ⟨target, sequence, opusData, isLast⟩ := voice
    dsimp only
    split
    · rename_i htarget
      subst htarget
      split
      · refine ⟨h.relayed, h.forwarded, h.relayedSound, h.forwardedSound, fun e he => ?_⟩
        rcases List.mem_append.mp he with he | he
        · exact h.echoesSound e he
        · cases List.mem_singleton.mp he
          exact ⟨sequence, opusData, isLast, hvoice, parseVoicePacket_answer session _ _⟩
      · exact h
    split
    · exact h
    · rename_i htarget
      obtain rfl : target = 0 := not_not.mp htarget
      exact ⟨h.relayed, h.forwarded.item rfl UInt32.ofNat_toNat, h.relayedSound,
        h.forwardedSound.item ⟨⟨⟨sequence, hvoice⟩, rfl, rfl, rfl⟩, UInt32.toNat_lt _⟩,
        h.echoesSound⟩
  · exact h

/-- **Step lemma.** -/
theorem step (h : s.Counted) (m : VoiceMove) : (s.step m).Counted := by
  cases m with
  | bridge m => exact h.bridgeStep m
  | rumbleVoice datagram => exact h.handleRumbleVoice datagram
  | mumbleVoice session data => exact h.handleMumbleVoice session data

/-- **Run lemma.** -/
theorem run (moves : List VoiceMove) : (VoiceLoop.run moves).Counted := by
  induction moves using List.reverseRecOn with
  | nil => exact new
  | append_singleton moves m ih =>
    rw [VoiceLoop.run, List.foldl_append]
    exact ih.step m

end Counted

end VoiceLoop

/-! ## What is relayed was said -/

/-- The voice of a Rumble user. -/
def VoiceMove.datagramOf (u : UserId) : VoiceMove → List VoiceDatagram
  | .rumbleVoice datagram => if datagram.senderId = some u then [datagram] else []
  | _ => []

/-- The voice of a Mumble client. -/
def VoiceMove.packetOf (session : UInt32) : VoiceMove → List (List UInt8)
  | .mumbleVoice session' data => if session' = session then [data] else []
  | _ => []

namespace VoiceLoop

variable {s : VoiceLoop} {u : UserId} {session : UInt32}

theorem since_foldl_endUser (userIds : List UserId) :
    (since u (userIds.foldl endUser s).relayed).Sublist (since u s.relayed) := by
  induction userIds generalizing s with
  | nil => exact .refl _
  | cons userId userIds ih => exact ih.trans (since_reset u userId s.relayed)

@[simp] theorem forwarded_foldl_endUser (userIds : List UserId) :
    (userIds.foldl endUser s).forwarded = s.forwarded := by
  induction userIds generalizing s with
  | nil => rfl
  | cons userId userIds ih => exact ih

/-- A step relays at most what it takes. -/
theorem relayed_step (m : VoiceMove) :
    ((since u (s.step m).relayed).map Relayed.datagram).Sublist
      ((since u s.relayed).map Relayed.datagram ++ m.datagramOf u) := by
  cases m with
  | bridge m =>
    have hsub := since_foldl_endUser (s := { s with bridge := s.bridge.step m }) (u := u)
      (s.bridge.departed m)
    change ((since u (s.bridgeStep m).relayed).map _).Sublist (_ ++ [])
    rw [List.append_nil]
    refine List.Sublist.map _ ?_
    unfold bridgeStep
    dsimp only
    split <;> exact hsub
  | rumbleVoice datagram =>
    have hstay : ((since u s.relayed).map Relayed.datagram).Sublist
        ((since u s.relayed).map Relayed.datagram ++
          (VoiceMove.rumbleVoice datagram).datagramOf u) := List.sublist_append_left _ _
    change ((since u (s.handleRumbleVoice datagram).relayed).map _).Sublist _
    unfold handleRumbleVoice
    split
    · exact hstay
    split
    · exact hstay
    rename_i senderId hsender
    dsimp only
    split
    · exact hstay
    rw [since_item, List.map_append, VoiceMove.datagramOf, hsender]
    by_cases hu : senderId = u
    · rw [if_pos hu, if_pos (congrArg some hu)]
      exact .refl _
    · rw [if_neg hu, if_neg fun h => hu (Option.some.inj h)]
      exact .refl _
  | mumbleVoice session data =>
    change ((since u (s.handleMumbleVoice session data).relayed).map _).Sublist (_ ++ [])
    have hrelayed : (s.handleMumbleVoice session data).relayed = s.relayed := by
      unfold handleMumbleVoice
      split
      · rfl
      split
      · rfl
      split
      · split
        · split <;> rfl
        · split <;> rfl
      · rfl
    rw [hrelayed, List.append_nil]

/-- A step forwards at most what it takes. -/
theorem forwarded_step (m : VoiceMove) :
    ((since session (s.step m).forwarded).map Forwarded.packet).Sublist
      ((since session s.forwarded).map Forwarded.packet ++ m.packetOf session) := by
  cases m with
  | bridge m =>
    change ((since session (s.bridgeStep m).forwarded).map _).Sublist (_ ++ [])
    rw [List.append_nil]
    refine List.Sublist.map _ ?_
    unfold bridgeStep
    dsimp only
    split
    · rw [forwarded_foldl_endUser]
      exact since_reset session _ s.forwarded
    · rw [forwarded_foldl_endUser]
    · rw [forwarded_foldl_endUser]
  | rumbleVoice datagram =>
    change ((since session (s.handleRumbleVoice datagram).forwarded).map _).Sublist (_ ++ [])
    have hforwarded : (s.handleRumbleVoice datagram).forwarded = s.forwarded := by
      unfold handleRumbleVoice
      split
      · rfl
      split
      · rfl
      dsimp only
      split <;> rfl
    rw [hforwarded, List.append_nil]
  | mumbleVoice session' data =>
    have hstay : ((since session s.forwarded).map Forwarded.packet).Sublist
        ((since session s.forwarded).map Forwarded.packet ++
          (VoiceMove.mumbleVoice session' data).packetOf session) := List.sublist_append_left _ _
    change ((since session (s.handleMumbleVoice session' data).forwarded).map _).Sublist _
    unfold handleMumbleVoice
    split
    · exact hstay
    split
    · exact hstay
    split
    · split
      · split <;> exact hstay
      split
      · exact hstay
      · dsimp only
        rw [since_item, List.map_append, VoiceMove.packetOf]
        by_cases hsession : session' = session
        · rw [if_pos hsession, if_pos hsession]
          exact .refl _
        · rw [if_neg hsession, if_neg hsession]
          exact .refl _
    · exact hstay

/-- In every run, what is relayed of a user was said by it, in this order. -/
theorem relayed_sublist (moves : List VoiceMove) (u : UserId) :
    ((since u (run moves).relayed).map Relayed.datagram).Sublist
      (moves.flatMap (VoiceMove.datagramOf u)) := by
  induction moves using List.reverseRecOn with
  | nil => exact List.nil_sublist _
  | append_singleton moves m ih =>
    rw [run, List.foldl_append, List.flatMap_append, List.flatMap_singleton]
    exact (relayed_step m).trans (ih.append_right _)

theorem forwarded_sublist (moves : List VoiceMove) (session : UInt32) :
    ((since session (run moves).forwarded).map Forwarded.packet).Sublist
      (moves.flatMap (VoiceMove.packetOf session)) := by
  induction moves using List.reverseRecOn with
  | nil => exact List.nil_sublist _
  | append_singleton moves m ih =>
    rw [run, List.foldl_append, List.flatMap_append, List.flatMap_singleton]
    exact (forwarded_step m).trans (ih.append_right _)

end VoiceLoop

/-! ## Runs -/

theorem iterate_two (n : Nat) : (· + 2)^[n] 0 = 2 * n := by
  induction n with
  | zero => rfl
  | succ n ih =>
    rw [Function.iterate_succ_apply', ih]
    omega

theorem iterate_one (n : Nat) : (· + 1)^[n] (0 : UInt32) = UInt32.ofNat n := by
  induction n with
  | zero => rfl
  | succ n ih =>
    rw [Function.iterate_succ_apply', ih, UInt32.ofNat_add]
    rfl

/-- **Voice is numbered without gaps.** In every run of the bridge, the packets of a Rumble user
carry 2, 4, 6, … from the last time that its counter ended, and the datagrams of a Mumble client 1,
2, 3, … from its session's last end on, wrapping around at 32 bits; they are for voice that was
said, in the order in which it was; and all of them, and the answers to echo tests, are sound. -/
theorem relayed_run (moves : List VoiceMove) :
    (∀ u, ((since u (VoiceLoop.run moves).relayed).map Relayed.datagram).Sublist
        (moves.flatMap (VoiceMove.datagramOf u)) ∧
      ∀ i r, (since u (VoiceLoop.run moves).relayed)[i]? = some r →
        r.sequence = 2 * (i + 1) ∧ r.Sound) ∧
    (∀ session, ((since session (VoiceLoop.run moves).forwarded).map Forwarded.packet).Sublist
        (moves.flatMap (VoiceMove.packetOf session)) ∧
      ∀ i f, (since session (VoiceLoop.run moves).forwarded)[i]? = some f →
        f.datagram.sequence = (i + 1) % 2 ^ 32 ∧ f.Sound) ∧
    ∀ e ∈ (VoiceLoop.run moves).echoes, e.Sound := by
  have h := VoiceLoop.Counted.run moves
  refine ⟨fun u => ⟨VoiceLoop.relayed_sublist moves u, fun i r hr => ⟨?_, ?_⟩⟩,
    fun session => ⟨VoiceLoop.forwarded_sublist moves session, fun i f hf => ?_⟩, h.echoesSound⟩
  · rw [h.relayed.numbers u i r hr, iterate_two]
  · exact h.relayedSound.of_mem_since r (List.mem_of_getElem? hr)
  · obtain ⟨hsound, hlt⟩ := h.forwardedSound.of_mem_since f (List.mem_of_getElem? hf)
    have hnumber := congrArg UInt32.toNat (h.forwarded.numbers session i f hf)
    rw [iterate_one, UInt32.toNat_ofNat', UInt32.toNat_ofNat', Nat.mod_eq_of_lt hlt] at hnumber
    exact ⟨hnumber, hsound⟩

end Rumble.Bridge
