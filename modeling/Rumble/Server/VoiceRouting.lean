import Rumble.Server.Roster

/-!
# Voice routing

`build_relay_packet`, `dedup_delivery_targets` and `relay_voice_as` of `server/src/handlers.rs`.
The server stamps the sender and the room of every relayed datagram itself. `Routed` says what a
relayed packet carries and which connections get it; `voice_routed` proves it in every reachable
state, and that a datagram of a plain client is treated the same whatever sender and room it
claims.
-/

namespace Rumble.Server

open Rumble.Lib World

/-! ## The routing snapshot -/

namespace StateData

/-- The members of every room that has any, and the deafened users. -/
def snapshotVoiceRouting (d : StateData) : Table Uuid (List UserId) × List UserId :=
  (d.memberships.foldl (fun map m => map.set m.2 ((map.get m.2).getD [] ++ [m.1])) ∅,
    (d.userStatuses.filter fun e => e.2.isDeafened).map Prod.fst)

/-- The first room of a listing of the snapshot that has the sender. -/
def findSenderRoom (listing : List (Uuid × List UserId)) (sender : UserId) : Option Uuid :=
  listing.findSome? fun e => if sender ∈ e.2 then some e.1 else none

theorem get_snapshot_foldl (ms : List (UserId × Uuid)) (room : Uuid) :
    ∀ map : Table Uuid (List UserId),
      ((ms.foldl (fun map m => map.set m.2 ((map.get m.2).getD [] ++ [m.1])) map).get room).getD [] =
        (map.get room).getD [] ++ (ms.filter fun m => m.2 == room).map Prod.fst := by
  induction ms with
  | nil => intro map; simp
  | cons m ms ih =>
    intro map
    rw [List.foldl_cons, ih, Table.get_set]
    by_cases hm : room = m.2
    · subst hm
      simp
    · have hm' : (m.2 == room) = false := by simpa using Ne.symm hm
      simp [hm, hm']

/-- The snapshot lists the members of a room in the order of the membership list. -/
theorem get_snapshotVoiceRouting (d : StateData) (room : Uuid) :
    (d.snapshotVoiceRouting.1.get room).getD [] = d.getRoomMembers room := by
  have h := get_snapshot_foldl d.memberships room ∅
  rw [Table.get_empty] at h
  exact h

theorem mem_deafened {d : StateData} (h : d.Single) {u : UserId} :
    u ∈ d.snapshotVoiceRouting.2 ↔ (d.getUserStatus u).isDeafened = true := by
  have hlisted : u ∈ d.snapshotVoiceRouting.2 ↔
      ∃ status, (u, status) ∈ d.userStatuses ∧ status.isDeafened = true := by
    unfold snapshotVoiceRouting
    simp
  rw [hlisted]
  unfold getUserStatus
  constructor
  · rintro ⟨status, hmem, hdeaf⟩
    rw [(find?_key_eq_some h.statuses).mpr hmem]
    exact hdeaf
  · intro hdeaf
    cases hfind : (d.userStatuses.find? fun e => e.1 == u).map Prod.snd with
    | none =>
      rw [hfind] at hdeaf
      exact Bool.noConfusion hdeaf
    | some status =>
      rw [hfind] at hdeaf
      exact ⟨status, (find?_key_eq_some h.statuses).mp hfind, hdeaf⟩

theorem getUserRoom_eq_some {d : StateData} (h : d.Single) {u : UserId} {room : Uuid} :
    d.getUserRoom u = some room ↔ (u, room) ∈ d.memberships := find?_key_eq_some h.memberships

theorem mem_getRoomMembers {d : StateData} {u : UserId} {room : Uuid} :
    u ∈ d.getRoomMembers room ↔ (u, room) ∈ d.memberships := by
  unfold getRoomMembers
  simp

/-- **Any order of the snapshot finds the sender's room.** The map is hashed, so the search may
meet its rooms in any order. -/
theorem findSenderRoom_eq {d : StateData} (h : d.Single) {listing : List (Uuid × List UserId)}
    (hlisting : listing.Perm d.snapshotVoiceRouting.1.toPairs) (u : UserId) :
    findSenderRoom listing u = d.getUserRoom u := by
  have hentry : ∀ {room : Uuid} {users : List UserId}, (room, users) ∈ listing →
      users = d.getRoomMembers room := fun hmem => by
    have hget := Table.mem_toPairs.mp (hlisting.mem_iff.mp hmem)
    rw [← get_snapshotVoiceRouting, hget]
    rfl
  cases hfind : findSenderRoom listing u with
  | some room =>
    obtain ⟨⟨r, users⟩, hmem, hr⟩ := List.exists_of_findSome?_eq_some hfind
    by_cases hu : u ∈ users
    · obtain rfl : r = room := by simpa [hu] using hr
      rw [hentry hmem] at hu
      exact ((getUserRoom_eq_some h).mpr (mem_getRoomMembers.mp hu)).symm
    · simp [hu] at hr
  | none =>
    cases hroom : d.getUserRoom u with
    | none => rfl
    | some room =>
      have hu : u ∈ d.getRoomMembers room :=
        mem_getRoomMembers.mpr ((getUserRoom_eq_some h).mp hroom)
      have hget := get_snapshotVoiceRouting d room
      cases hlookup : d.snapshotVoiceRouting.1.get room with
      | none =>
        rw [hlookup] at hget
        rw [← hget] at hu
        exact absurd hu List.not_mem_nil
      | some users =>
        have hmem := hlisting.mem_iff.mpr (Table.mem_toPairs.mpr hlookup)
        have hnone := List.findSome?_eq_none_iff.mp hfind _ hmem
        rw [← hentry hmem] at hu
        simp [hu] at hnone

end StateData

/-- The routing half of `build_relay_packet` over the snapshot, its rooms met in the order of
`listing`. -/
def routeSnapshot (d : StateData) (listing : List (Uuid × List UserId)) (sender : UserId)
    (dgram : VoiceDatagram) : Option RelayPacket :=
  (StateData.findSenderRoom listing sender).map fun room =>
    { datagram := { dgram with senderId := some sender, roomId := some room.data }
      recipients := ((d.snapshotVoiceRouting.1.get room).getD []).filter fun id =>
        id ≠ sender && !d.snapshotVoiceRouting.2.contains id
      room := room }

/-- The model of the routing half reads the lists directly; the snapshot gives the same packet. -/
theorem routeSnapshot_eq {s : ServerState} (h : s.data.Single)
    {listing : List (Uuid × List UserId)}
    (hlisting : listing.Perm s.data.snapshotVoiceRouting.1.toPairs) (sender : UserId)
    (dgram : VoiceDatagram) :
    routeSnapshot s.data listing sender dgram = routeDatagram s sender dgram := by
  unfold routeSnapshot routeDatagram
  rw [StateData.findSenderRoom_eq h hlisting]
  congr 1
  funext room
  rw [StateData.get_snapshotVoiceRouting]
  have hdeaf : ∀ id, s.data.snapshotVoiceRouting.2.contains id =
      s.data.userStatuses.any fun e => e.1 == id && e.2.isDeafened := by
    intro id
    rw [Bool.eq_iff_iff, List.contains_iff_mem, List.any_eq_true]
    simp [StateData.snapshotVoiceRouting, and_comm]
  simp only [hdeaf]

/-! ## Who hosts a member -/

namespace ServerState

/-- The connection is a live controller. -/
def controls (s : ServerState) (c : UserId) : Bool :=
  s.getClient c && (s.handle (primary c)).isController

/-- The connection `c` may speak as `u`: as itself, or a controller as a participant it owns. -/
def SpeaksFor (s : ServerState) (c u : UserId) : Prop :=
  if s.controls c then s.isParticipantOf u (.connection c) = true else u = c

/-- The live connection `c` hosts the member `u`: `u` is its own user or a participant of it. -/
def Hosts (s : ServerState) (c u : UserId) : Prop :=
  s.getClient c = true ∧ (u = c ∨ s.isParticipantOf u (.connection c) = true)

/-- The connections a packet is sent to. -/
def deliveryTargets (s : ServerState) (packet : RelayPacket) : List UserId :=
  (dedupDeliveryTargets packet.recipients s.deliveryClient).filter s.getClient

theorem deliveryClient_eq_some {s : ServerState} {c u : UserId} :
    s.deliveryClient u = some c ↔ s.Hosts c u := by
  unfold deliveryClient Hosts getClient isParticipantOf
  cases hu : s.members.get u with
  | none =>
    constructor
    · exact fun h => (Option.some_ne_none c h.symm).elim
    · rintro ⟨hc, rfl | h⟩
      · rw [hu] at hc
        exact Bool.noConfusion hc
      · exact Bool.noConfusion h
  | some member =>
    cases member with
    | client =>
      constructor
      · rintro ⟨rfl⟩
        exact ⟨by rw [hu]; rfl, .inl rfl⟩
      · rintro ⟨-, rfl | h⟩
        · rfl
        · exact Bool.noConfusion h
    | owned owner identity =>
      cases owner with
      | connection o =>
        dsimp only
        constructor
        · intro h
          split at h
          · rename_i ho
            obtain rfl := Option.some.inj h
            exact ⟨ho, .inr (beq_self_eq_true _)⟩
          · exact (Option.some_ne_none c h.symm).elim
        · rintro ⟨hc, rfl | h⟩
          · rw [hu] at hc
            exact Bool.noConfusion hc
          · obtain rfl : o = c := by simpa using h
            rw [if_pos hc]
      | plugin index =>
        constructor
        · exact fun h => (Option.some_ne_none c h.symm).elim
        · rintro ⟨hc, rfl | h⟩
          · rw [hu] at hc
            exact Bool.noConfusion hc
          · exact absurd h (by simp)

theorem nodup_deliveryTargets (s : ServerState) (packet : RelayPacket) :
    (s.deliveryTargets packet).Nodup := (nodup_foldl_pushNew List.nodup_nil).filter _

theorem mem_deliveryTargets {s : ServerState} {packet : RelayPacket} {c : UserId} :
    c ∈ s.deliveryTargets packet ↔ ∃ u ∈ packet.recipients, s.Hosts c u := by
  unfold deliveryTargets dedupDeliveryTargets
  rw [List.mem_filter, mem_foldl_pushNew, List.mem_filterMap]
  constructor
  · rintro ⟨h | ⟨u, hu, hc⟩, -⟩
    · exact absurd h List.not_mem_nil
    · exact ⟨u, hu, deliveryClient_eq_some.mp hc⟩
  · rintro ⟨u, hu, hc⟩
    exact ⟨.inr ⟨u, hu, deliveryClient_eq_some.mpr hc⟩, hc.1⟩

end ServerState

/-! ## The relayed packet -/

/-- A packet stamped for the speaker `u`, and the connections it is sent to. -/
structure Routed (s : ServerState) (u : UserId) (dgram : VoiceDatagram) (packet : RelayPacket) :
    Prop where
  room : s.data.getUserRoom u = some packet.room
  alone : ∀ m ∈ s.data.memberships, m.1 = u → m.2 = packet.room
  stamped : packet.datagram =
    { dgram with senderId := some u, roomId := some packet.room.data }
  targets_nodup : (s.deliveryTargets packet).Nodup
  targets : ∀ c, c ∈ s.deliveryTargets packet ↔ ∃ v, s.Hosts c v ∧ v ≠ u ∧
    s.data.getUserRoom v = some packet.room ∧ (s.data.getUserStatus v).isDeafened = false

section Routing

variable {s : ServerState} {env : Env} {c u : UserId} {dgram : VoiceDatagram} {len : Nat}
  {packet : RelayPacket}

theorem mem_recipients (h : s.data.Single) {room : Uuid} {v : UserId} :
    (v ∈ (s.data.getRoomMembers room).filter fun id =>
      id ≠ u && !(s.data.userStatuses.any fun e => e.1 == id && e.2.isDeafened)) ↔
    v ≠ u ∧ s.data.getUserRoom v = some room ∧ (s.data.getUserStatus v).isDeafened = false := by
  have hdeaf : (s.data.userStatuses.any fun e => e.1 == v && e.2.isDeafened) =
      (s.data.getUserStatus v).isDeafened := by
    rw [Bool.eq_iff_iff, ← StateData.mem_deafened h, List.any_eq_true]
    simp [StateData.snapshotVoiceRouting, and_comm]
  rw [List.mem_filter, hdeaf, StateData.mem_getRoomMembers, StateData.getUserRoom_eq_some h,
    Bool.and_eq_true, decide_eq_true_eq, Bool.not_eq_true']
  constructor
  · rintro ⟨hm, hne, hd⟩
    exact ⟨hne, hm, hd⟩
  · rintro ⟨hne, hm, hd⟩
    exact ⟨hm, hne, hd⟩

/-- **A routed packet is addressed as it should be.** -/
theorem routed_of_routeDatagram (h : s.data.Single) (hp : routeDatagram s u dgram = some packet) :
    Routed s u dgram packet := by
  obtain ⟨room, hroom, rfl⟩ := Option.map_eq_some_iff.mp hp
  refine ⟨hroom, fun m hm hu => ?_, rfl, s.nodup_deliveryTargets _, fun c => ?_⟩
  · have hmem : (u, m.2) ∈ s.data.memberships := hu ▸ hm
    have hsame := ((StateData.getUserRoom_eq_some h).mpr hmem).symm.trans hroom
    exact Option.some.inj hsame
  · rw [ServerState.mem_deliveryTargets]
    constructor
    · rintro ⟨v, hv, hhosts⟩
      exact ⟨v, hhosts, (mem_recipients h).mp hv⟩
    · rintro ⟨v, hhosts, hv⟩
      exact ⟨v, (mem_recipients h).mpr hv, hhosts⟩

/-- `relay_voice_as`: a frame of an in-process participant, when it is in a room. -/
def relayVoiceAs (s : ServerState) (sender : UserId) (opusData : List UInt8)
    (sequence timestampUs : Nat) (endOfStream : Bool) : Option RelayPacket :=
  routeDatagram s sender
    { opusData := opusData, sequence := sequence, timestampUs := timestampUs,
      endOfStream := endOfStream, senderId := some sender, roomId := none }

/-- A participant's frame goes where a client's datagram goes. -/
theorem routed_relayVoiceAs (h : s.data.Single) {opusData : List UInt8} {sequence stamp : Nat}
    {fin : Bool} (hp : relayVoiceAs s u opusData sequence stamp fin = some packet) :
    Routed s u ⟨opusData, sequence, stamp, fin, some u, some packet.room.data⟩ packet := by
  have hrouted := routed_of_routeDatagram h hp
  exact { hrouted with stamped := hrouted.stamped }

theorem speaksFor_of_effectiveSender (h : effectiveSender s c dgram = some u) :
    s.SpeaksFor c u := by
  unfold effectiveSender at h
  unfold ServerState.SpeaksFor ServerState.controls
  split
  · rename_i hctl
    rw [if_pos hctl] at h
    exact (Option.filter_eq_some_iff.mp h).2
  · rename_i hctl
    rw [if_neg hctl] at h
    exact (Option.some.inj h).symm

/-- A datagram that is not dropped is routed for the speaker it resolves to. -/
theorem buildRelayPacket_eq_some (h : (buildRelayPacket s env c dgram len).1 = some packet) :
    ∃ u, effectiveSender s c dgram = some u ∧ routeDatagram s u dgram = some packet := by
  unfold buildRelayPacket at h
  cases hu : effectiveSender s c dgram with
  | none =>
    rw [hu] at h
    exact (Option.some_ne_none packet h.symm).elim
  | some u =>
    rw [hu] at h
    dsimp only at h
    refine ⟨u, rfl, ?_⟩
    split at h
    · exact (Option.some_ne_none packet h.symm).elim
    split at h
    · exact (Option.some_ne_none packet h.symm).elim
    split at h
    · exact (Option.some_ne_none packet h.symm).elim
    · exact h

/-- The member table is not touched on the way. -/
theorem deliveryTargets_buildRelayPacket :
    (buildRelayPacket s env c dgram len).2.deliveryTargets packet = s.deliveryTargets packet := by
  unfold buildRelayPacket
  split
  · rfl
  dsimp only
  split
  · rfl
  split
  · rfl
  split
  · rfl
  · rfl

/-- **The claimed sender and room of a plain client's datagram are not read.** -/
theorem buildRelayPacket_claims (hc : s.controls c = false) (senderId : Option UserId)
    (roomId : Option (List UInt8)) :
    buildRelayPacket s env c { dgram with senderId := senderId, roomId := roomId } len =
      buildRelayPacket s env c dgram len := by
  have hsender : ∀ d, effectiveSender s c d = some c := fun d => by
    unfold effectiveSender
    exact if_neg (by rw [← ServerState.controls, hc]; exact Bool.false_ne_true)
  unfold buildRelayPacket
  rw [hsender, hsender]
  rfl

end Routing

/-- The log after a datagram: what was relayed, and to whom. -/
theorem log_handleDatagram (env : Env) (c : UserId) (dgram : VoiceDatagram) (len : Nat)
    (w : World) : (handleDatagram env c dgram len w).log = w.log ++
      ((buildRelayPacket w.state env c dgram len).1.map fun packet =>
        Out.relay (w.state.deliveryTargets packet) packet.datagram).toList := by
  have htargets : ∀ packet,
      (buildRelayPacket w.state env c dgram len).2.deliveryTargets packet =
        w.state.deliveryTargets packet := fun _ => deliveryTargets_buildRelayPacket
  unfold handleDatagram
  generalize buildRelayPacket w.state env c dgram len = r at htargets
  obtain ⟨packet | _, state⟩ := r
  · exact (List.append_nil w.log).symm
  · rename_i packet
    show w.log ++ [Out.relay (state.deliveryTargets packet) packet.datagram] =
      w.log ++ [Out.relay (w.state.deliveryTargets packet) packet.datagram]
    rw [htargets packet]

/-- **Voice routing is decided by the server.** In every reachable state, a datagram that is not
dropped is stamped with a speaker its connection may speak for and with the one room that speaker
is in, and goes once to each connection that hosts a member of the room that is neither the speaker
nor deafened. The sender and the room that a plain client's datagram claims change nothing. -/
theorem voice_routed (cfg : Config) (store : Persistence) (inputs : List Input) (env : Env)
    (c : UserId) (dgram : VoiceDatagram) (len : Nat) :
    let w := run cfg (World.boot store) inputs
    (∀ packet, (buildRelayPacket w.state env c dgram len).1 = some packet →
      ∃ u, w.state.SpeaksFor c u ∧ Routed w.state u dgram packet) ∧
    (handleDatagram env c dgram len w).log = w.log ++
      ((buildRelayPacket w.state env c dgram len).1.map fun packet =>
        Out.relay (w.state.deliveryTargets packet) packet.datagram).toList ∧
    (w.state.controls c = false → ∀ senderId roomId,
      buildRelayPacket w.state env c { dgram with senderId := senderId, roomId := roomId } len =
        buildRelayPacket w.state env c dgram len) := by
  have hsingle := single_run cfg store inputs
  refine ⟨fun packet hp => ?_, log_handleDatagram env c dgram len _, fun hc senderId roomId => ?_⟩
  · obtain ⟨u, hu, hroute⟩ := buildRelayPacket_eq_some hp
    exact ⟨u, speaksFor_of_effectiveSender hu, routed_of_routeDatagram hsingle hroute⟩
  · exact buildRelayPacket_claims hc senderId roomId

/-- Two clients in Root, and a bridge with one participant there. -/
def sampleVoices : List Input :=
  sampleLogin 1 (Bytes.rep 32 9) "eve" ++ sampleLogin 2 (Bytes.rep 32 8) "bob" ++
    sampleLogin 3 (Bytes.rep 32 9) "bridge" ++
    [sampleMsg 3 .controllerHello, sampleMsg 3 (.registerParticipant "ann" none)]

/-- A datagram that claims to be bob's, in no room. -/
def sampleVoice : VoiceDatagram := ⟨[1, 2, 3], 7, 20, false, some 2, none⟩

/-- The packet eve's datagram becomes: under her own id, to bob and to the bridge of ann. -/
theorem voice_routed_sample :
    let w := run sampleConfig (World.boot sampleAdminStore) sampleVoices
    let packet : RelayPacket :=
      { datagram := { sampleVoice with senderId := some 1, roomId := some rootRoomUuid.data }
        recipients := [2, 4]
        room := rootRoomUuid }
    w.state.deliveryTargets packet = [2, 3] ∧
      ∃ u, w.state.SpeaksFor 1 u ∧ Routed w.state u sampleVoice packet :=
  ⟨by decide +kernel, (voice_routed sampleConfig sampleAdminStore sampleVoices sampleEnv 1
    sampleVoice 10).1 _ (by decide +kernel)⟩

end Rumble.Server
