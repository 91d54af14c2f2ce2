import Rumble.Bridge.Participants
import Rumble.Lib.Reader
import Rumble.Server.SecondaryStreams

/-!
# The connection of a Mumble client

`mumble_framing.rs`, and `handle_mumble_client` of `mumble_server.rs` with its two loops. A stream
is finished by its sender or still open; here it is finished. A time-out, the end of the writer task
or that of the process can stop a loop between two messages: a loop is given how many it takes. What
the handshake writes to the client and what is only logged is left out.
-/

namespace Rumble.Bridge

open Rumble.Lib Rumble.Server

/-! ## Frames -/

inductive MessageType where
  | version
  | udpTunnel
  | authenticate
  | ping
  | reject
  | serverSync
  | channelRemove
  | channelState
  | userRemove
  | userState
  | banList
  | textMessage
  | permissionDenied
  | acl
  | queryUsers
  | cryptSetup
  | contextActionModify
  | contextAction
  | userList
  | voiceTarget
  | permissionQuery
  | codecVersion
  | userStats
  | requestBlob
  | serverConfig
  | suggestConfig
  deriving DecidableEq

/-- `from_u16` -/
def MessageType.fromU16 (v : UInt16) : Option MessageType :=
  match v.toNat with
  | 0 => some .version
  | 1 => some .udpTunnel
  | 2 => some .authenticate
  | 3 => some .ping
  | 4 => some .reject
  | 5 => some .serverSync
  | 6 => some .channelRemove
  | 7 => some .channelState
  | 8 => some .userRemove
  | 9 => some .userState
  | 10 => some .banList
  | 11 => some .textMessage
  | 12 => some .permissionDenied
  | 13 => some .acl
  | 14 => some .queryUsers
  | 15 => some .cryptSetup
  | 16 => some .contextActionModify
  | 17 => some .contextAction
  | 18 => some .userList
  | 19 => some .voiceTarget
  | 20 => some .permissionQuery
  | 21 => some .codecVersion
  | 22 => some .userStats
  | 23 => some .requestBlob
  | 24 => some .serverConfig
  | 25 => some .suggestConfig
  | _ => none

structure MumbleMessage where
  msgType : UInt16
  payload : List UInt8
  deriving DecidableEq

/-- `MAX_MESSAGE_SIZE` -/
def maxMessageSize : Nat := 0x7FFFFF

/-- `from_be_bytes`, at every width. -/
def fromBeBytes (bytes : List UInt8) : Nat := bytes.foldl (fun n b => n * 256 + b.toNat) 0

/-- The error of `read_exact` at the end of a stream. -/
def earlyEof : String := "early eof"

def messageTooLarge (length : Nat) : String :=
  s!"Message too large: {length} bytes (max {maxMessageSize})"

def readMessage (recv : RecvStream) : Except String (MumbleMessage × RecvStream) := do
  let (typeBuf, recv) ← (readExact 2 recv).mapError fun _ => earlyEof
  let (lenBuf, recv) ← (readExact 4 recv).mapError fun _ => earlyEof
  let length := fromBeBytes lenBuf
  if length > maxMessageSize then throw (messageTooLarge length)
  let (payload, recv) ← (readExact length recv).mapError fun _ => earlyEof
  return (⟨.ofNat (fromBeBytes typeBuf), payload⟩, recv)

/-- `write_raw_frame`, and with the type of a message `write_message` and `write_udp_tunnel`. The
length is written as a `u32`. -/
def MumbleMessage.frame (m : MumbleMessage) : List UInt8 :=
  beBytes 2 m.msgType.toNat ++ beBytes 4 m.payload.length ++ m.payload

/-! ## The handler of a client -/

/-- What is read of a `UserState`. -/
structure UserStateRequest where
  channelId : Option UInt32
  selfMute : Option Bool
  selfDeaf : Option Bool
  deriving DecidableEq

/-- What is read of a `TextMessage`. -/
structure TextRequest where
  message : Option String
  session : List UInt32
  treeId : List UInt32
  deriving DecidableEq

/-- The generated decoders of the messages that a handler reads; `none` is a decoding error. -/
structure MumbleCodec where
  authenticate : List UInt8 → Option (Option String)
  textMessage : List UInt8 → Option TextRequest
  userState : List UInt8 → Option UserStateRequest

/-- The events of a handler: those of the loop's model, and those of voice, chat and pings. -/
inductive HandlerEvent where
  | bridge (e : BridgeEvent)
  | mumblePing (session : UInt32) (payload : List UInt8)
  | mumbleVoice (session : UInt32) (data : List UInt8)
  | mumbleChat (session : UInt32) (message : String) (targetSessions targetTreeIds : List UInt32)
  deriving DecidableEq

section Handler

variable (codec : MumbleCodec)

/-- One turn of `mumble_message_loop`. -/
def messageEvents (session : UInt32) (m : MumbleMessage) : List HandlerEvent :=
  match MessageType.fromU16 m.msgType with
  | some .ping => [.mumblePing session m.payload]
  | some .udpTunnel => [.mumbleVoice session m.payload]
  | some .textMessage =>
    match codec.textMessage m.payload with
    | some ⟨some message, targetSessions, targetTreeIds⟩ =>
      [.mumbleChat session message targetSessions targetTreeIds]
    | _ => []
  | some .userState =>
    match codec.userState m.payload with
    | some userState =>
      userState.channelId.toList.map (fun c => .bridge (.mumbleChannelChange session c)) ++
        if userState.selfMute.isSome || userState.selfDeaf.isSome then
          [.bridge (.mumbleMuteDeafChange session userState.selfMute userState.selfDeaf)]
        else []
    | none => []
  | _ => []

/-- `mumble_message_loop`; it ends with the first read that fails. -/
def mumbleMessageLoop (session : UInt32) : Nat → RecvStream → List HandlerEvent
  | 0, _ => []
  | n + 1, recv =>
    match readMessage recv with
    | .error _ => []
    | .ok (m, recv) => messageEvents codec session m ++ mumbleMessageLoop session n recv

/-- The first loop of `mumble_auth_handshake`, until an `Authenticate` message; an empty name is
rejected. -/
def awaitAuthenticate : Nat → RecvStream → Option (String × RecvStream)
  | 0, _ => none
  | n + 1, recv =>
    match readMessage recv with
    | .error _ => none
    | .ok (m, recv) =>
      if MessageType.fromU16 m.msgType = some .authenticate then do
        let auth ← codec.authenticate m.payload
        let username := auth.getD ""
        if username = "" then none else some (username, recv)
      else awaitAuthenticate n recv

/-- `mumble_auth_handshake`: the name, the session and the one it supersedes. `bridge` is the state
under the lock; `greeted` says that what follows is written to the client in time. -/
def mumbleAuthHandshake (n : Nat) (bridge : BridgeState) (greeted : Bool) (recv : RecvStream) :
    Option ((String × UInt32 × Option UInt32) × RecvStream) := do
  let (username, recv) ← awaitAuthenticate codec n recv
  let (session, superseded) ← (bridge.registerClient username).1
  if greeted then some ((username, session, superseded), recv) else none

/-- `handle_mumble_client`: the events that it sends to the loop of the bridge. `authPatience` and
`patience` are the messages that its two loops take at most. -/
def handleMumbleClient (authPatience patience : Nat) (bridge : BridgeState) (greeted : Bool)
    (recv : RecvStream) : List HandlerEvent :=
  match mumbleAuthHandshake codec authPatience bridge greeted recv with
  | none => []
  | some ((username, session, superseded), recv) =>
    superseded.toList.map (fun old => .bridge (.mumbleClientLeft old)) ++
      [.bridge (.mumbleClientJoined session username), .bridge (.mumbleClientSender session)] ++
      mumbleMessageLoop codec session patience recv ++ [.bridge (.mumbleClientLeft session)]

end Handler

/-! ## Integers -/

theorem fromBeBytes_concat (l : List UInt8) (b : UInt8) :
    fromBeBytes (l ++ [b]) = fromBeBytes l * 256 + b.toNat := by
  rw [fromBeBytes, List.foldl_append]
  rfl

theorem fromBeBytes_beBytes {n v : Nat} (h : v < 256 ^ n) : fromBeBytes (beBytes n v) = v := by
  induction n generalizing v with
  | zero =>
    rw [Nat.pow_zero] at h
    obtain rfl : v = 0 := by omega
    rfl
  | succ n ih =>
    rw [Nat.pow_succ, Nat.mul_comm] at h
    rw [beBytes, fromBeBytes_concat, ih (Nat.div_lt_of_lt_mul h), UInt8.toNat_ofNat']
    omega

theorem fromBeBytes_lt (l : List UInt8) : fromBeBytes l < 256 ^ l.length := by
  induction l using List.reverseRecOn with
  | nil => decide
  | append_singleton l b ih =>
    have hb : b.toNat < 256 := b.toNat_lt
    rw [fromBeBytes_concat, List.length_append, List.length_singleton, Nat.pow_succ]
    omega

theorem beBytes_fromBeBytes {n : Nat} {l : List UInt8} (h : l.length = n) :
    beBytes n (fromBeBytes l) = l := by
  induction l using List.reverseRecOn generalizing n with
  | nil =>
    subst h
    rfl
  | append_singleton l b ih =>
    have hb : b.toNat < 256 := b.toNat_lt
    rw [List.length_append, List.length_singleton] at h
    rw [← h, fromBeBytes_concat, beBytes,
      show (fromBeBytes l * 256 + b.toNat) / 256 = fromBeBytes l by omega, ih rfl,
      show (fromBeBytes l * 256 + b.toNat) % 256 = b.toNat by omega, UInt8.ofNat_toNat]

/-! ## One message -/

/-- A message that a reader takes. -/
def MumbleMessage.Fits (m : MumbleMessage) : Prop := m.payload.length ≤ maxMessageSize

instance (m : MumbleMessage) : Decidable m.Fits := inferInstanceAs (Decidable (_ ≤ _))

/-- The length that the bytes of a frame announce. -/
def announcedLength (bytes : List UInt8) : Nat := fromBeBytes ((bytes.drop 2).take 4)

/-- The bytes are not those of a frame: there are too few of them, or they announce too much. -/
inductive Unreadable (bytes : List UInt8) : String → Prop where
  | short (h : bytes.length < 6) : Unreadable bytes earlyEof
  | cut (h : announcedLength bytes ≤ maxMessageSize)
      (hcut : bytes.length < 6 + announcedLength bytes) : Unreadable bytes earlyEof
  | tooLarge (h : 6 ≤ bytes.length) (hlarge : maxMessageSize < announcedLength bytes) :
      Unreadable bytes (messageTooLarge (announcedLength bytes))

theorem unreadable_or (bytes : List UInt8) : (∃ e, Unreadable bytes e) ∨
    6 ≤ bytes.length ∧ announcedLength bytes ≤ maxMessageSize ∧
      6 + announcedLength bytes ≤ bytes.length := by
  by_cases hsix : bytes.length < 6
  · exact .inl ⟨_, .short hsix⟩
  by_cases hlarge : maxMessageSize < announcedLength bytes
  · exact .inl ⟨_, .tooLarge (Nat.not_lt.mp hsix) hlarge⟩
  by_cases hcut : bytes.length < 6 + announcedLength bytes
  · exact .inl ⟨_, .cut (Nat.not_lt.mp hlarge) hcut⟩
  exact .inr ⟨Nat.not_lt.mp hsix, Nat.not_lt.mp hlarge, Nat.not_lt.mp hcut⟩

theorem length_frame (m : MumbleMessage) : m.frame.length = 6 + m.payload.length := by
  rw [MumbleMessage.frame, List.length_append, List.length_append, length_beBytes, length_beBytes]

/-- The read of the two fields in front. -/
theorem readExact_fields {recv : RecvStream} (h : 6 ≤ recv.flatten.length) :
    ∃ rest rest', readExact 2 recv = .ok (recv.flatten.take 2, rest) ∧
      readExact 4 rest = .ok ((recv.flatten.drop 2).take 4, rest') ∧
      rest'.flatten = recv.flatten.drop 6 := by
  obtain ⟨rest, htype, hrest⟩ := readExact_ok (Nat.le_trans (show 2 ≤ 6 by decide) h)
  have hfour : 4 ≤ rest.flatten.length := by
    rw [hrest, List.length_drop]
    omega
  obtain ⟨rest', hlen, hrest'⟩ := readExact_ok hfour
  rw [hrest] at hlen hrest'
  exact ⟨rest, rest', htype, hlen, by rw [hrest', List.drop_drop]⟩

theorem readMessage_ok {recv : RecvStream} (h : 6 ≤ recv.flatten.length)
    (hfits : announcedLength recv.flatten ≤ maxMessageSize)
    (hlong : 6 + announcedLength recv.flatten ≤ recv.flatten.length) :
    ∃ rest, readMessage recv = .ok (⟨.ofNat (fromBeBytes (recv.flatten.take 2)),
        (recv.flatten.drop 6).take (announcedLength recv.flatten)⟩, rest) ∧
      rest.flatten = recv.flatten.drop (6 + announcedLength recv.flatten) := by
  obtain ⟨rest, rest', htype, hlen, hrest'⟩ := readExact_fields h
  have hpresent : announcedLength recv.flatten ≤ rest'.flatten.length := by
    rw [hrest', List.length_drop]
    omega
  obtain ⟨rest'', hpayload, hrest''⟩ := readExact_ok hpresent
  rw [hrest'] at hpayload hrest''
  refine ⟨rest'', ?_, by rw [hrest'', List.drop_drop]⟩
  rw [announcedLength] at hfits hpayload ⊢
  simp only [readMessage, htype, hlen, hpayload, Except.mapError, bind, Except.bind,
    if_neg (Nat.not_lt.mpr hfits), pure, Except.pure]

theorem readMessage_short {recv : RecvStream} (h : recv.flatten.length < 6) :
    readMessage recv = .error earlyEof := by
  by_cases htwo : recv.flatten.length < 2
  · obtain ⟨offset, htype⟩ := readExact_error htwo
    simp only [readMessage, htype, Except.mapError, bind, Except.bind]
  · obtain ⟨rest, htype, hrest⟩ := readExact_ok (Nat.not_lt.mp htwo)
    have hfour : rest.flatten.length < 4 := by
      rw [hrest, List.length_drop]
      omega
    obtain ⟨offset, hlen⟩ := readExact_error hfour
    simp only [readMessage, htype, hlen, Except.mapError, bind, Except.bind]

theorem readMessage_unreadable {recv : RecvStream} {e : String} (h : Unreadable recv.flatten e) :
    readMessage recv = .error e := by
  cases h with
  | short h => exact readMessage_short h
  | cut hfits hcut =>
    by_cases hsix : recv.flatten.length < 6
    · exact readMessage_short hsix
    · obtain ⟨rest, rest', htype, hlen, hrest'⟩ := readExact_fields (Nat.not_lt.mp hsix)
      have habsent : rest'.flatten.length < announcedLength recv.flatten := by
        rw [hrest', List.length_drop]
        omega
      obtain ⟨offset, hpayload⟩ := readExact_error habsent
      rw [announcedLength] at hfits hpayload
      simp only [readMessage, htype, hlen, hpayload, Except.mapError, bind, Except.bind,
        if_neg (Nat.not_lt.mpr hfits)]
  | tooLarge hsix hlarge =>
    obtain ⟨rest, rest', htype, hlen, _⟩ := readExact_fields hsix
    rw [announcedLength] at hlarge ⊢
    simp only [readMessage, htype, hlen, Except.mapError, bind, Except.bind, if_pos hlarge,
      throw, throwThe, MonadExceptOf.throw]

theorem announcedLength_frame {m : MumbleMessage} (h : m.Fits) (rest : List UInt8) :
    announcedLength (m.frame ++ rest) = m.payload.length := by
  have hlen : m.payload.length < 256 ^ 4 := Nat.lt_of_le_of_lt h (by decide)
  rw [announcedLength, MumbleMessage.frame, List.append_assoc, List.append_assoc,
    List.drop_left' (length_beBytes _ _), List.take_left' (length_beBytes _ _),
    fromBeBytes_beBytes hlen]

theorem readMessage_frame {recv : RecvStream} {m : MumbleMessage} {rest : List UInt8}
    (h : m.Fits) (hrecv : recv.flatten = m.frame ++ rest) :
    ∃ recv', readMessage recv = .ok (m, recv') ∧ recv'.flatten = rest := by
  have hlen : announcedLength recv.flatten = m.payload.length := by
    rw [hrecv, announcedLength_frame h]
  have hlong : 6 + m.payload.length ≤ recv.flatten.length := by
    rw [hrecv, List.length_append, length_frame]
    omega
  have hsix : 6 ≤ recv.flatten.length := Nat.le_of_add_right_le hlong
  obtain ⟨recv', hread, hrest⟩ := readMessage_ok hsix (hlen.trans_le h) (by rwa [hlen])
  rw [hlen] at hread hrest
  refine ⟨recv', ?_, ?_⟩
  · have htype : recv.flatten.take 2 = beBytes 2 m.msgType.toNat := by
      rw [hrecv, MumbleMessage.frame, List.append_assoc, List.append_assoc,
        List.take_left' (length_beBytes _ _)]
    have hpayload : (recv.flatten.drop 6).take m.payload.length = m.payload := by
      rw [hrecv, MumbleMessage.frame, List.append_assoc, List.drop_left' (by
        rw [List.length_append, length_beBytes, length_beBytes]), List.take_left]
    rw [hread, htype, hpayload, fromBeBytes_beBytes m.msgType.toNat_lt, UInt16.ofNat_toNat]
  · rw [hrest, hrecv, List.drop_left' (length_frame m)]

theorem of_readMessage {recv recv' : RecvStream} {m : MumbleMessage}
    (h : readMessage recv = .ok (m, recv')) : m.Fits ∧ recv.flatten = m.frame ++ recv'.flatten := by
  obtain ⟨e, hu⟩ | ⟨hsix, hfits, hlong⟩ := unreadable_or recv.flatten
  · cases h.symm.trans (readMessage_unreadable hu)
  obtain ⟨rest, hok, hrest⟩ := readMessage_ok hsix hfits hlong
  obtain ⟨rfl, rfl⟩ := Prod.mk.inj (Except.ok.inj (h.symm.trans hok))
  have hpayload : ((recv.flatten.drop 6).take (announcedLength recv.flatten)).length =
      announcedLength recv.flatten := by
    rw [List.length_take, List.length_drop]
    omega
  have htwo : (recv.flatten.take 2).length = 2 := by
    rw [List.length_take]
    omega
  have hfour : ((recv.flatten.drop 2).take 4).length = 4 := by
    rw [List.length_take, List.length_drop]
    omega
  have htype : beBytes 2 (UInt16.ofNat (fromBeBytes (recv.flatten.take 2))).toNat =
      recv.flatten.take 2 := by
    have hlt := fromBeBytes_lt (recv.flatten.take 2)
    rw [htwo] at hlt
    rw [UInt16.toNat_ofNat_of_lt' hlt, beBytes_fromBeBytes htwo]
  have hlen : beBytes 4 (announcedLength recv.flatten) = (recv.flatten.drop 2).take 4 :=
    beBytes_fromBeBytes hfour
  have hsplit : recv.flatten.drop 6 = (recv.flatten.drop 2).drop 4 := by rw [List.drop_drop]
  refine ⟨hpayload.trans_le hfits, ?_⟩
  rw [MumbleMessage.frame, htype, hpayload, hlen, hrest, ← List.drop_drop, List.append_assoc,
    List.take_append_drop, List.append_assoc, hsplit, List.take_append_drop,
    List.take_append_drop]

theorem readMessage_eq_error {recv : RecvStream} {e : String} :
    readMessage recv = .error e ↔ Unreadable recv.flatten e := by
  refine ⟨fun h => ?_, readMessage_unreadable⟩
  obtain ⟨e', hu⟩ | ⟨hsix, hfits, hlong⟩ := unreadable_or recv.flatten
  · obtain rfl := Except.error.inj (h.symm.trans (readMessage_unreadable hu))
    exact hu
  · obtain ⟨rest, hok, _⟩ := readMessage_ok hsix hfits hlong
    cases h.symm.trans hok

/-- **The reader of a Mumble connection.** -/
def mumbleReader : Reader RecvStream UInt8 MumbleMessage String where
  read := readMessage
  view := List.flatten
  enc := MumbleMessage.frame
  Good := MumbleMessage.Fits
  Fails := Unreadable
  exists_view l := ⟨[l], List.flatten_singleton⟩
  enc_ne_nil m h := by
    have := length_frame m
    rw [h, List.length_nil] at this
    omega
  reads := readMessage_frame
  sound := of_readMessage
  fails := readMessage_eq_error

/-! ## Frames on a connection -/

/-- **What arrives in full is read.** Messages within the limit are written, and a beginning of
their bytes arrives, in any pieces. A loop of reads gets the messages of which all bytes arrived, in
order. -/
theorem framed_run {sent : List MumbleMessage} (hfits : ∀ m ∈ sent, m.Fits) {recv : RecvStream}
    (hcut : recv.flatten <+: sent.flatMap MumbleMessage.frame) :
    ∃ k, (∀ n, mumbleReader.messages n recv = (sent.take k).take n) ∧
      ((sent.take k).flatMap MumbleMessage.frame).length ≤ recv.flatten.length ∧
      (k < sent.length →
        recv.flatten.length < ((sent.take (k + 1)).flatMap MumbleMessage.frame).length) := by
  obtain ⟨ms, e, h⟩ := mumbleReader.exists_holds recv
  obtain ⟨hbegin, hshort⟩ := h.of_cut hfits hcut
  have htake : sent.take ms.length = ms := (List.prefix_iff_eq_take.mp hbegin).symm
  obtain ⟨tail, hview, _⟩ := h.stops
  refine ⟨ms.length, fun n => ?_, ?_, hshort⟩
  · rw [htake]
    exact h.messages_eq n
  · have hlen := congrArg List.length hview
    rw [List.length_append] at hlen
    rw [htake]
    exact Nat.le_of_add_right_le hlen.ge

/-- A ping, and voice of which the last byte is missing. -/
def sampleSent : List MumbleMessage := [⟨3, [8, 1]⟩, ⟨1, [128, 0]⟩]

def sampleArrived : RecvStream := [[0], [3, 0, 0, 0], [2, 8, 1, 0, 1, 0, 0, 0, 2, 128]]

theorem framed_run_sample :
    ∃ k, (∀ n, mumbleReader.messages n sampleArrived = (sampleSent.take k).take n) ∧
      ((sampleSent.take k).flatMap MumbleMessage.frame).length ≤ sampleArrived.flatten.length ∧
      (k < sampleSent.length → sampleArrived.flatten.length <
        ((sampleSent.take (k + 1)).flatMap MumbleMessage.frame).length) :=
  framed_run (by decide) ⟨[0], by decide +kernel⟩

/-! ## Messages and events -/

section Served

variable {codec : MumbleCodec} {recv : RecvStream} {ms : List MumbleMessage} {e : String}

theorem mumbleMessageLoop_eq (h : mumbleReader.Holds recv ms e) (session : UInt32) (n : Nat) :
    mumbleMessageLoop codec session n recv = (ms.take n).flatMap (messageEvents codec session) := by
  induction n generalizing recv ms with
  | zero => rfl
  | succ n ih =>
    cases ms with
    | nil =>
      have hread : readMessage recv = .error e := h.read_nil
      rw [mumbleMessageLoop, hread, List.take_nil, List.flatMap_nil]
    | cons m ms =>
      obtain ⟨recv', hread, hrest⟩ := h.read_cons
      change readMessage recv = _ at hread
      rw [mumbleMessageLoop, hread, List.take_succ_cons, List.flatMap_cons, ← ih hrest]

/-- The first `Authenticate` message is among the first `n` and has a name; `rest` follows it. -/
structure Authenticates (codec : MumbleCodec) (n : Nat) (ms : List MumbleMessage)
    (username : String) (rest : List MumbleMessage) : Prop where
  first : ∃ opening login, ms = opening ++ login :: rest ∧ opening.length < n ∧
    (∀ m ∈ opening, MessageType.fromU16 m.msgType ≠ some .authenticate) ∧
    MessageType.fromU16 login.msgType = some .authenticate ∧
    (codec.authenticate login.payload).map (·.getD "") = some username
  named : username ≠ ""

theorem Authenticates.awaitAuthenticate {n : Nat} {username : String} {rest : List MumbleMessage}
    (ha : Authenticates codec n ms username rest) (h : mumbleReader.Holds recv ms e) :
    ∃ recv', awaitAuthenticate codec n recv = some (username, recv') ∧
      mumbleReader.Holds recv' rest e := by
  obtain ⟨⟨opening, login, rfl, hlen, hopening, hlogin, hname⟩, hnamed⟩ := ha
  induction opening generalizing n recv with
  | nil =>
    obtain ⟨n, rfl⟩ := Nat.exists_eq_succ_of_ne_zero (Nat.ne_zero_of_lt hlen)
    obtain ⟨recv', hread, hrest⟩ := h.read_cons
    change readMessage recv = _ at hread
    obtain ⟨auth, hauth, rfl⟩ := Option.map_eq_some_iff.mp hname
    refine ⟨recv', ?_, hrest⟩
    simp only [Bridge.awaitAuthenticate, hread, if_pos hlogin, hauth, bind, Option.bind,
      if_neg hnamed]
  | cons m opening ih =>
    obtain ⟨n, rfl⟩ := Nat.exists_eq_succ_of_ne_zero (Nat.ne_zero_of_lt hlen)
    obtain ⟨recv', hread, hrest⟩ := h.read_cons
    change readMessage recv = _ at hread
    obtain ⟨hm, hopening⟩ := List.forall_mem_cons.mp hopening
    simp only [Bridge.awaitAuthenticate, hread, if_neg hm]
    exact ih hrest (Nat.lt_of_succ_lt_succ hlen) hopening

theorem authenticates_of_awaitAuthenticate {n : Nat} {username : String} {recv' : RecvStream}
    (h : mumbleReader.Holds recv ms e)
    (hawait : awaitAuthenticate codec n recv = some (username, recv')) :
    ∃ rest, Authenticates codec n ms username rest := by
  induction n generalizing recv ms with
  | zero => cases hawait
  | succ n ih =>
    cases ms with
    | nil =>
      have hread : readMessage recv = .error e := h.read_nil
      simp only [awaitAuthenticate, hread] at hawait
      cases hawait
    | cons m ms =>
      obtain ⟨recv₁, hread, hrest⟩ := h.read_cons
      change readMessage recv = _ at hread
      simp only [awaitAuthenticate, hread] at hawait
      split at hawait
      · rename_i hlogin
        obtain ⟨auth, hauth, hawait⟩ := Option.bind_eq_some_iff.mp hawait
        split at hawait
        · cases hawait
        · rename_i hnamed
          obtain ⟨rfl, rfl⟩ := Prod.mk.inj (Option.some.inj hawait)
          exact ⟨ms, ⟨[], m, rfl, Nat.succ_pos n, fun m hm => absurd hm List.not_mem_nil, hlogin,
            by rw [hauth, Option.map_some]⟩, hnamed⟩
      · rename_i hother
        obtain ⟨rest, ⟨opening, login, rfl, hlen, hopening, hlogin, hname⟩, hnamed⟩ :=
          ih hrest hawait
        exact ⟨rest, ⟨m :: opening, login, rfl, Nat.succ_lt_succ hlen,
          List.forall_mem_cons.mpr ⟨hother, hopening⟩, hlogin, hname⟩, hnamed⟩

/-- The bridge accepts a client: it authenticates, its name is free, and it is greeted. -/
structure Accepted (codec : MumbleCodec) (authPatience : Nat) (bridge : BridgeState)
    (greeted : Bool) (ms : List MumbleMessage) (username : String) (session : UInt32)
    (superseded : Option UInt32) (rest : List MumbleMessage) : Prop where
  authenticates : Authenticates codec authPatience ms username rest
  registered : (bridge.registerClient username).1 = some (session, superseded)
  greeted : greeted = true

/-- The events of an accepted client: the end of a superseded session, the client, what its messages
ask for, and its end. -/
def clientEvents (codec : MumbleCodec) (username : String) (session : UInt32)
    (superseded : Option UInt32) (taken : List MumbleMessage) : List HandlerEvent :=
  superseded.toList.map (fun old => .bridge (.mumbleClientLeft old)) ++
    [.bridge (.mumbleClientJoined session username), .bridge (.mumbleClientSender session)] ++
    taken.flatMap (messageEvents codec session) ++ [.bridge (.mumbleClientLeft session)]

/-- **A handler serves the messages that arrive in full.** Every stream, in whatever pieces it
arrives, holds one list of messages. When the bridge accepts the client for them, the events are
those of the client and, message by message, of what follows its login; and otherwise there are
none. Of a client that keeps to the limit these messages are a beginning of what it sent. -/
theorem served_run (codec : MumbleCodec) (authPatience patience : Nat) (bridge : BridgeState)
    (greeted : Bool) (recv : RecvStream) :
    ∃ ms e, (∀ ms' e', mumbleReader.Holds recv ms' e' ↔ ms' = ms ∧ e' = e) ∧
      (∀ sent : List MumbleMessage, (∀ m ∈ sent, m.Fits) →
        recv.flatten <+: sent.flatMap MumbleMessage.frame → ms <+: sent) ∧
      (∀ username session superseded rest,
        Accepted codec authPatience bridge greeted ms username session superseded rest →
          handleMumbleClient codec authPatience patience bridge greeted recv =
            clientEvents codec username session superseded (rest.take patience)) ∧
      ((¬ ∃ username session superseded rest,
        Accepted codec authPatience bridge greeted ms username session superseded rest) →
          handleMumbleClient codec authPatience patience bridge greeted recv = []) := by
  obtain ⟨ms, e, h⟩ := mumbleReader.exists_holds recv
  refine ⟨ms, e, fun _ _ => h.iff, fun sent hfits hcut => (h.of_cut hfits hcut).1, ?_, ?_⟩
  · intro username session superseded rest haccepted
    obtain ⟨recv', hawait, hrest⟩ := haccepted.authenticates.awaitAuthenticate h
    have hhandshake : mumbleAuthHandshake codec authPatience bridge greeted recv =
        some ((username, session, superseded), recv') := by
      simp only [mumbleAuthHandshake, hawait, bind, Option.bind, haccepted.registered,
        haccepted.greeted, if_pos]
    rw [handleMumbleClient, hhandshake]
    dsimp only
    rw [mumbleMessageLoop_eq hrest]
    rfl
  · intro hnone
    cases hhandshake : mumbleAuthHandshake codec authPatience bridge greeted recv with
    | none => rw [handleMumbleClient, hhandshake]
    | some login =>
      refine absurd ?_ hnone
      obtain ⟨⟨username, recv'⟩, hawait, hlogin⟩ := Option.bind_eq_some_iff.mp hhandshake
      obtain ⟨⟨session, superseded⟩, hregistered, hlogin⟩ := Option.bind_eq_some_iff.mp hlogin
      obtain ⟨rest, hauthenticates⟩ := authenticates_of_awaitAuthenticate h hawait
      refine ⟨username, session, superseded, rest, hauthenticates, hregistered, ?_⟩
      cases greeted with
      | false => cases hlogin
      | true => rfl

end Served

/-! A client logs in as "a" and pings, in three pieces. -/
example : handleMumbleClient ⟨fun _ => some (some "a"), fun _ => none, fun _ => none⟩ 9 9 .new true
    [[0, 2, 0], [0, 0, 0, 0, 3, 0, 0], [0, 1, 7, 0]] =
    [.bridge (.mumbleClientJoined 1000 "a"), .bridge (.mumbleClientSender 1000),
      .mumblePing 1000 [7], .bridge (.mumbleClientLeft 1000)] := by
  decide +kernel

/-! ## The handler in the system -/

/-- The events that the loop's model takes. -/
def HandlerEvent.loop : HandlerEvent → Option BridgeEvent
  | .bridge e => some e
  | _ => none

/-- The move of a client's task that sends the event. -/
def HandlerEvent.move (i : Nat) : HandlerEvent → Option BridgeMove
  | .bridge (.mumbleChannelChange _ channelId) => some (.changeChannel i channelId)
  | .bridge (.mumbleMuteDeafChange _ isMuted isDeafened) =>
    some (.changeMuteDeaf i isMuted isDeafened)
  | _ => none

/-- What a message of the client of a session can ask for. -/
def HandlerEvent.Asks (session : UInt32) : HandlerEvent → Prop
  | .bridge (.mumbleChannelChange sender _) => sender = session
  | .bridge (.mumbleMuteDeafChange sender _ _) => sender = session
  | .bridge _ => False
  | .mumblePing _ _ | .mumbleVoice _ _ | .mumbleChat _ _ _ _ => True

theorem asks_messageEvents (codec : MumbleCodec) (session : UInt32) (m : MumbleMessage) :
    ∀ event ∈ messageEvents codec session m, event.Asks session := by
  unfold messageEvents
  split
  · exact fun event h => by cases List.mem_singleton.mp h; trivial
  · exact fun event h => by cases List.mem_singleton.mp h; trivial
  · split
    · exact fun event h => by cases List.mem_singleton.mp h; trivial
    · exact fun event h => absurd h List.not_mem_nil
  · split
    · intro event h
      rcases List.mem_append.mp h with h | h
      · obtain ⟨channelId, _, rfl⟩ := List.mem_map.mp h
        rfl
      · split at h
        · cases List.mem_singleton.mp h
          rfl
        · exact absurd h List.not_mem_nil
    · exact fun event h => absurd h List.not_mem_nil
  · exact fun event h => absurd h List.not_mem_nil

namespace BridgeSystem

variable {s : BridgeSystem} {i : Nat} {session : UInt32}

theorem setHandler_eq {todo todo' : List HandlerStep} {started : Bool}
    (h : s.handlers[i]? = some ⟨session, todo, started⟩) :
    s.setHandler i todo' = { s with handlers := s.handlers.set i ⟨session, todo', true⟩ } := by
  rw [setHandler, List.modify_eq_set_getElem?, h]
  rfl

/-- A task sends what it has to send. -/
theorem foldl_sends {e : BridgeEvent} {es : List BridgeEvent} {rest : List HandlerStep}
    {started : Bool}
    (h : s.handlers[i]? = some ⟨session, (e :: es).map .send ++ rest, started⟩) :
    (List.replicate (es.length + 1) (.handler i)).foldl step s =
      { s with
        handlers := s.handlers.set i ⟨session, rest, true⟩
        events := s.events ++ e :: es } := by
  induction es generalizing s e started with
  | nil =>
    rw [List.length_nil, List.replicate_one, List.foldl_cons, List.foldl_nil]
    simp only [step, h, List.map_cons, List.map_nil, List.cons_append, List.nil_append,
      setHandler_eq h]
  | cons e' es ih =>
    have hi : i < s.handlers.length := (List.getElem?_eq_some_iff.mp h).1
    have hstep : s.step (.handler i) =
        { s with
          handlers := s.handlers.set i ⟨session, (e' :: es).map .send ++ rest, true⟩
          events := s.events ++ [e] } := by
      simp only [step, h, List.map_cons, List.cons_append, setHandler_eq h]
    rw [List.length_cons, List.replicate_succ, List.foldl_cons, hstep,
      ih (List.getElem?_set_self hi)]
    simp only [List.set_set, List.append_assoc, List.cons_append, List.nil_append]

/-- A task that has announced its client sends what the client asks for. -/
theorem foldl_asked {started : Bool} (h : s.handlers[i]? = some ⟨session, [], started⟩)
    {events : List HandlerEvent} (hasks : ∀ event ∈ events, event.Asks session) :
    (events.filterMap (HandlerEvent.move i)).foldl step s =
      { s with events := s.events ++ events.filterMap HandlerEvent.loop } := by
  induction events generalizing s with
  | nil =>
    rw [List.filterMap_nil, List.filterMap_nil, List.append_nil]
    rfl
  | cons event events ih =>
    obtain ⟨hevent, hrest⟩ := List.forall_mem_cons.mp hasks
    have hmove : ∀ {m e}, event.move i = some m → event.loop = some e →
        s.step m = { s with events := s.events ++ [e] } →
        ((event :: events).filterMap (HandlerEvent.move i)).foldl step s =
          { s with events := s.events ++ (event :: events).filterMap HandlerEvent.loop } := by
      intro m e hm he hstep
      rw [List.filterMap_cons_some hm, List.filterMap_cons_some he, List.foldl_cons, hstep,
        ih (s := { s with events := s.events ++ [e] }) h hrest, List.append_assoc,
        List.singleton_append]
    cases event with
    | bridge e =>
      cases e with
      | mumbleChannelChange sender channelId =>
        obtain rfl : sender = session := hevent
        exact hmove rfl rfl (by simp only [step, message, h])
      | mumbleMuteDeafChange sender isMuted isDeafened =>
        obtain rfl : sender = session := hevent
        exact hmove rfl rfl (by simp only [step, message, h])
      | mumbleClientJoined | mumbleClientLeft | mumbleClientSender | rumbleEnvelope =>
        exact hevent.elim
    | mumblePing | mumbleVoice | mumbleChat => exact ih h hrest

/-- The moves of one client, from its login to its end. -/
def clientMoves (i : Nat) (username : String) (superseded : Option UInt32)
    (asked : List HandlerEvent) : List BridgeMove :=
  .handshake username :: List.replicate (superseded.toList.length + 2) (.handler i) ++
    asked.filterMap (HandlerEvent.move i) ++ [.hangUp i, .handler i, .handler i]

theorem step_removeClient {todo : List HandlerStep} {started : Bool}
    (h : s.handlers[i]? = some ⟨session, .removeClient :: todo, started⟩) :
    s.step (.handler i) =
      { s with
        bridge := s.bridge.removeClient session
        handlers := s.handlers.set i ⟨session, todo, true⟩ } := by
  simp only [step, h, setHandler_eq h]

/-- The end of a client, once its task has nothing left to send. -/
theorem foldl_hangUp {started : Bool} (h : s.handlers[i]? = some ⟨session, [], started⟩) :
    [.hangUp i, .handler i, .handler i].foldl step s =
      { s with
        bridge := s.bridge.removeClient session
        handlers := s.handlers.set i ⟨session, [], true⟩
        events := s.events ++ [.mumbleClientLeft session] } := by
  have hi : i < s.handlers.length := (List.getElem?_eq_some_iff.mp h).1
  have hleft : s.step (.hangUp i) = { s with
      handlers := s.handlers.set i
        ⟨session, [.send (.mumbleClientLeft session), .removeClient], true⟩ } := by
    simp only [step, h, setHandler_eq h]
  have hsent : (s.step (.hangUp i)).step (.handler i) = { s with
      handlers := s.handlers.set i ⟨session, [.removeClient], true⟩
      events := s.events ++ [.mumbleClientLeft session] } := by
    have hget : (s.step (.hangUp i)).handlers[i]? = some ⟨session,
        [BridgeEvent.mumbleClientLeft session].map .send ++ [.removeClient], true⟩ := by
      rw [hleft]
      exact List.getElem?_set_self hi
    refine (foldl_sends hget).trans ?_
    rw [hleft]
    simp only [List.set_set]
  rw [List.foldl_cons, List.foldl_cons, List.foldl_cons, List.foldl_nil, hsent,
    step_removeClient (List.getElem?_set_self hi)]
  simp only [List.set_set]

theorem filterMap_clientEvents (codec : MumbleCodec) (username : String) (session : UInt32)
    (superseded : Option UInt32) (taken : List MumbleMessage) :
    (clientEvents codec username session superseded taken).filterMap HandlerEvent.loop =
      superseded.toList.map BridgeEvent.mumbleClientLeft ++
        [.mumbleClientJoined session username, .mumbleClientSender session] ++
        (taken.flatMap (messageEvents codec session)).filterMap HandlerEvent.loop ++
        [.mumbleClientLeft session] := by
  rw [clientEvents, List.filterMap_append, List.filterMap_append, List.filterMap_append,
    List.filterMap_map]
  congr 3
  cases superseded with
  | none => rfl
  | some old => rfl

/-- **The system's moves send the handler's events.** -/
theorem foldl_clientMoves {codec : MumbleCodec} {username : String} {superseded : Option UInt32}
    (hregistered : (s.bridge.registerClient username).1 = some (session, superseded))
    (taken : List MumbleMessage) :
    (clientMoves s.handlers.length username superseded
      (taken.flatMap (messageEvents codec session))).foldl step s =
      { s with
        bridge := (s.bridge.registerClient username).2.removeClient session
        handlers := s.handlers ++ [⟨session, [], true⟩]
        events := s.events ++ (clientEvents codec username session superseded taken).filterMap
          HandlerEvent.loop } := by
  obtain ⟨e, es, hes, hlen⟩ : ∃ e es, superseded.toList.map BridgeEvent.mumbleClientLeft ++
      [.mumbleClientJoined session username, .mumbleClientSender session] = e :: es ∧
      superseded.toList.length + 2 = es.length + 1 := by
    cases superseded with
    | none => exact ⟨_, _, rfl, rfl⟩
    | some old => exact ⟨_, _, rfl, rfl⟩
  have hset : ∀ todo started,
      (s.handlers ++ [(⟨session, todo, started⟩ : MumbleHandler)]).set s.handlers.length
        ⟨session, [], true⟩ = s.handlers ++ [⟨session, [], true⟩] := fun todo started => by
    rw [List.set_append_right _ _ le_rfl, Nat.sub_self, List.set_cons_zero]
  have hlogin : s.step (.handshake username) = { s with
      bridge := (s.bridge.registerClient username).2
      handlers := s.handlers ++ [⟨session, (e :: es).map .send ++ [], false⟩] } := by
    rw [step, ← hes]
    cases hreg : s.bridge.registerClient username with
    | mk answer bridge =>
      rw [hreg] at hregistered
      subst hregistered
      simp
  have hget : ∀ todo started,
      (s.handlers ++ [(⟨session, todo, started⟩ : MumbleHandler)])[s.handlers.length]? =
        some ⟨session, todo, started⟩ := fun todo started => List.getElem?_concat_length
  have hasks : ∀ event ∈ taken.flatMap (messageEvents codec session), event.Asks session := by
    intro event hevent
    obtain ⟨m, _, hm⟩ := List.mem_flatMap.mp hevent
    exact asks_messageEvents codec session m event hm
  have hannounced : (BridgeMove.handshake username ::
      List.replicate (es.length + 1) (.handler s.handlers.length)).foldl step s = { s with
      bridge := (s.bridge.registerClient username).2
      handlers := s.handlers ++ [⟨session, [], true⟩]
      events := s.events ++ e :: es } := by
    rw [List.foldl_cons, hlogin, foldl_sends (hget _ _)]
    dsimp only
    rw [hset]
  rw [clientMoves, hlen, List.foldl_append, List.foldl_append, hannounced,
    foldl_asked (hget _ _) hasks, foldl_hangUp (hget _ _)]
  dsimp only
  rw [hset, filterMap_clientEvents, hes, List.append_assoc, List.append_assoc, List.append_assoc]

end BridgeSystem

end Rumble.Bridge
