import Rumble.Bridge.Reconcile

/-!
# The bridge event loop

The parts of `mumble-bridge/src/bridge.rs`, `mumble_server.rs` and `main.rs` that read or write the
bridge state: the arms of the event loop, the registration of a Mumble client and its cleanup, and
the work done when the Rumble connection comes back. Voice, chat and pings are left out.
-/

namespace Rumble.Bridge

open Rumble.Lib

/-! ## Messages -/

/-- Requests to the Rumble server. -/
inductive BridgeRequest where
  | registerParticipant (username : String) (label : Option String)
  | unregisterParticipant (userId : UserId)
  | moveParticipant (userId : UserId) (roomId : RoomId)
  | setParticipantStatus (userId : UserId) (isMuted isDeafened : Bool)
  deriving DecidableEq

/-- What one step sends: to the Rumble server, or to Mumble clients. -/
inductive BridgeOutput where
  | request (r : BridgeRequest)
  | all (m : SyncMessage)
  | except (session : UInt32) (m : SyncMessage)
  | one (session : UInt32) (m : SyncMessage)
  deriving DecidableEq

/-- Frames from the Rumble server. -/
inductive RumbleEnvelope where
  | serverState (ss : ServerStateMsg)
  | stateUpdate (update : Option Update)
  | participantRegistered (userId : UserId) (username : String)
  | commandResult (command : String) (success : Bool)
  | other
  deriving DecidableEq

/-- The events of the loop. -/
inductive BridgeEvent where
  | mumbleClientJoined (session : UInt32) (username : String)
  | mumbleClientLeft (session : UInt32)
  | mumbleClientSender (session : UInt32)
  | mumbleChannelChange (session channelId : UInt32)
  | mumbleMuteDeafChange (session : UInt32) (isMuted isDeafened : Option Bool)
  | rumbleEnvelope (env : RumbleEnvelope)
  deriving DecidableEq

/-! ## State updates -/

/-- `get_or_insert` on a wire id, when it is well formed. -/
def ChannelMap.ofRoomId (m : ChannelMap) (roomId : Option RoomId) : Option UInt32 × ChannelMap :=
  match roomId.bind uuidFromRoomId with
  | some uuid =>
    let (channelId, m) := ChannelMap.getOrInsert m uuid
    (some channelId, m)
  | none => (none, m)

namespace BridgeState

def isVirtual (s : BridgeState) (userId : UserId) : Bool :=
  (s.reverseVirtualUserMap.get userId).isSome

def isPending (s : BridgeState) (username : String) : Bool :=
  s.pendingRegistrations.any fun p => p.1 == username

def handleUserJoined (s : BridgeState) (user : UserInfo) : BridgeState × List SyncMessage :=
  let rumbleId := user.userId.getD 0
  if some rumbleId = s.bridgeUserId then (s, [])
  else if s.isVirtual rumbleId then (s, [])
  -- the update can arrive before the reply to the registration
  else if s.isPending user.username then (s, [])
  else
    let (session, users) := UserMap.getOrInsert s.users rumbleId
    let (channelId, channels) := ChannelMap.ofRoomId s.channels user.currentRoom
    let s := { s with
      users := users
      channels := channels
      rumbleUsers := s.rumbleUsers ++ (User.fromProto user).toList }
    (s, [.userState
      { session := session
        actor := none
        name := some user.username
        channelId := some (channelId.getD 0)
        selfMute := some user.isMuted
        selfDeaf := some user.isDeafened }])

def handleUserLeft (s : BridgeState) (userId : Option UserId) : BridgeState × List SyncMessage :=
  let rumbleId := userId.getD 0
  if s.isVirtual rumbleId then (s, [])
  else
    ({ s with
        users := UserMap.removeByRumbleId s.users rumbleId
        rumbleUsers := s.rumbleUsers.filter fun u => u.userId ≠ rumbleId },
      (UserMap.getMumbleSession s.users rumbleId).toList.map fun session =>
        .userRemove session "Left")

def handleUserMoved (s : BridgeState) (userId : Option UserId) (toRoomId : Option RoomId) :
    BridgeState × List SyncMessage :=
  let rumbleId := userId.getD 0
  if s.isVirtual rumbleId then (s, [])
  else
    let (channelId, channels) := ChannelMap.ofRoomId s.channels toRoomId
    let s := { s with
      channels := channels
      rumbleUsers := modifyFirst (fun u => u.userId == rumbleId)
        (fun u => { u with currentRoom := (toRoomId.bind uuidFromRoomId).getD rootRoomUuid })
        s.rumbleUsers }
    (s, match UserMap.getMumbleSession s.users rumbleId, channelId with
      | some session, some channelId =>
        [.userState
          { session := session
            actor := none
            name := none
            channelId := some channelId
            selfMute := none
            selfDeaf := none }]
      | _, _ => [])

def handleUserStatusChanged (s : BridgeState) (userId : Option UserId) (isMuted isDeafened : Bool) :
    BridgeState × List SyncMessage :=
  let rumbleId := userId.getD 0
  if s.isVirtual rumbleId then (s, [])
  else
    ({ s with
        rumbleUsers := modifyFirst (fun u => u.userId == rumbleId)
          (fun u => { u with isMuted := isMuted, isDeafened := isDeafened }) s.rumbleUsers },
      (UserMap.getMumbleSession s.users rumbleId).toList.map fun session => .userState
        { session := session
          actor := none
          name := none
          channelId := none
          selfMute := some isMuted
          selfDeaf := some isDeafened })

def handleRoomCreated (s : BridgeState) (room : RoomInfo) : BridgeState × List SyncMessage :=
  match room.id.bind uuidFromRoomId with
  | none => (s, [])
  | some uuid =>
    let (channelId, channels) := ChannelMap.getOrInsert s.channels uuid
    let (parent, channels) := ChannelMap.ofRoomId channels room.parentId
    ({ s with
        channels := channels
        rumbleRooms := s.rumbleRooms ++ (Room.fromProto room).toList },
      [.channelState
        { channelId := channelId
          parent := some (parent.getD 0)
          name := some room.name
          description := room.description }])

def handleRoomDeleted (s : BridgeState) (roomId : Option RoomId) : BridgeState × List SyncMessage :=
  match roomId.bind uuidFromRoomId with
  | none => (s, [])
  | some uuid =>
    ({ s with
        channels := ChannelMap.removeByUuid s.channels uuid
        rumbleRooms := s.rumbleRooms.filter fun r => r.id ≠ uuid },
      (ChannelMap.getMumbleId s.channels uuid).toList.map SyncMessage.channelRemove)

/-- The room in the cache keeps its name. -/
def handleRoomRenamed (s : BridgeState) (roomId : Option RoomId) (newName : String) :
    BridgeState × List SyncMessage :=
  let channelId := (roomId.bind uuidFromRoomId).bind (ChannelMap.getMumbleId s.channels)
  (s, channelId.toList.map fun channelId => .channelState
    { channelId := channelId
      parent := none
      name := some newName
      description := none })

/-- The room in the cache keeps its parent. -/
def handleRoomMoved (s : BridgeState) (roomId newParentId : Option RoomId) :
    BridgeState × List SyncMessage :=
  let channelId := (roomId.bind uuidFromRoomId).bind (ChannelMap.getMumbleId s.channels)
  let parentId := (newParentId.bind uuidFromRoomId).bind (ChannelMap.getMumbleId s.channels)
  (s, match channelId, parentId with
    | some channelId, some parentId =>
      [.channelState
        { channelId := channelId
          parent := some parentId
          name := none
          description := none }]
    | _, _ => [])

def handleRoomDescriptionChanged (s : BridgeState) (roomId : Option RoomId) (description : String) :
    BridgeState × List SyncMessage :=
  let description := if description.isEmpty then none else some description
  match roomId.bind uuidFromRoomId with
  | none => (s, [])
  | some uuid =>
    ({ s with
        rumbleRooms := modifyFirst (fun r => r.id == uuid)
          (fun r => { r with description := description }) s.rumbleRooms },
      (ChannelMap.getMumbleId s.channels uuid).toList.map fun channelId => .channelState
        { channelId := channelId
          parent := none
          name := none
          description := description })

def handleStateUpdate (s : BridgeState) : Update → BridgeState × List SyncMessage
  | .userJoined (some user) => s.handleUserJoined user
  | .userJoined none => (s, [])
  | .userLeft userId => s.handleUserLeft userId
  | .userMoved userId toRoomId => s.handleUserMoved userId toRoomId
  | .userStatusChanged userId isMuted isDeafened _ _ =>
    s.handleUserStatusChanged userId isMuted isDeafened
  | .roomCreated (some room) => s.handleRoomCreated room
  | .roomCreated none => (s, [])
  | .roomDeleted roomId _ => s.handleRoomDeleted roomId
  | .roomRenamed roomId newName => s.handleRoomRenamed roomId newName
  | .roomMoved roomId newParentId => s.handleRoomMoved roomId newParentId
  | .roomDescriptionChanged roomId description =>
    s.handleRoomDescriptionChanged roomId description
  | .groupChanged _ _ => (s, [])
  | .userGroupChanged _ _ _ _ => (s, [])
  | .roomAclChanged _ _ _ => (s, [])

/-! ## Frames from the Rumble server -/

/-- The users that reconciliation must not show. -/
def skipRules (s : BridgeState) : SkipRules where
  bridgeUserId := s.bridgeUserId
  virtualUserIds := s.reverseVirtualUserMap.toPairs.map Prod.fst
  pendingUsernames := s.pendingRegistrations.map Prod.fst

/-- A full snapshot: the cache is replaced and the difference announced. -/
def handleServerState (s : BridgeState) (ss : ServerStateMsg) : BridgeState × List SyncMessage :=
  let newRooms := ss.rooms.filterMap Room.fromProto
  let newUsers := ss.users.filterMap User.fromProto
  let out := reconcileServerState s.rumbleRooms s.rumbleUsers newRooms newUsers s.channels s.users
    s.skipRules
  ({ s with
      channels := out.channels
      users := out.users
      rumbleRooms := newRooms
      rumbleUsers := newUsers }, out.messages)

/-- Put a new virtual user where its client is. -/
def joinRoomRequests (s : BridgeState) (vid : UserId) (session : UInt32) : List BridgeRequest :=
  let client := s.mumbleClients.get session
  let roomId := ((client.bind fun c => ChannelMap.getRumbleUuid s.channels c.channelId).map
    roomIdFromUuid).getD (roomIdFromUuid rootRoomUuid)
  let isMuted := (client.map MumbleClient.isMuted).getD false
  let isDeafened := (client.map MumbleClient.isDeafened).getD false
  .moveParticipant vid roomId ::
    (if isMuted || isDeafened then [.setParticipantStatus vid isMuted isDeafened] else [])

/-- A reply to a registration, matched by name to the oldest pending one. -/
def handleParticipantRegistered (s : BridgeState) (userId : UserId) (username : String) :
    BridgeState × List BridgeRequest :=
  match s.pendingRegistrations.find? fun p => p.1 == username with
  | some (_, session) =>
    let s := { s with
      pendingRegistrations := s.pendingRegistrations.eraseP fun p => p.1 == username
      virtualUserMap := s.virtualUserMap.set session userId
      reverseVirtualUserMap := s.reverseVirtualUserMap.set userId session }
    (s, s.joinRoomRequests userId session)
  -- the client is gone and nobody owns the virtual user
  | none => (s, [.unregisterParticipant userId])

def handleRumbleEnvelope (s : BridgeState) : RumbleEnvelope → BridgeState × List BridgeOutput
  | .serverState ss =>
    let (s, messages) := s.handleServerState ss
    (s, messages.map .all)
  | .stateUpdate none => (s, [])
  | .stateUpdate (some update) =>
    let (s, messages) := s.handleStateUpdate update
    (s, messages.map .all)
  | .participantRegistered userId username =>
    let (s, requests) := s.handleParticipantRegistered userId username
    (s, requests.map .request)
  | .commandResult _ _ => (s, [])
  | .other => (s, [])

/-! ## Mumble clients -/

def handleClientJoined (s : BridgeState) (session : UInt32) (username : String) :
    BridgeState × List BridgeOutput :=
  ({ s with pendingRegistrations := s.pendingRegistrations ++ [(username, session)] },
    [.except session (.userState
      { session := session
        actor := none
        name := some username
        channelId := some 0
        selfMute := none
        selfDeaf := none }),
      .request (.registerParticipant username (some "Mumble"))])

def handleClientLeft (s : BridgeState) (session : UInt32) : BridgeState × List BridgeOutput :=
  let virtualUserId := s.virtualUserMap.get session
  let s := { s with
    virtualUserMap := s.virtualUserMap.del session
    reverseVirtualUserMap := match virtualUserId with
      | some vid => s.reverseVirtualUserMap.del vid
      | none => s.reverseVirtualUserMap
    pendingRegistrations := s.pendingRegistrations.filter fun p => p.2 ≠ session }
  (s, virtualUserId.toList.map (fun vid => .request (.unregisterParticipant vid)) ++
    [.all (.userRemove session "Disconnected")])

/-- Channel ids for every cached room, and the rooms in the order they are announced. -/
def buildChannelStates (s : BridgeState) : List ChannelState × BridgeState :=
  let channels := s.rumbleRooms.foldl (fun m r => (ChannelMap.getOrInsert m r.id).2) s.channels
  let synthesized : List ChannelState :=
    if s.rumbleRooms.any fun r => r.id == rootRoomUuid then []
    else [{ channelId := 0, parent := none, name := some "Root", description := none }]
  let (states, channels) := (roomsInOrder s.rumbleRooms).foldl (fun acc room =>
    let (channelId, channels) := ChannelMap.getOrInsert acc.2 room.id
    if room.id = rootRoomUuid then
      (acc.1 ++ [{ channelId := channelId, parent := none, name := some room.name,
                   description := room.description }], channels)
    else
      let (parent, channels) := ChannelMap.getOrInsert channels room.parent
      (acc.1 ++ [{ channelId := channelId, parent := some parent, name := some room.name,
                   description := room.description }], channels)) (synthesized, channels)
  (states, { s with channels := channels })

def buildUserStates (s : BridgeState) (excludeSession : UInt32) : List MumbleUserState :=
  (s.rumbleUsers.filterMap fun user =>
    if some user.userId = s.bridgeUserId then none
    else (UserMap.getMumbleSession s.users user.userId).map fun session =>
      { session := session
        actor := none
        name := some user.username
        channelId := ChannelMap.getMumbleId s.channels user.currentRoom
        selfMute := some user.isMuted
        selfDeaf := some user.isDeafened }) ++
  (s.mumbleClients.toPairs.map Prod.snd).filterMap fun client =>
    if client.session = excludeSession then none
    else some
      { session := client.session
        actor := none
        name := some client.username
        channelId := some client.channelId
        selfMute := some client.isMuted
        selfDeaf := some client.isDeafened }

/-- `send_initial_sync`, as far as channels and users go. -/
def handleClientSender (s : BridgeState) (session : UInt32) : BridgeState × List BridgeOutput :=
  let (channels, s) := s.buildChannelStates
  match s.mumbleClients.get session with
  | none => (s, [])
  | some client =>
    let self : MumbleUserState :=
      { session := session
        actor := none
        name := some client.username
        channelId := some client.channelId
        selfMute := none
        selfDeaf := none }
    (s, channels.map (fun c => .one session (.channelState c)) ++
      ((s.buildUserStates session) ++ [self]).map fun u => .one session (.userState u))

def handleChannelChange (s : BridgeState) (session channelId : UInt32) :
    BridgeState × List BridgeOutput :=
  let s := match s.mumbleClients.get session with
    | some client =>
      { s with mumbleClients := s.mumbleClients.set session { client with channelId := channelId } }
    | none => s
  let request := match s.virtualUserMap.get session,
      ChannelMap.getRumbleUuid s.channels channelId with
    | some vid, some uuid => [.request (.moveParticipant vid (roomIdFromUuid uuid))]
    | _, _ => []
  (s, request ++ [.all (.userState
    { session := session
      actor := none
      name := none
      channelId := some channelId
      selfMute := none
      selfDeaf := none })])

/-- Deaf implies mute, and unmuting clears deaf. -/
def MumbleClient.setMuteDeaf (client : MumbleClient) (isMuted isDeafened : Option Bool) :
    MumbleClient :=
  let deafened := isDeafened.getD client.isDeafened
  let muted := isMuted.getD client.isMuted || deafened
  { client with isMuted := muted, isDeafened := deafened && muted }

def handleMuteDeafChange (s : BridgeState) (session : UInt32) (isMuted isDeafened : Option Bool) :
    BridgeState × List BridgeOutput :=
  let s := match s.mumbleClients.get session with
    | some client =>
      { s with mumbleClients :=
          s.mumbleClients.set session (MumbleClient.setMuteDeaf client isMuted isDeafened) }
    | none => s
  let client := s.mumbleClients.get session
  let muted := (client.map MumbleClient.isMuted).getD false
  let deafened := (client.map MumbleClient.isDeafened).getD false
  (s, (s.virtualUserMap.get session).toList.map
      (fun vid => .request (.setParticipantStatus vid muted deafened)) ++
    [.all (.userState
      { session := session
        actor := some session
        name := none
        channelId := none
        selfMute := some muted
        selfDeaf := some deafened })])

/-- One event of the loop. -/
def handleEvent (s : BridgeState) : BridgeEvent → BridgeState × List BridgeOutput
  | .mumbleClientJoined session username => s.handleClientJoined session username
  | .mumbleClientLeft session => s.handleClientLeft session
  | .mumbleClientSender session => s.handleClientSender session
  | .mumbleChannelChange session channelId => s.handleChannelChange session channelId
  | .mumbleMuteDeafChange session isMuted isDeafened =>
    s.handleMuteDeafChange session isMuted isDeafened
  | .rumbleEnvelope env => s.handleRumbleEnvelope env

/-! ## Outside of the loop -/

/-- A Rumble user that is not a virtual user has the name. -/
def rumbleTaken (s : BridgeState) (username : String) : Bool :=
  s.rumbleUsers.any fun u => u.username == username && !s.isVirtual u.userId

/-- The locked part of `mumble_auth_handshake`: a name of a Rumble user is refused, and a client of
the same name is evicted. The result is the new session and the evicted one. -/
def registerClient (s : BridgeState) (username : String) :
    Option (UInt32 × Option UInt32) × BridgeState :=
  if s.rumbleTaken username then (none, s)
  else
    let superseded := ((s.mumbleClients.toPairs.map Prod.snd).find? fun c =>
      c.username == username).map MumbleClient.session
    let s := match superseded with
      | some old => { s with mumbleClients := s.mumbleClients.del old }
      | none => s
    let (session, s) := s.allocateMumbleSession
    (some (session, superseded), { s with
      mumbleClients := s.mumbleClients.set session
        { session := session
          username := username
          channelId := 0
          isMuted := false
          isDeafened := false } })

/-- The last step of `handle_mumble_client`. -/
def removeClient (s : BridgeState) (session : UInt32) : BridgeState :=
  { s with mumbleClients := s.mumbleClients.del session }

/-- A new Rumble connection: the connected clients are registered again. -/
def reconnect (s : BridgeState) (userId : UserId) : BridgeState × List BridgeRequest :=
  let s := { s with bridgeUserId := some userId }
  let clients := s.mumbleClients.toPairs.map fun e => (e.2.username, e.2.session)
  if clients.isEmpty then (s, [])
  else
    ({ s with
        virtualUserMap := ∅
        reverseVirtualUserMap := ∅
        pendingRegistrations := clients },
      clients.map fun c => .registerParticipant c.1 (some "Mumble"))

/-! ## Runs -/

end BridgeState

/-- One locked section of the bridge. -/
inductive BridgeStep where
  | event (e : BridgeEvent)
  | registerClient (username : String)
  | removeClient (session : UInt32)
  | reconnect (userId : UserId)
  deriving DecidableEq

namespace BridgeState

def step (s : BridgeState) : BridgeStep → BridgeState
  | .event e => (s.handleEvent e).1
  | .registerClient username => (s.registerClient username).2
  | .removeClient session => s.removeClient session
  | .reconnect userId => (s.reconnect userId).1

def run (steps : List BridgeStep) : BridgeState := steps.foldl step new

end BridgeState

end Rumble.Bridge
