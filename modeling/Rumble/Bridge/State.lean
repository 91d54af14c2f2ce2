import Rumble.Lib.IdMap
import Rumble.Lib.Keyed
import Rumble.Protocol.Types

/-!
# The state of the Mumble bridge

`mumble-bridge/src/state.rs` and the Mumble messages the bridge sends: the two-way maps between
Rumble ids and Mumble ids, the connected Mumble clients, the cached Rumble state and the virtual
users.
-/

namespace Rumble.Bridge

open Rumble.Lib

/-! ## Channel and session ids -/

/-- Rumble room UUIDs and Mumble channel ids. -/
abbrev ChannelMap := IdMap Uuid

namespace ChannelMap

/-- Channel 0 is always the root channel. -/
def new : ChannelMap := IdMap.empty 1

/-- The Root room always maps to channel 0. -/
def getOrInsert (m : ChannelMap) (uuid : Uuid) : UInt32 × ChannelMap :=
  if uuid = rootRoomUuid then (0, IdMap.pin m uuid 0) else IdMap.getOrInsert m uuid

def getMumbleId (m : ChannelMap) (uuid : Uuid) : Option UInt32 := m.forward.get uuid

def getRumbleUuid (m : ChannelMap) (mumbleId : UInt32) : Option Uuid := m.back.get mumbleId

def removeByUuid (m : ChannelMap) (uuid : Uuid) : ChannelMap := IdMap.remove m uuid

def rumbleUuids (m : ChannelMap) : List Uuid := m.forward.toPairs.map Prod.fst

end ChannelMap

/-- Rumble user ids and Mumble session ids. -/
abbrev UserMap := IdMap UserId

namespace UserMap

/-- The first session of a Rumble user. -/
def proxyBase : Nat := 100000

def new : UserMap := IdMap.empty proxyBase

def getOrInsert (m : UserMap) (rumbleId : UserId) : UInt32 × UserMap := IdMap.getOrInsert m rumbleId

def getMumbleSession (m : UserMap) (rumbleId : UserId) : Option UInt32 := m.forward.get rumbleId

def getRumbleId (m : UserMap) (session : UInt32) : Option UserId := m.back.get session

def removeByRumbleId (m : UserMap) (rumbleId : UserId) : UserMap := IdMap.remove m rumbleId

def entries (m : UserMap) : List (UserId × UInt32) := m.forward.toPairs

end UserMap

/-! ## The state -/

structure MumbleClient where
  session : UInt32
  username : String
  channelId : UInt32
  isMuted : Bool
  isDeafened : Bool
  deriving DecidableEq

/-- The session counter is kept without its wrap-around. -/
structure BridgeState where
  channels : ChannelMap
  users : UserMap
  mumbleClients : Table UInt32 MumbleClient
  nextMumbleSession : Nat
  rumbleRooms : List Room
  rumbleUsers : List User
  bridgeUserId : Option UserId
  pendingRegistrations : List (String × UInt32)
  virtualUserMap : Table UInt32 UserId
  reverseVirtualUserMap : Table UserId UInt32

namespace BridgeState

/-- The first session of a Mumble client. -/
def clientBase : Nat := 1000

def new : BridgeState where
  channels := ChannelMap.new
  users := UserMap.new
  mumbleClients := ∅
  nextMumbleSession := clientBase
  rumbleRooms := []
  rumbleUsers := []
  bridgeUserId := none
  pendingRegistrations := []
  virtualUserMap := ∅
  reverseVirtualUserMap := ∅

def allocateMumbleSession (s : BridgeState) : UInt32 × BridgeState :=
  (UInt32.ofNat s.nextMumbleSession, { s with nextMumbleSession := s.nextMumbleSession + 1 })

end BridgeState

/-! ## Messages to Mumble clients -/

/-- `mumble::UserState`; an absent field is unchanged. -/
structure MumbleUserState where
  session : UInt32
  actor : Option UInt32
  name : Option String
  channelId : Option UInt32
  selfMute : Option Bool
  selfDeaf : Option Bool
  deriving DecidableEq

/-- `mumble::ChannelState`; an absent field is unchanged. -/
structure ChannelState where
  channelId : UInt32
  parent : Option UInt32
  name : Option String
  description : Option String
  deriving DecidableEq

inductive SyncMessage where
  | userRemove (session : UInt32) (reason : String)
  | userState (m : MumbleUserState)
  | channelRemove (channelId : UInt32)
  | channelState (m : ChannelState)
  deriving DecidableEq

end Rumble.Bridge
