import Rumble.Lib.Table
import Rumble.Lib.Keyed
import Rumble.Protocol.Types
import Rumble.Protocol.Permissions
import Rumble.Protocol.Reference
import Rumble.Protocol.Framing
import Rumble.Protocol.Wire
import Rumble.Server.Persistence
import Rumble.Server.State
import Rumble.Server.Acl
import Rumble.Server.World
import Rumble.Server.Ops
import Rumble.Server.Toggles
import Rumble.Server.Handlers
import Rumble.Server.Step
import Rumble.Lib.Transition
import Rumble.Lib.Rooted
import Rumble.Lib.Loop
import Rumble.Server.Frames
import Rumble.Server.Footprint
import Rumble.Server.Interleaving
import Rumble.Server.ProvenKeys
import Rumble.Server.RoomTree
import Rumble.Server.Memberships
import Rumble.Server.MembershipEdits
import Rumble.Server.BanEffects
import Rumble.Server.Bans
import Rumble.Server.BanSessions
import Rumble.Server.Sessions
import Rumble.Server.Namespaces
import Rumble.Server.Startup
import Rumble.Server.Restart
import Rumble.Server.Schedule
import Rumble.Server.Takeover
import Rumble.Lib.Pool
import Rumble.Lib.Varint
import Rumble.Lib.ProtoFields
import Rumble.Lib.Trailing
import Rumble.Lib.Saturating
import Rumble.Lib.SortedMap
import Rumble.Lib.Search
import Rumble.Lib.Spsc
import Rumble.Lib.RingBuffer
import Rumble.Lib.Octets
import Rumble.Lib.Windows
import Rumble.Lib.Bucket
import Rumble.Lib.Utf8
import Rumble.Lib.Glob
import Rumble.Lib.Acyclic
import Rumble.Server.Pieces
import Rumble.Protocol.AclVersion
import Rumble.Protocol.SignedPayloads
import Rumble.Protocol.StateHash
import Rumble.Server.AclSaves
import Rumble.Server.AclFaults
import Rumble.Server.Registrations
import Rumble.Server.Homes
import Rumble.Server.RoomEdits
import Rumble.Server.GroupCache
import Rumble.Server.GroupDeletion
import Rumble.Server.VerifiedNames
import Rumble.Server.Roster
import Rumble.Server.VoiceRouting
import Rumble.Server.VoiceRate
import Rumble.Server.SecondaryStreams
import Rumble.Server.StoredRooms
import Rumble.Server.ChatFanOut
import Rumble.Server.Anonymity
import Rumble.Server.LinkRules
import Rumble.Server.CleanUrl
import Rumble.Server.ExtractUrls
import Rumble.Relay.State
import Rumble.Relay.Quota
import Rumble.Relay.Fetch
import Rumble.Relay.Eviction
import Rumble.Client.Projection
import Rumble.Client.RoomChain
import Rumble.Client.RoomTree
import Rumble.Client.OwnRoom
import Rumble.Client.Roster
import Rumble.Client.NotConnected
import Rumble.Client.Generations
import Rumble.Client.Chat
import Rumble.Client.ChatLog
import Rumble.Client.StateHash
import Rumble.Client.AudioTask
import Rumble.Client.Preroll
import Rumble.Client.CaptureGate
import Rumble.Client.MediaClock
import Rumble.Client.Listening
import Rumble.Client.Talking
import Rumble.Client.MuteStatus
import Rumble.Client.VadShaper
import Rumble.Client.PlaybackRing
import Rumble.Client.JitterBuffer
import Rumble.Client.JitterTarget
import Rumble.Client.PlayoutOrder
import Rumble.Client.SilenceGaps
import Rumble.Client.Denoise
import Rumble.Client.Snapshot
import Rumble.Client.ReplicaRuns
import Rumble.Client.ReplicaPermissions
import Rumble.Bridge.Events
import Rumble.Bridge.Ids
import Rumble.Bridge.Participants
import Rumble.Bridge.Subtree
import Rumble.Bridge.RoomOrder
import Rumble.Bridge.Mirror
import Rumble.Bridge.Phases
import Rumble.Bridge.Convergence
import Rumble.Bridge.MumbleVoice
import Rumble.Bridge.Cache
import Rumble.Bridge.MumbleServer
import Rumble.Bridge.VoiceRelay
import Rumble.Audio.Outputs
import Rumble.Web.LoginThrottle
import Rumble.Web.Bootstrap
import Rumble.Desktop.Transfers
import Rumble.Desktop.Lifecycle
import Rumble.Desktop.Downloads
import Rumble.Desktop.Hotkeys
import Rumble.Desktop.KeyManager
import Rumble.Desktop.Identity
import Rumble.Desktop.TokenBucket
import Rumble.Desktop.Trust
import Rumble.Desktop.Settings
import Rumble.Damascene.ChatRows
import Rumble.Damascene.MediaCache
import Rumble.Damascene.MoveRoom
import Rumble.Damascene.RoomAcl
