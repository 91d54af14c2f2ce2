import Rumble.Lib.Pool
import Rumble.Server.Startup

/-!
# The file relay

`server/src/relay_plugin.rs`. Clients upload files into a cache keyed by a transfer id of their
choice, and fetch them by that id. A stream of the plugin is a task that is interrupted where the
code waits: for a permission evaluation, a write or a read. An eviction or a sweep collects ids and
then removes them one at a time, so it is a task as well.

The texts of UUIDs (`Uuid::parse_str`, `to_string`) and of byte counts come from other crates; they
are parameters of the configuration.
-/

namespace Rumble.Relay

open Rumble.Lib Rumble.Server Rumble.Server.World

/-! ## Data -/

/-- A cached file entry. -/
structure CachedFile where
  roomId : String
  fileName : String
  fileSize : Nat
  mime : String
  data : List UInt8
  createdAt : Nat
  deriving DecidableEq

/-- The configuration of the cache, and the texts of other crates. -/
structure RelayConfig where
  ttl : Nat
  evictOnRoomClear : Bool
  maxTotalSize : Nat
  maxFileSize : Nat
  parseStr : String → Option Uuid
  uuidText : Uuid → String
  showSize : Nat → String

/-- The metadata of an upload, as the client sends it. -/
structure RelayUpload where
  transferId : String
  roomId : String
  fileName : String
  fileSize : Nat
  mime : String
  deriving DecidableEq

inductive RelayResult where
  | ok | notFound | error
  deriving DecidableEq

/-- What the plugin writes to a stream. -/
inductive Reply where
  | ackOk
  | ackRejected (code : Nat) (error : String)
  | uploadResponse (status : RelayResult) (error : String)
  | fetchResponse (status : RelayResult) (fileName : String) (fileSize : Nat) (mime error : String)
  | body (data : List UInt8)
  deriving DecidableEq

def rejectCodeTooLarge : Nat := 1
def rejectCodeCacheFull : Nat := 2
def rejectCodeForbidden : Nat := 4
def rejectCodeDuplicateId : Nat := 5

/-- `FileTransferRelayPlugin`: the cache and the byte counter. -/
structure Plugin where
  cache : Table String CachedFile
  totalCached : Nat

namespace Plugin

def new : Plugin where
  cache := ∅
  totalCached := 0

/-- Subtract from the counter, clamping at zero. -/
def releaseQuota (p : Plugin) (amount : Nat) : Plugin :=
  { p with totalCached := p.totalCached - amount }

/-- Reserve bytes, unless the sum overflows or exceeds the limit. -/
def tryReserve (rc : RelayConfig) (p : Plugin) (amount : Nat) : Option Plugin :=
  if 2 ^ 64 ≤ p.totalCached + amount then none
  else if rc.maxTotalSize < p.totalCached + amount then none
  else some { p with totalCached := p.totalCached + amount }

/-- Remove one entry and release its bytes, when it is still there. -/
def evict (p : Plugin) (id : String) : Plugin :=
  match p.cache.get id with
  | some file => { p with cache := p.cache.del id }.releaseQuota file.fileSize
  | none => p

/-- The ids cached for a room, compared as text. -/
def idsOfRoom (p : Plugin) (roomId : String) : List String :=
  (p.cache.toPairs.filter fun e => e.2.roomId == roomId).map Prod.fst

/-- The ids older than the lifetime. -/
def expiredIds (rc : RelayConfig) (now : Nat) (p : Plugin) : List String :=
  (p.cache.toPairs.filter fun e => rc.ttl < now - e.2.createdAt).map Prod.fst

def evictRoom (p : Plugin) (roomId : String) : Plugin := (p.idsOfRoom roomId).foldl evict p

end Plugin

/-- A fetch that streamed `file`: who fetched, and the room its permission was checked in. -/
structure Served where
  userId : UserId
  transferId : String
  checked : Uuid
  file : CachedFile
  deriving DecidableEq

/-- The server with the plugin. `granted` and `served` record the fetches: each check that found
ENTER, and each file that was streamed. -/
structure RelayWorld where
  server : World
  plugin : Plugin
  replies : List (UserId × String × Reply)
  granted : List (UserId × Uuid)
  served : List Served

namespace RelayWorld

def new (w : World) : RelayWorld where
  server := w
  plugin := .new
  replies := []
  granted := []
  served := []

def reply (rw : RelayWorld) (userId : UserId) (transferId : String) (r : Reply) : RelayWorld :=
  { rw with replies := rw.replies ++ [(userId, transferId, r)] }

/-- Drop a reservation. -/
def refund (rw : RelayWorld) (amount : Nat) : RelayWorld :=
  { rw with plugin := rw.plugin.releaseQuota amount }

/-- `user_room_permissions` of the connection's primary handle. -/
def permits (rw : RelayWorld) (userId : UserId) (room : Uuid) (required : Permissions) : Bool :=
  (evaluateUserPermissions rw.server.state rw.server.store (primary userId) room).contains required

end RelayWorld

/-! ## Streams -/

/-- The outcome of a read of the upload body. -/
inductive ReadOutcome where
  | data (bytes : List UInt8)
  | closed
  | failed
  | stalled
  deriving DecidableEq

/-- What a piece of work meets: the server's environment, the clock, the result of the read it
waited for, whether its write went through, and whether its stream was cancelled meanwhile. -/
structure RelayEnv where
  server : Env
  now : Nat
  read : ReadOutcome
  written : Bool
  cancelled : Bool

/-- A stream or an eviction, suspended. -/
inductive Task where
  /-- An upload waits for its permission. -/
  | authorize (userId : UserId) (upload : RelayUpload) (room : Uuid)
  /-- The bytes are reserved and the ack is being written. -/
  | admitted (userId : UserId) (upload : RelayUpload)
  /-- The body is being read. -/
  | receiving (userId : UserId) (upload : RelayUpload) (data : List UInt8)
  /-- A failed upload writes its response; it holds its reservation until it returns. -/
  | closing (userId : UserId) (upload : RelayUpload)
  /-- An eviction has these ids left. -/
  | evicting (ids : List String)
  /-- A fetch has read the room of its file and waits for the permission. -/
  | fetchAuthorize (userId : UserId) (transferId : String) (room : Uuid)
  /-- A fetch is permitted and looks its file up again. -/
  | fetchServe (userId : UserId) (transferId : String) (room : Uuid)
  deriving DecidableEq

inductive RelayEvent where
  | server (e : Event)
  | upload (userId : UserId) (upload : RelayUpload)
  | fetch (userId : UserId) (transferId : String)
  /-- `evict_room` is called with a room's text. -/
  | clearRoom (roomId : String)
  | sweep
  deriving DecidableEq

namespace RelayWorld

variable (cfg : Config) (rc : RelayConfig) (env : RelayEnv)

def reject (rw : RelayWorld) (userId : UserId) (upload : RelayUpload) (code : Nat)
    (error : String) : RelayWorld × Option Task :=
  (rw.reply userId upload.transferId (.ackRejected code error), none)

/-- The admission of an upload up to the permission check. -/
def handleUpload (rw : RelayWorld) (userId : UserId) (upload : RelayUpload) :
    RelayWorld × Option Task :=
  if rc.maxFileSize < upload.fileSize then
    rw.reject userId upload rejectCodeTooLarge
      ("file too large: " ++ toString upload.fileSize ++ " bytes (max " ++
        rc.showSize rc.maxFileSize ++ ")")
  else if (rw.plugin.cache.get upload.transferId).isSome then
    rw.reject userId upload rejectCodeDuplicateId "transfer id already in use"
  else match rc.parseStr upload.roomId with
    | none => rw.reject userId upload rejectCodeForbidden ("invalid room id: " ++ upload.roomId)
    | some room => (rw, some (.authorize userId upload room))

/-- The permission, then the reservation. -/
def authorizeUpload (rw : RelayWorld) (userId : UserId) (upload : RelayUpload) (room : Uuid) :
    RelayWorld × Option Task :=
  if !rw.permits userId room Permissions.textMessage then
    rw.reject userId upload rejectCodeForbidden
      ("not permitted to upload to room " ++ upload.roomId)
  else match rw.plugin.tryReserve rc upload.fileSize with
    | none => rw.reject userId upload rejectCodeCacheFull "server cache full"
    | some plugin => ({ rw with plugin := plugin }, some (.admitted userId upload))

/-- Store a received body. The entry is inserted only when its id is vacant; then the reservation
is kept, else the response is written before it is dropped. -/
def storeUpload (now : Nat) (rw : RelayWorld) (userId : UserId) (upload : RelayUpload)
    (data : List UInt8) : RelayWorld × Option Task :=
  match rw.plugin.cache.get upload.transferId with
  | some _ =>
    (rw.reply userId upload.transferId (.uploadResponse .error "transfer id already in use"),
      some (.closing userId upload))
  | none =>
    let file : CachedFile :=
      { roomId := upload.roomId
        fileName := upload.fileName
        fileSize := data.length
        mime := upload.mime
        data := data
        createdAt := now }
    ({ rw with plugin := { rw.plugin with
        cache := rw.plugin.cache.set upload.transferId file } }.reply userId upload.transferId
          (.uploadResponse .ok ""), none)

/-- One turn of the read loop; a complete body is stored. A read fills at most 64 KiB and at most
what is missing. -/
def receiveUpload (rw : RelayWorld) (userId : UserId) (upload : RelayUpload)
    (data : List UInt8) : RelayWorld × Option Task :=
  if upload.fileSize ≤ data.length then rw.storeUpload env.now userId upload data
  else if env.cancelled then (rw.refund upload.fileSize, none)
  else match env.read with
    | .data bytes =>
      (rw, some (.receiving userId upload
        (data ++ bytes.take (min (upload.fileSize - data.length) (64 * 1024)))))
    | .closed =>
      (rw.reply userId upload.transferId (.uploadResponse .error
        ("stream closed after " ++ toString data.length ++ " of " ++ toString upload.fileSize ++
          " bytes")), some (.closing userId upload))
    | .stalled =>
      (rw.reply userId upload.transferId (.uploadResponse .error
        ("upload stalled after " ++ toString data.length ++ " of " ++ toString upload.fileSize ++
          " bytes")), some (.closing userId upload))
    | .failed => (rw.refund upload.fileSize, none)

def notFound (rw : RelayWorld) (userId : UserId) (transferId : String) :
    RelayWorld × Option Task :=
  (rw.reply userId transferId (.fetchResponse .notFound "" 0 "" "transfer not found or expired"),
    none)

/-- The room of the file is read first. -/
def handleFetch (rw : RelayWorld) (userId : UserId) (transferId : String) :
    RelayWorld × Option Task :=
  match rw.plugin.cache.get transferId with
  | none => rw.notFound userId transferId
  | some file =>
    match rc.parseStr file.roomId with
    | none => rw.notFound userId transferId
    | some room => (rw, some (.fetchAuthorize userId transferId room))

def authorizeFetch (rw : RelayWorld) (userId : UserId) (transferId : String) (room : Uuid) :
    RelayWorld × Option Task :=
  if rw.permits userId room Permissions.enter then
    ({ rw with granted := rw.granted ++ [(userId, room)] },
      some (.fetchServe userId transferId room))
  else rw.notFound userId transferId

/-- The file is looked up again by its id, whatever is cached under the id by now. -/
def serveFetch (rw : RelayWorld) (userId : UserId) (transferId : String) (room : Uuid) :
    RelayWorld × Option Task :=
  match rw.plugin.cache.get transferId with
  | none => rw.notFound userId transferId
  | some file =>
    let fetch : Served :=
      { userId := userId, transferId := transferId, checked := room, file := file }
    let rw := { rw with served := rw.served ++ [fetch] }.reply userId transferId
      (.fetchResponse .ok file.fileName file.fileSize file.mime "")
    (rw.reply userId transferId (.body file.data), none)

/-- The first piece of an event. Streams of a connection that is not authenticated do not reach the
plugin. -/
def start (rw : RelayWorld) : RelayEvent → RelayWorld × Option Task
  | .server e => ({ rw with server := step cfg env.server rw.server e }, none)
  | .upload userId upload =>
    if (rw.server.state.conn userId).authenticated then rw.handleUpload rc userId upload
    else (rw, none)
  | .fetch userId transferId =>
    if (rw.server.state.conn userId).authenticated then rw.handleFetch rc userId transferId
    else (rw, none)
  | .clearRoom roomId => (rw, some (.evicting (rw.plugin.idsOfRoom roomId)))
  | .sweep => (rw, some (.evicting (rw.plugin.expiredIds rc env.now)))

/-- The next piece of a task. A cancelled stream drops its reservation. -/
def resume (rw : RelayWorld) : Task → RelayWorld × Option Task
  | .authorize userId upload room =>
    if env.cancelled then (rw, none) else rw.authorizeUpload rc userId upload room
  | .admitted userId upload =>
    if env.cancelled || !env.written then (rw.refund upload.fileSize, none)
    else (rw.reply userId upload.transferId .ackOk, some (.receiving userId upload []))
  | .receiving userId upload data => rw.receiveUpload env userId upload data
  | .closing _ upload => (rw.refund upload.fileSize, none)
  | .evicting [] => (rw, none)
  | .evicting (id :: ids) => ({ rw with plugin := rw.plugin.evict id }, some (.evicting ids))
  | .fetchAuthorize userId transferId room =>
    if env.cancelled then (rw, none) else rw.authorizeFetch userId transferId room
  | .fetchServe userId transferId room =>
    if env.cancelled then (rw, none) else rw.serveFetch userId transferId room

end RelayWorld

/-- The relay as an interleaved program. -/
def relayProgram (cfg : Config) (rc : RelayConfig) :
    Interleaved RelayEnv RelayWorld RelayEvent Task where
  start := fun env rw e => rw.start cfg rc env e
  resume := fun env rw t => rw.resume rc env t

end Rumble.Relay
