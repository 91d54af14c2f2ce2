import Rumble.Lib.Pool
import Rumble.Lib.Table

/-!
# The relay file-transfer plugin

`rumble-desktop/src/file_transfer_relay.rs`: the table of transfers, the calls of the plugin and
the upload and fetch tasks they spawn. A call or a task is cut where it gives up a lock or waits, so
that calls and tasks interleave. The downloads folder is part of the state, with who put each file
there, and so is a record of what the fetches did to it.

Speed limits and the smoothed speed are left out; an active stage holds the bytes moved so far.
-/

namespace Rumble.Desktop

open Rumble.Lib

/-! ## Entries -/

inductive TransferDirection where
  | upload
  | download
  deriving DecidableEq

inductive TransferStage where
  | active (bytes : Nat)
  | paused (bytes : Nat)
  | done (localPath : String)
  | failed (reason : String)
  deriving DecidableEq

namespace TransferStage

def isTerminal : TransferStage → Bool
  | done _ | failed _ => true
  | active _ | paused _ => false

end TransferStage

/-- `cancel` is the cancellation token, named after the task it was made for. -/
structure TransferEntry where
  id : String
  name : String
  size : Nat
  mime : String
  shareData : Option String
  roomId : Option String
  direction : TransferDirection
  stage : TransferStage
  sourcePath : Option String
  cancel : Nat
  destPath : Option String
  deleteOnComplete : Bool
  deriving DecidableEq

/-- An upload that moves bytes. -/
def TransferEntry.uploading (entry : TransferEntry) : Bool :=
  entry.direction == .upload && !entry.stage.isTerminal

/-- `RelayShareData`, once parsed. -/
structure RelayShareData where
  transferId : String
  fileName : String
  fileSize : Nat
  mime : String
  deriving DecidableEq

inductive NotificationLevel where
  | warn
  | error
  deriving DecidableEq

inductive PluginEvent where
  | stageChanged (id : String) (direction : TransferDirection) (name : String)
      (stage : TransferStage)
  | notification (level : NotificationLevel) (text : String)
  deriving DecidableEq

/-! ## The downloads folder -/

/-- Who put a file there: the user, or a fetch task. -/
inductive Owner where
  | user
  | fetch (task : Nat)
  deriving DecidableEq

/-- What a fetch did to the folder, and whose file was there before. -/
inductive FolderEvent where
  | created (task : Nat) (path : String) (before : Option Owner)
  | cleaned (task : Nat) (path : String) (before : Option Owner)
  deriving DecidableEq

/-- `Path::file_name`: the last component, unless it is `..`. -/
def fileName (path : String) : Option String :=
  match ((path.toList.splitOn '/').filter fun c => c ≠ [] ∧ c ≠ ['.']).getLast? with
  | some name => if name = ['.', '.'] then none else some (String.ofList name)
  | none => none

/-- `Path::file_stem` and `Path::extension` of a file name: a dot in front is not a separator. -/
def splitExtension (name : String) : String × Option String :=
  match name.toList.reverse.span (· ≠ '.') with
  | (_, []) => (name, none)
  | (_, [_]) => (name, none)
  | (ext, _ :: stem) => (String.ofList stem.reverse, some (String.ofList ext.reverse))

/-- The `n`-th name that `unique_dest_path` tries; the first is the name itself. -/
def candidate (name : String) (n : Nat) : String :=
  if n ≤ 1 then name
  else match splitExtension name with
    | (stem, some ext) => stem ++ " (" ++ toString n ++ ")." ++ ext
    | (stem, none) => stem ++ " (" ++ toString n ++ ")"

/-- The search is over once it has tried the numbers below this one. -/
def candidateLimit : Nat := 10000

def maxUploadBytes : Nat := 256 * 1024 * 1024

/-! ## Tasks -/

/-- How far a fetch has come. -/
inductive FetchPhase where
  /-- The server has not answered yet. -/
  | requesting
  /-- Names below `n` are taken. -/
  | probing (name : String) (size n : Nat)
  /-- The destination is chosen, and not yet on record. -/
  | chosen (name : String) (size : Nat) (dest : String)
  /-- The file is about to be created. -/
  | creating (size : Nat) (dest : String)
  | writing (size : Nat) (dest : String) (received : Nat)
  deriving DecidableEq

/-- What is under way: calls between two locks, and spawned tasks. -/
inductive Task where
  /-- `share` has found no upload of the path, and has not read the room yet. -/
  | sharing (id path name mime : String) (size : Nat)
  /-- `share` has read the room, and has not inserted the entry yet. -/
  | tagged (id path name mime : String) (size : Nat) (room : String)
  /-- `set_room_id` has stored the new room, and has not cancelled the uploads of the old one. -/
  | leaving (room : String)
  | upload (task : Nat) (id path : String) (size sent : Nat)
  | fetch (task : Nat) (id : String) (phase : FetchPhase)
  /-- A fetch is over, and is about to remove its file. -/
  | cleaning (task : Nat) (id path : String)
  /-- `cancel` is about to remove the file of a completed download. -/
  | deleting (path : String)
  deriving DecidableEq

structure TransferWorld where
  transfers : Table String TransferEntry
  roomId : String
  /-- The tokens that were cancelled. -/
  cancelled : List Nat
  nextTask : Nat
  events : List PluginEvent
  files : Table String Owner
  folderLog : List FolderEvent

/-- A call of the plugin, or something the user does in the downloads folder. -/
inductive TransferCall where
  | share (path : String)
  /-- The share data parses, or does not. -/
  | download (shareData : Option RelayShareData)
  | cancel (id : String) (deleteFiles : Bool)
  | setRoomId (roomId : String)
  | putFile (path : String)
  | removeFile (path : String)
  deriving DecidableEq

/-- What a piece meets: the next piece goes through, the server answers a fetch, some bytes move,
the stream ends, something fails, or the cancelled token is seen. -/
inductive Outcome where
  | next
  | respond (fileName : String) (fileSize : Nat)
  | chunk (n : Nat)
  | finish
  | fail (reason : String)
  | cancelled
  deriving DecidableEq

/-- The outcome, the id `share` draws, and the size of the shared file when it can be read. -/
structure TransferEnv where
  outcome : Outcome
  newId : String
  fileSize : Option Nat
  deriving DecidableEq

/-- Texts that the plugin takes from elsewhere: the media type of a name, the share data of an
offer, and a size for display. -/
structure TransferConfig where
  mimeOf : String → String
  shareData : RelayShareData → String
  formatBytes : Nat → String

namespace TransferWorld

variable (cfg : TransferConfig) (w : TransferWorld)

/-- A folder with the user's files in it. -/
def new (names : List String) : TransferWorld where
  transfers := ∅
  roomId := ""
  cancelled := []
  nextTask := 0
  events := []
  files := names.foldl (fun files name => files.set name .user) ∅
  folderLog := []

/-! ## Pieces of work -/

def emit (e : PluginEvent) : TransferWorld := { w with events := w.events ++ [e] }

/-- Insert an entry and announce its stage. -/
def insert (entry : TransferEntry) : TransferWorld :=
  { w with transfers := w.transfers.set entry.id entry }.emit
    (.stageChanged entry.id entry.direction entry.name entry.stage)

/-- Write the stage of an entry and announce it. -/
def setStage (id : String) (entry : TransferEntry) (stage : TransferStage) : TransferWorld :=
  let entry := { entry with stage := stage }
  { w with transfers := w.transfers.set id entry }.emit
    (.stageChanged entry.id entry.direction entry.name entry.stage)

/-- Only an active stage has progress. -/
def updateActiveProgress (id : String) (bytes : Nat) : TransferWorld :=
  match w.transfers.get id with
  | some entry =>
    match entry.stage with
    | .active _ =>
      let entry := { entry with stage := .active bytes }
      { w with transfers := w.transfers.set id entry }
    | _ => w
  | none => w

/-- A failure that is not a cancellation is notified. -/
def notifyFailure (what : String) (task : Nat) (reason : String) : TransferWorld :=
  if task ∈ w.cancelled ∨ reason = "cancelled" then w
  else w.emit (.notification .error (what ++ " failed: " ++ reason))

/-- The end of `run_upload`: a terminal stage stays. -/
def settleUpload (task : Nat) (id path : String) (result : Except String Unit) : TransferWorld :=
  match w.transfers.get id with
  | none => w
  | some entry =>
    if entry.stage.isTerminal then w
    else match result with
      | .ok () => w.setStage id entry (.done path)
      | .error reason => (w.setStage id entry (.failed reason)).notifyFailure "Upload" task reason

/-- A removal of the file, when there is a path. -/
def clean (task : Nat) (id : String) (path : Option String) : Option Task :=
  path.map (Task.cleaning task id)

/-- The end of `run_fetch`: a terminal stage stays, and what is left on disk is removed. -/
def settleFetch (task : Nat) (id : String) (result : Except String String) :
    TransferWorld × Option Task :=
  match w.transfers.get id with
  | none => (w, none)
  | some entry =>
    if entry.stage.isTerminal then
      match result with
      | .ok _ => (w, if entry.deleteOnComplete then clean task id entry.destPath else none)
      | .error _ => (w, clean task id entry.destPath)
    else match result with
      | .ok dest =>
        if entry.deleteOnComplete then
          (w.setStage id entry (.failed "cancelled"), clean task id (some dest))
        else (w.setStage id entry (.done dest), none)
      | .error reason =>
        ((w.setStage id entry (.failed reason)).notifyFailure "Download" task reason,
          clean task id entry.destPath)

def validateFetchProgress (received fileSize : Nat) : Option String :=
  if maxUploadBytes < fileSize then
    some (s!"server-declared file size ({fileSize} bytes) exceeds the maximum allowed " ++
      s!"{maxUploadBytes} bytes (mirrors the server relay cap); refusing download")
  else if fileSize < received then
    some s!"server sent more data than declared ({received} > {fileSize} bytes): protocol violation"
  else none

/-- The destination goes on record before the file is created. -/
def recordDest (id name : String) (size : Nat) (dest : String) : TransferWorld :=
  match w.transfers.get id with
  | some entry =>
    let entry := { entry with name := name, size := size, destPath := some dest }
    { w with transfers := w.transfers.set id entry }
  | none => w

/-- `File::create`, which truncates a file that is there. -/
def createFile (task : Nat) (dest : String) : TransferWorld :=
  { w with
    files := w.files.set dest (.fetch task)
    folderLog := w.folderLog ++ [.created task dest (w.files.get dest)] }

def cleanFile (task : Nat) (path : String) : TransferWorld :=
  { w with
    files := w.files.del path
    folderLog := w.folderLog ++ [.cleaned task path (w.files.get path)] }

/-- Where a fetch waits, a failure or the cancelled token can end it. -/
def interruptFetch (outcome : Outcome) (task : Nat) (id : String) (phase : FetchPhase) :
    Option (TransferWorld × Option Task) :=
  match outcome with
  | .fail reason => some (w.settleFetch task id (.error reason))
  | .cancelled =>
    if task ∈ w.cancelled then some (w.settleFetch task id (.error "cancelled"))
    else some (w, some (.fetch task id phase))
  | _ => none

/-- The next piece of a fetch. It waits for the server's answer, for the creation of the file and
for each chunk. -/
def resumeFetch (outcome : Outcome) (task : Nat) (id : String) (phase : FetchPhase) :
    TransferWorld × Option Task :=
  let stay := (w, some (Task.fetch task id phase))
  let interrupted := w.interruptFetch outcome task id phase
  match phase with
  | .requesting => interrupted.getD <|
    match outcome with
    | .respond name size =>
      match validateFetchProgress 0 size with
      | some reason => w.settleFetch task id (.error reason)
      | none => (w, some (.fetch task id (.probing ((fileName name).getD "download") size 1)))
    | _ => stay
  | .probing name size n =>
    if (w.files.get (candidate name n)).isNone then
      (w, some (.fetch task id (.chosen name size (candidate name n))))
    else if n + 1 < candidateLimit then (w, some (.fetch task id (.probing name size (n + 1))))
    else (w, some (.fetch task id (.chosen name size name)))
  | .chosen name size dest =>
    (w.recordDest id name size dest, some (.fetch task id (.creating size dest)))
  | .creating size dest => interrupted.getD <|
    match outcome with
    | .next => (w.createFile task dest, some (.fetch task id (.writing size dest 0)))
    | _ => stay
  | .writing size dest received => interrupted.getD <|
    match outcome with
    | .chunk n =>
      match validateFetchProgress (received + n) size with
      | some reason => w.settleFetch task id (.error reason)
      | none => (w.updateActiveProgress id (received + n),
          some (.fetch task id (.writing size dest (received + n))))
    | .finish =>
      if received ≠ size then w.settleFetch task id
        (.error s!"incomplete download: received {received} of {size} bytes")
      else w.settleFetch task id (.ok dest)
    | _ => stay

/-- The next piece of an upload. -/
def resumeUpload (outcome : Outcome) (task : Nat) (id path : String) (size sent : Nat) :
    TransferWorld × Option Task :=
  match outcome with
  | .chunk n =>
    (w.updateActiveProgress id (sent + n), some (.upload task id path size (sent + n)))
  | .finish => (w.settleUpload task id path (.ok ()), none)
  | .fail reason => (w.settleUpload task id path (.error reason), none)
  | .cancelled =>
    if task ∈ w.cancelled then (w.settleUpload task id path (.error "cancelled"), none)
    else (w, some (.upload task id path size sent))
  | .next | .respond .. => (w, some (.upload task id path size sent))

/-! ## Calls -/

def startShare (env : TransferEnv) (path : String) : TransferWorld × Option Task :=
  match env.fileSize with
  | none => (w, none)
  | some size =>
    let name := (fileName path).getD "unnamed"
    if maxUploadBytes < size then
      ({ w with nextTask := w.nextTask + 1 }.insert
        { id := env.newId, name := name, size := size, mime := cfg.mimeOf name
          shareData := none, roomId := none, direction := .upload
          stage := .failed ("file too large (" ++ cfg.formatBytes size ++ "); limit is " ++
            cfg.formatBytes maxUploadBytes)
          sourcePath := none, cancel := w.nextTask, destPath := none, deleteOnComplete := false },
        none)
    else match w.transfers.toPairs.find? fun e =>
        e.2.uploading && e.2.sourcePath == some path with
      | some existing =>
        if existing.2.shareData.isSome then
          (w.emit (.notification .warn ("Already uploading \"" ++ existing.2.name ++ "\"")), none)
        else (w, some (.sharing env.newId path name (cfg.mimeOf name) size))
      | none => (w, some (.sharing env.newId path name (cfg.mimeOf name) size))

/-- The second half of `share`: insert the entry and spawn the upload. -/
def insertShare (id path name mime : String) (size : Nat) (room : String) :
    TransferWorld × Option Task :=
  ({ w with nextTask := w.nextTask + 1 }.insert
    { id := id, name := name, size := size, mime := mime
      shareData := some (cfg.shareData ⟨id, name, size, mime⟩)
      roomId := if room = "" then none else some room
      direction := .upload, stage := .active 0, sourcePath := some path, cancel := w.nextTask
      destPath := none, deleteOnComplete := false },
    some (.upload w.nextTask id path size 0))

/-- An entry with the id is replaced. -/
def startDownload (share : RelayShareData) : TransferWorld × Option Task :=
  ({ w with nextTask := w.nextTask + 1 }.insert
    { id := share.transferId, name := share.fileName, size := share.fileSize, mime := share.mime
      shareData := none, roomId := none, direction := .download, stage := .active 0
      sourcePath := none, cancel := w.nextTask, destPath := none, deleteOnComplete := false },
    some (.fetch w.nextTask share.transferId .requesting))

def startCancel (id : String) (deleteFiles : Bool) : TransferWorld × Option Task :=
  match w.transfers.get id with
  | none => (w, none)
  | some entry =>
    if entry.stage.isTerminal then
      match deleteFiles, entry.direction, entry.stage with
      | true, .download, .done localPath => (w, some (.deleting localPath))
      | _, _, _ => (w, none)
    else
      ({ w with cancelled := w.cancelled ++ [entry.cancel] }.setStage id
        { entry with
          deleteOnComplete :=
            entry.deleteOnComplete || (deleteFiles && entry.direction == TransferDirection.download) }
        (.failed "cancelled"), none)

def startSetRoomId (roomId : String) : TransferWorld × Option Task :=
  ({ w with roomId := roomId }, if w.roomId = roomId then none else some (.leaving w.roomId))

/-- One entry of the room left. -/
def cancelUpload (room : String) (e : String × TransferEntry) : TransferWorld :=
  if e.2.uploading && e.2.roomId == some room then
    { w with cancelled := w.cancelled ++ [e.2.cancel] }.setStage e.1 e.2 (.failed "room changed")
  else w

/-- The uploads of the room left are cancelled, under one lock. -/
def leaveRoom (room : String) : TransferWorld :=
  let left := w.transfers.toPairs.foldl (fun v e => v.cancelUpload room e) w
  let cancelled := w.transfers.toPairs.countP fun e =>
    e.2.uploading && e.2.roomId == some room
  if cancelled = 0 then left
  else left.emit (.notification .warn (toString cancelled ++ " " ++
    (if cancelled = 1 then "upload" else "uploads") ++ " cancelled due to room change"))

def start (env : TransferEnv) : TransferCall → TransferWorld × Option Task
  | .share path => w.startShare cfg env path
  | .download none => (w, none)
  | .download (some share) => w.startDownload share
  | .cancel id deleteFiles => w.startCancel id deleteFiles
  | .setRoomId roomId => w.startSetRoomId roomId
  | .putFile path => ({ w with files := w.files.set path .user }, none)
  | .removeFile path => ({ w with files := w.files.del path }, none)

def resume (env : TransferEnv) : Task → TransferWorld × Option Task
  | .sharing id path name mime size => (w, some (.tagged id path name mime size w.roomId))
  | .tagged id path name mime size room => w.insertShare cfg id path name mime size room
  | .leaving room => (w.leaveRoom room, none)
  | .upload task id path size sent => w.resumeUpload env.outcome task id path size sent
  | .fetch task id phase => w.resumeFetch env.outcome task id phase
  | .cleaning task _ path => (w.cleanFile task path, none)
  | .deleting path => ({ w with files := w.files.del path }, none)

end TransferWorld

def transferProgram (cfg : TransferConfig) :
    Interleaved TransferEnv TransferWorld TransferCall Task where
  start env w c := w.start cfg env c
  resume env w t := w.resume cfg env t

end Rumble.Desktop
