import Rumble.Server.Ops

/-!
# Message handlers

`server/src/handlers.rs`: the handshake, one handler per envelope payload, and the voice relay.
The server runs without plugins here, so no message is consumed before the built-in match.
-/

namespace Rumble.Server

open Rumble.Lib

namespace World

/-! ## Handshake -/

/-- Why a hello with a well-formed key is refused, if it is. -/
def helloRefusal (cfg : Config) (store : Persistence) (username : String) (publicKey : PublicKey)
    (password : Option String) : Option String :=
  if store.isUsernameTaken username publicKey then
    some "Username is registered to a different key"
  else match cfg.serverPassword with
    | some required =>
      if !store.isKnownKey publicKey && !required.isEmpty && password ≠ some required then
        some "Password required for new users"
      else none
    | none => none

/-- Store the pending authentication of an accepted hello. -/
def issueNonce (w : World) (env : Env) (sender : HandleId) (username : String)
    (publicKey : PublicKey) : World :=
  w.mapState (·.setPendingAuth
    { nonce := env.nonce, userId := sender.user, publicKey := publicKey, username := username })

/-- Store the claimed key on the connection, then answer with the nonce. -/
def storeHelloKey (w : World) (sender : HandleId) (publicKey : PublicKey) (nonce : Nonce) :
    World :=
  (w.mapState (·.setConn sender.user fun c => { c with publicKey := some publicKey })).sendFrame
    sender (.serverHello nonce "Rumble Server" sender.user)

def handleClientHello (cfg : Config) (env : Env) (sender : HandleId) (username : String)
    (publicKey : List UInt8) (password : Option String) (w : World) : World :=
  match Bytes.ofList? 32 publicKey with
  | none => w.sendAuthFailed sender "Invalid public key length"
  | some key =>
    match helloRefusal cfg w.store username key password with
    | some error => w.sendAuthFailed sender error
    | none => (w.issueNonce env sender username key).storeHelloKey sender key env.nonce

/-- An `i64` operation that saturates. -/
def saturateI64 (i : Int) : Int := max (-2 ^ 63) (min i (2 ^ 63 - 1))

/-- The clock and signature checks of an authentication. -/
def verifyAuth (cfg : Config) (env : Env) (pending : PendingAuth) (signature : List UInt8)
    (timestampMs : Int) : Except String Unit :=
  let diffMs := saturateI64 (saturateI64 (env.nowMs - timestampMs)).natAbs
  if diffMs > 5 * 60 * 1000 then .error "Timestamp out of range"
  else if signature.length ≠ 64 then .error "Invalid signature length"
  else if !cfg.validKey pending.publicKey then .error "Invalid public key"
  else if !cfg.verifyStrict pending.publicKey
      (buildAuthPayload pending.nonce timestampMs pending.publicKey pending.userId
        cfg.serverCertHash) signature then .error "Invalid signature"
  else .ok ()

/-- Lift the ban of a key when its record has expired. -/
def liftExpiredBan (store : Persistence) (key : PublicKey) (nowSecs : Nat) : Persistence :=
  match store.getBan key with
  | some ban => if ban.isExpired nowSecs then store.liftBan key else store
  | none => store

/-- Whether the groups of a key carry the BANNED flag now, and the store with what has lapsed
removed. -/
def banCheck (store : Persistence) (key : PublicKey) (nowSecs : Nat) : Bool × Persistence :=
  let (userGroups, store) := (liftExpiredBan store key nowSecs).activeUserGroups key nowSecs
  let checkGroups :=
    userGroupList userGroups ((store.getRegisteredUser key).map RegisteredUser.username)
  let effective :=
    effectivePermissions checkGroups store.groupPerms [(rootRoomUuid, none)] false
  (effective.contains Permissions.banned, store)

/-- The session certificate checks. -/
def verifyCert (cfg : Config) (env : Env) (publicKey : PublicKey)
    (cert : Option SessionCertificate) : Except String SessionEntry :=
  match cert with
  | none => .error "Missing session certificate"
  | some cert =>
    match Bytes.ofList? 32 cert.sessionPublicKey with
    | none => .error "Invalid session public key length"
    | some sessionPublicKey =>
      if cert.expiresMs ≤ cert.issuedMs then .error "Session certificate expiry invalid"
      else if cert.expiresMs < env.nowMs then .error "Session certificate expired"
      else if cert.userSignature.length ≠ 64 then
        .error "Invalid session certificate signature length"
      else if !cfg.verifyStrict publicKey
          (buildSessionCertPayload sessionPublicKey cert.issuedMs cert.expiresMs cert.device)
          cert.userSignature then .error "Invalid session certificate signature"
      else .ok
        { userPublicKey := publicKey
          sessionPublicKey := sessionPublicKey
          sessionId := cfg.blake3 sessionPublicKey.data
          issuedMs := cert.issuedMs
          expiresMs := cert.expiresMs
          device := cert.device }

/-- The room a login starts in: the last room of a registered user while it exists, else Root. -/
def initialRoom (w : World) (key : PublicKey) : Uuid :=
  match (w.store.getRegisteredUser key).bind RegisteredUser.lastRoom with
  | some lastRoom =>
    if w.state.data.rooms.any fun r => r.id == lastRoom then lastRoom else rootRoomUuid
  | none => rootRoomUuid

/-- Mark the connection authenticated and load its identity from the store. -/
def markAuthenticated (w : World) (env : Env) (sender : HandleId) (pending : PendingAuth) :
    World :=
  let key := pending.publicKey
  let w := w.mapState (·.setConn sender.user fun c => { c with authenticated := true })
  let w := w.mapStore (·.addKnownKey key)
  let (active, store) := w.store.activeUserGroups key env.nowSecs
  let w := w.mapStore fun _ => store
  let verifiedUsername := (w.store.getRegisteredUser key).map RegisteredUser.username
  w.mapState (·.setIdentity sender.user fun i => { i with
    groups := userGroupList active none
    verifiedUsername := verifiedUsername
    displayName := verifiedUsername.getD pending.username })

/-- The roster entry announced for a login: every flag false. -/
def joinedUser (w : World) (userId : UserId) (room : Uuid) : UserInfo where
  userId := some userId
  username := w.displayNameOf userId
  currentRoom := some (roomIdFromUuid room)
  isMuted := false
  isDeafened := false
  serverMuted := false
  isElevated := false
  groups := (w.state.conn userId).identity.groups
  label := none

/-- Place the user, send the full state, announce the arrival, welcome. -/
def enterServer (cfg : Config) (w : World) (sender : HandleId) (key : PublicKey) : World :=
  let room := w.initialRoom key
  let w := w.mapData (·.setUserRoom sender.user room)
  let w := w.sendServerStateToClient cfg sender
  let w := w.broadcastStateUpdate (.userJoined (some (w.joinedUser sender.user room)))
  match cfg.welcomeMessage with
  | some text => w.sendFrame sender (.welcomeMessage text)
  | none => w

/-- Everything a successful authentication publishes, after its checks. -/
def publishAuth (cfg : Config) (w : World) (env : Env) (sender : HandleId) (pending : PendingAuth)
    (session : SessionEntry) : World :=
  let w := w.markAuthenticated env sender pending
  let w := w.evictSupersededSessions pending.publicKey (w.displayNameOf sender.user) sender.user
  let w := w.mapState (·.addSession sender.user session)
  w.enterServer cfg sender pending.publicKey

def handleAuthenticate (cfg : Config) (env : Env) (sender : HandleId) (signature : List UInt8)
    (timestampMs : Int) (sessionCert : Option SessionCertificate) (w : World) : World :=
  match w.state.takePendingAuth sender.user with
  | (none, _) => w.sendAuthFailed sender "No pending authentication"
  | (some pending, state) =>
    let w := w.mapState fun _ => state
    match verifyAuth cfg env pending signature timestampMs with
    | .error error => w.sendAuthFailed sender error
    | .ok () =>
      let (banned, store) := banCheck w.store pending.publicKey env.nowSecs
      let w := w.mapStore fun _ => store
      if banned then w.sendAuthFailed sender "You are banned from this server"
      else match verifyCert cfg env pending.publicKey sessionCert with
        | .error error => w.sendAuthFailed sender error
        | .ok session => w.publishAuth cfg env sender pending session

/-! ## Chat -/

/-- Breadth-first search over the child links; Root is nobody's child. -/
def bfsRooms (rooms : List Room) : Nat → List Uuid → List Uuid → List Uuid
  | 0, _, result => result
  | _ + 1, [], result => result
  | fuel + 1, current :: queue, result =>
    let kids := (rooms.filter fun r => r.id ≠ rootRoomUuid ∧ r.parent = current).map Room.id
    let fresh := kids.foldl (fun acc k => if k ∈ result ++ acc then acc else acc ++ [k]) []
    bfsRooms rooms fuel (queue ++ fresh) (result ++ fresh)

/-- A room and its descendants; a room enters the queue at most once. -/
def collectDescendantRooms (rooms : List Room) (root : Uuid) : List Uuid :=
  bfsRooms rooms (rooms.length + 1) [root] [root]

/-- Map members to delivery connections, each connection once. -/
def dedupDeliveryTargets (recipients : List UserId) (resolve : UserId → Option UserId) :
    List UserId :=
  (recipients.filterMap resolve).foldl (fun acc c => if c ∈ acc then acc else acc ++ [c]) []

/-- Chat authored by a member into a room (and its descendants): whether it was accepted. -/
def broadcastChatInRoom (w : World) (senderId : UserId) (room : Uuid) (text : String)
    (isTree : Bool) (id : List UInt8) (timestampMs : Int) (attachment : Option ChatAttachment) :
    Bool × World :=
  match w.state.getMember senderId with
  | none => (false, w)
  | some member =>
    if !(evaluateMemberPermissions w.state w.store senderId member room).contains
        Permissions.textMessage then
      (false, match member with
        | .client => w.sendPermissionDenied (primary senderId) room Permissions.textMessage
        | .owned _ _ => w)
    else
      let frame := Frame.chatBroadcast id timestampMs
        (w.state.memberIdentity senderId member).displayName senderId text
        (if isTree then some true else none) attachment
      let targetRooms :=
        if isTree then collectDescendantRooms w.state.data.rooms room else [room]
      let members := (w.state.data.memberships.filter fun m => m.2 ∈ targetRooms).map Prod.fst
      let targets := (dedupDeliveryTargets members w.state.deliveryClient).filter fun c =>
        some c ≠ w.state.deliveryClient senderId
      (true, targets.foldl (fun w c => w.sendFrame (primary c) frame) w)

/-- Chat into the author's current room. -/
def broadcastChatAs (w : World) (senderId : UserId) (text : String) (isTree : Bool)
    (id : List UInt8) (timestampMs : Int) (attachment : Option ChatAttachment) : Bool × World :=
  w.broadcastChatInRoom senderId ((w.state.data.getUserRoom senderId).getD rootRoomUuid) text
    isTree id timestampMs attachment

/-- A provided 16-byte id is kept, any other is replaced. -/
def messageId (env : Env) (id : List UInt8) : List UInt8 :=
  if id.length = 16 then id else env.newUuid.data

def messageTime (env : Env) (timestampMs : Int) : Int :=
  if timestampMs > 0 then timestampMs else env.nowMs

def handleChatMessage (env : Env) (sender : HandleId) (id : List UInt8) (timestampMs : Int)
    (text : String) (tree : Option Bool) (attachment : Option ChatAttachment) (w : World) : World :=
  (w.broadcastChatAs sender.user text (tree.getD false) (messageId env id)
    (messageTime env timestampMs) attachment).2

def handleDirectMessage (env : Env) (sender : HandleId) (target : UserId) (text : String)
    (id : List UInt8) (timestampMs : Int) (w : World) : World :=
  if target = sender.user then
    w.sendCommandResult sender "DirectMessage" false "Cannot send a DM to yourself"
  else match w.state.getMember target, w.state.deliveryClient target with
    | some member, some client =>
      w.sendFrame (primary client) (.directMessageReceived sender.user
        (w.displayNameOf sender.user) text (messageId env id) (messageTime env timestampMs) target
        (w.state.memberIdentity target member).displayName)
    | _, _ => w.sendCommandResult sender "DirectMessage" false "Target user not found"

/-! ## Rooms -/

/-- A wire room id, absent or malformed ones read as Root. -/
def roomIdOrRoot (r : Option RoomId) : Uuid := (r.bind uuidFromRoomId).getD rootRoomUuid

/-- SPEAK in the joined room decides the server-mute flag of the stream's own handle. -/
def refreshJoinMute (w : World) (sender : HandleId) (room : Uuid) : World :=
  let speakDenied :=
    !(evaluateUserPermissions w.state w.store sender room).contains Permissions.speak
  let shouldServerMute := speakDenied || (w.state.handle sender).manuallyServerMuted
  let wasServerMuted := (w.state.handle sender).serverMuted
  let w := w.mapState (·.setHandle sender fun c => { c with serverMuted := shouldServerMute })
  if shouldServerMute ≠ wasServerMuted then
    let status := w.state.data.getUserStatus sender.user
    w.broadcastStateUpdate (.userStatusChanged (some sender.user) status.isMuted
      status.isDeafened shouldServerMute (w.state.handle sender).isSuperuser)
  else w

/-- Remember the room of a registered user. -/
def saveLastRoom (w : World) (userId : UserId) (room : Uuid) : World :=
  match w.state.getUserPublicKey userId with
  | some key =>
    if w.store.isRegistered key then w.mapStore (·.updateUserLastRoom key (some room)) else w
  | none => w

def handleJoinRoom (sender : HandleId) (roomId : Option RoomId) (w : World) : World :=
  let room := roomIdOrRoot roomId
  w.requirePermission sender room Permissions.enter fun w =>
    match w.state.data.findRoom room with
    | none => w.sendCommandResult sender "JoinRoom" false "Room not found"
    | some r =>
      let w := w.mapData (·.setUserRoom sender.user room)
      let w := w.refreshJoinMute sender room
      let w := w.saveLastRoom sender.user room
      let w := w.broadcastStateUpdate
        (.userMoved (some sender.user) (some (roomIdFromUuid room)))
      w.sendCommandResult sender "JoinRoom" true ("Joined '" ++ r.name ++ "'")

def handleCreateRoom (env : Env) (sender : HandleId) (name : String) (parentId : Option RoomId)
    (description : Option String) (w : World) : World :=
  let parentUuid := parentId.bind uuidFromRoomId
  w.requirePermission sender (parentUuid.getD rootRoomUuid) Permissions.makeRoom fun w =>
    match w.applyCreateRoom env name parentUuid description with
    | (.ok _, w) => w.sendCommandResult sender "CreateRoom" true ("Created room '" ++ name ++ "'")
    | (.error message, w) => w.sendCommandResult sender "CreateRoom" false message

def handleDeleteRoom (sender : HandleId) (roomId : Option RoomId) (w : World) : World :=
  let room := roomIdOrRoot roomId
  w.requirePermission sender room Permissions.modifyRoom fun w =>
    match w.applyDeleteRoom room with
    | (.ok roomName, w) =>
      w.sendCommandResult sender "DeleteRoom" true ("Deleted room '" ++ roomName ++ "'")
    | (.error message, w) => w.sendCommandResult sender "DeleteRoom" false message

def handleRenameRoom (sender : HandleId) (roomId : Option RoomId) (newName : String) (w : World) :
    World :=
  let room := roomIdOrRoot roomId
  w.requirePermission sender room Permissions.modifyRoom fun w =>
    let oldName := w.roomNameOr room "room"
    match w.state.data.renameRoom room newName with
    | none => w.sendCommandResult sender "RenameRoom" false "Room not found"
    | some data =>
      let w := w.mapData fun _ => data
      let w := w.mapStore (·.updateRoom room fun r => { r with name := newName })
      let w := w.broadcastStateUpdate (.roomRenamed (some (roomIdFromUuid room)) newName)
      w.sendCommandResult sender "RenameRoom" true
        ("Renamed '" ++ oldName ++ "' to '" ++ newName ++ "'")

/-- The parent of a room on the cycle walk; a top-level room has none. -/
def properParent (rooms : List Room) (u : Uuid) : Option Uuid :=
  (parentLink rooms u).filter (· ≠ rootRoomUuid)

/-- Whether the walk up from `cursor` meets `room` within its step bound. -/
def walkMeets (rooms : List Room) (room : Uuid) : Nat → Uuid → Bool
  | 0, cursor => cursor == room
  | fuel + 1, cursor =>
    cursor == room || match properParent rooms cursor with
      | some parent => walkMeets rooms room fuel parent
      | none => false

/-- The move closes a cycle: `room` is met from its new parent upwards. -/
def closesCycle (rooms : List Room) (room newParent : Uuid) : Bool :=
  walkMeets rooms room rooms.length newParent

def handleMoveRoom (sender : HandleId) (roomId newParentId : Option RoomId) (w : World) : World :=
  let room := roomIdOrRoot roomId
  let newParent := roomIdOrRoot newParentId
  w.requirePermission sender room Permissions.modifyRoom fun w =>
  w.requirePermission sender newParent Permissions.makeRoom fun w =>
    let roomName := w.roomNameOr room "room"
    let newParentName := w.roomNameOr newParent "Root"
    if newParent = room then
      w.sendCommandResult sender "MoveRoom" false "Cannot move a room into itself"
    else if closesCycle w.state.data.rooms room newParent then
      w.sendCommandResult sender "MoveRoom" false "Cannot move a room into its own descendant"
    else match w.state.data.moveRoom room newParent with
      | none => w.sendCommandResult sender "MoveRoom" false "Room not found"
      | some data =>
        let w := w.mapData fun _ => data
        let w := w.mapStore (·.updateRoom room fun r => { r with parent := some newParent })
        -- The update carries the ids as they came, not the resolved ones.
        let w := w.broadcastStateUpdate (.roomMoved roomId newParentId)
        w.sendCommandResult sender "MoveRoom" true
          ("Moved '" ++ roomName ++ "' into '" ++ newParentName ++ "'")

def handleSetRoomDescription (sender : HandleId) (roomId : Option RoomId) (description : String)
    (w : World) : World :=
  let room := roomIdOrRoot roomId
  w.requirePermission sender room Permissions.modifyRoom fun w =>
    match w.state.data.setRoomDescription room description with
    | none => w.sendCommandResult sender "SetRoomDescription" false "Room not found"
    | some data =>
      let w := w.mapData fun _ => data
      let w := w.mapStore (·.updateRoom room fun r => { r with description := description })
      let w := w.broadcastStateUpdate
        (.roomDescriptionChanged (some (roomIdFromUuid room)) description)
      w.sendCommandResult sender "SetRoomDescription" true "Description updated"

/-! ## Status -/

def handleSetUserStatus (sender : HandleId) (isMuted isDeafened : Bool) (w : World) : World :=
  let w := w.mapData fun d => d.setUserStatus sender.user
    { d.getUserStatus sender.user with isMuted := isMuted, isDeafened := isDeafened }
  w.broadcastStateUpdate (.userStatusChanged (some sender.user) isMuted isDeafened
    (w.state.handle sender).serverMuted (w.state.handle sender).isSuperuser)

/-- A target that is not a client cannot be muted; lifting a manual mute re-evaluates SPEAK. -/
def handleSetServerMute (sender : HandleId) (target : UserId) (muted : Bool) (w : World) : World :=
  let targetRoom := (w.state.data.getUserRoom target).getD rootRoomUuid
  w.requirePermission sender targetRoom Permissions.muteDeafen fun w =>
    if !w.state.getClient target then
      w.sendCommandResult sender "SetServerMute" false (w.notAClientReason target "mute")
    else
      let h := primary target
      let w := w.mapState (·.setHandle h fun c => { c with manuallyServerMuted := muted })
      let effectiveMuted := muted ||
        !(evaluateUserPermissions w.state w.store h targetRoom).contains Permissions.speak
      let w := w.mapState (·.setHandle h fun c => { c with serverMuted := effectiveMuted })
      let status := w.state.data.getUserStatus target
      let w := w.broadcastStateUpdate (.userStatusChanged (some target) status.isMuted
        status.isDeafened effectiveMuted (w.state.handle h).isSuperuser)
      w.sendCommandResult sender "SetServerMute" true
        ((if muted then "Server muted" else "Server unmuted") ++ " '" ++ w.displayNameOf target ++
          "'")

def handleElevate (cfg : Config) (sender : HandleId) (password : String) (w : World) : World :=
  w.requirePermission sender rootRoomUuid Permissions.sudoFlag fun w =>
    match w.store.sudoPassword with
    | none => w.sendCommandResult sender "Elevate" false "Sudo password not configured"
    | some hash =>
      if !cfg.bcryptVerify password hash then
        w.sendCommandResult sender "Elevate" false "Incorrect password"
      else
        let w := w.mapState (·.setHandle sender fun c => { c with isSuperuser := true })
        let status := w.state.data.getUserStatus sender.user
        let w := w.broadcastStateUpdate (.userStatusChanged (some sender.user) status.isMuted
          status.isDeafened (w.state.handle sender).serverMuted true)
        w.sendCommandResult sender "Elevate" true "Elevated to superuser"

/-! ## Registration and moderation -/

/-- The permission a registration of `target` needs. -/
def registrationPermission (sender : HandleId) (target : UserId) : Permissions :=
  if target = sender.user then Permissions.selfRegister else Permissions.register

def handleRegisterUser (sender : HandleId) (userId : Option UserId) (w : World) : World :=
  let target := userId.getD 0
  w.requirePermission sender rootRoomUuid (registrationPermission sender target) fun w =>
    replyResult sender "RegisterUser" (w.applyRegisterUser target)

def handleUnregisterUser (sender : HandleId) (userId : Option UserId) (w : World) : World :=
  let target := userId.getD 0
  w.requirePermission sender rootRoomUuid (registrationPermission sender target) fun w =>
    replyResult sender "UnregisterUser" (w.applyUnregisterUser target)

def handleKickUser (sender : HandleId) (target : UserId) (reason : String) (w : World) : World :=
  w.requirePermission sender rootRoomUuid Permissions.kick fun w =>
    if target = sender.user then
      w.sendCommandResult sender "KickUser" false "Cannot kick yourself"
    else replyResult sender "KickUser" (w.applyKick target reason (w.displayNameOf sender.user))

def handleBanUser (env : Env) (sender : HandleId) (target : UserId) (durationSeconds : Nat)
    (reason : String) (w : World) : World :=
  w.requirePermission sender rootRoomUuid Permissions.ban fun w =>
    if target = sender.user then
      w.sendCommandResult sender "BanUser" false "Cannot ban yourself"
    else replyResult sender "BanUser"
      (w.applyBan env target durationSeconds reason (w.displayNameOf sender.user))

/-! ## Groups and ACLs -/

/-- The handlers gated on MANAGE_ACL at Root: run the operation, report its outcome. -/
def manageAcl (sender : HandleId) (command : String) (op : World → OpResult) (w : World) : World :=
  w.requirePermission sender rootRoomUuid Permissions.manageAcl fun w =>
    replyResult sender command (op w)

def handleCreateGroup (sender : HandleId) (name : String) (permissions : BitVec 32) :
    World → World :=
  manageAcl sender "CreateGroup" (·.applyCreateGroup name permissions)

def handleDeleteGroup (sender : HandleId) (name : String) : World → World :=
  manageAcl sender "DeleteGroup" (·.applyDeleteGroup name)

def handleModifyGroup (sender : HandleId) (name : String) (permissions : BitVec 32) :
    World → World :=
  manageAcl sender "ModifyGroup" (·.applyModifyGroup name permissions)

def handleToggleGroupPermission (sender : HandleId) (name : String) (bits : BitVec 32)
    (enable : Bool) : World → World :=
  manageAcl sender "ToggleGroupPermission" (·.applyToggleGroupPermission name bits enable)

def handleSetUserGroup (sender : HandleId) (target : UserId) (group : String) (add : Bool)
    (expiresAt : Nat) : World → World :=
  manageAcl sender "SetUserGroup" (·.applySetUserGroup target group add expiresAt)

def handleSetRegisteredUserGroup (sender : HandleId) (publicKey : List UInt8) (group : String)
    (add : Bool) (expiresAt : Nat) : World → World :=
  manageAcl sender "SetRegisteredUserGroup" fun w =>
    match Bytes.ofList? 32 publicKey with
    | none => (.error "Invalid public key", w)
    | some key => w.applySetUserGroupByKey key group add expiresAt

/-- One registered identity of the admin snapshot; reading it sweeps its lapsed memberships. -/
def registeredUserInfo (online : List PublicKey) (nowSecs : Nat)
    (acc : List RegisteredUserInfo × Persistence) (e : PublicKey × RegisteredUser) :
    List RegisteredUserInfo × Persistence :=
  let (groups, store) := acc.2.activeUserGroups e.1 nowSecs
  (acc.1 ++ [{ publicKey := e.1
               username := e.2.username
               groups := groups.map fun g => (g, store.getGroupExpiry e.1 g)
               online := e.1 ∈ online }], store)

def handleRequestRegisteredUsers (env : Env) (sender : HandleId) (w : World) : World :=
  w.requirePermission sender rootRoomUuid Permissions.manageAcl fun w =>
    let online := w.state.snapshotClients.filterMap w.state.getUserPublicKey
    let (users, store) :=
      w.store.listRegisteredUsers.foldl (registeredUserInfo online env.nowSecs) ([], w.store)
    (w.mapStore fun _ => store).sendFrame sender (.registeredUsers users)

/-- A room id that is not 16 bytes is an error here, not Root. -/
def handleSetRoomAcl (cfg : Config) (sender : HandleId) (roomId : List UInt8) (inheritAcl : Bool)
    (entries : List RoomAclEntry) (baseVersion : Nat) (w : World) : World :=
  match Bytes.ofList? 16 roomId with
  | none => w.sendCommandResult sender "SetRoomAcl" false "Missing or invalid room ID"
  | some room =>
    w.requirePermission sender room Permissions.write fun w =>
      replyResult sender "SetRoomAcl" (w.applySetRoomAcl cfg room inheritAcl entries baseVersion)

/-! ## Controllers and participants -/

/-- A controller is infrastructure: its own user leaves the roster. -/
def handleControllerHello (sender : HandleId) (w : World) : World :=
  if (w.state.handle sender).isController then
    w.sendCommandResult sender "ControllerHello" false "Already a controller"
  else if !(evaluateUserPermissions w.state w.store sender rootRoomUuid).contains
      Permissions.manageParticipants then
    w.sendCommandResult sender "ControllerHello" false "Missing MANAGE_PARTICIPANTS permission"
  else
    let w := w.mapState (·.setHandle sender fun c => { c with isController := true })
    let w := w.mapData (·.removeUserMembership sender.user)
    let w := w.broadcastStateUpdate (.userLeft (some sender.user))
    w.sendCommandResult sender "ControllerHello" true "Controller mode activated"

/-- The default group of a new participant is looked up by the key on the connection. -/
def handleRegisterParticipant (sender : HandleId) (username : String) (label : Option String)
    (w : World) : World :=
  let groups := ((w.state.conn sender.user).publicKey.bind
    w.store.getParticipantDefaultGroup).toList
  let (userId, w) :=
    w.createParticipant (.connection sender.user) username label none groups true
  w.sendFrame sender (.participantRegistered userId username)

/-- Run `rest` when the participant belongs to this controller. -/
def withParticipant (sender : HandleId) (command : String) (userId : UserId)
    (rest : World → World) (w : World) : World :=
  if w.state.isParticipantOf userId (.connection sender.user) then rest w
  else w.sendCommandResult sender command false "Not your participant"

def handleUnregisterParticipant (sender : HandleId) (userId : UserId) : World → World :=
  withParticipant sender "UnregisterParticipant" userId fun w =>
    (w.removeParticipant userId).sendCommandResult sender "UnregisterParticipant" true
      "Participant removed"

def handleMoveParticipant (sender : HandleId) (userId : UserId) (roomId : Option RoomId) :
    World → World :=
  withParticipant sender "MoveParticipant" userId fun w =>
    match w.moveParticipantToRoom userId (roomIdOrRoot roomId) with
    | (false, w) => w.sendCommandResult sender "MoveParticipant" false "Room not found"
    | (true, w) => w.sendCommandResult sender "MoveParticipant" true "Participant moved"

def handleSetParticipantStatus (sender : HandleId) (userId : UserId) (isMuted isDeafened : Bool) :
    World → World :=
  withParticipant sender "SetParticipantStatus" userId fun w =>
    w.setParticipantStatusCore userId isMuted isDeafened

def handleParticipantChat (env : Env) (sender : HandleId) (userId : UserId) (text : String)
    (tree : Option Bool) (roomId : Option RoomId) : World → World :=
  withParticipant sender "ParticipantChat" userId fun w =>
    match roomId.bind uuidFromRoomId with
    | some room =>
      (w.broadcastChatInRoom userId room text (tree.getD false) env.newUuid.data env.nowMs none).2
    | none =>
      (w.broadcastChatAs userId text (tree.getD false) env.newUuid.data env.nowMs none).2

/-! ## Voice relay -/

/-- The stamped datagram, its room and the other members of that room. -/
structure RelayPacket where
  datagram : VoiceDatagram
  recipients : List UserId
  room : Uuid
  deriving DecidableEq

/-- Who a datagram speaks for: a controller must name one of its participants. -/
def effectiveSender (s : ServerState) (senderUserId : UserId) (dgram : VoiceDatagram) :
    Option UserId :=
  if s.getClient senderUserId && (s.handle (primary senderUserId)).isController then
    dgram.senderId.filter fun claimed => s.isParticipantOf claimed (.connection senderUserId)
  else some senderUserId

/-- The rate-limit verdict of a user's datagram, and the state after it. -/
def checkVoiceRate (s : ServerState) (env : Env) (userId : UserId) (bytes : Nat) :
    Bool × ServerState :=
  let (allowed, limiter) :=
    ((s.voiceRateLimits.get userId).getD ⟨env.instant, 0⟩).check env.instant bytes
  (allowed, { s with voiceRateLimits := s.voiceRateLimits.set userId limiter })

/-- The datagram stamped for relay, when the sender is in a room. -/
def routeDatagram (s : ServerState) (sender : UserId) (dgram : VoiceDatagram) :
    Option RelayPacket :=
  (s.data.getUserRoom sender).map fun room =>
    { datagram := { dgram with senderId := some sender, roomId := some room.data }
      recipients := (s.data.getRoomMembers room).filter fun id =>
        id ≠ sender && !(s.data.userStatuses.any fun e => e.1 == id && e.2.isDeafened)
      room := room }

/-- Route an inbound voice datagram. Only the cached server-mute flag stands for SPEAK here. -/
def buildRelayPacket (s : ServerState) (env : Env) (senderUserId : UserId) (dgram : VoiceDatagram)
    (datagramLen : Nat) : Option RelayPacket × ServerState :=
  match effectiveSender s senderUserId dgram with
  | none => (none, s)
  | some sender =>
    let isController :=
      s.getClient senderUserId && (s.handle (primary senderUserId)).isController
    if !isController && s.getClient senderUserId &&
        (s.handle (primary senderUserId)).serverMuted then (none, s)
    else if (s.data.getUserStatus sender).isMuted then (none, s)
    else
      let (allowed, s) := checkVoiceRate s env senderUserId datagramLen
      if !allowed then (none, s) else (routeDatagram s sender dgram, s)

/-- Relay a datagram to the delivery connections of its room. -/
def handleDatagram (env : Env) (senderUserId : UserId) (dgram : VoiceDatagram) (datagramLen : Nat)
    (w : World) : World :=
  let (packet, state) := buildRelayPacket w.state env senderUserId dgram datagramLen
  let w := w.mapState fun _ => state
  match packet with
  | none => w
  | some packet =>
    let targets := dedupDeliveryTargets packet.recipients w.state.deliveryClient
    w.emit (.relay (targets.filter w.state.getClient) packet.datagram)

end World

end Rumble.Server
