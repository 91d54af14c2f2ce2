import Rumble.Protocol.Permissions

/-!
# Envelopes

The client-to-server payloads of `proto::Envelope`, the frames the server sends back, and the
byte payloads that `rumble-protocol/src/lib.rs` signs and hashes.

A hash on the wire is kept as the message it is the digest of: `expected_hash` and `state_hash`
carry the `stateHashInput` they were computed from.
-/

namespace Rumble

/-! ## Byte payloads -/

/-- The low `n` bytes of `v`, most significant first. -/
def beBytes : Nat → Nat → List UInt8
  | 0, _ => []
  | n + 1, v => beBytes n (v / 256) ++ [UInt8.ofNat (v % 256)]

/-- The low `n` bytes of `v`, least significant first. -/
def leBytes (n v : Nat) : List UInt8 := (beBytes n v).reverse

/-- The two's-complement bits of an `i64`. -/
def i64Bits (i : Int) : Nat := (i % 2 ^ 64).toNat

def buildAuthPayload (nonce : Nonce) (timestampMs : Int) (publicKey : PublicKey) (userId : UserId)
    (serverCertHash : Bytes 32) : List UInt8 :=
  nonce.data ++ beBytes 8 (i64Bits timestampMs) ++ publicKey.data ++ beBytes 8 userId ++
    serverCertHash.data

def buildSessionCertPayload (sessionPublicKey : Bytes 32) (issuedMs expiresMs : Int)
    (device : Option String) : List UInt8 :=
  let deviceBytes := (device.getD "").toUTF8.toList
  sessionPublicKey.data ++ beBytes 8 (i64Bits issuedMs) ++ beBytes 8 (i64Bits expiresMs) ++
    beBytes 2 deviceBytes.length ++ deviceBytes

/-- The bytes `room_acl_version` feeds the hasher for one entry. -/
def RoomAclEntry.versionBytes (e : RoomAclEntry) : List UInt8 :=
  leBytes 8 e.group.toUTF8.size ++ e.group.toUTF8.toList ++ leBytes 4 e.grant.toNat ++
    leBytes 4 e.deny.toNat ++ [if e.applyHere then 1 else 0, if e.applySubs then 1 else 0]

/-- The optimistic-concurrency token of an ACL; never 0. -/
def roomAclVersion (blake3 : List UInt8 → Bytes 32) (inheritAcl : Bool)
    (entries : List RoomAclEntry) : Nat :=
  let digest := blake3 ((if inheritAcl then 1 else 0) :: entries.flatMap RoomAclEntry.versionBytes)
  let v := (digest.data.take 8).foldr (fun b acc => b.toNat + 256 * acc) 0
  if v = 0 then 1 else v

/-! ## Client to server -/

structure SessionCertificate where
  sessionPublicKey : List UInt8
  issuedMs : Int
  expiresMs : Int
  device : Option String
  userSignature : List UInt8
  deriving DecidableEq

structure ChatAttachment where
  nspace : String
  schemaVersion : Nat
  payload : List UInt8
  fallbackText : String
  deriving DecidableEq

/-- `envelope::Payload`, the variants a client sends; `other` stands for the server-to-client
variants and the empty payload, which the server ignores. -/
inductive Payload where
  | clientHello (username : String) (publicKey : List UInt8) (password : Option String)
  | authenticate (signature : List UInt8) (timestampMs : Int) (sessionCert : Option SessionCertificate)
  | chatMessage (id : List UInt8) (timestampMs : Int) (text : String) (tree : Option Bool)
      (attachment : Option ChatAttachment)
  | directMessage (targetUserId : UserId) (text : String) (id : List UInt8) (timestampMs : Int)
  | joinRoom (roomId : Option RoomId)
  | disconnect
  | createRoom (name : String) (parentId : Option RoomId) (description : Option String)
  | deleteRoom (roomId : Option RoomId)
  | renameRoom (roomId : Option RoomId) (newName : String)
  | moveRoom (roomId newParentId : Option RoomId)
  | setRoomDescription (roomId : Option RoomId) (description : String)
  | requestStateSync
  | setUserStatus (isMuted isDeafened : Bool)
  | registerUser (userId : Option UserId)
  | unregisterUser (userId : Option UserId)
  | controllerHello
  | registerParticipant (username : String) (label : Option String)
  | unregisterParticipant (userId : UserId)
  | moveParticipant (userId : UserId) (roomId : Option RoomId)
  | setParticipantStatus (userId : UserId) (isMuted isDeafened : Bool)
  | participantChat (userId : UserId) (text : String) (tree : Option Bool)
      (roomId : Option RoomId)
  | kickUser (targetUserId : UserId) (reason : String)
  | banUser (targetUserId : UserId) (durationSeconds : Nat) (reason : String)
  | setServerMute (targetUserId : UserId) (muted : Bool)
  | elevate (password : String)
  | createGroup (name : String) (permissions : BitVec 32)
  | deleteGroup (name : String)
  | modifyGroup (name : String) (permissions : BitVec 32)
  | toggleGroupPermission (name : String) (bits : BitVec 32) (enable : Bool)
  | setUserGroup (targetUserId : UserId) (group : String) (add : Bool) (expiresAt : Nat)
  | setRoomAcl (roomId : List UInt8) (inheritAcl : Bool) (entries : List RoomAclEntry)
      (baseVersion : Nat)
  | requestRegisteredUsers
  | setRegisteredUserGroup (publicKey : List UInt8) (group : String) (add : Bool) (expiresAt : Nat)
  | other
  deriving DecidableEq

/-- `proto::VoiceDatagram`. -/
structure VoiceDatagram where
  opusData : List UInt8
  sequence : Nat
  timestampUs : Nat
  endOfStream : Bool
  senderId : Option UserId
  roomId : Option (List UInt8)
  deriving DecidableEq

/-! ## Server to client -/

/-- `proto::RegisteredUserInfo`: memberships with their expiry (`0` is permanent). -/
structure RegisteredUserInfo where
  publicKey : PublicKey
  username : String
  groups : List (String × Nat)
  online : Bool
  deriving DecidableEq

/-- A frame on a server-to-client stream. -/
inductive Frame where
  | serverHello (nonce : Nonce) (serverName : String) (userId : UserId)
  | authFailed (error : String)
  | commandResult (command : String) (success : Bool) (message : String)
  | permissionDenied (requiredPermission : Permissions) (roomId : List UInt8) (message : String)
  | serverState (stateHash state : ServerStateMsg)
  | stateUpdate (expectedHash : ServerStateMsg) (update : Update)
  | welcomeMessage (text : String)
  | chatBroadcast (id : List UInt8) (timestampMs : Int) (sender : String) (senderId : UserId)
      (text : String) (tree : Option Bool) (attachment : Option ChatAttachment)
  | directMessageReceived (senderId : UserId) (senderName text : String) (id : List UInt8)
      (timestampMs : Int) (targetUserId : UserId) (targetUsername : String)
  | userKicked (userId : UserId) (reason kickedBy : String)
  | participantRegistered (userId : UserId) (username : String)
  | registeredUsers (users : List RegisteredUserInfo)
  | keepAlive
  deriving DecidableEq

/-- The flag names, in declaration order (the `Debug` output of a permission set). -/
def Permissions.flagNames : List (Permissions × String) :=
  [(Permissions.traverse, "TRAVERSE"), (Permissions.enter, "ENTER"), (Permissions.speak, "SPEAK"),
    (Permissions.textMessage, "TEXT_MESSAGE"), (Permissions.shareFile, "SHARE_FILE"),
    (Permissions.muteDeafen, "MUTE_DEAFEN"), (Permissions.moveUser, "MOVE_USER"),
    (Permissions.makeRoom, "MAKE_ROOM"), (Permissions.modifyRoom, "MODIFY_ROOM"),
    (Permissions.write, "WRITE"), (Permissions.kick, "KICK"), (Permissions.ban, "BAN"),
    (Permissions.register, "REGISTER"), (Permissions.selfRegister, "SELF_REGISTER"),
    (Permissions.manageAcl, "MANAGE_ACL"), (Permissions.sudoFlag, "SUDO"),
    (Permissions.banned, "BANNED"), (Permissions.manageParticipants, "MANAGE_PARTICIPANTS")]

def Permissions.debug (p : Permissions) : String :=
  "Permissions(" ++ " | ".intercalate
    ((Permissions.flagNames.filter fun f => p.contains f.1).map Prod.snd) ++ ")"

end Rumble
