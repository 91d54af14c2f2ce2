import Rumble.Lib.Hex
import Rumble.Protocol.Wire

/-!
# The keys of a client

`rumble-desktop-shell/src/identity/key_manager.rs`: the configured key, the cached one and the
identity file, the calls that change them, and the signer. The calls replace what is in memory
before they write the file; the signer takes whatever identity is configured when it is asked.
-/

namespace Rumble.Desktop

open Rumble.Lib

/-! ## Keys and where they are stored -/

abbrev SigningKey := Bytes 32

abbrev Signature := Bytes 64

structure KdfParams where
  mCost : UInt32
  tCost : UInt32
  pCost : UInt32
  deriving DecidableEq

/-- What `LocalEncrypted` stores; without `kdf` the record is a legacy one. -/
structure EncryptedKey where
  encryptedData : String
  saltHex : String
  nonceHex : String
  kdf : Option KdfParams
  deriving DecidableEq

inductive KeySource where
  | localPlaintext (privateKeyHex : String)
  | localEncrypted (record : EncryptedKey)
  | sshAgent (fingerprint comment : String)
  deriving DecidableEq

structure KeyConfig where
  source : KeySource
  publicKeyHex : String
  deriving DecidableEq

def KeyConfig.publicKeyBytes (c : KeyConfig) : Option PublicKey :=
  (Hex.decode c.publicKeyHex).bind (Bytes.ofList? 32)

structure KeyInfo where
  fingerprint : String
  comment : String
  publicKey : PublicKey
  deriving DecidableEq

/-- The crates that this code calls. A refusal carries its text. -/
structure KeyCrates where
  /-- `SigningKey::verifying_key().to_bytes()`. -/
  verifyingKey : SigningKey → PublicKey
  /-- `SigningKey::sign(payload).to_bytes()`. -/
  signature : SigningKey → List UInt8 → Signature
  sha256 : List UInt8 → Bytes 32
  /-- `argon2::Params::new`. -/
  argonParams : KdfParams → Except String Unit
  /-- Argon2id on a password and a salt. -/
  argonHash : KdfParams → List UInt8 → List UInt8 → Except String (Bytes 32)
  /-- ChaCha20Poly1305 under a key and a nonce. -/
  encrypt : Bytes 32 → Bytes 12 → List UInt8 → Except String (List UInt8)
  decrypt : Bytes 32 → Bytes 12 → List UInt8 → Option (List UInt8)
  toJson : KeyConfig → List UInt8
  /-- `none` for bytes that do not parse. -/
  fromJson : List UInt8 → Option KeyConfig
  /-- What `hex::decode` says of a text that it refuses. -/
  hexError : String → String

namespace KeyCrates

variable (crates : KeyCrates)

def computeFingerprint (publicKey : PublicKey) : String :=
  "SHA256:" ++ ":".intercalate
    (((crates.sha256 publicKey.data).data.take 16).map fun b => Hex.encode [b])

def keyInfoFromPublicKey (publicKey : PublicKey) (comment : String) : KeyInfo where
  fingerprint := crates.computeFingerprint publicKey
  comment := comment
  publicKey := publicKey

/-! ## Encrypted keys -/

def hexDecode (s : String) : Except String (List UInt8) :=
  match Hex.decode s with
  | some bytes => .ok bytes
  | none => .error (crates.hexError s)

def kdfParamsV2 : KdfParams where
  mCost := 64 * 1024
  tCost := 3
  pCost := 1

def kdfParamsLegacy : KdfParams where
  mCost := 19 * 1024
  tCost := 2
  pCost := 1

def deriveKey (password : String) (salt : List UInt8) (params : KdfParams) :
    Except String (Bytes 32) := do
  (crates.argonParams params).mapError ("Invalid KDF parameters: " ++ ·)
  (crates.argonHash params password.toUTF8.toList salt).mapError ("Key derivation failed: " ++ ·)

/-- What the random generator gives to a new key; it may fail on the salt and on the nonce. -/
structure Randomness where
  privateKey : SigningKey
  salt : Except String (Bytes 16)
  nonce : Except String (Bytes 12)

def encryptKey (random : Randomness) (key : SigningKey) (password : String) :
    Except String EncryptedKey := do
  let salt ← random.salt.mapError ("Failed to generate random salt: " ++ ·)
  let nonce ← random.nonce.mapError ("Failed to generate random nonce: " ++ ·)
  let derivedKey ← crates.deriveKey password salt.data kdfParamsV2
  let ciphertext ← (crates.encrypt derivedKey nonce key.data).mapError ("Encryption failed: " ++ ·)
  pure ⟨Hex.encode ciphertext, Hex.encode salt.data, Hex.encode nonce.data, some kdfParamsV2⟩

/-- The key that a record was encrypted under. A legacy record takes the text of the salt. -/
def recordKey (record : EncryptedKey) (password : String) : Except String (Bytes 32) :=
  match record.kdf with
  | some params => do
    let salt ← crates.hexDecode record.saltHex
    crates.deriveKey password salt params
  | none => crates.deriveKey password record.saltHex.toUTF8.toList kdfParamsLegacy

def decryptKey (record : EncryptedKey) (password : String) : Except String SigningKey := do
  let ciphertext ← crates.hexDecode record.encryptedData
  let nonceBytes ← crates.hexDecode record.nonceHex
  match Bytes.ofList? 12 nonceBytes with
  | none => .error "Invalid nonce length"
  | some nonce => do
    let derivedKey ← crates.recordKey record password
    match crates.decrypt derivedKey nonce ciphertext with
    | none => .error "Decryption failed - wrong password?"
    | some plaintext => match Bytes.ofList? 32 plaintext with
      | none => .error "Invalid decrypted key length"
      | some key => .ok key

end KeyCrates

def parseSigningKey (hexKey : String) : Option SigningKey :=
  (Hex.decode hexKey).bind (Bytes.ofList? 32)

/-! ## The manager and its file -/

structure KeyManager where
  config : Option KeyConfig
  cachedSigningKey : Option SigningKey
  deriving DecidableEq

def KeyManager.publicKeyBytes (m : KeyManager) : Option PublicKey :=
  m.config.bind KeyConfig.publicKeyBytes

/-- `identity.json`, and beside it the file that a save writes first and the backup of one that did
not parse. -/
structure IdentityFiles where
  identity : Option (List UInt8)
  temp : Option (List UInt8)
  corrupt : Option (List UInt8)
  deriving DecidableEq

structure KeyStore where
  manager : KeyManager
  files : IdentityFiles
  deriving DecidableEq

/-- What changes the store and may fail; a failure does not undo what was changed before it. -/
abbrev KeyM := ExceptT String (StateM KeyStore)

/-- The call on a store: what it returns and the store after it. -/
def KeyM.on {α : Type} (call : KeyM α) (s : KeyStore) : Except String α × KeyStore := call.run.run s

/-- Where a save fails. -/
inductive SaveStage where
  | createDir | openTemp
  /-- After some of the bytes. -/
  | write (written : Nat)
  | permissions | sync | rename
  deriving DecidableEq

/-- The temporary file after a failure. -/
def SaveStage.leaves (contents : List UInt8) (temp : Option (List UInt8)) :
    SaveStage → Option (List UInt8)
  | .createDir | .openTemp => temp
  | .write written => some (contents.take written)
  | .permissions | .sync | .rename => some contents

structure SaveFault where
  stage : SaveStage
  error : String
  deriving DecidableEq

/-- The new contents go to the temporary file, which then replaces the old one. -/
def writePrivate (contents : List UInt8) (fault : Option SaveFault) : KeyM Unit :=
  match fault with
  | none => modify fun s =>
    { s with files := { s.files with identity := some contents, temp := none } }
  | some f => do
    modify fun s => { s with files := { s.files with temp := f.stage.leaves contents s.files.temp } }
    throw f.error

namespace KeyManager

variable (crates : KeyCrates)

/-- A file that does not parse is moved away; the move may fail. -/
def loadConfig (files : IdentityFiles) (moved : Bool) : Option KeyConfig × IdentityFiles :=
  match files.identity with
  | none => (none, files)
  | some data => match crates.fromJson data with
    | some config => (some config, files)
    | none => (none, if moved then { files with identity := none, corrupt := some data } else files)

def cachedFor : KeySource → Option SigningKey
  | .localPlaintext privateKeyHex => parseSigningKey privateKeyHex
  | _ => none

/-- `KeyManager::new`. -/
def new (files : IdentityFiles) (moved : Bool) : KeyStore :=
  let (config, files) := loadConfig crates files moved
  { manager := ⟨config, config.bind (cachedFor ·.source)⟩, files := files }

def setConfig (config : KeyConfig) (signingKey : Option SigningKey) : KeyM Unit :=
  modify fun s => { s with manager := ⟨some config, signingKey⟩ }

def saveConfig (fault : Option SaveFault) : KeyM Unit := do
  match (← get).manager.config with
  | none => pure ()
  | some config => writePrivate (crates.toJson config) fault

/-- How a new key is stored. An empty password is none. -/
def sourceFor (random : KeyCrates.Randomness) (password : Option String) : Except String KeySource :=
  match password with
  | some pw =>
    if pw ≠ "" then (crates.encryptKey random random.privateKey pw).map .localEncrypted
    else .ok (.localPlaintext (Hex.encode random.privateKey.data))
  | none => .ok (.localPlaintext (Hex.encode random.privateKey.data))

def generateLocalKey (random : KeyCrates.Randomness) (password : Option String)
    (fault : Option SaveFault) : KeyM KeyInfo := do
  let publicKey := crates.verifyingKey random.privateKey
  let source ← sourceFor crates random password
  setConfig ⟨source, Hex.encode publicKey.data⟩ (some random.privateKey)
  saveConfig crates fault
  pure (crates.keyInfoFromPublicKey publicKey "Rumble Identity")

def unlockLocalKey (password : String) : KeyM Unit := do
  match (← get).manager.config with
  | none => throw "No key configured"
  | some config => match config.source with
    | .localEncrypted record => do
      let privateKey ← crates.decryptKey record password
      modify fun s => { s with manager := { s.manager with cachedSigningKey := some privateKey } }
    | _ => throw "Key is not encrypted"

def importSigningKey (signingKey : SigningKey) (fault : Option SaveFault) : KeyM Unit := do
  let publicKey := crates.verifyingKey signingKey
  setConfig ⟨.localPlaintext (Hex.encode signingKey.data), Hex.encode publicKey.data⟩
    (some signingKey)
  saveConfig crates fault

def selectAgentKey (keyInfo : KeyInfo) (fault : Option SaveFault) : KeyM Unit := do
  setConfig ⟨.sshAgent keyInfo.fingerprint keyInfo.comment, Hex.encode keyInfo.publicKey.data⟩ none
  saveConfig crates fault

end KeyManager

/-! ## The agent and the signer -/

inductive Credential where
  | ed25519 (publicKey : PublicKey)
  | other (name : String)
  deriving DecidableEq

structure AgentIdentity where
  credential : Credential
  comment : String
  deriving DecidableEq

/-- What an SSH agent answers. -/
structure Agent where
  connect : Except String Unit
  identities : Except String (List AgentIdentity)
  sign : Credential → List UInt8 → Except String (List UInt8)

section Sign

variable (crates : KeyCrates)

def Credential.hasFingerprint (fingerprint : String) : Credential → Bool
  | .ed25519 publicKey => crates.computeFingerprint publicKey = fingerprint
  | .other _ => false

/-- The key that an identity offers, when it is one of Ed25519. -/
def AgentIdentity.keyInfo (identity : AgentIdentity) : Option KeyInfo :=
  match identity.credential with
  | .ed25519 publicKey => some (crates.keyInfoFromPublicKey publicKey identity.comment)
  | .other _ => none

/-- `SshAgentClient::list_ed25519_keys`. -/
def Agent.listEd25519Keys (agent : Agent) : Except String (List KeyInfo) := do
  let identities ← agent.identities.mapError ("Failed to request identities: " ++ ·)
  pure (identities.filterMap (·.keyInfo crates))

/-- `SshAgentClient::sign`. -/
def Agent.signWith (agent : Agent) (fingerprint : String) (data : List UInt8) :
    Except String Signature := do
  let identities ← agent.identities.mapError ("Failed to request identities: " ++ ·)
  match identities.find? (·.credential.hasFingerprint crates fingerprint) with
  | none => .error s!"Key with fingerprint {fingerprint} not found in agent"
  | some identity => do
    let sigBytes ← (agent.sign identity.credential data).mapError ("Signing failed: " ++ ·)
    match Bytes.ofList? 64 sigBytes with
    | none =>
      .error s!"Invalid signature format: expected 64 bytes for Ed25519, got {sigBytes.length}"
    | some signature => .ok signature

/-- `KeyManagerSigner::sign`: the key that is asked for is not looked at. -/
def KeyManager.sign (m : KeyManager) (agent : Agent) (_publicKey : PublicKey)
    (payload : List UInt8) : Except String Signature :=
  match m.config with
  | none => .error "No identity configured"
  | some config => match config.source with
    | .localPlaintext privateKeyHex => match parseSigningKey privateKeyHex with
      | none => .error "Invalid stored private key"
      | some signingKey => .ok (crates.signature signingKey payload)
    | .localEncrypted _ => match m.cachedSigningKey with
      | none => .error "Encrypted identity not unlocked"
      | some signingKey => .ok (crates.signature signingKey payload)
    | .sshAgent fingerprint _ => do
      agent.connect
      agent.signWith crates fingerprint payload

end Sign

/-! ## Whose key it is -/

namespace KeyCrates

variable (crates : KeyCrates)

/-- The signature was made by the private key of the public key. -/
def MadeBy (publicKey : PublicKey) (payload : List UInt8) (signature : Signature) : Prop :=
  ∃ signingKey, crates.verifyingKey signingKey = publicKey ∧
    crates.signature signingKey payload = signature

/-- A ciphertext opens to what was encrypted, or not at all. -/
def Authentic : Prop := ∀ key nonce plaintext ciphertext key' plaintext',
  crates.encrypt key nonce plaintext = .ok ciphertext →
  crates.decrypt key' nonce ciphertext = some plaintext' → plaintext' = plaintext

/-- What is stored is the private key of the public key, or the agent's name for it. -/
def OwnSource (publicKey : PublicKey) : KeySource → Prop
  | .localPlaintext privateKeyHex => ∀ signingKey, parseSigningKey privateKeyHex = some signingKey →
    crates.verifyingKey signingKey = publicKey
  | .localEncrypted record => ∀ password signingKey,
    crates.decryptKey record password = .ok signingKey → crates.verifyingKey signingKey = publicKey
  | .sshAgent fingerprint _ => fingerprint = crates.computeFingerprint publicKey

def Own (c : KeyConfig) : Prop := ∃ publicKey : PublicKey,
  c.publicKeyHex = Hex.encode publicKey.data ∧ crates.OwnSource publicKey c.source

/-- The identity file, if it is there and parses, stores the key that it names. -/
def OwnFile (files : IdentityFiles) : Prop := ∀ data config,
  files.identity = some data → crates.fromJson data = some config → crates.Own config

end KeyCrates

/-- The agent signs with the private key of the credential, and it has no second key with the
fingerprint of the configured one. -/
structure Agent.SignsFor (crates : KeyCrates) (agent : Agent) (configured : Option PublicKey) :
    Prop where
  signs : ∀ publicKey payload (signature : Signature),
    agent.sign (.ed25519 publicKey) payload = .ok signature.data →
    crates.MadeBy publicKey payload signature
  unique : ∀ identities comment publicKey publicKey', agent.identities = .ok identities →
    ⟨.ed25519 publicKey, comment⟩ ∈ identities → configured = some publicKey' →
    crates.computeFingerprint publicKey = crates.computeFingerprint publicKey' →
    publicKey = publicKey'

/-! ## Stored keys -/

theorem publicKeyBytes_hex (source : KeySource) (publicKey : PublicKey) :
    (KeyConfig.mk source (Hex.encode publicKey.data)).publicKeyBytes = some publicKey := by
  simp [KeyConfig.publicKeyBytes]

theorem parseSigningKey_hex (key : SigningKey) :
    parseSigningKey (Hex.encode key.data) = some key := by
  simp [parseSigningKey]

theorem data_of_ofList? {n : Nat} {l : List UInt8} {b : Bytes n} (h : Bytes.ofList? n l = some b) :
    l = b.data := by
  unfold Bytes.ofList? at h
  split at h
  · cases h
    rfl
  · cases h

theorem exists_of_bind_ok {α β : Type} {x : Except String α} {f : α → Except String β} {b : β}
    (h : x >>= f = .ok b) : ∃ a, x = .ok a ∧ f a = .ok b := by
  cases x with
  | error e => cases h
  | ok a => exact ⟨a, rfl, h⟩

theorem of_mapError_ok {α : Type} {x : Except String α} {f : String → String} {a : α}
    (h : x.mapError f = .ok a) : x = .ok a := by
  cases x with
  | error e => cases h
  | ok a' => exact h

namespace KeyCrates

variable {crates : KeyCrates}

theorem decode_of_hexDecode {s : String} {bytes : List UInt8}
    (h : crates.hexDecode s = .ok bytes) : Hex.decode s = some bytes := by
  unfold hexDecode at h
  split at h
  · cases h
    assumption
  · cases h

theorem encryptKey_spec {random : Randomness} {key : SigningKey} {password : String}
    {record : EncryptedKey} (h : crates.encryptKey random key password = .ok record) :
    ∃ derivedKey nonce ciphertext, crates.encrypt derivedKey nonce key.data = .ok ciphertext ∧
      record.encryptedData = Hex.encode ciphertext ∧ record.nonceHex = Hex.encode nonce.data := by
  obtain ⟨salt, _, h⟩ := exists_of_bind_ok h
  obtain ⟨nonce, _, h⟩ := exists_of_bind_ok h
  obtain ⟨derivedKey, _, h⟩ := exists_of_bind_ok h
  obtain ⟨ciphertext, hciphertext, h⟩ := exists_of_bind_ok h
  cases h
  exact ⟨derivedKey, nonce, ciphertext, of_mapError_ok hciphertext, rfl, rfl⟩

theorem decryptKey_spec {record : EncryptedKey} {password : String} {key : SigningKey}
    (h : crates.decryptKey record password = .ok key) :
    ∃ derivedKey nonce ciphertext, crates.decrypt derivedKey nonce ciphertext = some key.data ∧
      Hex.decode record.encryptedData = some ciphertext ∧
      Hex.decode record.nonceHex = some nonce.data := by
  obtain ⟨ciphertext, hciphertext, h⟩ := exists_of_bind_ok h
  obtain ⟨nonceBytes, hnonceBytes, h⟩ := exists_of_bind_ok h
  cases hnonce : Bytes.ofList? 12 nonceBytes with
  | none => rw [hnonce] at h; cases h
  | some nonce =>
    rw [hnonce] at h
    obtain ⟨derivedKey, _, h⟩ := exists_of_bind_ok h
    cases hplaintext : crates.decrypt derivedKey nonce ciphertext with
    | none => rw [hplaintext] at h; cases h
    | some plaintext =>
      rw [hplaintext] at h
      dsimp only at h
      cases hkey : Bytes.ofList? 32 plaintext with
      | none => rw [hkey] at h; cases h
      | some key' =>
        rw [hkey] at h
        cases h
        refine ⟨derivedKey, nonce, ciphertext, ?_, decode_of_hexDecode hciphertext, ?_⟩
        · rw [hplaintext, data_of_ofList? hkey]
        · rw [decode_of_hexDecode hnonceBytes, data_of_ofList? hnonce]

/-- Under whatever password a record opens, it is the key that was encrypted. -/
theorem decryptKey_encryptKey (hauthentic : crates.Authentic) {random : Randomness}
    {key key' : SigningKey} {password password' : String} {record : EncryptedKey}
    (hrecord : crates.encryptKey random key password = .ok record)
    (hkey' : crates.decryptKey record password' = .ok key') : key' = key := by
  obtain ⟨derivedKey, nonce, ciphertext, hencrypt, hdata, hnonce⟩ := encryptKey_spec hrecord
  obtain ⟨derivedKey', nonce', ciphertext', hdecrypt, hdata', hnonce'⟩ := decryptKey_spec hkey'
  rw [hdata, Hex.decode_encode] at hdata'
  rw [hnonce, Hex.decode_encode] at hnonce'
  obtain rfl : ciphertext = ciphertext' := Option.some.inj hdata'
  obtain rfl : nonce = nonce' := Bytes.data_inj (Option.some.inj hnonce')
  exact Bytes.data_inj (hauthentic _ _ _ _ _ _ hencrypt hdecrypt)

theorem ownSource_plaintext (key : SigningKey) :
    crates.OwnSource (crates.verifyingKey key) (.localPlaintext (Hex.encode key.data)) := by
  intro key' hkey'
  rw [parseSigningKey_hex] at hkey'
  rw [Option.some.inj hkey']

theorem ownSource_sourceFor (hauthentic : crates.Authentic) {random : Randomness}
    {password : Option String} {source : KeySource}
    (h : KeyManager.sourceFor crates random password = .ok source) :
    crates.OwnSource (crates.verifyingKey random.privateKey) source := by
  unfold KeyManager.sourceFor at h
  split at h
  · split at h
    · cases hrecord : crates.encryptKey random random.privateKey _ with
      | error e => rw [hrecord] at h; cases h
      | ok record =>
        rw [hrecord] at h
        cases h
        intro password' key hkey
        rw [decryptKey_encryptKey hauthentic hrecord hkey]
    · cases h
      exact ownSource_plaintext _
  · cases h
    exact ownSource_plaintext _

end KeyCrates

/-! ## The agent's keys -/

/-- A listed key goes under its own fingerprint. -/
theorem fingerprint_of_listEd25519Keys {crates : KeyCrates} {agent : Agent} {keys : List KeyInfo}
    (h : agent.listEd25519Keys crates = .ok keys) {keyInfo : KeyInfo} (hmem : keyInfo ∈ keys) :
    keyInfo.fingerprint = crates.computeFingerprint keyInfo.publicKey := by
  obtain ⟨identities, _, h⟩ := exists_of_bind_ok h
  obtain rfl := Except.ok.inj h
  obtain ⟨⟨credential, comment⟩, _, hkey⟩ := List.mem_filterMap.mp hmem
  cases credential with
  | ed25519 publicKey =>
    obtain rfl := Option.some.inj hkey
    rfl
  | other name => cases hkey

theorem Credential.of_hasFingerprint {crates : KeyCrates} {fingerprint : String}
    {credential : Credential} (h : credential.hasFingerprint crates fingerprint = true) :
    ∃ publicKey, credential = .ed25519 publicKey ∧
      crates.computeFingerprint publicKey = fingerprint := by
  cases credential with
  | ed25519 publicKey => exact ⟨publicKey, rfl, of_decide_eq_true h⟩
  | other name => cases h

/-- The agent signs with the configured key, when that has the fingerprint. -/
theorem Agent.SignsFor.signWith {crates : KeyCrates} {agent : Agent} {configured : PublicKey}
    (h : agent.SignsFor crates (some configured)) {data : List UInt8} {signature : Signature}
    (hsign : agent.signWith crates (crates.computeFingerprint configured) data = .ok signature) :
    crates.MadeBy configured data signature := by
  obtain ⟨identities, hidentities, hsign⟩ := exists_of_bind_ok hsign
  cases hfind : identities.find?
      (·.credential.hasFingerprint crates (crates.computeFingerprint configured)) with
  | none => rw [hfind] at hsign; cases hsign
  | some identity =>
    rw [hfind] at hsign
    obtain ⟨credential, comment⟩ := identity
    have hhas := List.find?_some hfind
    obtain ⟨publicKey, rfl, hfingerprint⟩ := Credential.of_hasFingerprint hhas
    obtain rfl : publicKey = configured := h.unique identities comment publicKey configured
      (of_mapError_ok hidentities) (List.mem_of_find?_eq_some hfind) rfl hfingerprint
    obtain ⟨sigBytes, hbytes, hsign⟩ := exists_of_bind_ok hsign
    cases hsignature : Bytes.ofList? 64 sigBytes with
    | none => rw [hsignature] at hsign; cases hsign
    | some signature' =>
      rw [hsignature] at hsign
      cases hsign
      refine h.signs publicKey data signature ?_
      rw [← data_of_ofList? hsignature]
      exact of_mapError_ok hbytes

end Rumble.Desktop
