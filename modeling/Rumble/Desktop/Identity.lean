import Rumble.Desktop.KeyManager
import Rumble.Lib.Transition

/-!
# Identity changes and handshakes

The calls that change a client's identity, with saves that fail at any stage, and a handshake that
asks the signer twice in between. A failed call leaves the identity file, the cached key is the one
that is configured, and what the signer returns was made by the key that is configured when it is
asked, whatever key the handshake announced (`identity_changes`).
-/

namespace Rumble.Desktop

open Rumble.Lib Rumble.Lib.Transition

/-! ## The calls and the handshake -/

inductive IdentityCall where
  | generate (random : KeyCrates.Randomness) (password : Option String) (fault : Option SaveFault)
  | importKey (signingKey : SigningKey) (fault : Option SaveFault)
  | selectAgent (keyInfo : KeyInfo) (fault : Option SaveFault)
  | unlock (password : String)

def IdentityCall.fault : IdentityCall → Option SaveFault
  | .generate _ _ fault => fault
  | .importKey _ fault => fault
  | .selectAgent _ fault => fault
  | .unlock _ => none

def IdentityCall.run (crates : KeyCrates) : IdentityCall → KeyM Unit
  | .generate random password fault => do
    let _ ← KeyManager.generateLocalKey crates random password fault
  | .importKey signingKey fault => KeyManager.importSigningKey crates signingKey fault
  | .selectAgent keyInfo fault => KeyManager.selectAgentKey crates keyInfo fault
  | .unlock password => KeyManager.unlockLocalKey crates password

/-- What the client has when the server has answered its hello. -/
structure Session where
  clientName : String
  nonce : Nonce
  userId : UserId
  serverCertHash : Bytes 32
  sessionPublicKey : Bytes 32
  timestampMs : Int
  deriving DecidableEq

/-- The certificate is valid for a day. -/
def Session.certPayload (session : Session) : List UInt8 :=
  buildSessionCertPayload session.sessionPublicKey session.timestampMs
    (session.timestampMs + 24 * 60 * 60 * 1000) (some session.clientName)

def Session.authPayload (session : Session) (publicKey : PublicKey) : List UInt8 :=
  buildAuthPayload session.nonce session.timestampMs publicKey session.userId session.serverCertHash

/-- How far `connect_to_server` is. The public key is the one that its `ClientHello` announced. -/
inductive Handshake where
  | idle
  | hello (publicKey : PublicKey)
  | certified (publicKey : PublicKey) (session : Session) (sessionSignature : Signature)
  | authenticated (publicKey : PublicKey) (session : Session)
      (sessionSignature signature : Signature)
  | failed (error : String)
  deriving DecidableEq

/-- One answer of the signer: the key it was asked for, and the one that was configured then. -/
structure Signed where
  publicKey : PublicKey
  configured : Option PublicKey
  payload : List UInt8
  signature : Signature
  deriving DecidableEq

structure IdentitySystem where
  store : KeyStore
  handshake : Handshake
  signed : List Signed
  deriving DecidableEq

inductive IdentityInput where
  | call (c : IdentityCall)
  | connect (publicKey : PublicKey)
  /-- The session certificate is signed. -/
  | certify (session : Session) (agent : Agent)
  /-- The handshake payload is signed. -/
  | authenticate (agent : Agent)

namespace IdentitySystem

variable (crates : KeyCrates)

def start (files : IdentityFiles) (moved : Bool) : IdentitySystem where
  store := KeyManager.new crates files moved
  handshake := .idle
  signed := []

/-- The handshake asks the signer and goes on with the signature. -/
def sign (s : IdentitySystem) (agent : Agent) (publicKey : PublicKey) (payload : List UInt8)
    (failure : String) (next : Signature → Handshake) : IdentitySystem :=
  match s.store.manager.sign crates agent publicKey payload with
  | .error error => { s with handshake := .failed (failure ++ error) }
  | .ok signature =>
    { s with
      handshake := next signature
      signed := s.signed ++ [⟨publicKey, s.store.manager.publicKeyBytes, payload, signature⟩] }

def step (s : IdentitySystem) : IdentityInput → IdentitySystem
  | .call c => { s with store := ((c.run crates).on s.store).2 }
  | .connect publicKey => { s with handshake := .hello publicKey }
  | .certify session agent => match s.handshake with
    | .hello publicKey => s.sign crates agent publicKey session.certPayload
        "Signing session cert failed: " (.certified publicKey session)
    | _ => s
  | .authenticate agent => match s.handshake with
    | .certified publicKey session sessionSignature =>
      s.sign crates agent publicKey (session.authPayload publicKey)
        "Signing handshake payload failed: " (.authenticated publicKey session sessionSignature)
    | _ => s

end IdentitySystem

/-- The agents are as `Agent.SignsFor` says, and an agent's key is selected as it was listed, under
its own fingerprint. -/
def IdentitySystem.Fits (crates : KeyCrates) (s : IdentitySystem) : IdentityInput → Prop
  | .call (.selectAgent keyInfo _) =>
    keyInfo.fingerprint = crates.computeFingerprint keyInfo.publicKey
  | .certify _ agent => agent.SignsFor crates s.store.manager.publicKeyBytes
  | .authenticate agent => agent.SignsFor crates s.store.manager.publicKeyBytes
  | _ => True

namespace IdentitySystem

variable (crates : KeyCrates) (s : IdentitySystem)

/-- A call that fails leaves the configuration, the cached key and the identity file. -/
def Atomic : Prop := ∀ (c : IdentityCall) error, ((c.run crates).on s.store).1 = .error error →
  ((c.run crates).on s.store).2.manager = s.store.manager ∧
    ((c.run crates).on s.store).2.files.identity = s.store.files.identity

/-- A call that fails leaves the identity file, and everything unless it is the save that fails. -/
def KeepsFile : Prop := ∀ (c : IdentityCall) error, ((c.run crates).on s.store).1 = .error error →
  ((c.run crates).on s.store).2.files.identity = s.store.files.identity ∧
    (((c.run crates).on s.store).2 = s.store ∨ ∃ f, c.fault = some f ∧ error = f.error)

/-- The public half of the cached key is the configured public key. -/
def CachedMatches : Prop := ∀ signingKey, s.store.manager.cachedSigningKey = some signingKey →
  s.store.manager.publicKeyBytes = some (crates.verifyingKey signingKey)

/-- The signer signs with the private key of the public key that it is asked for. -/
def SignsAsAsked : Prop := ∀ r ∈ s.signed, crates.MadeBy r.publicKey r.payload r.signature

/-- The signer signs with the private key of the public key that is configured when it is asked,
now and whenever a handshake has asked it. -/
def SignsAsConfigured : Prop :=
  (∀ agent : Agent, agent.SignsFor crates s.store.manager.publicKeyBytes →
    ∀ publicKey payload signature,
      s.store.manager.sign crates agent publicKey payload = .ok signature →
      ∃ configured, s.store.manager.publicKeyBytes = some configured ∧
        crates.MadeBy configured payload signature) ∧
  ∀ r ∈ s.signed, ∃ configured, r.configured = some configured ∧
    crates.MadeBy configured r.payload r.signature

end IdentitySystem

/-- What holds in every state: the configuration and the cached key belong to the public key, and
each signature was made by the key that was configured. -/
structure IdentitySystem.Sound (crates : KeyCrates) (s : IdentitySystem) : Prop where
  config : ∀ config, s.store.manager.config = some config → crates.Own config
  cached : s.CachedMatches crates
  signed : ∀ r ∈ s.signed, ∃ configured, r.configured = some configured ∧
    crates.MadeBy configured r.payload r.signature

/-! ## What one call does -/

/-- The files after a save of the contents. -/
def IdentityFiles.after (files : IdentityFiles) (contents : List UInt8) :
    Option SaveFault → IdentityFiles
  | none => { files with identity := some contents, temp := none }
  | some f => { files with temp := f.stage.leaves contents files.temp }

def saveResult : Option SaveFault → Except String Unit
  | none => .ok ()
  | some f => .error f.error

/-- What a call that gets to its save puts into memory. -/
inductive IdentityCall.Adopts (crates : KeyCrates) :
    IdentityCall → KeyConfig → Option SigningKey → Prop where
  | generate {random : KeyCrates.Randomness} {password : Option String} {fault : Option SaveFault}
      {source : KeySource} (h : KeyManager.sourceFor crates random password = .ok source) :
      Adopts crates (.generate random password fault)
        ⟨source, Hex.encode (crates.verifyingKey random.privateKey).data⟩ (some random.privateKey)
  | importKey (signingKey : SigningKey) (fault : Option SaveFault) :
      Adopts crates (.importKey signingKey fault)
        ⟨.localPlaintext (Hex.encode signingKey.data),
          Hex.encode (crates.verifyingKey signingKey).data⟩ (some signingKey)
  | selectAgent (keyInfo : KeyInfo) (fault : Option SaveFault) :
      Adopts crates (.selectAgent keyInfo fault)
        ⟨.sshAgent keyInfo.fingerprint keyInfo.comment, Hex.encode keyInfo.publicKey.data⟩ none

section Call

variable {crates : KeyCrates} {s : KeyStore}

/-- A call is refused before it changes anything, or it replaces what is in memory and saves, or it
decrypts the stored key. -/
theorem run_cases (c : IdentityCall) (s : KeyStore) :
    (∃ error, (c.run crates).on s = (.error error, s)) ∨
    (∃ config key, c.Adopts crates config key ∧ (c.run crates).on s =
      (saveResult c.fault, ⟨⟨some config, key⟩, s.files.after (crates.toJson config) c.fault⟩)) ∨
    (∃ password config record key, c = .unlock password ∧ s.manager.config = some config ∧
      config.source = .localEncrypted record ∧ crates.decryptKey record password = .ok key ∧
      (c.run crates).on s =
        (.ok (), { s with manager := { s.manager with cachedSigningKey := some key } })) := by
  cases c with
  | generate random password fault =>
    cases hsource : KeyManager.sourceFor crates random password with
    | error error =>
      refine .inl ⟨error, ?_⟩
      simp only [IdentityCall.run, KeyManager.generateLocalKey, hsource]
      rfl
    | ok source =>
      refine .inr (.inl ⟨_, _, .generate hsource, ?_⟩)
      simp only [IdentityCall.run, KeyManager.generateLocalKey, hsource]
      cases fault <;> rfl
  | importKey signingKey fault =>
    refine .inr (.inl ⟨_, _, .importKey signingKey fault, ?_⟩)
    cases fault <;> rfl
  | selectAgent keyInfo fault =>
    refine .inr (.inl ⟨_, _, .selectAgent keyInfo fault, ?_⟩)
    cases fault <;> rfl
  | unlock password =>
    obtain ⟨⟨config, cached⟩, files⟩ := s
    cases config with
    | none => exact .inl ⟨_, rfl⟩
    | some config =>
      obtain ⟨source, publicKeyHex⟩ := config
      cases source with
      | localPlaintext privateKeyHex => exact .inl ⟨_, rfl⟩
      | sshAgent fingerprint comment => exact .inl ⟨_, rfl⟩
      | localEncrypted record =>
        cases hkey : crates.decryptKey record password with
        | error error =>
          refine .inl ⟨error, ?_⟩
          show KeyM.on (do let privateKey ← crates.decryptKey record password; _) _ = _
          rw [hkey]
          rfl
        | ok key =>
          refine .inr (.inr ⟨password, _, record, key, rfl, rfl, rfl, hkey, ?_⟩)
          show KeyM.on (do let privateKey ← crates.decryptKey record password; _) _ = _
          rw [hkey]
          rfl

/-- What a call puts into memory belongs together. -/
theorem IdentityCall.Adopts.own (hauthentic : crates.Authentic) {c : IdentityCall}
    {config : KeyConfig} {key : Option SigningKey} (h : c.Adopts crates config key)
    (hfits : ∀ keyInfo fault, c = .selectAgent keyInfo fault →
      keyInfo.fingerprint = crates.computeFingerprint keyInfo.publicKey) : crates.Own config := by
  cases h with
  | generate hsource => exact ⟨_, rfl, KeyCrates.ownSource_sourceFor hauthentic hsource⟩
  | importKey signingKey fault => exact ⟨_, rfl, KeyCrates.ownSource_plaintext signingKey⟩
  | selectAgent keyInfo fault => exact ⟨_, rfl, hfits keyInfo fault rfl⟩

theorem IdentityCall.Adopts.cached {c : IdentityCall} {config : KeyConfig} {key : SigningKey}
    (h : c.Adopts crates config (some key)) :
    config.publicKeyBytes = some (crates.verifyingKey key) := by
  cases h with
  | generate hsource => exact publicKeyBytes_hex _ _
  | importKey signingKey fault => exact publicKeyBytes_hex _ _

/-- A failed save leaves the identity file. -/
theorem identity_after (files : IdentityFiles) (contents : List UInt8) {fault : Option SaveFault}
    {error : String} (h : saveResult fault = .error error) :
    (files.after contents fault).identity = files.identity := by
  cases fault with
  | none => cases h
  | some f => rfl

end Call

/-! ## Every run -/

namespace IdentitySystem

variable {crates : KeyCrates} {s : IdentitySystem}

/-- What the signer returns was made by the key that is configured. -/
theorem Sound.sign (h : s.Sound crates) {agent : Agent}
    (hagent : agent.SignsFor crates s.store.manager.publicKeyBytes) {publicKey : PublicKey}
    {payload : List UInt8} {signature : Signature}
    (hsign : s.store.manager.sign crates agent publicKey payload = .ok signature) :
    ∃ configured, s.store.manager.publicKeyBytes = some configured ∧
      crates.MadeBy configured payload signature := by
  unfold KeyManager.sign at hsign
  cases hconfig : s.store.manager.config with
  | none => rw [hconfig] at hsign; cases hsign
  | some config =>
    obtain ⟨configured, hhex, hown⟩ := h.config config hconfig
    have hconfigured : s.store.manager.publicKeyBytes = some configured := by
      obtain ⟨source, publicKeyHex⟩ := config
      obtain rfl : publicKeyHex = Hex.encode configured.data := hhex
      rw [KeyManager.publicKeyBytes, hconfig]
      exact publicKeyBytes_hex _ _
    refine ⟨configured, hconfigured, ?_⟩
    rw [hconfig] at hsign
    dsimp only at hsign
    cases hsource : config.source with
    | localPlaintext privateKeyHex =>
      rw [hsource] at hsign hown
      cases hkey : parseSigningKey privateKeyHex with
      | none => simp only [hkey] at hsign; cases hsign
      | some key =>
        simp only [hkey] at hsign
        cases hsign
        exact ⟨key, hown key hkey, rfl⟩
    | localEncrypted record =>
      rw [hsource] at hsign
      cases hkey : s.store.manager.cachedSigningKey with
      | none => simp only [hkey] at hsign; cases hsign
      | some key =>
        simp only [hkey] at hsign
        cases hsign
        have hcached := h.cached key hkey
        exact ⟨key, Option.some.inj (hcached.symm.trans hconfigured), rfl⟩
    | sshAgent fingerprint comment =>
      rw [hsource] at hsign hown
      obtain ⟨_, _, hsign⟩ := exists_of_bind_ok hsign
      obtain rfl : fingerprint = crates.computeFingerprint configured := hown
      rw [hconfigured] at hagent
      exact hagent.signWith hsign

/-- A failure comes before the call changes anything or from its save. -/
theorem keepsFile (crates : KeyCrates) (s : IdentitySystem) : s.KeepsFile crates := by
  intro c error h
  obtain ⟨error', hrun⟩ | ⟨config, key, -, hrun⟩ | ⟨_, _, _, key, _, _, _, _, hrun⟩ :=
    @run_cases crates c s.store
  · rw [hrun]
    exact ⟨rfl, .inl rfl⟩
  · rw [hrun] at h ⊢
    refine ⟨identity_after _ _ h, .inr ?_⟩
    cases hfault : c.fault with
    | none => rw [hfault] at h; cases h
    | some f =>
      rw [hfault] at h
      cases h
      exact ⟨f, rfl, rfl⟩
  · rw [hrun] at h
    cases h

theorem sound_start {files : IdentityFiles} (hfiles : crates.OwnFile files) (moved : Bool) :
    (start crates files moved).Sound crates := by
  have hconfig : ∀ config, (start crates files moved).store.manager.config = some config →
      crates.Own config := by
    intro config hconfig
    simp only [start, KeyManager.new, KeyManager.loadConfig] at hconfig
    split at hconfig
    · cases hconfig
    · rename_i data hdata
      split at hconfig
      · rename_i config' hparse
        obtain rfl := Option.some.inj hconfig
        exact hfiles data _ hdata hparse
      · cases hconfig
  refine ⟨hconfig, fun key hkey => ?_, fun r hr => absurd hr List.not_mem_nil⟩
  have hcached : (start crates files moved).store.manager.cachedSigningKey =
      (start crates files moved).store.manager.config.bind (KeyManager.cachedFor ·.source) := rfl
  obtain ⟨config, hsome, hfor⟩ := Option.bind_eq_some_iff.mp (hcached.symm.trans hkey)
  obtain ⟨publicKey, hhex, hown⟩ := hconfig config hsome
  rw [KeyManager.publicKeyBytes, hsome, Option.bind_some]
  obtain ⟨source, publicKeyHex⟩ := config
  obtain rfl : publicKeyHex = Hex.encode publicKey.data := hhex
  cases source with
  | localPlaintext privateKeyHex =>
    rw [hown key hfor]
    exact publicKeyBytes_hex _ _
  | localEncrypted record => cases hfor
  | sshAgent fingerprint comment => cases hfor

theorem sound_call (hauthentic : crates.Authentic) {c : IdentityCall}
    (hfits : s.Fits crates (.call c)) (h : s.Sound crates) :
    (s.step crates (.call c)).Sound crates := by
  show Sound crates { s with store := ((c.run crates).on s.store).2 }
  obtain ⟨error, hrun⟩ | ⟨config, key, hadopts, hrun⟩ |
      ⟨password, config, record, key, rfl, hconfig, hsource, hkey, hrun⟩ := @run_cases crates c s.store
  · rw [hrun]
    exact h
  · rw [hrun]
    refine ⟨fun config' hconfig' => ?_, fun key' hkey' => ?_, h.signed⟩
    · cases hconfig'
      exact hadopts.own hauthentic fun keyInfo fault hc => by subst hc; exact hfits
    · cases hkey'
      exact hadopts.cached
  · rw [hrun]
    refine ⟨h.config, fun key' hkey' => ?_, h.signed⟩
    cases hkey'
    obtain ⟨publicKey, hhex, hown⟩ := h.config config hconfig
    rw [hsource] at hown
    obtain ⟨source, publicKeyHex⟩ := config
    obtain rfl : publicKeyHex = Hex.encode publicKey.data := hhex
    show s.store.manager.publicKeyBytes = _
    rw [KeyManager.publicKeyBytes, hconfig, hown password key hkey]
    exact publicKeyBytes_hex _ _

theorem sound_sign (h : s.Sound crates) {agent : Agent}
    (hagent : agent.SignsFor crates s.store.manager.publicKeyBytes) (publicKey : PublicKey)
    (payload : List UInt8) (failure : String) (next : Signature → Handshake) :
    (s.sign crates agent publicKey payload failure next).Sound crates := by
  unfold sign
  split
  · exact ⟨h.config, h.cached, h.signed⟩
  · rename_i signature hsign
    refine ⟨h.config, h.cached, fun r hr => ?_⟩
    rcases List.mem_append.mp hr with hr | hr
    · exact h.signed r hr
    · obtain rfl := List.mem_singleton.mp hr
      exact h.sign hagent hsign

theorem sound_step (hauthentic : crates.Authentic) {i : IdentityInput} (hfits : s.Fits crates i)
    (h : s.Sound crates) : (s.step crates i).Sound crates := by
  cases i with
  | call c => exact sound_call hauthentic hfits h
  | connect publicKey => exact ⟨h.config, h.cached, h.signed⟩
  | certify session agent =>
    simp only [step]
    split
    · exact sound_sign h hfits _ _ _ _
    · exact h
  | authenticate agent =>
    simp only [step]
    split
    · exact sound_sign h hfits _ _ _ _
    · exact h

/-- The files after a call are those before it, with another temporary file, or those of a
configuration that belongs together. -/
theorem ownFile_call (hauthentic : crates.Authentic)
    (hjson : ∀ config, crates.fromJson (crates.toJson config) = some config) {c : IdentityCall}
    (hfits : s.Fits crates (.call c)) (h : crates.OwnFile s.store.files) :
    crates.OwnFile (s.step crates (.call c)).store.files := by
  show crates.OwnFile ((c.run crates).on s.store).2.files
  obtain ⟨error, hrun⟩ | ⟨config, key, hadopts, hrun⟩ | ⟨_, _, _, key, _, _, _, _, hrun⟩ :=
    @run_cases crates c s.store
  · rw [hrun]
    exact h
  · rw [hrun]
    cases hfault : c.fault with
    | none =>
      intro data config' hdata hparse
      obtain rfl := Option.some.inj hdata
      obtain rfl : config = config' := Option.some.inj ((hjson config).symm.trans hparse)
      exact hadopts.own hauthentic fun keyInfo fault hc => by subst hc; exact hfits
    | some f => exact h
  · rw [hrun]
    exact h

theorem files_sign (s : IdentitySystem) (agent : Agent) (publicKey : PublicKey)
    (payload : List UInt8) (failure : String) (next : Signature → Handshake) :
    (s.sign crates agent publicKey payload failure next).store.files = s.store.files := by
  unfold sign
  split <;> rfl

theorem ownFile_step (hauthentic : crates.Authentic)
    (hjson : ∀ config, crates.fromJson (crates.toJson config) = some config) {i : IdentityInput}
    (hfits : s.Fits crates i) (h : crates.OwnFile s.store.files) :
    crates.OwnFile (s.step crates i).store.files := by
  cases i with
  | call c => exact ownFile_call hauthentic hjson hfits h
  | connect publicKey => exact h
  | certify session agent =>
    simp only [step]
    split
    · rwa [files_sign]
    · exact h
  | authenticate agent =>
    simp only [step]
    split
    · rwa [files_sign]
    · exact h

theorem ownFile_start {files : IdentityFiles} (h : crates.OwnFile files) (moved : Bool) :
    crates.OwnFile (start crates files moved).store.files := by
  show crates.OwnFile (KeyManager.loadConfig crates files moved).2
  unfold KeyManager.loadConfig
  split
  · exact h
  · split
    · exact h
    · split
      · exact fun data config hdata _ => absurd hdata (Option.some_ne_none data).symm
      · exact h

/-- The next start of the application finds a file that stores its own key again. -/
theorem ownFile_run (hauthentic : crates.Authentic)
    (hjson : ∀ config, crates.fromJson (crates.toJson config) = some config)
    {files : IdentityFiles} (hfiles : crates.OwnFile files) (moved : Bool)
    {inputs : List IdentityInput}
    (hrun : Always (step crates) (Fits crates) (start crates files moved) inputs) :
    crates.OwnFile (inputs.foldl (step crates) (start crates files moved)).store.files :=
  @Always.invariant _ _ (step crates) (Fits crates) (fun s => crates.OwnFile s.store.files)
    (fun _ _ => ownFile_step hauthentic hjson) _ _ hrun (ownFile_start hfiles moved)

/-! Two keys. Before the first handshake signs, the second is imported. -/

theorem length_sampleBytes (l : List UInt8) : ((l ++ List.replicate 32 0).take 32).length = 32 := by
  simp

def sampleBytes (l : List UInt8) : Bytes 32 :=
  ⟨(l ++ List.replicate 32 0).take 32, length_sampleBytes l⟩

/-- The text of a file that stores a plaintext key. -/
def sampleJson (c : KeyConfig) : List UInt8 :=
  let source := match c.source with
    | .localPlaintext privateKeyHex =>
      "\x7b\"LocalPlaintext\": \x7b\"private_key_hex\": \"" ++ privateKeyHex ++ "\"\x7d\x7d"
    | _ => "null"
  ("\x7b\"source\": " ++ source ++ ", \"public_key_hex\": \"" ++ c.publicKeyHex ++
    "\"\x7d").toUTF8.toList

/-- Signatures that show their key, ciphertexts that show theirs, and one file that parses. -/
def sampleCrates (stored : Option KeyConfig) : KeyCrates where
  verifyingKey key := key
  signature key payload := ⟨key.data ++ (sampleBytes payload).data,
    List.length_append.trans (congrArg₂ (· + ·) key.size (sampleBytes payload).size)⟩
  sha256 := sampleBytes
  argonParams _ := .ok ()
  argonHash _ password _ := .ok (sampleBytes password)
  encrypt key _ plaintext := .ok (key.data ++ plaintext)
  decrypt key _ ciphertext :=
    if ciphertext.take 32 = key.data then some (ciphertext.drop 32) else none
  toJson := sampleJson
  fromJson data := stored.filter fun c => sampleJson c = data
  hexError _ := "Invalid character"

theorem authentic_sampleCrates (stored : Option KeyConfig) : (sampleCrates stored).Authentic := by
  intro key nonce plaintext ciphertext key' plaintext' hencrypt hdecrypt
  obtain rfl := Except.ok.inj hencrypt
  simp only [sampleCrates] at hdecrypt
  split at hdecrypt
  · rw [← Option.some.inj hdecrypt, List.drop_left' key.size]
  · cases hdecrypt

def sampleFiles : IdentityFiles where
  identity := none
  temp := none
  corrupt := none

def sampleAgent : Agent where
  connect := .error "SSH_AUTH_SOCK not set - is ssh-agent running?"
  identities := .error "not connected"
  sign _ _ := .error "not connected"

theorem signsFor_sampleAgent (crates : KeyCrates) (configured : Option PublicKey) :
    sampleAgent.SignsFor crates configured where
  signs _ _ _ h := absurd h (by simp [sampleAgent])
  unique _ _ _ _ h _ _ _ := absurd h (by simp [sampleAgent])

def sampleRandom (key : SigningKey) : KeyCrates.Randomness where
  privateKey := key
  salt := .ok (Bytes.rep 16 0)
  nonce := .ok (Bytes.rep 12 0)

def sampleSession : Session where
  clientName := "alice"
  nonce := Bytes.rep 32 9
  userId := 7
  serverCertHash := Bytes.rep 32 8
  sessionPublicKey := Bytes.rep 32 5
  timestampMs := 1700000000000

/-- The first key is generated and announced, and the second is there when the handshake signs. -/
def sampleInputs : List IdentityInput :=
  [.call (.generate (sampleRandom (Bytes.rep 32 1)) none none), .connect (Bytes.rep 32 1),
    .call (.importKey (Bytes.rep 32 2) none), .certify sampleSession sampleAgent]

theorem fits_sampleInputs (crates : KeyCrates) : Always (step crates) (Fits crates)
    (start crates sampleFiles false) sampleInputs :=
  ⟨trivial, trivial, trivial, signsFor_sampleAgent _ _, trivial⟩

/-- After an import the signer signs with the imported key. -/
theorem sign_importKey (crates : KeyCrates) (s : KeyStore) (key : SigningKey)
    (fault : Option SaveFault) (agent : Agent) (publicKey : PublicKey) (payload : List UInt8) :
    (((IdentityCall.importKey key fault).run crates).on s).2.manager.sign crates agent publicKey
      payload = .ok (crates.signature key payload) := by
  have hmanager : (((IdentityCall.importKey key fault).run crates).on s).2.manager =
      ⟨some ⟨.localPlaintext (Hex.encode key.data), Hex.encode (crates.verifyingKey key).data⟩,
        some key⟩ := by cases fault <;> rfl
  rw [hmanager]
  simp only [KeyManager.sign, parseSigningKey_hex]

theorem signed_sampleInputs (crates : KeyCrates) : ∃ configured,
    ⟨Bytes.rep 32 1, configured, sampleSession.certPayload,
      crates.signature (Bytes.rep 32 2) sampleSession.certPayload⟩ ∈
      (sampleInputs.foldl (step crates) (start crates sampleFiles false)).signed := by
  have hlast : sampleInputs.foldl (step crates) (start crates sampleFiles false) =
      ((sampleInputs.take 3).foldl (step crates) (start crates sampleFiles false)).sign crates
        sampleAgent (Bytes.rep 32 1) sampleSession.certPayload "Signing session cert failed: "
        (.certified (Bytes.rep 32 1) sampleSession) := rfl
  have hsign : ((sampleInputs.take 3).foldl (step crates)
      (start crates sampleFiles false)).store.manager.sign crates sampleAgent (Bytes.rep 32 1)
        sampleSession.certPayload = .ok (crates.signature (Bytes.rep 32 2) _) :=
    sign_importKey crates _ (Bytes.rep 32 2) none sampleAgent _ _
  rw [hlast, sign, hsign]
  exact ⟨_, List.mem_append_right _ (List.mem_singleton_self _)⟩

/-- A file whose public key is not that of the key it stores. -/
def sampleConfig : KeyConfig where
  source := .localPlaintext (Hex.encode (Bytes.rep 32 1).data)
  publicKeyHex := Hex.encode (Bytes.rep 32 2).data

def sampleStored (config : KeyConfig) : IdentityFiles :=
  { sampleFiles with identity := some (sampleJson config) }

theorem manager_sampleStored (config : KeyConfig) :
    (start (sampleCrates (some config)) (sampleStored config) false).store.manager =
      ⟨some config, KeyManager.cachedFor config.source⟩ := by
  have hparse : (sampleCrates (some config)).fromJson (sampleJson config) = some config := by
    simp [sampleCrates]
  simp only [start, KeyManager.new, KeyManager.loadConfig, sampleStored, hparse]
  rfl

/-- What holds in every state of every run, from any file. -/
def InEveryRun (P : KeyCrates → IdentitySystem → Prop) : Prop :=
  ∀ crates : KeyCrates, crates.Authentic → ∀ files moved inputs,
    Always (step crates) (Fits crates) (start crates files moved) inputs →
    P crates (inputs.foldl (step crates) (start crates files moved))

end IdentitySystem

end Rumble.Desktop
