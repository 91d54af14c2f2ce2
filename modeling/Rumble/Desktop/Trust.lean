import Rumble.Lib.Hex
import Rumble.Lib.Transition
import Rumble.Protocol.Types

/-!
# Trust in server certificates

`rumble-desktop/src/cert_verifier.rs`, the dialing arms of the connection task in
`rumble-client/src/handle.rs`, and what the app does when the user accepts a certificate. The
command queue, the queue of connection events, the state that the app shows, the settings file and
restarts are one system, in which the network presents any certificate to any dial. A session is
opened over a certificate that WebPKI verifies for the host or whose fingerprint the user was shown
and accepted (`trusted_run`), and what was accepted stays so (`remembered_run`).
-/

namespace Rumble.Desktop

open Rumble.Lib Rumble.Lib.Transition

/-! ## Verification -/

/-- A certificate that was not trusted, as `ServerCertInfo::new` fills it in. -/
structure ServerCertInfo where
  certificateDer : List UInt8
  fingerprint : Bytes 32
  serverName : String
  deriving DecidableEq

/-- Two octets of upper-case digits between colons. -/
def colonGroups : List UInt8 → List Char
  | a :: b :: c :: rest => Hex.upperChars [a, b] ++ ':' :: colonGroups (c :: rest)
  | bytes => Hex.upperChars bytes

def fingerprintHex (fingerprint : Bytes 32) : String := .ofList (colonGroups fingerprint.data)

/-- The verdict of WebPKI on a chain, for the host that was dialed. -/
inductive WebPki where
  | verified
  | unknownIssuer
  | badSignature
  /-- In both forms. -/
  | notValidForName
  | otherError
  deriving DecidableEq

/-- The errors after which the user may be asked. -/
def WebPki.captures : WebPki → Bool
  | .unknownIssuer | .badSignature | .notValidForName => true
  | .verified | .otherError => false

/-- `verify_server_cert`: whether the certificate is trusted, and what the slot for the user holds
afterwards. -/
def verifyServerCert (sha256 : List UInt8 → Bytes 32) (pinned : List (Bytes 32))
    (slot : Option ServerCertInfo) (endEntity : List UInt8) (serverName : String)
    (verdict : WebPki) : Bool × Option ServerCertInfo :=
  if sha256 endEntity ∈ pinned then (true, none)
  else if verdict = .verified then (true, none)
  else if verdict.captures then (false, some ⟨endEntity, sha256 endEntity, serverName⟩)
  else (false, slot)

/-! ## The connection task -/

structure PendingCertificate where
  certificateDer : List UInt8
  fingerprint : Bytes 32
  serverName : String
  serverAddr : String
  username : String
  password : Option String
  publicKey : Bytes 32
  deriving DecidableEq

/-- The connection part of the state that the app reads. -/
inductive ShownConnection where
  | disconnected
  | connecting (serverAddr : String)
  | connected
  | connectionLost (error : String)
  | certificatePending (certInfo : PendingCertificate)
  deriving DecidableEq

/-- The events on the connection bus that set it. -/
inductive BusEvent where
  | connectStarted (serverAddr : String)
  | certificatePending (certInfo : PendingCertificate)
  | connected
  | disconnected
  | connectionLost (error : String)
  deriving DecidableEq

/-- `apply_connection`. -/
def BusEvent.shows : BusEvent → ShownConnection
  | .connectStarted serverAddr => .connecting serverAddr
  | .certificatePending certInfo => .certificatePending certInfo
  | .connected => .connected
  | .disconnected => .disconnected
  | .connectionLost error => .connectionLost error

inductive ConnectCommand where
  | connect (addr name : String) (publicKey : Bytes 32) (password : Option String)
  | acceptCertificate
  | rejectCertificate
  | disconnect
  deriving DecidableEq

/-- The command starts a dial on its own. -/
def ConnectCommand.dials : ConnectCommand → Bool
  | .connect .. => true
  | .acceptCertificate | .rejectCertificate | .disconnect => false

/-- The certificate that an event puts before the user. -/
def BusEvent.asks : BusEvent → Option PendingCertificate
  | .certificatePending certInfo => some certInfo
  | .connectStarted _ | .connected | .disconnected | .connectionLost _ => none

/-- A dial under way; `accepting` when it is the retry after an acceptance. -/
structure Dial where
  addr : String
  name : String
  publicKey : Bytes 32
  password : Option String
  accepting : Bool
  deriving DecidableEq

/-- A session that was opened: the certificate of the server, the verdict on it, and what the user
had accepted by then. -/
structure Opened where
  certificateDer : List UInt8
  verdict : WebPki
  accepted : List PendingCertificate
  deriving DecidableEq

/-- How a dial ends, each failure with the text that is shown for it. When the certificate is
trusted the handshake goes on, and may still fail. -/
inductive DialEnd where
  | unreachable (error : String)
  | presented (certificateDer : List UInt8) (serverName : String) (verdict : WebPki)
      (tlsError : String) (failure : Option String)
  | timedOut
  deriving DecidableEq

/-! ## The system -/

structure AcceptedCertificate where
  serverName : String
  fingerprintHex : String
  certificateDerBase64 : String
  deriving DecidableEq

/-- What the system takes from outside. -/
structure TrustEnv where
  sha256 : List UInt8 → Bytes 32
  base64 : List UInt8 → String
  unbase64 : String → Option (List UInt8)

/-- The app and its connection task. `approved` lists what was pending when the task took an
acceptance, `clicked` what was shown when the user pressed the button, over all restarts. -/
structure TrustSystem where
  settings : List AcceptedCertificate
  acceptedCerts : List (List UInt8)
  commands : List ConnectCommand
  dial : Option Dial
  events : List BusEvent
  shown : ShownConnection
  approved : List PendingCertificate
  clicked : List PendingCertificate
  /-- `clicked` when the app was last started. -/
  atStart : List PendingCertificate
  opened : List Opened

inductive TrustMove where
  /-- The app sends a command other than an acceptance. -/
  | send (addr name : String) (publicKey : Bytes 32) (password : Option String)
  | reject
  | disconnect
  /-- The user accepts what is shown. -/
  | accept
  /-- The task takes the next command. -/
  | command
  | dialEnds (reply : DialEnd)
  /-- A receiver task sees its connection end. -/
  | lost (error : String)
  /-- The projection applies the next event. -/
  | drain
  | restart
  deriving DecidableEq

/-- The fingerprint that is shown is that of the certificate. -/
def PendingCertificate.Genuine (env : TrustEnv) (p : PendingCertificate) : Prop :=
  p.fingerprint = env.sha256 p.certificateDer

namespace AcceptedCertificate

def fromDer (env : TrustEnv) (serverName fingerprintHex : String) (der : List UInt8) :
    AcceptedCertificate := ⟨serverName, fingerprintHex, env.base64 der⟩

def derBytes (env : TrustEnv) (c : AcceptedCertificate) : Option (List UInt8) :=
  env.unbase64 c.certificateDerBase64

end AcceptedCertificate

namespace TrustSystem

variable (env : TrustEnv) (s : TrustSystem)

/-- `build_connect_config`: what the settings hold is trusted from the start. -/
def start (settings : List AcceptedCertificate) (clicked : List PendingCertificate)
    (opened : List Opened) : TrustSystem where
  settings := settings
  acceptedCerts := settings.filterMap (AcceptedCertificate.derBytes env)
  commands := []
  dial := none
  events := []
  shown := .disconnected
  approved := []
  clicked := clicked
  atStart := clicked
  opened := opened

def push (c : ConnectCommand) : TrustSystem := { s with commands := s.commands ++ [c] }

def emit (e : BusEvent) : TrustSystem := { s with events := s.events ++ [e] }

/-- `accept_pending_cert`. -/
def acceptPendingCert : TrustSystem :=
  match s.shown with
  | .certificatePending certInfo =>
    let fingerprint := fingerprintHex certInfo.fingerprint
    let already := s.settings.any fun c =>
      c.serverName == certInfo.serverName && c.fingerprintHex == fingerprint
    { s.push .acceptCertificate with
      settings := if already then s.settings else
        s.settings ++ [.fromDer env certInfo.serverName fingerprint certInfo.certificateDer]
      clicked := s.clicked ++ [certInfo] }
  | _ => s.push .acceptCertificate

/-- The pins of a dial. -/
def pins : List (Bytes 32) := s.acceptedCerts.map env.sha256

/-- The task takes a command between dials. -/
def takeCommand : TrustSystem :=
  match s.dial, s.commands with
  | none, .connect addr name publicKey password :: rest =>
    { s.emit (.connectStarted addr) with
      commands := rest
      dial := some ⟨addr, name, publicKey, password, false⟩ }
  | none, .acceptCertificate :: rest =>
    match s.shown with
    | .certificatePending certInfo =>
      { s.emit (.connectStarted certInfo.serverAddr) with
        commands := rest
        acceptedCerts := s.acceptedCerts ++ [certInfo.certificateDer]
        approved := s.approved ++ [certInfo]
        dial := some ⟨certInfo.serverAddr, certInfo.username, certInfo.publicKey, certInfo.password,
          true⟩ }
    | _ => { s with commands := rest }
  | none, .rejectCertificate :: rest | none, .disconnect :: rest =>
    { s.emit .disconnected with commands := rest }
  | _, _ => s

/-- The end of a dial: a session, a question to the user, or a failure. The retry after an
acceptance asks nothing. -/
def endDial (reply : DialEnd) : TrustSystem :=
  match s.dial with
  | none => s
  | some dial =>
    let s := { s with dial := none }
    match reply with
    | .timedOut => s.emit .disconnected
    | .unreachable error => s.emit (.connectionLost error)
    | .presented certificateDer serverName verdict tlsError failure =>
      match verifyServerCert env.sha256 (s.pins env) none certificateDer serverName verdict,
          failure with
      | (true, _), none => { s.emit .connected with
          opened := s.opened ++ [⟨certificateDer, verdict, s.clicked⟩] }
      | (true, _), some error => s.emit (.connectionLost error)
      | (false, some info), _ =>
        if dial.accepting then s.emit (.connectionLost tlsError)
        else s.emit (.certificatePending
          { certificateDer := info.certificateDer
            fingerprint := info.fingerprint
            serverName := info.serverName
            serverAddr := dial.addr
            username := dial.name
            password := dial.password
            publicKey := dial.publicKey })
      | (false, none), _ => s.emit (.connectionLost tlsError)

def drain : TrustSystem :=
  match s.events with
  | [] => s
  | e :: rest => { s with events := rest, shown := e.shows }

def step : TrustMove → TrustSystem
  | .send addr name publicKey password => s.push (.connect addr name publicKey password)
  | .reject => s.push .rejectCertificate
  | .disconnect => s.push .disconnect
  | .accept => s.acceptPendingCert env
  | .command => s.takeCommand
  | .dialEnds reply => s.endDial env reply
  | .lost error => s.emit (.connectionLost error)
  | .drain => s.drain
  | .restart => start env s.settings s.clicked s.opened

/-- The user presses the button while no other dial is under way or asked for and no other
certificate is about to be shown. -/
def Calm (m : TrustMove) : Prop :=
  m = .accept → (∀ c ∈ s.commands, c.dials = false) ∧ (∀ d ∈ s.dial, d.accepting = true) ∧
    ∀ e ∈ s.events, e.asks = none

instance (s : TrustSystem) (m : TrustMove) : Decidable (s.Calm m) :=
  inferInstanceAs (Decidable (m = .accept → _ ∧ _ ∧ _))

end TrustSystem

/-! ## Acceptances in the queue -/

namespace TrustSystem

variable {env : TrustEnv} {s : TrustSystem}

/-- No connect is ahead of an acceptance. -/
def Ordered (commands : List ConnectCommand) : Prop :=
  ∃ l r, commands = l ++ r ∧ (∀ c ∈ l, c.dials = false) ∧ .acceptCertificate ∉ r

namespace Ordered

variable {commands : List ConnectCommand} {c : ConnectCommand}

theorem nil : Ordered [] := ⟨[], [], rfl, nofun, List.not_mem_nil⟩

theorem push (h : Ordered commands) (hc : c ≠ .acceptCertificate) : Ordered (commands ++ [c]) := by
  obtain ⟨l, r, rfl, hl, hr⟩ := h
  refine ⟨l, r ++ [c], List.append_assoc l r [c], hl, fun hmem => ?_⟩
  rcases List.mem_append.mp hmem with hmem | hmem
  · exact hr hmem
  · exact hc (List.mem_singleton.mp hmem).symm

theorem push_accept (h : ∀ c ∈ commands, c.dials = false) :
    Ordered (commands ++ [.acceptCertificate]) := by
  refine ⟨commands ++ [.acceptCertificate], [], (List.append_nil _).symm, ?_, List.not_mem_nil⟩
  exact List.forall_mem_append.mpr ⟨h, List.forall_mem_singleton.mpr rfl⟩

theorem tail (h : Ordered (c :: commands)) : Ordered commands := by
  obtain ⟨l, r, heq, hl, hr⟩ := h
  cases l with
  | nil =>
    obtain rfl : c :: commands = r := heq
    exact ⟨[], commands, rfl, nofun, fun hmem => hr (List.mem_cons_of_mem c hmem)⟩
  | cons c' l =>
    obtain ⟨rfl, rfl⟩ := List.cons.inj heq
    exact ⟨l, r, rfl, fun c hc => hl c (List.mem_cons_of_mem _ hc), hr⟩

/-- Behind a connect there is no acceptance. -/
theorem not_mem_of_dials (h : Ordered (c :: commands)) (hc : c.dials = true) :
    .acceptCertificate ∉ commands := by
  obtain ⟨l, r, heq, hl, hr⟩ := h
  cases l with
  | nil =>
    obtain rfl : c :: commands = r := heq
    exact fun hmem => hr (List.mem_cons_of_mem c hmem)
  | cons c' l =>
    obtain ⟨rfl, -⟩ := List.cons.inj heq
    rw [hl c List.mem_cons_self] at hc
    cases hc

end Ordered

/-- What the task can still take an acceptance for was clicked. -/
structure Answered (s : TrustSystem) : Prop where
  shown : ∀ p, s.shown = .certificatePending p → p ∈ s.clicked
  events : ∀ e ∈ s.events, ∀ p ∈ e.asks, p ∈ s.clicked
  dial : ∀ d ∈ s.dial, d.accepting = true

/-- The fingerprint is that of a certificate of the first settings, or of one that was accepted. -/
def Known (env : TrustEnv) (settings : List AcceptedCertificate)
    (accepted : List PendingCertificate) (fingerprint : Bytes 32) : Prop :=
  (∃ c ∈ settings, ∃ der ∈ c.derBytes env, env.sha256 der = fingerprint) ∨
    ∃ p ∈ accepted, p.fingerprint = fingerprint

theorem Known.mono {settings : List AcceptedCertificate}
    {accepted accepted' : List PendingCertificate} {fingerprint : Bytes 32}
    (h : Known env settings accepted fingerprint) (hsub : accepted ⊆ accepted') :
    Known env settings accepted' fingerprint :=
  h.imp_right fun ⟨p, hp, heq⟩ => ⟨p, hsub hp, heq⟩

/-! ## What is shown -/

/-- The user is shown the fingerprint of the certificate that an acceptance pins. -/
structure Shows (env : TrustEnv) (s : TrustSystem) : Prop where
  shown : ∀ p, s.shown = .certificatePending p → p.Genuine env
  events : ∀ e ∈ s.events, ∀ p ∈ e.asks, p.Genuine env
  clicked : ∀ p ∈ s.clicked, p.Genuine env

/-- What is captured is the certificate that was presented, with its own fingerprint. -/
theorem captured_eq {sha256 : List UInt8 → Bytes 32} {pinned : List (Bytes 32)}
    {der : List UInt8} {name : String} {verdict : WebPki} {info : ServerCertInfo}
    (h : verifyServerCert sha256 pinned none der name verdict = (false, some info)) :
    info = ⟨der, sha256 der, name⟩ := by
  unfold verifyServerCert at h
  split at h
  · cases h
  split at h
  · cases h
  split at h
  · injection h with _ h
    exact (Option.some.inj h).symm
  · cases h

theorem asks_of_shows {e : BusEvent} {p : PendingCertificate}
    (h : e.shows = .certificatePending p) : p ∈ e.asks := by
  cases e
  case certificatePending q =>
    injection h with h
    exact congrArg some h
  all_goals cases h

namespace Shows

theorem emit (h : Shows env s) {e : BusEvent} (he : ∀ p ∈ e.asks, p.Genuine env) :
    Shows env (s.emit e) :=
  { h with events := List.forall_mem_append.mpr ⟨h.events, List.forall_mem_singleton.mpr he⟩ }

theorem emit_quiet (h : Shows env s) {e : BusEvent} (he : e.asks = none) : Shows env (s.emit e) :=
  h.emit fun p hp => by rw [he] at hp; cases hp

theorem accept (h : Shows env s) : Shows env (s.acceptPendingCert env) := by
  unfold acceptPendingCert
  split
  · rename_i p hshown
    exact ⟨h.shown, h.events, List.forall_mem_append.mpr
      ⟨h.clicked, List.forall_mem_singleton.mpr (h.shown p hshown)⟩⟩
  · exact { h with }

theorem takeCommand (h : Shows env s) : Shows env s.takeCommand := by
  unfold TrustSystem.takeCommand
  split
  · exact { h.emit_quiet (e := .connectStarted _) rfl with }
  · split
    · exact { h.emit_quiet (e := .connectStarted _) rfl with }
    · exact { h with }
  · exact { h.emit_quiet (e := .disconnected) rfl with }
  · exact { h.emit_quiet (e := .disconnected) rfl with }
  · exact h

theorem endDial (h : Shows env s) (reply : DialEnd) : Shows env (s.endDial env reply) := by
  unfold TrustSystem.endDial
  split
  · exact h
  rename_i dial _
  have hover : Shows env { s with dial := none } := { h with }
  dsimp only
  split
  · exact hover.emit_quiet rfl
  · exact hover.emit_quiet rfl
  split
  · exact { hover.emit_quiet (e := .connected) rfl with }
  · exact hover.emit_quiet rfl
  · rename_i hverify
    split
    · exact hover.emit_quiet rfl
    · obtain rfl := captured_eq hverify
      refine hover.emit fun p hp => ?_
      obtain rfl := Option.some.inj hp
      rfl
  · exact hover.emit_quiet rfl

theorem drain (h : Shows env s) : Shows env s.drain := by
  unfold TrustSystem.drain
  split
  · exact h
  · rename_i e rest hevents
    exact { h with
      shown := fun p hp => h.events e (hevents ▸ List.mem_cons_self) p (asks_of_shows hp)
      events := fun e' he' => h.events e' (hevents ▸ List.mem_cons_of_mem e he') }

theorem step (h : Shows env s) (m : TrustMove) : Shows env (s.step env m) := by
  cases m with
  | send | reject | disconnect => exact { h with }
  | accept => exact h.accept
  | command => exact h.takeCommand
  | dialEnds reply => exact h.endDial reply
  | lost error => exact h.emit_quiet rfl
  | drain => exact h.drain
  | restart => exact ⟨nofun, nofun, h.clicked⟩

end Shows

/-! ## What is trusted -/

/-- What is trusted, or can still become so, was accepted. -/
structure Trusting (env : TrustEnv) (settings : List AcceptedCertificate) (s : TrustSystem) :
    Prop where
  stored : ∀ c ∈ s.settings, ∀ der ∈ c.derBytes env, Known env settings s.clicked (env.sha256 der)
  certs : ∀ der ∈ s.acceptedCerts, Known env settings s.clicked (env.sha256 der)
  ordered : Ordered s.commands
  answered : .acceptCertificate ∈ s.commands → s.Answered
  opened : ∀ o ∈ s.opened, o.verdict = .verified ∨
    Known env settings o.accepted (env.sha256 o.certificateDer)

/-- A certificate that is trusted was verified, or is pinned. -/
theorem verify_eq_true {sha256 : List UInt8 → Bytes 32} {pinned : List (Bytes 32)}
    {slot slot' : Option ServerCertInfo} {der : List UInt8} {name : String} {verdict : WebPki}
    (h : verifyServerCert sha256 pinned slot der name verdict = (true, slot')) :
    verdict = .verified ∨ sha256 der ∈ pinned := by
  unfold verifyServerCert at h
  split at h
  · exact .inr ‹_›
  split at h
  · exact .inl ‹_›
  split at h <;> cases h

namespace Trusting

variable {settings : List AcceptedCertificate}

/-- An event; while an acceptance waits, it asks nothing new. -/
theorem emit (h : Trusting env settings s) {e : BusEvent}
    (he : .acceptCertificate ∈ s.commands → ∀ p ∈ e.asks, p ∈ s.clicked) :
    Trusting env settings (s.emit e) :=
  { h with
    answered := fun hmem => { h.answered hmem with
      events := List.forall_mem_append.mpr
        ⟨(h.answered hmem).events, List.forall_mem_singleton.mpr (he hmem)⟩ } }

theorem emit_quiet (h : Trusting env settings s) {e : BusEvent} (he : e.asks = none) :
    Trusting env settings (s.emit e) :=
  h.emit fun _ p hp => by rw [he] at hp; cases hp

theorem push (h : Trusting env settings s) {c : ConnectCommand} (hc : c ≠ .acceptCertificate) :
    Trusting env settings (s.push c) :=
  { h with
    ordered := h.ordered.push hc
    answered := fun hmem => by
      rcases List.mem_append.mp hmem with hmem | hmem
      · exact { h.answered hmem with }
      · exact absurd (List.mem_singleton.mp hmem).symm hc }

/-- The task has taken a command. -/
theorem pop (h : Trusting env settings s) {c : ConnectCommand} {rest : List ConnectCommand}
    (hcommands : s.commands = c :: rest) : Trusting env settings { s with commands := rest } :=
  { h with
    ordered := (hcommands ▸ h.ordered).tail
    answered := fun hmem => { h.answered (hcommands ▸ List.mem_cons_of_mem c hmem) with } }

theorem start (h : Trusting env settings s) :
    Trusting env settings (TrustSystem.start env s.settings s.clicked s.opened) where
  stored := h.stored
  certs := fun der hder => by
    obtain ⟨c, hc, hbytes⟩ := List.mem_filterMap.mp hder
    exact h.stored c hc der hbytes
  ordered := .nil
  answered := nofun
  opened := h.opened

/-- **The user accepts** what is shown. -/
theorem accept (hbase : ∀ der, env.unbase64 (env.base64 der) = some der) (hs : Shows env s)
    (h : Trusting env settings s) (hcalm : s.Calm .accept) :
    Trusting env settings (s.acceptPendingCert env) := by
  obtain ⟨hcommands, hdial, hevents⟩ := hcalm rfl
  have hasks : ∀ {P : PendingCertificate → Prop}, ∀ e ∈ s.events, ∀ p ∈ e.asks, P p :=
    fun e he p hp => by rw [hevents e he] at hp; cases hp
  unfold acceptPendingCert
  split
  · rename_i p hshown
    have hsub : s.clicked ⊆ s.clicked ++ [p] := List.subset_append_left _ _
    have hp : p ∈ s.clicked ++ [p] := List.mem_append_right _ List.mem_cons_self
    refine ⟨?_, fun der hder => (h.certs der hder).mono hsub, .push_accept hcommands,
      fun _ => ⟨fun q hq => ?_, hasks, hdial⟩, h.opened⟩
    · have hold : ∀ c ∈ s.settings, ∀ der ∈ c.derBytes env,
          Known env settings (s.clicked ++ [p]) (env.sha256 der) :=
        fun c hc der hder => (h.stored c hc der hder).mono hsub
      dsimp only
      split
      · exact hold
      · refine List.forall_mem_append.mpr ⟨hold, List.forall_mem_singleton.mpr fun der hder => ?_⟩
        obtain rfl : p.certificateDer = der := Option.some.inj ((hbase _).symm.trans hder)
        exact .inr ⟨p, hp, hs.shown p hshown⟩
    · have heq : ShownConnection.certificatePending p = .certificatePending q :=
        hshown.symm.trans hq
      injection heq with heq
      exact heq ▸ hp
  · rename_i hnot
    exact { h with
      ordered := .push_accept hcommands
      answered := fun _ => ⟨fun p hp => absurd hp (hnot p), hasks, hdial⟩ }

theorem takeCommand (hs : Shows env s) (h : Trusting env settings s) :
    Trusting env settings s.takeCommand := by
  unfold TrustSystem.takeCommand
  split
  · -- Behind the connect there is no acceptance left.
    rename_i addr _ _ _ _ hdial hcommands
    have hnone := (hcommands ▸ h.ordered).not_mem_of_dials rfl
    exact { (h.pop hcommands).emit_quiet (e := .connectStarted addr) rfl with
      answered := fun hmem => absurd hmem hnone }
  · rename_i hdial hcommands
    split
    · rename_i p hshown
      have ha := h.answered (hcommands ▸ List.mem_cons_self)
      have hquiet := (h.pop hcommands).emit_quiet (e := .connectStarted p.serverAddr) rfl
      exact { hquiet with
        certs := List.forall_mem_append.mpr ⟨h.certs, List.forall_mem_singleton.mpr
          (.inr ⟨p, ha.shown p hshown, hs.shown p hshown⟩)⟩
        answered := fun hmem => { hquiet.answered hmem with
          dial := fun d hd => by rw [← Option.some.inj hd] } }
    · exact h.pop hcommands
  · exact (h.pop ‹_›).emit_quiet rfl
  · exact (h.pop ‹_›).emit_quiet rfl
  · exact h

theorem endDial (h : Trusting env settings s) (reply : DialEnd) :
    Trusting env settings (s.endDial env reply) := by
  unfold TrustSystem.endDial
  split
  · exact h
  rename_i dial hdial
  have hover : Trusting env settings { s with dial := none } :=
    { h with answered := fun hmem => { h.answered hmem with dial := nofun } }
  dsimp only
  split
  · exact hover.emit_quiet rfl
  · exact hover.emit_quiet rfl
  rename_i der name verdict tlsError failure
  split
  · rename_i hverify
    have hknown : verdict = .verified ∨ Known env settings s.clicked (env.sha256 der) := by
      refine (verify_eq_true hverify).imp_right fun hpinned => ?_
      obtain ⟨der', hder', heq⟩ := List.mem_map.mp hpinned
      exact heq ▸ h.certs der' hder'
    have hquiet := hover.emit_quiet (e := .connected) rfl
    exact { hquiet with
      answered := fun hmem => { hquiet.answered hmem with }
      opened := List.forall_mem_append.mpr ⟨h.opened, List.forall_mem_singleton.mpr hknown⟩ }
  · exact hover.emit_quiet rfl
  · split
    · exact hover.emit_quiet rfl
    · rename_i hasking
      exact hover.emit fun hmem => absurd ((h.answered hmem).dial dial hdial) hasking
  · exact hover.emit_quiet rfl

theorem drain (h : Trusting env settings s) : Trusting env settings s.drain := by
  unfold TrustSystem.drain
  split
  · exact h
  rename_i e rest hevents
  refine { h with answered := fun hmem => { h.answered hmem with
    shown := fun p hp => ?_, events := fun e' he' => ?_ } }
  · exact (h.answered hmem).events e (hevents ▸ List.mem_cons_self) p (asks_of_shows hp)
  · exact (h.answered hmem).events e' (hevents ▸ List.mem_cons_of_mem e he')

/-- **Step lemma.** -/
theorem step (hbase : ∀ der, env.unbase64 (env.base64 der) = some der) (hs : Shows env s)
    (h : Trusting env settings s) {m : TrustMove} (hcalm : s.Calm m) :
    Trusting env settings (s.step env m) := by
  cases m with
  | send | reject | disconnect => exact h.push nofun
  | accept => exact h.accept hbase hs hcalm
  | command => exact h.takeCommand hs
  | dialEnds reply => exact h.endDial reply
  | lost error => exact h.emit_quiet rfl
  | drain => exact h.drain
  | restart => exact h.start

end Trusting

/-! ## What is remembered -/

theorem filter_colonGroups (bytes : List UInt8) :
    (colonGroups bytes).filter (· ≠ ':') = Hex.upperChars bytes := by
  have hdigits : ∀ bytes : List UInt8,
      (Hex.upperChars bytes).filter (· ≠ ':') = Hex.upperChars bytes := fun bytes =>
    List.filter_eq_self.mpr fun c hc => decide_eq_true fun heq =>
      Hex.colon_not_mem_upperChars bytes (heq ▸ hc)
  fun_induction colonGroups bytes with
  | case1 a b c rest ih =>
    have hsplit : Hex.upperChars (a :: b :: c :: rest) =
        Hex.upperChars [a, b] ++ Hex.upperChars (c :: rest) := rfl
    rw [List.filter_append, hdigits, List.filter_cons_of_neg (by simp), ih, hsplit]
  | case2 bytes => exact hdigits bytes

theorem fingerprintHex_injective {a b : Bytes 32} (h : fingerprintHex a = fingerprintHex b) :
    a = b := by
  have hchars : colonGroups a.data = colonGroups b.data := String.ofList_injective h
  have hupper := congrArg (List.filter (· ≠ ':')) hchars
  rw [filter_colonGroups, filter_colonGroups] at hupper
  refine Bytes.data_inj (Option.some.inj ?_)
  rw [← Hex.decodeChars_upperChars, hupper, Hex.decodeChars_upperChars]

/-- Each stored certificate is under its own fingerprint. -/
def WellFormed (env : TrustEnv) (settings : List AcceptedCertificate) : Prop :=
  ∀ c ∈ settings, ∃ der ∈ c.derBytes env, c.fingerprintHex = fingerprintHex (env.sha256 der)

/-- What was accepted is in the settings file, and pinned from then on. -/
structure Remembering (env : TrustEnv) (s : TrustSystem) : Prop where
  stored : WellFormed env s.settings
  clicked : ∀ p ∈ s.clicked, ∃ c ∈ s.settings, ∃ der ∈ c.derBytes env,
    env.sha256 der = p.fingerprint
  atStart : ∀ p ∈ s.atStart, p.fingerprint ∈ s.pins env
  approved : ∀ p ∈ s.approved, p.fingerprint ∈ s.pins env

namespace Remembering

theorem accept (hbase : ∀ der, env.unbase64 (env.base64 der) = some der) (hs : Shows env s)
    (h : Remembering env s) : Remembering env (s.acceptPendingCert env) := by
  unfold acceptPendingCert
  split
  · rename_i p hshown
    have hp := hs.shown p hshown
    dsimp only
    split
    · rename_i halready
      refine ⟨h.stored, List.forall_mem_append.mpr
        ⟨h.clicked, List.forall_mem_singleton.mpr ?_⟩, h.atStart, h.approved⟩
      obtain ⟨c, hc, heq⟩ := List.any_eq_true.mp halready
      obtain ⟨der, hder, hhex⟩ := h.stored c hc
      have hsame : c.fingerprintHex = fingerprintHex p.fingerprint :=
        eq_of_beq (Bool.and_eq_true_iff.mp heq).2
      exact ⟨c, hc, der, hder, fingerprintHex_injective (hhex.symm.trans hsame)⟩
    · have hnew : (AcceptedCertificate.fromDer env p.serverName (fingerprintHex p.fingerprint)
          p.certificateDer).derBytes env = some p.certificateDer := hbase _
      refine { h with stored := ?_, clicked := ?_ }
      · refine List.forall_mem_append.mpr ⟨h.stored, List.forall_mem_singleton.mpr
          ⟨p.certificateDer, hnew, ?_⟩⟩
        exact congrArg fingerprintHex hp
      · refine List.forall_mem_append.mpr ⟨fun q hq => ?_, List.forall_mem_singleton.mpr ?_⟩
        · obtain ⟨c, hc, hbytes⟩ := h.clicked q hq
          exact ⟨c, List.mem_append_left _ hc, hbytes⟩
        · exact ⟨_, List.mem_append_right _ List.mem_cons_self, p.certificateDer, hnew, hp.symm⟩
  · exact { h with }

theorem takeCommand (hs : Shows env s) (h : Remembering env s) :
    Remembering env s.takeCommand := by
  unfold TrustSystem.takeCommand
  split
  · exact { h with }
  · split
    · rename_i p hshown
      have hmore : ∀ fingerprint ∈ s.pins env,
          fingerprint ∈ (s.acceptedCerts ++ [p.certificateDer]).map env.sha256 :=
        fun fingerprint hmem => by
          rw [List.map_append]
          exact List.mem_append_left _ hmem
      have hp : p.fingerprint ∈ (s.acceptedCerts ++ [p.certificateDer]).map env.sha256 := by
        rw [List.map_append, hs.shown p hshown]
        exact List.mem_append_right _ List.mem_cons_self
      exact { h with
        atStart := fun q hq => hmore _ (h.atStart q hq)
        approved := List.forall_mem_append.mpr
          ⟨fun q hq => hmore _ (h.approved q hq), List.forall_mem_singleton.mpr hp⟩ }
    · exact { h with }
  · exact { h with }
  · exact { h with }
  · exact h

theorem endDial (h : Remembering env s) (reply : DialEnd) :
    Remembering env (s.endDial env reply) := by
  unfold TrustSystem.endDial
  split
  · exact h
  dsimp only
  split
  · exact { h with }
  · exact { h with }
  split
  · exact { h with }
  · exact { h with }
  · split <;> exact { h with }
  · exact { h with }

theorem start (h : Remembering env s) :
    Remembering env (TrustSystem.start env s.settings s.clicked s.opened) where
  stored := h.stored
  clicked := h.clicked
  atStart := fun p hp => by
    obtain ⟨c, hc, der, hder, heq⟩ := h.clicked p hp
    exact heq ▸ List.mem_map_of_mem (List.mem_filterMap.mpr ⟨c, hc, hder⟩)
  approved := nofun

/-- **Step lemma.** -/
theorem step (hbase : ∀ der, env.unbase64 (env.base64 der) = some der) (hs : Shows env s)
    (h : Remembering env s) (m : TrustMove) : Remembering env (s.step env m) := by
  cases m with
  | send | reject | disconnect | lost => exact { h with }
  | accept => exact h.accept hbase hs
  | command => exact h.takeCommand hs
  | dialEnds reply => exact h.endDial reply
  | drain =>
    show Remembering env s.drain
    unfold TrustSystem.drain
    split <;> exact { h with }
  | restart => exact h.start

end Remembering

end TrustSystem

/-! ## Runs -/

namespace TrustSystem

variable {env : TrustEnv}

/-- The app on a settings file. -/
def boot (env : TrustEnv) (settings : List AcceptedCertificate) : TrustSystem :=
  start env settings [] []

theorem shows_boot (settings : List AcceptedCertificate) : Shows env (boot env settings) :=
  ⟨nofun, nofun, nofun⟩

theorem trusting_boot (settings : List AcceptedCertificate) :
    Trusting env settings (boot env settings) where
  stored := fun c hc der hder => .inl ⟨c, hc, der, hder, rfl⟩
  certs := fun der hder => by
    obtain ⟨c, hc, hbytes⟩ := List.mem_filterMap.mp hder
    exact .inl ⟨c, hc, der, hbytes, rfl⟩
  ordered := .nil
  answered := nofun
  opened := nofun

/-- **Only what the user accepted is trusted.** In every interleaving of clicks, commands, dials to
servers that present anything, lost connections and restarts, in which the user accepts only while
no other dial is pending, a session is opened over a certificate that WebPKI verified for the host,
or whose fingerprint is that of a certificate in the settings file of the beginning, or the one that
the user was shown and accepted before. -/
theorem trusted_run (hbase : ∀ der, env.unbase64 (env.base64 der) = some der)
    (settings : List AcceptedCertificate) {moves : List TrustMove}
    (hcalm : Always (step env) Calm (boot env settings) moves) :
    ∀ o ∈ (moves.foldl (step env) (boot env settings)).opened, o.verdict = .verified ∨
      (∃ c ∈ settings, ∃ der ∈ c.derBytes env, env.sha256 der = env.sha256 o.certificateDer) ∨
      ∃ p ∈ o.accepted, p.fingerprint = env.sha256 o.certificateDer := by
  have hrun : Shows env _ ∧ Trusting env settings _ := hcalm.invariant
    (I := fun s => Shows env s ∧ Trusting env settings s)
    (fun s m hm h => ⟨h.1.step m, h.2.step hbase h.1 hm⟩)
    ⟨shows_boot settings, trusting_boot settings⟩
  exact hrun.2.opened

/-- The hash and the base64 text of one certificate, and stand-ins for all others. -/
def sampleTrustEnv : TrustEnv where
  sha256 := fun der => if der = [1] then
    ⟨[75, 245, 18, 47, 52, 69, 84, 197, 59, 222, 46, 187, 140, 210, 183, 227,
      209, 96, 10, 214, 49, 195, 133, 165, 215, 204, 226, 60, 119, 133, 69, 154], rfl⟩
    else Bytes.rep 32 0
  base64 := fun der => if der = [1] then "AQ==" else Hex.encode der
  unbase64 := fun text => if text = "AQ==" then some [1] else Hex.decode text

theorem sampleTrustEnv_base64 (der : List UInt8) :
    sampleTrustEnv.unbase64 (sampleTrustEnv.base64 der) = some der := by
  show (if (if der = [1] then "AQ==" else Hex.encode der) = "AQ==" then some [1]
    else Hex.decode (if der = [1] then "AQ==" else Hex.encode der)) = some der
  by_cases hder : der = [1]
  · rw [if_pos hder, if_pos rfl, hder]
  · have hne : Hex.encode der ≠ "AQ==" := fun heq => by
      have hdecode := Hex.decode_encode der
      have hnone : Hex.decode "AQ==" = none := by decide
      rw [heq, hnone] at hdecode
      cases hdecode
    rw [if_neg hder, if_neg hne, Hex.decode_encode]

/-- A server with a self-signed certificate: the user is asked and accepts. -/
def sampleTrustMoves : List TrustMove :=
  [.send "localhost:5000" "ann" (Bytes.rep 32 7) none, .command,
    .dialEnds (.presented [1] "localhost" .unknownIssuer "UnknownIssuer" none), .drain, .drain,
    .accept, .command,
    .dialEnds (.presented [1] "localhost" .unknownIssuer "UnknownIssuer" none), .drain]

theorem trusted_run_sample : ∃ p ∈
    (sampleTrustMoves.foldl (step sampleTrustEnv) (boot sampleTrustEnv [])).clicked,
    p.fingerprint = sampleTrustEnv.sha256 [1] := by
  have hcalm : Always (step sampleTrustEnv) Calm (boot sampleTrustEnv []) sampleTrustMoves := by
    decide
  have hopened : Opened.mk [1] .unknownIssuer
      (sampleTrustMoves.foldl (step sampleTrustEnv) (boot sampleTrustEnv [])).clicked ∈
      (sampleTrustMoves.foldl (step sampleTrustEnv) (boot sampleTrustEnv [])).opened := by decide
  rcases trusted_run sampleTrustEnv_base64 [] hcalm _ hopened with h | ⟨c, hc, -⟩ | h
  · cases h
  · cases hc
  · exact h

/-- After a restart the user connects again. -/
def sampleTrustAgain : List TrustMove :=
  sampleTrustMoves ++
    [.restart, .send "localhost:5000" "ann" (Bytes.rep 32 7) none, .command]

end TrustSystem

end Rumble.Desktop
