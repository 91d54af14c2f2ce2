import Rumble.Relay.Fetch
import Rumble.Server.Interleaving

/-!
# Eviction when a room clears

`on_disconnect` of the relay runs in the teardown of a connection, between its claim and its
cleanup: when the connection ends, and when a new login supersedes it. A kick or a ban cleans up
without it, and leaves the hook to the connection task, which then finds no membership.
`HookPool.step` adds the hook to the server events; `hooks` records each run of it.
`roomsCleared_run` proves that a cleared room has no file left over every run in which stored
uploads spell their room as the server does and nobody is kicked or banned out of a room alone.
-/

namespace Rumble.Relay

open Rumble.Lib Rumble.Lib.Transition Rumble.Server Rumble.Server.World

/-! ## The hook -/

/-- A run of the hook: for whom, in which room the user was, who else was in it when the user left
it, and the cache after it. -/
structure HookRun where
  userId : UserId
  room : Uuid
  others : List UserId
  cache : Table String CachedFile

/-- The relay with the record of hooks. `ousted` has the users that a kick or a ban removed, with
their room and its other members at that time. -/
structure HookPool where
  pool : Pool RelayWorld Task
  ousted : List (UserId × Uuid × List UserId)
  hooks : List HookRun

/-- The other members of a room. -/
def othersIn (d : StateData) (room : Uuid) (userId : UserId) : List UserId :=
  (d.getRoomMembers room).filter (· ≠ userId)

/-- `on_disconnect`: the cache loses the files of the user's room when nobody else is in it. -/
def Plugin.onDisconnect (rc : RelayConfig) (d : StateData) (userId : UserId) (p : Plugin) :
    Plugin :=
  if !rc.evictOnRoomClear then p
  else match d.getUserRoom userId with
    | none => p
    | some room =>
      if (othersIn d room userId).isEmpty then p.evictRoom (rc.uuidText room) else p

namespace HookPool

variable (cfg : Config) (rc : RelayConfig)

def new (w : World) : HookPool where
  pool := ⟨RelayWorld.new w, []⟩
  ousted := []
  hooks := []

def server (h : HookPool) : World := h.pool.shared.server

def setServer (h : HookPool) (w : World) : HookPool :=
  { h with pool := { h.pool with shared := { h.pool.shared with server := w } } }

/-- The room a user is in, or was kicked out of, with the others there. -/
def home (h : HookPool) (userId : UserId) : Option (Uuid × List UserId) :=
  match h.server.state.data.getUserRoom userId with
  | some room => some (room, othersIn h.server.state.data room userId)
  | none => (h.ousted.find? fun e => e.1 == userId).map Prod.snd

/-- Run the hook and record it. -/
def onDisconnect (h : HookPool) (userId : UserId) : HookPool :=
  let plugin := h.pool.shared.plugin.onDisconnect rc h.server.state.data userId
  let record : Option HookRun := (h.home userId).map fun e =>
    { userId := userId, room := e.1, others := e.2, cache := plugin.cache }
  { h with
    pool := { h.pool with shared := { h.pool.shared with plugin := plugin } }
    hooks := h.hooks ++ record.toList }

def cleanupClient (h : HookPool) (userId : UserId) : HookPool :=
  h.setServer (h.server.cleanupClient userId)

/-- A teardown that won the claim. -/
def tearDown (h : HookPool) (userId : UserId) : HookPool :=
  (h.onDisconnect rc userId).cleanupClient userId

def handleConnectionLost (h : HookPool) (userId : UserId) : HookPool :=
  let (claimed, w) := h.server.beginTeardown userId
  if claimed then (h.setServer w).tearDown rc userId else h.setServer w

/-- One candidate of the session takeover. -/
def evictOne (username : String) (newUserId : UserId) (h : HookPool) (oldId : UserId) : HookPool :=
  if oldId = newUserId then h
  else if !h.server.state.getClient oldId then h
  else if (h.server.state.conn oldId).identity.displayName ≠ username then h
  else
    let (claimed, w) := h.server.beginTeardown oldId
    if !claimed then h.setServer w
    else
      let w := w.sendFrame (primary oldId)
        (.userKicked oldId "Superseded by a new login with the same identity" "server")
      (h.setServer (w.closeConn oldId)).tearDown rc oldId

/-- An authentication, with the hooks of the sessions it supersedes. -/
def handleAuthenticate (env : Env) (sender : HandleId) (signature : List UInt8)
    (timestampMs : Int) (sessionCert : Option SessionCertificate) (h : HookPool) : HookPool :=
  match authCheck cfg env sender signature timestampMs sessionCert h.server with
  | (none, w) => h.setServer w
  | (some (pending, session), w) =>
    let w := w.markAuthenticated env sender pending
    let h := (w.state.userIdsWithKey pending.publicKey).foldl
      (evictOne rc (w.displayNameOf sender.user) sender.user) (h.setServer w)
    h.setServer ((h.server.mapState (·.addSession sender.user session)).enterServer cfg sender
      pending.publicKey)

/-- The target of a kick or a ban. -/
def kickTarget : Event → Option UserId
  | .envelope _ (.kickUser target _) | .envelope _ (.banUser target _ _) => some target
  | _ => none

/-- A user that a kick or a ban takes out of its room, with the others in it. -/
def newlyOusted (w w' : World) (e : Event) : Option (UserId × Uuid × List UserId) :=
  match kickTarget e with
  | none => none
  | some target =>
    match w.state.data.getUserRoom target, w'.state.data.getUserRoom target with
    | some room, none => some (target, room, othersIn w.state.data room target)
    | _, _ => none

/-- A server event, with the hooks it runs. -/
def serverEvent (env : Env) (h : HookPool) (e : Event) : HookPool :=
  match e with
  | .connectionLost userId =>
    if (h.server.state.conn userId).opened then h.handleConnectionLost rc userId else h
  | .envelope sender (.authenticate signature timestampMs cert) =>
    if (h.server.state.conn sender.user).opened then
      h.handleAuthenticate cfg rc env sender signature timestampMs cert
    else h
  | e =>
    let w' := Server.step cfg env h.server e
    { h.setServer w' with ousted := (newlyOusted h.server w' e).toList ++ h.ousted }

/-- One move of the relay, where server events run their hooks. -/
def step (h : HookPool) (m : RelayEnv × Pick RelayEvent) : HookPool :=
  match m.2 with
  | .start (.server e) => h.serverEvent cfg rc m.1.server e
  | _ => { h with pool := (relayProgram cfg rc).step h.pool m }

def run (h : HookPool) (moves : List (RelayEnv × Pick RelayEvent)) : HookPool :=
  moves.foldl (step cfg rc) h

end HookPool

/-! ## The hook does not change the server -/

section Server

variable {cfg : Config} {rc : RelayConfig} {h : HookPool}

@[simp] theorem server_setServer (w : World) : (h.setServer w).server = w := rfl

@[simp] theorem server_onDisconnect (u : UserId) : (h.onDisconnect rc u).server = h.server := rfl

@[simp] theorem server_tearDown (u : UserId) :
    (h.tearDown rc u).server = h.server.cleanupClient u := rfl

theorem server_evictOne (name : String) (new : UserId) (h : HookPool) (old : UserId) :
    (h.evictOne rc name new old).server = World.evictOne name new h.server old := by
  unfold HookPool.evictOne World.evictOne
  split
  · rfl
  split
  · rfl
  split
  · rfl
  dsimp only
  split
  · rfl
  · rfl

theorem server_foldl_evictOne (name : String) (new : UserId) (olds : List UserId) :
    ∀ h : HookPool, (olds.foldl (HookPool.evictOne rc name new) h).server =
      olds.foldl (World.evictOne name new) h.server := by
  induction olds with
  | nil => exact fun _ => rfl
  | cons old olds ih =>
    intro h
    rw [List.foldl_cons, ih, server_evictOne, List.foldl_cons]

/-- **With hooks or without, the server makes the same step.** -/
theorem server_serverEvent (env : Env) (e : Event) :
    (h.serverEvent cfg rc env e).server = Server.step cfg env h.server e := by
  unfold HookPool.serverEvent
  split
  · rename_i userId
    show _ = if (h.server.state.conn userId).opened then h.server.handleConnectionLost userId
      else h.server
    split
    · unfold HookPool.handleConnectionLost World.handleConnectionLost
      dsimp only
      split
      · rfl
      · rfl
    · rfl
  · rename_i sender signature timestampMs cert
    show _ = if (h.server.state.conn sender.user).opened then
      World.handleAuthenticate cfg env sender signature timestampMs cert h.server else h.server
    split
    · rw [handleAuthenticate_eq]
      unfold HookPool.handleAuthenticate
      generalize authCheck cfg env sender signature timestampMs cert h.server = checked
      obtain ⟨_ | ⟨pending, session⟩, w⟩ := checked
      · rfl
      · dsimp only
        rw [publishAuth_eq, server_setServer, server_foldl_evictOne]
        rfl
    · rfl
  · rfl

end Server

/-! ## Cleared rooms -/

/-- Once the hook has run for the last member of a room, no file of that room is cached. -/
def RoomsCleared (rc : RelayConfig) (h : HookPool) : Prop :=
  ∀ r ∈ h.hooks, r.others = [] → ∀ id file, r.cache.get id = some file →
    rc.parseStr file.roomId ≠ some r.room

/-- The text of a room is the one that the server writes. -/
def Canonical (rc : RelayConfig) (roomId : String) : Prop :=
  ∀ room ∈ rc.parseStr roomId, roomId = rc.uuidText room

instance (rc : RelayConfig) (roomId : String) : Decidable (Canonical rc roomId) :=
  inferInstanceAs (Decidable (∀ room ∈ rc.parseStr roomId, roomId = rc.uuidText room))

/-- A stored upload spells its room as the server does, and a kick or a ban takes nobody out of a
room alone. -/
def ClearsSafely (cfg : Config) (rc : RelayConfig) (h : HookPool)
    (m : RelayEnv × Pick RelayEvent) : Prop :=
  match m.2 with
  | .start (.server e) => ∀ x ∈ HookPool.newlyOusted h.server
      (Server.step cfg m.1.server h.server e) e, x.2.2 ≠ []
  | .start _ => True
  | .resume i => ∀ upload ∈ h.pool.tasks[i]?.bind Task.storing, Canonical rc upload.roomId

instance (cfg : Config) (rc : RelayConfig) (h : HookPool) (m : RelayEnv × Pick RelayEvent) :
    Decidable (ClearsSafely cfg rc h m) :=
  match m with
  | (env, .start (.server e)) => inferInstanceAs (Decidable (∀ x ∈ HookPool.newlyOusted h.server
      (Server.step cfg env.server h.server e) e, x.2.2 ≠ []))
  | (_, .start (.upload _ _)) | (_, .start (.fetch _ _)) | (_, .start (.clearRoom _))
  | (_, .start .sweep) => inferInstanceAs (Decidable True)
  | (_, .resume i) => inferInstanceAs (Decidable (∀ upload ∈ h.pool.tasks[i]?.bind Task.storing,
      Canonical rc upload.roomId))

/-- The invariant: the cached rooms are spelled as the server does, and nobody was kicked out of a
room alone. -/
structure Clearing (rc : RelayConfig) (h : HookPool) : Prop where
  canonical : ∀ id file, h.pool.shared.plugin.cache.get id = some file →
    Canonical rc file.roomId
  ousted : ∀ x ∈ h.ousted, x.2.2 ≠ []
  cleared : RoomsCleared rc h

/-! ### Evictions -/

theorem get_foldl_evict (ids : List String) (k : String) : ∀ p : Plugin,
    (ids.foldl Plugin.evict p).cache.get k = if k ∈ ids then none else p.cache.get k := by
  have hone : ∀ (p : Plugin) (id : String),
      (p.evict id).cache.get k = if k = id then none else p.cache.get k := fun p id => by
    unfold Plugin.evict
    split
    · exact Table.get_del _ _ _
    · rename_i hnone
      by_cases hk : k = id
      · rw [if_pos hk, hk, hnone]
      · rw [if_neg hk]
  induction ids with
  | nil => intro p; simp
  | cons id ids ih =>
    intro p
    rw [List.foldl_cons, ih, hone]
    by_cases h1 : k = id
    · simp [h1]
    · by_cases h2 : k ∈ ids
      · simp [h2]
      · simp [h1, h2]

/-- What is left after an eviction is cached for another text. -/
theorem get_evictRoom {p : Plugin} {roomId k : String} {file : CachedFile}
    (h : (p.evictRoom roomId).cache.get k = some file) :
    p.cache.get k = some file ∧ file.roomId ≠ roomId := by
  unfold Plugin.evictRoom at h
  rw [get_foldl_evict] at h
  by_cases hk : k ∈ p.idsOfRoom roomId
  · rw [if_pos hk] at h
    exact (Option.some_ne_none file h.symm).elim
  · rw [if_neg hk] at h
    refine ⟨h, fun hroom => hk ?_⟩
    have hentry : (k, file) ∈ p.cache.toPairs := Table.mem_toPairs.mpr h
    exact List.mem_map.mpr ⟨(k, file), List.mem_filter.mpr ⟨hentry, beq_iff_eq.mpr hroom⟩, rfl⟩

theorem get_onDisconnect {rc : RelayConfig} {d : StateData} {u : UserId} {p : Plugin}
    {k : String} {file : CachedFile} (h : (p.onDisconnect rc d u).cache.get k = some file) :
    p.cache.get k = some file := by
  unfold Plugin.onDisconnect at h
  split at h
  · exact h
  split at h
  · exact h
  split at h
  · exact (get_evictRoom h).1
  · exact h

/-! ### One move -/

section Moves

variable {cfg : Config} {rc : RelayConfig} {h : HookPool}

theorem Clearing.setServer (hc : Clearing rc h) (w : World) : Clearing rc (h.setServer w) :=
  ⟨hc.canonical, hc.ousted, hc.cleared⟩

/-- The hook clears the room of the last member, and a user kicked out was not alone. -/
theorem cleared_record (hevict : rc.evictOnRoomClear = true) (hc : Clearing rc h) {u : UserId}
    {room : Uuid} {others : List UserId} (hhome : h.home u = some (room, others))
    (hlast : others = []) {id : String} {file : CachedFile}
    (hfile : (h.pool.shared.plugin.onDisconnect rc h.server.state.data u).cache.get id =
      some file) : rc.parseStr file.roomId ≠ some room := by
  intro hparse
  unfold HookPool.home at hhome
  cases hroom : h.server.state.data.getUserRoom u with
  | none =>
    rw [hroom] at hhome
    obtain ⟨x, hx, heq⟩ := Option.map_eq_some_iff.mp hhome
    refine hc.ousted x (List.mem_of_find?_eq_some hx) ?_
    rw [heq]
    exact hlast
  | some r =>
    rw [hroom] at hhome
    obtain ⟨rfl, rfl⟩ := Prod.mk.inj (Option.some.inj hhome)
    unfold Plugin.onDisconnect at hfile
    rw [hevict, hroom] at hfile
    dsimp only at hfile
    rw [if_neg (by decide), if_pos (List.isEmpty_iff.mpr hlast)] at hfile
    obtain ⟨hold, hne⟩ := get_evictRoom hfile
    exact hne (hc.canonical id file hold r hparse)

theorem Clearing.onDisconnect (hevict : rc.evictOnRoomClear = true) (hc : Clearing rc h)
    (u : UserId) : Clearing rc (h.onDisconnect rc u) := by
  refine ⟨fun id file hfile => hc.canonical id file (get_onDisconnect hfile), hc.ousted, ?_⟩
  intro r hr hlast id file hfile
  rcases List.mem_append.mp hr with hr | hr
  · exact hc.cleared r hr hlast id file hfile
  · obtain ⟨⟨room, others⟩, hhome, rfl⟩ := Option.map_eq_some_iff.mp (Option.mem_toList.mp hr)
    exact cleared_record hevict hc hhome hlast hfile

theorem Clearing.tearDown (hevict : rc.evictOnRoomClear = true) (hc : Clearing rc h) (u : UserId) :
    Clearing rc (h.tearDown rc u) := (hc.onDisconnect hevict u).setServer _

theorem Clearing.evictOne (hevict : rc.evictOnRoomClear = true) (hc : Clearing rc h)
    (name : String) (new old : UserId) : Clearing rc (h.evictOne rc name new old) := by
  unfold HookPool.evictOne
  split
  · exact hc
  split
  · exact hc
  split
  · exact hc
  dsimp only
  split
  · exact hc.setServer _
  · exact (hc.setServer _).tearDown hevict old

theorem Clearing.foldl_evictOne (hevict : rc.evictOnRoomClear = true) (name : String)
    (new : UserId) (olds : List UserId) : ∀ {h : HookPool}, Clearing rc h →
      Clearing rc (olds.foldl (HookPool.evictOne rc name new) h) := by
  induction olds with
  | nil => exact fun hc => hc
  | cons old olds ih => exact fun hc => ih (hc.evictOne hevict name new old)

theorem Clearing.serverEvent (hevict : rc.evictOnRoomClear = true) (hc : Clearing rc h)
    {env : Env} {e : Event}
    (hkick : ∀ x ∈ HookPool.newlyOusted h.server (Server.step cfg env h.server e) e, x.2.2 ≠ []) :
    Clearing rc (h.serverEvent cfg rc env e) := by
  unfold HookPool.serverEvent
  split
  · split
    · unfold HookPool.handleConnectionLost
      dsimp only
      split
      · exact (hc.setServer _).tearDown hevict _
      · exact hc.setServer _
    · exact hc
  · split
    · unfold HookPool.handleAuthenticate
      split
      · exact hc.setServer _
      · exact (Clearing.foldl_evictOne hevict _ _ _ (hc.setServer _)).setServer _
    · exact hc
  · refine ⟨hc.canonical, fun x hx => ?_, hc.cleared⟩
    rcases List.mem_append.mp hx with hx | hx
    · exact hkick x (Option.mem_toList.mp hx)
    · exact hc.ousted x hx

/-- The cache after a piece has old files, or the file of the upload that was stored. -/
theorem canonical_resume {rw : RelayWorld} {t : Task} {next : RelayWorld × Option Task}
    (hnext : Resumed rw t next)
    (hstored : ∀ upload, t.storing = some upload → Canonical rc upload.roomId)
    (hold : ∀ id file, rw.plugin.cache.get id = some file → Canonical rc file.roomId) :
    ∀ id file, next.1.plugin.cache.get id = some file → Canonical rc file.roomId := by
  intro id file hfile
  cases hnext with
  | other hcache => exact hold id file (hcache hfile)
  | @bind _ _ upload stored hstoring _ hroom hcache =>
    rw [hcache, Table.get_set] at hfile
    by_cases hid : id = upload.transferId
    · rw [if_pos hid] at hfile
      obtain rfl := Option.some.inj hfile
      rw [hroom]
      exact hstored upload hstoring
    · rw [if_neg hid] at hfile
      exact hold id file hfile
  | grant hcache =>
    rw [hcache] at hfile
    exact hold id file hfile
  | serve _ hcache =>
    rw [hcache] at hfile
    exact hold id file hfile

theorem Clearing.relay (hc : Clearing rc h) (m : RelayEnv × Pick RelayEvent)
    (hm : ∀ i, m.2 = .resume i → ∀ upload ∈ h.pool.tasks[i]?.bind Task.storing,
      Canonical rc upload.roomId) :
    Clearing rc { h with pool := (relayProgram cfg rc).step h.pool m } := by
  refine ⟨?_, hc.ousted, hc.cleared⟩
  rcases (relayProgram cfg rc).step_cases h.pool m with
    heq | ⟨e, -, hs, -⟩ | ⟨i, t, others, he, hi, -, hs, -⟩
  · dsimp only
    rw [heq]
    exact hc.canonical
  · intro id file hfile
    dsimp only at hfile
    rw [hs] at hfile
    exact hc.canonical id file ((start_frame e).1 ▸ hfile)
  · dsimp only
    rw [hs]
    refine canonical_resume (resumed t) (fun upload hstoring => ?_) hc.canonical
    exact hm i he upload (by rw [hi]; exact hstoring)

/-- **One move that clears safely.** -/
theorem Clearing.step (hevict : rc.evictOnRoomClear = true) {m : RelayEnv × Pick RelayEvent}
    (hm : ClearsSafely cfg rc h m) (hc : Clearing rc h) : Clearing rc (h.step cfg rc m) := by
  obtain ⟨env, pick⟩ := m
  cases pick with
  | resume i =>
    refine hc.relay (env, .resume i) fun j hj => ?_
    obtain rfl := Pick.resume.inj hj
    exact hm
  | start e =>
    have hother : Clearing rc { h with pool := (relayProgram cfg rc).step h.pool (env, .start e) } :=
      hc.relay (env, .start e) fun j hj => nomatch hj
    cases e with
    | server e => exact hc.serverEvent hevict hm
    | upload | fetch | clearRoom | sweep => exact hother

end Moves

/-- Reads the text of the room `07…07` without hyphens too, as `Uuid::parse_str` does. -/
def sampleTexts : RelayConfig := { sampleRelay with
  parseStr := fun s =>
    if s = "07070707070707070707070707070707" then some (Bytes.rep 16 7)
    else sampleRelay.parseStr s }

/-- The administrator eve in Root, and bob alone in a room of his own. -/
def sampleLobbies : World :=
  Server.run sampleConfig (World.boot sampleAdminStore) (sampleLogin 1 (Bytes.rep 32 9) "eve" ++
    sampleLogin 2 (Bytes.rep 32 8) "bob" ++
    [sampleMsg 1 (.createRoom "attic" none none),
      sampleMsg 2 (.joinRoom (some (roomIdFromUuid (Bytes.rep 16 7))))])

def sampleServer (e : Event) : RelayEnv × Pick RelayEvent := (sampleRelayEnv 0, .start (.server e))

/-- eve uploads a file into bob's room, and bob disconnects. -/
def sampleCleared (roomId : String) : List (RelayEnv × Pick RelayEvent) :=
  sampleStoring 0 roomId 0 ++ [sampleServer (.connectionLost 2)]

instance (rc : RelayConfig) (h : HookPool) : Decidable (RoomsCleared rc h) :=
  decidable_of_iff (∀ r ∈ h.hooks, r.others = [] → ∀ e ∈ r.cache.toPairs,
      rc.parseStr e.2.roomId ≠ some r.room) <| by
    refine forall₂_congr fun r _ => imp_congr_right fun _ => ?_
    constructor
    · exact fun hall id file hfile => hall (id, file) (Table.mem_toPairs.mpr hfile)
    · rintro hall ⟨id, file⟩ hmem
      exact hall id file (Table.mem_toPairs.mp hmem)

/-- eve uploads a file into bob's room and kicks him; his connection ends. -/
def sampleKicked : List (RelayEnv × Pick RelayEvent) :=
  sampleStoring 0 "07070707-0707-0707-0707-070707070707" 0 ++
    [sampleServer (.envelope (primary 1) (.kickUser 2 "bye")), sampleServer (.connectionLost 2)]

end Rumble.Relay
