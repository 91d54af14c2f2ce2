import Rumble.Bridge.Events
import Rumble.Lib.Transition

/-!
# The ids of the bridge

Client sessions and proxy sessions come from two counters of one 32-bit space, channel ids from a
third. Every step of the bridge edits the two maps by lookups that insert and by removals, so while
the counters fit their type each map stays inverse to its reverse map. Nothing keeps the client
counter below the first proxy session: the sessions stay apart exactly as long as no client
registers, and no proxy session is asked for, beyond that point.
-/

namespace Rumble.Bridge

open Rumble.Lib Rumble.Lib.Transition Relation

/-! ## Edits of a map -/

/-- One edit of a map: `insert` or a removal. -/
inductive Edit {κ : Type} [DecidableEq κ] (insert : IdMap κ → κ → UInt32 × IdMap κ) :
    IdMap κ → IdMap κ → Prop
  | insert (m : IdMap κ) (k : κ) : Edit insert m (insert m k).2
  | remove (m : IdMap κ) (k : κ) : Edit insert m (m.remove k)

/-- Edits of the channel map. -/
abbrev ChannelMap.Edited : ChannelMap → ChannelMap → Prop :=
  ReflTransGen (Edit ChannelMap.getOrInsert)

/-- Edits of the user map. -/
abbrev UserMap.Edited : UserMap → UserMap → Prop := ReflTransGen (Edit UserMap.getOrInsert)

theorem ChannelMap.Edited.insert (m : ChannelMap) (uuid : Uuid) :
    ChannelMap.Edited m (ChannelMap.getOrInsert m uuid).2 := .single (.insert m uuid)

theorem UserMap.Edited.insert (m : UserMap) (userId : UserId) :
    UserMap.Edited m (UserMap.getOrInsert m userId).2 := .single (.insert m userId)

theorem ChannelMap.Edited.remove (m : ChannelMap) (uuid : Uuid) :
    ChannelMap.Edited m (ChannelMap.removeByUuid m uuid) := .single (.remove m uuid)

theorem UserMap.Edited.remove (m : UserMap) (userId : UserId) :
    UserMap.Edited m (UserMap.removeByRumbleId m userId) := .single (.remove m userId)

theorem edited_visitRoom (oldRooms : List Room) (acc : List SyncMessage × ChannelMap)
    (room : Room) : ChannelMap.Edited acc.2 (visitRoom oldRooms acc room).2 := by
  unfold visitRoom
  dsimp only
  split
  · exact ChannelMap.Edited.insert acc.2 room.id
  · exact (ChannelMap.Edited.insert acc.2 room.id).trans (ChannelMap.Edited.insert _ room.parent)

theorem edited_channels_reconcile (oldRooms : List Room) (oldUsers : List User)
    (newRooms : List Room) (newUsers : List User) (channels : ChannelMap) (users : UserMap)
    (skip : SkipRules) : ChannelMap.Edited channels
      (reconcileServerState oldRooms oldUsers newRooms newUsers channels users skip).channels := by
  have hrooms := reflTransGen_foldl (fun acc : List SyncMessage × ChannelMap => acc.2)
    (visitRoom oldRooms) (edited_visitRoom oldRooms) (roomsInOrder newRooms) ([], channels)
  have husers := reflTransGen_foldl (fun acc : List SyncMessage × ChannelMap × UserMap => acc.2.1)
    (visitUser oldUsers) fun acc user => ChannelMap.Edited.insert acc.2.1 user.currentRoom
  have hremoved := reflTransGen_foldl (fun m : ChannelMap => m)
    (fun m (e : Nat × UInt32 × Uuid) => ChannelMap.removeByUuid m e.2.2)
    fun m e => ChannelMap.Edited.remove m e.2.2
  refine ReflTransGen.trans (hrooms.trans ?_) (hremoved _ _)
  exact husers _ ([], (_ : ChannelMap), _)

theorem edited_users_reconcile (oldRooms : List Room) (oldUsers : List User)
    (newRooms : List Room) (newUsers : List User) (channels : ChannelMap) (users : UserMap)
    (skip : SkipRules) : UserMap.Edited users
      (reconcileServerState oldRooms oldUsers newRooms newUsers channels users skip).users := by
  have hgone := reflTransGen_foldl (fun m : UserMap => m)
    (fun m (e : UserId × UInt32) => UserMap.removeByRumbleId m e.1)
    (fun m e => UserMap.Edited.remove m e.1) (vanished newUsers users skip) users
  have husers := reflTransGen_foldl (fun acc : List SyncMessage × ChannelMap × UserMap => acc.2.2)
    (visitUser oldUsers) fun acc user => UserMap.Edited.insert acc.2.2 user.userId
  exact hgone.trans (husers _ ([], _, (_ : UserMap)))

/-! ## Edits keep the maps sound -/

/-- The Root room at channel 0, outside of the counter. -/
def RootPinned (uuid : Uuid) (channelId : UInt32) : Prop := uuid = rootRoomUuid ∧ channelId = 0

/-- The channel map: inverse to its reverse map, and Root nowhere but at channel 0. -/
structure ChannelMap.Sound (m : ChannelMap) : Prop where
  ids : IdMap.Sound RootPinned 1 m
  root : ∀ id, m.forward.get rootRoomUuid = some id → id = 0

/-- The user map: inverse to its reverse map, and every session from the counter. -/
abbrev UserMap.Sound (m : UserMap) : Prop := IdMap.Sound (fun _ _ => False) UserMap.proxyBase m

theorem ChannelMap.getOrInsert_root (m : ChannelMap) :
    (ChannelMap.getOrInsert m rootRoomUuid).1 = 0 := by
  rw [ChannelMap.getOrInsert, if_pos rfl]

theorem ChannelMap.next_le_getOrInsert (m : ChannelMap) (uuid : Uuid) :
    m.next ≤ (ChannelMap.getOrInsert m uuid).2.next := by
  unfold ChannelMap.getOrInsert
  split
  · exact le_rfl
  · exact IdMap.next_le_getOrInsert uuid

theorem next_le_edit {κ : Type} [DecidableEq κ] {insert : IdMap κ → κ → UInt32 × IdMap κ}
    (hinsert : ∀ m k, m.next ≤ (insert m k).2.next) {m m' : IdMap κ} (h : Edit insert m m') :
    m.next ≤ m'.next := by
  cases h with
  | insert k => exact hinsert m k
  | remove k => exact (IdMap.next_remove k).ge

theorem ChannelMap.Edited.next_le {m m' : ChannelMap} (h : ChannelMap.Edited m m') :
    m.next ≤ m'.next := by
  induction h with
  | refl => exact le_rfl
  | tail _ hedit ih => exact ih.trans (next_le_edit ChannelMap.next_le_getOrInsert hedit)

theorem UserMap.Edited.next_le {m m' : UserMap} (h : UserMap.Edited m m') : m.next ≤ m'.next := by
  induction h with
  | refl => exact le_rfl
  | tail _ hedit ih => exact ih.trans (next_le_edit (fun _ k => IdMap.next_le_getOrInsert k) hedit)

/-- An id of the counter is not channel 0. -/
theorem ofNat_ne_zero {i : Nat} (h : 1 ≤ i) (hfit : i < 2 ^ 32) : UInt32.ofNat i ≠ 0 := by
  intro h0
  have := IdMap.ofNat_inj hfit (by decide : (0 : Nat) < 2 ^ 32) h0
  omega

theorem ChannelMap.Sound.at_zero {m : ChannelMap} (h : ChannelMap.Sound m) (hfit : m.next ≤ 2 ^ 32)
    {uuid : Uuid} (h0 : m.forward.get uuid = some 0) : uuid = rootRoomUuid := by
  rcases h.ids.known uuid 0 h0 with hpin | hissued
  · exact hpin.1
  · obtain ⟨i, hbase, hi, h0⟩ := IdMap.mem_issued.mp hissued
    exact absurd h0 (ofNat_ne_zero hbase (by omega))

theorem ChannelMap.Sound.getOrInsert {m : ChannelMap} (h : ChannelMap.Sound m) (uuid : Uuid)
    (hfit : (ChannelMap.getOrInsert m uuid).2.next ≤ 2 ^ 32) :
    ChannelMap.Sound (ChannelMap.getOrInsert m uuid).2 := by
  unfold ChannelMap.getOrInsert at hfit ⊢
  split at hfit
  · rename_i huuid
    rw [if_pos huuid]
    subst huuid
    refine ⟨h.ids.pin ⟨rfl, rfl⟩ h.root fun k hk => ?_, fun id hid => ?_⟩
    · exact h.at_zero hfit ((h.ids.inverse k 0).mpr hk)
    · exact (Option.some.inj ((Table.get_set_self _ _ _).symm.trans hid)).symm
  · rename_i huuid
    rw [if_neg huuid]
    refine ⟨h.ids.getOrInsert hfit fun i k hi hlt hpin => ofNat_ne_zero hi hlt hpin.2,
      fun id hid => h.root id ?_⟩
    rwa [IdMap.forward_getOrInsert_ne _ (Ne.symm huuid)] at hid

theorem ChannelMap.Sound.remove {m : ChannelMap} (h : ChannelMap.Sound m) (uuid : Uuid) :
    ChannelMap.Sound (ChannelMap.removeByUuid m uuid) :=
  ⟨h.ids.remove uuid, fun id hid => h.root id (IdMap.forward_of_remove hid)⟩

theorem ChannelMap.Edited.sound {m m' : ChannelMap} (h : ChannelMap.Edited m m')
    (hm : ChannelMap.Sound m) (hfit : m'.next ≤ 2 ^ 32) : ChannelMap.Sound m' := by
  induction h with
  | refl => exact hm
  | tail _ hedit ih =>
    have ih := ih ((next_le_edit ChannelMap.next_le_getOrInsert hedit).trans hfit)
    cases hedit with
    | insert uuid => exact ih.getOrInsert uuid hfit
    | remove uuid => exact ih.remove uuid

theorem UserMap.Edited.sound {m m' : UserMap} (h : UserMap.Edited m m') (hm : UserMap.Sound m)
    (hfit : m'.next ≤ 2 ^ 32) : UserMap.Sound m' := by
  induction h with
  | refl => exact hm
  | tail _ hedit ih =>
    have ih := ih ((next_le_edit (fun _ k => IdMap.next_le_getOrInsert k) hedit).trans hfit)
    cases hedit with
    | insert userId => exact ih.getOrInsert hfit fun _ _ _ _ hfalse => hfalse
    | remove userId => exact IdMap.Sound.remove ih userId

/-! ## Edits of a step -/

namespace BridgeState

variable (s : BridgeState)

theorem edited_ofRoomId (m : ChannelMap) (roomId : Option RoomId) :
    ChannelMap.Edited m (ChannelMap.ofRoomId m roomId).2 := by
  unfold ChannelMap.ofRoomId
  split
  · exact ChannelMap.Edited.insert _ _
  · exact .refl

/-- What a step that registers no client does to ids: edits of the maps. -/
structure IdEdits (s s' : BridgeState) : Prop where
  channels : ChannelMap.Edited s.channels s'.channels
  users : UserMap.Edited s.users s'.users
  clients : ∀ k c', s'.mumbleClients.get k = some c' →
    ∃ c, s.mumbleClients.get k = some c ∧ c'.session = c.session
  next : s'.nextMumbleSession = s.nextMumbleSession

theorem IdEdits.of_maps {s s' : BridgeState} (hc : ChannelMap.Edited s.channels s'.channels)
    (hu : UserMap.Edited s.users s'.users) (hm : s'.mumbleClients = s.mumbleClients)
    (hn : s'.nextMumbleSession = s.nextMumbleSession) : IdEdits s s' :=
  ⟨hc, hu, fun _ c hk => ⟨c, hm ▸ hk, rfl⟩, hn⟩

theorem IdEdits.refl : IdEdits s s := .of_maps .refl .refl rfl rfl

theorem idEdits_handleStateUpdate (update : Update) :
    IdEdits s (s.handleStateUpdate update).1 := by
  unfold handleStateUpdate
  split
  case h_1 user =>
    unfold handleUserJoined
    dsimp only
    split_ifs
    · exact .refl s
    · exact .refl s
    · exact .refl s
    · exact .of_maps (edited_ofRoomId _ _) (UserMap.Edited.insert _ _) rfl rfl
  case h_3 =>
    unfold handleUserLeft
    dsimp only
    split_ifs
    · exact .refl s
    · exact .of_maps .refl (UserMap.Edited.remove _ _) rfl rfl
  case h_4 userId toRoomId =>
    unfold handleUserMoved
    dsimp only
    split_ifs
    · exact .refl s
    · exact .of_maps (edited_ofRoomId _ _) .refl rfl rfl
  case h_5 =>
    unfold handleUserStatusChanged
    dsimp only
    split_ifs
    · exact .refl s
    · exact .of_maps .refl .refl rfl rfl
  case h_6 room =>
    unfold handleRoomCreated
    split
    · exact .refl s
    · exact .of_maps ((ChannelMap.Edited.insert _ _).trans (edited_ofRoomId _ _)) .refl rfl rfl
  case h_8 =>
    unfold handleRoomDeleted
    split
    · exact .refl s
    · exact .of_maps (ChannelMap.Edited.remove _ _) .refl rfl rfl
  case h_11 =>
    unfold handleRoomDescriptionChanged
    dsimp only
    split
    · exact .refl s
    · exact .of_maps .refl .refl rfl rfl
  all_goals exact .refl s

theorem idEdits_handleRumbleEnvelope (env : RumbleEnvelope) :
    IdEdits s (s.handleRumbleEnvelope env).1 := by
  cases env with
  | serverState ss =>
    exact .of_maps (edited_channels_reconcile _ _ _ _ _ _ _) (edited_users_reconcile _ _ _ _ _ _ _)
      rfl rfl
  | stateUpdate update =>
    cases update with
    | none => exact .refl s
    | some update => exact idEdits_handleStateUpdate s update
  | participantRegistered userId username =>
    show IdEdits s (s.handleParticipantRegistered userId username).1
    unfold handleParticipantRegistered
    split
    · exact .of_maps .refl .refl rfl rfl
    · exact .refl s
  | commandResult | other => exact .refl s

theorem edited_buildChannelStates :
    ChannelMap.Edited s.channels s.buildChannelStates.2.channels := by
  unfold buildChannelStates
  refine ReflTransGen.trans (reflTransGen_foldl (fun m : ChannelMap => m)
    (fun m (r : Room) => (ChannelMap.getOrInsert m r.id).2)
    (fun m r => ChannelMap.Edited.insert m r.id) s.rumbleRooms s.channels) ?_
  refine reflTransGen_foldl (fun acc : List ChannelState × ChannelMap => acc.2) _ (fun acc room => ?_)
    _ (_, (_ : ChannelMap))
  dsimp only
  split
  · exact ChannelMap.Edited.insert _ _
  · exact (ChannelMap.Edited.insert _ _).trans (ChannelMap.Edited.insert _ _)

/-- A client that changes in place keeps its session. -/
theorem idEdits_setClient {client client' : MumbleClient} {session : UInt32}
    (h : s.mumbleClients.get session = some client) (hs : client'.session = client.session) :
    IdEdits s { s with mumbleClients := s.mumbleClients.set session client' } := by
  refine ⟨.refl, .refl, fun k c' hk => ?_, rfl⟩
  change (s.mumbleClients.set session client').get k = some c' at hk
  rw [Table.get_set] at hk
  split at hk
  · rename_i heq
    subst heq
    obtain rfl := Option.some.inj hk
    exact ⟨client, h, hs⟩
  · exact ⟨c', hk, rfl⟩

/-- Dropped clients leave the others as they are. -/
theorem idEdits_delClient (session : UInt32) :
    IdEdits s { s with mumbleClients := s.mumbleClients.del session } := by
  refine ⟨.refl, .refl, fun k c' hk => ?_, rfl⟩
  change (s.mumbleClients.del session).get k = some c' at hk
  rw [Table.get_del] at hk
  split at hk
  · cases hk
  · exact ⟨c', hk, rfl⟩

theorem idEdits_handleEvent (e : BridgeEvent) : IdEdits s (s.handleEvent e).1 := by
  cases e with
  | mumbleClientJoined | mumbleClientLeft => exact .of_maps .refl .refl rfl rfl
  | mumbleClientSender session =>
    show IdEdits s (s.handleClientSender session).1
    unfold handleClientSender
    dsimp only
    split
    · exact .of_maps (edited_buildChannelStates s) .refl rfl rfl
    · exact .of_maps (edited_buildChannelStates s) .refl rfl rfl
  | mumbleChannelChange session channelId =>
    show IdEdits s (s.handleChannelChange session channelId).1
    unfold handleChannelChange
    dsimp only
    split
    · rename_i client hclient
      exact idEdits_setClient s hclient rfl
    · exact .refl s
  | mumbleMuteDeafChange session isMuted isDeafened =>
    show IdEdits s (s.handleMuteDeafChange session isMuted isDeafened).1
    unfold handleMuteDeafChange
    dsimp only
    split
    · rename_i client hclient
      exact idEdits_setClient s hclient rfl
    · exact .refl s
  | rumbleEnvelope env => exact idEdits_handleRumbleEnvelope s env

theorem idEdits_reconnect (userId : UserId) : IdEdits s (s.reconnect userId).1 := by
  unfold reconnect
  dsimp only
  split
  · exact .of_maps .refl .refl rfl rfl
  · exact .of_maps .refl .refl rfl rfl

/-- A client that registers gets the next session. -/
theorem registerClient_cases (username : String) :
    s.rumbleTaken username = true ∧ (s.registerClient username).2 = s ∨
    s.rumbleTaken username = false ∧ ∃ clients client,
      IdEdits s { s with mumbleClients := clients } ∧
      client.session = UInt32.ofNat s.nextMumbleSession ∧ (s.registerClient username).2 = { s with
        nextMumbleSession := s.nextMumbleSession + 1
        mumbleClients := clients.set (UInt32.ofNat s.nextMumbleSession) client } := by
  unfold registerClient
  cases htaken : s.rumbleTaken username with
  | true => exact .inl ⟨rfl, rfl⟩
  | false =>
    refine .inr ⟨rfl, ?_⟩
    generalize Option.map MumbleClient.session _ = superseded
    cases superseded with
    | none => exact ⟨s.mumbleClients, _, .refl s, rfl, rfl⟩
    | some old => exact ⟨s.mumbleClients.del old, _, idEdits_delClient s old, rfl, rfl⟩

theorem step_cases (i : BridgeStep) : IdEdits s (s.step i) ∨ ∃ username clients client,
    i = .registerClient username ∧ s.rumbleTaken username = false ∧
      IdEdits s { s with mumbleClients := clients } ∧
      client.session = UInt32.ofNat s.nextMumbleSession ∧ s.step i = { s with
        nextMumbleSession := s.nextMumbleSession + 1
        mumbleClients := clients.set (UInt32.ofNat s.nextMumbleSession) client } := by
  cases i with
  | event e => exact .inl (idEdits_handleEvent s e)
  | registerClient username =>
    rcases registerClient_cases s username with ⟨-, heq⟩ | ⟨htaken, clients, client, h⟩
    · exact .inl (by rw [step, heq]; exact .refl s)
    · exact .inr ⟨username, clients, client, rfl, htaken, h⟩
  | removeClient session => exact .inl (idEdits_delClient s session)
  | reconnect userId => exact .inl (idEdits_reconnect s userId)

/-! ## The ids of a state -/

/-- The sessions handed out to Mumble clients so far. -/
def clientSessions : List UInt32 :=
  (List.range' clientBase (s.nextMumbleSession - clientBase)).map UInt32.ofNat

/-- The sessions handed out to Rumble users so far. -/
def proxySessions : List UInt32 := IdMap.issued UserMap.proxyBase s.users

/-- The counters have not left the 32-bit type. -/
structure Fits : Prop where
  channels : s.channels.next ≤ 2 ^ 32
  users : s.users.next ≤ 2 ^ 32
  clients : s.nextMumbleSession ≤ 2 ^ 32

/-- Ids are handed out once, live ids differ, the maps are inverse to their reverse maps, and the
Root room and channel 0 belong to each other. -/
structure IdsDistinct : Prop where
  handedOut : (s.clientSessions ++ s.proxySessions).Nodup
  clients : ∀ k c, s.mumbleClients.get k = some c → c.session = k ∧ k ∈ s.clientSessions
  proxies : ∀ u id, UserMap.getMumbleSession s.users u = some id → id ∈ s.proxySessions
  live : (s.mumbleClients.toPairs.map Prod.fst ++ (UserMap.entries s.users).map Prod.snd).Nodup
  users : ∀ u id,
    UserMap.getMumbleSession s.users u = some id ↔ UserMap.getRumbleId s.users id = some u
  channels : ∀ r id,
    ChannelMap.getMumbleId s.channels r = some id ↔ ChannelMap.getRumbleUuid s.channels id = some r
  root : (ChannelMap.getOrInsert s.channels rootRoomUuid).1 = 0
  rootOnly : ∀ r id, ChannelMap.getMumbleId s.channels r = some id → (r = rootRoomUuid ↔ id = 0)

/-- What every state of a run keeps while the counters fit. -/
structure IdsKept : Prop where
  channels : ChannelMap.Sound s.channels
  users : UserMap.Sound s.users
  clients : ∀ k c, s.mumbleClients.get k = some c → c.session = k ∧ k ∈ s.clientSessions
  base_le : clientBase ≤ s.nextMumbleSession

variable {s}

theorem fits_of_step {i : BridgeStep} (h : (s.step i).Fits) : s.Fits := by
  rcases step_cases s i with hedits | ⟨_, clients, _, -, -, -, -, heq⟩
  · exact ⟨hedits.channels.next_le.trans h.channels, hedits.users.next_le.trans h.users,
      hedits.next ▸ h.clients⟩
  · rw [heq] at h
    exact ⟨h.channels, h.users, (Nat.le_succ _).trans h.clients⟩

theorem idsKept_step {i : BridgeStep} (hfit : (s.step i).Fits) (h : s.IdsKept) :
    (s.step i).IdsKept := by
  rcases step_cases s i with hedits | ⟨_, clients, client, -, -, hedits, hsession, heq⟩
  · refine ⟨hedits.channels.sound h.channels hfit.channels, hedits.users.sound h.users hfit.users,
      fun k c' hk => ?_, hedits.next ▸ h.base_le⟩
    obtain ⟨c, hk, hsame⟩ := hedits.clients k c' hk
    rw [clientSessions, hedits.next, hsame]
    exact h.clients k c hk
  · rw [heq]
    have hlen : s.nextMumbleSession + 1 - clientBase = s.nextMumbleSession - clientBase + 1 := by
      have := h.base_le
      omega
    refine ⟨h.channels, h.users, fun k c' hk => ?_, h.base_le.trans (Nat.le_succ _)⟩
    change (clients.set _ client).get k = some c' at hk
    have hsessions : k ∈ s.clientSessions ++ [UInt32.ofNat s.nextMumbleSession] ↔
        k ∈ clientSessions { s with
          nextMumbleSession := s.nextMumbleSession + 1
          mumbleClients := clients.set (UInt32.ofNat s.nextMumbleSession) client } := by
      unfold clientSessions
      rw [hlen, List.range'_1_concat, List.map_append, Nat.add_sub_cancel' h.base_le]
      rfl
    rw [← hsessions]
    rw [Table.get_set] at hk
    split at hk
    · rename_i hkey
      obtain rfl := Option.some.inj hk
      exact ⟨hsession.trans hkey.symm, List.mem_append_right _ (List.mem_singleton.mpr hkey)⟩
    · obtain ⟨c, hk, hsame⟩ := hedits.clients k c' hk
      obtain ⟨hkey, hmem⟩ := h.clients k c hk
      exact ⟨hsame.trans hkey, List.mem_append_left _ hmem⟩

theorem idsKept_new : new.IdsKept where
  channels := ⟨IdMap.sound_empty, fun id h => by simp [new, ChannelMap.new, IdMap.empty] at h⟩
  users := IdMap.sound_empty
  clients := fun k c h => by simp [new] at h
  base_le := le_rfl

/-! ## When the sessions stay apart -/

/-- The first proxy session is a client session once the client counter has passed it. -/
theorem apart_of_nodup (h : (s.clientSessions ++ s.proxySessions).Nodup) :
    s.nextMumbleSession ≤ UserMap.proxyBase ∨ s.users.next ≤ UserMap.proxyBase := by
  by_contra hboth
  push Not at hboth
  have hclient : UInt32.ofNat UserMap.proxyBase ∈ s.clientSessions := by
    refine List.mem_map_of_mem (List.mem_range'_1.mpr ⟨by decide, ?_⟩)
    have : clientBase ≤ UserMap.proxyBase := by decide
    omega
  have hproxy : UInt32.ofNat UserMap.proxyBase ∈ s.proxySessions :=
    IdMap.mem_issued.mpr ⟨UserMap.proxyBase, le_rfl, hboth.2, rfl⟩
  exact (List.nodup_append.mp h).2.2 _ hclient _ hproxy rfl

theorem nodup_of_apart (hfit : s.Fits) (hkept : s.IdsKept)
    (h : s.nextMumbleSession ≤ UserMap.proxyBase ∨ s.users.next ≤ UserMap.proxyBase) :
    (s.clientSessions ++ s.proxySessions).Nodup := by
  have hclients := hfit.clients
  have husers := hfit.users
  have hbase := hkept.base_le
  have hproxies := hkept.users.base_le
  refine List.nodup_append.mpr ⟨IdMap.nodup_map_ofNat (by omega), IdMap.nodup_map_ofNat (by omega),
    fun a ha b hb hab => ?_⟩
  obtain ⟨i, hi, rfl⟩ := List.mem_map.mp ha
  obtain ⟨j, hj, hjlt, rfl⟩ := IdMap.mem_issued.mp hb
  have hi := List.mem_range'_1.mp hi
  have := IdMap.ofNat_inj (by omega) (by omega) hab
  omega

/-- Live proxies of an inverse map have different sessions. -/
theorem nodup_proxies (h : UserMap.Sound s.users) :
    ((UserMap.entries s.users).map Prod.snd).Nodup := by
  refine (List.Nodup.of_map _ (Table.nodup_keys s.users.forward)).map_on ?_
  rintro ⟨u, id⟩ hu ⟨u', id'⟩ hu' (rfl : id = id')
  have hu := (h.inverse _ _).mp (Table.mem_toPairs.mp hu)
  have hu' := (h.inverse _ _).mp (Table.mem_toPairs.mp hu')
  rw [Option.some.inj (hu.symm.trans hu')]

theorem idsDistinct_of_apart (hfit : s.Fits) (hkept : s.IdsKept)
    (h : s.nextMumbleSession ≤ UserMap.proxyBase ∨ s.users.next ≤ UserMap.proxyBase) :
    s.IdsDistinct := by
  have hnodup := nodup_of_apart hfit hkept h
  have hproxies : ∀ u id, s.users.forward.get u = some id → id ∈ s.proxySessions :=
    fun u id hid => (hkept.users.known u id hid).resolve_left fun hfalse => hfalse
  refine ⟨hnodup, hkept.clients, hproxies, ?_, hkept.users.inverse, hkept.channels.ids.inverse,
    ChannelMap.getOrInsert_root _, fun r id hid => ⟨?_, ?_⟩⟩
  · refine List.nodup_append.mpr ⟨Table.nodup_keys _, nodup_proxies hkept.users, ?_⟩
    intro a ha b hb
    obtain ⟨⟨k, c⟩, hk, rfl⟩ := List.mem_map.mp ha
    obtain ⟨⟨u, id⟩, hu, rfl⟩ := List.mem_map.mp hb
    exact (List.nodup_append.mp hnodup).2.2 k (hkept.clients k c (Table.mem_toPairs.mp hk)).2 id
      (hproxies u id (Table.mem_toPairs.mp hu))
  · rintro rfl
    exact hkept.channels.root id hid
  · rintro rfl
    exact hkept.channels.at_zero hfit.channels hid

/-- The step asks for the proxy session of a user that has none. -/
def asksProxy (s : BridgeState) : BridgeStep → Bool
  | .event (.rumbleEnvelope (.stateUpdate (some (.userJoined (some user))))) =>
    let rumbleId := user.userId.getD 0
    some rumbleId ≠ s.bridgeUserId && !s.isVirtual rumbleId && !s.isPending user.username &&
      (UserMap.getMumbleSession s.users rumbleId).isNone
  | .event (.rumbleEnvelope (.serverState ss)) =>
    ((ss.users.filterMap User.fromProto).filter fun u => !s.skipRules.skips u).any fun u =>
      (UserMap.getMumbleSession s.users u.userId).isNone
  | _ => false

theorem users_foldl_visitUser (oldUsers : List User) (l : List User)
    (acc : List SyncMessage × ChannelMap × UserMap) :
    (l.foldl (visitUser oldUsers) acc).2.2 = IdMap.insertAll acc.2.2 (l.map User.userId) := by
  induction l generalizing acc with
  | nil => rfl
  | cons u l ih => exact ih _

/-- The users of reconciliation: the vanished ones are removed, then the shown ones inserted. -/
theorem users_reconcile (oldRooms : List Room) (oldUsers : List User) (newRooms : List Room)
    (newUsers : List User) (channels : ChannelMap) (users : UserMap) (skip : SkipRules) :
    (reconcileServerState oldRooms oldUsers newRooms newUsers channels users skip).users =
      IdMap.insertAll (((vanished newUsers users skip).map Prod.fst).foldl IdMap.remove users)
        ((newUsers.filter fun u => !skip.skips u).map User.userId) := by
  rw [List.foldl_map]
  exact users_foldl_visitUser oldUsers _ _

theorem not_mem_vanished {newUsers : List User} {users : UserMap} {skip : SkipRules} {u : User}
    (h : u ∈ newUsers.filter fun u => !skip.skips u) :
    u.userId ∉ (vanished newUsers users skip).map Prod.fst := by
  intro hmem
  obtain ⟨e, he, heq⟩ := List.mem_map.mp hmem
  unfold vanished at he
  rw [List.mem_insertionSort, List.mem_filter, decide_eq_true_eq, heq] at he
  exact he.2 (List.mem_map_of_mem h)

theorem next_reconcile_eq_iff (oldRooms : List Room) (oldUsers : List User) (newRooms : List Room)
    (newUsers : List User) (channels : ChannelMap) (users : UserMap) (skip : SkipRules) :
    (reconcileServerState oldRooms oldUsers newRooms newUsers channels users skip).users.next =
      users.next ↔ ∀ u ∈ newUsers.filter fun u => !skip.skips u,
        (UserMap.getMumbleSession users u.userId).isSome := by
  rw [users_reconcile, ← IdMap.next_foldl_remove ((vanished newUsers users skip).map Prod.fst) users,
    IdMap.next_insertAll_eq_iff, List.forall_mem_map]
  refine forall₂_congr fun u hu => ?_
  rw [IdMap.forward_foldl_remove_ne (not_mem_vanished hu)]
  rfl

theorem next_handleUserJoined_eq_iff (user : UserInfo) :
    (s.handleUserJoined user).1.users.next = s.users.next ↔
      s.asksProxy (.event (.rumbleEnvelope (.stateUpdate (some (.userJoined (some user)))))) =
        false := by
  unfold handleUserJoined asksProxy
  dsimp only
  split_ifs with hbridge hvirtual hpending
  · simp [hbridge]
  · simp [hvirtual]
  · simp [hpending]
  · have hinsert := IdMap.next_insertAll_eq_iff [user.userId.getD 0] s.users
    rw [List.forall_mem_singleton] at hinsert
    refine hinsert.trans ?_
    simp [hbridge, hvirtual, hpending, UserMap.getMumbleSession]

theorem next_handleStateUpdate (update : Update) (h : ∀ user, update ≠ .userJoined (some user)) :
    (s.handleStateUpdate update).1.users.next = s.users.next := by
  unfold handleStateUpdate
  split
  case h_1 user => exact absurd rfl (h user)
  case h_3 =>
    unfold handleUserLeft
    dsimp only
    split_ifs
    · rfl
    · exact IdMap.next_remove _
  case h_4 userId toRoomId =>
    unfold handleUserMoved
    dsimp only
    split_ifs <;> rfl
  case h_5 =>
    unfold handleUserStatusChanged
    dsimp only
    split_ifs <;> rfl
  case h_6 room =>
    unfold handleRoomCreated
    split <;> rfl
  case h_8 =>
    unfold handleRoomDeleted
    split <;> rfl
  case h_11 =>
    unfold handleRoomDescriptionChanged
    dsimp only
    split <;> rfl
  all_goals rfl

/-- The counter of proxy sessions moves exactly when one is asked for. -/
theorem next_step_eq_iff (i : BridgeStep) :
    (s.step i).users.next = s.users.next ↔ s.asksProxy i = false := by
  cases i with
  | registerClient username =>
    refine iff_of_true ?_ rfl
    rcases registerClient_cases s username with ⟨-, heq⟩ | ⟨-, clients, client, -, -, heq⟩
    · rw [step, heq]
    · rw [step, heq]
  | removeClient session => exact iff_of_true rfl rfl
  | reconnect userId =>
    refine iff_of_true ?_ rfl
    show (s.reconnect userId).1.users.next = s.users.next
    unfold reconnect
    dsimp only
    split <;> rfl
  | event e =>
    cases e with
    | mumbleClientJoined | mumbleClientLeft => exact iff_of_true rfl rfl
    | mumbleClientSender session =>
      refine iff_of_true ?_ rfl
      show (s.handleClientSender session).1.users.next = s.users.next
      unfold handleClientSender
      dsimp only
      split <;> rfl
    | mumbleChannelChange session channelId =>
      refine iff_of_true ?_ rfl
      show (s.handleChannelChange session channelId).1.users.next = s.users.next
      unfold handleChannelChange
      dsimp only
      split <;> rfl
    | mumbleMuteDeafChange session isMuted isDeafened =>
      refine iff_of_true ?_ rfl
      show (s.handleMuteDeafChange session isMuted isDeafened).1.users.next = s.users.next
      unfold handleMuteDeafChange
      dsimp only
      split <;> rfl
    | rumbleEnvelope env =>
      cases env with
      | serverState ss =>
        refine (next_reconcile_eq_iff _ _ _ _ _ s.users s.skipRules).trans ?_
        unfold asksProxy
        dsimp only
        rw [List.any_eq_false]
        refine forall₂_congr fun u _ => ?_
        cases UserMap.getMumbleSession s.users u.userId <;> simp
      | stateUpdate update =>
        cases update with
        | none => exact iff_of_true rfl rfl
        | some update =>
          by_cases h : ∃ user, update = .userJoined (some user)
          · obtain ⟨user, rfl⟩ := h
            exact next_handleUserJoined_eq_iff user
          · push Not at h
            refine iff_of_true (next_handleStateUpdate update h) ?_
            unfold asksProxy
            split
            · rename_i heq
              cases heq
              exact absurd rfl (h _)
            · rename_i heq
              cases heq
            · rfl
      | participantRegistered userId username =>
        refine iff_of_true ?_ rfl
        show (s.handleParticipantRegistered userId username).1.users.next = s.users.next
        unfold handleParticipantRegistered
        split <;> rfl
      | commandResult | other => exact iff_of_true rfl rfl

/-- No session beyond the first proxy session, while there are proxies, and no proxy while there
are sessions beyond it. -/
def StaysApart (s : BridgeState) (i : BridgeStep) : Prop :=
  match i with
  | .registerClient username => s.rumbleTaken username = true ∨
      s.nextMumbleSession < UserMap.proxyBase ∨ s.users.next ≤ UserMap.proxyBase
  | i => s.nextMumbleSession ≤ UserMap.proxyBase ∨ s.asksProxy i = false

theorem fits_run_of_append {pre post : List BridgeStep} {s : BridgeState}
    (h : ((pre ++ post).foldl step s).Fits) : (pre.foldl step s).Fits := by
  induction post using List.reverseRecOn with
  | nil => rwa [List.append_nil] at h
  | append_singleton post i ih =>
    rw [← List.append_assoc, List.foldl_append] at h
    exact ih (fits_of_step h)

/-- A step that meets the condition keeps one of the two counters at the first proxy session. -/
theorem apart_step {i : BridgeStep} (hi : s.StaysApart i)
    (h : s.nextMumbleSession ≤ UserMap.proxyBase ∨ s.users.next ≤ UserMap.proxyBase) :
    (s.step i).nextMumbleSession ≤ UserMap.proxyBase ∨
      (s.step i).users.next ≤ UserMap.proxyBase := by
  rcases step_cases s i with hedits | ⟨username, clients, client, rfl, htaken, -, -, heq⟩
  · rcases h with hclients | husers
    · exact .inl (hedits.next ▸ hclients)
    · cases hasks : s.asksProxy i with
      | false =>
        rw [(next_step_eq_iff i).mpr hasks]
        exact .inr husers
      | true =>
        refine .inl (hedits.next ▸ ?_)
        cases i with
        | registerClient => cases hasks
        | event | removeClient | reconnect =>
          exact hi.resolve_right (by rw [hasks]; exact Bool.noConfusion)
  · rw [heq]
    rcases hi with htaken' | hclients | husers
    · rw [htaken] at htaken'
      cases htaken'
    · exact .inl hclients
    · exact .inr husers

/-- A step that misses the condition hands out a session of the other kind. -/
theorem not_apart_step {i : BridgeStep} (hi : ¬ s.StaysApart i)
    (hbase : UserMap.proxyBase ≤ s.users.next) : ¬ (s.step i).IdsDistinct := by
  intro hdistinct
  have happart := apart_of_nodup hdistinct.handedOut
  rcases step_cases s i with hedits | ⟨username, clients, client, rfl, htaken, -, -, heq⟩
  · cases i with
    | registerClient username =>
      rcases registerClient_cases s username with ⟨htaken, -⟩ | ⟨-, clients, client, -, -, heq⟩
      · exact hi (.inl htaken)
      · have := hedits.next
        rw [step, heq] at this
        exact absurd this (Nat.succ_ne_self _)
    | event | removeClient | reconnect =>
      obtain ⟨hclients, hasks⟩ := not_or.mp hi
      have hmoved := mt (next_step_eq_iff _).mp hasks
      have := hedits.users.next_le
      rw [hedits.next] at happart
      omega
  · rw [heq] at happart
    obtain ⟨-, hclients⟩ := not_or.mp hi
    obtain ⟨hclients, husers⟩ := not_or.mp hclients
    have : s.nextMumbleSession + 1 ≤ UserMap.proxyBase ∨ s.users.next ≤ UserMap.proxyBase := happart
    omega

theorem proxyBase_le_step {i : BridgeStep} (h : UserMap.proxyBase ≤ s.users.next) :
    UserMap.proxyBase ≤ (s.step i).users.next := by
  rcases step_cases s i with hedits | ⟨_, clients, _, -, -, -, -, heq⟩
  · exact h.trans hedits.users.next_le
  · rwa [heq]

theorem run_prefix_fits {pre steps : List BridgeStep} (h : (run steps).Fits) (hp : pre <+: steps) :
    (run pre).Fits := by
  obtain ⟨post, rfl⟩ := hp
  exact fits_run_of_append h

/-- **The ids of a run are pairwise distinct exactly while its sessions stay apart.** The counters
must fit their type at the end of the run. -/
theorem idsDistinct_run_iff (steps : List BridgeStep) (hfit : (run steps).Fits) :
    (∀ pre, pre <+: steps → (run pre).IdsDistinct) ↔ Always step StaysApart new steps := by
  constructor
  · intro h
    refine Always.of_invariant (I := fun s => s.IdsDistinct ∧ UserMap.proxyBase ≤ s.users.next)
      (fun s i hI hi hI' => not_apart_step hi hI.2 hI'.1) fun pre hp => ⟨h pre hp, ?_⟩
    exact List.foldlRecOn (motive := fun s => UserMap.proxyBase ≤ s.users.next) pre step (b := new)
      le_rfl fun s hs i _ => proxyBase_le_step hs
  · intro h pre hp
    have hfit := run_prefix_fits hfit hp
    have hI := h.invariant_all (I := fun s => s.Fits → s.IdsKept ∧
        (s.nextMumbleSession ≤ UserMap.proxyBase ∨ s.users.next ≤ UserMap.proxyBase))
      (fun s i hi hs hf => ⟨idsKept_step hf (hs (fits_of_step hf)).1,
        apart_step hi (hs (fits_of_step hf)).2⟩) (fun _ => ⟨idsKept_new, .inl (by decide)⟩) hp
    exact idsDistinct_of_apart hfit (hI hfit).1 (hI hfit).2

/-- A Rumble user joins. -/
def bobJoins : BridgeStep :=
  .event (.rumbleEnvelope (.stateUpdate (some (.userJoined (some
    { userId := some 7
      username := "bob"
      currentRoom := none
      isMuted := false
      isDeafened := false
      serverMuted := false
      isElevated := false
      groups := []
      label := none })))))

/-- A client and a Rumble user. -/
def sampleSteps : List BridgeStep := [.registerClient "alice", bobJoins]

theorem idsDistinct_run_sample : (run sampleSteps).Fits ∧
    ((∀ pre, pre <+: sampleSteps → (run pre).IdsDistinct) ↔
      Always step StaysApart new sampleSteps) :=
  ⟨⟨by decide, by decide, by decide⟩, idsDistinct_run_iff sampleSteps
    ⟨by decide, by decide, by decide⟩⟩

/-- One client that registers again and again. -/
def registrations (n : Nat) : List BridgeStep := List.replicate n (.registerClient "alice")

theorem run_registrations (n : Nat) : ∃ clients, run (registrations n) =
    { new with nextMumbleSession := clientBase + n, mumbleClients := clients } := by
  induction n with
  | zero => exact ⟨∅, rfl⟩
  | succ n ih =>
    obtain ⟨clients, ih⟩ := ih
    have hrun : run (registrations (n + 1)) =
        (run (registrations n)).step (.registerClient "alice") := by
      unfold registrations run
      rw [List.replicate_succ', List.foldl_append]
      rfl
    rw [hrun, ih]
    rcases registerClient_cases { new with
      nextMumbleSession := clientBase + n
      mumbleClients := clients } "alice" with ⟨htaken, -⟩ | ⟨-, clients', client, -, -, heq⟩
    · cases htaken
    · exact ⟨_, heq⟩

theorem run_registrations_join (n : Nat) :
    (run (registrations n ++ [bobJoins])).channels.next = 1 ∧
    (run (registrations n ++ [bobJoins])).users.next = UserMap.proxyBase + 1 ∧
    (run (registrations n ++ [bobJoins])).nextMumbleSession = clientBase + n := by
  obtain ⟨clients, hrun⟩ := run_registrations n
  have hstep : run (registrations n ++ [bobJoins]) = (run (registrations n)).step bobJoins := by
    rw [run, List.foldl_append]
    rfl
  rw [hstep, hrun]
  exact ⟨rfl, rfl, rfl⟩

/-- **A client session can equal a proxy session**: a client that registers 99001 times has session
100000 in the end, and so has the first Rumble user. -/
theorem idsDistinct_fails : ¬ ∀ steps : List BridgeStep, (run steps).Fits →
    (run steps).IdsDistinct := by
  intro h
  obtain ⟨hchannels, husers, hclients⟩ := run_registrations_join 99001
  have hfit : (run (registrations 99001 ++ [bobJoins])).Fits := by
    constructor
    · rw [hchannels]; decide
    · rw [husers]; decide
    · rw [hclients]; decide
  have happart := apart_of_nodup (h _ hfit).handedOut
  rw [husers, hclients] at happart
  exact absurd happart (by decide)

end BridgeState

end Rumble.Bridge
