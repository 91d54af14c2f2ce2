import Rumble.Server.Footprint

/-!
# What a teardown removes

`cleanupClient` removes one client with its session, and participants when it is a controller;
`evictSupersededSessions` does so for exactly the live connections a fresh login supersedes. Other
clients keep their entry and their session.
-/

namespace Rumble.Server

open Rumble.Lib World

/-! ## One client -/

theorem getClient_iff {s : ServerState} {u : UserId} :
    s.getClient u = true ↔ s.members.get u = some .client := beq_iff_eq

theorem mem_snapshotClients {s : ServerState} {u : UserId} :
    u ∈ s.snapshotClients ↔ s.getClient u = true := by
  unfold ServerState.snapshotClients
  rw [getClient_iff, List.mem_map]
  constructor
  · rintro ⟨⟨v, m⟩, hv, rfl⟩
    obtain ⟨hv, hm⟩ := List.mem_filter.mp hv
    obtain rfl : m = .client := beq_iff_eq.mp hm
    exact Table.mem_toPairs.mp hv
  · intro h
    exact ⟨(u, .client), List.mem_filter.mpr ⟨Table.mem_toPairs.mpr h, beq_self_eq_true _⟩, rfl⟩

theorem mem_membersByOwner {s : ServerState} {owner : OwnerId} {u : UserId} :
    u ∈ s.membersByOwner owner ↔ ∃ i, s.members.get u = some (.owned owner i) := by
  unfold ServerState.membersByOwner
  constructor
  · intro h
    obtain ⟨⟨v, m⟩, hmem, rfl⟩ := List.mem_map.mp h
    obtain ⟨hv, hm⟩ := List.mem_filter.mp hmem
    cases m with
    | client => exact Bool.noConfusion hm
    | owned o i =>
      have ho : o = owner := beq_iff_eq.mp hm
      exact ⟨i, ho ▸ Table.mem_toPairs.mp hv⟩
  · rintro ⟨i, hi⟩
    exact List.mem_map.mpr ⟨(u, .owned owner i),
      List.mem_filter.mpr ⟨Table.mem_toPairs.mpr hi, beq_self_eq_true owner⟩, rfl⟩

theorem members_cleanupParticipant (w : World) (u v : UserId) :
    (w.cleanupParticipant u).state.members.get v =
      if v = u then none else w.state.members.get v := by
  unfold cleanupParticipant
  split
  · exact Table.get_del _ _ _
  · rename_i h
    split
    · subst v
      exact Option.not_isSome_iff_eq_none.mp h
    · rfl

theorem members_foldl_cleanupParticipant (l : List UserId) (v : UserId) :
    ∀ w : World, (l.foldl cleanupParticipant w).state.members.get v =
      if v ∈ l then none else w.state.members.get v := by
  induction l with
  | nil => exact fun w => (if_neg List.not_mem_nil).symm
  | cons u l ih =>
    intro w
    rw [List.foldl_cons, ih, members_cleanupParticipant]
    by_cases h1 : v = u <;> by_cases h2 : v ∈ l <;> simp [h1, h2]

/-- Participants go, clients stay. -/
theorem getClient_cleanupParticipants (w : World) (u v : UserId) (b : Bool) :
    (w.cleanupParticipants u b).state.getClient v = w.state.getClient v := by
  unfold cleanupParticipants
  split
  · unfold ServerState.getClient
    rw [members_foldl_cleanupParticipant]
    split
    · rename_i hv
      obtain ⟨i, hi⟩ := mem_membersByOwner.mp hv
      rw [hi]
      rfl
    · rfl
  · rfl

theorem sessions_cleanupParticipants (w : World) (u : UserId) (b : Bool) :
    (w.cleanupParticipants u b).state.sessions = w.state.sessions ∧
      (w.cleanupParticipants u b).state.sessionsById = w.state.sessionsById := by
  have key : ∀ (w : World) (v : UserId), (w.cleanupParticipant v).state.sessions = w.state.sessions ∧
      (w.cleanupParticipant v).state.sessionsById = w.state.sessionsById := by
    intro w v
    unfold cleanupParticipant
    split <;> exact ⟨rfl, rfl⟩
  unfold cleanupParticipants
  split
  · refine List.foldlRecOn (motive := fun w' : World => w'.state.sessions = w.state.sessions ∧
      w'.state.sessionsById = w.state.sessionsById) _ cleanupParticipant ⟨rfl, rfl⟩ ?_
    intro w' h v _
    exact ⟨(key w' v).1.trans h.1, (key w' v).2.trans h.2⟩
  · exact ⟨rfl, rfl⟩

/-- Up to the log, a cleanup forgets the client after its participants. -/
theorem cleanupClient_state (w : World) (u : UserId) : (w.cleanupClient u).state =
    (w.cleanupParticipants u (w.state.handle (primary u)).isController).state.forgetClient u := by
  unfold cleanupClient
  dsimp only
  split <;> rfl

theorem getClient_cleanupClient (w : World) (u v : UserId) :
    (w.cleanupClient u).state.getClient v = (v != u && w.state.getClient v) := by
  rw [cleanupClient_state, ← getClient_cleanupParticipants w u v
    (w.state.handle (primary u)).isController]
  unfold ServerState.getClient
  rw [ServerState.members_forgetClient, Table.get_del]
  by_cases h : v = u
  · rw [if_pos h, bne_eq_false_iff_eq.mpr h]
    rfl
  · rw [if_neg h, bne_iff_ne.mpr h, Bool.true_and]

theorem get_sessions_cleanupClient (w : World) (u v : UserId) :
    (w.cleanupClient u).state.sessions.get v = if v = u then none else w.state.sessions.get v := by
  rw [cleanupClient_state, ServerState.get_sessions_forgetClient,
    (sessions_cleanupParticipants w u _).1]

/-! ## Superseded sessions -/

/-- The connection `old` gives way to a login of `new` under this display name. -/
def ServerState.yields (s : ServerState) (username : String) (new old : UserId) : Bool :=
  old != new && s.getClient old && (s.conn old).identity.displayName == username &&
    !(s.handle (primary old)).tornDown

/-- It also has a session with the key of the login, so the login evicts it. -/
def ServerState.superseded (s : ServerState) (key : PublicKey) (username : String)
    (new old : UserId) : Bool :=
  s.getUserPublicKey old == some key && s.yields username new old

theorem mem_userIdsWithKey {s : ServerState} {key : PublicKey} {u : UserId} :
    u ∈ s.userIdsWithKey key ↔ s.getUserPublicKey u = some key := by
  unfold ServerState.userIdsWithKey ServerState.getUserPublicKey
  rw [Option.map_eq_some_iff]
  constructor
  · intro h
    obtain ⟨⟨v, e⟩, hv, rfl⟩ := List.mem_map.mp h
    obtain ⟨hv, he⟩ := List.mem_filter.mp hv
    exact ⟨e, Table.mem_toPairs.mp hv, beq_iff_eq.mp he⟩
  · rintro ⟨e, he, rfl⟩
    exact List.mem_map.mpr ⟨(u, e), List.mem_filter.mpr ⟨Table.mem_toPairs.mpr he, beq_self_eq_true _⟩, rfl⟩

section Evict

variable {w : World} {username : String} {new old : UserId}

/-- A candidate that does not yield is left alone. -/
theorem evictOne_eq_self (h : w.state.yields username new old = false) :
    w.evictOne username new old = w := by
  unfold evictOne beginTeardown
  unfold ServerState.yields at h
  split
  · rfl
  split
  · rfl
  split
  · rfl
  have hdown : (w.state.handle (primary old)).tornDown = true := by simp_all
  rw [if_pos hdown]
  rfl

/-- One that yields is torn down, closed and cleaned up. -/
theorem evictOne_eq (h : w.state.yields username new old = true) :
    w.evictOne username new old =
      ((((w.mapState (·.setHandle (primary old) fun c => { c with tornDown := true })).sendFrame
        (primary old) (.userKicked old "Superseded by a new login with the same identity"
          "server")).closeConn old).cleanupClient old) := by
  unfold ServerState.yields at h
  simp only [Bool.and_eq_true, bne_iff_ne, beq_iff_eq, Bool.not_eq_true'] at h
  obtain ⟨⟨⟨h1, h2⟩, h3⟩, h4⟩ := h
  unfold evictOne beginTeardown
  simp [h1, h2, h3, h4]

theorem getClient_evictOne (v : UserId) : (w.evictOne username new old).state.getClient v =
    (w.state.getClient v && !(v == old && w.state.yields username new old)) := by
  cases h : w.state.yields username new old with
  | false => rw [evictOne_eq_self h, Bool.and_false, Bool.not_false, Bool.and_true]
  | true =>
    rw [evictOne_eq h, getClient_cleanupClient, Bool.and_true, Bool.and_comm]
    rfl

theorem get_sessions_evictOne (v : UserId) : (w.evictOne username new old).state.sessions.get v =
    if v = old ∧ w.state.yields username new old = true then none
    else w.state.sessions.get v := by
  cases h : w.state.yields username new old with
  | false =>
    rw [evictOne_eq_self h, if_neg (fun hv => Bool.noConfusion hv.2)]
  | true =>
    rw [evictOne_eq h, get_sessions_cleanupClient]
    simp only [and_true]
    rfl

/-- Evicting one candidate does not change whether another yields. -/
theorem yields_evictOne (v : UserId) : (w.evictOne username new old).state.yields username new v =
    (w.state.yields username new v && v != old) := by
  cases h : w.state.yields username new old with
  | false =>
    rw [evictOne_eq_self h]
    by_cases hv : v = old
    · rw [hv, h, Bool.false_and]
    · rw [bne_iff_ne.mpr hv, Bool.and_true]
  | true =>
    have hid : ((w.evictOne username new old).state.conn v).identity = (w.state.conn v).identity :=
      congrFun ((touches_evictOne username new w old) .identity (by decide)) v
    by_cases hv : v = old
    · subst v
      unfold ServerState.yields
      rw [getClient_evictOne, h]
      simp
    · have hne : primary v ≠ primary old := fun e => hv (congrArg HandleId.user e)
      have hdown : ((w.evictOne username new old).state.handle (primary v)).tornDown =
          (w.state.handle (primary v)).tornDown := by
        rw [evictOne_eq h]
        refine (congrFun ((touches_cleanupClient _ old) .tornDown (by decide)) (primary v)).trans ?_
        exact congrArg ClientHandle.tornDown (Function.update_of_ne hne _ _)
      unfold ServerState.yields
      rw [getClient_evictOne, hid, hdown, beq_eq_false_iff_ne.mpr hv, bne_iff_ne.mpr hv]
      simp

theorem getClient_foldl_evictOne (v : UserId) (l : List UserId) : ∀ w : World,
    (l.foldl (evictOne username new) w).state.getClient v =
      (w.state.getClient v && !(l.contains v && w.state.yields username new v)) := by
  induction l with
  | nil => simp
  | cons old l ih =>
    intro w
    rw [List.foldl_cons, ih, getClient_evictOne, yields_evictOne, List.contains_cons]
    by_cases hv : v = old
    · subst v
      cases w.state.yields username new old <;> simp
    · rw [beq_eq_false_iff_ne.mpr hv, bne_iff_ne.mpr hv]
      simp

theorem get_sessions_foldl_evictOne (v : UserId) (l : List UserId) : ∀ w : World,
    (l.foldl (evictOne username new) w).state.sessions.get v =
      if v ∈ l ∧ w.state.yields username new v = true then none else w.state.sessions.get v := by
  induction l with
  | nil => simp
  | cons old l ih =>
    intro w
    rw [List.foldl_cons, ih, get_sessions_evictOne, yields_evictOne]
    by_cases hv : v = old
    · subst v
      cases w.state.yields username new old <;> simp
    · rw [bne_iff_ne.mpr hv]
      simp [hv]

end Evict

theorem superseded_iff {s : ServerState} {key : PublicKey} {username : String} {new old : UserId} :
    s.superseded key username new old = true ↔
      old ∈ s.userIdsWithKey key ∧ s.yields username new old = true := by
  unfold ServerState.superseded
  rw [Bool.and_eq_true, beq_iff_eq, mem_userIdsWithKey]

/-- **A login removes the clients it supersedes, and no others.** -/
theorem getClient_evictSupersededSessions (w : World) (key : PublicKey) (username : String)
    (new v : UserId) : (w.evictSupersededSessions key username new).state.getClient v =
      (w.state.getClient v && !w.state.superseded key username new v) := by
  have hs : w.state.superseded key username new v =
      ((w.state.userIdsWithKey key).contains v && w.state.yields username new v) := by
    rw [Bool.eq_iff_iff, superseded_iff, Bool.and_eq_true, List.contains_iff_mem]
  rw [hs]
  exact getClient_foldl_evictOne v _ w

/-- Their sessions go with them. -/
theorem get_sessions_evictSupersededSessions (w : World) (key : PublicKey) (username : String)
    (new v : UserId) : (w.evictSupersededSessions key username new).state.sessions.get v =
      if w.state.superseded key username new v = true then none else w.state.sessions.get v := by
  refine (get_sessions_foldl_evictOne v _ w).trans (if_congr ?_ rfl rfl)
  exact superseded_iff.symm

end Rumble.Server
