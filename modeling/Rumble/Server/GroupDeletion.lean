import Rumble.Server.GroupCache

/-!
# Group deletion

The name of a group stands in four places: the membership lists, the expiry records, the cached
lists of the connections and those of the participants. `apply_delete_group` scrubs the first three
and leaves the participants alone, so it leaves no trace exactly when no participant has the group
(`deleteGroup_leaves_no_trace_iff`).
-/

namespace Rumble.Server

open Rumble.Lib World

/-- `w'` is `w` with the group gone from every list, and nothing else. -/
structure LeavesNoTrace (name : String) (w w' : World) : Prop where
  lists : ∀ k, name ∉ w'.store.getUserGroups k
  expiries : ∀ k, w'.store.groupExpiries.get (k, name) = none
  cached : ∀ u member, w'.state.getMember u = some member →
    name ∉ (w'.state.memberIdentity u member).groups
  keptRecords : ∀ k g, g ≠ name → w'.store.membership k g = w.store.membership k g
  keptMembers : ∀ u, w'.state.getMember u = w.state.getMember u
  keptCached : ∀ u member g, w.state.getMember u = some member → g ≠ name →
    (g ∈ (w'.state.memberIdentity u member).groups ↔
      g ∈ (w.state.memberIdentity u member).groups)

/-- A participant has the group. -/
def World.ParticipantIn (w : World) (name : String) : Prop :=
  ∃ u owner identity, w.state.getMember u = some (.owned owner identity) ∧ name ∈ identity.groups

instance (w : World) (name : String) : Decidable (w.ParticipantIn name) :=
  decidable_of_iff ((w.state.members.toPairs.any fun e => match e.2 with
      | .owned _ identity => identity.groups.contains name
      | .client => false) = true) (by
    rw [List.any_eq_true]
    constructor
    · rintro ⟨⟨u, member⟩, hmem, hgroup⟩
      cases member with
      | client => exact absurd hgroup Bool.false_ne_true
      | owned owner identity =>
        exact ⟨u, owner, identity, Table.mem_toPairs.mp hmem, List.contains_iff_mem.mp hgroup⟩
    · rintro ⟨u, owner, identity, hu, hgroup⟩
      exact ⟨(u, .owned owner identity), Table.mem_toPairs.mpr hu,
        List.contains_iff_mem.mpr hgroup⟩)

section Scrub

variable {name : String} {w : World}

theorem applyDeleteGroup_eq (hok : builtinGroups.contains name = false) :
    w.applyDeleteGroup name = (.ok ("Deleted group '" ++ name ++ "'"),
      ((w.state.snapshotClients.foldl (scrubGroup name) w).mapStore fun store =>
        (store.removeGroupFromAllUsers name).deleteGroup name).broadcastGroup name 0 false true) := by
  rw [applyDeleteGroup, hok, if_neg Bool.false_ne_true]

theorem accepted_iff : (∃ message, (w.applyDeleteGroup name).1 = .ok message) ↔
    builtinGroups.contains name = false := by
  cases hok : builtinGroups.contains name with
  | true =>
    rw [applyDeleteGroup, hok, if_pos rfl]
    exact iff_of_false (fun ⟨_, h⟩ => nomatch h) Bool.noConfusion
  | false => exact iff_of_true ⟨_, congrArg Prod.fst (applyDeleteGroup_eq hok)⟩ rfl

theorem getMember_applyDeleteGroup (u : UserId) :
    (w.applyDeleteGroup name).2.state.getMember u = w.state.getMember u :=
  congrArg (fun t => Table.get t u) (touches_applyDeleteGroup w name .members (by decide))

/-- A connected client loses the group, a participant keeps its list. -/
theorem groups_applyDeleteGroup (hok : builtinGroups.contains name = false) {u : UserId}
    {member : Member} (hu : w.state.getMember u = some member) :
    ((w.applyDeleteGroup name).2.state.memberIdentity u member).groups =
      match member with
      | .client => (w.state.memberIdentity u member).groups.filter (· ≠ name)
      | .owned _ identity => identity.groups := by
  cases member with
  | owned owner identity => rfl
  | client =>
    have hlive : u ∈ w.state.snapshotClients :=
      mem_snapshotClients.mpr (by rw [ServerState.getClient, ← ServerState.getMember, hu]; rfl)
    rw [applyDeleteGroup_eq hok]
    exact (groups_foldl_scrubGroup _ w).trans (if_pos hlive)

/-- What the records become. -/
theorem membership_applyDeleteGroup (hok : builtinGroups.contains name = false) (k : PublicKey)
    (g : String) : (w.applyDeleteGroup name).2.store.membership k g =
      if g = name ∧ k ∈ w.store.userGroups.toPairs.map Prod.fst then (false, none)
      else w.store.membership k g := by
  have hscrub : Touches [.identity, .log] w (w.state.snapshotClients.foldl (scrubGroup name) w) :=
    .foldl (fun w u => touches_scrubGroup name w u) _
  generalize hscrubbed : w.state.snapshotClients.foldl (scrubGroup name) w = scrubbed at hscrub
  have htrees : (scrubbed.store.userGroups, scrubbed.store.groupExpiries) =
      (w.store.userGroups, w.store.groupExpiries) := hscrub .userGroups (by decide)
  obtain ⟨hgroups, hexpiries⟩ := Prod.mk.inj htrees
  have hrecord : scrubbed.store.membership k g = w.store.membership k g := by
    rw [Persistence.membership, Persistence.getUserGroups, hgroups, hexpiries]
    rfl
  rw [applyDeleteGroup_eq hok, hscrubbed, ← hrecord]
  exact Persistence.membership_removeGroupFromAllUsers.trans (if_congr (by rw [hgroups]) rfl rfl)

/-- On a tidy store no record of the group is left. -/
theorem membership_applyDeleteGroup_self (hok : builtinGroups.contains name = false)
    (h : w.store.Tidy) (k : PublicKey) :
    (w.applyDeleteGroup name).2.store.membership k name = (false, none) := by
  rw [membership_applyDeleteGroup hok]
  split
  · rfl
  · rename_i hkey
    have hnone : w.store.userGroups.get k = none := by
      by_contra hne
      obtain ⟨gs, hgs⟩ := Option.ne_none_iff_exists'.mp hne
      exact hkey ⟨rfl, List.mem_map.mpr ⟨(k, gs), Table.mem_toPairs.mpr hgs, rfl⟩⟩
    have hlist : name ∉ w.store.getUserGroups k := by
      rw [Persistence.getUserGroups, hnone]
      exact List.not_mem_nil
    have hexpiry : w.store.groupExpiries.get (k, name) = none :=
      not_not.mp fun hne => hlist (h.held hne)
    rw [Persistence.membership, hexpiry, decide_eq_false hlist]

/-- **What a deletion leaves**, on a tidy store. -/
theorem leavesNoTrace_iff (hok : builtinGroups.contains name = false) (h : w.store.Tidy) :
    LeavesNoTrace name w (w.applyDeleteGroup name).2 ↔ ¬ w.ParticipantIn name := by
  constructor
  · rintro htrace ⟨u, owner, identity, hu, hmem⟩
    exact htrace.cached u _ ((getMember_applyDeleteGroup u).trans hu) hmem
  · intro hparticipant
    have hself := membership_applyDeleteGroup_self hok h
    refine ⟨fun k => ?_, fun k => congrArg Prod.snd (hself k), fun u member hu => ?_,
      fun k g hg => ?_, getMember_applyDeleteGroup, fun u member g hu hg => ?_⟩
    · exact of_decide_eq_false (congrArg Prod.fst (hself k))
    · rw [getMember_applyDeleteGroup] at hu
      rw [groups_applyDeleteGroup hok hu]
      cases member with
      | client => exact fun hmem => of_decide_eq_true (List.mem_filter.mp hmem).2 rfl
      | owned owner identity => exact fun hmem => hparticipant ⟨u, owner, identity, hu, hmem⟩
    · rw [membership_applyDeleteGroup hok, if_neg fun h => hg h.1]
    · rw [groups_applyDeleteGroup hok hu]
      cases member with
      | client => exact List.mem_filter.trans (and_iff_left (decide_eq_true hg))
      | owned owner identity => exact Iff.rfl

end Scrub

/-- A database with a group for the participants of a bridge. -/
def sampleBridgeStore : Persistence :=
  { sampleAdminStore.createGroup "bridged" Permissions.speak with
    participantDefaults := (∅ : Table PublicKey String).set (Bytes.rep 32 9) "bridged" }

theorem edited_sampleBridgeStore : Persistence.Edited .empty sampleBridgeStore := by
  have hdefaults : Persistence.Edited .empty sampleStore := .frame rfl rfl
  exact (hdefaults.trans (.add sampleStore (Bytes.rep 32 9) "admin" 0)).trans (.frame rfl rfl)

/-- The administrator, and the bridge with a participant. -/
def sampleBridge : List Input :=
  sampleLogin 1 (Bytes.rep 32 9) "ann" ++ sampleLogin 2 (Bytes.rep 32 9) "bridge" ++
    [sampleMsg 2 .controllerHello, sampleMsg 2 (.registerParticipant "bob" none)]

end Rumble.Server
