import Rumble.Server.AlikeRuns
import Rumble.Server.VoiceRouting

/-!
# Names of anonymous members

A controller may name a participant after a group or after a registered user. Permissions are
evaluated on the assigned groups and the verified username of an identity, and what a participant
is assigned does not depend on its name either. So a name gives nothing (`anonymous_permissions`).
-/

namespace Rumble.Server

open Rumble.Lib

open World (Alike)

/-! ## Permissions -/

namespace ServerState

/-- The permissions of the member `u` in a room, under the groups and ACLs of `p`. -/
def permissionsOf (s : ServerState) (p : Persistence) (u : UserId) (room : Uuid) :
    Option Permissions :=
  (s.getMember u).map fun member => evaluateMemberPermissions s p u member room

/-- The member `u` has no verified username; `groups` are assigned to it. -/
def Anonymous (s : ServerState) (u : UserId) (groups : List String) : Prop :=
  ∃ member, s.getMember u = some member ∧
    (s.memberIdentity u member).verifiedUsername = none ∧
    (s.memberIdentity u member).groups = groups

/-- The state in which the member `u` has another display name. -/
def rename (s : ServerState) (u : UserId) (name : String) : ServerState :=
  match s.getMember u with
  | some (.owned owner i) => s.registerParticipant u owner { i with displayName := name }
  | _ => s.setIdentity u fun i => { i with displayName := name }

variable (s : ServerState) (p : Persistence) (u : UserId) (room : Uuid) {groups : List String}

theorem permissionsOf_nameless :
    s.nameless.permissionsOf p u room = s.permissionsOf p u room := by
  unfold permissionsOf
  rw [getMember_nameless, Option.map_map]
  congr 1
  funext member
  cases member with
  | client => rfl
  | owned owner i => rfl

theorem anonymous_nameless : s.nameless.Anonymous u groups ↔ s.Anonymous u groups := by
  have hidentity : ∀ member : Member,
      (s.nameless.memberIdentity u member.nameless).verifiedUsername =
        (s.memberIdentity u member).verifiedUsername ∧
      (s.nameless.memberIdentity u member.nameless).groups =
        (s.memberIdentity u member).groups := by
    intro member
    cases member with
    | client => exact ⟨rfl, rfl⟩
    | owned owner i => exact ⟨rfl, rfl⟩
  unfold Anonymous
  rw [getMember_nameless]
  constructor
  · rintro ⟨member', hmember', hverified, hgroups⟩
    obtain ⟨member, hmember, rfl⟩ := Option.map_eq_some_iff.mp hmember'
    rw [(hidentity member).1] at hverified
    rw [(hidentity member).2] at hgroups
    exact ⟨member, hmember, hverified, hgroups⟩
  · rintro ⟨member, hmember, hverified, hgroups⟩
    refine ⟨member.nameless, by rw [hmember]; rfl, ?_, ?_⟩
    · rw [(hidentity member).1, hverified]
    · rw [(hidentity member).2, hgroups]

/-- The evaluation never reads the name. -/
theorem permissionsOf_rename (name : String) :
    (s.rename u name).permissionsOf p u room = s.permissionsOf p u room := by
  unfold permissionsOf rename
  cases hmember : s.getMember u with
  | none =>
    have hrenamed : (s.setIdentity u fun i => { i with displayName := name }).getMember u =
        none := hmember
    rw [hrenamed]
    rfl
  | some member =>
    cases member with
    | client =>
      have hrenamed : (s.setIdentity u fun i => { i with displayName := name }).getMember u =
          some .client := hmember
      have hidentity : (s.setIdentity u fun i => { i with displayName := name }).memberIdentity u
          .client = { s.memberIdentity u .client with displayName := name } := by
        simp [memberIdentity, setIdentity, setConn]
      rw [hrenamed, Option.map_some, Option.map_some]
      unfold evaluateMemberPermissions
      rw [hidentity]
      rfl
    | owned owner i =>
      have hrenamed : (s.registerParticipant u owner { i with displayName := name }).getMember u =
          some (.owned owner { i with displayName := name }) := Table.get_set_self _ _ _
      rw [hrenamed]
      rfl

/-- Without a verified username, the assigned groups and "default" are all that is matched. -/
theorem permissionsOf_anonymous (h : s.Anonymous u groups) :
    ∃ isSuperuser, s.permissionsOf p u room =
      some (effectivePermissions (userGroupList groups none) p.groupPerms
        (buildRoomChainOwned s.data.rooms p room) isSuperuser) := by
  obtain ⟨member, hmember, hverified, rfl⟩ := h
  refine ⟨s.memberIsSuperuser u member, ?_⟩
  unfold permissionsOf evaluateMemberPermissions evaluateIdentityPermissions
  rw [hmember, Option.map_some, hverified]

end ServerState

/-- **Names of anonymous members give nothing.** Take any run, and the same run with other names in
its registrations. A member without a verified username is one in both; whatever the groups and
ACLs, it has the same permissions in both and under any name it is given, and only its assigned
groups are matched. -/
theorem anonymous_permissions (cfg : Config) (store : Persistence) {inputs inputs' : List Input}
    (hinputs : List.Forall₂ Renamed inputs inputs') {u : UserId} {groups : List String}
    (hanonymous : (run cfg (World.boot store) inputs).state.Anonymous u groups) :
    let w := run cfg (World.boot store) inputs
    let w' := run cfg (World.boot store) inputs'
    w'.store = w.store ∧ w'.state.Anonymous u groups ∧ ∀ (p : Persistence) (room : Uuid),
      w'.state.permissionsOf p u room = w.state.permissionsOf p u room ∧
      (∀ name name', (w.state.rename u name).permissionsOf p u room =
        (w.state.rename u name').permissionsOf p u room) ∧
      ∃ isSuperuser, w.state.permissionsOf p u room =
        some (effectivePermissions (userGroupList groups none) p.groupPerms
          (buildRoomChainOwned w.state.data.rooms p room) isSuperuser) := by
  have halike : Alike (run cfg (World.boot store) inputs) (run cfg (World.boot store) inputs') :=
    alike_run hinputs (.refl _)
  refine ⟨halike.store, ?_, fun p room => ⟨?_, fun name name' => ?_, ?_⟩⟩
  · rw [halike.read (·.Anonymous u groups) fun s => propext (s.anonymous_nameless u)]
    exact hanonymous
  · exact halike.read (·.permissionsOf p u room) fun s => s.permissionsOf_nameless p u room
  · rw [ServerState.permissionsOf_rename, ServerState.permissionsOf_rename]
  · exact ServerState.permissionsOf_anonymous _ p u room hanonymous

/-- A bridge registers a participant while bob is a registered user. -/
def sampleNamed (name : String) : List Input :=
  sampleVoices ++
    [sampleMsg 1 (.registerUser (some 2)), sampleMsg 3 (.registerParticipant name none)]

/-- Called bob like the registered user or admin like the group, the participant is allowed the
same. -/
theorem anonymous_permissions_named :
    let w := run sampleConfig (World.boot sampleAdminStore) (sampleNamed "bob")
    let w' := run sampleConfig (World.boot sampleAdminStore) (sampleNamed "admin")
    w.store.isUsernameRegistered "bob" = true ∧ (w.store.getGroup "admin").isSome = true ∧
      w'.state.permissionsOf w.store 5 rootRoomUuid =
        w.state.permissionsOf w.store 5 rootRoomUuid := by
  have hinputs : List.Forall₂ Renamed (sampleNamed "bob") (sampleNamed "admin") :=
    List.rel_append (List.forall₂_same.mpr fun i _ => .same i)
      (.cons (.same _) (.cons (.registration _ _ _ _ _) .nil))
  have hanonymous : (run sampleConfig (World.boot sampleAdminStore)
      (sampleNamed "bob")).state.Anonymous 5 [] :=
    ⟨.owned (.connection 3) ⟨"bob", none, none, []⟩, by decide +kernel, rfl, rfl⟩
  exact ⟨by decide +kernel, by decide +kernel,
    ((anonymous_permissions sampleConfig sampleAdminStore hinputs hanonymous).2.2 _ _).1⟩

end Rumble.Server
