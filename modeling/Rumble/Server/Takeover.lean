import Rumble.Lib.Transition
import Rumble.Server.ProvenKeys
import Rumble.Server.Schedule
import Rumble.Server.Sessions

/-!
# One session per identity

A login scans for live sessions with its key and display name, evicts them, and only then publishes
its own session. Two logins that both scan before either publishes do not see each other.
`one_session_per_identity` says that this, and a connection that takes over another name while it
has a session, are the only ways to get two sessions with one identity: when the logins of one
identity take turns between scan and publication, there is at most one.
-/

namespace Rumble.Server

open Rumble.Lib Rumble.Lib.Transition World

/-! ## Claims to an identity -/

/-- A live client that no teardown has claimed. -/
def ServerState.present (s : ServerState) (u : UserId) : Bool :=
  s.getClient u && !(s.handle (primary u)).tornDown

/-- Two authenticated clients, neither of them evicted, with one key and one display name. -/
def ServerState.Rivals (s : ServerState) (u v : UserId) : Prop :=
  u ≠ v ∧ s.present u = true ∧ s.present v = true ∧
    (s.conn u).authenticated = true ∧ (s.conn v).authenticated = true ∧
    (∃ key, s.getUserPublicKey u = some key ∧ s.getUserPublicKey v = some key) ∧
    (s.conn u).identity.displayName = (s.conn v).identity.displayName

/-- A login of the connection with this key is between its scan and its publication. -/
def Sys.scanned (s : Sys) (u : UserId) (key : PublicKey) : Bool :=
  s.tasks.any fun
    | .auth sender pending _ .evicted => sender.user == u && pending.publicKey == key
    | _ => false

/-- The connection is present under the name, with a session of the key or about to publish one. -/
def Sys.claims (s : Sys) (u : UserId) (key : PublicKey) (name : String) : Bool :=
  s.world.state.present u && s.world.displayNameOf u == name &&
    (s.world.state.getUserPublicKey u == some key || s.scanned u key)

/-- The connection of an authentication in progress. -/
def Task.authUser : Task → Option UserId
  | .auth sender .. => some sender.user
  | _ => none

/-- At most one connection claims an identity, and what the tasks know is up to date. -/
structure OneClaimant (s : Sys) : Prop where
  unique : ∀ u v key name, s.claims u key name = true → s.claims v key name = true → u = v
  /-- The authentications of one connection do not overlap. -/
  single : (s.tasks.filterMap Task.authUser).Nodup
  named : ∀ sender p session name, Task.auth sender p session (.marked name) ∈ s.tasks →
    s.world.displayNameOf sender.user = name
  keyed : ∀ sender p session stage, Task.auth sender p session stage ∈ s.tasks →
    session.userPublicKey = p.publicKey
  /-- Connections with a session or a handshake have an id that was assigned. -/
  assigned : ∀ u, s.world.state.nextUserId ≤ u → s.world.state.sessions.get u = none ∧
    (s.world.state.conn u).opened = false ∧ u ∉ s.tasks.filterMap Task.authUser

theorem scanned_iff {s : Sys} {u : UserId} {key : PublicKey} : s.scanned u key = true ↔
    ∃ sender p session, Task.auth sender p session .evicted ∈ s.tasks ∧ sender.user = u ∧
      p.publicKey = key := by
  unfold Sys.scanned
  rw [List.any_eq_true]
  constructor
  · rintro ⟨task, hmem, htask⟩
    split at htask
    · rename_i sender p session
      rw [Bool.and_eq_true, beq_iff_eq, beq_iff_eq] at htask
      exact ⟨sender, p, session, hmem, htask⟩
    · exact Bool.noConfusion htask
  · rintro ⟨sender, p, session, hmem, hu, hk⟩
    exact ⟨_, hmem, by simp [hu, hk]⟩

theorem claims_iff {s : Sys} {u : UserId} {key : PublicKey} {name : String} :
    s.claims u key name = true ↔ s.world.state.present u = true ∧
      s.world.displayNameOf u = name ∧
        (s.world.state.getUserPublicKey u = some key ∨ s.scanned u key = true) := by
  unfold Sys.claims
  rw [Bool.and_eq_true, Bool.and_eq_true, Bool.or_eq_true, beq_iff_eq, beq_iff_eq, and_assoc]

theorem OneClaimant.not_rivals {s : Sys} (h : OneClaimant s) (u v : UserId) :
    ¬ s.world.state.Rivals u v := by
  rintro ⟨hne, hu, hv, -, -, ⟨key, hku, hkv⟩, hname⟩
  exact hne (h.unique u v key _ (claims_iff.mpr ⟨hu, rfl, .inl hku⟩)
    (claims_iff.mpr ⟨hv, hname.symm, .inl hkv⟩))

/-- **The logins of an identity take turns.** An authentication starts when no other of its
connection is in progress; it scans when no other present connection is between scan and
publication with this key and name; and it does not rename a connection that has a session to a
name claimed by another connection with the key of that session. -/
def OrderlyLogins (cfg : Config) (s : Sys) (m : Env × Move) : Prop :=
  match m.2 with
  | .event (.envelope sender (.authenticate signature timestampMs cert)) =>
    (authCheck cfg m.1 sender signature timestampMs cert s.world).1.isSome = true →
      s.authOn sender.user = false
  | .resume i =>
    match s.tasks[i]? with
    | some (.auth sender p _ .checked) =>
      s.world.state.present sender.user = true →
        ∀ key ∈ s.world.state.getUserPublicKey sender.user,
          ∀ v ∈ s.world.state.snapshotClients, v ≠ sender.user →
            s.claims v key (s.world.loginName p) = false
    | some (.auth sender p _ (.marked name)) =>
      s.world.state.present sender.user = true →
        ∀ v ∈ s.world.state.snapshotClients, v ≠ sender.user → s.world.state.present v = true →
          s.world.displayNameOf v = name → s.scanned v p.publicKey = false
    | _ => True
  | _ => True

/-! ## The tasks after a move -/

section Tasks

variable {s : Sys} {i : Nat} {task : Task} {r : Option Task}

theorem authUser_resume (hi : s.tasks[i]? = some task)
    (hrest : ∀ t ∈ r, t.authUser = task.authUser) :
    ((s.tasks.take i ++ r.toList ++ s.tasks.drop (i + 1)).filterMap Task.authUser).Sublist
      (s.tasks.filterMap Task.authUser) := by
  obtain ⟨hlt, rfl⟩ := List.getElem?_eq_some_iff.mp hi
  have hl : s.tasks = s.tasks.take i ++ [s.tasks[i]] ++ s.tasks.drop (i + 1) := by
    rw [List.append_assoc, List.singleton_append, ← List.drop_eq_getElem_cons hlt,
      List.take_append_drop]
  conv_rhs => rw [hl]
  simp only [List.filterMap_append]
  refine List.Sublist.append (List.Sublist.append (List.Sublist.refl _) ?_) (List.Sublist.refl _)
  cases r with
  | none => exact List.nil_sublist _
  | some t =>
    have hr : t.authUser = s.tasks[i].authUser := hrest t rfl
    simp [List.filterMap_cons, hr]

/-- With one authentication per connection, the other tasks are not of the resumed one's. -/
theorem authUser_others (h : (s.tasks.filterMap Task.authUser).Nodup)
    (hi : s.tasks[i]? = some task) {u : UserId} (hu : task.authUser = some u) {t : Task}
    (ht : t ∈ s.tasks.take i ++ s.tasks.drop (i + 1)) : t.authUser ≠ some u := by
  obtain ⟨hlt, rfl⟩ := List.getElem?_eq_some_iff.mp hi
  have hperm : s.tasks.Perm (s.tasks[i] :: (s.tasks.take i ++ s.tasks.drop (i + 1))) := by
    conv_lhs => rw [← List.take_append_drop i s.tasks, List.drop_eq_getElem_cons hlt]
    exact List.perm_middle
  have hnd := (hperm.filterMap Task.authUser).nodup_iff.mp h
  rw [List.filterMap_cons_some hu, List.nodup_cons] at hnd
  exact fun htu => hnd.1 (List.mem_filterMap.mpr ⟨t, ht, htu⟩)

/-- A task of the list after a resumption is what is left of the resumed one, or another. -/
theorem mem_resumed {t : Task} : t ∈ s.tasks.take i ++ r.toList ++ s.tasks.drop (i + 1) ↔
    t ∈ r ∨ t ∈ s.tasks.take i ++ s.tasks.drop (i + 1) := by
  simp only [List.mem_append, Option.mem_toList]
  tauto

end Tasks

/-! ## Steps -/

section Steps

variable {cfg : Config} {env : Env} {s s' : Sys}

theorem present_of_fades {w w' : World} (hf : Fades w w') {u : UserId}
    (hu : w'.state.present u = true) : w.state.present u = true := by
  unfold ServerState.present at hu ⊢
  rw [Bool.and_eq_true, Bool.not_eq_true'] at hu ⊢
  refine ⟨hf.client u hu.1, Bool.eq_false_iff.mpr fun hd => ?_⟩
  exact Bool.false_ne_true (hu.2.symm.trans (hf.down u hd))

theorem Touches.present {S : List Field} {w w' : World} (ht : Touches S w w')
    (hS : ∀ f ∈ [Field.members, .tornDown], f ∉ S) (u : UserId) :
    w'.state.present u = w.state.present u := by
  have hm : w'.state.members = w.state.members := ht .members (hS _ (by decide))
  have hd : (w'.state.handle (primary u)).tornDown = (w.state.handle (primary u)).tornDown :=
    congrFun (ht .tornDown (hS _ (by decide))) (primary u)
  unfold ServerState.present ServerState.getClient
  rw [hm, hd]

/-- When identities fade and no login is added to those between scan and publication, no claim is
added. -/
theorem claims_of_fades (hf : Fades s.world s'.world)
    (hs : ∀ u key, s'.scanned u key = true → s.scanned u key = true) {u : UserId} {key : PublicKey}
    {name : String} (h : s'.claims u key name = true) : s.claims u key name = true := by
  obtain ⟨hp, hn, hk⟩ := claims_iff.mp h
  refine claims_iff.mpr ⟨present_of_fades hf hp, (hf.name u).symm.trans hn, ?_⟩
  exact hk.imp hf.getUserPublicKey (hs u key)

/-- The ids that are not assigned yet. -/
theorem assigned_of {s s' : Sys} (h : OneClaimant s)
    (hnext : s.world.state.nextUserId ≤ s'.world.state.nextUserId)
    (hsess : ∀ u, s.world.state.nextUserId ≤ u → s.world.state.sessions.get u = none →
      s'.world.state.sessions.get u = none)
    (hopen : ∀ u, (s'.world.state.conn u).opened = (s.world.state.conn u).opened)
    (hsub : ∀ u, u ∈ s'.tasks.filterMap Task.authUser → u ∈ s.tasks.filterMap Task.authUser) :
    ∀ u, s'.world.state.nextUserId ≤ u → s'.world.state.sessions.get u = none ∧
      (s'.world.state.conn u).opened = false ∧ u ∉ s'.tasks.filterMap Task.authUser := by
  intro u hu
  obtain ⟨h1, h2, h3⟩ := h.assigned u (hnext.trans hu)
  exact ⟨hsess u (hnext.trans hu) h1, (hopen u).trans h2, fun hm => h3 (hsub u hm)⟩

theorem OneClaimant.fade (h : OneClaimant s) (hf : Fades s.world s'.world)
    (htasks : ∀ t ∈ s'.tasks, t.authUser.isSome = true → t ∈ s.tasks)
    (hsub : (s'.tasks.filterMap Task.authUser).Sublist (s.tasks.filterMap Task.authUser))
    (hnext : s.world.state.nextUserId ≤ s'.world.state.nextUserId)
    (hopen : ∀ u, (s'.world.state.conn u).opened = (s.world.state.conn u).opened) :
    OneClaimant s' where
  unique := by
    have hscan : ∀ u key, s'.scanned u key = true → s.scanned u key = true := by
      intro u key hu
      obtain ⟨sender, p, session, hm, hu⟩ := scanned_iff.mp hu
      exact scanned_iff.mpr ⟨sender, p, session, htasks _ hm rfl, hu⟩
    exact fun u v key name hu hv => h.unique u v key name (claims_of_fades hf hscan hu)
      (claims_of_fades hf hscan hv)
  single := h.single.sublist hsub
  named := fun sender p session name hm =>
    (hf.name sender.user).trans (h.named sender p session name (htasks _ hm rfl))
  keyed := fun sender p session stage hm => h.keyed sender p session stage (htasks _ hm rfl)
  assigned := assigned_of h hnext (fun u _ hnone => Option.eq_none_iff_forall_ne_some.mpr
    fun e he => Option.some_ne_none e ((hf.session u e he).symm.trans hnone)) hopen
    fun _ hu => hsub.subset hu

/-- A change of the world alone. -/
theorem OneClaimant.world {S : List Field} (h : OneClaimant s) (htasks : s'.tasks = s.tasks)
    (hf : Fades s.world s'.world) (ht : Touches S s.world s'.world)
    (hS : ∀ f ∈ [Field.opened, .nextUserId], f ∉ S) : OneClaimant s' := by
  have hnext : s'.world.state.nextUserId = s.world.state.nextUserId :=
    ht .nextUserId (hS _ (by decide))
  refine h.fade hf (fun t hm _ => htasks ▸ hm) ?_ hnext.ge
    fun u => congrFun (ht .opened (hS _ (by decide))) u
  rw [htasks]

theorem oneClaimant_hello {sender : HandleId} {username : String} {publicKey : List UInt8}
    {password : Option String} (h : OneClaimant s) :
    OneClaimant (s.step cfg (env, .hello sender username publicKey password)) := by
  rcases helloCheck_cases cfg env sender username publicKey password s.world with
    ⟨key, -, -, hc⟩ | ⟨error, hc⟩
  · simp only [Sys.step, hc]
    have ht : Touches [.pendingAuth] s.world (s.world.issueNonce env sender username key) := by
      intro f hf
      cases f <;> first | rfl | exact absurd (by decide) hf
    refine h.fade (ht.fades (by decide)) (fun t hm hu => ?_) ?_ le_rfl fun _ => rfl
    · rcases List.mem_append.mp hm with hm | hm
      · exact hm
      · rw [List.mem_singleton.mp hm] at hu
        exact Bool.noConfusion hu
    · rw [List.filterMap_append]
      exact (List.append_nil _).symm ▸ List.Sublist.refl _
  · simp only [Sys.step, hc]
    have ht : Touches [.log, .closed] s.world (s.world.sendAuthFailed sender error) :=
      .sendAuthFailed .refl _ _
    exact h.world rfl (ht.fades (by decide)) ht (by decide)

theorem oneClaimant_authenticate {sender : HandleId} {signature : List UInt8} {timestampMs : Int}
    {cert : Option SessionCertificate} (h : OneClaimant s)
    (hopen : (s.world.state.conn sender.user).opened = true)
    (hidle : (authCheck cfg env sender signature timestampMs cert s.world).1.isSome = true →
      s.authOn sender.user = false) :
    OneClaimant (s.step cfg (env, .authenticate sender signature timestampMs cert)) := by
  rcases authCheck_cases cfg env sender signature timestampMs cert s.world with
    ⟨pending, session, -, -, -, hkey, hc⟩ | ⟨w', error, hw', hc⟩
  · rw [hc] at hidle
    have hnone : sender.user ∉ s.tasks.filterMap Task.authUser := by
      intro hm
      obtain ⟨t, ht, hu⟩ := List.mem_filterMap.mp hm
      cases t with
      | auth sender' p session' stage =>
        refine Bool.false_ne_true ((hidle rfl).symm.trans (authOn_iff.mpr ?_))
        exact ⟨sender', p, session', stage, ht, Option.some.inj hu⟩
      | _ => cases hu
    have ht := touches_checked s.world sender pending.publicKey env.nowSecs
    have hf : Fades s.world (s.world.checked sender pending.publicKey env.nowSecs) :=
      ht.fades (by decide)
    have hmem : ∀ {t}, t ∈ s.tasks ++ [.auth sender pending session .checked] →
        t ∈ s.tasks ∨ t = .auth sender pending session .checked :=
      fun hm => (List.mem_append.mp hm).imp id List.mem_singleton.mp
    simp only [Sys.step, hc]
    refine ⟨fun u v key name hu hv => ?_, ?_, fun t p session' name hm => ?_,
      fun t p session' stage hm => ?_, fun u hu => ?_⟩
    · have hscan : ∀ u key, Sys.scanned (Sys.mk (s.world.checked sender pending.publicKey env.nowSecs)
          (s.tasks ++ [.auth sender pending session .checked]) s.issued
          (s.proven ++ (s.world.newProof cfg env sender signature timestampMs).toList)
          (s.accepted ++ [(sender.user, pending.nonce)])) u key = true → s.scanned u key = true := by
        intro u key hu
        obtain ⟨t, p, session', hm, hu⟩ := scanned_iff.mp hu
        rcases hmem hm with hm | hm
        · exact scanned_iff.mpr ⟨t, p, session', hm, hu⟩
        · cases hm
      exact h.unique u v key name (claims_of_fades hf hscan hu) (claims_of_fades hf hscan hv)
    · rw [List.filterMap_append]
      exact List.nodup_append.mpr ⟨h.single, List.nodup_singleton _, fun a ha b hb hab =>
        hnone (List.mem_singleton.mp hb ▸ hab ▸ ha)⟩
    · rcases hmem hm with hm | hm
      · exact (hf.name t.user).trans (h.named t p session' name hm)
      · cases hm
    · rcases hmem hm with hm | hm
      · exact h.keyed t p session' stage hm
      · obtain ⟨-, rfl, rfl, -⟩ := Task.auth.inj hm
        exact hkey
    · obtain ⟨h1, h2, h3⟩ := h.assigned u hu
      refine ⟨h1, h2, fun hm => ?_⟩
      rw [List.filterMap_append] at hm
      rcases List.mem_append.mp hm with hm | hm
      · exact h3 hm
      · rw [List.mem_singleton.mp hm] at h2
        exact Bool.false_ne_true (h2.symm.trans hopen)
  · have hw : Fades s.world w' ∧ Touches [.pendingAuth, .userGroups, .bans] s.world w' := by
      rcases hw' with ⟨rfl, -⟩ | rfl | ⟨pending, -, rfl⟩
      · exact ⟨.refl, .refl⟩
      · have ht := touches_take s.world sender.user
        exact ⟨ht.fades (by decide), ht.mono (by decide)⟩
      · have ht := touches_checked s.world sender pending.publicKey env.nowSecs
        exact ⟨ht.fades (by decide), ht⟩
    have ht : Touches [.log, .closed] w' (w'.sendAuthFailed sender error) :=
      .sendAuthFailed .refl _ _
    simp only [Sys.step, hc]
    exact h.world (S := [.pendingAuth, .userGroups, .bans, .log, .closed]) rfl
      (hw.1.trans (ht.fades (by decide))) ((hw.2.mono (by decide)).trans (ht.mono (by decide)))
      (by decide)

/-! ### Resumed authentications -/

section Resume

variable {i : Nat} {sender : HandleId} {p : PendingAuth} {session : SessionEntry}

/-- The system after the resumed authentication moved to its next stage. -/
abbrev Sys.advance (s : Sys) (i : Nat) (w' : World) (task : Task) : Sys :=
  { s with world := w', tasks := s.tasks.take i ++ [task] ++ s.tasks.drop (i + 1) }

theorem scanned_advance {stage stage' : Stage} {w' : World} (h : OneClaimant s)
    (hi : s.tasks[i]? = some (.auth sender p session stage)) {u : UserId} {key : PublicKey}
    (hu : (s.advance i w' (.auth sender p session stage')).scanned u key = true) :
    u ≠ sender.user ∧ s.scanned u key = true ∨
      u = sender.user ∧ stage' = .evicted ∧ key = p.publicKey := by
  obtain ⟨t, p', session', hm, rfl, rfl⟩ := scanned_iff.mp hu
  rcases (mem_resumed (r := some _)).mp hm with hm | hm
  · obtain ⟨rfl, rfl, -, rfl⟩ := Task.auth.inj (Option.some.inj hm)
    exact .inr ⟨rfl, rfl, rfl⟩
  · refine .inl ⟨fun he => ?_, scanned_iff.mpr ⟨t, p', session', ?_, rfl, rfl⟩⟩
    · exact authUser_others h.single hi rfl hm (congrArg some he)
    · exact (mem_resume hi).mpr (.inr hm)

/-- What the steps of a publication have in common. -/
theorem oneClaimant_advance {stage stage' : Stage} {w' : World} (h : OneClaimant s)
    (hi : s.tasks[i]? = some (.auth sender p session stage))
    (hunique : ∀ u v key name,
      (s.advance i w' (.auth sender p session stage')).claims u key name = true →
      (s.advance i w' (.auth sender p session stage')).claims v key name = true → u = v)
    (hnamed : ∀ name, stage' = .marked name → w'.displayNameOf sender.user = name)
    (hothers : ∀ u, u ≠ sender.user → w'.displayNameOf u = s.world.displayNameOf u)
    (hnext : w'.state.nextUserId = s.world.state.nextUserId)
    (hsess : ∀ u, u ≠ sender.user → s.world.state.sessions.get u = none →
      w'.state.sessions.get u = none)
    (hopen : ∀ u, (w'.state.conn u).opened = (s.world.state.conn u).opened) :
    OneClaimant (s.advance i w' (.auth sender p session stage')) := by
  have hmem : Task.auth sender p session stage ∈ s.tasks := (mem_resume hi).mpr (.inl rfl)
  have hsub := authUser_resume (r := some (.auth sender p session stage')) hi
    fun r hr => by rw [← Option.some.inj hr]; rfl
  refine ⟨hunique, h.single.sublist hsub, fun t p' session' name hm => ?_,
    fun t p' session' stage'' hm => ?_, assigned_of h hnext.ge (fun u hu hnone => ?_) hopen
      fun u hu => hsub.subset hu⟩
  · rcases (mem_resumed (r := some _)).mp hm with hm | hm
    · obtain ⟨rfl, -, -, hstage⟩ := Task.auth.inj (Option.some.inj hm)
      exact hnamed name hstage
    · have hne : t.user ≠ sender.user := fun he =>
        authUser_others h.single hi rfl hm (congrArg some he)
      exact (hothers _ hne).trans (h.named t p' session' name ((mem_resume hi).mpr (.inr hm)))
  · rcases (mem_resumed (r := some _)).mp hm with hm | hm
    · obtain ⟨rfl, rfl, rfl, -⟩ := Task.auth.inj (Option.some.inj hm)
      exact h.keyed _ _ _ _ hmem
    · exact h.keyed t p' session' stage'' ((mem_resume hi).mpr (.inr hm))
  · refine hsess u (fun he => ?_) hnone
    exact (h.assigned u hu).2.2 (List.mem_filterMap.mpr ⟨_, hmem, congrArg some he.symm⟩)

/-- The connection is marked and takes its login name. -/
theorem oneClaimant_mark (h : OneClaimant s)
    (hi : s.tasks[i]? = some (.auth sender p session .checked))
    (hfree : s.world.state.present sender.user = true →
      ∀ key ∈ s.world.state.getUserPublicKey sender.user,
        ∀ v ∈ s.world.state.snapshotClients, v ≠ sender.user →
          s.claims v key (s.world.loginName p) = false) :
    OneClaimant (s.advance i (s.world.markAuthenticated env sender p) (.auth sender p session
      (.marked ((s.world.markAuthenticated env sender p).displayNameOf sender.user)))) := by
  have ht := touches_markAuthenticated s.world env sender p
  have hpresent : ∀ u, (s.world.markAuthenticated env sender p).state.present u =
      s.world.state.present u := ht.present (by decide)
  have hkey : ∀ u, (s.world.markAuthenticated env sender p).state.getUserPublicKey u =
      s.world.state.getUserPublicKey u := fun u =>
    congrArg (fun t => (Table.get (Prod.fst t) u).map SessionEntry.userPublicKey)
      (ht .sessions (by decide))
  have hother : ∀ u, u ≠ sender.user → (s.world.markAuthenticated env sender p).displayNameOf u =
      s.world.displayNameOf u := fun u hu =>
    congrArg Identity.displayName (identity_markAuthenticated_of_ne hu)
  -- A claim of another connection is as it was; the marked one claims its session's key only.
  have hclaims : ∀ u key name, (s.advance i (s.world.markAuthenticated env sender p)
      (.auth sender p session (.marked
        ((s.world.markAuthenticated env sender p).displayNameOf sender.user)))).claims u key name =
          true →
      u ≠ sender.user ∧ s.claims u key name = true ∨ u = sender.user ∧
        s.world.state.present u = true ∧ s.world.loginName p = name ∧
          s.world.state.getUserPublicKey u = some key := by
    intro u key name hu
    obtain ⟨hp, hn, hk⟩ := claims_iff.mp hu
    by_cases hus : u = sender.user
    · refine .inr ⟨hus, (hpresent u).symm.trans hp, ?_, ?_⟩
      · rw [← hn, hus]
        exact displayNameOf_markAuthenticated.symm
      · rcases hk with hk | hk
        · exact (hkey u).symm.trans hk
        · rcases scanned_advance h hi hk with ⟨hne, -⟩ | ⟨-, hstage, -⟩
          · exact absurd hus hne
          · cases hstage
    · refine .inl ⟨hus, claims_iff.mpr ⟨(hpresent u).symm.trans hp, (hother u hus).symm.trans hn, ?_⟩⟩
      rcases hk with hk | hk
      · exact .inl ((hkey u).symm.trans hk)
      · rcases scanned_advance h hi hk with ⟨-, hk⟩ | ⟨he, -, -⟩
        · exact .inr hk
        · exact absurd he hus
  have hclash : ∀ v key name, s.claims v key name = true → v ≠ sender.user →
      s.world.state.present sender.user = true → s.world.loginName p = name →
        s.world.state.getUserPublicKey sender.user = some key → False := by
    rintro v key name hv hne hp rfl hk
    have hclient : v ∈ s.world.state.snapshotClients :=
      mem_snapshotClients.mpr (Bool.and_eq_true_iff.mp (claims_iff.mp hv).1).1
    exact Bool.false_ne_true ((hfree hp key hk v hclient hne).symm.trans hv)
  refine oneClaimant_advance h hi (fun u v key name hu hv => ?_) (fun name hname => ?_) hother
    (ht .nextUserId (by decide)) (fun u _ hnone => ?_) fun u => congrFun (ht .opened (by decide)) u
  · rcases hclaims u key name hu with ⟨hus, hu⟩ | ⟨rfl, hup, hun, huk⟩ <;>
      rcases hclaims v key name hv with ⟨hvs, hv⟩ | ⟨rfl, hvp, hvn, hvk⟩
    · exact h.unique u v key name hu hv
    · exact (hclash u key name hu hus hvp hvn hvk).elim
    · exact (hclash v key name hv hvs hup hun huk).elim
    · rfl
  · exact Stage.marked.inj hname
  · have hs := (Prod.mk.inj (ht .sessions (by decide) : (_, _) = (s.world.state.sessions, _))).1
    exact (congrArg (Table.get · u) hs).trans hnone

/-- The scan removes every other claim to the identity. -/
theorem oneClaimant_evict {name : String} (h : OneClaimant s)
    (hi : s.tasks[i]? = some (.auth sender p session (.marked name)))
    (hfree : s.world.state.present sender.user = true →
      ∀ v ∈ s.world.state.snapshotClients, v ≠ sender.user → s.world.state.present v = true →
        s.world.displayNameOf v = name → s.scanned v p.publicKey = false) :
    OneClaimant (s.advance i (s.world.evictSupersededSessions p.publicKey name sender.user)
      (.auth sender p session .evicted)) := by
  have hmem : Task.auth sender p session (.marked name) ∈ s.tasks := (mem_resume hi).mpr (.inl rfl)
  have hname := h.named sender p session name hmem
  have ht := touches_evictSupersededSessions s.world p.publicKey name sender.user
  have hf : Fades s.world (s.world.evictSupersededSessions p.publicKey name sender.user) :=
    fades_evictSupersededSessions ..
  -- A claim was there before, or it is the new one, to the identity of the login.
  have hclaims : ∀ u key n, (s.advance i
      (s.world.evictSupersededSessions p.publicKey name sender.user)
      (.auth sender p session .evicted)).claims u key n = true →
      s.claims u key n = true ∨ u = sender.user ∧ key = p.publicKey ∧ n = name := by
    intro u key n hu
    obtain ⟨hp, hn, hk⟩ := claims_iff.mp hu
    have hn' : s.world.displayNameOf u = n := (hf.name u).symm.trans hn
    rcases hk with hk | hk
    · exact .inl (claims_iff.mpr ⟨present_of_fades hf hp, hn', .inl (hf.getUserPublicKey hk)⟩)
    · rcases scanned_advance h hi hk with ⟨-, hk⟩ | ⟨rfl, -, rfl⟩
      · exact .inl (claims_iff.mpr ⟨present_of_fades hf hp, hn', .inr hk⟩)
      · exact .inr ⟨rfl, rfl, hn'.symm.trans hname⟩
  -- Nobody else is left with a claim to it.
  have hclash : ∀ v, (s.advance i (s.world.evictSupersededSessions p.publicKey name sender.user)
      (.auth sender p session .evicted)).claims v p.publicKey name = true →
      (s.world.evictSupersededSessions p.publicKey name sender.user).state.present sender.user =
        true → v = sender.user := by
    intro v hv hpu
    by_contra hne
    obtain ⟨hp, hn, hk⟩ := claims_iff.mp hv
    have hn' : s.world.displayNameOf v = name := (hf.name v).symm.trans hn
    have hp' := present_of_fades hf hp
    rcases hk with hk | hk
    · have hsup : s.world.state.superseded p.publicKey name sender.user v = true := by
        obtain ⟨hc, hd⟩ := Bool.and_eq_true_iff.mp hp'
        have hn'' : (s.world.state.conn v).identity.displayName = name := hn'
        have hd' : (s.world.state.handle (primary v)).tornDown = false := by simpa using hd
        simp [ServerState.superseded, ServerState.yields, hf.getUserPublicKey hk, hne, hc, hn'', hd']
      have hnone := get_sessions_evictSupersededSessions s.world p.publicKey name sender.user v
      rw [if_pos hsup] at hnone
      have hk : (Table.get (s.world.evictSupersededSessions p.publicKey name
        sender.user).state.sessions v).map SessionEntry.userPublicKey = some p.publicKey := hk
      rw [hnone] at hk
      cases hk
    · rcases scanned_advance h hi hk with ⟨-, hk⟩ | ⟨he, -, -⟩
      · have hclient := mem_snapshotClients.mpr (Bool.and_eq_true_iff.mp hp').1
        exact Bool.false_ne_true ((hfree (present_of_fades hf hpu) v hclient hne hp' hn').symm.trans
          hk)
      · exact hne he
  refine oneClaimant_advance h hi (fun u v key n hu hv => ?_) (fun n hn => by cases hn)
    (fun u _ => hf.name u) (ht .nextUserId (by decide)) (fun u _ hnone => ?_)
    fun u => congrFun (ht .opened (by decide)) u
  · have hpu := (claims_iff.mp hu).1
    have hpv := (claims_iff.mp hv).1
    rcases hclaims u key n hu with hu' | ⟨rfl, rfl, rfl⟩
    · rcases hclaims v key n hv with hv' | ⟨rfl, rfl, rfl⟩
      · exact h.unique u v key n hu' hv'
      · exact hclash u hu hpv
    · exact (hclash v hv hpu).symm
  · exact Option.eq_none_iff_forall_ne_some.mpr fun e he =>
      Option.some_ne_none e ((hf.session u e he).symm.trans hnone)

/-- The publication turns the claim of the scan into a session. -/
theorem oneClaimant_publish (h : OneClaimant s)
    (hi : s.tasks[i]? = some (.auth sender p session .evicted)) :
    OneClaimant (s.advance i (s.world.mapState (·.addSession sender.user session))
      (.auth sender p session .tracked)) := by
  have hmem : Task.auth sender p session .evicted ∈ s.tasks := (mem_resume hi).mpr (.inl rfl)
  have hkey := h.keyed sender p session _ hmem
  have hclaims : ∀ u key n, (s.advance i (s.world.mapState (·.addSession sender.user session))
      (.auth sender p session .tracked)).claims u key n = true → s.claims u key n = true := by
    intro u key n hu
    obtain ⟨hp, hn, hk⟩ := claims_iff.mp hu
    refine claims_iff.mpr ⟨hp, hn, ?_⟩
    rcases hk with hk | hk
    · have hk : ((s.world.state.sessions.set sender.user session).get u).map
        SessionEntry.userPublicKey = some key := hk
      rw [Table.get_set] at hk
      split at hk
      · rename_i hus
        refine .inr (scanned_iff.mpr ⟨sender, p, session, hmem, hus.symm, ?_⟩)
        exact hkey.symm.trans (Option.some.inj hk)
      · exact .inl hk
    · rcases scanned_advance h hi hk with ⟨-, hk⟩ | ⟨-, hstage, -⟩
      · exact .inr hk
      · cases hstage
  refine oneClaimant_advance h hi (fun u v key n hu hv => h.unique u v key n (hclaims u key n hu)
    (hclaims v key n hv)) (fun n hn => by cases hn) (fun _ _ => rfl) rfl (fun u hu hnone => ?_)
    fun _ => rfl
  exact (Table.get_set_ne hu).trans hnone

end Resume

theorem oneClaimant_resume {i : Nat} (h : OneClaimant s)
    (ho : OrderlyLogins cfg s (env, .resume i)) :
    OneClaimant (s.step cfg (env, .resume i)) := by
  unfold OrderlyLogins at ho
  dsimp only at ho
  cases hi : s.tasks[i]? with
  | none => simpa only [Sys.step, hi] using h
  | some task =>
    rw [hi] at ho
    -- A task that ends, with a world whose identities fade.
    have hend : ∀ (S : List Field) (w' : World), Fades s.world w' → Touches S s.world w' →
        (∀ f ∈ [Field.opened, .nextUserId], f ∉ S) → OneClaimant { s with
          world := w', tasks := s.tasks.take i ++ [] ++ s.tasks.drop (i + 1) } := by
      intro S w' hf ht hS
      have hnext : w'.state.nextUserId = s.world.state.nextUserId := ht .nextUserId (hS _ (by decide))
      refine h.fade hf (fun t hm _ => (mem_resume hi).mpr (.inr ?_))
        (authUser_resume (r := none) hi fun r hr => by cases hr) hnext.ge
        fun u => congrFun (ht .opened (hS _ (by decide))) u
      rwa [List.append_nil] at hm
    simp only [Sys.step, hi]
    cases task with
    | hello t key nonce =>
      have ht := touches_storeHelloKey s.world t key nonce
      exact hend _ _ (ht.fades (by decide)) ht (by decide)
    | ban target d reason actor =>
      refine hend _ _ ?_ (touches_banDisconnect s.world target d reason actor) (by decide)
      exact ((fades_sendFrame _ _).trans (fades_closeConn target)).trans (fades_cleanupClient target)
    | auth t p session stage =>
      cases stage with
      | checked => exact oneClaimant_mark h hi ho
      | marked name => exact oneClaimant_evict h hi ho
      | evicted => exact oneClaimant_publish h hi
      | tracked =>
        have ht := touches_enterServer cfg s.world t p.publicKey
        exact hend _ _ (ht.fades (by decide)) ht (by decide)

/-- A new connection has no session and no handshake yet. -/
theorem oneClaimant_connect (h : OneClaimant s) :
    OneClaimant { s with world := s.world.handleConnect } := by
  have hnew := h.assigned s.world.state.nextUserId le_rfl
  have hname : ∀ u, s.world.handleConnect.displayNameOf u = s.world.displayNameOf u := fun u =>
    congrArg Identity.displayName (congrFun (touches_handleConnect s.world .identity (by decide)) u)
  have hclaims : ∀ u key name, Sys.claims { s with world := s.world.handleConnect } u key name =
      true → s.claims u key name = true := by
    intro u key name hu
    obtain ⟨hp, hn, hk⟩ := claims_iff.mp hu
    have hne : u ≠ s.world.state.nextUserId := by
      rintro rfl
      rcases hk with hk | hk
      · have hk : (s.world.state.sessions.get s.world.state.nextUserId).map _ = some key := hk
        rw [hnew.1] at hk
        cases hk
      · obtain ⟨t, p, session, hm, hu, -⟩ := scanned_iff.mp hk
        exact hnew.2.2 (List.mem_filterMap.mpr ⟨_, hm, congrArg some hu⟩)
    refine claims_iff.mpr ⟨?_, (hname u).symm.trans hn, hk⟩
    unfold ServerState.present at hp ⊢
    have hc : s.world.handleConnect.state.getClient u = s.world.state.getClient u :=
      congrArg (· == some Member.client) (Table.get_set_ne hne)
    rw [← hc]
    exact hp
  refine ⟨fun u v key name hu hv => h.unique u v key name (hclaims u key name hu)
    (hclaims v key name hv), h.single, fun t p session name hm => (hname _).trans
      (h.named t p session name hm), h.keyed, fun u hu => ?_⟩
  have hu : s.world.state.nextUserId < u := hu
  obtain ⟨h1, h2, h3⟩ := h.assigned u hu.le
  refine ⟨h1, ?_, h3⟩
  show (Function.update s.world.state.conn s.world.state.nextUserId _ u).opened = false
  rw [Function.update_of_ne hu.ne']
  exact h2

theorem oneClaimant_event {e : Event} (h : OneClaimant s) (hh : e.isHandshake = false) :
    OneClaimant { s with world := Server.step cfg env s.world e } := by
  by_cases hc : e = .connect
  · subst e
    exact oneClaimant_connect h
  · refine h.fade (fades_step hc hh) (fun _ ht _ => ht) (List.Sublist.refl _)
      nextUserId_step (opened_step hc)

/-- **One move** of orderly logins keeps the claims unique. -/
theorem oneClaimant_move {m : Env × Move} (h : OneClaimant s) (ho : OrderlyLogins cfg s m) :
    OneClaimant (s.move cfg m) := by
  unfold Sys.move
  split
  · split
    · exact oneClaimant_hello h
    · exact h
  · split
    · rename_i hopen
      exact oneClaimant_authenticate h hopen ho
    · exact h
  · rename_i hhello hauth
    refine oneClaimant_event h ?_
    unfold Event.isHandshake
    split
    · exact (hhello _ _ _ _ rfl).elim
    · exact (hauth _ _ _ _ rfl).elim
    · rfl
  · exact oneClaimant_resume h ho

end Steps

/-! ## Runs -/

theorem oneClaimant_init (store : Persistence) : OneClaimant (Sys.init (World.init store)) where
  unique := fun u v key name hu _ => by
    have hp := (claims_iff.mp hu).1
    simp [Sys.init, World.init, ServerState.present, ServerState.getClient, ServerState.new] at hp
  single := List.nodup_nil
  named := fun _ _ _ _ hm => absurd hm List.not_mem_nil
  keyed := fun _ _ _ _ hm => absurd hm List.not_mem_nil
  assigned := fun u _ => ⟨Table.get_empty u, rfl, List.not_mem_nil⟩

/-- **At most one live session per identity.** In every state of a run in which the logins of an
identity take turns, no two authenticated clients that were not evicted have the same key and the
same display name. -/
theorem one_session_per_identity {cfg : Config} {store : Persistence} {moves : List (Env × Move)}
    (h : Always (Sys.move cfg) (OrderlyLogins cfg) (Sys.init (World.init store)) moves)
    {pre : List (Env × Move)} (hp : pre <+: moves) (u v : UserId) :
    ¬ (pre.foldl (Sys.move cfg) (Sys.init (World.init store))).world.state.Rivals u v :=
  (h.invariant_all (fun _ _ ho hs => oneClaimant_move hs ho) (oneClaimant_init store)
    hp).not_rivals u v

instance (cfg : Config) (s : Sys) (m : Env × Move) : Decidable (OrderlyLogins cfg s m) := by
  unfold OrderlyLogins
  split
  · exact inferInstanceAs (Decidable (_ → _))
  · split <;> first | exact inferInstanceAs (Decidable (_ → _)) | exact isTrue trivial
  · exact isTrue trivial

/-- Connect and run both halves of a hello. -/
def sampleHelloMoves (userId : UserId) (key : PublicKey) (name : String) : List (Env × Move) :=
  [(sampleEnv, .event .connect),
    (sampleEnv, .event (.envelope (primary userId) (.clientHello name key.data none))),
    (sampleEnv, .resume 0)]

/-- The first half of an authentication. -/
def sampleAuthMove (userId : UserId) : Env × Move :=
  (sampleEnv, .event (.envelope (primary userId) (.authenticate (List.replicate 64 0) 0
    (some sampleCert))))

/-- Two logins with one identity, one after the other. -/
def sampleTurns : List (Env × Move) :=
  sampleHelloMoves 1 (Bytes.rep 32 9) "eve" ++ [sampleAuthMove 1] ++
    List.replicate 4 (sampleEnv, .resume 0) ++
    sampleHelloMoves 2 (Bytes.rep 32 9) "eve" ++ [sampleAuthMove 2] ++
    List.replicate 4 (sampleEnv, .resume 0)

theorem one_session_after_turns :
    ¬ (sampleTurns.foldl (Sys.move sampleConfig)
      (Sys.init (World.init sampleStore))).world.state.Rivals 1 2 :=
  one_session_per_identity (by decide +kernel) (List.prefix_refl sampleTurns) 1 2

/-- Both logins scan, then both publish. -/
def sampleRace : List (Env × Move) :=
  sampleHelloMoves 1 (Bytes.rep 32 9) "eve" ++ sampleHelloMoves 2 (Bytes.rep 32 9) "eve" ++
    [sampleAuthMove 1, sampleAuthMove 2] ++
    List.flatten (List.replicate 4 [(sampleEnv, .resume 0), (sampleEnv, .resume 1)])

theorem two_sessions_after_race :
    (sampleRace.foldl (Sys.move sampleConfig)
      (Sys.init (World.init sampleStore))).world.state.Rivals 1 2 := by
  refine ⟨by decide, by decide +kernel, by decide +kernel, by decide +kernel, by decide +kernel,
    ⟨Bytes.rep 32 9, by decide +kernel, by decide +kernel⟩, by decide +kernel⟩

end Rumble.Server
