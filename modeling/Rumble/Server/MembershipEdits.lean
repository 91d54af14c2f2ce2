import Rumble.Server.Memberships
import Rumble.Server.Sessions

/-!
# Edits of the memberships

Memberships and their expiries are two trees. The store writes them by grants and removals only, so
a record of an expiry always has its membership and no key lists a group twice (`Tidy`). On such a
store the lazy expiry of one key and the sweep of all keys leave the same groups (`lazy_eq_eager`).
Whatever the server does to the memberships is such a sequence of edits (`edited_step`).
-/

namespace Rumble.Server

open Rumble.Lib World

namespace Persistence

variable {p q : Persistence} {k pk : PublicKey} {g : String} {now : Nat}

/-! ## Grants and removals -/

/-- `q` comes from `p` by grants and removals of memberships; the other trees are free. -/
inductive Edited : Persistence → Persistence → Prop
  | frame {p q : Persistence} (hgroups : q.userGroups = p.userGroups)
      (hexpiries : q.groupExpiries = p.groupExpiries) : Edited p q
  | add (p : Persistence) (pk : PublicKey) (g : String) (e : Nat) :
      Edited p (p.addUserToGroupWithExpiry pk g e)
  | remove (p : Persistence) (pk : PublicKey) (g : String) : Edited p (p.removeUserFromGroup pk g)
  | trans {p q r : Persistence} (h : Edited p q) (h' : Edited q r) : Edited p r

theorem Edited.refl : Edited p p := .frame rfl rfl

theorem Edited.foldl {β : Type} {f : Persistence → β → Persistence}
    (hf : ∀ p b, Edited p (f p b)) (l : List β) : ∀ p, Edited p (l.foldl f p) := by
  induction l with
  | nil => exact fun p => .refl
  | cons b l ih => exact fun p => (hf p b).trans (ih _)

theorem edited_activeUserGroups (p : Persistence) (pk : PublicKey) (now : Nat) :
    Edited p (p.activeUserGroups pk now).2 := by
  have key : ∀ (gs : List String) (acc : List String × Persistence),
      Edited acc.2 (gs.foldl (activeStep pk now) acc).2 := by
    intro gs
    induction gs with
    | nil => exact fun acc => .refl
    | cons g gs ih =>
      intro acc
      refine Edited.trans ?_ (ih (activeStep pk now acc g))
      unfold activeStep
      dsimp only
      split
      · exact .remove acc.2 pk g
      · exact .refl
  exact key _ ([], p)

theorem edited_removeGroupFromAllUsers (p : Persistence) (g : String) :
    Edited p (p.removeGroupFromAllUsers g) :=
  .foldl (fun p pk => .remove p pk g) _ p

theorem edited_sweepExpiredMemberships (p : Persistence) (now : Nat) :
    Edited p (p.sweepExpiredMemberships now).2 :=
  .foldl (fun p (e : PublicKey × String) => .remove p e.1 e.2) _ p

theorem edited_liftBan (p : Persistence) (pk : PublicKey) : Edited p (p.liftBan pk) :=
  Edited.trans (q := p.removeBan pk) (.frame rfl rfl) (.remove (p.removeBan pk) pk "banned")

theorem edited_sweepExpiredBans (p : Persistence) (now : Nat) :
    Edited p (p.sweepExpiredBans now).2 :=
  .foldl edited_liftBan _ p

theorem edited_banCheck (p : Persistence) (pk : PublicKey) (now : Nat) :
    Edited p (banCheck p pk now).2 := by
  refine Edited.trans ?_ (edited_activeUserGroups (liftExpiredBan p pk now) pk now)
  unfold liftExpiredBan
  split
  · split
    · exact edited_liftBan p pk
    · exact .refl
  · exact .refl

theorem edited_listing (online : List PublicKey) (l : List (PublicKey × RegisteredUser)) :
    ∀ acc : List RegisteredUserInfo × Persistence,
      Edited acc.2 (l.foldl (registeredUserInfo online now) acc).2 := by
  induction l with
  | nil => exact fun acc => .refl
  | cons e l ih =>
    exact fun acc => Edited.trans (q := (registeredUserInfo online now acc e).2)
      (edited_activeUserGroups acc.2 e.1 now) (ih _)

/-! ## Tidy stores -/

/-- No key lists a group twice. -/
def DistinctGroups (p : Persistence) : Prop := ∀ k, (p.getUserGroups k).Nodup

/-- And every expiry belongs to a membership. -/
structure Tidy (p : Persistence) : Prop where
  distinct : p.DistinctGroups
  held : ∀ {k : PublicKey} {g : String}, p.groupExpiries.get (k, g) ≠ none → g ∈ p.getUserGroups k

theorem tidy_empty : empty.Tidy where
  distinct k := by
    have hnone : empty.userGroups.get k = none := Table.get_empty k
    rw [getUserGroups, hnone]
    exact List.nodup_nil
  held h := absurd (Table.get_empty _) h

theorem Tidy.held_iff : (∀ {k : PublicKey} {g : String},
      p.groupExpiries.get (k, g) ≠ none → g ∈ p.getUserGroups k) ↔
    ∀ k g, (p.membership k g).2 ≠ none → (p.membership k g).1 = true :=
  ⟨fun h _ _ he => decide_eq_true (h he), fun h _ _ he => of_decide_eq_true (h _ _ he)⟩

theorem DistinctGroups.addUserToGroup (h : p.DistinctGroups) (pk : PublicKey) (g : String)
    (e : Nat) : (p.addUserToGroupWithExpiry pk g e).DistinctGroups := by
  intro k
  have hgroups : (p.addUserToGroupWithExpiry pk g e).getUserGroups k =
      (p.updateUserGroups pk fun gs => if g ∈ gs then gs else gs ++ [g]).getUserGroups k := by
    unfold addUserToGroupWithExpiry setGroupExpiry
    split <;> rfl
  rw [hgroups]
  unfold getUserGroups updateUserGroups
  dsimp only
  rw [Table.get_set]
  split
  · subst pk
    show (if g ∈ p.getUserGroups k then p.getUserGroups k else p.getUserGroups k ++ [g]).Nodup
    split
    · exact h k
    · rename_i hg
      exact List.nodup_append.mpr ⟨h k, List.nodup_singleton g, fun a ha b hb hab =>
        hg (List.mem_singleton.mp hb ▸ hab ▸ ha)⟩
  · exact h k

theorem DistinctGroups.removeUserFromGroup (h : p.DistinctGroups) (pk : PublicKey) (g : String) :
    (p.removeUserFromGroup pk g).DistinctGroups := by
  intro k
  rw [getUserGroups_removeUserFromGroup]
  split
  · exact (h k).filter _
  · exact h k

theorem DistinctGroups.edited (h : p.DistinctGroups) (he : Edited p q) : q.DistinctGroups := by
  induction he with
  | frame hgroups =>
    intro k
    rw [getUserGroups, hgroups]
    exact h k
  | add p pk g e => exact h.addUserToGroup pk g e
  | remove p pk g => exact h.removeUserFromGroup pk g
  | trans _ _ ih ih' => exact ih' (ih h)

/-- **Edits keep a store tidy.** -/
theorem Tidy.edited (h : p.Tidy) (he : Edited p q) : q.Tidy := by
  refine ⟨h.distinct.edited he, held_iff.mpr ?_⟩
  have hheld := held_iff.mp h.held
  clear h
  induction he with
  | frame hgroups hexpiries =>
    intro k g
    rw [membership, getUserGroups, hgroups, hexpiries]
    exact hheld k g
  | add p pk g e =>
    intro k' g' he
    rw [membership_addUserToGroupWithExpiry] at he ⊢
    split
    · rfl
    · rename_i hne
      rw [if_neg hne] at he
      exact hheld k' g' he
  | remove p pk g =>
    intro k' g' he
    rw [membership_removeUserFromGroup] at he ⊢
    split at he
    · exact absurd rfl he
    · rename_i hne
      rw [if_neg hne]
      exact hheld k' g' he
  | trans _ _ ih ih' => exact ih' (ih hheld)

/-! ## Lazy and eager expiry -/

/-- The lazy loop keeps what is permanent or still to expire. -/
theorem activeUserGroups_eq (h : p.DistinctGroups) (k : PublicKey) (now : Nat) :
    (p.activeUserGroups k now).1 = (p.getUserGroups k).filter fun g =>
      p.getGroupExpiry k g = 0 ∨ now < p.getGroupExpiry k g := by
  have key : ∀ (gs : List String) (acc : List String × Persistence), gs.Nodup →
      (∀ g ∈ gs, acc.2.getGroupExpiry k g = p.getGroupExpiry k g) →
      (gs.foldl (activeStep k now) acc).1 = acc.1 ++ gs.filter fun g =>
        p.getGroupExpiry k g = 0 ∨ now < p.getGroupExpiry k g := by
    intro gs
    induction gs with
    | nil => exact fun acc _ _ => (List.append_nil _).symm
    | cons g gs ih =>
      intro acc hnd hsame
      obtain ⟨hnotin, hnd⟩ := List.nodup_cons.mp hnd
      obtain ⟨hhead, hsame⟩ := List.forall_mem_cons.mp hsame
      rw [List.foldl_cons, activeStep, hhead]
      split
      · rename_i hl
        -- The rest of the list does not see the removal of `g`.
        have hrest : ∀ g' ∈ gs,
            (acc.2.removeUserFromGroup k g).getGroupExpiry k g' = p.getGroupExpiry k g' := by
          intro g' hg'
          have hne : g' ≠ g := fun heq => hnotin (heq ▸ hg')
          refine (getGroupExpiry_of_membership ?_).trans (hsame g' hg')
          rw [membership_removeUserFromGroup, if_neg fun hkg => hne hkg.2]
        rw [ih (acc.1, acc.2.removeUserFromGroup k g) hnd hrest, List.filter_cons_of_neg]
        simp only [decide_eq_true_eq]
        omega
      · rename_i hl
        rw [ih (acc.1 ++ [g], acc.2) hnd hsame, List.filter_cons_of_pos, List.append_assoc]
        · rfl
        · simp only [decide_eq_true_eq]
          omega
  exact (key _ ([], p) (h k) fun _ _ => rfl).trans (List.nil_append _)

/-- The sweep removes what has lapsed. -/
theorem mem_sweepExpiredMemberships_iff :
    (k, g) ∈ (p.sweepExpiredMemberships now).1 ↔ p.Lapsed k g now := by
  unfold sweepExpiredMemberships Lapsed getGroupExpiry
  simp only [List.mem_map, List.mem_filter, decide_eq_true_eq]
  constructor
  · rintro ⟨⟨key, e⟩, ⟨hmem, hlapsed⟩, rfl⟩
    rwa [Table.mem_toPairs.mp hmem]
  · intro hlapsed
    cases hget : p.groupExpiries.get (k, g) with
    | none => exact absurd (congrArg (·.getD 0) hget) hlapsed.1
    | some e =>
      rw [hget] at hlapsed
      exact ⟨((k, g), e), ⟨Table.mem_toPairs.mpr hget, hlapsed⟩, rfl⟩

theorem getUserGroups_foldl_remove (l : List (PublicKey × String)) (p : Persistence) :
    (l.foldl (fun p e => p.removeUserFromGroup e.1 e.2) p).getUserGroups k =
      (p.getUserGroups k).filter fun g => (k, g) ∉ l := by
  induction l generalizing p with
  | nil => simp
  | cons e l ih =>
    rw [List.foldl_cons, ih, getUserGroups_removeUserFromGroup]
    split
    · subst k
      rw [List.filter_filter]
      refine List.filter_congr fun g _ => ?_
      by_cases hg : g = e.2 <;> simp [hg, Prod.ext_iff]
    · rename_i hne
      refine List.filter_congr fun g _ => ?_
      simp [hne, Prod.ext_iff]

theorem getUserGroups_sweepExpiredMemberships (p : Persistence) (k : PublicKey) (now : Nat) :
    (p.sweepExpiredMemberships now).2.getUserGroups k = (p.getUserGroups k).filter fun g =>
      p.getGroupExpiry k g = 0 ∨ now < p.getGroupExpiry k g := by
  refine (getUserGroups_foldl_remove _ p).trans (List.filter_congr fun g _ => ?_)
  refine decide_eq_decide.mpr ((not_congr mem_sweepExpiredMemberships_iff).trans ?_)
  unfold Lapsed
  omega

/-- The writes that reach the memberships, and some that do not. -/
inductive StoreEdit where
  | addUserToGroup (pk : PublicKey) (group : String)
  | addUserToGroupWithExpiry (pk : PublicKey) (group : String) (expiresAt : Nat)
  | removeUserFromGroup (pk : PublicKey) (group : String)
  | removeGroupFromAllUsers (group : String)
  | createGroup (name : String) (permissions : BitVec 32)
  | deleteGroup (name : String)
  | registerUser (pk : PublicKey) (user : RegisteredUser)
  | unregisterUser (pk : PublicKey)
  | activeUserGroups (pk : PublicKey) (nowSecs : Nat)
  | sweepExpiredMemberships (nowSecs : Nat)
  | setBan (pk : PublicKey) (ban : PersistedBan)
  | sweepExpiredBans (nowSecs : Nat)
  deriving DecidableEq

def edit (p : Persistence) : StoreEdit → Persistence
  | .addUserToGroup pk group => p.addUserToGroup pk group
  | .addUserToGroupWithExpiry pk group expiresAt => p.addUserToGroupWithExpiry pk group expiresAt
  | .removeUserFromGroup pk group => p.removeUserFromGroup pk group
  | .removeGroupFromAllUsers group => p.removeGroupFromAllUsers group
  | .createGroup name permissions => p.createGroup name permissions
  | .deleteGroup name => p.deleteGroup name
  | .registerUser pk user => p.registerUser pk user
  | .unregisterUser pk => p.unregisterUser pk
  | .activeUserGroups pk nowSecs => (p.activeUserGroups pk nowSecs).2
  | .sweepExpiredMemberships nowSecs => (p.sweepExpiredMemberships nowSecs).2
  | .setBan pk ban => p.setBan pk ban
  | .sweepExpiredBans nowSecs => (p.sweepExpiredBans nowSecs).2

theorem edited_edit (p : Persistence) (e : StoreEdit) : Edited p (p.edit e) := by
  cases e with
  | addUserToGroup pk group => exact .add p pk group 0
  | addUserToGroupWithExpiry pk group expiresAt => exact .add p pk group expiresAt
  | removeUserFromGroup pk group => exact .remove p pk group
  | removeGroupFromAllUsers group => exact edited_removeGroupFromAllUsers p group
  | activeUserGroups pk nowSecs => exact edited_activeUserGroups p pk nowSecs
  | sweepExpiredMemberships nowSecs => exact edited_sweepExpiredMemberships p nowSecs
  | sweepExpiredBans nowSecs => exact edited_sweepExpiredBans p nowSecs
  | createGroup | deleteGroup | registerUser | unregisterUser | setBan => exact .frame rfl rfl

/-- **Lazy and eager expiry agree**, and no expiry record is left without its membership. -/
theorem lazy_eq_eager (edits : List StoreEdit) (k : PublicKey) (now : Nat) :
    let p := edits.foldl edit empty
    ((p.activeUserGroups k now).1 = (p.getUserGroups k).filter fun g =>
        p.getGroupExpiry k g = 0 ∨ now < p.getGroupExpiry k g) ∧
      (p.activeUserGroups k now).1 = (p.sweepExpiredMemberships now).2.getUserGroups k ∧
      ∀ k' g, p.groupExpiries.get (k', g) ≠ none → g ∈ p.getUserGroups k' := by
  intro p
  have htidy : p.Tidy := tidy_empty.edited (.foldl edited_edit edits empty)
  have hactive := activeUserGroups_eq htidy.distinct k now
  exact ⟨hactive, hactive.trans (getUserGroups_sweepExpiredMemberships p k now).symm,
    fun _ _ => htidy.held⟩

end Persistence

/-! ## Every event is a sequence of edits -/

open Persistence

theorem touches_foldl_mirrorGroup (key : PublicKey) (group : String) (add : Bool) (e : Nat)
    (w : World) (l : List UserId) :
    Touches [.identity, .log] w (l.foldl (mirrorGroup key group add e) w) :=
  .foldl (fun w u => touches_mirrorGroup key group add e w u) l

theorem touches_foldl_mirrorExpired (w : World) (l : List (PublicKey × String)) :
    Touches [.identity, .log] w (l.foldl mirrorExpired w) :=
  .foldl (fun w c => touches_foldl_mirrorGroup c.1 c.2 false 0 w _) l

theorem Touches.edited {S : List Field} {w w' : World} (h : Touches S w w')
    (hS : Field.userGroups ∉ S) : Edited w.store w'.store := by
  have htrees : (w'.store.userGroups, w'.store.groupExpiries) =
      (w.store.userGroups, w.store.groupExpiries) := h .userGroups hS
  exact .frame (Prod.mk.inj htrees).1 (Prod.mk.inj htrees).2

section Steps

variable {cfg : Config} {env : Env} {p : Persistence} {w : World}

theorem edited_replyResult (t : HandleId) (c : String) {r : OpResult} (h : Edited p r.2.store) :
    Edited p (replyResult t c r).store :=
  h.trans ((Touches.replyResult (S := [.log]) t c .refl).edited (by decide))

theorem edited_requirePermission (t : HandleId) (room : Uuid) (required : Permissions)
    {rest : World → World} (h : Edited w.store (rest w).store) :
    Edited w.store (w.requirePermission t room required rest).store := by
  unfold requirePermission
  split
  · exact h
  · exact .frame rfl rfl

theorem edited_manageAcl (t : HandleId) (c : String) {op : World → OpResult}
    (h : Edited w.store (op w).2.store) : Edited w.store (manageAcl t c op w).store :=
  edited_requirePermission _ _ _ (edited_replyResult t c h)

theorem edited_applySetUserGroupByKey (w : World) (key : PublicKey) (group : String) (add : Bool)
    (e : Nat) : Edited w.store (w.applySetUserGroupByKey key group add e).2.store := by
  unfold applySetUserGroupByKey
  split
  · exact .refl
  split
  · exact .refl
  have hedit : Edited w.store (if add then w.store.addUserToGroupWithExpiry key group e
      else w.store.removeUserFromGroup key group) := by
    split
    · exact .add w.store key group e
    · exact .remove w.store key group
  generalize hstored : (w.mapStore fun store => if add then
    store.addUserToGroupWithExpiry key group e else store.removeUserFromGroup key group) = stored
  have hstore : Edited w.store stored.store := hstored ▸ hedit
  exact hstore.trans ((touches_foldl_mirrorGroup key group add e stored _).edited (by decide))

theorem edited_applyDeleteGroup (w : World) (name : String) :
    Edited w.store (w.applyDeleteGroup name).2.store := by
  unfold applyDeleteGroup
  split
  · exact .refl
  have hscrub : Touches [.identity, .log] w (w.state.snapshotClients.foldl (scrubGroup name) w) :=
    .foldl (fun w u => touches_scrubGroup name w u) _
  exact ((hscrub.edited (by decide)).trans (edited_removeGroupFromAllUsers _ name)).trans
    (.frame rfl rfl)

theorem edited_applyBan (w : World) (target : UserId) (d : Nat) (reason actor : String) :
    Edited w.store (w.applyBan env target d reason actor).2.store := by
  have hensure : Edited w.store (ensureBannedGroup w.store) := by
    unfold ensureBannedGroup
    split
    · exact .frame rfl rfl
    · exact .refl
  have hrec : Edited w.store (w.banRecord env target d reason actor).2.store := by
    unfold banRecord
    split
    · exact .refl
    split
    · exact .refl
    split
    · exact .refl
    dsimp only
    split
    · exact hensure
    · exact (hensure.trans (.add _ _ "banned" 0)).trans (.frame rfl rfl)
  rw [applyBan_eq]
  split
  · rename_i he
    rwa [he] at hrec
  · rename_i w' he
    rw [he] at hrec
    exact hrec.trans ((touches_banDisconnect w' target d reason actor).edited (by decide))

theorem edited_handleAuthenticate {sender : HandleId} {signature : List UInt8} {timestampMs : Int}
    {cert : Option SessionCertificate} :
    Edited w.store (handleAuthenticate cfg env sender signature timestampMs cert w).store := by
  have hchecked : ∀ key, Edited w.store (w.checked sender key env.nowSecs).store := fun key =>
    edited_banCheck w.store key env.nowSecs
  rw [handleAuthenticate_eq]
  rcases authCheck_cases cfg env sender signature timestampMs cert w with
    ⟨pending, session, -, -, -, -, hc⟩ | ⟨w', error, hw', hc⟩
  · rw [hc]
    have hknown : Edited w.store
        ((w.checked sender pending.publicKey env.nowSecs).store.addKnownKey pending.publicKey) :=
      (hchecked pending.publicKey).trans (.frame rfl rfl)
    have hmark : Edited w.store ((w.checked sender pending.publicKey env.nowSecs).markAuthenticated
        env sender pending).store :=
      hknown.trans (edited_activeUserGroups _ pending.publicKey env.nowSecs)
    dsimp only
    rw [publishAuth_eq]
    dsimp only
    generalize (w.checked sender pending.publicKey env.nowSecs).markAuthenticated env sender
      pending = marked at hmark ⊢
    generalize marked.displayNameOf sender.user = name
    have hadd : Edited w.store ((marked.evictSupersededSessions pending.publicKey name
        sender.user).mapState (·.addSession sender.user session)).store :=
      hmark.trans ((touches_evictSupersededSessions marked pending.publicKey name
        sender.user).edited (by decide))
    exact hadd.trans ((touches_enterServer cfg _ sender pending.publicKey).edited (by decide))
  · rw [hc]
    rcases hw' with ⟨rfl, -⟩ | rfl | ⟨pending, -, rfl⟩
    · exact .refl
    · exact .refl
    · exact hchecked pending.publicKey

theorem edited_sweepExpired (w : World) : Edited w.store (w.sweepExpired env).store := by
  have hsweeps : Edited w.store
      ((w.store.sweepExpiredBans env.nowSecs).2.sweepExpiredMemberships env.nowSecs).2 :=
    (edited_sweepExpiredBans w.store env.nowSecs).trans (edited_sweepExpiredMemberships _ _)
  exact hsweeps.trans (Touches.edited (w := w.mapStore fun _ => _)
    (touches_foldl_mirrorExpired _ _) (by decide))

theorem edited_handleAuthenticated {t : HandleId} {payload : Payload} :
    Edited w.store (handleAuthenticated cfg env t payload w).store := by
  have ht := touches_handleAuthenticated cfg env t payload w
  unfold handleAuthenticated at ht ⊢
  cases payload
  case banUser target d reason =>
    refine edited_requirePermission _ _ _ ?_
    split
    · exact .refl
    · exact edited_replyResult _ _ (edited_applyBan w _ _ _ _)
  case deleteGroup name => exact edited_manageAcl _ _ (edited_applyDeleteGroup w name)
  case setUserGroup target group add e =>
    refine edited_manageAcl _ _ ?_
    unfold applySetUserGroup
    split
    · exact .refl
    · exact edited_applySetUserGroupByKey w _ _ _ _
  case setRegisteredUserGroup key group add e =>
    refine edited_manageAcl _ _ ?_
    split
    · exact .refl
    · exact edited_applySetUserGroupByKey w _ _ _ _
  case requestRegisteredUsers =>
    exact edited_requirePermission _ _ _ (edited_listing _ _ ([], w.store))
  case authenticate | clientHello =>
    show Edited w.store (handleController env t _ w).store
    unfold handleController
    split
    · exact .refl
    · exact .refl
  all_goals exact ht.edited (by dsimp only [footprint]; decide)

/-- **An event does to the memberships what grants and removals do.** -/
theorem edited_step {i : Input} : Edited w.store (stepInput cfg w i).store := by
  obtain ⟨env, e⟩ := i
  have ht := touches_step cfg env w e
  show Edited w.store (step cfg env w e).store
  cases e with
  | sweep => exact edited_sweepExpired w
  | connect | readTimeout | datagram | connectionLost =>
    exact ht.edited (by dsimp only [Event.footprint]; decide)
  | envelope t payload =>
    by_cases hopen : (w.state.conn t.user).opened = true
    swap
    · simpa only [step, if_neg hopen] using Edited.refl
    simp only [step, if_pos hopen] at ht ⊢
    unfold handleEnvelope at ht ⊢
    cases payload
    case clientHello => exact ht.edited (by dsimp only [Event.footprint, footprint]; decide)
    case authenticate => exact edited_handleAuthenticate
    case disconnect | other => exact .refl
    all_goals
      dsimp only
      split
      · exact edited_handleAuthenticated
      · exact .refl

end Steps

theorem edited_run {cfg : Config} (inputs : List Input) (w : World) :
    Edited w.store (run cfg w inputs).store := by
  induction inputs generalizing w with
  | nil => exact .refl
  | cons i inputs ih => exact edited_step.trans (ih (stepInput cfg w i))

end Rumble.Server
