import Rumble.Lib.Transition
import Rumble.Server.BanEffects
import Rumble.Server.Interleaving

/-!
# Bans over whole runs

A ban stays in force until its end as long as nothing takes one half of it away or shortens it:
the group must carry the BANNED flag, and neither a timed re-grant of the membership nor a later
ban of the same key may end before the ban does. The record of a ban and the membership it stands
for stay together as long as only bans and lifts touch them while the record is there.
-/

namespace Rumble.Server

open Rumble.Lib Rumble.Lib.Transition World Relation

variable {A : BanActs} {p q : Persistence} {k pk : PublicKey} {t d now : Nat} {w : World}

/-! ## A ban in force -/

/-- The time at which a ban issued at `t` for `d` seconds ends has come. -/
def BanOver (t d now : Nat) : Prop := d ≠ 0 ∧ saturatingAdd t d ≤ now

instance : Decidable (BanOver t d now) := inferInstanceAs (Decidable (_ ∧ _))

theorem BanOver.mono {now' : Nat} (h : BanOver t d now) (hle : now ≤ now') : BanOver t d now' :=
  ⟨h.1, h.2.trans hle⟩

/-- The ban of `k` issued at `t` for `d` seconds is in force: the group carries the flag, `k` is a
member, and neither the membership nor the record ends before the ban does. -/
structure BanInForce (p : Persistence) (k : PublicKey) (t d : Nat) : Prop where
  flagged : ∃ bits, p.groups.get "banned" = some bits ∧ bits.getLsbD 22 = true
  member : (p.membership k "banned").1 = true
  lasts : ∀ now, p.Lapsed k "banned" now → BanOver t d now
  record : ∃ b, p.bans.get k = some b ∧ ∀ now, b.isExpired now = true → BanOver t d now

/-- Acts that leave a ban issued at `t` for `d` seconds in force. -/
structure BanActs.Keep (A : BanActs) (t d now : Nat) : Prop where
  grant : ∀ x, A.grant x → x = 0 ∨ BanOver t d x
  ban : ∀ d', A.ban d' → d' = 0 ∨ BanOver t d (saturatingAdd now d')
  revoke : ¬ A.revoke
  regroup : ¬ A.regroup
  drop : ¬ A.drop

theorem isExpired_iff {b : PersistedBan} (ht : b.bannedAtSecs = some t) :
    b.isExpired now = true ↔ BanOver t b.durationSeconds now := by
  unfold PersistedBan.isExpired BanOver
  rw [ht]
  by_cases h0 : b.durationSeconds = 0
  · simp [h0]
  · simp [h0]

theorem lapsed_iff {x : Option Nat} (h : (p.membership k "banned").2 = x) :
    p.Lapsed k "banned" now ↔ x.getD 0 ≠ 0 ∧ x.getD 0 ≤ now := by
  subst h
  exact Iff.rfl

theorem SameBan.lapsed_iff (h : SameBan k p q) :
    q.Lapsed k "banned" now ↔ p.Lapsed k "banned" now := by
  unfold Persistence.Lapsed
  rw [Persistence.getGroupExpiry_of_membership h.member]

theorem BanInForce.congr (h : BanInForce p k t d) (hs : SameBan k p q) : BanInForce q k t d :=
  ⟨hs.group ▸ h.flagged, hs.member ▸ h.member, fun now hl => h.lasts now (hs.lapsed_iff.mp hl),
    hs.record ▸ h.record⟩

/-- One effect keeps the ban in force, or ends it in time. -/
theorem BanInForce.effect (h : BanInForce p k t d) (hA : A.Keep t d now)
    (he : BanEffect A k now p q) :
    BanInForce q k t d ∨ (A.housekeeping ∧ BanOver t d now ∧ (q.membership k "banned").1 = false) := by
  cases he with
  | same hs => exact .inl (h.congr hs)
  | lapse hk hl hm hg hb => exact .inr ⟨hk, h.lasts now hl, by rw [hm]⟩
  | lift hk hp hexp hb hm hg =>
    obtain ⟨b', hb', hover⟩ := h.record
    obtain rfl := Option.some.inj (hp.symm.trans hb')
    exact .inr ⟨hk, hover now hexp, by rw [hm]⟩
  | @ban b hd hb ht hm hg =>
    refine .inl ⟨hg ▸ h.flagged, by rw [hm], ?_, b, hb, ?_⟩
    · intro now' hl
      exact absurd rfl ((lapsed_iff (congrArg Prod.snd hm)).mp hl).1
    · intro now' hexp
      obtain ⟨h0, hend⟩ := (isExpired_iff ht).mp hexp
      rcases hA.ban _ hd with h0' | hover
      · exact absurd h0' h0
      · exact hover.mono hend
  | ensure hp hq hm hb =>
    obtain ⟨bits, hbits, -⟩ := h.flagged
    rw [hp] at hbits
    cases hbits
  | @grant x hx hm hg hb =>
    refine .inl ⟨hg ▸ h.flagged, by rw [hm], ?_, hb ▸ h.record⟩
    intro now' hl
    obtain ⟨h0, hle⟩ := (lapsed_iff (congrArg Prod.snd hm)).mp hl
    rcases hA.grant x hx with rfl | hover
    · exact absurd rfl h0
    · by_cases hx0 : x = 0
      · subst hx0
        exact absurd rfl h0
      · rw [if_neg hx0] at hle
        exact hover.mono hle
  | revoke hr => exact absurd hr hA.revoke
  | regroup hr => exact absurd hr hA.regroup
  | drop hr => exact absurd hr hA.drop

/-- Once ended by housekeeping, the ban is not back before the event is over. -/
theorem not_member_effect (hA : A.Keep t d now) (hban : ∀ d', ¬ A.ban d')
    (hgrant : ∀ x, ¬ A.grant x) (h : (p.membership k "banned").1 = false)
    (he : BanEffect A k now p q) : (q.membership k "banned").1 = false := by
  cases he with
  | same hs => rw [hs.member, h]
  | lapse _ _ hm | lift _ _ _ _ hm => rw [hm]
  | ban hd => exact absurd hd (hban _)
  | ensure _ _ hm => rw [hm, h]
  | grant hx => exact absurd hx (hgrant _)
  | revoke hr => exact absurd hr hA.revoke
  | regroup hr => exact absurd hr hA.regroup
  | drop hr => exact absurd hr hA.drop

theorem BanInForce.effects (h : BanInForce p k t d) (hA : A.Keep t d now)
    (hex : A.housekeeping → (∀ d', ¬ A.ban d') ∧ ∀ x, ¬ A.grant x) (he : BanEffects A k now p q) :
    BanInForce q k t d ∨ (A.housekeeping ∧ BanOver t d now ∧ (q.membership k "banned").1 = false) := by
  induction he with
  | refl => exact .inl h
  | tail _ hstep ih =>
    rcases ih with ih | ⟨hk, hover, hm⟩
    · exact ih.effect hA hstep
    · exact .inr ⟨hk, hover, not_member_effect hA (hex hk).1 (hex hk).2 hm hstep⟩

/-! ## The check -/

/-- **While the ban is in force and not over, the check rejects.** -/
theorem BanInForce.banCheck_true (h : BanInForce p k t d) (ho : ¬ BanOver t d now) :
    (banCheck p k now).1 = true := by
  obtain ⟨b, hb, hexp⟩ := h.record
  have hlift : liftExpiredBan p k now = p := by
    unfold liftExpiredBan Persistence.getBan
    rw [hb]
    exact if_neg fun h' => ho (hexp now h')
  obtain ⟨bits, hbits, hflag⟩ := h.flagged
  rw [banCheck_iff, hlift]
  refine ⟨"banned", mem_userGroupList.mpr (.inr (.inl ?_)), bits, hbits, hflag⟩
  have hm : "banned" ∈ p.getUserGroups k := by simpa [Persistence.membership] using h.member
  exact Persistence.mem_activeUserGroups hm fun hl => ho (h.lasts now hl)

/-- With an expired record the check answers as it does with the ban lifted. -/
theorem banCheck_expired {b : PersistedBan} (hb : p.bans.get k = some b)
    (hexp : b.isExpired now = true) : banCheck p k now = banCheck (p.liftBan k) k now := by
  have h1 : liftExpiredBan p k now = p.liftBan k := by
    simp [liftExpiredBan, Persistence.getBan, hb, hexp]
  have h2 : liftExpiredBan (p.liftBan k) k now = p.liftBan k := by
    have hnone : (p.liftBan k).getBan k = none := Table.get_del_self _ _
    simp [liftExpiredBan, hnone]
  unfold banCheck
  rw [h1, h2]

/-- A ban written to the store is in force, when a group "banned" that was there carries the
flag. -/
theorem banInForce_recordBan {reason actor : String}
    (hbit : (p.getGroup "banned").all (Permissions.contains · Permissions.banned) = true) :
    BanInForce (recordBan (ensureBannedGroup p) k
      { bannedAtSecs := some t, durationSeconds := d, reason := reason, bannedBy := actor })
      k t d := by
  have hm : (recordBan (ensureBannedGroup p) k
      { bannedAtSecs := some t, durationSeconds := d, reason := reason
        bannedBy := actor }).membership k "banned" = (true, none) := by
    rw [membership_recordBan, if_pos rfl]
  refine ⟨?_, by rw [hm], ?_, _, by rw [bans_recordBan, if_pos rfl], ?_⟩
  · rw [groups_recordBan]
    unfold ensureBannedGroup Persistence.getGroup
    split
    · exact ⟨_, Table.get_set_self _ _ _, by decide⟩
    · rename_i hsome
      obtain ⟨bits, hbits⟩ := Option.ne_none_iff_exists'.mp (by simpa using hsome)
      have hbit := (Option.all_eq_true _ _).mp hbit bits hbits
      exact ⟨bits, hbits, contains_banned_iff.mp hbit⟩
  · intro now hl
    exact absurd rfl ((lapsed_iff (congrArg Prod.snd hm)).mp hl).1
  · intro now hexp
    exact (isExpired_iff rfl).mp hexp

section ApplyBan

variable {env : Env} {target : UserId} {reason actor : String}

/-- What the first half of a ban that succeeds leaves in the store. -/
theorem store_banRecord (hkey : w.state.getUserPublicKey target = some k)
    (hok : (w.banRecord env target d reason actor).1.isOk = true) :
    (w.banRecord env target d reason actor).2.store = recordBan (ensureBannedGroup w.store) k
      { bannedAtSecs := some env.nowSecs, durationSeconds := d, reason := reason
        bannedBy := actor } := by
  unfold banRecord at hok ⊢
  split at hok
  · exact Bool.noConfusion hok
  split at hok
  · exact Bool.noConfusion hok
  split at hok
  · exact Bool.noConfusion hok
  rename_i h1 h2 h3
  rw [if_neg h1, if_neg h2, if_neg h3]
  dsimp only [mapStore_state]
  rw [hkey]
  rfl

/-- A ban puts itself in force. -/
theorem banInForce_applyBan (hkey : w.state.getUserPublicKey target = some k)
    (hban : (w.applyBan env target d reason actor).1.isOk = true)
    (hbit : (w.store.getGroup "banned").all (Permissions.contains · Permissions.banned) = true) :
    BanInForce (w.applyBan env target d reason actor).2.store k env.nowSecs d := by
  rw [applyBan_eq] at hban ⊢
  have hstore : (w.banRecord env target d reason actor).1.isOk = true → _ := store_banRecord hkey
  rcases hrec : w.banRecord env target d reason actor with ⟨message | _, w'⟩
  · rw [hrec] at hban
    exact Bool.noConfusion hban
  · rw [hrec] at hstore
    refine BanInForce.congr ?_
      ((touches_banDisconnect w' target d reason actor).sameBan (by decide))
    rw [hstore rfl]
    exact banInForce_recordBan hbit

end ApplyBan

/-! ## Runs after a ban -/

/-- The step takes nobody with key `k` out of "banned" and leaves that group as it is. -/
def LeavesBan (k : PublicKey) (w : World) (i : Input) : Prop :=
  (∀ x ∈ i.2.bannedEdit w, x.1 = k → x.2.1 = true) ∧ i.2.editsBannedGroup w = false ∧
    i.2.deletesBannedGroup w = false

/-- The step neither re-grants "banned" to `k` for a shorter time than a ban issued at `t` for `d`
seconds nor bans `k` again for one. -/
def NotShortened (k : PublicKey) (t d : Nat) (w : World) (i : Input) : Prop :=
  (∀ x ∈ i.2.bannedEdit w, x.1 = k → x.2.1 = true → x.2.2 = 0 ∨ BanOver t d x.2.2) ∧
    ∀ b ∈ i.2.bannedKey w, b.1 = k → b.2 = 0 ∨ BanOver t d (saturatingAdd i.1.nowSecs b.2)

instance (w : World) (i : Input) : Decidable (LeavesBan k w i) :=
  inferInstanceAs (Decidable (_ ∧ _ ∧ _))

instance (w : World) (i : Input) : Decidable (NotShortened k t d w i) :=
  inferInstanceAs (Decidable (_ ∧ _))

theorem banActs_keep {i : Input} (h : LeavesBan k w i) (h' : NotShortened k t d w i) :
    (i.2.banActs w k).Keep t d i.1.nowSecs where
  grant _ hx := h'.1 _ hx rfl rfl
  ban _ hd := h'.2 _ hd rfl
  revoke := fun ⟨_, hx⟩ => Bool.false_ne_true (h.1 _ hx rfl)
  regroup := fun hr => Bool.false_ne_true (h.2.1.symm.trans hr)
  drop := fun hr => Bool.false_ne_true (h.2.2.symm.trans hr)

/-- One step keeps a ban in force, or ends it in time. -/
theorem BanInForce.stepInput {cfg : Config} {i : Input} (hw : BanInForce w.store k t d)
    (h : LeavesBan k w i) (h' : NotShortened k t d w i) :
    BanInForce (stepInput cfg w i).store k t d ∨
      (BanOver t d i.1.nowSecs ∧
        ((Server.stepInput cfg w i).store.membership k "banned").1 = false) := by
  rcases hw.effects (banActs_keep h h') Event.banActs_housekeeping
    (banEffects_step cfg i.1 w i.2) with hw | ⟨-, hover, hm⟩
  · exact .inl hw
  · exact .inr ⟨hover, hm⟩

/-- The login is refused as banned, and nothing else happens. -/
def RejectedAsBanned (sender : HandleId) (w w' : World) : Prop :=
  w'.log = w.log ++ [.send sender (.authFailed "You are banned from this server")] ∧
    ∀ u, (w'.state.conn u).authenticated = (w.state.conn u).authenticated

section Authenticate

variable {cfg : Config} {env : Env} {sender : HandleId} {pending : PendingAuth}
  {signature : List UInt8} {timestampMs : Int} {cert : Option SessionCertificate}

theorem rejectedAsBanned_of_banCheck
    (hp : w.state.pendingAuth.get sender.user = some pending)
    (hv : verifyAuth cfg env pending signature timestampMs = .ok ())
    (hb : (banCheck w.store pending.publicKey env.nowSecs).1 = true) :
    RejectedAsBanned sender w (handleAuthenticate cfg env sender signature timestampMs cert w) := by
  unfold handleAuthenticate ServerState.takePendingAuth
  rw [hp]
  dsimp only
  rw [hv]
  dsimp only
  split
  swap
  · rename_i h
    exact absurd hb h
  refine ⟨rfl, fun u => ?_⟩
  by_cases hu : u = sender.user
  · subst hu; simp [ServerState.setConn]
  · simp [ServerState.setConn, hu]

/-- The handler reads the store of the key through the ban check only until it has passed. -/
theorem handleAuthenticate_congr_store {q : Persistence}
    (hp : w.state.pendingAuth.get sender.user = some pending)
    (hv : verifyAuth cfg env pending signature timestampMs = .ok ())
    (hb : banCheck w.store pending.publicKey env.nowSecs =
      banCheck q pending.publicKey env.nowSecs) :
    handleAuthenticate cfg env sender signature timestampMs cert w =
      handleAuthenticate cfg env sender signature timestampMs cert (w.mapStore fun _ => q) := by
  unfold handleAuthenticate ServerState.takePendingAuth
  rw [mapStore_state, hp]
  dsimp only
  rw [hv]
  simp only [mapState_store, mapStore_store, hb]
  rfl

end Authenticate

/-- **A ban rejects until it is over, and not because of itself afterwards.** After a successful
ban of `k`, in every run that leaves it alone and does not shorten it, a login of `k` before the
end is refused as banned. A login from the end on is answered as it is with the ban taken out of
the store, unless the ban ended at an earlier step or a later ban of `k` is still running. -/
theorem ban_rejects_until_over {cfg : Config} {env : Env} {target : UserId}
    {reason actor : String} (hkey : w.state.getUserPublicKey target = some k)
    (hban : (w.applyBan env target d reason actor).1.isOk = true)
    (hbit : (w.store.getGroup "banned").all (Permissions.contains · Permissions.banned) = true)
    {es : List Input}
    (hleave : Always (stepInput cfg) (LeavesBan k) (w.applyBan env target d reason actor).2 es)
    (hshort : Always (stepInput cfg) (NotShortened k env.nowSecs d)
      (w.applyBan env target d reason actor).2 es)
    {env' : Env} (hclock : ∀ i ∈ es, i.1.nowSecs ≤ env'.nowSecs) (hnow : env'.nowSecs < u64Max)
    {sender : HandleId} {pending : PendingAuth} {signature : List UInt8} {timestampMs : Int}
    {cert : Option SessionCertificate} {w' : World}
    (hrun : run cfg (w.applyBan env target d reason actor).2 es = w')
    (hp : w'.state.pendingAuth.get sender.user = some pending) (hk : pending.publicKey = k)
    (hv : verifyAuth cfg env' pending signature timestampMs = .ok ()) :
    ((d = 0 ∨ env'.nowSecs < env.nowSecs + d) →
      RejectedAsBanned sender w'
        (handleAuthenticate cfg env' sender signature timestampMs cert w')) ∧
    (d ≠ 0 ∧ env.nowSecs + d ≤ env'.nowSecs →
      handleAuthenticate cfg env' sender signature timestampMs cert w' =
        handleAuthenticate cfg env' sender signature timestampMs cert
          (w'.mapStore (·.liftBan k)) ∨
      (∃ pre, pre <+: es ∧ ((run cfg (w.applyBan env target d reason actor).2 pre).store.membership
        k "banned").1 = false) ∨
      ∃ b, w'.store.bans.get k = some b ∧ b.isExpired env'.nowSecs = false) := by
  have hrun' := (hleave.and hshort).holds_or_ended
    (I := fun w => BanInForce w.store k env.nowSecs d)
    (E := fun i w => BanOver env.nowSecs d i.1.nowSecs ∧
      (w.store.membership k "banned").1 = false)
    (fun w i hC hI => hI.stepInput hC.1 hC.2) (banInForce_applyBan hkey hban hbit)
  subst hk
  change BanInForce (run cfg _ es).store _ _ _ ∨ _ at hrun'
  rw [hrun] at hrun'
  constructor
  · intro hbefore
    have hnot : ¬ BanOver env.nowSecs d env'.nowSecs := by
      rintro ⟨h0, hle⟩
      have hlt := hbefore.resolve_left h0
      unfold saturatingAdd at hle
      omega
    rcases hrun' with hin | ⟨pre, i, hpre, hover, -⟩
    · exact rejectedAsBanned_of_banCheck hp hv (hin.banCheck_true hnot)
    · have hi : i ∈ es := hpre.subset (by simp)
      exact absurd (hover.mono (hclock i hi)) hnot
  · rintro -
    rcases hrun' with hin | ⟨pre, i, hpre, -, hm⟩
    · obtain ⟨b, hb, -⟩ := hin.record
      cases hexp : b.isExpired env'.nowSecs with
      | true => exact .inl (handleAuthenticate_congr_store hp hv (banCheck_expired hb hexp))
      | false => exact .inr (.inr ⟨b, hb, hexp⟩)
    · exact .inr (.inl ⟨pre ++ [i], hpre, hm⟩)

/-- The key of a banned user comes back on a new connection and says hello. -/
def sampleReturn : List Input := [(sampleEnv, .connect), sampleHello 2 (Bytes.rep 32 9) "eve"]

def sampleReturnPending : PendingAuth where
  nonce := sampleEnv.nonce
  userId := 2
  publicKey := Bytes.rep 32 9
  username := "eve"

/-- One login, banned for `d` seconds at 1000 over the given database. -/
def sampleBan (store : Persistence) (d : Nat) : OpResult :=
  (run sampleConfig (World.init store) (sampleLogin 1 (Bytes.rep 32 9) "eve")).applyBan
    sampleEnv 1 d "" "ann"

/-- Banned at 1000 for 100 seconds, back at 1050. -/
theorem banned_user_rejected_before_end :
    RejectedAsBanned (primary 2) (run sampleConfig (sampleBan sampleStore 100).2 sampleReturn)
      (handleAuthenticate sampleConfig { sampleEnv with nowSecs := 1050 } (primary 2)
        (List.replicate 64 0) 0 (some sampleCert)
        (run sampleConfig (sampleBan sampleStore 100).2 sampleReturn)) :=
  have hpending : (run sampleConfig (sampleBan sampleStore 100).2
      sampleReturn).state.pendingAuth.get 2 = some sampleReturnPending := by decide +kernel
  (ban_rejects_until_over (k := Bytes.rep 32 9) (d := 100) (by decide +kernel) (by decide +kernel)
    (by decide +kernel) (by decide +kernel) (by decide +kernel) (by decide +kernel) (by decide) rfl
    hpending rfl (by decide +kernel)).1 (.inr (by decide))

/-- With a group "banned" that lacks the flag, a ban succeeds, nothing touches it afterwards, and
the next login of the key is not rejected. -/
theorem not_banned_user_rejected_of_bitless_group :
    let banned := sampleBan (sampleStore.createGroup "banned" 0) 0
    let w' := run sampleConfig banned.2 sampleReturn
    banned.1.isOk = true ∧
      Always (stepInput sampleConfig) (LeavesBan (Bytes.rep 32 9)) banned.2 sampleReturn ∧
      w'.state.pendingAuth.get 2 = some sampleReturnPending ∧
      verifyAuth sampleConfig sampleEnv sampleReturnPending (List.replicate 64 0) 0 = .ok () ∧
      ¬ RejectedAsBanned (primary 2) w' (handleAuthenticate sampleConfig sampleEnv (primary 2)
        (List.replicate 64 0) 0 (some sampleCert) w') := by
  refine ⟨by decide +kernel, by decide +kernel, by decide +kernel, by decide +kernel, fun h => ?_⟩
  have hauth := h.2 2
  revert hauth
  decide +kernel

/-! ## Records and memberships -/

/-- A ban record of `k` comes with a permanent membership of "banned". -/
def BanCoupled (k : PublicKey) (p : Persistence) : Prop :=
  (p.bans.get k).isSome = true → p.membership k "banned" = (true, none)

/-- While a ban record of `k` is there, the step neither removes `k` from "banned" or deletes that
group, nor turns the membership into a timed one. -/
def KeepsRecord (k : PublicKey) (w : World) (i : Input) : Prop :=
  (w.store.bans.get k).isSome = true →
    (∀ x ∈ i.2.bannedEdit w, x.1 = k → x.2.1 = true ∧ x.2.2 = 0) ∧
      i.2.deletesBannedGroup w = false

/-- The step does not ban `k`. -/
def BansAnother (k : PublicKey) (w : World) (i : Input) : Prop := ∀ b ∈ i.2.bannedKey w, b.1 ≠ k

instance (p : Persistence) : Decidable (BanCoupled k p) := inferInstanceAs (Decidable (_ → _))

instance (w : World) (i : Input) : Decidable (KeepsRecord k w i) :=
  inferInstanceAs (Decidable (_ → _))

/-- One effect of an event that starts from a store with the record only if `r`. -/
theorem BanCoupled.effect {r : Prop} (h : BanCoupled k p)
    (hr : (p.bans.get k).isSome = true → r ∨ ∃ d, A.ban d)
    (hkeep : r ∨ (∃ d, A.ban d) → (∀ x, A.grant x → x = 0) ∧ ¬ A.revoke ∧ ¬ A.drop)
    (he : BanEffect A k now p q) :
    BanCoupled k q ∧ ((q.bans.get k).isSome = true → r ∨ ∃ d, A.ban d) := by
  unfold BanCoupled at *
  cases he with
  | same hs => rw [hs.record, hs.member]; exact ⟨h, hr⟩
  | lapse _ hl hm _ hb =>
    rw [hb]
    refine ⟨fun hsome => ?_, hr⟩
    exact absurd rfl ((lapsed_iff (congrArg Prod.snd (h hsome))).mp hl).1
  | lift _ _ _ hb =>
    rw [hb]
    exact ⟨fun hsome => Bool.noConfusion hsome, fun hsome => Bool.noConfusion hsome⟩
  | ban hd hb _ hm => exact ⟨fun _ => hm, fun _ => .inr ⟨_, hd⟩⟩
  | ensure _ _ hm hb => rw [hb, hm]; exact ⟨h, hr⟩
  | @grant x hx hm _ hb =>
    rw [hb]
    refine ⟨fun hsome => ?_, hr⟩
    rw [hm, if_pos ((hkeep (hr hsome)).1 x hx)]
  | revoke hv _ _ hb =>
    rw [hb]
    exact ⟨fun hsome => absurd hv (hkeep (hr hsome)).2.1, hr⟩
  | regroup _ hm hb => rw [hb, hm]; exact ⟨h, hr⟩
  | drop hv _ hb =>
    rw [hb]
    exact ⟨fun hsome => absurd hv (hkeep (hr hsome)).2.2, hr⟩

/-- A step keeps record and membership together, and only a ban writes a record. -/
theorem BanCoupled.stepInput {cfg : Config} {i : Input} (h : BanCoupled k w.store)
    (hkeep : KeepsRecord k w i) :
    BanCoupled k (Server.stepInput cfg w i).store ∧
      (((Server.stepInput cfg w i).store.bans.get k).isSome = true →
        (w.store.bans.get k).isSome = true ∨ ∃ d, i.2.bannedKey w = some (k, d)) := by
  have hacts : (w.store.bans.get k).isSome = true ∨ (∃ d, (i.2.banActs w k).ban d) →
      (∀ x, (i.2.banActs w k).grant x → x = 0) ∧ ¬ (i.2.banActs w k).revoke ∧
        ¬ (i.2.banActs w k).drop := by
    rintro (hsome | ⟨d, hd⟩)
    · refine ⟨fun x hx => ((hkeep hsome).1 _ hx rfl).2, ?_, ?_⟩
      · rintro ⟨x, hx⟩
        exact Bool.false_ne_true ((hkeep hsome).1 _ hx rfl).1
      · exact fun hdrop => Bool.false_ne_true ((hkeep hsome).2.symm.trans hdrop)
    · obtain ⟨hgrant, hrevoke, hdrop⟩ := Event.banActs_ban hd
      exact ⟨fun x hx => absurd hx (hgrant x), hrevoke, hdrop⟩
  have heffects := banEffects_step (k := k) cfg i.1 w i.2
  unfold Server.stepInput
  generalize (step cfg i.1 w i.2).store = q at heffects ⊢
  induction heffects with
  | refl => exact ⟨h, .inl⟩
  | tail _ he ih => exact ih.1.effect ih.2 hacts he

/-- **Ban records and memberships stay coupled.** In a run whose steps keep the record of `k`, a
record is there only with the membership, and since the last ban of `k` the membership of a record
still there was never undone, so lifting the record takes away what its own ban granted. -/
theorem ban_record_coupled {cfg : Config} {store : Persistence} (hstore : BanCoupled k store)
    {inputs : List Input}
    (hkeep : Always (stepInput cfg) (KeepsRecord k) (World.init store) inputs) :
    (∀ pre, pre <+: inputs → BanCoupled k (run cfg (World.init store) pre).store) ∧
      ∀ pre mid, pre ++ mid <+: inputs →
        ((run cfg (World.init store) (pre ++ mid)).store.bans.get k).isSome = true →
        Always (stepInput cfg) (BansAnother k) (run cfg (World.init store) pre) mid →
        ((run cfg (World.init store) pre).store.membership k "banned").1 = true := by
  have hcoupled : ∀ pre, pre <+: inputs → BanCoupled k (run cfg (World.init store) pre).store :=
    fun pre hpre => hkeep.invariant_all (I := fun w => BanCoupled k w.store)
      (fun w i hC hI => (hI.stepInput hC).1) hstore hpre
  refine ⟨hcoupled, fun pre mid hmid hrec hno => ?_⟩
  have hpre := hcoupled pre ((List.prefix_append pre mid).trans hmid)
  suffices hsome : ((run cfg (World.init store) pre).store.bans.get k).isSome = true by
    rw [hpre hsome]
  by_contra hnone
  -- Without a ban of `k` no record appears along `mid`.
  obtain ⟨rest, hrest⟩ := hmid
  have hkeep' : Always (stepInput cfg) (KeepsRecord k) (run cfg (World.init store) pre) mid := by
    rw [← hrest, List.append_assoc] at hkeep
    exact hkeep.drop.of_append
  have hend := (hkeep'.and hno).invariant
    (I := fun w => BanCoupled k w.store ∧ ¬ (w.store.bans.get k).isSome = true)
    (fun w i hC hI => ?_) ⟨hpre, hnone⟩
  · refine hend.2 ?_
    rwa [run, List.foldl_append] at hrec
  · obtain ⟨hI', hrec'⟩ := hI.1.stepInput hC.1
    refine ⟨hI', fun hsome => ?_⟩
    rcases hrec' hsome with hold | ⟨d, hd⟩
    · exact hI.2 hold
    · exact hC.2 _ hd rfl

/-- The administrator bans the second user for 100 seconds. -/
def sampleTimedBan : List Input :=
  sampleLogin 1 (Bytes.rep 32 9) "ann" ++ sampleLogin 2 (Bytes.rep 32 8) "eve" ++
    [sampleMsg 1 (.banUser 2 100 "")]

/-- The sweep after the end of the ban. -/
def sampleLateSweep : Input := ({ sampleEnv with nowSecs := 1200 }, .sweep)

/-- A timed ban and the sweep that lifts it. -/
theorem ban_record_coupled_timed_ban :
    BanCoupled (Bytes.rep 32 8) (run sampleConfig (World.init sampleAdminStore)
      (sampleTimedBan ++ [sampleLateSweep])).store :=
  (ban_record_coupled (by decide +kernel) (by decide +kernel)).1 _ (List.prefix_refl _)

/-- The administrator takes the banned user out of "banned" and later puts it back for good. -/
def sampleUndone : List Input :=
  sampleTimedBan ++
    [sampleMsg 1 (.setRegisteredUserGroup (Bytes.rep 32 8).data "banned" false 0)]

def sampleRegranted : List Input :=
  sampleUndone ++ [sampleMsg 1 (.setRegisteredUserGroup (Bytes.rep 32 8).data "banned" true 0)]

/-- The undone ban leaves an orphan record, which later lifts the membership granted anew. -/
theorem not_ban_record_coupled_undone_ban :
    BanCoupled (Bytes.rep 32 8) (World.init sampleAdminStore).store ∧
      ¬ BanCoupled (Bytes.rep 32 8)
        (run sampleConfig (World.init sampleAdminStore) sampleUndone).store ∧
      (run sampleConfig (World.init sampleAdminStore) sampleRegranted).store.membership
        (Bytes.rep 32 8) "banned" = (true, none) ∧
      (run sampleConfig (World.init sampleAdminStore)
        (sampleRegranted ++ [sampleLateSweep])).store.membership (Bytes.rep 32 8) "banned" =
        (false, none) := by
  decide +kernel

end Rumble.Server
