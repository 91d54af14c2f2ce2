import Rumble.Lib.Transition
import Rumble.Server.Interleaving

/-!
# Proven identity

The key claimed by a hello is written to the connection at once; the key an authentication verifies
is the one of the pending record. They are the same as long as the hellos of a connection are
orderly: none starts while another, or while an authentication of the connection, is between its
steps, and one that comes after an authentication claims a key already proven there. In runs with
orderly hellos an authenticated connection carries a proven key; in every run a nonce authorises at
most one authentication.
-/

namespace Rumble.Server

open Rumble.Lib Rumble.Lib.Transition World

/-! ## The identity of one connection -/

/-- A hello of the connection has stored its pending record but not its key yet. -/
def Sys.helloOn (s : Sys) (u : UserId) : Bool :=
  s.tasks.any fun
    | .hello sender _ _ => sender.user == u
    | _ => false

/-- An authentication of the connection has passed its checks and is being published. -/
def Sys.authOn (s : Sys) (u : UserId) : Bool :=
  s.tasks.any fun
    | .auth sender _ _ _ => sender.user == u
    | _ => false

/-- A signature by `key` over a nonce issued to the connection has been verified. -/
def Sys.hasProof (s : Sys) (u : UserId) (key : PublicKey) : Bool :=
  s.proven.any fun p => p.1 == u && p.2.1 == key

/-- The piece keeps the hellos of connection `u` in order. -/
def OrderlyHellos (cfg : Config) (u : UserId) (s : Sys) (i : Env × Act) : Prop :=
  match i.2 with
  | .hello sender username publicKey password =>
    sender.user = u → ∀ key ∈ Bytes.ofList? 32 publicKey,
      helloRefusal cfg s.world.store username key password = none →
        s.helloOn u = false ∧
          ((s.world.state.conn u).authenticated = true ∨ s.authOn u = true →
            s.hasProof u key = true)
  | .authenticate sender _ _ _ => sender.user = u → s.helloOn u = false
  | _ => True

instance (cfg : Config) (u : UserId) (s : Sys) :
    ∀ i : Env × Act, Decidable (OrderlyHellos cfg u s i)
  | (_, .hello ..) => inferInstanceAs (Decidable (_ → _))
  | (_, .authenticate ..) => inferInstanceAs (Decidable (_ → _))
  | (_, .ban ..) => isTrue trivial
  | (_, .lost _) => isTrue trivial
  | (_, .resume _) => isTrue trivial

/-- The key of connection `u` is proven whenever it counts. -/
structure KeyProven (u : UserId) (s : Sys) : Prop where
  /-- The pending record is that of the hello in progress. -/
  helloKey : ∀ sender key nonce, Task.hello sender key nonce ∈ s.tasks → sender.user = u →
    ∃ p, s.world.state.pendingAuth.get u = some p ∧ p.publicKey = key
  /-- With no hello in progress the stored key is that of the pending record. -/
  pendingKey : ∀ p, s.world.state.pendingAuth.get u = some p → s.helloOn u = false →
    (s.world.state.conn u).publicKey = some p.publicKey
  pendingIssued : ∀ p, s.world.state.pendingAuth.get u = some p → (u, p.nonce) ∈ s.issued
  proofIssued : ∀ key nonce, (u, key, nonce) ∈ s.proven → (u, nonce) ∈ s.issued
  /-- Once an authentication has passed, the stored key is proven, and so is any about to be. -/
  proven : (s.world.state.conn u).authenticated = true ∨ s.authOn u = true →
    (∃ key, (s.world.state.conn u).publicKey = some key ∧ s.hasProof u key = true) ∧
      ∀ sender key nonce, Task.hello sender key nonce ∈ s.tasks → sender.user = u →
        s.hasProof u key = true

/-- The nonces of connection `u`: every one accepted or still pending was issued once for it. -/
def NonceLedger (u : UserId) (s : Sys) : Prop :=
  ∀ n, s.accepted.count (u, n) +
    (if (s.world.state.pendingAuth.get u).map PendingAuth.nonce = some n then 1 else 0) ≤
      s.issued.count (u, n)

/-- The handshake of `u` is where it was, except that an authentication being published may have
marked the connection, or ended. -/
structure SameHandshake (u : UserId) (s s' : Sys) : Prop where
  pending : s'.world.state.pendingAuth.get u = s.world.state.pendingAuth.get u
  publicKey : (s'.world.state.conn u).publicKey = (s.world.state.conn u).publicKey
  authenticated : (s'.world.state.conn u).authenticated = true →
    (s.world.state.conn u).authenticated = true ∨ s.authOn u = true
  hello : ∀ sender key nonce, sender.user = u →
    (Task.hello sender key nonce ∈ s'.tasks ↔ Task.hello sender key nonce ∈ s.tasks)
  auth : s'.authOn u = true → s.authOn u = true
  issued : ∀ n, s'.issued.count (u, n) = s.issued.count (u, n)
  accepted : ∀ n, s'.accepted.count (u, n) = s.accepted.count (u, n)
  proven : ∀ key nonce, (u, key, nonce) ∈ s'.proven ↔ (u, key, nonce) ∈ s.proven

theorem helloOn_iff {s : Sys} {u : UserId} : s.helloOn u = true ↔
    ∃ sender key nonce, Task.hello sender key nonce ∈ s.tasks ∧ sender.user = u := by
  unfold Sys.helloOn
  rw [List.any_eq_true]
  constructor
  · rintro ⟨t, ht, hu⟩
    split at hu
    · exact ⟨_, _, _, ht, by simpa using hu⟩
    · exact Bool.noConfusion hu
  · rintro ⟨sender, key, nonce, ht, hu⟩
    exact ⟨_, ht, by simpa using hu⟩

theorem authOn_iff {s : Sys} {u : UserId} : s.authOn u = true ↔
    ∃ sender p session stage, Task.auth sender p session stage ∈ s.tasks ∧ sender.user = u := by
  unfold Sys.authOn
  rw [List.any_eq_true]
  constructor
  · rintro ⟨t, ht, hu⟩
    split at hu
    · exact ⟨_, _, _, _, ht, by simpa using hu⟩
    · exact Bool.noConfusion hu
  · rintro ⟨sender, p, session, stage, ht, hu⟩
    exact ⟨_, ht, by simpa using hu⟩

theorem hasProof_iff {s : Sys} {u : UserId} {key : PublicKey} :
    s.hasProof u key = true ↔ ∃ nonce, (u, key, nonce) ∈ s.proven := by
  unfold Sys.hasProof
  rw [List.any_eq_true]
  constructor
  · rintro ⟨⟨v, k, n⟩, hp, h⟩
    obtain ⟨rfl, rfl⟩ : v = u ∧ k = key := by simpa using h
    exact ⟨n, hp⟩
  · rintro ⟨n, hp⟩
    exact ⟨_, hp, by simp⟩

section Steps

variable {u : UserId} {s s' : Sys}

theorem SameHandshake.keyProven (h : SameHandshake u s s') (hs : KeyProven u s) :
    KeyProven u s' := by
  have hhello : s'.helloOn u = false → s.helloOn u = false := by
    rw [← not_imp_not, Bool.not_eq_false, Bool.not_eq_false, helloOn_iff, helloOn_iff]
    rintro ⟨sender, key, nonce, ht, hu⟩
    exact ⟨sender, key, nonce, (h.hello sender key nonce hu).mpr ht, hu⟩
  have hproof : ∀ key, s'.hasProof u key = s.hasProof u key := by
    intro key
    rw [Bool.eq_iff_iff, hasProof_iff, hasProof_iff]
    exact exists_congr fun n => h.proven key n
  have hissued : ∀ n, (u, n) ∈ s.issued → (u, n) ∈ s'.issued := by
    intro n hn
    rw [← List.count_pos_iff, h.issued n]
    exact List.count_pos_iff.mpr hn
  refine ⟨?_, ?_, ?_, ?_, ?_⟩
  · intro sender key nonce ht hu
    rw [h.pending]
    exact hs.helloKey sender key nonce ((h.hello sender key nonce hu).mp ht) hu
  · intro p hp hno
    rw [h.pending] at hp
    rw [h.publicKey]
    exact hs.pendingKey p hp (hhello hno)
  · intro p hp
    rw [h.pending] at hp
    exact hissued _ (hs.pendingIssued p hp)
  · intro key nonce hp
    exact hissued _ (hs.proofIssued key nonce ((h.proven key nonce).mp hp))
  · intro hauth
    have hauth' := hauth.elim h.authenticated fun ha => .inr (h.auth ha)
    obtain ⟨⟨key, hkey, hpr⟩, hall⟩ := hs.proven hauth'
    refine ⟨⟨key, h.publicKey.trans hkey, (hproof key).trans hpr⟩, ?_⟩
    intro sender key nonce ht hu
    exact (hproof key).trans (hall sender key nonce ((h.hello sender key nonce hu).mp ht) hu)

theorem SameHandshake.nonceLedger (h : SameHandshake u s s') (hs : NonceLedger u s) :
    NonceLedger u s' := by
  intro n
  rw [h.accepted n, h.issued n, h.pending]
  exact hs n

/-- The handshake of one connection with the rest of the world changed. -/
theorem Touches.sameHandshake {S : List Field} {w' : World} (h : Touches S s.world w')
    (hS : ∀ f ∈ [Field.pendingAuth, .publicKey, .authenticated], f ∉ S) :
    SameHandshake u s { s with world := w' } where
  pending := congrArg (Table.get · u) (h _ (hS .pendingAuth (by decide)))
  publicKey := congrFun (h _ (hS .publicKey (by decide))) u
  authenticated := fun hauth =>
    .inl ((congrFun (h _ (hS .authenticated (by decide))) u).symm.trans hauth)
  hello := fun _ _ _ _ => Iff.rfl
  auth := id
  issued := fun _ => rfl
  accepted := fun _ => rfl
  proven := fun _ _ => Iff.rfl

theorem SameHandshake.trans {s'' : Sys} (h : SameHandshake u s s') (h' : SameHandshake u s' s'') :
    SameHandshake u s s'' where
  pending := h'.pending.trans h.pending
  publicKey := h'.publicKey.trans h.publicKey
  authenticated := fun ha => (h'.authenticated ha).elim h.authenticated fun hx => .inr (h.auth hx)
  hello := fun sender key nonce hu =>
    (h'.hello sender key nonce hu).trans (h.hello sender key nonce hu)
  auth := fun ha => h.auth (h'.auth ha)
  issued := fun n => (h'.issued n).trans (h.issued n)
  accepted := fun n => (h'.accepted n).trans (h.accepted n)
  proven := fun key nonce => (h'.proven key nonce).trans (h.proven key nonce)

/-! ## Pieces of other connections, of bans and of teardowns -/

variable {cfg : Config} {env : Env}

theorem sameHandshake_hello {sender : HandleId} {username : String} {publicKey : List UInt8}
    {password : Option String} (hu : sender.user ≠ u) :
    SameHandshake u s (s.step cfg (env, .hello sender username publicKey password)) := by
  rcases helloCheck_cases cfg env sender username publicKey password s.world with
    ⟨key, -, -, h⟩ | ⟨error, h⟩
  · simp only [Sys.step, h]
    refine ⟨Table.get_set_ne (Ne.symm hu), rfl, .inl, ?_, ?_, ?_, fun n => rfl, fun _ _ => Iff.rfl⟩
    · intro t k n ht
      have hne : Task.hello t k n ≠ Task.hello sender key env.nonce := by
        intro he
        obtain ⟨rfl, -, -⟩ := Task.hello.inj he
        exact hu ht
      simp [hne]
    · simp [Sys.authOn]
    · intro n
      simp [List.count_append, hu]
  · simp only [Sys.step, h]
    exact (Touches.sendAuthFailed (S := [.log, .closed]) .refl _ _).sameHandshake (by decide)

/-- Whatever the checks of an authentication answer, the pending record is gone and keys and
`authenticated` flags are as they were. -/
theorem authCheck_state (cfg : Config) (env : Env) (sender : HandleId) (signature : List UInt8)
    (timestampMs : Int) (cert : Option SessionCertificate) (w : World) :
    (∀ v, (authCheck cfg env sender signature timestampMs cert w).2.state.pendingAuth.get v =
      if v = sender.user then none else w.state.pendingAuth.get v) ∧
    Touches [.pendingAuth, .userGroups, .bans, .closed, .log] w
      (authCheck cfg env sender signature timestampMs cert w).2 := by
  have htake : ∀ v, (w.state.pendingAuth.del sender.user).get v =
      if v = sender.user then none else w.state.pendingAuth.get v := Table.get_del _ _
  rcases authCheck_cases cfg env sender signature timestampMs cert w with
    ⟨pending, session, -, -, -, -, h⟩ | ⟨w', error, hw', h⟩
  · rw [h]
    exact ⟨htake, (touches_checked w sender _ _).mono (by decide)⟩
  · rw [h]
    have hw : (∀ v, w'.state.pendingAuth.get v =
        if v = sender.user then none else w.state.pendingAuth.get v) ∧
        Touches [.pendingAuth, .userGroups, .bans, .closed, .log] w w' := by
      rcases hw' with ⟨rfl, hnone⟩ | rfl | ⟨pending, -, rfl⟩
      · refine ⟨fun v => ?_, .refl⟩
        split
        · rename_i hv
          rw [hv, hnone]
        · rfl
      · exact ⟨htake, (touches_take w sender.user).mono (by decide)⟩
      · exact ⟨htake, (touches_checked w sender _ _).mono (by decide)⟩
    exact ⟨hw.1, hw.2.sendAuthFailed _ _⟩

theorem newProof_cases (cfg : Config) (env : Env) (sender : HandleId) (signature : List UInt8)
    (timestampMs : Int) (w : World) :
    newProof cfg env sender signature timestampMs w = none ∨
      ∃ p, w.state.pendingAuth.get sender.user = some p ∧
        newProof cfg env sender signature timestampMs w =
          some (sender.user, p.publicKey, p.nonce) := by
  unfold newProof
  split
  · exact .inl rfl
  · split
    · rename_i p hp _
      exact .inr ⟨p, hp, rfl⟩
    · exact .inl rfl

theorem sameHandshake_authenticate {sender : HandleId} {signature : List UInt8} {timestampMs : Int}
    {cert : Option SessionCertificate} (hu : sender.user ≠ u) :
    SameHandshake u s (s.step cfg (env, .authenticate sender signature timestampMs cert)) := by
  obtain ⟨hpend, ht⟩ := authCheck_state cfg env sender signature timestampMs cert s.world
  have hpend : _ = s.world.state.pendingAuth.get u := (hpend u).trans (if_neg (Ne.symm hu))
  have hkey : _ = (s.world.state.conn u).publicKey := congrFun (ht .publicKey (by decide)) u
  have hauth : _ = (s.world.state.conn u).authenticated :=
    congrFun (ht .authenticated (by decide)) u
  have hproven : ∀ key nonce, (u, key, nonce) ∈ s.proven ++
      (s.world.newProof cfg env sender signature timestampMs).toList ↔
        (u, key, nonce) ∈ s.proven := by
    intro key nonce
    rcases newProof_cases cfg env sender signature timestampMs s.world with h | ⟨p, -, h⟩
    · simp [h]
    · simp [h, Ne.symm hu]
  rcases hcheck : authCheck cfg env sender signature timestampMs cert s.world with
    ⟨_ | ⟨pending, session⟩, w'⟩
  · rw [hcheck] at hpend hkey hauth
    simp only [Sys.step, hcheck]
    exact ⟨hpend, hkey, fun h => .inl (hauth ▸ h), fun _ _ _ _ => Iff.rfl, id, fun _ => rfl,
      fun _ => rfl, hproven⟩
  · rw [hcheck] at hpend hkey hauth
    simp only [Sys.step, hcheck]
    refine ⟨hpend, hkey, fun h => .inl (hauth ▸ h), ?_, ?_, fun _ => rfl, ?_, hproven⟩
    · intro t k n _
      simp
    · simp [Sys.authOn, hu]
    · intro n
      simp [List.count_append, hu]

theorem sameHandshake_ban {target : UserId} {d : Nat} {reason actor : String} :
    SameHandshake u s (s.step cfg (env, .ban target d reason actor)) := by
  have ht := touches_banRecord s.world env target d reason actor
  rcases hrec : s.world.banRecord env target d reason actor with ⟨_ | _, w'⟩
  · rw [hrec] at ht
    simp only [Sys.step, hrec]
    exact ht.sameHandshake (by decide)
  · rw [hrec] at ht
    simp only [Sys.step, hrec]
    refine SameHandshake.trans (ht.sameHandshake (by decide)) ⟨rfl, rfl, .inl, ?_, ?_, fun _ => rfl,
      fun _ => rfl, fun _ _ => Iff.rfl⟩
    · intro t k n _
      simp
    · simp [Sys.authOn]

theorem sameHandshake_lost {v : UserId} : SameHandshake u s (s.step cfg (env, .lost v)) :=
  (touches_handleConnectionLost s.world v).sameHandshake (by decide)

/-! ## Suspended tasks -/

/-- One step of a task that is not a hello of `u` keeps its pending record and key. -/
theorem run_handshake {w : World} {task : Task}
    (hne : ∀ sender key nonce, task = .hello sender key nonce → sender.user ≠ u) :
    (task.run cfg env w).1.state.pendingAuth.get u = w.state.pendingAuth.get u ∧
      ((task.run cfg env w).1.state.conn u).publicKey = (w.state.conn u).publicKey ∧
      (((task.run cfg env w).1.state.conn u).authenticated = true →
        (w.state.conn u).authenticated = true ∨
          ∃ sender p session stage, task = .auth sender p session stage ∧ sender.user = u) := by
  -- Only the mark of an authentication writes the flag, only a hello writes the key.
  have key : ∀ {S : List Field} {w' : World}, Touches S w w' → Field.pendingAuth ∉ S →
      Field.publicKey ∉ S → Field.authenticated ∉ S →
      w'.state.pendingAuth.get u = w.state.pendingAuth.get u ∧
        (w'.state.conn u).publicKey = (w.state.conn u).publicKey ∧
        (w'.state.conn u).authenticated = (w.state.conn u).authenticated := by
    intro S w' ht hp hk ha
    exact ⟨congrArg (Table.get · u) (ht _ hp), congrFun (ht _ hk) u, congrFun (ht _ ha) u⟩
  cases task with
  | hello sender k nonce =>
    have hu := hne sender k nonce rfl
    simp [Task.run, storeHelloKey, ServerState.setConn, Ne.symm hu]
  | auth sender p session stage =>
    cases stage with
    | checked =>
      have ht := touches_markAuthenticated w env sender p
      refine ⟨congrArg (Table.get · u) (ht .pendingAuth (by decide)),
        congrFun (ht .publicKey (by decide)) u, fun h => ?_⟩
      by_cases hu : sender.user = u
      · exact .inr ⟨_, _, _, _, rfl, hu⟩
      · left
        simpa [Task.run, markAuthenticated, ServerState.setIdentity, ServerState.setConn,
          Ne.symm hu] using h
    | marked username =>
      obtain ⟨h1, h2, h3⟩ := key (touches_evictSupersededSessions w p.publicKey username
        sender.user) (by decide) (by decide) (by decide)
      exact ⟨h1, h2, fun h => .inl (h3 ▸ h)⟩
    | evicted => exact ⟨rfl, rfl, .inl⟩
    | tracked =>
      obtain ⟨h1, h2, h3⟩ := key (touches_enterServer cfg w sender p.publicKey) (by decide)
        (by decide) (by decide)
      exact ⟨h1, h2, fun h => .inl (h3 ▸ h)⟩
  | ban target d reason actor =>
    obtain ⟨h1, h2, h3⟩ := key (touches_banDisconnect w target d reason actor) (by decide)
      (by decide) (by decide)
    exact ⟨h1, h2, fun h => .inl (h3 ▸ h)⟩

theorem sameHandshake_resume {n : Nat} {task : Task} (hi : s.tasks[n]? = some task)
    (hne : ∀ sender key nonce, task = .hello sender key nonce → sender.user ≠ u) :
    SameHandshake u s (s.step cfg (env, .resume n)) := by
  have hmem : task ∈ s.tasks := (mem_resume hi).mpr (.inl rfl)
  obtain ⟨hp, hk, ha⟩ := (run_handshake hne :
    _ ∧ ((task.run cfg env s.world).1.state.conn u).publicKey = _ ∧ _)
  simp only [Sys.step, hi]
  refine ⟨hp, hk, ?_, ?_, ?_, fun _ => rfl, fun _ => rfl, fun _ _ => Iff.rfl⟩
  · intro h
    rcases ha h with h | ⟨sender, p, session, stage, rfl, hu⟩
    · exact .inl h
    · exact .inr (authOn_iff.mpr ⟨_, _, _, _, hmem, hu⟩)
  · intro sender key nonce hu
    have hrest : Task.hello sender key nonce ∉ (task.run cfg env s.world).2.toList := by
      intro h
      obtain ⟨_, _, _, _, _, -, he⟩ := run_rest (Option.mem_toList.mp h)
      cases he
    have htask : Task.hello sender key nonce ≠ task := fun he => hne _ _ _ he.symm hu
    rw [mem_resume hi (x := Task.hello sender key nonce)]
    simp [hrest, htask]
  · intro h
    obtain ⟨sender, p, session, stage, ht, hu⟩ := authOn_iff.mp h
    rw [authOn_iff]
    simp only [List.mem_append, Option.mem_toList] at ht
    rcases ht with (ht | ht) | ht
    · exact ⟨_, _, _, _, List.mem_of_mem_take ht, hu⟩
    · obtain ⟨_, _, _, st, _, rfl, he⟩ := run_rest ht
      obtain ⟨rfl, -, -, -⟩ := Task.auth.inj he
      exact ⟨_, _, _, _, hmem, hu⟩
    · exact ⟨_, _, _, _, List.mem_of_mem_drop ht, hu⟩

/-! ## Pieces of the connection itself -/

theorem keyProven_hello {sender : HandleId} {username : String} {publicKey : List UInt8}
    {password : Option String} (hs : KeyProven sender.user s)
    (ho : OrderlyHellos cfg sender.user s (env, .hello sender username publicKey password)) :
    KeyProven sender.user (s.step cfg (env, .hello sender username publicKey password)) := by
  rcases helloCheck_cases cfg env sender username publicKey password s.world with
    ⟨key, hkey, hok, h⟩ | ⟨error, h⟩
  swap
  · simp only [Sys.step, h]
    exact ((Touches.sendAuthFailed (S := [.log, .closed]) .refl _ _).sameHandshake
      (by decide)).keyProven hs
  obtain ⟨hno, hproof⟩ := ho rfl key hkey hok
  have hold : ∀ t k n, Task.hello t k n ∈ s.tasks → t.user ≠ sender.user := fun t k n ht hu =>
    Bool.false_ne_true (hno.symm.trans (helloOn_iff.mpr ⟨t, k, n, ht, hu⟩))
  have hget : (s.world.issueNonce env sender username key).state.pendingAuth.get sender.user =
      some { nonce := env.nonce, userId := sender.user, publicKey := key, username := username } :=
    Table.get_set_self _ _ _
  simp only [Sys.step, h]
  refine ⟨?_, ?_, ?_, ?_, ?_⟩
  · intro t k n ht hu
    rcases List.mem_append.mp ht with ht | ht
    · exact absurd hu (hold t k n ht)
    · obtain ⟨-, rfl, -⟩ := Task.hello.inj (List.mem_singleton.mp ht)
      exact ⟨_, hget, rfl⟩
  · intro p _ hnone
    exact absurd hnone (by simp [Sys.helloOn])
  · intro p hp
    obtain rfl := Option.some.inj (hget.symm.trans hp)
    exact List.mem_append_right _ List.mem_cons_self
  · intro k n hp
    exact List.mem_append_left _ (hs.proofIssued k n hp)
  · intro hauth
    have hauth' : (s.world.state.conn sender.user).authenticated = true ∨
        s.authOn sender.user = true := by
      refine hauth.imp id fun ha => ?_
      simpa [Sys.authOn] using ha
    refine ⟨(hs.proven hauth').1, ?_⟩
    intro t k n ht hu
    rcases List.mem_append.mp ht with ht | ht
    · exact absurd hu (hold t k n ht)
    · obtain ⟨-, rfl, -⟩ := Task.hello.inj (List.mem_singleton.mp ht)
      exact hproof hauth'

theorem keyProven_authenticate {sender : HandleId} {signature : List UInt8} {timestampMs : Int}
    {cert : Option SessionCertificate} (hs : KeyProven sender.user s)
    (hno : s.helloOn sender.user = false) :
    KeyProven sender.user
      (s.step cfg (env, .authenticate sender signature timestampMs cert)) := by
  obtain ⟨hpend, ht⟩ := authCheck_state cfg env sender signature timestampMs cert s.world
  have hpend := (hpend sender.user).trans (if_pos rfl)
  have hkey : _ = (s.world.state.conn sender.user).publicKey :=
    congrFun (ht .publicKey (by decide)) sender.user
  have hauth : _ = (s.world.state.conn sender.user).authenticated :=
    congrFun (ht .authenticated (by decide)) sender.user
  have hold : ∀ t k n, Task.hello t k n ∈ s.tasks → t.user ≠ sender.user := fun t k n ht hu =>
    Bool.false_ne_true (hno.symm.trans (helloOn_iff.mpr ⟨t, k, n, ht, hu⟩))
  have hissued : ∀ k n, (sender.user, k, n) ∈ s.proven ++
      (s.world.newProof cfg env sender signature timestampMs).toList →
        (sender.user, n) ∈ s.issued := by
    intro k n hp
    rcases List.mem_append.mp hp with hp | hp
    · exact hs.proofIssued k n hp
    · rcases newProof_cases cfg env sender signature timestampMs s.world with h | ⟨p, hp', h⟩
      · rw [h] at hp
        exact absurd hp List.not_mem_nil
      · rw [h] at hp
        obtain ⟨-, hrest⟩ := Prod.mk.inj (List.mem_singleton.mp hp)
        obtain ⟨-, rfl⟩ := Prod.mk.inj hrest
        exact hs.pendingIssued p hp'
  have hgrow : ∀ {k : PublicKey}, s.hasProof sender.user k = true →
      ∃ n, (sender.user, k, n) ∈ s.proven ++
        (s.world.newProof cfg env sender signature timestampMs).toList := fun h => by
    obtain ⟨n, hn⟩ := hasProof_iff.mp h
    exact ⟨n, List.mem_append_left _ hn⟩
  rcases authCheck_cases cfg env sender signature timestampMs cert s.world with
    ⟨pending, session, hp, hv, -, -, h⟩ | ⟨w', error, -, h⟩
  · rw [h] at hpend hkey hauth
    simp only [Sys.step, h]
    refine ⟨?_, ?_, ?_, hissued, ?_⟩
    · intro t k n ht hu
      have ht' : Task.hello t k n ∈ s.tasks := by simpa using ht
      exact absurd hu (hold t k n ht')
    · exact fun p hp' => absurd (hpend.symm.trans hp') (by simp)
    · exact fun p hp' => absurd (hpend.symm.trans hp') (by simp)
    · intro _
      refine ⟨⟨pending.publicKey, hkey.trans (hs.pendingKey pending hp hno), ?_⟩, ?_⟩
      · refine hasProof_iff.mpr ⟨pending.nonce, List.mem_append_right _ ?_⟩
        simp [newProof, hp, hv, Except.isOk, Except.toBool]
      · intro t k n ht hu
        have ht' : Task.hello t k n ∈ s.tasks := by simpa using ht
        exact absurd hu (hold t k n ht')
  · rw [h] at hpend hkey hauth
    simp only [Sys.step, h]
    refine ⟨fun t k n ht hu => absurd hu (hold t k n ht), ?_, ?_, hissued, ?_⟩
    · exact fun p hp' => absurd (hpend.symm.trans hp') (by simp)
    · exact fun p hp' => absurd (hpend.symm.trans hp') (by simp)
    · intro ha
      obtain ⟨⟨k, hk, hpr⟩, -⟩ := hs.proven (ha.imp (fun h' => hauth ▸ h') id)
      exact ⟨⟨k, hkey.trans hk, hasProof_iff.mpr (hgrow hpr)⟩,
        fun t k n ht hu => absurd hu (hold t k n ht)⟩

theorem keyProven_storeKey {n : Nat} {sender : HandleId} {key : PublicKey} {nonce : Nonce}
    (hi : s.tasks[n]? = some (.hello sender key nonce)) (hs : KeyProven sender.user s) :
    KeyProven sender.user (s.step cfg (env, .resume n)) := by
  have hmem : Task.hello sender key nonce ∈ s.tasks := (mem_resume hi).mpr (.inl rfl)
  obtain ⟨p, hp, hpk⟩ := hs.helloKey sender key nonce hmem rfl
  have hsub : ∀ t, t ∈ s.tasks.take n ++ [] ++ s.tasks.drop (n + 1) → t ∈ s.tasks := by
    intro t ht
    rw [List.append_nil] at ht
    exact (mem_resume hi).mpr (.inr ht)
  have hkey : ((s.world.storeHelloKey sender key nonce).state.conn sender.user).publicKey =
      some key := by simp [storeHelloKey, ServerState.setConn]
  have hauth : ((s.world.storeHelloKey sender key nonce).state.conn sender.user).authenticated =
      (s.world.state.conn sender.user).authenticated := by
    simp [storeHelloKey, ServerState.setConn]
  simp only [Sys.step, hi, Task.run, Option.toList_none]
  refine ⟨fun t k m ht hu => hs.helloKey t k m (hsub _ ht) hu, ?_, hs.pendingIssued,
    hs.proofIssued, ?_⟩
  · intro p' hp' _
    obtain rfl := Option.some.inj (hp.symm.trans hp')
    rw [hkey, hpk]
  · intro ha
    have ha' : (s.world.state.conn sender.user).authenticated = true ∨
        s.authOn sender.user = true := by
      refine ha.imp (fun h => hauth ▸ h) fun h => ?_
      obtain ⟨t, p, session, stage, ht, hu⟩ := authOn_iff.mp h
      exact authOn_iff.mpr ⟨t, p, session, stage, hsub _ ht, hu⟩
    obtain ⟨-, hall⟩ := hs.proven ha'
    exact ⟨⟨key, hkey, hall sender key nonce hmem rfl⟩,
      fun t k m ht hu => hall t k m (hsub _ ht) hu⟩

theorem keyProven_step {i : Env × Act} (hs : KeyProven u s) (ho : OrderlyHellos cfg u s i) :
    KeyProven u (s.step cfg i) := by
  obtain ⟨env, act⟩ := i
  cases act with
  | hello sender username publicKey password =>
    by_cases hu : sender.user = u
    · subst hu
      exact keyProven_hello hs ho
    · exact (sameHandshake_hello hu).keyProven hs
  | authenticate sender signature timestampMs cert =>
    by_cases hu : sender.user = u
    · subst hu
      exact keyProven_authenticate hs (ho rfl)
    · exact (sameHandshake_authenticate hu).keyProven hs
  | ban target d reason actor => exact sameHandshake_ban.keyProven hs
  | lost v => exact sameHandshake_lost.keyProven hs
  | resume n =>
    cases hi : s.tasks[n]? with
    | none => simpa only [Sys.step, hi] using hs
    | some task =>
      by_cases hhello : ∃ sender key nonce, task = .hello sender key nonce ∧ sender.user = u
      · obtain ⟨sender, key, nonce, rfl, rfl⟩ := hhello
        exact keyProven_storeKey hi hs
      · exact (sameHandshake_resume hi fun sender key nonce he hu =>
          hhello ⟨sender, key, nonce, he, hu⟩).keyProven hs

theorem nonceLedger_hello {sender : HandleId} {username : String} {publicKey : List UInt8}
    {password : Option String} (hs : NonceLedger sender.user s) :
    NonceLedger sender.user (s.step cfg (env, .hello sender username publicKey password)) := by
  rcases helloCheck_cases cfg env sender username publicKey password s.world with
    ⟨key, -, -, h⟩ | ⟨error, h⟩
  · simp only [Sys.step, h]
    intro n
    have hn := hs n
    have hget : (s.world.issueNonce env sender username key).state.pendingAuth.get sender.user =
        some { nonce := env.nonce, userId := sender.user, publicKey := key
               username := username } := Table.get_set_self _ _ _
    rw [hget, List.count_append]
    by_cases he : env.nonce = n
    · simp [he]
      omega
    · simp [he]
      omega
  · simp only [Sys.step, h]
    exact ((Touches.sendAuthFailed (S := [.log, .closed]) .refl _ _).sameHandshake
      (by decide)).nonceLedger hs

theorem nonceLedger_authenticate {sender : HandleId} {signature : List UInt8} {timestampMs : Int}
    {cert : Option SessionCertificate} (hs : NonceLedger sender.user s) :
    NonceLedger sender.user
      (s.step cfg (env, .authenticate sender signature timestampMs cert)) := by
  obtain ⟨hpend, -⟩ := authCheck_state cfg env sender signature timestampMs cert s.world
  have hpend := (hpend sender.user).trans (if_pos rfl)
  rcases authCheck_cases cfg env sender signature timestampMs cert s.world with
    ⟨pending, session, hp, -, -, -, h⟩ | ⟨w', error, -, h⟩
  · rw [h] at hpend
    simp only [Sys.step, h]
    intro n
    have hn := hs n
    rw [hp] at hn
    rw [hpend, List.count_append]
    by_cases he : pending.nonce = n
    · simp [he] at hn ⊢
      omega
    · simp [he] at hn ⊢
      omega
  · rw [h] at hpend
    simp only [Sys.step, h]
    intro n
    have hn := hs n
    rw [hpend]
    simp
    omega

theorem nonceLedger_step {i : Env × Act} (hs : NonceLedger u s) : NonceLedger u (s.step cfg i) := by
  obtain ⟨env, act⟩ := i
  cases act with
  | hello sender username publicKey password =>
    by_cases hu : sender.user = u
    · subst hu
      exact nonceLedger_hello hs
    · exact (sameHandshake_hello hu).nonceLedger hs
  | authenticate sender signature timestampMs cert =>
    by_cases hu : sender.user = u
    · subst hu
      exact nonceLedger_authenticate hs
    · exact (sameHandshake_authenticate hu).nonceLedger hs
  | ban target d reason actor => exact sameHandshake_ban.nonceLedger hs
  | lost v => exact sameHandshake_lost.nonceLedger hs
  | resume n =>
    cases hi : s.tasks[n]? with
    | none => simpa only [Sys.step, hi] using hs
    | some task =>
      by_cases hhello : ∃ sender key nonce, task = .hello sender key nonce
      · obtain ⟨sender, key, nonce, rfl⟩ := hhello
        simp only [Sys.step, hi, Task.run]
        exact hs
      · exact (sameHandshake_resume hi fun sender key nonce he _ =>
          hhello ⟨sender, key, nonce, he⟩).nonceLedger hs

end Steps

/-- **Proven identity.** From any state of the server in which connection `u` has not begun to
authenticate, in every interleaving in which its hellos stay in order, `u` carries a key for which
a signature over a nonce issued to it was verified whenever it is authenticated. In every
interleaving at all, no nonce is accepted more often than it was issued. -/
theorem authenticated_key_proven {cfg : Config} {w : World} {u : UserId} {acts : List (Env × Act)}
    (hauth : (w.state.conn u).authenticated = false) (hpend : w.state.pendingAuth.get u = none)
    {s : Sys} (hs : acts.foldl (Sys.step cfg) (Sys.init w) = s) :
    (Always (Sys.step cfg) (OrderlyHellos cfg u) (Sys.init w) acts →
      (s.world.state.conn u).authenticated = true →
        ∃ key nonce, (s.world.state.conn u).publicKey = some key ∧
          (u, key, nonce) ∈ s.proven ∧ (u, nonce) ∈ s.issued) ∧
    ∀ nonce, s.accepted.count (u, nonce) ≤ s.issued.count (u, nonce) := by
  subst hs
  constructor
  · intro horder ha
    have hinit : KeyProven u (Sys.init w) := by
      refine ⟨?_, ?_, ?_, ?_, ?_⟩ <;> simp [Sys.init, Sys.authOn, hauth, hpend]
    have hinv := horder.invariant (I := KeyProven u) (fun s i ho h => keyProven_step h ho) hinit
    obtain ⟨⟨key, hkey, hproof⟩, -⟩ := hinv.proven (.inl ha)
    obtain ⟨nonce, hn⟩ := hasProof_iff.mp hproof
    exact ⟨key, nonce, hkey, hn, hinv.proofIssued key nonce hn⟩
  · intro n
    have hinit : NonceLedger u (Sys.init w) := by
      intro n
      simp [Sys.init, hpend]
    have hn : NonceLedger u (acts.foldl (Sys.step cfg) (Sys.init w)) :=
      List.foldlRecOn acts (Sys.step cfg) hinit fun s h i _ => nonceLedger_step h
    have hn := hn n
    omega

/-- The pieces of a login on the control stream of connection 1, run back to back. -/
def sampleLoginActs (key : PublicKey) : List (Env × Act) :=
  [(sampleEnv, .hello (primary 1) "ann" key.data none), (sampleEnv, .resume 0),
    (sampleEnv, .authenticate (primary 1) (List.replicate 64 0) 0 (some sampleCert)),
    (sampleEnv, .resume 0)]

/-- The server with one fresh connection. -/
def sampleConnected : World := step sampleConfig sampleEnv (World.init sampleStore) .connect

theorem authenticated_key_proven_login :
    ∃ key nonce, (((sampleLoginActs (Bytes.rep 32 9)).foldl (Sys.step sampleConfig)
        (Sys.init sampleConnected)).world.state.conn 1).publicKey = some key ∧
      (1, key, nonce) ∈ ((sampleLoginActs (Bytes.rep 32 9)).foldl (Sys.step sampleConfig)
        (Sys.init sampleConnected)).proven ∧
      (1, nonce) ∈ ((sampleLoginActs (Bytes.rep 32 9)).foldl (Sys.step sampleConfig)
        (Sys.init sampleConnected)).issued :=
  (authenticated_key_proven (by decide +kernel) (by decide +kernel) rfl).1 (by decide +kernel)
    (by decide +kernel)

/-- A hello with another key after the login. -/
def sampleSecondHello : List (Env × Act) :=
  sampleLoginActs (Bytes.rep 32 9) ++
    [(sampleEnv, .hello (primary 1) "ann" (Bytes.rep 32 8).data none), (sampleEnv, .resume 1)]

/-- After it the connection stays authenticated and now carries a
key that nobody proved. -/
theorem not_authenticated_key_proven_second_hello :
    let s := sampleSecondHello.foldl (Sys.step sampleConfig) (Sys.init sampleConnected)
    (s.world.state.conn 1).authenticated = true ∧
      (s.world.state.conn 1).publicKey = some (Bytes.rep 32 8) ∧
      ∀ nonce, (1, Bytes.rep 32 8, nonce) ∉ s.proven := by
  intro s
  refine ⟨by decide +kernel, by decide +kernel, fun nonce hn => ?_⟩
  have hnone : s.hasProof 1 (Bytes.rep 32 8) = false := by decide +kernel
  exact Bool.false_ne_true (hnone.symm.trans (hasProof_iff.mpr ⟨nonce, hn⟩))

end Rumble.Server
