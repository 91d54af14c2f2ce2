import Rumble.Lib.Pool
import Rumble.Server.Persistence

/-!
# First-run bootstrap

`server/src/web/auth.rs`, `bootstrap`: the check for a password in force, the hashing and the write
are separate pieces of a request, and the admin key is read after the write. `bootstrap_run` covers
every run in which a password is stored only by a request with a usable key and while none is in
force, and no membership write fails.
-/

namespace Rumble.Web

open Rumble.Lib Rumble.Lib.Transition Rumble.Server

/-! ## Requests and answers -/

structure BootstrapRequest where
  setupToken : String
  sudoPassword : String
  adminPublicKeyB64 : Option String
  deriving DecidableEq

structure ApiErrorResponse where
  status : Nat
  message : String
  deriving DecidableEq

namespace ApiErrorResponse

def badRequest (message : String) : ApiErrorResponse := ⟨400, message⟩

def unauthorized : ApiErrorResponse := ⟨401, "Not authenticated"⟩

def conflict (message : String) : ApiErrorResponse := ⟨409, message⟩

def internal (message : String) : ApiErrorResponse := ⟨500, message⟩

end ApiErrorResponse

structure OkMessage where
  message : String
  deriving DecidableEq

/-! ## The pieces of a request -/

/-- What a request does next. From `groupsEmpty` on the password is stored. -/
inductive BootstrapPhase where
  | check
  | hash
  | setSudoPassword (hash : String)
  | groupsEmpty (key : PublicKey)
  | createDefault (key : PublicKey)
  | createAdmin (key : PublicKey)
  | getAdmin (key : PublicKey)
  | hasAdmin (key : PublicKey) (permissions : BitVec 32)
  | setAdmin (key : PublicKey) (permissions : BitVec 32)
  | updateUserGroups (key : PublicKey)
  | setGroupExpiry (key : PublicKey)
  | flush
  deriving DecidableEq

def BootstrapPhase.stored : BootstrapPhase → Bool
  | check | hash | setSudoPassword _ => false
  | _ => true

/-- The salt of a hash, the error of a blocking task that is lost, and the error of a tree
operation that fails. -/
structure BootstrapEnv where
  salt : Nat
  lost : Option String
  fault : Option String
  deriving DecidableEq

abbrev BootstrapResult := Except ApiErrorResponse OkMessage

section Pieces

-- `bcrypt::hash` with a salt, and `base64`'s decoder.
variable (bcrypt : Nat → String → Except String String)
  (decode : String → Except String (List UInt8))

/-- The key to seed, if the request names one. -/
def BootstrapRequest.adminKey (r : BootstrapRequest) : Except ApiErrorResponse (Option PublicKey) :=
  match r.adminPublicKeyB64.filter (· ≠ "") with
  | none => .ok none
  | some keyB64 =>
    match decode keyB64 with
    | .error e => .error (.badRequest ("Invalid base64 public key: " ++ e))
    | .ok keyBytes =>
      match Bytes.ofList? 32 keyBytes with
      | none => .error (.badRequest "Public key must be 32 bytes")
      | some key => .ok (some key)

/-- One piece over the store: what is next, or the answer. `ensure_default_groups` runs from
`groupsEmpty` to `setAdmin`, its errors are dropped, and a read that fails finds nothing. -/
def bootstrapPiece (setupToken : String) (env : BootstrapEnv) (store : Persistence)
    (r : BootstrapRequest) : BootstrapPhase → Persistence × (BootstrapPhase ⊕ BootstrapResult)
  | .check =>
    (store,
      if env.fault = none ∧ store.sudoPassword.isSome then
        .inr (.error (.conflict "Already bootstrapped"))
      else if r.setupToken ≠ setupToken then .inr (.error .unauthorized)
      else if r.sudoPassword = "" then
        .inr (.error (.badRequest "Sudo password cannot be empty"))
      else .inl .hash)
  | .hash =>
    (store,
      match env.lost with
      | some e => .inr (.error (.internal ("Hashing task failed: " ++ e)))
      | none =>
        match bcrypt env.salt r.sudoPassword with
        | .error e => .inr (.error (.badRequest ("Failed to hash password: " ++ e)))
        | .ok hash => .inl (.setSudoPassword hash))
  | .setSudoPassword hash =>
    match env.fault with
    | some e => (store, .inr (.error (.badRequest ("Failed to set sudo password: " ++ e))))
    | none =>
      ({ store with sudoPassword := some hash },
        match r.adminKey decode with
        | .error e => .inr (.error e)
        | .ok none => .inl .flush
        | .ok (some key) => .inl (.groupsEmpty key))
  | .groupsEmpty key =>
    (store, .inl (if env.fault = none ∧ store.groups.entries.isEmpty then .createDefault key
      else .getAdmin key))
  | .createDefault key =>
    match env.fault with
    | some _ => (store, .inl (.updateUserGroups key))
    | none => (store.createGroup "default" Permissions.defaultPermissions, .inl (.createAdmin key))
  | .createAdmin key =>
    match env.fault with
    | some _ => (store, .inl (.updateUserGroups key))
    | none => (store.createGroup "admin" Permissions.adminPermissions, .inl (.getAdmin key))
  | .getAdmin key =>
    (store,
      match (if env.fault = none then store.getGroup "admin" else none) with
      | none => .inl (.updateUserGroups key)
      | some g =>
        let perms := Permissions.fromBitsTruncate g
        if perms.contains Permissions.banned then
          .inl (.hasAdmin key (perms &&& ~~~ Permissions.banned))
        else .inl (.updateUserGroups key))
  | .hasAdmin key permissions =>
    (store, .inl (if env.fault = none ∧ (store.groups.get "admin").isSome then
      .setAdmin key permissions else .updateUserGroups key))
  | .setAdmin key permissions =>
    (if env.fault = none then store.createGroup "admin" permissions else store,
      .inl (.updateUserGroups key))
  | .updateUserGroups key =>
    match env.fault with
    | some e => (store, .inr (.error (.badRequest ("Failed to add admin: " ++ e))))
    | none =>
      (store.updateUserGroups key fun gs => if "admin" ∈ gs then gs else gs ++ ["admin"],
        .inl (.setGroupExpiry key))
  | .setGroupExpiry key =>
    match env.fault with
    | some e => (store, .inr (.error (.badRequest ("Failed to add admin: " ++ e))))
    | none => (store.setGroupExpiry key "admin" 0, .inl .flush)
  | .flush => (store, .inr (.ok ⟨"Bootstrap complete"⟩))

/-! ## Requests under way -/

/-- A request with the store before and after each of its pieces. -/
structure Bootstrap where
  request : BootstrapRequest
  phase : BootstrapPhase
  own : List (Persistence × Persistence)

structure BootstrapAnswer where
  request : BootstrapRequest
  response : BootstrapResult
  own : List (Persistence × Persistence)

def BootstrapAnswer.isOk (a : BootstrapAnswer) : Bool := a.response.isOk

structure BootstrapWorld where
  store : Persistence
  setupToken : String
  answers : List BootstrapAnswer

namespace BootstrapWorld

variable (w : BootstrapWorld)

/-- The piece `next` of `t` is done. -/
def advance (t : Bootstrap) (next : Persistence × (BootstrapPhase ⊕ BootstrapResult)) :
    BootstrapWorld × Option Bootstrap :=
  let own := t.own ++ [(w.store, next.1)]
  match next.2 with
  | .inl phase => ({ w with store := next.1 }, some { t with phase := phase, own := own })
  | .inr response =>
    ({ w with store := next.1, answers := w.answers ++ [⟨t.request, response, own⟩] }, none)

def resume (env : BootstrapEnv) (t : Bootstrap) : BootstrapWorld × Option Bootstrap :=
  w.advance t (bootstrapPiece bcrypt decode w.setupToken env w.store t.request t.phase)

def new (store : Persistence) (setupToken : String) : BootstrapWorld := ⟨store, setupToken, []⟩

end BootstrapWorld

def bootstrapProgram : Interleaved BootstrapEnv BootstrapWorld BootstrapRequest Bootstrap where
  start env w r := w.resume bcrypt decode env ⟨r, .check, []⟩
  resume env w t := w.resume bcrypt decode env t

end Pieces

/-! ## The property and its condition -/

section Property

variable (bcrypt : Nat → String → Except String String)
  (decode : String → Except String (List UInt8))

/-- The password in force is `password`, hashed. -/
def InForce (password : String) (store : Persistence) : Prop :=
  ∃ salt hash, bcrypt salt password = .ok hash ∧ store.sudoPassword = some hash

/-- The sudo password, the groups and the memberships are the same. -/
structure SameSetup (p q : Persistence) : Prop where
  sudoPassword : q.sudoPassword = p.sudoPassword
  groups : q.groups = p.groups
  userGroups : q.userGroups = p.userGroups
  groupExpiries : q.groupExpiries = p.groupExpiries

/-- At most one request succeeded, its password is in force, and a request that failed changed
nothing. -/
structure BootstrapsOnce (w : BootstrapWorld) : Prop where
  once : w.answers.countP (·.isOk) ≤ 1
  inForce : ∀ a ∈ w.answers, a.isOk = true → InForce bcrypt a.request.sudoPassword w.store
  unchanged : ∀ a ∈ w.answers, a.isOk = false → ∀ e ∈ a.own, SameSetup e.1 e.2

/-- A password is stored by a request with a usable key, while none is in force; the membership
writes succeed. -/
def Unspoilt (env : BootstrapEnv) (w : BootstrapWorld) (t : Bootstrap) : Prop :=
  match t.phase with
  | .setSudoPassword _ => env.fault = none →
      w.store.sudoPassword = none ∧ (t.request.adminKey decode).isOk = true
  | .updateUserGroups _ | .setGroupExpiry _ => env.fault = none
  | _ => True

/-- The condition on a move: a request may arrive at any time. -/
def BootstrapMove : Pool BootstrapWorld Bootstrap → BootstrapEnv × Pick BootstrapRequest → Prop :=
  Interleaved.Meets (fun _ _ _ => True) (Unspoilt decode)

end Property

/-! ## What a piece does -/

section Proof

variable (bcrypt : Nat → String → Except String String)
  (decode : String → Except String (List UInt8))

/-- Before the password is stored, nothing changes; a hash that comes out is one of the
password. -/
theorem bootstrapPiece_before (setupToken : String) {env : BootstrapEnv} (store : Persistence)
    (r : BootstrapRequest) {phase : BootstrapPhase}
    (h : phase = .check ∨ phase = .hash ∨ ∃ hash, phase = .setSudoPassword hash ∧ env.fault ≠ none) :
    ∃ out, bootstrapPiece bcrypt decode setupToken env store r phase = (store, out) ∧
      ((∃ e, out = .inr (.error e)) ∨ out = .inl .hash ∨
        ∃ salt hash, bcrypt salt r.sudoPassword = .ok hash ∧ out = .inl (.setSudoPassword hash)) := by
  refine ⟨_, Prod.ext ?_ rfl, ?_⟩
  · rcases h with rfl | rfl | ⟨hash, rfl, hfault⟩
    · rfl
    · rfl
    · dsimp only [bootstrapPiece]
      cases hf : env.fault with
      | none => exact absurd hf hfault
      | some e => rfl
  · rcases h with rfl | rfl | ⟨hash, rfl, hfault⟩
    · dsimp only [bootstrapPiece]
      split
      · exact .inl ⟨_, rfl⟩
      split
      · exact .inl ⟨_, rfl⟩
      split
      · exact .inl ⟨_, rfl⟩
      · exact .inr (.inl rfl)
    · dsimp only [bootstrapPiece]
      split
      · exact .inl ⟨_, rfl⟩
      split
      · exact .inl ⟨_, rfl⟩
      · rename_i hash hhash
        exact .inr (.inr ⟨_, hash, hhash, rfl⟩)
    · dsimp only [bootstrapPiece]
      cases hf : env.fault with
      | none => exact absurd hf hfault
      | some e => exact .inl ⟨_, rfl⟩

/-- The password is stored, with a usable key. -/
theorem bootstrapPiece_setSudoPassword (setupToken : String) {env : BootstrapEnv}
    (store : Persistence) {r : BootstrapRequest} (hash : String) (hfault : env.fault = none)
    (hkey : (r.adminKey decode).isOk = true) :
    ∃ phase, bootstrapPiece bcrypt decode setupToken env store r (.setSudoPassword hash) =
      ({ store with sudoPassword := some hash }, .inl phase) ∧ phase.stored = true := by
  dsimp only [bootstrapPiece]
  rw [hfault]
  dsimp only
  cases hk : r.adminKey decode with
  | error e => rw [hk] at hkey; exact Bool.noConfusion hkey
  | ok key =>
    cases key with
    | none => exact ⟨_, rfl, rfl⟩
    | some key => exact ⟨_, rfl, rfl⟩

/-- After it the password stays, and the request succeeds unless a membership write fails. -/
theorem bootstrapPiece_after (setupToken : String) {env : BootstrapEnv} (store : Persistence)
    (r : BootstrapRequest) {phase : BootstrapPhase} (hstored : phase.stored = true)
    (hfault : ∀ key, phase = .updateUserGroups key ∨ phase = .setGroupExpiry key →
      env.fault = none) :
    ∃ store' out, bootstrapPiece bcrypt decode setupToken env store r phase = (store', out) ∧
      store'.sudoPassword = store.sudoPassword ∧
      ((∃ phase', out = .inl phase' ∧ phase'.stored = true) ∨ ∃ m, out = .inr (.ok m)) := by
  refine ⟨_, _, rfl, ?_⟩
  cases phase with
  | check => exact Bool.noConfusion hstored
  | hash => exact Bool.noConfusion hstored
  | setSudoPassword hash => exact Bool.noConfusion hstored
  | groupsEmpty key =>
    dsimp only [bootstrapPiece]
    split
    · exact ⟨rfl, .inl ⟨_, rfl, rfl⟩⟩
    · exact ⟨rfl, .inl ⟨_, rfl, rfl⟩⟩
  | createDefault key =>
    dsimp only [bootstrapPiece]
    split
    · exact ⟨rfl, .inl ⟨_, rfl, rfl⟩⟩
    · exact ⟨rfl, .inl ⟨_, rfl, rfl⟩⟩
  | createAdmin key =>
    dsimp only [bootstrapPiece]
    split
    · exact ⟨rfl, .inl ⟨_, rfl, rfl⟩⟩
    · exact ⟨rfl, .inl ⟨_, rfl, rfl⟩⟩
  | getAdmin key =>
    refine ⟨rfl, .inl ?_⟩
    dsimp only [bootstrapPiece]
    split
    · exact ⟨_, rfl, rfl⟩
    split
    · exact ⟨_, rfl, rfl⟩
    · exact ⟨_, rfl, rfl⟩
  | hasAdmin key permissions =>
    refine ⟨rfl, .inl ?_⟩
    dsimp only [bootstrapPiece]
    split
    · exact ⟨_, rfl, rfl⟩
    · exact ⟨_, rfl, rfl⟩
  | setAdmin key permissions =>
    dsimp only [bootstrapPiece]
    split
    · exact ⟨rfl, .inl ⟨_, rfl, rfl⟩⟩
    · exact ⟨rfl, .inl ⟨_, rfl, rfl⟩⟩
  | updateUserGroups key =>
    dsimp only [bootstrapPiece]
    rw [hfault key (.inl rfl)]
    exact ⟨rfl, .inl ⟨_, rfl, rfl⟩⟩
  | setGroupExpiry key =>
    dsimp only [bootstrapPiece]
    rw [hfault key (.inr rfl)]
    exact ⟨rfl, .inl ⟨_, rfl, rfl⟩⟩
  | flush => exact ⟨rfl, .inr ⟨_, rfl⟩⟩

/-! ## The invariant -/

variable {bcrypt : Nat → String → Except String String}
  {decode : String → Except String (List UInt8)}

/-- No request has succeeded. -/
def BootstrapWorld.Unclaimed (w : BootstrapWorld) : Prop := ∀ a ∈ w.answers, a.isOk = false

variable (bcrypt) in
/-- A request past its write has the password in force, and none has succeeded; before it, it has
changed nothing. -/
structure Bootstrap.Sound (w : BootstrapWorld) (t : Bootstrap) : Prop where
  after : t.phase.stored = true → InForce bcrypt t.request.sudoPassword w.store ∧ w.Unclaimed
  before : t.phase.stored = false → ∀ e ∈ t.own, e.1 = e.2
  hashed : ∀ hash, t.phase = .setSudoPassword hash →
    ∃ salt, bcrypt salt t.request.sudoPassword = .ok hash

/-- Two requests are not both past their writes. -/
def Bootstrap.Apart (t t' : Bootstrap) : Prop :=
  t.phase.stored = true → t'.phase.stored = false

theorem SameSetup.refl (p : Persistence) : SameSetup p p := ⟨rfl, rfl, rfl, rfl⟩

theorem BootstrapWorld.Unclaimed.snoc {w : BootstrapWorld} {a : BootstrapAnswer}
    (h : w.Unclaimed) (ha : a.isOk = false) (store : Persistence) :
    BootstrapWorld.Unclaimed { w with store := store, answers := w.answers ++ [a] } := by
  intro b hb
  rcases List.mem_append.mp hb with hb | hb
  · exact h b hb
  · rwa [List.mem_singleton.mp hb]

/-- Nobody has succeeded while no password is in force. -/
theorem BootstrapsOnce.unclaimed {w : BootstrapWorld} (h : BootstrapsOnce bcrypt w)
    (hnone : w.store.sudoPassword = none) : w.Unclaimed := by
  intro a ha
  by_contra hok
  obtain ⟨salt, hash, -, hforce⟩ := h.inForce a ha (Bool.eq_true_of_not_eq_false hok)
  rw [hnone] at hforce
  exact Option.some_ne_none hash hforce.symm

/-- While nobody has succeeded the store may change. -/
theorem BootstrapsOnce.setStore {w : BootstrapWorld} (h : BootstrapsOnce bcrypt w)
    (hu : w.Unclaimed) (store : Persistence) : BootstrapsOnce bcrypt { w with store := store } :=
  ⟨h.once, fun a ha hok => absurd hok (by simp [hu a ha]), h.unchanged⟩

theorem Bootstrap.Apart.symm {t t' : Bootstrap} (h : t.Apart t') : t'.Apart t := by
  intro ht'
  by_contra ht
  rw [h (Bool.eq_true_of_not_eq_false ht)] at ht'
  exact Bool.noConfusion ht'

/-- A request fails that has changed nothing. -/
theorem BootstrapsOnce.reject {w : BootstrapWorld} (h : BootstrapsOnce bcrypt w)
    {a : BootstrapAnswer} (ha : a.isOk = false) (hown : ∀ e ∈ a.own, e.1 = e.2) :
    BootstrapsOnce bcrypt { w with answers := w.answers ++ [a] } where
  once := by
    show List.countP (·.isOk) (w.answers ++ [a]) ≤ 1
    rw [List.countP_append, List.countP_singleton, ha]
    exact h.once
  inForce b hb hok := by
    rcases List.mem_append.mp hb with hb | hb
    · exact h.inForce b hb hok
    · rw [List.mem_singleton.mp hb, ha] at hok
      exact Bool.noConfusion hok
  unchanged b hb hok e he := by
    rcases List.mem_append.mp hb with hb | hb
    · exact h.unchanged b hb hok e he
    · rw [List.mem_singleton.mp hb] at he
      exact hown e he ▸ SameSetup.refl e.1

/-- The first request succeeds. -/
theorem BootstrapsOnce.accept {w : BootstrapWorld} (h : BootstrapsOnce bcrypt w)
    (hu : w.Unclaimed) {a : BootstrapAnswer} {store : Persistence} (ha : a.isOk = true)
    (hforce : InForce bcrypt a.request.sudoPassword store) :
    BootstrapsOnce bcrypt { w with store := store, answers := w.answers ++ [a] } where
  once := by
    show List.countP (·.isOk) (w.answers ++ [a]) ≤ 1
    have hzero : w.answers.countP (·.isOk) = 0 :=
      List.countP_eq_zero.mpr fun b hb hok => by rw [hu b hb] at hok; exact Bool.noConfusion hok
    rw [List.countP_append, hzero, List.countP_singleton, ha]
    exact Nat.le_refl 1
  inForce b hb hok := by
    rcases List.mem_append.mp hb with hb | hb
    · rw [hu b hb] at hok
      exact Bool.noConfusion hok
    · rw [List.mem_singleton.mp hb]
      exact hforce
  unchanged b hb hok := by
    rcases List.mem_append.mp hb with hb | hb
    · exact h.unchanged b hb hok
    · rw [List.mem_singleton.mp hb, ha] at hok
      exact Bool.noConfusion hok

variable {env : BootstrapEnv} {w : BootstrapWorld} {t : Bootstrap}

/-- A request before its write is sound in any state. -/
theorem Bootstrap.Sound.early {w' : BootstrapWorld} (h : t.Sound bcrypt w)
    (ht : t.phase.stored = false) : t.Sound bcrypt w' :=
  ⟨fun hs => absurd hs (by simp [ht]), h.before, h.hashed⟩

abbrev KeepsBootstrap (bcrypt : Nat → String → Except String String) (t : Bootstrap)
    (w : BootstrapWorld) (next : BootstrapWorld × Option Bootstrap) : Prop :=
  Interleaved.Keeps (BootstrapsOnce bcrypt) (Bootstrap.Sound bcrypt) Bootstrap.Apart t.Apart w next

/-- A piece before the write. -/
theorem keeps_before (h : BootstrapsOnce bcrypt w) (ht : t.Sound bcrypt w)
    (hphase : t.phase = .check ∨ t.phase = .hash ∨
      ∃ hash, t.phase = .setSudoPassword hash ∧ env.fault ≠ none) :
    KeepsBootstrap bcrypt t w (w.resume bcrypt decode env t) := by
  have hbefore : t.phase.stored = false := by
    rcases hphase with hp | hp | ⟨hash, hp, -⟩ <;> rw [hp] <;> rfl
  have hown : ∀ e ∈ t.own ++ [(w.store, w.store)], e.1 = e.2 := by
    intro e he
    rcases List.mem_append.mp he with he | he
    · exact ht.before hbefore e he
    · rw [List.mem_singleton.mp he]
  obtain ⟨out, hpiece, hout⟩ := bootstrapPiece_before bcrypt decode w.setupToken w.store
    t.request hphase
  unfold BootstrapWorld.resume
  rw [hpiece]
  rcases hout with ⟨e, rfl⟩ | rfl | ⟨salt, hash, hhash, rfl⟩
  · refine ⟨h.reject rfl hown, fun _ hnone => (Option.not_mem_none _ hnone).elim,
      fun t' _ ht' => ⟨fun hs => ?_, ht'.before, ht'.hashed⟩,
      fun _ hnone => (Option.not_mem_none _ hnone).elim⟩
    exact ⟨(ht'.after hs).1, (ht'.after hs).2.snoc rfl w.store⟩
  · refine ⟨h, fun t' hmem => ?_, fun t' _ ht' => ht', fun t' hmem t'' _ _ hs => ?_⟩
    · obtain rfl := Option.some.inj hmem
      exact ⟨fun hs => Bool.noConfusion hs, fun _ => hown, fun hash hp => nomatch hp⟩
    · obtain rfl := Option.some.inj hmem
      exact Bool.noConfusion hs
  · refine ⟨h, fun t' hmem => ?_, fun t' _ ht' => ht', fun t' hmem t'' _ _ hs => ?_⟩
    · obtain rfl := Option.some.inj hmem
      refine ⟨fun hs => Bool.noConfusion hs, fun _ => hown, fun hash' hp => ⟨salt, ?_⟩⟩
      obtain rfl := BootstrapPhase.setSudoPassword.inj hp
      exact hhash
    · obtain rfl := Option.some.inj hmem
      exact Bool.noConfusion hs

/-- The write. No other request is past its own, as no password was in force. -/
theorem keeps_setSudoPassword (h : BootstrapsOnce bcrypt w) (ht : t.Sound bcrypt w) {hash : String}
    (hphase : t.phase = .setSudoPassword hash) (hfault : env.fault = none)
    (hnone : w.store.sudoPassword = none) (hkey : (t.request.adminKey decode).isOk = true) :
    KeepsBootstrap bcrypt t w (w.resume bcrypt decode env t) := by
  have hu := h.unclaimed hnone
  have hothers : ∀ t' : Bootstrap, t'.Sound bcrypt w → t'.phase.stored = false := by
    intro t' ht'
    by_contra hs
    obtain ⟨⟨_, hash', -, hforce⟩, -⟩ := ht'.after (Bool.eq_true_of_not_eq_false hs)
    rw [hnone] at hforce
    exact Option.some_ne_none hash' hforce.symm
  obtain ⟨salt, hhash⟩ := ht.hashed hash hphase
  obtain ⟨phase, hpiece, hstored⟩ := bootstrapPiece_setSudoPassword bcrypt decode
    w.setupToken w.store hash hfault hkey
  unfold BootstrapWorld.resume
  rw [hphase, hpiece]
  refine ⟨h.setStore hu _, fun t' hmem => ?_, fun t' _ ht' => ht'.early (hothers t' ht'),
    fun t' hmem t'' _ ht'' _ => hothers t'' ht''⟩
  obtain rfl := Option.some.inj hmem
  refine ⟨fun _ => ⟨⟨salt, hash, hhash, rfl⟩, hu⟩, fun hs => ?_, fun hash' hp => ?_⟩
  · rw [show phase.stored = false from hs] at hstored
    exact Bool.noConfusion hstored
  · rw [show phase = .setSudoPassword hash' from hp] at hstored
    exact Bool.noConfusion hstored

/-- A piece after it. -/
theorem keeps_after (h : BootstrapsOnce bcrypt w) (ht : t.Sound bcrypt w)
    (hstored : t.phase.stored = true)
    (hfault : ∀ key, t.phase = .updateUserGroups key ∨ t.phase = .setGroupExpiry key →
      env.fault = none) :
    KeepsBootstrap bcrypt t w (w.resume bcrypt decode env t) := by
  obtain ⟨⟨salt, hash, hhash, hforce⟩, hu⟩ := ht.after hstored
  obtain ⟨store, out, hpiece, hpassword, hout⟩ := bootstrapPiece_after bcrypt decode
    w.setupToken w.store t.request hstored hfault
  have hforce' : InForce bcrypt t.request.sudoPassword store :=
    ⟨salt, hash, hhash, hpassword.trans hforce⟩
  unfold BootstrapWorld.resume
  rw [hpiece]
  rcases hout with ⟨phase, rfl, hstored'⟩ | ⟨m, rfl⟩
  · refine ⟨h.setStore hu _, fun t' hmem => ?_, fun t' hX ht' => ht'.early (hX hstored),
      fun t' hmem t'' hX _ _ => hX hstored⟩
    obtain rfl := Option.some.inj hmem
    refine ⟨fun _ => ⟨hforce', hu⟩, fun hs => ?_, fun hash' hp => ?_⟩
    · rw [show phase.stored = false from hs] at hstored'
      exact Bool.noConfusion hstored'
    · rw [show phase = .setSudoPassword hash' from hp] at hstored'
      exact Bool.noConfusion hstored'
  · exact ⟨h.accept hu rfl hforce', fun _ hmem => (Option.not_mem_none _ hmem).elim,
      fun t' hX ht' => ht'.early (hX hstored), fun _ hmem => (Option.not_mem_none _ hmem).elim⟩

/-- **One piece** of a request. -/
theorem keeps_resume (h : BootstrapsOnce bcrypt w) (ht : t.Sound bcrypt w)
    (hok : Unspoilt decode env w t) :
    KeepsBootstrap bcrypt t w (w.resume bcrypt decode env t) := by
  unfold Unspoilt at hok
  by_cases hstored : t.phase.stored = true
  · refine keeps_after h ht hstored fun key hp => ?_
    rcases hp with hp | hp
    · rwa [hp] at hok
    · rwa [hp] at hok
  cases hp : t.phase with
  | check => exact keeps_before h ht (.inl hp)
  | hash => exact keeps_before h ht (.inr (.inl hp))
  | setSudoPassword hash =>
    rw [hp] at hok
    by_cases hfault : env.fault = none
    · obtain ⟨hnone, hkey⟩ := hok hfault
      exact keeps_setSudoPassword h ht hp hfault hnone hkey
    · exact keeps_before h ht (.inr (.inr ⟨hash, hp, hfault⟩))
  | _ => exact absurd (by rw [hp]; rfl) hstored

end Proof

/-! ## Every run -/

/-- **Bootstrap happens once** in every run, over any interleaving of its requests, in which a
password is stored only with a usable key and while none is in force, and the membership writes
succeed. -/
theorem bootstrap_run (bcrypt : Nat → String → Except String String)
    (decode : String → Except String (List UInt8)) (store : Persistence) (setupToken : String)
    (moves : List (BootstrapEnv × Pick BootstrapRequest))
    (h : Always (bootstrapProgram bcrypt decode).step (BootstrapMove decode)
      ⟨.new store setupToken, []⟩ moves) :
    ∀ pre, pre <+: moves → BootstrapsOnce bcrypt
      ((bootstrapProgram bcrypt decode).run ⟨.new store setupToken, []⟩ pre).shared := by
  intro pre hpre
  have hinit : Interleaved.Holds (BootstrapsOnce bcrypt) (Bootstrap.Sound bcrypt) Bootstrap.Apart
      ⟨.new store setupToken, []⟩ :=
    ⟨⟨Nat.zero_le 1, fun _ ha => (List.not_mem_nil ha).elim,
      fun _ ha => (List.not_mem_nil ha).elim⟩, fun _ ht => (List.not_mem_nil ht).elim, .nil⟩
  refine (h.invariant_all (fun p m hm hp => ?_) hinit hpre).shared
  refine Interleaved.holds_step _ Bootstrap.Apart.symm (fun env w r _ hw => ?_)
    (fun env w t hok hw ht => keeps_resume hw ht hok) hm hp
  have hnew : Bootstrap.Sound bcrypt w ⟨r, .check, []⟩ :=
    ⟨fun hs => Bool.noConfusion hs, fun _ _ he => (List.not_mem_nil he).elim, fun _ hp => nomatch hp⟩
  exact (keeps_resume hw hnew trivial).mono fun _ _ hs => Bool.noConfusion hs

instance (decode : String → Except String (List UInt8)) (p : Pool BootstrapWorld Bootstrap)
    (m : BootstrapEnv × Pick BootstrapRequest) : Decidable (BootstrapMove decode p m) := by
  have : ∀ env w t, Decidable (Unspoilt decode env w t) := fun env w t => by
    unfold Unspoilt
    split <;> infer_instance
  unfold BootstrapMove
  infer_instance

/-- Stands for the password hash. -/
def sampleBcrypt (salt : Nat) (password : String) : Except String String :=
  .ok (toString salt ++ "$" ++ password)

/-- Thirty-two times the byte 9, in base64. -/
def sampleKeyB64 : String := "CQkJCQkJCQkJCQkJCQkJCQkJCQkJCQkJCQkJCQkJCQk="

/-- Stands for the base64 decoder. -/
def sampleDecode (s : String) : Except String (List UInt8) :=
  if s = sampleKeyB64 then .ok (List.replicate 32 9) else .error "Invalid symbol 33, offset 0."

def sampleBootstrapStart (token password : String) (key : Option String) :
    BootstrapEnv × Pick BootstrapRequest := (⟨0, none, none⟩, .start ⟨token, password, key⟩)

def sampleBootstrapResume (salt : Nat) : BootstrapEnv × Pick BootstrapRequest :=
  (⟨salt, none, none⟩, .resume 0)

/-- A second request with a wrong token, while the first is under way, and a third after it. -/
def sampleBootstraps : List (BootstrapEnv × Pick BootstrapRequest) :=
  [sampleBootstrapStart "token" "sesame" (some sampleKeyB64), sampleBootstrapResume 7,
    sampleBootstrapStart "guess" "open" none] ++
  (List.range 8).map sampleBootstrapResume ++ [sampleBootstrapStart "token" "again" none]

/-- The others are refused. -/
theorem bootstrap_run_sample :
    let w := ((bootstrapProgram sampleBcrypt sampleDecode).run ⟨.new .empty "token", []⟩
      sampleBootstraps).shared
    w.answers.map (fun a => match a.response with | .ok _ => 200 | .error e => e.status) =
        [401, 200, 409] ∧
      BootstrapsOnce sampleBcrypt w :=
  ⟨by decide +kernel, bootstrap_run sampleBcrypt sampleDecode .empty "token" sampleBootstraps
    (by decide +kernel) _ (List.prefix_refl _)⟩

/-- **A request that fails has set the password** when its key is not base64. -/
theorem not_bootstrapsOnce : ¬ BootstrapsOnce sampleBcrypt
    ((bootstrapProgram sampleBcrypt sampleDecode).run ⟨.new .empty "token", []⟩
      [sampleBootstrapStart "token" "sesame" (some "!"), sampleBootstrapResume 7,
        sampleBootstrapResume 0]).shared := by
  intro h
  have hsame := h.unchanged _ (List.mem_singleton.mpr rfl) rfl _
    (List.mem_of_getElem? (i := 2) rfl)
  exact absurd hsame.sudoPassword (by decide +kernel)

end Rumble.Web
