import Rumble.Lib.Pool
import Rumble.Lib.Table

/-!
# The login throttle

`server/src/web/auth.rs`: after `maxLoginFailures` failed logins an address is locked out for
`loginLockout`. A login checks the throttle, verifies the password on another thread, and records
the verdict, so logins of one address overlap. `throttled_run` bounds the failing verifications of
a period over every run in which a login that passes the check finds room for one more failure,
with those already under way counted in.
-/

namespace Rumble.Web

open Rumble.Lib Rumble.Lib.Transition

/-! ## The throttle -/

inductive IpAddr where
  | v4 (octets : BitVec 32)
  | v6 (octets : BitVec 128)
  deriving DecidableEq

def maxLoginFailures : Nat := 5

/-- Sixty seconds; the clock counts nanoseconds. -/
def loginLockout : Nat := 60 * 1000000000

structure FailureState where
  failures : Nat
  lockedUntil : Option Nat
  deriving DecidableEq

abbrev LoginThrottle := Table IpAddr FailureState

namespace LoginThrottle

variable (t : LoginThrottle) (ip : IpAddr) (now : Nat)

/-- What remains of a lockout. At its last instant nothing remains, and it still holds. -/
def check : Option Nat :=
  (t.get ip).bind fun entry => entry.lockedUntil.bind fun expiry =>
    if expiry < now then none else some (expiry - now)

/-- An expired lockout starts a new count. -/
def FailureState.refreshed (entry : FailureState) (now : Nat) : FailureState :=
  match entry.lockedUntil with
  | some expiry => if expiry ≤ now then ⟨0, none⟩ else entry
  | none => entry

/-- The clock is read once for the expiry and once, `delay` later, for a new lockout. -/
def recordFailure (delay : Nat) : LoginThrottle :=
  let entry := FailureState.refreshed ((t.get ip).getD ⟨0, none⟩) now
  let failures := entry.failures + 1
  t.set ip
    { failures := failures
      lockedUntil := if maxLoginFailures ≤ failures then some (now + delay + loginLockout)
        else entry.lockedUntil }

def recordSuccess : LoginThrottle := t.del ip

end LoginThrottle

/-! ## Logins under way -/

/-- A login that passed the check, with the stored hash it read. `started` is when the verification
began. -/
structure Login where
  ip : IpAddr
  password : String
  hash : String
  started : Option Nat
  deriving DecidableEq

inductive LoginResponse where
  | tooManyRequests (retrySecs : Nat)
  | bootstrapRequired
  | verificationFailed
  | loggedIn
  | unauthorized
  deriving DecidableEq

/-- The server's side, with a record of the verdicts: the address and when the verification
started, for those that failed, and when it was recorded, for those that succeeded. -/
structure LoginWorld where
  now : Nat
  sudoPassword : Option String
  throttle : LoginThrottle
  answers : List (IpAddr × LoginResponse)
  failed : List (IpAddr × Nat)
  succeeded : List (IpAddr × Nat)

inductive LoginRequest where
  | login (ip : IpAddr) (password : String)
  /-- Bootstrap stores the password. -/
  | setSudoPassword (hash : String)
  deriving DecidableEq

/-- The time since the last piece, the time between the two readings of the clock in
`recordFailure`, and whether the blocking task is lost. -/
structure LoginEnv where
  elapsed : Nat
  delay : Nat
  lost : Bool
  deriving DecidableEq

namespace LoginWorld

variable (verify : String → String → Option Bool) (w : LoginWorld)

def wait (d : Nat) : LoginWorld := { w with now := w.now + d }

def answer (ip : IpAddr) (r : LoginResponse) : LoginWorld :=
  { w with answers := w.answers ++ [(ip, r)] }

def start (env : LoginEnv) (r : LoginRequest) : LoginWorld × Option Login :=
  let w := w.wait env.elapsed
  match r with
  | .setSudoPassword hash => ({ w with sudoPassword := some hash }, none)
  | .login ip password =>
    match w.throttle.check ip w.now with
    | some remaining => (w.answer ip (.tooManyRequests (remaining / 1000000000 + 1)), none)
    | none =>
      match w.sudoPassword with
      | none => (w.answer ip .bootstrapRequired, none)
      | some hash => (w, some ⟨ip, password, hash, none⟩)

/-- A verification that errs, or whose task is lost, is not held against the address. -/
def finish (env : LoginEnv) (t : Login) (started : Nat) : LoginWorld :=
  if env.lost then w.answer t.ip .verificationFailed
  else match verify t.password t.hash with
    | none => w.answer t.ip .verificationFailed
    | some true =>
      { w with
        throttle := w.throttle.recordSuccess t.ip
        succeeded := w.succeeded ++ [(t.ip, w.now)] }.answer t.ip .loggedIn
    | some false =>
      { w with
        now := w.now + env.delay
        throttle := w.throttle.recordFailure t.ip w.now env.delay
        failed := w.failed ++ [(t.ip, started)] }.answer t.ip .unauthorized

/-- The verification starts, or ends. -/
def resume (env : LoginEnv) (t : Login) : LoginWorld × Option Login :=
  let w := w.wait env.elapsed
  match t.started with
  | none =>
    if env.lost then (w.answer t.ip .verificationFailed, none)
    else (w, some { t with started := some w.now })
  | some started => (w.finish verify env t started, none)

def new (sudoPassword : Option String) : LoginWorld where
  now := 0
  sudoPassword := sudoPassword
  throttle := ∅
  answers := []
  failed := []
  succeeded := []

end LoginWorld

def loginProgram (verify : String → String → Option Bool) :
    Interleaved LoginEnv LoginWorld LoginRequest Login where
  start env w r := w.start env r
  resume env w t := w.resume verify env t

/-! ## The property and its condition -/

/-- In a period without a successful login at most `maxLoginFailures` of the verifications started
in it fail. -/
def Throttled (w : LoginWorld) : Prop :=
  ∀ ip since, (∀ s ∈ w.succeeded, s.1 = ip → ¬ (since ≤ s.2 ∧ s.2 ≤ since + loginLockout)) →
    w.failed.countP (fun f => f.1 == ip && since ≤ f.2 && f.2 ≤ since + loginLockout)
      ≤ maxLoginFailures

/-- The failures on record; an expired lockout leaves none. -/
def LoginThrottle.live (t : LoginThrottle) (ip : IpAddr) (now : Nat) : Nat :=
  match t.get ip with
  | none => 0
  | some entry =>
    match entry.lockedUntil with
    | some expiry => if expiry < now then 0 else entry.failures
    | none => entry.failures

/-- A login under way from `ip` with a wrong password. -/
def Login.fails (verify : String → String → Option Bool) (ip : IpAddr) (t : Login) : Bool :=
  t.ip == ip && verify t.password t.hash == some false

/-- A login with a wrong password that passes the check finds room for one more failure, with those
under way counted in. -/
def HasRoom (verify : String → String → Option Bool) (p : Pool LoginWorld Login)
    (m : LoginEnv × Pick LoginRequest) : Prop :=
  match m.2 with
  | .start (.login ip password) =>
    p.shared.throttle.check ip (p.shared.now + m.1.elapsed) = none →
      ∀ hash ∈ p.shared.sudoPassword, verify password hash = some false →
        p.shared.throttle.live ip (p.shared.now + m.1.elapsed) +
          p.tasks.countP (Login.fails verify ip) < maxLoginFailures
  | _ => True

/-! ## The invariant -/

section Invariant

variable (verify : String → String → Option Bool) (ip : IpAddr)

/-- The wrong-password logins under way from an address. -/
def underWay (tasks : List Login) : Nat := tasks.countP (Login.fails verify ip)

/-- Such a login whose verification started in the period, or can still start in it. -/
def Login.inPeriod (now since : Nat) (t : Login) : Bool :=
  t.fails verify ip && match t.started with
    | some started => since ≤ started && started ≤ since + loginLockout
    | none => now ≤ since + loginLockout

def LoginWorld.failuresSince (w : LoginWorld) (since : Nat) : Nat :=
  w.failed.countP fun f => f.1 == ip && since ≤ f.2

def LoginWorld.failuresIn (w : LoginWorld) (since : Nat) : Nat :=
  w.failed.countP fun f => f.1 == ip && since ≤ f.2 && f.2 ≤ since + loginLockout

/-- The entry of an address, the failures and the logins under way: nothing is under way during a
lockout, and the entry counts what failed since the last success, or since its lockout. -/
structure Accounts (w : LoginWorld) (tasks : List Login) : Prop where
  room : underWay verify ip tasks ≤ maxLoginFailures
  unlocked : ∀ n, w.throttle.get ip = some ⟨n, none⟩ →
    n + underWay verify ip tasks ≤ maxLoginFailures
  locked : ∀ n expiry, w.throttle.get ip = some ⟨n, some expiry⟩ → w.now ≤ expiry →
    underWay verify ip tasks = 0
  beforeLock : ∀ n expiry, w.throttle.get ip = some ⟨n, some expiry⟩ →
    ∀ f ∈ w.failed, f.1 = ip → f.2 + loginLockout ≤ expiry
  past : ∀ f ∈ w.failed, f.1 = ip → f.2 ≤ w.now
  started : ∀ t ∈ tasks, t.ip = ip → ∀ s ∈ t.started, s ≤ w.now
  succeeded : ∀ s ∈ w.succeeded, s.1 = ip → s.2 ≤ w.now
  counted : ∀ since, w.now ≤ since + loginLockout →
    (∀ s ∈ w.succeeded, s.1 = ip → s.2 < since) →
      w.failuresSince ip since ≤ ((w.throttle.get ip).map FailureState.failures).getD 0
  bounded : ∀ since,
    (∀ s ∈ w.succeeded, s.1 = ip → ¬ (since ≤ s.2 ∧ s.2 ≤ since + loginLockout)) →
      w.failuresIn ip since + tasks.countP (Login.inPeriod verify ip w.now since)
        ≤ maxLoginFailures

variable {verify ip} {w : LoginWorld} {tasks : List Login} {t : Login}

theorem underWay_cons : underWay verify ip (t :: tasks) =
    underWay verify ip tasks + if t.fails verify ip then 1 else 0 := List.countP_cons

theorem Login.inPeriod_le {now now' since : Nat} (hle : now ≤ now')
    (h : t.inPeriod verify ip now' since = true) : t.inPeriod verify ip now since = true := by
  unfold Login.inPeriod at h ⊢
  cases ht : t.started with
  | some s => simpa only [ht] using h
  | none =>
    simp only [ht, Bool.and_eq_true, decide_eq_true_eq] at h ⊢
    exact ⟨h.1, Nat.le_trans hle h.2⟩

theorem LoginWorld.failuresIn_le (since : Nat) : w.failuresIn ip since ≤ w.failuresSince ip since := by
  refine List.countP_mono_left fun f _ hf => ?_
  simp only [Bool.and_eq_true] at hf
  simpa only [Bool.and_eq_true] using hf.1

/-- No failure is that recent. -/
theorem LoginWorld.failuresSince_eq_zero {since : Nat}
    (h : ∀ f ∈ w.failed, f.1 = ip → f.2 < since) : w.failuresSince ip since = 0 := by
  refine List.countP_eq_zero.mpr fun f hf hcount => ?_
  simp only [Bool.and_eq_true, beq_iff_eq, decide_eq_true_eq] at hcount
  have := h f hf hcount.1
  omega

namespace Accounts

theorem new (sudoPassword : Option String) : Accounts verify ip (.new sudoPassword) [] where
  room := Nat.zero_le _
  unlocked _ h := absurd h (by simp [LoginWorld.new])
  locked _ _ h := absurd h (by simp [LoginWorld.new])
  beforeLock _ _ h := absurd h (by simp [LoginWorld.new])
  past _ h := nomatch h
  started _ h := nomatch h
  succeeded _ h := nomatch h
  counted _ _ _ := Nat.zero_le _
  bounded _ _ := Nat.zero_le _

theorem perm {tasks' : List Login} (h : Accounts verify ip w tasks) (hp : tasks.Perm tasks') :
    Accounts verify ip w tasks' := by
  have hcount : underWay verify ip tasks' = underWay verify ip tasks := (hp.countP_eq _).symm
  refine { h with
    room := ?_
    unlocked := ?_
    locked := ?_
    started := fun t ht => h.started t (hp.mem_iff.mpr ht)
    bounded := ?_ }
  · rw [hcount]
    exact h.room
  · rw [hcount]
    exact h.unlocked
  · rw [hcount]
    exact h.locked
  · intro since hs
    rw [← hp.countP_eq]
    exact h.bounded since hs

/-- Time passes. -/
theorem wait (h : Accounts verify ip w tasks) (d : Nat) : Accounts verify ip (w.wait d) tasks := by
  have hle : w.now ≤ w.now + d := Nat.le_add_right _ _
  refine { h with
    locked := fun n e hget hnow => h.locked n e hget (Nat.le_trans hle hnow)
    past := fun f hf hip => Nat.le_trans (h.past f hf hip) hle
    started := fun t ht hip s hs => Nat.le_trans (h.started t ht hip s hs) hle
    succeeded := fun s hs hip => Nat.le_trans (h.succeeded s hs hip) hle
    counted := fun since hnow => h.counted since (Nat.le_trans hle hnow)
    bounded := fun since hs => ?_ }
  refine Nat.le_trans (Nat.add_le_add_left ?_ _) (h.bounded since hs)
  exact List.countP_mono_left fun t _ => Login.inPeriod_le hle

theorem answer (h : Accounts verify ip w tasks) (addr : IpAddr) (r : LoginResponse) :
    Accounts verify ip (w.answer addr r) tasks := { h with }

/-- A login ends without a verdict. -/
theorem drop (h : Accounts verify ip w (t :: tasks)) : Accounts verify ip w tasks := by
  have hle : underWay verify ip tasks ≤ underWay verify ip (t :: tasks) := by
    rw [underWay_cons]
    exact Nat.le_add_right _ _
  refine { h with
    room := Nat.le_trans hle h.room
    unlocked := fun n hget => Nat.le_trans (Nat.add_le_add_left hle n) (h.unlocked n hget)
    locked := fun n e hget hnow => Nat.le_zero.mp (h.locked n e hget hnow ▸ hle)
    started := fun t' ht => h.started t' (List.mem_cons_of_mem t ht)
    bounded := fun since hs => ?_ }
  refine Nat.le_trans (Nat.add_le_add_left ?_ _) (h.bounded since hs)
  rw [List.countP_cons]
  exact Nat.le_add_right _ _

/-- A login that has not started its verification. -/
theorem started_cons (h : Accounts verify ip w tasks) (hnew : t.started = none) :
    ∀ t' ∈ t :: tasks, t'.ip = ip → ∀ s ∈ t'.started, s ≤ w.now := by
  intro t' ht hip s hs
  rcases List.mem_cons.mp ht with rfl | ht
  · exact absurd (hnew ▸ hs) (Option.not_mem_none s)
  · exact h.started t' ht hip s hs

/-- A login that will not fail adds nothing. -/
theorem spared (h : Accounts verify ip w tasks) (hnew : t.started = none)
    (hfails : ¬ t.fails verify ip = true) : Accounts verify ip w (t :: tasks) := by
  have hsame : underWay verify ip (t :: tasks) = underWay verify ip tasks := by
    rw [underWay_cons, if_neg hfails, Nat.add_zero]
  refine { h with
    room := hsame ▸ h.room
    unlocked := hsame ▸ h.unlocked
    locked := hsame ▸ h.locked
    started := h.started_cons hnew
    bounded := fun since hs => ?_ }
  have hout : ¬ t.inPeriod verify ip w.now since = true := by
    simp [Login.inPeriod, hfails]
  rw [List.countP_cons_of_neg hout]
  exact h.bounded since hs

/-- The failures of a period that lasts are live ones. -/
theorem failuresIn_le_live (h : Accounts verify ip w tasks) {since : Nat}
    (hnow : w.now ≤ since + loginLockout)
    (hs : ∀ s ∈ w.succeeded, s.1 = ip → ¬ (since ≤ s.2 ∧ s.2 ≤ since + loginLockout)) :
    w.failuresIn ip since ≤ w.throttle.live ip w.now := by
  have hsince : ∀ s ∈ w.succeeded, s.1 = ip → s.2 < since := by
    intro s hmem hsip
    have hpast := h.succeeded s hmem hsip
    have hout := hs s hmem hsip
    omega
  have hcounted := h.counted since hnow hsince
  refine Nat.le_trans (LoginWorld.failuresIn_le since) ?_
  unfold LoginThrottle.live
  cases hget : w.throttle.get ip with
  | none => simpa [hget] using hcounted
  | some entry =>
    obtain ⟨n, expiry⟩ := entry
    cases expiry with
    | none => simpa [hget] using hcounted
    | some e =>
      dsimp only
      split
      · refine Nat.le_of_eq (LoginWorld.failuresSince_eq_zero fun f hf hfip => ?_)
        have hbefore := h.beforeLock n e hget f hf hfip
        omega
      · simpa [hget] using hcounted

/-- A login passes the check. -/
theorem admitted (h : Accounts verify ip w tasks) (hnew : t.started = none)
    (hcheck : w.throttle.check t.ip w.now = none)
    (hroom : t.fails verify ip = true →
      w.throttle.live ip w.now + underWay verify ip tasks < maxLoginFailures) :
    Accounts verify ip w (t :: tasks) := by
  by_cases hfails : t.fails verify ip = true
  swap
  · exact h.spared hnew hfails
  have hroom := hroom hfails
  have hsum : underWay verify ip (t :: tasks) = underWay verify ip tasks + 1 := by
    rw [underWay_cons, if_pos hfails]
  have hip : t.ip = ip := by
    simp only [Login.fails, Bool.and_eq_true, beq_iff_eq] at hfails
    exact hfails.1
  rw [hip] at hcheck
  refine { h with
    room := by omega
    unlocked := fun n hget => ?_
    locked := fun n e hget hnow => ?_
    started := h.started_cons hnew
    bounded := fun since hs => ?_ }
  · have hlive : w.throttle.live ip w.now = n := by simp [LoginThrottle.live, hget]
    omega
  · have : ¬ e < w.now := Nat.not_lt.mpr hnow
    simp [LoginThrottle.check, hget, this] at hcheck
  · by_cases hnow : w.now ≤ since + loginLockout
    swap
    · have hout : ¬ t.inPeriod verify ip w.now since = true := by
        simp [Login.inPeriod, hnew, hnow]
      rw [List.countP_cons_of_neg hout]
      exact h.bounded since hs
    have hlive := h.failuresIn_le_live hnow hs
    have hperiod : tasks.countP (Login.inPeriod verify ip w.now since) ≤
        underWay verify ip tasks := by
      refine List.countP_mono_left fun t' _ ht => ?_
      simp only [Login.inPeriod, Bool.and_eq_true] at ht
      exact ht.1
    rw [List.countP_cons]
    split
    · omega
    · omega

/-- A verification starts. -/
theorem begins (h : Accounts verify ip w (t :: tasks)) (hnew : t.started = none) :
    Accounts verify ip w ({ t with started := some w.now } :: tasks) := by
  have hsame : underWay verify ip ({ t with started := some w.now } :: tasks) =
      underWay verify ip (t :: tasks) := by
    rw [underWay_cons, underWay_cons]
    rfl
  refine { h with
    room := hsame ▸ h.room
    unlocked := hsame ▸ h.unlocked
    locked := hsame ▸ h.locked
    started := ?_
    bounded := fun since hs => Nat.le_trans (Nat.add_le_add_left ?_ _) (h.bounded since hs) }
  · intro t' ht hip s hs
    rcases List.mem_cons.mp ht with rfl | ht
    · obtain rfl := Option.some.inj hs
      exact Nat.le_refl _
    · exact h.started t' (List.mem_cons_of_mem t ht) hip s hs
  · have himp : Login.inPeriod verify ip w.now since { t with started := some w.now } = true →
        t.inPeriod verify ip w.now since = true := by
      simp only [Login.inPeriod, hnew, Bool.and_eq_true, decide_eq_true_eq, Login.fails]
      exact fun hin => ⟨hin.1, hin.2.2⟩
    rw [List.countP_cons, List.countP_cons]
    refine Nat.add_le_add_left ?_ _
    split
    · rename_i hin
      rw [if_pos (himp hin)]
    · exact Nat.zero_le _

/-- A login of another address. -/
theorem other {throttle : LoginThrottle} {now : Nat} {failed succeeded : List (IpAddr × Nat)}
    (h : Accounts verify ip w tasks) (hget : throttle.get ip = w.throttle.get ip)
    (hnow : w.now ≤ now) (hfailed : ∀ f ∈ failed, f.1 ≠ ip) (hsucceeded : ∀ s ∈ succeeded, s.1 ≠ ip) :
    Accounts verify ip { w with
      now := now
      throttle := throttle
      failed := w.failed ++ failed
      succeeded := w.succeeded ++ succeeded } tasks := by
  obtain ⟨d, rfl⟩ := Nat.exists_eq_add_of_le hnow
  have hw := h.wait d
  have hmem : ∀ {l l' : List (IpAddr × Nat)} {P : IpAddr × Nat → Prop}, (∀ x ∈ l', x.1 ≠ ip) →
      ((∀ x ∈ l ++ l', x.1 = ip → P x) ↔ ∀ x ∈ l, x.1 = ip → P x) := by
    intro l l' P hl'
    refine ⟨fun hall x hx => hall x (List.mem_append_left _ hx), fun hall x hx hxip => ?_⟩
    rcases List.mem_append.mp hx with hx | hx
    · exact hall x hx hxip
    · exact absurd hxip (hl' x hx)
  have hzero : ∀ q : Nat → Bool, failed.countP (fun f => f.1 == ip && q f.2) = 0 := by
    intro q
    refine List.countP_eq_zero.mpr fun f hf hq => hfailed f hf ?_
    simp only [Bool.and_eq_true, beq_iff_eq] at hq
    exact hq.1
  exact {
    room := hw.room
    unlocked := fun n hn => hw.unlocked n (hget ▸ hn)
    locked := fun n e hn => hw.locked n e (hget ▸ hn)
    beforeLock := fun n e hn => (hmem hfailed).mpr (hw.beforeLock n e (hget ▸ hn))
    past := (hmem hfailed).mpr hw.past
    started := hw.started
    succeeded := (hmem hsucceeded).mpr hw.succeeded
    counted := fun since hle hs => by
      have hcounted := hw.counted since hle ((hmem hsucceeded).mp hs)
      rw [LoginWorld.failuresSince, List.countP_append, hzero (fun s => since ≤ s), hget]
      exact hcounted
    bounded := fun since hs => by
      have hbounded := hw.bounded since ((hmem hsucceeded).mp hs)
      have hz := hzero fun s => since ≤ s && s ≤ since + loginLockout
      simp only [← Bool.and_assoc] at hz
      rw [LoginWorld.failuresIn, List.countP_append, hz]
      exact hbounded }

/-- The password was right. -/
theorem success (h : Accounts verify ip w tasks) (addr : IpAddr) :
    Accounts verify ip { w with
      throttle := w.throttle.recordSuccess addr
      succeeded := w.succeeded ++ [(addr, w.now)] } tasks := by
  by_cases hip : addr = ip
  swap
  · have hget : (w.throttle.recordSuccess addr).get ip = w.throttle.get ip :=
      Table.get_del_ne (Ne.symm hip)
    have hother : Accounts verify ip { w with
        throttle := w.throttle.recordSuccess addr
        failed := w.failed ++ []
        succeeded := w.succeeded ++ [(addr, w.now)] } tasks :=
      h.other hget (Nat.le_refl _) (fun _ hf => nomatch hf) fun s hs => by
        rw [List.mem_singleton.mp hs]
        exact hip
    rwa [List.append_nil] at hother
  subst hip
  have hget : (w.throttle.recordSuccess addr).get addr = none := Table.get_del_self _ _
  have hlast : (addr, w.now) ∈ w.succeeded ++ [(addr, w.now)] := by simp
  refine { h with
    unlocked := fun n hn => absurd (hget.symm.trans hn) (Option.some_ne_none _).symm
    locked := fun n e hn => absurd (hget.symm.trans hn) (Option.some_ne_none _).symm
    beforeLock := fun n e hn => absurd (hget.symm.trans hn) (Option.some_ne_none _).symm
    succeeded := ?_
    counted := ?_
    bounded := fun since hs => h.bounded since fun s hmem => hs s (List.mem_append_left _ hmem) }
  · intro s hs hsip
    rcases List.mem_append.mp hs with hs | hs
    · exact h.succeeded s hs hsip
    · obtain rfl := List.mem_singleton.mp hs
      exact Nat.le_refl _
  · intro since hnow hs
    have hsince := hs _ hlast rfl
    have hzero : w.failuresSince addr since = 0 := LoginWorld.failuresSince_eq_zero
      fun f hf hfip => Nat.lt_of_le_of_lt (h.past f hf hfip) hsince
    exact Nat.le_trans (Nat.le_of_eq hzero) (Nat.zero_le _)

/-- The entry a failure is added to: it is not locked, and has counted what can still matter. -/
theorem refreshed (h : Accounts verify ip w (t :: tasks)) (hfails : t.fails verify ip = true) :
    ∃ n, LoginThrottle.FailureState.refreshed ((w.throttle.get ip).getD ⟨0, none⟩) w.now =
        ⟨n, none⟩ ∧
      n + underWay verify ip (t :: tasks) ≤ maxLoginFailures ∧
      ∀ since, w.now ≤ since + loginLockout →
        (∀ s ∈ w.succeeded, s.1 = ip → s.2 < since) → w.failuresSince ip since ≤ n := by
  have hpos : underWay verify ip (t :: tasks) ≠ 0 := by
    rw [underWay_cons, if_pos hfails]
    omega
  have hroom := h.room
  cases hget : w.throttle.get ip with
  | none =>
    refine ⟨0, rfl, by omega, fun since hnow hs => ?_⟩
    simpa [hget] using h.counted since hnow hs
  | some entry =>
    obtain ⟨n, expiry⟩ := entry
    cases expiry with
    | none =>
      refine ⟨n, rfl, h.unlocked n hget, fun since hnow hs => ?_⟩
      simpa [hget] using h.counted since hnow hs
    | some e =>
      have hexpired : e < w.now := Nat.lt_of_not_le fun hle => hpos (h.locked n e hget hle)
      refine ⟨0, ?_, by omega, fun since hnow _ => Nat.le_of_eq ?_⟩
      · simp [LoginThrottle.FailureState.refreshed, Nat.le_of_lt hexpired]
      · refine LoginWorld.failuresSince_eq_zero fun f hf hfip => ?_
        have hbefore := h.beforeLock n e hget f hf hfip
        omega

/-- A wrong password for another address. -/
theorem failure_other (h : Accounts verify ip w (t :: tasks)) (d started : Nat) (hip : t.ip ≠ ip) :
    Accounts verify ip { w with
      now := w.now + d
      throttle := w.throttle.recordFailure t.ip w.now d
      failed := w.failed ++ [(t.ip, started)] } tasks := by
  have hget : (w.throttle.recordFailure t.ip w.now d).get ip = w.throttle.get ip :=
    Table.get_set_ne (Ne.symm hip)
  have hother : Accounts verify ip { w with
      now := w.now + d
      throttle := w.throttle.recordFailure t.ip w.now d
      failed := w.failed ++ [(t.ip, started)]
      succeeded := w.succeeded ++ [] } tasks := by
    refine h.drop.other hget (Nat.le_add_right _ _) (fun f hf => ?_) fun _ hs => nomatch hs
    rw [List.mem_singleton.mp hf]
    exact hip
  rwa [List.append_nil] at hother

/-- The password was wrong. -/
theorem failure {started : Nat} (h : Accounts verify ip w (t :: tasks)) (d : Nat)
    (hstarted : t.started = some started) (hverdict : verify t.password t.hash = some false) :
    Accounts verify ip { w with
      now := w.now + d
      throttle := w.throttle.recordFailure t.ip w.now d
      failed := w.failed ++ [(t.ip, started)] } tasks := by
  by_cases hip : t.ip = ip
  swap
  · exact h.failure_other d started hip
  have hfails : t.fails verify ip = true := by simp [Login.fails, hip, hverdict]
  obtain ⟨n, hentry, hroom, hcounted⟩ := h.refreshed hfails
  rw [underWay_cons, if_pos hfails] at hroom
  have hget : (w.throttle.recordFailure t.ip w.now d).get ip = some
      { failures := n + 1
        lockedUntil := if maxLoginFailures ≤ n + 1 then some (w.now + d + loginLockout)
          else none } := by
    rw [LoginThrottle.recordFailure, hip, Table.get_set_self, hentry]
  have hwhen : started ≤ w.now := h.started t List.mem_cons_self hip started hstarted
  have hpast : ∀ f ∈ w.failed ++ [(t.ip, started)], f.1 = ip → f.2 ≤ w.now := by
    intro f hf hfip
    rcases List.mem_append.mp hf with hf | hf
    · exact h.past f hf hfip
    · rw [List.mem_singleton.mp hf]
      exact hwhen
  have hw := h.drop.wait d
  refine { hw with
    unlocked := fun m hm => ?_
    locked := fun m e hm _ => ?_
    beforeLock := fun m e hm f hf hfip => ?_
    past := fun f hf hfip => Nat.le_trans (hpast f hf hfip) (Nat.le_add_right _ _)
    counted := fun since hnow hs => ?_
    bounded := fun since hs => ?_ }
  · have hm' := (FailureState.mk.injEq _ _ _ _ ▸ Option.some.inj (hget.symm.trans hm)).1
    omega
  · have hm' := (FailureState.mk.injEq _ _ _ _ ▸ Option.some.inj (hget.symm.trans hm)).2
    split at hm'
    · omega
    · exact absurd hm'.symm (Option.some_ne_none e)
  · have hm' := (FailureState.mk.injEq _ _ _ _ ▸ Option.some.inj (hget.symm.trans hm)).2
    have hle := hpast f hf hfip
    split at hm'
    · have := Option.some.inj hm'
      omega
    · exact absurd hm'.symm (Option.some_ne_none e)
  · have hn := hcounted since (Nat.le_trans (Nat.le_add_right _ _) hnow) hs
    show List.countP _ (w.failed ++ [(t.ip, started)]) ≤ _
    rw [List.countP_append, hget, List.countP_singleton]
    show w.failuresSince ip since + _ ≤ n + 1
    split
    · omega
    · omega
  · have hbounded := h.bounded since hs
    have hmono : tasks.countP (Login.inPeriod verify ip (w.now + d) since) ≤
        tasks.countP (Login.inPeriod verify ip w.now since) :=
      List.countP_mono_left fun t _ => Login.inPeriod_le (Nat.le_add_right _ _)
    have hperiod : t.inPeriod verify ip w.now since =
        (t.ip == ip && since ≤ started && started ≤ since + loginLockout) := by
      simp [Login.inPeriod, hstarted, hfails, hip]
    rw [List.countP_cons, hperiod] at hbounded
    show List.countP _ (w.failed ++ [(t.ip, started)]) + _ ≤ _
    rw [List.countP_append, List.countP_singleton]
    show w.failuresIn ip since + _ + _ ≤ _
    dsimp only
    omega

/-- A verification ends. -/
theorem finish {started : Nat} (h : Accounts verify ip w (t :: tasks)) (env : LoginEnv)
    (hstarted : t.started = some started) :
    Accounts verify ip (w.finish verify env t started) tasks := by
  unfold LoginWorld.finish
  split
  · exact h.drop.answer _ _
  split
  · exact h.drop.answer _ _
  · exact (h.drop.success t.ip).answer _ _
  · rename_i hverdict
    exact (h.failure env.delay hstarted hverdict).answer _ _

variable {p : Pool LoginWorld Login} {m : LoginEnv × Pick LoginRequest}

theorem start (h : Accounts verify ip p.shared p.tasks) {r : LoginRequest} (hm : m.2 = .start r)
    (hroom : HasRoom verify p m) :
    Accounts verify ip (p.shared.start m.1 r).1
      (p.tasks ++ (p.shared.start m.1 r).2.toList) := by
  have hw := h.wait m.1.elapsed
  unfold LoginWorld.start
  cases r with
  | setSudoPassword hash =>
    rw [Option.toList_none, List.append_nil]
    exact { hw with }
  | login addr password =>
    dsimp only
    split
    · rw [Option.toList_none, List.append_nil]
      exact hw.answer _ _
    rename_i hcheck
    split
    · rw [Option.toList_none, List.append_nil]
      exact hw.answer _ _
    rename_i hash hhash
    rw [Option.toList_some]
    refine (hw.admitted (t := ⟨addr, password, hash, none⟩) rfl hcheck fun hfails => ?_).perm
      (List.perm_append_singleton _ _).symm
    simp only [Login.fails, Bool.and_eq_true, beq_iff_eq] at hfails
    simp only [HasRoom, hm] at hroom
    obtain ⟨rfl, hwrong⟩ := hfails
    exact hroom hcheck hash hhash hwrong

theorem resume (h : Accounts verify ip w (t :: tasks)) (env : LoginEnv) :
    Accounts verify ip (w.resume verify env t).1 ((w.resume verify env t).2.toList ++ tasks) := by
  have hw := h.wait env.elapsed
  unfold LoginWorld.resume
  dsimp only
  split
  · rename_i hnew
    split
    · exact hw.drop.answer _ _
    · exact hw.begins hnew
  · rename_i started hstarted
    exact hw.finish env hstarted

/-- **One piece** of a login, or a new one that finds room. -/
theorem step (h : Accounts verify ip p.shared p.tasks) (hroom : HasRoom verify p m) :
    Accounts verify ip ((loginProgram verify).step p m).shared
      ((loginProgram verify).step p m).tasks := by
  rcases (loginProgram verify).step_cases p m with
    heq | ⟨r, hr, hs, ht⟩ | ⟨i, t, others, -, -, hp, hs, ht⟩
  · rwa [heq]
  · rw [hs, ht]
    exact h.start hr hroom
  · rw [hs]
    exact ((h.perm hp).resume m.1).perm ht.symm

end Accounts

end Invariant

/-- **The failing verifications of a period are bounded** in every run whose logins find room. -/
theorem throttled_run (verify : String → String → Option Bool) (sudoPassword : Option String)
    (moves : List (LoginEnv × Pick LoginRequest))
    (h : Always (loginProgram verify).step (HasRoom verify) ⟨.new sudoPassword, []⟩ moves) :
    ∀ pre, pre <+: moves →
      Throttled ((loginProgram verify).run ⟨.new sudoPassword, []⟩ pre).shared := by
  intro pre hpre ip since hs
  have hinv := h.invariant_all (I := fun p => Accounts verify ip p.shared p.tasks)
    (fun _ _ hroom h => h.step hroom) (Accounts.new sudoPassword) hpre
  exact Nat.le_trans (Nat.le_add_right _ _) (hinv.bounded since hs)

/-! ## Runs -/

/-- Stands for the password hash. -/
def sampleVerify (password hash : String) : Option Bool := some (hash == "hash of " ++ password)

def sampleIp : IpAddr := .v4 0x7f000001

def sampleGuess : LoginEnv × Pick LoginRequest := (⟨1000, 0, false⟩, .start (.login sampleIp "abc"))

def sampleResume (i : Nat) : LoginEnv × Pick LoginRequest := (⟨1000, 50, false⟩, .resume i)

/-- Wrong guesses, each after the one before has been answered. -/
def sampleGuesses (n : Nat) : List (LoginEnv × Pick LoginRequest) :=
  (List.replicate n [sampleGuess, sampleResume 0, sampleResume 0]).flatten

instance (verify : String → String → Option Bool) (p : Pool LoginWorld Login)
    (m : LoginEnv × Pick LoginRequest) : Decidable (HasRoom verify p m) := by
  unfold HasRoom
  split <;> infer_instance

/-- The sixth guess is refused. -/
theorem throttled_sample :
    let w := ((loginProgram sampleVerify).run ⟨.new (some "hash of sesame"), []⟩
      (sampleGuesses 6)).shared
    w.answers.map Prod.snd = List.replicate 5 .unauthorized ++ [.tooManyRequests 60] ∧
      Throttled w :=
  ⟨by decide +kernel, throttled_run sampleVerify (some "hash of sesame") (sampleGuesses 6)
    (by decide +kernel) _ (List.prefix_refl _)⟩

/-- Six guesses that pass the check before the first of them has been answered. -/
def sampleOverlap : List (LoginEnv × Pick LoginRequest) :=
  List.replicate 6 sampleGuess ++ (List.range 6).map sampleResume ++
    List.replicate 6 (sampleResume 0)

/-- **Six verifications fail** within the period of the first when the six logins overlap. -/
theorem not_throttled :
    ¬ Throttled ((loginProgram sampleVerify).run ⟨.new (some "hash of sesame"), []⟩
      sampleOverlap).shared := by
  intro h
  have hcount := h sampleIp 0 (by decide +kernel)
  revert hcount
  decide +kernel

end Rumble.Web
