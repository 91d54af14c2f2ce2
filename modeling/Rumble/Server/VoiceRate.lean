import Rumble.Lib.Windows
import Rumble.Protocol.Framing
import Rumble.Server.Handlers

/-!
# The rate limit of voice datagrams

`VoiceRateLimit` of `server/src/state.rs` counts the bytes that a user sends in windows of a second.
The first datagram after a window is over opens the next one and is admitted without a look at its
size, so the limit is kept exactly by the runs in which no such datagram is over it by itself.
`checkUsize` is the check with its counter the `usize` it is; it agrees with `check` as long as no
sum overflows, and none does.
-/

namespace Rumble.Server

open Rumble.Lib World

/-- A second, in the nanoseconds of an `Instant`. -/
def nanosPerSec : Nat := 10 ^ 9

namespace VoiceRateLimit

/-- `VoiceRateLimit::new`, at a time. -/
def new (now : Nat) : VoiceRateLimit :=
  { windowStart := now, bytesInWindow := 0 }

/-- A whole second has passed since the window was opened. -/
def elapsed (windowStart now : Nat) : Bool := decide (1 ≤ (now - windowStart) / nanosPerSec)

/-- Whether the bytes are admitted, and the limiter after them. -/
def checkUsize (overflowChecks : Bool) (limiter : VoiceRateLimit) (bytes now : Nat) :
    Except String (Bool × VoiceRateLimit) := do
  if elapsed limiter.windowStart now then
    return (true, { windowStart := now, bytesInWindow := bytes })
  if (← usizeAdd overflowChecks limiter.bytesInWindow bytes) > voiceRateLimitBytesPerSec then
    return (false, limiter)
  return (true, { limiter with
    bytesInWindow := ← usizeAdd overflowChecks limiter.bytesInWindow bytes })

theorem check_eq (limiter : VoiceRateLimit) (bytes now : Nat) : limiter.check now bytes =
    if elapsed limiter.windowStart now then (true, ⟨now, bytes⟩)
    else if limiter.bytesInWindow + bytes > voiceRateLimitBytesPerSec then (false, limiter)
    else (true, { limiter with bytesInWindow := limiter.bytesInWindow + bytes }) := by
  simp only [check, elapsed, decide_eq_true_eq]
  rfl

/-- Without an overflow the counter is a number. -/
theorem checkUsize_eq {overflowChecks : Bool} {limiter : VoiceRateLimit} {bytes now : Nat}
    (h : limiter.bytesInWindow + bytes < 2 ^ 64) :
    limiter.checkUsize overflowChecks bytes now = .ok (limiter.check now bytes) := by
  have hsum : usizeAdd overflowChecks limiter.bytesInWindow bytes =
      .ok (limiter.bytesInWindow + bytes) := usizeAdd_of_lt h
  unfold checkUsize
  rw [check_eq]
  cases elapsed limiter.windowStart now with
  | true => rfl
  | false =>
    simp only [hsum]
    by_cases hover : limiter.bytesInWindow + bytes > voiceRateLimitBytesPerSec
    · rw [if_neg Bool.false_ne_true, if_neg Bool.false_ne_true, if_pos hover]
      exact if_pos hover
    · rw [if_neg Bool.false_ne_true, if_neg Bool.false_ne_true, if_neg hover]
      exact if_neg hover

end VoiceRateLimit

/-! ## Runs -/

/-- A datagram, when it is checked; its size is the length of a slice. -/
structure Arrival where
  bytes : Nat
  time : Nat
  bytes_lt : bytes < 2 ^ 63

/-- An admitted datagram and the window that it is counted in. -/
structure Admission where
  window : Nat
  time : Nat
  bytes : Nat
  deriving DecidableEq

/-- What a limiter admits. -/
def admissions (overflowChecks : Bool) : VoiceRateLimit → List Arrival →
    Except String (List Admission)
  | _, [] => .ok []
  | limiter, arrival :: arrivals => do
    let (allowed, limiter) ← limiter.checkUsize overflowChecks arrival.bytes arrival.time
    let rest ← admissions overflowChecks limiter arrivals
    return if allowed then
      { window := limiter.windowStart, time := arrival.time, bytes := arrival.bytes } :: rest
    else rest

/-- Arrivals from a time on, none before the one in front of it. -/
def InOrder (start : Nat) (arrivals : List Arrival) : Prop :=
  (start :: arrivals.map Arrival.time).Pairwise (· ≤ ·)

/-- The limit on each window, and twice the limit on each second. -/
structure Limited (log : List Admission) : Prop where
  window : ∀ start, weigh Admission.bytes (·.window == start) log ≤ voiceRateLimitBytesPerSec
  second : ∀ s, weigh Admission.bytes (fun e => decide (s ≤ e.time ∧ e.time ≤ s + nanosPerSec)) log ≤
    2 * voiceRateLimitBytesPerSec

/-- No datagram that arrives when the window is over is by itself over the limit. -/
def OpenersFit : Nat → List Arrival → Prop
  | _, [] => True
  | start, arrival :: arrivals =>
    if VoiceRateLimit.elapsed start arrival.time then
      arrival.bytes ≤ voiceRateLimitBytesPerSec ∧ OpenersFit arrival.time arrivals
    else OpenersFit start arrivals

/-! ## What a check does -/

theorem elapsed_iff {start now : Nat} :
    VoiceRateLimit.elapsed start now = true ↔ start + nanosPerSec ≤ now := by
  rw [VoiceRateLimit.elapsed, decide_eq_true_iff, Nat.le_div_iff_mul_le (by decide)]
  have hpos : 0 < nanosPerSec := by decide
  omega

/-- A check opens a window, refuses, or counts; no sum of a count and the length of a slice
overflows. -/
theorem check_cases {limiter : VoiceRateLimit} (h : limiter.bytesInWindow < 2 ^ 63)
    (arrival : Arrival) :
    (VoiceRateLimit.elapsed limiter.windowStart arrival.time = true ∧
      ∀ overflowChecks, limiter.checkUsize overflowChecks arrival.bytes arrival.time =
        .ok (true, ⟨arrival.time, arrival.bytes⟩)) ∨
    (VoiceRateLimit.elapsed limiter.windowStart arrival.time = false ∧
      ∀ overflowChecks, limiter.checkUsize overflowChecks arrival.bytes arrival.time =
        .ok (false, limiter)) ∨
    (VoiceRateLimit.elapsed limiter.windowStart arrival.time = false ∧
      limiter.bytesInWindow + arrival.bytes ≤ voiceRateLimitBytesPerSec ∧
      ∀ overflowChecks, limiter.checkUsize overflowChecks arrival.bytes arrival.time =
        .ok (true, { limiter with bytesInWindow := limiter.bytesInWindow + arrival.bytes })) := by
  have hslice := arrival.bytes_lt
  have heq : ∀ overflowChecks, limiter.checkUsize overflowChecks arrival.bytes arrival.time =
      .ok (limiter.check arrival.time arrival.bytes) := fun _ =>
    VoiceRateLimit.checkUsize_eq (by omega)
  simp only [heq, VoiceRateLimit.check_eq]
  cases VoiceRateLimit.elapsed limiter.windowStart arrival.time with
  | true => exact .inl ⟨rfl, fun _ => rfl⟩
  | false =>
    rw [if_neg Bool.false_ne_true]
    by_cases hover : limiter.bytesInWindow + arrival.bytes > voiceRateLimitBytesPerSec
    · exact .inr (.inl ⟨rfl, fun _ => by rw [if_pos hover]⟩)
    · exact .inr (.inr ⟨rfl, by omega, fun _ => by rw [if_neg hover]⟩)

/-! ## What a run admits -/

theorem InOrder.cons_iff {start : Nat} {arrival : Arrival} {arrivals : List Arrival} :
    InOrder start (arrival :: arrivals) ↔
      start ≤ arrival.time ∧ InOrder start arrivals ∧ InOrder arrival.time arrivals := by
  simp only [InOrder, List.map_cons, List.pairwise_cons, List.mem_cons, forall_eq_or_imp]
  tauto

/-- A log of admissions from a limiter on: those that its window still takes, and later windows. -/
structure Accounted (limiter : VoiceRateLimit) (log : List Admission) : Prop where
  windowed : Windowed Admission.window Admission.time nanosPerSec log
  window : ∀ e ∈ log, e.window = limiter.windowStart ∨
    limiter.windowStart + nanosPerSec ≤ e.window
  current : limiter.bytesInWindow +
    weigh Admission.bytes (·.window == limiter.windowStart) log ≤ voiceRateLimitBytesPerSec
  later : ∀ start, start ≠ limiter.windowStart →
    weigh Admission.bytes (·.window == start) log ≤ voiceRateLimitBytesPerSec

namespace Accounted

variable {limiter : VoiceRateLimit} {log : List Admission}

theorem nil (h : limiter.bytesInWindow ≤ voiceRateLimitBytesPerSec) : Accounted limiter [] where
  windowed := windowed_nil
  window _ he := absurd he List.not_mem_nil
  current := h
  later _ _ := Nat.zero_le _

/-- A datagram that opens a window, with what follows it. -/
theorem opens {time bytes : Nat} (h : Accounted ⟨time, bytes⟩ log)
    (hcount : limiter.bytesInWindow ≤ voiceRateLimitBytesPerSec)
    (htime : limiter.windowStart + nanosPerSec ≤ time) :
    Accounted limiter (⟨time, time, bytes⟩ :: log) := by
  have hpos : 0 < nanosPerSec := by decide
  have hafter : ∀ e ∈ log, time ≤ e.window := by
    intro e he
    rcases h.window e he with heq | hle
    · exact heq.ge
    · exact (Nat.le_add_right _ _).trans hle
  have hopened := h.current
  refine ⟨h.windowed.cons (by simp only; omega) h.window, ?_, ?_, fun start hstart => ?_⟩
  · intro e he
    rcases List.mem_cons.mp he with rfl | he
    · exact .inr htime
    · exact .inr (htime.trans (hafter e he))
  · have hnone : weigh Admission.bytes (·.window == limiter.windowStart) log = 0 := by
      apply weigh_eq_zero
      intro e he
      have hlater := hafter e he
      simp only [beq_eq_false_iff_ne]
      omega
    have hne : (time == limiter.windowStart) = false := by
      simp only [beq_eq_false_iff_ne]
      omega
    rw [weigh_cons, hnone]
    simpa [hne] using hcount
  · rw [weigh_cons]
    by_cases heq : start = time
    · subst heq
      simpa using hopened
    · have hlater := h.later start heq
      simpa [Ne.symm heq] using hlater

/-- A datagram that the window takes, with what follows it. -/
theorem counts {time bytes : Nat}
    (h : Accounted { limiter with bytesInWindow := limiter.bytesInWindow + bytes } log)
    (htime : limiter.windowStart ≤ time) (hwithin : time < limiter.windowStart + nanosPerSec) :
    Accounted limiter (⟨limiter.windowStart, time, bytes⟩ :: log) := by
  have hcount := h.current
  refine ⟨h.windowed.cons ⟨htime, hwithin⟩ h.window, ?_, ?_, fun start hstart => ?_⟩
  · intro e he
    rcases List.mem_cons.mp he with rfl | he
    · exact .inl rfl
    · exact h.window e he
  · rw [weigh_cons]
    simp only [beq_self_eq_true, if_true] at hcount ⊢
    omega
  · have hlater := h.later start hstart
    rw [weigh_cons]
    simpa [Ne.symm hstart] using hlater

theorem limited (h : Accounted limiter log) : Limited log := by
  have hwindow : ∀ start, weigh Admission.bytes (·.window == start) log ≤
      voiceRateLimitBytesPerSec := by
    intro start
    by_cases heq : start = limiter.windowStart
    · subst heq
      have hcurrent := h.current
      omega
    · exact h.later start heq
  exact ⟨hwindow, h.windowed.weigh_interval_le hwindow⟩

end Accounted

section Runs

variable {arrival : Arrival} {arrivals : List Arrival} {limiter next : VoiceRateLimit}
  {log : List Admission}

/-- One admission, and those from the next limiter on. -/
theorem admissions_cons {overflowChecks allowed : Bool}
    (hcheck : limiter.checkUsize overflowChecks arrival.bytes arrival.time = .ok (allowed, next))
    (hrest : admissions overflowChecks next arrivals = .ok log) :
    admissions overflowChecks limiter (arrival :: arrivals) =
      .ok (if allowed then ⟨next.windowStart, arrival.time, arrival.bytes⟩ :: log else log) := by
  rw [admissions, hcheck]
  show (do
    let rest ← admissions overflowChecks next arrivals
    return if allowed then _ else rest : Except String (List Admission)) = _
  rw [hrest]
  rfl

/-- While every opener fits, the limiter accounts for what it admits. -/
theorem admissions_accounted (hcount : limiter.bytesInWindow ≤ voiceRateLimitBytesPerSec)
    (horder : InOrder limiter.windowStart arrivals)
    (hfit : OpenersFit limiter.windowStart arrivals) :
    ∃ log, (∀ overflowChecks, admissions overflowChecks limiter arrivals = .ok log) ∧
      Accounted limiter log := by
  induction arrivals generalizing limiter with
  | nil => exact ⟨[], fun _ => rfl, .nil hcount⟩
  | cons arrival arrivals ih =>
    have hsmall : limiter.bytesInWindow < 2 ^ 63 := lt_of_le_of_lt hcount (by decide)
    obtain ⟨htime, hstay, hopen⟩ := InOrder.cons_iff.mp horder
    rw [OpenersFit] at hfit
    rcases check_cases hsmall arrival with ⟨helapsed, hcheck⟩ | ⟨helapsed, hcheck⟩ |
      ⟨helapsed, hle, hcheck⟩
    · rw [if_pos helapsed] at hfit
      obtain ⟨log, hlog, haccounted⟩ := @ih ⟨arrival.time, arrival.bytes⟩ hfit.1 hopen hfit.2
      exact ⟨_, fun overflowChecks => admissions_cons (hcheck overflowChecks) (hlog overflowChecks),
        haccounted.opens hcount (elapsed_iff.mp helapsed)⟩
    · rw [if_neg (by simp [helapsed])] at hfit
      obtain ⟨log, hlog, haccounted⟩ := ih hcount hstay hfit
      exact ⟨_, fun overflowChecks => admissions_cons (hcheck overflowChecks) (hlog overflowChecks),
        haccounted⟩
    · rw [if_neg (by simp [helapsed])] at hfit
      obtain ⟨log, hlog, haccounted⟩ := @ih
        { limiter with bytesInWindow := limiter.bytesInWindow + arrival.bytes } hle hstay hfit
      have hwithin : arrival.time < limiter.windowStart + nanosPerSec := by
        have hnot := mt elapsed_iff.mpr (Bool.eq_false_iff.mp helapsed)
        omega
      exact ⟨_, fun overflowChecks => admissions_cons (hcheck overflowChecks) (hlog overflowChecks),
        haccounted.counts htime hwithin⟩

/-- Every run has a log, and an opener over the limit is in it. -/
theorem admissions_over (hcount : limiter.bytesInWindow < 2 ^ 63) :
    ∃ log, (∀ overflowChecks, admissions overflowChecks limiter arrivals = .ok log) ∧
      (¬ OpenersFit limiter.windowStart arrivals →
        ∃ e ∈ log, voiceRateLimitBytesPerSec < e.bytes) := by
  induction arrivals generalizing limiter with
  | nil => exact ⟨[], fun _ => rfl, fun hfit => absurd trivial hfit⟩
  | cons arrival arrivals ih =>
    rw [OpenersFit]
    rcases check_cases hcount arrival with ⟨helapsed, hcheck⟩ | ⟨helapsed, hcheck⟩ |
      ⟨helapsed, hle, hcheck⟩
    · obtain ⟨log, hlog, hover⟩ := @ih ⟨arrival.time, arrival.bytes⟩ arrival.bytes_lt
      refine ⟨_, fun overflowChecks => admissions_cons (hcheck overflowChecks)
        (hlog overflowChecks), fun hfit => ?_⟩
      rw [if_pos helapsed] at hfit
      by_cases hopener : arrival.bytes ≤ voiceRateLimitBytesPerSec
      · obtain ⟨e, he, hbytes⟩ := hover fun hrest => hfit ⟨hopener, hrest⟩
        exact ⟨e, List.mem_cons_of_mem _ he, hbytes⟩
      · exact ⟨_, List.mem_cons_self, Nat.lt_of_not_le hopener⟩
    · obtain ⟨log, hlog, hover⟩ := ih hcount
      refine ⟨_, fun overflowChecks => admissions_cons (hcheck overflowChecks)
        (hlog overflowChecks), fun hfit => ?_⟩
      rw [if_neg (by simp [helapsed])] at hfit
      exact hover hfit
    · have hsmall : limiter.bytesInWindow + arrival.bytes < 2 ^ 63 := lt_of_le_of_lt hle (by decide)
      obtain ⟨log, hlog, hover⟩ := @ih
        { limiter with bytesInWindow := limiter.bytesInWindow + arrival.bytes } hsmall
      refine ⟨_, fun overflowChecks => admissions_cons (hcheck overflowChecks)
        (hlog overflowChecks), fun hfit => ?_⟩
      rw [if_neg (by simp [helapsed])] at hfit
      obtain ⟨e, he, hbytes⟩ := hover hfit
      exact ⟨e, List.mem_cons_of_mem _ he, hbytes⟩

end Runs

/-- **The limits hold exactly when every opener fits**: then no window admits more than the limit
and no second more than twice the limit. The counter does not overflow in any run. -/
theorem limited_iff (now : Nat) {arrivals : List Arrival} (horder : InOrder now arrivals) :
    ∃ log, (∀ overflowChecks, admissions overflowChecks (.new now) arrivals = .ok log) ∧
      (Limited log ↔ OpenersFit now arrivals) := by
  have hempty : (VoiceRateLimit.new now).bytesInWindow < 2 ^ 63 := Nat.two_pow_pos 63
  obtain ⟨log, hlog, hover⟩ := @admissions_over arrivals _ hempty
  refine ⟨log, hlog, fun hlimited => ?_, fun hfit => ?_⟩
  · by_contra hfit
    obtain ⟨e, he, hbytes⟩ := hover hfit
    have hwindow := hlimited.window e.window
    have hle : e.bytes ≤ weigh Admission.bytes (·.window == e.window) log :=
      le_weigh he (by simp)
    omega
  · obtain ⟨log', hlog', haccounted⟩ :=
      @admissions_accounted _ (.new now) (Nat.zero_le _) horder hfit
    obtain rfl := Except.ok.inj ((hlog true).symm.trans (hlog' true))
    exact haccounted.limited

/-- A window that fills up to the limit exactly and one more datagram. -/
theorem limited_iff_sample :
    InOrder 0 [⟨32000, 10, by decide⟩, ⟨1, 20, by decide⟩] ∧
    ∃ log, (∀ overflowChecks, admissions overflowChecks (.new 0)
      [⟨32000, 10, by decide⟩, ⟨1, 20, by decide⟩] = .ok log) ∧ Limited log := by
  have horder : InOrder 0 [⟨32000, 10, by decide⟩, ⟨1, 20, by decide⟩] := by
    simp [InOrder]
  obtain ⟨log, hlog, hiff⟩ := limited_iff 0 horder
  exact ⟨horder, log, hlog, hiff.mpr (by simp [OpenersFit, VoiceRateLimit.elapsed, nanosPerSec])⟩

/-- A datagram of 40 000 bytes a second after the limiter was made is admitted. -/
theorem not_limited : ∃ arrivals log, InOrder 0 arrivals ∧
    (∀ overflowChecks, admissions overflowChecks (.new 0) arrivals = .ok log) ∧ ¬ Limited log := by
  refine ⟨[⟨40000, nanosPerSec, by decide⟩], [⟨nanosPerSec, nanosPerSec, 40000⟩], by simp [InOrder],
    fun overflowChecks => rfl, fun h => ?_⟩
  exact absurd (h.window nanosPerSec) (by decide)

/-! ## The limiters of all users -/

/-- A user's datagrams go through the user's own limiter, whatever others send. -/
theorem checkVoiceRate_get {s : ServerState} {env : Env} {userId : UserId} {bytes : Nat}
    (h : ((s.voiceRateLimits.get userId).getD (.new env.instant)).bytesInWindow + bytes < 2 ^ 64) :
    (∃ limiter, (checkVoiceRate s env userId bytes).2.voiceRateLimits.get userId = some limiter ∧
      ∀ overflowChecks,
        ((s.voiceRateLimits.get userId).getD (.new env.instant)).checkUsize overflowChecks bytes
          env.instant = .ok ((checkVoiceRate s env userId bytes).1, limiter)) ∧
    ∀ other, other ≠ userId →
      (checkVoiceRate s env userId bytes).2.voiceRateLimits.get other =
        s.voiceRateLimits.get other := by
  refine ⟨⟨_, Table.get_set_self _ _ _, fun _ => VoiceRateLimit.checkUsize_eq h⟩, ?_⟩
  intro other hother
  exact Table.get_set_ne hother

end Rumble.Server
