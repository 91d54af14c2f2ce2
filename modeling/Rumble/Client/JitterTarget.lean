import Mathlib.Tactic.Linarith
import Rumble.Client.JitterBuffer
import Rumble.Lib.Transition

/-!
# The adaptive target

The jitter estimate follows the timestamps of the packets, which the network may set to anything.
The target adds the estimate in frames to the base delay before it clamps the sum, so an estimate
near the largest `u32` overflows the addition (`not_targetSafe`). `targetSafe_iff`: as long as every
arrival keeps the smoothed estimate below an explicit bound, the sum stays in a `u32`, the target in
its range, and a larger estimate never gives a smaller target.
-/

namespace Rumble.Client.Jitter

open Rumble.Lib Rumble.Lib.Transition

namespace UserAudioState

variable (s : UserAudioState)

/-! ## The property and its condition -/

/-- `self.base_frames + jitter_frames` at an arrival. -/
def targetSum (frame now : Nat) : Nat := s.baseFrames + jitterFrames (s.nextEstimate frame now)

/-- The event is a packet whose target sum does not fit in a `u32`. -/
def Overflows : JitterEvent → Prop
  | .packet _ timestampUs _ arrival => s.forward (timestampUs / frameUs) = true ∧
      u32Max < s.targetSum (timestampUs / frameUs) arrival
  | _ => False

/-- The arithmetic of the target along a run: no sum overflows, the target keeps between its floor
and its ceiling, and of two states the one with the larger estimate has no smaller target. -/
structure TargetSafe (s : UserAudioState) (es : List JitterEvent) : Prop where
  fits : ∀ pre e, pre ++ [e] <+: es → ¬ (s.run pre).Overflows e
  range : ∀ pre, pre <+: es → InRange (s.run pre).targetFrames
  mono : ∀ pre pre', pre <+: es → pre' <+: es →
    (s.run pre).jitterEstUs ≤ (s.run pre').jitterEstUs →
    (s.run pre).targetFrames ≤ (s.run pre').targetFrames

/-- The event is not a packet, or one that does not count for the jitter, or its transit difference
and the estimate so far stay below the bound, about 43 million seconds less the base delay. -/
def Calm (s : UserAudioState) : JitterEvent → Prop
  | .packet _ timestampUs _ arrival => s.forward (timestampUs / frameUs) = true →
      15 * s.jitterEstUs + s.transit (timestampUs / frameUs) arrival ≤
        160000 * ((u32Max - s.baseFrames : Nat) : Rat)
  | _ => True

/-! ## The arithmetic of one arrival -/

/-- The sum fits exactly when the estimate is small enough. -/
theorem sum_le_iff {base : Nat} (hpos : 0 < base) (hle : base ≤ u32Max) (est : Rat) :
    base + jitterFrames est ≤ u32Max ↔ est ≤ 10000 * ((u32Max - base : Nat) : Rat) := by
  have hlt : u32Max - base < u32Max := by omega
  have hframes : base + jitterFrames est ≤ u32Max ↔ jitterFrames est ≤ u32Max - base := by omega
  rw [hframes, jitterFrames, saturatingCast_ceil_le hlt]
  have hframe : ((frameUs : Nat) : Rat) = 20000 := rfl
  rw [hframe]
  constructor
  · intro h
    linarith
  · intro h
    linarith

/-- A packet overflows exactly when it is not calm. -/
theorem overflows_iff (hbase : InRange s.baseFrames) (e : JitterEvent) :
    ¬ s.Overflows e ↔ s.Calm e := by
  cases e with
  | packet sequence timestampUs opus arrival =>
    have hpos : 0 < s.baseFrames := Nat.lt_of_lt_of_le (by decide) hbase.1
    have hle : s.baseFrames ≤ u32Max := Nat.le_trans hbase.2 (by decide)
    have hsum := sum_le_iff hpos hle (s.nextEstimate (timestampUs / frameUs) arrival)
    unfold Overflows Calm targetSum
    rw [not_and]
    refine imp_congr_right fun _ => ?_
    rw [Nat.not_lt, hsum]
    unfold nextEstimate
    constructor
    · intro h
      linarith
    · intro h
      linarith
  | endOfStream => exact iff_of_true (fun h => h) trivial
  | tick => exact iff_of_true (fun h => h) trivial

/-! ## Along a run -/

/-- The estimate, the target and the base. -/
structure Gauge where
  est : Rat
  target : Nat
  base : Nat

def gauge : Gauge := ⟨s.jitterEstUs, s.targetFrames, s.baseFrames⟩

theorem insert_gauge (sequence : UInt32) (timestampUs : Nat) (opus : List UInt8) (arrival : Nat) :
    (s.insertPacketAt sequence timestampUs opus arrival).gauge =
      (s.arrive timestampUs opus arrival).gauge := by
  unfold insertPacketAt
  simp only
  split
  · rfl
  · rename_i s' hadmitted
    rcases admission_cases hadmitted with ⟨_, rfl⟩ | ⟨_, rfl, _⟩
    · rfl
    · rfl

theorem decodeAtCursor_gauge (codec : Codec) : (s.decodeAtCursor codec).state.gauge = s.gauge := by
  unfold decodeAtCursor
  split
  · unfold play
    split <;> rfl
  · split
    · split <;> rfl
    · split
      · rfl
      · unfold lose
        simp only
        split
        · split <;> rfl
        · rfl

theorem guardStale_gauge (now : Nat) : (s.guardStale now).gauge = s.gauge := by
  unfold guardStale
  split <;> rfl

theorem tick_gauge (now : Nat) (codec : Codec) :
    (s.decodeNextInto now codec).state.gauge = s.gauge := by
  unfold decodeNextInto
  split
  · rfl
  · simp only
    split
    · exact s.guardStale_gauge now
    · exact (decodeAtCursor_gauge _ codec).trans (s.guardStale_gauge now)

/-- The target is the clamped sum for the estimate, and the base is in range. -/
structure Gauge.Exact (g : Gauge) : Prop where
  base : InRange g.base
  target : g.target = clampTarget (g.base + jitterFrames g.est)

theorem new_exact (baseDelay now : Nat) : (new baseDelay now).gauge.Exact where
  base := clampTarget_bounds baseDelay
  target := by
    have hzero : jitterFrames 0 = 0 := by
      simp [jitterFrames, saturatingCast]
    have hbase := clampTarget_bounds baseDelay
    change clampTarget baseDelay = clampTarget (clampTarget baseDelay + jitterFrames 0)
    rw [hzero]
    simp only [clampTarget, minTargetFrames, maxTargetFrames] at *
    omega

theorem Gauge.Exact.step {s : UserAudioState} (exact : s.gauge.Exact) {e : JitterEvent}
    (h : s.Calm e) : (s.step e).gauge.Exact := by
  cases e with
  | packet sequence timestampUs opus arrival =>
    have hfits := (s.overflows_iff exact.base _).mpr h
    change (s.insertPacketAt sequence timestampUs opus arrival).gauge.Exact
    rw [insert_gauge]
    unfold arrive updateJitter
    simp only
    split
    case isTrue hforward =>
      have hsum : s.targetSum (timestampUs / frameUs) arrival ≤ u32Max :=
        Nat.not_lt.mp fun hlt => hfits ⟨hforward, hlt⟩
      refine ⟨exact.base, congrArg clampTarget (Nat.mod_eq_of_lt ?_)⟩
      exact Nat.lt_of_le_of_lt hsum (by decide)
    case isFalse => exact ⟨exact.base, exact.target⟩
  | endOfStream => exact exact
  | tick now codec =>
    change (s.decodeNextInto now codec).state.gauge.Exact
    rw [tick_gauge]
    exact exact

/-- Twice the estimate in frames grows with the estimate. -/
theorem jitterFrames_mono {est est' : Rat} (h : est ≤ est') :
    jitterFrames est ≤ jitterFrames est' := by
  refine saturatingCast_mono (Int.ceil_le_ceil ?_)
  have hframe : ((frameUs : Nat) : Rat) = 20000 := rfl
  rw [hframe]
  linarith

/-- The base does not change. -/
theorem base_run (baseDelay now : Nat) (es : List JitterEvent) :
    ((new baseDelay now).run es).baseFrames = clampTarget baseDelay := by
  induction es using List.reverseRecOn with
  | nil => rfl
  | append_singleton es e ih =>
    rw [run_concat]
    refine Eq.trans ?_ ih
    generalize (new baseDelay now).run es = s
    cases e with
    | packet sequence timestampUs opus arrival =>
      refine (congrArg Gauge.base (s.insert_gauge sequence timestampUs opus arrival)).trans ?_
      unfold arrive updateJitter
      split <;> rfl
    | endOfStream => rfl
    | tick now codec => exact congrArg Gauge.base (s.tick_gauge now codec)

/-- **The exact condition.** The target arithmetic of a run is safe if and only if every step meets
`Calm`. -/
theorem targetSafe_iff (baseDelay now : Nat) (es : List JitterEvent) :
    (new baseDelay now).TargetSafe es ↔ Always step Calm (new baseDelay now) es := by
  have hbase (pre : List JitterEvent) : InRange ((new baseDelay now).run pre).baseFrames := by
    rw [base_run]
    exact clampTarget_bounds baseDelay
  constructor
  · intro safe
    exact always_of_at fun pre e hp => (overflows_iff _ (hbase pre) e).mp (safe.fits pre e hp)
  · intro always
    have exact : ∀ pre, pre <+: es → ((new baseDelay now).run pre).gauge.Exact := fun pre hp =>
      always.invariant_all (I := fun s => s.gauge.Exact)
        (fun s e h hI => Gauge.Exact.step hI h) (new_exact baseDelay now) hp
    refine ⟨fun pre e hp => (overflows_iff _ (hbase pre) e).mpr (always.at hp), fun pre hp => ?_,
      fun pre pre' hp hp' hle => ?_⟩
    · have htarget := (exact pre hp).target
      change InRange ((new baseDelay now).run pre).gauge.target
      rw [htarget]
      exact clampTarget_bounds _
    · have hbases : ((new baseDelay now).run pre).gauge.base =
          ((new baseDelay now).run pre').gauge.base :=
        (base_run baseDelay now pre).trans (base_run baseDelay now pre').symm
      have htarget := (exact pre hp).target
      have htarget' := (exact pre' hp').target
      have hframes : jitterFrames ((new baseDelay now).run pre).gauge.est ≤
          jitterFrames ((new baseDelay now).run pre').gauge.est := jitterFrames_mono hle
      change ((new baseDelay now).run pre).gauge.target ≤
        ((new baseDelay now).run pre').gauge.target
      rw [htarget, htarget', hbases]
      exact clampTarget_mono (Nat.add_le_add_left hframes _)

/-- Two packets at one instant, the second at the end of the media clock. -/
def clockJump : List JitterEvent :=
  [.packet 0 0 [] 0, .packet 1 (2 ^ 64 - 1) [] 0]

/-- **The sum overflows.** The jump takes the estimate past what a `u32` holds in frames. The sum
wraps, and the target falls from the ceiling it started at. -/
theorem not_targetSafe : ¬ (new 12 0).TargetSafe clockJump ∧
    ((new 12 0).run clockJump).targetFrames < ((new 12 0).run []).targetFrames ∧
    ((new 12 0).run []).jitterEstUs < ((new 12 0).run clockJump).jitterEstUs := by
  have hover : ((new 12 0).run [.packet 0 0 [] 0]).forward ((2 ^ 64 - 1) / frameUs) = true ∧
      u32Max < ((new 12 0).run [.packet 0 0 [] 0]).targetSum ((2 ^ 64 - 1) / frameUs) 0 := by
    decide +kernel
  refine ⟨fun safe => ?_, by decide +kernel, by decide +kernel⟩
  exact safe.fits [.packet 0 0 [] 0] (.packet 1 (2 ^ 64 - 1) [] 0) (List.prefix_refl _) hover

end UserAudioState

end Rumble.Client.Jitter
