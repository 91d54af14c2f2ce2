import Mathlib.Order.Lattice
import Rumble.Lib.Saturating
import Rumble.Lib.Trailing

/-!
# The voice gate

`VadShaper` turns one score for each frame into an open or closed gate. Loud frames must last for
the attack before it opens, and quiet ones for the holdoff before it closes. The two `u32` counters
are read back as the lengths of the last loud and the last quiet spell (`VadShaper.Tells`), and from
these `gate_shape` says when the gate opens and when it closes.
-/

namespace Rumble.Client

open Rumble.Lib

/-! ## Scores -/

/-- An `f32`: a number out of an ordered type, or the NaN that no comparison holds of. -/
inductive F32 (α : Type) where
  | nan
  | num (x : α)

namespace F32

variable {α : Type} [LinearOrder α]

/-- `a > b` -/
def gt : F32 α → F32 α → Bool
  | num a, num b => decide (b < a)
  | _, _ => false

/-- `f32::min`: a NaN gives way to the other operand. -/
def min : F32 α → F32 α → F32 α
  | nan, b => b
  | a, nan => a
  | num a, num b => num (Min.min a b)

/-- A score above the trigger is above the release threshold, once that is capped at the trigger. -/
theorem gt_min {score release trigger : F32 α} (h : score.gt trigger = true) :
    score.gt (release.min trigger) = true := by
  cases score with
  | nan => exact nomatch h
  | num s =>
    cases trigger with
    | nan => exact nomatch h
    | num t =>
      cases release with
      | nan => exact h
      | num r => exact decide_eq_true (lt_of_le_of_lt (min_le_right r t) (of_decide_eq_true h))

end F32

/-! ## The state machine -/

/-- `VadShaperSettings` -/
structure VadShaperSettings (α : Type) where
  trigger : F32 α
  release : F32 α
  attackMs : Nat
  holdoffMs : Nat

structure VadShaper where
  voiceActive : Bool
  /-- Consecutive samples above the trigger while inactive. -/
  attackSamplesAccumulated : Nat
  /-- Samples left until the gate closes. -/
  holdoffSamplesRemaining : Nat
  deriving DecidableEq

/-- The samples that `ms` milliseconds last, before the cast to `u32`. -/
def samplesIn (ms sampleRate : Nat) : Nat :=
  ms * sampleRate / 1000

/-- `ms_to_samples` -/
def msToSamples (ms sampleRate : Nat) : Nat :=
  samplesIn ms sampleRate % 2 ^ 32

theorem msToSamples_eq {ms sampleRate : Nat} (h : samplesIn ms sampleRate ≤ u32Max) :
    msToSamples ms sampleRate = samplesIn ms sampleRate :=
  Nat.mod_eq_of_lt (Nat.lt_of_le_of_lt h (by decide))

namespace VadShaper

variable {α : Type} [LinearOrder α]

/-- `VadShaper::new` -/
def new : VadShaper := ⟨false, 0, 0⟩

/-- `VadShaper::reset` -/
def reset (_ : VadShaper) : VadShaper := ⟨false, 0, 0⟩

/-- `VadShaper::update`; the answer is the new `voiceActive`. -/
def update (v : VadShaper) (score : F32 α) (frameSamples sampleRate : Nat)
    (settings : VadShaperSettings α) : VadShaper :=
  let trigger := settings.trigger
  let release := settings.release.min trigger
  let holdoffSamples := msToSamples settings.holdoffMs sampleRate
  let attackSamplesRequired := msToSamples settings.attackMs sampleRate
  if v.voiceActive then
    if score.gt release then { v with holdoffSamplesRemaining := holdoffSamples }
    else if 0 < v.holdoffSamplesRemaining then
      -- the subtraction saturates at zero
      { v with holdoffSamplesRemaining := v.holdoffSamplesRemaining - frameSamples }
    else { v with voiceActive := false, attackSamplesAccumulated := 0 }
  else if score.gt trigger then
    let accumulated := saturatingAdd v.attackSamplesAccumulated frameSamples
    if attackSamplesRequired ≤ accumulated then
      { voiceActive := true, holdoffSamplesRemaining := holdoffSamples,
        attackSamplesAccumulated := 0 }
    else { v with attackSamplesAccumulated := accumulated }
  else { v with attackSamplesAccumulated := 0 }

end VadShaper

/-- What happens to a shaper: a frame is scored, or the owner resets it. -/
inductive GateEvent (α : Type) where
  | frame (score : F32 α) (samples : Nat)
  | reset

namespace GateEvent

variable {α : Type}

/-- The length of a frame in samples. -/
def samples : GateEvent α → Nat
  | frame _ n => n
  | reset => 0

variable [LinearOrder α] (settings : VadShaperSettings α)

/-- A frame that scores above the trigger. -/
def loud : GateEvent α → Bool
  | frame score _ => score.gt settings.trigger
  | reset => false

/-- A frame that scores at or below the release threshold, which is capped at the trigger. -/
def quiet : GateEvent α → Bool
  | frame score _ => !score.gt (settings.release.min settings.trigger)
  | reset => false

theorem not_quiet_of_loud {e : GateEvent α} (h : e.loud settings = true) :
    e.quiet settings = false := by
  cases e with
  | reset => rfl
  | frame score n => exact congrArg Bool.not (F32.gt_min h)

end GateEvent

/-! ## The gate along a history -/

section

variable {α : Type} [LinearOrder α] (settings : VadShaperSettings α) (sampleRate : Nat)

def VadShaper.step (v : VadShaper) : GateEvent α → VadShaper
  | .frame score n => v.update score n sampleRate settings
  | .reset => v.reset

/-- The shaper after a history. -/
def shaperAfter (es : List (GateEvent α)) : VadShaper :=
  es.foldl (VadShaper.step settings sampleRate) .new

/-- The gate is open after a history. -/
def gateOpen (es : List (GateEvent α)) : Bool :=
  (shaperAfter settings sampleRate es).voiceActive

/-- The gate opens at `e`. -/
def OpensAt (es : List (GateEvent α)) (e : GateEvent α) : Prop :=
  gateOpen settings sampleRate es = false ∧ gateOpen settings sampleRate (es ++ [e]) = true

/-- The gate closes at the frame `e`. -/
def ClosesAt (es : List (GateEvent α)) (e : GateEvent α) : Prop :=
  e ≠ .reset ∧ gateOpen settings sampleRate es = true ∧
    gateOpen settings sampleRate (es ++ [e]) = false

/-- The consecutive frames at the end of a history, all of them above the trigger and none of them
before the last close or reset. -/
structure LoudRun (es pre run : List (GateEvent α)) : Prop where
  split : es = pre ++ run
  loud : ∀ e ∈ run, e.loud settings = true
  since : ∀ a e b, run = a ++ e :: b → e ≠ .reset ∧ ¬ ClosesAt settings sampleRate (pre ++ a) e

/-- The consecutive frames at the end of a history, all of them at or below the release threshold
and none of them before the last opening. -/
structure QuietRun (es pre run : List (GateEvent α)) : Prop where
  split : es = pre ++ run
  quiet : ∀ e ∈ run, e.quiet settings = true
  since : ∀ a e b, run = a ++ e :: b → e ≠ .reset ∧ ¬ OpensAt settings sampleRate (pre ++ a) e

/-- The length of a run of frames. -/
def runSamples (run : List (GateEvent α)) : Nat :=
  (run.map GateEvent.samples).sum

theorem shaperAfter_concat (es : List (GateEvent α)) (e : GateEvent α) :
    shaperAfter settings sampleRate (es ++ [e]) =
      (shaperAfter settings sampleRate es).step settings sampleRate e := by
  simp [shaperAfter, List.foldl_append]

/-! ## What the counters hold -/

variable {settings : VadShaperSettings α} {sampleRate : Nat}

/-- **The counters are spells.** While the gate is closed the attack counter is the length of the
loud spell that is going on, saturated; while it is open the holdoff counter is what the quiet spell
that is going on leaves of the holdoff. -/
structure VadShaper.Tells (settings : VadShaperSettings α) (sampleRate : Nat) (v : VadShaper)
    (es : List (GateEvent α)) : Prop where
  attack : v.voiceActive = false → v.attackSamplesAccumulated =
    min (trailing (GateEvent.loud settings) GateEvent.samples es) u32Max
  holdoff : v.voiceActive = true → v.holdoffSamplesRemaining =
    samplesIn settings.holdoffMs sampleRate -
      trailing (GateEvent.quiet settings) GateEvent.samples es

/-- The settings' sample counts fit in a `u32`. -/
structure VadShaperSettings.Fits (settings : VadShaperSettings α) (sampleRate : Nat) : Prop where
  attack : samplesIn settings.attackMs sampleRate ≤ u32Max
  holdoff : samplesIn settings.holdoffMs sampleRate ≤ u32Max

/-- A frame at a closed gate. -/
theorem VadShaper.Tells.closed {v : VadShaper} {es : List (GateEvent α)}
    (fits : settings.Fits sampleRate) (tells : v.Tells settings sampleRate es)
    (hclosed : v.voiceActive = false) (score : F32 α) (n : Nat) :
    (v.update score n sampleRate settings).Tells settings sampleRate (es ++ [.frame score n]) ∧
    ((v.update score n sampleRate settings).voiceActive = true ↔
      score.gt settings.trigger = true ∧ samplesIn settings.attackMs sampleRate ≤
        trailing (GateEvent.loud settings) GateEvent.samples es + n) := by
  have hattack := tells.attack hclosed
  have hfit := fits.attack
  unfold VadShaper.update
  simp only [hclosed, Bool.false_eq_true, if_false, msToSamples_eq fits.attack,
    msToSamples_eq fits.holdoff]
  by_cases hloud : score.gt settings.trigger = true
  · have hspell := trailing_concat_pos (GateEvent.loud settings) GateEvent.samples es
      (x := .frame score n) hloud
    have hquiet := trailing_concat_neg (GateEvent.quiet settings) GateEvent.samples es
      (x := .frame score n) (GateEvent.not_quiet_of_loud settings hloud)
    rw [if_pos hloud, hattack, saturatingAdd_min]
    split
    case isTrue hreach =>
      refine ⟨⟨(nomatch ·), fun _ => by rw [hquiet]; rfl⟩, fun _ => ⟨hloud, ?_⟩, fun _ => rfl⟩
      exact Nat.le_trans hreach (Nat.min_le_left _ _)
    case isFalse hshort =>
      refine ⟨⟨fun _ => by rw [hspell]; rfl, fun h => absurd h (by simp)⟩, fun h => ?_, fun h => ?_⟩
      · exact absurd h (by simp)
      · exact absurd (Nat.le_min.mpr ⟨h.2, hfit⟩) hshort
  · have hspell := trailing_concat_neg (GateEvent.loud settings) GateEvent.samples es
      (x := .frame score n) (Bool.eq_false_iff.mpr hloud)
    rw [if_neg hloud]
    refine ⟨⟨fun _ => by rw [hspell]; rfl, fun h => absurd h (by simp)⟩, fun h => ?_, fun h => ?_⟩
    · exact absurd h (by simp)
    · exact absurd h.1 hloud

/-- A frame at an open gate. -/
theorem VadShaper.Tells.opened {v : VadShaper} {es : List (GateEvent α)}
    (fits : settings.Fits sampleRate) (tells : v.Tells settings sampleRate es)
    (hopen : v.voiceActive = true) (score : F32 α) (n : Nat) :
    (v.update score n sampleRate settings).Tells settings sampleRate (es ++ [.frame score n]) ∧
    ((v.update score n sampleRate settings).voiceActive = false ↔
      score.gt (settings.release.min settings.trigger) = false ∧
        samplesIn settings.holdoffMs sampleRate ≤
          trailing (GateEvent.quiet settings) GateEvent.samples es) := by
  have hholdoff := tells.holdoff hopen
  unfold VadShaper.update
  simp only [hopen, if_true, msToSamples_eq fits.holdoff]
  by_cases habove : score.gt (settings.release.min settings.trigger) = true
  · have hspell := trailing_concat_neg (GateEvent.quiet settings) GateEvent.samples es
      (x := .frame score n) (congrArg Bool.not habove)
    rw [if_pos habove]
    refine ⟨⟨fun h => absurd h (by simp), fun _ => by rw [hspell]; rfl⟩, fun h => ?_, fun h => ?_⟩
    · exact absurd h (by simp)
    · exact absurd h.1 (by simp [habove])
  · have hbelow := Bool.eq_false_iff.mpr habove
    have hspell := trailing_concat_pos (GateEvent.quiet settings) GateEvent.samples es
      (x := .frame score n) (congrArg Bool.not hbelow)
    rw [if_neg habove]
    split
    case isTrue hleft =>
      refine ⟨⟨fun h => absurd h (by simp), fun _ => ?_⟩, fun h => ?_, fun h => ?_⟩
      · rw [hspell, hholdoff]
        exact Nat.sub_sub ..
      · exact absurd h (by simp)
      · exact absurd h.2 (by omega)
    case isFalse hspent =>
      have hquiet : GateEvent.loud settings (.frame score n) = false :=
        Bool.eq_false_iff.mpr fun h => habove (F32.gt_min h)
      have hloud := trailing_concat_neg (GateEvent.loud settings) GateEvent.samples es hquiet
      refine ⟨⟨fun _ => by rw [hloud]; rfl, (nomatch ·)⟩, fun _ => ⟨hbelow, ?_⟩, fun _ => rfl⟩
      omega

/-- The counters tell the spells after every history. -/
theorem shaperAfter_tells (fits : settings.Fits sampleRate) (es : List (GateEvent α)) :
    (shaperAfter settings sampleRate es).Tells settings sampleRate es := by
  induction es using List.reverseRecOn with
  | nil => exact ⟨fun _ => by rw [trailing_nil]; rfl, (nomatch ·)⟩
  | append_singleton es e ih =>
    rw [shaperAfter_concat]
    cases e with
    | reset =>
      have hloud := trailing_concat_neg (GateEvent.loud settings) GateEvent.samples es
        (x := .reset) rfl
      exact ⟨fun _ => by rw [hloud]; rfl, (nomatch ·)⟩
    | frame score n =>
      cases hopen : (shaperAfter settings sampleRate es).voiceActive with
      | false => exact (ih.closed fits hopen score n).1
      | true => exact (ih.opened fits hopen score n).1

/-! ## When the gate opens and closes -/

/-- A loud frame does not close the gate. -/
theorem not_closesAt_of_loud (fits : settings.Fits sampleRate) (es : List (GateEvent α))
    {e : GateEvent α} (h : e.loud settings = true) :
    e ≠ .reset ∧ ¬ ClosesAt settings sampleRate es e := by
  cases e with
  | reset => exact nomatch h
  | frame score n =>
    refine ⟨nofun, fun ⟨_, hopen, hclosed⟩ => ?_⟩
    unfold gateOpen at hclosed
    rw [shaperAfter_concat] at hclosed
    have hbelow := (((shaperAfter_tells fits es).opened fits hopen score n).2.mp hclosed).1
    have habove : score.gt (settings.release.min settings.trigger) = true := F32.gt_min h
    exact absurd habove (by simp [hbelow])

/-- A quiet frame does not open the gate. -/
theorem not_opensAt_of_quiet (fits : settings.Fits sampleRate) (es : List (GateEvent α))
    {e : GateEvent α} (h : e.quiet settings = true) :
    e ≠ .reset ∧ ¬ OpensAt settings sampleRate es e := by
  cases e with
  | reset => exact nomatch h
  | frame score n =>
    refine ⟨nofun, fun ⟨hclosed, hopen⟩ => ?_⟩
    unfold gateOpen at hopen
    rw [shaperAfter_concat] at hopen
    have habove := (((shaperAfter_tells fits es).closed fits hclosed score n).2.mp hopen).1
    exact absurd h (by simp [GateEvent.quiet, F32.gt_min habove])

/-- **The shape of the gate.** The gate opens at a frame exactly when it was closed and the frame
ends a run of frames above the trigger, all since the last close or reset, that reaches the attack.
It closes at a frame exactly when it was open, the frame is at or below the release threshold, and
the run of such frames right before it, all since the opening, already reaches the holdoff. -/
theorem gate_shape (fits : settings.Fits sampleRate) (es : List (GateEvent α)) (score : F32 α)
    (n : Nat) :
    (OpensAt settings sampleRate es (.frame score n) ↔
      gateOpen settings sampleRate es = false ∧ score.gt settings.trigger = true ∧
      ∃ pre run, LoudRun settings sampleRate es pre run ∧
        samplesIn settings.attackMs sampleRate ≤ runSamples run + n) ∧
    (ClosesAt settings sampleRate es (.frame score n) ↔
      gateOpen settings sampleRate es = true ∧
      score.gt (settings.release.min settings.trigger) = false ∧
      ∃ pre run, QuietRun settings sampleRate es pre run ∧
        samplesIn settings.holdoffMs sampleRate ≤ runSamples run) := by
  have tells := shaperAfter_tells fits es
  have hafter : gateOpen settings sampleRate (es ++ [.frame score n]) =
      ((shaperAfter settings sampleRate es).update score n sampleRate settings).voiceActive := by
    unfold gateOpen
    rw [shaperAfter_concat]
    rfl
  constructor
  · unfold OpensAt
    rw [hafter]
    refine and_congr_right fun hclosed => ?_
    rw [(tells.closed fits hclosed score n).2, le_trailing_iff]
    refine and_congr_right fun _ => exists_congr fun pre => exists_congr fun run => ?_
    constructor
    · rintro ⟨hsplit, hloud, hlong⟩
      refine ⟨⟨hsplit, hloud, fun a e b hrun => ?_⟩, hlong⟩
      exact not_closesAt_of_loud fits _ (hloud e (by simp [hrun]))
    · rintro ⟨hrun, hlong⟩
      exact ⟨hrun.split, hrun.loud, hlong⟩
  · unfold ClosesAt
    rw [hafter]
    refine (and_iff_right nofun).trans (and_congr_right fun hopen => ?_)
    rw [(tells.opened fits hopen score n).2]
    have hreach := le_trailing_iff (p := GateEvent.quiet settings) (w := GateEvent.samples)
      (l := es) (m := samplesIn settings.holdoffMs sampleRate) (n := 0)
    rw [Nat.add_zero] at hreach
    rw [hreach]
    refine and_congr_right fun _ => exists_congr fun pre => exists_congr fun run => ?_
    constructor
    · rintro ⟨hsplit, hquiet, hlong⟩
      refine ⟨⟨hsplit, hquiet, fun a e b hrun => ?_⟩, hlong⟩
      exact not_opensAt_of_quiet fits _ (hquiet e (by simp [hrun]))
    · rintro ⟨hrun, hlong⟩
      exact ⟨hrun.split, hrun.quiet, hlong⟩

/-- With no attack and no holdoff the first loud frame opens the gate, the next quiet one closes
it. -/
theorem gate_shape_switch :
    (⟨.num 5, .num 3, 0, 0⟩ : VadShaperSettings Nat).Fits 48000 ∧
    OpensAt ⟨.num 5, .num 3, 0, 0⟩ 48000 [] (.frame (.num 6) 480) ∧
    ClosesAt ⟨.num 5, .num 3, 0, 0⟩ 48000 [.frame (.num 6) 480] (.frame (.num 2) 480) := by
  have fits : (⟨.num 5, .num 3, 0, 0⟩ : VadShaperSettings Nat).Fits 48000 :=
    ⟨by decide, by decide⟩
  refine ⟨fits, ?_, ?_⟩
  · refine (gate_shape fits [] (.num 6) 480).1.mpr ⟨rfl, by decide, [], [], ⟨rfl, ?_, ?_⟩, ?_⟩
    · exact fun _ h => nomatch h
    · exact fun a _ _ h => absurd h (by simp)
    · decide
  · refine (gate_shape fits [.frame (.num 6) 480] (.num 2) 480).2.mpr
      ⟨by decide, by decide, [.frame (.num 6) 480], [], ⟨by rfl, ?_, ?_⟩, by decide⟩
    · exact fun _ h => nomatch h
    · exact fun a _ _ h => absurd h (by simp)

end

end Rumble.Client
