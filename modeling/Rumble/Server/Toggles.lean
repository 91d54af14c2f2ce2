import Rumble.Lib.Pool
import Rumble.Server.Step

/-!
# Concurrent permission toggles

`apply_toggle_group_permission` of `server/src/ops.rs` checks the bits and updates the mask in one
compare-and-swap; the broadcast of the new mask comes later and may find other requests in between.
Requests on disjoint bits all land, in whatever order they and their broadcasts run
(`toggles_land`).
-/

namespace Rumble.Server

open Rumble.Lib World

/-! ## Requests -/

structure ToggleRequest where
  name : String
  bits : BitVec 32
  enable : Bool
  deriving DecidableEq

namespace ToggleRequest

/-- The checks before the store is touched. -/
def refusal (r : ToggleRequest) : Option String :=
  if r.bits = 0 then some "No permission bits specified"
  else if (Permissions.fromBits r.bits).isNone then some "Unknown permission bits"
  else none

def toggle (mask : BitVec 32) (r : ToggleRequest) : BitVec 32 :=
  if r.enable then mask ||| r.bits else mask &&& ~~~ r.bits

theorem getLsbD_toggle (mask : BitVec 32) (r : ToggleRequest) (i : Nat) :
    (toggle mask r).getLsbD i =
      if r.bits.getLsbD i = true then r.enable else mask.getLsbD i := by
  unfold toggle
  cases henable : r.enable with
  | true =>
    rw [if_pos rfl, BitVec.getLsbD_or]
    cases r.bits.getLsbD i <;> simp
  | false =>
    rw [if_neg Bool.false_ne_true, BitVec.getLsbD_and, BitVec.getLsbD_not]
    cases hbit : r.bits.getLsbD i with
    | true => simp
    | false =>
      by_cases hi : i < 32
      · simp [hi]
      · simp [BitVec.getLsbD_of_ge _ _ (Nat.not_lt.mp hi)]

/-- The same request, or one on other bits. -/
def Apart (r r' : ToggleRequest) : Prop := r = r' ∨ r.bits &&& r'.bits = 0

theorem Apart.enable_eq {r r' : ToggleRequest} (h : r.Apart r') {i : Nat}
    (hi : r.bits.getLsbD i = true) (hi' : r'.bits.getLsbD i = true) : r.enable = r'.enable := by
  rcases h with rfl | hzero
  · rfl
  · have hboth : (r.bits &&& r'.bits).getLsbD i = true := by
      rw [BitVec.getLsbD_and, hi, hi', Bool.and_self]
    exact absurd (hzero ▸ hboth : (0 : BitVec 32).getLsbD i = true) (by simp)

/-- **Requests that agree on a bit decide it**, if there is one or the bit was so before. -/
theorem getLsbD_foldl {requests : List ToggleRequest} {mask : BitVec 32} {i : Nat} {b : Bool}
    (hagree : ∀ r ∈ requests, r.bits.getLsbD i = true → r.enable = b)
    (hb : mask.getLsbD i = b ∨ ∃ r ∈ requests, r.bits.getLsbD i = true) :
    (requests.foldl toggle mask).getLsbD i = b := by
  induction requests generalizing mask with
  | nil => exact hb.resolve_right fun ⟨_, hmem, _⟩ => absurd hmem List.not_mem_nil
  | cons r requests ih =>
    obtain ⟨hr, hagree⟩ := List.forall_mem_cons.mp hagree
    refine ih hagree ?_
    rw [getLsbD_toggle]
    split
    · rename_i hbit
      exact .inl (hr hbit)
    · rename_i hbit
      refine hb.imp_right fun ⟨r', hmem, hbit'⟩ => ⟨r', ?_, hbit'⟩
      exact (List.mem_cons.mp hmem).resolve_left fun heq => hbit (heq ▸ hbit')

end ToggleRequest

/-! ## The pieces of a request -/

/-- An update that is still to be announced. -/
structure ToggleTask where
  request : ToggleRequest
  newPermissions : BitVec 32
  deriving DecidableEq

/-- Checks and update, then the broadcast. -/
def toggles : Interleaved Unit World ToggleRequest ToggleTask where
  start _ w r :=
    if r.refusal.isSome then (w, none)
    else match w.store.toggleGroupPermission r.name r.bits r.enable with
      | none => (w, none)
      | some (newPermissions, store) => (w.mapStore fun _ => store, some ⟨r, newPermissions⟩)
  resume _ w t :=
    (w.broadcastGroup t.request.name t.newPermissions (builtinGroups.contains t.request.name) false,
      none)

namespace toggles

variable {w : World} {r : ToggleRequest} {name : String} {mask : BitVec 32}

theorem start_of_refusal (h : r.refusal.isSome) : toggles.start () w r = (w, none) := if_pos h

theorem start_of_no_group (h : w.store.getGroup r.name = none) :
    toggles.start () w r = (w, none) := by
  have hstore : w.store.toggleGroupPermission r.name r.bits r.enable = none := by
    rw [Persistence.toggleGroupPermission, ← Persistence.getGroup, h]
    rfl
  dsimp only [toggles]
  rw [hstore]
  exact ite_self _

/-- An accepted request. -/
theorem start_of_group (hr : r.refusal = none) (h : w.store.getGroup r.name = some mask) :
    toggles.start () w r = (w.mapStore (·.createGroup r.name (r.toggle mask)),
      some ⟨r, r.toggle mask⟩) := by
  have hstore : w.store.toggleGroupPermission r.name r.bits r.enable =
      some (r.toggle mask, w.store.createGroup r.name (r.toggle mask)) := by
    rw [Persistence.toggleGroupPermission, ← Persistence.getGroup, h]
    rfl
  dsimp only [toggles]
  rw [hr, hstore]
  rfl

/-- **A request that runs alone** does what the operation does. -/
theorem run_alone (w : World) (r : ToggleRequest) :
    (toggles.run ⟨w, []⟩ [((), .start r), ((), .resume 0)]).shared =
      (w.applyToggleGroupPermission r.name r.bits r.enable).2 := by
  have hrun : ∀ w' : World, toggles.start () w r = (w', none) →
      (toggles.run ⟨w, []⟩ [((), .start r), ((), .resume 0)]).shared = w' := fun w' h => by
    simp [Interleaved.run, Interleaved.step, h]
  unfold applyToggleGroupPermission
  split
  · rename_i hzero
    exact hrun w (start_of_refusal (by rw [ToggleRequest.refusal, if_pos hzero]; rfl))
  split
  · rename_i hzero hunknown
    refine hrun w (start_of_refusal ?_)
    rw [ToggleRequest.refusal, if_neg hzero, if_pos hunknown]
    rfl
  · rename_i hzero hunknown
    have hr : r.refusal = none := by
      rw [ToggleRequest.refusal, if_neg hzero, if_neg hunknown]
    cases h : w.store.getGroup r.name with
    | none =>
      rw [Persistence.toggleGroupPermission, ← Persistence.getGroup, h]
      exact hrun w (start_of_no_group h)
    | some mask =>
      rw [Persistence.toggleGroupPermission, ← Persistence.getGroup, h]
      simp only [Interleaved.run, Interleaved.step, List.foldl, start_of_group hr h]
      rfl

/-- The requests of a run that are on this group and pass the checks. -/
def accepted (name : String) (moves : List (Unit × Pick ToggleRequest)) : List ToggleRequest :=
  moves.filterMap fun m => match m.2 with
    | .start r => if r.name = name ∧ r.refusal = none then some r else none
    | .resume _ => none

theorem mem_accepted {moves : List (Unit × Pick ToggleRequest)} :
    r ∈ accepted name moves ↔ ((), .start r) ∈ moves ∧ r.name = name ∧ r.refusal = none := by
  unfold accepted
  rw [List.mem_filterMap]
  constructor
  · rintro ⟨⟨⟨⟩, r' | i⟩, hmem, h⟩
    · dsimp only at h
      split at h
      · obtain rfl := Option.some.inj h
        exact ⟨hmem, ‹_›⟩
      · cases h
    · cases h
  · rintro ⟨hmem, h⟩
    exact ⟨((), .start r), hmem, if_pos h⟩

/-- One move applies an accepted request to the mask; nothing else changes it. -/
theorem getGroup_step {p : Pool World ToggleTask} (h : p.shared.store.getGroup name = some mask)
    (m : Unit × Pick ToggleRequest) : (toggles.step p m).shared.store.getGroup name =
      some ((accepted name [m]).foldl ToggleRequest.toggle mask) := by
  obtain ⟨⟨⟩, r | i⟩ := m
  · show (toggles.start () p.shared r).1.store.getGroup name = _
    cases hr : r.refusal with
    | some message =>
      rw [start_of_refusal (by rw [hr]; rfl), h]
      simp [accepted, hr]
    | none =>
      by_cases hname : r.name = name
      · rw [start_of_group hr (hname ▸ h)]
        simp [accepted, hr, hname, Persistence.getGroup, Persistence.createGroup, mapStore]
      · have hkeep : (toggles.start () p.shared r).1.store.getGroup name = some mask := by
          cases hother : p.shared.store.getGroup r.name with
          | none => rwa [start_of_no_group hother]
          | some other =>
            rw [start_of_group hr hother]
            exact (Table.get_set_ne (Ne.symm hname)).trans h
        rw [hkeep]
        simp [accepted, hname]
  · have hstore : (toggles.step p ((), .resume i)).shared.store = p.shared.store := by
      unfold Interleaved.step
      dsimp only
      split
      · rfl
      · rfl
    exact (congrArg (·.getGroup name) hstore).trans h

theorem getGroup_run {p : Pool World ToggleTask} (h : p.shared.store.getGroup name = some mask)
    (moves : List (Unit × Pick ToggleRequest)) :
    (toggles.run p moves).shared.store.getGroup name =
      some ((accepted name moves).foldl ToggleRequest.toggle mask) := by
  induction moves generalizing p mask with
  | nil => exact h
  | cons m moves ih =>
    have hcons : accepted name (m :: moves) = accepted name [m] ++ accepted name moves :=
      List.filterMap_append (l := [m])
    rw [hcons, List.foldl_append]
    exact ih (getGroup_step h m)

end toggles

/-- **Toggles commute and lose nothing.** In any interleaving of requests whose accepted ones on a
group are apart, every accepted request leaves its bits as it asks, delivering it once more changes
nothing, and the other bits of the group are as before. -/
theorem toggles_land {w : World} {name : String} {mask : BitVec 32}
    (hgroup : w.store.getGroup name = some mask) {moves : List (Unit × Pick ToggleRequest)}
    (hapart : ∀ r ∈ toggles.accepted name moves, ∀ r' ∈ toggles.accepted name moves, r.Apart r') :
    ∃ final, (toggles.run ⟨w, []⟩ moves).shared.store.getGroup name = some final ∧
      (∀ r ∈ toggles.accepted name moves,
        (∀ i, r.bits.getLsbD i = true → final.getLsbD i = r.enable) ∧
        (toggles.run ⟨w, []⟩ (moves ++ [((), .start r)])).shared.store.getGroup name =
          some final) ∧
      ∀ i, (∀ r ∈ toggles.accepted name moves, r.bits.getLsbD i = false) →
        final.getLsbD i = mask.getLsbD i := by
  have hrun := toggles.getGroup_run (p := ⟨w, []⟩) hgroup moves
  refine ⟨_, hrun, fun r hr => ?_, fun i hi => ?_⟩
  · have hbits : ∀ i, r.bits.getLsbD i = true →
        ((toggles.accepted name moves).foldl ToggleRequest.toggle mask).getLsbD i = r.enable :=
      fun i hi => ToggleRequest.getLsbD_foldl
        (fun r' hr' hi' => (hapart r' hr' r hr).enable_eq hi' hi) (.inr ⟨r, hr, hi⟩)
    refine ⟨hbits, ?_⟩
    obtain ⟨-, hname, hok⟩ := toggles.mem_accepted.mp hr
    have hagain : toggles.accepted name [((), .start r)] = [r] := by
      simp [toggles.accepted, hname, hok]
    rw [Interleaved.run_snoc, toggles.getGroup_step hrun, hagain]
    refine congrArg some (BitVec.eq_of_getLsbD_eq fun i _ => ?_)
    rw [List.foldl_cons, List.foldl_nil, ToggleRequest.getLsbD_toggle]
    split
    · rename_i hi
      exact (hbits i hi).symm
    · rfl
  · exact ToggleRequest.getLsbD_foldl
      (fun r hr hbit => absurd ((hi r hr).symm.trans hbit) Bool.false_ne_true) (.inl rfl)

instance (r r' : ToggleRequest) : Decidable (r.Apart r') := inferInstanceAs (Decidable (_ ∨ _))

def sampleToggles : List (Unit × Pick ToggleRequest) :=
  [((), .start ⟨"mods", Permissions.speak, true⟩), ((), .start ⟨"mods", Permissions.enter, false⟩),
    ((), .resume 1), ((), .resume 0), ((), .start ⟨"mods", Permissions.speak, true⟩)]

/-- Two requests, announced in the opposite order, and the first one again. -/
theorem toggles_land_sample : ∃ final : BitVec 32,
    (toggles.run ⟨World.init (Persistence.empty.createGroup "mods" Permissions.enter), []⟩
      sampleToggles).shared.store.getGroup "mods" = some final ∧
    final.getLsbD 2 = true ∧ final.getLsbD 1 = false ∧ final.getLsbD 0 = false := by
  have hgroup : (World.init (Persistence.empty.createGroup "mods" Permissions.enter)).store.getGroup
      "mods" = some Permissions.enter := by decide
  obtain ⟨final, hget, hasked, hothers⟩ :=
    toggles_land hgroup (by decide : ∀ r ∈ toggles.accepted "mods" sampleToggles,
      ∀ r' ∈ toggles.accepted "mods" sampleToggles, r.Apart r')
  exact ⟨final, hget, (hasked ⟨"mods", Permissions.speak, true⟩ (by decide)).1 2 (by decide),
    (hasked ⟨"mods", Permissions.enter, false⟩ (by decide)).1 1 (by decide),
    hothers 0 (by decide)⟩

end Rumble.Server
