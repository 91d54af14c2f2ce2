import Rumble.Lib.Transition

/-!
# Replicas fed by a log

A system appends to a log, and each party rebuilds what it shows of the system from the entries it
receives. `Follows I J w w'` says what one operation has to: from a state in `I` it leads to one in
`J`, and the entries it appends are sound and take the replica of every party in session from
agreement with the old state to agreement with the new one. A party that comes into session must
agree whatever its replica was. `Follows` composes, and `Tracked.run` carries agreement through whole
runs.
-/

namespace Rumble.Lib.Replication

open Transition

/-- A system `W` with a log of `O`, and parties `ι` with a replica `ρ` each. -/
structure Feed (W ι ρ O : Type) where
  log : W → List O
  /-- The party is in session. -/
  live : W → ι → Prop
  /-- What the system promises of an entry. -/
  sound : O → Prop
  receive : ι → ρ → O → ρ
  agrees : ι → ρ → W → Prop

namespace Feed

variable {W ι ρ O : Type} (F : Feed W ι ρ O)

/-- A replica after some entries. -/
def follow (i : ι) (r : ρ) (outs : List O) : ρ := outs.foldl (F.receive i) r

/-- No party does anything with this entry. -/
def Ignored (o : O) : Prop := F.sound o ∧ ∀ i r, F.receive i r o = r

/-- The operation keeps its promises, and what it appends keeps every replica in step. -/
def Follows (I J : W → Prop) (w w' : W) : Prop :=
  I w → J w' ∧ ∃ outs, F.log w' = F.log w ++ outs ∧ (∀ o ∈ outs, F.sound o) ∧
    ∀ i r, F.live w' i → (F.live w i → F.agrees i r w) → F.agrees i (F.follow i r outs) w'

/-- Every replica in session, built from `start` and the whole log, agrees. -/
structure Tracked (start : ι → ρ) (I : W → Prop) (w : W) : Prop where
  holds : I w
  sound : ∀ o ∈ F.log w, F.sound o
  agrees : ∀ i, F.live w i → F.agrees i (F.follow i (start i) (F.log w)) w

/-- Between the two states the log grew by entries that are ignored. -/
def Hushed (w w' : W) : Prop := ∃ outs, F.log w' = F.log w ++ outs ∧ ∀ o ∈ outs, F.Ignored o

variable {F} {I J K : W → Prop} {w w' w'' : W}

theorem follow_append (i : ι) (r : ρ) (outs outs' : List O) :
    F.follow i r (outs ++ outs') = F.follow i (F.follow i r outs) outs' := List.foldl_append

theorem follow_ignored (i : ι) (r : ρ) {outs : List O} (h : ∀ o ∈ outs, F.Ignored o) :
    F.follow i r outs = r := by
  induction outs with
  | nil => rfl
  | cons o outs ih =>
    obtain ⟨ho, houts⟩ := List.forall_mem_cons.mp h
    show F.follow i (F.receive i r o) outs = r
    rw [ho.2, ih houts]

namespace Hushed

theorem refl : F.Hushed w w := ⟨[], (List.append_nil _).symm, fun _ ho => absurd ho List.not_mem_nil⟩

theorem of_log (h : F.log w' = F.log w) : F.Hushed w w' :=
  ⟨[], h.trans (List.append_nil _).symm, fun _ ho => absurd ho List.not_mem_nil⟩

theorem of_entry {o : O} (h : F.log w' = F.log w ++ [o]) (ho : F.Ignored o) : F.Hushed w w' :=
  ⟨[o], h, fun _ hmem => List.mem_singleton.mp hmem ▸ ho⟩

theorem trans (h : F.Hushed w w') (h' : F.Hushed w' w'') : F.Hushed w w'' := by
  obtain ⟨outs, hlog, hign⟩ := h
  obtain ⟨outs', hlog', hign'⟩ := h'
  refine ⟨outs ++ outs', by rw [hlog', hlog, List.append_assoc], fun o ho => ?_⟩
  rcases List.mem_append.mp ho with ho | ho
  · exact hign o ho
  · exact hign' o ho

theorem foldl {β : Type} {f : W → β → W} (hf : ∀ w b, F.Hushed w (f w b)) (l : List β) :
    F.Hushed w (l.foldl f w) := by
  induction l generalizing w with
  | nil => exact refl
  | cons b l ih => exact (hf w b).trans ih

end Hushed

namespace Follows

theorem refl : F.Follows I I w w := fun hI =>
  ⟨hI, [], (List.append_nil _).symm, fun _ ho => absurd ho List.not_mem_nil,
    fun _ _ hlive hr => hr hlive⟩

theorem trans (h : F.Follows I J w w') (h' : F.Follows J K w' w'') : F.Follows I K w w'' := by
  intro hI
  obtain ⟨hJ, outs, hlog, hsound, hfollow⟩ := h hI
  obtain ⟨hK, outs', hlog', hsound', hfollow'⟩ := h' hJ
  refine ⟨hK, outs ++ outs', by rw [hlog', hlog, List.append_assoc],
    List.forall_mem_append.mpr ⟨hsound, hsound'⟩, fun i r hlive hr => ?_⟩
  rw [follow_append]
  exact hfollow' i _ hlive fun hlive' => hfollow i r hlive' hr

/-- The operations of a loop, each with what holds where it starts. -/
theorem foldl {β : Type} {f : W → β → W} {P : W → β → Prop} (l : List β)
    (hP : ∀ w b b', P w b' → P (f w b) b') (hf : ∀ w b, P w b → F.Follows I I w (f w b))
    (hl : ∀ b ∈ l, P w b) : F.Follows I I w (l.foldl f w) := by
  induction l generalizing w with
  | nil => exact refl
  | cons b l ih =>
    obtain ⟨hb, hl⟩ := List.forall_mem_cons.mp hl
    exact (hf w b hb).trans (ih fun b' hb' => hP w b b' (hl b' hb'))

/-- What may be used of the state the operation starts from. -/
theorem of_holds (h : I w → F.Follows I J w w') : F.Follows I J w w' := fun hI => h hI hI

/-- Nothing a party shows has changed. -/
theorem hushed (hJ : I w → J w') (hlog : F.Hushed w w') (hlive : ∀ i, F.live w' i → F.live w i)
    (hagrees : ∀ i r, F.live w' i → F.agrees i r w → F.agrees i r w') : F.Follows I J w w' := by
  intro hI
  obtain ⟨outs, hlog, hign⟩ := hlog
  refine ⟨hJ hI, outs, hlog, fun o ho => (hign o ho).1, fun i r hi hr => ?_⟩
  rw [follow_ignored i r hign]
  exact hagrees i r hi (hr (hlive i hi))

/-- The change is announced by the last entry of the operation. -/
theorem announced {o : O} {mid : W} (hJ : I w → J w') (hlog : F.Hushed w mid)
    (hentry : F.log w' = F.log mid ++ [o]) (hsound : F.sound o)
    (hagrees : I w → ∀ i r, F.live w' i → (F.live w i → F.agrees i r w) →
      F.agrees i (F.receive i r o) w') :
    F.Follows I J w w' := by
  intro hI
  obtain ⟨outs, hlog, hign⟩ := hlog
  refine ⟨hJ hI, outs ++ [o], by rw [hentry, hlog, List.append_assoc],
    List.forall_mem_append.mpr ⟨fun o ho => (hign o ho).1, List.forall_mem_singleton.mpr hsound⟩,
    fun i r hi hr => ?_⟩
  rw [follow_append, follow_ignored i r hign]
  exact hagrees hI i r hi hr

/-- **Step rule.** An operation keeps all replicas in agreement. -/
theorem tracked {start : ι → ρ} (h : F.Follows I J w w') (hw : F.Tracked start I w) :
    F.Tracked start J w' := by
  obtain ⟨hJ, outs, hlog, hsound, hfollow⟩ := h hw.holds
  refine ⟨hJ, hlog ▸ List.forall_mem_append.mpr ⟨hw.sound, hsound⟩, fun i hi => ?_⟩
  rw [hlog, follow_append]
  exact hfollow i _ hi (hw.agrees i)

end Follows

/-- **Run rule.** When every step that meets `C` follows, a run of such steps keeps all replicas in
agreement. -/
theorem Tracked.run {σ : Type} {step : W → σ → W} {C : W → σ → Prop} {start : ι → ρ}
    (hstep : ∀ w x, C w x → F.Follows I I w (step w x)) {inputs : List σ}
    (h : Always step C w inputs) (hw : F.Tracked start I w) :
    F.Tracked start I (inputs.foldl step w) :=
  h.invariant (fun w x hC hw => (hstep w x hC).tracked hw) hw

end Feed

end Rumble.Lib.Replication
