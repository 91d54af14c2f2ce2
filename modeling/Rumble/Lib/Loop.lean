/-!
# Loops without a bound

A loop by its body, which answers either the result or the state to go on with. `Loops body s r`
says that the loop terminates with `r` when it starts at `s`; a definition with a bound on the
iterations computes the loop when it satisfies this relation. A loop over a list whose body may run out
of its bound runs out exactly when a round that is made does (`exists_anyM`, `exists_foldlM`).
-/

namespace Rumble.Lib

/-- The loop ends, with this result. -/
inductive Loops {σ ρ : Type} (body : σ → ρ ⊕ σ) : σ → ρ → Prop
  | stop {s : σ} {r : ρ} (h : body s = .inl r) : Loops body s r
  | next {s s' : σ} {r : ρ} (h : body s = .inr s') (hrest : Loops body s' r) : Loops body s r

/-- There is one result at most. -/
theorem Loops.unique {σ ρ : Type} {body : σ → ρ ⊕ σ} {s : σ} {r r' : ρ} (h : Loops body s r)
    (h' : Loops body s r') : r = r' := by
  induction h with
  | stop h =>
    cases h' with
    | stop h' => exact Sum.inl.inj (h.symm.trans h')
    | next h' => cases h.symm.trans h'
  | next h _ ih =>
    cases h' with
    | stop h' => cases h.symm.trans h'
    | next h' hrest =>
      obtain rfl := Sum.inr.inj (h.symm.trans h')
      exact ih hrest

/-! ## Loops over a list -/

section Lists

variable {α σ : Type} {l : List α}

theorem exists_anyM {f : α → Option Bool} (h : ∀ a ∈ l, ∃ b, f a = some b) :
    ∃ b, l.anyM f = some b := by
  induction l with
  | nil => exact ⟨false, rfl⟩
  | cons a l ih =>
    obtain ⟨ha, hl⟩ := List.forall_mem_cons.mp h
    obtain ⟨b, hb⟩ := ha
    cases b with
    | true => exact ⟨true, by simp [List.anyM, hb]⟩
    | false => simpa [List.anyM, hb] using ih hl

theorem exists_of_anyM {f : α → Option Bool} (h : l.anyM f = some true) :
    ∃ a ∈ l, f a = some true := by
  induction l with
  | nil => cases h
  | cons a l ih =>
    cases hfa : f a with
    | none => simp [List.anyM, hfa] at h
    | some b =>
      cases b with
      | true => exact ⟨a, List.mem_cons_self, hfa⟩
      | false =>
        obtain ⟨c, hc, hfc⟩ := ih (by simpa [List.anyM, hfa] using h)
        exact ⟨c, List.mem_cons_of_mem a hc, hfc⟩

theorem forall_of_anyM {f : α → Option Bool} (h : l.anyM f = some false) :
    ∀ a ∈ l, f a = some false := by
  induction l with
  | nil => exact fun a ha => absurd ha List.not_mem_nil
  | cons a l ih =>
    cases hfa : f a with
    | none => simp [List.anyM, hfa] at h
    | some b =>
      cases b with
      | true => simp [List.anyM, hfa] at h
      | false => exact List.forall_mem_cons.mpr ⟨hfa, ih (by simpa [List.anyM, hfa] using h)⟩

theorem exists_foldlM {f : σ → α → Option σ} (h : ∀ a ∈ l, ∀ s, ∃ s', f s a = some s') (s : σ) :
    ∃ s', l.foldlM f s = some s' := by
  induction l generalizing s with
  | nil => exact ⟨s, rfl⟩
  | cons a l ih =>
    obtain ⟨ha, hl⟩ := List.forall_mem_cons.mp h
    obtain ⟨s', hs'⟩ := ha s
    simpa [List.foldlM_cons, hs'] using ih hl s'

end Lists

end Rumble.Lib
