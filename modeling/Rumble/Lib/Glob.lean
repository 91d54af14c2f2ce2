import Rumble.Lib.Utf8

/-!
# Patterns with a wildcard

`Denotes star p t` says that `t` is `p` with some run, empty or not, in the place of each `star`.
Cut at the stars, a pattern is a first word, words in the middle and a last one; the middle words
occur in order in what the outer two leave (`denotes_iff`). Taking the first occurrence of each is
enough to find out (`occursIn_cons`).
-/

namespace Rumble.Lib.Glob

variable {α : Type}

/-! ## Words in order -/

/-- The words occur in `s` in this order, without overlap. -/
def OccursIn : List (List α) → List α → Prop
  | [], _ => True
  | w :: ws, s => ∃ a b, s = a ++ w ++ b ∧ OccursIn ws b

theorem OccursIn.append_left {ws : List (List α)} {s : List α} (h : OccursIn ws s) (a : List α) :
    OccursIn ws (a ++ s) := by
  cases ws with
  | nil => trivial
  | cons w ws =>
    obtain ⟨b, c, rfl, hws⟩ := h
    exact ⟨a ++ b, c, by simp, hws⟩

/-- **The first occurrence of the first word will do.** -/
theorem occursIn_cons [BEq α] [LawfulBEq α] {w : List α} {ws : List (List α)} {s a b : List α}
    (h : s.dropInfix? w = some (a, b)) : OccursIn (w :: ws) s ↔ OccursIn ws b := by
  obtain ⟨rfl, hfirst⟩ := dropInfix?_eq_some.mp h
  constructor
  · rintro ⟨a', b', hs, hws⟩
    have hlen : a.length ≤ a'.length := hfirst a' b' hs
    -- the rest after a later occurrence ends the rest after the first one
    have hlater : b' <:+ a ++ w ++ b := ⟨a' ++ w, hs.symm⟩
    obtain ⟨gap, rfl⟩ : b' <:+ b := by
      apply List.suffix_of_suffix_length_le hlater ⟨a ++ w, rfl⟩
      have := congrArg List.length hs
      simp only [List.length_append] at this
      omega
    exact hws.append_left gap
  · exact fun hws => ⟨a, b, rfl, hws⟩

/-! ## Patterns -/

/-- `t` is the pattern with a run in the place of each star. -/
inductive Denotes (star : α) : List α → List α → Prop
  | nil : Denotes star [] []
  | literal {c : α} {p t : List α} : c ≠ star → Denotes star p t → Denotes star (c :: p) (c :: t)
  | wild {p t : List α} (run : List α) : Denotes star p t → Denotes star (star :: p) (run ++ t)

/-- The words of a pattern in order, with a run before each but the first. -/
def Joined : List (List α) → List α → Prop
  | [], t => t = []
  | [w], t => t = w
  | w :: v :: ws, t => ∃ run rest, t = w ++ run ++ rest ∧ Joined (v :: ws) rest

theorem joined_modifyHead {c : α} {ws : List (List α)} (hws : ws ≠ []) {t : List α} :
    Joined (ws.modifyHead (c :: ·)) t ↔ ∃ rest, t = c :: rest ∧ Joined ws rest := by
  match ws with
  | [w] => simp [Joined]
  | w :: v :: ws =>
    constructor
    · rintro ⟨run, rest, rfl, h⟩
      exact ⟨w ++ run ++ rest, by simp, run, rest, rfl, h⟩
    · rintro ⟨_, rfl, run, rest, rfl, h⟩
      exact ⟨run, rest, by simp, h⟩

theorem denotes_star {star : α} {p t : List α} :
    Denotes star (star :: p) t ↔ ∃ run rest, t = run ++ rest ∧ Denotes star p rest := by
  constructor
  · intro h
    cases h with
    | literal hne => exact absurd rfl hne
    | wild run h => exact ⟨run, _, rfl, h⟩
  · rintro ⟨run, rest, rfl, h⟩
    exact .wild run h

theorem denotes_literal {star c : α} (hc : c ≠ star) {p t : List α} :
    Denotes star (c :: p) t ↔ ∃ rest, t = c :: rest ∧ Denotes star p rest := by
  constructor
  · intro h
    cases h with
    | literal _ h => exact ⟨_, rfl, h⟩
    | wild => exact absurd rfl hc
  · rintro ⟨rest, rfl, h⟩
    exact .literal hc h

variable [BEq α] [LawfulBEq α]

theorem denotes_iff_joined (star : α) (p : List α) : ∀ t : List α,
    Denotes star p t ↔ Joined (p.splitOn star) t := by
  induction p with
  | nil =>
    intro t
    rw [List.splitOn_nil]
    constructor
    · intro h
      cases h
      rfl
    · rintro rfl
      exact .nil
  | cons c p ih =>
    intro t
    have hne : p.splitOn star ≠ [] := List.splitOn_ne_nil star p
    rw [List.splitOn_cons_eq_if_modifyHead]
    by_cases hc : c = star
    · subst hc
      rw [if_pos (beq_self_eq_true c), denotes_star]
      obtain ⟨w, ws, hws⟩ := List.exists_cons_of_ne_nil hne
      simp only [ih, hws, Joined, List.nil_append]
    · rw [if_neg (by simpa using hc), denotes_literal hc, joined_modifyHead hne]
      simp only [ih]

omit [BEq α] [LawfulBEq α] in
theorem joined_iff (ms : List (List α)) (z : List α) : ∀ a t : List α,
    Joined (a :: (ms ++ [z])) t ↔ ∃ w, t = a ++ w ++ z ∧ OccursIn ms w := by
  induction ms with
  | nil =>
    intro a t
    constructor
    · rintro ⟨run, rest, rfl, rfl⟩
      exact ⟨run, rfl, trivial⟩
    · rintro ⟨w, rfl, -⟩
      exact ⟨w, z, rfl, rfl⟩
  | cons m ms ih =>
    intro a t
    constructor
    · rintro ⟨run, rest, rfl, h⟩
      obtain ⟨w, rfl, hms⟩ := (ih m rest).mp h
      exact ⟨run ++ m ++ w, by simp, run, w, rfl, hms⟩
    · rintro ⟨_, rfl, run, w, rfl, hms⟩
      exact ⟨run, m ++ w ++ z, by simp, (ih m _).mpr ⟨w, rfl, hms⟩⟩

/-- **What a pattern with a star denotes, by its words.** -/
theorem denotes_iff {star : α} {p a z : List α} {ms : List (List α)}
    (hp : p.splitOn star = a :: (ms ++ [z])) (t : List α) :
    Denotes star p t ↔ ∃ w, t = a ++ w ++ z ∧ OccursIn ms w := by
  rw [denotes_iff_joined, hp, joined_iff]

/-- A pattern without a star denotes itself. -/
theorem denotes_of_notMem {star : α} {p : List α} (hp : star ∉ p) (t : List α) :
    Denotes star p t ↔ t = p := by
  rw [denotes_iff_joined, List.splitOn_eq_singleton hp]
  rfl

/-- A pattern with a star has a first word and a last one. -/
theorem splitOn_of_mem {star : α} {p : List α} (hp : star ∈ p) :
    ∃ a ms z, p.splitOn star = a :: (ms ++ [z]) := by
  obtain ⟨a, b, rfl⟩ := List.append_of_mem hp
  rw [List.splitOn_append_cons_self]
  obtain ⟨w, ws, hw⟩ := List.exists_cons_of_ne_nil (List.splitOn_ne_nil star a)
  obtain ⟨vs, z, hz⟩ := List.eq_nil_or_concat (b.splitOn star) |>.resolve_left
    (List.splitOn_ne_nil star b)
  exact ⟨w, ws ++ vs, z, by rw [hw, hz]; simp⟩

end Rumble.Lib.Glob
