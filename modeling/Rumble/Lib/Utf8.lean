import Mathlib.Data.String.Basic
import Mathlib.Data.Nat.Find

/-!
# Text by byte offsets

A `str` is the list of its characters. Offsets and lengths count bytes of its UTF-8 encoding, as
`String.utf8Len` does. A slice is `none` where the offset lies outside the text or inside a
character, which is where the operation panics.
-/

namespace Rumble.Lib

/-- A `str`. -/
abbrev Str := List Char

namespace Str

open String (utf8Len)

/-- The text before a byte offset and the text from there on. -/
def splitAt? (n : Nat) : Str → Option (Str × Str)
  | [] => if n = 0 then some ([], []) else none
  | c :: s =>
    if n = 0 then some ([], c :: s)
    else if c.utf8Size ≤ n then (splitAt? (n - c.utf8Size) s).map fun e => (c :: e.1, e.2)
    else none

/-- `&s[n..]` -/
def dropBytes? (s : Str) (n : Nat) : Option Str := (splitAt? n s).map Prod.snd

/-- `&s[n..m]` -/
def slice? (s : Str) (n m : Nat) : Option Str :=
  if n ≤ m then (dropBytes? s n).bind fun rest => (splitAt? (m - n) rest).map Prod.fst else none

/-- `find`: the byte offset of the first occurrence. -/
def find (s word : Str) : Option Nat := (s.dropInfix? word).map fun e => utf8Len e.1

def toAsciiLowercase (s : Str) : Str := s.map Char.toLower

/-! ## Slices -/

theorem splitAt?_append (a b : Str) : splitAt? (utf8Len a) (a ++ b) = some (a, b) := by
  induction a with
  | nil => cases b <;> simp [splitAt?]
  | cons c a ih =>
    have hpos := c.utf8Size_pos
    rw [List.cons_append, splitAt?, if_neg (by rw [String.utf8Len_cons]; omega),
      if_pos (by rw [String.utf8Len_cons]; omega), String.utf8Len_cons, Nat.add_sub_cancel, ih]
    rfl

@[simp] theorem dropBytes?_append (a b : Str) : dropBytes? (a ++ b) (utf8Len a) = some b := by
  rw [dropBytes?, splitAt?_append]
  rfl

theorem slice?_append (a m b : Str) :
    slice? (a ++ (m ++ b)) (utf8Len a) (utf8Len a + utf8Len m) = some m := by
  rw [slice?, if_pos (Nat.le_add_right _ _), dropBytes?_append, Option.bind_some,
    Nat.add_sub_cancel_left, splitAt?_append]
  rfl

/-! ## ASCII lower case -/

theorem utf8Size_toLower (c : Char) : c.toLower.utf8Size = c.utf8Size := by
  unfold Char.toLower
  split
  · simp only [Char.utf8Size]
    grind
  · rfl

/-- Offsets into the text are offsets into its lower case. -/
@[simp] theorem utf8Len_toAsciiLowercase (s : Str) : utf8Len s.toAsciiLowercase = utf8Len s := by
  induction s with
  | nil => rfl
  | cons c s ih =>
    rw [toAsciiLowercase, List.map_cons, String.utf8Len_cons, String.utf8Len_cons, utf8Size_toLower]
    exact congrArg (· + c.utf8Size) ih

@[simp] theorem toAsciiLowercase_append (s t : Str) :
    toAsciiLowercase (s ++ t) = s.toAsciiLowercase ++ t.toAsciiLowercase := List.map_append

end Str

/-! ## First occurrences -/

section FirstOccurrence

variable {α : Type} [BEq α] [LawfulBEq α] {s word a b : List α}

theorem dropInfix?_eq_some : s.dropInfix? word = some (a, b) ↔
    s = a ++ word ++ b ∧ ∀ a' b', s = a' ++ word ++ b' → a.length ≤ a'.length := by
  rw [List.dropInfix?_eq_some_iff]
  simp only [beq_iff_eq]
  constructor
  · rintro ⟨⟨_, hs, rfl⟩, hfirst⟩
    exact ⟨hs, fun a' b' h => hfirst a' _ b' h rfl⟩
  · rintro ⟨hs, hfirst⟩
    refine ⟨⟨word, hs, rfl⟩, fun a' w b' h hw => ?_⟩
    subst hw
    exact hfirst a' b' h

theorem dropInfix?_eq_none : s.dropInfix? word = none ↔ ¬ word <:+: s := by
  constructor
  · rintro hnone ⟨a, b, h⟩
    have hex : ∃ n a b, s = a ++ word ++ b ∧ a.length = n := ⟨_, a, b, h.symm, rfl⟩
    classical
    obtain ⟨a₀, b₀, hs, hlen⟩ := Nat.find_spec hex
    have hsome : s.dropInfix? word = some (a₀, b₀) := dropInfix?_eq_some.mpr
      ⟨hs, fun a' b' h' => hlen ▸ Nat.find_min' hex ⟨a', b', h', rfl⟩⟩
    rw [hnone] at hsome
    cases hsome
  · intro hnot
    cases h : s.dropInfix? word with
    | none => rfl
    | some e =>
      obtain ⟨a, b⟩ := e
      exact absurd ⟨a, b, (dropInfix?_eq_some.mp h).1.symm⟩ hnot

end FirstOccurrence

end Rumble.Lib
