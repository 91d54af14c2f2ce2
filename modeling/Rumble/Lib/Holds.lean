import Mathlib.Algebra.BigOperators.Group.List.Basic
import Mathlib.Algebra.Order.Ring.Int
import Mathlib.Data.List.Count

/-!
# Keys that are held

Presses and releases of keys, and what they are when each key stands for some function or for none.
Over events that press what is up and release what is down, the presses of a function less its
releases are the keys for it that came to be held (`net_translate`), so that a change of what the
keys stand for is not noticed when it keeps that of the keys that are down (`held_congr`).
-/

namespace Rumble.Lib

inductive KeyState where
  | pressed
  | released
  deriving DecidableEq

structure KeyEvent (κ : Type) where
  key : κ
  state : KeyState
  deriving DecidableEq

variable {κ φ : Type} [DecidableEq κ] [DecidableEq φ]

namespace KeyEvent

/-- The keys that are down after an event. -/
def apply (down : List κ) (e : KeyEvent κ) : List κ :=
  match e.state with
  | .pressed => e.key :: down
  | .released => down.erase e.key

/-- A key that is up is pressed, or one that is down is released. -/
def Fits (down : List κ) (e : KeyEvent κ) : Prop :=
  match e.state with
  | .pressed => e.key ∉ down
  | .released => e.key ∈ down

instance : ∀ (down : List κ) (e : KeyEvent κ), Decidable (e.Fits down)
  | down, ⟨key, .pressed⟩ => inferInstanceAs (Decidable (key ∉ down))
  | down, ⟨key, .released⟩ => inferInstanceAs (Decidable (key ∈ down))

/-- The event of the function that the key stands for. -/
def translate (a : κ → Option φ) (e : KeyEvent κ) : Option (KeyEvent φ) :=
  (a e.key).map (⟨·, e.state⟩)

/-- `1` for a press of `f`, `-1` for a release of it. -/
def delta (f : φ) (e : KeyEvent φ) : Int :=
  if e.key = f then
    match e.state with
    | .pressed => 1
    | .released => -1
  else 0

end KeyEvent

/-- The events fit one after the other, and lead from the one set of keys to the other. -/
def PlaysTo : List κ → List (KeyEvent κ) → List κ → Prop
  | down, [], down' => down' = down
  | down, e :: es, down' => e.Fits down ∧ PlaysTo (e.apply down) es down'

theorem PlaysTo.concat {down down' : List κ} {es : List (KeyEvent κ)} {e : KeyEvent κ}
    (h : PlaysTo down es down') (he : e.Fits down') : PlaysTo down (es ++ [e]) (e.apply down') := by
  induction es generalizing down with
  | nil => exact h ▸ ⟨he, rfl⟩
  | cons e' es ih => exact ⟨h.1, ih h.2⟩

/-- Presses less releases of a function. -/
def net (f : φ) (es : List (KeyEvent φ)) : Int := (es.map (KeyEvent.delta f)).sum

@[simp] theorem net_nil (f : φ) : net f [] = 0 := rfl

@[simp] theorem net_cons (f : φ) (e : KeyEvent φ) (es : List (KeyEvent φ)) :
    net f (e :: es) = e.delta f + net f es := by
  simp [net]

@[simp] theorem net_append (f : φ) (es es' : List (KeyEvent φ)) :
    net f (es ++ es') = net f es + net f es' := by
  simp [net]

theorem net_eq_count (f : φ) (es : List (KeyEvent φ)) :
    net f es = es.count ⟨f, .pressed⟩ - es.count ⟨f, .released⟩ := by
  induction es with
  | nil => rfl
  | cons e es ih =>
    obtain ⟨g, state⟩ := e
    rw [net_cons, ih, List.count_cons, List.count_cons]
    by_cases hg : g = f
    · subst hg
      cases state <;> simp [KeyEvent.delta] <;> omega
    · simp [KeyEvent.delta, hg]

/-- The keys for a function among those that are down. -/
def held (a : κ → Option φ) (down : List κ) (f : φ) : Nat := (down.filterMap a).count f

omit [DecidableEq κ] in
@[simp] theorem held_nil (a : κ → Option φ) (f : φ) : held a [] f = 0 := rfl

omit [DecidableEq κ] in
theorem held_cons (a : κ → Option φ) (k : κ) (down : List κ) (f : φ) :
    held a (k :: down) f = (if a k = some f then 1 else 0) + held a down f := by
  unfold held
  rw [List.filterMap_cons]
  cases a k with
  | none => simp
  | some g => simp [List.count_cons, Nat.add_comm]

theorem held_erase (a : κ → Option φ) {k : κ} {down : List κ} (h : k ∈ down) (f : φ) :
    held a down f = (if a k = some f then 1 else 0) + held a (down.erase k) f := by
  have hperm := (List.perm_cons_erase h).filterMap a
  rw [← held_cons, held, held, hperm.count_eq]

omit [DecidableEq κ] in
/-- Only what the keys that are down stand for counts. -/
theorem held_congr {a b : κ → Option φ} {down : List κ} (h : ∀ k ∈ down, a k = b k) (f : φ) :
    held a down f = held b down f := by
  rw [held, held, List.filterMap_congr h]

theorem held_apply (a : κ → Option φ) {down : List κ} {e : KeyEvent κ} (h : e.Fits down) (f : φ) :
    (held a (e.apply down) f : Int) = held a down f + net f (e.translate a).toList := by
  obtain ⟨k, state⟩ := e
  have hnet : net f (KeyEvent.translate a ⟨k, state⟩).toList =
      if a k = some f then KeyEvent.delta f ⟨f, state⟩ else 0 := by
    unfold KeyEvent.translate
    cases a k with
    | none => simp
    | some g => by_cases hg : g = f <;> simp [KeyEvent.delta, hg]
  rw [hnet]
  cases state with
  | pressed =>
    show (held a (k :: down) f : Int) = _
    rw [held_cons]
    split <;> simp [KeyEvent.delta, Int.add_comm]
  | released =>
    show (held a (down.erase k) f : Int) = _
    rw [held_erase a h f]
    split <;> simp [KeyEvent.delta]

/-- **The presses less the releases of a function are the keys for it that came to be held.** -/
theorem net_translate (a : κ → Option φ) {down down' : List κ} {es : List (KeyEvent κ)}
    (h : PlaysTo down es down') (f : φ) :
    net f (es.filterMap (KeyEvent.translate a)) = held a down' f - held a down f := by
  induction es generalizing down with
  | nil =>
    obtain rfl : down' = down := h
    simp
  | cons e es ih =>
    have hrest := ih h.2
    rw [held_apply a h.1] at hrest
    rw [List.filterMap_cons]
    cases he : e.translate a with
    | none =>
      rw [he] at hrest
      simpa using hrest
    | some e' =>
      rw [he] at hrest
      simp at hrest ⊢
      omega

end Rumble.Lib
