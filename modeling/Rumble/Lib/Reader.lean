import Mathlib.Data.List.Infix

/-!
# Messages off a source

A `Reader` takes messages off a source whose content is a list of symbols, in whatever way the
source holds them. `Holds` is what a source still has for it: whole messages, and then what makes
the next read fail. Every source holds exactly one list of messages, and a loop of reads gets them
in order.
-/

namespace Rumble.Lib

/-- `Good` are the messages that can be read; `Fails` says which content makes a read fail. -/
structure Reader (σ α μ ε : Type) where
  read : σ → Except ε (μ × σ)
  view : σ → List α
  enc : μ → List α
  Good : μ → Prop
  Fails : List α → ε → Prop
  exists_view : ∀ l, ∃ s, view s = l
  enc_ne_nil : ∀ m, enc m ≠ []
  reads : ∀ {s m rest}, Good m → view s = enc m ++ rest →
    ∃ s', read s = .ok (m, s') ∧ view s' = rest
  sound : ∀ {s m s'}, read s = .ok (m, s') → Good m ∧ view s = enc m ++ view s'
  fails : ∀ {s e}, read s = .error e ↔ Fails (view s) e

namespace Reader

variable {σ α μ ε : Type} (r : Reader σ α μ ε)

/-- What a loop of so many reads gets; it ends with the first that fails. -/
def messages : Nat → σ → List μ
  | 0, _ => []
  | n + 1, s => match r.read s with
    | .error _ => []
    | .ok (m, s) => m :: messages n s

/-- The messages that a source still has, and how the read after them fails. -/
structure Holds (s : σ) (ms : List μ) (e : ε) : Prop where
  good : ∀ m ∈ ms, r.Good m
  stops : ∃ tail, r.view s = ms.flatMap r.enc ++ tail ∧ r.Fails tail e

variable {r} {s : σ} {m : μ} {ms : List μ} {e : ε}

/-- One content starts with one message. -/
theorem enc_inj {m' : μ} {rest rest' : List α} (hm : r.Good m) (hm' : r.Good m')
    (h : r.enc m ++ rest = r.enc m' ++ rest') : m = m' ∧ rest = rest' := by
  obtain ⟨s, hs⟩ := r.exists_view (r.enc m ++ rest)
  obtain ⟨s₁, hread, hrest⟩ := r.reads hm hs
  obtain ⟨s₂, hread', hrest'⟩ := r.reads hm' (hs.trans h)
  obtain ⟨rfl, rfl⟩ := Prod.mk.inj (Except.ok.inj (hread.symm.trans hread'))
  exact ⟨rfl, hrest.symm.trans hrest'⟩

namespace Holds

theorem read_nil (h : r.Holds s [] e) : r.read s = .error e := by
  obtain ⟨tail, hview, hfails⟩ := h.stops
  rw [r.fails, hview]
  exact hfails

theorem read_cons (h : r.Holds s (m :: ms) e) :
    ∃ s', r.read s = .ok (m, s') ∧ r.Holds s' ms e := by
  obtain ⟨tail, hview, hfails⟩ := h.stops
  rw [List.flatMap_cons, List.append_assoc] at hview
  obtain ⟨s', hread, hrest⟩ := r.reads (h.good m List.mem_cons_self) hview
  exact ⟨s', hread, fun m' hm' => h.good m' (List.mem_cons_of_mem _ hm'), tail, hrest, hfails⟩

theorem of_read {s' : σ} (hread : r.read s = .ok (m, s')) (h : r.Holds s' ms e) :
    r.Holds s (m :: ms) e := by
  obtain ⟨hgood, hview⟩ := r.sound hread
  obtain ⟨tail, hview', hfails⟩ := h.stops
  refine ⟨List.forall_mem_cons.mpr ⟨hgood, h.good⟩, tail, ?_, hfails⟩
  rw [hview, hview', List.flatMap_cons, List.append_assoc]

theorem unique {ms' : List μ} {e' : ε} (h : r.Holds s ms e) (h' : r.Holds s ms' e') :
    ms = ms' ∧ e = e' := by
  induction ms generalizing s ms' with
  | nil =>
    cases ms' with
    | nil => exact ⟨rfl, Except.error.inj (h.read_nil.symm.trans h'.read_nil)⟩
    | cons m' ms' =>
      obtain ⟨_, hread, _⟩ := h'.read_cons
      cases h.read_nil.symm.trans hread
  | cons m ms ih =>
    obtain ⟨s₁, hread, hrest⟩ := h.read_cons
    cases ms' with
    | nil => cases hread.symm.trans h'.read_nil
    | cons m' ms' =>
      obtain ⟨s₂, hread', hrest'⟩ := h'.read_cons
      obtain ⟨rfl, rfl⟩ := Prod.mk.inj (Except.ok.inj (hread.symm.trans hread'))
      obtain ⟨rfl, rfl⟩ := ih hrest hrest'
      exact ⟨rfl, rfl⟩

theorem iff {ms' : List μ} {e' : ε} (h : r.Holds s ms e) :
    r.Holds s ms' e' ↔ ms' = ms ∧ e' = e := by
  refine ⟨fun h' => h'.unique h, ?_⟩
  rintro ⟨rfl, rfl⟩
  exact h

/-- A loop of reads gets the messages in order. -/
theorem messages_eq (h : r.Holds s ms e) (n : Nat) : r.messages n s = ms.take n := by
  induction n generalizing s ms with
  | zero => rfl
  | succ n ih =>
    cases ms with
    | nil => rw [messages, h.read_nil, List.take_nil]
    | cons m ms =>
      obtain ⟨s', hread, hrest⟩ := h.read_cons
      rw [messages, hread, List.take_succ_cons, ← ih hrest]

end Holds

/-- **Every source holds messages.** -/
theorem exists_holds (r : Reader σ α μ ε) (s : σ) : ∃ ms e, r.Holds s ms e := by
  cases hread : r.read s with
  | error e => exact ⟨[], e, fun m hm => absurd hm List.not_mem_nil, _, rfl, r.fails.mp hread⟩
  | ok p =>
    obtain ⟨m, s'⟩ := p
    have hlt : (r.view s').length < (r.view s).length := by
      rw [(r.sound hread).2, List.length_append]
      have := List.length_pos_of_ne_nil (r.enc_ne_nil m)
      omega
    obtain ⟨ms, e, h⟩ := exists_holds r s'
    exact ⟨m :: ms, e, h.of_read hread⟩
termination_by (r.view s).length

/-- **A beginning of the symbols of some messages holds a beginning of the messages**, namely those
that it has in full. -/
theorem Holds.of_cut {sent : List μ} (hgood : ∀ m ∈ sent, r.Good m) (h : r.Holds s ms e)
    (hcut : r.view s <+: sent.flatMap r.enc) :
    ms <+: sent ∧ (ms.length < sent.length →
      (r.view s).length < ((sent.take (ms.length + 1)).flatMap r.enc).length) := by
  induction ms generalizing s sent with
  | nil =>
    refine ⟨List.nil_prefix, fun hlt => ?_⟩
    obtain ⟨m, sent, rfl⟩ := List.exists_cons_of_length_pos hlt
    obtain ⟨more, hmore⟩ := hcut
    rw [List.flatMap_cons] at hmore
    by_contra hle
    -- the first message is there in full, so the read would not fail
    have hlong : (r.enc m).length ≤ (r.view s).length := by
      simpa [List.flatMap_cons] using hle
    have hview : r.enc m ++ (r.view s).drop (r.enc m).length = r.view s := by
      have htake := congrArg (List.take (r.enc m).length) hmore
      rw [List.take_append_of_le_length hlong, List.take_left] at htake
      rw [← htake, List.length_take, Nat.min_eq_left hlong, List.take_append_drop]
    obtain ⟨s', hread, _⟩ := r.reads (hgood m List.mem_cons_self) hview.symm
    cases h.read_nil.symm.trans hread
  | cons m ms ih =>
    obtain ⟨s', hread, hrest⟩ := h.read_cons
    obtain ⟨hm, hview⟩ := r.sound hread
    obtain ⟨more, hmore⟩ := hcut
    rw [hview, List.append_assoc] at hmore
    cases sent with
    | nil => exact absurd (List.append_eq_nil_iff.mp hmore).1 (r.enc_ne_nil m)
    | cons m' sent =>
      rw [List.flatMap_cons] at hmore
      obtain ⟨rfl, htail⟩ := enc_inj hm (hgood m' List.mem_cons_self) hmore
      obtain ⟨hbegin, hshort⟩ := ih (fun m hm => hgood m (List.mem_cons_of_mem _ hm)) hrest
        ⟨more, htail⟩
      refine ⟨List.cons_prefix_cons.mpr ⟨rfl, hbegin⟩, fun hlt => ?_⟩
      rw [hview, List.length_cons, List.take_succ_cons, List.flatMap_cons, List.length_append,
        List.length_append]
      exact Nat.add_lt_add_left (hshort (Nat.lt_of_succ_lt_succ hlt)) _

end Reader

end Rumble.Lib
