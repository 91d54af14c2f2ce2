import Mathlib.Tactic.Linarith
import Mathlib.Data.List.Infix

/-!
# Base-128 numbers

A number as bytes of seven bits each, the lowest first, where every byte but the last has its high
bit set. A number has many encodings, as high groups may be zero; it has one shortest encoding. No
encoding is a proper prefix of another one.
-/

namespace Rumble.Lib

/-- The bytes are an encoding of the number. -/
inductive IsVarint : List UInt8 → Nat → Prop
  | last (b : UInt8) (h : b.toNat < 128) : IsVarint [b] b.toNat
  | more {bs : List UInt8} {n : Nat} (b : UInt8) (h : 128 ≤ b.toNat) (rest : IsVarint bs n) :
      IsVarint (b :: bs) (b.toNat - 128 + 128 * n)

namespace Varint

/-- The bytes of the shortest encoding. -/
def width (n : Nat) : Nat := if n < 128 then 1 else 1 + width (n / 128)
termination_by n
decreasing_by omega

def encode (n : Nat) : List UInt8 :=
  if n < 128 then [n.toUInt8] else (n % 128 + 128).toUInt8 :: encode (n / 128)
termination_by n
decreasing_by omega

/-- The number at the start of `bytes` and what follows it. An encoding of more than `limit` bytes
is refused. -/
def decode : Nat → List UInt8 → Option (Nat × List UInt8)
  | 0, _ => none
  | _ + 1, [] => none
  | limit + 1, b :: bytes =>
    if b.toNat < 128 then some (b.toNat, bytes)
    else (decode limit bytes).map fun (n, rest) => (b.toNat - 128 + 128 * n, rest)

end Varint

namespace IsVarint

variable {bs bs' : List UInt8} {n n' : Nat}

theorem ne_nil (h : IsVarint bs n) : bs ≠ [] := by
  cases h <;> exact List.cons_ne_nil _ _

/-- An encoding is at least as long as the shortest one. -/
theorem width_le (h : IsVarint bs n) : Varint.width n ≤ bs.length := by
  induction h with
  | last b h =>
    rw [Varint.width, if_pos h]
    exact Nat.le_refl 1
  | @more bs n b hb rest ih =>
    have hbyte := b.toNat_lt
    have hwidth : Varint.width (b.toNat - 128 + 128 * n) ≤ 1 + Varint.width n := by
      rw [Varint.width]
      split
      · omega
      · rw [show (b.toNat - 128 + 128 * n) / 128 = n by omega]
    rw [List.length_cons]
    omega

/-- No encoding is a proper prefix of another. -/
theorem eq_of_prefix (h : IsVarint bs n) (h' : IsVarint bs' n') (hp : bs <+: bs') :
    bs = bs' ∧ n = n' := by
  induction h generalizing bs' n' with
  | last b hb =>
    cases h' with
    | last b' _ =>
      obtain rfl : b = b' := (List.cons_prefix_cons.mp hp).1
      exact ⟨rfl, rfl⟩
    | more b' hb' _ =>
      obtain rfl : b = b' := (List.cons_prefix_cons.mp hp).1
      omega
  | more b hb rest ih =>
    cases h' with
    | last b' hb' =>
      obtain rfl : b = b' := (List.cons_prefix_cons.mp hp).1
      omega
    | more b' hb' rest' =>
      obtain ⟨rfl, htail⟩ := List.cons_prefix_cons.mp hp
      obtain ⟨rfl, rfl⟩ := ih rest' htail
      exact ⟨rfl, rfl⟩

/-- What starts with an encoding does so in one way. -/
theorem unique_of_append {rest rest' : List UInt8} (h : IsVarint bs n) (h' : IsVarint bs' n')
    (heq : bs ++ rest = bs' ++ rest') : bs = bs' ∧ n = n' ∧ rest = rest' := by
  have hp : bs <+: bs' ++ rest' := ⟨rest, heq⟩
  obtain ⟨rfl, rfl⟩ : bs = bs' ∧ n = n' := by
    rcases List.prefix_or_prefix_of_prefix hp (List.prefix_append bs' rest') with hp | hp
    · exact h.eq_of_prefix h' hp
    · obtain ⟨rfl, rfl⟩ := h'.eq_of_prefix h hp
      exact ⟨rfl, rfl⟩
  exact ⟨rfl, rfl, List.append_cancel_left heq⟩

end IsVarint

namespace Varint

theorem width_of_lt {n : Nat} (h : n < 128) : width n = 1 := by
  rw [width, if_pos h]

theorem encode_of_lt {n : Nat} (h : n < 128) : encode n = [n.toUInt8] := by
  rw [encode, if_pos h]

theorem one_le_width (n : Nat) : 1 ≤ width n := by
  rw [width]
  split <;> omega

/-- A number below `128 ^ k` needs at most `k` bytes. -/
theorem width_le_of_lt {n k : Nat} (hk : 0 < k) (h : n < 128 ^ k) : width n ≤ k := by
  induction k generalizing n with
  | zero => exact absurd hk (Nat.lt_irrefl 0)
  | succ k ih =>
    rw [width]
    split
    · omega
    · have hk : 0 < k := by
        by_contra hk
        obtain rfl : k = 0 := by omega
        omega
      have hn : n / 128 < 128 ^ k := by
        rw [Nat.div_lt_iff_lt_mul (by decide), ← Nat.pow_succ]
        exact h
      have := ih hk hn
      omega

theorem toNat_toUInt8 {n : Nat} (h : n < 256) : n.toUInt8.toNat = n := by
  simp [Nat.mod_eq_of_lt h]

theorem isVarint_encode (n : Nat) : IsVarint (encode n) n := by
  induction n using Nat.strongRecOn with
  | ind n ih =>
    rw [encode]
    split
    · rename_i hsmall
      have hbyte : n.toUInt8.toNat = n := toNat_toUInt8 (by omega)
      have hlast := IsVarint.last n.toUInt8 (by omega)
      rwa [hbyte] at hlast
    · have hbyte : (n % 128 + 128).toUInt8.toNat = n % 128 + 128 := toNat_toUInt8 (by omega)
      have hmore := IsVarint.more (n % 128 + 128).toUInt8 (by omega) (ih (n / 128) (by omega))
      rwa [hbyte, show n % 128 + 128 - 128 + 128 * (n / 128) = n by omega] at hmore

theorem length_encode (n : Nat) : (encode n).length = width n := by
  induction n using Nat.strongRecOn with
  | ind n ih =>
    rw [encode, width]
    split
    · rfl
    · rw [List.length_cons, ih (n / 128) (by omega), Nat.add_comm]

/-- The first byte is no more than the number, and only zero starts with a zero byte. -/
theorem encode_eq_cons {n : Nat} {b : UInt8} {bs : List UInt8} (h : encode n = b :: bs) :
    b.toNat ≤ n ∧ (b = 0 → n = 0 ∧ bs = []) := by
  rw [encode] at h
  split at h
  · obtain ⟨rfl, rfl⟩ := List.cons.inj h
    have hbyte : n.toUInt8.toNat = n := toNat_toUInt8 (by omega)
    refine ⟨hbyte.le, fun hzero => ⟨?_, rfl⟩⟩
    rw [← hbyte, hzero]
    rfl
  · obtain ⟨rfl, -⟩ := List.cons.inj h
    have hbyte : (n % 128 + 128).toUInt8.toNat = n % 128 + 128 := toNat_toUInt8 (by omega)
    refine ⟨by omega, fun hzero => ?_⟩
    rw [hzero] at hbyte
    exact absurd hbyte (by rw [UInt8.toNat_zero]; omega)

/-- **Decoding is exact.** -/
theorem decode_eq_some {limit : Nat} {bytes rest : List UInt8} {n : Nat} :
    decode limit bytes = some (n, rest) ↔
      ∃ bs, bytes = bs ++ rest ∧ IsVarint bs n ∧ bs.length ≤ limit := by
  induction limit generalizing bytes n with
  | zero =>
    refine iff_of_false (by simp [decode]) ?_
    rintro ⟨bs, -, hbs, hlen⟩
    exact hbs.ne_nil (List.length_eq_zero_iff.mp (Nat.le_zero.mp hlen))
  | succ limit ih =>
    cases bytes with
    | nil =>
      refine iff_of_false (by simp [decode]) ?_
      rintro ⟨bs, heq, hbs, -⟩
      exact hbs.ne_nil (List.append_eq_nil_iff.mp heq.symm).1
    | cons b bytes =>
      rw [decode]
      split
      · rename_i hb
        constructor
        · rintro heq
          obtain ⟨rfl, rfl⟩ := Prod.mk.inj (Option.some.inj heq)
          exact ⟨[b], rfl, .last b hb, by simp⟩
        · rintro ⟨bs, heq, hbs, -⟩
          obtain ⟨-, rfl, rfl⟩ := (IsVarint.last b hb).unique_of_append hbs heq
          rfl
      · rename_i hb
        rw [Option.map_eq_some_iff]
        constructor
        · rintro ⟨⟨m, rest'⟩, hdec, heq⟩
          obtain ⟨rfl, rfl⟩ := Prod.mk.inj heq
          obtain ⟨bs, rfl, hbs, hlen⟩ := ih.mp hdec
          exact ⟨b :: bs, rfl, .more b (by omega) hbs, Nat.succ_le_succ hlen⟩
        · rintro ⟨bs, heq, hbs, hlen⟩
          cases hbs with
          | last b' hb' =>
            obtain rfl : b = b' := (List.cons.inj heq).1
            exact absurd hb' hb
          | @more bs m b' hb' hrest =>
            obtain ⟨rfl, htail⟩ := List.cons.inj heq
            exact ⟨(m, rest), ih.mpr ⟨bs, htail, hrest, Nat.le_of_succ_le_succ hlen⟩, rfl⟩

end Varint

end Rumble.Lib
