import Mathlib.Data.Option.Basic
import Mathlib.Algebra.Group.Nat.Defs

/-!
# Words and their octets

Bitwise expressions over words as sums: what an "or" of parts that do not overlap is worth, what a
shift and a cast leave of a word, and a way to check a fact of one octet on its 256 values.
-/

namespace Rumble.Lib

/-- What holds of all 256 octets. -/
theorem forall_octet {P : UInt8 → Prop} (h : ∀ i : Fin 256, P (UInt8.ofNat i.val)) (b : UInt8) :
    P b := by
  have hb := h ⟨b.toNat, b.toNat_lt⟩
  rwa [UInt8.ofNat_toNat] at hb

namespace Octets

/-- Parts that do not overlap add up. -/
theorem nat_or_of_apart {a b : Nat} (k : Nat) (ha : a % 2 ^ k = 0) (hb : b < 2 ^ k) :
    a ||| b = a + b := by
  obtain ⟨q, rfl⟩ := Nat.dvd_of_mod_eq_zero ha
  exact (Nat.two_pow_add_eq_or_of_lt hb q).symm

theorem u64_or_of_apart {a b : UInt64} (k : Nat) (ha : a.toNat % 2 ^ k = 0)
    (hb : b.toNat < 2 ^ k) : (a ||| b).toNat = a.toNat + b.toNat := by
  rw [UInt64.toNat_or, nat_or_of_apart k ha hb]

theorem u8_or_of_apart {a b : UInt8} (k : Nat) (ha : a.toNat % 2 ^ k = 0) (hb : b.toNat < 2 ^ k) :
    (b ||| a).toNat = a.toNat + b.toNat := by
  rw [UInt8.toNat_or, Nat.or_comm, nat_or_of_apart k ha hb]

/-- The low `k` bits. -/
theorem u64_and_mask {a m : UInt64} (k : Nat) (hm : m.toNat = 2 ^ k - 1) :
    (a &&& m).toNat = a.toNat % 2 ^ k := by
  rw [UInt64.toNat_and, hm, Nat.and_two_pow_sub_one_eq_mod]

/-- An octet moved up inside a word of 64 bits. -/
theorem toNat_shl {b s : UInt64} (hb : b.toNat < 256) (hs : s.toNat ≤ 56) :
    (b <<< s).toNat = b.toNat * 2 ^ s.toNat := by
  rw [UInt64.toNat_shiftLeft, Nat.mod_eq_of_lt (by omega : s.toNat < 64), Nat.shiftLeft_eq]
  apply Nat.mod_eq_of_lt
  calc b.toNat * 2 ^ s.toNat < 2 ^ 8 * 2 ^ s.toNat :=
        Nat.mul_lt_mul_of_pos_right hb (Nat.two_pow_pos _)
    _ = 2 ^ (8 + s.toNat) := (Nat.pow_add 2 8 s.toNat).symm
    _ ≤ 2 ^ 64 := Nat.pow_le_pow_right (by decide) (by omega)

/-- The octet of a word above `s` bits. -/
theorem toNat_shr {v s : UInt64} (hs : s.toNat < 64) :
    (v >>> s).toUInt8.toNat = v.toNat / 2 ^ s.toNat % 256 := by
  rw [UInt64.toNat_toUInt8, UInt64.toNat_shiftRight, Nat.mod_eq_of_lt hs,
    Nat.shiftRight_eq_div_pow]

/-! ## Words from octets, the highest first -/

section Words

variable {x s : UInt64} {b b1 b2 b3 b4 b5 b6 b7 : UInt8}

/-- One more octet below what is there. -/
theorem or_shl {m : Nat} (k : Nat) (hs : s.toNat = k) (hk : k ≤ 48) (hx : x.toNat = m)
    (hm : m % 2 ^ (k + 8) = 0) : (x ||| b.toUInt64 <<< s).toNat = m + b.toNat * 2 ^ k := by
  have hb : (b.toUInt64 <<< s).toNat = b.toNat * 2 ^ k := by
    rw [toNat_shl (by simpa using b.toNat_lt) (by omega), UInt8.toNat_toUInt64, hs]
  subst hx
  rw [u64_or_of_apart (k + 8) hm, hb]
  rw [hb, Nat.add_comm, Nat.pow_add]
  exact Nat.mul_lt_mul_of_pos_right b.toNat_lt (Nat.two_pow_pos _)

/-- The last octet. -/
theorem or_octet {m : Nat} (hx : x.toNat = m) (hm : m % 256 = 0) :
    (x ||| b.toUInt64).toNat = m + b.toNat := by
  subst hx
  rw [u64_or_of_apart 8 hm (by simpa using b.toNat_lt), UInt8.toNat_toUInt64]

theorem word_two (hx : x.toNat < 256) :
    (x <<< 8 ||| b1.toUInt64).toNat = x.toNat * 2 ^ 8 + b1.toNat := by
  have h1 : (x <<< 8).toNat = x.toNat * 2 ^ 8 := toNat_shl hx (by decide)
  exact or_octet h1 (by omega)

theorem word_three (hx : x.toNat < 256) : (x <<< 16 ||| b1.toUInt64 <<< 8 ||| b2.toUInt64).toNat =
    x.toNat * 2 ^ 16 + b1.toNat * 2 ^ 8 + b2.toNat := by
  have h1 : (x <<< 16).toNat = x.toNat * 2 ^ 16 := toNat_shl hx (by decide)
  have h2 := or_shl (b := b1) (s := 8) 8 rfl (by decide) h1 (by omega)
  exact or_octet h2 (by omega)

theorem word_four (hx : x.toNat < 256) :
    (x <<< 24 ||| b1.toUInt64 <<< 16 ||| b2.toUInt64 <<< 8 ||| b3.toUInt64).toNat =
      x.toNat * 2 ^ 24 + b1.toNat * 2 ^ 16 + b2.toNat * 2 ^ 8 + b3.toNat := by
  have h1 : (x <<< 24).toNat = x.toNat * 2 ^ 24 := toNat_shl hx (by decide)
  have h2 := or_shl (b := b1) (s := 16) 16 rfl (by decide) h1 (by omega)
  have h3 := or_shl (b := b2) (s := 8) 8 rfl (by decide) h2 (by omega)
  exact or_octet h3 (by omega)

theorem word_eight (hx : x.toNat < 256) :
    (x <<< 56 ||| b1.toUInt64 <<< 48 ||| b2.toUInt64 <<< 40 ||| b3.toUInt64 <<< 32 |||
      b4.toUInt64 <<< 24 ||| b5.toUInt64 <<< 16 ||| b6.toUInt64 <<< 8 ||| b7.toUInt64).toNat =
      x.toNat * 2 ^ 56 + b1.toNat * 2 ^ 48 + b2.toNat * 2 ^ 40 + b3.toNat * 2 ^ 32 +
        b4.toNat * 2 ^ 24 + b5.toNat * 2 ^ 16 + b6.toNat * 2 ^ 8 + b7.toNat := by
  have h1 : (x <<< 56).toNat = x.toNat * 2 ^ 56 := toNat_shl hx (by decide)
  have h2 := or_shl (b := b1) (s := 48) 48 rfl (by decide) h1 (by omega)
  have h3 := or_shl (b := b2) (s := 40) 40 rfl (by decide) h2 (by omega)
  have h4 := or_shl (b := b3) (s := 32) 32 rfl (by decide) h3 (by omega)
  have h5 := or_shl (b := b4) (s := 24) 24 rfl (by decide) h4 (by omega)
  have h6 := or_shl (b := b5) (s := 16) 16 rfl (by decide) h5 (by omega)
  have h7 := or_shl (b := b6) (s := 8) 8 rfl (by decide) h6 (by omega)
  exact or_octet h7 (by omega)

end Words

end Octets

end Rumble.Lib
