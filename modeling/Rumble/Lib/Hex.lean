import Mathlib.Data.Option.Basic

/-!
# Hexadecimal texts

Two digits for each octet, the high half first. Lower case is written, both cases are read, and
what was written reads back.
-/

namespace Rumble.Lib.Hex

def digit (n : Nat) : Char := if n < 10 then .ofNat (48 + n) else .ofNat (87 + n)

/-- The value of a digit of either case. -/
def value (c : Char) : Option Nat :=
  if '0' ≤ c ∧ c ≤ '9' then some (c.toNat - 48)
  else if 'a' ≤ c ∧ c ≤ 'f' then some (c.toNat - 87)
  else if 'A' ≤ c ∧ c ≤ 'F' then some (c.toNat - 55)
  else none

def encodeChars : List UInt8 → List Char
  | [] => []
  | b :: bytes => digit (b.toNat / 16) :: digit (b.toNat % 16) :: encodeChars bytes

def encode (bytes : List UInt8) : String := .ofList (encodeChars bytes)

def decodeChars : List Char → Option (List UInt8)
  | [] => some []
  | [_] => none
  | high :: low :: rest =>
    match value high, value low with
    | some h, some l => (decodeChars rest).map (UInt8.ofNat (16 * h + l) :: ·)
    | _, _ => none

/-- Pairs of digits and nothing else. -/
def decode (s : String) : Option (List UInt8) := decodeChars s.toList

theorem value_digit {n : Nat} (h : n < 16) : value (digit n) = some n := by
  have hall : ∀ n : Fin 16, value (digit n.val) = some n.val := by decide
  exact hall ⟨n, h⟩

theorem decodeChars_encodeChars (bytes : List UInt8) :
    decodeChars (encodeChars bytes) = some bytes := by
  induction bytes with
  | nil => rfl
  | cons b bytes ih =>
    have hb : b.toNat < 256 := b.toNat_lt
    have hhalves : 16 * (b.toNat / 16) + b.toNat % 16 = b.toNat := Nat.div_add_mod _ _
    rw [encodeChars, decodeChars, value_digit (by omega), value_digit (by omega)]
    dsimp only
    rw [ih, Option.map_some, hhalves, UInt8.ofNat_toNat]

@[simp] theorem decode_encode (bytes : List UInt8) : decode (encode bytes) = some bytes := by
  rw [decode, encode, String.toList_ofList, decodeChars_encodeChars]

/-! ## Upper case -/

def upperDigit (n : Nat) : Char := if n < 10 then .ofNat (48 + n) else .ofNat (55 + n)

def upperChars (bytes : List UInt8) : List Char :=
  bytes.flatMap fun b => [upperDigit (b.toNat / 16), upperDigit (b.toNat % 16)]

/-- Digits are read in either case, and none is a colon. -/
theorem value_upperDigit {n : Nat} (h : n < 16) :
    value (upperDigit n) = some n ∧ upperDigit n ≠ ':' := by
  have hall : ∀ n : Fin 16, value (upperDigit n.val) = some n.val ∧ upperDigit n.val ≠ ':' := by
    decide
  exact hall ⟨n, h⟩

theorem decodeChars_upperChars (bytes : List UInt8) :
    decodeChars (upperChars bytes) = some bytes := by
  induction bytes with
  | nil => rfl
  | cons b bytes ih =>
    have hb : b.toNat < 256 := b.toNat_lt
    have hhalves : 16 * (b.toNat / 16) + b.toNat % 16 = b.toNat := Nat.div_add_mod _ _
    show decodeChars (upperDigit _ :: upperDigit _ :: upperChars bytes) = _
    rw [decodeChars, (value_upperDigit (by omega)).1, (value_upperDigit (by omega)).1]
    dsimp only
    rw [ih, Option.map_some, hhalves, UInt8.ofNat_toNat]

theorem colon_not_mem_upperChars (bytes : List UInt8) : ':' ∉ upperChars bytes := by
  intro hmem
  obtain ⟨b, -, hb⟩ := List.mem_flatMap.mp hmem
  have hlt : b.toNat < 256 := b.toNat_lt
  rcases List.mem_cons.mp hb with h | h
  · exact (value_upperDigit (by omega)).2 h.symm
  · exact (value_upperDigit (by omega)).2 (List.mem_singleton.mp h).symm

end Rumble.Lib.Hex
