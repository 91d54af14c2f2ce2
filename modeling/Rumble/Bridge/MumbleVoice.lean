import Mathlib.Data.Nat.Bitwise
import Rumble.Lib.Octets

/-!
# Mumble voice packets

`mumble-bridge/src/mumble_voice.rs`: the varints of Mumble, the voice packets that a Mumble client
sends through the tunnel, and those that the bridge sends to it, which name the speaker by a session
number. An index or a slice out of bounds is a panic, an error here.
-/

namespace Rumble.Bridge

open Rumble.Lib

/-! ## Slices -/

/-- `data[i]` -/
def index (data : List UInt8) (i : Nat) : Except String UInt8 :=
  match data[i]? with
  | some b => .ok b
  | none => .error "index out of bounds"

/-- `&data[i..]` -/
def sliceFrom (data : List UInt8) (i : Nat) : Except String (List UInt8) :=
  if i ≤ data.length then .ok (data.drop i) else .error "range start index out of range"

/-- `&data[..i]` -/
def sliceTo (data : List UInt8) (i : Nat) : Except String (List UInt8) :=
  if i ≤ data.length then .ok (data.take i) else .error "range end index out of range"

/-! ## Varints -/

/-- The value at the start of the bytes and how many bytes it takes; the negative forms and the
forms with a length that is not there are refused. -/
def readVarint (data : List UInt8) : Except String (Option (UInt64 × Nat)) := do
  if data.isEmpty then return none
  let first ← index data 0
  if first &&& 0x80 = 0 then
    return some (first.toUInt64, 1)
  else if first &&& 0xC0 = 0x80 then
    if data.length < 2 then return none
    let b1 ← index data 1
    return some (((first.toUInt64 &&& 0x3F) <<< 8) ||| b1.toUInt64, 2)
  else if first &&& 0xE0 = 0xC0 then
    if data.length < 3 then return none
    let b1 ← index data 1
    let b2 ← index data 2
    return some (((first.toUInt64 &&& 0x1F) <<< 16) ||| (b1.toUInt64 <<< 8) ||| b2.toUInt64, 3)
  else if first &&& 0xF0 = 0xE0 then
    if data.length < 4 then return none
    let b1 ← index data 1
    let b2 ← index data 2
    let b3 ← index data 3
    return some (((first.toUInt64 &&& 0x0F) <<< 24) ||| (b1.toUInt64 <<< 16) |||
      (b2.toUInt64 <<< 8) ||| b3.toUInt64, 4)
  else if first &&& 0xF0 = 0xF0 then
    if first &&& 0x0C = 0x00 then
      if data.length < 5 then return none
      let b1 ← index data 1
      let b2 ← index data 2
      let b3 ← index data 3
      let b4 ← index data 4
      return some ((b1.toUInt64 <<< 24) ||| (b2.toUInt64 <<< 16) ||| (b3.toUInt64 <<< 8) |||
        b4.toUInt64, 5)
    else if first &&& 0x0C = 0x04 then
      if data.length < 9 then return none
      let b1 ← index data 1
      let b2 ← index data 2
      let b3 ← index data 3
      let b4 ← index data 4
      let b5 ← index data 5
      let b6 ← index data 6
      let b7 ← index data 7
      let b8 ← index data 8
      return some ((b1.toUInt64 <<< 56) ||| (b2.toUInt64 <<< 48) ||| (b3.toUInt64 <<< 40) |||
        (b4.toUInt64 <<< 32) ||| (b5.toUInt64 <<< 24) ||| (b6.toUInt64 <<< 16) |||
        (b7.toUInt64 <<< 8) ||| b8.toUInt64, 9)
    else return none
  else return none

def encodeVarint (val : UInt64) : List UInt8 :=
  if val < 0x80 then [val.toUInt8]
  else if val < 0x4000 then [(val >>> 8).toUInt8 ||| 0x80, val.toUInt8]
  else if val < 0x200000 then [(val >>> 16).toUInt8 ||| 0xC0, (val >>> 8).toUInt8, val.toUInt8]
  else if val < 0x10000000 then
    [(val >>> 24).toUInt8 ||| 0xE0, (val >>> 16).toUInt8, (val >>> 8).toUInt8, val.toUInt8]
  else if val ≤ 0xFFFFFFFF then
    [0xF0, (val >>> 24).toUInt8, (val >>> 16).toUInt8, (val >>> 8).toUInt8, val.toUInt8]
  else
    [0xF4, (val >>> 56).toUInt8, (val >>> 48).toUInt8, (val >>> 40).toUInt8, (val >>> 32).toUInt8,
      (val >>> 24).toUInt8, (val >>> 16).toUInt8, (val >>> 8).toUInt8, val.toUInt8]

/-! ## Voice packets -/

/-- The type code of Opus in the high three bits of the header. -/
def opusType : UInt8 := 4

/-- A packet from a client. -/
structure MumbleVoicePacket where
  target : UInt8
  sequence : UInt64
  opusData : List UInt8
  isLast : Bool
  deriving DecidableEq

def parseVoicePacket (data : List UInt8) : Except String (Option MumbleVoicePacket) := do
  if data.isEmpty then return none
  let header ← index data 0
  let voiceType := (header >>> 5) &&& 0x07
  let target := header &&& 0x1F
  if voiceType ≠ opusType then return none
  let rest ← sliceFrom data 1
  match ← readVarint rest with
  | none => return none
  | some (sequence, consumed) =>
    let rest ← sliceFrom rest consumed
    match ← readVarint rest with
    | none => return none
    | some (opusHeader, consumed) =>
      let opusLen := (opusHeader &&& 0x1FFF).toNat
      let isLast := decide (opusHeader &&& 0x2000 ≠ 0)
      let rest ← sliceFrom rest consumed
      if rest.length < opusLen then return none
      let opusData ← sliceTo rest opusLen
      return some { target, sequence, opusData, isLast }

/-- The length field: the length with the terminator bit. -/
def opusHeader (opusData : List UInt8) (isLast : Bool) : UInt64 :=
  let opusLen := UInt64.ofNat opusData.length
  if isLast then opusLen ||| 0x2000 else opusLen

/-- What follows the session number. -/
def encodeBody (sequence : UInt64) (opusData : List UInt8) (isLast : Bool) : List UInt8 :=
  encodeVarint sequence ++ (encodeVarint (opusHeader opusData isLast) ++ opusData)

/-- A packet for a client; the target is 0, normal talking. -/
def encodeVoicePacket (sessionId : UInt32) (sequence : UInt64) (opusData : List UInt8)
    (isLast : Bool) : List UInt8 :=
  let header := opusType <<< 5
  header :: (encodeVarint sessionId.toUInt64 ++ encodeBody sequence opusData isLast)

/-- The packet without the session number that the server put in. -/
def withoutSession (sessionId : UInt32) (packet : List UInt8) : List UInt8 :=
  packet.take 1 ++ packet.drop (1 + (encodeVarint sessionId.toUInt64).length)

/-! ## No panic -/

theorem index_of_lt {data : List UInt8} {i : Nat} (h : i < data.length) :
    index data i = .ok data[i] := by
  simp [index, h]

theorem sliceFrom_of_le {data : List UInt8} {i : Nat} (h : i ≤ data.length) :
    sliceFrom data i = .ok (data.drop i) := if_pos h

theorem sliceTo_of_le {data : List UInt8} {i : Nat} (h : i ≤ data.length) :
    sliceTo data i = .ok (data.take i) := if_pos h

/-- There is a result, and a value in it satisfies `P`. -/
def Returns {α : Type} (P : α → Prop) (m : Except String (Option α)) : Prop :=
  ∃ r, m = .ok r ∧ ∀ a ∈ r, P a

namespace Returns

variable {α β : Type} {P : α → Prop} {Q : β → Prop}

theorem none : Returns P (pure none) := ⟨_, rfl, by simp⟩

theorem some {a : α} (h : P a) : Returns P (pure (some a)) := ⟨_, rfl, by simpa using h⟩

theorem index {data : List UInt8} {i : Nat} {rest : UInt8 → Except String (Option α)}
    (hi : i < data.length) (h : ∀ b, Returns P (rest b)) :
    Returns P (Bridge.index data i >>= rest) := by
  rw [index_of_lt hi]
  exact h _

theorem sliceFrom {data : List UInt8} {i : Nat} {rest : List UInt8 → Except String (Option α)}
    (hi : i ≤ data.length) (h : Returns P (rest (data.drop i))) :
    Returns P (Bridge.sliceFrom data i >>= rest) := by
  rw [sliceFrom_of_le hi]
  exact h

theorem sliceTo {data : List UInt8} {i : Nat} {rest : List UInt8 → Except String (Option α)}
    (hi : i ≤ data.length) (h : Returns P (rest (data.take i))) :
    Returns P (Bridge.sliceTo data i >>= rest) := by
  rw [sliceTo_of_le hi]
  exact h

theorem bind {m : Except String (Option α)} {rest : Option α → Except String (Option β)}
    (hm : Returns P m) (hnone : Returns Q (rest .none)) (hsome : ∀ a, P a → Returns Q (rest (.some a))) :
    Returns Q (m >>= rest) := by
  obtain ⟨r, rfl, hr⟩ := hm
  cases r with
  | none => exact hnone
  | some a => exact hsome a (hr a rfl)

theorem ite {c : Prop} [Decidable c] {m m' : Except String (Option α)} (h : c → Returns P m)
    (h' : ¬ c → Returns P m') : Returns P (if c then m else m') := by
  split
  · exact h ‹c›
  · exact h' ‹¬ c›

end Returns

/-- Every index of `read_varint` is below the length that was checked before. -/
theorem readVarint_returns (data : List UInt8) :
    Returns (fun p => p.2 ≤ data.length) (readVarint data) := by
  unfold readVarint
  refine .ite (fun _ => .none) fun hne => ?_
  have hpos : 0 < data.length := by
    cases data with
    | nil => exact absurd rfl hne
    | cons => simp
  refine .index hpos fun first => ?_
  -- One goal for each form that is complete and for each that is cut short.
  repeat' refine .ite (fun _ => ?_) fun _ => ?_
  all_goals
    first
      | exact .none
      | (repeat refine .index (by omega) fun _ => ?_)
        exact .some (by omega)

theorem parseVoicePacket_returns (data : List UInt8) :
    Returns (fun _ => True) (parseVoicePacket data) := by
  cases data with
  | nil => exact .none
  | cons header rest =>
    unfold parseVoicePacket
    refine .index (by simp) fun header => ?_
    dsimp only
    split
    · exact .none
    refine .sliceFrom (by simp) (.bind (readVarint_returns _) .none fun sequence hseq => ?_)
    refine .sliceFrom hseq (.bind (readVarint_returns _) .none fun opusHeader hhead => ?_)
    refine .sliceFrom hhead ?_
    split
    · exact .none
    exact .sliceTo (by omega) (.some trivial)

/-! ## The forms of a varint -/

/-- The first octet tells the form. -/
theorem octet_form (b : UInt8) : (b &&& 0x80 = 0 ↔ b.toNat < 128) ∧
    (b &&& 0xC0 = 0x80 ↔ 128 ≤ b.toNat ∧ b.toNat < 192) ∧
    (b &&& 0xE0 = 0xC0 ↔ 192 ≤ b.toNat ∧ b.toNat < 224) ∧
    (b &&& 0xF0 = 0xE0 ↔ 224 ≤ b.toNat ∧ b.toNat < 240) := by
  revert b
  refine forall_octet ?_
  decide +kernel

section Forms

variable {b b1 b2 b3 b4 b5 b6 b7 b8 : UInt8} (s : List UInt8)

theorem ok_bind {α β : Type} (a : α) (f : α → Except String β) : (Except.ok a >>= f) = f a := rfl

theorem readVarint_one (h : b.toNat < 128) :
    readVarint (b :: s) = .ok (some (b.toUInt64, 1)) := by
  have hform := octet_form b
  simp [readVarint, index, ok_bind, hform, h]
  rfl

theorem readVarint_two (h : 128 ≤ b.toNat) (h' : b.toNat < 192) : readVarint (b :: b1 :: s) =
    .ok (some (((b.toUInt64 &&& 0x3F) <<< 8) ||| b1.toUInt64, 2)) := by
  have hform := octet_form b
  simp [readVarint, index, ok_bind, hform, Nat.not_lt.mpr h, h, h']

theorem readVarint_three (h : 192 ≤ b.toNat) (h' : b.toNat < 224) :
    readVarint (b :: b1 :: b2 :: s) = .ok (some
      (((b.toUInt64 &&& 0x1F) <<< 16) ||| (b1.toUInt64 <<< 8) ||| b2.toUInt64, 3)) := by
  have hform := octet_form b
  simp [readVarint, index, ok_bind, hform, h, h', show ¬ b.toNat < 128 by omega,
    show ¬ b.toNat < 192 by omega]

theorem readVarint_four (h : 224 ≤ b.toNat) (h' : b.toNat < 240) :
    readVarint (b :: b1 :: b2 :: b3 :: s) = .ok (some (((b.toUInt64 &&& 0x0F) <<< 24) |||
      (b1.toUInt64 <<< 16) ||| (b2.toUInt64 <<< 8) ||| b3.toUInt64, 4)) := by
  have hform := octet_form b
  simp [readVarint, index, ok_bind, hform, h, h', show ¬ b.toNat < 128 by omega,
    show ¬ b.toNat < 192 by omega, show ¬ b.toNat < 224 by omega]

theorem readVarint_five : readVarint (0xF0 :: b1 :: b2 :: b3 :: b4 :: s) = .ok (some
    ((b1.toUInt64 <<< 24) ||| (b2.toUInt64 <<< 16) ||| (b3.toUInt64 <<< 8) ||| b4.toUInt64, 5)) := by
  simp [readVarint, index, ok_bind]
  rfl

theorem readVarint_nine :
    readVarint (0xF4 :: b1 :: b2 :: b3 :: b4 :: b5 :: b6 :: b7 :: b8 :: s) = .ok (some
      ((b1.toUInt64 <<< 56) ||| (b2.toUInt64 <<< 48) ||| (b3.toUInt64 <<< 40) |||
        (b4.toUInt64 <<< 32) ||| (b5.toUInt64 <<< 24) ||| (b6.toUInt64 <<< 16) |||
        (b7.toUInt64 <<< 8) ||| b8.toUInt64, 9)) := by
  simp [readVarint, index, ok_bind]
  rfl

end Forms

/-! ## Round trip -/

/-- The octets of a value. -/
theorem octets_of (v : UInt64) : v.toUInt8.toNat = v.toNat % 256 ∧
    (v >>> 8).toUInt8.toNat = v.toNat / 2 ^ 8 % 256 ∧
    (v >>> 16).toUInt8.toNat = v.toNat / 2 ^ 16 % 256 ∧
    (v >>> 24).toUInt8.toNat = v.toNat / 2 ^ 24 % 256 :=
  ⟨v.toNat_toUInt8, Octets.toNat_shr (by decide), Octets.toNat_shr (by decide),
    Octets.toNat_shr (by decide)⟩

theorem high_octets_of (v : UInt64) : (v >>> 32).toUInt8.toNat = v.toNat / 2 ^ 32 % 256 ∧
    (v >>> 40).toUInt8.toNat = v.toNat / 2 ^ 40 % 256 ∧
    (v >>> 48).toUInt8.toNat = v.toNat / 2 ^ 48 % 256 ∧
    (v >>> 56).toUInt8.toNat = v.toNat / 2 ^ 56 % 256 :=
  ⟨Octets.toNat_shr (by decide), Octets.toNat_shr (by decide), Octets.toNat_shr (by decide),
    Octets.toNat_shr (by decide)⟩

/-- A prefix with `k` zero bits at its end, and a value that fits them. -/
theorem prefixed (k : Nat) {b p : UInt8} {m : UInt64} (hp : p.toNat % 2 ^ k = 0)
    (hb : b.toNat < 2 ^ k) (hm : m.toNat = 2 ^ k - 1) :
    (b ||| p).toNat = p.toNat + b.toNat ∧ ((b ||| p).toUInt64 &&& m).toNat = b.toNat := by
  have hor := Octets.u8_or_of_apart k hp hb
  refine ⟨hor, ?_⟩
  rw [Octets.u64_and_mask k hm, UInt8.toNat_toUInt64, hor]
  obtain ⟨q, hq⟩ := Nat.dvd_of_mod_eq_zero hp
  rw [hq, Nat.mul_add_mod, Nat.mod_eq_of_lt hb]

/-- **What is encoded is read back**, whatever follows it. -/
theorem readVarint_encodeVarint (v : UInt64) (s : List UInt8) :
    readVarint (encodeVarint v ++ s) = .ok (some (v, (encodeVarint v).length)) := by
  obtain ⟨h0, h8, h16, h24⟩ := octets_of v
  have hv := v.toNat_lt
  unfold encodeVarint
  simp only [UInt64.lt_iff_toNat_lt, UInt64.le_iff_toNat_le, UInt64.reduceToNat]
  -- One goal for each length; the bounds of the tests decide the first octet.
  split
  · have hval : v.toUInt8.toUInt64 = v := by
      apply UInt64.toNat_inj.mp
      rw [UInt8.toNat_toUInt64]
      omega
    rw [List.singleton_append, readVarint_one s (by omega), hval]
    rfl
  split
  · obtain ⟨hb, hx⟩ := prefixed 6 (b := (v >>> 8).toUInt8) (p := 0x80) (m := 0x3F) rfl (by omega)
      rfl
    rw [show (0x80 : UInt8).toNat = 128 from rfl] at hb
    have hval : (((v >>> 8).toUInt8 ||| 0x80).toUInt64 &&& 0x3F) <<< 8 ||| v.toUInt8.toUInt64 = v := by
      apply UInt64.toNat_inj.mp
      rw [Octets.word_two (by omega), hx]
      omega
    rw [List.cons_append, List.singleton_append, readVarint_two s (by omega) (by omega), hval]
    rfl
  split
  · obtain ⟨hb, hx⟩ := prefixed 5 (b := (v >>> 16).toUInt8) (p := 0xC0) (m := 0x1F) rfl (by omega)
      rfl
    rw [show (0xC0 : UInt8).toNat = 192 from rfl] at hb
    have hval : (((v >>> 16).toUInt8 ||| 0xC0).toUInt64 &&& 0x1F) <<< 16 |||
        (v >>> 8).toUInt8.toUInt64 <<< 8 ||| v.toUInt8.toUInt64 = v := by
      apply UInt64.toNat_inj.mp
      rw [Octets.word_three (by omega), hx]
      omega
    rw [List.cons_append, List.cons_append, List.singleton_append,
      readVarint_three s (by omega) (by omega), hval]
    rfl
  split
  · obtain ⟨hb, hx⟩ := prefixed 4 (b := (v >>> 24).toUInt8) (p := 0xE0) (m := 0x0F) rfl (by omega)
      rfl
    rw [show (0xE0 : UInt8).toNat = 224 from rfl] at hb
    have hval : (((v >>> 24).toUInt8 ||| 0xE0).toUInt64 &&& 0x0F) <<< 24 |||
        (v >>> 16).toUInt8.toUInt64 <<< 16 ||| (v >>> 8).toUInt8.toUInt64 <<< 8 |||
        v.toUInt8.toUInt64 = v := by
      apply UInt64.toNat_inj.mp
      rw [Octets.word_four (by omega), hx]
      omega
    rw [List.cons_append, List.cons_append, List.cons_append, List.singleton_append,
      readVarint_four s (by omega) (by omega), hval]
    rfl
  split
  · have hval : (v >>> 24).toUInt8.toUInt64 <<< 24 ||| (v >>> 16).toUInt8.toUInt64 <<< 16 |||
        (v >>> 8).toUInt8.toUInt64 <<< 8 ||| v.toUInt8.toUInt64 = v := by
      apply UInt64.toNat_inj.mp
      rw [Octets.word_four (by rw [UInt8.toNat_toUInt64]; omega)]
      simp only [UInt8.toNat_toUInt64]
      omega
    simp only [List.cons_append, List.nil_append, readVarint_five, hval]
    rfl
  · obtain ⟨h32, h40, h48, h56⟩ := high_octets_of v
    have hval : (v >>> 56).toUInt8.toUInt64 <<< 56 ||| (v >>> 48).toUInt8.toUInt64 <<< 48 |||
        (v >>> 40).toUInt8.toUInt64 <<< 40 ||| (v >>> 32).toUInt8.toUInt64 <<< 32 |||
        (v >>> 24).toUInt8.toUInt64 <<< 24 ||| (v >>> 16).toUInt8.toUInt64 <<< 16 |||
        (v >>> 8).toUInt8.toUInt64 <<< 8 ||| v.toUInt8.toUInt64 = v := by
      apply UInt64.toNat_inj.mp
      rw [Octets.word_eight (by rw [UInt8.toNat_toUInt64]; omega)]
      simp only [UInt8.toNat_toUInt64]
      omega
    simp only [List.cons_append, List.nil_append, readVarint_nine, hval]
    rfl

/-! ### Packets -/

section Packets

variable {opusData : List UInt8} (isLast : Bool)

/-- The length and the terminator do not share a bit. -/
theorem toNat_opusHeader (h : opusData.length ≤ 0x1FFF) :
    (opusHeader opusData isLast).toNat = (if isLast then 0x2000 else 0) + opusData.length := by
  have hlen : (UInt64.ofNat opusData.length).toNat = opusData.length := by
    rw [UInt64.toNat_ofNat']
    omega
  cases isLast with
  | false => simpa [opusHeader] using hlen
  | true =>
    rw [opusHeader, if_pos rfl, if_pos rfl, UInt64.toNat_or, hlen, Nat.or_comm]
    exact Octets.nat_or_of_apart 13 rfl (by omega)

theorem opusHeader_length (h : opusData.length ≤ 0x1FFF) :
    (opusHeader opusData isLast &&& 0x1FFF).toNat = opusData.length := by
  rw [Octets.u64_and_mask 13 rfl, toNat_opusHeader isLast h]
  cases isLast <;> simp <;> omega

theorem opusHeader_terminator (h : opusData.length ≤ 0x1FFF) :
    decide (opusHeader opusData isLast &&& 0x2000 ≠ 0) = isLast := by
  have hlow : opusData.length.testBit 13 = false := Nat.testBit_lt_two_pow (by omega)
  have hbit : (opusHeader opusData isLast &&& 0x2000).toNat = isLast.toNat * 2 ^ 13 := by
    rw [UInt64.toNat_and, toNat_opusHeader isLast h, show (0x2000 : UInt64).toNat = 2 ^ 13 from rfl,
      Nat.and_two_pow]
    cases isLast with
    | false => simp [hlow]
    | true =>
      rw [if_pos rfl, show 0x2000 = 2 ^ 13 from rfl, Nat.testBit_two_pow_add_eq, hlow]
      rfl
  cases isLast with
  | false =>
    apply decide_eq_false
    simpa [← UInt64.toNat_inj] using hbit
  | true =>
    apply decide_eq_true
    intro hzero
    rw [hzero] at hbit
    exact absurd hbit (by decide)

theorem parseVoicePacket_body (header : UInt8) (sequence : UInt64) (h : opusData.length ≤ 0x1FFF) :
    parseVoicePacket (header :: encodeBody sequence opusData isLast) =
      .ok (if (header >>> 5) &&& 0x07 = opusType then
        some { target := header &&& 0x1F, sequence, opusData, isLast } else none) := by
  simp only [parseVoicePacket, List.isEmpty_cons, Bool.false_eq_true, if_false, index,
    List.getElem?_cons_zero, ok_bind]
  by_cases htype : (header >>> 5) &&& 0x07 = opusType
  · have hrest : sliceFrom (header :: encodeBody sequence opusData isLast) 1 =
        .ok (encodeVarint sequence ++ (encodeVarint (opusHeader opusData isLast) ++ opusData)) :=
      sliceFrom_of_le (by simp)
    rw [if_neg (not_not_intro htype), if_pos htype, hrest, ok_bind, readVarint_encodeVarint,
      ok_bind]
    dsimp only
    rw [sliceFrom_of_le (by simp), List.drop_left, ok_bind, readVarint_encodeVarint, ok_bind]
    dsimp only
    rw [sliceFrom_of_le (by simp), List.drop_left, ok_bind, opusHeader_length isLast h,
      if_neg (Nat.lt_irrefl _), sliceTo_of_le (Nat.le_refl _), List.take_length, ok_bind,
      opusHeader_terminator isLast h]
    rfl
  · rw [if_pos htype, if_neg htype]
    rfl

theorem withoutSession_encodeVoicePacket (sessionId : UInt32) (sequence : UInt64) :
    withoutSession sessionId (encodeVoicePacket sessionId sequence opusData isLast) =
      opusType <<< 5 :: encodeBody sequence opusData isLast := by
  rw [withoutSession, encodeVoicePacket, Nat.add_comm, List.drop_succ_cons, List.drop_left]
  rfl

end Packets

/-- **The Mumble voice codec**: a varint is read back as it was written, whatever follows it; no
bytes make the readers panic; and a packet of the encoder, with its session number taken out, parses
to its sequence, its payload and its terminator with target 0, the only one that the encoder writes.
Under another header byte the same packet parses to the target of that byte where its type is Opus,
and is refused where it is not. -/
theorem voice_codec :
    (∀ v s, readVarint (encodeVarint v ++ s) = .ok (some (v, (encodeVarint v).length))) ∧
    (∀ data, (∃ r, readVarint data = .ok r) ∧ ∃ r, parseVoicePacket data = .ok r) ∧
    ∀ sessionId sequence opusData isLast, opusData.length ≤ 0x1FFF →
      parseVoicePacket (withoutSession sessionId
        (encodeVoicePacket sessionId sequence opusData isLast)) =
        .ok (some { target := 0, sequence, opusData, isLast }) ∧
      ∀ header, parseVoicePacket (header :: (withoutSession sessionId
        (encodeVoicePacket sessionId sequence opusData isLast)).drop 1) =
        .ok (if (header >>> 5) &&& 0x07 = opusType then
          some { target := header &&& 0x1F, sequence, opusData, isLast } else none) := by
  refine ⟨readVarint_encodeVarint, fun data => ⟨?_, ?_⟩,
    fun sessionId sequence opusData isLast h => ⟨?_, fun header => ?_⟩⟩
  · obtain ⟨r, hr, -⟩ := readVarint_returns data
    exact ⟨r, hr⟩
  · obtain ⟨r, hr, -⟩ := parseVoicePacket_returns data
    exact ⟨r, hr⟩
  · rw [withoutSession_encodeVoicePacket, parseVoicePacket_body isLast _ _ h]
    rfl
  · rw [withoutSession_encodeVoicePacket, List.drop_succ_cons, List.drop_zero,
      parseVoicePacket_body isLast _ _ h]

theorem voice_codec_sample :
    parseVoicePacket (withoutSession 300 (encodeVoicePacket 300 16384 [0xDE, 0xAD] true)) =
      .ok (some ⟨0, 16384, [0xDE, 0xAD], true⟩) :=
  (voice_codec.2.2 300 16384 [0xDE, 0xAD] true (by decide)).1

/-- The encoder has no target to take: a whisper (target 1) does not come back. -/
theorem not_voice_target_kept : ¬ ∀ (target : UInt8) sessionId sequence opusData isLast,
    target.toNat < 32 → opusData.length ≤ 0x1FFF →
      parseVoicePacket (withoutSession sessionId
        (encodeVoicePacket sessionId sequence opusData isLast)) =
        .ok (some { target, sequence, opusData, isLast }) := by
  intro h
  have hone := h 1 0 0 [] false (by decide) (by decide)
  rw [withoutSession_encodeVoicePacket, parseVoicePacket_body false _ _ (by decide)] at hone
  simp only [Except.ok.injEq] at hone
  exact absurd hone (by decide)

end Rumble.Bridge
