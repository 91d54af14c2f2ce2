import Rumble.Lib.Varint

/-!
# Framing

The length-prefixed frames of `rumble-protocol/src/lib.rs`, and the read loops that the server
(`server/src/server.rs`) and the client (`rumble-desktop/src/transport.rs`) run over them: append
what was received, give up when more than `MAX_FRAME_LEN` bytes are held, hand out every complete
frame. The length delimiters are those of `prost`, a parameter here.

A frame whose delimiter is longer than its length needs makes `tryDecodeFrame` panic while its last
bytes are missing (`decodesExactly_iff`), and the cap counts the delimiter and whatever follows the
frame in the same chunk (`receive_iff`).
-/

namespace Rumble

open Rumble.Lib

/-! ## Length delimiters -/

/-- What framing uses of `prost`. -/
structure Prost where
  /-- The length, and what follows its delimiter. -/
  decodeLengthDelimiter : List UInt8 → Option (Nat × List UInt8)
  lengthDelimiterLen : Nat → Nat
  encodeLengthDelimiter : Nat → List UInt8

/-- The documented behaviour: a varint of up to ten bytes is read, also one with zero groups at its
end, and the shortest one is written. -/
structure Prost.Lawful (p : Prost) : Prop where
  decode_eq_some : ∀ {bytes rest : List UInt8} {len : Nat},
    p.decodeLengthDelimiter bytes = some (len, rest) ↔ ∃ delimiter, bytes = delimiter ++ rest ∧
      IsVarint delimiter len ∧ delimiter.length ≤ 10 ∧ len < 2 ^ 64
  len_eq : ∀ len, p.lengthDelimiterLen len = Varint.width len
  encode_eq : ∀ len, p.encodeLengthDelimiter len = Varint.encode len

/-- Base-128 delimiters. -/
def Prost.leb128 : Prost where
  decodeLengthDelimiter bytes := (Varint.decode 10 bytes).filter fun e => decide (e.1 < 2 ^ 64)
  lengthDelimiterLen := Varint.width
  encodeLengthDelimiter := Varint.encode

theorem Prost.leb128_lawful : Prost.leb128.Lawful where
  decode_eq_some := by
    intro bytes rest len
    refine Option.filter_eq_some_iff.trans ?_
    rw [Varint.decode_eq_some, decide_eq_true_iff]
    constructor
    · rintro ⟨⟨delimiter, heq, hvarint, hlen⟩, hlt⟩
      exact ⟨delimiter, heq, hvarint, hlen, hlt⟩
    · rintro ⟨delimiter, heq, hvarint, hlen, hlt⟩
      exact ⟨⟨delimiter, heq, hvarint, hlen⟩, hlt⟩
  len_eq _ := rfl
  encode_eq _ := rfl

/-! ## Frames -/

/-- `BytesMut::split_to`. -/
def splitTo (src : List UInt8) (at' : Nat) : Except String (List UInt8 × List UInt8) :=
  if at' ≤ src.length then .ok (src.take at', src.drop at') else .error "split_to out of bounds"

/-- Addition of `usize`; a build with overflow checks panics where others wrap. -/
def usizeAdd (overflowChecks : Bool) (a b : Nat) : Except String Nat :=
  if overflowChecks && decide (2 ^ 64 ≤ a + b) then .error "attempt to add with overflow"
  else .ok ((a + b) % 2 ^ 64)

theorem usizeAdd_of_lt {overflowChecks : Bool} {a b : Nat} (h : a + b < 2 ^ 64) :
    usizeAdd overflowChecks a b = .ok (a + b) := by
  rw [usizeAdd, decide_eq_false (Nat.not_le.mpr h), Bool.and_false, if_neg Bool.false_ne_true,
    Nat.mod_eq_of_lt h]

theorem usizeAdd_checked {a b : Nat} (h : 2 ^ 64 ≤ a + b) :
    usizeAdd true a b = .error "attempt to add with overflow" := by
  rw [usizeAdd, decide_eq_true h, Bool.and_self, if_pos rfl]

/-- 16 MiB. -/
def maxFrameLen : Nat := 16 * 1024 * 1024

namespace Prost

variable (p : Prost) (overflowChecks : Bool)

def encodeFrameRaw (data : List UInt8) : List UInt8 := p.encodeLengthDelimiter data.length ++ data

/-- A message of any type, by what it encodes to. -/
def encodeFrame {μ : Type} (encode : μ → List UInt8) (msg : μ) : List UInt8 :=
  p.encodeFrameRaw (encode msg)

/-- The frame, when a whole one is there, and the buffer afterwards. An error is a panic. -/
def tryDecodeFrame (src : List UInt8) : Except String (Option (List UInt8) × List UInt8) :=
  match p.decodeLengthDelimiter src with
  | none => .ok (none, src)
  | some (len, _) =>
    match usizeAdd overflowChecks (p.lengthDelimiterLen len) len with
    | .error message => .error message
    | .ok needed =>
      if src.length < needed then .ok (none, src)
      else
        -- The delimiter is read again, now to advance past it.
        match p.decodeLengthDelimiter src with
        | none => .error "called `Result::unwrap()` on an `Err` value"
        | some (_, src) => (splitTo src len).map fun (frame, src) => (some frame, src)

/-! ## Decoding one frame -/

/-- **Decoding is total and exact** on a buffer: no panic, nothing taken without a frame, and with a
frame exactly a delimiter of its length and the frame. -/
def DecodesExactly (src : List UInt8) : Prop :=
  match p.tryDecodeFrame overflowChecks src with
  | .error _ => False
  | .ok (none, after) => after = src
  | .ok (some payload, after) =>
    ∃ delimiter, IsVarint delimiter payload.length ∧ src = delimiter ++ payload ++ after

/-- When a length is declared, the payload is complete, or it would be too short even with the
shortest delimiter. -/
def Decodable (src : List UInt8) : Prop :=
  ∀ len rest, p.decodeLengthDelimiter src = some (len, rest) →
    len ≤ rest.length ∨
      p.lengthDelimiterLen len + len < 2 ^ 64 ∧ src.length < p.lengthDelimiterLen len + len

variable {p overflowChecks}

theorem tryDecodeFrame_of_none {src : List UInt8} (h : p.decodeLengthDelimiter src = none) :
    p.tryDecodeFrame overflowChecks src = .ok (none, src) := by
  rw [tryDecodeFrame, h]

/-- Too little for the declared length and its shortest delimiter. -/
theorem tryDecodeFrame_of_short {src rest : List UInt8} {len : Nat}
    (h : p.decodeLengthDelimiter src = some (len, rest))
    (hbound : p.lengthDelimiterLen len + len < 2 ^ 64)
    (hshort : src.length < p.lengthDelimiterLen len + len) :
    p.tryDecodeFrame overflowChecks src = .ok (none, src) := by
  rw [tryDecodeFrame, h]
  dsimp only
  rw [usizeAdd_of_lt hbound]
  exact if_pos hshort

/-- Enough for the shortest delimiter: what is there is split. -/
theorem tryDecodeFrame_of_enough {src rest : List UInt8} {len : Nat}
    (h : p.decodeLengthDelimiter src = some (len, rest))
    (hbound : p.lengthDelimiterLen len + len < 2 ^ 64)
    (henough : p.lengthDelimiterLen len + len ≤ src.length) :
    p.tryDecodeFrame overflowChecks src =
      if len ≤ rest.length then .ok (some (rest.take len), rest.drop len)
      else .error "split_to out of bounds" := by
  rw [tryDecodeFrame, h]
  dsimp only
  rw [usizeAdd_of_lt hbound]
  dsimp only
  rw [if_neg (Nat.not_lt.mpr henough), splitTo]
  split <;> rfl

variable (overflowChecks) in
/-- A declared length near the end of the range panics either way. -/
theorem tryDecodeFrame_of_overflow (hp : p.Lawful) {src rest : List UInt8} {len : Nat}
    (h : p.decodeLengthDelimiter src = some (len, rest))
    (hbound : 2 ^ 64 ≤ p.lengthDelimiterLen len + len) (hshort : rest.length < len) :
    ∃ message, p.tryDecodeFrame overflowChecks src = .error message := by
  cases overflowChecks with
  | true =>
    refine ⟨"attempt to add with overflow", ?_⟩
    rw [tryDecodeFrame, h]
    dsimp only
    rw [usizeAdd_checked hbound]
  | false =>
    obtain ⟨delimiter, rfl, hvarint, -, hlen⟩ := hp.decode_eq_some.mp h
    have hwidth : p.lengthDelimiterLen len ≤ delimiter.length :=
      (hp.len_eq len).trans_le hvarint.width_le
    have hwidth10 : p.lengthDelimiterLen len ≤ 10 :=
      (hp.len_eq len).trans_le (Varint.width_le_of_lt (by decide) (hlen.trans_le (by decide)))
    have hwrap : (p.lengthDelimiterLen len + len) % 2 ^ 64 =
        p.lengthDelimiterLen len + len - 2 ^ 64 := by
      rw [Nat.mod_eq_sub_mod hbound, Nat.mod_eq_of_lt]
      omega
    have hnot : ¬ (delimiter ++ rest).length < (p.lengthDelimiterLen len + len) % 2 ^ 64 := by
      rw [hwrap, List.length_append]
      omega
    refine ⟨"split_to out of bounds", ?_⟩
    simp only [tryDecodeFrame, usizeAdd, h, Bool.false_and, Bool.false_eq_true, if_false,
      if_neg hnot, splitTo, Nat.not_le.mpr hshort]
    rfl

/-- **When decoding is exact.** -/
theorem decodesExactly_iff (hp : p.Lawful) {src : List UInt8} (hsrc : src.length < 2 ^ 64) :
    p.DecodesExactly overflowChecks src ↔ p.Decodable src := by
  cases hdec : p.decodeLengthDelimiter src with
  | none =>
    refine iff_of_true ?_ fun len rest h => nomatch hdec.symm.trans h
    rw [DecodesExactly, tryDecodeFrame_of_none hdec]
  | some e =>
    obtain ⟨len, rest⟩ := e
    obtain ⟨delimiter, heq, hvarint, -, -⟩ := hp.decode_eq_some.mp hdec
    have hwidth : p.lengthDelimiterLen len ≤ delimiter.length :=
      (hp.len_eq len).trans_le hvarint.width_le
    have hlength : src.length = delimiter.length + rest.length := by
      rw [heq, List.length_append]
    have hone : p.Decodable src ↔ len ≤ rest.length ∨
        p.lengthDelimiterLen len + len < 2 ^ 64 ∧ src.length < p.lengthDelimiterLen len + len := by
      refine ⟨fun h => h len rest hdec, fun h len' rest' h' => ?_⟩
      obtain ⟨rfl, rfl⟩ := Prod.mk.inj (Option.some.inj (hdec.symm.trans h'))
      exact h
    rw [hone]
    by_cases hfull : len ≤ rest.length
    · refine iff_of_true ?_ (.inl hfull)
      rw [DecodesExactly, tryDecodeFrame_of_enough hdec (by omega) (by omega), if_pos hfull]
      have htake : (rest.take len).length = len := List.length_take_of_le hfull
      refine ⟨delimiter, htake.symm ▸ hvarint, ?_⟩
      rw [List.append_assoc, List.take_append_drop, heq]
    · rw [or_iff_right hfull, DecodesExactly]
      by_cases hbound : p.lengthDelimiterLen len + len < 2 ^ 64
      · by_cases hshort : src.length < p.lengthDelimiterLen len + len
        · rw [tryDecodeFrame_of_short hdec hbound hshort]
          exact iff_of_true rfl ⟨hbound, hshort⟩
        · rw [tryDecodeFrame_of_enough hdec hbound (Nat.not_lt.mp hshort), if_neg hfull]
          exact iff_of_false id fun h => hshort h.2
      · obtain ⟨message, hpanic⟩ := tryDecodeFrame_of_overflow overflowChecks
          hp hdec (Nat.not_lt.mp hbound) (Nat.not_le.mp hfull)
        rw [hpanic]
        exact iff_of_false id fun h => hbound h.1

end Prost

/-- A frame of one byte, and a start of the next one. -/
theorem decodesExactly_sample : Prost.leb128.DecodesExactly true [1, 7, 5, 9] := by
  refine (Prost.decodesExactly_iff Prost.leb128_lawful (by decide)).mpr fun len rest h => ?_
  obtain ⟨rfl, rfl⟩ := Prod.mk.inj (Option.some.inj h)
  exact .inl (by decide)

/-- A length of one in two bytes, with the payload still to come. -/
theorem not_decodesExactly : ¬ Prost.leb128.DecodesExactly false [0x81, 0] := by
  have hdec : Prost.leb128.decodeLengthDelimiter [0x81, 0] = some (1, []) := by decide
  have hwidth : Prost.leb128.lengthDelimiterLen 1 = 1 := Varint.width_of_lt (by decide)
  rw [Prost.DecodesExactly, Prost.tryDecodeFrame_of_enough hdec (by rw [hwidth]; decide)
    (by rw [hwidth]; decide)]
  exact id

/-! ## The read loop -/

namespace Prost

section

variable (p : Prost) (overflowChecks : Bool)

/-- Take complete frames from the buffer; each takes a byte at least, so `fuel` bytes are enough for
as many frames. -/
def drain : Nat → List UInt8 → Except String (List (List UInt8) × List UInt8)
  | 0, buf => .ok ([], buf)
  | fuel + 1, buf =>
    match p.tryDecodeFrame overflowChecks buf with
    | .error message => .error message
    | .ok (none, buf) => .ok ([], buf)
    | .ok (some frame, buf) => (drain fuel buf).map fun (frames, buf) => (frame :: frames, buf)

end

end Prost

/-- A reading end: the bytes held, the frames handed out, and why it has stopped. -/
structure FrameReader where
  buf : List UInt8
  frames : List (List UInt8)
  stopped : Option String
  deriving DecidableEq

def FrameReader.new : FrameReader := ⟨[], [], none⟩

namespace Prost

variable (p : Prost) (overflowChecks : Bool)

/-- One read of either loop. -/
def readChunk (r : FrameReader) (chunk : List UInt8) : FrameReader :=
  if r.stopped.isSome then r
  else
    let buf := r.buf ++ chunk
    if maxFrameLen < buf.length then
      { r with buf := buf, stopped := some "control frame exceeds MAX_FRAME_LEN" }
    else match p.drain overflowChecks (buf.length + 1) buf with
      | .ok (frames, buf) => { r with buf := buf, frames := r.frames ++ frames }
      | .error message => { r with buf := buf, stopped := some message }

/-- The bytes of some encoded messages. -/
def stream (payloads : List (List UInt8)) : List UInt8 := (payloads.map p.encodeFrameRaw).flatten

def frameLen (payload : List UInt8) : Nat := (p.encodeFrameRaw payload).length

end Prost

/-- The bytes of an incomplete frame, when frames of these lengths are sent and so many bytes have
arrived. -/
def pendingBytes : List Nat → Nat → Nat
  | [], received => received
  | len :: lens, received => if len ≤ received then pendingBytes lens (received - len) else received

/-- Every chunk fits below the cap together with the incomplete frame before it. -/
def FitsCap (lens : List Nat) : Nat → List (List UInt8) → Prop
  | _, [] => True
  | received, chunk :: chunks =>
    pendingBytes lens received + chunk.length ≤ maxFrameLen ∧
      FitsCap lens (received + chunk.length) chunks

instance decidableFitsCap (lens : List Nat) :
    ∀ received chunks, Decidable (FitsCap lens received chunks)
  | _, [] => .isTrue trivial
  | received, chunk :: chunks =>
    have := decidableFitsCap lens (received + chunk.length) chunks
    inferInstanceAs (Decidable (_ ∧ _))

namespace Prost

variable {p : Prost} {overflowChecks : Bool}

@[simp] theorem stream_nil : p.stream [] = [] := rfl

@[simp] theorem stream_cons (payload : List UInt8) (payloads : List (List UInt8)) :
    p.stream (payload :: payloads) = p.encodeFrameRaw payload ++ p.stream payloads := rfl

theorem stream_append (payloads payloads' : List (List UInt8)) :
    p.stream (payloads ++ payloads') = p.stream payloads ++ p.stream payloads' := by
  rw [stream, List.map_append, List.flatten_append]
  rfl

/-- The delimiter of an encoded frame is read back. -/
theorem decode_encodeFrameRaw (hp : p.Lawful) {payload : List UInt8}
    (h : payload.length ≤ maxFrameLen) (tail : List UInt8) :
    p.decodeLengthDelimiter (p.encodeFrameRaw payload ++ tail) =
      some (payload.length, payload ++ tail) := by
  have hlt : payload.length < 2 ^ 64 := h.trans_lt (by decide)
  refine hp.decode_eq_some.mpr ⟨Varint.encode payload.length, ?_, Varint.isVarint_encode _, ?_, hlt⟩
  · rw [encodeFrameRaw, hp.encode_eq, List.append_assoc]
  · rw [Varint.length_encode]
    exact Varint.width_le_of_lt (by decide) (hlt.trans_le (by decide))

theorem frameLen_eq (hp : p.Lawful) (payload : List UInt8) :
    p.frameLen payload = p.lengthDelimiterLen payload.length + payload.length := by
  rw [frameLen, encodeFrameRaw, hp.encode_eq, List.length_append, Varint.length_encode, hp.len_eq]

/-- A delimiter is longer than nothing and shorter than the range. -/
theorem frameLen_bounds (hp : p.Lawful) {payload : List UInt8}
    (h : payload.length ≤ maxFrameLen) : 0 < p.frameLen payload ∧ p.frameLen payload < 2 ^ 64 := by
  have hwidth := Varint.width_le_of_lt (n := payload.length) (k := 10) (by decide)
    (h.trans_lt (by decide))
  have hpos := Varint.one_le_width payload.length
  have hmax : maxFrameLen + 10 < 2 ^ 64 := by decide
  rw [frameLen_eq hp, hp.len_eq]
  omega

/-- A complete frame is taken. -/
theorem tryDecodeFrame_whole (hp : p.Lawful) {payload : List UInt8}
    (h : payload.length ≤ maxFrameLen) (tail : List UInt8) :
    p.tryDecodeFrame overflowChecks (p.encodeFrameRaw payload ++ tail) =
      .ok (some payload, tail) := by
  have hlen := frameLen_eq hp payload
  have hbounds := frameLen_bounds hp h
  rw [tryDecodeFrame_of_enough (decode_encodeFrameRaw hp h tail) (by omega), if_pos,
    List.take_left, List.drop_left]
  · rw [List.length_append]
    exact Nat.le_add_right _ _
  · rw [← hlen, List.length_append]
    exact Nat.le_add_right _ _

/-- A part of a frame is left alone. -/
theorem tryDecodeFrame_partial (hp : p.Lawful) {payload buf : List UInt8}
    (h : payload.length ≤ maxFrameLen) (hbuf : buf <+: p.encodeFrameRaw payload)
    (hshort : buf.length < p.frameLen payload) :
    p.tryDecodeFrame overflowChecks buf = .ok (none, buf) := by
  cases hdec : p.decodeLengthDelimiter buf with
  | none => exact tryDecodeFrame_of_none hdec
  | some e =>
    obtain ⟨len, rest⟩ := e
    obtain ⟨tail, htail⟩ := hbuf
    obtain ⟨delimiter, rfl, hvarint, -, -⟩ := hp.decode_eq_some.mp hdec
    have hwhole : delimiter ++ (rest ++ tail) = Varint.encode payload.length ++ payload := by
      rw [← List.append_assoc, htail, encodeFrameRaw, hp.encode_eq]
    obtain ⟨-, rfl, -⟩ := hvarint.unique_of_append (Varint.isVarint_encode _) hwhole
    rw [frameLen_eq hp] at hshort
    have hbounds := frameLen_bounds hp h
    rw [frameLen_eq hp] at hbounds
    exact tryDecodeFrame_of_short hdec hbounds.2 hshort

end Prost

/-! ## What a drained buffer leaves -/

/-- The buffer holds less than the next frame. -/
def Prost.Incomplete (p : Prost) (buf : List UInt8) : List (List UInt8) → Prop
  | [] => buf = []
  | payload :: _ => buf.length < p.frameLen payload

theorem Prost.Incomplete.pendingBytes {p : Prost} {buf : List UInt8} {todo : List (List UInt8)}
    (h : p.Incomplete buf todo) : pendingBytes (todo.map p.frameLen) buf.length = buf.length := by
  cases todo with
  | nil => rfl
  | cons payload todo => exact if_neg (Nat.not_le.mpr h)

namespace Prost

variable {p : Prost} {overflowChecks : Bool}

theorem length_stream (payloads : List (List UInt8)) :
    (p.stream payloads).length = (payloads.map p.frameLen).sum := by
  rw [stream, List.length_flatten, List.map_map]
  rfl

variable (overflowChecks) in
/-- Complete frames come out and the rest stays. -/
theorem drain_spec (hp : p.Lawful) (fuel : Nat) {buf : List UInt8} {payloads : List (List UInt8)}
    (hlens : ∀ payload ∈ payloads, payload.length ≤ maxFrameLen) (hbuf : buf <+: p.stream payloads)
    (hfuel : buf.length < fuel) :
    ∃ done todo rest, payloads = done ++ todo ∧ buf = p.stream done ++ rest ∧
      p.Incomplete rest todo ∧ p.drain overflowChecks fuel buf = .ok (done, rest) := by
  induction payloads generalizing fuel buf with
  | nil =>
    obtain ⟨fuel, rfl⟩ := Nat.exists_eq_succ_of_ne_zero (Nat.ne_zero_of_lt hfuel)
    obtain rfl : buf = [] := List.prefix_nil.mp hbuf
    have hnone : p.decodeLengthDelimiter [] = none := by
      cases h : p.decodeLengthDelimiter [] with
      | none => rfl
      | some e =>
        obtain ⟨delimiter, heq, hvarint, -⟩ := hp.decode_eq_some.mp h
        exact absurd (List.append_eq_nil_iff.mp heq.symm).1 hvarint.ne_nil
    exact ⟨[], [], [], rfl, rfl, rfl, by rw [drain, tryDecodeFrame_of_none hnone]⟩
  | cons payload payloads ih =>
    obtain ⟨fuel, rfl⟩ := Nat.exists_eq_succ_of_ne_zero (Nat.ne_zero_of_lt hfuel)
    obtain ⟨hlen, hlens⟩ := List.forall_mem_cons.mp hlens
    by_cases hshort : buf.length < p.frameLen payload
    · have hpart : buf <+: p.encodeFrameRaw payload :=
        List.prefix_of_prefix_length_le hbuf (List.prefix_append _ _) hshort.le
      refine ⟨[], payload :: payloads, buf, rfl, rfl, hshort, ?_⟩
      rw [drain, tryDecodeFrame_partial hp hlen hpart hshort]
    · obtain ⟨tail, rfl⟩ : p.encodeFrameRaw payload <+: buf :=
        List.prefix_of_prefix_length_le (List.prefix_append _ _) hbuf (Nat.not_lt.mp hshort)
      have htail : tail <+: p.stream payloads := (List.prefix_append_right_inj _).mp hbuf
      have hpos := (frameLen_bounds hp hlen).1
      rw [frameLen] at hpos
      rw [List.length_append] at hfuel
      obtain ⟨done, todo, rest, rfl, rfl, hrest, hdrain⟩ := ih fuel hlens htail (by omega)
      refine ⟨payload :: done, todo, rest, rfl, (List.append_assoc _ _ _).symm, hrest, ?_⟩
      rw [drain, tryDecodeFrame_whole hp hlen]
      dsimp only
      rw [hdrain]
      rfl

end Prost

/-- Frames that are complete do not count. -/
theorem pendingBytes_append (lens lens' : List Nat) (received : Nat) :
    pendingBytes (lens ++ lens') (lens.sum + received) = pendingBytes lens' received := by
  induction lens with
  | nil => rw [List.nil_append, List.sum_nil, Nat.zero_add]
  | cons len lens ih =>
    rw [List.cons_append, List.sum_cons, Nat.add_assoc, pendingBytes,
      if_pos (Nat.le_add_right _ _), Nat.add_sub_cancel_left, ih]

theorem fitsCap_append (lens lens' : List Nat) {received : Nat} {chunks : List (List UInt8)} :
    FitsCap (lens ++ lens') (lens.sum + received) chunks ↔ FitsCap lens' received chunks := by
  induction chunks generalizing received with
  | nil => exact Iff.rfl
  | cons chunk chunks ih =>
    rw [FitsCap, FitsCap, pendingBytes_append, Nat.add_assoc, ih]

/-- A frame that arrives alone must fit with its delimiter. -/
theorem FitsCap.le_maxFrameLen {len received : Nat} {chunks : List (List UInt8)}
    (h : FitsCap [len] received chunks) (hlt : received < len)
    (hlen : received + chunks.flatten.length = len) : len ≤ maxFrameLen := by
  induction chunks generalizing received with
  | nil => exact absurd hlen (Nat.ne_of_lt hlt)
  | cons chunk chunks ih =>
    rw [List.flatten_cons, List.length_append, ← Nat.add_assoc] at hlen
    have hpending : pendingBytes [len] received = received := if_neg (Nat.not_le.mpr hlt)
    have hhead := hpending ▸ h.1
    by_cases hlast : received + chunk.length < len
    · exact ih h.2 hlast hlen
    · omega

/-! ## Receiving -/

namespace Prost

variable {p : Prost} {overflowChecks : Bool}

theorem readChunk_over {r : FrameReader} {chunk : List UInt8} (h : r.stopped = none)
    (hover : maxFrameLen < r.buf.length + chunk.length) :
    (p.readChunk overflowChecks r chunk).stopped.isSome := by
  rw [readChunk, h, if_neg (by decide)]
  dsimp only
  rw [if_pos (List.length_append.symm ▸ hover)]
  rfl

/-- A chunk that fits hands out the frames it completes. -/
theorem readChunk_fits {buf chunk rest : List UInt8} {frames done : List (List UInt8)}
    (hfits : buf.length + chunk.length ≤ maxFrameLen)
    (hdrain : p.drain overflowChecks ((buf ++ chunk).length + 1) (buf ++ chunk) = .ok (done, rest)) :
    p.readChunk overflowChecks ⟨buf, frames, none⟩ chunk = ⟨rest, frames ++ done, none⟩ := by
  unfold readChunk
  dsimp only [Option.isSome_none]
  rw [if_neg Bool.false_ne_true, if_neg (Nat.not_lt.mpr (List.length_append.trans_le hfits)), hdrain]

/-- A stopped reader stays as it is. -/
theorem receive_stopped {r : FrameReader} (h : r.stopped.isSome) (chunks : List (List UInt8)) :
    chunks.foldl (p.readChunk overflowChecks) r = r := by
  induction chunks with
  | nil => rfl
  | cons chunk chunks ih => rw [List.foldl_cons, readChunk, if_pos h, ih]

variable (overflowChecks) in
/-- From any point of the stream on. -/
theorem receive_from (hp : p.Lawful) {buf : List UInt8} {todo chunks : List (List UInt8)}
    (frames : List (List UInt8)) (hlens : ∀ payload ∈ todo, payload.length ≤ maxFrameLen)
    (hbuf : p.Incomplete buf todo)
    (hstream : buf ++ chunks.flatten = p.stream todo) :
    chunks.foldl (p.readChunk overflowChecks) ⟨buf, frames, none⟩ = ⟨[], frames ++ todo, none⟩ ↔
      FitsCap (todo.map p.frameLen) buf.length chunks := by
  induction chunks generalizing buf todo frames with
  | nil =>
    refine iff_of_true ?_ trivial
    rw [List.flatten_nil, List.append_nil] at hstream
    cases todo with
    | nil => rw [List.foldl_nil, hstream, stream_nil, List.append_nil]
    | cons payload todo =>
      refine absurd hbuf (Nat.not_lt.mpr ?_)
      rw [hstream, stream_cons, List.length_append]
      exact Nat.le_add_right _ _
  | cons chunk chunks ih =>
    rw [List.foldl_cons, FitsCap, hbuf.pendingBytes]
    by_cases hfits : buf.length + chunk.length ≤ maxFrameLen
    · rw [List.flatten_cons, ← List.append_assoc] at hstream
      obtain ⟨done, todo, rest, rfl, hheld, hrest, hdrain⟩ :=
        drain_spec overflowChecks hp _ hlens ⟨_, hstream⟩ (Nat.lt_succ_self _)
      have hreceived : buf.length + chunk.length = (done.map p.frameLen).sum + rest.length := by
        rw [← List.length_append, hheld, List.length_append, length_stream]
      rw [hheld, stream_append, List.append_assoc] at hstream
      rw [readChunk_fits hfits hdrain, and_iff_right hfits, ← List.append_assoc, hreceived,
        List.map_append, fitsCap_append]
      exact ih _ (fun payload hmem => hlens payload (List.mem_append_right _ hmem)) hrest
        (List.append_cancel_left hstream)
    · have hstop : (p.readChunk overflowChecks ⟨buf, frames, none⟩ chunk).stopped.isSome :=
        readChunk_over rfl (Nat.not_le.mp hfits)
      refine iff_of_false (fun h => ?_) fun h => hfits h.1
      rw [receive_stopped hstop] at h
      rw [h] at hstop
      exact Bool.false_ne_true hstop

/-- **Framing loses nothing, in whatever chunks it arrives**, exactly when no chunk goes over the
cap together with the incomplete frame before it. -/
theorem receive_iff {μ : Type} (hp : p.Lawful) (encode : μ → List UInt8) {messages : List μ}
    (hlens : ∀ msg ∈ messages, (encode msg).length ≤ maxFrameLen) {chunks : List (List UInt8)}
    (hstream : chunks.flatten = (messages.map (p.encodeFrame encode)).flatten) :
    chunks.foldl (p.readChunk overflowChecks) .new = ⟨[], messages.map encode, none⟩ ↔
      FitsCap (messages.map fun msg => (p.encodeFrame encode msg).length) 0 chunks := by
  have hlens' : ∀ payload ∈ messages.map encode, payload.length ≤ maxFrameLen :=
    List.forall_mem_map.mpr hlens
  have hstart : p.Incomplete [] (messages.map encode) := by
    cases messages with
    | nil => rfl
    | cons msg messages => exact (frameLen_bounds hp (hlens msg List.mem_cons_self)).1
  have hstream' : [] ++ chunks.flatten = p.stream (messages.map encode) := by
    rw [List.nil_append, hstream, stream, List.map_map]
    rfl
  have h := receive_from overflowChecks hp [] hlens' hstart hstream'
  rw [List.nil_append, List.map_map] at h
  exact h

end Prost

/-- Two messages in three chunks. -/
theorem receive_sample :
    [[1], [7, 2, 8], [9]].foldl (Prost.leb128.readChunk true) .new = ⟨[], [[7], [8, 9]], none⟩ := by
  have hone (b : UInt8) : Prost.leb128.encodeFrame id [b] = [1, b] :=
    congrArg (· ++ [b]) (Varint.encode_of_lt (n := 1) (by decide))
  have htwo (b b' : UInt8) : Prost.leb128.encodeFrame id [b, b'] = [2, b, b'] :=
    congrArg (· ++ [b, b']) (Varint.encode_of_lt (n := 2) (by decide))
  have hlens : ∀ msg ∈ ([[7], [8, 9]] : List (List UInt8)), (id msg).length ≤ maxFrameLen := by
    decide
  refine (Prost.receive_iff Prost.leb128_lawful id hlens ?_).mpr ?_
  · rw [List.map_cons, List.map_singleton, hone, htwo]
    rfl
  · rw [List.map_cons, List.map_singleton, hone, htwo]
    decide

/-- A message of the largest size, a byte at a time: its delimiter does not fit. -/
theorem not_receive : ¬ ∀ (messages : List (List UInt8)) (chunks : List (List UInt8)),
    (∀ payload ∈ messages, payload.length ≤ maxFrameLen) → (∀ chunk ∈ chunks, chunk ≠ []) →
    chunks.flatten = (messages.map Prost.leb128.encodeFrameRaw).flatten →
    chunks.foldl (Prost.leb128.readChunk false) .new = ⟨[], messages, none⟩ := by
  intro h
  obtain ⟨payload, hlen⟩ : ∃ payload : List UInt8, payload.length = maxFrameLen :=
    ⟨List.replicate maxFrameLen 0, List.length_replicate⟩
  have hlens : ∀ payload' ∈ [payload], payload'.length ≤ maxFrameLen :=
    List.forall_mem_singleton.mpr hlen.le
  have hflat : ((Prost.leb128.encodeFrameRaw payload).map ([·])).flatten =
      ([payload].map (Prost.leb128.encodeFrame id)).flatten := by
    rw [List.map_singleton, List.flatten_singleton, ← List.flatMap_def, List.flatMap_singleton']
    rfl
  have hall := h [payload] ((Prost.leb128.encodeFrameRaw payload).map ([·])) hlens
    (List.forall_mem_map.mpr fun _ _ => List.cons_ne_nil _ _) hflat
  have hfits := (Prost.receive_iff Prost.leb128_lawful id hlens hflat).mp hall
  have hbounds := Prost.frameLen_bounds Prost.leb128_lawful hlen.le
  have hcap := FitsCap.le_maxFrameLen hfits hbounds.1
    (by rw [Nat.zero_add, ← List.flatMap_def, List.flatMap_singleton']; rfl)
  have hframe := Prost.frameLen_eq Prost.leb128_lawful payload
  have hwidth := Varint.one_le_width payload.length
  change Prost.leb128.frameLen payload ≤ maxFrameLen at hcap
  change Prost.leb128.frameLen payload = Varint.width payload.length + payload.length at hframe
  omega

end Rumble
