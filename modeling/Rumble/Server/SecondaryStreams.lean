import Rumble.Protocol.AclVersion
import Rumble.Protocol.Framing

/-!
# Secondary streams

`dispatch_secondary_stream` of `server/src/server.rs` reads a plugin header off a stream, if there is
one, and otherwise goes on with the envelopes of the stream from the bytes that it has read.
`StreamHeader` is that of the client (`rumble-client-traits/src/transport.rs`). A stream is finished
by its sender or still open; here it is finished. Time-outs and errors of the connection are left
out.
-/

namespace Rumble.Server

open Rumble.Lib

/-! ## Reading -/

/-- What a receiving end still gets, in the pieces in which it arrives. -/
abbrev RecvStream := List (List UInt8)

/-- `read_exact`; an error says how many bytes there were. -/
def readExact : Nat → RecvStream → Except Nat (List UInt8 × RecvStream)
  | 0, recv => .ok ([], recv)
  | _ + 1, [] => .error 0
  | n + 1, piece :: recv =>
    if n + 1 ≤ piece.length then .ok (piece.take (n + 1), piece.drop (n + 1) :: recv)
    else match readExact (n + 1 - piece.length) recv with
      | .ok (bytes, rest) => .ok (piece ++ bytes, rest)
      | .error offset => .error (piece.length + offset)

/-- One read takes at most so many bytes of a piece. -/
def cut (max : Nat) : Nat → List UInt8 → List (List UInt8)
  | 0, _ | _ + 1, [] => []
  | fuel + 1, piece => piece.take max :: cut max fuel (piece.drop max)

/-- The reads of the loop, into a buffer of 1024 bytes. -/
def reads (recv : RecvStream) : List (List UInt8) :=
  recv.flatMap fun piece => cut 1024 piece.length piece

/-- `str::from_utf8` -/
def strFromUtf8 (bytes : List UInt8) : Option String := String.fromUTF8? ⟨bytes.toArray⟩

/-- `u16::from_be_bytes` -/
def u16FromBe : List UInt8 → Nat
  | [high, low] => high.toNat * 256 + low.toNat
  | _ => 0

/-! ## Headers -/

/-- `StreamHeader::write_to`: the length of the name as a `u16`, and the name. -/
def StreamHeader.writeTo (plugin : String) : List UInt8 :=
  let len := plugin.toUTF8.size % 2 ^ 16
  [(len / 256).toUInt8, (len % 256).toUInt8] ++ plugin.toUTF8.toList

/-- `StreamHeader::read_from`: the name; the stream is left at what follows. -/
def StreamHeader.readFrom (recv : RecvStream) : Except String (String × RecvStream) := do
  let eof (n offset : Nat) := s!"unexpected EOF after {offset} of {n} bytes"
  let (lenBuf, recv) ← (readExact 2 recv).mapError (eof 2)
  let nameLen := u16FromBe lenBuf
  if nameLen = 0 ∨ nameLen > 255 then throw s!"invalid stream header name length: {nameLen}"
  let (nameBuf, recv) ← (readExact nameLen recv).mapError (eof nameLen)
  match strFromUtf8 nameBuf with
  | some plugin => return (plugin, recv)
  | none => throw "invalid UTF-8 in plugin name"

/-! ## Dispatch -/

def maxPluginNameLen : Nat := 255

section Dispatch

variable {π : Type} (p : Prost) (overflowChecks : Bool) (name : π → String) (plugins : List π)
  (authenticated : Bool)

/-- What becomes of a stream: it ends before a header could be read, it is rejected or handed to a
plugin, or it is read as envelopes. -/
inductive Dispatched (π : Type) where
  | closed
  | rejected
  | plugin (plugin : π) (recv : RecvStream)
  | envelopes (reader : FrameReader)

/-- The bytes of the header, when it is not one of a plugin, and the rest of the stream. -/
inductive Probed (π : Type) where
  | closed
  | plugin (plugin : π) (recv : RecvStream)
  | none (seed : List UInt8) (recv : RecvStream)

def probe (recv : RecvStream) : Probed π :=
  match readExact 2 recv with
  | .error _ => .closed
  | .ok (lenBuf, recv) =>
    let nameLen := u16FromBe lenBuf
    if nameLen > 0 ∧ nameLen ≤ maxPluginNameLen then
      match readExact nameLen recv with
      | .error _ => .closed
      | .ok (nameBuf, recv) =>
        match (strFromUtf8 nameBuf).bind fun pluginName => plugins.find? (name · == pluginName) with
        | some plugin => .plugin plugin recv
        | none => .none (lenBuf ++ nameBuf) recv
    else .none lenBuf recv

/-- `run_envelope_stream_with_prefix`: the frames in the seed, and then the read loop. -/
def runEnvelopeStreamWithPrefix (seed : List UInt8) (recv : RecvStream) : FrameReader :=
  match p.drain overflowChecks (seed.length + 1) seed with
  | .ok (frames, buf) => (reads recv).foldl (p.readChunk overflowChecks) ⟨buf, frames, none⟩
  | .error message => ⟨seed, [], some message⟩

/-- A plugin gets only streams of authenticated connections. -/
def dispatchSecondaryStream (recv : RecvStream) : Dispatched π :=
  match probe name plugins recv with
  | .closed => .closed
  | .plugin plugin recv => if !authenticated then .rejected else .plugin plugin recv
  | .none seed recv => .envelopes (runEnvelopeStreamWithPrefix p overflowChecks seed recv)

end Dispatch

/-! ## Reading is exact -/

theorem readExact_ok {n : Nat} {recv : RecvStream} (h : n ≤ recv.flatten.length) :
    ∃ rest, readExact n recv = .ok (recv.flatten.take n, rest) ∧
      rest.flatten = recv.flatten.drop n := by
  induction recv generalizing n with
  | nil =>
    obtain rfl : n = 0 := Nat.le_zero.mp h
    exact ⟨[], rfl, rfl⟩
  | cons piece recv ih =>
    cases n with
    | zero => exact ⟨_, rfl, rfl⟩
    | succ n =>
      rw [List.flatten_cons, List.length_append] at h
      rw [readExact, List.flatten_cons]
      split
      · rename_i hpiece
        refine ⟨_, by rw [List.take_append_of_le_length hpiece], ?_⟩
        rw [List.flatten_cons, List.drop_append_of_le_length hpiece]
      · rename_i hpiece
        obtain ⟨rest, hrest, hflat⟩ := ih (n := n + 1 - piece.length) (by omega)
        have hlong : piece.length ≤ n + 1 := by omega
        rw [hrest]
        refine ⟨rest, ?_, ?_⟩
        · rw [List.take_append, List.take_of_length_le hlong]
        · rw [hflat, List.drop_append, List.drop_of_length_le hlong, List.nil_append]

theorem readExact_error {n : Nat} {recv : RecvStream} (h : recv.flatten.length < n) :
    ∃ offset, readExact n recv = .error offset := by
  induction recv generalizing n with
  | nil =>
    obtain ⟨n, rfl⟩ := Nat.exists_eq_succ_of_ne_zero (Nat.ne_zero_of_lt h)
    exact ⟨0, rfl⟩
  | cons piece recv ih =>
    obtain ⟨n, rfl⟩ := Nat.exists_eq_succ_of_ne_zero (Nat.ne_zero_of_lt h)
    rw [List.flatten_cons, List.length_append] at h
    obtain ⟨offset, hoffset⟩ := ih (n := n + 1 - piece.length) (by omega)
    rw [readExact, if_neg (by omega), hoffset]
    exact ⟨_, rfl⟩

theorem flatten_cut {max fuel : Nat} {piece : List UInt8} (hmax : 0 < max)
    (h : piece.length ≤ fuel) : (cut max fuel piece).flatten = piece := by
  induction fuel generalizing piece with
  | zero => rw [List.length_eq_zero_iff.mp (Nat.le_zero.mp h)]; rfl
  | succ fuel ih =>
    cases piece with
    | nil => rfl
    | cons b piece =>
      have hfuel : ((b :: piece).drop max).length ≤ fuel := by
        rw [List.length_drop]
        rw [List.length_cons] at h ⊢
        omega
      have hrest := ih hfuel
      rw [cut, List.flatten_cons, hrest, List.take_append_drop]
      exact List.cons_ne_nil b piece

/-- The loop gets every byte. -/
theorem flatten_reads (recv : RecvStream) : (reads recv).flatten = recv.flatten := by
  induction recv with
  | nil => rfl
  | cons piece recv ih =>
    rw [reads, List.flatMap_cons, List.flatten_append, flatten_cut (by decide) (Nat.le_refl _),
      List.flatten_cons]
    exact congrArg (piece ++ ·) ih

theorem strFromUtf8_toUTF8 (s : String) : strFromUtf8 s.toUTF8.toList = some s := by
  have hbytes : (⟨s.toUTF8.toList.toArray⟩ : ByteArray) = s.toByteArray := by
    rw [toList_byteArray]
    rfl
  rw [strFromUtf8, hbytes, String.fromUTF8?, dif_pos s.isValidUTF8]
  rfl

theorem toUTF8_of_strFromUtf8 {bytes : List UInt8} {s : String} (h : strFromUtf8 bytes = some s) :
    bytes = s.toUTF8.toList := by
  rw [strFromUtf8, String.fromUTF8?] at h
  split at h
  · obtain rfl := Option.some.inj h
    rw [toList_byteArray]
    rfl
  · cases h

/-! ## The probe -/

/-- A name that a header can carry. -/
def HeaderName (s : String) : Prop := 0 < s.toUTF8.size ∧ s.toUTF8.size ≤ maxPluginNameLen

theorem u16FromBe_pair {a b : UInt8} {n : Nat} (h : u16FromBe [a, b] = n) :
    [a, b] = [(n % 2 ^ 16 / 256).toUInt8, (n % 2 ^ 16 % 256).toUInt8] := by
  have ha := a.toNat_lt
  have hb := b.toNat_lt
  have hn : n = a.toNat * 256 + b.toNat := h.symm
  congr 1
  · apply UInt8.toNat_inj.mp
    rw [Varint.toNat_toUInt8 (by omega)]
    omega
  · congr 1
    apply UInt8.toNat_inj.mp
    rw [Varint.toNat_toUInt8 (by omega)]
    omega

/-- The length and the name make the header. -/
theorem writeTo_eq {a b : UInt8} {nameBuf : List UInt8} {s : String}
    (hname : strFromUtf8 nameBuf = some s) (hlen : u16FromBe [a, b] = nameBuf.length) :
    StreamHeader.writeTo s = [a, b] ++ nameBuf := by
  obtain rfl := toUTF8_of_strFromUtf8 hname
  rw [length_toUTF8] at hlen
  rw [StreamHeader.writeTo, u16FromBe_pair hlen]

theorem u16FromBe_writeTo {s : String} (h : HeaderName s) :
    ∃ a b, StreamHeader.writeTo s = [a, b] ++ s.toUTF8.toList ∧ u16FromBe [a, b] = s.toUTF8.size := by
  have hle : s.toUTF8.size ≤ 255 := h.2
  refine ⟨_, _, rfl, ?_⟩
  rw [u16FromBe, Varint.toNat_toUInt8 (by omega), Varint.toNat_toUInt8 (by omega)]
  omega

section Probe

variable {π : Type} {name : π → String} {plugins : List π} {recv : RecvStream}

/-- The two reads of a header. -/
theorem readExact_header {s : String} {body : List UInt8} (hs : HeaderName s)
    (hrecv : recv.flatten = StreamHeader.writeTo s ++ body) :
    ∃ lenBuf rest rest', readExact 2 recv = .ok (lenBuf, rest) ∧
      u16FromBe lenBuf = s.toUTF8.size ∧
      readExact s.toUTF8.size rest = .ok (s.toUTF8.toList, rest') ∧ rest'.flatten = body := by
  obtain ⟨a, b, hheader, hlen⟩ := u16FromBe_writeTo hs
  rw [hheader, List.append_assoc] at hrecv
  have htwo : 2 ≤ recv.flatten.length := by simp [hrecv]
  obtain ⟨rest, hlenBuf, hrest⟩ := readExact_ok htwo
  rw [hrecv] at hlenBuf hrest
  replace hrest : rest.flatten = s.toUTF8.toList ++ body := hrest
  have hsize : s.toUTF8.toList.length = s.toUTF8.size := length_toUTF8 s
  have hname : s.toUTF8.size ≤ rest.flatten.length := by
    rw [hrest, List.length_append]
    omega
  obtain ⟨rest', hnameBuf, hrest'⟩ := readExact_ok hname
  rw [hrest, ← hsize, List.drop_left] at hrest'
  rw [hrest, ← hsize, List.take_left, hsize] at hnameBuf
  exact ⟨[a, b], rest, rest', hlenBuf, hlen, hnameBuf, hrest'⟩

/-- A header routes to the first plugin of its name. -/
theorem probe_header {s : String} {body : List UInt8} (hs : HeaderName s)
    (hrecv : recv.flatten = StreamHeader.writeTo s ++ body) {plugin : π} (hmem : plugin ∈ plugins)
    (hname : name plugin = s) :
    ∃ first rest, probe name plugins recv = .plugin first rest ∧ first ∈ plugins ∧
      name first = s ∧ rest.flatten = body := by
  obtain ⟨lenBuf, rest, rest', hlenBuf, hlen, hnameBuf, hrest'⟩ := readExact_header hs hrecv
  obtain ⟨first, hfirst⟩ : ∃ first, plugins.find? (name · == s) = some first :=
    Option.isSome_iff_exists.mp (List.find?_isSome.mpr ⟨plugin, hmem, by simpa using hname⟩)
  refine ⟨first, rest', ?_, List.mem_of_find?_eq_some hfirst, ?_, hrest'⟩
  · rw [probe, hlenBuf]
    dsimp only
    rw [hlen, if_pos (show s.toUTF8.size > 0 ∧ s.toUTF8.size ≤ maxPluginNameLen from hs), hnameBuf]
    dsimp only
    rw [strFromUtf8_toUTF8, Option.bind_some, hfirst]
  · simpa using List.find?_some hfirst

/-- Bytes that are no header of a plugin are all handed on. -/
theorem probe_none (hlong : 2 ≤ recv.flatten.length)
    (henough : ∀ a b tail, recv.flatten = a :: b :: tail → u16FromBe [a, b] ≤ maxPluginNameLen →
      u16FromBe [a, b] ≤ tail.length)
    (hheader : ∀ plugin ∈ plugins, HeaderName (name plugin) →
      ¬ StreamHeader.writeTo (name plugin) <+: recv.flatten) :
    ∃ seed rest, probe name plugins recv = .none seed rest ∧ seed ++ rest.flatten = recv.flatten := by
  obtain ⟨rest, hlenBuf, hrest⟩ := readExact_ok hlong
  obtain ⟨a, b, tail, hflat⟩ : ∃ a b tail, recv.flatten = a :: b :: tail := by
    match hflat : recv.flatten, hlong with
    | a :: b :: tail, _ => exact ⟨a, b, tail, rfl⟩
  rw [hflat] at hlenBuf hrest
  replace hlenBuf : readExact 2 recv = .ok ([a, b], rest) := hlenBuf
  replace hrest : rest.flatten = tail := hrest
  rw [probe, hlenBuf]
  dsimp only
  split
  · rename_i hname
    have hle := henough a b tail hflat hname.2
    have hrestLen : u16FromBe [a, b] ≤ rest.flatten.length := hrest ▸ hle
    obtain ⟨rest', hnameBuf, hrest'⟩ := readExact_ok hrestLen
    rw [hrest] at hnameBuf hrest'
    rw [hnameBuf]
    dsimp only
    split
    · rename_i plugin hfind
      obtain ⟨s, hs, hplugin⟩ := Option.bind_eq_some_iff.mp hfind
      have hsame : name plugin = s := by simpa using List.find?_some hplugin
      have hwrite := writeTo_eq (a := a) (b := b) hs (List.length_take_of_le hle).symm
      have hsize : s.toUTF8.size = u16FromBe [a, b] := by
        rw [← length_toUTF8, ← toUTF8_of_strFromUtf8 hs, List.length_take_of_le hle]
      refine absurd ?_ (hheader plugin (List.mem_of_find?_eq_some hplugin) ?_)
      · rw [hsame, hwrite, hflat]
        exact ⟨tail.drop (u16FromBe [a, b]), by simp⟩
      · rw [hsame, HeaderName, hsize]
        exact hname
    · refine ⟨_, _, rfl, ?_⟩
      rw [hrest', hflat, List.append_assoc, List.take_append_drop]
      rfl
  · exact ⟨_, _, rfl, by rw [hrest, hflat]; rfl⟩

end Probe

/-! ## Envelopes -/

section Envelopes

variable {p : Prost} {overflowChecks : Bool}

/-- Where a stream of frames looks like a header, an empty frame comes first, and the next frame is
as long as the name would be. -/
theorem name_le_of_stream (hp : p.Lawful) {payloads : List (List UInt8)} {a b : UInt8}
    {tail : List UInt8} (hstream : p.stream payloads = a :: b :: tail)
    (hshort : u16FromBe [a, b] ≤ maxPluginNameLen) : u16FromBe [a, b] ≤ tail.length := by
  have hbyte := b.toNat_lt
  have hvalue : u16FromBe [a, b] = a.toNat * 256 + b.toNat := rfl
  have hbound : maxPluginNameLen = 255 := rfl
  have hzero : a.toNat = 0 := by omega
  obtain rfl : a = 0 := UInt8.toNat_inj.mp hzero
  cases payloads with
  | nil => cases hstream
  | cons first payloads =>
    rw [Prost.stream_cons, Prost.encodeFrameRaw, hp.encode_eq] at hstream
    cases hfirst : Varint.encode first.length with
    | nil => exact absurd hfirst (Varint.isVarint_encode _).ne_nil
    | cons c cs =>
      rw [hfirst, List.cons_append, List.cons_append] at hstream
      obtain ⟨rfl, hrest⟩ := List.cons.inj hstream
      obtain ⟨hempty, rfl⟩ := (Varint.encode_eq_cons hfirst).2 rfl
      obtain rfl := List.length_eq_zero_iff.mp hempty
      cases payloads with
      | nil => cases hrest
      | cons second payloads =>
        rw [List.nil_append, List.nil_append, Prost.stream_cons, Prost.encodeFrameRaw,
          hp.encode_eq] at hrest
        cases hsecond : Varint.encode second.length with
        | nil => exact absurd hsecond (Varint.isVarint_encode _).ne_nil
        | cons d ds =>
          rw [hsecond, List.cons_append, List.cons_append] at hrest
          obtain ⟨rfl, rfl⟩ := List.cons.inj hrest
          have hle := (Varint.encode_eq_cons hsecond).1
          simp only [List.length_append]
          omega

/-- The seed and the read loop hand out every frame. -/
theorem runEnvelopeStreamWithPrefix_eq (hp : p.Lawful) {payloads : List (List UInt8)}
    {seed : List UInt8} {rest : RecvStream}
    (hlens : ∀ payload ∈ payloads, payload.length ≤ maxFrameLen)
    (hstream : seed ++ rest.flatten = p.stream payloads)
    (hfits : FitsCap (payloads.map p.frameLen) seed.length (reads rest)) :
    runEnvelopeStreamWithPrefix p overflowChecks seed rest = ⟨[], payloads, none⟩ := by
  obtain ⟨done, todo, buf, rfl, rfl, hbuf, hdrain⟩ := Prost.drain_spec overflowChecks hp
    (seed.length + 1) hlens ⟨_, hstream⟩ (Nat.lt_succ_self _)
  rw [List.map_append, List.length_append, Prost.length_stream, fitsCap_append] at hfits
  rw [Prost.stream_append, List.append_assoc] at hstream
  rw [runEnvelopeStreamWithPrefix, hdrain]
  refine (Prost.receive_from overflowChecks hp done
    (fun payload hmem => hlens payload (List.mem_append_right _ hmem)) hbuf ?_).mpr hfits
  rw [flatten_reads]
  exact List.append_cancel_left hstream

end Envelopes

/-- The envelopes that are handled, in order; what does not decode is logged and skipped. -/
def Dispatched.handled {π μ : Type} (decode : List UInt8 → Option μ) : Dispatched π → List μ
  | .envelopes reader => reader.frames.filterMap decode
  | .closed | .rejected | .plugin .. => []

/-- **Secondary streams**: the envelopes of a stream are all handled, in order and in whatever
pieces they arrive, when the stream has more than a byte, does not start with the header of a plugin
and fits the cap of the read loop; and the header of a plugin routes the stream of an authenticated
connection to it, what follows untouched, and has that of another one rejected. -/
theorem secondary_streams {π μ : Type} {p : Prost} (hp : p.Lawful) (overflowChecks : Bool)
    (name : π → String) (plugins : List π) (encode : μ → List UInt8)
    (decode : List UInt8 → Option μ) (hcodec : ∀ msg, decode (encode msg) = some msg) :
    (∀ authenticated messages recv, (∀ msg ∈ messages, (encode msg).length ≤ maxFrameLen) →
      recv.flatten = (messages.map (p.encodeFrame encode)).flatten → recv.flatten.length ≠ 1 →
      (∀ plugin ∈ plugins, HeaderName (name plugin) →
        ¬ StreamHeader.writeTo (name plugin) <+: recv.flatten) →
      (∀ seed rest, probe name plugins recv = .none seed rest →
        FitsCap (messages.map fun msg => (p.encodeFrame encode msg).length) seed.length
          (reads rest)) →
      (dispatchSecondaryStream p overflowChecks name plugins authenticated recv).handled decode =
          messages ∧
        (messages ≠ [] → ∃ reader,
          dispatchSecondaryStream p overflowChecks name plugins authenticated recv =
            .envelopes reader)) ∧
    ∀ plugin ∈ plugins, HeaderName (name plugin) → ∀ recv body,
      recv.flatten = StreamHeader.writeTo (name plugin) ++ body →
      (∃ first rest, dispatchSecondaryStream p overflowChecks name plugins true recv =
          .plugin first rest ∧ first ∈ plugins ∧ name first = name plugin ∧ rest.flatten = body) ∧
        dispatchSecondaryStream p overflowChecks name plugins false recv = .rejected := by
  refine ⟨fun authenticated messages recv hlens hrecv hlone hheader hfits => ?_,
    fun plugin hmem hname recv body hrecv => ?_⟩
  · have hstream : recv.flatten = p.stream (messages.map encode) := by
      rw [hrecv, Prost.stream, List.map_map]
      rfl
    have hlens' : ∀ payload ∈ messages.map encode, payload.length ≤ maxFrameLen :=
      List.forall_mem_map.mpr hlens
    by_cases hlong : 2 ≤ recv.flatten.length
    · obtain ⟨seed, rest, hprobe, hseed⟩ := probe_none hlong (fun a b tail hflat =>
        name_le_of_stream hp (hstream.symm.trans hflat)) hheader
      have hrun : runEnvelopeStreamWithPrefix p overflowChecks seed rest =
          ⟨[], messages.map encode, none⟩ :=
        runEnvelopeStreamWithPrefix_eq hp hlens' (hseed.trans hstream)
          (by rw [List.map_map]; exact hfits seed rest hprobe)
      simp only [dispatchSecondaryStream, hprobe, hrun, Dispatched.handled]
      refine ⟨?_, fun _ => ⟨_, rfl⟩⟩
      rw [List.filterMap_map]
      exact (List.filterMap_congr fun msg _ => hcodec msg).trans List.filterMap_some
    · have hnone : recv.flatten.length = 0 := by omega
      cases messages with
      | nil =>
        have hshort : recv.flatten.length < 2 := by omega
        obtain ⟨offset, hoffset⟩ := readExact_error hshort
        simp [dispatchSecondaryStream, probe, hoffset, Dispatched.handled]
      | cons msg messages =>
        have hpos := (Prost.frameLen_bounds hp (hlens msg List.mem_cons_self)).1
        rw [hstream, List.map_cons, Prost.stream_cons, List.length_append] at hnone
        rw [Prost.frameLen] at hpos
        omega
  · obtain ⟨first, rest, hprobe, hfirst, hsame, hrest⟩ := probe_header hname hrecv hmem rfl
    simp only [dispatchSecondaryStream, hprobe]
    exact ⟨⟨first, rest, rfl, hfirst, hsame, hrest⟩, rfl⟩

/-- Two empty envelopes, in a piece each, with a plugin registered. -/
theorem secondary_streams_sample :
    (dispatchSecondaryStream Prost.leb128 true id ["relay"] false [[0], [0]]).handled
      (fun bytes : List UInt8 => some bytes) = [[], []] := by
  have hempty : Prost.leb128.encodeFrame id [] = [0] :=
    congrArg (· ++ []) (Varint.encode_of_lt (n := 0) (by decide))
  refine ((secondary_streams Prost.leb128_lawful true id ["relay"] id
    (fun bytes : List UInt8 => some bytes) fun _ => rfl).1 false [[], []] [[0], [0]]
      (by decide) ?_ (by decide) ?_ ?_).1
  · rw [List.map_cons, List.map_singleton, hempty]
  · intro plugin hmem _ hprefix
    obtain rfl := List.mem_singleton.mp hmem
    have hlen := hprefix.length_le
    have hsize : "relay".toUTF8.size = 5 := by decide
    rw [StreamHeader.writeTo, List.length_append, id, length_toUTF8, hsize] at hlen
    exact absurd hlen (by decide)
  · intro seed rest hprobe
    have hseed : probe id ["relay"] [[0], [0]] = .none [0, 0] [[]] := by
      simp [probe, readExact, u16FromBe]
    obtain ⟨rfl, rfl⟩ := Probed.none.inj (hseed.symm.trans hprobe)
    trivial

/-- **Only an authenticated connection reaches a plugin**, and the probe waits for two bytes, which a
lone empty envelope does not have. -/
theorem not_secondary_streams :
    (¬ ∀ authenticated, ∃ first rest, dispatchSecondaryStream Prost.leb128 true id ["relay"]
      authenticated [StreamHeader.writeTo "relay"] = .plugin first rest) ∧
    (dispatchSecondaryStream Prost.leb128 true id ["relay"] true
      [Prost.leb128.encodeFrame id []]).handled (fun bytes : List UInt8 => some bytes) ≠ [[]] := by
  have hname : HeaderName "relay" := ⟨by decide, by decide⟩
  refine ⟨fun h => ?_, ?_⟩
  · obtain ⟨first, rest, hrouted⟩ := h false
    have hrecv : [StreamHeader.writeTo "relay"].flatten = StreamHeader.writeTo "relay" ++ [] := by
      simp
    obtain ⟨_, _, hprobe, -⟩ : ∃ first rest, probe id ["relay"] [StreamHeader.writeTo "relay"] =
        .plugin first rest ∧ first ∈ ["relay"] ∧ id first = "relay" ∧ rest.flatten = [] :=
      probe_header hname hrecv List.mem_cons_self rfl
    simp only [dispatchSecondaryStream, hprobe] at hrouted
    cases hrouted
  · have hempty : Prost.leb128.encodeFrame id [] = [0] :=
      congrArg (· ++ []) (Varint.encode_of_lt (n := 0) (by decide))
    rw [hempty]
    exact List.cons_ne_nil _ _ ∘ Eq.symm

/-! ## Headers on the client -/

/-- What is written is read, and what follows is left. -/
theorem readFrom_writeTo {s : String} (hs : HeaderName s) {recv : RecvStream} {body : List UInt8}
    (hrecv : recv.flatten = StreamHeader.writeTo s ++ body) :
    ∃ rest, StreamHeader.readFrom recv = .ok (s, rest) ∧ rest.flatten = body := by
  obtain ⟨lenBuf, rest, rest', hlenBuf, hlen, hnameBuf, hrest'⟩ := readExact_header hs hrecv
  refine ⟨rest', ?_, hrest'⟩
  have hvalid : ¬ (s.toUTF8.size = 0 ∨ s.toUTF8.size > 255) := by
    have hle : s.toUTF8.size ≤ 255 := hs.2
    have hpos := hs.1
    omega
  rw [StreamHeader.readFrom, hlenBuf]
  simp only [Except.mapError, bind, Except.bind]
  rw [hlen]
  simp only [if_neg hvalid, hnameBuf, strFromUtf8_toUTF8]
  rfl

end Rumble.Server
