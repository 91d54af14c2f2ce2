import Rumble.Lib.Varint

/-!
# Fields of a proto3 message

A field is written as a tag, which is its number and the kind of its value, and the value: a
varint, or bytes behind their length. A scalar of its default value is left out; what is present or
repeated is written whatever it is. Bytes that start with a length-delimited field of some number
determine its content and what follows it.
-/

namespace Rumble.Lib.ProtoField

/-! ## Writing -/

def tag (field wireType : Nat) : List UInt8 := Varint.encode (8 * field + wireType)

/-- Bytes behind their length: an element of a repeated field, a message or an optional string. -/
def delimited (field : Nat) (content : List UInt8) : List UInt8 :=
  tag field 2 ++ Varint.encode content.length ++ content

/-- A string or a byte string. -/
def bytes (field : Nat) (content : List UInt8) : List UInt8 :=
  if content = [] then [] else delimited field content

def uint (field n : Nat) : List UInt8 :=
  if n = 0 then [] else tag field 0 ++ Varint.encode n

def bool (field : Nat) (b : Bool) : List UInt8 := uint field b.toNat

/-! ## Reading back -/

section Inj

variable {field n n' : Nat} {content content' rest rest' : List UInt8}

theorem tag_ne_nil (field wireType : Nat) : tag field wireType ≠ [] :=
  (Varint.isVarint_encode _).ne_nil

theorem delimited_ne_nil (field : Nat) (content : List UInt8) : delimited field content ≠ [] := by
  intro h
  obtain ⟨h, -⟩ := List.append_eq_nil_iff.mp h
  exact tag_ne_nil field 2 (List.append_eq_nil_iff.mp h).1

/-- **A field is read back** from the front of what it was written to. -/
theorem delimited_append_inj
    (h : delimited field content ++ rest = delimited field content' ++ rest') :
    content = content' ∧ rest = rest' := by
  simp only [delimited, List.append_assoc] at h
  have htail := List.append_cancel_left h
  obtain ⟨-, hlen, hbody⟩ := (Varint.isVarint_encode content.length).unique_of_append
    (Varint.isVarint_encode content'.length) htail
  exact List.append_inj hbody hlen

theorem delimited_inj (h : delimited field content = delimited field content') :
    content = content' := by
  have happ : delimited field content ++ [] = delimited field content' ++ [] := by rw [h]
  exact (delimited_append_inj happ).1

theorem uint_inj (h : uint field n = uint field n') : n = n' := by
  have hwritten : ∀ m, tag field 0 ++ Varint.encode m ≠ [] := fun m hm =>
    tag_ne_nil field 0 (List.append_eq_nil_iff.mp hm).1
  unfold uint at h
  split at h
  · rename_i hn
    split at h
    · rename_i hn'
      rw [hn, hn']
    · exact absurd h.symm (hwritten n')
  · split at h
    · exact absurd h (hwritten n)
    · have hvalue := List.append_cancel_left h
      have happ : Varint.encode n ++ [] = Varint.encode n' ++ [] := by rw [hvalue]
      exact ((Varint.isVarint_encode n).unique_of_append (Varint.isVarint_encode n') happ).2.1

end Inj

end Rumble.Lib.ProtoField
