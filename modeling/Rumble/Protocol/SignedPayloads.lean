import Mathlib.Data.Option.Basic
import Rumble.Protocol.AclVersion

/-!
# What a signature was made for

The two payloads a client signs with its long-term key, `build_auth_payload` and
`build_session_cert_payload` of `rumble-protocol/src/lib.rs`. Each determines its fields. Neither
carries a tag: an authentication payload is 112 bytes, and so is a certificate payload whose device
has 62, and `payloads_identify` says for which fields the two are the same bytes.
-/

namespace Rumble

/-! ## Integers of 64 bits -/

theorem i64Bits_lt (i : Int) : i64Bits i < 256 ^ 8 := by
  have h := Int.emod_lt_of_pos i (b := 2 ^ 64) (by decide)
  have h0 := Int.emod_nonneg i (b := 2 ^ 64) (by decide)
  unfold i64Bits
  omega

theorem i64Bits_inj {a b : Int64} (h : i64Bits a.toInt = i64Bits b.toInt) : a = b := by
  have ha := a.toInt_lt
  have ha' := a.le_toInt
  have hb := b.toInt_lt
  have hb' := b.le_toInt
  apply Int64.toInt_inj.mp
  unfold i64Bits at h
  omega

theorem beBytes_i64_inj {a b : Int64}
    (h : beBytes 8 (i64Bits a.toInt) = beBytes 8 (i64Bits b.toInt)) : a = b :=
  i64Bits_inj (beBytes_inj (i64Bits_lt _) (i64Bits_lt _) h)

theorem beBytes_u64_inj {a b : UInt64} (h : beBytes 8 a.toNat = beBytes 8 b.toNat) : a = b :=
  UInt64.toNat_inj.mp (beBytes_inj a.toNat_lt b.toNat_lt h)

/-! ## The payloads -/

/-- The arguments of `build_auth_payload`. -/
@[ext] structure AuthFields where
  nonce : Nonce
  timestampMs : Int64
  publicKey : PublicKey
  userId : UInt64
  serverCertHash : Bytes 32

/-- The arguments of `build_session_cert_payload`. -/
structure CertFields where
  sessionPublicKey : Bytes 32
  issuedMs : Int64
  expiresMs : Int64
  device : Option String

def AuthFields.payload (a : AuthFields) : List UInt8 :=
  buildAuthPayload a.nonce a.timestampMs.toInt a.publicKey a.userId.toNat a.serverCertHash

namespace CertFields

variable (c : CertFields)

def payload : List UInt8 :=
  buildSessionCertPayload c.sessionPublicKey c.issuedMs.toInt c.expiresMs.toInt c.device

def deviceBytes : List UInt8 := (c.device.getD "").toUTF8.toList

/-- The same up to an absent and an empty device. -/
structure Same (c' : CertFields) : Prop where
  sessionPublicKey : c.sessionPublicKey = c'.sessionPublicKey
  issuedMs : c.issuedMs = c'.issuedMs
  expiresMs : c.expiresMs = c'.expiresMs
  device : c.device.getD "" = c'.device.getD ""

theorem payload_eq : c.payload = c.sessionPublicKey.data ++ (beBytes 8 (i64Bits c.issuedMs.toInt) ++
    (beBytes 8 (i64Bits c.expiresMs.toInt) ++ (beBytes 2 c.deviceBytes.length ++ c.deviceBytes))) := by
  simp [payload, buildSessionCertPayload, deviceBytes]

theorem length_payload : c.payload.length = 50 + c.deviceBytes.length := by
  simp only [payload_eq, List.length_append, c.sessionPublicKey.size, length_beBytes]
  omega

theorem payload_eq_iff {c c' : CertFields} : c.payload = c'.payload ↔ c.Same c' := by
  constructor
  · intro h
    rw [payload_eq, payload_eq] at h
    obtain ⟨hkey, h⟩ := List.append_inj h (by rw [c.sessionPublicKey.size, c'.sessionPublicKey.size])
    obtain ⟨hissued, h⟩ := List.append_inj h (by simp [length_beBytes])
    obtain ⟨hexpires, h⟩ := List.append_inj h (by simp [length_beBytes])
    -- The length field has two bytes whatever the device is.
    obtain ⟨-, hdevice⟩ := List.append_inj h (by simp [length_beBytes])
    exact ⟨Bytes.data_inj hkey, beBytes_i64_inj hissued, beBytes_i64_inj hexpires,
      toUTF8_inj hdevice⟩
  · rintro ⟨hkey, hissued, hexpires, hdevice⟩
    simp only [payload, buildSessionCertPayload]
    rw [hkey, hissued, hexpires, hdevice]

end CertFields

namespace AuthFields

theorem payload_eq (a : AuthFields) : a.payload = a.nonce.data ++
    (beBytes 8 (i64Bits a.timestampMs.toInt) ++ (a.publicKey.data ++ (beBytes 8 a.userId.toNat ++
      a.serverCertHash.data))) := by
  simp [payload, buildAuthPayload]

theorem length_payload (a : AuthFields) : a.payload.length = 112 := by
  simp [payload_eq, a.nonce.size, a.publicKey.size, a.serverCertHash.size, length_beBytes]

theorem payload_inj {a a' : AuthFields} (h : a.payload = a'.payload) : a = a' := by
  rw [payload_eq, payload_eq] at h
  obtain ⟨hnonce, h⟩ := List.append_inj h (by rw [a.nonce.size, a'.nonce.size])
  obtain ⟨htime, h⟩ := List.append_inj h (by simp [length_beBytes])
  obtain ⟨hkey, h⟩ := List.append_inj h (by rw [a.publicKey.size, a'.publicKey.size])
  obtain ⟨huser, hhash⟩ := List.append_inj h (by simp [length_beBytes])
  exact AuthFields.ext (Bytes.data_inj hnonce) (beBytes_i64_inj htime) (Bytes.data_inj hkey)
    (beBytes_u64_inj huser) (Bytes.data_inj hhash)

end AuthFields

/-! ## Where they meet -/

/-- The fields for which the two layouts say the same bytes: the device fills the last 62 bytes. -/
structure Overlap (a : AuthFields) (c : CertFields) : Prop where
  length : c.deviceBytes.length = 62
  nonce : a.nonce = c.sessionPublicKey
  timestamp : a.timestampMs = c.issuedMs
  /-- The public key is the expiry, the length field and the start of the device. -/
  publicKey : a.publicKey.data =
    beBytes 8 (i64Bits c.expiresMs.toInt) ++ [0, 62] ++ c.deviceBytes.take 22
  userId : beBytes 8 a.userId.toNat = (c.deviceBytes.drop 22).take 8
  serverCertHash : a.serverCertHash.data = c.deviceBytes.drop 30

/-- What follows the timestamp of a certificate, cut where the fields of an authentication payload
end. -/
theorem cut_at_fields (e device : List UInt8) : e ++ (beBytes 2 62 ++ device) =
    e ++ [0, 62] ++ device.take 22 ++ ((device.drop 22).take 8 ++ device.drop 30) := by
  have hcut : device = device.take 22 ++ ((device.drop 22).take 8 ++ device.drop 30) := by
    rw [show device.drop 30 = (device.drop 22).drop 8 by rw [List.drop_drop],
      List.take_append_drop, List.take_append_drop]
  conv_lhs => rw [hcut]
  simp only [List.append_assoc]
  rfl

theorem payload_eq_iff {a : AuthFields} {c : CertFields} :
    a.payload = c.payload ↔ Overlap a c := by
  constructor
  · intro h
    have hdevice : c.deviceBytes.length = 62 := by
      have hlen := congrArg List.length h
      rw [a.length_payload, c.length_payload] at hlen
      omega
    rw [AuthFields.payload_eq, CertFields.payload_eq, hdevice] at h
    obtain ⟨hnonce, h⟩ := List.append_inj h (by rw [a.nonce.size, c.sessionPublicKey.size])
    obtain ⟨htime, h⟩ := List.append_inj h (by simp [length_beBytes])
    rw [cut_at_fields] at h
    obtain ⟨hkey, h⟩ := List.append_inj h (by simp [a.publicKey.size, length_beBytes, hdevice])
    obtain ⟨huser, hhash⟩ := List.append_inj h (by simp [length_beBytes, hdevice])
    exact ⟨hdevice, Bytes.data_inj hnonce, beBytes_i64_inj htime, hkey, huser, hhash⟩
  · rintro ⟨hdevice, hnonce, htime, hkey, huser, hhash⟩
    rw [AuthFields.payload_eq, CertFields.payload_eq, hdevice, cut_at_fields, hnonce, htime, hkey,
      huser, hhash]

/-- **What the signed bytes tell.** An authentication payload determines its five fields, a
certificate payload determines its fields up to an absent and an empty device, and the two are the
same bytes exactly when a device of 62 bytes continues the layout of the other. -/
theorem payloads_identify (a a' : AuthFields) (c c' : CertFields) :
    (a.payload = a'.payload ↔ a = a') ∧ (c.payload = c'.payload ↔ c.Same c') ∧
      (a.payload = c.payload ↔ Overlap a c) :=
  ⟨⟨AuthFields.payload_inj, fun h => h ▸ rfl⟩, CertFields.payload_eq_iff, payload_eq_iff⟩

/-- A device name of 62 letters. -/
def longDevice : CertFields where
  sessionPublicKey := Bytes.rep 32 1
  issuedMs := 5
  expiresMs := 0
  device := some "aaaaaaaaaaaaaaaaaaaaaaaaaaaaaaaaaaaaaaaaaaaaaaaaaaaaaaaaaaaaaa"

theorem longDevice_bytes : longDevice.deviceBytes = List.replicate 62 97 := by
  rw [CertFields.deviceBytes, toList_byteArray]
  decide

/-- Its certificate is an authentication for a key with the right bytes. -/
theorem not_payloads_disjoint : ¬ ∀ (a : AuthFields) (c : CertFields), a.payload ≠ c.payload := by
  intro h
  refine h ⟨Bytes.rep 32 1, 5, ⟨List.replicate 8 0 ++ [0, 62] ++ List.replicate 22 97, rfl⟩,
    0x6161616161616161, Bytes.rep 32 97⟩ longDevice (payload_eq_iff.mpr ⟨?_, rfl, rfl, ?_, ?_, ?_⟩)
  all_goals
    rw [longDevice_bytes]
    decide

end Rumble
