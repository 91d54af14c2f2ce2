import Rumble.Protocol.Wire

/-!
# What an ACL version identifies

`room_acl_version` hashes the inherit flag and the entries, each group name behind its length. The
bytes that are hashed determine the ACL (`aclBytes_inj`), so two ACLs share a version only if the
hash collides.
-/

namespace Rumble

/-! ## Integers and strings as bytes -/

theorem length_beBytes (n v : Nat) : (beBytes n v).length = n := by
  induction n generalizing v with
  | zero => rfl
  | succ n ih => rw [beBytes, List.length_append, ih, List.length_singleton]

theorem length_leBytes (n v : Nat) : (leBytes n v).length = n := by
  rw [leBytes, List.length_reverse, length_beBytes]

theorem beBytes_inj {n v v' : Nat} (hv : v < 256 ^ n) (hv' : v' < 256 ^ n)
    (h : beBytes n v = beBytes n v') : v = v' := by
  induction n generalizing v v' with
  | zero =>
    rw [Nat.pow_zero] at hv hv'
    omega
  | succ n ih =>
    obtain ⟨hhigh, hlow⟩ := List.append_inj' h rfl
    have hmod : v % 256 = v' % 256 := by
      have hbyte := congrArg UInt8.toNat (List.cons.inj hlow).1
      simpa using hbyte
    have hdiv : v / 256 = v' / 256 := by
      refine ih ?_ ?_ hhigh
      · rw [Nat.pow_succ] at hv
        exact Nat.div_lt_of_lt_mul (by rwa [Nat.mul_comm] at hv)
      · rw [Nat.pow_succ] at hv'
        exact Nat.div_lt_of_lt_mul (by rwa [Nat.mul_comm] at hv')
    omega

theorem leBytes_inj {n v v' : Nat} (hv : v < 256 ^ n) (hv' : v' < 256 ^ n)
    (h : leBytes n v = leBytes n v') : v = v' := beBytes_inj hv hv' (List.reverse_injective h)

theorem toList_loop (bs : ByteArray) (i : Nat) (r : List UInt8) :
    ByteArray.toList.loop bs i r = r.reverse ++ bs.data.toList.drop i := by
  fun_induction ByteArray.toList.loop bs i r with
  | case1 i r h ih =>
    have hi : i < bs.data.toList.length := h
    rw [ih, List.reverse_cons, List.append_assoc, List.singleton_append,
      List.drop_eq_getElem_cons hi]
    have hget : bs.get! i = bs.data.toList[i] := by
      show bs.data[i]! = _
      rw [Array.getElem_toList, getElem!_pos bs.data i h]
    rw [hget]
  | case2 i r h =>
    have hi : bs.data.toList.length ≤ i := Nat.le_of_not_lt h
    rw [List.drop_eq_nil_of_le hi, List.append_nil]

theorem toList_byteArray (bs : ByteArray) : bs.toList = bs.data.toList := by
  show ByteArray.toList.loop bs 0 [] = _
  rw [toList_loop, List.reverse_nil, List.nil_append, List.drop_zero]

theorem length_toUTF8 (s : String) : s.toUTF8.toList.length = s.toUTF8.size := by
  rw [toList_byteArray]
  rfl

theorem toUTF8_inj {s t : String} (h : s.toUTF8.toList = t.toUTF8.toList) : s = t := by
  rw [toList_byteArray, toList_byteArray, Array.toList_inj] at h
  exact String.toByteArray_inj.mp (ByteArray.ext h)

/-! ## Entries -/

namespace RoomAclEntry

/-- The group name is as long as a string can be. -/
def Sized (e : RoomAclEntry) : Prop := e.group.toUTF8.size < 2 ^ 64

instance (e : RoomAclEntry) : Decidable e.Sized := inferInstanceAs (Decidable (_ < _))

/-- An entry is read back from the front of what it was written to. -/
theorem versionBytes_append_inj {e e' : RoomAclEntry} {l l' : List UInt8} (he : e.Sized)
    (he' : e'.Sized) (h : e.versionBytes ++ l = e'.versionBytes ++ l') : e = e' ∧ l = l' := by
  have hbits : ∀ b : BitVec 32, b.toNat < 256 ^ 4 := fun b => b.isLt
  have hflag : ∀ a b : Bool, (if a then 1 else 0 : UInt8) = (if b then 1 else 0) → a = b := by
    decide
  simp only [versionBytes, List.append_assoc] at h
  obtain ⟨hsize, h⟩ := List.append_inj h (by rw [length_leBytes, length_leBytes])
  have hsize := leBytes_inj (n := 8) he he' hsize
  obtain ⟨hgroup, h⟩ := List.append_inj h (by rw [length_toUTF8, length_toUTF8, hsize])
  obtain ⟨hgrant, h⟩ := List.append_inj h (by rw [length_leBytes, length_leBytes])
  obtain ⟨hdeny, h⟩ := List.append_inj h (by rw [length_leBytes, length_leBytes])
  obtain ⟨hflags, hl⟩ := List.append_inj h rfl
  obtain ⟨hhere, hsubs⟩ := List.cons.inj hflags
  refine ⟨?_, hl⟩
  obtain ⟨group, grant, deny, here, subs⟩ := e
  obtain ⟨group', grant', deny', here', subs'⟩ := e'
  obtain rfl : group = group' := toUTF8_inj hgroup
  obtain rfl : grant = grant' := BitVec.eq_of_toNat_eq (leBytes_inj (hbits _) (hbits _) hgrant)
  obtain rfl : deny = deny' := BitVec.eq_of_toNat_eq (leBytes_inj (hbits _) (hbits _) hdeny)
  obtain rfl : here = here' := hflag _ _ hhere
  obtain rfl : subs = subs' := hflag _ _ (List.cons.inj hsubs).1
  rfl

theorem versionBytes_ne_nil (e : RoomAclEntry) : e.versionBytes ≠ [] := by
  intro h
  have hlen := congrArg List.length h
  simp only [versionBytes, List.length_append, length_leBytes, List.length_cons,
    List.length_nil] at hlen
  omega

theorem flatMap_versionBytes_inj {es es' : List RoomAclEntry} (hes : ∀ e ∈ es, e.Sized)
    (hes' : ∀ e ∈ es', e.Sized) (h : es.flatMap versionBytes = es'.flatMap versionBytes) :
    es = es' := by
  induction es generalizing es' with
  | nil =>
    cases es' with
    | nil => rfl
    | cons e es' =>
      rw [List.flatMap_nil, List.flatMap_cons] at h
      exact absurd (List.append_eq_nil_iff.mp h.symm).1 (versionBytes_ne_nil e)
  | cons e es ih =>
    cases es' with
    | nil =>
      rw [List.flatMap_nil, List.flatMap_cons] at h
      exact absurd (List.append_eq_nil_iff.mp h).1 (versionBytes_ne_nil e)
    | cons e' es' =>
      rw [List.flatMap_cons, List.flatMap_cons] at h
      obtain ⟨rfl, hrest⟩ := versionBytes_append_inj (hes e List.mem_cons_self)
        (hes' e' List.mem_cons_self) h
      rw [ih (fun x hx => hes x (List.mem_cons_of_mem _ hx))
        (fun x hx => hes' x (List.mem_cons_of_mem _ hx)) hrest]

end RoomAclEntry

/-! ## Whole ACLs -/

/-- The bytes `room_acl_version` hashes. -/
def aclBytes (inheritAcl : Bool) (entries : List RoomAclEntry) : List UInt8 :=
  (if inheritAcl then 1 else 0) :: entries.flatMap RoomAclEntry.versionBytes

theorem roomAclVersion_eq (blake3 : List UInt8 → Bytes 32) (i : Bool) (es : List RoomAclEntry) :
    roomAclVersion blake3 i es =
      let v := ((blake3 (aclBytes i es)).data.take 8).foldr (fun b acc => b.toNat + 256 * acc) 0
      if v = 0 then 1 else v := rfl

/-- **The hashed bytes determine the ACL.** -/
theorem aclBytes_inj {i i' : Bool} {es es' : List RoomAclEntry} (hes : ∀ e ∈ es, e.Sized)
    (hes' : ∀ e ∈ es', e.Sized) (h : aclBytes i es = aclBytes i' es') : i = i' ∧ es = es' := by
  obtain ⟨hflag, hentries⟩ := List.cons.inj h
  refine ⟨?_, RoomAclEntry.flatMap_versionBytes_inj hes hes' hentries⟩
  revert hflag
  cases i <;> cases i' <;> decide

theorem roomAclVersion_ne_zero (blake3 : List UInt8 → Bytes 32) (i : Bool)
    (es : List RoomAclEntry) : roomAclVersion blake3 i es ≠ 0 := by
  rw [roomAclVersion_eq]
  dsimp only
  split
  · exact Nat.one_ne_zero
  · assumption

/-! ## What a version tells -/

/-- The flag and the entries of an ACL. A group name is a string that fits in memory. -/
structure SizedAcl where
  inheritAcl : Bool
  entries : List RoomAclEntry
  sized : ∀ e ∈ entries, e.Sized

/-- The number that is left of the digest of some bytes: its first eight bytes, with 1 for 0. -/
def digestVersion (blake3 : List UInt8 → Bytes 32) (bytes : List UInt8) : Nat :=
  let v := ((blake3 bytes).data.take 8).foldr (fun b acc => b.toNat + 256 * acc) 0
  if v = 0 then 1 else v

/-- Different bytes with the same number. -/
def Collide (blake3 : List UInt8 → Bytes 32) (x y : List UInt8) : Prop :=
  x ≠ y ∧ digestVersion blake3 x = digestVersion blake3 y

instance (blake3 : List UInt8 → Bytes 32) (x y : List UInt8) : Decidable (Collide blake3 x y) :=
  inferInstanceAs (Decidable (_ ∧ _))

namespace SizedAcl

variable (a b : SizedAcl)

/-- What is hashed. -/
def bytes : List UInt8 := aclBytes a.inheritAcl a.entries

def version (blake3 : List UInt8 → Bytes 32) : Nat := roomAclVersion blake3 a.inheritAcl a.entries

theorem bytes_eq_iff {a b : SizedAcl} : a.bytes = b.bytes ↔ a = b := by
  constructor
  · intro h
    obtain ⟨hflag, hentries⟩ := aclBytes_inj a.sized b.sized h
    cases a
    cases b
    cases hflag
    cases hentries
    rfl
  · rintro rfl
    rfl

/-- **An ACL version identifies the ACL.** The hashed bytes are those of one ACL only, so two ACLs
share a version only by a collision of the hash, and no ACL has the version 0. -/
theorem version_identifies (blake3 : List UInt8 → Bytes 32) :
    (a.bytes = b.bytes ↔ a = b) ∧
      (¬ Collide blake3 a.bytes b.bytes → (a.version blake3 = b.version blake3 ↔ a = b)) ∧
      a.version blake3 ≠ 0 := by
  refine ⟨bytes_eq_iff, fun hfree => ⟨fun h => ?_, fun h => h ▸ rfl⟩,
    roomAclVersion_ne_zero blake3 _ _⟩
  by_contra hne
  have hbytes : a.bytes ≠ b.bytes := fun heq => hne (bytes_eq_iff.mp heq)
  exact hfree ⟨hbytes, h⟩

/-- A hash that keeps the first 32 bytes tells a room that inherits from one that also denies
something. -/
theorem version_identifies_sample :
    let blake3 : List UInt8 → Bytes 32 := fun l =>
      ⟨(l ++ List.replicate 32 0).take 32, by
        rw [List.length_take, List.length_append, List.length_replicate]
        exact Nat.min_eq_left (Nat.le_add_left 32 l.length)⟩
    let a : SizedAcl := ⟨true, [], List.forall_mem_nil _⟩
    let b : SizedAcl := ⟨true, [⟨"mods", 4, 2, true, false⟩], by decide⟩
    (a.version blake3 = b.version blake3 ↔ a = b) ∧ a.version blake3 ≠ b.version blake3 := by
  intro blake3 a b
  have hne : a.version blake3 ≠ b.version blake3 := by decide
  exact ⟨(version_identifies a b blake3).2.1 (by decide), hne⟩

end SizedAcl

end Rumble
