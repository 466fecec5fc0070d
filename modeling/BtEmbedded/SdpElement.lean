import BtEmbedded.Lib.Bytes
import Mathlib.Data.Nat.Bitwise
/-!
# SdpElement — SDP data elements (services/sdp.c)

A data element is a type byte, a length for the types that need one, and the data.  The three accessors read the first
bytes of an element; `De` is the tree a well-formed element stands for, `De.encode` the bytes it is written as, and
`decodeDe` reads the tree back with the accessors and nothing else.  `decode_encode` says that it gets the same tree.
-/
namespace Bte

open Bytes

/-! ## The accessors -/

def bteSdpDeSizeMask : Nat := 0x07
def bteSdpDeSizeVar8 : Nat := 5
def bteSdpDeSizeVar16 : Nat := 6
def bteSdpDeSizeVar32 : Nat := 7
def bteSdpDeTypeMask : Nat := 0xf8
def bteSdpDeTypeNil : Nat := 0x00
def bteSdpDeTypeUint8 : Nat := 0x08
def bteSdpDeTypeInt8 : Nat := 0x10
def bteSdpDeTypeUuid16 : Nat := 0x19
def bteSdpDeTypeUuid32 : Nat := 0x1a
def bteSdpDeTypeUuid128 : Nat := 0x1c
def bteSdpDeTypeString : Nat := 0x20
def bteSdpDeTypeBool : Nat := 0x28
def bteSdpDeTypeSequence : Nat := 0x30
def bteSdpDeTypeChoice : Nat := 0x38
def bteSdpDeTypeUrl : Nat := 0x40

def deFirst (de : List UInt8) : Nat := (de.getD 0 0).toNat

def deSizeId (de : List UInt8) : Nat := deFirst de &&& bteSdpDeSizeMask

def bteSdpDeGetDataSize (de : List UInt8) : Nat :=
  if deSizeId de = bteSdpDeSizeVar8 then (de.getD 1 0).toNat
  else if deSizeId de = bteSdpDeSizeVar16 then beVal (slice de 1 2)
  else if deSizeId de = bteSdpDeSizeVar32 then beVal (slice de 1 4)
  else if deFirst de = bteSdpDeTypeNil then 0
  else 1 <<< deSizeId de

def bteSdpDeGetHeaderSize (de : List UInt8) : Nat :=
  if deSizeId de = bteSdpDeSizeVar8 then 1 + 1
  else if deSizeId de = bteSdpDeSizeVar16 then 1 + 2
  else if deSizeId de = bteSdpDeSizeVar32 then 1 + 4
  else 1

def bteSdpDeGetTotalSize (de : List UInt8) : Nat := (bteSdpDeGetHeaderSize de + bteSdpDeGetDataSize de) % 2 ^ 32

def bteSdpDeGetType (de : List UInt8) : Nat :=
  let typeId := deFirst de &&& bteSdpDeTypeMask
  if typeId ≥ bteSdpDeTypeString then typeId else deFirst de

/-! ## Trees -/

inductive IntWidth
  | w8 | w16 | w32 | w64 | w128
deriving DecidableEq

def IntWidth.sizeId : IntWidth → Nat
  | .w8 => 0
  | .w16 => 1
  | .w32 => 2
  | .w64 => 3
  | .w128 => 4

def IntWidth.bytes : IntWidth → Nat
  | .w8 => 1
  | .w16 => 2
  | .w32 => 4
  | .w64 => 8
  | .w128 => 16

/-- The elements of fixed size; a signed number is given by its two's complement. -/
inductive Scalar
  | nil
  | uint (w : IntWidth) (v : BitVec (8 * w.bytes))
  | int (w : IntWidth) (v : BitVec (8 * w.bytes))
  | uuid16 (v : BitVec 16)
  | uuid32 (v : BitVec 32)
  | uuid128 (v : { bs : List UInt8 // bs.length = 16 })
  | bool (b : Bool)
deriving DecidableEq

inductive TextKind
  | string | url
deriving DecidableEq

inductive GroupKind
  | sequence | choice
deriving DecidableEq

inductive De
  | scalar (s : Scalar)
  | text (k : TextKind) (s : { bs : List UInt8 // 0 ∉ bs })
  | group (k : GroupKind) (children : List De)

def Scalar.type : Scalar → Nat
  | .nil => bteSdpDeTypeNil
  | .uint w _ => bteSdpDeTypeUint8 + w.sizeId
  | .int w _ => bteSdpDeTypeInt8 + w.sizeId
  | .uuid16 _ => bteSdpDeTypeUuid16
  | .uuid32 _ => bteSdpDeTypeUuid32
  | .uuid128 _ => bteSdpDeTypeUuid128
  | .bool _ => bteSdpDeTypeBool

def Scalar.data : Scalar → List UInt8
  | .nil => []
  | .uint w v => beBytes w.bytes v.toNat
  | .int w v => beBytes w.bytes v.toNat
  | .uuid16 v => beBytes 2 v.toNat
  | .uuid32 v => beBytes 4 v.toNat
  | .uuid128 v => v.1
  | .bool b => [if b then 1 else 0]

def TextKind.type : TextKind → Nat
  | .string => bteSdpDeTypeString
  | .url => bteSdpDeTypeUrl

def GroupKind.type : GroupKind → Nat
  | .sequence => bteSdpDeTypeSequence
  | .choice => bteSdpDeTypeChoice

/-- `var_size`: the size id and the length bytes it stores behind the type. -/
def varSize (len : Nat) : Nat × List UInt8 :=
  if len < 0x100 then (bteSdpDeSizeVar8, beBytes 1 len)
  else if len < 0x10000 then (bteSdpDeSizeVar16, beBytes 2 len)
  else (bteSdpDeSizeVar32, beBytes 4 len)

/-- The type byte and the length of an element of variable size. -/
def varHeader (type len : Nat) : List UInt8 := UInt8.ofNat (type ||| (varSize len).1) :: (varSize len).2

mutual

def De.encode : De → List UInt8
  | .scalar s => UInt8.ofNat s.type :: s.data
  | .text k s => varHeader k.type s.1.length ++ s.1
  | .group k children => varHeader k.type (encodeAll children).length ++ encodeAll children

def encodeAll : List De → List UInt8
  | [] => []
  | t :: ts => t.encode ++ encodeAll ts

end

/-! ## Reading a tree -/

def scalarOf (type : Nat) (data : List UInt8) : Option Scalar :=
  match type with
  | 0x00 => some .nil
  | 0x08 => some (.uint .w8 (.ofNat _ (beVal data)))
  | 0x09 => some (.uint .w16 (.ofNat _ (beVal data)))
  | 0x0a => some (.uint .w32 (.ofNat _ (beVal data)))
  | 0x0b => some (.uint .w64 (.ofNat _ (beVal data)))
  | 0x0c => some (.uint .w128 (.ofNat _ (beVal data)))
  | 0x10 => some (.int .w8 (.ofNat _ (beVal data)))
  | 0x11 => some (.int .w16 (.ofNat _ (beVal data)))
  | 0x12 => some (.int .w32 (.ofNat _ (beVal data)))
  | 0x13 => some (.int .w64 (.ofNat _ (beVal data)))
  | 0x14 => some (.int .w128 (.ofNat _ (beVal data)))
  | 0x19 => some (.uuid16 (.ofNat _ (beVal data)))
  | 0x1a => some (.uuid32 (.ofNat _ (beVal data)))
  | 0x1c => if h : data.length = 16 then some (.uuid128 ⟨data, h⟩) else none
  | 0x28 => some (.bool (beVal data ≠ 0))
  | _ => none

def textOf (k : TextKind) (data : List UInt8) : Option De :=
  if h : 0 ∉ data then some (.text k ⟨data, h⟩) else none

mutual

def decode : Nat → List UInt8 → Option De
  | 0, _ => none
  | fuel + 1, de =>
    let data := slice de (bteSdpDeGetHeaderSize de) (bteSdpDeGetDataSize de)
    match bteSdpDeGetType de with
    | 0x20 => textOf .string data
    | 0x40 => textOf .url data
    | 0x30 => (decodeAll fuel data).map (.group .sequence)
    | 0x38 => (decodeAll fuel data).map (.group .choice)
    | type => (scalarOf type data).map .scalar

def decodeAll : Nat → List UInt8 → Option (List De)
  | 0, _ => none
  | _ + 1, [] => some []
  | fuel + 1, b :: de =>
    match decode fuel (b :: de), decodeAll fuel ((b :: de).drop (bteSdpDeGetTotalSize (b :: de))) with
    | some t, some ts => some (t :: ts)
    | _, _ => none

end

/-- The tree a data element stands for. -/
def decodeDe (de : List UInt8) : Option De := decode (2 * de.length) de

/-! ## What is written is what is read -/

/-- The types of fixed size and the number of data bytes each has. -/
def scalarSizes : List (Nat × Nat) :=
  [(0x00, 0), (0x08, 1), (0x09, 2), (0x0a, 4), (0x0b, 8), (0x0c, 16), (0x10, 1), (0x11, 2), (0x12, 4), (0x13, 8),
    (0x14, 16), (0x19, 2), (0x1a, 4), (0x1c, 16), (0x28, 1)]

theorem mem_scalarSizes (s : Scalar) : (s.type, s.data.length) ∈ scalarSizes := by
  cases s with
  | nil => decide
  | uint w v =>
    rw [Scalar.data, length_beBytes]
    cases w <;> simp [Scalar.type, IntWidth.bytes, IntWidth.sizeId, bteSdpDeTypeUint8, scalarSizes]
  | int w v =>
    rw [Scalar.data, length_beBytes]
    cases w <;> simp [Scalar.type, IntWidth.bytes, IntWidth.sizeId, bteSdpDeTypeInt8, scalarSizes]
  | uuid16 v =>
    rw [Scalar.data, length_beBytes]
    simp [Scalar.type, bteSdpDeTypeUuid16, scalarSizes]
  | uuid32 v =>
    rw [Scalar.data, length_beBytes]
    simp [Scalar.type, bteSdpDeTypeUuid32, scalarSizes]
  | uuid128 v =>
    rw [Scalar.data, v.2]
    simp [Scalar.type, bteSdpDeTypeUuid128, scalarSizes]
  | bool b => simp [Scalar.type, Scalar.data, bteSdpDeTypeBool, scalarSizes]

/-- What the accessors make of the type byte of a scalar. -/
theorem scalarSizes_accessors : ∀ x ∈ scalarSizes,
    x.1 < 256 ∧ x.1 &&& bteSdpDeSizeMask < bteSdpDeSizeVar8 ∧
    (if x.1 &&& bteSdpDeTypeMask ≥ bteSdpDeTypeString then x.1 &&& bteSdpDeTypeMask else x.1) = x.1 ∧
    (if x.1 = bteSdpDeTypeNil then 0 else 1 <<< (x.1 &&& bteSdpDeSizeMask)) = x.2 := by
  decide

/-- An element whose type byte is of fixed size. -/
theorem scalarByte_accessors {b : UInt8} {n : Nat} (h : (b.toNat, n) ∈ scalarSizes) (tail : List UInt8) :
    bteSdpDeGetType (b :: tail) = b.toNat ∧ bteSdpDeGetHeaderSize (b :: tail) = 1 ∧ bteSdpDeGetDataSize (b :: tail) = n := by
  obtain ⟨-, hid, htype, hdata⟩ := scalarSizes_accessors _ h
  simp only at hid htype hdata
  have hfirst : deFirst (b :: tail) = b.toNat := rfl
  have h5 : b.toNat &&& bteSdpDeSizeMask ≠ bteSdpDeSizeVar8 := by omega
  have h6 : b.toNat &&& bteSdpDeSizeMask ≠ bteSdpDeSizeVar16 := by
    unfold bteSdpDeSizeVar8 at hid
    unfold bteSdpDeSizeVar16
    omega
  have h7 : b.toNat &&& bteSdpDeSizeMask ≠ bteSdpDeSizeVar32 := by
    unfold bteSdpDeSizeVar8 at hid
    unfold bteSdpDeSizeVar32
    omega
  refine ⟨?_, ?_, ?_⟩
  · simpa only [bteSdpDeGetType, hfirst] using htype
  · simp only [bteSdpDeGetHeaderSize, deSizeId, hfirst, h5, h6, h7, if_false]
  · simpa only [bteSdpDeGetDataSize, deSizeId, hfirst, h5, h6, h7, if_false] using hdata

theorem scalar_accessors (s : Scalar) (tail : List UInt8) :
    bteSdpDeGetType (UInt8.ofNat s.type :: tail) = s.type ∧
    bteSdpDeGetHeaderSize (UInt8.ofNat s.type :: tail) = 1 ∧
    bteSdpDeGetDataSize (UInt8.ofNat s.type :: tail) = s.data.length := by
  have hmem := mem_scalarSizes s
  have hbyte : (UInt8.ofNat s.type).toNat = s.type := by
    rw [UInt8.toNat_ofNat', Nat.mod_eq_of_lt (scalarSizes_accessors _ hmem).1]
  obtain ⟨htype, hheader, hdata⟩ := @scalarByte_accessors (UInt8.ofNat s.type) s.data.length (by rwa [hbyte]) tail
  exact ⟨htype.trans hbyte, hheader, hdata⟩

theorem ofNat_beVal_beBytes (w : Nat) (v : BitVec (8 * w)) : BitVec.ofNat (8 * w) (beVal (beBytes w v.toNat)) = v := by
  have hpow : (256 : Nat) ^ w = 2 ^ (8 * w) := by rw [Nat.pow_mul]
  rw [beVal_beBytes, hpow, Nat.mod_eq_of_lt v.isLt, BitVec.ofNat_toNat, BitVec.setWidth_eq]

theorem scalarOf_data (s : Scalar) : scalarOf s.type s.data = some s := by
  cases s with
  | nil => rfl
  | uint w v =>
    have h := ofNat_beVal_beBytes w.bytes v
    cases w <;> exact congrArg (fun v => some (Scalar.uint _ v)) h
  | int w v =>
    have h := ofNat_beVal_beBytes w.bytes v
    cases w <;> exact congrArg (fun v => some (Scalar.int _ v)) h
  | uuid16 v => exact congrArg (fun v => some (Scalar.uuid16 v)) (ofNat_beVal_beBytes 2 v)
  | uuid32 v => exact congrArg (fun v => some (Scalar.uuid32 v)) (ofNat_beVal_beBytes 4 v)
  | uuid128 v => exact dif_pos v.2
  | bool b => cases b <;> rfl

/-- A type whose elements have a length behind the type byte. -/
def VarType (type : Nat) : Prop := type = 0x20 ∨ type = 0x30 ∨ type = 0x38 ∨ type = 0x40

theorem TextKind.varType (k : TextKind) : VarType k.type := by
  cases k <;> simp [VarType, TextKind.type, bteSdpDeTypeString, bteSdpDeTypeUrl]

theorem GroupKind.varType (k : GroupKind) : VarType k.type := by
  cases k <;> simp [VarType, GroupKind.type, bteSdpDeTypeSequence, bteSdpDeTypeChoice]

theorem slice_cons_beBytes (b : UInt8) (w len : Nat) (tail : List UInt8) :
    slice (b :: (beBytes w len ++ tail)) 1 w = beBytes w len := by
  rw [slice, List.drop_succ_cons, List.drop_zero, List.take_left' (length_beBytes w len)]

/-- What the accessors make of the type byte of an element with a length. -/
theorem varType_byte {type : Nat} (ht : VarType type) {id : Nat} (hid : id = 5 ∨ id = 6 ∨ id = 7) (tail : List UInt8) :
    bteSdpDeGetType (UInt8.ofNat (type ||| id) :: tail) = type ∧ deSizeId (UInt8.ofNat (type ||| id) :: tail) = id := by
  simp only [bteSdpDeGetType, deSizeId, deFirst, List.getD_cons_zero]
  rcases ht with rfl | rfl | rfl | rfl <;> rcases hid with rfl | rfl | rfl <;> decide

theorem varHeader_accessors {type len : Nat} (ht : VarType type) (hlen : len < 2 ^ 32) (tail : List UInt8) :
    bteSdpDeGetType (varHeader type len ++ tail) = type ∧
    bteSdpDeGetHeaderSize (varHeader type len ++ tail) = (varHeader type len).length ∧
    bteSdpDeGetDataSize (varHeader type len ++ tail) = len := by
  unfold varHeader varSize
  by_cases h8 : len < 0x100
  · obtain ⟨htype, hid⟩ := varType_byte ht (.inl rfl) (beBytes 1 len ++ tail)
    simp only [h8, if_true, List.cons_append, List.length_cons, length_beBytes, bteSdpDeSizeVar8]
    refine ⟨htype, ?_, ?_⟩
    · rw [bteSdpDeGetHeaderSize, hid]
      rfl
    · have hv : (UInt8.ofNat len).toNat = len := by
        rw [UInt8.toNat_ofNat']
        omega
      rw [bteSdpDeGetDataSize, hid]
      exact hv
  · by_cases h16 : len < 0x10000
    · obtain ⟨htype, hid⟩ := varType_byte ht (.inr (.inl rfl)) (beBytes 2 len ++ tail)
      simp only [h8, h16, if_true, if_false, List.cons_append, List.length_cons, length_beBytes, bteSdpDeSizeVar16]
      refine ⟨htype, ?_, ?_⟩
      · rw [bteSdpDeGetHeaderSize, hid]
        rfl
      · rw [bteSdpDeGetDataSize, hid]
        show beVal (slice _ 1 2) = len
        rw [slice_cons_beBytes, beVal_beBytes]
        omega
    · obtain ⟨htype, hid⟩ := varType_byte ht (.inr (.inr rfl)) (beBytes 4 len ++ tail)
      simp only [h8, h16, if_false, List.cons_append, List.length_cons, length_beBytes, bteSdpDeSizeVar32]
      refine ⟨htype, ?_, ?_⟩
      · rw [bteSdpDeGetHeaderSize, hid]
        rfl
      · rw [bteSdpDeGetDataSize, hid]
        show beVal (slice _ 1 4) = len
        rw [slice_cons_beBytes, beVal_beBytes]
        omega

theorem two_le_varHeader (type len : Nat) : 2 ≤ (varHeader type len).length := by
  unfold varHeader varSize
  split
  · simp
  · split <;> simp

theorem varHeader_le (type len : Nat) : (varHeader type len).length ≤ 5 := by
  unfold varHeader varSize
  split
  · simp
  · split <;> simp

/-- **The accessors of an element**, whatever follows it. -/
theorem encode_totalSize (t : De) (hlen : t.encode.length < 2 ^ 32) (tail : List UInt8) :
    bteSdpDeGetTotalSize (t.encode ++ tail) = t.encode.length := by
  cases t with
  | scalar s =>
    obtain ⟨_, hh, hd⟩ := scalar_accessors s (s.data ++ tail)
    simp only [De.encode, List.cons_append, List.length_cons] at hlen ⊢
    rw [bteSdpDeGetTotalSize, hh, hd]
    omega
  | text k s =>
    simp only [De.encode, List.length_append, List.append_assoc] at hlen ⊢
    obtain ⟨_, hh, hd⟩ := varHeader_accessors k.varType (show s.1.length < 2 ^ 32 by omega) (s.1 ++ tail)
    rw [bteSdpDeGetTotalSize, hh, hd]
    omega
  | group k ts =>
    simp only [De.encode, List.length_append, List.append_assoc] at hlen ⊢
    obtain ⟨_, hh, hd⟩ := varHeader_accessors k.varType (show (encodeAll ts).length < 2 ^ 32 by omega) (encodeAll ts ++ tail)
    rw [bteSdpDeGetTotalSize, hh, hd]
    omega

/-- The data of an element with a length. -/
theorem slice_varHeader {type len : Nat} (data tail : List UInt8) (hlen : data.length = len) :
    slice (varHeader type len ++ (data ++ tail)) (varHeader type len).length len = data := by
  rw [slice, List.drop_left, List.take_left' hlen]

theorem one_le_encode (t : De) : 1 ≤ t.encode.length := by
  cases t with
  | scalar s => simp [De.encode]
  | text k s =>
    have h := two_le_varHeader k.type s.1.length
    simp only [De.encode, List.length_append]
    omega
  | group k ts =>
    have h := two_le_varHeader k.type (encodeAll ts).length
    simp only [De.encode, List.length_append]
    omega

theorem decode_scalar (s : Scalar) (fuel : Nat) (tail : List UInt8) :
    decode (fuel + 1) ((De.scalar s).encode ++ tail) = some (.scalar s) := by
  obtain ⟨ht, hh, hd⟩ := scalar_accessors s (s.data ++ tail)
  have hs := scalarOf_data s
  have hdata : slice (UInt8.ofNat s.type :: (s.data ++ tail)) 1 s.data.length = s.data := by
    rw [slice, List.drop_succ_cons, List.drop_zero, List.take_left]
  simp only [De.encode, List.cons_append]
  simp only [decode, ht, hh, hd, hdata]
  have hne : s.type ≠ 0x20 ∧ s.type ≠ 0x40 ∧ s.type ≠ 0x30 ∧ s.type ≠ 0x38 := by
    have hmem := mem_scalarSizes s
    generalize s.type = type at hmem
    generalize s.data.length = len at hmem
    simp only [scalarSizes, List.mem_cons, Prod.mk.injEq, List.not_mem_nil, or_false] at hmem
    omega
  split
  · exact absurd (by assumption) hne.1
  · exact absurd (by assumption) hne.2.1
  · exact absurd (by assumption) hne.2.2.1
  · exact absurd (by assumption) hne.2.2.2
  · rw [hs]
    rfl

theorem decode_text (k : TextKind) (s : { bs : List UInt8 // 0 ∉ bs }) (hlen : s.1.length < 2 ^ 32) (fuel : Nat)
    (tail : List UInt8) : decode (fuel + 1) ((De.text k s).encode ++ tail) = some (.text k s) := by
  obtain ⟨ht, hh, hd⟩ := varHeader_accessors k.varType hlen (s.1 ++ tail)
  have htext : textOf k s.1 = some (.text k s) := dif_pos s.2
  simp only [De.encode, List.append_assoc]
  simp only [decode, ht, hh, hd, slice_varHeader s.1 tail rfl]
  cases k <;> exact htext

theorem decode_group (k : GroupKind) {ts : List De} (hlen : (encodeAll ts).length < 2 ^ 32) {fuel : Nat}
    (hts : decodeAll fuel (encodeAll ts) = some ts) (tail : List UInt8) :
    decode (fuel + 1) ((De.group k ts).encode ++ tail) = some (.group k ts) := by
  obtain ⟨ht, hh, hd⟩ := varHeader_accessors k.varType hlen (encodeAll ts ++ tail)
  simp only [De.encode, List.append_assoc]
  simp only [decode, ht, hh, hd, slice_varHeader (encodeAll ts) tail rfl, hts]
  cases k <;> rfl

mutual

/-- **Reading back an element gives the tree it was written from.** -/
theorem decode_encode : ∀ (t : De) (fuel : Nat) (tail : List UInt8), t.encode.length < 2 ^ 32 →
    2 * t.encode.length ≤ fuel → decode fuel (t.encode ++ tail) = some t
  | t, 0, tail, _, hf => by
    have h := one_le_encode t
    omega
  | .scalar s, fuel + 1, tail, _, _ => decode_scalar s fuel tail
  | .text k s, fuel + 1, tail, hlen, _ => by
    simp only [De.encode, List.length_append] at hlen
    exact decode_text k s (by omega) fuel tail
  | .group k ts, fuel + 1, tail, hlen, hf => by
    have h2 := two_le_varHeader k.type (encodeAll ts).length
    simp only [De.encode, List.length_append] at hlen hf
    exact decode_group k (by omega) (decodeAll_encodeAll ts fuel (by omega) (by omega)) tail

theorem decodeAll_encodeAll : ∀ (ts : List De) (fuel : Nat), (encodeAll ts).length < 2 ^ 32 →
    2 * (encodeAll ts).length + 1 ≤ fuel → decodeAll fuel (encodeAll ts) = some ts
  | _, 0, _, hf => by omega
  | [], _ + 1, _, _ => by simp [encodeAll, decodeAll]
  | t :: ts, fuel + 1, hlen, hf => by
    have h1 := one_le_encode t
    simp only [encodeAll, List.length_append] at hlen hf
    have ht := decode_encode t fuel (encodeAll ts) (by omega) (by omega)
    have hts := decodeAll_encodeAll ts fuel (by omega) (by omega)
    have htotal := encode_totalSize t (by omega) (encodeAll ts)
    rw [encodeAll]
    cases hbytes : t.encode ++ encodeAll ts with
    | nil =>
      have h0 := congrArg List.length hbytes
      simp only [List.length_append, List.length_nil] at h0
      omega
    | cons b de =>
      rw [decodeAll, ← hbytes, ht, htotal, List.drop_left, hts]

end

/-- The whole element is read back from its own bytes. -/
theorem decodeDe_encode (t : De) (hlen : t.encode.length < 2 ^ 32) : decodeDe t.encode = some t := by
  have h := decode_encode t (2 * t.encode.length) [] hlen (Nat.le_refl _)
  rwa [List.append_nil] at h

end Bte
