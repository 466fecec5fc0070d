import BtEmbedded.SdpReader
import BtEmbedded.SdpWrite
/-!
# SdpValue — the value under the cursor (services/sdp.c)

The read functions give the value of the current element.  A number may be read with any function of its signedness: each
takes its own width and leaves the others to the next smaller one, so that a narrow number is extended on the way up.  A
number of 128 bits is an `__int128` or a structure of two 64-bit parts, as the compiler has it; either way it is the
sixteen bytes it has in memory, and `Endian.value` is the number they stand for.
-/
namespace Bte

open Bytes

/-! ## The code -/

/-- `de_get_data`: where the value of the current element is, and its size. -/
def deGetData (r : DeReader) : Option (List UInt8 × Nat) :=
  (deGetCurrent r).bind fun de =>
    if bteSdpDeGetDataSize de > 0 then some (de.drop (bteSdpDeGetHeaderSize de), bteSdpDeGetDataSize de) else none

def bteSdpDeTypeInvalid : Nat := 0xff

def bteSdpDeReaderGetType (r : DeReader) : Nat :=
  match deGetCurrent r with
  | none => bteSdpDeTypeInvalid
  | some de => bteSdpDeGetType de

def bteSdpDeReaderReadUint8 (r : DeReader) : Nat :=
  match deGetData r with
  | none => 0
  | some (data, size) => if size ≠ 1 then 0 else (data.getD 0 0).toNat

def bteSdpDeReaderReadInt8 (r : DeReader) : BitVec 8 := .ofNat 8 (bteSdpDeReaderReadUint8 r)

def bteSdpDeReaderReadBool (r : DeReader) : Bool := bteSdpDeReaderReadUint8 r ≠ 0

def bteSdpDeReaderReadUint16 (r : DeReader) : Nat :=
  match deGetData r with
  | none => 0
  | some (data, size) => if size > 2 then 0 else if size = 2 then beVal (data.take 2) else (data.getD 0 0).toNat

def bteSdpDeReaderReadUuid16 (r : DeReader) : Nat := bteSdpDeReaderReadUint16 r

def bteSdpDeReaderReadInt16 (r : DeReader) : BitVec 16 :=
  match deGetData r with
  | none => 0
  | some (data, size) =>
    if size > 2 then 0
    else if size = 2 then .ofNat 16 (beVal (data.take 2))
    else (BitVec.ofNat 8 (data.getD 0 0).toNat).signExtend 16

def bteSdpDeReaderReadUint32 (r : DeReader) : Nat :=
  match deGetData r with
  | none => 0
  | some (data, size) =>
    if size = 3 ∨ size > 4 then 0
    else if size = 4 then beVal (data.take 4)
    else if size = 2 then beVal (data.take 2)
    else (data.getD 0 0).toNat

def bteSdpDeReaderReadUuid32 (r : DeReader) : Nat := bteSdpDeReaderReadUint32 r

def bteSdpDeReaderReadInt32 (r : DeReader) : BitVec 32 :=
  match deGetData r with
  | none => 0
  | some (data, size) =>
    if size > 4 then 0
    else if size = 4 then .ofNat 32 (beVal (data.take 4))
    else (bteSdpDeReaderReadInt16 r).signExtend 32

def bteSdpDeReaderReadUint64 (r : DeReader) : Nat :=
  match deGetData r with
  | none => 0
  | some (data, size) =>
    if size > 8 then 0 else if size = 8 then beVal (data.take 8) else bteSdpDeReaderReadUint32 r

def bteSdpDeReaderReadInt64 (r : DeReader) : BitVec 64 :=
  match deGetData r with
  | none => 0
  | some (data, size) =>
    if size > 8 then 0
    else if size = 8 then .ofNat 64 (beVal (data.take 8))
    else (bteSdpDeReaderReadInt32 r).signExtend 64

/-- `__SIZEOF_INT128__` is defined, or not. -/
inductive Int128Build
  | native | parts
deriving DecidableEq

/-- A `uint64_t` in memory. -/
def Endian.u64 (host : Endian) (n : Nat) : List UInt8 :=
  match host with
  | .little => leBytes 8 n
  | .big => beBytes 8 n

def uint128From64 (build : Int128Build) (host : Endian) (v : Nat) : List UInt8 :=
  match build, host with
  | .native, host => (host.u128 v).1
  | .parts, .little => Endian.little.u64 v ++ Endian.little.u64 0
  | .parts, .big => Endian.big.u64 0 ++ Endian.big.u64 v

def int128From64 (build : Int128Build) (host : Endian) (v : BitVec 64) : List UInt8 :=
  let high := if v.toInt > 0 then 0 else 2 ^ 64 - 1
  match build, host with
  | .native, host => (host.u128 (v.signExtend 128).toNat).1
  | .parts, .little => Endian.little.u64 v.toNat ++ Endian.little.u64 high
  | .parts, .big => Endian.big.u64 high ++ Endian.big.u64 v.toNat

def readBe128 (host : Endian) (data : List UInt8) : List UInt8 :=
  if host = .little then flip128 (data.take 16) else data.take 16

def bteSdpDeReaderReadUint128 (build : Int128Build) (host : Endian) (r : DeReader) : List UInt8 :=
  match deGetData r with
  | none => uint128From64 build host 0
  | some (data, size) =>
    if size > 16 then uint128From64 build host 0
    else if size = 16 then readBe128 host data
    else uint128From64 build host (bteSdpDeReaderReadUint64 r)

def bteSdpDeReaderReadInt128 (build : Int128Build) (host : Endian) (r : DeReader) : List UInt8 :=
  match deGetData r with
  | none => int128From64 build host 0
  | some (data, size) =>
    if size > 16 then int128From64 build host 0
    else if size = 16 then readBe128 host data
    else int128From64 build host (bteSdpDeReaderReadInt64 r)

def sBaseUuid : List UInt8 := [0, 0, 0, 0, 0, 0, 0x10, 0, 0x80, 0, 0, 0x80, 0x5f, 0x9b, 0x34, 0xfb]

def bteSdpDeReaderReadUuid128 (r : DeReader) : List UInt8 :=
  match deGetData r with
  | none => List.replicate 16 0
  | some (data, size) =>
    if size = 16 then data.take 16
    else if size ≤ 4 ∧ bteSdpDeReaderReadUuid32 r ≠ 0 then blit sBaseUuid 0 (beBytes 4 (bteSdpDeReaderReadUuid32 r))
    else List.replicate 16 0

/-- `bte_sdp_de_reader_read_str`: the pointer and the length. -/
def bteSdpDeReaderReadStr (r : DeReader) : Option (List UInt8 × Nat) :=
  (deGetData r).bind fun data =>
    if bteSdpDeGetType (r.de.drop r.offset) ≠ bteSdpDeTypeString ∧
        bteSdpDeGetType (r.de.drop r.offset) ≠ bteSdpDeTypeUrl then
      none
    else some data

/-- `bte_sdp_de_reader_copy_str`: what `snprintf` returns and stores; a negative precision counts as none. -/
def bteSdpDeReaderCopyStr (r : DeReader) (maxLen : Nat) : Nat × List UInt8 :=
  match bteSdpDeReaderReadStr r with
  | some (str, len) =>
    let text := (if asInt len < 0 then str else str.take len).takeWhile (· ≠ 0)
    (text.length, if maxLen = 0 then [] else text.take (maxLen - 1) ++ [0])
  | none => (0, if maxLen > 0 then [0] else [])

/-! ## Sixteen bytes as a number -/

/-- The number that bytes in memory stand for. -/
def Endian.value (host : Endian) (mem : List UInt8) : Nat :=
  match host with
  | .little => leVal mem
  | .big => beVal mem

/-- As a signed number of 128 bits. -/
def Endian.signed (host : Endian) (mem : List UInt8) : Int := (BitVec.ofNat 128 (host.value mem)).toInt

theorem value_u128 (host : Endian) {n : Nat} (h : n < 2 ^ 128) : host.value (host.u128 n).1 = n := by
  have hn : n % 256 ^ 16 = n := Nat.mod_eq_of_lt h
  cases host with
  | little => exact (leVal_leBytes 16 n).trans hn
  | big => exact (beVal_beBytes 16 n).trans hn

/-- Two parts, the low one where the host has it. -/
theorem parts_u128 {low : Nat} (hlow : low < 2 ^ 64) (high : Nat) :
    Endian.little.u64 low ++ Endian.little.u64 high = (Endian.little.u128 (low + 2 ^ 64 * high)).1 ∧
    Endian.big.u64 high ++ Endian.big.u64 low = (Endian.big.u128 (low + 2 ^ 64 * high)).1 := by
  have hpow : (256 : Nat) ^ 8 = 2 ^ 64 := by decide
  have hle : leBytes 8 low ++ leBytes 8 high = leBytes 16 (low + 2 ^ 64 * high) := by
    rw [show 16 = 8 + 8 from rfl, leBytes_append, hpow, Nat.add_mul_div_left _ _ (by decide), Nat.div_eq_of_lt hlow,
      Nat.zero_add, ← leBytes_mod 8 (low + 2 ^ 64 * high), hpow, Nat.add_mul_mod_self_left, Nat.mod_eq_of_lt hlow]
  refine ⟨hle, ?_⟩
  show beBytes 8 high ++ beBytes 8 low = beBytes 16 (low + 2 ^ 64 * high)
  rw [beBytes, beBytes, beBytes, ← hle, List.reverse_append]

theorem value_uint128From64 (build : Int128Build) (host : Endian) {v : Nat} (h : v < 2 ^ 64) :
    host.value (uint128From64 build host v) = v := by
  have hbytes : uint128From64 build host v = (host.u128 v).1 := by
    obtain ⟨hlittle, hbig⟩ := parts_u128 h 0
    rw [Nat.mul_zero, Nat.add_zero] at hlittle hbig
    cases build with
    | native => cases host <;> rfl
    | parts =>
      cases host with
      | little => exact hlittle
      | big => exact hbig
  rw [hbytes, value_u128 host (Nat.lt_trans h (by decide))]

/-- The native build extends the sign. -/
theorem signed_int128From64_native (host : Endian) (v : BitVec 64) :
    host.signed (int128From64 .native host v) = v.toInt := by
  have hbytes : int128From64 .native host v = (host.u128 (v.signExtend 128).toNat).1 := by cases host <;> rfl
  rw [Endian.signed, hbytes, value_u128 host (v.signExtend 128).isLt, BitVec.ofNat_toNat, BitVec.setWidth_eq,
    BitVec.toInt_signExtend_of_le (by decide)]

/-- The other build takes zero for a negative number. -/
theorem signed_int128From64_parts (host : Endian) (v : BitVec 64) :
    host.signed (int128From64 .parts host v) = if v = 0 then -2 ^ 64 else v.toInt := by
  have hv := v.isLt
  have hint : v.toInt = if 2 * v.toNat < 2 ^ 64 then (v.toNat : Int) else v.toNat - 2 ^ 64 := BitVec.toInt_eq_toNat_cond v
  have hbytes : int128From64 .parts host v =
      (host.u128 (v.toNat + 2 ^ 64 * (if v.toInt > 0 then 0 else 2 ^ 64 - 1))).1 := by
    obtain ⟨hlittle, hbig⟩ := parts_u128 hv (if v.toInt > 0 then 0 else 2 ^ 64 - 1)
    cases host with
    | little => exact hlittle
    | big => exact hbig
  have hvalue : ∀ n, n < 2 ^ 128 → host.signed (host.u128 n).1 = if 2 * n < 2 ^ 128 then (n : Int) else n - 2 ^ 128 := by
    intro n hn
    rw [Endian.signed, value_u128 host hn, BitVec.toInt_eq_toNat_cond, BitVec.toNat_ofNat, Nat.mod_eq_of_lt hn]
    rfl
  rw [hbytes]
  by_cases h0 : v = 0
  · subst h0
    rw [hvalue _ (by decide)]
    decide
  · have hpos : v.toNat ≠ 0 := fun h => h0 (BitVec.eq_of_toNat_eq h)
    rw [if_neg h0]
    by_cases hsign : 2 * v.toNat < 2 ^ 64
    · rw [if_pos hsign] at hint
      rw [if_pos (by omega), hvalue _ (by omega), if_pos (by omega), hint]
      omega
    · rw [if_neg hsign] at hint
      rw [if_neg (by omega), hvalue _ (by omega), if_neg (by omega), hint]
      omega

/-! ## Numbers of every width -/

section Numbers

variable {r : DeReader} {w : IntWidth} {n : Nat} {tail : List UInt8}

/-- The value under the cursor is a number of width `w`. -/
def Numbered (r : DeReader) (w : IntWidth) (n : Nat) (tail : List UInt8) : Prop :=
  n < 256 ^ w.bytes ∧ deGetData r = some (beBytes w.bytes n ++ tail, w.bytes)

theorem beVal_number {k : Nat} (hn : n < 256 ^ k) : beVal ((beBytes k n ++ tail).take k) = n := by
  rw [List.take_left' (length_beBytes k n), beVal_beBytes, Nat.mod_eq_of_lt hn]

theorem getD_number (hn : n < 256 ^ 1) : ((beBytes 1 n ++ tail).getD 0 0).toNat = n := by
  show (UInt8.ofNat n).toNat = n
  rw [UInt8.toNat_ofNat']
  omega

theorem readUint8_number (h : Numbered r w n tail) : bteSdpDeReaderReadUint8 r = if w.bytes ≤ 1 then n else 0 := by
  obtain ⟨hn, hdata⟩ := h
  rw [bteSdpDeReaderReadUint8, hdata]
  cases w with
  | w8 => exact getD_number hn
  | w16 | w32 | w64 | w128 => rfl

theorem readUint16_number (h : Numbered r w n tail) : bteSdpDeReaderReadUint16 r = if w.bytes ≤ 2 then n else 0 := by
  obtain ⟨hn, hdata⟩ := h
  rw [bteSdpDeReaderReadUint16, hdata]
  cases w with
  | w8 => exact getD_number hn
  | w16 => exact beVal_number hn
  | w32 | w64 | w128 => rfl

theorem readUint32_number (h : Numbered r w n tail) : bteSdpDeReaderReadUint32 r = if w.bytes ≤ 4 then n else 0 := by
  obtain ⟨hn, hdata⟩ := h
  rw [bteSdpDeReaderReadUint32, hdata]
  cases w with
  | w8 => exact getD_number hn
  | w16 | w32 => exact beVal_number hn
  | w64 | w128 => rfl

theorem readUint64_number (h : Numbered r w n tail) : bteSdpDeReaderReadUint64 r = if w.bytes ≤ 8 then n else 0 := by
  have hless := readUint32_number h
  obtain ⟨hn, hdata⟩ := h
  rw [bteSdpDeReaderReadUint64, hdata]
  cases w with
  | w8 | w16 | w32 => exact hless
  | w64 => exact beVal_number hn
  | w128 => rfl

theorem value_readBe128 (host : Endian) (hn : n < 256 ^ 16) : host.value (readBe128 host (beBytes 16 n ++ tail)) = n := by
  have hbytes : readBe128 host (beBytes 16 n ++ tail) = (host.u128 n).1 := by
    rw [readBe128, List.take_left' (length_beBytes 16 n)]
    cases host with
    | little =>
      -- turning the bytes of the other byte order gives those of this one
      have hflip := flip128_leBytes (leVal (beBytes 16 n))
      have hback : leBytes 16 (leVal (beBytes 16 n)) = beBytes 16 n := by
        have h := leBytes_leVal (beBytes 16 n)
        rwa [length_beBytes] at h
      rw [hback] at hflip
      rw [if_pos rfl, hflip, beBytes, hback, beBytes, List.reverse_reverse]
      rfl
    | big => rfl
  rw [hbytes, value_u128 host hn]

theorem readUint128_number (build : Int128Build) (host : Endian) (h : Numbered r w n tail) :
    host.value (bteSdpDeReaderReadUint128 build host r) = n := by
  have hless := readUint64_number h
  obtain ⟨hn, hdata⟩ := h
  rw [bteSdpDeReaderReadUint128, hdata]
  have hnarrow : w.bytes ≤ 8 → host.value (uint128From64 build host (bteSdpDeReaderReadUint64 r)) = n := by
    intro hw
    rw [hless, if_pos hw, value_uint128From64 build host]
    have := Nat.pow_le_pow_right (show 0 < 256 by decide) hw
    omega
  cases w with
  | w8 | w16 | w32 | w64 => exact hnarrow (by decide)
  | w128 => exact value_readBe128 host hn

/-- The signed number that `n` stands for in width `w`. -/
def signedAs (w : IntWidth) (n : Nat) : Int := (BitVec.ofNat (8 * w.bytes) n).toInt

theorem readInt8_number (h : Numbered r w n tail) :
    (bteSdpDeReaderReadInt8 r).toInt = if w.bytes ≤ 1 then signedAs w n else 0 := by
  rw [bteSdpDeReaderReadInt8, readUint8_number h]
  cases w <;> rfl

theorem readInt16_number (h : Numbered r w n tail) :
    (bteSdpDeReaderReadInt16 r).toInt = if w.bytes ≤ 2 then signedAs w n else 0 := by
  obtain ⟨hn, hdata⟩ := h
  rw [bteSdpDeReaderReadInt16, hdata]
  cases w with
  | w8 =>
    show ((BitVec.ofNat 8 ((beBytes 1 n ++ tail).getD 0 0).toNat).signExtend 16).toInt = (BitVec.ofNat 8 n).toInt
    rw [getD_number hn, BitVec.toInt_signExtend_of_le (by decide)]
  | w16 =>
    show (BitVec.ofNat 16 (beVal ((beBytes 2 n ++ tail).take 2))).toInt = (BitVec.ofNat 16 n).toInt
    rw [beVal_number (k := 2) hn]
  | w32 | w64 | w128 => rfl

theorem readInt32_number (h : Numbered r w n tail) :
    (bteSdpDeReaderReadInt32 r).toInt = if w.bytes ≤ 4 then signedAs w n else 0 := by
  have hless := readInt16_number h
  obtain ⟨hn, hdata⟩ := h
  rw [bteSdpDeReaderReadInt32, hdata]
  cases w with
  | w8 | w16 =>
    show ((bteSdpDeReaderReadInt16 r).signExtend 32).toInt = _
    rw [BitVec.toInt_signExtend_of_le (by decide), hless]
    rfl
  | w32 =>
    show (BitVec.ofNat 32 (beVal ((beBytes 4 n ++ tail).take 4))).toInt = (BitVec.ofNat 32 n).toInt
    rw [beVal_number (k := 4) hn]
  | w64 | w128 => rfl

theorem readInt64_number (h : Numbered r w n tail) :
    (bteSdpDeReaderReadInt64 r).toInt = if w.bytes ≤ 8 then signedAs w n else 0 := by
  have hless := readInt32_number h
  obtain ⟨hn, hdata⟩ := h
  rw [bteSdpDeReaderReadInt64, hdata]
  cases w with
  | w8 | w16 | w32 =>
    show ((bteSdpDeReaderReadInt32 r).signExtend 64).toInt = _
    rw [BitVec.toInt_signExtend_of_le (by decide), hless]
    rfl
  | w64 =>
    show (BitVec.ofNat 64 (beVal ((beBytes 8 n ++ tail).take 8))).toInt = (BitVec.ofNat 64 n).toInt
    rw [beVal_number (k := 8) hn]
  | w128 => rfl

/-- **The signed function of 128 bits**: a narrower zero comes out wrong where there is no `__int128`. -/
theorem readInt128_number (build : Int128Build) (host : Endian) (h : Numbered r w n tail) :
    host.signed (bteSdpDeReaderReadInt128 build host r) =
      if build = .parts ∧ w ≠ .w128 ∧ n = 0 then -2 ^ 64 else signedAs w n := by
  have hless := readInt64_number h
  obtain ⟨hn, hdata⟩ := h
  rw [bteSdpDeReaderReadInt128, hdata]
  have hnarrow : w.bytes ≤ 8 → host.signed (int128From64 build host (bteSdpDeReaderReadInt64 r)) =
      if build = .parts ∧ w ≠ .w128 ∧ n = 0 then -2 ^ 64 else signedAs w n := by
    intro hw
    rw [if_pos hw] at hless
    have hne : w ≠ .w128 := by
      rintro rfl
      exact absurd hw (by decide)
    have hzero : bteSdpDeReaderReadInt64 r = 0 ↔ n = 0 := by
      rw [← BitVec.toInt_inj, hless, signedAs, show (0 : BitVec 64).toInt = 0 from rfl,
        show (0 : Int) = (0 : BitVec (8 * w.bytes)).toInt from (BitVec.toInt_zero).symm, BitVec.toInt_inj,
            ← BitVec.toNat_inj,
        BitVec.toNat_ofNat, Nat.pow_mul, Nat.mod_eq_of_lt hn]
      rfl
    cases build with
    | native => rw [signed_int128From64_native, hless, if_neg (by simp)]
    | parts => rw [signed_int128From64_parts, hless]; simp only [hzero, hne, ne_eq, not_false_eq_true, true_and]
  cases w with
  | w8 | w16 | w32 | w64 => exact hnarrow (by decide)
  | w128 =>
    show host.signed (readBe128 host (beBytes 16 n ++ tail)) = _
    rw [if_neg (by simp), Endian.signed, value_readBe128 host hn]
    rfl

end Numbers

/-! ## Reads of a number -/

/-- What the function that reads an unsigned number of width `W` gives. -/
def readUintAs (build : Int128Build) (host : Endian) (r : DeReader) : IntWidth → Nat
  | .w8 => bteSdpDeReaderReadUint8 r
  | .w16 => bteSdpDeReaderReadUint16 r
  | .w32 => bteSdpDeReaderReadUint32 r
  | .w64 => bteSdpDeReaderReadUint64 r
  | .w128 => host.value (bteSdpDeReaderReadUint128 build host r)

/-- What the function that reads a signed number of width `W` gives. -/
def readIntAs (build : Int128Build) (host : Endian) (r : DeReader) : IntWidth → Int
  | .w8 => (bteSdpDeReaderReadInt8 r).toInt
  | .w16 => (bteSdpDeReaderReadInt16 r).toInt
  | .w32 => (bteSdpDeReaderReadInt32 r).toInt
  | .w64 => (bteSdpDeReaderReadInt64 r).toInt
  | .w128 => host.signed (bteSdpDeReaderReadInt128 build host r)

/-- A number of either signedness. -/
def numberDe (signed : Bool) (w : IntWidth) (v : BitVec (8 * w.bytes)) : De :=
  .scalar (if signed then .int w v else .uint w v)

/-- Each read function of the signedness gives the number extended to its width, or 0 if the number is wider. -/
def ReadsExtended (build : Int128Build) (host : Endian) (r : DeReader) (signed : Bool) (w : IntWidth)
    (v : BitVec (8 * w.bytes)) : Prop :=
  ∀ W : IntWidth,
    (if signed then readIntAs build host r W else (readUintAs build host r W : Int)) =
      if w.bytes ≤ W.bytes then (if signed then v.toInt else v.toNat) else 0

/-- A reader on a number finds it. -/
theorem numbered_of_current {r : DeReader} {signed : Bool} {w : IntWidth} {v : BitVec (8 * w.bytes)} {tail : List UInt8}
    (h : deGetCurrent r = some ((numberDe signed w v).encode ++ tail)) : Numbered r w v.toNat tail := by
  have hpow : (256 : Nat) ^ w.bytes = 2 ^ (8 * w.bytes) := by rw [Nat.pow_mul]
  refine ⟨hpow ▸ v.isLt, ?_⟩
  obtain ⟨s, hs, hdata⟩ : ∃ s : Scalar, numberDe signed w v = .scalar s ∧ s.data = beBytes w.bytes v.toNat := by
    cases signed
    · exact ⟨_, rfl, rfl⟩
    · exact ⟨_, rfl, rfl⟩
  rw [hs, De.encode, List.cons_append] at h
  obtain ⟨-, hheader, hsize⟩ := scalar_accessors s (s.data ++ tail)
  have hpos : 0 < w.bytes := by cases w <;> decide
  rw [deGetData, h, Option.bind_some, hheader, hsize, hdata, length_beBytes, if_pos hpos]
  rfl

/-- **Integer reads agree on all builds** exactly if the number is unsigned, has 128 bits or is not zero. -/
theorem integerReads_iff (host : Endian) (r : DeReader) (signed : Bool) (w : IntWidth) (v : BitVec (8 * w.bytes))
    (tail : List UInt8) (h : deGetCurrent r = some ((numberDe signed w v).encode ++ tail)) :
    (∀ build, ReadsExtended build host r signed w v) ↔ (signed = true → w ≠ .w128 → v ≠ 0) := by
  have hnum := numbered_of_current h
  have hlt := hnum.1
  have hsigned : signedAs w v.toNat = v.toInt := by
    rw [signedAs, BitVec.ofNat_toNat, BitVec.setWidth_eq]
  have hzero : v.toNat = 0 ↔ v = 0 := by
    rw [← BitVec.toNat_inj]
    rfl
  have hwide : w.bytes ≤ IntWidth.w128.bytes := by cases w <;> decide
  cases signed with
  | false =>
    refine ⟨fun _ h => absurd h Bool.false_ne_true, fun _ build W => ?_⟩
    simp only [Bool.false_eq_true, if_false]
    cases W with
    | w8 => rw [readUintAs, readUint8_number hnum]; exact apply_ite _ _ _ _
    | w16 => rw [readUintAs, readUint16_number hnum]; exact apply_ite _ _ _ _
    | w32 => rw [readUintAs, readUint32_number hnum]; exact apply_ite _ _ _ _
    | w64 => rw [readUintAs, readUint64_number hnum]; exact apply_ite _ _ _ _
    | w128 => rw [readUintAs, readUint128_number build host hnum, if_pos hwide]
  | true =>
    constructor
    · intro hall _ hw hv
      have h128 := hall .parts .w128
      simp only [if_true] at h128
      rw [readIntAs, readInt128_number .parts host hnum, if_pos ⟨rfl, hw, hzero.2 hv⟩, if_pos hwide,
        ← hsigned, hzero.2 hv, signedAs, BitVec.toInt_zero] at h128
      exact absurd h128 (by decide)
    · intro hv build W
      simp only [if_true]
      cases W with
      | w8 => rw [readIntAs, readInt8_number hnum, hsigned]; rfl
      | w16 => rw [readIntAs, readInt16_number hnum, hsigned]; rfl
      | w32 => rw [readIntAs, readInt32_number hnum, hsigned]; rfl
      | w64 => rw [readIntAs, readInt64_number hnum, hsigned]; rfl
      | w128 =>
        rw [readIntAs, readInt128_number build host hnum, if_neg, if_pos hwide, hsigned]
        rintro ⟨-, hw, h0⟩
        exact hv rfl hw (hzero.1 h0)

/-- The negative number of the test, on a little-endian host: read with any function, in either build. -/
theorem integerReads_iff_minus15 :
    ReadsExtended .native .little (bteSdpDeReaderInit [0x10, 0xf1]) true .w8 0xf1#8 ∧
    ReadsExtended .parts .little (bteSdpDeReaderInit [0x10, 0xf1]) true .w8 0xf1#8 := by
  have hall := (integerReads_iff .little (bteSdpDeReaderInit [0x10, 0xf1]) true .w8 0xf1#8 [] (by decide)).2
    fun _ _ => show (0xf1#8 : BitVec 8) ≠ 0 by decide
  exact ⟨hall .native, hall .parts⟩

/-- A zero of 8 bits read with `bte_sdp_de_reader_read_int128`, in the two builds. -/
theorem readInt128_zero (host : Endian) :
    readIntAs .native host (bteSdpDeReaderInit [0x10, 0]) .w128 = 0 ∧
    readIntAs .parts host (bteSdpDeReaderInit [0x10, 0]) .w128 = -2 ^ 64 := by
  have hnum : Numbered (bteSdpDeReaderInit [0x10, 0]) .w8 0 [] := ⟨by decide, by decide⟩
  exact ⟨readInt128_number .native host hnum, readInt128_number .parts host hnum⟩

/-- The build with two parts does not extend the zero, on a host of either byte order. -/
theorem integerReads_not_zero :
    ¬ ReadsExtended .parts .little (bteSdpDeReaderInit [0x10, 0]) true .w8 0#8 ∧
    ¬ ReadsExtended .parts .big (bteSdpDeReaderInit [0x10, 0]) true .w8 0#8 := by
  have hzero : ∀ host, ¬ ReadsExtended .parts host (bteSdpDeReaderInit [0x10, 0]) true .w8 0#8 := by
    intro host h
    have h128 := h .w128
    simp only [if_true, (readInt128_zero host).2] at h128
    exact absurd h128 (by decide)
  exact ⟨hzero .little, hzero .big⟩

end Bte
