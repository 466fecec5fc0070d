import BtEmbedded.SdpValue
/-!
# SdpArray — arrays of elements (services/sdp.c)

A sequence may be given as an array: `de_array_size` reserves its room, `de_array_write` fills it, and neither looks at
what the scalar cases of `de_write` do.  `DeArray.listed` is the sequence with the same elements one by one.  The two are
written alike, and within the room, for the types whose elements are numbers in the host's byte order (`encodesAlike_iff`).
-/
namespace Bte

open Bytes

/-! ## Arrays -/

/-- `BTE_SDP_DE_ARRAY`: 24 bits are left for the count. -/
def bteSdpDeArray (n : Nat) : Nat := n ||| bteSdpDeSpecialArray

/-- How many bytes of the array `de_array_write` takes for an element. -/
def arrayStride (type : Nat) : Nat := 1 <<< (type &&& bteSdpDeSizeMask)

/-- An array of elements of fixed size, as it lies in memory. -/
structure ValueArray where
  type : Nat
  count : Nat
  mem : List UInt8
  accepted : ∃ size, (type, size) ∈ scalarSizes
  small : count < 2 ^ 24
  whole : count * arrayStride type ≤ mem.length

inductive DeArray
  | values (a : ValueArray)
  | strings (k : TextKind) (ss : { ss : List { bs : List UInt8 // 0 ∉ bs } // ss.length < 2 ^ 24 })

/-- The bytes of an element. -/
def ValueArray.src (a : ValueArray) (i : Nat) : List UInt8 := slice a.mem (i * arrayStride a.type) (arrayStride a.type)

/-- The element that some bytes in memory are; a UUID of 128 bits is an array of bytes, the others are numbers. -/
def elementOf (host : Endian) (type : Nat) (src : List UInt8) : Scalar :=
  (scalarOf type (if type = bteSdpDeTypeUuid128 then src else beBytes src.length (host.value src))).getD .nil

namespace DeArray

def type : DeArray → Nat
  | .values a => a.type
  | .strings k _ => k.type

def count : DeArray → Nat
  | .values a => a.count
  | .strings _ ss => ss.1.length

def elements : DeArray → Arg
  | .values a => .values a.mem
  | .strings _ ss => .strings ss.1

/-- The call that gives a sequence as an array. -/
def args (k : GroupKind) (a : DeArray) : List Arg :=
  [intArg k.type, intArg (bteSdpDeArray a.count), intArg a.type, a.elements, intArg bteSdpDeEnd]

/-- The sequence that lists the elements. -/
def listed (host : Endian) (k : GroupKind) : DeArray → De
  | .values a => .group k ((List.range a.count).map fun i => .scalar (elementOf host a.type (a.src i)))
  | .strings t ss => .group k (ss.1.map (.text t))

def reserved (a : DeArray) : Nat := deArraySize a.count a.type [a.elements]

def stored (host : Endian) (a : DeArray) : List UInt8 := deArrayWrite host a.count a.type [a.elements]

end DeArray

/-- The array is written like the listed elements, and nothing outside the room reserved for it. -/
structure EncodesAlike (host : Endian) (k : GroupKind) (a : DeArray) : Prop where
  size : (bteSdpDeWrite host none (a.args k)).size = (bteSdpDeWrite host none ((a.listed host k).args host)).size
  bytes : ∀ buffer,
    (bteSdpDeWrite host (some buffer) (a.args k)).mem.take (bteSdpDeWrite host none (a.args k)).size =
      (bteSdpDeWrite host (some buffer) ((a.listed host k).args host)).mem.take (bteSdpDeWrite host none (a.args k)).size
  inside : (a.stored host).length ≤ a.reserved

/-- Each element of the array is stored as the bytes of a number, the byte order aside. -/
def DeArray.Plain (host : Endian) : DeArray → Prop
  | .values a =>
    a.count = 0 ∨ a.type ≠ bteSdpDeTypeNil ∧ (a.type = bteSdpDeTypeBool → ∀ i < a.count, a.mem.getD i 0 ≤ 1) ∧
      (a.type = bteSdpDeTypeUuid128 → host = .little → ∀ i < a.count, (a.src i).reverse = a.src i)
  | .strings _ ss => ss.1 = []

/-! ## The array in the loop -/

theorem array_type {n : Nat} (h : n < 2 ^ 24) :
    bteSdpDeArray n < 2 ^ 32 ∧ 2 ^ 31 ≤ bteSdpDeArray n ∧ bteSdpDeArray n ≠ bteSdpDeEnd ∧
    bteSdpDeArray n &&& bteSdpDeSpecialMask = bteSdpDeSpecialArray ∧ bteSdpDeArray n &&& 0x00ffffff = n := by
  have hor : bteSdpDeArray n = 2 ^ 24 * 0xaa + n := by
    rw [bteSdpDeArray, Nat.or_comm, show bteSdpDeSpecialArray = 2 ^ 24 * 0xaa from rfl, ← Nat.two_pow_add_eq_or_of_lt h]
  have hlow : (2 ^ 24 * 0xaa + n) &&& 0x00ffffff = n := by
    rw [show (0x00ffffff : Nat) = 2 ^ 24 - 1 from rfl, Nat.and_two_pow_sub_one_eq_mod]
    omega
  refine ⟨by omega, by omega, by unfold bteSdpDeEnd; omega, ?_, by rw [hor, hlow]⟩
  rw [bteSdpDeArray, Nat.and_or_distrib_right]
  have hn : n &&& bteSdpDeSpecialMask = 0 := by
    apply Nat.eq_of_testBit_eq
    intro i
    rw [Nat.testBit_and, Nat.zero_testBit]
    by_cases hi : i < 24
    · have : bteSdpDeSpecialMask.testBit i = false := by
        rw [show bteSdpDeSpecialMask = 2 ^ 24 * 0xff from rfl, Nat.testBit_two_pow_mul]
        simp [hi]
      rw [this, Bool.and_false]
    · rw [Nat.testBit_lt_two_pow (Nat.lt_of_lt_of_le h (Nat.pow_le_pow_right (by decide) (by omega))), Bool.false_and]
  rw [hn, Nat.zero_or]
  decide

theorem deItem_array (host : Endian) {n type : Nat} (hn : n < 2 ^ 24) (ht : type < 2 ^ 32) (elements : Arg)
    (rest : List Arg) :
    deItem host (bteSdpDeArray n) (intArg type :: elements :: rest) =
      (deArraySize n type (elements :: rest), deArrayWrite host n type (elements :: rest), rest) := by
  obtain ⟨-, hbig, -, hspecial, hcount⟩ := array_type hn
  unfold deItem
  split
  case h_18 =>
    rw [if_pos hspecial, vaInt_intArg ht, hcount]
    rfl
  all_goals
    rename_i heq
    rw [heq] at hbig
    exact absurd hbig (by decide)

theorem DeArray.count_lt (a : DeArray) : a.count < 2 ^ 24 := by
  cases a with
  | values a => exact a.small
  | strings k ss => exact ss.2

theorem DeArray.type_lt (a : DeArray) : a.type < 2 ^ 32 := by
  cases a with
  | values a =>
    obtain ⟨size, hmem⟩ := a.accepted
    exact Nat.lt_trans (scalarSizes_accessors _ hmem).1 (by decide)
  | strings k ss =>
    show k.type < 2 ^ 32
    cases k <;> decide

/-- Only the elements are looked at. -/
theorem DeArray.sized (host : Endian) (a : DeArray) (rest : List Arg) :
    deArraySize a.count a.type (a.elements :: rest) = a.reserved ∧
    deArrayWrite host a.count a.type (a.elements :: rest) = a.stored host := by
  cases a <;> exact ⟨rfl, rfl⟩

/-- The array and the end of its sequence. -/
theorem loop_array (host : Endian) (a : DeArray) (hres : a.reserved < 2 ^ 32) (fuel : Nat) (mem : List UInt8)
    (dest : Option Nat) (remaining : Int) (rest : List Arg) :
    deLoop host (fuel + 2) 1 mem dest remaining 0
        (intArg (bteSdpDeArray a.count) :: intArg a.type :: a.elements :: intArg bteSdpDeEnd :: rest) =
      ⟨a.reserved, if remaining > a.reserved then deStore mem dest (a.stored host) else mem, rest⟩ := by
  obtain ⟨hlt, hbig, hend, -, -⟩ := array_type a.count_lt
  have hgroup : ¬ (bteSdpDeArray a.count = bteSdpDeTypeSequence ∨ bteSdpDeArray a.count = bteSdpDeTypeChoice) := by
    unfold bteSdpDeTypeSequence bteSdpDeTypeChoice
    omega
  obtain ⟨hsize, hstored⟩ := a.sized host (intArg bteSdpDeEnd :: rest)
  rw [deLoop, vaInt_intArg hlt]
  simp only [if_neg hend, if_neg hgroup, deItem_array host a.count_lt a.type_lt, hsize, hstored, Nat.one_ne_zero, if_false]
  rw [deLoop, vaInt_intArg (by decide)]
  simp only [if_true, Nat.zero_add, Nat.mod_eq_of_lt hres]

/-- **What a call with an array does**: the size is that of the header and the reserved bytes.  Arguments behind its end
mark are not looked at. -/
theorem deWrite_array (host : Endian) (k : GroupKind) (a : DeArray) (hres : a.reserved < 2 ^ 31) (rest : List Arg) :
    (bteSdpDeWrite host none (a.args k ++ rest)).size = (varHeader k.type a.reserved).length + a.reserved ∧
    ∀ buffer : List UInt8, (bteSdpDeWrite host (some buffer) (a.args k ++ rest)).mem =
      if buffer.length > (varHeader k.type a.reserved).length + a.reserved then
        blit (blit buffer 0 (varHeader k.type a.reserved)) (varHeader k.type a.reserved).length (a.stored host)
      else buffer := by
  have htype := k.type_spec
  have hheader := varHeader_le k.type a.reserved
  have hrun : ∀ (mem : List UInt8) (dest : Option Nat) (remaining : Int),
      deLoop host ((a.args k ++ rest).length + 1) 0 mem dest remaining 0 (a.args k ++ rest) =
        ⟨(varHeader k.type a.reserved).length + a.reserved,
          if remaining > ((varHeader k.type a.reserved).length + a.reserved : Nat) then
            deStore (deStore mem dest (varHeader k.type a.reserved)) (dest.map (· + (varHeader k.type a.reserved).length))
              (a.stored host)
          else mem, rest⟩ := by
    intro mem dest remaining
    have hfuel : (a.args k ++ rest).length + 1 = rest.length + 3 + 2 + 1 := by
      rw [List.length_append, DeArray.args, Nat.add_comm _ rest.length]
      rfl
    have hargs : a.args k ++ rest = intArg k.type ::
      (intArg (bteSdpDeArray a.count) :: intArg a.type :: a.elements :: intArg bteSdpDeEnd :: rest) := rfl
    rw [hfuel, hargs, deLoop, vaInt_intArg htype.1]
    simp only [if_neg htype.2.1, if_pos htype.2.2, loop_array host a (Nat.lt_trans hres (by decide)), if_true, Nat.zero_add]
    rw [Nat.mod_eq_of_lt (by omega)]
    by_cases hr : remaining > ((varHeader k.type a.reserved).length + a.reserved : Nat)
    · rw [if_pos hr, if_pos hr, if_pos (by omega)]
    · rw [if_neg hr, if_neg hr]
  constructor
  · exact congrArg DeWritten.size (hrun [] none 0)
  · intro buffer
    have h := congrArg DeWritten.mem (hrun buffer (some 0) buffer.length)
    simp only [deStore, Option.map_some, Nat.zero_add] at h
    rw [bteSdpDeWrite]
    refine h.trans ?_
    by_cases hr : buffer.length > (varHeader k.type a.reserved).length + a.reserved
    · rw [if_pos hr, if_pos (by omega)]
    · rw [if_neg hr, if_neg (by omega)]

/-! ## Element by element -/

/-- Rows of blocks of one length are the same block by block. -/
theorem flatMap_range_inj {n l : Nat} {f g : Nat → List UInt8} (hf : ∀ i < n, (f i).length = l)
    (hg : ∀ i < n, (g i).length = l) : (List.range n).flatMap f = (List.range n).flatMap g ↔ ∀ i < n, f i = g i := by
  induction n with
  | zero => simp
  | succ n ih =>
    have hfg := ih (fun i hi => hf i (by omega)) (fun i hi => hg i (by omega))
    rw [List.range_succ, List.flatMap_append, List.flatMap_append, List.flatMap_singleton, List.flatMap_singleton]
    constructor
    · intro h i hi
      obtain ⟨hinit, hlast⟩ := List.append_inj' h (by rw [hf n (by omega), hg n (by omega)])
      by_cases hin : i = n
      · rw [hin]
        exact hlast
      · exact hfg.1 hinit i (by omega)
    · intro h
      rw [hfg.2 fun i hi => h i (by omega), h n (by omega)]

theorem encodeAll_map_range (f : Nat → De) (n : Nat) :
    encodeAll ((List.range n).map f) = (List.range n).flatMap fun i => (f i).encode := by
  generalize List.range n = l
  induction l with
  | nil => rfl
  | cons i l ih => rw [List.map_cons, encodeAll, List.flatMap_cons, ih]

/-- The bytes in the order in which they are written. -/
def Endian.turned (host : Endian) (src : List UInt8) : List UInt8 := if host = .little then src.reverse else src

theorem Endian.length_turned (host : Endian) (src : List UInt8) : (host.turned src).length = src.length := by
  cases host <;> simp [Endian.turned]

theorem beBytes_value (host : Endian) (src : List UInt8) : beBytes src.length (host.value src) = host.turned src := by
  cases host with
  | little => exact congrArg List.reverse (leBytes_leVal src)
  | big =>
    have h := leBytes_leVal src.reverse
    rw [List.length_reverse] at h
    show (leBytes src.length (leVal src.reverse)).reverse = src
    rw [h, List.reverse_reverse]

theorem number_data {w : Nat} {src : List UInt8} (host : Endian) (h : src.length = w) :
    beBytes w (BitVec.ofNat (8 * w) (beVal (beBytes src.length (host.value src)))).toNat = host.turned src := by
  have hpow : (256 : Nat) ^ w = 2 ^ (8 * w) := by rw [Nat.pow_mul]
  rw [← beBytes_value, h, BitVec.toNat_ofNat, ← hpow, beVal_beBytes]
  exact beBytes_of_mod (by rw [Nat.mod_mod, Nat.mod_mod])

/-- A byte as a truth value. -/
def boolData (src : List UInt8) : List UInt8 := [if src.getD 0 0 ≠ 0 then 1 else 0]

/-- **The element that a few bytes are**: its type and what it is encoded as. -/
theorem elementOf_spec (host : Endian) {type size : Nat} (hmem : (type, size) ∈ scalarSizes) {src : List UInt8}
    (hsrc : src.length = arrayStride type) :
    (elementOf host type src).type = type ∧
    (elementOf host type src).data =
      if type = bteSdpDeTypeNil then []
      else if type = bteSdpDeTypeBool then boolData src
      else if type = bteSdpDeTypeUuid128 then src
      else host.turned src := by
  simp only [scalarSizes, List.mem_cons, Prod.mk.injEq, List.not_mem_nil, or_false] at hmem
  rcases hmem with ⟨rfl, rfl⟩ | ⟨rfl, rfl⟩ | ⟨rfl, rfl⟩ | ⟨rfl, rfl⟩ | ⟨rfl, rfl⟩ | ⟨rfl, rfl⟩ | ⟨rfl, rfl⟩ | ⟨rfl, rfl⟩ |
    ⟨rfl, rfl⟩ | ⟨rfl, rfl⟩ | ⟨rfl, rfl⟩ | ⟨rfl, rfl⟩ | ⟨rfl, rfl⟩ | ⟨rfl, rfl⟩ | ⟨rfl, rfl⟩
  case inl => exact ⟨rfl, rfl⟩
  case inr.inr.inr.inr.inr.inr.inr.inr.inr.inr.inr.inr.inr.inl =>
    have hsome : elementOf host 0x1c src = .uuid128 ⟨src, hsrc⟩ := by
      show ((if h : src.length = 16 then some (Scalar.uuid128 ⟨src, h⟩) else none).getD .nil) = _
      rw [dif_pos (show src.length = 16 from hsrc)]
      rfl
    rw [hsome]
    exact ⟨rfl, rfl⟩
  case inr.inr.inr.inr.inr.inr.inr.inr.inr.inr.inr.inr.inr.inr =>
    obtain ⟨b, rfl⟩ := List.length_eq_one_iff.1 (show src.length = 1 from hsrc)
    refine ⟨rfl, ?_⟩
    have hval : beVal (beBytes 1 (host.value [b])) = b.toNat := by
      have hb : host.value [b] = b.toNat := by cases host <;> simp [Endian.value, beVal, leVal]
      have hlt := b.toNat_lt
      rw [hb, beVal_beBytes]
      omega
    have hzero : b.toNat = 0 ↔ b = 0 := by
      rw [← UInt8.toNat_inj]
      rfl
    show [if decide (beVal (beBytes 1 (host.value [b])) ≠ 0) = true then (1 : UInt8) else 0] = [if b ≠ 0 then 1 else 0]
    simp only [hval, ne_eq, hzero, decide_eq_true_eq]
  all_goals exact ⟨rfl, number_data host hsrc⟩

theorem turned_eq_self_iff (host : Endian) (src : List UInt8) :
    host.turned src = src ↔ (host = .little → src.reverse = src) := by
  cases host with
  | little => exact ⟨fun h _ => h, fun h => h rfl⟩
  | big => exact ⟨fun _ h => Endian.noConfusion h, fun _ => rfl⟩

theorem turned_bool_iff (host : Endian) {src : List UInt8} (h : src.length = 1) :
    host.turned src = boolData src ↔ src.getD 0 0 ≤ 1 := by
  obtain ⟨b, rfl⟩ := List.length_eq_one_iff.1 h
  have hturned : host.turned [b] = [b] := by cases host <;> rfl
  have hbyte : ∀ b : UInt8, [b] = [if b ≠ 0 then (1 : UInt8) else 0] ↔ b ≤ 1 := by
    intro b
    by_cases h0 : b = 0
    · simp [h0]
    · have hpos : b ≤ 1 ↔ b = 1 := by
        rw [UInt8.le_iff_toNat_le, ← UInt8.toNat_inj]
        have hne : b.toNat ≠ 0 := fun h => h0 (UInt8.toNat_inj.1 h)
        have h1 : (1 : UInt8).toNat = 1 := rfl
        omega
      simp [h0, hpos]
  rw [hturned]
  exact hbyte b

/-- An element of the array is stored as it is encoded, unless it is a NIL. -/
theorem block_iff (host : Endian) {type size : Nat} (hmem : (type, size) ∈ scalarSizes) (hnil : type ≠ bteSdpDeTypeNil)
    {src : List UInt8} (hsrc : src.length = arrayStride type) :
    UInt8.ofNat type :: host.turned src = (De.scalar (elementOf host type src)).encode ↔
      (type = bteSdpDeTypeBool → src.getD 0 0 ≤ 1) ∧
      (type = bteSdpDeTypeUuid128 → host = .little → src.reverse = src) := by
  obtain ⟨htype, hdata⟩ := elementOf_spec host hmem hsrc
  rw [De.encode, htype, hdata, if_neg hnil, List.cons.injEq, and_iff_right rfl]
  by_cases hbool : type = bteSdpDeTypeBool
  · have huuid : type ≠ bteSdpDeTypeUuid128 := by
      rw [hbool]
      decide
    rw [if_pos hbool, turned_bool_iff host (by rw [hsrc, hbool]; rfl)]
    exact ⟨fun h => ⟨fun _ => h, fun h => absurd h huuid⟩, fun h => h.1 hbool⟩
  · rw [if_neg hbool]
    by_cases huuid : type = bteSdpDeTypeUuid128
    · rw [if_pos huuid, turned_eq_self_iff]
      exact ⟨fun h => ⟨fun h => absurd h hbool, fun _ => h⟩, fun h => h.2 huuid⟩
    · rw [if_neg huuid]
      exact ⟨fun _ => ⟨fun h => absurd h hbool, fun h => absurd h huuid⟩, fun _ => rfl⟩

namespace ValueArray

variable (host : Endian) (a : ValueArray)

theorem length_src {i : Nat} (hi : i < a.count) : (a.src i).length = arrayStride a.type := by
  refine length_slice ?_
  have hmul : (i + 1) * arrayStride a.type ≤ a.count * arrayStride a.type := Nat.mul_le_mul_right _ hi
  rw [Nat.succ_mul] at hmul
  exact Nat.le_trans hmul a.whole

/-- The size of an element's data is the stride, but for a NIL. -/
theorem size_eq {size : Nat} (hmem : (a.type, size) ∈ scalarSizes) :
    size = (if a.type = bteSdpDeTypeNil then 0 else arrayStride a.type) ∧ size ≤ 16 ∧ arrayStride a.type ≤ 16 := by
  have hall : ∀ x ∈ scalarSizes,
      x.2 = (if x.1 = bteSdpDeTypeNil then 0 else arrayStride x.1) ∧ x.2 ≤ 16 ∧ arrayStride x.1 ≤ 16 := by decide
  exact hall _ hmem

theorem reserved_eq {size : Nat} (hmem : (a.type, size) ∈ scalarSizes) :
    (DeArray.values a).reserved = (1 + size) * a.count ∧ (1 + size) * a.count < 2 ^ 31 := by
  have hfixed : ∀ x ∈ scalarSizes, fixedLength x.1 = true := by decide
  obtain ⟨-, hle, -⟩ := a.size_eq hmem
  have hbyte : (UInt8.ofNat a.type).toNat = a.type := by
    rw [UInt8.toNat_ofNat', Nat.mod_eq_of_lt (scalarSizes_accessors _ hmem).1]
  obtain ⟨-, hheader, hdata⟩ := @scalarByte_accessors (UInt8.ofNat a.type) size (by rwa [hbyte]) []
  have htotal : bteSdpDeGetTotalSize [UInt8.ofNat a.type] = 1 + size := by
    rw [bteSdpDeGetTotalSize, hheader, hdata]
    omega
  have hsmall := a.small
  have hmul : (1 + size) * a.count ≤ 17 * a.count := Nat.mul_le_mul_right _ (by omega)
  refine ⟨?_, by omega⟩
  show (if fixedLength a.type then bteSdpDeGetTotalSize [UInt8.ofNat a.type] * a.count % 2 ^ 32 else 0) = _
  rw [if_pos (hfixed _ hmem), htotal]
  omega

theorem stored_eq : (DeArray.values a).stored host =
    (List.range a.count).flatMap fun i => UInt8.ofNat a.type :: host.turned (a.src i) := by
  have hfixed : ∀ x ∈ scalarSizes, fixedLength x.1 = true := by decide
  obtain ⟨size, hmem⟩ := a.accepted
  exact if_pos (hfixed _ hmem)

theorem length_stored : ((DeArray.values a).stored host).length = (1 + arrayStride a.type) * a.count := by
  rw [stored_eq, List.length_flatMap]
  have hblock : ∀ i ∈ List.range a.count, (UInt8.ofNat a.type :: host.turned (a.src i)).length = 1 + arrayStride a.type := by
    intro i hi
    rw [List.length_cons, host.length_turned, a.length_src (List.mem_range.1 hi), Nat.add_comm]
  rw [List.map_congr_left hblock]
  simp [Nat.mul_comm]

theorem length_element {size : Nat} (hmem : (a.type, size) ∈ scalarSizes) {i : Nat} (hi : i < a.count) :
    (De.scalar (elementOf host a.type (a.src i))).encode.length = 1 + size := by
  have hscalar := mem_scalarSizes (elementOf host a.type (a.src i))
  rw [(elementOf_spec host hmem (a.length_src hi)).1] at hscalar
  have hunique : ∀ x ∈ scalarSizes, ∀ y ∈ scalarSizes, x.1 = y.1 → x.2 = y.2 := by decide
  have hlen : (elementOf host a.type (a.src i)).data.length = size := hunique _ hscalar _ hmem rfl
  rw [De.encode, List.length_cons, hlen, Nat.add_comm]

/-- The elements one by one take the reserved room. -/
theorem length_listed {size : Nat} (hmem : (a.type, size) ∈ scalarSizes) :
    (encodeAll ((List.range a.count).map fun i => De.scalar (elementOf host a.type (a.src i)))).length =
      (1 + size) * a.count := by
  rw [encodeAll_map_range, List.length_flatMap,
    List.map_congr_left fun i hi => a.length_element host hmem (List.mem_range.1 hi)]
  simp [Nat.mul_comm]

/-- **When the elements are stored as they are encoded.** -/
theorem stored_eq_listed_iff {size : Nat} (hmem : (a.type, size) ∈ scalarSizes) (hnil : a.type ≠ bteSdpDeTypeNil) :
    (DeArray.values a).stored host =
        encodeAll ((List.range a.count).map fun i => De.scalar (elementOf host a.type (a.src i))) ↔
      (a.type = bteSdpDeTypeBool → ∀ i < a.count, a.mem.getD i 0 ≤ 1) ∧
      (a.type = bteSdpDeTypeUuid128 → host = .little → ∀ i < a.count, (a.src i).reverse = a.src i) := by
  obtain ⟨hsize, -, -⟩ := a.size_eq hmem
  rw [if_neg hnil] at hsize
  have hfirst : a.type = bteSdpDeTypeBool → ∀ i, (a.src i).getD 0 0 = a.mem.getD i 0 := by
    intro hbool i
    have hone : arrayStride a.type = 1 := by
      rw [hbool]
      rfl
    rw [src, hone, Nat.mul_one, slice]
    simp [List.getD_eq_getElem?_getD, List.getElem?_drop]
  rw [stored_eq, encodeAll_map_range, flatMap_range_inj (l := 1 + size)]
  · constructor
    · intro h
      refine ⟨fun hbool i hi => ?_, fun huuid hlittle i hi => ?_⟩
      · rw [← hfirst hbool]
        exact ((block_iff host hmem hnil (a.length_src hi)).1 (h i hi)).1 hbool
      · exact ((block_iff host hmem hnil (a.length_src hi)).1 (h i hi)).2 huuid hlittle
    · intro h i hi
      refine (block_iff host hmem hnil (a.length_src hi)).2 ⟨fun hbool => ?_, fun huuid hlittle => h.2 huuid hlittle i hi⟩
      rw [hfirst hbool]
      exact h.1 hbool i hi
  · intro i hi
    rw [List.length_cons, host.length_turned, a.length_src hi, hsize, Nat.add_comm]
  · exact fun i hi => a.length_element host hmem hi

end ValueArray

/-! ## The two calls -/

section Calls

variable {host : Endian} {k : GroupKind} {a : DeArray} {ts : List De}

/-- Both calls measure the same. -/
theorem array_measures (hlisted : a.listed host k = .group k ts) (hres : a.reserved = (encodeAll ts).length)
    (hlt : a.reserved < 2 ^ 31) :
    (a.listed host k).encode = varHeader k.type a.reserved ++ encodeAll ts ∧
    (a.listed host k).encode.length = (varHeader k.type a.reserved).length + a.reserved ∧
    (a.listed host k).encode.length < 2 ^ 32 := by
  have hheader := varHeader_le k.type a.reserved
  have hbytes : (a.listed host k).encode = varHeader k.type a.reserved ++ encodeAll ts := by
    rw [hlisted, De.encode, ← hres]
  have hlen : (a.listed host k).encode.length = (varHeader k.type a.reserved).length + a.reserved := by
    rw [hbytes, List.length_append, ← hres]
  exact ⟨hbytes, hlen, by omega⟩

theorem encodesAlike_of_stored (hlisted : a.listed host k = .group k ts) (hres : a.reserved = (encodeAll ts).length)
    (hlt : a.reserved < 2 ^ 31) (hstored : a.stored host = encodeAll ts) : EncodesAlike host k a := by
  obtain ⟨hbytes, hlen, hsmall⟩ := array_measures hlisted hres hlt
  obtain ⟨hquery, hwrite⟩ := deWrite_array host k a hlt []
  rw [List.append_nil] at hquery
  simp only [List.append_nil] at hwrite
  obtain ⟨hquery', hwrite'⟩ := deWrite_tree host (a.listed host k) hsmall
  refine ⟨by rw [hquery, hquery', hlen], fun buffer => ?_, by rw [hstored, hres]⟩
  rw [hwrite, hwrite', hlen]
  simp only
  by_cases hr : buffer.length > (varHeader k.type a.reserved).length + a.reserved
  · have hblit := @blit_blit _ buffer (varHeader k.type a.reserved) (a.stored host) 0 (by omega)
    rw [Nat.zero_add] at hblit
    rw [if_pos hr, if_pos hr, hblit, hstored, hbytes]
  · rw [if_neg hr, if_neg hr]

/-- Where the stored bytes fit, they are those of the listed elements. -/
theorem EncodesAlike.stored_eq (h : EncodesAlike host k a) (hlisted : a.listed host k = .group k ts)
    (hres : a.reserved = (encodeAll ts).length) (hlt : a.reserved < 2 ^ 31) (hfull : (a.stored host).length = a.reserved) :
    a.stored host = encodeAll ts := by
  obtain ⟨hbytes, hlen, hsmall⟩ := array_measures hlisted hres hlt
  obtain ⟨hquery, hwrite⟩ := deWrite_array host k a hlt []
  rw [List.append_nil] at hquery
  simp only [List.append_nil] at hwrite
  obtain ⟨-, hwrite'⟩ := deWrite_tree host (a.listed host k) hsmall
  have hsame := h.bytes (List.replicate ((varHeader k.type a.reserved).length + a.reserved + 1) 0)
  have hroom : (List.replicate ((varHeader k.type a.reserved).length + a.reserved + 1) (0 : UInt8)).length >
      (varHeader k.type a.reserved).length + a.reserved := by
    rw [List.length_replicate]
    omega
  rw [hwrite, hwrite', hlen, hquery] at hsame
  simp only [if_pos hroom] at hsame
  generalize List.replicate ((varHeader k.type a.reserved).length + a.reserved + 1) (0 : UInt8) = buffer at hsame hroom
  have htake : ∀ bytes : List UInt8, bytes.length = (varHeader k.type a.reserved).length + a.reserved →
      (blit buffer 0 bytes).take ((varHeader k.type a.reserved).length + a.reserved) = bytes := by
    intro bytes hbytes
    have h := @take_add_blit _ buffer bytes 0 (Nat.zero_le _)
    rwa [Nat.zero_add, List.take_zero, List.nil_append, hbytes] at h
  have hblit := @blit_blit _ buffer (varHeader k.type a.reserved) (a.stored host) 0 (by omega)
  rw [Nat.zero_add] at hblit
  rw [hblit, htake _ (by rw [List.length_append, hfull]), htake _ hlen, hbytes] at hsame
  exact List.append_cancel_left hsame

end Calls

/-- Strings take their room and the terminator of the last one. -/
theorem length_stored_strings (host : Endian) (t : TextKind)
    (ss : { ss : List { bs : List UInt8 // 0 ∉ bs } // ss.length < 2 ^ 24 }) :
    ((DeArray.strings t ss).stored host).length =
      (DeArray.strings t ss).reserved + if ss.1 = [] then 0 else 1 := by
  have htext : t.type = bteSdpDeTypeString ∨ t.type = bteSdpDeTypeUrl := by
    cases t
    · exact .inl rfl
    · exact .inr rfl
  have hfold : ∀ (l : List { bs : List UInt8 // 0 ∉ bs }) (n : Nat),
      l.foldl (fun size s => size + (1 + (varSize s.1.length).2.length + s.1.length)) n =
        n + (l.flatMap fun s => varHeader t.type s.1.length ++ s.1).length := by
    intro l
    induction l with
    | nil => exact fun n => rfl
    | cons s l ih =>
      intro n
      rw [List.foldl_cons, ih, List.flatMap_cons, List.length_append, List.length_append, varHeader, List.length_cons]
      omega
  have hreserved : (DeArray.strings t ss).reserved = (ss.1.flatMap fun s => varHeader t.type s.1.length ++ s.1).length := by
    have h : (DeArray.strings t ss).reserved = (ss.1.take ss.1.length).foldl
        (fun size s => size + (1 + (varSize s.1.length).2.length + s.1.length)) 0 := if_pos htext
    rw [h, List.take_length, hfold, Nat.zero_add]
  have hstored : (DeArray.strings t ss).stored host =
      ((ss.1.take ss.1.length).flatMap fun s => varHeader t.type s.1.length ++ s.1) ++
        (if ss.1.length = 0 then [] else [0]) := if_pos htext
  rw [hreserved, hstored, List.take_length, List.length_append]
  congr 1
  by_cases h : ss.1 = []
  · rw [if_pos h, if_pos (by rw [h]; rfl)]
    rfl
  · rw [if_neg h, if_neg fun h0 => h (List.length_eq_zero_iff.1 h0)]
    rfl

/-- **An array is encoded like its elements, and within its room**, exactly if it is empty, or of numbers, of 16- and
32-bit UUIDs, of booleans that are 0 or 1, or of 128-bit UUIDs that the host's byte order does not turn around. -/
theorem encodesAlike_iff (host : Endian) (k : GroupKind) (a : DeArray) : EncodesAlike host k a ↔ a.Plain host := by
  cases a with
  | values a =>
    obtain ⟨size, hmem⟩ := a.accepted
    obtain ⟨hsize, -, -⟩ := a.size_eq hmem
    obtain ⟨hreserved, hlt⟩ := a.reserved_eq hmem
    have hlen := a.length_stored host
    have hlisted := a.length_listed host hmem
    rw [← hreserved] at hlt hlisted
    constructor
    · intro h
      by_cases hnil : a.type = bteSdpDeTypeNil
      · have hin := h.inside
        have hstride : arrayStride a.type = 1 := by rw [hnil]; rfl
        rw [if_pos hnil] at hsize
        rw [hlen, hreserved, hsize, hstride] at hin
        exact .inl (by omega)
      · rw [if_neg hnil] at hsize
        have hstored := h.stored_eq rfl hlisted.symm hlt (by rw [hlen, hreserved, hsize])
        exact .inr ⟨hnil, (a.stored_eq_listed_iff host hmem hnil).1 hstored⟩
    · intro h
      refine encodesAlike_of_stored rfl hlisted.symm hlt ?_
      rcases h with h0 | ⟨hnil, hplain⟩
      · rw [a.stored_eq, h0]
        rfl
      · exact (a.stored_eq_listed_iff host hmem hnil).2 hplain
  | strings t ss =>
    have hlen := length_stored_strings host t ss
    constructor
    · intro h
      have hin := h.inside
      rw [hlen] at hin
      by_contra hne
      rw [if_neg (show ¬ ss.1 = [] from hne)] at hin
      omega
    · intro h
      obtain ⟨ss, hss⟩ := ss
      cases (show ss = [] from h)
      have hreserved : (DeArray.strings t ⟨[], hss⟩).reserved = 0 := by cases t <;> rfl
      have hstored : (DeArray.strings t ⟨[], hss⟩).stored host = [] := by cases t <;> rfl
      have hlisted : (DeArray.strings t ⟨[], hss⟩).listed host k = .group k [] := rfl
      exact encodesAlike_of_stored hlisted hreserved (by rw [hreserved]; decide) hstored

/-- One 128-bit UUID. -/
def uuidArray : DeArray :=
  .values ⟨bteSdpDeTypeUuid128, 1, [1, 2, 3, 4, 5, 6, 7, 8, 9, 10, 11, 12, 13, 14, 15, 16], ⟨16, by decide⟩,
      by decide, by decide⟩

/-- A string of one byte. -/
def stringArray : DeArray := .strings .string ⟨[⟨[0x48], by decide⟩], by decide⟩

/-- One NIL. -/
def nilArray : DeArray := .values ⟨bteSdpDeTypeNil, 1, [0], ⟨0, by decide⟩, by decide, by decide⟩

/-- On a little-endian host the UUID comes out backwards; a string and a NIL take a byte more than is reserved for them. -/
theorem not_encodesAlike :
    (¬ EncodesAlike .little .sequence uuidArray ∧
      (bteSdpDeWrite .little (some (List.replicate 20 0xff)) (uuidArray.args .sequence)).mem.take 19 =
        [0x35, 17, 0x1c, 16, 15, 14, 13, 12, 11, 10, 9, 8, 7, 6, 5, 4, 3, 2, 1]) ∧
    (¬ EncodesAlike .little .sequence stringArray ∧ stringArray.reserved = 3 ∧
      stringArray.stored .little = [0x25, 1, 0x48, 0]) ∧
    ¬ EncodesAlike .little .sequence nilArray ∧ nilArray.reserved = 1 ∧ nilArray.stored .little = [0, 0] := by
  refine ⟨⟨fun h => ?_, by decide⟩, ⟨fun h => ?_, by decide, by decide⟩, fun h => ?_, by decide, by decide⟩
  · exact absurd (h.bytes (List.replicate 20 0xff)) (by decide)
  · exact absurd h.inside (by decide)
  · exact absurd h.inside (by decide)

end Bte
