import BtEmbedded.SdpElement
/-!
# SdpReader — walking a data element (services/sdp.c)

The reader is a cursor on the bytes of an element: an offset, where the sequence it is in starts, how deep it is, and one
flag that says whether `bte_sdp_de_reader_next` was called.  `Element` is the tree any well-formed element stands for, with
the width of every length field as the remote device chose it; `Frame` is one group the reader has entered, and a stack of
frames is where it stands.  `next_frame`, `enter_frame` and `leave_frame` say what the three operations do to the stack.

The offsets are `int`s; they are kept as 32-bit patterns.  One from 2 ^ 31 on is negative, and the source reads in front
of the
element there: what is said of a walk has with it that the offsets stay below.
-/
namespace Bte

open Bytes

/-! ## The code -/

structure DeReader where
  de : List UInt8
  offset : Nat
  seqStartOffset : Nat
  depth : Nat
  nextCalled : Bool
deriving DecidableEq

def bteSdpDeReaderInit (de : List UInt8) : DeReader := ⟨de, 0, 0, 0, false⟩

/-- Where the current sequence ends. -/
def DeReader.seqEnd (r : DeReader) : Nat :=
  (r.seqStartOffset + bteSdpDeGetTotalSize (r.de.drop r.seqStartOffset)) % 2 ^ 32

def bteSdpDeReaderNext (r : DeReader) : Bool × DeReader :=
  if r.depth = 0 then (false, r)
  else if r.offset ≥ r.seqEnd then (false, r)
  else if r.nextCalled = false then (true, { r with nextCalled := true })
  else
    let elSize := bteSdpDeGetTotalSize (r.de.drop r.offset)
    let r := { r with offset := (r.offset + elSize) % 2 ^ 32 }
    (r.offset < r.seqEnd, r)

def bteSdpDeReaderEnter (r : DeReader) : Bool × DeReader :=
  let de := r.de.drop r.offset
  let type := bteSdpDeGetType de
  if type ≠ bteSdpDeTypeSequence ∧ type ≠ bteSdpDeTypeChoice then (false, r)
  else
    (true, { r with
      seqStartOffset := r.offset
      offset := (r.offset + bteSdpDeGetHeaderSize de) % 2 ^ 32
      depth := (r.depth + 1) % 256
      nextCalled := false })

/-- A 32-bit pattern as an `int`. -/
def asInt (n : Nat) : Int := (BitVec.ofNat 32 n).toInt

theorem asInt_of_lt {n : Nat} (h : n < 2 ^ 31) : asInt n = n := by
  rw [asInt, BitVec.toInt_eq_toNat_of_lt, BitVec.toNat_ofNat, Nat.mod_eq_of_lt (by omega)]
  rw [BitVec.toNat_ofNat, Nat.mod_eq_of_lt (by omega)]
  omega

/-- Unlike `bte_sdp_de_reader_next`, this compares `int`s. -/
def deGetCurrent (r : DeReader) : Option (List UInt8) :=
  if r.depth > 0 ∧ (r.nextCalled = false ∨ asInt r.offset ≥ asInt r.seqEnd) then none else some (r.de.drop r.offset)

def bteSdpDeReaderGetTotalSize (r : DeReader) : Nat :=
  match deGetCurrent r with
  | none => 0
  | some de => bteSdpDeGetTotalSize de

/-- The loop of `find_seq_start_offset`; `none` when its assertion fails or it goes on for longer than `fuel`. -/
def findSeqStartLoop (depth containedOffset : Nat) : Nat → DeReader → Option Nat
  | 0, _ => none
  | fuel + 1, r =>
    let size := bteSdpDeReaderGetTotalSize r
    if (r.offset + size) % 2 ^ 32 ≥ containedOffset then
      if r.depth = depth then some r.offset
      else
        match bteSdpDeReaderEnter r with
        | (true, r) => findSeqStartLoop depth containedOffset fuel r
        | (false, _) => none
    else findSeqStartLoop depth containedOffset fuel (bteSdpDeReaderNext r).2

/-- Every step of the scan moves over a byte at least. -/
def findSeqStartOffset (de : List UInt8) (depth containedOffset : Nat) : Option Nat :=
  findSeqStartLoop depth containedOffset (de.length + 1) (bteSdpDeReaderInit de)

/-- `none` when the scan does not come back. -/
def bteSdpDeReaderLeave (r : DeReader) : Option (Bool × DeReader) :=
  if r.depth = 0 then some (false, r)
  else
    let r := { r with offset := r.seqStartOffset, depth := r.depth - 1 }
    if r.depth = 0 then some (true, { r with seqStartOffset := 0 })
    else
      (findSeqStartOffset r.de (r.depth - 1) r.offset).map fun start => (true, { r with seqStartOffset := start })

/-! ## Well-formed elements -/

inductive LenWidth
  | w1 | w2 | w4
deriving DecidableEq

def LenWidth.sizeId : LenWidth → Nat
  | .w1 => bteSdpDeSizeVar8
  | .w2 => bteSdpDeSizeVar16
  | .w4 => bteSdpDeSizeVar32

def LenWidth.bytes : LenWidth → Nat
  | .w1 => 1
  | .w2 => 2
  | .w4 => 4

inductive Element
  | leaf (bytes : List UInt8)
  | group (k : GroupKind) (w : LenWidth) (children : List Element)

/-- The type byte and the length field of a group. -/
def groupHeader (k : GroupKind) (w : LenWidth) (len : Nat) : List UInt8 :=
  UInt8.ofNat (k.type ||| w.sizeId) :: beBytes w.bytes len

mutual

def Element.encode : Element → List UInt8
  | .leaf bytes => bytes
  | .group k w ts => groupHeader k w (encodeElements ts).length ++ encodeElements ts

def encodeElements : List Element → List UInt8
  | [] => []
  | t :: ts => t.encode ++ encodeElements ts

end

/-- The bytes of an element that is no group: as many as its header says. -/
def LeafBytes (bs : List UInt8) : Prop :=
  bs ≠ [] ∧ bteSdpDeGetHeaderSize bs + bteSdpDeGetDataSize bs = bs.length ∧
  bteSdpDeGetType bs ≠ bteSdpDeTypeSequence ∧ bteSdpDeGetType bs ≠ bteSdpDeTypeChoice

instance (bs : List UInt8) : Decidable (LeafBytes bs) := inferInstanceAs (Decidable (_ ∧ _))

mutual

def Element.WellFormed : Element → Prop
  | .leaf bytes => LeafBytes bytes
  | .group _ w ts => (encodeElements ts).length < 256 ^ w.bytes ∧ ElementsWellFormed ts

def ElementsWellFormed : List Element → Prop
  | [] => True
  | t :: ts => t.WellFormed ∧ ElementsWellFormed ts

end

mutual

/-- How many groups are entered at most to get to an element of the tree. -/
def Element.nesting : Element → Nat
  | .leaf _ => 0
  | .group _ _ ts => nestingElements ts + 1

def nestingElements : List Element → Nat
  | [] => 0
  | t :: ts => max t.nesting (nestingElements ts)

end

/-! ## The accessors of a well-formed element -/

theorem slice_append {bs tail : List UInt8} {off n : Nat} (h : off + n ≤ bs.length) :
    slice (bs ++ tail) off n = slice bs off n := by
  unfold slice
  rw [List.drop_append_of_le_length (by omega), List.take_append_of_le_length (by simp; omega)]

theorem getD_append {bs tail : List UInt8} {i : Nat} (h : i < bs.length) : (bs ++ tail).getD i 0 = bs.getD i 0 := by
  simp [List.getD_eq_getElem?_getD, List.getElem?_append_left h]

theorem LeafBytes.length_pos {bs : List UInt8} (h : LeafBytes bs) : 0 < bs.length := List.length_pos_iff.2 h.1

/-- What the accessors say of a leaf does not depend on what follows it. -/
theorem leaf_accessors {bs : List UInt8} (h : LeafBytes bs) (tail : List UInt8) :
    bteSdpDeGetType (bs ++ tail) = bteSdpDeGetType bs ∧ bteSdpDeGetHeaderSize (bs ++ tail) = bteSdpDeGetHeaderSize bs ∧
    bteSdpDeGetDataSize (bs ++ tail) = bteSdpDeGetDataSize bs := by
  have hpos := h.length_pos
  have hfirst : deFirst (bs ++ tail) = deFirst bs := by rw [deFirst, getD_append hpos, deFirst]
  have hid : deSizeId (bs ++ tail) = deSizeId bs := by rw [deSizeId, hfirst, deSizeId]
  have hsize := h.2.1
  refine ⟨by simp only [bteSdpDeGetType, hfirst], by simp only [bteSdpDeGetHeaderSize, hid], ?_⟩
  unfold bteSdpDeGetDataSize
  unfold bteSdpDeGetHeaderSize at hsize
  rw [hid, hfirst]
  split
  · rename_i h5
    rw [if_pos h5] at hsize
    rw [getD_append (by omega)]
  · rename_i h5
    rw [if_neg h5] at hsize
    split
    · rename_i h6
      rw [if_pos h6] at hsize
      rw [slice_append (by omega)]
    · rename_i h6
      rw [if_neg h6] at hsize
      split
      · rename_i h7
        rw [if_pos h7] at hsize
        rw [slice_append (by omega)]
      · rfl

theorem group_accessors (k : GroupKind) (w : LenWidth) {len : Nat} (hlen : len < 256 ^ w.bytes) (tail : List UInt8) :
    bteSdpDeGetType (groupHeader k w len ++ tail) = k.type ∧
    bteSdpDeGetHeaderSize (groupHeader k w len ++ tail) = (groupHeader k w len).length ∧
    bteSdpDeGetDataSize (groupHeader k w len ++ tail) = len := by
  have hlen' := Nat.mod_eq_of_lt hlen
  cases w with
  | w1 =>
    obtain ⟨htype, hid⟩ := varType_byte k.varType (.inl rfl) (beBytes 1 len ++ tail)
    refine ⟨htype, ?_, ?_⟩
    · rw [groupHeader, List.cons_append, bteSdpDeGetHeaderSize]
      simp only [LenWidth.sizeId, LenWidth.bytes, bteSdpDeSizeVar8, hid, List.length_cons, length_beBytes, if_true]
    · rw [groupHeader, List.cons_append, bteSdpDeGetDataSize]
      simp only [LenWidth.sizeId, LenWidth.bytes, bteSdpDeSizeVar8, hid, if_true]
      show (UInt8.ofNat len).toNat = len
      rw [UInt8.toNat_ofNat']
      exact hlen'
  | w2 =>
    obtain ⟨htype, hid⟩ := varType_byte k.varType (.inr (.inl rfl)) (beBytes 2 len ++ tail)
    refine ⟨htype, ?_, ?_⟩
    · rw [groupHeader, List.cons_append, bteSdpDeGetHeaderSize]
      simp only [LenWidth.sizeId, LenWidth.bytes, bteSdpDeSizeVar16, hid, List.length_cons, length_beBytes]
      rfl
    · rw [groupHeader, List.cons_append, bteSdpDeGetDataSize]
      simp only [LenWidth.sizeId, LenWidth.bytes, bteSdpDeSizeVar16, hid]
      show beVal (slice _ 1 2) = len
      rw [slice_cons_beBytes, beVal_beBytes]
      exact hlen'
  | w4 =>
    obtain ⟨htype, hid⟩ := varType_byte k.varType (.inr (.inr rfl)) (beBytes 4 len ++ tail)
    refine ⟨htype, ?_, ?_⟩
    · rw [groupHeader, List.cons_append, bteSdpDeGetHeaderSize]
      simp only [LenWidth.sizeId, LenWidth.bytes, bteSdpDeSizeVar32, hid, List.length_cons, length_beBytes]
      rfl
    · rw [groupHeader, List.cons_append, bteSdpDeGetDataSize]
      simp only [LenWidth.sizeId, LenWidth.bytes, bteSdpDeSizeVar32, hid]
      show beVal (slice _ 1 4) = len
      rw [slice_cons_beBytes, beVal_beBytes]
      exact hlen'

theorem groupHeader_length (k : GroupKind) (w : LenWidth) (len : Nat) : (groupHeader k w len).length = w.bytes + 1 := by
  simp [groupHeader]

theorem Element.one_le_encode {t : Element} (h : t.WellFormed) : 1 ≤ t.encode.length := by
  cases t with
  | leaf bs => exact LeafBytes.length_pos h
  | group k w ts =>
    rw [Element.encode, List.length_append, groupHeader_length]
    omega

/-- **The size of a well-formed element**, whatever follows it. -/
theorem Element.totalSize {t : Element} (h : t.WellFormed) (hlen : t.encode.length < 2 ^ 31) (tail : List UInt8) :
    bteSdpDeGetTotalSize (t.encode ++ tail) = t.encode.length := by
  cases t with
  | leaf bs =>
    obtain ⟨_, hh, hd⟩ := leaf_accessors h tail
    rw [Element.encode] at hlen ⊢
    rw [bteSdpDeGetTotalSize, hh, hd, h.2.1]
    omega
  | group k w ts =>
    rw [Element.encode, List.append_assoc]
    obtain ⟨_, hh, hd⟩ := group_accessors k w h.1 (encodeElements ts ++ tail)
    rw [Element.encode] at hlen
    rw [bteSdpDeGetTotalSize, hh, hd, ← List.length_append]
    omega

/-! ## Where the reader stands -/

/-- A group the reader has entered: where it starts, what it is, and the child the cursor is at (or the end). -/
structure Frame where
  start : Nat
  kind : GroupKind
  width : LenWidth
  children : List Element
  index : Nat

namespace Frame

def group (f : Frame) : Element := .group f.kind f.width f.children

def headerSize (f : Frame) : Nat := (groupHeader f.kind f.width (encodeElements f.children).length).length

/-- Where the cursor is. -/
def offset (f : Frame) : Nat := f.start + f.headerSize + (encodeElements (f.children.take f.index)).length

/-- The group lies in the bytes. -/
structure Lies (de : List UInt8) (f : Frame) : Prop where
  wellFormed : f.group.WellFormed
  bytes : ∃ rest, de.drop f.start = f.group.encode ++ rest
  small : f.start + f.group.encode.length < 2 ^ 31
  index_le : f.index ≤ f.children.length

end Frame

/-- The groups entered, the innermost first: the first contains all the others. -/
inductive Stack (de : List UInt8) : List Frame → Prop where
  | root (f : Frame) (h : f.Lies de) (h0 : f.start = 0) : Stack de [f]
  | push (f g : Frame) (fs : List Frame) (h : Stack de (f :: fs)) (hg : f.children[f.index]? = some g.group)
      (hs : g.start = f.offset) (hi : g.index ≤ g.children.length) : Stack de (g :: f :: fs)

/-- The reader with these groups entered. -/
def readerOf (de : List UInt8) (nextCalled : Bool) : List Frame → DeReader
  | [] => ⟨de, 0, 0, 0, nextCalled⟩
  | f :: fs => ⟨de, f.offset, f.start, (f :: fs).length, nextCalled⟩

theorem encodeElements_append : ∀ ts us : List Element, encodeElements (ts ++ us) = encodeElements ts ++ encodeElements us
  | [], _ => rfl
  | t :: ts, us => by rw [List.cons_append, encodeElements, encodeElements, encodeElements_append ts us, List.append_assoc]

theorem elementsWellFormed_getElem? : ∀ {ts : List Element} {i : Nat} {t : Element}, ElementsWellFormed ts →
    ts[i]? = some t → t.WellFormed
  | [], _, _, _, h => by simp at h
  | u :: ts, 0, t, hw, h => by
    simp only [List.getElem?_cons_zero, Option.some.injEq] at h
    rw [← h]
    exact hw.1
  | u :: ts, i + 1, t, hw, h => elementsWellFormed_getElem? hw.2 (by simpa using h)

/-- The children around the one at an index. -/
theorem encodeElements_split {ts : List Element} {i : Nat} {t : Element} (h : ts[i]? = some t) :
    encodeElements ts = encodeElements (ts.take i) ++ (t.encode ++ encodeElements (ts.drop (i + 1))) ∧
    encodeElements (ts.take (i + 1)) = encodeElements (ts.take i) ++ t.encode := by
  obtain ⟨hi, ht⟩ := List.getElem?_eq_some_iff.1 h
  have htake : ts.take (i + 1) = ts.take i ++ [t] := by rw [List.take_add_one, h]; rfl
  have hsplit : ts = ts.take i ++ (t :: ts.drop (i + 1)) := by
    rw [← ht, List.getElem_cons_drop, List.take_append_drop]
  refine ⟨?_, ?_⟩
  · conv => lhs; rw [hsplit]
    rw [encodeElements_append, encodeElements]
  · rw [htake, encodeElements_append, encodeElements, encodeElements, List.append_nil]

namespace Frame

variable {de : List UInt8} {f : Frame}

theorem group_length (f : Frame) : f.group.encode.length = f.headerSize + (encodeElements f.children).length := by
  rw [group, Element.encode, List.length_append, headerSize]

theorem headerSize_pos (f : Frame) : 2 ≤ f.headerSize := by
  rw [headerSize, groupHeader_length]
  cases f.width <;> simp [LenWidth.bytes]

/-- Where the group ends is where the accessors say it ends. -/
theorem Lies.totalSize (h : f.Lies de) : bteSdpDeGetTotalSize (de.drop f.start) = f.group.encode.length := by
  obtain ⟨rest, hrest⟩ := h.bytes
  rw [hrest]
  exact Element.totalSize h.wellFormed (by have := h.small; omega) rest

/-- The child at the cursor, in the bytes. -/
theorem Lies.child (h : f.Lies de) {t : Element} (ht : f.children[f.index]? = some t) :
    (∃ rest, de.drop f.offset = t.encode ++ rest) ∧ t.WellFormed ∧
    f.offset + t.encode.length ≤ f.start + f.group.encode.length ∧
    { f with index := f.index + 1 }.offset = f.offset + t.encode.length := by
  obtain ⟨hsplit, htake⟩ := encodeElements_split ht
  obtain ⟨rest, hrest⟩ := h.bytes
  refine ⟨⟨encodeElements (f.children.drop (f.index + 1)) ++ rest, ?_⟩,
      elementsWellFormed_getElem? h.wellFormed.2 ht, ?_, ?_⟩
  · rw [offset, Nat.add_assoc, ← List.drop_drop, hrest, group, Element.encode, List.append_assoc, headerSize,
      ← List.drop_drop, List.drop_left, hsplit, List.append_assoc, List.drop_left, List.append_assoc]
  · rw [group_length, offset, hsplit]
    simp only [List.length_append]
    omega
  · simp only [offset, headerSize, htake, List.length_append]
    omega

/-- Past the last child the cursor is at the end of the group. -/
theorem offset_end (f : Frame) (h : f.index = f.children.length) : f.offset = f.start + f.group.encode.length := by
  rw [offset, h, List.take_length, group_length]
  omega

theorem offset_le (h : f.Lies de) : f.offset ≤ f.start + f.group.encode.length := by
  cases ht : f.children[f.index]? with
  | none =>
    have hi := h.index_le
    rw [List.getElem?_eq_none_iff] at ht
    exact Nat.le_of_eq (f.offset_end (by omega))
  | some t =>
    have := (h.child ht).2.2.1
    omega

end Frame

/-- Every group of the stack lies in the bytes. -/
theorem Stack.lies {de : List UInt8} {f : Frame} {fs : List Frame} (h : Stack de (f :: fs)) : f.Lies de := by
  generalize hs : f :: fs = stack at h
  induction h generalizing f fs with
  | root f' h h0 =>
    cases hs
    exact h
  | push f' g fs' h hg hst hi ih =>
    cases hs
    have hf := ih rfl
    obtain ⟨hbytes, hw, hle, -⟩ := hf.child hg
    exact ⟨hw, hst ▸ hbytes, by have := hf.small; omega, hi⟩

theorem Stack.moved {de : List UInt8} {f : Frame} {fs : List Frame} (h : Stack de (f :: fs)) {i : Nat}
    (hi : i ≤ f.children.length) : Stack de ({ f with index := i } :: fs) := by
  cases h with
  | root _ h h0 => exact .root _ ⟨h.wellFormed, h.bytes, h.small, hi⟩ h0
  | push f' _ fs' h hg hs _ => exact .push f' _ fs' h hg hs hi

theorem Stack.tail {de : List UInt8} {f g : Frame} {fs : List Frame} (h : Stack de (g :: f :: fs)) :
    Stack de (f :: fs) ∧ f.children[f.index]? = some g.group ∧ g.start = f.offset := by
  cases h with
  | push _ _ _ h hg hs _ => exact ⟨h, hg, hs⟩

/-! ## The operations on the stack -/

section Operations

variable {de : List UInt8} {f : Frame} {fs : List Frame}

theorem Frame.Lies.seqEnd (h : f.Lies de) (b : Bool) :
    (readerOf de b (f :: fs)).seqEnd = f.start + f.group.encode.length := by
  have hs := h.small
  simp only [DeReader.seqEnd, readerOf]
  rw [h.totalSize]
  omega

theorem seqEnd_readerOf (h : Stack de (f :: fs)) (b : Bool) :
    (readerOf de b (f :: fs)).seqEnd = f.start + f.group.encode.length := h.lies.seqEnd b

/-- The cursor is on a child, or at the end. -/
theorem Frame.Lies.offset_lt_iff (h : f.Lies de) :
    f.offset < f.start + f.group.encode.length ↔ f.index < f.children.length := by
  constructor
  · intro hlt
    by_contra hn
    have := f.offset_end (by have := h.index_le; omega)
    omega
  · intro hi
    obtain ⟨-, hw, hle, -⟩ := h.child (List.getElem?_eq_getElem hi)
    have := Element.one_le_encode hw
    omega

theorem offset_lt_iff (h : Stack de (f :: fs)) :
    f.offset < f.start + f.group.encode.length ↔ f.index < f.children.length := h.lies.offset_lt_iff

/-- There is a current element once `next` has found a child. -/
theorem Frame.Lies.current (h : f.Lies de) (b : Bool) :
    deGetCurrent (readerOf de b (f :: fs)) =
      if b = true ∧ f.index < f.children.length then some (de.drop f.offset) else none := by
  have hsmall := h.small
  have hend := f.offset_le h
  have hoff : asInt (readerOf de b (f :: fs)).offset = f.offset := asInt_of_lt (by simp only [readerOf]; omega)
  have hlt := h.offset_lt_iff
  unfold deGetCurrent
  rw [h.seqEnd, asInt_of_lt hsmall, hoff]
  cases b with
  | false => simp [readerOf]
  | true =>
    simp only [readerOf, List.length_cons, Nat.zero_lt_succ, Bool.true_eq_false, false_or, true_and]
    by_cases hi : f.index < f.children.length
    · rw [if_pos hi, if_neg (by omega)]
    · rw [if_neg hi, if_pos (by omega)]

/-- **`next`** goes to the first child if it was not called since the group was entered, else to the next one. -/
theorem next_frame (h : Stack de (f :: fs)) (b : Bool) :
    bteSdpDeReaderNext (readerOf de b (f :: fs)) =
      if f.index = f.children.length then (false, readerOf de b (f :: fs))
      else if b = false then (true, readerOf de true (f :: fs))
      else (decide (f.index + 1 < f.children.length), readerOf de true ({ f with index := f.index + 1 } :: fs)) := by
  have hl := h.lies
  have hend := seqEnd_readerOf h b
  have hlt := offset_lt_iff h
  have hi := hl.index_le
  unfold bteSdpDeReaderNext
  rw [if_neg (by simp [readerOf]), hend]
  by_cases hidx : f.index = f.children.length
  · have hoff : (readerOf de b (f :: fs)).offset ≥ f.start + f.group.encode.length := by
      have := f.offset_end hidx
      show f.offset ≥ _
      omega
    rw [if_pos hoff, if_pos hidx]
  · have hoff : ¬ (readerOf de b (f :: fs)).offset ≥ f.start + f.group.encode.length := by
      show ¬ f.offset ≥ _
      omega
    rw [if_neg hoff, if_neg hidx]
    by_cases hb : b = false
    · subst hb
      rfl
    · have hb' : b = true := by simpa using hb
      subst hb'
      rw [if_neg (by simp [readerOf]), if_neg (by simp)]
      obtain ⟨t, ht⟩ : ∃ t, f.children[f.index]? = some t :=
        ⟨_, List.getElem?_eq_getElem (show f.index < f.children.length by omega)⟩
      obtain ⟨⟨rest, hrest⟩, hw, hle, hnext⟩ := hl.child ht
      have hsmall := hl.small
      have hsize : bteSdpDeGetTotalSize (de.drop f.offset) = t.encode.length := by
        rw [hrest]
        exact Element.totalSize hw (by omega) rest
      have hmoved := offset_lt_iff (h.moved (i := f.index + 1) (by omega))
      have hmoff : (f.offset + bteSdpDeGetTotalSize (de.drop f.offset)) % 2 ^ 32 =
          { f with index := f.index + 1 }.offset := by
        rw [hsize, hnext]
        omega
      have hr : { readerOf de true (f :: fs) with
            offset := (f.offset + bteSdpDeGetTotalSize (de.drop f.offset)) % 2 ^ 32 } =
          readerOf de true ({ f with index := f.index + 1 } :: fs) := by
        rw [hmoff]
        rfl
      refine Prod.ext (decide_eq_decide.2 ?_) hr
      refine Iff.trans (Iff.of_eq ?_) hmoved
      rw [← seqEnd_readerOf (h.moved (i := f.index + 1) (by omega)) true, ← hr]
      exact congrArg (· < _) hmoff

theorem next_end (h : Stack de (f :: fs)) (b : Bool) (hi : f.index = f.children.length) :
    bteSdpDeReaderNext (readerOf de b (f :: fs)) = (false, readerOf de b (f :: fs)) := by
  rw [next_frame h b, if_pos hi]

theorem next_first (h : Stack de (f :: fs)) (hi : f.index < f.children.length) :
    bteSdpDeReaderNext (readerOf de false (f :: fs)) = (true, readerOf de true (f :: fs)) := by
  rw [next_frame h false, if_neg (by omega), if_pos rfl]

theorem next_more (h : Stack de (f :: fs)) (hi : f.index < f.children.length) :
    bteSdpDeReaderNext (readerOf de true (f :: fs)) =
      (decide (f.index + 1 < f.children.length), readerOf de true ({ f with index := f.index + 1 } :: fs)) := by
  rw [next_frame h true, if_neg (by omega), if_neg (by simp)]

/-- **`enter`** on a child that is a group. -/
theorem enter_group (h : Stack de (f :: fs)) (b : Bool) {k : GroupKind} {w : LenWidth} {ts : List Element}
    (ht : f.children[f.index]? = some (.group k w ts)) (hd : (f :: fs).length < 255) :
    bteSdpDeReaderEnter (readerOf de b (f :: fs)) = (true, readerOf de false (⟨f.offset, k, w, ts, 0⟩ :: f :: fs)) := by
  have hl := h.lies
  obtain ⟨⟨rest, hrest⟩, hw, hle, -⟩ := hl.child ht
  have hsmall := hl.small
  rw [Element.encode, List.append_assoc] at hrest
  obtain ⟨htype, hhdr, -⟩ := group_accessors k w hw.1 (encodeElements ts ++ rest)
  rw [← hrest] at htype hhdr
  have hlen : (groupHeader k w (encodeElements ts).length).length ≤ (Element.group k w ts).encode.length := by
    rw [Element.encode, List.length_append]
    omega
  unfold bteSdpDeReaderEnter
  simp only [readerOf, htype, hhdr]
  rw [if_neg (by cases k <;> simp [GroupKind.type])]
  simp only [Frame.offset, Frame.headerSize, List.take_zero, encodeElements, List.length_nil, Nat.add_zero,
    List.length_cons] at hle hd ⊢
  refine congrArg (Prod.mk true) ?_
  simp only [DeReader.mk.injEq, true_and, and_true]
  refine ⟨?_, ?_⟩
  · rw [Nat.mod_eq_of_lt]
    omega
  · omega

theorem enter_leaf (h : Stack de (f :: fs)) (b : Bool) {bs : List UInt8} (ht : f.children[f.index]? = some (.leaf bs)) :
    bteSdpDeReaderEnter (readerOf de b (f :: fs)) = (false, readerOf de b (f :: fs)) := by
  obtain ⟨⟨rest, hrest⟩, hw, -, -⟩ := h.lies.child ht
  obtain ⟨htype, -, -⟩ := leaf_accessors hw rest
  rw [Element.encode] at hrest
  unfold bteSdpDeReaderEnter
  simp only [readerOf, hrest, htype]
  exact if_pos hw.2.2

/-- Entering the element itself. -/
theorem enter_root_group (b : Bool) {k : GroupKind} {w : LenWidth} {ts : List Element} (tail : List UInt8)
    (hw : (Element.group k w ts).WellFormed) (hlen : (Element.group k w ts).encode.length < 2 ^ 31) :
    bteSdpDeReaderEnter (readerOf ((Element.group k w ts).encode ++ tail) b []) =
      (true, readerOf ((Element.group k w ts).encode ++ tail) false [⟨0, k, w, ts, 0⟩]) := by
  have hbytes : (Element.group k w ts).encode ++ tail =
      groupHeader k w (encodeElements ts).length ++ (encodeElements ts ++ tail) := by
    rw [Element.encode, List.append_assoc]
  obtain ⟨htype, hhdr, -⟩ := group_accessors k w hw.1 (encodeElements ts ++ tail)
  rw [← hbytes] at htype hhdr
  rw [Element.encode, List.length_append] at hlen
  unfold bteSdpDeReaderEnter
  simp only [readerOf, List.drop_zero, htype, hhdr]
  rw [if_neg (by cases k <;> simp [GroupKind.type])]
  simp only [Frame.offset, Frame.headerSize, List.take_zero, encodeElements, List.length_nil, Nat.add_zero,
    List.length_cons, Nat.zero_add]
  refine congrArg (Prod.mk true) ?_
  simp only [DeReader.mk.injEq, true_and, and_true, Nat.reduceMod]
  exact Nat.mod_eq_of_lt (by omega)

theorem enter_root_leaf (b : Bool) {bs : List UInt8} (tail : List UInt8) (hw : LeafBytes bs) :
    bteSdpDeReaderEnter (readerOf (bs ++ tail) b []) = (false, readerOf (bs ++ tail) b []) := by
  obtain ⟨htype, -, -⟩ := leaf_accessors hw tail
  unfold bteSdpDeReaderEnter
  simp only [readerOf, List.drop_zero, htype]
  exact if_pos hw.2.2

theorem stack_root {k : GroupKind} {w : LenWidth} {ts : List Element} (tail : List UInt8)
    (hw : (Element.group k w ts).WellFormed) (hlen : (Element.group k w ts).encode.length < 2 ^ 31) :
    Stack ((Element.group k w ts).encode ++ tail) [⟨0, k, w, ts, 0⟩] := by
  refine .root _ ⟨hw, ⟨tail, rfl⟩, ?_, Nat.zero_le _⟩ rfl
  simpa [Frame.group] using hlen

end Operations

/-! ## Finding the start of the sequence again -/

section Leave

variable {de : List UInt8} {f : Frame} {fs : List Frame}

/-- The size the scan reads: nothing before `next` was called. -/
theorem totalSize_readerOf (h : Stack de (f :: fs)) {t : Element} (ht : f.children[f.index]? = some t) (b : Bool) :
    bteSdpDeReaderGetTotalSize (readerOf de b (f :: fs)) = if b then t.encode.length else 0 := by
  obtain ⟨hi, -⟩ := List.getElem?_eq_some_iff.1 ht
  have hsmall := h.lies.small
  unfold bteSdpDeReaderGetTotalSize
  rw [h.lies.current]
  cases b with
  | false => simp
  | true =>
    obtain ⟨⟨rest, hrest⟩, hw, hle, -⟩ := h.lies.child ht
    simp only [true_and, if_pos hi, if_true]
    rw [hrest]
    exact Element.totalSize hw (by omega) rest

/-- The reader at the group `f`, before it is entered. -/
def atGroup (de : List UInt8) : List Frame → DeReader
  | [] => readerOf de false []
  | p :: ps => readerOf de true (p :: ps)

/-- At a group that contains the offset the scan goes in, or has found it. -/
theorem scan_group (h : Stack de (f :: fs)) (hd : fs.length < 255) {depth c : Nat}
    (hc : c ≤ f.start + f.group.encode.length) (n : Nat) :
    findSeqStartLoop depth c (n + 1) (atGroup de fs) =
      if fs.length = depth then some f.start
      else findSeqStartLoop depth c n (readerOf de false ({ f with index := 0 } :: fs)) := by
  have hsmall := h.lies.small
  cases h with
  | root _ hl h0 =>
    obtain ⟨rest, hrest⟩ := hl.bytes
    have hsize : bteSdpDeReaderGetTotalSize (atGroup de []) = f.group.encode.length := by
      have := hl.totalSize
      rw [h0] at this
      exact this
    rw [findSeqStartLoop, hsize, if_pos (by show (0 + _) % _ ≥ c; omega)]
    rw [h0, List.drop_zero, Frame.group] at hrest
    have henter := enter_root_group false rest hl.wellFormed (by rw [h0] at hsmall; simpa [Frame.group] using hsmall)
    rw [← hrest] at henter
    simp only [atGroup, henter, h0]
    obtain ⟨start, kind, width, children, index⟩ := f
    simp only at h0
    subst h0
    rfl
  | push p _ ps hp hg hs hi =>
    have hsize := totalSize_readerOf hp hg true
    rw [if_pos rfl] at hsize
    have hoff : (readerOf de true (p :: ps)).offset = f.start := hs.symm
    show findSeqStartLoop depth c (n + 1) (readerOf de true (p :: ps)) = _
    rw [findSeqStartLoop, hsize, hoff, if_pos (by omega)]
    have henter := enter_group hp true hg hd
    simp only [henter, hs]
    rfl

/-- Inside, it goes over the children that end before the offset. -/
theorem scan_children {p : Frame} {ps : List Frame} (hp : Stack de (p :: ps)) {depth c : Nat}
    (hi : p.index < p.children.length) (hc : p.offset < c) (n : Nat) :
    ∀ i, i ≤ p.index → findSeqStartLoop depth c (n + (p.index - i)) (readerOf de true ({ p with index := i } :: ps)) =
      findSeqStartLoop depth c n (readerOf de true (p :: ps)) := by
  intro i hle
  generalize hk : p.index - i = k
  induction k generalizing i with
  | zero =>
    have : i = p.index := by omega
    subst this
    rfl
  | succ k ih =>
    have hstack := hp.moved (i := i) (by omega)
    obtain ⟨t, ht⟩ : ∃ t, p.children[i]? = some t := ⟨_, List.getElem?_eq_getElem (show i < p.children.length by omega)⟩
    have hsize := totalSize_readerOf hstack ht true
    rw [if_pos rfl] at hsize
    obtain ⟨-, -, -, hnext⟩ := hstack.lies.child ht
    have hsmall := hp.lies.small
    have hmono : ({ p with index := i + 1 } : Frame).offset ≤ p.offset := by
      have hsplit : p.children.take p.index = p.children.take (i + 1) ++ (p.children.take p.index).drop (i + 1) := by
        conv => lhs; rw [← List.take_append_drop (i + 1) (p.children.take p.index)]
        rw [List.take_take, Nat.min_eq_left (by omega)]
      simp only [Frame.offset, Frame.headerSize]
      rw [hsplit, encodeElements_append, List.length_append]
      omega
    have hend := Frame.offset_le hp.lies
    rw [← Nat.add_assoc, findSeqStartLoop, hsize, if_neg]
    · rw [next_more hstack (show i < p.children.length by omega)]
      exact ih (i + 1) (by omega) (by omega)
    · have hnext' : ({ p with index := i } : Frame).offset + t.encode.length =
          ({ p with index := i + 1 } : Frame).offset := hnext.symm
      show ¬ (({ p with index := i } : Frame).offset + t.encode.length) % 2 ^ 32 ≥ c
      rw [hnext']
      omega

/-- **The scan comes to every group of the stack**, in no more steps than there are bytes before it. -/
theorem scan_reaches {fs : List Frame} {f : Frame} (h : Stack de (f :: fs)) (hd : fs.length < 255) {depth c : Nat}
    (hdepth : fs.length ≤ depth) (hlo : f.start < c) (hhi : c ≤ f.start + f.group.encode.length) :
    ∃ k, k ≤ f.start ∧ ∀ n, findSeqStartLoop depth c (n + k) (bteSdpDeReaderInit de) =
      findSeqStartLoop depth c n (atGroup de fs) := by
  induction fs generalizing f with
  | nil => exact ⟨0, Nat.zero_le _, fun _ => rfl⟩
  | cons p ps ih =>
    obtain ⟨hp, hg, hs⟩ := h.tail
    obtain ⟨hi, -⟩ := List.getElem?_eq_some_iff.1 hg
    obtain ⟨-, -, hle, -⟩ := hp.lies.child hg
    simp only [List.length_cons] at hd hdepth
    have hhdr := p.headerSize_pos
    have hoff : p.start + p.headerSize + p.index ≤ p.offset := by
      have hlen : ∀ (ts : List Element) (i : Nat), ElementsWellFormed ts → i ≤ ts.length →
          i ≤ (encodeElements (ts.take i)).length := by
        intro ts
        induction ts with
        | nil =>
          intro i _ hi
          simpa [encodeElements] using hi
        | cons t ts iht =>
          intro i hw hi
          cases i with
          | zero => exact Nat.zero_le _
          | succ i =>
            have h1 := Element.one_le_encode hw.1
            have h2 := iht i hw.2 (by simpa using hi)
            rw [List.take_succ_cons, encodeElements, List.length_append]
            omega
      have := hlen p.children p.index hp.lies.wellFormed.2 hp.lies.index_le
      rw [Frame.offset]
      omega
    obtain ⟨k, hk, hscan⟩ := ih hp (by omega) (by omega) (by omega) (by omega)
    refine ⟨k + (p.index + 2), by omega, fun n => ?_⟩
    -- the group is entered, `next` is called for its first child, and then for each child before this one
    have hfirst := hp.moved (i := 0) (Nat.zero_le _)
    rw [show n + (k + (p.index + 2)) = (n + p.index + 1 + 1) + k by omega, hscan, scan_group hp (by omega) (by omega),
      if_neg (by omega), findSeqStartLoop]
    obtain ⟨t, ht⟩ : ∃ t, p.children[0]? = some t :=
      ⟨_, List.getElem?_eq_getElem (show 0 < p.children.length by omega)⟩
    have hsize := totalSize_readerOf hfirst ht false
    rw [if_neg (by simp)] at hsize
    have hsmall := hp.lies.small
    rw [hsize, if_neg]
    · rw [next_first hfirst (show 0 < p.children.length by omega)]
      exact scan_children hp hi (by omega) n 0 (Nat.zero_le _)
    · show ¬ (({ p with index := 0 } : Frame).offset + 0) % 2 ^ 32 ≥ c
      have : ({ p with index := 0 } : Frame).offset = p.start + p.headerSize := by
        simp [Frame.offset, Frame.headerSize, encodeElements]
      omega

theorem findSeqStartOffset_frame (h : Stack de (f :: fs)) (hd : fs.length < 255) :
    findSeqStartOffset de fs.length f.offset = some f.start := by
  have hhdr := f.headerSize_pos
  have hlo : f.start < f.offset := by
    rw [Frame.offset]
    omega
  have hhi := Frame.offset_le h.lies
  obtain ⟨k, hk, hscan⟩ := scan_reaches h hd (Nat.le_refl _) hlo hhi
  obtain ⟨rest, hrest⟩ := h.lies.bytes
  have hlen := congrArg List.length hrest
  rw [List.length_drop, List.length_append, f.group_length] at hlen
  unfold findSeqStartOffset
  rw [show de.length + 1 = (de.length - k) + 1 + k by omega, hscan, scan_group h hd hhi, if_pos rfl]

/-- **`leave`** goes back to the group that was entered; what was done inside shows in the flag only. -/
theorem leave_frame {g : Frame} (h : Stack de (g :: f :: fs)) (hd : (f :: fs).length < 255) (b : Bool) :
    bteSdpDeReaderLeave (readerOf de b (g :: f :: fs)) = some (true, readerOf de b (f :: fs)) := by
  obtain ⟨hf, hg, hs⟩ := h.tail
  simp only [List.length_cons] at hd
  unfold bteSdpDeReaderLeave
  simp only [readerOf, List.length_cons, Nat.add_sub_cancel]
  rw [if_neg (by omega), if_neg (by omega), hs, findSeqStartOffset_frame hf (by omega)]
  rfl

theorem leave_root (h : Stack de [f]) (b : Bool) :
    bteSdpDeReaderLeave (readerOf de b [f]) = some (true, readerOf de b []) := by
  cases h with
  | root _ hl h0 =>
    unfold bteSdpDeReaderLeave
    simp [readerOf, h0]

end Leave

end Bte
