import BtEmbedded.SdpAccept
import BtEmbedded.SdpLoop
/-!
# SdpBounds — what the reader reads of a list (services/sdp.c)

The reader compares where an element starts with the end of its sequence, and nothing else: the lengths inside a list are
the peer's.  A list whose groups are filled by their elements is read within the group entered last, however it is walked
over (`reads_inside`): the pointers that the functions return lie in it, and the values do not depend on a byte outside of
it.  `enteredBy` is the record of what was entered.
-/
namespace Bte

open Bytes

/-! ## All the functions -/

/-- What the functions give for the current element. -/
structure DeValues where
  type : Nat
  totalSize : Nat
  bool : Bool
  uint8 : Nat
  uint16 : Nat
  uint32 : Nat
  uint64 : Nat
  uint128 : List UInt8
  int8 : BitVec 8
  int16 : BitVec 16
  int32 : BitVec 32
  int64 : BitVec 64
  int128 : List UInt8
  uuid16 : Nat
  uuid32 : Nat
  uuid128 : List UInt8
  str : Option (List UInt8)
  copyStr : Nat → Nat × List UInt8

def DeReader.values (build : Int128Build) (host : Endian) (r : DeReader) : DeValues where
  type := bteSdpDeReaderGetType r
  totalSize := bteSdpDeReaderGetTotalSize r
  bool := bteSdpDeReaderReadBool r
  uint8 := bteSdpDeReaderReadUint8 r
  uint16 := bteSdpDeReaderReadUint16 r
  uint32 := bteSdpDeReaderReadUint32 r
  uint64 := bteSdpDeReaderReadUint64 r
  uint128 := bteSdpDeReaderReadUint128 build host r
  int8 := bteSdpDeReaderReadInt8 r
  int16 := bteSdpDeReaderReadInt16 r
  int32 := bteSdpDeReaderReadInt32 r
  int64 := bteSdpDeReaderReadInt64 r
  int128 := bteSdpDeReaderReadInt128 build host r
  uuid16 := bteSdpDeReaderReadUuid16 r
  uuid32 := bteSdpDeReaderReadUuid32 r
  uuid128 := bteSdpDeReaderReadUuid128 r
  str := (bteSdpDeReaderReadStr r).map fun s => s.1.take s.2
  copyStr := bteSdpDeReaderCopyStr r

/-- What the functions give lies between `lo` and `hi`: the current element, the data and the string that they point at, and
all the bytes that the values come from. -/
structure ReadsInside (build : Int128Build) (host : Endian) (r : DeReader) (lo hi : Nat) : Prop where
  current : ∀ de, deGetCurrent r = some de →
    de = r.de.drop r.offset ∧ lo ≤ r.offset ∧ r.offset + (bteSdpDeGetHeaderSize de + bteSdpDeGetDataSize de) ≤ hi
  data : ∀ data size, deGetData r = some (data, size) ∨ bteSdpDeReaderReadStr r = some (data, size) →
    ∃ off, data = r.de.drop off ∧ lo ≤ off ∧ off + size ≤ hi
  values : ∀ mem, slice mem lo (hi - lo) = slice r.de lo (hi - lo) →
    ({ r with de := mem } : DeReader).values build host = r.values build host

/-! ## The current element -/

/-- The accessors see the element only, and its header and its data are all of it. -/
theorem Element.accessors {u : Element} (hw : u.WellFormed) (rest : List UInt8) :
    bteSdpDeGetType (u.encode ++ rest) = bteSdpDeGetType u.encode ∧
    bteSdpDeGetHeaderSize (u.encode ++ rest) = bteSdpDeGetHeaderSize u.encode ∧
    bteSdpDeGetDataSize (u.encode ++ rest) = bteSdpDeGetDataSize u.encode ∧
    bteSdpDeGetHeaderSize u.encode + bteSdpDeGetDataSize u.encode = u.encode.length := by
  cases u with
  | leaf bs =>
    obtain ⟨htype, hheader, hdata⟩ := leaf_accessors hw rest
    exact ⟨htype, hheader, hdata, hw.2.1⟩
  | group k w ts =>
    obtain ⟨htype, hheader, hdata⟩ := group_accessors k w hw.1 (encodeElements ts)
    obtain ⟨htype', hheader', hdata'⟩ := group_accessors k w hw.1 (encodeElements ts ++ rest)
    rw [Element.encode, List.append_assoc]
    exact ⟨htype'.trans htype.symm, hheader'.trans hheader.symm, hdata'.trans hdata.symm,
      by rw [hheader, hdata, List.length_append]⟩

/-- Two readers are at the same element, or at none. -/
inductive SameCurrent (r r' : DeReader) : Prop where
  | none (h : deGetCurrent r = .none) (h' : deGetCurrent r' = .none)
  | some (u : Element) (rest rest' : List UInt8) (hw : u.WellFormed) (hlen : u.encode.length < 2 ^ 31)
      (h : deGetCurrent r = .some (u.encode ++ rest)) (h' : deGetCurrent r' = .some (u.encode ++ rest'))

/-- Two readers have the same data, or none. -/
inductive SameData (r r' : DeReader) : Prop where
  | none (h : deGetData r = .none) (h' : deGetData r' = .none)
  | some (d d' : List UInt8) (n : Nat) (hpos : 0 < n) (hlen : n < 2 ^ 31) (hd : d.take n = d'.take n)
      (h : deGetData r = .some (d, n)) (h' : deGetData r' = .some (d', n))

theorem deGetCurrent_eq {r : DeReader} {de : List UInt8} (h : deGetCurrent r = some de) : de = r.de.drop r.offset := by
  unfold deGetCurrent at h
  split at h
  · cases h
  · exact (Option.some.inj h).symm

section Same

variable {r r' : DeReader}

theorem SameCurrent.data (h : SameCurrent r r') : SameData r r' := by
  cases h with
  | none h h' => exact .none (by rw [deGetData, h]; rfl) (by rw [deGetData, h']; rfl)
  | some u rest rest' hw hlen h h' =>
    obtain ⟨-, hheader, hdata, hsize⟩ := u.accessors hw rest
    obtain ⟨-, hheader', hdata', -⟩ := u.accessors hw rest'
    by_cases hpos : 0 < bteSdpDeGetDataSize u.encode
    · refine .some ((u.encode ++ rest).drop (bteSdpDeGetHeaderSize u.encode))
        ((u.encode ++ rest').drop (bteSdpDeGetHeaderSize u.encode)) _ hpos (by omega) ?_ ?_ ?_
      · rw [List.drop_append_of_le_length (by omega), List.drop_append_of_le_length (by omega),
          List.take_append_of_le_length (by rw [List.length_drop]; omega),
          List.take_append_of_le_length (by rw [List.length_drop]; omega)]
      · rw [deGetData, h, Option.bind_some, hdata, hheader, if_pos hpos]
      · rw [deGetData, h', Option.bind_some, hdata', hheader', if_pos hpos]
    · refine .none ?_ ?_
      · rw [deGetData, h, Option.bind_some, hdata, if_neg hpos]
      · rw [deGetData, h', Option.bind_some, hdata', if_neg hpos]

theorem readUint8_congr (h : SameData r r') : bteSdpDeReaderReadUint8 r = bteSdpDeReaderReadUint8 r' := by
  unfold bteSdpDeReaderReadUint8
  cases h with
  | none h h' => rw [h, h']
  | some d d' n hpos hlen hd h h' => simp only [h, h', getD_of_take_eq hd hpos 0]

/-- A function of a width reads all the data of this width, and leaves a narrower number to another function. -/
theorem width_congr {α : Type} {d d' : List UInt8} {n : Nat} (hd : d.take n = d'.take n) (w : Nat) (f : List UInt8 → α)
    (wide narrow : α) :
    (if n > w then wide else if n = w then f (d.take w) else narrow) =
      if n > w then wide else if n = w then f (d'.take w) else narrow := by
  by_cases hn : n = w
  · subst hn
    rw [hd]
  · rw [if_neg hn, if_neg hn]

theorem readUint16_congr (h : SameData r r') : bteSdpDeReaderReadUint16 r = bteSdpDeReaderReadUint16 r' := by
  unfold bteSdpDeReaderReadUint16
  cases h with
  | none h h' => rw [h, h']
  | some d d' n hpos hlen hd h h' =>
    simp only [h, h', getD_of_take_eq hd hpos 0]
    exact width_congr hd 2 beVal 0 _

theorem readInt16_congr (h : SameData r r') : bteSdpDeReaderReadInt16 r = bteSdpDeReaderReadInt16 r' := by
  unfold bteSdpDeReaderReadInt16
  cases h with
  | none h h' => rw [h, h']
  | some d d' n hpos hlen hd h h' =>
    simp only [h, h', getD_of_take_eq hd hpos 0]
    exact width_congr hd 2 (fun bs => BitVec.ofNat 16 (beVal bs)) 0 _

theorem readUint32_congr (h : SameData r r') : bteSdpDeReaderReadUint32 r = bteSdpDeReaderReadUint32 r' := by
  unfold bteSdpDeReaderReadUint32
  cases h with
  | none h h' => rw [h, h']
  | some d d' n hpos hlen hd h h' =>
    simp only [h, h', getD_of_take_eq hd hpos 0]
    by_cases h2 : n = 2
    · subst h2
      rw [hd]
      rfl
    · by_cases h4 : n = 4
      · subst h4
        rw [hd]
        rfl
      · simp only [if_neg h2, if_neg h4]

theorem readInt32_congr (h : SameData r r') : bteSdpDeReaderReadInt32 r = bteSdpDeReaderReadInt32 r' := by
  have hnarrow := readInt16_congr h
  unfold bteSdpDeReaderReadInt32
  cases h with
  | none h h' => rw [h, h']
  | some d d' n hpos hlen hd h h' =>
    simp only [h, h', hnarrow]
    exact width_congr hd 4 (fun bs => BitVec.ofNat 32 (beVal bs)) 0 _

theorem readUint64_congr (h : SameData r r') : bteSdpDeReaderReadUint64 r = bteSdpDeReaderReadUint64 r' := by
  have hnarrow := readUint32_congr h
  unfold bteSdpDeReaderReadUint64
  cases h with
  | none h h' => rw [h, h']
  | some d d' n hpos hlen hd h h' =>
    simp only [h, h', hnarrow]
    exact width_congr hd 8 beVal 0 _

theorem readInt64_congr (h : SameData r r') : bteSdpDeReaderReadInt64 r = bteSdpDeReaderReadInt64 r' := by
  have hnarrow := readInt32_congr h
  unfold bteSdpDeReaderReadInt64
  cases h with
  | none h h' => rw [h, h']
  | some d d' n hpos hlen hd h h' =>
    simp only [h, h', hnarrow]
    exact width_congr hd 8 (fun bs => BitVec.ofNat 64 (beVal bs)) 0 _

theorem readUint128_congr (build : Int128Build) (host : Endian) (h : SameData r r') :
    bteSdpDeReaderReadUint128 build host r = bteSdpDeReaderReadUint128 build host r' := by
  have hnarrow := readUint64_congr h
  unfold bteSdpDeReaderReadUint128
  cases h with
  | none h h' => rw [h, h']
  | some d d' n hpos hlen hd h h' =>
    simp only [h, h', hnarrow]
    exact width_congr hd 16 (fun bs => if host = .little then flip128 bs else bs) _ _

theorem readInt128_congr (build : Int128Build) (host : Endian) (h : SameData r r') :
    bteSdpDeReaderReadInt128 build host r = bteSdpDeReaderReadInt128 build host r' := by
  have hnarrow := readInt64_congr h
  unfold bteSdpDeReaderReadInt128
  cases h with
  | none h h' => rw [h, h']
  | some d d' n hpos hlen hd h h' =>
    simp only [h, h', hnarrow]
    exact width_congr hd 16 (fun bs => if host = .little then flip128 bs else bs) _ _

theorem readUuid128_congr (h : SameData r r') : bteSdpDeReaderReadUuid128 r = bteSdpDeReaderReadUuid128 r' := by
  have huuid32 : bteSdpDeReaderReadUuid32 r = bteSdpDeReaderReadUuid32 r' := readUint32_congr h
  unfold bteSdpDeReaderReadUuid128
  cases h with
  | none h h' => rw [h, h']
  | some d d' n hpos hlen hd h h' =>
    simp only [h, h', huuid32]
    by_cases hn : n = 16
    · subst hn
      rw [hd]
    · rw [if_neg hn, if_neg hn]

/-- The string and what is copied of it. -/
theorem readStr_congr (h : SameData r r')
    (htype : deGetData r ≠ none → bteSdpDeGetType (r.de.drop r.offset) = bteSdpDeGetType (r'.de.drop r'.offset)) :
    ((bteSdpDeReaderReadStr r).map fun s => s.1.take s.2) = ((bteSdpDeReaderReadStr r').map fun s => s.1.take s.2) ∧
    bteSdpDeReaderCopyStr r = bteSdpDeReaderCopyStr r' := by
  cases h with
  | none h h' =>
    have hstr : bteSdpDeReaderReadStr r = .none := by rw [bteSdpDeReaderReadStr, h]; rfl
    have hstr' : bteSdpDeReaderReadStr r' = .none := by rw [bteSdpDeReaderReadStr, h']; rfl
    exact ⟨by rw [hstr, hstr'], funext fun maxLen => by simp only [bteSdpDeReaderCopyStr, hstr, hstr']⟩
  | some d d' n hpos hlen hd h h' =>
    have htype := htype (by rw [h]; exact Option.some_ne_none _)
    have hlen' : ¬ asInt n < 0 := by
      rw [asInt_of_lt hlen]
      omega
    by_cases ht : bteSdpDeGetType (r'.de.drop r'.offset) ≠ bteSdpDeTypeString ∧
        bteSdpDeGetType (r'.de.drop r'.offset) ≠ bteSdpDeTypeUrl
    · have hstr : bteSdpDeReaderReadStr r = .none := by rw [bteSdpDeReaderReadStr, h, Option.bind_some, htype, if_pos ht]
      have hstr' : bteSdpDeReaderReadStr r' = .none := by rw [bteSdpDeReaderReadStr, h', Option.bind_some, if_pos ht]
      exact ⟨by rw [hstr, hstr'], funext fun maxLen => by simp only [bteSdpDeReaderCopyStr, hstr, hstr']⟩
    · have hstr : bteSdpDeReaderReadStr r = .some (d, n) := by
        rw [bteSdpDeReaderReadStr, h, Option.bind_some, htype, if_neg ht]
      have hstr' : bteSdpDeReaderReadStr r' = .some (d', n) := by
        rw [bteSdpDeReaderReadStr, h', Option.bind_some, if_neg ht]
      refine ⟨by rw [hstr, hstr', Option.map_some, Option.map_some, hd], funext fun maxLen => ?_⟩
      simp only [bteSdpDeReaderCopyStr, hstr, hstr', if_neg hlen', hd]

/-- **The values are those of the current element.** -/
theorem values_congr (build : Int128Build) (host : Endian) (h : SameCurrent r r') :
    r.values build host = r'.values build host := by
  have hdata := h.data
  have htypes : bteSdpDeReaderGetType r = bteSdpDeReaderGetType r' ∧
      bteSdpDeReaderGetTotalSize r = bteSdpDeReaderGetTotalSize r' ∧
      (deGetData r ≠ none → bteSdpDeGetType (r.de.drop r.offset) = bteSdpDeGetType (r'.de.drop r'.offset)) := by
    cases h with
    | none h h' =>
      refine ⟨by simp only [bteSdpDeReaderGetType, h, h'], by simp only [bteSdpDeReaderGetTotalSize, h, h'], fun hne => ?_⟩
      exact absurd (by rw [deGetData, h]; rfl) hne
    | some u rest rest' hw hlen h h' =>
      have htype : bteSdpDeGetType (u.encode ++ rest) = bteSdpDeGetType (u.encode ++ rest') :=
        (u.accessors hw rest).1.trans (u.accessors hw rest').1.symm
      refine ⟨by simp only [bteSdpDeReaderGetType, h, h', htype], ?_, fun _ => ?_⟩
      · simp only [bteSdpDeReaderGetTotalSize, h, h', Element.totalSize hw hlen]
      · rw [← deGetCurrent_eq h, ← deGetCurrent_eq h', htype]
  obtain ⟨htype, hsize, hfirst⟩ := htypes
  obtain ⟨hstr, hcopy⟩ := readStr_congr hdata hfirst
  simp only [DeReader.values, htype, hsize, hstr, hcopy, readUint8_congr hdata, readUint16_congr hdata,
    readUint32_congr hdata, readUint64_congr hdata, readUint128_congr build host hdata, readInt16_congr hdata,
    readInt32_congr hdata, readInt64_congr hdata, readInt128_congr build host hdata, readUuid128_congr hdata,
    bteSdpDeReaderReadBool, bteSdpDeReaderReadInt8, bteSdpDeReaderReadUuid16, bteSdpDeReaderReadUuid32]

end Same

/-! ## Inside a group -/

section Groups

variable {de mem : List UInt8} {f : Frame} (build : Int128Build) (host : Endian)

/-- What the functions point at lies where the current element does. -/
theorem readsInside_of {r : DeReader} {lo hi : Nat}
    (hcurrent : ∀ cur, deGetCurrent r = some cur →
      lo ≤ r.offset ∧ r.offset + (bteSdpDeGetHeaderSize cur + bteSdpDeGetDataSize cur) ≤ hi)
    (hsame : ∀ mem, slice mem lo (hi - lo) = slice r.de lo (hi - lo) → SameCurrent { r with de := mem } r) :
    ReadsInside build host r lo hi := by
  refine ⟨fun cur h => ⟨deGetCurrent_eq h, hcurrent cur h⟩, fun data size h => ?_, fun mem hmem =>
    values_congr build host (hsame mem hmem)⟩
  have hdata : deGetData r = some (data, size) := by
    rcases h with h | h
    · exact h
    · obtain ⟨x, hx, hstr⟩ := Option.bind_eq_some_iff.1 h
      split at hstr
      · cases hstr
      · rw [hx, Option.some.inj hstr]
  obtain ⟨cur, hcur, hval⟩ := Option.bind_eq_some_iff.1 hdata
  obtain ⟨hlo, hhi⟩ := hcurrent cur hcur
  split at hval
  · simp only [Option.some.injEq, Prod.mk.injEq] at hval
    obtain ⟨rfl, rfl⟩ := hval
    refine ⟨r.offset + bteSdpDeGetHeaderSize cur, ?_, by omega, by omega⟩
    rw [← List.drop_drop, ← deGetCurrent_eq hcur]
  · cases hval

/-- The group lies in any memory that has its bytes. -/
theorem Frame.Lies.congr (h : f.Lies de)
    (hmem : slice mem f.start f.group.encode.length = slice de f.start f.group.encode.length) : f.Lies mem := by
  obtain ⟨rest, hrest⟩ := h.bytes
  have htake : (mem.drop f.start).take f.group.encode.length = f.group.encode := by
    rw [slice, slice, hrest, List.take_left' rfl] at hmem
    exact hmem
  refine ⟨h.wellFormed, ⟨(mem.drop f.start).drop f.group.encode.length, ?_⟩, h.small, h.index_le⟩
  conv => lhs; rw [← List.take_append_drop f.group.encode.length (mem.drop f.start), htake]

theorem sameCurrent_frame (h : f.Lies de) (h' : f.Lies mem) (b : Bool) (fs : List Frame) :
    SameCurrent (readerOf mem b (f :: fs)) (readerOf de b (f :: fs)) := by
  have hcur : deGetCurrent (readerOf de b (f :: fs)) = _ := h.current b
  have hcur' : deGetCurrent (readerOf mem b (f :: fs)) = _ := h'.current b
  by_cases hon : b = true ∧ f.index < f.children.length
  · rw [if_pos hon] at hcur hcur'
    obtain ⟨⟨rest, hrest⟩, hw, hle, -⟩ := h.child (List.getElem?_eq_getElem hon.2)
    obtain ⟨⟨rest', hrest'⟩, -, -, -⟩ := h'.child (List.getElem?_eq_getElem hon.2)
    have hsmall := h.small
    rw [hrest] at hcur
    rw [hrest'] at hcur'
    exact .some _ rest' rest hw (by omega) hcur' hcur
  · rw [if_neg hon] at hcur hcur'
    exact .none hcur' hcur

/-- **In a group**: the reader stays between its first byte and its last. -/
theorem reads_frame (h : f.Lies de) (b : Bool) (fs : List Frame) :
    ReadsInside build host (readerOf de b (f :: fs)) f.start (f.start + f.group.encode.length) := by
  refine readsInside_of build host (fun cur hcur => ?_) fun mem hmem => ?_
  · rw [h.current] at hcur
    split at hcur
    · rename_i hon
      obtain ⟨⟨rest, hrest⟩, hw, hle, -⟩ := h.child (List.getElem?_eq_getElem hon.2)
      obtain ⟨-, hheader, hdata, hsize⟩ := Element.accessors hw rest
      rw [← Option.some.inj hcur, hrest, hheader, hdata, hsize]
      refine ⟨?_, hle⟩
      simp only [readerOf, Frame.offset]
      omega
    · cases hcur
  · rw [Nat.add_sub_cancel_left] at hmem
    exact sameCurrent_frame h (h.congr hmem) b fs

/-- **Outside of any group** the list is the element. -/
theorem reads_list {t : Element} (hw : t.WellFormed) (hlen : t.encode.length < 2 ^ 31) (tail : List UInt8) (b : Bool) :
    ReadsInside build host (readerOf (t.encode ++ tail) b []) 0 t.encode.length := by
  have hcurrent : ∀ mem, deGetCurrent (readerOf mem b []) = some mem := fun _ => rfl
  refine readsInside_of build host (fun cur hcur => ?_) fun mem hmem => ?_
  · rw [hcurrent] at hcur
    obtain ⟨-, hheader, hdata, hsize⟩ := Element.accessors hw tail
    rw [← Option.some.inj hcur, hheader, hdata, hsize]
    exact ⟨Nat.le_refl 0, by simp [readerOf]⟩
  · have htake : mem.take t.encode.length = t.encode := by
      rw [Nat.sub_zero, slice, slice, List.drop_zero, readerOf, List.drop_zero, List.take_left' rfl] at hmem
      exact hmem
    have hmem' : mem = t.encode ++ mem.drop t.encode.length := by
      conv => lhs; rw [← List.take_append_drop t.encode.length mem, htake]
    exact .some t (mem.drop t.encode.length) tail hw hlen ((hcurrent mem).trans (congrArg some hmem')) (hcurrent _)

end Groups

/-! ## Any walk -/

/-- What an accepted list is: its header announces as many bytes as were received. -/
structure AcceptedList (list : List UInt8) (received : Nat) : Prop where
  size : bteSdpDeGetTotalSize list = received
  short : received < 65536
  there : received ≤ list.length

/-- The list of a reply that the parser accepts as the only one. -/
theorem acceptedList_whole {env : SdpEnv} {data : SdpReqData} {params : List UInt8} {paramLen : Nat}
    (h : AcceptsReply env data params paramLen) (hwhole : data.attrListDe = none ∧ (attrContState params).getD 0 0 = 0)
    (hthere : 2 + attrBytes params ≤ params.length) : AcceptedList (attrIdList params) (attrBytes params) := by
  obtain ⟨-, -, -, hlist⟩ := (acceptsReply_iff ..).1 h
  simp only [ListAgrees, hwhole.1, if_pos hwhole.2] at hlist
  refine ⟨hlist.symm, ?_, by rw [attrIdList, List.length_drop]; omega⟩
  have hlt := beVal_lt (slice params 0 2)
  have hlen : (slice params 0 2).length ≤ 2 := by rw [slice]; exact List.length_take_le ..
  exact Nat.lt_of_lt_of_le hlt (Nat.pow_le_pow_right (by decide) hlen)

/-- The list is an element whose groups, at most 255 in one another, are each filled by the elements in them. -/
def FilledGroups (list : List UInt8) (received : Nat) : Prop :=
  ∃ t : Element, t.WellFormed ∧ t.nesting < 256 ∧ list.take received = t.encode

/-- A group entered lies in the list. -/
theorem stack_within {de : List UInt8} {stack : List Frame} (h : Stack de stack) :
    ∀ f fs, stack = f :: fs → f.start + f.group.encode.length ≤ bteSdpDeGetTotalSize de := by
  induction h with
  | root f h h0 =>
    rintro _ _ ⟨rfl, rfl⟩
    have hsize := h.totalSize
    rw [h0, List.drop_zero] at hsize
    omega
  | push f g fs h hg hs hi ih =>
    rintro _ _ ⟨rfl, rfl⟩
    obtain ⟨-, -, hle, -⟩ := h.lies.child hg
    have hparent := ih f fs rfl
    omega

/-- **Any walk over a list with filled groups reads within the group entered last**, and so within what was received: what
the functions give in the state it comes to lies between the start of that group and its end. -/
theorem reads_inside {list : List UInt8} {received : Nat} (haccepted : AcceptedList list received)
    (hfilled : FilledGroups list received) (ops : List ReaderOp) (hproper : Proper 0 (bteSdpDeReaderInit list) ops)
    (build : Int128Build) (host : Endian) :
    ∃ r lo hi, runReader (bteSdpDeReaderInit list) ops = some r ∧
      lo = (enteredBy (bteSdpDeReaderInit list) [] ops).headD 0 ∧ hi = lo + bteSdpDeGetTotalSize (list.drop lo) ∧
      ReadsInside build host r lo hi ∧ hi ≤ received := by
  obtain ⟨t, hw, hn, htake⟩ := hfilled
  have hbytes : list = t.encode ++ list.drop received := by rw [← htake, List.take_append_drop]
  have hlength : t.encode.length = received := by
    rw [← htake, List.length_take]
    have := haccepted.there
    omega
  have hlen : t.encode.length < 2 ^ 31 := by
    have := haccepted.short
    omega
  obtain ⟨b, stack, hrun, hstack, -, hentered⟩ :=
    run_stack hbytes hw hlen hn stackRule_any ops [] false trivial trivial hproper
  have hentered' : enteredBy (bteSdpDeReaderInit list) [] ops = stack.map Frame.start := hentered
  refine ⟨_, _, _, hrun, rfl, rfl, ?_⟩
  rw [hentered']
  cases stack with
  | nil =>
    have hreads := reads_list build host hw hlen (list.drop received) b
    rw [← hbytes, hlength] at hreads
    simp only [List.map_nil, List.headD_nil, List.drop_zero, Nat.zero_add, haccepted.size]
    exact ⟨hreads, le_rfl⟩
  | cons f fs =>
    have hlies := hstack.1.lies
    have hwithin := stack_within hstack.1 f fs rfl
    rw [haccepted.size] at hwithin
    simp only [List.map_cons, List.headD_cons, hlies.totalSize]
    exact ⟨reads_frame build host hlies b fs, hwithin⟩

/-- The choice in the list is entered and its child read. -/
theorem reads_inside_fullElement :
    AcceptedList fullElement.encode 9 ∧
    runReader (bteSdpDeReaderInit fullElement.encode) [.enter, .next, .next, .enter, .next] =
      some ⟨fullElement.encode, 7, 4, 2, true⟩ ∧
    ReadsInside .native .little ⟨fullElement.encode, 7, 4, 2, true⟩ 4 9 := by
  have haccepted : AcceptedList fullElement.encode 9 := ⟨by decide, by decide, by decide⟩
  have hrun : runReader (bteSdpDeReaderInit fullElement.encode) [.enter, .next, .next, .enter, .next] =
      some ⟨fullElement.encode, 7, 4, 2, true⟩ := by decide
  obtain ⟨r, lo, hi, hr, hlo, hhi, hreads, -⟩ := reads_inside haccepted
    ⟨fullElement, wellFormed_fullElement, by decide, by decide⟩ [.enter, .next, .next, .enter, .next] (by decide)
    .native .little
  obtain rfl := Option.some.inj (hr.symm.trans hrun)
  have hlo' : lo = 4 := hlo.trans (by decide)
  subst hlo'
  have hhi' : hi = 9 := hhi.trans (by decide)
  subst hhi'
  exact ⟨haccepted, hrun, hreads⟩

/-- A list that ends in the header of a string of 16 bytes, and the continuation state behind it. -/
def cutString : List UInt8 := [0x35, 2, 0x25, 0x10, 0]

theorem cutString_accepted : AcceptsReply readyEnv noList (0 :: 4 :: cutString) 7 := ⟨_, _, rfl⟩

/-- The string that the reader gives is none of the bytes received. -/
theorem not_reads_inside :
    AcceptsReply readyEnv noList (0 :: 4 :: cutString) 7 ∧ AcceptedList cutString 4 ∧
    Proper 0 (bteSdpDeReaderInit cutString) [.enter, .next] ∧
    ∀ build host, ¬ ∃ r lo hi, runReader (bteSdpDeReaderInit cutString) [.enter, .next] = some r ∧
      lo = (enteredBy (bteSdpDeReaderInit cutString) [] [.enter, .next]).headD 0 ∧
      hi = lo + bteSdpDeGetTotalSize (cutString.drop lo) ∧ ReadsInside build host r lo hi ∧ hi ≤ 4 := by
  refine ⟨cutString_accepted, acceptedList_whole cutString_accepted ⟨rfl, by decide⟩ (by decide), by decide, ?_⟩
  rintro build host ⟨r, lo, hi, hr, hlo, hhi, hreads, hle⟩
  have hrun : runReader (bteSdpDeReaderInit cutString) [.enter, .next] = some ⟨cutString, 2, 0, 1, true⟩ := by decide
  obtain rfl := Option.some.inj (hr.symm.trans hrun)
  have hstr : bteSdpDeReaderReadStr ⟨cutString, 2, 0, 1, true⟩ = some (cutString.drop 4, 16) := by decide
  obtain ⟨off, -, -, hoff⟩ := hreads.data _ _ (.inr hstr)
  omega

end Bte
