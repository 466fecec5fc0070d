import BtEmbedded.AclMessage
/-!
# BufferTotals — what the total of a list of packets counts (buffer.h)

The head of a list keeps the sum of its packets' sizes.  `bte_buffer_writer_end` counts the packets up to the one the
writer is in; those behind keep their place and their size, and stay uncounted until `bte_buffer_shrink` empties them
(`unused`).  A list that is appended is counted by its first packet.
-/
namespace Bte

open Bytes

/-! ## Shrinking -/

/-- The loop of `bte_buffer_shrink`. -/
def shrinkLoop : Nat → List Packet → List Packet
  | _, [] => []
  | size, p :: ps =>
    let n := if p.size > size then size else p.size
    { p with size := n } :: shrinkLoop (size - n) ps

def bteBufferShrink (buffer : List Packet) (size : Nat) : List Packet :=
  match shrinkLoop size buffer with
  | [] => []
  | h :: t => { h with totalSize := size } :: t

/-! ## Writing through a pointer -/

/-- `bte_buffer_writer_ptr_max`: the position the pointer stands for, and the size of the area. -/
def bteBufferWriterPtrMax (writer : BufferWriter) : Option (Nat × Nat) × BufferWriter :=
  match writer.turn with
  | none => (none, writer)
  | some w => (some (w.posInPacket, w.packet.size - w.posInPacket), w)

def bteBufferWriterAdvance (writer : BufferWriter) (size : Nat) : BufferWriter :=
  { writer with posInPacket := (writer.posInPacket + size) % 65536 }

/-- What a caller does with a writer. -/
inductive WriterCall where
  | write (data : List UInt8)
  /-- Ask for the place of the data, and store it there unless there is none. -/
  | ptrN (data : List UInt8)
  /-- Ask for an area, store what it takes of the data and advance by that. -/
  | ptrMax (data : List UInt8)
deriving DecidableEq

namespace BufferWriter

/-- A call: the bytes it has placed, and the writer then. -/
def call (w : BufferWriter) : WriterCall → List UInt8 × BufferWriter
  | .write data =>
    let r := bteBufferWriterWrite w data
    (if r.1 then data else data.take w.room, r.2)
  | .ptrN data =>
    match bteBufferWriterPtrN w data.length with
    | (none, w) => ([], w)
    | (some pos, w) => (data, { w with packet := w.packet.store pos data })
  | .ptrMax data =>
    match bteBufferWriterPtrMax w with
    | (none, w) => ([], w)
    | (some (pos, size), w) =>
      let data := data.take size
      (data, bteBufferWriterAdvance { w with packet := w.packet.store pos data } data.length)

/-- The calls one after the other. -/
def callAll (w : BufferWriter) : List WriterCall → List UInt8 × BufferWriter
  | [] => ([], w)
  | c :: cs => ((w.call c).1 ++ ((w.call c).2.callAll cs).1, ((w.call c).2.callAll cs).2)

end BufferWriter

/-- What a writer does from `bte_buffer_writer_init` to `bte_buffer_writer_end`. -/
structure Session where
  placed : List UInt8
  buffer : List Packet
  /-- The packets behind the one the writer was in. -/
  left : List Packet

def writeSession (headerSize : Nat) (calls : List WriterCall) (p : Packet) (next : List Packet) : Session :=
  let r := (bteBufferWriterSetHeaderSize (bteBufferWriterInit p next) headerSize).callAll calls
  ⟨r.1, bteBufferWriterEnd r.2, r.2.next⟩

/-- A reader over a whole list, read once. -/
def readBack (headerSize : Nat) : List Packet → Nat → List UInt8
  | [], _ => []
  | p :: next, size => (bteBufferReaderRead (bteBufferReaderSetHeaderSize (bteBufferReaderInit p next) headerSize) size).1

/-! ## Runs -/

/-- `total_size` of a list. -/
def totalSize : List Packet → Nat
  | [] => 0
  | p :: _ => p.totalSize

/-- The sum of the sizes of its packets. -/
def sizeSum (ps : List Packet) : Nat := (ps.map Packet.size).sum

/-- How a list came about.  One that is appended to another belongs to it from then on, and nothing else is made of it. -/
inductive BufferRun where
  | alloc (mem : Nat → Nat → UInt8) (size blockSize : Nat)
  | append (head buffer : BufferRun)
  | shrink (buffer : BufferRun) (size : Nat)
  | session (buffer : BufferRun) (headerSize : Nat) (calls : List WriterCall)

namespace BufferRun

def build : BufferRun → List Packet
  | alloc mem size blockSize => bteBufferAlloc mem size blockSize
  | append head buffer => bteBufferAppend head.build buffer.build
  | shrink buffer size => bteBufferShrink buffer.build size
  | session buffer headerSize calls =>
    match buffer.build with
    | [] => []
    | p :: next => (writeSession headerSize calls p next).buffer

/-- The bytes of the packets that a writer has left behind it. -/
def unused : BufferRun → Nat
  | alloc _ _ _ => 0
  | append head buffer => if head.build = [] then buffer.unused else head.unused
  | shrink _ _ => 0
  | session buffer headerSize calls =>
    match buffer.build with
    | [] => 0
    | p :: next => sizeSum (writeSession headerSize calls p next).left

/-- The sizes fit 16 bits, also that of a block with its header (`bte_buffer_malloc`), no list shrinks to more than its
total,
no header is larger than a packet, what is appended to a list has its bytes in its first packet, and nothing is `NULL`
but the
head of an `append`. -/
def Fits (l : BufferLayout) : BufferRun → Prop
  | alloc _ size blockSize => size < 65536 ∧ 0 < blockSize ∧ l.sizeofBuffer + min size blockSize < 65536
  | append head buffer =>
    head.Fits l ∧ buffer.Fits l ∧ buffer.build ≠ [] ∧ sizeSum head.build + sizeSum buffer.build < 65536 ∧
      (head.build = [] ∨ ∀ p ∈ buffer.build.tail, p.size = 0)
  | shrink buffer size => buffer.Fits l ∧ buffer.build ≠ [] ∧ size ≤ totalSize buffer.build
  | session buffer headerSize _ => buffer.Fits l ∧ buffer.build ≠ [] ∧ ∀ p ∈ buffer.build, headerSize ≤ p.size

end BufferRun

/-! ## One call -/

namespace BufferWriter

/-- A call that places the bytes `bs`: they follow those placed before, and no size changes. -/
structure Places (w w' : BufferWriter) (bs : List UInt8) : Prop where
  wf : w'.Wf
  header : w'.headerSize = w.headerSize
  written : w'.written = w.written ++ bs
  sizes : w'.buffer.map Packet.size = w.buffer.map Packet.size

variable {w w' w'' : BufferWriter} {bs cs : List UInt8}

theorem Places.refl (hw : w.Wf) : w.Places w [] := ⟨hw, rfl, (List.append_nil _).symm, rfl⟩

theorem Places.trans (h : w.Places w' bs) (h' : w'.Places w'' cs) : w.Places w'' (bs ++ cs) :=
  ⟨h'.wf, h'.header.trans h.header, by rw [h'.written, h.written, List.append_assoc], h'.sizes.trans h.sizes⟩

theorem sizes_of_frames {ps qs : List Packet} {hdr : Nat} (h : ps.map (Packet.frame hdr) = qs.map (Packet.frame hdr)) :
    ps.map Packet.size = qs.map Packet.size := by
  have hfst := congrArg (List.map Prod.fst) h
  rwa [List.map_map, List.map_map] at hfst

/-- Moving to the next packet places nothing. -/
theorem turn_places (hw : w.Wf) (h : w.turn = some w') : w.Places w' [] := by
  unfold turn at h
  split at h
  · rename_i hend
    cases hn : w.next with
    | nil =>
      rw [hn] at h
      cases h
    | cons q next =>
      rw [hn] at h
      cases h
      have hnext : ∀ p ∈ q :: next, p.Wf ∧ w.headerSize ≤ p.size := hn ▸ hw.next
      have hheader := hw.header
      have hpos := hw.pos
      refine ⟨⟨?_, (hnext q List.mem_cons_self).1, Nat.le_refl _, (hnext q List.mem_cons_self).2,
        fun p hp => hnext p (List.mem_cons_of_mem q hp)⟩, rfl, ?_, ?_⟩
      · intro p hp
        rcases List.mem_append.1 hp with hp | hp
        · exact hw.before p hp
        · rw [List.mem_singleton.1 hp]
          exact ⟨hw.packet, Nat.le_trans hheader hpos⟩
      · -- the packet left behind is full
        have hfull : w.packet.size = w.posInPacket := Nat.le_antisymm hend hpos
        simp only [written, List.flatMap_append, List.flatMap_cons, List.flatMap_nil, List.append_nil, Nat.sub_self,
          slice, List.take_zero]
        rw [payload_eq_slice, hfull]
        rfl
      · simp [buffer, hn]
  · cases h
    exact .refl hw

/-- Storing in the current packet and moving past what was stored. -/
theorem store_places (hw : w.Wf) {data : List UInt8} (h : w.posInPacket + data.length ≤ w.packet.size) :
    w.Places { w with packet := w.packet.store w.posInPacket data, posInPacket := w.posInPacket + data.length } data := by
  have hheader := hw.header
  refine ⟨⟨hw.before, store_wf hw.packet h, by simp only; omega, h, hw.next⟩, rfl, ?_, ?_⟩
  · simp only [written, store_slice hw.packet hheader h, List.append_assoc]
  · simp [buffer, Packet.store]

theorem ptrN_places (hw : w.Wf) (data : List UInt8) : w.Places (w.call (.ptrN data)).2 (w.call (.ptrN data)).1 := by
  unfold call bteBufferWriterPtrN
  cases ht : w.turn with
  | none => exact .refl hw
  | some w' =>
    have hturn := turn_places hw ht
    by_cases hsize : data.length > w'.packet.size - w'.posInPacket
    · simp only [if_pos hsize]
      exact hturn
    · simp only [if_neg hsize]
      have hpos := hturn.wf.pos
      exact hturn.trans (store_places hturn.wf (by omega))

theorem ptrMax_places (hw : w.Wf) (data : List UInt8) : w.Places (w.call (.ptrMax data)).2 (w.call (.ptrMax data)).1 := by
  unfold call bteBufferWriterPtrMax bteBufferWriterAdvance
  cases ht : w.turn with
  | none => exact .refl hw
  | some w' =>
    have hturn := turn_places hw ht
    have hpos := hturn.wf.pos
    have hsize := hturn.wf.packet.2
    have hlen : (data.take (w'.packet.size - w'.posInPacket)).length ≤ w'.packet.size - w'.posInPacket :=
      List.length_take_le _ _
    simp only
    rw [Nat.mod_eq_of_lt (by omega)]
    exact hturn.trans (store_places hturn.wf (by omega))

theorem call_places (hw : w.Wf) (c : WriterCall) : w.Places (w.call c).2 (w.call c).1 := by
  cases c with
  | write data =>
    obtain ⟨hok, hwf, hheader, hwritten, -, hframes⟩ := write_placed hw data
    refine ⟨hwf, hheader, ?_, sizes_of_frames hframes⟩
    simp only [call]
    rw [hwritten]
    split
    · rename_i h
      rw [List.take_of_length_le (hok.1 h)]
    · rfl
  | ptrN data => exact ptrN_places hw data
  | ptrMax data => exact ptrMax_places hw data

/-- **The calls of a session place their bytes one after the other.** -/
theorem callAll_places : ∀ (calls : List WriterCall) {w : BufferWriter}, w.Wf →
    w.Places (w.callAll calls).2 (w.callAll calls).1
  | [], _, hw => .refl hw
  | c :: cs, _, hw => (call_places hw c).trans (callAll_places cs (call_places hw c).wf)

end BufferWriter

/-! ## Ending a session -/

theorem sizeSum_append (ps qs : List Packet) : sizeSum (ps ++ qs) = sizeSum ps + sizeSum qs := by
  rw [sizeSum, List.map_append, List.sum_append, sizeSum, sizeSum]

theorem sizeSum_cons (p : Packet) (ps : List Packet) : sizeSum (p :: ps) = p.size + sizeSum ps := by
  rw [sizeSum, List.map_cons, List.sum_cons, sizeSum]

theorem totalSize_writerEnd (w : BufferWriter) :
    totalSize (bteBufferWriterEnd w) = (sizeSum w.before + w.posInPacket) % 65536 := by
  unfold bteBufferWriterEnd
  cases w.before <;> rfl

theorem sizeSum_writerEnd (w : BufferWriter) :
    sizeSum (bteBufferWriterEnd w) = sizeSum w.before + w.posInPacket + sizeSum w.next := by
  rw [sizeSum, writerEnd_map w fun _ _ => rfl, ← sizeSum, sizeSum_append, sizeSum_cons, Nat.add_assoc]

/-- A property of packets that does not look at the total. -/
theorem forall_writerEnd {w : BufferWriter} {P : Packet → Prop} (hP : ∀ p t, P { p with totalSize := t } = P p)
    (h : ∀ p ∈ w.before ++ { w.packet with size := w.posInPacket } :: w.next, P p) :
    ∀ p ∈ bteBufferWriterEnd w, P p := by
  have hmap := writerEnd_map w hP
  intro p hp
  have hmem : P p ∈ (bteBufferWriterEnd w).map P := List.mem_map_of_mem hp
  rw [hmap] at hmem
  obtain ⟨q, hq, heq⟩ := List.mem_map.1 hmem
  exact heq ▸ h q hq

/-- The packets that a session ends with can be read with its header. -/
theorem writerEnd_readable {w : BufferWriter} (hw : w.Wf) :
    ∀ p ∈ bteBufferWriterEnd w, p.Wf ∧ w.headerSize ≤ p.size := by
  refine forall_writerEnd (fun _ _ => rfl) fun p hp => ?_
  rcases List.mem_append.1 hp with hp | hp
  · exact hw.before p hp
  · rcases List.mem_cons.1 hp with rfl | hp
    · have hpos := hw.pos
      have hpacket := hw.packet
      exact ⟨⟨Nat.le_trans hpos hpacket.1, Nat.lt_of_le_of_lt hpos hpacket.2⟩, hw.header⟩
    · exact hw.next p hp

theorem readBack_eq {headerSize : Nat} {ps : List Packet} (h : ∀ p ∈ ps, p.Wf ∧ headerSize ≤ p.size) (size : Nat) :
    readBack headerSize ps size = (ps.flatMap (Packet.payload headerSize)).take size := by
  cases ps with
  | nil => exact List.take_nil.symm
  | cons p next =>
    have hwf : (bteBufferReaderSetHeaderSize (bteBufferReaderInit p next) headerSize).Wf :=
      ⟨(h p List.mem_cons_self).1, (h p List.mem_cons_self).2, fun q hq => h q (List.mem_cons_of_mem p hq)⟩
    exact (read_spec hwf size).1

section Sessions

variable {headerSize : Nat} {p : Packet} {next : List Packet} (h : ∀ q ∈ p :: next, q.Wf ∧ headerSize ≤ q.size)
  (calls : List WriterCall)
include h

theorem session_places : (bteBufferWriterSetHeaderSize (bteBufferWriterInit p next) headerSize).Places
    ((bteBufferWriterSetHeaderSize (bteBufferWriterInit p next) headerSize).callAll calls).2
    (writeSession headerSize calls p next).placed := by
  refine BufferWriter.callAll_places calls ⟨?_, (h p List.mem_cons_self).1, Nat.le_refl _, (h p List.mem_cons_self).2,
    fun q hq => h q (List.mem_cons_of_mem p hq)⟩
  intro q hq
  cases hq

/-- **What a session leaves reads back**: the bytes placed, then what the packets left behind hold. -/
theorem readBack_session (size : Nat) :
    readBack headerSize (writeSession headerSize calls p next).buffer size =
      ((writeSession headerSize calls p next).placed ++
        (writeSession headerSize calls p next).left.flatMap (Packet.payload headerSize)).take size := by
  have hplaces := session_places h calls
  have hheader := hplaces.header
  have hread := writerEnd_readable hplaces.wf
  have hstream := writerEnd_stream
    ((bteBufferWriterSetHeaderSize (bteBufferWriterInit p next) headerSize).callAll calls).2
  rw [hheader] at hread hstream
  have hwritten : (bteBufferWriterSetHeaderSize (bteBufferWriterInit p next) headerSize).written = [] := by
    simp [BufferWriter.written, bteBufferWriterSetHeaderSize, bteBufferWriterInit, slice]
  rw [hplaces.written, hwritten, List.nil_append] at hstream
  refine (readBack_eq hread size).trans ?_
  exact congrArg (List.take size) hstream

/-- The total counts everything but what is left behind. -/
theorem totalSize_session (hsum : sizeSum (p :: next) < 65536) :
    totalSize (writeSession headerSize calls p next).buffer + sizeSum (writeSession headerSize calls p next).left =
      sizeSum (writeSession headerSize calls p next).buffer ∧
    sizeSum (writeSession headerSize calls p next).buffer < 65536 := by
  have hplaces := session_places h calls
  have hsizes := congrArg List.sum hplaces.sizes
  have hpos := hplaces.wf.pos
  have hstart : ((bteBufferWriterSetHeaderSize (bteBufferWriterInit p next) headerSize).buffer.map Packet.size).sum =
      sizeSum (p :: next) := rfl
  rw [hstart] at hsizes
  unfold writeSession
  simp only
  generalize ((bteBufferWriterSetHeaderSize (bteBufferWriterInit p next) headerSize).callAll calls).2 = w at *
  have hbuffer : sizeSum w.before + (w.packet.size + sizeSum w.next) = sizeSum (p :: next) := by
    rw [← hsizes, ← sizeSum_cons, ← sizeSum_append]
    rfl
  rw [totalSize_writerEnd, sizeSum_writerEnd, Nat.mod_eq_of_lt (by omega)]
  omega

end Sessions

/-! ## The other operations -/

theorem allocLoop_counted (mem : Nat → Nat → UInt8) (size : Nat) {blockSize : Nat} (hb : 0 < blockSize) :
    ∀ (fuel i remaining : Nat), remaining ≤ fuel → remaining < 65536 →
      sizeSum (allocLoop mem size blockSize fuel i remaining) = remaining ∧
      ∀ p ∈ allocLoop mem size blockSize fuel i remaining, p.Wf ∧ p.totalSize = size
  | 0, _, remaining, h, _ => by
    obtain rfl := Nat.le_zero.1 h
    exact ⟨rfl, fun _ hp => by cases hp⟩
  | fuel + 1, i, remaining, h, hlt => by
    unfold allocLoop
    split
    · rename_i h0
      exact ⟨h0.symm, fun _ hp => by cases hp⟩
    · rename_i h0
      simp only
      generalize hsize : (if remaining > blockSize then blockSize else remaining) = bufferSize
      have hle : 0 < bufferSize ∧ bufferSize ≤ remaining := by
        rw [← hsize]
        split <;> omega
      obtain ⟨hsum, hps⟩ := allocLoop_counted mem size hb fuel (i + 1) (remaining - bufferSize) (by omega) (by omega)
      refine ⟨?_, ?_⟩
      · rw [sizeSum_cons, hsum]
        simp only [bteBufferAllocContiguous]
        omega
      · intro p hp
        rcases List.mem_cons.1 hp with rfl | hp
        · refine ⟨⟨?_, ?_⟩, rfl⟩
          · simp [bteBufferAllocContiguous]
          · simp only [bteBufferAllocContiguous]
            omega
        · exact hps p hp

theorem shrinkLoop_counted : ∀ (ps : List Packet) (size : Nat), (∀ p ∈ ps, p.Wf) →
    sizeSum (shrinkLoop size ps) = min size (sizeSum ps) ∧ ∀ p ∈ shrinkLoop size ps, p.Wf
  | [], size, _ => ⟨(Nat.min_zero size).symm, fun _ hp => by cases hp⟩
  | p :: ps, size, h => by
    unfold shrinkLoop
    simp only
    generalize hn : (if p.size > size then size else p.size) = n
    have hmin : n = min size p.size := by
      rw [← hn]
      split <;> omega
    obtain ⟨hsum, hps⟩ := shrinkLoop_counted ps (size - n) fun q hq => h q (List.mem_cons_of_mem p hq)
    have hp := h p List.mem_cons_self
    refine ⟨?_, ?_⟩
    · rw [sizeSum_cons, sizeSum_cons, hsum]
      simp only
      omega
    · intro q hq
      rcases List.mem_cons.1 hq with rfl | hq
      · exact ⟨Nat.le_trans (by simp only; omega) hp.1, Nat.lt_of_le_of_lt (by simp only; omega) hp.2⟩
      · exact hps q hq

/-- A list whose total counts all its packets but `unused` bytes. -/
structure Counted (ps : List Packet) (unused : Nat) : Prop where
  wf : ∀ p ∈ ps, p.Wf
  total : totalSize ps + unused = sizeSum ps
  bound : sizeSum ps < 65536

theorem counted_bufferAlloc (mem : Nat → Nat → UInt8) {size blockSize : Nat} (hs : size < 65536) (hb : 0 < blockSize) :
    Counted (bteBufferAlloc mem size blockSize) 0 := by
  obtain ⟨hsum, hps⟩ := allocLoop_counted mem size hb size 0 size (Nat.le_refl _) hs
  rw [← bteBufferAlloc] at hsum hps
  refine ⟨fun p hp => (hps p hp).1, ?_, by omega⟩
  cases hbuild : bteBufferAlloc mem size blockSize with
  | nil => rfl
  | cons p ps =>
    rw [hbuild] at hsum hps
    rw [hsum]
    exact (hps p List.mem_cons_self).2

theorem counted_shrink {ps : List Packet} {unused size : Nat} (h : Counted ps unused) (hsize : size ≤ totalSize ps) :
    Counted (bteBufferShrink ps size) 0 := by
  obtain ⟨hsum, hwf⟩ := shrinkLoop_counted ps size h.wf
  have htotal := h.total
  have hbound := h.bound
  rw [Nat.min_eq_left (by omega)] at hsum
  unfold bteBufferShrink
  cases hloop : shrinkLoop size ps with
  | nil =>
    rw [hloop] at hsum
    exact ⟨(fun _ hp => by cases hp), rfl, Nat.zero_lt_succ _⟩
  | cons p rest =>
    rw [hloop] at hsum hwf
    simp only
    have hsum' : sizeSum ({ p with totalSize := size } :: rest) = size := by
      rw [sizeSum_cons] at hsum ⊢
      exact hsum
    refine ⟨?_, hsum'.symm, by omega⟩
    intro q hq
    rcases List.mem_cons.1 hq with rfl | hq
    · exact hwf p List.mem_cons_self
    · exact hwf q (List.mem_cons_of_mem p hq)

/-- A list whose bytes are in its first packet is counted when it is appended. -/
theorem counted_append {ps qs : List Packet} {unused unused' : Nat} (hps : Counted ps unused) (hqs : Counted qs unused')
    (hne : ps ≠ []) (hsum : sizeSum ps + sizeSum qs < 65536) (hfirst : ∀ p ∈ qs.tail, p.size = 0) :
    Counted (bteBufferAppend ps qs) unused := by
  cases ps with
  | nil => exact absurd rfl hne
  | cons p ps =>
    cases qs with
    | nil => exact hps
    | cons q qs =>
      have htail : sizeSum qs = 0 := by
        rw [sizeSum, List.sum_eq_zero_iff_forall_eq_nat]
        intro n hn
        obtain ⟨r, hr, rfl⟩ := List.mem_map.1 hn
        exact hfirst r hr
      have htotal := hps.total
      have hbuild : sizeSum (bteBufferAppend (p :: ps) (q :: qs)) = sizeSum (p :: ps) + sizeSum (q :: qs) := by
        rw [← sizeSum_append]
        rfl
      refine ⟨?_, ?_, hbuild ▸ hsum⟩
      · intro r hr
        rcases List.mem_cons.1 hr with rfl | hr
        · exact hps.wf p List.mem_cons_self
        · rcases List.mem_append.1 hr with hr | hr
          · exact hps.wf r (List.mem_cons_of_mem p hr)
          · exact hqs.wf r hr
      · rw [hbuild]
        rw [sizeSum_cons q] at hsum ⊢
        simp only [bteBufferAppend, totalSize] at htotal ⊢
        rw [Nat.mod_eq_of_lt (by omega)]
        omega

/-! ## Every list -/

namespace BufferRun

theorem counted_build {l : BufferLayout} : ∀ r : BufferRun, r.Fits l → Counted r.build r.unused
  | alloc mem _ _, h => counted_bufferAlloc mem h.1 h.2.1
  | append head buffer, ⟨hhead, hbuffer, _, hsum, hfirst⟩ => by
    have ih := counted_build head hhead
    have ih' := counted_build buffer hbuffer
    unfold build unused
    by_cases hnil : head.build = []
    · rw [if_pos hnil, hnil]
      exact ih'
    · rw [if_neg hnil]
      exact counted_append ih ih' hnil hsum (hfirst.resolve_left hnil)
  | shrink buffer _, ⟨hbuffer, _, hsize⟩ => counted_shrink (counted_build buffer hbuffer) hsize
  | session buffer headerSize calls, ⟨hbuffer, hne, hheader⟩ => by
    have ih := counted_build buffer hbuffer
    unfold build unused
    cases hb : buffer.build with
    | nil => exact absurd hb hne
    | cons p next =>
      rw [hb] at ih hheader
      have hpackets : ∀ q ∈ p :: next, q.Wf ∧ headerSize ≤ q.size := fun q hq => ⟨ih.wf q hq, hheader q hq⟩
      obtain ⟨htotal, hbound⟩ := totalSize_session hpackets calls ih.bound
      exact ⟨fun q hq => (writerEnd_readable (session_places hpackets calls).wf q hq).1, htotal, hbound⟩

section Sessions

variable {l : BufferLayout} {r : BufferRun} {headerSize : Nat} {calls : List WriterCall} {p : Packet} {next : List Packet}
  (h : (r.session headerSize calls).Fits l) (hb : r.build = p :: next)
include h hb

theorem readBack_build (size : Nat) : readBack headerSize (r.session headerSize calls).build size =
    ((writeSession headerSize calls p next).placed ++
      (writeSession headerSize calls p next).left.flatMap (Packet.payload headerSize)).take size := by
  obtain ⟨hr, -, hheader⟩ := h
  have hcounted := r.counted_build hr
  rw [hb] at hcounted hheader
  rw [build, hb]
  exact readBack_session (fun q hq => ⟨hcounted.wf q hq, hheader q hq⟩) calls size

/-- When nothing is left behind, what is placed is all that there is to read. -/
theorem readBack_build_placed (hunused : (r.session headerSize calls).unused = 0) (size : Nat) :
    readBack headerSize (r.session headerSize calls).build size =
      (writeSession headerSize calls p next).placed.take size := by
  rw [unused, hb] at hunused
  have hempty : (writeSession headerSize calls p next).left.flatMap (Packet.payload headerSize) = [] := by
    rw [List.flatMap_eq_nil_iff]
    intro q hq
    have hq0 := List.sum_eq_zero_iff_forall_eq_nat.1 hunused _ (List.mem_map_of_mem hq)
    rw [payload_eq_slice, hq0, Nat.zero_sub]
    rfl
  rw [readBack_build h hb, hempty, List.append_nil]

end Sessions

end BufferRun

/-- **The total of a list**, however it came about, is the sum of the sizes of its packets less the bytes that writers
have left behind them.  After a session the list reads back as the bytes placed, then what is left behind; with nothing
left, as the bytes placed. -/
theorem buffer_totals (l : BufferLayout) :
    (∀ r : BufferRun, r.Fits l → totalSize r.build + r.unused = sizeSum r.build) ∧
    ∀ (r : BufferRun) (headerSize : Nat) (calls : List WriterCall) (p : Packet) (next : List Packet),
      (r.session headerSize calls).Fits l → r.build = p :: next →
        (∀ size, readBack headerSize (r.session headerSize calls).build size =
          ((writeSession headerSize calls p next).placed ++
            (writeSession headerSize calls p next).left.flatMap (Packet.payload headerSize)).take size) ∧
        ((r.session headerSize calls).unused = 0 →
          ∀ size, readBack headerSize (r.session headerSize calls).build size =
            (writeSession headerSize calls p next).placed.take size) :=
  ⟨fun r h => (r.counted_build h).total,
    fun _ _ _ _ _ h hb => ⟨BufferRun.readBack_build h hb, BufferRun.readBack_build_placed h hb⟩⟩

/-- Twenty bytes over packets of ten with a header of two, and a packet of five appended to them. -/
theorem buffer_totals_thirty :
    let run := (BufferRun.alloc (fun _ _ => 0) 30 10).session 2 [.write [1, 2, 3], .ptrN (List.replicate 5 4), .ptrMax
      (List.replicate 12 5), .write [6, 7, 8, 9]]
    totalSize (run.append (.alloc (fun _ _ => 0) 5 10)).build = 31 ∧
    readBack 2 run.build 50 =
      [1, 2, 3, 4, 4, 4, 4, 4, 5, 5, 5, 5, 5, 5, 5, 5, 6, 7, 8, 9] := by
  intro run
  have hrun : run.Fits ⟨32, true⟩ := ⟨⟨by decide, by decide, by decide⟩, by decide +kernel, by decide +kernel⟩
  have happend : (run.append (.alloc (fun _ _ => 0) 5 10)).Fits ⟨32, true⟩ :=
    ⟨hrun, ⟨by decide, by decide, by decide⟩, by decide +kernel, by decide +kernel, .inr (by decide +kernel)⟩
  have htotal := (buffer_totals ⟨32, true⟩).1 _ happend
  have hunused : (run.append (.alloc (fun _ _ => 0) 5 10)).unused = 0 := by decide +kernel
  have hsum : sizeSum (run.append (.alloc (fun _ _ => 0) 5 10)).build = 31 := by decide +kernel
  have hread := ((buffer_totals ⟨32, true⟩).2 (.alloc (fun _ _ => 0) 30 10) 2 _ _ _ hrun rfl).2 (by decide +kernel) 50
  exact ⟨by omega, hread.trans (by decide +kernel)⟩

/-- A writer that stops after twenty bytes of thirty: the last packet is not counted, and it is still read.  A list of
two packets that is appended is counted by its first. -/
theorem not_counted_unused :
    (let run := (BufferRun.alloc (fun _ _ => 0) 30 10).session 0 [.ptrN (List.replicate 11 1), .ptrN
      (List.replicate 10 1), .ptrN [2], .ptrN (List.replicate 10 3), .ptrN (List.replicate 9 4)]
    totalSize run.build = 20 ∧ sizeSum run.build = 30 ∧
    readBack 0 run.build 50 ≠ List.replicate 10 1 ++ [2] ++ List.replicate 9 4) ∧
    totalSize (BufferRun.append (.alloc (fun _ _ => 0) 10 10) (.alloc (fun _ _ => 0) 20 10)).build = 20 ∧
    sizeSum (BufferRun.append (.alloc (fun _ _ => 0) 10 10) (.alloc (fun _ _ => 0) 20 10)).build = 30 := by
  decide +kernel

end Bte
