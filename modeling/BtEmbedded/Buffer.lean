import BtEmbedded.Lib.Bytes
/-!
# Buffer — packet lists, readers and writers (buffer.h)

A `BteBuffer` is the list of packets from its head on.  A packet has the bytes it was allocated with and a `size`, which
only ever shrinks.  Sizes are 16-bit in the source; here they are naturals, reduced where an assignment could wrap.  The
block of a packet is as large as `bte_buffer_malloc` makes it (`BufferLayout.Holds`).

A reader or writer holds a packet and a position in it; the packets after it are `next`, those a writer has left behind
are `before`.  The bytes a reader has still to yield are `rest`, those a writer has placed are `written`, and every
operation is specified by what it does to these (`read_spec`, `readN_spec`, `write_spec`).

A packet shorter than the header would make the source copy a negative number of bytes; here it copies none.
-/
namespace Bte

open Bytes

/-! ## Packets -/

structure Packet where
  totalSize : Nat
  size : Nat
  data : List UInt8
deriving DecidableEq

namespace Packet

/-- The bytes in use. -/
def bytes (p : Packet) : List UInt8 := p.data.take p.size

/-- The bytes after a header. -/
def payload (headerSize : Nat) (p : Packet) : List UInt8 := p.bytes.drop headerSize

/-- The size is a 16-bit number and within what was allocated. -/
def Wf (p : Packet) : Prop := p.size ≤ p.data.length ∧ p.size < 65536

instance (p : Packet) : Decidable p.Wf := inferInstanceAs (Decidable (_ ∧ _))

/-- What writing behind the header leaves alone. -/
def frame (headerSize : Nat) (p : Packet) : Nat × Nat × List UInt8 := (p.size, p.data.length, p.data.take headerSize)

end Packet

/-- The header of a `BteBuffer` in a build, and whether its buffers are aligned to 32 bytes. -/
structure BufferLayout where
  sizeofBuffer : Nat
  aligned : Bool
deriving DecidableEq

def bteBufferAlignmentSize : Nat := 32

/-- `bte_buffer_malloc`: how many bytes are allocated; its parameter has 16 bits. -/
def bteBufferMalloc (l : BufferLayout) (size : Nat) : Nat :=
  if l.aligned then (size % 65536 + bteBufferAlignmentSize - 1) / bteBufferAlignmentSize * bteBufferAlignmentSize
  else size % 65536

/-- The block that is allocated for a packet holds its header and its bytes. -/
def BufferLayout.Holds (l : BufferLayout) (p : Packet) : Prop :=
  l.sizeofBuffer + p.size ≤ bteBufferMalloc l (l.sizeofBuffer + p.size)

/-- `bte_buffer_alloc_contiguous`; `mem` is what the memory behind the header holds.  The packet has the size that is asked
for, also where the block does not hold it: the source then reads and writes past the end of the block.  A result about
what a packet carries has `Holds` with it. -/
def bteBufferAllocContiguous (mem : Nat → UInt8) (size : Nat) : Packet := ⟨size, size, (List.range size).map mem⟩

/-- The loop of `bte_buffer_alloc`: `i` counts the packets, and there are at most `remaining` more. -/
def allocLoop (mem : Nat → Nat → UInt8) (size blockSize : Nat) : Nat → Nat → Nat → List Packet
  | 0, _, _ => []
  | fuel + 1, i, remaining =>
    if remaining = 0 then []
    else
      let bufferSize := if remaining > blockSize then blockSize else remaining
      { bteBufferAllocContiguous (mem i) bufferSize with totalSize := size } ::
        allocLoop mem size blockSize fuel (i + 1) (remaining - bufferSize)

def bteBufferAlloc (mem : Nat → Nat → UInt8) (size blockSize : Nat) : List Packet :=
  allocLoop mem size blockSize size 0 size

def bteBufferAppend (head buffer : List Packet) : List Packet :=
  match head, buffer with
  | [], buffer => buffer
  | h :: t, [] => h :: t
  | h :: t, b :: bs => { h with totalSize := (h.totalSize + b.size) % 65536 } :: (t ++ b :: bs)

/-! ## Reading -/

structure BufferReader where
  packet : Packet
  next : List Packet
  posInPacket : Nat
  headerSize : Nat
deriving DecidableEq

def bteBufferReaderInit (packet : Packet) (next : List Packet) : BufferReader := ⟨packet, next, 0, 0⟩

def bteBufferReaderSetHeaderSize (reader : BufferReader) (size : Nat) : BufferReader :=
  { reader with headerSize := size, posInPacket := size }

def readLoop (headerSize : Nat) (packet : Packet) (next : List Packet) (pos size : Nat) : List UInt8 × BufferReader :=
  if size = 0 then ([], ⟨packet, next, pos, headerSize⟩)
  else if pos + size ≤ packet.size then (slice packet.data pos size, ⟨packet, next, pos + size, headerSize⟩)
  else
    let readLen := packet.size - pos
    match next with
    | [] => (slice packet.data pos readLen, ⟨packet, [], pos + readLen, headerSize⟩)
    | q :: next =>
      let r := readLoop headerSize q next headerSize (size - readLen)
      (slice packet.data pos readLen ++ r.1, r.2)

/-- `bte_buffer_reader_read`: the bytes copied, whose number it returns. -/
def bteBufferReaderRead (reader : BufferReader) (size : Nat) : List UInt8 × BufferReader :=
  readLoop reader.headerSize reader.packet reader.next reader.posInPacket size

def bteBufferReaderAdvance (reader : BufferReader) (size : Nat) : Nat × BufferReader :=
  ((bteBufferReaderRead reader size).1.length, (bteBufferReaderRead reader size).2)

/-- Move to the next packet at the end of one. -/
def BufferReader.turn (reader : BufferReader) : Option BufferReader :=
  if reader.posInPacket ≥ reader.packet.size then
    match reader.next with
    | q :: next => some ⟨q, next, reader.headerSize, reader.headerSize⟩
    | [] => none
  else some reader

/-- `bte_buffer_reader_read_n`: the bytes at the pointer it returns, or nothing for `NULL`. -/
def bteBufferReaderReadN (reader : BufferReader) (size : Nat) : Option (List UInt8) × BufferReader :=
  match reader.turn with
  | none => (none, reader)
  | some r =>
    if size > r.packet.size - r.posInPacket then (none, r)
    else (some (slice r.packet.data r.posInPacket size), { r with posInPacket := r.posInPacket + size })

namespace BufferReader

/-- The bytes still to be read. -/
def rest (r : BufferReader) : List UInt8 := r.packet.bytes.drop r.posInPacket ++ r.next.flatMap (Packet.payload r.headerSize)

structure Wf (r : BufferReader) : Prop where
  packet : r.packet.Wf
  pos : r.posInPacket ≤ r.packet.size
  next : ∀ q ∈ r.next, q.Wf ∧ r.headerSize ≤ q.size

end BufferReader

instance (r : BufferReader) : Decidable r.Wf :=
  decidable_of_iff (r.packet.Wf ∧ r.posInPacket ≤ r.packet.size ∧ ∀ q ∈ r.next, q.Wf ∧ r.headerSize ≤ q.size)
    ⟨fun h => ⟨h.1, h.2.1, h.2.2⟩, fun h => ⟨h.packet, h.pos, h.next⟩⟩

theorem holds_iff (l : BufferLayout) (p : Packet) : l.Holds p ↔ l.sizeofBuffer + p.size < 65536 := by
  unfold BufferLayout.Holds bteBufferMalloc bteBufferAlignmentSize
  generalize l.sizeofBuffer + p.size = n
  split <;> omega

/-- Packets of one size lie in blocks that hold them, or none does. -/
theorem forall_holds_iff (l : BufferLayout) {ps : List Packet} {size : Nat} (hne : ps ≠ []) (hps : ∀ p ∈ ps, p.size = size) :
    (∀ p ∈ ps, l.Holds p) ↔ l.sizeofBuffer + size < 65536 := by
  constructor
  · intro h
    obtain ⟨p, hp⟩ := List.exists_mem_of_ne_nil ps hne
    exact hps p hp ▸ (holds_iff l p).1 (h p hp)
  · intro h p hp
    exact (holds_iff l p).2 (by rw [hps p hp]; exact h)

theorem slice_eq_bytes {p : Packet} {pos n : Nat} (h : pos + n ≤ p.size) :
    slice p.data pos n = (p.bytes.drop pos).take n := by
  simp only [slice, Packet.bytes, List.drop_take, List.take_take]
  rw [Nat.min_eq_left (by omega)]

theorem length_bytes {p : Packet} (hp : p.Wf) : p.bytes.length = p.size := by
  simp only [Packet.bytes, List.length_take]
  have := hp.1
  omega

theorem readLoop_spec (headerSize : Nat) :
    ∀ (next : List Packet) (packet : Packet) (pos size : Nat), BufferReader.Wf ⟨packet, next, pos, headerSize⟩ →
      (readLoop headerSize packet next pos size).1 = (BufferReader.rest ⟨packet, next, pos, headerSize⟩).take size ∧
      (readLoop headerSize packet next pos size).2.rest = (BufferReader.rest ⟨packet, next, pos, headerSize⟩).drop size ∧
      (readLoop headerSize packet next pos size).2.Wf ∧
      (readLoop headerSize packet next pos size).2.headerSize = headerSize
  | next, packet, pos, size, hw => by
    have hl : packet.bytes.length = packet.size := length_bytes hw.packet
    have hpos : pos ≤ packet.size := hw.pos
    unfold readLoop
    by_cases h0 : size = 0
    · subst h0
      simp [hw]
    · rw [if_neg h0]
      by_cases h1 : pos + size ≤ packet.size
      · rw [if_pos h1]
        refine ⟨?_, ?_, ⟨hw.packet, h1, hw.next⟩, rfl⟩
        · rw [slice_eq_bytes h1, BufferReader.rest, List.take_append_of_le_length]
          simp only [List.length_drop]; omega
        · rw [BufferReader.rest, BufferReader.rest, List.drop_append_of_le_length, List.drop_drop]
          simp only [List.length_drop]; omega
      · rw [if_neg h1]
        have hs : slice packet.data pos (packet.size - pos) = packet.bytes.drop pos := by
          rw [slice_eq_bytes (by omega), List.take_of_length_le]
          simp only [List.length_drop]; omega
        have hlen : (packet.bytes.drop pos).length = packet.size - pos := by simp only [List.length_drop]; omega
        cases next with
        | nil =>
          refine ⟨?_, ?_, ⟨hw.packet, by simp only; omega, hw.next⟩, rfl⟩
          · simp only [BufferReader.rest, List.flatMap_nil, List.append_nil, hs]
            rw [List.take_of_length_le (by omega)]
          · simp only [BufferReader.rest, List.flatMap_nil, List.append_nil, List.drop_drop]
            rw [List.drop_of_length_le (by omega), List.drop_of_length_le (by omega)]
        | cons q next =>
          have hq := hw.next q List.mem_cons_self
          have hw' : BufferReader.Wf ⟨q, next, headerSize, headerSize⟩ :=
            ⟨hq.1, hq.2, fun p hp => hw.next p (List.mem_cons_of_mem q hp)⟩
          obtain ⟨hb, hr, hwf, hh⟩ := readLoop_spec headerSize next q headerSize (size - (packet.size - pos)) hw'
          have hrest : BufferReader.rest ⟨packet, q :: next, pos, headerSize⟩ =
              packet.bytes.drop pos ++ BufferReader.rest ⟨q, next, headerSize, headerSize⟩ := by
            simp only [BufferReader.rest, List.flatMap_cons, Packet.payload]
          have hsplit : size = (packet.bytes.drop pos).length + (size - (packet.size - pos)) := by omega
          refine ⟨?_, ?_, hwf, hh⟩
          · rw [hrest]
            simp only
            rw [hb, hs]
            conv_rhs => rw [hsplit, List.take_append, List.take_of_length_le (by omega)]
            simp
          · rw [hrest]
            simp only
            rw [hr]
            conv_rhs => rw [hsplit, List.drop_append, List.drop_of_length_le (by omega)]
            simp

/-- **A read yields the next bytes and moves past them.** -/
theorem read_spec {r : BufferReader} (hw : r.Wf) (size : Nat) :
    (bteBufferReaderRead r size).1 = r.rest.take size ∧ (bteBufferReaderRead r size).2.rest = r.rest.drop size ∧
    (bteBufferReaderRead r size).2.Wf ∧ (bteBufferReaderRead r size).2.headerSize = r.headerSize :=
  readLoop_spec r.headerSize r.next r.packet r.posInPacket size hw

/-- At the end of a packet the next one has all that remains. -/
theorem turn_spec {r r' : BufferReader} (hw : r.Wf) (h : r.turn = some r') :
    r'.rest = r.rest ∧ r'.Wf ∧ r'.headerSize = r.headerSize := by
  unfold BufferReader.turn at h
  split at h
  · rename_i hend
    cases hn : r.next with
    | nil => rw [hn] at h; cases h
    | cons q next =>
      rw [hn] at h
      cases h
      have hq := hw.next q (by rw [hn]; exact List.mem_cons_self)
      refine ⟨?_, ⟨hq.1, hq.2, fun p hp => hw.next p (by rw [hn]; exact List.mem_cons_of_mem q hp)⟩, rfl⟩
      have hl : r.packet.bytes.length = r.packet.size := length_bytes hw.packet
      rw [BufferReader.rest, BufferReader.rest, hn,
          List.drop_of_length_le (by omega : r.packet.bytes.length ≤ r.posInPacket)]
      simp [Packet.payload]
  · cases h
    exact ⟨rfl, hw, rfl⟩

/-- **A contiguous read that succeeds yields the next bytes.** -/
theorem readN_spec {r : BufferReader} (hw : r.Wf) {size : Nat} {bs : List UInt8}
    (h : (bteBufferReaderReadN r size).1 = some bs) :
    size ≤ r.rest.length ∧ bs = r.rest.take size ∧ (bteBufferReaderReadN r size).2.rest = r.rest.drop size ∧
    (bteBufferReaderReadN r size).2.Wf ∧ (bteBufferReaderReadN r size).2.headerSize = r.headerSize := by
  unfold bteBufferReaderReadN at h ⊢
  cases ht : r.turn with
  | none => rw [ht] at h; cases h
  | some r' =>
    obtain ⟨hrest, hw', hh⟩ := turn_spec hw ht
    rw [ht] at h
    simp only at h ⊢
    by_cases hs : size > r'.packet.size - r'.posInPacket
    · rw [if_pos hs] at h; cases h
    · rw [if_neg hs] at h
      simp only [if_neg hs]
      have hl : r'.packet.bytes.length = r'.packet.size := length_bytes hw'.packet
      have hp := hw'.pos
      have hle : size ≤ (r'.packet.bytes.drop r'.posInPacket).length := by simp only [List.length_drop]; omega
      cases h
      rw [← hrest]
      refine ⟨?_, ?_, ?_, ⟨hw'.packet, by simp only; omega, hw'.next⟩, hh⟩
      · rw [BufferReader.rest, List.length_append]; omega
      · rw [slice_eq_bytes (by omega), BufferReader.rest, List.take_append_of_le_length hle]
      · rw [BufferReader.rest, BufferReader.rest, List.drop_append_of_le_length hle, List.drop_drop]

/-! ## Writing -/

structure BufferWriter where
  before : List Packet
  packet : Packet
  next : List Packet
  posInPacket : Nat
  headerSize : Nat
deriving DecidableEq

/-- The list the writer works on. -/
def BufferWriter.buffer (w : BufferWriter) : List Packet := w.before ++ w.packet :: w.next

theorem BufferWriter.buffer_ne_nil (w : BufferWriter) : w.buffer ≠ [] := by
  simp [buffer]

def bteBufferWriterInit (packet : Packet) (next : List Packet) : BufferWriter := ⟨[], packet, next, 0, 0⟩

def bteBufferWriterSetHeaderSize (writer : BufferWriter) (size : Nat) : BufferWriter :=
  { writer with headerSize := size, posInPacket := size }

/-- `memcpy` into a packet. -/
def Packet.store (p : Packet) (pos : Nat) (data : List UInt8) : Packet := { p with data := blit p.data pos data }

def writeLoop (headerSize : Nat) (before : List Packet) (packet : Packet) (next : List Packet) (pos : Nat)
    (data : List UInt8) : Bool × BufferWriter :=
  if data.length = 0 then (true, ⟨before, packet, next, pos, headerSize⟩)
  else if pos + data.length ≤ packet.size then
    (true, ⟨before, packet.store pos data, next, pos + data.length, headerSize⟩)
  else
    let writeLen := packet.size - pos
    let packet := packet.store pos (data.take writeLen)
    match next with
    | [] => (false, ⟨before, packet, [], pos + writeLen, headerSize⟩)
    | q :: next => writeLoop headerSize (before ++ [packet]) q next headerSize (data.drop writeLen)

def bteBufferWriterWrite (writer : BufferWriter) (data : List UInt8) : Bool × BufferWriter :=
  writeLoop writer.headerSize writer.before writer.packet writer.next writer.posInPacket data

/-- Move to the next packet at the end of one. -/
def BufferWriter.turn (writer : BufferWriter) : Option BufferWriter :=
  if writer.posInPacket ≥ writer.packet.size then
    match writer.next with
    | q :: next => some ⟨writer.before ++ [writer.packet], q, next, writer.headerSize, writer.headerSize⟩
    | [] => none
  else some writer

/-- `bte_buffer_writer_ptr_n`: the position in the current packet that the pointer stands for. -/
def bteBufferWriterPtrN (writer : BufferWriter) (size : Nat) : Option Nat × BufferWriter :=
  match writer.turn with
  | none => (none, writer)
  | some w =>
    if size > w.packet.size - w.posInPacket then (none, w)
    else (some w.posInPacket, { w with posInPacket := w.posInPacket + size })

def bteBufferWriterEnd (writer : BufferWriter) : List Packet :=
  match writer.before ++ { writer.packet with size := writer.posInPacket } :: writer.next with
  | [] => []
  | h :: t => { h with totalSize := ((writer.before.map Packet.size).sum + writer.posInPacket) % 65536 } :: t

namespace BufferWriter

/-- The bytes placed so far. -/
def written (w : BufferWriter) : List UInt8 :=
  w.before.flatMap (Packet.payload w.headerSize) ++ slice w.packet.data w.headerSize (w.posInPacket - w.headerSize)

/-- How many more bytes there is room for. -/
def room (w : BufferWriter) : Nat := (w.packet.size - w.posInPacket) + (w.next.map fun q => q.size - w.headerSize).sum

/-- Positions are behind the header and inside the packets. -/
structure Wf (w : BufferWriter) : Prop where
  before : ∀ q ∈ w.before, q.Wf ∧ w.headerSize ≤ q.size
  packet : w.packet.Wf
  header : w.headerSize ≤ w.posInPacket
  pos : w.posInPacket ≤ w.packet.size
  next : ∀ q ∈ w.next, q.Wf ∧ w.headerSize ≤ q.size

end BufferWriter

theorem store_slice {p : Packet} (hp : p.Wf) {hdr pos : Nat} {data : List UInt8} (hh : hdr ≤ pos)
    (hd : pos + data.length ≤ p.size) :
    slice (p.store pos data).data hdr (pos + data.length - hdr) = slice p.data hdr (pos - hdr) ++ data := by
  have hl := hp.1
  have hcut : (blit p.data pos data).take (pos + data.length) = p.data.take pos ++ data := by
    rw [blit, List.take_append_of_le_length (by simp; omega), List.take_of_length_le (by simp)]
  have hs : ∀ l : List UInt8, ∀ n, slice l hdr (n - hdr) = (l.take n).drop hdr := by
    intro l n
    rw [slice, List.drop_take]
  rw [hs, hs, Packet.store, hcut, List.drop_append_of_le_length]
  simp only [List.length_take]
  omega

theorem store_frame {p : Packet} (hp : p.Wf) {hdr pos : Nat} {data : List UInt8} (hh : hdr ≤ pos)
    (hd : pos + data.length ≤ p.size) : (p.store pos data).frame hdr = p.frame hdr := by
  have hl := hp.1
  have htake : (blit p.data pos data).take hdr = p.data.take hdr := by
    have h : (blit p.data pos data).take pos = p.data.take pos := take_blit (by omega)
    have h' := congrArg (List.take hdr) h
    rwa [List.take_take, List.take_take, Nat.min_eq_left hh] at h'
  simp only [Packet.frame, Packet.store, htake, length_blit (show pos + data.length ≤ p.data.length by omega)]

theorem store_wf {p : Packet} (hp : p.Wf) {pos : Nat} {data : List UInt8} (hd : pos + data.length ≤ p.size) :
    (p.store pos data).Wf := by
  have hl := hp.1
  refine ⟨?_, hp.2⟩
  simp only [Packet.store]
  rw [length_blit (by omega)]
  exact hl

/-- The payload of a packet filled to its end. -/
theorem payload_eq_slice (hdr : Nat) (p : Packet) : p.payload hdr = slice p.data hdr (p.size - hdr) := by
  rw [Packet.payload, Packet.bytes, slice, List.drop_take]

theorem writeLoop_spec (headerSize : Nat) :
    ∀ (next before : List Packet) (packet : Packet) (pos : Nat) (data : List UInt8),
      BufferWriter.Wf ⟨before, packet, next, pos, headerSize⟩ →
      ((writeLoop headerSize before packet next pos data).1 = true ↔
        data.length ≤ BufferWriter.room ⟨before, packet, next, pos, headerSize⟩) ∧
      (writeLoop headerSize before packet next pos data).2.Wf ∧
      (writeLoop headerSize before packet next pos data).2.headerSize = headerSize ∧
      (writeLoop headerSize before packet next pos data).2.written =
        BufferWriter.written ⟨before, packet, next, pos, headerSize⟩ ++
          data.take (BufferWriter.room ⟨before, packet, next, pos, headerSize⟩) ∧
      (writeLoop headerSize before packet next pos data).2.room =
        BufferWriter.room ⟨before, packet, next, pos, headerSize⟩ - data.length ∧
      (writeLoop headerSize before packet next pos data).2.buffer.map (Packet.frame headerSize) =
        (before ++ packet :: next).map (Packet.frame headerSize)
  | next, before, packet, pos, data, hw => by
    have hp : packet.Wf := hw.packet
    have hh : headerSize ≤ pos := hw.header
    have hpos : pos ≤ packet.size := hw.pos
    unfold writeLoop
    by_cases h0 : data.length = 0
    · rw [if_pos h0, List.length_eq_zero_iff.1 h0]
      exact ⟨by simp, hw, rfl, by simp, by simp, rfl⟩
    · rw [if_neg h0]
      by_cases h1 : pos + data.length ≤ packet.size
      · have hroom : data.length ≤ BufferWriter.room ⟨before, packet, next, pos, headerSize⟩ := by
          simp only [BufferWriter.room]
          omega
        rw [if_pos h1]
        refine ⟨iff_of_true rfl hroom, ⟨hw.before, store_wf hp h1, by simp only; omega, h1, hw.next⟩, rfl, ?_, ?_, ?_⟩
        · rw [List.take_of_length_le hroom]
          simp only [BufferWriter.written, store_slice hp hh h1, List.append_assoc]
        · simp only [BufferWriter.room, Packet.store]; omega
        · simp only [BufferWriter.buffer, List.map_append, List.map_cons, store_frame hp hh h1]
      · rw [if_neg h1]
        have hlen : (data.take (packet.size - pos)).length = packet.size - pos := by
          rw [List.length_take]; omega
        have hfit : pos + (data.take (packet.size - pos)).length ≤ packet.size := by omega
        have hslice := store_slice hp hh hfit
        cases next with
        | nil =>
          have hroom : BufferWriter.room ⟨before, packet, [], pos, headerSize⟩ = packet.size - pos := by
            simp only [BufferWriter.room, List.map_nil, List.sum_nil, Nat.add_zero]
          simp only [hroom]
          have hpos' : pos + (packet.size - pos) ≤ packet.size := by omega
          refine ⟨iff_of_false (by simp) (by omega), ⟨hw.before, store_wf hp hfit, by simp only; omega, hpos', hw.next⟩,
            trivial, ?_, ?_, ?_⟩
          · rw [hlen] at hslice
            simp only [BufferWriter.written, hslice, List.append_assoc]
          · simp only [BufferWriter.room, Packet.store, List.map_nil, List.sum_nil]
            omega
          · simp only [BufferWriter.buffer, List.map_append, List.map_cons, store_frame hp hh hfit]
        | cons q next =>
          have hq := hw.next q List.mem_cons_self
          have hw' : BufferWriter.Wf ⟨before ++ [packet.store pos (data.take (packet.size - pos))], q, next, headerSize,
              headerSize⟩ := by
            refine ⟨?_, hq.1, Nat.le_refl _, hq.2, fun p hp => hw.next p (List.mem_cons_of_mem q hp)⟩
            intro p hmem
            rcases List.mem_append.1 hmem with hmem | hmem
            · exact hw.before p hmem
            · rw [List.mem_singleton.1 hmem]
              exact ⟨store_wf hp hfit, by simp only [Packet.store]; omega⟩
          have hroom : BufferWriter.room ⟨before, packet, q :: next, pos, headerSize⟩ = (packet.size - pos) +
              BufferWriter.room ⟨before ++ [packet.store pos (data.take (packet.size - pos))], q, next, headerSize,
                headerSize⟩ := by
            simp only [BufferWriter.room, List.map_cons, List.sum_cons]
          obtain ⟨hok, hwf, hhdr, hwr, hrm, hfr⟩ :=
            writeLoop_spec headerSize next _ q headerSize (data.drop (packet.size - pos)) hw'
          rw [hroom]
          refine ⟨?_, hwf, hhdr, ?_, ?_, ?_⟩
          · simp only
            rw [hok, List.length_drop]
            omega
          · -- the packet left behind is full, so its payload is what was placed in it
            rw [hlen, show pos + (packet.size - pos) - headerSize = packet.size - headerSize by omega] at hslice
            have hpay : (packet.store pos (data.take (packet.size - pos))).payload headerSize =
                slice packet.data headerSize (pos - headerSize) ++ data.take (packet.size - pos) := by
              rw [payload_eq_slice]
              exact hslice
            simp only
            rw [hwr, List.take_add]
            simp only [BufferWriter.written, List.flatMap_append, List.flatMap_cons, List.flatMap_nil, List.append_nil,
              Nat.sub_self, hpay, slice, List.take_zero, List.append_assoc]
          · simp only
            rw [hrm, List.length_drop]
            omega
          · simp only
            rw [hfr]
            simp only [List.map_append, List.map_cons, List.append_assoc, List.singleton_append,
              store_frame hp hh hfit]

/-- A write places what there is room for, and succeeds if that is all. -/
theorem write_placed {w : BufferWriter} (hw : w.Wf) (data : List UInt8) :
    ((bteBufferWriterWrite w data).1 = true ↔ data.length ≤ w.room) ∧ (bteBufferWriterWrite w data).2.Wf ∧
    (bteBufferWriterWrite w data).2.headerSize = w.headerSize ∧
    (bteBufferWriterWrite w data).2.written = w.written ++ data.take w.room ∧
    (bteBufferWriterWrite w data).2.room = w.room - data.length ∧
    (bteBufferWriterWrite w data).2.buffer.map (Packet.frame w.headerSize) = w.buffer.map (Packet.frame w.headerSize) :=
  writeLoop_spec w.headerSize w.next w.before w.packet w.posInPacket data hw

/-- **A write that there is room for succeeds, adds its bytes and touches no header.** -/
theorem write_spec {w : BufferWriter} (hw : w.Wf) {data : List UInt8} (h : data.length ≤ w.room) :
    (bteBufferWriterWrite w data).1 = true ∧ (bteBufferWriterWrite w data).2.Wf ∧
    (bteBufferWriterWrite w data).2.headerSize = w.headerSize ∧
    (bteBufferWriterWrite w data).2.written = w.written ++ data ∧
    (bteBufferWriterWrite w data).2.room + data.length = w.room ∧
    (bteBufferWriterWrite w data).2.buffer.map (Packet.frame w.headerSize) = w.buffer.map (Packet.frame w.headerSize) := by
  obtain ⟨hok, hwf, hhdr, hwr, hrm, hfr⟩ := write_placed hw data
  rw [List.take_of_length_le h] at hwr
  exact ⟨hok.2 h, hwf, hhdr, hwr, by omega, hfr⟩

end Bte
