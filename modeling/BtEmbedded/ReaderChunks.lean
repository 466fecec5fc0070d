import BtEmbedded.Buffer
/-!
# ReaderChunks — a reader read in any pieces (buffer.h)

`bte_buffer_reader_read` and `bte_buffer_reader_advance` move one cursor.  Where it stands after some calls is told by
the number of bytes they returned, and neither the sizes asked for nor the ends of the packets show in the bytes.
-/
namespace Bte

/-- A call on a reader, with the size it asks for. -/
inductive ReaderCall where
  | read (size : Nat)
  | advance (size : Nat)
deriving DecidableEq

namespace ReaderCall

def size : ReaderCall → Nat
  | read n => n
  | advance n => n

/-- The call with a place for the bytes. -/
def asRead (c : ReaderCall) : ReaderCall := .read c.size

end ReaderCall

/-- The bytes a call copied to the caller, and what it returned. -/
structure ReaderAnswer where
  data : List UInt8
  count : Nat
deriving DecidableEq

namespace BufferReader

def call (r : BufferReader) : ReaderCall → ReaderAnswer × BufferReader
  | .read n => (⟨(bteBufferReaderRead r n).1, (bteBufferReaderRead r n).1.length⟩, (bteBufferReaderRead r n).2)
  | .advance n => (⟨[], (bteBufferReaderAdvance r n).1⟩, (bteBufferReaderAdvance r n).2)

/-- The calls one after the other: their answers, and the reader then. -/
def calls (r : BufferReader) : List ReaderCall → List ReaderAnswer × BufferReader
  | [] => ([], r)
  | c :: cs => ((r.call c).1 :: ((r.call c).2.calls cs).1, ((r.call c).2.calls cs).2)

/-- How far the answered calls have come. -/
def moved (answers : List ReaderAnswer) : Nat := (answers.map ReaderAnswer.count).sum

theorem call_asRead (r : BufferReader) (c : ReaderCall) :
    (r.call c.asRead).2 = (r.call c).2 ∧ (r.call c.asRead).1.count = (r.call c).1.count := by
  cases c with
  | read n => exact ⟨rfl, rfl⟩
  | advance n => exact ⟨rfl, rfl⟩

section Step

variable {r : BufferReader} (hr : r.Wf) (c : ReaderCall)
include hr

theorem call_wf : (r.call c).2.Wf := by
  cases c with
  | read n => exact (read_spec hr n).2.2.1
  | advance n => exact (read_spec hr n).2.2.1

theorem call_count : (r.call c).1.count = min c.size r.rest.length := by
  have hread : ∀ n, (bteBufferReaderRead r n).1.length = min n r.rest.length := by
    intro n
    rw [(read_spec hr n).1, List.length_take]
  cases c with
  | read n => exact hread n
  | advance n => exact hread n

theorem call_rest : (r.call c).2.rest = r.rest.drop (r.call c).1.count := by
  have hdrop : (r.call c).2.rest = r.rest.drop c.size := by
    cases c with
    | read n => exact (read_spec hr n).2.1
    | advance n => exact (read_spec hr n).2.1
  rw [hdrop, call_count hr c]
  rcases Nat.le_total c.size r.rest.length with h | h
  · rw [Nat.min_eq_left h]
  · rw [Nat.min_eq_right h, List.drop_length, List.drop_of_length_le h]

omit c in
theorem read_data (n : Nat) : (r.call (.read n)).1.data = r.rest.take n := (read_spec hr n).1

end Step

theorem calls_spec : ∀ (cs : List ReaderCall) {r : BufferReader}, r.Wf →
    (r.calls cs).2.Wf ∧ (r.calls cs).2.rest = r.rest.drop (moved (r.calls cs).1)
  | [], _, hr => ⟨hr, rfl⟩
  | c :: cs, r, hr => by
    obtain ⟨hwf, hrest⟩ := calls_spec cs (call_wf hr c)
    refine ⟨hwf, ?_⟩
    simp only [calls, moved, List.map_cons, List.sum_cons]
    rw [hrest, call_rest hr c, List.drop_drop, moved]

/-- Calls with and without a place for the bytes move a reader alike. -/
theorem calls_asRead : ∀ (cs : List ReaderCall) (r : BufferReader),
    (r.calls (cs.map .asRead)).2 = (r.calls cs).2 ∧ moved (r.calls (cs.map .asRead)).1 = moved (r.calls cs).1
  | [], _ => ⟨rfl, rfl⟩
  | c :: cs, r => by
    obtain ⟨hstate, hcount⟩ := call_asRead r c
    obtain ⟨hstates, hcounts⟩ := calls_asRead cs (r.call c).2
    simp only [List.map_cons, calls, moved, List.sum_cons, hstate, hcount]
    exact ⟨hstates, congrArg _ hcounts⟩

/-- Reads yield the bytes they move over. -/
theorem reads_data : ∀ (cs : List ReaderCall) {r : BufferReader}, r.Wf →
    (r.calls (cs.map .asRead)).1.flatMap ReaderAnswer.data = r.rest.take (moved (r.calls (cs.map .asRead)).1)
  | [], r, _ => by simp [calls, moved]
  | c :: cs, r, hr => by
    have hcount := call_count hr c.asRead
    have hdata : (r.call c.asRead).1.data = r.rest.take (r.call c.asRead).1.count := by
      rw [hcount, ReaderCall.asRead, read_data hr, List.take_eq_take_iff]
      simp [ReaderCall.size]
    simp only [List.map_cons, calls, List.flatMap_cons, moved, List.sum_cons]
    rw [reads_data cs (call_wf hr c.asRead), call_rest hr, hdata, moved, List.take_add]

end BufferReader

/-- **Reads do not see the packets**: after any calls the next one returns what was asked for as far as there is so much
left, a read yields the bytes that come next, and the bytes of all, had they been reads, begin the payloads of the
packets in order. -/
theorem reader_calls (p : Packet) (next : List Packet) (headerSize : Nat)
    (hp : ∀ q ∈ p :: next, q.Wf ∧ headerSize ≤ q.size) (cs : List ReaderCall) :
    let start := bteBufferReaderSetHeaderSize (bteBufferReaderInit p next) headerSize
    let stream := (p :: next).flatMap (Packet.payload headerSize)
    let r := (start.calls cs).2
    let moved := BufferReader.moved (start.calls cs).1
    (start.calls (cs.map .asRead)).1.flatMap ReaderAnswer.data = stream.take moved ∧
    (start.calls (cs.map .asRead)).2 = r ∧
    (∀ c, (r.call c).1.count = min c.size (stream.length - moved)) ∧
    (∀ n, (r.call (.read n)).1.data = (stream.drop moved).take n) ∧
    (∀ n, (r.call (.advance n)).2 = (r.call (.read n)).2) := by
  intro start stream r moved
  have hwf : start.Wf := ⟨(hp p List.mem_cons_self).1, (hp p List.mem_cons_self).2,
    fun q hq => hp q (List.mem_cons_of_mem p hq)⟩
  have hstream : start.rest = stream := by
    simp only [start, stream, BufferReader.rest, bteBufferReaderSetHeaderSize, bteBufferReaderInit, List.flatMap_cons,
      Packet.payload]
  obtain ⟨hr, hrest⟩ := BufferReader.calls_spec cs hwf
  obtain ⟨hsame, hmoved⟩ := BufferReader.calls_asRead cs start
  rw [hstream] at hrest
  refine ⟨?_, hsame, fun c => ?_, fun n => ?_, fun n => rfl⟩
  · rw [BufferReader.reads_data cs hwf, hmoved, hstream]
  · rw [BufferReader.call_count hr, hrest, List.length_drop]
  · rw [BufferReader.read_data hr, hrest]

/-- A packet without payload, one with three bytes and one with two. -/
theorem reader_calls_three :
    let packets : List Packet := [⟨4, 1, [9]⟩, ⟨4, 4, [9, 1, 2, 3]⟩, ⟨3, 3, [9, 4, 5]⟩]
    let start := bteBufferReaderSetHeaderSize (bteBufferReaderInit ⟨4, 1, [9]⟩ packets.tail) 1
    (start.calls [.read 2, .advance 2]).1 = [⟨[1, 2], 2⟩, ⟨[], 2⟩] ∧
    ((start.calls [.read 2, .advance 2]).2.call (.read 7)).1 = ⟨[5], 1⟩ ∧
    ((start.calls [.read 2, .advance 2]).2.call (.read 7)).1.data = [5] := by
  intro packets start
  have h := reader_calls ⟨4, 1, [9]⟩ packets.tail 1 (by decide) [.read 2, .advance 2]
  have hread := h.2.2.2.1 7
  exact ⟨by decide +kernel, by decide +kernel, hread.trans (by decide +kernel)⟩

end Bte
