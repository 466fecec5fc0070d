import BtEmbedded.HciDev
import BtEmbedded.Lib.Run
/-!
# ResponseArrays — the arrays inquiry results and link keys are gathered in (utils.h, hci.c, hci_dev.c)

The device keeps a count and a pointer.  What the pointer was allocated with is not kept: `ensure_array_size` works it
out from the count, in blocks of elements.  Duplicates make the count fall behind what was allocated, so the capacity is
at least that of the blocks the count needs (`Sized`), and everything written stays below it.

A `Block` is what `realloc` returned.  Its elements may hold anything before they are written; `fresh` is what new
memory holds, and none when there is no memory.
-/
namespace Bte

open Bytes

/-! ## ensure_array_size -/

section Arrays

variable {α : Type}

structure Block (α : Type) where
  capacity : Nat
  mem : Nat → α

/-- `realloc(ptr, n * elem_size)`. -/
def realloc (fresh : Option (Nat → α)) (ptr : Option (Block α)) (n : Nat) : Option (Block α) :=
  fresh.map fun mem => ⟨n, fun i => ptr.elim (mem i) fun b => if i < b.capacity then b.mem i else mem i⟩

/-- The blocks that `n` elements take. -/
def blocks (elemPerBlock n : Nat) : Nat := (n + elemPerBlock - 1) / elemPerBlock

def ensureArraySize (fresh : Option (Nat → α)) (ptr : Option (Block α)) (elemPerBlock numElemCurr numElemAdded : Nat) :
    Option (Block α) :=
  let allocatedBlocks := blocks elemPerBlock numElemCurr
  let neededBlocks := blocks elemPerBlock (numElemCurr + numElemAdded)
  if neededBlocks > allocatedBlocks then realloc fresh ptr (neededBlocks * elemPerBlock) else ptr

/-- `struct bte_hci_inquiry_data_t` and `struct bte_hci_stored_keys_t`. -/
structure ResponseArray (α : Type) where
  numResponses : UInt8
  responses : Option (Block α)

namespace ResponseArray

/-- What `_bte_hci_dev_inquiry_cleanup` and `_bte_hci_dev_stored_keys_cleanup` leave. -/
def empty : ResponseArray α := ⟨0, none⟩

def capacity (a : ResponseArray α) : Nat := a.responses.elim 0 Block.capacity

end ResponseArray

/-- An array after an event, and the indices the event's records were written at. -/
structure Filled (α : Type) where
  array : ResponseArray α
  written : List Nat

theorem le_blocks_mul {k : Nat} (hk : 0 < k) (n : Nat) : n ≤ blocks k n * k := by
  have h := Nat.lt_div_mul_add hk (a := n + k - 1)
  rw [← blocks] at h
  omega

theorem blocks_mono (k : Nat) {m n : Nat} (h : m ≤ n) : blocks k m * k ≤ blocks k n * k :=
  Nat.mul_le_mul_right k (Nat.div_le_div_right (by omega))

/-- The pointer is `NULL`, or has the blocks that `n` elements take. -/
def Sized (elemPerBlock : Nat) (ptr : Option (Block α)) (n : Nat) : Prop :=
  ∀ b ∈ ptr, blocks elemPerBlock n * elemPerBlock ≤ b.capacity

theorem Sized.mono {k m n : Nat} {ptr : Option (Block α)} (h : Sized k ptr n) (hm : m ≤ n) : Sized k ptr m :=
  fun b hb => Nat.le_trans (blocks_mono k hm) (h b hb)

theorem Sized.le {k n : Nat} {ptr : Option (Block α)} (h : Sized k ptr n) (hk : 0 < k) {b : Block α} (hb : b ∈ ptr) :
    n ≤ b.capacity :=
  Nat.le_trans (le_blocks_mul hk n) (h b hb)

/-- **What was sized for the count is afterwards sized for what is added to it.** -/
theorem Sized.ensure {k n : Nat} {ptr : Option (Block α)} (h : Sized k ptr n) (fresh : Option (Nat → α)) (added : Nat) :
    Sized k (ensureArraySize fresh ptr k n added) (n + added) := by
  intro b hb
  simp only [ensureArraySize] at hb
  split at hb
  · obtain ⟨mem, -, rfl⟩ := Option.map_eq_some_iff.1 hb
    exact Nat.le_refl _
  · rename_i hneeded
    exact Nat.le_trans (Nat.mul_le_mul_right k (Nat.not_lt.1 hneeded)) (h b hb)

end Arrays

/-! ## Inquiry results -/

structure ClassOfDevice where
  b0 : UInt8
  b1 : UInt8
  b2 : UInt8
deriving DecidableEq

/-- `BteHciInquiryResponse`, which is packed: `memcmp` compares these fields and nothing else. -/
structure InquiryResponse where
  address : BdAddr
  pageScanRepMode : UInt8
  pageScanPeriodMode : UInt8
  reserved : UInt8
  classOfDevice : ClassOfDevice
  clockOffset : UInt16
  rssi : UInt8
  extendedResponse : Ptr
deriving DecidableEq

def hciInquiryResultWithRssi : UInt8 := 0x22

/-- Response `i` of `num` in the parallel arrays of an event; `old` is what its place in memory held.  With the RSSI the
event has no page scan period mode, and none is set. -/
def readResponse (data : Nat → UInt8) (hasRssi : Bool) (num i : Nat) (old : InquiryResponse) : InquiryResponse :=
  let ptr := 6 * num
  let afterModes := if hasRssi then ptr + num else ptr + num + num
  let cod := afterModes + num
  let clock := cod + 3 * num
  { address := ⟨data (6 * i), data (6 * i + 1), data (6 * i + 2), data (6 * i + 3), data (6 * i + 4), data (6 * i + 5)⟩
    pageScanRepMode := data (ptr + i)
    pageScanPeriodMode := if hasRssi then old.pageScanPeriodMode else data (ptr + num + i)
    reserved := data (afterModes + i)
    classOfDevice := ⟨data (cod + 3 * i), data (cod + 3 * i + 1), data (cod + 3 * i + 2)⟩
    clockOffset := .ofNat (leVal [data (clock + 2 * i), data (clock + 2 * i + 1)])
    rssi := if hasRssi then data (clock + 2 * num + i) else 0
    extendedResponse := 0 }

/-- What the loop of `inquiry_result_cb` leaves: `i_tail`, the memory, and the indices written. -/
structure Scan (α : Type) where
  tail : Nat
  mem : Nat → α
  written : List Nat

/-- The loop of `inquiry_result_cb`, `remaining` turns before its end.  A record is compared with the `count` records of
earlier events. -/
def resultLoop {α : Type} [DecidableEq α] (count : Nat) (read : Nat → α → α) : Nat → Nat → Nat → (Nat → α) → Scan α
  | 0, _, tail, mem => ⟨tail, mem, []⟩
  | remaining + 1, i, tail, mem =>
    let mem := Function.update mem tail (read i (mem tail))
    let duplicate := (List.range count).any fun j => decide (mem tail = mem j)
    let rest := resultLoop count read remaining (i + 1) (if duplicate then tail else tail + 1) mem
    { rest with written := tail :: rest.written }

def inquiryResultCb (fresh : Option (Nat → InquiryResponse)) (a : ResponseArray InquiryResponse) (buffer : List UInt8) :
    Filled InquiryResponse :=
  let num := (buffer.getD 2 0).toNat
  match ensureArraySize fresh a.responses 32 a.numResponses.toNat num with
  | none => ⟨{ a with responses := none }, []⟩
  | some b =>
    let hasRssi := buffer.getD 0 0 == hciInquiryResultWithRssi
    let read := readResponse (fun k => buffer.getD (3 + k) 0) hasRssi num
    let scan := resultLoop a.numResponses.toNat read num 0 a.numResponses.toNat b.mem
    ⟨⟨.ofNat scan.tail, some { b with mem := scan.mem }⟩, scan.written⟩

theorem resultLoop_bounds {α : Type} [DecidableEq α] (count : Nat) (read : Nat → α → α) :
    ∀ (remaining i tail : Nat) (mem : Nat → α),
      (resultLoop count read remaining i tail mem).tail ≤ tail + remaining ∧
      ∀ x ∈ (resultLoop count read remaining i tail mem).written, x < tail + remaining
  | 0, _, _, _ => ⟨Nat.le_refl _, fun _ h => by cases h⟩
  | remaining + 1, i, tail, mem => by
    simp only [resultLoop]
    generalize Function.update mem tail (read i (mem tail)) = mem'
    generalize hnext : (if ((List.range count).any fun j => decide (mem' tail = mem' j)) then tail else tail + 1) = next
    have hle : next ≤ tail + 1 := by
      rw [← hnext]
      split <;> omega
    obtain ⟨htail, hwritten⟩ := resultLoop_bounds count read remaining (i + 1) next mem'
    refine ⟨by omega, ?_⟩
    intro x hx
    rcases List.mem_cons.1 hx with rfl | hx
    · omega
    · have := hwritten x hx
      omega

/-! ## Link keys -/

/-- `BteHciStoredLinkKey`. -/
structure StoredLinkKey where
  address : BdAddr
  key : { bs : List UInt8 // bs.length = 16 }
deriving DecidableEq

/-- Key `i` of `num` in the parallel arrays of an event. -/
def readLinkKey (buffer : List UInt8) (num i : Nat) : StoredLinkKey :=
  let byte k := buffer.getD (3 + 6 * i + k) 0
  ⟨⟨byte 0, byte 1, byte 2, byte 3, byte 4, byte 5⟩,
    ⟨(List.range 16).map fun k => buffer.getD (3 + 6 * num + 16 * i + k) 0, by rw [List.length_map, List.length_range]⟩⟩

def returnLinkKeysCb (fresh : Option (Nat → StoredLinkKey)) (a : ResponseArray StoredLinkKey) (buffer : List UInt8) :
    Filled StoredLinkKey :=
  let num := (buffer.getD 2 0).toNat
  match ensureArraySize fresh a.responses 16 a.numResponses.toNat num with
  | none => ⟨{ a with responses := none }, []⟩
  | some b =>
    let tail := a.numResponses.toNat
    let mem := (List.range num).foldl (fun mem i => Function.update mem (tail + i) (readLinkKey buffer num i)) b.mem
    ⟨⟨a.numResponses + UInt8.ofNat num, some { b with mem := mem }⟩, (List.range num).map (tail + ·)⟩

/-! ## Runs -/

/-- The two arrays of the device. -/
structure HciArrays where
  inquiry : ResponseArray InquiryResponse
  storedKeys : ResponseArray StoredLinkKey

/-- What happens to them. -/
inductive ArrayEvent where
  | inquiryResult (fresh : Option (Nat → InquiryResponse)) (buffer : List UInt8)
  | inquiryCleanup
  | returnLinkKeys (fresh : Option (Nat → StoredLinkKey)) (buffer : List UInt8)
  | storedKeysCleanup

namespace HciArrays

def init : HciArrays := ⟨.empty, .empty⟩

def apply (s : HciArrays) : ArrayEvent → HciArrays
  | .inquiryResult fresh buffer => { s with inquiry := (inquiryResultCb fresh s.inquiry buffer).array }
  | .inquiryCleanup => { s with inquiry := .empty }
  | .returnLinkKeys fresh buffer => { s with storedKeys := (returnLinkKeysCb fresh s.storedKeys buffer).array }
  | .storedKeysCleanup => { s with storedKeys := .empty }

/-- The records an event writes, each with its index and the capacity it is written in. -/
def written (s : HciArrays) : ArrayEvent → List (Nat × Nat)
  | .inquiryResult fresh buffer =>
    let f := inquiryResultCb fresh s.inquiry buffer
    f.written.map fun i => (i, f.array.capacity)
  | .returnLinkKeys fresh buffer =>
    let f := returnLinkKeysCb fresh s.storedKeys buffer
    f.written.map fun i => (i, f.array.capacity)
  | .inquiryCleanup => []
  | .storedKeysCleanup => []

/-- Both arrays are sized for their counts. -/
structure Inv (s : HciArrays) : Prop where
  inquiry : Sized 32 s.inquiry.responses s.inquiry.numResponses.toNat
  storedKeys : Sized 16 s.storedKeys.responses s.storedKeys.numResponses.toNat

end HciArrays

theorem sized_none {α : Type} (k n : Nat) : Sized k (none : Option (Block α)) n := fun _ h => by cases h

/-- A callback keeps an array sized and writes inside it. -/
structure ArrayFits (k : Nat) {α : Type} (f : Filled α) : Prop where
  sized : Sized k f.array.responses f.array.numResponses.toNat
  written : ∀ i ∈ f.written, i < f.array.capacity

theorem inquiryResultCb_fits (fresh : Option (Nat → InquiryResponse)) {a : ResponseArray InquiryResponse}
    (ha : Sized 32 a.responses a.numResponses.toNat) (buffer : List UInt8) :
        ArrayFits 32 (inquiryResultCb fresh a buffer) := by
  have hensured := ha.ensure fresh (buffer.getD 2 0).toNat
  unfold inquiryResultCb
  simp only
  split
  · exact ⟨sized_none 32 _, fun _ h => by cases h⟩
  · rename_i b hb
    rw [hb] at hensured
    generalize readResponse _ _ _ = read
    obtain ⟨htail, hwritten⟩ :=
      resultLoop_bounds a.numResponses.toNat read (buffer.getD 2 0).toNat 0 a.numResponses.toNat b.mem
    have hcap := hensured.le (by decide) rfl
    refine ⟨?_, fun i hi => Nat.lt_of_lt_of_le (hwritten i hi) hcap⟩
    intro b' hb'
    cases hb'
    -- the count is stored in eight bits, which can only lower it
    have hcount : (UInt8.ofNat (resultLoop a.numResponses.toNat read (buffer.getD 2 0).toNat 0 a.numResponses.toNat
        b.mem).tail).toNat ≤ a.numResponses.toNat + (buffer.getD 2 0).toNat := by
      rw [UInt8.toNat_ofNat']
      exact Nat.le_trans (Nat.mod_le _ _) htail
    exact (hensured.mono hcount) b rfl

theorem returnLinkKeysCb_fits (fresh : Option (Nat → StoredLinkKey)) {a : ResponseArray StoredLinkKey}
    (ha : Sized 16 a.responses a.numResponses.toNat) (buffer : List UInt8) :
        ArrayFits 16 (returnLinkKeysCb fresh a buffer) := by
  have hensured := ha.ensure fresh (buffer.getD 2 0).toNat
  unfold returnLinkKeysCb
  simp only
  split
  · exact ⟨sized_none 16 _, fun _ h => by cases h⟩
  · rename_i b hb
    rw [hb] at hensured
    have hcap := hensured.le (by decide) rfl
    refine ⟨?_, ?_⟩
    · intro b' hb'
      cases hb'
      have hcount : (a.numResponses + UInt8.ofNat (buffer.getD 2 0).toNat).toNat ≤
          a.numResponses.toNat + (buffer.getD 2 0).toNat := by
        rw [UInt8.toNat_add, UInt8.ofNat_toNat]
        exact Nat.mod_le _ _
      exact (hensured.mono hcount) b rfl
    · intro i hi
      obtain ⟨j, hj, rfl⟩ := List.mem_map.1 hi
      have := List.mem_range.1 hj
      exact Nat.lt_of_lt_of_le (by omega) hcap

theorem arraysInv_apply (s : HciArrays) (event : ArrayEvent) (h : s.Inv) : (s.apply event).Inv := by
  cases event with
  | inquiryResult fresh buffer => exact ⟨(inquiryResultCb_fits fresh h.inquiry buffer).sized, h.storedKeys⟩
  | inquiryCleanup => exact ⟨sized_none 32 _, h.storedKeys⟩
  | returnLinkKeys fresh buffer => exact ⟨h.inquiry, (returnLinkKeysCb_fits fresh h.storedKeys buffer).sized⟩
  | storedKeysCleanup => exact ⟨h.inquiry, sized_none 16 _⟩

theorem inv_run_arrays (events : List ArrayEvent) : (Sys.run HciArrays.apply .init events).Inv :=
  Sys.inv_run (fun s e h _ => arraysInv_apply s e h) events .init ⟨sized_none 32 _, sized_none 16 _⟩ (Sys.admissible_true ..)

theorem written_lt {s : HciArrays} (h : s.Inv) (event : ArrayEvent) : ∀ w ∈ s.written event, w.1 < w.2 := by
  intro w hw
  cases event with
  | inquiryResult fresh buffer =>
    obtain ⟨i, hi, rfl⟩ := List.mem_map.1 hw
    exact (inquiryResultCb_fits fresh h.inquiry buffer).written i hi
  | returnLinkKeys fresh buffer =>
    obtain ⟨i, hi, rfl⟩ := List.mem_map.1 hw
    exact (returnLinkKeysCb_fits fresh h.storedKeys buffer).written i hi
  | inquiryCleanup => cases hw
  | storedKeysCleanup => cases hw

/-- **The arrays never overflow**: in every run each record is written below the capacity its array has, and whatever
`ensure_array_size` returns has room for the records stored and those to come. -/
theorem arrays_in_bounds (events : List ArrayEvent) :
    (∀ event, ∀ w ∈ (Sys.run HciArrays.apply .init events).written event, w.1 < w.2) ∧
    (∀ fresh added, ∀ b ∈ ensureArraySize fresh (Sys.run HciArrays.apply .init events).inquiry.responses 32
      (Sys.run HciArrays.apply .init events).inquiry.numResponses.toNat added,
      (Sys.run HciArrays.apply .init events).inquiry.numResponses.toNat + added ≤ b.capacity) ∧
    (∀ fresh added, ∀ b ∈ ensureArraySize fresh (Sys.run HciArrays.apply .init events).storedKeys.responses 16
      (Sys.run HciArrays.apply .init events).storedKeys.numResponses.toNat added,
      (Sys.run HciArrays.apply .init events).storedKeys.numResponses.toNat + added ≤ b.capacity) := by
  have h := inv_run_arrays events
  refine ⟨written_lt h, ?_, ?_⟩
  · intro fresh added b hb
    exact (h.inquiry.ensure fresh added).le (by decide) hb
  · intro fresh added b hb
    exact (h.storedKeys.ensure fresh added).le (by decide) hb

end Bte
