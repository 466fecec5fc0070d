import BtEmbedded.ResponseArrays
/-!
# HciCommandSizes — the commands whose length the caller chooses (hci.c, hci_dev.c)

The length is an `int` expression over the caller's count, but it travels as a `uint8_t`: the buffer is allocated with
what is left of it modulo 256, and the header's length byte is that less the header again.  The loops that fill the
buffer go by the count.  So a command is well sized as long as its length fits in eight bits (`wellSized_iff_fits`).

The caller's arrays are functions of the index.
-/
namespace Bte

open Bytes

/-- What a command function got and did: the bytes allocated, the header, and the parameter bytes stored, with the
place each store begins at. -/
structure CommandBuffer where
  size : Nat
  header : List UInt8
  stores : List (Nat × List UInt8)

namespace CommandBuffer

/-- Every byte is written inside the allocation, and the header counts the parameter bytes. -/
structure WellSized (b : CommandBuffer) : Prop where
  header : b.header.length ≤ b.size
  inside : ∀ s ∈ b.stores, s.1 + s.2.length ≤ b.size
  counted : (b.header.getD 2 0).toNat = (b.stores.map fun s => s.2.length).sum

end CommandBuffer

/-- `_bte_hci_dev_add_pending_command` called with an `int` for its `uint8_t len`; `none` is `NULL`. -/
def addPendingCommand (dev : HciDev) (hci : Option Hci) (ocf : UInt16) (ogf : UInt8) (len : Int)
    (complete clientCb : FnPtr) (userdata : Ptr) (stores : List (Nat × List UInt8)) : Option CommandBuffer × HciDev :=
  let len := UInt8.ofInt len
  let r := bteHciDevAddPendingCommand dev hci ocf ogf len complete clientCb userdata
  (r.1.map fun header => ⟨len.toNat, header, stores⟩, r.2)

/-! ## The commands -/

def hciWStoredLinkKeyOcf : UInt16 := 0x11
def hciWCurIaclapOcf : UInt16 := 0x3A
def hciWCurIaclapPlen : Nat := 4
def hciHcBbOgf : UInt8 := 0x03
def hciVendorOgf : UInt8 := 0x3F

/-- `numKeys` is an `int`: its low byte is sent, and a negative one ends the loop at once. -/
def bteHciWriteStoredLinkKey (dev : HciDev) (hci : Option Hci) (numKeys : Int) (keys : Nat → StoredLinkKey)
    (complete clientCb : FnPtr) (userdata : Ptr) : Option CommandBuffer × HciDev :=
  let ptrAddr := 4
  let ptrKey := ptrAddr + numKeys.toNat * 6
  addPendingCommand dev hci hciWStoredLinkKeyOcf hciHcBbOgf (3 + 1 + numKeys * 22) complete clientCb userdata <|
    (3, [UInt8.ofInt numKeys]) :: (List.range numKeys.toNat).flatMap fun i =>
      [(ptrAddr + i * 6, (keys i).address.bytes), (ptrKey + i * 16, (keys i).key.1)]

/-- The `PLEN` of this command counts the header and the byte for the number of LAPs. -/
def bteHciWriteCurrentIacLap (dev : HciDev) (hci : Option Hci) (numLaps : UInt8) (laps : Nat → UInt32)
    (complete clientCb : FnPtr) (userdata : Ptr) : Option CommandBuffer × HciDev :=
  addPendingCommand dev hci hciWCurIaclapOcf hciHcBbOgf (hciWCurIaclapPlen + 3 * numLaps.toNat) complete clientCb
    userdata <|
    (3, [numLaps]) :: (List.range numLaps.toNat).map fun i =>
      (4 + 3 * i, [(laps i).toUInt8, (laps i >>> 8).toUInt8, (laps i >>> 16).toUInt8])

def bteHciVendorCommand (dev : HciDev) (hci : Option Hci) (ocf : UInt16) (data : Nat → UInt8) (len : UInt8)
    (complete clientCb : FnPtr) (userdata : Ptr) : Option CommandBuffer × HciDev :=
  addPendingCommand dev hci ocf hciVendorOgf (3 + len.toNat) complete clientCb userdata
    [(3, (List.range len.toNat).map data)]

/-! ## Sizes -/

/-- The stores write `n` parameter bytes in all, up to the byte `n` places behind the header. -/
structure Fills (stores : List (Nat × List UInt8)) (n : Nat) : Prop where
  inside : ∀ s ∈ stores, s.1 + s.2.length ≤ 3 + n
  reaches : ∃ s ∈ stores, s.1 + s.2.length = 3 + n
  counted : (stores.map fun s => s.2.length).sum = n

theorem length_hciCommandAlloc (ocf : UInt16) (ogf len : UInt8) : (hciCommandAlloc ocf ogf len).length = 3 := by
  rw [hciCommandAlloc, opcodeLe, List.length_append, length_leBytes, List.length_singleton]

theorem hciCommandAlloc_length_byte (ocf : UInt16) (ogf len : UInt8) :
    (hciCommandAlloc ocf ogf len).getD 2 0 = len - hciCmdHdrLen := rfl

/-- A command is well sized when eight bits of its length are the header and the parameter bytes it writes. -/
theorem wellSized_iff_fits {stores : List (Nat × List UInt8)} {n : Nat} (h : Fills stores n) (ocf : UInt16)
    (ogf len : UInt8) :
    (⟨len.toNat, hciCommandAlloc ocf ogf len, stores⟩ : CommandBuffer).WellSized ↔ len.toNat = 3 + n := by
  have hlt := len.toNat_lt
  have hbyte : 3 ≤ len.toNat → (len - hciCmdHdrLen).toNat = len.toNat - 3 := fun hle => by
    rw [UInt8.toNat_sub_of_le _ _ hle]
    rfl
  constructor
  · intro hb
    have hcounted := hb.counted
    rw [hciCommandAlloc_length_byte, h.counted] at hcounted
    obtain ⟨s, hs, hend⟩ := h.reaches
    have hinside := hb.inside s hs
    simp only at hinside
    have := hbyte (by omega)
    omega
  · intro hlen
    refine ⟨?_, ?_, ?_⟩
    · rw [length_hciCommandAlloc]
      simp only
      omega
    · intro s hs
      exact Nat.le_trans (h.inside s hs) (Nat.le_of_eq hlen.symm)
    · rw [hciCommandAlloc_length_byte, hbyte (by omega), h.counted]
      omega

/-- The command table has no room for the command, or has it already. -/
def HciDev.Refuses (dev : HciDev) (ocf : UInt16) (ogf : UInt8) : Prop :=
  dev.allocSlot (commandMatcher hciCommandComplete (opcodeLe ocf ogf)) = none

theorem addPendingCommand_fst (dev : HciDev) (hci : Option Hci) (ocf : UInt16) (ogf : UInt8) (len : Int)
    (complete clientCb : FnPtr) (userdata : Ptr) (stores : List (Nat × List UInt8)) :
    (addPendingCommand dev hci ocf ogf len complete clientCb userdata stores).1 =
      if (dev.allocSlot (commandMatcher hciCommandComplete (opcodeLe ocf ogf))).isNone then none
      else some ⟨(UInt8.ofInt len).toNat, hciCommandAlloc ocf ogf (UInt8.ofInt len), stores⟩ := by
  have htake : (hciCommandAlloc ocf ogf (UInt8.ofInt len)).take 2 = opcodeLe ocf ogf := by
    rw [hciCommandAlloc]
    exact List.take_left' (length_leBytes 2 _)
  unfold addPendingCommand bteHciDevAddPendingCommand bteHciDevAddCommand bteHciDevAllocCommand
  simp only [htake]
  cases dev.allocSlot (commandMatcher hciCommandComplete (opcodeLe ocf ogf)) <;> rfl

theorem addPendingCommand_wellSized_iff (dev : HciDev) (hci : Option Hci) (ocf : UInt16) (ogf : UInt8) (len : Int)
    (complete clientCb : FnPtr) (userdata : Ptr) {stores : List (Nat × List UInt8)} {n : Nat} (h : Fills stores n) :
    (∀ b ∈ (addPendingCommand dev hci ocf ogf len complete clientCb userdata stores).1, b.WellSized) ↔
      dev.Refuses ocf ogf ∨ (len % 256).toNat = 3 + n := by
  have hlen : (UInt8.ofInt len).toNat = (len % 256).toNat := by
    rw [UInt8.ofInt, UInt8.toNat_ofNat']
    omega
  rw [addPendingCommand_fst, HciDev.Refuses, ← hlen]
  cases dev.allocSlot (commandMatcher hciCommandComplete (opcodeLe ocf ogf)) with
  | none => exact iff_of_true (fun _ hb => by cases hb) (.inl rfl)
  | some i =>
    refine Iff.trans ?_ (Iff.trans (wellSized_iff_fits h ocf ogf (UInt8.ofInt len)) (or_iff_right (by simp)).symm)
    exact ⟨fun hb => hb _ rfl, fun hb b heq => by cases heq; exact hb⟩

/-! ## The commands' stores -/

/-- Loops that store the same number of bytes at every turn. -/
theorem sum_lengths_flatMap {f : Nat → List (Nat × List UInt8)} {k : Nat}
    (h : ∀ i, ((f i).map fun s => s.2.length).sum = k) :
    ∀ n, (((List.range n).flatMap f).map fun s => s.2.length).sum = n * k
  | 0 => by rw [Nat.zero_mul]; rfl
  | n + 1 => by
    rw [List.range_succ, List.flatMap_append, List.map_append, List.sum_append, sum_lengths_flatMap h n,
      List.flatMap_singleton, h n, Nat.succ_mul]

theorem fills_linkKeys (b : UInt8) (keys : Nat → StoredLinkKey) (n : Nat) :
    Fills ((3, [b]) :: (List.range n).flatMap fun i =>
      [(4 + i * 6, (keys i).address.bytes), (4 + n * 6 + i * 16, (keys i).key.1)]) (1 + n * 22) := by
  have hkey : ∀ i, (keys i).key.1.length = 16 := fun i => (keys i).key.2
  refine ⟨?_, ?_, ?_⟩
  · intro s hs
    rcases List.mem_cons.1 hs with rfl | hs
    · simp only [List.length_singleton]
      omega
    · obtain ⟨i, hi, hs⟩ := List.mem_flatMap.1 hs
      have hi := List.mem_range.1 hi
      rcases List.mem_pair.1 hs with rfl | rfl
      · simp only [BdAddr.bytes, List.length_cons, List.length_nil]
        omega
      · simp only [hkey]
        omega
  · -- the last byte is the last key's, or the count when there is no key
    cases n with
    | zero => exact ⟨_, List.mem_cons_self, rfl⟩
    | succ n =>
      refine ⟨(4 + (n + 1) * 6 + n * 16, (keys n).key.1), List.mem_cons_of_mem _ (List.mem_flatMap.2 ⟨n, ?_, ?_⟩), ?_⟩
      · exact List.mem_range.2 (Nat.lt_succ_self n)
      · exact List.mem_pair.2 (.inr rfl)
      · simp only [hkey]
        omega
  · rw [List.map_cons, List.sum_cons, sum_lengths_flatMap fun i => ?_]
    · rfl
    · simp only [List.map_cons, List.map_nil, List.sum_cons, List.sum_nil, hkey]
      rfl

theorem fills_laps (b : UInt8) (laps : Nat → UInt32) (n : Nat) :
    Fills ((3, [b]) :: (List.range n).map fun i =>
      (4 + 3 * i, [(laps i).toUInt8, (laps i >>> 8).toUInt8, (laps i >>> 16).toUInt8])) (1 + n * 3) := by
  refine ⟨?_, ?_, ?_⟩
  · intro s hs
    rcases List.mem_cons.1 hs with rfl | hs
    · simp only [List.length_singleton]
      omega
    · obtain ⟨i, hi, rfl⟩ := List.mem_map.1 hs
      have hi := List.mem_range.1 hi
      simp only [List.length_cons, List.length_nil]
      omega
  · cases n with
    | zero => exact ⟨_, List.mem_cons_self, rfl⟩
    | succ n =>
      refine ⟨_, List.mem_cons_of_mem _ (List.mem_map.2 ⟨n, List.mem_range.2 (Nat.lt_succ_self n), rfl⟩), ?_⟩
      simp only [List.length_cons, List.length_nil]
      omega
  · rw [List.map_cons, List.sum_cons, List.map_map]
    show 1 + ((List.range n).map fun _ => 3).sum = 1 + n * 3
    rw [List.map_const', List.sum_replicate_nat, List.length_range]

theorem fills_vendor (data : Nat → UInt8) (n : Nat) : Fills [(3, (List.range n).map data)] n := by
  have hlen : ((List.range n).map data).length = n := by rw [List.length_map, List.length_range]
  refine ⟨?_, ⟨_, List.mem_cons_self, ?_⟩, ?_⟩
  · intro s hs
    rw [List.mem_singleton.1 hs]
    simp only [hlen]
    exact Nat.le_refl _
  · simp only [hlen]
  · simp only [List.map_cons, List.map_nil, List.sum_cons, List.sum_nil, hlen]
    omega

/-! ## Well-sized commands -/

theorem writeStoredLinkKey_wellSized_iff (dev : HciDev) (hci : Option Hci) (numKeys : Int) (keys : Nat → StoredLinkKey)
    (complete clientCb : FnPtr) (userdata : Ptr) :
    (∀ b ∈ (bteHciWriteStoredLinkKey dev hci numKeys keys complete clientCb userdata).1, b.WellSized) ↔
      dev.Refuses hciWStoredLinkKeyOcf hciHcBbOgf ∨ (0 ≤ numKeys ∧ numKeys ≤ 11) ∨ (numKeys < 0 ∧ 128 ∣ numKeys) := by
  have h := addPendingCommand_wellSized_iff dev hci hciWStoredLinkKeyOcf hciHcBbOgf (3 + 1 + numKeys * 22) complete
    clientCb userdata (fills_linkKeys (UInt8.ofInt numKeys) keys numKeys.toNat)
  refine Iff.trans h (or_congr_right ?_)
  omega

theorem writeCurrentIacLap_wellSized_iff (dev : HciDev) (hci : Option Hci) (numLaps : UInt8) (laps : Nat → UInt32)
    (complete clientCb : FnPtr) (userdata : Ptr) :
    (∀ b ∈ (bteHciWriteCurrentIacLap dev hci numLaps laps complete clientCb userdata).1, b.WellSized) ↔
      dev.Refuses hciWCurIaclapOcf hciHcBbOgf ∨ numLaps.toNat ≤ 83 := by
  have hlt := numLaps.toNat_lt
  have h := addPendingCommand_wellSized_iff dev hci hciWCurIaclapOcf hciHcBbOgf (hciWCurIaclapPlen + 3 * numLaps.toNat)
    complete clientCb userdata (fills_laps numLaps laps numLaps.toNat)
  refine Iff.trans h (or_congr_right ?_)
  rw [hciWCurIaclapPlen]
  omega

theorem vendorCommand_wellSized_iff (dev : HciDev) (hci : Option Hci) (ocf : UInt16) (data : Nat → UInt8) (len : UInt8)
    (complete clientCb : FnPtr) (userdata : Ptr) :
    (∀ b ∈ (bteHciVendorCommand dev hci ocf data len complete clientCb userdata).1, b.WellSized) ↔
      dev.Refuses ocf hciVendorOgf ∨ len.toNat ≤ 252 := by
  have hlt := len.toNat_lt
  have h := addPendingCommand_wellSized_iff dev hci ocf hciVendorOgf (3 + len.toNat) complete clientCb userdata
    (fills_vendor data len.toNat)
  refine Iff.trans h (or_congr_right ?_)
  omega

/-- **The variable-length commands are well sized exactly when their length fits in its byte**, or the command table
refuses them: up to eleven link keys, 83 LAPs and 252 bytes of vendor parameters.  A negative number of keys stores the
count alone, which is the length of the command when 128 divides it. -/
theorem commands_wellSized_iff (dev : HciDev) (hci : Option Hci) (complete clientCb : FnPtr) (userdata : Ptr) :
    (∀ numKeys keys,
      (∀ b ∈ (bteHciWriteStoredLinkKey dev hci numKeys keys complete clientCb userdata).1, b.WellSized) ↔
        dev.Refuses hciWStoredLinkKeyOcf hciHcBbOgf ∨ (0 ≤ numKeys ∧ numKeys ≤ 11) ∨ (numKeys < 0 ∧ 128 ∣ numKeys)) ∧
    (∀ numLaps laps,
      (∀ b ∈ (bteHciWriteCurrentIacLap dev hci numLaps laps complete clientCb userdata).1, b.WellSized) ↔
        dev.Refuses hciWCurIaclapOcf hciHcBbOgf ∨ numLaps.toNat ≤ 83) ∧
    (∀ ocf data len,
      (∀ b ∈ (bteHciVendorCommand dev hci ocf data len complete clientCb userdata).1, b.WellSized) ↔
        dev.Refuses ocf hciVendorOgf ∨ len.toNat ≤ 252) :=
  ⟨fun numKeys keys => writeStoredLinkKey_wellSized_iff dev hci numKeys keys complete clientCb userdata,
    fun numLaps laps => writeCurrentIacLap_wellSized_iff dev hci numLaps laps complete clientCb userdata,
    fun ocf data len => vendorCommand_wellSized_iff dev hci ocf data len complete clientCb userdata⟩

/-- Twelve link keys take 268 bytes, and the buffer has the twelve that 268 leaves modulo 256.  84 LAPs and 253 bytes of
vendor parameters take 256, and not even their header fits. -/
theorem not_wellSized_twelve :
    (¬ ∀ b ∈ (bteHciWriteStoredLinkKey .init (some 0) 12
      (fun _ => ⟨⟨1, 2, 3, 4, 5, 6⟩, ⟨List.replicate 16 7, rfl⟩⟩) (.complete 0) (.client 1) 0).1, b.WellSized) ∧
    (¬ ∀ b ∈ (bteHciWriteCurrentIacLap .init (some 0) 84 (fun _ => 0x9E8B33) (.complete 0) (.client 1) 0).1,
      b.WellSized) ∧
    ¬ ∀ b ∈ (bteHciVendorCommand .init (some 0) 0x0A (fun _ => 0) 253 (.complete 0) (.client 1) 0).1, b.WellSized := by
  have hfree : ∀ ocf ogf, ¬ HciDev.init.Refuses ocf ogf := fun _ _ h => by cases h
  rw [writeStoredLinkKey_wellSized_iff, writeCurrentIacLap_wellSized_iff, vendorCommand_wellSized_iff]
  exact ⟨fun h => h.elim (hfree _ _) (by decide), fun h => h.elim (hfree _ _) (by decide),
    fun h => h.elim (hfree _ _) (by decide)⟩

end Bte
