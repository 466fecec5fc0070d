import BtEmbedded.Buffer
/-!
# AclMessage — building an outgoing message (acl.c, l2cap.c)

`bte_acl_create_message` allocates as many packets as the message needs and writes the header of each before a byte of
the message is known; the writer then places the bytes.  The two loops agree on every packet (`createMessage_exact`).
-/
namespace Bte

open Bytes

def bteAclHdrLen : Nat := 4
def bteAclHdrPosLen : Nat := 2
def bteAclPbContinuation : Nat := 1
def bteAclPbFirstFlush : Nat := 2
def bteAclBroadcastPtp : Nat := 0
def l2capHdrLen : Nat := 4

/-! ## The code -/

def bteComputeFragmentedSize (dataSize packetSize headerSize : Nat) : Nat :=
  let packetDataSize := sub16 packetSize headerSize
  let numPackets := (dataSize + packetDataSize - 1) / packetDataSize % 65536
  numPackets * packetSize % 65536

/-- The header of one packet. -/
def Packet.writeAclHeader (p : Packet) (connAndFlags packetDataSize : Nat) : Packet :=
  (p.store 0 (leBytes 2 connAndFlags)).store bteAclHdrPosLen (leBytes 2 packetDataSize)

/-- The loop that writes the headers. -/
def aclHeaders (connHandle broadcast packetMaxSize : Nat) : Nat → Nat → List Packet → List Packet
  | _, _, [] => []
  | packetBoundary, size, p :: ps =>
    let connAndFlags := connHandle ||| (packetBoundary <<< 12) ||| (broadcast <<< 14)
    let packetDataSize := if size > packetMaxSize then packetMaxSize else size
    p.writeAclHeader connAndFlags packetDataSize ::
      aclHeaders connHandle broadcast packetMaxSize bteAclPbContinuation (size - packetDataSize) ps

/-- The writer over the packets, past the first header. -/
def aclWriter : List Packet → Option BufferWriter
  | [] => none
  | head :: next => some (bteBufferWriterSetHeaderSize (bteBufferWriterInit head next) bteAclHdrLen)

def bteAclCreateMessage (mem : Nat → Nat → UInt8) (aclMtu connHandle size broadcast : Nat) : Option BufferWriter :=
  let reqSize := bteComputeFragmentedSize size aclMtu bteAclHdrLen
  let packetMaxSize := sub16 aclMtu bteAclHdrLen
  aclWriter (aclHeaders connHandle broadcast packetMaxSize bteAclPbFirstFlush size (bteBufferAlloc mem reqSize aclMtu))

/-- The L2CAP header; the source does not check the pointer it writes it through. -/
def BufferWriter.writeL2capHeader (w : BufferWriter) (size channelId : Nat) : BufferWriter :=
  match bteBufferWriterPtrN w l2capHdrLen with
  | (none, w) => w
  | (some pos, w) => { w with packet := (w.packet.store pos (leBytes 2 size)).store (pos + 2) (leBytes 2 channelId) }

def aclL2capCreateMessage (mem : Nat → Nat → UInt8) (aclMtu connHandle size channelId : Nat) : Option BufferWriter :=
  let totalSize := (l2capHdrLen + size) % 65536
  (bteAclCreateMessage mem aclMtu connHandle totalSize bteAclBroadcastPtp).map (·.writeL2capHeader size channelId)

def bteL2capCreateMessage (mem : Nat → Nat → UInt8) (aclMtu connHandle remoteChannelId remoteMtu size : Nat) :
    Option BufferWriter :=
  if remoteChannelId = 0 ∨ size > remoteMtu then none
  else aclL2capCreateMessage mem aclMtu connHandle size remoteChannelId

/-- A sequence of writes: what each returned, and the writer after them. -/
def writeAll (w : BufferWriter) : List (List UInt8) → List Bool × BufferWriter
  | [] => ([], w)
  | d :: ds => ((bteBufferWriterWrite w d).1 :: (writeAll (bteBufferWriterWrite w d).2 ds).1,
      (writeAll (bteBufferWriterWrite w d).2 ds).2)

/-! ## Reading a header back -/

def Packet.handleAndFlags (p : Packet) : Nat := leVal (slice p.data 0 2)
/-- The connection handle of an ACL packet. -/
def Packet.connHandle (p : Packet) : Nat := p.handleAndFlags &&& 0xfff
/-- Its packet boundary flag. -/
def Packet.packetBoundary (p : Packet) : Nat := (p.handleAndFlags >>> 12) &&& 3
/-- Its length field. -/
def Packet.packetLength (p : Packet) : Nat := leVal (slice p.data bteAclHdrPosLen 2)

/-! ## Allocation and headers -/

theorem allocLoop_spec (mem : Nat → Nat → UInt8) (size : Nat) {blockSize : Nat} (hb : 0 < blockSize) :
    ∀ (n fuel i : Nat), n ≤ fuel → (allocLoop mem size blockSize fuel i (n * blockSize)).length = n ∧
      ∀ p ∈ allocLoop mem size blockSize fuel i (n * blockSize), p.size = blockSize ∧ p.data.length = blockSize
  | 0, 0, _, _ => by simp [allocLoop]
  | 0, fuel + 1, _, _ => by simp [allocLoop]
  | n + 1, fuel + 1, i, h => by
    have hne : (n + 1) * blockSize ≠ 0 := Nat.mul_ne_zero (by omega) (by omega)
    have hblock : (if (n + 1) * blockSize > blockSize then blockSize else (n + 1) * blockSize) = blockSize := by
      split
      · rfl
      · rename_i hle
        have hmul : (n + 1) * blockSize = n * blockSize + blockSize := Nat.succ_mul n blockSize
        omega
    have hrem : (n + 1) * blockSize - blockSize = n * blockSize := by rw [Nat.succ_mul]; omega
    obtain ⟨hl, hp⟩ := allocLoop_spec mem size hb n fuel (i + 1) (by omega)
    unfold allocLoop
    simp only [if_neg hne, hblock, hrem]
    refine ⟨by rw [List.length_cons, hl], ?_⟩
    intro p hmem
    rcases List.mem_cons.1 hmem with rfl | hmem
    · simp [bteBufferAllocContiguous]
    · exact hp p hmem

theorem allocLoop_sizes (mem : Nat → Nat → UInt8) (size blockSize : Nat) : ∀ (fuel i remaining : Nat),
    ∀ q ∈ allocLoop mem size blockSize fuel i remaining, q.size ≤ blockSize
  | 0, _, _, q, hq => absurd hq List.not_mem_nil
  | fuel + 1, i, remaining, q, hq => by
    unfold allocLoop at hq
    split at hq
    · cases hq
    · rcases List.mem_cons.1 hq with rfl | hq
      · simp only [bteBufferAllocContiguous]
        split <;> omega
      · exact allocLoop_sizes mem size blockSize fuel _ _ q hq

theorem allocLoop_done (mem : Nat → Nat → UInt8) (size blockSize i : Nat) :
    ∀ fuel, allocLoop mem size blockSize fuel i 0 = []
  | 0 => rfl
  | fuel + 1 => by rw [allocLoop, if_pos rfl]

/-- The boundary flag of the packet at index `i`. -/
def boundaryAt (first i : Nat) : Nat := if i = 0 then first else bteAclPbContinuation

theorem aclHeaders_getElem? (connHandle broadcast packetMaxSize : Nat) :
    ∀ (ps : List Packet) (first size i : Nat),
      (aclHeaders connHandle broadcast packetMaxSize first size ps)[i]? = ps[i]?.map fun p =>
        p.writeAclHeader (connHandle ||| (boundaryAt first i <<< 12) ||| (broadcast <<< 14))
          (min packetMaxSize (size - i * packetMaxSize))
  | [], _, _, _ => by simp [aclHeaders]
  | p :: ps, first, size, 0 => by
    have hmin : (if size > packetMaxSize then packetMaxSize else size) = min packetMaxSize size := by
      split <;> omega
    simp [aclHeaders, boundaryAt, hmin]
  | p :: ps, first, size, i + 1 => by
    have hmin : (if size > packetMaxSize then packetMaxSize else size) = min packetMaxSize size := by
      split <;> omega
    have hrest : size - min packetMaxSize size - i * packetMaxSize = size - (i + 1) * packetMaxSize := by
      rw [Nat.succ_mul]; omega
    have hb : boundaryAt bteAclPbContinuation i = boundaryAt first (i + 1) := by simp [boundaryAt]
    rw [aclHeaders, List.getElem?_cons_succ, List.getElem?_cons_succ,
      aclHeaders_getElem? connHandle broadcast packetMaxSize ps bteAclPbContinuation _ i, hmin, hrest, hb]

theorem length_aclHeaders (connHandle broadcast packetMaxSize : Nat) :
    ∀ (ps : List Packet) (first size : Nat),
      (aclHeaders connHandle broadcast packetMaxSize first size ps).length = ps.length
  | [], _, _ => rfl
  | _ :: ps, _, _ => by simp [aclHeaders, length_aclHeaders connHandle broadcast packetMaxSize ps]

theorem sizes_aclHeaders (connHandle broadcast packetMaxSize : Nat) : ∀ (ps : List Packet) (boundary size : Nat),
    (aclHeaders connHandle broadcast packetMaxSize boundary size ps).map Packet.size = ps.map Packet.size
  | [], _, _ => rfl
  | p :: ps, boundary, size => by
    simp only [aclHeaders, List.map_cons, sizes_aclHeaders connHandle broadcast packetMaxSize ps]
    rfl

theorem take_writeAclHeader {p : Packet} (h : 4 ≤ p.data.length) (connAndFlags packetDataSize : Nat) :
    (p.writeAclHeader connAndFlags packetDataSize).data.take 4 = leBytes 2 connAndFlags ++ leBytes 2 packetDataSize := by
  have hd : (blit p.data 0 (leBytes 2 connAndFlags)).take 2 = leBytes 2 connAndFlags := by
    rw [blit, List.take_append_of_le_length (by simp), List.take_of_length_le (by simp)]
    simp
  have hl : (blit p.data 0 (leBytes 2 connAndFlags)).length = p.data.length := length_blit (by simp; omega)
  simp only [Packet.writeAclHeader, Packet.store, bteAclHdrPosLen]
  rw [blit, hd, List.take_append_of_le_length (by simp), List.take_of_length_le (by simp)]

theorem writeAclHeader_frame {p : Packet} (h : 4 ≤ p.data.length) (connAndFlags packetDataSize : Nat) :
    (p.writeAclHeader connAndFlags packetDataSize).frame 4 =
      (p.size, p.data.length, leBytes 2 connAndFlags ++ leBytes 2 packetDataSize) := by
  have hl : (p.writeAclHeader connAndFlags packetDataSize).data.length = p.data.length := by
    simp only [Packet.writeAclHeader, Packet.store, bteAclHdrPosLen]
    rw [length_blit, length_blit]
    · simp; omega
    · rw [length_blit] <;> simp <;> omega
  rw [Packet.frame, hl, take_writeAclHeader h]
  rfl

/-- The three fields of a header, from its four bytes. -/
theorem header_fields {p : Packet} {connHandle b len : Nat} (hh : connHandle ≤ 0xfff) (hb : b < 4) (hl : len < 65536)
    (h : p.data.take 4 = leBytes 2 (connHandle ||| (b <<< 12) ||| (0 <<< 14)) ++ leBytes 2 len) :
    p.connHandle = connHandle ∧ p.packetBoundary = b ∧ p.packetLength = len := by
  have hor : connHandle ||| (b <<< 12) ||| (0 <<< 14) = 4096 * b + connHandle := by
    rw [Nat.zero_shiftLeft, Nat.or_zero, Nat.shiftLeft_eq, Nat.mul_comm b, Nat.or_comm,
      ← Nat.two_pow_add_eq_or_of_lt (by omega : connHandle < 2 ^ 12) b]
  rw [hor] at h
  have h0 : slice p.data 0 2 = leBytes 2 (4096 * b + connHandle) := by
    have ht := congrArg (List.take 2) h
    rw [List.take_take, List.take_left' (length_leBytes ..)] at ht
    exact ht
  have h2 : slice p.data 2 2 = leBytes 2 len := by
    have ht := congrArg (List.drop 2) h
    rw [List.drop_take, List.drop_left' (length_leBytes ..)] at ht
    exact ht
  have hf : p.handleAndFlags = 4096 * b + connHandle := by
    rw [Packet.handleAndFlags, h0, leVal_leBytes, Nat.mod_eq_of_lt (by omega)]
  refine ⟨?_, ?_, ?_⟩
  · rw [Packet.connHandle, hf, show (0xfff : Nat) = 2 ^ 12 - 1 from rfl, Nat.and_two_pow_sub_one_eq_mod]
    omega
  · rw [Packet.packetBoundary, hf, Nat.shiftRight_eq_div_pow, show (3 : Nat) = 2 ^ 2 - 1 from rfl,
      Nat.and_two_pow_sub_one_eq_mod]
    omega
  · rw [Packet.packetLength, bteAclHdrPosLen, h2, leVal_leBytes, Nat.mod_eq_of_lt (by omega)]

/-! ## The two loops agree -/

/-- The number of packets a message of `total` bytes needs. -/
theorem packets_needed {total room : Nat} (hr : 0 < room) (ht : 0 < total) :
    total ≤ (total + room - 1) / room * room ∧ ((total + room - 1) / room - 1) * room < total ∧
    0 < (total + room - 1) / room := by
  have h1 := Nat.div_mul_le_self (total + room - 1) room
  have h2 := Nat.lt_div_mul_add (a := total + room - 1) hr
  have h3 : 0 < (total + room - 1) / room := Nat.div_pos (by omega) hr
  generalize (total + room - 1) / room = q at *
  obtain ⟨k, rfl⟩ : ∃ k, q = k + 1 := ⟨q - 1, by omega⟩
  rw [Nat.succ_mul] at h1 h2 ⊢
  simp only [Nat.add_sub_cancel]
  omega

theorem writeAll_spec : ∀ (ds : List (List UInt8)) {w : BufferWriter}, w.Wf → (ds.map List.length).sum ≤ w.room →
    (∀ ok ∈ (writeAll w ds).1, ok = true) ∧ (writeAll w ds).2.Wf ∧ (writeAll w ds).2.headerSize = w.headerSize ∧
    (writeAll w ds).2.written = w.written ++ ds.flatten ∧
    (writeAll w ds).2.buffer.map (Packet.frame w.headerSize) = w.buffer.map (Packet.frame w.headerSize)
  | [], w, hw, _ => by simp [writeAll, hw]
  | d :: ds, w, hw, h => by
    rw [List.map_cons, List.sum_cons] at h
    obtain ⟨hok, hwf, hhdr, hwr, hrm, hfr⟩ := write_spec hw (show d.length ≤ w.room by omega)
    obtain ⟨hok', hwf', hhdr', hwr', hfr'⟩ := writeAll_spec ds hwf (by omega)
    rw [hhdr] at hfr' hhdr'
    refine ⟨?_, hwf', hhdr', ?_, hfr'.trans hfr⟩
    · intro ok hmem
      rcases List.mem_cons.1 hmem with rfl | hmem
      · exact hok
      · exact hok' ok hmem
    · rw [writeAll, hwr', hwr, List.flatten_cons, List.append_assoc]

/-- The header of the packet at index `i` of a message of `total` bytes. -/
def headerAt (connHandle room total i : Nat) : List UInt8 :=
  leBytes 2 (connHandle ||| (boundaryAt bteAclPbFirstFlush i <<< 12) ||| (bteAclBroadcastPtp <<< 14)) ++
    leBytes 2 (min room (total - i * room))

/-- The frames of the packets of a new message. -/
def messageFrames (aclMtu connHandle total n : Nat) : List (Nat × Nat × List UInt8) :=
  (List.range n).map fun i => (aclMtu, aclMtu, headerAt connHandle (aclMtu - 4) total i)

theorem bteComputeFragmentedSize_eq {total aclMtu : Nat} (hm : 8 ≤ aclMtu) (hm' : aclMtu < 65536)
    (hfit : (total + (aclMtu - 4) - 1) / (aclMtu - 4) * aclMtu ≤ 65535) :
    bteComputeFragmentedSize total aclMtu bteAclHdrLen = (total + (aclMtu - 4) - 1) / (aclMtu - 4) * aclMtu := by
  have hroom : sub16 aclMtu 4 = aclMtu - 4 := sub16_of_le (by omega) hm'
  simp only [bteComputeFragmentedSize, bteAclHdrLen, hroom]
  have hn : (total + (aclMtu - 4) - 1) / (aclMtu - 4) < 65536 := by
    generalize (total + (aclMtu - 4) - 1) / (aclMtu - 4) = n at hfit
    have : n * 1 ≤ n * aclMtu := Nat.mul_le_mul_left n (by omega)
    omega
  rw [Nat.mod_eq_of_lt hn, Nat.mod_eq_of_lt (by omega)]

/-- **A new message**: full packets with their final headers, the writer behind the first one. -/
theorem bteAclCreateMessage_spec (mem : Nat → Nat → UInt8) {aclMtu total : Nat} (connHandle : Nat) (hm : 8 ≤ aclMtu)
    (hm' : aclMtu < 65536) (ht : 0 < total) (hfit : (total + (aclMtu - 4) - 1) / (aclMtu - 4) * aclMtu ≤ 65535) :
    ∃ head next, bteAclCreateMessage mem aclMtu connHandle total bteAclBroadcastPtp = some ⟨[], head, next, 4, 4⟩ ∧
      (∀ p ∈ head :: next, p.size = aclMtu ∧ p.data.length = aclMtu) ∧
      (head :: next).map (Packet.frame 4) =
        messageFrames aclMtu connHandle total ((total + (aclMtu - 4) - 1) / (aclMtu - 4)) := by
  have hpos := (packets_needed (show 0 < aclMtu - 4 by omega) ht).2.2
  have hroom : sub16 aclMtu bteAclHdrLen = aclMtu - 4 := sub16_of_le (by unfold bteAclHdrLen; omega) hm'
  rw [bteAclCreateMessage, bteComputeFragmentedSize_eq hm hm' hfit, hroom]
  generalize (total + (aclMtu - 4) - 1) / (aclMtu - 4) = n at *
  obtain ⟨hlen, hsizes⟩ := allocLoop_spec mem (n * aclMtu) (show 0 < aclMtu by omega) n (n * aclMtu) 0
    (Nat.le_mul_of_pos_right n (by omega))
  obtain ⟨ps, hps⟩ : ∃ ps, ps = bteBufferAlloc mem (n * aclMtu) aclMtu := ⟨_, rfl⟩
  rw [← bteBufferAlloc, ← hps] at hlen hsizes
  rw [← hps]
  have hheads := aclHeaders_getElem? connHandle bteAclBroadcastPtp (aclMtu - 4) ps bteAclPbFirstFlush total
  have hlen' := length_aclHeaders connHandle bteAclBroadcastPtp (aclMtu - 4) ps bteAclPbFirstFlush total
  generalize aclHeaders connHandle bteAclBroadcastPtp (aclMtu - 4) bteAclPbFirstFlush total ps = hs at hheads hlen'
  have hframe : ∀ i p, hs[i]? = some p → p.frame 4 = (aclMtu, aclMtu, headerAt connHandle (aclMtu - 4) total i) := by
    intro i p hp
    rw [hheads i, Option.map_eq_some_iff] at hp
    obtain ⟨p₀, hp₀, rfl⟩ := hp
    have h₀ := hsizes p₀ (List.mem_of_getElem? hp₀)
    rw [writeAclHeader_frame (by omega), h₀.1, h₀.2]
    rfl
  cases hs with
  | nil => rw [List.length_nil] at hlen'; omega
  | cons head next =>
    refine ⟨head, next, rfl, ?_, ?_⟩
    · intro p hp
      obtain ⟨i, hi⟩ := List.getElem?_of_mem hp
      have hf := hframe i p hi
      simp only [Packet.frame, Prod.mk.injEq] at hf
      exact ⟨hf.1, hf.2.1⟩
    · apply List.ext_getElem?
      intro i
      rw [List.getElem?_map, messageFrames, List.getElem?_map]
      by_cases hi : i < n
      · rw [List.getElem?_range hi]
        obtain ⟨p, hp⟩ : ∃ p, (head :: next)[i]? = some p := ⟨_, List.getElem?_eq_getElem (by omega)⟩
        rw [hp, Option.map_some, Option.map_some, hframe i p hp]
      · rw [List.getElem?_eq_none (by omega), List.getElem?_eq_none (by simp; omega)]
        rfl

theorem aclL2capCreateMessage_spec (mem : Nat → Nat → UInt8) {aclMtu size : Nat} (connHandle channelId : Nat)
    (hm : 8 ≤ aclMtu) (hm' : aclMtu < 65536)
    (hfit : (size + 4 + (aclMtu - 4) - 1) / (aclMtu - 4) * aclMtu ≤ 65535) :
    ∃ w, aclL2capCreateMessage mem aclMtu connHandle size channelId = some w ∧ w.Wf ∧ w.headerSize = 4 ∧
      w.written = leBytes 2 size ++ leBytes 2 channelId ∧
      w.room + 4 = (size + 4 + (aclMtu - 4) - 1) / (aclMtu - 4) * (aclMtu - 4) ∧
      w.buffer.map (Packet.frame 4) =
        messageFrames aclMtu connHandle (size + 4) ((size + 4 + (aclMtu - 4) - 1) / (aclMtu - 4)) := by
  have hneed := packets_needed (show 0 < aclMtu - 4 by omega) (show 0 < size + 4 by omega)
  have htotal : (l2capHdrLen + size) % 65536 = size + 4 := by
    have hle : (size + 4 + (aclMtu - 4) - 1) / (aclMtu - 4) * (aclMtu - 4) ≤
        (size + 4 + (aclMtu - 4) - 1) / (aclMtu - 4) * aclMtu := Nat.mul_le_mul_left _ (by omega)
    unfold l2capHdrLen
    omega
  obtain ⟨head, next, hcreate, hsizes, hframes⟩ := bteAclCreateMessage_spec mem connHandle hm hm'
    (show 0 < size + 4 by omega) hfit
  have hhead := hsizes head List.mem_cons_self
  generalize (size + 4 + (aclMtu - 4) - 1) / (aclMtu - 4) = n at *
  have hwf : head.Wf := ⟨by omega, by omega⟩
  have hfit1 : 4 + (leBytes 2 size).length ≤ head.size := by simp; omega
  have hfit2 : 6 + (leBytes 2 channelId).length ≤ (head.store 4 (leBytes 2 size)).size := by
    simp [Packet.store]; omega
  have hwf1 := store_wf hwf hfit1
  have hturn : (⟨[], head, next, 4, 4⟩ : BufferWriter).turn = some ⟨[], head, next, 4, 4⟩ := by
    rw [BufferWriter.turn, if_neg (by simp only; omega)]
  have hptr : bteBufferWriterPtrN ⟨[], head, next, 4, 4⟩ l2capHdrLen = (some 4, ⟨[], head, next, 8, 4⟩) := by
    have hroom : ¬ l2capHdrLen > head.size - 4 := by unfold l2capHdrLen; omega
    simp only [bteBufferWriterPtrN, hturn, hroom, if_false]
    rfl
  refine ⟨⟨[], (head.store 4 (leBytes 2 size)).store 6 (leBytes 2 channelId), next, 8, 4⟩, ?_, ?_, rfl, ?_, ?_, ?_⟩
  · rw [aclL2capCreateMessage, htotal, hcreate, Option.map_some]
    simp only [BufferWriter.writeL2capHeader, hptr]
  · refine ⟨by simp, store_wf hwf1 hfit2, by simp, by simp [Packet.store]; omega, ?_⟩
    intro q hq
    have h := hsizes q (List.mem_cons_of_mem head hq)
    exact ⟨⟨by omega, by omega⟩, by simp only; omega⟩
  · have h1 := store_slice hwf (show 4 ≤ 4 by omega) hfit1
    have h2 := store_slice hwf1 (show 4 ≤ 6 by omega) hfit2
    simp only [length_leBytes] at h1 h2
    simp only [BufferWriter.written, List.flatMap_nil, List.nil_append]
    rw [h2, h1]
    simp [slice]
  · have hsum : ∀ l : List Packet, (∀ q ∈ l, q.size = aclMtu) →
        (l.map fun q => q.size - 4).sum = l.length * (aclMtu - 4) := by
      intro l hl
      induction l with
      | nil => simp
      | cons q l ih =>
        rw [List.map_cons, List.sum_cons, hl q List.mem_cons_self, ih fun r hr => hl r (List.mem_cons_of_mem q hr),
          List.length_cons, Nat.succ_mul, Nat.add_comm]
    have hn : next.length + 1 = n := by
      have h := congrArg List.length hframes
      simpa [messageFrames] using h
    have hs := hsum next fun q hq => (hsizes q (List.mem_cons_of_mem head hq)).1
    simp only [BufferWriter.room, Packet.store, hs, ← hn, Nat.succ_mul]
    omega
  · simp only [BufferWriter.buffer, List.nil_append, List.map_cons] at hframes ⊢
    rw [store_frame hwf1 (by omega) hfit2, store_frame hwf (by omega) hfit1]
    exact hframes

/-- Ending a writer changes no byte: only the last size and the head's total. -/
theorem writerEnd_map {α : Type} (w : BufferWriter) {f : Packet → α} (hf : ∀ p t, f { p with totalSize := t } = f p) :
    (bteBufferWriterEnd w).map f = (w.before ++ { w.packet with size := w.posInPacket } :: w.next).map f := by
  unfold bteBufferWriterEnd
  split
  · rename_i h
    rw [h]
  · rename_i h
    rw [h, List.map_cons, List.map_cons, hf]

/-- How many bytes are placed, by the packets left behind. -/
theorem length_written {w : BufferWriter} (hw : w.Wf) {n : Nat} (hs : ∀ p ∈ w.before, p.size = n) :
    w.written.length = w.before.length * (n - w.headerSize) + (w.posInPacket - w.headerSize) := by
  have hslice : (slice w.packet.data w.headerSize (w.posInPacket - w.headerSize)).length = w.posInPacket - w.headerSize := by
    apply length_slice
    have := hw.packet.1
    have := hw.pos
    have := hw.header
    omega
  have hpay : ∀ l : List Packet, (∀ p ∈ l, p.Wf ∧ p.size = n) →
      (l.flatMap (Packet.payload w.headerSize)).length = l.length * (n - w.headerSize) := by
    intro l hl
    induction l with
    | nil => simp
    | cons p l ih =>
      have hp := hl p List.mem_cons_self
      rw [List.flatMap_cons, List.length_append, ih fun q hq => hl q (List.mem_cons_of_mem p hq), List.length_cons,
        Nat.succ_mul, Packet.payload, List.length_drop, length_bytes hp.1, hp.2, Nat.add_comm]
  rw [BufferWriter.written, List.length_append, hslice, hpay w.before fun p hp => ⟨(hw.before p hp).1, hs p hp⟩]

/-- The packets behind such frames have the size of the MTU. -/
theorem size_of_messageFrames {ps : List Packet} {aclMtu connHandle total n : Nat}
    (h : ps.map (Packet.frame 4) = messageFrames aclMtu connHandle total n) : ∀ q ∈ ps, q.size = aclMtu := by
  intro q hq
  have hmem : q.frame 4 ∈ ps.map (Packet.frame 4) := List.mem_map_of_mem hq
  rw [h, messageFrames, List.mem_map] at hmem
  obtain ⟨i, -, hi⟩ := hmem
  exact (congrArg Prod.fst hi).symm

/-- A writer that has placed four bytes is in its first packet. -/
theorem first_packet {w : BufferWriter} (hw : w.Wf) (hh : w.headerSize = 4) {aclMtu : Nat} (hm : 8 < aclMtu)
    (hsizes : ∀ q ∈ w.buffer, q.size = aclMtu) (hlen : w.written.length = 4) :
    w.before = [] ∧ w.posInPacket = 8 ∧ w.packet.size = aclMtu := by
  have hpacket : w.packet.size = aclMtu := hsizes w.packet (by simp [BufferWriter.buffer])
  have hplaced := length_written hw fun p hp => hsizes p (List.mem_append_left _ hp)
  have hpos := hw.pos
  have hhdr := hw.header
  rw [hlen, hh] at hplaced
  rw [hh] at hhdr
  have hbefore : w.before = [] := by
    rw [← List.length_eq_zero_iff]
    by_contra hne
    have hle : 1 * (aclMtu - 4) ≤ w.before.length * (aclMtu - 4) := Nat.mul_le_mul_right _ (by omega)
    omega
  rw [hbefore, List.length_nil] at hplaced
  exact ⟨hbefore, by omega, hpacket⟩

/-- A writer that has placed all the bytes is in the last packet. -/
theorem next_of_written {w : BufferWriter} (hw : w.Wf) (hh : w.headerSize = 4) {aclMtu connHandle total n : Nat}
    (hfull : (n - 1) * (aclMtu - 4) < total) (hlen : w.written.length = total)
    (hframes : w.buffer.map (Packet.frame 4) = messageFrames aclMtu connHandle total n) : w.next = [] := by
  have hsizes := size_of_messageFrames hframes
  have hbufLen : w.before.length + 1 + w.next.length = n := by
    have h := congrArg List.length hframes
    simp only [List.length_map, messageFrames, List.length_range, BufferWriter.buffer, List.length_append,
      List.length_cons] at h
    omega
  have hplaced := length_written hw fun p hp => hsizes p (List.mem_append_left _ hp)
  rw [hh, hlen] at hplaced
  have hpacket : w.packet.size = aclMtu := hsizes w.packet (by simp [BufferWriter.buffer])
  have hpos := hw.pos
  have hhdr := hw.header
  -- the bytes placed reach into the last packet, so none is left after it
  rw [← List.length_eq_zero_iff]
  by_contra hne
  have hle : (w.before.length + 1) * (aclMtu - 4) ≤ (n - 1) * (aclMtu - 4) := Nat.mul_le_mul_right _ (by omega)
  rw [Nat.succ_mul] at hle
  omega

/-- What the packets carry behind their headers: the bytes placed, and what the packets behind the writer hold. -/
theorem writerEnd_stream (w : BufferWriter) : (bteBufferWriterEnd w).flatMap (Packet.payload w.headerSize) =
    w.written ++ w.next.flatMap (Packet.payload w.headerSize) := by
  rw [List.flatMap_def, writerEnd_map w (f := Packet.payload w.headerSize) fun _ _ => rfl, ← List.flatMap_def,
    List.flatMap_append, List.flatMap_cons, payload_eq_slice, BufferWriter.written, List.append_assoc]

/-- What the packets of a writer in the last one carry. -/
theorem writerEnd_payloads {w : BufferWriter} (hh : w.headerSize = 4) (hnext : w.next = []) :
    (bteBufferWriterEnd w).flatMap (Packet.payload 4) = w.written := by
  have h := writerEnd_stream w
  rwa [hnext, List.flatMap_nil, List.append_nil, hh] at h

/-- The packets of a message whose bytes have all been placed. -/
theorem writerEnd_packets {w : BufferWriter} (hw : w.Wf) (hh : w.headerSize = 4) {aclMtu connHandle total n : Nat}
    (hm : 8 ≤ aclMtu) (hm' : aclMtu < 65536) (hc : connHandle ≤ 0xfff) (hfull : (n - 1) * (aclMtu - 4) < total)
    (hlen : w.written.length = total)
    (hframes : w.buffer.map (Packet.frame 4) = messageFrames aclMtu connHandle total n) :
    bteBufferWriterEnd w ≠ [] ∧
    (∀ i p, (bteBufferWriterEnd w)[i]? = some p →
      p.packetBoundary = (if i = 0 then 2 else 1) ∧ p.connHandle = connHandle ∧ p.packetLength + 4 = p.size ∧
      p.size ≤ aclMtu ∧ (i + 1 < (bteBufferWriterEnd w).length → p.size = aclMtu)) ∧
    (bteBufferWriterEnd w).flatMap (Packet.payload 4) = w.written := by
  have hframe : ∀ i p, w.buffer[i]? = some p → p.size = aclMtu ∧
    p.data.take 4 = headerAt connHandle (aclMtu - 4) total i := by
    intro i p hp
    have h := congrArg (fun l => l[i]?) hframes
    simp only [List.getElem?_map, hp, Option.map_some, messageFrames] at h
    by_cases hi : i < n
    · rw [List.getElem?_range hi, Option.map_some, Option.some.injEq] at h
      simp only [Packet.frame, Prod.mk.injEq] at h
      exact ⟨h.1, h.2.2⟩
    · rw [List.getElem?_eq_none (by simp; omega)] at h
      cases h
  have hbufLen : w.before.length + 1 + w.next.length = n := by
    have h := congrArg List.length hframes
    simp only [List.length_map, messageFrames, List.length_range, BufferWriter.buffer, List.length_append,
      List.length_cons] at h
    omega
  have hbefore : ∀ p ∈ w.before, p.size = aclMtu := by
    intro p hp
    obtain ⟨i, hi⟩ := List.getElem?_of_mem (List.mem_append_left (w.packet :: w.next) hp)
    exact (hframe i p hi).1
  have hlast : w.packet.size = aclMtu ∧ w.packet.data.take 4 = headerAt connHandle (aclMtu - 4) total w.before.length := by
    apply hframe
    rw [BufferWriter.buffer, List.getElem?_append_right (Nat.le_refl _), Nat.sub_self]
    rfl
  have hplaced := length_written hw hbefore
  rw [hh, hlen] at hplaced
  have hpos := hw.pos
  have hhdr := hw.header
  have hnext := next_of_written hw hh hfull hlen hframes
  have hend : ∀ {α : Type} (f : Packet → α), (∀ p t, f { p with totalSize := t } = f p) →
      (bteBufferWriterEnd w).map f = (w.before ++ [{ w.packet with size := w.posInPacket }]).map f := by
    intro α f hf
    rw [writerEnd_map w hf, hnext]
  have hlength : (bteBufferWriterEnd w).length = w.before.length + 1 := by
    have h := congrArg List.length (hend Packet.size fun _ _ => rfl)
    simpa using h
  refine ⟨fun h0 => by rw [h0] at hlength; simp at hlength, ?_, ?_⟩
  · intro i p hp
    have hi : i < w.before.length + 1 := by
      rw [← hlength]
      exact (List.getElem?_eq_some_iff.1 hp).1
    -- sizes and bytes are those of the list the writer worked on
    have hsame := congrArg (fun l => l[i]?) (hend (fun p => (p.size, p.data)) fun _ _ => rfl)
    simp only [List.getElem?_map, hp, Option.map_some] at hsame
    have hb : boundaryAt bteAclPbFirstFlush i = if i = 0 then 2 else 1 := rfl
    have hb4 : boundaryAt bteAclPbFirstFlush i < 4 := by rw [hb]; split <;> omega
    by_cases hil : i < w.before.length
    · rw [List.getElem?_append_left hil] at hsame
      obtain ⟨q, hq⟩ : ∃ q, w.before[i]? = some q := ⟨_, List.getElem?_eq_getElem hil⟩
      rw [hq, Option.map_some, Option.some.injEq, Prod.mk.injEq] at hsame
      have hf := hframe i q (by rw [BufferWriter.buffer, List.getElem?_append_left hil, hq])
      have hmid : min (aclMtu - 4) (total - i * (aclMtu - 4)) = aclMtu - 4 := by
        have hle : (i + 1) * (aclMtu - 4) ≤ (n - 1) * (aclMtu - 4) := Nat.mul_le_mul_right _ (by omega)
        rw [Nat.succ_mul] at hle
        omega
      obtain ⟨h1, h2, h3⟩ := header_fields (p := p) hc hb4 (show aclMtu - 4 < 65536 by omega)
        (by rw [hsame.2, hf.2, headerAt, hmid]; rfl)
      exact ⟨h2.trans hb, h1, by rw [h3, hsame.1, hf.1]; omega, by rw [hsame.1, hf.1], fun _ => by rw [hsame.1, hf.1]⟩
    · have hil' : i = w.before.length := by omega
      rw [List.getElem?_append_right (by omega), hil', Nat.sub_self] at hsame
      simp only [List.getElem?_cons_zero, Option.map_some, Option.some.injEq, Prod.mk.injEq] at hsame
      have hmid : min (aclMtu - 4) (total - i * (aclMtu - 4)) = w.posInPacket - 4 := by
        rw [hil']; omega
      obtain ⟨h1, h2, h3⟩ := header_fields (p := p) hc hb4 (show w.posInPacket - 4 < 65536 by omega)
        (by rw [hsame.2, hlast.2, ← hil', headerAt, hmid]; rfl)
      exact ⟨h2.trans hb, h1, by rw [h3, hsame.1]; omega, by rw [hsame.1]; omega, fun h => by omega⟩
  · exact writerEnd_payloads hh hnext

/-- **A message of these bytes**: its packets lie in blocks that hold them, every write succeeds, and the packets that the
writer ends with have the headers and the bytes that are announced. -/
structure ExactMessage (l : BufferLayout) (aclMtu connHandle remoteChannelId : Nat) (ds : List (List UInt8))
    (w : BufferWriter) : Prop where
  held : ∀ p ∈ w.buffer, l.Holds p
  written : ∀ ok ∈ (writeAll w ds).1, ok = true
  packets : bteBufferWriterEnd (writeAll w ds).2 ≠ []
  headers : ∀ i p, (bteBufferWriterEnd (writeAll w ds).2)[i]? = some p →
    p.packetBoundary = (if i = 0 then 2 else 1) ∧ p.connHandle = connHandle ∧ p.packetLength + 4 = p.size ∧
    p.size ≤ aclMtu ∧ (i + 1 < (bteBufferWriterEnd (writeAll w ds).2).length → p.size = aclMtu)
  payloads : (bteBufferWriterEnd (writeAll w ds).2).flatMap (Packet.payload 4) =
    leBytes 2 (ds.map List.length).sum ++ leBytes 2 remoteChannelId ++ ds.flatten

/-- What is written into the message of a channel, whatever its MTU: only the blocks may be too small. -/
theorem createMessage_packets {aclMtu connHandle size : Nat} (mem : Nat → Nat → UInt8) (remoteChannelId : Nat)
    (ds : List (List UInt8)) (hm : 8 ≤ aclMtu) (hm' : aclMtu < 65536) (hc : connHandle ≤ 0xfff)
    (hfit : (size + 4 + (aclMtu - 4) - 1) / (aclMtu - 4) * aclMtu ≤ 65535) (hds : (ds.map List.length).sum = size) :
    ∃ w, aclL2capCreateMessage mem aclMtu connHandle size remoteChannelId = some w ∧
      (∀ p ∈ w.buffer, p.size = aclMtu) ∧
      ∀ l : BufferLayout, l.sizeofBuffer + aclMtu < 65536 → ExactMessage l aclMtu connHandle remoteChannelId ds w := by
  have hneed := packets_needed (show 0 < aclMtu - 4 by omega) (show 0 < size + 4 by omega)
  obtain ⟨w, hw, hwf, hhdr, hwr, hroom, hframes⟩ := aclL2capCreateMessage_spec mem connHandle remoteChannelId hm hm' hfit
  obtain ⟨hok, hwf', hhdr', hwr', hframes'⟩ := writeAll_spec ds hwf (by omega)
  rw [hhdr] at hhdr' hframes'
  have hflat : ds.flatten.length = size := by rw [List.length_flatten, hds]
  obtain ⟨hne, hpackets, hbytes⟩ := writerEnd_packets hwf' hhdr' hm hm' hc hneed.2.1
    (by rw [hwr', hwr, List.length_append, List.length_append, hflat]; simp; omega) (hframes'.trans hframes)
  have hsizes := size_of_messageFrames hframes
  refine ⟨w, hw, hsizes, fun l hl => ⟨(forall_holds_iff l w.buffer_ne_nil hsizes).2 hl, hok, hne, hpackets, ?_⟩⟩
  rw [hbytes, hwr', hwr, hds]

/-- **Outgoing fragmentation is exact** if and only if a packet and its header are no more than the 16-bit size of a block
says. -/
theorem createMessage_exact_iff (l : BufferLayout) (mem : Nat → Nat → UInt8)
    (aclMtu connHandle remoteChannelId remoteMtu size : Nat) (ds : List (List UInt8)) (hm : 8 ≤ aclMtu)
    (hm' : aclMtu < 65536) (hc : connHandle ≤ 0xfff) (hcid : remoteChannelId ≠ 0) (hsize : size ≤ remoteMtu)
    (hfit : (size + 4 + (aclMtu - 4) - 1) / (aclMtu - 4) * aclMtu ≤ 65535) (hds : (ds.map List.length).sum = size) :
    (∃ w, bteL2capCreateMessage mem aclMtu connHandle remoteChannelId remoteMtu size = some w ∧
      ExactMessage l aclMtu connHandle remoteChannelId ds w) ↔ l.sizeofBuffer + aclMtu < 65536 := by
  obtain ⟨w, hw, hsizes, hexact⟩ := createMessage_packets mem remoteChannelId ds hm hm' hc hfit hds
  have hcreate : bteL2capCreateMessage mem aclMtu connHandle remoteChannelId remoteMtu size = some w := by
    rw [bteL2capCreateMessage, if_neg (by omega)]
    exact hw
  constructor
  · rintro ⟨w', hw', h⟩
    obtain rfl := Option.some.inj (hcreate.symm.trans hw')
    exact (forall_holds_iff l w.buffer_ne_nil hsizes).1 h.held
  · intro hl
    exact ⟨w, hcreate, hexact l hl⟩

/-- Five bytes in three writes over an MTU of 8: the L2CAP header fills the first of three packets. -/
theorem createMessage_exact_mtu8 :
    ∃ w, bteL2capCreateMessage (fun _ _ => 0xAA) 8 0x42 0x40 672 5 = some w ∧
      (bteBufferWriterEnd (writeAll w [[1, 2], [], [3, 4, 5]]).2).map Packet.size = [8, 8, 5] ∧
      (bteBufferWriterEnd (writeAll w [[1, 2], [], [3, 4, 5]]).2).flatMap (Packet.payload 4) =
        [5, 0, 0x40, 0, 1, 2, 3, 4, 5] := by
  obtain ⟨w, hw, hexact⟩ := (createMessage_exact_iff ⟨32, true⟩ (fun _ _ => 0xAA) 8 0x42 0x40 672 5 [[1, 2], [], [3, 4, 5]]
    (by decide) (by decide) (by decide) (by decide) (by decide) (by decide) (by decide)).2 (by decide)
  refine ⟨w, hw, ?_, hexact.payloads⟩
  have hrun : (bteL2capCreateMessage (fun _ _ => 0xAA) 8 0x42 0x40 672 5).map (fun w =>
      (bteBufferWriterEnd (writeAll w [[1, 2], [], [3, 4, 5]]).2).map Packet.size) = some [8, 8, 5] := by decide
  rw [hw] at hrun
  exact Option.some.inj hrun

/-- **The same five bytes over an MTU of 65535**: the packet has 65535 bytes behind a header of 32, in a block of 31. -/
theorem not_createMessage_exact :
    ∃ w, bteL2capCreateMessage (fun _ _ => 0xAA) 65535 0x42 0x40 672 5 = some w ∧
      (∀ p ∈ w.buffer, p.size = 65535 ∧ bteBufferMalloc ⟨32, false⟩ (32 + p.size) = 31) ∧
      ¬ ExactMessage ⟨32, false⟩ 65535 0x42 0x40 [[1, 2], [], [3, 4, 5]] w := by
  obtain ⟨w, hw, hsizes, -⟩ := createMessage_packets (fun _ _ => 0xAA) 0x40 [[1, 2], [], [3, 4, 5]]
    (show 8 ≤ 65535 by decide) (by decide) (show 0x42 ≤ 0xfff by decide) (by decide) rfl
  refine ⟨w, hw, fun p hp => ⟨hsizes p hp, by rw [hsizes p hp]; rfl⟩, fun h => ?_⟩
  exact absurd ((forall_holds_iff _ w.buffer_ne_nil hsizes).1 h.held) (by decide)

end Bte
