import BtEmbedded.AclCapacity
import BtEmbedded.L2capSignalling
/-!
# L2capPayload — the packets of a command (l2cap.c, buffer.h)

Every command begins with a header of four bytes, which `acl_l2cap_create_cmd` writes through the pointer that
`bte_buffer_writer_ptr_n` gives for them.  `acl_l2cap_signal` and `l2cap_config_send` size a message for all its packets and
then ask for one pointer to the whole body.  A pointer is NULL unless what is asked for fits into what is left of the current
packet, or, if this is full, into the next: twelve bytes are taken by the headers, so that these fill a packet of
twelve, or two
of eight.  No pointer is checked, and a store through NULL is no part of the model: `storeN` leaves it out, and what is said
about a command here has with it that its pointers are not NULL (`Opens`, `Stores`) and that its packets lie in blocks
that hold
them.
-/
namespace Bte

open Bytes

/-! ## A store through the pointer -/

/-- The pointer for the data is not NULL, or nothing is written through it. -/
def BufferWriter.Stores (w : BufferWriter) (data : List UInt8) : Prop :=
  data = [] ∨ (bteBufferWriterPtrN w data.length).1.isSome

theorem store_nil {p : Packet} (pos : Nat) : p.store pos [] = p := by
  simp [Packet.store, blit]

section Store
variable {w : BufferWriter} {data : List UInt8}

/-- In the middle of a packet, the pointer is for what is left of it. -/
theorem ptrN_inside (hpos : w.posInPacket < w.packet.size) (n : Nat) :
    (bteBufferWriterPtrN w n).1.isSome ↔ w.posInPacket + n ≤ w.packet.size := by
  have hturn : w.turn = some w := by rw [BufferWriter.turn, if_neg (by omega)]
  unfold bteBufferWriterPtrN
  rw [hturn]
  simp only
  split
  · simp only [Option.isSome_none, Bool.false_eq_true, false_iff]
    omega
  · simp only [Option.isSome_some, true_iff]
    omega

/-- At its end, it is for the next packet. -/
theorem ptrN_end {q : Packet} {next : List Packet} (hpos : w.packet.size ≤ w.posInPacket) (hnext : w.next = q :: next)
    (n : Nat) :
    (bteBufferWriterPtrN w n).1.isSome ↔ n ≤ q.size - w.headerSize := by
  have hturn : w.turn = some ⟨w.before ++ [w.packet], q, next, w.headerSize, w.headerSize⟩ := by
    rw [BufferWriter.turn, if_pos hpos, hnext]
  unfold bteBufferWriterPtrN
  rw [hturn]
  simp only
  split
  · simp only [Option.isSome_none, Bool.false_eq_true, false_iff]
    omega
  · simp only [Option.isSome_some, true_iff]
    omega

theorem ptrN_last (hpos : w.packet.size ≤ w.posInPacket) (hnext : w.next = []) (n : Nat) :
    (bteBufferWriterPtrN w n).1 = none := by
  have hturn : w.turn = none := by rw [BufferWriter.turn, if_pos hpos, hnext]
  unfold bteBufferWriterPtrN
  rw [hturn]

/-- A pointer that is not there leaves the writer in the packet, if there is no other. -/
theorem ptrN_none_inside (hpos : w.posInPacket < w.packet.size) {n : Nat}
    (h : ¬ w.posInPacket + n ≤ w.packet.size) : bteBufferWriterPtrN w n = (none, w) := by
  have hturn : w.turn = some w := by rw [BufferWriter.turn, if_neg (by omega)]
  simp only [bteBufferWriterPtrN, hturn]
  rw [if_pos (by omega)]

theorem ptrN_some_inside (hpos : w.posInPacket < w.packet.size) {n : Nat}
    (h : w.posInPacket + n ≤ w.packet.size) :
    bteBufferWriterPtrN w n = (some w.posInPacket, { w with posInPacket := w.posInPacket + n }) := by
  have hturn : w.turn = some w := by rw [BufferWriter.turn, if_neg (by omega)]
  simp only [bteBufferWriterPtrN, hturn]
  rw [if_neg (by omega)]

theorem write_nil : (bteBufferWriterWrite w []).2 = w := by
  rw [bteBufferWriterWrite, writeLoop, if_pos List.length_nil]

/-- A store of no bytes changes nothing, unless the writer turns to the next packet. -/
theorem storeN_nil (h : w.posInPacket < w.packet.size ∨ w.next = []) : w.storeN [] = w := by
  rw [BufferWriter.storeN]
  rcases h with hpos | hnext
  · have hturn : w.turn = some w := by rw [BufferWriter.turn, if_neg (by omega)]
    simp [bteBufferWriterPtrN, hturn, store_nil]
  · by_cases hpos : w.packet.size ≤ w.posInPacket
    · have hturn : w.turn = none := by rw [BufferWriter.turn, if_pos hpos, hnext]
      simp [bteBufferWriterPtrN, hturn]
    · have hturn : w.turn = some w := by rw [BufferWriter.turn, if_neg (by omega)]
      simp [bteBufferWriterPtrN, hturn, store_nil]

/-- A store into the current packet is a write. -/
theorem storeN_eq_write (hpos : 0 < data.length) (hfit : w.posInPacket + data.length ≤ w.packet.size) :
    w.storeN data = (bteBufferWriterWrite w data).2 := by
  have hturn : w.turn = some w := by
    rw [BufferWriter.turn, if_neg (by omega)]
  have hptr : bteBufferWriterPtrN w data.length =
      (some w.posInPacket, { w with posInPacket := w.posInPacket + data.length }) := by
    simp only [bteBufferWriterPtrN, hturn]
    rw [if_neg (by omega)]
  rw [BufferWriter.storeN, hptr, bteBufferWriterWrite, writeLoop, if_neg (by omega), if_pos hfit]

/-- So is one into the next. -/
theorem storeN_next {q : Packet} {next : List Packet} (hlen : 0 < data.length) (hpos : w.packet.size = w.posInPacket)
    (hnext : w.next = q :: next) (hfit : w.headerSize + data.length ≤ q.size) :
    w.storeN data = (bteBufferWriterWrite w data).2 := by
  have hturn : w.turn = some ⟨w.before ++ [w.packet], q, next, w.headerSize, w.headerSize⟩ := by
    rw [BufferWriter.turn, if_pos hpos.le, hnext]
  have hptr : bteBufferWriterPtrN w data.length =
      (some w.headerSize, ⟨w.before ++ [w.packet], q, next, w.headerSize + data.length, w.headerSize⟩) := by
    simp only [bteBufferWriterPtrN, hturn]
    rw [if_neg (by omega)]
  have hdrop : w.packet.size - w.posInPacket = 0 := by omega
  rw [BufferWriter.storeN, hptr, bteBufferWriterWrite, writeLoop, if_neg (by omega), if_neg (by omega), hnext]
  simp only [hdrop, List.take_zero, List.drop_zero, store_nil]
  rw [writeLoop, if_neg (by omega), if_pos hfit]

end Store

/-! ## What a message is written into -/

/-- What an allocation gives: a first packet as large as it can be, and others if it is not enough. -/
theorem bteBufferAlloc_shape (mem : Nat → Nat → UInt8) {size blockSize : Nat} {head : Packet} {next : List Packet}
    (h : bteBufferAlloc mem size blockSize = head :: next) :
    head.size = min size blockSize ∧ (size ≤ blockSize → next = []) ∧ ∀ q ∈ next, q.size ≤ blockSize := by
  have hsizes := allocLoop_sizes mem size blockSize size 0 size
  unfold bteBufferAlloc at h
  rw [h] at hsizes
  cases size with
  | zero => cases h
  | succ n =>
    rw [allocLoop, if_neg (Nat.succ_ne_zero n)] at h
    injection h with hhead hnext
    refine ⟨?_, fun hle => ?_, fun q hq => hsizes q (List.mem_cons_of_mem _ hq)⟩
    · rw [← hhead]
      simp only [bteBufferAllocContiguous]
      split <;> omega
    · rw [← hnext, if_neg (Nat.not_lt.2 hle), Nat.sub_self]
      exact allocLoop_done mem (n + 1) blockSize _ n

/-- What a message is written into, whether its size could be computed or not. -/
theorem createMessage_front {host : L2capHost} {size channelId : Nat} {w : BufferWriter}
    (h : aclL2capCreateMessage host.mem host.aclMtu host.connHandle size channelId = some w) :
    ∃ (head : Packet) (next : List Packet) (req : Nat),
      w = (⟨[], head, next, 4, 4⟩ : BufferWriter).writeL2capHeader size channelId ∧
      head.size = min req host.aclMtu ∧ (req ≤ host.aclMtu → next = []) ∧ ∀ q ∈ next, q.size ≤ host.aclMtu := by
  unfold aclL2capCreateMessage bteAclCreateMessage at h
  simp only [Option.map_eq_some_iff] at h
  obtain ⟨v, hv, rfl⟩ := h
  cases halloc : bteBufferAlloc host.mem (bteComputeFragmentedSize ((l2capHdrLen + size) % 65536) host.aclMtu bteAclHdrLen)
      host.aclMtu with
  | nil =>
    rw [halloc] at hv
    cases hv
  | cons head next =>
    obtain ⟨hsize, hlast, hsizes⟩ := bteBufferAlloc_shape host.mem halloc
    rw [halloc, aclHeaders] at hv
    cases hv
    refine ⟨_, _, _, rfl, hsize, fun hle => ?_, fun q hq => ?_⟩
    · rw [hlast hle]
      rfl
    · change q ∈ aclHeaders _ _ _ _ _ next at hq
      have hmem := List.mem_map_of_mem (f := Packet.size) hq
      rw [sizes_aclHeaders, List.mem_map] at hmem
      obtain ⟨q', hq', hsame⟩ := hmem
      exact hsame ▸ hsizes q' hq'

/-! ## The writer behind the headers -/

/-- **A message that a command can be written into**: it is created, its packets lie in blocks that hold them, and the
pointer
for the header of the command is not NULL. -/
structure L2capHost.Opens (host : L2capHost) (size : Nat) (message : BufferWriter) : Prop where
  created : aclL2capCreateMessage host.mem host.aclMtu host.connHandle ((l2capSignalHdrLen + size) % 65536)
    bteL2capChannelIdSignalling = some message
  held : ∀ p ∈ message.buffer, host.layout.Holds p
  header : (bteBufferWriterPtrN message l2capSignalHdrLen).1.isSome

/-- The headers leave room behind them in the packet, or fill it. -/
def HeadersFill (aclMtu : Nat) : Prop := aclMtu = 8 ∨ aclMtu = 12

instance (aclMtu : Nat) : Decidable (HeadersFill aclMtu) := inferInstanceAs (Decidable (_ ∨ _))

/-- The packets hold the headers of a command. -/
def L2capHost.HeadersFit (host : L2capHost) : Prop :=
  (host.aclMtu = 8 ∨ 12 ≤ host.aclMtu) ∧ host.layout.sizeofBuffer + host.aclMtu < 65536

instance (host : L2capHost) : Decidable host.HeadersFit := inferInstanceAs (Decidable (_ ∧ _))

/-- A writer past the headers of a command. -/
structure PastHeaders (aclMtu : Nat) (w : BufferWriter) : Prop where
  wf : w.Wf
  header : w.headerSize = 4
  packet : w.packet.size = aclMtu
  next : ∀ q ∈ w.next, q.size = aclMtu
  pos : (HeadersFill aclMtu ∧ w.posInPacket = aclMtu) ∨ (12 < aclMtu ∧ w.posInPacket = 12)

/-- **A command that can be sized**: its packets are full ones, and the writer is past the headers. -/
theorem createCmd_writer {host : L2capHost} {size : Nat} (hm : host.aclMtu = 8 ∨ 12 ≤ host.aclMtu)
    (hm' : host.aclMtu < 65536)
    (hfit : (size + 8 + (host.aclMtu - 4) - 1) / (host.aclMtu - 4) * host.aclMtu ≤ 65535) (code id : Nat) :
    ∃ message, (host.layout.sizeofBuffer + host.aclMtu < 65536 → host.Opens size message) ∧
      message.buffer.map (Packet.frame 4) = messageFrames host.aclMtu host.connHandle (size + 8)
        ((size + 8 + (host.aclMtu - 4) - 1) / (host.aclMtu - 4)) ∧
      aclL2capCreateCmd host code id size = some (message.storeN (signalHeader code id size)) ∧
      PastHeaders host.aclMtu (message.storeN (signalHeader code id size)) ∧
      (message.storeN (signalHeader code id size)).written =
        leBytes 2 (size + 4) ++ leBytes 2 bteL2capChannelIdSignalling ++ signalHeader code id size ∧
      (message.storeN (signalHeader code id size)).room + 12 =
        (size + 8 + (host.aclMtu - 4) - 1) / (host.aclMtu - 4) * (host.aclMtu - 4) + 4 ∧
      (message.storeN (signalHeader code id size)).buffer.map (Packet.frame 4) =
        messageFrames host.aclMtu host.connHandle (size + 8) ((size + 8 + (host.aclMtu - 4) - 1) / (host.aclMtu - 4)) := by
  obtain ⟨w, hw, hwf, hhdr, hwr, hroom, hframes⟩ :=
    aclL2capCreateMessage_spec host.mem host.connHandle bteL2capChannelIdSignalling (show 8 ≤ host.aclMtu by omega) hm'
      (show (size + 4 + 4 + (host.aclMtu - 4) - 1) / (host.aclMtu - 4) * host.aclMtu ≤ 65535 from hfit)
  have hroom : w.room + 4 = (size + 8 + (host.aclMtu - 4) - 1) / (host.aclMtu - 4) * (host.aclMtu - 4) := hroom
  have hsizes := size_of_messageFrames hframes
  have hpacket : w.packet.size = host.aclMtu := hsizes w.packet (by simp [BufferWriter.buffer])
  have hnext : ∀ q ∈ w.next, q.size = host.aclMtu := fun q hq => hsizes q (by simp [BufferWriter.buffer, hq])
  -- the L2CAP header is at the front of the first packet
  have hpos : w.posInPacket = 8 := by
    obtain ⟨head, next, req, hfront, -⟩ := createMessage_front hw
    have hsame := writeL2capHeader_sizes ⟨[], head, next, 4, 4⟩ (size + 4) bteL2capChannelIdSignalling
    have hhead : head.size ∈ w.buffer.map Packet.size := by
      rw [hfront, hsame]
      simp [BufferWriter.buffer]
    obtain ⟨q, hq, hsize⟩ := List.mem_map.1 hhead
    rw [hsizes q hq] at hsize
    rw [hfront, BufferWriter.writeL2capHeader, show l2capHdrLen = 4 from rfl,
      ptrN_some_inside (show 4 < head.size by omega) (show 4 + 4 ≤ head.size by omega)]
  have hheader : (signalHeader code id size).length = 4 := by simp [signalHeader]
  have hneed := packets_needed (show 0 < host.aclMtu - 4 by omega) (show 0 < size + 8 by omega)
  have hlow : (l2capSignalHdrLen + size) % 65536 = size + 4 := by
    have hle : (size + 8 + (host.aclMtu - 4) - 1) / (host.aclMtu - 4) * (host.aclMtu - 4) ≤
        (size + 8 + (host.aclMtu - 4) - 1) / (host.aclMtu - 4) * host.aclMtu := Nat.mul_le_mul_left _ (by omega)
    unfold l2capSignalHdrLen
    omega
  have hcreate : aclL2capCreateCmd host code id size = some (w.storeN (signalHeader code id size)) := by
    rw [aclL2capCreateCmd, hlow, hw]
    rfl
  obtain ⟨-, hwf', hhdr', hwr', hroom', hframes'⟩ :=
    write_spec hwf (show (signalHeader code id size).length ≤ w.room by omega)
  rw [hhdr] at hhdr' hframes'
  have hsizes' := size_of_messageFrames (hframes'.trans hframes)
  have hopens : (bteBufferWriterPtrN w l2capSignalHdrLen).1.isSome ∧
      w.storeN (signalHeader code id size) = (bteBufferWriterWrite w (signalHeader code id size)).2 ∧
      ((HeadersFill host.aclMtu ∧ (bteBufferWriterWrite w (signalHeader code id size)).2.posInPacket = host.aclMtu) ∨
        (12 < host.aclMtu ∧ (bteBufferWriterWrite w (signalHeader code id size)).2.posInPacket = 12)) := by
    rcases hm with height | htwelve
    · -- the L2CAP header fills the first packet
      cases hn : w.next with
      | nil =>
        rw [BufferWriter.room, hn, List.map_nil, List.sum_nil] at hroom
        omega
      | cons q next =>
        have hq := hnext q (hn ▸ List.mem_cons_self)
        have hwrite : (bteBufferWriterWrite w (signalHeader code id size)).2.posInPacket = host.aclMtu := by
          rw [bteBufferWriterWrite, writeLoop, if_neg (by omega), if_neg (by omega), hn]
          simp only
          rw [writeLoop, if_neg (by rw [List.length_drop]; omega), if_pos (by rw [List.length_drop]; omega)]
          simp only [List.length_drop]
          omega
        exact ⟨(ptrN_end (by omega) hn _).2 (by unfold l2capSignalHdrLen; omega),
          storeN_next (by omega) (by omega) hn (by omega), .inl ⟨.inl height, hwrite⟩⟩
    · have hwrite : (bteBufferWriterWrite w (signalHeader code id size)).2.posInPacket = 12 := by
        rw [bteBufferWriterWrite, writeLoop, if_neg (by omega), if_pos (by omega)]
        simp only
        omega
      refine ⟨(ptrN_inside (by omega) _).2 (by unfold l2capSignalHdrLen; omega), storeN_eq_write (by omega) (by omega), ?_⟩
      rcases Nat.eq_or_lt_of_le htwelve with heq | hlt
      · exact .inl ⟨.inr heq.symm, hwrite.trans heq⟩
      · exact .inr ⟨hlt, hwrite⟩
  obtain ⟨hptr, hstore, hpos'⟩ := hopens
  refine ⟨w, fun hblocks => ⟨hlow ▸ hw, (forall_holds_iff _ w.buffer_ne_nil hsizes).2 hblocks, hptr⟩, hframes, hcreate, ?_⟩
  rw [hstore]
  refine ⟨⟨hwf', hhdr', hsizes' _ (by simp [BufferWriter.buffer]), fun q hq => hsizes' q (by simp [BufferWriter.buffer, hq]),
    hpos'⟩, by rw [hwr', hwr], by omega, hframes'.trans hframes⟩

/-! ## What the receiver puts together -/

/-- The packets begin a message and go on with it, and the bytes that their headers announce are these. -/
def Reassembles (connHandle : Nat) (packets : List Packet) (bytes : List UInt8) : Prop :=
  packets ≠ [] ∧ (∀ i p, packets[i]? = some p →
      p.packetBoundary = boundaryAt bteAclPbFirstFlush i ∧ p.connHandle = connHandle) ∧
    packets.flatMap (fun p => (p.bytes.drop bteAclHdrLen).take p.packetLength) = bytes

/-- A message whose bytes have all been placed. -/
theorem reassembles_writerEnd {w : BufferWriter} (hw : w.Wf) (hh : w.headerSize = 4) {aclMtu connHandle total n : Nat}
    (hm : 8 ≤ aclMtu) (hm' : aclMtu < 65536) (hc : connHandle ≤ 0xfff) (hfull : (n - 1) * (aclMtu - 4) < total)
    (hlen : w.written.length = total)
    (hframes : w.buffer.map (Packet.frame 4) = messageFrames aclMtu connHandle total n) :
    Reassembles connHandle (bteBufferWriterEnd w) w.written := by
  obtain ⟨hne, hpackets, hbytes⟩ := writerEnd_packets hw hh hm hm' hc hfull hlen hframes
  refine ⟨hne, fun i p hp => ⟨(hpackets i p hp).1, (hpackets i p hp).2.1⟩, ?_⟩
  rw [← hbytes, List.flatMap_def, List.flatMap_def]
  refine congrArg List.flatten (List.map_congr_left fun p hp => ?_)
  obtain ⟨i, hi⟩ := List.getElem?_of_mem hp
  have hlength : (p.bytes.drop 4).length ≤ p.packetLength := by
    have := (hpackets i p hi).2.2.1
    have hle : p.bytes.length ≤ p.size := List.length_take_le ..
    rw [List.length_drop]
    omega
  exact List.take_of_length_le hlength

/-- The bytes of a command: the L2CAP header, its own header and the body. -/
def commandBytes (code id : Nat) (body : List UInt8) : List UInt8 :=
  leBytes 2 (body.length + 4) ++ leBytes 2 bteL2capChannelIdSignalling ++ signalHeader code id body.length ++ body

/-- **A command carries its body**, stored through one pointer: no pointer is NULL, and the packets are put together to
the bytes
of the command. -/
def CarriesBody (host : L2capHost) (code id : Nat) (body : List UInt8) : Prop :=
  ∃ message packets, host.Opens body.length message ∧ (message.storeN (signalHeader code id body.length)).Stores body ∧
    cmdPackets host code id body = some packets ∧ Reassembles host.connHandle packets (commandBytes code id body)

/-- The packets of `acl_l2cap_cmd_reply`, which writes the body from packet to packet. -/
def replyPackets (host : L2capHost) (code id : Nat) (body : List UInt8) : Option (List Packet) :=
  (aclL2capCreateCmd host code id body.length).map fun writer => bteBufferWriterEnd (bteBufferWriterWrite writer body).2

theorem cmdReply_eq (host : L2capHost) (w : L2capLink) (p : Option Nat) (code id : Nat) (data : List UInt8) :
    (aclL2capCmdReply host w p code id data).2 =
      (replyPackets host code id data).elim w fun buffer => (w.send host p code id data buffer).2 := by
  unfold aclL2capCmdReply replyPackets
  cases aclL2capCreateCmd host code id data.length <;> rfl

/-- **A reply carries its body.** -/
def CarriesReply (host : L2capHost) (code id : Nat) (body : List UInt8) : Prop :=
  ∃ message packets, host.Opens body.length message ∧ replyPackets host code id body = some packets ∧
    Reassembles host.connHandle packets (commandBytes code id body)

/-- **A command carries the head of its body**, stored through one pointer: no pointer is NULL, there is room for all
that the
headers announce, and whatever is written behind the head, it is behind it. -/
def CarriesHead (host : L2capHost) (code id size : Nat) (head : List UInt8) : Prop :=
  ∃ message, host.Opens size message ∧ (message.storeN (signalHeader code id size)).Stores head ∧
    size + 8 ≤ payloadRoom message.buffer ∧ ∀ pieces : List (List UInt8),
      leBytes 2 (size + 4) ++ leBytes 2 bteL2capChannelIdSignalling ++ signalHeader code id size ++ head <+:
        (bteBufferWriterEnd (writeAll ((message.storeN (signalHeader code id size)).storeN head) pieces).2).flatMap
          (Packet.payload 4)

/-- The body fits into the packet that the headers leave it. -/
def BodyFits (aclMtu size : Nat) : Prop := if HeadersFill aclMtu then size ≤ aclMtu - 4 else 12 + size ≤ aclMtu

instance (aclMtu size : Nat) : Decidable (BodyFits aclMtu size) :=
  inferInstanceAs (Decidable (if HeadersFill aclMtu then size ≤ aclMtu - 4 else 12 + size ≤ aclMtu))

/-- It does, and a packet and its header fit the 16-bit size of a block. -/
def L2capHost.Fits (host : L2capHost) (size : Nat) : Prop :=
  BodyFits host.aclMtu size ∧ host.layout.sizeofBuffer + host.aclMtu < 65536

instance (host : L2capHost) (size : Nat) : Decidable (host.Fits size) := inferInstanceAs (Decidable (_ ∧ _))

theorem headers_of_fits {aclMtu size : Nat} (h : BodyFits aclMtu size) : aclMtu = 8 ∨ 12 ≤ aclMtu := by
  unfold BodyFits at h
  split at h
  · rename_i hfill
    exact hfill.imp_right fun heq => heq.ge
  · omega

/-- A few bytes behind the headers take no more than the size of a message can say. -/
theorem packets_small {aclMtu size : Nat} (hm : 8 ≤ aclMtu) (hm' : aclMtu < 65536) (hsize : size ≤ 8) :
    (size + 8 + (aclMtu - 4) - 1) / (aclMtu - 4) * aclMtu ≤ 65535 := by
  by_cases hone : 20 ≤ aclMtu
  · have hquot : (size + 8 + (aclMtu - 4) - 1) / (aclMtu - 4) = 1 := Nat.div_eq_of_lt_le (by omega) (by omega)
    rw [hquot]
    omega
  · have hle : (size + 8 + (aclMtu - 4) - 1) / (aclMtu - 4) ≤ size + 8 + (aclMtu - 4) - 1 := Nat.div_le_self ..
    calc _ ≤ 32 * 20 := Nat.mul_le_mul (by omega) (by omega)
      _ ≤ 65535 := by decide

section Fits
variable {host : L2capHost} (hm' : host.aclMtu < 65536) {body : List UInt8}

include hm' in
theorem packets_of_fits {size : Nat} (hfits : BodyFits host.aclMtu size) :
    (size + 8 + (host.aclMtu - 4) - 1) / (host.aclMtu - 4) * host.aclMtu ≤ 65535 := by
  unfold BodyFits at hfits
  split at hfits
  · rename_i hfill
    rcases hfill with heq | heq
    · exact packets_small (by omega) hm' (by omega)
    · exact packets_small (by omega) hm' (by omega)
  · have hone : (size + 8 + (host.aclMtu - 4) - 1) / (host.aclMtu - 4) = 1 := Nat.div_eq_of_lt_le (by omega) (by omega)
    rw [hone]
    omega

/-- A body that is stored where it would be written. -/
theorem stores_of_fits (hfits : BodyFits host.aclMtu body.length) {w : BufferWriter} (hw : PastHeaders host.aclMtu w)
    (hlen : 0 < body.length) (hroom : body.length ≤ w.room) :
    w.Stores body ∧ w.storeN body = (bteBufferWriterWrite w body).2 := by
  have hpacket := hw.packet
  have hhdr := hw.header
  unfold BodyFits at hfits
  rcases hw.pos with ⟨hfill, hpos⟩ | ⟨hlarge, hpos⟩
  · -- the headers fill a packet, and the body goes into the next
    rw [if_pos hfill] at hfits
    cases hn : w.next with
    | nil =>
      rw [BufferWriter.room, hn, List.map_nil, List.sum_nil] at hroom
      omega
    | cons q next =>
      have hq := hw.next q (hn ▸ List.mem_cons_self)
      exact ⟨.inr ((ptrN_end (by omega) hn _).2 (by omega)), storeN_next hlen (by omega) hn (by omega)⟩
  · have hfill : ¬ HeadersFill host.aclMtu := by
      unfold HeadersFill
      omega
    rw [if_neg hfill] at hfits
    exact ⟨.inr ((ptrN_inside (by omega) _).2 (by omega)), storeN_eq_write hlen (by omega)⟩

/-- So is none at all: there is no packet behind headers that fill theirs. -/
theorem stores_nil {w : BufferWriter} (hw : PastHeaders host.aclMtu w)
    (hroom : w.room + 12 = (0 + 8 + (host.aclMtu - 4) - 1) / (host.aclMtu - 4) * (host.aclMtu - 4) + 4) :
    w.Stores [] ∧ w.storeN [] = (bteBufferWriterWrite w []).2 := by
  rw [write_nil]
  refine ⟨.inl rfl, storeN_nil ?_⟩
  rcases hw.pos with ⟨hfill, hpos⟩ | ⟨hlarge, hpos⟩
  · right
    cases hn : w.next with
    | nil => rfl
    | cons q next =>
      rw [BufferWriter.room, hn, List.map_cons, List.sum_cons, hw.next q (hn ▸ List.mem_cons_self), hw.header] at hroom
      rcases hfill with heq | heq <;> rw [heq] at hroom <;> omega
  · left
    have hpacket := hw.packet
    omega

include hm' in
/-- What is written behind the headers is put together. -/
theorem reassembles_write (hm : host.aclMtu = 8 ∨ 12 ≤ host.aclMtu) (hc : host.connHandle ≤ 0xfff) {w : BufferWriter}
    (hw : PastHeaders host.aclMtu w) {code id : Nat}
    (hwr : w.written = leBytes 2 (body.length + 4) ++ leBytes 2 bteL2capChannelIdSignalling ++
        signalHeader code id body.length)
    (hroom : w.room + 12 = (body.length + 8 + (host.aclMtu - 4) - 1) / (host.aclMtu - 4) * (host.aclMtu - 4) + 4)
    (hframes : w.buffer.map (Packet.frame 4) = messageFrames host.aclMtu host.connHandle (body.length + 8)
      ((body.length + 8 + (host.aclMtu - 4) - 1) / (host.aclMtu - 4))) :
    Reassembles host.connHandle (bteBufferWriterEnd (bteBufferWriterWrite w body).2) (commandBytes code id body) := by
  have hneed := packets_needed (show 0 < host.aclMtu - 4 by omega) (show 0 < body.length + 8 by omega)
  obtain ⟨-, hwf, hhdr, hwritten, -, hframes'⟩ := write_spec hw.wf (show body.length ≤ w.room by omega)
  rw [hw.header] at hhdr hframes'
  have hbytes : (bteBufferWriterWrite w body).2.written = commandBytes code id body := by rw [hwritten, hwr, commandBytes]
  rw [← hbytes]
  refine reassembles_writerEnd hwf hhdr (by omega) hm' hc hneed.2.1 ?_ (hframes'.trans hframes)
  rw [hbytes]
  simp [commandBytes, signalHeader]
  omega

include hm' in
/-- **A body that fits is carried.** -/
theorem carries_of_fits (hc : host.connHandle ≤ 0xfff) (code id : Nat) (hfits : host.Fits body.length) :
    CarriesBody host code id body := by
  obtain ⟨hbody, hblocks⟩ := hfits
  have hm := headers_of_fits hbody
  have hneed := packets_needed (show 0 < host.aclMtu - 4 by omega) (show 0 < body.length + 8 by omega)
  obtain ⟨message, hopens, -, hcreate, hpast, hwr, hroom, hframes⟩ :=
    createCmd_writer hm hm' (packets_of_fits hm' hbody) code id
  have hstored : (message.storeN (signalHeader code id body.length)).Stores body ∧
      (message.storeN (signalHeader code id body.length)).storeN body =
        (bteBufferWriterWrite (message.storeN (signalHeader code id body.length)) body).2 := by
    rcases Nat.eq_zero_or_pos body.length with hzero | hlen
    · obtain rfl := List.eq_nil_of_length_eq_zero hzero
      exact stores_nil hpast hroom
    · exact stores_of_fits hbody hpast hlen (by omega)
  obtain ⟨hstores, hstore⟩ := hstored
  refine ⟨message, _, hopens hblocks, hstores, ?_, reassembles_write hm' hm hc hpast hwr hroom hframes⟩
  rw [cmdPackets, hcreate, Option.map_some, hstore]

include hm' in
/-- **A reply of a few bytes is carried** if the packets hold the headers. -/
theorem carriesReply_of_fits (hc : host.connHandle ≤ 0xfff) (code id : Nat) (hlen : body.length ≤ 8)
    (hfits : host.HeadersFit) : CarriesReply host code id body := by
  obtain ⟨hm, hblocks⟩ := hfits
  obtain ⟨message, hopens, -, hcreate, hpast, hwr, hroom, hframes⟩ :=
    createCmd_writer hm hm' (packets_small (by omega) hm' hlen) code id
  refine ⟨message, _, hopens hblocks, ?_, reassembles_write hm' hm hc hpast hwr hroom hframes⟩
  rw [replyPackets, hcreate, Option.map_some]

/-- Further writes leave the bytes before them as they are, whether there is room or not. -/
theorem writeAll_prefix : ∀ (ds : List (List UInt8)) {w : BufferWriter}, w.Wf →
    (writeAll w ds).2.headerSize = w.headerSize ∧ w.written <+: (writeAll w ds).2.written
  | [], w, _ => ⟨rfl, List.prefix_refl _⟩
  | d :: ds, w, hw => by
    obtain ⟨-, hwf, hhdr, hwr, -, -⟩ := write_placed hw d
    obtain ⟨hhdr', hpre⟩ := writeAll_prefix ds hwf
    exact ⟨hhdr'.trans hhdr, (List.prefix_append ..).trans (hwr ▸ hpre)⟩

include hm' in
/-- **A head that fits is carried**, if the size of the message does not wrap around. -/
theorem carriesHead_of_fits (code id : Nat) {size : Nat} (hlen : 0 < body.length) (hle : body.length ≤ size)
    (hfits : host.Fits body.length) (hsizes : packetsNeeded host.aclMtu (l2capSignalHdrLen + size) * host.aclMtu < 65536) :
    CarriesHead host code id size body := by
  obtain ⟨hbody, hblocks⟩ := hfits
  have hm := headers_of_fits hbody
  have hpackets : packetsNeeded host.aclMtu (l2capSignalHdrLen + size) =
      (size + 8 + (host.aclMtu - 4) - 1) / (host.aclMtu - 4) := by
    unfold packetsNeeded messageTotal l2capHdrLen l2capSignalHdrLen bteAclHdrLen
    rw [show 4 + (4 + size) = size + 8 by omega]
  have hneed := packets_needed (show 0 < host.aclMtu - 4 by omega) (show 0 < size + 8 by omega)
  rw [hpackets] at hsizes
  obtain ⟨message, hopens, hframes, -, hpast, hwr, hroom, -⟩ := createCmd_writer hm hm' (Nat.le_of_lt_succ hsizes) code id
  obtain ⟨hstores, hstore⟩ := stores_of_fits hbody hpast hlen (by omega)
  refine ⟨message, hopens hblocks, hstores, ?_, fun pieces => ?_⟩
  · have hlength := congrArg List.length hframes
    rw [List.length_map, messageFrames, List.length_map, List.length_range] at hlength
    rw [payloadRoom_full (size_of_messageFrames hframes), hlength]
    exact hneed.1
  · obtain ⟨-, hwf, hhdr, hwritten, -, -⟩ := write_placed hpast.wf body
    obtain ⟨hhdr', hpre⟩ := writeAll_prefix pieces hwf
    have hend := writerEnd_stream
      (writeAll (bteBufferWriterWrite (message.storeN (signalHeader code id size)) body).2 pieces).2
    rw [hhdr', hhdr, hpast.header] at hend
    rw [hstore, hend, ← hwr]
    rw [hwritten, List.take_of_length_le (by omega)] at hpre
    exact hpre.trans (List.prefix_append ..)

end Fits

/-! ## A body that does not fit -/

/-- **The headers of a command that opens** fill a packet, or there is room behind them in the first. -/
theorem opens_front {host : L2capHost} (hm : 4 < host.aclMtu) {size : Nat} {message : BufferWriter}
    (h : host.Opens size message) (code id : Nat) :
    (host.aclMtu = 8 ∨ 12 ≤ host.aclMtu) ∧
    ∃ before front next pos, message.storeN (signalHeader code id size) = ⟨before, front, next, pos, 4⟩ ∧
      front.size ≤ host.aclMtu ∧ (∀ q ∈ next, q.size ≤ host.aclMtu) ∧
      ((host.aclMtu = 8 ∧ pos = front.size) ∨
        (12 ≤ host.aclMtu ∧ pos = 12 ∧ 12 ≤ front.size ∧ (front.size < host.aclMtu → next = []))) := by
  obtain ⟨head, next, req, hw, hsize, hlast, hsizes⟩ := createMessage_front h.created
  have hheader := h.header
  have hlen : (signalHeader code id size).length = 4 := by simp [signalHeader]
  have hnone : ∀ v : BufferWriter, v.posInPacket = 4 → v.packet.size = head.size → (head.size < host.aclMtu → v.next = []) →
      head.size < 8 → bteBufferWriterPtrN v 4 = (none, v) := by
    intro v hpos hpacket hnext hshort
    by_cases hfour : 4 < head.size
    · exact ptrN_none_inside (by omega) (by omega)
    · have hturn : v.turn = none := by rw [BufferWriter.turn, if_pos (by omega), hnext (by omega)]
      simp only [bteBufferWriterPtrN, hturn]
  by_cases hshort : head.size < 8
  · -- there is no pointer for the L2CAP header, and none for the next
    have hv := hnone ⟨[], head, next, 4, 4⟩ rfl rfl (fun hlt => hlast (by omega)) hshort
    rw [BufferWriter.writeL2capHeader, show l2capHdrLen = 4 from rfl, hv] at hw
    rw [hw, show l2capSignalHdrLen = 4 from rfl, hv] at hheader
    cases hheader
  rw [BufferWriter.writeL2capHeader, show l2capHdrLen = 4 from rfl,
    ptrN_some_inside (show 4 < head.size by omega) (show 4 + 4 ≤ head.size by omega)] at hw
  simp only at hw
  generalize hfront : (head.store 4 _).store (4 + 2) _ = front at hw
  have hfrontSize : front.size = head.size := hfront ▸ rfl
  clear hfront
  subst hw
  unfold BufferWriter.storeN
  rw [hlen]
  rw [show l2capSignalHdrLen = 4 from rfl] at hheader
  by_cases height : head.size = 8
  · -- it fills the first packet, and the header of the command the second
    cases next with
    | nil =>
      rw [ptrN_last (by simp only; omega) rfl] at hheader
      cases hheader
    | cons q next =>
      have hmtu : host.aclMtu = 8 := by
        have hmore : host.aclMtu < req := Nat.lt_of_not_le fun hle => by cases hlast hle
        omega
      have hroom := (ptrN_end (show front.size ≤ 8 by omega) rfl 4).1 hheader
      have hq := hsizes q List.mem_cons_self
      have hturn : BufferWriter.turn ⟨[], front, q :: next, 4 + 4, 4⟩ = some ⟨[front], q, next, 4, 4⟩ := by
        rw [BufferWriter.turn, if_pos (by simp only; omega)]
        rfl
      have hptr : bteBufferWriterPtrN ⟨[], front, q :: next, 4 + 4, 4⟩ 4 = (some 4, ⟨[front], q, next, 8, 4⟩) := by
        simp only [bteBufferWriterPtrN, hturn]
        rw [if_neg (by simp only at hroom; omega)]
      rw [hptr]
      refine ⟨.inl hmtu, _, _, _, _, rfl, ?_, fun r hr => hsizes r (List.mem_cons_of_mem q hr), .inl ⟨hmtu, ?_⟩⟩
      · exact hq
      · simp only [Packet.store] at hroom ⊢
        omega
  · have hfit := (ptrN_inside (w := ⟨[], front, next, 4 + 4, 4⟩) (by simp only; omega) 4).1 hheader
    simp only at hfit
    rw [ptrN_some_inside (by simp only; omega) (by simp only; omega)]
    refine ⟨.inr (by omega), _, _, _, _, rfl, ?_, hsizes, .inr ⟨by omega, rfl, ?_, fun hlt => hlast ?_⟩⟩
    · simp only [Packet.store]
      omega
    · simp only [Packet.store]
      omega
    · simp only [Packet.store] at hlt
      omega

/-- **There is no pointer for a body that does not fit**, however many packets there are. -/
theorem fits_of_stores {host : L2capHost} (hm : 4 < host.aclMtu) {code id size : Nat} {body : List UInt8}
    {message : BufferWriter} (h : host.Opens size message)
    (hstores : (message.storeN (signalHeader code id size)).Stores body) : BodyFits host.aclMtu body.length := by
  obtain ⟨-, before, front, next, pos, hw, hsize, hsizes, hpos⟩ := opens_front hm h code id
  rw [hw] at hstores
  unfold BodyFits
  rcases hstores with rfl | hptr
  · rw [List.length_nil]
    split
    · omega
    · rename_i hfill
      rcases hpos with ⟨hmtu, -⟩ | ⟨hmtu, -⟩
      · exact absurd (.inl hmtu) hfill
      · omega
  · by_cases hend : front.size ≤ pos
    · cases next with
      | nil =>
        rw [ptrN_last hend rfl] at hptr
        cases hptr
      | cons q next =>
        have hfit := (ptrN_end hend rfl _).1 hptr
        have hq := hsizes q List.mem_cons_self
        rcases hpos with ⟨hmtu, -⟩ | ⟨-, hpos, hfront, hlast⟩
        · rw [if_pos (show HeadersFill host.aclMtu from .inl hmtu)]
          simp only at hfit
          omega
        · have hfull : front.size = host.aclMtu := by
            by_contra hne
            cases hlast (by omega)
          rw [if_pos (show HeadersFill host.aclMtu from .inr (by omega))]
          simp only at hfit
          omega
    · have hfit := (ptrN_inside (w := ⟨before, front, next, pos, 4⟩) (Nat.lt_of_not_le hend) _).1 hptr
      have hlarge : 12 < host.aclMtu ∧ pos = 12 := by
        rcases hpos with ⟨-, hpos⟩ | ⟨-, hpos, -⟩ <;> omega
      have hfill : ¬ HeadersFill host.aclMtu := by
        unfold HeadersFill
        omega
      simp only at hfit
      rw [if_neg hfill]
      omega

/-- The packets of an allocation hold no more than was asked for. -/
theorem allocLoop_sum_le (mem : Nat → Nat → UInt8) (requested blockSize : Nat) : ∀ fuel i remaining : Nat,
    ((allocLoop mem requested blockSize fuel i remaining).map Packet.size).sum ≤ remaining
  | 0, _, _ => Nat.zero_le _
  | fuel + 1, i, remaining => by
    unfold allocLoop
    split
    · exact Nat.zero_le _
    · simp only [List.map_cons, List.sum_cons, bteBufferAllocContiguous]
      have hrest := allocLoop_sum_le mem requested blockSize fuel (i + 1)
        (remaining - if remaining > blockSize then blockSize else remaining)
      split at hrest <;> split <;> omega

theorem payloadRoom_le_sizes (ps : List Packet) : payloadRoom ps ≤ (ps.map Packet.size).sum := by
  unfold payloadRoom
  induction ps with
  | nil => exact Nat.zero_le _
  | cons p ps ih =>
    simp only [List.map_cons, List.sum_cons]
    omega

/-- The packets of a message have no more room than 16 bits say. -/
theorem payloadRoom_lt {host : L2capHost} {size : Nat} {message : BufferWriter} (h : host.Opens size message) :
    payloadRoom message.buffer < 65536 := by
  have hle := payloadRoom_le_sizes message.buffer
  rw [(created_sizes host.mem host.aclMtu host.connHandle ((l2capSignalHdrLen + size) % 65536)
    bteL2capChannelIdSignalling).2 message h.created] at hle
  have hreq : requestSize host.aclMtu ((l2capSignalHdrLen + size) % 65536) < 65536 := Nat.mod_lt _ (by decide)
  have hsum := allocLoop_sum_le host.mem (requestSize host.aclMtu ((l2capSignalHdrLen + size) % 65536)) host.aclMtu
    (requestSize host.aclMtu ((l2capSignalHdrLen + size) % 65536)) 0
    (requestSize host.aclMtu ((l2capSignalHdrLen + size) % 65536))
  unfold bteBufferAlloc at hle
  omega

section NotFits
variable {host : L2capHost} (hm : 4 < host.aclMtu) (hm' : host.aclMtu < 65536)
include hm hm'

/-- Packets that are full lie in blocks that hold them, or none does. -/
theorem blocks_of_opens {size : Nat} {message : BufferWriter} (h : host.Opens size message)
    (hfit : (size + 8 + (host.aclMtu - 4) - 1) / (host.aclMtu - 4) * host.aclMtu ≤ 65535) :
    host.HeadersFit := by
  have hheaders := (opens_front hm h 0 0).1
  have hcreated := h.created
  obtain ⟨w', hw', -, -, -, -, hframes⟩ := aclL2capCreateMessage_spec host.mem host.connHandle bteL2capChannelIdSignalling
    (show 8 ≤ host.aclMtu by omega) hm'
        (show (size + 4 + 4 + (host.aclMtu - 4) - 1) / (host.aclMtu - 4) * host.aclMtu ≤ 65535
      from hfit)
  have hlow : (l2capSignalHdrLen + size) % 65536 = size + 4 := by
    have hneed := packets_needed (show 0 < host.aclMtu - 4 by omega) (show 0 < size + 8 by omega)
    have hle : (size + 8 + (host.aclMtu - 4) - 1) / (host.aclMtu - 4) * (host.aclMtu - 4) ≤
        (size + 8 + (host.aclMtu - 4) - 1) / (host.aclMtu - 4) * host.aclMtu := Nat.mul_le_mul_left _ (by omega)
    unfold l2capSignalHdrLen
    omega
  rw [hlow, hw', Option.some.injEq] at hcreated
  subst hcreated
  exact ⟨hheaders, (forall_holds_iff _ w'.buffer_ne_nil (size_of_messageFrames hframes)).1 h.held⟩

/-- **A command carries its body if and only if the body fits into one packet**, the first, or the one behind the headers if
these fill it, and a packet and its header are no more than the 16-bit size of a block says. -/
theorem carries_iff (hc : host.connHandle ≤ 0xfff) (code id : Nat) {body : List UInt8} :
    CarriesBody host code id body ↔ host.Fits body.length := by
  refine ⟨fun h => ?_, carries_of_fits hm' hc code id⟩
  obtain ⟨message, packets, hopens, hstores, -⟩ := h
  have hbody := fits_of_stores hm hopens hstores
  exact ⟨hbody, (blocks_of_opens hm hm' hopens (packets_of_fits hm' hbody)).2⟩

/-- A reply of a few bytes needs no more than its headers. -/
theorem carriesReply_iff (hc : host.connHandle ≤ 0xfff) (code id : Nat) {body : List UInt8} (hlen : body.length ≤ 8) :
    CarriesReply host code id body ↔ host.HeadersFit := by
  refine ⟨fun h => ?_, carriesReply_of_fits hm' hc code id hlen⟩
  obtain ⟨message, packets, hopens, -⟩ := h
  have hheaders := (opens_front hm hopens 0 0).1
  exact blocks_of_opens hm hm' hopens (packets_small (by omega) hm' hlen)

/-- **A head is carried exactly if it fits, and the size of the message does not wrap around.** -/
theorem carriesHead_iff (code id : Nat) {size : Nat} {head : List UInt8} (hlen : 0 < head.length)
    (hle : head.length ≤ size) : CarriesHead host code id size head ↔
      host.Fits head.length ∧ packetsNeeded host.aclMtu (l2capSignalHdrLen + size) * host.aclMtu < 65536 := by
  refine ⟨?_, fun h => carriesHead_of_fits hm' code id hlen hle h.1 h.2⟩
  rintro ⟨message, hopens, hstores, hroom, -⟩
  have hsmall := payloadRoom_lt hopens
  have hlow : (l2capSignalHdrLen + size) % 65536 = l2capSignalHdrLen + size := by
    unfold l2capSignalHdrLen
    omega
  have hcreated := hopens.created
  rw [hlow] at hcreated
  have hsizes : packetsNeeded host.aclMtu (l2capSignalHdrLen + size) * host.aclMtu < 65536 := by
    by_contra hwrap
    have hshort := wrapped_short hm hm' host.mem (show l2capSignalHdrLen + size < 65536 by unfold l2capSignalHdrLen; omega)
      (.inr (Nat.not_lt.1 hwrap)) hcreated
    unfold messageTotal l2capHdrLen l2capSignalHdrLen at hshort
    omega
  have hpackets : packetsNeeded host.aclMtu (l2capSignalHdrLen + size) =
      (size + 8 + (host.aclMtu - 4) - 1) / (host.aclMtu - 4) := by
    unfold packetsNeeded messageTotal l2capHdrLen l2capSignalHdrLen bteAclHdrLen
    rw [show 4 + (4 + size) = size + 8 by omega]
  exact ⟨⟨fits_of_stores hm hopens hstores, (blocks_of_opens hm hm' hopens (by rw [← hpackets]; omega)).2⟩, hsizes⟩

end NotFits

/-! ## Echo over the smallest controller -/

/-- A controller whose packets hold 23 bytes behind the ACL header. -/
def narrowHost : L2capHost := { plainHost with aclMtu := 27 }

/-- **Sixteen bytes of echo data find no pointer.** -/
theorem not_carries_echo : (aclL2capCreateCmd narrowHost l2capSignalEchoReq 1 16).isSome ∧
    ¬ CarriesBody narrowHost l2capSignalEchoReq 1 (List.replicate 16 0) := by
  refine ⟨by decide, ?_⟩
  rintro ⟨message, packets, hopens, hstores, -⟩
  exact absurd (fits_of_stores (by decide) hopens hstores) (by decide)

/-- Fifteen do. -/
theorem carries_iff_echo : CarriesBody narrowHost l2capSignalEchoReq 1 (List.replicate 15 0) :=
  (carries_iff (by decide) (by decide) (by decide) l2capSignalEchoReq 1).2 (by decide)

end Bte
