import BtEmbedded.SdpClient
/-!
# SdpPdu — PDUs in one ACL packet, and PDUs of the peer

A request that fits one ACL packet is built in place: every pointer the client asks for is contiguous and every write
succeeds, so the packet of `last_req` holds the header and the parameters (`IsPdu`), from which the next request is made.
A reply may come in any number of packets (`Holds`).
-/
namespace Bte

open Bytes

/-! ## Writing into one packet -/

/-- The writer works on one packet of `size` bytes and has placed `bytes` behind its ACL header. -/
structure OnePacket (w : BufferWriter) (size : Nat) (bytes : List UInt8) : Prop where
  before : w.before = []
  next : w.next = []
  header : w.headerSize = 4
  wf : w.Wf
  packet : w.packet.size = size
  written : w.written = bytes

theorem OnePacket.pos {w : BufferWriter} {size : Nat} {bytes : List UInt8} (h : OnePacket w size bytes) :
    w.posInPacket = 4 + bytes.length := by
  have hlen := congrArg List.length h.written
  have hpos := h.wf.pos
  have hhdr := h.wf.header
  have hdata := h.wf.packet.1
  rw [h.header] at hhdr
  simp only [BufferWriter.written, h.before, h.header, List.flatMap_nil, List.nil_append] at hlen
  rw [length_slice (by omega)] at hlen
  omega

theorem OnePacket.room {w : BufferWriter} {size : Nat} {bytes : List UInt8} (h : OnePacket w size bytes) :
    w.room = size - (4 + bytes.length) := by
  simp [BufferWriter.room, h.next, h.packet, h.pos]

/-- What a write into the packet leaves. -/
theorem writeLoop_one {w : BufferWriter} {data : List UInt8} (hfit : w.posInPacket + data.length ≤ w.packet.size) :
    (bteBufferWriterWrite w data).2.before = w.before ∧ (bteBufferWriterWrite w data).2.next = w.next ∧
    (bteBufferWriterWrite w data).2.packet.size = w.packet.size := by
  unfold bteBufferWriterWrite writeLoop
  by_cases h0 : data.length = 0
  · simp [h0]
  · simp [h0, hfit, Packet.store]

theorem OnePacket.write {w : BufferWriter} {size : Nat} {bytes : List UInt8} (h : OnePacket w size bytes)
    (data : List UInt8) (hfit : 4 + bytes.length + data.length ≤ size) :
    (bteBufferWriterWrite w data).1 = true ∧ OnePacket (bteBufferWriterWrite w data).2 size (bytes ++ data) := by
  have hpos := h.pos
  have hroom := h.room
  obtain ⟨hok, hwf, hhdr, hwr, _, _⟩ := write_spec h.wf (show data.length ≤ w.room by omega)
  obtain ⟨hbefore, hnext, hsize⟩ :=
    writeLoop_one (show w.posInPacket + data.length ≤ w.packet.size by rw [hpos, h.packet]; omega)
  refine ⟨hok, hbefore.trans h.before, hnext.trans h.next, hhdr.trans h.header, hwf, hsize.trans h.packet, ?_⟩
  rw [hwr, h.written]

theorem OnePacket.writeAll {size : Nat} : ∀ (ds : List (List UInt8)) {w : BufferWriter} {bytes : List UInt8},
    OnePacket w size bytes → 4 + bytes.length + ds.flatten.length ≤ size →
    (Bte.writeAll w ds).1.all id = true ∧ OnePacket (Bte.writeAll w ds).2 size (bytes ++ ds.flatten)
  | [], w, bytes, h, _ => by
    rw [List.flatten_nil, List.append_nil]
    exact ⟨rfl, h⟩
  | d :: ds, w, bytes, h, hfit => by
    rw [List.flatten_cons, List.length_append] at hfit
    obtain ⟨hok, hone⟩ := h.write d (by omega)
    obtain ⟨hok', hone'⟩ := OnePacket.writeAll ds hone (by rw [List.length_append]; omega)
    rw [List.append_assoc, ← List.flatten_cons] at hone'
    refine ⟨?_, hone'⟩
    rw [Bte.writeAll, List.all_cons, hok, hok']
    rfl

/-- Filling the space behind a pointer is writing, when there is space in the packet. -/
theorem fill_eq_write {w : BufferWriter} {data : List UInt8} (hpos : 0 < data.length)
    (hfit : w.posInPacket + data.length ≤ w.packet.size) :
    w.fill data.length data = some (bteBufferWriterWrite w data).2 ∧
    (bteBufferWriterWrite w data).2.posInPacket = w.posInPacket + data.length ∧
    (bteBufferWriterWrite w data).2.packet.size = w.packet.size := by
  have hturn : w.turn = some w := by
    rw [BufferWriter.turn, if_neg (by omega)]
  have hptr : ¬ data.length > w.packet.size - w.posInPacket := by omega
  have hw : (bteBufferWriterWrite w data).2 =
      ⟨w.before, w.packet.store w.posInPacket data, w.next, w.posInPacket + data.length, w.headerSize⟩ := by
    unfold bteBufferWriterWrite writeLoop
    rw [if_neg (by omega), if_pos hfit]
  rw [hw]
  refine ⟨?_, rfl, rfl⟩
  simp only [BufferWriter.fill, bteBufferWriterPtrN, hturn, if_neg hptr]

theorem OnePacket.fill {w : BufferWriter} {size : Nat} {bytes : List UInt8} (h : OnePacket w size bytes)
    (data : List UInt8) (hpos : 0 < data.length) (hfit : 4 + bytes.length + data.length ≤ size) :
    ∃ w', w.fill data.length data = some w' ∧ OnePacket w' size (bytes ++ data) :=
  ⟨_, (fill_eq_write hpos (by rw [h.pos, h.packet]; exact hfit)).1, (h.write data hfit).2⟩

/-- Ending the writer. -/
theorem OnePacket.finish {w : BufferWriter} {size : Nat} {bytes : List UInt8} (h : OnePacket w size bytes) :
    ∃ p, bteBufferWriterEnd w = [p] ∧ p.Wf ∧ p.payload 4 = bytes := by
  have hpos := h.wf.pos
  have hwf := h.wf.packet
  refine ⟨_, by simp only [bteBufferWriterEnd, h.before, h.next, List.nil_append]; rfl, ?_, ?_⟩
  · exact ⟨by simp only; have := hwf.1; omega, by simp only; have := hwf.2; omega⟩
  · have hw := h.written
    simp only [BufferWriter.written, h.before, h.header, List.flatMap_nil, List.nil_append] at hw
    rw [payload_eq_slice]
    exact hw

/-! ## Requests that fit -/

/-- A request with `n` bytes of parameters fits one ACL packet and the channel, there is memory for it, and
`bte_l2cap_send_message` accepts it. -/
structure SdpEnv.Accepts (env : SdpEnv) (n : Nat) : Prop where
  channel : env.remoteChannelId ≠ 0
  mtu : pduHeaderSize + n ≤ env.remoteMtu
  packet : pduOffsetParams + n ≤ env.aclMtu
  blocks : env.layout.sizeofBuffer + env.aclMtu < 65536
  memory : env.allocates = true
  accepted : 0 ≤ env.sendMessage

instance (env : SdpEnv) (n : Nat) : Decidable (env.Accepts n) :=
  decidable_of_iff (env.remoteChannelId ≠ 0 ∧ pduHeaderSize + n ≤ env.remoteMtu ∧ pduOffsetParams + n ≤ env.aclMtu ∧
    env.layout.sizeofBuffer + env.aclMtu < 65536 ∧ env.allocates = true ∧ 0 ≤ env.sendMessage)
    ⟨fun h => ⟨h.1, h.2.1, h.2.2.1, h.2.2.2.1, h.2.2.2.2.1, h.2.2.2.2.2⟩,
      fun h => ⟨h.channel, h.mtu, h.packet, h.blocks, h.memory, h.accepted⟩⟩

/-- The header of a PDU. -/
def pduHeader (code : UInt8) (id n : Nat) : List UInt8 := code :: (beBytes 2 id ++ beBytes 2 n)

/-- A PDU is the message in `ps`, one ACL packet. -/
def IsPdu (ps : List Packet) (code : UInt8) (id : Nat) (params : List UInt8) : Prop :=
  ∃ p cid, ps = [p] ∧ p.Wf ∧
    p.payload 4 = leBytes 2 (pduHeaderSize + params.length) ++ leBytes 2 cid ++ (pduHeader code id params.length ++ params)

theorem createMessage_one {env : SdpEnv} {n : Nat} (h : env.Accepts n) :
    ∃ w, bteL2capCreateMessage env.mem env.aclMtu env.connHandle env.remoteChannelId env.remoteMtu
        ((pduHeaderSize + n) % 65536) = some w ∧
      OnePacket w env.aclMtu (leBytes 2 (pduHeaderSize + n) ++ leBytes 2 env.remoteChannelId) := by
  obtain ⟨hcid, hmtu, hpacket, hblocks, _, _⟩ := h
  have hacl : env.aclMtu < 65536 := by omega
  have hm := hpacket
  unfold pduOffsetParams at hm
  have h5 : pduHeaderSize = 5 := rfl
  have hmod : (pduHeaderSize + n) % 65536 = pduHeaderSize + n := Nat.mod_eq_of_lt (by omega)
  have hone : (pduHeaderSize + n + 4 + (env.aclMtu - 4) - 1) / (env.aclMtu - 4) = 1 :=
    Nat.div_eq_of_lt_le (by omega) (by omega)
  obtain ⟨w, hw, hwf, hhdr, hwr, hroom, hframes⟩ := aclL2capCreateMessage_spec env.mem env.connHandle
    env.remoteChannelId (show 8 ≤ env.aclMtu by omega) hacl
    (show (pduHeaderSize + n + 4 + (env.aclMtu - 4) - 1) / (env.aclMtu - 4) * env.aclMtu ≤ 65535 by rw [hone]; omega)
  have hl : w.buffer.length = 1 := by
    have hl := congrArg List.length hframes
    rw [hone] at hl
    simpa [messageFrames] using hl
  have hlists : w.before = [] ∧ w.next = [] := by
    simp only [BufferWriter.buffer, List.length_append, List.length_cons] at hl
    exact ⟨List.eq_nil_of_length_eq_zero (by omega), List.eq_nil_of_length_eq_zero (by omega)⟩
  have hsize : w.packet.size = env.aclMtu := by
    rw [hone] at hframes
    simp only [BufferWriter.buffer, hlists.1, hlists.2, List.nil_append, List.map_cons, List.map_nil, messageFrames,
      List.range_one, Packet.frame, List.cons.injEq, Prod.mk.injEq] at hframes
    exact hframes.1.1
  refine ⟨w, ?_, hlists.1, hlists.2, hhdr, hwf, hsize, hwr⟩
  rw [hmod, bteL2capCreateMessage, if_neg (by omega), hw]

/-- `create_pdu` of a request that fits: the writer is behind the headers. -/
theorem createPdu_one {env : SdpEnv} {n : Nat} (h : env.Accepts n) (code : UInt8) (id : Nat) :
    ∃ w, createPdu env code id n = some (some w) ∧ OnePacket w env.aclMtu
      (leBytes 2 (pduHeaderSize + n) ++ leBytes 2 env.remoteChannelId ++ pduHeader code id n) := by
  obtain ⟨w, hw, hone⟩ := createMessage_one h
  have hfit := h.packet
  unfold pduOffsetParams at hfit
  have hlen : (pduHeader code id n).length = pduHeaderSize := by simp [pduHeader, pduHeaderSize]
  obtain ⟨w', hfill, hone'⟩ := hone.fill (pduHeader code id n) (by rw [hlen]; decide)
    (by rw [hlen]; simp [pduHeaderSize]; omega)
  rw [hlen] at hfill
  refine ⟨w', ?_, hone'⟩
  have hmem : ¬ env.allocates = false := by
    rw [h.memory]
    exact Bool.noConfusion
  rw [createPdu, if_neg hmem, hw]
  simp only [pduHeader] at hfill
  simp only [hfill, Option.map_some]

/-- **The packet of a request**: the parameters with an empty continuation state behind them. -/
theorem reqPacket_fits {env : SdpEnv} (s : Sdp) (code : UInt8) {chunks : List (List UInt8)}
    (h : env.Accepts (chunks.flatten.length + 1)) :
    ∃ ps, reqPacket env s code chunks = some (some ps, { s.takeId with continuationOffset := chunks.flatten.length }) ∧
      IsPdu ps code s.nextId (chunks.flatten ++ [0]) := by
  have hpacket := h.packet
  have hacl := h.blocks
  have h13 : pduOffsetParams = 13 := rfl
  have hmod : (chunks.flatten.length + 1) % 65536 = chunks.flatten.length + 1 := Nat.mod_eq_of_lt (by omega)
  obtain ⟨w, hw, hone⟩ := createPdu_one h code s.nextId
  have hlen : (leBytes 2 (pduHeaderSize + (chunks.flatten.length + 1)) ++ leBytes 2 env.remoteChannelId ++
      pduHeader code s.nextId (chunks.flatten.length + 1)).length = 9 := by simp [pduHeader]
  obtain ⟨hok, hone'⟩ := hone.writeAll chunks (by rw [hlen]; omega)
  obtain ⟨hok', hone''⟩ := hone'.write (contStateBytes none)
    (by rw [List.length_append, hlen, show (contStateBytes none).length = 1 from rfl]; omega)
  obtain ⟨p, hp, hwf, hpay⟩ := hone''.finish
  refine ⟨[p], ?_, p, env.remoteChannelId, rfl, hwf, ?_⟩
  · simp only [reqPacket, hmod, hw, hok, hok', hp, Bool.true_eq_false, if_false]
    rw [Nat.mod_eq_of_lt (by omega : chunks.flatten.length < 65536)]
  · rw [hpay]
    simp [contStateBytes]

/-! ## The packet of the last request -/

theorem IsPdu.memory {ps : List Packet} {code : UInt8} {id : Nat} {params : List UInt8} (h : IsPdu ps code id params) :
    ∃ cid rest, (reqMemory ps).drop 4 = leBytes 2 (pduHeaderSize + params.length) ++ leBytes 2 cid ++
      (pduHeader code id params.length ++ params) ++ rest := by
  obtain ⟨p, cid, rfl, hwf, hpay⟩ := h
  refine ⟨cid, p.data.drop (max 4 p.size), ?_⟩
  rw [← hpay]
  have hsplit : p.data.drop 4 = (p.data.take p.size).drop 4 ++ p.data.drop (max 4 p.size) := by
    rcases Nat.le_total 4 p.size with hle | hle
    · have hl : (p.data.take p.size).length = p.size := by
        rw [List.length_take]
        exact Nat.min_eq_left hwf.1
      conv_lhs => rw [← List.take_append_drop p.size p.data]
      rw [List.drop_append_of_le_length (by omega), Nat.max_eq_right hle]
    · have hl : (p.data.take p.size).length ≤ 4 := by
        rw [List.length_take]
        omega
      rw [List.drop_of_length_le hl, List.nil_append, Nat.max_eq_left hle]
  exact hsplit

/-- What is read at the three offsets of a packet that begins with a PDU. -/
theorem read_pdu {mem rest params : List UInt8} {code : UInt8} {size cid id n : Nat}
    (h : mem.drop 4 = leBytes 2 size ++ leBytes 2 cid ++ (pduHeader code id n ++ params) ++ rest) :
    mem.getD pduOffsetOpcode 0 = code ∧ slice mem pduOffsetTransId 2 = beBytes 2 id ∧
    ∀ k ≤ params.length, ∀ beyond, slice (mem ++ beyond) pduOffsetParams k = params.take k := by
  have hoff : ∀ (beyond : List UInt8) off, (mem ++ beyond).drop (4 + (4 + off)) =
      (pduHeader code id n ++ params ++ rest ++ beyond).drop off := by
    intro beyond off
    have hle : 4 ≤ mem.length := by
      by_contra hlt
      have hnil : mem.drop 4 = [] := List.drop_of_length_le (by omega)
      rw [h] at hnil
      simp [leBytes] at hnil
    have hl2cap : (leBytes 2 size ++ leBytes 2 cid).length = 4 := by simp
    rw [← List.drop_drop, ← List.drop_drop, List.drop_append_of_le_length hle, h, List.append_assoc, List.append_assoc,
      List.drop_left' hl2cap, ← List.append_assoc]
  have h0 := hoff [] 0
  have h1 := hoff [] 1
  simp only [List.append_nil, List.drop_zero, pduHeader] at h0 h1
  refine ⟨?_, ?_, ?_⟩
  · rw [List.getD_eq_getElem?_getD, ← List.head?_drop, show pduOffsetOpcode = 4 + (4 + 0) from rfl, h0]
    rfl
  · rw [slice, show pduOffsetTransId = 4 + (4 + 1) from rfl, h1]
    simp only [List.cons_append, List.drop_succ_cons, List.drop_zero, List.append_assoc]
    rw [List.take_append_of_le_length (by simp), List.take_of_length_le (by simp)]
  · intro k hk beyond
    have h5 := hoff beyond 5
    rw [slice, show pduOffsetParams = 4 + (4 + 5) from rfl, h5, pduHeader]
    have hlen : (code :: (beBytes 2 id ++ beBytes 2 n)).length = 5 := by simp
    rw [List.append_assoc, List.append_assoc, List.drop_append, List.drop_of_length_le (by omega), hlen]
    simp only [Nat.sub_self, List.drop_zero, List.nil_append]
    exact List.take_append_of_le_length hk

/-- **What the client reads of its last request**: opcode, transaction id, parameters. -/
theorem IsPdu.read {ps : List Packet} {code : UInt8} {id : Nat} {params : List UInt8} (h : IsPdu ps code id params) :
    (reqMemory ps).getD pduOffsetOpcode 0 = code ∧ slice (reqMemory ps) pduOffsetTransId 2 = beBytes 2 id ∧
    ∀ n ≤ params.length, ∀ beyond, slice (reqMemory ps ++ beyond) pduOffsetParams n = params.take n := by
  obtain ⟨cid, rest, hmem⟩ := h.memory
  exact read_pdu hmem

/-- The bytes of a continuation state of `len` bytes. -/
theorem contStateBytes_some {len : UInt8} {bytes : List UInt8} (rest : List UInt8) (h : bytes.length = len.toNat) :
    contStateLen (some (len :: (bytes ++ rest))) = 1 + bytes.length ∧
    contStateBytes (some (len :: (bytes ++ rest))) = len :: bytes := by
  have hlen : contStateLen (some (len :: (bytes ++ rest))) = 1 + bytes.length := by
    simp [contStateLen, h]
  refine ⟨hlen, ?_⟩
  rw [contStateBytes, hlen, Nat.add_comm, List.take_succ_cons, List.take_append_of_le_length (Nat.le_refl _),
    List.take_of_length_le (Nat.le_refl _)]

/-- **A continuation request that fits**: the opcode and the parameters of the last request, the peer's continuation
state, the next transaction id. -/
theorem sendContinuationRequest_fits {env : SdpEnv} {s : Sdp} {lastReq : List Packet} {code : UInt8} {id : Nat}
    {params tail : List UInt8} (hreq : IsPdu lastReq code id (params ++ tail))
    (hoff : s.continuationOffset = params.length) (hpos : 0 < params.length) {len : UInt8} {bytes : List UInt8}
    (rest : List UInt8) (hlen : bytes.length = len.toNat) (h : env.Accepts (params.length + (1 + bytes.length))) :
    ∃ ps, sendContinuationRequest env s lastReq (some (len :: (bytes ++ rest))) =
        some (true, { s.takeId with lastReq := some ps, sent := s.sent ++ [ps] }) ∧
      IsPdu ps code s.nextId (params ++ len :: bytes) := by
  have hpacket := h.packet
  have hacl := h.blocks
  have h13 : pduOffsetParams = 13 := rfl
  obtain ⟨hop, _, hparams⟩ := hreq.read
  obtain ⟨hcl, hcb⟩ := contStateBytes_some rest hlen
  have hmod : (params.length + (1 + bytes.length)) % 65536 = params.length + (1 + bytes.length) :=
    Nat.mod_eq_of_lt (by omega)
  obtain ⟨w, hw, hone⟩ := createPdu_one h code s.nextId
  have hl9 : (leBytes 2 (pduHeaderSize + (params.length + (1 + bytes.length))) ++ leBytes 2 env.remoteChannelId ++
      pduHeader code s.nextId (params.length + (1 + bytes.length))).length = 9 := by simp [pduHeader]
  obtain ⟨w', hfill, hone'⟩ := hone.fill params hpos (by rw [hl9]; omega)
  obtain ⟨hok, hone''⟩ := hone'.write (len :: bytes)
    (by rw [List.length_append, hl9, List.length_cons]; omega)
  obtain ⟨p, hp, hwf, hpay⟩ := hone''.finish
  have hdata : slice (reqMemory lastReq ++ env.beyond) pduOffsetParams params.length = params := by
    rw [hparams params.length (by rw [List.length_append]; omega), List.take_append_of_le_length (Nat.le_refl _),
      List.take_of_length_le (Nat.le_refl _)]
  refine ⟨[p], ?_, p, env.remoteChannelId, rfl, hwf, ?_⟩
  · simp only [sendContinuationRequest, hop, hoff, hcl, hmod, hw, hdata, hfill, hcb, hok, Bool.true_eq_false, if_false,
      hp, Sdp.submit, ge_iff_le, h.accepted, decide_true, if_true]
    rfl
  · rw [hpay]
    have hcount : (params ++ len :: bytes).length = params.length + (1 + bytes.length) := by
      simp only [List.length_append, List.length_cons]
      omega
    rw [hcount]
    simp only [List.append_assoc]

/-! ## PDUs of the peer -/

/-- The reader is at the beginning of a PDU, whose header is in one packet. -/
structure Holds (r : BufferReader) (code : UInt8) (id : Nat) (params : List UInt8) : Prop where
  wf : r.Wf
  short : params.length < 65536
  rest : r.rest = pduHeader code id params.length ++ params
  whole : (bteBufferReaderReadN r pduHeaderSize).1 ≠ none

instance (r : BufferReader) (code : UInt8) (id : Nat) (params : List UInt8) : Decidable (Holds r code id params) :=
  decidable_of_iff (r.Wf ∧ params.length < 65536 ∧ r.rest = pduHeader code id params.length ++ params ∧
    (bteBufferReaderReadN r pduHeaderSize).1 ≠ none)
    ⟨fun h => ⟨h.1, h.2.1, h.2.2.1, h.2.2.2⟩, fun h => ⟨h.wf, h.short, h.rest, h.whole⟩⟩

/-- A contiguous read that fails takes nothing. -/
theorem readN_none {r : BufferReader} (hw : r.Wf) {size : Nat} (h : (bteBufferReaderReadN r size).1 = none) :
    (bteBufferReaderReadN r size).2.rest = r.rest ∧ (bteBufferReaderReadN r size).2.Wf := by
  unfold bteBufferReaderReadN at h ⊢
  cases ht : r.turn with
  | none => exact ⟨rfl, hw⟩
  | some r' =>
    obtain ⟨hrest, hw', _⟩ := turn_spec hw ht
    rw [ht] at h
    simp only at h ⊢
    by_cases hs : size > r'.packet.size - r'.posInPacket
    · simp only [if_pos hs]
      exact ⟨hrest, hw'⟩
    · rw [if_neg hs] at h
      cases h

/-- The header of a PDU is read in one piece. -/
theorem Holds.header {r : BufferReader} {code : UInt8} {id : Nat} {params : List UInt8} (h : Holds r code id params) :
    ∃ r', bteBufferReaderReadN r pduHeaderSize = (some (pduHeader code id params.length), r') ∧ r'.Wf ∧
      r'.rest = params := by
  obtain ⟨hdr, hhdr⟩ := Option.ne_none_iff_exists'.1 h.whole
  obtain ⟨_, hbytes, hrest, hwf, _⟩ := readN_spec h.wf hhdr
  have hlen : (pduHeader code id params.length).length = pduHeaderSize := by simp [pduHeader, pduHeaderSize]
  refine ⟨(bteBufferReaderReadN r pduHeaderSize).2, ?_, hwf, ?_⟩
  · rw [h.rest, List.take_append_of_le_length (by rw [hlen]), List.take_of_length_le (by rw [hlen])] at hbytes
    rw [← hbytes, ← hhdr]
  · rw [hrest, h.rest, List.drop_append_of_le_length (by rw [hlen]), List.drop_of_length_le (by rw [hlen]), List.nil_append]

/-- The parameters are read whole, in place or copied. -/
theorem readParams_eq (env : SdpEnv) {r : BufferReader} {params : List UInt8} (hw : r.Wf) (hr : r.rest = params)
    (hheap : env.paramsHeap ≠ none) : readParams env r params.length = some (params ++ env.beyond) := by
  unfold readParams
  cases hn : bteBufferReaderReadN r params.length with
  | mk o r' =>
    cases o with
    | some bytes =>
      obtain ⟨_, hbytes, _⟩ := readN_spec hw (show (bteBufferReaderReadN r params.length).1 = some bytes by rw [hn])
      rw [hr, List.take_of_length_le (Nat.le_refl _)] at hbytes
      simp only [hbytes]
    | none =>
      obtain ⟨hrest, hwf⟩ := readN_none hw (show (bteBufferReaderReadN r params.length).1 = none by rw [hn])
      rw [hn] at hrest hwf
      simp only at hrest hwf ⊢
      obtain ⟨m, hm⟩ := Option.ne_none_iff_exists'.1 hheap
      rw [hm]
      have hread := (read_spec hwf params.length).1
      rw [hrest, hr, List.take_of_length_le (Nat.le_refl _)] at hread
      simp only [bteMalloc, Option.map_some, hread]
      rw [blit, List.drop_of_length_le (by simp)]
      simp

/-! ## A client that waits for a reply -/

/-- The last request has these parameters, in front of a continuation state. -/
structure Awaits (s : Sdp) (lastReq : List Packet) (code : UInt8) (id : Nat) (params : List UInt8) : Prop where
  request : s.lastReq = some lastReq
  pdu : ∃ tail, IsPdu lastReq code id (params ++ tail)
  offset : s.continuationOffset = params.length

theorem Awaits.read {s : Sdp} {lastReq : List Packet} {code : UInt8} {id : Nat} {params : List UInt8}
    (h : Awaits s lastReq code id params) :
    (reqMemory lastReq).getD pduOffsetOpcode 0 = code ∧ slice (reqMemory lastReq) pduOffsetTransId 2 = beBytes 2 id := by
  obtain ⟨tail, hpdu⟩ := h.pdu
  exact ⟨hpdu.read.1, hpdu.read.2.1⟩

theorem beBytes_two_inj {a b : Nat} (ha : a < 65536) (hb : b < 65536) (h : beBytes 2 a = beBytes 2 b) : a = b := by
  have hv := congrArg beVal h
  rw [beVal_beBytes, beVal_beBytes] at hv
  omega

/-- Which PDUs answer the request. -/
theorem matchesRequest_iff {s : Sdp} {lastReq : List Packet} {code : UInt8} {id : Nat} {params : List UInt8}
    (h : Awaits s lastReq code id params) (hid : id < 65536) {code' : UInt8} {id' n : Nat} (hid' : id' < 65536) :
    matchesRequest lastReq (pduHeader code' id' n) ↔
      id' = id ∧ (code'.toNat = code.toNat + 1 ∨ code' = pduIdErrorRsp) := by
  obtain ⟨hop, htid⟩ := h.read
  have hslice : slice (pduHeader code' id' n) 1 2 = beBytes 2 id' := by
    simp [slice, pduHeader]
  unfold matchesRequest
  rw [hop, htid, hslice]
  constructor
  · rintro ⟨heq, hcode⟩
    exact ⟨beBytes_two_inj hid' hid heq, hcode⟩
  · rintro ⟨rfl, hcode⟩
    exact ⟨rfl, hcode⟩

/-- **A message that does not answer the request changes nothing.** -/
theorem onMessageReceived_other {s : Sdp} {lastReq : List Packet} {code : UInt8} {id : Nat} {params : List UInt8}
    (h : Awaits s lastReq code id params) (hid : id < 65536) {env : SdpEnv} {r : BufferReader} {ret : Bool} {code' : UInt8}
    {id' : Nat} {params' : List UInt8} (hid' : id' < 65536) (hr : Holds r code' id' params')
    (hne : ¬ (id' = id ∧ (code'.toNat = code.toNat + 1 ∨ code' = pduIdErrorRsp))) :
    onMessageReceived env s r ret = some s := by
  obtain ⟨r', hread, _, _⟩ := hr.header
  rw [← matchesRequest_iff h hid (n := params'.length) hid'] at hne
  simp only [onMessageReceived, h.request, hread, if_neg hne]

/-- **The response to the request**, whatever the packets it comes in, is served with its parameters. -/
theorem onMessageReceived_response {s : Sdp} {lastReq : List Packet} {code : UInt8} {id : Nat} {params : List UInt8}
    (h : Awaits s lastReq code id params) (hid : id < 65536) {env : SdpEnv} {r : BufferReader} (ret : Bool) {code' : UInt8}
    {params' : List UInt8} (hr : Holds r code' id params') (hcode : code'.toNat = code.toNat + 1)
    (hpos : code ≠ 0) (hheap : env.paramsHeap ≠ none) :
    onMessageReceived env s r ret =
      (serveReply env s lastReq 0 (params' ++ env.beyond) params'.length ret).bind (finishReply env lastReq) := by
  obtain ⟨r', hread, hwf, hrest⟩ := hr.header
  have hmatch : matchesRequest lastReq (pduHeader code' id params'.length) :=
    (matchesRequest_iff h hid hid).2 ⟨rfl, .inl hcode⟩
  have hne : code' ≠ pduIdErrorRsp := by
    rintro rfl
    have h0 : code.toNat = 0 := by
      have h1 : pduIdErrorRsp.toNat = 1 := rfl
      omega
    exact hpos (UInt8.toNat_inj.1 h0)
  have herr : readErrorCode code' r' = some (0, r') := by
    rw [readErrorCode, if_neg hne]
  have hlen : beVal (slice (pduHeader code' id params'.length) 3 2) = params'.length := by
    have hs : slice (pduHeader code' id params'.length) 3 2 = beBytes 2 params'.length := by
      rw [slice, pduHeader, List.drop_succ_cons, List.drop_left' (length_beBytes 2 id), List.take_of_length_le (by simp)]
    rw [hs, beVal_beBytes]
    exact Nat.mod_eq_of_lt hr.short
  have hparams := readParams_eq env hwf hrest hheap
  have h0 : (pduHeader code' id params'.length).getD 0 0 = code' := rfl
  simp only [onMessageReceived, h.request, hread, if_pos hmatch, handleReply, h0, herr, hne, false_and, if_false, hlen,
    hparams]

/-- Without a request every message is ignored. -/
theorem onMessageReceived_idle {s : Sdp} (h : s.lastReq = none) (env : SdpEnv) (r : BufferReader) (ret : Bool) :
    onMessageReceived env s r ret = some s := by
  simp only [onMessageReceived, h]

theorem run_idle {s : Sdp} (h : s.lastReq = none) :
    ∀ ms : List SdpMessage, Sys.run sdpStep (some s) (ms.map .message) = some s
  | [] => rfl
  | m :: ms => by
    rw [List.map_cons, Sys.run_cons]
    have hstep : sdpStep (some s) (.message m) = some s := onMessageReceived_idle h m.env m.reader m.ret
    rw [hstep]
    exact run_idle h ms

/-- **A request that fits is sent** if there is no other. -/
theorem sdpRequest_fits {env : SdpEnv} {s : Sdp} (hidle : s.lastReq = none) (code : UInt8) (chunks : List (List UInt8))
    (h : env.Accepts (chunks.flatten.length + 1)) (data : SdpReqData) :
    ∃ ps s', sdpRequest env s (reqPacket env s code chunks) data = some (true, s') ∧
      Awaits s' ps code s.nextId chunks.flatten ∧ IsPdu ps code s.nextId (chunks.flatten ++ [0]) ∧
      s'.nextTransactionId = (s.nextTransactionId + 1) % 2 ^ 32 ∧ s'.sent = s.sent ++ [ps] ∧ s'.calls = s.calls ∧
      s'.reqData = data := by
  obtain ⟨ps, hps, hpdu⟩ := reqPacket_fits s code h
  have hacc := h.accepted
  have hidle' : ¬ s.lastReq ≠ none := not_not.2 hidle
  have hrc : ¬ env.sendMessage < 0 := Int.not_lt.2 hacc
  refine ⟨ps, { ({ s.takeId with continuationOffset := chunks.flatten.length }).submit env ps with reqData := data }, ?_,
    ⟨rfl, ⟨[0], hpdu⟩, rfl⟩, hpdu, rfl, ?_, rfl, rfl⟩
  · simp only [sdpRequest, if_neg hidle', hps, if_neg hrc]
  · simp [Sdp.submit, Sdp.takeId, hacc]

end Bte
