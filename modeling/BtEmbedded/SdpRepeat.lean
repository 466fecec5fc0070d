import BtEmbedded.AclCapacity
import BtEmbedded.SdpProgress
/-!
# SdpRepeat — what a continuation request repeats (sdp.c, l2cap.c, acl.c)

The parameters of a request are copied from its first packet into the first packet of the next, and from that into the
one after, as long as the peer has more.  A request may take several packets, of which the client keeps the first: what
counts is that the parameters lie in it (`Repeatable`).  Then every request of the chain has the same parameters, with
the state that the peer sent last behind them (`continuation_repeats`).
-/
namespace Bte

open Bytes

/-! ## A message in its packets -/

/-- The packets are those of one message: the first starts it, the others continue it, all but the last are full, and
together they carry `bytes`. -/
structure IsMessage (ps : List Packet) (aclMtu connHandle : Nat) (bytes : List UInt8) : Prop where
  packets : ps ≠ []
  wf : ∀ p ∈ ps, p.Wf
  headers : ∀ i p, ps[i]? = some p → p.packetBoundary = (if i = 0 then 2 else 1) ∧ p.connHandle = connHandle ∧
    p.packetLength + 4 = p.size ∧ p.size ≤ aclMtu ∧ (i + 1 < ps.length → p.size = aclMtu)
  payloads : ps.flatMap (Packet.payload 4) = bytes

theorem packetsNeeded_eq (aclMtu size : Nat) :
    packetsNeeded aclMtu size = (size + 4 + (aclMtu - 4) - 1) / (aclMtu - 4) := by
  unfold packetsNeeded messageTotal l2capHdrLen bteAclHdrLen
  rw [Nat.add_comm 4 size]

theorem writerEnd_wf {w : BufferWriter} (hw : w.Wf) : ∀ p ∈ bteBufferWriterEnd w, p.Wf := by
  have hend : (bteBufferWriterEnd w).map (fun p => (p.size, p.data)) = _ := writerEnd_map w fun _ _ => rfl
  intro p hp
  have hmem : (p.size, p.data) ∈ (bteBufferWriterEnd w).map fun p => (p.size, p.data) := List.mem_map_of_mem hp
  rw [hend, List.mem_map] at hmem
  obtain ⟨q, hq, heq⟩ := hmem
  rw [Prod.mk.injEq] at heq
  have hqw : q.Wf := by
    rcases List.mem_append.1 hq with hq | hq
    · exact (hw.before q hq).1
    · rcases List.mem_cons.1 hq with rfl | hq
      · have hpos := hw.pos
        have hpacket := hw.packet
        exact ⟨Nat.le_trans hpos hpacket.1, Nat.lt_of_le_of_lt hpos hpacket.2⟩
      · exact (hw.next q hq).1
  unfold Packet.Wf at hqw ⊢
  rw [← heq.1, ← heq.2]
  exact hqw

section
variable {mem : Nat → Nat → UInt8} {aclMtu connHandle size channelId : Nat} (hm : 8 < aclMtu) (hm' : aclMtu < 65536)
  (hfit : packetsNeeded aclMtu size * aclMtu < 65536) {w : BufferWriter}
  (hw : aclL2capCreateMessage mem aclMtu connHandle size channelId = some w)
include hm hm' hfit hw

/-- The writer of a new message is behind the L2CAP header, in the first packet. -/
theorem created_first : w.Wf ∧ w.headerSize = 4 ∧ w.posInPacket = 8 ∧ w.packet.size = aclMtu ∧ size ≤ w.room ∧
    w.written = leBytes 2 size ++ leBytes 2 channelId ∧
    w.buffer.map (Packet.frame 4) = messageFrames aclMtu connHandle (size + 4) (packetsNeeded aclMtu size) := by
  rw [packetsNeeded_eq] at hfit ⊢
  have hneed := packets_needed (show 0 < aclMtu - 4 by omega) (show 0 < size + 4 by omega)
  obtain ⟨w', hw', hwf, hhdr, hwr, hroom, hframes⟩ := aclL2capCreateMessage_spec mem connHandle channelId
    (show 8 ≤ aclMtu by omega) hm' (Nat.le_of_lt_succ hfit)
  rw [hw, Option.some.injEq] at hw'
  subst hw'
  have hlen := congrArg List.length hwr
  rw [List.length_append, length_leBytes, length_leBytes] at hlen
  obtain ⟨-, hpos, hpacket⟩ := first_packet hwf hhdr hm (size_of_messageFrames hframes) hlen
  exact ⟨hwf, hhdr, hpos, hpacket, by omega, hwr, hframes⟩

/-- **All that was announced is placed**: the packets are a message. -/
theorem created_isMessage (hc : connHandle ≤ 0xfff) (ds : List (List UInt8)) (hds : ds.flatten.length = size) :
    IsMessage (bteBufferWriterEnd (writeAll w ds).2) aclMtu connHandle
      (leBytes 2 size ++ leBytes 2 channelId ++ ds.flatten) := by
  obtain ⟨hwf, hhdr, -, -, hroom, hwr, hframes⟩ := created_first hm hm' hfit hw
  have hneed := packetsNeeded_spec (show 4 < aclMtu by omega) size
  obtain ⟨-, hwf', hhdr', hwr', hframes'⟩ := writeAll_spec ds hwf (by rw [← List.length_flatten]; omega)
  rw [hhdr] at hhdr' hframes'
  obtain ⟨hne, hpackets, hbytes⟩ := writerEnd_packets hwf' hhdr' (show 8 ≤ aclMtu by omega) hm' hc
    (show (packetsNeeded aclMtu size - 1) * (aclMtu - 4) < size + 4 by rw [Nat.add_comm size 4]; exact hneed.2.1)
    (by rw [hwr', hwr, List.length_append, List.length_append, hds]; simp; omega) (hframes'.trans hframes)
  exact ⟨hne, writerEnd_wf hwf', hpackets, by rw [hbytes, hwr', hwr]⟩

end

/-- **What lies in the first packet of a message**, as far as that can hold it. -/
theorem IsMessage.memory {ps : List Packet} {aclMtu connHandle n : Nat} {bytes : List UInt8}
    (h : IsMessage ps aclMtu connHandle bytes) (hn : n + 4 ≤ aclMtu) (hle : n ≤ bytes.length) :
    ∃ rest, (reqMemory ps).drop 4 = bytes.take n ++ rest := by
  obtain ⟨hne, hwf, hheaders, hbytes⟩ := h
  cases ps with
  | nil => exact absurd rfl hne
  | cons head next =>
    obtain ⟨-, -, hlen, -, hfull⟩ := hheaders 0 head rfl
    have hhead := hwf head List.mem_cons_self
    have hpay : (head.payload 4).length = head.size - 4 := by
      rw [Packet.payload, List.length_drop, length_bytes hhead]
    have hroom : n ≤ (head.payload 4).length := by
      cases next with
      | nil =>
        rw [List.flatMap_cons, List.flatMap_nil, List.append_nil] at hbytes
        rw [hbytes]
        exact hle
      | cons q qs =>
        have hsize := hfull (by simp)
        omega
    have hdata : head.data.drop 4 = head.payload 4 ++ head.data.drop head.size := by
      rw [Packet.payload, Packet.bytes]
      conv_lhs => rw [← List.take_append_drop head.size head.data]
      rw [List.drop_append_of_le_length (by rw [List.length_take, Nat.min_eq_left hhead.1]; omega)]
    refine ⟨(head.payload 4).drop n ++ head.data.drop head.size, ?_⟩
    rw [← hbytes, List.flatMap_cons, List.take_append_of_le_length hroom, ← List.append_assoc, List.take_append_drop]
    exact hdata

/-! ## The request that is kept -/

/-- What the client reads of the packet it keeps: the opcode and the parameters of its request. -/
structure KeepsRequest (lastReq : List Packet) (code : UInt8) (params : List UInt8) : Prop where
  opcode : (reqMemory lastReq).getD pduOffsetOpcode 0 = code
  params : ∀ beyond, slice (reqMemory lastReq ++ beyond) pduOffsetParams params.length = params

/-- A request: the headers, the parameters and what is behind them, in the packets of a message. -/
def IsRequest (ps : List Packet) (env : SdpEnv) (code : UInt8) (id : Nat) (params : List UInt8) : Prop :=
  IsMessage ps env.aclMtu env.connHandle
    (leBytes 2 (pduHeaderSize + params.length) ++ leBytes 2 env.remoteChannelId ++
      (pduHeader code id params.length ++ params))

/-- **A request whose parameters lie in its first packet keeps them.** -/
theorem IsRequest.keeps {ps : List Packet} {env : SdpEnv} {code : UInt8} {id : Nat} {params tail : List UInt8}
    (h : IsRequest ps env code id (params ++ tail)) (hfit : pduOffsetParams + params.length ≤ env.aclMtu) :
    KeepsRequest ps code params := by
  have hlen : (leBytes 2 (pduHeaderSize + (params ++ tail).length) ++ leBytes 2 env.remoteChannelId ++
      pduHeader code id (params ++ tail).length).length = 9 := by simp [pduHeader]
  unfold pduOffsetParams at hfit
  obtain ⟨rest, hrest⟩ := h.memory (n := 9 + params.length) (by omega) (by
    simp only [List.length_append] at hlen ⊢
    omega)
  have htake : (leBytes 2 (pduHeaderSize + (params ++ tail).length) ++ leBytes 2 env.remoteChannelId ++
      (pduHeader code id (params ++ tail).length ++ (params ++ tail))).take (9 + params.length) =
      leBytes 2 (pduHeaderSize + (params ++ tail).length) ++ leBytes 2 env.remoteChannelId ++
        (pduHeader code id (params ++ tail).length ++ params) := by
    rw [← List.append_assoc, ← List.append_assoc, ← List.append_assoc, List.take_append_of_le_length (by
      rw [List.length_append, hlen]), List.take_of_length_le (by rw [List.length_append, hlen])]
  rw [htake] at hrest
  obtain ⟨hop, -, hparams⟩ := read_pdu hrest
  exact ⟨hop, fun beyond => by rw [hparams params.length (Nat.le_refl _), List.take_of_length_le (Nat.le_refl _)]⟩

/-- The parameters lie in the first packet, the sizes of the message and of its blocks do not wrap around, and the handle has
12 bits. -/
structure SdpEnv.Repeatable (env : SdpEnv) (offset stateLen : Nat) : Prop where
  params : pduOffsetParams + offset ≤ env.aclMtu
  blocks : env.layout.sizeofBuffer + env.aclMtu < 65536
  size : packetsNeeded env.aclMtu (pduHeaderSize + (offset + stateLen)) * env.aclMtu < 65536
  handle : env.connHandle ≤ 0xfff

instance (env : SdpEnv) (offset stateLen : Nat) : Decidable (env.Repeatable offset stateLen) :=
  decidable_of_iff (pduOffsetParams + offset ≤ env.aclMtu ∧ env.layout.sizeofBuffer + env.aclMtu < 65536 ∧
    packetsNeeded env.aclMtu (pduHeaderSize + (offset + stateLen)) * env.aclMtu < 65536 ∧ env.connHandle ≤ 0xfff)
    ⟨fun h => ⟨h.1, h.2.1, h.2.2.1, h.2.2.2⟩, fun h => ⟨h.params, h.blocks, h.size, h.handle⟩⟩

theorem SdpEnv.Repeatable.aclMtu {env : SdpEnv} {offset stateLen : Nat} (h : env.Repeatable offset stateLen) :
    env.aclMtu < 65536 := by
  have := h.blocks
  omega

/-- The sizes of such a message, as they are. -/
theorem SdpEnv.Repeatable.sizes {env : SdpEnv} {offset stateLen : Nat} (h : env.Repeatable offset stateLen) :
    8 < env.aclMtu ∧ (offset + stateLen) % 65536 = offset + stateLen ∧
    (pduHeaderSize + (offset + stateLen)) % 65536 = pduHeaderSize + (offset + stateLen) := by
  have hfit := h.params
  have hsize := h.size
  have hneed := (packetsNeeded_spec (show 4 < env.aclMtu by unfold pduOffsetParams at hfit; omega)
    (pduHeaderSize + (offset + stateLen))).1
  have hle := Nat.mul_le_mul_left (packetsNeeded env.aclMtu (pduHeaderSize + (offset + stateLen)))
    (show env.aclMtu - 4 ≤ env.aclMtu by omega)
  unfold messageTotal l2capHdrLen at hneed
  unfold pduOffsetParams at hfit
  exact ⟨by omega, Nat.mod_eq_of_lt (by omega), Nat.mod_eq_of_lt (by omega)⟩

theorem writeAll_append : ∀ (ds es : List (List UInt8)) (w : BufferWriter),
    (writeAll w (ds ++ es)).2 = (writeAll (writeAll w ds).2 es).2
  | [], _, _ => rfl
  | _ :: ds, es, _ => writeAll_append ds es _

theorem length_pduHeader (code : UInt8) (id n : Nat) : (pduHeader code id n).length = pduHeaderSize := by
  simp [pduHeader, pduHeaderSize]

/-- **A PDU is not made, or its header is written**: the writer is in the first packet. -/
theorem createPdu_writes {env : SdpEnv} {offset stateLen : Nat} (h : env.Repeatable offset stateLen) (code : UInt8)
    (id : Nat) :
    createPdu env code id (offset + stateLen) = some none ∨
    ∃ w, aclL2capCreateMessage env.mem env.aclMtu env.connHandle (pduHeaderSize + (offset + stateLen))
        env.remoteChannelId = some w ∧
      createPdu env code id (offset + stateLen) =
        some (some (bteBufferWriterWrite w (pduHeader code id (offset + stateLen))).2) ∧
      (bteBufferWriterWrite w (pduHeader code id (offset + stateLen))).2.posInPacket = pduOffsetParams ∧
      (bteBufferWriterWrite w (pduHeader code id (offset + stateLen))).2.packet.size = env.aclMtu := by
  obtain ⟨hm, -, hmod⟩ := h.sizes
  have hfit := h.params
  unfold pduOffsetParams at hfit
  unfold createPdu
  by_cases hmem : env.allocates = false
  · exact Or.inl (if_pos hmem)
  rw [if_neg hmem, hmod]
  cases hcreate : bteL2capCreateMessage env.mem env.aclMtu env.connHandle env.remoteChannelId env.remoteMtu
      (pduHeaderSize + (offset + stateLen)) with
  | none => exact Or.inl rfl
  | some w =>
    have hw : aclL2capCreateMessage env.mem env.aclMtu env.connHandle (pduHeaderSize + (offset + stateLen))
        env.remoteChannelId = some w := by
      unfold bteL2capCreateMessage at hcreate
      split at hcreate
      · cases hcreate
      · exact hcreate
    obtain ⟨-, -, hpos, hpacket, -⟩ := created_first hm h.aclMtu h.size hw
    have hlen := length_pduHeader code id (offset + stateLen)
    obtain ⟨hfill, hpos', hsize'⟩ := @fill_eq_write w (pduHeader code id (offset + stateLen))
      (by rw [hlen]; decide) (by rw [hlen, hpos, hpacket]; unfold pduHeaderSize; omega)
    rw [hlen] at hfill
    refine Or.inr ⟨w, hw, ?_, by rw [hpos', hpos, hlen]; rfl, by rw [hsize', hpacket]⟩
    exact congrArg (Option.map some) hfill

/-- **The next request has the same parameters**, with the peer's state behind them; or none is made. -/
theorem sendContinuationRequest_repeats {env : SdpEnv} {s : Sdp} {lastReq : List Packet} {code : UInt8}
    {params : List UInt8} {contState : Option (List UInt8)} (hkeep : KeepsRequest lastReq code params)
    (hoff : s.continuationOffset = params.length) (hpos : 0 < params.length)
        (h : env.Repeatable params.length (contStateLen contState))
    (hstate : (contStateBytes contState).length = contStateLen contState) :
    ∃ r, sendContinuationRequest env s lastReq contState = some r ∧ (r.2 = s.takeId ∨
      ∃ ps, r.2 = s.takeId.submit env ps ∧ IsRequest ps env code s.nextId (params ++ contStateBytes contState)) := by
  obtain ⟨hm, hmod, -⟩ := h.sizes
  simp only [sendContinuationRequest, hkeep.opcode, hoff, hmod, hkeep.params]
  rcases createPdu_writes h code s.nextId with hnone | ⟨w, hw, hpdu, hposw, hsizew⟩
  · rw [hnone]
    exact ⟨_, rfl, Or.inl rfl⟩
  · obtain ⟨hfill, -, -⟩ := fill_eq_write hpos (by rw [hposw, hsizew]; exact h.params)
    have hmessage := created_isMessage hm h.aclMtu h.size hw h.handle
      [pduHeader code s.nextId (params.length + contStateLen contState), params, contStateBytes contState] (by
        simp only [List.flatten_cons, List.flatten_nil, List.length_append, List.append_nil, length_pduHeader, hstate])
    rw [hpdu]
    simp only [hfill]
    split
    · exact ⟨_, rfl, Or.inl rfl⟩
    · refine ⟨_, rfl, Or.inr ⟨_, rfl, ?_⟩⟩
      unfold IsRequest
      rw [List.length_append, hstate]
      simpa only [writeAll, List.flatten_cons, List.flatten_nil, List.append_nil] using hmessage

/-- **A request that is made** is the message of its parameters and an empty continuation state. -/
theorem reqPacket_request {env : SdpEnv} {s s' : Sdp} {code : UInt8} {chunks : List (List UInt8)} {ps : List Packet}
    (h : env.Repeatable chunks.flatten.length 1) (hreq : reqPacket env s code chunks = some (some ps, s')) :
    s' = { s.takeId with continuationOffset := chunks.flatten.length } ∧
    IsRequest ps env code s.nextId (chunks.flatten ++ [0]) := by
  obtain ⟨hm, hmod, -⟩ := h.sizes
  have hfit := h.params
  have hacl := h.aclMtu
  have hoff : chunks.flatten.length % 65536 = chunks.flatten.length := Nat.mod_eq_of_lt (by omega)
  simp only [reqPacket, hmod, hoff] at hreq
  rcases createPdu_writes h code s.nextId with hnone | ⟨w, hw, hpdu, -, -⟩
  · rw [hnone] at hreq
    cases hreq
  · rw [hpdu] at hreq
    simp only at hreq
    split at hreq
    · cases hreq
    split at hreq
    · cases hreq
    rw [Option.some.injEq, Prod.mk.injEq, Option.some.injEq] at hreq
    obtain ⟨rfl, rfl⟩ := hreq
    refine ⟨rfl, ?_⟩
    have hmessage := created_isMessage hm h.aclMtu h.size hw h.handle
      ([pduHeader code s.nextId (chunks.flatten.length + 1)] ++ (chunks ++ [[0]])) (by
        simp only [List.flatten_append, List.flatten_cons, List.flatten_nil, List.length_append, List.append_nil,
          length_pduHeader, List.length_singleton])
    rw [writeAll_append, writeAll_append] at hmessage
    unfold IsRequest
    rw [List.length_append, List.length_singleton, show contStateBytes none = [0] from rfl]
    simpa only [writeAll, List.flatten_append, List.flatten_cons, List.flatten_nil, List.append_nil] using hmessage

/-- A request that cannot be made takes an id at most. -/
theorem reqPacket_failed {env : SdpEnv} {s s' : Sdp} {code : UInt8} {chunks : List (List UInt8)}
    (h : reqPacket env s code chunks = some (none, s')) : s'.lastReq = s.lastReq := by
  unfold reqPacket at h
  simp only at h
  split at h
  · cases h
  · cases h
    rfl
  · split at h
    · cases h
      rfl
    · split at h
      · cases h
        rfl
      · cases h

/-! ## Chains of requests -/

/-- The outstanding request, if any, keeps these parameters. -/
def Outstanding (s : Sdp) (code : UInt8) (params : List UInt8) : Prop :=
  ∀ lastReq ∈ s.lastReq, KeepsRequest lastReq code params ∧ s.continuationOffset = params.length

/-- What a request function sends: its channel, the opcode, the parameters. -/
def SdpOp.request : SdpOp → Option (SdpEnv × UInt8 × List (List UInt8))
  | .serviceSearch env pattern maxCount _ _ =>
    some (env, pduIdServiceSearchReq, [deBytes pattern, beBytes 2 maxCount])
  | .serviceAttr env serviceRecord maxCount idList _ _ =>
    some (env, pduIdServiceAttrReq, [beBytes 4 serviceRecord, beBytes 2 maxCount, deBytes idList])
  | .serviceSearchAttr env pattern maxCount idList _ _ =>
    some (env, pduIdServiceSearchAttrReq, [deBytes pattern, beBytes 2 maxCount, deBytes idList])
  | .message _ => none

theorem apply_request {o : SdpOp} {env : SdpEnv} {code : UInt8} {chunks : List (List UInt8)}
    (ho : o.request = some (env, code, chunks)) (s : Sdp) :
    0 < chunks.flatten.length ∧
      ∃ data, o.apply s = (sdpRequest env s (reqPacket env s code chunks) data).map Prod.snd := by
  cases o with
  | message m => cases ho
  | serviceSearch env' pattern maxCount cb userdata =>
    cases ho
    exact ⟨by simp, _, rfl⟩
  | serviceAttr env' serviceRecord maxCount idList cb userdata =>
    cases ho
    exact ⟨by simp, _, rfl⟩
  | serviceSearchAttr env' pattern maxCount idList cb userdata =>
    cases ho
    exact ⟨by simp, _, rfl⟩

/-- **A request that becomes the outstanding one** keeps its parameters. -/
theorem request_outstanding {o : SdpOp} {env : SdpEnv} {code : UInt8} {chunks : List (List UInt8)} {s s' : Sdp}
    (ho : o.request = some (env, code, chunks)) (h : env.Repeatable chunks.flatten.length 1) (hidle : s.lastReq = none)
    (hs : o.apply s = some s') : Outstanding s' code chunks.flatten := by
  obtain ⟨-, data, happly⟩ := apply_request ho s
  unfold sdpRequest at happly
  rw [happly, if_neg (not_not_intro hidle)] at hs
  intro lastReq hlast
  cases hpacket : reqPacket env s code chunks with
  | none =>
    rw [hpacket] at hs
    cases hs
  | some r =>
    obtain ⟨buffer, s₁⟩ := r
    rw [hpacket] at hs
    cases buffer with
    | none =>
      cases hs
      rw [reqPacket_failed hpacket, hidle] at hlast
      cases hlast
    | some ps =>
      obtain ⟨rfl, hps⟩ := reqPacket_request h hpacket
      simp only at hs
      split at hs
      · cases hs
        cases hlast
      · cases hs
        cases hlast
        exact ⟨hps.keeps h.params, rfl⟩

theorem serveReply_keeps {env : SdpEnv} {s : Sdp} {lastReq : List Packet} {errorCode : Nat} {params : List UInt8}
    {paramLen : Nat} {ret : Bool} {served : SdpServed}
    (h : serveReply env s lastReq errorCode params paramLen ret = some served) : served.s.lastReq = s.lastReq := by
  unfold serveReply at h
  simp only at h
  split at h
  · cases h
    unfold serveSearch
    simp only
    split <;> rfl
  · split at h
    · unfold serveAttr at h
      simp only at h
      split at h
      · cases h
        rfl
      · split at h
        · cases h
        · cases h
          rfl
        · split at h
          · cases h
            rfl
          · cases h
            rfl
    · cases h
      rfl

/-- What the message is served with keeps the request. -/
theorem SdpMessage.Serves.keeps {m : SdpMessage} {s : Sdp} {lastReq : List Packet} {served : SdpServed}
    (h : m.Serves s lastReq served) : served.s.lastReq = s.lastReq := by
  obtain ⟨-, hdr, -, -, hserved⟩ := h
  obtain ⟨code, -, hserved⟩ := Option.bind_eq_some_iff.1 hserved
  split at hserved
  · cases hserved
  · obtain ⟨params, -, hserved⟩ := Option.bind_eq_some_iff.1 hserved
    exact serveReply_keeps hserved

/-- A message is ignored, or it is served. -/
theorem onMessageReceived_cases {s s' : Sdp} {m : SdpMessage} (h : onMessageReceived m.env s m.reader m.ret = some s') :
    s' = s ∨ ∃ lastReq served, m.Serves s lastReq served ∧ finishReply m.env lastReq served = some s' := by
  unfold onMessageReceived at h
  cases hreq : s.lastReq with
  | none =>
    rw [hreq] at h
    cases h
    exact Or.inl rfl
  | some lastReq =>
    rw [hreq] at h
    simp only at h
    cases hread : bteBufferReaderReadN m.reader pduHeaderSize with
    | mk o r =>
      rw [hread] at h
      cases o with
      | none => cases h
      | some hdr =>
        simp only at h
        by_cases hmatch : matchesRequest lastReq hdr
        swap
        · rw [if_neg hmatch] at h
          cases h
          exact Or.inl rfl
        rw [if_pos hmatch] at h
        unfold handleReply at h
        cases herr : readErrorCode (hdr.getD 0 0) r with
        | none =>
          rw [herr] at h
          cases h
        | some code =>
          rw [herr] at h
          simp only at h
          by_cases hzero : hdr.getD 0 0 = pduIdErrorRsp ∧ code.1 = 0
          · rw [if_pos hzero] at h
            cases h
            exact Or.inl rfl
          rw [if_neg hzero] at h
          cases hparams : readParams m.env code.2 (beVal (slice hdr 3 2)) with
          | none =>
            rw [hparams] at h
            cases h
            exact Or.inl rfl
          | some params =>
            rw [hparams] at h
            obtain ⟨served, hserved, hfinish⟩ := Option.bind_eq_some_iff.1 h
            refine Or.inr ⟨lastReq, served, ⟨hreq, hdr, ?_, hmatch, ?_⟩, hfinish⟩
            · rw [hread]
              rfl
            · rw [hread]
              simp only [SdpMessage.serve, herr, Option.bind_some, if_neg hzero, hparams]
              exact hserved

/-- If the reply asks for more, its continuation state is as long as it says, and the request for more fits. -/
def SdpMessage.Repeatable (m : SdpMessage) (s : Sdp) : Prop :=
  ∀ lastReq ∈ s.lastReq, ∀ hdr ∈ (bteBufferReaderReadN m.reader pduHeaderSize).1, matchesRequest lastReq hdr →
    ∀ served ∈ m.serve s lastReq hdr (bteBufferReaderReadN m.reader pduHeaderSize).2, served.reqComplete = false →
      (contStateBytes served.contState).length = contStateLen served.contState ∧
      m.env.Repeatable s.continuationOffset (contStateLen served.contState)

instance (m : SdpMessage) (s : Sdp) : Decidable (m.Repeatable s) := by
  unfold SdpMessage.Repeatable
  infer_instance

/-- If the reply asks for more, no null pointer is used, and what is sent has the parameters with the reply's
continuation state behind them; nothing is sent otherwise. -/
structure SdpMessage.Repeats (m : SdpMessage) (code : UInt8) (params : List UInt8) (s : Sdp) : Prop where
  made : ∀ lastReq served, m.Serves s lastReq served → served.reqComplete = false →
    ∃ s', onMessageReceived m.env s m.reader m.ret = some s'
  sent : ∀ s' ∈ onMessageReceived m.env s m.reader m.ret, s'.sent = s.sent ∨
    ∃ lastReq served ps id, m.Serves s lastReq served ∧ served.reqComplete = false ∧ s'.sent = s.sent ++ [ps] ∧
      IsRequest ps m.env code id (params ++ contStateBytes served.contState)

/-- A reply that asks for more is followed by a request with the same parameters, or by none. -/
theorem reply_more {m : SdpMessage} {s : Sdp} {code : UInt8} {params : List UInt8} (hs : Outstanding s code params)
    (hpos : 0 < params.length) (hfit : m.Repeatable s) {lastReq : List Packet} {served : SdpServed}
    (hserves : m.Serves s lastReq served) (hc : served.reqComplete = false) :
    ∃ s', onMessageReceived m.env s m.reader m.ret = some s' ∧ Outstanding s' code params ∧ (s'.sent = s.sent ∨
      ∃ ps id, s'.sent = s.sent ++ [ps] ∧ IsRequest ps m.env code id (params ++ contStateBytes served.contState)) := by
  obtain ⟨hrun, hserved⟩ := onMessageReceived_serves hserves
  obtain ⟨hkeep, hoff⟩ := hs lastReq hserves.1
  obtain ⟨hdr, hhdr, hmatch, hin⟩ := hserves.2
  obtain ⟨hstate, hrep⟩ := hfit lastReq hserves.1 hdr hhdr hmatch served hin hc
  rw [hoff] at hrep
  obtain ⟨r, hsend, hr⟩ :=
    sendContinuationRequest_repeats (s := served.s) hkeep (hserved.offset.trans hoff) hpos hrep hstate
  refine ⟨r.2, ?_, ?_⟩
  · rw [hrun, finishReply, hc, if_neg Bool.false_ne_true, hsend]
    rfl
  · rcases hr with hnone | ⟨ps, hps, hreq⟩
    · rw [hnone]
      refine ⟨fun req hreq => ?_, Or.inl hserved.sent⟩
      exact ⟨(hs req (hserves.keeps ▸ hreq)).1, hserved.offset.trans hoff⟩
    · rw [hps]
      refine ⟨fun req hreq' => ?_, ?_⟩
      · cases hreq'
        exact ⟨hreq.keeps hrep.params, hserved.offset.trans hoff⟩
      · unfold Sdp.submit
        simp only
        split
        · exact Or.inr ⟨ps, _, congrArg (· ++ [ps]) hserved.sent, hreq⟩
        · exact Or.inl hserved.sent

/-- **One reply of a chain.** -/
theorem message_repeats {m : SdpMessage} {s : Sdp} {code : UInt8} {params : List UInt8} (hs : Outstanding s code params)
    (hpos : 0 < params.length) (hfit : m.Repeatable s) :
    m.Repeats code params s ∧ ∀ s' ∈ onMessageReceived m.env s m.reader m.ret, Outstanding s' code params := by
  have hafter : ∀ s' ∈ onMessageReceived m.env s m.reader m.ret, Outstanding s' code params ∧ (s'.sent = s.sent ∨
      ∃ lastReq served ps id, m.Serves s lastReq served ∧ served.reqComplete = false ∧ s'.sent = s.sent ++ [ps] ∧
        IsRequest ps m.env code id (params ++ contStateBytes served.contState)) := by
    intro s' hs'
    rcases onMessageReceived_cases hs' with rfl | ⟨lastReq, served, hserves, hfinish⟩
    · exact ⟨hs, Or.inl rfl⟩
    cases hc : served.reqComplete with
    | true =>
      -- the last reply: nothing is outstanding any more
      rw [finishReply, if_pos hc] at hfinish
      cases hfinish
      refine ⟨fun req hreq => ?_, Or.inl (onMessageReceived_serves hserves).2.sent⟩
      cases hreq
    | false =>
      obtain ⟨s'', hs'', hout, hsent⟩ := reply_more hs hpos hfit hserves hc
      rw [Option.mem_def, hs'', Option.some.injEq] at hs'
      subst hs'
      refine ⟨hout, ?_⟩
      rcases hsent with hsame | ⟨ps, id, hps, hreq⟩
      · exact Or.inl hsame
      · exact Or.inr ⟨lastReq, served, ps, id, hserves, hc, hps, hreq⟩
  refine ⟨⟨fun lastReq served hserves hc => ?_, fun s' hs' => (hafter s' hs').2⟩, fun s' hs' => (hafter s' hs').1⟩
  obtain ⟨s', hs', -⟩ := reply_more hs hpos hfit hserves hc
  exact ⟨s', hs'⟩

/-- Every message of a run from `s` meets a condition in the state it comes in. -/
def EveryReply (ok : SdpMessage → Sdp → Prop) (s : Sdp) (ms : List SdpMessage) : Prop :=
  Sys.Admissible (fun cur (m : SdpMessage) => sdpStep cur (.message m)) (fun cur m => ∀ s ∈ cur, ok m s) (some s) ms

instance (ok : SdpMessage → Sdp → Prop) [∀ m s, Decidable (ok m s)] (s : Sdp) (ms : List SdpMessage) :
    Decidable (EveryReply ok s ms) := by
  unfold EveryReply
  infer_instance

/-- **Continuation requests repeat the original parameters**, over every chain of replies, if these lie in the first
packet of each request and no size wraps around. -/
theorem continuation_repeats {o : SdpOp} {env : SdpEnv} {code : UInt8} {chunks : List (List UInt8)} {s s' : Sdp}
    (ho : o.request = some (env, code, chunks)) (hidle : s.lastReq = none) (hs : o.apply s = some s')
    (hfit : env.Repeatable chunks.flatten.length 1) {ms : List SdpMessage}
    (hok : EveryReply SdpMessage.Repeatable s' ms) : EveryReply (fun m => m.Repeats code chunks.flatten) s' ms := by
  have hpos := (apply_request ho s).1
  have hout := request_outstanding ho hfit hidle hs
  have hstep : ∀ (cur : Option Sdp) (m : SdpMessage), (∀ s ∈ cur, Outstanding s code chunks.flatten) →
      (∀ s ∈ cur, m.Repeatable s) → (∀ s ∈ cur, m.Repeats code chunks.flatten s) ∧
        ∀ s ∈ sdpStep cur (.message m), Outstanding s code chunks.flatten := by
    intro cur m hcur hm
    refine ⟨fun s hs => (message_repeats (hcur s hs) hpos (hm s hs)).1, fun s₁ hs₁ => ?_⟩
    obtain ⟨s, hs, hs₁⟩ := Option.bind_eq_some_iff.1 hs₁
    exact (message_repeats (hcur s hs) hpos (hm s hs)).2 s₁ hs₁
  refine Sys.admissible_of_inv hstep ms (some s') ?_ hok
  intro s hs
  cases hs
  exact hout

/-- Channels with small packets. -/
def smallEnv (aclMtu : Nat) : SdpEnv := { readyEnv with aclMtu := aclMtu }

/-- A search for one UUID, whose parameters have 7 bytes, and one for three, with 15. -/
def shortSearch (env : SdpEnv) : SdpOp := .serviceSearch env [0x35, 3, 0x19, 0x11, 0x22] 4 7 9
def longSearch (env : SdpEnv) : SdpOp :=
  .serviceSearch env [0x35, 11, 0x19, 0x11, 0x22, 0x19, 0x11, 0x23, 0x1a, 0, 0, 0x11, 0x24] 4 7 9

/-- A page with one handle and this continuation state. -/
def pageMessage (env : SdpEnv) (id : Nat) (state : List UInt8) : SdpMessage :=
  ⟨env, messageReader (pduHeader 3 id (8 + state.length) ++ [0, 2, 0, 1, 1, 2, 3, 4] ++ state) [], true⟩

/-- Two pages, the first with the longest continuation state: the second request takes two packets. -/
theorem continuation_repeats_twoPages :
    ∃ s, (shortSearch (smallEnv 27)).apply (bteSdpClientNew 0) = some s ∧
      EveryReply (fun m => m.Repeats 2 [0x35, 3, 0x19, 0x11, 0x22, 0, 4]) s
        [pageMessage (smallEnv 27) 0 [16, 1, 2, 3, 4, 5, 6, 7, 8, 9, 10, 11, 12, 13, 14, 15, 16],
          pageMessage (smallEnv 27) 1 [1, 0xAA]] := by
  have hrun : ((shortSearch (smallEnv 27)).apply (bteSdpClientNew 0)).isSome = true := by decide +kernel
  obtain ⟨s, hs⟩ := Option.isSome_iff_exists.1 hrun
  have hok : ∀ s ∈ (shortSearch (smallEnv 27)).apply (bteSdpClientNew 0), EveryReply SdpMessage.Repeatable s
      [pageMessage (smallEnv 27) 0 [16, 1, 2, 3, 4, 5, 6, 7, 8, 9, 10, 11, 12, 13, 14, 15, 16],
        pageMessage (smallEnv 27) 1 [1, 0xAA]] := by decide +kernel
  exact ⟨s, hs, continuation_repeats (show (shortSearch (smallEnv 27)).request =
    some (smallEnv 27, 2, [[0x35, 3, 0x19, 0x11, 0x22], [0, 4]]) from rfl) rfl hs (by decide) (hok s hs)⟩

/-- The parameters of a request, in what its packets carry. -/
theorem IsRequest.carried {ps : List Packet} {env : SdpEnv} {code : UInt8} {id : Nat} {params tail : List UInt8}
    (h : IsRequest ps env code id (params ++ tail)) : slice (ps.flatMap (Packet.payload 4)) 9 params.length = params := by
  have hlen : (leBytes 2 (pduHeaderSize + (params ++ tail).length) ++ leBytes 2 env.remoteChannelId ++
      pduHeader code id (params ++ tail).length).length = 9 := by simp [pduHeader]
  rw [h.payloads, slice, ← List.append_assoc, List.drop_left' hlen, List.take_left' rfl]

/-- With packets of 27 bytes, the reply to the long search is answered through a null pointer.  With packets of 13 bytes the
parameters of the short one are taken from behind its first packet. -/
theorem not_continuation_repeats :
    (∃ s, (longSearch (smallEnv 27)).apply (bteSdpClientNew 0) = some s ∧
      ¬ (pageMessage (smallEnv 27) 0 [1, 0xAA]).Repeats 2
        [0x35, 11, 0x19, 0x11, 0x22, 0x19, 0x11, 0x23, 0x1a, 0, 0, 0x11, 0x24, 0, 4] s) ∧
    ∃ s, (shortSearch (smallEnv 13)).apply (bteSdpClientNew 0) = some s ∧
      ¬ (pageMessage (smallEnv 13) 0 [1, 0xAA]).Repeats 2 [0x35, 3, 0x19, 0x11, 0x22, 0, 4] s := by
  have hnull : ∃ s ∈ (longSearch (smallEnv 27)).apply (bteSdpClientNew 0),
      (onMessageReceived (smallEnv 27) s (pageMessage (smallEnv 27) 0 [1, 0xAA]).reader true).isNone = true ∧
      ∃ lastReq ∈ s.lastReq, ∃ hdr ∈ (bteBufferReaderReadN (pageMessage (smallEnv 27) 0 [1, 0xAA]).reader pduHeaderSize).1,
        matchesRequest lastReq hdr ∧ ∃ served ∈ (pageMessage (smallEnv 27) 0 [1, 0xAA]).serve s lastReq hdr
          (bteBufferReaderReadN (pageMessage (smallEnv 27) 0 [1, 0xAA]).reader pduHeaderSize).2,
          served.reqComplete = false := by decide +kernel
  have hwrong : ∃ s ∈ (shortSearch (smallEnv 13)).apply (bteSdpClientNew 0),
      ∃ s' ∈ onMessageReceived (smallEnv 13) s (pageMessage (smallEnv 13) 0 [1, 0xAA]).reader true, s.sent.length = 1 ∧
        s'.sent.map (·.flatMap (Packet.payload 4)) =
          [[13, 0, 0x41, 0, 2, 0, 0, 0, 8, 0x35, 3, 0x19, 0x11, 0x22, 0, 4, 0],
            [14, 0, 0x41, 0, 2, 0, 1, 0, 9, 0xEE, 0xAA, 0xAA, 0xAA, 0xAA, 0xAA, 0xAA, 1, 0xAA]] := by decide +kernel
  constructor
  · obtain ⟨s, hs, hnone, lastReq, hreq, hdr, hhdr, hmatch, served, hserved, hc⟩ := hnull
    refine ⟨s, hs, fun h => ?_⟩
    obtain ⟨s', hs'⟩ := h.made lastReq served ⟨hreq, hdr, hhdr, hmatch, hserved⟩ hc
    rw [show onMessageReceived (smallEnv 27) s (pageMessage (smallEnv 27) 0 [1, 0xAA]).reader true = some s' from hs']
      at hnone
    cases hnone
  · obtain ⟨s, hs, s', hs', hlen, hsent⟩ := hwrong
    refine ⟨s, hs, fun h => ?_⟩
    rcases h.sent s' hs' with hsame | ⟨lastReq, served, ps, id, -, -, hps, hreq⟩
    · have hcount := congrArg List.length hsent
      rw [hsame, List.length_map, hlen] at hcount
      cases hcount
    · rw [hps] at hsent
      obtain ⟨first, hfirst⟩ := List.length_eq_one_iff.1 hlen
      rw [hfirst] at hsent
      simp only [List.cons_append, List.nil_append, List.map_cons, List.map_nil, List.cons.injEq, and_true] at hsent
      have hparams := hreq.carried
      rw [hsent.2] at hparams
      exact absurd hparams (by decide)

end Bte
