import BtEmbedded.SdpSearch
/-!
# SdpProgress — what a client does with a reply that asks for more (sdp.c)

A reply ends the request, or the next request is sent and takes its place.  `on_message_received` does not look at what
`send_continuation_request` returns, so whether one of the two has happened depends on the channel and the memory:
`Untroubled` says what they have to be (`replies_settled`).  Otherwise `last_req` stays, the peer has nothing to answer,
and every later request is refused (`replies_unsettled`).
-/
namespace Bte

open Bytes

/-! ## What can become of a reply -/

/-- The message answers the outstanding request. -/
def Answers (s : Sdp) (r : BufferReader) : Prop :=
  ∃ lastReq ∈ s.lastReq, ∃ hdr ∈ (bteBufferReaderReadN r pduHeaderSize).1, matchesRequest lastReq hdr

/-- The function got a last reply or an error, or wants no more, and the request is over. -/
def Finished (s s' : Sdp) (ret : Bool) : Prop :=
  s'.lastReq = none ∧
  ((∃ cb userdata reply, s'.calls = s.calls ++ [.serviceSearch cb userdata reply] ∧ (reply.hasMore = false ∨ ret = false)) ∨
    ∃ cb userdata reply, s'.calls = s.calls ++ [.serviceAttr cb userdata reply])

/-- A request has been accepted, and it is the outstanding one. -/
def Continued (s s' : Sdp) : Prop := ∃ ps, s'.lastReq = some ps ∧ s'.sent = s.sent ++ [ps]

/-- A continuation request of `offset` parameter bytes and `stateLen` bytes of continuation state can be made and is
accepted: the channel has a remote id and takes its length, there is memory, the parameters lie in the first of its
packets, whose sizes add up in 16 bits, each of them in a block that holds it, and `bte_l2cap_send_message` does not
fail. -/
structure SdpEnv.Continues (env : SdpEnv) (offset stateLen : Nat) : Prop where
  channel : env.remoteChannelId ≠ 0
  mtu : pduHeaderSize + (offset + stateLen) ≤ env.remoteMtu
  memory : env.allocates = true
  params : 0 < offset ∧ pduOffsetParams + offset ≤ env.aclMtu
  blocks : env.layout.sizeofBuffer + env.aclMtu < 65536
  size : (pduHeaderSize + (offset + stateLen) + 4 + (env.aclMtu - 4) - 1) / (env.aclMtu - 4) * env.aclMtu ≤ 65535
  accepted : 0 ≤ env.sendMessage

instance (env : SdpEnv) (offset stateLen : Nat) : Decidable (env.Continues offset stateLen) :=
  decidable_of_iff (env.remoteChannelId ≠ 0 ∧ pduHeaderSize + (offset + stateLen) ≤ env.remoteMtu ∧ env.allocates = true ∧
    (0 < offset ∧ pduOffsetParams + offset ≤ env.aclMtu) ∧ env.layout.sizeofBuffer + env.aclMtu < 65536 ∧
    (pduHeaderSize + (offset + stateLen) + 4 + (env.aclMtu - 4) - 1) / (env.aclMtu - 4) * env.aclMtu ≤ 65535 ∧
    0 ≤ env.sendMessage)
    ⟨fun h => ⟨h.1, h.2.1, h.2.2.1, h.2.2.2.1, h.2.2.2.2.1, h.2.2.2.2.2.1, h.2.2.2.2.2.2⟩,
      fun h => ⟨h.channel, h.mtu, h.memory, h.params, h.blocks, h.size, h.accepted⟩⟩

/-- What serving the answer does, if its parameters can be read: the code of an error response is contiguous and not zero,
there is memory for what is split and for an attribute list. -/
def SdpMessage.serve (m : SdpMessage) (s : Sdp) (lastReq : List Packet) (hdr : List UInt8) (r : BufferReader) :
    Option SdpServed :=
  (readErrorCode (hdr.getD 0 0) r).bind fun code =>
    if hdr.getD 0 0 = pduIdErrorRsp ∧ code.1 = 0 then none
    else (readParams m.env code.2 (beVal (slice hdr 3 2))).bind fun params =>
      serveReply m.env s lastReq code.1 params (beVal (slice hdr 3 2)) m.ret

/-- A message that answers the request can be served, and if more has to be asked for, this works. -/
def SdpMessage.Untroubled (m : SdpMessage) (s : Sdp) : Prop :=
  ∀ lastReq ∈ s.lastReq, ∀ hdr ∈ (bteBufferReaderReadN m.reader pduHeaderSize).1, matchesRequest lastReq hdr →
    ∃ served ∈ m.serve s lastReq hdr (bteBufferReaderReadN m.reader pduHeaderSize).2,
      served.reqComplete = false → m.env.Continues s.continuationOffset (contStateLen served.contState)

instance (m : SdpMessage) (s : Sdp) : Decidable (m.Untroubled s) := by
  unfold SdpMessage.Untroubled
  infer_instance

/-- A request needs nothing. -/
def SdpOp.Untroubled (cur : Option Sdp) : SdpOp → Prop
  | .message m => ∀ s ∈ cur, m.Untroubled s
  | .serviceSearch .. | .serviceAttr .. | .serviceSearchAttr .. => True

instance (cur : Option Sdp) : ∀ o : SdpOp, Decidable (o.Untroubled cur)
  | .message m => inferInstanceAs (Decidable (∀ s ∈ cur, m.Untroubled s))
  | .serviceSearch .. | .serviceAttr .. | .serviceSearchAttr .. => .isTrue trivial

/-! ## The continuation request -/

/-- `ptr_n` when there is space in the packet. -/
theorem fill_first {w : BufferWriter} (hw : w.Wf) (data : List UInt8) {n : Nat} (hn : 0 < n)
    (hfit : w.posInPacket + n ≤ w.packet.size) (hd : data.length ≤ n) :
    ∃ w', w.fill n data = some w' ∧ w'.Wf ∧ w'.posInPacket = w.posInPacket + n ∧ w'.packet.size = w.packet.size ∧
      w'.room + n = w.room := by
  have hturn : w.turn = some w := by
    rw [BufferWriter.turn, if_neg (by omega)]
  have hptr : ¬ n > w.packet.size - w.posInPacket := by omega
  refine ⟨{ w with packet := w.packet.store w.posInPacket data, posInPacket := w.posInPacket + n }, ?_, ?_, rfl, rfl, ?_⟩
  · simp only [BufferWriter.fill, bteBufferWriterPtrN, hturn, if_neg hptr]
  · exact ⟨hw.before, store_wf hw.packet (by omega), Nat.le_trans hw.header (Nat.le_add_right ..), hfit, hw.next⟩
  · simp only [BufferWriter.room, Packet.store]
    omega

/-- The writer of a new message is behind the L2CAP header of the first packet. -/
theorem createMessage_first {env : SdpEnv} {offset stateLen : Nat} (h : env.Continues offset stateLen) :
    ∃ w, bteL2capCreateMessage env.mem env.aclMtu env.connHandle env.remoteChannelId env.remoteMtu
        ((pduHeaderSize + (offset + stateLen)) % 65536) = some w ∧
      w.Wf ∧ w.posInPacket = 8 ∧ w.packet.size = env.aclMtu ∧ pduHeaderSize + (offset + stateLen) ≤ w.room := by
  obtain ⟨hcid, hmtu, _, ⟨hpos, hparams⟩, hblocks, hsize, _⟩ := h
  have hacl : env.aclMtu < 65536 := by omega
  have h5 : pduHeaderSize = 5 := rfl
  have h13 : pduOffsetParams = 13 := rfl
  have hneed := packets_needed (show 0 < env.aclMtu - 4 by omega)
    (show 0 < pduHeaderSize + (offset + stateLen) + 4 by omega)
  obtain ⟨w, hw, hwf, hhdr, hwr, hroom, hframes⟩ := aclL2capCreateMessage_spec env.mem env.connHandle
    env.remoteChannelId (show 8 ≤ env.aclMtu by omega) hacl hsize
  generalize (pduHeaderSize + (offset + stateLen) + 4 + (env.aclMtu - 4) - 1) / (env.aclMtu - 4) = n at *
  have hle : n * (env.aclMtu - 4) ≤ n * env.aclMtu := Nat.mul_le_mul_left n (by omega)
  have hmod : (pduHeaderSize + (offset + stateLen)) % 65536 = pduHeaderSize + (offset + stateLen) :=
    Nat.mod_eq_of_lt (by omega)
  have hsizes := size_of_messageFrames hframes
  have hlen := congrArg List.length hwr
  rw [List.length_append, length_leBytes, length_leBytes] at hlen
  obtain ⟨-, hpos8, hpacket⟩ := first_packet hwf hhdr (show 8 < env.aclMtu by omega) hsizes hlen
  refine ⟨w, ?_, hwf, hpos8, hpacket, by omega⟩
  rw [hmod, bteL2capCreateMessage, if_neg (by omega), hw]

/-- **A continuation request that can be made** is sent and becomes the outstanding one. -/
theorem sendContinuationRequest_continues {env : SdpEnv} {s : Sdp} (lastReq : List Packet)
    {contState : Option (List UInt8)} (h : env.Continues s.continuationOffset (contStateLen contState)) :
    ∃ s', sendContinuationRequest env s lastReq contState = some (true, s') ∧ Continued s s' := by
  obtain ⟨w, hw, hwf, hpos, hsize, hroom⟩ := createMessage_first h
  obtain ⟨hoff, hparams⟩ := h.params
  have hmtu := h.size
  have h5 : pduHeaderSize = 5 := rfl
  have h13 : pduOffsetParams = 13 := rfl
  have hneed := packets_needed (show 0 < env.aclMtu - 4 by omega)
    (show 0 < pduHeaderSize + (s.continuationOffset + contStateLen contState) + 4 by omega)
  have hmod : (s.continuationOffset + contStateLen contState) % 65536 = s.continuationOffset + contStateLen contState := by
    generalize (pduHeaderSize + (s.continuationOffset + contStateLen contState) + 4 + (env.aclMtu - 4) - 1) /
      (env.aclMtu - 4) = n at *
    have hle : n * (env.aclMtu - 4) ≤ n * env.aclMtu := Nat.mul_le_mul_left n (by omega)
    exact Nat.mod_eq_of_lt (by omega)
  obtain ⟨w₁, hw₁, hwf₁, hpos₁, hsize₁, hroom₁⟩ := fill_first hwf
    ((reqMemory lastReq).getD pduOffsetOpcode 0 :: (beBytes 2 s.nextId ++
      beBytes 2 (s.continuationOffset + contStateLen contState)))
    (show 0 < pduHeaderSize by decide) (by omega) (by simp [h5])
  obtain ⟨w₂, hw₂, hwf₂, _, _, hroom₂⟩ := fill_first hwf₁
    (slice (reqMemory lastReq ++ env.beyond) pduOffsetParams s.continuationOffset) hoff (by omega) (List.length_take_le ..)
  have hcont : (contStateBytes contState).length ≤ contStateLen contState := by
    cases contState with
    | none => exact Nat.le_refl 1
    | some c => exact List.length_take_le ..
  obtain ⟨hok, _⟩ := write_spec hwf₂ (show (contStateBytes contState).length ≤ w₂.room by omega)
  have hmem : ¬ env.allocates = false := by
    rw [h.memory]
    exact Bool.noConfusion
  have hpdu : createPdu env ((reqMemory lastReq).getD pduOffsetOpcode 0) s.nextId
      (s.continuationOffset + contStateLen contState) = some (some w₁) := by
    rw [createPdu, if_neg hmem, hw]
    simp only [hw₁, Option.map_some]
  refine ⟨s.takeId.submit env (bteBufferWriterEnd (bteBufferWriterWrite w₂ (contStateBytes contState)).2), ?_,
    bteBufferWriterEnd (bteBufferWriterWrite w₂ (contStateBytes contState)).2, rfl, ?_⟩
  · simp only [sendContinuationRequest, hmod, hpdu, hw₂, hok, Bool.true_eq_false, if_false, ge_iff_le, h.accepted,
      decide_true]
  · simp [Sdp.submit, Sdp.takeId, h.accepted]

/-! ## Replies -/

/-- What serving leaves alone, and what it has done when the request is complete. -/
structure ReplyServed (s : Sdp) (served : SdpServed) (ret : Bool) : Prop where
  sent : served.s.sent = s.sent
  offset : served.s.continuationOffset = s.continuationOffset
  complete : served.reqComplete = true → Finished s { served.s with lastReq := none } ret

theorem serveSearch_served (s : Sdp) (errorCode : Nat) (params : List UInt8) (paramLen : Nat) (ret : Bool) :
    ReplyServed s (serveSearch s errorCode params paramLen ret) ret := by
  unfold serveSearch
  cases (if errorCode ≠ 0 then none else parseServiceSearchReply params paramLen) with
  | none => exact ⟨rfl, rfl, fun _ => ⟨rfl, .inl ⟨_, _, _, rfl, .inl rfl⟩⟩⟩
  | some x =>
    refine ⟨rfl, rfl, fun h => ⟨rfl, .inl ⟨_, _, _, rfl, ?_⟩⟩⟩
    simpa using h

theorem serveAttr_served {env : SdpEnv} {s : Sdp} {errorCode : Nat} {params : List UInt8} {paramLen : Nat}
    {served : SdpServed} (ret : Bool) (h : serveAttr env s errorCode params paramLen = some served) :
    ReplyServed s served ret := by
  unfold serveAttr at h
  split at h
  · cases h
    exact ⟨rfl, rfl, fun _ => ⟨rfl, .inr ⟨_, _, _, rfl⟩⟩⟩
  · split at h
    · cases h
    · cases h
      exact ⟨rfl, rfl, fun _ => ⟨rfl, .inr ⟨_, _, _, rfl⟩⟩⟩
    · split at h
      · cases h
        exact ⟨rfl, rfl, fun _ => ⟨rfl, .inr ⟨_, _, _, rfl⟩⟩⟩
      · cases h
        exact ⟨rfl, rfl, fun hc => by cases hc⟩

theorem serveReply_served {env : SdpEnv} {s : Sdp} {lastReq : List Packet} {errorCode : Nat} {params : List UInt8}
    {paramLen : Nat} {ret : Bool} {served : SdpServed}
    (h : serveReply env s lastReq errorCode params paramLen ret = some served) : ReplyServed s served ret := by
  unfold serveReply at h
  simp only at h
  split at h
  · cases h
    exact serveSearch_served ..
  · split at h
    · exact serveAttr_served ret h
    · cases h
      exact ⟨rfl, rfl, fun hc => by cases hc⟩

/-- The message answers the request, and serving it has this outcome. -/
def SdpMessage.Serves (m : SdpMessage) (s : Sdp) (lastReq : List Packet) (served : SdpServed) : Prop :=
  lastReq ∈ s.lastReq ∧ ∃ hdr ∈ (bteBufferReaderReadN m.reader pduHeaderSize).1, matchesRequest lastReq hdr ∧
    served ∈ m.serve s lastReq hdr (bteBufferReaderReadN m.reader pduHeaderSize).2

/-- Then what is left is to end the request, or to make the next. -/
theorem onMessageReceived_serves {s : Sdp} {m : SdpMessage} {lastReq : List Packet} {served : SdpServed}
    (h : m.Serves s lastReq served) :
    onMessageReceived m.env s m.reader m.ret = finishReply m.env lastReq served ∧ ReplyServed s served m.ret := by
  obtain ⟨hreq, hdr, hhdr, hmatch, hserved⟩ := h
  rw [Option.mem_def] at hreq hhdr hserved
  obtain ⟨code, herr, hserved⟩ := Option.bind_eq_some_iff.1 hserved
  split at hserved
  · cases hserved
  · rename_i hzero
    obtain ⟨params, hparams, hserved⟩ := Option.bind_eq_some_iff.1 hserved
    have hread : bteBufferReaderReadN m.reader pduHeaderSize =
        (some hdr, (bteBufferReaderReadN m.reader pduHeaderSize).2) := by
      rw [← hhdr]
    have hhandle : handleReply m.env s lastReq hdr (bteBufferReaderReadN m.reader pduHeaderSize).2 m.ret =
        finishReply m.env lastReq served := by
      simp only [handleReply, herr, if_neg hzero, hparams, hserved, Option.bind_some]
    refine ⟨?_, serveReply_served hserved⟩
    unfold onMessageReceived
    rw [hreq]
    simp only
    rw [hread]
    simp only [if_pos hmatch]
    exact hhandle

/-- **An untroubled answer** ends the request or is followed by the next. -/
theorem onMessageReceived_settles {s : Sdp} {m : SdpMessage} (ha : Answers s m.reader) (hu : m.Untroubled s) :
    ∃ s', onMessageReceived m.env s m.reader m.ret = some s' ∧ (Finished s s' m.ret ∨ Continued s s') := by
  obtain ⟨lastReq, hreq, hdr, hhdr, hmatch⟩ := ha
  obtain ⟨served, hserved, hcont⟩ := hu lastReq hreq hdr hhdr hmatch
  obtain ⟨hrun, hs⟩ := onMessageReceived_serves ⟨hreq, hdr, hhdr, hmatch, hserved⟩
  rw [hrun]
  cases hc : served.reqComplete with
  | true =>
    refine ⟨{ served.s with lastReq := none }, ?_, .inl (hs.complete hc)⟩
    rw [finishReply, if_pos hc]
  | false =>
    have hcont' := hcont hc
    rw [← hs.offset] at hcont'
    obtain ⟨s', hsend, ps, hlast, hsent⟩ := sendContinuationRequest_continues lastReq hcont'
    refine ⟨s', ?_, .inr ⟨ps, hlast, by rw [hsent, hs.sent]⟩⟩
    rw [finishReply, hc, if_neg Bool.false_ne_true, hsend]
    rfl

/-- **In every run of untroubled messages, each answer settles**: the request is over and its function was told so, or
the next request was accepted and is the outstanding one. -/
theorem replies_settled (nextTransactionId : Nat) (ops : List SdpOp)
    (hok : Sys.Admissible sdpStep SdpOp.Untroubled (some (bteSdpClientNew nextTransactionId)) ops)
    (pre post : List SdpOp) (m : SdpMessage) (s : Sdp) (hops : ops = pre ++ .message m :: post)
    (hs : Sys.run sdpStep (some (bteSdpClientNew nextTransactionId)) pre = some s) (ha : Answers s m.reader) :
    ∃ s', Sys.run sdpStep (some (bteSdpClientNew nextTransactionId)) (pre ++ [.message m]) = some s' ∧
      (Finished s s' m.ret ∨ Continued s s') := by
  rw [hops, Sys.admissible_append, hs] at hok
  obtain ⟨s', hs', hcases⟩ := onMessageReceived_settles ha (hok.2.1 s rfl)
  refine ⟨s', ?_, hcases⟩
  rw [Sys.run_append, hs]
  exact hs'

/-- The search of `twoPages`. -/
def pagedOps : List SdpOp :=
  .serviceSearch readyEnv [0x35, 3, 0x19, 0x11, 0x22] 4 7 9 :: twoPagesMessages.map .message

/-- A channel that is no longer open. -/
def closedEnv : SdpEnv := { readyEnv with isOpen := false }

/-- A channel whose remote MTU is that of the first request: there is no room for a continuation state. -/
def narrowEnv : SdpEnv := { readyEnv with remoteMtu := 13 }

/-- The first page of `twoPages`, handled on such a channel. -/
def firstPage (env : SdpEnv) : SdpMessage :=
  ⟨env, messageReader (pduHeader 3 0 14 ++ (twoPages.headD (⟨0, [], []⟩, true)).1.params []) [], true⟩

instance (s : Sdp) (r : BufferReader) : Decidable (Answers s r) := by
  unfold Answers
  infer_instance

/-- At `pagedOps` the first page is followed by the next request. -/
theorem replies_settled_pagedOps :
    ∃ s s', Sys.run sdpStep (some (bteSdpClientNew 0)) (pagedOps.take 1) = some s ∧
      Sys.run sdpStep (some (bteSdpClientNew 0)) (pagedOps.take 2) = some s' ∧ (Finished s s' true ∨ Continued s s') := by
  have hrun : (Sys.run sdpStep (some (bteSdpClientNew 0)) (pagedOps.take 1)).isSome = true := by decide +kernel
  obtain ⟨s, hs⟩ := Option.isSome_iff_exists.1 hrun
  have hall : ∀ s ∈ Sys.run sdpStep (some (bteSdpClientNew 0)) (pagedOps.take 1),
      Answers s (firstPage readyEnv).reader := by decide +kernel
  obtain ⟨s', hs', h⟩ := replies_settled 0 pagedOps (by decide +kernel) (pagedOps.take 1) (pagedOps.drop 2)
    (firstPage readyEnv) s rfl hs (hall s hs)
  exact ⟨s, s', hs, hs', h⟩

/-- On such a channel the page is neither the last word nor followed by a request, and the client refuses a new search. -/
def Unsettled (env : SdpEnv) : Prop :=
  ∃ s s', Sys.run sdpStep (some (bteSdpClientNew 0)) (pagedOps.take 1) = some s ∧ Answers s (firstPage env).reader ∧
    onMessageReceived env s (firstPage env).reader true = some s' ∧ ¬ (Finished s s' true ∨ Continued s s') ∧
    (bteSdpServiceSearchReq readyEnv s' [0x35, 3, 0x19, 0x11, 0x22] 4 7 9).map Prod.fst = some false

/-- It is enough that an outstanding request is left and that none was sent. -/
theorem unsettled_of_silent {env : SdpEnv}
    (h : ∃ s ∈ Sys.run sdpStep (some (bteSdpClientNew 0)) (pagedOps.take 1), Answers s (firstPage env).reader ∧
      ∃ s' ∈ onMessageReceived env s (firstPage env).reader true, s'.lastReq.isSome = true ∧ s'.sent = s.sent ∧
        (bteSdpServiceSearchReq readyEnv s' [0x35, 3, 0x19, 0x11, 0x22] 4 7 9).map Prod.fst = some false) :
    Unsettled env := by
  obtain ⟨s, hs, ha, s', hs', hreq, hsent, hrefused⟩ := h
  refine ⟨s, s', hs, ha, hs', ?_, hrefused⟩
  rintro (⟨hnone, _⟩ | ⟨ps, _, hps⟩)
  · rw [hnone] at hreq
    cases hreq
  · rw [hsent] at hps
    have hlen := congrArg List.length hps
    rw [List.length_append, List.length_singleton] at hlen
    omega

/-- After the page the client on a closed channel holds a request that was never sent, the one on a narrow channel still
holds the first; both refuse a new request. -/
theorem replies_unsettled : Unsettled closedEnv ∧ Unsettled narrowEnv := by
  constructor
  · exact unsettled_of_silent (by decide +kernel)
  · exact unsettled_of_silent (by decide +kernel)

end Bte
