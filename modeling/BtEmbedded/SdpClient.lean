import BtEmbedded.AclMessage
import BtEmbedded.SdpElement
import BtEmbedded.Lib.Run
/-!
# SdpClient — requests and replies of an SDP client (sdp.c)

A client has at most one request, `last_req`.  A reply that carries its transaction id ends it, or holds a continuation
state: then the parameters of the request are copied into a new one, with the state behind them and a new id.  Nothing
but the packet of the last request remembers what was asked.

`SdpEnv` is what the layers below answer: the channel as it is when a message is built and sent, the outcome of the
allocations and what the memory holds.  A read or write through a null pointer is `none`.  `ret` is what a search callback
returns; a request made from inside a callback is refused, since `last_req` is still set there, and a callback that
closes the channel shows in the `SdpEnv` of the continuation.
-/
namespace Bte

open Bytes

def pduHeaderSize : Nat := 5
def pduIdErrorRsp : UInt8 := 0x01
def pduIdServiceSearchReq : UInt8 := 0x02
def pduIdServiceAttrReq : UInt8 := 0x04
def pduIdServiceSearchAttrReq : UInt8 := 0x06
-- the offsets are relative to the raw ACL packet
def pduOffsetOpcode : Nat := 8
def pduOffsetTransId : Nat := 9
def pduOffsetParams : Nat := 13
def bteSdpErrorParser : Nat := 0xffff

/-! ## State -/

structure SdpEnv where
  remoteChannelId : Nat
  remoteMtu : Nat
  connHandle : Nat
  aclMtu : Nat
  /-- `l2cap->state == BTE_L2CAP_OPEN`. -/
  isOpen : Bool
  /-- What `bte_acl_send_message` returns. -/
  aclRc : Int
  /-- There is memory for a message, what its packets hold, and the header of a packet. -/
  allocates : Bool
  mem : Nat → Nat → UInt8
  layout : BufferLayout
  /-- What `bte_malloc` finds for the parameters of a reply and for an attribute list, if anything. -/
  paramsHeap : Option (Nat → UInt8)
  attrHeap : Option (Nat → UInt8)
  /-- What lies behind a memory block. -/
  beyond : List UInt8

/-- `bte_malloc`. -/
def bteMalloc (heap : Option (Nat → UInt8)) (size : Nat) : Option (List UInt8) := heap.map fun m => (List.range size).map m

structure SdpServiceSearchReply where
  errorCode : Nat
  totalCount : Nat
  count : Nat
  hasMore : Bool
  handles : Option (List Nat)
deriving DecidableEq

/-- The list is what the pointer points to, with all that lies behind it. -/
structure SdpServiceAttrReply where
  errorCode : Nat
  attrListDe : Option (List UInt8)
deriving DecidableEq

/-- One call of a client's function. -/
inductive SdpCall where
  | serviceSearch (cb userdata : Nat) (reply : SdpServiceSearchReply)
  | serviceAttr (cb userdata : Nat) (reply : SdpServiceAttrReply)
deriving DecidableEq

/-- `union _bte_sdp_client_last_async_req_u`: both members begin with the function and its argument. -/
structure SdpReqData where
  cb : Nat
  userdata : Nat
  attrListDe : Option (List UInt8)
  written : Nat

/-- A `BteSdpClient` and the counter of transaction ids; `sent` are the messages `bte_l2cap_send_message` accepted. -/
structure Sdp where
  lastReq : Option (List Packet)
  continuationOffset : Nat
  reqData : SdpReqData
  nextTransactionId : Nat
  sent : List (List Packet)
  calls : List SdpCall

/-- The memory `last_req->data` points to. -/
def reqMemory : List Packet → List UInt8
  | [] => []
  | head :: _ => head.data

/-! ## Building and sending a request -/

def contStateLen (contState : Option (List UInt8)) : Nat := 1 + (contState.map fun c => (c.getD 0 0).toNat).getD 0

/-- The bytes `write_cont_state` writes. -/
def contStateBytes (contState : Option (List UInt8)) : List UInt8 :=
  match contState with
  | some c => c.take (contStateLen contState)
  | none => [0]

/-- `memcpy` of `size` bytes behind `bte_buffer_writer_ptr_n`, through whatever pointer it returns. -/
def BufferWriter.fill (w : BufferWriter) (size : Nat) (data : List UInt8) : Option BufferWriter :=
  match bteBufferWriterPtrN w size with
  | (none, _) => none
  | (some pos, w) => some { w with packet := w.packet.store pos data }

/-- `create_pdu`; the inner `none` is `false`. -/
def createPdu (env : SdpEnv) (code : UInt8) (id paramLen : Nat) : Option (Option BufferWriter) :=
  if env.allocates = false then some none
  else
    match bteL2capCreateMessage env.mem env.aclMtu env.connHandle env.remoteChannelId env.remoteMtu
        ((pduHeaderSize + paramLen) % 65536) with
    | none => some none
    | some writer => (writer.fill pduHeaderSize (code :: (beBytes 2 id ++ beBytes 2 paramLen))).map some

/-- `bte_l2cap_send_message`. -/
def SdpEnv.sendMessage (env : SdpEnv) : Int := if env.isOpen then env.aclRc else -1

/-- `next_transaction_id`: a 32-bit counter, cut to 16 bits. -/
def Sdp.nextId (s : Sdp) : Nat := s.nextTransactionId % 65536

def Sdp.takeId (s : Sdp) : Sdp := { s with nextTransactionId := (s.nextTransactionId + 1) % 2 ^ 32 }

/-- `last_req` becomes the new message, which is sent. -/
def Sdp.submit (s : Sdp) (env : SdpEnv) (buffer : List Packet) : Sdp :=
  { s with
    lastReq := some buffer
    sent := if env.sendMessage ≥ 0 then s.sent ++ [buffer] else s.sent }

/-- `send_continuation_request`, with the value it returns. -/
def sendContinuationRequest (env : SdpEnv) (s : Sdp) (lastReq : List Packet) (contState : Option (List UInt8)) :
    Option (Bool × Sdp) :=
  let reqOpcode := (reqMemory lastReq).getD pduOffsetOpcode 0
  let dataLen := s.continuationOffset
  let size := (dataLen + contStateLen contState) % 65536
  match createPdu env reqOpcode s.nextId size with
  | none => none
  | some none => some (false, s.takeId)
  | some (some writer) =>
    match writer.fill s.continuationOffset (slice (reqMemory lastReq ++ env.beyond) pduOffsetParams dataLen) with
    | none => none
    | some writer =>
      let r := bteBufferWriterWrite writer (contStateBytes contState)
      if r.1 = false then some (false, s.takeId)
      else some (decide (env.sendMessage ≥ 0), s.takeId.submit env (bteBufferWriterEnd r.2))

/-- The bytes of the data element at a pointer. -/
def deBytes (de : List UInt8) : List UInt8 := de.take (bteSdpDeGetTotalSize de)

/-- The `*_req_packet` functions: the parameters in `chunks`, then an empty continuation state. -/
def reqPacket (env : SdpEnv) (s : Sdp) (code : UInt8) (chunks : List (List UInt8)) : Option (Option (List Packet) × Sdp) :=
  let size := (chunks.flatten.length + 1) % 65536
  match createPdu env code s.nextId size with
  | none => none
  | some none => some (none, s.takeId)
  | some (some writer) =>
    let r := writeAll writer chunks
    if r.1.all id = false then some (none, s.takeId)
    else
      let s := { s.takeId with continuationOffset := chunks.flatten.length % 65536 }
      let r := bteBufferWriterWrite r.2 (contStateBytes none)
      if r.1 = false then some (none, s) else some (some (bteBufferWriterEnd r.2), s)

def serviceSearchReqPacket (env : SdpEnv) (s : Sdp) (pattern : List UInt8) (maxCount : Nat) :
    Option (Option (List Packet) × Sdp) :=
  reqPacket env s pduIdServiceSearchReq [deBytes pattern, beBytes 2 maxCount]

def serviceAttrReqPacket (env : SdpEnv) (s : Sdp) (serviceRecord maxCount : Nat) (idList : List UInt8) :
    Option (Option (List Packet) × Sdp) :=
  reqPacket env s pduIdServiceAttrReq [beBytes 4 serviceRecord, beBytes 2 maxCount, deBytes idList]

def serviceSearchAttrReqPacket (env : SdpEnv) (s : Sdp) (pattern : List UInt8) (maxCount : Nat) (idList : List UInt8) :
    Option (Option (List Packet) × Sdp) :=
  reqPacket env s pduIdServiceSearchAttrReq [deBytes pattern, beBytes 2 maxCount, deBytes idList]

/-- The `bte_sdp_*_req` functions: one request at a time; `data` is what they keep for the reply. -/
def sdpRequest (env : SdpEnv) (s : Sdp) (packet : Option (Option (List Packet) × Sdp)) (data : SdpReqData) :
    Option (Bool × Sdp) :=
  if s.lastReq ≠ none then some (false, s)
  else
    match packet with
    | none => none
    | some (none, s) => some (false, s)
    | some (some buffer, s) =>
      if env.sendMessage < 0 then some (false, { s.submit env buffer with lastReq := none })
      else some (true, { s.submit env buffer with reqData := data })

def bteSdpServiceSearchReq (env : SdpEnv) (s : Sdp) (pattern : List UInt8) (maxCount cb userdata : Nat) :
    Option (Bool × Sdp) :=
  sdpRequest env s (serviceSearchReqPacket env s pattern maxCount) { s.reqData with cb := cb, userdata := userdata }

def bteSdpServiceAttrReq (env : SdpEnv) (s : Sdp) (serviceRecord maxCount : Nat) (idList : List UInt8)
    (cb userdata : Nat) : Option (Bool × Sdp) :=
  sdpRequest env s (serviceAttrReqPacket env s serviceRecord maxCount idList) ⟨cb, userdata, none, 0⟩

def bteSdpServiceSearchAttrReq (env : SdpEnv) (s : Sdp) (pattern : List UInt8) (maxCount : Nat) (idList : List UInt8)
    (cb userdata : Nat) : Option (Bool × Sdp) :=
  sdpRequest env s (serviceSearchAttrReqPacket env s pattern maxCount idList) ⟨cb, userdata, none, 0⟩

/-! ## Parsing a reply -/

/-- `parse_service_search_reply`: the reply and the continuation state. -/
def parseServiceSearchReply (params : List UInt8) (paramLen : Nat) : Option (SdpServiceSearchReply × List UInt8) :=
  if paramLen < 4 then none
  else
    let totalCount := beVal (slice params 0 2)
    let count := beVal (slice params 2 2)
    let remaining := paramLen - 4
    let params := params.drop 4
    if remaining < count * 4 then none
    else
      let handles := (List.range count).map fun i => beVal (slice params (i * 4) 4)
      let params := params.drop (count * 4)
      let remaining := remaining - count * 4
      if remaining < 1 then none
      else if contStateLen (some params) > 17 ∨ contStateLen (some params) > remaining then none
      else some (⟨0, totalCount, count, params.getD 0 0 ≠ 0, some handles⟩, params)

/-- The end of `parse_service_attr_reply` for a fragmented reply: `data.attr_list_de` may be what `bte_malloc` has just
returned. -/
def storeFragment (data : SdpReqData) (totalSize attrsSize : Nat) (idList contState : List UInt8) :
    Option (Option (List UInt8 × List UInt8) × SdpReqData) :=
  if data.written + attrsSize > totalSize then some (none, data)
  else
    match data.attrListDe with
    | none => none
    | some list =>
      let list := blit list data.written (idList.take attrsSize)
      let written := (data.written + attrsSize) % 65536
      let data := { data with attrListDe := some list, written := written }
      if contState.getD 0 0 = 0 ∧ written ≠ totalSize then some (none, data)
      else some (some (list, contState), data)

/-- The second half of `parse_service_attr_reply`: a list in one reply stays where it is. -/
def storeAttrList (env : SdpEnv) (data : SdpReqData) (attrsSize : Nat) (idList contState : List UInt8) :
    Option (Option (List UInt8 × List UInt8) × SdpReqData) :=
  match data.attrListDe with
  | some list => storeFragment data (bteSdpDeGetTotalSize list) attrsSize idList contState
  | none =>
    let totalSize := bteSdpDeGetTotalSize idList
    if contState.getD 0 0 ≠ 0 then
      if totalSize ≥ 0x10000 then some (none, data)
      else storeFragment { data with attrListDe := bteMalloc env.attrHeap totalSize } totalSize attrsSize idList contState
    else if attrsSize ≠ totalSize then some (none, data)
    else some (some (idList, contState), data)

/-- `parse_service_attr_reply`: the list and the continuation state, and the client's data. -/
def parseServiceAttrReply (env : SdpEnv) (data : SdpReqData) (params : List UInt8) (paramLen : Nat) :
    Option (Option (List UInt8 × List UInt8) × SdpReqData) :=
  if paramLen < 3 then some (none, data)
  else
    let attrsSize := beVal (slice params 0 2)
    let idList := params.drop 2
    let contState := idList.drop attrsSize
    let remaining := sub16 (paramLen - 2) attrsSize
    if remaining < 1 then some (none, data)
    else if contStateLen (some contState) > 17 ∨ contStateLen (some contState) > remaining then some (none, data)
    else storeAttrList env data attrsSize idList contState

/-! ## Receiving a message -/

/-- The error code of an error response, and the reader behind it. -/
def readErrorCode (rspOpcode : UInt8) (reader : BufferReader) : Option (Nat × BufferReader) :=
  if rspOpcode = pduIdErrorRsp then
    match bteBufferReaderReadN reader 2 with
    | (none, _) => none
    | (some bytes, reader) => some (beVal bytes, reader)
  else some (0, reader)

/-- The parameters where they are, or copied if they are split; nothing when there is no memory for the copy. -/
def readParams (env : SdpEnv) (reader : BufferReader) (paramLen : Nat) : Option (List UInt8) :=
  match bteBufferReaderReadN reader paramLen with
  | (some bytes, _) => some (bytes ++ env.beyond)
  | (none, reader) =>
    (bteMalloc env.paramsHeap paramLen).map fun buffer =>
      blit buffer 0 (bteBufferReaderRead reader paramLen).1 ++ env.beyond

/-- What a reply has done: `req_complete` and `cont_state`. -/
structure SdpServed where
  s : Sdp
  reqComplete : Bool
  contState : Option (List UInt8)

/-- A reply to a service search. -/
def serveSearch (s : Sdp) (errorCode : Nat) (params : List UInt8) (paramLen : Nat) (ret : Bool) : SdpServed :=
  let call reply := { s with calls := s.calls ++ [.serviceSearch s.reqData.cb s.reqData.userdata reply] }
  match (if errorCode ≠ 0 then none else parseServiceSearchReply params paramLen) with
  | none => ⟨call ⟨if errorCode ≠ 0 then errorCode else bteSdpErrorParser, 0, 0, false, none⟩, true, none⟩
  | some (reply, contState) => ⟨call reply, !reply.hasMore || !ret, some contState⟩

/-- A reply to one of the attribute requests. -/
def serveAttr (env : SdpEnv) (s : Sdp) (errorCode : Nat) (params : List UInt8) (paramLen : Nat) : Option SdpServed :=
  let call (s : Sdp) reply := { s with calls := s.calls ++ [.serviceAttr s.reqData.cb s.reqData.userdata reply] }
  if errorCode ≠ 0 then some ⟨call s ⟨errorCode, none⟩, true, none⟩
  else
    match parseServiceAttrReply env s.reqData params paramLen with
    | none => none
    | some (none, data) => some ⟨call { s with reqData := data } ⟨bteSdpErrorParser, none⟩, true, none⟩
    | some (some (list, contState), data) =>
      if contState.getD 0 0 = 0 then some ⟨call { s with reqData := data } ⟨0, some list⟩, true, some contState⟩
      else some ⟨{ s with reqData := data }, false, some contState⟩

/-- A reply to the last request. -/
def serveReply (env : SdpEnv) (s : Sdp) (lastReq : List Packet) (errorCode : Nat) (params : List UInt8) (paramLen : Nat)
    (ret : Bool) : Option SdpServed :=
  let reqOpcode := (reqMemory lastReq).getD pduOffsetOpcode 0
  if reqOpcode = pduIdServiceSearchReq then some (serveSearch s errorCode params paramLen ret)
  else if reqOpcode = pduIdServiceAttrReq ∨ reqOpcode = pduIdServiceSearchAttrReq then
    serveAttr env s errorCode params paramLen
  else some ⟨s, false, none⟩

/-- The request is over, or goes on; what `send_continuation_request` returns is not looked at. -/
def finishReply (env : SdpEnv) (lastReq : List Packet) (served : SdpServed) : Option Sdp :=
  if served.reqComplete then some { served.s with lastReq := none }
  else (sendContinuationRequest env served.s lastReq served.contState).map Prod.snd

/-- `on_message_received` once the header is known to answer the request. -/
def handleReply (env : SdpEnv) (s : Sdp) (lastReq : List Packet) (hdr : List UInt8) (reader : BufferReader) (ret : Bool) :
    Option Sdp :=
  match readErrorCode (hdr.getD 0 0) reader with
  | none => none
  | some (errorCode, reader) =>
    if hdr.getD 0 0 = pduIdErrorRsp ∧ errorCode = 0 then some s
    else
      let paramLen := beVal (slice hdr 3 2)
      match readParams env reader paramLen with
      | none => some s
      | some params => (serveReply env s lastReq errorCode params paramLen ret).bind (finishReply env lastReq)

/-- The header carries the id of the request and the opcode of its response or of an error. -/
def matchesRequest (lastReq : List Packet) (hdr : List UInt8) : Prop :=
  slice hdr 1 2 = slice (reqMemory lastReq) pduOffsetTransId 2 ∧
  ((hdr.getD 0 0).toNat = ((reqMemory lastReq).getD pduOffsetOpcode 0).toNat + 1 ∨ hdr.getD 0 0 = pduIdErrorRsp)

instance (lastReq : List Packet) (hdr : List UInt8) : Decidable (matchesRequest lastReq hdr) :=
  inferInstanceAs (Decidable (_ ∧ _))

def onMessageReceived (env : SdpEnv) (s : Sdp) (reader : BufferReader) (ret : Bool) : Option Sdp :=
  match s.lastReq with
  | none => some s
  | some lastReq =>
    match bteBufferReaderReadN reader pduHeaderSize with
    | (none, _) => none
    | (some hdr, reader) => if matchesRequest lastReq hdr then handleReply env s lastReq hdr reader ret else some s

/-! ## Runs -/

/-- A message of the peer, with what the layers below and the search callback answer while it is handled. -/
structure SdpMessage where
  env : SdpEnv
  reader : BufferReader
  ret : Bool

inductive SdpOp where
  | serviceSearch (env : SdpEnv) (pattern : List UInt8) (maxCount cb userdata : Nat)
  | serviceAttr (env : SdpEnv) (serviceRecord maxCount : Nat) (idList : List UInt8) (cb userdata : Nat)
  | serviceSearchAttr (env : SdpEnv) (pattern : List UInt8) (maxCount : Nat) (idList : List UInt8) (cb userdata : Nat)
  | message (m : SdpMessage)

def SdpOp.apply (s : Sdp) : SdpOp → Option Sdp
  | .serviceSearch env pattern maxCount cb userdata =>
    (bteSdpServiceSearchReq env s pattern maxCount cb userdata).map Prod.snd
  | .serviceAttr env serviceRecord maxCount idList cb userdata =>
    (bteSdpServiceAttrReq env s serviceRecord maxCount idList cb userdata).map Prod.snd
  | .serviceSearchAttr env pattern maxCount idList cb userdata =>
    (bteSdpServiceSearchAttrReq env s pattern maxCount idList cb userdata).map Prod.snd
  | .message m => onMessageReceived m.env s m.reader m.ret

/-- One step; after a null pointer nothing follows. -/
def sdpStep (s : Option Sdp) (o : SdpOp) : Option Sdp := s.bind fun s => o.apply s

/-- A new client. -/
def bteSdpClientNew (nextTransactionId : Nat) : Sdp := ⟨none, 0, ⟨0, 0, none, 0⟩, nextTransactionId, [], []⟩

end Bte
