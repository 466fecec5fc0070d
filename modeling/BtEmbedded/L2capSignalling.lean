import BtEmbedded.L2cap
/-!
# L2capSignalling — what comes in on a link (l2cap.c, l2cap_echo.c)

A signalling PDU is a row of commands behind one reader; `acl_data_received_cb` reads the header of each and leaves its
body to the handler.  A reader is the list of bytes it has still to yield, and every handler returns what it leaves of it.

A client's callback may call the stack again: `L2capHost.client` lets it make any list of calls (`L2capCall`), the callbacks
of these included, down to any depth.
-/
namespace Bte

open Bytes

/-- What a handler leaves; `hangs` is set if it never returns. -/
structure Handled where
  ok : Bool
  reader : List UInt8
  link : L2capLink
  hangs : Bool

def Handled.of (ok : Bool) (reader : List UInt8) (link : L2capLink) : Handled := ⟨ok, reader, link, false⟩

/-- The 16-bit field at index `i`. -/
def word (header : List UInt8) (i : Nat) : Nat := leVal (slice header (2 * i) 2)

def readSignalHeader (reader : List UInt8) (respLen neededLen : Nat) : Option (List UInt8) × List UInt8 :=
  if respLen < neededLen then (none, reader)
  else if (reader.take neededLen).length ≠ neededLen then (none, reader.drop neededLen)
  else (some (reader.take neededLen), reader.drop neededLen)

/-- A handler that gives up if it cannot read its header. -/
def withSignalHeader (w : L2capLink) (reader : List UInt8) (len neededLen : Nat)
    (handle : List UInt8 → List UInt8 → Handled) : Handled :=
  match readSignalHeader reader len neededLen with
  | (none, reader) => .of false reader w
  | (some header, reader) => handle header reader

/-! ## Connection -/

/-- The end of `l2cap_connect_cb`, for a response that is not an error. -/
def connectAnswered (host : L2capHost) (w : L2capLink) (p : Nat) (reply : ConnectionResponse) (reader : List UInt8) :
    Handled :=
  if reply.localChannelId ≠ (w.channels p).localChannelId then .of false reader w
  else
    let l2cap := if reply.result = connRespResOk then some p else none
    let w := connected host w p (w.channels p).clientCb l2cap (some reply) (w.channels p).userdata
    if reply.result ≠ connRespResPending then .of true reader (bteL2capUnref w p) else .of false reader w

def l2capConnectCb (host : L2capHost) (w : L2capLink) (p : Nat) (reader : List UInt8) (respLen : Nat) : Handled :=
  withSignalHeader w reader respLen 8 fun data reader =>
    let result := word data 2
    if result > connRespResPending then
      let reply : ConnectionResponse := ⟨0, 0, result, connRespStatusNoInfo⟩
      let w := l2capSetState host w p .closed
      let w := connected host w p (w.channels p).clientCb none (some reply) (w.channels p).userdata
      .of true reader (bteL2capUnref w p)
    else
      let reply : ConnectionResponse := ⟨word data 0, word data 1, result, word data 3⟩
      let w := if result = connRespResOk then l2capSetState host w p .waitConfig else w
      let w := w.modify p fun l2cap => { l2cap with remoteChannelId := reply.remoteChannelId }
      connectAnswered host w p reply reader

def l2capConnectionReqReply (host : L2capHost) (w : L2capLink) (id channelId remoteChannelId result : Nat) : L2capLink :=
  (aclL2capCmdReply host w none l2capSignalConnRsp id
    (leBytes 2 channelId ++ leBytes 2 remoteChannelId ++ leBytes 2 result ++ leBytes 2 connRespStatusNoInfo)).2

def bteL2capNewConnected (w : L2capLink) (psm channelId : Nat) : Option Nat × L2capLink :=
  let new := w.alloc false
  let p := new.1
  match aclL2capAddClient new.2 p with
  | none => (none, bteL2capUnref new.2 p)
  | some w =>
    let next := w.nextChannelId
    (some p, (next.2.allot p next.1).modify p fun l2cap => { l2cap with remoteChannelId := channelId, psm := psm })

/-- The server sets its callback on the channel without looking whether there is one. -/
def l2capServerHandleConnectionReq (host : L2capHost) (w : L2capLink) (psm channelId : Nat) : Option Nat × L2capLink :=
  if host.serverForPsm psm then
    match bteL2capNewConnected w psm channelId with
    | (none, w) => (none, w)
    | (some p, w) => (some p, w.modify p fun l2cap => { l2cap with stateChangedCb := .server })
  else (none, w)

def aclL2capHandleConnectionReq (host : L2capHost) (w : L2capLink) (id : Nat) (reader : List UInt8) (reqLen : Nat) :
    Handled :=
  withSignalHeader w reader reqLen 4 fun header reader =>
    let psm := word header 0
    let channelId := word header 1
    match l2capServerHandleConnectionReq host w psm channelId with
    | (none, w) => .of true reader (l2capConnectionReqReply host w id 0 channelId connRespResErrPsm)
    | (some p, w) =>
      let w := l2capConnectionReqReply host w id (w.channels p).localChannelId channelId connRespResOk
      .of true reader (l2capSetState host w p .waitConfig)

/-! ## Configuration -/

def l2capConfigApply (w : L2capLink) (p : Nat) (params : ConfigureParams) (remote : Bool) : L2capLink :=
  let mtu := if params.fieldMask &&& ConfigOption.mtu.bit ≠ 0 then params.mtu else l2capMtuDefault
  w.modify p fun l2cap => if remote then { l2cap with remoteMtu := mtu } else { l2cap with mtu := mtu }

def l2capConfigSendRespPacket (host : L2capHost) (w : L2capLink) (p : Nat) (msgId : Nat) : Bool × L2capLink :=
  let r := l2capConfigSend host w p ((w.channels p).configureReq.getD .zero) msgId
  (r.1, r.2.modify p fun l2cap =>
    if (l2cap.configureReq.getD .zero).hasPendingPackets then l2cap else { l2cap with configureReq := none })

/-- What a response adds to those before it, and what is left of the reader. -/
def configRespParse (result : Nat) (conf : ConfigureData) (reader : List UInt8) (cmdSize : Nat) :
    ConfigureData × List UInt8 :=
  if result = l2capConfigResErrParams then
    let savedMask := conf.params.fieldMask
    let parsed := l2capConfigParse false reader { conf.params with fieldMask := conf.rejectedMask } cmdSize
    ({ conf with
      rejectedMask := parsed.params.fieldMask
      params := { parsed.params with fieldMask := parsed.params.fieldMask ||| savedMask } }, parsed.reader)
  else if result = l2capConfigResErrUnknown then
    let parsed := l2capConfigParse false reader .zero cmdSize
    ({ conf with unknownMask := parsed.params.fieldMask }, parsed.reader)
  else if result = l2capConfigResOk then
    let parsed := l2capConfigParse false reader conf.params cmdSize
    ({ conf with params := parsed.params }, parsed.reader)
  else (conf, reader)

/-- Where a final positive response takes the channel. -/
def responseAccepted : L2capState → L2capState
  | .waitConfigRsp => .opened
  | .waitConfigReqRsp => .waitConfigReq
  | s => s

/-- Where a final negative one takes it. -/
def responseRefused : L2capState → L2capState
  | .waitConfigRsp => .waitSendConfig
  | .waitConfigReqRsp => .waitConfig
  | s => s

/-- The client gets the reply that the responses add up to. -/
def deliverConfigureReply (host : L2capHost) (w : L2capLink) (p : Nat) : L2capLink :=
  let l2cap := w.channels p
  let conf := (l2cap.configureResp.map (·.data)).getD .zero
  let reply : ConfigureReply := ⟨conf.rejectedMask, conf.unknownMask, conf.params⟩
  (configured host w l2cap.clientCb p reply l2cap.cmdUserdata true).modify p fun l2cap =>
      { l2cap with configureResp := none }

/-- The part of `l2cap_handle_config_resp` behind the parser.  The continuation flag is tested as `!flags & 1`: only a
response without any flag is final. -/
def finishConfigResp (host : L2capHost) (w : L2capLink) (p flags result : Nat) (handled : L2event) : L2capLink :=
  if flags = 0 then
    if result = l2capConfigResOk then
      let conf := ((w.channels p).configureResp.map (·.data)).getD .zero
      let w := (deliverConfigureReply host (l2capConfigApply w p conf.params false) p).record handled
      l2capSetState host w p (responseAccepted (w.channels p).state)
    else
      let w := w.record handled
      deliverConfigureReply host (l2capSetState host w p (responseRefused (w.channels p).state)) p
  else
    let w := w.record handled
    if (w.channels p).expectedResponseCount = 1 then (l2capConfigSend host w p .zero 0).2 else w

def l2capHandleConfigResp (host : L2capHost) (w : L2capLink) (p id : Nat) (reader : List UInt8) (respLen : Nat) :
    Handled :=
  withSignalHeader w reader respLen 6 fun header reader =>
    let flags := word header 1
    let result := word header 2
    let l2cap := w.channels p
    let resp := l2cap.configureResp.getD ⟨.zero, decide (flags &&& l2capConfigFlagContinuation = 0)⟩
    let parsed := configRespParse result resp.data reader (respLen - 6)
    let w := w.modify p fun l2cap => { l2cap with configureResp := some { resp with data := parsed.1 } }
    .of true parsed.2 (finishConfigResp host w p flags result
      (.handled p id l2cap.expectedResponseId flags result (lastRequest p w.log)))

def l2capConfigureTypeIsKnown (type : Nat) : Bool :=
  type &&& l2capConfigHint ≠ 0 || (ConfigOption.ofType (type &&& 0x7f)).isSome

/-- A variable of `n` bytes after a read into it, which may have come up short. -/
def readOver (host : L2capHost) (reader : List UInt8) (n : Nat) : List UInt8 :=
  blit ((List.range n).map (host.mem 0)) 0 (reader.take n)

/-- The inner loop of `l2cap_configure_reply_type_error`, with its 8-bit counter: the pieces it copies, or nothing if it
never ends.  The counter is back where it was after eight turns at most. -/
def copyParam (host : L2capHost) (paramSize : Nat) : Nat → Nat → List UInt8 → Option (List (List UInt8) × List UInt8)
  | 0, _, _ => none
  | fuel + 1, paramRead, reader =>
    if paramRead < paramSize then
      let len := min paramSize 32
      (copyParam host paramSize fuel ((paramRead + len) % 256) (reader.drop len)).map fun r =>
        (readOver host reader len :: r.1, r.2)
    else some ([], reader)

/-- The outer loop, with its 16-bit counter. -/
def copyUnknown (host : L2capHost) (cmdSize : Nat) : Nat → Nat → List UInt8 → Option (List (List UInt8))
  | 0, _, _ => none
  | fuel + 1, read, reader =>
    if read < cmdSize then
      let header := readOver host reader 2
      let type := (header.getD 0 0).toNat
      let paramSize := (header.getD 1 0).toNat
      let read := (read + 2 + paramSize) % 65536
      if l2capConfigureTypeIsKnown type then copyUnknown host cmdSize fuel read ((reader.drop 2).drop paramSize)
      else
        (copyParam host paramSize 9 0 (reader.drop 2)).bind fun r =>
          (copyUnknown host cmdSize fuel read r.2).map fun writes => header :: r.1 ++ writes
    else some []

/-- `reader` stands at the header of the request again.  Once it is used up only the counter changes, so the loop ends
within 65536 more turns or never. -/
def l2capConfigureReplyTypeError (host : L2capHost) (w : L2capLink) (p id : Nat) (reader : List UInt8)
    (reqLen replySize : Nat) : Option L2capLink :=
  let flags := word (readOver host reader 4) 1
  (copyUnknown host (reqLen - 4) (reader.length + 65537) 0 (reader.drop 4)).map fun writes =>
    let head := leBytes 2 (w.channels p).remoteChannelId ++ leBytes 2 flags ++ leBytes 2 l2capConfigResErrUnknown
    let buffer := (aclL2capCreateCmd host l2capSignalConfigRsp id (l2capConfigRspHdrLen + replySize)).map fun writer =>
      bteBufferWriterEnd (writeAll (writer.storeN head) writes).2
    (w.send host (some p) l2capSignalConfigRsp id (head ++ writes.flatten) (buffer.getD [])).2

/-- An accepted request takes effect; the response always names the MTU. -/
def acceptConfigure (w : L2capLink) (p : Nat) : L2capLink :=
  let conf := ((w.channels p).configureReq.getD .zero)
  if conf.rejectedMask = 0 then
    let w := l2capConfigApply w p conf.params true
    if conf.params.fieldMask &&& ConfigOption.mtu.bit = 0 then
      w.modify p fun l2cap => { l2cap with configureReq := some { conf with params := { conf.params with
        mtu := l2cap.remoteMtu, fieldMask := conf.params.fieldMask ||| ConfigOption.mtu.bit } } }
    else w
  else w

/-- A complete request: the client is asked, and the response is sent. -/
def configureRequested (host : L2capHost) (w : L2capLink) (p id : Nat) : L2capLink :=
  let l2cap := w.channels p
  let params := (l2cap.configureReq.getD .zero).params
  let w :=
    match l2cap.configureCb with
    | none => w
    | some f => w.call host p (.configureRequest f p params l2cap.userdata)
  let w := acceptConfigure w p
  (l2capConfigSend host w p ((w.channels p).configureReq.getD .zero) id).2

def ackContinued (host : L2capHost) (w : L2capLink) (p id : Nat) : L2capLink :=
  (aclL2capCmdReply host w (some p) l2capSignalConfigRsp id (leBytes 2 (w.channels p).remoteChannelId ++
    leBytes 2 l2capConfigFlagContinuation ++ leBytes 2 l2capConfigResOk)).2

/-- Nothing if the answer is never sent because the code does not come back. -/
def answerConfigureReq (host : L2capHost) (w : L2capLink) (p id flags : Nat) (parsed : ConfigParsed)
    (reader : List UInt8) (reqLen : Nat) : Option L2capLink :=
  match parsed.rc with
  | .unknownType => l2capConfigureReplyTypeError host w p id reader reqLen parsed.unknownSize
  | .corrupted => some w
  | .ok =>
    if flags &&& l2capConfigFlagContinuation ≠ 0 then some (ackContinued host w p id)
    else some (configureRequested host w p id)

/-- A request is kept while more of it is to come, or more of its response is to go. -/
def finishConfigureReq (w : L2capLink) (p flags : Nat) : L2capLink :=
  w.modify p fun l2cap =>
    if (l2cap.configureReq.getD .zero).hasPendingPackets then l2cap
    else if flags &&& l2capConfigFlagContinuation = 0 then { l2cap with configureReq := none }
    else l2cap

/-- Four of the states take a request of the peer. -/
def L2capState.takesConfigureReq : L2capState → Bool
  | .waitConfig => true
  | .waitConfigReq => true
  | .waitConfigReqRsp => true
  | .opened => true
  | _ => false

/-- The channel with the local id of the request, if it takes one. -/
def L2capLink.configureTarget (w : L2capLink) (channelId : Nat) : Option Nat :=
  (w.l2capForLocalChannel channelId).filter fun p => (w.channels p).state.takesConfigureReq

/-- The part of `acl_l2cap_handle_configure_req` for a channel that takes the request. -/
def handleConfigureReqOn (host : L2capHost) (w : L2capLink) (p id flags : Nat) (reader rest : List UInt8) (reqLen : Nat) :
    Handled :=
  let conf := (w.channels p).configureReq.getD .zero
  let w := bteL2capRef (w.modify p fun l2cap => { l2cap with configureReq := some conf }) p
  if conf.hasPendingPackets then .of true rest (bteL2capUnref (l2capConfigSendRespPacket host w p id).2 p)
  else
    let parsed := l2capConfigParse true rest conf.params (reqLen - 4)
    let w := w.modify p fun l2cap => { l2cap with configureReq := some { conf with params := parsed.params } }
    match answerConfigureReq host w p id flags parsed reader reqLen with
    | none => ⟨true, parsed.reader, w, true⟩
    | some w => .of true parsed.reader (bteL2capUnref (finishConfigureReq w p flags) p)

def aclL2capHandleConfigureReq (host : L2capHost) (w : L2capLink) (id : Nat) (reader : List UInt8) (reqLen : Nat) :
    Handled :=
  withSignalHeader w reader reqLen 4 fun header rest =>
    match w.configureTarget (word header 0) with
    | none => .of true rest (l2capRejectCommandInvalidCid host w id (word header 0) 0)
    | some p => handleConfigureReqOn host w p id (word header 1) reader rest reqLen

/-! ## Echo and information -/

def l2capHandleEchoResp (host : L2capHost) (w : L2capLink) (p : Nat) (reader : List UInt8) : Handled :=
  let l2cap := w.channels p
  match l2cap.clientCb with
  | .client _ f => .of true (reader.drop (host.echoRead f reader)) (w.call host p (.echo f p reader l2cap.cmdUserdata))
  | .null => .of true reader w
  | .newConfiguredConnect => .of true reader w
  | .newConfiguredConfigure => .of true reader w

/-- The first channel whose echo callback announces a reply. -/
def echoResponder (host : L2capHost) (reader : List UInt8) : List (Fin 4) → L2capLink → Option Nat × Nat × L2capLink
  | [], w => (none, 0, w)
  | i :: is, w =>
    match w.clients i with
    | none => echoResponder host reader is w
    | some p =>
      match (w.channels p).echoCb with
      | none => echoResponder host reader is w
      | some f =>
        let w := w.call host p (.echoRequest f p reader false (w.channels p).userdata)
        let rspLen := host.echoLen f reader % 65536
        if rspLen > 0 then (some p, rspLen, w) else echoResponder host reader is w

/-- The callback that writes the reply, if it is still there. -/
def echoWriter (w : L2capLink) (p : Option Nat) : Option (Nat × Nat) :=
  p.bind fun p => (w.channels p).echoCb.map fun f => (p, f)

/-- The second half of `acl_l2cap_handle_echo_req`: the reply, what is left of the reader, and the link. -/
def echoReply (host : L2capHost) (w : L2capLink) (reader : List UInt8) (p : Option Nat) :
    List UInt8 × List UInt8 × L2capLink :=
  (echoWriter w p).elim ([], reader, w) fun c =>
    (host.echoData c.2 reader, reader.drop (host.echoRead c.2 reader),
      w.call host c.1 (.echoRequest c.2 c.1 reader true (w.channels c.1).userdata))

def aclL2capHandleEchoReq (host : L2capHost) (w : L2capLink) (id : Nat) (reader : List UInt8) : Handled :=
  let r := echoResponder host reader (List.finRange 4) w
  let writer := aclL2capCreateCmd host l2capSignalEchoRsp id r.2.1
  let reply := if writer.isSome then echoReply host r.2.2 reader r.1 else ([], reader, r.2.2)
  .of writer.isSome reply.2.1 (writer.elim reply.2.2 fun writer =>
    (reply.2.2.send host none l2capSignalEchoRsp id reply.1
      (bteBufferWriterEnd (bteBufferWriterWrite writer reply.1).2)).2)

def infoTypeMtu : Nat := 1
def infoTypeExtFeatures : Nat := 2
def infoTypeFixedChannels : Nat := 3
def infoRespResOk : Nat := 0
def infoRespResUnsupported : Nat := 1

/-- The size of the value, for the types that have one. -/
def infoSize (type : Nat) : Nat :=
  if type = infoTypeMtu then 2 else if type = infoTypeExtFeatures then 4 else if type = infoTypeFixedChannels then 8 else 0

def l2capHandleInfoResp (host : L2capHost) (w : L2capLink) (p : Nat) (reader : List UInt8) (respLen : Nat) : Handled :=
  withSignalHeader w reader respLen 4 fun header reader =>
    let type := word header 0
    let result := word header 1
    let size := if result = infoRespResOk then infoSize type else 0
    let info : L2capInfo := ⟨type, result, if size = 0 then none else some (leVal (reader.take size))⟩
    let l2cap := w.channels p
    let w :=
      match l2cap.clientCb with
      | .client _ f => w.call host p (.info f p info l2cap.cmdUserdata)
      | .null => w
      | .newConfiguredConnect => w
      | .newConfiguredConfigure => w
    .of true (reader.drop size) w

/-- The fixed replies. -/
def infoReply (type : Nat) : List UInt8 :=
  if type = infoTypeMtu then leBytes 2 type ++ leBytes 2 infoRespResOk ++ leBytes 2 48
  else if type = infoTypeExtFeatures then leBytes 2 type ++ leBytes 2 infoRespResOk ++ leBytes 4 0
  else if type = infoTypeFixedChannels then leBytes 2 type ++ leBytes 2 infoRespResOk ++ leBytes 8 0x2
  else leBytes 2 type ++ leBytes 2 infoRespResUnsupported

def aclL2capHandleInfoReq (host : L2capHost) (w : L2capLink) (id : Nat) (reader : List UInt8) (reqLen : Nat) : Handled :=
  withSignalHeader w reader reqLen 2 fun header reader =>
    let r := aclL2capCmdReply host w none l2capSignalInfoRsp id (infoReply (word header 0))
    .of r.1 reader r.2

/-! ## Disconnection -/

def l2capHandleDisconnectResp (host : L2capHost) (w : L2capLink) (p : Nat) (reader : List UInt8) (respLen : Nat) :
    Handled :=
  withSignalHeader w reader respLen 4 fun header reader =>
    let l2cap := w.channels p
    if word header 0 ≠ l2cap.remoteChannelId ∨ word header 1 ≠ l2cap.localChannelId then .of false reader w
    else .of true reader
      (disconnected host (l2capSetState host (w.note (.closing p (w.channels p).state)) p .closed) p
          hciConnTerminatedByLocalHost)

def l2capSendDisconnectResp (host : L2capHost) (w : L2capLink) (p id : Nat) : Bool × L2capLink :=
  aclL2capCmdReply host w (some p) l2capSignalDisconnRsp id
    (leBytes 2 (w.channels p).localChannelId ++ leBytes 2 (w.channels p).remoteChannelId)

def aclL2capHandleDisconnectReq (host : L2capHost) (w : L2capLink) (id : Nat) (reader : List UInt8) (reqLen : Nat) :
    Handled :=
  withSignalHeader w reader reqLen 4 fun header reader =>
    match w.l2capForLocalChannel (word header 0) with
    | none => .of true reader (l2capRejectCommandInvalidCid host w id (word header 0) (word header 1))
    | some p =>
      let w := (l2capSendDisconnectResp host w p id).2
      let w := l2capSetState host (w.note (.closing p (w.channels p).state)) p .closed
      .of true reader (disconnected host w p hciOtherEndClosedConnUser)

/-! ## The commands of a PDU -/

def aclL2capHandleRequest (host : L2capHost) (w : L2capLink) (code id : Nat) (reader : List UInt8) (reqLen : Nat) :
    Handled :=
  if code = l2capSignalConnReq then aclL2capHandleConnectionReq host w id reader reqLen
  else if code = l2capSignalConfigReq then aclL2capHandleConfigureReq host w id reader reqLen
  else if code = l2capSignalEchoReq then aclL2capHandleEchoReq host w id reader
  else if code = l2capSignalInfoReq then aclL2capHandleInfoReq host w id reader reqLen
  else if code = l2capSignalDisconnReq then aclL2capHandleDisconnectReq host w id reader reqLen
  else .of false reader w

def l2capHandleResponse (host : L2capHost) (w : L2capLink) (p code id : Nat) (reader : List UInt8) (respLen : Nat) :
    Handled :=
  let state := (w.channels p).state
  if code = l2capSignalConnRsp then
    if state = .waitConnectRsp then l2capConnectCb host w p reader respLen else .of false reader w
  else if code = l2capSignalConfigRsp then
    if state = .waitConfigRsp ∨ state = .waitConfigReqRsp then l2capHandleConfigResp host w p id reader respLen
    else .of false reader w
  else if code = l2capSignalEchoRsp then l2capHandleEchoResp host w p reader
  else if code = l2capSignalInfoRsp then l2capHandleInfoResp host w p reader respLen
  else if code = l2capSignalDisconnRsp then
    if state = .waitDisconnect then l2capHandleDisconnectResp host w p reader respLen else .of false reader w
  else .of false reader w

/-- Whether a channel awaits the response. -/
def L2cap.expects (l2cap : L2cap) (code id : Nat) : Bool :=
  l2cap.expectedResponseCount != 0 && id == l2cap.expectedResponseId &&
    (code == l2cap.expectedResponseCode || code == l2capSignalCmdRej)

def countDown (l2cap : L2cap) : L2cap :=
  { l2cap with expectedResponseCount := (l2cap.expectedResponseCount + 255) % 256 }

def countUp (l2cap : L2cap) : L2cap :=
  { l2cap with expectedResponseCount := (l2cap.expectedResponseCount + 1) % 256 }

/-- The previous value is restored. -/
def L2capLink.restore (w : L2capLink) (p : Nat) : L2capLink :=
  (w.note (.restored p (w.channels p).expectedResponseId)).modify p countUp

def aclL2capHandleResponse (host : L2capHost) (w : L2capLink) (code id : Nat) (reader : List UInt8) (cmdLen : Nat) :
    Handled :=
  let w := w.note (.response code id reader cmdLen w.table)
  match w.findClient (·.expects code id) with
  | none => .of (decide ((reader.take cmdLen).length = cmdLen)) (reader.drop cmdLen) w
  | some p =>
    let r := l2capHandleResponse host ((bteL2capRef w p).modify p countDown) p code id reader cmdLen
    let w := if r.ok then r.link else r.link.restore p
    { r with link := bteL2capUnref w p }

def handleSignal (host : L2capHost) (w : L2capLink) (code id : Nat) (reader : List UInt8) (cmdLen : Nat) : Handled :=
  if code % 2 = 0 then aclL2capHandleRequest host w code id reader cmdLen
  else aclL2capHandleResponse host w code id reader cmdLen

/-- A command as the loop sees it: where its header was read, and what it says. -/
structure Visited where
  offset : Nat
  code : Nat
  id : Nat
  len : Nat
deriving DecidableEq

/-- The loop of `acl_data_received_cb`; the reader had `size` bytes when it started.  Every turn reads four of them. -/
def signallingLoop (host : L2capHost) (totalLen size : Nat) :
    Nat → Nat → List UInt8 → L2capLink → List Visited × L2capLink
  | 0, _, _, w => ([], w)
  | fuel + 1, parsedLen, reader, w =>
    if parsedLen < totalLen then
      let sigHdr := reader.take 4
      if sigHdr.length ≠ 4 then ([], w)
      else
        let code := (sigHdr.getD 0 0).toNat
        let id := (sigHdr.getD 1 0).toNat
        let cmdLen := leVal (slice sigHdr 2 2)
        let r := handleSignal host w code id (reader.drop 4) cmdLen
        let cmd : Visited := ⟨size - reader.length, code, id, cmdLen⟩
        if r.hangs then ([cmd], r.link)
        else
          let rest := signallingLoop host totalLen size fuel ((parsedLen + 4 + cmdLen) % 65536) r.reader r.link
          (cmd :: rest.1, rest.2)
    else ([], w)

/-- `acl_data_received_cb`, with the commands it read. -/
def aclDataReceivedCb (host : L2capHost) (w : L2capLink) (reader : BufferReader) : List Visited × L2capLink :=
  match bteBufferReaderReadN reader l2capHdrLen with
  | (none, _) => ([], w)
  | (some header, reader) =>
    let totalLen := word header 0
    let channelId := word header 1
    if channelId = bteL2capChannelIdSignalling then
      signallingLoop host totalLen reader.rest.length (reader.rest.length + 1) 0 reader.rest w
    else
      match w.l2capForLocalChannel channelId with
      | none => ([], w)
      | some p =>
        match (w.channels p).messageReceivedCb with
        | none => ([], w)
        | some f => ([], w.call host p (.messageReceived f p reader.rest (w.channels p).userdata))

/-! ## The link comes and goes -/

def aclL2capConnectedCb (host : L2capHost) (w : L2capLink) (p status : Nat) : L2capLink :=
  let r := if status ≠ 0 then (false, w) else l2capConnectionRequest host w p
  if r.1 then r.2
  else
    let w := r.2
    let reply : ConnectionResponse := ⟨0, 0, connRespResErrResource, connRespStatusNoInfo⟩
    bteL2capUnref (connected host w p (w.channels p).clientCb none (some reply) (w.channels p).userdata) p

/-- A loop over the table as it is at each turn. -/
def L2capLink.forClients (w : L2capLink) (f : L2capLink → Nat → L2capLink) : L2capLink :=
  (List.finRange 4).foldl (fun w i =>
    match w.clients i with
    | none => w
    | some p => f w p) w

def aclConnectedCb (host : L2capHost) (w : L2capLink) (status : Nat) : L2capLink :=
  w.forClients fun w p => aclL2capConnectedCb host w p status

def l2capDisconnectCb (host : L2capHost) (w : L2capLink) (p reason : Nat) : L2capLink :=
  let l2cap := w.channels p
  let w :=
    if l2cap.state = .waitConfigReqRsp ∧ l2cap.clientCb ≠ .null then
      configured host w l2cap.clientCb p ⟨0xfffffff, 0xfffffff, .zero⟩ l2cap.cmdUserdata true
    else w
  let l2cap := w.channels p
  if l2cap.remoteChannelId = 0 then
    let reply : ConnectionResponse := ⟨0, 0, connRespResErrResource, 0⟩
    bteL2capUnref (connected host w p l2cap.clientCb none (some reply) l2cap.userdata) p
  else
    match l2cap.aclDisconnectCb with
    | none => w
    | some f => w.call host p (.aclDisconnect f p reason l2cap.userdata)

def aclDisconnectedCb (host : L2capHost) (w : L2capLink) (reason : Nat) : L2capLink :=
  w.forClients fun w p => l2capDisconnectCb host w p reason

/-! ## Runs -/

/-- The functions a client sets on a channel. -/
inductive ClientSlot
  | stateChanged | configure | messageReceived | echo | disconnected | aclDisconnected
deriving DecidableEq

/-- `bte_l2cap_on_state_changed`, `bte_l2cap_on_configure`, `bte_l2cap_on_message_received`, `bte_l2cap_on_echo`,
`bte_l2cap_on_disconnected` and `bte_l2cap_on_acl_disconnected`. -/
def ClientSlot.set (slot : ClientSlot) (f : Option Nat) (l2cap : L2cap) : L2cap :=
  match slot with
  | .stateChanged => { l2cap with stateChangedCb := (f.map StateChangedCb.client).getD .null }
  | .configure => { l2cap with configureCb := f }
  | .messageReceived => { l2cap with messageReceivedCb := f }
  | .echo => { l2cap with echoCb := f }
  | .disconnected => { l2cap with disconnectCb := f }
  | .aclDisconnected => { l2cap with aclDisconnectCb := f }

inductive L2capCall
  | newOutgoing (psm : Nat) (ready : Bool) (callback userdata : Nat)
  | newConfigured (psm : Nat) (ready : Bool) (conf : Option ConfigureParams) (callback userdata : Nat)
  | ref (p : Nat)
  | unref (p : Nat)
  | setUserdata (p userdata : Nat)
  | on (p : Nat) (slot : ClientSlot) (f : Option Nat)
  | configure (p : Nat) (params : Option ConfigureParams) (callback userdata : Nat)
  | setConfigureReply (p : Nat) (reply : ConfigureReply)
  | disconnect (p : Nat)
  | sendMessage (p : Nat) (buffer : List Packet)
  | echo (p : Nat) (data : List UInt8) (callback userdata : Nat)
  | queryInfo (p type callback userdata : Nat)
  | reset

def L2capCall.apply (host : L2capHost) (w : L2capLink) : L2capCall → L2capLink
  | .newOutgoing psm ready callback userdata => bteL2capNewOutgoing host w psm ready (.client .connect callback) userdata
  | .newConfigured psm ready conf callback userdata => bteL2capNewConfigured host w psm ready conf callback userdata
  | .ref p => bteL2capRef w p
  | .unref p => bteL2capUnref w p
  | .setUserdata p userdata => w.modify p fun l2cap => { l2cap with userdata := userdata }
  | .on p slot f => w.modify p (slot.set f)
  | .configure p params callback userdata => bteL2capConfigure host w p params (.client .configure callback) userdata
  | .setConfigureReply p reply => bteL2capSetConfigureReply w p reply
  | .disconnect p => bteL2capDisconnect host w p
  | .sendMessage p buffer => (bteL2capSendMessage host w p buffer).2
  | .echo p data callback userdata => (bteL2capEcho host w p data callback userdata).2
  | .queryInfo p type callback userdata => (bteL2capQueryInfo host w p type callback userdata).2
  | .reset => { w with nextLocalChannelId := 0x0040, lastSignalId := 0 }

/-- The client's functions: the calls each makes, from what it is told and the link as it finds it. -/
def L2capClient : Type := L2capCallback → L2capLink → List L2capCall

/-- What the client does in a callback: it makes its calls one by one. -/
def L2capClient.react (client : L2capClient) (host : L2capHost) (c : L2capCallback) (w : L2capLink) : L2capLink :=
  List.foldl (L2capCall.apply host) w (client c w)

/-- A host whose client may be called back inside its own calls, down to a depth. -/
def L2capHost.client (host : L2capHost) (client : L2capClient) : Nat → L2capHost
  | 0 => { host with react := fun _ w => w }
  | depth + 1 => { host with react := client.react (host.client client depth) }

inductive L2capOp
  | api (call : L2capCall)
  | received (reader : BufferReader)
  | aclConnected (status : Nat)
  | aclDisconnected (reason : Nat)
  /-- The other links, and the controller, use what they share with this one. -/
  | others (dev : AclOut) (nextLocalChannelId lastSignalId : Nat)

def L2capLink.step (host : L2capHost) (w : L2capLink) : L2capOp → L2capLink
  | .api call => call.apply host w
  | .received reader => (aclDataReceivedCb host w reader).2
  | .aclConnected status => aclConnectedCb host w status
  | .aclDisconnected reason => aclDisconnectedCb host w reason
  | .others dev nextLocalChannelId lastSignalId =>
    { w with dev := dev, nextLocalChannelId := nextLocalChannelId, lastSignalId := lastSignalId }

/-! ## A host to run it on -/

/-- A backend that takes every packet, servers for every PSM, and a client without callbacks. -/
def plainHost : L2capHost where
  rc := fun _ => 0
  mem := fun _ _ => 0
  layout := ⟨32, true⟩
  aclMtu := 80
  connHandle := 0x42
  serverForPsm := fun _ => true
  stale := ⟨0, 0, .zero⟩
  echoLen := fun _ _ => 0
  echoData := fun _ _ => []
  echoRead := fun _ _ => 0
  react := fun _ w => w

/-- A client that keeps the channels it is given. -/
def keepChannels : L2capClient := fun c _ =>
  match c with
  | .serverConnected _ p => [.ref p]
  | _ => []

def signal (code id : Nat) (body : List UInt8) : List UInt8 := signalHeader code id body.length ++ body

/-- The reader of a signalling PDU that came in one packet. -/
def signallingReader (commands : List UInt8) : BufferReader :=
  aclReader (aclPacket 0x42 2 (leBytes 2 commands.length ++ leBytes 2 bteL2capChannelIdSignalling ++ commands)) []

end Bte
