import BtEmbedded.AclQueue
import BtEmbedded.AclReceive
import BtEmbedded.L2capConfig
/-!
# L2cap — the channels of an ACL link (l2cap.c)

`L2capLink` is one ACL with its channels, the identifiers and the device it shares with the others, and a log of what the
code did: the commands it sent, the states it went through, the callbacks it made.  A channel is named by the number of its
allocation, as by its address, so that a freed channel is never taken for the one that has its place in the table.

The code calls its client back in the middle of its work.  `L2capHost.react` is what the client does then, to the link as
it is at that moment; what the stack's own callbacks do (`bte_l2cap_new_configured`, the server) is modelled.
-/
namespace Bte

open Bytes

/-! ## Data -/

inductive L2capState
  | closed | waitConnect | waitConnectRsp | waitConfig | waitSendConfig | waitConfigReqRsp | waitConfigRsp
  | waitConfigReq | opened | waitDisconnect
deriving DecidableEq

/-- The position in the enumeration; the code compares states by it. -/
def L2capState.number : L2capState → Nat
  | closed => 0
  | waitConnect => 1
  | waitConnectRsp => 2
  | waitConfig => 3
  | waitSendConfig => 4
  | waitConfigReqRsp => 5
  | waitConfigRsp => 6
  | waitConfigReq => 7
  | opened => 8
  | waitDisconnect => 9

def l2capSignalHdrLen : Nat := 4
def l2capConfigReqHdrLen : Nat := 4
def l2capConfigRspHdrLen : Nat := 6
def l2capMtuMin : Nat := 48

def l2capSignalCmdRej : Nat := 0x01
def l2capSignalConnReq : Nat := 0x02
def l2capSignalConnRsp : Nat := 0x03
def l2capSignalConfigReq : Nat := 0x04
def l2capSignalConfigRsp : Nat := 0x05
def l2capSignalDisconnReq : Nat := 0x06
def l2capSignalDisconnRsp : Nat := 0x07
def l2capSignalEchoReq : Nat := 0x08
def l2capSignalEchoRsp : Nat := 0x09
def l2capSignalInfoReq : Nat := 0x0A
def l2capSignalInfoRsp : Nat := 0x0B

def l2capConfigFlagContinuation : Nat := 1
def l2capConfigResOk : Nat := 0
def l2capConfigResErrParams : Nat := 1
def l2capConfigResErrRej : Nat := 2
def l2capConfigResErrUnknown : Nat := 3

def connRespResOk : Nat := 0
def connRespResPending : Nat := 1
def connRespResErrPsm : Nat := 2
def connRespResErrResource : Nat := 4
def connRespResConfig : Nat := 0xF001
def connRespResDisconnected : Nat := 0xF002
def connRespStatusNoInfo : Nat := 0

def hciOtherEndClosedConnUser : Nat := 0x13
def hciConnTerminatedByLocalHost : Nat := 0x16

structure ConnectionResponse where
  remoteChannelId : Nat
  localChannelId : Nat
  result : Nat
  status : Nat
deriving DecidableEq

structure ConfigureReply where
  rejectedMask : Nat
  unknownMask : Nat
  params : ConfigureParams
deriving DecidableEq

/-- The value is read only when the result is OK and the type is known. -/
structure L2capInfo where
  type : Nat
  result : Nat
  value : Option Nat
deriving DecidableEq

/-- `L2capConfigureData`. -/
structure ConfigureData where
  rejectedMask : Nat
  unknownMask : Nat
  params : ConfigureParams
  hasPendingPackets : Bool
  startCmd : Nat
deriving DecidableEq

def ConfigureData.zero : ConfigureData := ⟨0, 0, .zero, false, 0⟩

/-- A response in progress, and whether it is kept in a variable of `l2cap_handle_config_resp`. -/
structure ConfigureResp where
  data : ConfigureData
  onStack : Bool
deriving DecidableEq

/-- The call that a function in `cmd_data` was given to: `bte_l2cap_new_outgoing`, `bte_l2cap_configure`, or one of
`bte_l2cap_echo` and `bte_l2cap_query_info`. -/
inductive L2capCmd
  | connect | configure | ask
deriving DecidableEq

/-- What `cmd_data` holds: the client's function, or one of `bte_l2cap_new_configured`.  The source has a union there, and
no code reads from which call the function is. -/
inductive L2capClientCb
  | null
  | client (cmd : L2capCmd) (f : Nat)
  | newConfiguredConnect
  | newConfiguredConfigure
deriving DecidableEq

/-- A function that was given to connect a channel. -/
def L2capClientCb.isConnect : L2capClientCb → Bool
  | .client .connect _ => true
  | .newConfiguredConnect => true
  | _ => false

/-- A function that was given to configure a channel. -/
def L2capClientCb.isConfigure : L2capClientCb → Bool
  | .client .configure _ => true
  | .newConfiguredConfigure => true
  | _ => false

inductive StateChangedCb
  | null
  | client (f : Nat)
  /-- `on_l2cap_state_changed` of the server. -/
  | server
  | newConfigured
deriving DecidableEq

structure L2cap where
  refCount : Int
  userdata : Nat
  psm : Nat
  remoteChannelId : Nat
  localChannelId : Nat
  mtu : Nat
  remoteMtu : Nat
  expectedResponseCode : Nat
  expectedResponseId : Nat
  expectedResponseCount : Nat
  state : L2capState
  stateChangedCb : StateChangedCb
  configureCb : Option Nat
  configureReq : Option ConfigureData
  configureResp : Option ConfigureResp
  messageReceivedCb : Option Nat
  echoCb : Option Nat
  disconnectCb : Option Nat
  aclDisconnectCb : Option Nat
  /-- The union `cmd_data`: its first member is a function for every command. -/
  clientCb : L2capClientCb
  cmdUserdata : Nat

def bteL2capNew : L2cap where
  refCount := 1
  userdata := 0
  psm := 0
  remoteChannelId := 0
  localChannelId := 0
  mtu := l2capMtuDefault
  remoteMtu := l2capMtuMin
  expectedResponseCode := 0
  expectedResponseId := 0
  expectedResponseCount := 0
  state := .closed
  stateChangedCb := .null
  configureCb := none
  configureReq := none
  configureResp := none
  messageReceivedCb := none
  echoCb := none
  disconnectCb := none
  aclDisconnectCb := none
  clientCb := .null
  cmdUserdata := 0

structure NewConfiguredData where
  conf : Option ConfigureParams
  replySent : Bool
  callback : Nat
  userdata : Nat

/-- A call of one of the client's functions; `f` is the function, `p` the channel. -/
inductive L2capCallback
  | stateChanged (f p : Nat) (state : L2capState) (userdata : Nat)
  | connect (f : Nat) (p : Option Nat) (reply : Option ConnectionResponse) (userdata : Nat)
  | configure (f p : Nat) (reply : ConfigureReply) (userdata : Nat)
  | configureRequest (f p : Nat) (params : ConfigureParams) (userdata : Nat)
  | messageReceived (f p : Nat) (reader : List UInt8) (userdata : Nat)
  | echo (f p : Nat) (reader : List UInt8) (userdata : Nat)
  /-- First without a writer, for the length of the reply, then with it. -/
  | echoRequest (f p : Nat) (reader : List UInt8) (writer : Bool) (userdata : Nat)
  | info (f p : Nat) (info : L2capInfo) (userdata : Nat)
  | disconnect (f p reason userdata : Nat)
  | aclDisconnect (f p reason userdata : Nat)
  | serverConnected (psm p : Nat)
  /-- The reply to the call of `bte_l2cap_new_configured` with data `cd`. -/
  | newConfigured (cd f : Nat) (p : Option Nat) (result userdata : Nat)
deriving DecidableEq

inductive L2event
  | state (p : Nat) (old new : L2capState)
  /-- A command was handed to `bte_acl_send_message`, for channel `p` if it is about one. -/
  | emitted (p : Option Nat) (code id : Nat) (body : List UInt8)
  /-- `l2cap_config_send` is about to send the packets of a response; `overflow` is the option it stopped at, or 0. -/
  | responding (p overflow : Nat) (dev : AclOut) (buffer : List Packet)
  /-- A Configuration Response was handled; `last` is the request that channel `p` had sent last. -/
  | handled (p id expectedId flags result : Nat) (last : Option Nat)
  /-- A function of the client runs, on behalf of channel `p`. -/
  | callback (p : Nat) (c : L2capCallback)
  /-- Channel `p` was allocated, for a connection of ours or of the peer. -/
  | created (p : Nat) (outgoing : Bool)
  /-- The function in `cmd_data.connect`, which is `cb`, is called for channel `p`; the reply may be NULL. -/
  | connectCb (p : Nat) (cb : L2capClientCb) (reply : Option ConnectionResponse)
  /-- The function in `cmd_data.configure` is called, or if it was not stored, the one just given. -/
  | configureCb (p : Nat) (cb : L2capClientCb) (reply : ConfigureReply) (stored : Bool)
  /-- A call of `bte_l2cap_configure` was accepted, and its function stored. -/
  | configureStored (p : Nat) (cb : L2capClientCb)
  /-- `bte_acl_disconnect`: the last channel is gone. -/
  | aclDisconnect

/-- The code of the last request that channel `p` sent. -/
def lastRequest (p : Nat) (log : List L2event) : Option Nat :=
  log.foldl (fun last e =>
    match e with
    | .emitted (some q) code _ _ => if q = p ∧ code % 2 = 0 then some code else last
    | _ => last) none

/-- What the table of an ACL holds, in its order. -/
abbrev L2capTable := List (Nat × L2cap)

/-- What was decided, and the tables as they were then.  No code reads these notes. -/
inductive L2note
  /-- Channel `p` is given a local id; the tables of all the links. -/
  | allotted (p id : Nat) (tables : Nat → L2capTable)
  /-- A request of channel `p` is sent. -/
  | request (p code id : Nat) (table : L2capTable)
  /-- A response is read. -/
  | response (code id : Nat) (reader : List UInt8) (len : Nat) (table : L2capTable)
  /-- An answer was refused, and channel `p` awaits one again. -/
  | restored (p id : Nat)
  /-- Channel `p` is about to be closed, from a state. -/
  | closing (p : Nat) (state : L2capState)
  /-- It is closed, and its client is told. -/
  | closed (p : Nat)

def channelTable (clients : Fin 4 → Option Nat) (channels : Nat → L2cap) : L2capTable :=
  (List.finRange 4).filterMap fun i => (clients i).map fun p => (p, channels p)

/-- What a link does not share with the others. -/
structure L2capPart where
  channels : Nat → L2cap
  allocated : Nat
  clients : Fin 4 → Option Nat
  newConfigured : Nat → NewConfiguredData
  newConfiguredAllocated : Nat
  log : List L2event
  notes : List L2note

/-- A link without channels. -/
def L2capPart.new : L2capPart where
  channels := fun _ => bteL2capNew
  allocated := 0
  clients := fun _ => none
  newConfigured := fun _ => ⟨none, false, 0, 0⟩
  newConfiguredAllocated := 0
  log := []
  notes := []

structure L2capLink where
  channels : Nat → L2cap
  allocated : Nat
  clients : Fin 4 → Option Nat
  newConfigured : Nat → NewConfiguredData
  newConfiguredAllocated : Nat
  nextLocalChannelId : Nat
  lastSignalId : Nat
  dev : AclOut
  log : List L2event
  notes : List L2note := []
  /-- The number of this link, and what the other links hold meanwhile. -/
  here : Nat := 0
  parked : Nat → L2capPart := fun _ => .new

/-- What surrounds the code: the controller, the client, the registered servers. -/
structure L2capHost where
  rc : Nat → Int
  mem : Nat → Nat → UInt8
  layout : BufferLayout
  aclMtu : Nat
  connHandle : Nat
  /-- Whether a server is registered for the PSM. -/
  serverForPsm : Nat → Bool
  /-- What an uninitialised reply holds. -/
  stale : ConfigureReply
  /-- The echo callbacks: the length they announce, what they write, how many bytes they read. -/
  echoLen : Nat → List UInt8 → Nat
  echoData : Nat → List UInt8 → List UInt8
  echoRead : Nat → List UInt8 → Nat
  react : L2capCallback → L2capLink → L2capLink

namespace L2capLink

/-- No channel yet. -/
def start (dev : AclOut) : L2capLink where
  channels := fun _ => bteL2capNew
  allocated := 0
  clients := fun _ => none
  newConfigured := fun _ => ⟨none, false, 0, 0⟩
  newConfiguredAllocated := 0
  nextLocalChannelId := 0x0040
  lastSignalId := 0
  dev := dev
  log := []

def modify (w : L2capLink) (p : Nat) (f : L2cap → L2cap) : L2capLink :=
  { w with channels := Function.update w.channels p (f (w.channels p)) }

def record (w : L2capLink) (e : L2event) : L2capLink := { w with log := w.log ++ [e] }

def note (w : L2capLink) (n : L2note) : L2capLink := { w with notes := w.notes ++ [n] }

def table (w : L2capLink) : L2capTable := channelTable w.clients w.channels

/-- The tables of all the links. -/
def tables (w : L2capLink) (k : Nat) : L2capTable :=
  if k = w.here then w.table else channelTable (w.parked k).clients (w.parked k).channels

/-- The client's function runs. -/
def call (w : L2capLink) (host : L2capHost) (p : Nat) (c : L2capCallback) : L2capLink :=
  host.react c (w.record (.callback p c))

def markReplySent (w : L2capLink) (cd : Nat) : L2capLink :=
  { w with newConfigured := Function.update w.newConfigured cd { w.newConfigured cd with replySent := true } }

/-- The channels in the table, in its order, that satisfy a test. -/
def findClient (w : L2capLink) (test : L2cap → Bool) : Option Nat :=
  (List.finRange 4).findSome? fun i => (w.clients i).bind fun p => if test (w.channels p) then some p else none

@[simp] theorem findClient_note (w : L2capLink) (n : L2note) (test : L2cap → Bool) :
    (w.note n).findClient test = w.findClient test := rfl

def l2capForLocalChannel (w : L2capLink) (channelId : Nat) : Option Nat :=
  w.findClient fun l2cap => l2cap.localChannelId == channelId

def nextChannelId (w : L2capLink) : Nat × L2capLink :=
  let next := if w.nextLocalChannelId = 0 then 0x0040 else w.nextLocalChannelId
  (next, { w with nextLocalChannelId := (next + 1) % 65536 })

/-- The assignment of a local id. -/
def allot (w : L2capLink) (p id : Nat) : L2capLink :=
  (w.note (.allotted p id w.tables)).modify p fun l2cap => { l2cap with localChannelId := id }

def nextSignalId (w : L2capLink) : Nat × L2capLink :=
  let last := if w.lastSignalId = 0xff then 0 else w.lastSignalId
  ((last + 1) % 256, { w with lastSignalId := (last + 1) % 256 })

end L2capLink

/-! ## References -/

def aclL2capAddClient (w : L2capLink) (client : Nat) : Option L2capLink :=
  ((List.finRange 4).find? fun i => (w.clients i).isNone).map fun i =>
    { w with clients := Function.update w.clients i (some client) }

def aclL2capRemoveClient (w : L2capLink) (client : Nat) : L2capLink :=
  let clients := fun i => if w.clients i = some client then none else w.clients i
  let w := { w with clients := clients }
  if (List.finRange 4).all fun i => (clients i).isNone then w.record .aclDisconnect else w

def bteL2capRef (w : L2capLink) (p : Nat) : L2capLink :=
  w.modify p fun l2cap => { l2cap with refCount := l2cap.refCount + 1 }

/-- `bte_l2cap_free` takes the channel out of the table. -/
def bteL2capUnref (w : L2capLink) (p : Nat) : L2capLink :=
  let refCount := (w.channels p).refCount
  let w := w.modify p fun l2cap => { l2cap with refCount := l2cap.refCount - 1 }
  if refCount = 1 then aclL2capRemoveClient w p else w

/-- `bte_l2cap_new`, with the address of the channel. -/
def L2capLink.alloc (w : L2capLink) (outgoing : Bool) : Nat × L2capLink :=
  (w.allocated, { w with
    channels := Function.update w.channels w.allocated bteL2capNew
    allocated := w.allocated + 1 }.record (.created w.allocated outgoing))

/-! ## States -/

def onL2capStateChanged (host : L2capHost) (w : L2capLink) (p : Nat) (state : L2capState) : L2capLink :=
  if state = .waitConfig then
    let w := w.modify p fun l2cap => { l2cap with stateChangedCb := .null }
    bteL2capUnref (w.call host p (.serverConnected (w.channels p).psm p)) p
  else w

def newConfiguredStateChangedCb (host : L2capHost) (w : L2capLink) (p : Nat) (state : L2capState) (userdata : Nat) :
    L2capLink :=
  let cd := w.newConfigured userdata
  if state = .opened then
    let w := w.modify p fun l2cap => { l2cap with userdata := cd.userdata, stateChangedCb := .null }
    let w := w.call host p (.newConfigured userdata cd.callback (some p) connRespResOk cd.userdata)
    bteL2capUnref (w.markReplySent userdata) p
  else if state = .closed then
    let w :=
      if cd.replySent then w
      else (w.call host p (.newConfigured userdata cd.callback none connRespResDisconnected cd.userdata)).markReplySent
        userdata
    bteL2capUnref w p
  else w

def stateChanged (host : L2capHost) (w : L2capLink) (p : Nat) (state : L2capState) : L2capLink :=
  match (w.channels p).stateChangedCb with
  | .null => w
  | .client f => w.call host p (.stateChanged f p state (w.channels p).userdata)
  | .server => onL2capStateChanged host w p state
  | .newConfigured => newConfiguredStateChangedCb host w p state (w.channels p).userdata

/-- The assignment in `l2cap_set_state`. -/
def L2capLink.enter (w : L2capLink) (p : Nat) (state : L2capState) : L2capLink :=
  (w.modify p fun l2cap => { l2cap with state := state }).record (.state p (w.channels p).state state)

def l2capSetState (host : L2capHost) (w : L2capLink) (p : Nat) (state : L2capState) : L2capLink :=
  if state = (w.channels p).state then w else stateChanged host (w.enter p state) p state

/-! ## Commands -/

/-- Store through the pointer that `bte_buffer_writer_ptr_n` returns, which the source does not check.  A store through
NULL is
left out here; what is said of the bytes of a command has with it that there is a pointer (`L2capHost.Opens`, `Stores`). -/
def BufferWriter.storeN (w : BufferWriter) (data : List UInt8) : BufferWriter :=
  match bteBufferWriterPtrN w data.length with
  | (none, w) => w
  | (some pos, w) => { w with packet := w.packet.store pos data }

def signalHeader (code id size : Nat) : List UInt8 := UInt8.ofNat code :: UInt8.ofNat id :: leBytes 2 size

def aclL2capCreateCmd (host : L2capHost) (code id size : Nat) : Option BufferWriter :=
  let cmdSize := (l2capSignalHdrLen + size) % 65536
  (aclL2capCreateMessage host.mem host.aclMtu host.connHandle cmdSize bteL2capChannelIdSignalling).map
    (·.storeN (signalHeader code id size))

/-- `bte_acl_send_message`, with what it sends. -/
def L2capLink.send (w : L2capLink) (host : L2capHost) (p : Option Nat) (code id : Nat) (body : List UInt8)
    (buffer : List Packet) : Int × L2capLink :=
  let r := bteAclSendMessage host.rc w.dev buffer
  (r.1, { w with dev := r.2 }.record (.emitted p code id body))

def aclL2capCmdReply (host : L2capHost) (w : L2capLink) (p : Option Nat) (code id : Nat) (data : List UInt8) :
    Bool × L2capLink :=
  let writer := aclL2capCreateCmd host code id data.length
  (writer.isSome, writer.elim w fun writer =>
    (w.send host p code id data (bteBufferWriterEnd (bteBufferWriterWrite writer data).2)).2)

/-- The packets of a command whose body is stored at once; none if the message cannot be created. -/
def cmdPackets (host : L2capHost) (code id : Nat) (body : List UInt8) : Option (List Packet) :=
  (aclL2capCreateCmd host code id body.length).map fun writer => bteBufferWriterEnd (writer.storeN body)

/-- `l2cap_signal`. -/
def l2capSignal (host : L2capHost) (w : L2capLink) (p code : Nat) (payload : List UInt8) :
    Option (List Packet) × L2capLink :=
  let next := w.nextSignalId
  let buffer := cmdPackets host code next.1 payload
  (buffer, if buffer.isSome then (next.2.note (.request p code next.1 w.table)).modify p fun l2cap => { l2cap with
      expectedResponseCode := code + 1
      expectedResponseId := next.2.lastSignalId
      expectedResponseCount := (l2cap.expectedResponseCount + 1) % 256 }
    else next.2)

/-- What every request but that of a configuration does: a signal that is sent if it could be made. -/
def l2capSendSignal (host : L2capHost) (w : L2capLink) (p code : Nat) (payload : List UInt8) : Bool × L2capLink :=
  let signal := l2capSignal host w p code payload
  let sent := signal.1.map fun buffer => signal.2.send host (some p) code signal.2.lastSignalId payload buffer
  (sent.any fun r => r.1 ≥ 0, sent.elim signal.2 (·.2))

def l2capRejectCommandInvalidCid (host : L2capHost) (w : L2capLink) (id channelId remoteChannelId : Nat) : L2capLink :=
  (aclL2capCmdReply host w none l2capSignalCmdRej id (leBytes 2 channelId ++ leBytes 2 remoteChannelId)).2

/-! ## Closing a channel -/

/-- The client's `disconnect_cb`, if it has one. -/
def disconnected (host : L2capHost) (w : L2capLink) (p reason : Nat) : L2capLink :=
  let w := w.note (.closed p)
  match (w.channels p).disconnectCb with
  | none => w
  | some f => w.call host p (.disconnect f p reason (w.channels p).userdata)

def l2capSendDisconnectReq (host : L2capHost) (w : L2capLink) (p : Nat) : Bool × L2capLink :=
  let l2cap := w.channels p
  let r := l2capSendSignal host w p l2capSignalDisconnReq
    (leBytes 2 l2cap.remoteChannelId ++ leBytes 2 l2cap.localChannelId)
  (r.1, if r.1 then l2capSetState host r.2 p .waitDisconnect else r.2)

def bteL2capDisconnect (host : L2capHost) (w : L2capLink) (p : Nat) : L2capLink :=
  if (w.channels p).state.number ≥ L2capState.waitConfig.number then (l2capSendDisconnectReq host w p).2
  else disconnected host (l2capSetState host (w.note (.closing p (w.channels p).state)) p .closed) p
      hciConnTerminatedByLocalHost

/-! ## Configuring a channel -/

def newConfiguredConfigureCb (host : L2capHost) (w : L2capLink) (p : Nat) (reply : ConfigureReply) (userdata : Nat) :
    L2capLink :=
  if reply.rejectedMask ≠ 0 ∨ reply.unknownMask ≠ 0 then
    let cd := w.newConfigured userdata
    let w := (w.call host p (.newConfigured userdata cd.callback none connRespResConfig cd.userdata)).markReplySent userdata
    bteL2capDisconnect host w p
  else w

/-- A call of the function given to `bte_l2cap_configure`; one of another type is not followed. -/
def configured (host : L2capHost) (w : L2capLink) (cb : L2capClientCb) (p : Nat) (reply : ConfigureReply)
    (userdata : Nat) (stored : Bool) : L2capLink :=
  let w := w.record (.configureCb p cb reply stored)
  match cb with
  | .client _ f => w.call host p (.configure f p reply userdata)
  | .newConfiguredConfigure => newConfiguredConfigureCb host w p reply userdata
  | .null => w
  | .newConfiguredConnect => w

/-- Where a request that was sent takes the channel. -/
def requestSent : L2capState → L2capState
  | .waitConfig => .waitConfigReqRsp
  | .opened => .waitConfigReqRsp
  | .waitSendConfig => .waitConfigRsp
  | s => s

/-- Where a positive response that was sent takes it. -/
def responseSent : L2capState → L2capState
  | .waitConfig => .waitSendConfig
  | .waitConfigReqRsp => .waitConfigRsp
  | .waitConfigReq => .opened
  | s => s

def configFlags (newStartCmd : Nat) : Nat := if newStartCmd > 0 then l2capConfigFlagContinuation else 0

/-- The loop of `l2cap_config_send` for a request: one packet for every turn.  A turn that goes on has used a credit. -/
def configRequestLoop (host : L2capHost) (p : Nat) (params : ConfigureParams) :
    Nat → Nat → Nat → L2capLink → Bool × L2capLink
  | 0, _, _, w => (true, w)
  | fuel + 1, startCmd, msgId, w =>
    let l2cap := w.channels p
    let opts := l2capConfigWrite params startCmd l2cap.remoteMtu
    let body := leBytes 2 l2cap.remoteChannelId ++ leBytes 2 (configFlags opts.1) ++ opts.2
    let r := (w.note (.request p l2capSignalConfigReq msgId w.table)).send host (some p) l2capSignalConfigReq msgId body
      ((cmdPackets host l2capSignalConfigReq msgId body).getD [])
    if r.1 = 0 then (false, r.2)
    else
      let next := if opts.1 > 0 then r.2.nextSignalId else (msgId, r.2)
      let w := next.2.modify p fun l2cap => { l2cap with
        expectedResponseCode := l2capSignalConfigRsp
        expectedResponseCount := (l2cap.expectedResponseCount + 1) % 256
        expectedResponseId := next.2.lastSignalId }
      if opts.1 > 0 then configRequestLoop host p params fuel opts.1 next.1 w else (true, w)

def configSendRequest (host : L2capHost) (w : L2capLink) (p : Nat) (conf : ConfigureData) : Bool × L2capLink :=
  let next := w.nextSignalId
  let r := configRequestLoop host p conf.params (w.dev.aclAvailablePackets + 1) 0 next.1 next.2
  (r.1, if conf.hasPendingPackets then r.2 else l2capSetState host r.2 p (requestSent (r.2.channels p).state))

/-- What one turn of the loop leaves in `configure_req` after a response. -/
def ConfigureData.sentUpTo (conf : ConfigureData) (ok : Bool) (newStartCmd : Nat) : ConfigureData :=
  if ok && newStartCmd > 0 then { conf with hasPendingPackets := true, startCmd := newStartCmd }
  else { conf with hasPendingPackets := false }

/-- Where a response goes on. -/
def responseStart (conf : ConfigureData) : Nat := if conf.hasPendingPackets then conf.startCmd else 0

def responseResult (conf : ConfigureData) : Nat := if conf.rejectedMask ≠ 0 then l2capConfigResErrRej else l2capConfigResOk

/-- The body of a response. -/
def configResponse (l2cap : L2cap) (conf : ConfigureData) : List UInt8 :=
  let opts := l2capConfigWrite conf.params (responseStart conf) l2cap.remoteMtu
  leBytes 2 l2cap.remoteChannelId ++ leBytes 2 (configFlags opts.1) ++ leBytes 2 (responseResult conf) ++ opts.2

/-- `l2cap_config_send` for a response: `conf` is the channel's `configure_req`. -/
def configSendResponse (host : L2capHost) (w : L2capLink) (p : Nat) (conf : ConfigureData) (msgId : Nat) :
    Bool × L2capLink :=
  let l2cap := w.channels p
  let result := responseResult conf
  let opts := l2capConfigWrite conf.params (responseStart conf) l2cap.remoteMtu
  let body := configResponse l2cap conf
  let buffer := (cmdPackets host l2capSignalConfigRsp msgId body).getD []
  let r := (w.record (.responding p opts.1 w.dev buffer)).send host (some p) l2capSignalConfigRsp msgId body buffer
  -- the source keeps the number of packets sent as a truth value
  let ok := decide (r.1 ≠ 0)
  let conf := conf.sentUpTo ok opts.1
  let w := r.2.modify p fun l2cap => { l2cap with configureReq := some conf }
  (ok, if conf.hasPendingPackets then w
    else if result = l2capConfigResOk then l2capSetState host w p (responseSent (w.channels p).state)
    else w)

def l2capConfigSend (host : L2capHost) (w : L2capLink) (p : Nat) (conf : ConfigureData) (msgId : Nat) :
    Bool × L2capLink :=
  if msgId ≠ 0 then configSendResponse host w p conf msgId else configSendRequest host w p conf

/-- Three of the states take a local request. -/
def L2capState.takesConfigure : L2capState → Bool
  | .waitConfig => true
  | .waitSendConfig => true
  | .opened => true
  | _ => false

def bteL2capConfigure (host : L2capHost) (w : L2capLink) (p : Nat) (params : Option ConfigureParams)
    (callback : L2capClientCb) (userdata : Nat) : L2capLink :=
  let refused : ConfigureReply := { host.stale with rejectedMask := 0xffffffff }
  if ¬ (w.channels p).state.takesConfigure then configured host w callback p refused userdata false
  else if (w.channels p).expectedResponseCount > 0 then configured host w callback p refused userdata false
  else
    let r := l2capConfigSend host w p { ConfigureData.zero with params := params.getD .zero } 0
    if r.1 then
      (r.2.modify p fun l2cap => { l2cap with clientCb := callback, cmdUserdata := userdata }).record
        (.configureStored p callback)
    else configured host r.2 callback p refused userdata false

/-- One structure of `bte_l2cap_set_configure_reply`: copied if the mask has it, else left as it is. -/
def copyMasked {α : Type} (fieldMask : Nat) (o : ConfigOption) (new old : Option α) : Option α :=
  if fieldMask &&& o.bit ≠ 0 then new else old

def bteL2capSetConfigureReply (w : L2capLink) (p : Nat) (reply : ConfigureReply) : L2capLink :=
  w.modify p fun l2cap => { l2cap with
    configureReq := l2cap.configureReq.map fun conf => { conf with
      rejectedMask := reply.rejectedMask
      params := { reply.params with
        qos := copyMasked reply.params.fieldMask .qos reply.params.qos conf.params.qos
        retxFlow := copyMasked reply.params.fieldMask .retxFlow reply.params.retxFlow conf.params.retxFlow
        extFlow := copyMasked reply.params.fieldMask .extFlow reply.params.extFlow conf.params.extFlow } } }

/-! ## Connecting a channel -/

def newConfiguredConnectCb (host : L2capHost) (w : L2capLink) (about : Nat) (p : Option Nat)
    (reply : Option ConnectionResponse) (userdata : Nat) : L2capLink :=
  let cd := w.newConfigured userdata
  match reply, p with
  | none, _ => w
  | some reply, none =>
    if reply.result = connRespResPending then w
    else w.call host about (.newConfigured userdata cd.callback none reply.result cd.userdata)
  | some reply, some p =>
    if reply.result = connRespResPending then w
    else
      let w := (bteL2capRef w p).modify p fun l2cap => { l2cap with userdata := userdata, stateChangedCb := .newConfigured }
      bteL2capConfigure host w p cd.conf .newConfiguredConfigure userdata

/-- A call of the function given to `bte_l2cap_new_outgoing` for channel `about`; `p` is the channel it is told. -/
def connected (host : L2capHost) (w : L2capLink) (about : Nat) (cb : L2capClientCb) (p : Option Nat)
    (reply : Option ConnectionResponse) (userdata : Nat) : L2capLink :=
  let w := w.record (.connectCb about cb reply)
  match cb with
  | .client _ f => w.call host about (.connect f p reply userdata)
  | .newConfiguredConnect => newConfiguredConnectCb host w about p reply userdata
  | .null => w
  | .newConfiguredConfigure => w

def l2capConnectionRequest (host : L2capHost) (w : L2capLink) (p : Nat) : Bool × L2capLink :=
  if (w.channels p).state.number > L2capState.waitConnect.number then (true, w)
  else
    let next := w.nextChannelId
    let w := next.2.allot p next.1
    let r := l2capSendSignal host w p l2capSignalConnReq (leBytes 2 (w.channels p).psm ++ leBytes 2 next.1)
    (r.1, if r.1 then l2capSetState host r.2 p .waitConnectRsp else r.2)

/-- `bte_l2cap_new_outgoing` on this ACL; `ready` is whether it is connected and authenticated as required. -/
def bteL2capNewOutgoing (host : L2capHost) (w : L2capLink) (psm : Nat) (ready : Bool) (callback : L2capClientCb)
    (userdata : Nat) : L2capLink :=
  let new := w.alloc true
  let p := new.1
  match aclL2capAddClient new.2 p with
  | none => connected host (bteL2capUnref new.2 p) p callback none none userdata
  | some w =>
    let w := w.modify p fun l2cap => { l2cap with userdata := userdata, psm := psm, clientCb := callback }
    if ready then
      let r := l2capConnectionRequest host w p
      if r.1 then r.2 else connected host (bteL2capUnref r.2 p) p callback none none userdata
    else w

def bteL2capNewConfigured (host : L2capHost) (w : L2capLink) (psm : Nat) (ready : Bool) (conf : Option ConfigureParams)
    (callback userdata : Nat) : L2capLink :=
  let cd := w.newConfiguredAllocated
  let w := { w with
    newConfigured := Function.update w.newConfigured cd ⟨conf, false, callback, userdata⟩
    newConfiguredAllocated := cd + 1 }
  bteL2capNewOutgoing host w psm ready .newConfiguredConnect cd

/-! ## Other requests -/

def bteL2capSendMessage (host : L2capHost) (w : L2capLink) (p : Nat) (buffer : List Packet) : Int × L2capLink :=
  if (w.channels p).state ≠ .opened then (-1, w)
  else
    let r := bteAclSendMessage host.rc w.dev buffer
    (r.1, { w with dev := r.2 })

/-- `bte_l2cap_echo` and `bte_l2cap_query_info`: refused while a response is awaited. -/
def l2capAsk (host : L2capHost) (w : L2capLink) (p code : Nat) (payload : List UInt8) (callback userdata : Nat) :
    Bool × L2capLink :=
  if (w.channels p).expectedResponseCount > 0 then (false, w)
  else
    let r := l2capSendSignal host w p code payload
    (r.1, if r.1 then r.2.modify p fun l2cap => { l2cap with clientCb := .client .ask callback, cmdUserdata := userdata }
      else r.2)

def bteL2capEcho (host : L2capHost) (w : L2capLink) (p : Nat) (data : List UInt8) (callback userdata : Nat) :
    Bool × L2capLink := l2capAsk host w p l2capSignalEchoReq data callback userdata

def bteL2capQueryInfo (host : L2capHost) (w : L2capLink) (p type : Nat) (callback userdata : Nat) : Bool × L2capLink :=
  l2capAsk host w p l2capSignalInfoReq (leBytes 2 type) callback userdata

end Bte
