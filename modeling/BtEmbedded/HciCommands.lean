import BtEmbedded.HciDev
/-!
# HciCommands — commands, status callbacks and event handlers (hci.c)

The asynchronous commands leave what their listener needs in the client's `last_async_cmd_data`; their status callback
reads it back and installs the listener.  `client` stands for what a client's callback does when the library calls it:
the boolean it returns and the device it leaves.

Of the command buffers only the header is kept: the parameter bytes and the transmission touch no slot.
-/
namespace Bte

open Bytes

/-- What a client's callback returns and does to the device. -/
abbrev ClientCb := HciDev → Bool × HciDev

/-! ## Matchers of the listeners -/

/-- One rule on the event code. -/
def eventMatcher (eventCode : UInt8) : DataMatcher :=
  (bteDataMatcherAddRule (bteDataMatcherInit .zero) [eventCode] 0).2

/-- A second rule on the bytes at an offset. -/
def eventDataMatcher (eventCode : UInt8) (data : List UInt8) (offset : UInt8) : DataMatcher :=
  (bteDataMatcherAddRule (eventMatcher eventCode) data offset).2

/-- The matcher each status callback builds from the client's data. -/
def StatusFn.listenerMatcher (d : AsyncCmdData) : StatusFn → DataMatcher
  | .commonReadConnectionStatusCb => eventDataMatcher d.eventCode d.connHandleLe (hciCmdEventPosData + 1)
  | .inquiryStatusCb => eventMatcher hciInquiryComplete
  | .createConnectionStatusCb => eventDataMatcher hciConnectionComplete d.address.bytes (hciCmdReplyPosHdrLen + 3)
  | .readRemoteNameStatusCb => eventDataMatcher hciRemoteNameReqComplete d.address.bytes (hciCmdEventPosData + 1)

/-- The handlers it installs. -/
def StatusFn.handlers (d : AsyncCmdData) : StatusFn → List (UInt8 × Option EventHandler)
  | .commonReadConnectionStatusCb => [(d.eventCode, d.handlerCb)]
  | .inquiryStatusCb =>
    [(hciInquiryResult, some .inquiryResultCb), (hciInquiryComplete, some .inquiryCompleteEventCb)]
  | .createConnectionStatusCb => [(hciConnectionComplete, some .connCompleteEventCb)]
  | .readRemoteNameStatusCb => [(hciRemoteNameReqComplete, some .remoteNameReqCompleteEventCb)]

/-! ## Status callbacks -/

/-- The common end of the status callbacks: allocate the listener, fill it, install its handlers, and free the command
whether or not this worked. -/
def installListener (dev : HciDev) (hci : Option Hci) (pc : Fin 8) (matcher : DataMatcher) (clientCb : FnPtr)
    (handlers : List (UInt8 × Option EventHandler)) : HciDev :=
  match bteHciDevAllocCommand dev matcher with
  | (none, dev) => bteHciDevFreeCommand dev pc
  | (some ev, dev) =>
    let dev := dev.setSlot ev { dev.pendingCommands ev with
      hci := hci
      commandCb := { (dev.pendingCommands ev).commandCb with word0 := clientCb } }
    let dev := dev.setSlot ev { dev.pendingCommands ev with userdata := (dev.pendingCommands pc).userdata }
    let dev := handlers.foldl (fun dev h => bteHciDevInstallEventHandler dev h.1 h.2) dev
    bteHciDevFreeCommand dev pc

def commonReadConnectionStatusCb (dev : HciDev) (client : ClientCb) (hci : Option Hci) (status : UInt8)
    (pc : Fin 8) : HciDev :=
  let d := dev.asyncCmdData hci
  if status ≠ 0 then
    let dev :=
      if (dev.pendingCommands pc).commandCb.word1 = .null ∧ d.clientCb ≠ .null then
        (client (dev.call (.failed d.clientCb hci status (dev.pendingCommands pc).userdata))).2
      else dev
    bteHciDevFreeCommand dev pc
  else
    installListener dev hci pc (StatusFn.listenerMatcher d .commonReadConnectionStatusCb) d.clientCb
      (StatusFn.handlers d .commonReadConnectionStatusCb)

def inquiryStatusCb (dev : HciDev) (hci : Option Hci) (status : UInt8) (pc : Fin 8) : HciDev :=
  let d := dev.asyncCmdData hci
  if status ≠ 0 then bteHciDevFreeCommand dev pc
  else
    installListener dev hci pc (StatusFn.listenerMatcher d .inquiryStatusCb) d.clientCb
      (StatusFn.handlers d .inquiryStatusCb)

def createConnectionStatusCb (dev : HciDev) (hci : Option Hci) (status : UInt8) (pc : Fin 8) : HciDev :=
  let d := dev.asyncCmdData hci
  if status ≠ 0 ∨ hci = none then bteHciDevFreeCommand dev pc
  else
    installListener dev hci pc (StatusFn.listenerMatcher d .createConnectionStatusCb) d.clientCb
      (StatusFn.handlers d .createConnectionStatusCb)

def readRemoteNameStatusCb (dev : HciDev) (client : ClientCb) (hci : Option Hci) (status : UInt8)
    (pc : Fin 8) : HciDev :=
  let d := dev.asyncCmdData hci
  if status ≠ 0 then
    let dev :=
      if (dev.pendingCommands pc).commandCb.word1 = .null then
        (client (dev.call (.failed d.clientCb hci status (dev.pendingCommands pc).userdata))).2
      else dev
    bteHciDevFreeCommand dev pc
  else
    installListener dev hci pc (StatusFn.listenerMatcher d .readRemoteNameStatusCb) d.clientCb
      (StatusFn.handlers d .readRemoteNameStatusCb)

/-- The call `command_status_cb(hci, status, pc)`. -/
def callStatus (dev : HciDev) (client : ClientCb) (fn : FnPtr) (hci : Option Hci) (status : UInt8)
    (pc : Fin 8) : HciDev :=
  let dev := dev.call (.status fn hci status pc)
  match fn with
  | .status .commonReadConnectionStatusCb => commonReadConnectionStatusCb dev client hci status pc
  | .status .inquiryStatusCb => inquiryStatusCb dev hci status pc
  | .status .createConnectionStatusCb => createConnectionStatusCb dev hci status pc
  | .status .readRemoteNameStatusCb => readRemoteNameStatusCb dev client hci status pc
  | _ => dev

/-! ## Commands -/

/-- Store the listener's data once the command has a slot. -/
def HciDev.storing (r : Option (List UInt8) × HciDev) (h : Hci) (f : AsyncCmdData → AsyncCmdData) : HciDev :=
  match r with
  | (none, dev) => dev
  | (some _, dev) => dev.storeCommand h f

def commonReadConnection (dev : HciDev) (h : Hci) (ocf : UInt16) (ogf : UInt8) (connHandle : UInt16)
    (eventCode : UInt8) (handler : EventHandler) (statusCb clientCb : FnPtr) (userdata : Ptr) : HciDev :=
  HciDev.storing
    (bteHciDevAddPendingAsyncCommand dev (some h) ocf ogf 5 (.status .commonReadConnectionStatusCb) statusCb userdata)
    h fun d =>
      { d with
        clientCb := clientCb
        raw := { d.raw with b0 := connHandle.toUInt8, b1 := (connHandle >>> 8).toUInt8, b2 := eventCode }
        handlerCb := some handler }

def bteHciAuthRequested (dev : HciDev) (h : Hci) (connHandle : UInt16) (statusCb clientCb : FnPtr)
    (userdata : Ptr) : HciDev :=
  commonReadConnection dev h 0x11 0x01 connHandle hciAuthComplete .authCompleteEventCb statusCb clientCb userdata

def bteHciReadRemoteFeatures (dev : HciDev) (h : Hci) (connHandle : UInt16) (statusCb clientCb : FnPtr)
    (userdata : Ptr) : HciDev :=
  commonReadConnection dev h 0x1B 0x01 connHandle hciReadRemoteFeaturesComplete .readRemoteFeaturesCompleteEventCb
    statusCb clientCb userdata

def bteHciReadRemoteVersionInfo (dev : HciDev) (h : Hci) (connHandle : UInt16) (statusCb clientCb : FnPtr)
    (userdata : Ptr) : HciDev :=
  commonReadConnection dev h 0x1D 0x01 connHandle hciReadRemoteVersionComplete .readRemoteVersionInfoCompleteEventCb
    statusCb clientCb userdata

def bteHciReadClockOffset (dev : HciDev) (h : Hci) (connHandle : UInt16) (statusCb clientCb : FnPtr)
    (userdata : Ptr) : HciDev :=
  commonReadConnection dev h 0x1F 0x01 connHandle hciReadClockOffsetComplete .readClockOffsetCompleteEventCb
    statusCb clientCb userdata

def bteHciInquiry (dev : HciDev) (h : Hci) (statusCb clientCb : FnPtr) (userdata : Ptr) : HciDev :=
  HciDev.storing (bteHciDevAddPendingAsyncCommand dev (some h) 0x01 0x01 8 (.status .inquiryStatusCb) statusCb userdata)
    h fun d => { d with clientCb := clientCb }

/-- The three commands answered by a Connection Complete event differ in their opcode and length. -/
def connectionCommand (dev : HciDev) (h : Hci) (ocf : UInt16) (len : UInt8) (address : BdAddr)
    (statusCb clientCb : FnPtr) (userdata : Ptr) : HciDev :=
  HciDev.storing
    (bteHciDevAddPendingAsyncCommand dev (some h) ocf 0x01 len (.status .createConnectionStatusCb) statusCb userdata)
    h fun d => { d with clientCb := clientCb, raw := address }

def bteHciCreateConnection (dev : HciDev) (h : Hci) (address : BdAddr) (statusCb clientCb : FnPtr)
    (userdata : Ptr) : HciDev :=
  connectionCommand dev h 0x05 16 address statusCb clientCb userdata

def bteHciAcceptConnection (dev : HciDev) (h : Hci) (address : BdAddr) (statusCb clientCb : FnPtr)
    (userdata : Ptr) : HciDev :=
  connectionCommand dev h 0x09 10 address statusCb clientCb userdata

def bteHciRejectConnection (dev : HciDev) (hci : Option Hci) (address : BdAddr) (statusCb clientCb : FnPtr)
    (userdata : Ptr) : HciDev :=
  match hci with
  | some h => connectionCommand dev h 0x0A 10 address statusCb clientCb userdata
  | none =>
    (bteHciDevAddPendingAsyncCommand dev none 0x0A 0x01 10 (.status .createConnectionStatusCb) statusCb userdata).2

def bteHciReadRemoteName (dev : HciDev) (h : Hci) (address : BdAddr) (statusCb clientCb : FnPtr)
    (userdata : Ptr) : HciDev :=
  HciDev.storing
    (bteHciDevAddPendingAsyncCommand dev (some h) 0x19 0x01 13 (.status .readRemoteNameStatusCb) statusCb userdata)
    h fun d => { d with clientCb := clientCb, raw := address }

/-- The commands whose Command Status is all there is: `bte_hci_disconnect`, `bte_hci_set_sniff_mode`,
`bte_hci_qos_setup`, with their opcode and length. -/
inductive PlainAsync where
  | disconnect
  | setSniffMode
  | qosSetup
deriving DecidableEq

def PlainAsync.opcode : PlainAsync → UInt16 × UInt8 × UInt8
  | .disconnect => (0x06, 0x01, 6)
  | .setSniffMode => (0x03, 0x02, 13)
  | .qosSetup => (0x07, 0x02, 23)

def bteHciPlainAsync (dev : HciDev) (h : Hci) (k : PlainAsync) (statusCb : FnPtr) (userdata : Ptr) : HciDev :=
  (bteHciDevAddPendingAsyncCommand dev (some h) k.opcode.1 k.opcode.2.1 k.opcode.2.2 .null statusCb userdata).2

/-- `bte_hci_on_mode_change` and `bte_hci_on_qos_setup_complete`: install a listener for a handle, or remove the
client's own. -/
def onConnectionEvent (dev : HciDev) (h : Hci) (eventCode : UInt8) (handler : EventHandler) (connHandle : UInt16)
    (callback : FnPtr) : HciDev :=
  let matcher := eventDataMatcher eventCode [connHandle.toUInt8, (connHandle >>> 8).toUInt8] (hciCmdEventPosData + 1)
  if callback = .null then
    match bteHciDevGetPendingCommand dev matcher with
    | some ev => if (dev.pendingCommands ev).hci = some h then bteHciDevFreeCommand dev ev else dev
    | none => dev
  else
    match bteHciDevAllocCommand dev matcher with
    | (none, dev) => dev
    | (some ev, dev) =>
      let dev := dev.setSlot ev { dev.pendingCommands ev with
        hci := some h
        commandCb := { (dev.pendingCommands ev).commandCb with word0 := callback } }
      bteHciDevInstallEventHandler dev eventCode (some handler)

def bteHciOnModeChange (dev : HciDev) (h : Hci) (connHandle : UInt16) (callback : FnPtr) : HciDev :=
  onConnectionEvent dev h hciModeChange .modeChangeEventCb connHandle callback

def bteHciOnQosSetupComplete (dev : HciDev) (h : Hci) (connHandle : UInt16) (callback : FnPtr) : HciDev :=
  onConnectionEvent dev h hciQosSetupComplete .qosSetupCompleteEventCb connHandle callback

/-- The negative replies the library sends itself, `hci` being `NULL`. -/
def bteHciLinkKeyReqNegReply (dev : HciDev) (hci : Option Hci) (clientCb : FnPtr) (userdata : Ptr) : HciDev :=
  (bteHciDevAddPendingCommand dev hci 0x0C 0x01 9 (.complete 0) clientCb userdata).2

def bteHciPinCodeReqNegReply (dev : HciDev) (hci : Option Hci) (clientCb : FnPtr) (userdata : Ptr) : HciDev :=
  (bteHciDevAddPendingCommand dev hci 0x0E 0x01 9 (.complete 0) clientCb userdata).2

/-- The callback is called at once when the controller is up already; what it then does comes last in the operation. -/
def bteHciOnInitialized (dev : HciDev) (h : Hci) (callback : FnPtr) (userdata : Ptr) : HciDev :=
  let dev : HciDev := { dev.setAsyncCmdData h ((dev.lastAsyncCmdData h).withInitialization callback userdata) with
    registered := Function.update dev.registered h (some (callback, userdata))
    stores := dev.stores ++ [⟨h, decide (dev.AwaitsOther h none)⟩] }
  if dev.initStatus.final then
    dev.call (.initialized callback h (dev.initStatus = .initialized) userdata (dev.registered h))
  else dev

/-! ## Event handlers -/

/-- The handlers that hand one completion event to the listener waiting for it: the slot is freed first. -/
def completionEvent (dev : HciDev) (client : ClientCb) (buffer : List UInt8) (checksNull : Bool) : HciDev :=
  match bteHciDevFindPendingCommand dev buffer with
  | none => dev
  | some pc =>
    let slot := dev.pendingCommands pc
    let dev := bteHciDevFreeCommand dev pc
    if checksNull = true ∧ slot.commandCb.word0 = .null then dev
    else (client (dev.call (.event slot.commandCb.word0 slot.hci buffer slot.userdata))).2

/-- `mode_change_event_cb` and `qos_setup_complete_event_cb`: the listener stays until its callback returns true. -/
def repeatedEvent (dev : HciDev) (client : ClientCb) (buffer : List UInt8) : HciDev :=
  match bteHciDevFindPendingCommand dev buffer with
  | none => dev
  | some pc =>
    let slot := dev.pendingCommands pc
    let userdata := (slot.hci.map dev.userdata).getD 0
    let (ret, dev) := client (dev.call (.event slot.commandCb.word0 slot.hci buffer userdata))
    if ret = true then bteHciDevFreeCommand dev pc else dev

def inquiryCompleteEventCb (dev : HciDev) (client : ClientCb) (buffer : List UInt8) : HciDev :=
  match bteHciDevFindPendingCommand dev buffer with
  | none => (client (dev.call (.notify .inquiryCompleteEventCb buffer))).2
  | some pc =>
    let slot := dev.pendingCommands pc
    let dev := bteHciDevFreeCommand dev pc
    (client (dev.call (.event slot.commandCb.word0 slot.hci buffer slot.userdata))).2

/-- The address a request event starts with. -/
def requestAddress (buffer : List UInt8) : BdAddr :=
  ⟨buffer.getD 2 0, buffer.getD 3 0, buffer.getD 4 0, buffer.getD 5 0, buffer.getD 6 0, buffer.getD 7 0⟩

/-- `handler->handler_cb(buf)`. -/
def runHandler (dev : HciDev) (client : ClientCb) (buffer : List UInt8) : EventHandler → HciDev
  | .inquiryCompleteEventCb => inquiryCompleteEventCb dev client buffer
  | .connCompleteEventCb => completionEvent dev client buffer true
  | .authCompleteEventCb => completionEvent dev client buffer true
  | .remoteNameReqCompleteEventCb => completionEvent dev client buffer false
  | .readRemoteFeaturesCompleteEventCb => completionEvent dev client buffer false
  | .readRemoteVersionInfoCompleteEventCb => completionEvent dev client buffer false
  | .readClockOffsetCompleteEventCb => completionEvent dev client buffer false
  | .modeChangeEventCb => repeatedEvent dev client buffer
  | .qosSetupCompleteEventCb => if buffer.length < 23 then dev else repeatedEvent dev client buffer
  | .connectionRequestEventCb =>
    let (handled, dev) := client (dev.call (.notify .connectionRequestEventCb buffer))
    if handled = true then dev else bteHciRejectConnection dev none (requestAddress buffer) .null .null 0
  | .linkKeyRequestEventCb =>
    let (handled, dev) := client (dev.call (.notify .linkKeyRequestEventCb buffer))
    if handled = true then dev else bteHciLinkKeyReqNegReply dev none .null 0
  | .pinCodeRequestEventCb =>
    let (handled, dev) := client (dev.call (.notify .pinCodeRequestEventCb buffer))
    if handled = true then dev else bteHciPinCodeReqNegReply dev none .null 0
  -- these only pass the event to the clients or to the device's own records
  | .inquiryResultCb => dev.call (.notify .inquiryResultCb buffer)
  | .returnLinkKeysCb => dev.call (.notify .returnLinkKeysCb buffer)
  | .disconnectionCompleteEventCb => (client (dev.call (.notify .disconnectionCompleteEventCb buffer))).2
  | .nrOfCompletedPacketsEventCb => (client (dev.call (.notify .nrOfCompletedPacketsEventCb buffer))).2
  | .linkKeyNotificationEventCb => (client (dev.call (.notify .linkKeyNotificationEventCb buffer))).2
  | .vendorEventCb => (client (dev.call (.notify .vendorEventCb buffer))).2

/-! ## Initialization (hci_dev.c) -/

/-- One turn of the loop of `_bte_hci_dev_set_status`. -/
def notifyInitialized (client : Fin 4 → ClientCb) (dev : HciDev) (i : Fin 4) : HciDev :=
  let dev := { dev with notified := i + 1 }
  match dev.clients i with
  | none => dev
  | some h =>
    let d := dev.lastAsyncCmdData h
    if d.clientCb = .null then dev
    else
      (client i (dev.call
        (.initialized d.clientCb h (dev.initStatus = .initialized) d.userdata (dev.registered h)))).2

def bteHciDevSetStatus (dev : HciDev) (client : Fin 4 → ClientCb) (status : InitStatus) : HciDev :=
  let dev := { dev with initStatus := status }
  if status.final then (List.finRange 4).foldl (notifyInitialized client) dev else dev

/-! ## Event delivery (hci_dev.c) -/

def deliverStatusToClient (dev : HciDev) (client : ClientCb) (buffer : List UInt8) : HciDev :=
  match bteHciDevFindPendingCommand dev buffer with
  | none => dev
  | some pc =>
    let slot := dev.pendingCommands pc
    let status := buffer.getD hciCmdStatusPosStatus 0
    let dev :=
      if slot.commandCb.word0 = .null then bteHciDevFreeCommand dev pc
      else callStatus dev client slot.commandCb.word0 slot.hci status pc
    if slot.commandCb.word1 = .null then dev
    else (client (dev.call (.done slot.commandCb.word1 slot.hci status slot.userdata))).2

def deliverReplyToClient (dev : HciDev) (client : ClientCb) (buffer : List UInt8) : HciDev :=
  match bteHciDevFindPendingCommand dev buffer with
  | none => dev
  | some pc =>
    let slot := dev.pendingCommands pc
    let dev := bteHciDevFreeCommand dev pc
    (client (dev.call (.complete slot.commandCb.word0 slot.hci buffer slot.commandCb.word1 slot.userdata))).2

/-- `handle_info_param` for `HCI_R_LOC_FEAT_OCF`, the only reply the device reads itself. -/
def handleInfoParam (dev : HciDev) (ocf : UInt16) (data : List UInt8) : HciDev :=
  if ocf = 0x03 then
    { dev with
      supportedFeatures := if data.getD 0 0 = 0 then UInt64.ofNat (leVal (slice data 1 8)) else 0
      gotFeatures := true }
  else dev

def bteHciDevHandleEvent (dev : HciDev) (client : ClientCb) (buffer : List UInt8) : HciDev :=
  let code := buffer.getD 0 0
  let len := buffer.getD 1 0
  let dev :=
    if code = hciCommandComplete then
      let dev := { dev with numPackets := buffer.getD 2 0 }
      if len < 3 then dev
      else
        let opcode := UInt16.ofNat (leVal (slice buffer 3 2))
        let ocf := opcode &&& (0x03ff : UInt16)
        let ogf := opcode >>> 10
        let dev := if ogf = 0x04 then handleInfoParam dev ocf (buffer.drop 5) else dev
        deliverReplyToClient dev client buffer
    else if code = hciCommandStatus then
      deliverStatusToClient { dev with numPackets := buffer.getD 3 0 } client buffer
    else dev
  match bteHciDevHandlerForEvent dev code with
  | none => dev
  | some h => runHandler dev client buffer h

end Bte
