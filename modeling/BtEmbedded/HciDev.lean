import BtEmbedded.DataMatcher
import Mathlib.Logic.Function.Basic
/-!
# HciDev — the pending-command table (hci_dev.c)

The device keeps eight slots.  A command waiting for its reply and a listener waiting for a completion event both
occupy one: the slot's matcher says which event buffers it answers to, and a slot with an empty matcher is free.

Function pointers and `void *` arguments are opaque values; the calls made through them are recorded in `calls`, and
those of `_bte_hci_dev_alloc_command` in `requests`.  The `command_cb` union of a slot is its two words, and the
`last_async_cmd_data` union of a client is the pointer all its members start with, the six bytes that follow (an
address, a handle and an event code, or the low bytes of a pointer), what is above these six bytes of the pointer, and
the handler, as a little-endian host with 64-bit pointers lays them out.  What each write of that union was meant for is
recorded in `given`, `registered` and `stores`.
-/
namespace Bte

open Bytes

/-! ## Constants (hci_priv.h, hci_proto.h) -/

def hciInquiryComplete : UInt8 := 0x01
def hciInquiryResult : UInt8 := 0x02
def hciConnectionComplete : UInt8 := 0x03
def hciConnectionRequest : UInt8 := 0x04
def hciDisconnectionComplete : UInt8 := 0x05
def hciAuthComplete : UInt8 := 0x06
def hciRemoteNameReqComplete : UInt8 := 0x07
def hciReadRemoteFeaturesComplete : UInt8 := 0x0B
def hciReadRemoteVersionComplete : UInt8 := 0x0C
def hciQosSetupComplete : UInt8 := 0x0D
def hciCommandComplete : UInt8 := 0x0E
def hciCommandStatus : UInt8 := 0x0F
def hciNbrOfCompletedPackets : UInt8 := 0x13
def hciModeChange : UInt8 := 0x14
def hciReturnLinkKeys : UInt8 := 0x15
def hciPinCodeRequest : UInt8 := 0x16
def hciLinkKeyRequest : UInt8 := 0x17
def hciLinkKeyNotification : UInt8 := 0x18
def hciReadClockOffsetComplete : UInt8 := 0x1C
def hciVendorSpecificEvent : UInt8 := 0xFF
/-- `BTE_HCI_EVENT_LAST`. -/
def bteHciEventLast : UInt8 := 0x3D

def hciCmdReplyPosOpcode : UInt8 := 3
def hciCmdStatusPosOpcode : UInt8 := 4
def hciCmdReplyPosHdrLen : UInt8 := 2
def hciCmdEventPosData : UInt8 := 2
def hciCmdHdrLen : UInt8 := 3
/-- `HCI_CMD_STATUS_POS_STATUS`. -/
def hciCmdStatusPosStatus : Nat := 2
def bteHciMemoryFull : UInt8 := 0x07

/-! ## Data -/

/-- A client's `BteHci`, by identity; `none` is `NULL`. -/
abbrev Hci := Nat

/-- A `void *` the library only hands back. -/
abbrev Ptr := Nat

structure BdAddr where
  b0 : UInt8
  b1 : UInt8
  b2 : UInt8
  b3 : UInt8
  b4 : UInt8
  b5 : UInt8
deriving DecidableEq

def BdAddr.bytes (a : BdAddr) : List UInt8 := [a.b0, a.b1, a.b2, a.b3, a.b4, a.b5]

/-- The `BteHciCommandStatusCb` functions of hci.c. -/
inductive StatusFn where
  | commonReadConnectionStatusCb
  | inquiryStatusCb
  | createConnectionStatusCb
  | readRemoteNameStatusCb
deriving DecidableEq

/-- The `BteHciEventHandlerCb` functions of hci.c. -/
inductive EventHandler where
  | inquiryResultCb
  | inquiryCompleteEventCb
  | connCompleteEventCb
  | connectionRequestEventCb
  | disconnectionCompleteEventCb
  | authCompleteEventCb
  | remoteNameReqCompleteEventCb
  | readRemoteFeaturesCompleteEventCb
  | readRemoteVersionInfoCompleteEventCb
  | qosSetupCompleteEventCb
  | nrOfCompletedPacketsEventCb
  | modeChangeEventCb
  | returnLinkKeysCb
  | pinCodeRequestEventCb
  | linkKeyRequestEventCb
  | linkKeyNotificationEventCb
  | readClockOffsetCompleteEventCb
  | vendorEventCb
deriving DecidableEq

/-- What a slot's union and the clients' arguments hold: nothing, a client's function, a completion parser
(`BteHciCommandCb`) or a status function of hci.c. -/
inductive FnPtr where
  | null
  | client (id : Nat)
  | complete (id : Nat)
  | status (f : StatusFn)
deriving DecidableEq

def FnPtr.isStatus : FnPtr → Bool
  | .status _ => true
  | _ => false

/-- `union bte_hci_command_cb_u`: `cmd_complete` and `cmd_status` use both words, an event listener the first. -/
structure CommandCb where
  word0 : FnPtr
  word1 : FnPtr
deriving DecidableEq

structure PendingCommand where
  matcher : DataMatcher
  hci : Option Hci
  userdata : Ptr
  commandCb : CommandCb
deriving DecidableEq

/-- The slot holds a command of the client with a status function of the library, and waits for its Command Status: the
matchers of such commands are the only ones that look at offset 4. -/
def PendingCommand.AwaitsStatus (pc : PendingCommand) (h : Hci) : Prop :=
  pc.matcher.rules.map Rule.offset = [0, hciCmdStatusPosOpcode] ∧ pc.commandCb.word0.isStatus = true ∧ pc.hci = some h

instance (pc : PendingCommand) (h : Hci) : Decidable (pc.AwaitsStatus h) := inferInstanceAs (Decidable (_ ∧ _))

/-- `union _bte_hci_last_async_cmd_data_u`. -/
structure AsyncCmdData where
  clientCb : FnPtr
  raw : BdAddr
  upper : Nat
  handlerCb : Option EventHandler
deriving DecidableEq

namespace AsyncCmdData

/-- `create_connection.address` and `read_remote_name.address`. -/
def address (d : AsyncCmdData) : BdAddr := d.raw
/-- The bytes of `common_read_connection.conn_handle`, low byte first. -/
def connHandleLe (d : AsyncCmdData) : List UInt8 := [d.raw.b0, d.raw.b1]
/-- `common_read_connection.event_code`, the byte after the handle. -/
def eventCode (d : AsyncCmdData) : UInt8 := d.raw.b2
/-- `initialization.userdata`. -/
def userdata (d : AsyncCmdData) : Ptr := leVal d.raw.bytes + 2 ^ 48 * d.upper

/-- What `memset` leaves. -/
def zero : AsyncCmdData := ⟨.null, ⟨0, 0, 0, 0, 0, 0⟩, 0, none⟩

/-- The `initialization` member written over the others. -/
def withInitialization (d : AsyncCmdData) (clientCb : FnPtr) (u : Ptr) : AsyncCmdData :=
  { d with
    clientCb := clientCb
    raw := ⟨.ofNat u, .ofNat (u / 2 ^ 8), .ofNat (u / 2 ^ 16), .ofNat (u / 2 ^ 24), .ofNat (u / 2 ^ 32),
      .ofNat (u / 2 ^ 40)⟩
    upper := u / 2 ^ 48 }

end AsyncCmdData

/-- `BteHciInitStatus`. -/
inductive InitStatus where
  | uninitialized
  | initializing
  | initialized
  | failed
deriving DecidableEq

/-- The controller is up, or will never be. -/
def InitStatus.final (s : InitStatus) : Bool := s = .initialized ∨ s = .failed

/-- One call through a function pointer. -/
inductive Call where
  | complete (fn : FnPtr) (hci : Option Hci) (buffer : List UInt8) (clientCb : FnPtr) (userdata : Ptr)
  | status (fn : FnPtr) (hci : Option Hci) (status : UInt8) (slot : Fin 8)
  | done (fn : FnPtr) (hci : Option Hci) (status : UInt8) (userdata : Ptr)
  | failed (fn : FnPtr) (hci : Option Hci) (status : UInt8) (userdata : Ptr)
  | event (fn : FnPtr) (hci : Option Hci) (buffer : List UInt8) (userdata : Ptr)
  | notify (handler : EventHandler) (buffer : List UInt8)
  -- with what the client had registered when the call was made
  | initialized (fn : FnPtr) (hci : Hci) (success : Bool) (userdata : Ptr) (registered : Option (FnPtr × Ptr))
  | deinit
deriving DecidableEq

/-- One call of `_bte_hci_dev_alloc_command`: the matchers of the slots it found, the one asked for and its answer. -/
structure Request where
  slots : Fin 8 → DataMatcher
  matcher : DataMatcher
  answer : Option (Fin 8)

/-- One write of a client's `last_async_cmd_data`, and whether something still had to be read from it. -/
structure Store where
  hci : Hci
  clobbers : Bool
deriving DecidableEq

structure HciDev where
  initStatus : InitStatus
  gotFeatures : Bool
  numPendingCommands : UInt16
  pendingCommands : Fin 8 → PendingCommand
  clients : Fin 4 → Option Hci
  numPackets : UInt8
  supportedFeatures : UInt64
  eventHandlers : UInt8 → Option EventHandler
  lastAsyncCmdData : Hci → AsyncCmdData
  userdata : Hci → Ptr
  calls : List Call
  requests : List Request
  /-- The data the asynchronous command in a slot was called with. -/
  given : Fin 8 → AsyncCmdData
  /-- The initialization callback a client registered last. -/
  registered : Hci → Option (FnPtr × Ptr)
  /-- The entries of the client table `_bte_hci_dev_set_status` is done with. -/
  notified : Nat
  stores : List Store

namespace HciDev

/-- The device before any client: `memset` to zero. -/
def init : HciDev where
  initStatus := .uninitialized
  gotFeatures := false
  numPendingCommands := 0
  pendingCommands := fun _ => ⟨.zero, none, 0, ⟨.null, .null⟩⟩
  clients := fun _ => none
  numPackets := 0
  supportedFeatures := 0
  eventHandlers := fun _ => none
  lastAsyncCmdData := fun _ => .zero
  userdata := fun _ => 0
  calls := []
  requests := []
  given := fun _ => .zero
  registered := fun _ => none
  notified := 0
  stores := []

/-- The slot is in use. -/
def Occupied (dev : HciDev) (i : Fin 8) : Prop := bteDataMatcherIsEmpty (dev.pendingCommands i).matcher = false

instance (dev : HciDev) (i : Fin 8) : Decidable (dev.Occupied i) := inferInstanceAs (Decidable (_ = _))

def setSlot (dev : HciDev) (i : Fin 8) (pc : PendingCommand) : HciDev :=
  { dev with pendingCommands := Function.update dev.pendingCommands i pc }

def call (dev : HciDev) (c : Call) : HciDev := { dev with calls := dev.calls ++ [c] }

def asyncCmdData (dev : HciDev) : Option Hci → AsyncCmdData
  | none => .zero
  | some h => dev.lastAsyncCmdData h

def setAsyncCmdData (dev : HciDev) (h : Hci) (d : AsyncCmdData) : HciDev :=
  { dev with lastAsyncCmdData := Function.update dev.lastAsyncCmdData h d }

/-- A command of the client, other than the one in the slot `but`, awaits its Command Status. -/
def AwaitsOther (dev : HciDev) (h : Hci) (but : Option (Fin 8)) : Prop :=
  ∃ i, some i ≠ but ∧ (dev.pendingCommands i).AwaitsStatus h

instance (dev : HciDev) (h : Hci) (but : Option (Fin 8)) : Decidable (dev.AwaitsOther h but) :=
  inferInstanceAs (Decidable (∃ _ : Fin 8, _ ∧ _))

/-- `_bte_hci_dev_set_status` will still come to the client. -/
def ToBeNotified (dev : HciDev) (h : Hci) : Prop := ∃ i : Fin 4, dev.notified ≤ i ∧ dev.clients i = some h

instance (dev : HciDev) (h : Hci) : Decidable (dev.ToBeNotified h) := inferInstanceAs (Decidable (∃ _ : Fin 4, _ ∧ _))

/-- The slot the last allocation picked. -/
def lastSlot (dev : HciDev) : Option (Fin 8) := dev.requests.getLast?.bind Request.answer

/-- A command writes its members of the client's union; `f .zero` is what it was called with. -/
def storeCommand (dev : HciDev) (h : Hci) (f : AsyncCmdData → AsyncCmdData) : HciDev :=
  { dev.setAsyncCmdData h (f (dev.lastAsyncCmdData h)) with
    given := fun i => if dev.lastSlot = some i then f .zero else dev.given i
    stores := dev.stores ++ [⟨h, decide (dev.AwaitsOther h dev.lastSlot ∨ dev.ToBeNotified h)⟩] }

end HciDev

/-! ## The table -/

def bteHciDevFreeCommand (dev : HciDev) (i : Fin 8) : HciDev :=
  let pc := dev.pendingCommands i
  { dev.setSlot i { pc with matcher := bteDataMatcherInit pc.matcher } with
    numPendingCommands := dev.numPendingCommands - 1 }

def bteHciDevFindPendingCommand (dev : HciDev) (data : List UInt8) : Option (Fin 8) :=
  (List.finRange 8).find? fun i =>
    !bteDataMatcherIsEmpty (dev.pendingCommands i).matcher && bteDataMatcherCompare (dev.pendingCommands i).matcher data

def bteHciDevGetPendingCommand (dev : HciDev) (matcher : DataMatcher) : Option (Fin 8) :=
  (List.finRange 8).find? fun i => bteDataMatcherIsSame matcher (dev.pendingCommands i).matcher

/-- The search loop of `_bte_hci_dev_alloc_command`: it stops at the first free slot, so it has compared the matcher
with the slots before that one only. -/
def HciDev.allocScan (dev : HciDev) (matcher : DataMatcher) : List (Fin 8) → Option (Fin 8)
  | [] => none
  | i :: is =>
    if bteDataMatcherIsEmpty (dev.pendingCommands i).matcher then some i
    else if bteDataMatcherIsSame matcher (dev.pendingCommands i).matcher then none
    else dev.allocScan matcher is

/-- The slot `_bte_hci_dev_alloc_command` picks: the first one when nothing is pending, without a search. -/
def HciDev.allocSlot (dev : HciDev) (matcher : DataMatcher) : Option (Fin 8) :=
  if dev.numPendingCommands = 0 then some 0
  else if dev.numPendingCommands < 8 then dev.allocScan matcher (List.finRange 8)
  else none

def HciDev.logRequest (dev : HciDev) (matcher : DataMatcher) (answer : Option (Fin 8)) : HciDev :=
  { dev with requests := dev.requests ++ [⟨fun i => (dev.pendingCommands i).matcher, matcher, answer⟩] }

def bteHciDevAllocCommand (dev : HciDev) (matcher : DataMatcher) : Option (Fin 8) × HciDev :=
  match dev.allocSlot matcher with
  | none => (none, dev.logRequest matcher none)
  | some i =>
    (some i, { (dev.logRequest matcher (some i)).setSlot i { dev.pendingCommands i with matcher := matcher } with
      numPendingCommands := dev.numPendingCommands + 1 })

def buildOpcode (ocf : UInt16) (ogf : UInt8) : UInt16 := (ocf &&& (0x3ff : UInt16)) ||| (ogf.toUInt16 <<< 10)

/-- The bytes of the opcode at the start of a command buffer. -/
def opcodeLe (ocf : UInt16) (ogf : UInt8) : List UInt8 := leBytes 2 (buildOpcode ocf ogf).toNat

/-- The header `hci_command_alloc` writes. -/
def hciCommandAlloc (ocf : UInt16) (ogf len : UInt8) : List UInt8 := opcodeLe ocf ogf ++ [len - hciCmdHdrLen]

def commandMatcher (replyEvent : UInt8) (opcode : List UInt8) : DataMatcher :=
  let m := (bteDataMatcherAddRule (bteDataMatcherInit .zero) [replyEvent] 0).2
  if replyEvent = hciCommandComplete then (bteDataMatcherAddRule m opcode hciCmdReplyPosOpcode).2
  else (bteDataMatcherAddRule m opcode hciCmdStatusPosOpcode).2

/-- `_bte_hci_dev_add_command`: the command's buffer, or `none` once the client has been told `MEMORY_FULL`. -/
def bteHciDevAddCommand (dev : HciDev) (hci : Option Hci) (ocf : UInt16) (ogf len replyEvent : UInt8)
    (cb : CommandCb) (userdata : Ptr) : Option (List UInt8) × HciDev :=
  let buffer := hciCommandAlloc ocf ogf len
  match bteHciDevAllocCommand dev (commandMatcher replyEvent (buffer.take 2)) with
  | (some i, dev) =>
    (some buffer, dev.setSlot i { dev.pendingCommands i with commandCb := cb, hci := hci, userdata := userdata })
  | (none, dev) =>
    (none, if cb.word1 = .null then dev else dev.call (.done cb.word1 hci bteHciMemoryFull userdata))

def bteHciDevAddPendingCommand (dev : HciDev) (hci : Option Hci) (ocf : UInt16) (ogf len : UInt8)
    (complete clientCb : FnPtr) (userdata : Ptr) : Option (List UInt8) × HciDev :=
  bteHciDevAddCommand dev hci ocf ogf len hciCommandComplete ⟨complete, clientCb⟩ userdata

def bteHciDevAddPendingAsyncCommand (dev : HciDev) (hci : Option Hci) (ocf : UInt16) (ogf len : UInt8)
    (status clientCb : FnPtr) (userdata : Ptr) : Option (List UInt8) × HciDev :=
  bteHciDevAddCommand dev hci ocf ogf len hciCommandStatus ⟨status, clientCb⟩ userdata

/-! ## Clients and event handlers -/

/-- `hci_dev_dispose`: free the slots of a client. -/
def hciDevDispose (dev : HciDev) (h : Hci) : HciDev :=
  (List.finRange 8).foldl (fun dev i =>
    if bteDataMatcherIsEmpty (dev.pendingCommands i).matcher = false ∧ (dev.pendingCommands i).hci = some h
    then bteHciDevFreeCommand dev i else dev) dev

def bteHciDevAddClient (dev : HciDev) (h : Hci) : Bool × HciDev :=
  match (List.finRange 4).find? fun i => (dev.clients i).isNone with
  | some i => (true, { dev with clients := Function.update dev.clients i (some h) })
  | none => (false, dev)

/-- `bte_client_new`: the client starts from zeroed memory.  It holds no slot yet, so when the table is full dropping it
again changes nothing else. -/
def bteClientNew (dev : HciDev) (h : Hci) : HciDev :=
  (bteHciDevAddClient { dev.setAsyncCmdData h .zero with
    registered := Function.update dev.registered h none
    stores := dev.stores ++ [⟨h, decide (dev.AwaitsOther h none)⟩] } h).2

def bteHciDevRemoveClient (dev : HciDev) (h : Hci) : HciDev :=
  let dev := hciDevDispose dev h
  let dev := { dev with clients := fun i => if dev.clients i = some h then none else dev.clients i }
  if (List.finRange 4).all fun i => (dev.clients i).isNone then dev.call .deinit else dev

/-- The slot of the handler table an event code uses: vendor events share index 0. -/
def handlerIndex (eventCode : UInt8) : Option UInt8 :=
  let code := if eventCode = hciVendorSpecificEvent then 0 else eventCode
  if code > bteHciEventLast then none else some code

def bteHciDevInstallEventHandler (dev : HciDev) (eventCode : UInt8) (handler : Option EventHandler) : HciDev :=
  match handlerIndex eventCode with
  | none => dev
  | some k => { dev with eventHandlers := Function.update dev.eventHandlers k handler }

def bteHciDevHandlerForEvent (dev : HciDev) (eventCode : UInt8) : Option EventHandler :=
  (handlerIndex eventCode).bind dev.eventHandlers

end Bte
