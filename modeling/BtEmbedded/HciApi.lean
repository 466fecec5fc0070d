import BtEmbedded.HciCommands
import BtEmbedded.Lib.Run
/-!
# HciApi — the device as a state machine

What can happen to the device: a call into the library, an event from the controller, or the driver reporting how far
the initialization is.  An event may make the library call a client back, and the client may call the library again
from there: an event operation carries the calls its callback makes and what it returns.  Calls made while a client is
told `MEMORY_FULL`, or that it registered for an initialization that is over, come last in their operation, so they are
operations that follow it; so does the driver's report, which it makes from the callback of its last command.
-/
namespace Bte

/-- The handlers installed without a listener of their own. -/
inductive Registration where
  | inquiryResult
  | inquiryResultWithRssi
  | inquiryComplete
  | connectionRequest
  | disconnectionComplete
  | nrOfCompletedPackets
  | returnLinkKeys
  | pinCodeRequest
  | linkKeyRequest
  | linkKeyNotification
  | vendorEvent
deriving DecidableEq

def Registration.eventCode : Registration → UInt8
  | .inquiryResult => hciInquiryResult
  | .inquiryResultWithRssi => 0x22
  | .inquiryComplete => hciInquiryComplete
  | .connectionRequest => hciConnectionRequest
  | .disconnectionComplete => hciDisconnectionComplete
  | .nrOfCompletedPackets => hciNbrOfCompletedPackets
  | .returnLinkKeys => hciReturnLinkKeys
  | .pinCodeRequest => hciPinCodeRequest
  | .linkKeyRequest => hciLinkKeyRequest
  | .linkKeyNotification => hciLinkKeyNotification
  | .vendorEvent => hciVendorSpecificEvent

def Registration.handler : Registration → EventHandler
  | .inquiryResult => .inquiryResultCb
  | .inquiryResultWithRssi => .inquiryResultCb
  | .inquiryComplete => .inquiryCompleteEventCb
  | .connectionRequest => .connectionRequestEventCb
  | .disconnectionComplete => .disconnectionCompleteEventCb
  | .nrOfCompletedPackets => .nrOfCompletedPacketsEventCb
  | .returnLinkKeys => .returnLinkKeysCb
  | .pinCodeRequest => .pinCodeRequestEventCb
  | .linkKeyRequest => .linkKeyRequestEventCb
  | .linkKeyNotification => .linkKeyNotificationEventCb
  | .vendorEvent => .vendorEventCb

/-- A call into the library. -/
inductive ApiCall where
  | addClient (h : Hci)
  | removeClient (h : Hci)
  | register (r : Registration)
  | command (h : Hci) (ocf : UInt16) (ogf len : UInt8) (complete clientCb : FnPtr) (userdata : Ptr)
  | plainAsync (h : Hci) (k : PlainAsync) (statusCb : FnPtr) (userdata : Ptr)
  | authRequested (h : Hci) (connHandle : UInt16) (statusCb clientCb : FnPtr) (userdata : Ptr)
  | readRemoteFeatures (h : Hci) (connHandle : UInt16) (statusCb clientCb : FnPtr) (userdata : Ptr)
  | readRemoteVersionInfo (h : Hci) (connHandle : UInt16) (statusCb clientCb : FnPtr) (userdata : Ptr)
  | readClockOffset (h : Hci) (connHandle : UInt16) (statusCb clientCb : FnPtr) (userdata : Ptr)
  | inquiry (h : Hci) (statusCb clientCb : FnPtr) (userdata : Ptr)
  | createConnection (h : Hci) (address : BdAddr) (statusCb clientCb : FnPtr) (userdata : Ptr)
  | acceptConnection (h : Hci) (address : BdAddr) (statusCb clientCb : FnPtr) (userdata : Ptr)
  | rejectConnection (h : Hci) (address : BdAddr) (statusCb clientCb : FnPtr) (userdata : Ptr)
  | readRemoteName (h : Hci) (address : BdAddr) (statusCb clientCb : FnPtr) (userdata : Ptr)
  | onModeChange (h : Hci) (connHandle : UInt16) (callback : FnPtr)
  | onQosSetupComplete (h : Hci) (connHandle : UInt16) (callback : FnPtr)
  | onInitialized (h : Hci) (callback : FnPtr) (userdata : Ptr)
deriving DecidableEq

def ApiCall.apply (dev : HciDev) : ApiCall → HciDev
  | .addClient h => bteClientNew dev h
  | .removeClient h => bteHciDevRemoveClient dev h
  | .register r => bteHciDevInstallEventHandler dev r.eventCode (some r.handler)
  | .command h ocf ogf len complete clientCb u =>
    (bteHciDevAddPendingCommand dev (some h) ocf ogf len complete clientCb u).2
  | .plainAsync h k statusCb u => bteHciPlainAsync dev h k statusCb u
  | .authRequested h c statusCb clientCb u => bteHciAuthRequested dev h c statusCb clientCb u
  | .readRemoteFeatures h c statusCb clientCb u => bteHciReadRemoteFeatures dev h c statusCb clientCb u
  | .readRemoteVersionInfo h c statusCb clientCb u => bteHciReadRemoteVersionInfo dev h c statusCb clientCb u
  | .readClockOffset h c statusCb clientCb u => bteHciReadClockOffset dev h c statusCb clientCb u
  | .inquiry h statusCb clientCb u => bteHciInquiry dev h statusCb clientCb u
  | .createConnection h a statusCb clientCb u => bteHciCreateConnection dev h a statusCb clientCb u
  | .acceptConnection h a statusCb clientCb u => bteHciAcceptConnection dev h a statusCb clientCb u
  | .rejectConnection h a statusCb clientCb u => bteHciRejectConnection dev (some h) a statusCb clientCb u
  | .readRemoteName h a statusCb clientCb u => bteHciReadRemoteName dev h a statusCb clientCb u
  | .onModeChange h c callback => bteHciOnModeChange dev h c callback
  | .onQosSetupComplete h c callback => bteHciOnQosSetupComplete dev h c callback
  | .onInitialized h callback u => bteHciOnInitialized dev h callback u

/-- The calls a client's callback makes and the value it returns. -/
structure Callback where
  calls : List ApiCall
  ret : Bool

def Callback.cb (c : Callback) : ClientCb := fun dev => (c.ret, Sys.run ApiCall.apply dev c.calls)

inductive Op where
  | api (c : ApiCall)
  | event (buffer : List UInt8) (callback : Callback)
  | setStatus (status : InitStatus) (callbacks : Fin 4 → Callback)

def HciDev.step (dev : HciDev) : Op → HciDev
  | .api c => c.apply dev
  | .event buffer callback => bteHciDevHandleEvent dev callback.cb buffer
  | .setStatus status callbacks => bteHciDevSetStatus dev (fun i => (callbacks i).cb) status

end Bte
