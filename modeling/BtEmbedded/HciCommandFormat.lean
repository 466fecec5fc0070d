import Mathlib.Data.List.Perm.Basic
import Mathlib.Data.List.TakeWhile
import BtEmbedded.InquiryResults
import BtEmbedded.HciCommandSizes
import BtEmbedded.DriverInit
import BtEmbedded.Lib.Codec
import BtEmbedded.Lib.Stores
/-!
# HciCommandFormat — the bytes of the HCI commands (hci.c, hci_dev.c)

A command function has a buffer allocated, gets the header from `hci_command_alloc` and stores its parameters behind it,
each at its own place.  The buffer comes from `malloc`: what is not stored is what was there before (`mem`).

`readCommand` reads a command from its bytes, the opcode and the length byte first; the parameters of each opcode have a
format.  It finds the function that was called and its arguments (`readCommand_build`), up to what a function drops by
design (`HciCall.seen`).  Three functions leave bytes of the buffer as they were (`unstored_iff`).
-/
namespace Bte

open Bytes Codec

/-! ## What the functions build -/

/-- What a function passes to `_bte_hci_dev_add_*command`, and its stores, each with its place behind the header. -/
structure CommandPacket where
  ocf : UInt16
  ogf : UInt8
  len : UInt8
  stores : List (Nat × List UInt8)

namespace CommandPacket

/-- The bytes behind the header. -/
def parameters (c : CommandPacket) (mem : Nat → UInt8) : List UInt8 :=
  blits ((List.range (c.len.toNat - 3)).map mem) c.stores

/-- What the backend is given. -/
def bytes (c : CommandPacket) (mem : Nat → UInt8) : List UInt8 := hciCommandAlloc c.ocf c.ogf c.len ++ c.parameters mem

/-- The same places counted from the start of the buffer. -/
def buffer (c : CommandPacket) : CommandBuffer :=
  ⟨c.len.toNat, hciCommandAlloc c.ocf c.ogf c.len, c.stores.map fun s => (3 + s.1, s.2)⟩

end CommandPacket

abbrev LinkKey := { bs : List UInt8 // bs.length = 16 }

/-- `BteHciConnectParams`. -/
structure HciConnectParams where
  packetType : UInt16
  clockOffset : UInt16
  pageScanRepMode : UInt8
  allowRoleSwitch : UInt8
deriving DecidableEq

/-- `BteHciQosSetupData`. -/
structure HciQosSetupData where
  serviceType : UInt8
  tokenRate : UInt32
  peakBandwidth : UInt32
  latency : UInt32
  delayVariation : UInt32
deriving DecidableEq

/-- A call of one of the command functions.  Arrays come with their length; of `bte_hci_write_scan_enable` it is the
combined mode that is sent. -/
inductive HciCall where
  | nop
  | inquiry (lap : UInt32) (len maxResp : UInt8)
  | inquiryCancel
  | periodicInquiry (minPeriod maxPeriod : UInt16) (lap : UInt32) (len maxResp : UInt8)
  | exitPeriodicInquiry
  | createConnection (address : BdAddr) (params : HciConnectParams)
  | disconnect (handle : UInt16) (reason : UInt8)
  | createConnectionCancel (address : BdAddr)
  | acceptConnection (address : BdAddr) (role : UInt8)
  | rejectConnection (address : BdAddr) (reason : UInt8)
  | linkKeyReqReply (address : BdAddr) (key : LinkKey)
  | linkKeyReqNegReply (address : BdAddr)
  | pinCodeReqReply (address : BdAddr) (pin : List UInt8)
  | pinCodeReqNegReply (address : BdAddr)
  | authRequested (connHandle : UInt16)
  | readRemoteName (address : BdAddr) (pageScanRepMode : UInt8) (clockOffset : UInt16)
  | readRemoteFeatures (connHandle : UInt16)
  | readRemoteVersionInfo (connHandle : UInt16)
  | readClockOffset (connHandle : UInt16)
  | setSniffMode (connHandle minInterval maxInterval attemptSlots timeout : UInt16)
  | qosSetup (connHandle : UInt16) (setupData : HciQosSetupData)
  | readLinkPolicySettings (connHandle : UInt16)
  | writeLinkPolicySettings (connHandle settings : UInt16)
  | setEventMask (mask : UInt64)
  | reset
  | setEventFilter (filterType condType : UInt8) (filterData : List UInt8)
  | readPinType
  | writePinType (pinType : UInt8)
  | readStoredLinkKey (address : Option BdAddr)
  | writeStoredLinkKey (keys : List StoredLinkKey)
  | deleteStoredLinkKey (address : Option BdAddr)
  | writeLocalName (name : List UInt8)
  | readLocalName
  | readPageTimeout
  | writePageTimeout (pageTimeout : UInt16)
  | readScanEnable
  | writeScanEnable (combined : UInt8)
  | readAuthEnable
  | writeAuthEnable (authEnable : UInt8)
  | readClassOfDevice
  | writeClassOfDevice (cod : ClassOfDevice)
  | readAutoFlushTimeout (connHandle : UInt16)
  | writeAutoFlushTimeout (connHandle timeout : UInt16)
  | setCtrlToHostFlowControl (enable : UInt8)
  | setHostBufferSize (aclPacketLen aclPackets : UInt16) (syncPacketLen : UInt8) (syncPackets : UInt16)
  | readCurrentIacLap
  | writeCurrentIacLap (laps : List UInt32)
  | hostNumCompPackets (connHandle numPackets : UInt16)
  | readLinkSvTimeout (connHandle : UInt16)
  | writeLinkSvTimeout (connHandle timeout : UInt16)
  | readInquiryScanType
  | writeInquiryScanType (inquiryScanType : UInt8)
  | readInquiryMode
  | writeInquiryMode (inquiryMode : UInt8)
  | readPageScanType
  | writePageScanType (pageScanType : UInt8)
  | readLocalVersion
  | readLocalFeatures
  | readBufferSize
  | readBdAddr
  | vendorCommand (ocf : UInt16) (data : List UInt8)
deriving DecidableEq

def hciLinkCtrlOgf : UInt8 := 0x01
def hciLinkPolicyOgf : UInt8 := 0x02
def hciInfoParamOgf : UInt8 := 0x04

def bteHciClockOffsetInvalid : UInt16 := 0xffff
def bteHciMaxNameLen : Nat := 248
def bteHciEventFilterTypeClear : UInt8 := 0
def bteHciEventFilterTypeInquiryResult : UInt8 := 1
def bteHciEventFilterTypeConnectionSetup : UInt8 := 2

/-- The value `write_clock_offset` writes. -/
def writeClockOffset (clockOffset : UInt16) : UInt16 :=
  if clockOffset ≠ bteHciClockOffsetInvalid then clockOffset &&& 0x7fff else 0

/-- The three bytes of a LAP. -/
def lapBytes (lap : UInt32) : List UInt8 := [lap.toUInt8, (lap >>> 8).toUInt8, (lap >>> 16).toUInt8]

theorem length_lapBytes (lap : UInt32) : (lapBytes lap).length = 3 := rfl

/-- `strncpy(dst, src, n)`: what it leaves at `dst`. -/
def strncpy (src : List UInt8) (n : Nat) : List UInt8 :=
  let copied := (src.takeWhile (· ≠ 0)).take n
  copied ++ List.replicate (n - copied.length) 0

/-- `cond_len` of `bte_hci_set_event_filter`. -/
def condLen (filterType condType : UInt8) : Nat :=
  if filterType = bteHciEventFilterTypeInquiryResult then
    if condType = 1 then 6 else if condType = 2 then 6 else 0
  else if filterType = bteHciEventFilterTypeConnectionSetup then
    if condType = 0 then 1 else if condType = 1 then 7 else if condType = 2 then 7 else 0
  else 0

namespace HciCall

/-- A handle, or another 16-bit number, at a place. -/
def le16 (place : Nat) (n : UInt16) : Nat × List UInt8 := (place, leBytes 2 n.toNat)
def le32 (place : Nat) (n : UInt32) : Nat × List UInt8 := (place, leBytes 4 n.toNat)

/-- `bte_hci_read_stored_link_key` and `bte_hci_delete_stored_link_key` fill in an address only if there is one. -/
def keyOwner (address : Option BdAddr) : List (Nat × List UInt8) :=
  (address.toList.map fun a => (0, a.bytes)) ++ [(6, [if address.isSome then 0 else 1])]

/-- The command functions, each with its opcode, its `PLEN` and its stores. -/
def build : HciCall → CommandPacket
  | nop => ⟨0, 0, 3, []⟩
  | inquiry lap len maxResp => ⟨0x01, hciLinkCtrlOgf, 8, [(0, lapBytes lap), (3, [len]), (4, [maxResp])]⟩
  | inquiryCancel => ⟨0x02, hciLinkCtrlOgf, 3, []⟩
  | periodicInquiry minPeriod maxPeriod lap len maxResp =>
    ⟨0x03, hciLinkCtrlOgf, 12, [le16 0 maxPeriod, le16 2 minPeriod, (4, lapBytes lap), (7, [len]), (8, [maxResp])]⟩
  | exitPeriodicInquiry => ⟨0x04, hciLinkCtrlOgf, 3, []⟩
  | createConnection address params => ⟨0x05, hciLinkCtrlOgf, 16,
      [(0, address.bytes), le16 6 params.packetType, (8, [params.pageScanRepMode]), (9, [0]),
        le16 10 (writeClockOffset params.clockOffset), (12, [params.allowRoleSwitch])]⟩
  | disconnect handle reason => ⟨0x06, hciLinkCtrlOgf, 6, [le16 0 handle, (2, [reason])]⟩
  | createConnectionCancel address => ⟨0x08, hciLinkCtrlOgf, 9, [(0, address.bytes)]⟩
  | acceptConnection address role => ⟨0x09, hciLinkCtrlOgf, 10, [(0, address.bytes), (6, [role])]⟩
  | rejectConnection address reason => ⟨0x0A, hciLinkCtrlOgf, 10, [(0, address.bytes), (6, [reason])]⟩
  | linkKeyReqReply address key => ⟨0x0B, hciLinkCtrlOgf, 25, [(0, address.bytes), (6, key.1)]⟩
  | linkKeyReqNegReply address => ⟨0x0C, hciLinkCtrlOgf, 9, [(0, address.bytes)]⟩
  | pinCodeReqReply address pin => ⟨0x0D, hciLinkCtrlOgf, 26,
      [(0, address.bytes), (6, [.ofNat pin.length]), (7, pin)] ++
        if pin.length < 16 then [(7 + pin.length, [0])] else []⟩
  | pinCodeReqNegReply address => ⟨0x0E, hciLinkCtrlOgf, 9, [(0, address.bytes)]⟩
  | authRequested connHandle => ⟨0x11, hciLinkCtrlOgf, 5, [le16 0 connHandle]⟩
  | readRemoteName address pageScanRepMode clockOffset => ⟨0x19, hciLinkCtrlOgf, 13,
      [(0, address.bytes), (6, [pageScanRepMode]), (7, [0]), le16 8 (writeClockOffset clockOffset)]⟩
  | readRemoteFeatures connHandle => ⟨0x1B, hciLinkCtrlOgf, 5, [le16 0 connHandle]⟩
  | readRemoteVersionInfo connHandle => ⟨0x1D, hciLinkCtrlOgf, 5, [le16 0 connHandle]⟩
  | readClockOffset connHandle => ⟨0x1F, hciLinkCtrlOgf, 5, [le16 0 connHandle]⟩
  | setSniffMode connHandle minInterval maxInterval attemptSlots timeout => ⟨0x03, hciLinkPolicyOgf, 13,
      [le16 0 connHandle, le16 2 maxInterval, le16 4 minInterval, le16 6 attemptSlots, le16 8 timeout]⟩
  | qosSetup connHandle setupData => ⟨0x07, hciLinkPolicyOgf, 23,
      [le16 0 connHandle, (2, [0]), (3, [setupData.serviceType]), le32 4 setupData.tokenRate,
        le32 8 setupData.peakBandwidth, le32 12 setupData.latency, le32 16 setupData.delayVariation]⟩
  | readLinkPolicySettings connHandle => ⟨0x0C, hciLinkPolicyOgf, 5, [le16 0 connHandle]⟩
  | writeLinkPolicySettings connHandle settings => ⟨0x0D, hciLinkPolicyOgf, 7, [le16 0 connHandle, le16 2 settings]⟩
  | setEventMask mask => ⟨0x01, hciHcBbOgf, 11, [(0, leBytes 8 mask.toNat)]⟩
  | reset => ⟨0x03, hciHcBbOgf, 3, []⟩
  | setEventFilter filterType condType filterData =>
    if filterType = bteHciEventFilterTypeClear then ⟨0x05, hciHcBbOgf, 4, [(0, [filterType])]⟩
    else ⟨0x05, hciHcBbOgf, 4 + .ofNat (1 + condLen filterType condType),
      [(0, [filterType]), (1, [condType]), (2, filterData.take (condLen filterType condType))]⟩
  | readPinType => ⟨0x09, hciHcBbOgf, 3, []⟩
  | writePinType pinType => ⟨0x0A, hciHcBbOgf, 4, [(0, [pinType])]⟩
  | readStoredLinkKey address => ⟨0x0D, hciHcBbOgf, 10, keyOwner address⟩
  | writeStoredLinkKey keys => ⟨0x11, hciHcBbOgf, .ofNat (3 + 1 + keys.length * 22),
      (0, [.ofNat keys.length]) :: keys.zipIdx.flatMap fun k =>
        [(1 + k.2 * 6, k.1.address.bytes), (1 + keys.length * 6 + k.2 * 16, k.1.key.1)]⟩
  | deleteStoredLinkKey address => ⟨0x12, hciHcBbOgf, 10, keyOwner address⟩
  | writeLocalName name => ⟨0x13, hciHcBbOgf, 251, [(0, strncpy name bteHciMaxNameLen)]⟩
  | readLocalName => ⟨0x14, hciHcBbOgf, 3, []⟩
  | readPageTimeout => ⟨0x17, hciHcBbOgf, 3, []⟩
  | writePageTimeout pageTimeout => ⟨0x18, hciHcBbOgf, 5, [le16 0 pageTimeout]⟩
  | readScanEnable => ⟨0x19, hciHcBbOgf, 3, []⟩
  | writeScanEnable combined => ⟨0x1A, hciHcBbOgf, 4, [(0, [combined])]⟩
  | readAuthEnable => ⟨0x1F, hciHcBbOgf, 3, []⟩
  | writeAuthEnable authEnable => ⟨0x20, hciHcBbOgf, 4, [(0, [authEnable])]⟩
  | readClassOfDevice => ⟨0x23, hciHcBbOgf, 3, []⟩
  | writeClassOfDevice cod => ⟨0x24, hciHcBbOgf, 6, [(0, cod.bytes)]⟩
  | readAutoFlushTimeout connHandle => ⟨0x27, hciHcBbOgf, 5, [le16 0 connHandle]⟩
  | writeAutoFlushTimeout connHandle timeout => ⟨0x28, hciHcBbOgf, 7, [le16 0 connHandle, le16 2 timeout]⟩
  | setCtrlToHostFlowControl enable => ⟨0x31, hciHcBbOgf, 4, [(0, [enable])]⟩
  | setHostBufferSize aclPacketLen aclPackets syncPacketLen syncPackets => ⟨0x33, hciHcBbOgf, 10,
      [le16 0 aclPacketLen, (2, [syncPacketLen]), le16 3 aclPackets, le16 5 syncPackets]⟩
  | readCurrentIacLap => ⟨0x39, hciHcBbOgf, 3, []⟩
  | writeCurrentIacLap laps => ⟨0x3A, hciHcBbOgf, .ofNat (4 + 3 * laps.length),
      (0, [.ofNat laps.length]) :: laps.zipIdx.map fun lap => (1 + lap.2 * 3, lapBytes lap.1)⟩
  | hostNumCompPackets connHandle numPackets =>
    ⟨0x35, hciHcBbOgf, 8, [(0, [1]), le16 1 connHandle, le16 3 numPackets]⟩
  | readLinkSvTimeout connHandle => ⟨0x36, hciHcBbOgf, 5, [le16 0 connHandle]⟩
  | writeLinkSvTimeout connHandle timeout => ⟨0x37, hciHcBbOgf, 7, [le16 0 connHandle, le16 2 timeout]⟩
  | readInquiryScanType => ⟨0x42, hciHcBbOgf, 3, []⟩
  | writeInquiryScanType inquiryScanType => ⟨0x43, hciHcBbOgf, 4, [(0, [inquiryScanType])]⟩
  | readInquiryMode => ⟨0x44, hciHcBbOgf, 3, []⟩
  | writeInquiryMode inquiryMode => ⟨0x45, hciHcBbOgf, 4, [(0, [inquiryMode])]⟩
  | readPageScanType => ⟨0x46, hciHcBbOgf, 3, []⟩
  | writePageScanType pageScanType => ⟨0x47, hciHcBbOgf, 4, [(0, [pageScanType])]⟩
  | readLocalVersion => ⟨0x01, hciInfoParamOgf, 3, []⟩
  | readLocalFeatures => ⟨0x03, hciInfoParamOgf, 3, []⟩
  | readBufferSize => ⟨0x05, hciInfoParamOgf, 3, []⟩
  | readBdAddr => ⟨0x09, hciInfoParamOgf, 3, []⟩
  | vendorCommand ocf data => ⟨ocf, hciVendorOgf, 3 + .ofNat data.length, [(0, data)]⟩

/-- What the functions rely on and do not check: a buffer has room for the arrays, and the filter is as long as its type
says. -/
def Fits : HciCall → Prop
  | pinCodeReqReply _ pin => pin.length ≤ 16
  | setEventFilter filterType condType filterData => condLen filterType condType ≤ filterData.length
  | writeStoredLinkKey keys => keys.length ≤ 11
  | writeCurrentIacLap laps => laps.length ≤ 83
  | vendorCommand _ data => data.length ≤ 252
  | _ => True

/-- The call as a controller sees it. -/
def seen : HciCall → HciCall
  | inquiry lap len maxResp => inquiry (lap &&& 0xffffff) len maxResp
  | periodicInquiry minPeriod maxPeriod lap len maxResp =>
    periodicInquiry minPeriod maxPeriod (lap &&& 0xffffff) len maxResp
  | createConnection address params =>
    createConnection address { params with clockOffset := writeClockOffset params.clockOffset }
  | readRemoteName address pageScanRepMode clockOffset =>
    readRemoteName address pageScanRepMode (writeClockOffset clockOffset)
  | setEventFilter filterType condType filterData =>
    if filterType = bteHciEventFilterTypeClear then setEventFilter filterType 0 []
    else setEventFilter filterType condType (filterData.take (condLen filterType condType))
  | writeLocalName name => writeLocalName ((name.takeWhile (· ≠ 0)).take bteHciMaxNameLen)
  | writeCurrentIacLap laps => writeCurrentIacLap (laps.map (· &&& 0xffffff))
  | vendorCommand ocf data => vendorCommand (ocf &&& 0x3ff) data
  | c => c

end HciCall

/-! ## Reading a command -/

namespace HciCall

def bdAddr : Codec BdAddr :=
  (bytes 6).xmap (fun bs => ⟨bs.1.getD 0 0, bs.1.getD 1 0, bs.1.getD 2 0, bs.1.getD 3 0, bs.1.getD 4 0, bs.1.getD 5 0⟩)
    (fun a => ⟨a.bytes, rfl⟩) fun _ => rfl

def classOfDevice : Codec ClassOfDevice :=
  (bytes 3).xmap (fun bs => ⟨bs.1.getD 0 0, bs.1.getD 1 0, bs.1.getD 2 0⟩) (fun c => ⟨c.bytes, rfl⟩) fun _ => rfl

@[simp] theorem encode_bdAddr (a : BdAddr) : bdAddr.encode a = a.bytes := rfl

@[simp] theorem encode_classOfDevice (c : ClassOfDevice) : classOfDevice.encode c = c.bytes := rfl

/-- The parameters of a command, when they are `f`'s. -/
def reads {α : Type} (f : Format α) (call : α → HciCall) (ps : List UInt8) : Option HciCall := (f.decode ps).map call

/-- A command without parameters. -/
def plain (call : HciCall) : List UInt8 → Option HciCall := reads unit.whole fun _ => call

/-- Whose key is meant: the address is not looked at when the byte behind it asks for all of them. -/
def readKeyOwner (call : Option BdAddr → HciCall) : List UInt8 → Option HciCall :=
  reads (bdAddr.pair byte).whole fun p => call (if p.2 = 0 then some p.1 else none)

def readEventFilter : List UInt8 → Option HciCall
  | [] => none
  | [filterType] => if filterType = bteHciEventFilterTypeClear then some (setEventFilter filterType 0 []) else none
  | filterType :: condType :: data =>
    if filterType ≠ bteHciEventFilterTypeClear ∧ data.length = condLen filterType condType then
      some (setEventFilter filterType condType data)
    else none

/-- The PIN is at the front of its sixteen bytes. -/
def readPin : List UInt8 → Option HciCall :=
  reads (bdAddr.pair (byte.pair (bytes 16))).whole fun p => pinCodeReqReply p.1 (p.2.2.1.take p.2.1.toNat)

/-- All the addresses come before all the keys. -/
def readLinkKeys : List UInt8 → Option HciCall :=
  reads (byte.bind fun n => (bdAddr.list n.toNat).pair ((bytes 16).list n.toNat)).whole
    fun p => writeStoredLinkKey (List.zipWith StoredLinkKey.mk p.2.1.1 p.2.2.1)

def readLaps : List UInt8 → Option HciCall :=
  reads (byte.bind fun n => (le 3).list n.toNat).whole fun p => writeCurrentIacLap (p.2.1.map fun lap => .ofNat lap.val)

/-- The parameters of the command `ogf`, `ocf`. -/
def readParameters (ogf ocf : Nat) (ps : List UInt8) : Option HciCall :=
  match ogf, ocf with
  | 0x00, 0x00 => plain nop ps
  | 0x01, 0x01 => reads ((le 3).pair (byte.pair byte)).whole (fun p => inquiry (.ofNat p.1.val) p.2.1 p.2.2) ps
  | 0x01, 0x02 => plain inquiryCancel ps
  | 0x01, 0x03 => reads (u16.pair (u16.pair ((le 3).pair (byte.pair byte)))).whole
      (fun p => periodicInquiry p.2.1 p.1 (.ofNat p.2.2.1.val) p.2.2.2.1 p.2.2.2.2) ps
  | 0x01, 0x04 => plain exitPeriodicInquiry ps
  | 0x01, 0x05 => reads (bdAddr.pair (u16.pair (byte.pair (byte.pair (u16.pair byte))))).whole
      (fun p => createConnection p.1 ⟨p.2.1, p.2.2.2.2.1, p.2.2.1, p.2.2.2.2.2⟩) ps
  | 0x01, 0x06 => reads (u16.pair byte).whole (fun p => disconnect p.1 p.2) ps
  | 0x01, 0x08 => reads bdAddr.whole createConnectionCancel ps
  | 0x01, 0x09 => reads (bdAddr.pair byte).whole (fun p => acceptConnection p.1 p.2) ps
  | 0x01, 0x0A => reads (bdAddr.pair byte).whole (fun p => rejectConnection p.1 p.2) ps
  | 0x01, 0x0B => reads (bdAddr.pair (bytes 16)).whole (fun p => linkKeyReqReply p.1 p.2) ps
  | 0x01, 0x0C => reads bdAddr.whole linkKeyReqNegReply ps
  | 0x01, 0x0D => readPin ps
  | 0x01, 0x0E => reads bdAddr.whole pinCodeReqNegReply ps
  | 0x01, 0x11 => reads u16.whole authRequested ps
  | 0x01, 0x19 => reads (bdAddr.pair (byte.pair (byte.pair u16))).whole
      (fun p => readRemoteName p.1 p.2.1 p.2.2.2) ps
  | 0x01, 0x1B => reads u16.whole readRemoteFeatures ps
  | 0x01, 0x1D => reads u16.whole readRemoteVersionInfo ps
  | 0x01, 0x1F => reads u16.whole readClockOffset ps
  | 0x02, 0x03 => reads (u16.pair (u16.pair (u16.pair (u16.pair u16)))).whole
      (fun p => setSniffMode p.1 p.2.2.1 p.2.1 p.2.2.2.1 p.2.2.2.2) ps
  | 0x02, 0x07 => reads (u16.pair (byte.pair (byte.pair (u32.pair (u32.pair (u32.pair u32)))))).whole
      (fun p => qosSetup p.1 ⟨p.2.2.1, p.2.2.2.1, p.2.2.2.2.1, p.2.2.2.2.2.1, p.2.2.2.2.2.2⟩) ps
  | 0x02, 0x0C => reads u16.whole readLinkPolicySettings ps
  | 0x02, 0x0D => reads (u16.pair u16).whole (fun p => writeLinkPolicySettings p.1 p.2) ps
  | 0x03, 0x01 => reads u64.whole setEventMask ps
  | 0x03, 0x03 => plain reset ps
  | 0x03, 0x05 => readEventFilter ps
  | 0x03, 0x09 => plain readPinType ps
  | 0x03, 0x0A => reads byte.whole writePinType ps
  | 0x03, 0x0D => readKeyOwner readStoredLinkKey ps
  | 0x03, 0x11 => readLinkKeys ps
  | 0x03, 0x12 => readKeyOwner deleteStoredLinkKey ps
  | 0x03, 0x13 => reads (bytes bteHciMaxNameLen).whole (fun p => writeLocalName (p.1.takeWhile (· ≠ 0))) ps
  | 0x03, 0x14 => plain readLocalName ps
  | 0x03, 0x17 => plain readPageTimeout ps
  | 0x03, 0x18 => reads u16.whole writePageTimeout ps
  | 0x03, 0x19 => plain readScanEnable ps
  | 0x03, 0x1A => reads byte.whole writeScanEnable ps
  | 0x03, 0x1F => plain readAuthEnable ps
  | 0x03, 0x20 => reads byte.whole writeAuthEnable ps
  | 0x03, 0x23 => plain readClassOfDevice ps
  | 0x03, 0x24 => reads classOfDevice.whole writeClassOfDevice ps
  | 0x03, 0x27 => reads u16.whole readAutoFlushTimeout ps
  | 0x03, 0x28 => reads (u16.pair u16).whole (fun p => writeAutoFlushTimeout p.1 p.2) ps
  | 0x03, 0x31 => reads byte.whole setCtrlToHostFlowControl ps
  | 0x03, 0x33 => reads (u16.pair (byte.pair (u16.pair u16))).whole
      (fun p => setHostBufferSize p.1 p.2.2.1 p.2.1 p.2.2.2) ps
  | 0x03, 0x35 => reads (byte.pair (u16.pair u16)).whole (fun p => hostNumCompPackets p.2.1 p.2.2) ps
  | 0x03, 0x36 => reads u16.whole readLinkSvTimeout ps
  | 0x03, 0x37 => reads (u16.pair u16).whole (fun p => writeLinkSvTimeout p.1 p.2) ps
  | 0x03, 0x39 => plain readCurrentIacLap ps
  | 0x03, 0x3A => readLaps ps
  | 0x03, 0x42 => plain readInquiryScanType ps
  | 0x03, 0x43 => reads byte.whole writeInquiryScanType ps
  | 0x03, 0x44 => plain readInquiryMode ps
  | 0x03, 0x45 => reads byte.whole writeInquiryMode ps
  | 0x03, 0x46 => plain readPageScanType ps
  | 0x03, 0x47 => reads byte.whole writePageScanType ps
  | 0x04, 0x01 => plain readLocalVersion ps
  | 0x04, 0x03 => plain readLocalFeatures ps
  | 0x04, 0x05 => plain readBufferSize ps
  | 0x04, 0x09 => plain readBdAddr ps
  | 0x3F, ocf => some (vendorCommand (.ofNat ocf) ps)
  | _, _ => none

/-- A command: the opcode, how many bytes of parameters, and these. -/
def readCommand (bs : List UInt8) : Option HciCall :=
  match bs with
  | lo :: hi :: len :: ps =>
    let opcode := leVal [lo, hi]
    if ps.length = len.toNat then readParameters (opcode / 1024) (opcode % 1024) ps else none
  | _ => none

/-! ## What the stores fill -/

theorem toNat_buildOpcode (ocf : UInt16) (ogf : UInt8) :
    (buildOpcode ocf ogf).toNat = ogf.toNat % 64 * 1024 + ocf.toNat % 1024 := by
  have hlow : (ocf &&& 0x3ff).toNat = ocf.toNat % 1024 := by
    rw [UInt16.toNat_and]
    exact Nat.and_two_pow_sub_one_eq_mod ocf.toNat 10
  have hhigh : (ogf.toUInt16 <<< 10).toNat = 2 ^ 10 * (ogf.toNat % 64) := by
    rw [UInt16.toNat_shiftLeft, UInt8.toNat_toUInt16, Nat.shiftLeft_eq]
    show ogf.toNat * 1024 % 65536 = _
    omega
  rw [buildOpcode, UInt16.toNat_or, hlow, hhigh, Nat.or_comm, ← Nat.two_pow_add_eq_or_of_lt (by omega)]
  omega

/-- The stores by their places, where a function does not make them in that order. -/
def inOrder : HciCall → List (Nat × List UInt8)
  | writeStoredLinkKey keys => (0, [.ofNat keys.length]) ::
      ((keys.zipIdx.map fun k => (1 + k.2 * 6, k.1.address.bytes)) ++ keys.zipIdx.map fun k =>
          (1 + keys.length * 6 + k.2 * 16, k.1.key.1))
  | c => c.build.stores

/-- Every byte behind the header is stored. -/
def Stored : HciCall → Prop
  | pinCodeReqReply _ pin => 15 ≤ pin.length
  | readStoredLinkKey none | deleteStoredLinkKey none => False
  | _ => True

theorem perm_inOrder (c : HciCall) : c.build.stores.Perm c.inOrder := by
  cases c with
  | writeStoredLinkKey keys =>
    refine .cons _ (.symm ?_)
    have h := List.map_append_flatMap_perm keys.zipIdx (fun k => (1 + k.2 * 6, k.1.address.bytes))
      fun k => [(1 + keys.length * 6 + k.2 * 16, k.1.key.1)]
    rwa [← List.map_eq_flatMap] at h
  | _ => exact .refl _

theorem condLen_le (filterType condType : UInt8) : condLen filterType condType ≤ 7 := by
  unfold condLen
  split_ifs <;> decide

theorem length_strncpy (src : List UInt8) (n : Nat) : (strncpy src n).length = n := by
  have hle : ((src.takeWhile (· ≠ 0)).take n).length ≤ n := List.length_take_le ..
  rw [strncpy, List.length_append, List.length_replicate, Nat.add_sub_cancel' hle]

theorem toNat_ofNat_of_le {n : Nat} (h : n ≤ 255) : (UInt8.ofNat n).toNat = n :=
  UInt8.toNat_ofNat_of_lt' (Nat.lt_succ_of_le h)

theorem build_filterClear {filterType : UInt8} (h : filterType = bteHciEventFilterTypeClear) (condType : UInt8)
    (filterData : List UInt8) :
    build (setEventFilter filterType condType filterData) = ⟨0x05, hciHcBbOgf, 4, [(0, [filterType])]⟩ := if_pos h

theorem build_filter {filterType : UInt8} (h : filterType ≠ bteHciEventFilterTypeClear) (condType : UInt8)
    (filterData : List UInt8) :
    build (setEventFilter filterType condType filterData) =
      ⟨0x05, hciHcBbOgf, 4 + .ofNat (1 + condLen filterType condType),
        [(0, [filterType]), (1, [condType]), (2, filterData.take (condLen filterType condType))]⟩ := if_neg h

theorem tiles_inOrder (c : HciCall) (h : c.Fits) (hs : c.Stored) : Tiles 0 (c.build.len.toNat - 3) c.inOrder := by
  cases c with
  | nop | inquiryCancel | exitPeriodicInquiry | reset | readPinType | readLocalName | readPageTimeout | readScanEnable
  | readAuthEnable | readClassOfDevice | readCurrentIacLap | readInquiryScanType | readInquiryMode | readPageScanType
  | readLocalVersion | readLocalFeatures | readBufferSize | readBdAddr => rfl
  | writePinType _ | writeScanEnable _ | writeAuthEnable _ | setCtrlToHostFlowControl _ | writeInquiryScanType _
  | writeInquiryMode _ | writePageScanType _ | authRequested _ | readRemoteFeatures _ | readRemoteVersionInfo _
  | readClockOffset _ | readLinkPolicySettings _ | writePageTimeout _ | readAutoFlushTimeout _ | readLinkSvTimeout _
  | createConnectionCancel _ | linkKeyReqNegReply _ | pinCodeReqNegReply _ | setEventMask _ | writeClassOfDevice _ =>
    exact ⟨rfl, rfl⟩
  | disconnect _ _ | acceptConnection _ _ | rejectConnection _ _ | writeLinkPolicySettings _ _
  | writeAutoFlushTimeout _ _ | writeLinkSvTimeout _ _ => exact ⟨rfl, rfl, rfl⟩
  | linkKeyReqReply _ key =>
    refine ⟨rfl, rfl, ?_⟩
    show 6 + key.1.length = 22
    rw [key.2]
  | inquiry _ _ _ | hostNumCompPackets _ _ => exact ⟨rfl, rfl, rfl, rfl⟩
  | setHostBufferSize _ _ _ _ | readRemoteName _ _ _ => exact ⟨rfl, rfl, rfl, rfl, rfl⟩
  | periodicInquiry _ _ _ _ _ | setSniffMode _ _ _ _ _ => exact ⟨rfl, rfl, rfl, rfl, rfl, rfl⟩
  | createConnection _ _ => exact ⟨rfl, rfl, rfl, rfl, rfl, rfl, rfl⟩
  | qosSetup _ _ => exact ⟨rfl, rfl, rfl, rfl, rfl, rfl, rfl, rfl⟩
  | readStoredLinkKey address | deleteStoredLinkKey address =>
    cases address with
    | none => exact hs.elim
    | some a => exact ⟨rfl, rfl, rfl⟩
  | pinCodeReqReply address pin =>
    rcases Nat.lt_or_ge pin.length 16 with hlt | hge
    · have hlen : pin.length = 15 := Nat.le_antisymm (Nat.le_of_lt_succ hlt) hs
      show Tiles 0 23 ([_, _, _] ++ if pin.length < 16 then _ else [])
      rw [if_pos hlt, hlen]
      refine ⟨rfl, rfl, rfl, ?_⟩
      simp only [hlen]
      exact ⟨rfl, rfl⟩
    · have hlen : pin.length = 16 := Nat.le_antisymm h hge
      show Tiles 0 23 ([_, _, _] ++ if pin.length < 16 then _ else [])
      rw [if_neg (Nat.not_lt.2 hge)]
      refine ⟨rfl, rfl, rfl, ?_⟩
      simp only [hlen]
      rfl
  | setEventFilter filterType condType filterData =>
    have hle := condLen_le filterType condType
    show Tiles 0 ((build (.setEventFilter filterType condType filterData)).len.toNat - 3)
      (build (.setEventFilter filterType condType filterData)).stores
    by_cases hclear : filterType = bteHciEventFilterTypeClear
    · rw [build_filterClear hclear]
      exact ⟨rfl, rfl⟩
    · rw [build_filter hclear]
      have hlen : (4 + UInt8.ofNat (1 + condLen filterType condType)).toNat = 5 + condLen filterType condType := by
        rw [UInt8.toNat_add, toNat_ofNat_of_le (by omega)]
        show (4 + _) % 256 = _
        omega
      have htake : (filterData.take (condLen filterType condType)).length = condLen filterType condType :=
        List.length_take_of_le h
      refine ⟨rfl, rfl, rfl, ?_⟩
      show 2 + (filterData.take (condLen filterType condType)).length = _
      rw [hlen, htake]
      omega
  | writeStoredLinkKey keys =>
    have hle : keys.length ≤ 11 := h
    have hlen : (build (.writeStoredLinkKey keys)).len.toNat - 3 = 1 + keys.length * 6 + keys.length * 16 := by
      show (UInt8.ofNat (3 + 1 + keys.length * 22)).toNat - 3 = _
      rw [toNat_ofNat_of_le (by omega)]
      omega
    have haddr := tiles_column (f := fun k : StoredLinkKey => k.address.bytes) (w := 6) (fun _ => rfl) 1 keys 0
    have hkey := tiles_column (f := fun k : StoredLinkKey => k.key.1) (fun k => k.key.2) (1 + keys.length * 6) keys 0
    rw [Nat.zero_mul, Nat.zero_add, Nat.add_zero] at haddr hkey
    rw [hlen]
    exact ⟨rfl, haddr.append hkey⟩
  | writeLocalName name =>
    refine ⟨rfl, ?_⟩
    show 0 + (strncpy name bteHciMaxNameLen).length = 248
    rw [length_strncpy]
    rfl
  | writeCurrentIacLap laps =>
    have hle : laps.length ≤ 83 := h
    have hlen : (build (.writeCurrentIacLap laps)).len.toNat - 3 = 1 + laps.length * 3 := by
      show (UInt8.ofNat (4 + 3 * laps.length)).toNat - 3 = _
      rw [toNat_ofNat_of_le (by omega)]
      omega
    have hlaps := tiles_column length_lapBytes 1 laps 0
    rw [Nat.zero_mul, Nat.zero_add, Nat.add_zero] at hlaps
    rw [hlen]
    exact ⟨rfl, hlaps⟩
  | vendorCommand ocf data =>
    have hle : data.length ≤ 252 := h
    have hlen : (3 + UInt8.ofNat data.length).toNat = 3 + data.length := by
      rw [UInt8.toNat_add, toNat_ofNat_of_le (by omega)]
      show (3 + _) % 256 = _
      omega
    refine ⟨rfl, ?_⟩
    show 0 + data.length = (3 + UInt8.ofNat data.length).toNat - 3
    rw [hlen]
    omega

/-! ## What is read back -/

section
variable {mem : Nat → UInt8}

theorem length_heap (n : Nat) (mem : Nat → UInt8) : ((List.range n).map mem).length = n := by
  rw [List.length_map, List.length_range]

theorem parameters_tiles {p : CommandPacket} {ss : List (Nat × List UInt8)} (hp : p.stores.Perm ss) {i n : Nat}
    (h : Tiles i n ss) (hn : n ≤ p.len.toNat - 3) (mem : Nat → UInt8) :
    p.parameters mem = ((List.range (p.len.toNat - 3)).map mem).take i ++ ss.flatMap Prod.snd ++
      ((List.range (p.len.toNat - 3)).map mem).drop n :=
  blits_tiles hp h (by rw [length_heap]; exact hn)

theorem parameters_stored (c : HciCall) (h : c.Fits) (hs : c.Stored) (mem : Nat → UInt8) :
    c.build.parameters mem = c.inOrder.flatMap Prod.snd := by
  rw [parameters_tiles c.perm_inOrder (c.tiles_inOrder h hs) (Nat.le_refl _), List.take_zero, List.nil_append,
    List.drop_eq_nil_of_le (Nat.le_of_eq (length_heap _ mem)), List.append_nil]

theorem parameters_pin (address : BdAddr) {pin : List UInt8} (h : pin.length < 16) (mem : Nat → UInt8) :
    (build (.pinCodeReqReply address pin)).parameters mem =
      address.bytes ++ .ofNat pin.length :: (pin ++ 0 :: ((List.range 23).map mem).drop (8 + pin.length)) := by
  have hs : (build (.pinCodeReqReply address pin)).stores =
      [(0, address.bytes), (6, [.ofNat pin.length]), (7, pin), (7 + pin.length, [0])] := by
    show [_, _, _] ++ (if pin.length < 16 then [(7 + pin.length, [0])] else []) = _
    rw [if_pos h]
    rfl
  have htiles : Tiles 0 (8 + pin.length)
      [(0, address.bytes), (6, [.ofNat pin.length]), (7, pin), (7 + pin.length, [0])] :=
    ⟨rfl, rfl, rfl, rfl, Nat.add_right_comm 7 pin.length 1⟩
  rw [parameters_tiles (.of_eq hs) htiles (by show _ ≤ 23; omega), List.take_zero, List.nil_append]
  simp only [List.flatMap_cons, List.flatMap_nil, List.append_nil, List.append_assoc, List.cons_append, List.nil_append]
  rfl

theorem parameters_anyKey {p : CommandPacket} (hlen : p.len = 10) (hs : p.stores = keyOwner none) (mem : Nat → UInt8) :
    p.parameters mem = [mem 0, mem 1, mem 2, mem 3, mem 4, mem 5, 1] := by
  have htiles : Tiles 6 7 (keyOwner none) := ⟨rfl, rfl⟩
  rw [parameters_tiles (.of_eq hs) htiles (by rw [hlen]; decide), hlen]
  rfl

theorem reads_eq {α : Type} {f : Format α} {call : α → HciCall} {ps : List UInt8} {a : α} (h : ps = f.encode a) :
    reads f call ps = some (call a) := by
  rw [reads, h, f.decode_encode, Option.map_some]

theorem plain_eq {call : HciCall} {ps : List UInt8} (h : ps = []) : plain call ps = some call := by
  rw [h]
  rfl

/-- The number a LAP is sent as. -/
def lapField (lap : UInt32) : Fin (256 ^ 3) := ⟨lap.toNat % 16777216, Nat.mod_lt _ (by decide)⟩

theorem lapBytes_eq (lap : UInt32) : lapBytes lap = (le 3).encode (lapField lap) := by
  have hbyte (a b : Nat) (h : a % 256 = b % 256) : UInt8.ofNat a = UInt8.ofNat b :=
    UInt8.toNat_inj.1 (by rwa [UInt8.toNat_ofNat', UInt8.toNat_ofNat'])
  have hlow (n : UInt32) : n.toUInt8 = UInt8.ofNat n.toNat := rfl
  have h8 : (lap >>> 8).toNat = lap.toNat / 256 := by
    rw [UInt32.toNat_shiftRight, Nat.shiftRight_eq_div_pow]
    rfl
  have h16 : (lap >>> 16).toNat = lap.toNat / 65536 := by
    rw [UInt32.toNat_shiftRight, Nat.shiftRight_eq_div_pow]
    rfl
  simp only [lapBytes, encode_le, lapField, leBytes, hlow, h8, h16, List.cons.injEq, and_true]
  exact ⟨hbyte _ _ (by omega), hbyte _ _ (by omega), hbyte _ _ (by omega)⟩

theorem ofNat_lapField (lap : UInt32) : UInt32.ofNat (lapField lap).val = lap &&& 0xffffff := by
  refine UInt32.toNat_inj.1 ?_
  have hlow : (lap &&& 0xffffff).toNat = lap.toNat % 16777216 := by
    rw [UInt32.toNat_and]
    exact Nat.and_two_pow_sub_one_eq_mod lap.toNat 24
  rw [hlow, UInt32.toNat_ofNat']
  show lap.toNat % 16777216 % 4294967296 = _
  omega

theorem zipIdx_stores {ρ : Type} (f : ρ → List UInt8) (place : Nat → Nat) : ∀ (l : List ρ) (k : Nat),
    ((l.zipIdx k).map fun r => (place r.2, f r.1)).flatMap Prod.snd = l.flatMap f
  | [], _ => rfl
  | r :: l, k => congrArg (f r ++ ·) (zipIdx_stores f place l (k + 1))

theorem readKeyOwner_eq {call : Option BdAddr → HciCall} {ps : List UInt8} {a : BdAddr} {b : UInt8}
    (h : ps = a.bytes ++ [b]) : readKeyOwner call ps = some (call (if b = 0 then some a else none)) :=
  reads_eq (a := (a, b)) h

theorem parameters_pin_tail (address : BdAddr) {pin : List UInt8} (h : pin.length ≤ 16) (mem : Nat → UInt8) :
    ∃ tail, (pin ++ tail).length = 16 ∧
      (build (.pinCodeReqReply address pin)).parameters mem = address.bytes ++ .ofNat pin.length :: (pin ++ tail) := by
  rcases Nat.lt_or_ge pin.length 16 with hlt | hge
  · refine ⟨_, ?_, parameters_pin address hlt mem⟩
    rw [List.length_append, List.length_cons, List.length_drop, length_heap]
    omega
  · refine ⟨[], by rw [List.append_nil]; omega, ?_⟩
    rw [parameters_stored (.pinCodeReqReply address pin) h (Nat.le_of_succ_le hge)]
    show ([_, _, _] ++ if pin.length < 16 then _ else []).flatMap Prod.snd = _
    rw [if_neg (Nat.not_lt.2 hge), List.append_nil, List.append_nil]
    simp only [List.flatMap_cons, List.flatMap_nil, List.append_nil, List.cons_append, List.nil_append]

theorem readPin_build {address : BdAddr} {pin : List UInt8} (h : pin.length ≤ 16) (mem : Nat → UInt8) :
    readPin ((build (.pinCodeReqReply address pin)).parameters mem) = some (.pinCodeReqReply address pin) := by
  obtain ⟨tail, hlen, hps⟩ := parameters_pin_tail address h mem
  rw [readPin, reads_eq (a := (address, .ofNat pin.length, ⟨pin ++ tail, hlen⟩)) hps]
  simp only
  rw [toNat_ofNat_of_le (Nat.le_trans h (by decide)), List.take_left]

theorem readLinkKeys_build {keys : List StoredLinkKey} (h : keys.length ≤ 11) (mem : Nat → UInt8) :
    readLinkKeys ((build (.writeStoredLinkKey keys)).parameters mem) = some (.writeStoredLinkKey keys) := by
  have hcount : (UInt8.ofNat keys.length).toNat = keys.length := toNat_ofNat_of_le (by omega)
  have hps := parameters_stored (.writeStoredLinkKey keys) h trivial mem
  rw [inOrder, List.flatMap_cons, List.flatMap_append,
    zipIdx_stores (fun k : StoredLinkKey => k.address.bytes) fun i => 1 + i * 6,
    zipIdx_stores (fun k : StoredLinkKey => k.key.1) fun i => 1 + keys.length * 6 + i * 16] at hps
  rw [readLinkKeys, reads_eq (a := ⟨.ofNat keys.length, ⟨keys.map (·.address), by rw [hcount, List.length_map]⟩,
    ⟨keys.map (·.key), by rw [hcount, List.length_map]⟩⟩) (hps.trans ?_)]
  · simp only [List.zipWith_map, List.zipWith_self, List.map_id']
  · simp only [encode_whole, encode_bind, encode_pair, encode_list, encode_byte, List.flatMap_map, encode_bdAddr,
      encode_bytes]

theorem readLaps_build {laps : List UInt32} (h : laps.length ≤ 83) (mem : Nat → UInt8) :
    readLaps ((build (.writeCurrentIacLap laps)).parameters mem) = some (seen (.writeCurrentIacLap laps)) := by
  have hcount : (UInt8.ofNat laps.length).toNat = laps.length := toNat_ofNat_of_le (by omega)
  have hps := parameters_stored (.writeCurrentIacLap laps) h trivial mem
  have hcol := zipIdx_stores lapBytes (1 + · * 3) laps 0
  rw [readLaps, reads_eq (a := ⟨.ofNat laps.length, ⟨laps.map lapField, by rw [hcount, List.length_map]⟩⟩)
    (hps.trans ((congrArg (UInt8.ofNat laps.length :: ·) hcol).trans ?_))]
  · simp only [List.map_map, Function.comp_def, ofNat_lapField, seen]
  · simp only [encode_whole, encode_bind, encode_list, encode_byte, List.flatMap_map, ← lapBytes_eq]
    rfl

theorem takeWhile_strncpy (name : List UInt8) (n : Nat) :
    (strncpy name n).takeWhile (· ≠ 0) = (name.takeWhile (· ≠ 0)).take n := by
  have hall : ∀ b ∈ (name.takeWhile (· ≠ 0)).take n, decide (b ≠ 0) = true := by
    intro b hb
    have hne := List.mem_takeWhile_imp (List.mem_of_mem_take hb)
    exact hne
  have hzeros : ∀ k, (List.replicate k (0 : UInt8)).takeWhile (· ≠ 0) = []
    | 0 => rfl
    | _ + 1 => rfl
  rw [strncpy, List.takeWhile_append_of_pos hall, hzeros, List.append_nil]

theorem toNat_buildVendor (ocf : UInt16) : UInt16.ofNat (ocf.toNat % 1024) = ocf &&& 0x3ff := by
  refine UInt16.toNat_inj.1 ?_
  have hlow : (ocf &&& 0x3ff).toNat = ocf.toNat % 1024 := by
    rw [UInt16.toNat_and]
    exact Nat.and_two_pow_sub_one_eq_mod ocf.toNat 10
  rw [hlow, UInt16.toNat_ofNat']
  omega

theorem build_filter_opcode (filterType condType : UInt8) (filterData : List UInt8) :
    (build (.setEventFilter filterType condType filterData)).ocf = 0x05 ∧
      (build (.setEventFilter filterType condType filterData)).ogf = hciHcBbOgf := by
  by_cases h : filterType = bteHciEventFilterTypeClear
  · rw [build_filterClear h]
    exact ⟨rfl, rfl⟩
  · rw [build_filter h]
    exact ⟨rfl, rfl⟩

theorem readEventFilter_build {filterType condType : UInt8} {filterData : List UInt8}
    (h : condLen filterType condType ≤ filterData.length) (mem : Nat → UInt8) :
    readEventFilter ((build (.setEventFilter filterType condType filterData)).parameters mem) =
      some (seen (.setEventFilter filterType condType filterData)) := by
  rw [parameters_stored (.setEventFilter filterType condType filterData) h trivial]
  show readEventFilter ((build (.setEventFilter filterType condType filterData)).stores.flatMap Prod.snd) = _
  rw [seen]
  by_cases hclear : filterType = bteHciEventFilterTypeClear
  · rw [build_filterClear hclear, if_pos hclear]
    exact if_pos hclear
  · rw [build_filter hclear, if_neg hclear]
    have hlen : (filterData.take (condLen filterType condType)).length = condLen filterType condType :=
      List.length_take_of_le h
    have hdata : [(0, [filterType]), (1, [condType]),
        (2, filterData.take (condLen filterType condType))].flatMap Prod.snd =
        filterType :: condType :: filterData.take (condLen filterType condType) := by
      simp only [List.flatMap_cons, List.flatMap_nil, List.append_nil, List.cons_append, List.nil_append]
    rw [hdata, readEventFilter, if_pos ⟨hclear, hlen⟩]

theorem readParameters_build (c : HciCall) (h : c.Fits) (mem : Nat → UInt8) :
    readParameters (c.build.ogf.toNat % 64) (c.build.ocf.toNat % 1024) (c.build.parameters mem) = some c.seen := by
  have hps := fun hs => parameters_stored c h hs mem
  cases c with
  | nop | inquiryCancel | exitPeriodicInquiry | reset | readPinType | readLocalName | readPageTimeout | readScanEnable
  | readAuthEnable | readClassOfDevice | readCurrentIacLap | readInquiryScanType | readInquiryMode | readPageScanType
  | readLocalVersion | readLocalFeatures | readBufferSize | readBdAddr => exact plain_eq (hps trivial)
  | writePinType v | writeScanEnable v | writeAuthEnable v | setCtrlToHostFlowControl v | writeInquiryScanType v
  | writeInquiryMode v | writePageScanType v => exact reads_eq (a := v) (hps trivial)
  | authRequested v | readRemoteFeatures v | readRemoteVersionInfo v | readClockOffset v | readLinkPolicySettings v
  | writePageTimeout v | readAutoFlushTimeout v | readLinkSvTimeout v | createConnectionCancel v | linkKeyReqNegReply v
  | pinCodeReqNegReply v | setEventMask v | writeClassOfDevice v => exact reads_eq (a := v) (hps trivial)
  | disconnect v w | acceptConnection v w | rejectConnection v w | writeLinkPolicySettings v w
  | writeAutoFlushTimeout v w | writeLinkSvTimeout v w => exact reads_eq (a := (v, w)) (hps trivial)
  | linkKeyReqReply address key =>
    exact reads_eq (a := (address, key)) ((hps trivial).trans (by simp [inOrder, build]))
  | hostNumCompPackets connHandle numPackets => exact reads_eq (a := (1, connHandle, numPackets)) (hps trivial)
  | setHostBufferSize aclPacketLen aclPackets syncPacketLen syncPackets =>
    exact reads_eq (a := (aclPacketLen, syncPacketLen, aclPackets, syncPackets)) (hps trivial)
  | setSniffMode connHandle minInterval maxInterval attemptSlots timeout =>
    exact reads_eq (a := (connHandle, maxInterval, minInterval, attemptSlots, timeout)) (hps trivial)
  | qosSetup connHandle setupData =>
    exact reads_eq (a := (connHandle, 0, setupData.serviceType, setupData.tokenRate, setupData.peakBandwidth,
      setupData.latency, setupData.delayVariation)) (hps trivial)
  | createConnection address params =>
    exact reads_eq (a := (address, params.packetType, params.pageScanRepMode, 0, writeClockOffset params.clockOffset,
      params.allowRoleSwitch)) (hps trivial)
  | readRemoteName address pageScanRepMode clockOffset =>
    exact reads_eq (a := (address, pageScanRepMode, 0, writeClockOffset clockOffset)) (hps trivial)
  | inquiry lap len maxResp =>
    have hread : reads ((le 3).pair (byte.pair byte)).whole (fun p => inquiry (.ofNat p.1.val) p.2.1 p.2.2) _ =
        some (inquiry (.ofNat (lapField lap).val) len maxResp) :=
      reads_eq (a := (lapField lap, len, maxResp)) ((hps trivial).trans (congrArg (· ++ _) (lapBytes_eq lap)))
    rw [ofNat_lapField] at hread
    exact hread
  | periodicInquiry minPeriod maxPeriod lap len maxResp =>
    have hread : reads (u16.pair (u16.pair ((le 3).pair (byte.pair byte)))).whole
        (fun p => periodicInquiry p.2.1 p.1 (.ofNat p.2.2.1.val) p.2.2.2.1 p.2.2.2.2) _ =
        some (periodicInquiry minPeriod maxPeriod (.ofNat (lapField lap).val) len maxResp) :=
      reads_eq (a := (maxPeriod, minPeriod, lapField lap, len, maxResp))
        ((hps trivial).trans (congrArg (leBytes 2 _ ++ leBytes 2 _ ++ · ++ _) (lapBytes_eq lap)))
    rw [ofNat_lapField] at hread
    exact hread
  | readStoredLinkKey address | deleteStoredLinkKey address =>
    cases address with
    | some a => exact readKeyOwner_eq (hps trivial)
    | none =>
      exact readKeyOwner_eq (a := ⟨mem 0, mem 1, mem 2, mem 3, mem 4, mem 5⟩) (parameters_anyKey rfl rfl mem)
  | pinCodeReqReply address pin => exact readPin_build h mem
  | setEventFilter filterType condType filterData =>
    obtain ⟨hocf, hogf⟩ := build_filter_opcode filterType condType filterData
    rw [hocf, hogf]
    exact readEventFilter_build h mem
  | writeStoredLinkKey keys => exact readLinkKeys_build h mem
  | writeLocalName name =>
    have hread : reads (bytes bteHciMaxNameLen).whole (fun p => writeLocalName (p.1.takeWhile (· ≠ 0))) _ =
        some (writeLocalName ((strncpy name bteHciMaxNameLen).takeWhile (· ≠ 0))) :=
      reads_eq (f := (bytes bteHciMaxNameLen).whole) (a := ⟨strncpy name bteHciMaxNameLen, length_strncpy name _⟩)
        ((hps trivial).trans (List.append_nil _))
    rw [takeWhile_strncpy] at hread
    exact hread
  | writeCurrentIacLap laps => exact readLaps_build h mem
  | vendorCommand ocf data =>
    have hread : readParameters 0x3F (ocf.toNat % 1024) _ = some (vendorCommand (.ofNat (ocf.toNat % 1024)) data) :=
      congrArg (fun ps => some (vendorCommand (.ofNat (ocf.toNat % 1024)) ps))
        ((hps trivial).trans (List.append_nil data))
    rw [toNat_buildVendor] at hread
    exact hread

/-- Tiles leave the block as long as it was. -/
theorem length_parameters {p : CommandPacket} {ss : List (Nat × List UInt8)} (hp : p.stores.Perm ss) {i n : Nat}
    (h : Tiles i n ss) (hn : n ≤ p.len.toNat - 3) (mem : Nat → UInt8) : (p.parameters mem).length = p.len.toNat - 3 := by
  have hlen := h.length
  rw [parameters_tiles hp h hn, List.length_append, List.length_append, List.length_take, List.length_drop, length_heap]
  omega

theorem length_build (c : HciCall) (h : c.Fits) (mem : Nat → UInt8) :
    (c.build.parameters mem).length = c.build.len.toNat - 3 := by
  by_cases hs : c.Stored
  · exact length_parameters c.perm_inOrder (c.tiles_inOrder h hs) (Nat.le_refl _) mem
  · cases c with
    | pinCodeReqReply address pin =>
      have hlt : pin.length < 16 := Nat.lt_succ_of_lt (Nat.lt_of_not_le hs)
      have hps := congrArg List.length (parameters_pin address hlt mem)
      rw [hps]
      simp only [List.length_append, List.length_cons, List.length_drop, length_heap]
      show 6 + _ = 23
      omega
    | readStoredLinkKey address | deleteStoredLinkKey address =>
      cases address with
      | none => exact congrArg List.length (parameters_anyKey rfl rfl mem)
      | some a => exact (hs trivial).elim
    | _ => exact (hs trivial).elim

theorem three_le_len (c : HciCall) (h : c.Fits) : 3 ≤ c.build.len.toNat := by
  cases c with
  | setEventFilter filterType condType filterData =>
    have hle := condLen_le filterType condType
    by_cases hclear : filterType = bteHciEventFilterTypeClear
    · rw [build_filterClear hclear]
      exact Nat.le_of_ble_eq_true rfl
    · rw [build_filter hclear]
      show 3 ≤ (4 + UInt8.ofNat (1 + condLen filterType condType)).toNat
      rw [UInt8.toNat_add, toNat_ofNat_of_le (by omega)]
      show 3 ≤ (4 + _) % 256
      omega
  | writeStoredLinkKey keys =>
    have hle : keys.length ≤ 11 := h
    show 3 ≤ (UInt8.ofNat (3 + 1 + keys.length * 22)).toNat
    rw [toNat_ofNat_of_le (by omega)]
    omega
  | writeCurrentIacLap laps =>
    have hle : laps.length ≤ 83 := h
    show 3 ≤ (UInt8.ofNat (4 + 3 * laps.length)).toNat
    rw [toNat_ofNat_of_le (by omega)]
    omega
  | vendorCommand ocf data =>
    have hle : data.length ≤ 252 := h
    show 3 ≤ (3 + UInt8.ofNat data.length).toNat
    rw [UInt8.toNat_add, toNat_ofNat_of_le (by omega)]
    show 3 ≤ (3 + _) % 256
    omega
  | _ => exact Nat.le_of_ble_eq_true rfl

/-- The opcode and the length byte are read. -/
theorem readCommand_parameters (c : HciCall) (h : c.Fits) (mem : Nat → UInt8) : readCommand (c.build.bytes mem) =
    readParameters (c.build.ogf.toNat % 64) (c.build.ocf.toNat % 1024) (c.build.parameters mem) := by
  have hlen := length_build c h mem
  have hbyte : (c.build.len - hciCmdHdrLen).toNat = c.build.len.toNat - 3 :=
    UInt8.toNat_sub_of_le _ _ (three_le_len c h)
  have hopcode : leVal (opcodeLe c.build.ocf c.build.ogf) =
      c.build.ogf.toNat % 64 * 1024 + c.build.ocf.toNat % 1024 := by
    rw [opcodeLe, leVal_leBytes, toNat_buildOpcode]
    omega
  have hread : readCommand (c.build.bytes mem) =
      if (c.build.parameters mem).length = (c.build.len - hciCmdHdrLen).toNat then
        readParameters (leVal (opcodeLe c.build.ocf c.build.ogf) / 1024)
          (leVal (opcodeLe c.build.ocf c.build.ogf) % 1024) (c.build.parameters mem)
      else none := rfl
  have hogf : (c.build.ogf.toNat % 64 * 1024 + c.build.ocf.toNat % 1024) / 1024 = c.build.ogf.toNat % 64 := by omega
  have hocf : (c.build.ogf.toNat % 64 * 1024 + c.build.ocf.toNat % 1024) % 1024 = c.build.ocf.toNat % 1024 := by omega
  rw [hread, hbyte, if_pos hlen, hopcode, hogf, hocf]

/-- **A command is read back as the call that made it**, whatever was in the buffer before. -/
theorem readCommand_build (c : HciCall) (h : c.Fits) (mem : Nat → UInt8) :
    readCommand (c.build.bytes mem) = some c.seen := by
  rw [readCommand_parameters c h mem]
  exact readParameters_build c h mem

/-- Two stored keys, and a PIN of four bytes in a buffer full of something else. -/
theorem readCommand_build_keys :
    readCommand ((build (.writeStoredLinkKey [⟨⟨1, 2, 3, 4, 5, 6⟩, ⟨List.replicate 16 7, rfl⟩⟩,
      ⟨⟨9, 8, 7, 6, 5, 4⟩, ⟨List.replicate 16 5, rfl⟩⟩])).bytes fun _ => 0xAA) =
      some (.writeStoredLinkKey [⟨⟨1, 2, 3, 4, 5, 6⟩, ⟨List.replicate 16 7, rfl⟩⟩,
        ⟨⟨9, 8, 7, 6, 5, 4⟩, ⟨List.replicate 16 5, rfl⟩⟩]) ∧
    readCommand ((build (.pinCodeReqReply ⟨1, 2, 3, 4, 5, 6⟩ [0x31, 0x32, 0x33, 0x34])).bytes fun _ => 0xAA) =
      some (.pinCodeReqReply ⟨1, 2, 3, 4, 5, 6⟩ [0x31, 0x32, 0x33, 0x34]) :=
  ⟨readCommand_build _ (Nat.le_of_ble_eq_true rfl) _, readCommand_build _ (Nat.le_of_ble_eq_true rfl) _⟩

/-- **What is sent depends on what was in the buffer before only for a PIN of less than fifteen bytes and for the two
functions that mean every stored key**, which leave the place of the address as it was. -/
theorem unstored_iff (c : HciCall) (h : c.Fits) :
    (∀ mem mem', c.build.bytes mem = c.build.bytes mem') ↔ c.Stored := by
  constructor
  · intro hall
    -- a buffer of zeros and one of ones
    have hps := List.append_cancel_left (hall (fun _ => 0) fun _ => 1)
    cases c with
    | pinCodeReqReply address pin =>
      refine Nat.le_of_not_lt fun hlt => ?_
      have hpin : pin.length < 16 := Nat.lt_succ_of_lt hlt
      rw [parameters_pin address hpin, parameters_pin address hpin] at hps
      have htail := (List.cons.inj (List.append_cancel_left (List.cons.inj (List.append_cancel_left hps)).2)).2
      rw [List.map_const', List.map_const', List.length_range, List.drop_replicate, List.drop_replicate,
        List.replicate_inj] at htail
      rcases htail.2 with hnone | hsame
      · omega
      · exact absurd hsame (by decide)
    | readStoredLinkKey address | deleteStoredLinkKey address =>
      cases address with
      | some a => trivial
      | none =>
        rw [parameters_anyKey rfl rfl, parameters_anyKey rfl rfl] at hps
        exact absurd hps (by decide)
    | _ => trivial
  · intro hs mem mem'
    rw [CommandPacket.bytes, CommandPacket.bytes, parameters_stored c h hs, parameters_stored c h hs]

theorem unstored_iff_pin :
    (∀ mem mem', (build (.pinCodeReqReply ⟨1, 2, 3, 4, 5, 6⟩ (List.replicate 15 0x31))).bytes mem =
      (build (.pinCodeReqReply ⟨1, 2, 3, 4, 5, 6⟩ (List.replicate 15 0x31))).bytes mem') ∧
    ¬ ∀ mem mem', (build (.readStoredLinkKey none)).bytes mem = (build (.readStoredLinkKey none)).bytes mem' :=
  ⟨(unstored_iff _ (Nat.le_of_ble_eq_true rfl)).2 (Nat.le_of_ble_eq_true rfl),
    fun h => (unstored_iff (.readStoredLinkKey none) trivial).1 h⟩

end

/-! ## The functions modelled elsewhere -/

theorem zipIdx_range {α : Type} (f : Nat → α) (n : Nat) :
    ((List.range n).map f).zipIdx = (List.range n).map fun i => (f i, i) := by
  have hzip : ((List.range n).map f).zip ((List.range n).map id) = (List.range n).map fun i => (f i, id i) :=
    List.zip_map'
  rw [List.map_id] at hzip
  rw [List.zipIdx_eq_zip_range', List.length_map, List.length_range, ← List.range_eq_range', hzip]
  rfl

theorem ofInt_natCast (n : Nat) : UInt8.ofInt n = UInt8.ofNat n := by
  refine UInt8.toNat_inj.1 ?_
  rw [UInt8.ofInt, UInt8.toNat_ofNat', UInt8.toNat_ofNat']
  omega

theorem addPendingCommand_some {dev : HciDev} {ocf : UInt16} {ogf : UInt8} (h : ¬ dev.Refuses ocf ogf) (hci : Option Hci)
    (len : Nat) (complete clientCb : FnPtr) (userdata : Ptr) (stores : List (Nat × List UInt8)) :
    (addPendingCommand dev hci ocf ogf len complete clientCb userdata stores).1 =
      some ⟨(UInt8.ofNat len).toNat, hciCommandAlloc ocf ogf (.ofNat len), stores⟩ := by
  have hsome : ¬ (dev.allocSlot (commandMatcher hciCommandComplete (opcodeLe ocf ogf))).isNone = true :=
    fun hnone => h (Option.isNone_iff_eq_none.1 hnone)
  rw [addPendingCommand_fst, if_neg hsome, ofInt_natCast]

/-- The three functions whose length the caller chooses get the buffer and make the stores that `build` says, unless the
table refuses the command. -/
theorem addPendingCommand_build (dev : HciDev) (hci : Option Hci) (complete clientCb : FnPtr) (userdata : Ptr) :
    (∀ (n : Nat) keys, ¬ dev.Refuses hciWStoredLinkKeyOcf hciHcBbOgf →
      (bteHciWriteStoredLinkKey dev hci n keys complete clientCb userdata).1 =
        some (build (.writeStoredLinkKey ((List.range n).map keys))).buffer) ∧
    (∀ numLaps laps, ¬ dev.Refuses hciWCurIaclapOcf hciHcBbOgf →
      (bteHciWriteCurrentIacLap dev hci numLaps laps complete clientCb userdata).1 =
        some (build (.writeCurrentIacLap ((List.range numLaps.toNat).map laps))).buffer) ∧
    (∀ ocf data len, ¬ dev.Refuses ocf hciVendorOgf →
      (bteHciVendorCommand dev hci ocf data len complete clientCb userdata).1 =
        some (build (.vendorCommand ocf ((List.range len.toNat).map data))).buffer) := by
  refine ⟨fun n keys h => ?_, fun numLaps laps h => ?_, fun ocf data len h => ?_⟩
  · refine (addPendingCommand_some h hci (3 + 1 + n * 22) complete clientCb userdata _).trans ?_
    simp only [build, CommandPacket.buffer, List.length_map, List.length_range, List.map_cons, zipIdx_range,
      List.map_flatMap, List.flatMap_map, List.map_nil, ofInt_natCast, Int.toNat_natCast, ← Nat.add_assoc]
    rfl
  · have hplace : ∀ i, i * 3 = 3 * i := fun i => Nat.mul_comm i 3
    refine (addPendingCommand_some h hci (4 + 3 * numLaps.toNat) complete clientCb userdata _).trans ?_
    simp only [build, CommandPacket.buffer, List.length_map, List.length_range, List.map_cons, zipIdx_range,
      List.map_map, Function.comp_def, UInt8.ofNat_toNat, hplace, ← Nat.add_assoc]
    rfl
  · refine (addPendingCommand_some h hci (3 + len.toNat) complete clientCb userdata _).trans ?_
    simp only [build, CommandPacket.buffer, List.length_map, List.length_range, List.map_cons, List.map_nil,
      UInt8.ofNat_toNat, UInt8.ofNat_add]
    rfl

/-- The commands of the drivers are made by these functions. -/
theorem command_build (callback : Nat) (mem : Nat → UInt8) :
    (InitStage.bteHciReset callback).command = (build .reset).bytes mem ∧
    (InitStage.bteHciReadBufferSize callback).command = (build .readBufferSize).bytes mem ∧
    (InitStage.bteHciReadLocalVersion callback).command = (build .readLocalVersion).bytes mem ∧
    (InitStage.bteHciReadBdAddr callback).command = (build .readBdAddr).bytes mem ∧
    (InitStage.bteHciReadLocalFeatures callback).command = (build .readLocalFeatures).bytes mem ∧
    ∀ ocf data, data.length ≤ 252 →
      (InitStage.bteHciVendorCommand ocf data callback).command = (build (.vendorCommand ocf data)).bytes mem := by
  refine ⟨rfl, rfl, rfl, rfl, rfl, fun ocf data hle => ?_⟩
  have hps : (build (.vendorCommand ocf data)).parameters mem = data :=
    (parameters_stored (.vendorCommand ocf data) hle trivial mem).trans (List.append_nil data)
  rw [CommandPacket.bytes, hps]
  rfl

end HciCall

end Bte
