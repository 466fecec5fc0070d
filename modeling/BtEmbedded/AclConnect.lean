import BtEmbedded.AsyncCompletion
import BtEmbedded.L2capSignalling
/-!
# AclConnect — ACL connections and the channels that wait for them (acl.c, l2cap.c)

`AclNet` is the device with its ACLs and the channels on them: `bte_l2cap_new_outgoing` finds or makes an ACL, asks the
controller for a connection or for authentication, and leaves the channel in the ACL's table; the controller's events then
set the flags of the ACL and start the channels.  ACLs, like channels, are named by the number of their allocation.

A slot of the pending-command table holds a raw pointer to its ACL, and `bte_acl_free` leaves it there.  The log says when
that happens: what an event does to an ACL that was freed so, or to the next one in its block, is not modelled.

The connect callback of a channel runs in the middle of this, and may call `bte_l2cap_new_outgoing` again:
`NetHost.react` is what it does.  One log records what the channels did, what was asked of the controller and which
completion events reached an ACL, in the order in which it happened.
-/
namespace Bte

open Bytes

/-! ## Data -/

def bteConnHandleInvalid : UInt16 := 0xffff

/-- `connect_status_cb`, `connect_cb` and `auth_requested_cb` of acl.c, as the device stores them. -/
def connectStatusFn : FnPtr := .client 0
def connectFn : FnPtr := .client 1
def authRequestedFn : FnPtr := .client 2

/-! ## Errands

A slot of the pending-command table runs an errand for an ACL: to connect it or to authenticate it, first as a command that
waits for its Command Status, then as a listener. -/

inductive Errand
  | connect
  | authenticate
deriving DecidableEq

/-- The event that ends it. -/
def Errand.code : Errand → UInt8
  | .connect => hciConnectionComplete
  | .authenticate => hciAuthComplete

/-- The callback of its listener. -/
def Errand.fn : Errand → FnPtr
  | .connect => connectFn
  | .authenticate => authRequestedFn

/-- What a slot is for, by the function it holds. -/
def FnPtr.errand (fn : FnPtr) : Option Errand :=
  if fn = .status .createConnectionStatusCb ∨ fn = connectFn then some .connect
  else if fn = .status .commonReadConnectionStatusCb ∨ fn = authRequestedFn then some .authenticate
  else none

/-- The errand of a slot in use, and its ACL. -/
def HciDev.errand (dev : HciDev) (i : Fin 8) : Option (Errand × Nat) :=
  if dev.Occupied i then (dev.pendingCommands i).commandCb.word0.errand.map (·, (dev.pendingCommands i).userdata) else none

/-! ## ACLs -/

/-- `BteAclL2cap`. -/
structure Acl where
  refCount : Int
  hci : Hci
  address : BdAddr
  connHandle : UInt16
  authenticationRequired : Bool
  authenticationRequested : Bool
  authenticationCompleted : Bool
  /-- Whether `disconnected_cb` is set. -/
  disconnectedCb : Bool
  clients : Fin 4 → Option Nat

/-- How a call found the ACL that it took for channel `p`. -/
structure Join where
  channel : Nat
  acl : Nat
  auth : Bool
  /-- The ACL as it was in the table; none if the call made it. -/
  found : Option Acl
  /-- The channels of the ACL are being told that it is connected. -/
  announcing : Bool

inductive NetEvent
  | l2cap (e : L2event)
  | joined (j : Join)
  /-- Authentication Requested for the handle; `room` is whether the pending-command table has a slot for it. -/
  | authRequested (a : Nat) (connHandle : UInt16) (room : Bool)
  /-- A completion event is handed to the ACL. -/
  | completed (a : Nat) (buffer : List UInt8)
  /-- The connection of the ACL is gone. -/
  | lost (a : Nat)
  /-- The block of the ACL is given back; `busy` is whether a slot still holds a pointer to it. -/
  | freed (a : Nat) (busy : Bool)
  /-- `l2cap_setup_acl` writes through NULL. -/
  | crashed

structure AclNet where
  dev : HciDev
  acls : Nat → Acl
  aclsAllocated : Nat
  /-- The `acls` of the device. -/
  table : Fin 7 → Option Nat
  /-- The clients whose `disconnection_complete_cb` is that of acl.c. -/
  listening : Hci → Bool
  /-- The channels and what the ACLs share; its table and its log are only used inside `link`. -/
  l2cap : L2capLink
  /-- The `acl` of a channel, and the flag it was created with. -/
  aclOf : Nat → Nat
  auth : Nat → Bool
  /-- The ACLs whose channels are being told that they are connected, the innermost first. -/
  announcing : List Nat
  log : List NetEvent

/-- What surrounds the code: the backend, and what the connect callbacks do. -/
structure NetHost where
  l2cap : L2capHost
  react : L2capCallback → AclNet → AclNet

/-- The host the channels of one ACL see.  A channel that is not connected has no callback for its state. -/
def NetHost.forAcl (host : NetHost) (acl : Acl) : L2capHost :=
  { host.l2cap with connHandle := acl.connHandle.toNat, react := fun _ w => w }

/-- A call of `bte_l2cap_new_outgoing`; `auth` is the flag `BTE_L2CAP_CONNECT_FLAG_AUTH`. -/
structure OutgoingCall where
  hci : Hci
  address : BdAddr
  psm : Nat
  auth : Bool
  callback : Nat
  userdata : Nat

namespace AclNet

def record (net : AclNet) (e : NetEvent) : AclNet := { net with log := net.log ++ [e] }

def modifyAcl (net : AclNet) (a : Nat) (f : Acl → Acl) : AclNet :=
  { net with acls := Function.update net.acls a (f (net.acls a)) }

/-- One ACL with its channels, as l2cap.c sees it. -/
def link (net : AclNet) (a : Nat) : L2capLink := { net.l2cap with clients := (net.acls a).clients, log := [] }

/-- What happened on the link happened to the net. -/
def setLink (net : AclNet) (a : Nat) (w : L2capLink) : AclNet :=
  { net.modifyAcl a (fun acl => { acl with clients := w.clients }) with
    l2cap := { w with log := [] }
    log := net.log ++ w.log.map .l2cap }

/-- A function of the client runs, on behalf of channel `p`. -/
def call (net : AclNet) (host : NetHost) (p : Nat) (c : L2capCallback) : AclNet :=
  host.react c (net.record (.l2cap (.callback p c)))

/-! ## ACLs (acl.c) -/

def findAclByConnHandle (net : AclNet) (connHandle : UInt16) : Option Nat :=
  (List.finRange 7).findSome? fun k =>
    (net.table k).bind fun a => if (net.acls a).connHandle = connHandle then some a else none

def bteAclGetForAddress (net : AclNet) (address : BdAddr) : Option Nat :=
  (List.finRange 7).findSome? fun k =>
    (net.table k).bind fun a => if (net.acls a).address = address then some a else none

/-- `bte_acl_disconnected` up to its callback. -/
def loseConnection (net : AclNet) (a : Nat) : AclNet :=
  let out := net.l2cap.dev
  { net.modifyAcl a (fun acl => { acl with connHandle := bteConnHandleInvalid }) with
    l2cap := { net.l2cap with dev := { out with
      outgoingAclPackets := cancelOutgoing (net.acls a).connHandle.toNat out.outgoingAclPackets
      trace := out.trace ++ [.disconnected (net.acls a).connHandle.toNat] } }
    log := net.log ++ [.lost a] }

/-- The loop that takes the ACL out of the table. -/
def leaveTable (net : AclNet) (a : Nat) : AclNet :=
  match (List.finRange 7).find? fun k => net.table k = some a with
  | none => net
  | some k => { net with table := Function.update net.table k none }

/-- A slot of the pending-command table runs an errand for the ACL. -/
def busy (net : AclNet) (a : Nat) : Bool :=
  (List.finRange 8).any fun i => (net.dev.errand i).any fun e => e.2 = a

/-- `bte_acl_free`: no callback is made, and no pending command is cancelled. -/
def bteAclFree (net : AclNet) (a : Nat) : AclNet :=
  (((net.modifyAcl a fun acl => { acl with disconnectedCb := false }).loseConnection a).leaveTable a).record
    (.freed a (net.busy a))

def bteAclRef (net : AclNet) (a : Nat) : AclNet :=
  net.modifyAcl a fun acl => { acl with refCount := acl.refCount + 1 }

def bteAclUnref (net : AclNet) (a : Nat) : AclNet :=
  let refCount := (net.acls a).refCount
  let net := net.modifyAcl a fun acl => { acl with refCount := acl.refCount - 1 }
  if refCount = 1 then net.bteAclFree a else net

def bteAclDisconnect (net : AclNet) (a : Nat) : AclNet :=
  if (net.acls a).connHandle = bteConnHandleInvalid then net
  else { net with dev := bteHciPlainAsync net.dev (net.acls a).hci .disconnect .null 0 }

/-- The slot an asynchronous command would get. -/
def roomFor (net : AclNet) (ocf : UInt16) (ogf len : UInt8) : Bool :=
  (net.dev.allocSlot (commandMatcher hciCommandStatus ((hciCommandAlloc ocf ogf len).take 2))).isSome

def bteAclRequestAuth (net : AclNet) (a : Nat) : AclNet :=
  let acl := net.acls a
  if acl.authenticationRequested then net
  else
    { net.modifyAcl a (fun acl => { acl with authenticationRequested := true }) with
      dev := bteHciAuthRequested net.dev acl.hci acl.connHandle .null authRequestedFn a
      log := net.log ++ [.authRequested a acl.connHandle (net.roomFor 0x11 0x01 5)] }

/-- `bte_acl_new` for an ACL of l2cap.c, with its callbacks; none if the table is full. -/
def bteAclNew (net : AclNet) (hci : Hci) (address : BdAddr) : Option (Nat × AclNet) :=
  ((List.finRange 7).find? fun k => (net.table k).isNone).map fun k =>
    (net.aclsAllocated, { net with
      acls := Function.update net.acls net.aclsAllocated
        ⟨1, hci, address, bteConnHandleInvalid, false, false, false, true, fun _ => none⟩
      aclsAllocated := net.aclsAllocated + 1
      table := Function.update net.table k (some net.aclsAllocated)
      listening := Function.update net.listening hci true
      dev := bteHciDevInstallEventHandler
        (bteHciDevInstallEventHandler net.dev hciDisconnectionComplete (some .disconnectionCompleteEventCb))
        hciNbrOfCompletedPackets (some .nrOfCompletedPacketsEventCb) })

/-! ## Channels (l2cap.c) -/

def bteL2capUnref (net : AclNet) (p : Nat) : AclNet :=
  let refCount := (net.l2cap.channels p).refCount
  let net := { net with l2cap := net.l2cap.modify p fun l2cap => { l2cap with refCount := l2cap.refCount - 1 } }
  if refCount = 1 then
    let a := net.aclOf p
    let net := net.setLink a (aclL2capRemoveClient (net.link a) p)
    let net := if (List.finRange 4).all fun i => ((net.acls a).clients i).isNone then net.bteAclDisconnect a else net
    net.bteAclUnref a
  else net

/-- A call of the function in `cmd_data.connect`, as `connected` makes it on one link. -/
def connected (net : AclNet) (host : NetHost) (about : Nat) (cb : L2capClientCb) (reply : Option ConnectionResponse)
    (userdata : Nat) : AclNet :=
  let net := net.record (.l2cap (.connectCb about cb reply))
  match cb with
  | .client _ f => net.call host about (.connect f none reply userdata)
  | _ => net

def l2capConnectionRequest (net : AclNet) (host : NetHost) (p : Nat) : Bool × AclNet :=
  let a := net.aclOf p
  let r := Bte.l2capConnectionRequest (host.forAcl (net.acls a)) (net.link a) p
  (r.1, net.setLink a r.2)

/-- The connection of channel `p` has failed. -/
def refuse (net : AclNet) (host : NetHost) (p : Nat) : AclNet :=
  let l2cap := net.l2cap.channels p
  let reply : ConnectionResponse := ⟨0, 0, connRespResErrResource, connRespStatusNoInfo⟩
  (net.connected host p l2cap.clientCb (some reply) l2cap.userdata).bteL2capUnref p

def aclL2capConnectedCb (net : AclNet) (host : NetHost) (p : Nat) (status : UInt8) : AclNet :=
  if status ≠ 0 then net.refuse host p
  else
    let r := net.l2capConnectionRequest host p
    if r.1 then r.2 else r.2.refuse host p

/-- What a loop over the ACL's table does for one entry. -/
def turn (a : Nat) (f : AclNet → Nat → AclNet) (net : AclNet) (i : Fin 4) : AclNet :=
  match (net.acls a).clients i with
  | none => net
  | some p => f net p

/-- A loop over the ACL's table as it is at each turn. -/
def forClients (net : AclNet) (a : Nat) (f : AclNet → Nat → AclNet) : AclNet := (List.finRange 4).foldl (turn a f) net

/-- `acl_connected_cb`, with the ACL noted while its channels are started. -/
def aclConnectedCb (net : AclNet) (host : NetHost) (a : Nat) (status : UInt8) : AclNet :=
  let net := net.bteAclRef a
  let net :=
    if status = 0 then
      let net := { net with announcing := a :: net.announcing }
      let net := net.forClients a fun net p => net.aclL2capConnectedCb host p status
      { net with announcing := net.announcing.tail }
    else net.forClients a fun net p => net.aclL2capConnectedCb host p status
  net.bteAclUnref a

/-- The first half of `l2cap_disconnect_cb`: a configuration gets the reply that the link is gone. -/
def configureLost (net : AclNet) (host : NetHost) (p : Nat) : AclNet :=
  let l2cap := net.l2cap.channels p
  match l2cap.state, l2cap.clientCb with
  | .waitConfigReqRsp, .client _ f => net.call host p (.configure f p ⟨0xfffffff, 0xfffffff, .zero⟩ l2cap.cmdUserdata)
  | _, _ => net

/-- The second half: a connect gets its reply, else the client hears of the link. -/
def connectLost (net : AclNet) (host : NetHost) (p : Nat) (reason : UInt8) : AclNet :=
  let l2cap := net.l2cap.channels p
  if l2cap.remoteChannelId = 0 then net.refuse host p
  else
    match l2cap.aclDisconnectCb with
    | none => net
    | some f => net.call host p (.aclDisconnect f p reason.toNat l2cap.userdata)

def l2capDisconnectCb (net : AclNet) (host : NetHost) (p : Nat) (reason : UInt8) : AclNet :=
  (net.configureLost host p).connectLost host p reason

def aclDisconnectedCb (net : AclNet) (host : NetHost) (a : Nat) (reason : UInt8) : AclNet :=
  net.forClients a fun net p => net.l2capDisconnectCb host p reason

def bteAclDisconnected (net : AclNet) (host : NetHost) (a : Nat) (reason : UInt8) : AclNet :=
  let net := net.loseConnection a
  let net :=
    if (net.acls a).disconnectedCb then
      let net := (net.bteAclRef a).modifyAcl a fun acl => { acl with disconnectedCb := false }
      (net.aclDisconnectedCb host a reason).bteAclUnref a
    else net
  net.leaveTable a

/-! ## The callbacks of acl.c -/

def connectStatusCb (net : AclNet) (host : NetHost) (a : Nat) (status : UInt8) : AclNet :=
  if status ≠ 0 then net.aclConnectedCb host a status else net

def authRequestedCb (net : AclNet) (host : NetHost) (a : Nat) (status : UInt8) : AclNet :=
  let net := if status = 0 then net.modifyAcl a fun acl => { acl with authenticationCompleted := true } else net
  net.aclConnectedCb host a status

def connectCb (net : AclNet) (host : NetHost) (a : Nat) (status : UInt8) (connHandle : UInt16) : AclNet :=
  if status = 0 then
    let net := net.modifyAcl a fun acl => { acl with connHandle := connHandle }
    if (net.acls a).authenticationRequired ∧ ¬ (net.acls a).authenticationCompleted then net.bteAclRequestAuth a
    else net.aclConnectedCb host a status
  else net.aclConnectedCb host a status

/-- A call through a pointer to one of them; all their replies start with the status.  One to anything else is not
followed. -/
def callFn (net : AclNet) (host : NetHost) (fn : FnPtr) (a : Nat) (status : UInt8) (connHandle : UInt16) : AclNet :=
  if fn = connectStatusFn then net.connectStatusCb host a status
  else if fn = connectFn then net.connectCb host a status connHandle
  else if fn = authRequestedFn then net.authRequestedCb host a status
  else net

/-! ## Connecting -/

/-- `bte_acl_connect`: a command that gets no slot is refused before the function returns. -/
def bteAclConnect (net : AclNet) (host : NetHost) (a : Nat) (auth : Bool) : AclNet :=
  let net := net.modifyAcl a fun acl => { acl with authenticationRequired := acl.authenticationRequired || auth }
  let acl := net.acls a
  let room := net.roomFor 0x05 0x01 16
  let net := { net with dev := bteHciCreateConnection net.dev acl.hci acl.address connectStatusFn connectFn a }
  if room then net else net.connectStatusCb host a bteHciMemoryFull

/-- `bte_l2cap_new`. -/
def bteL2capNew (net : AclNet) : AclNet :=
  { net with
    l2cap := { net.l2cap.alloc true |>.2 with log := [] }
    log := net.log ++ [.l2cap (.created net.l2cap.allocated true)] }

/-- The channel takes the ACL. -/
def takeAcl (net : AclNet) (p a : Nat) (auth : Bool) (found : Option Acl) : AclNet :=
  { net with
    aclOf := Function.update net.aclOf p a
    auth := Function.update net.auth p auth
    log := net.log ++ [.joined ⟨p, a, auth, found, decide (a ∈ net.announcing)⟩] }

/-- The end of `bte_l2cap_new_outgoing`: the channel joins the ACL's table, and starts if the ACL is ready. -/
def startChannel (net : AclNet) (host : NetHost) (p a : Nat) (call : OutgoingCall) : AclNet :=
  match aclL2capAddClient (net.link a) p with
  | none => (net.bteL2capUnref p).connected host p (.client .connect call.callback) none call.userdata
  | some w =>
    let net := net.setLink a (w.modify p fun l2cap => { l2cap with
      userdata := call.userdata, psm := call.psm, clientCb := .client .connect call.callback })
    if (net.acls a).connHandle ≠ bteConnHandleInvalid ∧
        (net.acls a).authenticationCompleted = (net.acls a).authenticationRequired then
      let r := net.l2capConnectionRequest host p
      if r.1 then r.2 else (r.2.bteL2capUnref p).connected host p (.client .connect call.callback) none call.userdata
    else net

def bteL2capNewOutgoing (net : AclNet) (host : NetHost) (call : OutgoingCall) : AclNet :=
  let p := net.l2cap.allocated
  let net := net.bteL2capNew
  match net.bteAclGetForAddress call.address with
  | some a =>
    let net := (net.bteAclRef a).takeAcl p a call.auth (some (net.acls a))
    let net :=
      if call.auth then (net.modifyAcl a fun acl => { acl with authenticationRequired := true }).bteAclRequestAuth a
      else net
    net.startChannel host p a call
  | none =>
    match net.bteAclNew call.hci call.address with
    | none => net.record .crashed
    | some (a, net) => ((net.takeAcl p a call.auth none).bteAclConnect host a call.auth).startChannel host p a call

/-! ## Events -/

/-- A client that does nothing; the functions of acl.c are called by this module. -/
def noClient : ClientCb := fun dev => (false, dev)

/-- `callStatus`: of the status functions of acl.c's commands, only one calls a function of it. -/
def callStatus (net : AclNet) (host : NetHost) (fn : FnPtr) (hci : Option Hci) (status : UInt8) (pc : Fin 8) : AclNet :=
  if fn = .status .commonReadConnectionStatusCb ∧ status ≠ 0 then
    let d := net.dev.asyncCmdData hci
    let slot := net.dev.pendingCommands pc
    let net :=
      if slot.commandCb.word1 = .null ∧ d.clientCb ≠ .null then net.callFn host d.clientCb slot.userdata status 0 else net
    { net with dev := bteHciDevFreeCommand net.dev pc }
  else { net with dev := Bte.callStatus net.dev noClient fn hci status pc }

def deliverStatusToClient (net : AclNet) (host : NetHost) (buffer : List UInt8) : AclNet :=
  match bteHciDevFindPendingCommand net.dev buffer with
  | none => net
  | some pc =>
    let slot := net.dev.pendingCommands pc
    let status := buffer.getD hciCmdStatusPosStatus 0
    let net :=
      if slot.commandCb.word0 = .null then { net with dev := bteHciDevFreeCommand net.dev pc }
      else net.callStatus host slot.commandCb.word0 slot.hci status pc
    if slot.commandCb.word1 = .null then net else net.callFn host slot.commandCb.word1 slot.userdata status 0

/-- The handle a completion event is about. -/
def completedHandle (buffer : List UInt8) : UInt16 := UInt16.ofNat (leVal (slice buffer 3 2))

/-- `conn_complete_event_cb` and `auth_complete_event_cb`. -/
def completionEvent (net : AclNet) (host : NetHost) (buffer : List UInt8) : AclNet :=
  match bteHciDevFindPendingCommand net.dev buffer with
  | none => net
  | some pc =>
    let slot := net.dev.pendingCommands pc
    let net := { net with dev := bteHciDevFreeCommand net.dev pc }
    if slot.commandCb.word0 = .null then net
    else
      (net.record (.completed slot.userdata buffer)).callFn host slot.commandCb.word0 slot.userdata (buffer.getD 2 0)
        (completedHandle buffer)

/-- `disconnection_complete_event_cb`: the clients of acl.c have one and the same callback. -/
def disconnectionCompleteEventCb (net : AclNet) (host : NetHost) (buffer : List UInt8) : AclNet :=
  if (List.finRange 4).any fun i => (net.dev.clients i).any net.listening then
    match net.findAclByConnHandle (completedHandle buffer) with
    | none => net
    | some a => net.bteAclDisconnected host a (buffer.getD 5 0)
  else net

def runHandler (net : AclNet) (host : NetHost) (buffer : List UInt8) : EventHandler → AclNet
  | .connCompleteEventCb => net.completionEvent host buffer
  | .authCompleteEventCb => net.completionEvent host buffer
  | .disconnectionCompleteEventCb => net.disconnectionCompleteEventCb host buffer
  | .nrOfCompletedPacketsEventCb =>
    { net with l2cap := { net.l2cap with dev := nrOfCompletedPacketsEventCb host.l2cap.rc net.l2cap.dev buffer } }
  | e => { net with dev := Bte.runHandler net.dev noClient buffer e }

def handleEvent (net : AclNet) (host : NetHost) (buffer : List UInt8) : AclNet :=
  let net :=
    if buffer.getD 0 0 = hciCommandStatus then
      { net with dev := { net.dev with numPackets := buffer.getD 3 0 } }.deliverStatusToClient host buffer
    else { net with dev := net.dev.deliver noClient buffer }
  match bteHciDevHandlerForEvent net.dev (buffer.getD 0 0) with
  | none => net
  | some h => net.runHandler host buffer h

end AclNet

/-! ## Runs -/

/-- The connect callbacks: the calls each makes, from what it is told and the net as it finds it. -/
def NetClient : Type := L2capCallback → AclNet → List OutgoingCall

/-- A host whose client may be called back inside its own calls, down to a depth. -/
def NetHost.client (host : L2capHost) (client : NetClient) : Nat → NetHost
  | 0 => ⟨host, fun _ net => net⟩
  | depth + 1 => ⟨host, fun c net =>
      (client c net).foldl (fun net call => net.bteL2capNewOutgoing (NetHost.client host client depth) call) net⟩

inductive NetOp
  | newOutgoing (call : OutgoingCall)
  | event (buffer : List UInt8)

def AclNet.step (host : NetHost) (net : AclNet) : NetOp → AclNet
  | .newOutgoing call => net.bteL2capNewOutgoing host call
  | .event buffer => net.handleEvent host buffer

/-- An initialised device with the given clients, and no ACL. -/
def AclNet.start (clients : Fin 4 → Option Hci) (out : AclOut) : AclNet where
  dev := { HciDev.init with initStatus := .initialized, clients := clients, notified := 4 }
  acls := fun _ => ⟨0, 0, ⟨0, 0, 0, 0, 0, 0⟩, bteConnHandleInvalid, false, false, false, false, fun _ => none⟩
  aclsAllocated := 0
  table := fun _ => none
  listening := fun _ => false
  l2cap := .start out
  aclOf := fun _ => 0
  auth := fun _ => false
  announcing := []
  log := []

end Bte
