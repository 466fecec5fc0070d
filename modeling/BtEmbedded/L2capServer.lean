import BtEmbedded.HciDev
import BtEmbedded.Lib.Run
/-!
# L2capServer — the servers, and who is asked about a peer (l2cap_server.c, client.c, hci.c)

A request of a peer goes to the clients in the order of their slots until a function says yes.  A client that has servers
asks each of them, the newest first; whoever says yes accepts the connection, and if nobody does the library refuses it.
Servers and incoming connections hold references on their clients, the users of the library hold the others.

A function that the library calls may call the library again.  So a request stops at each function it asks (`asking`),
whatever the function does comes as operations of the run, and `returns` goes on from there.  Servers and clients are
numbered as they are made.  Whether the table of pending commands takes a command is not fixed here (`taken`), nor is
whether there is room for an ACL or a channel.  An accept command stays with its server, as it does in the code unless the
client's next asynchronous command overwrites what the accept keeps there until its Command Status (`Single`).
-/
namespace Bte

def bteLinkTypeAcl : UInt8 := 1
def bteHciRoleSlave : UInt8 := 1
def bteHciHostRejectedBdAddr : UInt8 := 0x0F
def bteHciScanEnableOff : UInt8 := 0
def bteHciScanEnablePage : UInt8 := 2

/-- The events that ask the clients. -/
inductive RequestKind where
  | connection
  | linkKey
  | pinCode
deriving DecidableEq, Repr

/-- What is in the event; only a connection request has the last two. -/
structure RequestEvent where
  kind : RequestKind
  address : BdAddr
  cod : Nat
  linkType : UInt8
deriving DecidableEq

/-- `hci_connection_request_cb` of l2cap_server.c, or a function of the client's own. -/
inductive RequestCb where
  | server
  | client (fn : Ptr)
deriving DecidableEq

/-- The fields of a `BteClient` that requests, references and scans need. -/
structure ServingClient where
  refCount : Nat
  userdata : Ptr
  requestCb : RequestKind → Option RequestCb
  scanMode : UInt8

structure L2capServer where
  refCount : Nat
  hci : Hci
  psm : UInt16
  role : UInt8
  needsAuth : Bool
  connectedCb : Option Ptr
  userdata : Ptr
  connectionRequestCb : Option Ptr
  connectionRequestUserdata : Ptr

/-- What is asked: the function of a client, or the one of a server of it. -/
structure Listener where
  hci : Hci
  server : Option Ptr
deriving DecidableEq, Repr

/-- A function is being asked. -/
structure Asking where
  request : RequestEvent
  slot : Fin 4
  listener : Listener
deriving DecidableEq

inductive ServingCommand where
  | acceptConnection (hci : Hci) (address : BdAddr) (role : UInt8)
  | rejectConnection (address : BdAddr) (reason : UInt8)
  | linkKeyReqNegReply (address : BdAddr)
  | pinCodeReqNegReply (address : BdAddr)
  | authRequested (hci : Hci) (connHandle : UInt16)
  | writeScanEnable (scanEnable : UInt8)
deriving DecidableEq

/-- A call of a function that a client gave. -/
inductive ServingCall where
  | request (fn : Ptr) (hci : Hci) (request : RequestEvent) (userdata : Ptr)
  | connectionRequest (fn server : Ptr) (address : BdAddr) (cod : Nat) (userdata : Ptr)
  | connected (fn server l2cap userdata : Ptr)
deriving DecidableEq

/-- How a request ended: who said yes, if anyone, and the command that the table took. -/
structure RequestAnswer where
  request : RequestEvent
  granted : Option Listener
  command : Option ServingCommand
  /-- Who there was to be asked when the request came in. -/
  audience : List Listener
  /-- Who said no. -/
  declined : List Listener
deriving DecidableEq

structure Serving where
  clients : Fin 4 → Option Hci
  client : Hci → ServingClient
  /-- `s_servers`. -/
  servers : List Ptr
  server : Ptr → L2capServer
  /-- `_bte_l2cap_handle_connection_req` is set. -/
  handlesConnectionReq : Bool
  /-- The events of requests that have a handler. -/
  handled : RequestKind → Bool
  /-- The accept commands whose Connection Complete has not come, each with its server. -/
  accepting : List (Hci × Ptr)
  /-- The clients of the asynchronous commands whose Command Status has not come. -/
  unsettled : List Hci
  /-- The incoming connections, each with its client. -/
  acls : List Hci
  asking : Option Asking
  stopped : Bool
  commands : List ServingCommand
  calls : List ServingCall
  madeClients : Nat
  madeServers : Nat
  /-- The references of the users. -/
  held : Hci → Nat
  /-- The requests that came in. -/
  requests : List RequestEvent
  /-- Who there was to be asked when the last of them came in, and who of them said no. -/
  audience : List Listener
  declined : List Listener
  answers : List RequestAnswer
  /-- A client with a mode has been freed since the last scan command. -/
  scanLeft : Bool

namespace Serving

def start : Serving where
  clients _ := none
  client _ := ⟨0, 0, fun _ => none, 0⟩
  servers := []
  server _ := ⟨0, 0, 0, 0, false, none, 0, none, 0⟩
  handlesConnectionReq := false
  handled _ := false
  accepting := []
  unsettled := []
  acls := []
  asking := none
  stopped := false
  commands := []
  calls := []
  madeClients := 0
  madeServers := 0
  held _ := 0
  requests := []
  audience := []
  declined := []
  answers := []
  scanLeft := false

variable (s : Serving)

def setClient (h : Hci) (c : ServingClient) : Serving := { s with client := Function.update s.client h c }

def setServer (p : Ptr) (v : L2capServer) : Serving := { s with server := Function.update s.server p v }

/-- A command, if the table takes it. -/
def send (taken : Bool) (c : ServingCommand) : Serving := if taken then { s with commands := s.commands ++ [c] } else s

/-- An asynchronous command of a client, which keeps its data in the client until its Command Status comes. -/
def sendAsync (h : Hci) (taken : Bool) (c : ServingCommand) : Serving :=
  if taken then { s.send true c with unsettled := s.unsettled ++ [h] } else s

/-- The program reads what it had freed, calls `NULL`, or does not get past an assertion. -/
def halt : Serving := { s with stopped := true }

/-! ## Clients and scans -/

def bteClientRef (h : Hci) : Serving := s.setClient h { s.client h with refCount := (s.client h).refCount + 1 }

/-- `bte_client_free`: the pending commands of the client go with it (`hci_dev_dispose`). -/
def bteClientFree (h : Hci) : Serving :=
  { s with
    clients := fun i => if s.clients i = some h then none else s.clients i
    accepting := s.accepting.filter fun a => a.1 ≠ h
    unsettled := s.unsettled.filter (· ≠ h)
    scanLeft := s.scanLeft || decide ((s.client h).scanMode ≠ 0) }

def bteClientUnref (h : Hci) : Serving :=
  let s' := s.setClient h { s.client h with refCount := (s.client h).refCount - 1 }
  if (s.client h).refCount = 1 then s'.bteClientFree h else s'

/-- The slot that `_bte_hci_dev_add_client` takes. -/
def freeSlot : Option (Fin 4) := (List.finRange 4).find? fun i => s.clients i = none

/-- A new client in a slot. -/
def withClient (i : Fin 4) : Serving :=
  { s.setClient s.madeClients ⟨1, 0, fun _ => none, 0⟩ with
    clients := Function.update s.clients i (some s.madeClients)
    madeClients := s.madeClients + 1
    held := Function.update s.held s.madeClients 1 }

/-- `bte_client_new`; a client that finds no slot is freed again. -/
def bteClientNew : Serving :=
  match s.freeSlot with
  | none => { s with madeClients := s.madeClients + 1 }
  | some i => s.withClient i

/-- `_bte_hci_dev_combined_scan_mode`. -/
def combinedScanMode : UInt8 :=
  (List.finRange 4).foldl (fun mode i => match s.clients i with
    | none => mode
    | some h => mode ||| (s.client h).scanMode) 0

def bteHciWriteScanEnable (h : Hci) (scanEnable : UInt8) (taken : Bool) : Serving :=
  if taken then
    let s := s.setClient h { s.client h with scanMode := scanEnable }
    { s.send true (.writeScanEnable s.combinedScanMode) with scanLeft := false }
  else s

/-- `bte_hci_on_connection_request`, `bte_hci_on_link_key_request` and `bte_hci_on_pin_code_request`. -/
def bteHciOnRequest (h : Hci) (kind : RequestKind) (callback : Option RequestCb) : Serving :=
  { s.setClient h { s.client h with requestCb := Function.update (s.client h).requestCb kind callback } with
    handled := Function.update s.handled kind true }

/-! ## Servers -/

def bteL2capServerNew (h : Hci) (psm : UInt16) : Serving :=
  let p := s.madeServers
  { (s.bteClientRef h).setServer p ⟨1, h, psm, bteHciRoleSlave, false, none, 0, none, 0⟩ with
    handlesConnectionReq := true, servers := p :: s.servers, madeServers := p + 1 }

def bteL2capServerRef (p : Ptr) : Serving := s.setServer p { s.server p with refCount := (s.server p).refCount + 1 }

/-- The list without the server. -/
def unlist (p : Ptr) : Serving := { s with servers := s.servers.filter (· ≠ p) }

/-- The scan is for the servers: it ends with the last of them. -/
def endScan (h : Hci) (taken : Bool) : Serving :=
  if s.servers = [] then s.bteHciWriteScanEnable h bteHciScanEnableOff taken else s

def bteL2capServerFree (p : Ptr) (taken : Bool) : Serving :=
  ((s.unlist p).endScan (s.server p).hci taken).bteClientUnref (s.server p).hci

def bteL2capServerUnref (p : Ptr) (taken : Bool) : Serving :=
  let s' := s.setServer p { s.server p with refCount := (s.server p).refCount - 1 }
  if (s.server p).refCount = 1 then s'.bteL2capServerFree p taken else s'

def bteL2capServerOnConnected (p : Ptr) (connectedCb : Option Ptr) (userdata : Ptr) (taken : Bool) : Serving :=
  let h := (s.server p).hci
  let s := s.setServer p { s.server p with connectedCb := connectedCb, userdata := userdata }
  (s.bteHciOnRequest h .connection (some .server)).bteHciWriteScanEnable h bteHciScanEnablePage taken

/-- The first server for the PSM. -/
def serverForPsm (psm : UInt16) : Option Ptr := s.servers.find? fun p => (s.server p).psm = psm

/-! ## Requests -/

/-- Who is asked next, or who accepts without being asked. -/
inductive Found where
  | ask (slot : Fin 4) (listener : Listener)
  | accept (hci : Hci) (server : Ptr)
  | nobody

/-- The loop of `hci_connection_request_cb` over the servers from here on. -/
def searchServers (slot : Fin 4) (h : Hci) : List Ptr → Option Found
  | [] => none
  | p :: rest =>
    if (s.server p).hci ≠ h then searchServers slot h rest
    else
      match (s.server p).connectionRequestCb with
      | none => some (.accept h p)
      | some _ => some (.ask slot ⟨h, some p⟩)

/-- `_bte_hci_dev_foreach_hci_client` over the slots from here on. -/
def searchClients (r : RequestEvent) : List (Fin 4) → Found
  | [] => .nobody
  | slot :: rest =>
    match s.clients slot with
    | none => searchClients r rest
    | some h =>
      match (s.client h).requestCb r.kind with
      | none => searchClients r rest
      | some (.client _) => .ask slot ⟨h, none⟩
      | some .server =>
        if r.linkType = bteLinkTypeAcl then (s.searchServers slot h s.servers).getD (searchClients r rest)
        else searchClients r rest

def slotsAfter (slot : Fin 4) : List (Fin 4) := (List.finRange 4).drop (slot.val + 1)

/-- The servers behind this one. -/
def serversAfter (p : Ptr) : List Ptr := (s.servers.dropWhile (· ≠ p)).tail

/-- The call of a function. -/
def ServingCall.ofListener (s : Serving) (r : RequestEvent) (l : Listener) : List ServingCall :=
  match l.server with
  | some p =>
    ((s.server p).connectionRequestCb.map fun fn =>
      ServingCall.connectionRequest fn p r.address r.cod (s.server p).connectionRequestUserdata).toList
  | none =>
    match (s.client l.hci).requestCb r.kind with
    | some (.client fn) => [.request fn l.hci r (s.client l.hci).userdata]
    | _ => []

/-- The library's own answer to a request that nobody wants. -/
def refusal (r : RequestEvent) : ServingCommand :=
  match r.kind with
  | .connection => .rejectConnection r.address bteHciHostRejectedBdAddr
  | .linkKey => .linkKeyReqNegReply r.address
  | .pinCode => .pinCodeReqNegReply r.address

/-- A request is over. -/
def answer (r : RequestEvent) (granted : Option Listener) (command : Option ServingCommand) : Serving :=
  { s with
    asking := none
    commands := s.commands ++ command.toList
    answers := s.answers ++ [⟨r, granted, command, s.audience, s.declined⟩] }

/-- The server accepts the connection. -/
def accept (r : RequestEvent) (h : Hci) (p : Ptr) (taken : Bool) : Serving :=
  if taken then
    { s.answer r (some ⟨h, some p⟩) (some (.acceptConnection h r.address (s.server p).role)) with
      accepting := s.accepting ++ [(h, p)], unsettled := s.unsettled ++ [h] }
  else s.answer r (some ⟨h, some p⟩) none

def proceed (r : RequestEvent) (taken : Bool) : Found → Serving
  | .ask slot l => { s with asking := some ⟨r, slot, l⟩, calls := s.calls ++ ServingCall.ofListener s r l }
  | .accept h p => s.accept r h p taken
  | .nobody => s.answer r none (if taken then some (refusal r) else none)

/-- The function that was asked has said no. -/
def decline (l : Listener) : Serving := { s with declined := s.declined ++ [l] }

/-- What comes after a function that said no: of a client, or of the server `p`. -/
def searchOn (a : Asking) : Found :=
  match a.listener.server with
  | none => s.searchClients a.request (slotsAfter a.slot)
  | some p =>
    (s.searchServers a.slot a.listener.hci (s.serversAfter p)).getD (s.searchClients a.request (slotsAfter a.slot))

/-- A function that was asked has returned. -/
def resume (a : Asking) (ret taken : Bool) : Serving :=
  match a.listener.server with
  | none =>
    if ret then s.answer a.request (some a.listener) none
    else (s.decline a.listener).proceed a.request taken (s.searchOn a)
  | some p =>
    if (s.server p).refCount = 0 then s.halt
    else if ret then s.accept a.request a.listener.hci p taken
    else (s.decline a.listener).proceed a.request taken (s.searchOn a)

def returned (ret taken : Bool) : Serving :=
  match s.asking with
  | none => s
  | some a => s.resume a ret taken

/-- The servers of a client among these. -/
def serversIn (h : Hci) (l : List Ptr) : List Listener :=
  (l.filter fun p => (s.server p).hci = h).map fun p => ⟨h, some p⟩

/-- Who there is to be asked in a slot: the function of the client, or its servers if it leaves it to them. -/
def listenersAt (r : RequestEvent) (slot : Fin 4) : List Listener :=
  match s.clients slot with
  | none => []
  | some h =>
    match (s.client h).requestCb r.kind with
    | none => []
    | some (.client _) => [⟨h, none⟩]
    | some .server => if r.linkType = bteLinkTypeAcl then s.serversIn h s.servers else []

def listeners (r : RequestEvent) : List Listener := (List.finRange 4).flatMap (s.listenersAt r)

def receive (r : RequestEvent) : Serving :=
  { s with requests := s.requests ++ [r], audience := s.listeners r, declined := [] }

/-- The event of a request comes in; nobody looks at it before a function was given for its kind. -/
def request (r : RequestEvent) (taken : Bool) : Serving :=
  if s.handled r.kind then (s.receive r).proceed r taken (s.searchClients r (List.finRange 4)) else s

/-! ## Connections and channels -/

/-- The request for authentication of `hci_accept_connection_cb`. -/
def authenticate (h : Hci) (p : Ptr) (connHandle : UInt16) (taken : Bool) : Serving :=
  if (s.server p).needsAuth then s.sendAsync h taken (.authRequested h connHandle) else s

/-- `_bte_l2cap_acl_new_connected`, which writes to what `bte_acl_new_connected` returns: `NULL` if there is no room for
an ACL. -/
def l2capAclNewConnected (h : Hci) (room : Bool) : Serving :=
  if room then { s.bteClientRef h with acls := s.acls ++ [h] } else s.halt

def hciAcceptConnectionCb (h : Hci) (p : Ptr) (status : UInt8) (connHandle : UInt16) (taken room : Bool) : Serving :=
  if status ≠ 0 then s
  else if (s.server p).refCount = 0 then s.halt
  else (s.authenticate h p connHandle taken).l2capAclNewConnected h room

/-- An accept command is over: its Command Status was an error, or its Connection Complete has come. -/
def endAccept (i : Nat) (reply : Option (UInt8 × UInt16)) (taken room : Bool) : Serving :=
  match s.accepting[i]? with
  | none => s
  | some a =>
    let s := { s with accepting := s.accepting.eraseIdx i }
    match reply with
    | none => s
    | some r => s.hciAcceptConnectionCb a.1 a.2 r.1 r.2 taken room

/-- `acl_l2cap_handle_connection_req` up to the server: `room` is whether the ACL has room for a channel. -/
def handleConnectionReq (psm : UInt16) (l2cap : Ptr) (room : Bool) : Serving :=
  if s.handlesConnectionReq then
    match s.serverForPsm psm with
    | none => s
    | some p =>
      if room then
        -- `on_l2cap_state_changed` looks for the server again, and `rely_to_client` calls its function
        match (s.server p).connectedCb with
        | none => s.halt
        | some fn => { s with calls := s.calls ++ [.connected fn p l2cap (s.server p).userdata] }
      else s.halt
  else s

end Serving

inductive ServingOp where
  | clientNew
  | clientRef (h : Hci)
  | clientUnref (h : Hci)
  | setUserdata (h : Hci) (userdata : Ptr)
  | onRequest (h : Hci) (kind : RequestKind) (callback : Option Ptr)
  | writeScanEnable (h : Hci) (scanEnable : UInt8) (taken : Bool)
  /-- Another asynchronous command of the client. -/
  | asyncCommand (h : Hci) (taken : Bool)
  | serverNew (h : Hci) (psm : UInt16)
  | serverRef (p : Ptr)
  | serverUnref (p : Ptr) (taken : Bool)
  | setNeedsAuth (p : Ptr) (needsAuth : Bool)
  | setRole (p : Ptr) (role : UInt8)
  | onConnected (p : Ptr) (connectedCb : Option Ptr) (userdata : Ptr) (taken : Bool)
  | onConnectionRequest (p : Ptr) (callback : Option Ptr) (userdata : Ptr)
  /-- The event of a request. -/
  | request (r : RequestEvent) (taken : Bool)
  /-- The function that is being asked returns. -/
  | returns (ret taken : Bool)
  /-- The Command Status of an asynchronous command of the client. -/
  | commandStatus (h : Hci)
  /-- The accept command is over. -/
  | accepted (i : Nat) (reply : Option (UInt8 × UInt16)) (taken room : Bool)
  /-- An incoming connection is freed. -/
  | aclFreed (h : Hci)
  /-- A Connection Request for a channel. -/
  | connectionReq (psm : UInt16) (l2cap : Ptr) (room : Bool)
deriving DecidableEq

namespace Serving

/-- One operation, while the program runs. -/
def act (s : Serving) : ServingOp → Serving
  | .clientNew => s.bteClientNew
  | .clientRef h => { s.bteClientRef h with held := Function.update s.held h (s.held h + 1) }
  | .clientUnref h => ({ s with held := Function.update s.held h (s.held h - 1) } : Serving).bteClientUnref h
  | .setUserdata h u => s.setClient h { s.client h with userdata := u }
  | .onRequest h kind callback => s.bteHciOnRequest h kind (callback.map .client)
  | .writeScanEnable h scanEnable taken => s.bteHciWriteScanEnable h scanEnable taken
  | .asyncCommand h taken => if taken then { s with unsettled := s.unsettled ++ [h] } else s
  | .serverNew h psm => s.bteL2capServerNew h psm
  | .serverRef p => s.bteL2capServerRef p
  | .serverUnref p taken => s.bteL2capServerUnref p taken
  | .setNeedsAuth p needsAuth => s.setServer p { s.server p with needsAuth := needsAuth }
  | .setRole p role => s.setServer p { s.server p with role := role }
  | .onConnected p cb u taken => s.bteL2capServerOnConnected p cb u taken
  | .onConnectionRequest p cb u =>
    s.setServer p { s.server p with connectionRequestCb := cb, connectionRequestUserdata := u }
  | .request r taken => s.request r taken
  | .returns ret taken => s.returned ret taken
  | .commandStatus h => { s with unsettled := s.unsettled.erase h }
  | .accepted i reply taken room => s.endAccept i reply taken room
  | .aclFreed h => ({ s with acls := s.acls.erase h } : Serving).bteClientUnref h
  | .connectionReq psm l2cap room => s.handleConnectionReq psm l2cap room

def step (s : Serving) (o : ServingOp) : Serving := if s.stopped then s else s.act o

end Serving

namespace ServingOp

/-- What the callers keep to: a function is called on what somebody still has a reference to, a client gives back its own
references, and no event is worked on while a function that was asked has not returned. -/
def Legal (s : Serving) : ServingOp → Prop
  | .clientNew => True
  | .clientRef h | .setUserdata h _ | .onRequest h _ _ | .writeScanEnable h _ _ | .asyncCommand h _ | .serverNew h _ =>
    (s.client h).refCount ≠ 0
  | .clientUnref h => s.held h ≠ 0
  | .serverRef p | .serverUnref p _ | .setNeedsAuth p _ | .setRole p _ | .onConnected p .. | .onConnectionRequest p .. =>
    (s.server p).refCount ≠ 0
  | .request .. | .commandStatus _ | .accepted .. | .connectionReq .. => s.asking = none
  | .returns .. => s.asking ≠ none
  | .aclFreed h => s.asking = none ∧ h ∈ s.acls

instance decidableLegal (s : Serving) : ∀ o : ServingOp, Decidable (o.Legal s)
  | .clientNew => .isTrue trivial
  | .clientRef _ | .setUserdata .. | .onRequest .. | .writeScanEnable .. | .asyncCommand .. | .serverNew ..
  | .clientUnref _ | .serverRef _ | .serverUnref .. | .setNeedsAuth .. | .setRole .. | .onConnected ..
  | .onConnectionRequest .. | .returns .. => inferInstanceAs (Decidable (_ ≠ _))
  | .request .. | .commandStatus _ | .accepted .. | .connectionReq .. => inferInstanceAs (Decidable (_ = _))
  | .aclFreed _ => inferInstanceAs (Decidable (_ ∧ _))

/-- What the program does not check: a server is there when its function returns and when the connection it accepted
comes up, a server that is found for a channel has a function for it, and there is room for the ACL and the channel. -/
def Careful (s : Serving) : ServingOp → Prop
  | .returns .. => ∀ a ∈ s.asking, ∀ p ∈ a.listener.server, (s.server p).refCount ≠ 0
  | .accepted i reply _ room => ∀ a ∈ s.accepting[i]?, ∀ r ∈ reply, r.1 = 0 → (s.server a.2).refCount ≠ 0 ∧ room = true
  | .connectionReq psm _ room => ∀ p ∈ s.serverForPsm psm, (s.server p).connectedCb.isSome = true ∧ room = true
  | _ => True

instance decidableCareful (s : Serving) : ∀ o : ServingOp, Decidable (o.Careful s)
  | .returns .. => inferInstanceAs (Decidable (∀ a ∈ s.asking, ∀ p ∈ a.listener.server, (s.server p).refCount ≠ 0))
  | .accepted i reply _ room => inferInstanceAs
    (Decidable (∀ a ∈ s.accepting[i]?, ∀ r ∈ reply, r.1 = 0 → (s.server a.2).refCount ≠ 0 ∧ room = true))
  | .connectionReq psm _ room => inferInstanceAs
    (Decidable (∀ p ∈ s.serverForPsm psm, (s.server p).connectedCb.isSome = true ∧ room = true))
  | .clientNew | .clientRef _ | .clientUnref _ | .setUserdata .. | .onRequest .. | .writeScanEnable .. | .asyncCommand ..
  | .serverNew .. | .serverRef _ | .serverUnref .. | .setNeedsAuth .. | .setRole .. | .onConnected ..
  | .onConnectionRequest .. | .request .. | .commandStatus _ | .aclFreed _ => .isTrue trivial

/-- No client gives an asynchronous command while another one of it waits for its Command Status: both would keep their
data in the one `last_async_cmd_data`, and an accept would then wait for the other's peer. -/
def Single (s : Serving) (o : ServingOp) : Prop := (s.step o).unsettled.Nodup

instance decidableSingle (s : Serving) (o : ServingOp) : Decidable (o.Single s) :=
  inferInstanceAs (Decidable (List.Nodup _))

end ServingOp

end Bte
