import BtEmbedded.AclConnect
import Mathlib.Logic.Relation
/-!
# AclMoves — what the code can do to the ACLs

Everything `bte_l2cap_new_outgoing` and the controller's events do is a sequence of `Move`s: a few straight pieces of code
that no callback interrupts.  What each move does to the flags of the ACLs, to the channels and to the pending commands is
said here once; an invariant of the ACLs is then a case analysis over the moves.
-/
namespace Bte

open Bytes

/-! ## Errands -/

theorem errand_eq {dev dev' : HciDev} {i : Fin 8} (h : dev'.pendingCommands i = dev.pendingCommands i) :
    dev'.errand i = dev.errand i := by
  have ho : dev'.Occupied i ↔ dev.Occupied i := by rw [HciDev.Occupied, HciDev.Occupied, h]
  by_cases hd : dev.Occupied i
  · rw [HciDev.errand, HciDev.errand, if_pos hd, if_pos (ho.2 hd), h]
  · rw [HciDev.errand, HciDev.errand, if_neg hd, if_neg fun h' => hd (ho.1 h')]

/-- The slot holds a `bte_hci_disconnect`. -/
def PendingCommand.IsDisconnect (pc : PendingCommand) : Prop :=
  pc.commandCb = ⟨.null, .null⟩ ∧ ∃ opcode : List UInt8, opcode.length = 2 ∧
    pc.matcher = commandMatcher hciCommandStatus opcode

/-- The handlers that the code of acl.c installs. -/
def aclHandlers : List (UInt8 × EventHandler) :=
  [(hciConnectionComplete, .connCompleteEventCb), (hciAuthComplete, .authCompleteEventCb),
    (hciDisconnectionComplete, .disconnectionCompleteEventCb), (hciNbrOfCompletedPackets, .nrOfCompletedPacketsEventCb)]

/-- No other handlers came. -/
def HandlersFrom (dev dev' : HciDev) : Prop :=
  ∀ code e, bteHciDevHandlerForEvent dev' code = some e → bteHciDevHandlerForEvent dev code = some e ∨
      (code, e) ∈ aclHandlers

theorem handlersFrom_of_eq {dev dev' : HciDev} (h : dev'.eventHandlers = dev.eventHandlers) : HandlersFrom dev dev' := by
  intro code e he
  left
  rwa [bteHciDevHandlerForEvent, h] at he

/-- No slot is taken but for a disconnection, and nothing is written for a command. -/
structure Still (dev dev' : HciDev) : Prop where
  data : dev'.lastAsyncCmdData = dev.lastAsyncCmdData
  stores : dev'.stores = dev.stores
  handlers : HandlersFrom dev dev'
  slots : ∀ i, dev'.Occupied i → dev'.pendingCommands i = dev.pendingCommands i ∨ (dev'.pendingCommands i).IsDisconnect

namespace Still

theorem of_slots {dev dev' : HciDev} (hd : dev'.lastAsyncCmdData = dev.lastAsyncCmdData) (hs : dev'.stores = dev.stores)
    (hh : dev'.eventHandlers = dev.eventHandlers) (hp : dev'.pendingCommands = dev.pendingCommands) : Still dev dev' :=
  ⟨hd, hs, handlersFrom_of_eq hh, fun i _ => .inl (congrFun hp i)⟩

theorem refl (dev : HciDev) : Still dev dev := .of_slots rfl rfl rfl rfl

theorem trans {dev dev' dev'' : HciDev} (h : Still dev dev') (h' : Still dev' dev'') : Still dev dev'' where
  data := h'.data.trans h.data
  stores := h'.stores.trans h.stores
  handlers := by
    intro code e he
    rcases h'.handlers code e he with h1 | h1
    · exact h.handlers code e h1
    · exact .inr h1
  slots := by
    intro i ho
    rcases h'.slots i ho with hi | hi
    · have ho' : dev'.Occupied i := by rwa [HciDev.Occupied, hi] at ho
      rw [hi]
      exact h.slots i ho'
    · exact .inr hi

theorem errand {dev dev' : HciDev} (h : Still dev dev') (i : Fin 8) : dev'.errand i = dev.errand i ∨
    dev'.errand i = none := by
  by_cases ho : dev'.Occupied i
  · rcases h.slots i ho with hs | hs
    · exact .inl (errand_eq hs)
    · exact .inr (by rw [HciDev.errand, if_pos ho, hs.1]; rfl)
  · exact .inr (if_neg ho)

end Still

theorem still_free (dev : HciDev) (pc : Fin 8) : Still dev (bteHciDevFreeCommand dev pc) := by
  refine ⟨rfl, rfl, handlersFrom_of_eq rfl, fun i ho => .inl ?_⟩
  have hi : i ≠ pc := by
    rintro rfl
    exact not_occupied_free dev i ho
  rw [free_pendingCommands, Function.update_of_ne hi]

theorem errand_free (dev : HciDev) (pc i : Fin 8) :
    (bteHciDevFreeCommand dev pc).errand i = if i = pc then none else dev.errand i := by
  by_cases hi : i = pc
  · subst hi
    rw [if_pos rfl, HciDev.errand, if_neg (not_occupied_free dev i)]
  · rw [if_neg hi]
    exact errand_eq (by rw [free_pendingCommands, Function.update_of_ne hi])

theorem still_disconnect (dev : HciDev) (h : Hci) (u : Ptr) : Still dev (bteHciPlainAsync dev h .disconnect .null u) := by
  unfold bteHciPlainAsync bteHciDevAddPendingAsyncCommand
  rw [addCommand_snd]
  have hl := opcode_length PlainAsync.disconnect.opcode.1 PlainAsync.disconnect.opcode.2.1 PlainAsync.disconnect.opcode.2.2
  generalize (hciCommandAlloc PlainAsync.disconnect.opcode.1 PlainAsync.disconnect.opcode.2.1
    PlainAsync.disconnect.opcode.2.2).take 2 = opcode at hl
  simp only [if_true]
  cases hs : dev.allocSlot (commandMatcher hciCommandStatus opcode) with
  | none => exact .of_slots rfl rfl rfl rfl
  | some s =>
    simp only
    rw [allocWith_eq, hs]
    refine ⟨rfl, rfl, handlersFrom_of_eq rfl, fun i _ => ?_⟩
    by_cases hi : i = s
    · subst hi
      exact .inr ⟨by simp [HciDev.setSlot], opcode, hl, by simp [HciDev.setSlot]⟩
    · exact .inl (by simp [HciDev.setSlot, HciDev.logRequest, hi])

/-! ## Asynchronous commands -/

/-- A command of `h` took slot `s`, with its data stored by `f`. -/
structure Sent (dev dev' : HciDev) (h : Hci) (fn : StatusFn) (statusCb : FnPtr) (u : Ptr)
    (f : AsyncCmdData → AsyncCmdData) (s : Fin 8) : Prop where
  data : dev'.lastAsyncCmdData = Function.update dev.lastAsyncCmdData h (f (dev.lastAsyncCmdData h))
  slot : ∃ opcode : List UInt8, opcode.length = 2 ∧
    dev'.pendingCommands s = ⟨commandMatcher hciCommandStatus opcode, some h, u, ⟨.status fn, statusCb⟩⟩
  other : ∀ j, j ≠ s → dev'.pendingCommands j = dev.pendingCommands j
  handlers : dev'.eventHandlers = dev.eventHandlers
  stores : ∃ b, dev'.stores = dev.stores ++ [⟨h, b⟩] ∧ (b = false → ∀ j, j ≠ s → ¬ (dev.pendingCommands j).AwaitsStatus h)

theorem command_not_empty {opcode : List UInt8} (hl : opcode.length = 2) :
    bteDataMatcherIsEmpty (commandMatcher hciCommandStatus opcode) = false :=
  (built_command (E := fun _ => True) (.inr rfl) hl).not_empty

namespace Sent

variable {dev dev' : HciDev} {h : Hci} {fn : StatusFn} {statusCb : FnPtr} {u : Ptr} {f : AsyncCmdData → AsyncCmdData}
  {s : Fin 8}

theorem occupied (hi : Sent dev dev' h fn statusCb u f s) : dev'.Occupied s := by
  obtain ⟨opcode, hl, hs⟩ := hi.slot
  rw [HciDev.Occupied, hs]
  exact command_not_empty hl

theorem errand (hi : Sent dev dev' h fn statusCb u f s) (i : Fin 8) :
    dev'.errand i = if i = s then (FnPtr.status fn).errand.map (·, u) else dev.errand i := by
  by_cases his : i = s
  · subst his
    obtain ⟨opcode, -, hs⟩ := hi.slot
    rw [if_pos rfl, HciDev.errand, if_pos hi.occupied, hs]
  · rw [if_neg his]
    exact errand_eq (hi.other i his)

end Sent

theorem sent_cases (dev : HciDev) (h : Hci) (ocf : UInt16) (ogf len : UInt8) (fn : StatusFn) (statusCb : FnPtr) (u : Ptr)
    (f : AsyncCmdData → AsyncCmdData) (dev' : HciDev) (hd : dev' = HciDev.storing
      (bteHciDevAddPendingAsyncCommand dev (some h) ocf ogf len (.status fn) statusCb u) h f) :
    Still dev dev' ∨ ∃ s, Sent dev dev' h fn statusCb u f s := by
  have hl := opcode_length ocf ogf len
  cases hs : dev.allocSlot (commandMatcher hciCommandStatus ((hciCommandAlloc ocf ogf len).take 2)) with
  | none =>
    simp only [bteHciDevAddPendingAsyncCommand, bteHciDevAddCommand, bteHciDevAllocCommand, hs, HciDev.storing] at hd
    subst hd
    left
    split <;> exact .of_slots rfl rfl rfl rfl
  | some s =>
    simp only [bteHciDevAddPendingAsyncCommand, bteHciDevAddCommand, bteHciDevAllocCommand, hs] at hd
    subst hd
    refine .inr ⟨s, ?_⟩
    simp only [HciDev.storing, HciDev.storeCommand, HciDev.setAsyncCmdData, HciDev.setSlot, HciDev.logRequest,
      HciDev.lastSlot, List.getLast?_append, List.getLast?_singleton, Option.some_or, Option.bind_some]
    refine ⟨rfl, ⟨_, hl, by simp⟩, fun j hj => by simp [hj], rfl, _, rfl, ?_⟩
    intro hb
    obtain ⟨h1, -⟩ := not_or.1 (of_decide_eq_false hb)
    refine fun j hj ha => h1 ⟨j, by simpa using hj, ?_⟩
    simpa [hj] using ha

/-! ## Moves -/

/-- The channel a Connection Request is for. -/
def L2event.request : L2event → Option Nat
  | .emitted p code _ _ => if code = l2capSignalConnReq then p else none
  | _ => none

def NetEvent.request : NetEvent → Option Nat
  | .l2cap e => e.request
  | _ => none

namespace AclNet

/-- The two places where a channel is started: its ACL is ready, or is being announced. -/
def MayRequest (net : AclNet) (p : Nat) : Prop :=
  (p < net.l2cap.allocated ∧
    (net.acls (net.aclOf p)).authenticationCompleted = (net.acls (net.aclOf p)).authenticationRequired) ∨
  ∃ a i, (net.acls a).clients i = some p ∧ a ∈ net.announcing

/-- What is logged by a move that changes no flag. -/
def Allows (net : AclNet) : NetEvent → Prop
  | .l2cap e => ∀ p, e.request = some p → net.MayRequest p
  | .completed _ buffer => buffer.getD 2 0 ≠ 0
  | .crashed => True
  | .joined _ => False
  | .authRequested .. => False
  | .lost _ => False
  | .freed .. => True

end AclNet

/-- What the controller said about the ACL. -/
structure Acl.Same (acl acl' : Acl) : Prop where
  connHandle : acl'.connHandle = acl.connHandle
  required : acl'.authenticationRequired = acl.authenticationRequired
  requested : acl'.authenticationRequested = acl.authenticationRequested
  completed : acl'.authenticationCompleted = acl.authenticationCompleted

/-- No ACL and no channel changes but for channels that join or leave the table of their ACL. -/
structure Keeps (net net' : AclNet) : Prop where
  log : ∃ es, net'.log = net.log ++ es ∧ ∀ e ∈ es, net.Allows e
  allocated : net.l2cap.allocated ≤ net'.l2cap.allocated
  aclOf : net'.aclOf = net.aclOf
  auth : net'.auth = net.auth
  announcing : net'.announcing = net.announcing
  aclsAllocated : net'.aclsAllocated = net.aclsAllocated
  acls : ∀ a, (net.acls a).Same (net'.acls a)
  clients : ∀ a i p, (net'.acls a).clients i = some p →
    (net.acls a).clients i = some p ∨ net.aclOf p = a ∧ p < net.l2cap.allocated
  table : ∀ k a, net'.table k = some a → net.table k = some a
  dev : Still net.dev net'.dev

/-- A slot in use, as the code of acl.c fills it. -/
inductive Serves (dev : HciDev) (pc : PendingCommand) : Prop
  | disconnect (h : pc.IsDisconnect)
  | creating (h : Hci) (opcode : List UInt8) (hl : opcode.length = 2)
      (hpc : pc = ⟨commandMatcher hciCommandStatus opcode, some h, pc.userdata,
          ⟨.status .createConnectionStatusCb, connectStatusFn⟩⟩)
      (hd : (dev.lastAsyncCmdData h).clientCb = connectFn)
  | requesting (h : Hci) (opcode : List UInt8) (hl : opcode.length = 2)
      (hpc : pc = ⟨commandMatcher hciCommandStatus opcode, some h, pc.userdata,
          ⟨.status .commonReadConnectionStatusCb, .null⟩⟩)
      (hd : (dev.lastAsyncCmdData h).clientCb = authRequestedFn)
      (hc : (dev.lastAsyncCmdData h).eventCode = hciAuthComplete)
      (hh : (dev.lastAsyncCmdData h).handlerCb = some .authCompleteEventCb)
  | listening (e : Errand) (data : List UInt8) (offset : UInt8) (hl : data.length ≤ 11)
      (hm : pc.matcher = eventDataMatcher e.code data offset)
      (hw : pc.commandCb.word0 = e.fn)

/-- Slot `j` becomes the listener of the command in slot `pc`. -/
structure TakesOver (dev dev' : HciDev) (pc j : Fin 8) : Prop where
  data : dev'.lastAsyncCmdData = dev.lastAsyncCmdData
  stores : dev'.stores = dev.stores
  handlers : HandlersFrom dev dev'
  ne : j ≠ pc
  freed : ¬ dev'.Occupied pc
  serves : Serves dev' (dev'.pendingCommands j)
  errand : dev'.errand j = dev.errand pc
  other : ∀ i, i ≠ j → i ≠ pc → dev'.pendingCommands i = dev.pendingCommands i

namespace AclNet

/-- The command of `bte_acl_request_auth`, if it is called and was not before. -/
def withAuthRequest (net : AclNet) (a : Nat) (connHandle : UInt16) (asks : Bool) : AclNet :=
  if asks then
    { net with
      dev := bteHciAuthRequested net.dev (net.acls a).hci connHandle .null authRequestedFn a
      log := net.log ++ [.authRequested a connHandle (net.roomFor 0x11 0x01 5)] }
  else net

/-- A call takes the ACL `a` of the table. -/
def joinAcl (net : AclNet) (a : Nat) (auth : Bool) : AclNet :=
  let acl := net.acls a
  let new : AclNet := { net.bteL2capNew with
    acls := Function.update net.acls a { acl with
      refCount := acl.refCount + 1
      authenticationRequired := acl.authenticationRequired || auth
      authenticationRequested := acl.authenticationRequested || auth }}
  (new.takeAcl net.l2cap.allocated a auth (some acl)).withAuthRequest a acl.connHandle
    (auth && !acl.authenticationRequested)

/-- A call makes an ACL in slot `k` of the table. -/
def openAcl (net : AclNet) (k : Fin 7) (hci : Hci) (address : BdAddr) (auth : Bool) : AclNet :=
  let a := net.aclsAllocated
  let new : AclNet := { net.bteL2capNew with
    acls := Function.update net.acls a ⟨1, hci, address, bteConnHandleInvalid, auth, false, false, true, fun _ => none⟩
    aclsAllocated := a + 1
    table := Function.update net.table k (some a)
    listening := Function.update net.listening hci true
    dev := bteHciCreateConnection (bteHciDevInstallEventHandler
      (bteHciDevInstallEventHandler net.dev hciDisconnectionComplete (some .disconnectionCompleteEventCb))
      hciNbrOfCompletedPackets (some .nrOfCompletedPacketsEventCb)) hci address connectStatusFn connectFn a }
  new.takeAcl net.l2cap.allocated a auth none

/-- The listener in slot `pc` gets its event. -/
def arrive (net : AclNet) (pc : Fin 8) (buffer : List UInt8) : AclNet :=
  { net with dev := bteHciDevFreeCommand net.dev pc }.record (.completed (net.dev.pendingCommands pc).userdata buffer)

/-- A successful completion event ends the errand in slot `pc`, for ACL `a`. -/
structure Ends (net : AclNet) (pc : Fin 8) (buffer : List UInt8) (e : Errand) (a : Nat) : Prop where
  errand : net.dev.errand pc = some (e, a)
  code : buffer.getD 0 0 = e.code
  status : buffer.getD 2 0 = 0

/-- `connect_cb`, up to its callback. -/
def connectionUp (net : AclNet) (pc : Fin 8) (buffer : List UInt8) (a : Nat) : AclNet :=
  let acl := net.acls a
  let gates := acl.authenticationRequired && !acl.authenticationCompleted
  ((net.arrive pc buffer).modifyAcl a fun acl => { acl with
    connHandle := completedHandle buffer
    authenticationRequested := acl.authenticationRequested || gates }).withAuthRequest a (completedHandle buffer)
    (gates && !acl.authenticationRequested)

/-- `auth_requested_cb`, up to its callback. -/
def authenticated (net : AclNet) (pc : Fin 8) (buffer : List UInt8) (a : Nat) : AclNet :=
  (net.arrive pc buffer).modifyAcl a fun acl => { acl with authenticationCompleted := true }

end AclNet

/-- What a call of `bte_l2cap_new_outgoing`, and the callbacks it or an event makes, do. -/
inductive CallMove (net : AclNet) : AclNet → Prop
  | keeps {net' : AclNet} (h : Keeps net net') : CallMove net net'
  | lost (a : Nat) : CallMove net (net.loseConnection a)
  | joined (k : Fin 7) (a : Nat) (auth : Bool) (hk : net.table k = some a) : CallMove net (net.joinAcl a auth)
  | opened (k : Fin 7) (hci : Hci) (address : BdAddr) (auth : Bool) :
      CallMove net (net.openAcl k hci address auth)

/-- **What the code can do between two callbacks.** -/
inductive Move (net : AclNet) : AclNet → Prop
  | call {net' : AclNet} (h : CallMove net net') : Move net net'
  | listens {dev : HciDev} {pc j : Fin 8} (h : TakesOver net.dev dev pc j) : Move net { net with dev := dev }
  | connected {pc : Fin 8} {buffer : List UInt8} {a : Nat} (h : net.Ends pc buffer .connect a) :
      Move net (net.connectionUp pc buffer a)
  | authenticated {pc : Fin 8} {buffer : List UInt8} {a : Nat} (h : net.Ends pc buffer .authenticate a) :
      Move net (net.authenticated pc buffer a)
  | announces (a : Nat) (ha : a < net.aclsAllocated)
      (h : (net.acls a).authenticationRequired = true → (net.acls a).authenticationCompleted = true) :
      Move net { net with announcing := a :: net.announcing }
  | announced : Move net { net with announcing := net.announcing.tail }

abbrev Calls : AclNet → AclNet → Prop := Relation.ReflTransGen CallMove
abbrev Moves : AclNet → AclNet → Prop := Relation.ReflTransGen Move

theorem Calls.moves {net net' : AclNet} (h : Calls net net') : Moves net net' := by
  induction h with
  | refl => exact .refl
  | tail _ hstep ih => exact ih.tail (.call hstep)

theorem Keeps.calls {net net' : AclNet} (h : Keeps net net') : Calls net net' := .single (.keeps h)

/-! ## What only grows -/

theorem log_withAuthRequest (net : AclNet) (a : Nat) (c : UInt16) (asks : Bool) :
    (net.withAuthRequest a c asks).log = net.log ++ if asks then [.authRequested a c (net.roomFor 0x11 0x01 5)] else [] := by
  cases asks
  · exact (List.append_nil _).symm
  · rfl

theorem CallMove.log {net net' : AclNet} (h : CallMove net net') : net.log <+: net'.log := by
  cases h with
  | keeps h =>
    obtain ⟨es, he, -⟩ := h.log
    exact ⟨es, he.symm⟩
  | lost a => exact List.prefix_append _ _
  | joined k a auth hk =>
    rw [AclNet.joinAcl, log_withAuthRequest]
    simp only [AclNet.takeAcl, AclNet.bteL2capNew, List.append_assoc]
    exact List.prefix_append _ _
  | opened k hci address auth =>
    simp only [AclNet.openAcl, AclNet.takeAcl, AclNet.bteL2capNew, List.append_assoc]
    exact List.prefix_append _ _

theorem Move.log {net net' : AclNet} (h : Move net net') : net.log <+: net'.log := by
  cases h with
  | call h => exact h.log
  | listens h => exact List.prefix_rfl
  | connected h =>
    rw [AclNet.connectionUp, log_withAuthRequest]
    simp only [AclNet.modifyAcl, AclNet.arrive, AclNet.record, List.append_assoc]
    exact List.prefix_append _ _
  | authenticated h => exact List.prefix_append _ _
  | announces a ha h => exact List.prefix_rfl
  | announced => exact List.prefix_rfl

/-- What an asynchronous command does to the device, given a slot or not. -/
def Issues (dev dev' : HciDev) (h : Hci) (fn : StatusFn) (statusCb : FnPtr) (u : Ptr) (f : AsyncCmdData → AsyncCmdData) :
    Prop := Still dev dev' ∨ ∃ s, Sent dev dev' h fn statusCb u f s

theorem Issues.stores {dev dev' : HciDev} {h : Hci} {fn : StatusFn} {statusCb : FnPtr} {u : Ptr}
    {f : AsyncCmdData → AsyncCmdData} (hi : Issues dev dev' h fn statusCb u f) : dev.stores <+: dev'.stores := by
  rcases hi with hs | ⟨s, hs⟩
  · rw [hs.stores]
  · obtain ⟨b, hb, -⟩ := hs.stores
    rw [hb]
    exact List.prefix_append _ _

theorem issues_auth (dev : HciDev) (h : Hci) (c : UInt16) (a : Nat) :
    Issues dev (bteHciAuthRequested dev h c .null authRequestedFn a) h .commonReadConnectionStatusCb .null a fun d =>
      { d with
        clientCb := authRequestedFn
        raw := { d.raw with b0 := c.toUInt8, b1 := (c >>> 8).toUInt8, b2 := hciAuthComplete }
        handlerCb := some .authCompleteEventCb } :=
  sent_cases dev h _ _ _ _ _ _ _ _ rfl

theorem issues_create (dev : HciDev) (h : Hci) (address : BdAddr) (a : Nat) :
    Issues dev (bteHciCreateConnection dev h address connectStatusFn connectFn a) h .createConnectionStatusCb
      connectStatusFn a fun d => { d with clientCb := connectFn, raw := address } :=
  sent_cases dev h _ _ _ _ _ _ _ _ rfl

theorem install_stores (dev : HciDev) (code : UInt8) (h : Option EventHandler) :
    (bteHciDevInstallEventHandler dev code h).stores = dev.stores := by
  unfold bteHciDevInstallEventHandler
  split <;> rfl

theorem install_allocSlot (dev : HciDev) (code : UInt8) (h : Option EventHandler) (matcher : DataMatcher) :
    (bteHciDevInstallEventHandler dev code h).allocSlot matcher = dev.allocSlot matcher := by
  unfold bteHciDevInstallEventHandler
  split <;> rfl

theorem stores_withAuthRequest {net : AclNet} {stores : List Store} (h : stores <+: net.dev.stores) (a : Nat) (c : UInt16)
    (asks : Bool) : stores <+: (net.withAuthRequest a c asks).dev.stores := by
  cases asks
  · exact h
  · exact h.trans (issues_auth net.dev (net.acls a).hci c a).stores

theorem CallMove.stores {net net' : AclNet} (h : CallMove net net') : net.dev.stores <+: net'.dev.stores := by
  cases h with
  | keeps h => rw [h.dev.stores]
  | lost a => exact List.prefix_rfl
  | joined k a auth hk =>
    rw [AclNet.joinAcl]
    refine stores_withAuthRequest ?_ _ _ _
    exact List.prefix_rfl
  | opened k hci address auth =>
    have h := (issues_create (bteHciDevInstallEventHandler
      (bteHciDevInstallEventHandler net.dev hciDisconnectionComplete (some .disconnectionCompleteEventCb))
      hciNbrOfCompletedPackets (some .nrOfCompletedPacketsEventCb)) hci address net.aclsAllocated).stores
    rw [install_stores, install_stores] at h
    exact h

theorem Move.stores {net net' : AclNet} (h : Move net net') : net.dev.stores <+: net'.dev.stores := by
  cases h with
  | call h => exact h.stores
  | listens h => rw [h.stores]
  | connected h =>
    rw [AclNet.connectionUp]
    refine stores_withAuthRequest ?_ _ _ _
    exact List.prefix_rfl
  | authenticated h => exact List.prefix_rfl
  | announces a ha h => exact List.prefix_rfl
  | announced => exact List.prefix_rfl

/-- Both the log and the record of the unions only grow. -/
def Grows (net net' : AclNet) : Prop := net.log <+: net'.log ∧ net.dev.stores <+: net'.dev.stores

theorem Grows.refl (net : AclNet) : Grows net net := ⟨List.prefix_rfl, List.prefix_rfl⟩

theorem Grows.trans {net net' net'' : AclNet} (h : Grows net net') (h' : Grows net' net'') : Grows net net'' :=
  ⟨h.1.trans h'.1, h.2.trans h'.2⟩

theorem Moves.grows {net net' : AclNet} (h : Moves net net') : Grows net net' := by
  induction h with
  | refl => exact .refl net
  | tail _ hstep ih => exact ih.trans ⟨hstep.log, hstep.stores⟩

/-! ## What a callback cannot change -/

section AuthRequest

variable (net : AclNet) (a : Nat) (c : UInt16) (asks : Bool)

@[simp] theorem withAuthRequest_acls : (net.withAuthRequest a c asks).acls = net.acls := by cases asks <;> rfl
@[simp] theorem withAuthRequest_aclOf : (net.withAuthRequest a c asks).aclOf = net.aclOf := by cases asks <;> rfl
@[simp] theorem withAuthRequest_auth : (net.withAuthRequest a c asks).auth = net.auth := by cases asks <;> rfl
@[simp] theorem withAuthRequest_announcing : (net.withAuthRequest a c asks).announcing = net.announcing := by
  cases asks <;> rfl
@[simp] theorem withAuthRequest_aclsAllocated : (net.withAuthRequest a c asks).aclsAllocated = net.aclsAllocated := by
  cases asks <;> rfl
@[simp] theorem withAuthRequest_table : (net.withAuthRequest a c asks).table = net.table := by cases asks <;> rfl
@[simp] theorem withAuthRequest_l2cap : (net.withAuthRequest a c asks).l2cap = net.l2cap := by cases asks <;> rfl

end AuthRequest

section Fields

variable (net : AclNet) (a : Nat) (auth : Bool) (pc : Fin 8) (buffer : List UInt8)

@[simp] theorem joinAcl_acls : (net.joinAcl a auth).acls = Function.update net.acls a { net.acls a with
    refCount := (net.acls a).refCount + 1
    authenticationRequired := (net.acls a).authenticationRequired || auth
    authenticationRequested := (net.acls a).authenticationRequested || auth } := by
  rw [AclNet.joinAcl, withAuthRequest_acls]
  rfl

@[simp] theorem joinAcl_aclOf : (net.joinAcl a auth).aclOf = Function.update net.aclOf net.l2cap.allocated a := by
  rw [AclNet.joinAcl, withAuthRequest_aclOf]
  rfl

@[simp] theorem joinAcl_auth : (net.joinAcl a auth).auth = Function.update net.auth net.l2cap.allocated auth := by
  rw [AclNet.joinAcl, withAuthRequest_auth]
  rfl

@[simp] theorem joinAcl_rest : (net.joinAcl a auth).announcing = net.announcing ∧
    (net.joinAcl a auth).aclsAllocated = net.aclsAllocated ∧ (net.joinAcl a auth).table = net.table ∧
    (net.joinAcl a auth).l2cap.allocated = net.l2cap.allocated + 1 := by
  rw [AclNet.joinAcl, withAuthRequest_announcing, withAuthRequest_aclsAllocated, withAuthRequest_table,
    withAuthRequest_l2cap]
  exact ⟨rfl, rfl, rfl, rfl⟩

theorem joinAcl_log : (net.joinAcl a auth).log = net.log ++ [.l2cap (.created net.l2cap.allocated true),
      .joined ⟨net.l2cap.allocated, a, auth, some (net.acls a), decide (a ∈ net.announcing)⟩] ++
    if auth && !(net.acls a).authenticationRequested then
      [.authRequested a (net.acls a).connHandle (net.roomFor 0x11 0x01 5)] else [] := by
  rw [AclNet.joinAcl, log_withAuthRequest]
  simp only [AclNet.takeAcl, AclNet.bteL2capNew, List.append_assoc]
  rfl

@[simp] theorem connectionUp_acls : (net.connectionUp pc buffer a).acls = Function.update net.acls a { net.acls a with
    connHandle := AclNet.completedHandle buffer
    authenticationRequested := (net.acls a).authenticationRequested ||
      ((net.acls a).authenticationRequired && !(net.acls a).authenticationCompleted) } := by
  rw [AclNet.connectionUp, withAuthRequest_acls]
  rfl

@[simp] theorem connectionUp_rest : (net.connectionUp pc buffer a).aclOf = net.aclOf ∧
    (net.connectionUp pc buffer a).auth = net.auth ∧ (net.connectionUp pc buffer a).announcing = net.announcing ∧
    (net.connectionUp pc buffer a).aclsAllocated = net.aclsAllocated ∧
    (net.connectionUp pc buffer a).table = net.table ∧ (net.connectionUp pc buffer a).l2cap = net.l2cap := by
  rw [AclNet.connectionUp, withAuthRequest_aclOf, withAuthRequest_auth, withAuthRequest_announcing,
    withAuthRequest_aclsAllocated, withAuthRequest_table, withAuthRequest_l2cap]
  exact ⟨rfl, rfl, rfl, rfl, rfl, rfl⟩

theorem connectionUp_log : (net.connectionUp pc buffer a).log =
    net.log ++ [.completed (net.dev.pendingCommands pc).userdata buffer] ++
      if (net.acls a).authenticationRequired && !(net.acls a).authenticationCompleted &&
          !(net.acls a).authenticationRequested then
        [.authRequested a (AclNet.completedHandle buffer) ((net.arrive pc buffer).roomFor 0x11 0x01 5)] else [] := by
  rw [AclNet.connectionUp, log_withAuthRequest]
  rfl

end Fields

theorem userdata_of_errand {dev : HciDev} {i : Fin 8} {e : Errand} {a : Nat} (h : dev.errand i = some (e, a)) :
    (dev.pendingCommands i).userdata = a := by
  unfold HciDev.errand at h
  split at h
  · obtain ⟨_, -, hp⟩ := Option.map_eq_some_iff.1 h
    exact congrArg Prod.snd hp
  · cases h

/-- The channels there are, and the ACLs being announced, stay as they are. -/
structure Fixed (net net' : AclNet) : Prop where
  announcing : net'.announcing = net.announcing
  allocated : net.l2cap.allocated ≤ net'.l2cap.allocated
  aclOf : ∀ p, p < net.l2cap.allocated → net'.aclOf p = net.aclOf p

theorem Fixed.trans {net net' net'' : AclNet} (h : Fixed net net') (h' : Fixed net' net'') : Fixed net net'' where
  announcing := h'.announcing.trans h.announcing
  allocated := h.allocated.trans h'.allocated
  aclOf := fun p hp => (h'.aclOf p (hp.trans_le h.allocated)).trans (h.aclOf p hp)

theorem CallMove.fixed {net net' : AclNet} (h : CallMove net net') : Fixed net net' := by
  have hnew : ∀ a p, p < net.l2cap.allocated → Function.update net.aclOf net.l2cap.allocated a p = net.aclOf p :=
    fun a p hp => Function.update_of_ne (by omega) _ _
  cases h with
  | keeps h => exact ⟨h.announcing, h.allocated, fun p _ => by rw [h.aclOf]⟩
  | lost a => exact ⟨rfl, le_rfl, fun _ _ => rfl⟩
  | joined k a auth hk =>
    obtain ⟨hn, -, -, hl⟩ := joinAcl_rest net a auth
    exact ⟨hn, by rw [hl]; exact Nat.le_succ _, fun p hp => by rw [joinAcl_aclOf]; exact hnew a p hp⟩
  | opened k hci address auth => exact ⟨rfl, Nat.le_succ _, fun p hp => hnew _ p hp⟩

theorem Calls.fixed {net net' : AclNet} (h : Calls net net') : Fixed net net' := by
  induction h with
  | refl => exact ⟨rfl, le_rfl, fun _ _ => rfl⟩
  | tail _ hstep ih => exact ih.trans hstep.fixed

/-! ## Moves that keep -/

theorem Acl.Same.refl (acl : Acl) : acl.Same acl := ⟨rfl, rfl, rfl, rfl⟩

theorem Keeps.refl (net : AclNet) : Keeps net net :=
  ⟨⟨[], (List.append_nil _).symm, by simp⟩, le_rfl, rfl, rfl, rfl, rfl, fun _ => .refl _, fun _ _ _ h => .inl h,
    fun _ _ h => h, .refl _⟩

theorem keeps_record (net : AclNet) {e : NetEvent} (he : net.Allows e) : Keeps net (net.record e) where
  __ := Keeps.refl net
  log := ⟨[e], rfl, fun e' he' => by rw [List.mem_singleton.1 he']; exact he⟩

theorem keeps_dev (net : AclNet) {dev : HciDev} (h : Still net.dev dev) : Keeps net { net with dev := dev } where
  __ := Keeps.refl net
  dev := h

/-- An ACL whose flags stay, and whose channels are from its table or its own. -/
theorem keeps_modifyAcl (net : AclNet) (a : Nat) (f : Acl → Acl) (hs : (net.acls a).Same (f (net.acls a)))
    (hc : ∀ i p, (f (net.acls a)).clients i = some p →
      (net.acls a).clients i = some p ∨ net.aclOf p = a ∧ p < net.l2cap.allocated) :
    Keeps net (net.modifyAcl a f) where
  __ := Keeps.refl net
  acls := by
    intro b
    by_cases hb : b = a
    · subst hb
      simpa only [AclNet.modifyAcl, Function.update_self] using hs
    · simp only [AclNet.modifyAcl, Function.update_of_ne hb]
      exact .refl _
  clients := by
    intro b i p h
    by_cases hb : b = a
    · subst hb
      simp only [AclNet.modifyAcl, Function.update_self] at h
      exact hc i p h
    · simp only [AclNet.modifyAcl, Function.update_of_ne hb] at h
      exact .inl h

theorem keeps_ref (net : AclNet) (a : Nat) : Keeps net (net.bteAclRef a) :=
  keeps_modifyAcl net a _ ⟨rfl, rfl, rfl, rfl⟩ fun _ _ h => .inl h

/-- What a function of l2cap.c did on one link. -/
theorem keeps_setLink (net : AclNet) (a : Nat) {w : L2capLink} (hl : ∀ e ∈ w.log, net.Allows (.l2cap e))
    (ha : net.l2cap.allocated ≤ w.allocated)
    (hc : ∀ i p, w.clients i = some p → (net.acls a).clients i = some p ∨ net.aclOf p = a ∧ p < net.l2cap.allocated) :
    Keeps net (net.setLink a w) where
  __ := keeps_modifyAcl net a (fun acl => { acl with clients := w.clients }) ⟨rfl, rfl, rfl, rfl⟩ hc
  log := by
    refine ⟨w.log.map .l2cap, rfl, fun e he => ?_⟩
    obtain ⟨e', he', rfl⟩ := List.mem_map.1 he
    exact hl e' he'
  allocated := ha

theorem keeps_channel (net : AclNet) (p : Nat) (f : L2cap → L2cap) :
    Keeps net { net with l2cap := net.l2cap.modify p f } where
  __ := Keeps.refl net

theorem keeps_leaveTable (net : AclNet) (a : Nat) : Keeps net (net.leaveTable a) := by
  unfold AclNet.leaveTable
  split
  · exact .refl net
  · rename_i k hk
    exact { Keeps.refl net with
      table := fun j b h => by
        by_cases hj : j = k
        · subst hj
          simp only [Function.update_self] at h
          cases h
        · simpa only [Function.update_of_ne hj] using h }

theorem calls_free (net : AclNet) (a : Nat) : Calls net (net.bteAclFree a) :=
  (((keeps_modifyAcl net a _ ⟨rfl, rfl, rfl, rfl⟩ fun _ _ h => .inl h).calls.tail (.lost a)).tail
    (.keeps (keeps_leaveTable _ a))).tail (.keeps (keeps_record _ trivial))

theorem calls_unref (net : AclNet) (a : Nat) : Calls net (net.bteAclUnref a) := by
  have h : Calls net (net.modifyAcl a fun acl => { acl with refCount := acl.refCount - 1 }) :=
    (keeps_modifyAcl net a _ ⟨rfl, rfl, rfl, rfl⟩ fun _ _ h => .inl h).calls
  unfold AclNet.bteAclUnref
  simp only
  split
  · exact h.trans (calls_free _ a)
  · exact h

theorem calls_disconnect (net : AclNet) (a : Nat) : Calls net (net.bteAclDisconnect a) := by
  unfold AclNet.bteAclDisconnect
  split
  · exact .refl
  · exact (keeps_dev net (still_disconnect ..)).calls

/-! ## Channels -/

/-- What a function of l2cap.c does to a link that makes requests for channel `p` only. -/
structure LinkKeeps (p : Nat) (w w' : L2capLink) : Prop where
  clients : w'.clients = w.clients
  allocated : w'.allocated = w.allocated
  log : ∃ es, w'.log = w.log ++ es ∧ ∀ e ∈ es, ∀ q, e.request = some q → q = p

namespace LinkKeeps

variable {p : Nat} {w w' w'' : L2capLink}

theorem of_log (hc : w'.clients = w.clients) (ha : w'.allocated = w.allocated) (hl : w'.log = w.log) : LinkKeeps p w w' :=
  ⟨hc, ha, [], by rw [hl, List.append_nil], by simp⟩

theorem trans (h : LinkKeeps p w w') (h' : LinkKeeps p w' w'') : LinkKeeps p w w'' := by
  obtain ⟨es, he, hs⟩ := h.log
  obtain ⟨es', he', hs'⟩ := h'.log
  refine ⟨h'.clients.trans h.clients, h'.allocated.trans h.allocated, es ++ es', ?_, ?_⟩
  · rw [he', he, List.append_assoc]
  · intro e hmem
    rcases List.mem_append.1 hmem with h1 | h1
    · exact hs e h1
    · exact hs' e h1

theorem record (w : L2capLink) {e : L2event} (he : ∀ q, e.request = some q → q = p) : LinkKeeps p w (w.record e) :=
  ⟨rfl, rfl, [e], rfl, fun e' h => by rw [List.mem_singleton.1 h]; exact he⟩

end LinkKeeps

theorem linkKeeps_sendSignal (host : L2capHost) (w : L2capLink) (p code : Nat) (payload : List UInt8) :
    LinkKeeps p w (l2capSendSignal host w p code payload).2 := by
  unfold l2capSendSignal l2capSignal
  simp only
  cases hb : cmdPackets host code w.nextSignalId.1 payload with
  | none => exact .of_log rfl rfl rfl
  | some buffer =>
    refine ⟨rfl, rfl, [_], rfl, fun e he q hq => ?_⟩
    rw [List.mem_singleton.1 he] at hq
    simp only [L2event.request] at hq
    split at hq
    · exact (Option.some.inj hq).symm
    · cases hq

theorem linkKeeps_setState (host : L2capHost) (hr : host.react = fun _ w => w) (w : L2capLink) (p : Nat) :
    LinkKeeps p w (l2capSetState host w p .waitConnectRsp) := by
  have hcb : ∀ (w : L2capLink) (p : Nat), LinkKeeps p w (stateChanged host w p .waitConnectRsp) := by
    intro w p
    unfold stateChanged
    split
    · exact .of_log rfl rfl rfl
    · rename_i f _
      rw [L2capLink.call, hr]
      exact .record (e := .callback p (.stateChanged f p .waitConnectRsp (w.channels p).userdata)) w fun _ h => nomatch h
    · exact .of_log rfl rfl rfl
    · exact .of_log rfl rfl rfl
  have henter : LinkKeeps p w (w.enter p .waitConnectRsp) :=
    ⟨rfl, rfl, [.state p (w.channels p).state .waitConnectRsp], rfl, fun e he q hq => by
      rw [List.mem_singleton.1 he] at hq
      exact nomatch hq⟩
  unfold l2capSetState
  split
  · exact .of_log rfl rfl rfl
  · exact henter.trans (hcb _ p)

theorem linkKeeps_connectionRequest (host : L2capHost) (hr : host.react = fun _ w => w) (w : L2capLink) (p : Nat) :
    LinkKeeps p w (Bte.l2capConnectionRequest host w p).2 := by
  unfold Bte.l2capConnectionRequest
  split
  · exact .of_log rfl rfl rfl
  · simp only
    generalize hw : w.nextChannelId.2.allot p w.nextChannelId.1 = w'
    have h0 : LinkKeeps p w w' := by
      subst hw
      exact .of_log rfl rfl rfl
    have h1 := h0.trans (linkKeeps_sendSignal host w' p l2capSignalConnReq
      (leBytes 2 (w'.channels p).psm ++ leBytes 2 w.nextChannelId.1))
    split
    · exact h1.trans (linkKeeps_setState host hr _ p)
    · exact h1

theorem keeps_connectionRequest (net : AclNet) (host : NetHost) {p : Nat} (h : net.MayRequest p) :
    Keeps net (net.l2capConnectionRequest host p).2 := by
  obtain ⟨hc, ha, es, he, hs⟩ := linkKeeps_connectionRequest (host.forAcl (net.acls (net.aclOf p))) rfl
    (net.link (net.aclOf p)) p
  refine keeps_setLink net _ ?_ (le_of_eq ha.symm) ?_
  · rw [he]
    intro e hmem q hq
    rw [hs e hmem q hq]
    exact h
  · intro i q hq
    rw [hc] at hq
    exact .inl hq

theorem keeps_removeClient (net : AclNet) (a p : Nat) :
    Keeps net (net.setLink a (aclL2capRemoveClient (net.link a) p)) := by
  have hc : ∀ i q, (aclL2capRemoveClient (net.link a) p).clients i = some q → (net.acls a).clients i = some q := by
    intro i q
    unfold aclL2capRemoveClient
    simp only
    split <;>
    · intro h
      simp only [L2capLink.record] at h
      split at h
      · cases h
      · exact h
  refine keeps_setLink net a ?_ ?_ fun i q h => .inl (hc i q h)
  · unfold aclL2capRemoveClient
    simp only
    split
    · intro e he
      rw [List.mem_singleton.1 he]
      exact fun _ h => nomatch h
    · intro e he
      cases he
  · unfold aclL2capRemoveClient
    simp only
    split <;> exact le_rfl

theorem calls_l2capUnref (net : AclNet) (p : Nat) : Calls net (net.bteL2capUnref p) := by
  unfold AclNet.bteL2capUnref
  simp only
  have h := (keeps_channel net p fun l2cap => { l2cap with refCount := l2cap.refCount - 1 }).calls
  split
  · have h' := h.trans (keeps_removeClient _ (net.aclOf p) p).calls
    refine Relation.ReflTransGen.trans ?_ (calls_unref _ _)
    split
    · exact h'.trans (calls_disconnect _ _)
    · exact h'
  · exact h

/-- The host's callbacks make calls only. -/
def NetHost.Calling (host : NetHost) : Prop := ∀ c net, Calls net (host.react c net)

section Callbacks

variable {host : NetHost} (hh : host.Calling)
include hh

theorem calls_call (net : AclNet) (p : Nat) (c : L2capCallback) : Calls net (net.call host p c) := by
  have h : Keeps net (net.record (.l2cap (.callback p c))) := keeps_record net fun _ h => nomatch h
  exact h.calls.trans (hh c _)

theorem calls_connected (net : AclNet) (p : Nat) (cb : L2capClientCb) (reply : Option ConnectionResponse) (u : Nat) :
    Calls net (net.connected host p cb reply u) := by
  have hk : Keeps net (net.record (.l2cap (.connectCb p cb reply))) := keeps_record net fun _ h => nomatch h
  have h := hk.calls
  unfold AclNet.connected
  simp only
  split
  · exact h.trans (calls_call hh _ _ _)
  · exact h

theorem calls_refuse (net : AclNet) (p : Nat) : Calls net (net.refuse host p) :=
  (calls_connected hh net p _ _ _).trans (calls_l2capUnref _ p)

theorem calls_aclL2capConnectedCb (net : AclNet) (p : Nat) (status : UInt8) (h : status = 0 → net.MayRequest p) :
    Calls net (net.aclL2capConnectedCb host p status) := by
  unfold AclNet.aclL2capConnectedCb
  split
  · exact calls_refuse hh net p
  · rename_i hs
    have h' := (keeps_connectionRequest net host (h (not_not.1 hs))).calls
    simp only
    split
    · exact h'
    · exact h'.trans (calls_refuse hh _ p)

omit hh in
/-- What every turn of the loop does from a net that calls lead to, the loop does. -/
theorem calls_forClients (net : AclNet) (a : Nat) (f : AclNet → Nat → AclNet)
    (hf : ∀ net' i p, Calls net net' → (net'.acls a).clients i = some p → Calls net' (f net' p)) :
    Calls net (net.forClients a f) := by
  unfold AclNet.forClients
  generalize List.finRange 4 = l
  induction l using List.reverseRecOn with
  | nil => exact .refl
  | append_singleton l i ih =>
    rw [List.foldl_append, List.foldl_cons, List.foldl_nil, AclNet.turn]
    split
    · exact ih
    · rename_i p hp
      exact ih.trans (hf _ i p ih hp)

/-- The loop of `acl_connected_cb`: the ACL is being announced, or the connection has failed. -/
theorem calls_announcement (net : AclNet) (a : Nat) (status : UInt8) (h : status = 0 → a ∈ net.announcing) :
    Calls net (net.forClients a fun net p => net.aclL2capConnectedCb host p status) := by
  refine calls_forClients net a _ fun net' i p hc hp => calls_aclL2capConnectedCb hh net' p status fun hs => ?_
  refine .inr ⟨a, i, hp, ?_⟩
  rw [hc.fixed.announcing]
  exact h hs

theorem calls_aclConnectedCb_failed (net : AclNet) (a : Nat) {status : UInt8} (hs : status ≠ 0) :
    Calls net (net.aclConnectedCb host a status) := by
  unfold AclNet.aclConnectedCb
  simp only [hs, if_false]
  exact ((keeps_ref net a).calls.trans (calls_announcement hh _ a status fun h => absurd h hs)).trans (calls_unref _ a)

theorem calls_connectStatusCb (net : AclNet) (a : Nat) (status : UInt8) :
    Calls net (net.connectStatusCb host a status) := by
  unfold AclNet.connectStatusCb
  split
  · rename_i hs
    exact calls_aclConnectedCb_failed hh net a hs
  · exact .refl

theorem calls_configureLost (net : AclNet) (p : Nat) : Calls net (net.configureLost host p) := by
  unfold AclNet.configureLost
  simp only
  split
  · exact calls_call hh net p _
  · exact .refl

theorem calls_connectLost (net : AclNet) (p : Nat) (reason : UInt8) : Calls net (net.connectLost host p reason) := by
  unfold AclNet.connectLost
  simp only
  split
  · exact calls_refuse hh net p
  · split
    · exact .refl
    · exact calls_call hh net p _

theorem calls_l2capDisconnectCb (net : AclNet) (p : Nat) (reason : UInt8) :
    Calls net (net.l2capDisconnectCb host p reason) :=
  (calls_configureLost hh net p).trans (calls_connectLost hh _ p reason)

theorem calls_aclDisconnected (net : AclNet) (a : Nat) (reason : UInt8) :
    Calls net (net.bteAclDisconnected host a reason) := by
  have hlost : Calls net (net.loseConnection a) := .single (.lost a)
  unfold AclNet.bteAclDisconnected
  simp only
  refine Relation.ReflTransGen.trans ?_ (keeps_leaveTable _ a).calls
  split
  · have h := (hlost.trans (keeps_ref _ a).calls).trans
      (keeps_modifyAcl _ a (fun acl => { acl with disconnectedCb := false }) ⟨rfl, rfl, rfl, rfl⟩ fun _ _ h => .inl h).calls
    exact (h.trans (calls_forClients _ a _ fun net' i p _ _ => calls_l2capDisconnectCb hh net' p reason)).trans
      (calls_unref _ a)
  · exact hlost

/-! ## The call -/

theorem calls_startChannel (net : AclNet) (p a : Nat) (call : OutgoingCall) (hp : p < net.l2cap.allocated)
    (ha : net.aclOf p = a) : Calls net (net.startChannel host p a call) := by
  unfold AclNet.startChannel
  split
  · exact (calls_l2capUnref net p).trans (calls_connected hh _ p _ none _)
  · rename_i w hw
    unfold aclL2capAddClient at hw
    obtain ⟨i, -, rfl⟩ := Option.map_eq_some_iff.1 hw
    simp only
    have hjoin : Keeps net (net.setLink a (({ net.link a with
        clients := Function.update (net.link a).clients i (some p) } : L2capLink).modify p fun l2cap => { l2cap with
          userdata := call.userdata, psm := call.psm, clientCb := .client .connect call.callback })) := by
      refine keeps_setLink net a (fun e he => by cases he) le_rfl fun j q hq => ?_
      simp only [L2capLink.modify] at hq
      by_cases hj : j = i
      · subst hj
        rw [Function.update_self] at hq
        cases hq
        exact .inr ⟨ha, hp⟩
      · rw [Function.update_of_ne hj] at hq
        exact .inl hq
    generalize net.setLink a (({ net.link a with
        clients := Function.update (net.link a).clients i (some p) } : L2capLink).modify p fun l2cap => { l2cap with
          userdata := call.userdata, psm := call.psm, clientCb := .client .connect call.callback }) = net' at hjoin
    split
    · rename_i hready
      have h := hjoin.calls.trans (keeps_connectionRequest net' host (p := p)
        (.inl ⟨hp.trans_le hjoin.allocated, by rw [hjoin.aclOf, ha]; exact hready.2⟩)).calls
      split
      · exact h
      · exact (h.trans (calls_l2capUnref _ p)).trans (calls_connected hh _ p _ none _)
    · exact hjoin.calls

omit hh in
/-- The part of the call that finds its ACL in the table. -/
theorem joinAcl_eq (net : AclNet) (a : Nat) (auth : Bool) :
    (let new := (net.bteL2capNew.bteAclRef a).takeAcl net.l2cap.allocated a auth (some (net.acls a))
     if auth then (new.modifyAcl a fun acl => { acl with authenticationRequired := true }).bteAclRequestAuth a else new) =
      net.joinAcl a auth := by
  unfold AclNet.joinAcl AclNet.withAuthRequest AclNet.bteAclRequestAuth AclNet.takeAcl AclNet.bteAclRef AclNet.bteL2capNew
    AclNet.modifyAcl
  cases auth
  · simp
  · cases hr : (net.acls a).authenticationRequested
    · simp [hr, AclNet.roomFor]
    · simp [hr]

omit hh in
theorem table_of_found {net : AclNet} {address : BdAddr} {a : Nat} (h : net.bteAclGetForAddress address = some a) :
    ∃ k, net.table k = some a := by
  obtain ⟨k, -, hk⟩ := List.exists_of_findSome?_eq_some h
  obtain ⟨b, hb, hab⟩ := Option.bind_eq_some_iff.1 hk
  split at hab
  · cases hab
    exact ⟨k, hb⟩
  · cases hab

omit hh in
/-- The part of the call that makes an ACL. -/
theorem openAcl_eq (host : NetHost) {net net' : AclNet} {hci : Hci} {address : BdAddr} {a : Nat}
    (h : net.bteL2capNew.bteAclNew hci address = some (a, net')) (auth : Bool) :
    ∃ k, (net'.takeAcl net.l2cap.allocated a auth none).bteAclConnect host a auth =
      if net.roomFor 0x05 0x01 16 then net.openAcl k hci address auth
      else (net.openAcl k hci address auth).connectStatusCb host a bteHciMemoryFull := by
  obtain ⟨k, -, hk⟩ := Option.map_eq_some_iff.1 h
  cases hk
  refine ⟨k, ?_⟩
  unfold AclNet.bteAclConnect AclNet.openAcl AclNet.takeAcl AclNet.bteL2capNew AclNet.modifyAcl AclNet.roomFor
  simp [install_allocSlot]

omit hh in
theorem keeps_crashed (net : AclNet) : Keeps net (net.bteL2capNew.record .crashed) where
  __ := Keeps.refl net
  log := by
    refine ⟨[.l2cap (.created net.l2cap.allocated true), .crashed], List.append_assoc .., fun e he => ?_⟩
    simp only [List.mem_cons, List.not_mem_nil, or_false] at he
    rcases he with rfl | rfl
    · exact fun _ h => nomatch h
    · trivial
  allocated := Nat.le_succ _

theorem calls_newOutgoing (net : AclNet) (call : OutgoingCall) : Calls net (net.bteL2capNewOutgoing host call) := by
  have hlt : net.l2cap.allocated < net.l2cap.allocated + 1 := Nat.lt_succ_self _
  unfold AclNet.bteL2capNewOutgoing
  simp only
  split
  · rename_i a ha
    obtain ⟨k, hk⟩ := table_of_found ha
    have hj : CallMove net (net.joinAcl a call.auth) := .joined k a call.auth hk
    have hstart := calls_startChannel hh (net.joinAcl a call.auth) net.l2cap.allocated a call
      (by rw [AclNet.joinAcl, withAuthRequest_l2cap]; exact hlt)
      (by rw [AclNet.joinAcl, withAuthRequest_aclOf]; exact Function.update_self ..)
    refine .head hj ?_
    rw [← joinAcl_eq] at hstart ⊢
    exact hstart
  · split
    · exact (keeps_crashed net).calls
    · rename_i a net' hn
      obtain ⟨k, hk⟩ := openAcl_eq host hn call.auth
      have ha : net.aclsAllocated = a := by
        obtain ⟨_, -, hk⟩ := Option.map_eq_some_iff.1 hn
        exact congrArg Prod.fst hk
      have hopen : CallMove net (net.openAcl k call.hci call.address call.auth) := .opened k _ _ _
      have hof : (net.openAcl k call.hci call.address call.auth).aclOf net.l2cap.allocated = a := by
        rw [← ha]
        exact Function.update_self ..
      rw [hk]
      split
      · exact .head hopen (calls_startChannel hh _ _ a call hlt hof)
      · have hs := calls_connectStatusCb hh (net.openAcl k call.hci call.address call.auth) a bteHciMemoryFull
        have hf := hs.fixed
        exact .head hopen (hs.trans (calls_startChannel hh _ _ a call (hlt.trans_le hf.allocated)
          ((hf.aclOf _ hlt).trans hof)))

end Callbacks

theorem calling_client (host : L2capHost) (client : NetClient) : ∀ depth, (NetHost.client host client depth).Calling
  | 0 => fun _ _ => .refl
  | depth + 1 => by
    intro c net
    show Calls net ((client c net).foldl _ net)
    generalize client c net = calls
    induction calls generalizing net with
    | nil => exact .refl
    | cons call calls ih =>
      exact (calls_newOutgoing (calling_client host client depth) net call).trans (ih _)

/-! ## The channels and their ACLs -/

/-- The channels in the table of an ACL are its own, and an ACL that has a channel with the flag requires authentication. -/
structure Ties (net : AclNet) : Prop where
  table : ∀ k a, net.table k = some a → a < net.aclsAllocated
  clients : ∀ a i p, (net.acls a).clients i = some p → net.aclOf p = a ∧ p < net.l2cap.allocated
  required : ∀ p, net.auth p = true →
    (net.acls (net.aclOf p)).authenticationRequired = true ∧ net.aclOf p < net.aclsAllocated

namespace Ties

variable {net net' : AclNet}

theorem keeps (h : Ties net) (hk : Keeps net net') : Ties net' where
  table := fun k a ht => hk.aclsAllocated ▸ h.table k a (hk.table k a ht)
  clients := by
    intro a i p hp
    rw [hk.aclOf]
    rcases hk.clients a i p hp with h1 | h1
    · obtain ⟨ha, hlt⟩ := h.clients a i p h1
      exact ⟨ha, hlt.trans_le hk.allocated⟩
    · exact ⟨h1.1, h1.2.trans_le hk.allocated⟩
  required := by
    intro p hp
    rw [hk.auth] at hp
    rw [hk.aclOf, (hk.acls _).required, hk.aclsAllocated]
    exact h.required p hp

/-- One ACL changes, but not its channels and its `authentication_required`. -/
theorem update (h : Ties net) {a : Nat} {acl : Acl} (hacls : net'.acls = Function.update net.acls a acl)
    (hc : acl.clients = (net.acls a).clients) (hr : acl.authenticationRequired = (net.acls a).authenticationRequired)
    (hrest : net'.table = net.table ∧ net'.aclsAllocated = net.aclsAllocated ∧ net'.aclOf = net.aclOf ∧
      net'.auth = net.auth ∧ net'.l2cap.allocated = net.l2cap.allocated) : Ties net' := by
  obtain ⟨ht, hn, ho, hf, hal⟩ := hrest
  have hsame : ∀ b, (net'.acls b).clients = (net.acls b).clients ∧
      (net'.acls b).authenticationRequired = (net.acls b).authenticationRequired := by
    intro b
    rw [hacls]
    by_cases hb : b = a
    · subst hb
      rw [Function.update_self]
      exact ⟨hc, hr⟩
    · rw [Function.update_of_ne hb]
      exact ⟨rfl, rfl⟩
  refine ⟨by rw [ht, hn]; exact h.table, fun b i p hp => ?_, fun p hp => ?_⟩
  · rw [(hsame b).1] at hp
    rw [ho, hal]
    exact h.clients b i p hp
  · rw [hf] at hp
    rw [ho, (hsame _).2, hn]
    exact h.required p hp

theorem joined (h : Ties net) {k : Fin 7} {a : Nat} (hk : net.table k = some a) (auth : Bool) :
    Ties (net.joinAcl a auth) := by
  obtain ⟨-, hn, ht, hl⟩ := joinAcl_rest net a auth
  have hclients : ∀ b, ((net.joinAcl a auth).acls b).clients = (net.acls b).clients := by
    intro b
    rw [joinAcl_acls]
    by_cases hb : b = a
    · subst hb
      rw [Function.update_self]
    · rw [Function.update_of_ne hb]
  refine ⟨by rw [ht, hn]; exact h.table, fun b i p hp => ?_, fun p hp => ?_⟩
  · rw [hclients] at hp
    obtain ⟨h1, h2⟩ := h.clients b i p hp
    rw [joinAcl_aclOf, hl, Function.update_of_ne (by omega)]
    exact ⟨h1, h2.trans (Nat.lt_succ_self _)⟩
  · rw [joinAcl_auth] at hp
    rw [joinAcl_aclOf, hn]
    by_cases hp' : p = net.l2cap.allocated
    · subst hp'
      rw [Function.update_self] at hp ⊢
      rw [joinAcl_acls, Function.update_self]
      exact ⟨by simp only [hp, Bool.or_true], h.table k a hk⟩
    · rw [Function.update_of_ne hp'] at hp ⊢
      obtain ⟨h1, h2⟩ := h.required p hp
      refine ⟨?_, h2⟩
      rw [joinAcl_acls]
      by_cases hb : net.aclOf p = a
      · rw [hb, Function.update_self]
        simp only [← hb, h1, Bool.true_or]
      · rwa [Function.update_of_ne hb]

theorem opened (h : Ties net) (k : Fin 7) (hci : Hci) (address : BdAddr) (auth : Bool) :
    Ties (net.openAcl k hci address auth) := by
  have hself : (net.openAcl k hci address auth).acls net.aclsAllocated =
      ⟨1, hci, address, bteConnHandleInvalid, auth, false, false, true, fun _ => none⟩ := Function.update_self ..
  have hother : ∀ b, b ≠ net.aclsAllocated → (net.openAcl k hci address auth).acls b = net.acls b :=
    fun b hb => Function.update_of_ne hb _ _
  have hof : (net.openAcl k hci address auth).aclOf = Function.update net.aclOf net.l2cap.allocated net.aclsAllocated := rfl
  have hflag : (net.openAcl k hci address auth).auth = Function.update net.auth net.l2cap.allocated auth := rfl
  refine ⟨fun j b hj => ?_, fun b i p hp => ?_, fun p hp => ?_⟩
  · have hj' : Function.update net.table k (some net.aclsAllocated) j = some b := hj
    by_cases hjk : j = k
    · subst hjk
      rw [Function.update_self] at hj'
      cases hj'
      exact Nat.lt_succ_self _
    · rw [Function.update_of_ne hjk] at hj'
      exact (h.table j b hj').trans (Nat.lt_succ_self _)
  · by_cases hb : b = net.aclsAllocated
    · subst hb
      rw [hself] at hp
      cases hp
    · rw [hother b hb] at hp
      obtain ⟨h1, h2⟩ := h.clients b i p hp
      rw [hof, Function.update_of_ne (by omega)]
      exact ⟨h1, h2.trans (Nat.lt_succ_self _)⟩
  · rw [hflag] at hp
    rw [hof]
    by_cases hp' : p = net.l2cap.allocated
    · subst hp'
      rw [Function.update_self] at hp ⊢
      rw [hself]
      exact ⟨hp, Nat.lt_succ_self _⟩
    · rw [Function.update_of_ne hp'] at hp ⊢
      obtain ⟨h1, h2⟩ := h.required p hp
      rw [hother _ (by omega)]
      exact ⟨h1, h2.trans (Nat.lt_succ_self _)⟩

theorem move (h : Ties net) (hm : Move net net') : Ties net' := by
  cases hm with
  | call hm =>
    cases hm with
    | keeps hk => exact h.keeps hk
    | lost a => exact h.update (a := a) rfl rfl rfl ⟨rfl, rfl, rfl, rfl, rfl⟩
    | joined k a auth hk => exact h.joined hk auth
    | opened k hci address auth => exact h.opened k hci address auth
  | listens ht => exact ⟨h.table, h.clients, h.required⟩
  | @connected pc buffer a he =>
    obtain ⟨h1, h2, -, h4, h5, h6⟩ := connectionUp_rest net a pc buffer
    exact h.update (connectionUp_acls net a pc buffer) rfl rfl ⟨h5, h4, h1, h2, by rw [h6]⟩
  | @authenticated pc buffer a he => exact h.update (a := a) rfl rfl rfl ⟨rfl, rfl, rfl, rfl, rfl⟩
  | announces a ha hg => exact ⟨h.table, h.clients, h.required⟩
  | announced => exact ⟨h.table, h.clients, h.required⟩

end Ties

theorem ties_start (clients : Fin 4 → Option Hci) (out : AclOut) : Ties (.start clients out) where
  table := fun k a hk => by cases hk
  clients := fun a i p hp => by cases hp
  required := fun p hp => by cases hp

end Bte
