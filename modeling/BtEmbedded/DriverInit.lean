import BtEmbedded.SlotOwners
import BtEmbedded.AsyncCompletion
import BtEmbedded.HciLifecycle
/-!
# DriverInit — how a driver brings the controller up (drivers/generic.c, drivers/wii.c, hci.c, hci_dev.c)

A driver's `init` makes a client of its own and sends one command; the callback of each reply sends the next, and the
last one drops the client and reports the outcome.  What is left to do is nowhere but in the callback that the pending
slot holds.  Meanwhile other clients use the library, their callbacks do, and the controller sends them events.

Each callback is `afterReply` with its own command and those that follow it.  `outcome` says what the replies alone come
to, and `driver_follows` that this is what the device reports, in every run: the commands go out one at a time and in
their order, the status changes once, and nobody else's command or event moves the driver on.
-/
namespace Bte

open Bytes

/-! ## The commands -/

def hciCmdReplyPosStatus : Nat := 5
def hciCmdReplyPosData : Nat := 6
def bteAclAvailablePacketsUnset : Nat := 0xffff

/-- The `BteHciCommandCb` functions of the driver's commands. -/
def commandCompleteCb : FnPtr := .complete 0
def readBufferSizeCb : FnPtr := .complete 1
def readBdAddrCb : FnPtr := .complete 2
def readLocalFeaturesReplyCb : FnPtr := .complete 3
def readLocalVersionCb : FnPtr := .complete 4
def vendorCommandCb : FnPtr := .complete 5

/-- A command of a driver and the callback of its reply. -/
structure InitStage where
  ocf : UInt16
  ogf : UInt8
  parameters : List UInt8
  parser : FnPtr
  /-- The driver's callback, by identity. -/
  callback : Nat
  /-- `STOP_ON_FAILURE` comes first in the callback. -/
  checked : Bool
  /-- The callback sets the buffer size. -/
  stores : Bool

namespace InitStage

def len (s : InitStage) : UInt8 := hciCmdHdrLen + .ofNat s.parameters.length

/-- The command's buffer. -/
def command (s : InitStage) : List UInt8 := hciCommandAlloc s.ocf s.ogf s.len ++ s.parameters

/-- `bte_hci_reset` and the others, with the callback they are given. -/
def bteHciReset (callback : Nat) : InitStage := ⟨0x03, 0x03, [], commandCompleteCb, callback, true, false⟩
def bteHciReadBufferSize (callback : Nat) : InitStage := ⟨0x05, 0x04, [], readBufferSizeCb, callback, true, true⟩
def bteHciReadLocalVersion (callback : Nat) : InitStage := ⟨0x01, 0x04, [], readLocalVersionCb, callback, true, false⟩
def bteHciReadBdAddr (callback : Nat) : InitStage := ⟨0x09, 0x04, [], readBdAddrCb, callback, true, false⟩
def bteHciReadLocalFeatures (callback : Nat) : InitStage :=
  ⟨0x03, 0x04, [], readLocalFeaturesReplyCb, callback, true, false⟩
/-- The callbacks of the vendor commands do not look at their reply. -/
def bteHciVendorCommand (ocf : UInt16) (data : List UInt8) (callback : Nat) : InitStage :=
  ⟨ocf, 0x3F, data, vendorCommandCb, callback, false, false⟩

end InitStage

def wiiPatch0 : List UInt8 :=
  [0x70, 0x99, 0x08, 0x00, 0x88, 0x43, 0xd1, 0x07, 0x09, 0x0c, 0x08, 0x43, 0xa0, 0x62, 0x19, 0x23, 0xdb, 0x01,
    0x33, 0x80, 0x7c, 0xf7, 0x88, 0xf8, 0x28, 0x76, 0x80, 0xf7, 0x17, 0xff, 0x43, 0x78, 0xeb, 0x70, 0x19, 0x23,
    0xdb, 0x01, 0x33, 0x87, 0x7c, 0xf7, 0xbc, 0xfb, 0x0b, 0x60, 0xa3, 0x7b, 0x01, 0x49, 0x0b, 0x60, 0x90, 0xf7,
    0x96, 0xfb, 0xd8, 0x1d, 0x08, 0x00, 0x00, 0xf0, 0x04, 0xf8, 0x00, 0x23, 0x79, 0xf7, 0xe3, 0xfa, 0x00, 0x00,
    0x00, 0xb5, 0x00, 0x23, 0x11, 0x49, 0x0b, 0x60, 0x1d, 0x21, 0xc9, 0x03, 0x0b, 0x60, 0x7d, 0x20, 0x80, 0x01,
    0x01, 0x38, 0xfd, 0xd1, 0x0e, 0x4b, 0x0e, 0x4a, 0x13, 0x60, 0x47, 0x20, 0x00, 0x21, 0x96, 0xf7, 0x96, 0xff,
    0x46, 0x20, 0x00, 0x21, 0x96, 0xf7, 0x92, 0xff, 0x0a, 0x4a, 0x13, 0x68, 0x0a, 0x48, 0x03, 0x40, 0x13, 0x60,
    0x0a, 0x4a, 0x13, 0x68, 0x0a, 0x48, 0x03, 0x40, 0x13, 0x60, 0x09, 0x4a, 0x13, 0x68, 0x09, 0x48, 0x03, 0x40,
    0x13, 0x60, 0x00, 0xbd, 0x24, 0x80, 0x0e, 0x00, 0x81, 0x03, 0x0f, 0xfe, 0x5c, 0x00, 0x0f, 0x00, 0x60, 0xfc,
    0x0e, 0x00, 0xfe, 0xff, 0x00, 0x00, 0xfc, 0xfc, 0x0e, 0x00, 0xff, 0x9f, 0x00, 0x00, 0x30, 0xfc, 0x0e, 0x00,
    0x7f, 0xff, 0x00, 0x00]

def wiiPatch1 : List UInt8 :=
  [0x07, 0x20, 0xbc, 0x65, 0x01, 0x00, 0x84, 0x42, 0x09, 0xd2, 0x84, 0x42, 0x09, 0xd1, 0x21, 0x84, 0x5a, 0x00,
    0x00, 0x83, 0xf0, 0x74, 0xff, 0x09, 0x0c, 0x08, 0x43, 0x22, 0x00, 0x61, 0x00, 0x00, 0x83, 0xf0, 0x40, 0xfc,
    0x00, 0x00, 0x00, 0x00, 0x23, 0xcc, 0x9f, 0x01, 0x00, 0x6f, 0xf0, 0xe4, 0xfc, 0x03, 0x28, 0x7d, 0xd1, 0x24,
    0x3c, 0x62, 0x01, 0x00, 0x28, 0x20, 0x00, 0xe0, 0x60, 0x8d, 0x23, 0x68, 0x25, 0x04, 0x12, 0x01, 0x00, 0x20,
    0x1c, 0x20, 0x1c, 0x24, 0xe0, 0xb0, 0x21, 0x26, 0x74, 0x2f, 0x00, 0x00, 0x86, 0xf0, 0x18, 0xfd, 0x21, 0x4f,
    0x3b, 0x60]

/-! ## What a driver does -/

/-- The sizes `_bte_hci_dev_set_buffer_size` sets. -/
structure BufferSizes where
  aclMtu : Nat
  scoMtu : Nat
  aclMaxPackets : Nat
  scoMaxPackets : Nat
  aclAvailablePackets : Nat
deriving DecidableEq

/-- After `_bte_hci_dev_init`. -/
def BufferSizes.init : BufferSizes := ⟨0, 0, 0, 0, bteAclAvailablePacketsUnset⟩

/-- `_bte_hci_dev_set_buffer_size`, with the fields that `read_buffer_size_cb` reads. -/
def BufferSizes.set (b : BufferSizes) (reply : List UInt8) : BufferSizes :=
  let data := reply.drop hciCmdReplyPosData
  let aclMaxPackets := leVal (slice data 3 2)
  { aclMtu := leVal (slice data 0 2)
    scoMtu := (data.getD 2 0).toNat
    aclMaxPackets := aclMaxPackets
    scoMaxPackets := leVal (slice data 5 2)
    aclAvailablePackets :=
      if b.aclAvailablePackets = bteAclAvailablePacketsUnset then aclMaxPackets else b.aclAvailablePackets }

/-- One call of a driver's callback: with the reply, or with none when the command was refused. -/
structure InitReply where
  callback : Nat
  status : UInt8
  buffer : Option (List UInt8)
deriving DecidableEq

/-- What a command that finds no slot is answered with. -/
def InitReply.memoryFull (callback : Nat) : InitReply := ⟨callback, bteHciMemoryFull, none⟩

/-- The driver's client and what it hands to its callbacks. -/
structure DriverSetup where
  client : Hci
  userdata : Ptr
  program : List InitStage

structure DriverRun where
  dev : HciDev
  sizes : BufferSizes
  /-- `dev->address`, once it is known. -/
  address : Option BdAddr
  /-- The calls of the driver's callbacks. -/
  replies : List InitReply
  /-- The commands given to the backend for the driver. -/
  sent : List (List UInt8)

section
variable (c : DriverSetup) (reports : Fin 4 → Callback)

/-- `STOP_ON_FAILURE`, when it stops. -/
def stopOnFailure (d : DriverRun) : DriverRun :=
  { d with dev := bteHciDevRemoveClient (bteHciDevSetStatus d.dev (fun i => (reports i).cb) .failed) c.client }

def initializationDone (d : DriverRun) : DriverRun :=
  { d with dev := bteHciDevSetStatus (bteHciDevRemoveClient d.dev c.client) (fun i => (reports i).cb) .initialized }

/-- A command: when it is refused, its callback is called at once. -/
def DriverRun.issue (d : DriverRun) (s : InitStage) (refused : DriverRun → DriverRun) : DriverRun :=
  match bteHciDevAddPendingCommand d.dev (some c.client) s.ocf s.ogf s.len s.parser (.client s.callback) c.userdata with
  | (some _, dev) => { d with dev := dev, sent := d.sent ++ [s.command] }
  | (none, dev) => refused { d with dev := dev }

/-- The callback of a command, when `rest` are the commands after it. -/
def afterReply : InitStage → List InitStage → InitReply → DriverRun → DriverRun
  | s, rest, reply, d =>
    let d := { d with replies := d.replies ++ [reply] }
    if s.checked = true ∧ reply.status ≠ 0 then stopOnFailure c reports d
    else
      let d := { d with sizes := if s.stores then d.sizes.set (reply.buffer.getD []) else d.sizes }
      match rest with
      | [] => initializationDone c reports d
      | t :: rest => d.issue c t (afterReply t rest (.memoryFull t.callback))

end

/-! ### The drivers -/

namespace Generic

/-- The callbacks of `drivers/generic.c`, each with its command. -/
def onResetDone : InitStage := .bteHciReset 0
def onBufferSizeDone : InitStage := .bteHciReadBufferSize 1
def onBdAddrDone : InitStage := .bteHciReadBdAddr 2
def readLocalFeaturesCb : InitStage := .bteHciReadLocalFeatures 3

/-- In the order in which they set each other. -/
def program : List InitStage := [onResetDone, onBufferSizeDone, onBdAddrDone, readLocalFeaturesCb]

end Generic

namespace Wii

/-- The callbacks of `drivers/wii.c`, each with its command. -/
def onResetDone : InitStage := .bteHciReset 0
def onBufferSizeDone : InitStage := .bteHciReadBufferSize 1
def onReadLocalVersionDone : InitStage := .bteHciReadLocalVersion 2
def onBdAddrDone : InitStage := .bteHciReadBdAddr 3
def onReadLocalFeatures : InitStage := .bteHciReadLocalFeatures 4
def onPatchStartDone : InitStage := .bteHciVendorCommand 0x4F [0] 5
def onPatchContDone : InitStage := .bteHciVendorCommand 0x4C wiiPatch0 6
def onPatchEndDone : InitStage := .bteHciVendorCommand 0x4F wiiPatch1 7
def onResetPatchedDone : InitStage := .bteHciReset 8

/-- In the order in which they set each other. -/
def program : List InitStage :=
  [onResetDone, onBufferSizeDone, onReadLocalVersionDone, onBdAddrDone, onReadLocalFeatures, onPatchStartDone,
    onPatchContDone, onPatchEndDone, onResetPatchedDone]

end Wii

/-! ## The driver among the other clients -/

/-- A call of another client, or an event of the controller. -/
inductive DriverOp where
  | api (a : ApiCall)
  | event (buffer : List UInt8) (callback : Callback) (reports : Fin 4 → Callback)

namespace DriverRun

/-- The driver's slot that a Command Complete is for. -/
def replySlot (d : DriverRun) (c : Hci) (buffer : List UInt8) : Option (Fin 8) :=
  if buffer.getD 0 0 = hciCommandComplete ∧ ¬ buffer.getD 1 0 < 3 then
    (bteHciDevFindPendingCommand d.dev buffer).filter fun i => (d.dev.pendingCommands i).hci = some c
  else none

/-- The parser of the reply and the driver's callback.  `read_bd_addr_cb` keeps the first address it is told. -/
def answer (d : DriverRun) (c : DriverSetup) (reports : Fin 4 → Callback) (cb : CommandCb) (buffer : List UInt8) :
    DriverRun :=
  let d :=
    if cb.word0 = readBdAddrCb ∧ d.address = none then
      let data := buffer.drop hciCmdReplyPosData
      { d with address := some ⟨data.getD 0 0, data.getD 1 0, data.getD 2 0, data.getD 3 0, data.getD 4 0, data.getD 5 0⟩ }
    else d
  match c.program.dropWhile fun s => cb.word1 ≠ .client s.callback with
  | [] => d
  | s :: rest => afterReply c reports s rest ⟨s.callback, buffer.getD hciCmdReplyPosStatus 0, some buffer⟩ d

def step (c : DriverSetup) (d : DriverRun) : DriverOp → DriverRun
  | .api a => { d with dev := a.apply d.dev }
  | .event buffer callback reports =>
    match d.replySlot c.client buffer with
    | none => { d with dev := bteHciDevHandleEvent d.dev callback.cb buffer }
    | some i =>
      let slot := d.dev.pendingCommands i
      let dev := (bteHciDevFreeCommand (d.dev.noteComplete buffer) i).call
        (.complete slot.commandCb.word0 slot.hci buffer slot.commandCb.word1 slot.userdata)
      let d := { d with dev := dev }.answer c reports slot.commandCb buffer
      match bteHciDevHandlerForEvent d.dev (buffer.getD 0 0) with
      | none => d
      | some h => { d with dev := runHandler d.dev callback.cb buffer h }

/-- The driver's `init`, called by the first `bte_client_new`. -/
def init (c : DriverSetup) (reports : Fin 4 → Callback) : DriverRun :=
  let dev := bteClientNew { HciDev.init with initStatus := .initializing } c.client
  match c.program with
  | [] => ⟨dev, .init, none, [], []⟩
  | s :: rest => DriverRun.issue c ⟨dev, .init, none, [], []⟩ s (afterReply c reports s rest (.memoryFull s.callback))

end DriverRun

/-- Nobody else uses the driver's client; an event frees no slot twice and finds the read's own event code. -/
def DriverOp.Fair (c : DriverSetup) (d : DriverRun) : DriverOp → Prop
  | .api a => a.hci ≠ some c.client
  | .event buffer callback reports => (Op.event buffer callback).Routable d.dev ∧ Foreign c.client callback.calls ∧
      ∀ i, Foreign c.client (reports i).calls

instance decidableDriverOpFair (c : DriverSetup) (d : DriverRun) : ∀ o : DriverOp, Decidable (o.Fair c d)
  | .api _ => inferInstanceAs (Decidable (_ ≠ _))
  | .event .. => inferInstanceAs (Decidable (_ ∧ _ ∧ ∀ _ : Fin 4, _))

/-! ## What the replies come to -/

/-- The reply is the stage's, and lets the driver go on. -/
structure InitStage.Passes (s : InitStage) (r : InitReply) : Prop where
  callback : r.callback = s.callback
  success : ¬ (s.checked = true ∧ r.status ≠ 0)

/-- The status after the replies; none if a callback was called out of turn. -/
def outcome : List InitStage → List InitReply → Option InitStatus
  | [], [] => some .initialized
  | [], _ :: _ => none
  | _ :: _, [] => some .initializing
  | s :: rest, r :: rs =>
    if r.callback ≠ s.callback then none
    else if s.checked = true ∧ r.status ≠ 0 then if rs = [] then some .failed else none
    else outcome rest rs

/-- The commands that were sent: those that have been answered, and the one that is waiting. -/
def sentFor : List InitStage → List InitReply → List (List UInt8)
  | [], _ => []
  | s :: _, [] => [s.command]
  | s :: rest, r :: rs =>
    (if r.buffer.isSome then [s.command] else []) ++ if s.checked = true ∧ r.status ≠ 0 then [] else sentFor rest rs

/-- The sizes after the replies. -/
def sizesAfter : BufferSizes → List InitStage → List InitReply → BufferSizes
  | b, [], _ => b
  | b, _ :: _, [] => b
  | b, s :: rest, r :: rs =>
    if s.checked = true ∧ r.status ≠ 0 then b
    else sizesAfter (if s.stores then b.set (r.buffer.getD []) else b) rest rs

theorem outcome_append {pre : List InitStage} {rs : List InitReply} (h : List.Forall₂ InitStage.Passes pre rs)
    (post : List InitStage) (more : List InitReply) : outcome (pre ++ post) (rs ++ more) = outcome post more := by
  induction h with
  | nil => rfl
  | cons hp _ ih => rw [List.cons_append, List.cons_append, outcome, if_neg (not_not.2 hp.callback), if_neg hp.success, ih]

theorem sentFor_append {pre : List InitStage} {rs : List InitReply} (h : List.Forall₂ InitStage.Passes pre rs)
    (post : List InitStage) (more : List InitReply) :
    sentFor (pre ++ post) (rs ++ more) = sentFor pre rs ++ sentFor post more := by
  induction h with
  | nil => rfl
  | cons hp _ ih =>
    rw [List.cons_append, List.cons_append, sentFor, sentFor, if_neg hp.success, if_neg hp.success, ih, List.append_assoc]

theorem sizesAfter_append {pre : List InitStage} {rs : List InitReply} (h : List.Forall₂ InitStage.Passes pre rs)
    (post : List InitStage) (more : List InitReply) : ∀ b : BufferSizes,
      sizesAfter b (pre ++ post) (rs ++ more) = sizesAfter (sizesAfter b pre rs) post more := by
  induction h with
  | nil => exact fun _ => rfl
  | cons hp _ ih =>
    intro b
    rw [List.cons_append, List.cons_append, sizesAfter, sizesAfter, if_neg hp.success, if_neg hp.success, ih]

/-! ## The device along the way -/

/-- The table is sound, and the status is this. -/
structure Sound (dev : HciDev) (status : InitStatus) : Prop where
  table : TableInv dev
  routing : RoutingInv dev
  initStatus : dev.initStatus = status

theorem stable_initStatus (status : InitStatus) : Stable fun dev => dev.initStatus = status where
  quiet := fun hq h => hq.initStatus.trans h
  apply := by
    intro dev a h
    cases apply_written dev a with
    | quiet hq => exact hq.initStatus.trans h
    | issued _ _ _ _ hi _ _ => exact hi.initStatus.trans h
    | created hci =>
      show (bteClientNew dev hci).initStatus = status
      unfold bteClientNew bteHciDevAddClient
      split <;> exact h
    | registered hci cb u =>
      show (bteHciOnInitialized dev hci cb u).initStatus = status
      unfold bteHciOnInitialized
      simp only
      split <;> exact h

theorem Sound.of_path {dev dev' : HciDev} {status status' : InitStatus} {F : Fin 8 → Prop} (h : Sound dev status)
    (hp : Path ReadCode F dev dev') (hs : dev'.initStatus = status') : Sound dev' status' :=
  ⟨Path.tableInv hp h.table, Path.routingInv hp h.routing, hs⟩

theorem sound_apply {dev : HciDev} {status : InitStatus} (h : Sound dev status) (a : ApiCall) :
    Sound (a.apply dev) status :=
  h.of_path (apply_path dev a) ((stable_initStatus status).apply a h.initStatus)

theorem sound_event {dev : HciDev} {status : InitStatus} (h : Sound dev status) {buffer : List UInt8} {callback : Callback}
    (hok : (Op.event buffer callback).Routable dev) : Sound (bteHciDevHandleEvent dev callback.cb buffer) status :=
  h.of_path (step_path h.table (.event buffer callback) hok.1 hok.2)
    ((stable_initStatus status).event callback h.initStatus buffer)

theorem sound_setStatus {dev : HciDev} {status : InitStatus} (h : Sound dev status) (reports : Fin 4 → Callback)
    (status' : InitStatus) : Sound (bteHciDevSetStatus dev (fun i => (reports i).cb) status') status' := by
  refine h.of_path (setStatus_path h.table reports status') ?_
  have hP := stable_initStatus status'
  have hloop : ∀ (l : List (Fin 4)) (d : HciDev), d.initStatus = status' →
      (l.foldl (notifyInitialized fun i => (reports i).cb) d).initStatus = status' := by
    intro l
    induction l with
    | nil => exact fun _ hd => hd
    | cons i l ih => exact fun d hd => ih _ (hP.notifyInitialized (fun _ _ h => h) (fun _ _ h => h) reports hd i)
  unfold bteHciDevSetStatus
  simp only
  split
  · exact hloop _ _ rfl
  · rfl

theorem sound_removeClient {dev : HciDev} {status : InitStatus} (h : Sound dev status) (c : Hci) :
    Sound (bteHciDevRemoveClient dev c) status :=
  h.of_path (removeClient_path dev c) ((removeClient_spec dev c).1.trans h.initStatus)

theorem sound_addPending {dev : HciDev} {status : InitStatus} (h : Sound dev status) (hci : Option Hci) (ocf : UInt16)
    (ogf len : UInt8) (complete clientCb : FnPtr) (u : Ptr) :
    Sound (bteHciDevAddPendingCommand dev hci ocf ogf len complete clientCb u).2 status :=
  h.of_path (F := fun _ => True) (addCommand_path dev hci ocf ogf len (.inl rfl) u)
    ((quiet_addCommand dev hci ocf ogf len (.inl rfl) u).initStatus.trans h.initStatus)

/-! ## The invariant -/

/-- The driver waits for the reply of `s`, and `rest` comes after it. -/
structure Waiting (c : DriverSetup) (d : DriverRun) (pre : List InitStage) (s : InitStage) (rest : List InitStage)
    (i : Fin 8) : Prop where
  program : c.program = pre ++ s :: rest
  passed : List.Forall₂ InitStage.Passes pre d.replies
  owned : ∀ j, d.dev.Owns c.client j ↔ j = i
  slot : d.dev.pendingCommands i =
    ⟨commandMatcher hciCommandComplete (opcodeLe s.ocf s.ogf), some c.client, c.userdata, ⟨s.parser, .client s.callback⟩⟩

/-- **The invariant of a driver's run.** -/
structure DriverInv (c : DriverSetup) (d : DriverRun) : Prop where
  sound : Sound d.dev d.dev.initStatus
  outcome : outcome c.program d.replies = some d.dev.initStatus
  sent : d.sent = sentFor c.program d.replies
  sizes : d.sizes = sizesAfter .init c.program d.replies
  waiting : d.dev.initStatus = .initializing → ∃ pre s rest i, Waiting c d pre s rest i
  done : d.dev.initStatus ≠ .initializing → ∀ j, ¬ d.dev.Owns c.client j

/-- The callback of `s` is about to be called. -/
structure Called (c : DriverSetup) (d : DriverRun) (pre : List InitStage) (s : InitStage) (rest : List InitStage)
    (reply : InitReply) : Prop where
  program : c.program = pre ++ s :: rest
  passed : List.Forall₂ InitStage.Passes pre d.replies
  callback : reply.callback = s.callback
  sound : Sound d.dev .initializing
  owned : ∀ j, ¬ d.dev.Owns c.client j
  sent : d.sent = sentFor pre d.replies ++ if reply.buffer.isSome then [s.command] else []
  sizes : d.sizes = sizesAfter .init pre d.replies

/-- A run that is over. -/
theorem inv_over {c : DriverSetup} {d : DriverRun} {status : InitStatus} (hne : status ≠ .initializing)
    (hsound : Sound d.dev status) (hout : Bte.outcome c.program d.replies = some status)
    (hsent : d.sent = sentFor c.program d.replies) (hsizes : d.sizes = sizesAfter .init c.program d.replies)
    (howned : ∀ j, ¬ d.dev.Owns c.client j) : DriverInv c d := by
  obtain ⟨table, routing, rfl⟩ := hsound
  exact ⟨⟨table, routing, rfl⟩, hout, hsent, hsizes, fun h => absurd h hne, fun _ => howned⟩

section
variable {c : DriverSetup} {reports : Fin 4 → Callback} (hf : ∀ i, Foreign c.client (reports i).calls)
include hf

/-- The callback stops at a failure. -/
theorem inv_stop {d : DriverRun} {pre rest : List InitStage} {s : InitStage} {reply : InitReply}
    (h : Called c d pre s rest reply) (hfail : s.checked = true ∧ reply.status ≠ 0) :
    DriverInv c (stopOnFailure c reports { d with replies := d.replies ++ [reply] }) := by
  have hsound := sound_removeClient (sound_setStatus h.sound reports .failed) c.client
  have hnone : GivesNone c.client d.dev
      (bteHciDevRemoveClient (bteHciDevSetStatus d.dev (fun i => (reports i).cb) .failed) c.client) :=
    (givesNone_setStatus d.dev hf .failed).trans (givesNone_removeClient _ _)
  unfold stopOnFailure
  simp only
  generalize bteHciDevRemoveClient (bteHciDevSetStatus d.dev (fun i => (reports i).cb) .failed) c.client =
      dev' at hsound hnone
  refine inv_over (by decide) hsound ?_ ?_ ?_ fun j hj => h.owned j (hnone j hj)
  · show Bte.outcome c.program (d.replies ++ [reply]) = _
    rw [h.program, outcome_append h.passed, Bte.outcome, if_neg (not_not.2 h.callback), if_pos hfail, if_pos rfl]
  · show d.sent = sentFor c.program (d.replies ++ [reply])
    rw [h.program, sentFor_append h.passed, sentFor, if_pos hfail, List.append_nil, h.sent]
  · show d.sizes = sizesAfter .init c.program (d.replies ++ [reply])
    rw [h.program, sizesAfter_append h.passed, sizesAfter, if_pos hfail, h.sizes]

/-- The last callback reports success. -/
theorem inv_done {d : DriverRun} (hsound : Sound d.dev .initializing) (howned : ∀ j, ¬ d.dev.Owns c.client j)
    (hpassed : List.Forall₂ InitStage.Passes c.program d.replies) (hsent : d.sent = sentFor c.program d.replies)
    (hsizes : d.sizes = sizesAfter .init c.program d.replies) : DriverInv c (initializationDone c reports d) := by
  have hsound' := sound_setStatus (sound_removeClient hsound c.client) reports .initialized
  have hnone : GivesNone c.client d.dev
      (bteHciDevSetStatus (bteHciDevRemoveClient d.dev c.client) (fun i => (reports i).cb) .initialized) :=
    (givesNone_removeClient d.dev c.client).trans (givesNone_setStatus _ hf .initialized)
  unfold initializationDone
  generalize bteHciDevSetStatus (bteHciDevRemoveClient d.dev c.client) (fun i => (reports i).cb) .initialized = dev'
    at hsound' hnone
  refine inv_over (by decide) hsound' ?_ hsent hsizes fun j hj => howned j (hnone j hj)
  have h := outcome_append hpassed [] []
  rwa [List.append_nil, List.append_nil] at h

end

/-- A run that waits. -/
theorem inv_waiting {c : DriverSetup} {d : DriverRun} {pre rest : List InitStage} {s : InitStage} {i : Fin 8}
    (hw : Waiting c d pre s rest i) (hsound : Sound d.dev .initializing)
    (hsent : d.sent = sentFor pre d.replies ++ [s.command]) (hsizes : d.sizes = sizesAfter .init pre d.replies) :
    DriverInv c d := by
  have hstatus := hsound.initStatus
  have hreplies : d.replies = d.replies ++ [] := (List.append_nil _).symm
  refine ⟨by rwa [hstatus], ?_, ?_, ?_, fun _ => ⟨pre, s, rest, i, hw⟩, fun h => absurd hstatus h⟩
  · rw [hstatus, hw.program, hreplies, outcome_append hw.passed, Bte.outcome]
  · rw [hsent, hw.program]
    conv_rhs => rw [hreplies, sentFor_append hw.passed, sentFor]
  · rw [hsizes, hw.program]
    conv_rhs => rw [hreplies, sizesAfter_append hw.passed, sizesAfter]

/-- What a refused command leaves is what it found. -/
theorem addCommand_slots {dev : HciDev} {hci : Option Hci} {ocf : UInt16} {ogf len ev : UInt8} {cb : CommandCb} {u : Ptr}
    (h : (bteHciDevAddCommand dev hci ocf ogf len ev cb u).1 = none) :
    (bteHciDevAddCommand dev hci ocf ogf len ev cb u).2.pendingCommands = dev.pendingCommands := by
  cases hs : dev.allocSlot (commandMatcher ev ((hciCommandAlloc ocf ogf len).take 2)) with
  | some i => simp [bteHciDevAddCommand, bteHciDevAllocCommand, hs] at h
  | none =>
    rw [addCommand_snd]
    simp only [hs]
    split <;> rfl

/-- **A command goes out, or its callback is called at once.** -/
theorem inv_issue {c : DriverSetup} {d : DriverRun} {pre rest : List InitStage} {s : InitStage}
    (hprogram : c.program = pre ++ s :: rest) (hpassed : List.Forall₂ InitStage.Passes pre d.replies)
    (hsound : Sound d.dev .initializing) (howned : ∀ j, ¬ d.dev.Owns c.client j) (hsent : d.sent = sentFor pre d.replies)
    (hsizes : d.sizes = sizesAfter .init pre d.replies) {refused : DriverRun → DriverRun}
    (hrefused : ∀ d', Called c d' pre s rest (.memoryFull s.callback) → DriverInv c (refused d')) :
    DriverInv c (d.issue c s refused) := by
  have hsound' := sound_addPending hsound (some c.client) s.ocf s.ogf s.len s.parser (.client s.callback) c.userdata
  unfold DriverRun.issue
  cases hr : bteHciDevAddPendingCommand d.dev (some c.client) s.ocf s.ogf s.len s.parser (.client s.callback) c.userdata with
  | mk answer dev' =>
    rw [hr] at hsound'
    cases answer with
    | none =>
      have hslots : dev'.pendingCommands = d.dev.pendingCommands := by
        have h := addCommand_slots (congrArg Prod.fst hr)
        rwa [show bteHciDevAddCommand .. = _ from hr] at h
      refine hrefused _ ⟨hprogram, hpassed, rfl, hsound', ?_, ?_, hsizes⟩
      · exact fun j hj => howned j ((owns_of_slots hslots).1 hj)
      · rw [hsent]
        exact (List.append_nil _).symm
    | some b =>
      obtain ⟨i, -, hslots⟩ := addCommand_registers hsound.table (h := by
        rw [show bteHciDevAddCommand .. = _ from hr]
        exact Option.some_ne_none b)
      rw [show bteHciDevAddCommand .. = _ from hr] at hslots
      have hslot : dev'.pendingCommands i = ⟨commandMatcher hciCommandComplete (opcodeLe s.ocf s.ogf), some c.client,
          c.userdata, ⟨s.parser, .client s.callback⟩⟩ := by rw [hslots, Function.update_self]
      refine inv_waiting ⟨hprogram, hpassed, fun j => ?_, hslot⟩ hsound' ?_ hsizes
      · by_cases hj : j = i
        · subst hj
          have hbuilt : Built ReadCode (commandMatcher hciCommandComplete (opcodeLe s.ocf s.ogf)) :=
            built_command (.inl rfl) (by simp [opcodeLe])
          have hmatcher := hbuilt.not_empty
          simp [HciDev.Owns, HciDev.Occupied, hslot, hmatcher]
        · have hother : dev'.pendingCommands j = d.dev.pendingCommands j := by rw [hslots, Function.update_of_ne hj]
          have hno := howned j
          rw [HciDev.Owns, HciDev.Occupied] at hno
          simp [HciDev.Owns, HciDev.Occupied, hother, hj]
          tauto
      · rw [hsent]

/-- **Every callback of the driver keeps the invariant.** -/
theorem inv_afterReply {c : DriverSetup} {reports : Fin 4 → Callback} (hf : ∀ i, Foreign c.client (reports i).calls) :
    ∀ (rest : List InitStage) {d : DriverRun} {pre : List InitStage} {s : InitStage} {reply : InitReply},
      Called c d pre s rest reply → DriverInv c (afterReply c reports s rest reply d)
  | rest, d, pre, s, reply, h => by
    unfold afterReply
    simp only
    split
    · rename_i hfail
      exact inv_stop hf h hfail
    · rename_i hpass
      have hpassed : List.Forall₂ InitStage.Passes (pre ++ [s]) (d.replies ++ [reply]) :=
        List.rel_append h.passed (.cons ⟨h.callback, hpass⟩ .nil)
      have hsent : d.sent = sentFor (pre ++ [s]) (d.replies ++ [reply]) := by
        rw [sentFor_append h.passed, h.sent, sentFor, if_neg hpass, sentFor, List.append_nil]
      have hsizes : (if s.stores then d.sizes.set (reply.buffer.getD []) else d.sizes) =
          sizesAfter .init (pre ++ [s]) (d.replies ++ [reply]) := by
        rw [sizesAfter_append h.passed, ← h.sizes, sizesAfter, if_neg hpass, sizesAfter]
      cases rest with
      | nil =>
        have hprogram : c.program = pre ++ [s] := h.program
        refine inv_done hf h.sound h.owned ?_ ?_ ?_
        · rwa [hprogram]
        · rwa [hprogram]
        · rwa [hprogram]
      | cons t rest =>
        have hprogram : c.program = (pre ++ [s]) ++ t :: rest := by rw [h.program, List.append_assoc]; rfl
        exact inv_issue (d := { d with replies := d.replies ++ [reply], sizes := _ }) hprogram hpassed h.sound h.owned hsent
          hsizes fun d' hd' => inv_afterReply hf rest hd'

/-! ## A whole run -/

/-- A step that leaves the driver's slots and the rest of its run alone. -/
theorem DriverInv.others {c : DriverSetup} {d : DriverRun} (h : DriverInv c d) {dev' : HciDev}
    (hsound : Sound dev' d.dev.initStatus) (howned : ∀ i, (dev'.Owns c.client i ↔ d.dev.Owns c.client i) ∧
      (d.dev.Owns c.client i → dev'.pendingCommands i = d.dev.pendingCommands i)) :
    DriverInv c { d with dev := dev' } := by
  have hstatus := hsound.initStatus
  refine ⟨?_, ?_, h.sent, h.sizes, ?_, ?_⟩
  · show Sound dev' dev'.initStatus
    rwa [hstatus]
  · show Bte.outcome c.program d.replies = some dev'.initStatus
    rw [hstatus]
    exact h.outcome
  · intro hinit
    obtain ⟨pre, s, rest, i, hw⟩ := h.waiting (hstatus.symm.trans hinit)
    exact ⟨pre, s, rest, i, hw.program, hw.passed, fun j => (howned j).1.trans (hw.owned j),
      ((howned i).2 ((hw.owned i).2 rfl)).trans hw.slot⟩
  · intro hover j hj
    exact h.done (fun h' => hover (hstatus.trans h')) j ((howned j).1.1 hj)

/-- The driver's slot matches Command Completes only. -/
theorem DriverInv.code {c : DriverSetup} {d : DriverRun} (h : DriverInv c d) {i : Fin 8} (ho : d.dev.Owns c.client i)
    {buffer : List UInt8} (hm : bteDataMatcherCompare (d.dev.pendingCommands i).matcher buffer = true) :
    buffer.getD 0 0 = hciCommandComplete := by
  by_cases hinit : d.dev.initStatus = .initializing
  · obtain ⟨pre, s, rest, j, hw⟩ := h.waiting hinit
    obtain rfl := (hw.owned i).1 ho
    rw [hw.slot, commandMatcher_compare _ (.inl rfl)] at hm
    exact code_of_matches hm.1
  · exact absurd ho (h.done hinit i)

theorem dropWhile_program {pre rest : List InitStage} {s : InitStage}
    (hd : ((pre ++ s :: rest).map InitStage.callback).Nodup) :
    (pre ++ s :: rest).dropWhile (fun t => FnPtr.client s.callback ≠ .client t.callback) = s :: rest := by
  have hpre : ∀ t ∈ pre, decide (FnPtr.client s.callback ≠ .client t.callback) = true := by
    intro t ht
    rw [List.map_append, List.map_cons, List.nodup_append] at hd
    have hne := hd.2.2 t.callback (List.mem_map_of_mem ht) s.callback List.mem_cons_self
    simpa using Ne.symm hne
  rw [List.dropWhile_append_of_pos hpre]
  simp

/-- **The reply of the driver's command.** -/
theorem DriverInv.reply {c : DriverSetup} (hdistinct : (c.program.map InitStage.callback).Nodup) {d : DriverRun}
    (h : DriverInv c d) {reports : Fin 4 → Callback} (hf : ∀ i, Foreign c.client (reports i).calls) {i : Fin 8}
    (ho : d.dev.Owns c.client i) (buffer : List UInt8) (call : Call) : DriverInv c
      (DriverRun.answer { d with dev := (bteHciDevFreeCommand (d.dev.noteComplete buffer) i).call call } c reports
        (d.dev.pendingCommands i).commandCb buffer) := by
  have hinit : d.dev.initStatus = .initializing := by
    by_contra hover
    exact h.done hover i ho
  obtain ⟨pre, s, rest, j, hw⟩ := h.waiting hinit
  obtain rfl := (hw.owned i).1 ho
  have hslots := (noteComplete_frame d.dev buffer).1
  have ho' : (d.dev.noteComplete buffer).Owns c.client i := (owns_of_slots hslots).2 ho
  have hsound : Sound ((bteHciDevFreeCommand (d.dev.noteComplete buffer) i).call call) .initializing := by
    have hstatus : (d.dev.noteComplete buffer).initStatus = d.dev.initStatus :=
      (Stable.quiet_noteComplete d.dev buffer).initStatus
    refine h.sound.of_path (F := fun _ => True) (.tail (.tail (.single (keep_noteComplete d.dev buffer))
      (.free _ i ho'.1 trivial)) (keep_call _ call)) (hstatus.trans hinit)
  have howned : ∀ k, ¬ ((bteHciDevFreeCommand (d.dev.noteComplete buffer) i).call call).Owns c.client k := by
    intro k hk
    obtain ⟨hne, hk'⟩ := owns_free.1 ((owns_of_slots (call_pendingCommands _ _)).1 hk)
    exact hne ((hw.owned k).1 ((owns_of_slots hslots).1 hk'))
  have hsent : d.sent = sentFor pre d.replies ++ [s.command] := by
    have hs := h.sent
    rw [hw.program, ← List.append_nil d.replies, sentFor_append hw.passed, sentFor] at hs
    exact hs
  have hsizes : d.sizes = sizesAfter .init pre d.replies := by
    have hs := h.sizes
    rw [hw.program, ← List.append_nil d.replies, sizesAfter_append hw.passed, sizesAfter] at hs
    exact hs
  have hdrop := dropWhile_program (hw.program ▸ hdistinct)
  generalize (bteHciDevFreeCommand (d.dev.noteComplete buffer) i).call call = dev' at hsound howned
  unfold DriverRun.answer
  rw [hw.slot]
  simp only [hw.program, hdrop]
  split
  · exact inv_afterReply hf rest ⟨hw.program, hw.passed, rfl, hsound, howned, hsent, hsizes⟩
  · exact inv_afterReply hf rest ⟨hw.program, hw.passed, rfl, hsound, howned, hsent, hsizes⟩

theorem driverInv_step {c : DriverSetup} (hdistinct : (c.program.map InitStage.callback).Nodup) (d : DriverRun)
    (o : DriverOp) (h : DriverInv c d) (ho : o.Fair c d) : DriverInv c (d.step c o) := by
  cases o with
  | api a => exact h.others (sound_apply h.sound a) fun i => apply_owned h.sound.table ho
  | event buffer callback reports =>
    obtain ⟨hok, hf, hreports⟩ := ho
    simp only [DriverRun.step]
    split
    · rename_i hnone
      refine h.others (sound_event h.sound hok) fun i => event_owned h.sound.table h.sound.routing hf hok ?_ ?_
      · intro i hfind hown
        have hcode := h.code hown (find_spec hfind).2
        refine ⟨hcode, ?_⟩
        by_contra hlong
        rw [DriverRun.replySlot, if_pos ⟨hcode, hlong⟩, hfind] at hnone
        simp [hown.2] at hnone
      · intro i hown
        rw [or_iff_not_imp_right]
        exact fun hm => h.code hown (by simpa using hm)
    · rename_i i hi
      have hcode : buffer.getD 0 0 = hciCommandComplete := by
        by_contra hne
        rw [DriverRun.replySlot, if_neg fun hc => hne hc.1] at hi
        cases hi
      have hown : d.dev.Owns c.client i := by
        rw [DriverRun.replySlot] at hi
        split at hi
        · obtain ⟨hfind, hhci⟩ := Option.filter_eq_some_iff.1 hi
          exact ⟨(find_spec hfind).1, of_decide_eq_true hhci⟩
        · cases hi
      have hnext := h.reply hdistinct hreports hown buffer (.complete (d.dev.pendingCommands i).commandCb.word0
        (d.dev.pendingCommands i).hci buffer (d.dev.pendingCommands i).commandCb.word1 (d.dev.pendingCommands i).userdata)
      rw [no_reply_handler hnext.sound.table hnext.sound.routing (.inl hcode)]
      exact hnext

/-- The device as the driver's `init` finds it. -/
theorem sound_start (c : Hci) :
    Sound (bteClientNew { HciDev.init with initStatus := .initializing } c) .initializing ∧
      ∀ j, ¬ (bteClientNew { HciDev.init with initStatus := .initializing } c).Owns c j := by
  have hstart : Path ReadCode (fun _ => True) HciDev.init { HciDev.init with initStatus := .initializing } :=
    .single (.keep rfl rfl rfl rfl rfl)
  have hsound : Sound { HciDev.init with initStatus := .initializing } .initializing :=
    ⟨Path.tableInv hstart tableInv_init, Path.routingInv hstart routingInv_init, rfl⟩
  refine ⟨sound_apply hsound (.addClient c), fun j hj => ?_⟩
  have hold : HciDev.Owns { HciDev.init with initStatus := .initializing } c j :=
    (givesNone_of_slots rfl).trans (givesNone_addClient _ c) j hj
  have hempty : ∀ k, ¬ HciDev.init.Occupied k := by decide
  exact hempty j hold.1

theorem driverInv_init {c : DriverSetup} (hne : c.program ≠ []) {reports : Fin 4 → Callback}
    (hf : ∀ i, Foreign c.client (reports i).calls) : DriverInv c (.init c reports) := by
  obtain ⟨hsound, howned⟩ := sound_start c.client
  obtain ⟨s, rest, hprogram⟩ := List.exists_cons_of_ne_nil hne
  unfold DriverRun.init
  simp only [hprogram]
  have hnext : c.program = [] ++ s :: rest := hprogram
  exact inv_issue hnext .nil hsound howned rfl rfl fun d' hd' => inv_afterReply hf rest hd'

/-- **A driver's initialization**: in every run in which nobody else uses its client and no event frees a slot twice, the
callbacks are called in their order, each once, and the status is what their replies come to; the commands go out one at a
time, the next when the one before has been answered; and the driver holds one slot while it is initializing and none
afterwards. -/
theorem driver_follows (c : DriverSetup) (hne : c.program ≠ []) (hdistinct : (c.program.map InitStage.callback).Nodup)
    (reports : Fin 4 → Callback) (hf : ∀ i, Foreign c.client (reports i).calls) (ops : List DriverOp)
    (hops : Sys.Admissible (DriverRun.step c) (fun d o => o.Fair c d) (.init c reports) ops) (d : DriverRun)
    (hd : Sys.run (DriverRun.step c) (.init c reports) ops = d) :
    outcome c.program d.replies = some d.dev.initStatus ∧ d.sent = sentFor c.program d.replies ∧
    d.sizes = sizesAfter .init c.program d.replies ∧
    (d.dev.initStatus = .initializing → ∃ i, ∀ j, d.dev.Owns c.client j ↔ j = i) ∧
    (d.dev.initStatus ≠ .initializing → ∀ j, ¬ d.dev.Owns c.client j) := by
  have hinv : DriverInv c d := by
    rw [← hd]
    exact Sys.inv_run (driverInv_step hdistinct) ops _ (driverInv_init hne hf) hops
  refine ⟨hinv.outcome, hinv.sent, hinv.sizes, fun hinit => ?_, hinv.done⟩
  obtain ⟨pre, s, rest, i, hw⟩ := hinv.waiting hinit
  exact ⟨i, hw.owned⟩

/-- Client 0 is the driver's. -/
def genericSetup : DriverSetup := ⟨0, 0, Generic.program⟩

/-- Another client is made, waits to be told, and its read of the address is refused; then the replies come. -/
def genericRun : List DriverOp :=
  [.api (.addClient 1), .api (.onInitialized 1 (.client 9) 3),
    .event [0x0E, 4, 1, 0x03, 0x0C, 0] ⟨[], false⟩ fun _ => ⟨[], false⟩,
    .event [0x0E, 11, 1, 0x05, 0x10, 0, 0x53, 1, 64, 10, 0, 8, 0] ⟨[], false⟩ fun _ => ⟨[], false⟩,
    .api (.command 1 0x09 0x04 3 readBdAddrCb (.client 8) 0),
    .event [0x0E, 10, 1, 0x09, 0x10, 0, 1, 2, 3, 4, 5, 6] ⟨[], false⟩ fun _ => ⟨[], false⟩,
    .event [0x0E, 12, 1, 0x03, 0x10, 0, 1, 0, 0, 0, 0, 0, 0, 0] ⟨[], false⟩ fun _ => ⟨[], false⟩]

/-- Four commands, four replies, and ten credits. -/
theorem driver_follows_genericRun :
    ∃ d, Sys.run (DriverRun.step genericSetup) (.init genericSetup fun _ => ⟨[], false⟩) genericRun = d ∧
      d.dev.initStatus = .initialized ∧ d.sizes = ⟨339, 64, 10, 8, 10⟩ ∧ d.address = some ⟨1, 2, 3, 4, 5, 6⟩ ∧
      outcome Generic.program d.replies = some .initialized ∧ d.sent.length = 4 ∧ ∀ j, ¬ d.dev.Owns 0 j := by
  have h := driver_follows genericSetup (by decide) (by decide) (fun _ => ⟨[], false⟩) (by decide) genericRun
      (by decide) _ rfl
  exact ⟨_, rfl, by decide, by decide, by decide, h.1.trans (by decide),
    (congrArg List.length h.2.1).trans (by decide), h.2.2.2.2 (by decide)⟩

end Bte
