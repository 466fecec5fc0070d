import BtEmbedded.HciDev
import BtEmbedded.Lib.Run
/-!
# WiiBackend — the USB backend of the Wii (backends/wii.c)

Two chains of reads run over two pools of buffers.  Whoever has a buffer has a reference: the USB while it reads into it,
an event of the queue, the copy of the queue that a thread is working off, the upper layers.  A read that finds no free
buffer sets its chain's flag, and the next buffer that is freed starts the chain again.

The callbacks of the USB run between any two functions of the thread, not inside one: `wii_buffer_free` checks a flag and
clears it in two steps, and a callback between them that sets it again would be forgotten.  Nor does an upper layer's
callback call `bte_handle_events`.  Whether the USB accepts a read is its own affair (`accepts`), as is what the upper layers
do with an event.  The fields after `received` are what
has happened so far; the program does not read them.
-/
namespace Bte

def ctrlBufSize : Nat := 264
def aclBufSize : Nat := 352
def wiiMaxEvents : Nat := 128
def wiiBufferIntrCount : Nat := 16
def wiiBufferDataCount : Nat := 64

/-- The HCI events and the ACL data, each with its endpoint and its pool. -/
inductive Chain where
  | intr
  | bulk
deriving DecidableEq, Repr

def Chain.count : Chain → Nat
  | .intr => wiiBufferIntrCount
  | .bulk => wiiBufferDataCount

def Chain.len : Chain → Nat
  | .intr => ctrlBufSize
  | .bulk => aclBufSize

/-- A buffer of a pool, or one that the upper layers gave the backend to send. -/
inductive BufferRef where
  | pool (c : Chain) (i : Nat)
  | upper (buf : Ptr)
deriving DecidableEq, Repr

inductive WiiEventType where
  | sent
  | read (c : Chain)
deriving DecidableEq, Repr

structure WiiEvent where
  type : WiiEventType
  buffer : BufferRef
deriving DecidableEq, Repr

/-- `WiiBufferIntr` and `WiiBufferData`. -/
structure PoolBuffer where
  refCount : Nat
  size : Nat
  data : List UInt8

/-- What a reader of the buffer gets. -/
def PoolBuffer.bytes (b : PoolBuffer) : List UInt8 := b.data.take b.size

structure Wii where
  /-- `s_bt_fd` is open. -/
  fd : Bool
  buffers : Chain → Nat → PoolBuffer
  /-- `s_intr_request_failed`, `s_bulk_request_failed`. -/
  requestFailed : Chain → Bool
  queue : List WiiEvent
  missedEvents : Nat
  /-- There is a message in the mailbox. -/
  mailbox : Bool
  /-- The buffers the USB is reading into. -/
  reading : Chain → List Nat
  /-- The writes the USB has not completed: commands, and data. -/
  writing : List (Bool × Ptr)
  /-- The references the backend has taken on a buffer of the upper layers. -/
  refs : Ptr → Nat
  /-- What is left of the copy in `process_event_queue`. -/
  processing : List WiiEvent
  /-- The first event of it has been handed over and its reference not given back yet. -/
  handling : Bool
  /-- A message was received and the queue has not been copied since. -/
  received : Bool
  /-- What the upper layers were given. -/
  delivered : List (Chain × List UInt8)
  /-- The transfers that found room in the queue. -/
  queued : List (Chain × List UInt8)
  /-- The references of the upper layers. -/
  kept : Chain → Nat → Nat
  /-- References that nobody will give back: the event found the queue full, or the USB refused the read. -/
  lost : BufferRef → Nat
  /-- The USB refused a read. -/
  refused : Chain → Bool
  /-- A buffer was freed for the other chain's sake while both were stopped. -/
  skipped : Bool

namespace Wii

def set {α β : Type} [DecidableEq α] (f : α → β) (a : α) (b : β) : α → β := fun x => if x = a then b else f x

@[simp] theorem set_self {α β : Type} [DecidableEq α] (f : α → β) (a : α) (b : β) : set f a b a = b := if_pos rfl

@[simp] theorem set_ne {α β : Type} [DecidableEq α] (f : α → β) {a x : α} (h : x ≠ a) (b : β) : set f a b x = f x :=
  if_neg h

/-- Nothing is initialized. -/
def start : Wii where
  fd := false
  buffers _ _ := ⟨0, 0, []⟩
  requestFailed _ := false
  queue := []
  missedEvents := 0
  mailbox := false
  reading _ := []
  writing := []
  refs _ := 0
  processing := []
  handling := false
  received := false
  delivered := []
  queued := []
  kept _ _ := 0
  lost _ := 0
  refused _ := false
  skipped := false

/-! ## The functions -/

def update (s : Wii) (c : Chain) (i : Nat) (f : PoolBuffer → PoolBuffer) : Wii :=
  { s with buffers := set s.buffers c (set (s.buffers c) i (f (s.buffers c i))) }

/-- `wii_buffer_intr_alloc` and `wii_buffer_data_alloc`: which buffer they take. -/
def alloc (s : Wii) (c : Chain) : Option Nat := (List.range c.count).find? fun i => (s.buffers c i).refCount = 0

/-- `read_intr` and `read_bulk`. -/
def read (s : Wii) (c : Chain) (accepts : Chain → Bool) : Wii :=
  if s.fd then
    match s.alloc c with
    | none => { s with requestFailed := set s.requestFailed c true }
    | some i =>
      let s := s.update c i fun b => { b with refCount := 1, size := c.len }
      if accepts c then { s with reading := set s.reading c (s.reading c ++ [i]) }
      else { s with
        lost := set s.lost (.pool c i) (s.lost (.pool c i) + 1)
        refused := set s.refused c true }
  else s

/-- `wii_buffer_free`, which no callback of the USB interrupts: only one chain is started again, the interrupts' first. -/
def bufferFree (s : Wii) (accepts : Chain → Bool) : Wii :=
  if s.requestFailed .intr then
    { s with
      requestFailed := set s.requestFailed .intr false
      skipped := s.skipped || s.requestFailed .bulk }.read .intr accepts
  else if s.requestFailed .bulk then
    { s with
      requestFailed := set s.requestFailed .bulk false
      skipped := false }.read .bulk accepts
  else s

/-- `bte_buffer_unref`. -/
def unref (s : Wii) (accepts : Chain → Bool) : BufferRef → Wii
  | .pool c i =>
    let s' := s.update c i fun b => { b with refCount := b.refCount - 1 }
    if (s.buffers c i).refCount = 1 then s'.bufferFree accepts else s'
  | .upper buf => { s with refs := set s.refs buf (s.refs buf - 1) }

/-- `queue_event`, of a transfer that brought `got`. -/
def queueEvent (s : Wii) (e : WiiEvent) (got : List (Chain × List UInt8)) : Wii :=
  if wiiMaxEvents ≤ s.queue.length then
    { s with
      missedEvents := s.missedEvents + 1
      lost := set s.lost e.buffer (s.lost e.buffer + 1) }
  else
    { s with
      queue := s.queue ++ [e]
      mailbox := true
      queued := s.queued ++ got }

/-- `read_intr_cb` and `read_bulk_cb`, of a read that brought `bytes`, or failed. -/
def readCb (s : Wii) (c : Chain) (bytes : List UInt8) (accepts : Chain → Bool) : Wii :=
  match s.reading c with
  | [] => s
  | i :: rest =>
    let s := { s with reading := set s.reading c rest }
    let s :=
      if bytes ≠ [] then
        (s.update c i fun b => { b with
            size := if bytes.length < b.size then bytes.length else b.size
            data := bytes ++ b.data.drop bytes.length }).queueEvent ⟨.read c, .pool c i⟩ [(c, bytes)]
      else s.unref accepts (.pool c i)
    s.read c accepts

/-- `hci_send_command_cb` and `hci_send_data_cb`, of the write at place `k`. -/
def sendCb (s : Wii) (k : Nat) (accepts : Chain → Bool) : Wii :=
  match s.writing[k]? with
  | none => s
  | some (command, buf) =>
    let s := { s with writing := s.writing.eraseIdx k }
    if command then s.queueEvent ⟨.sent, .upper buf⟩ [] else s.unref accepts (.upper buf)

def eio : Int := 5
def ebadf : Int := 9
def enomem : Int := 12

/-- The part of `wii_hci_send_command` and `wii_hci_send_data` that they share. -/
def send (s : Wii) (command : Bool) (buf : Ptr) (accepted : Bool) (accepts : Chain → Bool) : Int × Wii :=
  let s := { s with refs := set s.refs buf (s.refs buf + 1) }
  if accepted then (0, { s with writing := s.writing ++ [(command, buf)] }) else (-eio, s.unref accepts (.upper buf))

/-- `contiguous`: the buffer is one packet. -/
def hciSendCommand (s : Wii) (buf : Ptr) (contiguous accepted : Bool) (accepts : Chain → Bool) : Int × Wii :=
  if s.fd then
    if contiguous then s.send true buf accepted accepts else (-enomem, s)
  else (-ebadf, s)

def hciSendData (s : Wii) (buf : Ptr) (accepted : Bool) (accepts : Chain → Bool) : Int × Wii :=
  if s.fd then s.send false buf accepted accepts else (-ebadf, s)

/-- `wii_init`: what the USB and the arena answer. -/
def init (s : Wii) (initialized opened memory : Bool) (accepts : Chain → Bool) : Int × Wii :=
  if initialized && opened then
    let s := { s with
      fd := true
      mailbox := false }
    if memory then (0, (s.read .intr accepts).read .bulk accepts) else (-enomem, s)
  else (-1, s)

/-- `wii_handle_events` up to the call of `process_event_queue`: the mailbox is emptied. -/
def receive (s : Wii) : Wii :=
  if s.mailbox then
    { s with
      mailbox := false
      received := true }
  else s

/-- The copy in `process_event_queue`, with the interrupts off. -/
def copyQueue (s : Wii) : Wii :=
  { s with
    processing := s.queue
    queue := []
    missedEvents := 0
    received := false }

/-- What the handler of an event is given. -/
def contents (s : Wii) (e : WiiEvent) : Option (Chain × List UInt8) :=
  match e.type, e.buffer with
  | .read c, .pool c' i => some (c, (s.buffers c' i).bytes)
  | _, _ => none

/-- The handler of the next event, which takes `refs` references of its own on a buffer it is given. -/
def handle (s : Wii) (refs : Nat) : Wii :=
  match s.processing with
  | [] => s
  | e :: _ =>
    match e.type, e.buffer with
    | .read c, .pool c' i =>
      { s.update c' i fun b => { b with refCount := b.refCount + refs } with
        handling := true
        delivered := s.delivered ++ [(c, (s.buffers c' i).bytes)]
        kept := set s.kept c' (set (s.kept c') i (s.kept c' i + refs)) }
    | _, _ => { s with handling := true }

/-- The `bte_buffer_unref` behind the handler. -/
def release (s : Wii) (accepts : Chain → Bool) : Wii :=
  match s.processing with
  | [] => s
  | e :: rest =>
    { s with
      processing := rest
      handling := false }.unref accepts e.buffer

/-- The upper layers give a reference back. -/
def giveBack (s : Wii) (c : Chain) (i : Nat) (accepts : Chain → Bool) : Wii :=
  { s with kept := set s.kept c (set (s.kept c) i (s.kept c i - 1)) }.unref accepts (.pool c i)

/-- The upper layers take one more. -/
def takeRef (s : Wii) (c : Chain) (i : Nat) : Wii :=
  { s.update c i fun b => { b with refCount := b.refCount + 1 } with
    kept := set s.kept c (set (s.kept c) i (s.kept c i + 1)) }

end Wii

/-! ## Runs -/

inductive WiiOp where
  | readCb (c : Chain) (bytes : List UInt8)
  | sendCb (k : Nat)
  | sendCommand (buf : Ptr) (contiguous accepted : Bool)
  | sendData (buf : Ptr) (accepted : Bool)
  | receive
  | copyQueue
  | handle (refs : Nat)
  | release
  | giveBack (c : Chain) (i : Nat)
  | takeRef (c : Chain) (i : Nat)
  | deinit
deriving DecidableEq

/-- One step, and whether the USB accepts the reads that it starts. -/
def Wii.step (s : Wii) (o : WiiOp × (Chain → Bool)) : Wii :=
  match o.1 with
  | .readCb c bytes => s.readCb c bytes o.2
  | .sendCb k => s.sendCb k o.2
  | .sendCommand buf contiguous accepted => (s.hciSendCommand buf contiguous accepted o.2).2
  | .sendData buf accepted => (s.hciSendData buf accepted o.2).2
  | .receive => s.receive
  | .copyQueue => s.copyQueue
  | .handle refs => s.handle refs
  | .release => s.release o.2
  | .giveBack c i => s.giveBack c i o.2
  | .takeRef c i => s.takeRef c i
  | .deinit => { s with fd := false }

/-- The USB completes what it was given, within the buffer; the thread takes one copy after the other and one event after
the other; the upper layers give back the references they have. -/
def Wii.Possible (s : Wii) (o : WiiOp × (Chain → Bool)) : Prop :=
  match o.1 with
  | .readCb c bytes => s.reading c ≠ [] ∧ bytes.length ≤ c.len
  | .sendCb k => k < s.writing.length
  | .copyQueue => s.processing = []
  | .handle _ => s.processing ≠ [] ∧ s.handling = false
  | .release => s.handling = true
  | .giveBack c i | .takeRef c i => 0 < s.kept c i
  | _ => True

instance decidableWiiPossible (s : Wii) : ∀ o : WiiOp × (Chain → Bool), Decidable (s.Possible o)
  | (.readCb c bytes, _) => inferInstanceAs (Decidable (s.reading c ≠ [] ∧ bytes.length ≤ c.len))
  | (.sendCb k, _) => inferInstanceAs (Decidable (k < s.writing.length))
  | (.copyQueue, _) => inferInstanceAs (Decidable (s.processing = []))
  | (.handle _, _) => inferInstanceAs (Decidable (s.processing ≠ [] ∧ s.handling = false))
  | (.release, _) => inferInstanceAs (Decidable (s.handling = true))
  | (.giveBack c i, _) | (.takeRef c i, _) => inferInstanceAs (Decidable (0 < s.kept c i))
  | (.sendCommand _ _ _, _) | (.sendData _ _, _) | (.receive, _) | (.deinit, _) => .isTrue trivial

end Bte
