import BtEmbedded.AclMessage
import BtEmbedded.Lib.Run
import Mathlib.Logic.Function.Basic
/-!
# AclReceive — reassembly of incoming messages (acl.c, l2cap.c)

All incoming ACL packets pass through `on_data_received`, which keeps a partial message for each connection: the packets
so far, how many bytes they carry and how many the L2CAP header announced.  `Partial` is the state of one connection
after some fragments; a packet of another connection leaves it alone, one more fragment extends it, and the last one
delivers the message.

A delivery calls the connection's `data_received_cb`, which is recorded in `delivered`; `AclEnv.onData` is what it does
to the channels.  The check reads the L2CAP header through a pointer that is null when the packet is too short;
`AclEnv.wild` is what such a read would yield.
-/
namespace Bte

open Bytes

def aclInvalidPacket : Nat := 0xffff
def bteL2capChannelIdSignalling : Nat := 1
def l2capMtuDefault : Nat := 672

/-! ## The code -/

/-- What the check reads of a `BteL2cap`. -/
structure Channel where
  localChannelId : Nat
  mtu : Nat
deriving DecidableEq

/-- The receiving side of a `BteAcl` and its L2CAP clients. -/
structure AclIn where
  connHandle : Nat
  fragmentedMessage : List Packet
  fragmentedMessageSize : Nat
  reassembledMessageSize : Nat
  clients : Fin 4 → Option Channel

structure Receiver where
  acls : Fin 7 → Option AclIn
  delivered : List (Fin 7 × BufferReader)

structure AclEnv where
  wild : List UInt8
  onData : Receiver → Fin 7 → BufferReader → Fin 7 → Fin 4 → Option Channel

def l2capForLocalChannel (clients : Fin 4 → Option Channel) (channelId : Nat) : Option Channel :=
  (List.finRange 4).findSome? fun i => (clients i).filter (·.localChannelId = channelId)

/-- The decision of `acl_incoming_data_check_cb`, on the two fields of the header. -/
def incomingDataOk (clients : Fin 4 → Option Channel) (totalLen channelId : Nat) : Bool :=
  if channelId = bteL2capChannelIdSignalling then totalLen ≤ l2capMtuDefault
  else
    match l2capForLocalChannel clients channelId with
    | none => false
    | some l2cap => totalLen ≤ l2cap.mtu

def aclIncomingDataCheckCb (env : AclEnv) (clients : Fin 4 → Option Channel) (reader : BufferReader) : Option Nat :=
  let header := (bteBufferReaderReadN reader l2capHdrLen).1.getD env.wild
  let totalLen := leVal (slice header 0 2)
  let channelId := leVal (slice header 2 2)
  if incomingDataOk clients totalLen channelId then some (totalLen + l2capHdrLen) else none

def findAclByConnHandle (w : Receiver) (connHandle : Nat) : Option (Fin 7) :=
  (List.finRange 7).find? fun i => (w.acls i).any (·.connHandle = connHandle)

/-- Change the connection in a slot. -/
def Receiver.update (w : Receiver) (i : Fin 7) (f : AclIn → AclIn) : Receiver :=
  { w with acls := Function.update w.acls i ((w.acls i).map f) }

/-- The reader over a message, past the first ACL header. -/
def aclReader (head : Packet) (next : List Packet) : BufferReader :=
  bteBufferReaderSetHeaderSize (bteBufferReaderInit head next) bteAclHdrLen

/-- `acl->data_received_cb(acl, &reader)`. -/
def Receiver.deliver (env : AclEnv) (w : Receiver) (i : Fin 7) : List Packet → Receiver
  | [] => w
  | head :: next =>
    { acls := fun j => (w.acls j).map fun a => { a with clients := env.onData w i (aclReader head next) j }
      delivered := w.delivered ++ [(i, aclReader head next)] }

def AclIn.noPartial (a : AclIn) : AclIn := { a with fragmentedMessage := [], fragmentedMessageSize := 0 }

/-- The end of `on_data_received`: the packet completes the message or is queued. -/
def Receiver.take (env : AclEnv) (w : Receiver) (i : Fin 7) (acl : AclIn) (buffer : Packet) : Receiver :=
  let packetLength := buffer.packetLength
  let remainingSize := sub16 acl.reassembledMessageSize acl.fragmentedMessageSize
  let message := bteBufferAppend acl.fragmentedMessage [buffer]
  if packetLength ≥ remainingSize then (w.update i AclIn.noPartial).deliver env i message
  else w.update i fun a => { a with
    fragmentedMessage := message
    fragmentedMessageSize := (a.fragmentedMessageSize + packetLength) % 65536 }

/-- `on_data_received` once the connection is known to be `acl` in slot `i`. -/
def Receiver.receive (env : AclEnv) (w : Receiver) (i : Fin 7) (acl : AclIn) (buffer : Packet) : Receiver :=
  if buffer.packetBoundary ≠ bteAclPbContinuation then
    match aclIncomingDataCheckCb env acl.clients (aclReader buffer []) with
    | none => w.update i fun a => { a with reassembledMessageSize := aclInvalidPacket }
    | some rc =>
      (w.update i fun a => { a with reassembledMessageSize := rc % 65536 }).take env i
        { acl with reassembledMessageSize := rc % 65536 } buffer
  else if acl.reassembledMessageSize = aclInvalidPacket then w
  else w.take env i acl buffer

/-- A new message starts while one is still partial: that one is delivered as it is. -/
def Receiver.flush (env : AclEnv) (w : Receiver) (i : Fin 7) (acl : AclIn) (buffer : Packet) : Receiver :=
  if acl.fragmentedMessage ≠ [] ∧ buffer.packetBoundary ≠ bteAclPbContinuation then
    (w.deliver env i acl.fragmentedMessage).update i AclIn.noPartial
  else w

def onDataReceived (env : AclEnv) (w : Receiver) (buffer : Packet) : Receiver :=
  match findAclByConnHandle w buffer.connHandle with
  | none => w
  | some i =>
    match w.acls i with
    | none => w
    | some acl =>
      let w := w.flush env i acl buffer
      match w.acls i with
      | none => w
      | some acl => w.receive env i acl buffer

/-! ## What a packet of another connection leaves alone -/

/-- The state of a connection but for its channels. -/
def AclIn.core (a : AclIn) : Nat × List Packet × Nat × Nat :=
  (a.connHandle, a.fragmentedMessage, a.fragmentedMessageSize, a.reassembledMessageSize)

def Receiver.core (w : Receiver) (i : Fin 7) : Option (Nat × List Packet × Nat × Nat) := (w.acls i).map AclIn.core

/-- The messages delivered to the connection in slot `i`. -/
def Receiver.messages (w : Receiver) (i : Fin 7) : List BufferReader :=
  (w.delivered.filter fun d => d.1 = i).map Prod.snd

/-- Nothing is delivered to slot `i` and its partial message stays; no connection changes its handle. -/
structure Untouched (i : Fin 7) (w w' : Receiver) : Prop where
  core : w'.core i = w.core i
  messages : w'.messages i = w.messages i
  handles : ∀ j, (w'.acls j).map AclIn.connHandle = (w.acls j).map AclIn.connHandle

/-- The handles are all `find_acl_by_conn_handle` looks at. -/
theorem find_of_handles {w w' : Receiver}
    (h : ∀ j, (w'.acls j).map AclIn.connHandle = (w.acls j).map AclIn.connHandle) (connHandle : Nat) :
    findAclByConnHandle w' connHandle = findAclByConnHandle w connHandle := by
  have hany : ∀ o o' : Option AclIn, o'.map AclIn.connHandle = o.map AclIn.connHandle →
      o'.any (·.connHandle = connHandle) = o.any (·.connHandle = connHandle) := by
    intro o o' ho
    cases o <;> cases o' <;> simp_all
  unfold findAclByConnHandle
  congr 1
  funext j
  exact hany _ _ (h j)

theorem Untouched.refl (i : Fin 7) (w : Receiver) : Untouched i w w := ⟨rfl, rfl, fun _ => rfl⟩

theorem Untouched.trans {i : Fin 7} {w₁ w₂ w₃ : Receiver} (h : Untouched i w₁ w₂) (h' : Untouched i w₂ w₃) :
    Untouched i w₁ w₃ :=
  ⟨h'.core.trans h.core, h'.messages.trans h.messages, fun j => (h'.handles j).trans (h.handles j)⟩

theorem handles_update (w : Receiver) (i : Fin 7) {f : AclIn → AclIn} (hf : ∀ a, (f a).connHandle = a.connHandle) :
    ∀ j, ((w.update i f).acls j).map AclIn.connHandle = (w.acls j).map AclIn.connHandle := by
  intro j
  by_cases hj : j = i
  · subst hj
    cases h : w.acls j <;> simp [Receiver.update, h, hf]
  · simp [Receiver.update, hj]

theorem handles_deliver (env : AclEnv) (w : Receiver) (i : Fin 7) (ps : List Packet) :
    ∀ j, ((w.deliver env i ps).acls j).map AclIn.connHandle = (w.acls j).map AclIn.connHandle := by
  intro j
  cases ps with
  | nil => rfl
  | cons p ps => cases h : w.acls j <;> simp [Receiver.deliver, h]

theorem untouched_update {i j : Fin 7} (hij : j ≠ i) (w : Receiver) {f : AclIn → AclIn}
    (hf : ∀ a, (f a).connHandle = a.connHandle) : Untouched i w (w.update j f) := by
  refine ⟨?_, rfl, handles_update w j hf⟩
  simp [Receiver.core, Receiver.update, Ne.symm hij]

theorem untouched_deliver {i j : Fin 7} (hij : j ≠ i) (env : AclEnv) (w : Receiver) (ps : List Packet) :
    Untouched i w (w.deliver env j ps) := by
  refine ⟨?_, ?_, handles_deliver env w j ps⟩
  · cases ps with
    | nil => rfl
    | cons p ps => cases h : w.acls i <;> simp [Receiver.core, Receiver.deliver, AclIn.core, h]
  · cases ps with
    | nil => rfl
    | cons p ps => simp [Receiver.messages, Receiver.deliver, hij]

theorem untouched_take {i j : Fin 7} (hij : j ≠ i) (env : AclEnv) (w : Receiver) (acl : AclIn) (buffer : Packet) :
    Untouched i w (w.take env j acl buffer) := by
  unfold Receiver.take
  simp only
  split
  · refine .trans ?_ (untouched_deliver hij env _ _)
    exact untouched_update hij w fun _ => rfl
  · exact untouched_update hij w fun _ => rfl

/-- **A packet of another connection** leaves this one's partial message alone. -/
theorem untouched_onDataReceived {i : Fin 7} (env : AclEnv) (w : Receiver) (buffer : Packet)
    (h : findAclByConnHandle w buffer.connHandle ≠ some i) : Untouched i w (onDataReceived env w buffer) := by
  unfold onDataReceived
  split
  · exact .refl i w
  · rename_i j hj
    have hij : j ≠ i := by
      rintro rfl
      exact h hj
    split
    · exact .refl i w
    · rename_i acl _
      have hflush : Untouched i w (w.flush env j acl buffer) := by
        unfold Receiver.flush
        split
        · exact (untouched_deliver hij env w _).trans (untouched_update hij _ fun _ => rfl)
        · exact .refl i w
      simp only
      split
      · exact hflush
      · refine hflush.trans ?_
        unfold Receiver.receive
        split
        · split
          · exact untouched_update hij _ fun _ => rfl
          · refine .trans ?_ (untouched_take hij env _ _ _)
            exact untouched_update hij _ fun _ => rfl
        · split
          · exact .refl i _
          · exact untouched_take hij env _ _ _

/-- A handle leads to one slot, and a slot belongs to one handle. -/
theorem find_inj {w : Receiver} {c h : Nat} {i : Fin 7} (hc : findAclByConnHandle w c = some i)
    (hh : findAclByConnHandle w h = some i) : c = h := by
  have h1 := List.find?_some hc
  have h2 := List.find?_some hh
  cases ha : w.acls i with
  | none => simp [ha] at h1
  | some a =>
    simp only [ha, Option.any_some, decide_eq_true_eq] at h1 h2
    exact h1.symm.trans h2

theorem untouched_of_ne (env : AclEnv) {w : Receiver} {h : Nat} {i : Fin 7} {p : Packet}
    (hfind : findAclByConnHandle w h = some i) (hp : p.connHandle ≠ h) : Untouched i w (onDataReceived env w p) :=
  untouched_onDataReceived env w p fun hc => hp (find_inj hc hfind)

theorem untouched_run (env : AclEnv) {h : Nat} {i : Fin 7} :
    ∀ (ps : List Packet) (w : Receiver), findAclByConnHandle w h = some i → (∀ p ∈ ps, p.connHandle ≠ h) →
      Untouched i w (Sys.run (onDataReceived env) w ps)
  | [], w, _, _ => .refl i w
  | p :: ps, w, hfind, hps => by
    have hu := untouched_of_ne env hfind (hps p List.mem_cons_self)
    have hfind' : findAclByConnHandle (onDataReceived env w p) h = some i := by
      rw [find_of_handles hu.handles, hfind]
    exact hu.trans (untouched_run env ps _ hfind' fun q hq => hps q (List.mem_cons_of_mem p hq))

/-! ## Linked packets and the bytes they carry -/

/-- An incoming packet: its size is what its length field says. -/
def Packet.Incoming (p : Packet) : Prop := p.Wf ∧ p.size = p.packetLength + 4

instance (p : Packet) : Decidable p.Incoming := inferInstanceAs (Decidable (_ ∧ _))

/-- The packets carry `bytes` behind their ACL headers. -/
structure Carries (ps : List Packet) (bytes : List UInt8) : Prop where
  packets : ∀ p ∈ ps, p.Wf ∧ 4 ≤ p.size
  payloads : ps.flatMap (Packet.payload 4) = bytes

theorem length_payload {p : Packet} (hp : p.Incoming) : (p.payload 4).length = p.packetLength := by
  rw [Packet.payload, List.length_drop, length_bytes hp.1, hp.2, Nat.add_sub_cancel]

theorem carries_append {ps : List Packet} {bytes : List UInt8} (h : Carries ps bytes) {p : Packet} (hp : p.Incoming) :
    Carries (bteBufferAppend ps [p]) (bytes ++ p.payload 4) := by
  have hsize : p.Wf ∧ 4 ≤ p.size := ⟨hp.1, by rw [hp.2]; omega⟩
  obtain ⟨hps, rfl⟩ := h
  cases ps with
  | nil =>
    constructor
    · simp [bteBufferAppend, hsize]
    · simp [bteBufferAppend]
  | cons q qs =>
    have hq := hps q List.mem_cons_self
    constructor
    · intro r hr
      simp only [bteBufferAppend, List.mem_cons, List.mem_append, List.not_mem_nil, or_false] at hr
      rcases hr with rfl | hr | rfl
      · exact hq
      · exact hps r (List.mem_cons_of_mem q hr)
      · exact hsize
    · simp [bteBufferAppend, Packet.payload, Packet.bytes]

/-- Any sequence of reads. -/
def readAll (r : BufferReader) : List Nat → List (List UInt8)
  | [] => []
  | size :: sizes => (bteBufferReaderRead r size).1 :: readAll (bteBufferReaderRead r size).2 sizes

theorem readAll_spec : ∀ (sizes : List Nat) {r : BufferReader}, r.Wf → (readAll r sizes).flatten = r.rest.take sizes.sum
  | [], r, _ => by simp [readAll]
  | size :: sizes, r, hw => by
    obtain ⟨hbytes, hrest, hw', _⟩ := read_spec hw size
    rw [readAll, List.flatten_cons, readAll_spec sizes hw', hbytes, hrest, List.sum_cons, List.take_add]

/-- Reading with `r` yields `bytes` and then nothing. -/
def Yields (r : BufferReader) (bytes : List UInt8) : Prop :=
  ∀ sizes, (readAll r sizes).flatten = bytes.take sizes.sum

theorem yields_of_carries {head : Packet} {next : List Packet} {bytes : List UInt8} (h : Carries (head :: next) bytes) :
    Yields (aclReader head next) bytes := by
  intro sizes
  have hhead := h.packets head List.mem_cons_self
  have hw : (aclReader head next).Wf := ⟨hhead.1, hhead.2, fun p hp => h.packets p (List.mem_cons_of_mem head hp)⟩
  rw [readAll_spec sizes hw, ← h.payloads]
  rfl

/-! ## One fragment -/

/-- The connection in slot `i` has no partial message. -/
def Idle (w : Receiver) (i : Fin 7) : Prop := ∃ c total, w.core i = some (c, [], 0, total)

/-- The connection in slot `i` has received `bytes` of a message of `total`. -/
def Partial (w : Receiver) (i : Fin 7) (bytes : List UInt8) (total : Nat) : Prop :=
  ∃ c ps, w.core i = some (c, ps, bytes.length, total) ∧ Carries ps bytes

theorem core_some {w : Receiver} {i : Fin 7} {c s t : Nat} {ps : List Packet} (h : w.core i = some (c, ps, s, t)) :
    ∃ a, w.acls i = some a ∧ a.fragmentedMessage = ps ∧ a.fragmentedMessageSize = s ∧ a.reassembledMessageSize = t := by
  obtain ⟨a, ha, hcore⟩ := Option.map_eq_some_iff.1 h
  simp only [AclIn.core, Prod.mk.injEq] at hcore
  exact ⟨a, ha, hcore.2.1, hcore.2.2.1, hcore.2.2.2⟩

theorem Untouched.idle {i : Fin 7} {w w' : Receiver} (h : Untouched i w w') (hi : Idle w i) : Idle w' i := by
  obtain ⟨c, total, hcore⟩ := hi
  exact ⟨c, total, h.core.trans hcore⟩

theorem Untouched.partial_message {i : Fin 7} {w w' : Receiver} (h : Untouched i w w') {bytes : List UInt8} {total : Nat}
    (hp : Partial w i bytes total) : Partial w' i bytes total := by
  obtain ⟨c, ps, hcore, hps⟩ := hp
  exact ⟨c, ps, h.core.trans hcore, hps⟩

/-- A fragment that is not the last one is linked behind the others. -/
theorem take_of_lt (env : AclEnv) {w : Receiver} {i : Fin 7} {a : AclIn} (ha : w.acls i = some a) {size : Nat}
    (hsize : a.fragmentedMessageSize = size) (htotal : a.reassembledMessageSize < 65536) {p : Packet}
    (hlt : size + p.packetLength < a.reassembledMessageSize) :
    (w.take env i a p).core i =
      some (a.connHandle, bteBufferAppend a.fragmentedMessage [p], size + p.packetLength, a.reassembledMessageSize) ∧
    (w.take env i a p).messages i = w.messages i := by
  have hmore : ¬ p.packetLength ≥ sub16 a.reassembledMessageSize a.fragmentedMessageSize := by
    rw [hsize, sub16_of_le (by omega) htotal]
    omega
  unfold Receiver.take
  simp only [if_neg hmore]
  refine ⟨?_, rfl⟩
  simp only [Receiver.core, Receiver.update, Function.update_self, ha, Option.map_some, AclIn.core, hsize]
  rw [Nat.mod_eq_of_lt (by omega)]

/-- The last fragment delivers them. -/
theorem take_of_eq (env : AclEnv) {w : Receiver} {i : Fin 7} {a : AclIn} (ha : w.acls i = some a) {size : Nat}
    (hsize : a.fragmentedMessageSize = size) (htotal : a.reassembledMessageSize < 65536) {p : Packet}
    (heq : size + p.packetLength = a.reassembledMessageSize) {head : Packet} {next : List Packet}
    (hm : bteBufferAppend a.fragmentedMessage [p] = head :: next) :
    (w.take env i a p).messages i = w.messages i ++ [aclReader head next] ∧ Idle (w.take env i a p) i := by
  have hlast : p.packetLength ≥ sub16 a.reassembledMessageSize a.fragmentedMessageSize := by
    rw [hsize, sub16_of_le (by omega) htotal]
    omega
  unfold Receiver.take
  simp only [if_pos hlast, hm]
  refine ⟨?_, a.connHandle, a.reassembledMessageSize, ?_⟩
  · simp [Receiver.messages, Receiver.deliver, Receiver.update]
  · simp [Receiver.core, Receiver.deliver, Receiver.update, ha, AclIn.noPartial, AclIn.core]

/-- The head of the list stays the first packet, but for its total size. -/
theorem append_head (ps : List Packet) (p : Packet) :
    ∃ head next, bteBufferAppend ps [p] = head :: next ∧ head.size = ((ps ++ [p]).headD p).size ∧
      head.data = ((ps ++ [p]).headD p).data := by
  cases ps with
  | nil => exact ⟨p, [], rfl, rfl, rfl⟩
  | cons q qs => exact ⟨_, qs ++ [p], rfl, rfl, rfl⟩

/-- What a fragment that is not the last one does. -/
theorem take_extends (env : AclEnv) {w : Receiver} {i : Fin 7} {a : AclIn} (ha : w.acls i = some a)
    {bytes : List UInt8} (hps : Carries a.fragmentedMessage bytes) (hsize : a.fragmentedMessageSize = bytes.length)
    (htotal : a.reassembledMessageSize < 65536) {p : Packet} (hp : p.Incoming)
    (hlt : (bytes ++ p.payload 4).length < a.reassembledMessageSize) :
    Partial (w.take env i a p) i (bytes ++ p.payload 4) a.reassembledMessageSize ∧
    (w.take env i a p).messages i = w.messages i := by
  have hlen : (bytes ++ p.payload 4).length = bytes.length + p.packetLength := by
    rw [List.length_append, length_payload hp]
  rw [hlen] at hlt
  obtain ⟨hcore, hmsg⟩ := take_of_lt env ha hsize htotal hlt
  rw [← hlen] at hcore
  exact ⟨⟨a.connHandle, _, hcore, carries_append hps hp⟩, hmsg⟩

/-- What the last fragment does. -/
theorem take_completes (env : AclEnv) {w : Receiver} {i : Fin 7} {a : AclIn} (ha : w.acls i = some a)
    {bytes : List UInt8} (hps : Carries a.fragmentedMessage bytes) (hsize : a.fragmentedMessageSize = bytes.length)
    (htotal : a.reassembledMessageSize < 65536) {p : Packet} (hp : p.Incoming)
    (heq : (bytes ++ p.payload 4).length = a.reassembledMessageSize) :
    ∃ reader, Yields reader (bytes ++ p.payload 4) ∧ (w.take env i a p).messages i = w.messages i ++ [reader] ∧
      Idle (w.take env i a p) i := by
  rw [List.length_append, length_payload hp] at heq
  obtain ⟨head, next, hm, _, _⟩ := append_head a.fragmentedMessage p
  have hcarries := carries_append hps hp
  rw [hm] at hcarries
  exact ⟨aclReader head next, yields_of_carries hcarries, take_of_eq env ha hsize htotal heq hm⟩

/-- The packet completes the message, or is queued. -/
theorem take_cases (env : AclEnv) (w : Receiver) (i : Fin 7) (a : AclIn) (p : Packet) :
    w.take env i a p = (w.update i AclIn.noPartial).deliver env i (bteBufferAppend a.fragmentedMessage [p]) ∨
      w.take env i a p = w.update i fun b => { b with
        fragmentedMessage := bteBufferAppend a.fragmentedMessage [p]
        fragmentedMessageSize := (b.fragmentedMessageSize + p.packetLength) % 65536 } := by
  unfold Receiver.take
  simp only
  split
  · exact .inl rfl
  · exact .inr rfl

theorem handles_take (env : AclEnv) (w : Receiver) (i : Fin 7) (a : AclIn) (p : Packet) :
    ∀ j, ((w.take env i a p).acls j).map AclIn.connHandle = (w.acls j).map AclIn.connHandle := by
  intro j
  rcases take_cases env w i a p with htake | htake
  · rw [htake, handles_deliver]
    exact handles_update w i (f := AclIn.noPartial) (fun _ => rfl) j
  · rw [htake]
    apply handles_update
    exact fun _ => rfl

theorem handles_flush (env : AclEnv) (w : Receiver) (i : Fin 7) (a : AclIn) (p : Packet) :
    ∀ j, ((w.flush env i a p).acls j).map AclIn.connHandle = (w.acls j).map AclIn.connHandle := by
  intro j
  unfold Receiver.flush
  split
  · rw [handles_update (f := AclIn.noPartial) _ _ fun _ => rfl, handles_deliver]
  · rfl

/-- A start packet finds no message unfinished: one that was there has been delivered. -/
theorem flush_start (env : AclEnv) {w : Receiver} {i : Fin 7} {a : AclIn} {p : Packet} (ha : w.acls i = some a)
    (hstart : p.packetBoundary ≠ bteAclPbContinuation) :
    ∃ b, (w.flush env i a p).acls i = some b ∧ b.fragmentedMessage = [] ∧
      (b.fragmentedMessageSize = 0 ∨ (b = a ∧ a.fragmentedMessage = [])) := by
  unfold Receiver.flush
  by_cases hnil : a.fragmentedMessage = []
  · rw [if_neg fun h => h.1 hnil]
    exact ⟨a, ha, hnil, Or.inr ⟨rfl, hnil⟩⟩
  · rw [if_pos ⟨hnil, hstart⟩]
    obtain ⟨q, qs, hq⟩ := List.exists_cons_of_ne_nil hnil
    refine ⟨{ a with clients := env.onData w i (aclReader q qs) i }.noPartial, ?_, rfl, Or.inl rfl⟩
    simp [Receiver.update, Receiver.deliver, hq, ha]

theorem handles_receive (env : AclEnv) (w : Receiver) (i : Fin 7) (a : AclIn) (p : Packet) :
    ∀ j, ((w.receive env i a p).acls j).map AclIn.connHandle = (w.acls j).map AclIn.connHandle := by
  intro j
  generalize hw' : w.receive env i a p = w'
  unfold Receiver.receive at hw'
  split at hw'
  · split at hw'
    · rw [← hw', handles_update]
      exact fun _ => rfl
    · rw [← hw', handles_take, handles_update]
      exact fun _ => rfl
  · split at hw'
    · rw [hw']
    · rw [← hw', handles_take]

/-- No packet changes the handle of a connection. -/
theorem handles_onDataReceived (env : AclEnv) (w : Receiver) (p : Packet) :
    ∀ j, ((onDataReceived env w p).acls j).map AclIn.connHandle = (w.acls j).map AclIn.connHandle := by
  intro j
  generalize hw' : onDataReceived env w p = w'
  unfold onDataReceived at hw'
  split at hw'
  · rw [hw']
  · rename_i i _
    split at hw'
    · rw [hw']
    · rename_i acl _
      simp only at hw'
      split at hw'
      · rw [← hw', handles_flush]
      · rw [← hw', handles_receive, handles_flush]

/-- A continuation packet of a message that was not refused goes straight to `take`. -/
theorem onDataReceived_continuation (env : AclEnv) {w : Receiver} {i : Fin 7} {a : AclIn} {p : Packet}
    (hfind : findAclByConnHandle w p.connHandle = some i) (ha : w.acls i = some a)
    (hp : p.packetBoundary = bteAclPbContinuation) :
    onDataReceived env w p = if a.reassembledMessageSize = aclInvalidPacket then w else w.take env i a p := by
  have hflush : w.flush env i a p = w := by simp [Receiver.flush, hp]
  simp only [onDataReceived, hfind, ha, hflush]
  simp [Receiver.receive, hp]

/-- The check reads the L2CAP header of a packet that has all of it. -/
theorem aclIncomingDataCheckCb_eq (env : AclEnv) (clients : Fin 4 → Option Channel) {p : Packet} {n cid : Nat}
    (hp : p.Incoming) (hn : n < 65536) (hcid : cid < 65536)
    (hhdr : (p.payload 4).take 4 = leBytes 2 n ++ leBytes 2 cid) :
    aclIncomingDataCheckCb env clients (aclReader p []) = if incomingDataOk clients n cid then some (n + 4) else none := by
  have hlen : 4 ≤ (p.payload 4).length := by
    have h := congrArg List.length hhdr
    simp only [List.length_take, List.length_append, length_leBytes] at h
    omega
  have hbig : 8 ≤ p.size := by
    rw [length_payload hp] at hlen
    rw [hp.2]
    omega
  have hread : (bteBufferReaderReadN (aclReader p []) l2capHdrLen).1 = some (leBytes 2 n ++ leBytes 2 cid) := by
    have hturn : (aclReader p []).turn = some (aclReader p []) := by
      unfold BufferReader.turn
      rw [if_neg]
      show ¬ 4 ≥ p.size
      omega
    rw [bteBufferReaderReadN, hturn]
    have hroom : ¬ 4 > p.size - 4 := by omega
    show (if 4 > p.size - 4 then _ else _ : Option (List UInt8) × BufferReader).1 = _
    rw [if_neg hroom]
    show some (slice p.data 4 4) = _
    rw [slice_eq_bytes (by omega), ← hhdr, Packet.payload]
  have h1 : leVal (slice (leBytes 2 n ++ leBytes 2 cid) 0 2) = n := by
    rw [show slice (leBytes 2 n ++ leBytes 2 cid) 0 2 = leBytes 2 n from rfl, leVal_leBytes]
    omega
  have h2 : leVal (slice (leBytes 2 n ++ leBytes 2 cid) 2 2) = cid := by
    rw [show slice (leBytes 2 n ++ leBytes 2 cid) 2 2 = leBytes 2 cid from rfl, leVal_leBytes]
    omega
  simp only [aclIncomingDataCheckCb, hread, Option.getD_some, h1, h2]
  rfl

/-- A start packet on a connection without partial message is checked and, if accepted, taken. -/
theorem onDataReceived_start (env : AclEnv) {w : Receiver} {i : Fin 7} {a : AclIn} {p : Packet}
    (hfind : findAclByConnHandle w p.connHandle = some i) (ha : w.acls i = some a) (hidle : a.fragmentedMessage = [])
    (hp : p.packetBoundary ≠ bteAclPbContinuation) :
    onDataReceived env w p =
      match aclIncomingDataCheckCb env a.clients (aclReader p []) with
      | none => w.update i fun a => { a with reassembledMessageSize := aclInvalidPacket }
      | some rc =>
        (w.update i fun a => { a with reassembledMessageSize := rc % 65536 }).take env i
          { a with reassembledMessageSize := rc % 65536 } p := by
  have hflush : w.flush env i a p = w := by simp [Receiver.flush, hidle]
  simp only [onDataReceived, hfind, ha, hflush, Receiver.receive, if_pos hp]

/-! ## All the fragments -/

/-- The packets of connection `h` among those that arrive. -/
def ownPackets (h : Nat) (ps : List Packet) : List Packet := ps.filter fun p => p.connHandle = h

/-- Exactly one message is delivered to slot `i`, when the last packet of connection `h` arrives. -/
def Delivers (env : AclEnv) (h : Nat) (i : Fin 7) (w : Receiver) (ps : List Packet) (reader : BufferReader) : Prop :=
  ∀ k ≤ ps.length, (Sys.run (onDataReceived env) w (ps.take k)).messages i =
    w.messages i ++ if ownPackets h (ps.drop k) = [] then [reader] else []

theorem not_mem_ownPackets {h : Nat} {ps : List Packet} (hps : ownPackets h ps = []) : ∀ p ∈ ps, p.connHandle ≠ h := by
  intro p hp
  simpa using List.filter_eq_nil_iff.1 hps p hp

theorem delivers_cons {env : AclEnv} {h : Nat} {i : Fin 7} {w : Receiver} {p : Packet} {ps : List Packet}
    {reader : BufferReader} (hne : ownPackets h (p :: ps) ≠ [])
    (hmsg : (onDataReceived env w p).messages i = w.messages i)
    (hd : Delivers env h i (onDataReceived env w p) ps reader) : Delivers env h i w (p :: ps) reader := by
  intro k hk
  cases k with
  | zero => simp [hne]
  | succ k =>
    rw [List.take_succ_cons, Sys.run_cons, hd k (by simpa using hk), hmsg, List.drop_succ_cons]

theorem delivers_last {env : AclEnv} {h : Nat} {i : Fin 7} {w : Receiver} {p : Packet} {ps : List Packet}
    {reader : BufferReader} (hph : p.connHandle = h) (hlast : ownPackets h ps = [])
    (hfind : findAclByConnHandle (onDataReceived env w p) h = some i)
    (hmsg : (onDataReceived env w p).messages i = w.messages i ++ [reader]) : Delivers env h i w (p :: ps) reader := by
  intro k hk
  cases k with
  | zero => simp [ownPackets, hph]
  | succ k =>
    have hps := not_mem_ownPackets hlast
    have hu := untouched_run env (ps.take k) _ hfind fun q hq => hps q (List.mem_of_mem_take hq)
    have hrest : ownPackets h (ps.drop k) = [] :=
      List.filter_eq_nil_iff.2 fun q hq => by simpa using hps q (List.mem_of_mem_drop hq)
    rw [List.take_succ_cons, Sys.run_cons, hu.messages, hmsg, List.drop_succ_cons, if_pos hrest]

/-- **The fragments still to come**: the message is delivered at the last one, whatever else arrives. -/
theorem run_fragments (env : AclEnv) {h : Nat} {i : Fin 7} {total : Nat} (htotal : total < aclInvalidPacket) :
    ∀ (ps : List Packet) (w : Receiver) (bytes : List UInt8), findAclByConnHandle w h = some i →
      Partial w i bytes total →
      (∀ p ∈ ps, p.connHandle = h → p.Incoming ∧ p.packetBoundary = bteAclPbContinuation) →
      (bytes ++ (ownPackets h ps).dropLast.flatMap (Packet.payload 4)).length < total →
      (bytes ++ (ownPackets h ps).flatMap (Packet.payload 4)).length = total →
      ∃ reader, Yields reader (bytes ++ (ownPackets h ps).flatMap (Packet.payload 4)) ∧
        Delivers env h i w ps reader ∧ Idle (Sys.run (onDataReceived env) w ps) i
  | [], w, bytes, _, _, _, hlt, heq => by
    simp only [ownPackets, List.filter_nil, List.dropLast_nil] at hlt heq
    omega
  | p :: ps, w, bytes, hfind, hpart, hown, hlt, heq => by
    have hown' : ∀ q ∈ ps, q.connHandle = h → q.Incoming ∧ q.packetBoundary = bteAclPbContinuation :=
      fun q hq => hown q (List.mem_cons_of_mem p hq)
    have hne : ownPackets h (p :: ps) ≠ [] := by
      intro h0
      rw [h0] at hlt heq
      simp only [List.dropLast_nil] at hlt
      omega
    by_cases hph : p.connHandle = h
    · obtain ⟨hin, hcont⟩ := hown p List.mem_cons_self hph
      have hcons : ownPackets h (p :: ps) = p :: ownPackets h ps := by simp [ownPackets, hph]
      obtain ⟨c, qs, hcore, hqs⟩ := hpart
      obtain ⟨a, ha, rfl, hfs, rfl⟩ := core_some hcore
      have hstep : onDataReceived env w p = w.take env i a p := by
        rw [onDataReceived_continuation env (by rw [hph, hfind]) ha hcont, if_neg (by omega)]
      have hfind' : findAclByConnHandle (onDataReceived env w p) h = some i := by
        rw [hstep, find_of_handles (handles_take env w i a p), hfind]
      have h16 : a.reassembledMessageSize < 65536 := Nat.lt_trans htotal (by decide)
      rw [hcons] at hlt heq ⊢
      rw [Sys.run_cons]
      by_cases hlast : ownPackets h ps = []
      · rw [hlast] at heq ⊢
        simp only [List.flatMap_cons, List.flatMap_nil, List.append_nil] at heq ⊢
        obtain ⟨reader, hy, hmsg, hidle⟩ := take_completes env ha hqs hfs h16 hin heq
        rw [← hstep] at hmsg hidle
        have hu := untouched_run env ps _ hfind' (not_mem_ownPackets hlast)
        exact ⟨reader, hy, delivers_last hph hlast hfind' hmsg, hu.idle hidle⟩
      · rw [List.dropLast_cons_of_ne_nil hlast] at hlt
        simp only [List.flatMap_cons, ← List.append_assoc] at hlt heq ⊢
        have hless : (bytes ++ p.payload 4).length < a.reassembledMessageSize := by
          rw [List.length_append] at hlt
          omega
        obtain ⟨hpart', hmsg⟩ := take_extends env ha hqs hfs h16 hin hless
        rw [← hstep] at hmsg hpart'
        obtain ⟨reader, hy, hd, hidle⟩ := run_fragments env htotal ps _ _ hfind' hpart' hown' hlt heq
        exact ⟨reader, hy, delivers_cons hne hmsg hd, hidle⟩
    · have hcons : ownPackets h (p :: ps) = ownPackets h ps := by simp [ownPackets, hph]
      have hu := untouched_of_ne env hfind hph
      have hfind' : findAclByConnHandle (onDataReceived env w p) h = some i := by
        rw [find_of_handles hu.handles, hfind]
      rw [hcons] at hlt heq ⊢
      obtain ⟨reader, hy, hd, hidle⟩ := run_fragments env htotal ps _ _ hfind' (hu.partial_message hpart) hown' hlt heq
      exact ⟨reader, hy, delivers_cons hne hu.messages hd, hidle⟩

/-- **The continuation packets of a refused message** deliver nothing. -/
theorem run_refused (env : AclEnv) {h : Nat} {i : Fin 7} :
    ∀ (ps : List Packet) (w : Receiver) (c s : Nat) (qs : List Packet), findAclByConnHandle w h = some i →
      w.core i = some (c, qs, s, aclInvalidPacket) →
      (∀ p ∈ ps, p.connHandle = h → p.packetBoundary = bteAclPbContinuation) →
      (Sys.run (onDataReceived env) w ps).messages i = w.messages i
  | [], _, _, _, _, _, _, _ => rfl
  | p :: ps, w, c, s, qs, hfind, hcore, hown => by
    have hown' : ∀ q ∈ ps, q.connHandle = h → q.packetBoundary = bteAclPbContinuation :=
      fun q hq => hown q (List.mem_cons_of_mem p hq)
    have hu : Untouched i w (onDataReceived env w p) := by
      by_cases hph : p.connHandle = h
      · obtain ⟨a, ha, _, _, hrs⟩ := core_some hcore
        rw [onDataReceived_continuation env (by rw [hph, hfind]) ha (hown p List.mem_cons_self hph), if_pos hrs]
        exact .refl i w
      · exact untouched_of_ne env hfind hph
    rw [Sys.run_cons, run_refused env ps _ c s qs (by rw [find_of_handles hu.handles, hfind]) (hu.core.trans hcore) hown',
      hu.messages]

/-- **The packets of an accepted message**: it is delivered once and whole, unless its length is the marker's. -/
theorem reassembly_accepted (env : AclEnv) {w : Receiver} {h n : Nat} {i : Fin 7} {a : AclIn} {first : Packet}
    {rest : List Packet} (hfind : findAclByConnHandle w h = some i) (ha : w.acls i = some a)
    (hidle : a.fragmentedMessage = [] ∧ a.fragmentedMessageSize = 0) (hh : first.connHandle = h)
    (hstart : first.packetBoundary ≠ bteAclPbContinuation) (hfirst : first.Incoming)
    (hrest : ∀ p ∈ rest, p.connHandle = h → p.Incoming ∧ p.packetBoundary = bteAclPbContinuation)
    (hrc : aclIncomingDataCheckCb env a.clients (aclReader first []) = some (n + 4)) (hmax : n + 4 < aclInvalidPacket)
    (hlen : ((ownPackets h (first :: rest)).flatMap (Packet.payload 4)).length = n + 4)
    (hlt : ((ownPackets h (first :: rest)).dropLast.flatMap (Packet.payload 4)).length < n + 4) :
    ∃ reader, Yields reader ((ownPackets h (first :: rest)).flatMap (Packet.payload 4)) ∧
      Delivers env h i w (first :: rest) reader ∧ Idle (Sys.run (onDataReceived env) w (first :: rest)) i := by
  have h16 : n + 4 < 65536 := Nat.lt_trans hmax (by decide)
  have hown : ownPackets h (first :: rest) = first :: ownPackets h rest := by simp [ownPackets, hh]
  have hstep := onDataReceived_start env (by rw [hh, hfind]) ha hidle.1 hstart
  rw [hrc] at hstep
  simp only [Nat.mod_eq_of_lt h16] at hstep
  -- the start packet finds the announced size in place
  generalize hw' : (w.update i fun a => { a with reassembledMessageSize := n + 4 }) = w' at hstep
  have ha' : w'.acls i = some { a with reassembledMessageSize := n + 4 } := by
    rw [← hw']
    simp [Receiver.update, ha]
  have hmsg' : w'.messages i = w.messages i := by rw [← hw']; rfl
  have hcarries : Carries a.fragmentedMessage [] := by
    rw [hidle.1]
    exact ⟨by simp, rfl⟩
  have hfind' : findAclByConnHandle (onDataReceived env w first) h = some i := by
    rw [hstep, find_of_handles (handles_take env w' i _ first), ← hfind, ← hw']
    apply find_of_handles
    apply handles_update
    exact fun _ => rfl
  rw [hown] at hlt hlen ⊢
  rw [List.flatMap_cons] at hlen ⊢
  rw [Sys.run_cons]
  by_cases hlast : ownPackets h rest = []
  · rw [hlast, List.flatMap_nil, List.append_nil] at hlen ⊢
    obtain ⟨reader, hy, hmsg, hdone⟩ := take_completes env ha' hcarries hidle.2 h16 hfirst hlen
    rw [← hstep] at hmsg hdone
    have hu := untouched_run env rest _ hfind' (not_mem_ownPackets hlast)
    exact ⟨reader, hy, delivers_last hh hlast hfind' (by rw [hmsg, hmsg']), hu.idle hdone⟩
  · rw [List.dropLast_cons_of_ne_nil hlast, List.flatMap_cons] at hlt
    have hless : (first.payload 4).length < n + 4 := by
      rw [List.length_append] at hlt
      omega
    obtain ⟨hpart, hmsg⟩ := take_extends env ha' hcarries hidle.2 h16 hfirst hless
    rw [← hstep] at hpart hmsg
    obtain ⟨reader, hy, hd, hdone⟩ := run_fragments env hmax rest _ _ hfind' hpart hrest hlt hlen
    exact ⟨reader, hy, delivers_cons (by rw [hown]; exact List.cons_ne_nil _ _) (by rw [hmsg, hmsg']) hd, hdone⟩

/-- **Reassembly is correct for every fragmentation**: the packets of an accepted message, however it is cut and whatever
arrives between them, deliver it once and whole; those of a refused one deliver nothing. -/
theorem reassembly_exact (env : AclEnv) (w : Receiver) (h n cid : Nat) (i : Fin 7) (a : AclIn) (first : Packet)
    (rest : List Packet) (hfind : findAclByConnHandle w h = some i) (ha : w.acls i = some a)
    (hidle : a.fragmentedMessage = [] ∧ a.fragmentedMessageSize = 0) (hh : first.connHandle = h)
    (hstart : first.packetBoundary ≠ bteAclPbContinuation)
    (hin : ∀ p ∈ first :: rest, p.connHandle = h → p.Incoming)
    (hcont : ∀ p ∈ rest, p.connHandle = h → p.packetBoundary = bteAclPbContinuation)
    (hn : n < 65536) (hcid : cid < 65536) (hhdr : (first.payload 4).take 4 = leBytes 2 n ++ leBytes 2 cid) :
    (∀ pdu, aclIncomingDataCheckCb env a.clients (aclReader first []) ≠ none → n + 4 < 0xffff → pdu.length = n + 4 →
      (ownPackets h (first :: rest)).flatMap (Packet.payload 4) = pdu →
      ((ownPackets h (first :: rest)).dropLast.flatMap (Packet.payload 4)).length < n + 4 →
      ∃ reader, Yields reader pdu ∧ Delivers env h i w (first :: rest) reader ∧
        Idle (Sys.run (onDataReceived env) w (first :: rest)) i) ∧
    (aclIncomingDataCheckCb env a.clients (aclReader first []) = none →
      ∀ k, (Sys.run (onDataReceived env) w ((first :: rest).take k)).messages i = w.messages i) := by
  have hfirst := hin first List.mem_cons_self hh
  have hcheck := aclIncomingDataCheckCb_eq env a.clients hfirst hn hcid hhdr
  have hrest : ∀ p ∈ rest, p.connHandle = h → p.Incoming ∧ p.packetBoundary = bteAclPbContinuation :=
    fun p hp hph => ⟨hin p (List.mem_cons_of_mem first hp) hph, hcont p hp hph⟩
  constructor
  · rintro pdu hok hmax hlen rfl hlt
    have hrc : aclIncomingDataCheckCb env a.clients (aclReader first []) = some (n + 4) := by
      rw [hcheck] at hok ⊢
      exact if_pos (by by_contra hno; exact hok (if_neg hno))
    exact reassembly_accepted env hfind ha hidle hh hstart hfirst hrest hrc hmax hlen hlt
  · intro hno k
    cases k with
    | zero => rfl
    | succ k =>
      have hstep := onDataReceived_start env (by rw [hh, hfind]) ha hidle.1 hstart
      rw [hno] at hstep
      rw [List.take_succ_cons, Sys.run_cons]
      rw [run_refused env (rest.take k) _ a.connHandle 0 [] _ _ fun p hp => hcont p (List.mem_of_mem_take hp)]
      · rw [hstep]; rfl
      · rw [hstep, ← hfind]
        apply find_of_handles
        apply handles_update
        exact fun _ => rfl
      · rw [hstep]
        simp [Receiver.core, Receiver.update, ha, AclIn.core, hidle]

/-- An incoming packet on a connection. -/
def aclPacket (connHandle boundary : Nat) (payload : List UInt8) : Packet :=
  ⟨payload.length + 4, payload.length + 4,
    leBytes 2 (connHandle + boundary * 4096) ++ leBytes 2 payload.length ++ payload⟩

/-- Connections 0x42 and 0x43, each with a channel 0x40. -/
def twoConnections : Receiver :=
  ⟨fun i => if i.val < 2 then some ⟨0x42 + i.val, [], 0, 0, fun k => if k.val = 0 then some ⟨0x40, 672⟩ else none⟩
    else none, []⟩

/-- Callbacks that leave the channels as they are. -/
def quietEnv : AclEnv := ⟨[], fun w _ _ j k => (w.acls j).bind (·.clients k)⟩

/-- Nine bytes in four packets, one of them empty, and a message of the other connection between them. -/
theorem reassembly_exact_interleaved :
    ∃ reader, Yields reader [5, 0, 0x40, 0, 1, 2, 3, 4, 5] ∧
      Delivers quietEnv 0x42 0 twoConnections (aclPacket 0x42 2 [5, 0, 0x40, 0, 1] ::
        [aclPacket 0x42 1 [], aclPacket 0x43 2 [1, 0, 0x40, 0, 9], aclPacket 0x42 1 [2, 3, 4],
          aclPacket 0x42 1 [5]]) reader ∧
      Idle (Sys.run (onDataReceived quietEnv) twoConnections (aclPacket 0x42 2 [5, 0, 0x40, 0, 1] ::
        [aclPacket 0x42 1 [], aclPacket 0x43 2 [1, 0, 0x40, 0, 9], aclPacket 0x42 1 [2, 3, 4],
          aclPacket 0x42 1 [5]])) 0 :=
  (reassembly_exact quietEnv twoConnections 0x42 5 0x40 0 _ (aclPacket 0x42 2 [5, 0, 0x40, 0, 1])
    [aclPacket 0x42 1 [], aclPacket 0x43 2 [1, 0, 0x40, 0, 9], aclPacket 0x42 1 [2, 3, 4], aclPacket 0x42 1 [5]]
    (by decide) rfl ⟨rfl, rfl⟩ (by decide) (by decide) (by decide) (by decide) (by decide) (by decide)
    (by decide)).1 [5, 0, 0x40, 0, 1, 2, 3, 4, 5] (by decide) (by decide) (by decide) (by decide) (by decide)

end Bte
