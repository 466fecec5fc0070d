import BtEmbedded.AclMessage
import BtEmbedded.HciDev
import BtEmbedded.Lib.Run
import Mathlib.Logic.Function.Basic
/-!
# AclQueue — the queue of outgoing packets (acl.c, hci_dev.c)

One queue holds the outgoing packets of all connections.  A message is appended to it, the controller's credits drain it
from the front, a disconnection takes the packets of one connection out of its middle.  `Sent` is what a drain does; the
`trace` records what was submitted and what was handed to the backend, so that `QueueInv` can compare the two.

`rc k` is what the backend's `hci_send_data` returns when it is called for the `k`-th time; a callback that sends more is
a later operation, since nothing in the queue's code follows a callback.
-/
namespace Bte

open Bytes

/-! ## The code -/

inductive AclEvent
  | submitted (packet : Packet)
  | handed (packet : Packet) (rc : Int)
  | completed (packets : Nat)
  | disconnected (connHandle : Nat)
deriving DecidableEq

/-- The outgoing side of `BteHciDev`. -/
structure AclOut where
  aclMaxPackets : Nat
  aclAvailablePackets : Nat
  outgoingAclPackets : List Packet
  calls : Nat
  trace : List AclEvent

/-- What one pass over the queue does. -/
structure SendPass where
  handed : List (Packet × Int)
  next : List Packet
  available : Nat

def sendLoop (rc : Nat → Int) : Nat → List Packet → Nat → SendPass
  | _, [], available => ⟨[], [], available⟩
  | _, b :: next, 0 => ⟨[], b :: next, 0⟩
  | k, b :: next, available + 1 =>
    let r := sendLoop rc (k + 1) next available
    { r with handed := (b, rc k) :: r.handed }

def SendPass.result (r : SendPass) : Int :=
  let numErrors := r.handed.countP fun x => x.2 < 0
  if numErrors = 0 then r.handed.length else -numErrors

/-- `_bte_hci_send_queued_data`. -/
def bteHciSendQueuedData (rc : Nat → Int) (dev : AclOut) : Int × AclOut :=
  let r := sendLoop rc dev.calls dev.outgoingAclPackets dev.aclAvailablePackets
  (r.result, { dev with
    aclAvailablePackets := r.available
    outgoingAclPackets := r.next
    calls := dev.calls + r.handed.length
    trace := dev.trace ++ r.handed.map fun x => .handed x.1 x.2 })

/-- The message joins the queue. -/
def AclOut.enqueue (dev : AclOut) (buffer : List Packet) : AclOut :=
  { dev with
    outgoingAclPackets := bteBufferAppend dev.outgoingAclPackets buffer
    trace := dev.trace ++ buffer.map .submitted }

/-- `bte_acl_send_message`.  A packet that was handed over is unlinked, so the count from `buffer` on is one as soon as its
head is gone. -/
def bteAclSendMessage (rc : Nat → Int) (dev : AclOut) (buffer : List Packet) : Int × AclOut :=
  let r := bteHciSendQueuedData rc (dev.enqueue buffer)
  if r.1 < 0 then r
  else
    let queuedPackets := r.2.outgoingAclPackets.length
    let ourPackets := if queuedPackets ≥ buffer.length then buffer.length else 1
    (if queuedPackets ≥ ourPackets then 0 else (ourPackets - queuedPackets : Nat), r.2)

/-- `_bte_hci_dev_on_completed_packets`. -/
def bteHciDevOnCompletedPackets (rc : Nat → Int) (dev : AclOut) (numPackets : Nat) : AclOut :=
  (bteHciSendQueuedData rc { dev with aclAvailablePackets := (dev.aclAvailablePackets + numPackets) % 65536 }).2

/-- The records of a Number Of Completed Packets event: all the handles, then all the counts. -/
def completedRecords (event : List UInt8) : List (Nat × Nat) :=
  let data := event.drop hciCmdEventPosData.toNat
  let numRecords := (data.getD 0 0).toNat
  let data := data.drop 1
  (List.range numRecords).map fun i =>
    (leVal (slice data (i * 2) 2), leVal (slice data (numRecords * 2 + i * 2) 2))

def nrOfCompletedPacketsEventCb (rc : Nat → Int) (dev : AclOut) (event : List UInt8) : AclOut :=
  let completedPackets := (completedRecords event).foldl (fun n r => (n + r.2) % 65536) 0
  bteHciDevOnCompletedPackets rc
    { dev with trace := dev.trace ++ (completedRecords event).map fun r => .completed r.2 } completedPackets

/-- The loop of `bte_acl_disconnected` over the queue. -/
def cancelOutgoing (connHandle : Nat) : List Packet → List Packet
  | [] => []
  | b :: next =>
    if b.size ≥ bteAclHdrLen then
      if b.connHandle = connHandle then cancelOutgoing connHandle next else b :: cancelOutgoing connHandle next
    else b :: cancelOutgoing connHandle next

/-- The device and the connection handles of its ACLs. -/
structure AclLink where
  acls : Fin 7 → Option Nat
  out : AclOut

/-- `bte_acl_disconnected`, for the ACL in a slot. -/
def bteAclDisconnected (s : AclLink) (i : Fin 7) (connHandle : Nat) : AclLink :=
  { acls := Function.update s.acls i none
    out := { s.out with
      outgoingAclPackets := cancelOutgoing connHandle s.out.outgoingAclPackets
      trace := s.out.trace ++ [.disconnected connHandle] } }

@[simp] theorem acls_disconnected (s : AclLink) (i : Fin 7) (h : Nat) :
    (bteAclDisconnected s i h).acls = Function.update s.acls i none := rfl

def findConnHandle (s : AclLink) (connHandle : Nat) : Option (Fin 7) :=
  (List.finRange 7).find? fun i => s.acls i = some connHandle

inductive AclOp
  /-- A connection is established for the ACL in slot `i`. -/
  | connected (i : Fin 7) (connHandle : Nat)
  | sendMessage (buffer : List Packet)
  | completedPackets (event : List UInt8)
  | disconnectionComplete (connHandle : Nat)
  /-- The last reference to the ACL in slot `i` is dropped. -/
  | free (i : Fin 7)

def AclLink.step (rc : Nat → Int) (s : AclLink) : AclOp → AclLink
  | .connected i connHandle => { s with acls := Function.update s.acls i (some connHandle) }
  | .sendMessage buffer => { s with out := (bteAclSendMessage rc s.out buffer).2 }
  | .completedPackets event => { s with out := nrOfCompletedPacketsEventCb rc s.out event }
  | .disconnectionComplete connHandle =>
    match findConnHandle s connHandle with
    | none => s
    | some i => bteAclDisconnected s i connHandle
  | .free i =>
    match s.acls i with
    | none => s
    | some connHandle => bteAclDisconnected s i connHandle

/-- The packets an operation submits. -/
def AclOp.buffer : AclOp → List Packet
  | .sendMessage buffer => buffer
  | _ => []

/-- The operation disconnects the handle. -/
def AclOp.ends (s : AclLink) (connHandle : Nat) : AclOp → Bool
  | .disconnectionComplete h => decide (h = connHandle) && (findConnHandle s h).isSome
  | .free i => decide (s.acls i = some connHandle)
  | _ => false

/-- All the controller's buffers are free and nothing is queued. -/
def AclLink.start (aclMaxPackets : Nat) : AclLink :=
  ⟨fun _ => none, ⟨aclMaxPackets, aclMaxPackets, [], 0, []⟩⟩

/-! ## What a pass over the queue does -/

theorem sendLoop_queue (rc : Nat → Int) :
    ∀ (q : List Packet) (k available : Nat),
      (sendLoop rc k q available).handed.map Prod.fst ++ (sendLoop rc k q available).next = q
  | [], _, available => by cases available <;> rfl
  | b :: next, _, 0 => rfl
  | b :: next, k, available + 1 => by simp [sendLoop, sendLoop_queue rc next (k + 1) available]

theorem sendLoop_credit (rc : Nat → Int) :
    ∀ (q : List Packet) (k available : Nat),
      (sendLoop rc k q available).handed.length + (sendLoop rc k q available).available = available
  | [], _, available => by cases available <;> simp [sendLoop]
  | b :: next, _, 0 => rfl
  | b :: next, k, available + 1 => by
    have h := sendLoop_credit rc next (k + 1) available
    simp only [sendLoop, List.length_cons]
    omega

theorem sendLoop_left (rc : Nat → Int) :
    ∀ (q : List Packet) (k available : Nat), (sendLoop rc k q available).next ≠ [] →
      (sendLoop rc k q available).available = 0
  | [], _, available => by cases available <;> simp [sendLoop]
  | b :: next, _, 0 => fun _ => rfl
  | b :: next, k, available + 1 => fun h => sendLoop_left rc next (k + 1) available h

/-- **A pass hands over the front of the queue**, one credit for each packet, and stops when there are no more of one. -/
theorem sendQueuedData_spec (rc : Nat → Int) (dev : AclOut) :
    ∃ handed : List (Packet × Int),
      dev.outgoingAclPackets = handed.map Prod.fst ++ (bteHciSendQueuedData rc dev).2.outgoingAclPackets ∧
      (bteHciSendQueuedData rc dev).2.aclAvailablePackets + handed.length = dev.aclAvailablePackets ∧
      ((bteHciSendQueuedData rc dev).2.outgoingAclPackets ≠ [] →
        (bteHciSendQueuedData rc dev).2.aclAvailablePackets = 0) ∧
      (bteHciSendQueuedData rc dev).2.trace = dev.trace ++ (handed.map fun x => .handed x.1 x.2) ∧
      (bteHciSendQueuedData rc dev).2.aclMaxPackets = dev.aclMaxPackets := by
  refine ⟨(sendLoop rc dev.calls dev.outgoingAclPackets dev.aclAvailablePackets).handed, ?_, ?_, ?_, rfl, rfl⟩
  · exact (sendLoop_queue rc dev.outgoingAclPackets dev.calls dev.aclAvailablePackets).symm
  · have h := sendLoop_credit rc dev.outgoingAclPackets dev.calls dev.aclAvailablePackets
    simp only [bteHciSendQueuedData]
    omega
  · exact sendLoop_left rc dev.outgoingAclPackets dev.calls dev.aclAvailablePackets

theorem sendMessage_state (rc : Nat → Int) (dev : AclOut) (buffer : List Packet) :
    (bteAclSendMessage rc dev buffer).2 = (bteHciSendQueuedData rc (dev.enqueue buffer)).2 := by
  unfold bteAclSendMessage
  simp only
  split <;> rfl

theorem length_bufferAppend (ps qs : List Packet) : (bteBufferAppend ps qs).length = ps.length + qs.length := by
  cases ps with
  | nil => simp [bteBufferAppend]
  | cons p ps =>
    cases qs with
    | nil => rfl
    | cons q qs =>
      simp only [bteBufferAppend, List.length_cons, List.length_append]
      omega

/-- A turn that goes on has used a credit. -/
theorem sendMessage_uses (rc : Nat → Int) (dev : AclOut) (buffer : List Packet)
    (h : (bteAclSendMessage rc dev buffer).1 ≠ 0) :
    (bteAclSendMessage rc dev buffer).2.aclAvailablePackets < dev.aclAvailablePackets := by
  rw [sendMessage_state]
  by_contra hcredit
  apply h
  let loop := sendLoop rc dev.calls (dev.enqueue buffer).outgoingAclPackets dev.aclAvailablePackets
  have hqueue : loop.handed.map Prod.fst ++ loop.next = (dev.enqueue buffer).outgoingAclPackets := sendLoop_queue ..
  have hused : loop.handed.length + loop.available = dev.aclAvailablePackets := sendLoop_credit ..
  have havail : (bteHciSendQueuedData rc (dev.enqueue buffer)).2.aclAvailablePackets = loop.available := rfl
  rw [havail] at hcredit
  have hnone : loop.handed = [] := List.length_eq_zero_iff.1 (by omega)
  have hnext : loop.next = (dev.enqueue buffer).outgoingAclPackets := by rwa [hnone] at hqueue
  have hlen : loop.next.length = dev.outgoingAclPackets.length + buffer.length := by
    rw [hnext]
    exact length_bufferAppend ..
  have hresult : (bteHciSendQueuedData rc (dev.enqueue buffer)).1 = 0 := by
    show loop.result = 0
    simp [SendPass.result, hnone]
  have hleft : (bteHciSendQueuedData rc (dev.enqueue buffer)).2.outgoingAclPackets.length = loop.next.length := rfl
  unfold bteAclSendMessage
  simp only
  rw [hresult, hleft, hlen, if_neg (lt_irrefl 0), if_pos (Nat.le_add_left ..), if_pos (Nat.le_add_left ..)]

/-! ## The packets of one connection -/

/-- What is sent of a packet. -/
def Packet.content (p : Packet) : Nat × List UInt8 := (p.size, p.data)

/-- The header of the packet names the connection. -/
def addressed (connHandle : Nat) (c : Nat × List UInt8) : Bool :=
  c.1 ≥ bteAclHdrLen && leVal (slice c.2 0 2) &&& 0xfff == connHandle

def onConnection (connHandle : Nat) (ps : List Packet) : List (Nat × List UInt8) :=
  (ps.map Packet.content).filter (addressed connHandle)

/-- What happened since the connection's handle was last disconnected. -/
def sinceDisconnection (connHandle : Nat) (trace : List AclEvent) : List AclEvent :=
  trace.foldl (fun since e => if e = .disconnected connHandle then [] else since ++ [e]) []

def AclEvent.submittedPacket : AclEvent → Option Packet
  | .submitted p => some p
  | _ => none

def AclEvent.handedPacket : AclEvent → Option Packet
  | .handed p _ => some p
  | _ => none

def AclEvent.completedCount : AclEvent → Nat
  | .completed n => n
  | _ => 0

def submittedOn (connHandle : Nat) (trace : List AclEvent) : List (Nat × List UInt8) :=
  onConnection connHandle ((sinceDisconnection connHandle trace).filterMap AclEvent.submittedPacket)

/-- What the operations of a run submit for a connection, from its last disconnection on. -/
def submittedBy (rc : Nat → Int) (connHandle : Nat) :
    AclLink → List (Nat × List UInt8) → List AclOp → List (Nat × List UInt8)
  | _, earlier, [] => earlier
  | s, earlier, op :: ops =>
    submittedBy rc connHandle (s.step rc op)
      (if op.ends s connHandle then [] else earlier ++ onConnection connHandle op.buffer) ops

def handedOn (connHandle : Nat) (trace : List AclEvent) : List (Nat × List UInt8) :=
  onConnection connHandle ((sinceDisconnection connHandle trace).filterMap AclEvent.handedPacket)

def handedTotal (trace : List AclEvent) : Nat := (trace.filterMap AclEvent.handedPacket).length

def completedTotal (trace : List AclEvent) : Nat := (trace.map AclEvent.completedCount).sum

theorem onConnection_append (h : Nat) (ps qs : List Packet) :
    onConnection h (ps ++ qs) = onConnection h ps ++ onConnection h qs := by
  simp [onConnection]

/-- Appending changes the total size noted in the head and nothing that is sent. -/
theorem onConnection_bufferAppend (h : Nat) (ps qs : List Packet) :
    onConnection h (bteBufferAppend ps qs) = onConnection h ps ++ onConnection h qs := by
  rw [← onConnection_append]
  cases ps with
  | nil => rfl
  | cons p ps =>
    cases qs with
    | nil => simp [bteBufferAppend]
    | cons q qs => simp [bteBufferAppend, onConnection, Packet.content]

theorem sinceDisconnection_append {h : Nat} :
    ∀ (evs trace : List AclEvent), (∀ e ∈ evs, e ≠ .disconnected h) →
      sinceDisconnection h (trace ++ evs) = sinceDisconnection h trace ++ evs
  | [], trace, _ => by simp
  | e :: evs, trace, hne => by
    have he : sinceDisconnection h (trace ++ [e]) = sinceDisconnection h trace ++ [e] := by
      simp [sinceDisconnection, hne e List.mem_cons_self]
    have hrest := sinceDisconnection_append evs (trace ++ [e]) fun e' he' => hne e' (List.mem_cons_of_mem e he')
    simpa [he] using hrest

theorem sinceDisconnection_disconnected (h : Nat) (trace : List AclEvent) :
    sinceDisconnection h (trace ++ [.disconnected h]) = [] := by
  simp [sinceDisconnection]

section Trace
variable {h : Nat} {trace evs : List AclEvent}

theorem handedOn_append (hne : ∀ e ∈ evs, e ≠ .disconnected h) :
    handedOn h (trace ++ evs) = handedOn h trace ++ onConnection h (evs.filterMap AclEvent.handedPacket) := by
  rw [handedOn, handedOn, sinceDisconnection_append evs trace hne, List.filterMap_append, onConnection_append]

theorem submittedOn_append (hne : ∀ e ∈ evs, e ≠ .disconnected h) :
    submittedOn h (trace ++ evs) = submittedOn h trace ++ onConnection h (evs.filterMap AclEvent.submittedPacket) := by
  rw [submittedOn, submittedOn, sinceDisconnection_append evs trace hne, List.filterMap_append, onConnection_append]

theorem handedTotal_append : handedTotal (trace ++ evs) =
    handedTotal trace + (evs.filterMap AclEvent.handedPacket).length := by
  simp [handedTotal]

theorem completedTotal_append : completedTotal (trace ++ evs) =
    completedTotal trace + (evs.map AclEvent.completedCount).sum := by
  simp [completedTotal]

end Trace

theorem filterMap_handedPacket (handed : List (Packet × Int)) :
    (handed.map fun x => AclEvent.handed x.1 x.2).filterMap AclEvent.handedPacket = handed.map Prod.fst := by
  rw [List.filterMap_map, ← List.filterMap_eq_map]
  rfl

section Kind
variable {α : Type} {f : α → AclEvent}

theorem ne_disconnected_map {h : Nat} {l : List α} (hf : ∀ x, f x ≠ .disconnected h) :
    ∀ e ∈ l.map f, e ≠ .disconnected h := by
  intro e he
  obtain ⟨x, _, rfl⟩ := List.mem_map.1 he
  exact hf x

theorem filterMap_map_none {g : AclEvent → Option Packet} (hf : ∀ x, g (f x) = none) (l : List α) :
    (l.map f).filterMap g = [] := by
  rw [List.filterMap_map, List.filterMap_eq_nil_iff]
  exact fun x _ => hf x

theorem sum_completedCount_zero (hf : ∀ x, (f x).completedCount = 0) (l : List α) :
    ((l.map f).map AclEvent.completedCount).sum = 0 := by
  induction l with
  | nil => rfl
  | cons x l ih => rw [List.map_cons, List.map_cons, List.sum_cons, hf, ih]

end Kind

/-- **A disconnection removes exactly the packets of its handle**; the others keep their order. -/
theorem cancelOutgoing_eq (h : Nat) :
    ∀ q : List Packet, cancelOutgoing h q = q.filter fun p => !addressed h p.content
  | [] => rfl
  | b :: next => by
    have ih := cancelOutgoing_eq h next
    by_cases hsize : b.size ≥ bteAclHdrLen
    · by_cases hh : b.connHandle = h
      · have hb : addressed h b.content = true := by
          rw [addressed, Bool.and_eq_true, decide_eq_true_eq, beq_iff_eq]
          exact ⟨hsize, hh⟩
        simp [cancelOutgoing, hsize, hh, hb, ih]
      · have hb : addressed h b.content = false := by
          rw [addressed, Bool.and_eq_false_iff, beq_eq_false_iff_ne]
          exact .inr hh
        simp [cancelOutgoing, hsize, hh, hb, ih]
    · have hb : addressed h b.content = false := by
        rw [addressed, Bool.and_eq_false_iff, decide_eq_false_iff_not]
        exact .inl hsize
      simp [cancelOutgoing, hsize, hb, ih]

theorem onConnection_cancelOutgoing_self (h : Nat) (q : List Packet) : onConnection h (cancelOutgoing h q) = [] := by
  rw [cancelOutgoing_eq, onConnection, List.filter_map, List.map_eq_nil_iff, List.filter_filter, List.filter_eq_nil_iff]
  intro p _
  cases hp : addressed h p.content <;> simp [hp]

/-- A packet is addressed to one connection. -/
theorem addressed_ne {h h' : Nat} (hne : h' ≠ h) {c : Nat × List UInt8} (hc : addressed h' c = true) :
    addressed h c = false := by
  simp only [addressed, Bool.and_eq_true, beq_iff_eq] at hc
  rw [addressed, Bool.and_eq_false_iff, beq_eq_false_iff_ne, hc.2]
  exact .inr hne

theorem onConnection_cancelOutgoing_ne {h h' : Nat} (hne : h' ≠ h) (q : List Packet) :
    onConnection h' (cancelOutgoing h q) = onConnection h' q := by
  rw [cancelOutgoing_eq, onConnection, onConnection, List.filter_map, List.filter_map, List.filter_filter]
  congr 1
  apply List.filter_congr
  intro p _
  cases hp : addressed h' p.content with
  | false => simp [hp]
  | true => simp [hp, addressed_ne hne hp]

/-! ## The invariant of the queue -/

/-- What holds whenever packets may still be handed over. -/
structure PassInv (dev : AclOut) : Prop where
  /-- What was handed over and what is queued is what was submitted. -/
  fifo : ∀ h, handedOn h dev.trace ++ onConnection h dev.outgoingAclPackets = submittedOn h dev.trace
  credit : dev.aclAvailablePackets + handedTotal dev.trace = dev.aclMaxPackets + completedTotal dev.trace
  width : dev.aclMaxPackets < 65536

structure QueueInv (dev : AclOut) : Prop extends PassInv dev where
  left : dev.outgoingAclPackets ≠ [] → dev.aclAvailablePackets = 0

/-- A pass keeps the invariant and leaves packets only for want of credit. -/
theorem queueInv_of_pass (rc : Nat → Int) {dev : AclOut} (hd : PassInv dev) :
    QueueInv (bteHciSendQueuedData rc dev).2 := by
  obtain ⟨handed, hq, hc, hleft, htrace, hmax⟩ := sendQueuedData_spec rc dev
  have hhanded := filterMap_handedPacket handed
  have hne : ∀ h, ∀ e ∈ handed.map fun x => AclEvent.handed x.1 x.2, e ≠ .disconnected h := by
    intro h
    exact ne_disconnected_map fun _ => by simp
  refine ⟨⟨?_, ?_, ?_⟩, hleft⟩
  · intro h
    have hold := hd.fifo h
    rw [hq, onConnection_append, ← List.append_assoc] at hold
    rw [htrace, handedOn_append (hne h), submittedOn_append (hne h), hhanded, hold,
      filterMap_map_none (f := fun x : Packet × Int => AclEvent.handed x.1 x.2) fun _ => rfl]
    simp [onConnection]
  · have hold := hd.credit
    have hz := sum_completedCount_zero (f := fun x : Packet × Int => AclEvent.handed x.1 x.2) (fun _ => rfl) handed
    rw [htrace, handedTotal_append, completedTotal_append, hhanded, hz, List.length_map, hmax]
    omega
  · rw [hmax]
    exact hd.width

theorem passInv_enqueue {dev : AclOut} (hd : PassInv dev) (buffer : List Packet) : PassInv (dev.enqueue buffer) := by
  have hall : (buffer.map AclEvent.submitted).filterMap AclEvent.submittedPacket = buffer := by
    rw [List.filterMap_map]
    exact List.filterMap_some
  have hnone : (buffer.map AclEvent.submitted).filterMap AclEvent.handedPacket = [] := filterMap_map_none (fun _ => rfl) _
  have hne : ∀ h, ∀ e ∈ buffer.map AclEvent.submitted, e ≠ .disconnected h := by
    intro h
    exact ne_disconnected_map fun _ => by simp
  refine ⟨?_, ?_, hd.width⟩
  · intro h
    have hold := hd.fifo h
    simp only [AclOut.enqueue]
    rw [handedOn_append (hne h), submittedOn_append (hne h), hall, hnone, onConnection_bufferAppend, ← hold]
    simp [onConnection]
  · have hold := hd.credit
    have hz := sum_completedCount_zero (f := AclEvent.submitted) (fun _ => rfl) buffer
    simp only [AclOut.enqueue]
    rw [handedTotal_append, completedTotal_append, hnone, hz]
    exact hold

/-- The number of packets an event reports. -/
def reportedTotal (event : List UInt8) : Nat := ((completedRecords event).map Prod.snd).sum

theorem foldl_mod_eq (rs : List (Nat × Nat)) (n : Nat) :
    rs.foldl (fun n r => (n + r.2) % 65536) (n % 65536) = (n + (rs.map Prod.snd).sum) % 65536 := by
  induction rs generalizing n with
  | nil => simp
  | cons r rs ih =>
    rw [List.foldl_cons, Nat.mod_add_mod, ih, List.map_cons, List.sum_cons, Nat.add_assoc]

/-- The credits come back without wrapping, since no more are reported than were used. -/
theorem passInv_completed {dev : AclOut} (hd : PassInv dev) {event : List UInt8}
    (hrep : completedTotal dev.trace + reportedTotal event ≤ handedTotal dev.trace) :
    PassInv { dev with
      aclAvailablePackets := (dev.aclAvailablePackets +
        (completedRecords event).foldl (fun n r => (n + r.2) % 65536) 0) % 65536
      trace := dev.trace ++ (completedRecords event).map fun r => .completed r.2 } := by
  have hsum : (completedRecords event).foldl (fun n r => (n + r.2) % 65536) 0 = reportedTotal event % 65536 := by
    have h := foldl_mod_eq (completedRecords event) 0
    rwa [Nat.zero_mod, Nat.zero_add] at h
  have hne : ∀ h, ∀ e ∈ (completedRecords event).map fun r => AclEvent.completed r.2, e ≠ .disconnected h := by
    intro h
    exact ne_disconnected_map fun _ => by simp
  have hnone := filterMap_map_none (f := fun r : Nat × Nat => AclEvent.completed r.2) (g := AclEvent.handedPacket)
    (fun _ => rfl) (completedRecords event)
  have hw := hd.width
  have hcredit := hd.credit
  refine ⟨?_, ?_, hw⟩
  · intro h
    rw [handedOn_append (hne h), submittedOn_append (hne h), hnone,
      filterMap_map_none (f := fun r : Nat × Nat => AclEvent.completed r.2) fun _ => rfl]
    simpa [onConnection] using hd.fifo h
  · have hrs : (((completedRecords event).map fun r => AclEvent.completed r.2).map AclEvent.completedCount).sum =
        reportedTotal event := by
      rw [List.map_map]
      rfl
    have hmod : (dev.aclAvailablePackets + reportedTotal event % 65536) % 65536 =
        dev.aclAvailablePackets + reportedTotal event := by omega
    simp only [hsum, hmod]
    rw [handedTotal_append, completedTotal_append, hnone, hrs, List.length_nil]
    omega

theorem queueInv_disconnected {s : AclLink} (hs : QueueInv s.out) (i : Fin 7) (h : Nat) :
    QueueInv (bteAclDisconnected s i h).out := by
  refine ⟨⟨?_, ?_, hs.width⟩, ?_⟩
  · intro h'
    by_cases hh : h' = h
    · subst hh
      simp [bteAclDisconnected, handedOn, submittedOn, sinceDisconnection_disconnected, onConnection_cancelOutgoing_self]
    · have hother : ∀ e ∈ [AclEvent.disconnected h], e ≠ .disconnected h' := by simpa using Ne.symm hh
      have hold := hs.fifo h'
      simp only [bteAclDisconnected]
      rw [handedOn_append hother, submittedOn_append hother, onConnection_cancelOutgoing_ne hh, ← hold]
      have hnone : [AclEvent.disconnected h].filterMap AclEvent.handedPacket = [] := rfl
      have hnone' : [AclEvent.disconnected h].filterMap AclEvent.submittedPacket = [] := rfl
      simp [hnone, hnone', onConnection]
  · have hold := hs.credit
    simp only [bteAclDisconnected]
    rw [handedTotal_append, completedTotal_append]
    exact hold
  · intro hne
    apply hs.left
    intro h0
    simp [bteAclDisconnected, h0, cancelOutgoing] at hne

/-- The controller reports only packets it was given. -/
def AclOp.Reports (s : AclLink) : AclOp → Prop
  | .completedPackets event => completedTotal s.out.trace + reportedTotal event ≤ handedTotal s.out.trace
  | _ => True

instance (s : AclLink) : ∀ op : AclOp, Decidable (op.Reports s)
  | .completedPackets _ => inferInstanceAs (Decidable (_ ≤ _))
  | .connected _ _ | .sendMessage _ | .disconnectionComplete _ | .free _ => .isTrue trivial

theorem queueInv_step (rc : Nat → Int) (s : AclLink) (op : AclOp) (hs : QueueInv s.out) (hop : op.Reports s) :
    QueueInv (s.step rc op).out := by
  cases op with
  | connected i h => exact hs
  | sendMessage buffer =>
    rw [AclLink.step, sendMessage_state]
    exact queueInv_of_pass rc (passInv_enqueue hs.toPassInv buffer)
  | completedPackets event => exact queueInv_of_pass rc (passInv_completed hs.toPassInv hop)
  | disconnectionComplete h =>
    simp only [AclLink.step]
    split
    · exact hs
    · exact queueInv_disconnected hs _ h
  | free i =>
    simp only [AclLink.step]
    split
    · exact hs
    · exact queueInv_disconnected hs i _

theorem queueInv_start {aclMaxPackets : Nat} (h : aclMaxPackets < 65536) : QueueInv (AclLink.start aclMaxPackets).out :=
  ⟨⟨fun _ => rfl, rfl, h⟩, fun hne => absurd rfl hne⟩

theorem aclMaxPackets_step (rc : Nat → Int) (s : AclLink) (op : AclOp) :
    (s.step rc op).out.aclMaxPackets = s.out.aclMaxPackets := by
  cases op with
  | connected i h => rfl
  | sendMessage buffer =>
    rw [AclLink.step, sendMessage_state]
    rfl
  | completedPackets event => rfl
  | disconnectionComplete h =>
    simp only [AclLink.step]
    split <;> rfl
  | free i =>
    simp only [AclLink.step]
    split <;> rfl

/-! ## What was submitted -/

theorem submittedOn_pass (rc : Nat → Int) (h : Nat) (dev : AclOut) :
    submittedOn h (bteHciSendQueuedData rc dev).2.trace = submittedOn h dev.trace := by
  obtain ⟨handed, -, -, -, htrace, -⟩ := sendQueuedData_spec rc dev
  have hne : ∀ e ∈ handed.map fun x => AclEvent.handed x.1 x.2, e ≠ .disconnected h := ne_disconnected_map fun _ => by simp
  rw [htrace, submittedOn_append hne, filterMap_map_none (f := fun x : Packet × Int => AclEvent.handed x.1 x.2) fun _ => rfl]
  exact List.append_nil _

theorem submittedOn_disconnected (h h' : Nat) (trace : List AclEvent) :
    submittedOn h (trace ++ [.disconnected h']) = if h' = h then [] else submittedOn h trace := by
  split
  · rename_i heq
    rw [heq, submittedOn, sinceDisconnection_disconnected]
    rfl
  · rename_i hne
    have hother : ∀ e ∈ [AclEvent.disconnected h'], e ≠ .disconnected h := by simpa using hne
    exact (submittedOn_append hother).trans (List.append_nil _)

/-- **The trace has what each operation submits.** -/
theorem submittedOn_step (rc : Nat → Int) (h : Nat) (s : AclLink) (op : AclOp) :
    submittedOn h (s.step rc op).out.trace =
      if op.ends s h then [] else submittedOn h s.out.trace ++ onConnection h op.buffer := by
  cases op with
  | connected i h' => exact (List.append_nil _).symm
  | sendMessage buffer =>
    have hne : ∀ e ∈ buffer.map AclEvent.submitted, e ≠ .disconnected h := ne_disconnected_map fun _ => by simp
    rw [AclLink.step, sendMessage_state, submittedOn_pass, AclOut.enqueue, submittedOn_append hne, List.filterMap_map]
    exact congrArg (_ ++ onConnection h ·) List.filterMap_some
  | completedPackets event =>
    have hne : ∀ e ∈ (completedRecords event).map fun r => AclEvent.completed r.2, e ≠ .disconnected h :=
      ne_disconnected_map fun _ => by simp
    refine (submittedOn_pass rc h _).trans ((submittedOn_append hne).trans ?_)
    rw [filterMap_map_none (f := fun r : Nat × Nat => AclEvent.completed r.2) fun _ => rfl]
    rfl
  | disconnectionComplete h' =>
    simp only [AclLink.step]
    split
    · rename_i hfind
      simp [AclOp.ends, hfind, AclOp.buffer, onConnection]
    · rename_i i hfind
      refine (submittedOn_disconnected h h' s.out.trace).trans ?_
      by_cases heq : h' = h
      · subst heq
        simp [AclOp.ends, hfind]
      · simp [AclOp.ends, heq, AclOp.buffer, onConnection]
  | free i =>
    simp only [AclLink.step]
    split
    · rename_i hacl
      simp [AclOp.ends, hacl, AclOp.buffer, onConnection]
    · rename_i h' hacl
      refine (submittedOn_disconnected h h' s.out.trace).trans ?_
      by_cases heq : h' = h <;> simp [AclOp.ends, hacl, heq, AclOp.buffer, onConnection]

theorem submittedOn_run (rc : Nat → Int) (h : Nat) : ∀ (ops : List AclOp) (s : AclLink),
    submittedOn h (Sys.run (AclLink.step rc) s ops).out.trace = submittedBy rc h s (submittedOn h s.out.trace) ops
  | [], _ => rfl
  | op :: ops, s => by rw [Sys.run_cons, submittedOn_run rc h ops, submittedOn_step, submittedBy]

/-- **The outgoing queue is first-in first-out and loses nothing**: after any run, what was handed over for a connection
and what is still queued for it are the packets that the run has submitted for it, in order; a disconnection takes out the
packets of its handle and no others; packets wait only for want of credit; and no more are handed over than there is credit
for. -/
theorem queue_fifo_lossless (rc : Nat → Int) (aclMaxPackets : Nat) (hmax : aclMaxPackets < 65536) (ops : List AclOp)
    (hops : Sys.Admissible (AclLink.step rc) (fun s op => op.Reports s) (AclLink.start aclMaxPackets) ops) (s : AclLink)
    (hs : Sys.run (AclLink.step rc) (AclLink.start aclMaxPackets) ops = s) :
    (∀ h, handedOn h s.out.trace ++ onConnection h s.out.outgoingAclPackets =
      submittedBy rc h (AclLink.start aclMaxPackets) [] ops) ∧
    (∀ i h, (bteAclDisconnected s i h).out.outgoingAclPackets =
      s.out.outgoingAclPackets.filter fun p => !addressed h p.content) ∧
    (s.out.outgoingAclPackets ≠ [] → s.out.aclAvailablePackets = 0) ∧
    handedTotal s.out.trace ≤ aclMaxPackets + completedTotal s.out.trace := by
  have hinv : QueueInv s.out := by
    rw [← hs]
    exact Sys.inv_run (queueInv_step rc) ops _ (queueInv_start hmax) hops
  have hm : s.out.aclMaxPackets = aclMaxPackets := by
    rw [← hs]
    have hstep : ∀ (s : AclLink) (op : AclOp), s.out.aclMaxPackets = aclMaxPackets → op.Reports s →
        (s.step rc op).out.aclMaxPackets = aclMaxPackets := fun s op h _ => (aclMaxPackets_step rc s op).trans h
    exact Sys.inv_run hstep ops _ rfl hops
  refine ⟨fun h => (hinv.fifo h).trans ?_, fun i h => cancelOutgoing_eq h _, hinv.left, ?_⟩
  · rw [← hs]
    exact submittedOn_run rc h ops (AclLink.start aclMaxPackets)
  have hcredit := hinv.credit
  omega

def slot0 : Fin 7 := 0
def slot1 : Fin 7 := 1

/-- A packet with two bytes for a connection. -/
def smallPacket (connHandle : Nat) (b : UInt8) : Packet := ⟨6, 6, leBytes 2 connHandle ++ [2, 0, b, b]⟩

/-- Two connections and one credit: three packets of the first and one of the second are submitted, one completes, and
the first is disconnected. -/
def crowdedRun : List AclOp :=
  [.connected slot0 0x42, .connected slot1 0x43, .sendMessage [smallPacket 0x42 1, smallPacket 0x42 2],
    .sendMessage [smallPacket 0x43 3], .sendMessage [smallPacket 0x42 4],
    .completedPackets [0x13, 5, 1, 0x42, 0, 1, 0], .disconnectionComplete 0x42]

/-- The second connection's packet has moved up to the head of the queue. -/
theorem queue_fifo_lossless_crowdedRun :
    onConnection 0x43 (Sys.run (AclLink.step fun _ => 0) (AclLink.start 1) crowdedRun).out.outgoingAclPackets =
      [(6, [0x43, 0, 2, 0, 3, 3])] ∧
    submittedBy (fun _ => 0) 0x43 (AclLink.start 1) [] crowdedRun = [(6, [0x43, 0, 2, 0, 3, 3])] ∧
    handedTotal (Sys.run (AclLink.step fun _ => 0) (AclLink.start 1) crowdedRun).out.trace = 2 := by
  have h := queue_fifo_lossless (fun _ => 0) 1 (by decide) crowdedRun (by decide) _ rfl
  refine ⟨?_, ?_, ?_⟩
  · decide
  · rw [← h.1 0x43]
    decide
  · decide

end Bte
