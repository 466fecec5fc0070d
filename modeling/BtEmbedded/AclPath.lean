import BtEmbedded.AclQueue
import BtEmbedded.AclReceive
import BtEmbedded.BufferTotals
import BtEmbedded.Lib.Marked
import Mathlib.Data.List.Forall2
/-!
# AclPath — a connection from one device to the other (acl.c, l2cap.c, hci_dev.c)

`bte_l2cap_create_message`, the writer and `bte_acl_send_message` on one side, `on_data_received` on the other, and between
them two controllers that may cut the bytes of the connection into packets of their own.  Both sides are compared with
one stream: the bytes of the messages, the first of each marked (`Lib.Marked`).  The sender's queue holds the end of it,
what the backend accepted is its beginning, and what has arrived is the beginning of that.

`AclPath.step` interleaves the two: messages on the connection, everything else that goes through the sender's queue, and
packets that arrive at the receiver, of this connection or another.  `path_exact` says that the receiver's callback gets,
after any run, the submitted messages whose last byte has arrived, each of them whole, in order and once, but for those
the receiver refused at their first packet.
-/
namespace Bte

open Bytes Marked

/-! ## The two devices -/

/-- What does not change in a run: the backend, the blocks, the MTU and the handle of the sender, and the slot, the handle
and the callbacks of the receiver. -/
structure AclPair where
  rc : Nat → Int
  layout : BufferLayout
  aclMtu : Nat
  connHandle : Nat
  env : AclEnv
  slot : Fin 7
  peerHandle : Nat

structure AclPath where
  sender : AclLink
  receiver : Receiver
  /-- The messages that were sent on the connection. -/
  submitted : List (List UInt8)
  /-- The marked bytes of the connection that have arrived. -/
  arrived : List (Bool × UInt8)
  /-- Whether the receiver accepted each message of which the first packet has arrived. -/
  verdicts : List Bool

inductive PathOp
  /-- A message of a channel is created, written in pieces and sent. -/
  | send (mem : Nat → Nat → UInt8) (remoteChannelId remoteMtu : Nat) (pieces : List (List UInt8))
  | link (op : AclOp)
  | arrive (packet : Packet)

/-- A packet carries a piece of a message. -/
def Packet.marked (p : Packet) : List (Bool × UInt8) :=
  cut (decide (p.packetBoundary ≠ bteAclPbContinuation)) (p.payload 4)

def contentMarked (c : Nat × List UInt8) : List (Bool × UInt8) := Packet.marked ⟨c.1, c.1, c.2⟩

/-- The answer of `acl_incoming_data_check_cb` to a first packet. -/
def Receiver.accepts (env : AclEnv) (w : Receiver) (i : Fin 7) (p : Packet) : Bool :=
  (w.acls i).any fun a => (aclIncomingDataCheckCb env a.clients (aclReader p [])).isSome

def totalLength (pieces : List (List UInt8)) : Nat := (pieces.map List.length).sum

/-- An L2CAP message: its header and its bytes. -/
def l2capPdu (remoteChannelId : Nat) (pieces : List (List UInt8)) : List UInt8 :=
  leBytes 2 (totalLength pieces) ++ leBytes 2 remoteChannelId ++ pieces.flatten

def AclPath.step (c : AclPair) (s : AclPath) : PathOp → AclPath
  | .send mem remoteChannelId remoteMtu pieces =>
    match bteL2capCreateMessage mem c.aclMtu c.connHandle remoteChannelId remoteMtu (totalLength pieces) with
    | none => s
    | some writer =>
      { s with
        sender := s.sender.step c.rc (.sendMessage (bteBufferWriterEnd (writeAll writer pieces).2))
        submitted := s.submitted ++ [l2capPdu remoteChannelId pieces] }
  | .link op => { s with sender := s.sender.step c.rc op }
  | .arrive p =>
    { s with
      receiver := onDataReceived c.env s.receiver p
      arrived := if p.connHandle = c.peerHandle then s.arrived ++ p.marked else s.arrived
      verdicts := if p.connHandle = c.peerHandle ∧ p.packetBoundary ≠ bteAclPbContinuation then
        s.verdicts ++ [s.receiver.accepts c.env c.slot p] else s.verdicts }

def AclPath.start (aclMaxPackets : Nat) (w : Receiver) : AclPath := ⟨.start aclMaxPackets, w, [], [], []⟩

/-! ## What the environment is held to -/

/-- The packet was taken by the backend. -/
def AclEvent.acceptedPacket : AclEvent → Option Packet
  | .handed p rc => if 0 ≤ rc then some p else none
  | _ => none

/-- What the backend has taken for a connection. -/
def acceptedOn (connHandle : Nat) (trace : List AclEvent) : List (Nat × List UInt8) :=
  onConnection connHandle ((sinceDisconnection connHandle trace).filterMap AclEvent.acceptedPacket)

/-- The connection stays: nothing disconnects its handle. -/
def AclOp.Keeps (h : Nat) (s : AclLink) : AclOp → Prop
  | .disconnectionComplete h' => h' ≠ h
  | .free i => s.acls i ≠ some h
  | _ => True

instance decidableAclOpKeeps (h : Nat) (s : AclLink) : ∀ op : AclOp, Decidable (op.Keeps h s)
  | .disconnectionComplete _ | .free _ => inferInstanceAs (Decidable (_ ≠ _))
  | .connected _ _ | .sendMessage _ | .completedPackets _ => .isTrue trivial

/-- Messages fit the 16-bit sizes they are allocated with; other users of the queue keep to other connections; the
controllers deliver the bytes of the connection in order, in packets that are not empty and do not cut the L2CAP
header. -/
def PathOp.Fair (c : AclPair) (s : AclPath) : PathOp → Prop
  | .send _ remoteChannelId _ pieces =>
    remoteChannelId < 65536 ∧ (totalLength pieces + 4 + (c.aclMtu - 4) - 1) / (c.aclMtu - 4) * c.aclMtu ≤ 65535
  | .link op => op.Reports s.sender ∧ op.Keeps c.connHandle s.sender ∧ onConnection c.connHandle op.buffer = []
  | .arrive p =>
    p.connHandle = c.peerHandle → p.Incoming ∧ p.payload 4 ≠ [] ∧
      (p.packetBoundary ≠ bteAclPbContinuation → 4 ≤ p.packetLength) ∧
      s.arrived ++ p.marked <+: (acceptedOn c.connHandle s.sender.out.trace).flatMap contentMarked

instance decidablePathOpFair (c : AclPair) (s : AclPath) : ∀ op : PathOp, Decidable (op.Fair c s)
  | .send _ _ _ _ => inferInstanceAs (Decidable (_ ∧ _))
  | .link _ => inferInstanceAs (Decidable (_ ∧ _ ∧ _))
  | .arrive _ => inferInstanceAs (Decidable (_ → _))

/-- The MTU and the handle are those of a connection, a packet and its header fit the 16-bit size of a block, and the backend
refuses no packet. -/
structure AclPair.Ok (c : AclPair) : Prop where
  mtu : 8 ≤ c.aclMtu ∧ c.aclMtu < 65536
  blocks : c.layout.sizeofBuffer + c.aclMtu < 65536
  handle : c.connHandle ≤ 0xfff
  backend : ∀ k, 0 ≤ c.rc k

/-! ## The sender -/

theorem mem_sinceDisconnection {h : Nat} {e : AclEvent} :
    ∀ {trace since : List AclEvent},
      e ∈ trace.foldl (fun since e => if e = .disconnected h then [] else since ++ [e]) since → e ∈ since ∨ e ∈ trace
  | [], _, he => .inl he
  | e' :: trace, since, he => by
    rw [List.foldl_cons] at he
    rcases mem_sinceDisconnection he with he | he
    · split at he
      · cases he
      · rcases List.mem_append.1 he with he | he
        · exact .inl he
        · exact .inr (List.mem_cons.2 (.inl (List.mem_singleton.1 he)))
    · exact .inr (List.mem_cons_of_mem e' he)

/-- Every packet of the trace that was handed over was taken. -/
def AllTaken (trace : List AclEvent) : Prop := ∀ e ∈ trace, e.acceptedPacket = e.handedPacket

theorem AllTaken.acceptedOn {trace : List AclEvent} (ht : AllTaken trace) (h : Nat) :
    acceptedOn h trace = handedOn h trace := by
  rw [Bte.acceptedOn, handedOn]
  congr 1
  apply List.filterMap_congr
  intro e he
  exact ht e ((mem_sinceDisconnection he).resolve_left List.not_mem_nil)

theorem AllTaken.append {trace evs : List AclEvent} (ht : AllTaken trace) (he : AllTaken evs) : AllTaken (trace ++ evs) :=
  fun e hmem => (List.mem_append.1 hmem).elim (ht e) (he e)

theorem sendLoop_rc (rc : Nat → Int) :
    ∀ (q : List Packet) (k available : Nat), ∀ x ∈ (sendLoop rc k q available).handed, ∃ n, x.2 = rc n
  | [], _, available, x, hx => by cases available <;> cases hx
  | _ :: _, _, 0, x, hx => by cases hx
  | b :: next, k, available + 1, x, hx => by
    rcases List.mem_cons.1 hx with rfl | hx
    · exact ⟨k, rfl⟩
    · exact sendLoop_rc rc next (k + 1) available x hx

/-- What an operation that keeps connection `h` adds to the trace. -/
structure AclOp.Logs (op : AclOp) (h : Nat) (trace trace' : List AclEvent) : Prop where
  appended : ∃ evs, trace' = trace ++ evs ∧ (∀ e ∈ evs, e ≠ .disconnected h) ∧ AllTaken evs ∧
    onConnection h (evs.filterMap AclEvent.submittedPacket) = onConnection h op.buffer

theorem logs_pass {rc : Nat → Int} (hrc : ∀ k, 0 ≤ rc k) (h : Nat) (dev : AclOut) :
    ∃ evs, (bteHciSendQueuedData rc dev).2.trace = dev.trace ++ evs ∧ (∀ e ∈ evs, e ≠ .disconnected h) ∧ AllTaken evs ∧
      evs.filterMap AclEvent.submittedPacket = [] := by
  refine ⟨_, rfl, ne_disconnected_map fun _ => by simp, ?_, filterMap_map_none (fun _ => rfl) _⟩
  intro e he
  obtain ⟨x, hx, rfl⟩ := List.mem_map.1 he
  obtain ⟨n, hn⟩ := sendLoop_rc rc dev.outgoingAclPackets dev.calls dev.aclAvailablePackets x hx
  rw [AclEvent.acceptedPacket, if_pos (by rw [hn]; exact hrc n), AclEvent.handedPacket]

theorem logs_disconnected {s : AclLink} {h h' : Nat} {op : AclOp} (hop : op.buffer = []) (hh : h' ≠ h) (i : Fin 7) :
    op.Logs h s.out.trace (bteAclDisconnected s i h').out.trace := by
  refine ⟨[.disconnected h'], rfl, ?_, ?_, ?_⟩
  · simpa using hh
  · simp [AllTaken, AclEvent.acceptedPacket, AclEvent.handedPacket]
  · rw [hop]
    rfl

/-- **Every operation of the sender** only adds to the trace. -/
theorem logs_step {rc : Nat → Int} (hrc : ∀ k, 0 ≤ rc k) {h : Nat} {s : AclLink} {op : AclOp} (hk : op.Keeps h s) :
    op.Logs h s.out.trace (s.step rc op).out.trace := by
  have hnone : ∀ op' : AclOp, op'.buffer = [] → op'.Logs h s.out.trace s.out.trace := fun op' hop' =>
    ⟨[], (List.append_nil _).symm, by simp, by simp [AllTaken], by rw [hop']; rfl⟩
  cases op with
  | connected i h' => exact hnone _ rfl
  | sendMessage buffer =>
    obtain ⟨evs, htrace, hne, htaken, hsub⟩ := logs_pass hrc h (s.out.enqueue buffer)
    refine ⟨buffer.map .submitted ++ evs, ?_, ?_, ?_, ?_⟩
    · rw [AclLink.step, sendMessage_state, htrace, AclOut.enqueue, List.append_assoc]
    · intro e he
      rcases List.mem_append.1 he with he | he
      · obtain ⟨p, _, rfl⟩ := List.mem_map.1 he
        simp
      · exact hne e he
    · refine AllTaken.append ?_ htaken
      intro e he
      obtain ⟨p, _, rfl⟩ := List.mem_map.1 he
      rfl
    · rw [List.filterMap_append, hsub, List.append_nil, List.filterMap_map]
      exact congrArg _ List.filterMap_some
  | completedPackets event =>
    obtain ⟨evs, htrace, hne, htaken, hsub⟩ := logs_pass hrc h { s.out with
      trace := s.out.trace ++ (completedRecords event).map fun r => .completed r.2
      aclAvailablePackets := (s.out.aclAvailablePackets +
        (completedRecords event).foldl (fun n r => (n + r.2) % 65536) 0) % 65536 }
    refine ⟨(completedRecords event).map (fun r => .completed r.2) ++ evs, ?_, ?_, ?_, ?_⟩
    · rw [← List.append_assoc]
      exact htrace
    · intro e he
      rcases List.mem_append.1 he with he | he
      · obtain ⟨r, _, rfl⟩ := List.mem_map.1 he
        simp
      · exact hne e he
    · refine AllTaken.append ?_ htaken
      intro e he
      obtain ⟨r, _, rfl⟩ := List.mem_map.1 he
      rfl
    · rw [List.filterMap_append, hsub, filterMap_map_none (f := fun r : Nat × Nat => AclEvent.completed r.2) fun _ => rfl]
      rfl
  | disconnectionComplete h' =>
    simp only [AclLink.step]
    split
    · exact hnone _ rfl
    · exact logs_disconnected rfl hk _
  | free i =>
    simp only [AclLink.step]
    split
    · exact hnone _ rfl
    · rename_i h' hi
      exact logs_disconnected rfl (fun heq => hk (by rw [hi, heq])) i

theorem onConnection_cons_own {connHandle : Nat} {p : Packet} {qs : List Packet} (hc : p.connHandle = connHandle)
    (hs : p.packetLength + 4 = p.size) : onConnection connHandle (p :: qs) = p.content :: onConnection connHandle qs := by
  have haddr : addressed connHandle p.content = true := by
    have hsize : bteAclHdrLen ≤ p.size := by
      rw [← hs]
      exact Nat.le_add_left ..
    simp only [addressed, Packet.content, Bool.and_eq_true, beq_iff_eq]
    exact ⟨decide_eq_true hsize, hc⟩
  rw [onConnection, List.map_cons, List.filter_cons_of_pos haddr, onConnection]

/-- The packets of a message behind the first mark nothing. -/
theorem marked_continuations {connHandle : Nat} : ∀ {qs : List Packet},
    (∀ p ∈ qs, p.packetBoundary = bteAclPbContinuation ∧ p.connHandle = connHandle ∧ p.packetLength + 4 = p.size) →
      (onConnection connHandle qs).flatMap contentMarked = (qs.map (Packet.payload 4)).flatMap (cut false)
  | [], _ => rfl
  | p :: qs, h => by
    obtain ⟨hb, hc, hs⟩ := h p List.mem_cons_self
    have hmark : contentMarked p.content = cut false (p.payload 4) := by
      have hp : contentMarked p.content = cut (decide (p.packetBoundary ≠ bteAclPbContinuation)) (p.payload 4) := rfl
      rw [hp, hb]
      rfl
    have hrest := marked_continuations fun q hq => h q (List.mem_cons_of_mem p hq)
    rw [onConnection_cons_own hc hs, List.flatMap_cons, hmark, hrest, List.map_cons, List.flatMap_cons]

/-- **A message marks its first byte**, however many packets it is in. -/
theorem marked_message {qs : List Packet} {connHandle : Nat} (hne : qs ≠ []) (hwf : ∀ p ∈ qs, p.Wf)
    (hlong : qs.flatMap (Packet.payload 4) ≠ [])
    (hqs : ∀ i p, qs[i]? = some p → p.packetBoundary = (if i = 0 then 2 else 1) ∧ p.connHandle = connHandle ∧
      p.packetLength + 4 = p.size ∧ (i + 1 < qs.length → 4 < p.size)) :
    (onConnection connHandle qs).flatMap contentMarked = cut true (qs.flatMap (Packet.payload 4)) := by
  obtain ⟨p, rest, rfl⟩ := List.exists_cons_of_ne_nil hne
  obtain ⟨hb, hc, hs, hmid⟩ := hqs 0 p rfl
  have hrest := @marked_continuations connHandle rest fun q hq => by
    obtain ⟨j, hj⟩ := List.getElem?_of_mem hq
    obtain ⟨h1, h2, h3, _⟩ := hqs (j + 1) q (by rw [List.getElem?_cons_succ, hj])
    exact ⟨h1, h2, h3⟩
  have hpne : p.payload 4 ≠ [] := by
    cases rest with
    | nil => simpa using hlong
    | cons q rest =>
      have hbig := hmid (by simp)
      intro h0
      have hlen := length_payload (p := p) ⟨hwf p List.mem_cons_self, hs.symm⟩
      rw [h0, List.length_nil] at hlen
      omega
  have hmark : contentMarked p.content = cut true (p.payload 4) := by
    have hp : contentMarked p.content = cut (decide (p.packetBoundary ≠ bteAclPbContinuation)) (p.payload 4) := rfl
    rw [hp, hb]
    rfl
  rw [onConnection_cons_own hc hs, List.flatMap_cons, hmark, hrest, cut_flatten hpne, List.flatMap_cons, List.flatMap_def]

/-- What a message of a channel adds to the stream. -/
theorem createMessage_marked {c : AclPair} (hc : c.Ok) {mem : Nat → Nat → UInt8} {remoteChannelId remoteMtu : Nat}
    {pieces : List (List UInt8)} {writer : BufferWriter}
    (hw : bteL2capCreateMessage mem c.aclMtu c.connHandle remoteChannelId remoteMtu (totalLength pieces) = some writer)
    (hfit : (totalLength pieces + 4 + (c.aclMtu - 4) - 1) / (c.aclMtu - 4) * c.aclMtu ≤ 65535) :
    (onConnection c.connHandle (bteBufferWriterEnd (writeAll writer pieces).2)).flatMap contentMarked =
      cut true (l2capPdu remoteChannelId pieces) := by
  have hguard : ¬ (remoteChannelId = 0 ∨ totalLength pieces > remoteMtu) := by
    intro h
    rw [bteL2capCreateMessage, if_pos h] at hw
    cases hw
  have hcreate : aclL2capCreateMessage mem c.aclMtu c.connHandle (totalLength pieces) remoteChannelId = some writer := by
    rwa [bteL2capCreateMessage, if_neg hguard] at hw
  obtain ⟨hmtu, hmtu'⟩ := hc.mtu
  obtain ⟨w, hw', -, hexact⟩ := createMessage_packets mem remoteChannelId pieces hmtu hmtu' hc.handle hfit rfl
  obtain ⟨-, -, hne, hpackets, hbytes⟩ := hexact c.layout hc.blocks
  obtain rfl : writer = w := Option.some.inj (hcreate.symm.trans hw')
  have hneed := packets_needed (show 0 < c.aclMtu - 4 by omega) (show 0 < totalLength pieces + 4 by omega)
  obtain ⟨w, hw'', hwf, _, _, hroom, _⟩ :=
    aclL2capCreateMessage_spec mem c.connHandle remoteChannelId hmtu hmtu' hfit
  obtain rfl : writer = w := Option.some.inj (hcreate.symm.trans hw'')
  obtain ⟨_, hwf', _⟩ := writeAll_spec pieces hwf (show (pieces.map List.length).sum ≤ writer.room by
    rw [← totalLength]
    omega)
  have hpdu : (bteBufferWriterEnd (writeAll writer pieces).2).flatMap (Packet.payload 4) =
    l2capPdu remoteChannelId pieces := hbytes
  rw [← hpdu]
  refine marked_message hne (fun p hp => (writerEnd_readable hwf' p hp).1) ?_ fun i p hp => ?_
  · rw [hpdu, l2capPdu]
    simp [leBytes]
  · obtain ⟨h1, h2, h3, _, h5⟩ := hpackets i p hp
    exact ⟨h1, h2, h3, fun h => by rw [h5 h]; omega⟩

/-! ## The receiver -/

/-- The accepted ones of the messages. -/
def kept (verdicts : List Bool) (messages : List (List UInt8)) : List (List UInt8) :=
  ((verdicts.zip messages).filter Prod.fst).map Prod.snd

theorem kept_snoc {vs : List Bool} {ms : List (List UInt8)} (h : vs.length = ms.length) (v : Bool) (m : List UInt8) :
    kept (vs ++ [v]) (ms ++ [m]) = kept vs ms ++ if v then [m] else [] := by
  rw [kept, List.zip_append h, List.filter_append, List.map_append, ← kept]
  cases v <;> rfl

/-- A judgement on a message that is not among them yet does not count. -/
theorem kept_beyond {vs : List Bool} {ms : List (List UInt8)} (h : vs.length = ms.length) (v : Bool) :
    kept (vs ++ [v]) ms = kept vs ms := by
  have hzip : (vs ++ [v]).zip ms = vs.zip ms := by
    have hz := @List.zip_append _ _ vs [v] ms [] h
    rwa [List.append_nil, List.zip_nil_right, List.append_nil] at hz
  rw [kept, hzip, kept]

/-- The receiver's callback has been given `messages` since the state `w`. -/
def GivenInOrder (w cur : Receiver) (i : Fin 7) (messages : List (List UInt8)) : Prop :=
  ∃ new, cur.messages i = w.messages i ++ new ∧ List.Forall₂ Yields new messages

/-- A message as `bte_l2cap_create_message` makes it, short enough that its length is not the marker's. -/
def IsL2capPdu (m : List UInt8) : Prop :=
  ∃ n cid body, m = leBytes 2 n ++ leBytes 2 cid ++ body ∧ body.length = n ∧ n + 4 < aclInvalidPacket ∧ cid < 65536

/-- The receiver's part of a message of `total` bytes of which `cur` have arrived, accepted or not. -/
def HoldsPart (w : Receiver) (i : Fin 7) (accepted : Bool) (cur : List UInt8) (total : Nat) : Prop :=
  if accepted then Partial w i cur total else ∃ c, w.core i = some (c, [], 0, aclInvalidPacket)

/-- **Where the receiver is in the stream**: between two messages, or within one. -/
inductive Reading (w : Receiver) (i : Fin 7) (ms : List (List UInt8)) (cur : Receiver) (arrived : List (Bool × UInt8))
    (verdicts : List Bool) : Prop
  | between (done todo : List (List UInt8)) (messages : ms = done ++ todo) (bytes : arrived = stream done)
      (judged : verdicts.length = done.length) (idle : Idle cur i) (given : GivenInOrder w cur i (kept verdicts done))
  | within (done todo : List (List UInt8)) (part rest : List UInt8) (accepted : Bool) (judgedBefore : List Bool)
      (messages : ms = done ++ (part ++ rest) :: todo) (begun : part ≠ []) (missing : rest ≠ [])
      (bytes : arrived = stream done ++ cut true part) (judged : judgedBefore.length = done.length)
      (judgement : verdicts = judgedBefore ++ [accepted]) (holds : HoldsPart cur i accepted part (part ++ rest).length)
      (given : GivenInOrder w cur i (kept judgedBefore done))

theorem IsL2capPdu.ne_nil {m : List UInt8} (h : IsL2capPdu m) : m ≠ [] := by
  obtain ⟨n, cid, body, rfl, _⟩ := h
  simp [leBytes]

theorem GivenInOrder.untouched {w cur cur' : Receiver} {i : Fin 7} {ms : List (List UInt8)} (h : GivenInOrder w cur i ms)
    (hu : cur'.messages i = cur.messages i) : GivenInOrder w cur' i ms := by
  obtain ⟨new, hnew, hall⟩ := h
  exact ⟨new, hu.trans hnew, hall⟩

theorem GivenInOrder.snoc {w cur cur' : Receiver} {i : Fin 7} {ms : List (List UInt8)} (h : GivenInOrder w cur i ms)
    {reader : BufferReader} (hm : cur'.messages i = cur.messages i ++ [reader]) {m : List UInt8} (hy : Yields reader m) :
    GivenInOrder w cur' i (ms ++ [m]) := by
  obtain ⟨new, hnew, hall⟩ := h
  refine ⟨new ++ [reader], by rw [hm, hnew, List.append_assoc], ?_⟩
  exact List.rel_append hall (.cons hy .nil)

/-- A packet of another connection does not move the receiver. -/
theorem Reading.untouched {w cur cur' : Receiver} {i : Fin 7} {ms : List (List UInt8)} {arrived : List (Bool × UInt8)}
    {verdicts : List Bool} (h : Reading w i ms cur arrived verdicts) (hu : Untouched i cur cur') :
    Reading w i ms cur' arrived verdicts := by
  cases h with
  | between done todo messages bytes judged idle given =>
    exact .between done todo messages bytes judged (hu.idle idle) (given.untouched hu.messages)
  | within done todo part rest accepted judgedBefore messages begun missing bytes judged judgement holds given =>
    refine .within done todo part rest accepted judgedBefore messages begun missing bytes judged judgement ?_
      (given.untouched hu.messages)
    unfold HoldsPart at holds ⊢
    split at holds
    · rw [if_pos (by assumption)]
      exact hu.partial_message holds
    · rw [if_neg (by assumption), hu.core]
      exact holds

/-- More messages behind the others do not move it either. -/
theorem Reading.more {w cur : Receiver} {i : Fin 7} {ms : List (List UInt8)} {arrived : List (Bool × UInt8)}
    {verdicts : List Bool} (h : Reading w i ms cur arrived verdicts) (ms' : List (List UInt8)) :
    Reading w i (ms ++ ms') cur arrived verdicts := by
  cases h with
  | between done todo messages bytes judged idle given =>
    exact .between done (todo ++ ms') (by rw [messages, List.append_assoc]) bytes judged idle given
  | within done todo part rest accepted judgedBefore messages begun missing bytes judged judgement holds given =>
    refine .within done (todo ++ ms') part rest accepted judgedBefore ?_ begun missing bytes judged judgement holds given
    rw [messages, List.append_assoc, List.cons_append]

/-- The check on the first packet of a message. -/
theorem check_pdu (env : AclEnv) (clients : Fin 4 → Option Channel) {p : Packet} (hp : p.Incoming) {m rest : List UInt8}
    (hm : IsL2capPdu m) (hcut : m = p.payload 4 ++ rest) (hhdr : 4 ≤ p.packetLength) {rc : Nat}
    (hrc : aclIncomingDataCheckCb env clients (aclReader p []) = some rc) : rc = m.length ∧ m.length < aclInvalidPacket := by
  obtain ⟨n, cid, body, rfl, hbody, hn, hcid⟩ := hm
  have hlen := length_payload hp
  have htake : (p.payload 4).take 4 = leBytes 2 n ++ leBytes 2 cid := by
    have hheader : (leBytes 2 n ++ leBytes 2 cid ++ body).take 4 = leBytes 2 n ++ leBytes 2 cid := rfl
    rwa [hcut, List.take_append_of_le_length (by omega)] at hheader
  have hn' : n < 65536 := by
    unfold aclInvalidPacket at hn
    omega
  rw [aclIncomingDataCheckCb_eq env clients hp hn' hcid htake] at hrc
  have hl : (leBytes 2 n ++ leBytes 2 cid ++ body).length = n + 4 := by
    simp [leBytes, hbody]
  split at hrc
  · exact ⟨by rw [hl]; exact (Option.some.inj hrc).symm, by rw [hl]; exact hn⟩
  · cases hrc

/-- **The first packet of a message.** -/
theorem arrive_first {env : AclEnv} {w cur : Receiver} {h : Nat} {i : Fin 7} {done todo : List (List UInt8)}
    {verdicts : List Bool} {p : Packet} {rest : List UInt8} (hfind : findAclByConnHandle cur h = some i)
    (hph : p.connHandle = h) (hp : p.Incoming) (hne : p.payload 4 ≠ []) (hhdr : 4 ≤ p.packetLength)
    (hstart : p.packetBoundary ≠ bteAclPbContinuation) (hm : IsL2capPdu (p.payload 4 ++ rest))
    (hj : verdicts.length = done.length) (hidle : Idle cur i) (hg : GivenInOrder w cur i (kept verdicts done)) :
    Reading w i (done ++ (p.payload 4 ++ rest) :: todo) (onDataReceived env cur p) (stream done ++ cut true (p.payload 4))
      (verdicts ++ [cur.accepts env i p]) := by
  obtain ⟨c, total, hcore⟩ := hidle
  obtain ⟨a, ha, hfm, hfs, _⟩ := core_some hcore
  have hstep := onDataReceived_start env (by rw [hph, hfind]) ha hfm hstart
  have hmessages : done ++ (p.payload 4 ++ rest) :: todo = (done ++ [p.payload 4 ++ rest]) ++ todo := by simp
  have hwhole : rest = [] → stream done ++ cut true (p.payload 4) = stream (done ++ [p.payload 4 ++ rest]) := by
    rintro rfl
    simp
  cases hrc : aclIncomingDataCheckCb env a.clients (aclReader p []) with
  | none =>
    have hacc : cur.accepts env i p = false := by simp [Receiver.accepts, ha, hrc]
    rw [hrc] at hstep
    have hcore' : (onDataReceived env cur p).core i = some (a.connHandle, [], 0, aclInvalidPacket) := by
      rw [hstep]
      simp [Receiver.core, Receiver.update, ha, AclIn.core, hfm, hfs]
    have hg' : GivenInOrder w (onDataReceived env cur p) i (kept verdicts done) := hg.untouched (by rw [hstep]; rfl)
    rw [hacc]
    by_cases hr : rest = []
    · refine .between (done ++ [p.payload 4 ++ rest]) todo hmessages (hwhole hr) (by simp [hj]) ⟨_, _, hcore'⟩ ?_
      rw [kept_snoc hj, if_neg Bool.false_ne_true, List.append_nil]
      exact hg'
    · exact .within done todo (p.payload 4) rest false verdicts rfl hne hr rfl hj rfl ⟨_, hcore'⟩ hg'
  | some rc =>
    have hacc : cur.accepts env i p = true := by simp [Receiver.accepts, ha, hrc]
    obtain ⟨rfl, hmax⟩ := check_pdu env a.clients hp hm rfl hhdr hrc
    have h16 : (p.payload 4 ++ rest).length < 65536 := Nat.lt_trans hmax (by decide)
    rw [hrc] at hstep
    simp only [Nat.mod_eq_of_lt h16] at hstep
    -- the start packet finds the announced size in place
    generalize hw' : (cur.update i fun a => { a with reassembledMessageSize := (p.payload 4 ++ rest).length }) = w' at hstep
    have ha' : w'.acls i = some { a with reassembledMessageSize := (p.payload 4 ++ rest).length } := by
      rw [← hw']
      simp [Receiver.update, ha]
    have hmsg' : w'.messages i = cur.messages i := by rw [← hw']; rfl
    have hcarries : Carries a.fragmentedMessage [] := by
      rw [hfm]
      exact ⟨by simp, rfl⟩
    rw [hacc]
    by_cases hr : rest = []
    · obtain ⟨reader, hy, hmsg, hdone⟩ := take_completes env ha' hcarries hfs h16 hp (by simp [hr])
      rw [← hstep] at hmsg hdone
      refine .between (done ++ [p.payload 4 ++ rest]) todo hmessages (hwhole hr) (by simp [hj]) hdone ?_
      rw [kept_snoc hj, if_pos rfl]
      refine hg.snoc (by rw [hmsg, hmsg']) ?_
      rwa [hr, List.append_nil]
    · have hlt : ([] ++ p.payload 4).length < (p.payload 4 ++ rest).length := by
        have := List.length_pos_iff.2 hr
        rw [List.nil_append, List.length_append]
        omega
      obtain ⟨hpart, hmsg⟩ := take_extends env ha' hcarries hfs h16 hp hlt
      rw [← hstep] at hpart hmsg
      exact .within done todo (p.payload 4) rest true verdicts rfl hne hr rfl hj rfl hpart
        (hg.untouched (by rw [hmsg, hmsg']))

/-- **A later packet of a message.** -/
theorem arrive_later {env : AclEnv} {w cur : Receiver} {h : Nat} {i : Fin 7} {done todo : List (List UInt8)}
    {verdicts : List Bool} {accepted : Bool} {p : Packet} {part rest : List UInt8}
    (hfind : findAclByConnHandle cur h = some i) (hph : p.connHandle = h) (hp : p.Incoming)
    (hcont : p.packetBoundary = bteAclPbContinuation) (hpart : part ≠ [])
    (hm : IsL2capPdu (part ++ (p.payload 4 ++ rest))) (hj : verdicts.length = done.length)
    (hh : HoldsPart cur i accepted part (part ++ (p.payload 4 ++ rest)).length)
        (hg : GivenInOrder w cur i (kept verdicts done)) :
    Reading w i (done ++ (part ++ (p.payload 4 ++ rest)) :: todo) (onDataReceived env cur p)
      (stream done ++ cut true (part ++ p.payload 4)) (verdicts ++ [accepted]) := by
  have hmax : (part ++ (p.payload 4 ++ rest)).length < aclInvalidPacket := by
    obtain ⟨n, cid, body, hcut, hbody, hn, _⟩ := hm
    rw [hcut]
    simp only [List.length_append, length_leBytes]
    omega
  have hassoc : part ++ (p.payload 4 ++ rest) = part ++ p.payload 4 ++ rest := (List.append_assoc ..).symm
  rw [hassoc] at hmax hh ⊢
  have hmessages : done ++ (part ++ p.payload 4 ++ rest) :: todo = (done ++ [part ++ p.payload 4 ++ rest]) ++ todo := by simp
  have hwhole : rest = [] → stream done ++ cut true (part ++ p.payload 4) =
      stream (done ++ [part ++ p.payload 4 ++ rest]) := by
    rintro rfl
    simp
  have hbegun : part ++ p.payload 4 ≠ [] := by simp [hpart]
  cases accepted with
  | false =>
    obtain ⟨c, hcore⟩ := hh
    obtain ⟨a, ha, _, _, hrs⟩ := core_some hcore
    have hstep : onDataReceived env cur p = cur := by
      rw [onDataReceived_continuation env (by rw [hph, hfind]) ha hcont, if_pos hrs]
    rw [hstep]
    by_cases hr : rest = []
    · refine .between (done ++ [part ++ p.payload 4 ++ rest]) todo hmessages (hwhole hr) (by simp [hj]) ⟨_, _, hcore⟩ ?_
      rw [kept_snoc hj, if_neg Bool.false_ne_true, List.append_nil]
      exact hg
    · exact .within done todo _ rest false verdicts rfl hbegun hr rfl hj rfl ⟨_, hcore⟩ hg
  | true =>
    obtain ⟨c, qs, hcore, hqs⟩ := hh
    obtain ⟨a, ha, hfm, hfs, hrs⟩ := core_some hcore
    rw [← hfm] at hqs
    have hstep : onDataReceived env cur p = cur.take env i a p := by
      rw [onDataReceived_continuation env (by rw [hph, hfind]) ha hcont, if_neg (by omega)]
    have h16 : a.reassembledMessageSize < 65536 := by
      rw [hrs]
      exact Nat.lt_trans hmax (by decide)
    by_cases hr : rest = []
    · obtain ⟨reader, hy, hmsg, hdone⟩ := take_completes env ha hqs hfs h16 hp (by rw [hrs, hr, List.append_nil])
      rw [← hstep] at hmsg hdone
      refine .between (done ++ [part ++ p.payload 4 ++ rest]) todo hmessages (hwhole hr) (by simp [hj]) hdone ?_
      rw [kept_snoc hj, if_pos rfl]
      refine hg.snoc hmsg ?_
      rwa [hr, List.append_nil]
    · have hlt : (part ++ p.payload 4).length < a.reassembledMessageSize := by
        have := List.length_pos_iff.2 hr
        simp only [hrs, List.length_append]
        omega
      obtain ⟨hpart', hmsg⟩ := take_extends env ha hqs hfs h16 hp hlt
      rw [← hstep, hrs] at hpart'
      rw [← hstep] at hmsg
      exact .within done todo _ rest true verdicts rfl hbegun hr rfl hj rfl hpart' (hg.untouched hmsg)

/-! ## A whole run -/

/-- What the backend has taken of the connection, as marked bytes. -/
def AclPath.taken (c : AclPair) (s : AclPath) : List (Bool × UInt8) :=
  (acceptedOn c.connHandle s.sender.out.trace).flatMap contentMarked

/-- **The invariant of the path.** -/
structure PathInv (c : AclPair) (w : Receiver) (s : AclPath) : Prop where
  queue : QueueInv s.sender.out
  allTaken : AllTaken s.sender.out.trace
  /-- What was submitted is the stream of the messages. -/
  stream : (submittedOn c.connHandle s.sender.out.trace).flatMap contentMarked = Marked.stream s.submitted
  pdus : ∀ m ∈ s.submitted, IsL2capPdu m
  /-- What arrived was taken before. -/
  behind : s.arrived <+: s.taken c
  slot : findAclByConnHandle s.receiver c.peerHandle = some c.slot
  reading : Reading w c.slot s.submitted s.receiver s.arrived s.verdicts

/-- What was taken and what is queued is the stream. -/
theorem PathInv.split {c : AclPair} {w : Receiver} {s : AclPath} (hs : PathInv c w s) :
    s.taken c ++ (onConnection c.connHandle s.sender.out.outgoingAclPackets).flatMap contentMarked =
      Marked.stream s.submitted := by
  rw [AclPath.taken, hs.allTaken.acceptedOn, ← List.flatMap_append, hs.queue.fifo, hs.stream]

/-- The sender takes a step that submits `buffer` on the connection, and `ms` are its messages. -/
theorem PathInv.sender {c : AclPair} (hc : c.Ok) {w : Receiver} {s : AclPath} (hs : PathInv c w s) (op : AclOp)
    (ms : List (List UInt8)) (hrep : op.Reports s.sender) (hkeep : op.Keeps c.connHandle s.sender)
    (hms : (onConnection c.connHandle op.buffer).flatMap contentMarked = Marked.stream ms) (hpdu : ∀ m ∈ ms, IsL2capPdu m) :
    PathInv c w { s with sender := s.sender.step c.rc op, submitted := s.submitted ++ ms } := by
  obtain ⟨evs, htrace, hne, htaken, hsub⟩ := (logs_step hc.backend hkeep).appended
  have hall := hs.allTaken.append htaken
  have hgrow : s.taken c <+: ({ s with sender := s.sender.step c.rc op } : AclPath).taken c := by
    refine ⟨(onConnection c.connHandle (evs.filterMap AclEvent.handedPacket)).flatMap contentMarked, ?_⟩
    rw [AclPath.taken, AclPath.taken, htrace, hs.allTaken.acceptedOn, hall.acceptedOn, handedOn_append hne,
      List.flatMap_append]
  refine ⟨queueInv_step c.rc s.sender op hs.queue hrep, ?_, ?_, ?_, hs.behind.trans hgrow, hs.slot, hs.reading.more ms⟩
  · rw [htrace]
    exact hall
  · rw [htrace, submittedOn_append hne, hsub, List.flatMap_append, hs.stream, hms, stream_append]
  · intro m hm
    exact (List.mem_append.1 hm).elim (hs.pdus m) (hpdu m)

/-- A message that fits its allocation is a PDU. -/
theorem isPdu_l2capPdu {aclMtu remoteChannelId : Nat} {pieces : List (List UInt8)} (hm : 8 ≤ aclMtu)
    (hcid : remoteChannelId < 65536)
    (hfit : (totalLength pieces + 4 + (aclMtu - 4) - 1) / (aclMtu - 4) * aclMtu ≤ 65535) :
    IsL2capPdu (l2capPdu remoteChannelId pieces) := by
  refine ⟨totalLength pieces, remoteChannelId, pieces.flatten, rfl, List.length_flatten, ?_, hcid⟩
  have hneed := packets_needed (show 0 < aclMtu - 4 by omega) (show 0 < totalLength pieces + 4 by omega)
  -- each packet spends four of its bytes on the ACL header
  generalize (totalLength pieces + 4 + (aclMtu - 4) - 1) / (aclMtu - 4) = n at hneed hfit
  have hsplit : n * (aclMtu - 4) + n * 4 = n * aclMtu := by
    rw [← Nat.mul_add]
    congr 1
    omega
  unfold aclInvalidPacket
  omega

/-- A packet of the connection arrives. -/
theorem PathInv.arrive {c : AclPair} {w : Receiver} {s : AclPath} (hs : PathInv c w s) {p : Packet}
    (hfair : (PathOp.arrive p).Fair c s) : PathInv c w (s.step c (.arrive p)) := by
  by_cases hph : p.connHandle = c.peerHandle
  · obtain ⟨hin, hne, hhdr, hpre⟩ := hfair hph
    have hslot : findAclByConnHandle (onDataReceived c.env s.receiver p) c.peerHandle = some c.slot := by
      rw [find_of_handles (handles_onDataReceived c.env s.receiver p), hs.slot]
    have hstream : s.arrived ++ p.marked <+: Marked.stream s.submitted := by
      rw [← hs.split]
      exact hpre.trans (List.prefix_append ..)
    have hreading : Reading w c.slot s.submitted (s.step c (.arrive p)).receiver (s.step c (.arrive p)).arrived
        (s.step c (.arrive p)).verdicts := by
      simp only [AclPath.step, hph, true_and]
      rw [Packet.marked] at hstream ⊢
      cases hs.reading with
      | between done todo messages bytes judged idle given =>
        have htodo : ∀ m ∈ todo, IsL2capPdu m := fun m hm => hs.pdus m (by rw [messages]; exact List.mem_append_right _ hm)
        rw [messages, bytes] at hstream
        obtain ⟨hfirst, rest, todo', rfl⟩ := next_between (fun m hm => (htodo m hm).ne_nil) hne hstream
        have hstart := of_decide_eq_true hfirst
        rw [hfirst, if_pos hstart, messages, bytes]
        exact arrive_first hs.slot hph hin hne (hhdr hstart) hstart (htodo _ List.mem_cons_self) judged idle given
      | within done todo part rest accepted judgedBefore messages begun missing bytes judged judgement holds given =>
        have htodo : ∀ m ∈ (part ++ rest) :: todo, IsL2capPdu m :=
          fun m hm => hs.pdus m (by rw [messages]; exact List.mem_append_right _ hm)
        rw [messages, bytes] at hstream
        obtain ⟨hlater, rest', rfl⟩ := next_within (fun m hm => (htodo m (List.mem_cons_of_mem _ hm)).ne_nil) begun missing
          hne hstream
        have hcont : p.packetBoundary = bteAclPbContinuation := by simpa using hlater
        rw [hlater, if_neg (not_not.2 hcont), messages, bytes, judgement, List.append_assoc, ← cut_append begun]
        exact arrive_later hs.slot hph hin hcont begun (htodo _ List.mem_cons_self) judged holds given
    refine ⟨hs.queue, hs.allTaken, hs.stream, hs.pdus, ?_, hslot, hreading⟩
    show (if p.connHandle = c.peerHandle then s.arrived ++ p.marked else s.arrived) <+: s.taken c
    rw [if_pos hph]
    exact hpre
  · have hu := untouched_of_ne c.env hs.slot hph
    have hverdicts : (s.step c (.arrive p)).verdicts = s.verdicts := if_neg fun h => hph h.1
    have harrived : (s.step c (.arrive p)).arrived = s.arrived := if_neg hph
    refine ⟨hs.queue, hs.allTaken, hs.stream, hs.pdus, ?_, ?_, ?_⟩
    · rw [harrived]
      exact hs.behind
    · show findAclByConnHandle (onDataReceived c.env s.receiver p) c.peerHandle = some c.slot
      rw [find_of_handles hu.handles, hs.slot]
    · rw [hverdicts, harrived]
      exact hs.reading.untouched hu

theorem pathInv_step {c : AclPair} (hc : c.Ok) (w : Receiver) (s : AclPath) (op : PathOp) (hs : PathInv c w s)
    (hfair : op.Fair c s) : PathInv c w (s.step c op) := by
  cases op with
  | send mem remoteChannelId remoteMtu pieces =>
    simp only [AclPath.step]
    split
    · exact hs
    · rename_i writer hw
      obtain ⟨hcid, hfit⟩ := hfair
      have hmarked := createMessage_marked hc hw hfit
      refine hs.sender hc (.sendMessage _) [_] trivial trivial ?_ ?_
      · rw [stream_cons, stream_nil, List.append_nil]
        exact hmarked
      · intro m hm
        rw [List.mem_singleton.1 hm]
        exact isPdu_l2capPdu hc.mtu.1 hcid hfit
  | link op =>
    obtain ⟨hrep, hkeep, hforeign⟩ := hfair
    have h := hs.sender hc op [] hrep hkeep (by rw [hforeign]; rfl) (by simp)
    rwa [List.append_nil] at h
  | arrive p => exact hs.arrive hfair

theorem pathInv_start {c : AclPair} {w : Receiver} {aclMaxPackets : Nat} (hmax : aclMaxPackets < 65536)
    (hfind : findAclByConnHandle w c.peerHandle = some c.slot) (hidle : Idle w c.slot) :
    PathInv c w (.start aclMaxPackets w) := by
  refine ⟨queueInv_start hmax, ?_, rfl, ?_, List.nil_prefix, hfind, ?_⟩
  · intro e he
    cases he
  · intro m hm
    cases hm
  · exact .between [] [] rfl rfl rfl hidle ⟨[], (List.append_nil _).symm, .nil⟩

/-- **A connection carries its messages intact**: in any interleaving of both devices' other traffic and however the
controllers cut the bytes, the receiver's callback has been given, in order and once, the messages whose last byte has
arrived, but for those refused at their first packet; and once nothing is queued or under way these are all the messages
sent. -/
theorem path_exact (c : AclPair) (hc : c.Ok) (aclMaxPackets : Nat) (hmax : aclMaxPackets < 65536) (w : Receiver)
    (hfind : findAclByConnHandle w c.peerHandle = some c.slot) (hidle : Idle w c.slot) (ops : List PathOp)
    (hops : Sys.Admissible (AclPath.step c) (PathOp.Fair c) (.start aclMaxPackets w) ops) (s : AclPath)
    (hs : Sys.run (AclPath.step c) (.start aclMaxPackets w) ops = s) :
    ∃ done todo part, s.submitted = done ++ todo ∧ GivenInOrder w s.receiver c.slot (kept s.verdicts done) ∧
      s.arrived = stream done ++ cut true part ∧ part <+: todo.headD [] ∧ (todo ≠ [] → part ≠ todo.headD []) ∧
      (s.arrived = s.taken c → onConnection c.connHandle s.sender.out.outgoingAclPackets = [] → todo = []) := by
  have hinv : PathInv c w s := by
    rw [← hs]
    exact Sys.inv_run (pathInv_step hc w) ops _ (pathInv_start hmax hfind hidle) hops
  have hall : s.arrived = s.taken c → onConnection c.connHandle s.sender.out.outgoingAclPackets = [] →
      s.arrived = stream s.submitted := by
    intro htaken hqueue
    rw [htaken, ← hinv.split, hqueue, List.flatMap_nil, List.append_nil]
  cases hinv.reading with
  | between done todo messages bytes judged idle given =>
    have hne : ∀ m ∈ todo, m ≠ [] := fun m hm => (hinv.pdus m (by rw [messages]; exact List.mem_append_right _ hm)).ne_nil
    refine ⟨done, todo, [], messages, given, by rw [bytes, cut_nil, List.append_nil], List.nil_prefix, ?_, ?_⟩
    · intro htodo
      obtain ⟨m, todo, rfl⟩ := List.exists_cons_of_ne_nil htodo
      exact (hne m List.mem_cons_self).symm
    · intro htaken hqueue
      have hdone := hall htaken hqueue
      rw [messages, bytes, stream_append, List.self_eq_append_right] at hdone
      exact (stream_eq_nil hne).1 hdone
  | within done todo part rest accepted judgedBefore messages begun missing bytes judged judgement holds given =>
    refine ⟨done, (part ++ rest) :: todo, part, messages, ?_, bytes, List.prefix_append .., fun _ => ?_, ?_⟩
    · rwa [judgement, kept_beyond judged]
    · rw [List.headD_cons]
      simpa using missing
    · intro htaken hqueue
      have hdone := hall htaken hqueue
      have hlong := congrArg List.length hdone
      have hmissing := List.length_pos_iff.2 missing
      rw [bytes, messages, stream_append, stream_cons] at hlong
      simp only [List.length_append, length_cut] at hlong
      omega

/-- An MTU of 8, connection 0x42 on both sides. -/
def narrowPair : AclPair := ⟨fun _ => 0, ⟨32, true⟩, 8, 0x42, quietEnv, slot0, 0x42⟩

/-- Two messages, the second for a channel that the receiver does not have.  The first is sent in three packets and arrives
in two, with a packet of another connection between them; of the second, the last byte is still to come. -/
def narrowRun : List PathOp :=
  [.link (.connected slot0 0x42), .send (fun _ _ => 0xAA) 0x40 672 [[1, 2], [3, 4, 5]],
    .link (.sendMessage [smallPacket 0x43 7]), .send (fun _ _ => 0xAA) 0x41 672 [[9]],
    .arrive (aclPacket 0x42 2 [5, 0, 0x40, 0, 1]), .link (.completedPackets [0x13, 5, 1, 0x42, 0, 3, 0]),
    .arrive (aclPacket 0x43 2 [1, 0, 0x40, 0, 9]), .arrive (aclPacket 0x42 1 [2, 3, 4, 5]),
    .arrive (aclPacket 0x42 2 [1, 0, 0x41, 0])]

/-- The first message is delivered; the second was refused before its end arrives. -/
theorem path_exact_narrowRun :
    ∃ s, Sys.run (AclPath.step narrowPair) (.start 3 twoConnections) narrowRun = s ∧ s.verdicts = [true, false] ∧
      (s.receiver.messages 0).map BufferReader.rest = [[5, 0, 0x40, 0, 1, 2, 3, 4, 5]] ∧
      ∃ done todo part, s.submitted = done ++ todo ∧ GivenInOrder twoConnections s.receiver 0 (kept s.verdicts done) ∧
        s.arrived = stream done ++ cut true part ∧ part <+: todo.headD [] ∧ (todo ≠ [] → part ≠ todo.headD []) := by
  have hok : narrowPair.Ok := ⟨by decide, by decide, by decide, fun _ => le_refl 0⟩
  obtain ⟨done, todo, part, hsub, hgiven, harrived, hpart, hmore, _⟩ := path_exact narrowPair hok 3 (by decide)
    twoConnections (by decide) ⟨0x42, 0, rfl⟩ narrowRun (by decide) _ rfl
  exact ⟨_, rfl, by decide, by decide, done, todo, part, hsub, hgiven, harrived, hpart, hmore⟩

end Bte
