import BtEmbedded.AclReceive
import BtEmbedded.SdpAttr
/-!
# TruncatedInput — headers that are read through a pointer (acl.c, l2cap.c, sdp.c)

The callbacks of L2CAP and SDP ask `bte_buffer_reader_read_n` for a header and use the pointer without looking at it; it
is null when the header does not lie in one packet.  The parameters of an SDP reply are copied when they are split, and
nobody compares what was copied with the length in the header.  `Ahead` says where a packet ends and the next begins;
with it the conditions below are about the packets alone.
-/
namespace Bte

open Bytes

/-! ## One piece -/

/-- The lengths of the pieces that a message is cut into, from a reader on. -/
def BufferReader.pieces (r : BufferReader) : List Nat :=
  if r.posInPacket ≥ r.packet.size then r.next.map fun q => q.size - r.headerSize
  else (r.packet.size - r.posInPacket) :: r.next.map fun q => q.size - r.headerSize

/-- The next `n` bytes lie in one piece. -/
def BufferReader.Ahead (r : BufferReader) (n : Nat) : Prop := ∃ c ∈ r.pieces.head?, n ≤ c

/-- The next `m` bytes lie in one piece, and so do the `n` bytes after them. -/
def BufferReader.AheadTwice (r : BufferReader) (m n : Nat) : Prop :=
  ∃ c ∈ r.pieces.head?, m ≤ c ∧ (if c = m then ∃ d ∈ r.pieces.tail.head?, n ≤ d else m + n ≤ c)

instance (r : BufferReader) (n : Nat) : Decidable (r.Ahead n) :=
  inferInstanceAs (Decidable (∃ c ∈ r.pieces.head?, n ≤ c))

theorem pieces_turn {r r' : BufferReader} (h : r.turn = some r') :
    r.pieces = (r'.packet.size - r'.posInPacket) :: r'.next.map fun q => q.size - r'.headerSize := by
  unfold BufferReader.turn at h
  unfold BufferReader.pieces
  split at h
  · rename_i hend
    rw [if_pos hend]
    cases hn : r.next with
    | nil => rw [hn] at h; cases h
    | cons q next =>
      rw [hn] at h
      cases h
      rfl
  · rename_i hin
    cases h
    rw [if_neg hin]

theorem pieces_end {r : BufferReader} (h : r.turn = none) : r.pieces = [] := by
  unfold BufferReader.turn at h
  unfold BufferReader.pieces
  split at h
  · rename_i hend
    rw [if_pos hend]
    cases hn : r.next with
    | nil => rfl
    | cons q next => rw [hn] at h; cases h
  · cases h

/-- **The pointer is null** exactly if the bytes do not lie in one piece. -/
theorem readN_ne_none_iff (r : BufferReader) (n : Nat) : (bteBufferReaderReadN r n).1 ≠ none ↔ r.Ahead n := by
  unfold bteBufferReaderReadN BufferReader.Ahead
  cases ht : r.turn with
  | none => simp [pieces_end ht]
  | some r' =>
    rw [pieces_turn ht]
    simp only [List.head?_cons, Option.mem_def, Option.some.injEq, exists_eq_left']
    split
    · rename_i hmore
      exact iff_of_false (fun h => h rfl) (Nat.not_le.2 hmore)
    · rename_i hfits
      exact iff_of_true (Option.some_ne_none _) (Nat.not_lt.1 hfits)

/-- Behind the bytes of a piece, its rest comes, or the next piece. -/
theorem ahead_readN_iff {r : BufferReader} {m n : Nat} (hm : 0 < m) :
    (r.Ahead m ∧ (bteBufferReaderReadN r m).2.Ahead n) ↔ r.AheadTwice m n := by
  unfold bteBufferReaderReadN BufferReader.AheadTwice
  cases ht : r.turn with
  | none => simp [BufferReader.Ahead, pieces_end ht]
  | some r' =>
    have hpieces := pieces_turn ht
    simp only [BufferReader.Ahead, hpieces, List.head?_cons, List.tail_cons, Option.mem_def, Option.some.injEq,
      exists_eq_left']
    refine and_congr_right fun hle => ?_
    rw [if_neg (Nat.not_lt.2 hle)]
    unfold BufferReader.pieces
    by_cases hall : r'.packet.size - r'.posInPacket = m
    · rw [if_pos (show r'.posInPacket + m ≥ r'.packet.size by omega), if_pos hall]
    · rw [if_neg (show ¬ r'.posInPacket + m ≥ r'.packet.size by omega), if_neg hall]
      simp only [List.head?_cons, Option.some.injEq, exists_eq_left']
      omega

/-! ## The L2CAP header -/

/-- The pointer to the L2CAP header is not null. -/
def HeaderRead (r : BufferReader) : Prop := (bteBufferReaderReadN r l2capHdrLen).1 ≠ none

/-- No null pointer is used while a packet is handled: not by the check, and not by a `data_received_cb`. -/
structure PacketReads (env : AclEnv) (w : Receiver) (p : Packet) : Prop where
  check : findAclByConnHandle w p.connHandle ≠ none → p.packetBoundary ≠ bteAclPbContinuation → HeaderRead (aclReader p [])
  received : ∀ d ∈ (onDataReceived env w p).delivered.drop w.delivered.length, HeaderRead d.2

/-- The message has its L2CAP header in one piece. -/
def HeaderWhole : List Packet → Prop
  | [] => True
  | head :: next => (aclReader head next).Ahead l2capHdrLen

/-- A start packet has the L2CAP header, and so has the unfinished message that it puts an end to; a continuation that
completes a message completes one whose header is in one piece. -/
def PacketWhole (a : AclIn) (p : Packet) : Prop :=
  if p.packetBoundary ≠ bteAclPbContinuation then bteAclHdrLen + l2capHdrLen ≤ p.size ∧ HeaderWhole a.fragmentedMessage
  else a.reassembledMessageSize ≠ aclInvalidPacket →
    sub16 a.reassembledMessageSize a.fragmentedMessageSize ≤ p.packetLength →
    HeaderWhole (bteBufferAppend a.fragmentedMessage [p])

instance : ∀ ps : List Packet, Decidable (HeaderWhole ps)
  | [] => .isTrue trivial
  | head :: next => inferInstanceAs (Decidable ((aclReader head next).Ahead l2capHdrLen))

instance (a : AclIn) (p : Packet) : Decidable (PacketWhole a p) :=
  inferInstanceAs (Decidable
    (if p.packetBoundary ≠ bteAclPbContinuation then bteAclHdrLen + l2capHdrLen ≤ p.size ∧ HeaderWhole a.fragmentedMessage
    else a.reassembledMessageSize ≠ aclInvalidPacket →
      sub16 a.reassembledMessageSize a.fragmentedMessageSize ≤ p.packetLength →
      HeaderWhole (bteBufferAppend a.fragmentedMessage [p])))

theorem headerWhole_single (p : Packet) : HeaderWhole [p] ↔ bteAclHdrLen + l2capHdrLen ≤ p.size := by
  unfold HeaderWhole BufferReader.Ahead BufferReader.pieces
  show (∃ c ∈ (if 4 ≥ p.size then [] else [p.size - 4] : List Nat).head?, 4 ≤ c) ↔ 8 ≤ p.size
  split <;> simp <;> omega

/-- What a delivery adds to the log. -/
def deliveryOf (i : Fin 7) : List Packet → List (Fin 7 × BufferReader)
  | [] => []
  | head :: next => [(i, aclReader head next)]

theorem delivered_deliver (env : AclEnv) (w : Receiver) (i : Fin 7) (ps : List Packet) :
    (w.deliver env i ps).delivered = w.delivered ++ deliveryOf i ps := by
  cases ps with
  | nil => exact (List.append_nil _).symm
  | cons p ps => rfl

theorem delivery_reads (i : Fin 7) (ps : List Packet) : (∀ d ∈ deliveryOf i ps, HeaderRead d.2) ↔ HeaderWhole ps := by
  cases ps with
  | nil => simp [deliveryOf, HeaderWhole]
  | cons p ps => simp [deliveryOf, HeaderWhole, HeaderRead, readN_ne_none_iff]

theorem take_complete (env : AclEnv) (w : Receiver) (i : Fin 7) {a : AclIn} {p : Packet}
    (h : sub16 a.reassembledMessageSize a.fragmentedMessageSize ≤ p.packetLength) :
    w.take env i a p = (w.update i AclIn.noPartial).deliver env i (bteBufferAppend a.fragmentedMessage [p]) := if_pos h

theorem take_unfinished (env : AclEnv) (w : Receiver) (i : Fin 7) {a : AclIn} {p : Packet}
    (h : ¬ sub16 a.reassembledMessageSize a.fragmentedMessageSize ≤ p.packetLength) :
    (w.take env i a p).delivered = w.delivered := by
  rw [Receiver.take, if_neg h]
  rfl

theorem delivered_take (env : AclEnv) (w : Receiver) (i : Fin 7) (a : AclIn) (p : Packet) :
    (w.take env i a p).delivered = w.delivered ++
      if sub16 a.reassembledMessageSize a.fragmentedMessageSize ≤ p.packetLength then
        deliveryOf i (bteBufferAppend a.fragmentedMessage [p]) else [] := by
  by_cases hlast : sub16 a.reassembledMessageSize a.fragmentedMessageSize ≤ p.packetLength
  · rw [if_pos hlast, take_complete env w i hlast, delivered_deliver]
    rfl
  · rw [if_neg hlast, List.append_nil, take_unfinished env w i hlast]

theorem delivered_flush (env : AclEnv) (w : Receiver) (i : Fin 7) (a : AclIn) {p : Packet}
    (hstart : p.packetBoundary ≠ bteAclPbContinuation) :
    (w.flush env i a p).delivered = w.delivered ++ deliveryOf i a.fragmentedMessage := by
  unfold Receiver.flush
  by_cases hnil : a.fragmentedMessage = []
  · rw [if_neg fun h => h.1 hnil, hnil]
    exact (List.append_nil _).symm
  · rw [if_pos ⟨hnil, hstart⟩]
    exact delivered_deliver env w i _

theorem acl_of_find {w : Receiver} {connHandle : Nat} {i : Fin 7} (h : findAclByConnHandle w connHandle = some i) :
    ∃ a, w.acls i = some a := by
  have hany := List.find?_some h
  cases ha : w.acls i with
  | none => simp [ha] at hany
  | some a => exact ⟨a, rfl⟩

/-- The packet is whole for the connection it belongs to. -/
def PacketWholeAt (w : Receiver) (p : Packet) : Prop :=
  ∀ i ∈ findAclByConnHandle w p.connHandle, ∀ a ∈ w.acls i, PacketWhole a p

instance (w : Receiver) (p : Packet) : Decidable (PacketWholeAt w p) :=
  inferInstanceAs (Decidable (∀ i ∈ findAclByConnHandle w p.connHandle, ∀ a ∈ w.acls i, PacketWhole a p))

section OnePacket

variable (env : AclEnv) {w : Receiver} {p : Packet} {i : Fin 7} {a : AclIn}
  (hfind : findAclByConnHandle w p.connHandle = some i) (ha : w.acls i = some a)

include hfind ha

theorem continuation_reads (hcont : p.packetBoundary = bteAclPbContinuation) : PacketReads env w p ↔ PacketWhole a p := by
  have hstep := onDataReceived_continuation env hfind ha hcont
  rw [PacketWhole, if_neg (not_not_intro hcont)]
  by_cases hmark : a.reassembledMessageSize = aclInvalidPacket
  · refine iff_of_true ⟨fun _ h => absurd hcont h, fun d hd => ?_⟩ fun h => absurd hmark h
    rw [hstep, if_pos hmark, List.drop_length] at hd
    cases hd
  · rw [if_neg hmark] at hstep
    constructor
    · intro h _ hlast
      have hreceived := h.received
      rw [hstep, delivered_take, List.drop_left, if_pos hlast] at hreceived
      exact (delivery_reads i _).1 hreceived
    · refine fun h => ⟨fun _ hno => absurd hcont hno, ?_⟩
      rw [hstep, delivered_take, List.drop_left]
      split
      · rename_i hlast
        exact (delivery_reads i _).2 (h hmark hlast)
      · exact fun d hd => absurd hd List.not_mem_nil

/-- A start packet delivers what was unfinished, and itself if it is whole and was not refused. -/
theorem start_delivers (hstart : p.packetBoundary ≠ bteAclPbContinuation) :
    ∃ last, (last = [] ∨ last = deliveryOf i [p]) ∧
      (onDataReceived env w p).delivered = w.delivered ++ (deliveryOf i a.fragmentedMessage ++ last) := by
  obtain ⟨b, hb, hnil, -⟩ := flush_start env ha hstart
  simp only [onDataReceived, hfind, ha, hb, Receiver.receive, if_pos hstart]
  split
  · refine ⟨[], Or.inl rfl, ?_⟩
    rw [List.append_nil, ← delivered_flush env w i a hstart]
    rfl
  · rename_i rc _
    refine ⟨if sub16 (rc % 65536) b.fragmentedMessageSize ≤ p.packetLength then deliveryOf i [p] else [], ?_, ?_⟩
    · split
      · exact Or.inr rfl
      · exact Or.inl rfl
    · rw [delivered_take, ← List.append_assoc, ← delivered_flush env w i a hstart, hnil]
      rfl

theorem start_reads (hstart : p.packetBoundary ≠ bteAclPbContinuation) : PacketReads env w p ↔ PacketWhole a p := by
  obtain ⟨last, hlast, hlog⟩ := start_delivers env hfind ha hstart
  have hcheck : HeaderRead (aclReader p []) ↔ ∀ d ∈ deliveryOf i [p], HeaderRead d.2 := by simp [deliveryOf]
  rw [PacketWhole, if_pos hstart, ← headerWhole_single, ← delivery_reads i [p], ← delivery_reads i a.fragmentedMessage]
  constructor
  · intro h
    have hreceived := h.received
    rw [hlog, List.drop_left] at hreceived
    exact ⟨hcheck.1 (h.check (by rw [hfind]; exact Option.some_ne_none _) hstart),
      fun d hd => hreceived d (List.mem_append_left _ hd)⟩
  · rintro ⟨hp, hflushed⟩
    refine ⟨fun _ _ => hcheck.2 hp, ?_⟩
    rw [hlog, List.drop_left]
    intro d hd
    rcases List.mem_append.1 hd with hd | hd
    · exact hflushed d hd
    · rcases hlast with rfl | rfl
      · cases hd
      · exact hp d hd

end OnePacket

/-- **What one packet reads.** -/
theorem packetReads_iff (env : AclEnv) (w : Receiver) (p : Packet) : PacketReads env w p ↔ PacketWholeAt w p := by
  unfold PacketWholeAt
  cases hfind : findAclByConnHandle w p.connHandle with
  | none =>
    refine iff_of_true ⟨fun h => absurd hfind h, fun d hd => ?_⟩ fun i h => absurd h (Option.not_mem_none i)
    rw [onDataReceived, hfind, List.drop_length] at hd
    cases hd
  | some i =>
    obtain ⟨a, ha⟩ := acl_of_find hfind
    simp only [Option.mem_def, Option.some.injEq, forall_eq', ha]
    by_cases hcont : p.packetBoundary = bteAclPbContinuation
    · exact continuation_reads env hfind ha hcont
    · exact start_reads env hfind ha hcont

/-! ## An SDP message -/

/-- `paramLen` bytes of parameters, all of them received. -/
def Received (received params : List UInt8) (paramLen : Nat) : Prop :=
  paramLen ≤ received.length ∧ params.take paramLen = received.take paramLen

/-- No null pointer is used for the header or the error code of a message while a request is outstanding, and what the
parsers get is what was received. -/
structure MessageReads (env : SdpEnv) (lastReq : List Packet) (reader : BufferReader) : Prop where
  header : (bteBufferReaderReadN reader pduHeaderSize).1 ≠ none
  error : ∀ hdr ∈ (bteBufferReaderReadN reader pduHeaderSize).1, matchesRequest lastReq hdr → hdr.getD 0 0 = pduIdErrorRsp →
    (bteBufferReaderReadN (bteBufferReaderReadN reader pduHeaderSize).2 2).1 ≠ none
  params : ∀ hdr ∈ (bteBufferReaderReadN reader pduHeaderSize).1, matchesRequest lastReq hdr → hdr.getD 0 0 ≠ pduIdErrorRsp →
    ∀ params ∈ readParams env (bteBufferReaderReadN reader pduHeaderSize).2 (beVal (slice hdr 3 2)),
      Received (reader.rest.drop pduHeaderSize) params (beVal (slice hdr 3 2))

/-- The header is in one piece; if it answers the request, an error code is in one piece too, and any other answer has as
many parameter bytes as its header says, or there is no memory to copy them. -/
def MessageWhole (env : SdpEnv) (lastReq : List Packet) (reader : BufferReader) : Prop :=
  reader.Ahead pduHeaderSize ∧
  (matchesRequest lastReq (reader.rest.take pduHeaderSize) →
    if reader.rest.getD 0 0 = pduIdErrorRsp then reader.AheadTwice pduHeaderSize 2
    else pduHeaderSize + beVal (slice reader.rest 3 2) ≤ reader.rest.length ∨ env.paramsHeap = none)

instance (env : SdpEnv) (lastReq : List Packet) (reader : BufferReader) : Decidable (MessageWhole env lastReq reader) := by
  unfold MessageWhole BufferReader.AheadTwice
  infer_instance

/-- **What the parsers get** was received if there is that much of it, and only then. -/
theorem received_iff (env : SdpEnv) {r : BufferReader} (hw : r.Wf) (paramLen : Nat) :
    (∀ params ∈ readParams env r paramLen, Received r.rest params paramLen) ↔
      paramLen ≤ r.rest.length ∨ env.paramsHeap = none := by
  unfold readParams
  cases hn : bteBufferReaderReadN r paramLen with
  | mk o r' =>
    cases o with
    | some bytes =>
      obtain ⟨hle, hbytes, -⟩ := readN_spec hw (show (bteBufferReaderReadN r paramLen).1 = some bytes by rw [hn])
      refine iff_of_true ?_ (Or.inl hle)
      rintro params hparams
      cases hparams
      have hlen : bytes.length = paramLen := by rw [hbytes, List.length_take, Nat.min_eq_left hle]
      exact ⟨hle, by rw [List.take_left' hlen, hbytes]⟩
    | none =>
      obtain ⟨hrest, hwf⟩ := readN_none hw (show (bteBufferReaderReadN r paramLen).1 = none by rw [hn])
      rw [hn] at hrest hwf
      simp only at hrest hwf
      cases hheap : env.paramsHeap with
      | none =>
        refine iff_of_true ?_ (Or.inr rfl)
        rintro params hparams
        cases hparams
      | some heap =>
        have hread := (read_spec hwf paramLen).1
        rw [hrest] at hread
        simp only [bteMalloc, Option.map_some, Option.mem_def, Option.some.injEq, forall_eq', hread, reduceCtorEq, or_false]
        refine ⟨fun h => h.1, fun hle => ⟨hle, ?_⟩⟩
        have hlen : (r.rest.take paramLen).length = paramLen := by rw [List.length_take, Nat.min_eq_left hle]
        rw [blit, List.take_zero, List.nil_append, List.append_assoc, List.take_left' hlen]

/-- **What one message reads.** -/
theorem messageReads_iff (env : SdpEnv) (lastReq : List Packet) {reader : BufferReader} (hw : reader.Wf) :
    MessageReads env lastReq reader ↔ MessageWhole env lastReq reader := by
  by_cases hahead : reader.Ahead pduHeaderSize
  swap
  · exact iff_of_false (fun h => hahead ((readN_ne_none_iff reader _).1 h.header)) fun h => hahead h.1
  obtain ⟨hdr, hhdr⟩ := Option.ne_none_iff_exists'.1 ((readN_ne_none_iff reader _).2 hahead)
  obtain ⟨hle, rfl, hrest, hwf, -⟩ := readN_spec hw hhdr
  have hpos : 0 < pduHeaderSize := by decide
  have hcode : (reader.rest.take pduHeaderSize).getD 0 0 = reader.rest.getD 0 0 := by
    rw [List.getD_eq_getElem?_getD, List.getElem?_take_of_lt hpos, ← List.getD_eq_getElem?_getD]
  have hlen : slice (reader.rest.take pduHeaderSize) 3 2 = slice reader.rest 3 2 := by
    rw [slice, slice, List.drop_take, List.take_take]
    rfl
  have herror := ahead_readN_iff (r := reader) (n := 2) hpos
  have hparams := received_iff env hwf (beVal (slice reader.rest 3 2))
  rw [hrest, List.length_drop] at hparams
  have hcount : beVal (slice reader.rest 3 2) ≤ reader.rest.length - pduHeaderSize ↔
      pduHeaderSize + beVal (slice reader.rest 3 2) ≤ reader.rest.length := by omega
  rw [hcount] at hparams
  constructor
  · intro h
    refine ⟨hahead, fun hmatch => ?_⟩
    have hrsp := h.error _ hhdr hmatch
    have hok := h.params _ hhdr hmatch
    rw [hcode] at hrsp hok
    rw [hlen] at hok
    split
    · rename_i herr
      exact herror.1 ⟨hahead, (readN_ne_none_iff _ 2).1 (hrsp herr)⟩
    · rename_i herr
      exact hparams.1 (hok herr)
  · rintro ⟨-, h⟩
    refine ⟨(readN_ne_none_iff reader _).2 hahead, fun hdr' hdr'' hmatch herr => ?_, fun hdr' hdr'' hmatch herr => ?_⟩
    · rw [hhdr, Option.mem_def, Option.some.injEq] at hdr''
      subst hdr''
      have hwhole := h hmatch
      rw [hcode] at herr
      rw [if_pos herr] at hwhole
      exact (readN_ne_none_iff _ 2).2 (herror.2 hwhole).2
    · rw [hhdr, Option.mem_def, Option.some.injEq] at hdr''
      subst hdr''
      have hwhole := h hmatch
      rw [hcode] at herr
      rw [if_neg herr] at hwhole
      rw [hlen]
      exact hparams.2 hwhole

/-! ## Runs -/

/-- What a message reads of the request that is outstanding when it comes. -/
def MessageReadsAt (cur : Option Sdp) : SdpOp → Prop
  | .message m => ∀ s ∈ cur, ∀ lastReq ∈ s.lastReq, MessageReads m.env lastReq m.reader
  | .serviceSearch .. | .serviceAttr .. | .serviceSearchAttr .. => True

def MessageWholeAt (cur : Option Sdp) : SdpOp → Prop
  | .message m => ∀ s ∈ cur, ∀ lastReq ∈ s.lastReq, MessageWhole m.env lastReq m.reader
  | .serviceSearch .. | .serviceAttr .. | .serviceSearchAttr .. => True

instance (cur : Option Sdp) : ∀ o : SdpOp, Decidable (MessageWholeAt cur o)
  | .message m => inferInstanceAs (Decidable (∀ s ∈ cur, ∀ lastReq ∈ s.lastReq, MessageWhole m.env lastReq m.reader))
  | .serviceSearch .. | .serviceAttr .. | .serviceSearchAttr .. => .isTrue trivial

/-- **Truncated packets and messages are rejected** in exactly the runs in which every header that is read lies in one
packet, and every reply that answers a request has the parameters it announces. -/
theorem truncated_iff (env : AclEnv) (w : Receiver) (ps : List Packet) (client : Option Sdp) (ops : List SdpOp)
    (hops : ∀ m, SdpOp.message m ∈ ops → m.reader.Wf) :
    (Sys.Admissible (onDataReceived env) (PacketReads env) w ps ↔
      Sys.Admissible (onDataReceived env) PacketWholeAt w ps) ∧
    (Sys.Admissible sdpStep MessageReadsAt client ops ↔ Sys.Admissible sdpStep MessageWholeAt client ops) := by
  refine ⟨Sys.admissible_congr w fun w p _ => packetReads_iff env w p, Sys.admissible_congr client fun cur o ho => ?_⟩
  cases o with
  | message m =>
    have hw := hops m ho
    exact forall₂_congr fun s _ => forall₂_congr fun lastReq _ => messageReads_iff m.env lastReq hw
  | serviceSearch => exact Iff.rfl
  | serviceAttr => exact Iff.rfl
  | serviceSearchAttr => exact Iff.rfl

/-- A search, then a reply of so many bytes. -/
def searchThen (reply : List UInt8) : List SdpOp :=
  [.serviceSearch readyEnv [0x35, 3, 0x19, 0x11, 0x22] 4 7 9, .message ⟨readyEnv, messageReader reply [], true⟩]

/-- A start packet with the L2CAP header and a whole reply are fine; three bytes are not, of either. -/
theorem truncated_iff_threeBytes :
    (Sys.Admissible (onDataReceived quietEnv) (PacketReads quietEnv) twoConnections [aclPacket 0x42 2 [5, 0, 0x40, 0]] ∧
      Sys.Admissible sdpStep MessageReadsAt (some (bteSdpClientNew 0)) (searchThen (pduHeader 3 0 5 ++ [0, 0, 0, 0, 0]))) ∧
    ¬ Sys.Admissible (onDataReceived quietEnv) (PacketReads quietEnv) twoConnections [aclPacket 0x42 2 [5, 0, 0x40]] ∧
    ¬ Sys.Admissible sdpStep MessageReadsAt (some (bteSdpClientNew 0)) (searchThen [3, 0, 0]) := by
  have hwf : ∀ reply, (messageReader reply []).Wf → ∀ m, SdpOp.message m ∈ searchThen reply → m.reader.Wf := by
    intro reply hw m hm
    simp only [searchThen, List.mem_cons, List.not_mem_nil, or_false, reduceCtorEq, false_or, SdpOp.message.injEq] at hm
    rw [hm]
    exact hw
  have hwhole := truncated_iff quietEnv twoConnections [aclPacket 0x42 2 [5, 0, 0x40, 0]] (some (bteSdpClientNew 0))
    (searchThen (pduHeader 3 0 5 ++ [0, 0, 0, 0, 0])) (hwf _ (by decide))
  have hcut := truncated_iff quietEnv twoConnections [aclPacket 0x42 2 [5, 0, 0x40]] (some (bteSdpClientNew 0))
    (searchThen [3, 0, 0]) (hwf _ (by decide))
  rw [hwhole.1, hwhole.2, hcut.1, hcut.2]
  exact ⟨⟨by decide, by decide +kernel⟩, by decide, by decide +kernel⟩

/-- A start packet with one byte makes the check, and a continuation of nothing with one byte the receive callback, read a
header through a null pointer; so does a message of three bytes to the client.  Of a reply with four bytes of parameters
that announces nine, the client's function is told a handle that nobody sent. -/
theorem not_truncated :
    ¬ PacketReads quietEnv twoConnections (aclPacket 0x42 2 [5]) ∧
    ¬ PacketReads quietEnv twoConnections (aclPacket 0x42 1 [9]) ∧
    (Sys.run sdpStep (some (bteSdpClientNew 0)) (searchThen [3, 0, 0])).isNone = true ∧
    (Sys.run sdpStep (some (bteSdpClientNew 0)) (searchThen (pduHeader 3 0 9 ++ [0, 1, 0, 1]))).map Sdp.calls =
      some [.serviceSearch 7 9 ⟨0, 1, 1, false, some [0]⟩] := by
  refine ⟨fun h => ?_, fun h => ?_, by decide +kernel, by decide +kernel⟩
  · exact absurd ((packetReads_iff ..).1 h) (by decide)
  · exact absurd ((packetReads_iff ..).1 h) (by decide)

end Bte
