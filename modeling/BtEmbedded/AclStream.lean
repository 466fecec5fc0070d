import BtEmbedded.AclReceive
import Mathlib.Data.List.Induction
/-!
# AclStream — what a peer's packets can make of a message (acl.c)

The peer chooses every packet of its connection: `on_data_received` compares the length of each with what it still
expects, but it takes a new start in the middle of a message, a continuation of nothing and a packet that is too long
for a completed message.  `Orderly` says what a packet has to be for the state it arrives in; as long as every packet is,
each delivered message begins with a start packet that was accepted and has the bytes its header announced
(`messages_wellFormed`).
-/
namespace Bte

open Bytes

/-! ## Well-formed messages -/

/-- The start packet `first` is accepted in the state `w` for a message of `n` bytes, what its header announces, and
`head` is that packet. -/
def Starts (env : AclEnv) (h : Nat) (i : Fin 7) (w : Receiver) (first head : Packet) (n : Nat) : Prop :=
  first.connHandle = h ∧ first.packetBoundary ≠ bteAclPbContinuation ∧ head.size = first.size ∧ head.data = first.data ∧
  n = leVal (slice (first.payload 4) 0 2) + l2capHdrLen ∧
  (w.acls i).bind (fun a => aclIncomingDataCheckCb env a.clients (aclReader first [])) = some n

instance (env : AclEnv) (h : Nat) (i : Fin 7) (w : Receiver) (first head : Packet) (n : Nat) :
    Decidable (Starts env h i w first head n) := inferInstanceAs (Decidable (_ ∧ _))

/-- Among the packets `ps` that arrived from `w` on there is such a start packet. -/
def Announced (env : AclEnv) (h : Nat) (i : Fin 7) (w : Receiver) (ps : List Packet) (head : Packet) (n : Nat) : Prop :=
  ∃ k : Fin ps.length, Starts env h i (Sys.run (onDataReceived env) w (ps.take k)) (ps.get k) head n

instance (env : AclEnv) (h : Nat) (i : Fin 7) (w : Receiver) (ps : List Packet) (head : Packet) (n : Nat) :
    Decidable (Announced env h i w ps head n) := inferInstanceAs (Decidable (∃ _ : Fin _, _))

/-- The reader starts at an accepted start packet and has exactly the announced bytes. -/
def WellFormedMessage (env : AclEnv) (h : Nat) (i : Fin 7) (w : Receiver) (ps : List Packet) (r : BufferReader) : Prop :=
  r.Wf ∧ r.posInPacket = bteAclHdrLen ∧ Announced env h i w ps r.packet r.rest.length

theorem Announced.append {env : AclEnv} {h : Nat} {i : Fin 7} {w : Receiver} {ps : List Packet} {head : Packet} {n : Nat}
    (ha : Announced env h i w ps head n) (qs : List Packet) : Announced env h i w (ps ++ qs) head n := by
  obtain ⟨k, hk⟩ := ha
  have hlt : k.val < (ps ++ qs).length := by
    rw [List.length_append]
    exact Nat.lt_add_right _ k.isLt
  refine ⟨⟨k, hlt⟩, ?_⟩
  have hget : (ps ++ qs).get ⟨k, hlt⟩ = ps.get k := by
    simp only [List.get_eq_getElem]
    exact List.getElem_append_left k.isLt
  have htake : (ps ++ qs).take k = ps.take k := List.take_append_of_le_length (Nat.le_of_lt k.isLt)
  rw [hget]
  simp only [htake]
  exact hk

theorem WellFormedMessage.append {env : AclEnv} {h : Nat} {i : Fin 7} {w : Receiver} {ps : List Packet} {r : BufferReader}
    (hm : WellFormedMessage env h i w ps r) (qs : List Packet) : WellFormedMessage env h i w (ps ++ qs) r :=
  ⟨hm.1, hm.2.1, hm.2.2.append qs⟩

/-- The packet that has just arrived is the start. -/
theorem announced_last {env : AclEnv} {h : Nat} {i : Fin 7} {w : Receiver} {ps : List Packet} {p head : Packet} {n : Nat}
    (hs : Starts env h i (Sys.run (onDataReceived env) w ps) p head n) : Announced env h i w (ps ++ [p]) head n := by
  refine ⟨⟨ps.length, by simp⟩, ?_⟩
  simpa using hs

/-! ## Orderly packets -/

/-- The packet fits the state of the connection: a start finds no message unfinished, has the header that is checked, and if
it is accepted is no longer than it announces; a continuation belongs to a refused message, or to an unfinished one that it
does not exceed. -/
def Orderly (env : AclEnv) (a : AclIn) (p : Packet) : Prop :=
  if p.packetBoundary ≠ bteAclPbContinuation then
    a.fragmentedMessage = [] ∧ bteAclHdrLen + l2capHdrLen ≤ p.size ∧
    (aclIncomingDataCheckCb env a.clients (aclReader p []) ≠ none → p.Incoming ∧
      p.packetLength ≤ leVal (slice (p.payload 4) 0 2) + l2capHdrLen ∧
      leVal (slice (p.payload 4) 0 2) + l2capHdrLen < 65536)
  else
    a.reassembledMessageSize = aclInvalidPacket ∨
    a.fragmentedMessage ≠ [] ∧ p.Incoming ∧ a.fragmentedMessageSize + p.packetLength ≤ a.reassembledMessageSize

instance (env : AclEnv) (a : AclIn) (p : Packet) : Decidable (Orderly env a p) := by
  unfold Orderly
  infer_instance

/-- A packet of connection `h`, whose state is in slot `i`, is orderly. -/
def OrderlyAt (env : AclEnv) (h : Nat) (i : Fin 7) (w : Receiver) (p : Packet) : Prop :=
  p.connHandle = h → ∀ a ∈ w.acls i, Orderly env a p

instance (env : AclEnv) (h : Nat) (i : Fin 7) (w : Receiver) (p : Packet) : Decidable (OrderlyAt env h i w p) := by
  unfold OrderlyAt
  infer_instance

/-- The check reads the header of any packet that has one. -/
theorem aclIncomingDataCheckCb_some (env : AclEnv) (clients : Fin 4 → Option Channel) {p : Packet} {n : Nat}
    (hp : p.Incoming) (hlen : l2capHdrLen ≤ p.packetLength)
    (h : aclIncomingDataCheckCb env clients (aclReader p []) = some n) :
    n = leVal (slice (p.payload 4) 0 2) + l2capHdrLen := by
  have hlong : 4 ≤ (p.payload 4).length := by
    rw [length_payload hp]
    exact hlen
  have hl : ∀ off, off ≤ 2 → (slice (p.payload 4) off 2).length = 2 := fun off hoff => length_slice (by omega)
  have hfield : ∀ off, off ≤ 2 → leBytes 2 (leVal (slice (p.payload 4) off 2)) = slice (p.payload 4) off 2 ∧
      leVal (slice (p.payload 4) off 2) < 65536 := by
    intro off hoff
    have hb := leBytes_leVal (slice (p.payload 4) off 2)
    have hlt := leVal_lt (slice (p.payload 4) off 2)
    rw [hl off hoff] at hb hlt
    exact ⟨hb, hlt⟩
  obtain ⟨hlow, hlt0⟩ := hfield 0 (by omega)
  obtain ⟨hhigh, hlt2⟩ := hfield 2 (by omega)
  have hsplit : (p.payload 4).take 4 =
      leBytes 2 (leVal (slice (p.payload 4) 0 2)) ++ leBytes 2 (leVal (slice (p.payload 4) 2 2)) := by
    rw [hlow, hhigh]
    exact List.take_add (i := 2) (j := 2)
  rw [aclIncomingDataCheckCb_eq env clients hp hlt0 hlt2 hsplit] at h
  split at h
  · cases h
    rfl
  · cases h

/-! ## One packet -/

/-- The connection in slot `i` has no unfinished message, or one that began with an accepted start packet and lacks some
of the announced bytes. -/
def Reassembling (env : AclEnv) (h : Nat) (i : Fin 7) (w : Receiver) (ps : List Packet) (cur : Receiver) : Prop :=
  Idle cur i ∨ ∃ c head next bytes n, cur.core i = some (c, head :: next, List.length bytes, n) ∧
    Carries (head :: next) bytes ∧ bytes.length < n ∧ n < 65536 ∧ Announced env h i w ps head n

theorem Reassembling.of_core {env : AclEnv} {h : Nat} {i : Fin 7} {w cur cur' : Receiver} {ps : List Packet}
    (hs : Reassembling env h i w ps cur) (hc : cur'.core i = cur.core i) (qs : List Packet) :
    Reassembling env h i w (ps ++ qs) cur' := by
  rcases hs with ⟨c, total, hcore⟩ | ⟨c, head, next, bytes, n, hcore, hb, hlt, hn, ha⟩
  · exact .inl ⟨c, total, hc.trans hcore⟩
  · exact .inr ⟨c, head, next, bytes, n, hc.trans hcore, hb, hlt, hn, ha.append qs⟩

/-- What arrived adds messages to those delivered before, all of them well formed. -/
def Adds (env : AclEnv) (h : Nat) (i : Fin 7) (w : Receiver) (ps : List Packet) (cur cur' : Receiver) : Prop :=
  ∃ new, cur'.messages i = cur.messages i ++ new ∧ ∀ r ∈ new, WellFormedMessage env h i w ps r

theorem adds_of_eq {env : AclEnv} {h : Nat} {i : Fin 7} {w : Receiver} {ps : List Packet} {cur cur' : Receiver}
    (hm : cur'.messages i = cur.messages i) : Adds env h i w ps cur cur' :=
  ⟨[], by rw [hm, List.append_nil], fun _ hr => by cases hr⟩

/-- Carried packets make a reader over their bytes. -/
theorem aclReader_wf {head : Packet} {next : List Packet} {bytes : List UInt8} (hb : Carries (head :: next) bytes) :
    (aclReader head next).Wf ∧ (aclReader head next).rest = bytes := by
  have hhead := hb.packets head List.mem_cons_self
  constructor
  · exact ⟨hhead.1, hhead.2, fun p hp => hb.packets p (List.mem_cons_of_mem head hp)⟩
  · rw [← hb.payloads]
    rfl

/-- **A packet that goes to the message of an accepted start** extends it or delivers it whole. -/
theorem take_reassembles {env : AclEnv} {h : Nat} {i : Fin 7} {w cur : Receiver} {ps : List Packet} {a : AclIn}
    (ha : cur.acls i = some a) {bytes : List UInt8} (hb : Carries a.fragmentedMessage bytes)
    (hsize : a.fragmentedMessageSize = bytes.length) (htotal : a.reassembledMessageSize < 65536) {p : Packet}
    (hp : p.Incoming) (hle : bytes.length + p.packetLength ≤ a.reassembledMessageSize)
    (hstart : ∀ head next, bteBufferAppend a.fragmentedMessage [p] = head :: next →
      Announced env h i w ps head a.reassembledMessageSize) :
    Reassembling env h i w ps (cur.take env i a p) ∧ Adds env h i w ps cur (cur.take env i a p) := by
  obtain ⟨head, next, hm, _, _⟩ := append_head a.fragmentedMessage p
  have hcarries := carries_append hb hp
  rw [hm] at hcarries
  have hlen : (bytes ++ p.payload 4).length = bytes.length + p.packetLength := by
    rw [List.length_append, length_payload hp]
  rcases Nat.lt_or_eq_of_le hle with hlt | heq
  · obtain ⟨hcore, hmsg⟩ := take_of_lt env ha hsize htotal hlt
    rw [hm, ← hlen] at hcore
    rw [← hlen] at hlt
    constructor
    · exact .inr ⟨_, head, next, _, _, hcore, hcarries, hlt, htotal, hstart head next hm⟩
    · exact adds_of_eq hmsg
  · obtain ⟨hmsg, hidle⟩ := take_of_eq env ha hsize htotal heq hm
    obtain ⟨hw, hrest⟩ := aclReader_wf hcarries
    refine ⟨.inl hidle, [aclReader head next], hmsg, ?_⟩
    intro r hr
    rw [List.mem_singleton.1 hr]
    refine ⟨hw, rfl, ?_⟩
    rw [hrest, hlen, heq]
    exact hstart head next hm

/-- **An orderly packet of the connection.** -/
theorem onDataReceived_orderly {env : AclEnv} {h : Nat} {i : Fin 7} {w : Receiver} {ps : List Packet} {p : Packet}
    (hfind : findAclByConnHandle (Sys.run (onDataReceived env) w ps) h = some i) (hh : p.connHandle = h)
    (hs : Reassembling env h i w ps (Sys.run (onDataReceived env) w ps))
    (hok : OrderlyAt env h i (Sys.run (onDataReceived env) w ps) p) :
    Reassembling env h i w (ps ++ [p]) (onDataReceived env (Sys.run (onDataReceived env) w ps) p) ∧
    Adds env h i w (ps ++ [p]) (Sys.run (onDataReceived env) w ps)
      (onDataReceived env (Sys.run (onDataReceived env) w ps) p) := by
  generalize hcur : Sys.run (onDataReceived env) w ps = cur at *
  have hfind' : findAclByConnHandle cur p.connHandle = some i := by rw [hh, hfind]
  by_cases hpb : p.packetBoundary = bteAclPbContinuation
  · -- a continuation: the start it belongs to is the one of the unfinished message
    have hsome : ∃ a, cur.acls i = some a := by
      rcases hs with ⟨c, total, hcore⟩ | ⟨c, head, next, bytes, n, hcore, _⟩
      · obtain ⟨a, ha, _⟩ := core_some hcore
        exact ⟨a, ha⟩
      · obtain ⟨a, ha, _⟩ := core_some hcore
        exact ⟨a, ha⟩
    obtain ⟨a, ha⟩ := hsome
    have hord := hok hh a ha
    unfold Orderly at hord
    rw [if_neg (not_not.2 hpb)] at hord
    rw [onDataReceived_continuation env hfind' ha hpb]
    by_cases hinv : a.reassembledMessageSize = aclInvalidPacket
    · rw [if_pos hinv]
      exact ⟨hs.of_core rfl [p], adds_of_eq rfl⟩
    · rw [if_neg hinv]
      obtain ⟨hne, hin, hle⟩ := hord.resolve_left hinv
      rcases hs with ⟨c, total, hcore⟩ | ⟨c, head, next, bytes, n, hcore, hb, hlt, hn, hann⟩
      · obtain ⟨a', ha', hf, _, _⟩ := core_some hcore
        cases ha.symm.trans ha'
        exact absurd hf hne
      · obtain ⟨a', ha', hf, hsize, ht⟩ := core_some hcore
        cases ha.symm.trans ha'
        rw [hsize] at hle
        rw [← hf] at hb
        rw [← ht] at hn hann
        refine take_reassembles ha hb hsize hn hin hle ?_
        intro head' next' hm
        rw [hf] at hm
        cases hm
        exact Announced.append hann [p]
  · -- a start: there is no unfinished message
    rcases hs with ⟨c, total, hcore⟩ | ⟨c, head, next, bytes, n, hcore, hb, hlt, hn, hann⟩
    · obtain ⟨a, ha, hf, hsize, ht⟩ := core_some hcore
      have hord := hok hh a ha
      unfold Orderly at hord
      rw [if_pos hpb] at hord
      obtain ⟨_, hheader, hmax⟩ := hord
      rw [onDataReceived_start env hfind' ha hf hpb]
      cases hc : aclIncomingDataCheckCb env a.clients (aclReader p []) with
      | none =>
        constructor
        · refine .inl ⟨c, aclInvalidPacket, ?_⟩
          cases ht
          simp only [Receiver.core, ha, Option.map_some, AclIn.core, Option.some.injEq, Prod.mk.injEq] at hcore
          simp [Receiver.core, Receiver.update, ha, AclIn.core, hcore.1, hf, hsize]
        · exact adds_of_eq rfl
      | some n =>
        obtain ⟨hin, hle, hlt⟩ := hmax (by rw [hc]; exact Option.some_ne_none n)
        have hlen : l2capHdrLen ≤ p.packetLength := by
          rw [hin.2, Nat.add_comm] at hheader
          exact Nat.le_of_add_le_add_right hheader
        have hn := aclIncomingDataCheckCb_some env a.clients hin hlen hc
        rw [← hn] at hle hlt
        simp only [Nat.mod_eq_of_lt hlt]
        have ha' : (cur.update i fun a => { a with reassembledMessageSize := n }).acls i =
            some { a with reassembledMessageSize := n } := by
          simp [Receiver.update, ha]
        have hb : Carries a.fragmentedMessage [] := by
          rw [hf]
          exact ⟨by simp, rfl⟩
        have hle' : List.length ([] : List UInt8) + p.packetLength ≤ n := by
          rw [List.length_nil, Nat.zero_add]
          exact hle
        refine take_reassembles ha' hb hsize hlt hin hle' ?_
        intro head next hm
        simp only [hf, bteBufferAppend, List.cons.injEq] at hm
        obtain ⟨rfl, _⟩ := hm
        refine announced_last ⟨hh, hpb, rfl, rfl, hn, ?_⟩
        rw [hcur, ha]
        exact hc
    · obtain ⟨a, ha, hf, _, _⟩ := core_some hcore
      have hord := hok hh a ha
      unfold Orderly at hord
      rw [if_pos hpb, hf] at hord
      cases hord.1

/-! ## Streams -/

/-- What holds after the packets `ps`. -/
structure StreamInv (env : AclEnv) (h : Nat) (i : Fin 7) (w : Receiver) (ps : List Packet) : Prop where
  find : findAclByConnHandle (Sys.run (onDataReceived env) w ps) h = some i
  state : Reassembling env h i w ps (Sys.run (onDataReceived env) w ps)
  adds : Adds env h i w ps w (Sys.run (onDataReceived env) w ps)

theorem Adds.trans {env : AclEnv} {h : Nat} {i : Fin 7} {w : Receiver} {ps qs : List Packet} {w₁ w₂ w₃ : Receiver}
    (h₁ : Adds env h i w ps w₁ w₂) (h₂ : Adds env h i w (ps ++ qs) w₂ w₃) : Adds env h i w (ps ++ qs) w₁ w₃ := by
  obtain ⟨new, hm, hwf⟩ := h₁
  obtain ⟨new', hm', hwf'⟩ := h₂
  refine ⟨new ++ new', by rw [hm', hm, List.append_assoc], ?_⟩
  intro r hr
  rcases List.mem_append.1 hr with hr | hr
  · exact (hwf r hr).append qs
  · exact hwf' r hr

theorem streamInv_snoc {env : AclEnv} {h : Nat} {i : Fin 7} {w : Receiver} {ps : List Packet} {p : Packet}
    (hinv : StreamInv env h i w ps) (hok : OrderlyAt env h i (Sys.run (onDataReceived env) w ps) p) :
    StreamInv env h i w (ps ++ [p]) := by
  have hrun : Sys.run (onDataReceived env) w (ps ++ [p]) = onDataReceived env (Sys.run (onDataReceived env) w ps) p := by
    rw [Sys.run_append]
    rfl
  have hstep : Reassembling env h i w (ps ++ [p]) (Sys.run (onDataReceived env) w (ps ++ [p])) ∧
      Adds env h i w (ps ++ [p]) (Sys.run (onDataReceived env) w ps) (Sys.run (onDataReceived env) w (ps ++ [p])) := by
    rw [hrun]
    by_cases hh : p.connHandle = h
    · exact onDataReceived_orderly hinv.find hh hinv.state hok
    · have hu := untouched_of_ne env hinv.find hh
      exact ⟨hinv.state.of_core hu.core [p], adds_of_eq hu.messages⟩
  constructor
  · rw [hrun, find_of_handles (handles_onDataReceived env _ p), hinv.find]
  · exact hstep.1
  · exact hinv.adds.trans hstep.2

/-- **Every message that orderly packets deliver is well formed**: it begins with a start packet that was accepted when
it arrived and has exactly the announced bytes, whatever the packets of other connections are. -/
theorem messages_wellFormed (env : AclEnv) (w : Receiver) (h : Nat) (i : Fin 7) (ps : List Packet)
    (hfind : findAclByConnHandle w h = some i) (hidle : Idle w i)
    (hok : Sys.Admissible (onDataReceived env) (OrderlyAt env h i) w ps) :
    ∃ new, (Sys.run (onDataReceived env) w ps).messages i = w.messages i ++ new ∧
      ∀ r ∈ new, WellFormedMessage env h i w ps r := by
  suffices hinv : StreamInv env h i w ps from hinv.adds
  induction ps using List.reverseRecOn with
  | nil => exact ⟨hfind, .inl hidle, adds_of_eq rfl⟩
  | append_singleton ps p ih =>
    obtain ⟨hps, hp⟩ := (Sys.admissible_append ..).1 hok
    exact streamInv_snoc (ih hps) hp.1

instance (env : AclEnv) (h : Nat) (i : Fin 7) (w : Receiver) (ps : List Packet) (r : BufferReader) :
    Decidable (WellFormedMessage env h i w ps r) := inferInstanceAs (Decidable (_ ∧ _ ∧ _))

/-- A message that is refused (channel 0x99), in a packet that says to be longer than it is, and its continuation; and one in
two packets with a packet of the other connection between them. -/
def orderlyStream : List Packet :=
  [⟨9, 9, [0x42, 0x20, 30, 0, 9, 0, 0x99, 0, 1]⟩, aclPacket 0x42 1 [2, 3, 4], aclPacket 0x42 0 [3, 0, 0x40, 0],
    aclPacket 0x43 1 [7, 7], aclPacket 0x42 1 [1, 2, 3]]

/-- At `orderlyStream` one message is delivered, and it is well formed. -/
theorem messages_wellFormed_orderlyStream :
    ((Sys.run (onDataReceived quietEnv) twoConnections orderlyStream).messages 0).map BufferReader.rest =
      [[3, 0, 0x40, 0, 1, 2, 3]] ∧
    ∃ new, (Sys.run (onDataReceived quietEnv) twoConnections orderlyStream).messages 0 =
        twoConnections.messages 0 ++ new ∧
      ∀ r ∈ new, WellFormedMessage quietEnv 0x42 0 twoConnections orderlyStream r :=
  ⟨by decide, messages_wellFormed quietEnv twoConnections 0x42 0 orderlyStream (by decide)
    ⟨0x42, 0, rfl⟩ (by decide)⟩

/-- A second start while the first message lacks four bytes. -/
def cutShortStream : List Packet :=
  [aclPacket 0x42 2 [5, 0, 0x40, 0, 1], aclPacket 0x42 2 [1, 0, 0x40, 0, 9]]

/-- A continuation before any message. -/
def strayStream : List Packet := [aclPacket 0x42 1 [9, 0, 0x40, 0]]

/-- A start with more bytes than it announces. -/
def longStream : List Packet := [aclPacket 0x42 2 [1, 0, 0x40, 0, 9, 9, 9]]

/-- A continuation that goes beyond the end of its message. -/
def overrunStream : List Packet := [aclPacket 0x42 2 [5, 0, 0x40, 0, 1], aclPacket 0x42 1 [2, 3, 4, 5, 6, 7, 8]]

/-- Each of the four is delivered as a message: five bytes of nine, four without a start, seven for five and twelve for
nine. -/
theorem messages_malformed :
    [cutShortStream, strayStream, longStream, overrunStream].map (fun ps =>
      ((Sys.run (onDataReceived quietEnv) twoConnections ps).messages 0).map BufferReader.rest) =
      [[[5, 0, 0x40, 0, 1], [1, 0, 0x40, 0, 9]], [[9, 0, 0x40, 0]], [[1, 0, 0x40, 0, 9, 9, 9]],
        [[5, 0, 0x40, 0, 1, 2, 3, 4, 5, 6, 7, 8]]] ∧
    ∀ ps ∈ [cutShortStream, strayStream, longStream, overrunStream],
      ¬ ∀ r ∈ (Sys.run (onDataReceived quietEnv) twoConnections ps).messages 0,
        WellFormedMessage quietEnv 0x42 0 twoConnections ps r := by
  decide

end Bte
