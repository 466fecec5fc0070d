import BtEmbedded.AclReceive
/-!
# AclLength — the length of a message being reassembled (acl.c, l2cap.c)

The check answers the announced length and the L2CAP header as an `int`; `on_data_received` keeps it in 16 bits, where
0xffff stands for a refused message, and subtracts in 16 bits what has arrived.  The last four lengths of the range
come to that value or to one from zero to three.
-/
namespace Bte

open Bytes

/-! ## The connection when a message starts -/

/-- A connection without packets of a message counts none of its bytes. -/
def Receiver.Tidy (w : Receiver) : Prop :=
  ∀ i a, w.acls i = some a → a.fragmentedMessage = [] → a.fragmentedMessageSize = 0

theorem tidy_update {w : Receiver} (hw : w.Tidy) (i : Fin 7) {f : AclIn → AclIn}
    (hf : ∀ a, w.acls i = some a → (f a).fragmentedMessage = [] → (f a).fragmentedMessageSize = 0) :
    (w.update i f).Tidy := by
  intro j b hb
  by_cases hj : j = i
  · subst hj
    simp only [Receiver.update, Function.update_self, Option.map_eq_some_iff] at hb
    obtain ⟨a, ha, rfl⟩ := hb
    exact hf a ha
  · simp only [Receiver.update, Function.update_of_ne hj] at hb
    exact hw j b hb

theorem tidy_deliver (env : AclEnv) {w : Receiver} (hw : w.Tidy) (i : Fin 7) (ps : List Packet) :
    (w.deliver env i ps).Tidy := by
  cases ps with
  | nil => exact hw
  | cons p ps =>
    intro j b hb
    simp only [Receiver.deliver, Option.map_eq_some_iff] at hb
    obtain ⟨a, ha, rfl⟩ := hb
    exact hw j a ha

theorem tidy_take (env : AclEnv) {w : Receiver} (hw : w.Tidy) (i : Fin 7) (a : AclIn) (p : Packet) :
    (w.take env i a p).Tidy := by
  rcases take_cases env w i a p with h | h
  · rw [h]
    exact tidy_deliver env (tidy_update hw i fun _ _ _ => rfl) i _
  · rw [h]
    refine tidy_update hw i fun b _ hnil => ?_
    obtain ⟨head, next, hm, -, -⟩ := append_head a.fragmentedMessage p
    rw [hm] at hnil
    cases hnil

theorem tidy_flush (env : AclEnv) {w : Receiver} (hw : w.Tidy) (i : Fin 7) (a : AclIn) (p : Packet) :
    (w.flush env i a p).Tidy := by
  unfold Receiver.flush
  split
  · exact tidy_update (tidy_deliver env hw i _) i fun _ _ _ => rfl
  · exact hw

theorem tidy_onDataReceived (env : AclEnv) {w : Receiver} (hw : w.Tidy) (p : Packet) : (onDataReceived env w p).Tidy := by
  unfold onDataReceived
  split
  · exact hw
  · rename_i i _
    split
    · exact hw
    · rename_i a _
      have hflush := tidy_flush env hw i a p
      simp only
      split
      · exact hflush
      · rename_i b hb
        have hkeep : ∀ n, ((w.flush env i a p).update i fun a => { a with reassembledMessageSize := n }).Tidy :=
          fun n => tidy_update hflush i fun c hc => hflush i c hc
        unfold Receiver.receive
        split
        · split
          · exact hkeep _
          · exact tidy_take env (hkeep _) i _ p
        · split
          · exact hflush
          · exact tidy_take env hflush i b p

/-- **No packet upsets it**, whatever arrives. -/
theorem tidy_run (env : AclEnv) : ∀ (ps : List Packet) {w : Receiver}, w.Tidy → (Sys.run (onDataReceived env) w ps).Tidy
  | [], _, hw => hw
  | p :: ps, _, hw => by
    rw [Sys.run_cons]
    exact tidy_run env ps (tidy_onDataReceived env hw p)

section
variable {env : AclEnv} {w : Receiver} {i : Fin 7} {a b : AclIn} {first : Packet}

/-- Nor is a byte of one counted when a start packet is checked. -/
theorem flush_idle (hw : w.Tidy) (ha : w.acls i = some a) (hstart : first.packetBoundary ≠ bteAclPbContinuation)
    (hb : (w.flush env i a first).acls i = some b) : b.fragmentedMessage = [] ∧ b.fragmentedMessageSize = 0 := by
  obtain ⟨c, hc, hnil, hsize⟩ := flush_start env ha hstart
  rw [hb, Option.some.injEq] at hc
  subst hc
  refine ⟨hnil, ?_⟩
  rcases hsize with hzero | ⟨rfl, hnone⟩
  · exact hzero
  · exact hw i b ha hnone

/-- The rest of `on_data_received` is the same as from the state after that delivery. -/
theorem onDataReceived_flush (hw : w.Tidy) (hfind : findAclByConnHandle w first.connHandle = some i)
    (ha : w.acls i = some a) (hstart : first.packetBoundary ≠ bteAclPbContinuation)
    (hb : (w.flush env i a first).acls i = some b) :
    onDataReceived env (w.flush env i a first) first = onDataReceived env w first := by
  have hfind' : findAclByConnHandle (w.flush env i a first) first.connHandle = some i := by
    rw [find_of_handles (handles_flush env w i a first), hfind]
  have hidle := flush_idle hw ha hstart hb
  have hagain : (w.flush env i a first).flush env i b first = w.flush env i a first := if_neg fun h => h.1 hidle.1
  simp only [onDataReceived, hfind, hfind', ha, hb, hagain]

end

/-! ## The value kept -/

theorem take_keeps (env : AclEnv) (w : Receiver) (i : Fin 7) (a : AclIn) (p : Packet) :
    ((w.take env i a p).acls i).map AclIn.reassembledMessageSize = (w.acls i).map AclIn.reassembledMessageSize := by
  have hupdate : ∀ f : AclIn → AclIn, (∀ a, (f a).reassembledMessageSize = a.reassembledMessageSize) →
      ((w.update i f).acls i).map AclIn.reassembledMessageSize = (w.acls i).map AclIn.reassembledMessageSize := by
    intro f hf
    cases h : w.acls i <;> simp [Receiver.update, h, hf]
  rcases take_cases env w i a p with h | h
  · have hnone := hupdate AclIn.noPartial fun _ => rfl
    rw [h]
    cases bteBufferAppend a.fragmentedMessage [p] with
    | nil => exact hnone
    | cons q qs =>
      rw [← hnone]
      cases h : (w.update i AclIn.noPartial).acls i <;> simp [Receiver.deliver, h]
  · rw [h]
    exact hupdate _ fun _ => rfl

/-- A message of one connection among the packets that arrive: its start packet has the L2CAP header, and the last of the
others completes the announced length. -/
structure MessagePackets (h n cid : Nat) (first : Packet) (rest : List Packet) (pdu : List UInt8) : Prop where
  fields : n < 65536 ∧ cid < 65536
  handle : first.connHandle = h
  start : first.packetBoundary ≠ bteAclPbContinuation
  incoming : ∀ p ∈ first :: rest, p.connHandle = h → p.Incoming
  continuation : ∀ p ∈ rest, p.connHandle = h → p.packetBoundary = bteAclPbContinuation
  header : (first.payload 4).take 4 = leBytes 2 n ++ leBytes 2 cid
  payloads : (ownPackets h (first :: rest)).flatMap (Packet.payload 4) = pdu
  length : pdu.length = n + l2capHdrLen
  last : ((ownPackets h (first :: rest)).dropLast.flatMap (Packet.payload 4)).length < n + l2capHdrLen

/-- The payload of the start packet, by the size of any packet. -/
theorem MessagePackets.first_payload {h n cid : Nat} {first : Packet} {rest : List Packet} {pdu : List UInt8}
    (hm : MessagePackets h n cid first rest pdu) : 4 ≤ first.packetLength ∧ first.packetLength < 65532 := by
  have hin := hm.incoming first List.mem_cons_self hm.handle
  have hlen := congrArg List.length hm.header
  simp only [List.length_take, List.length_append, length_leBytes, length_payload hin] at hlen
  have hsize := hin.1.2
  rw [hin.2] at hsize
  omega

/-- The start packet leaves the announced length in place, which is not what stands for a refused message. -/
def KeepsLength (env : AclEnv) (w : Receiver) (i : Fin 7) (first : Packet) (n : Nat) : Prop :=
  ((onDataReceived env w first).acls i).map AclIn.reassembledMessageSize = some (n + l2capHdrLen) ∧
  n + l2capHdrLen ≠ aclInvalidPacket

/-- From the start packet on, slot `i` has what was delivered up to then, and `pdu` once it is complete. -/
def DeliversOnce (env : AclEnv) (h : Nat) (i : Fin 7) (w flushed : Receiver) (first : Packet) (rest : List Packet)
    (pdu : List UInt8) : Prop :=
  ∃ reader, Yields reader pdu ∧ ∀ k ≤ rest.length, (Sys.run (onDataReceived env) w (first :: rest.take k)).messages i =
    flushed.messages i ++ if ownPackets h (rest.drop k) = [] then [reader] else []

section
variable {env : AclEnv} {w : Receiver} {h n cid : Nat} {i : Fin 7} {a : AclIn} {first : Packet} {rest : List Packet}
  {pdu : List UInt8} (hfind : findAclByConnHandle w h = some i) (ha : w.acls i = some a)
  (hidle : a.fragmentedMessage = [] ∧ a.fragmentedMessageSize = 0) (hm : MessagePackets h n cid first rest pdu)
include hfind ha hidle hm

/-- An accepted start packet is taken with the 16-bit value in place. -/
theorem start_accepted (hrc : aclIncomingDataCheckCb env a.clients (aclReader first []) = some (n + 4)) :
    onDataReceived env w first = (w.update i fun a => { a with reassembledMessageSize := (n + 4) % 65536 }).take env i
      { a with reassembledMessageSize := (n + 4) % 65536 } first := by
  rw [onDataReceived_start env (by rw [hm.handle, hfind]) ha hidle.1 hm.start, hrc]

theorem start_keeps (hrc : aclIncomingDataCheckCb env a.clients (aclReader first []) = some (n + 4)) :
    ((onDataReceived env w first).acls i).map AclIn.reassembledMessageSize = some ((n + 4) % 65536) := by
  rw [start_accepted hfind ha hidle hm hrc, take_keeps]
  simp [Receiver.update, ha]

/-- **A length that comes to the marker**: the message is collected as a refused one and never delivered. -/
theorem marker_lost (hrc : aclIncomingDataCheckCb env a.clients (aclReader first []) = some (n + 4))
    (hn : n + 4 = aclInvalidPacket) (k : Nat) :
    (Sys.run (onDataReceived env) w (first :: rest.take k)).messages i = w.messages i := by
  obtain ⟨hlow, hhigh⟩ := hm.first_payload
  have hstep := start_accepted hfind ha hidle hm hrc
  rw [hn] at hstep
  have ha' : (w.update i fun a => { a with reassembledMessageSize := aclInvalidPacket % 65536 }).acls i =
      some { a with reassembledMessageSize := aclInvalidPacket % 65536 } := by
    simp [Receiver.update, ha]
  obtain ⟨hcore, hmsg⟩ := take_of_lt env ha' hidle.2 (show aclInvalidPacket % 65536 < 65536 by decide) (p := first) (by
    show 0 + first.packetLength < 65535
    omega)
  rw [← hstep] at hcore hmsg
  have hfind' : findAclByConnHandle (onDataReceived env w first) h = some i := by
    rw [find_of_handles (handles_onDataReceived env w first), hfind]
  rw [Sys.run_cons, run_refused env (rest.take k) _ _ _ _ hfind' hcore
    fun p hp => hm.continuation p (List.mem_of_mem_take hp), hmsg]
  rfl

/-- **A length beyond 16 bits**: at most three bytes seem to be missing, so the start packet is delivered alone. -/
theorem wrapped_early (hrc : aclIncomingDataCheckCb env a.clients (aclReader first []) = some (n + 4))
    (hn : 65536 ≤ n + 4) : (onDataReceived env w first).messages i = w.messages i ++ [aclReader first []] := by
  obtain ⟨hlow, hhigh⟩ := hm.first_payload
  have hn16 := hm.fields.1
  have hlast : first.packetLength ≥ sub16 ((n + 4) % 65536) a.fragmentedMessageSize := by
    rw [hidle.2, sub16]
    omega
  rw [start_accepted hfind ha hidle hm hrc, Receiver.take]
  simp only [if_pos hlast, hidle.1, bteBufferAppend]
  simp [Receiver.messages, Receiver.deliver, Receiver.update]

end

/-- **Reassembly is exact** exactly if the announced length and its header stay below the marker: the value kept, and that
the message is delivered once complete and not before. -/
theorem lengthExact_iff (env : AclEnv) {w : Receiver} {h n cid : Nat} {i : Fin 7} {a b : AclIn} {first : Packet}
    {rest : List Packet} {pdu : List UInt8} (hw : w.Tidy) (hfind : findAclByConnHandle w h = some i)
    (ha : w.acls i = some a) (hb : (w.flush env i a first).acls i = some b)
    (hm : MessagePackets h n cid first rest pdu) (hok : aclIncomingDataCheckCb env b.clients (aclReader first []) ≠ none) :
    (KeepsLength env w i first n ↔ n + l2capHdrLen < aclInvalidPacket) ∧
    (DeliversOnce env h i w (w.flush env i a first) first rest pdu ↔ n + l2capHdrLen < aclInvalidPacket) := by
  have hfirst := hm.incoming first List.mem_cons_self hm.handle
  have hrest : ∀ p ∈ rest, p.connHandle = h → p.Incoming ∧ p.packetBoundary = bteAclPbContinuation :=
    fun p hp hph => ⟨hm.incoming p (List.mem_cons_of_mem first hp) hph, hm.continuation p hp hph⟩
  have hrc : aclIncomingDataCheckCb env b.clients (aclReader first []) = some (n + 4) := by
    rw [aclIncomingDataCheckCb_eq env b.clients hfirst hm.fields.1 hm.fields.2 hm.header] at hok ⊢
    exact if_pos (by by_contra hno; exact hok (if_neg hno))
  have hn := hm.fields.1
  -- from here on the state is the one without the unfinished message
  have hidle := flush_idle hw ha hm.start hb
  have hstep := onDataReceived_flush hw (by rw [hm.handle, hfind]) ha hm.start hb
  have hfind₀ : findAclByConnHandle (w.flush env i a first) h = some i := by
    rw [find_of_handles (handles_flush env w i a first), hfind]
  unfold KeepsLength DeliversOnce
  simp only [Sys.run_cons, ← hstep]
  generalize w.flush env i a first = w₀ at *
  constructor
  · rw [start_keeps hfind₀ hb hidle hm hrc, Option.some.injEq]
    unfold l2capHdrLen aclInvalidPacket
    omega
  · constructor
    · rintro ⟨reader, -, hd⟩
      by_contra hlong
      obtain hmark | hwrap : n + 4 = aclInvalidPacket ∨ 65536 ≤ n + 4 := by
        unfold aclInvalidPacket l2capHdrLen at *
        omega
      · have hnone := marker_lost hfind₀ hb hidle hm hrc hmark rest.length
        rw [Sys.run_cons, hd rest.length (Nat.le_refl _), List.drop_length] at hnone
        exact absurd hnone (by simp [ownPackets])
      · have hearly := wrapped_early hfind₀ hb hidle hm hrc hwrap
        have hmore : ownPackets h rest ≠ [] := by
          intro hnil
          have hown : ownPackets h (first :: rest) = first :: ownPackets h rest := by simp [ownPackets, hm.handle]
          have hlen := hm.length
          rw [← hm.payloads, hown, hnil, List.flatMap_cons, List.flatMap_nil, List.append_nil, length_payload hfirst] at hlen
          have hhigh := hm.first_payload.2
          unfold l2capHdrLen at hlen
          omega
        have hnow := hd 0 (Nat.zero_le _)
        rw [List.take_zero, Sys.run_nil, List.drop_zero, if_neg hmore, hearly] at hnow
        exact absurd hnow (by simp)
    · intro hmax
      have hlen := hm.length
      rw [← hm.payloads] at hlen ⊢
      obtain ⟨reader, hy, hd, -⟩ :=
        reassembly_accepted env hfind₀ hb hidle hm.handle hm.start hfirst hrest hrc hmax hlen hm.last
      refine ⟨reader, hy, fun k hk => ?_⟩
      have hk' := hd (k + 1) (Nat.succ_le_succ hk)
      rw [List.take_succ_cons, Sys.run_cons, List.drop_succ_cons] at hk'
      exact hk'

/-! ## The last lengths of the range -/

theorem aclPacket_spec {connHandle boundary : Nat} (hc : connHandle ≤ 0xfff) (hb : boundary < 4) (payload : List UInt8)
    (h : payload.length < 65532) : (aclPacket connHandle boundary payload).Incoming ∧
    (aclPacket connHandle boundary payload).connHandle = connHandle ∧
    (aclPacket connHandle boundary payload).packetBoundary = boundary ∧
    (aclPacket connHandle boundary payload).payload 4 = payload := by
  have hor : connHandle ||| (boundary <<< 12) ||| (0 <<< 14) = connHandle + boundary * 4096 := by
    rw [Nat.zero_shiftLeft, Nat.or_zero, Nat.shiftLeft_eq, Nat.mul_comm, Nat.or_comm,
      ← Nat.two_pow_add_eq_or_of_lt (by omega : connHandle < 2 ^ 12) boundary, Nat.add_comm, Nat.mul_comm]
  obtain ⟨hhandle, hboundary, hlen⟩ := header_fields (p := aclPacket connHandle boundary payload) hc hb
    (show payload.length < 65536 by omega) (by rw [hor]; rfl)
  have hdata : (aclPacket connHandle boundary payload).data.length = payload.length + 4 := by
    simp only [aclPacket, List.length_append, length_leBytes]
    omega
  refine ⟨⟨⟨?_, ?_⟩, ?_⟩, hhandle, hboundary, ?_⟩
  · rw [hdata]
    exact Nat.le_refl _
  · show payload.length + 4 < 65536
    omega
  · rw [hlen]
    rfl
  · rw [Packet.payload, Packet.bytes, List.take_of_length_le (by rw [hdata]; exact Nat.le_refl _)]
    rfl

/-- A connection with a channel 0x40 that takes what 16 bits can announce. -/
def wideAcl : AclIn := ⟨0x42, [], 0, 0, fun k => if k.val = 0 then some ⟨0x40, 65535⟩ else none⟩
def wideConnection : Receiver := ⟨fun i => if i.val = 0 then some wideAcl else none, []⟩

/-- A message of `n` bytes in two packets. -/
def longFirst (n : Nat) : Packet := aclPacket 0x42 2 (leBytes 2 n ++ leBytes 2 0x40 ++ List.replicate 1000 0)
def longSecond (n : Nat) : Packet := aclPacket 0x42 1 (List.replicate (n - 1000) 0)
def longPdu (n : Nat) : List UInt8 :=
  leBytes 2 n ++ leBytes 2 0x40 ++ List.replicate 1000 0 ++ List.replicate (n - 1000) 0

theorem longMessage {n : Nat} (hlow : 1000 < n) (hn : n < 65536) :
    MessagePackets 0x42 n 0x40 (longFirst n) [longSecond n] (longPdu n) ∧
    aclIncomingDataCheckCb quietEnv wideAcl.clients (aclReader (longFirst n) []) = some (n + 4) := by
  obtain ⟨hin1, hhandle1, hboundary1, hpay1⟩ := aclPacket_spec (show 0x42 ≤ 0xfff by decide) (show 2 < 4 by decide)
    (leBytes 2 n ++ leBytes 2 0x40 ++ List.replicate 1000 0) (by
      simp only [List.length_append, length_leBytes, List.length_replicate]
      omega)
  obtain ⟨hin2, hhandle2, hboundary2, hpay2⟩ := aclPacket_spec (show 0x42 ≤ 0xfff by decide) (show 1 < 4 by decide)
    (List.replicate (n - 1000) 0) (by rw [List.length_replicate]; omega)
  rw [← longFirst] at hin1 hhandle1 hboundary1 hpay1
  rw [← longSecond] at hin2 hhandle2 hboundary2 hpay2
  have hown : ownPackets 0x42 [longFirst n, longSecond n] = [longFirst n, longSecond n] := by
    simp [ownPackets, hhandle1, hhandle2]
  have hheader : ((longFirst n).payload 4).take 4 = leBytes 2 n ++ leBytes 2 0x40 := by
    rw [hpay1]
    rfl
  refine ⟨⟨⟨hn, by decide⟩, hhandle1, ?_, ?_, ?_, hheader, ?_, ?_, ?_⟩, ?_⟩
  · rw [hboundary1]
    decide
  · intro p hp _
    simp only [List.mem_cons, List.not_mem_nil, or_false] at hp
    rcases hp with rfl | rfl
    · exact hin1
    · exact hin2
  · intro p hp _
    rw [List.mem_singleton.1 hp]
    exact hboundary2
  · rw [hown, List.flatMap_cons, List.flatMap_cons, List.flatMap_nil, List.append_nil, hpay1, hpay2]
    rfl
  · simp only [longPdu, List.length_append, length_leBytes, List.length_replicate, l2capHdrLen]
    omega
  · rw [hown, show [longFirst n, longSecond n].dropLast = [longFirst n] from rfl, List.flatMap_cons, List.flatMap_nil,
      List.append_nil, hpay1]
    simp only [List.length_append, length_leBytes, List.length_replicate, l2capHdrLen]
    omega
  · rw [aclIncomingDataCheckCb_eq quietEnv _ hin1 hn (by decide) hheader]
    refine if_pos ?_
    rw [incomingDataOk, if_neg (by decide)]
    have hfound : l2capForLocalChannel wideAcl.clients 0x40 = some ⟨0x40, 65535⟩ := by decide
    rw [hfound]
    exact decide_eq_true (show n ≤ 65535 by omega)

theorem wideConnection_tidy : wideConnection.Tidy := by
  intro i a h _
  simp only [wideConnection] at h
  split at h
  · cases h
    rfl
  · cases h

theorem wideConnection_flush (p : Packet) : wideConnection.flush quietEnv 0 wideAcl p = wideConnection :=
  if_neg fun h => h.1 rfl

/-- With 65530 bytes a message is delivered; with 65531, one less than the largest length, it is not. -/
theorem lengthExact_iff_longest :
    (KeepsLength quietEnv wideConnection 0 (longFirst 65530) 65530 ∧
      DeliversOnce quietEnv 0x42 0 wideConnection wideConnection (longFirst 65530) [longSecond 65530] (longPdu 65530)) ∧
    ¬ KeepsLength quietEnv wideConnection 0 (longFirst 65531) 65531 ∧
    ¬ DeliversOnce quietEnv 0x42 0 wideConnection wideConnection (longFirst 65531) [longSecond 65531] (longPdu 65531) := by
  obtain ⟨hm, hok⟩ := longMessage (show 1000 < 65530 by decide) (by decide)
  obtain ⟨hm', hok'⟩ := longMessage (show 1000 < 65531 by decide) (by decide)
  have hfind : findAclByConnHandle wideConnection 0x42 = some 0 := by decide
  have ha : wideConnection.acls 0 = some wideAcl := rfl
  have hexact := lengthExact_iff quietEnv wideConnection_tidy hfind ha (by rw [wideConnection_flush, ha]) hm
    (by rw [hok]; exact Option.some_ne_none _)
  have hlost := lengthExact_iff quietEnv wideConnection_tidy hfind ha (by rw [wideConnection_flush, ha]) hm'
    (by rw [hok']; exact Option.some_ne_none _)
  rw [wideConnection_flush] at hexact hlost
  exact ⟨⟨hexact.1.2 (by decide), hexact.2.2 (by decide)⟩, fun h => absurd (hlost.1.1 h) (by decide),
    fun h => absurd (hlost.2.1 h) (by decide)⟩

/-- 65531 bytes are announced, accepted and received, and nothing is delivered; of 65532 bytes, the first packet is
delivered as the whole message. -/
theorem not_lengthExact :
    (MessagePackets 0x42 65531 0x40 (longFirst 65531) [longSecond 65531] (longPdu 65531) ∧
      aclIncomingDataCheckCb quietEnv wideAcl.clients (aclReader (longFirst 65531) []) = some 65535 ∧
      ¬ KeepsLength quietEnv wideConnection 0 (longFirst 65531) 65531 ∧
      (Sys.run (onDataReceived quietEnv) wideConnection [longFirst 65531, longSecond 65531]).messages 0 = []) ∧
    MessagePackets 0x42 65532 0x40 (longFirst 65532) [longSecond 65532] (longPdu 65532) ∧
      aclIncomingDataCheckCb quietEnv wideAcl.clients (aclReader (longFirst 65532) []) = some 65536 ∧
      ¬ KeepsLength quietEnv wideConnection 0 (longFirst 65532) 65532 ∧
      (onDataReceived quietEnv wideConnection (longFirst 65532)).messages 0 = [aclReader (longFirst 65532) []] := by
  obtain ⟨hm, hok⟩ := longMessage (show 1000 < 65531 by decide) (by decide)
  obtain ⟨hm', hok'⟩ := longMessage (show 1000 < 65532 by decide) (by decide)
  have hfind : findAclByConnHandle wideConnection 0x42 = some 0 := by decide
  have ha : wideConnection.acls 0 = some wideAcl := rfl
  have hidle : wideAcl.fragmentedMessage = [] ∧ wideAcl.fragmentedMessageSize = 0 := ⟨rfl, rfl⟩
  refine ⟨⟨hm, hok, fun h => h.2 rfl, ?_⟩, hm', hok', fun h => ?_, ?_⟩
  · exact marker_lost hfind ha hidle hm hok rfl 1
  · have hkept := h.1
    rw [start_keeps hfind ha hidle hm' hok'] at hkept
    exact absurd hkept (by decide)
  · exact wrapped_early hfind ha hidle hm' hok' (by decide)

end Bte
