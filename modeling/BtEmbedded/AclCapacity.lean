import BtEmbedded.AclMessage
/-!
# AclCapacity — the sizes of an outgoing message (buffer.h, utils.h, acl.c, l2cap.c)

Three sums are cut to 16 bits on the way to the packets of a message: the L2CAP header and the size, the packets and
their MTU, the packet header and the packet.  The exact numbers are below; where one of the first two does not fit, the
packets are too few for the message (`wrapped_short`).
-/
namespace Bte

open Bytes

/-- The bytes of a message after its ACL headers. -/
def messageTotal (size : Nat) : Nat := l2capHdrLen + size

/-- How many packets of `aclMtu` bytes a message needs. -/
def packetsNeeded (aclMtu size : Nat) : Nat :=
  (messageTotal size + (aclMtu - bteAclHdrLen) - 1) / (aclMtu - bteAclHdrLen)

/-- How many bytes the packets take after their ACL headers. -/
def payloadRoom (ps : List Packet) : Nat := (ps.map fun p => p.size - bteAclHdrLen).sum

/-- No size of the message wraps around, and its packets hold it. -/
structure FitsWhole (l : BufferLayout) (aclMtu size : Nat) (w : BufferWriter) : Prop where
  total : messageTotal size < 65536
  request : packetsNeeded aclMtu size * aclMtu < 65536
  allocated : ∀ p ∈ w.buffer, l.Holds p
  payload : messageTotal size ≤ payloadRoom w.buffer

/-! ## What is allocated -/

/-- Of the packets of a request at most one is not full. -/
theorem length_allocLoop_lt (mem : Nat → Nat → UInt8) (size : Nat) {blockSize : Nat} (hb : 0 < blockSize) :
    ∀ fuel i remaining : Nat,
      (allocLoop mem size blockSize fuel i remaining).length * blockSize < remaining + blockSize
  | 0, i, remaining => by simp [allocLoop, hb]
  | fuel + 1, i, remaining => by
    rw [allocLoop]
    by_cases h0 : remaining = 0
    · simp [h0, hb]
    · rw [if_neg h0]
      by_cases hle : remaining > blockSize
      · have hlen := length_allocLoop_lt mem size hb fuel (i + 1) (remaining - blockSize)
        simp only [if_pos hle, List.length_cons, Nat.succ_mul]
        omega
      · simp only [if_neg hle, Nat.sub_self, allocLoop_done, List.length_singleton]
        omega

theorem bteBufferAlloc_eq_nil_iff (mem : Nat → Nat → UInt8) (size blockSize : Nat) :
    bteBufferAlloc mem size blockSize = [] ↔ size = 0 := by
  cases size with
  | zero => exact iff_of_true rfl rfl
  | succ size => exact iff_of_false (by simp [bteBufferAlloc, allocLoop]) (Nat.succ_ne_zero size)

/-- Asking for a pointer moves the writer over the same packets. -/
theorem ptrN_buffer (w : BufferWriter) (size : Nat) : (bteBufferWriterPtrN w size).2.buffer = w.buffer := by
  have hturn : ∀ w', w.turn = some w' → w'.buffer = w.buffer := by
    intro w' h
    unfold BufferWriter.turn at h
    split at h
    · cases hn : w.next with
      | nil => rw [hn] at h; cases h
      | cons q next =>
        rw [hn] at h
        cases h
        simp [BufferWriter.buffer, hn]
    · cases h
      rfl
  unfold bteBufferWriterPtrN
  cases ht : w.turn with
  | none => rfl
  | some w' =>
    simp only
    split
    · exact hturn w' ht
    · exact hturn w' ht

theorem writeL2capHeader_sizes (w : BufferWriter) (size channelId : Nat) :
    (w.writeL2capHeader size channelId).buffer.map Packet.size = w.buffer.map Packet.size := by
  have h := congrArg (List.map Packet.size) (ptrN_buffer w l2capHdrLen)
  rw [BufferWriter.writeL2capHeader]
  split
  · rename_i w' hptr
    rw [hptr] at h
    exact h
  · rename_i pos w' hptr
    rw [hptr] at h
    rw [← h]
    simp [BufferWriter.buffer, Packet.store]

/-- What `acl_l2cap_create_message` asks for. -/
def requestSize (aclMtu size : Nat) : Nat :=
  bteComputeFragmentedSize ((l2capHdrLen + size) % 65536) aclMtu bteAclHdrLen

/-- A message is created if something is asked for, over packets of the sizes allocated. -/
theorem created_sizes (mem : Nat → Nat → UInt8) (aclMtu connHandle size channelId : Nat) :
    (aclL2capCreateMessage mem aclMtu connHandle size channelId = none ↔ requestSize aclMtu size = 0) ∧
    ∀ w ∈ aclL2capCreateMessage mem aclMtu connHandle size channelId,
      w.buffer.map Packet.size = (bteBufferAlloc mem (requestSize aclMtu size) aclMtu).map Packet.size := by
  have hsizes := sizes_aclHeaders connHandle bteAclBroadcastPtp (sub16 aclMtu bteAclHdrLen)
    (bteBufferAlloc mem (requestSize aclMtu size) aclMtu) bteAclPbFirstFlush ((l2capHdrLen + size) % 65536)
  simp only [aclL2capCreateMessage, bteAclCreateMessage]
  rw [← requestSize, ← bteBufferAlloc_eq_nil_iff mem (requestSize aclMtu size) aclMtu]
  generalize hps : aclHeaders connHandle bteAclBroadcastPtp (sub16 aclMtu bteAclHdrLen) bteAclPbFirstFlush
    ((l2capHdrLen + size) % 65536) (bteBufferAlloc mem (requestSize aclMtu size) aclMtu) = ps at hsizes ⊢
  cases ps with
  | nil =>
    refine ⟨iff_of_true rfl (List.map_eq_nil_iff.1 hsizes.symm), fun w hw => ?_⟩
    cases hw
  | cons p ps =>
    refine ⟨iff_of_false (by simp [aclWriter]) fun h => ?_, ?_⟩
    · rw [h] at hsizes
      cases hsizes
    · rintro w hw
      cases hw
      rw [writeL2capHeader_sizes, ← hsizes]
      rfl

theorem payloadRoom_congr {ps qs : List Packet} (h : ps.map Packet.size = qs.map Packet.size) :
    payloadRoom ps = payloadRoom qs := by
  have h' := congrArg (fun l => (l.map fun n => n - bteAclHdrLen).sum) h
  simp only [List.map_map] at h'
  exact h'

theorem payloadRoom_le {aclMtu : Nat} : ∀ {ps : List Packet}, (∀ p ∈ ps, p.size ≤ aclMtu) →
    payloadRoom ps ≤ ps.length * (aclMtu - 4)
  | [], _ => Nat.zero_le _
  | p :: ps, h => by
    have hp := h p List.mem_cons_self
    have hps := payloadRoom_le fun q hq => h q (List.mem_cons_of_mem p hq)
    simp only [payloadRoom, List.map_cons, List.sum_cons, List.length_cons, Nat.succ_mul, bteAclHdrLen] at hps ⊢
    omega

theorem payloadRoom_full {aclMtu : Nat} : ∀ {ps : List Packet}, (∀ p ∈ ps, p.size = aclMtu) →
    payloadRoom ps = ps.length * (aclMtu - 4)
  | [], _ => (Nat.zero_mul _).symm
  | p :: ps, h => by
    have hp := h p List.mem_cons_self
    have hps := payloadRoom_full fun q hq => h q (List.mem_cons_of_mem p hq)
    simp only [payloadRoom, List.map_cons, List.sum_cons, List.length_cons, Nat.succ_mul, bteAclHdrLen] at hps ⊢
    omega

/-! ## Where a size wraps around -/

section
variable {aclMtu : Nat} (hm : 4 < aclMtu) (hm' : aclMtu < 65536)
include hm

/-- The packets needed are just enough. -/
theorem packetsNeeded_spec (size : Nat) :
    messageTotal size ≤ packetsNeeded aclMtu size * (aclMtu - 4) ∧
    (packetsNeeded aclMtu size - 1) * (aclMtu - 4) < messageTotal size ∧
    0 < packetsNeeded aclMtu size ∧ packetsNeeded aclMtu size ≤ messageTotal size := by
  have hroom : 0 < aclMtu - 4 := by omega
  have hpos : 0 < messageTotal size := by unfold messageTotal l2capHdrLen; omega
  obtain ⟨h1, h2, h3⟩ := packets_needed hroom hpos
  refine ⟨h1, h2, h3, ?_⟩
  have hle := Nat.mul_le_mul_left ((messageTotal size + (aclMtu - 4) - 1) / (aclMtu - 4) - 1) hroom
  unfold packetsNeeded bteAclHdrLen
  omega

include hm'

theorem requestSize_of_lt {size : Nat} (h : messageTotal size < 65536) :
    requestSize aclMtu size = packetsNeeded aclMtu size * aclMtu % 65536 := by
  have hle := (packetsNeeded_spec hm size).2.2.2
  have hroom : sub16 aclMtu bteAclHdrLen = aclMtu - bteAclHdrLen := sub16_of_le (by unfold bteAclHdrLen; omega) hm'
  rw [requestSize, bteComputeFragmentedSize, hroom, ← messageTotal, Nat.mod_eq_of_lt h, ← packetsNeeded,
    Nat.mod_eq_of_lt (show packetsNeeded aclMtu size < 65536 by omega)]

/-- Nothing is asked for if the total is 65536, or if the packets come to a multiple of it. -/
theorem requestSize_eq_zero_iff {size : Nat} (hsize : size < 65536) :
    requestSize aclMtu size = 0 ↔
      size = 65532 ∨ (messageTotal size < 65536 ∧ 65536 ∣ packetsNeeded aclMtu size * aclMtu) := by
  by_cases ht : messageTotal size < 65536
  · have hne : size ≠ 65532 := by
      rintro rfl
      exact absurd ht (by decide)
    rw [requestSize_of_lt hm hm' ht, ← Nat.dvd_iff_mod_eq_zero]
    exact ⟨fun h => Or.inr ⟨ht, h⟩, fun h => (h.resolve_left hne).2⟩
  · have hsub : sub16 aclMtu bteAclHdrLen = aclMtu - 4 := sub16_of_le (by unfold bteAclHdrLen; omega) hm'
    obtain ⟨room, hroom⟩ : ∃ room, aclMtu - 4 = room + 1 := ⟨aclMtu - 5, by omega⟩
    obtain ⟨t, hover, hwrap⟩ : ∃ t, size = 65532 + t ∧ (l2capHdrLen + size) % 65536 = t := by
      unfold messageTotal l2capHdrLen at *
      exact ⟨size - 65532, by omega, by omega⟩
    rw [requestSize, bteComputeFragmentedSize, hsub, hwrap, hroom]
    obtain rfl | ht3 : t = 0 ∨ (1 ≤ t ∧ t ≤ 3) := by omega
    · rw [Nat.div_eq_of_lt (show 0 + (room + 1) - 1 < room + 1 by omega)]
      exact iff_of_true (by simp) (Or.inl hover)
    · refine iff_of_false ?_ (by omega)
      by_cases hbig : t ≤ room + 1
      · rw [show (t + (room + 1) - 1) / (room + 1) = 1 from Nat.div_eq_of_lt_le (by omega) (by omega)]
        omega
      · -- more packets than one only if there is room for one byte or two
        obtain ⟨rfl, rfl, rfl⟩ | ⟨rfl, rfl, rfl⟩ | ⟨rfl, rfl, rfl⟩ : (room = 0 ∧ aclMtu = 5 ∧ t = 2) ∨
            (room = 0 ∧ aclMtu = 5 ∧ t = 3) ∨ (room = 1 ∧ aclMtu = 6 ∧ t = 3) := by omega
        · decide
        · decide
        · decide

/-- The packets of a request that does not wrap around are full. -/
theorem allocated_full (mem : Nat → Nat → UInt8) {size : Nat} (ht : messageTotal size < 65536)
    (hreq : packetsNeeded aclMtu size * aclMtu < 65536) :
    (bteBufferAlloc mem (requestSize aclMtu size) aclMtu).length = packetsNeeded aclMtu size ∧
    ∀ p ∈ bteBufferAlloc mem (requestSize aclMtu size) aclMtu, p.size = aclMtu := by
  have hpos : 0 < aclMtu := by omega
  rw [requestSize_of_lt hm hm' ht, Nat.mod_eq_of_lt hreq]
  obtain ⟨hlen, hsizes⟩ := allocLoop_spec mem (packetsNeeded aclMtu size * aclMtu) hpos (packetsNeeded aclMtu size)
    (packetsNeeded aclMtu size * aclMtu) 0 (Nat.le_mul_of_pos_right _ hpos)
  exact ⟨hlen, fun p hp => (hsizes p hp).1⟩

/-- **A size that wraps around leaves too few packets** for the message, whose headers give its full length. -/
theorem wrapped_short (mem : Nat → Nat → UInt8) {connHandle size channelId : Nat} {w : BufferWriter} (hsize : size < 65536)
    (h : 65536 ≤ messageTotal size ∨ 65536 ≤ packetsNeeded aclMtu size * aclMtu)
    (hw : w ∈ aclL2capCreateMessage mem aclMtu connHandle size channelId) : payloadRoom w.buffer < messageTotal size := by
  obtain ⟨-, hneed, hpos, -⟩ := packetsNeeded_spec hm size
  have hsizes := (created_sizes mem aclMtu connHandle size channelId).2 w hw
  have hle := allocLoop_sizes mem (requestSize aclMtu size) aclMtu (requestSize aclMtu size) 0 (requestSize aclMtu size)
  have hlen := length_allocLoop_lt mem (requestSize aclMtu size) (show 0 < aclMtu by omega) (requestSize aclMtu size) 0
    (requestSize aclMtu size)
  rw [← bteBufferAlloc] at hle hlen
  have hroom := payloadRoom_le hle
  rw [← payloadRoom_congr hsizes] at hroom
  generalize (bteBufferAlloc mem (requestSize aclMtu size) aclMtu).length = k at hlen hroom
  refine Nat.lt_of_le_of_lt hroom ?_
  by_cases ht : messageTotal size < 65536
  · -- the request is smaller by 65536, so there is at least one packet less than needed
    have hwrap := h.resolve_left (Nat.not_le.2 ht)
    rw [requestSize_of_lt hm hm' ht] at hlen
    have hk : k < packetsNeeded aclMtu size := by
      refine Nat.lt_of_mul_lt_mul_right (a := aclMtu) ?_
      omega
    exact Nat.lt_of_le_of_lt (Nat.mul_le_mul_right _ (show k ≤ packetsNeeded aclMtu size - 1 by omega)) hneed
  · -- at most three bytes are asked for
    have hreq : requestSize aclMtu size ≤ ((l2capHdrLen + size) % 65536 + (aclMtu - 4) - 1) / (aclMtu - 4) * aclMtu := by
      have hsub : sub16 aclMtu bteAclHdrLen = aclMtu - 4 := sub16_of_le (by unfold bteAclHdrLen; omega) hm'
      rw [requestSize, bteComputeFragmentedSize, hsub]
      exact Nat.le_trans (Nat.mod_le _ _) (Nat.mul_le_mul_right _ (Nat.mod_le _ _))
    have hk : k ≤ ((l2capHdrLen + size) % 65536 + (aclMtu - 4) - 1) / (aclMtu - 4) := by
      refine Nat.le_of_lt_succ (Nat.lt_of_mul_lt_mul_right (a := aclMtu) ?_)
      rw [Nat.succ_mul]
      omega
    have hmul := Nat.le_trans (Nat.mul_le_mul_right (aclMtu - 4) hk) (Nat.div_mul_le_self _ _)
    unfold messageTotal l2capHdrLen at *
    omega

/-- **An outgoing message fits its packets** exactly if none of the three sums wraps around; where the request comes to
nothing, the call fails. -/
theorem fitsWhole_iff (l : BufferLayout) (mem : Nat → Nat → UInt8) (connHandle : Nat) {remoteChannelId remoteMtu size : Nat}
    (hcid : remoteChannelId ≠ 0) (hsize : size ≤ remoteMtu) (hmtu : remoteMtu < 65536) :
    (∀ w ∈ bteL2capCreateMessage mem aclMtu connHandle remoteChannelId remoteMtu size, FitsWhole l aclMtu size w) ↔
      (messageTotal size < 65536 ∧ packetsNeeded aclMtu size * aclMtu < 65536 ∧ l.sizeofBuffer + aclMtu < 65536) ∨
      size = 65532 ∨ (messageTotal size < 65536 ∧ 65536 ∣ packetsNeeded aclMtu size * aclMtu) := by
  have hcreate : bteL2capCreateMessage mem aclMtu connHandle remoteChannelId remoteMtu size =
      aclL2capCreateMessage mem aclMtu connHandle size remoteChannelId := by
    rw [bteL2capCreateMessage, if_neg (by omega)]
  obtain ⟨hnone, hsizes⟩ := created_sizes mem aclMtu connHandle size remoteChannelId
  rw [hcreate]
  have hzero := requestSize_eq_zero_iff hm hm' (show size < 65536 by omega)
  by_cases h0 : requestSize aclMtu size = 0
  · refine iff_of_true (fun w hw => ?_) (Or.inr (hzero.1 h0))
    rw [hnone.2 h0] at hw
    cases hw
  obtain ⟨w, hw⟩ := Option.ne_none_iff_exists'.1 fun h => h0 (hnone.1 h)
  have hbuffer := hsizes w hw
  rw [hw, or_iff_left fun h => h0 (hzero.2 h)]
  -- where nothing wraps around, every packet has the size of the MTU
  have hfull : messageTotal size < 65536 → packetsNeeded aclMtu size * aclMtu < 65536 →
      w.buffer.length = packetsNeeded aclMtu size ∧ ∀ p ∈ w.buffer, p.size = aclMtu := by
    intro ht hreq
    obtain ⟨hlen, hall⟩ := allocated_full hm hm' mem ht hreq
    refine ⟨?_, fun p hp => ?_⟩
    · rw [← hlen, ← List.length_map Packet.size, hbuffer, List.length_map]
    · obtain ⟨q, hq, heq⟩ := List.mem_map.1 (hbuffer ▸ List.mem_map_of_mem hp)
      rw [← heq, hall q hq]
  have hneed := (packetsNeeded_spec hm size).1
  constructor
  · intro h
    have hfit := h w rfl
    obtain ⟨-, hall⟩ := hfull hfit.total hfit.request
    exact ⟨hfit.total, hfit.request, (forall_holds_iff l w.buffer_ne_nil hall).1 hfit.allocated⟩
  · rintro ⟨ht, hreq, hheld⟩ _ hmem
    cases hmem
    obtain ⟨hlen, hall⟩ := hfull ht hreq
    refine ⟨ht, hreq, (forall_holds_iff l w.buffer_ne_nil hall).2 hheld, ?_⟩
    rw [payloadRoom_full hall, hlen]
    exact hneed

end

/-- On a build that aligns its buffers and an MTU of 27, a message of 1000 bytes fits and one of 60000 does not. -/
theorem fitsWhole_iff_mtu27 :
    (∀ w ∈ bteL2capCreateMessage (fun _ _ => 0) 27 0x42 0x40 65535 1000, FitsWhole ⟨32, true⟩ 27 1000 w) ∧
    ¬ ∀ w ∈ bteL2capCreateMessage (fun _ _ => 0) 27 0x42 0x40 65535 60000, FitsWhole ⟨32, true⟩ 27 60000 w := by
  refine ⟨?_, ?_⟩
  · rw [fitsWhole_iff (by decide) (by decide) _ _ _ (by decide) (by decide) (by decide)]
    decide
  · rw [fitsWhole_iff (by decide) (by decide) _ _ _ (by decide) (by decide) (by decide)]
    decide

/-- With a remote MTU of 65535 and an ACL MTU of 27, 60000 bytes take 2609 packets: the request wraps around, and the
message is created over packets that do not hold it.  With 65533 bytes, the total wraps around to one. -/
theorem not_fitsWhole :
    (∃ w, bteL2capCreateMessage (fun _ _ => 0) 27 0x42 0x40 65535 60000 = some w ∧
      payloadRoom w.buffer < messageTotal 60000 ∧ ¬ FitsWhole ⟨32, true⟩ 27 60000 w) ∧
    ∃ w, bteL2capCreateMessage (fun _ _ => 0) 27 0x42 0x40 65535 65533 = some w ∧
      payloadRoom w.buffer < messageTotal 65533 ∧ ¬ FitsWhole ⟨32, true⟩ 27 65533 w := by
  have hshort : ∀ size < 65536, requestSize 27 size ≠ 0 →
      (65536 ≤ messageTotal size ∨ 65536 ≤ packetsNeeded 27 size * 27) →
      ∃ w, bteL2capCreateMessage (fun _ _ => 0) 27 0x42 0x40 65535 size = some w ∧
        payloadRoom w.buffer < messageTotal size ∧ ¬ FitsWhole ⟨32, true⟩ 27 size w := by
    intro size hsize hreq hwrap
    obtain ⟨w, hw⟩ := Option.ne_none_iff_exists'.1 fun h => hreq ((created_sizes (fun _ _ => 0) 27 0x42 size 0x40).1.1 h)
    have hpayload := wrapped_short (by decide) (by decide) _ hsize hwrap hw
    refine ⟨w, ?_, hpayload, fun h => Nat.not_le.2 hpayload h.payload⟩
    rw [bteL2capCreateMessage, if_neg (by omega)]
    exact hw
  exact ⟨hshort 60000 (by decide) (by decide) (Or.inr (by decide)),
    hshort 65533 (by decide) (by decide) (Or.inl (by decide))⟩

end Bte
