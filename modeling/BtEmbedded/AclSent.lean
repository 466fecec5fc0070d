import BtEmbedded.AclQueue
/-!
# AclSent — what the sender of a message is told (acl.c, hci_dev.c)

A pass over the queue serves every message that waits there, and its result goes to the sender of the last one.  A refused
packet costs a credit like any other, and the refusal of any packet is reported as the refusal of the message; its own
packets are counted on a list that the pass has taken apart.
-/
namespace Bte

/-! ## The packets of a pass -/

theorem handed_eq (rc : Nat → Int) :
    ∀ (q : List Packet) (k available : Nat),
      (sendLoop rc k q available).handed = (q.take available).mapIdx fun i b => (b, rc (k + i))
  | [], _, available => by cases available <;> rfl
  | b :: next, _, 0 => rfl
  | b :: next, k, available + 1 => by
    have hnext := handed_eq rc next (k + 1) available
    have hshift : (fun i (b : Packet) => (b, rc (k + 1 + i))) = fun i b => (b, rc (k + (i + 1))) := by
      funext i b
      rw [Nat.add_right_comm, Nat.add_assoc]
    simp only [sendLoop, List.take_succ_cons, List.mapIdx_cons, hnext, hshift, Nat.add_zero]

/-- What a pass hands over, with the backend's answer to each packet. -/
def AclOut.handed (rc : Nat → Int) (dev : AclOut) : List (Packet × Int) :=
  (sendLoop rc dev.calls dev.outgoingAclPackets dev.aclAvailablePackets).handed

/-- The packets of the message that its sending hands over: those behind what was queued before it. -/
def AclOut.handedOwn (rc : Nat → Int) (dev : AclOut) (buffer : List Packet) : List (Packet × Int) :=
  ((dev.enqueue buffer).handed rc).drop dev.outgoingAclPackets.length

section Pass
variable (rc : Nat → Int) (dev : AclOut) (buffer : List Packet)

theorem length_handed : (dev.handed rc).length = min dev.aclAvailablePackets dev.outgoingAclPackets.length := by
  simp [AclOut.handed, handed_eq]

theorem handed_get (i : Nat) (hi : i < (dev.handed rc).length) : ((dev.handed rc).get ⟨i, hi⟩).2 = rc (dev.calls + i) := by
  simp [AclOut.handed, handed_eq]

theorem length_enqueue :
    (dev.enqueue buffer).outgoingAclPackets.length = dev.outgoingAclPackets.length + buffer.length :=
  length_bufferAppend ..

theorem length_handedOwn : (dev.handedOwn rc buffer).length =
    min dev.aclAvailablePackets (dev.outgoingAclPackets.length + buffer.length) - dev.outgoingAclPackets.length := by
  have havailable : (dev.enqueue buffer).aclAvailablePackets = dev.aclAvailablePackets := rfl
  rw [AclOut.handedOwn, List.length_drop, length_handed, length_enqueue, havailable]

theorem available_sent : (bteHciSendQueuedData rc dev).2.aclAvailablePackets + (dev.handed rc).length =
    dev.aclAvailablePackets := by
  rw [Nat.add_comm]
  exact sendLoop_credit rc dev.outgoingAclPackets dev.calls dev.aclAvailablePackets

theorem length_sent : (bteHciSendQueuedData rc dev).2.outgoingAclPackets.length =
    dev.outgoingAclPackets.length - (dev.handed rc).length := by
  have hqueue := congrArg List.length (sendLoop_queue rc dev.outgoingAclPackets dev.calls dev.aclAvailablePackets)
  rw [List.length_append, List.length_map] at hqueue
  show (sendLoop rc dev.calls dev.outgoingAclPackets dev.aclAvailablePackets).next.length = _
  have hhanded : (dev.handed rc).length =
    (sendLoop rc dev.calls dev.outgoingAclPackets dev.aclAvailablePackets).handed.length := rfl
  omega

/-- The result of a pass is negative when any packet was refused. -/
theorem result_neg_iff : (bteHciSendQueuedData rc dev).1 < 0 ↔ ∃ x ∈ dev.handed rc, x.2 < 0 := by
  have hresult : (bteHciSendQueuedData rc dev).1 =
      if (dev.handed rc).countP (fun x => x.2 < 0) = 0 then ((dev.handed rc).length : Int)
      else -((dev.handed rc).countP fun x => x.2 < 0) := rfl
  rw [hresult]
  split
  case isTrue hzero =>
    have hnone : ∀ x ∈ dev.handed rc, ¬ x.2 < 0 := by simpa [List.countP_eq_zero] using hzero
    refine iff_of_false (by omega) ?_
    rintro ⟨x, hx, hneg⟩
    exact hnone x hx hneg
  case isFalse hsome =>
    refine iff_of_true (by omega) ?_
    simpa [List.countP_eq_zero] using hsome

/-- A packet of the pass is refused when one of the backend's answers to it is a refusal. -/
theorem refused_handed_iff : (∃ x ∈ dev.handed rc, x.2 < 0) ↔
    ∃ i < min dev.aclAvailablePackets dev.outgoingAclPackets.length, rc (dev.calls + i) < 0 := by
  rw [← length_handed rc dev]
  constructor
  · rintro ⟨x, hx, hneg⟩
    obtain ⟨⟨i, hi⟩, rfl⟩ := List.mem_iff_get.1 hx
    rw [handed_get] at hneg
    exact ⟨i, hi, hneg⟩
  · rintro ⟨i, hi, hneg⟩
    refine ⟨(dev.handed rc).get ⟨i, hi⟩, List.get_mem .., ?_⟩
    rwa [handed_get]

theorem sendMessage_neg_iff :
    (bteAclSendMessage rc dev buffer).1 < 0 ↔ ∃ x ∈ (dev.enqueue buffer).handed rc, x.2 < 0 := by
  rw [← result_neg_iff]
  unfold bteAclSendMessage
  simp only
  split
  case isTrue hneg => rfl
  case isFalse hnneg =>
    refine iff_of_false ?_ hnneg
    dsimp only
    split <;> omega

end Pass

/-! ## A refused packet -/

/-- The credits went down by the number of packets that the backend accepted. -/
def CreditsExact (rc : Nat → Int) (dev : AclOut) : Prop :=
  (bteHciSendQueuedData rc dev).2.aclAvailablePackets + (dev.handed rc).countP (fun x => 0 ≤ x.2) =
    dev.aclAvailablePackets

/-- A sender is told of a refusal when a packet of its message was refused, and only then. -/
def RefusalExact (rc : Nat → Int) (dev : AclOut) (buffer : List Packet) : Prop :=
  (bteAclSendMessage rc dev buffer).1 < 0 ↔ ∃ x ∈ dev.handedOwn rc buffer, x.2 < 0

instance (rc : Nat → Int) (dev : AclOut) : Decidable (CreditsExact rc dev) := inferInstanceAs (Decidable (_ = _))

instance (rc : Nat → Int) (dev : AclOut) (buffer : List Packet) : Decidable (RefusalExact rc dev buffer) :=
  inferInstanceAs (Decidable (_ ↔ _))

theorem creditsExact_iff (rc : Nat → Int) (dev : AclOut) :
    CreditsExact rc dev ↔
      ∀ i < min dev.aclAvailablePackets dev.outgoingAclPackets.length, 0 ≤ rc (dev.calls + i) := by
  have hspent := available_sent rc dev
  have hcount : (dev.handed rc).countP (fun x => 0 ≤ x.2) = (dev.handed rc).length ↔ ¬ ∃ x ∈ dev.handed rc, x.2 < 0 := by
    simp [List.countP_eq_length]
  have hnone : CreditsExact rc dev ↔ ¬ ∃ x ∈ dev.handed rc, x.2 < 0 := by
    rw [← hcount]
    unfold CreditsExact
    constructor <;> intro h <;> omega
  rw [hnone, refused_handed_iff]
  push Not
  rfl

/-- The packets of the message are handed over by the calls after those for the packets queued before it. -/
theorem refusedOwn_iff (rc : Nat → Int) (dev : AclOut) (buffer : List Packet) :
    (∃ x ∈ dev.handedOwn rc buffer, x.2 < 0) ↔
      ∃ i, dev.outgoingAclPackets.length ≤ i ∧
        i < min dev.aclAvailablePackets (dev.outgoingAclPackets.length + buffer.length) ∧ rc (dev.calls + i) < 0 := by
  have hlen : ((dev.enqueue buffer).handed rc).length =
      min dev.aclAvailablePackets (dev.outgoingAclPackets.length + buffer.length) := by
    rw [length_handed, length_enqueue]
    rfl
  constructor
  · rintro ⟨x, hx, hneg⟩
    obtain ⟨j, hj, rfl⟩ := List.mem_iff_getElem.1 hx
    rw [AclOut.handedOwn, List.length_drop, hlen] at hj
    have hget := handed_get rc (dev.enqueue buffer) (dev.outgoingAclPackets.length + j) (by omega)
    rw [List.get_eq_getElem] at hget
    simp only [AclOut.handedOwn, List.getElem_drop, hget] at hneg
    exact ⟨dev.outgoingAclPackets.length + j, Nat.le_add_right .., by omega, hneg⟩
  · rintro ⟨i, hle, hlt, hneg⟩
    have hi : i < ((dev.enqueue buffer).handed rc).length := by omega
    refine ⟨((dev.enqueue buffer).handed rc).get ⟨i, hi⟩, ?_, ?_⟩
    · rw [AclOut.handedOwn, List.mem_drop_iff_getElem]
      refine ⟨i - dev.outgoingAclPackets.length, by omega, ?_⟩
      simp [Nat.add_sub_cancel' hle]
    · rw [handed_get]
      exact hneg

/-- **A refused packet costs a credit like any other, and its refusal is told to whoever sends next**: the credits go down
by the number of accepted packets when none was refused, and a refusal is told to the sender it concerns when none of the
packets queued before its message was refused, or one of its own was too. -/
theorem refused_iff (rc : Nat → Int) (dev : AclOut) (buffer : List Packet) :
    (CreditsExact rc dev ↔
      ∀ i < min dev.aclAvailablePackets dev.outgoingAclPackets.length, 0 ≤ rc (dev.calls + i)) ∧
    (RefusalExact rc dev buffer ↔
      (∀ i < min dev.aclAvailablePackets dev.outgoingAclPackets.length, 0 ≤ rc (dev.calls + i)) ∨
      ∃ i, dev.outgoingAclPackets.length ≤ i ∧
        i < min dev.aclAvailablePackets (dev.outgoingAclPackets.length + buffer.length) ∧ rc (dev.calls + i) < 0) := by
  refine ⟨creditsExact_iff rc dev, ?_⟩
  have hany : (∃ x ∈ (dev.enqueue buffer).handed rc, x.2 < 0) ↔
      ∃ i < min dev.aclAvailablePackets (dev.outgoingAclPackets.length + buffer.length), rc (dev.calls + i) < 0 := by
    rw [refused_handed_iff, length_enqueue]
    rfl
  unfold RefusalExact
  rw [sendMessage_neg_iff, hany, refusedOwn_iff]
  constructor
  · intro htold
    by_cases hold : ∃ i < min dev.aclAvailablePackets dev.outgoingAclPackets.length, rc (dev.calls + i) < 0
    · obtain ⟨i, hi, hneg⟩ := hold
      exact .inr (htold.1 ⟨i, by omega, hneg⟩)
    · push Not at hold
      exact .inl hold
  · rintro (hold | hown)
    · constructor
      · rintro ⟨i, hi, hneg⟩
        refine ⟨i, Nat.le_of_not_lt fun hlt => ?_, hi, hneg⟩
        have hnneg := hold i (by omega)
        omega
      · rintro ⟨i, _, hi, hneg⟩
        exact ⟨i, hi, hneg⟩
    · refine iff_of_true ?_ hown
      obtain ⟨i, _, hi, hneg⟩ := hown
      exact ⟨i, hi, hneg⟩

/-- One credit, and a packet of an earlier message in the queue. -/
def behindOne : AclOut := ⟨1, 1, [smallPacket 0x42 1], 0, []⟩

/-- The backend refuses the first packet it is given. -/
def refuseFirst : Nat → Int := fun k => if k = 0 then -1 else 0

/-- The refused packet has used the credit, and the sender of another message is told. -/
theorem refused_not_exact :
    ¬ CreditsExact refuseFirst behindOne ∧ ¬ RefusalExact refuseFirst behindOne [smallPacket 0x43 2] ∧
      behindOne.handedOwn refuseFirst [smallPacket 0x43 2] = [] := by
  decide

/-! ## What is sent of a message -/

/-- The result is the number of packets of the message handed over, and zero when all of them are still queued. -/
def CountTruthful (rc : Nat → Int) (dev : AclOut) (buffer : List Packet) : Prop :=
  (bteAclSendMessage rc dev buffer).1 = (dev.handedOwn rc buffer).length ∧
    ((bteAclSendMessage rc dev buffer).1 = 0 ↔ dev.handedOwn rc buffer = [])

instance (rc : Nat → Int) (dev : AclOut) (buffer : List Packet) : Decidable (CountTruthful rc dev buffer) :=
  inferInstanceAs (Decidable (_ ∧ (_ ↔ _)))

/-- The result, when no packet is refused: one for a message of which nothing is left in the queue and some was. -/
theorem sendMessage_accepted {rc : Nat → Int} {dev : AclOut} {buffer : List Packet}
    (hrc : ∀ i < min dev.aclAvailablePackets (dev.outgoingAclPackets.length + buffer.length), 0 ≤ rc (dev.calls + i)) :
    (bteAclSendMessage rc dev buffer).1 =
      if dev.outgoingAclPackets.length + buffer.length ≤ dev.aclAvailablePackets ∧ 0 < buffer.length then 1 else 0 := by
  have havailable : (dev.enqueue buffer).aclAvailablePackets = dev.aclAvailablePackets := rfl
  have hnneg : ¬ (bteHciSendQueuedData rc (dev.enqueue buffer)).1 < 0 := by
    rw [result_neg_iff, refused_handed_iff, length_enqueue]
    rintro ⟨i, hi, hneg⟩
    have h := hrc i hi
    exact absurd (lt_of_le_of_lt h hneg) (lt_irrefl 0)
  have hleft := length_sent rc (dev.enqueue buffer)
  rw [length_handed, length_enqueue, havailable] at hleft
  unfold bteAclSendMessage
  simp only [hnneg, if_false, hleft]
  split_ifs <;> omega

/-- **The count of a message is right for a single packet**, and for a message that must wait whole: of a longer one whose
first packet is handed over, the head alone is still counted, so that the result is one when all is gone and zero else. -/
theorem sendMessage_truthful_iff (rc : Nat → Int) (hrc : ∀ k, 0 ≤ rc k) (dev : AclOut) (buffer : List Packet) :
    CountTruthful rc dev buffer ↔
      dev.aclAvailablePackets ≤ dev.outgoingAclPackets.length ∨ buffer.length ≤ 1 := by
  have hown := length_handedOwn rc dev buffer
  have hnone : dev.handedOwn rc buffer = [] ↔ (dev.handedOwn rc buffer).length = 0 := List.length_eq_zero_iff.symm
  unfold CountTruthful
  rw [hnone, sendMessage_accepted fun i _ => hrc _, hown]
  constructor
  · rintro ⟨hcount, hzero⟩
    split_ifs at hcount hzero <;> omega
  · intro hfew
    split_ifs <;> constructor <;> omega

/-- Two packets for the one credit of an empty queue: one of them is handed over, and the result is zero. -/
theorem sendMessage_not_truthful :
    ¬ CountTruthful (fun _ => 0) ⟨1, 1, [], 0, []⟩ [smallPacket 0x42 1, smallPacket 0x42 2] := by
  decide

theorem sendMessage_truthful_iff_behindOne :
    CountTruthful (fun _ => 0) behindOne [smallPacket 0x43 2, smallPacket 0x43 3] :=
  (sendMessage_truthful_iff (fun _ => 0) (fun _ => le_refl 0) behindOne _).2 (.inl (by decide))

end Bte
