import BtEmbedded.AclQueue
/-!
# AclCredit — the credits of the controller's buffers

The controller holds every packet it was handed until it reports it completed; when a connection is closed it drops the
packets of that connection and never reports them.  `AclSystem` is the device together with what the controller holds.
Each buffer is either free, and counted in `acl_available_packets`, or holds a packet of an open connection: this is
`CreditLaw`.  A disconnection frees buffers that nobody counts, so the law holds in a run exactly when no connection
is closed with packets in flight (`creditLaw_iff`).
-/
namespace Bte

open Bytes

/-! ## The device and the controller -/

structure AclSystem where
  link : AclLink
  held : List Packet

/-- The controller is done with the first `n` packets of a connection. -/
def release (connHandle : Nat) : Nat → List Packet → List Packet
  | _, [] => []
  | n, p :: held =>
    if addressed connHandle p.content = true ∧ n ≠ 0 then release connHandle (n - 1) held
    else p :: release connHandle n held

def releaseAll (held : List Packet) (records : List (Nat × Nat)) : List Packet :=
  records.foldl (fun held r => release r.1 r.2 held) held

/-- The packets handed to the backend between two states of the device. -/
def handedBetween (s s' : AclLink) : List Packet :=
  (s'.out.trace.drop s.out.trace.length).filterMap AclEvent.handedPacket

/-- What the controller still holds of what it had, when the operation happens. -/
def AclOp.kept (held : List Packet) : AclOp → List Packet
  | .completedPackets event => releaseAll held (completedRecords event)
  | .disconnectionComplete connHandle => held.filter fun p => !addressed connHandle p.content
  | _ => held

def AclSystem.step (rc : Nat → Int) (s : AclSystem) (op : AclOp) : AclSystem :=
  { link := s.link.step rc op
    held := op.kept s.held ++ handedBetween s.link (s.link.step rc op) }

/-- The packet belongs to a connection that is open. -/
def AclLink.onOpen (s : AclLink) (p : Packet) : Prop := ∃ i h, s.acls i = some h ∧ addressed h p.content = true

instance (s : AclLink) (p : Packet) : Decidable (s.onOpen p) :=
  decidable_of_iff ((List.finRange 7).any fun i => (s.acls i).any fun h => addressed h p.content) <| by
    simp [AclLink.onOpen, Option.any_eq_true]

/-- **Every buffer of the controller is accounted for.** -/
def CreditLaw (s : AclSystem) : Prop :=
  s.link.out.aclAvailablePackets + (s.held.filter fun p => s.link.onOpen p).length = s.link.out.aclMaxPackets

instance (s : AclSystem) : Decidable (CreditLaw s) := inferInstanceAs (Decidable (_ = _))

/-- Each record reports packets that the controller holds. -/
def Reportable : List Packet → List (Nat × Nat) → Prop
  | _, [] => True
  | held, (h, n) :: rs => n ≤ (held.filter fun p => addressed h p.content).length ∧ Reportable (release h n held) rs

instance decidableReportable : ∀ (held : List Packet) (rs : List (Nat × Nat)), Decidable (Reportable held rs)
  | _, [] => .isTrue trivial
  | held, (h, n) :: rs =>
    have := decidableReportable (release h n held) rs
    inferInstanceAs (Decidable (_ ∧ _))

/-- What the environment promises: a new connection has a handle of its own, a message is sent on an open connection, and
the controller reports packets it holds.  The ACL of an open connection is not freed. -/
def AclOp.Regular (s : AclSystem) : AclOp → Prop
  | .connected i h => s.link.acls i = none ∧ ∀ j, s.link.acls j ≠ some h
  | .sendMessage buffer => ∃ i h, s.link.acls i = some h ∧ ∀ p ∈ buffer, addressed h p.content = true
  | .completedPackets event => Reportable s.held (completedRecords event)
  | .disconnectionComplete _ => True
  | .free _ => False

/-- No packet of the connection is in flight when it is closed. -/
def AclOp.Quiet (s : AclSystem) : AclOp → Prop
  | .disconnectionComplete h => ∀ p ∈ s.held, addressed h p.content = false
  | _ => True

/-! ## What the controller releases -/

theorem release_sublist (h : Nat) : ∀ (held : List Packet) (n : Nat), (release h n held).Sublist held
  | [], _ => .slnil
  | p :: held, n => by
    unfold release
    split
    · exact (release_sublist h held (n - 1)).cons p
    · exact (release_sublist h held n).cons_cons p

theorem length_release (h : Nat) :
    ∀ (held : List Packet) (n : Nat), n ≤ (held.filter fun p => addressed h p.content).length →
      (release h n held).length + n = held.length
  | [], n, hn => by simpa [release] using hn
  | p :: held, n, hn => by
    unfold release
    split
    · rename_i hp
      have ih := length_release h held (n - 1) (by
        rw [List.filter_cons, if_pos hp.1, List.length_cons] at hn
        omega)
      rw [List.length_cons]
      omega
    · rename_i hp
      have ih := length_release h held n (by
        by_cases ha : addressed h p.content = true
        · have : n = 0 := by
            by_contra h0
            exact hp ⟨ha, h0⟩
          omega
        · rwa [List.filter_cons, if_neg ha] at hn)
      rw [List.length_cons, List.length_cons]
      omega

theorem releaseAll_sublist : ∀ (rs : List (Nat × Nat)) (held : List Packet), (releaseAll held rs).Sublist held
  | [], held => List.Sublist.refl held
  | (h, n) :: rs, held => (releaseAll_sublist rs (release h n held)).trans (release_sublist h held n)

theorem length_releaseAll : ∀ (rs : List (Nat × Nat)) (held : List Packet), Reportable held rs →
    (releaseAll held rs).length + (rs.map Prod.snd).sum = held.length
  | [], held, _ => rfl
  | (h, n) :: rs, held, hr => by
    have h1 := length_release h held n hr.1
    have h2 := length_releaseAll rs (release h n held) hr.2
    rw [List.map_cons, List.sum_cons]
    simp only [releaseAll, List.foldl_cons] at h2 ⊢
    omega

/-! ## The invariant of the credits -/

structure CreditInv (s : AclSystem) : Prop where
  counted : s.link.out.aclAvailablePackets + s.held.length = s.link.out.aclMaxPackets
  held : ∀ p ∈ s.held, s.link.onOpen p
  queued : ∀ p ∈ s.link.out.outgoingAclPackets, s.link.onOpen p
  handles : ∀ i j h, s.link.acls i = some h → s.link.acls j = some h → i = j
  width : s.link.out.aclMaxPackets < 65536

theorem creditLaw_of_inv {s : AclSystem} (hs : CreditInv s) : CreditLaw s := by
  have hall : (s.held.filter fun p => s.link.onOpen p) = s.held := by
    rw [List.filter_eq_self]
    exact fun p hp => decide_eq_true (hs.held p hp)
  rw [CreditLaw, hall]
  exact hs.counted

/-- What a pass over the queue moves to the controller. -/
theorem pass_handedBetween (rc : Nat → Int) {s : AclLink} {dev : AclOut} {evs : List AclEvent}
    (htrace : dev.trace = s.out.trace ++ evs) (hevs : evs.filterMap AclEvent.handedPacket = [])
    (acls : Fin 7 → Option Nat) :
    dev.outgoingAclPackets = handedBetween s ⟨acls, (bteHciSendQueuedData rc dev).2⟩ ++
      (bteHciSendQueuedData rc dev).2.outgoingAclPackets ∧
    (bteHciSendQueuedData rc dev).2.aclAvailablePackets +
      (handedBetween s ⟨acls, (bteHciSendQueuedData rc dev).2⟩).length = dev.aclAvailablePackets := by
  obtain ⟨handed, hq, hc, _, htr, _⟩ := sendQueuedData_spec rc dev
  have hb : handedBetween s ⟨acls, (bteHciSendQueuedData rc dev).2⟩ = handed.map Prod.fst := by
    simp only [handedBetween, htr, htrace, List.append_assoc]
    rw [List.drop_left, List.filterMap_append, hevs, List.nil_append, filterMap_handedPacket]
  rw [hb, List.length_map]
  exact ⟨hq, hc⟩

/-- The packets a pass takes from the queue are counted where they go. -/
theorem creditInv_of_pass (rc : Nat → Int) {s : AclSystem} (hs : CreditInv s) {dev : AclOut} {kept : List Packet}
    (evs : List AclEvent) (htrace : dev.trace = s.link.out.trace ++ evs)
    (hevs : evs.filterMap AclEvent.handedPacket = []) (hmax : dev.aclMaxPackets = s.link.out.aclMaxPackets)
    (hcount : dev.aclAvailablePackets + kept.length = s.link.out.aclMaxPackets) (hkept : ∀ p ∈ kept, s.link.onOpen p)
    (hqueue : ∀ p ∈ dev.outgoingAclPackets, s.link.onOpen p) :
    CreditInv ⟨⟨s.link.acls, (bteHciSendQueuedData rc dev).2⟩,
      kept ++ handedBetween s.link ⟨s.link.acls, (bteHciSendQueuedData rc dev).2⟩⟩ := by
  obtain ⟨hq, hc⟩ := pass_handedBetween rc htrace hevs s.link.acls
  have hm : (bteHciSendQueuedData rc dev).2.aclMaxPackets = s.link.out.aclMaxPackets := hmax
  refine ⟨?_, ?_, ?_, hs.handles, ?_⟩
  · simp only [List.length_append, hm]
    omega
  · intro p hp
    rcases List.mem_append.1 hp with hp | hp
    · exact hkept p hp
    · exact hqueue p (by rw [hq]; exact List.mem_append_left _ hp)
  · intro p hp
    exact hqueue p (by rw [hq]; exact List.mem_append_right _ hp)
  · rw [hm]
    exact hs.width

theorem mem_bufferAppend {ps qs : List Packet} {p : Packet} (hp : p ∈ bteBufferAppend ps qs) :
    ∃ q ∈ ps ++ qs, q.content = p.content := by
  cases ps with
  | nil => exact ⟨p, hp, rfl⟩
  | cons a ps =>
    cases qs with
    | nil => exact ⟨p, by simpa [bteBufferAppend] using hp, rfl⟩
    | cons b qs =>
      rcases List.mem_cons.1 hp with rfl | hp
      · exact ⟨a, by simp, rfl⟩
      · exact ⟨p, List.mem_cons_of_mem a hp, rfl⟩

theorem onOpen_of_content {s : AclLink} {p q : Packet} (h : q.content = p.content) (hq : s.onOpen q) : s.onOpen p := by
  unfold AclLink.onOpen at hq ⊢
  rwa [h] at hq

/-- Closing a connection takes its packets out of the queue; those of the others stay on open connections. -/
theorem onOpen_disconnected {s : AclLink} {i : Fin 7} {h : Nat} (hi : s.acls i = some h) {p : Packet}
    (hp : s.onOpen p) (hne : addressed h p.content = false) : (bteAclDisconnected s i h).onOpen p := by
  obtain ⟨j, h', hj, ha⟩ := hp
  have hji : j ≠ i := by
    rintro rfl
    rw [hi, Option.some.injEq] at hj
    rw [← hj, hne] at ha
    cases ha
  exact ⟨j, h', by rw [acls_disconnected, Function.update_of_ne hji, hj], ha⟩

theorem handedBetween_disconnected (s : AclLink) (i : Fin 7) (h : Nat) :
    handedBetween s (bteAclDisconnected s i h) = [] := by
  simp only [handedBetween, bteAclDisconnected, List.drop_left]
  rfl

theorem findConnHandle_some {s : AclLink} {h : Nat} {i : Fin 7} (hf : findConnHandle s h = some i) :
    s.acls i = some h := by
  simpa using List.find?_some hf

theorem findConnHandle_none {s : AclLink} {h : Nat} (hf : findConnHandle s h = none) : ∀ i, s.acls i ≠ some h := by
  intro i
  simpa using List.find?_eq_none.1 hf i (List.mem_finRange i)

/-- A packet on an open connection is not addressed to a handle that none has. -/
theorem onOpen_not_addressed {s : AclLink} {h : Nat} (hf : findConnHandle s h = none) {p : Packet} (hp : s.onOpen p) :
    addressed h p.content = false := by
  obtain ⟨i, h', hi, ha⟩ := hp
  apply addressed_ne _ ha
  rintro rfl
  exact findConnHandle_none hf i hi

theorem creditInv_connected {s : AclSystem} (hs : CreditInv s) (rc : Nat → Int) {i : Fin 7} {h : Nat}
    (hi : s.link.acls i = none) (hnew : ∀ j, s.link.acls j ≠ some h) : CreditInv (s.step rc (.connected i h)) := by
  have hopen : ∀ p, s.link.onOpen p → (s.link.step rc (.connected i h)).onOpen p := by
    rintro p ⟨j, h', hj, ha⟩
    have hji : j ≠ i := by
      rintro rfl
      rw [hi] at hj
      cases hj
    exact ⟨j, h', (Function.update_of_ne hji _ _).trans hj, ha⟩
  have hheld : (s.step rc (.connected i h)).held = s.held := by
    simp [AclSystem.step, AclOp.kept, AclLink.step, handedBetween]
  refine ⟨?_, ?_, fun p hp => hopen p (hs.queued p hp), ?_, hs.width⟩
  · rw [hheld]
    exact hs.counted
  · rw [hheld]
    exact fun p hp => hopen p (hs.held p hp)
  · intro j k h' hj hk
    simp only [AclSystem.step, AclLink.step, Function.update_apply] at hj hk
    split at hj <;> split at hk
    · rename_i hji hki
      exact hji.trans hki.symm
    · cases hj
      exact absurd hk (hnew k)
    · cases hk
      exact absurd hj (hnew j)
    · exact hs.handles j k h' hj hk

theorem creditInv_disconnected {s : AclSystem} (hs : CreditInv s) (rc : Nat → Int) {h : Nat}
    (hquiet : ∀ p ∈ s.held, addressed h p.content = false) : CreditInv (s.step rc (.disconnectionComplete h)) := by
  have hkept : (s.held.filter fun p => !addressed h p.content) = s.held := by
    rw [List.filter_eq_self]
    exact fun p hp => by rw [hquiet p hp]; rfl
  simp only [AclSystem.step, AclOp.kept, hkept, AclLink.step]
  cases hf : findConnHandle s.link h with
  | none =>
    have h0 : handedBetween s.link s.link = [] := by simp [handedBetween]
    simpa only [h0, List.append_nil] using hs
  | some i =>
    have hi := findConnHandle_some hf
    simp only [handedBetween_disconnected, List.append_nil]
    refine ⟨hs.counted, fun p hp => onOpen_disconnected hi (hs.held p hp) (hquiet p hp), ?_, ?_, hs.width⟩
    · intro p hp
      simp only [bteAclDisconnected, cancelOutgoing_eq, List.mem_filter, Bool.not_eq_true'] at hp
      exact onOpen_disconnected hi (hs.queued p hp.1) hp.2
    · intro j k h' hj hk
      have hold : ∀ j, (bteAclDisconnected s.link i h).acls j = some h' → s.link.acls j = some h' := by
        intro j hj
        by_cases hji : j = i
        · simp [hji] at hj
        · rwa [acls_disconnected, Function.update_of_ne hji] at hj
      exact hs.handles j k h' (hold j hj) (hold k hk)

/-- **One step keeps the credits counted** unless it closes a connection that has packets in flight. -/
theorem creditInv_step (rc : Nat → Int) {s : AclSystem} {op : AclOp} (hs : CreditInv s) (hreg : op.Regular s)
    (hquiet : op.Quiet s) : CreditInv (s.step rc op) := by
  cases op with
  | connected i h => exact creditInv_connected hs rc hreg.1 hreg.2
  | sendMessage buffer =>
    obtain ⟨i, h, hi, hbuf⟩ := hreg
    simp only [AclSystem.step, AclOp.kept, AclLink.step, sendMessage_state]
    refine creditInv_of_pass rc hs (buffer.map .submitted) rfl (filterMap_map_none (fun _ => rfl) _) rfl
      hs.counted hs.held ?_
    intro p hp
    obtain ⟨q, hq, hqp⟩ := mem_bufferAppend hp
    apply onOpen_of_content hqp
    rcases List.mem_append.1 hq with hq | hq
    · exact hs.queued q hq
    · exact ⟨i, h, hi, hbuf q hq⟩
  | completedPackets event =>
    have hlen := length_releaseAll (completedRecords event) s.held hreg
    have hsub := releaseAll_sublist (completedRecords event) s.held
    have hcount := hs.counted
    have hw := hs.width
    simp only [AclSystem.step, AclOp.kept, AclLink.step, nrOfCompletedPacketsEventCb, bteHciDevOnCompletedPackets]
    refine creditInv_of_pass rc hs ((completedRecords event).map fun r => .completed r.2) rfl
      (filterMap_map_none (fun _ => rfl) _) rfl ?_ (fun p hp => hs.held p (hsub.subset hp)) hs.queued
    have hsum : (completedRecords event).foldl (fun n r => (n + r.2) % 65536) 0 = reportedTotal event % 65536 := by
      have h := foldl_mod_eq (completedRecords event) 0
      rwa [Nat.zero_mod, Nat.zero_add] at h
    simp only [hsum]
    unfold reportedTotal
    omega
  | disconnectionComplete h => exact creditInv_disconnected hs rc hquiet
  | free i => exact hreg.elim

/-- If the law survives a step then no connection was closed with packets in flight. -/
theorem quiet_of_creditLaw (rc : Nat → Int) {s : AclSystem} {op : AclOp} (hs : CreditInv s)
    (hlaw : CreditLaw (s.step rc op)) : op.Quiet s := by
  cases op with
  | connected i h => exact trivial
  | sendMessage buffer => exact trivial
  | completedPackets event => exact trivial
  | free i => exact trivial
  | disconnectionComplete h =>
    cases hf : findConnHandle s.link h with
    | none => exact fun p hp => onOpen_not_addressed hf (hs.held p hp)
    | some i =>
      have hstep : s.step rc (.disconnectionComplete h) =
          ⟨bteAclDisconnected s.link i h, s.held.filter fun p => !addressed h p.content⟩ := by
        simp [AclSystem.step, AclOp.kept, AclLink.step, hf, handedBetween_disconnected]
      rw [hstep] at hlaw
      have hcount := hs.counted
      have hle := List.length_filter_le (fun p => decide ((bteAclDisconnected s.link i h).onOpen p))
        (s.held.filter fun p => !addressed h p.content)
      have hle' := List.length_filter_le (fun p => !addressed h p.content) s.held
      have hsame : (s.held.filter fun p => !addressed h p.content).length = s.held.length := by
        simp only [CreditLaw, bteAclDisconnected] at hlaw hle
        omega
      intro p hp
      have hall := List.length_filter_eq_length_iff.1 hsame p hp
      simpa using hall

/-! ## Whole runs -/

theorem creditLaw_run (rc : Nat → Int) : ∀ (ops : List AclOp) (s : AclSystem), CreditInv s →
    Sys.Admissible (AclSystem.step rc) (fun s op => op.Regular s) s ops →
    ((∀ k, CreditLaw (Sys.run (AclSystem.step rc) s (ops.take k))) ↔
      Sys.Admissible (AclSystem.step rc) (fun s op => op.Quiet s) s ops)
  | [], s, hs, _ => by
    constructor
    · exact fun _ => trivial
    · intro _ k
      rw [List.take_nil]
      exact creditLaw_of_inv hs
  | op :: ops, s, hs, hreg => by
    constructor
    · intro hlaw
      have hquiet : op.Quiet s := quiet_of_creditLaw rc hs (hlaw 1)
      have hs' := creditInv_step rc hs hreg.1 hquiet
      exact ⟨hquiet, (creditLaw_run rc ops _ hs' hreg.2).1 fun k => hlaw (k + 1)⟩
    · rintro ⟨hquiet, hrest⟩ k
      have hs' := creditInv_step rc hs hreg.1 hquiet
      cases k with
      | zero => exact creditLaw_of_inv hs
      | succ k => exact (creditLaw_run rc ops _ hs' hreg.2).2 hrest k

def AclSystem.start (aclMaxPackets : Nat) : AclSystem := ⟨.start aclMaxPackets, []⟩

theorem creditInv_start {aclMaxPackets : Nat} (h : aclMaxPackets < 65536) : CreditInv (.start aclMaxPackets) := by
  refine ⟨rfl, ?_, ?_, ?_, h⟩
  · intro p hp
    cases hp
  · intro p hp
    cases hp
  · intro i j h' hi
    cases hi

/-- **The credits are conserved in every state of a run exactly when no connection is closed with packets in flight.** -/
theorem creditLaw_iff (rc : Nat → Int) (aclMaxPackets : Nat) (hmax : aclMaxPackets < 65536) (ops : List AclOp)
    (hreg : Sys.Admissible (AclSystem.step rc) (fun s op => op.Regular s) (.start aclMaxPackets) ops) :
    (∀ k, CreditLaw (Sys.run (AclSystem.step rc) (.start aclMaxPackets) (ops.take k))) ↔
      Sys.Admissible (AclSystem.step rc) (fun s op => op.Quiet s) (.start aclMaxPackets) ops :=
  creditLaw_run rc ops _ (creditInv_start hmax) hreg

/-- One packet is sent and reported before its connection closes. -/
def quietRun : List AclOp :=
  [.connected slot0 0x42, .sendMessage [smallPacket 0x42 1], .completedPackets [0x13, 5, 1, 0x42, 0, 1, 0],
    .disconnectionComplete 0x42]

theorem quietRun_regular :
    Sys.Admissible (AclSystem.step fun _ => 0) (fun s op => op.Regular s) (.start 1) quietRun :=
  ⟨⟨rfl, fun _ => by simp [AclSystem.start, AclLink.start]⟩, ⟨0, 0x42, rfl, by decide⟩,
    show Reportable _ _ by decide, trivial, trivial⟩

theorem creditLaw_iff_quietRun :
    CreditLaw (Sys.run (AclSystem.step fun _ => 0) (.start 1) (quietRun.take 2)) ∧
    CreditLaw (Sys.run (AclSystem.step fun _ => 0) (.start 1) (quietRun.take 4)) := by
  have hlaw := (creditLaw_iff (fun _ => 0) 1 (by decide) quietRun quietRun_regular).2
    ⟨trivial, trivial, trivial, show ∀ p ∈ _, _ by decide, trivial⟩
  exact ⟨hlaw 2, hlaw 4⟩

/-- The connection closes while its packet is in flight. -/
def leakRun : List AclOp :=
  [.connected slot0 0x42, .sendMessage [smallPacket 0x42 1], .disconnectionComplete 0x42]

/-- The only credit is gone for good: no connection is left and no completion will come. -/
theorem creditLaw_leakRun :
    Sys.Admissible (AclSystem.step fun _ => 0) (fun s op => op.Regular s) (.start 1) leakRun ∧
    ¬ CreditLaw (Sys.run (AclSystem.step fun _ => 0) (.start 1) leakRun) :=
  ⟨⟨⟨rfl, fun _ => by simp [AclSystem.start, AclLink.start]⟩, ⟨0, 0x42, rfl, by decide⟩, trivial, trivial⟩, by decide⟩

end Bte
