import BtEmbedded.AclConnect
/-!
# AclCreate — making an ACL, and giving it up (acl.c, client.c)

An ACL that finds no slot in the device's table goes the way of all ACLs, through `bte_acl_free`.  This gives back a
reference to the client, which the two functions take only once there is a slot; and for an incoming ACL the
disconnection gives back the ACL's own reference, which is the last: the ACL is freed inside its destructor.

Freed memory keeps its contents here; `misused` has the ACLs whose memory is used or freed again.
-/
namespace Bte

/-! ## Data -/

/-- `BteAcl`, of which the fields that its creation and its end look at. -/
structure BteAcl where
  refCount : Int
  hci : Hci
  address : BdAddr
  connHandle : UInt16
  isIncoming : Bool
  /-- Whether `disconnected_cb` is set. -/
  disconnectedCb : Bool
  freed : Bool

/-- The device with its ACLs, and the clients they belong to. -/
structure AclClients where
  dev : HciDev
  outgoingAclPackets : List Packet
  acls : Nat → BteAcl
  aclsAllocated : Nat
  /-- The `acls` of the device. -/
  table : Fin 7 → Option Nat
  /-- Whether `data_handler_cb` is `on_data_received`. -/
  dataHandler : Bool
  /-- The `ref_count` of a client. -/
  refs : Hci → Int
  /-- The clients whose disconnection and completed-packets callbacks are those of acl.c. -/
  listening : Hci → Bool
  misused : List Nat

namespace AclClients

def modifyAcl (s : AclClients) (a : Nat) (f : BteAcl → BteAcl) : AclClients :=
  { s with acls := Function.update s.acls a (f (s.acls a)) }

/-- The memory of the ACL is read or freed. -/
def use (s : AclClients) (a : Nat) : AclClients :=
  if (s.acls a).freed then { s with misused := s.misused ++ [a] } else s

/-! ## Clients (client.c) -/

def bteClientRef (s : AclClients) (h : Hci) : AclClients := { s with refs := Function.update s.refs h (s.refs h + 1) }

def bteClientUnref (s : AclClients) (h : Hci) : AclClients :=
  { s with
    refs := Function.update s.refs h (s.refs h - 1)
    dev := if s.refs h = 1 then bteHciDevRemoveClient s.dev h else s.dev }

/-! ## The end of an ACL (acl.c) -/

/-- The loop that takes the ACL out of the table. -/
def leaveTable (s : AclClients) (a : Nat) : AclClients :=
  match (List.finRange 7).find? fun k => s.table k = some a with
  | none => s
  | some k => { s with table := Function.update s.table k none }

/-- `free` is `bte_acl_free`. -/
def bteAclUnref (free : AclClients → Nat → AclClients) (s : AclClients) (a : Nat) : AclClients :=
  let refCount := (s.acls a).refCount
  let s := s.modifyAcl a fun acl => { acl with refCount := acl.refCount - 1 }
  if refCount = 1 then free s a else s

/-- `bte_acl_disconnected` without a `disconnected_cb`, which `bte_acl_free` has cleared. -/
def bteAclDisconnected (free : AclClients → Nat → AclClients) (s : AclClients) (a : Nat) : AclClients :=
  let connHandle := (s.acls a).connHandle
  let s := { s.modifyAcl a fun acl => { acl with connHandle := bteConnHandleInvalid } with
    outgoingAclPackets := cancelOutgoing connHandle.toNat s.outgoingAclPackets }
  let isIncoming := (s.acls a).isIncoming
  let s := s.leaveTable a
  if isIncoming then s.bteAclUnref free a else s

/-- `fuel` bounds how often the destructor runs inside itself.  It does so for the last reference only, so that two are
enough (`bteAclFree_fuel`). -/
def bteAclFree : Nat → AclClients → Nat → AclClients
  | 0, s, _ => s
  | fuel + 1, s, a =>
    let s := s.modifyAcl a fun acl => { acl with disconnectedCb := false }
    let s := (s.bteAclDisconnected (bteAclFree fuel) a).use a
    let s := (s.bteClientUnref (s.acls a).hci).use a
    s.modifyAcl a fun acl => { acl with freed := true }

/-! ## Creation (acl.c) -/

def bteAclMakePublic (s : AclClients) (a : Nat) : Bool × AclClients :=
  let s := { s with dataHandler := true }
  match (List.finRange 7).find? fun k => (s.table k).isNone with
  | none => (false, s)
  | some k => (true, { s with table := Function.update s.table k (some a) })

/-- `bte_hci_on_disconnection_complete` and `bte_hci_on_nr_of_completed_packets` with the callbacks of acl.c. -/
def listen (s : AclClients) (h : Hci) : AclClients :=
  { s with
    listening := Function.update s.listening h true
    dev := bteHciDevInstallEventHandler
      (bteHciDevInstallEventHandler s.dev hciDisconnectionComplete (some .disconnectionCompleteEventCb))
      hciNbrOfCompletedPackets (some .nrOfCompletedPacketsEventCb) }

/-- What the two functions do with the ACL they have filled in; none is `NULL`. -/
def publish (s : AclClients) (acl : BteAcl) : Option Nat × AclClients :=
  let a := s.aclsAllocated
  let s := { s with acls := Function.update s.acls a acl, aclsAllocated := a + 1 }
  match s.bteAclMakePublic a with
  | (false, s) => (none, s.bteAclFree 2 a)
  | (true, s) => (some a, (s.bteClientRef acl.hci).listen acl.hci)

def bteAclNew (s : AclClients) (hci : Hci) (address : BdAddr) : Option Nat × AclClients :=
  s.publish ⟨1, hci, address, bteConnHandleInvalid, false, false, false⟩

/-- The address and the handle are those of the reply. -/
def bteAclNewConnected (s : AclClients) (hci : Hci) (address : BdAddr) (connHandle : UInt16) : Option Nat × AclClients :=
  s.publish ⟨1, hci, address, connHandle, true, false, false⟩

/-- A creation that fails and changes nothing. -/
structure LeavesAlone (s : AclClients) (hci : Hci) (r : Option Nat × AclClients) : Prop where
  null : r.1 = none
  table : r.2.table = s.table
  outgoing : r.2.outgoingAclPackets = s.outgoingAclPackets
  refs : r.2.refs hci = s.refs hci

/-! ## What each part leaves alone -/

section Frame

variable (s : AclClients) (a : Nat) (f : BteAcl → BteAcl) (h : Hci)

@[simp] theorem refs_modifyAcl : (s.modifyAcl a f).refs = s.refs := rfl
@[simp] theorem table_modifyAcl : (s.modifyAcl a f).table = s.table := rfl
@[simp] theorem outgoing_modifyAcl : (s.modifyAcl a f).outgoingAclPackets = s.outgoingAclPackets := rfl
@[simp] theorem misused_modifyAcl : (s.modifyAcl a f).misused = s.misused := rfl
@[simp] theorem acls_modifyAcl : (s.modifyAcl a f).acls a = f (s.acls a) := Function.update_self ..

@[simp] theorem refs_clientUnref : (s.bteClientUnref h).refs = Function.update s.refs h (s.refs h - 1) := rfl
@[simp] theorem table_clientUnref : (s.bteClientUnref h).table = s.table := rfl
@[simp] theorem outgoing_clientUnref : (s.bteClientUnref h).outgoingAclPackets = s.outgoingAclPackets := rfl
@[simp] theorem misused_clientUnref : (s.bteClientUnref h).misused = s.misused := rfl
@[simp] theorem acls_clientUnref : (s.bteClientUnref h).acls = s.acls := rfl

@[simp] theorem refs_use : (s.use a).refs = s.refs := by
  unfold use
  split <;> rfl

@[simp] theorem table_use : (s.use a).table = s.table := by
  unfold use
  split <;> rfl

@[simp] theorem outgoing_use : (s.use a).outgoingAclPackets = s.outgoingAclPackets := by
  unfold use
  split <;> rfl

@[simp] theorem acls_use : (s.use a).acls = s.acls := by
  unfold use
  split <;> rfl

theorem misused_use : (s.use a).misused = s.misused ++ if (s.acls a).freed then [a] else [] := by
  unfold use
  split
  · rfl
  · exact (List.append_nil _).symm

@[simp] theorem refs_leaveTable : (s.leaveTable a).refs = s.refs := by
  unfold leaveTable
  split <;> rfl

@[simp] theorem outgoing_leaveTable : (s.leaveTable a).outgoingAclPackets = s.outgoingAclPackets := by
  unfold leaveTable
  split <;> rfl

@[simp] theorem misused_leaveTable : (s.leaveTable a).misused = s.misused := by
  unfold leaveTable
  split <;> rfl

@[simp] theorem acls_leaveTable : (s.leaveTable a).acls = s.acls := by
  unfold leaveTable
  split <;> rfl

/-- An ACL that is not in the table need not leave it. -/
theorem leaveTable_of_notMem {s : AclClients} {a : Nat} (h : ∀ k, s.table k ≠ some a) : s.leaveTable a = s := by
  have hnone : ((List.finRange 7).find? fun k => s.table k = some a) = none := by
    rw [List.find?_eq_none]
    intro k _ hk
    exact h k (of_decide_eq_true hk)
  rw [leaveTable, hnone]

end Frame

/-- No packet has the handle of an ACL that is not connected. -/
theorem cancelOutgoing_invalid : ∀ q : List Packet, cancelOutgoing bteConnHandleInvalid.toNat q = q
  | [] => rfl
  | b :: next => by
    have hle : b.connHandle ≤ 0xfff := Nat.and_le_right
    have hne : ¬ b.connHandle = bteConnHandleInvalid.toNat := by
      have hinvalid : bteConnHandleInvalid.toNat = 0xffff := rfl
      omega
    rw [cancelOutgoing, cancelOutgoing_invalid next, if_neg hne, ite_self]

/-! ## The destructor -/

/-- The ACL is disconnected and out of the table, and an incoming one has still its reference. -/
def withdraw (s : AclClients) (a : Nat) : AclClients :=
  { s.modifyAcl a fun acl => { acl with disconnectedCb := false, connHandle := bteConnHandleInvalid } with
    outgoingAclPackets := cancelOutgoing (s.acls a).connHandle.toNat s.outgoingAclPackets }.leaveTable a

/-- The last two lines of `bte_acl_free`. -/
def release (s : AclClients) (a : Nat) : AclClients :=
  (((s.use a).bteClientUnref (s.acls a).hci).use a).modifyAcl a fun acl => { acl with freed := true }

theorem bteAclFree_succ (fuel : Nat) (s : AclClients) (a : Nat) : s.bteAclFree (fuel + 1) a =
    (if (s.acls a).isIncoming then (s.withdraw a).bteAclUnref (bteAclFree fuel) a else s.withdraw a).release a := by
  have hupdate : ((s.modifyAcl a fun acl => { acl with disconnectedCb := false }).modifyAcl a fun acl =>
      { acl with connHandle := bteConnHandleInvalid }) =
      s.modifyAcl a fun acl => { acl with disconnectedCb := false, connHandle := bteConnHandleInvalid } := by
    simp only [modifyAcl, Function.update_self, Function.update_idem]
  rw [bteAclFree, release, withdraw]
  simp only [bteAclDisconnected, hupdate, acls_modifyAcl, acls_use, outgoing_modifyAcl]

theorem acls_withdraw (s : AclClients) (a : Nat) :
    (s.withdraw a).acls a = { s.acls a with disconnectedCb := false, connHandle := bteConnHandleInvalid } := by
  simp only [withdraw, acls_leaveTable, acls_modifyAcl]

/-- The ACL gives back a reference to itself. -/
def dropRef (s : AclClients) (a : Nat) : AclClients := s.modifyAcl a fun acl => { acl with refCount := acl.refCount - 1 }

theorem acls_dropRef (s : AclClients) (a : Nat) :
    (s.dropRef a).acls a = { s.acls a with refCount := (s.acls a).refCount - 1 } := acls_modifyAcl ..

/-- The reference that the disconnection of an incoming ACL gives back is not the last. -/
def Kept (acl : BteAcl) : Prop := acl.isIncoming = true → acl.refCount ≠ 1

/-- The destructor of an ACL that is kept does not run inside itself. -/
theorem bteAclFree_kept {s : AclClients} {a : Nat} (h : Kept (s.acls a)) (fuel : Nat) : s.bteAclFree (fuel + 1) a =
    (if (s.acls a).isIncoming then (s.withdraw a).dropRef a else s.withdraw a).release a := by
  rw [bteAclFree_succ]
  by_cases hin : (s.acls a).isIncoming = true
  · have hcount : ¬ ((s.withdraw a).acls a).refCount = 1 := by
      rw [acls_withdraw]
      exact h hin
    simp only [if_pos hin, bteAclUnref, if_neg hcount]
    rfl
  · rw [if_neg hin, if_neg hin]

theorem bteAclFree_last {s : AclClients} {a : Nat} (hin : (s.acls a).isIncoming = true)
    (hcount : (s.acls a).refCount = 1) (fuel : Nat) :
    s.bteAclFree (fuel + 1) a = (((s.withdraw a).dropRef a).bteAclFree fuel a).release a := by
  have hcount' : ((s.withdraw a).acls a).refCount = 1 := by
    rw [acls_withdraw]
    exact hcount
  rw [bteAclFree_succ, if_pos hin]
  simp only [bteAclUnref, if_pos hcount']
  rfl

theorem kept_dropRef {s : AclClients} {a : Nat} (hcount : (s.acls a).refCount = 1) :
    Kept (((s.withdraw a).dropRef a).acls a) := by
  intro _
  rw [acls_dropRef, acls_withdraw, hcount]
  exact Int.zero_ne_one

/-- The destructor runs inside itself at most once. -/
theorem bteAclFree_fuel (s : AclClients) (a fuel : Nat) : s.bteAclFree (fuel + 2) a = s.bteAclFree 2 a := by
  by_cases h : Kept (s.acls a)
  · rw [bteAclFree_kept h (fuel + 1), bteAclFree_kept h 1]
  · obtain ⟨hin, hcount⟩ := Classical.not_imp.1 h
    have hcount := not_not.1 hcount
    rw [bteAclFree_last hin hcount (fuel + 1), bteAclFree_last hin hcount 1, bteAclFree_kept (kept_dropRef hcount) fuel,
      bteAclFree_kept (kept_dropRef hcount) 0]

/-! ## What it has done -/

/-- The client has lost references, the queue the packets of the ACL's handle, and freed memory has been used. -/
structure Spent (s : AclClients) (a : Nat) (times : Int) (misused : List Nat) (s' : AclClients) : Prop where
  refs : s'.refs = Function.update s.refs (s.acls a).hci (s.refs (s.acls a).hci - times)
  outgoing : s'.outgoingAclPackets = cancelOutgoing (s.acls a).connHandle.toNat s.outgoingAclPackets
  table : (∀ k, s.table k ≠ some a) → s'.table = s.table
  misused : s'.misused = s.misused ++ misused
  hci : (s'.acls a).hci = (s.acls a).hci

theorem spent_withdraw (s : AclClients) (a : Nat) : Spent s a 0 [] (s.withdraw a) := by
  refine ⟨?_, ?_, fun h => ?_, ?_, ?_⟩
  · rw [withdraw, refs_leaveTable, Int.sub_zero, Function.update_eq_self]
    rfl
  · rw [withdraw, outgoing_leaveTable]
  · rw [withdraw, leaveTable_of_notMem]
    · rfl
    · exact h
  · rw [withdraw, misused_leaveTable, List.append_nil]
    rfl
  · rw [acls_withdraw]

theorem Spent.dropRef {s s' : AclClients} {a : Nat} {times : Int} {misused : List Nat} (h : Spent s a times misused s') :
    Spent s a times misused (s'.dropRef a) :=
  ⟨h.refs, h.outgoing, h.table, h.misused, by rw [acls_dropRef]; exact h.hci⟩

/-- Releasing memory that is freed already misuses it twice. -/
theorem Spent.release {s s' : AclClients} {a : Nat} {times : Int} {misused : List Nat} (h : Spent s a times misused s') :
    Spent s a (times + 1) (misused ++ if (s'.acls a).freed then [a, a] else []) (s'.release a) := by
  unfold AclClients.release
  refine ⟨?_, ?_, fun ha => ?_, ?_, ?_⟩
  · simp only [refs_modifyAcl, refs_use, refs_clientUnref, h.refs, h.hci, Function.update_self,
      Function.update_idem]
    congr 1
    omega
  · simp only [outgoing_modifyAcl, outgoing_use, outgoing_clientUnref, h.outgoing]
  · simp only [table_modifyAcl, table_use, table_clientUnref, h.table ha]
  · simp only [misused_modifyAcl, misused_use, misused_clientUnref, acls_clientUnref, acls_use, h.misused]
    split <;> simp
  · simp only [acls_modifyAcl, acls_use, acls_clientUnref, h.hci]

theorem Spent.trans {s t u : AclClients} {a : Nat} {m n : Int} {ms ns : List Nat} (h : Spent s a m ms t)
    (hinvalid : (t.acls a).connHandle = bteConnHandleInvalid) (h' : Spent t a n ns u) : Spent s a (m + n) (ms ++ ns) u := by
  refine ⟨?_, ?_, fun ha => ?_, ?_, h'.hci.trans h.hci⟩
  · rw [h'.refs, h.refs, h.hci, Function.update_self, Function.update_idem]
    congr 1
    omega
  · rw [h'.outgoing, hinvalid, cancelOutgoing_invalid, h.outgoing]
  · rw [h'.table fun k hk => ha k (by rwa [h.table ha] at hk), h.table ha]
  · rw [h'.misused, h.misused, List.append_assoc]

theorem freed_release (s : AclClients) (a : Nat) : ((s.release a).acls a).freed = true := by
  rw [release, acls_modifyAcl]

theorem spent_kept {s : AclClients} {a : Nat} (h : Kept (s.acls a)) (hfreed : (s.acls a).freed = false) (fuel : Nat) :
    Spent s a 1 [] (s.bteAclFree (fuel + 1) a) := by
  have hw := spent_withdraw s a
  have hfreed' : ((s.withdraw a).acls a).freed = false := by
    rw [acls_withdraw]
    exact hfreed
  rw [bteAclFree_kept h]
  by_cases hin : (s.acls a).isIncoming = true
  · have hr := hw.dropRef.release
    rw [acls_dropRef] at hr
    simp only [hfreed', Bool.false_eq_true, if_false] at hr
    rw [if_pos hin]
    exact hr
  · have hr := hw.release
    simp only [hfreed', Bool.false_eq_true, if_false] at hr
    rw [if_neg hin]
    exact hr

/-- **The last reference to an incoming ACL frees it twice**, and its client loses two references. -/
theorem spent_last {s : AclClients} {a : Nat} (hin : (s.acls a).isIncoming = true) (hcount : (s.acls a).refCount = 1)
    (hfreed : (s.acls a).freed = false) (fuel : Nat) : Spent s a 2 [a, a] (s.bteAclFree (fuel + 2) a) := by
  have hkept := kept_dropRef hcount
  have hacl : ((s.withdraw a).dropRef a).acls a = { s.acls a with
      disconnectedCb := false, connHandle := bteConnHandleInvalid, refCount := (s.acls a).refCount - 1 } := by
    rw [acls_dropRef, acls_withdraw]
  have hinner := spent_kept hkept (by rw [hacl]; exact hfreed) fuel
  have hdone : ((((s.withdraw a).dropRef a).bteAclFree (fuel + 1) a).acls a).freed = true := by
    rw [bteAclFree_kept hkept, freed_release]
  have hr := ((spent_withdraw s a).dropRef.trans (by rw [hacl]) hinner).release
  rw [hdone] at hr
  rw [bteAclFree_last hin hcount]
  exact hr

/-! ## Creation without a slot -/

/-- The ACL in memory, which the destructor is given. -/
def filledIn (s : AclClients) (acl : BteAcl) : AclClients :=
  { s with acls := Function.update s.acls s.aclsAllocated acl, aclsAllocated := s.aclsAllocated + 1, dataHandler := true }

section Full

variable {s : AclClients} (hfull : ∀ k, s.table k ≠ none)
include hfull

theorem publish_full (acl : BteAcl) : s.publish acl = (none, (s.filledIn acl).bteAclFree 2 s.aclsAllocated) := by
  have hnone : ((List.finRange 7).find? fun k => (s.table k).isNone) = none := by
    rw [List.find?_eq_none]
    intro k _ hk
    exact hfull k (Option.isNone_iff_eq_none.1 hk)
  simp only [publish, bteAclMakePublic, hnone]
  rfl

theorem new_refused (hci : Hci) (address : BdAddr) : (s.bteAclNew hci address).1 = none ∧
    Spent (s.filledIn ⟨1, hci, address, bteConnHandleInvalid, false, false, false⟩) s.aclsAllocated 1 []
      (s.bteAclNew hci address).2 := by
  rw [bteAclNew, publish_full hfull]
  have hself : (s.filledIn ⟨1, hci, address, bteConnHandleInvalid, false, false, false⟩).acls s.aclsAllocated =
      ⟨1, hci, address, bteConnHandleInvalid, false, false, false⟩ := Function.update_self ..
  refine ⟨rfl, spent_kept ?_ ?_ 1⟩
  · rw [hself]
    exact fun h => by cases h
  · rw [hself]

theorem newConnected_refused (hci : Hci) (address : BdAddr) (connHandle : UInt16) :
    (s.bteAclNewConnected hci address connHandle).1 = none ∧
    Spent (s.filledIn ⟨1, hci, address, connHandle, true, false, false⟩) s.aclsAllocated 2
      [s.aclsAllocated, s.aclsAllocated] (s.bteAclNewConnected hci address connHandle).2 := by
  rw [bteAclNewConnected, publish_full hfull]
  have hself : (s.filledIn ⟨1, hci, address, connHandle, true, false, false⟩).acls s.aclsAllocated =
      ⟨1, hci, address, connHandle, true, false, false⟩ := Function.update_self ..
  exact ⟨rfl, spent_last (by rw [hself]) (by rw [hself]) (by rw [hself]) 0⟩

omit hfull in
/-- What a creation that fails does to the client that asked for it. -/
theorem refs_refused {t : AclClients} {acl : BteAcl} {times : Int} {misused : List Nat}
    (h : Spent (s.filledIn acl) s.aclsAllocated times misused t) : t.refs acl.hci = s.refs acl.hci - times := by
  have hself : (s.filledIn acl).acls s.aclsAllocated = acl := Function.update_self ..
  rw [h.refs, hself, Function.update_self]
  rfl

/-- The table of ACLs stays as it is, and the queue loses the packets of the handle that the new ACL was given. -/
theorem queue_refused (halloc : ∀ k a, s.table k = some a → a < s.aclsAllocated) (hci : Hci) (address : BdAddr)
    (connHandle : UInt16) :
    (s.bteAclNew hci address).2.table = s.table ∧
    (s.bteAclNew hci address).2.outgoingAclPackets = s.outgoingAclPackets ∧
    (s.bteAclNewConnected hci address connHandle).2.table = s.table ∧
    (s.bteAclNewConnected hci address connHandle).2.outgoingAclPackets =
      cancelOutgoing connHandle.toNat s.outgoingAclPackets := by
  have hnew := (new_refused hfull hci address).2
  have hconnected := (newConnected_refused hfull hci address connHandle).2
  have hfresh : ∀ k, s.table k ≠ some s.aclsAllocated := fun k hk => Nat.lt_irrefl _ (halloc k _ hk)
  refine ⟨hnew.table hfresh, ?_, hconnected.table hfresh, ?_⟩
  · rw [hnew.outgoing, filledIn]
    simp only [Function.update_self, cancelOutgoing_invalid]
  · rw [hconnected.outgoing, filledIn]
    simp only [Function.update_self]

/-- **No creation that fails leaves everything as it was**: `bte_acl_new` takes a reference of its client with it, and
`bte_acl_new_connected` two, using the ACL after it has been freed. -/
theorem creation_refused :
    (∀ hci address, ¬ s.LeavesAlone hci (s.bteAclNew hci address) ∧ (s.bteAclNew hci address).1 = none ∧
      (s.bteAclNew hci address).2.refs hci = s.refs hci - 1) ∧
    ∀ hci address connHandle, ¬ s.LeavesAlone hci (s.bteAclNewConnected hci address connHandle) ∧
      (s.bteAclNewConnected hci address connHandle).1 = none ∧
      (s.bteAclNewConnected hci address connHandle).2.refs hci = s.refs hci - 2 ∧
      (s.bteAclNewConnected hci address connHandle).2.misused = s.misused ++ [s.aclsAllocated, s.aclsAllocated] := by
  refine ⟨fun hci address => ?_, fun hci address connHandle => ?_⟩
  · obtain ⟨hnull, hspent⟩ := new_refused hfull hci address
    have hrefs := refs_refused hspent
    refine ⟨fun h => ?_, hnull, hrefs⟩
    have hsame := h.refs
    simp only at hrefs
    omega
  · obtain ⟨hnull, hspent⟩ := newConnected_refused hfull hci address connHandle
    have hrefs := refs_refused hspent
    refine ⟨fun h => ?_, hnull, hrefs, hspent.misused⟩
    have hsame := h.refs
    simp only at hrefs
    omega

end Full

/-- One client, nothing asked of it yet; the queue has a packet for the handle 0x42. -/
def start : AclClients where
  dev := HciDev.init
  outgoingAclPackets := [⟨4, 4, [0x42, 0x20, 0, 0]⟩]
  acls := fun _ => ⟨0, 0, ⟨0, 0, 0, 0, 0, 0⟩, bteConnHandleInvalid, false, false, false⟩
  aclsAllocated := 0
  table := fun _ => none
  dataHandler := false
  refs := fun _ => 1
  listening := fun _ => false
  misused := []

/-- Seven ACLs to seven devices. -/
def seven : AclClients :=
  (List.range 7).foldl (fun s i => (s.bteAclNew 0 ⟨UInt8.ofNat i, 2, 3, 4, 5, 6⟩).2) start

theorem creation_refused_eighth : (seven.bteAclNew 0 ⟨7, 2, 3, 4, 5, 6⟩).2.refs 0 = seven.refs 0 - 1 ∧
    (seven.bteAclNewConnected 0 ⟨7, 2, 3, 4, 5, 6⟩ 0x42).2.refs 0 = seven.refs 0 - 2 :=
  have h := creation_refused (s := seven) (by decide +kernel)
  ⟨(h.1 0 ⟨7, 2, 3, 4, 5, 6⟩).2.2, (h.2 0 ⟨7, 2, 3, 4, 5, 6⟩ 0x42).2.2.1⟩

/-- The client has eight references, its own and one for each ACL; then it has seven, or six, and is freed before its
last ACL is.  A connection whose handle has a packet in the queue takes it out. -/
theorem not_leavesAlone_eighth :
    ¬ seven.LeavesAlone 0 (seven.bteAclNew 0 ⟨7, 2, 3, 4, 5, 6⟩) ∧
    ¬ seven.LeavesAlone 0 (seven.bteAclNewConnected 0 ⟨7, 2, 3, 4, 5, 6⟩ 0x42) ∧
    seven.refs 0 = 8 ∧ (seven.bteAclNew 0 ⟨7, 2, 3, 4, 5, 6⟩).2.refs 0 = 7 ∧
    (seven.bteAclNewConnected 0 ⟨7, 2, 3, 4, 5, 6⟩ 0x42).2.refs 0 = 6 ∧
    (seven.bteAclNewConnected 0 ⟨7, 2, 3, 4, 5, 6⟩ 0x42).2.misused = [7, 7] ∧
    seven.outgoingAclPackets.length = 1 ∧
    (seven.bteAclNewConnected 0 ⟨7, 2, 3, 4, 5, 6⟩ 0x42).2.outgoingAclPackets = [] := by
  refine ⟨fun h => absurd h.refs (by decide +kernel), fun h => absurd h.refs (by decide +kernel), ?_⟩
  decide +kernel

end AclClients

end Bte
