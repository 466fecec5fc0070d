import BtEmbedded.AclCreate
import BtEmbedded.HciLifecycle
import BtEmbedded.L2capServer
/-!
# ClientModels — one function in several models (client.c, acl.c)

The life of the driver, the making of an ACL and the servers have models of their own, each with the fields of a client
and of
an ACL that it needs.  So `bte_client_ref` and `bte_client_unref` are embedded three times, and `bte_acl_new`,
`bte_acl_unref` and `bte_acl_free` twice.  Here the embeddings of a function are shown to do the same to what they share.
-/
namespace Bte

/-! ## Clients -/

/-- The clients of the device and their references. -/
@[ext] structure ClientTable where
  clients : Fin 4 → Option Hci
  refs : Hci → Int

namespace ClientTable

def ref (t : ClientTable) (h : Hci) : ClientTable := { t with refs := Function.update t.refs h (t.refs h + 1) }

/-- A client that gives back its last reference leaves the table. -/
def unref (t : ClientTable) (h : Hci) : ClientTable where
  clients i := if t.refs h = 1 ∧ t.clients i = some h then none else t.clients i
  refs := Function.update t.refs h (t.refs h - 1)

end ClientTable

inductive ClientOp
  | ref (h : Hci)
  | unref (h : Hci)
deriving DecidableEq

/-- Only a reference that is there is given back. -/
def ClientOp.Held (t : ClientTable) : ClientOp → Prop
  | .ref _ => True
  | .unref h => 0 < t.refs h

def ClientTable.step (t : ClientTable) : ClientOp → ClientTable
  | .ref h => t.ref h
  | .unref h => t.unref h

/-- A model of `bte_client_ref` and `bte_client_unref`, with the proof that it is one. -/
structure ClientModel (σ : Type) where
  table : σ → ClientTable
  ref : σ → Hci → σ
  unref : σ → Hci → σ
  table_ref : ∀ s h, table (ref s h) = (table s).ref h
  table_unref : ∀ s h, 0 < (table s).refs h → table (unref s h) = (table s).unref h

namespace ClientModel

variable {σ τ : Type} (M : ClientModel σ) (N : ClientModel τ)

def step (s : σ) : ClientOp → σ
  | .ref h => M.ref s h
  | .unref h => M.unref s h

theorem table_step (s : σ) (o : ClientOp) (h : o.Held (M.table s)) : M.table (M.step s o) = (M.table s).step o := by
  cases o with
  | ref c => exact M.table_ref s c
  | unref c => exact M.table_unref s c h

/-- A model runs as the table does. -/
theorem table_run : ∀ (s : σ) (ops : List ClientOp), Sys.Admissible ClientTable.step (fun t o => o.Held t) (M.table s) ops →
    M.table (Sys.run M.step s ops) = Sys.run ClientTable.step (M.table s) ops
  | _, [], _ => rfl
  | s, o :: os, h => by
    have hstep := M.table_step s o h.1
    rw [Sys.run_cons, Sys.run_cons, table_run (M.step s o) os (by rw [hstep]; exact h.2), hstep]

/-- **Two models that show the same clients show the same after any calls.** -/
theorem run_agrees {s : σ} {t : τ} (h : M.table s = N.table t) {ops : List ClientOp}
    (hheld : Sys.Admissible ClientTable.step (fun t o => o.Held t) (M.table s) ops) :
    M.table (Sys.run M.step s ops) = N.table (Sys.run N.step t ops) := by
  rw [M.table_run s ops hheld, N.table_run t ops (by rwa [← h]), h]

end ClientModel

/-- The clients of hci_dev.c. -/
def Lifecycle.clientModel : ClientModel Lifecycle where
  table s := ⟨s.dev.clients, fun h => s.refCount h⟩
  ref := Lifecycle.bteClientRef
  unref := Lifecycle.bteClientUnref
  table_ref s h := by
    ext c
    · rfl
    · simp only [Lifecycle.bteClientRef, ClientTable.ref, Function.update_apply]
      split <;> simp
  table_unref s h hheld := by
    have hpos : 0 < s.refCount h := Int.natCast_pos.1 hheld
    have hrefs : (s.bteClientUnref h).refCount = Function.update s.refCount h (s.refCount h - 1) := by
      unfold Lifecycle.bteClientUnref
      simp only
      split <;> rfl
    have hclients : (s.bteClientUnref h).dev.clients =
        fun i => if s.refCount h = 1 ∧ s.dev.clients i = some h then none else s.dev.clients i := by
      unfold Lifecycle.bteClientUnref
      simp only
      split
      · rename_i hlast
        simp only [Lifecycle.bteClientFree, (removeClient_spec s.dev h).2.1, hlast, true_and]
      · rename_i hlast
        simp only [hlast, false_and, if_false]
    ext c
    · simp only [hclients, ClientTable.unref, Nat.cast_eq_one]
    · simp only [hrefs, ClientTable.unref, Function.update_apply]
      split
      · omega
      · rfl

/-- The clients of acl.c. -/
def AclClients.clientModel : ClientModel AclClients where
  table s := ⟨s.dev.clients, s.refs⟩
  ref := AclClients.bteClientRef
  unref := AclClients.bteClientUnref
  table_ref _ _ := rfl
  table_unref s h _ := by
    ext1
    · funext i
      simp only [AclClients.bteClientUnref, ClientTable.unref]
      split
      · rename_i hlast
        simp only [(removeClient_spec s.dev h).2.1, hlast, true_and]
      · rename_i hlast
        simp only [hlast, false_and, if_false]
    · rfl

/-- The clients of l2cap_server.c. -/
def Serving.clientModel : ClientModel Serving where
  table s := ⟨s.clients, fun h => (s.client h).refCount⟩
  ref s := s.bteClientRef
  unref s := s.bteClientUnref
  table_ref s h := by
    ext c
    · rfl
    · simp only [Serving.bteClientRef, Serving.setClient, ClientTable.ref, Function.update_apply]
      split <;> simp
  table_unref s h hheld := by
    have hpos : 0 < (s.client h).refCount := Int.natCast_pos.1 hheld
    have hrefs : (s.bteClientUnref h).client =
        Function.update s.client h { s.client h with refCount := (s.client h).refCount - 1 } := by
      unfold Serving.bteClientUnref
      simp only
      split <;> rfl
    have hclients : (s.bteClientUnref h).clients =
        fun i => if (s.client h).refCount = 1 ∧ s.clients i = some h then none else s.clients i := by
      unfold Serving.bteClientUnref
      simp only
      split
      · rename_i hlast
        simp only [Serving.bteClientFree, Serving.setClient, hlast, true_and]
      · rename_i hlast
        simp only [Serving.setClient, hlast, false_and, if_false]
    ext c
    · simp only [hclients, ClientTable.unref, Nat.cast_eq_one]
    · simp only [hrefs, ClientTable.unref, Function.update_apply]
      split
      · simp only
        omega
      · rfl

/-- **The three models of client.c agree**, whatever references are taken and given back. -/
theorem client_models_agree {l : Lifecycle} {s : AclClients} {v : Serving}
    (hs : Lifecycle.clientModel.table l = AclClients.clientModel.table s)
    (hv : Lifecycle.clientModel.table l = Serving.clientModel.table v) {ops : List ClientOp}
    (hheld : Sys.Admissible ClientTable.step (fun t o => o.Held t) (Lifecycle.clientModel.table l) ops) :
    Lifecycle.clientModel.table (Sys.run Lifecycle.clientModel.step l ops) =
        AclClients.clientModel.table (Sys.run AclClients.clientModel.step s ops) ∧
      Lifecycle.clientModel.table (Sys.run Lifecycle.clientModel.step l ops) =
        Serving.clientModel.table (Sys.run Serving.clientModel.step v ops) :=
  ⟨Lifecycle.clientModel.run_agrees AclClients.clientModel hs hheld,
    Lifecycle.clientModel.run_agrees Serving.clientModel hv hheld⟩

/-! ## ACLs -/

/-- What the models have of an ACL. -/
@[ext] structure SharedAcl where
  refCount : Int
  hci : Hci
  address : BdAddr
  connHandle : UInt16
  disconnectedCb : Bool

/-- What acl.c keeps of its ACLs. -/
@[ext] structure AclTable where
  acls : Nat → SharedAcl
  allocated : Nat
  table : Fin 7 → Option Nat
  listening : Hci → Bool
  dev : HciDev
  outgoingAclPackets : List Packet

def Acl.shared (acl : Acl) : SharedAcl := ⟨acl.refCount, acl.hci, acl.address, acl.connHandle, acl.disconnectedCb⟩

def BteAcl.shared (acl : BteAcl) : SharedAcl := ⟨acl.refCount, acl.hci, acl.address, acl.connHandle, acl.disconnectedCb⟩

def AclNet.aclTable (net : AclNet) : AclTable where
  acls a := (net.acls a).shared
  allocated := net.aclsAllocated
  table := net.table
  listening := net.listening
  dev := net.dev
  outgoingAclPackets := net.l2cap.dev.outgoingAclPackets

def AclClients.aclTable (s : AclClients) : AclTable where
  acls a := (s.acls a).shared
  allocated := s.aclsAllocated
  table := s.table
  listening := s.listening
  dev := s.dev
  outgoingAclPackets := s.outgoingAclPackets

namespace AclTable

def modify (t : AclTable) (a : Nat) (f : SharedAcl → SharedAcl) : AclTable :=
  { t with acls := Function.update t.acls a (f (t.acls a)) }

/-- The first slot of the ACL is empty. -/
def leave (t : AclTable) (a : Nat) : AclTable :=
  match (List.finRange 7).find? fun k => t.table k = some a with
  | none => t
  | some k => { t with table := Function.update t.table k none }

/-- The packets of the ACL's handle are gone, and the handle with them. -/
def lose (t : AclTable) (a : Nat) : AclTable :=
  { t.modify a fun acl => { acl with connHandle := bteConnHandleInvalid } with
    outgoingAclPackets := cancelOutgoing (t.acls a).connHandle.toNat t.outgoingAclPackets }

def free (t : AclTable) (a : Nat) : AclTable :=
  ((t.modify a fun acl => { acl with disconnectedCb := false }).lose a).leave a

def unref (t : AclTable) (a : Nat) : AclTable :=
  let t' := t.modify a fun acl => { acl with refCount := acl.refCount - 1 }
  if (t.acls a).refCount = 1 then t'.free a else t'

/-- A new ACL in a slot. -/
def put (t : AclTable) (k : Fin 7) (hci : Hci) (address : BdAddr) : AclTable where
  acls := Function.update t.acls t.allocated ⟨1, hci, address, bteConnHandleInvalid, false⟩
  allocated := t.allocated + 1
  table := Function.update t.table k (some t.allocated)
  listening := Function.update t.listening hci true
  dev := bteHciDevInstallEventHandler
    (bteHciDevInstallEventHandler t.dev hciDisconnectionComplete (some .disconnectionCompleteEventCb))
    hciNbrOfCompletedPackets (some .nrOfCompletedPacketsEventCb)
  outgoingAclPackets := t.outgoingAclPackets

/-- The slot that a new ACL gets. -/
def freeSlot (t : AclTable) : Option (Fin 7) := (List.finRange 7).find? fun k => (t.table k).isNone

end AclTable

namespace AclNet

variable (net : AclNet) (a : Nat)

theorem aclTable_modifyAcl {f : Acl → Acl} {g : SharedAcl → SharedAcl} (h : ∀ acl, (f acl).shared = g acl.shared) :
    (net.modifyAcl a f).aclTable = net.aclTable.modify a g := by
  ext1 <;> try rfl
  have hupdate := Function.comp_update Acl.shared net.acls a (f (net.acls a))
  rw [h] at hupdate
  exact hupdate

theorem aclTable_leaveTable : (net.leaveTable a).aclTable = net.aclTable.leave a := by
  have htable : net.aclTable.table = net.table := rfl
  unfold leaveTable AclTable.leave
  rw [htable]
  cases (List.finRange 7).find? fun k => net.table k = some a <;> rfl

theorem aclTable_loseConnection : (net.loseConnection a).aclTable = net.aclTable.lose a := by
  have h := net.aclTable_modifyAcl a (f := fun acl => { acl with connHandle := bteConnHandleInvalid })
    (g := fun acl => { acl with connHandle := bteConnHandleInvalid }) fun _ => rfl
  ext1 <;> try rfl
  exact funext fun b => congrFun (congrArg AclTable.acls h) b

theorem aclTable_bteAclFree : (net.bteAclFree a).aclTable = net.aclTable.free a := by
  have hrecord : (net.bteAclFree a).aclTable =
      (((net.modifyAcl a fun acl => { acl with disconnectedCb := false }).loseConnection a).leaveTable a).aclTable := rfl
  rw [hrecord, aclTable_leaveTable, aclTable_loseConnection,
    net.aclTable_modifyAcl a (g := fun acl => { acl with disconnectedCb := false }) fun _ => rfl, AclTable.free]

theorem aclTable_bteAclUnref : (net.bteAclUnref a).aclTable = net.aclTable.unref a := by
  have h := net.aclTable_modifyAcl a (f := fun acl => { acl with refCount := acl.refCount - 1 })
    (g := fun acl => { acl with refCount := acl.refCount - 1 }) fun _ => rfl
  have hcount : (net.aclTable.acls a).refCount = (net.acls a).refCount := rfl
  unfold bteAclUnref AclTable.unref
  simp only [hcount]
  split
  · rw [aclTable_bteAclFree, h]
  · exact h

/-- l2cap.c sets `disconnected_cb` of the ACL it has made. -/
theorem aclTable_bteAclNew (hci : Hci) (address : BdAddr) :
    (net.bteAclNew hci address).map (fun r => (r.1, r.2.aclTable)) =
      net.aclTable.freeSlot.map fun k => (net.aclTable.allocated, (net.aclTable.put k hci address).modify
        net.aclTable.allocated fun acl => { acl with disconnectedCb := true }) := by
  have hslot : net.aclTable.freeSlot = (List.finRange 7).find? fun k => (net.table k).isNone := rfl
  rw [hslot, bteAclNew, Option.map_map]
  refine Option.map_congr fun k _ => ?_
  refine Prod.ext rfl ?_
  ext1 <;> try rfl
  funext b
  simp only [Function.comp_apply, aclTable, AclTable.put, AclTable.modify, Function.update_apply]
  split <;> rfl

end AclNet

namespace AclClients

variable (s : AclClients) (a : Nat)

theorem aclTable_modifyAcl {f : BteAcl → BteAcl} {g : SharedAcl → SharedAcl} (h : ∀ acl, (f acl).shared = g acl.shared) :
    (s.modifyAcl a f).aclTable = s.aclTable.modify a g := by
  ext1 <;> try rfl
  have hupdate := Function.comp_update BteAcl.shared s.acls a (f (s.acls a))
  rw [h] at hupdate
  exact hupdate

theorem aclTable_leaveTable : (s.leaveTable a).aclTable = s.aclTable.leave a := by
  have htable : s.aclTable.table = s.table := rfl
  unfold leaveTable AclTable.leave
  rw [htable]
  cases (List.finRange 7).find? fun k => s.table k = some a <;> rfl

theorem aclTable_use : (s.use a).aclTable = s.aclTable := by
  unfold use
  split <;> rfl

/-- An ACL that is not the last of what its client has. -/
theorem aclTable_bteClientUnref {h : Hci} (hrefs : s.refs h ≠ 1) : (s.bteClientUnref h).aclTable = s.aclTable := by
  unfold bteClientUnref
  rw [if_neg hrefs]
  rfl

theorem aclTable_withdraw : (s.withdraw a).aclTable = s.aclTable.free a := by
  have h := s.aclTable_modifyAcl a
    (f := fun acl => { acl with disconnectedCb := false, connHandle := bteConnHandleInvalid })
    (g := fun acl => { acl with disconnectedCb := false, connHandle := bteConnHandleInvalid }) fun _ => rfl
  rw [withdraw, aclTable_leaveTable, AclTable.free]
  congr 1
  ext1 <;> try rfl
  · refine (congrArg AclTable.acls h).trans ?_
    simp only [AclTable.lose, AclTable.modify, Function.update_self, Function.update_idem]
  · simp only [AclTable.lose, AclTable.modify, Function.update_self]
    rfl

/-- Nobody but its holders has a reference to the ACL, and its client has others than the ACL's. -/
structure Plain : Prop where
  outgoing : (s.acls a).isIncoming = false
  client : s.refs (s.acls a).hci ≠ 1

variable {s a}

theorem aclTable_bteAclFree (h : s.Plain a) : (s.bteAclFree 2 a).aclTable = s.aclTable.free a := by
  have hkept : Kept (s.acls a) := fun hin => absurd hin (by simp [h.outgoing])
  have hrefs : ((s.withdraw a).use a).refs (((s.withdraw a).acls a).hci) ≠ 1 := by
    rw [refs_use, acls_withdraw, withdraw, refs_leaveTable]
    exact h.client
  have hfreed := ((((s.withdraw a).use a).bteClientUnref ((s.withdraw a).acls a).hci).use a).aclTable_modifyAcl a
    (f := fun acl => { acl with freed := true }) (g := id) fun _ => rfl
  have hsame : ∀ t : AclTable, t.modify a id = t := fun t => by
    simp only [AclTable.modify, id_eq, Function.update_eq_self]
  rw [bteAclFree_kept hkept 1, h.outgoing, if_neg Bool.false_ne_true, release, hfreed, hsame, aclTable_use,
    aclTable_bteClientUnref _ hrefs, aclTable_use, aclTable_withdraw]

theorem aclTable_bteAclUnref (h : s.Plain a) : (s.bteAclUnref (bteAclFree 2) a).aclTable = s.aclTable.unref a := by
  have hmodify := s.aclTable_modifyAcl a (f := fun acl => { acl with refCount := acl.refCount - 1 })
    (g := fun acl => { acl with refCount := acl.refCount - 1 }) fun _ => rfl
  have hplain : (s.dropRef a).Plain a := by
    constructor
    · rw [acls_dropRef]
      exact h.outgoing
    · rw [acls_dropRef]
      exact h.client
  have hcount : (s.aclTable.acls a).refCount = (s.acls a).refCount := rfl
  unfold bteAclUnref AclTable.unref
  simp only [hcount]
  split
  · exact (aclTable_bteAclFree hplain).trans (congrArg (AclTable.free · a) hmodify)
  · exact hmodify

theorem aclTable_bteAclNew {k : Fin 7} (hroom : s.aclTable.freeSlot = some k) (hci : Hci) (address : BdAddr) :
    (s.bteAclNew hci address).1 = some s.aclTable.allocated ∧
      (s.bteAclNew hci address).2.aclTable = s.aclTable.put k hci address := by
  have hfind : ((List.finRange 7).find? fun k => (s.table k).isNone) = some k := hroom
  simp only [bteAclNew, publish, bteAclMakePublic, hfind]
  refine ⟨rfl, ?_⟩
  ext1 <;> try rfl
  funext b
  simp only [listen, bteClientRef, aclTable, AclTable.put, Function.update_apply]
  split <;> rfl

end AclClients

/-- **The two models of acl.c make, hold and free an ACL alike**, as long as it is not incoming and its client outlives
it: what they show of the ACLs stays the same, but that l2cap.c sets `disconnected_cb` of the ACLs it makes. -/
theorem acl_models_agree {net : AclNet} {s : AclClients} (h : net.aclTable = s.aclTable) :
    (∀ a, s.Plain a → (net.bteAclUnref a).aclTable = (s.bteAclUnref (AclClients.bteAclFree 2) a).aclTable ∧
      (net.bteAclFree a).aclTable = (s.bteAclFree 2 a).aclTable) ∧
    ∀ hci address, (net.bteAclNew hci address).map (·.1) = (s.bteAclNew hci address).1 ∧
      ∀ r ∈ net.bteAclNew hci address, r.2.aclTable =
        (s.bteAclNew hci address).2.aclTable.modify r.1 fun acl => { acl with disconnectedCb := true } := by
  refine ⟨fun a ha => ⟨?_, ?_⟩, fun hci address => ?_⟩
  · rw [net.aclTable_bteAclUnref, AclClients.aclTable_bteAclUnref ha, h]
  · rw [net.aclTable_bteAclFree, AclClients.aclTable_bteAclFree ha, h]
  · have hnet := net.aclTable_bteAclNew hci address
    rw [h] at hnet
    cases hslot : s.aclTable.freeSlot with
    | none =>
      have hfull : ∀ k, s.table k ≠ none := fun k hk => by
        have := List.find?_eq_none.1 hslot k (List.mem_finRange k)
        simp [AclClients.aclTable, hk] at this
      rw [hslot, Option.map_none, Option.map_eq_none_iff] at hnet
      rw [hnet]
      exact ⟨(AclClients.new_refused hfull hci address).1.symm, fun r hr => (Option.not_mem_none r hr).elim⟩
    | some k =>
      obtain ⟨hs, htable⟩ := AclClients.aclTable_bteAclNew hslot hci address
      rw [hslot, Option.map_some, Option.map_eq_some_iff] at hnet
      obtain ⟨r, hr, heq⟩ := hnet
      obtain ⟨hallocated, hput⟩ := Prod.mk.inj heq
      rw [hr, hs, htable]
      refine ⟨congrArg some hallocated, fun r' hr' => ?_⟩
      cases hr'
      rw [hput, hallocated]

end Bte
