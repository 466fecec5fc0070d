import BtEmbedded.AclEvents
import BtEmbedded.Lib.History
/-!
# AclGate — no channel that asked for authentication is started without it

The gate is three flags of the ACL, tested where a call finds the ACL ready, where the connection completes and where the
authentication completes.  `GateInv` links every channel that waits to the flags of its ACL.

Three things defeat the gate.  A completion event may reach the wrong callback, when a command has overwritten the data of
another one.  A call made from the connect callback of a channel that could not be started may join the ACL while it is
being announced without authentication: the loop then starts the new channel too.  And an ACL may be freed while a command
of it is pending: the event then sets the flag of the ACL that has come to lie in its block.
-/
namespace Bte

/-! ## The property -/

/-- The ACL is told that its authentication succeeded. -/
def NetEvent.authenticates (a : Nat) : NetEvent → Bool
  | .completed b buffer => b = a ∧ buffer.getD 0 0 = hciAuthComplete ∧ buffer.getD 2 0 = 0
  | _ => false

def Authenticated (log : List NetEvent) (a : Nat) : Prop := ∃ e ∈ log, e.authenticates a = true

/-- A Connection Request for a channel created with the flag comes after the authentication of its ACL. -/
def AclNet.Gated (net : AclNet) : Prop :=
  Sys.History (fun pre e => ∀ p, e.request = some p → net.auth p = true → Authenticated pre (net.aclOf p)) net.log

/-- A call with the flag does not join an ACL that is being announced without authentication, and no ACL is freed while a
command of it is pending. -/
def NetEvent.calm : NetEvent → Bool
  | .joined j => j.found.all fun acl => !j.auth || !j.announcing || acl.authenticationCompleted
  | .freed _ busy => !busy
  | _ => true

def AclNet.Calm (net : AclNet) : Prop := ∀ e ∈ net.log, e.calm = true

instance (net : AclNet) : Decidable net.Calm := inferInstanceAs (Decidable (∀ _ ∈ _, _))

/-! ## The invariant -/

structure GateInv (net : AclNet) : Prop where
  ties : Ties net
  completed : ∀ a, (net.acls a).authenticationCompleted = true → Authenticated net.log a
  announcing : ∀ a ∈ net.announcing, a < net.aclsAllocated ∧
    ((net.acls a).authenticationRequired = true → (net.acls a).authenticationCompleted = true)
  gate : Sys.History (fun pre e => ∀ p, e.request = some p →
    p < net.l2cap.allocated ∧ (net.auth p = true → Authenticated pre (net.aclOf p))) net.log

theorem Authenticated.append {log : List NetEvent} {a : Nat} (h : Authenticated log a) (es : List NetEvent) :
    Authenticated (log ++ es) a := by
  obtain ⟨e, he, ha⟩ := h
  exact ⟨e, List.mem_append_left _ he, ha⟩

namespace GateInv

variable {net net' : AclNet}

/-- Events that are no requests leave the gate as it was. -/
theorem gate_append (h : GateInv net) {es : List NetEvent} (he : ∀ e ∈ es, e.request = none) :
    Sys.History (fun pre e => ∀ p, e.request = some p →
      p < net.l2cap.allocated ∧ (net.auth p = true → Authenticated pre (net.aclOf p))) (net.log ++ es) := by
  refine h.gate.append fun pre e post hes p hp => ?_
  have hn := he e (by rw [hes]; exact List.mem_append_right _ List.mem_cons_self)
  rw [hn] at hp
  cases hp

theorem keeps (h : GateInv net) (hk : Keeps net net') : GateInv net' where
  ties := h.ties.keeps hk
  completed := by
    intro a ha
    rw [(hk.acls a).completed] at ha
    obtain ⟨es, he, -⟩ := hk.log
    rw [he]
    exact (h.completed a ha).append es
  announcing := by
    intro a ha
    rw [hk.announcing] at ha
    rw [hk.aclsAllocated, (hk.acls a).required, (hk.acls a).completed]
    exact h.announcing a ha
  gate := by
    obtain ⟨es, he, hes⟩ := hk.log
    rw [he, hk.auth, hk.aclOf]
    refine Sys.History.append (h.gate.mono fun pre e hok p hp => ?_) fun pre e post hpost p hp => ?_
    · obtain ⟨hlt, ha⟩ := hok p hp
      exact ⟨hlt.trans_le hk.allocated, ha⟩
    · have hallow := hes e (by rw [hpost]; exact List.mem_append_right _ List.mem_cons_self)
      cases e with
      | l2cap e =>
        -- the ACL is ready, or is being announced: either way the flag says that it is authenticated
        rcases hallow p hp with ⟨hlt, hready⟩ | ⟨a, i, hc, ha⟩
        · refine ⟨hlt.trans_le hk.allocated, fun hauth => ?_⟩
          rw [(h.ties.required p hauth).1] at hready
          exact (h.completed _ hready).append pre
        · obtain ⟨rfl, hlt⟩ := h.ties.clients a i p hc
          exact ⟨hlt.trans_le hk.allocated, fun hauth =>
            (h.completed _ ((h.announcing _ ha).2 (h.ties.required p hauth).1)).append pre⟩
      | _ => cases hp

/-- A move that starts no channel: the flag says that an ACL is authenticated only when it is. -/
theorem update (h : GateInv net) (hties : Ties net')
    (hlog : ∃ es, net'.log = net.log ++ es ∧ ∀ e ∈ es, e.request = none)
    (hlt : net.l2cap.allocated ≤ net'.l2cap.allocated)
    (hof : ∀ p, p < net.l2cap.allocated → net'.aclOf p = net.aclOf p ∧ net'.auth p = net.auth p)
    (hcompleted : ∀ a, (net'.acls a).authenticationCompleted = true →
      (net.acls a).authenticationCompleted = true ∨ Authenticated net'.log a)
    (hannouncing : ∀ a ∈ net'.announcing, a < net'.aclsAllocated ∧
      ((net'.acls a).authenticationRequired = true → (net'.acls a).authenticationCompleted = true)) : GateInv net' := by
  obtain ⟨es, he, hes⟩ := hlog
  refine ⟨hties, fun a ha => ?_, hannouncing, ?_⟩
  · rcases hcompleted a ha with h1 | h1
    · rw [he]
      exact (h.completed a h1).append es
    · exact h1
  · rw [he]
    refine (h.gate_append hes).mono fun pre e hok p hp => ?_
    obtain ⟨h1, h2⟩ := hok p hp
    rw [(hof p h1).1, (hof p h1).2]
    exact ⟨h1.trans_le hlt, h2⟩

theorem request_none_of_asked {b : Bool} {a : Nat} {c : UInt16} {room : Bool} {e : NetEvent}
    (h : e ∈ if b then [NetEvent.authRequested a c room] else []) : e.request = none := by
  split at h
  · rw [List.mem_singleton.1 h]
    rfl
  · cases h

theorem joined (h : GateInv net) {k : Fin 7} {a : Nat} {auth : Bool} (hk : net.table k = some a)
    (hcalm : (net.joinAcl a auth).Calm) : GateInv (net.joinAcl a auth) := by
  obtain ⟨han, hn, -, hl⟩ := joinAcl_rest net a auth
  have hcalm' : NetEvent.calm (.joined ⟨net.l2cap.allocated, a, auth, some (net.acls a), decide (a ∈ net.announcing)⟩) =
      true := by
    refine hcalm _ ?_
    rw [joinAcl_log]
    simp
  simp only [NetEvent.calm, Option.all_some] at hcalm'
  refine h.update (h.ties.joined hk auth) ⟨_, (joinAcl_log net a auth).trans (List.append_assoc ..), fun e he => ?_⟩
    (by rw [hl]; exact Nat.le_succ _) (fun p hp => ?_) (fun b hb => .inl ?_) fun b hb => ?_
  · simp only [List.mem_append, List.mem_cons, List.not_mem_nil, or_false] at he
    rcases he with (rfl | rfl) | he
    · rfl
    · rfl
    · exact request_none_of_asked he
  · rw [joinAcl_aclOf, joinAcl_auth, Function.update_of_ne (by omega), Function.update_of_ne (by omega)]
    exact ⟨rfl, rfl⟩
  · rw [joinAcl_acls] at hb
    by_cases hba : b = a
    · subst hba
      rwa [Function.update_self] at hb
    · rwa [Function.update_of_ne hba] at hb
  · rw [han] at hb
    obtain ⟨hlt, hg⟩ := h.announcing b hb
    rw [hn]
    refine ⟨hlt, ?_⟩
    rw [joinAcl_acls]
    by_cases hba : b = a
    · subst hba
      rw [Function.update_self]
      intro hr
      rcases Bool.or_eq_true _ _ ▸ hr with hr | hr
      · exact hg hr
      · simpa only [hr, hb, decide_true, Bool.not_true, Bool.false_or] using hcalm'
    · rwa [Function.update_of_ne hba]

theorem opened (h : GateInv net) (k : Fin 7) (hci : Hci) (address : BdAddr) (auth : Bool) :
    GateInv (net.openAcl k hci address auth) := by
  have hself : (net.openAcl k hci address auth).acls net.aclsAllocated =
      ⟨1, hci, address, bteConnHandleInvalid, auth, false, false, true, fun _ => none⟩ := Function.update_self ..
  have hother : ∀ b, b ≠ net.aclsAllocated → (net.openAcl k hci address auth).acls b = net.acls b :=
    fun b hb => Function.update_of_ne hb _ _
  refine h.update (h.ties.opened k hci address auth) ⟨_, List.append_assoc .., fun e he => ?_⟩ (Nat.le_succ _)
    (fun p hp => ⟨Function.update_of_ne (by omega) _ _, Function.update_of_ne (by omega) _ _⟩) (fun b hb => .inl ?_)
    fun b hb => ?_
  · simp only [List.mem_append, List.mem_cons, List.not_mem_nil, or_false] at he
    rcases he with rfl | rfl <;> rfl
  · by_cases hba : b = net.aclsAllocated
    · subst hba
      rw [hself] at hb
      cases hb
    · rwa [hother b hba] at hb
  · obtain ⟨hlt, hg⟩ := h.announcing b hb
    rw [hother b (by omega)]
    exact ⟨hlt.trans (Nat.lt_succ_self _), hg⟩

/-- **What one move preserves.** -/
theorem move (h : GateInv net) (hm : Move net net') (hcalm : net'.Calm) : GateInv net' := by
  have hties := h.ties.move hm
  cases hm with
  | call hm =>
    cases hm with
    | keeps hk => exact h.keeps hk
    | lost a =>
      have hflags : ∀ b, ((net.loseConnection a).acls b).authenticationRequired = (net.acls b).authenticationRequired ∧
          ((net.loseConnection a).acls b).authenticationCompleted = (net.acls b).authenticationCompleted := by
        intro b
        simp only [AclNet.loseConnection, AclNet.modifyAcl]
        by_cases hb : b = a
        · subst hb
          rw [Function.update_self]
          exact ⟨rfl, rfl⟩
        · rw [Function.update_of_ne hb]
          exact ⟨rfl, rfl⟩
      refine h.update hties ⟨_, rfl, fun e he => by rw [List.mem_singleton.1 he]; rfl⟩ le_rfl (fun _ _ => ⟨rfl, rfl⟩)
        (fun b hb => .inl ((hflags b).2 ▸ hb)) fun b hb => ?_
      rw [(hflags b).1, (hflags b).2]
      exact h.announcing b hb
    | joined k a auth hk => exact h.joined hk hcalm
    | opened k hci address auth => exact h.opened k hci address auth
  | listens ht => exact ⟨hties, h.completed, h.announcing, h.gate⟩
  | @connected pc buffer a he =>
    obtain ⟨h1, h2, h3, h4, -, h6⟩ := connectionUp_rest net a pc buffer
    have hflags : ∀ b, ((net.connectionUp pc buffer a).acls b).authenticationRequired = (net.acls b).authenticationRequired ∧
        ((net.connectionUp pc buffer a).acls b).authenticationCompleted = (net.acls b).authenticationCompleted := by
      intro b
      rw [connectionUp_acls]
      by_cases hb : b = a
      · subst hb
        rw [Function.update_self]
        exact ⟨rfl, rfl⟩
      · rw [Function.update_of_ne hb]
        exact ⟨rfl, rfl⟩
    refine h.update hties ⟨_, (connectionUp_log net a pc buffer).trans (List.append_assoc ..), fun e he => ?_⟩
      (by rw [h6]) (fun _ _ => by rw [h1, h2]; exact ⟨rfl, rfl⟩) (fun b hb => .inl ((hflags b).2 ▸ hb)) fun b hb => ?_
    · simp only [List.mem_append, List.mem_cons, List.not_mem_nil, or_false] at he
      rcases he with rfl | he
      · rfl
      · exact request_none_of_asked he
    · rw [h3] at hb
      rw [(hflags b).1, (hflags b).2, h4]
      exact h.announcing b hb
  | @authenticated pc buffer a he =>
    have hother : ∀ b, b ≠ a → (net.authenticated pc buffer a).acls b = net.acls b := fun b hb =>
        Function.update_of_ne hb _ _
    have hself : ((net.authenticated pc buffer a).acls a).authenticationCompleted = true := by
      simp only [AclNet.authenticated, AclNet.modifyAcl, Function.update_self]
    have hdone : Authenticated (net.authenticated pc buffer a).log a := by
      refine ⟨.completed a buffer, ?_, ?_⟩
      · rw [← userdata_of_errand he.errand]
        exact List.mem_append_right _ List.mem_cons_self
      · simp only [NetEvent.authenticates, he.code, he.status, Errand.code, and_self, decide_true]
    refine h.update hties ⟨_, rfl, fun e he => by rw [List.mem_singleton.1 he]; rfl⟩ le_rfl (fun _ _ => ⟨rfl, rfl⟩)
      (fun b hb => ?_) fun b hb => ?_
    · by_cases hba : b = a
      · exact .inr (hba ▸ hdone)
      · exact .inl (hother b hba ▸ hb)
    · obtain ⟨hlt, hg⟩ := h.announcing b hb
      refine ⟨hlt, ?_⟩
      by_cases hba : b = a
      · subst hba
        exact fun _ => hself
      · rwa [hother b hba]
  | announces a ha hg =>
    refine ⟨hties, h.completed, fun b hb => ?_, h.gate⟩
    rcases List.mem_cons.1 hb with rfl | hb
    · exact ⟨ha, hg⟩
    · exact h.announcing b hb
  | announced => exact ⟨hties, h.completed, fun b hb => h.announcing b (List.mem_of_mem_tail hb), h.gate⟩

theorem moves (h : GateInv net) (hm : Moves net net') (hcalm : net'.Calm) : GateInv net' := by
  induction hm with
  | refl => exact h
  | tail hfirst hlast ih =>
    have hcalm' : AclNet.Calm _ := fun e he => hcalm e (hlast.log.subset he)
    exact (ih hcalm').move hlast hcalm

end GateInv

theorem gateInv_start (clients : Fin 4 → Option Hci) (out : AclOut) : GateInv (.start clients out) where
  ties := ties_start clients out
  completed := fun a ha => by cases ha
  announcing := fun a ha => by cases ha
  gate := .nil

/-- **In every run in which no command overwrites the data of another one, no call with the flag joins an ACL that is being
announced without authentication, and no ACL is freed while a command of it is pending, a channel created with the flag is
started after the authentication of its ACL.** -/
theorem gated_run (host : L2capHost) (client : NetClient) (depth : Nat) (clients : Fin 4 → Option Hci) (out : AclOut)
    (ops : List NetOp) (hclean : (AclNet.after host client depth clients out ops).dev.Clean)
    (hcalm : (AclNet.after host client depth clients out ops).Calm) :
    (AclNet.after host client depth clients out ops).Gated :=
  ((gateInv_start clients out).moves (moves_run host client depth clients out ops hclean) hcalm).gate.mono
    fun _ _ hok p hp ha => (hok p hp).2 ha

/-! ## Runs -/

def deviceOne : BdAddr := ⟨0x10, 0x11, 0x12, 0x13, 0x14, 0x15⟩

/-- Its first three bytes are a connection handle and the code of Authentication Complete. -/
def deviceTwo : BdAddr := ⟨0x42, 0x00, 0x06, 0xa3, 0xa4, 0xa5⟩

def outgoing (address : BdAddr) (auth : Bool) (callback : Nat) : NetOp :=
  .newOutgoing ⟨0, address, 1, auth, callback, 0⟩

/-- The Command Status of Create Connection (5) or Authentication Requested (0x11). -/
def statusEvent (ocf status : UInt8) : NetOp := .event [0x0f, 4, status, 1, ocf, 0x04]

def connectedEvent (address : BdAddr) (connHandle status : UInt8) : NetOp :=
  .event ([0x03, 11, status, connHandle, 0] ++ address.bytes ++ [1, 0])

def authenticatedEvent (connHandle status : UInt8) : NetOp := .event [0x06, 3, status, connHandle, 0]

def oneClient : Fin 4 → Option Hci := fun i => if i = 0 then some 0 else none

def fullCredit : AclOut := ⟨8, 8, [], 0, []⟩

def noRetry : NetClient := fun _ _ => []

/-- A client that tries again with authentication when its channel could not be started. -/
def retryWithAuth : NetClient := fun c _ =>
  match c with
  | .connect 0 _ _ _ => [⟨0, deviceOne, 3, true, 1, 0⟩]
  | _ => []

def smallHost : L2capHost := { plainHost with aclMtu := 48 }

/-- The backend refuses the first packet. -/
def refusingHost : L2capHost := { smallHost with rc := fun k => if k = 0 then -1 else 0 }

def authenticatedRun : List NetOp :=
  [outgoing deviceOne true 0, statusEvent 5 0, connectedEvent deviceOne 0x42 0, statusEvent 0x11 0,
    authenticatedEvent 0x42 0]

theorem gated_run_authenticated :
    (AclNet.after smallHost noRetry 1 oneClient fullCredit authenticatedRun).log.any (fun e => e.request = some 0) = true ∧
    (AclNet.after smallHost noRetry 1 oneClient fullCredit authenticatedRun).auth 0 = true ∧
    (AclNet.after smallHost noRetry 1 oneClient fullCredit authenticatedRun).Gated :=
  ⟨by decide +kernel, by decide +kernel,
    gated_run smallHost noRetry 1 oneClient fullCredit authenticatedRun (by decide +kernel) (by decide +kernel)⟩

theorem not_gated {net : AclNet} (i : Nat) {p : Nat} (he : net.log[i]?.bind NetEvent.request = some p)
    (ha : net.auth p = true) (hn : (net.log.take i).all (fun e => !e.authenticates (net.aclOf p)) = true) : ¬ net.Gated := by
  intro h
  obtain ⟨e, hi, hp⟩ := Option.bind_eq_some_iff.1 he
  obtain ⟨e', he', hauth⟩ := h.get hi p hp ha
  have := List.all_eq_true.1 hn e' he'
  simp [hauth] at this

/-- The first ACL is connected.  A call with the flag asks for a connection to the second device, and before its Command
Status another one asks for authentication of the first. -/
def overwrittenRun : List NetOp :=
  [outgoing deviceOne false 0, statusEvent 5 0, connectedEvent deviceOne 0x42 0, outgoing deviceTwo true 0,
    outgoing deviceOne true 0, statusEvent 5 0, connectedEvent deviceTwo 0x43 0]

/-- The only channel cannot be started, and its client tries again from the callback. -/
def retryRun : List NetOp := [outgoing deviceOne false 0, statusEvent 5 0, connectedEvent deviceOne 0x42 0]

/-- The Authentication Requested makes the Connection Complete of the second device look like an authentication; the retry
is started by the loop that announces the connection. -/
theorem gate_defeated :
    (¬ (AclNet.after smallHost noRetry 1 oneClient fullCredit overwrittenRun).Gated ∧
      (AclNet.after smallHost noRetry 1 oneClient fullCredit overwrittenRun).Calm) ∧
    ¬ (AclNet.after refusingHost retryWithAuth 1 oneClient fullCredit retryRun).Gated ∧
    (AclNet.after refusingHost retryWithAuth 1 oneClient fullCredit retryRun).dev.Clean :=
  ⟨⟨not_gated (p := 1) 11 (by decide) (by decide) (by decide), by decide⟩,
    not_gated (p := 1) 9 (by decide) (by decide) (by decide), by decide⟩

end Bte
