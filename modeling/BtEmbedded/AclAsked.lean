import BtEmbedded.AclGate
/-!
# AclAsked — what `bte_acl_request_auth` asks for

Authentication is asked for once for an ACL, when a channel that requires it joins or when the connection completes.
`AskedInv` relates the flags to the log: whether the ACL is connected, with which handle, and what was asked for it.

The request is lost when a channel joins an ACL that is still being connected (it then names no connection, and the flag
stops the one that would), and when the pending-command table has no slot for it, as while another ACL's request waits
for its status.  An ACL that is freed while a command of it is pending leaves its pointer in the slot; the flags of the next
ACL in its block are then set by an event that was not its own.
-/
namespace Bte

/-! ## The property -/

/-- The connection of the ACL, as the controller's events leave it. -/
def NetEvent.connection (a : Nat) (c : Option UInt16) : NetEvent → Option UInt16
  | .completed b buffer =>
    if b = a ∧ buffer.getD 0 0 = hciConnectionComplete ∧ buffer.getD 2 0 = 0 then some (AclNet.completedHandle buffer) else c
  | .lost b => if b = a then none else c
  | _ => c

/-- The handle of the ACL's connection, if it has one. -/
def established (a : Nat) (log : List NetEvent) : Option UInt16 := log.foldl (fun c e => e.connection a c) none

/-- Every Authentication Requested names the connection of its ACL, and one was sent for every connected ACL with a channel
that requires it. -/
def AclNet.Asked (net : AclNet) : Prop :=
  Sys.History (fun pre e => ∀ a c room, e = .authRequested a c room → established a pre = some c) net.log ∧
  ∀ a i p c, (net.acls a).clients i = some p → net.auth p = true → established a net.log = some c →
    .authRequested a c true ∈ net.log

/-- A call with the flag that finds an ACL for which nothing was asked finds it connected, a request gets a slot, and no ACL
is freed while a command of it is pending. -/
def NetEvent.fair : NetEvent → Bool
  | .joined j => j.found.all fun acl => !j.auth || acl.authenticationRequested || acl.connHandle ≠ bteConnHandleInvalid
  | .authRequested _ _ room => room
  | .freed _ busy => !busy
  | _ => true

def AclNet.Fair (net : AclNet) : Prop := ∀ e ∈ net.log, e.fair = true

instance (net : AclNet) : Decidable net.Fair := inferInstanceAs (Decidable (∀ _ ∈ _, _))

/-! ## The log -/

@[simp] theorem established_append (a : Nat) (log es : List NetEvent) :
    established a (log ++ es) = es.foldl (fun c e => e.connection a c) (established a log) := List.foldl_append ..

/-- Events that say nothing about a connection. -/
def NetEvent.Neutral (e : NetEvent) (a : Nat) : Prop := ∀ c, e.connection a c = c

theorem established_neutral {a : Nat} {es : List NetEvent} (h : ∀ e ∈ es, e.Neutral a) (log : List NetEvent) :
    established a (log ++ es) = established a log := by
  rw [established_append]
  generalize established a log = c
  induction es with
  | nil => rfl
  | cons e es ih =>
    rw [List.foldl_cons, h e List.mem_cons_self]
    exact ih fun e' h' => h e' (List.mem_cons_of_mem _ h')

theorem neutral_of_allows {net : AclNet} {e : NetEvent} (h : net.Allows e) (a : Nat) : e.Neutral a := by
  intro c
  cases e with
  | completed b buffer =>
    have hs : ¬ (b = a ∧ buffer.getD 0 0 = hciConnectionComplete ∧ buffer.getD 2 0 = 0) := fun hc => h hc.2.2
    exact if_neg hs
  | lost b => exact h.elim
  | _ => rfl

theorem neutral_of_asked {asks : Bool} {a : Nat} {c : UInt16} {room : Bool} {e : NetEvent}
    (h : e ∈ if asks then [NetEvent.authRequested a c room] else []) (b : Nat) : e.Neutral b := by
  split at h
  · rw [List.mem_singleton.1 h]
    exact fun _ => rfl
  · cases h

/-! ## The commands in flight -/

/-- An ACL that is being connected is not connected and nothing was asked for it; no two slots connect the same ACL. -/
structure Errands (net : AclNet) : Prop where
  connecting : ∀ i a, net.dev.errand i = some (.connect, a) →
    established a net.log = none ∧ (net.acls a).authenticationRequested = false
  unique : ∀ i j a, net.dev.errand i = some (.connect, a) → net.dev.errand j = some (.connect, a) → i = j
  authenticating : ∀ i a, net.dev.errand i = some (.authenticate, a) → (net.acls a).authenticationRequested = true

/-- A move that connects nothing new. -/
theorem Errands.step {net net' : AclNet} (h : Errands net)
    (hs : ∀ i e a, net'.dev.errand i = some (e, a) → net.dev.errand i = some (e, a) ∨
      e = .authenticate ∧ (net'.acls a).authenticationRequested = true)
    (hc : ∀ i a, net.dev.errand i = some (.connect, a) → net'.dev.errand i = some (.connect, a) →
      established a net'.log = none ∧ (net'.acls a).authenticationRequested = false)
    (hr : ∀ a, (net.acls a).authenticationRequested = true → (net'.acls a).authenticationRequested = true) :
    Errands net' := by
  have hold : ∀ i a, net'.dev.errand i = some (.connect, a) → net.dev.errand i = some (.connect, a) := by
    intro i a hi
    rcases hs i _ a hi with h1 | ⟨h1, -⟩
    · exact h1
    · cases h1
  refine ⟨fun i a hi => hc i a (hold i a hi) hi, fun i j a hi hj => h.unique i j a (hold i a hi) (hold j a hj), ?_⟩
  intro i a hi
  rcases hs i _ a hi with h1 | ⟨-, h1⟩
  · exact hr a (h.authenticating i a h1)
  · exact h1

theorem Issues.errand {dev dev' : HciDev} {h : Hci} {fn : StatusFn} {statusCb : FnPtr} {u : Ptr}
    {f : AsyncCmdData → AsyncCmdData} (hi : Issues dev dev' h fn statusCb u f) {i : Fin 8} {e : Errand} {a : Nat}
    (he : dev'.errand i = some (e, a)) : dev.errand i = some (e, a) ∨ (FnPtr.status fn).errand = some e ∧ u = a := by
  rcases hi with hs | ⟨s, hs⟩
  · rcases hs.errand i with h1 | h1
    · exact .inl (h1 ▸ he)
    · rw [h1] at he
      cases he
  · rw [hs.errand] at he
    split at he
    · obtain ⟨e', hfn, hp⟩ := Option.map_eq_some_iff.1 he
      cases hp
      exact .inr ⟨hfn, rfl⟩
    · exact .inl he

theorem errand_withAuthRequest {net : AclNet} {a : Nat} {c : UInt16} {asks : Bool} {i : Fin 8} {e : Errand} {b : Nat}
    (he : (net.withAuthRequest a c asks).dev.errand i = some (e, b)) :
    net.dev.errand i = some (e, b) ∨ e = .authenticate ∧ b = a ∧ asks = true := by
  cases asks with
  | false => exact .inl he
  | true =>
    rcases (issues_auth net.dev (net.acls a).hci c a).errand he with h1 | ⟨h1, rfl⟩
    · exact .inl h1
    · cases e with
      | connect => exact absurd h1 (by decide)
      | authenticate => exact .inr ⟨rfl, rfl, rfl⟩

/-- The command that connects a new ACL. -/
theorem Errands.opened {net : AclNet} (h : Errands net) (hin : InFlight net)
    (hnone : established net.aclsAllocated net.log = none) (k : Fin 7) (hci : Hci) (address : BdAddr) (auth : Bool) :
    Errands (net.openAcl k hci address auth) := by
  have hest : ∀ b, established b (net.openAcl k hci address auth).log = established b net.log := by
    intro b
    rw [AclNet.openAcl, AclNet.takeAcl, AclNet.bteL2capNew, List.append_assoc]
    exact established_neutral (by simp [NetEvent.Neutral, NetEvent.connection]) _
  have hself : ((net.openAcl k hci address auth).acls net.aclsAllocated).authenticationRequested = false := by
    simp only [AclNet.openAcl, AclNet.takeAcl, Function.update_self]
  have hother : ∀ b, b ≠ net.aclsAllocated → (net.openAcl k hci address auth).acls b = net.acls b :=
    fun b hb => Function.update_of_ne hb _ _
  -- the slot that it takes, if any
  have hslot : ∃ s : Option (Fin 8), ∀ i e a, (net.openAcl k hci address auth).dev.errand i = some (e, a) →
      net.dev.errand i = some (e, a) ∧ a < net.aclsAllocated ∨ e = .connect ∧ a = net.aclsAllocated ∧ s = some i := by
    have hold : ∀ i, (bteHciDevInstallEventHandler
        (bteHciDevInstallEventHandler net.dev hciDisconnectionComplete (some .disconnectionCompleteEventCb))
        hciNbrOfCompletedPackets (some .nrOfCompletedPacketsEventCb)).errand i = net.dev.errand i :=
      fun i => errand_eq (by simp only [install_pendingCommands])
    rcases issues_create (bteHciDevInstallEventHandler
        (bteHciDevInstallEventHandler net.dev hciDisconnectionComplete (some .disconnectionCompleteEventCb))
        hciNbrOfCompletedPackets (some .nrOfCompletedPacketsEventCb)) hci address net.aclsAllocated with hs | ⟨s, hs⟩
    · refine ⟨none, fun i e a hi => .inl ?_⟩
      have hi' : net.dev.errand i = some (e, a) := by
        rcases hs.errand i with h1 | h1
        · rw [← hold, ← h1]
          exact hi
        · cases h1.symm.trans hi
      exact ⟨hi', hin.errands i e a hi'⟩
    · refine ⟨some s, fun i e a hi => ?_⟩
      have hi' := (hs.errand i).symm.trans hi
      split at hi'
      · rename_i his
        cases hi'
        exact .inr ⟨rfl, rfl, his ▸ rfl⟩
      · rw [hold] at hi'
        exact .inl ⟨hi', hin.errands i e a hi'⟩
  obtain ⟨s, hs⟩ := hslot
  refine ⟨fun i a hi => ?_, fun i j a hi hj => ?_, fun i a hi => ?_⟩
  · rw [hest]
    rcases hs i .connect a hi with ⟨h1, hlt⟩ | ⟨-, rfl, -⟩
    · rw [hother a (by omega)]
      exact h.connecting i a h1
    · exact ⟨hnone, hself⟩
  · rcases hs i .connect a hi with ⟨h1, hlt⟩ | ⟨-, rfl, h1⟩
    · rcases hs j .connect a hj with ⟨h2, -⟩ | ⟨-, rfl, -⟩
      · exact h.unique i j a h1 h2
      · exact absurd hlt (lt_irrefl _)
    · rcases hs j .connect _ hj with ⟨-, hlt⟩ | ⟨-, -, h2⟩
      · exact absurd hlt (lt_irrefl _)
      · exact Option.some.inj (h1.symm.trans h2)
  · rcases hs i .authenticate a hi with ⟨h1, hlt⟩ | ⟨h1, -⟩
    · rw [hother a (by omega)]
      exact h.authenticating i a h1
    · cases h1

/-- The listener runs the errand of the command that it takes over from. -/
theorem Errands.listens {net : AclNet} (h : Errands net) {dev : HciDev} {pc j : Fin 8} (ht : TakesOver net.dev dev pc j) :
    Errands { net with dev := dev } := by
  have hfrom : ∀ i e a, dev.errand i = some (e, a) → net.dev.errand (if i = j then pc else i) = some (e, a) ∧ i ≠ pc := by
    intro i e a hi
    have hpc : i ≠ pc := by
      rintro rfl
      rw [HciDev.errand, if_neg ht.freed] at hi
      cases hi
    refine ⟨?_, hpc⟩
    split
    · rename_i hij
      rwa [hij, ht.errand] at hi
    · rename_i hij
      rwa [errand_eq (ht.other i hij hpc)] at hi
  refine ⟨fun i a hi => h.connecting _ a (hfrom i _ a hi).1, fun i i' a hi hi' => ?_,
    fun i a hi => h.authenticating _ a (hfrom i _ a hi).1⟩
  obtain ⟨h1, hne⟩ := hfrom i _ a hi
  obtain ⟨h2, hne'⟩ := hfrom i' _ a hi'
  have heq := h.unique _ _ a h1 h2
  split at heq <;> split at heq
  · rename_i h3 h4
    exact h3.trans h4.symm
  · exact absurd heq.symm hne'
  · exact absurd heq hne
  · exact heq

/-! ## The invariant -/

/-- What the flags of ACL `a` say about the log. -/
structure Tells (net : AclNet) (a : Nat) : Prop where
  handle : (net.acls a).connHandle = (established a net.log).getD bteConnHandleInvalid
  fresh : net.aclsAllocated ≤ a → established a net.log = none
  requested : ∀ c, (net.acls a).authenticationRequested = true → established a net.log = some c →
    .authRequested a c true ∈ net.log
  required : ∀ c, (net.acls a).authenticationRequired = true → established a net.log = some c →
    (net.acls a).authenticationRequested = true
  completed : (net.acls a).authenticationCompleted = true → (net.acls a).authenticationRequested = true

/-- Every request of the log names the connection of its ACL. -/
def AllAsked (log : List NetEvent) : Prop :=
  Sys.History (fun pre e => ∀ a c room, e = .authRequested a c room → established a pre = some c) log

structure AskedInv (net : AclNet) : Prop where
  ties : Ties net
  errands : Errands net
  asked : AllAsked net.log
  tells : ∀ a, Tells net a

theorem Tells.same {net net' : AclNet} {a : Nat} (h : Tells net a) (hs : (net.acls a).Same (net'.acls a))
    (he : established a net'.log = established a net.log) (hl : net.log <+: net'.log)
    (hn : net.aclsAllocated ≤ net'.aclsAllocated) : Tells net' a where
  handle := by rw [hs.connHandle, he, h.handle]
  fresh := fun ha => he.trans (h.fresh (hn.trans ha))
  requested := by
    intro c hr hc
    rw [hs.requested] at hr
    rw [he] at hc
    exact hl.subset (h.requested c hr hc)
  required := by
    intro c hr hc
    rw [hs.required] at hr
    rw [he] at hc
    rw [hs.requested]
    exact h.required c hr hc
  completed := by
    rw [hs.completed, hs.requested]
    exact h.completed

/-- What is appended asks for nothing. -/
theorem AllAsked.append {log es : List NetEvent} (h : AllAsked log)
    (he : ∀ e ∈ es, ∀ a c room, e ≠ .authRequested a c room) : AllAsked (log ++ es) :=
  Sys.History.append h fun pre e post hes a c room hc =>
    absurd hc (he e (by rw [hes]; exact List.mem_append_right _ List.mem_cons_self) a c room)

theorem AllAsked.ask {log : List NetEvent} (h : AllAsked log) {asks : Bool} {a : Nat} {c : UInt16} (room : Bool)
    (hc : asks = true → established a log = some c) :
    AllAsked (log ++ if asks then [.authRequested a c room] else []) := by
  cases asks with
  | false => rwa [if_neg Bool.false_ne_true, List.append_nil]
  | true =>
    refine Sys.History.snoc h fun b d r he => ?_
    cases he
    exact hc rfl

namespace AskedInv

variable {net net' : AclNet}

/-- Moves that change no flag and no connection. -/
theorem same (h : AskedInv net) (hties : Ties net') {es : List NetEvent} (hlog : net'.log = net.log ++ es)
    (hes : ∀ e ∈ es, (∀ a, e.Neutral a) ∧ ∀ a c room, e ≠ .authRequested a c room)
    (hacls : ∀ a, (net.acls a).Same (net'.acls a)) (hn : net'.aclsAllocated = net.aclsAllocated)
    (herrands : Errands net') : AskedInv net' where
  ties := hties
  errands := herrands
  asked := hlog ▸ h.asked.append fun e he => (hes e he).2
  tells := fun a => (h.tells a).same (hacls a) (by rw [hlog]; exact established_neutral (fun e he => (hes e he).1 a) _)
    ⟨es, hlog.symm⟩ hn.ge

/-- Moves of one ACL. -/
theorem update (h : AskedInv net) (hties : Ties net') {a : Nat} {es : List NetEvent} (hlog : net'.log = net.log ++ es)
    (hacls : ∀ b, b ≠ a → net'.acls b = net.acls b) (hes : ∀ b, b ≠ a → ∀ e ∈ es, e.Neutral b)
    (hn : net.aclsAllocated ≤ net'.aclsAllocated) (herrands : Errands net') (hasked : AllAsked net'.log)
    (ha : Tells net' a) : AskedInv net' where
  ties := hties
  errands := herrands
  asked := hasked
  tells := by
    intro b
    by_cases hb : b = a
    · exact hb ▸ ha
    · refine (h.tells b).same (by rw [hacls b hb]; exact .refl _) ?_ ⟨es, hlog.symm⟩ hn
      rw [hlog]
      exact established_neutral (hes b hb) _

theorem keeps (h : AskedInv net) (hk : Keeps net net') : AskedInv net' := by
  obtain ⟨es, he, hes⟩ := hk.log
  have hneutral : ∀ e ∈ es, (∀ a, e.Neutral a) ∧ ∀ a c room, e ≠ .authRequested a c room := by
    refine fun e hmem => ⟨neutral_of_allows (hes e hmem), ?_⟩
    rintro a c room rfl
    exact hes _ hmem
  refine h.same (h.ties.keeps hk) he hneutral hk.acls hk.aclsAllocated ?_
  refine h.errands.step (fun i e a hi => .inl ?_) (fun i a hi _ => ?_) fun a ha => ?_
  · rcases hk.dev.errand i with h1 | h1
    · rwa [h1] at hi
    · rw [h1] at hi
      cases hi
  · rw [he, established_neutral (fun e he => (hneutral e he).1 a), (hk.acls a).requested]
    exact h.errands.connecting i a hi
  · rwa [(hk.acls a).requested]

theorem lost (h : AskedInv net) (a : Nat) : AskedInv (net.loseConnection a) := by
  have hself : (net.loseConnection a).acls a = { net.acls a with connHandle := bteConnHandleInvalid } :=
    Function.update_self ..
  have hother : ∀ b, b ≠ a → (net.loseConnection a).acls b = net.acls b := fun b hb => Function.update_of_ne hb _ _
  have hflag : ∀ b, ((net.loseConnection a).acls b).authenticationRequested = (net.acls b).authenticationRequested := by
    intro b
    by_cases hb : b = a
    · rw [hb, hself]
    · rw [hother b hb]
  have hlog : (net.loseConnection a).log = net.log ++ [.lost a] := rfl
  have hlost : ∀ b, established b (net.loseConnection a).log = if a = b then none else established b net.log := by
    intro b
    rw [hlog, established_append]
    rfl
  refine h.update (h.ties.move (.call (.lost a))) hlog hother (fun b hb e he => ?_) le_rfl ?_ ?_ ?_
  · rw [List.mem_singleton.1 he]
    exact fun _ => if_neg (Ne.symm hb)
  · refine h.errands.step (fun i e b hi => .inl hi) (fun i b hi _ => ?_) fun b hb => by rwa [hflag]
    obtain ⟨h1, h2⟩ := h.errands.connecting i b hi
    rw [hlost, hflag]
    exact ⟨by rw [h1, ite_self], h2⟩
  · refine hlog ▸ h.asked.append fun e he => ?_
    rw [List.mem_singleton.1 he]
    exact fun _ _ _ hc => (by cases hc)
  · have hnone : established a (net.loseConnection a).log = none := by rw [hlost, if_pos rfl]
    refine ⟨by rw [hself, hnone]; rfl, fun _ => hnone, fun c _ hc => ?_, fun c _ hc => ?_, fun hc => ?_⟩
    · rw [hnone] at hc
      cases hc
    · rw [hnone] at hc
      cases hc
    · rw [hself] at hc ⊢
      exact (h.tells a).completed hc

theorem joined (h : AskedInv net) {k : Fin 7} {a : Nat} {auth : Bool} (hk : net.table k = some a)
    (hfair : (net.joinAcl a auth).Fair) : AskedInv (net.joinAcl a auth) := by
  obtain ⟨-, hn, -, -⟩ := joinAcl_rest net a auth
  have hlog := joinAcl_log net a auth
  have hself : (net.joinAcl a auth).acls a = { net.acls a with
      refCount := (net.acls a).refCount + 1
      authenticationRequired := (net.acls a).authenticationRequired || auth
      authenticationRequested := (net.acls a).authenticationRequested || auth } := by
    rw [joinAcl_acls, Function.update_self]
  have hother : ∀ b, b ≠ a → (net.joinAcl a auth).acls b = net.acls b := fun b hb => by
    rw [joinAcl_acls, Function.update_of_ne hb]
  -- a channel that asks finds the ACL connected
  have hconn : (auth && !(net.acls a).authenticationRequested) = true →
      established a net.log = some (net.acls a).connHandle := by
    intro hasks
    have hf := hfair (.joined ⟨net.l2cap.allocated, a, auth, some (net.acls a), decide (a ∈ net.announcing)⟩) (by
      rw [hlog]
      simp)
    have hne : (net.acls a).connHandle ≠ bteConnHandleInvalid := by
      simp only [Bool.and_eq_true, Bool.not_eq_true'] at hasks
      simpa [NetEvent.fair, hasks.1, hasks.2] using hf
    cases he : established a net.log with
    | none =>
      have hh := (h.tells a).handle
      rw [he] at hh
      exact absurd hh hne
    | some c => rw [(h.tells a).handle, he, Option.getD_some]
  have hroom : (auth && !(net.acls a).authenticationRequested) = true →
      .authRequested a (net.acls a).connHandle true ∈ (net.joinAcl a auth).log := by
    intro hasks
    have hmem : NetEvent.authRequested a (net.acls a).connHandle (net.roomFor 0x11 0x01 5) ∈ (net.joinAcl a auth).log := by
      rw [hlog, if_pos hasks]
      simp
    have hr : net.roomFor 0x11 0x01 5 = true := hfair _ hmem
    rwa [hr] at hmem
  have hneutral : ∀ b, ∀ e ∈ [NetEvent.l2cap (.created net.l2cap.allocated true),
      .joined ⟨net.l2cap.allocated, a, auth, some (net.acls a), decide (a ∈ net.announcing)⟩] ++
      (if auth && !(net.acls a).authenticationRequested then
        [.authRequested a (net.acls a).connHandle (net.roomFor 0x11 0x01 5)] else []), e.Neutral b := by
    intro b e he
    simp only [List.mem_append, List.mem_cons, List.not_mem_nil, or_false] at he
    rcases he with (rfl | rfl) | he
    · exact fun _ => rfl
    · exact fun _ => rfl
    · exact neutral_of_asked he b
  have hest : ∀ b, established b (net.joinAcl a auth).log = established b net.log := by
    intro b
    rw [hlog, List.append_assoc]
    exact established_neutral (hneutral b) _
  refine h.update (h.ties.joined hk auth) (hlog.trans (List.append_assoc ..)) hother (fun b _ => hneutral b) hn.ge ?_ ?_ ?_
  · refine h.errands.step (fun i e b hi => ?_) (fun i b hi _ => ?_) fun b hb => ?_
    · rw [AclNet.joinAcl] at hi
      rcases errand_withAuthRequest hi with h1 | ⟨h1, rfl, hasks⟩
      · exact .inl h1
      · rw [hself]
        exact .inr ⟨h1, by simp_all⟩
    · obtain ⟨h1, h2⟩ := h.errands.connecting i b hi
      rw [hest]
      refine ⟨h1, ?_⟩
      by_cases hba : b = a
      · subst hba
        rw [hself]
        cases auth with
        | false => simpa using h2
        | true =>
          have hc := hconn (by rw [h2]; rfl)
          rw [h1] at hc
          cases hc
      · rwa [hother b hba]
    · by_cases hba : b = a
      · subst hba
        rw [hself]
        exact Bool.or_eq_true_iff.2 (.inl hb)
      · rwa [hother b hba]
  · rw [hlog]
    refine AllAsked.ask (h.asked.append fun e he => ?_) _ fun hasks => ?_
    · simp only [List.mem_cons, List.not_mem_nil, or_false] at he
      rcases he with rfl | rfl <;> exact fun _ _ _ hc => (by cases hc)
    · rw [established_neutral (fun e he => hneutral a e (List.mem_append_left _ he))]
      exact hconn hasks
  · obtain ⟨hhandle, hfresh, hrequested, hrequired, hcompleted⟩ := h.tells a
    refine ⟨by rw [hself, hest]; exact hhandle, fun ha => (hest a).trans (hfresh (hn ▸ ha)), fun c hr hc => ?_,
      fun c hr hc => ?_, fun hc => ?_⟩
    · rw [hest] at hc
      cases hold : (net.acls a).authenticationRequested with
      | true =>
        rw [hlog, List.append_assoc]
        exact List.mem_append_left _ (hrequested c hold hc)
      | false =>
        rw [hself] at hr
        have hasks : (auth && !(net.acls a).authenticationRequested) = true := by simpa [hold] using hr
        rw [hconn hasks] at hc
        cases hc
        exact hroom hasks
    · rw [hest] at hc
      rw [hself] at hr ⊢
      rcases Bool.or_eq_true_iff.1 hr with hr | hr
      · exact Bool.or_eq_true_iff.2 (.inl (hrequired c hr hc))
      · exact Bool.or_eq_true_iff.2 (.inr hr)
    · rw [hself] at hc ⊢
      exact Bool.or_eq_true_iff.2 (.inl (hcompleted hc))

theorem opened (h : AskedInv net) (hin : InFlight net) (k : Fin 7) (hci : Hci) (address : BdAddr) (auth : Bool) :
    AskedInv (net.openAcl k hci address auth) := by
  have hself : (net.openAcl k hci address auth).acls net.aclsAllocated =
      ⟨1, hci, address, bteConnHandleInvalid, auth, false, false, true, fun _ => none⟩ := Function.update_self ..
  have hother : ∀ b, b ≠ net.aclsAllocated → (net.openAcl k hci address auth).acls b = net.acls b :=
    fun b hb => Function.update_of_ne hb _ _
  have hlog : (net.openAcl k hci address auth).log = net.log ++ [.l2cap (.created net.l2cap.allocated true),
      .joined ⟨net.l2cap.allocated, net.aclsAllocated, auth, none, decide (net.aclsAllocated ∈ net.announcing)⟩] :=
    List.append_assoc ..
  have hneutral : ∀ b, ∀ e ∈ [NetEvent.l2cap (.created net.l2cap.allocated true), .joined ⟨net.l2cap.allocated,
      net.aclsAllocated, auth, none, decide (net.aclsAllocated ∈ net.announcing)⟩], e.Neutral b := by
    intro b e he
    simp only [List.mem_cons, List.not_mem_nil, or_false] at he
    rcases he with rfl | rfl <;> exact fun _ => rfl
  have hest : ∀ b, established b (net.openAcl k hci address auth).log = established b net.log := by
    intro b
    rw [hlog]
    exact established_neutral (hneutral b) _
  have hnone : established net.aclsAllocated net.log = none := (h.tells _).fresh le_rfl
  refine h.update (h.ties.opened k hci address auth) hlog hother (fun b _ => hneutral b) (Nat.le_succ _)
    (h.errands.opened hin hnone k hci address auth) (hlog ▸ h.asked.append fun e he => ?_) ?_
  · simp only [List.mem_cons, List.not_mem_nil, or_false] at he
    rcases he with rfl | rfl <;> exact fun _ _ _ hc => (by cases hc)
  · refine ⟨by rw [hself, hest, hnone]; rfl, fun _ => (hest _).trans hnone, fun c hr _ => ?_, fun c _ hc => ?_,
      fun hc => ?_⟩
    · rw [hself] at hr
      cases hr
    · rw [hest, hnone] at hc
      cases hc
    · rw [hself] at hc
      cases hc

theorem connected (h : AskedInv net) (hin : InFlight net) {pc : Fin 8} {buffer : List UInt8} {a : Nat}
    (he : net.Ends pc buffer .connect a) (hfair : (net.connectionUp pc buffer a).Fair) :
    AskedInv (net.connectionUp pc buffer a) := by
  obtain ⟨hnone, hrequested⟩ := h.errands.connecting pc a he.errand
  have hcompleted : (net.acls a).authenticationCompleted = false := by
    cases hc : (net.acls a).authenticationCompleted with
    | false => rfl
    | true => rw [← hrequested, (h.tells a).completed hc]
  have hself : (net.connectionUp pc buffer a).acls a = { net.acls a with
      connHandle := AclNet.completedHandle buffer
      authenticationRequested := (net.acls a).authenticationRequired } := by
    rw [connectionUp_acls, Function.update_self, hrequested, hcompleted, Bool.false_or, Bool.not_false, Bool.and_true]
  have hother : ∀ b, b ≠ a → (net.connectionUp pc buffer a).acls b = net.acls b := fun b hb => by
    rw [connectionUp_acls, Function.update_of_ne hb]
  have hlog : (net.connectionUp pc buffer a).log = net.log ++ [.completed a buffer] ++
      if (net.acls a).authenticationRequired then
        [.authRequested a (AclNet.completedHandle buffer) ((net.arrive pc buffer).roomFor 0x11 0x01 5)] else [] := by
    rw [connectionUp_log, userdata_of_errand he.errand, hrequested, hcompleted, Bool.not_false, Bool.and_true,
      Bool.and_true]
  have hup : ∀ b, established b (net.log ++ [.completed a buffer]) =
      if a = b then some (AclNet.completedHandle buffer) else established b net.log := by
    intro b
    rw [established_append]
    simp only [List.foldl_cons, List.foldl_nil, NetEvent.connection, he.code, he.status, Errand.code, and_true]
  have hest : ∀ b, established b (net.connectionUp pc buffer a).log =
      if a = b then some (AclNet.completedHandle buffer) else established b net.log := by
    intro b
    rw [hlog, established_neutral fun e he => neutral_of_asked he b]
    exact hup b
  have hself' : established a (net.connectionUp pc buffer a).log = some (AclNet.completedHandle buffer) := by
    rw [hest, if_pos rfl]
  have herrand : ∀ i e b, (net.connectionUp pc buffer a).dev.errand i = some (e, b) →
      i ≠ pc ∧ net.dev.errand i = some (e, b) ∨ e = .authenticate ∧ b = a ∧ (net.acls a).authenticationRequired = true := by
    intro i e b hi
    rcases errand_withAuthRequest hi with h1 | ⟨h1, h2, h3⟩
    · have h2 : (bteHciDevFreeCommand net.dev pc).errand i = some (e, b) := h1
      rw [errand_free] at h2
      split at h2
      · cases h2
      · rename_i hne
        exact .inl ⟨hne, h2⟩
    · rw [hrequested, hcompleted, Bool.not_false, Bool.and_true, Bool.and_true] at h3
      exact .inr ⟨h1, h2, h3⟩
  refine h.update (a := a) (h.ties.move (.connected he)) (hlog.trans (List.append_assoc ..)) hother
    (fun b hb e hmem => ?_) (connectionUp_rest net a pc buffer).2.2.2.1.ge ?_ ?_ ?_
  · rcases List.mem_append.1 hmem with hmem | hmem
    · rw [List.mem_singleton.1 hmem]
      exact fun _ => if_neg fun hc => hb hc.1.symm
    · exact neutral_of_asked hmem b
  · refine h.errands.step (fun i e b hi => ?_) (fun i b hold hnew => ?_) fun b hb => ?_
    · rcases herrand i e b hi with ⟨-, h1⟩ | ⟨h1, rfl, h2⟩
      · exact .inl h1
      · exact .inr ⟨h1, by rw [hself]; exact h2⟩
    · rcases herrand i .connect b hnew with ⟨hne, -⟩ | ⟨h1, -⟩
      · have hb : b ≠ a := by
          rintro rfl
          exact hne (h.errands.unique i pc b hold he.errand)
        rw [hest, if_neg (Ne.symm hb), hother b hb]
        exact h.errands.connecting i b hold
      · cases h1
    · have hb' : b ≠ a := by
        rintro rfl
        rw [hrequested] at hb
        cases hb
      rwa [hother b hb']
  · rw [hlog]
    refine AllAsked.ask (h.asked.append fun e hmem => ?_) _ fun _ => by rw [hup, if_pos rfl]
    rw [List.mem_singleton.1 hmem]
    exact fun _ _ _ hc => (by cases hc)
  · refine ⟨by rw [hself, hself']; rfl, fun ha => ?_, fun c hr hc => ?_, fun c hr _ => ?_, fun hc => ?_⟩
    · rw [(connectionUp_rest net a pc buffer).2.2.2.1] at ha
      exact absurd (hin.errands pc _ a he.errand) (by omega)
    · rw [hself'] at hc
      cases hc
      rw [hself] at hr
      have hmem : NetEvent.authRequested a (AclNet.completedHandle buffer) ((net.arrive pc buffer).roomFor 0x11 0x01 5) ∈
          (net.connectionUp pc buffer a).log := by
        rw [hlog, if_pos hr]
        exact List.mem_append_right _ List.mem_cons_self
      have hroom : (net.arrive pc buffer).roomFor 0x11 0x01 5 = true := hfair _ hmem
      rwa [hroom] at hmem
    · rw [hself] at hr ⊢
      exact hr
    · rw [hself] at hc
      rw [hcompleted] at hc
      cases hc

theorem authenticated (h : AskedInv net) {pc : Fin 8} {buffer : List UInt8} {a : Nat}
    (he : net.Ends pc buffer .authenticate a) : AskedInv (net.authenticated pc buffer a) := by
  have hself : (net.authenticated pc buffer a).acls a = { net.acls a with authenticationCompleted := true } :=
    Function.update_self ..
  have hother : ∀ b, b ≠ a → (net.authenticated pc buffer a).acls b = net.acls b :=
    fun b hb => Function.update_of_ne hb _ _
  have hflag : ∀ b, ((net.authenticated pc buffer a).acls b).authenticationRequested =
      (net.acls b).authenticationRequested := by
    intro b
    by_cases hb : b = a
    · rw [hb, hself]
    · rw [hother b hb]
  have hlog : (net.authenticated pc buffer a).log = net.log ++ [.completed a buffer] := by
    rw [← userdata_of_errand he.errand]
    rfl
  have hneutral : ∀ b, ∀ e ∈ [NetEvent.completed a buffer], e.Neutral b := by
    intro b e hmem
    rw [List.mem_singleton.1 hmem]
    refine fun c => if_neg fun hc => ?_
    rw [he.code] at hc
    exact absurd hc.2.1 (by decide)
  have hest : ∀ b, established b (net.authenticated pc buffer a).log = established b net.log := by
    intro b
    rw [hlog]
    exact established_neutral (hneutral b) _
  refine h.update (a := a) (h.ties.move (.authenticated he)) hlog hother (fun b _ => hneutral b) le_rfl ?_ ?_ ?_
  · refine h.errands.step (fun i e b hi => .inl ?_) (fun i b hi _ => ?_) fun b hb => by rwa [hflag]
    · have hi' : (bteHciDevFreeCommand net.dev pc).errand i = some (e, b) := hi
      rw [errand_free] at hi'
      split at hi'
      · cases hi'
      · exact hi'
    · rw [hest, hflag]
      exact h.errands.connecting i b hi
  · refine hlog ▸ h.asked.append fun e hmem => ?_
    rw [List.mem_singleton.1 hmem]
    exact fun _ _ _ hc => (by cases hc)
  · obtain ⟨hhandle, hfresh, hrequested, hrequired, -⟩ := h.tells a
    refine ⟨by rw [hself, hest]; exact hhandle, fun ha => (hest a).trans (hfresh ha), fun c hr hc => ?_,
      fun c hr hc => ?_, fun _ => ?_⟩
    · rw [hest] at hc
      rw [hself] at hr
      rw [hlog]
      exact List.mem_append_left _ (hrequested c hr hc)
    · rw [hest] at hc
      rw [hself] at hr ⊢
      exact hrequired c hr hc
    · rw [hself]
      exact h.errands.authenticating pc a he.errand

/-- **What one move preserves.** -/
theorem move (h : AskedInv net) (hin : InFlight net) (hm : Move net net') (hfair : net'.Fair) : AskedInv net' := by
  have hties := h.ties.move hm
  cases hm with
  | call hm =>
    cases hm with
    | keeps hk => exact h.keeps hk
    | lost a => exact h.lost a
    | joined k a auth hk => exact h.joined hk hfair
    | opened k hci address auth => exact h.opened hin k hci address auth
  | listens ht => exact ⟨hties, h.errands.listens ht, h.asked, fun a =>
      (h.tells a).same (.refl _) rfl List.prefix_rfl le_rfl⟩
  | connected he => exact h.connected hin he hfair
  | authenticated he => exact h.authenticated he
  | announces a ha hg =>
    exact ⟨hties, ⟨h.errands.connecting, h.errands.unique, h.errands.authenticating⟩, h.asked,
      fun a => (h.tells a).same (.refl _) rfl List.prefix_rfl le_rfl⟩
  | announced =>
    exact ⟨hties, ⟨h.errands.connecting, h.errands.unique, h.errands.authenticating⟩, h.asked,
      fun a => (h.tells a).same (.refl _) rfl List.prefix_rfl le_rfl⟩

theorem moves (h : AskedInv net) (hin : InFlight net) (hm : Moves net net') (hclean : net'.dev.Clean)
    (hfair : net'.Fair) : AskedInv net' := by
  induction hm with
  | refl => exact h
  | tail hfirst hlast ih =>
    have hclean' := clean_of_grows hlast.stores hclean
    have hfair' : AclNet.Fair _ := fun e he => hfair e (hlast.log.subset he)
    exact (ih hclean' hfair').move (inFlight_moves hfirst hin hclean') hlast hfair

end AskedInv

theorem askedInv_start (clients : Fin 4 → Option Hci) (out : AclOut) : AskedInv (.start clients out) where
  ties := ties_start clients out
  errands := ⟨fun i a hi => (by cases hi), fun i j a hi => (by cases hi), fun i a hi => (by cases hi)⟩
  asked := .nil
  tells := fun a => ⟨rfl, fun _ => rfl, fun c hr => (by cases hr), fun c hr => (by cases hr), fun hc => (by cases hc)⟩

/-- **In every run in which no command overwrites the data of another one, every call with the flag that finds an ACL for
which nothing was asked finds it connected, every request gets a slot, and no ACL is freed while a command of it is pending,
authentication is asked for for every connection with a channel that requires it, and for nothing else.** -/
theorem asked_run (host : L2capHost) (client : NetClient) (depth : Nat) (clients : Fin 4 → Option Hci) (out : AclOut)
    (ops : List NetOp) (hclean : (AclNet.after host client depth clients out ops).dev.Clean)
    (hfair : (AclNet.after host client depth clients out ops).Fair) :
    (AclNet.after host client depth clients out ops).Asked := by
  have h := (askedInv_start clients out).moves (inFlight_start clients out)
    (moves_run host client depth clients out ops hclean) hclean hfair
  refine ⟨h.asked, fun a i p c hp hauth hc => ?_⟩
  obtain ⟨rfl, -⟩ := h.ties.clients a i p hp
  exact (h.tells _).requested c ((h.tells _).required c (h.ties.required p hauth).1 hc) hc

theorem asked_run_authenticated :
    (AclNet.after smallHost noRetry 1 oneClient fullCredit authenticatedRun).auth 0 = true ∧
    established 0 (AclNet.after smallHost noRetry 1 oneClient fullCredit authenticatedRun).log = some 0x42 ∧
    (AclNet.after smallHost noRetry 1 oneClient fullCredit authenticatedRun).Asked :=
  ⟨by decide +kernel, by decide +kernel,
    asked_run smallHost noRetry 1 oneClient fullCredit authenticatedRun (by decide +kernel) (by decide +kernel)⟩

/-! ## Runs -/

/-- What an event asks for. -/
def NetEvent.asks : NetEvent → Option (Nat × UInt16)
  | .authRequested a c true => some (a, c)
  | _ => none

theorem not_asked_of_handle {net : AclNet} (i : Nat) {a : Nat} {c : UInt16}
    (he : net.log[i]?.bind NetEvent.asks = some (a, c)) (hn : established a (net.log.take i) ≠ some c) : ¬ net.Asked := by
  intro h
  obtain ⟨e, hi, hp⟩ := Option.bind_eq_some_iff.1 he
  refine hn (h.1.get hi a c true ?_)
  revert hp
  unfold NetEvent.asks
  split
  · intro hp
    cases hp
    rfl
  · exact nofun

theorem not_asked_of_missing {net : AclNet} (a : Nat) (i : Fin 4) {p : Nat} {c : UInt16}
    (hp : (net.acls a).clients i = some p) (hauth : net.auth p = true) (hc : established a net.log = some c)
    (hn : net.log.all (fun e => e.asks ≠ some (a, c)) = true) : ¬ net.Asked := by
  intro h
  have := List.all_eq_true.1 hn _ (h.2 a i p c hp hauth hc)
  simp [NetEvent.asks] at this

/-- A channel that requires authentication joins an ACL that is being connected. -/
def joinedRun : List NetOp :=
  [outgoing deviceOne false 0, statusEvent 5 0, outgoing deviceOne true 0, connectedEvent deviceOne 0x42 0]

/-- Two devices are connected, each with a channel that requires authentication, one right after the other. -/
def twiceRun : List NetOp :=
  [outgoing deviceOne true 0, statusEvent 5 0, outgoing deviceTwo true 0, statusEvent 5 0,
    connectedEvent deviceOne 0x42 0, connectedEvent deviceTwo 0x43 0]

/-- The first request names no connection, and there is none when the connection completes; in the second run the request
for the second device is refused. -/
theorem request_lost :
    (¬ (AclNet.after smallHost noRetry 1 oneClient fullCredit joinedRun).Asked ∧
      (AclNet.after smallHost noRetry 1 oneClient fullCredit joinedRun).log.any
        (fun e => e.asks = some (0, bteConnHandleInvalid)) = true ∧
      (AclNet.after smallHost noRetry 1 oneClient fullCredit joinedRun).log.any (fun e => e.asks = some (0, 0x42)) = false ∧
      (AclNet.after smallHost noRetry 1 oneClient fullCredit joinedRun).dev.Clean) ∧
    ¬ (AclNet.after smallHost noRetry 1 oneClient fullCredit twiceRun).Asked ∧
    (AclNet.after smallHost noRetry 1 oneClient fullCredit twiceRun).dev.Clean :=
  ⟨⟨not_asked_of_handle 4 (a := 0) (c := bteConnHandleInvalid) (by decide) (by decide), by decide, by decide,
      by decide⟩,
    not_asked_of_missing 1 0 (p := 1) (c := 0x43) (by decide) (by decide) (by decide) (by decide),
    by decide⟩

end Bte
