import BtEmbedded.AclMoves
import BtEmbedded.ReplyRouting
/-!
# AclEvents — the commands in flight, and the controller's events

`InFlight` says what the pending commands of acl.c are: as long as no command has overwritten the data of another one that
waits for its status, every slot in use runs its errand with its own callback, and completion events reach the ACL they
are about.  Under it, every event is a sequence of moves; without it, events still only add to the log.
-/
namespace Bte

open Bytes

/-! ## The table -/

/-- Every slot in use was filled by acl.c, for an ACL there is. -/
structure InFlight (net : AclNet) : Prop where
  slots : ∀ i, net.dev.Occupied i → Serves net.dev (net.dev.pendingCommands i)
  errands : ∀ i e a, net.dev.errand i = some (e, a) → a < net.aclsAllocated
  handlers : ∀ code e, bteHciDevHandlerForEvent net.dev code = some e → (code, e) ∈ aclHandlers
  table : ∀ k a, net.table k = some a → a < net.aclsAllocated

theorem handlersFrom_trans {dev dev' dev'' : HciDev} (h : HandlersFrom dev dev') (h' : HandlersFrom dev' dev'') :
    HandlersFrom dev dev'' := by
  intro code e he
  rcases h' code e he with h1 | h1
  · exact h code e h1
  · exact .inr h1

/-- The slots of the handler table that acl.c uses are not shared. -/
theorem handlerIndex_eq {code k : UInt8} (hk : k ≠ 0) (h : handlerIndex code = some k) : code = k := by
  simp only [handlerIndex] at h
  split at h
  · split at h
    · cases h
    · exact absurd (Option.some.inj h).symm hk
  · split at h
    · cases h
    · exact Option.some.inj h

theorem index_of_aclHandlers {k : UInt8} {e : EventHandler} (h : (k, e) ∈ aclHandlers) :
    handlerIndex k = some k ∧ k ≠ 0 := by
  simp only [aclHandlers, List.mem_cons, Prod.mk.injEq, List.not_mem_nil, or_false] at h
  rcases h with ⟨rfl, -⟩ | ⟨rfl, -⟩ | ⟨rfl, -⟩ | ⟨rfl, -⟩ <;> decide

theorem handlersFrom_install (dev : HciDev) {k : UInt8} {e : EventHandler} (h : (k, e) ∈ aclHandlers) :
    HandlersFrom dev (bteHciDevInstallEventHandler dev k (some e)) := by
  obtain ⟨hi, hk⟩ := index_of_aclHandlers h
  intro code e' he
  simp only [bteHciDevInstallEventHandler, hi, bteHciDevHandlerForEvent] at he ⊢
  cases hc : handlerIndex code with
  | none =>
    rw [hc] at he
    cases he
  | some c =>
    rw [hc] at he
    simp only [Option.bind_some] at he ⊢
    by_cases hck : c = k
    · subst hck
      rw [Function.update_self] at he
      cases he
      rw [handlerIndex_eq hk hc]
      exact .inr h
    · rw [Function.update_of_ne hck] at he
      exact .inl he

/-! ## Moves -/

theorem serves_awaiting {dev dev' : HciDev} {pc : PendingCommand} (h : Serves dev pc)
    (hd : ∀ h, pc.AwaitsStatus h → dev'.lastAsyncCmdData h = dev.lastAsyncCmdData h) : Serves dev' pc := by
  have hawaits : ∀ (h : Hci) (opcode : List UInt8) (fn : StatusFn) (cb : FnPtr), opcode.length = 2 →
      pc = ⟨commandMatcher hciCommandStatus opcode, some h, pc.userdata, ⟨.status fn, cb⟩⟩ → pc.AwaitsStatus h := by
    intro h opcode fn cb hl hpc
    rw [hpc]
    refine ⟨?_, rfl, rfl⟩
    rw [commandMatcher_rules (.inr rfl) hl]
    rfl
  cases h with
  | disconnect h => exact .disconnect h
  | creating h opcode hl hpc hcb =>
    rw [← hd h (hawaits h opcode _ _ hl hpc)] at hcb
    exact .creating h opcode hl hpc hcb
  | requesting h opcode hl hpc hcb hc hh =>
    rw [← hd h (hawaits h opcode _ _ hl hpc)] at hcb hc hh
    exact .requesting h opcode hl hpc hcb hc hh
  | listening e data offset hl hm hw => exact .listening e data offset hl hm hw

theorem InFlight.still {net : AclNet} (h : InFlight net) (net' : AclNet) (hs : Still net.dev net'.dev)
    (ha : net'.aclsAllocated = net.aclsAllocated) (ht : ∀ k a, net'.table k = some a → net.table k = some a) :
    InFlight net' where
  slots := by
    intro i ho
    rcases hs.slots i ho with hi | hi
    · have ho' : net.dev.Occupied i := by rwa [HciDev.Occupied, hi] at ho
      rw [hi]
      exact serves_awaiting (h.slots i ho') fun _ _ => by rw [hs.data]
    · exact .disconnect hi
  errands := by
    intro i e a he
    rw [ha]
    rcases hs.errand i with hi | hi
    · rw [hi] at he
      exact h.errands i e a he
    · rw [hi] at he
      cases he
  handlers := by
    intro code e he
    rcases hs.handlers code e he with h1 | h1
    · exact h.handlers code e h1
    · exact h1
  table := fun k a hk => ha ▸ h.table k a (ht k a hk)

/-- A command is sent for an ACL there is; no other command of the client awaits its status. -/
theorem InFlight.sent {net : AclNet} (h : InFlight net) (net' : AclNet) {hci : Hci} {fn : StatusFn}
    {statusCb : FnPtr} {a : Nat}
    {f : AsyncCmdData → AsyncCmdData} {s : Fin 8} (hs : Sent net.dev net'.dev hci fn statusCb a f s)
    (hclean : net'.dev.Clean) (hserves : Serves net'.dev (net'.dev.pendingCommands s))
    (hhandlers : HandlersFrom net.dev net'.dev)
    (hle : net.aclsAllocated ≤ net'.aclsAllocated) (ha : a < net'.aclsAllocated)
    (ht : ∀ k a, net'.table k = some a → a < net'.aclsAllocated) : InFlight net' where
  slots := by
    intro i ho
    by_cases his : i = s
    · exact his ▸ hserves
    · have ho' : net.dev.Occupied i := by rwa [HciDev.Occupied, hs.other i his] at ho
      rw [hs.other i his]
      obtain ⟨b, hb, halone⟩ := hs.stores
      obtain ⟨-, rfl⟩ := clean_append hb hclean
      refine serves_awaiting (h.slots i ho') fun h' haw => ?_
      have hne : h' ≠ hci := by
        rintro rfl
        exact halone rfl i his haw
      rw [hs.data, Function.update_of_ne hne]
  errands := by
    intro i e b he
    rw [hs.errand] at he
    split at he
    · obtain ⟨_, -, hab⟩ := Option.map_eq_some_iff.1 he
      cases hab
      exact ha
    · exact (h.errands i e b he).trans_le hle
  handlers := by
    intro code e he
    rcases hhandlers code e he with h1 | h1
    · exact h.handlers code e h1
    · exact h1
  table := ht

theorem InFlight.withAuthRequest {net : AclNet} (h : InFlight net) {a : Nat} (ha : a < net.aclsAllocated) (c : UInt16)
    (asks : Bool) (hclean : (net.withAuthRequest a c asks).dev.Clean) : InFlight (net.withAuthRequest a c asks) := by
  cases asks with
  | false => exact h
  | true =>
    rcases issues_auth net.dev (net.acls a).hci c a with hs | ⟨s, hs⟩
    · exact h.still (net.withAuthRequest a c true) hs rfl fun _ _ h => h
    · obtain ⟨opcode, hl, hslot⟩ := hs.slot
      refine h.sent (net.withAuthRequest a c true) hs hclean ?_ (handlersFrom_of_eq hs.handlers) le_rfl ha h.table
      have hdev : (net.withAuthRequest a c true).dev = bteHciAuthRequested net.dev (net.acls a).hci c .null
          authRequestedFn a :=
        rfl
      rw [hdev, hslot]
      refine .requesting (net.acls a).hci opcode hl rfl ?_ ?_ ?_ <;> rw [hs.data, Function.update_self]
      rfl

theorem inFlight_call {net net' : AclNet} (hm : CallMove net net') (h : InFlight net) (hclean : net'.dev.Clean) :
    InFlight net' := by
  cases hm with
  | keeps hk => exact h.still _ hk.dev hk.aclsAllocated hk.table
  | lost a => exact h.still _ (.refl _) rfl fun _ _ h => h
  | joined k a auth hk =>
    have ha := h.table k a hk
    rw [AclNet.joinAcl] at hclean ⊢
    refine InFlight.withAuthRequest ?_ (by exact ha) _ _ hclean
    exact h.still _ (.refl _) rfl fun _ _ h => h
  | opened k hci address auth =>
    have hhandlers : HandlersFrom net.dev (bteHciDevInstallEventHandler
        (bteHciDevInstallEventHandler net.dev hciDisconnectionComplete (some .disconnectionCompleteEventCb))
        hciNbrOfCompletedPackets (some .nrOfCompletedPacketsEventCb)) :=
      handlersFrom_trans (handlersFrom_install _ (by decide)) (handlersFrom_install _ (by decide))
    have hstill : Still net.dev (bteHciDevInstallEventHandler
        (bteHciDevInstallEventHandler net.dev hciDisconnectionComplete (some .disconnectionCompleteEventCb))
        hciNbrOfCompletedPackets (some .nrOfCompletedPacketsEventCb)) :=
      ⟨by simp only [install_lastAsyncCmdData], by simp only [install_stores], hhandlers,
        fun i _ => .inl (by simp only [install_pendingCommands])⟩
    have htable : ∀ j b, Function.update net.table k (some net.aclsAllocated) j = some b → b < net.aclsAllocated + 1 := by
      intro j b hj
      by_cases hjk : j = k
      · subst hjk
        rw [Function.update_self] at hj
        cases hj
        exact Nat.lt_succ_self _
      · rw [Function.update_of_ne hjk] at hj
        exact (h.table j b hj).trans (Nat.lt_succ_self _)
    generalize hd : bteHciDevInstallEventHandler
        (bteHciDevInstallEventHandler net.dev hciDisconnectionComplete (some .disconnectionCompleteEventCb))
        hciNbrOfCompletedPackets (some .nrOfCompletedPacketsEventCb) = d at hstill
    have hinstalled : InFlight { net with dev := d } :=
      h.still { net with dev := d } hstill rfl fun _ _ h => h
    have hdev : (net.openAcl k hci address auth).dev =
        bteHciCreateConnection d hci address connectStatusFn connectFn net.aclsAllocated := by
      rw [← hd]
      rfl
    rcases issues_create d hci address net.aclsAllocated with hs | ⟨s, hs⟩
    · rw [← hdev] at hs
      have hmid := hinstalled.still { net with dev := (net.openAcl k hci address auth).dev } hs rfl fun _ _ h => h
      exact ⟨hmid.slots, fun i e a he => (hmid.errands i e a he).trans (Nat.lt_succ_self _), hmid.handlers, htable⟩
    · rw [← hdev] at hs
      obtain ⟨opcode, hl, hslot⟩ := hs.slot
      refine hinstalled.sent _ hs hclean ?_ (handlersFrom_of_eq hs.handlers) (Nat.le_succ _) (Nat.lt_succ_self _) htable
      refine .creating hci opcode hl ?_ ?_
      · rw [hslot]
      · rw [hs.data, Function.update_self]

/-- **Moves keep the table in order**, as long as no command's data is overwritten. -/
theorem inFlight_move {net net' : AclNet} (hm : Move net net') (h : InFlight net) (hclean : net'.dev.Clean) :
    InFlight net' := by
  cases hm with
  | call hm => exact inFlight_call hm h hclean
  | @listens dev pc j ht =>
    refine ⟨fun i ho => ?_, fun i e a he => ?_, fun code e he => ?_, h.table⟩
    · by_cases hj : i = j
      · exact hj ▸ ht.serves
      · by_cases hpc : i = pc
        · exact absurd (hpc ▸ ho) ht.freed
        · have hi := ht.other i hj hpc
          have ho' : net.dev.Occupied i := by rwa [HciDev.Occupied, hi] at ho
          simp only [hi]
          exact serves_awaiting (h.slots i ho') fun _ _ => by rw [ht.data]
    · by_cases hj : i = j
      · subst hj
        simp only [ht.errand] at he
        exact h.errands pc e a he
      · by_cases hpc : i = pc
        · subst hpc
          simp only [HciDev.errand, if_neg ht.freed] at he
          cases he
        · simp only [errand_eq (ht.other i hj hpc)] at he
          exact h.errands i e a he
    · rcases ht.handlers code e he with h1 | h1
      · exact h.handlers code e h1
      · exact h1
  | @connected pc buffer a he =>
    have ha := h.errands pc _ a he.errand
    rw [AclNet.connectionUp] at hclean ⊢
    refine InFlight.withAuthRequest ?_ (by exact ha) _ _ hclean
    exact h.still _ (still_free net.dev pc) rfl fun _ _ h => h
  | @authenticated pc buffer a he => exact h.still _ (still_free net.dev pc) rfl fun _ _ h => h
  | announces a ha hg => exact h.still _ (.refl _) rfl fun _ _ h => h
  | announced => exact h.still _ (.refl _) rfl fun _ _ h => h

theorem clean_of_grows {dev dev' : HciDev} (hp : dev.stores <+: dev'.stores) (h : dev'.Clean) : dev.Clean :=
  fun s hs => h s (hp.subset hs)

theorem inFlight_moves {net net' : AclNet} (hm : Moves net net') (h : InFlight net) (hclean : net'.dev.Clean) :
    InFlight net' := by
  induction hm with
  | refl => exact h
  | tail hfirst hlast ih => exact inFlight_move hlast (ih (clean_of_grows hlast.stores hclean)) hclean

/-! ## Events only add to the log -/

/-- The device alone never takes a write of a union back. -/
theorem stable_stores (stores : List Store) : Stable fun dev => stores <+: dev.stores where
  quiet := fun hq h => by rwa [hq.stores]
  apply := by
    intro dev c h
    generalize hd : c.apply dev = dev'
    have hw := apply_written dev c
    rw [hd] at hw
    cases hw with
    | quiet hq => rwa [hq.stores]
    | issued h' fn f s hi hf hok =>
      obtain ⟨b, hb, -⟩ := hi.stores
      rw [hb]
      exact h.trans (List.prefix_append _ _)
    | created h' =>
      refine h.trans ?_
      unfold bteClientNew bteHciDevAddClient
      split <;> exact List.prefix_append _ _
    | registered h' callback u =>
      refine h.trans ?_
      unfold bteHciOnInitialized
      simp only
      split <;> exact List.prefix_append _ _

theorem grows_dev (net : AclNet) {dev : HciDev} (h : net.dev.stores <+: dev.stores) : Grows net { net with dev := dev } :=
  ⟨List.prefix_rfl, h⟩

theorem noClient_eq : AclNet.noClient = (⟨[], false⟩ : Callback).cb := rfl

theorem requestAuth_eq (net : AclNet) (a : Nat) :
    net.bteAclRequestAuth a = (net.modifyAcl a fun acl => { acl with authenticationRequested := true }).withAuthRequest a
      (net.acls a).connHandle (!(net.acls a).authenticationRequested) := by
  unfold AclNet.bteAclRequestAuth AclNet.withAuthRequest AclNet.modifyAcl
  cases hr : (net.acls a).authenticationRequested
  · simp [hr, AclNet.roomFor]
  · have : ({ net.acls a with authenticationRequested := true } : Acl) = net.acls a := by rw [← hr]
    simp [hr, this]

theorem grows_requestAuth (net : AclNet) (a : Nat) : Grows net (net.bteAclRequestAuth a) := by
  rw [requestAuth_eq]
  constructor
  · rw [log_withAuthRequest]
    exact List.prefix_append _ _
  · refine stores_withAuthRequest ?_ _ _ _
    exact List.prefix_rfl

section Growth

variable {host : NetHost} (hh : host.Calling)
include hh

theorem grows_aclConnectedCb (net : AclNet) (a : Nat) (status : UInt8) : Grows net (net.aclConnectedCb host a status) := by
  by_cases hs : status = 0
  · unfold AclNet.aclConnectedCb
    simp only [hs, if_true]
    have hloop := (calls_announcement hh { net.bteAclRef a with announcing := a :: (net.bteAclRef a).announcing } a 0
      fun _ => List.mem_cons_self).moves.grows
    refine hloop.trans (Grows.trans ?_ (calls_unref _ a).moves.grows)
    exact ⟨List.prefix_rfl, List.prefix_rfl⟩
  · exact (calls_aclConnectedCb_failed hh net a hs).moves.grows

theorem grows_callFn (net : AclNet) (fn : FnPtr) (a : Nat) (status : UInt8) (c : UInt16) :
    Grows net (net.callFn host fn a status c) := by
  unfold AclNet.callFn
  split
  · exact (calls_connectStatusCb hh net a status).moves.grows
  · split
    · unfold AclNet.connectCb
      simp only
      split
      · split
        · exact grows_requestAuth (net.modifyAcl a _) a
        · exact grows_aclConnectedCb hh (net.modifyAcl a _) a status
      · exact grows_aclConnectedCb hh net a status
    · split
      · unfold AclNet.authRequestedCb
        simp only
        split
        · exact grows_aclConnectedCb hh (net.modifyAcl a _) a status
        · exact grows_aclConnectedCb hh net a status
      · exact .refl net

theorem grows_callStatus (net : AclNet) (fn : FnPtr) (hci : Option Hci) (status : UInt8) (pc : Fin 8) :
    Grows net (net.callStatus host fn hci status pc) := by
  unfold AclNet.callStatus
  split
  · simp only
    split
    · exact (grows_callFn hh net _ _ status 0).trans (grows_dev _ List.prefix_rfl)
    · exact grows_dev net List.prefix_rfl
  · refine grows_dev net ?_
    rw [noClient_eq]
    exact (stable_stores net.dev.stores).callStatus _ List.prefix_rfl fn hci status pc

theorem grows_deliverStatus (net : AclNet) (buffer : List UInt8) : Grows net (net.deliverStatusToClient host buffer) := by
  unfold AclNet.deliverStatusToClient
  split
  · exact .refl net
  · rename_i pc _
    have h : Grows net (if (net.dev.pendingCommands pc).commandCb.word0 = .null then
          { net with dev := bteHciDevFreeCommand net.dev pc }
        else net.callStatus host (net.dev.pendingCommands pc).commandCb.word0 (net.dev.pendingCommands pc).hci
          (buffer.getD hciCmdStatusPosStatus 0) pc) := by
      split
      · exact grows_dev net List.prefix_rfl
      · exact grows_callStatus hh net _ _ _ pc
    simp only
    split
    · exact h
    · exact h.trans (grows_callFn hh _ _ _ _ 0)

theorem grows_completionEvent (net : AclNet) (buffer : List UInt8) : Grows net (net.completionEvent host buffer) := by
  unfold AclNet.completionEvent
  split
  · exact .refl net
  · rename_i pc _
    simp only
    split
    · exact grows_dev net List.prefix_rfl
    · have h : Grows net (net.arrive pc buffer) := ⟨List.prefix_append _ _, List.prefix_rfl⟩
      exact h.trans (grows_callFn hh _ _ _ _ _)

theorem calls_disconnectionComplete (net : AclNet) (buffer : List UInt8) :
    Calls net (net.disconnectionCompleteEventCb host buffer) := by
  unfold AclNet.disconnectionCompleteEventCb
  split
  · split
    · exact .refl
    · exact calls_aclDisconnected hh net _ _
  · exact .refl

theorem grows_runHandler (net : AclNet) (buffer : List UInt8) (e : EventHandler) :
    Grows net (net.runHandler host buffer e) := by
  have hdev : ∀ e, Grows net { net with dev := Bte.runHandler net.dev AclNet.noClient buffer e } := by
    intro e
    refine grows_dev net ?_
    rw [noClient_eq]
    exact (stable_stores net.dev.stores).runHandler _ List.prefix_rfl buffer e
  cases e with
  | connCompleteEventCb => exact grows_completionEvent hh net buffer
  | authCompleteEventCb => exact grows_completionEvent hh net buffer
  | disconnectionCompleteEventCb => exact (calls_disconnectionComplete hh net buffer).moves.grows
  | nrOfCompletedPacketsEventCb => exact .refl net
  | _ => exact hdev _

/-- What an event does before its handler is looked up. -/
theorem grows_step (net : AclNet) (op : NetOp) : Grows net (net.step host op) := by
  cases op with
  | newOutgoing call => exact (calls_newOutgoing hh net call).moves.grows
  | event buffer =>
    show Grows net (net.handleEvent host buffer)
    have hdeliver : Grows net (if buffer.getD 0 0 = hciCommandStatus then
        { net with dev := { net.dev with numPackets := buffer.getD 3 0 } }.deliverStatusToClient host buffer
      else { net with dev := net.dev.deliver AclNet.noClient buffer }) := by
      split
      · exact grows_deliverStatus hh { net with dev := { net.dev with numPackets := buffer.getD 3 0 } } buffer
      · refine grows_dev net ?_
        rw [noClient_eq]
        exact (stable_stores net.dev.stores).deliver _ List.prefix_rfl buffer
    unfold AclNet.handleEvent
    simp only
    split
    · exact hdeliver
    · exact hdeliver.trans (grows_runHandler hh _ buffer _)

end Growth

/-! ## The status of a command -/

theorem code_of_compare {code offset : UInt8} {data buffer : List UInt8} (hl : data.length ≤ 11)
    (h : bteDataMatcherCompare (eventDataMatcher code data offset) buffer = true) : buffer.getD 0 0 = code := by
  obtain ⟨hw, hr⟩ := eventDataMatcher_spec code offset data hl
  rw [DataMatcher.compare_iff hw, hr] at h
  exact code_of_matches (h _ List.mem_cons_self)

theorem errand_fn (e : Errand) : e.fn.errand = some e := by cases e <;> decide

theorem listener_not_empty (code offset : UInt8) {data : List UInt8} (hl : data.length ≤ 11) :
    bteDataMatcherIsEmpty (eventDataMatcher code data offset) = false := by
  have hr := (eventDataMatcher_spec code offset data hl).2
  cases he : bteDataMatcherIsEmpty (eventDataMatcher code data offset) with
  | false => rfl
  | true =>
    have hn : (eventDataMatcher code data offset).numRules = 0 := by simpa [bteDataMatcherIsEmpty] using he
    rw [DataMatcher.rules, hn] at hr
    cases hr

/-- A status callback installs its listener, or has no slot for it. -/
theorem listener_cases (dev : HciDev) (hci : Option Hci) (pc : Fin 8) {e : Errand} {data : List UInt8} {offset : UInt8}
    (hl : data.length ≤ 11) {handler : EventHandler} (hh : (e.code, handler) ∈ aclHandlers)
    (he : dev.errand pc = some (e, (dev.pendingCommands pc).userdata)) :
    Still dev (installListener dev hci pc (eventDataMatcher e.code data offset) e.fn [(e.code, some handler)]) ∨
    ∃ j, TakesOver dev (installListener dev hci pc (eventDataMatcher e.code data offset) e.fn
        [(e.code, some handler)]) pc j := by
  have hne := listener_not_empty e.code offset hl
  generalize hm : eventDataMatcher e.code data offset = m at hne
  rw [installListener_eq, allocWith_eq]
  cases hs : dev.allocSlot m with
  | none =>
    have hlog : Still dev (dev.logRequest m none) := .of_slots rfl rfl rfl rfl
    exact .inl (hlog.trans (still_free (dev.logRequest m none) pc))
  | some j =>
    simp only [reduceCtorEq, if_false, List.foldl_cons, List.foldl_nil]
    generalize hd : ({ (dev.logRequest m (some j)).setSlot j { dev.pendingCommands j with
        matcher := m
        hci := hci
        commandCb := { (dev.pendingCommands j).commandCb with word0 := e.fn }
        userdata := (dev.pendingCommands pc).userdata } with
      numPendingCommands := dev.numPendingCommands + 1 } : HciDev) = d
    have hslots : d.pendingCommands = Function.update dev.pendingCommands j { dev.pendingCommands j with
        matcher := m
        hci := hci
        commandCb := { (dev.pendingCommands j).commandCb with word0 := e.fn }
        userdata := (dev.pendingCommands pc).userdata } := by
      rw [← hd]
      rfl
    have hdata : (bteHciDevFreeCommand (bteHciDevInstallEventHandler d e.code (some handler)) pc).lastAsyncCmdData =
        dev.lastAsyncCmdData := by
      rw [free_lastAsyncCmdData, install_lastAsyncCmdData, ← hd]
      rfl
    have hstores : (bteHciDevFreeCommand (bteHciDevInstallEventHandler d e.code (some handler)) pc).stores =
        dev.stores := by
      rw [free_stores, install_stores, ← hd]
      rfl
    have hhandlers : HandlersFrom dev (bteHciDevFreeCommand (bteHciDevInstallEventHandler d e.code (some handler)) pc) := by
      have hcall : HandlersFrom dev d := by
        refine handlersFrom_of_eq ?_
        rw [← hd]
        rfl
      have hinstall := handlersFrom_trans hcall (handlersFrom_install d hh)
      exact handlersFrom_trans hinstall (handlersFrom_of_eq (free_eventHandlers _ pc))
    have hother : ∀ i, i ≠ j → i ≠ pc →
        (bteHciDevFreeCommand (bteHciDevInstallEventHandler d e.code (some handler)) pc).pendingCommands i =
          dev.pendingCommands i := by
      intro i hij hip
      rw [free_pendingCommands, Function.update_of_ne hip, install_pendingCommands, hslots, Function.update_of_ne hij]
    by_cases hj : j = pc
    · subst hj
      refine .inl ⟨hdata, hstores, hhandlers, fun i ho => .inl ?_⟩
      by_cases hij : i = j
      · subst hij
        exact absurd ho (not_occupied_free _ i)
      · exact hother i hij hij
    · have hslot : (bteHciDevFreeCommand (bteHciDevInstallEventHandler d e.code (some handler)) pc).pendingCommands j =
          { dev.pendingCommands j with
            matcher := m
            hci := hci
            commandCb := { (dev.pendingCommands j).commandCb with word0 := e.fn }
            userdata := (dev.pendingCommands pc).userdata } := by
        rw [free_pendingCommands, Function.update_of_ne hj, install_pendingCommands, hslots, Function.update_self]
      refine .inr ⟨j, hdata, hstores, hhandlers, hj, not_occupied_free _ pc, ?_, ?_, hother⟩
      · exact .listening e data offset hl (by rw [hslot, hm]) (by rw [hslot])
      · rw [he, HciDev.errand, if_pos (by rw [HciDev.Occupied, hslot]; exact hne), hslot]
        simp only [errand_fn, Option.map_some]

section Dispatch

variable (net : AclNet) (host : NetHost) (a : Nat) (status : UInt8) (c : UInt16)

@[simp] theorem callFn_connectStatus :
    net.callFn host connectStatusFn a status c = net.connectStatusCb host a status := if_pos rfl

@[simp] theorem callFn_connect : net.callFn host connectFn a status c = net.connectCb host a status c := by
  rw [AclNet.callFn, if_neg (by decide), if_pos rfl]

@[simp] theorem callFn_authRequested :
    net.callFn host authRequestedFn a status c = net.authRequestedCb host a status := by
  rw [AclNet.callFn, if_neg (by decide), if_neg (by decide), if_pos rfl]

theorem callStatus_create (hci : Option Hci) (pc : Fin 8) :
    net.callStatus host (.status .createConnectionStatusCb) hci status pc =
      { net with dev := Bte.callStatus net.dev AclNet.noClient (.status .createConnectionStatusCb) hci status pc } :=
  if_neg fun h => by cases h.1

theorem callStatus_read_ok (hci : Option Hci) (pc : Fin 8) :
    net.callStatus host (.status .commonReadConnectionStatusCb) hci 0 pc =
      { net with dev := Bte.callStatus net.dev AclNet.noClient (.status .commonReadConnectionStatusCb) hci 0 pc } :=
  if_neg fun h => h.2 rfl

end Dispatch

/-- The status callback of acl.c's commands, on success or not, between the calls of its functions. -/
theorem moves_status (net : AclNet) {h : Hci} {pc : Fin 8} {e : Errand} (fn : StatusFn) (status : UInt8) (data : List UInt8)
    (offset : UInt8) (hl : data.length ≤ 11) (handler : EventHandler) (hh : (e.code, handler) ∈ aclHandlers)
    (he : net.dev.errand pc = some (e, (net.dev.pendingCommands pc).userdata))
    (hstatus : status ≠ 0 → Bte.callStatus net.dev AclNet.noClient (.status fn) (some h) status pc =
      bteHciDevFreeCommand (net.dev.call (.status (.status fn) (some h) status pc)) pc)
    (hok : fn.listenerMatcher (net.dev.lastAsyncCmdData h) = eventDataMatcher e.code data offset)
    (hcb : (net.dev.lastAsyncCmdData h).clientCb = e.fn)
    (hhandlers : fn.handlers (net.dev.lastAsyncCmdData h) = [(e.code, some handler)]) :
    Moves net { net with dev := Bte.callStatus net.dev AclNet.noClient (.status fn) (some h) status pc } := by
  have hcall : ∀ c, Still net.dev (net.dev.call c) := fun _ => .of_slots rfl rfl rfl rfl
  by_cases hs : status = 0
  · subst hs
    rw [callStatus_success, hok, hcb, hhandlers]
    have he' : (net.dev.call (.status (.status fn) (some h) 0 pc)).errand pc =
        some (e, ((net.dev.call (.status (.status fn) (some h) 0 pc)).pendingCommands pc).userdata) := he
    rcases listener_cases (net.dev.call (.status (.status fn) (some h) 0 pc)) (some h) pc hl hh he' with ht | ⟨j, ht⟩
    · exact (keeps_dev net ((hcall _).trans ht)).calls.moves
    · have htakes : TakesOver net.dev _ pc j :=
        ⟨ht.data, ht.stores, ht.handlers, ht.ne, ht.freed, ht.serves, ht.errand, ht.other⟩
      exact .single (.listens htakes)
  · rw [hstatus hs]
    exact (keeps_dev net ((hcall _).trans (still_free _ pc))).calls.moves

section Events

variable {host : NetHost} (hh : host.Calling)
include hh

theorem moves_aclConnectedCb (net : AclNet) {a : Nat} (ha : a < net.aclsAllocated) (status : UInt8)
    (hgate : status = 0 → (net.acls a).authenticationRequired = true → (net.acls a).authenticationCompleted = true) :
    Moves net (net.aclConnectedCb host a status) := by
  by_cases hs : status = 0
  · subst hs
    unfold AclNet.aclConnectedCb
    simp only [if_true]
    have hsame := (keeps_ref net a).acls a
    have hpush : Move (net.bteAclRef a) { net.bteAclRef a with announcing := a :: (net.bteAclRef a).announcing } :=
      .announces a ha (by rw [hsame.required, hsame.completed]; exact hgate rfl)
    have hloop := calls_announcement hh { net.bteAclRef a with announcing := a :: (net.bteAclRef a).announcing } a 0
      fun _ => List.mem_cons_self
    exact (((keeps_ref net a).calls.moves.tail hpush).trans hloop.moves).trans
      (.head .announced (calls_unref _ a).moves)
  · exact (calls_aclConnectedCb_failed hh net a hs).moves

theorem moves_deliverStatus {net : AclNet} (h : InFlight net) {buffer : List UInt8}
    (hcode : buffer.getD 0 0 = hciCommandStatus) : Moves net (net.deliverStatusToClient host buffer) := by
  unfold AclNet.deliverStatusToClient
  split
  · exact .refl
  · rename_i pc hf
    obtain ⟨ho, hcmp⟩ := find_spec hf
    have hfree : ∀ net : AclNet, Moves net { net with dev := bteHciDevFreeCommand net.dev pc } := fun net =>
      (keeps_dev net (still_free net.dev pc)).calls.moves
    generalize buffer.getD hciCmdStatusPosStatus 0 = status
    simp only
    cases h.slots pc ho with
    | disconnect hd =>
      rw [hd.1]
      exact hfree net
    | creating hci opcode hl hpc hd =>
      have he : net.dev.errand pc = some (.connect, (net.dev.pendingCommands pc).userdata) := by
        rw [HciDev.errand, if_pos ho, hpc]
        rfl
      have hm := moves_status net .createConnectionStatusCb status (net.dev.lastAsyncCmdData hci).address.bytes
        (hciCmdReplyPosHdrLen + 3) (by simp [BdAddr.bytes]) .connCompleteEventCb (by decide) he (fun hs =>
            by simp [Bte.callStatus, createConnectionStatusCb, hs]) rfl hd rfl
      have hne : connectStatusFn ≠ .null := by decide
      rw [hpc]
      simp only [reduceCtorEq, if_false, hne, callStatus_create, callFn_connectStatus]
      exact hm.trans (calls_connectStatusCb hh _ _ status).moves
    | requesting hci opcode hl hpc hd hc hhand =>
      have he : net.dev.errand pc = some (.authenticate, (net.dev.pendingCommands pc).userdata) := by
        rw [HciDev.errand, if_pos ho, hpc]
        rfl
      have hcb : (net.dev.pendingCommands pc).commandCb = ⟨.status .commonReadConnectionStatusCb, .null⟩ := by rw [hpc]
      have hci' : (net.dev.pendingCommands pc).hci = some hci := by rw [hpc]
      simp only [hcb, hci', reduceCtorEq, if_false, if_true]
      by_cases hs : status = 0
      · subst hs
        rw [callStatus_read_ok]
        refine moves_status net _ 0 (net.dev.lastAsyncCmdData hci).connHandleLe (hciCmdEventPosData + 1)
          (by simp [AsyncCmdData.connHandleLe]) .authCompleteEventCb (by decide) he (fun hs => absurd rfl hs)
          ?_ hd ?_
        · rw [StatusFn.listenerMatcher, hc]
          rfl
        · rw [StatusFn.handlers, hc, hhand]
          rfl
      · have hne : authRequestedFn ≠ .null := by decide
        unfold AclNet.callStatus
        simp only [hs, hcb, ne_eq, not_false_iff, and_self, if_true, HciDev.asyncCmdData, hd, hne, callFn_authRequested,
          AclNet.authRequestedCb, if_false]
        exact (calls_aclConnectedCb_failed hh net _ hs).moves.trans (hfree _)
    | listening e data offset hl hm hw =>
      rw [hm] at hcmp
      have hc := code_of_compare hl hcmp
      rw [hcode] at hc
      cases e <;> exact absurd hc (by decide)

omit hh in
/-- Both ways through `connect_cb` start with `connectionUp`. -/
theorem connectCb_ok (net : AclNet) (pc : Fin 8) (buffer : List UInt8) (a : Nat) :
    (net.arrive pc buffer).connectCb host a 0 (AclNet.completedHandle buffer) =
      if (net.acls a).authenticationRequired ∧ ¬ (net.acls a).authenticationCompleted then net.connectionUp pc buffer a
      else (net.connectionUp pc buffer a).aclConnectedCb host a 0 := by
  have hacl : ((net.arrive pc buffer).modifyAcl a fun acl => { acl with
      connHandle := AclNet.completedHandle buffer }).acls a =
        { net.acls a with connHandle := AclNet.completedHandle buffer } := Function.update_self ..
  simp only [AclNet.connectCb, if_true, hacl]
  split
  · rename_i hg
    rw [requestAuth_eq, hacl, AclNet.connectionUp]
    simp [hg.1, hg.2, AclNet.modifyAcl, AclNet.arrive, AclNet.record]
  · rename_i hg
    have hgates : ((net.acls a).authenticationRequired && !(net.acls a).authenticationCompleted) = false := by
      cases hr : (net.acls a).authenticationRequired
      · rfl
      · cases hc : (net.acls a).authenticationCompleted
        · exact absurd ⟨hr, by simp [hc]⟩ hg
        · rfl
    rw [AclNet.connectionUp]
    simp only [hgates, Bool.or_false, Bool.false_and, AclNet.withAuthRequest, Bool.false_eq_true, if_false]

theorem moves_completionEvent {net : AclNet} (h : InFlight net) {buffer : List UInt8}
    (hcode : buffer.getD 0 0 ≠ hciCommandStatus) : Moves net (net.completionEvent host buffer) := by
  unfold AclNet.completionEvent
  split
  · exact .refl
  · rename_i pc hf
    obtain ⟨ho, hcmp⟩ := find_spec hf
    have hcommand : ∀ opcode : List UInt8, opcode.length = 2 →
        (net.dev.pendingCommands pc).matcher ≠ commandMatcher hciCommandStatus opcode := by
      intro opcode hl hm
      rw [hm, commandMatcher_status] at hcmp
      exact hcode (code_of_compare (by omega) hcmp)
    cases h.slots pc ho with
    | disconnect hd =>
      obtain ⟨opcode, hl, hm⟩ := hd.2
      exact absurd hm (hcommand opcode hl)
    | creating hci opcode hl hpc hd => exact absurd (by rw [hpc]) (hcommand opcode hl)
    | requesting hci opcode hl hpc hd hc hhand => exact absurd (by rw [hpc]) (hcommand opcode hl)
    | listening e data offset hl hm hw =>
      rw [hm] at hcmp
      have hcode' := code_of_compare hl hcmp
      have he : net.dev.errand pc = some (e, (net.dev.pendingCommands pc).userdata) := by
        rw [HciDev.errand, if_pos ho, hw, errand_fn]
        rfl
      have ha := h.errands pc e _ he
      generalize hu : (net.dev.pendingCommands pc).userdata = a at he ha
      have harrive : ({ net with dev := bteHciDevFreeCommand net.dev pc } : AclNet).record (.completed a buffer) =
          net.arrive pc buffer := by
        rw [← hu]
        rfl
      have hne : e.fn ≠ .null := by cases e <;> decide
      simp only [hw, hne, if_false, hu, harrive]
      have hfailed : ∀ status : UInt8, buffer.getD 2 0 = status → status ≠ 0 →
          Moves net ((net.arrive pc buffer).aclConnectedCb host a status) := by
        intro status hb hs
        have hk : Keeps net (net.arrive pc buffer) :=
          { keeps_dev net (still_free net.dev pc) with
            log := ⟨[.completed (net.dev.pendingCommands pc).userdata buffer], rfl, fun e he => by
              rw [List.mem_singleton.1 he]
              show buffer.getD 2 0 ≠ 0
              rw [hb]
              exact hs⟩ }
        exact hk.calls.moves.trans (calls_aclConnectedCb_failed hh _ a hs).moves
      cases e with
      | connect =>
        simp only [Errand.fn, callFn_connect]
        by_cases hs : buffer.getD 2 0 = 0
        · rw [hs, connectCb_ok]
          have hup : Move net (net.connectionUp pc buffer a) := .connected ⟨he, hcode', hs⟩
          split
          · exact .single hup
          · rename_i hg
            refine .head hup (moves_aclConnectedCb hh _ ?_ 0 fun _ => ?_)
            · rw [AclNet.connectionUp, withAuthRequest_aclsAllocated]
              exact ha
            · rw [AclNet.connectionUp, withAuthRequest_acls]
              simp only [AclNet.modifyAcl, Function.update_self, AclNet.arrive, AclNet.record]
              intro hr
              by_contra hc
              exact hg ⟨hr, hc⟩
        · simp only [AclNet.connectCb, hs, if_false]
          exact hfailed _ rfl hs
      | authenticate =>
        simp only [Errand.fn, callFn_authRequested, AclNet.authRequestedCb]
        by_cases hs : buffer.getD 2 0 = 0
        · simp only [hs, if_true]
          have hdone : Move net (net.authenticated pc buffer a) := .authenticated ⟨he, hcode', hs⟩
          refine .head hdone (moves_aclConnectedCb hh (net.authenticated pc buffer a) (by exact ha) 0 fun _ _ => ?_)
          simp only [AclNet.authenticated, AclNet.modifyAcl, Function.update_self]
        · simp only [hs, if_false]
          exact hfailed _ rfl hs

omit hh in
/-- No slot answers a Command Complete. -/
theorem find_commandComplete {net : AclNet} (h : InFlight net) {buffer : List UInt8}
    (hcode : buffer.getD 0 0 = hciCommandComplete) : bteHciDevFindPendingCommand net.dev buffer = none := by
  cases hf : bteHciDevFindPendingCommand net.dev buffer with
  | none => rfl
  | some pc =>
    obtain ⟨ho, hcmp⟩ := find_spec hf
    have hcommand : ∀ opcode : List UInt8, opcode.length = 2 →
        (net.dev.pendingCommands pc).matcher ≠ commandMatcher hciCommandStatus opcode := by
      intro opcode hl hm
      rw [hm, commandMatcher_status] at hcmp
      have hc := code_of_compare (by omega) hcmp
      rw [hcode] at hc
      exact absurd hc (by decide)
    cases h.slots pc ho with
    | disconnect hd =>
      obtain ⟨opcode, hl, hm⟩ := hd.2
      exact absurd hm (hcommand opcode hl)
    | creating hci opcode hl hpc hd => exact absurd (by rw [hpc]) (hcommand opcode hl)
    | requesting hci opcode hl hpc hd hc hhand => exact absurd (by rw [hpc]) (hcommand opcode hl)
    | listening e data offset hl hm hw =>
      rw [hm] at hcmp
      have hc := code_of_compare hl hcmp
      rw [hcode] at hc
      cases e <;> exact absurd hc (by decide)

omit hh in
theorem still_deliver {net : AclNet} (h : InFlight net) {buffer : List UInt8} (hcode : buffer.getD 0 0 ≠ hciCommandStatus) :
    Still net.dev (net.dev.deliver AclNet.noClient buffer) := by
  unfold HciDev.deliver
  split
  · rename_i hc
    split
    · exact .of_slots rfl rfl rfl rfl
    · obtain ⟨hp, -, he⟩ := noteComplete_frame net.dev buffer
      have hq := Stable.quiet_noteComplete net.dev buffer
      have hf : bteHciDevFindPendingCommand (net.dev.noteComplete buffer) buffer = none :=
        (find_of_slots hp buffer).trans (find_commandComplete h hc)
      unfold deliverReplyToClient
      rw [hf]
      exact .of_slots hq.data hq.stores he hp
  · exact .refl _

omit hh in
theorem keeps_credits (net : AclNet) (out : AclOut) : Keeps net { net with l2cap := { net.l2cap with dev := out } } where
  __ := Keeps.refl net

/-- **An event is moves**, as long as no command's data is overwritten. -/
theorem moves_event {net : AclNet} (h : InFlight net) (buffer : List UInt8)
    (hclean : (net.handleEvent host buffer).dev.Clean) : Moves net (net.handleEvent host buffer) := by
  revert hclean
  unfold AclNet.handleEvent
  simp only
  by_cases hcode : buffer.getD 0 0 = hciCommandStatus
  · simp only [hcode, if_true]
    have hs : Still net.dev { net.dev with numPackets := buffer.getD 3 0 } := .of_slots rfl rfl rfl rfl
    have hnum : InFlight { net with dev := { net.dev with numPackets := buffer.getD 3 0 } } :=
      h.still { net with dev := { net.dev with numPackets := buffer.getD 3 0 } } hs rfl fun _ _ h => h
    have hm : Moves net
        ({ net with dev := { net.dev with numPackets := buffer.getD 3 0 } }.deliverStatusToClient host buffer) :=
      (keeps_dev net hs).calls.moves.trans (moves_deliverStatus hh hnum hcode)
    generalize { net with dev := { net.dev with numPackets := buffer.getD 3 0 } }.deliverStatusToClient host buffer = net'
      at hm
    split
    · exact fun _ => hm
    · rename_i e he
      intro hclean
      have hg := grows_runHandler hh net' buffer e
      have hin := inFlight_moves hm h (clean_of_grows hg.2 hclean)
      have hl := hin.handlers _ _ he
      simp only [aclHandlers, List.mem_cons, Prod.mk.injEq, List.not_mem_nil, or_false] at hl
      rcases hl with ⟨h1, -⟩ | ⟨h1, -⟩ | ⟨h1, -⟩ | ⟨h1, -⟩ <;> exact absurd h1 (by decide)
  · simp only [hcode, if_false]
    have hs := still_deliver h hcode
    have hm : Moves net { net with dev := net.dev.deliver AclNet.noClient buffer } := (keeps_dev net hs).calls.moves
    have hin : InFlight { net with dev := net.dev.deliver AclNet.noClient buffer } :=
      h.still { net with dev := net.dev.deliver AclNet.noClient buffer } hs rfl fun _ _ h => h
    split
    · exact fun _ => hm
    · rename_i e he
      intro _
      refine hm.trans ?_
      have hl := hin.handlers _ _ he
      simp only [aclHandlers, List.mem_cons, Prod.mk.injEq, List.not_mem_nil, or_false] at hl
      rcases hl with ⟨-, rfl⟩ | ⟨-, rfl⟩ | ⟨-, rfl⟩ | ⟨-, rfl⟩
      · exact moves_completionEvent hh hin hcode
      · exact moves_completionEvent hh hin hcode
      · exact (calls_disconnectionComplete hh _ buffer).moves
      · exact (keeps_credits { net with dev := net.dev.deliver AclNet.noClient buffer } _).calls.moves

theorem moves_step {net : AclNet} (h : InFlight net) (op : NetOp) (hclean : (net.step host op).dev.Clean) :
    Moves net (net.step host op) := by
  cases op with
  | newOutgoing call => exact (calls_newOutgoing hh net call).moves
  | event buffer => exact moves_event hh h buffer hclean

end Events

/-! ## Runs -/

theorem inFlight_start (clients : Fin 4 → Option Hci) (out : AclOut) : InFlight (.start clients out) where
  slots := fun i ho => by cases ho
  errands := fun i e a he => by cases he
  handlers := by
    intro code e he
    simp only [AclNet.start, HciDev.init, bteHciDevHandlerForEvent, Option.bind_eq_some_iff] at he
    obtain ⟨_, -, h⟩ := he
    cases h
  table := fun k a hk => by cases hk

/-- The net after a run: calls and events, whose callbacks make calls down to a depth. -/
def AclNet.after (host : L2capHost) (client : NetClient) (depth : Nat) (clients : Fin 4 → Option Hci) (out : AclOut)
    (ops : List NetOp) : AclNet :=
  Sys.run (AclNet.step (NetHost.client host client depth)) (.start clients out) ops

/-- **Every run is moves**, as long as no command's data is overwritten. -/
theorem moves_run (host : L2capHost) (client : NetClient) (depth : Nat) (clients : Fin 4 → Option Hci) (out : AclOut)
    (ops : List NetOp) (hclean : (AclNet.after host client depth clients out ops).dev.Clean) :
    Moves (.start clients out) (AclNet.after host client depth clients out ops) := by
  induction ops using List.reverseRecOn with
  | nil => exact .refl
  | append_singleton ops op ih =>
    have hh := calling_client host client depth
    have hstep : AclNet.after host client depth clients out (ops ++ [op]) =
        (AclNet.after host client depth clients out ops).step (NetHost.client host client depth) op :=
          Sys.run_append _ _ ops [op]
    rw [hstep] at hclean ⊢
    have hm := ih (clean_of_grows (grows_step hh _ op).2 hclean)
    have hin := inFlight_moves hm (inFlight_start clients out) (clean_of_grows (grows_step hh _ op).2 hclean)
    exact hm.trans (moves_step hh hin op hclean)

end Bte
