import BtEmbedded.AsyncData
/-!
# AsyncCompletion — the listener of an asynchronous command

When its Command Status reports success, a command is completed later by a listener: a slot with the matcher of the
completion event, the client's callback, and the handler of that event.  The command gets its listener exactly when the
client's union still holds its data and the table has a slot to give (`completion_iff`).  The union holds it along every
run in which no client writes it while another of its commands, or its initialization, still depends on it
(`asyncData_kept`).
-/
namespace Bte

open Bytes

instance (a b : AsyncCmdData) : ∀ fn : StatusFn, Decidable (fn.SameData a b)
  | .commonReadConnectionStatusCb => inferInstanceAs (Decidable (_ ∧ _))
  | .inquiryStatusCb => inferInstanceAs (Decidable (_ = _))
  | .createConnectionStatusCb => inferInstanceAs (Decidable (_ ∧ _))
  | .readRemoteNameStatusCb => inferInstanceAs (Decidable (_ ∧ _))

/-- Slot `j`, free before, holds the listener of the command in slot `i`. -/
structure Listens (dev dev' : HciDev) (h : Hci) (fn : StatusFn) (i j : Fin 8) : Prop where
  free : ¬ dev.Occupied j
  matcher : (dev'.pendingCommands j).matcher = fn.listenerMatcher (dev.given i)
  hci : (dev'.pendingCommands j).hci = some h
  callback : (dev'.pendingCommands j).commandCb.word0 = (dev.given i).clientCb
  userdata : (dev'.pendingCommands j).userdata = (dev.pendingCommands i).userdata
  handlers : ∀ p ∈ fn.handlers (dev.given i), bteHciDevHandlerForEvent dev' p.1 = p.2

instance (dev dev' : HciDev) (h : Hci) (fn : StatusFn) (i j : Fin 8) : Decidable (Listens dev dev' h fn i j) :=
  decidable_of_iff (¬ dev.Occupied j ∧ (dev'.pendingCommands j).matcher = fn.listenerMatcher (dev.given i) ∧
      (dev'.pendingCommands j).hci = some h ∧
      (dev'.pendingCommands j).commandCb.word0 = (dev.given i).clientCb ∧
      (dev'.pendingCommands j).userdata = (dev.pendingCommands i).userdata ∧
      ∀ p ∈ fn.handlers (dev.given i), bteHciDevHandlerForEvent dev' p.1 = p.2)
    ⟨fun ⟨a, b, c, d, e, f⟩ => ⟨a, b, c, d, e, f⟩, fun ⟨a, b, c, d, e, f⟩ => ⟨a, b, c, d, e, f⟩⟩

/-- The command in slot `i` has its listener. -/
def Completes (dev dev' : HciDev) (h : Hci) (fn : StatusFn) (i : Fin 8) : Prop := ∃ j, Listens dev dev' h fn i j

instance (dev dev' : HciDev) (h : Hci) (fn : StatusFn) (i : Fin 8) : Decidable (Completes dev dev' h fn i) :=
  inferInstanceAs (Decidable (∃ _ : Fin 8, _))

/-- The call tells the client of a failure. -/
def Call.tellsFailure (h : Hci) : Call → Bool
  | .failed _ hci s _ => hci = some h ∧ s ≠ 0
  | .done _ hci s _ => hci = some h ∧ s ≠ 0
  | _ => false

def ToldFailure (dev dev' : HciDev) (h : Hci) : Prop := ∃ c ∈ dev'.calls.drop dev.calls.length, c.tellsFailure h = true

instance (dev dev' : HciDev) (h : Hci) : Decidable (ToldFailure dev dev' h) :=
  inferInstanceAs (Decidable (∃ c ∈ dev'.calls.drop dev.calls.length, c.tellsFailure h = true))

/-- The listener's matcher is given a free slot. -/
def HciDev.Grants (dev : HciDev) (m : DataMatcher) : Prop := ∃ j, dev.allocSlot m = some j ∧ ¬ dev.Occupied j

instance (dev : HciDev) (m : DataMatcher) : Decidable (dev.Grants m) := inferInstanceAs (Decidable (∃ _ : Fin 8, _ ∧ _))

/-- The device after the status callback of the command in slot `i`, before its client is called. -/
def HciDev.afterStatus (dev : HciDev) (client : ClientCb) (buffer : List UInt8) (i : Fin 8) : HciDev :=
  callStatus { dev with numPackets := buffer.getD 3 0 } client (dev.pendingCommands i).commandCb.word0
    (dev.pendingCommands i).hci (buffer.getD hciCmdStatusPosStatus 0) i

/-! ## The listener -/

theorem SameData.listenerMatcher {fn : StatusFn} {a b : AsyncCmdData} (h : fn.SameData a b) :
    fn.listenerMatcher a = fn.listenerMatcher b := by
  cases fn with
  | commonReadConnectionStatusCb => simp only [StatusFn.listenerMatcher, h.2.1, h.2.2.1]
  | inquiryStatusCb => rfl
  | createConnectionStatusCb => simp only [StatusFn.listenerMatcher, h.2]
  | readRemoteNameStatusCb => simp only [StatusFn.listenerMatcher, h.2]

theorem SameData.clientCb {fn : StatusFn} {a b : AsyncCmdData} (h : fn.SameData a b) : a.clientCb = b.clientCb := by
  cases fn with
  | commonReadConnectionStatusCb => exact h.1
  | inquiryStatusCb => exact h
  | createConnectionStatusCb => exact h.1
  | readRemoteNameStatusCb => exact h.1

theorem SameData.handlers {fn : StatusFn} {a b : AsyncCmdData} (h : fn.SameData a b) : fn.handlers a = fn.handlers b := by
  cases fn with
  | commonReadConnectionStatusCb => simp only [StatusFn.handlers, h.2.2.1, h.2.2.2]
  | inquiryStatusCb => rfl
  | createConnectionStatusCb => rfl
  | readRemoteNameStatusCb => rfl

theorem address_of_matcher {code offset : UInt8} {a b : BdAddr}
    (h : eventDataMatcher code a.bytes offset = eventDataMatcher code b.bytes offset) : a = b := by
  have hr := congrArg DataMatcher.rules h
  rw [(eventDataMatcher_spec code offset a.bytes (by simp [BdAddr.bytes])).2,
    (eventDataMatcher_spec code offset b.bytes (by simp [BdAddr.bytes])).2] at hr
  cases a
  cases b
  simpa [BdAddr.bytes] using hr

/-- The matcher, the callback and the handlers tell the data apart. -/
theorem sameData_of_listener {fn : StatusFn} {a b : AsyncCmdData} (hm : fn.listenerMatcher a = fn.listenerMatcher b)
    (hc : a.clientCb = b.clientCb) (hh : fn = .commonReadConnectionStatusCb → a.handlerCb = b.handlerCb) :
    fn.SameData a b := by
  cases fn with
  | commonReadConnectionStatusCb =>
    have hr := congrArg DataMatcher.rules hm
    simp only [StatusFn.listenerMatcher] at hr
    rw [(eventDataMatcher_spec _ _ a.connHandleLe (by simp [AsyncCmdData.connHandleLe])).2,
      (eventDataMatcher_spec _ _ b.connHandleLe (by simp [AsyncCmdData.connHandleLe])).2] at hr
    simp only [List.cons.injEq, Rule.mk.injEq, true_and, and_true] at hr
    exact ⟨hc, hr.2, hr.1, hh rfl⟩
  | inquiryStatusCb => exact hc
  | createConnectionStatusCb => exact ⟨hc, address_of_matcher hm⟩
  | readRemoteNameStatusCb => exact ⟨hc, address_of_matcher hm⟩

/-- The status callback of a command of a client, on success. -/
theorem callStatus_success (dev : HciDev) (client : ClientCb) (fn : StatusFn) (h : Hci) (i : Fin 8) :
    callStatus dev client (.status fn) (some h) 0 i =
      installListener (dev.call (.status (.status fn) (some h) 0 i)) (some h) i
        (fn.listenerMatcher (dev.lastAsyncCmdData h)) (dev.lastAsyncCmdData h).clientCb
        (fn.handlers (dev.lastAsyncCmdData h)) := by
  cases fn <;>
    simp [callStatus, commonReadConnectionStatusCb, inquiryStatusCb, createConnectionStatusCb, readRemoteNameStatusCb,
      HciDev.call, HciDev.asyncCmdData]

theorem handlers_foldl : ∀ (handlers : List (UInt8 × Option EventHandler)) (dev : HciDev),
    (handlers.foldl (fun dev h => bteHciDevInstallEventHandler dev h.1 h.2) dev).pendingCommands = dev.pendingCommands ∧
    (handlers.foldl (fun dev h => bteHciDevInstallEventHandler dev h.1 h.2) dev).calls = dev.calls
  | [], _ => ⟨rfl, rfl⟩
  | p :: handlers, dev => by
    obtain ⟨h1, h2⟩ := handlers_foldl handlers (bteHciDevInstallEventHandler dev p.1 p.2)
    refine ⟨h1.trans (install_pendingCommands ..), h2.trans ?_⟩
    unfold bteHciDevInstallEventHandler
    split <;> rfl

/-- The slots and the calls after the listener was asked for. -/
theorem installListener_slots (dev : HciDev) (hci : Option Hci) (i : Fin 8) (m : DataMatcher) (clientCb : FnPtr)
    (handlers : List (UInt8 × Option EventHandler)) :
    (installListener dev hci i m clientCb handlers).calls = dev.calls ∧
    ∀ j, j ≠ i → (installListener dev hci i m clientCb handlers).pendingCommands j =
      if dev.allocSlot m = some j then
        { dev.pendingCommands j with
          matcher := m
          hci := hci
          commandCb := { (dev.pendingCommands j).commandCb with word0 := clientCb }
          userdata := (dev.pendingCommands i).userdata }
      else dev.pendingCommands j := by
  rw [installListener_eq, allocWith_eq]
  cases hs : dev.allocSlot m with
  | none => exact ⟨rfl, fun j hj => by simp [hj]⟩
  | some k =>
    simp only [reduceCtorEq, if_false]
    refine ⟨(handlers_foldl handlers _).2, fun j hj => ?_⟩
    rw [free_pendingCommands, Function.update_of_ne hj, (handlers_foldl handlers _).1]
    by_cases hjk : j = k
    · subst hjk; simp [HciDev.setSlot, HciDev.logRequest]
    · simp [HciDev.setSlot, HciDev.logRequest, hjk, Ne.symm hjk]

theorem handlerForEvent_install_self {code k : UInt8} (hk : handlerIndex code = some k) (dev : HciDev)
    (h : Option EventHandler) : bteHciDevHandlerForEvent (bteHciDevInstallEventHandler dev code h) code = h := by
  simp [bteHciDevInstallEventHandler, bteHciDevHandlerForEvent, hk]

theorem handlerIndex_of_dataOk {d : AsyncCmdData} (h : StatusFn.DataOk d .commonReadConnectionStatusCb) :
    handlerIndex d.eventCode = some d.eventCode := by
  have hm := h rfl
  simp only [List.mem_cons, Prod.mk.injEq, List.not_mem_nil, or_false] at hm
  rcases hm with ⟨hc, -⟩ | ⟨hc, -⟩ | ⟨hc, -⟩ | ⟨hc, -⟩ <;> rw [hc] <;> decide

theorem handlers_installed (dev : HciDev) (fn : StatusFn) (d : AsyncCmdData)
    (hd : fn = .commonReadConnectionStatusCb → handlerIndex d.eventCode = some d.eventCode) :
    ∀ p ∈ fn.handlers d, bteHciDevHandlerForEvent
      ((fn.handlers d).foldl (fun dev h => bteHciDevInstallEventHandler dev h.1 h.2) dev) p.1 = p.2 := by
  intro p hp
  cases fn with
  | commonReadConnectionStatusCb =>
    rw [List.mem_singleton.1 hp]
    exact handlerForEvent_install_self (hd rfl) dev d.handlerCb
  | inquiryStatusCb =>
    simp only [StatusFn.handlers, List.mem_cons, List.not_mem_nil, or_false] at hp
    rcases hp with rfl | rfl
    · rfl
    · exact handlerForEvent_install_self (k := hciInquiryComplete) rfl _ _
  | createConnectionStatusCb =>
    rw [List.mem_singleton.1 hp]
    exact handlerForEvent_install_self (k := hciConnectionComplete) rfl dev _
  | readRemoteNameStatusCb =>
    rw [List.mem_singleton.1 hp]
    exact handlerForEvent_install_self (k := hciRemoteNameReqComplete) rfl dev _

theorem listenerMatcher_not_empty (d : AsyncCmdData) (fn : StatusFn) :
    bteDataMatcherIsEmpty (fn.listenerMatcher d) = false :=
  (built_listener (E := fun _ => True) d fn fun _ => trivial).not_empty

section Completion

variable {dev : HciDev} {client : ClientCb} {buffer : List UInt8} {i : Fin 8} {h : Hci} {fn : StatusFn}

theorem afterStatus_eq (hw : (dev.pendingCommands i).commandCb.word0 = .status fn)
    (hh : (dev.pendingCommands i).hci = some h) (hs : buffer.getD hciCmdStatusPosStatus 0 = 0) :
    dev.afterStatus client buffer i =
      installListener (HciDev.call { dev with numPackets := buffer.getD 3 0 } (.status (.status fn) (some h) 0 i)) (some h) i
        (fn.listenerMatcher (dev.lastAsyncCmdData h)) (dev.lastAsyncCmdData h).clientCb
        (fn.handlers (dev.lastAsyncCmdData h)) := by
  unfold HciDev.afterStatus
  rw [hw, hh, hs]
  exact callStatus_success _ client fn h i

/-- The status callback, and then the client's own. -/
theorem deliver_status (client : ClientCb) (hcode : buffer.getD 0 0 = hciCommandStatus)
    (hf : bteHciDevFindPendingCommand dev buffer = some i) (hw : (dev.pendingCommands i).commandCb.word0 ≠ .null) :
    dev.deliver client buffer =
      if (dev.pendingCommands i).commandCb.word1 = .null then dev.afterStatus client buffer i
      else (client ((dev.afterStatus client buffer i).call (.done (dev.pendingCommands i).commandCb.word1
        (dev.pendingCommands i).hci (buffer.getD hciCmdStatusPosStatus 0) (dev.pendingCommands i).userdata))).2 := by
  have hf' : bteHciDevFindPendingCommand { dev with numPackets := buffer.getD 3 0 } buffer = some i := hf
  unfold HciDev.deliver
  rw [if_neg (by rw [hcode]; decide), if_pos hcode]
  unfold deliverStatusToClient
  rw [hf']
  simp only [hw, if_false]
  rfl

/-- The other slots, by what the listener asked for. -/
theorem afterStatus_slot (client : ClientCb) (hw : (dev.pendingCommands i).commandCb.word0 = .status fn)
    (hh : (dev.pendingCommands i).hci = some h) (hs : buffer.getD hciCmdStatusPosStatus 0 = 0) {j : Fin 8} (hj : j ≠ i) :
    (dev.afterStatus client buffer i).pendingCommands j =
      if dev.allocSlot (fn.listenerMatcher (dev.lastAsyncCmdData h)) = some j then
        { dev.pendingCommands j with
          matcher := fn.listenerMatcher (dev.lastAsyncCmdData h)
          hci := some h
          commandCb := { (dev.pendingCommands j).commandCb with word0 := (dev.lastAsyncCmdData h).clientCb }
          userdata := (dev.pendingCommands i).userdata }
      else dev.pendingCommands j := by
  rw [afterStatus_eq hw hh hs]
  exact (installListener_slots _ _ i _ _ _).2 j hj

theorem afterStatus_handlers (client : ClientCb) (hw : (dev.pendingCommands i).commandCb.word0 = .status fn)
    (hh : (dev.pendingCommands i).hci = some h) (hs : buffer.getD hciCmdStatusPosStatus 0 = 0) {j : Fin 8}
    (ha : dev.allocSlot (fn.listenerMatcher (dev.lastAsyncCmdData h)) = some j)
    (hd : fn = .commonReadConnectionStatusCb →
      handlerIndex (dev.lastAsyncCmdData h).eventCode = some (dev.lastAsyncCmdData h).eventCode) :
    ∀ p ∈ fn.handlers (dev.lastAsyncCmdData h),
      bteHciDevHandlerForEvent (dev.afterStatus client buffer i) p.1 = p.2 := by
  rw [afterStatus_eq hw hh hs, installListener_eq]
  have ha' : (HciDev.call { dev with numPackets := buffer.getD 3 0 } (.status (.status fn) (some h) 0 i)).allocSlot
      (fn.listenerMatcher (dev.lastAsyncCmdData h)) ≠ none := by
    intro hn
    have hn' : dev.allocSlot (fn.listenerMatcher (dev.lastAsyncCmdData h)) = none := hn
    rw [ha] at hn'
    cases hn'
  simp only [ha', if_false]
  exact handlers_installed _ fn _ hd

theorem not_toldFailure (hw : (dev.pendingCommands i).commandCb.word0 = .status fn)
    (hh : (dev.pendingCommands i).hci = some h) (hs : buffer.getD hciCmdStatusPosStatus 0 = 0) :
    ¬ ToldFailure dev (dev.afterStatus client buffer i) h := by
  rintro ⟨c, hc, ht⟩
  rw [afterStatus_eq hw hh hs, (installListener_slots _ _ i _ _ _).1] at hc
  simp only [HciDev.call, List.drop_left] at hc
  rw [List.mem_singleton.1 hc] at ht
  cases ht

/-- The listener is there: it came with this status, into a free slot, from the data of the command. -/
theorem granted_of_completes (ho : dev.Occupied i) (hw : (dev.pendingCommands i).commandCb.word0 = .status fn)
    (hh : (dev.pendingCommands i).hci = some h) (hs : buffer.getD hciCmdStatusPosStatus 0 = 0)
    (hok : fn.DataOk (dev.given i)) (hc : Completes dev (dev.afterStatus client buffer i) h fn i) :
    fn.SameData (dev.lastAsyncCmdData h) (dev.given i) ∧ dev.Grants (fn.listenerMatcher (dev.given i)) := by
  obtain ⟨j, hfree, hm, -, hcb, -, hhandlers⟩ := hc
  have hji : j ≠ i := by
    rintro rfl
    exact hfree ho
  rw [afterStatus_slot client hw hh hs hji] at hm hcb
  by_cases ha : dev.allocSlot (fn.listenerMatcher (dev.lastAsyncCmdData h)) = some j
  · rw [if_pos ha] at hm hcb
    simp only at hm hcb
    refine ⟨sameData_of_listener hm hcb ?_, j, hm ▸ ha, hfree⟩
    rintro rfl
    have hr := congrArg DataMatcher.rules hm
    simp only [StatusFn.listenerMatcher] at hr
    rw [(eventDataMatcher_spec _ _ _ (by simp [AsyncCmdData.connHandleLe])).2,
      (eventDataMatcher_spec _ _ _ (by simp [AsyncCmdData.connHandleLe])).2] at hr
    simp only [List.cons.injEq, Rule.mk.injEq, true_and, and_true] at hr
    have hidx := handlerIndex_of_dataOk hok
    rw [← hr.1] at hidx
    have h1 := afterStatus_handlers client hw hh hs ha (fun _ => hidx) (_, _) List.mem_cons_self
    have h2 := hhandlers (_, _) List.mem_cons_self
    simp only [hr.1] at h1
    exact h1.symm.trans h2
  · rw [if_neg ha] at hm
    refine absurd ?_ hfree
    rw [HciDev.Occupied, hm]
    exact listenerMatcher_not_empty _ fn

theorem completes_of_granted (ho : dev.Occupied i) (hw : (dev.pendingCommands i).commandCb.word0 = .status fn)
    (hh : (dev.pendingCommands i).hci = some h) (hs : buffer.getD hciCmdStatusPosStatus 0 = 0)
    (hok : fn.DataOk (dev.given i)) (hd : fn.SameData (dev.lastAsyncCmdData h) (dev.given i))
    (hg : dev.Grants (fn.listenerMatcher (dev.given i))) :
    Completes dev (dev.afterStatus client buffer i) h fn i := by
  obtain ⟨j, ha, hfree⟩ := hg
  rw [← SameData.listenerMatcher hd] at ha
  have hji : j ≠ i := by
    rintro rfl
    exact hfree ho
  have hslot := afterStatus_slot client hw hh hs hji
  rw [if_pos ha] at hslot
  refine ⟨j, hfree, ?_, ?_, ?_, ?_, ?_⟩
  · rw [hslot]; exact SameData.listenerMatcher hd
  · rw [hslot]
  · rw [hslot]; exact SameData.clientCb hd
  · rw [hslot]
  · rw [← SameData.handlers hd]
    refine afterStatus_handlers client hw hh hs ha ?_
    rintro rfl
    rw [hd.2.2.1]
    exact handlerIndex_of_dataOk hok

end Completion

/-! ## The commands in the table -/

/-- Every command that waits for its status was called with data its kind of command can have. -/
def GivenInv (dev : HciDev) : Prop :=
  ∀ i h fn, (dev.pendingCommands i).AwaitsStatus h → (dev.pendingCommands i).commandCb.word0 = .status fn →
    fn.DataOk (dev.given i)

theorem stable_givenInv : Stable GivenInv where
  quiet := by
    intro dev dev' hq h i hci fn ha hw
    have hs := hq.slots i hci ha
    rw [hs] at ha hw
    rw [hq.given]
    exact h i hci fn ha hw
  apply := by
    intro dev c h
    generalize hd : c.apply dev = dev'
    have hw := apply_written dev c
    rw [hd] at hw
    cases hw with
    | quiet hq =>
      intro i hci fn ha hw
      have hs := hq.slots i hci ha
      rw [hs] at ha hw
      rw [hq.given]
      exact h i hci fn ha hw
    | issued h' fn' f s hi hf hok =>
      intro i hci fn ha hw
      by_cases his : i = s
      · subst his
        rw [hi.slot.2] at hw
        cases hw
        rw [hi.given_slot]
        exact hok
      · rw [hi.other i his] at ha hw
        rw [hi.given_other i his]
        exact h i hci fn ha hw
    | created h' =>
      have hslots : (bteClientNew dev h').pendingCommands = dev.pendingCommands ∧
        (bteClientNew dev h').given = dev.given := by
        unfold bteClientNew bteHciDevAddClient
        split <;> exact ⟨rfl, rfl⟩
      intro i hci fn ha hw
      rw [hslots.1] at ha hw
      rw [hslots.2]
      exact h i hci fn ha hw
    | registered h' callback u =>
      have hslots : (bteHciOnInitialized dev h' callback u).pendingCommands = dev.pendingCommands ∧
          (bteHciOnInitialized dev h' callback u).given = dev.given := by
        unfold bteHciOnInitialized
        simp only
        split <;> exact ⟨rfl, rfl⟩
      intro i hci fn ha hw
      rw [hslots.1] at ha hw
      rw [hslots.2]
      exact h i hci fn ha hw

/-- One turn of the notification loop, for a property it cannot see. -/
theorem Stable.notifyInitialized {P : HciDev → Prop} (hP : Stable P) (hn : ∀ dev n, P dev → P { dev with notified := n })
    (hc : ∀ dev c, P dev → P (dev.call c)) (callbacks : Fin 4 → Callback) {dev : HciDev} (h : P dev) (i : Fin 4) :
    P (notifyInitialized (fun i => (callbacks i).cb) dev i) := by
  unfold Bte.notifyInitialized
  simp only
  split
  · exact hn _ _ h
  · split
    · exact hn _ _ h
    · exact hP.callback (callbacks i) (hc _ _ (hn _ _ h))

theorem givenInv_step (dev : HciDev) (o : Op) (h : GivenInv dev) : GivenInv (dev.step o) := by
  cases o with
  | api c => exact stable_givenInv.apply c h
  | event buffer callback => exact stable_givenInv.event callback h buffer
  | setStatus status callbacks =>
    have hloop : ∀ (l : List (Fin 4)) (d : HciDev), GivenInv d →
        GivenInv (l.foldl (notifyInitialized fun i => (callbacks i).cb) d) := by
      intro l
      induction l with
      | nil => exact fun _ h => h
      | cons i l ih =>
        intro d hd
        refine ih _ (stable_givenInv.notifyInitialized ?_ ?_ callbacks hd i)
        · exact fun _ _ h => h
        · exact fun _ _ h => h
    simp only [HciDev.step, bteHciDevSetStatus]
    split
    · exact hloop _ _ h
    · exact h

theorem not_awaits_init (i : Fin 8) (h : Hci) : ¬ (HciDev.init.pendingCommands i).AwaitsStatus h :=
  not_awaits_of_empty rfl h

theorem givenInv_run (ops : List Op) : GivenInv (Sys.run HciDev.step HciDev.init ops) := by
  refine Sys.inv_run_all givenInv_step ?_ ops
  intro i h fn ha
  exact absurd ha (not_awaits_init i h)

/-- **When the Command Status of an asynchronous command reports success, its listener is installed or its client told of
a failure exactly when the client's union still holds the command's data and the table grants the listener a free slot.**
The status callback is followed by the client's own, which is told that all is well. -/
theorem completion_iff (ops : List Op) (client : ClientCb) (buffer : List UInt8) (i : Fin 8) (h : Hci) (fn : StatusFn)
    (hcode : buffer.getD 0 0 = hciCommandStatus)
    (hf : bteHciDevFindPendingCommand (Sys.run HciDev.step HciDev.init ops) buffer = some i)
    (ha : ((Sys.run HciDev.step HciDev.init ops).pendingCommands i).AwaitsStatus h)
    (hw : ((Sys.run HciDev.step HciDev.init ops).pendingCommands i).commandCb.word0 = .status fn)
    (hs : buffer.getD hciCmdStatusPosStatus 0 = 0) :
    let dev := Sys.run HciDev.step HciDev.init ops
    dev.deliver client buffer =
      (if (dev.pendingCommands i).commandCb.word1 = .null then dev.afterStatus client buffer i
       else (client ((dev.afterStatus client buffer i).call
        (.done (dev.pendingCommands i).commandCb.word1 (some h) 0 (dev.pendingCommands i).userdata))).2) ∧
    ((Completes dev (dev.afterStatus client buffer i) h fn i ∨ ToldFailure dev (dev.afterStatus client buffer i) h) ↔
      fn.SameData (dev.lastAsyncCmdData h) (dev.given i) ∧ dev.Grants (fn.listenerMatcher (dev.given i))) := by
  intro dev
  have hok : fn.DataOk (dev.given i) := givenInv_run ops i h fn ha hw
  have ho : dev.Occupied i := (find_spec hf).1
  have hh : (dev.pendingCommands i).hci = some h := ha.2.2
  refine ⟨?_, ?_, ?_⟩
  · rw [deliver_status client hcode hf (by rw [hw]; exact FnPtr.noConfusion), hh, hs]
  · rintro (hc | ht)
    · exact granted_of_completes ho hw hh hs hok hc
    · exact absurd ht (not_toldFailure hw hh hs)
  · rintro ⟨hd, hg⟩
    exact .inl (completes_of_granted ho hw hh hs hok hd hg)

/-- The Command Status of a Create Connection, with success. -/
def connectionStatus : List UInt8 := [0x0F, 4, 0, 1, 0x05, 0x04]

def connectRun : List Op := [.api (.createConnection 0 ⟨1, 2, 3, 4, 5, 6⟩ (.client 1) (.client 2) 7)]

/-- Alone in the table, a Create Connection gets its listener. -/
theorem completion_iff_connectRun :
    let dev := Sys.run HciDev.step HciDev.init connectRun
    let dev' := dev.afterStatus (fun dev => (false, dev)) connectionStatus 0
    (dev.pendingCommands 0).AwaitsStatus 0 ∧
    (Completes dev dev' 0 .createConnectionStatusCb 0 ∨ ToldFailure dev dev' 0) ∧ ¬ ToldFailure dev dev' 0 := by
  have h := (completion_iff connectRun (fun dev => (false, dev)) connectionStatus 0 0 .createConnectionStatusCb (by decide)
    (by decide) (by decide) (by decide) (by decide)).2
  exact ⟨by decide, h.2 ⟨by decide, by decide⟩, by decide⟩

/-- A Create Connection takes the last free slot. -/
def fullTableRun : List Op :=
  [.api (.command 1 0x01 0x03 3 (.complete 0) (.client 9) 0), .api (.command 1 0x02 0x03 3 (.complete 0) (.client 9) 0),
   .api (.command 1 0x03 0x03 3 (.complete 0) (.client 9) 0), .api (.command 1 0x04 0x03 3 (.complete 0) (.client 9) 0),
   .api (.command 1 0x05 0x03 3 (.complete 0) (.client 9) 0), .api (.command 1 0x06 0x03 3 (.complete 0) (.client 9) 0),
   .api (.command 1 0x07 0x03 3 (.complete 0) (.client 9) 0)] ++ connectRun

/-- Its listener finds no slot: the command is dropped and its client told of success. -/
theorem completion_lost :
    let dev := Sys.run HciDev.step HciDev.init fullTableRun
    let client : ClientCb := fun dev => (false, dev)
    bteHciDevFindPendingCommand dev connectionStatus = some 7 ∧ (dev.pendingCommands 7).AwaitsStatus 0 ∧
    (dev.pendingCommands 7).commandCb.word0 = .status .createConnectionStatusCb ∧
    ¬ (Completes dev (dev.afterStatus client connectionStatus 7) 0 .createConnectionStatusCb 7 ∨
      ToldFailure dev (dev.afterStatus client connectionStatus 7) 0) ∧
    (dev.deliver client connectionStatus).calls.getLast? = some (.done (.client 1) (some 0) 0 7) := by
  decide

/-! ## The union along a run -/

/-- No write of a client's union hit data still to be read. -/
def HciDev.Clean (dev : HciDev) : Prop := ∀ s ∈ dev.stores, s.clobbers = false

instance (dev : HciDev) : Decidable dev.Clean := inferInstanceAs (Decidable (∀ s ∈ dev.stores, s.clobbers = false))

/-- What the client's union must hold for its initialization callback. -/
def RegisteredData (d : AsyncCmdData) : Option (FnPtr × Ptr) → Prop
  | none => d.clientCb = .null
  | some (callback, u) => d.clientCb = callback ∧ d.userdata = u

/-- An initialization callback is called as it was registered. -/
def Call.AsRegistered : Call → Prop
  | .initialized fn _ _ u registered => registered = some (fn, u)
  | _ => True

structure UnionInv (dev : HciDev) : Prop where
  waiting : ∀ i h fn, (dev.pendingCommands i).AwaitsStatus h → (dev.pendingCommands i).commandCb.word0 = .status fn →
    fn.SameData (dev.lastAsyncCmdData h) (dev.given i)
  toNotify : ∀ h, dev.ToBeNotified h → RegisteredData (dev.lastAsyncCmdData h) (dev.registered h)
  called : ∀ c ∈ dev.calls, c.AsRegistered

/-- The union holds what is still to be read, as long as no write was out of place; `n` and `s` are where the
notification of the clients stands. -/
def Kept (n : Nat) (s : InitStatus) (dev : HciDev) : Prop :=
  dev.notified = n ∧ dev.initStatus = s ∧ (dev.Clean → UnionInv dev)

theorem asRegistered_of_not {c : Call} (h : c.isInitialized = false) : c.AsRegistered := by
  cases c with
  | initialized => cases h
  | _ => trivial

theorem toBeNotified_of_clients {dev dev' : HciDev} (hn : dev'.notified = dev.notified)
    (hc : ∀ i, dev'.clients i = dev.clients i ∨ dev'.clients i = none) {h : Hci} (hb : dev'.ToBeNotified h) :
    dev.ToBeNotified h := by
  obtain ⟨i, hi, hci⟩ := hb
  rw [hn] at hi
  rcases hc i with h1 | h1
  · exact ⟨i, hi, h1 ▸ hci⟩
  · rw [h1] at hci
    cases hci

theorem kept_quiet {n : Nat} {s : InitStatus} {dev dev' : HciDev} (hq : Quiet dev dev') (h : Kept n s dev) :
    Kept n s dev' := by
  refine ⟨hq.notified.trans h.1, hq.initStatus.trans h.2.1, fun hc => ?_⟩
  obtain ⟨hw, ht, hcalls⟩ := h.2.2 (by rw [HciDev.Clean, ← hq.stores]; exact hc)
  refine ⟨?_, ?_, ?_⟩
  · intro i hci fn ha hw'
    have hs := hq.slots i hci ha
    rw [hs] at ha hw'
    rw [hq.data, hq.given]
    exact hw i hci fn ha hw'
  · intro hci hb
    rw [hq.data, hq.registered]
    exact ht hci (toBeNotified_of_clients hq.notified hq.clients hb)
  · intro c hc'
    rcases hq.calls c hc' with h1 | h1
    · exact hcalls c h1
    · exact asRegistered_of_not h1

/-- The log of writes after one more. -/
theorem clean_append {dev dev' : HciDev} {h : Hci} {b : Bool} (hs : dev'.stores = dev.stores ++ [⟨h, b⟩])
    (hc : dev'.Clean) : dev.Clean ∧ b = false := by
  rw [HciDev.Clean, hs] at hc
  exact ⟨fun s hs' => hc s (List.mem_append_left _ hs'), hc ⟨h, b⟩ (List.mem_append_right _ List.mem_cons_self)⟩

theorem kept_issued {n : Nat} {s : InitStatus} {dev dev' : HciDev} {h : Hci} {fn : StatusFn}
    {f : AsyncCmdData → AsyncCmdData} {j : Fin 8} (hi : Issued dev dev' h fn f j)
    (hf : ∀ d, fn.SameData (f d) (f .zero)) (hk : Kept n s dev) : Kept n s dev' := by
  refine ⟨hi.notified.trans hk.1, hi.initStatus.trans hk.2.1, fun hc => ?_⟩
  obtain ⟨b, hb, hb'⟩ := hi.stores
  obtain ⟨hc0, rfl⟩ := clean_append hb hc
  obtain ⟨halone, hnot⟩ := hb' rfl
  obtain ⟨hw, ht, hcalls⟩ := hk.2.2 hc0
  refine ⟨?_, ?_, by rw [hi.calls]; exact hcalls⟩
  · intro i hci fn' ha hw'
    by_cases hij : i = j
    · subst hij
      have hh := ha.2.2
      rw [hi.slot.1] at hh
      rw [hi.slot.2] at hw'
      cases hh
      cases hw'
      rw [hi.data, Function.update_self, hi.given_slot]
      exact hf _
    · rw [hi.other i hij] at ha hw'
      have hne : hci ≠ h := by
        rintro rfl
        exact halone i hij ha
      rw [hi.data, Function.update_of_ne hne, hi.given_other i hij]
      exact hw i hci fn' ha hw'
  · intro hci hb
    have hb0 := toBeNotified_of_clients hi.notified (fun i => .inl (by rw [hi.clients])) hb
    have hne : hci ≠ h := by
      rintro rfl
      exact hnot hb0
    rw [hi.data, Function.update_of_ne hne, hi.registered]
    exact ht hci hb0

/-- A write of the whole union of `h`, for its initialization: no command of `h` waits, and what is registered matches. -/
theorem unionInv_write {dev dev' : HciDev} {h : Hci} {d : AsyncCmdData} {r : Option (FnPtr × Ptr)}
    (hinv : UnionInv dev) (hnone : ¬ dev.AwaitsOther h none) (hd : RegisteredData d r)
    (hdata : dev'.lastAsyncCmdData = Function.update dev.lastAsyncCmdData h d)
    (hreg : dev'.registered = Function.update dev.registered h r) (hgiven : dev'.given = dev.given)
    (hslots : dev'.pendingCommands = dev.pendingCommands)
    (hb : ∀ h', h' ≠ h → dev'.ToBeNotified h' → dev.ToBeNotified h') (hcalls : ∀ c ∈ dev'.calls, c.AsRegistered) :
    UnionInv dev' := by
  refine ⟨?_, ?_, hcalls⟩
  · intro i hci fn ha hw
    rw [hslots] at ha hw
    have hne : hci ≠ h := by
      rintro rfl
      exact hnone ⟨i, Option.some_ne_none i, ha⟩
    rw [hdata, Function.update_of_ne hne, hgiven]
    exact hinv.waiting i hci fn ha hw
  · intro hci hb'
    rw [hdata, hreg]
    by_cases hh : hci = h
    · subst hh
      rw [Function.update_self, Function.update_self]
      exact hd
    · rw [Function.update_of_ne hh, Function.update_of_ne hh]
      exact hinv.toNotify hci (hb hci hh hb')

theorem userdata_withInitialization (d : AsyncCmdData) (callback : FnPtr) (u : Ptr) :
    RegisteredData (d.withInitialization callback u) (some (callback, u)) := by
  refine ⟨rfl, ?_⟩
  simp only [AsyncCmdData.withInitialization, AsyncCmdData.userdata, BdAddr.bytes, leVal, UInt8.toNat_ofNat']
  show @Eq Nat _ u
  omega

theorem addClient_toBeNotified (dev : HciDev) (h : Hci) {h' : Hci} (hne : h' ≠ h)
    (hb : (bteHciDevAddClient dev h).2.ToBeNotified h') : dev.ToBeNotified h' := by
  unfold bteHciDevAddClient at hb
  split at hb
  · rename_i i hi
    obtain ⟨j, hj, hc⟩ := hb
    by_cases hji : j = i
    · subst hji
      simp only [Function.update_self, Option.some.injEq] at hc
      exact absurd hc.symm hne
    · simp only [Function.update_of_ne hji] at hc
      exact ⟨j, hj, hc⟩
  · exact hb

/-- A client more: only the table of clients changes. -/
theorem addClient_frame {P : HciDev → Prop} (dev : HciDev) (h : Hci) (hP : ∀ clients, P { dev with clients := clients }) :
    P (bteHciDevAddClient dev h).2 := by
  unfold bteHciDevAddClient
  split
  · exact hP _
  · exact hP dev.clients

theorem kept_created {n : Nat} {s : InitStatus} {dev : HciDev} (h : Hci) (hk : Kept n s dev) :
    Kept n s (bteClientNew dev h) := by
  have hb : ∀ h', h' ≠ h → (bteClientNew dev h).ToBeNotified h' → dev.ToBeNotified h' := by
    intro h' hne hb
    obtain ⟨i, hi, hc⟩ := addClient_toBeNotified _ h hne hb
    exact ⟨i, hi, hc⟩
  revert hb
  unfold bteClientNew
  refine addClient_frame (P := fun dev' => (∀ h', h' ≠ h → dev'.ToBeNotified h' → dev.ToBeNotified h') → Kept n s dev')
    _ h fun clients hb => ⟨hk.1, hk.2.1, fun hc => ?_⟩
  have hclean : dev.Clean ∧ _ := clean_append rfl hc
  obtain ⟨hc0, hb0⟩ := hclean
  have hinv := hk.2.2 hc0
  exact unionInv_write (d := .zero) (r := none) hinv (of_decide_eq_false hb0) rfl rfl rfl rfl rfl hb hinv.called

theorem kept_registered {n : Nat} {s : InitStatus} {dev : HciDev} (h : Hci) (callback : FnPtr) (u : Ptr)
    (hk : Kept n s dev) : Kept n s (bteHciOnInitialized dev h callback u) := by
  have hwrite : ∀ dev' : HciDev,
      dev'.lastAsyncCmdData = Function.update dev.lastAsyncCmdData h
        ((dev.lastAsyncCmdData h).withInitialization callback u) →
      dev'.registered = Function.update dev.registered h (some (callback, u)) → dev'.given = dev.given →
      dev'.pendingCommands = dev.pendingCommands → dev'.clients = dev.clients → dev'.notified = dev.notified →
      dev'.initStatus = dev.initStatus →
      dev'.stores = dev.stores ++ [⟨h, decide (dev.AwaitsOther h none)⟩] →
      (∀ c ∈ dev'.calls, c ∈ dev.calls ∨ c.AsRegistered) → Kept n s dev' := by
    intro dev' hdata hreg hgiven hslots hclients hnot hinit hstores hcalls
    refine ⟨hnot.trans hk.1, hinit.trans hk.2.1, fun hc => ?_⟩
    obtain ⟨hc0, hb0⟩ := clean_append hstores hc
    have hinv := hk.2.2 hc0
    refine unionInv_write hinv (of_decide_eq_false hb0) (userdata_withInitialization _ callback u) hdata hreg hgiven
      hslots (fun h' _ hb => toBeNotified_of_clients hnot (fun i => .inl (by rw [hclients])) hb) ?_
    intro c hc'
    rcases hcalls c hc' with h1 | h1
    · exact hinv.called c h1
    · exact h1
  unfold bteHciOnInitialized
  simp only
  split
  · refine hwrite _ rfl rfl rfl rfl rfl rfl rfl rfl ?_
    intro c hc
    rcases List.mem_append.1 hc with h1 | h1
    · exact .inl h1
    · rw [List.mem_singleton.1 h1]
      exact .inr (Function.update_self ..)
  · exact hwrite _ rfl rfl rfl rfl rfl rfl rfl rfl fun c hc => .inl hc

theorem stable_kept (n : Nat) (s : InitStatus) : Stable (Kept n s) where
  quiet := kept_quiet
  apply := by
    intro dev c hk
    generalize hd : c.apply dev = dev'
    have hw := apply_written dev c
    rw [hd] at hw
    cases hw with
    | quiet hq => exact kept_quiet hq hk
    | issued h fn f j hi hf hok => exact kept_issued hi hf hk
    | created h => exact kept_created h hk
    | registered h callback u => exact kept_registered h callback u hk

/-- One turn of the notification loop: the client it comes to is called as it registered. -/
theorem kept_notify {s : InitStatus} {dev : HciDev} (callbacks : Fin 4 → Callback) (i : Fin 4) (hk : Kept i s dev) :
    Kept (i + 1) s (notifyInitialized (fun i => (callbacks i).cb) dev i) := by
  have hnext : Kept (i + 1) s { dev with notified := i + 1 } := by
    refine ⟨rfl, hk.2.1, fun hc => ?_⟩
    obtain ⟨hw, ht, hcalls⟩ := hk.2.2 hc
    refine ⟨hw, ?_, hcalls⟩
    rintro h ⟨j, hj, hc⟩
    exact ht h ⟨j, by rw [hk.1]; exact Nat.le_of_succ_le hj, hc⟩
  unfold notifyInitialized
  simp only
  split
  · exact hnext
  · rename_i h hclient
    split
    · exact hnext
    · rename_i hnull
      refine (stable_kept _ s).callback (callbacks i) ⟨hnext.1, hnext.2.1, fun hc => ?_⟩
      obtain ⟨hw, ht, hcalls⟩ := hnext.2.2 hc
      refine ⟨hw, ht, ?_⟩
      intro c hc'
      rcases List.mem_append.1 hc' with h1 | h1
      · exact hcalls c h1
      · rw [List.mem_singleton.1 h1]
        -- the loop had not come to this client before
        have hreg := (hk.2.2 hc).toNotify h ⟨i, by rw [hk.1], hclient⟩
        show dev.registered h = _
        cases hr : dev.registered h with
        | none =>
          rw [hr] at hreg
          exact absurd hreg hnull
        | some p =>
          rw [hr] at hreg
          rw [hreg.1, hreg.2]

/-- The driver reports once how the initialization ended, and nothing after it. -/
def Op.ReportsOnce (dev : HciDev) : Op → Prop
  | .setStatus .. => dev.initStatus.final = false
  | _ => True

instance (dev : HciDev) : ∀ o : Op, Decidable (o.ReportsOnce dev)
  | .setStatus .. => inferInstanceAs (Decidable (_ = _))
  | .api _ => .isTrue trivial
  | .event .. => .isTrue trivial

/-- The invariant of a run: nobody was notified before the initialization ended. -/
def KeptRun (dev : HciDev) : Prop := Kept dev.notified dev.initStatus dev ∧ (dev.initStatus.final = false → dev.notified = 0)

theorem keptRun_of_kept {n : Nat} {s : InitStatus} {dev : HciDev} (h : Kept n s dev) (hn : s.final = false → n = 0) :
    KeptRun dev := by
  obtain ⟨rfl, rfl, h'⟩ := h
  exact ⟨⟨rfl, rfl, h'⟩, hn⟩

theorem keptRun_step (dev : HciDev) (o : Op) (hk : KeptRun dev) (ho : o.ReportsOnce dev) : KeptRun (dev.step o) := by
  cases o with
  | api c => exact keptRun_of_kept ((stable_kept _ _).apply c hk.1) hk.2
  | event buffer callback => exact keptRun_of_kept ((stable_kept _ _).event callback hk.1 buffer) hk.2
  | setStatus status callbacks =>
    have h0 : Kept 0 status { dev with initStatus := status } := by
      refine ⟨hk.2 ho, rfl, fun hc => ?_⟩
      obtain ⟨hw, ht, hcalls⟩ := hk.1.2.2 hc
      exact ⟨hw, ht, hcalls⟩
    simp only [HciDev.step, bteHciDevSetStatus]
    split
    · rename_i hfinal
      have h4 : Kept 4 status ((List.finRange 4).foldl (notifyInitialized fun i => (callbacks i).cb)
          { dev with initStatus := status }) :=
        kept_notify callbacks 3 (kept_notify callbacks 2 (kept_notify callbacks 1 (kept_notify callbacks 0 h0)))
      exact keptRun_of_kept h4 (by rw [hfinal]; exact Bool.noConfusion)
    · exact keptRun_of_kept h0 fun _ => rfl

theorem keptRun_init : KeptRun HciDev.init := by
  refine ⟨⟨rfl, rfl, fun _ => ⟨?_, ?_, ?_⟩⟩, fun _ => rfl⟩
  · intro i h fn ha
    exact absurd ha (not_awaits_init i h)
  · exact fun _ _ => rfl
  · intro c hc
    cases hc

/-- **The data of asynchronous commands is kept apart in every run whose writes are clean**: no client writes its union
while another of its commands awaits its Command Status, or while it is still to be told of the initialization.  Then the
next Command Status with success installs the listener of the command it answers, if the table grants it a slot, and every
initialization callback was called as registered. -/
theorem asyncData_kept (ops : List Op) (hr : Sys.Admissible HciDev.step (fun dev o => o.ReportsOnce dev) HciDev.init ops)
    (hc : (Sys.run HciDev.step HciDev.init ops).Clean) :
    let dev := Sys.run HciDev.step HciDev.init ops
    (∀ (client : ClientCb) (buffer : List UInt8) (i : Fin 8) (h : Hci) (fn : StatusFn),
      buffer.getD 0 0 = hciCommandStatus → bteHciDevFindPendingCommand dev buffer = some i →
      (dev.pendingCommands i).AwaitsStatus h → (dev.pendingCommands i).commandCb.word0 = .status fn →
      buffer.getD hciCmdStatusPosStatus 0 = 0 → dev.Grants (fn.listenerMatcher (dev.given i)) →
      Completes dev (dev.afterStatus client buffer i) h fn i) ∧
    ∀ fn h success u registered, .initialized fn h success u registered ∈ dev.calls → registered = some (fn, u) := by
  intro dev
  have hinv : UnionInv dev := (Sys.inv_run keptRun_step ops HciDev.init keptRun_init hr).1.2.2 hc
  refine ⟨?_, ?_⟩
  · intro client buffer i h fn _ hf ha hw hs hg
    exact completes_of_granted (find_spec hf).1 hw ha.2.2 hs (givenInv_run ops i h fn ha hw) (hinv.waiting i h fn ha hw) hg
  · intro fn h success u registered hcall
    exact hinv.called _ hcall

/-- A client waits for the initialization and connects from its callback. -/
def initFirstRun : List Op :=
  [.api (.addClient 0), .api (.onInitialized 0 (.client 5) 99),
   .setStatus .initialized fun _ => ⟨[.createConnection 0 ⟨1, 2, 3, 4, 5, 6⟩ (.client 1) (.client 2) 7], false⟩]

theorem asyncData_kept_initFirstRun :
    let dev := Sys.run HciDev.step HciDev.init initFirstRun
    Completes dev (dev.afterStatus (fun dev => (false, dev)) connectionStatus 0) 0 .createConnectionStatusCb 0 ∧
    dev.calls = [.initialized (.client 5) 0 true 99 (some (.client 5, 99))] := by
  have h := asyncData_kept initFirstRun (by decide) (by decide)
  exact ⟨h.1 _ connectionStatus 0 0 .createConnectionStatusCb (by decide) (by decide) (by decide)
    (by decide) (by decide) (by decide), by decide⟩

/-- A name is asked for before the Create Connection was answered. -/
def overlapRun : List Op := connectRun ++ [.api (.readRemoteName 0 ⟨9, 9, 9, 9, 9, 9⟩ (.client 3) (.client 4) 8)]

/-- An inquiry is started before the initialization ended. -/
def hastyRun : List Op :=
  [.api (.addClient 0), .api (.onInitialized 0 (.client 5) 99), .api (.inquiry 0 (.client 3) (.client 4) 8),
   .setStatus .initialized fun _ => ⟨[], false⟩]

/-- The connection's listener would have had a slot, but it waits for the other device with the other callback; and the
inquiry's callback is called to tell that the controller is up. -/
theorem asyncData_mixed :
    (let dev := Sys.run HciDev.step HciDev.init overlapRun
     let dev' := dev.afterStatus (fun dev => (false, dev)) connectionStatus 0
     bteHciDevFindPendingCommand dev connectionStatus = some 0 ∧ (dev.pendingCommands 0).AwaitsStatus 0 ∧
     (dev.pendingCommands 0).commandCb.word0 = .status .createConnectionStatusCb ∧
     dev.Grants (StatusFn.listenerMatcher (dev.given 0) .createConnectionStatusCb) ∧
     ¬ Completes dev dev' 0 .createConnectionStatusCb 0 ∧
     (dev'.pendingCommands 2).matcher = eventDataMatcher hciConnectionComplete [9, 9, 9, 9, 9, 9] 5 ∧
     (dev'.pendingCommands 2).commandCb.word0 = .client 4) ∧
    (let dev := Sys.run HciDev.step HciDev.init hastyRun
     ∃ u, dev.calls = [.initialized (.client 4) 0 true u (some (.client 5, 99))]) := by
  refine ⟨by decide, 99, by decide⟩

end Bte
