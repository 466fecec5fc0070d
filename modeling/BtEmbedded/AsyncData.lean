import BtEmbedded.HciPaths
/-!
# AsyncData — what is left for the Command Status of an asynchronous command

Between an asynchronous command and its Command Status, what the listener is to be built from lives in one union per
client.  `dev.given i` is what the command in slot `i` was called with; the question is whether the status callback still
finds it in the union, and whether the listener gets a slot.

Only calls write the union.  Everything else the library does is `Quiet`: it writes nothing there and puts no command in
a slot that waits for a Command Status.  A property that quiet steps and calls preserve holds along every run.
-/
namespace Bte

open Bytes

/-! ## Quiet steps -/

def Call.isInitialized : Call → Bool
  | .initialized .. => true
  | _ => false

/-- The step writes no client's union and its records, and starts no command. -/
structure Quiet (dev dev' : HciDev) : Prop where
  data : dev'.lastAsyncCmdData = dev.lastAsyncCmdData
  given : dev'.given = dev.given
  registered : dev'.registered = dev.registered
  stores : dev'.stores = dev.stores
  notified : dev'.notified = dev.notified
  initStatus : dev'.initStatus = dev.initStatus
  slots : ∀ i h, (dev'.pendingCommands i).AwaitsStatus h → dev'.pendingCommands i = dev.pendingCommands i
  clients : ∀ i, dev'.clients i = dev.clients i ∨ dev'.clients i = none
  calls : ∀ c ∈ dev'.calls, c ∈ dev.calls ∨ c.isInitialized = false

namespace Quiet

variable {dev dev' dev'' : HciDev}

theorem refl (dev : HciDev) : Quiet dev dev :=
  ⟨rfl, rfl, rfl, rfl, rfl, rfl, fun _ _ _ => rfl, fun _ => .inl rfl, fun _ h => .inl h⟩

theorem trans (h : Quiet dev dev') (h' : Quiet dev' dev'') : Quiet dev dev'' where
  data := h'.data.trans h.data
  given := h'.given.trans h.given
  registered := h'.registered.trans h.registered
  stores := h'.stores.trans h.stores
  notified := h'.notified.trans h.notified
  initStatus := h'.initStatus.trans h.initStatus
  slots := by
    intro i hci ha
    have h1 := h'.slots i hci ha
    rw [h1] at ha
    rw [h1, h.slots i hci ha]
  clients := by
    intro i
    rcases h'.clients i with h1 | h1
    · rw [h1]; exact h.clients i
    · exact .inr h1
  calls := by
    intro c hc
    rcases h'.calls c hc with h1 | h1
    · exact h.calls c h1
    · exact .inr h1

end Quiet

theorem quiet_call (dev : HciDev) {c : Call} (hc : c.isInitialized = false) : Quiet dev (dev.call c) where
  __ := Quiet.refl dev
  calls := by
    intro c' h
    rcases List.mem_append.1 h with h | h
    · exact .inl h
    · rw [List.mem_singleton.1 h]; exact .inr hc

theorem not_awaits_of_empty {pc : PendingCommand} (h : bteDataMatcherIsEmpty pc.matcher = true) (hci : Hci) :
    ¬ pc.AwaitsStatus hci := by
  intro ha
  have hn : pc.matcher.numRules = 0 := by simpa [bteDataMatcherIsEmpty] using h
  have hr : pc.matcher.rules = [] := by simp [DataMatcher.rules, hn, DataMatcher.rulesFrom]
  rw [PendingCommand.AwaitsStatus, hr] at ha
  cases ha.1

/-- One slot is written, with something that awaits no status. -/
theorem quiet_setSlot (dev : HciDev) (i : Fin 8) {pc : PendingCommand} (n : UInt16) (hpc : ∀ h, ¬ pc.AwaitsStatus h) :
    Quiet dev { dev.setSlot i pc with numPendingCommands := n } := by
  refine ⟨rfl, rfl, rfl, rfl, rfl, rfl, ?_, fun _ => .inl rfl, fun _ h => .inl h⟩
  intro j h ha
  simp only [HciDev.setSlot] at ha ⊢
  by_cases hj : j = i
  · subst hj
    rw [Function.update_self] at ha
    exact absurd ha (hpc h)
  · rw [Function.update_of_ne hj]

theorem quiet_free (dev : HciDev) (i : Fin 8) : Quiet dev (bteHciDevFreeCommand dev i) :=
  quiet_setSlot dev i _ (not_awaits_of_empty (init_isEmpty _))

theorem quiet_install (dev : HciDev) (code : UInt8) (h : Option EventHandler) :
    Quiet dev (bteHciDevInstallEventHandler dev code h) := by
  unfold bteHciDevInstallEventHandler
  split
  · exact .refl dev
  · exact ⟨rfl, rfl, rfl, rfl, rfl, rfl, fun _ _ _ => rfl, fun _ => .inl rfl, fun _ h => .inl h⟩

theorem quiet_handlers : ∀ (handlers : List (UInt8 × Option EventHandler)) (dev : HciDev),
    Quiet dev (handlers.foldl (fun dev h => bteHciDevInstallEventHandler dev h.1 h.2) dev)
  | [], dev => .refl dev
  | p :: handlers, dev => (quiet_install dev p.1 p.2).trans (quiet_handlers handlers _)

theorem quiet_logRequest (dev : HciDev) (m : DataMatcher) (answer : Option (Fin 8)) :
    Quiet dev (dev.logRequest m answer) :=
  ⟨rfl, rfl, rfl, rfl, rfl, rfl, fun _ _ _ => rfl, fun _ => .inl rfl, fun _ h => .inl h⟩

theorem quiet_allocWith (dev : HciDev) (m : DataMatcher) (f : PendingCommand → PendingCommand)
    (hf : ∀ (pc : PendingCommand) h, ¬ (f { pc with matcher := m }).AwaitsStatus h) : Quiet dev (dev.allocWith m f) := by
  rw [allocWith_eq]
  cases dev.allocSlot m with
  | none => exact quiet_logRequest dev m none
  | some i => exact (quiet_logRequest dev m (some i)).trans (quiet_setSlot _ i _ (hf _))

/-! ## What is not a command waiting for its status -/

theorem not_awaits_of_matcher {pc : PendingCommand} {m : DataMatcher} {offsets : List UInt8} (h : pc.matcher = m)
    (hm : m.rules.map Rule.offset = offsets) (ho : offsets ≠ [0, 4]) (hci : Hci) : ¬ pc.AwaitsStatus hci := by
  intro ha
  rw [PendingCommand.AwaitsStatus, h, hm] at ha
  exact ho ha.1

theorem eventDataMatcher_offsets (code offset : UInt8) (data : List UInt8) (hd : data.length ≤ 11) :
    (eventDataMatcher code data offset).rules.map Rule.offset = [0, offset] := by
  rw [(eventDataMatcher_spec code offset data hd).2]
  rfl

theorem listener_not_awaits (d : AsyncCmdData) (fn : StatusFn) {pc : PendingCommand}
    (h : pc.matcher = fn.listenerMatcher d) : ∀ hci, ¬ pc.AwaitsStatus hci := by
  cases fn with
  | commonReadConnectionStatusCb =>
    have hr := eventDataMatcher_offsets d.eventCode 3 d.connHandleLe (by simp [AsyncCmdData.connHandleLe])
    exact not_awaits_of_matcher h hr (by decide)
  | inquiryStatusCb =>
    have hr : (eventMatcher hciInquiryComplete).rules.map Rule.offset = [0] := by
      rw [(eventMatcher_spec hciInquiryComplete).2.2]
      rfl
    exact not_awaits_of_matcher h hr (by decide)
  | createConnectionStatusCb =>
    have hr := eventDataMatcher_offsets hciConnectionComplete 5 d.address.bytes (by simp [BdAddr.bytes])
    exact not_awaits_of_matcher h hr (by decide)
  | readRemoteNameStatusCb =>
    have hr := eventDataMatcher_offsets hciRemoteNameReqComplete 3 d.address.bytes (by simp [BdAddr.bytes])
    exact not_awaits_of_matcher h hr (by decide)

/-- A command without a status function of the library, or without a client. -/
theorem quiet_addCommand (dev : HciDev) (hci : Option Hci) (ocf : UInt16) (ogf len : UInt8) {ev : UInt8} {cb : CommandCb}
    (hev : ev = hciCommandComplete ∨ ev = hciCommandStatus ∧ (cb.word0 = .null ∨ hci = none)) (u : Ptr) :
    Quiet dev (bteHciDevAddCommand dev hci ocf ogf len ev cb u).2 := by
  rw [addCommand_snd]
  have hlen := opcode_length ocf ogf len
  generalize (hciCommandAlloc ocf ogf len).take 2 = opcode at hlen
  have halloc : Quiet dev (dev.allocWith (commandMatcher ev opcode)
      fun pc => { pc with commandCb := cb, hci := hci, userdata := u }) := by
    refine quiet_allocWith dev _ _ ?_
    intro pc h
    rcases hev with rfl | ⟨rfl, hw⟩
    · exact not_awaits_of_matcher (commandMatcher_complete opcode) (eventDataMatcher_offsets _ 3 _ (by omega)) (by decide) h
    · rintro ⟨-, h1, h2⟩
      rcases hw with hw | hw
      · simp only [hw] at h1
        cases h1
      · simp only [hw] at h2
        cases h2
  simp only
  cases hs : dev.allocSlot (commandMatcher ev opcode) with
  | some i => exact halloc
  | none =>
    rw [allocWith_none hs] at halloc
    simp only
    split
    · exact halloc
    · exact halloc.trans (quiet_call _ rfl)

theorem quiet_dispose (h : Hci) : ∀ (l : List (Fin 8)) (dev : HciDev), Quiet dev (l.foldl (fun dev i =>
    if bteDataMatcherIsEmpty (dev.pendingCommands i).matcher = false ∧ (dev.pendingCommands i).hci = some h
    then bteHciDevFreeCommand dev i else dev) dev)
  | [], dev => .refl dev
  | i :: l, dev => by
    rw [List.foldl_cons]
    split
    · exact (quiet_free dev i).trans (quiet_dispose h l _)
    · exact quiet_dispose h l dev

theorem quiet_removeClient (dev : HciDev) (h : Hci) : Quiet dev (bteHciDevRemoveClient dev h) := by
  have hd : Quiet dev (hciDevDispose dev h) := quiet_dispose h (List.finRange 8) dev
  unfold bteHciDevRemoveClient
  generalize hciDevDispose dev h = d at hd
  have hc : Quiet d { d with clients := fun i => if d.clients i = some h then none else d.clients i } := by
    refine ⟨rfl, rfl, rfl, rfl, rfl, rfl, fun _ _ _ => rfl, fun i => ?_, fun _ h => .inl h⟩
    by_cases hi : d.clients i = some h
    · exact .inr (if_pos hi)
    · exact .inl (if_neg hi)
  simp only
  split
  · exact (hd.trans hc).trans (quiet_call _ rfl)
  · exact hd.trans hc

theorem quiet_onConnectionEvent (dev : HciDev) (h : Hci) (code : UInt8) (handler : EventHandler) (c : UInt16)
    (callback : FnPtr) : Quiet dev (onConnectionEvent dev h code handler c callback) := by
  unfold onConnectionEvent
  simp only
  split
  · split
    · split
      · exact quiet_free dev _
      · exact .refl dev
    · exact .refl dev
  · have halloc : ∀ f, (∀ pc : PendingCommand, (f pc).matcher = pc.matcher) → Quiet dev (dev.allocWith
        (eventDataMatcher code [c.toUInt8, (c >>> 8).toUInt8] (hciCmdEventPosData + 1)) f) := by
      intro f hf
      have hr := eventDataMatcher_offsets code 3 [c.toUInt8, (c >>> 8).toUInt8] (by simp)
      exact quiet_allocWith dev _ f fun pc => not_awaits_of_matcher (hf _) hr (by decide)
    unfold HciDev.allocWith at halloc
    split
    · rename_i dev' hd
      rw [hd] at halloc
      exact halloc id fun _ => rfl
    · rename_i ev dev' hd
      rw [hd] at halloc
      exact (halloc (fun pc => { pc with hci := some h, commandCb := { pc.commandCb with word0 := callback } })
        fun _ => rfl).trans (quiet_install ..)

/-! ## Commands -/

/-- The members of the union the status function reads are the same. -/
def StatusFn.SameData (a b : AsyncCmdData) : StatusFn → Prop
  | .commonReadConnectionStatusCb => a.clientCb = b.clientCb ∧ a.connHandleLe = b.connHandleLe ∧
      a.eventCode = b.eventCode ∧ a.handlerCb = b.handlerCb
  | .inquiryStatusCb => a.clientCb = b.clientCb
  | .createConnectionStatusCb => a.clientCb = b.clientCb ∧ a.address = b.address
  | .readRemoteNameStatusCb => a.clientCb = b.clientCb ∧ a.address = b.address

/-- A connection read was called with one of the four completion events and its handler. -/
def StatusFn.DataOk (d : AsyncCmdData) (fn : StatusFn) : Prop :=
  fn = .commonReadConnectionStatusCb →
    (d.eventCode, d.handlerCb) ∈ [(hciAuthComplete, some EventHandler.authCompleteEventCb),
      (hciReadRemoteFeaturesComplete, some .readRemoteFeaturesCompleteEventCb),
      (hciReadRemoteVersionComplete, some .readRemoteVersionInfoCompleteEventCb),
      (hciReadClockOffsetComplete, some .readClockOffsetCompleteEventCb)]

/-- A command of `h` was given slot `s`, and its data was stored by `f`. -/
structure Issued (dev dev' : HciDev) (h : Hci) (fn : StatusFn) (f : AsyncCmdData → AsyncCmdData) (s : Fin 8) : Prop where
  data : dev'.lastAsyncCmdData = Function.update dev.lastAsyncCmdData h (f (dev.lastAsyncCmdData h))
  given_slot : dev'.given s = f .zero
  given_other : ∀ j, j ≠ s → dev'.given j = dev.given j
  slot : (dev'.pendingCommands s).hci = some h ∧ (dev'.pendingCommands s).commandCb.word0 = .status fn
  other : ∀ j, j ≠ s → dev'.pendingCommands j = dev.pendingCommands j
  registered : dev'.registered = dev.registered
  notified : dev'.notified = dev.notified
  initStatus : dev'.initStatus = dev.initStatus
  clients : dev'.clients = dev.clients
  calls : dev'.calls = dev.calls
  stores : ∃ b, dev'.stores = dev.stores ++ [⟨h, b⟩] ∧
    (b = false → (∀ j, j ≠ s → ¬ (dev.pendingCommands j).AwaitsStatus h) ∧ ¬ dev.ToBeNotified h)

theorem storing_cases (dev : HciDev) (h : Hci) (ocf : UInt16) (ogf len : UInt8) (fn : StatusFn) (statusCb : FnPtr) (u : Ptr)
    (f : AsyncCmdData → AsyncCmdData) (dev' : HciDev) (hd : dev' = HciDev.storing
      (bteHciDevAddPendingAsyncCommand dev (some h) ocf ogf len (.status fn) statusCb u) h f) :
    Quiet dev dev' ∨ ∃ s, Issued dev dev' h fn f s := by
  cases hs : dev.allocSlot (commandMatcher hciCommandStatus ((hciCommandAlloc ocf ogf len).take 2)) with
  | none =>
    simp only [bteHciDevAddPendingAsyncCommand, bteHciDevAddCommand, bteHciDevAllocCommand, hs, HciDev.storing] at hd
    subst hd
    left
    split
    · exact quiet_logRequest dev _ none
    · exact (quiet_logRequest dev _ none).trans (quiet_call _ rfl)
  | some s =>
    simp only [bteHciDevAddPendingAsyncCommand, bteHciDevAddCommand, bteHciDevAllocCommand, hs] at hd
    subst hd
    refine .inr ⟨s, ?_⟩
    simp only [HciDev.storing, HciDev.storeCommand, HciDev.setAsyncCmdData, HciDev.setSlot, HciDev.logRequest,
      HciDev.lastSlot, List.getLast?_append, List.getLast?_singleton, Option.some_or, Option.bind_some]
    refine ⟨rfl, if_pos rfl, fun j hj => if_neg (by simpa using Ne.symm hj), ⟨by simp, by simp⟩, fun j hj => by simp [hj],
      rfl, rfl, rfl, rfl, rfl, _, rfl, ?_⟩
    intro hb
    obtain ⟨h1, h2⟩ := not_or.1 (of_decide_eq_false hb)
    refine ⟨fun j hj ha => h1 ⟨j, by simpa using hj, ?_⟩, h2⟩
    simpa [hj] using ha

/-- **What a call does to the unions.** -/
inductive Written (dev : HciDev) : ApiCall → HciDev → Prop where
  | quiet {c : ApiCall} {dev' : HciDev} (h : Quiet dev dev') : Written dev c dev'
  | issued {c : ApiCall} {dev' : HciDev} (h : Hci) (fn : StatusFn) (f : AsyncCmdData → AsyncCmdData) (s : Fin 8)
      (hi : Issued dev dev' h fn f s) (hf : ∀ d, fn.SameData (f d) (f .zero)) (hok : fn.DataOk (f .zero)) :
          Written dev c dev'
  | created (h : Hci) : Written dev (.addClient h) (bteClientNew dev h)
  | registered (h : Hci) (callback : FnPtr) (u : Ptr) :
      Written dev (.onInitialized h callback u) (bteHciOnInitialized dev h callback u)

theorem storing_written (dev : HciDev) (h : Hci) (ocf : UInt16) (ogf len : UInt8) (fn : StatusFn) (statusCb : FnPtr)
    (u : Ptr) (f : AsyncCmdData → AsyncCmdData) (hf : ∀ d, fn.SameData (f d) (f .zero)) (hok : fn.DataOk (f .zero))
    (c : ApiCall) : Written dev c (HciDev.storing
      (bteHciDevAddPendingAsyncCommand dev (some h) ocf ogf len (.status fn) statusCb u) h f) := by
  rcases storing_cases dev h ocf ogf len fn statusCb u f _ rfl with hq | ⟨s, hi⟩
  · exact .quiet hq
  · exact .issued h fn f s hi hf hok

theorem readConnection_written (dev : HciDev) (h : Hci) (ocf : UInt16) (ogf : UInt8) (connHandle : UInt16) (code : UInt8)
    (handler : EventHandler) (statusCb clientCb : FnPtr) (u : Ptr)
    (hok : ∀ d : AsyncCmdData, d.eventCode = code → d.handlerCb = some handler →
      StatusFn.DataOk d .commonReadConnectionStatusCb) (c : ApiCall) :
    Written dev c (commonReadConnection dev h ocf ogf connHandle code handler statusCb clientCb u) := by
  refine storing_written dev h _ _ _ _ _ _ _ ?_ (hok _ rfl rfl) c
  exact fun _ => ⟨rfl, rfl, rfl, rfl⟩

theorem apply_written (dev : HciDev) (c : ApiCall) : Written dev c (c.apply dev) := by
  have hconn : ∀ h ocf len a s cb u, Written dev c (connectionCommand dev h ocf len a s cb u) := by
    intro h ocf len a s cb u
    refine storing_written dev h _ _ _ _ _ _ _ ?_ (fun h => by cases h) c
    exact fun _ => ⟨rfl, rfl⟩
  cases c with
  | addClient h => exact .created h
  | removeClient h => exact .quiet (quiet_removeClient dev h)
  | register r => exact .quiet (quiet_install ..)
  | command h ocf ogf len complete clientCb u => exact .quiet (quiet_addCommand dev _ _ _ _ (.inl rfl) _)
  | plainAsync h k statusCb u => exact .quiet (quiet_addCommand dev _ _ _ _ (.inr ⟨rfl, .inl rfl⟩) _)
  | authRequested h c s cb u =>
    exact readConnection_written dev h _ _ _ _ _ _ _ _ (fun d h1 h2 _ => by simp [h1, h2]) _
  | readRemoteFeatures h c s cb u =>
    exact readConnection_written dev h _ _ _ _ _ _ _ _ (fun d h1 h2 _ => by simp [h1, h2]) _
  | readRemoteVersionInfo h c s cb u =>
    exact readConnection_written dev h _ _ _ _ _ _ _ _ (fun d h1 h2 _ => by simp [h1, h2]) _
  | readClockOffset h c s cb u =>
    exact readConnection_written dev h _ _ _ _ _ _ _ _ (fun d h1 h2 _ => by simp [h1, h2]) _
  | inquiry h s cb u =>
    refine storing_written dev h _ _ _ _ _ _ _ ?_ (fun h => by cases h) _
    exact fun _ => rfl
  | createConnection h a s cb u => exact hconn h _ _ a s cb u
  | acceptConnection h a s cb u => exact hconn h _ _ a s cb u
  | rejectConnection h a s cb u => exact hconn h _ _ a s cb u
  | readRemoteName h a s cb u =>
    refine storing_written dev h _ _ _ _ _ _ _ ?_ (fun h => by cases h) _
    exact fun _ => ⟨rfl, rfl⟩
  | onModeChange h c cb => exact .quiet (quiet_onConnectionEvent ..)
  | onQosSetupComplete h c cb => exact .quiet (quiet_onConnectionEvent ..)
  | onInitialized h cb u => exact .registered h cb u

/-! ## Events -/

/-- Quiet steps and calls preserve `P`. -/
structure Stable (P : HciDev → Prop) : Prop where
  quiet : ∀ {dev dev' : HciDev}, Quiet dev dev' → P dev → P dev'
  apply : ∀ {dev : HciDev} (c : ApiCall), P dev → P (c.apply dev)

namespace Stable

variable {P : HciDev → Prop} {dev : HciDev}

theorem callback (hP : Stable P) (callback : Callback) (h : P dev) : P (callback.cb dev).2 := by
  show P (Sys.run ApiCall.apply dev callback.calls)
  generalize callback.calls = calls
  induction calls generalizing dev with
  | nil => exact h
  | cons c calls ih => exact ih (hP.apply c h)

/-- A call to the client, who may call back. -/
theorem call (hP : Stable P) (callback : Callback) (h : P dev) {c : Call} (hc : c.isInitialized = false) :
    P (callback.cb (dev.call c)).2 :=
  hP.callback callback (hP.quiet (quiet_call dev hc) h)

theorem free (hP : Stable P) (i : Fin 8) (h : P dev) : P (bteHciDevFreeCommand dev i) := hP.quiet (quiet_free dev i) h

/-- A listener takes its slot, and the command's is freed. -/
theorem installListener (hP : Stable P) (h : P dev) (hci : Option Hci) (pc : Fin 8) (d : AsyncCmdData) (fn : StatusFn)
    (clientCb : FnPtr) (handlers : List (UInt8 × Option EventHandler)) :
    P (installListener dev hci pc (fn.listenerMatcher d) clientCb handlers) := by
  rw [installListener_eq]
  have halloc : Quiet dev (dev.allocWith (fn.listenerMatcher d) fun s => { s with
        hci := hci
        commandCb := { s.commandCb with word0 := clientCb }
        userdata := (dev.pendingCommands pc).userdata }) :=
    quiet_allocWith dev _ _ fun s => listener_not_awaits d fn rfl
  simp only
  refine hP.free pc (hP.quiet ?_ h)
  split
  · exact halloc
  · exact halloc.trans (quiet_handlers handlers _)

theorem callStatus (hP : Stable P) (callback : Callback) (h : P dev) (fn : FnPtr) (hci : Option Hci) (status : UInt8)
    (pc : Fin 8) : P (callStatus dev callback.cb fn hci status pc) := by
  unfold Bte.callStatus
  simp only
  have h' : P (dev.call (.status fn hci status pc)) := hP.quiet (quiet_call dev rfl) h
  generalize dev.call (.status fn hci status pc) = dev at h'
  have hfailed : ∀ (p : Prop) [Decidable p] (c : Call), c.isInitialized = false →
      P (bteHciDevFreeCommand (if p then (callback.cb (dev.call c)).2 else dev) pc) := by
    intro p _ c hc
    refine hP.free pc ?_
    split
    · exact hP.call callback h' hc
    · exact h'
  split
  · unfold commonReadConnectionStatusCb
    simp only
    split
    · exact hfailed _ _ rfl
    · exact hP.installListener h' hci pc _ _ _ _
  · unfold inquiryStatusCb
    simp only
    split
    · exact hP.free pc h'
    · exact hP.installListener h' hci pc _ _ _ _
  · unfold createConnectionStatusCb
    simp only
    split
    · exact hP.free pc h'
    · exact hP.installListener h' hci pc _ _ _ _
  · unfold readRemoteNameStatusCb
    simp only
    split
    · exact hfailed _ _ rfl
    · exact hP.installListener h' hci pc _ _ _ _
  · exact h'

theorem deliverStatus (hP : Stable P) (callback : Callback) (h : P dev) (buffer : List UInt8) :
    P (deliverStatusToClient dev callback.cb buffer) := by
  unfold deliverStatusToClient
  split
  · exact h
  · rename_i pc hf
    have hstatus : P (if (dev.pendingCommands pc).commandCb.word0 = .null then bteHciDevFreeCommand dev pc
         else Bte.callStatus dev callback.cb (dev.pendingCommands pc).commandCb.word0 (dev.pendingCommands pc).hci
           (buffer.getD hciCmdStatusPosStatus 0) pc) := by
      split
      · exact hP.free pc h
      · exact hP.callStatus callback h _ _ _ _
    simp only
    split
    · exact hstatus
    · exact hP.call callback hstatus rfl

theorem completionEvent (hP : Stable P) (callback : Callback) (h : P dev) (buffer : List UInt8) (checksNull : Bool) :
    P (completionEvent dev callback.cb buffer checksNull) := by
  unfold Bte.completionEvent
  split
  · exact h
  · simp only
    split
    · exact hP.free _ h
    · exact hP.call callback (hP.free _ h) rfl

theorem repeatedEvent (hP : Stable P) (callback : Callback) (h : P dev) (buffer : List UInt8) :
    P (repeatedEvent dev callback.cb buffer) := by
  unfold Bte.repeatedEvent
  split
  · exact h
  · simp only
    split
    · exact hP.free _ (hP.call callback h rfl)
    · exact hP.call callback h rfl

theorem runHandler (hP : Stable P) (callback : Callback) (h : P dev) (buffer : List UInt8) (e : EventHandler) :
    P (runHandler dev callback.cb buffer e) := by
  have hnotify : P (callback.cb (dev.call (.notify e buffer))).2 := hP.call callback h rfl
  have hrequest : ∀ answer : HciDev → HciDev, (∀ d, Quiet d (answer d)) →
      P (if (callback.cb (dev.call (.notify e buffer))).1 = true then (callback.cb (dev.call (.notify e buffer))).2
        else answer (callback.cb (dev.call (.notify e buffer))).2) := by
    intro answer ha
    split
    · exact hnotify
    · exact hP.quiet (ha _) hnotify
  cases e with
  | inquiryCompleteEventCb =>
    simp only [Bte.runHandler, inquiryCompleteEventCb]
    split
    · exact hnotify
    · exact hP.call callback (hP.free _ h) rfl
  | connCompleteEventCb => exact hP.completionEvent callback h buffer true
  | authCompleteEventCb => exact hP.completionEvent callback h buffer true
  | remoteNameReqCompleteEventCb => exact hP.completionEvent callback h buffer false
  | readRemoteFeaturesCompleteEventCb => exact hP.completionEvent callback h buffer false
  | readRemoteVersionInfoCompleteEventCb => exact hP.completionEvent callback h buffer false
  | readClockOffsetCompleteEventCb => exact hP.completionEvent callback h buffer false
  | modeChangeEventCb => exact hP.repeatedEvent callback h buffer
  | qosSetupCompleteEventCb =>
    simp only [Bte.runHandler]
    split
    · exact h
    · exact hP.repeatedEvent callback h buffer
  | connectionRequestEventCb => exact hrequest _ fun d => quiet_addCommand d none _ _ _ (.inr ⟨rfl, .inr rfl⟩) _
  | linkKeyRequestEventCb => exact hrequest _ fun d => quiet_addCommand d none _ _ _ (.inl rfl) _
  | pinCodeRequestEventCb => exact hrequest _ fun d => quiet_addCommand d none _ _ _ (.inl rfl) _
  | inquiryResultCb => exact hP.quiet (quiet_call dev rfl) h
  | returnLinkKeysCb => exact hP.quiet (quiet_call dev rfl) h
  | disconnectionCompleteEventCb => exact hnotify
  | nrOfCompletedPacketsEventCb => exact hnotify
  | linkKeyNotificationEventCb => exact hnotify
  | vendorEventCb => exact hnotify

theorem quiet_noteComplete (dev : HciDev) (buffer : List UInt8) : Quiet dev (dev.noteComplete buffer) := by
  unfold HciDev.noteComplete handleInfoParam
  simp only
  split
  · split <;> exact ⟨rfl, rfl, rfl, rfl, rfl, rfl, fun _ _ _ => rfl, fun _ => .inl rfl, fun _ h => .inl h⟩
  · exact ⟨rfl, rfl, rfl, rfl, rfl, rfl, fun _ _ _ => rfl, fun _ => .inl rfl, fun _ h => .inl h⟩

theorem deliver (hP : Stable P) (callback : Callback) (h : P dev) (buffer : List UInt8) :
    P (dev.deliver callback.cb buffer) := by
  have hnum : ∀ n, Quiet dev { dev with numPackets := n } := fun _ =>
    ⟨rfl, rfl, rfl, rfl, rfl, rfl, fun _ _ _ => rfl, fun _ => .inl rfl, fun _ h => .inl h⟩
  unfold HciDev.deliver
  split
  · split
    · exact hP.quiet (hnum _) h
    · have hn : P (dev.noteComplete buffer) := hP.quiet (quiet_noteComplete dev buffer) h
      unfold deliverReplyToClient
      split
      · exact hn
      · exact hP.call callback (hP.free _ hn) rfl
  · split
    · exact hP.deliverStatus callback (hP.quiet (hnum _) h) buffer
    · exact h

/-- **What quiet steps and calls preserve, every event preserves.** -/
theorem event (hP : Stable P) (callback : Callback) (h : P dev) (buffer : List UInt8) :
    P (bteHciDevHandleEvent dev callback.cb buffer) := by
  have hd : P (dev.deliver callback.cb buffer) := hP.deliver callback h buffer
  rw [handleEvent_eq]
  split
  · exact hd
  · exact hP.runHandler callback hd buffer _

end Stable

end Bte
