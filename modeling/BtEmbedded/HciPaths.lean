import BtEmbedded.PendingTable
/-!
# HciPaths — calls and events are paths of elementary changes

A call frees only the slots it releases (`ApiCall.Releases`).  An event whose slot is freed after its callback has run
needs that the callback did not release that very slot (`Op.Keeps`): otherwise it would be freed twice.
-/
namespace Bte

open Bytes

variable {E : UInt8 → Prop} {F : Fin 8 → Prop}

/-! ## Calls -/

/-- The call frees a slot that holds `pc`. -/
def ApiCall.Releases (pc : PendingCommand) : ApiCall → Prop
  | .removeClient h => pc.hci = some h
  | .onModeChange h c callback => callback = .null ∧ pc.hci = some h ∧
      bteDataMatcherIsSame (eventDataMatcher hciModeChange [c.toUInt8, (c >>> 8).toUInt8] 3) pc.matcher = true
  | .onQosSetupComplete h c callback => callback = .null ∧ pc.hci = some h ∧
      bteDataMatcherIsSame (eventDataMatcher hciQosSetupComplete [c.toUInt8, (c >>> 8).toUInt8] 3) pc.matcher = true
  | _ => False

instance (pc : PendingCommand) : ∀ c : ApiCall, Decidable (c.Releases pc)
  | .removeClient _ => inferInstanceAs (Decidable (_ = _))
  | .onModeChange .. => inferInstanceAs (Decidable (_ ∧ _))
  | .onQosSetupComplete .. => inferInstanceAs (Decidable (_ ∧ _))
  | .addClient _ | .register _ | .command .. | .plainAsync .. | .authRequested .. | .readRemoteFeatures ..
  | .readRemoteVersionInfo .. | .readClockOffset .. | .inquiry .. | .createConnection .. | .acceptConnection ..
  | .rejectConnection .. | .readRemoteName .. | .onInitialized .. => inferInstanceAs (Decidable False)

theorem keep_call (dev : HciDev) (c : Call) : Change E F dev (dev.call c) := .keep rfl rfl rfl rfl rfl

theorem tableInv_call {dev : HciDev} (hinv : TableInv dev) (c : Call) : TableInv (dev.call c) :=
  (keep_call (E := fun _ => False) (F := fun _ => False) dev c).tableInv hinv

theorem opcode_length (ocf : UInt16) (ogf len : UInt8) : ((hciCommandAlloc ocf ogf len).take 2).length = 2 := by
  simp [hciCommandAlloc, opcodeLe]

theorem built_command {ev : UInt8} (hev : ev = hciCommandComplete ∨ ev = hciCommandStatus) {opcode : List UInt8}
    (h : opcode.length = 2) : Built E (commandMatcher ev opcode) := by
  obtain rfl | rfl := hev
  · exact .inr ⟨_, _, opcode, by rw [h]; exact .complete, commandMatcher_complete opcode⟩
  · exact .inr ⟨_, _, opcode, by rw [h]; exact .status, commandMatcher_status opcode⟩

/-- What submitting a command does: the slot it is given holds what was registered. -/
theorem addCommand_snd (dev : HciDev) (hci : Option Hci) (ocf : UInt16) (ogf len ev : UInt8) (cb : CommandCb) (u : Ptr) :
    (bteHciDevAddCommand dev hci ocf ogf len ev cb u).2 =
      let m := commandMatcher ev ((hciCommandAlloc ocf ogf len).take 2)
      match dev.allocSlot m with
      | some _ => dev.allocWith m fun pc => { pc with commandCb := cb, hci := hci, userdata := u }
      | none =>
        if cb.word1 = .null then dev.logRequest m none
        else (dev.logRequest m none).call (.done cb.word1 hci bteHciMemoryFull u) := by
  cases hs : dev.allocSlot (commandMatcher ev ((hciCommandAlloc ocf ogf len).take 2)) with
  | none => simp only [bteHciDevAddCommand, bteHciDevAllocCommand, hs]
  | some i => simp only [bteHciDevAddCommand, HciDev.allocWith, bteHciDevAllocCommand, hs]

theorem allocWith_none {dev : HciDev} {m : DataMatcher} (h : dev.allocSlot m = none)
    (f : PendingCommand → PendingCommand) : dev.allocWith m f = dev.logRequest m none := by rw [allocWith_eq, h]

theorem commandMatcher_rules {ev : UInt8} (hev : ev = hciCommandComplete ∨ ev = hciCommandStatus) {opcode : List UInt8}
    (h : opcode.length = 2) : (commandMatcher ev opcode).rules =
      [⟨0, [ev]⟩, ⟨if ev = hciCommandComplete then hciCmdReplyPosOpcode else hciCmdStatusPosOpcode, opcode⟩] := by
  obtain rfl | rfl := hev
  · exact (eventDataMatcher_spec _ hciCmdReplyPosOpcode opcode (by omega)).2
  · exact (eventDataMatcher_spec _ hciCmdStatusPosOpcode opcode (by omega)).2

/-- A command for a Command Complete, or one for a Command Status with a function of the library. -/
def CommandOk (ev : UInt8) (cb : CommandCb) : Prop :=
  ev = hciCommandComplete ∨ ev = hciCommandStatus ∧ (cb.word0 = .null ∨ ∃ fn, cb.word0 = .status fn)

theorem fillsStatus_command {ev : UInt8} {cb : CommandCb} (hcb : CommandOk ev cb) {opcode : List UInt8}
    (h : opcode.length = 2) {f : PendingCommand → PendingCommand} (hf : ∀ pc, (f pc).commandCb = cb) :
    FillsStatus (commandMatcher ev opcode) f := by
  intro opcode' h' heq pc
  rw [hf]
  obtain rfl | ⟨_, hw⟩ := hcb
  · have hr := congrArg DataMatcher.rules heq
    rw [commandMatcher_rules (.inl rfl) h, commandMatcher_rules (.inr rfl) h'] at hr
    simp [hciCommandComplete, hciCommandStatus] at hr
  · exact hw

/-- A listener's matcher is not one of a command: it does not look at offset 4. -/
theorem fillsStatus_listener {code offset : UInt8} {data : List UInt8} (hd : data.length ≤ 11) (ho : offset ≠ 4)
    (f : PendingCommand → PendingCommand) : FillsStatus (eventDataMatcher code data offset) f := by
  intro opcode h heq
  have hr := congrArg DataMatcher.rules heq
  rw [commandMatcher_rules (.inr rfl) h, (eventDataMatcher_spec code offset data hd).2] at hr
  simp only [List.cons.injEq, Rule.mk.injEq] at hr
  exact absurd hr.2.1.1 ho

theorem fillsStatus_inquiry (f : PendingCommand → PendingCommand) : FillsStatus (eventMatcher hciInquiryComplete) f := by
  intro opcode h heq
  have hr := congrArg DataMatcher.rules heq
  rw [commandMatcher_rules (.inr rfl) h, (eventMatcher_spec _).2.2] at hr
  simp at hr

theorem addCommand_path (dev : HciDev) (hci : Option Hci) (ocf : UInt16) (ogf len : UInt8) {ev : UInt8} {cb : CommandCb}
    (hcb : CommandOk ev cb) (u : Ptr) : Path E F dev (bteHciDevAddCommand dev hci ocf ogf len ev cb u).2 := by
  have hm := built_command (E := E) (hcb.imp_right And.left) (opcode_length ocf ogf len)
  have hst := fun f => fillsStatus_command hcb (opcode_length ocf ogf len) (f := f)
  rw [addCommand_snd]
  generalize commandMatcher ev ((hciCommandAlloc ocf ogf len).take 2) = m at hm hst
  have halloc : Change E F dev (dev.allocWith m fun pc => { pc with commandCb := cb, hci := hci, userdata := u }) :=
    .alloc dev m _ hm (fun _ => rfl) (hst _ fun _ => rfl)
  cases hs : dev.allocSlot m with
  | some i =>
    simp only [hs]
    exact .single halloc
  | none =>
    rw [allocWith_none hs] at halloc
    simp only [hs]
    split
    · exact .single halloc
    · exact .tail (.single halloc) (keep_call ..)

theorem storing_path {dev : HciDev} {r : Option (List UInt8) × HciDev} (h : Hci) {f : AsyncCmdData → AsyncCmdData}
    (hr : Path E F dev r.2) (hf : ∀ d, (f d).handlerCb = d.handlerCb ∨ ∃ e, (f d).handlerCb = some e ∧ e.OfRead) :
    Path E F dev (HciDev.storing r h f) := by
  obtain ⟨_ | b, dev'⟩ := r
  · exact hr
  · exact (hr.tail (.store dev' h _ (.inr (hf _)))).tail (.keep rfl rfl rfl rfl rfl)

theorem readConnection_path (dev : HciDev) (h : Hci) (ocf : UInt16) (ogf : UInt8) (c : UInt16) (code : UInt8)
    {handler : EventHandler} (hh : handler.OfRead) (statusCb clientCb : FnPtr) (u : Ptr) :
    Path E F dev (commonReadConnection dev h ocf ogf c code handler statusCb clientCb u) :=
  storing_path h (addCommand_path dev _ _ _ _ (.inr ⟨rfl, .inr ⟨_, rfl⟩⟩) _) fun _ => .inr ⟨handler, rfl, hh⟩

theorem connectionCommand_path (dev : HciDev) (h : Hci) (ocf : UInt16) (len : UInt8) (a : BdAddr)
    (statusCb clientCb : FnPtr) (u : Ptr) : Path E F dev (connectionCommand dev h ocf len a statusCb clientCb u) :=
  storing_path h (addCommand_path dev _ _ _ _ (.inr ⟨rfl, .inr ⟨_, rfl⟩⟩) _) fun _ => .inl rfl

theorem isEmpty_of_isSame {a b : DataMatcher} (h : bteDataMatcherIsSame a b = true) :
    bteDataMatcherIsEmpty b = bteDataMatcherIsEmpty a := by
  unfold bteDataMatcherIsSame at h
  split at h
  · cases h
  · rename_i hn
    simp only [bteDataMatcherIsEmpty, not_not.1 hn]

theorem onConnectionEvent_path (dev : HciDev) (h : Hci) (code : UInt8) (handler : EventHandler) (c : UInt16)
    (callback : FnPtr) (hl : Layout E code 3 2) (hc : code ∈ handler.eventCodes) :
    Path E (fun i => callback = .null ∧ (dev.pendingCommands i).hci = some h ∧ bteDataMatcherIsSame
        (eventDataMatcher code [c.toUInt8, (c >>> 8).toUInt8] 3) (dev.pendingCommands i).matcher = true)
      dev (onConnectionEvent dev h code handler c callback) := by
  have hm : Built E (eventDataMatcher code [c.toUInt8, (c >>> 8).toUInt8] 3) :=
    .inr ⟨code, 3, [c.toUInt8, (c >>> 8).toUInt8], hl, rfl⟩
  unfold onConnectionEvent
  rw [show hciCmdEventPosData + 1 = 3 from rfl]
  by_cases hcb : callback = .null
  · simp only [hcb, if_true]
    split
    · rename_i ev hev
      have hsame := List.find?_some hev
      split
      · rename_i hh
        refine .single (.free dev ev ?_ ⟨trivial, hh, hsame⟩)
        rw [HciDev.Occupied, isEmpty_of_isSame hsame]
        exact hm.not_empty
      · exact .refl
    · exact .refl
  · simp only [hcb, if_false]
    have halloc := fun f (hf : ∀ pc, (f pc).matcher = pc.matcher) => Change.alloc (E := E)
      (F := fun i => False ∧ (dev.pendingCommands i).hci = some h ∧ bteDataMatcherIsSame
        (eventDataMatcher code [c.toUInt8, (c >>> 8).toUInt8] 3) (dev.pendingCommands i).matcher = true) dev _ f hm hf
      (fillsStatus_listener (by simp) (by decide) f)
    unfold HciDev.allocWith at halloc
    split
    · rename_i dev' hd
      rw [hd] at halloc
      exact .single (halloc id fun _ => rfl)
    · rename_i ev dev' hd
      rw [hd] at halloc
      exact .tail (.single (halloc
        (fun pc => { pc with hci := some h, commandCb := { pc.commandCb with word0 := callback } }) fun _ => rfl))
        (.install _ code handler hc)

/-- Freeing the slots of a client, one by one. -/
theorem dispose_path (h : Hci) (dev₀ : HciDev) :
    ∀ (l : List (Fin 8)) (dev : HciDev), (∀ i, (dev.pendingCommands i).hci = (dev₀.pendingCommands i).hci) →
      Path E (fun i => (dev₀.pendingCommands i).hci = some h) dev (l.foldl (fun dev i =>
        if bteDataMatcherIsEmpty (dev.pendingCommands i).matcher = false ∧ (dev.pendingCommands i).hci = some h
        then bteHciDevFreeCommand dev i else dev) dev)
  | [], _, _ => .refl
  | i :: l, dev, hh => by
    rw [List.foldl_cons]
    split
    · rename_i hi
      refine .head (.free dev i hi.1 (by rw [← hh]; exact hi.2)) (dispose_path h dev₀ l _ ?_)
      intro j
      by_cases hj : j = i
      · subst hj; simp [hh]
      · simp [hj, hh]
    · exact dispose_path h dev₀ l dev hh

theorem removeClient_path (dev : HciDev) (h : Hci) :
    Path E (fun i => (dev.pendingCommands i).hci = some h) dev (bteHciDevRemoveClient dev h) := by
  have hd : Path E (fun i => (dev.pendingCommands i).hci = some h) dev (hciDevDispose dev h) :=
    dispose_path h dev (List.finRange 8) dev fun _ => rfl
  unfold bteHciDevRemoveClient
  generalize hciDevDispose dev h = d at hd
  simp only
  split
  · exact hd.tail (.keep rfl rfl rfl rfl rfl)
  · exact hd.tail (.keep rfl rfl rfl rfl rfl)

theorem addClient_path (dev : HciDev) (h : Hci) : Path E F dev (bteHciDevAddClient dev h).2 := by
  unfold bteHciDevAddClient
  split
  · exact .single (.keep rfl rfl rfl rfl rfl)
  · exact .refl

theorem inquiry_path (dev : HciDev) (h : Hci) (statusCb clientCb : FnPtr) (u : Ptr) :
    Path E F dev (bteHciInquiry dev h statusCb clientCb u) :=
  storing_path h (addCommand_path dev _ _ _ _ (.inr ⟨rfl, .inr ⟨_, rfl⟩⟩) _) fun _ => .inl rfl

theorem readRemoteName_path (dev : HciDev) (h : Hci) (a : BdAddr) (statusCb clientCb : FnPtr) (u : Ptr) :
    Path E F dev (bteHciReadRemoteName dev h a statusCb clientCb u) :=
  storing_path h (addCommand_path dev _ _ _ _ (.inr ⟨rfl, .inr ⟨_, rfl⟩⟩) _) fun _ => .inl rfl

theorem clientNew_path (dev : HciDev) (h : Hci) : Path E F dev (bteClientNew dev h) := by
  unfold bteClientNew
  refine .head (.store dev h .zero (.inl rfl)) (.trans (.single ?_) (addClient_path _ h))
  exact .keep rfl rfl rfl rfl rfl

theorem onInitialized_path (dev : HciDev) (h : Hci) (callback : FnPtr) (u : Ptr) :
    Path E F dev (bteHciOnInitialized dev h callback u) := by
  refine .head (.store dev h ((dev.lastAsyncCmdData h).withInitialization callback u) (.inr (.inl rfl))) (.single ?_)
  unfold bteHciOnInitialized
  simp only
  split
  · exact .keep rfl rfl rfl rfl rfl
  · exact .keep rfl rfl rfl rfl rfl

/-- **A call is a path that frees only what it releases.** -/
theorem apply_path (dev : HciDev) (c : ApiCall) :
    Path E (fun i => c.Releases (dev.pendingCommands i)) dev (c.apply dev) := by
  have hread : ∀ e : EventHandler, e.eventCodes = [] → e.OfRead := fun _ h => h
  cases c with
  | addClient h => exact clientNew_path dev h
  | removeClient h => exact removeClient_path dev h
  | register r => exact .single (.install dev _ _ (by cases r <;> decide))
  | command h ocf ogf len complete clientCb u => exact addCommand_path dev _ _ _ _ (.inl rfl) _
  | plainAsync h k statusCb u => exact addCommand_path dev _ _ _ _ (.inr ⟨rfl, .inl rfl⟩) _
  | authRequested h c s cb u => exact readConnection_path dev h _ _ c _ (hread .authCompleteEventCb rfl) s cb u
  | readRemoteFeatures h c s cb u =>
    exact readConnection_path dev h _ _ c _ (hread .readRemoteFeaturesCompleteEventCb rfl) s cb u
  | readRemoteVersionInfo h c s cb u =>
    exact readConnection_path dev h _ _ c _ (hread .readRemoteVersionInfoCompleteEventCb rfl) s cb u
  | readClockOffset h c s cb u =>
    exact readConnection_path dev h _ _ c _ (hread .readClockOffsetCompleteEventCb rfl) s cb u
  | inquiry h s cb u => exact inquiry_path dev h s cb u
  | createConnection h a s cb u => exact connectionCommand_path dev h _ _ a s cb u
  | acceptConnection h a s cb u => exact connectionCommand_path dev h _ _ a s cb u
  | rejectConnection h a s cb u => exact connectionCommand_path dev h _ _ a s cb u
  | readRemoteName h a s cb u => exact readRemoteName_path dev h a s cb u
  | onModeChange h c cb => exact onConnectionEvent_path dev h _ _ c cb .modeChange (by decide)
  | onQosSetupComplete h c cb => exact onConnectionEvent_path dev h _ _ c cb .qosSetup (by decide)
  | onInitialized h cb u => exact onInitialized_path dev h cb u

/-- The calls of a callback that releases none of the slots in `K` keep those that are occupied. -/
theorem calls_path {K : Fin 8 → Prop} :
    ∀ (calls : List ApiCall) (dev : HciDev), TableInv dev → (∀ i, K i → dev.Occupied i) →
      (∀ i, K i → ∀ c ∈ calls, ¬ c.Releases (dev.pendingCommands i)) →
      Path E (fun i => ¬ K i) dev (Sys.run ApiCall.apply dev calls)
  | [], _, _, _, _ => .refl
  | c :: calls, dev, hinv, ho, hK => by
    have hc : Path E (fun i => c.Releases (dev.pendingCommands i)) dev (c.apply dev) := apply_path dev c
    have hslot : ∀ i, K i → (c.apply dev).pendingCommands i = dev.pendingCommands i :=
      fun i hi => Path.slot_eq hc hinv (ho i hi) (hK i hi c List.mem_cons_self)
    refine .trans (Path.mono (fun i hr hi => hK i hi c List.mem_cons_self hr) hc)
      (calls_path calls (c.apply dev) (Path.tableInv hc hinv) ?_ ?_)
    · intro i hi
      rw [HciDev.Occupied, hslot i hi]
      exact ho i hi
    · intro i hi c' hc'
      rw [hslot i hi]
      exact hK i hi c' (List.mem_cons_of_mem c hc')

/-! ## Events -/

theorem find_spec {dev : HciDev} {buffer : List UInt8} {i : Fin 8} (h : bteHciDevFindPendingCommand dev buffer = some i) :
    dev.Occupied i ∧ bteDataMatcherCompare (dev.pendingCommands i).matcher buffer = true := by
  have hs := List.find?_some h
  simpa only [HciDev.Occupied, Bool.and_eq_true, Bool.not_eq_true'] using hs

/-- The slot is freed after the callback of the event has run, not before: a read that failed, or a repeated event whose
callback returns `true`. -/
def HciDev.FreedLate (dev : HciDev) (buffer : List UInt8) (ret : Bool) (i : Fin 8) : Prop :=
  buffer.getD hciCmdStatusPosStatus 0 ≠ 0 ∧
    ((dev.pendingCommands i).commandCb.word0 = .status .commonReadConnectionStatusCb ∨
      (dev.pendingCommands i).commandCb.word0 = .status .readRemoteNameStatusCb) ∨
  ret = true ∧ (bteHciDevHandlerForEvent dev (buffer.getD 0 0) = some .modeChangeEventCb ∨
    bteHciDevHandlerForEvent dev (buffer.getD 0 0) = some .qosSetupCompleteEventCb)

instance (dev : HciDev) (buffer : List UInt8) (ret : Bool) (i : Fin 8) : Decidable (dev.FreedLate buffer ret i) :=
  inferInstanceAs (Decidable (_ ∨ _))

/-- A callback that runs before its slot is freed does not release that slot itself. -/
def Op.Keeps (dev : HciDev) : Op → Prop
  | .api _ | .setStatus .. => True
  | .event buffer callback => ∀ i, bteHciDevFindPendingCommand dev buffer = some i → dev.FreedLate buffer callback.ret i →
      ∀ c ∈ callback.calls, ¬ c.Releases (dev.pendingCommands i)

instance (dev : HciDev) : ∀ o : Op, Decidable (o.Keeps dev)
  | .api _ | .setStatus .. => .isTrue trivial
  | .event .. => inferInstanceAs (Decidable (∀ _ : Fin 8, _ = _ → _ → ∀ c ∈ _, ¬ _))

/-- A connection read that succeeds finds in `last_async_cmd_data` an event code of `E`. -/
def Op.ReadsCode (E : UInt8 → Prop) (dev : HciDev) : Op → Prop
  | .api _ | .setStatus .. => True
  | .event buffer _ => ∀ i, bteHciDevFindPendingCommand dev buffer = some i →
      (dev.pendingCommands i).commandCb.word0 = .status .commonReadConnectionStatusCb →
      buffer.getD hciCmdStatusPosStatus 0 = 0 → E (dev.asyncCmdData (dev.pendingCommands i).hci).eventCode

instance (E : UInt8 → Prop) [DecidablePred E] (dev : HciDev) : ∀ o : Op, Decidable (o.ReadsCode E dev)
  | .api _ | .setStatus .. => .isTrue trivial
  | .event .. => inferInstanceAs (Decidable (∀ _ : Fin 8, _ = _ → _ = _ → _ = _ → E _))

/-- What the status callbacks do with a listener: one allocation, the handlers, and the command's slot is freed. -/
theorem installListener_eq (dev : HciDev) (hci : Option Hci) (pc : Fin 8) (m : DataMatcher) (clientCb : FnPtr)
    (handlers : List (UInt8 × Option EventHandler)) :
    installListener dev hci pc m clientCb handlers =
      let d := dev.allocWith m fun s => { s with
        hci := hci
        commandCb := { s.commandCb with word0 := clientCb }
        userdata := (dev.pendingCommands pc).userdata }
      bteHciDevFreeCommand (if dev.allocSlot m = none then d else
        handlers.foldl (fun dev h => bteHciDevInstallEventHandler dev h.1 h.2) d) pc := by
  unfold installListener HciDev.allocWith bteHciDevAllocCommand
  cases hs : dev.allocSlot m with
  | none => simp
  | some ev =>
    -- the freed slot's `userdata` is read after the new slot was filled, which has not touched it
    have hu : ∀ (s : PendingCommand), s.userdata = (dev.pendingCommands ev).userdata →
        (Function.update dev.pendingCommands ev s pc).userdata = (dev.pendingCommands pc).userdata := by
      intro s hs
      by_cases hpc : pc = ev
      · subst hpc; simpa using hs
      · simp [hpc]
    simp [HciDev.setSlot, HciDev.logRequest, hu]

theorem installListener_path {dev : HciDev} (hinv : TableInv dev) (hci : Option Hci) {pc : Fin 8} (ho : dev.Occupied pc)
    {m : DataMatcher} (hm : Built E m) (hst : ∀ f, FillsStatus m f) (clientCb : FnPtr)
    (handlers : List (UInt8 × Option EventHandler))
    (hh : ∀ d, d.lastAsyncCmdData = dev.lastAsyncCmdData → Path E (fun _ => False) d
      (handlers.foldl (fun dev h => bteHciDevInstallEventHandler dev h.1 h.2) d)) :
    Path E (fun i => i = pc) dev (installListener dev hci pc m clientCb handlers) := by
  rw [installListener_eq]
  have halloc : ∀ f : PendingCommand → PendingCommand, (∀ s, (f s).matcher = s.matcher) →
      Path E (fun _ => False) dev (dev.allocWith m f) := fun f hf => .single (.alloc dev m f hm hf (hst f))
  refine Path.free_after (F := fun _ => False) ?_ hinv ho (fun h => h) (fun _ h => h.elim) rfl
  split
  · exact halloc _ fun _ => rfl
  · refine .trans ?_ (hh _ ?_)
    · exact halloc _ fun _ => rfl
    · rw [allocWith_eq]
      cases dev.allocSlot m <;> rfl

theorem statusHandlers_path (dev : HciDev) (hci : Option Hci) (fn : StatusFn)
    (hE : fn = .commonReadConnectionStatusCb → E (dev.asyncCmdData hci).eventCode) :
    ∀ d, d.lastAsyncCmdData = dev.lastAsyncCmdData → Path E F d ((fn.handlers (dev.asyncCmdData hci)).foldl
      (fun dev h => bteHciDevInstallEventHandler dev h.1 h.2) d) := by
  intro d hd
  have hdata : d.asyncCmdData hci = dev.asyncCmdData hci := by
    cases hci with
    | none => rfl
    | some h => simp [HciDev.asyncCmdData, hd]
  cases fn with
  | commonReadConnectionStatusCb =>
    have h := Change.installRead (E := E) (F := F) d hci (by rw [hdata]; exact hE rfl)
    rw [hdata] at h
    exact .single h
  | inquiryStatusCb =>
    exact .tail (.single (.install d hciInquiryResult .inquiryResultCb (by decide)))
      (.install _ hciInquiryComplete .inquiryCompleteEventCb (by decide))
  | createConnectionStatusCb => exact .single (.install d hciConnectionComplete .connCompleteEventCb (by decide))
  | readRemoteNameStatusCb =>
    exact .single (.install d hciRemoteNameReqComplete .remoteNameReqCompleteEventCb (by decide))

theorem built_listener (d : AsyncCmdData) (fn : StatusFn) (hE : fn = .commonReadConnectionStatusCb → E d.eventCode) :
    Built E (fn.listenerMatcher d) := by
  cases fn with
  | commonReadConnectionStatusCb => exact .inr ⟨d.eventCode, 3, d.connHandleLe, .readConnection _ (hE rfl), rfl⟩
  | inquiryStatusCb => exact .inl rfl
  | createConnectionStatusCb => exact .inr ⟨_, 5, d.address.bytes, .connection, rfl⟩
  | readRemoteNameStatusCb => exact .inr ⟨_, 3, d.address.bytes, .remoteName, rfl⟩

theorem fillsStatus_statusFn (d : AsyncCmdData) (fn : StatusFn) (f : PendingCommand → PendingCommand) :
    FillsStatus (fn.listenerMatcher d) f := by
  cases fn with
  | commonReadConnectionStatusCb => exact fillsStatus_listener (by simp [AsyncCmdData.connHandleLe]) (by decide) f
  | inquiryStatusCb => exact fillsStatus_inquiry f
  | createConnectionStatusCb => exact fillsStatus_listener (by simp [BdAddr.bytes]) (by decide) f
  | readRemoteNameStatusCb => exact fillsStatus_listener (by simp [BdAddr.bytes]) (by decide) f

/-- A status callback that succeeds: the command's slot is the only one freed. -/
theorem listener_path {dev : HciDev} (hinv : TableInv dev) (hci : Option Hci) {pc : Fin 8} (ho : dev.Occupied pc)
    (fn : StatusFn) (hE : fn = .commonReadConnectionStatusCb → E (dev.asyncCmdData hci).eventCode) (clientCb : FnPtr) :
    Path E (fun i => i = pc) dev (installListener dev hci pc (fn.listenerMatcher (dev.asyncCmdData hci)) clientCb
      (fn.handlers (dev.asyncCmdData hci))) :=
  installListener_path hinv hci ho (built_listener _ fn hE) (fillsStatus_statusFn _ fn) clientCb _
      (statusHandlers_path dev hci fn hE)

/-- The slots of `K` are out of reach: occupied, not matched by the event, not released by the callback's calls. -/
def Spared (K : Fin 8 → Prop) (buffer : List UInt8) (callback : Callback) (dev : HciDev) : Prop :=
  ∀ i, K i → dev.Occupied i ∧ bteDataMatcherCompare (dev.pendingCommands i).matcher buffer = false ∧
    ∀ c ∈ callback.calls, ¬ c.Releases (dev.pendingCommands i)

section Spared

variable {K : Fin 8 → Prop} {buffer : List UInt8} {callback : Callback} {dev : HciDev}

theorem Spared.of_path {d : HciDev} (hK : Spared K buffer callback dev) (hinv : TableInv dev)
    (hp : Path E (fun i => ¬ K i) dev d) : Spared K buffer callback d := by
  intro i hi
  have hs := Path.slot_eq hp hinv (hK i hi).1 (not_not.2 hi)
  rw [HciDev.Occupied, hs]
  exact hK i hi

theorem Spared.not_found (hK : Spared K buffer callback dev) {i : Fin 8}
    (hf : bteHciDevFindPendingCommand dev buffer = some i) : ¬ K i := by
  intro hi
  have h := (find_spec hf).2
  rw [(hK i hi).2.1] at h
  cases h

theorem callback_path (hinv : TableInv dev) (hK : Spared K buffer callback dev) :
    Path E (fun i => ¬ K i) dev (callback.cb dev).2 :=
  calls_path callback.calls dev hinv (fun i hi => (hK i hi).1) fun i hi => (hK i hi).2.2

/-- A call to the client, who may call back. -/
theorem call_path (hinv : TableInv dev) (hK : Spared K buffer callback dev) (c : Call) :
    Path E (fun i => ¬ K i) dev (callback.cb (dev.call c)).2 :=
  .head (keep_call dev c) (callback_path (tableInv_call hinv c) hK)

/-- The same, and the slot `pc` is left alone too. -/
theorem call_path_keeping (hinv : TableInv dev) (hK : Spared K buffer callback dev) {pc : Fin 8} (ho : dev.Occupied pc)
    (hk : ∀ c ∈ callback.calls, ¬ c.Releases (dev.pendingCommands pc)) (c : Call) :
    Path E (fun i => ¬ (K i ∨ i = pc)) dev (callback.cb (dev.call c)).2 := by
  refine .head (keep_call dev c) (calls_path callback.calls (dev.call c) ?_ ?_ ?_)
  · exact tableInv_call hinv c
  · rintro i (hi | rfl)
    · exact (hK i hi).1
    · exact ho
  · rintro i (hi | rfl)
    · exact (hK i hi).2.2
    · exact hk

/-- The failure branch of a status callback: the client is told, and only then the slot is freed. -/
theorem failed_path (hinv : TableInv dev) (hK : Spared K buffer callback dev) {pc : Fin 8} (ho : dev.Occupied pc)
    (hpc : ¬ K pc) (hk : ∀ c ∈ callback.calls, ¬ c.Releases (dev.pendingCommands pc)) (c : Call) (p : Prop) [Decidable p] :
    Path E (fun i => ¬ K i) dev
      (bteHciDevFreeCommand (if p then (callback.cb (dev.call c)).2 else dev) pc) := by
  refine Path.free_after (F := fun i => ¬ (K i ∨ i = pc)) ?_ hinv ho (fun h => h (.inr rfl)) (fun _ h hi => h (.inl hi)) hpc
  split
  · exact call_path_keeping hinv hK ho hk c
  · exact .refl

theorem callStatus_path (hinv : TableInv dev) (hK : Spared K buffer callback dev) (fn : FnPtr) (hci : Option Hci)
    (status : UInt8) {pc : Fin 8} (ho : dev.Occupied pc) (hpc : ¬ K pc)
    (hk : status ≠ 0 → fn = .status .commonReadConnectionStatusCb ∨ fn = .status .readRemoteNameStatusCb →
      ∀ c ∈ callback.calls, ¬ c.Releases (dev.pendingCommands pc))
    (hE : fn = .status .commonReadConnectionStatusCb → status = 0 → E (dev.asyncCmdData hci).eventCode) :
    Path E (fun i => ¬ K i) dev (callStatus dev callback.cb fn hci status pc) := by
  have hinv' := tableInv_call hinv (.status fn hci status pc)
  refine .head (keep_call dev (.status fn hci status pc)) ?_
  generalize hd : dev.call (.status fn hci status pc) = d at hinv' ⊢
  have hK' : Spared K buffer callback d := by rw [← hd]; exact hK
  have ho' : d.Occupied pc := by rw [← hd]; exact ho
  have hdata : d.asyncCmdData hci = dev.asyncCmdData hci := by rw [← hd]; rfl
  have hslot : d.pendingCommands pc = dev.pendingCommands pc := by rw [← hd]; rfl
  rw [← hslot] at hk
  rw [← hdata] at hE
  have hfree : Path E (fun i => ¬ K i) d (bteHciDevFreeCommand d pc) := .single (.free d pc ho' hpc)
  have hmono : ∀ {d' : HciDev}, Path E (fun i => i = pc) d d' → Path E (fun i => ¬ K i) d d' :=
    fun h => Path.mono (fun i hi => by rw [hi]; exact hpc) h
  unfold callStatus
  simp only [hd]
  split
  · unfold commonReadConnectionStatusCb
    simp only
    split
    · rename_i hst
      exact failed_path hinv' hK' ho' hpc (hk hst (.inl rfl)) _ _
    · rename_i hst
      exact hmono (listener_path hinv' hci ho' .commonReadConnectionStatusCb (fun _ => hE rfl (not_not.1 hst)) _)
  · unfold inquiryStatusCb
    simp only
    split
    · exact hfree
    · exact hmono (listener_path hinv' hci ho' .inquiryStatusCb (fun h => by cases h) _)
  · unfold createConnectionStatusCb
    simp only
    split
    · exact hfree
    · exact hmono (listener_path hinv' hci ho' .createConnectionStatusCb (fun h => by cases h) _)
  · unfold readRemoteNameStatusCb
    simp only
    split
    · rename_i hst
      exact failed_path hinv' hK' ho' hpc (hk hst (.inr rfl)) _ _
    · exact hmono (listener_path hinv' hci ho' .readRemoteNameStatusCb (fun h => by cases h) _)
  · exact .refl

theorem deliverStatus_path (hinv : TableInv dev) (hK : Spared K buffer callback dev)
    (hk : (Op.event buffer callback).Keeps dev) (hE : (Op.event buffer callback).ReadsCode E dev) :
    Path E (fun i => ¬ K i) dev (deliverStatusToClient dev callback.cb buffer) := by
  unfold deliverStatusToClient
  split
  · exact .refl
  · rename_i pc hf
    have hpc := hK.not_found hf
    obtain ⟨ho, _⟩ := find_spec hf
    have hstatus : Path E (fun i => ¬ K i) dev
        (if (dev.pendingCommands pc).commandCb.word0 = .null then bteHciDevFreeCommand dev pc
         else callStatus dev callback.cb (dev.pendingCommands pc).commandCb.word0 (dev.pendingCommands pc).hci
           (buffer.getD hciCmdStatusPosStatus 0) pc) := by
      split
      · exact .single (.free dev pc ho hpc)
      · exact callStatus_path hinv hK _ _ _ ho hpc (fun hst hfn => hk pc hf (.inl ⟨hst, hfn⟩)) (hE pc hf)
    simp only
    generalize (if (dev.pendingCommands pc).commandCb.word0 = .null then bteHciDevFreeCommand dev pc
         else callStatus dev callback.cb (dev.pendingCommands pc).commandCb.word0 (dev.pendingCommands pc).hci
           (buffer.getD hciCmdStatusPosStatus 0) pc) = d at hstatus
    split
    · exact hstatus
    · exact hstatus.trans (call_path (Path.tableInv hstatus hinv) (hK.of_path hinv hstatus) _)

/-- Free the slot the event matches, then call the client. -/
theorem free_call_path (hinv : TableInv dev) (hK : Spared K buffer callback dev) {pc : Fin 8}
    (hf : bteHciDevFindPendingCommand dev buffer = some pc) (c : Call) :
    Path E (fun i => ¬ K i) dev (bteHciDevFreeCommand dev pc) ∧
    Path E (fun i => ¬ K i) dev (callback.cb ((bteHciDevFreeCommand dev pc).call c)).2 := by
  have hfree : Path E (fun i => ¬ K i) dev (bteHciDevFreeCommand dev pc) :=
    .single (.free dev pc (find_spec hf).1 (hK.not_found hf))
  exact ⟨hfree, hfree.trans (call_path (Path.tableInv hfree hinv) (hK.of_path hinv hfree) c)⟩

theorem deliverReply_path (hinv : TableInv dev) (hK : Spared K buffer callback dev) :
    Path E (fun i => ¬ K i) dev (deliverReplyToClient dev callback.cb buffer) := by
  unfold deliverReplyToClient
  split
  · exact .refl
  · rename_i pc hf
    exact (free_call_path hinv hK hf _).2

theorem completionEvent_path (hinv : TableInv dev) (hK : Spared K buffer callback dev) (checksNull : Bool) :
    Path E (fun i => ¬ K i) dev (completionEvent dev callback.cb buffer checksNull) := by
  unfold completionEvent
  split
  · exact .refl
  · rename_i pc hf
    simp only
    split
    · exact (free_call_path hinv hK hf .deinit).1
    · exact (free_call_path hinv hK hf _).2

theorem inquiryComplete_path (hinv : TableInv dev) (hK : Spared K buffer callback dev) :
    Path E (fun i => ¬ K i) dev (inquiryCompleteEventCb dev callback.cb buffer) := by
  unfold inquiryCompleteEventCb
  split
  · exact call_path hinv hK _
  · rename_i pc hf
    exact (free_call_path hinv hK hf _).2

theorem repeatedEvent_path (hinv : TableInv dev) (hK : Spared K buffer callback dev)
    (hk : callback.ret = true → ∀ i, bteHciDevFindPendingCommand dev buffer = some i →
      ∀ c ∈ callback.calls, ¬ c.Releases (dev.pendingCommands i)) :
    Path E (fun i => ¬ K i) dev (repeatedEvent dev callback.cb buffer) := by
  unfold repeatedEvent
  split
  · exact .refl
  · rename_i pc hf
    have ho := (find_spec hf).1
    simp only
    split
    · rename_i hret
      exact Path.free_after (call_path_keeping hinv hK ho (hk hret pc hf) _) hinv ho
        (fun h => h (.inr rfl)) (fun _ h hi => h (.inl hi)) (hK.not_found hf)
    · exact call_path hinv hK _

/-- The negative answers the library gives itself. -/
theorem request_path (hinv : TableInv dev) (hK : Spared K buffer callback dev) (c : Call) {answer : HciDev → HciDev}
    (ha : ∀ d, Path E (fun i => ¬ K i) d (answer d)) :
    Path E (fun i => ¬ K i) dev
      (if (callback.cb (dev.call c)).1 = true then (callback.cb (dev.call c)).2 else answer
          (callback.cb (dev.call c)).2) := by
  have hcall := call_path (E := E) hinv hK c
  split
  · exact hcall
  · exact hcall.trans (ha _)

theorem runHandler_path (hinv : TableInv dev) (hK : Spared K buffer callback dev) (e : EventHandler)
    (hk : e = .modeChangeEventCb ∨ e = .qosSetupCompleteEventCb → callback.ret = true →
      ∀ i, bteHciDevFindPendingCommand dev buffer = some i → ∀ c ∈ callback.calls, ¬ c.Releases (dev.pendingCommands i)) :
    Path E (fun i => ¬ K i) dev (runHandler dev callback.cb buffer e) := by
  have hnotify : ∀ c : Call, Path E (fun i => ¬ K i) dev (callback.cb (dev.call c)).2 := call_path hinv hK
  cases e with
  | inquiryCompleteEventCb => exact inquiryComplete_path hinv hK
  | connCompleteEventCb => exact completionEvent_path hinv hK true
  | authCompleteEventCb => exact completionEvent_path hinv hK true
  | remoteNameReqCompleteEventCb => exact completionEvent_path hinv hK false
  | readRemoteFeaturesCompleteEventCb => exact completionEvent_path hinv hK false
  | readRemoteVersionInfoCompleteEventCb => exact completionEvent_path hinv hK false
  | readClockOffsetCompleteEventCb => exact completionEvent_path hinv hK false
  | modeChangeEventCb => exact repeatedEvent_path hinv hK (hk (.inl rfl))
  | qosSetupCompleteEventCb =>
    simp only [runHandler]
    split
    · exact .refl
    · exact repeatedEvent_path hinv hK (hk (.inr rfl))
  | connectionRequestEventCb =>
    exact request_path hinv hK _ fun d => addCommand_path d none _ _ _ (.inr ⟨rfl, .inr ⟨_, rfl⟩⟩) _
  | linkKeyRequestEventCb =>
    exact request_path hinv hK _ fun d => addCommand_path d none _ _ _ (.inl rfl) _
  | pinCodeRequestEventCb =>
    exact request_path hinv hK _ fun d => addCommand_path d none _ _ _ (.inl rfl) _
  | inquiryResultCb => exact .single (keep_call ..)
  | returnLinkKeysCb => exact .single (keep_call ..)
  | disconnectionCompleteEventCb => exact hnotify _
  | nrOfCompletedPacketsEventCb => exact hnotify _
  | linkKeyNotificationEventCb => exact hnotify _
  | vendorEventCb => exact hnotify _

end Spared

/-- What the device records of a Command Complete before it is delivered. -/
def HciDev.noteComplete (dev : HciDev) (buffer : List UInt8) : HciDev :=
  let opcode := UInt16.ofNat (leVal (slice buffer 3 2))
  if opcode >>> 10 = 0x04 then
    handleInfoParam { dev with numPackets := buffer.getD 2 0 } (opcode &&& (0x03ff : UInt16)) (buffer.drop 5)
  else { dev with numPackets := buffer.getD 2 0 }

/-- The part of event delivery that comes before the handler table. -/
def HciDev.deliver (dev : HciDev) (client : ClientCb) (buffer : List UInt8) : HciDev :=
  if buffer.getD 0 0 = hciCommandComplete then
    if buffer.getD 1 0 < 3 then { dev with numPackets := buffer.getD 2 0 }
    else deliverReplyToClient (dev.noteComplete buffer) client buffer
  else if buffer.getD 0 0 = hciCommandStatus then
    deliverStatusToClient { dev with numPackets := buffer.getD 3 0 } client buffer
  else dev

theorem handleEvent_eq (dev : HciDev) (client : ClientCb) (buffer : List UInt8) :
    bteHciDevHandleEvent dev client buffer =
      match bteHciDevHandlerForEvent (dev.deliver client buffer) (buffer.getD 0 0) with
      | none => dev.deliver client buffer
      | some h => runHandler (dev.deliver client buffer) client buffer h := rfl

/-- The device's own records are not the table. -/
theorem noteComplete_frame (dev : HciDev) (buffer : List UInt8) :
    (dev.noteComplete buffer).pendingCommands = dev.pendingCommands ∧ (dev.noteComplete buffer).calls = dev.calls ∧
    (dev.noteComplete buffer).eventHandlers = dev.eventHandlers := by
  unfold HciDev.noteComplete handleInfoParam
  simp only
  split
  · split <;> exact ⟨rfl, rfl, rfl⟩
  · exact ⟨rfl, rfl, rfl⟩

theorem keep_noteComplete (dev : HciDev) (buffer : List UInt8) : Change E F dev (dev.noteComplete buffer) := by
  unfold HciDev.noteComplete handleInfoParam
  simp only
  split
  · split <;> exact .keep rfl rfl rfl rfl rfl
  · exact .keep rfl rfl rfl rfl rfl

theorem deliver_path {K : Fin 8 → Prop} {buffer : List UInt8} {callback : Callback} {dev : HciDev} (hinv : TableInv dev)
    (hK : Spared K buffer callback dev) (hk : (Op.event buffer callback).Keeps dev)
    (hE : (Op.event buffer callback).ReadsCode E dev) :
    Path E (fun i => ¬ K i) dev (dev.deliver callback.cb buffer) := by
  have hkeep : ∀ n, Change E (fun i => ¬ K i) dev { dev with numPackets := n } := fun _ => .keep rfl rfl rfl rfl rfl
  unfold HciDev.deliver
  split
  · split
    · exact .single (hkeep _)
    · have hnote := keep_noteComplete (E := E) (F := fun i => ¬ K i) dev buffer
      exact .head hnote (deliverReply_path (hnote.tableInv hinv) (hK.of_path hinv (.single hnote)))
  · split
    · have hk' := hkeep (buffer.getD 3 0)
      exact .head hk' (deliverStatus_path (hk'.tableInv hinv) hK hk hE)
    · exact .refl

/-- **An event is a path that leaves the slots out of its reach alone.** -/
theorem event_path {K : Fin 8 → Prop} {buffer : List UInt8} {callback : Callback} {dev : HciDev} (hinv : TableInv dev)
    (hK : Spared K buffer callback dev) (hk : (Op.event buffer callback).Keeps dev)
    (hE : (Op.event buffer callback).ReadsCode E dev) :
    Path E (fun i => ¬ K i) dev (bteHciDevHandleEvent dev callback.cb buffer) := by
  have hd := deliver_path hinv hK hk hE
  have hinv' := Path.tableInv hd hinv
  rw [handleEvent_eq]
  split
  · exact hd
  · rename_i e he
    refine hd.trans (runHandler_path hinv' (hK.of_path hinv hd) e ?_)
    -- a mode change or a QoS event is neither of the events delivered above
    intro hrep
    have hcode : buffer.getD 0 0 = hciModeChange ∨ buffer.getD 0 0 = hciQosSetupComplete := by
      have hh := hinv'.handlers _ e he
      obtain rfl | rfl := hrep
      · left; simpa [EventHandler.OfRead, EventHandler.eventCodes] using hh
      · right; simpa [EventHandler.OfRead, EventHandler.eventCodes] using hh
    have hsame : dev.deliver callback.cb buffer = dev := by
      unfold HciDev.deliver
      rw [if_neg, if_neg]
      · obtain h | h := hcode <;> rw [h] <;> decide
      · obtain h | h := hcode <;> rw [h] <;> decide
    rw [hsame] at he ⊢
    intro hret i hi
    refine hk i hi (.inr ⟨hret, ?_⟩)
    obtain rfl | rfl := hrep
    · exact .inl he
    · exact .inr he

theorem notifyInitialized_path {dev : HciDev} (hinv : TableInv dev) (callbacks : Fin 4 → Callback) (i : Fin 4) :
    Path E (fun _ => True) dev (notifyInitialized (fun i => (callbacks i).cb) dev i) := by
  have hnote : Change E (fun _ => True) dev { dev with notified := i + 1 } := .keep rfl rfl rfl rfl rfl
  unfold notifyInitialized
  simp only
  split
  · exact .single hnote
  · split
    · exact .single hnote
    · refine .head hnote (.head (keep_call ..) (Path.mono (fun _ _ => trivial)
        (calls_path (K := fun _ => False) (callbacks i).calls _ (tableInv_call (hnote.tableInv hinv) _) ?_ ?_)))
      · exact fun _ h => h.elim
      · exact fun _ h => h.elim

theorem setStatus_path {dev : HciDev} (hinv : TableInv dev) (callbacks : Fin 4 → Callback) (status : InitStatus) :
    Path E (fun _ => True) dev (bteHciDevSetStatus dev (fun i => (callbacks i).cb) status) := by
  have hset : Change E (fun _ => True) dev { dev with initStatus := status } := .keep rfl rfl rfl rfl rfl
  have hloop : ∀ (l : List (Fin 4)) (d : HciDev), TableInv d →
      Path E (fun _ => True) d (l.foldl (notifyInitialized fun i => (callbacks i).cb) d) := by
    intro l
    induction l with
    | nil => exact fun _ _ => .refl
    | cons i l ih =>
      intro d hd
      have hi := notifyInitialized_path (E := E) hd callbacks i
      exact hi.trans (ih _ (Path.tableInv hi hd))
  unfold bteHciDevSetStatus
  simp only
  split
  · exact .head hset (hloop _ _ (hset.tableInv hinv))
  · exact .single hset

/-- **Every operation is a path of elementary changes.** -/
theorem step_path {dev : HciDev} (hinv : TableInv dev) (o : Op) (hk : o.Keeps dev) (hE : o.ReadsCode E dev) :
    Path E (fun _ => True) dev (dev.step o) := by
  cases o with
  | api c => exact Path.mono (fun _ _ => trivial) (apply_path dev c)
  | event buffer callback =>
    exact Path.mono (fun _ _ => trivial)
      (event_path (K := fun _ => False) hinv (fun _ h => h.elim) hk hE)
  | setStatus status callbacks => exact setStatus_path hinv callbacks status

theorem readsCode_true (dev : HciDev) (o : Op) : o.ReadsCode (fun _ => True) dev := by
  cases o with
  | api => trivial
  | setStatus => trivial
  | event => exact fun _ _ _ _ => trivial

end Bte
