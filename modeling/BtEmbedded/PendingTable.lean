import BtEmbedded.HciApi
import Mathlib.Data.Fintype.Basic
import Mathlib.Data.Fintype.Card
import Mathlib.Logic.Relation
/-!
# PendingTable — what an operation can do to the pending-command table

Every call and every event is a sequence of a few elementary changes (`Change`): a slot is allocated and filled, an
occupied slot is freed, a client's `last_async_cmd_data` is stored, an event handler is installed.  What each of them
preserves (`TableInv`: the counter counts the occupied slots, so an allocation never lands on one) is proved once.
-/
namespace Bte

open Relation (ReflTransGen)

/-! ## Elementary changes -/

/-- Where the matchers of the library look: event code, offset and length of the second rule.  `E` holds of the event
codes a connection read may wait for. -/
inductive Layout (E : UInt8 → Prop) : UInt8 → UInt8 → Nat → Prop where
  | complete : Layout E hciCommandComplete 3 2
  | status : Layout E hciCommandStatus 4 2
  | connection : Layout E hciConnectionComplete 5 6
  | remoteName : Layout E hciRemoteNameReqComplete 3 6
  | modeChange : Layout E hciModeChange 3 2
  | qosSetup : Layout E hciQosSetupComplete 3 2
  | readConnection (code : UInt8) (h : E code) : Layout E code 3 2

/-- The matchers the library builds. -/
def Built (E : UInt8 → Prop) (m : DataMatcher) : Prop :=
  m = eventMatcher hciInquiryComplete ∨
  ∃ code offset data, Layout E code offset data.length ∧ m = eventDataMatcher code data offset

/-- The event codes a handler is installed for; those of the connection reads come with their command. -/
def EventHandler.eventCodes : EventHandler → List UInt8
  | .inquiryResultCb => [hciInquiryResult, 0x22]
  | .inquiryCompleteEventCb => [hciInquiryComplete]
  | .connCompleteEventCb => [hciConnectionComplete]
  | .connectionRequestEventCb => [hciConnectionRequest]
  | .disconnectionCompleteEventCb => [hciDisconnectionComplete]
  | .remoteNameReqCompleteEventCb => [hciRemoteNameReqComplete]
  | .qosSetupCompleteEventCb => [hciQosSetupComplete]
  | .nrOfCompletedPacketsEventCb => [hciNbrOfCompletedPackets]
  | .modeChangeEventCb => [hciModeChange]
  | .returnLinkKeysCb => [hciReturnLinkKeys]
  | .pinCodeRequestEventCb => [hciPinCodeRequest]
  | .linkKeyRequestEventCb => [hciLinkKeyRequest]
  | .linkKeyNotificationEventCb => [hciLinkKeyNotification]
  | .vendorEventCb => [hciVendorSpecificEvent]
  | .authCompleteEventCb => []
  | .readRemoteFeaturesCompleteEventCb => []
  | .readRemoteVersionInfoCompleteEventCb => []
  | .readClockOffsetCompleteEventCb => []

/-- The handlers of the connection reads. -/
def EventHandler.OfRead (h : EventHandler) : Prop := h.eventCodes = []

/-- A slot that waits for a Command Status is filled with a status function of the library, or none. -/
def FillsStatus (m : DataMatcher) (f : PendingCommand → PendingCommand) : Prop :=
  ∀ opcode : List UInt8, opcode.length = 2 → m = commandMatcher hciCommandStatus opcode →
    ∀ pc, (f pc).commandCb.word0 = .null ∨ ∃ fn, (f pc).commandCb.word0 = .status fn

/-- Allocate a slot and fill it. -/
def HciDev.allocWith (dev : HciDev) (m : DataMatcher) (f : PendingCommand → PendingCommand) : HciDev :=
  match bteHciDevAllocCommand dev m with
  | (none, dev) => dev
  | (some i, dev) => dev.setSlot i (f (dev.pendingCommands i))

/-- One elementary change; `F` holds of the slots that may be freed. -/
inductive Change (E : UInt8 → Prop) (F : Fin 8 → Prop) : HciDev → HciDev → Prop where
  | keep {dev dev' : HciDev} (hs : dev'.pendingCommands = dev.pendingCommands)
      (hn : dev'.numPendingCommands = dev.numPendingCommands) (hr : dev'.requests = dev.requests)
      (hh : dev'.eventHandlers = dev.eventHandlers) (ha : dev'.lastAsyncCmdData = dev.lastAsyncCmdData) :
      Change E F dev dev'
  | alloc (dev : HciDev) (m : DataMatcher) (f : PendingCommand → PendingCommand) (hm : Built E m)
      (hf : ∀ pc, (f pc).matcher = pc.matcher) (hs : FillsStatus m f) : Change E F dev (dev.allocWith m f)
  | free (dev : HciDev) (i : Fin 8) (ho : dev.Occupied i) (hF : F i) : Change E F dev (bteHciDevFreeCommand dev i)
  | store (dev : HciDev) (h : Hci) (d : AsyncCmdData)
      (hd : d.handlerCb = none ∨ d.handlerCb = (dev.lastAsyncCmdData h).handlerCb ∨
        ∃ e, d.handlerCb = some e ∧ e.OfRead) :
      Change E F dev (dev.setAsyncCmdData h d)
  | install (dev : HciDev) (code : UInt8) (h : EventHandler) (hc : code ∈ h.eventCodes) :
      Change E F dev (bteHciDevInstallEventHandler dev code (some h))
  | installRead (dev : HciDev) (hci : Option Hci) (hE : E (dev.asyncCmdData hci).eventCode) :
      Change E F dev
        (bteHciDevInstallEventHandler dev (dev.asyncCmdData hci).eventCode (dev.asyncCmdData hci).handlerCb)

/-- A sequence of elementary changes. -/
abbrev Path (E : UInt8 → Prop) (F : Fin 8 → Prop) : HciDev → HciDev → Prop := ReflTransGen (Change E F)

/-! ## The matchers -/

section Matchers

open DataMatcher

theorem eventMatcher_spec (code : UInt8) :
    (eventMatcher code).Wf ∧ (eventMatcher code).skip (eventMatcher code).numRules.toNat 0 = 3 ∧
    (eventMatcher code).rules = [⟨0, [code]⟩] := by
  have h := addRule_of_fits (m := bteDataMatcherInit .zero) (by decide) [code] 0
    (by simp only [List.length_cons, List.length_nil]; decide)
  exact ⟨h.2.1, h.2.2.1, h.2.2.2⟩

theorem eventDataMatcher_spec (code offset : UInt8) (data : List UInt8) (hd : data.length ≤ 11) :
    (eventDataMatcher code data offset).Wf ∧ (eventDataMatcher code data offset).rules = [⟨0, [code]⟩, ⟨offset, data⟩] := by
  obtain ⟨hw, hskip, hrules⟩ := eventMatcher_spec code
  have h := addRule_of_fits hw data offset (by rw [hskip]; unfold dataMatcherMaxLen; omega)
  rw [hrules] at h
  exact ⟨h.2.1, h.2.2.2⟩

theorem commandMatcher_complete (opcode : List UInt8) :
    commandMatcher hciCommandComplete opcode = eventDataMatcher hciCommandComplete opcode hciCmdReplyPosOpcode := rfl

theorem commandMatcher_status (opcode : List UInt8) :
    commandMatcher hciCommandStatus opcode = eventDataMatcher hciCommandStatus opcode hciCmdStatusPosOpcode := rfl

theorem Layout.length_le {E : UInt8 → Prop} {code offset : UInt8} {n : Nat} (h : Layout E code offset n) : n ≤ 11 := by
  cases h <;> omega

theorem Built.wf {E : UInt8 → Prop} {m : DataMatcher} (h : Built E m) : m.Wf := by
  obtain rfl | ⟨code, offset, data, hl, rfl⟩ := h
  · exact (eventMatcher_spec _).1
  · exact (eventDataMatcher_spec _ _ _ hl.length_le).1

theorem isEmpty_eq_false_of_rules {m : DataMatcher} (h : m.rules ≠ []) : bteDataMatcherIsEmpty m = false := by
  simp only [bteDataMatcherIsEmpty, beq_eq_false_iff_ne, ne_eq]
  intro h0
  exact h (by simp [rules, h0, rulesFrom])

theorem Built.not_empty {E : UInt8 → Prop} {m : DataMatcher} (h : Built E m) : bteDataMatcherIsEmpty m = false := by
  apply isEmpty_eq_false_of_rules
  obtain rfl | ⟨code, offset, data, hl, rfl⟩ := h
  · rw [(eventMatcher_spec _).2.2]; simp
  · rw [(eventDataMatcher_spec _ _ _ hl.length_le).2]; simp

end Matchers

/-! ## Slots under the elementary operations -/

@[simp] theorem call_pendingCommands (dev : HciDev) (c : Call) : (dev.call c).pendingCommands = dev.pendingCommands := rfl

@[simp] theorem logRequest_pendingCommands (dev : HciDev) (m : DataMatcher) (a : Option (Fin 8)) :
    (dev.logRequest m a).pendingCommands = dev.pendingCommands := rfl

@[simp] theorem free_pendingCommands (dev : HciDev) (i : Fin 8) :
    (bteHciDevFreeCommand dev i).pendingCommands = Function.update dev.pendingCommands i
      { dev.pendingCommands i with matcher := bteDataMatcherInit (dev.pendingCommands i).matcher } := rfl

theorem free_lastAsyncCmdData (dev : HciDev) (i : Fin 8) :
    (bteHciDevFreeCommand dev i).lastAsyncCmdData = dev.lastAsyncCmdData := rfl

theorem free_stores (dev : HciDev) (i : Fin 8) : (bteHciDevFreeCommand dev i).stores = dev.stores := rfl

theorem free_eventHandlers (dev : HciDev) (i : Fin 8) :
    (bteHciDevFreeCommand dev i).eventHandlers = dev.eventHandlers := rfl

@[simp] theorem install_pendingCommands (dev : HciDev) (code : UInt8) (h : Option EventHandler) :
    (bteHciDevInstallEventHandler dev code h).pendingCommands = dev.pendingCommands := by
  unfold bteHciDevInstallEventHandler; split <;> rfl

@[simp] theorem install_numPendingCommands (dev : HciDev) (code : UInt8) (h : Option EventHandler) :
    (bteHciDevInstallEventHandler dev code h).numPendingCommands = dev.numPendingCommands := by
  unfold bteHciDevInstallEventHandler; split <;> rfl

@[simp] theorem install_requests (dev : HciDev) (code : UInt8) (h : Option EventHandler) :
    (bteHciDevInstallEventHandler dev code h).requests = dev.requests := by
  unfold bteHciDevInstallEventHandler; split <;> rfl

@[simp] theorem install_lastAsyncCmdData (dev : HciDev) (code : UInt8) (h : Option EventHandler) :
    (bteHciDevInstallEventHandler dev code h).lastAsyncCmdData = dev.lastAsyncCmdData := by
  unfold bteHciDevInstallEventHandler; split <;> rfl

theorem init_isEmpty (m : DataMatcher) : bteDataMatcherIsEmpty (bteDataMatcherInit m) = true := rfl

theorem not_occupied_free (dev : HciDev) (i : Fin 8) : ¬ (bteHciDevFreeCommand dev i).Occupied i := by
  simp [HciDev.Occupied, init_isEmpty]

/-- What an allocation does, by its answer. -/
theorem allocWith_eq (dev : HciDev) (m : DataMatcher) (f : PendingCommand → PendingCommand) :
    dev.allocWith m f = match dev.allocSlot m with
      | none => dev.logRequest m none
      | some i => { (dev.logRequest m (some i)).setSlot i (f { dev.pendingCommands i with matcher := m }) with
          numPendingCommands := dev.numPendingCommands + 1 } := by
  unfold HciDev.allocWith bteHciDevAllocCommand
  cases dev.allocSlot m with
  | none => rfl
  | some i => simp [HciDev.setSlot, HciDev.logRequest]

theorem allocScan_free {dev : HciDev} {m : DataMatcher} {i : Fin 8} :
    ∀ {l : List (Fin 8)}, dev.allocScan m l = some i → ¬ dev.Occupied i
  | [], h => by cases h
  | j :: l, h => by
    unfold HciDev.allocScan at h
    split at h
    · rename_i he
      cases h
      simp [HciDev.Occupied, he]
    · split at h
      · cases h
      · exact allocScan_free h

/-! ## The invariant -/

/-- The occupied slots. -/
def HciDev.occupied (dev : HciDev) : Finset (Fin 8) := Finset.univ.filter dev.Occupied

@[simp] theorem mem_occupied {dev : HciDev} {i : Fin 8} : i ∈ dev.occupied ↔ dev.Occupied i := by simp [HciDev.occupied]

/-- The counter counts; `handler_cb` fields come from connection reads; a handler that keeps its slot during the
callback serves its own event only. -/
structure TableInv (dev : HciDev) : Prop where
  counted : dev.numPendingCommands.toNat = dev.occupied.card
  stored : ∀ h e, (dev.lastAsyncCmdData h).handlerCb = some e → e.OfRead
  handlers : ∀ code e, bteHciDevHandlerForEvent dev code = some e → e.OfRead ∨ code ∈ e.eventCodes ∨
    (code = 0 ∧ e = .vendorEventCb)

theorem tableInv_init : TableInv HciDev.init where
  counted := by decide
  stored := by intro h e he; cases he
  handlers := by
    intro code e he
    simp [bteHciDevHandlerForEvent, HciDev.init] at he

/-- **An allocation lands on a free slot.** -/
theorem allocSlot_free {dev : HciDev} (hinv : TableInv dev) {m : DataMatcher} {i : Fin 8}
    (h : dev.allocSlot m = some i) : ¬ dev.Occupied i := by
  unfold HciDev.allocSlot at h
  split at h
  · rename_i h0
    have hc := hinv.counted
    rw [h0] at hc
    have hempty : dev.occupied = ∅ := Finset.card_eq_zero.1 hc.symm
    rw [← mem_occupied, hempty]
    exact Finset.notMem_empty i
  · split at h
    · exact allocScan_free h
    · cases h

theorem occupied_card_le (dev : HciDev) : dev.occupied.card ≤ 8 := by
  simpa using Finset.card_le_card (Finset.subset_univ dev.occupied)

theorem occupied_of_slots {dev dev' : HciDev} (h : dev'.pendingCommands = dev.pendingCommands) :
    dev'.occupied = dev.occupied := by
  ext i
  simp [HciDev.Occupied, h]

theorem occupied_fill {dev dev' : HciDev} {i : Fin 8} {pc : PendingCommand}
    (h : dev'.pendingCommands = Function.update dev.pendingCommands i pc) (hpc : bteDataMatcherIsEmpty pc.matcher = false) :
    dev'.occupied = insert i dev.occupied := by
  ext j
  by_cases hj : j = i
  · subst hj; simp [HciDev.Occupied, h, hpc]
  · simp [HciDev.Occupied, h, hj]

theorem occupied_free (dev : HciDev) (i : Fin 8) : (bteHciDevFreeCommand dev i).occupied = dev.occupied.erase i := by
  ext j
  by_cases hj : j = i
  · subst hj; simp [HciDev.Occupied, init_isEmpty]
  · simp [HciDev.Occupied, hj]

theorem counted_alloc {dev : HciDev} (hinv : TableInv dev) {m : DataMatcher} (hm : bteDataMatcherIsEmpty m = false)
    {f : PendingCommand → PendingCommand} (hf : ∀ pc, (f pc).matcher = pc.matcher) :
    (dev.allocWith m f).numPendingCommands.toNat = (dev.allocWith m f).occupied.card := by
  rw [allocWith_eq]
  cases hs : dev.allocSlot m with
  | none => exact hinv.counted
  | some i =>
    have hfree := allocSlot_free hinv hs
    have hle := occupied_card_le dev
    have hc := hinv.counted
    have hocc : ∀ d : HciDev, d.pendingCommands = Function.update dev.pendingCommands i
        (f { dev.pendingCommands i with matcher := m }) → d.occupied = insert i dev.occupied :=
      fun d hd => occupied_fill hd (by rw [hf]; exact hm)
    rw [hocc _ rfl, Finset.card_insert_of_notMem (by simpa using hfree)]
    show (dev.numPendingCommands + 1).toNat = _
    rw [UInt16.toNat_add, hc]
    simp only [UInt16.reduceToNat]
    omega

theorem counted_free {dev : HciDev} (hinv : TableInv dev) {i : Fin 8} (ho : dev.Occupied i) :
    (bteHciDevFreeCommand dev i).numPendingCommands.toNat = (bteHciDevFreeCommand dev i).occupied.card := by
  have hmem : i ∈ dev.occupied := mem_occupied.2 ho
  have hpos := Finset.card_pos.2 ⟨i, hmem⟩
  have hle := occupied_card_le dev
  have hc := hinv.counted
  rw [occupied_free, Finset.card_erase_of_mem hmem]
  show (dev.numPendingCommands - 1).toNat = _
  rw [UInt16.toNat_sub_of_le _ _ (by rw [UInt16.le_iff_toNat_le, hc]; simpa using hpos), hc]
  rfl

theorem handlerForEvent_install {dev : HciDev} {code : UInt8} {h : Option EventHandler} {code' : UInt8} {e : EventHandler}
    (he : bteHciDevHandlerForEvent (bteHciDevInstallEventHandler dev code h) code' = some e) :
    bteHciDevHandlerForEvent dev code' = some e ∨ (handlerIndex code' = handlerIndex code ∧ h = some e) := by
  unfold bteHciDevInstallEventHandler at he
  split at he
  · exact .inl he
  · rename_i k hk
    unfold bteHciDevHandlerForEvent at he ⊢
    cases hk' : handlerIndex code' with
    | none => rw [hk'] at he; cases he
    | some k' =>
      rw [hk'] at he
      by_cases hkk : k' = k
      · subst hkk
        right
        exact ⟨hk.symm, by simpa using he⟩
      · left
        simpa [hkk] using he

theorem eq_of_handlerIndex {a k : UInt8} (h : handlerIndex a = some k) : a = k ∨ (a = hciVendorSpecificEvent ∧ k = 0) := by
  unfold handlerIndex at h
  by_cases ha : a = hciVendorSpecificEvent
  · right
    simp only [ha, if_true] at h
    split at h
    · cases h
    · exact ⟨ha, by simpa using h.symm⟩
  · left
    simp only [ha, if_false] at h
    split at h
    · cases h
    · simpa using h

/-- The codes a handler serves, the vendor event's index 0 included, are closed under sharing an index. -/
theorem mem_eventCodes_of_handlerIndex {e : EventHandler} {a b : UInt8} (h : handlerIndex a = handlerIndex b)
    (hb : b ∈ e.eventCodes) : a ∈ e.eventCodes ∨ (a = 0 ∧ e = .vendorEventCb) := by
  have hall : e.eventCodes.all (fun c => decide
      ((handlerIndex c = some c ∧ c ≠ 0) ∨ (handlerIndex c = some 0 ∧ e = .vendorEventCb))) = true := by
    cases e <;> decide
  rcases of_decide_eq_true (List.all_eq_true.1 hall b hb) with ⟨hk, h0⟩ | ⟨hk, rfl⟩
  · rw [hk] at h
    obtain rfl | ⟨_, h0'⟩ := eq_of_handlerIndex h
    · exact .inl hb
    · exact absurd h0' h0
  · rw [hk] at h
    obtain rfl | ⟨rfl, _⟩ := eq_of_handlerIndex h
    · exact .inr ⟨rfl, rfl⟩
    · exact .inl (by decide)

/-- **Every elementary change keeps the invariant.** -/
theorem Change.tableInv {E : UInt8 → Prop} {F : Fin 8 → Prop} {dev dev' : HciDev} (h : Change E F dev dev')
    (hinv : TableInv dev) : TableInv dev' := by
  cases h with
  | keep hs hn hr hh ha =>
    refine ⟨by rw [hn, occupied_of_slots hs]; exact hinv.counted, by rw [ha]; exact hinv.stored, ?_⟩
    intro code e he
    rw [bteHciDevHandlerForEvent, hh] at he
    exact hinv.handlers code e he
  | alloc m f hm hf hst =>
    have hc := counted_alloc hinv hm.not_empty hf
    refine ⟨hc, ?_, ?_⟩
    all_goals
      rw [allocWith_eq]
      cases dev.allocSlot m with
      | none => first | exact hinv.stored | exact hinv.handlers
      | some i => first | exact hinv.stored | exact hinv.handlers
  | free i ho hF => exact ⟨counted_free hinv ho, hinv.stored, hinv.handlers⟩
  | store h d hd =>
    refine ⟨hinv.counted, ?_, hinv.handlers⟩
    intro h' e he
    by_cases hh : h' = h
    · subst hh
      simp only [HciDev.setAsyncCmdData, Function.update_self] at he
      obtain hd | hd | ⟨e', hd, hr⟩ := hd
      · rw [hd] at he
        cases he
      · exact hinv.stored h' e (by rw [← hd]; exact he)
      · rw [hd] at he
        cases he
        exact hr
    · simp only [HciDev.setAsyncCmdData, Function.update_of_ne hh] at he
      exact hinv.stored h' e he
  | install code h hc =>
    refine ⟨by rw [install_numPendingCommands, occupied_of_slots (install_pendingCommands ..)]; exact hinv.counted,
      by rw [install_lastAsyncCmdData]; exact hinv.stored, ?_⟩
    intro code' e he
    obtain he | ⟨hidx, he⟩ := handlerForEvent_install he
    · exact hinv.handlers code' e he
    · cases he
      exact .inr (mem_eventCodes_of_handlerIndex hidx hc)
  | installRead hci hE =>
    refine ⟨by rw [install_numPendingCommands, occupied_of_slots (install_pendingCommands ..)]; exact hinv.counted,
      by rw [install_lastAsyncCmdData]; exact hinv.stored, ?_⟩
    intro code' e he
    obtain he | ⟨_, he⟩ := handlerForEvent_install he
    · exact hinv.handlers code' e he
    · left
      cases hci with
      | none => cases he
      | some h => exact hinv.stored h e he

theorem Path.tableInv {E : UInt8 → Prop} {F : Fin 8 → Prop} {dev dev' : HciDev} (h : Path E F dev dev')
    (hinv : TableInv dev) : TableInv dev' := by
  induction h with
  | refl => exact hinv
  | tail _ hc ih => exact hc.tableInv ih

/-! ## What a path leaves alone -/

/-- An occupied slot that may not be freed keeps its contents. -/
theorem Change.slot_eq {E : UInt8 → Prop} {F : Fin 8 → Prop} {dev dev' : HciDev} (h : Change E F dev dev')
    (hinv : TableInv dev) {i : Fin 8} (ho : dev.Occupied i) (hF : ¬ F i) :
    dev'.pendingCommands i = dev.pendingCommands i := by
  cases h with
  | keep hs _ _ _ _ => rw [hs]
  | alloc m f hm hf hst =>
    rw [allocWith_eq]
    cases hs : dev.allocSlot m with
    | none => rfl
    | some j =>
      have hne : i ≠ j := by
        rintro rfl
        exact allocSlot_free hinv hs ho
      simp [HciDev.setSlot, hne]
  | free j _ hFj =>
    have hne : i ≠ j := by
      rintro rfl
      exact hF hFj
    simp [hne]
  | store => rfl
  | install => rw [install_pendingCommands]
  | installRead => rw [install_pendingCommands]

theorem Path.slot_eq {E : UInt8 → Prop} {F : Fin 8 → Prop} {dev dev' : HciDev} (h : Path E F dev dev')
    (hinv : TableInv dev) {i : Fin 8} (ho : dev.Occupied i) (hF : ¬ F i) :
    dev'.pendingCommands i = dev.pendingCommands i := by
  induction h with
  | refl => rfl
  | tail hp hc ih =>
    rw [← ih]
    exact hc.slot_eq (Path.tableInv hp hinv) (by rw [HciDev.Occupied, ih]; exact ho) hF

theorem Path.mono {E : UInt8 → Prop} {F F' : Fin 8 → Prop} (hF : ∀ i, F i → F' i) {dev dev' : HciDev}
    (h : Path E F dev dev') : Path E F' dev dev' := by
  refine Relation.ReflTransGen.mono (fun a b hab => ?_) _ _ h
  cases hab with
  | keep hs hn hr hh ha => exact .keep hs hn hr hh ha
  | alloc m f hm hf hst => exact .alloc _ m f hm hf hst
  | free i ho hFi => exact .free _ i ho (hF i hFi)
  | store h d hd => exact .store _ h d hd
  | install code h hc => exact .install _ code h hc
  | installRead hci hE => exact .installRead _ hci hE

/-- Free a slot after a path that has left it alone. -/
theorem Path.free_after {E : UInt8 → Prop} {F F' : Fin 8 → Prop} {dev dev' : HciDev} (h : Path E F dev dev')
    (hinv : TableInv dev) {i : Fin 8} (ho : dev.Occupied i) (hF : ¬ F i) (hsub : ∀ j, F j → F' j) (hi : F' i) :
    Path E F' dev (bteHciDevFreeCommand dev' i) := by
  have hs := Path.slot_eq h hinv ho hF
  exact (Path.mono hsub h).tail (.free _ i (by rw [HciDev.Occupied, hs]; exact ho) hi)

end Bte
