import BtEmbedded.ReplyRouting
/-!
# SlotOwners — whose command a slot holds (hci_dev.c, hci.c)

Every slot of the pending-command table records the client that asked for it.  Only that client's own calls put one
there: a call of another client, an answer the library gives itself and an event that is not for this client's slot leave
the client with no slot it did not have before (`GivesNone`), and its slots as they are (`event_owned`).
-/
namespace Bte

/-- The slot is in use for the client. -/
def HciDev.Owns (dev : HciDev) (c : Hci) (i : Fin 8) : Prop := dev.Occupied i ∧ (dev.pendingCommands i).hci = some c

instance decidableOwns (dev : HciDev) (c : Hci) (i : Fin 8) : Decidable (dev.Owns c i) := inferInstanceAs (Decidable (_ ∧ _))

/-- No slot comes to be the client's. -/
def GivesNone (c : Hci) (dev dev' : HciDev) : Prop := ∀ i, dev'.Owns c i → dev.Owns c i

/-- The client a call is made for. -/
def ApiCall.hci : ApiCall → Option Hci
  | .register _ => none
  | .addClient h | .removeClient h | .command h .. | .plainAsync h .. | .authRequested h .. | .readRemoteFeatures h ..
  | .readRemoteVersionInfo h .. | .readClockOffset h .. | .inquiry h .. | .createConnection h .. | .acceptConnection h ..
  | .rejectConnection h .. | .readRemoteName h .. | .onModeChange h .. | .onQosSetupComplete h ..
  | .onInitialized h .. => some h

/-- The calls are of other clients. -/
def Foreign (c : Hci) (calls : List ApiCall) : Prop := ∀ a ∈ calls, a.hci ≠ some c

instance decidableForeign (c : Hci) (calls : List ApiCall) : Decidable (Foreign c calls) :=
    inferInstanceAs (Decidable (∀ _ ∈ _, _))

section
variable {c : Hci} {dev dev' dev'' : HciDev}

theorem GivesNone.refl (c : Hci) (dev : HciDev) : GivesNone c dev dev := fun _ h => h

theorem GivesNone.trans (h : GivesNone c dev dev') (h' : GivesNone c dev' dev'') : GivesNone c dev dev'' :=
  fun i hi => h i (h' i hi)

theorem owns_of_slots (hs : dev'.pendingCommands = dev.pendingCommands) {i : Fin 8} : dev'.Owns c i ↔ dev.Owns c i := by
  rw [HciDev.Owns, HciDev.Owns, HciDev.Occupied, HciDev.Occupied, hs]

theorem givesNone_of_slots (hs : dev'.pendingCommands = dev.pendingCommands) : GivesNone c dev dev' :=
  fun _ hi => (owns_of_slots hs).1 hi

/-! ## Elementary changes -/

theorem owns_free {i j : Fin 8} : (bteHciDevFreeCommand dev i).Owns c j ↔ j ≠ i ∧ dev.Owns c j := by
  by_cases hj : j = i
  · subst hj
    exact ⟨fun h => absurd h.1 (not_occupied_free dev j), fun h => absurd rfl h.1⟩
  · simp [HciDev.Owns, HciDev.Occupied, hj]

theorem givesNone_free (i : Fin 8) : GivesNone c dev (bteHciDevFreeCommand dev i) := fun _ hj => (owns_free.1 hj).2

theorem givesNone_allocWith (m : DataMatcher) {f : PendingCommand → PendingCommand} (hf : ∀ pc, (f pc).hci ≠ some c) :
    GivesNone c dev (dev.allocWith m f) := by
  rw [allocWith_eq]
  cases dev.allocSlot m with
  | none => exact givesNone_of_slots rfl
  | some i =>
    intro j hj
    by_cases hji : j = i
    · subst hji
      refine absurd ?_ (hf { dev.pendingCommands j with matcher := m })
      simpa [HciDev.setSlot] using hj.2
    · simpa [HciDev.Owns, HciDev.Occupied, HciDev.setSlot, hji] using hj

theorem givesNone_addCommand (dev : HciDev) {hci : Option Hci} (hh : hci ≠ some c) (ocf : UInt16) (ogf len ev : UInt8)
    (cb : CommandCb) (u : Ptr) : GivesNone c dev (bteHciDevAddCommand dev hci ocf ogf len ev cb u).2 := by
  rw [addCommand_snd]
  simp only
  split
  · exact givesNone_allocWith _ fun _ => hh
  · split <;> exact givesNone_of_slots rfl

theorem givesNone_storing {r : Option (List UInt8) × HciDev} (h : Hci) (f : AsyncCmdData → AsyncCmdData)
    (hr : GivesNone c dev r.2) : GivesNone c dev (HciDev.storing r h f) := by
  obtain ⟨_ | b, dev'⟩ := r
  · exact hr
  · exact hr.trans (givesNone_of_slots rfl)

theorem givesNone_handlers : ∀ (handlers : List (UInt8 × Option EventHandler)) (dev : HciDev),
    GivesNone c dev (handlers.foldl (fun dev h => bteHciDevInstallEventHandler dev h.1 h.2) dev)
  | [], dev => .refl c dev
  | h :: hs, dev => (givesNone_of_slots (install_pendingCommands dev h.1 h.2)).trans (givesNone_handlers hs _)

/-! ## Calls -/

theorem givesNone_dispose (h : Hci) : ∀ (l : List (Fin 8)) (dev : HciDev), GivesNone c dev (l.foldl (fun dev i =>
    if bteDataMatcherIsEmpty (dev.pendingCommands i).matcher = false ∧ (dev.pendingCommands i).hci = some h
    then bteHciDevFreeCommand dev i else dev) dev)
  | [], dev => .refl c dev
  | i :: l, dev => by
    rw [List.foldl_cons]
    split
    · exact (givesNone_free i).trans (givesNone_dispose h l _)
    · exact givesNone_dispose h l dev

theorem givesNone_removeClient (dev : HciDev) (h : Hci) : GivesNone c dev (bteHciDevRemoveClient dev h) := by
  have hd : GivesNone c dev (hciDevDispose dev h) := givesNone_dispose h (List.finRange 8) dev
  unfold bteHciDevRemoveClient
  generalize hciDevDispose dev h = d at hd
  simp only
  split
  · exact hd.trans (givesNone_of_slots rfl)
  · exact hd.trans (givesNone_of_slots rfl)

theorem givesNone_addClient (dev : HciDev) (h : Hci) : GivesNone c dev (bteHciDevAddClient dev h).2 := by
  unfold bteHciDevAddClient
  split <;> exact givesNone_of_slots rfl

theorem givesNone_onConnectionEvent {h : Hci} (hh : some h ≠ some c) (code : UInt8) (handler : EventHandler) (conn : UInt16)
    (callback : FnPtr) : GivesNone c dev (onConnectionEvent dev h code handler conn callback) := by
  unfold onConnectionEvent
  simp only
  split
  · split
    · split
      · exact givesNone_free _
      · exact .refl c dev
    · exact .refl c dev
  · have hset (pc : PendingCommand) :
        { pc with hci := some h, commandCb := { pc.commandCb with word0 := callback } }.hci ≠ some c := hh
    have halloc : GivesNone c dev _ := givesNone_allocWith
      (eventDataMatcher code [conn.toUInt8, (conn >>> 8).toUInt8] (hciCmdEventPosData + 1)) hset
    unfold HciDev.allocWith at halloc
    split
    · rename_i hd
      rwa [hd] at halloc
    · rename_i hd
      rw [hd] at halloc
      exact halloc.trans (givesNone_of_slots (install_pendingCommands ..))

/-- **A call of another client gives none.** -/
theorem givesNone_apply (dev : HciDev) {a : ApiCall} (ha : a.hci ≠ some c) : GivesNone c dev (a.apply dev) := by
  cases a with
  | addClient h => exact (givesNone_of_slots rfl).trans (givesNone_addClient _ h)
  | removeClient h => exact givesNone_removeClient dev h
  | register r => exact givesNone_of_slots (install_pendingCommands ..)
  | onModeChange h conn cb => exact givesNone_onConnectionEvent ha _ _ _ _
  | onQosSetupComplete h conn cb => exact givesNone_onConnectionEvent ha _ _ _ _
  | onInitialized h cb u =>
    simp only [ApiCall.apply, bteHciOnInitialized]
    split <;> exact givesNone_of_slots rfl
  | command | plainAsync => exact givesNone_addCommand dev ha _ _ _ _ _ _
  | _ => exact givesNone_storing _ _ (givesNone_addCommand dev ha _ _ _ _ _ _)

theorem givesNone_calls : ∀ (calls : List ApiCall) (dev : HciDev), Foreign c calls →
    GivesNone c dev (Sys.run ApiCall.apply dev calls)
  | [], dev, _ => .refl c dev
  | a :: calls, dev, h =>
    (givesNone_apply dev (h a List.mem_cons_self)).trans
      (givesNone_calls calls _ fun b hb => h b (List.mem_cons_of_mem a hb))

/-- A call to a client whose callback makes calls of other clients. -/
theorem givesNone_call {callback : Callback} (hf : Foreign c callback.calls) (call : Call) :
    GivesNone c dev (callback.cb (dev.call call)).2 :=
  (givesNone_of_slots rfl).trans (givesNone_calls callback.calls (dev.call call) hf)

/-! ## Events -/

theorem givesNone_installListener (dev : HciDev) {hci : Option Hci} (hh : hci ≠ some c) (pc : Fin 8) (m : DataMatcher)
    (clientCb : FnPtr) (handlers : List (UInt8 × Option EventHandler)) :
    GivesNone c dev (installListener dev hci pc m clientCb handlers) := by
  rw [installListener_eq]
  refine .trans ?_ (givesNone_free pc)
  split
  · exact givesNone_allocWith _ fun _ => hh
  · refine .trans ?_ (givesNone_handlers handlers _)
    exact givesNone_allocWith _ fun _ => hh

/-- The failure branch of a status callback. -/
theorem givesNone_failed {callback : Callback} (hf : Foreign c callback.calls) (call : Call) (pc : Fin 8) (p : Prop)
    [Decidable p] : GivesNone c dev (bteHciDevFreeCommand (if p then (callback.cb (dev.call call)).2 else dev) pc) := by
  refine .trans ?_ (givesNone_free pc)
  split
  · exact givesNone_call hf call
  · exact .refl c dev

theorem givesNone_callStatus {callback : Callback} (hf : Foreign c callback.calls) (fn : FnPtr) {hci : Option Hci}
    (hh : hci ≠ some c) (status : UInt8) (pc : Fin 8) : GivesNone c dev (callStatus dev callback.cb fn hci status pc) := by
  refine (givesNone_of_slots rfl : GivesNone c dev (dev.call (.status fn hci status pc))).trans ?_
  unfold callStatus
  simp only
  split
  · unfold commonReadConnectionStatusCb
    simp only
    split
    · exact givesNone_failed hf _ _ _
    · exact givesNone_installListener _ hh _ _ _ _
  · unfold inquiryStatusCb
    simp only
    split
    · exact givesNone_free _
    · exact givesNone_installListener _ hh _ _ _ _
  · unfold createConnectionStatusCb
    simp only
    split
    · exact givesNone_free _
    · exact givesNone_installListener _ hh _ _ _ _
  · unfold readRemoteNameStatusCb
    simp only
    split
    · exact givesNone_failed hf _ _ _
    · exact givesNone_installListener _ hh _ _ _ _
  · exact .refl c _

theorem givesNone_deliverStatus {callback : Callback} (hf : Foreign c callback.calls) {buffer : List UInt8}
    (hmiss : ∀ i, bteHciDevFindPendingCommand dev buffer = some i → ¬ dev.Owns c i) :
    GivesNone c dev (deliverStatusToClient dev callback.cb buffer) := by
  unfold deliverStatusToClient
  split
  · exact .refl c dev
  · rename_i pc hpc
    have hh : (dev.pendingCommands pc).hci ≠ some c := fun h => hmiss pc hpc ⟨(find_spec hpc).1, h⟩
    have hstatus : GivesNone c dev
        (if (dev.pendingCommands pc).commandCb.word0 = .null then bteHciDevFreeCommand dev pc
         else callStatus dev callback.cb (dev.pendingCommands pc).commandCb.word0 (dev.pendingCommands pc).hci
           (buffer.getD hciCmdStatusPosStatus 0) pc) := by
      split
      · exact givesNone_free pc
      · exact givesNone_callStatus hf _ hh _ pc
    simp only
    split
    · exact hstatus
    · exact hstatus.trans (givesNone_call hf _)

theorem givesNone_deliverReply {callback : Callback} (hf : Foreign c callback.calls) (buffer : List UInt8) :
    GivesNone c dev (deliverReplyToClient dev callback.cb buffer) := by
  unfold deliverReplyToClient
  split
  · exact .refl c dev
  · exact (givesNone_free _).trans (givesNone_call hf _)

theorem givesNone_completionEvent {callback : Callback} (hf : Foreign c callback.calls) (buffer : List UInt8)
    (checksNull : Bool) : GivesNone c dev (completionEvent dev callback.cb buffer checksNull) := by
  unfold completionEvent
  split
  · exact .refl c dev
  · simp only
    split
    · exact givesNone_free _
    · exact (givesNone_free _).trans (givesNone_call hf _)

theorem givesNone_repeatedEvent {callback : Callback} (hf : Foreign c callback.calls) (buffer : List UInt8) :
    GivesNone c dev (repeatedEvent dev callback.cb buffer) := by
  unfold repeatedEvent
  split
  · exact .refl c dev
  · simp only
    split
    · exact (givesNone_call hf _).trans (givesNone_free _)
    · exact givesNone_call hf _

/-- The answers the library gives in no client's name. -/
theorem givesNone_request {callback : Callback} (hf : Foreign c callback.calls) (call : Call) {answer : HciDev → HciDev}
    (ha : ∀ d, GivesNone c d (answer d)) : GivesNone c dev
      (if (callback.cb (dev.call call)).1 = true then (callback.cb (dev.call call)).2
       else answer (callback.cb (dev.call call)).2) := by
  have hcall : GivesNone c dev (callback.cb (dev.call call)).2 := givesNone_call hf call
  split
  · exact hcall
  · exact hcall.trans (ha _)

theorem givesNone_runHandler {callback : Callback} (hf : Foreign c callback.calls) (buffer : List UInt8)
    (e : EventHandler) : GivesNone c dev (runHandler dev callback.cb buffer e) := by
  have hnone : (none : Option Hci) ≠ some c := by simp
  cases e with
  | inquiryCompleteEventCb =>
    simp only [runHandler, inquiryCompleteEventCb]
    split
    · exact givesNone_call hf _
    · exact (givesNone_free _).trans (givesNone_call hf _)
  | modeChangeEventCb => exact givesNone_repeatedEvent hf buffer
  | qosSetupCompleteEventCb =>
    simp only [runHandler]
    split
    · exact .refl c dev
    · exact givesNone_repeatedEvent hf buffer
  | connectionRequestEventCb | linkKeyRequestEventCb | pinCodeRequestEventCb =>
    exact givesNone_request hf _ fun d => givesNone_addCommand d hnone _ _ _ _ _ _
  | inquiryResultCb | returnLinkKeysCb => exact givesNone_of_slots rfl
  | disconnectionCompleteEventCb | nrOfCompletedPacketsEventCb | linkKeyNotificationEventCb | vendorEventCb =>
    exact givesNone_call hf _
  | _ => exact givesNone_completionEvent hf buffer _

/-- The event does not find a slot of the client, or is too short to be delivered. -/
def Misses (c : Hci) (dev : HciDev) (buffer : List UInt8) : Prop :=
  ∀ i, bteHciDevFindPendingCommand dev buffer = some i → dev.Owns c i →
    buffer.getD 0 0 = hciCommandComplete ∧ buffer.getD 1 0 < 3

/-- **An event that is not for the client's slots gives it none.** -/
theorem givesNone_event {callback : Callback} (hf : Foreign c callback.calls) {buffer : List UInt8}
    (hmiss : Misses c dev buffer) : GivesNone c dev (bteHciDevHandleEvent dev callback.cb buffer) := by
  have hdeliver : GivesNone c dev (dev.deliver callback.cb buffer) := by
    unfold HciDev.deliver
    split
    · split
      · exact givesNone_of_slots rfl
      · exact (givesNone_of_slots (noteComplete_frame dev buffer).1).trans (givesNone_deliverReply hf buffer)
    · rename_i hcode
      split
      · exact (givesNone_of_slots rfl : GivesNone c dev { dev with numPackets := buffer.getD 3 0 }).trans
          (givesNone_deliverStatus hf fun i hi ho => hcode (hmiss i hi ho).1)
      · exact .refl c dev
  rw [handleEvent_eq]
  split
  · exact hdeliver
  · exact hdeliver.trans (givesNone_runHandler hf buffer _)

/-- The reports of `_bte_hci_dev_set_status`. -/
theorem givesNone_setStatus (dev : HciDev) {callbacks : Fin 4 → Callback} (hf : ∀ i, Foreign c (callbacks i).calls)
    (status : InitStatus) : GivesNone c dev (bteHciDevSetStatus dev (fun i => (callbacks i).cb) status) := by
  have hnotify : ∀ (d : HciDev) (i : Fin 4), GivesNone c d (notifyInitialized (fun i => (callbacks i).cb) d i) := by
    intro d i
    unfold notifyInitialized
    simp only
    split
    · exact givesNone_of_slots rfl
    · split
      · exact givesNone_of_slots rfl
      · exact (givesNone_of_slots rfl : GivesNone c d { d with notified := i + 1 }).trans (givesNone_call (hf i) _)
  have hloop : ∀ (l : List (Fin 4)) (d : HciDev),
      GivesNone c d (l.foldl (notifyInitialized fun i => (callbacks i).cb) d) := by
    intro l
    induction l with
    | nil => exact fun d => .refl c d
    | cons i l ih => exact fun d => (hnotify d i).trans (ih _)
  unfold bteHciDevSetStatus
  simp only
  split
  · exact (givesNone_of_slots rfl : GivesNone c dev { dev with initStatus := status }).trans (hloop _ _)
  · exact givesNone_of_slots rfl

/-! ## The client's slots stay as they are -/

/-- A call of another client does not release the client's slots. -/
theorem not_releases_of_foreign {a : ApiCall} (ha : a.hci ≠ some c) {pc : PendingCommand} (hpc : pc.hci = some c) :
    ¬ a.Releases pc := by
  intro h
  cases a with
  | removeClient h' => exact ha (h.symm.trans hpc)
  | onModeChange h' conn cb => exact ha (h.2.1.symm.trans hpc)
  | onQosSetupComplete h' conn cb => exact ha (h.2.1.symm.trans hpc)
  | _ => exact h

/-- **A foreign call leaves the client's slots as they are**, and gives it no other. -/
theorem apply_owned (hinv : TableInv dev) {a : ApiCall} (ha : a.hci ≠ some c) {i : Fin 8} :
    ((a.apply dev).Owns c i ↔ dev.Owns c i) ∧
      (dev.Owns c i → (a.apply dev).pendingCommands i = dev.pendingCommands i) := by
  have hsame : dev.Owns c i → (a.apply dev).pendingCommands i = dev.pendingCommands i := fun ho =>
    Path.slot_eq (apply_path (E := fun _ => True) dev a) hinv ho.1 (not_releases_of_foreign ha ho.2)
  refine ⟨⟨givesNone_apply dev ha i, fun ho => ?_⟩, hsame⟩
  rw [HciDev.Owns, HciDev.Occupied, hsame ho]
  exact ho

/-- A Command Complete frees the slot it is for and no other. -/
theorem complete_owned (hinv : TableInv dev) {callback : Callback} (hf : Foreign c callback.calls) {buffer : List UInt8}
    (hc : buffer.getD 0 0 = hciCommandComplete) (hmiss : Misses c dev buffer) {i : Fin 8} (ho : dev.Owns c i) :
    (dev.deliver callback.cb buffer).pendingCommands i = dev.pendingCommands i := by
  unfold HciDev.deliver
  rw [if_pos hc]
  split
  · rfl
  · rename_i hlong
    have hslots := (noteComplete_frame dev buffer).1
    have hnote := (keep_noteComplete (E := fun _ => True) (F := fun _ => True) dev buffer).tableInv hinv
    generalize dev.noteComplete buffer = d at hslots hnote
    have hfind : bteHciDevFindPendingCommand d buffer = bteHciDevFindPendingCommand dev buffer := by
      rw [bteHciDevFindPendingCommand, hslots]
      rfl
    have ho' : d.Owns c i := (owns_of_slots hslots).2 ho
    rw [← hslots]
    unfold deliverReplyToClient
    split
    · rfl
    · rename_i j hj
      have hji : i ≠ j := by
        rintro rfl
        exact hlong (hmiss i (hfind ▸ hj) ho).2
      have hfreed : (bteHciDevFreeCommand d j).Owns c i := owns_free.2 ⟨hji, ho'⟩
      have hinv' := (Change.free (E := fun _ => True) (F := fun _ => True) d j (find_spec hj).1 trivial).tableInv hnote
      have hcalls := calls_path (E := fun _ => True) (K := fun k => k = i) callback.calls
        ((bteHciDevFreeCommand d j).call (.complete (d.pendingCommands j).commandCb.word0 (d.pendingCommands j).hci buffer
          (d.pendingCommands j).commandCb.word1 (d.pendingCommands j).userdata)) (tableInv_call hinv' _)
        (by rintro k rfl; exact hfreed.1) (by rintro k rfl a ha; exact not_releases_of_foreign (hf a ha) hfreed.2)
      have hsame := Path.slot_eq hcalls (tableInv_call hinv' _) (i := i) hfreed.1 (not_not.2 rfl)
      refine hsame.trans ?_
      rw [call_pendingCommands, free_pendingCommands, Function.update_of_ne hji]

/-- **So does an event that is not for one of them.** -/
theorem event_owned (hinv : TableInv dev) (hr : RoutingInv dev) {callback : Callback} (hf : Foreign c callback.calls)
    {buffer : List UInt8} (hok : (Op.event buffer callback).Routable dev)
    (hmiss : Misses c dev buffer)
    (hcode : ∀ i, dev.Owns c i → buffer.getD 0 0 = hciCommandComplete ∨
      bteDataMatcherCompare (dev.pendingCommands i).matcher buffer = false) {i : Fin 8} :
    ((bteHciDevHandleEvent dev callback.cb buffer).Owns c i ↔ dev.Owns c i) ∧
      (dev.Owns c i → (bteHciDevHandleEvent dev callback.cb buffer).pendingCommands i = dev.pendingCommands i) := by
  have hsame : dev.Owns c i → (bteHciDevHandleEvent dev callback.cb buffer).pendingCommands i = dev.pendingCommands i := by
    intro ho
    by_cases hc : buffer.getD 0 0 = hciCommandComplete
    · rw [handleEvent_reply hinv hr hok (.inl hc)]
      exact complete_owned hinv hf hc hmiss ho
    · have hcompare := (hcode i ho).resolve_left hc
      have hspared : Spared (fun j => j = i) buffer callback dev := by
        rintro j rfl
        exact ⟨ho.1, hcompare, fun a ha => not_releases_of_foreign (hf a ha) ho.2⟩
      exact Path.slot_eq (event_path hinv hspared hok.1 hok.2) hinv ho.1 (not_not.2 rfl)
  refine ⟨⟨givesNone_event hf hmiss i, fun ho => ?_⟩, hsame⟩
  rw [HciDev.Owns, HciDev.Occupied, hsame ho]
  exact ho

end

end Bte
