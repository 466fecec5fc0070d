import BtEmbedded.PendingUnique
/-!
# ReplyRouting — each event goes to the slot that waits for it

Commands and listeners share one first-match table.  Every matcher the library builds fixes the event code and then
looks at one place that this code determines (`Layout`), so two different matchers never accept the same event, and the
first match is the only one.  This needs that a connection read still finds its own event code when its Command Status
arrives: `last_async_cmd_data` is a union, and the address of a later connection command overwrites that code
(`connectionRead_overwritten`).
-/
namespace Bte

open Bytes DataMatcher

/-- The events the connection reads wait for. -/
def ReadCode (code : UInt8) : Prop :=
  code = hciAuthComplete ∨ code = hciReadRemoteFeaturesComplete ∨ code = hciReadRemoteVersionComplete ∨
    code = hciReadClockOffsetComplete

instance : DecidablePred ReadCode := fun _ => inferInstanceAs (Decidable (_ ∨ _))

/-! ## At most one match -/

/-- The event code determines where the second rule looks. -/
theorem Layout.functional {code o o' : UInt8} {n n' : Nat} (h : Layout ReadCode code o n) (h' : Layout ReadCode code o' n') :
    o = o' ∧ n = n' := by
  -- the codes that look elsewhere are not codes of a read
  cases h <;> cases h' <;> first
    | exact ⟨rfl, rfl⟩
    | (rename_i hr; exact absurd hr (by decide))

theorem Layout.code_ne {code o : UInt8} {n : Nat} (h : Layout ReadCode code o n) : code ≠ hciInquiryComplete := by
  cases h with
  | readConnection _ hr => obtain rfl | rfl | rfl | rfl := hr <;> decide
  | _ => decide

theorem code_of_matches {buffer : List UInt8} {code : UInt8} (h : (⟨0, [code]⟩ : Rule).Matches buffer) :
    buffer.getD 0 0 = code := by
  obtain ⟨hl, hs⟩ := h
  cases buffer with
  | nil => simp [slice] at hs
  | cons b bs => simpa [slice] using hs

/-- **Two matchers of the library that accept the same event are the same.** -/
theorem Built.isSame_of_compare {m m' : DataMatcher} (hm : Built ReadCode m) (hm' : Built ReadCode m') {buffer : List UInt8}
    (h : bteDataMatcherCompare m buffer = true) (h' : bteDataMatcherCompare m' buffer = true) :
    bteDataMatcherIsSame m m' = true := by
  rw [isSame_iff hm.wf hm'.wf]
  rw [compare_iff hm.wf] at h
  rw [compare_iff hm'.wf] at h'
  obtain rfl | ⟨code, o, data, hl, rfl⟩ := hm
  · obtain rfl | ⟨code', o', data', hl', rfl⟩ := hm'
    · rfl
    · rw [(eventMatcher_spec _).2.2] at h
      rw [(eventDataMatcher_spec _ _ _ hl'.length_le).2] at h'
      have hc := code_of_matches (h _ List.mem_cons_self)
      have hc' := code_of_matches (h' _ List.mem_cons_self)
      exact absurd (hc'.symm.trans hc) hl'.code_ne
  · obtain rfl | ⟨code', o', data', hl', rfl⟩ := hm'
    · rw [(eventDataMatcher_spec _ _ _ hl.length_le).2] at h
      rw [(eventMatcher_spec _).2.2] at h'
      have hc := code_of_matches (h _ List.mem_cons_self)
      have hc' := code_of_matches (h' _ List.mem_cons_self)
      exact absurd (hc.symm.trans hc') hl.code_ne
    · rw [(eventDataMatcher_spec _ _ _ hl.length_le).2] at h ⊢
      rw [(eventDataMatcher_spec _ _ _ hl'.length_le).2] at h' ⊢
      obtain rfl : code = code' :=
        (code_of_matches (h _ List.mem_cons_self)).symm.trans (code_of_matches (h' _ List.mem_cons_self))
      obtain ⟨rfl, hn⟩ := hl.functional hl'
      have hd := (h ⟨o, data⟩ (by simp)).2
      have hd' := (h' ⟨o, data'⟩ (by simp)).2
      simp only at hd hd'
      rw [hn] at hd
      rw [hd.symm.trans hd']

/-! ## The invariant -/

/-- Every occupied slot has a matcher of the library; one that waits for a Command Status has a status function or none;
the handlers of the reads serve their own events. -/
structure RoutingInv (dev : HciDev) : Prop where
  built : ∀ i, dev.Occupied i → Built ReadCode (dev.pendingCommands i).matcher
  status : ∀ i, dev.Occupied i → ∀ opcode : List UInt8, opcode.length = 2 →
    (dev.pendingCommands i).matcher = commandMatcher hciCommandStatus opcode →
    (dev.pendingCommands i).commandCb.word0 = .null ∨ ∃ fn, (dev.pendingCommands i).commandCb.word0 = .status fn
  reads : ∀ code e, bteHciDevHandlerForEvent dev code = some e → e.OfRead → ReadCode code

theorem routingInv_init : RoutingInv HciDev.init := by
  have hempty : ∀ i, ¬ HciDev.init.Occupied i := by decide
  refine ⟨fun i h => absurd h (hempty i), fun i h => absurd h (hempty i), ?_⟩
  intro code e he
  simp [bteHciDevHandlerForEvent, HciDev.init] at he

theorem RoutingInv.of_slots {dev dev' : HciDev} (hr : RoutingInv dev) (h : dev'.pendingCommands = dev.pendingCommands)
    (hh : ∀ code e, bteHciDevHandlerForEvent dev' code = some e → e.OfRead → ReadCode code) : RoutingInv dev' := by
  refine ⟨?_, ?_, hh⟩
  · intro i
    rw [HciDev.Occupied, h]
    exact hr.built i
  · intro i
    rw [HciDev.Occupied, h]
    exact hr.status i

theorem readCode_of_handlerIndex {a b : UInt8} (h : handlerIndex a = handlerIndex b) (hb : ReadCode b) : ReadCode a := by
  have hk : handlerIndex b = some b ∧ b ≠ 0 := by obtain rfl | rfl | rfl | rfl := hb <;> decide
  rw [hk.1] at h
  obtain rfl | ⟨_, h0⟩ := eq_of_handlerIndex h
  · exact hb
  · exact absurd h0 hk.2

theorem Change.routingInv {F : Fin 8 → Prop} {dev dev' : HciDev} (h : Change ReadCode F dev dev') (hr : RoutingInv dev) :
    RoutingInv dev' := by
  cases h with
  | keep hs _ _ hh _ =>
    refine hr.of_slots hs ?_
    intro code e
    rw [bteHciDevHandlerForEvent, hh]
    exact hr.reads code e
  | alloc m f hm hf hst =>
    rw [allocWith_eq]
    cases hs : dev.allocSlot m with
    | none => exact hr.of_slots rfl hr.reads
    | some i =>
      refine ⟨?_, ?_, hr.reads⟩
      · intro j hj
        by_cases hji : j = i
        · subst hji
          simpa [HciDev.setSlot, hf] using hm
        · simp only [HciDev.Occupied, HciDev.setSlot, logRequest_pendingCommands, Function.update_of_ne hji] at hj ⊢
          exact hr.built j hj
      · intro j hj opcode hl hmj
        by_cases hji : j = i
        · subst hji
          simp only [HciDev.setSlot, logRequest_pendingCommands, Function.update_self, hf] at hmj ⊢
          exact hst opcode hl hmj _
        · simp only [HciDev.Occupied, HciDev.setSlot, logRequest_pendingCommands, Function.update_of_ne hji] at hj hmj ⊢
          exact hr.status j hj opcode hl hmj
  | free i _ _ =>
    have hne : ∀ j, (bteHciDevFreeCommand dev i).Occupied j → j ≠ i := by
      rintro j hj rfl
      simp [HciDev.Occupied, init_isEmpty] at hj
    refine ⟨?_, ?_, hr.reads⟩
    · intro j hj
      have hji := hne j hj
      simp only [HciDev.Occupied, free_pendingCommands, Function.update_of_ne hji] at hj ⊢
      exact hr.built j hj
    · intro j hj
      have hji := hne j hj
      simp only [HciDev.Occupied, free_pendingCommands, Function.update_of_ne hji] at hj ⊢
      exact hr.status j hj
  | store h d _ => exact hr.of_slots rfl hr.reads
  | install code h hc =>
    refine hr.of_slots (install_pendingCommands ..) ?_
    intro code' e he hread
    obtain he | ⟨_, he⟩ := handlerForEvent_install he
    · exact hr.reads code' e he hread
    · cases he
      rw [EventHandler.OfRead] at hread
      rw [hread] at hc
      cases hc
  | installRead hci hE =>
    refine hr.of_slots (install_pendingCommands ..) ?_
    intro code' e he hread
    obtain he | ⟨hidx, _⟩ := handlerForEvent_install he
    · exact hr.reads code' e he hread
    · exact readCode_of_handlerIndex hidx hE

theorem Path.routingInv {F : Fin 8 → Prop} {dev dev' : HciDev} (h : Path ReadCode F dev dev') (hr : RoutingInv dev) :
    RoutingInv dev' := by
  induction h with
  | refl => exact hr
  | tail _ hc ih => exact hc.routingInv ih

/-- An operation that frees no slot twice and finds the read's own event code. -/
def Op.Routable (dev : HciDev) (o : Op) : Prop := o.Keeps dev ∧ o.ReadsCode ReadCode dev

instance (dev : HciDev) (o : Op) : Decidable (o.Routable dev) := inferInstanceAs (Decidable (_ ∧ _))

theorem routing_run (ops : List Op) (hok : Sys.Admissible HciDev.step (fun dev o => o.Routable dev) HciDev.init ops) :
    TableInv (Sys.run HciDev.step HciDev.init ops) ∧ RoutingInv (Sys.run HciDev.step HciDev.init ops) := by
  have hstep : ∀ (dev : HciDev) (o : Op), TableInv dev ∧ RoutingInv dev → o.Routable dev →
      TableInv (dev.step o) ∧ RoutingInv (dev.step o) := by
    intro dev o h hk
    have hp := step_path h.1 o hk.1 hk.2
    exact ⟨Path.tableInv hp h.1, Path.routingInv hp h.2⟩
  exact Sys.inv_run hstep ops HciDev.init ⟨tableInv_init, routingInv_init⟩ hok

/-- The first match is the only one. -/
theorem find_eq {dev : HciDev} (hr : RoutingInv dev) (hd : dev.Distinct) {buffer : List UInt8} {i : Fin 8}
    (ho : dev.Occupied i) (hc : bteDataMatcherCompare (dev.pendingCommands i).matcher buffer = true) :
    bteHciDevFindPendingCommand dev buffer = some i := by
  cases hf : bteHciDevFindPendingCommand dev buffer with
  | none =>
    have := List.find?_eq_none.1 hf i (List.mem_finRange i)
    simp only [Bool.and_eq_true, Bool.not_eq_true', hc, and_true] at this
    exact absurd ho this
  | some j =>
    obtain ⟨hoj, hcj⟩ := find_spec hf
    rw [hd j i hoj ho ((hr.built j hoj).isSame_of_compare (hr.built i ho) hcj hc)]

/-! ## Command Complete -/

/-- No handler is ever installed for the two reply events. -/
theorem no_reply_handler {dev : HciDev} (hinv : TableInv dev) (hr : RoutingInv dev) {code : UInt8}
    (hc : code = hciCommandComplete ∨ code = hciCommandStatus) : bteHciDevHandlerForEvent dev code = none := by
  cases he : bteHciDevHandlerForEvent dev code with
  | none => rfl
  | some e =>
    exfalso
    have hnot : ∀ e' : EventHandler, hciCommandComplete ∉ e'.eventCodes ∧ hciCommandStatus ∉ e'.eventCodes := by
      intro e'
      cases e' <;> decide
    obtain h | h | h := hinv.handlers code e he
    · have hread := hr.reads code e he h
      obtain rfl | rfl := hc
      · exact absurd hread (by decide)
      · exact absurd hread (by decide)
    · obtain rfl | rfl := hc
      · exact (hnot e).1 h
      · exact (hnot e).2 h
    · obtain rfl | rfl := hc <;> exact absurd h.1 (by decide)

/-- For the two reply events, delivery is all that happens. -/
theorem handleEvent_reply {dev : HciDev} (hinv : TableInv dev) (hr : RoutingInv dev) {buffer : List UInt8}
    {callback : Callback} (hok : (Op.event buffer callback).Routable dev)
    (hc : buffer.getD 0 0 = hciCommandComplete ∨ buffer.getD 0 0 = hciCommandStatus) :
    bteHciDevHandleEvent dev callback.cb buffer = dev.deliver callback.cb buffer := by
  have hp := deliver_path (K := fun _ => False) hinv (fun _ h => h.elim) hok.1 hok.2
  rw [handleEvent_eq, no_reply_handler (Path.tableInv hp hinv) (Path.routingInv hp hr) hc]

/-- **A Command Complete**: the slot is freed, its callback is called with what the command registered, and the rest is
what the client does. -/
theorem handleEvent_complete {dev : HciDev} (hinv : TableInv dev) (hr : RoutingInv dev) {buffer : List UInt8}
    {callback : Callback} (hok : (Op.event buffer callback).Routable dev) (hc : buffer.getD 0 0 = hciCommandComplete)
    (hlen : 3 ≤ buffer.getD 1 0) {i : Fin 8} (hf : bteHciDevFindPendingCommand dev buffer = some i) :
    ∃ d : HciDev, d.pendingCommands = (bteHciDevFreeCommand dev i).pendingCommands ∧
      d.calls = dev.calls ++ [.complete (dev.pendingCommands i).commandCb.word0 (dev.pendingCommands i).hci buffer
        (dev.pendingCommands i).commandCb.word1 (dev.pendingCommands i).userdata] ∧
      bteHciDevHandleEvent dev callback.cb buffer = (callback.cb d).2 := by
  rw [handleEvent_reply hinv hr hok (.inl hc)]
  unfold HciDev.deliver
  rw [if_pos hc]
  rw [if_neg (UInt8.not_lt.2 hlen)]
  obtain ⟨hslots, hcalls, _⟩ := noteComplete_frame dev buffer
  have hf' : bteHciDevFindPendingCommand (dev.noteComplete buffer) buffer = some i := by
    rw [← hf, bteHciDevFindPendingCommand, hslots]; rfl
  simp only [deliverReplyToClient, hf', hslots]
  refine ⟨_, ?_, ?_, rfl⟩
  · simp [hslots]
  · show (dev.noteComplete buffer).calls ++ _ = _
    rw [hcalls]

/-! ## Command Status -/

/-- What the library itself has done when it hands over to the client: the calls it made, slot `i` free, the other
occupied slots as they were and at most one free slot filled. -/
structure Routed (dev : HciDev) (i : Fin 8) (calls : List Call) (d : HciDev) : Prop where
  calls : d.calls = dev.calls ++ calls
  freed : ¬ d.Occupied i
  kept : ∀ j, j ≠ i → dev.Occupied j → d.pendingCommands j = dev.pendingCommands j
  filled : ∃ k, ∀ j, j ≠ i → j ≠ k → d.pendingCommands j = dev.pendingCommands j

/-- The slot is freed and nothing else happens. -/
theorem Routed.of_free {dev d : HciDev} {i : Fin 8} {calls : List Call} (hs : d.pendingCommands = dev.pendingCommands)
    (hc : d.calls = dev.calls ++ calls) : Routed dev i calls (bteHciDevFreeCommand d i) := by
  have hslot : ∀ j, j ≠ i → (bteHciDevFreeCommand d i).pendingCommands j = dev.pendingCommands j := by
    intro j hj
    simp [hj, hs]
  exact ⟨hc, not_occupied_free d i, fun j hj _ => hslot j hj, i, fun j hj _ => hslot j hj⟩

theorem Routed.call {dev d : HciDev} {i : Fin 8} {calls : List Call} (h : Routed dev i calls d) (c : Call) :
    Routed dev i (calls ++ [c]) (d.call c) :=
  ⟨by rw [← List.append_assoc, ← h.calls]; rfl, h.freed, h.kept, h.filled⟩

theorem foldl_install_slots : ∀ (handlers : List (UInt8 × Option EventHandler)) (dev : HciDev),
    (handlers.foldl (fun dev h => bteHciDevInstallEventHandler dev h.1 h.2) dev).pendingCommands = dev.pendingCommands ∧
    (handlers.foldl (fun dev h => bteHciDevInstallEventHandler dev h.1 h.2) dev).calls = dev.calls
  | [], _ => ⟨rfl, rfl⟩
  | h :: hs, dev => by
    have hc : (bteHciDevInstallEventHandler dev h.1 h.2).calls = dev.calls := by
      unfold bteHciDevInstallEventHandler; split <;> rfl
    obtain ⟨h1, h2⟩ := foldl_install_slots hs (bteHciDevInstallEventHandler dev h.1 h.2)
    exact ⟨h1.trans (install_pendingCommands ..), h2.trans hc⟩

/-- The command's slot makes place for its listener. -/
theorem Routed.of_listener {dev d : HciDev} {i : Fin 8} {calls : List Call} (hinv : TableInv d)
    (hs : d.pendingCommands = dev.pendingCommands) (hc : d.calls = dev.calls ++ calls) (hci : Option Hci) (m : DataMatcher)
    (clientCb : FnPtr) (handlers : List (UInt8 × Option EventHandler)) :
    Routed dev i calls (installListener d hci i m clientCb handlers) := by
  obtain ⟨f, hf⟩ : ∃ f : PendingCommand → PendingCommand, f = fun s => { s with
        hci := hci
        commandCb := { s.commandCb with word0 := clientCb }
        userdata := (d.pendingCommands i).userdata } := ⟨_, rfl⟩
  have hslots : ∃ k, (∀ j, j ≠ k → (d.allocWith m f).pendingCommands j = d.pendingCommands j) ∧
      (¬ d.Occupied k ∨ (d.allocWith m f).pendingCommands = d.pendingCommands) ∧
      (d.allocWith m f).calls = d.calls := by
    rw [allocWith_eq]
    cases hk : d.allocSlot m with
    | none => exact ⟨i, fun _ _ => rfl, .inr rfl, rfl⟩
    | some k => exact ⟨k, fun j hj => by simp [HciDev.setSlot, hj], .inl (allocSlot_free hinv hk), rfl⟩
  obtain ⟨k, hne, hfree, hcalls⟩ := hslots
  rw [installListener_eq, ← hf]
  simp only
  generalize hd' : (if d.allocSlot m = none then d.allocWith m f else
    handlers.foldl (fun dev h => bteHciDevInstallEventHandler dev h.1 h.2) (d.allocWith m f)) = d'
  have hsame : d'.pendingCommands = (d.allocWith m f).pendingCommands ∧ d'.calls = (d.allocWith m f).calls := by
    rw [← hd']
    split
    · exact ⟨rfl, rfl⟩
    · exact foldl_install_slots handlers _
  have hslot : ∀ j, j ≠ i → j ≠ k → (bteHciDevFreeCommand d' i).pendingCommands j = dev.pendingCommands j := by
    intro j hj hjk
    rw [free_pendingCommands, Function.update_of_ne hj, hsame.1, hne j hjk, hs]
  refine ⟨?_, not_occupied_free d' i, ?_, k, hslot⟩
  · rw [← hc, ← hcalls, ← hsame.2]; rfl
  · intro j hj ho
    by_cases hjk : j = k
    · subst hjk
      obtain hfree | heq := hfree
      · rw [HciDev.Occupied, ← hs] at ho
        exact absurd ho hfree
      · rw [free_pendingCommands, Function.update_of_ne hj, hsame.1, heq, hs]
    · exact hslot j hj hjk

/-- The call of the slot's status function, if it has one. -/
def PendingCommand.statusCalls (pc : PendingCommand) (status : UInt8) (i : Fin 8) : List Call :=
  if pc.commandCb.word0 = .null then [] else [.status pc.commandCb.word0 pc.hci status i]

/-- How a Command Status ends: the client's status callback is called last, or there is none, or the read failed and the
client is told so through its reply callback, before the slot is freed. -/
inductive StatusEnd (dev : HciDev) (callback : Callback) (status : UInt8) (i : Fin 8) : HciDev → Prop where
  | done (d : HciDev) (hcb : (dev.pendingCommands i).commandCb.word1 ≠ .null)
      (h : Routed dev i ((dev.pendingCommands i).statusCalls status i ++
        [.done (dev.pendingCommands i).commandCb.word1 (dev.pendingCommands i).hci status
          (dev.pendingCommands i).userdata]) d) : StatusEnd dev callback status i (callback.cb d).2
  | silent (d : HciDev) (hcb : (dev.pendingCommands i).commandCb.word1 = .null)
      (h : Routed dev i ((dev.pendingCommands i).statusCalls status i) d) : StatusEnd dev callback status i d
  | failed (d : HciDev) (fn : FnPtr) (hcb : (dev.pendingCommands i).commandCb.word1 = .null) (hst : status ≠ 0)
      (hs : d.pendingCommands = dev.pendingCommands)
      (hc : d.calls = dev.calls ++ ((dev.pendingCommands i).statusCalls status i ++
        [.failed fn (dev.pendingCommands i).hci status (dev.pendingCommands i).userdata])) :
      StatusEnd dev callback status i (bteHciDevFreeCommand (callback.cb d).2 i)

/-- The branch a failed read takes. -/
theorem failed_routed {dev d : HciDev} {i : Fin 8} {calls : List Call} (client : ClientCb)
    (hs : d.pendingCommands = dev.pendingCommands) (hc : d.calls = dev.calls ++ calls) (c : Call) (p : Prop) [Decidable p] :
    Routed dev i calls (bteHciDevFreeCommand (if p then (client (d.call c)).2 else d) i) ∧ ¬ p ∨
    p ∧ bteHciDevFreeCommand (if p then (client (d.call c)).2 else d) i = bteHciDevFreeCommand (client (d.call c)).2 i := by
  by_cases hp : p
  · right
    simp only [hp, if_true, and_self]
  · left
    simp only [hp, if_false, not_false_eq_true, and_true]
    exact Routed.of_free hs hc

/-- What a status function does, up to the client's own status callback. -/
theorem callStatus_routed {dev d : HciDev} (hinv : TableInv d) (client : ClientCb) (fn : StatusFn) (hci : Option Hci)
    (status : UInt8) {i : Fin 8} (hs : d.pendingCommands = dev.pendingCommands) (hc : d.calls = dev.calls) :
    Routed dev i [.status (.status fn) hci status i] (callStatus d client (.status fn) hci status i) ∨
    (status ≠ 0 ∧ (dev.pendingCommands i).commandCb.word1 = .null ∧ ∃ g d', d'.pendingCommands = dev.pendingCommands ∧
      d'.calls = dev.calls ++ ([.status (.status fn) hci status i] ++
        [.failed g hci status (dev.pendingCommands i).userdata]) ∧
      callStatus d client (.status fn) hci status i = bteHciDevFreeCommand (client d').2 i) := by
  have hinv' := tableInv_call hinv (.status (.status fn) hci status i)
  have hc' : (d.call (.status (.status fn) hci status i)).calls =
      dev.calls ++ [.status (.status fn) hci status i] := by rw [← hc]; rfl
  unfold callStatus
  simp only
  generalize hd' : d.call (.status (.status fn) hci status i) = d' at hinv' hc'
  have hs' : d'.pendingCommands = dev.pendingCommands := by rw [← hd']; exact hs
  have hfailed : ∀ g, status ≠ 0 → (d'.pendingCommands i).commandCb.word1 = .null →
      status ≠ 0 ∧ (dev.pendingCommands i).commandCb.word1 = .null ∧ ∃ g' d'', d''.pendingCommands = dev.pendingCommands ∧
        d''.calls = dev.calls ++ ([.status (.status fn) hci status i] ++
          [.failed g' hci status (dev.pendingCommands i).userdata]) ∧
        bteHciDevFreeCommand (client (d'.call (.failed g hci status (d'.pendingCommands i).userdata))).2 i =
          bteHciDevFreeCommand (client d'').2 i := by
    intro g hst hw
    refine ⟨hst, by rw [← hs']; exact hw, g, d'.call (.failed g hci status (d'.pendingCommands i).userdata), hs', ?_, rfl⟩
    rw [← List.append_assoc, ← hc', hs']; rfl
  cases fn with
  | commonReadConnectionStatusCb =>
    simp only [commonReadConnectionStatusCb]
    split
    · rename_i hst
      obtain ⟨hrouted, _⟩ | ⟨hp, heq⟩ := failed_routed (i := i) client hs' hc'
        (.failed (d'.asyncCmdData hci).clientCb hci status (d'.pendingCommands i).userdata)
        ((d'.pendingCommands i).commandCb.word1 = .null ∧ (d'.asyncCmdData hci).clientCb ≠ .null)
      · exact .inl hrouted
      · right
        rw [heq]
        exact hfailed _ hst hp.1
    · exact .inl (Routed.of_listener hinv' hs' hc' ..)
  | inquiryStatusCb =>
    left
    simp only [inquiryStatusCb]
    split
    · exact Routed.of_free hs' hc'
    · exact Routed.of_listener hinv' hs' hc' ..
  | createConnectionStatusCb =>
    left
    simp only [createConnectionStatusCb]
    split
    · exact Routed.of_free hs' hc'
    · exact Routed.of_listener hinv' hs' hc' ..
  | readRemoteNameStatusCb =>
    simp only [readRemoteNameStatusCb]
    split
    · rename_i hst
      obtain ⟨hrouted, _⟩ | ⟨hp, heq⟩ := failed_routed (i := i) client hs' hc'
        (.failed (d'.asyncCmdData hci).clientCb hci status (d'.pendingCommands i).userdata)
        ((d'.pendingCommands i).commandCb.word1 = .null)
      · exact .inl hrouted
      · right
        rw [heq]
        exact hfailed _ hst hp
    · exact .inl (Routed.of_listener hinv' hs' hc' ..)

theorem deliverStatus_routed {dev d : HciDev} (hinv : TableInv d) {buffer : List UInt8} {callback : Callback} {i : Fin 8}
    (hf : bteHciDevFindPendingCommand d buffer = some i) (hs : d.pendingCommands = dev.pendingCommands)
    (hc : d.calls = dev.calls)
    (hw : (dev.pendingCommands i).commandCb.word0 = .null ∨ ∃ fn, (dev.pendingCommands i).commandCb.word0 = .status fn) :
    StatusEnd dev callback (buffer.getD hciCmdStatusPosStatus 0) i (deliverStatusToClient d callback.cb buffer) := by
  simp only [deliverStatusToClient, hf, hs]
  -- once the slot is free, the client's status callback is all that remains
  have hend : ∀ d', Routed dev i ((dev.pendingCommands i).statusCalls (buffer.getD hciCmdStatusPosStatus 0) i) d' →
      StatusEnd dev callback (buffer.getD hciCmdStatusPosStatus 0) i
        (if (dev.pendingCommands i).commandCb.word1 = .null then d'
         else (callback.cb (d'.call (.done (dev.pendingCommands i).commandCb.word1 (dev.pendingCommands i).hci
          (buffer.getD hciCmdStatusPosStatus 0) (dev.pendingCommands i).userdata))).2) := by
    intro d' hrouted
    split
    · rename_i hcb
      exact .silent d' hcb hrouted
    · rename_i hcb
      exact .done _ hcb (hrouted.call _)
  obtain hw | ⟨fn, hw⟩ := hw
  · rw [if_pos hw]
    apply hend
    exact Routed.of_free hs (by simp [PendingCommand.statusCalls, hw, hc])
  · have hcalls : (dev.pendingCommands i).statusCalls (buffer.getD hciCmdStatusPosStatus 0) i =
        [.status (.status fn) (dev.pendingCommands i).hci (buffer.getD hciCmdStatusPosStatus 0) i] := by
      simp [PendingCommand.statusCalls, hw]
    rw [hw, if_neg (show ¬ FnPtr.status fn = .null by simp)]
    obtain hrouted | ⟨hst, hcb, g, d', hs', hc', heq⟩ := callStatus_routed (i := i) hinv callback.cb fn
        (dev.pendingCommands i).hci (buffer.getD hciCmdStatusPosStatus 0) hs hc
    · apply hend
      rw [hcalls]
      exact hrouted
    · rw [heq, if_pos hcb]
      exact .failed d' g hcb hst hs' (by rw [hcalls]; exact hc')

/-- A matcher that accepts a Command Status is one of an asynchronous command. -/
theorem Built.status_of_compare {m : DataMatcher} (hm : Built ReadCode m) {buffer : List UInt8}
    (h : bteDataMatcherCompare m buffer = true) (hc : buffer.getD 0 0 = hciCommandStatus) :
    ∃ opcode : List UInt8, opcode.length = 2 ∧ m = commandMatcher hciCommandStatus opcode := by
  rw [compare_iff hm.wf] at h
  obtain rfl | ⟨code, o, data, hl, rfl⟩ := hm
  · rw [(eventMatcher_spec _).2.2] at h
    have hcode := code_of_matches (h _ List.mem_cons_self)
    rw [hc] at hcode
    exact absurd hcode (by decide)
  · rw [(eventDataMatcher_spec _ _ _ hl.length_le).2] at h
    obtain rfl : hciCommandStatus = code := hc.symm.trans (code_of_matches (h _ List.mem_cons_self))
    obtain ⟨rfl, hn⟩ := hl.functional .status
    exact ⟨data, hn, rfl⟩

/-- **A Command Status** goes to the status function and the client callback its command registered. -/
theorem handleEvent_status {dev : HciDev} (hinv : TableInv dev) (hr : RoutingInv dev) {buffer : List UInt8}
    {callback : Callback} (hok : (Op.event buffer callback).Routable dev) (hc : buffer.getD 0 0 = hciCommandStatus)
    {i : Fin 8} (hf : bteHciDevFindPendingCommand dev buffer = some i) :
    StatusEnd dev callback (buffer.getD hciCmdStatusPosStatus 0) i (bteHciDevHandleEvent dev callback.cb buffer) := by
  obtain ⟨ho, hcmp⟩ := find_spec hf
  obtain ⟨opcode, hl, hm⟩ := (hr.built i ho).status_of_compare hcmp hc
  rw [handleEvent_reply hinv hr hok (.inr hc)]
  unfold HciDev.deliver
  rw [if_neg (by rw [hc]; decide), if_pos hc]
  have hkeep : Change ReadCode (fun _ => False) dev { dev with numPackets := buffer.getD 3 0 } :=
    .keep rfl rfl rfl rfl rfl
  exact deliverStatus_routed (hkeep.tableInv hinv) hf rfl rfl (hr.status i ho opcode hl hm)

/-! ## Events nobody waits for, and submissions -/

/-- How an event that matches no slot ends: with no change of the table, or with what the client does, or with the
library's own refusal of a request no client has handled. -/
inductive StrayEnd (dev : HciDev) (callback : Callback) (code : UInt8) : HciDev → Prop where
  | silent (d : HciDev) (hs : d.pendingCommands = dev.pendingCommands) : StrayEnd dev callback code d
  | client (d : HciDev) (hs : d.pendingCommands = dev.pendingCommands) : StrayEnd dev callback code (callback.cb d).2
  | refusal (d : HciDev) (hs : d.pendingCommands = dev.pendingCommands) (hret : callback.ret = false)
      (hcode : code = hciConnectionRequest ∨ code = hciLinkKeyRequest ∨ code = hciPinCodeRequest)
      (ocf : UInt16) (ogf len ev : UInt8) (cb : CommandCb) :
      StrayEnd dev callback code (bteHciDevAddCommand (callback.cb d).2 none ocf ogf len ev cb 0).2

theorem runHandler_stray {dev d : HciDev} (hs : d.pendingCommands = dev.pendingCommands) {buffer : List UInt8}
    {callback : Callback} (hf : bteHciDevFindPendingCommand d buffer = none) {code : UInt8} (e : EventHandler)
    (he : e.OfRead ∨ code ∈ e.eventCodes ∨ (code = 0 ∧ e = .vendorEventCb)) :
    StrayEnd dev callback code (runHandler d callback.cb buffer e) := by
  have hcode : ∀ k, e.eventCodes = [k] → e ≠ .vendorEventCb → code = k := by
    intro k hk hv
    obtain h | h | h := he
    · rw [EventHandler.OfRead, hk] at h; cases h
    · rw [hk] at h; exact List.mem_singleton.1 h
    · exact absurd h.2 hv
  -- a request that a client has not handled is refused with a command of the library
  have hrefuse : ∀ (c : Call) (ocf : UInt16) (ogf len ev : UInt8) (cb : CommandCb),
      (code = hciConnectionRequest ∨ code = hciLinkKeyRequest ∨ code = hciPinCodeRequest) →
      StrayEnd dev callback code (if (callback.cb (d.call c)).1 = true then (callback.cb (d.call c)).2
        else (bteHciDevAddCommand (callback.cb (d.call c)).2 none ocf ogf len ev cb 0).2) := by
    intro c ocf ogf len ev cb hk
    split
    · exact .client (d.call c) hs
    · rename_i hret
      exact .refusal (d.call c) hs (Bool.eq_false_of_not_eq_true hret) hk ocf ogf len ev cb
  cases e with
  | inquiryCompleteEventCb =>
    simp only [runHandler, inquiryCompleteEventCb, hf]
    exact .client _ hs
  | connectionRequestEventCb => exact hrefuse _ _ _ _ _ _ (.inl (hcode _ rfl (by decide)))
  | linkKeyRequestEventCb => exact hrefuse _ _ _ _ _ _ (.inr (.inl (hcode _ rfl (by decide))))
  | pinCodeRequestEventCb => exact hrefuse _ _ _ _ _ _ (.inr (.inr (hcode _ rfl (by decide))))
  | modeChangeEventCb =>
    simp only [runHandler, repeatedEvent, hf]
    exact .silent d hs
  | qosSetupCompleteEventCb =>
    simp only [runHandler, repeatedEvent, hf, ite_self]
    exact .silent d hs
  | connCompleteEventCb | authCompleteEventCb | remoteNameReqCompleteEventCb | readRemoteFeaturesCompleteEventCb
  | readRemoteVersionInfoCompleteEventCb | readClockOffsetCompleteEventCb =>
    simp only [runHandler, completionEvent, hf]
    exact .silent d hs
  | inquiryResultCb | returnLinkKeysCb => exact .silent _ hs
  | disconnectionCompleteEventCb | nrOfCompletedPacketsEventCb | linkKeyNotificationEventCb | vendorEventCb =>
    exact .client (d.call _) hs

theorem find_of_slots {dev d : HciDev} (hs : d.pendingCommands = dev.pendingCommands) (buffer : List UInt8) :
    bteHciDevFindPendingCommand d buffer = bteHciDevFindPendingCommand dev buffer := by
  rw [bteHciDevFindPendingCommand, hs]; rfl

/-- **An event that matches no slot changes no occupied slot.** -/
theorem handleEvent_stray {dev : HciDev} (hinv : TableInv dev) {buffer : List UInt8} {callback : Callback}
    (hf : bteHciDevFindPendingCommand dev buffer = none) :
    StrayEnd dev callback (buffer.getD 0 0) (bteHciDevHandleEvent dev callback.cb buffer) := by
  have hd : (dev.deliver callback.cb buffer).pendingCommands = dev.pendingCommands ∧
      (dev.deliver callback.cb buffer).eventHandlers = dev.eventHandlers := by
    obtain ⟨hslots, _, hh⟩ := noteComplete_frame dev buffer
    unfold HciDev.deliver
    split
    · split
      · exact ⟨rfl, rfl⟩
      · unfold deliverReplyToClient
        rw [find_of_slots hslots, hf]
        exact ⟨hslots, hh⟩
    · split
      · unfold deliverStatusToClient
        rw [show bteHciDevFindPendingCommand { dev with numPackets := buffer.getD 3 0 } buffer = none from hf]
        exact ⟨rfl, rfl⟩
      · exact ⟨rfl, rfl⟩
  rw [handleEvent_eq]
  split
  · exact .silent _ hd.1
  · rename_i e he
    rw [bteHciDevHandlerForEvent, hd.2] at he
    exact runHandler_stray hd.1 (by rw [find_of_slots hd.1, hf]) e (hinv.handlers _ e he)

/-- A submitted command gets a free slot, which then holds what it registered. -/
theorem addCommand_registers {dev : HciDev} (hinv : TableInv dev) {hci : Option Hci} {ocf : UInt16} {ogf len ev : UInt8}
    {cb : CommandCb} {u : Ptr} (h : (bteHciDevAddCommand dev hci ocf ogf len ev cb u).1 ≠ none) :
    ∃ i, ¬ dev.Occupied i ∧ (bteHciDevAddCommand dev hci ocf ogf len ev cb u).2.pendingCommands =
      Function.update dev.pendingCommands i ⟨commandMatcher ev (opcodeLe ocf ogf), hci, u, cb⟩ := by
  have hop : (hciCommandAlloc ocf ogf len).take 2 = opcodeLe ocf ogf := by simp [hciCommandAlloc, opcodeLe]
  cases hs : dev.allocSlot (commandMatcher ev (opcodeLe ocf ogf)) with
  | none => exact absurd (addCommand_refused hs).1 h
  | some i =>
    refine ⟨i, allocSlot_free hinv hs, ?_⟩
    simp only [addCommand_snd, hop, hs, allocWith_eq]
    rfl

/-- The matcher of a command accepts exactly the replies that carry its opcode. -/
theorem commandMatcher_compare (ev : UInt8) (hev : ev = hciCommandComplete ∨ ev = hciCommandStatus) (ocf : UInt16)
    (ogf : UInt8) (buffer : List UInt8) :
    bteDataMatcherCompare (commandMatcher ev (opcodeLe ocf ogf)) buffer = true ↔
      (⟨0, [ev]⟩ : Rule).Matches buffer ∧
      (⟨if ev = hciCommandComplete then 3 else 4, opcodeLe ocf ogf⟩ : Rule).Matches buffer := by
  have hl : (opcodeLe ocf ogf).length = 2 := by simp [opcodeLe]
  rw [compare_iff (built_command (E := ReadCode) hev hl).wf, commandMatcher_rules hev hl]
  simp [hciCmdReplyPosOpcode, hciCmdStatusPosOpcode]

/-! ## Routing in every run -/

/-- A state some run of routable operations reaches. -/
def HciDev.Reached (dev : HciDev) : Prop :=
  ∃ ops, Sys.Admissible HciDev.step (fun dev o => o.Routable dev) HciDev.init ops ∧ Sys.run HciDev.step HciDev.init ops = dev

/-- **Reply routing.**  In every reached state whose pending matchers are distinct: at most one slot matches an event;
a Command Complete and a Command Status go to what their command registered; an event leaves every other occupied slot
alone; one that matches no slot changes none of the occupied ones; and a command gets a free slot that matches exactly
the replies with its opcode. -/
theorem reply_routing {dev : HciDev} (hreach : dev.Reached) (hd : dev.Distinct) :
    (∀ buffer i j, dev.Occupied i → dev.Occupied j →
      bteDataMatcherCompare (dev.pendingCommands i).matcher buffer = true →
      bteDataMatcherCompare (dev.pendingCommands j).matcher buffer = true → i = j) ∧
    (∀ buffer callback i, (Op.event buffer callback).Routable dev → buffer.getD 0 0 = hciCommandComplete →
      3 ≤ buffer.getD 1 0 → dev.Occupied i → bteDataMatcherCompare (dev.pendingCommands i).matcher buffer = true →
      ∃ d : HciDev, d.pendingCommands = (bteHciDevFreeCommand dev i).pendingCommands ∧
        d.calls = dev.calls ++ [.complete (dev.pendingCommands i).commandCb.word0 (dev.pendingCommands i).hci buffer
          (dev.pendingCommands i).commandCb.word1 (dev.pendingCommands i).userdata] ∧
        dev.step (.event buffer callback) = (callback.cb d).2) ∧
    (∀ buffer callback i, (Op.event buffer callback).Routable dev → buffer.getD 0 0 = hciCommandStatus →
      dev.Occupied i → bteDataMatcherCompare (dev.pendingCommands i).matcher buffer = true →
      StatusEnd dev callback (buffer.getD hciCmdStatusPosStatus 0) i (dev.step (.event buffer callback))) ∧
    (∀ buffer callback j, (Op.event buffer callback).Routable dev → dev.Occupied j →
      bteDataMatcherCompare (dev.pendingCommands j).matcher buffer = false →
      (∀ c ∈ callback.calls, ¬ c.Releases (dev.pendingCommands j)) →
      (dev.step (.event buffer callback)).pendingCommands j = dev.pendingCommands j) ∧
    (∀ buffer callback, (∀ i, dev.Occupied i → bteDataMatcherCompare (dev.pendingCommands i).matcher buffer = false) →
      StrayEnd dev callback (buffer.getD 0 0) (dev.step (.event buffer callback))) ∧
    (∀ hci ocf ogf len ev cb u, ev = hciCommandComplete ∨ ev = hciCommandStatus →
      (bteHciDevAddCommand dev hci ocf ogf len ev cb u).1 ≠ none →
      ∃ i m, ¬ dev.Occupied i ∧ (bteHciDevAddCommand dev hci ocf ogf len ev cb u).2.pendingCommands =
          Function.update dev.pendingCommands i ⟨m, hci, u, cb⟩ ∧
        ∀ buffer, bteDataMatcherCompare m buffer = true ↔ (⟨0, [ev]⟩ : Rule).Matches buffer ∧
          (⟨if ev = hciCommandComplete then 3 else 4, opcodeLe ocf ogf⟩ : Rule).Matches buffer) := by
  obtain ⟨ops, hok, rfl⟩ := hreach
  obtain ⟨hinv, hr⟩ := routing_run ops hok
  generalize Sys.run HciDev.step HciDev.init ops = dev at hd hinv hr
  refine ⟨?_, ?_, ?_, ?_, ?_, ?_⟩
  · intro buffer i j hi hj hci hcj
    exact hd i j hi hj ((hr.built i hi).isSame_of_compare (hr.built j hj) hci hcj)
  · intro buffer callback i hrt hc hlen ho hcmp
    exact handleEvent_complete hinv hr hrt hc hlen (find_eq hr hd ho hcmp)
  · intro buffer callback i hrt hc ho hcmp
    exact handleEvent_status hinv hr hrt hc (find_eq hr hd ho hcmp)
  · intro buffer callback j hrt ho hcmp hrel
    have hp := event_path (E := ReadCode) (K := fun i => i = j) hinv
      (by rintro i rfl; exact ⟨ho, hcmp, hrel⟩) hrt.1 hrt.2
    exact Path.slot_eq hp hinv ho (fun h => h rfl)
  · intro buffer callback hnone
    apply handleEvent_stray hinv
    apply List.find?_eq_none.2
    intro i _ hi
    simp only [Bool.and_eq_true, Bool.not_eq_true'] at hi
    rw [hnone i hi.1] at hi
    cases hi.2
  · intro hci ocf ogf len ev cb u hev h
    obtain ⟨i, hi, hslots⟩ := addCommand_registers hinv h
    exact ⟨i, _, hi, hslots, commandMatcher_compare ev hev ocf ogf⟩

/-- Two clients have a command pending each. -/
def pairRun : List Op :=
  [.api (.command 0 0x03 0x03 3 (.complete 0) (.client 1) 11),
      .api (.createConnection 1 ⟨1, 2, 3, 4, 5, 6⟩ .null (.client 2) 22)]

/-- At `pairRun` the reply to the first command goes to its client, and the other slot stays. -/
theorem reply_routing_pairRun :
    ∃ d : HciDev, ¬ d.Occupied 0 ∧ d.Occupied 1 ∧
      d.calls = [.complete (.complete 0) (some 0) [0x0E, 4, 1, 0x03, 0x0C, 0] (.client 1) 11] ∧
      (Sys.run HciDev.step HciDev.init pairRun).step (.event [0x0E, 4, 1, 0x03, 0x0C, 0] ⟨[], false⟩) = d := by
  have hreach : (Sys.run HciDev.step HciDev.init pairRun).Reached := ⟨pairRun, by decide, rfl⟩
  have h := reply_routing hreach (by decide)
  obtain ⟨d, hs, hc, he⟩ := h.2.1 [0x0E, 4, 1, 0x03, 0x0C, 0] ⟨[], false⟩ 0 (by decide) (by decide)
    (by decide) (by decide) (by decide)
  refine ⟨d, ?_, ?_, ?_, he⟩
  · rw [HciDev.Occupied, hs]; decide
  · rw [HciDev.Occupied, hs]; decide
  · rw [hc]; decide

/-- A clock offset is read, a connection is created before its Command Status arrives, and both succeed. -/
def overwriteRun : List Op :=
  [.api (.readClockOffset 0 1 .null (.client 1) 11), .api (.createConnection 0 ⟨1, 0, 3, 9, 9, 9⟩ .null (.client 2) 22),
   .event [0x0F, 4, 0, 1, 0x1F, 0x04] ⟨[], false⟩, .event [0x0F, 4, 0, 1, 0x05, 0x04] ⟨[], false⟩]

/-- A Connection Request that no client handles fills a slot with the library's refusal though it matches none; and the
address in the union turns the read's listener into one for Connection Complete, so that two slots match one event. -/
theorem connectionRead_overwritten :
    (bteHciDevFindPendingCommand (HciDev.step HciDev.init (.api (.register .connectionRequest)))
        [0x04, 10, 1, 2, 3, 4, 5, 6, 0, 0, 0, 1] = none ∧
      ((HciDev.step HciDev.init (.api (.register .connectionRequest))).step
        (.event [0x04, 10, 1, 2, 3, 4, 5, 6, 0, 0, 0, 1] ⟨[], false⟩)).Occupied 0) ∧
    ((Sys.run HciDev.step HciDev.init overwriteRun).Distinct ∧ ∃ i j : Fin 8, i ≠ j ∧
      (Sys.run HciDev.step HciDev.init overwriteRun).Occupied i ∧ (Sys.run HciDev.step HciDev.init overwriteRun).Occupied j ∧
      bteDataMatcherCompare ((Sys.run HciDev.step HciDev.init overwriteRun).pendingCommands i).matcher
        [0x03, 11, 0, 1, 0, 1, 0, 3, 9, 9, 9, 1, 0] = true ∧
      bteDataMatcherCompare ((Sys.run HciDev.step HciDev.init overwriteRun).pendingCommands j).matcher
        [0x03, 11, 0, 1, 0, 1, 0, 3, 9, 9, 9, 1, 0] = true) := by
  decide

end Bte
