import BtEmbedded.HciPaths
/-!
# PendingUnique — when no two pending commands share a matcher

`_bte_hci_dev_alloc_command` means to refuse a command that is already pending: its reply could not be told from the
other's.  Its search ends at the first free slot, so it refuses exactly the copies it has passed by then.  As long as
every request is made on a table where a copy has no hole before it (`Request.Seen`), the matchers stay distinct; a
hole in front of the copy lets it in twice (`pendingCommands_duplicate`).
-/
namespace Bte

/-! ## Requests -/

/-- An occupied slot already has this matcher. -/
def Request.Taken (r : Request) : Prop :=
  ∃ j, bteDataMatcherIsEmpty (r.slots j) = false ∧ bteDataMatcherIsSame r.matcher (r.slots j) = true

/-- No free slot comes before an occupied one with this matcher. -/
def Request.Seen (r : Request) : Prop :=
  ∀ j, bteDataMatcherIsEmpty (r.slots j) = false → bteDataMatcherIsSame r.matcher (r.slots j) = true →
    ∀ i < j, bteDataMatcherIsEmpty (r.slots i) = false

instance (r : Request) : Decidable r.Taken := inferInstanceAs (Decidable (∃ _ : Fin 8, _ ∧ _))
instance (r : Request) : Decidable r.Seen := inferInstanceAs (Decidable (∀ _ : Fin 8, _ = _ → _ = _ → ∀ i < _, _ = _))

/-- The request for `m` in this state. -/
def HciDev.request (dev : HciDev) (m : DataMatcher) : Request :=
  ⟨fun i => (dev.pendingCommands i).matcher, m, dev.allocSlot m⟩

/-- No two occupied slots hold the same matcher. -/
def HciDev.Distinct (dev : HciDev) : Prop :=
  ∀ i j, dev.Occupied i → dev.Occupied j →
    bteDataMatcherIsSame (dev.pendingCommands i).matcher (dev.pendingCommands j).matcher = true → i = j

instance (dev : HciDev) : Decidable dev.Distinct :=
  inferInstanceAs (Decidable (∀ i j : Fin 8, dev.Occupied i → dev.Occupied j → _ = _ → i = j))

/-! ## One request -/

/-- The search refuses a copy that no hole precedes. -/
theorem allocScan_none {dev : HciDev} {m : DataMatcher} {j : Fin 8} (ho : dev.Occupied j)
    (hs : bteDataMatcherIsSame m (dev.pendingCommands j).matcher = true) :
    ∀ l : List (Fin 8), l.Pairwise (· < ·) → j ∈ l → (∀ i ∈ l, i < j → dev.Occupied i) → dev.allocScan m l = none
  | [], _, hj, _ => by cases hj
  | i :: l, hp, hj, hb => by
    rw [List.pairwise_cons] at hp
    unfold HciDev.allocScan
    rcases List.mem_cons.1 hj with rfl | hjl
    · rw [if_neg (by rw [ho]; exact Bool.false_ne_true), if_pos hs]
    · have hoi : dev.Occupied i := hb i List.mem_cons_self (hp.1 j hjl)
      rw [if_neg (by rw [hoi]; exact Bool.false_ne_true)]
      split
      · rfl
      · exact allocScan_none ho hs l hp.2 hjl fun k hk => hb k (List.mem_cons_of_mem i hk)

/-- **A request for a matcher that is taken is refused, if the search can see the copy.** -/
theorem allocSlot_eq_none {dev : HciDev} (hinv : TableInv dev) {m : DataMatcher} (ht : (dev.request m).Taken)
    (hseen : (dev.request m).Seen) : dev.allocSlot m = none := by
  obtain ⟨j, ho, hs⟩ := ht
  have hn : dev.numPendingCommands ≠ 0 := by
    intro h0
    have hc := hinv.counted
    rw [h0] at hc
    have hempty : dev.occupied = ∅ := Finset.card_eq_zero.1 hc.symm
    have hmem : j ∈ dev.occupied := mem_occupied.2 ho
    rw [hempty] at hmem
    exact Finset.notMem_empty j hmem
  have hscan : dev.allocScan m (List.finRange 8) = none :=
    allocScan_none ho hs (List.finRange 8) (List.pairwise_lt_finRange 8) (List.mem_finRange j)
      fun i _ hi => hseen j ho hs i hi
  unfold HciDev.allocSlot
  rw [if_neg hn, hscan]
  split <;> rfl

/-! ## Runs -/

/-- While every request could see its copies, the matchers are distinct and the copies were refused. -/
structure UniqueInv (dev : HciDev) : Prop where
  distinct : (∀ r ∈ dev.requests, r.Seen) → dev.Distinct
  refused : ∀ r ∈ dev.requests, r.Seen → r.Taken → r.answer = none

theorem distinct_of_slots {dev dev' : HciDev} (h : dev'.pendingCommands = dev.pendingCommands) (hd : dev.Distinct) :
    dev'.Distinct := by
  intro i j hi hj hs
  rw [HciDev.Occupied, h] at hi hj
  rw [h] at hs
  exact hd i j hi hj hs

theorem UniqueInv.of_slots {dev dev' : HciDev} (hu : UniqueInv dev) (hs : dev'.pendingCommands = dev.pendingCommands)
    (hr : dev'.requests = dev.requests) : UniqueInv dev' where
  distinct := by
    rw [hr]
    exact fun h => distinct_of_slots hs (hu.distinct h)
  refused := by rw [hr]; exact hu.refused

theorem distinct_free {dev : HciDev} (i : Fin 8) (hd : dev.Distinct) : (bteHciDevFreeCommand dev i).Distinct := by
  have hne : ∀ j, (bteHciDevFreeCommand dev i).Occupied j → j ≠ i := by
    rintro j hj rfl
    simp [HciDev.Occupied, init_isEmpty] at hj
  intro j k hj hk hs
  have hj' := hne j hj
  have hk' := hne k hk
  simp only [HciDev.Occupied, free_pendingCommands, Function.update_of_ne hj', Function.update_of_ne hk'] at hj hk hs
  exact hd j k hj hk hs

/-- A granted request puts a matcher that no other slot has. -/
theorem distinct_alloc {dev : HciDev} (hinv : TableInv dev) (hd : dev.Distinct) {m : DataMatcher} {i : Fin 8}
    (hs : dev.allocSlot m = some i) (hseen : (dev.request m).Seen) {pc : PendingCommand} (hpc : pc.matcher = m)
    {dev' : HciDev} (h : dev'.pendingCommands = Function.update dev.pendingCommands i pc) : dev'.Distinct := by
  have hnew : ∀ j, j ≠ i → dev'.Occupied j → ¬ bteDataMatcherIsSame m (dev.pendingCommands j).matcher = true := by
    intro j hj ho hsame
    have ho' : dev.Occupied j := by simpa [HciDev.Occupied, h, hj] using ho
    rw [allocSlot_eq_none hinv ⟨j, ho', hsame⟩ hseen] at hs
    cases hs
  intro j k hj hk hsame
  by_cases hji : j = i
  · by_cases hki : k = i
    · rw [hji, hki]
    · refine absurd ?_ (hnew k hki hk)
      simpa [h, hji, hki, hpc] using hsame
  · by_cases hki : k = i
    · refine absurd ?_ (hnew j hji hj)
      rw [bteDataMatcherIsSame_comm]
      simpa [h, hji, hki, hpc] using hsame
    · simp only [HciDev.Occupied, h, Function.update_of_ne hji, Function.update_of_ne hki] at hj hk hsame
      exact hd j k hj hk hsame

theorem allocWith_requests (dev : HciDev) (m : DataMatcher) (f : PendingCommand → PendingCommand) :
    (dev.allocWith m f).requests = dev.requests ++ [dev.request m] := by
  rw [allocWith_eq]
  unfold HciDev.request
  cases hs : dev.allocSlot m <;> rfl

theorem Change.uniqueInv {E : UInt8 → Prop} {F : Fin 8 → Prop} {dev dev' : HciDev} (h : Change E F dev dev')
    (hinv : TableInv dev) (hu : UniqueInv dev) : UniqueInv dev' := by
  cases h with
  | keep hs _ hr _ _ => exact hu.of_slots hs hr
  | alloc m f hm hf _ =>
    refine ⟨?_, ?_⟩
    · intro hall
      rw [allocWith_requests] at hall
      have hd := hu.distinct fun r hr => hall r (List.mem_append_left _ hr)
      have hseen := hall (dev.request m) (List.mem_append_right _ List.mem_cons_self)
      rw [allocWith_eq]
      cases hs : dev.allocSlot m with
      | none => exact distinct_of_slots rfl hd
      | some i => exact distinct_alloc hinv hd hs hseen (hf { dev.pendingCommands i with matcher := m }) rfl
    · intro r hr hseen htaken
      rw [allocWith_requests] at hr
      rcases List.mem_append.1 hr with hr | hr
      · exact hu.refused r hr hseen htaken
      · rw [List.mem_singleton] at hr
        subst hr
        exact allocSlot_eq_none hinv htaken hseen
  | free i _ _ => exact ⟨fun hall => distinct_free i (hu.distinct hall), hu.refused⟩
  | store h d _ => exact hu.of_slots rfl rfl
  | install => exact hu.of_slots (install_pendingCommands ..) (install_requests ..)
  | installRead => exact hu.of_slots (install_pendingCommands ..) (install_requests ..)

theorem Path.uniqueInv {E : UInt8 → Prop} {F : Fin 8 → Prop} {dev dev' : HciDev} (h : Path E F dev dev')
    (hinv : TableInv dev) (hu : UniqueInv dev) : UniqueInv dev' := by
  induction h with
  | refl => exact hu
  | tail hp hc ih => exact hc.uniqueInv (Path.tableInv hp hinv) ih

theorem uniqueInv_step (dev : HciDev) (o : Op) (h : TableInv dev ∧ UniqueInv dev) (hk : o.Keeps dev) :
    TableInv (dev.step o) ∧ UniqueInv (dev.step o) := by
  have hp := step_path h.1 o hk (readsCode_true dev o)
  exact ⟨Path.tableInv hp h.1, Path.uniqueInv hp h.1 h.2⟩

theorem uniqueInv_run (ops : List Op) (hk : Sys.Admissible HciDev.step (fun dev o => o.Keeps dev) HciDev.init ops) :
    TableInv (Sys.run HciDev.step HciDev.init ops) ∧ UniqueInv (Sys.run HciDev.step HciDev.init ops) := by
  refine Sys.inv_run uniqueInv_step ops HciDev.init ⟨tableInv_init, ?_, ?_⟩ hk
  · intro _ i j hi
    exact absurd hi (by simp [HciDev.Occupied, HciDev.init]; rfl)
  · intro r hr
    cases hr

/-- A refused command: nothing is stored and the client, if it gave a callback, is told `MEMORY_FULL`. -/
theorem addCommand_refused {dev : HciDev} {hci : Option Hci} {ocf : UInt16} {ogf len ev : UInt8} {cb : CommandCb} {u : Ptr}
    (h : dev.allocSlot (commandMatcher ev (opcodeLe ocf ogf)) = none) :
    (bteHciDevAddCommand dev hci ocf ogf len ev cb u).1 = none ∧
    (bteHciDevAddCommand dev hci ocf ogf len ev cb u).2.pendingCommands = dev.pendingCommands ∧
    (bteHciDevAddCommand dev hci ocf ogf len ev cb u).2.calls = dev.calls ++
      if cb.word1 = .null then [] else [.done cb.word1 hci bteHciMemoryFull u] := by
  have hop : (hciCommandAlloc ocf ogf len).take 2 = opcodeLe ocf ogf := by simp [hciCommandAlloc, opcodeLe]
  simp only [bteHciDevAddCommand, bteHciDevAllocCommand, hop, h]
  split
  · simp [HciDev.logRequest]
  · simp [HciDev.logRequest, HciDev.call]

/-- **Distinct matchers in every run whose requests see their copies**, and the copies are refused: the allocation
returns nothing, the table is unchanged and the client gets `MEMORY_FULL`. -/
theorem pendingCommands_distinct (ops : List Op)
    (hk : Sys.Admissible HciDev.step (fun dev o => o.Keeps dev) HciDev.init ops)
    (hseen : ∀ r ∈ (Sys.run HciDev.step HciDev.init ops).requests, r.Seen) :
    (Sys.run HciDev.step HciDev.init ops).Distinct ∧
    (∀ r ∈ (Sys.run HciDev.step HciDev.init ops).requests, r.Taken → r.answer = none) ∧
    ∀ (hci : Option Hci) (ocf : UInt16) (ogf len ev : UInt8) (cb : CommandCb) (u : Ptr),
      ((Sys.run HciDev.step HciDev.init ops).request (commandMatcher ev (opcodeLe ocf ogf))).Seen →
      ((Sys.run HciDev.step HciDev.init ops).request (commandMatcher ev (opcodeLe ocf ogf))).Taken →
      (bteHciDevAddCommand (Sys.run HciDev.step HciDev.init ops) hci ocf ogf len ev cb u).1 = none ∧
      (bteHciDevAddCommand (Sys.run HciDev.step HciDev.init ops) hci ocf ogf len ev cb u).2.pendingCommands =
        (Sys.run HciDev.step HciDev.init ops).pendingCommands ∧
      (bteHciDevAddCommand (Sys.run HciDev.step HciDev.init ops) hci ocf ogf len ev cb u).2.calls =
        (Sys.run HciDev.step HciDev.init ops).calls ++
          if cb.word1 = .null then [] else [.done cb.word1 hci bteHciMemoryFull u] := by
  obtain ⟨hinv, hu⟩ := uniqueInv_run ops hk
  refine ⟨hu.distinct hseen, fun r hr => hu.refused r hr (hseen r hr), ?_⟩
  intro hci ocf ogf len ev cb u hs ht
  exact addCommand_refused (allocSlot_eq_none hinv ht hs)

/-- Two commands are pending and the first is sent again. -/
def resendRun : List Op :=
  [.api (.command 0 0x03 0x03 3 (.complete 0) (.client 1) 11), .api (.command 1 0x09 0x04 3 (.complete 0) (.client 2) 22),
   .api (.command 1 0x03 0x03 3 (.complete 0) (.client 3) 33)]

/-- At `resendRun` the copy is seen: two slots are in use and the third request was refused. -/
theorem pendingCommands_distinct_resendRun :
    (Sys.run HciDev.step HciDev.init resendRun).numPendingCommands = 2 ∧
    (Sys.run HciDev.step HciDev.init resendRun).Distinct ∧
    ∀ r ∈ (Sys.run HciDev.step HciDev.init resendRun).requests, r.Taken → r.answer = none := by
  have h := pendingCommands_distinct resendRun (by decide) (by decide)
  exact ⟨by decide, h.1, h.2.1⟩

/-- Two commands are pending, the first is answered, the second is sent again. -/
def holeRun : List Op :=
  [.api (.command 0 0x03 0x03 3 (.complete 0) (.client 1) 11), .api (.command 1 0x09 0x04 3 (.complete 0) (.client 2) 22),
   .event [0x0E, 4, 1, 0x03, 0x0C, 0] ⟨[], false⟩, .api (.command 0 0x09 0x04 3 (.complete 0) (.client 3) 33)]

/-- The copy after the hole is not seen: both slots hold the matcher of the same command. -/
theorem pendingCommands_duplicate :
    Sys.Admissible HciDev.step (fun dev o => o.Keeps dev) HciDev.init holeRun ∧
    ¬ (Sys.run HciDev.step HciDev.init holeRun).Distinct ∧
    ¬ ∀ r ∈ (Sys.run HciDev.step HciDev.init holeRun).requests, r.Taken → r.answer = none := by
  decide

end Bte
