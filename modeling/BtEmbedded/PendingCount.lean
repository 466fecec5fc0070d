import BtEmbedded.PendingUnique
/-!
# PendingCount — the counter of the pending-command table

`num_pending_commands` decides alone whether `_bte_hci_dev_alloc_command` searches at all: at zero it takes the first
slot, from eight on it refuses.  So the table takes a new command whenever it has room only as long as the counter is
the number of slots in use; a slot that is freed twice wraps it, and every later command is refused
(`pendingCommands_miscounted`).
-/
namespace Bte

/-! ## Requests that have room -/

/-- Some slot is free. -/
def Request.HasRoom (r : Request) : Prop := ∃ i, bteDataMatcherIsEmpty (r.slots i) = true

/-- A slot that was free is the answer. -/
def Request.Granted (r : Request) : Prop := ∃ i, r.answer = some i ∧ bteDataMatcherIsEmpty (r.slots i) = true

instance (r : Request) : Decidable r.HasRoom := inferInstanceAs (Decidable (∃ _ : Fin 8, _ = _))
instance (r : Request) : Decidable r.Granted := inferInstanceAs (Decidable (∃ _ : Fin 8, _ ∧ _))

/-- The search comes to a free slot if it meets no copy before. -/
theorem allocScan_isSome {dev : HciDev} {m : DataMatcher} (ht : ¬ (dev.request m).Taken) {i : Fin 8}
    (hf : ¬ dev.Occupied i) : ∀ l : List (Fin 8), i ∈ l → ∃ k, dev.allocScan m l = some k
  | [], hi => by cases hi
  | j :: l, hi => by
    unfold HciDev.allocScan
    cases he : bteDataMatcherIsEmpty (dev.pendingCommands j).matcher with
    | true => exact ⟨j, rfl⟩
    | false =>
      have hne : bteDataMatcherIsSame m (dev.pendingCommands j).matcher ≠ true := fun hs => ht ⟨j, he, hs⟩
      have hij : i ≠ j := by
        rintro rfl
        exact hf he
      have hl : i ∈ l := (List.mem_cons.1 hi).resolve_left hij
      rw [if_neg Bool.false_ne_true, if_neg hne]
      exact allocScan_isSome ht hf l hl

/-- **A request that has room for a matcher that is not taken is granted.** -/
theorem request_granted {dev : HciDev} (hinv : TableInv dev) {m : DataMatcher} (hr : (dev.request m).HasRoom)
    (ht : ¬ (dev.request m).Taken) : (dev.request m).Granted := by
  obtain ⟨i, hi⟩ := hr
  have hfree : ¬ dev.Occupied i := by
    intro ho
    rw [HciDev.Occupied] at ho
    exact Bool.false_ne_true (ho.symm.trans hi)
  have hsome : ∃ k, dev.allocSlot m = some k := by
    unfold HciDev.allocSlot
    by_cases h0 : dev.numPendingCommands = 0
    · exact ⟨0, if_pos h0⟩
    · have hlt : dev.occupied.card < 8 := by
        have hne : dev.occupied ≠ Finset.univ := by
          intro hu
          exact hfree (mem_occupied.1 (by rw [hu]; exact Finset.mem_univ i))
        simpa using Finset.card_lt_card (Finset.ssubset_univ_iff.2 hne)
      have hlt' : dev.numPendingCommands < 8 := by
        rw [UInt16.lt_iff_toNat_lt, hinv.counted]
        exact hlt
      rw [if_neg h0, if_pos hlt']
      exact allocScan_isSome ht hfree (List.finRange 8) (List.mem_finRange i)
  obtain ⟨k, hk⟩ := hsome
  refine ⟨k, hk, ?_⟩
  simpa [HciDev.Occupied, HciDev.request] using allocSlot_free hinv hk

/-! ## Runs -/

/-- Every request so far that had room for its matcher was granted, those made from inside callbacks included. -/
def GrantInv (dev : HciDev) : Prop := ∀ r ∈ dev.requests, r.HasRoom → ¬ r.Taken → r.Granted

theorem Change.grantInv {E : UInt8 → Prop} {F : Fin 8 → Prop} {dev dev' : HciDev} (h : Change E F dev dev')
    (hinv : TableInv dev) (hg : GrantInv dev) : GrantInv dev' := by
  cases h with
  | keep _ _ hr _ _ =>
    intro r hm
    rw [hr] at hm
    exact hg r hm
  | alloc m f _ _ _ =>
    intro r hm
    rw [allocWith_requests] at hm
    rcases List.mem_append.1 hm with hm | hm
    · exact hg r hm
    · rw [List.mem_singleton] at hm
      subst hm
      exact request_granted hinv
  | free => exact hg
  | store => exact hg
  | install =>
    intro r hm
    rw [install_requests] at hm
    exact hg r hm
  | installRead =>
    intro r hm
    rw [install_requests] at hm
    exact hg r hm

theorem Path.grantInv {E : UInt8 → Prop} {F : Fin 8 → Prop} {dev dev' : HciDev} (h : Path E F dev dev')
    (hinv : TableInv dev) (hg : GrantInv dev) : GrantInv dev' := by
  induction h with
  | refl => exact hg
  | tail hp hc ih => exact hc.grantInv (Path.tableInv hp hinv) ih

theorem grantInv_step (dev : HciDev) (o : Op) (h : TableInv dev ∧ GrantInv dev) (hk : o.Keeps dev) :
    TableInv (dev.step o) ∧ GrantInv (dev.step o) := by
  have hp := step_path h.1 o hk (readsCode_true dev o)
  constructor
  · exact Path.tableInv hp h.1
  · exact Path.grantInv hp h.1 h.2

/-- **The counter counts in every run whose callbacks leave alone the slot that is freed after them**, and the table
accepts every new command it has a slot for: those of the run, the ones sent from inside callbacks included, and the
next one. -/
theorem pendingCommands_counted (ops : List Op)
    (hk : Sys.Admissible HciDev.step (fun dev o => o.Keeps dev) HciDev.init ops) :
    (Sys.run HciDev.step HciDev.init ops).numPendingCommands.toNat =
      (Sys.run HciDev.step HciDev.init ops).occupied.card ∧
    (∀ r ∈ (Sys.run HciDev.step HciDev.init ops).requests, r.HasRoom → ¬ r.Taken → r.Granted) ∧
    ∀ m, ((Sys.run HciDev.step HciDev.init ops).request m).HasRoom →
      ¬ ((Sys.run HciDev.step HciDev.init ops).request m).Taken →
      ((Sys.run HciDev.step HciDev.init ops).request m).Granted := by
  have hgrant : GrantInv HciDev.init := fun r hr => by cases hr
  obtain ⟨hinv, hg⟩ := Sys.inv_run grantInv_step ops HciDev.init ⟨tableInv_init, hgrant⟩ hk
  exact ⟨hinv.counted, hg, fun m => request_granted hinv⟩

/-- A mode change listener whose callback sends a command and has the listener removed by returning `true`. -/
def lastNoticeRun : List Op :=
  [.api (.onModeChange 0 0x42 (.client 1)),
   .event [0x14, 6, 0, 0x42, 0x00, 2, 0x20, 0x03] ⟨[.command 0 0x03 0x03 3 (.complete 0) (.client 2) 11], true⟩]

/-- At `lastNoticeRun` the command of the callback was granted and is the one that is pending. -/
theorem pendingCommands_counted_lastNoticeRun :
    (Sys.run HciDev.step HciDev.init lastNoticeRun).occupied.card = 1 ∧
    (Sys.run HciDev.step HciDev.init lastNoticeRun).numPendingCommands = 1 ∧
    (Sys.run HciDev.step HciDev.init lastNoticeRun).requests.length = 2 ∧
    ∀ r ∈ (Sys.run HciDev.step HciDev.init lastNoticeRun).requests, r.HasRoom → ¬ r.Taken → r.Granted := by
  have h := pendingCommands_counted lastNoticeRun (by decide)
  have hn : (Sys.run HciDev.step HciDev.init lastNoticeRun).numPendingCommands = 1 := by decide
  refine ⟨?_, hn, by decide, h.2.1⟩
  rw [← h.1, hn]
  rfl

/-- A mode change listener whose callback removes it and returns `true`. -/
def unlistenRun : List Op :=
  [.api (.onModeChange 0 0x42 (.client 1)),
   .event [0x14, 6, 0, 0x42, 0x00, 2, 0x20, 0x03] ⟨[.onModeChange 0 0x42 .null], true⟩]

/-- The slot is freed twice: nothing is pending, the counter is at 65535 and a command is refused. -/
theorem pendingCommands_miscounted :
    (Sys.run HciDev.step HciDev.init unlistenRun).occupied.card = 0 ∧
    (Sys.run HciDev.step HciDev.init unlistenRun).numPendingCommands.toNat ≠
      (Sys.run HciDev.step HciDev.init unlistenRun).occupied.card ∧
    ¬ ∀ m, ((Sys.run HciDev.step HciDev.init unlistenRun).request m).HasRoom →
      ¬ ((Sys.run HciDev.step HciDev.init unlistenRun).request m).Taken →
      ((Sys.run HciDev.step HciDev.init unlistenRun).request m).Granted := by
  refine ⟨by decide, by decide, ?_⟩
  intro hall
  exact absurd (hall (commandMatcher hciCommandComplete (opcodeLe 0x03 0x03)) (by decide) (by decide))
    (by decide)

end Bte
