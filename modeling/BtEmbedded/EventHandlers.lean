import BtEmbedded.HciDev
import BtEmbedded.Lib.Run
/-!
# EventHandlers — the handlers at the end of the device, and the data handler behind them (internals.h, hci_dev.c, acl.c)

The event handlers are an array of `BTE_HCI_EVENT_LAST` pointers, which the code `BTE_HCI_EVENT_LAST` itself runs out of:
the pointer behind the array is `data_handler_cb`.  `HciDev` keeps that code's handler apart; here the two share their
word, as they do in memory, and `view_eq_device` says that nothing else differs.

A handler or a callback that installs handlers while it runs does so after the dispatch that called it: a run lists
what is installed, in its order.
-/
namespace Bte

open Sys

variable {φ : Type}

/-- `event_handlers` and `data_handler_cb`; `none` is `NULL`. -/
structure HandlerTable (φ : Type) where
  eventHandlers : Fin bteHciEventLast.toNat → Option φ
  dataHandlerCb : Option φ

namespace HandlerTable

/-- The device before any client: `memset` to zero. -/
def init : HandlerTable φ := ⟨fun _ => none, none⟩

/-- The pointer `k` places from the start of the array. -/
def word (t : HandlerTable φ) (k : UInt8) : Option φ :=
  if h : k.toNat < bteHciEventLast.toNat then t.eventHandlers ⟨k.toNat, h⟩ else t.dataHandlerCb

def setWord (t : HandlerTable φ) (k : UInt8) (handler : Option φ) : HandlerTable φ :=
  if h : k.toNat < bteHciEventLast.toNat then
    { t with eventHandlers := Function.update t.eventHandlers ⟨k.toNat, h⟩ handler }
  else { t with dataHandlerCb := handler }

/-- `_bte_hci_dev_install_event_handler`. -/
def installEventHandler (t : HandlerTable φ) (eventCode : UInt8) (handler : Option φ) : HandlerTable φ :=
  match handlerIndex eventCode with
  | none => t
  | some k => t.setWord k handler

/-- The assignment in `bte_acl_make_public`. -/
def installDataHandler (t : HandlerTable φ) (handler : Option φ) : HandlerTable φ := { t with dataHandlerCb := handler }

/-- The handler `_bte_hci_dev_handle_event` runs. -/
def handleEvent (t : HandlerTable φ) (eventCode : UInt8) : Option φ := (handlerIndex eventCode).bind t.word

/-- The handler `_bte_hci_dev_handle_data` runs. -/
def handleData (t : HandlerTable φ) : Option φ := t.dataHandlerCb

/-- What is installed. -/
inductive Install (φ : Type) where
  | event (eventCode : UInt8) (handler : Option φ)
  | data (handler : Option φ)

def apply (t : HandlerTable φ) : Install φ → HandlerTable φ
  | .event eventCode handler => t.installEventHandler eventCode handler
  | .data handler => t.installDataHandler handler

/-! ## What dispatch is for -/

/-- Two codes have one handler: the same code, or vendor events and the code 0. -/
def Shares (a b : UInt8) : Prop :=
  a = b ∨ (a = 0 ∧ b = hciVendorSpecificEvent) ∨ (a = hciVendorSpecificEvent ∧ b = 0)

instance (a b : UInt8) : Decidable (Shares a b) := inferInstanceAs (Decidable (_ ∨ _))

/-- The codes before the last one, and vendor events. -/
def Handled (a : UInt8) : Prop := a < bteHciEventLast ∨ a = hciVendorSpecificEvent

instance (a : UInt8) : Decidable (Handled a) := inferInstanceAs (Decidable (_ ∨ _))

/-- The handler an installation gives to events of a code. -/
def Install.forEvent (eventCode : UInt8) : Install φ → Option (Option φ)
  | .event code handler => if Shares code eventCode then some handler else none
  | .data _ => none

/-- The handler an installation gives to exactly the events of a code. -/
def Install.forCode (eventCode : UInt8) : Install φ → Option (Option φ)
  | .event code handler => if code = eventCode then some handler else none
  | .data _ => none

def Install.forData : Install φ → Option (Option φ)
  | .event _ _ => none
  | .data handler => some handler

/-! ## Words and codes -/

theorem handlerIndex_some_iff {a k : UInt8} :
    handlerIndex a = some k ↔ k ≤ bteHciEventLast ∧ (a = k ∨ (a = hciVendorSpecificEvent ∧ k = 0)) := by
  unfold handlerIndex
  by_cases ha : a = hciVendorSpecificEvent
  · subst ha
    simp only [if_true]
    constructor
    · intro h
      rw [← Option.some.inj h]
      exact ⟨by decide, .inr ⟨trivial, rfl⟩⟩
    · rintro ⟨hk, rfl | h⟩
      · exact absurd hk (by decide)
      · rw [h.2]
        rfl
  · simp only [if_neg ha]
    constructor
    · intro h
      split at h
      · cases h
      · rename_i hk
        cases h
        exact ⟨UInt8.not_lt.1 hk, .inl rfl⟩
    · rintro ⟨hk, rfl | ⟨h, -⟩⟩
      · rw [if_neg (UInt8.not_lt.2 hk)]
      · exact absurd h ha

theorem handlerIndex_of_handled {a : UInt8} (h : Handled a) : ∃ k, handlerIndex a = some k ∧ k < bteHciEventLast := by
  rcases h with h | rfl
  · exact ⟨a, handlerIndex_some_iff.2 ⟨UInt8.le_of_lt h, .inl rfl⟩, h⟩
  · exact ⟨0, rfl, by decide⟩

theorem handlerIndex_of_not_handled {a : UInt8} (h : ¬ Handled a) (hlast : a ≠ bteHciEventLast) :
    handlerIndex a = none := by
  refine Option.eq_none_iff_forall_ne_some.2 fun k hk => ?_
  obtain ⟨hle, rfl | ⟨rfl, -⟩⟩ := handlerIndex_some_iff.1 hk
  · exact h (.inl (UInt8.lt_of_le_of_ne hle hlast))
  · exact h (.inr rfl)

/-- Two codes share a handler exactly when they share its place. -/
theorem shares_iff {a b k l : UInt8} (ha : handlerIndex a = some k) (hb : handlerIndex b = some l) :
    Shares a b ↔ k = l := by
  obtain ⟨hk, ha⟩ := handlerIndex_some_iff.1 ha
  obtain ⟨hl, hb⟩ := handlerIndex_some_iff.1 hb
  have hk' : k ≠ hciVendorSpecificEvent := by
    rintro rfl
    exact absurd hk (by decide)
  have hl' : l ≠ hciVendorSpecificEvent := by
    rintro rfl
    exact absurd hl (by decide)
  unfold Shares
  rcases ha with rfl | ⟨rfl, rfl⟩ <;> rcases hb with rfl | ⟨rfl, rfl⟩
  · simp [hk', hl']
  · simp [hk']
  · simp only [hl', and_false]
    grind
  · simp

theorem word_setWord (t : HandlerTable φ) (k : UInt8) {l : UInt8} (hl : l < bteHciEventLast) (handler : Option φ) :
    (t.setWord k handler).word l = if k = l then handler else t.word l := by
  have hl' : l.toNat < bteHciEventLast.toNat := hl
  unfold setWord word
  simp only [dif_pos hl']
  split
  · simp only
    by_cases hkl : k = l
    · subst hkl
      rw [Function.update_self, if_pos rfl]
    · rw [if_neg hkl, Function.update_of_ne]
      intro h
      exact hkl (UInt8.toNat_inj.1 (Fin.mk.inj h).symm)
  · rename_i hk
    have hkl : k ≠ l := by
      rintro rfl
      exact hk hl'
    rw [if_neg hkl]

theorem dataHandlerCb_setWord (t : HandlerTable φ) {k : UInt8} (hk : k < bteHciEventLast) (handler : Option φ) :
    (t.setWord k handler).dataHandlerCb = t.dataHandlerCb := by
  have hk' : k.toNat < bteHciEventLast.toNat := hk
  unfold setWord
  rw [dif_pos hk']

/-! ## One installation -/

theorem installEventHandler_of_not_handled {a : UInt8} (h : ¬ Handled a) (hlast : a ≠ bteHciEventLast)
    (t : HandlerTable φ) (handler : Option φ) : t.installEventHandler a handler = t := by
  rw [installEventHandler, handlerIndex_of_not_handled h hlast]

theorem handleEvent_of_not_handled {a : UInt8} (h : ¬ Handled a) (hlast : a ≠ bteHciEventLast) (t : HandlerTable φ) :
    t.handleEvent a = none := by
  rw [handleEvent, handlerIndex_of_not_handled h hlast]
  rfl

theorem handleEvent_install (t : HandlerTable φ) (a : UInt8) (handler : Option φ) {b : UInt8} (hb : Handled b) :
    (t.installEventHandler a handler).handleEvent b = if Shares a b then handler else t.handleEvent b := by
  obtain ⟨l, hl, hlast⟩ := handlerIndex_of_handled hb
  simp only [handleEvent, hl, Option.bind_some]
  unfold installEventHandler
  split
  · rename_i ha
    have hne : ¬ Shares a b := by
      rintro (rfl | ⟨rfl, rfl⟩ | ⟨rfl, rfl⟩)
      · rw [ha] at hl
        cases hl
      · exact absurd ha (by decide)
      · exact absurd ha (by decide)
    rw [if_neg hne]
  · rename_i k ha
    rw [word_setWord t k hlast handler]
    simp only [shares_iff ha hl]

theorem handleData_install (t : HandlerTable φ) {a : UInt8} (ha : a ≠ bteHciEventLast) (handler : Option φ) :
    (t.installEventHandler a handler).handleData = t.handleData := by
  by_cases hh : Handled a
  · obtain ⟨k, hk, hlast⟩ := handlerIndex_of_handled hh
    simp only [installEventHandler, hk]
    exact dataHandlerCb_setWord t hlast handler
  · rw [installEventHandler_of_not_handled hh ha]

theorem handleEvent_installData (t : HandlerTable φ) (handler : Option φ) {b : UInt8} (hb : b ≠ bteHciEventLast) :
    (t.installDataHandler handler).handleEvent b = t.handleEvent b := by
  by_cases hh : Handled b
  · obtain ⟨l, hl, hlast⟩ := handlerIndex_of_handled hh
    have hlast' : l.toNat < bteHciEventLast.toNat := hlast
    simp only [handleEvent, hl, Option.bind_some, word, dif_pos hlast']
    rfl
  · rw [handleEvent_of_not_handled hh hb, handleEvent_of_not_handled hh hb]

theorem handleEvent_apply (t : HandlerTable φ) (op : Install φ) {b : UInt8} (hb : Handled b) :
    (t.apply op).handleEvent b = (op.forEvent b).getD (t.handleEvent b) := by
  cases op with
  | event a handler =>
    simp only [apply, Install.forEvent]
    rw [handleEvent_install t a handler hb]
    split <;> rfl
  | data handler =>
    refine handleEvent_installData t handler ?_
    rintro rfl
    exact absurd hb (by decide)

theorem handleData_apply (t : HandlerTable φ) {op : Install φ} (hop : ∀ handler, op ≠ .event bteHciEventLast handler) :
    (t.apply op).handleData = op.forData.getD t.handleData := by
  cases op with
  | event a handler =>
    refine handleData_install t ?_ handler
    rintro rfl
    exact hop handler rfl
  | data handler => rfl

/-! ## The device -/

/-- The handlers of a device, and a data handler behind them. -/
def ofDevice (dev : HciDev) (data : Option EventHandler) : HandlerTable EventHandler :=
  ⟨fun i => dev.eventHandlers (.ofNat i), data⟩

/-- **The table is the device's**, for every code but the one that the array runs out of. -/
theorem view_eq_device (dev : HciDev) (data handler : Option EventHandler) {a : UInt8} (ha : a ≠ bteHciEventLast) :
    (ofDevice dev data).handleEvent a = bteHciDevHandlerForEvent dev a ∧
    (ofDevice dev data).installEventHandler a handler =
      ofDevice (bteHciDevInstallEventHandler dev a handler) data := by
  by_cases hh : Handled a
  · obtain ⟨k, hk, hlast⟩ := handlerIndex_of_handled hh
    have hlast' : k.toNat < bteHciEventLast.toNat := hlast
    constructor
    · simp only [handleEvent, bteHciDevHandlerForEvent, hk, Option.bind_some, word, dif_pos hlast', ofDevice]
      rw [UInt8.ofNat_toNat]
    · simp only [installEventHandler, bteHciDevInstallEventHandler, hk, setWord, dif_pos hlast', ofDevice]
      congr 1
      funext i
      have hi : (i : Nat) < 256 := Nat.lt_trans i.2 (by decide)
      by_cases hik : i = ⟨k.toNat, hlast'⟩
      · subst hik
        rw [Function.update_self, UInt8.ofNat_toNat, Function.update_self]
      · rw [Function.update_of_ne hik, Function.update_of_ne]
        intro h
        have hval := congrArg UInt8.toNat h
        rw [UInt8.toNat_ofNat', Nat.mod_eq_of_lt hi] at hval
        exact hik (Fin.ext hval)
  · have hnone := handlerIndex_of_not_handled hh ha
    simp only [handleEvent, bteHciDevHandlerForEvent, installEventHandler, bteHciDevInstallEventHandler, hnone]
    exact ⟨rfl, trivial⟩

/-! ## Runs -/

/-- **Dispatch**: after any installations an event of a handled code runs the handler installed last for the codes that
share it, other codes but the last have no handler, and data runs the data handler installed last.  An installation
changes nothing for the codes that do not share its own, nor for data. -/
theorem dispatch_run (ops : List (Install φ)) :
    (∀ a, Handled a → (run apply init ops).handleEvent a = (lastOf (Install.forEvent a) ops).getD none) ∧
    (∀ a, ¬ Handled a → a ≠ bteHciEventLast → (run apply init ops).handleEvent a = none ∧
      ∀ handler, (run apply init ops).installEventHandler a handler = run apply init ops) ∧
    ((∀ handler, .event bteHciEventLast handler ∉ ops) →
      (run apply init ops).handleData = (lastOf Install.forData ops).getD none) ∧
    (∀ a b handler, b ≠ bteHciEventLast → ¬ Shares a b →
      ((run apply init ops).installEventHandler a handler).handleEvent b = (run apply init ops).handleEvent b) ∧
    (∀ a handler, a ≠ bteHciEventLast →
      ((run apply init ops).installEventHandler a handler).handleData = (run apply init ops).handleData) ∧
    ∀ b handler, b ≠ bteHciEventLast →
      ((run apply init ops).installDataHandler handler).handleEvent b = (run apply init ops).handleEvent b := by
  refine ⟨fun a ha => ?_, fun a ha hlast => ⟨?_, fun handler => ?_⟩, fun hdata => ?_, fun a b handler hb hab => ?_,
    fun a handler ha => handleData_install _ ha handler, fun b handler hb => handleEvent_installData _ handler hb⟩
  · rw [view_run (fun t => t.handleEvent a) ops init fun t op _ => handleEvent_apply t op ha]
    congr 1
    obtain ⟨k, hk, hlast⟩ := handlerIndex_of_handled ha
    have hlast' : k.toNat < bteHciEventLast.toNat := hlast
    simp only [handleEvent, hk, Option.bind_some, word, dif_pos hlast']
    rfl
  · exact handleEvent_of_not_handled ha hlast _
  · exact installEventHandler_of_not_handled ha hlast _ handler
  · refine view_run handleData ops init fun t op hop => handleData_apply t fun handler h => ?_
    exact hdata handler (h ▸ hop)
  · by_cases hh : Handled b
    · rw [handleEvent_install _ a handler hh, if_neg hab]
    · rw [handleEvent_of_not_handled hh hb, handleEvent_of_not_handled hh hb]

theorem dispatch_run_three :
    (run apply init [.data (some 1), .event hciModeChange (some 2), .event 0 (some 3)]).handleEvent hciModeChange =
      some 2 ∧
    (run apply init [.data (some 1), .event hciModeChange (some 2), .event 0 (some 3)]).handleEvent 0x3E = none ∧
    (run apply init [.data (some 1), .event hciModeChange (some 2), .event 0 (some 3)]).handleData = some 1 := by
  obtain ⟨hevent, hnone, hdata, -⟩ :=
    dispatch_run [.data (some 1), .event hciModeChange (some 2), .event 0 (some 3)]
  refine ⟨(hevent hciModeChange (by decide)).trans (by decide), (hnone 0x3E (by decide) (by decide)).1, ?_⟩
  refine (hdata fun handler h => ?_).trans (by decide)
  simp [bteHciEventLast, hciModeChange] at h

/-- A handler for a code beyond the last is not installed, vendor events and the code 0 have one handler, and installing
one for the last code replaces the data handler. -/
theorem not_handled_alone :
    (run apply init [.event 0x3E (some 1)]).handleEvent 0x3E ≠
      (lastOf (Install.forCode 0x3E) [.event 0x3E (some 1)]).getD none ∧
    (run apply init [.event hciVendorSpecificEvent (some 1), .event 0 (some 2)]).handleEvent hciVendorSpecificEvent ≠
      (lastOf (Install.forCode hciVendorSpecificEvent)
        [.event hciVendorSpecificEvent (some 1), .event 0 (some 2)]).getD none ∧
    (run apply init [.data (some 1), .event bteHciEventLast (some 2)]).handleData ≠
      (lastOf Install.forData [.data (some 1), .event bteHciEventLast (some 2)]).getD none := by
  decide

end HandlerTable

end Bte
