import BtEmbedded.L2capSignalling
import Mathlib.Tactic.Common
/-!
# L2capHandshake — when a channel is open (l2cap.c)

The two halves of a configuration, our request accepted and the peer's request answered, are folded into one state.
`ConfigHistory` keeps them apart: it is read off the log alone.  `HandshakeSafe` says what each state promises about it.

The one place where the state and the history part is a response that does not fit the peer's MTU: it is continued only if
`bte_acl_send_message` returned a number other than 0, and it returns 0 when the packet has to wait in the queue.
-/
namespace Bte

open Bytes

/-! ## The history of a configuration -/

/-- What happened to channel `p` since it last entered `waitConfig` or left `opened`; `asked` if a Configuration Request
was sent after the last final response. -/
structure ConfigHistory where
  /-- A final positive response to a Configuration Request was handled. -/
  accepted : Bool
  /-- A final positive response was sent. -/
  answered : Bool
  asked : Bool
deriving DecidableEq

def ConfigHistory.step (p : Nat) (h : ConfigHistory) : L2event → ConfigHistory
  | .state q old new =>
    if q = p ∧ (new = .waitConfig ∨ old = .opened) then { h with accepted := false, answered := false } else h
  | .emitted (some q) code _ body =>
    if q = p ∧ code = l2capSignalConfigReq then { h with asked := true }
    else if q = p ∧ code = l2capSignalConfigRsp ∧ word body 1 &&& l2capConfigFlagContinuation = 0 ∧
        word body 2 = l2capConfigResOk then { h with answered := true }
    else h
  | .handled q id expectedId flags result last =>
    if q = p ∧ id = expectedId ∧ flags = 0 then
      { h with
        asked := false
        accepted := h.accepted || (result == l2capConfigResOk && last == some l2capSignalConfigReq) }
    else h
  | _ => h

def configHistory (p : Nat) (log : List L2event) : ConfigHistory := log.foldl (ConfigHistory.step p) ⟨false, false, false⟩

/-- **What the state of a channel promises.** -/
structure HandshakeSafe (w : L2capLink) (p : Nat) : Prop where
  opened : (w.channels p).state = .opened → (configHistory p w.log).accepted ∧ (configHistory p w.log).answered
  waitSendConfig : (w.channels p).state = .waitSendConfig → (configHistory p w.log).answered
  waitConfigRsp : (w.channels p).state = .waitConfigRsp →
    (configHistory p w.log).answered ∧ (configHistory p w.log).asked
  waitConfigReq : (w.channels p).state = .waitConfigReq → (configHistory p w.log).accepted
  waitConfigReqRsp : (w.channels p).state = .waitConfigReqRsp → (configHistory p w.log).asked

/-- A response that has to be continued is not left waiting in the queue. -/
def Unstalled (rc : Nat → Int) : L2event → Bool
  | .responding _ overflow dev buffer => overflow == 0 || (bteAclSendMessage rc dev buffer).1 != 0
  | _ => true

/-! ## The invariant, over what it reads of a link -/

/-- What the state `s` promises. -/
def ConfigHistory.allows (h : ConfigHistory) : L2capState → Prop
  | .opened => h.accepted ∧ h.answered
  | .waitSendConfig => h.answered
  | .waitConfigRsp => h.answered ∧ h.asked
  | .waitConfigReq => h.accepted
  | .waitConfigReqRsp => h.asked
  | _ => True

structure LinkView where
  state : Nat → L2capState
  expected : Nat → Nat
  history : Nat → ConfigHistory
  last : Nat → Option Nat
  responses : List L2event

def L2event.isResponding : L2event → Bool
  | .responding .. => true
  | _ => false

def L2capLink.view (w : L2capLink) : LinkView where
  state := fun p => (w.channels p).state
  expected := fun p => (w.channels p).expectedResponseCode
  history := fun p => configHistory p w.log
  last := fun p => lastRequest p w.log
  responses := w.log.filter L2event.isResponding

/-- A channel that awaits a Configuration Response sent a Configuration Request last. -/
def LinkView.Remembers (v : LinkView) : Prop :=
  ∀ p, v.expected p = l2capSignalConfigRsp → v.last p = some l2capSignalConfigReq

def LinkView.Clean (rc : Nat → Int) (v : LinkView) : Prop := v.responses.all (Unstalled rc)

/-- Every channel but `p` keeps what its state promises. -/
def LinkView.InvBut (rc : Nat → Int) (p : Nat) (v : LinkView) : Prop :=
  v.Remembers ∧ (v.Clean rc → ∀ q, q ≠ p → (v.history q).allows (v.state q))

def LinkView.Inv (rc : Nat → Int) (v : LinkView) : Prop :=
  v.Remembers ∧ (v.Clean rc → ∀ q, (v.history q).allows (v.state q))

theorem LinkView.Inv.but {rc : Nat → Int} {v : LinkView} (h : v.Inv rc) (p : Nat) : v.InvBut rc p :=
  ⟨h.1, fun hc q _ => h.2 hc q⟩

/-! ## What leaves the view alone -/

@[simp] theorem configHistory_append (p : Nat) (log : List L2event) (e : L2event) :
    configHistory p (log ++ [e]) = (configHistory p log).step p e := by simp [configHistory]

theorem lastRequest_append (p : Nat) (log : List L2event) (e : L2event) :
    lastRequest p (log ++ [e]) =
      match e with
      | .emitted (some q) code _ _ => if q = p ∧ code % 2 = 0 then some code else lastRequest p log
      | _ => lastRequest p log := by
  unfold lastRequest
  rw [List.foldl_append]
  rfl

@[simp] theorem view_modify (w : L2capLink) (p : Nat) {f : L2cap → L2cap}
    (hf : ∀ l, (f l).state = l.state ∧ (f l).expectedResponseCode = l.expectedResponseCode) :
    (w.modify p f).view = w.view := by
  have hs : ∀ q, ((w.modify p f).channels q).state = (w.channels q).state := by
    intro q
    by_cases hq : q = p
    · subst hq; simp [L2capLink.modify, (hf _).1]
    · simp [L2capLink.modify, Function.update_of_ne hq]
  have he : ∀ q, ((w.modify p f).channels q).expectedResponseCode = (w.channels q).expectedResponseCode := by
    intro q
    by_cases hq : q = p
    · subst hq; simp [L2capLink.modify, (hf _).2]
    · simp [L2capLink.modify, Function.update_of_ne hq]
  simp only [L2capLink.view, hs, he]
  rfl

/-- An event that is not about a configuration. -/
def L2event.unrelated : L2event → Prop
  | .state .. => False
  | .emitted (some _) .. => False
  | .responding .. => False
  | .handled .. => False
  | _ => True

theorem step_unrelated (p : Nat) (h : ConfigHistory) {e : L2event} (he : e.unrelated) : h.step p e = h := by
  cases e with
  | emitted q => cases q <;> trivial
  | _ => trivial

theorem view_record (w : L2capLink) {e : L2event} (he : e.unrelated) : (w.record e).view = w.view := by
  have hh : ∀ p, configHistory p (w.record e).log = configHistory p w.log := by
    intro p
    rw [L2capLink.record, configHistory_append]
    exact step_unrelated p _ he
  have hl : ∀ p, lastRequest p (w.record e).log = lastRequest p w.log := by
    intro p
    rw [L2capLink.record, lastRequest_append]
    cases e with
    | emitted q => cases q <;> trivial
    | _ => rfl
  have hr : (w.record e).log.filter L2event.isResponding = w.log.filter L2event.isResponding := by
    have hno : e.isResponding = false := by cases e <;> trivial
    simp [L2capLink.record, hno]
  simp only [L2capLink.view, hh, hl, hr]
  rfl

@[simp] theorem view_callback (w : L2capLink) (p : Nat) (c : L2capCallback) :
    (w.record (.callback p c)).view = w.view :=
  view_record w (show (L2event.callback p c).unrelated from trivial)

@[simp] theorem view_connectCb (w : L2capLink) (p : Nat) (cb : L2capClientCb) (reply : Option ConnectionResponse) :
    (w.record (.connectCb p cb reply)).view = w.view :=
  view_record w (show (L2event.connectCb p cb reply).unrelated from trivial)

@[simp] theorem view_configureCb (w : L2capLink) (p : Nat) (cb : L2capClientCb) (reply : ConfigureReply) (stored : Bool) :
    (w.record (.configureCb p cb reply stored)).view = w.view :=
  view_record w (show (L2event.configureCb p cb reply stored).unrelated from trivial)

@[simp] theorem view_configureStored (w : L2capLink) (p : Nat) (cb : L2capClientCb) :
    (w.record (.configureStored p cb)).view = w.view :=
  view_record w (show (L2event.configureStored p cb).unrelated from trivial)

@[simp] theorem view_markReplySent (w : L2capLink) (cd : Nat) : (w.markReplySent cd).view = w.view := rfl

@[simp] theorem view_note (w : L2capLink) (n : L2note) : (w.note n).view = w.view := rfl

@[simp] theorem view_nextSignalId (w : L2capLink) : w.nextSignalId.2.view = w.view := rfl

@[simp] theorem view_nextChannelId (w : L2capLink) : w.nextChannelId.2.view = w.view := rfl

@[simp] theorem view_allot (w : L2capLink) (p id : Nat) : (w.allot p id).view = w.view := by
  rw [L2capLink.allot, view_modify, view_note]
  exact fun _ => ⟨rfl, rfl⟩

@[simp] theorem view_restore (w : L2capLink) (p : Nat) : (w.restore p).view = w.view := by
  rw [L2capLink.restore, view_modify, view_note]
  exact fun _ => ⟨rfl, rfl⟩

@[simp] theorem view_ref (w : L2capLink) (p : Nat) : (bteL2capRef w p).view = w.view :=
  view_modify w p fun _ => ⟨rfl, rfl⟩

@[simp] theorem view_removeClient (w : L2capLink) (p : Nat) : (aclL2capRemoveClient w p).view = w.view := by
  simp only [aclL2capRemoveClient]
  split
  · rw [view_record]
    · rfl
    · trivial
  · rfl

@[simp] theorem view_unref (w : L2capLink) (p : Nat) : (bteL2capUnref w p).view = w.view := by
  simp only [bteL2capUnref]
  split <;> simp

theorem view_addClient {w w' : L2capLink} {p : Nat} (h : aclL2capAddClient w p = some w') : w'.view = w.view := by
  rw [aclL2capAddClient, Option.map_eq_some_iff] at h
  obtain ⟨i, _, rfl⟩ := h
  rfl

@[simp] theorem view_configApply (w : L2capLink) (p : Nat) (params : ConfigureParams) (remote : Bool) :
    (l2capConfigApply w p params remote).view = w.view := by
  unfold l2capConfigApply
  cases remote <;> simp

/-! ## Callbacks and states -/

/-- The client's callbacks keep the invariant. -/
def L2capHost.Keeps (host : L2capHost) : Prop := ∀ c w, w.view.Inv host.rc → (host.react c w).view.Inv host.rc

section Functions

variable {host : L2capHost} (hk : host.Keeps)
include hk

theorem inv_call {w : L2capLink} (h : w.view.Inv host.rc) (p : Nat) (c : L2capCallback) :
    (w.call host p c).view.Inv host.rc :=
  hk c _ (by simpa using h)

theorem inv_stateChanged {w : L2capLink} (h : w.view.Inv host.rc) (p : Nat) (state : L2capState) :
    (stateChanged host w p state).view.Inv host.rc := by
  unfold stateChanged
  split
  · exact h
  · exact inv_call hk h _ _
  · unfold onL2capStateChanged
    split
    · rw [view_unref]
      refine inv_call hk ?_ _ _
      simpa using h
    · exact h
  · unfold newConfiguredStateChangedCb
    simp only
    split
    · rw [view_unref, view_markReplySent]
      refine inv_call hk ?_ _ _
      simpa using h
    · split
      · rw [view_unref]
        split
        · exact h
        · exact inv_call hk h _ _
      · exact h

omit hk in
theorem view_enter (w : L2capLink) (p : Nat) (s : L2capState) :
    (w.enter p s).view = { w.view with
      state := Function.update w.view.state p s
      history := fun q => (w.view.history q).step q (.state p (w.view.state p) s) } := by
  have hs : ∀ q, ((w.enter p s).channels q).state = Function.update w.view.state p s q := by
    intro q
    by_cases hq : q = p
    · subst hq; simp [L2capLink.enter, L2capLink.modify, L2capLink.record]
    · simp [L2capLink.enter, L2capLink.modify, L2capLink.record, Function.update_of_ne hq, L2capLink.view]
  have he : ∀ q, ((w.enter p s).channels q).expectedResponseCode = (w.channels q).expectedResponseCode := by
    intro q
    by_cases hq : q = p
    · subst hq; simp [L2capLink.enter, L2capLink.modify, L2capLink.record]
    · simp [L2capLink.enter, L2capLink.modify, L2capLink.record, Function.update_of_ne hq]
  have hl : (w.enter p s).log = w.log ++ [.state p (w.channels p).state s] := rfl
  have hr : (w.enter p s).log.filter L2event.isResponding = w.log.filter L2event.isResponding := by
    simp [hl, L2event.isResponding]
  have hq : ∀ q, lastRequest q (w.enter p s).log = lastRequest q w.log := fun q => by rw [hl, lastRequest_append]
  simp only [L2capLink.view, hs, he, hr, hq]
  simp only [hl, configHistory_append]

/-- The history of a channel that changes its state. -/
def ConfigHistory.entering (h : ConfigHistory) (old new : L2capState) : ConfigHistory :=
  if new = .waitConfig ∨ old = .opened then { h with accepted := false, answered := false } else h

namespace ConfigHistory

omit hk

variable {h h' : ConfigHistory} {s : L2capState}

/-- A channel that has sent its request, or its positive response, may go on. -/
theorem allows_requestSent (hp : h.allows s) (hasked : h.asked = true) (hne : requestSent s ≠ s) :
    (h.entering s (requestSent s)).allows (requestSent s) := by
  cases s <;> simp_all [requestSent, entering, allows]

theorem allows_responseSent (hp : h.allows s) (hanswered : h.answered = true) (hne : responseSent s ≠ s) :
    (h.entering s (responseSent s)).allows (responseSent s) := by
  cases s <;> simp_all [responseSent, entering, allows]

/-- The peer's positive answer is what the states that wait for it promise next. -/
theorem allows_responseAccepted (hp : h.allows s) (hne : responseAccepted s ≠ s) :
    ({ h with accepted := true, asked := false }.entering s (responseAccepted s)).allows (responseAccepted s) := by
  cases s <;> simp_all [responseAccepted, entering, allows]

theorem allows_of_responseAccepted (hp : h.allows s) (hsame : responseAccepted s = s) :
    ({ h with accepted := true, asked := false } : ConfigHistory).allows s := by
  cases s <;> simp_all [responseAccepted, allows]

/-- After a negative answer the channel asks again, and has answered what it had answered. -/
theorem allows_responseRefused (hp : h.allows s) (hanswered : h'.answered = h.answered) (hne : responseRefused s ≠ s) :
    (h'.entering s (responseRefused s)).allows (responseRefused s) := by
  cases s <;> simp_all [responseRefused, entering, allows]

theorem allows_of_responseRefused (hp : h.allows s) (hanswered : h'.answered = h.answered)
    (hacc : h.accepted → h'.accepted) (hsame : responseRefused s = s) : h'.allows s := by
  cases s <;> simp_all [responseRefused, allows]

end ConfigHistory

omit hk in
/-- **A channel may enter a state whose promise holds**, whatever it promised before. -/
theorem inv_enter {rc : Nat → Int} {w : L2capLink} {p : Nat} {s : L2capState} (h : w.view.InvBut rc p)
    (hs : w.view.Clean rc → ((w.view.history p).entering (w.view.state p) s).allows s) :
    (w.enter p s).view.Inv rc := by
  rw [view_enter]
  refine ⟨h.1, fun hc q => ?_⟩
  by_cases hq : q = p
  · subst hq
    simpa [ConfigHistory.step, ConfigHistory.entering] using hs hc
  · have hpq : p ≠ q := fun hpq => hq hpq.symm
    simpa [ConfigHistory.step, Function.update_of_ne hq, hpq] using h.2 hc q hq

theorem inv_setState {w : L2capLink} {p : Nat} {s : L2capState} (h : w.view.InvBut host.rc p)
    (hs : s ≠ w.view.state p → w.view.Clean host.rc → ((w.view.history p).entering (w.view.state p) s).allows s)
    (hsame : s = w.view.state p → w.view.Inv host.rc) : (l2capSetState host w p s).view.Inv host.rc := by
  unfold l2capSetState
  split
  · rename_i heq
    exact hsame heq
  · rename_i hne
    exact inv_stateChanged hk (inv_enter h (hs hne)) p s

/-- The states that promise nothing. -/
def L2capState.free : L2capState → Bool
  | .closed | .waitConnect | .waitConnectRsp | .waitConfig | .waitDisconnect => true
  | _ => false

theorem inv_setState_free {w : L2capLink} (h : w.view.Inv host.rc) (p : Nat) {s : L2capState} (hs : s.free) :
    (l2capSetState host w p s).view.Inv host.rc := by
  refine inv_setState hk (h.but p) (fun _ _ => ?_) fun _ => h
  cases s <;> trivial

/-! ## Commands -/

omit hk in
theorem ConfigHistory.allows_mono {h h' : ConfigHistory} (ha : h.accepted → h'.accepted) (hb : h.answered → h'.answered)
    (hq : h.asked → h'.asked) {s : L2capState} (hs : h.allows s) : h'.allows s := by
  cases s
  case opened => exact ⟨ha hs.1, hb hs.2⟩
  case waitSendConfig => exact hb hs
  case waitConfigRsp => exact ⟨hb hs.1, hq hs.2⟩
  case waitConfigReq => exact ha hs
  case waitConfigReqRsp => exact hq hs
  all_goals trivial

omit hk in
theorem view_send (w : L2capLink) (p : Option Nat) (code id : Nat) (body : List UInt8) (buffer : List Packet) :
    (w.send host p code id body buffer).2.view = { w.view with
      history := fun q => (w.view.history q).step q (.emitted p code id body)
      last := fun q => if p = some q ∧ code % 2 = 0 then some code else w.view.last q } := by
  have hl : (w.send host p code id body buffer).2.log = w.log ++ [.emitted p code id body] := rfl
  have hr : (w.send host p code id body buffer).2.log.filter L2event.isResponding =
      w.log.filter L2event.isResponding := by simp [hl, L2event.isResponding]
  have hq : ∀ q, lastRequest q (w.send host p code id body buffer).2.log =
      if p = some q ∧ code % 2 = 0 then some code else lastRequest q w.log := by
    intro q
    rw [hl, lastRequest_append]
    cases p <;> simp
  simp only [L2capLink.view, hr, hq]
  simp only [hl, configHistory_append]
  rfl

omit hk in
theorem step_emitted_mono (q : Nat) (h : ConfigHistory) (p : Option Nat) (code id : Nat) (body : List UInt8)
    {s : L2capState} (hs : h.allows s) : (h.step q (.emitted p code id body)).allows s := by
  refine ConfigHistory.allows_mono ?_ ?_ ?_ hs <;> cases p <;> simp only [ConfigHistory.step, imp_self] <;>
    split <;> simp_all <;> split <;> simp_all

omit hk in
/-- **Sending a command keeps the invariant**, unless it is a request that takes the place of a Configuration Request the
channel still awaits a response to. -/
theorem inv_send {rc : Nat → Int} {w : L2capLink} (h : w.view.Inv rc) {p : Option Nat} {code : Nat}
    (hcode : ∀ q, p = some q → code % 2 = 0 → code ≠ l2capSignalConfigReq → w.view.expected q ≠ l2capSignalConfigRsp)
    (id : Nat) (body : List UInt8) (buffer : List Packet) :
    (w.send host p code id body buffer).2.view.Inv rc := by
  rw [view_send]
  refine ⟨fun q hq => ?_, fun hc q => step_emitted_mono q _ p code id body (h.2 hc q)⟩
  by_cases hp : p = some q ∧ code % 2 = 0
  · have hreq : code = l2capSignalConfigReq := by
      by_contra hne
      exact hcode q hp.1 hp.2 hne hq
    exact (if_pos hp).trans (congrArg some hreq)
  · exact (if_neg hp).trans (h.1 q hq)

omit hk in
theorem inv_cmdReply {rc : Nat → Int} {w : L2capLink} (h : w.view.Inv rc) (p : Option Nat) {code : Nat}
    (hcode : code % 2 = 1) (id : Nat) (data : List UInt8) : (aclL2capCmdReply host w p code id data).2.view.Inv rc := by
  unfold aclL2capCmdReply
  simp only
  generalize aclL2capCreateCmd host code id data.length = writer
  cases writer with
  | none => exact h
  | some writer => exact inv_send h (fun _ _ heven => absurd heven (by omega)) id data _

omit hk in
theorem inv_rejectCommand {rc : Nat → Int} {w : L2capLink} (h : w.view.Inv rc) (id channelId remoteChannelId : Nat) :
    (l2capRejectCommandInvalidCid host w id channelId remoteChannelId).view.Inv rc :=
  inv_cmdReply h none (by decide) id _

omit hk in
theorem view_modify_expected (w : L2capLink) (p : Nat) {f : L2cap → L2cap} {c : Nat}
    (hs : ∀ l, (f l).state = l.state) (hc : ∀ l, (f l).expectedResponseCode = c) :
    (w.modify p f).view = { w.view with expected := Function.update w.view.expected p c } := by
  have hs' : ∀ q, ((w.modify p f).channels q).state = (w.channels q).state := by
    intro q
    by_cases hq : q = p
    · subst hq; simp [L2capLink.modify, hs]
    · simp [L2capLink.modify, Function.update_of_ne hq]
  have he : ∀ q, ((w.modify p f).channels q).expectedResponseCode = Function.update w.view.expected p c q := by
    intro q
    by_cases hq : q = p
    · subst hq; simp [L2capLink.modify, hc]
    · simp [L2capLink.modify, Function.update_of_ne hq, L2capLink.view]
  simp only [L2capLink.view, hs', he]
  rfl

omit hk in
/-- A channel may expect what it likes, if it has sent what a Configuration Response needs. -/
theorem inv_expect {rc : Nat → Int} {w : L2capLink} (h : w.view.Inv rc) (p : Nat) {f : L2cap → L2cap} {c : Nat}
    (hs : ∀ l, (f l).state = l.state) (hc : ∀ l, (f l).expectedResponseCode = c)
    (hlast : c = l2capSignalConfigRsp → w.view.last p = some l2capSignalConfigReq) :
    (w.modify p f).view.Inv rc := by
  rw [view_modify_expected w p hs hc]
  refine ⟨fun q hq => ?_, h.2⟩
  by_cases hqp : q = p
  · subst hqp
    exact hlast (by simpa using hq)
  · exact h.1 q (by simpa [Function.update_of_ne hqp] using hq)

omit hk in
theorem inv_sendSignal {w : L2capLink} (h : w.view.Inv host.rc) (p : Nat) {code : Nat}
    (hcode : code ≠ l2capSignalConfigReq) (payload : List UInt8) :
    (l2capSendSignal host w p code payload).2.view.Inv host.rc := by
  have hne : code + 1 ≠ l2capSignalConfigRsp := by simp only [l2capSignalConfigReq, l2capSignalConfigRsp] at *; omega
  unfold l2capSendSignal l2capSignal
  simp only
  generalize cmdPackets host code w.nextSignalId.1 payload = buffer
  cases buffer with
  | none => simpa using h
  | some buffer =>
    simp only [Option.isSome_some, if_true, Option.map_some, Option.elim_some]
    refine inv_send (inv_expect (c := code + 1) (by simpa using h) p ?_ ?_ fun hc => absurd hc hne) ?_ _ _ _
    · intro _; rfl
    · intro _; rfl
    · intro q hq _ _
      cases hq
      simpa [L2capLink.view, L2capLink.modify] using hne

/-! ## Closing a channel -/

theorem inv_disconnected {w : L2capLink} (h : w.view.Inv host.rc) (p reason : Nat) :
    (disconnected host w p reason).view.Inv host.rc := by
  have h' : (w.note (.closed p)).view.Inv host.rc := by rwa [view_note]
  unfold disconnected
  simp only
  split
  · exact h'
  · exact inv_call hk h' _ _

/-- What all three functions that close a channel do. -/
theorem inv_close {w : L2capLink} (h : w.view.Inv host.rc) (p reason : Nat) :
    (disconnected host (l2capSetState host (w.note (.closing p (w.channels p).state)) p .closed) p
        reason).view.Inv host.rc := by
  have h' : (w.note (.closing p (w.channels p).state)).view.Inv host.rc := by rwa [view_note]
  exact inv_disconnected hk (inv_setState_free hk h' p rfl) p reason

theorem inv_disconnect {w : L2capLink} (h : w.view.Inv host.rc) (p : Nat) :
    (bteL2capDisconnect host w p).view.Inv host.rc := by
  unfold bteL2capDisconnect
  split
  · unfold l2capSendDisconnectReq
    have hne : l2capSignalDisconnReq ≠ l2capSignalConfigReq := by decide
    simp only
    split
    · exact inv_setState_free hk (inv_sendSignal h p hne _) p rfl
    · exact inv_sendSignal h p hne _
  · exact inv_close hk h p _

theorem inv_configured {w : L2capLink} (h : w.view.Inv host.rc) (cb : L2capClientCb) (p : Nat) (reply : ConfigureReply)
    (userdata : Nat) (stored : Bool) : (configured host w cb p reply userdata stored).view.Inv host.rc := by
  have h' : (w.record (.configureCb p cb reply stored)).view.Inv host.rc := by rwa [view_configureCb]
  unfold configured
  simp only
  split
  · exact inv_call hk h' _ _
  · unfold newConfiguredConfigureCb
    split
    · refine inv_disconnect hk ?_ p
      rw [view_markReplySent]
      exact inv_call hk h' _ _
    · exact h'
  · exact h'
  · exact h'

/-! ## Configuring a channel -/

omit hk in
/-- **The loop of a request** keeps the invariant and the states, and has sent a Configuration Request. -/
theorem requestLoop_spec (p : Nat) (params : ConfigureParams) :
    ∀ (fuel startCmd msgId : Nat) (w : L2capLink), w.view.Inv host.rc →
      (0 < fuel ∨ (w.view.history p).asked = true) →
      (configRequestLoop host p params fuel startCmd msgId w).2.view.Inv host.rc ∧
      (configRequestLoop host p params fuel startCmd msgId w).2.view.state = w.view.state ∧
      ((configRequestLoop host p params fuel startCmd msgId w).2.view.history p).asked = true
  | 0, _, _, w, h, hasked => ⟨h, rfl, hasked.resolve_left (Nat.lt_irrefl 0)⟩
  | fuel + 1, startCmd, msgId, w, h, _ => by
    unfold configRequestLoop
    simp only
    generalize hopts : l2capConfigWrite params startCmd (w.channels p).remoteMtu = opts
    generalize hbody : leBytes 2 (w.channels p).remoteChannelId ++ leBytes 2 (configFlags opts.1) ++ opts.2 = body
    generalize hbuf : (cmdPackets host l2capSignalConfigReq msgId body).getD [] = buffer
    generalize hnote : w.note (.request p l2capSignalConfigReq msgId w.table) = noted
    have hnoted : noted.view = w.view := by rw [← hnote, view_note]
    have hsent : (noted.send host (some p) l2capSignalConfigReq msgId body buffer).2.view.Inv host.rc :=
      inv_send (by rwa [hnoted]) (fun _ _ _ hne => absurd rfl hne) msgId body buffer
    have hview : (noted.send host (some p) l2capSignalConfigReq msgId body buffer).2.view = _ :=
      view_send noted (some p) l2capSignalConfigReq msgId body buffer
    rw [hnoted] at hview
    generalize noted.send host (some p) l2capSignalConfigReq msgId body buffer = r at hsent hview ⊢
    have hstate : r.2.view.state = w.view.state := by rw [hview]
    have hasked : (r.2.view.history p).asked = true := by rw [hview]; simp [ConfigHistory.step]
    have hlast : r.2.view.last p = some l2capSignalConfigReq := by
      rw [hview]
      exact if_pos ⟨rfl, rfl⟩
    by_cases hrc : r.1 = 0
    · rw [if_pos hrc]
      exact ⟨hsent, hstate, hasked⟩
    · rw [if_neg hrc]
      generalize hnext : (if opts.1 > 0 then r.2.nextSignalId else (msgId, r.2)) = next
      have hnv : next.2.view = r.2.view := by
        rw [← hnext]
        split <;> simp
      generalize hw : (next.2.modify p fun l2cap => { l2cap with
        expectedResponseCode := l2capSignalConfigRsp
        expectedResponseCount := (l2cap.expectedResponseCount + 1) % 256
        expectedResponseId := next.2.lastSignalId }) = w'
      have hinv : w'.view.Inv host.rc := by
        rw [← hw]
        refine inv_expect (c := l2capSignalConfigRsp) (by rwa [hnv]) p ?_ ?_ fun _ => by rw [hnv, hlast]
        · intro _; rfl
        · intro _; rfl
      have hview' : w'.view = { r.2.view with
          expected := Function.update r.2.view.expected p l2capSignalConfigRsp } := by
        rw [← hw, ← hnv]
        refine view_modify_expected next.2 p ?_ ?_
        · intro _; rfl
        · intro _; rfl
      have hasked' : (w'.view.history p).asked = true := by rw [hview']; exact hasked
      have hstate' : w'.view.state = w.view.state := by rw [hview']; exact hstate
      split
      · obtain ⟨h1, h2, h3⟩ := requestLoop_spec p params fuel opts.1 next.1 w' hinv (.inr hasked')
        exact ⟨h1, h2.trans hstate', h3⟩
      · exact ⟨hinv, hstate', hasked'⟩

theorem inv_sendRequest {w : L2capLink} (h : w.view.Inv host.rc) (p : Nat) (conf : ConfigureData) :
    (configSendRequest host w p conf).2.view.Inv host.rc := by
  unfold configSendRequest
  simp only
  obtain ⟨hinv, -, hasked⟩ := @requestLoop_spec host p conf.params (w.dev.aclAvailablePackets + 1) 0
    w.nextSignalId.1 w.nextSignalId.2 (by simpa using h) (.inl (Nat.succ_pos _))
  generalize configRequestLoop host p conf.params (w.dev.aclAvailablePackets + 1) 0 w.nextSignalId.1 w.nextSignalId.2 = r
    at hinv hasked ⊢
  split
  · exact hinv
  · refine inv_setState hk (hinv.but p) (fun hne hc => ?_) fun _ => hinv
    have hp := hinv.2 hc p
    have hst : (r.2.channels p).state = r.2.view.state p := rfl
    rw [hst] at hne ⊢
    exact ConfigHistory.allows_requestSent hp hasked hne

omit hk in
theorem view_responding (w : L2capLink) (p overflow : Nat) (dev : AclOut) (buffer : List Packet) :
    (w.record (.responding p overflow dev buffer)).view =
      { w.view with responses := w.view.responses ++ [.responding p overflow dev buffer] } := by
  have hl : (w.record (.responding p overflow dev buffer)).log = w.log ++ [.responding p overflow dev buffer] := rfl
  have hr : (w.record (.responding p overflow dev buffer)).log.filter L2event.isResponding =
      w.log.filter L2event.isResponding ++ [.responding p overflow dev buffer] := by
    simp [hl, L2event.isResponding]
  have hq : ∀ q, lastRequest q (w.record (.responding p overflow dev buffer)).log = lastRequest q w.log := fun q => by
    rw [hl, lastRequest_append]
  simp only [L2capLink.view, hr, hq]
  simp only [hl, configHistory_append]
  rfl

omit hk in
/-- A response with all the options is an answer. -/
theorem answered_response (p : Nat) (h : ConfigHistory) (msgId cid : Nat) (opts : List UInt8) :
    (h.step p (.emitted (some p) l2capSignalConfigRsp msgId
      (leBytes 2 cid ++ leBytes 2 (configFlags 0) ++ leBytes 2 l2capConfigResOk ++ opts))).answered = true := by
  have hflags : word (leBytes 2 cid ++ leBytes 2 (configFlags 0) ++ leBytes 2 l2capConfigResOk ++ opts) 1 = 0 := by
    simp [word, slice, leBytes, leVal, configFlags]
  have hresult : word (leBytes 2 cid ++ leBytes 2 (configFlags 0) ++ leBytes 2 l2capConfigResOk ++ opts) 2 =
      l2capConfigResOk := by
    simp [word, slice, leBytes, leVal, l2capConfigResOk]
  have hne : ¬ (p = p ∧ l2capSignalConfigRsp = l2capSignalConfigReq) := fun h => absurd h.2 (by decide)
  rw [ConfigHistory.step, if_neg hne, if_pos ⟨rfl, rfl, by rw [hflags]; rfl, hresult⟩]

/-- **A response keeps the invariant**: it takes the channel on only if it was final, or if it was left in the queue
before its end. -/
theorem inv_sendResponse {w : L2capLink} (h : w.view.Inv host.rc) (p : Nat) (conf : ConfigureData) (msgId : Nat) :
    (configSendResponse host w p conf msgId).2.view.Inv host.rc := by
  unfold configSendResponse configResponse
  simp only
  generalize hresult : responseResult conf = result
  generalize hopts : l2capConfigWrite conf.params (responseStart conf) (w.channels p).remoteMtu = opts
  generalize hbody : leBytes 2 (w.channels p).remoteChannelId ++ leBytes 2 (configFlags opts.1) ++ leBytes 2 result ++
    opts.2 = body
  generalize hbuf : (cmdPackets host l2capSignalConfigRsp msgId body).getD [] = buffer
  have hresp : (w.record (.responding p opts.1 w.dev buffer)).view.Inv host.rc := by
    rw [view_responding]
    refine ⟨h.1, fun hc => h.2 ?_⟩
    simp only [LinkView.Clean, List.all_append, Bool.and_eq_true] at hc ⊢
    exact hc.1
  have hodd : ∀ q, some p = some q → l2capSignalConfigRsp % 2 = 0 → l2capSignalConfigRsp ≠ l2capSignalConfigReq →
      (w.record (.responding p opts.1 w.dev buffer)).view.expected q ≠ l2capSignalConfigRsp := fun _ _ he => by cases he
  have hsent : ((w.record (.responding p opts.1 w.dev buffer)).send host (some p) l2capSignalConfigRsp msgId body
      buffer).2.view.Inv host.rc := inv_send hresp hodd msgId body buffer
  have hrc : ((w.record (.responding p opts.1 w.dev buffer)).send host (some p) l2capSignalConfigRsp msgId body
      buffer).1 = (bteAclSendMessage host.rc w.dev buffer).1 := rfl
  have hview : ((w.record (.responding p opts.1 w.dev buffer)).send host (some p) l2capSignalConfigRsp msgId body
      buffer).2.view = _ := view_send _ (some p) l2capSignalConfigRsp msgId body buffer
  rw [view_responding] at hview
  generalize (w.record (.responding p opts.1 w.dev buffer)).send host (some p) l2capSignalConfigRsp msgId body buffer = r
    at hsent hrc hview ⊢
  generalize hw : (r.2.modify p fun l2cap => { l2cap with
    configureReq := some (conf.sentUpTo (decide (r.1 ≠ 0)) opts.1) }) = w'
  have hv' : w'.view = r.2.view := by rw [← hw]; simp
  have hinv : w'.view.Inv host.rc := by rwa [hv']
  split
  · exact hinv
  · rename_i hpending
    split
    · rename_i hok
      refine inv_setState hk (hinv.but p) (fun hne hc => ?_) fun _ => hinv
      have hp := hinv.2 hc p
      -- nothing pending: the options were all written, as the packet did not stall
      have hall : opts.1 = 0 := by
        rw [hv', hview] at hc
        simp only [LinkView.Clean, List.all_append, List.all_cons, List.all_nil, Unstalled, Bool.and_eq_true,
          Bool.or_eq_true, beq_iff_eq, bne_iff_ne, ← hrc] at hc
        rcases hc.2.1 with hz | hne
        · exact hz
        · by_contra hpos
          apply hpending
          simp [ConfigureData.sentUpTo, hne, Nat.pos_of_ne_zero hpos]
      have hanswered : (w'.view.history p).answered = true := by
        rw [hv', hview, ← hbody, hall, hok]
        exact answered_response p (w.view.history p) msgId (w.channels p).remoteChannelId opts.2
      have hst : (w'.channels p).state = w'.view.state p := rfl
      rw [hst] at hne ⊢
      exact ConfigHistory.allows_responseSent hp hanswered hne
    · exact hinv

theorem inv_configSend {w : L2capLink} (h : w.view.Inv host.rc) (p : Nat) (conf : ConfigureData) (msgId : Nat) :
    (l2capConfigSend host w p conf msgId).2.view.Inv host.rc := by
  unfold l2capConfigSend
  split
  · exact inv_sendResponse hk h p conf msgId
  · exact inv_sendRequest hk h p conf

theorem inv_configure {w : L2capLink} (h : w.view.Inv host.rc) (p : Nat) (params : Option ConfigureParams)
    (callback : L2capClientCb) (userdata : Nat) :
    (bteL2capConfigure host w p params callback userdata).view.Inv host.rc := by
  have hsent := inv_configSend hk h p { ConfigureData.zero with params := params.getD .zero } 0
  unfold bteL2capConfigure
  simp only
  split
  · exact inv_configured hk h _ _ _ _ _
  · split
    · exact inv_configured hk h _ _ _ _ _
    · split
      · simpa using hsent
      · exact inv_configured hk hsent _ _ _ _ _

/-! ## Connecting a channel -/

theorem inv_connected {w : L2capLink} (h : w.view.Inv host.rc) (about : Nat) (cb : L2capClientCb) (p : Option Nat)
    (reply : Option ConnectionResponse) (userdata : Nat) :
    (connected host w about cb p reply userdata).view.Inv host.rc := by
  have h' : (w.record (.connectCb about cb reply)).view.Inv host.rc := by rwa [view_connectCb]
  unfold connected
  simp only
  split
  · exact inv_call hk h' _ _
  · unfold newConfiguredConnectCb
    simp only
    split
    · exact h'
    · split
      · exact h'
      · exact inv_call hk h' _ _
    · split
      · exact h'
      · exact inv_configure hk (by simpa using h) _ _ _ _
  · exact h'
  · exact h'

theorem inv_connectionRequest {w : L2capLink} (h : w.view.Inv host.rc) (p : Nat) :
    (l2capConnectionRequest host w p).2.view.Inv host.rc := by
  have hne : l2capSignalConnReq ≠ l2capSignalConfigReq := by decide
  unfold l2capConnectionRequest
  split
  · exact h
  · simp only
    split
    · exact inv_setState_free hk (inv_sendSignal (by simpa using h) p hne _) p rfl
    · exact inv_sendSignal (by simpa using h) p hne _

omit hk in
theorem inv_alloc {rc : Nat → Int} {w : L2capLink} (h : w.view.Inv rc) (outgoing : Bool) :
    (w.alloc outgoing).2.view.Inv rc := by
  rw [L2capLink.alloc, view_record]
  swap
  · trivial
  constructor
  · intro q hq
    by_cases hqp : q = w.allocated
    · subst hqp
      simp [L2capLink.view, bteL2capNew, l2capSignalConfigRsp] at hq
    · refine h.1 q ?_
      simpa [L2capLink.alloc, L2capLink.view, Function.update_of_ne hqp] using hq
  · intro hc q
    by_cases hqp : q = w.allocated
    · subst hqp
      simp [L2capLink.view, bteL2capNew, ConfigHistory.allows]
    · simpa [L2capLink.alloc, L2capLink.view, Function.update_of_ne hqp] using h.2 hc q

theorem inv_newOutgoing {w : L2capLink} (h : w.view.Inv host.rc) (psm : Nat) (ready : Bool) (callback : L2capClientCb)
    (userdata : Nat) : (bteL2capNewOutgoing host w psm ready callback userdata).view.Inv host.rc := by
  have hnew := inv_alloc h true
  unfold bteL2capNewOutgoing
  simp only
  split
  · exact inv_connected hk (by simpa using hnew) _ _ _ _ _
  · rename_i w' hadd
    rw [← view_addClient hadd] at hnew
    have hreq := inv_connectionRequest hk (w := w'.modify (w.alloc true).1 fun l2cap =>
      { l2cap with userdata := userdata, psm := psm, clientCb := callback }) (by simpa using hnew) (w.alloc true).1
    split
    · split
      · exact hreq
      · exact inv_connected hk (by simpa using hreq) _ _ _ _ _
    · simpa using hnew

omit hk in
theorem inv_newConnected {rc : Nat → Int} {w : L2capLink} (h : w.view.Inv rc) (psm channelId : Nat) :
    (bteL2capNewConnected w psm channelId).2.view.Inv rc := by
  have hnew := inv_alloc h false
  unfold bteL2capNewConnected
  simp only
  split
  · simpa using hnew
  · rename_i w' hadd
    rw [← view_addClient hadd] at hnew
    simpa using hnew

/-! ## Incoming commands -/

omit hk in
/-- A handler that keeps the invariant whatever header it reads. -/
theorem inv_withSignalHeader {rc : Nat → Int} {w : L2capLink} (h : w.view.Inv rc) (reader : List UInt8)
    (len neededLen : Nat) {handle : List UInt8 → List UInt8 → Handled}
    (hh : ∀ header rest, (handle header rest).link.view.Inv rc) :
    (withSignalHeader w reader len neededLen handle).link.view.Inv rc := by
  unfold withSignalHeader
  split
  · exact h
  · exact hh _ _

theorem inv_connectAnswered {w : L2capLink} (h : w.view.Inv host.rc) (p : Nat) (reply : ConnectionResponse)
    (reader : List UInt8) : (connectAnswered host w p reply reader).link.view.Inv host.rc := by
  unfold connectAnswered
  simp only
  split
  · exact h
  · split
    · rw [Handled.of, view_unref]
      exact inv_connected hk h _ _ _ _ _
    · exact inv_connected hk h _ _ _ _ _

theorem inv_connectCb {w : L2capLink} (h : w.view.Inv host.rc) (p : Nat) (reader : List UInt8) (respLen : Nat) :
    (l2capConnectCb host w p reader respLen).link.view.Inv host.rc := by
  unfold l2capConnectCb
  refine inv_withSignalHeader h reader respLen 8 fun data rest => ?_
  simp only
  split
  · rw [Handled.of, view_unref]
    exact inv_connected hk (inv_setState_free hk h p rfl) _ _ _ _ _
  · have hset : (if word data 2 = connRespResOk then l2capSetState host w p .waitConfig else w).view.Inv host.rc := by
      split
      · exact inv_setState_free hk h p rfl
      · exact h
    refine inv_connectAnswered hk ?_ p _ rest
    simpa using hset

theorem inv_handleConnectionReq {w : L2capLink} (h : w.view.Inv host.rc) (id : Nat) (reader : List UInt8)
    (reqLen : Nat) : (aclL2capHandleConnectionReq host w id reader reqLen).link.view.Inv host.rc := by
  unfold aclL2capHandleConnectionReq
  refine inv_withSignalHeader h reader reqLen 4 fun header rest => ?_
  simp only
  have hserver : (l2capServerHandleConnectionReq host w (word header 0) (word header 1)).2.view.Inv host.rc := by
    have hnew := inv_newConnected h (word header 0) (word header 1)
    unfold l2capServerHandleConnectionReq
    split
    · split
      · rename_i heq
        rwa [heq] at hnew
      · rename_i heq
        rw [heq] at hnew
        simpa using hnew
    · exact h
  split
  · rename_i heq
    rw [heq] at hserver
    exact inv_cmdReply hserver none (by decide) _ _
  · rename_i heq
    rw [heq] at hserver
    exact inv_setState_free hk (inv_cmdReply hserver none (by decide) _ _) _ rfl

theorem inv_deliverConfigureReply {w : L2capLink} (h : w.view.Inv host.rc) (p : Nat) :
    (deliverConfigureReply host w p).view.Inv host.rc := by
  unfold deliverConfigureReply
  simp only
  rw [view_modify]
  · exact inv_configured hk h _ _ _ _ _
  · exact fun _ => ⟨rfl, rfl⟩

omit hk in
theorem view_handled (w : L2capLink) (p id expectedId flags result : Nat) (last : Option Nat) :
    (w.record (.handled p id expectedId flags result last)).view = { w.view with
      history := fun q => (w.view.history q).step q (.handled p id expectedId flags result last) } := by
  have hl : (w.record (.handled p id expectedId flags result last)).log =
      w.log ++ [.handled p id expectedId flags result last] := rfl
  have hr : (w.record (.handled p id expectedId flags result last)).log.filter L2event.isResponding =
      w.log.filter L2event.isResponding := by simp [hl, L2event.isResponding]
  have hq : ∀ q, lastRequest q (w.record (.handled p id expectedId flags result last)).log = lastRequest q w.log :=
    fun q => by rw [hl, lastRequest_append]
  simp only [L2capLink.view, hr, hq]
  simp only [hl, configHistory_append]
  rfl

omit hk in
/-- A response that was handled concerns only the channel that awaited it. -/
theorem inv_handled {rc : Nat → Int} {w : L2capLink} (h : w.view.Inv rc) (p id expectedId flags result : Nat)
    (last : Option Nat) : (w.record (.handled p id expectedId flags result last)).view.InvBut rc p := by
  rw [view_handled]
  refine ⟨h.1, fun hc q hq => ?_⟩
  have hpq : p ≠ q := fun hpq => hq hpq.symm
  simpa [ConfigHistory.step, hpq] using h.2 hc q

/-- **A final positive response**: the channel goes on with what it has been promised. -/
theorem inv_accepted {w : L2capLink} (h : w.view.Inv host.rc) (p id : Nat) :
    (l2capSetState host
      (w.record (.handled p id id 0 l2capConfigResOk (some l2capSignalConfigReq))) p
      (responseAccepted ((w.record (.handled p id id 0 l2capConfigResOk (some l2capSignalConfigReq))).channels
        p).state)).view.Inv host.rc := by
  have hbut := inv_handled h p id id 0 l2capConfigResOk (some l2capSignalConfigReq)
  have hview := view_handled w p id id 0 l2capConfigResOk (some l2capSignalConfigReq)
  generalize w.record (.handled p id id 0 l2capConfigResOk (some l2capSignalConfigReq)) = w' at hbut hview ⊢
  have hst : (w'.channels p).state = w.view.state p := congrFun (congrArg LinkView.state hview) p
  rw [hst]
  have hhist : w'.view.history p = { w.view.history p with accepted := true, asked := false } := by
    rw [hview]; simp [ConfigHistory.step]
  have hvst : w'.view.state p = w.view.state p := by rw [hview]
  have hclean : w'.view.Clean host.rc → w.view.Clean host.rc := by rw [hview]; exact fun h => h
  refine inv_setState hk hbut (fun hne hc => ?_) fun hsame => ⟨hbut.1, fun hc q => ?_⟩
  · have hp := h.2 (hclean hc) p
    rw [hvst] at hne
    rw [hhist, hvst]
    exact ConfigHistory.allows_responseAccepted hp hne
  · by_cases hq : q = p
    · subst hq
      have hp := h.2 (hclean hc) q
      rw [hvst] at hsame
      rw [hhist, hvst]
      exact ConfigHistory.allows_of_responseAccepted hp hsame
    · exact hbut.2 hc q hq

/-- A final negative response takes the channel back. -/
theorem inv_refused {w : L2capLink} (h : w.view.Inv host.rc) (p id result : Nat) (last : Option Nat) :
    (l2capSetState host (w.record (.handled p id id 0 result last)) p
      (responseRefused ((w.record (.handled p id id 0 result last)).channels p).state)).view.Inv host.rc := by
  have hbut := inv_handled h p id id 0 result last
  have hview := view_handled w p id id 0 result last
  generalize w.record (.handled p id id 0 result last) = w' at hbut hview ⊢
  have hst : (w'.channels p).state = w.view.state p := congrFun (congrArg LinkView.state hview) p
  rw [hst]
  have hanswered : (w'.view.history p).answered = (w.view.history p).answered := by
    rw [hview]; simp [ConfigHistory.step]
  have haccepted : (w.view.history p).accepted → (w'.view.history p).accepted := by
    rw [hview]; intro hacc; simp [ConfigHistory.step, hacc]
  have hvst : w'.view.state p = w.view.state p := by rw [hview]
  have hclean : w'.view.Clean host.rc → w.view.Clean host.rc := by rw [hview]; exact fun h => h
  refine inv_setState hk hbut (fun hne hc => ?_) fun hsame => ⟨hbut.1, fun hc q => ?_⟩
  · have hp := h.2 (hclean hc) p
    rw [hvst] at hne ⊢
    exact ConfigHistory.allows_responseRefused hp hanswered hne
  · by_cases hq : q = p
    · subst hq
      have hp := h.2 (hclean hc) q
      rw [hvst] at hsame ⊢
      exact ConfigHistory.allows_of_responseRefused hp hanswered haccepted hsame
    · exact hbut.2 hc q hq

omit hk in
/-- A response with a flag is not final, and changes no history. -/
theorem inv_continued {rc : Nat → Int} {w : L2capLink} (h : w.view.Inv rc) (p id expectedId result : Nat) {flags : Nat}
    (hf : flags ≠ 0) (last : Option Nat) : (w.record (.handled p id expectedId flags result last)).view.Inv rc := by
  rw [view_handled]
  refine ⟨h.1, fun hc q => ?_⟩
  simpa [ConfigHistory.step, hf] using h.2 hc q

/-- **Handling a response keeps the invariant** if it answers a Configuration Request. -/
theorem inv_finishConfigResp {w : L2capLink} (h : w.view.Inv host.rc) (p id flags result : Nat) :
    (finishConfigResp host w p flags result
      (.handled p id id flags result (some l2capSignalConfigReq))).view.Inv host.rc := by
  unfold finishConfigResp
  split
  · rename_i hflags
    subst hflags
    split
    · rename_i hok
      subst hok
      refine inv_accepted hk (inv_deliverConfigureReply hk ?_ p) p id
      simpa using h
    · exact inv_deliverConfigureReply hk (inv_refused hk h p id result _) p
  · rename_i hflags
    have hrec := inv_continued h p id id result hflags (some l2capSignalConfigReq)
    simp only
    split
    · exact inv_configSend hk hrec p _ _
    · exact hrec

theorem inv_handleConfigResp {w : L2capLink} (h : w.view.Inv host.rc) {p id : Nat}
    (hid : (w.channels p).expectedResponseId = id) (hcode : (w.channels p).expectedResponseCode = l2capSignalConfigRsp)
    (reader : List UInt8) (respLen : Nat) : (l2capHandleConfigResp host w p id reader respLen).link.view.Inv host.rc := by
  unfold l2capHandleConfigResp
  refine inv_withSignalHeader h reader respLen 6 fun header rest => ?_
  simp only [Handled.of, hid]
  generalize hw : w.modify p _ = w'
  have hview : w'.view = w.view := by rw [← hw]; simp
  have hlast : lastRequest p w'.log = some l2capSignalConfigReq := by
    have hlog : w'.log = w.log := by rw [← hw]; rfl
    rw [hlog]
    exact h.1 p hcode
  rw [hlast]
  exact inv_finishConfigResp hk (by rwa [hview]) p id _ _

theorem inv_sendRespPacket {w : L2capLink} (h : w.view.Inv host.rc) (p msgId : Nat) :
    (l2capConfigSendRespPacket host w p msgId).2.view.Inv host.rc := by
  unfold l2capConfigSendRespPacket
  simp only
  rw [view_modify]
  · exact inv_configSend hk h p _ _
  · intro l
    split <;> exact ⟨rfl, rfl⟩

omit hk in
theorem inv_replyTypeError {rc : Nat → Int} {w w' : L2capLink} (h : w.view.Inv rc) {p id : Nat} {reader : List UInt8}
    {reqLen replySize : Nat} (hw : l2capConfigureReplyTypeError host w p id reader reqLen replySize = some w') :
    w'.view.Inv rc := by
  rw [l2capConfigureReplyTypeError, Option.map_eq_some_iff] at hw
  obtain ⟨writes, _, rfl⟩ := hw
  exact inv_send h (fun _ _ he => by cases he) _ _ _

omit hk in
@[simp] theorem view_acceptConfigure (w : L2capLink) (p : Nat) : (acceptConfigure w p).view = w.view := by
  unfold acceptConfigure
  simp only
  split
  · split
    · rw [view_modify, view_configApply]
      exact fun _ => ⟨rfl, rfl⟩
    · exact view_configApply ..
  · rfl

theorem inv_configureRequested {w : L2capLink} (h : w.view.Inv host.rc) (p id : Nat) :
    (configureRequested host w p id).view.Inv host.rc := by
  unfold configureRequested
  simp only
  refine inv_configSend hk ?_ p _ id
  rw [view_acceptConfigure]
  split
  · exact h
  · exact inv_call hk h _ _

theorem inv_answerConfigureReq {w w' : L2capLink} (h : w.view.Inv host.rc) {p id flags : Nat} {parsed : ConfigParsed}
    {reader : List UInt8} {reqLen : Nat} (hw : answerConfigureReq host w p id flags parsed reader reqLen = some w') :
    w'.view.Inv host.rc := by
  unfold answerConfigureReq at hw
  split at hw
  · exact inv_replyTypeError h hw
  · cases hw
    exact h
  · split at hw
    · cases hw
      exact inv_cmdReply h (some p) (by decide) id _
    · cases hw
      exact inv_configureRequested hk h p id

omit hk in
@[simp] theorem view_finishConfigureReq (w : L2capLink) (p flags : Nat) : (finishConfigureReq w p flags).view = w.view := by
  refine view_modify w p fun l => ?_
  split
  · exact ⟨rfl, rfl⟩
  · split <;> exact ⟨rfl, rfl⟩

theorem inv_handleConfigureReqOn {w : L2capLink} (h : w.view.Inv host.rc) (p id flags : Nat) (reader rest : List UInt8)
    (reqLen : Nat) : (handleConfigureReqOn host w p id flags reader rest reqLen).link.view.Inv host.rc := by
  unfold handleConfigureReqOn
  simp only
  split
  · rw [Handled.of, view_unref]
    exact inv_sendRespPacket hk (by simpa using h) p id
  · split
    · simpa using h
    · rename_i hans
      rw [Handled.of, view_unref, view_finishConfigureReq]
      exact inv_answerConfigureReq hk (by simpa using h) hans

theorem inv_handleConfigureReq {w : L2capLink} (h : w.view.Inv host.rc) (id : Nat) (reader : List UInt8) (reqLen : Nat) :
    (aclL2capHandleConfigureReq host w id reader reqLen).link.view.Inv host.rc := by
  unfold aclL2capHandleConfigureReq
  refine inv_withSignalHeader h reader reqLen 4 fun header rest => ?_
  split
  · exact inv_rejectCommand h _ _ _
  · exact inv_handleConfigureReqOn hk h _ _ _ _ _ _

theorem inv_handleEchoResp {w : L2capLink} (h : w.view.Inv host.rc) (p : Nat) (reader : List UInt8) :
    (l2capHandleEchoResp host w p reader).link.view.Inv host.rc := by
  unfold l2capHandleEchoResp
  simp only
  split
  · exact inv_call hk h _ _
  all_goals exact h

theorem inv_echoResponder (reader : List UInt8) :
    ∀ (is : List (Fin 4)) {w : L2capLink}, w.view.Inv host.rc → (echoResponder host reader is w).2.2.view.Inv host.rc
  | [], _, h => h
  | i :: is, w, h => by
    unfold echoResponder
    split
    · exact inv_echoResponder reader is h
    · split
      · exact inv_echoResponder reader is h
      · simp only
        split
        · exact inv_call hk h _ _
        · exact inv_echoResponder reader is (inv_call hk h _ _)

theorem inv_handleEchoReq {w : L2capLink} (h : w.view.Inv host.rc) (id : Nat) (reader : List UInt8) :
    (aclL2capHandleEchoReq host w id reader).link.view.Inv host.rc := by
  have hr := inv_echoResponder hk reader (List.finRange 4) h
  have hnone : ∀ {w : L2capLink} q, none = some q → l2capSignalEchoRsp % 2 = 0 →
      l2capSignalEchoRsp ≠ l2capSignalConfigReq → w.view.expected q ≠ l2capSignalConfigRsp := fun _ hq => by cases hq
  have hreply : (echoReply host (echoResponder host reader (List.finRange 4) w).2.2 reader
      (echoResponder host reader (List.finRange 4) w).1).2.2.view.Inv host.rc := by
    unfold echoReply
    cases echoWriter (echoResponder host reader (List.finRange 4) w).2.2
      (echoResponder host reader (List.finRange 4) w).1 with
    | none => exact hr
    | some c => exact inv_call hk hr _ _
  unfold aclL2capHandleEchoReq
  simp only
  generalize aclL2capCreateCmd host l2capSignalEchoRsp id (echoResponder host reader (List.finRange 4) w).2.1 = writer
  cases writer with
  | none => exact hr
  | some writer => exact inv_send hreply hnone _ _ _

theorem inv_handleInfoResp {w : L2capLink} (h : w.view.Inv host.rc) (p : Nat) (reader : List UInt8) (respLen : Nat) :
    (l2capHandleInfoResp host w p reader respLen).link.view.Inv host.rc := by
  unfold l2capHandleInfoResp
  refine inv_withSignalHeader h reader respLen 4 fun header rest => ?_
  simp only [Handled.of]
  split
  · exact inv_call hk h _ _
  all_goals exact h

omit hk in
theorem inv_handleInfoReq {w : L2capLink} (h : w.view.Inv host.rc) (id : Nat) (reader : List UInt8) (reqLen : Nat) :
    (aclL2capHandleInfoReq host w id reader reqLen).link.view.Inv host.rc := by
  unfold aclL2capHandleInfoReq
  refine inv_withSignalHeader h reader reqLen 2 fun header rest => ?_
  exact inv_cmdReply h none (by decide) id _

theorem inv_handleDisconnectResp {w : L2capLink} (h : w.view.Inv host.rc) (p : Nat) (reader : List UInt8)
    (respLen : Nat) : (l2capHandleDisconnectResp host w p reader respLen).link.view.Inv host.rc := by
  unfold l2capHandleDisconnectResp
  refine inv_withSignalHeader h reader respLen 4 fun header rest => ?_
  simp only
  split
  · exact h
  · exact inv_close hk h p _

theorem inv_handleDisconnectReq {w : L2capLink} (h : w.view.Inv host.rc) (id : Nat) (reader : List UInt8)
    (reqLen : Nat) : (aclL2capHandleDisconnectReq host w id reader reqLen).link.view.Inv host.rc := by
  unfold aclL2capHandleDisconnectReq
  refine inv_withSignalHeader h reader reqLen 4 fun header rest => ?_
  split
  · exact inv_rejectCommand h _ _ _
  · rename_i p _
    have hsent : (l2capSendDisconnectResp host w p id).2.view.Inv host.rc := by
      unfold l2capSendDisconnectResp
      exact inv_cmdReply h (some p) (by decide) id _
    simp only [Handled.of]
    exact inv_close hk hsent p hciOtherEndClosedConnUser

theorem inv_handleRequest {w : L2capLink} (h : w.view.Inv host.rc) (code id : Nat) (reader : List UInt8) (reqLen : Nat) :
    (aclL2capHandleRequest host w code id reader reqLen).link.view.Inv host.rc := by
  unfold aclL2capHandleRequest
  split
  · exact inv_handleConnectionReq hk h id reader reqLen
  split
  · exact inv_handleConfigureReq hk h id reader reqLen
  split
  · exact inv_handleEchoReq hk h id reader
  split
  · exact inv_handleInfoReq h id reader reqLen
  split
  · exact inv_handleDisconnectReq hk h id reader reqLen
  · exact h

theorem inv_l2capHandleResponse {w : L2capLink} (h : w.view.Inv host.rc) {p code id : Nat}
    (hid : (w.channels p).expectedResponseId = id)
    (hcode : code = l2capSignalCmdRej ∨ (w.channels p).expectedResponseCode = code) (reader : List UInt8) (respLen : Nat) :
    (l2capHandleResponse host w p code id reader respLen).link.view.Inv host.rc := by
  unfold l2capHandleResponse
  simp only
  split
  · split
    · exact inv_connectCb hk h p reader respLen
    · exact h
  split
  · rename_i hc
    split
    · refine inv_handleConfigResp hk h hid (hcode.resolve_left ?_ |>.trans hc) reader respLen
      rw [hc]
      decide
    · exact h
  split
  · exact inv_handleEchoResp hk h p reader
  split
  · exact inv_handleInfoResp hk h p reader respLen
  split
  · split
    · exact inv_handleDisconnectResp hk h p reader respLen
    · exact h
  · exact h

omit hk in
/-- What a search of the table finds. -/
theorem test_of_findClient {w : L2capLink} {test : L2cap → Bool} {p : Nat} (h : w.findClient test = some p) :
    test (w.channels p) = true := by
  obtain ⟨i, -, hi⟩ := List.exists_of_findSome?_eq_some h
  obtain ⟨q, -, hq⟩ := Option.bind_eq_some_iff.1 hi
  split at hq
  · rename_i ht
    cases hq
    exact ht
  · cases hq

omit hk in
theorem expects_iff (l2cap : L2cap) (code id : Nat) : l2cap.expects code id = true ↔
    l2cap.expectedResponseCount ≠ 0 ∧ id = l2cap.expectedResponseId ∧
      (code = l2cap.expectedResponseCode ∨ code = l2capSignalCmdRej) := by
  simp [L2cap.expects, and_assoc]

theorem inv_handleResponse {w : L2capLink} (h : w.view.Inv host.rc) (code id : Nat) (reader : List UInt8) (cmdLen : Nat) :
    (aclL2capHandleResponse host w code id reader cmdLen).link.view.Inv host.rc := by
  unfold aclL2capHandleResponse
  generalize hn : w.note (.response code id reader cmdLen w.table) = noted
  have hnoted : noted.view = w.view := by rw [← hn, view_note]
  simp only
  split
  · exact hnoted ▸ h
  · rename_i p hfind
    obtain ⟨-, hid, hcode⟩ := (expects_iff _ _ _).1 (test_of_findClient hfind)
    generalize hw : (bteL2capRef noted p).modify p countDown = w'
    have hch : w'.channels p = countDown { noted.channels p with refCount := (noted.channels p).refCount + 1 } := by
      rw [← hw]
      simp [L2capLink.modify, bteL2capRef]
    have hview : w'.view = w.view := by
      rw [← hw, view_modify, view_ref, hnoted]
      exact fun _ => ⟨rfl, rfl⟩
    have hid' : (w'.channels p).expectedResponseId = id := by rw [hch]; exact hid.symm
    have hcode' : code = l2capSignalCmdRej ∨ (w'.channels p).expectedResponseCode = code := by
      rw [hch]
      exact hcode.symm.imp_right fun hc => hc.symm
    have hresp := inv_l2capHandleResponse hk (show w'.view.Inv host.rc by rwa [hview]) hid' hcode' reader cmdLen
    simp only
    rw [view_unref]
    split
    · exact hresp
    · rwa [view_restore]

theorem inv_handleSignal {w : L2capLink} (h : w.view.Inv host.rc) (code id : Nat) (reader : List UInt8) (cmdLen : Nat) :
    (handleSignal host w code id reader cmdLen).link.view.Inv host.rc := by
  unfold handleSignal
  split
  · exact inv_handleRequest hk h code id reader cmdLen
  · exact inv_handleResponse hk h code id reader cmdLen

theorem inv_signallingLoop (totalLen size : Nat) :
    ∀ (fuel parsedLen : Nat) (reader : List UInt8) {w : L2capLink}, w.view.Inv host.rc →
      (signallingLoop host totalLen size fuel parsedLen reader w).2.view.Inv host.rc
  | 0, _, _, _, h => h
  | fuel + 1, parsedLen, reader, w, h => by
    unfold signallingLoop
    simp only
    split
    · split
      · exact h
      · split
        · exact inv_handleSignal hk h _ _ _ _
        · exact inv_signallingLoop totalLen size fuel _ _ (inv_handleSignal hk h _ _ _ _)
    · exact h

theorem inv_dataReceived {w : L2capLink} (h : w.view.Inv host.rc) (reader : BufferReader) :
    (aclDataReceivedCb host w reader).2.view.Inv host.rc := by
  unfold aclDataReceivedCb
  split
  · exact h
  · simp only
    split
    · exact inv_signallingLoop hk _ _ _ _ _ h
    · split
      · exact h
      · split
        · exact h
        · exact inv_call hk h _ _

/-! ## Runs -/

omit hk in
/-- A loop over the table keeps what each turn keeps. -/
theorem inv_forClients {rc : Nat → Int} {f : L2capLink → Nat → L2capLink}
    (hf : ∀ w p, w.view.Inv rc → (f w p).view.Inv rc) {w : L2capLink} (h : w.view.Inv rc) :
    (w.forClients f).view.Inv rc := by
  unfold L2capLink.forClients
  generalize List.finRange 4 = is
  induction is generalizing w with
  | nil => exact h
  | cons i is ih =>
    rw [List.foldl_cons]
    refine ih ?_
    split
    · exact h
    · exact hf _ _ h

theorem inv_aclConnected {w : L2capLink} (h : w.view.Inv host.rc) (status : Nat) :
    (aclConnectedCb host w status).view.Inv host.rc := by
  refine inv_forClients (fun w p h => ?_) h
  have hreq : (if status ≠ 0 then (false, w) else l2capConnectionRequest host w p).2.view.Inv host.rc := by
    split
    · exact h
    · exact inv_connectionRequest hk h p
  unfold aclL2capConnectedCb
  simp only
  generalize (if status ≠ 0 then (false, w) else l2capConnectionRequest host w p) = r at hreq ⊢
  split
  · exact hreq
  · rw [view_unref]
    exact inv_connected hk hreq _ _ _ _ _

theorem inv_aclDisconnected {w : L2capLink} (h : w.view.Inv host.rc) (reason : Nat) :
    (aclDisconnectedCb host w reason).view.Inv host.rc := by
  refine inv_forClients (fun w p h => ?_) h
  unfold l2capDisconnectCb
  simp only
  generalize hw : (if (w.channels p).state = .waitConfigReqRsp ∧ (w.channels p).clientCb ≠ .null then
    configured host w (w.channels p).clientCb p ⟨0xfffffff, 0xfffffff, .zero⟩ (w.channels p).cmdUserdata true
    else w) = w'
  have h' : w'.view.Inv host.rc := by
    rw [← hw]
    split
    · exact inv_configured hk h _ _ _ _ _
    · exact h
  split
  · rw [view_unref]
    exact inv_connected hk h' _ _ _ _ _
  · split
    · exact h'
    · exact inv_call hk h' _ _

omit hk in
theorem inv_ask {w : L2capLink} (h : w.view.Inv host.rc) (p : Nat) {code : Nat} (hcode : code ≠ l2capSignalConfigReq)
    (payload : List UInt8) (callback userdata : Nat) :
    (l2capAsk host w p code payload callback userdata).2.view.Inv host.rc := by
  have hsent := inv_sendSignal h p hcode payload
  unfold l2capAsk
  split
  · exact h
  · simp only
    split
    · simpa using hsent
    · exact hsent

/-- **Every call of the client keeps the invariant.** -/
theorem inv_apply {w : L2capLink} (h : w.view.Inv host.rc) (call : L2capCall) : (call.apply host w).view.Inv host.rc := by
  cases call with
  | newOutgoing psm ready callback userdata => exact inv_newOutgoing hk h _ _ _ _
  | newConfigured psm ready conf callback userdata =>
    unfold L2capCall.apply bteL2capNewConfigured
    exact inv_newOutgoing hk (by exact h) _ _ _ _
  | ref p => simpa [L2capCall.apply] using h
  | unref p => simpa [L2capCall.apply] using h
  | setUserdata p userdata => simpa [L2capCall.apply] using h
  | on p slot f =>
    rw [L2capCall.apply, view_modify]
    · exact h
    · intro l
      cases slot <;> exact ⟨rfl, rfl⟩
  | configure p params callback userdata => exact inv_configure hk h _ _ _ _
  | setConfigureReply p reply => simpa [L2capCall.apply, bteL2capSetConfigureReply] using h
  | disconnect p => exact inv_disconnect hk h p
  | sendMessage p buffer =>
    simp only [L2capCall.apply, bteL2capSendMessage]
    split
    · exact h
    · exact h
  | echo p data callback userdata => exact inv_ask h p (by decide) _ _ _
  | queryInfo p type callback userdata => exact inv_ask h p (by decide) _ _ _
  | reset => exact h

/-- **Every step keeps the invariant.** -/
theorem inv_step {w : L2capLink} (h : w.view.Inv host.rc) (op : L2capOp) : (w.step host op).view.Inv host.rc := by
  cases op with
  | api call => exact inv_apply hk h call
  | received reader => exact inv_dataReceived hk h reader
  | aclConnected status => exact inv_aclConnected hk h status
  | aclDisconnected reason => exact inv_aclDisconnected hk h reason
  | others dev nextLocalChannelId lastSignalId => exact h

end Functions

theorem rc_client (host : L2capHost) (client : L2capClient) (depth : Nat) : (host.client client depth).rc = host.rc := by
  cases depth <;> rfl

/-- A client that only makes calls keeps the invariant, callbacks in callbacks included. -/
theorem keeps_client (host : L2capHost) (client : L2capClient) : ∀ depth, (host.client client depth).Keeps
  | 0 => fun _ _ h => h
  | depth + 1 => by
    intro c w h
    have hk := keeps_client host client depth
    rw [rc_client] at h ⊢
    show (List.foldl (L2capCall.apply (host.client client depth)) w (client c w)).view.Inv host.rc
    generalize client c w = calls
    induction calls generalizing w with
    | nil => exact h
    | cons call calls ih =>
      rw [List.foldl_cons]
      refine ih _ ?_
      have hcall := inv_apply hk (show w.view.Inv (host.client client depth).rc by rwa [rc_client]) call
      rwa [rc_client] at hcall

theorem inv_start (rc : Nat → Int) (dev : AclOut) : (L2capLink.start dev).view.Inv rc := by
  constructor
  · intro q hq
    simp [L2capLink.start, L2capLink.view, bteL2capNew, l2capSignalConfigRsp] at hq
  · intro _ q
    simp [L2capLink.start, L2capLink.view, bteL2capNew, ConfigHistory.allows]

/-- In this step, no response that has to be continued is left waiting in the queue. -/
def L2capOp.Unstalled (host : L2capHost) (w : L2capLink) (op : L2capOp) : Prop :=
  (w.step host op).log.all (Bte.Unstalled host.rc)

instance (host : L2capHost) (w : L2capLink) (op : L2capOp) : Decidable (op.Unstalled host w) :=
  inferInstanceAs (Decidable (_ = true))

theorem clean_of_log {rc : Nat → Int} {w : L2capLink} (h : w.log.all (Unstalled rc)) : w.view.Clean rc := by
  simp only [LinkView.Clean, L2capLink.view, List.all_eq_true, List.mem_filter] at h ⊢
  exact fun e he => h e he.1

theorem handshakeSafe_of_allows {w : L2capLink} {p : Nat}
    (h : (w.view.history p).allows (w.view.state p)) : HandshakeSafe w p where
  opened := fun hs => by rw [show w.view.state p = .opened from hs] at h; exact h
  waitSendConfig := fun hs => by rw [show w.view.state p = .waitSendConfig from hs] at h; exact h
  waitConfigRsp := fun hs => by rw [show w.view.state p = .waitConfigRsp from hs] at h; exact h
  waitConfigReq := fun hs => by rw [show w.view.state p = .waitConfigReq from hs] at h; exact h
  waitConfigReqRsp := fun hs => by rw [show w.view.state p = .waitConfigReqRsp from hs] at h; exact h

/-- **A channel is open only after both halves of its configuration**, and every state in between keeps its promise: for
every client, every run of its calls and of what comes in, while no continued response is left in the queue. -/
theorem handshake_safe (host : L2capHost) (client : L2capClient) (depth : Nat) (dev : AclOut) (ops : List L2capOp)
    (hops : Sys.Admissible (L2capLink.step (host.client client depth))
      (fun w op => op.Unstalled (host.client client depth) w) (.start dev) ops) (p : Nat) :
    HandshakeSafe (Sys.run (L2capLink.step (host.client client depth)) (.start dev) ops) p := by
  generalize hh : host.client client depth = h at hops ⊢
  have hk : h.Keeps := hh ▸ keeps_client host client depth
  have hstep : ∀ (w : L2capLink) (op : L2capOp), (w.view.Inv h.rc ∧ w.log.all (Unstalled h.rc)) → op.Unstalled h w →
      ((w.step h op).view.Inv h.rc ∧ (w.step h op).log.all (Unstalled h.rc)) :=
    fun w op hw hop => ⟨inv_step hk hw.1 op, hop⟩
  have hrun := Sys.inv_run hstep ops (.start dev) ⟨inv_start h.rc dev, rfl⟩ hops
  exact handshakeSafe_of_allows (hrun.1.2 (clean_of_log hrun.2) p)

/-! ## Two runs -/

/-- A device that can take `n` packets. -/
def freeDev (n : Nat) : AclOut := ⟨n, n, [], 0, []⟩

/-- MTU 48, and three structures: 57 bytes of options. -/
def wideParams : ConfigureParams :=
  ⟨ConfigOption.mtu.bit ||| ConfigOption.qos.bit ||| ConfigOption.retxFlow.bit ||| ConfigOption.extFlow.bit, 48, 0, 0, 0,
    some ⟨0, 1, 2, 3, 4, 5, 6⟩, some ⟨0, 1, 2, 3, 4, 5⟩, some ⟨0, 1, 2, 3, 4, 5⟩⟩

/-- The peer connects a channel. -/
def peerConnects : L2capOp :=
  .received (signallingReader (signal l2capSignalConnReq 1 (leBytes 2 1 ++ leBytes 2 0x50)))

/-- The peer sends a request for channel 0x40. -/
def peerConfigures (id : Nat) (params : ConfigureParams) : L2capOp :=
  .received (signallingReader (signal l2capSignalConfigReq id
    (leBytes 2 0x40 ++ leBytes 2 0 ++ (l2capConfigWrite params 0 672).2)))

/-- The peer accepts our request. -/
def peerAccepts (id : Nat) : L2capOp :=
  .received (signallingReader (signal l2capSignalConfigRsp id (leBytes 2 0x40 ++ leBytes 2 0 ++ leBytes 2 l2capConfigResOk)))

/-- The response to the peer goes in two parts, the second of which it asks for. -/
def patientRun : List L2capOp :=
  [peerConnects, peerConfigures 2 wideParams, peerConfigures 3 .zero, .api (.configure 0 none 7 0), peerAccepts 1]

theorem handshake_safe_patientRun :
    ((Sys.run (L2capLink.step (plainHost.client keepChannels 1)) (.start (freeDev 8)) patientRun).channels 0).state =
        .opened ∧
      HandshakeSafe (Sys.run (L2capLink.step (plainHost.client keepChannels 1)) (.start (freeDev 8)) patientRun) 0 :=
  ⟨by decide, handshake_safe plainHost keepChannels 1 (freeDev 8) patientRun (by decide) 0⟩

/-- The same request while the controller has no buffer free: the first part of the response waits in the queue, and the
second is forgotten. -/
def crowdedOut : List L2capOp :=
  [peerConnects, peerConfigures 2 wideParams, .others (freeDev 8) 0x41 0, .api (.configure 0 none 7 0), peerAccepts 1]

/-- **The channel is open, and no response that ends was sent.** -/
theorem handshake_crowdedOut :
    ((Sys.run (L2capLink.step (plainHost.client keepChannels 1)) (.start (freeDev 0)) crowdedOut).channels 0).state =
        .opened ∧
      ¬ HandshakeSafe (Sys.run (L2capLink.step (plainHost.client keepChannels 1)) (.start (freeDev 0)) crowdedOut) 0 := by
  have hopen : ((Sys.run (L2capLink.step (plainHost.client keepChannels 1)) (.start (freeDev 0)) crowdedOut).channels
      0).state = .opened := by decide
  refine ⟨hopen, fun hsafe => ?_⟩
  have hanswered := (hsafe.opened hopen).2
  revert hanswered
  decide

end Bte
