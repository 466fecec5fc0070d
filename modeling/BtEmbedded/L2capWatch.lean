import BtEmbedded.L2capSignalling
import Mathlib.Tactic.Common
/-!
# L2capWatch — what the rest of a link may do to one channel (l2cap.c)

A function that works on one channel runs callbacks of the client, and these may call the stack about any other.  A
`Watch` names one channel and says what may happen to it meanwhile: how its fields may change, which events may be about
it, whether it may leave the table.  Every call of the client is followed once (`leads_apply`), down to any depth
(`heeds_client`); what a property needs of it is then a matter of choosing the watch.
-/
namespace Bte

open Bytes

/-- The channel an event is about. -/
def L2event.about : L2event → Option Nat
  | .state p _ _ => some p
  | .emitted p _ _ _ => p
  | .responding p _ _ _ => some p
  | .handled p _ _ _ _ _ => some p
  | .callback p _ => some p
  | .created p _ => some p
  | .connectCb p _ _ => some p
  | .configureCb p _ _ _ => some p
  | .configureStored p _ => some p
  | .aclDisconnect => none

/-- A function that is called only for what the peer sent. -/
def L2capCallback.ofPeer : L2capCallback → Bool
  | .configureRequest _ _ _ _ => true
  | .messageReceived _ _ _ _ => true
  | _ => false

/-- A function that a request of the client leaves in `cmd_data`. -/
def L2capClientCb.isRequest : L2capClientCb → Bool
  | .null => false
  | cb => !cb.isConnect

/-- What the client's own calls on a channel leave in the log: requests, and no responses. -/
def L2event.ofCall : L2event → Bool
  | .state _ _ _ => true
  | .emitted _ code _ _ => code % 2 == 0
  | .callback _ c => !c.ofPeer
  | .configureCb _ cb _ stored => !stored && cb.isRequest
  | .configureStored _ cb => cb.isRequest
  | _ => false

structure Watch where
  channel : Nat
  update : L2cap → L2cap → Prop
  refl : ∀ l, update l l
  trans : ∀ {a b c}, update a b → update b c → update a c
  event : L2event → Prop
  removed : Prop

namespace Watch

/-- One link leads to another, and the watched channel fares as it may. -/
structure Within (S : Watch) (w w' : L2capLink) : Prop where
  allocated : w.allocated ≤ w'.allocated
  update : S.update (w.channels S.channel) (w'.channels S.channel)
  log : ∃ es, w'.log = w.log ++ es ∧ ∀ e ∈ es, e.about = some S.channel → S.event e
  kept : ∀ i, w.clients i = some S.channel → w'.clients i = some S.channel ∨ S.removed
  placed : ∀ i, w'.clients i = some S.channel → w.clients i = some S.channel

/-- The same, of a channel that exists. -/
def Leads (S : Watch) (w w' : L2capLink) : Prop := S.channel < w.allocated → S.Within w w'

variable {S : Watch}

theorem Within.refl (w : L2capLink) : S.Within w w where
  allocated := le_rfl
  update := S.refl _
  log := ⟨[], by simp, by simp⟩
  kept := fun _ h => .inl h
  placed := fun _ h => h

theorem Within.trans {a b c : L2capLink} (h : S.Within a b) (h' : S.Within b c) : S.Within a c where
  allocated := h.allocated.trans h'.allocated
  update := S.trans h.update h'.update
  log := by
    obtain ⟨es, hes, hall⟩ := h.log
    obtain ⟨es', hes', hall'⟩ := h'.log
    refine ⟨es ++ es', by rw [hes', hes, List.append_assoc], fun e he => ?_⟩
    rcases List.mem_append.1 he with he | he
    · exact hall e he
    · exact hall' e he
  kept := fun i hi => (h.kept i hi).elim (h'.kept i) .inr
  placed := fun i hi => h.placed i (h'.placed i hi)

theorem Within.grows {w w' : L2capLink} (h : S.Within w w') : ∃ es, w'.log = w.log ++ es :=
  h.log.imp fun _ hes => hes.1

theorem Leads.refl (w : L2capLink) : S.Leads w w := fun _ => .refl w

theorem Leads.trans {a b c : L2capLink} (h : S.Leads a b) (h' : S.Leads b c) : S.Leads a c :=
  fun hp => (h hp).trans (h' (lt_of_lt_of_le hp (h hp).allocated))

/-! ## What may be done to the channel -/

/-- A change of a field that no decision of the code depends on. -/
def Passive (l l' : L2cap) : Prop :=
  l'.remoteChannelId = l.remoteChannelId ∧ l'.configureResp = l.configureResp ∧ l'.clientCb = l.clientCb ∧
    l'.state = l.state

/-- A change of what is expected, or asked, of the peer. -/
def Steady (l l' : L2cap) : Prop := Passive l l' ∧ l'.refCount = l.refCount

/-- What closing does. -/
def Closing (l l' : L2cap) : Prop :=
  l'.remoteChannelId = l.remoteChannelId ∧ l'.configureResp = l.configureResp ∧ l'.clientCb = l.clientCb ∧
    (l'.state = l.state ∨ l'.state = .closed ∨ l'.state = .waitDisconnect)

/-- What a request other than that of a configuration does: its function is stored. -/
def Asking (l l' : L2cap) : Prop :=
  l'.remoteChannelId = l.remoteChannelId ∧ l'.configureResp = l.configureResp ∧ l'.state = l.state ∧
    (l'.clientCb = l.clientCb ∨ l'.clientCb.isRequest)

/-- What any call does: no call of the client opens a channel, and no request is one for a connection. -/
def Calling (l l' : L2cap) : Prop :=
  l'.remoteChannelId = l.remoteChannelId ∧ l'.configureResp = l.configureResp ∧
    (l'.state = .opened → l.state = .opened) ∧ (l'.clientCb = l.clientCb ∨ l'.clientCb.isRequest)

theorem Asking.calling {l l' : L2cap} (h : Asking l l') : Calling l l' := ⟨h.1, h.2.1, fun ho => h.2.2.1 ▸ ho, h.2.2.2⟩

theorem Passive.asking {l l' : L2cap} (h : Passive l l') : Asking l l' := ⟨h.1, h.2.1, h.2.2.2, .inl h.2.2.1⟩

theorem Passive.closing {l l' : L2cap} (h : Passive l l') : Closing l l' := ⟨h.1, h.2.1, h.2.2.1, .inl h.2.2.2⟩

theorem Closing.calling {l l' : L2cap} (h : Closing l l') : Calling l l' := by
  refine ⟨h.1, h.2.1, fun ho => ?_, .inl h.2.2.1⟩
  rcases h.2.2.2 with hs | hs | hs
  · exact hs ▸ ho
  · cases hs.symm.trans ho
  · cases hs.symm.trans ho

/-- The client may change such fields. -/
def Touched (S : Watch) : Prop := ∀ l l', Passive l l' → S.update l l'

/-- Signals may be sent for the channel. -/
structure Signals (S : Watch) : Prop where
  update : ∀ l l', Steady l l' → S.update l l'
  event : ∀ e, e.ofCall → S.event e

/-- Requests may be made that leave the configuration alone. -/
structure Asked (S : Watch) : Prop where
  update : ∀ l l', Asking l l' → S.update l l'
  event : ∀ e, e.ofCall → S.event e

/-- The client may close the channel, and give it up. -/
structure Closed (S : Watch) : Prop where
  update : ∀ l l', Closing l l' → S.update l l'
  removed : S.removed
  event : ∀ e, e.ofCall → S.event e

/-- The client may do with it what it likes. -/
structure Called (S : Watch) : Prop where
  update : ∀ l l', Calling l l' → S.update l l'
  removed : S.removed
  event : ∀ e, e.ofCall → S.event e

/-- Anything may happen to it. -/
structure Free (S : Watch) : Prop where
  update : ∀ l l', S.update l l'
  removed : S.removed
  event : ∀ e, S.event e

theorem Free.closed (h : S.Free) : S.Closed where
  update := fun l l' _ => h.update l l'
  removed := h.removed
  event := fun e _ => h.event e

theorem Free.called (h : S.Free) : S.Called where
  update := fun l l' _ => h.update l l'
  removed := h.removed
  event := fun e _ => h.event e

theorem Called.closed (h : S.Called) : S.Closed where
  update := fun l l' hl => h.update l l' hl.calling
  removed := h.removed
  event := h.event

theorem Called.asked (h : S.Called) : S.Asked := ⟨fun l l' hl => h.update l l' hl.calling, h.event⟩

theorem Asked.signals (h : S.Asked) : S.Signals := ⟨fun l l' hl => h.update l l' hl.1.asking, h.event⟩

theorem Closed.touched (h : S.Closed) : S.Touched := fun l l' hl => h.update l l' hl.closing

theorem Closed.signals (h : S.Closed) : S.Signals := ⟨fun l l' hl => h.touched l l' hl.1, h.event⟩

end Watch

/-! ## The two halves of `l2cap_disconnect_cb` -/

/-- What `l2cap_disconnect_cb` takes for a pending configuration. -/
def L2cap.LooksConfiguring (l2cap : L2cap) : Prop := l2cap.state = .waitConfigReqRsp ∧ l2cap.clientCb ≠ .null

/-- The reply to a configuration that the link was lost under. -/
def lostConfigureReply : ConfigureReply := ⟨0xfffffff, 0xfffffff, .zero⟩

/-- A configuration gets the reply that the link is gone. -/
def configureLost (host : L2capHost) (w : L2capLink) (p : Nat) : L2capLink :=
  if (w.channels p).state = .waitConfigReqRsp ∧ (w.channels p).clientCb ≠ .null then
    configured host w (w.channels p).clientCb p lostConfigureReply (w.channels p).cmdUserdata true
  else w

/-- The reply to a connect that the link was lost under. -/
def lostReply : ConnectionResponse := ⟨0, 0, connRespResErrResource, 0⟩

/-- A connect gets its reply, else the client hears of the link. -/
def connectLost (host : L2capHost) (w : L2capLink) (p reason : Nat) : L2capLink :=
  if (w.channels p).remoteChannelId = 0 then
    bteL2capUnref (connected host w p (w.channels p).clientCb none (some lostReply) (w.channels p).userdata) p
  else
    match (w.channels p).aclDisconnectCb with
    | none => w
    | some f => w.call host p (.aclDisconnect f p reason (w.channels p).userdata)

theorem l2capDisconnectCb_eq (host : L2capHost) (w : L2capLink) (p reason : Nat) :
    l2capDisconnectCb host w p reason = connectLost host (configureLost host w p) p reason := rfl

/-- The client's functions keep to the watch. -/
def L2capHost.Heeds (host : L2capHost) (S : Watch) : Prop := ∀ c w, S.Leads w (host.react c w)

/-! ## The steps -/

section Steps

variable {S : Watch}

theorem leads_modify (w : L2capLink) {q : Nat} {f : L2cap → L2cap}
    (hq : q = S.channel → S.update (w.channels q) (f (w.channels q))) : S.Leads w (w.modify q f) := by
  intro _
  refine ⟨le_rfl, ?_, ⟨[], by simp [L2capLink.modify], by simp⟩, fun _ h => .inl h, fun _ h => h⟩
  unfold L2capLink.modify
  by_cases h : q = S.channel
  · subst h
    simpa using hq rfl
  · simpa [Function.update_of_ne (Ne.symm h)] using S.refl _

theorem leads_passive (w : L2capLink) {q : Nat} {f : L2cap → L2cap} (hf : ∀ l, Watch.Passive l (f l))
    (hq : q = S.channel → S.Touched) : S.Leads w (w.modify q f) :=
  leads_modify w fun h => hq h _ _ (hf _)

theorem leads_record (w : L2capLink) {e : L2event} (he : e.about = some S.channel → S.event e) :
    S.Leads w (w.record e) := by
  intro _
  refine ⟨le_rfl, S.refl _, ⟨[e], rfl, ?_⟩, fun _ h => .inl h, fun _ h => h⟩
  intro e' he'
  rw [List.mem_singleton.1 he']
  exact he

/-- What the channels share may change at any time. -/
theorem leads_shared {w w' : L2capLink} (hc : w'.channels = w.channels) (ha : w'.allocated = w.allocated)
    (ht : w'.clients = w.clients) (hl : w'.log = w.log) : S.Leads w w' := by
  intro _
  refine ⟨ha.ge, hc ▸ S.refl _, ⟨[], by simp [hl], by simp⟩, fun _ h => .inl (ht ▸ h), fun _ h => ht ▸ h⟩

theorem leads_note (w : L2capLink) (n : L2note) : S.Leads w (w.note n) := leads_shared rfl rfl rfl rfl

theorem leads_allot (w : L2capLink) {q : Nat} (id : Nat) (hq : q = S.channel → ∀ l l', S.update l l') :
    S.Leads w (w.allot q id) :=
  (leads_note w _).trans (leads_modify _ fun h => hq h _ _)

theorem leads_removeClient (w : L2capLink) {q : Nat} (hq : q = S.channel → S.removed) :
    S.Leads w (aclL2capRemoveClient w q) := by
  have hleft : S.Leads w { w with clients := fun i => if w.clients i = some q then none else w.clients i } := by
    intro _
    refine ⟨le_rfl, S.refl _, ⟨[], by simp, by simp⟩, fun i hi => ?_, fun i hi => ?_⟩
    · by_cases h : q = S.channel
      · exact .inr (hq h)
      · refine .inl ?_
        simp only [hi]
        rw [if_neg]
        exact fun heq => h (Option.some.inj heq).symm
    · simp only at hi
      split at hi
      · cases hi
      · exact hi
  unfold aclL2capRemoveClient
  simp only
  split
  · exact hleft.trans (leads_record _ (by simp [L2event.about]))
  · exact hleft

theorem leads_ref (w : L2capLink) {q : Nat} (hq : q = S.channel → S.Touched) : S.Leads w (bteL2capRef w q) :=
  leads_passive w (fun _ => ⟨rfl, rfl, rfl, rfl⟩) hq

theorem leads_unref (w : L2capLink) {q : Nat} (hq : q = S.channel → S.Touched ∧ S.removed) :
    S.Leads w (bteL2capUnref w q) := by
  have hdown : S.Leads w (w.modify q fun l2cap => { l2cap with refCount := l2cap.refCount - 1 }) :=
    leads_passive w (fun _ => ⟨rfl, rfl, rfl, rfl⟩) fun h => (hq h).1
  unfold bteL2capUnref
  simp only
  split
  · exact hdown.trans (leads_removeClient _ fun h => (hq h).2)
  · exact hdown

theorem leads_alloc (w : L2capLink) (outgoing : Bool) : S.Leads w (w.alloc outgoing).2 := by
  intro hp
  refine ⟨Nat.le_succ _, ?_, ⟨[.created w.allocated outgoing], rfl, ?_⟩, fun _ h => .inl h, fun _ h => h⟩
  · simpa [L2capLink.alloc, L2capLink.record, Function.update_of_ne hp.ne] using S.refl _
  · intro e he hab
    rw [List.mem_singleton.1 he] at hab
    exact absurd (Option.some.inj hab) hp.ne'

theorem leads_addClient {w w' : L2capLink} {q : Nat} (h : aclL2capAddClient w q = some w') (hq : q ≠ S.channel) :
    S.Leads w w' := by
  unfold aclL2capAddClient at h
  obtain ⟨i, hi, rfl⟩ := Option.map_eq_some_iff.1 h
  have hnone : w.clients i = none := by simpa using List.find?_some hi
  intro _
  refine ⟨le_rfl, S.refl _, ⟨[], by simp, by simp⟩, fun j hj => .inl ?_, fun j hj => ?_⟩
  · have hji : j ≠ i := fun hji => by rw [hji, hnone] at hj; cases hj
    simpa [Function.update_of_ne hji] using hj
  · by_cases hji : j = i
    · subst hji
      simp only [Function.update_self] at hj
      exact absurd (Option.some.inj hj) hq
    · simpa [Function.update_of_ne hji] using hj

theorem leads_send (host : L2capHost) (w : L2capLink) (q : Option Nat) (code id : Nat) (body : List UInt8)
    (buffer : List Packet) (hq : q = some S.channel → S.event (.emitted q code id body)) :
    S.Leads w (w.send host q code id body buffer).2 := by
  have hdev : S.Leads w { w with dev := (bteAclSendMessage host.rc w.dev buffer).2 } := leads_shared rfl rfl rfl rfl
  exact hdev.trans (leads_record _ hq)

theorem leads_enter (w : L2capLink) {q : Nat} (s : L2capState)
    (hs : q = S.channel → S.update (w.channels q) { w.channels q with state := s })
    (he : q = S.channel → ∀ e, e.ofCall → S.event e) : S.Leads w (w.enter q s) := by
  have hmodify : S.Leads w (w.modify q fun l2cap => { l2cap with state := s }) := leads_modify w hs
  exact hmodify.trans (leads_record _ fun h => he (Option.some.inj h) _ rfl)

theorem leads_nextSignalId (w : L2capLink) : S.Leads w w.nextSignalId.2 := leads_shared rfl rfl rfl rfl

theorem leads_nextChannelId (w : L2capLink) : S.Leads w w.nextChannelId.2 := leads_shared rfl rfl rfl rfl

theorem leads_markReplySent (w : L2capLink) (cd : Nat) : S.Leads w (w.markReplySent cd) := leads_shared rfl rfl rfl rfl

end Steps

/-! ## The functions -/

section Functions

variable {S : Watch} {host : L2capHost} (hh : host.Heeds S)
include hh

theorem leads_call (w : L2capLink) {q : Nat} (c : L2capCallback) (hq : q = S.channel → S.event (.callback q c)) :
    S.Leads w (w.call host q c) :=
  (leads_record w fun h => hq (Option.some.inj h)).trans (hh _ _)

theorem leads_newConfiguredStateChangedCb (w : L2capLink) {q : Nat} (state : L2capState) (userdata : Nat)
    (hq : q = S.channel → S.Closed) : S.Leads w (newConfiguredStateChangedCb host w q state userdata) := by
  have hunref : ∀ w, S.Leads w (bteL2capUnref w q) :=
    fun w => leads_unref w fun h => ⟨(hq h).touched, (hq h).removed⟩
  have hcall : ∀ w c, c.ofPeer = false → S.Leads w (w.call host q c) :=
    fun w c hc => leads_call hh w c fun h => (hq h).event _ (by simp [L2event.ofCall, hc])
  unfold newConfiguredStateChangedCb
  simp only
  split
  · refine Watch.Leads.trans ?_ (hunref _)
    refine Watch.Leads.trans ?_ (leads_markReplySent _ _)
    refine Watch.Leads.trans ?_ (hcall _ _ rfl)
    exact leads_passive w (fun _ => ⟨rfl, rfl, rfl, rfl⟩) fun h => (hq h).touched
  · split
    · refine Watch.Leads.trans ?_ (hunref _)
      split
      · exact .refl w
      · exact (hcall _ _ rfl).trans (leads_markReplySent _ _)
    · exact .refl w

theorem leads_stateChanged (w : L2capLink) {q : Nat} (state : L2capState) (hq : q = S.channel → S.Closed) :
    S.Leads w (stateChanged host w q state) := by
  have hcall : ∀ w c, c.ofPeer = false → S.Leads w (w.call host q c) :=
    fun w c hc => leads_call hh w c fun h => (hq h).event _ (by simp [L2event.ofCall, hc])
  unfold stateChanged
  split
  · exact .refl w
  · exact hcall _ _ rfl
  · unfold onL2capStateChanged
    split
    · refine Watch.Leads.trans ?_ (leads_unref _ fun h => ⟨(hq h).touched, (hq h).removed⟩)
      refine Watch.Leads.trans ?_ (hcall _ _ rfl)
      exact leads_passive w (fun _ => ⟨rfl, rfl, rfl, rfl⟩) fun h => (hq h).touched
    · exact .refl w
  · exact leads_newConfiguredStateChangedCb hh w state _ hq

theorem leads_setState (w : L2capLink) {q : Nat} (state : L2capState) (hq : q = S.channel → S.Closed)
    (hs : q = S.channel → S.update (w.channels q) { w.channels q with state := state }) :
    S.Leads w (l2capSetState host w q state) := by
  unfold l2capSetState
  split
  · exact .refl w
  · exact (leads_enter w state hs fun h => (hq h).event).trans (leads_stateChanged hh _ state hq)

omit hh in
theorem leads_sendSignal (w : L2capLink) {q code : Nat} (heven : code % 2 = 0) (payload : List UInt8)
    (hq : q = S.channel → S.Signals) : S.Leads w (l2capSendSignal host w q code payload).2 := by
  have hsignal : S.Leads w (l2capSignal host w q code payload).2 := by
    unfold l2capSignal
    simp only
    refine (leads_nextSignalId w).trans ?_
    split
    · exact (leads_note _ _).trans (leads_modify _ fun h => (hq h).update _ _ ⟨⟨rfl, rfl, rfl, rfl⟩, rfl⟩)
    · exact .refl _
  have hsend : ∀ w id buffer, S.Leads w (w.send host (some q) code id payload buffer).2 :=
    fun w id buffer => leads_send host w _ _ _ _ _ fun h => (hq (Option.some.inj h)).event _ (beq_iff_eq.2 heven)
  unfold l2capSendSignal
  generalize l2capSignal host w q code payload = signal at hsignal ⊢
  refine hsignal.trans ?_
  rcases signal with ⟨_ | buffer, w'⟩
  · exact .refl w'
  · exact hsend w' _ buffer

theorem leads_disconnected (w : L2capLink) {q : Nat} (reason : Nat) (hq : q = S.channel → S.Closed) :
    S.Leads w (disconnected host w q reason) := by
  unfold disconnected
  refine (leads_note w (.closed q)).trans ?_
  simp only
  split
  · exact .refl _
  · exact leads_call hh _ _ fun h => (hq h).event _ rfl

/-- A disconnection that is asked of the peer. -/
theorem leads_sendDisconnectReq (w : L2capLink) {q : Nat} (hq : q = S.channel → S.Signals)
    (hs : q = S.channel → ∀ l, S.update l { l with state := .waitDisconnect }) :
    S.Leads w (l2capSendDisconnectReq host w q).2 := by
  have hsent := @leads_sendSignal S host w q l2capSignalDisconnReq rfl
    (leBytes 2 (w.channels q).remoteChannelId ++ leBytes 2 (w.channels q).localChannelId) hq
  have hset : ∀ w, S.Leads w (l2capSetState host w q .waitDisconnect) := by
    intro w
    unfold l2capSetState
    split
    · exact .refl w
    · refine (leads_enter w .waitDisconnect (fun h => hs h _) fun h => (hq h).event).trans ?_
      -- only a client's function looks at this state
      unfold stateChanged
      split
      · exact .refl _
      · exact leads_call hh _ _ fun h => (hq h).event _ rfl
      · exact .refl _
      · exact .refl _
  unfold l2capSendDisconnectReq
  simp only
  generalize l2capSendSignal host w q l2capSignalDisconnReq
    (leBytes 2 (w.channels q).remoteChannelId ++ leBytes 2 (w.channels q).localChannelId) = r at hsent ⊢
  rcases r with ⟨_ | _, w'⟩
  · exact hsent
  · exact hsent.trans (hset w')

theorem leads_disconnect (w : L2capLink) {q : Nat} (hq : q = S.channel → S.Closed) :
    S.Leads w (bteL2capDisconnect host w q) := by
  unfold bteL2capDisconnect
  split
  · exact leads_sendDisconnectReq hh w (fun h => (hq h).signals) fun h _ =>
      (hq h).update _ _ ⟨rfl, rfl, rfl, .inr (.inr rfl)⟩
  · refine Watch.Leads.trans (leads_note w (.closing q (w.channels q).state)) ?_
    generalize w.note (.closing q (w.channels q).state) = noted
    refine Watch.Leads.trans ?_ (leads_disconnected hh _ _ hq)
    exact leads_setState hh _ _ hq fun h => (hq h).update _ _ ⟨rfl, rfl, rfl, .inr (.inl rfl)⟩

theorem leads_newConfiguredConfigureCb (w : L2capLink) {q : Nat} (reply : ConfigureReply) (userdata : Nat)
    (hq : q = S.channel → S.Closed) : S.Leads w (newConfiguredConfigureCb host w q reply userdata) := by
  unfold newConfiguredConfigureCb
  split
  · refine Watch.Leads.trans ?_ (leads_disconnect hh _ hq)
    exact (leads_call hh w _ fun h => (hq h).event _ rfl).trans (leads_markReplySent _ _)
  · exact .refl w

/-- What is left of the call once it is in the log. -/
theorem leads_configured_rest (w : L2capLink) (cb : L2capClientCb) {q : Nat} (reply : ConfigureReply) (userdata : Nat)
    (stored : Bool) (hq : q = S.channel → S.Closed) :
    S.Leads (w.record (.configureCb q cb reply stored)) (configured host w cb q reply userdata stored) := by
  unfold configured
  cases cb with
  | null => exact .refl _
  | client cmd f => exact leads_call hh _ _ fun h => (hq h).event _ rfl
  | newConfiguredConnect => exact .refl _
  | newConfiguredConfigure => exact leads_newConfiguredConfigureCb hh _ _ _ hq

theorem leads_configured (w : L2capLink) (cb : L2capClientCb) {q : Nat} (reply : ConfigureReply) (userdata : Nat)
    (stored : Bool) (hq : q = S.channel → S.Closed) (he : q = S.channel → S.event (.configureCb q cb reply stored)) :
    S.Leads w (configured host w cb q reply userdata stored) := by
  have hrecord : S.Leads w (w.record (.configureCb q cb reply stored)) := leads_record w fun h => he (Option.some.inj h)
  exact hrecord.trans (leads_configured_rest hh w cb reply userdata stored hq)

omit hh in
theorem leads_requestLoop {q : Nat} (params : ConfigureParams) (hq : q = S.channel → S.Closed) :
    ∀ (fuel startCmd msgId : Nat) (w : L2capLink),
      S.Leads w (configRequestLoop host q params fuel startCmd msgId w).2
  | 0, _, _, w => .refl w
  | fuel + 1, startCmd, msgId, w => by
    have hsend : ∀ n body buffer, S.Leads w ((w.note n).send host (some q) l2capSignalConfigReq msgId body buffer).2 :=
      fun n body buffer => (leads_note w n).trans (leads_send host _ _ _ _ _ _ fun h => (hq (Option.some.inj h)).event _ rfl)
    unfold configRequestLoop
    simp only
    split
    · exact hsend _ _ _
    · have hcount : ∀ (w : L2capLink) (n : Nat), S.Leads w (w.modify q fun l2cap => { l2cap with
          expectedResponseCode := l2capSignalConfigRsp
          expectedResponseCount := (l2cap.expectedResponseCount + 1) % 256
          expectedResponseId := n }) :=
        fun w n => leads_passive w (fun _ => ⟨rfl, rfl, rfl, rfl⟩) fun h => (hq h).touched
      split
      · refine Watch.Leads.trans ?_ (leads_requestLoop params hq fuel _ _ _)
        exact ((hsend _ _ _).trans (leads_nextSignalId _)).trans (hcount _ _)
      · exact (hsend _ _ _).trans (hcount _ _)

omit hh in
theorem requestSent_ne_opened (s : L2capState) : requestSent s ≠ .opened := by
  cases s <;> simp [requestSent]

theorem leads_sendRequest (w : L2capLink) {q : Nat} (conf : ConfigureData) (hq : q = S.channel → S.Called) :
    S.Leads w (configSendRequest host w q conf).2 := by
  have hloop := @leads_requestLoop S host q conf.params (fun h => (hq h).closed) (w.dev.aclAvailablePackets + 1) 0
    w.nextSignalId.1 w.nextSignalId.2
  unfold configSendRequest
  simp only
  refine (leads_nextSignalId w).trans (hloop.trans ?_)
  split
  · exact .refl _
  · refine leads_setState hh _ _ (fun h => (hq h).closed) fun h => (hq h).update _ _ ⟨rfl, rfl, fun ho => ?_, .inl rfl⟩
    exact absurd (show requestSent _ = .opened from ho) (requestSent_ne_opened _)

theorem leads_configure (w : L2capLink) {q : Nat} (params : Option ConfigureParams) {callback : L2capClientCb}
    (hcb : callback.isRequest) (userdata : Nat) (hq : q = S.channel → S.Called) :
    S.Leads w (bteL2capConfigure host w q params callback userdata) := by
  have hrefused : ∀ w reply, S.Leads w (configured host w callback q reply userdata false) :=
    fun w reply => leads_configured hh w callback reply userdata false (fun h => (hq h).closed)
      fun h => (hq h).event _ (by simp [L2event.ofCall, hcb])
  have hsent : ∀ conf, S.Leads w (l2capConfigSend host w q conf 0).2 := fun conf => leads_sendRequest hh w conf hq
  unfold bteL2capConfigure
  simp only
  split
  · exact hrefused _ _
  · split
    · exact hrefused _ _
    · split
      · refine Watch.Leads.trans ?_ (leads_record _ fun h => (hq (Option.some.inj h)).event _ hcb)
        refine Watch.Leads.trans (hsent _) (leads_modify _ fun h => ?_)
        exact (hq h).update _ _ ⟨rfl, rfl, fun ho => ho, .inr hcb⟩
      · exact Watch.Leads.trans (hsent _) (hrefused _ _)

omit hh in
theorem leads_ask (w : L2capLink) {q code : Nat} (heven : code % 2 = 0) (payload : List UInt8) (callback userdata : Nat)
    (hq : q = S.channel → S.Asked) : S.Leads w (l2capAsk host w q code payload callback userdata).2 := by
  unfold l2capAsk
  split
  · exact .refl w
  · have hsent : S.Leads w (l2capSendSignal host w q code payload).2 :=
      leads_sendSignal w heven _ fun h => (hq h).signals
    generalize l2capSendSignal host w q code payload = r at hsent ⊢
    rcases r with ⟨_ | _, w'⟩
    · exact hsent
    · refine hsent.trans ?_
      simp only [if_true]
      exact leads_modify _ fun h => (hq h).update _ _ ⟨rfl, rfl, rfl, .inr rfl⟩

/-! ## Connecting another channel -/

theorem leads_connectionRequest (w : L2capLink) {q : Nat} (hq : q = S.channel → S.Free) :
    S.Leads w (l2capConnectionRequest host w q).2 := by
  unfold l2capConnectionRequest
  split
  · exact .refl w
  · have hsent : ∀ id payload, S.Leads w
        (l2capSendSignal host (w.nextChannelId.2.allot q id) q l2capSignalConnReq payload).2 := fun id payload =>
      (leads_nextChannelId w).trans ((leads_allot _ _ fun h => (hq h).update).trans
        (leads_sendSignal _ rfl _ fun h => (hq h).closed.signals))
    simp only
    split
    · exact (hsent _ _).trans (leads_setState hh _ _ (fun h => (hq h).closed) fun h => (hq h).update _ _)
    · exact hsent _ _

/-- What is left of the call for a channel that was not connected, once it is in the log. -/
theorem leads_connected_rest (w : L2capLink) {q : Nat} (cb : L2capClientCb) (reply : Option ConnectionResponse)
    (userdata : Nat) (hq : q = S.channel → ∀ c, S.event (.callback q c)) :
    S.Leads (w.record (.connectCb q cb reply)) (connected host w q cb none reply userdata) := by
  have hcall : ∀ w c, S.Leads w (w.call host q c) := fun w c => leads_call hh w c fun h => hq h c
  unfold connected
  cases cb with
  | null => exact .refl _
  | client cmd f => exact hcall _ _
  | newConfiguredConnect =>
    cases reply with
    | none => exact .refl _
    | some reply =>
      simp only [newConfiguredConnectCb]
      split
      · exact .refl _
      · exact hcall _ _
  | newConfiguredConfigure => exact .refl _

theorem leads_connected_none (w : L2capLink) {q : Nat} (cb : L2capClientCb) (reply : Option ConnectionResponse)
    (userdata : Nat) (hq : q = S.channel → ∀ e, S.event e) :
    S.Leads w (connected host w q cb none reply userdata) := by
  have hrecord : S.Leads w (w.record (.connectCb q cb reply)) := leads_record w fun h => hq (Option.some.inj h) _
  exact hrecord.trans (leads_connected_rest hh w cb reply userdata fun h _ => hq h _)

theorem leads_newOutgoing (w : L2capLink) (psm : Nat) (ready : Bool) (callback : L2capClientCb) (userdata : Nat) :
    S.Leads w (bteL2capNewOutgoing host w psm ready callback userdata) := by
  intro hp
  have hq : w.allocated ≠ S.channel := hp.ne'
  have hfail : ∀ w', S.Leads w' (connected host (bteL2capUnref w' w.allocated) w.allocated callback none none userdata) :=
    fun w' => (leads_unref w' fun h => absurd h hq).trans (leads_connected_none hh _ _ _ _ fun h => absurd h hq)
  refine Watch.Leads.trans (leads_alloc w true) ?_ hp
  unfold bteL2capNewOutgoing
  simp only
  split
  · exact hfail _
  · rename_i w' hadd
    have hset : ∀ f, S.Leads (w.alloc true).2 (w'.modify w.allocated f) :=
      fun f => (leads_addClient hadd hq).trans (leads_modify _ fun h => absurd h hq)
    split
    · have hreq := fun f => (hset f).trans (leads_connectionRequest hh _ fun h => absurd h hq)
      split
      · exact hreq _
      · exact Watch.Leads.trans (hreq _) (hfail _)
    · exact hset _

/-! ## When the link comes or goes -/

theorem leads_connectedCb (w : L2capLink) {q : Nat} (status : Nat) (hq : q = S.channel → S.Free) :
    S.Leads w (aclL2capConnectedCb host w q status) := by
  have hreq : S.Leads w (if status ≠ 0 then (false, w) else l2capConnectionRequest host w q).2 := by
    split
    · exact .refl w
    · exact leads_connectionRequest hh w hq
  unfold aclL2capConnectedCb
  simp only
  generalize (if status ≠ 0 then (false, w) else l2capConnectionRequest host w q) = r at hreq ⊢
  split
  · exact hreq
  · refine Watch.Leads.trans (hreq.trans ?_) (leads_unref _ fun h => ⟨(hq h).closed.touched, (hq h).removed⟩)
    exact leads_connected_none hh _ _ _ _ fun h => (hq h).event

theorem leads_configureLost (w : L2capLink) {q : Nat}
    (hq : q = S.channel → S.Closed ∧
      ((w.channels q).LooksConfiguring → S.event (.configureCb q (w.channels q).clientCb lostConfigureReply true))) :
    S.Leads w (configureLost host w q) := by
  unfold configureLost
  split
  · rename_i hlooks
    exact leads_configured hh _ _ _ _ _ (fun h => (hq h).1) fun h => (hq h).2 hlooks
  · exact .refl w

theorem leads_connectLost (w : L2capLink) {q : Nat} (reason : Nat) (hq : q = S.channel → S.Touched ∧ S.removed)
    (he : q = S.channel → (w.channels q).remoteChannelId = 0 →
      S.event (.connectCb q (w.channels q).clientCb (some lostReply)))
    (hc : q = S.channel → ∀ c, S.event (.callback q c)) :
    S.Leads w (connectLost host w q reason) := by
  unfold connectLost
  split
  · rename_i hremote
    refine Watch.Leads.trans ?_ (leads_unref _ hq)
    have hrecord : S.Leads w (w.record (.connectCb q (w.channels q).clientCb (some lostReply))) :=
      leads_record w fun h => he (Option.some.inj h) hremote
    exact hrecord.trans (leads_connected_rest hh w _ (some lostReply) _ hc)
  · split
    · exact .refl _
    · exact leads_call hh _ _ fun h => hc h _

theorem leads_disconnectCb (w : L2capLink) {q : Nat} (reason : Nat) (hq : q = S.channel → S.Free) :
    S.Leads w (l2capDisconnectCb host w q reason) := by
  rw [l2capDisconnectCb_eq]
  refine (leads_configureLost hh w fun h => ⟨(hq h).closed, fun _ => (hq h).event _⟩).trans ?_
  exact leads_connectLost hh _ reason (fun h => ⟨(hq h).closed.touched, (hq h).removed⟩) (fun h _ => (hq h).event _)
    fun h _ => (hq h).event _

/-! ## Every call -/

/-- What a call asks of the watch. -/
def L2capCall.Allowed (S : Watch) : L2capCall → Prop
  | .ref p => p = S.channel → S.Touched
  | .setUserdata p _ => p = S.channel → S.Touched
  | .on p _ _ => p = S.channel → S.Touched
  | .setConfigureReply p _ => p = S.channel → S.Touched
  | .unref p => p = S.channel → S.Closed
  | .disconnect p => p = S.channel → S.Closed
  | .configure p _ _ _ => p = S.channel → S.Called
  | .echo p _ _ _ => p = S.channel → S.Asked
  | .queryInfo p _ _ _ => p = S.channel → S.Asked
  | .newOutgoing _ _ _ _ => True
  | .newConfigured _ _ _ _ _ => True
  | .sendMessage _ _ => True
  | .reset => True

omit hh in
theorem L2capCall.allowed_of_called (h : S.Called) (call : L2capCall) : call.Allowed S := by
  cases call <;> first | exact trivial | exact fun _ => h | exact fun _ => h.closed | exact fun _ => h.asked |
    exact fun _ => h.closed.touched

/-- **A call leads on from a link** as the watch says. -/
theorem leads_apply (w : L2capLink) (call : L2capCall) (hcall : call.Allowed S) : S.Leads w (call.apply host w) := by
  cases call with
  | newOutgoing psm ready callback userdata => exact leads_newOutgoing hh w _ _ _ _
  | newConfigured psm ready conf callback userdata =>
    refine Watch.Leads.trans ?_ (leads_newOutgoing hh _ _ _ _ _)
    exact leads_shared rfl rfl rfl rfl
  | ref p => exact leads_ref w hcall
  | unref p => exact leads_unref w fun h => ⟨(hcall h).touched, (hcall h).removed⟩
  | setUserdata p userdata =>
    unfold L2capCall.apply
    refine leads_passive w (fun _ => ?_) hcall
    exact ⟨rfl, rfl, rfl, rfl⟩
  | on p slot f =>
    refine leads_passive w (fun _ => ?_) hcall
    cases slot <;> exact ⟨rfl, rfl, rfl, rfl⟩
  | configure p params callback userdata => exact leads_configure hh w _ rfl _ hcall
  | setConfigureReply p reply =>
    unfold L2capCall.apply bteL2capSetConfigureReply
    refine leads_passive w (fun _ => ?_) hcall
    exact ⟨rfl, rfl, rfl, rfl⟩
  | disconnect p => exact leads_disconnect hh w hcall
  | sendMessage p buffer =>
    simp only [L2capCall.apply, bteL2capSendMessage]
    split
    · exact .refl w
    · exact leads_shared rfl rfl rfl rfl
  | echo p data callback userdata => exact leads_ask w rfl _ _ _ hcall
  | queryInfo p type callback userdata => exact leads_ask w rfl _ _ _ hcall
  | reset => exact leads_shared rfl rfl rfl rfl

end Functions

/-- A client whose calls the watch allows keeps to it, callbacks in callbacks included. -/
theorem heeds_client (S : Watch) (host : L2capHost) (client : L2capClient)
    (hclient : ∀ c w, ∀ call ∈ client c w, call.Allowed S) : ∀ depth, (host.client client depth).Heeds S
  | 0 => fun _ w => .refl w
  | depth + 1 => by
    have hh := heeds_client S host client hclient depth
    have hcalls : ∀ (calls : List L2capCall), (∀ call ∈ calls, call.Allowed S) → ∀ w,
        S.Leads w (calls.foldl (L2capCall.apply (host.client client depth)) w) := by
      intro calls
      induction calls with
      | nil => exact fun _ w => .refl w
      | cons call calls ih =>
        intro hall w
        rw [List.foldl_cons]
        exact (leads_apply hh w call (hall call (by simp))).trans (ih (fun c hc => hall c (by simp [hc])) _)
    exact fun c w => hcalls _ (hclient c w) w

/-- If any call is allowed, so is any client. -/
theorem heeds_called {S : Watch} (h : S.Called) (host : L2capHost) (client : L2capClient) (depth : Nat) :
    (host.client client depth).Heeds S :=
  heeds_client S host client (fun _ _ call _ => call.allowed_of_called h) depth

/-! ## A loop over the table -/

/-- One turn of `L2capLink.forClients`. -/
def L2capLink.turn (f : L2capLink → Nat → L2capLink) (w : L2capLink) (i : Fin 4) : L2capLink :=
  match w.clients i with
  | none => w
  | some p => f w p

/-- Anything may happen to the channel. -/
def Watch.any (p : Nat) : Watch where
  channel := p
  update := fun _ _ => True
  refl := fun _ => trivial
  trans := fun _ _ => trivial
  event := fun _ => True
  removed := True

theorem Watch.any_free (p : Nat) : (Watch.any p).Free := ⟨fun _ _ => trivial, trivial, fun _ => trivial⟩

section Loop

variable {S : Watch} {f : L2capLink → Nat → L2capLink} (hf : ∀ w q, q ≠ S.channel → S.Leads w (f w q))
include hf

theorem leads_turns : ∀ (is : List (Fin 4)) (w : L2capLink), (∀ i ∈ is, w.clients i ≠ some S.channel) →
    S.Leads w (is.foldl (L2capLink.turn f) w)
  | [], w, _ => .refl w
  | i :: is, w, hout => by
    intro hp
    have hturn : S.Leads w (w.turn f i) := by
      unfold L2capLink.turn
      split
      · exact .refl w
      · rename_i q hq
        exact hf w q fun h => hout i (by simp) (h ▸ hq)
    rw [List.foldl_cons]
    refine hturn.trans (leads_turns is _ fun j hj hplace => ?_) hp
    exact hout j (by simp [hj]) ((hturn hp).placed j hplace)

/-- A loop that may come to the channel any number of times, in a link that goes on satisfying `I`. -/
theorem leads_turns_of {I : L2capLink → Prop} (hI : ∀ {w w'}, S.Within w w' → I w → I w')
    (hfp : ∀ w, I w → S.Leads w (f w S.channel)) : ∀ (is : List (Fin 4)) (w : L2capLink), I w →
      S.Leads w (is.foldl (L2capLink.turn f) w)
  | [], w, _ => .refl w
  | i :: is, w, hw => by
    intro hp
    have hturn : S.Leads w (w.turn f i) := by
      unfold L2capLink.turn
      split
      · exact .refl w
      · rename_i q _
        by_cases hq : q = S.channel
        · exact hq ▸ hfp w hw
        · exact hf w q hq
    rw [List.foldl_cons]
    exact hturn.trans (leads_turns_of hI hfp is _ (hI (hturn hp) hw)) hp

/-- The first turn for a channel that the others do not take out of the table. -/
theorem turns_first (hkeep : ¬ S.removed) (hany : ∀ w q, (Watch.any S.channel).Leads w (f w q)) :
    ∀ (is : List (Fin 4)) (w : L2capLink), S.channel < w.allocated → (∃ i ∈ is, w.clients i = some S.channel) →
      ∃ w₁, S.Within w w₁ ∧ (Watch.any S.channel).Within (f w₁ S.channel) (is.foldl (L2capLink.turn f) w)
  | [], w, _, hex => by simp at hex
  | i :: is, w, hp, hex => by
    by_cases hi : w.clients i = some S.channel
    · refine ⟨w, .refl w, ?_⟩
      have hturn : w.turn f i = f w S.channel := by rw [L2capLink.turn, hi]
      rw [List.foldl_cons, hturn]
      have hrest := leads_turns_of (S := Watch.any S.channel) (I := fun _ => True) (fun w q _ => hany w q)
        (fun _ _ => trivial) (fun w _ => hany w _) is (f w S.channel) trivial
      exact hrest (lt_of_lt_of_le hp (hany w _ hp).allocated)
    · obtain ⟨j, hj, hplace⟩ := hex
      have hturn : S.Within w (w.turn f i) := by
        unfold L2capLink.turn
        split
        · exact .refl w
        · rename_i q hq
          exact hf w q (fun h => hi (h ▸ hq)) hp
      have hj' : j ∈ is := by
        rcases List.mem_cons.1 hj with rfl | hj
        · exact absurd hplace hi
        · exact hj
      obtain ⟨w₁, hw₁, hrest⟩ := turns_first hkeep hany is (w.turn f i) (lt_of_lt_of_le hp hturn.allocated)
        ⟨j, hj', (hturn.kept j hplace).resolve_right hkeep⟩
      exact ⟨w₁, hturn.trans hw₁, by rwa [List.foldl_cons]⟩

/-- **A loop over the table has one turn for a channel that has one place in it**, and only that turn is about it. -/
theorem forClients_turn {S' : Watch} (hS : S'.channel = S.channel) (hf' : ∀ w q, q ≠ S'.channel → S'.Leads w (f w q))
    (hfp : ∀ w, (Watch.any S.channel).Leads w (f w S.channel)) {w : L2capLink} {i : Fin 4}
    (hi : ∀ j, w.clients j = some S.channel → j = i) (hp : S.channel < w.allocated) :
    ∃ w₁, S.Within w w₁ ∧ S'.Within (w₁.turn f i) (w.forClients f) := by
  obtain ⟨before, after, hsplit⟩ := List.append_of_mem (List.mem_finRange i)
  have hnodup : (before ++ i :: after).Nodup := hsplit ▸ List.nodup_finRange 4
  have hbefore : i ∉ before := fun h => (List.nodup_append.1 hnodup).2.2 i h i (by simp) rfl
  have hafter : i ∉ after := (List.nodup_cons.1 (List.nodup_append.1 hnodup).2.1).1
  have hfirst : S.Within w (before.foldl (L2capLink.turn f) w) :=
    leads_turns hf before w (fun j hj hplace => hbefore (hi j hplace ▸ hj)) hp
  generalize hw₁ : before.foldl (L2capLink.turn f) w = w₁ at hfirst
  have hp₁ : S.channel < w₁.allocated := lt_of_lt_of_le hp hfirst.allocated
  -- the turn itself may do anything to the channel but give it another place
  have hturn : w₁.allocated ≤ (w₁.turn f i).allocated ∧
      ∀ j, (w₁.turn f i).clients j = some S.channel → w₁.clients j = some S.channel := by
    unfold L2capLink.turn
    split
    · exact ⟨le_rfl, fun _ h => h⟩
    · rename_i q _
      by_cases hq : q = S.channel
      · subst hq
        exact ⟨(hfp w₁ hp₁).allocated, (hfp w₁ hp₁).placed⟩
      · exact ⟨(hf w₁ q hq hp₁).allocated, (hf w₁ q hq hp₁).placed⟩
  have hlast : S'.Within (w₁.turn f i) (after.foldl (L2capLink.turn f) (w₁.turn f i)) := by
    refine leads_turns hf' after _ (fun j hj hplace => ?_) (hS ▸ lt_of_lt_of_le hp₁ hturn.1)
    exact hafter (hi j (hfirst.placed j (hturn.2 j (hS ▸ hplace))) ▸ hj)
  have hall : w.forClients f = (List.finRange 4).foldl (L2capLink.turn f) w := rfl
  refine ⟨w₁, hfirst, ?_⟩
  rwa [hall, hsplit, List.foldl_append, hw₁, List.foldl_cons]

end Loop

end Bte
