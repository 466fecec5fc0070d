import BtEmbedded.L2capProcess
import BtEmbedded.L2capWatch
/-!
# L2capFootprint — what the code may leave behind (l2cap.c)

A `Footprint` says how the channels may change, whichever link they are on, and which events may be logged.  It allows at
least what nearly all of the code does: `configure_resp` is set by `l2cap_handle_config_resp` alone, and data is delivered
by `acl_data_received_cb` alone.  Every other function is followed once (`Covers`), callbacks included; a footprint that
forbids the one or the other is then a matter of choice.
-/
namespace Bte

open Bytes

/-- The channel whose function for data runs. -/
def L2event.deliveredTo : L2event → Option Nat
  | .callback p (.messageReceived _ _ _ _) => some p
  | _ => none

def L2event.delivers (e : L2event) : Bool := e.deliveredTo.isSome

structure Footprint where
  update : L2cap → L2cap → Prop
  trans : ∀ {a b c}, update a b → update b c → update a c
  kept : ∀ {l l' : L2cap}, l'.configureResp = l.configureResp → update l l'
  new : ∀ l, update l bteL2capNew
  event : L2event → Prop
  others : ∀ {e : L2event}, e.delivers = false → event e

namespace Footprint

/-- A link has changed within the footprint. -/
structure CoversPart (F : Footprint) (l l' : L2capPart) : Prop where
  channels : ∀ p, F.update (l.channels p) (l'.channels p)
  log : ∃ es, l'.log = l.log ++ es ∧ ∀ e ∈ es, F.event e

/-- All the links have. -/
structure Covers (F : Footprint) (w w' : L2capLink) : Prop where
  here : w'.here = w.here
  parts : ∀ k, F.CoversPart (w.link k) (w'.link k)

/-- The responses may change too. -/
def Free (F : Footprint) : Prop := ∀ l l', F.update l l'

variable {F : Footprint}

theorem CoversPart.refl (l : L2capPart) : F.CoversPart l l := ⟨fun _ => F.kept rfl, [], by simp, by simp⟩

theorem CoversPart.trans {a b c : L2capPart} (h : F.CoversPart a b) (h' : F.CoversPart b c) : F.CoversPart a c where
  channels := fun p => F.trans (h.channels p) (h'.channels p)
  log := by
    obtain ⟨es, hes, hall⟩ := h.log
    obtain ⟨es', hes', hall'⟩ := h'.log
    refine ⟨es ++ es', by rw [hes', hes, List.append_assoc], fun e he => ?_⟩
    exact (List.mem_append.1 he).elim (hall e) (hall' e)

theorem Covers.refl (w : L2capLink) : F.Covers w w := ⟨rfl, fun _ => .refl _⟩

theorem Covers.trans {a b c : L2capLink} (h : F.Covers a b) (h' : F.Covers b c) : F.Covers a c where
  here := h'.here.trans h.here
  parts := fun k => (h.parts k).trans (h'.parts k)

/-- What is done to the link in focus alone. -/
theorem covers_local {w w' : L2capLink} (hh : w'.here = w.here) (hp : w'.parked = w.parked)
    (h : F.CoversPart w.part w'.part) : F.Covers w w' := by
  refine ⟨hh, fun k => ?_⟩
  by_cases hk : k = w.here
  · have hlink : w'.link w.here = w'.part := by rw [← hh, L2capLink.link_here]
    rw [hk, hlink, L2capLink.link_here]
    exact h
  · rw [L2capLink.link_of_ne hh hp hk]
    exact .refl _

/-- What the code itself does to the link in focus. -/
theorem Covers.part {w w' : L2capLink} (h : F.Covers w w') : F.CoversPart w.part w'.part := by
  have hpart := h.parts w.here
  have hlink : w'.link w.here = w'.part := by rw [← h.here, L2capLink.link_here]
  rwa [hlink, L2capLink.link_here] at hpart

theorem Covers.focus {w w' : L2capLink} (h : F.Covers w w') (k : Nat) : F.Covers (w.focus k) (w'.focus k) :=
  ⟨rfl, fun j => by simpa using h.parts j⟩

/-- What is done from another link. -/
theorem Covers.back {w w' : L2capLink} {k : Nat} (h : F.Covers (w.focus k) w') : F.Covers w (w'.focus w.here) :=
  ⟨rfl, fun j => by simpa using h.parts j⟩

end Footprint

open Footprint

variable {F : Footprint}

/-! ## The steps -/

theorem covers_shared {w w' : L2capLink} (hc : w'.channels = w.channels) (hl : w'.log = w.log) (hh : w'.here = w.here)
    (hp : w'.parked = w.parked) : F.Covers w w' := by
  refine covers_local hh hp ⟨fun p => F.kept ?_, [], by simp [L2capLink.part, hl], by simp⟩
  simp [L2capLink.part, hc]

theorem covers_update (w : L2capLink) (p : Nat) {f : L2cap → L2cap} (hf : F.update (w.channels p) (f (w.channels p))) :
    F.Covers w (w.modify p f) := by
  refine covers_local rfl rfl ⟨fun q => ?_, [], by simp [L2capLink.part, L2capLink.modify], by simp⟩
  by_cases hq : q = p
  · subst hq
    simpa [L2capLink.modify] using hf
  · simpa [L2capLink.modify, Function.update_of_ne hq] using F.kept rfl

theorem covers_modify (w : L2capLink) (p : Nat) {f : L2cap → L2cap}
    (hf : ∀ l : L2cap, (f l).configureResp = l.configureResp) : F.Covers w (w.modify p f) :=
  covers_update w p (F.kept (hf _))

theorem covers_event (w : L2capLink) {e : L2event} (he : F.event e) : F.Covers w (w.record e) := by
  refine covers_local rfl rfl ⟨fun _ => F.kept rfl, [e], rfl, fun e' he' => ?_⟩
  rwa [List.mem_singleton.1 he']

theorem covers_record (w : L2capLink) {e : L2event} (he : e.delivers = false) : F.Covers w (w.record e) :=
  covers_event w (F.others he)

theorem covers_note (w : L2capLink) (n : L2note) : F.Covers w (w.note n) := covers_shared rfl rfl rfl rfl

theorem covers_markReplySent (w : L2capLink) (cd : Nat) : F.Covers w (w.markReplySent cd) := covers_shared rfl rfl rfl rfl

theorem covers_nextSignalId (w : L2capLink) : F.Covers w w.nextSignalId.2 := covers_shared rfl rfl rfl rfl

theorem covers_nextChannelId (w : L2capLink) : F.Covers w w.nextChannelId.2 := covers_shared rfl rfl rfl rfl

theorem covers_allot (w : L2capLink) (p id : Nat) : F.Covers w (w.allot p id) :=
  (covers_note w _).trans (covers_modify _ p fun _ => rfl)

theorem covers_restore (w : L2capLink) (p : Nat) : F.Covers w (w.restore p) :=
  (covers_note w _).trans (covers_modify _ p fun _ => rfl)

theorem covers_removeClient (w : L2capLink) (p : Nat) : F.Covers w (aclL2capRemoveClient w p) := by
  have hleft : F.Covers w { w with clients := fun i => if w.clients i = some p then none else w.clients i } :=
    covers_shared rfl rfl rfl rfl
  unfold aclL2capRemoveClient
  simp only
  split
  · exact hleft.trans (covers_record _ rfl)
  · exact hleft

theorem covers_addClient {w w' : L2capLink} {p : Nat} (h : aclL2capAddClient w p = some w') : F.Covers w w' := by
  unfold aclL2capAddClient at h
  obtain ⟨i, -, rfl⟩ := Option.map_eq_some_iff.1 h
  exact covers_shared rfl rfl rfl rfl

theorem covers_ref (w : L2capLink) (p : Nat) : F.Covers w (bteL2capRef w p) := covers_modify w p fun _ => rfl

theorem covers_unref (w : L2capLink) (p : Nat) : F.Covers w (bteL2capUnref w p) := by
  have hdown : F.Covers w (w.modify p fun l2cap => { l2cap with refCount := l2cap.refCount - 1 }) :=
    covers_modify w p fun _ => rfl
  unfold bteL2capUnref
  simp only
  split
  · exact hdown.trans (covers_removeClient _ p)
  · exact hdown

theorem covers_alloc (w : L2capLink) (outgoing : Bool) : F.Covers w (w.alloc outgoing).2 := by
  have hnew : F.Covers w (w.modify w.allocated fun _ => bteL2capNew) := covers_update w w.allocated (F.new _)
  have hcount : F.Covers (w.modify w.allocated fun _ => bteL2capNew)
      { w.modify w.allocated fun _ => bteL2capNew with allocated := w.allocated + 1 } := covers_shared rfl rfl rfl rfl
  exact (hnew.trans hcount).trans (covers_record _ rfl)

theorem covers_enter (w : L2capLink) (p : Nat) (s : L2capState) : F.Covers w (w.enter p s) := by
  have hstate : F.Covers w (w.modify p fun l2cap => { l2cap with state := s }) := covers_modify w p fun _ => rfl
  exact hstate.trans (covers_record _ rfl)

theorem covers_configApply (w : L2capLink) (p : Nat) (params : ConfigureParams) (remote : Bool) :
    F.Covers w (l2capConfigApply w p params remote) := by
  unfold l2capConfigApply
  refine covers_modify w p fun _ => ?_
  cases remote <;> rfl

/-! ## Commands -/

section Commands

variable (host : L2capHost)

theorem covers_send (w : L2capLink) (p : Option Nat) (code id : Nat) (body : List UInt8) (buffer : List Packet) :
    F.Covers w (w.send host p code id body buffer).2 := by
  have hdev : F.Covers w { w with dev := (bteAclSendMessage host.rc w.dev buffer).2 } := covers_shared rfl rfl rfl rfl
  exact hdev.trans (covers_record _ rfl)

theorem covers_cmdReply (w : L2capLink) (p : Option Nat) (code id : Nat) (data : List UInt8) :
    F.Covers w (aclL2capCmdReply host w p code id data).2 := by
  unfold aclL2capCmdReply
  simp only
  cases aclL2capCreateCmd host code id data.length with
  | none => exact .refl w
  | some writer => exact covers_send host w _ _ _ _ _

theorem covers_sendSignal (w : L2capLink) (p code : Nat) (payload : List UInt8) :
    F.Covers w (l2capSendSignal host w p code payload).2 := by
  have hsignal : F.Covers w (l2capSignal host w p code payload).2 := by
    unfold l2capSignal
    simp only
    refine (covers_nextSignalId w).trans ?_
    split
    · exact (covers_note _ _).trans (covers_modify _ p fun _ => rfl)
    · exact .refl _
  unfold l2capSendSignal
  generalize l2capSignal host w p code payload = signal at hsignal ⊢
  rcases signal with ⟨_ | buffer, w'⟩
  · exact hsignal
  · exact hsignal.trans (covers_send host w' _ _ _ _ _)

theorem covers_requestLoop (p : Nat) (params : ConfigureParams) : ∀ (fuel startCmd msgId : Nat) (w : L2capLink),
    F.Covers w (configRequestLoop host p params fuel startCmd msgId w).2
  | 0, _, _, w => .refl w
  | fuel + 1, startCmd, msgId, w => by
    have hsend : ∀ n body buffer,
        F.Covers w ((w.note n).send host (some p) l2capSignalConfigReq msgId body buffer).2 :=
      fun n body buffer => (covers_note w n).trans (covers_send host _ _ _ _ _ _)
    have hcount : ∀ (w : L2capLink) (n : Nat), F.Covers w (w.modify p fun l2cap => { l2cap with
        expectedResponseCode := l2capSignalConfigRsp
        expectedResponseCount := (l2cap.expectedResponseCount + 1) % 256
        expectedResponseId := n }) := fun w n => covers_modify w p fun _ => rfl
    unfold configRequestLoop
    simp only
    split
    · exact hsend _ _ _
    · split
      · refine Covers.trans ?_ (covers_requestLoop p params fuel _ _ _)
        exact ((hsend _ _ _).trans (covers_nextSignalId _)).trans (hcount _ _)
      · exact (hsend _ _ _).trans (hcount _ _)

end Commands

/-! ## Callbacks -/

/-- The client's functions keep to the footprint. -/
def L2capHost.Stays (host : L2capHost) (F : Footprint) : Prop := ∀ c w, F.Covers w (host.react c w)

section Functions

variable {host : L2capHost} (hh : host.Stays F)
include hh

theorem covers_call (w : L2capLink) (p : Nat) {c : L2capCallback} (hc : (L2event.callback p c).delivers = false) :
    F.Covers w (w.call host p c) :=
  (covers_record w hc).trans (hh _ _)

theorem covers_stateChanged (w : L2capLink) (p : Nat) (state : L2capState) :
    F.Covers w (stateChanged host w p state) := by
  unfold stateChanged
  split
  · exact .refl w
  · exact covers_call hh w p rfl
  · unfold onL2capStateChanged
    split
    · refine Covers.trans ?_ (covers_unref _ p)
      refine Covers.trans ?_ (covers_call hh _ p rfl)
      exact covers_modify w p fun _ => rfl
    · exact .refl w
  · unfold newConfiguredStateChangedCb
    simp only
    split
    · refine Covers.trans ?_ (covers_unref _ p)
      refine Covers.trans ?_ (covers_markReplySent _ _)
      refine Covers.trans ?_ (covers_call hh _ p rfl)
      exact covers_modify w p fun _ => rfl
    · split
      · refine Covers.trans ?_ (covers_unref _ p)
        split
        · exact .refl w
        · exact (covers_call hh w p rfl).trans (covers_markReplySent _ _)
      · exact .refl w

theorem covers_setState (w : L2capLink) (p : Nat) (state : L2capState) : F.Covers w (l2capSetState host w p state) := by
  unfold l2capSetState
  split
  · exact .refl w
  · exact (covers_enter w p state).trans (covers_stateChanged hh _ p state)

/-! ## Closing a channel -/

theorem covers_disconnected (w : L2capLink) (p reason : Nat) : F.Covers w (disconnected host w p reason) := by
  unfold disconnected
  refine (covers_note w (.closed p)).trans ?_
  simp only
  split
  · exact .refl _
  · exact covers_call hh _ p rfl

/-- What the three functions that close a channel do. -/
theorem covers_close (w : L2capLink) (p reason : Nat) :
    F.Covers w (disconnected host (l2capSetState host (w.note (.closing p (w.channels p).state)) p .closed) p reason) :=
  ((covers_note w _).trans (covers_setState hh _ p _)).trans (covers_disconnected hh _ p reason)

theorem covers_disconnect (w : L2capLink) (p : Nat) : F.Covers w (bteL2capDisconnect host w p) := by
  unfold bteL2capDisconnect
  split
  · unfold l2capSendDisconnectReq
    simp only
    split
    · exact (covers_sendSignal host w p _ _).trans (covers_setState hh _ p _)
    · exact covers_sendSignal host w p _ _
  · exact covers_close hh w p _

/-! ## Configuring a channel -/

theorem covers_configured (w : L2capLink) (cb : L2capClientCb) (p : Nat) (reply : ConfigureReply) (userdata : Nat)
    (stored : Bool) : F.Covers w (configured host w cb p reply userdata stored) := by
  unfold configured
  have hrecord : F.Covers w (w.record (.configureCb p cb reply stored)) := covers_record w rfl
  refine hrecord.trans ?_
  cases cb with
  | null => exact .refl _
  | client cmd f => exact covers_call hh _ p rfl
  | newConfiguredConnect => exact .refl _
  | newConfiguredConfigure =>
    simp only [newConfiguredConfigureCb]
    split
    · refine Covers.trans ?_ (covers_disconnect hh _ p)
      exact (covers_call hh _ p rfl).trans (covers_markReplySent _ _)
    · exact .refl _

theorem covers_sendRequest (w : L2capLink) (p : Nat) (conf : ConfigureData) :
    F.Covers w (configSendRequest host w p conf).2 := by
  have hloop := @covers_requestLoop F host p conf.params (w.dev.aclAvailablePackets + 1) 0 w.nextSignalId.1
    w.nextSignalId.2
  unfold configSendRequest
  simp only
  refine (covers_nextSignalId w).trans (hloop.trans ?_)
  split
  · exact .refl _
  · exact covers_setState hh _ p _

theorem covers_sendResponse (w : L2capLink) (p : Nat) (conf : ConfigureData) (msgId : Nat) :
    F.Covers w (configSendResponse host w p conf msgId).2 := by
  have hstored : ∀ overflow dev packets body buffer (conf : Option ConfigureData), F.Covers w
      (((w.record (.responding p overflow dev packets)).send host (some p) l2capSignalConfigRsp msgId body buffer).2.modify p
        fun l2cap => { l2cap with configureReq := conf }) :=
    fun overflow dev packets body buffer conf =>
      ((covers_record w rfl).trans (covers_send host _ _ _ _ _ _)).trans (covers_modify _ p fun _ => rfl)
  unfold configSendResponse
  simp only
  split
  · exact hstored _ _ _ _ _ _
  · split
    · exact (hstored _ _ _ _ _ _).trans (covers_setState hh _ p _)
    · exact hstored _ _ _ _ _ _

theorem covers_configSend (w : L2capLink) (p : Nat) (conf : ConfigureData) (msgId : Nat) :
    F.Covers w (l2capConfigSend host w p conf msgId).2 := by
  unfold l2capConfigSend
  split
  · exact covers_sendResponse hh w p conf msgId
  · exact covers_sendRequest hh w p conf

theorem covers_configure (w : L2capLink) (p : Nat) (params : Option ConfigureParams) (callback : L2capClientCb)
    (userdata : Nat) : F.Covers w (bteL2capConfigure host w p params callback userdata) := by
  have hsent : ∀ conf, F.Covers w (l2capConfigSend host w p conf 0).2 := fun conf => covers_configSend hh w p conf 0
  unfold bteL2capConfigure
  simp only
  split
  · exact covers_configured hh w _ p _ _ _
  · split
    · exact covers_configured hh w _ p _ _ _
    · split
      · refine Covers.trans ?_ (covers_record _ rfl)
        exact (hsent _).trans (covers_modify _ p fun _ => rfl)
      · exact (hsent _).trans (covers_configured hh _ _ p _ _ _)

/-! ## Connecting a channel -/

theorem covers_connected (w : L2capLink) (about : Nat) (cb : L2capClientCb) (p : Option Nat)
    (reply : Option ConnectionResponse) (userdata : Nat) : F.Covers w (connected host w about cb p reply userdata) := by
  unfold connected
  have hrecord : F.Covers w (w.record (.connectCb about cb reply)) := covers_record w rfl
  refine hrecord.trans ?_
  simp only
  split
  · exact covers_call hh _ about rfl
  · unfold newConfiguredConnectCb
    simp only
    split
    · exact .refl _
    · split
      · exact .refl _
      · exact covers_call hh _ about rfl
    · split
      · exact .refl _
      · refine Covers.trans ?_ (covers_configure hh _ _ _ _ _)
        exact (covers_ref _ _).trans (covers_modify _ _ fun _ => rfl)
  · exact .refl _
  · exact .refl _

theorem covers_connectionRequest (w : L2capLink) (p : Nat) : F.Covers w (l2capConnectionRequest host w p).2 := by
  have hallot : F.Covers w (w.nextChannelId.2.allot p w.nextChannelId.1) :=
    (covers_nextChannelId w).trans (covers_allot _ p _)
  unfold l2capConnectionRequest
  split
  · exact .refl w
  · have hsent := fun payload => hallot.trans (covers_sendSignal host _ p l2capSignalConnReq payload)
    simp only
    split
    · exact (hsent _).trans (covers_setState hh _ p _)
    · exact hsent _

theorem covers_newOutgoing (w : L2capLink) (psm : Nat) (ready : Bool) (callback : L2capClientCb) (userdata : Nat) :
    F.Covers w (bteL2capNewOutgoing host w psm ready callback userdata) := by
  have hfail : ∀ w' : L2capLink,
      F.Covers w' (connected host (bteL2capUnref w' w.allocated) w.allocated callback none none userdata) :=
    fun w' => (covers_unref w' _).trans (covers_connected hh _ _ _ _ _ _)
  unfold bteL2capNewOutgoing
  refine (covers_alloc w true).trans ?_
  simp only
  split
  · exact hfail _
  · rename_i w' hadd
    have hset : F.Covers (w.alloc true).2 (w'.modify w.allocated fun l2cap =>
        { l2cap with userdata := userdata, psm := psm, clientCb := callback }) :=
      (covers_addClient hadd).trans (covers_modify w' _ fun _ => rfl)
    have hreq := hset.trans (covers_connectionRequest hh _ w.allocated)
    split
    · split
      · exact hreq
      · exact hreq.trans (hfail _)
    · exact hset

omit hh in
theorem covers_ask (w : L2capLink) (p code : Nat) (payload : List UInt8) (callback userdata : Nat) :
    F.Covers w (l2capAsk host w p code payload callback userdata).2 := by
  unfold l2capAsk
  split
  · exact .refl w
  · refine (covers_sendSignal host w p code payload).trans ?_
    simp only
    split
    · exact covers_modify _ p fun _ => rfl
    · exact .refl _

/-- **Every call of the client keeps to the footprint.** -/
theorem covers_apply (w : L2capLink) (call : L2capCall) : F.Covers w (call.apply host w) := by
  cases call with
  | newOutgoing psm ready callback userdata => exact covers_newOutgoing hh w _ _ _ _
  | newConfigured psm ready conf callback userdata =>
    refine Covers.trans ?_ (covers_newOutgoing hh _ _ _ _ _)
    exact covers_shared rfl rfl rfl rfl
  | ref p => exact covers_ref w p
  | unref p => exact covers_unref w p
  | setUserdata p userdata =>
    unfold L2capCall.apply
    exact covers_modify w p fun _ => rfl
  | on p slot f =>
    refine covers_modify w p fun _ => ?_
    cases slot <;> rfl
  | configure p params callback userdata => exact covers_configure hh w p _ _ _
  | setConfigureReply p reply =>
    unfold L2capCall.apply bteL2capSetConfigureReply
    exact covers_modify w p fun _ => rfl
  | disconnect p => exact covers_disconnect hh w p
  | sendMessage p buffer =>
    simp only [L2capCall.apply, bteL2capSendMessage]
    split
    · exact .refl w
    · exact covers_shared rfl rfl rfl rfl
  | echo p data callback userdata => exact covers_ask w p _ _ _ _
  | queryInfo p type callback userdata => exact covers_ask w p _ _ _ _
  | reset => exact covers_shared rfl rfl rfl rfl

/-! ## What the peer sends -/

omit hh in
theorem covers_withSignalHeader (w : L2capLink) (reader : List UInt8) (len neededLen : Nat)
    {handle : List UInt8 → List UInt8 → Handled} (hhandle : ∀ header rest, F.Covers w (handle header rest).link) :
    F.Covers w (withSignalHeader w reader len neededLen handle).link := by
  unfold withSignalHeader
  split
  · exact .refl w
  · exact hhandle _ _

theorem covers_connectAnswered (w : L2capLink) (p : Nat) (reply : ConnectionResponse) (reader : List UInt8) :
    F.Covers w (connectAnswered host w p reply reader).link := by
  unfold connectAnswered
  simp only
  split
  · exact .refl w
  · split
    · exact (covers_connected hh w p _ _ _ _).trans (covers_unref _ p)
    · exact covers_connected hh w p _ _ _ _

theorem covers_connectCb (w : L2capLink) (p : Nat) (reader : List UInt8) (respLen : Nat) :
    F.Covers w (l2capConnectCb host w p reader respLen).link := by
  unfold l2capConnectCb
  refine covers_withSignalHeader w reader respLen 8 fun data rest => ?_
  simp only
  split
  · exact ((covers_setState hh w p _).trans (covers_connected hh _ p _ _ _ _)).trans (covers_unref _ p)
  · refine Covers.trans ?_ (covers_connectAnswered hh _ p _ rest)
    refine Covers.trans ?_ (covers_modify _ p fun _ => rfl)
    split
    · exact covers_setState hh w p _
    · exact .refl w

omit hh in
theorem covers_serverHandleConnectionReq (w : L2capLink) (psm channelId : Nat) :
    F.Covers w (l2capServerHandleConnectionReq host w psm channelId).2 := by
  have hnew : F.Covers w (bteL2capNewConnected w psm channelId).2 := by
    unfold bteL2capNewConnected
    refine (covers_alloc w false).trans ?_
    simp only
    split
    · exact covers_unref _ _
    · rename_i w' hadd
      refine ((covers_addClient hadd).trans (covers_nextChannelId w')).trans ?_
      refine Covers.trans (covers_allot _ (w.alloc false).1 w'.nextChannelId.1) ?_
      simp only
      exact covers_modify _ _ fun _ => rfl
  unfold l2capServerHandleConnectionReq
  split
  · split
    · rename_i heq
      rwa [heq] at hnew
    · rename_i heq
      rw [heq] at hnew
      refine hnew.trans ?_
      simp only
      exact covers_modify _ _ fun _ => rfl
  · exact .refl w

theorem covers_handleConnectionReq (w : L2capLink) (id : Nat) (reader : List UInt8) (reqLen : Nat) :
    F.Covers w (aclL2capHandleConnectionReq host w id reader reqLen).link := by
  unfold aclL2capHandleConnectionReq
  refine covers_withSignalHeader w reader reqLen 4 fun header rest => ?_
  have hserver := @covers_serverHandleConnectionReq F host w (word header 0) (word header 1)
  simp only
  split
  · rename_i heq
    rw [heq] at hserver
    exact hserver.trans (covers_cmdReply host _ _ _ _ _)
  · rename_i heq
    rw [heq] at hserver
    exact (hserver.trans (covers_cmdReply host _ _ _ _ _)).trans (covers_setState hh _ _ _)

theorem covers_sendRespPacket (w : L2capLink) (p msgId : Nat) :
    F.Covers w (l2capConfigSendRespPacket host w p msgId).2 := by
  unfold l2capConfigSendRespPacket
  refine Covers.trans (covers_configSend hh w p ((w.channels p).configureReq.getD .zero) msgId) ?_
  simp only
  refine covers_modify _ p fun l => ?_
  split <;> rfl

theorem covers_configureRequested (w : L2capLink) (p id : Nat) : F.Covers w (configureRequested host w p id) := by
  have haccept : ∀ w : L2capLink, F.Covers w (acceptConfigure w p) := by
    intro w
    unfold acceptConfigure
    simp only
    split
    · split
      · exact (covers_configApply w p _ true).trans (covers_modify _ p fun _ => rfl)
      · exact covers_configApply w p _ true
    · exact .refl w
  unfold configureRequested
  simp only
  refine Covers.trans ?_ (covers_configSend hh _ p _ id)
  refine Covers.trans ?_ (haccept _)
  split
  · exact .refl w
  · exact covers_call hh w p rfl

theorem covers_answerConfigureReq {w w' : L2capLink} {p id flags : Nat} {parsed : ConfigParsed} {reader : List UInt8}
    {reqLen : Nat} (h : answerConfigureReq host w p id flags parsed reader reqLen = some w') : F.Covers w w' := by
  unfold answerConfigureReq at h
  split at h
  · unfold l2capConfigureReplyTypeError at h
    obtain ⟨writes, -, rfl⟩ := Option.map_eq_some_iff.1 h
    exact covers_send host w _ _ _ _ _
  · cases h
    exact .refl w
  · split at h
    · cases h
      exact covers_cmdReply host w _ _ _ _
    · cases h
      exact covers_configureRequested hh w p id

theorem covers_handleConfigureReqOn (w : L2capLink) (p id flags : Nat) (reader rest : List UInt8) (reqLen : Nat) :
    F.Covers w (handleConfigureReqOn host w p id flags reader rest reqLen).link := by
  have hparsed : ∀ (w : L2capLink) (conf : Option ConfigureData),
      F.Covers w (w.modify p fun l2cap => { l2cap with configureReq := conf }) := fun w _ => covers_modify w p fun _ => rfl
  have hkept : ∀ conf : Option ConfigureData,
      F.Covers w (bteL2capRef (w.modify p fun l2cap => { l2cap with configureReq := conf }) p) :=
    fun conf => (hparsed w conf).trans (covers_ref _ p)
  unfold handleConfigureReqOn
  simp only
  split
  · exact ((hkept _).trans (covers_sendRespPacket hh _ p id)).trans (covers_unref _ p)
  · refine Covers.trans (hkept (some ((w.channels p).configureReq.getD .zero))) ?_
    split
    · exact hparsed _ _
    · rename_i w' hanswer
      refine Covers.trans ?_ (covers_unref _ p)
      refine Covers.trans ((hparsed _ _).trans (covers_answerConfigureReq hh hanswer)) ?_
      refine covers_modify w' p fun l => ?_
      split
      · rfl
      · split <;> rfl

theorem covers_handleConfigureReq (w : L2capLink) (id : Nat) (reader : List UInt8) (reqLen : Nat) :
    F.Covers w (aclL2capHandleConfigureReq host w id reader reqLen).link := by
  unfold aclL2capHandleConfigureReq
  refine covers_withSignalHeader w reader reqLen 4 fun header rest => ?_
  split
  · exact covers_cmdReply host w _ _ _ _
  · exact covers_handleConfigureReqOn hh w _ id _ reader rest reqLen

theorem covers_handleEchoResp (w : L2capLink) (p : Nat) (reader : List UInt8) :
    F.Covers w (l2capHandleEchoResp host w p reader).link := by
  unfold l2capHandleEchoResp
  simp only
  split
  · exact covers_call hh w p rfl
  · exact .refl w
  · exact .refl w
  · exact .refl w

theorem covers_echoResponder (reader : List UInt8) : ∀ (is : List (Fin 4)) (w : L2capLink),
    F.Covers w (echoResponder host reader is w).2.2
  | [], w => .refl w
  | i :: is, w => by
    unfold echoResponder
    split
    · exact covers_echoResponder reader is w
    · split
      · exact covers_echoResponder reader is w
      · simp only
        split
        · exact covers_call hh w _ rfl
        · exact (covers_call hh w _ rfl).trans (covers_echoResponder reader is _)

theorem covers_handleEchoReq (w : L2capLink) (id : Nat) (reader : List UInt8) :
    F.Covers w (aclL2capHandleEchoReq host w id reader).link := by
  have hresponder := covers_echoResponder hh reader (List.finRange 4) w
  unfold aclL2capHandleEchoReq
  simp only
  generalize echoResponder host reader (List.finRange 4) w = r at hresponder ⊢
  cases aclL2capCreateCmd host l2capSignalEchoRsp id r.2.1 with
  | none => exact hresponder
  | some writer =>
    refine hresponder.trans (Covers.trans ?_ (covers_send host _ _ _ _ _ _))
    simp only [Option.isSome_some, if_true, echoReply]
    cases echoWriter r.2.2 r.1 with
    | none => exact .refl _
    | some c => exact covers_call hh _ _ rfl

theorem covers_handleInfoResp (w : L2capLink) (p : Nat) (reader : List UInt8) (respLen : Nat) :
    F.Covers w (l2capHandleInfoResp host w p reader respLen).link := by
  unfold l2capHandleInfoResp
  refine covers_withSignalHeader w reader respLen 4 fun header rest => ?_
  simp only
  cases (w.channels p).clientCb with
  | client cmd f => exact covers_call hh w p rfl
  | null => exact .refl w
  | newConfiguredConnect => exact .refl w
  | newConfiguredConfigure => exact .refl w

omit hh in
theorem covers_handleInfoReq (w : L2capLink) (id : Nat) (reader : List UInt8) (reqLen : Nat) :
    F.Covers w (aclL2capHandleInfoReq host w id reader reqLen).link :=
  covers_withSignalHeader w reader reqLen 2 fun _ _ => covers_cmdReply host w _ _ _ _

theorem covers_handleDisconnectResp (w : L2capLink) (p : Nat) (reader : List UInt8) (respLen : Nat) :
    F.Covers w (l2capHandleDisconnectResp host w p reader respLen).link := by
  unfold l2capHandleDisconnectResp
  refine covers_withSignalHeader w reader respLen 4 fun header rest => ?_
  simp only
  split
  · exact .refl w
  · exact covers_close hh w p _

theorem covers_handleDisconnectReq (w : L2capLink) (id : Nat) (reader : List UInt8) (reqLen : Nat) :
    F.Covers w (aclL2capHandleDisconnectReq host w id reader reqLen).link := by
  have hresp : ∀ p, F.Covers w (l2capSendDisconnectResp host w p id).2 := fun p => covers_cmdReply host w _ _ _ _
  unfold aclL2capHandleDisconnectReq
  refine covers_withSignalHeader w reader reqLen 4 fun header rest => ?_
  cases w.l2capForLocalChannel (word header 0) with
  | none => exact covers_cmdReply host w _ _ _ _
  | some p => exact (hresp p).trans (covers_close hh (l2capSendDisconnectResp host w p id).2 p _)

/-- **Every request of the peer does.** -/
theorem covers_handleRequest (w : L2capLink) (code id : Nat) (reader : List UInt8) (reqLen : Nat) :
    F.Covers w (aclL2capHandleRequest host w code id reader reqLen).link := by
  unfold aclL2capHandleRequest
  split
  · exact covers_handleConnectionReq hh w id reader reqLen
  · split
    · exact covers_handleConfigureReq hh w id reader reqLen
    · split
      · exact covers_handleEchoReq hh w id reader
      · split
        · exact covers_handleInfoReq w id reader reqLen
        · split
          · exact covers_handleDisconnectReq hh w id reader reqLen
          · exact .refl w

/-! ## Responses -/

section Free

variable (hfree : F.Free)
include hfree

theorem covers_deliverConfigureReply (w : L2capLink) (p : Nat) : F.Covers w (deliverConfigureReply host w p) := by
  unfold deliverConfigureReply
  exact (covers_configured hh w _ p _ _ _).trans (covers_update _ p (hfree _ _))

theorem covers_finishConfigResp (w : L2capLink) (p flags result : Nat) {handled : L2event}
    (he : handled.delivers = false) : F.Covers w (finishConfigResp host w p flags result handled) := by
  unfold finishConfigResp
  simp only
  split
  · split
    · generalize ((w.channels p).configureResp.map (·.data)).getD ConfigureData.zero = conf
      refine (covers_configApply w p conf.params false).trans ((covers_deliverConfigureReply hh hfree _ p).trans ?_)
      exact (covers_record _ he).trans (covers_setState hh _ p _)
    · exact ((covers_record w he).trans (covers_setState hh _ p _)).trans (covers_deliverConfigureReply hh hfree _ p)
  · refine (covers_record w he).trans ?_
    split
    · exact covers_configSend hh _ p _ 0
    · exact .refl _

theorem covers_handleConfigResp (w : L2capLink) (p id : Nat) (reader : List UInt8) (respLen : Nat) :
    F.Covers w (l2capHandleConfigResp host w p id reader respLen).link := by
  unfold l2capHandleConfigResp
  refine covers_withSignalHeader w reader respLen 6 fun header rest => ?_
  exact (covers_update w p (hfree _ _)).trans (covers_finishConfigResp hh hfree _ p _ _ rfl)

theorem covers_handleResponse (w : L2capLink) (p code id : Nat) (reader : List UInt8) (respLen : Nat) :
    F.Covers w (l2capHandleResponse host w p code id reader respLen).link := by
  unfold l2capHandleResponse
  simp only
  split
  · split
    · exact covers_connectCb hh w p reader respLen
    · exact .refl w
  split
  · split
    · exact covers_handleConfigResp hh hfree w p id reader respLen
    · exact .refl w
  split
  · exact covers_handleEchoResp hh w p reader
  split
  · exact covers_handleInfoResp hh w p reader respLen
  split
  · split
    · exact covers_handleDisconnectResp hh w p reader respLen
    · exact .refl w
  · exact .refl w

theorem covers_receivedResponse (w : L2capLink) (code id : Nat) (reader : List UInt8) (cmdLen : Nat) :
    F.Covers w (aclL2capHandleResponse host w code id reader cmdLen).link := by
  unfold aclL2capHandleResponse
  simp only
  refine (covers_note w (.response code id reader cmdLen w.table)).trans ?_
  split
  · exact .refl _
  · rename_i p _
    have hcounted : ∀ w : L2capLink, F.Covers w ((bteL2capRef w p).modify p countDown) :=
      fun w => (covers_ref w p).trans (covers_modify _ p fun _ => rfl)
    refine (hcounted _).trans ((covers_handleResponse hh hfree _ p code id reader cmdLen).trans ?_)
    split
    · exact covers_unref _ p
    · exact (covers_restore _ p).trans (covers_unref _ p)

theorem covers_handleSignal (w : L2capLink) (code id : Nat) (reader : List UInt8) (cmdLen : Nat) :
    F.Covers w (handleSignal host w code id reader cmdLen).link := by
  unfold handleSignal
  split
  · exact covers_handleRequest hh w code id reader cmdLen
  · exact covers_receivedResponse hh hfree w code id reader cmdLen

theorem covers_signallingLoop (totalLen size : Nat) : ∀ (fuel parsedLen : Nat) (reader : List UInt8) (w : L2capLink),
    F.Covers w (signallingLoop host totalLen size fuel parsedLen reader w).2
  | 0, _, _, w => .refl w
  | fuel + 1, parsedLen, reader, w => by
    unfold signallingLoop
    simp only
    split
    · split
      · exact .refl w
      · have hsignal := covers_handleSignal hh hfree w ((reader.take 4).getD 0 0).toNat ((reader.take 4).getD 1 0).toNat
          (reader.drop 4) (leVal (slice (reader.take 4) 2 2))
        split
        · exact hsignal
        · exact hsignal.trans (covers_signallingLoop totalLen size fuel _ _ _)
    · exact .refl w

end Free

/-! ## The link comes and goes -/

omit hh in
theorem covers_forClients (w : L2capLink) {f : L2capLink → Nat → L2capLink} (hf : ∀ (w : L2capLink) p, F.Covers w (f w p)) :
    F.Covers w (w.forClients f) := by
  unfold L2capLink.forClients
  generalize List.finRange 4 = is
  induction is generalizing w with
  | nil => exact .refl w
  | cons i is ih =>
    rw [List.foldl_cons]
    refine Covers.trans ?_ (ih _)
    split
    · exact .refl w
    · exact hf w _

theorem covers_aclConnected (w : L2capLink) (status : Nat) : F.Covers w (aclConnectedCb host w status) := by
  refine covers_forClients w fun w p => ?_
  have hreq : F.Covers w (if status ≠ 0 then (false, w) else l2capConnectionRequest host w p).2 := by
    split
    · exact .refl w
    · exact covers_connectionRequest hh w p
  unfold aclL2capConnectedCb
  simp only
  generalize (if status ≠ 0 then (false, w) else l2capConnectionRequest host w p) = r at hreq ⊢
  split
  · exact hreq
  · exact (hreq.trans (covers_connected hh _ p _ _ _ _)).trans (covers_unref _ p)

theorem covers_aclDisconnected (w : L2capLink) (reason : Nat) : F.Covers w (aclDisconnectedCb host w reason) := by
  refine covers_forClients w fun w p => ?_
  have hconf : F.Covers w (configureLost host w p) := by
    unfold configureLost
    split
    · exact covers_configured hh w _ p _ _ _
    · exact .refl w
  rw [l2capDisconnectCb_eq]
  refine hconf.trans ?_
  unfold connectLost
  split
  · exact (covers_connected hh _ p _ _ _ _).trans (covers_unref _ p)
  · split
    · exact .refl _
    · exact covers_call hh _ p rfl

end Functions

/-- A client that only makes calls keeps to it, callbacks in callbacks included. -/
theorem stays_client (host : L2capHost) (client : L2capClient) : ∀ depth, (host.client client depth).Stays F
  | 0 => fun _ w => .refl w
  | depth + 1 => by
    intro c w
    show F.Covers w (List.foldl _ w (client c w))
    generalize client c w = calls
    induction calls generalizing w with
    | nil => exact .refl w
    | cons call calls ih =>
      rw [List.foldl_cons]
      exact (covers_apply (stays_client host client depth) w call).trans (ih _)

/-- And so do clients that call about any link. -/
theorem stays_clients (clients : L2capClients) (hosts : Nat → L2capHost) : ∀ depth k, (clients.hosts hosts depth k).Stays F
  | 0, _ => fun _ w => .refl w
  | depth + 1, k => by
    intro c w
    show F.Covers w (List.foldl _ w (clients k c w))
    generalize clients k c w = calls
    induction calls generalizing w with
    | nil => exact .refl w
    | cons call calls ih =>
      rw [List.foldl_cons]
      have hcall := covers_apply (stays_clients clients hosts depth call.1) (w.focus call.1) call.2
      exact hcall.back.trans (ih _)

end Bte
