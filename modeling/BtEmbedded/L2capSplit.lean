import BtEmbedded.L2capPayload
import BtEmbedded.L2capSending
import BtEmbedded.L2capReject
/-!
# L2capSplit — a configuration request in pieces (l2cap.c)

The peer may spread its options over a series of Configuration Requests.  `acl_l2cap_handle_configure_req` keeps what it has
read in `configure_req` and acknowledges every request but the last.  Since an option is taken into the parameters without
regard to what else is in its request, the client is asked, and the peer is answered, as for one request with all options, if
the packets of the controller hold the acknowledgements and the response.
-/
namespace Bte

open Bytes Tlv

/-! ## Requests -/

/-- A Configuration Request of the peer, and what follows it in the reader. -/
structure PeerRequest where
  id : Nat
  flags : Nat
  options : List Tlv
  tail : List UInt8

namespace PeerRequest

def reader (r : PeerRequest) (channelId : Nat) : List UInt8 :=
  leBytes 2 channelId ++ leBytes 2 r.flags ++ encode r.options ++ r.tail

def length (r : PeerRequest) : Nat := 4 + (encode r.options).length

/-- What the link is after it. -/
def handle (host : L2capHost) (channelId : Nat) (w : L2capLink) (r : PeerRequest) : L2capLink :=
  (aclL2capHandleConfigureReq host w r.id (r.reader channelId) r.length).link

/-- The options are well-formed, and none is unknown but for a hint; the flags are 16 bits. -/
structure Known (r : PeerRequest) : Prop where
  flags : r.flags < 65536
  wellFormed : ∀ t ∈ r.options, wellFormedOption t
  known : ∀ t ∈ r.options, unknownOption t = false

end PeerRequest

/-! ## What a log says about them -/

/-- A call of `configure_cb` for a channel. -/
def L2event.requestCall (p : Nat) : L2event → Option (Nat × ConfigureParams × Nat)
  | .callback q (.configureRequest f _ params userdata) => if q = p then some (f, params, userdata) else none
  | _ => none

/-- A Configuration Response for a channel. -/
def L2event.configAnswer (p : Nat) : L2event → Option (Nat × List UInt8)
  | .emitted q code id body => if q = some p ∧ code = l2capSignalConfigRsp then some (id, body) else none
  | _ => none

def requestCalls (p : Nat) (log : List L2event) : List (Nat × ConfigureParams × Nat) := log.filterMap (·.requestCall p)

def configAnswers (p : Nat) (log : List L2event) : List (Nat × List UInt8) := log.filterMap (·.configAnswer p)

/-- Whatever may happen to a channel but that a request is delivered or answered. -/
def Watch.unrequested (p : Nat) : Watch where
  channel := p
  update := fun _ _ => True
  refl := fun _ => trivial
  trans := fun _ _ => trivial
  event := fun e => e.requestCall p = none ∧ e.configAnswer p = none
  removed := True

theorem unrequested_of_about {p : Nat} {e : L2event} (h : e.about ≠ some p) :
    e.requestCall p = none ∧ e.configAnswer p = none := by
  cases e with
  | callback q c => cases c <;> simp_all [L2event.about, L2event.requestCall, L2event.configAnswer]
  | emitted q code id body => simp_all [L2event.about, L2event.requestCall, L2event.configAnswer]
  | _ => exact ⟨rfl, rfl⟩

/-- No call of the client delivers a request, or answers one. -/
theorem unrequested_called (p : Nat) : (Watch.unrequested p).Called where
  update := fun _ _ _ => trivial
  removed := trivial
  event := fun e he => by
    cases e with
    | callback q c => cases c <;> first | exact ⟨rfl, rfl⟩ | cases he
    | emitted q code id body =>
      refine ⟨rfl, if_neg fun h => ?_⟩
      rw [h.2] at he
      cases he
    | _ => exact ⟨rfl, rfl⟩

theorem Watch.Within.unrequested {p : Nat} {w w' : L2capLink} (h : (Watch.unrequested p).Within w w') :
    ∃ es, w'.log = w.log ++ es ∧ requestCalls p es = [] ∧ configAnswers p es = [] := by
  obtain ⟨es, hlog, hes⟩ := h.log
  have hquiet : ∀ e ∈ es, e.requestCall p = none ∧ e.configAnswer p = none := by
    intro e he
    by_cases habout : e.about = some p
    · exact hes e he habout
    · exact unrequested_of_about habout
  exact ⟨es, hlog, List.filterMap_eq_nil_iff.2 fun e he => (hquiet e he).1,
    List.filterMap_eq_nil_iff.2 fun e he => (hquiet e he).2⟩

/-! ## A request that is continued -/

/-- A link on which a request has been read this far, and what has been sent meanwhile. -/
def L2capLink.reading (w : L2capLink) (p : Nat) (req : Option ConfigureData) (dev : AclOut) (log : List L2event) :
    L2capLink :=
  { w.modify p fun l2cap => { l2cap with configureReq := req } with dev := dev, log := log }

/-- The empty positive response that asks for more. -/
def continuedAck (l2cap : L2cap) : List UInt8 :=
  leBytes 2 l2cap.remoteChannelId ++ leBytes 2 l2capConfigFlagContinuation ++ leBytes 2 l2capConfigResOk

def ConfigureData.ofParams (params : ConfigureParams) : ConfigureData := { ConfigureData.zero with params := params }

/-- Options are taken on top of what was kept. -/
def ConfigureData.takeOptions (conf : ConfigureData) (ts : List Tlv) : ConfigureData :=
  { conf with params := ts.foldl takeOption conf.params }

theorem takeOptions_ofParams (params : ConfigureParams) (ts : List Tlv) :
    (ConfigureData.ofParams params).takeOptions ts = .ofParams (ts.foldl takeOption params) := rfl

theorem word_header {channelId flags : Nat} (hid : channelId < 65536) (hflags : flags < 65536) :
    word (leBytes 2 channelId ++ leBytes 2 flags) 0 = channelId ∧
      word (leBytes 2 channelId ++ leBytes 2 flags) 1 = flags := by
  have hlow : leVal (leBytes 2 channelId) = channelId := (leVal_leBytes 2 channelId).trans (Nat.mod_eq_of_lt hid)
  have hhigh : leVal (leBytes 2 flags) = flags := (leVal_leBytes 2 flags).trans (Nat.mod_eq_of_lt hflags)
  exact ⟨hlow, hhigh⟩

theorem readHeader_reader (channelId : Nat) (r : PeerRequest) : readSignalHeader (r.reader channelId) r.length 4 =
    (some (leBytes 2 channelId ++ leBytes 2 r.flags), encode r.options ++ r.tail) := by
  have hreader : r.reader channelId = (leBytes 2 channelId ++ leBytes 2 r.flags) ++ (encode r.options ++ r.tail) := by
    simp [PeerRequest.reader]
  have hhead : (leBytes 2 channelId ++ leBytes 2 r.flags).length = 4 := by simp
  have hlen : ¬ r.length < 4 := by simp [PeerRequest.length]
  rw [readSignalHeader, if_neg hlen, hreader, List.take_left' hhead, List.drop_left' hhead, if_neg (not_not.2 hhead)]

/-- The handler reads the header of a request, and finds the channel. -/
theorem handle_on (host : L2capHost) {w : L2capLink} {channelId p : Nat} (hid : channelId < 65536)
    (htarget : w.configureTarget channelId = some p) {r : PeerRequest} (hflags : r.flags < 65536) :
    r.handle host channelId w =
      (handleConfigureReqOn host w p r.id r.flags (r.reader channelId) (encode r.options ++ r.tail) r.length).link := by
  obtain ⟨hword, hword'⟩ := word_header hid hflags
  unfold PeerRequest.handle aclL2capHandleConfigureReq withSignalHeader
  rw [readHeader_reader]
  simp only [hword, hword', htarget]

/-- The target does not depend on what was read. -/
theorem configureTarget_reading (w : L2capLink) (p : Nat) (req : Option ConfigureData) (dev : AclOut) (log : List L2event)
    (channelId : Nat) : (w.reading p req dev log).configureTarget channelId = w.configureTarget channelId := by
  have hsame : ∀ q, ((w.reading p req dev log).channels q).localChannelId = (w.channels q).localChannelId ∧
      ((w.reading p req dev log).channels q).state = (w.channels q).state := by
    intro q
    by_cases hq : q = p
    · subst hq
      simp [L2capLink.reading, L2capLink.modify]
    · simp [L2capLink.reading, L2capLink.modify, hq]
  unfold L2capLink.configureTarget L2capLink.l2capForLocalChannel L2capLink.findClient
  simp only [hsame]
  rfl

/-- The parameters after a request of known options. -/
theorem parse_known {r : PeerRequest} (hr : r.Known) (params : ConfigureParams) :
    l2capConfigParse true (encode r.options ++ r.tail) params (r.length - 4) =
      ⟨.ok, r.options.foldl takeOption params, 0, r.tail⟩ := by
  have hlen : r.length - 4 = (encode r.options).length := Nat.add_sub_cancel_left ..
  rw [hlen, parse_row true hr.wellFormed, countOption_known true 0 hr.known]
  rfl

/-- A command of a few bytes can be made. -/
theorem createCmd_small {host : L2capHost} (hmtu : 8 ≤ host.aclMtu) (hmtu' : host.aclMtu < 65536)
    (code id : Nat) {size : Nat} (hsize : size ≤ 8) : (aclL2capCreateCmd host code id size).isSome := by
  obtain ⟨writer, hwriter, -⟩ := aclL2capCreateMessage_spec host.mem host.connHandle bteL2capChannelIdSignalling hmtu hmtu'
    (packets_small hmtu hmtu' hsize)
  have hcmd : (l2capSignalHdrLen + size) % 65536 = size + 4 := by
    unfold l2capSignalHdrLen
    omega
  rw [aclL2capCreateCmd, hcmd, hwriter]
  rfl

/-- A command of six bytes can be made. -/
theorem createCmd_ack {host : L2capHost} (hmtu : 8 ≤ host.aclMtu) (hmtu' : host.aclMtu < 65536) (code id : Nat) :
    (aclL2capCreateCmd host code id 6).isSome := createCmd_small hmtu hmtu' code id (by decide)

section Continued

variable {host : L2capHost} {w : L2capLink} {channelId p : Nat}

theorem modify_modify (w : L2capLink) (p : Nat) (f g : L2cap → L2cap) :
    (w.modify p f).modify p g = w.modify p fun l2cap => g (f l2cap) := by
  simp only [L2capLink.modify, Function.update_self, Function.update_idem]

/-- What is kept for a channel is overwritten, and references are counted apart. -/
theorem ref_reading (w : L2capLink) (p : Nat) (req : Option ConfigureData) (dev : AclOut) (log : List L2event)
    (conf conf' : ConfigureData) :
    (bteL2capRef ((w.reading p req dev log).modify p fun l2cap => { l2cap with configureReq := some conf }) p).modify p
        (fun l2cap => { l2cap with configureReq := some conf' }) =
      (bteL2capRef w p).reading p (some conf') dev log := by
  unfold L2capLink.reading bteL2capRef
  rw [modify_modify, modify_modify, modify_modify]
  simp only [L2capLink.modify, Function.update_self, Function.update_idem]

/-- **The options of a request are taken on top of those that were kept**, and the request is acknowledged or answered. -/
theorem handle_reading (hid : channelId < 65536) (htarget : w.configureTarget channelId = some p) {r : PeerRequest}
    (hr : r.Known) {req : Option ConfigureData} {conf : ConfigureData} (hreq : req.getD .zero = conf)
    (hidle : conf.hasPendingPackets = false) (dev : AclOut) (log : List L2event) :
    r.handle host channelId (w.reading p req dev log) =
      let v := (bteL2capRef w p).reading p (some (conf.takeOptions r.options)) dev log
      bteL2capUnref (finishConfigureReq
        (if r.flags &&& l2capConfigFlagContinuation ≠ 0 then ackContinued host v p r.id
          else configureRequested host v p r.id) p r.flags) p := by
  have hconf : ((w.reading p req dev log).channels p).configureReq.getD .zero = conf := by
    rw [← hreq]
    simp [L2capLink.reading, L2capLink.modify]
  rw [handle_on host hid ((configureTarget_reading ..).trans htarget) hr.flags]
  unfold handleConfigureReqOn
  simp only [hconf]
  rw [if_neg (show ¬ conf.hasPendingPackets = true from hidle ▸ Bool.false_ne_true), parse_known hr, ref_reading]
  simp only [answerConfigureReq]
  by_cases hmore : r.flags &&& l2capConfigFlagContinuation ≠ 0
  · rw [if_pos hmore, if_pos hmore]
    rfl
  · rw [if_neg hmore, if_neg hmore]
    rfl

/-- **A request that is continued is acknowledged**, and its options are kept. -/
theorem handle_continued (hmtu : 8 ≤ host.aclMtu) (hmtu' : host.aclMtu < 65536) (hid : channelId < 65536)
    (htarget : w.configureTarget channelId = some p) (hlive : 0 < (w.channels p).refCount) {r : PeerRequest} (hr : r.Known)
    (hmore : r.flags &&& l2capConfigFlagContinuation ≠ 0) {req : Option ConfigureData} {params : ConfigureParams}
    (hreq : req.getD .zero = .ofParams params) (dev : AclOut) (log : List L2event) :
    ∃ dev', r.handle host channelId (w.reading p req dev log) =
      w.reading p (some (.ofParams (r.options.foldl takeOption params))) dev'
        (log ++ [.emitted (some p) l2capSignalConfigRsp r.id (continuedAck (w.channels p))]) := by
  obtain ⟨writer, hwriter⟩ := Option.isSome_iff_exists.1 (createCmd_ack hmtu hmtu' l2capSignalConfigRsp r.id)
  have hlen : ∀ cid flags result, (leBytes 2 cid ++ leBytes 2 flags ++ leBytes 2 result).length = 6 := by simp
  have hack : ∀ v : L2capLink, ∃ dev', ackContinued host v p r.id =
      { v with dev := dev' }.record (.emitted (some p) l2capSignalConfigRsp r.id (continuedAck (v.channels p))) := by
    intro v
    unfold ackContinued aclL2capCmdReply
    rw [hlen, hwriter]
    exact ⟨_, rfl⟩
  rw [handle_reading hid htarget hr hreq rfl, takeOptions_ofParams]
  simp only
  obtain ⟨dev', hdev'⟩ := hack ((bteL2capRef w p).reading p (some (.ofParams (r.options.foldl takeOption params))) dev log)
  rw [if_pos hmore, hdev']
  refine ⟨dev', ?_⟩
  have hfinish : ∀ v : L2capLink, ((v.channels p).configureReq.getD .zero).hasPendingPackets = false →
      finishConfigureReq v p r.flags = v := by
    intro v hpending
    have hkeep : ¬ r.flags &&& l2capConfigFlagContinuation = 0 := hmore
    simp only [finishConfigureReq, L2capLink.modify, hpending, Bool.false_eq_true, hkeep, if_false, Function.update_eq_self]
  rw [hfinish]
  · unfold bteL2capUnref
    simp only
    rw [if_neg]
    · simp [L2capLink.record, L2capLink.reading, bteL2capRef, L2capLink.modify, continuedAck]
    · simp [L2capLink.record, L2capLink.reading, bteL2capRef, L2capLink.modify]
      omega
  · simp [L2capLink.record, L2capLink.reading, L2capLink.modify, ConfigureData.ofParams, ConfigureData.zero]

/-- What a series of continued requests leaves. -/
theorem handle_series (hmtu' : host.aclMtu < 65536) (hid : channelId < 65536)
    (htarget : w.configureTarget channelId = some p) (hlive : 0 < (w.channels p).refCount) :
    ∀ (rs : List PeerRequest) {req : Option ConfigureData} {params : ConfigureParams} (dev : AclOut) (log : List L2event),
      (rs ≠ [] → 8 ≤ host.aclMtu) →
      (∀ r ∈ rs, r.Known ∧ r.flags &&& l2capConfigFlagContinuation ≠ 0) → req.getD .zero = .ofParams params →
      ∃ req' dev', req'.getD .zero = .ofParams ((rs.flatMap (·.options)).foldl takeOption params) ∧
        rs.foldl (PeerRequest.handle host channelId) (w.reading p req dev log) =
          w.reading p req' dev' (log ++ rs.map fun r =>
            .emitted (some p) l2capSignalConfigRsp r.id (continuedAck (w.channels p)))
  | [], req, params, dev, log, _, _, hreq => ⟨req, dev, hreq, by simp⟩
  | r :: rs, req, params, dev, log, hmtu, hrs, hreq => by
    have hmtu : 8 ≤ host.aclMtu := hmtu (List.cons_ne_nil r rs)
    obtain ⟨hr, hmore⟩ := hrs r (List.mem_cons_self ..)
    obtain ⟨dev', hstep⟩ := handle_continued hmtu hmtu' hid htarget hlive hr hmore hreq dev log
    obtain ⟨req', dev'', hreq', hrun⟩ := handle_series hmtu' hid htarget hlive rs dev'
      (log ++ [.emitted (some p) l2capSignalConfigRsp r.id (continuedAck (w.channels p))]) (fun _ => hmtu)
      (fun r hr => hrs r (List.mem_cons_of_mem _ hr))
      (show (some (ConfigureData.ofParams (r.options.foldl takeOption params))).getD .zero = .ofParams _ from rfl)
    refine ⟨req', dev'', ?_, ?_⟩
    · rw [List.flatMap_cons, List.foldl_append]
      exact hreq'
    · rw [List.foldl_cons, hstep, hrun, List.append_assoc]
      rfl

end Continued

/-! ## The request that completes them -/

/-- What the response to a request is made of. -/
def L2capLink.answer (w : L2capLink) (p : Nat) : Option ConfigureData × Nat × Nat :=
  ((w.channels p).configureReq, (w.channels p).remoteMtu, (w.channels p).remoteChannelId)

/-- The client has been asked. -/
def requestAsked (host : L2capHost) (w : L2capLink) (p : Nat) : L2capLink :=
  match (w.channels p).configureCb with
  | none => w
  | some f => w.call host p
      (.configureRequest f p ((w.channels p).configureReq.getD .zero).params (w.channels p).userdata)

theorem configureRequested_eq (host : L2capHost) (w : L2capLink) (p id : Nat) :
    configureRequested host w p id = (l2capConfigSend host (acceptConfigure (requestAsked host w p) p) p
      (((acceptConfigure (requestAsked host w p) p).channels p).configureReq.getD .zero) id).2 := by
  cases hcb : (w.channels p).configureCb <;> simp only [requestAsked, configureRequested, hcb]

namespace PeerRequest

/-- What the client is asked for: the options of the request, and those kept from the ones before it. -/
def params (r : PeerRequest) (w : L2capLink) (p : Nat) : ConfigureParams :=
  r.options.foldl takeOption ((w.channels p).configureReq.getD .zero).params

/-- The link on which it is. -/
def read (r : PeerRequest) (w : L2capLink) (p : Nat) : L2capLink :=
  (bteL2capRef w p).reading p (some (((w.channels p).configureReq.getD .zero).takeOptions r.options)) w.dev w.log

/-- The link on which the response is sent. -/
def accepted (r : PeerRequest) (host : L2capHost) (w : L2capLink) (p : Nat) : L2capLink :=
  acceptConfigure (requestAsked host (r.read w p) p) p

/-- What it is made from. -/
def answer (r : PeerRequest) (host : L2capHost) (w : L2capLink) (p : Nat) : ConfigureData :=
  ((r.accepted host w p).channels p).configureReq.getD .zero

end PeerRequest

/-- The body of the response. -/
def answerBody (w : L2capLink) (p : Nat) : List UInt8 :=
  responseBody (acceptConfigure w p) p (((acceptConfigure w p).channels p).configureReq.getD .zero)

theorem answerBody_congr {w w' : L2capLink} {p : Nat} (h : w.answer p = w'.answer p) : answerBody w p = answerBody w' p := by
  simp only [L2capLink.answer, Prod.mk.injEq] at h
  obtain ⟨hreq, hmtu, hcid⟩ := h
  have haccept : (acceptConfigure w p).answer p = (acceptConfigure w' p).answer p := by
    unfold acceptConfigure L2capLink.answer l2capConfigApply
    rw [hreq]
    simp only
    split
    · split
      · simp [L2capLink.modify, hcid]
      · simp [L2capLink.modify, hreq, hcid]
    · rw [hreq, hmtu, hcid]
  simp only [L2capLink.answer, Prod.mk.injEq] at haccept
  obtain ⟨hreq', hmtu', hcid'⟩ := haccept
  unfold answerBody responseBody configResponse
  rw [hreq', hmtu', hcid']

theorem log_acceptConfigure (w : L2capLink) (p : Nat) :
    (acceptConfigure w p).log = w.log ∧ (acceptConfigure w p).allocated = w.allocated := by
  unfold acceptConfigure
  simp only
  split
  · split
    · exact ⟨rfl, rfl⟩
    · exact ⟨rfl, rfl⟩
  · exact ⟨rfl, rfl⟩

/-- What follows the response is not about the request. -/
theorem leads_finishRequest (p : Nat) (w : L2capLink) (flags : Nat) :
    (Watch.unrequested p).Leads w (bteL2capUnref (finishConfigureReq w p flags) p) :=
  (leads_modify _ fun _ => trivial).trans (leads_unref _ fun _ => ⟨(unrequested_called p).closed.touched, trivial⟩)

section Answered

variable {host : L2capHost} {p : Nat} (hh : host.Heeds (Watch.unrequested p))
include hh

theorem asked_log {w : L2capLink} (hp : p < w.allocated) :
    ∃ es, (requestAsked host w p).log = w.log ++ es ∧ w.allocated ≤ (requestAsked host w p).allocated ∧
      requestCalls p es = (w.channels p).configureCb.toList.map (fun f =>
        (f, ((w.channels p).configureReq.getD .zero).params, (w.channels p).userdata)) ∧ configAnswers p es = [] := by
  unfold requestAsked
  cases (w.channels p).configureCb with
  | none => exact ⟨[], (List.append_nil _).symm, le_rfl, rfl, rfl⟩
  | some f =>
    have hreact := hh (.configureRequest f p ((w.channels p).configureReq.getD .zero).params (w.channels p).userdata)
      (w.record (.callback p
        (.configureRequest f p ((w.channels p).configureReq.getD .zero).params (w.channels p).userdata))) hp
    obtain ⟨es, hlog, hcalls, hanswers⟩ := hreact.unrequested
    refine ⟨_ :: es, hlog.trans (List.append_assoc ..), hreact.allocated, ?_, ?_⟩
    · simp only [requestCalls, List.filterMap_cons, L2event.requestCall, if_true] at hcalls ⊢
      rw [hcalls]
      rfl
    · simp only [configAnswers, List.filterMap_cons, L2event.configAnswer]
      exact hanswers

theorem sendResponse_log {w : L2capLink} (hp : p < w.allocated) (conf : ConfigureData) (id : Nat) :
    ∃ es, (configSendResponse host w p conf id).2.log = w.log ++ es ∧ requestCalls p es = [] ∧
      configAnswers p es = [(id, responseBody w p conf)] ∧ p < (configSendResponse host w p conf id).2.allocated := by
  have hturn : (responseTurn host w p conf id).log = w.log ++
      [.responding p (l2capConfigWrite conf.params (responseStart conf) (w.channels p).remoteMtu).1 w.dev
          (responseBuffer host w p conf id),
        .emitted (some p) l2capSignalConfigRsp id (responseBody w p conf)] := List.append_assoc ..
  have hrest : (Watch.unrequested p).Leads (responseTurn host w p conf id) (configSendResponse host w p conf id).2 := by
    rw [configSendResponse_eq]
    split
    · exact .refl _
    · split
      · exact leads_setState hh _ _ (fun _ => (unrequested_called p).closed) fun _ => trivial
      · exact .refl _
  have hwithin := hrest hp
  obtain ⟨es, hlog, hcalls, hanswers⟩ := hwithin.unrequested
  refine ⟨_, hlog.trans (by rw [hturn, List.append_assoc]), ?_, ?_, lt_of_lt_of_le hp hwithin.allocated⟩
  · rw [requestCalls, List.filterMap_append, ← requestCalls, ← requestCalls, hcalls]
    rfl
  · rw [configAnswers, List.filterMap_append, ← configAnswers, ← configAnswers, hanswers]
    simp [configAnswers, L2event.configAnswer]

/-- **A complete request is delivered once, and answered once.** -/
theorem requested_log {w : L2capLink} (hp : p < w.allocated) {id : Nat} (hid : id ≠ 0) (flags : Nat) :
    ∃ es, (bteL2capUnref (finishConfigureReq (configureRequested host w p id) p flags) p).log = w.log ++ es ∧
      requestCalls p es = (w.channels p).configureCb.toList.map (fun f =>
        (f, ((w.channels p).configureReq.getD .zero).params, (w.channels p).userdata)) ∧
      configAnswers p es = [(id, answerBody (requestAsked host w p) p)] := by
  obtain ⟨es, hasked, halloc, hcalls, hanswers⟩ := asked_log hh hp
  obtain ⟨haccept, haccept'⟩ := log_acceptConfigure (requestAsked host w p) p
  have heq : configureRequested host w p id = (configSendResponse host (acceptConfigure (requestAsked host w p) p) p
      (((acceptConfigure (requestAsked host w p) p).channels p).configureReq.getD .zero) id).2 := by
    rw [configureRequested_eq, l2capConfigSend, if_pos hid]
  obtain ⟨es', hsent, hcalls', hanswers', hp'⟩ := @sendResponse_log host p hh (acceptConfigure (requestAsked host w p) p)
    (by omega) (((acceptConfigure (requestAsked host w p) p).channels p).configureReq.getD .zero) id
  rw [← heq] at hsent hp'
  obtain ⟨es'', hlast, hcalls'', hanswers''⟩ := (leads_finishRequest p _ flags hp').unrequested
  refine ⟨es ++ es' ++ es'', ?_, ?_, ?_⟩
  · rw [hlast, hsent, haccept, hasked]
    simp only [List.append_assoc]
  · simp only [requestCalls, List.filterMap_append] at hcalls hcalls' hcalls'' ⊢
    rw [hcalls, hcalls', hcalls'', List.append_nil, List.append_nil]
  · simp only [configAnswers, List.filterMap_append] at hanswers hanswers' hanswers'' ⊢
    rw [hanswers, hanswers', hanswers'', List.append_nil, List.nil_append]
    rfl

end Answered

/-! ## However it is split -/

/-- **The client answers a request by what it is asked, and by what it knows of its channels**: what has gone out on the
link before makes no difference to it. -/
def AnswersAlike (host : L2capHost) (p : Nat) : Prop :=
  ∀ f params userdata (w : L2capLink) dev log,
    (host.react (.configureRequest f p params userdata) { w with dev := dev, log := log }).answer p =
      (host.react (.configureRequest f p params userdata) w).answer p

/-- The events of one more request. -/
def PeerRequest.events (host : L2capHost) (channelId : Nat) (w : L2capLink) (r : PeerRequest) : List L2event :=
  (r.handle host channelId w).log.drop w.log.length

/-- **A series of requests is handled like the one that carries all their options**: each but the last is acknowledged,
under its own id, and nothing else happens; at the last the client is asked once, and the peer answered once, as for the
single one.  What is sent is carried by its packets. -/
structure HandledAlike (host : L2capHost) (channelId p : Nat) (w : L2capLink) (earlier : List PeerRequest)
    (last single : PeerRequest) : Prop where
  acknowledged : (earlier.foldl (PeerRequest.handle host channelId) w).log = w.log ++ earlier.map fun r =>
    .emitted (some p) l2capSignalConfigRsp r.id (continuedAck (w.channels p))
  carried : ∀ r ∈ earlier, CarriesReply host l2capSignalConfigRsp r.id (continuedAck (w.channels p))
  asked : requestCalls p (last.events host channelId (earlier.foldl (PeerRequest.handle host channelId) w)) =
    requestCalls p (single.events host channelId w)
  once : requestCalls p (single.events host channelId w) = (w.channels p).configureCb.toList.map fun f =>
    (f, single.options.foldl takeOption .zero, (w.channels p).userdata)
  answered : configAnswers p (last.events host channelId (earlier.foldl (PeerRequest.handle host channelId) w)) =
    configAnswers p (single.events host channelId w)
  answeredOnce : ∃ body, configAnswers p (single.events host channelId w) = [(single.id, body)] ∧
    CarriesBody host l2capSignalConfigRsp single.id body

/-- **What lets the answers out**: the packets of the controller hold the headers of the acknowledgements, if there are
any, and
the response to all the options. -/
structure SplitFits (host : L2capHost) (p : Nat) (w : L2capLink) (earlier : List PeerRequest)
    (single : PeerRequest) : Prop where
  acks : earlier ≠ [] → host.HeadersFit
  answer : host.Fits (responseLength (single.accepted host w p) p (single.answer host w p))

theorem reading_self (w : L2capLink) (p : Nat) : w.reading p (w.channels p).configureReq w.dev w.log = w := by
  unfold L2capLink.reading L2capLink.modify
  rw [Function.update_eq_self]

/-- A request that is continued is acknowledged at once. -/
theorem PeerRequest.handle_more {host : L2capHost} {w : L2capLink} {channelId p : Nat} (hid : channelId < 65536)
    (htarget : w.configureTarget channelId = some p)
    (hidle : ((w.channels p).configureReq.getD .zero).hasPendingPackets = false) {r : PeerRequest} (hr : r.Known)
    (hmore : r.flags &&& l2capConfigFlagContinuation ≠ 0) :
    r.handle host channelId w =
      bteL2capUnref (finishConfigureReq (ackContinued host (r.read w p) p r.id) p r.flags) p := by
  have hstep := @handle_reading host w channelId p hid htarget r hr _ _ rfl hidle w.dev w.log
  rw [reading_self] at hstep
  simp only [if_pos hmore] at hstep
  exact hstep

/-- A request that is not continued is answered at once. -/
theorem PeerRequest.handle_final {host : L2capHost} {w : L2capLink} {channelId p : Nat} (hid : channelId < 65536)
    (htarget : w.configureTarget channelId = some p)
    (hidle : ((w.channels p).configureReq.getD .zero).hasPendingPackets = false) {r : PeerRequest} (hr : r.Known)
    (hfinal : r.flags &&& l2capConfigFlagContinuation = 0) :
    r.handle host channelId w =
      bteL2capUnref (finishConfigureReq (configureRequested host (r.read w p) p r.id) p r.flags) p := by
  have hstep := @handle_reading host w channelId p hid htarget r hr _ _ rfl hidle w.dev w.log
  rw [reading_self] at hstep
  simp only [hfinal, ne_eq, not_true_eq_false, if_false] at hstep
  exact hstep

section Split

variable {host : L2capHost} {p : Nat}

/-- The last request, on top of what was kept. -/
theorem last_events (hh : host.Heeds (Watch.unrequested p)) {w : L2capLink} {channelId : Nat} (hid : channelId < 65536)
    (htarget : w.configureTarget channelId = some p) (hp : p < w.allocated) {r : PeerRequest} (hr : r.Known)
    (hfinal : r.flags &&& l2capConfigFlagContinuation = 0) (hrid : r.id ≠ 0) {req : Option ConfigureData}
    {params : ConfigureParams} (hreq : req.getD .zero = .ofParams params) (dev : AclOut) (log : List L2event) :
    requestCalls p (r.events host channelId (w.reading p req dev log)) = (w.channels p).configureCb.toList.map (fun f =>
        (f, r.options.foldl takeOption params, (w.channels p).userdata)) ∧
      configAnswers p (r.events host channelId (w.reading p req dev log)) = [(r.id, answerBody (requestAsked host
        ((bteL2capRef w p).reading p (some (.ofParams (r.options.foldl takeOption params))) dev log) p) p)] := by
  have hstep := @handle_reading host w channelId p hid htarget r hr req _ hreq rfl dev log
  rw [takeOptions_ofParams] at hstep
  simp only [hfinal, ne_eq, not_true_eq_false, if_false] at hstep
  obtain ⟨es, hlog, hcalls, hanswers⟩ := @requested_log host p hh
    ((bteL2capRef w p).reading p (some (.ofParams (r.options.foldl takeOption params))) dev log) hp r.id hrid r.flags
  have hevents : r.events host channelId (w.reading p req dev log) = es := by
    rw [PeerRequest.events, hstep, hlog]
    exact List.drop_left
  rw [hevents, hcalls, hanswers]
  refine ⟨?_, rfl⟩
  simp [L2capLink.reading, L2capLink.modify, bteL2capRef, ConfigureData.ofParams]

theorem asked_alike (hclient : AnswersAlike host p) (w : L2capLink) (dev : AclOut) (log : List L2event) :
    (requestAsked host { w with dev := dev, log := log } p).answer p = (requestAsked host w p).answer p := by
  unfold requestAsked
  simp only
  cases (w.channels p).configureCb with
  | none => rfl
  | some f => exact hclient f _ _ (w.record (.callback p (.configureRequest f p _ _))) dev _

end Split

/-- **Splitting a configuration request makes no difference if and only if** the packets of the controller hold what is
sent. -/
theorem configureReq_split (host : L2capHost) (client : L2capClient) (depth : Nat) {w : L2capLink} {channelId p : Nat}
    (hm : 4 < host.aclMtu) (hm' : host.aclMtu < 65536) (hc : host.connHandle ≤ 0xfff) (hid : channelId < 65536)
    (htarget : w.configureTarget channelId = some p) (hp : p < w.allocated) (hlive : 0 < (w.channels p).refCount)
    (hidle : (w.channels p).configureReq = none) (hclient : AnswersAlike (host.client client depth) p)
    {earlier : List PeerRequest} (hearlier : ∀ r ∈ earlier, r.Known ∧ r.flags &&& l2capConfigFlagContinuation ≠ 0)
    {last : PeerRequest} (hlast : last.Known) (hfinal : last.flags &&& l2capConfigFlagContinuation = 0)
        (hlastId : last.id ≠ 0)
    (tail : List UInt8) :
    HandledAlike (host.client client depth) channelId p w earlier last
        { last with options := earlier.flatMap (·.options) ++ last.options, tail := tail } ↔
      SplitFits (host.client client depth) p w earlier
        { last with options := earlier.flatMap (·.options) ++ last.options, tail := tail } := by
  have hh := heeds_called (unrequested_called p) host client depth
  have hm : 4 < (host.client client depth).aclMtu := by cases depth <;> exact hm
  have hm' : (host.client client depth).aclMtu < 65536 := by cases depth <;> exact hm'
  have hc : (host.client client depth).connHandle ≤ 0xfff := by cases depth <;> exact hc
  generalize host.client client depth = host at *
  have hself := reading_self w p
  rw [hidle] at hself
  have hsingle : PeerRequest.Known { last with options := earlier.flatMap (·.options) ++ last.options, tail := tail } :=
    { flags := hlast.flags
      wellFormed := fun t ht => (List.mem_append.1 ht).elim
        (fun ht => by obtain ⟨r, hr, ht⟩ := List.mem_flatMap.1 ht; exact (hearlier r hr).1.wellFormed t ht)
            (hlast.wellFormed t)
      known := fun t ht => (List.mem_append.1 ht).elim
        (fun ht => by obtain ⟨r, hr, ht⟩ := List.mem_flatMap.1 ht; exact (hearlier r hr).1.known t ht) (hlast.known t) }
  obtain ⟨hcalls, hanswers⟩ := last_events hh hid htarget hp hsingle hfinal hlastId
    (show (none : Option ConfigureData).getD .zero = .ofParams .zero from rfl) w.dev w.log
  rw [hself] at hcalls hanswers
  generalize hone : ({ last with options := earlier.flatMap (·.options) ++ last.options, tail := tail } : PeerRequest) =
    single at *
  have hread : single.read w p = (bteL2capRef w p).reading p
      (some (.ofParams (single.options.foldl takeOption .zero))) w.dev w.log := by
    rw [PeerRequest.read, hidle]
    rfl
  rw [← hread] at hanswers
  have hack : ∀ id, CarriesReply host l2capSignalConfigRsp id (continuedAck (w.channels p)) ↔ host.HeadersFit :=
    fun id => carriesReply_iff hm hm' hc _ id (by simp [continuedAck])
  have hbody : CarriesBody host l2capSignalConfigRsp single.id (answerBody (requestAsked host (single.read w p) p) p) ↔
      host.Fits (responseLength (single.accepted host w p) p (single.answer host w p)) :=
    responseCarried_iff hm hm' hc _ p _ _
  constructor
  · intro h
    refine ⟨fun hne => ?_, ?_⟩
    · obtain ⟨r, hr⟩ := List.exists_mem_of_ne_nil earlier hne
      exact (hack r.id).1 (h.carried r hr)
    · obtain ⟨body, hbodies, hcarried⟩ := h.answeredOnce
      rw [hanswers, List.cons.injEq, Prod.mk.injEq] at hbodies
      rw [← hbodies.1.2] at hcarried
      exact hbody.1 hcarried
  · rintro ⟨hacks, hanswer⟩
    have hmtu : earlier ≠ [] → 8 ≤ host.aclMtu := by
      intro hne
      have hfits := (hacks hne).1
      omega
    obtain ⟨req, dev, hreq, hseries⟩ := handle_series hm' hid htarget hlive earlier w.dev w.log hmtu hearlier
      (show (none : Option ConfigureData).getD .zero = .ofParams .zero from rfl)
    rw [hself] at hseries
    obtain ⟨hcalls', hanswers'⟩ := last_events hh hid htarget hp hlast hfinal hlastId hreq dev
      (w.log ++ earlier.map fun r => .emitted (some p) l2capSignalConfigRsp r.id (continuedAck (w.channels p)))
    have hoptions : single.options = earlier.flatMap (·.options) ++ last.options := by rw [← hone]
    have hsame : single.id = last.id := by rw [← hone]
    rw [← List.foldl_append, ← hoptions] at hcalls' hanswers'
    have halike := asked_alike hclient (single.read w p) dev
      (w.log ++ earlier.map fun r => .emitted (some p) l2capSignalConfigRsp r.id (continuedAck (w.channels p)))
    exact
      { acknowledged := by rw [hseries]; rfl
        carried := fun r hr => (hack r.id).2 (hacks (List.ne_nil_of_mem hr))
        asked := by rw [hseries, hcalls', hcalls]
        once := hcalls
        answered := by
          rw [hread] at halike hanswers
          rw [hseries, hanswers', hanswers, hsame]
          exact congrArg (fun body => [(last.id, body)]) (answerBody_congr halike)
        answeredOnce := ⟨_, hanswers, hbody.2 hanswer⟩ }

/-- A client that keeps its channels and accepts what the peer asks for. -/
def acceptingClient : L2capClient := fun c _ =>
  match c with
  | .serverConnected _ p => [.ref p, .on p .configure (some 7)]
  | .configureRequest _ p params _ => [.setConfigureReply p ⟨0, 0, params⟩]
  | _ => []

/-- The peer has connected. -/
def acceptedLink : L2capLink :=
  Sys.run (L2capLink.step (plainHost.client acceptingClient 1)) (.start (freeDev 8)) [peerConnects]

/-- An MTU and a hint in a request that is continued. -/
def continuedRequest : PeerRequest := ⟨5, 1, [⟨1, [128, 2], by decide⟩, ⟨0x90, [7], by decide⟩], []⟩

/-- Another MTU and a quality of service in the last. -/
def finalRequest : PeerRequest := ⟨6, 0, [⟨1, [0, 3], by decide⟩, ⟨3, List.replicate 22 2, by decide⟩], [9]⟩

/-- All of their options. -/
def wholeRequest : PeerRequest :=
    { finalRequest with options := continuedRequest.options ++ finalRequest.options, tail := [] }

theorem configureReq_split_qos :
    HandledAlike (plainHost.client acceptingClient 1) 0x40 0 acceptedLink [continuedRequest] finalRequest wholeRequest :=
  (configureReq_split plainHost acceptingClient 1 (by decide) (by decide) (by decide) (by decide) (by decide) (by decide)
    (by decide) (by decide) (fun _ _ _ _ _ _ => rfl)
    (List.forall_mem_singleton.2 ⟨⟨by decide, by decide, by decide⟩, by decide⟩) ⟨by decide, by decide, by decide⟩
    (by decide) (by decide) []).2 ⟨fun _ => by decide, by decide⟩

/-- The peer has connected over packets of 27 bytes. -/
def narrowLink : L2capLink :=
  Sys.run (L2capLink.step (narrowHost.client acceptingClient 1)) (.start (freeDev 8)) [peerConnects]

/-- **There is no pointer for the response**, neither in pieces nor at once. -/
theorem not_configureReq_split :
    (narrowLink.configureTarget 0x40 = some 0 ∧ (narrowLink.channels 0).configureReq = none ∧
      AnswersAlike (narrowHost.client acceptingClient 1) 0) ∧
    ¬ HandledAlike (narrowHost.client acceptingClient 1) 0x40 0 narrowLink [continuedRequest] finalRequest wholeRequest := by
  refine ⟨⟨by decide, by decide, fun _ _ _ _ _ _ => rfl⟩, fun h => ?_⟩
  obtain ⟨body, hbody, hcarried⟩ := h.answeredOnce
  have hlong : (configAnswers 0 (wholeRequest.events (narrowHost.client acceptingClient 1) 0x40 narrowLink)).map
      (fun answer => answer.2.length) = [34] := by decide
  rw [hbody, List.map_singleton, List.cons.injEq] at hlong
  have hfits := (carries_iff (by decide) (by decide) (by decide) l2capSignalConfigRsp wholeRequest.id).1 hcarried
  rw [hlong.1] at hfits
  exact absurd hfits (by decide)

end Bte
