import BtEmbedded.L2capSplit
/-!
# L2capAnswer — the client's reply to a configuration request (l2cap.c)

`bte_l2cap_set_configure_reply` writes the reply over the parameters of the request.  It leaves an option that is a structure
alone unless the reply names it, and `l2cap_config_write` looks at the pointer, not at the mask: what the peer has asked for
stays in the response (`answeredWith_iff`).  And it is written through one pointer, for which the packet may be too small.
-/
namespace Bte

open Bytes Tlv

/-! ## Options that are named -/

namespace ConfigOption

/-- The three that are kept behind a pointer. -/
def isStruct : ConfigOption → Bool
  | qos => true
  | retxFlow => true
  | extFlow => true
  | _ => false

/-- The field mask has the option. -/
def named (o : ConfigOption) (params : ConfigureParams) : Bool := params.fieldMask &&& o.bit != 0

theorem present_number {o : ConfigOption} (h : o.isStruct = false) (params : ConfigureParams) :
    o.present params = o.named params := by
  cases o with
  | qos => cases h
  | retxFlow => cases h
  | extFlow => cases h
  | _ => rfl

theorem mem_all (o : ConfigOption) : o ∈ all := by cases o <;> decide

end ConfigOption

/-- The options in the field mask, in the order in which they are written. -/
def ConfigureParams.named (params : ConfigureParams) : List ConfigOption := ConfigOption.all.filter (·.named params)

theorem optionItem_injective (params : ConfigureParams) : Function.Injective (optionItem params) := fun a b h =>
  Option.some.inj ((optionOf_item params a).symm.trans ((congrArg optionOf h).trans (optionOf_item params b)))

/-- The bytes tell which options they are of. -/
theorem encodeOptions_inj {params : ConfigureParams} {os os' : List ConfigOption} :
    encodeOptions params os = encodeOptions params os' ↔ os = os' := by
  refine ⟨fun h => ?_, congrArg _⟩
  have hcut := congrArg (fun bs => (cut bs).1) h
  simp only [encodeOptions, cut_encode_all] at hcut
  exact List.map_injective_iff.2 (optionItem_injective params) hcut

/-! ## The reply in the place of the request -/

/-- A response to what is accepted always names the MTU. -/
def ConfigureParams.withMtu (params : ConfigureParams) (rejectedMask : Nat) : ConfigureParams :=
  if rejectedMask = 0 ∧ params.fieldMask &&& ConfigOption.mtu.bit = 0 then
    { params with mtu := l2capMtuDefault, fieldMask := params.fieldMask ||| ConfigOption.mtu.bit }
  else params

namespace ConfigureReply

/-- For each structure that the field mask names there is one. -/
def WellFormed (reply : ConfigureReply) : Prop :=
  ∀ o : ConfigOption, o.isStruct → o.named reply.params → o.present reply.params

/-- What a response should say: what the reply does, and the MTU if nothing is rejected. -/
def said (reply : ConfigureReply) : ConfigureParams := reply.params.withMtu reply.rejectedMask

/-- What becomes of the parameters of a request. -/
def merged (reply : ConfigureReply) (params : ConfigureParams) : ConfigureParams :=
  { reply.params with
    qos := copyMasked reply.params.fieldMask .qos reply.params.qos params.qos
    retxFlow := copyMasked reply.params.fieldMask .retxFlow reply.params.retxFlow params.retxFlow
    extFlow := copyMasked reply.params.fieldMask .extFlow reply.params.extFlow params.extFlow }

/-- What the response is written from. -/
def written (reply : ConfigureReply) (params : ConfigureParams) : ConfigureParams :=
  (reply.merged params).withMtu reply.rejectedMask

end ConfigureReply

def ConfigureData.replied (conf : ConfigureData) (reply : ConfigureReply) : ConfigureData :=
  { conf with rejectedMask := reply.rejectedMask, params := reply.merged conf.params }

theorem setConfigureReply_eq (w : L2capLink) (p : Nat) (reply : ConfigureReply) :
    ((bteL2capSetConfigureReply w p reply).channels p).configureReq = (w.channels p).configureReq.map (·.replied reply) := by
  simp only [bteL2capSetConfigureReply, L2capLink.modify, Function.update_self]
  rfl

theorem named_withMtu {o : ConfigOption} (ho : o ≠ .mtu) (params : ConfigureParams) (rejectedMask : Nat) :
    o.named (params.withMtu rejectedMask) = o.named params := by
  have hbit : ConfigOption.mtu.bit &&& o.bit = 0 := by
    cases o with
    | mtu => exact absurd rfl ho
    | _ => rfl
  unfold ConfigureParams.withMtu ConfigOption.named
  split
  · rw [Nat.and_or_distrib_right, hbit, Nat.or_zero]
  · rfl

@[simp] theorem structs_withMtu (params : ConfigureParams) (rejectedMask : Nat) :
    (params.withMtu rejectedMask).qos = params.qos ∧ (params.withMtu rejectedMask).retxFlow = params.retxFlow ∧
      (params.withMtu rejectedMask).extFlow = params.extFlow := by
  unfold ConfigureParams.withMtu
  split
  · exact ⟨rfl, rfl, rfl⟩
  · exact ⟨rfl, rfl, rfl⟩

section Merge

variable {reply : ConfigureReply} (params : ConfigureParams)

/-- A structure that the reply names is the one of the reply. -/
theorem struct_named {o : ConfigOption} (hstruct : o.isStruct) (hnamed : o.named reply.params) :
    o.present (reply.written params) = o.present reply.params ∧ o.bytes (reply.written params) = o.bytes reply.said := by
  have hbit : reply.params.fieldMask &&& o.bit ≠ 0 := by simpa [ConfigOption.named] using hnamed
  unfold ConfigureReply.written ConfigureReply.merged ConfigureReply.said
  cases o with
  | qos => simp [ConfigOption.present, ConfigOption.bytes, copyMasked, hbit]
  | retxFlow => simp [ConfigOption.present, ConfigOption.bytes, copyMasked, hbit]
  | extFlow => simp [ConfigOption.present, ConfigOption.bytes, copyMasked, hbit]
  | _ => cases hstruct

/-- **One that it does not name is the one of the request.** -/
theorem struct_kept {o : ConfigOption} (hstruct : o.isStruct) (hnamed : o.named reply.params = false) :
    o.present (reply.written params) = o.present params := by
  have hbit : reply.params.fieldMask &&& o.bit = 0 := by simpa [ConfigOption.named] using hnamed
  unfold ConfigureReply.written ConfigureReply.merged
  cases o with
  | qos => simp [ConfigOption.present, copyMasked, hbit]
  | retxFlow => simp [ConfigOption.present, copyMasked, hbit]
  | extFlow => simp [ConfigOption.present, copyMasked, hbit]
  | _ => cases hstruct

/-- The numbers are all of the reply. -/
theorem number_written {o : ConfigOption} (hstruct : o.isStruct = false) :
    o.present (reply.written params) = o.named reply.said ∧ o.bytes (reply.written params) = o.bytes reply.said := by
  rw [o.present_number hstruct]
  unfold ConfigureReply.written ConfigureReply.said ConfigureParams.withMtu ConfigureReply.merged
  by_cases hmtu : reply.rejectedMask = 0 ∧ reply.params.fieldMask &&& ConfigOption.mtu.bit = 0
  · rw [if_pos hmtu, if_pos hmtu]
    cases o with
    | qos => cases hstruct
    | retxFlow => cases hstruct
    | extFlow => cases hstruct
    | _ => exact ⟨rfl, rfl⟩
  · rw [if_neg hmtu, if_neg hmtu]
    cases o with
    | qos => cases hstruct
    | retxFlow => cases hstruct
    | extFlow => cases hstruct
    | _ => exact ⟨rfl, rfl⟩

theorem named_said {o : ConfigOption} (hstruct : o.isStruct) : o.named reply.said = o.named reply.params :=
  named_withMtu (by rintro rfl; cases hstruct) _ _

/-- **What is written is what the reply names, and the structures of the request.** -/
theorem present_written (hreply : reply.WellFormed) (o : ConfigOption) :
    o.present (reply.written params) = (o.named reply.said || o.isStruct && o.present params) := by
  cases hstruct : o.isStruct with
  | false => rw [Bool.false_and, Bool.or_false, (number_written params hstruct).1]
  | true =>
    rw [Bool.true_and, named_said hstruct]
    cases hnamed : o.named reply.params with
    | true => rw [(struct_named params hstruct hnamed).1, hreply o hstruct hnamed, Bool.true_or]
    | false => rw [struct_kept params hstruct hnamed, Bool.false_or]

/-- An option that the reply names is written as the reply has it. -/
theorem optionItem_written {o : ConfigOption} (hnamed : o.named reply.said) :
    optionItem (reply.written params) o = optionItem reply.said o := by
  have hbytes : o.bytes (reply.written params) = o.bytes reply.said := by
    cases hstruct : o.isStruct with
    | false => exact (number_written params hstruct).2
    | true => exact (struct_named params hstruct (named_said hstruct ▸ hnamed)).2
  simp only [optionItem, hbytes]

/-- **The options written are those that the reply names exactly if it names each structure of the request.** -/
theorem encode_written_iff (hreply : reply.WellFormed) :
    encodeOptions (reply.written params) (presentFrom (reply.written params) 0) = encodeOptions reply.said reply.said.named ↔
      ∀ o : ConfigOption, o.isStruct → o.present params → o.named reply.params := by
  have hnamed : encodeOptions reply.said reply.said.named = encodeOptions (reply.written params) reply.said.named :=
    congrArg encode (List.map_congr_left fun o ho => (optionItem_written params (List.mem_filter.1 ho).2).symm)
  rw [hnamed, encodeOptions_inj]
  constructor
  · intro heq o hstruct hpresent
    have hmem : o ∈ presentFrom (reply.written params) 0 := by
      refine List.mem_filter.2 ⟨o.mem_all, ?_⟩
      simp [present_written params hreply, hstruct, hpresent]
    rw [heq] at hmem
    exact named_said hstruct ▸ (List.mem_filter.1 hmem).2
  · intro h
    refine List.filter_congr fun o _ => ?_
    have hleak : o.isStruct && o.present params → o.named reply.said := fun hand => by
      rw [Bool.and_eq_true] at hand
      rw [named_said hand.1]
      exact h o hand.1 hand.2
    rw [present_written params hreply]
    cases hn : o.named reply.said <;> simp_all

end Merge

/-! ## The response -/

/-- An accepted request gets its MTU. -/
theorem configureReq_accept {w : L2capLink} {p : Nat} {conf : ConfigureData}
    (hconf : (w.channels p).configureReq = some conf) : ((acceptConfigure w p).channels p).configureReq =
      some { conf with params := conf.params.withMtu conf.rejectedMask } := by
  unfold acceptConfigure l2capConfigApply ConfigureParams.withMtu
  simp only [hconf, Option.getD_some]
  by_cases hrej : conf.rejectedMask = 0
  · by_cases hmtu : conf.params.fieldMask &&& ConfigOption.mtu.bit = 0
    · simp [hrej, hmtu, L2capLink.modify]
    · rw [if_neg fun h : _ ∧ _ => hmtu h.2, if_pos hrej, if_neg hmtu]
      simp [L2capLink.modify, hconf]
  · rw [if_neg fun h : _ ∧ _ => hrej h.1, if_neg hrej, hconf]

namespace PeerRequest

/-- The options that are recorded for later. -/
def rest (r : PeerRequest) (host : L2capHost) (w : L2capLink) (p : Nat) : List UInt8 :=
  pendingOptions ((responseTurn host (r.accepted host w p) p (r.answer host w p) r.id).channels p)

end PeerRequest

/-- The client answers with this reply. -/
def RepliesWith (host : L2capHost) (w : L2capLink) (p : Nat) (reply : ConfigureReply) : Prop :=
  ((requestAsked host w p).channels p).configureReq = (w.channels p).configureReq.map (·.replied reply)

/-- **The response says what the client replied**: its options, and those recorded for later if it says that more is to
come, are those of the reply; and it is carried by its packets. -/
def AnsweredWith (host : L2capHost) (channelId : Nat) (w : L2capLink) (p : Nat) (r : PeerRequest) (reply : ConfigureReply) :
    Prop :=
  ∃ body, configAnswers p (r.events host channelId w) = [(r.id, body)] ∧ CarriesBody host l2capSignalConfigRsp r.id body ∧
    body.drop 6 ++ r.rest host w p = encodeOptions reply.said reply.said.named ∧ (word body 1 ≠ 0 ↔ r.rest host w p ≠ [])

/-- A client that only sets the reply does so. -/
theorem repliesWith_client {host : L2capHost} {client : L2capClient} (depth : Nat) {w : L2capLink} {p f : Nat}
    {reply : ConfigureReply} (hcb : (w.channels p).configureCb = some f)
    (hclient : ∀ params userdata w, client (.configureRequest f p params userdata) w = [.setConfigureReply p reply]) :
    RepliesWith (host.client client (depth + 1)) w p reply := by
  unfold RepliesWith requestAsked
  rw [hcb]
  simp only [L2capLink.call, L2capHost.client, L2capClient.react, hclient]
  exact setConfigureReply_eq _ p reply

section Response

variable {host : L2capHost} {p : Nat} (hh : host.Heeds (Watch.unrequested p)) {w : L2capLink} {channelId : Nat}
  (hid : channelId < 65536) (htarget : w.configureTarget channelId = some p) (hp : p < w.allocated)
  (hidle : ((w.channels p).configureReq.getD .zero).hasPendingPackets = false) {r : PeerRequest} (hr : r.Known)
  (hfinal : r.flags &&& l2capConfigFlagContinuation = 0)
include hh hid htarget hp hidle hr hfinal

/-- The id 0 gets a request for an answer. -/
theorem answers_zero (hzero : r.id = 0) : configAnswers p (r.events host channelId w) = [] := by
  obtain ⟨es, hasked, halloc, -, hanswers⟩ := @asked_log host p hh (r.read w p) hp
  obtain ⟨haccept, haccept'⟩ := log_acceptConfigure (requestAsked host (r.read w p) p) p
  have hsend : (Watch.unrequested p).Leads (r.accepted host w p) (configureRequested host (r.read w p) p 0) := by
    rw [configureRequested_eq]
    exact leads_sendRequest hh _ _ fun _ => unrequested_called p
  have hp' : p < (r.accepted host w p).allocated := haccept' ▸ lt_of_lt_of_le hp halloc
  obtain ⟨es', hlog, -, hanswers'⟩ := (hsend.trans (leads_finishRequest p _ r.flags) hp').unrequested
  have hevents : r.events host channelId w = es ++ es' := by
    rw [PeerRequest.events, PeerRequest.handle_final hid htarget hidle hr hfinal, hzero, hlog, PeerRequest.accepted, haccept,
      hasked, List.append_assoc]
    exact List.drop_left
  rw [hevents, configAnswers, List.filterMap_append, ← configAnswers, ← configAnswers, hanswers, hanswers']
  rfl

/-- Any other is answered. -/
theorem answers_ne_zero (hrid : r.id ≠ 0) :
    configAnswers p (r.events host channelId w) =
      [(r.id, responseBody (r.accepted host w p) p (r.answer host w p))] := by
  obtain ⟨es, hlog, -, hanswers⟩ := @requested_log host p hh (r.read w p) hp r.id hrid r.flags
  have hevents : r.events host channelId w = es := by
    rw [PeerRequest.events, PeerRequest.handle_final hid htarget hidle hr hfinal, hlog]
    exact List.drop_left
  rw [hevents, hanswers]
  rfl

variable {reply : ConfigureReply} (hreply : reply.WellFormed) (hclient : RepliesWith host (r.read w p) p reply)
  (hm : 4 < host.aclMtu) (hm' : host.aclMtu < 65536) (hc : host.connHandle ≤ 0xfff)
include hreply hclient hm hm' hc

/-- **A request with an id other than 0 is answered with the reply exactly if the reply names each structure of the request,
and the response gets out whole.** -/
theorem answered_of_ne_zero (hrid : r.id ≠ 0) :
    AnsweredWith host channelId w p r reply ↔
      (∀ o : ConfigOption, o.isStruct → o.present (r.params w p) → o.named reply.params) ∧
        ResponseFits host (r.accepted host w p) p (r.answer host w p) r.id := by
  have hread : ((r.read w p).channels p).configureReq =
      some (((w.channels p).configureReq.getD .zero).takeOptions r.options) := by
    simp [PeerRequest.read, L2capLink.reading, L2capLink.modify]
  have hasked := hclient
  rw [RepliesWith, hread] at hasked
  have hanswer : (r.answer host w p).params = reply.written (r.params w p) ∧
      (r.answer host w p).hasPendingPackets = false := by
    rw [PeerRequest.answer, PeerRequest.accepted, configureReq_accept hasked]
    exact ⟨rfl, hidle⟩
  have hstart : responseStart (r.answer host w p) = 0 := by rw [responseStart, hanswer.2, if_neg Bool.false_ne_true]
  have hsent := responseOptions_iff host (r.accepted host w p) p (r.answer host w p) r.id
  have hcarried := responseCarried_iff hm hm' hc (r.accepted host w p) p (r.answer host w p) r.id
  have hmore := responseContinued_iff host (r.accepted host w p) p (r.answer host w p) r.id
  rw [responseOptions_turn, ← drop_responseBody, hstart, hanswer.1] at hsent
  rw [← word_responseBody] at hmore
  have hbody := answers_ne_zero hh hid htarget hp hidle hr hfinal hrid
  have hleak := encode_written_iff (r.params w p) hreply
  constructor
  · rintro ⟨body, hanswers, hpackets, hoptions, hflag⟩
    rw [hbody] at hanswers
    obtain rfl : responseBody (r.accepted host w p) p (r.answer host w p) = body := by simpa using hanswers
    have hwhole := hmore.1 hflag
    exact ⟨hleak.1 ((hsent.2 hwhole).symm.trans hoptions), hwhole, hcarried.1 hpackets⟩
  · rintro ⟨hnamed, hwhole, hpacket⟩
    exact ⟨_, hbody, hcarried.2 hpacket, (hsent.2 hwhole).trans (hleak.2 hnamed), hmore.2 hwhole⟩

end Response

/-- **A configuration response says what the client replied if and only if** the reply names every option of the request that
is a structure, the response gets out whole, and the id is not 0. -/
theorem answeredWith_iff (host : L2capHost) (client : L2capClient) (depth : Nat) {w : L2capLink} {channelId p : Nat}
    (hm : 4 < host.aclMtu) (hm' : host.aclMtu < 65536) (hc : host.connHandle ≤ 0xfff)
    (hid : channelId < 65536) (htarget : w.configureTarget channelId = some p) (hp : p < w.allocated)
    (hidle : ((w.channels p).configureReq.getD .zero).hasPendingPackets = false) {r : PeerRequest} (hr : r.Known)
    (hfinal : r.flags &&& l2capConfigFlagContinuation = 0) {reply : ConfigureReply} (hreply : reply.WellFormed)
    (hclient : RepliesWith (host.client client depth) (r.read w p) p reply) :
    AnsweredWith (host.client client depth) channelId w p r reply ↔
      r.id ≠ 0 ∧ (∀ o : ConfigOption, o.isStruct → o.present (r.params w p) → o.named reply.params) ∧
        ResponseFits (host.client client depth) (r.accepted (host.client client depth) w p) p
          (r.answer (host.client client depth) w p) r.id := by
  have hh := heeds_called (unrequested_called p) host client depth
  have hm : 4 < (host.client client depth).aclMtu := by cases depth <;> exact hm
  have hm' : (host.client client depth).aclMtu < 65536 := by cases depth <;> exact hm'
  have hc : (host.client client depth).connHandle ≤ 0xfff := by cases depth <;> exact hc
  by_cases hrid : r.id = 0
  · refine iff_of_false ?_ fun h => h.1 hrid
    rintro ⟨body, hanswers, -⟩
    rw [answers_zero hh hid htarget hp hidle hr hfinal hrid] at hanswers
    cases hanswers
  · rw [and_iff_right hrid]
    exact answered_of_ne_zero hh hid htarget hp hidle hr hfinal hreply hclient hm hm' hc hrid

/-- A client that gives every request the same reply. -/
def replyingClient (reply : ConfigureReply) : L2capClient := fun c _ =>
  match c with
  | .serverConnected _ p => [.ref p, .on p .configure (some 7)]
  | .configureRequest _ p _ _ => [.setConfigureReply p reply]
  | _ => []

/-- The peer has connected to it. -/
def replyingLink (reply : ConfigureReply) : L2capLink :=
  Sys.run (L2capLink.step (plainHost.client (replyingClient reply) 1)) (.start (freeDev 8)) [peerConnects]

/-- A flush timeout of 50. -/
def flushTimeoutReply : ConfigureReply :=
  ⟨0, 0, { ConfigureParams.zero with fieldMask := ConfigOption.flushTimeout.bit, flushTimeout := 50 }⟩

/-- The peer asks for a flush timeout of 100. -/
theorem answeredWith_iff_flushTimeout :
    AnsweredWith (plainHost.client (replyingClient flushTimeoutReply) 1) 0x40 (replyingLink flushTimeoutReply) 0
      ⟨5, 0, [⟨2, [100, 0], by decide⟩], []⟩ flushTimeoutReply := by
  refine (answeredWith_iff plainHost (replyingClient flushTimeoutReply) 1 (by decide) (by decide) (by decide) (by decide)
    (by decide) (by decide) (by decide) ⟨by decide, by decide, by decide⟩ (by decide) ?_ ?_).2
    ⟨by decide, ?_, .inl (by decide), by decide⟩
  · intro o
    cases o <;> decide
  · exact repliesWith_client 0 (show _ = some 7 by decide) fun _ _ _ => rfl
  · intro o
    cases o <;> decide

/-- A reply that names nothing. -/
def emptyReply : ConfigureReply := ⟨0, 0, .zero⟩

/-- The peer asks for a quality of service. -/
def qosRequest : PeerRequest := ⟨5, 0, [⟨3, List.replicate 22 1, by decide⟩], []⟩

/-- **The quality of service is agreed to, though the reply does not name it.** -/
theorem not_answeredWith_qos : RepliesWith (plainHost.client (replyingClient emptyReply) 1)
      (qosRequest.read (replyingLink emptyReply) 0) 0 emptyReply ∧
    ¬ AnsweredWith (plainHost.client (replyingClient emptyReply) 1) 0x40 (replyingLink emptyReply) 0 qosRequest
      emptyReply := by
  have hreplies : RepliesWith (plainHost.client (replyingClient emptyReply) 1)
      (qosRequest.read (replyingLink emptyReply) 0) 0 emptyReply :=
    repliesWith_client 0 (show _ = some 7 by decide) fun _ _ _ => rfl
  refine ⟨hreplies, fun h => ?_⟩
  have hh := heeds_called (unrequested_called 0) plainHost (replyingClient emptyReply) 1
  have hreply : emptyReply.WellFormed := by
    intro o
    cases o <;> decide
  have hnamed := ((answered_of_ne_zero hh (by decide) (by decide) (by decide) (by decide) ⟨by decide, by decide, by decide⟩
    (by decide) hreply hreplies (by decide) (by decide) (by decide) (by decide)).1 h).1 .qos rfl (by decide)
  revert hnamed
  decide

end Bte
