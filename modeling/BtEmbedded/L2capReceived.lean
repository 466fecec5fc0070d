import BtEmbedded.L2capRuns
/-!
# L2capReceived — what comes in comes down to moves (l2cap.c)

The handlers of the peer's commands, the loop over the commands of a PDU, and the steps of a process.  The handler of a
response says whether it took it, and whoever called it restores the count if not: a response that `accepts` promises to
be taken is taken (`response_taken`), whatever the callbacks do in between.
-/
namespace Bte

open Bytes L2capLink

section Handlers

variable {x : Nat → Nat → Prop} {host : L2capHost} (hh : host.Plays)
include hh

omit hh in
theorem runs_withSignalHeader (w : L2capLink) (reader : List UInt8) (len neededLen : Nat)
    {handle : List UInt8 → List UInt8 → Handled} (hhandle : ∀ header rest, Runs x w (handle header rest).link) :
    Runs x w (withSignalHeader w reader len neededLen handle).link := by
  unfold withSignalHeader
  split
  · exact .refl w
  · exact hhandle _ _

/-! ## Connection -/

theorem runs_connectAnswered (w : L2capLink) (p : Nat) (reply : ConnectionResponse) (reader : List UInt8) :
    Runs x w (connectAnswered host w p reply reader).link := by
  unfold connectAnswered
  simp only
  split
  · exact .refl w
  · have hconnected := runs_connected (x := x) hh w p (w.channels p).clientCb
      (if reply.result = connRespResOk then some p else none) (some reply) (w.channels p).userdata
    split
    · exact hconnected.trans (runs_unref _ p)
    · exact hconnected

theorem runs_established {w : L2capLink} {p : Nat} (h : (w.channels p).state = .waitConnectRsp) (hi : w.Idle) :
    Runs x w (l2capSetState host w p .waitConfig) := by
  have hne : L2capState.waitConfig ≠ (w.channels p).state := by
    rw [h]
    decide
  rw [l2capSetState, if_neg hne]
  exact (runs_enter (.established h (hi.here p))).trans (runs_stateChanged hh _ p _)

theorem runs_connectCb {w : L2capLink} {p : Nat} (h : (w.channels p).state = .waitConnectRsp) (hi : w.Idle)
    (reader : List UInt8) (respLen : Nat) : Runs x w (l2capConnectCb host w p reader respLen).link := by
  unfold l2capConnectCb
  refine runs_withSignalHeader w reader respLen 8 fun data rest => ?_
  simp only
  split
  · refine (runs_setState hh fun _ => .inr rfl).trans ((runs_connected hh _ p _ _ _ _).trans (runs_unref _ p))
  · refine Runs.trans (Runs.trans ?_ (Still.runs (still_modify _ p fun _ => ?_))) (runs_connectAnswered hh _ p _ rest)
    · split
      · exact runs_established hh h hi
      · exact .refl w
    · exact ⟨rfl, rfl, rfl, rfl, rfl⟩

omit hh in
/-- What is known of a channel that the peer connected: the place it got, and the note of its id. -/
theorem newConnected_some {w w₁ : L2capLink} {psm channelId p : Nat}
    (h : bteL2capNewConnected w psm channelId = (some p, w₁)) :
    p = w.allocated ∧ ∃ i, w.clients i = none ∧ w₁ = { w with
      channels := Function.update w.channels w.allocated { bteL2capNew with
        localChannelId := w.nextChannelId.1, remoteChannelId := channelId, psm := psm }
      allocated := w.allocated + 1
      clients := Function.update w.clients i (some w.allocated)
      nextLocalChannelId := w.nextChannelId.2.nextLocalChannelId
      log := w.log ++ [.created w.allocated false]
      notes := w.notes ++ [.allotted w.allocated w.nextChannelId.1 ({ (w.alloc false).2 with
        clients := Function.update w.clients i (some w.allocated) }).tables] } := by
  unfold bteL2capNewConnected at h
  simp only at h
  split at h
  · cases h
  · rename_i w' hadd
    obtain ⟨i, hi, rfl⟩ := addClient_cases hadd
    obtain ⟨hp, hw⟩ := Prod.mk.inj h
    refine ⟨(Option.some.inj hp).symm, i, hi, ?_⟩
    rw [← hw]
    simp only [L2capLink.alloc, L2capLink.record, L2capLink.modify, allot, note, nextChannelId, Function.update_idem,
      Function.update_self]
    rfl

omit hh in
theorem newConnected_none {w w₁ : L2capLink} {psm channelId : Nat}
    (h : bteL2capNewConnected w psm channelId = (none, w₁)) : Runs x w w₁ := by
  unfold bteL2capNewConnected at h
  simp only at h
  split at h
  · rw [← (Prod.mk.inj h).2]
    exact (runs_alloc w false).trans (runs_unref _ _)
  · cases h

omit hh in
theorem runs_accepted {w w₁ w₂ : L2capLink} {psm channelId : Nat}
    (h : bteL2capNewConnected w psm channelId = (some w.allocated, w₁)) (hs : w₁.Still w₂) (hi : w.Idle) :
    Runs x w (w₂.enter w.allocated .waitConfig) := by
  obtain ⟨-, i, -, hw₁⟩ := newConnected_some h
  have halloc : (w₂.enter w.allocated .waitConfig).allocated = w.allocated + 1 := hs.allocated.trans (by rw [hw₁])
  refine runs_local (.accepted h hs (hi.here _)) (hs.here.trans (by rw [hw₁])) (hs.parked.trans (by rw [hw₁]))
    (by rw [halloc]; exact Nat.le_succ _) (fun p hp _ => ?_) ⟨[.allotted w.allocated w.nextChannelId.1 _],
      hs.notes.trans (by rw [hw₁]), fun _ => rfl⟩ fun ht j p hj => ?_
  · have hne : p ≠ w.allocated := hp.ne
    have henter : (w₂.enter w.allocated .waitConfig).channels p = w₂.channels p := by
      simp [L2capLink.enter, L2capLink.record, L2capLink.modify, Function.update_of_ne hne]
    rw [henter, (hs.channels p).localChannelId, hw₁]
    simp [Function.update_of_ne hne]
  · rw [halloc]
    have hclients : (w₂.enter w.allocated .waitConfig).clients = Function.update w.clients i (some w.allocated) :=
      hs.clients.trans (by rw [hw₁])
    rw [hclients] at hj
    by_cases hji : j = i
    · subst hji
      simp only [Function.update_self, Option.some.injEq] at hj
      omega
    · rw [Function.update_of_ne hji] at hj
      exact Nat.lt_succ_of_lt (ht j p hj)

theorem runs_handleConnectionReq {w : L2capLink} (hi : w.Idle) (id : Nat) (reader : List UInt8) (reqLen : Nat) :
    Runs x w (aclL2capHandleConnectionReq host w id reader reqLen).link := by
  unfold aclL2capHandleConnectionReq
  refine runs_withSignalHeader w reader reqLen 4 fun header rest => ?_
  have hreply : ∀ (w' : L2capLink) channelId result,
      w'.Still (l2capConnectionReqReply host w' id channelId (word header 1) result) :=
    fun w' _ _ => still_cmdReply host w' none rfl id _
  unfold l2capServerHandleConnectionReq
  simp only
  cases host.serverForPsm (word header 0) with
  | false => exact (hreply w _ _).runs
  | true =>
    simp only [if_true]
    generalize hnew : bteL2capNewConnected w (word header 0) (word header 1) = new
    obtain ⟨p, w₁⟩ := new
    cases p with
    | none => exact (newConnected_none hnew).trans (hreply w₁ _ _).runs
    | some p =>
      obtain ⟨rfl, i, -, hw₁⟩ := newConnected_some hnew
      have hset : w₁.Still (w₁.modify w.allocated fun l2cap => { l2cap with stateChangedCb := .server }) := by
        refine still_modify w₁ _ fun _ => ?_
        exact ⟨rfl, rfl, rfl, rfl, rfl⟩
      have hstill := fun channelId => hset.trans (hreply _ channelId connRespResOk)
      have hclosed : ∀ {w₂}, w₁.Still w₂ → L2capState.waitConfig ≠ (w₂.channels w.allocated).state := by
        intro w₂ hs
        rw [(hs.channels _).state, hw₁]
        simp [bteL2capNew]
      simp only [Handled.of]
      rw [l2capSetState, if_neg (hclosed (hstill _))]
      exact (runs_accepted hnew (hstill _) hi).trans (runs_stateChanged hh _ _ _)

/-! ## Configuration -/

theorem runs_deliverConfigureReply (w : L2capLink) (p : Nat) : Runs x w (deliverConfigureReply host w p) := by
  unfold deliverConfigureReply
  refine (runs_configured hh w _ p _ _ _).trans (Still.runs (still_modify _ p fun _ => ?_))
  exact ⟨rfl, rfl, rfl, rfl, rfl⟩

theorem runs_finishConfigResp (w : L2capLink) (p flags result : Nat) {handled : L2event} (he : handled.quiet) :
    Runs x w (finishConfigResp host w p flags result handled) := by
  unfold finishConfigResp
  simp only
  split
  · split
    · generalize ((w.channels p).configureResp.map (·.data)).getD ConfigureData.zero = conf
      refine (still_configApply w p conf.params false).runs.trans ?_
      refine (runs_deliverConfigureReply hh _ p).trans ((still_record _ he).runs.trans
        (runs_setState hh fun hlow => .inl ?_))
      rcases low_cases hlow with hs | hs | hs <;> rw [hs] <;> rfl
    · refine (still_record w he).runs.trans (Runs.trans (runs_setState hh fun hlow => .inl ?_)
        (runs_deliverConfigureReply hh _ p))
      rcases low_cases hlow with hs | hs | hs <;> rw [hs] <;> rfl
  · refine (still_record w he).runs.trans ?_
    split
    · exact runs_configSend hh _ p _ 0
    · exact .refl _

theorem runs_handleConfigResp (w : L2capLink) (p id : Nat) (reader : List UInt8) (respLen : Nat) :
    Runs x w (l2capHandleConfigResp host w p id reader respLen).link := by
  unfold l2capHandleConfigResp
  refine runs_withSignalHeader w reader respLen 6 fun header rest => ?_
  refine Runs.trans (Still.runs (still_modify w p fun _ => ?_)) (runs_finishConfigResp hh _ p _ _ rfl)
  exact ⟨rfl, rfl, rfl, rfl, rfl⟩

theorem runs_sendRespPacket (w : L2capLink) (p msgId : Nat) : Runs x w (l2capConfigSendRespPacket host w p msgId).2 := by
  unfold l2capConfigSendRespPacket
  simp only
  refine (runs_configSend hh w p _ msgId).trans (Still.runs (still_modify _ p fun _ => ?_))
  split <;> exact ⟨rfl, rfl, rfl, rfl, rfl⟩

omit hh in
theorem runs_replyTypeError {w w' : L2capLink} {p id : Nat} {reader : List UInt8} {reqLen replySize : Nat}
    (h : l2capConfigureReplyTypeError host w p id reader reqLen replySize = some w') : Runs x w w' := by
  unfold l2capConfigureReplyTypeError at h
  obtain ⟨writes, -, rfl⟩ := Option.map_eq_some_iff.1 h
  exact (still_send host w (some p) rfl id _ _).runs

omit hh in
theorem still_acceptConfigure (w : L2capLink) (p : Nat) : w.Still (acceptConfigure w p) := by
  unfold acceptConfigure
  simp only
  split
  · split
    · refine (still_configApply w p _ true).trans (still_modify _ p fun _ => ?_)
      exact ⟨rfl, rfl, rfl, rfl, rfl⟩
    · exact still_configApply w p _ true
  · exact .refl w

theorem runs_configureRequested (w : L2capLink) (p id : Nat) : Runs x w (configureRequested host w p id) := by
  unfold configureRequested
  simp only
  refine Runs.trans (Runs.trans ?_ (still_acceptConfigure _ p).runs) (runs_configSend hh _ p _ id)
  split
  · exact .refl w
  · exact runs_call hh w p rfl

theorem runs_answerConfigureReq {w w' : L2capLink} {p id flags : Nat} {parsed : ConfigParsed} {reader : List UInt8}
    {reqLen : Nat} (h : answerConfigureReq host w p id flags parsed reader reqLen = some w') : Runs x w w' := by
  unfold answerConfigureReq at h
  split at h
  · exact runs_replyTypeError h
  · cases h
    exact .refl w
  · split at h
    · cases h
      exact (still_cmdReply host w (some p) rfl id _).runs
    · cases h
      exact runs_configureRequested hh w p id

omit hh in
theorem still_finishConfigureReq (w : L2capLink) (p flags : Nat) : w.Still (finishConfigureReq w p flags) := by
  unfold finishConfigureReq
  refine still_modify w p fun _ => ?_
  split
  · exact .refl _
  · split <;> exact ⟨rfl, rfl, rfl, rfl, rfl⟩

theorem runs_handleConfigureReqOn (w : L2capLink) (p id flags : Nat) (reader rest : List UInt8) (reqLen : Nat) :
    Runs x w (handleConfigureReqOn host w p id flags reader rest reqLen).link := by
  have hstored : ∀ (w : L2capLink) conf, w.Still (w.modify p fun l2cap => { l2cap with configureReq := some conf }) :=
    fun w conf => still_modify w p fun _ => ⟨rfl, rfl, rfl, rfl, rfl⟩
  have hstart : Runs x w (bteL2capRef (w.modify p fun l2cap => { l2cap with
      configureReq := some ((w.channels p).configureReq.getD .zero) }) p) :=
    ((hstored w _).trans (still_ref _ p)).runs
  unfold handleConfigureReqOn
  simp only
  refine hstart.trans ?_
  generalize bteL2capRef (w.modify p fun l2cap => { l2cap with
    configureReq := some ((w.channels p).configureReq.getD .zero) }) p = w₁
  split
  · exact (runs_sendRespPacket hh w₁ p id).trans (runs_unref _ p)
  · generalize hw : w₁.modify p (fun l2cap => { l2cap with configureReq := some _ }) = w₂
    have hparsed : Runs x w₁ w₂ := hw ▸ (hstored w₁ _).runs
    generalize hanswer : answerConfigureReq host w₂ p id flags _ reader reqLen = answer
    cases answer with
    | none => exact hparsed
    | some w₃ =>
      refine hparsed.trans ((runs_answerConfigureReq hh hanswer).trans ?_)
      exact (still_finishConfigureReq w₃ p flags).runs.trans (runs_unref _ p)

theorem runs_handleConfigureReq (w : L2capLink) (id : Nat) (reader : List UInt8) (reqLen : Nat) :
    Runs x w (aclL2capHandleConfigureReq host w id reader reqLen).link := by
  unfold aclL2capHandleConfigureReq
  refine runs_withSignalHeader w reader reqLen 4 fun header rest => ?_
  split
  · exact (still_rejectCommand host w id _ _).runs
  · exact runs_handleConfigureReqOn hh w _ id _ reader rest reqLen

/-! ## Echo and information -/

theorem runs_handleEchoResp (w : L2capLink) (p : Nat) (reader : List UInt8) :
    Runs x w (l2capHandleEchoResp host w p reader).link := by
  unfold l2capHandleEchoResp
  simp only
  split
  · exact runs_call hh w p rfl
  · exact .refl w
  · exact .refl w
  · exact .refl w

theorem runs_echoResponder (reader : List UInt8) : ∀ (is : List (Fin 4)) (w : L2capLink),
    Runs x w (echoResponder host reader is w).2.2
  | [], w => .refl w
  | i :: is, w => by
    unfold echoResponder
    split
    · exact runs_echoResponder reader is w
    · split
      · exact runs_echoResponder reader is w
      · simp only
        split
        · exact runs_call hh w _ rfl
        · exact (runs_call hh w _ rfl).trans (runs_echoResponder reader is _)

theorem runs_handleEchoReq (w : L2capLink) (id : Nat) (reader : List UInt8) :
    Runs x w (aclL2capHandleEchoReq host w id reader).link := by
  have hresponder : Runs x w (echoResponder host reader (List.finRange 4) w).2.2 := runs_echoResponder hh reader _ w
  unfold aclL2capHandleEchoReq
  simp only
  generalize echoResponder host reader (List.finRange 4) w = r at hresponder ⊢
  generalize aclL2capCreateCmd host l2capSignalEchoRsp id r.2.1 = writer
  cases writer with
  | none => exact hresponder
  | some writer =>
    refine hresponder.trans (Runs.trans ?_ (still_send host _ none rfl id _ _).runs)
    simp only [Option.isSome_some, if_true, echoReply]
    cases echoWriter r.2.2 r.1 with
    | none => exact .refl _
    | some c => exact runs_call hh _ c.1 rfl

theorem runs_handleInfoResp (w : L2capLink) (p : Nat) (reader : List UInt8) (respLen : Nat) :
    Runs x w (l2capHandleInfoResp host w p reader respLen).link := by
  unfold l2capHandleInfoResp
  refine runs_withSignalHeader w reader respLen 4 fun header rest => ?_
  simp only [Handled.of]
  split
  · exact runs_call hh w p rfl
  · exact .refl w
  · exact .refl w
  · exact .refl w

omit hh in
theorem runs_handleInfoReq (w : L2capLink) (id : Nat) (reader : List UInt8) (reqLen : Nat) :
    Runs x w (aclL2capHandleInfoReq host w id reader reqLen).link := by
  unfold aclL2capHandleInfoReq
  refine runs_withSignalHeader w reader reqLen 2 fun header rest => ?_
  exact (still_cmdReply host w none rfl id _).runs

/-! ## Disconnection -/

theorem runs_handleDisconnectResp (w : L2capLink) (p : Nat) (reader : List UInt8) (respLen : Nat) :
    Runs x w (l2capHandleDisconnectResp host w p reader respLen).link := by
  unfold l2capHandleDisconnectResp
  refine runs_withSignalHeader w reader respLen 4 fun header rest => ?_
  simp only
  split
  · exact .refl w
  · exact runs_close hh w p _

theorem runs_handleDisconnectReq (w : L2capLink) (id : Nat) (reader : List UInt8) (reqLen : Nat) :
    Runs x w (aclL2capHandleDisconnectReq host w id reader reqLen).link := by
  unfold aclL2capHandleDisconnectReq
  refine runs_withSignalHeader w reader reqLen 4 fun header rest => ?_
  split
  · exact (still_rejectCommand host w id _ _).runs
  · rename_i p _
    have hresp : Runs x w (l2capSendDisconnectResp host w p id).2 := (still_cmdReply host w (some p) rfl id _).runs
    generalize (l2capSendDisconnectResp host w p id).2 = w₁ at hresp ⊢
    exact hresp.trans (runs_close hh w₁ p _)

theorem runs_handleRequest {w : L2capLink} (hi : w.Idle) (code id : Nat) (reader : List UInt8) (reqLen : Nat) :
    Runs x w (aclL2capHandleRequest host w code id reader reqLen).link := by
  unfold aclL2capHandleRequest
  split
  · exact runs_handleConnectionReq hh hi id reader reqLen
  split
  · exact runs_handleConfigureReq hh w id reader reqLen
  split
  · exact runs_handleEchoReq hh w id reader
  split
  · exact runs_handleInfoReq w id reader reqLen
  split
  · exact runs_handleDisconnectReq hh w id reader reqLen
  · exact .refl w

theorem runs_handleResponse {w : L2capLink} (hi : w.Idle) (p code id : Nat) (reader : List UInt8) (respLen : Nat) :
    Runs x w (l2capHandleResponse host w p code id reader respLen).link := by
  unfold l2capHandleResponse
  simp only
  split
  · split
    · rename_i hstate
      exact runs_connectCb hh hstate hi reader respLen
    · exact .refl w
  split
  · split
    · exact runs_handleConfigResp hh w p id reader respLen
    · exact .refl w
  split
  · exact runs_handleEchoResp hh w p reader
  split
  · exact runs_handleInfoResp hh w p reader respLen
  split
  · split
    · exact runs_handleDisconnectResp hh w p reader respLen
    · exact .refl w
  · exact .refl w

/-! ## Responses and their count -/

/-- **A response that its channel accepts is taken.** -/
theorem response_taken {w : L2capLink} {p code id : Nat} {reader : List UInt8} {respLen : Nat} (hi : w.Idle)
    (hp : p < w.allocated) (h : (w.channels p).accepts code reader respLen) :
    (l2capHandleResponse host w p code id reader respLen).ok = true := by
  unfold L2cap.accepts at h
  unfold l2capHandleResponse
  simp only
  split at h
  · rename_i hcode
    simp only [Bool.and_eq_true, beq_iff_eq, Bool.or_eq_true, decide_eq_true_eq] at h
    obtain ⟨⟨hstate, hread⟩, hresult⟩ := h
    rw [if_pos hcode, if_pos hstate, l2capConnectCb]
    rcases withSignalHeader_cases w reader respLen 8 _ with ⟨-, heq⟩ | ⟨hno, -⟩
    · rw [heq]
      simp only
      split
      · rfl
      · rename_i hpending
        obtain ⟨hok, hid⟩ := hresult.resolve_left hpending
        have hset : Runs (fun _ _ => False) w (l2capSetState host w p .waitConfig) := runs_established hh hstate hi
        have hsame := hset.local_id hp not_false
        rw [if_pos hok, connectAnswered]
        simp [L2capLink.modify, hsame, hid, hok, Handled.of, connRespResOk, connRespResPending]
    · rw [hread] at hno
      cases hno
  rename_i hconn
  rw [if_neg hconn]
  split at h
  · rename_i hcode
    simp only [Bool.and_eq_true, Bool.or_eq_true, beq_iff_eq] at h
    rw [if_pos hcode, if_pos h.1, l2capHandleConfigResp]
    rcases withSignalHeader_cases w reader respLen 6 _ with ⟨-, heq⟩ | ⟨hno, -⟩
    · rw [heq]
      rfl
    · rw [h.2] at hno
      cases hno
  rename_i hconfig
  rw [if_neg hconfig]
  split at h
  · rename_i hcode
    rw [if_pos hcode, l2capHandleEchoResp]
    split <;> rfl
  rename_i hecho
  rw [if_neg hecho]
  split at h
  · rename_i hcode
    rw [if_pos hcode, l2capHandleInfoResp]
    rcases withSignalHeader_cases w reader respLen 4 _ with ⟨-, heq⟩ | ⟨hno, -⟩
    · rw [heq]
      rfl
    · rw [h] at hno
      cases hno
  rename_i hinfo
  rw [if_neg hinfo]
  split at h
  · rename_i hcode
    simp only [Bool.and_eq_true, beq_iff_eq] at h
    obtain ⟨⟨hstate, hread⟩, hremote, hlocal⟩ := h
    rw [if_pos hcode, if_pos hstate, l2capHandleDisconnectResp]
    rcases withSignalHeader_cases w reader respLen 4 _ with ⟨-, heq⟩ | ⟨hno, -⟩
    · rw [heq]
      simp only
      rw [if_neg (by simp [hremote, hlocal])]
      rfl
    · rw [hread] at hno
      cases hno
  · cases h

omit hh in
theorem runs_ignored {w : L2capLink} {code id : Nat} (reader : List UInt8) (len : Nat)
    (h : w.findClient (·.expects code id) = none) : Runs x w (w.note (.response code id reader len w.table)) :=
  runs_local (.ignored reader len h) rfl rfl le_rfl (fun _ _ _ => rfl) ⟨[_], rfl, fun _ => rfl⟩ fun ht => ht

omit hh in
theorem localChannelId_modify (w : L2capLink) (p : Nat) {f : L2cap → L2cap}
    (hf : ∀ l : L2cap, (f l).localChannelId = l.localChannelId) (q : Nat) :
    ((w.modify p f).channels q).localChannelId = (w.channels q).localChannelId := by
  by_cases hq : q = p
  · subst hq
    simp [L2capLink.modify, hf]
  · simp [L2capLink.modify, Function.update_of_ne hq]

omit hh in
theorem runs_answered {w : L2capLink} {p code id : Nat} (reader : List UInt8) (len : Nat)
    (h : w.findClient (·.expects code id) = some p) :
    Runs x w ((w.note (.response code id reader len w.table)).modify p countDown) :=
  runs_local (.answered reader len h) rfl rfl le_rfl
    (fun q _ _ => localChannelId_modify (w.note (.response code id reader len w.table)) p (f := countDown) (fun _ => rfl) q)
    ⟨[_], rfl, fun _ => rfl⟩ fun ht => ht

omit hh in
theorem runs_restore {w : L2capLink} {p : Nat} (h : ∃ n ∈ w.notes, ¬ n.Taken) : Runs x w (w.restore p) :=
  runs_local (.restored h) rfl rfl le_rfl
    (fun q _ _ => localChannelId_modify (w.note (.restored p (w.channels p).expectedResponseId)) p (f := countUp)
      (fun _ => rfl) q)
    ⟨[_], rfl, fun _ => rfl⟩ fun ht => ht

omit hh in
/-- The channel that a search finds is in the table. -/
theorem findClient_some {w : L2capLink} {test : L2cap → Bool} {p : Nat} (h : w.findClient test = some p) :
    (∃ i, w.clients i = some p) ∧ test (w.channels p) := by
  obtain ⟨i, -, hi⟩ := List.exists_of_findSome?_eq_some h
  obtain ⟨q, hq, hfound⟩ := Option.bind_eq_some_iff.1 hi
  split at hfound
  · rename_i htest
    cases hfound
    exact ⟨⟨i, hq⟩, htest⟩
  · cases hfound

omit hh in
theorem mem_channelTable {clients : Fin 4 → Option Nat} {channels : Nat → L2cap} {e : Nat × L2cap} :
    e ∈ channelTable clients channels ↔ (∃ i, clients i = some e.1) ∧ e.2 = channels e.1 := by
  simp only [channelTable, List.mem_filterMap, List.mem_finRange, true_and, Option.map_eq_some_iff]
  constructor
  · rintro ⟨i, p, hi, rfl⟩
    exact ⟨⟨i, hi⟩, rfl⟩
  · rintro ⟨⟨i, hi⟩, heq⟩
    exact ⟨i, e.1, hi, Prod.ext rfl heq.symm⟩

omit hh in
theorem mem_table {w : L2capLink} {e : Nat × L2cap} : e ∈ w.table ↔ w.Tabled e.1 ∧ e.2 = w.channels e.1 :=
  mem_channelTable

omit hh in
/-- The count goes down, and the reference is held: in either order. -/
theorem ref_countDown (w : L2capLink) (p : Nat) :
    (bteL2capRef w p).modify p countDown = bteL2capRef (w.modify p countDown) p := by
  simp [bteL2capRef, L2capLink.modify, countDown]

theorem runs_receivedResponse {w : L2capLink} (ht : w.Tidy) (hi : w.Idle) (code id : Nat) (reader : List UInt8)
    (cmdLen : Nat) : Runs x w (aclL2capHandleResponse host w code id reader cmdLen).link := by
  unfold aclL2capHandleResponse
  simp only [L2capLink.findClient_note]
  split
  · rename_i hnone
    exact runs_ignored reader cmdLen hnone
  · rename_i p hsome
    obtain ⟨⟨i, hplace⟩, hexpects⟩ := findClient_some hsome
    have hp : p < w.allocated := by
      have hhere := ht w.here i p
      rw [link_here] at hhere
      exact hhere hplace
    rw [ref_countDown]
    have hcount : Runs x w ((w.note (.response code id reader cmdLen w.table)).modify p countDown) :=
      runs_answered reader cmdLen hsome
    generalize hw₁ : (w.note (.response code id reader cmdLen w.table)).modify p countDown = w₁ at hcount ⊢
    have href : Runs x w (bteL2capRef w₁ p) := hcount.trans (still_ref w₁ p).runs
    have hhandled := runs_handleResponse (x := x) hh (href.idle hi) p code id reader cmdLen
    refine href.trans ?_
    split
    · exact hhandled.trans (runs_unref _ p)
    · rename_i hrefused
      refine hhandled.trans ((runs_restore ⟨.response code id reader cmdLen w.table, ?_, fun htaken => hrefused ?_⟩).trans
        (runs_unref _ p))
      · refine hhandled.note_mem ?_
        rw [← hw₁]
        simp [bteL2capRef, L2capLink.modify, note]
      · have hmem : (p, w.channels p) ∈ w.table := mem_table.2 ⟨⟨i, hplace⟩, rfl⟩
        have haccepts := (htaken (p, w.channels p) hmem hexpects).1
        refine response_taken hh (href.idle hi) ?_ ?_
        · rw [← hw₁]
          exact hp
        · rw [← hw₁]
          simpa [L2cap.accepts, bteL2capRef, L2capLink.modify, note, countDown] using haccepts

theorem runs_handleSignal {w : L2capLink} (ht : w.Tidy) (hi : w.Idle) (code id : Nat) (reader : List UInt8) (cmdLen : Nat) :
    Runs x w (handleSignal host w code id reader cmdLen).link := by
  unfold handleSignal
  split
  · exact runs_handleRequest hh hi code id reader cmdLen
  · exact runs_receivedResponse hh ht hi code id reader cmdLen

theorem runs_signallingLoop (totalLen size : Nat) : ∀ (fuel parsedLen : Nat) (reader : List UInt8) {w : L2capLink},
    w.Tidy → w.Idle → Runs x w (signallingLoop host totalLen size fuel parsedLen reader w).2
  | 0, _, _, w, _, _ => .refl w
  | fuel + 1, parsedLen, reader, w, ht, hi => by
    unfold signallingLoop
    simp only
    split
    · split
      · exact .refl w
      · have hsignal := runs_handleSignal (x := x) hh ht hi ((reader.take 4).getD 0 0).toNat ((reader.take 4).getD 1 0).toNat
          (reader.drop 4) (leVal (slice (reader.take 4) 2 2))
        split
        · exact hsignal
        · exact hsignal.trans (runs_signallingLoop totalLen size fuel _ _ (hsignal.tidy ht) (hsignal.idle hi))
    · exact .refl w

theorem runs_dataReceived {w : L2capLink} (ht : w.Tidy) (hi : w.Idle) (reader : BufferReader) :
    Runs x w (aclDataReceivedCb host w reader).2 := by
  unfold aclDataReceivedCb
  split
  · exact .refl w
  · simp only
    split
    · exact runs_signallingLoop hh _ _ _ _ _ ht hi
    · split
      · exact .refl w
      · split
        · exact .refl w
        · exact runs_call hh w _ rfl

/-! ## The link comes and goes -/

omit hh in
theorem runs_forClients {f : L2capLink → Nat → L2capLink} (hf : ∀ w p, w.Tabled p → Runs x w (f w p)) (w : L2capLink) :
    Runs x w (w.forClients f) := by
  unfold forClients
  generalize List.finRange 4 = is
  induction is generalizing w with
  | nil => exact .refl w
  | cons i is ih =>
    rw [List.foldl_cons]
    refine Runs.trans ?_ (ih _)
    split
    · exact .refl w
    · rename_i p hi
      exact hf w p ⟨i, hi⟩

theorem runs_aclConnectedCb (w : L2capLink) (status : Nat) :
    Runs (fun _ _ => True) w (aclConnectedCb host w status) := by
  refine runs_forClients (fun w p htabled => ?_) w
  have hreq : Runs (fun _ _ => True) w (if status ≠ 0 then (false, w) else l2capConnectionRequest host w p).2 := by
    split
    · exact .refl w
    · exact runs_connectionRequest hh htabled trivial
  unfold aclL2capConnectedCb
  simp only
  generalize (if status ≠ 0 then (false, w) else l2capConnectionRequest host w p) = r at hreq ⊢
  split
  · exact hreq
  · exact hreq.trans ((runs_connected hh _ p _ _ _ _).trans (runs_unref _ p))

theorem runs_aclDisconnectedCb (w : L2capLink) (reason : Nat) : Runs x w (aclDisconnectedCb host w reason) := by
  refine runs_forClients (fun w p _ => ?_) w
  have hconf : Runs x w (if (w.channels p).state = .waitConfigReqRsp ∧ (w.channels p).clientCb ≠ .null then
      configured host w (w.channels p).clientCb p ⟨0xfffffff, 0xfffffff, .zero⟩ (w.channels p).cmdUserdata true
      else w) := by
    split
    · exact runs_configured hh w _ p _ _ _
    · exact .refl w
  unfold l2capDisconnectCb
  simp only
  generalize (if (w.channels p).state = .waitConfigReqRsp ∧ (w.channels p).clientCb ≠ .null then
      configured host w (w.channels p).clientCb p ⟨0xfffffff, 0xfffffff, .zero⟩ (w.channels p).cmdUserdata true
      else w) = w₁ at hconf ⊢
  refine hconf.trans ?_
  split
  · exact (runs_connected hh _ p _ _ _ _).trans (runs_unref _ p)
  · split
    · exact .refl _
    · exact runs_call hh _ p rfl

end Handlers

/-! ## A process -/

/-- **A step of a process comes down to moves.** -/
theorem runs_processStep {hosts : Nat → L2capHost} (hh : ∀ k, (hosts k).Plays) {w : L2capLink} (ht : w.Tidy)
    (hi : w.Idle) (op : ProcessOp) : Runs (fun _ _ => True) w (w.processStep hosts op) := by
  have htidy : ∀ k, (w.focus k).Tidy := fun k j => by simpa using ht j
  have hidle : ∀ k, (w.focus k).Idle := fun k j => by simpa using hi j
  cases op with
  | api k call => exact runs_focus w k (runs_apply (hh k) _ call)
  | received k reader => exact runs_focus w k (runs_dataReceived (hh k) (htidy k) (hidle k) reader)
  | aclConnected k status => exact runs_focus w k (runs_aclConnectedCb (hh k) _ status)
  | aclDisconnected k reason => exact runs_focus w k (runs_aclDisconnectedCb (hh k) _ reason)
  | controller dev => exact Still.runs (still_shared rfl rfl rfl rfl rfl rfl rfl rfl)

/-- **A run of a process is a sequence of moves.** -/
theorem runs_processRun (hosts : Nat → L2capHost) (clients : L2capClients) (depth : Nat) (dev : AclOut)
    (ops : List ProcessOp) : Runs (fun _ _ => True) (.start dev) (processRun hosts clients depth dev ops) := by
  have htidy : (L2capLink.start dev).Tidy := by
    intro k i p hi
    rw [link_start] at hi
    cases hi
  have hidle : (L2capLink.start dev).Idle := by
    intro k p
    rw [link_start]
    rfl
  have hstart : Runs (fun _ _ => True) (.start dev) (.start dev) := .refl _
  refine Sys.inv_run_all (fun w op hw => ?_) hstart ops
  exact hw.trans (runs_processStep (plays_clients clients hosts depth) (hw.tidy htidy)
    (hw.idle hidle) op)

end Bte
