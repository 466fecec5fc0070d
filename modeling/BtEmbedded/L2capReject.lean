import BtEmbedded.L2capDemux
import BtEmbedded.L2capLost
/-!
# L2capReject — a configuration that is refused (l2cap.c)

`l2cap_config_send` answers a request that the client rejects with one result, and `l2cap_handle_config_resp` knows two
others: the side that asked is told nothing of the refusal.  For any response, the client hears of a failure exactly if the
options name something (`failureReported_iff`).
-/
namespace Bte

open Bytes

/-! ## The mask a parser leaves -/

/-- The known options of a row, or nothing if the row is malformed. -/
def namedOptionsFrom (cmdSize : Nat) : Nat → List UInt8 → Nat → Option (List ConfigOption)
  | 0, _, _ => none
  | fuel + 1, reader, read =>
    if read < cmdSize then
      if reader.length < 2 then none
      else
        let type := (reader.getD 0 0).toNat
        let size := (reader.getD 1 0).toNat
        if read + 2 + size > cmdSize then none
        else
          match ConfigOption.ofType (type &&& 0x7f) with
          | none => namedOptionsFrom cmdSize fuel ((reader.drop 2).drop size) (read + 2 + size)
          | some o =>
            if (reader.drop 2).length < o.len ∨ size ≠ o.len then none
            else (namedOptionsFrom cmdSize fuel ((reader.drop 2).drop o.len) (read + 2 + size)).map (o :: ·)
    else some []

def namedOptions (reader : List UInt8) (cmdSize : Nat) : Option (List ConfigOption) :=
  namedOptionsFrom cmdSize (cmdSize + 1) reader 0

/-- A mask with the bits of a row of options added to it. -/
def addBits (mask : Nat) (os : List ConfigOption) : Nat := os.foldl (fun mask o => mask ||| o.bit) mask

/-- A response is parsed without asking for the size of what is not known. -/
theorem fieldMask_parseLoop (cmdSize : Nat) :
    ∀ (fuel : Nat) (reader : List UInt8) (params : ConfigureParams) (read : Nat) (typeError : Bool),
      (configParseLoop false cmdSize fuel reader params read 0 typeError).params.fieldMask =
        ((namedOptionsFrom cmdSize fuel reader read).map (addBits params.fieldMask)).getD 0
  | 0, _, _, _, _ => rfl
  | fuel + 1, reader, params, read, typeError => by
    unfold configParseLoop namedOptionsFrom
    simp only
    split
    · have hhead : (reader.take 2).length ≠ 2 ↔ reader.length < 2 := by
        rw [List.length_take]
        omega
      by_cases hshort : reader.length < 2
      · rw [if_pos (hhead.2 hshort), if_pos hshort]
        rfl
      · have htype : ((reader.take 2).getD 0 0) = reader.getD 0 0 := by
          rw [List.getD_eq_getElem?_getD, List.getD_eq_getElem?_getD, List.getElem?_take_of_lt (by omega)]
        have hsize : ((reader.take 2).getD 1 0) = reader.getD 1 0 := by
          rw [List.getD_eq_getElem?_getD, List.getD_eq_getElem?_getD, List.getElem?_take_of_lt (by omega)]
        rw [if_neg (fun h => hshort (hhead.1 h)), if_neg hshort, htype, hsize]
        split
        · rfl
        · cases ConfigOption.ofType ((reader.getD 0 0).toNat &&& 0x7f) with
          | none =>
            simp only [Bool.not_false, Bool.or_true, if_true]
            exact fieldMask_parseLoop cmdSize fuel _ _ _ _
          | some o =>
            have hdata : ((reader.drop 2).take o.len).length ≠ o.len ↔ (reader.drop 2).length < o.len := by
              rw [List.length_take]
              omega
            simp only [hdata]
            split
            · rfl
            · rw [fieldMask_parseLoop cmdSize fuel, fieldMask_storeStruct, fieldMask_readNumber, Option.map_map]
              rfl
    · rfl

theorem fieldMask_parse (reader : List UInt8) (params : ConfigureParams) (cmdSize : Nat) :
    (l2capConfigParse false reader params cmdSize).params.fieldMask =
      ((namedOptions reader cmdSize).map (addBits params.fieldMask)).getD 0 :=
  fieldMask_parseLoop cmdSize _ reader params 0 false

theorem addBits_ne_zero : ∀ (os : List ConfigOption) (mask : Nat), addBits mask os ≠ 0 ↔ mask ≠ 0 ∨ os ≠ []
  | [], mask => by simp [addBits]
  | o :: os, mask => by
    have hbit : mask ||| o.bit ≠ 0 := by
      intro h
      have := (Nat.or_eq_zero_iff.1 h).2
      cases o <;> simp [ConfigOption.bit] at this
    have hrest := addBits_ne_zero os (mask ||| o.bit)
    unfold addBits at hrest ⊢
    rw [List.foldl_cons, hrest]
    simp [hbit]

/-- The parser leaves a mask exactly if the row is well formed, and names an option or goes on from a mask. -/
theorem fieldMask_parse_ne_zero (reader : List UInt8) (params : ConfigureParams) (cmdSize : Nat) :
    (l2capConfigParse false reader params cmdSize).params.fieldMask ≠ 0 ↔
      ∃ os, namedOptions reader cmdSize = some os ∧ (params.fieldMask ≠ 0 ∨ os ≠ []) := by
  rw [fieldMask_parse]
  cases namedOptions reader cmdSize with
  | none => simp
  | some os => simpa using addBits_ne_zero os params.fieldMask

/-! ## What a response tells the client -/

/-- The configuration callback reports a failure. -/
def L2event.fails (p : Nat) : L2event → Bool
  | .configureCb q _ reply stored => q = p && stored && (reply.rejectedMask != 0 || reply.unknownMask != 0)
  | _ => false

def L2capLink.failures (w : L2capLink) (p : Nat) : List L2event := w.log.filter (·.fails p)

/-- What the responses so far have added up to. -/
def L2capLink.answerSoFar (w : L2capLink) (p : Nat) : ConfigureData := ((w.channels p).configureResp.map (·.data)).getD .zero

/-- **When a final response that is not positive is heard of**: no flag is set, and a mask is left by an earlier response or
by the options of this one.  Only two results look at the options. -/
def FailureSeen (w : L2capLink) (p : Nat) (reader : List UInt8) (respLen : Nat) : Prop :=
  word (reader.take 6) 1 = 0 ∧
    if word (reader.take 6) 2 = l2capConfigResErrParams then
      (w.answerSoFar p).unknownMask ≠ 0 ∨ ∃ os, namedOptions (reader.drop 6) (respLen - 6) = some os ∧
        ((w.answerSoFar p).rejectedMask ≠ 0 ∨ os ≠ [])
    else if word (reader.take 6) 2 = l2capConfigResErrUnknown then
      (w.answerSoFar p).rejectedMask ≠ 0 ∨ ∃ os, namedOptions (reader.drop 6) (respLen - 6) = some os ∧ os ≠ []
    else (w.answerSoFar p).rejectedMask ≠ 0 ∨ (w.answerSoFar p).unknownMask ≠ 0

theorem configRespParse_fails {result : Nat} (hres : result ≠ l2capConfigResOk) (conf : ConfigureData) (reader : List UInt8)
    (cmdSize : Nat) :
    ((configRespParse result conf reader cmdSize).1.rejectedMask ≠ 0 ∨
      (configRespParse result conf reader cmdSize).1.unknownMask ≠ 0) ↔
    if result = l2capConfigResErrParams then
      conf.unknownMask ≠ 0 ∨ ∃ os, namedOptions reader cmdSize = some os ∧ (conf.rejectedMask ≠ 0 ∨ os ≠ [])
    else if result = l2capConfigResErrUnknown then
      conf.rejectedMask ≠ 0 ∨ ∃ os, namedOptions reader cmdSize = some os ∧ os ≠ []
    else conf.rejectedMask ≠ 0 ∨ conf.unknownMask ≠ 0 := by
  unfold configRespParse
  split
  · exact or_comm.trans (or_congr Iff.rfl (fieldMask_parse_ne_zero reader _ cmdSize))
  · split
    · refine or_congr Iff.rfl ((fieldMask_parse_ne_zero reader _ cmdSize).trans ?_)
      simp [ConfigureParams.zero]
    · exact Iff.rfl

/-- No response is delivered for the channel, those so far are kept, and there is a function to deliver them to if there
was one. -/
def Watch.answered (p : Nat) : Watch :=
  .uncalled p (fun l l' => l'.configureResp = l.configureResp ∧ (l'.clientCb = .null → l.clientCb = .null))
    (fun _ => ⟨rfl, fun h => h⟩) (fun h h' => ⟨h'.1.trans h.1, fun hn => h.2 (h'.2 hn)⟩) True

theorem answered_called (p : Nat) : (Watch.answered p).Called where
  update := fun l l' h => by
    refine ⟨h.2.1, fun hnull => ?_⟩
    rcases h.2.2.2 with hsame | hreq
    · exact hsame ▸ hnull
    · rw [hnull] at hreq
      cases hreq
  removed := trivial
  event := (configures_told p).ofCall

theorem fails_configures {p : Nat} {e : L2event} (h : e.fails p) : e.configures p := by
  cases e with
  | configureCb q cb reply stored =>
    simp only [L2event.fails, Bool.and_eq_true] at h
    simpa [L2event.configures] using h.1
  | _ => cases h

/-- Failures are calls of the client's function. -/
theorem failures_eq (w : L2capLink) (p : Nat) : w.failures p = (w.configureCbs p).filter (·.fails p) := by
  unfold L2capLink.failures L2capLink.configureCbs
  rw [List.filter_filter]
  refine List.filter_congr fun e _ => ?_
  cases he : e.fails p with
  | false => rfl
  | true => exact (fails_configures he).symm

theorem configureCbs_answered {p : Nat} {w w' : L2capLink} (h : (Watch.answered p).Within w w') :
    w'.configureCbs p = w.configureCbs p :=
  h.filter_log fun e he => ⟨(configures_told p).about e he, fun hn => Bool.noConfusion (he.symm.trans hn)⟩

theorem answerSoFar_answered {p : Nat} {w w' : L2capLink} (h : (Watch.answered p).Within w w') :
    w'.answerSoFar p = w.answerSoFar p := by
  unfold L2capLink.answerSoFar
  rw [show (w'.channels p).configureResp = (w.channels p).configureResp from h.update.1]

/-- What the client is told of the responses. -/
def ConfigureData.reply (conf : ConfigureData) : ConfigureReply := ⟨conf.rejectedMask, conf.unknownMask, conf.params⟩

section Response

variable {host : L2capHost} {p : Nat} (hh : host.Heeds (Watch.answered p)) {w : L2capLink} (hp : p < w.allocated)
include hh hp

/-- **The reply is delivered once**, as the responses add up to it. -/
theorem configureCbs_deliver : w.allocated ≤ (deliverConfigureReply host w p).allocated ∧
    (deliverConfigureReply host w p).configureCbs p =
      w.configureCbs p ++ [.configureCb p (w.channels p).clientCb (w.answerSoFar p).reply true] := by
  have hrest := leads_configured_rest hh w (q := p) (w.channels p).clientCb (w.answerSoFar p).reply
    (w.channels p).cmdUserdata true (fun _ => (answered_called p).closed) hp
  have hrecord : (w.record (.configureCb p (w.channels p).clientCb (w.answerSoFar p).reply true)).configureCbs p =
      w.configureCbs p ++ [.configureCb p (w.channels p).clientCb (w.answerSoFar p).reply true] := by
    simp [L2capLink.configureCbs, L2capLink.record, L2event.configures]
  rw [← hrecord]
  refine ⟨hrest.allocated, hrest.filter_log fun e he => ⟨(configures_told p).about e he, fun hn => ?_⟩⟩
  exact Bool.noConfusion (he.symm.trans hn)

omit hp in
theorem leads_entered (w : L2capLink) {e : L2event} (he : e.configures p = false) (s : L2capState) :
    (Watch.answered p).Leads w (l2capSetState host (w.record e) p s) :=
  Watch.Leads.trans (leads_record w fun _ => he)
    (leads_setState hh _ _ (fun _ => (answered_called p).closed) fun _ => ⟨rfl, fun h => h⟩)

omit hh in
theorem within_configApply (params : ConfigureParams) : (Watch.answered p).Within w (l2capConfigApply w p params false) :=
  leads_modify w (f := fun l2cap => { l2cap with mtu := _ }) (fun _ => ⟨rfl, fun h => h⟩) hp

/-- Whatever the result is, the function in `cmd_data` is called if no flag is set.  It may have been stored just
before, when
the client heard that the channel is back where it takes a request. -/
theorem configureCbs_finish (flags result : Nat) {e : L2event} (he : e.configures p = false) :
    ∃ cb, ((w.channels p).clientCb ≠ .null → cb ≠ .null) ∧
      (finishConfigResp host w p flags result e).configureCbs p =
        w.configureCbs p ++ if flags = 0 then [.configureCb p cb (w.answerSoFar p).reply true] else [] := by
  unfold finishConfigResp
  split
  · split
    · have happly := within_configApply hp (w.answerSoFar p).params
      have hp' := lt_of_lt_of_le hp happly.allocated
      obtain ⟨hallocated, hcbs⟩ := configureCbs_deliver hh hp'
      rw [configureCbs_answered happly, answerSoFar_answered happly] at hcbs
      exact ⟨_, fun hcb hnull => hcb (happly.update.2 hnull),
        (configureCbs_answered (leads_entered hh _ he _ (lt_of_lt_of_le hp' hallocated))).trans hcbs⟩
    · have hset := leads_entered hh w he (responseRefused ((w.record e).channels p).state) hp
      simp only
      generalize l2capSetState host (w.record e) p (responseRefused ((w.record e).channels p).state) = w' at hset ⊢
      refine ⟨(w'.channels p).clientCb, fun hcb hnull => hcb (hset.update.2 hnull), ?_⟩
      rw [(configureCbs_deliver hh (lt_of_lt_of_le hp hset.allocated)).2, configureCbs_answered hset,
        answerSoFar_answered hset]
  · refine ⟨(w.channels p).clientCb, fun hcb => hcb, ?_⟩
    have hrecord : (Watch.answered p).Within w (w.record e) := leads_record w (fun _ => he) hp
    rw [List.append_nil, ← configureCbs_answered hrecord]
    simp only
    split
    · exact configureCbs_answered (leads_sendRequest hh _ .zero (fun _ => answered_called p) hp)
    · rfl

end Response

/-- A response is kept with those before it. -/
def L2capLink.keepResponse (w : L2capLink) (p : Nat) (resp : ConfigureResp) : L2capLink :=
  w.modify p fun l2cap => { l2cap with configureResp := some resp }

theorem answerSoFar_keepResponse (w : L2capLink) (p : Nat) (resp : ConfigureResp) :
    (w.keepResponse p resp).answerSoFar p = resp.data := by
  simp [L2capLink.answerSoFar, L2capLink.keepResponse, L2capLink.modify]

theorem clientCb_keepResponse (w : L2capLink) (p : Nat) (resp : ConfigureResp) :
    ((w.keepResponse p resp).channels p).clientCb = (w.channels p).clientCb := by
  simp [L2capLink.keepResponse, L2capLink.modify]

/-- A response with those before it, where it is kept: where they are, or by its continuation flag. -/
def L2capLink.received (w : L2capLink) (p : Nat) (reader : List UInt8) (respLen : Nat) : ConfigureResp where
  data := (configRespParse (word (reader.take 6) 2) (w.answerSoFar p) (reader.drop 6) (respLen - 6)).1
  onStack := ((w.channels p).configureResp.map (·.onStack)).getD
    (decide (word (reader.take 6) 1 &&& l2capConfigFlagContinuation = 0))

/-- The handler parses a response, keeps it and goes on. -/
theorem handleConfigResp_eq (host : L2capHost) (w : L2capLink) (p id : Nat) {reader : List UInt8} {respLen : Nat}
    (hread : headerRead reader respLen 6) :
    (l2capHandleConfigResp host w p id reader respLen).link =
      finishConfigResp host (w.keepResponse p (w.received p reader respLen)) p (word (reader.take 6) 1)
        (word (reader.take 6) 2) (.handled p id (w.channels p).expectedResponseId (word (reader.take 6) 1)
          (word (reader.take 6) 2) (lastRequest p w.log)) := by
  have hresp : w.received p reader respLen =
      let resp := (w.channels p).configureResp.getD
        ⟨.zero, decide (word (reader.take 6) 1 &&& l2capConfigFlagContinuation = 0)⟩
      { resp with data := (configRespParse (word (reader.take 6) 2) resp.data (reader.drop 6) (respLen - 6)).1 } := by
    unfold L2capLink.received L2capLink.answerSoFar
    cases (w.channels p).configureResp <;> rfl
  rw [hresp]
  unfold l2capHandleConfigResp
  rcases withSignalHeader_cases w reader respLen 6 _ with ⟨-, heq⟩ | ⟨hno, -⟩
  · rw [heq]
    rfl
  · rw [hread] at hno
    cases hno

/-- The client is told once that a configuration failed, through the function that `cmd_data` holds then: there is one
if there
was one. -/
def FailureReported (w w' : L2capLink) (p : Nat) : Prop :=
  ∃ (cb : L2capClientCb) (reply : ConfigureReply), ((w.channels p).clientCb ≠ .null → cb ≠ .null) ∧
    w'.failures p = w.failures p ++ [.configureCb p cb reply true] ∧ (reply.rejectedMask ≠ 0 ∨ reply.unknownMask ≠ 0)

section Handler

variable {host : L2capHost} {p : Nat} (hh : host.Heeds (Watch.answered p)) {w : L2capLink} (hp : p < w.allocated)
include hh hp

/-- What the handler leaves of the failures. -/
theorem failures_handle (id : Nat) {reader : List UInt8} {respLen : Nat} (hread : headerRead reader respLen 6) :
    ∃ cb, ((w.channels p).clientCb ≠ .null → cb ≠ .null) ∧
      (l2capHandleConfigResp host w p id reader respLen).link.failures p =
        w.failures p ++ if word (reader.take 6) 1 = 0 then
          let conf := (configRespParse (word (reader.take 6) 2) (w.answerSoFar p) (reader.drop 6) (respLen - 6)).1
          [L2event.configureCb p cb ⟨conf.rejectedMask, conf.unknownMask, conf.params⟩ true].filter (·.fails p) else [] := by
  obtain ⟨cb, hcb, hcbs⟩ := configureCbs_finish hh (w := w.keepResponse p (w.received p reader respLen)) hp
    (word (reader.take 6) 1) (word (reader.take 6) 2) (e := .handled p id (w.channels p).expectedResponseId
      (word (reader.take 6) 1) (word (reader.take 6) 2) (lastRequest p w.log)) rfl
  refine ⟨cb, fun hclient => hcb (by rwa [clientCb_keepResponse]), ?_⟩
  rw [handleConfigResp_eq host w p id hread, failures_eq, hcbs, answerSoFar_keepResponse, List.filter_append, failures_eq]
  split <;> rfl

/-- **The client hears of a final response that is not positive exactly if it leaves a mask.** -/
theorem failureReported_handle (id : Nat) {reader : List UInt8} {respLen : Nat} (hread : headerRead reader respLen 6)
    (hres : word (reader.take 6) 2 ≠ l2capConfigResOk) :
    FailureReported w (l2capHandleConfigResp host w p id reader respLen).link p ↔ FailureSeen w p reader respLen := by
  obtain ⟨cb, hcb, hfailures⟩ := failures_handle hh hp id hread
  have hparsed := configRespParse_fails hres (w.answerSoFar p) (reader.drop 6) (respLen - 6)
  unfold FailureReported FailureSeen
  rw [hfailures, ← hparsed]
  generalize (configRespParse (word (reader.take 6) 2) (w.answerSoFar p) (reader.drop 6) (respLen - 6)).1 = conf
  by_cases hflags : word (reader.take 6) 1 = 0
  · rw [if_pos hflags]
    constructor
    · rintro ⟨cb', reply, -, heq, hmask⟩
      have hone := List.append_cancel_left heq
      refine ⟨hflags, ?_⟩
      by_contra hnone
      rw [not_or, not_not, not_not] at hnone
      simp [L2event.fails, hnone.1, hnone.2] at hone
    · rintro ⟨-, hmask⟩
      refine ⟨cb, ⟨conf.rejectedMask, conf.unknownMask, conf.params⟩, hcb, ?_, hmask⟩
      rcases hmask with h | h <;> simp [L2event.fails, h]
  · rw [if_neg hflags, List.append_nil]
    constructor
    · rintro ⟨cb', reply, -, heq, -⟩
      simp at heq
    · exact fun h => absurd h.1 hflags

end Handler

/-! ## Between two sides that run this code -/

/-- A response of this code says ERR_REJ if the client has rejected anything. -/
theorem word_configResponse (l2cap : L2cap) {conf : ConfigureData} (hrej : conf.rejectedMask ≠ 0) :
    headerRead (configResponse l2cap conf) (configResponse l2cap conf).length 6 ∧
      word ((configResponse l2cap conf).take 6) 2 = l2capConfigResErrRej := by
  unfold configResponse responseResult
  simp only [hrej, ne_eq, not_false_eq_true, if_true]
  generalize l2capConfigWrite conf.params (responseStart conf) l2cap.remoteMtu = opts
  constructor
  · simp [headerRead, List.length_append]
    omega
  · simp [word, slice, leBytes, leVal, l2capConfigResErrRej]

/-- No failure has been noted. -/
def L2capLink.Clear (w : L2capLink) (p : Nat) : Prop :=
  (w.answerSoFar p).rejectedMask = 0 ∧ (w.answerSoFar p).unknownMask = 0

section Agreement

variable {host : L2capHost} {p : Nat}

theorem clear_finish (hh : host.Heeds (Watch.answered p)) {w : L2capLink} (hp : p < w.allocated) (hclear : w.Clear p)
    {flags result : Nat} (hres : result ≠ l2capConfigResOk) {e : L2event} (he : e.configures p = false) :
    (finishConfigResp host w p flags result e).Clear p := by
  have hkept : ∀ w', (Watch.answered p).Within w w' → w'.Clear p := by
    intro w' hw'
    unfold L2capLink.Clear L2capLink.answerSoFar
    rw [show (w'.channels p).configureResp = (w.channels p).configureResp from hw'.update.1]
    exact hclear
  have hrecord : (Watch.answered p).Within w (w.record e) := leads_record w (fun _ => he) hp
  unfold finishConfigResp
  split
  · simp [deliverConfigureReply, L2capLink.Clear, L2capLink.answerSoFar, L2capLink.modify, ConfigureData.zero]
  · simp only
    split
    · exact hkept _ (hrecord.trans (leads_sendRequest hh _ .zero (fun _ => answered_called p) hp))
    · exact hkept _ hrecord

theorem leads_finish (hh : host.Heeds (Watch.any p)) (w : L2capLink) (flags result : Nat) (e : L2event) :
    (Watch.any p).Leads w (finishConfigResp host w p flags result e) := by
  have hfree := Watch.any_free p
  have hrecord : ∀ w : L2capLink, (Watch.any p).Leads w (w.record e) := fun w => leads_record w fun _ => trivial
  have hset : ∀ w s, (Watch.any p).Leads w (l2capSetState host w p s) :=
    fun w s => leads_setState hh w s (fun _ => hfree.closed) fun _ => trivial
  have hdeliver : ∀ w, (Watch.any p).Leads w (deliverConfigureReply host w p) := by
    intro w
    unfold deliverConfigureReply
    refine Watch.Leads.trans ?_ (leads_modify _ fun _ => trivial)
    exact leads_configured hh w _ _ _ _ (fun _ => hfree.closed) fun _ => trivial
  have happly : ∀ w params, (Watch.any p).Leads w (l2capConfigApply w p params false) :=
    fun w params => leads_modify w (f := fun l2cap => { l2cap with mtu := _ }) fun _ => trivial
  unfold finishConfigResp
  split
  · split
    · exact ((happly _ _).trans (hdeliver _)).trans ((hrecord _).trans (hset _ _))
    · exact ((hrecord _).trans (hset _ _)).trans (hdeliver _)
  · simp only
    split
    · exact (hrecord w).trans (leads_sendRequest hh _ .zero fun _ => hfree.called)
    · exact hrecord w

/-- A response that says ERR_REJ notes no failure, and tells of none. -/
theorem clear_handle (hh : ∀ S : Watch, S.channel = p → S.Called → host.Heeds S) {w : L2capLink} (hp : p < w.allocated)
    (hclear : w.Clear p) (id : Nat) {reader : List UInt8} {respLen : Nat} (hread : headerRead reader respLen 6)
    (hres : word (reader.take 6) 2 = l2capConfigResErrRej) :
    p < (l2capHandleConfigResp host w p id reader respLen).link.allocated ∧
      (l2capHandleConfigResp host w p id reader respLen).link.Clear p ∧
      (l2capHandleConfigResp host w p id reader respLen).link.failures p = w.failures p := by
  have hne : word (reader.take 6) 2 ≠ l2capConfigResOk := by
    rw [hres]
    decide
  have hany := hh (Watch.any p) rfl (Watch.any_free p).called
  have hanswered := hh (Watch.answered p) rfl (answered_called p)
  obtain ⟨cb, -, hfailures⟩ := failures_handle hanswered hp id hread
  have hparse : ∀ conf, (configRespParse (word (reader.take 6) 2) conf (reader.drop 6) (respLen - 6)).1 = conf := by
    intro conf
    rw [hres]
    rfl
  have heq := handleConfigResp_eq host w p id hread
  have hkeep : (w.keepResponse p (w.received p reader respLen)).Clear p := by
    rw [L2capLink.Clear, answerSoFar_keepResponse, L2capLink.received, hparse]
    exact hclear
  refine ⟨?_, ?_, ?_⟩
  · rw [heq]
    exact lt_of_lt_of_le hp (leads_finish hany (w.keepResponse p _) _ _ _ hp).allocated
  · rw [heq]
    exact clear_finish hanswered (show p < (w.keepResponse p _).allocated from hp) hkeep hne rfl
  · rw [hfailures, hparse]
    simp [L2event.fails, hclear.1, hclear.2]

end Agreement

/-- The side that asked handles the responses one after the other. -/
def handleResponses (host : L2capHost) (p : Nat) (w : L2capLink) (responses : List (Nat × List UInt8)) : L2capLink :=
  responses.foldl (fun w r => (l2capHandleConfigResp host w p r.1 r.2 r.2.length).link) w

/-- A response that this code sends for a request of which the client rejects something. -/
def IsRejection (body : List UInt8) : Prop :=
  ∃ (l2cap : L2cap) (conf : ConfigureData), conf.rejectedMask ≠ 0 ∧ body = configResponse l2cap conf

/-- In however many parts the rejection comes, it adds up to nothing. -/
theorem failures_handleResponses {host : L2capHost} {p : Nat}
    (hh : ∀ S : Watch, S.channel = p → S.Called → host.Heeds S) :
    ∀ (responses : List (Nat × List UInt8)) (w : L2capLink), p < w.allocated → w.Clear p →
      (∀ r ∈ responses, IsRejection r.2) → (handleResponses host p w responses).failures p = w.failures p
  | [], _, _, _, _ => rfl
  | r :: responses, w, hp, hclear, hall => by
    obtain ⟨l2cap, conf, hrej, hbody⟩ := hall r (by simp)
    obtain ⟨hread, hword⟩ := word_configResponse l2cap hrej
    rw [← hbody] at hread hword
    obtain ⟨hp', hclear', hsame⟩ := clear_handle hh hp hclear r.1 hread hword
    rw [← hsame]
    exact failures_handleResponses hh responses _ hp' hclear' fun r' hr' => hall r' (by simp [hr'])

/-- The client has asked for a configuration. -/
def askingLink : L2capLink :=
  [peerConnects, .api (.configure 0 none 7 0)].foldl (L2capLink.step (plainHost.client keepChannels 1)) (.start (freeDev 8))

/-- The peer does not like the MTU. -/
def mtuRefused : List UInt8 :=
  leBytes 2 0x40 ++ leBytes 2 0 ++ leBytes 2 l2capConfigResErrParams ++ [1, 2, 48, 0]

/-- A client that takes the channel, wants to be asked, and refuses everything. -/
def refusingClient : L2capClient := fun c _ =>
  match c with
  | .serverConnected _ p => [.ref p, .on p .configure (some 3)]
  | .configureRequest _ p params _ => [.setConfigureReply p ⟨1, 0, params⟩]
  | _ => []

/-- The bodies of the responses sent for a channel. -/
def L2capLink.responses (w : L2capLink) (p : Nat) : List (List UInt8) :=
  w.log.filterMap fun e =>
    match e with
    | .emitted (some q) code _ body => if q = p ∧ code = l2capSignalConfigRsp then some body else none
    | _ => none

/-- The other side: it was asked, and its client has refused. -/
def refusingLink : L2capLink :=
  [peerConnects, peerConfigures 2 ⟨ConfigOption.mtu.bit, 100, 0, 0, 0, none, none, none⟩].foldl
    (L2capLink.step (plainHost.client refusingClient 1)) (.start (freeDev 8))

end Bte
