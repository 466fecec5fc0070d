import BtEmbedded.L2capParts
import BtEmbedded.L2capSplit
/-!
# L2capResponder — the response of this code in parts (l2cap.c)

If the options of a response do not fit into `remote_mtu`, `l2cap_config_send` sends those that do with the continuation
flag and keeps the rest in `configure_req`; every null request of the other side is answered with the next part.
-/
namespace Bte

open Bytes Tlv Fill L2capLink

/-! ## Parts -/

/-- The responses that carry some loads of options. -/
def responseParts (remoteChannelId result : Nat) (params : ConfigureParams) : List (List ConfigOption) → List ResponsePart
  | [] => []
  | load :: loads =>
    { channelId := remoteChannelId
      flags := if loads.isEmpty then 0 else l2capConfigFlagContinuation
      result := result
      options := load.map (optionItem params)
      tail := [] } :: responseParts remoteChannelId result params loads

/-- What a channel has still to answer. -/
def partsLeft (v : L2capLink) (q : Nat) (conf : ConfigureData) : List ResponsePart :=
  responseParts (v.channels q).remoteChannelId (responseResult conf) conf.params
    (loads optionSize (v.channels q).remoteMtu 8 (presentFrom conf.params conf.startCmd))

/-- Parts that make one response: each is continued but the last, which has no flag. -/
inductive SplitResponse : List ResponsePart → Prop
  | last {r : ResponsePart} (hr : r.WellFormed) (hflags : r.flags = 0) : SplitResponse [r]
  | more {r : ResponsePart} {rs : List ResponsePart} (hr : r.WellFormed) (hmore : r.Continued) (hrs : SplitResponse rs) :
      SplitResponse (r :: rs)

/-- A channel that has more to answer. -/
structure L2capLink.Answers (v : L2capLink) (q channelId : Nat) (conf : ConfigureData) : Prop where
  known : q < v.allocated
  live : 0 < (v.channels q).refCount
  target : v.configureTarget channelId = some q
  req : (v.channels q).configureReq = some conf
  pending : conf.hasPendingPackets = true

/-- The other side asks for more. -/
def answerNull (host : L2capHost) (channelId : Nat) (v : L2capLink) (id : Nat) : L2capLink :=
  (aclL2capHandleConfigureReq host v id (nullRequest channelId) 4).link

/-- The next part leaves at once. -/
def AnswerDeparts (host : L2capHost) (q : Nat) (v : L2capLink) (id : Nat) : Prop :=
  (bteAclSendMessage host.rc v.dev (responseBuffer host v q ((v.channels q).configureReq.getD .zero) id)).1 ≠ 0

instance (host : L2capHost) (q : Nat) (v : L2capLink) (id : Nat) : Decidable (AnswerDeparts host q v id) :=
  inferInstanceAs (Decidable (_ ≠ _))

theorem splitResponse_loads {remoteChannelId result : Nat} (hresult : result < 65536) {params : ConfigureParams} :
    ∀ {ls : List (List ConfigOption)}, ls ≠ [] → (∀ load ∈ ls, ∀ o ∈ load, o.present params) →
      SplitResponse (responseParts remoteChannelId result params ls)
  | [], h, _ => absurd rfl h
  | [load], _, hpresent =>
    .last ⟨show (0 : Nat) < 65536 by decide, hresult, fun t ht => by
      obtain ⟨o, ho, rfl⟩ := List.mem_map.1 ht
      exact wellFormed_item (hpresent load List.mem_cons_self o ho)⟩ rfl
  | load :: next :: ls, _, hpresent =>
    .more ⟨show l2capConfigFlagContinuation < 65536 by decide, hresult, fun t ht => by
      obtain ⟨o, ho, rfl⟩ := List.mem_map.1 ht
      exact wellFormed_item (hpresent load List.mem_cons_self o ho)⟩
      (show l2capConfigFlagContinuation &&& l2capConfigFlagContinuation ≠ 0 by decide)
      (splitResponse_loads hresult (List.cons_ne_nil _ _) fun l hl => hpresent l (List.mem_cons_of_mem _ hl))

theorem options_responseParts (remoteChannelId result : Nat) (params : ConfigureParams) :
    ∀ ls : List (List ConfigOption),
      (responseParts remoteChannelId result params ls).flatMap (·.options) = ls.flatten.map (optionItem params)
  | [] => rfl
  | load :: ls => by
    rw [responseParts, List.flatMap_cons, options_responseParts, List.flatten_cons, List.map_append]

/-! ## One answer -/

section Answer
variable {host : L2capHost} {v : L2capLink} {q channelId : Nat} {conf : ConfigureData}

theorem answerNull_eq (h : v.Answers q channelId conf) (hid : channelId < 65536) (id : Nat) :
    answerNull host channelId v id = bteL2capUnref (l2capConfigSendRespPacket host (bteL2capRef v q) q id).2 q := by
  obtain ⟨hword, -⟩ := word_header hid (show 0 < 65536 by decide)
  have hread : readSignalHeader (nullRequest channelId) 4 4 = (some (leBytes 2 channelId ++ leBytes 2 0), []) := by
    have hlen : (leBytes 2 channelId ++ leBytes 2 0).length = 4 := by simp
    unfold nullRequest
    rw [readSignalHeader, if_neg (Nat.lt_irrefl 4), List.take_of_length_le hlen.le, if_neg (not_not.2 hlen),
      List.drop_of_length_le hlen.le]
  have hkept : v.modify q (fun l2cap => { l2cap with configureReq := some conf }) = v := by
    have hsame : ({ v.channels q with configureReq := some conf } : L2cap) = v.channels q := by rw [← h.req]
    rw [L2capLink.modify, hsame, Function.update_eq_self]
  unfold answerNull aclL2capHandleConfigureReq withSignalHeader
  rw [hread]
  simp only [hword, h.target]
  unfold handleConfigureReqOn
  simp only [h.req, Option.getD_some, hkept]
  rw [if_pos h.pending]
  rfl

/-- A reference changes nothing of what is sent. -/
theorem body_ref (v : L2capLink) (q : Nat) (conf : ConfigureData) :
    responseBody (bteL2capRef v q) q conf = responseBody v q conf := by
  unfold responseBody configResponse
  simp [bteL2capRef, L2capLink.modify]

/-- What is left of an answer if there are options that did not fit. -/
theorem answerNull_reading (h : v.Answers q channelId conf) (hid : channelId < 65536) {id : Nat} (hne : id ≠ 0)
    (hdeparts : AnswerDeparts host q v id) {o : ConfigOption}
    (hnext : (l2capConfigWrite conf.params conf.startCmd (v.channels q).remoteMtu).1 = o.type) :
    ∃ dev responding, L2event.configAnswer q responding = none ∧
      answerNull host channelId v id = v.reading q (some { conf with startCmd := o.type }) dev
        (v.log ++ [responding, .emitted (some q) l2capSignalConfigRsp id (responseBody v q conf)]) := by
  have hreq : ((bteL2capRef v q).channels q).configureReq.getD .zero = conf := by
    simp [bteL2capRef, L2capLink.modify, h.req]
  have hmtu : ((bteL2capRef v q).channels q).remoteMtu = (v.channels q).remoteMtu := by
    simp [bteL2capRef, L2capLink.modify]
  have hbuffer : responseBuffer host (bteL2capRef v q) q conf id = responseBuffer host v q conf id := by
    unfold responseBuffer
    rw [body_ref]
  have hrc : (bteAclSendMessage host.rc v.dev (responseBuffer host v q conf id)).1 ≠ 0 := by
    have hd := hdeparts
    unfold AnswerDeparts at hd
    rwa [h.req] at hd
  have hstart : responseStart conf = conf.startCmd := if_pos h.pending
  have hrecord : conf.sentUpTo (decide ((bteAclSendMessage host.rc v.dev (responseBuffer host v q conf id)).1 ≠ 0)) o.type =
      { conf with startCmd := o.type } := by
    have hpending := h.pending
    unfold ConfigureData.sentUpTo
    rw [decide_eq_true hrc, if_pos (by simpa using type_pos o)]
    cases conf
    simp only at hpending
    rw [hpending]
  have hpending : ({ conf with startCmd := o.type } : ConfigureData).hasPendingPackets = true := h.pending
  have hturn : responseTurn host (bteL2capRef v q) q conf id =
      (bteL2capRef v q).reading q (some { conf with startCmd := o.type })
        (bteAclSendMessage host.rc v.dev (responseBuffer host v q conf id)).2
        (v.log ++ [.responding q o.type v.dev (responseBuffer host v q conf id),
          .emitted (some q) l2capSignalConfigRsp id (responseBody v q conf)]) := by
    unfold responseTurn
    rw [hbuffer, body_ref, hstart, hmtu, hnext]
    simp only [L2capLink.send, show (bteL2capRef v q).record (.responding q o.type (bteL2capRef v q).dev
      (responseBuffer host v q conf id)) = { bteL2capRef v q with log := v.log ++
        [.responding q o.type v.dev (responseBuffer host v q conf id)] } from rfl]
    rw [show (bteL2capRef v q).dev = v.dev from rfl, hrecord]
    simp [L2capLink.reading, L2capLink.record, L2capLink.modify]
  have hsend : (l2capConfigSend host (bteL2capRef v q) q conf id).2 = responseTurn host (bteL2capRef v q) q conf id := by
    have hpend : (responseRecord host (bteL2capRef v q) q conf id).hasPendingPackets = true := by
      unfold responseRecord
      rw [hbuffer, hstart, hmtu, hnext, show (bteL2capRef v q).dev = v.dev from rfl, hrecord]
      exact hpending
    rw [l2capConfigSend, if_pos hne, configSendResponse_eq, if_pos hpend]
  refine ⟨(bteAclSendMessage host.rc v.dev (responseBuffer host v q conf id)).2,
    .responding q o.type v.dev (responseBuffer host v q conf id), rfl, ?_⟩
  rw [answerNull_eq h hid, l2capConfigSendRespPacket]
  simp only
  rw [hreq, hsend, hturn]
  have hlive := h.live
  simp only [L2capLink.reading, bteL2capRef, L2capLink.modify, Function.update_self, Option.getD_some, hpending, if_true,
    Function.update_idem, bteL2capUnref]
  rw [if_neg (by omega)]
  simp

/-- **If options are left, the channel goes on with them.** -/
theorem answerNull_more (h : v.Answers q channelId conf) (hid : channelId < 65536) {id : Nat} (hne : id ≠ 0)
    (hdeparts : AnswerDeparts host q v id) {o : ConfigOption}
    (hnext : (l2capConfigWrite conf.params conf.startCmd (v.channels q).remoteMtu).1 = o.type) :
    (answerNull host channelId v id).Answers q channelId { conf with startCmd := o.type } ∧
      ((answerNull host channelId v id).channels q).remoteMtu = (v.channels q).remoteMtu ∧
      ((answerNull host channelId v id).channels q).remoteChannelId = (v.channels q).remoteChannelId ∧
      configAnswers q (answerNull host channelId v id).log = configAnswers q v.log ++ [(id, responseBody v q conf)] := by
  obtain ⟨dev, responding, hquiet, hstep⟩ := answerNull_reading h hid hne hdeparts hnext
  rw [hstep]
  refine ⟨⟨h.known, ?_, (configureTarget_reading ..).trans h.target, ?_, h.pending⟩, ?_, ?_, ?_⟩
  · simpa [L2capLink.reading, L2capLink.modify] using h.live
  · simp [L2capLink.reading, L2capLink.modify]
  · simp [L2capLink.reading, L2capLink.modify]
  · simp [L2capLink.reading, L2capLink.modify]
  · show configAnswers q (v.log ++ [responding, _]) = _
    rw [configAnswers, List.filterMap_append, List.filterMap_cons_none hquiet]
    simp [configAnswers, L2event.configAnswer]

/-- Whatever is left, this part is sent. -/
theorem answerNull_log (hh : host.Heeds (Watch.unrequested q)) (h : v.Answers q channelId conf) (hid : channelId < 65536)
    {id : Nat} (hne : id ≠ 0) : ∃ es, (answerNull host channelId v id).log = v.log ++ es ∧
      configAnswers q es = [(id, responseBody v q conf)] := by
  have hreq : ((bteL2capRef v q).channels q).configureReq.getD .zero = conf := by
    simp [bteL2capRef, L2capLink.modify, h.req]
  obtain ⟨es, hlog, -, hanswers, hknown⟩ := sendResponse_log hh (w := bteL2capRef v q) h.known conf id
  have hsend : l2capConfigSend host (bteL2capRef v q) q conf id = configSendResponse host (bteL2capRef v q) q conf id :=
    if_pos hne
  rw [answerNull_eq h hid, l2capConfigSendRespPacket]
  simp only
  rw [hreq, hsend]
  obtain ⟨es', hlog', -, hquiet⟩ := (leads_unref (S := Watch.unrequested q)
    ((configSendResponse host (bteL2capRef v q) q conf id).2.modify q fun l2cap =>
        if (l2cap.configureReq.getD .zero).hasPendingPackets then l2cap
      else { l2cap with configureReq := none }) (q := q) (fun _ => ⟨(unrequested_called q).closed.touched, trivial⟩)
      hknown).unrequested
  refine ⟨es ++ es', ?_, ?_⟩
  · rw [hlog']
    show (configSendResponse host (bteL2capRef v q) q conf id).2.log ++ es' = _
    rw [hlog, List.append_assoc]
    rfl
  · simp only [configAnswers, List.filterMap_append] at hanswers hquiet ⊢
    rw [hanswers, hquiet, List.append_nil, body_ref]

end Answer

/-! ## All of them -/

theorem reader_load (v : L2capLink) (q : Nat) (conf : ConfigureData) (hpending : conf.hasPendingPackets = true)
    {ls : List (List ConfigOption)} (hls : ls = [] ↔
      (fill optionSize (v.channels q).remoteMtu (presentFrom conf.params conf.startCmd)).2 = []) :
    (responseParts (v.channels q).remoteChannelId (responseResult conf) conf.params
      ((fill optionSize (v.channels q).remoteMtu (presentFrom conf.params conf.startCmd)).1 :: ls)).map (·.reader) =
      responseBody v q conf ::
        (responseParts (v.channels q).remoteChannelId (responseResult conf) conf.params ls).map (·.reader) := by
  have hstart : responseStart conf = conf.startCmd := if_pos hpending
  have hflags : (if ls.isEmpty then 0 else l2capConfigFlagContinuation) =
      configFlags (nextCommand (fill optionSize (v.channels q).remoteMtu (presentFrom conf.params conf.startCmd)).2) := by
    cases hleft : (fill optionSize (v.channels q).remoteMtu (presentFrom conf.params conf.startCmd)).2 with
    | nil =>
      rw [hls.2 hleft]
      rfl
    | cons o ys =>
      have hne : ls ≠ [] := fun hnil => List.cons_ne_nil o ys (hleft.symm.trans (hls.1 hnil))
      have hempty : ls.isEmpty = false := by simpa using hne
      rw [hempty]
      cases o <;> rfl
  rw [responseParts, List.map_cons, responseBody, configResponse, hstart, configWrite_eq, hflags]
  simp only [ResponsePart.reader, List.append_nil, encodeOptions]

/-- **The parts are sent one by one**, as often as the other side asks. -/
theorem answers_series {host : L2capHost} {q channelId : Nat} (hh : host.Heeds (Watch.unrequested q))
    (hid : channelId < 65536) :
    ∀ (n : Nat) {ids : List Nat} {conf : ConfigureData} {v : L2capLink}, v.Answers q channelId conf →
      (presentFrom conf.params conf.startCmd).length < n →
      (∀ o ∈ presentFrom conf.params conf.startCmd, optionSize o ≤ (v.channels q).remoteMtu) → (∀ id ∈ ids, id ≠ 0) →
      ids.length = (loads optionSize (v.channels q).remoteMtu n (presentFrom conf.params conf.startCmd)).length →
      Sys.Admissible (answerNull host channelId) (AnswerDeparts host q) v ids →
      configAnswers q (Sys.run (answerNull host channelId) v ids).log = configAnswers q v.log ++
        ids.zip ((responseParts (v.channels q).remoteChannelId (responseResult conf) conf.params
          (loads optionSize (v.channels q).remoteMtu n (presentFrom conf.params conf.startCmd))).map (·.reader))
  | 0, _, _, _, _, hn, _, _, _, _ => absurd hn (Nat.not_lt_zero _)
  | n + 1, [], _, _, _, _, _, _, hlen, _ => by
    rw [loads, List.length_nil, List.length_cons] at hlen
    exact absurd hlen.symm (Nat.succ_ne_zero _)
  | n + 1, id :: ids, conf, v, h, hn, hfits, hne, hlen, hdeparts => by
    have happend := fill_append optionSize (v.channels q).remoteMtu (presentFrom conf.params conf.startCmd)
    have hwrite := configWrite_eq conf.params conf.startCmd (v.channels q).remoteMtu
    rw [loads, List.length_cons, List.length_cons] at hlen
    rw [loads, Sys.run_cons]
    cases hleft : (fill optionSize (v.channels q).remoteMtu (presentFrom conf.params conf.startCmd)).2 with
    | nil =>
      rw [hleft, List.isEmpty_nil, if_pos rfl, List.length_nil] at hlen
      have hnil : ids = [] := List.length_eq_zero_iff.1 (Nat.succ.inj hlen)
      obtain ⟨es, hlog, hanswers⟩ := answerNull_log hh h hid (hne id List.mem_cons_self)
      rw [List.isEmpty_nil, if_pos rfl, reader_load v q conf h.pending (by simp [hleft]), hnil, Sys.run_nil, hlog,
        configAnswers, List.filterMap_append]
      exact congrArg _ hanswers
    | cons o ys =>
      rw [hleft] at hwrite happend hlen
      rw [List.isEmpty_cons, if_neg Bool.false_ne_true] at hlen
      have hnext := presentFrom_next happend.symm
      have htaken : (fill optionSize (v.channels q).remoteMtu (presentFrom conf.params conf.startCmd)).1 ≠ [] := by
        cases hp : presentFrom conf.params conf.startCmd with
        | nil =>
          rw [hp] at hleft
          cases hleft
        | cons x xs => exact fill_ne_nil optionSize xs (hfits x (hp ▸ List.mem_cons_self))
      have hshorter := length_left optionSize htaken
      rw [hleft] at hshorter
      obtain ⟨hgoes, hmtu, hcid, hanswers⟩ := @answerNull_more host v q channelId conf h hid id
        (hne id List.mem_cons_self) hdeparts.1 o (congrArg Prod.fst hwrite)
      obtain ⟨n, rfl⟩ : ∃ m, n = m + 1 := by
        refine Nat.exists_eq_succ_of_ne_zero ?_
        rw [List.length_cons] at hshorter
        omega
      have hrest := @answers_series host q channelId hh hid (n + 1) ids { conf with startCmd := o.type } _ hgoes
      have hresult : responseResult { conf with startCmd := o.type } = responseResult conf := rfl
      simp only [hmtu, hcid, hnext, hresult] at hrest
      have hothers := hrest (by omega) (fun x hx => hfits x (happend ▸ List.mem_append_right _ hx))
        (fun i hi => hne i (List.mem_cons_of_mem _ hi)) (Nat.succ.inj hlen) hdeparts.2
      rw [List.isEmpty_cons, if_neg Bool.false_ne_true, reader_load v q conf h.pending (by simp [hleft, loads]),
        List.zip_cons_cons, hothers, hanswers, List.append_assoc]
      rfl

/-- **The rest of a response goes out in parts**: the null requests of the other side fetch them one after the other, and
together they carry every option that was left. -/
structure AnswersInParts (host : L2capHost) (v : L2capLink) (q channelId : Nat) (conf : ConfigureData) (ids : List Nat) :
    Prop where
  split : SplitResponse (partsLeft v q conf)
  options : (partsLeft v q conf).flatMap (·.options) =
    (presentFrom conf.params conf.startCmd).map (optionItem conf.params)
  answers : configAnswers q (Sys.run (answerNull host channelId) v ids).log =
    configAnswers q v.log ++ ids.zip ((partsLeft v q conf).map (·.reader))

theorem answers_split (host : L2capHost) (client : L2capClient) (depth : Nat) {v : L2capLink} {q channelId : Nat}
    {conf : ConfigureData} (h : v.Answers q channelId conf) (hid : channelId < 65536)
    (hfits : ∀ o ∈ presentFrom conf.params conf.startCmd, optionSize o ≤ (v.channels q).remoteMtu) {ids : List Nat}
    (hne : ∀ id ∈ ids, id ≠ 0) (hlen : ids.length = (partsLeft v q conf).length)
    (hdeparts : Sys.Admissible (answerNull (host.client client depth) channelId)
      (AnswerDeparts (host.client client depth) q) v ids) :
    AnswersInParts (host.client client depth) v q channelId conf ids := by
  have hh := heeds_called (unrequested_called q) host client depth
  have hfew := length_presentFrom conf.params conf.startCmd
  have hflatten := loads_flatten optionSize hfew hfits
  have hresult : responseResult conf < 65536 := by
    unfold responseResult
    split
    · decide
    · decide
  have hloads : ∀ ls : List (List ConfigOption), (responseParts (v.channels q).remoteChannelId (responseResult conf)
      conf.params ls).length = ls.length := by
    intro ls
    induction ls with
    | nil => rfl
    | cons l ls ih => exact congrArg (· + 1) ih
  refine ⟨splitResponse_loads hresult ?_ ?_, ?_, ?_⟩
  · rw [loads]
    exact List.cons_ne_nil _ _
  · intro load hload o ho
    have hmem : o ∈ presentFrom conf.params conf.startCmd := by
      rw [← hflatten]
      exact List.mem_flatten.2 ⟨load, hload, ho⟩
    exact (mem_presentFrom hmem).2
  · rw [partsLeft, options_responseParts, hflatten]
  · exact answers_series hh hid 8 h hfew hfits hne (hlen.trans (hloads _)) hdeparts

end Bte
