import BtEmbedded.L2capAtomic
import BtEmbedded.L2capOwn
import BtEmbedded.L2capUnknown
/-!
# L2capAnswered — the answer to a Configuration Request (l2cap.c)

`l2cap_config_send` serves requests and responses, and takes the id of the message to be answered for a flag: with the id 0,
which a peer may send, the answer goes out as a new request.  The other way not to answer is not to come back, from the
copying of unknown options.
-/
namespace Bte

open Bytes Tlv

/-! ## What is sent -/

/-- A request is sent in some packets, and in one at least. -/
theorem sends_sendRequest {host : L2capHost} (hh : host.Silent) (w : L2capLink) (p : Nat) (conf : ConfigureData) :
    ∃ cs, Sends w (configSendRequest host w p conf).2 cs ∧ cs ≠ [] ∧ ∀ c ∈ cs, c.1 = l2capSignalConfigReq := by
  obtain ⟨es, hloop⟩ := requestLoop_done host p conf.params (w.dev.aclAvailablePackets + 1) 8 0 w.nextSignalId.1
    w.nextSignalId.2 (Nat.lt_succ_self _) (length_presentFrom _ 0)
  have hsent : Sends w (configRequestLoop host p conf.params (w.dev.aclAvailablePackets + 1) 0 w.nextSignalId.1
      w.nextSignalId.2).2 (es.filterMap L2event.command) := ⟨es, hloop.log, rfl⟩
  refine ⟨es.filterMap L2event.command, ?_, ?_, ?_⟩
  · unfold configSendRequest
    simp only
    split
    · exact hsent
    · exact hsent.right (sends_setState hh _ p _)
  · obtain ⟨e, es', rfl⟩ := List.exists_cons_of_ne_nil hloop.sent
    obtain ⟨id, body, rfl⟩ := hloop.requests e List.mem_cons_self
    simp [L2event.command]
  · intro c hc
    obtain ⟨e, he, hcommand⟩ := List.mem_filterMap.1 hc
    obtain ⟨id, body, rfl⟩ := hloop.requests e he
    cases hcommand
    rfl

/-- A response is sent in one. -/
theorem sends_sendResponse {host : L2capHost} (hh : host.Silent) (w : L2capLink) (p : Nat)
    (conf : ConfigureData) (id : Nat) :
    Sends w (configSendResponse host w p conf id).2 [(l2capSignalConfigRsp, id, responseBody w p conf)] := by
  have hturn : Sends w (responseTurn host w p conf id) [(l2capSignalConfigRsp, id, responseBody w p conf)] := by
    refine Appends.right ?_ (.of_log rfl)
    exact Appends.left (Appends.record w _) (sends_send host _ (some p) l2capSignalConfigRsp id (responseBody w p conf) _)
  rw [configSendResponse_eq]
  split
  · exact hturn
  · split
    · exact hturn.right (sends_setState hh _ p _)
    · exact hturn

/-- One command that answers `id`, and that its packets carry. -/
def AnswersRequest (id : Nat) (carried : Nat → List UInt8 → Prop) (w w' : L2capLink) : Prop :=
  ∃ code body, (code = l2capSignalCmdRej ∨ code = l2capSignalConfigRsp) ∧ Sends w w' [(code, id, body)] ∧ carried code body

section AnswersRequest
variable {w w' w'' : L2capLink} {id : Nat} {carried : Nat → List UInt8 → Prop}

/-- The one command that is sent answers if it is carried. -/
theorem answers_sent_iff {code : Nat} {body : List UInt8} (hcode : code = l2capSignalCmdRej ∨ code = l2capSignalConfigRsp)
    (h : Sends w w' [(code, id, body)]) : AnswersRequest id carried w w' ↔ carried code body := by
  constructor
  · rintro ⟨code', body', -, hsends, hcarried⟩
    obtain ⟨rfl, rfl⟩ : code = code' ∧ body = body' := by simpa using h.new.symm.trans hsends.new
    exact hcarried
  · exact fun hcarried => ⟨code, body, hcode, h, hcarried⟩

theorem not_answers {cs : List (Nat × Nat × List UInt8)} (h : Sends w w' cs)
    (hcs : ∀ code body, (code = l2capSignalCmdRej ∨ code = l2capSignalConfigRsp) → cs ≠ [(code, id, body)]) :
    ¬ AnswersRequest id carried w w' := by
  rintro ⟨code, body, hcode, hsends, -⟩
  exact hcs code body hcode (h.new.symm.trans hsends.new)

theorem not_answers_requests {cs : List (Nat × Nat × List UInt8)} (h : Sends w w' cs)
    (hreq : ∀ c ∈ cs, c.1 = l2capSignalConfigReq) : ¬ AnswersRequest id carried w w' := by
  refine not_answers h fun code body hcode hcs => ?_
  have hconfig := hreq (code, id, body) (hcs ▸ List.mem_singleton_self _)
  rcases hcode with rfl | rfl <;> cases hconfig

/-- **`l2cap_config_send` answers an id other than 0**; with 0 it asks. -/
theorem configSend_answers_iff {host : L2capHost} (hh : host.Silent) (h : Sends w w' []) (p : Nat) (conf : ConfigureData)
    {v : L2capLink} (h' : Sends (l2capConfigSend host w' p conf id).2 v []) :
    AnswersRequest id carried w v ↔ id ≠ 0 ∧ carried l2capSignalConfigRsp (responseBody w' p conf) := by
  unfold l2capConfigSend at h'
  by_cases hid : id ≠ 0
  · rw [if_pos hid] at h'
    rw [and_iff_right hid]
    exact answers_sent_iff (.inr rfl) ((h.left (sends_sendResponse hh w' p conf id)).right h')
  · rw [if_neg hid] at h'
    obtain ⟨cs, hsends, -, hreq⟩ := sends_sendRequest hh w' p conf
    exact iff_of_false (not_answers_requests ((h.left hsends).right h') hreq) fun h => hid h.1

/-- The response to a complete request. -/
theorem requested_answers_iff {host : L2capHost} (hh : host.Silent) (h : Sends w w' []) (p : Nat) {v : L2capLink}
    (h' : Sends (configureRequested host w' p id) v []) :
    AnswersRequest id carried w v ↔ id ≠ 0 ∧ carried l2capSignalConfigRsp (responseBody
      (acceptConfigure (requestAsked host w' p) p) p
      (((acceptConfigure (requestAsked host w' p) p).channels p).configureReq.getD .zero)) := by
  have hasked : Sends w' (requestAsked host w' p) [] := by
    unfold requestAsked
    split
    · exact .refl w'
    · exact sends_call hh w' p _
  have haccept : Sends w' (acceptConfigure (requestAsked host w' p) p) [] :=
    hasked.left (.of_log (log_acceptConfigure _ p).1)
  rw [configureRequested_eq] at h'
  exact configSend_answers_iff hh (h.left haccept) p _ h'

end AnswersRequest

/-! ## The copying of unknown options -/

/-- What the copying leaves of the reader over one option: an unknown one takes as much as the inner loop copies, if it
ends. -/
def optionLeft (host : L2capHost) (reader : List UInt8) : Option (List UInt8) :=
  let header := readOver host reader 2
  let size := (header.getD 1 0).toNat
  (if l2capConfigureTypeIsKnown (header.getD 0 0).toNat then some size else copiedBytes size).map (reader.drop 2).drop

/-- How much an option adds to the 16-bit count. -/
def optionCounted (host : L2capHost) (reader : List UInt8) : Nat := 2 + ((readOver host reader 2).getD 1 0).toNat

/-- **The copying comes to an end**: the count of what was read gets to the size of the options, and no unknown option is too
long for the inner loop until then. -/
inductive CopyStops (host : L2capHost) (cmdSize : Nat) : Nat → List UInt8 → Prop
  | done {read : Nat} {reader : List UInt8} (h : cmdSize ≤ read) : CopyStops host cmdSize read reader
  | turn {read : Nat} {reader rest : List UInt8} (h : read < cmdSize) (hleft : optionLeft host reader = some rest)
      (hrest : CopyStops host cmdSize ((read + optionCounted host reader) % 65536) rest) : CopyStops host cmdSize read reader

section Stops
variable {host : L2capHost} {cmdSize : Nat}

/-- What the inner loop leaves does not depend on what it finds. -/
theorem copyParam_left (n : Nat) (reader : List UInt8) :
    (copyParam host n 9 0 reader).map (·.2) = (copiedBytes n).map reader.drop := by
  -- the pieces of a long value, from one of them on
  have hpieces : 32 < n → n ≤ 224 → ∀ (fuel k : Nat) (reader : List UInt8), 32 * k ≤ 224 → 8 ≤ fuel + k →
      (copyParam host n fuel (32 * k) reader).map (·.2) = some (reader.drop (32 * ((n + 31) / 32 - k))) := by
    intro hlow hhigh fuel
    induction fuel with
    | zero => intro k reader hk hfuel; omega
    | succ fuel ih =>
      intro k reader hk hfuel
      by_cases hmore : 32 * k < n
      · have hmin : min n 32 = 32 := Nat.min_eq_right hlow.le
        have hcount : (32 * k + 32) % 256 = 32 * (k + 1) := by omega
        have hleft : (n + 31) / 32 - k = (n + 31) / 32 - (k + 1) + 1 := by omega
        have hdrop : reader.drop (32 * ((n + 31) / 32 - k)) = (reader.drop 32).drop (32 * ((n + 31) / 32 - (k + 1))) := by
          rw [List.drop_drop, hleft, Nat.mul_succ, Nat.add_comm 32]
        rw [copyParam_more host hmore, hmin, hcount, Option.map_map, hdrop,
          ← ih (k + 1) (reader.drop 32) (by omega) (by omega)]
        rfl
      · have hdone : (n + 31) / 32 - k = 0 := by omega
        rw [copyParam, if_neg hmore, hdone]
        rfl
  unfold copiedBytes
  by_cases hone : n ≤ 32
  · rw [if_pos hone]
    by_cases hzero : n = 0
    · subst hzero
      rfl
    · have hmin : min n 32 = n := Nat.min_eq_left hone
      have hcount : (0 + n) % 256 = n := by omega
      rw [copyParam_more host (by omega), hmin, hcount, copyParam, if_neg (Nat.lt_irrefl n)]
      rfl
  · rw [if_neg hone]
    by_cases hseven : n ≤ 224
    · rw [if_pos hseven]
      exact hpieces (by omega) hseven 9 0 reader (by omega) (by omega)
    · rw [if_neg hseven, copyParam_never host (by omega) 9 0 reader (by omega)]
      rfl

/-- One turn of the outer loop. -/
theorem copyUnknown_turn {fuel read : Nat} {reader : List UInt8} (hread : read < cmdSize) :
    (copyUnknown host cmdSize (fuel + 1) read reader).isSome ↔ ∃ rest, optionLeft host reader = some rest ∧
      (copyUnknown host cmdSize fuel ((read + optionCounted host reader) % 65536) rest).isSome := by
  rw [copyUnknown, if_pos hread]
  unfold optionLeft optionCounted
  simp only [Nat.add_assoc]
  by_cases hknown : l2capConfigureTypeIsKnown ((readOver host reader 2).getD 0 0).toNat
  · rw [if_pos hknown, if_pos hknown]
    simp
  · rw [if_neg hknown, if_neg hknown, ← @copyParam_left host]
    cases copyParam host ((readOver host reader 2).getD 1 0).toNat 9 0 (reader.drop 2) with
    | none => simp
    | some r => simp

theorem copyUnknown_done {fuel read : Nat} {reader : List UInt8} (hread : cmdSize ≤ read) :
    (copyUnknown host cmdSize (fuel + 1) read reader).isSome := by
  rw [copyUnknown, if_neg (Nat.not_lt.2 hread)]
  rfl

theorem copyUnknown_more : ∀ {fuel fuel' read : Nat} {reader : List UInt8}, fuel ≤ fuel' →
    (copyUnknown host cmdSize fuel read reader).isSome → (copyUnknown host cmdSize fuel' read reader).isSome
  | 0, _, _, _, _, h => absurd h Bool.false_ne_true
  | fuel + 1, 0, _, _, hfuel, _ => absurd hfuel (Nat.not_succ_le_zero fuel)
  | fuel + 1, fuel' + 1, read, reader, hfuel, h => by
    by_cases hread : read < cmdSize
    · obtain ⟨rest, hleft, hrest⟩ := (copyUnknown_turn hread).1 h
      exact (copyUnknown_turn hread).2 ⟨rest, hleft, copyUnknown_more (Nat.le_of_succ_le_succ hfuel) hrest⟩
    · exact copyUnknown_done (Nat.not_lt.1 hread)

theorem optionLeft_length {reader rest : List UInt8} (h : optionLeft host reader = some rest) :
    rest.length ≤ reader.length - 2 := by
  obtain ⟨n, -, rfl⟩ := Option.map_eq_some_iff.1 h
  simp only [List.length_drop]
  omega

theorem counted_succ (read j c : Nat) : ((read + c) % 65536 + j * c) % 65536 = (read + (j + 1) * c) % 65536 := by
  rw [Nat.mod_add_mod, Nat.succ_mul, Nat.add_assoc, Nat.add_comm c]

/-- A reader that is used up yields the same again and again, and the count goes on in equal steps. -/
theorem copyUnknown_nil : ∀ {fuel read : Nat}, (copyUnknown host cmdSize fuel read []).isSome →
    cmdSize ≤ read ∨ (optionLeft host []).isSome ∧ ∃ j, cmdSize ≤ (read + j * optionCounted host []) % 65536
  | 0, _, h => absurd h Bool.false_ne_true
  | fuel + 1, read, h => by
    by_cases hread : read < cmdSize
    · obtain ⟨rest, hleft, hrest⟩ := (copyUnknown_turn hread).1 h
      obtain rfl : rest = [] := List.eq_nil_of_length_eq_zero (Nat.le_zero.1 (optionLeft_length hleft))
      refine .inr ⟨Option.isSome_of_eq_some hleft, ?_⟩
      rcases copyUnknown_nil hrest with hdone | ⟨-, j, hj⟩
      · exact ⟨1, by rwa [Nat.one_mul]⟩
      · exact ⟨j + 1, counted_succ read j _ ▸ hj⟩
    · exact .inl (Nat.not_lt.1 hread)

theorem copyUnknown_steps (hleft : (optionLeft host []).isSome) : ∀ (j : Nat) {read : Nat}, read < 65536 →
    cmdSize ≤ (read + j * optionCounted host []) % 65536 → (copyUnknown host cmdSize (j + 1) read []).isSome
  | 0, read, hread, hj => by
    rw [Nat.zero_mul, Nat.add_zero, Nat.mod_eq_of_lt hread] at hj
    exact copyUnknown_done hj
  | j + 1, read, _, hj => by
    by_cases hdone : read < cmdSize
    · obtain ⟨rest, hrest⟩ := Option.isSome_iff_exists.1 hleft
      obtain rfl : rest = [] := List.eq_nil_of_length_eq_zero (Nat.le_zero.1 (optionLeft_length hrest))
      refine (copyUnknown_turn hdone).2 ⟨[], hrest, copyUnknown_steps hleft j (Nat.mod_lt _ (by decide)) ?_⟩
      rwa [counted_succ]
    · exact copyUnknown_done (Nat.not_lt.1 hdone)

/-- **The fuel is enough**: the turns that read something, and one for every value of the count. -/
theorem copyUnknown_enough : ∀ {fuel read : Nat} {reader : List UInt8}, read < 65536 →
    (copyUnknown host cmdSize fuel read reader).isSome →
      (copyUnknown host cmdSize (reader.length + 65537) read reader).isSome
  | 0, _, _, _, h => absurd h Bool.false_ne_true
  | fuel + 1, read, reader, hread, h => by
    by_cases hdone : read < cmdSize
    · rcases List.eq_nil_or_concat' reader with rfl | ⟨front, last, rfl⟩
      · -- the count repeats itself after 65536 turns
        rcases copyUnknown_nil h with hle | ⟨hleft, j, hj⟩
        · exact copyUnknown_done hle
        · refine copyUnknown_more (Nat.succ_le_succ (Nat.mod_lt j (by decide : 65536 > 0)).le)
            (copyUnknown_steps hleft (j % 65536) hread ?_)
          rwa [Nat.add_mod, Nat.mod_mul_mod, ← Nat.add_mod]
      · obtain ⟨rest, hleft, hrest⟩ := (copyUnknown_turn hdone).1 h
        have hshort : rest.length ≤ front.length := by
          have := optionLeft_length hleft
          rw [List.length_append, List.length_singleton] at this
          omega
        have hmore := copyUnknown_more (Nat.add_le_add_right hshort 65537)
          (copyUnknown_enough (Nat.mod_lt _ (by decide)) hrest)
        rw [List.length_append, List.length_singleton, Nat.add_right_comm]
        exact (copyUnknown_turn hdone).2 ⟨rest, hleft, hmore⟩
    · exact copyUnknown_done (Nat.not_lt.1 hdone)

/-- **The copying is done if and only if it stops.** -/
theorem copyUnknown_isSome_iff {fuel read : Nat} (hread : read < 65536) {reader : List UInt8}
    (hfuel : reader.length + 65537 ≤ fuel) :
    (copyUnknown host cmdSize fuel read reader).isSome ↔ CopyStops host cmdSize read reader := by
  constructor
  · clear hfuel
    intro h
    induction fuel generalizing read reader with
    | zero => exact absurd h Bool.false_ne_true
    | succ fuel ih =>
      by_cases hdone : read < cmdSize
      · obtain ⟨rest, hleft, hrest⟩ := (copyUnknown_turn hdone).1 h
        exact .turn hdone hleft (ih (Nat.mod_lt _ (by decide)) hrest)
      · exact .done (Nat.not_lt.1 hdone)
  · intro h
    obtain ⟨turns, hturns⟩ : ∃ turns, (copyUnknown host cmdSize turns read reader).isSome := by
      clear hfuel
      induction h with
      | done h => exact ⟨1, copyUnknown_done h⟩
      | turn h hleft _ ih =>
        obtain ⟨turns, hturns⟩ := ih (Nat.mod_lt _ (by decide))
        exact ⟨turns + 1, (copyUnknown_turn h).2 ⟨_, hleft, hturns⟩⟩
    exact copyUnknown_more hfuel (copyUnknown_enough hread hturns)

end Stops

/-- The copying of the unknown options of a request comes to an end. -/
def CopyEnds (host : L2capHost) (r : PeerRequest) : Prop :=
  CopyStops host (encode r.options).length 0 (encode r.options ++ r.tail)

theorem copied_iff (host : L2capHost) (channelId : Nat) (r : PeerRequest) :
    (copyUnknown host (encode r.options).length ((r.reader channelId).length + 65537) 0
      (encode r.options ++ r.tail)).isSome ↔ CopyEnds host r := by
  refine copyUnknown_isSome_iff (by decide) ?_
  simp only [PeerRequest.reader, List.length_append]
  omega

/-- It does if each is copied whole. -/
theorem copyEnds_of_whole (host : L2capHost) {r : PeerRequest} (hlen : r.length < 65536)
    (hwhole : ∀ t ∈ r.options, unknownOption t → CopiedWhole t.value.length) : CopyEnds host r := by
  have hcmd : (encode r.options).length < 65536 := by
    unfold PeerRequest.length at hlen
    omega
  obtain ⟨writes, hcopy, -⟩ := @copyUnknown_row host (encode r.options).length r.tail hcmd r.options
    (r.options.length + (r.reader 0).length + 65537) 0 (by omega) (Nat.zero_add _) hwhole
  refine (copyUnknown_isSome_iff (by decide) ?_).1 (Option.isSome_of_eq_some hcopy)
  simp only [PeerRequest.reader, List.length_append]
  omega

/-! ## The answer -/

namespace PeerRequest

/-- **An answer is carried** as the function that sends it has it: a reply is written from packet to packet, a response of
`l2cap_config_send` and the header of the unknown options through one pointer. -/
def Carried (r : PeerRequest) (host : L2capHost) (channelId : Nat) (w : L2capLink) (code : Nat) (body : List UInt8) : Prop :=
  match w.configureTarget channelId with
  | none => CarriesReply host code r.id body
  | some p =>
    if ((w.channels p).configureReq.getD .zero).hasPendingPackets then CarriesBody host code r.id body
    else if ∃ t ∈ r.options, unknownOption t then
      CarriesHead host code r.id (6 + r.unknownSize ((w.channels p).configureReq.getD .zero).params) (body.take 6)
    else if r.flags &&& l2capConfigFlagContinuation ≠ 0 then CarriesReply host code r.id body
    else CarriesBody host code r.id body

/-- **When a request is answered as such**: where no channel takes it, the packets hold the headers; the rest of a
response and
the response to a complete request are of a request whose id is not 0, and fit into one packet; the copying of unknown
options
comes to an end, and their response can be sized; and an acknowledgement takes packets that hold the headers. -/
def AnswerComes (r : PeerRequest) (host : L2capHost) (channelId : Nat) (w : L2capLink) : Prop :=
  match w.configureTarget channelId with
  | none => host.HeadersFit
  | some p =>
    if ((w.channels p).configureReq.getD .zero).hasPendingPackets then
      r.id ≠ 0 ∧ host.Fits (responseLength w p ((w.channels p).configureReq.getD .zero))
    else if ∃ t ∈ r.options, unknownOption t then
      CopyEnds host r ∧ host.Fits 6 ∧ packetsNeeded host.aclMtu
        (l2capSignalHdrLen + (6 + r.unknownSize ((w.channels p).configureReq.getD .zero).params)) * host.aclMtu < 65536
    else if r.flags &&& l2capConfigFlagContinuation ≠ 0 then host.HeadersFit
    else r.id ≠ 0 ∧ host.Fits (responseLength (r.accepted host w p) p (r.answer host w p))

end PeerRequest

/-- What follows an area with an unknown option. -/
theorem answerConfigureReq_unknown {host : L2capHost} {w : L2capLink} {p id flags : Nat} {parsed : ConfigParsed}
    {reader : List UInt8} {reqLen : Nat} (h : parsed.rc = .unknownType) :
    answerConfigureReq host w p id flags parsed reader reqLen =
      l2capConfigureReplyTypeError host w p id reader reqLen parsed.unknownSize := by
  rw [answerConfigureReq, h]

/-- A request with an unknown option: its copying goes on for ever, or is followed by the end of the handler. -/
theorem handleReqOn_unknown {host : L2capHost} {w : L2capLink} {p id flags : Nat} {reader rest : List UInt8} {reqLen : Nat}
    (hpending : ¬ ((w.channels p).configureReq.getD .zero).hasPendingPackets = true)
    (h : (l2capConfigParse true rest ((w.channels p).configureReq.getD .zero).params (reqLen - 4)).rc = .unknownType) :
    ∃ v, v.log = w.log ∧ (handleConfigureReqOn host w p id flags reader rest reqLen).link =
      ((l2capConfigureReplyTypeError host v p id reader reqLen
        (l2capConfigParse true rest ((w.channels p).configureReq.getD .zero).params (reqLen - 4)).unknownSize).map
          fun u => bteL2capUnref (finishConfigureReq u p flags) p).getD v := by
  unfold handleConfigureReqOn
  generalize (w.channels p).configureReq.getD .zero = conf at hpending h ⊢
  simp only
  rw [if_neg hpending]
  have href : (bteL2capRef (w.modify p fun l2cap => { l2cap with configureReq := some conf }) p).log = w.log := rfl
  generalize bteL2capRef (w.modify p fun l2cap => { l2cap with configureReq := some conf }) p = w₁ at href ⊢
  generalize l2capConfigParse true rest conf.params (reqLen - 4) = parsed at h ⊢
  have hread : (w₁.modify p fun l2cap => { l2cap with configureReq := some { conf with params := parsed.params } }).log =
    w.log := href
  generalize (w₁.modify p fun l2cap => { l2cap with configureReq := some { conf with params := parsed.params } }) = w₂
    at hread ⊢
  refine ⟨w₂, hread, ?_⟩
  rw [answerConfigureReq_unknown h]
  cases l2capConfigureReplyTypeError host w₂ p id reader reqLen parsed.unknownSize <;> rfl

section Handler
variable {host : L2capHost} (hmtu : 4 < host.aclMtu) (hmtu' : host.aclMtu < 65536) (hc : host.connHandle ≤ 0xfff)
    {w : L2capLink}
  {channelId p : Nat} {r : PeerRequest}

/-- What parsing makes of well-formed options. -/
theorem parse_wellFormed (hwf : ∀ t ∈ r.options, wellFormedOption t) (hlen : r.length < 65536) (params : ConfigureParams) :
    (l2capConfigParse true (encode r.options ++ r.tail) params (r.length - 4)).rc =
      if ∃ t ∈ r.options, unknownOption t then .unknownType else .ok := by
  have harea : r.length - 4 = (encode r.options).length := Nat.add_sub_cancel_left ..
  have hcount := countOption_row r.options 0 (by unfold PeerRequest.length at hlen; omega)
  rw [Nat.zero_add] at hcount
  rw [harea, parse_row true hwf, hcount]
  have hunknown := encode_unknown_ne_nil r.options
  by_cases h : ∃ t ∈ r.options, unknownOption t
  · have hany : r.options.any unknownOption = true := List.any_eq_true.2 h
    rw [if_pos (hunknown.2 h), if_pos h, configParseError, hany]
    rfl
  · rw [if_neg (fun hne => h (hunknown.1 hne)), if_neg h]

/-- A request of options that are known, or hints. -/
theorem known_of_wellFormed (hflags : r.flags < 65536) (hwf : ∀ t ∈ r.options, wellFormedOption t)
    (hknown : ¬ ∃ t ∈ r.options, unknownOption t) : r.Known :=
  ⟨hflags, hwf, fun t ht => Bool.eq_false_iff.2 fun hu => hknown ⟨t, ht, hu⟩⟩

theorem sends_finish (v : L2capLink) (p flags : Nat) : Sends v (bteL2capUnref (finishConfigureReq v p flags) p) [] := by
  have hkeep : Sends v (finishConfigureReq v p flags) [] := .of_log rfl
  exact hkeep.left (sends_unref _ p)

section Branches
variable {carried : Nat → List UInt8 → Prop}
include hmtu hmtu' hc

/-- A reply of a few bytes answers exactly if the packets hold its headers. -/
theorem reply_answers_iff {v v' : L2capLink} {q : Option Nat} {code id : Nat} {body : List UInt8}
    (hcarried : carried code body ↔ CarriesReply host code id body)
    (hcode : code = l2capSignalCmdRej ∨ code = l2capSignalConfigRsp) (hlen : body.length ≤ 8) (h : Sends w v [])
    (h' : Sends (aclL2capCmdReply host v q code id body).2 v' []) :
    AnswersRequest id carried w v' ↔ host.HeadersFit := by
  have hiff := carriesReply_iff hmtu hmtu' hc code id hlen
  rw [cmdReply_eq] at h'
  cases hpackets : replyPackets host code id body with
  | none =>
    rw [hpackets] at h'
    refine iff_of_false (not_answers (h.left h') fun _ _ _ h => by cases h) fun hfit => ?_
    obtain ⟨-, packets, -, hsome, -⟩ := hiff.2 hfit
    rw [hpackets] at hsome
    cases hsome
  | some buffer =>
    rw [hpackets] at h'
    rw [answers_sent_iff hcode ((h.left (sends_send host v q code id body buffer)).right h'), hcarried, hiff]

/-- The rest of a response. -/
theorem pending_answers_iff (hh : host.Silent) (conf : ConfigureData)
    (hcarried : ∀ body, carried l2capSignalConfigRsp body ↔ CarriesBody host l2capSignalConfigRsp r.id body) :
    AnswersRequest r.id carried w (bteL2capUnref (l2capConfigSendRespPacket host
        (bteL2capRef (w.modify p fun l2cap => { l2cap with configureReq := some conf }) p) p r.id).2 p) ↔
      r.id ≠ 0 ∧ host.Fits (responseLength w p conf) := by
  have hconf : (((bteL2capRef (w.modify p fun l2cap => { l2cap with configureReq := some conf }) p).channels
      p).configureReq.getD
      .zero) = conf := by simp [bteL2capRef, L2capLink.modify]
  have hlength : responseLength (bteL2capRef (w.modify p fun l2cap => { l2cap with configureReq := some conf }) p) p conf =
      responseLength w p conf := by simp [responseLength, bteL2capRef, L2capLink.modify]
  have href : Sends w (bteL2capRef (w.modify p fun l2cap => { l2cap with configureReq := some conf }) p) [] := .of_log rfl
  generalize bteL2capRef (w.modify p fun l2cap => { l2cap with configureReq := some conf }) p = w₁ at hconf hlength href ⊢
  have hkeep : Sends (l2capConfigSend host w₁ p conf r.id).2 (l2capConfigSendRespPacket host w₁ p r.id).2 [] := by
    rw [l2capConfigSendRespPacket, hconf]
    exact .of_log rfl
  rw [configSend_answers_iff hh href p conf (hkeep.left (sends_unref _ p)), hcarried,
    responseCarried_iff hmtu hmtu' hc, hlength]

omit hc in
/-- The unknown options. -/
theorem unknown_answers_iff (hflags : r.flags < 65536) {params : ConfigureParams} {v : L2capLink} (h : Sends w v [])
    (hcarried : ∀ body, carried l2capSignalConfigRsp body ↔
      CarriesHead host l2capSignalConfigRsp r.id (6 + r.unknownSize params) (body.take 6)) {finish : L2capLink → L2capLink}
    (hfinish : ∀ u, Sends u (finish u) []) :
    AnswersRequest r.id carried w (((l2capConfigureReplyTypeError host v p r.id (r.reader channelId) r.length
        (r.unknownSize params)).map finish).getD v) ↔
      CopyEnds host r ∧ host.Fits 6 ∧
        packetsNeeded host.aclMtu (l2capSignalHdrLen + (6 + r.unknownSize params)) * host.aclMtu < 65536 := by
  rw [replyTypeError_eq hflags, ← copied_iff host channelId r]
  cases copyUnknown host (encode r.options).length ((r.reader channelId).length + 65537) 0 (encode r.options ++ r.tail) with
  | none => exact iff_of_false (not_answers h fun _ _ _ h => by cases h) fun h => Bool.false_ne_true h.1
  | some writes =>
    have hlen : (unknownHead (v.channels p) r.flags).length = 6 := by simp [unknownHead]
    have hsend := h.left (sends_send host v (some p) l2capSignalConfigRsp r.id
      (unknownHead (v.channels p) r.flags ++ writes.flatten)
      (((aclL2capCreateCmd host l2capSignalConfigRsp r.id (l2capConfigRspHdrLen + r.unknownSize params)).map fun writer =>
        bteBufferWriterEnd (writeAll (writer.storeN (unknownHead (v.channels p) r.flags)) writes).2).getD []))
    have hhead := @carriesHead_iff host hmtu hmtu' l2capSignalConfigRsp r.id (6 + r.unknownSize params)
      (unknownHead (v.channels p) r.flags) (by omega) (by omega)
    rw [hlen] at hhead
    rw [Option.map_some, Option.map_some, Option.getD_some, answers_sent_iff (.inr rfl) (hsend.right (hfinish _)), hcarried,
      List.take_left' hlen, hhead]
    exact (and_iff_right rfl).symm

end Branches

include hmtu hmtu' hc

/-- A request for no channel that takes one is rejected. -/
theorem answers_reject (hid : channelId < 65536) (hflags : r.flags < 65536) (htarget : w.configureTarget channelId = none) :
    AnswersRequest r.id (r.Carried host channelId w) w (r.handle host channelId w) ↔ host.HeadersFit := by
  obtain ⟨hword, -⟩ := word_header hid hflags
  unfold PeerRequest.handle aclL2capHandleConfigureReq withSignalHeader
  rw [readHeader_reader]
  simp only [hword, htarget]
  refine reply_answers_iff hmtu hmtu' hc ?_ (.inl rfl) (by simp) (.refl w) (.refl _)
  unfold PeerRequest.Carried
  rw [htarget]

/-- One for a channel that does is answered in one of four ways. -/
theorem answers_on (hh : host.Silent) (hid : channelId < 65536) (hflags : r.flags < 65536)
    (hwf : ∀ t ∈ r.options, wellFormedOption t) (hlen : r.length < 65536) (htarget : w.configureTarget channelId = some p) :
    AnswersRequest r.id (r.Carried host channelId w) w (r.handle host channelId w) ↔ r.AnswerComes host channelId w := by
  unfold PeerRequest.AnswerComes
  simp only [htarget]
  by_cases hpending : ((w.channels p).configureReq.getD .zero).hasPendingPackets = true
  · have hcarried : ∀ body, r.Carried host channelId w l2capSignalConfigRsp body ↔
        CarriesBody host l2capSignalConfigRsp r.id body := by
      intro body
      unfold PeerRequest.Carried
      simp only [htarget, hpending, if_true]
    rw [if_pos hpending, ← pending_answers_iff hmtu hmtu' hc hh _ hcarried, handle_on host hid htarget hflags]
    unfold handleConfigureReqOn
    simp only [hpending, if_true]
    rfl
  rw [if_neg hpending]
  by_cases hunknown : ∃ t ∈ r.options, unknownOption t
  · have hcarried : ∀ body, r.Carried host channelId w l2capSignalConfigRsp body ↔ CarriesHead host l2capSignalConfigRsp r.id
        (6 + r.unknownSize ((w.channels p).configureReq.getD .zero).params) (body.take 6) := by
      intro body
      unfold PeerRequest.Carried
      simp only [htarget]
      rw [if_neg hpending, if_pos hunknown]
    have hrc := parse_wellFormed hwf hlen ((w.channels p).configureReq.getD .zero).params
    rw [if_pos hunknown] at hrc
    obtain ⟨v, hlog, hreply⟩ := @handleReqOn_unknown host w p r.id r.flags (r.reader channelId) _ _ hpending hrc
    rw [if_pos hunknown, handle_on host hid htarget hflags, hreply,
      ← unknown_answers_iff hmtu hmtu' hflags (.of_log hlog) hcarried fun u => sends_finish u p r.flags]
    rfl
  rw [if_neg hunknown]
  have hr := known_of_wellFormed hflags hwf hunknown
  by_cases hmore : r.flags &&& l2capConfigFlagContinuation ≠ 0
  · have hcarried : ∀ body, r.Carried host channelId w l2capSignalConfigRsp body ↔
        CarriesReply host l2capSignalConfigRsp r.id body := by
      intro body
      unfold PeerRequest.Carried
      simp only [htarget]
      rw [if_neg hpending, if_neg hunknown, if_pos hmore]
    have hread : Sends w (r.read w p) [] := .of_log rfl
    rw [if_pos hmore, PeerRequest.handle_more hid htarget (Bool.eq_false_iff.2 hpending) hr hmore]
    exact reply_answers_iff hmtu hmtu' hc (hcarried _) (.inr rfl) (by simp) hread (sends_finish _ p r.flags)
  · have hcarried : ∀ body, r.Carried host channelId w l2capSignalConfigRsp body ↔
        CarriesBody host l2capSignalConfigRsp r.id body := by
      intro body
      unfold PeerRequest.Carried
      simp only [htarget]
      rw [if_neg hpending, if_neg hunknown, if_neg hmore]
    have hread : Sends w (r.read w p) [] := .of_log rfl
    rw [if_neg hmore, PeerRequest.handle_final hid htarget (Bool.eq_false_iff.2 hpending) hr (not_not.1 hmore),
      requested_answers_iff hh hread p (sends_finish _ p r.flags), hcarried, responseCarried_iff hmtu hmtu' hc]
    rfl

/-- **A Configuration Request is answered by one command, under its id and carried by its packets, exactly if the answer
comes.**  The commands are the handler's own: those of the client's calls are left out. -/
theorem answered_iff (hid : channelId < 65536) (hflags : r.flags < 65536) (hwf : ∀ t ∈ r.options, wellFormedOption t)
    (hlen : r.length < 65536) :
    AnswersRequest r.id (r.Carried host.unheard channelId w) w (r.handle host.unheard channelId w) ↔
      r.AnswerComes host.unheard channelId w := by
  cases htarget : w.configureTarget channelId with
  | none =>
    rw [@answers_reject host.unheard hmtu hmtu' hc w channelId r hid hflags htarget, PeerRequest.AnswerComes, htarget]
  | some p => exact @answers_on host.unheard hmtu hmtu' hc w channelId p r (silent_unheard host) hid hflags hwf hlen htarget

end Handler

/-- A peer that gives its request the id 0 is sent a request. -/
theorem request_not_answered : (connectedRun 8).configureTarget 0x40 = some 0 ∧
    ¬ AnswersRequest 0 ((PeerRequest.mk 0 0 [] []).Carried plainHost.unheard 0x40 (connectedRun 8)) (connectedRun 8)
      ((PeerRequest.mk 0 0 [] []).handle plainHost.unheard 0x40 (connectedRun 8)) := by
  refine ⟨by decide, ?_⟩
  rintro ⟨code, body, hcode, hsends, -⟩
  have hnew := hsends.new
  have hcommands : ((((PeerRequest.mk 0 0 [] []).handle plainHost.unheard 0x40 (connectedRun 8)).log.drop
      (connectedRun 8).log.length).filterMap L2event.command) =
        [(l2capSignalConfigReq, 1, [0x50, 0, 0, 0, 1, 2, 0xa0, 2])] := by decide
  rw [hcommands] at hnew
  rcases hcode with rfl | rfl <;> cases hnew

/-- Under another id it is answered. -/
theorem answered_iff_five : AnswersRequest 5 ((PeerRequest.mk 5 0 [] []).Carried plainHost.unheard 0x40 (connectedRun 8))
    (connectedRun 8) ((PeerRequest.mk 5 0 [] []).handle plainHost.unheard 0x40 (connectedRun 8)) := by
  have htarget : (connectedRun 8).configureTarget 0x40 = some 0 := by decide
  refine (@answered_iff plainHost (by decide) (by decide) (by decide) (connectedRun 8) 0x40 ⟨5, 0, [], []⟩ (by decide)
    (by decide) (fun _ ht => nomatch ht) (by decide)).2 ?_
  simp only [PeerRequest.AnswerComes, htarget]
  rw [if_neg (by decide), if_neg (by decide), if_neg (by decide)]
  exact ⟨by decide, by decide⟩

end Bte
