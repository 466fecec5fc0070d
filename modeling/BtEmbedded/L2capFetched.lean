import BtEmbedded.L2capInvariant
import BtEmbedded.L2capResponder
/-!
# L2capFetched — whether all parts of a configuration response are fetched (l2cap.c)

A configuration request went out in some packets, and the peer answers: the earlier packets first, then the last one, in
parts.  Between the parts the link may change in any way that leaves alone what the channel awaits.
-/
namespace Bte

open Bytes Tlv Fill L2capLink

/-! ## The requests of a channel -/

/-- A Configuration Request of a channel: its id and its body. -/
def L2event.configRequest (p : Nat) : L2event → Option (Nat × List UInt8)
  | .emitted q code id body => if q = some p ∧ code = l2capSignalConfigReq then some (id, body) else none
  | _ => none

namespace L2capLink

def configRequests (w : L2capLink) (p : Nat) : List (Nat × List UInt8) := w.log.filterMap (·.configRequest p)

/-- The id of the last one. -/
def lastConfigRequest (w : L2capLink) (p : Nat) : Nat := ((w.configRequests p).getLast?.map (·.1)).getD 0

/-- No channel of the link awaits an answer with this id. -/
def FreshId (w : L2capLink) (id : Nat) : Prop :=
  w.findClient (fun l2cap => l2cap.expectedResponseCount != 0 && l2cap.expectedResponseId == id) = none

instance (w : L2capLink) (id : Nat) : Decidable (w.FreshId id) := inferInstanceAs (Decidable (_ = _))

/-- The channel awaits the response to the last of its requests, and has so far this part of it. -/
structure AwaitsParts (w : L2capLink) (p count : Nat) (conf : ConfigureData) : Prop where
  known : p < w.allocated
  code : (w.channels p).expectedResponseCode = l2capSignalConfigRsp
  id : (w.channels p).expectedResponseId = w.lastConfigRequest p
  count : (w.channels p).expectedResponseCount = count
  soFar : w.answerSoFar p = conf

/-- A link on which a channel still awaits what it did. -/
structure StillAwaits (w v : L2capLink) (p : Nat) : Prop where
  allocated : w.allocated ≤ v.allocated
  code : (v.channels p).expectedResponseCode = (w.channels p).expectedResponseCode
  id : (v.channels p).expectedResponseId = (w.channels p).expectedResponseId
  count : (v.channels p).expectedResponseCount = (w.channels p).expectedResponseCount
  requests : v.configRequests p = w.configRequests p

/-- What it has so far is left alone too, and the client is told nothing. -/
structure Undisturbed (w v : L2capLink) (p : Nat) : Prop extends w.StillAwaits v p where
  resp : (v.channels p).configureResp = (w.channels p).configureResp
  replies : v.configureCbs p = w.configureCbs p

/-- The channel is there to take a response, and no other channel awaits it. -/
structure Takes (w : L2capLink) (p id : Nat) : Prop where
  live : 0 < (w.channels p).refCount
  tabled : w.Tabled p
  state : (w.channels p).state = .waitConfigRsp ∨ (w.channels p).state = .waitConfigReqRsp
  alone : ∀ q, w.findClient (·.expects l2capSignalConfigRsp id) = some q → q = p

end L2capLink

/-- The next null request is handed over at once. -/
def NullDeparts (host : L2capHost) (w : L2capLink) (p : Nat) : Prop :=
  (bteAclSendMessage host.rc w.dev ((cmdPackets host l2capSignalConfigReq w.nextSignalId.1
    (nullRequest (w.channels p).remoteChannelId)).getD [])).1 ≠ 0

/-! ## One response -/

section One
variable {host : L2capHost} {w : L2capLink} {p id : Nat} {r : ResponsePart}

theorem L2capLink.StillAwaits.trans {a b c : L2capLink} (h : a.StillAwaits b p) (h' : b.StillAwaits c p) :
    a.StillAwaits c p where
  allocated := h.allocated.trans h'.allocated
  code := h'.code.trans h.code
  id := h'.id.trans h.id
  count := h'.count.trans h.count
  requests := h'.requests.trans h.requests

/-- What it awaits goes on being the answer to the last request. -/
theorem L2capLink.StillAwaits.id_eq {v : L2capLink} (h : w.StillAwaits v p)
    (hid : (w.channels p).expectedResponseId = w.lastConfigRequest p) :
    (v.channels p).expectedResponseId = v.lastConfigRequest p := by
  rw [h.id, hid]
  unfold L2capLink.lastConfigRequest
  rw [h.requests]

theorem L2capLink.AwaitsParts.undisturbed {v : L2capLink} {count : Nat} {conf : ConfigureData}
    (h : w.AwaitsParts p count conf) (hv : w.Undisturbed v p) : v.AwaitsParts p count conf where
  known := lt_of_lt_of_le h.known hv.allocated
  code := hv.code.trans h.code
  id := hv.id_eq h.id
  count := hv.count.trans h.count
  soFar := by
    rw [← h.soFar]
    unfold L2capLink.answerSoFar
    rw [hv.resp]

/-- A response that no channel awaits is noted. -/
theorem handle_unawaited (hnone : w.findClient (·.expects l2capSignalConfigRsp id) = none) :
    r.handle host id w = w.note (.response l2capSignalConfigRsp id r.reader r.length w.table) := by
  unfold ResponsePart.handle aclL2capHandleResponse
  simp only [findClient_note, hnone]
  rfl

theorem undisturbed_unawaited (hnone : w.findClient (·.expects l2capSignalConfigRsp id) = none) :
    w.Undisturbed (r.handle host id w) p := by
  rw [handle_unawaited hnone]
  exact ⟨⟨le_rfl, rfl, rfl, rfl, rfl⟩, rfl, rfl⟩

/-- The dispatcher has found the channel, and the part is kept. -/
def takenPart (w : L2capLink) (p id : Nat) (r : ResponsePart) : L2capLink :=
  let v := (bteL2capRef (w.note (.response l2capSignalConfigRsp id r.reader r.length w.table)) p).modify p countDown
  v.keepResponse p (v.received p r.reader r.length)

/-- What is recorded of it. -/
def handledPart (w : L2capLink) (p id : Nat) (r : ResponsePart) : L2event :=
  .handled p id (w.channels p).expectedResponseId r.flags r.result (lastRequest p w.log)

theorem reader_eq (r : ResponsePart) : r.reader.take 6 = leBytes 2 r.channelId ++ leBytes 2 r.flags ++ leBytes 2 r.result ∧
    r.reader.drop 6 = encode r.options ++ r.tail := by
  have hhead : (leBytes 2 r.channelId ++ leBytes 2 r.flags ++ leBytes 2 r.result).length = 6 := by simp
  have hreader : r.reader = (leBytes 2 r.channelId ++ leBytes 2 r.flags ++ leBytes 2 r.result) ++
      (encode r.options ++ r.tail) := by simp [ResponsePart.reader]
  rw [hreader]
  exact ⟨List.take_left' hhead, List.drop_left' hhead⟩

theorem words_reader (hr : r.WellFormed) : headerRead r.reader r.length 6 ∧ word (r.reader.take 6) 1 = r.flags ∧
    word (r.reader.take 6) 2 = r.result := by
  have hflags : leVal (leBytes 2 r.flags) = r.flags := (leVal_leBytes 2 _).trans (Nat.mod_eq_of_lt hr.flags)
  have hresult : leVal (leBytes 2 r.result) = r.result := (leVal_leBytes 2 _).trans (Nat.mod_eq_of_lt hr.result)
  rw [(reader_eq r).1]
  refine ⟨?_, hflags, hresult⟩
  simp [headerRead, ResponsePart.reader, ResponsePart.length]
  omega

/-- **A response that the channel awaits is handled for it.** -/
theorem handle_taken (hr : r.WellFormed) (hfound : w.findClient (·.expects l2capSignalConfigRsp id) = some p)
    (hstate : (w.channels p).state = .waitConfigRsp ∨ (w.channels p).state = .waitConfigReqRsp) :
    r.handle host id w =
      bteL2capUnref (finishConfigResp host (takenPart w p id r) p r.flags r.result (handledPart w p id r)) p := by
  obtain ⟨hread, hflags, hresult⟩ := words_reader hr
  generalize hv :
    (bteL2capRef (w.note (.response l2capSignalConfigRsp id r.reader r.length w.table)) p).modify p countDown = v
  have hchannel : v.channels p = countDown { w.channels p with refCount := (w.channels p).refCount + 1 } := by
    rw [← hv]
    simp [L2capLink.modify, bteL2capRef, L2capLink.note]
  have hlog : v.log = w.log := by
    rw [← hv]
    rfl
  have hlink := handleConfigResp_eq host v p id hread
  rw [hflags, hresult] at hlink
  have hok : (l2capHandleConfigResp host v p id r.reader r.length).ok = true := by
    unfold l2capHandleConfigResp
    rcases withSignalHeader_cases v r.reader r.length 6 _ with ⟨-, heq⟩ | ⟨hno, -⟩
    · rw [heq]
      rfl
    · rw [hread] at hno
      cases hno
  have hresponse : l2capHandleResponse host v p l2capSignalConfigRsp id r.reader r.length =
      l2capHandleConfigResp host v p id r.reader r.length := by
    have hcode : ¬ l2capSignalConfigRsp = l2capSignalConnRsp := by decide
    have hawaits : (v.channels p).state = .waitConfigRsp ∨ (v.channels p).state = .waitConfigReqRsp := by
      rw [hchannel]
      exact hstate
    unfold l2capHandleResponse
    simp only
    rw [if_neg hcode, if_pos trivial, if_pos hawaits]
  unfold ResponsePart.handle aclL2capHandleResponse
  simp only [findClient_note, hfound, hv, hresponse, hok, if_true, hlink]
  unfold takenPart handledPart
  rw [hv, hchannel, hlog]
  rfl

/-- What the channel is by then. -/
theorem channel_takenPart (hr : r.WellFormed) (hconf : (w.answerSoFar p).Masked) :
    ∃ onStack, (takenPart w p id r).channels p = { w.channels p with
      refCount := (w.channels p).refCount + 1
      expectedResponseCount := ((w.channels p).expectedResponseCount + 255) % 256
      configureResp := some ⟨r.keep (w.answerSoFar p), onStack⟩ } := by
  obtain ⟨-, -, hresult⟩ := words_reader hr
  generalize hv :
    (bteL2capRef (w.note (.response l2capSignalConfigRsp id r.reader r.length w.table)) p).modify p countDown = v
  have hchannel : v.channels p = countDown { w.channels p with refCount := (w.channels p).refCount + 1 } := by
    rw [← hv]
    simp [L2capLink.modify, bteL2capRef, L2capLink.note]
  have hsoFar : v.answerSoFar p = w.answerSoFar p := by
    unfold L2capLink.answerSoFar
    rw [hchannel]
    rfl
  have hdata : (v.received p r.reader r.length).data = r.keep (w.answerSoFar p) := by
    unfold L2capLink.received
    simp only
    rw [hresult, (reader_eq r).2, hsoFar, ResponsePart.respParse_eq hr hconf]
  refine ⟨(v.received p r.reader r.length).onStack, ?_⟩
  unfold takenPart
  simp only [hv]
  rw [← hdata, L2capLink.keepResponse, L2capLink.modify]
  simp only [Function.update_self, hchannel]
  rfl

end One

/-! ## A null request -/

theorem configWrite_zero (bufferSize : Nat) : l2capConfigWrite .zero 0 bufferSize = (0, []) := rfl

section Null
variable {host : L2capHost} {w : L2capLink} {p : Nat}

theorem requestBody_zero : requestBody w p .zero 0 = nullRequest (w.channels p).remoteChannelId := by
  unfold requestBody nullRequest
  rw [configWrite_zero]
  exact List.append_nil _

/-- The link once a null request is handed over. -/
def nullTurn (host : L2capHost) (w : L2capLink) (p : Nat) : L2capLink :=
  requestTurn host w.nextSignalId.2 p .zero 0 w.nextSignalId.1

instance : Decidable (NullDeparts host w p) := inferInstanceAs (Decidable (_ ≠ _))

/-- **A null request is awaited if it is handed over at once.** -/
theorem send_null (hstate : (w.channels p).state = .waitConfigRsp ∨ (w.channels p).state = .waitConfigReqRsp) :
    (l2capConfigSend host w p .zero 0).2 =
      if NullDeparts host w p then awaitConfigRsp (nullTurn host w p) p else nullTurn host w p := by
  have hturn : ((nullTurn host w p).channels p).state = (w.channels p).state := rfl
  have hawaits : ((awaitConfigRsp (nullTurn host w p) p).channels p).state = (w.channels p).state := by
    simp only [awaitConfigRsp, L2capLink.modify, Function.update_self, hturn]
  have hkeeps : ∀ x : L2capLink, (x.channels p).state = (w.channels p).state →
      l2capSetState host x p (requestSent (x.channels p).state) = x := by
    intro x hx
    refine if_pos ?_
    rcases hstate with h | h
    · rw [hx, h]
      rfl
    · rw [hx, h]
      rfl
  have hbuffer : requestBuffer host w.nextSignalId.2 p .zero 0 w.nextSignalId.1 =
      (cmdPackets host l2capSignalConfigReq w.nextSignalId.1 (nullRequest (w.channels p).remoteChannelId)).getD [] := by
    rw [requestBuffer, requestBody_zero]
    rfl
  have hloop := requestLoop_succ host p .zero w.dev.aclAvailablePackets 0 w.nextSignalId.1 w.nextSignalId.2
  rw [configWrite_zero, if_neg (Nat.lt_irrefl 0), hbuffer, show w.nextSignalId.2.dev = w.dev from rfl] at hloop
  have hsend : (l2capConfigSend host w p .zero 0).2 = l2capSetState host
      (configRequestLoop host p .zero (w.dev.aclAvailablePackets + 1) 0 w.nextSignalId.1 w.nextSignalId.2).2 p (requestSent
        ((configRequestLoop host p .zero (w.dev.aclAvailablePackets + 1) 0 w.nextSignalId.1 w.nextSignalId.2).2.channels
          p).state) := rfl
  rw [hsend, hloop]
  by_cases hdeparts : NullDeparts host w p
  · rw [if_pos hdeparts, if_neg hdeparts]
    exact hkeeps _ hawaits
  · rw [if_neg hdeparts, if_pos (not_not.1 hdeparts)]
    exact hkeeps _ hturn

end Null

/-! ## A part that is continued -/

theorem unref_live {w : L2capLink} {p : Nat} (h : (w.channels p).refCount ≠ 1) :
    bteL2capUnref w p = w.modify p fun l2cap => { l2cap with refCount := l2cap.refCount - 1 } := if_neg h

/-- The part is kept, and recorded. -/
def recordedPart (w : L2capLink) (p id : Nat) (r : ResponsePart) : L2capLink :=
  (takenPart w p id r).record (handledPart w p id r)

section Continued
variable {host : L2capHost} {w : L2capLink} {p id : Nat} {r : ResponsePart} (hr : r.WellFormed) (hmore : r.Continued)
  (hfound : w.findClient (·.expects l2capSignalConfigRsp id) = some p) (htakes : w.Takes p id)
  (hconf : (w.answerSoFar p).Masked)
include hr hmore hfound htakes hconf

/-- What such a part leaves, apart from the reference held meanwhile. -/
theorem handle_continuedPart : r.handle host id w = bteL2capUnref
    (if (w.channels p).expectedResponseCount % 256 = 2 then
      if NullDeparts host w p then awaitConfigRsp (nullTurn host (recordedPart w p id r) p) p
      else nullTurn host (recordedPart w p id r) p
    else recordedPart w p id r) p := by
  obtain ⟨onStack, hchannel⟩ := @channel_takenPart w p id r hr hconf
  have hflags : ¬ r.flags = 0 := by
    intro h
    rw [ResponsePart.Continued, h] at hmore
    exact hmore rfl
  have hcount : ((takenPart w p id r).channels p).expectedResponseCount = 1 ↔
      (w.channels p).expectedResponseCount % 256 = 2 := by
    rw [hchannel]
    show ((w.channels p).expectedResponseCount + 255) % 256 = 1 ↔ _
    omega
  have hdeparts : NullDeparts host (recordedPart w p id r) p ↔ NullDeparts host w p := by
    have hremote : ((recordedPart w p id r).channels p).remoteChannelId = (w.channels p).remoteChannelId := by
      show ((takenPart w p id r).channels p).remoteChannelId = _
      rw [hchannel]
    unfold NullDeparts
    rw [hremote]
    rfl
  have hstate : ((recordedPart w p id r).channels p).state = .waitConfigRsp ∨
      ((recordedPart w p id r).channels p).state = .waitConfigReqRsp := by
    show ((takenPart w p id r).channels p).state = _ ∨ ((takenPart w p id r).channels p).state = _
    rw [hchannel]
    exact htakes.state
  rw [handle_taken hr hfound htakes.state]
  congr 1
  unfold finishConfigResp
  rw [if_neg hflags]
  simp only
  by_cases htwo : (w.channels p).expectedResponseCount % 256 = 2
  · have hone : (((takenPart w p id r).record (handledPart w p id r)).channels p).expectedResponseCount = 1 := hcount.2 htwo
    rw [if_pos hone, if_pos htwo]
    have hsend := @send_null host (recordedPart w p id r) p hstate
    simp only [hdeparts] at hsend
    exact hsend
  · have hone : ¬ (((takenPart w p id r).record (handledPart w p id r)).channels p).expectedResponseCount = 1 :=
      fun h => htwo (hcount.1 h)
    rw [if_neg hone, if_neg htwo]
    rfl

/-- **Unless two responses were awaited, nothing is asked.** -/
theorem continued_silent (hcount : (w.channels p).expectedResponseCount % 256 ≠ 2) :
    (r.handle host id w).log = w.log ++ [handledPart w p id r] := by
  obtain ⟨onStack, hchannel⟩ := @channel_takenPart w p id r hr hconf
  rw [handle_continuedPart hr hmore hfound htakes hconf, if_neg hcount, unref_live]
  · rfl
  · have hlive := htakes.live
    show ((takenPart w p id r).channels p).refCount ≠ 1
    rw [hchannel]
    simp only
    omega

/-- **If two were, a null request is handed over**; the next part is awaited if it leaves at once. -/
theorem continued_asks (hcount : (w.channels p).expectedResponseCount = 2) :
    (r.handle host id w).log = w.log ++ [handledPart w p id r,
        .emitted (some p) l2capSignalConfigReq w.nextSignalId.1 (nullRequest (w.channels p).remoteChannelId)] ∧
      (r.handle host id w).allocated = w.allocated ∧ (r.handle host id w).answerSoFar p = r.keep (w.answerSoFar p) ∧
      ((r.handle host id w).channels p).expectedResponseId =
        (if NullDeparts host w p then w.nextSignalId.1 else (w.channels p).expectedResponseId) ∧
      (NullDeparts host w p → ((r.handle host id w).channels p).expectedResponseCode = l2capSignalConfigRsp ∧
        ((r.handle host id w).channels p).expectedResponseCount = 2) := by
  obtain ⟨onStack, hchannel⟩ := @channel_takenPart w p id r hr hconf
  have hlive := htakes.live
  have hturn : (nullTurn host (recordedPart w p id r) p).channels p = (takenPart w p id r).channels p := rfl
  have hlog : (nullTurn host (recordedPart w p id r) p).log = w.log ++ [handledPart w p id r,
      .emitted (some p) l2capSignalConfigReq w.nextSignalId.1 (nullRequest (w.channels p).remoteChannelId)] := by
    have hbody : requestBody (recordedPart w p id r).nextSignalId.2 p .zero 0 =
        nullRequest (w.channels p).remoteChannelId := by
      rw [requestBody_zero]
      show nullRequest ((takenPart w p id r).channels p).remoteChannelId = _
      rw [hchannel]
    show (w.log ++ [handledPart w p id r]) ++ [.emitted (some p) l2capSignalConfigReq w.nextSignalId.1
      (requestBody (recordedPart w p id r).nextSignalId.2 p .zero 0)] = _
    rw [hbody, List.append_assoc]
    rfl
  rw [handle_continuedPart hr hmore hfound htakes hconf, if_pos (by omega)]
  by_cases hdeparts : NullDeparts host w p
  · rw [if_pos hdeparts, if_pos hdeparts, unref_live]
    · refine ⟨hlog, rfl, ?_, ?_, fun _ => ⟨?_, ?_⟩⟩
      · simp [awaitConfigRsp, L2capLink.modify, L2capLink.answerSoFar, hturn, hchannel]
      · simp [awaitConfigRsp, L2capLink.modify]
        rfl
      · simp [awaitConfigRsp, L2capLink.modify]
      · simp [awaitConfigRsp, L2capLink.modify, hturn, hchannel, hcount]
    · simp [awaitConfigRsp, L2capLink.modify, hturn, hchannel]
      omega
  · rw [if_neg hdeparts, if_neg hdeparts, unref_live]
    · refine ⟨hlog, rfl, ?_, ?_, fun h => absurd h hdeparts⟩
      · simp [L2capLink.modify, L2capLink.answerSoFar, hturn, hchannel]
      · simp [L2capLink.modify, hturn, hchannel]
    · rw [hturn, hchannel]
      simp only
      omega

end Continued

/-! ## The last part -/

/-- **A part is taken for the last one if it has no flag.** -/
theorem last_replied {host : L2capHost} {w : L2capLink} {p id : Nat} {r : ResponsePart}
    (hh : host.Heeds (Watch.answered p)) (hp : p < w.allocated) (hr : r.WellFormed)
    (hfound : w.findClient (·.expects l2capSignalConfigRsp id) = some p) (htakes : w.Takes p id)
    (hconf : (w.answerSoFar p).Masked) :
    ∃ cb, (r.handle host id w).configureCbs p = w.configureCbs p ++
      if r.flags = 0 then [.configureCb p cb (r.keep (w.answerSoFar p)).reply true] else [] := by
  obtain ⟨onStack, hchannel⟩ := @channel_takenPart w p id r hr hconf
  have hsoFar : (takenPart w p id r).answerSoFar p = r.keep (w.answerSoFar p) := by
    unfold L2capLink.answerSoFar
    rw [hchannel]
    rfl
  obtain ⟨cb, -, hcbs⟩ :=
    configureCbs_finish (w := takenPart w p id r) hh hp r.flags r.result (e := handledPart w p id r) rfl
  rw [hsoFar] at hcbs
  refine ⟨cb, ?_⟩
  rw [handle_taken hr hfound htakes.state]
  exact (filter_unref _ p rfl).trans hcbs

/-! ## Exchanges -/

/-- What happens while a response is on its way: the peer answers the last request or an earlier packet, or the link is
used for something else. -/
inductive ConfigExchange
  | meanwhile (v : L2capLink)
  | answer (r : ResponsePart)
  | answerEarlier (id : Nat) (r : ResponsePart)

namespace ConfigExchange

def step (host : L2capHost) (p : Nat) (w : L2capLink) : ConfigExchange → L2capLink
  | meanwhile v => v
  | answer r => r.handle host (w.lastConfigRequest p) w
  | answerEarlier id r => r.handle host id w

def part : ConfigExchange → Option ResponsePart
  | meanwhile _ => none
  | answer r => some r
  | answerEarlier _ r => some r

/-- The packets before the last one are answered, under ids that are not awaited. -/
def Earlier (p : Nat) (w : L2capLink) : ConfigExchange → Prop
  | meanwhile v => w.Undisturbed v p
  | answer _ => False
  | answerEarlier id r => r.WellFormed ∧ r.Continued ∧ w.findClient (·.expects l2capSignalConfigRsp id) = none

/-- The last request is answered, in parts that are continued. -/
def Later (p : Nat) (w : L2capLink) : ConfigExchange → Prop
  | meanwhile v => w.Undisturbed v p
  | answer r => r.WellFormed ∧ r.Continued ∧ w.Takes p (w.lastConfigRequest p)
  | answerEarlier _ _ => False

/-- **A part that answers the last request is followed by one null request with a fresh id**, and else nothing is asked; the
client is told nothing yet. -/
def Fetches (host : L2capHost) (p : Nat) (w : L2capLink) (op : ConfigExchange) : Prop :=
  (op.step host p w).configureCbs p = w.configureCbs p ∧
    match op with
    | answer _ => ∃ id, w.FreshId id ∧
        (op.step host p w).configRequests p = w.configRequests p ++ [(id, nullRequest (w.channels p).remoteChannelId)]
    | _ => (op.step host p w).configRequests p = w.configRequests p

/-- The id that is next is fresh, and the null request with it leaves at once. -/
def Asks (host : L2capHost) (p : Nat) (w : L2capLink) : ConfigExchange → Prop
  | answer _ => w.FreshId w.nextSignalId.1 ∧ NullDeparts host w p
  | _ => True

end ConfigExchange

/-- The parts of a response. -/
def exchangeParts (ops : List ConfigExchange) : List ResponsePart := ops.filterMap ConfigExchange.part

/-- The link after an exchange. -/
def L2capLink.exchange (w : L2capLink) (host : L2capHost) (p : Nat) (ops : List ConfigExchange) : L2capLink :=
  Sys.run (ConfigExchange.step host p) w ops

section Exchanges
variable {host : L2capHost} {p : Nat}

/-- While the earlier packets are answered nothing happens to what is awaited. -/
theorem earlier_undisturbed {w : L2capLink} {op : ConfigExchange} (h : op.Earlier p w) :
    w.Undisturbed (op.step host p w) p := by
  cases op with
  | meanwhile v => exact h
  | answer r => exact h.elim
  | answerEarlier id r => exact undisturbed_unawaited h.2.2

theorem earlier_fetches {w : L2capLink} {op : ConfigExchange} (h : op.Earlier p w) : op.Fetches host p w := by
  have hsame := @earlier_undisturbed host p w op h
  cases op with
  | meanwhile v => exact ⟨hsame.replies, hsame.requests⟩
  | answer r => exact h.elim
  | answerEarlier id r => exact ⟨hsame.replies, hsame.requests⟩

theorem takes_found {w : L2capLink} {id : Nat} (htakes : w.Takes p id)
    (hexpects : (w.channels p).expects l2capSignalConfigRsp id) :
    w.findClient (·.expects l2capSignalConfigRsp id) = some p := by
  obtain ⟨q, hq⟩ := @findClient_isSome w (·.expects l2capSignalConfigRsp id) p htakes.tabled hexpects
  rwa [htakes.alone q hq] at hq

/-- A response to a request that the channel does not await reaches nobody. -/
theorem takes_missed {w : L2capLink} {id : Nat} (htakes : w.Takes p id)
    (hmissed : (w.channels p).expectedResponseId ≠ id) : w.findClient (·.expects l2capSignalConfigRsp id) = none := by
  cases hfound : w.findClient (·.expects l2capSignalConfigRsp id) with
  | none => rfl
  | some q =>
    have hq := htakes.alone q hfound
    subst hq
    exact absurd ((expects_iff _ _ _).1 (findClient_some hfound).2).2.1.symm hmissed

theorem awaits_expects {w : L2capLink} {count : Nat} {conf : ConfigureData} (h : w.AwaitsParts p count conf)
    (hcount : count ≠ 0) : (w.channels p).expects l2capSignalConfigRsp (w.lastConfigRequest p) := by
  rw [expects_iff, h.count, h.code, h.id]
  exact ⟨hcount, rfl, .inl rfl⟩

section Answer
variable {w : L2capLink} {r : ResponsePart} {count : Nat} {conf : ConfigureData} (h : w.AwaitsParts p count conf)
  (hmasked : conf.Masked) (hlow : 0 < count) (hhigh : count < 256) (hlater : (ConfigExchange.answer r).Later p w)
include h hmasked hlow hlater

theorem requests_asked (htwo : count = 2) :
    ((ConfigExchange.answer r).step host p w).configRequests p =
        w.configRequests p ++ [(w.nextSignalId.1, nullRequest (w.channels p).remoteChannelId)] ∧
      ((ConfigExchange.answer r).step host p w).configureCbs p = w.configureCbs p := by
  obtain ⟨hr, hmore, htakes⟩ := hlater
  subst htwo
  obtain ⟨hlog, -⟩ := @continued_asks host w p _ r hr hmore
    (takes_found htakes (awaits_expects h (Nat.ne_of_gt hlow))) htakes (h.soFar ▸ hmasked) h.count
  unfold ConfigExchange.step L2capLink.configRequests L2capLink.configureCbs
  rw [hlog]
  constructor
  · simp [L2event.configRequest, handledPart]
  · simp [L2event.configures, handledPart]

include hhigh

/-- **A continued part is followed by a null request just when the request took two packets.** -/
theorem fetches_answer_iff : (ConfigExchange.answer r).Fetches host p w ↔ count = 2 ∧ w.FreshId w.nextSignalId.1 := by
  by_cases htwo : count = 2
  · obtain ⟨hrequests, hreplies⟩ := @requests_asked host p w r count conf h hmasked hlow hlater htwo
    constructor
    · rintro ⟨-, id, hfresh, hid⟩
      rw [hrequests] at hid
      have hlast := List.append_cancel_left hid
      simp only [List.cons.injEq, Prod.mk.injEq, and_true] at hlast
      exact ⟨htwo, hlast ▸ hfresh⟩
    · rintro ⟨-, hfresh⟩
      exact ⟨hreplies, _, hfresh, hrequests⟩
  · refine iff_of_false ?_ fun hboth => htwo hboth.1
    rintro ⟨-, id, -, hid⟩
    obtain ⟨hr, hmore, htakes⟩ := hlater
    have hlog := @continued_silent host w p _ r hr hmore
      (takes_found htakes (awaits_expects h (Nat.ne_of_gt hlow))) htakes (h.soFar ▸ hmasked) (by rw [h.count]; omega)
    have hsame : ((ConfigExchange.answer r).step host p w).configRequests p = w.configRequests p := by
      unfold ConfigExchange.step L2capLink.configRequests
      rw [hlog]
      simp [L2event.configRequest, handledPart]
    rw [hsame] at hid
    simp at hid

omit hhigh

theorem last_asked (htwo : count = 2) :
    ((ConfigExchange.answer r).step host p w).lastConfigRequest p = w.nextSignalId.1 := by
  unfold L2capLink.lastConfigRequest
  rw [(@requests_asked host p w r count conf h hmasked hlow hlater htwo).1]
  simp

/-- If it leaves at once, the next part is awaited. -/
theorem awaits_next (htwo : count = 2) (hdeparts : NullDeparts host w p) :
    ((ConfigExchange.answer r).step host p w).AwaitsParts p 2 (r.keep conf) := by
  have hlast := @last_asked host p w r count conf h hmasked hlow hlater htwo
  obtain ⟨hr, hmore, htakes⟩ := hlater
  subst htwo
  obtain ⟨-, hallocated, hsoFar, hid, hawaits⟩ := @continued_asks host w p _ r hr hmore
    (takes_found htakes (awaits_expects h (Nat.ne_of_gt hlow))) htakes (h.soFar ▸ hmasked) h.count
  rw [if_pos hdeparts] at hid
  exact
    { known := lt_of_lt_of_le h.known hallocated.ge
      code := (hawaits hdeparts).1
      id := hid.trans hlast.symm
      count := (hawaits hdeparts).2
      soFar := by rw [← h.soFar]; exact hsoFar }

/-- If it has to wait, the next part is not. -/
theorem misses_next (htwo : count = 2) (hfresh : w.FreshId w.nextSignalId.1) (hdeparts : ¬ NullDeparts host w p) :
    (((ConfigExchange.answer r).step host p w).channels p).expectedResponseId ≠
      ((ConfigExchange.answer r).step host p w).lastConfigRequest p := by
  have hlast := @last_asked host p w r count conf h hmasked hlow hlater htwo
  obtain ⟨hr, hmore, htakes⟩ := hlater
  subst htwo
  obtain ⟨-, -, -, hid, -⟩ := @continued_asks host w p _ r hr hmore
    (takes_found htakes (awaits_expects h (Nat.ne_of_gt hlow))) htakes (h.soFar ▸ hmasked) h.count
  rw [if_neg hdeparts] at hid
  rw [hlast]
  intro hsame
  have hid' : (w.channels p).expectedResponseId = w.nextSignalId.1 := hid.symm.trans hsame
  obtain ⟨q, hq⟩ := @findClient_isSome w
    (fun l2cap => l2cap.expectedResponseCount != 0 && l2cap.expectedResponseId == w.nextSignalId.1) p htakes.tabled
    (by simp [h.count, hid'])
  rw [hfresh] at hq
  cases hq

end Answer

/-! ## Whole exchanges -/

/-- The client is told once, and this, through the function that `cmd_data` holds. -/
def LastReplied (host : L2capHost) (w : L2capLink) (p : Nat) (last : ResponsePart) (reply : ConfigureReply) : Prop :=
  ∃ cb, (last.handle host (w.lastConfigRequest p) w).configureCbs p =
    w.configureCbs p ++ [.configureCb p cb reply true]

/-- Once the next part is not awaited, nothing more comes of the exchange. -/
theorem never_fetched {last : ResponsePart} {reply : ConfigureReply} :
    ∀ {ops : List ConfigExchange} {w : L2capLink}, (w.channels p).expectedResponseId ≠ w.lastConfigRequest p →
      Sys.Admissible (ConfigExchange.step host p) (ConfigExchange.Later p) w ops →
      (w.exchange host p ops).Takes p ((w.exchange host p ops).lastConfigRequest p) →
      ¬ (Sys.Admissible (ConfigExchange.step host p) (ConfigExchange.Fetches host p) w ops ∧
        LastReplied host (w.exchange host p ops) p last reply)
  | [], w, hmiss, _, htakes => by
    rintro ⟨-, cb, hreplied⟩
    have hsame := (@undisturbed_unawaited host w p _ last (takes_missed htakes hmiss)).replies
    rw [show w.exchange host p [] = w from rfl] at hreplied hsame
    rw [hsame] at hreplied
    simp at hreplied
  | .meanwhile v :: ops, w, hmiss, hlater, htakes => by
    rintro ⟨hfetches, hreplied⟩
    have hv : w.Undisturbed v p := hlater.1
    have hmiss' : (v.channels p).expectedResponseId ≠ v.lastConfigRequest p := by
      unfold L2capLink.lastConfigRequest
      rw [hv.id, hv.requests]
      exact hmiss
    exact never_fetched hmiss' hlater.2 htakes ⟨hfetches.2, hreplied⟩
  | .answer r :: ops, w, hmiss, hlater, htakes => by
    rintro ⟨hfetches, -⟩
    obtain ⟨-, id, -, hid⟩ := hfetches.1
    have hsame := (@undisturbed_unawaited host w p _ r (takes_missed hlater.1.2.2 hmiss)).requests
    rw [show (ConfigExchange.answer r).step host p w = r.handle host (w.lastConfigRequest p) w from rfl, hsame] at hid
    simp at hid
  | .answerEarlier id r :: ops, w, _, hlater, _ => hlater.1.elim

/-- **All is fetched from here just when nothing is continued or two packets were sent**, every null request leaves at once
under a fresh id, and the last part has no flag. -/
theorem fetched_later_iff (hh : host.Heeds (Watch.answered p)) {last : ResponsePart} (hlast : last.WellFormed)
    {reply : ConfigureReply} {count : Nat} (hlow : 0 < count) (hhigh : count < 256) :
    ∀ {ops : List ConfigExchange} {w : L2capLink} {conf : ConfigureData}, w.AwaitsParts p count conf → conf.Masked →
      Sys.Admissible (ConfigExchange.step host p) (ConfigExchange.Later p) w ops →
      (w.exchange host p ops).Takes p ((w.exchange host p ops).lastConfigRequest p) →
      (Sys.Admissible (ConfigExchange.step host p) (ConfigExchange.Fetches host p) w ops ∧
          LastReplied host (w.exchange host p ops) p last reply ↔
        (exchangeParts ops = [] ∨ count = 2) ∧
          Sys.Admissible (ConfigExchange.step host p) (ConfigExchange.Asks host p) w ops ∧ last.flags = 0 ∧
          ((exchangeParts ops ++ [last]).foldl ResponsePart.keep conf).reply = reply)
  | [], w, conf, h, hmasked, _, htakes => by
    have htaken : w.Takes p (w.lastConfigRequest p) := htakes
    obtain ⟨cb, hreplied⟩ := last_replied hh h.known hlast (takes_found htaken (awaits_expects h (Nat.ne_of_gt hlow))) htaken
      (h.soFar ▸ hmasked)
    have hparts : exchangeParts [] = [] := rfl
    simp only [LastReplied, hparts, List.nil_append, List.foldl_cons, List.foldl_nil, true_or, true_and, Sys.Admissible]
    rw [show w.exchange host p [] = w from rfl, hreplied, h.soFar]
    by_cases hflags : last.flags = 0
    · simp [hflags]
    · simp [hflags]
  | .meanwhile v :: ops, w, conf, h, hmasked, hlater, htakes => by
    have hv : w.Undisturbed v p := hlater.1
    have hrest := @fetched_later_iff hh last hlast reply count hlow hhigh ops v conf (h.undisturbed hv) hmasked hlater.2
      htakes
    have hfetch : (ConfigExchange.meanwhile v).Fetches host p w := ⟨hv.replies, hv.requests⟩
    have hasks : (ConfigExchange.meanwhile v).Asks host p w := trivial
    have hparts : exchangeParts (.meanwhile v :: ops) = exchangeParts ops := rfl
    simp only [Sys.Admissible, hfetch, hasks, true_and, hparts]
    exact hrest
  | .answer r :: ops, w, conf, h, hmasked, hlater, htakes => by
    have hparts : exchangeParts (.answer r :: ops) = r :: exchangeParts ops := rfl
    have hfetch := @fetches_answer_iff host p w r count conf h hmasked hlow hhigh hlater.1
    simp only [Sys.Admissible, hparts, hfetch, List.cons_ne_nil, false_or, List.cons_append, List.foldl_cons]
    by_cases htwo : count = 2
    · by_cases hfresh : w.FreshId w.nextSignalId.1
      · by_cases hdeparts : NullDeparts host w p
        · have hnext := @awaits_next host p w r count conf h hmasked hlow hlater.1 htwo hdeparts
          subst htwo
          have hrest := @fetched_later_iff hh last hlast reply 2 hlow hhigh ops _ _ hnext
            (ResponsePart.masked_keep hmasked r) hlater.2 htakes
          have hasks : (ConfigExchange.answer r).Asks host p w := ⟨hfresh, hdeparts⟩
          simp only [hfresh, hasks, true_and, or_true] at hrest ⊢
          exact hrest
        · have hmiss := @misses_next host p w r count conf h hmasked hlow hlater.1 htwo hfresh hdeparts
          have hnever := @never_fetched host p last reply _ _ hmiss hlater.2 htakes
          refine iff_of_false (fun hall => hnever ⟨hall.1.2, hall.2⟩) fun hall => hdeparts hall.2.1.1.2
      · exact iff_of_false (fun hall => hfresh hall.1.1.2) fun hall => hfresh hall.2.1.1.1
    · exact iff_of_false (fun hall => htwo hall.1.1.1) fun hall => htwo hall.1
  | .answerEarlier id r :: ops, w, _, _, _, hlater, _ => hlater.1.elim

end Exchanges

/-! ## From the call on -/

/-- The packets that a configuration request goes out in. -/
def requestPackets (remoteMtu : Nat) (params : ConfigureParams) : Nat :=
  (loads optionSize remoteMtu 8 (presentFrom params 0)).length

/-- **`bte_l2cap_configure` sends its request**, and all of it is handed over; when the peer begins to answer, on `v`, the
channel still awaits the response, and has nothing of another one. -/
structure ConfigureSent (host : L2capHost) (w v : L2capLink) (p : Nat) (params : Option ConfigureParams)
    (callback : L2capClientCb) (userdata : Nat) : Prop where
  known : p < w.allocated
  idle : (w.channels p).expectedResponseCount = 0
  sent : (requestRun host w p (params.getD .zero)).1 = true
  told : (requestRun host w p (params.getD .zero)).2.StillAwaits (bteL2capConfigure host w p params callback userdata) p
  since : (bteL2capConfigure host w p params callback userdata).StillAwaits v p
  clear : (v.channels p).configureResp = none

/-- What the loop leaves if it comes to its end. -/
theorem requestLoop_awaits (host : L2capHost) (p : Nat) (params : ConfigureParams) :
    ∀ (fuel startCmd msgId : Nat) (w : L2capLink), w.dev.aclAvailablePackets < fuel → msgId = w.lastSignalId →
      (configRequestLoop host p params fuel startCmd msgId w).1 = true →
      let v := (configRequestLoop host p params fuel startCmd msgId w).2
      v.allocated = w.allocated ∧ (v.channels p).expectedResponseCode = l2capSignalConfigRsp ∧
        (v.channels p).expectedResponseId = v.lastConfigRequest p
  | 0, _, _, _, h, _, _ => absurd h (Nat.not_lt_zero _)
  | fuel + 1, startCmd, msgId, w, hfuel, hid, hok => by
    rw [requestLoop_succ] at hok ⊢
    by_cases hrc : (bteAclSendMessage host.rc w.dev (requestBuffer host w p params startCmd msgId)).1 = 0
    · rw [if_pos hrc] at hok
      cases hok
    · rw [if_neg hrc] at hok ⊢
      by_cases hmore : (l2capConfigWrite params startCmd (w.channels p).remoteMtu).1 > 0
      · rw [if_pos hmore] at hok ⊢
        have huse := sendMessage_uses host.rc w.dev _ hrc
        have hsent : (awaitConfigRsp (requestTurn host w p params startCmd msgId).nextSignalId.2
            p).dev.aclAvailablePackets < w.dev.aclAvailablePackets := huse
        exact requestLoop_awaits host p params fuel _ _
          (awaitConfigRsp (requestTurn host w p params startCmd msgId).nextSignalId.2 p) (by omega) rfl hok
      · rw [if_neg hmore]
        refine ⟨rfl, ?_, ?_⟩
        · simp [awaitConfigRsp, L2capLink.modify]
        · have hlog : (awaitConfigRsp (requestTurn host w p params startCmd msgId) p).lastConfigRequest p = msgId := by
            simp [L2capLink.lastConfigRequest, L2capLink.configRequests, awaitConfigRsp, L2capLink.modify, requestTurn,
              L2capLink.send, L2capLink.record, L2capLink.note, L2event.configRequest]
          rw [hlog, hid]
          simp [awaitConfigRsp, L2capLink.modify]
          rfl

/-- **A request that was sent awaits as many responses as it took packets.** -/
theorem awaits_configure {host : L2capHost} {w v : L2capLink} {p : Nat} {params : Option ConfigureParams}
    {callback : L2capClientCb} {userdata : Nat} (h : ConfigureSent host w v p params callback userdata) :
    v.AwaitsParts p (requestPackets (w.channels p).remoteMtu (params.getD .zero)) .zero := by
  obtain ⟨es, hloop⟩ := requestLoop_done host p (params.getD .zero) (w.dev.aclAvailablePackets + 1) 8 0 w.nextSignalId.1
    w.nextSignalId.2 (Nat.lt_succ_self _) (length_presentFrom _ 0)
  obtain ⟨hlen, hfew⟩ := hloop.length h.sent
  obtain ⟨hallocated, hcode, hlast⟩ := requestLoop_awaits host p (params.getD .zero)
    (w.dev.aclAvailablePackets + 1) 0 w.nextSignalId.1 w.nextSignalId.2 (Nat.lt_succ_self _) rfl h.sent
  have hcount := hloop.count h.sent
  have hidle : (w.nextSignalId.2.channels p).expectedResponseCount = 0 := h.idle
  rw [hidle, Nat.zero_add, Nat.mod_eq_of_lt (by omega), hlen, length_optionMessages] at hcount
  have hstill := h.told.trans h.since
  exact
    { known := lt_of_lt_of_le h.known (hallocated.ge.trans hstill.allocated)
      code := hstill.code.trans hcode
      id := hstill.id_eq hlast
      count := hstill.count.trans hcount
      soFar := by
        unfold L2capLink.answerSoFar
        rw [h.clear]
        rfl }

theorem requestPackets_bounds (remoteMtu : Nat) (params : ConfigureParams) :
    0 < requestPackets remoteMtu params ∧ requestPackets remoteMtu params < 256 := by
  have hfew := length_loads optionSize remoteMtu 8 (presentFrom params 0)
  refine ⟨?_, by unfold requestPackets; omega⟩
  rw [requestPackets, loads, List.length_cons]
  exact Nat.succ_pos _

/-! ## All parts are fetched -/

/-- **A response in parts is fetched to its end**: after every continued part that answers the last request one null request
is sent, with a fresh id, and nothing else is asked; the client is told once, after the last part, what all parts say
together. -/
structure FetchedToEnd (host : L2capHost) (p : Nat) (w : L2capLink) (earlier ops : List ConfigExchange)
    (last : ResponsePart) : Prop where
  asked : Sys.Admissible (ConfigExchange.step host p) (ConfigExchange.Fetches host p) w (earlier ++ ops)
  replied : LastReplied host (w.exchange host p (earlier ++ ops)) p last
    (partsUnion (exchangeParts earlier ++ (exchangeParts ops ++ [last]))).reply

/-- **The peer answers the request in parts**: the earlier packets first, and each part but the last is continued. -/
structure AnsweredInParts (host : L2capHost) (p : Nat) (w : L2capLink) (earlier ops : List ConfigExchange)
    (last : ResponsePart) : Prop where
  before : Sys.Admissible (ConfigExchange.step host p) (ConfigExchange.Earlier p) w earlier
  later : Sys.Admissible (ConfigExchange.step host p) (ConfigExchange.Later p) (w.exchange host p earlier) ops
  wellFormed : last.WellFormed
  final : ¬ last.Continued
  takes : (w.exchange host p (earlier ++ ops)).Takes p ((w.exchange host p (earlier ++ ops)).lastConfigRequest p)

/-- **What lets all of it be fetched**: it is not continued, or the request took exactly two packets; each null request
leaves at once, under an id that no channel of the link awaits; the last part has no flag at all; and nothing of what the
parts say is lost. -/
structure Fetchable (host : L2capHost) (p packets : Nat) (w : L2capLink) (earlier ops : List ConfigExchange)
    (last : ResponsePart) : Prop where
  packets : exchangeParts ops = [] ∨ packets = 2
  asks : Sys.Admissible (ConfigExchange.step host p) (ConfigExchange.Asks host p) (w.exchange host p earlier) ops
  flags : last.flags = 0
  kept : NothingLost (exchangeParts earlier) (exchangeParts ops ++ [last])

/-- While the earlier packets are answered nothing is asked or told, and the last one goes on being awaited. -/
theorem earlier_run {host : L2capHost} {p : Nat} {w : L2capLink} {count : Nat} {conf : ConfigureData}
    (h : w.AwaitsParts p count conf) {earlier : List ConfigExchange}
    (hearlier : Sys.Admissible (ConfigExchange.step host p) (ConfigExchange.Earlier p) w earlier) :
    Sys.Admissible (ConfigExchange.step host p) (ConfigExchange.Fetches host p) w earlier ∧
      (w.exchange host p earlier).AwaitsParts p count conf :=
  ⟨(Sys.admissible_of_inv (fun _ _ (_ : True) hop => ⟨earlier_fetches hop, trivial⟩) earlier w trivial hearlier),
    Sys.inv_run (fun v _ (hv : v.AwaitsParts p count conf) hop => hv.undisturbed (earlier_undisturbed hop)) earlier w h
      hearlier⟩

theorem fetched_iff {host : L2capHost} {p : Nat} (hh : host.Heeds (Watch.answered p)) {w : L2capLink} {packets : Nat}
    (hlow : 0 < packets) (hhigh : packets < 256) (h : w.AwaitsParts p packets .zero) {earlier ops : List ConfigExchange}
    {last : ResponsePart} (hparts : AnsweredInParts host p w earlier ops last) :
    FetchedToEnd host p w earlier ops last ↔ Fetchable host p packets w earlier ops last := by
  obtain ⟨hquiet, hawaits⟩ := earlier_run h hparts.before
  have hsplit : w.exchange host p (earlier ++ ops) = (w.exchange host p earlier).exchange host p ops := Sys.run_append ..
  have htakes := hparts.takes
  rw [hsplit] at htakes
  have hiff := @fetched_later_iff host p hh last hparts.wellFormed
    (partsUnion (exchangeParts earlier ++ (exchangeParts ops ++ [last]))).reply packets hlow hhigh ops _ _ hawaits rfl
    hparts.later htakes
  rw [← partsKept, reply_iff] at hiff
  constructor
  · rintro ⟨hasked, hreplied⟩
    rw [hsplit] at hreplied
    obtain ⟨hpackets, hasks, hflags, hkept⟩ := hiff.1 ⟨((Sys.admissible_append ..).1 hasked).2, hreplied⟩
    exact ⟨hpackets, hasks, hflags, hkept⟩
  · rintro ⟨hpackets, hasks, hflags, hkept⟩
    obtain ⟨hasked, hreplied⟩ := hiff.2 ⟨hpackets, hasks, hflags, hkept⟩
    refine ⟨(Sys.admissible_append ..).2 ⟨hquiet, hasked⟩, ?_⟩
    rw [hsplit]
    exact hreplied

/-- A client that keeps the channels it is given. -/
def keepEvery : L2capClient := fun c _ =>
  match c with
  | .serverConnected _ p => [.ref p]
  | .connect _ (some p) _ _ => [.ref p]
  | _ => []

/-- The endpoint that a channel was connected to. -/
def askingEnd (ops : List L2capOp) : L2capLink :=
  Sys.run (L2capLink.step (plainHost.client keepEvery 1)) (.start (freeDev 8))
    (.received (signallingReader (signal l2capSignalConnReq 1 (leBytes 2 1 ++ leBytes 2 0x40))) :: ops)

/-- It asks for the MTU of 48 and three structures. -/
def asksWide (w : L2capLink) : L2capLink :=
  bteL2capConfigure (plainHost.client keepEvery 1) w 0 (some wideParams) (.client .configure 7) 0

/-- The endpoint that connected it. -/
def answeringEnd (ops : List L2capOp) : L2capLink :=
  Sys.run (L2capLink.step (plainHost.client keepEvery 1)) (.start (freeDev 8))
    (.api (.newOutgoing 1 true 7 0) :: .received (signallingReader (signal l2capSignalConnRsp 1
      (leBytes 2 0x40 ++ leBytes 2 0x40 ++ leBytes 2 0 ++ leBytes 2 0))) :: ops)

/-- It receives the requests that were sent on a link. -/
def receivesRequests (w : L2capLink) : List L2capOp :=
  (w.configRequests 0).map fun request => .received (signallingReader (signal l2capSignalConfigReq request.1 request.2))

def openMtu : ConfigureParams := { ConfigureParams.zero with fieldMask := ConfigOption.mtu.bit, mtu := 672 }

/-- The answer to a packet that another one follows. -/
def emptyPart : ResponsePart := ⟨0x40, l2capConfigFlagContinuation, l2capConfigResOk, [], []⟩

/-- As many options as fit into 48 bytes. -/
def firstPart : ResponsePart :=
  ⟨0x40, l2capConfigFlagContinuation, l2capConfigResOk, [ConfigOption.mtu, .qos, .retxFlow].map (optionItem wideParams), []⟩

def secondPart : ResponsePart := ⟨0x40, 0, l2capConfigResOk, [ConfigOption.extFlow].map (optionItem wideParams), []⟩

theorem wellFormed_accepted {flags : Nat} (hflags : flags < 65536) {os : List ConfigOption}
    (hpresent : ∀ o ∈ os, o.present wideParams) :
    ResponsePart.WellFormed ⟨0x40, flags, l2capConfigResOk, os.map (optionItem wideParams), []⟩ where
  flags := hflags
  result := show l2capConfigResOk < 65536 by decide
  options := fun t ht => by
    obtain ⟨o, ho, rfl⟩ := List.mem_map.1 ht
    exact wellFormed_item (hpresent o ho)

theorem takes_zero {w : L2capLink} {id : Nat} (hlive : 0 < (w.channels 0).refCount)
    (htabled : w.clients ⟨0, by decide⟩ = some 0)
    (hstate : (w.channels 0).state = .waitConfigRsp ∨ (w.channels 0).state = .waitConfigReqRsp)
    (halone : ∀ q ∈ w.findClient (·.expects l2capSignalConfigRsp id), q = 0) : w.Takes 0 id :=
  ⟨hlive, ⟨_, htabled⟩, hstate, halone⟩

/-- The request goes out in two packets. -/
theorem configureSent_twoPackets :
    ConfigureSent (plainHost.client keepEvery 1) (askingEnd []) (asksWide (askingEnd [])) 0 (some wideParams)
        (.client .configure 7)
      0 where
  known := by decide
  idle := by decide
  sent := by decide
  told := ⟨by decide, by decide, by decide, by decide, by decide⟩
  since := ⟨le_rfl, rfl, rfl, rfl, rfl⟩
  clear := by decide

theorem answeredInParts_twoPackets :
    AnsweredInParts (plainHost.client keepEvery 1) 0 (asksWide (askingEnd [])) [.answerEarlier 1 emptyPart]
      [.answer firstPart] secondPart where
  before := ⟨⟨@wellFormed_accepted _ (by decide) [] (by decide), by decide, by decide⟩, trivial⟩
  later := ⟨⟨wellFormed_accepted (by decide) (by decide), by decide,
    takes_zero (by decide) (by decide) (by decide) (by decide)⟩, trivial⟩
  wellFormed := wellFormed_accepted (by decide) (by decide)
  final := by decide
  takes := takes_zero (by decide) (by decide) (by decide) (by decide)

/-- What is left to the endpoint that has received both. -/
def wideLeft : ConfigureData :=
  { ConfigureData.zero with params := wideParams, startCmd := ConfigOption.extFlow.type, hasPendingPackets := true }

/-- The other endpoint has announced an MTU of 672, and the same request goes out in one packet. -/
theorem configureSent_onePacket :
    ConfigureSent (plainHost.client keepEvery 1) (askingEnd [peerConfigures 2 openMtu])
      (asksWide (askingEnd [peerConfigures 2 openMtu])) 0 (some wideParams) (.client .configure 7) 0 where
  known := by decide
  idle := by decide
  sent := by decide
  told := ⟨by decide, by decide, by decide, by decide, by decide⟩
  since := ⟨le_rfl, rfl, rfl, rfl, rfl⟩
  clear := by decide

theorem answeredInParts_onePacket :
    AnsweredInParts (plainHost.client keepEvery 1) 0 (asksWide (askingEnd [peerConfigures 2 openMtu])) []
      [.answer firstPart] secondPart where
  before := trivial
  later := ⟨⟨wellFormed_accepted (by decide) (by decide), by decide,
    takes_zero (by decide) (by decide) (by decide) (by decide)⟩, trivial⟩
  wellFormed := wellFormed_accepted (by decide) (by decide)
  final := by decide
  takes := takes_zero (by decide) (by decide) (by decide) (by decide)

/-- The endpoint that has announced it, had it accepted, and received that packet. -/
def wideAnswer : L2capLink :=
  answeringEnd (.api (.configure 0 (some openMtu) 7 0) :: .received (signallingReader (signal l2capSignalConfigRsp 2
      (leBytes 2 0x40 ++ leBytes 2 0 ++ leBytes 2 l2capConfigResOk ++ (l2capConfigWrite openMtu 0 48).2))) ::
    receivesRequests (asksWide (askingEnd [peerConfigures 2 openMtu])))

end Bte
