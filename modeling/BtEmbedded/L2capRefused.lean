import BtEmbedded.L2capLost
import BtEmbedded.L2capReceived
/-!
# L2capRefused — a bad Connection Response (l2cap.c)

`l2cap_connect_cb` compares the peer's idea of our channel id with ours only after it has gone on to WAIT_CONFIG, told the
client so, and stored the peer's channel id.  `acl_l2cap_handle_response` puts back the count of the expected responses of a
refused response, and nothing else.
-/
namespace Bte

open Bytes

/-! ## Refused responses -/

/-- `l2cap_connect_cb` refuses the response: it is too short, or not an error and not for this channel. -/
def ConnectRefused (l2cap : L2cap) (reader : List UInt8) (cmdLen : Nat) : Prop :=
  ∀ data, (readSignalHeader reader cmdLen 8).1 = some data →
    word data 2 ≤ connRespResPending ∧ word data 1 ≠ l2cap.localChannelId

/-- It says at most that the connection is pending, and what is known already. -/
def SaysNothing (l2cap : L2cap) (reader : List UInt8) (cmdLen : Nat) : Prop :=
  ∀ data, (readSignalHeader reader cmdLen 8).1 = some data →
    word data 2 = connRespResPending ∧ word data 0 = l2cap.remoteChannelId

/-- A function of the client is called for the channel. -/
def L2event.told (p : Nat) : L2event → Bool
  | .callback q _ => q == p
  | .connectCb q _ _ => q == p
  | _ => false

/-- **Nothing has changed for the channel**, and no function of its client was called. -/
structure AsBefore (p : Nat) (w w' : L2capLink) : Prop where
  state : (w'.channels p).state = (w.channels p).state
  remoteChannelId : (w'.channels p).remoteChannelId = (w.channels p).remoteChannelId
  code : (w'.channels p).expectedResponseCode = (w.channels p).expectedResponseCode
  id : (w'.channels p).expectedResponseId = (w.channels p).expectedResponseId
  count : (w'.channels p).expectedResponseCount = (w.channels p).expectedResponseCount
  refCount : (w'.channels p).refCount = (w.channels p).refCount
  silent : ∃ es, w'.log = w.log ++ es ∧ ∀ e ∈ es, e.told p = false

/-- What was told once stays in the log. -/
theorem not_asBefore_told {w u w' : L2capLink} {p : Nat} {e : L2event} (hu : ∃ es, u.log = w.log ++ es) (he : e.told p)
    (hw' : ∃ es, w'.log = (u.record e).log ++ es) : ¬ AsBefore p w w' := by
  intro h
  obtain ⟨es, hes, hsilent⟩ := h.silent
  obtain ⟨before, hbefore⟩ := hu
  obtain ⟨after, hafter⟩ := hw'
  have hall : w'.log = w.log ++ (before ++ [e] ++ after) := by
    rw [hafter, L2capLink.record, hbefore]
    simp
  have hmem : e ∈ es := by
    rw [List.append_cancel_left (hes.symm.trans hall)]
    simp
  rw [hsilent e hmem] at he
  cases he

/-- A channel whose response is being handled. -/
def L2capLink.tried (w : L2capLink) (p code id : Nat) (reader : List UInt8) (cmdLen : Nat) : L2capLink :=
  (bteL2capRef (w.note (.response code id reader cmdLen w.table)) p).modify p countDown

/-- A refused response is undone. -/
def L2capLink.undone (w : L2capLink) (p : Nat) : L2capLink := bteL2capUnref (w.restore p) p

section Undone
variable {w : L2capLink} {p code id cmdLen : Nat} {reader : List UInt8}

theorem channel_unref (w : L2capLink) (p : Nat) :
    (bteL2capUnref w p).channels p = { w.channels p with refCount := (w.channels p).refCount - 1 } := by
  unfold bteL2capUnref aclL2capRemoveClient
  simp only
  split
  · split <;> simp [L2capLink.modify, L2capLink.record]
  · simp [L2capLink.modify]

theorem channel_undone (w : L2capLink) (p : Nat) :
    (w.undone p).channels p = { countUp (w.channels p) with refCount := (w.channels p).refCount - 1 } := by
  unfold L2capLink.undone
  rw [channel_unref]
  simp [L2capLink.restore, L2capLink.note, L2capLink.modify, countUp]

theorem log_undone (w : L2capLink) (p : Nat) : ∃ es, (w.undone p).log = w.log ++ es ∧ ∀ e ∈ es, e.told p = false := by
  unfold L2capLink.undone bteL2capUnref aclL2capRemoveClient
  simp only
  split
  · split
    · exact ⟨[.aclDisconnect], rfl, by simp [L2event.told]⟩
    · exact ⟨[], (List.append_nil _).symm, by simp⟩
  · exact ⟨[], (List.append_nil _).symm, by simp⟩

theorem channel_tried (w : L2capLink) (p : Nat) : (w.tried p code id reader cmdLen).channels p = { w.channels p with
    refCount := (w.channels p).refCount + 1
    expectedResponseCount := ((w.channels p).expectedResponseCount + 255) % 256 } := by
  simp [L2capLink.tried, bteL2capRef, L2capLink.note, L2capLink.modify, countDown]

/-- **Trying and undoing** leaves a channel as it was, if nothing was done to it meanwhile. -/
theorem asBefore_undone (hcount : (w.channels p).expectedResponseCount < 256)
    (hexpects : (w.channels p).expectedResponseCount ≠ 0) {v : L2capLink}
    (hsame : v.channels p = (w.tried p code id reader cmdLen).channels p) (hlog : v.log = w.log) :
    AsBefore p w (v.undone p) := by
  have hchannel : (v.undone p).channels p = w.channels p := by
    have hback : ((w.channels p).expectedResponseCount + 255) % 256 + 1 = (w.channels p).expectedResponseCount := by omega
    rw [channel_undone, hsame, channel_tried]
    simp only [countUp, hback, Nat.mod_eq_of_lt hcount, Int.add_sub_cancel]
  refine ⟨by rw [hchannel], by rw [hchannel], by rw [hchannel], by rw [hchannel], by rw [hchannel], by rw [hchannel], ?_⟩
  rw [← hlog]
  exact log_undone v p

end Undone

/-! ## What the handler does -/

section Handler
variable {host : L2capHost} {w : L2capLink} {p id cmdLen : Nat} {reader : List UInt8}

/-- What is done with an answer that is not an error, once the state has changed. -/
def answerTaken (host : L2capHost) (w : L2capLink) (p : Nat) (reply : ConnectionResponse) (reader : List UInt8) :
    L2capLink :=
  let r := connectAnswered host (w.modify p fun l2cap => { l2cap with remoteChannelId := reply.remoteChannelId }) p reply
    reader
  if r.ok then bteL2capUnref r.link p else r.link.undone p

/-- **The response comes to the channel that awaits it.** -/
theorem handleResponse_connect (hfind : w.findClient (·.expects l2capSignalConnRsp id) = some p)
    (hstate : (w.channels p).state = .waitConnectRsp) (hrefused : ConnectRefused (w.channels p) reader cmdLen) :
    (aclL2capHandleResponse host w l2capSignalConnRsp id reader cmdLen).link =
      let v := w.tried p l2capSignalConnRsp id reader cmdLen
      match readSignalHeader reader cmdLen 8 with
      | (none, _) => v.undone p
      | (some data, rest) =>
        answerTaken host (if word data 2 = connRespResOk then l2capSetState host v p .waitConfig else v) p
          ⟨word data 0, word data 1, word data 2, word data 3⟩ rest := by
  have hwait : ((w.tried p l2capSignalConnRsp id reader cmdLen).channels p).state = .waitConnectRsp := by
    rw [channel_tried]
    exact hstate
  unfold aclL2capHandleResponse
  simp only [L2capLink.findClient_note, hfind]
  unfold l2capHandleResponse
  simp only [if_true]
  rw [← L2capLink.tried, if_pos hwait]
  unfold l2capConnectCb withSignalHeader
  rcases hread : readSignalHeader reader cmdLen 8 with ⟨_ | data, rest⟩
  · rfl
  · have hresult := (hrefused data (by rw [hread])).1
    simp only
    rw [if_neg (Nat.not_lt.2 hresult)]
    exact apply_ite (bteL2capUnref · p) _ _ _

/-- The end of the callback may do anything, but what is in the log stays there. -/
theorem grows_connectAnswered (hh : host.Heeds (Watch.any p)) (w : L2capLink) (reply : ConnectionResponse)
    (reader : List UInt8) : (Watch.any p).Leads w (connectAnswered host w p reply reader).link := by
  have hfree := Watch.any_free p
  have hunref : ∀ v, (Watch.any p).Leads v (bteL2capUnref v p) :=
    fun v => leads_unref v fun _ => ⟨fun _ _ _ => trivial, trivial⟩
  have hcall : ∀ v c, (Watch.any p).Leads v (v.call host p c) := fun v c => leads_call hh v c fun _ => trivial
  have hrecord : ∀ v e, (Watch.any p).Leads v (L2capLink.record v e) := fun v e => leads_record v fun _ => trivial
  have hconnected : ∀ v cb told userdata,
      (Watch.any p).Leads v (connected host v p cb told (some reply) userdata) := by
    intro v cb told userdata
    cases told with
    | none => exact leads_connected_none hh v cb _ userdata fun _ _ => trivial
    | some q =>
      refine (hrecord v (.connectCb p cb (some reply))).trans ?_
      unfold connected
      cases cb with
      | null => exact .refl _
      | client cmd f => exact hcall _ _
      | newConfiguredConnect =>
        simp only [newConfiguredConnectCb]
        split
        · exact .refl _
        · refine Watch.Leads.trans ?_ (leads_configure hh _ _ rfl _ fun _ => (Watch.any_free p).called)
          exact (leads_ref _ fun _ _ _ _ => trivial).trans (leads_modify _ fun _ => trivial)
      | newConfiguredConfigure => exact .refl _
  unfold connectAnswered
  split
  · exact .refl _
  · simp only
    split
    · exact (hconnected _ _ _ _).trans (hunref _)
    · exact hconnected _ _ _ _

theorem leads_undone (w : L2capLink) (p : Nat) : (Watch.any p).Leads w (w.undone p) := by
  refine Watch.Leads.trans ?_ (leads_unref _ fun _ => ⟨fun _ _ _ => trivial, trivial⟩)
  exact (leads_note w _).trans (leads_modify _ fun _ => trivial)

theorem leads_answerTaken (hh : host.Heeds (Watch.any p)) (w : L2capLink) (reply : ConnectionResponse)
    (reader : List UInt8) : (Watch.any p).Leads w (answerTaken host w p reply reader) := by
  have hmodify : (Watch.any p).Leads w (w.modify p fun l2cap => { l2cap with remoteChannelId := reply.remoteChannelId }) :=
    leads_modify w fun _ => trivial
  refine hmodify.trans ((grows_connectAnswered hh _ reply reader).trans ?_)
  simp only [answerTaken]
  split
  · exact leads_unref _ fun _ => ⟨fun _ _ _ => trivial, trivial⟩
  · exact leads_undone _ p

/-- An answer for another channel. -/
theorem answerTaken_refused (w : L2capLink) {reply : ConnectionResponse}
    (hne : reply.localChannelId ≠ (w.channels p).localChannelId) (reader : List UInt8) :
    answerTaken host w p reply reader =
      (w.modify p fun l2cap => { l2cap with remoteChannelId := reply.remoteChannelId }).undone p := by
  have hother : reply.localChannelId ≠
      ((w.modify p fun l2cap => { l2cap with remoteChannelId := reply.remoteChannelId }).channels p).localChannelId := by
    simpa [L2capLink.modify] using hne
  unfold answerTaken connectAnswered
  rw [if_pos hother]
  rfl

/-- **A positive answer has taken the channel to WAIT_CONFIG** before it is refused. -/
theorem established_not_asBefore (hh : host.Heeds (Watch.any p)) {v : L2capLink} (hp : p < v.allocated)
    (hlog : v.log = w.log)
    (hstate : (v.channels p).state = .waitConnectRsp) (hstate' : (w.channels p).state = .waitConnectRsp)
    {reply : ConnectionResponse} (hne : reply.localChannelId ≠ (v.channels p).localChannelId) (reader : List UInt8) :
    ¬ AsBefore p w (answerTaken host (l2capSetState host v p .waitConfig) p reply reader) := by
  have henter : ∃ es, (v.enter p .waitConfig).log = w.log ++ es := by
    rw [← hlog]
    exact ⟨_, rfl⟩
  -- a call of the client, and all that comes after it
  have htold : ∀ (u : L2capLink) (c : L2capCallback) {u' : L2capLink}, (∃ es, u.log = w.log ++ es) → p < u.allocated →
      (Watch.any p).Leads (u.call host p c) u' → ¬ AsBefore p w (answerTaken host u' p reply reader) := by
    intro u c u' hu hpu hleads
    have hall := ((hh c _).trans (hleads.trans (leads_answerTaken hh u' reply reader))) hpu
    exact @not_asBefore_told w u _ p (.callback p c) hu (by simp [L2event.told]) hall.grows
  have hquiet : ¬ AsBefore p w (answerTaken host (v.enter p .waitConfig) p reply reader) := by
    rw [answerTaken_refused _ (by simpa [L2capLink.enter, L2capLink.modify, L2capLink.record] using hne)]
    intro h
    have hsame := h.state
    rw [channel_undone, hstate'] at hsame
    simp [L2capLink.enter, L2capLink.modify, L2capLink.record, countUp] at hsame
  have hchange : ¬ L2capState.waitConfig = (v.channels p).state := by
    rw [hstate]
    decide
  unfold l2capSetState
  rw [if_neg hchange]
  unfold stateChanged
  split
  · exact hquiet
  · exact htold _ _ henter hp (.refl _)
  · unfold onL2capStateChanged
    rw [if_pos rfl]
    simp only
    refine htold _ _ ?_ ?_ (leads_unref _ fun _ => ⟨fun _ _ _ => trivial, trivial⟩)
    · exact henter
    · exact hp
  · exact hquiet

/-- **A refused Connection Response changes nothing if and only if** it is too short, or says that the connection is
pending and
gives the channel id that is known already. -/
theorem refused_asBefore_iff (host : L2capHost) (client : L2capClient) (depth : Nat) {w : L2capLink} {p : Nat}
    (hp : p < w.allocated) {id cmdLen : Nat} {reader : List UInt8}
    (hfind : w.findClient (·.expects l2capSignalConnRsp id) = some p) (hstate : (w.channels p).state = .waitConnectRsp)
    (hcount : (w.channels p).expectedResponseCount < 256) (hrefused : ConnectRefused (w.channels p) reader cmdLen) :
    AsBefore p w (aclL2capHandleResponse (host.client client depth) w l2capSignalConnRsp id reader cmdLen).link ↔
      SaysNothing (w.channels p) reader cmdLen := by
  have hh := heeds_called (Watch.any_free p).called host client depth
  have hexpects : (w.channels p).expectedResponseCount ≠ 0 := by
    have htest := (findClient_some hfind).2
    simp only [L2cap.expects, Bool.and_eq_true, bne_iff_ne] at htest
    exact htest.1.1
  rw [handleResponse_connect hfind hstate hrefused]
  rcases hread : readSignalHeader reader cmdLen 8 with ⟨_ | data, rest⟩
  · refine iff_of_true (asBefore_undone hcount hexpects rfl rfl) fun data hdata => ?_
    rw [hread] at hdata
    cases hdata
  · obtain ⟨hresult, hne⟩ := hrefused data (by rw [hread])
    have htells : SaysNothing (w.channels p) reader cmdLen ↔
        word data 2 = connRespResPending ∧ word data 0 = (w.channels p).remoteChannelId := by
      unfold SaysNothing
      rw [hread]
      simp
    have hlocal : word data 1 ≠ ((w.tried p l2capSignalConnRsp id reader cmdLen).channels p).localChannelId := by
      rw [channel_tried]
      exact hne
    rw [htells]
    simp only
    by_cases hok : word data 2 = connRespResOk
    · rw [if_pos hok]
      refine iff_of_false (@established_not_asBefore _ w p hh (w.tried p l2capSignalConnRsp id reader cmdLen)
          hp rfl ?_ hstate
        ⟨word data 0, word data 1, word data 2, word data 3⟩ hlocal rest) fun h => ?_
      · rw [channel_tried]
        exact hstate
      · rw [hok] at h
        exact absurd h.1 (by decide)
    · have hpending : word data 2 = connRespResPending := by
        unfold connRespResPending connRespResOk at *
        omega
      rw [if_neg hok, answerTaken_refused _ hlocal, and_iff_right hpending]
      constructor
      · intro h
        have hsame := h.remoteChannelId
        rw [channel_undone] at hsame
        simpa [L2capLink.modify, countUp] using hsame
      · intro hknown
        have hsame : ((w.tried p l2capSignalConnRsp id reader cmdLen).modify p fun l2cap =>
            { l2cap with remoteChannelId := word data 0 }).channels p =
            (w.tried p l2capSignalConnRsp id reader cmdLen).channels p := by
          simp only [L2capLink.modify, Function.update_self, hknown]
          rw [channel_tried]
        exact asBefore_undone hcount hexpects hsame rfl

end Handler

/-! ## A response for another channel -/

/-- Our Connection Request for channel 0x40 is out, under the id 1. -/
def connectingLink : L2capLink :=
  L2capLink.step (plainHost.client silentClient 0) (.start (freeDev 8)) (.api (.newOutgoing 1 true 7 0))

/-- The peer's answer: its own channel id, ours, and the result. -/
def answerReader (remoteChannelId localChannelId result : Nat) : List UInt8 :=
  leBytes 2 remoteChannelId ++ leBytes 2 localChannelId ++ leBytes 2 result ++ leBytes 2 0

/-- **A positive response for the channel 0x41 is refused, and the channel 0x40 has left WAIT_CONNECT_RSP.** -/
theorem refused_not_asBefore :
    ConnectRefused (connectingLink.channels 0) (answerReader 0x50 0x41 connRespResOk) 8 ∧
      ¬ AsBefore 0 connectingLink (aclL2capHandleResponse (plainHost.client silentClient 0) connectingLink
        l2capSignalConnRsp 1 (answerReader 0x50 0x41 connRespResOk) 8).link := by
  refine ⟨fun data hdata => ?_, fun h => ?_⟩
  · cases hdata
    decide
  · have hstate := h.state
    revert hstate
    decide

/-- A response that is cut short changes nothing. -/
theorem refused_asBefore_iff_short :
    AsBefore 0 connectingLink (aclL2capHandleResponse (plainHost.client silentClient 0) connectingLink
      l2capSignalConnRsp 1 [0x50, 0x00] 2).link := by
  have hshort : ∀ data, (readSignalHeader [0x50, 0x00] 2 8).1 ≠ some data := fun _ hdata => by cases hdata
  exact (refused_asBefore_iff plainHost silentClient 0 (by decide) (by decide) (by decide) (by decide)
    fun data hdata => absurd hdata (hshort data)).2 fun data hdata => absurd hdata (hshort data)

end Bte
