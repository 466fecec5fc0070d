import BtEmbedded.L2capInvariant
import BtEmbedded.L2capHandshake
/-!
# L2capReplies — to whom a response goes (l2cap.c)

The signal ids come from one 8-bit counter, and a request may stay unanswered while it comes round: then two channels of a
link await responses with the same id, and the one that is first in the table gets them all.  As long as a request is sent
under an id that no other channel of the link awaits, a response reaches the channel that asked.
-/
namespace Bte

open Bytes L2capLink

/-! ## Who asked -/

def senderStep (id : Nat) (last : Option Nat) : L2note → Option Nat
  | .request p _ id' _ => if id' = id then some p else last
  | _ => last

/-- The channel that sent the last request with an id. -/
def lastSender (id : Nat) (notes : List L2note) : Option Nat := notes.foldl (senderStep id) none

@[simp] theorem lastSender_snoc (id : Nat) (notes : List L2note) (n : L2note) :
    lastSender id (notes ++ [n]) = senderStep id (lastSender id notes) n := by
  simp [lastSender]

theorem lastSender_calm (id : Nat) {ns : List L2note} (notes : List L2note) (h : ∀ n ∈ ns, n.Calm) :
    lastSender id (notes ++ ns) = lastSender id notes := by
  rw [lastSender, List.foldl_append]
  show ns.foldl (senderStep id) (lastSender id notes) = _
  induction ns generalizing notes with
  | nil => rfl
  | cons n ns ih =>
    have hstep : senderStep id (lastSender id notes) n = lastSender id notes := by
      have hn := h n (List.mem_cons_self ..)
      cases n with
      | request p code id' table => exact hn.elim
      | _ => rfl
    rw [List.foldl_cons, hstep]
    exact ih notes fun m hm => h m (List.mem_cons_of_mem _ hm)

/-- A request is sent under an id that no other channel of the link awaits; and an answer is refused only if no other
channel has used its id meanwhile. -/
def AskedFree (before : List L2note) : L2note → Prop
  | .request p _ id table => ∀ e ∈ table, e.2.expectedResponseCount ≠ 0 → e.2.expectedResponseId = id → e.1 = p
  | .restored p id => lastSender id before = some p
  | _ => True

instance decidableAskedFree (before : List L2note) : ∀ n : L2note, Decidable (AskedFree before n)
  | .request p _ id table => inferInstanceAs (Decidable (∀ e ∈ table, e.2.expectedResponseCount ≠ 0 →
      e.2.expectedResponseId = id → e.1 = p))
  | .restored p id => inferInstanceAs (Decidable (lastSender id before = some p))
  | .allotted _ _ _ => .isTrue trivial
  | .response _ _ _ _ _ => .isTrue trivial
  | .closing _ _ => .isTrue trivial
  | .closed _ => .isTrue trivial

/-- **No two channels of the link await the same response.** -/
def AwaitsUnique (l : L2capPart) : Prop :=
  ∀ p q, l.Has p → l.Has q → (l.channels p).expectedResponseCount ≠ 0 → (l.channels q).expectedResponseCount ≠ 0 →
    (l.channels p).expectedResponseCode = (l.channels q).expectedResponseCode →
    (l.channels p).expectedResponseId = (l.channels q).expectedResponseId → p = q

/-- **The channel that a response goes to sent the last request with its id**, and it gets the response that it awaits, or
a Command Reject in its place. -/
def RepliesReach (w : L2capLink) : Prop :=
  (∀ code id p, w.findClient (·.expects code id) = some p → lastSender id w.notes = some p) ∧
  ∀ p, w.Tabled p → (w.channels p).expectedResponseCount ≠ 0 → ∀ code,
    code = (w.channels p).expectedResponseCode ∨ code = l2capSignalCmdRej →
      w.findClient (·.expects code (w.channels p).expectedResponseId) = some p

/-- **Each channel that awaits a response sent the last request with its id.** -/
def SenderInv (l : L2capPart) : Prop :=
  ∀ p, l.Has p → (l.channels p).expectedResponseCount ≠ 0 → lastSender (l.channels p).expectedResponseId l.notes = some p

theorem SenderInv.new : SenderInv .new := fun p ⟨i, hi⟩ => by cases hi

theorem SenderInv.calm {w w' : L2capLink} (hm : w.Calm w') (h : SenderInv w.part) : SenderInv w'.part := by
  intro p hp hcount
  obtain ⟨hhas, hsame⟩ := hm.awaits p hp hcount
  obtain ⟨ns, hns, hall⟩ := hm.notes
  show lastSender (w'.channels p).expectedResponseId w'.notes = some p
  rw [hns, lastSender_calm _ _ hall, hsame.id]
  exact h p hhas (hsame.count ▸ hcount)

/-- The same, but that one channel is about to send with the id that it already awaits. -/
def SenderBut (p id : Nat) (l : L2capPart) : Prop :=
  ∀ q, l.Has q → (l.channels q).expectedResponseCount ≠ 0 →
    lastSender (l.channels q).expectedResponseId l.notes = some q ∨ q = p ∧ (l.channels q).expectedResponseId = id

/-- What a request does to the others, and to the sender if it already awaited its id. -/
theorem lastSender_request {w : L2capLink} {p code id : Nat} (h : SenderBut p id w.part)
    (hok : AskedFree w.notes (.request p code id w.table)) {q : Nat} (hq : w.part.Has q)
    (hcount : (w.channels q).expectedResponseCount ≠ 0) :
    lastSender (w.channels q).expectedResponseId (w.notes ++ [.request p code id w.table]) = some q := by
  rw [lastSender_snoc]
  by_cases hid : (w.channels q).expectedResponseId = id
  · have hqp : q = p := hok (q, w.channels q) (mem_table.2 ⟨hq, rfl⟩) hcount hid
    rw [senderStep, if_pos hid.symm, hqp]
  · rw [senderStep, if_neg fun heq => hid heq.symm]
    exact (h q hq hcount).resolve_right fun hp => hid hp.2

/-- A request was sent, and its sender awaits some id. -/
theorem SenderBut.request {w : L2capLink} {p code id : Nat} (h : SenderBut p id w.part)
    (hok : AskedFree w.notes (.request p code id w.table)) (body : List UInt8) (dev : AclOut) (code' id' : Nat) :
    SenderBut p id' ((w.sendRequest p code id body dev).modify p (.await code' id')).part := by
  intro q hq hcount
  by_cases hqp : q = p
  · subst hqp
    refine .inr ⟨rfl, ?_⟩
    show (((w.sendRequest q code id body dev).modify q (.await code' id')).channels q).expectedResponseId = id'
    simp [L2capLink.modify, L2cap.await]
  · have hchannel : ((w.sendRequest p code id body dev).modify p (.await code' id')).channels q = w.channels q := by
      simp [L2capLink.modify, sendRequest, L2capLink.record, note, Function.update_of_ne hqp]
    have hcount' : (w.channels q).expectedResponseCount ≠ 0 := by rwa [← hchannel]
    refine .inl ?_
    show lastSender (((w.sendRequest p code id body dev).modify p (.await code' id')).channels q).expectedResponseId _ = _
    rw [hchannel]
    exact lastSender_request h hok hq hcount'

theorem SenderInv.ask {w : L2capLink} {p code id : Nat} (h : SenderBut p id w.part)
    (hok : AskedFree w.notes (.request p code id w.table)) (body : List UInt8) (dev : AclOut) :
    SenderInv (w.ask p code id body dev).part := by
  intro q hq hcount
  refine (h.request hok body dev (code + 1) id q hq hcount).elim (fun hlast => hlast) fun hp => ?_
  have hid : ((w.ask p code id body dev).channels q).expectedResponseId = id := hp.2
  show lastSender ((w.ask p code id body dev).channels q).expectedResponseId (w.notes ++ [.request p code id w.table]) = _
  rw [hid, lastSender_snoc, senderStep, if_pos rfl, hp.1]

theorem SenderInv.packets {w w' : L2capLink} {p id : Nat} (hp : Packets p id w w')
    (hok : Sys.History AskedFree w'.notes) (h : SenderBut p id w.part) : SenderInv w'.part := by
  induction hp with
  | queued id w body dev => exact fun q hq hcount => lastSender_request h hok.last hq hcount
  | last id w body dev => exact .ask h hok.last body dev
  | @more id id' w w₁ w' body dev hs rest ih =>
    refine ih hok ?_
    have hfirst : AskedFree w.notes (.request p l2capSignalConfigReq id w.table) := by
      obtain ⟨ns, hns⟩ : ∃ ns, w'.notes = w₁.notes ++ ns := by
        obtain ⟨-, -, -, -, -, -, ns, hns, -⟩ := packets_frame rest
        exact ⟨ns, hns⟩
      rw [hns, hs.notes] at hok
      exact hok.left.last
    have hsent := h.request hfirst body dev l2capSignalConfigRsp id'
    intro q hq hcount
    have hsame := hs.channels q
    have hq' : ((w.sendRequest p l2capSignalConfigReq id body dev).modify p
        (.await l2capSignalConfigRsp id')).part.Has q := by
      obtain ⟨i, hi⟩ := hq
      exact ⟨i, (congrFun hs.clients i).symm.trans hi⟩
    have hheld := hsent q hq' (hsame.expectedResponseCount ▸ hcount)
    have hid : (w₁.channels q).expectedResponseId = _ := hsame.expectedResponseId
    refine hheld.imp (fun hlast => ?_) fun hp => ⟨hp.1, hid.trans hp.2⟩
    show lastSender (w₁.channels q).expectedResponseId w₁.notes = some q
    rw [hid, hs.notes]
    exact hlast

/-- **A move keeps it so that who awaits an id used it last.** -/
theorem SenderInv.move {w w' : L2capLink} (hm : Move w w') (hok : Sys.History AskedFree w'.notes) (h : SenderInv w.part) :
    SenderInv w'.part := by
  refine Move.answers (I := SenderInv) SenderInv.calm (fun w p code id body dev hok h => ?_)
    (fun hp hok h => .packets hp hok fun q hq hcount => .inl (h q hq hcount)) (fun w code id reader len _ h => ?_)
    (fun w p code id reader len hsome _ h => ?_) (fun w p _ hok h => ?_) hm hok h
  · exact .ask (fun q hq hcount => .inl (h q hq hcount)) hok body dev
  · intro q hq hcount
    show lastSender (w.channels q).expectedResponseId (w.notes ++ [.response code id reader len w.table]) = some q
    rw [lastSender_snoc]
    exact h q hq hcount
  · obtain ⟨-, hexpects⟩ := findClient_some hsome
    intro q hq hcount
    show lastSender (((w.note (.response code id reader len w.table)).modify p countDown).channels q).expectedResponseId
      (w.notes ++ [.response code id reader len w.table]) = some q
    rw [lastSender_snoc]
    show lastSender _ w.notes = some q
    by_cases hqp : q = p
    · subst hqp
      have hbefore : (w.channels q).expectedResponseCount ≠ 0 := by
        simp only [L2cap.expects, Bool.and_eq_true, bne_iff_ne] at hexpects
        exact hexpects.1.1
      simpa [L2capLink.modify, note, countDown] using h q hq hbefore
    · simp only [L2capLink.modify, note, Function.update_of_ne hqp]
      refine h q hq ?_
      have hcount' : (((w.note (.response code id reader len w.table)).modify p countDown).channels
          q).expectedResponseCount ≠
        0 := hcount
      simpa [L2capLink.modify, note, Function.update_of_ne hqp] using hcount'
  · have hlast : lastSender (w.channels p).expectedResponseId w.notes = some p := hok.last
    intro q hq hcount
    show lastSender ((w.restore p).channels q).expectedResponseId (w.notes ++
        [.restored p (w.channels p).expectedResponseId]) =
      some q
    rw [lastSender_snoc]
    show lastSender _ w.notes = some q
    by_cases hqp : q = p
    · subst hqp
      simpa [L2capLink.restore, L2capLink.modify, note, countUp] using hlast
    · simp only [L2capLink.restore, L2capLink.modify, note, Function.update_of_ne hqp]
      refine h q hq ?_
      have hcount' : ((w.restore p).channels q).expectedResponseCount ≠ 0 := hcount
      simpa [L2capLink.restore, L2capLink.modify, note, Function.update_of_ne hqp] using hcount'

theorem SenderInv.unique {l : L2capPart} (h : SenderInv l) : AwaitsUnique l := by
  intro p q hp hq hcp hcq _ heq
  have hsent := h p hp hcp
  rw [heq, h q hq hcq] at hsent
  exact (Option.some.inj hsent).symm

theorem SenderInv.reach {w : L2capLink} (h : SenderInv w.part) : RepliesReach w := by
  have hfound : ∀ code id p, w.findClient (·.expects code id) = some p → lastSender id w.notes = some p := by
    intro code id p hp
    obtain ⟨htabled, hexpects⟩ := findClient_some hp
    simp only [L2cap.expects, Bool.and_eq_true, bne_iff_ne, beq_iff_eq] at hexpects
    rw [hexpects.1.2]
    exact h p htabled hexpects.1.1
  refine ⟨hfound, fun p hp hcount code hcode => ?_⟩
  have hexpects : (w.channels p).expects code (w.channels p).expectedResponseId = true := by
    simp only [L2cap.expects, Bool.and_eq_true, bne_iff_ne, beq_iff_eq, Bool.or_eq_true]
    exact ⟨⟨hcount, trivial⟩, hcode⟩
  obtain ⟨q, hq⟩ := @findClient_isSome w (·.expects code (w.channels p).expectedResponseId) p hp hexpects
  have hsent := hfound _ _ q hq
  have hown : lastSender (w.channels p).expectedResponseId w.notes = some p := h p hp hcount
  rw [hown] at hsent
  rw [hq, Option.some.inj hsent]

/-- **In every run in which each request is sent under a free id, no two channels of a link await a response with the same
id, and a response or a Command Reject reaches the channel that asked.** -/
theorem replies_reach (hosts : Nat → L2capHost) (clients : L2capClients) (depth : Nat) (dev : AclOut)
    (ops : List ProcessOp) (k : Nat)
    (h : Sys.History AskedFree ((processRun hosts clients depth dev ops).link k).notes) :
    AwaitsUnique ((processRun hosts clients depth dev ops).link k) ∧
      RepliesReach ((processRun hosts clients depth dev ops).focus k) := by
  have hinv : SenderInv ((processRun hosts clients depth dev ops).link k) :=
    part_processRun SenderInv.new SenderInv.move hosts clients depth dev ops k h
  have hfocus : SenderInv ((processRun hosts clients depth dev ops).focus k).part := hinv
  exact ⟨hinv.unique, hfocus.reach⟩

/-- A client that keeps the channels it is given. -/
def keepingClient : L2capClients := fun k c _ =>
  match c with
  | .serverConnected _ p => [(k, .ref p)]
  | _ => []

/-- The peer connects two channels, and the client disconnects the first; the peer does not answer, and the client goes on
to disconnect the second again and again. -/
def disconnectingRun (again : Nat) : L2capLink :=
  processRun (fun _ => plainHost) keepingClient 1 (freeDev 0)
    (.received 0 (signallingReader (signal l2capSignalConnReq 1 (leBytes 2 0x1001 ++ leBytes 2 0x50))) ::
      .received 0 (signallingReader (signal l2capSignalConnReq 2 (leBytes 2 0x1001 ++ leBytes 2 0x51))) ::
      .api 0 (.disconnect 0) :: List.replicate again (.api 0 (.disconnect 1)))

theorem replies_reach_disconnecting :
    AwaitsUnique ((disconnectingRun 2).link 0) ∧ RepliesReach ((disconnectingRun 2).focus 0) :=
  replies_reach (fun _ => plainHost) keepingClient 1 (freeDev 0) _ 0 (by decide)

/-! ## The id comes round -/

/-- A channel that waits for its disconnection sends another request, under the next id. -/
theorem disconnect_again {host : L2capHost} (hmade : ∀ id, (aclL2capCreateCmd host l2capSignalDisconnReq id 4).isSome)
    {w w' : L2capLink} {p : Nat} (hw' : bteL2capDisconnect host w p = w') (h : (w.channels p).state = .waitDisconnect) :
    w'.channels = Function.update w.channels p { w.channels p with
        expectedResponseCode := l2capSignalDisconnReq + 1
        expectedResponseId := w.nextSignalId.1
        expectedResponseCount := ((w.channels p).expectedResponseCount + 1) % 256 } ∧
      w'.lastSignalId = w.nextSignalId.1 ∧ w'.clients = w.clients ∧ w'.here = w.here := by
  have hnumber : (w.channels p).state.number ≥ L2capState.waitConfig.number := by
    rw [h]
    decide
  obtain ⟨writer, hwriter⟩ := Option.isSome_iff_exists.1 (hmade w.nextSignalId.1)
  have hpackets : cmdPackets host l2capSignalDisconnReq w.nextSignalId.1
      (leBytes 2 (w.channels p).remoteChannelId ++ leBytes 2 (w.channels p).localChannelId) ≠ none := by
    simp [cmdPackets, hwriter]
  obtain ⟨packets, hpackets⟩ := Option.ne_none_iff_exists'.1 hpackets
  have hstate : ∀ v : L2capLink, (v.channels p).state = .waitDisconnect → l2capSetState host v p .waitDisconnect = v :=
    fun v hv => if_pos hv.symm
  unfold bteL2capDisconnect l2capSendDisconnectReq l2capSendSignal l2capSignal at hw'
  simp only [if_pos hnumber, hpackets, Option.isSome_some, if_true, Option.map_some, Option.any_some,
    Option.elim_some] at hw'
  rw [hstate, ite_self] at hw'
  · subst hw'
    exact ⟨rfl, rfl, rfl, rfl⟩
  · simpa [L2capLink.send, record, L2capLink.modify, note, nextSignalId] using h

/-- The second channel has been asked about `n` times since the first, under the ids that follow. -/
structure AskedSince (w₀ : L2capLink) (n : Nat) (w : L2capLink) : Prop where
  here : w.here = 0
  clients : w.clients = w₀.clients
  first : w.channels 0 = w₀.channels 0
  state : (w.channels 1).state = .waitDisconnect
  code : (w.channels 1).expectedResponseCode = l2capSignalDisconnReq + 1
  count : (w.channels 1).expectedResponseCount = n % 256
  id : (w.channels 1).expectedResponseId = n % 255 + 1
  last : w.lastSignalId = n % 255 + 1

theorem disconnReq_made (id : Nat) :
    (aclL2capCreateCmd (keepingClient.hosts (fun _ => plainHost) 1 0) l2capSignalDisconnReq id 4).isSome := by
  rw [aclL2capCreateCmd, Option.isSome_map]
  decide

theorem AskedSince.step {w₀ w : L2capLink} {n : Nat} (h : AskedSince w₀ n w) :
    AskedSince w₀ (n + 1) (w.processStep (keepingClient.hosts (fun _ => plainHost) 1) (.api 0 (.disconnect 1))) := by
  have hfocus : ∀ v : L2capLink, v.here = 0 → (v.focus 0).channels = v.channels ∧ (v.focus 0).clients = v.clients := by
    intro v hv
    rw [← hv]
    simp [focus, part]
  obtain ⟨hbefore, hbefore'⟩ := hfocus w h.here
  obtain ⟨hchannels, hlast, hclients, hhere⟩ :=
    disconnect_again disconnReq_made rfl (w := w.focus 0) (p := 1) (by rw [hbefore]; exact h.state)
  obtain ⟨hafter, hafter'⟩ := hfocus _ hhere
  have hnext : (w.focus 0).nextSignalId.1 = (n + 1) % 255 + 1 := by
    show ((if w.lastSignalId = 0xff then 0 else w.lastSignalId) + 1) % 256 = _
    rw [h.last]
    split <;> omega
  have hstep : w.processStep (keepingClient.hosts (fun _ => plainHost) 1) (.api 0 (.disconnect 1)) =
      (bteL2capDisconnect (keepingClient.hosts (fun _ => plainHost) 1 0) (w.focus 0) 1).focus 0 := by
    show (bteL2capDisconnect _ (w.focus 0) 1).focus w.here = _
    rw [h.here]
  rw [hbefore] at hchannels
  rw [hstep]
  have hfirst := congrFun hchannels 0
  have hsecond := congrFun hchannels 1
  rw [Function.update_of_ne (by decide)] at hfirst
  rw [Function.update_self] at hsecond
  refine ⟨rfl, hafter'.trans (hclients.trans (hbefore'.trans h.clients)), ?_, ?_, ?_, ?_, ?_, hlast.trans hnext⟩ <;>
    rw [hafter]
  · exact hfirst.trans h.first
  · rw [hsecond]
    exact h.state
  · rw [hsecond]
  · rw [hsecond]
    show ((w.channels 1).expectedResponseCount + 1) % 256 = _
    rw [h.count]
    omega
  · rw [hsecond]
    exact hnext

theorem askedSince_disconnectingRun : ∀ n, AskedSince (disconnectingRun 1) (n + 1) (disconnectingRun (n + 1))
  | 0 => ⟨by decide, rfl, rfl, by decide, by decide, by decide, by decide,
      by decide⟩
  | n + 1 => by
    have hrun : disconnectingRun (n + 1 + 1) =
        (disconnectingRun (n + 1)).processStep (keepingClient.hosts (fun _ => plainHost) 1) (.api 0 (.disconnect 1)) := by
      rw [disconnectingRun, List.replicate_succ']
      exact Sys.run_append _ _ (_ :: _ :: _ :: List.replicate (n + 1) _) _
    rw [hrun]
    exact (askedSince_disconnectingRun n).step

theorem AskedSince.not_unique {w : L2capLink} (h : AskedSince (disconnectingRun 1) 255 w) : ¬ AwaitsUnique (w.link 0) := by
  have hlink : w.link 0 = w.part := if_pos h.here.symm
  have hclients : (disconnectingRun 1).clients 0 = some 0 ∧ (disconnectingRun 1).clients 1 = some 1 := by decide
  have hfirst : ((disconnectingRun 1).channels 0).expectedResponseCount = 1 ∧
      ((disconnectingRun 1).channels 0).expectedResponseCode = l2capSignalDisconnReq + 1 ∧
      ((disconnectingRun 1).channels 0).expectedResponseId = 1 := by decide
  rw [← h.clients] at hclients
  rw [← h.first] at hfirst
  obtain ⟨hcount, hcode, hid⟩ := hfirst
  have hcounts : (w.channels 0).expectedResponseCount ≠ 0 ∧ (w.channels 1).expectedResponseCount ≠ 0 := by
    rw [hcount, h.count]
    decide
  rw [hlink]
  intro hunique
  have hsame := hunique 0 1 ⟨0, hclients.1⟩ ⟨1, hclients.2⟩ hcounts.1 hcounts.2 (hcode.trans h.code.symm)
    (hid.trans h.id.symm)
  exact absurd hsame (by decide)

/-- After 255 requests the id of the first comes round, while the first is still awaited. -/
theorem awaitsUnique_not_disconnecting : ¬ AwaitsUnique ((disconnectingRun 255).link 0) :=
  (askedSince_disconnectingRun 254).not_unique

end Bte
