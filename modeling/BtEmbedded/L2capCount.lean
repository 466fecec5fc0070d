import BtEmbedded.L2capInvariant
import BtEmbedded.L2capHandshake
/-!
# L2capCount — the count of the responses awaited (l2cap.c)

A channel counts the responses that it awaits, but it knows one code and one id: what it sends before it has its answer
takes their place, so that the answer to the first counts for nothing.  The count of an answer that is refused, as that of
a Command Reject always is, is restored.  As long as a channel asks for one thing at a time and the answers are such as it
takes, the count is 0 again when everything is answered.
-/
namespace Bte

open Bytes L2capLink

/-! ## What the peer owes -/

/-- Whether a response, or a Command Reject, answers a request: the channel, the code of its response and its id. -/
def answersRequest (code id : Nat) (request : Nat × Nat × Nat) : Bool :=
  request.2.2 == id && (request.2.1 == code || code == l2capSignalCmdRej)

def owedStep (owed : List (Nat × Nat × Nat)) : L2note → List (Nat × Nat × Nat)
  | .request p code id _ => owed ++ [(p, code + 1, id)]
  | .response code id _ _ _ => owed.eraseP (answersRequest code id)
  | _ => owed

/-- The requests of a link that the peer has not answered yet. -/
def owed (notes : List L2note) : List (Nat × Nat × Nat) := notes.foldl owedStep []

@[simp] theorem owed_snoc (notes : List L2note) (n : L2note) : owed (notes ++ [n]) = owedStep (owed notes) n := by
  simp [owed]

theorem owed_calm {ns : List L2note} (notes : List L2note) (h : ∀ n ∈ ns, n.Calm) : owed (notes ++ ns) = owed notes := by
  rw [owed, List.foldl_append]
  show ns.foldl owedStep (owed notes) = _
  induction ns generalizing notes with
  | nil => rfl
  | cons n ns ih =>
    have hstep : owedStep (owed notes) n = owed notes := by
      have hn := h n (List.mem_cons_self ..)
      cases n with
      | request p code id table => exact hn.elim
      | response code id reader len table => exact hn.elim
      | _ => rfl
    rw [List.foldl_cons, hstep]
    exact ih notes fun m hm => h m (List.mem_cons_of_mem _ hm)

/-- The peer has answered every request of channel `p`. -/
def Answered (p : Nat) (notes : List L2note) : Prop := ∀ e ∈ owed notes, e.1 ≠ p

/-- A channel asks when it awaits nothing; and a response that a channel awaits is taken by it, and awaited by no other. -/
def AskedAlone (_ : List L2note) : L2note → Prop
  | .request p _ _ table => ∀ e ∈ table, e.1 = p → e.2.expectedResponseCount = 0
  | n => n.Taken

theorem AskedAlone.taken {before : List L2note} {n : L2note} (h : AskedAlone before n) : n.Taken := by
  cases n with
  | request p code id table => trivial
  | _ => exact h

instance decidableAskedAlone (before : List L2note) : ∀ n : L2note, Decidable (AskedAlone before n)
  | .request p _ _ table => inferInstanceAs (Decidable (∀ e ∈ table, e.1 = p → e.2.expectedResponseCount = 0))
  | .response code id reader len table => inferInstanceAs (Decidable (∀ e ∈ table, e.2.expects code id →
      e.2.accepts code reader len ∧ ∀ e' ∈ table, e'.2.expects code id → e'.1 = e.1))
  | .allotted _ _ _ => .isTrue trivial
  | .restored _ _ => .isTrue trivial
  | .closing _ _ => .isTrue trivial
  | .closed _ => .isTrue trivial

/-- **A channel awaits one response at most, and the peer owes it.** -/
def CountInv (l : L2capPart) : Prop :=
  ∀ p, l.Has p → (l.channels p).expectedResponseCount = 0 ∨ (l.channels p).expectedResponseCount = 1 ∧
    (p, (l.channels p).expectedResponseCode, (l.channels p).expectedResponseId) ∈ owed l.notes

theorem CountInv.new : CountInv .new := fun p ⟨i, hi⟩ => by cases hi

theorem CountInv.calm {w w' : L2capLink} (hm : w.Calm w') (h : CountInv w.part) : CountInv w'.part := by
  intro p hp
  by_cases hcount : (w'.channels p).expectedResponseCount = 0
  · exact .inl hcount
  · obtain ⟨hhas, hsame⟩ := hm.awaits p hp hcount
    obtain ⟨ns, hns, hall⟩ := hm.notes
    have hbefore : (w.channels p).expectedResponseCount ≠ 0 := hsame.count ▸ hcount
    obtain ⟨hone, howed⟩ := (h p hhas).resolve_left hbefore
    refine .inr ⟨hsame.count.trans hone, ?_⟩
    show (p, (w'.channels p).expectedResponseCode, (w'.channels p).expectedResponseId) ∈ owed w'.notes
    rw [hns, owed_calm _ hall, hsame.code, hsame.id]
    exact howed

/-- A request is sent, and its response awaited. -/
theorem CountInv.ask {w : L2capLink} {p code id : Nat} (h : CountInv w.part)
    (hok : AskedAlone w.notes (.request p code id w.table)) (body : List UInt8) (dev : AclOut) :
    CountInv (w.ask p code id body dev).part := by
  intro q hq
  have hnotes : (w.ask p code id body dev).notes = w.notes ++ [.request p code id w.table] := rfl
  by_cases hqp : q = p
  · subst hqp
    have hzero : (w.channels q).expectedResponseCount = 0 :=
      hok (q, w.channels q) (mem_table.2 ⟨hq, rfl⟩) rfl
    have hchannel : (w.ask q code id body dev).channels q = (w.channels q).await (code + 1) id := by
      simp [L2capLink.ask, sendRequest, L2capLink.modify, L2capLink.record, note]
    refine .inr ⟨?_, ?_⟩
    · show ((w.ask q code id body dev).channels q).expectedResponseCount = 1
      rw [hchannel, L2cap.await, hzero]
    · show (q, ((w.ask q code id body dev).channels q).expectedResponseCode, _) ∈ owed (w.ask q code id body dev).notes
      rw [hnotes, owed_snoc, owedStep, channels_part, hchannel]
      exact List.mem_append_right _ (List.mem_singleton.2 rfl)
  · have hchannel : (w.ask p code id body dev).channels q = w.channels q := by
      simp [L2capLink.ask, sendRequest, L2capLink.modify, L2capLink.record, note, Function.update_of_ne hqp]
    show ((w.ask p code id body dev).channels q).expectedResponseCount = 0 ∨ _ ∧
      (q, ((w.ask p code id body dev).channels q).expectedResponseCode, _) ∈ owed (w.ask p code id body dev).notes
    rw [hnotes, owed_snoc, owedStep, channels_part, hchannel]
    exact (h q hq).imp (fun hzero => hzero) fun hone => ⟨hone.1, List.mem_append_left _ hone.2⟩

theorem packets_first {w w' : L2capLink} {p id : Nat} (h : Packets p id w w') :
    ∃ ns, w'.notes = w.notes ++ .request p l2capSignalConfigReq id w.table :: ns := by
  cases h with
  | queued body dev => exact ⟨[], rfl⟩
  | last body dev => exact ⟨[], rfl⟩
  | more hs rest =>
    obtain ⟨-, -, -, -, -, -, ns, hns, -⟩ := packets_frame rest
    exact ⟨ns, by rw [hns, hs.notes]; exact List.append_assoc ..⟩

theorem CountInv.packets {w w' : L2capLink} {p id : Nat} (hp : Packets p id w w')
    (hok : Sys.History AskedAlone w'.notes) (h : CountInv w.part) : CountInv w'.part := by
  induction hp with
  | queued id w body dev =>
    intro q hq
    refine (h q hq).imp (fun hzero => hzero) fun hone => ⟨hone.1, ?_⟩
    show _ ∈ owed (w.notes ++ [.request p l2capSignalConfigReq id w.table])
    rw [owed_snoc, owedStep]
    exact List.mem_append_left _ hone.2
  | last id w body dev => exact h.ask hok.last body dev
  | @more id id' w w₁ w' body dev hs rest ih =>
    refine ih hok fun q hq => ?_
    have hq' : w.part.Has q := by
      obtain ⟨i, hi⟩ := hq
      exact ⟨i, (congrFun hs.clients i).symm.trans hi⟩
    by_cases hqp : q = p
    · -- the next packet is a request of the channel, so that nothing is awaited
      subst hqp
      obtain ⟨ns, hns⟩ := packets_first rest
      exact .inl (hok _ _ _ hns (q, w₁.channels q) (mem_table.2 ⟨hq, rfl⟩) rfl)
    · have hsame := hs.channels q
      have hchannel : ((w.sendRequest p l2capSignalConfigReq id body dev).modify p
          (.await l2capSignalConfigRsp id')).channels q = w.channels q := by
        simp [L2capLink.modify, sendRequest, L2capLink.record, note, Function.update_of_ne hqp]
      rw [hchannel] at hsame
      refine (h q hq').imp (fun hzero => hsame.expectedResponseCount.trans hzero) fun hone =>
        ⟨hsame.expectedResponseCount.trans hone.1, ?_⟩
      show (q, (w₁.channels q).expectedResponseCode, (w₁.channels q).expectedResponseId) ∈ owed w₁.notes
      have hnotes : w₁.notes = w.notes ++ [.request p l2capSignalConfigReq id w.table] := hs.notes
      rw [hnotes, owed_snoc, owedStep, hsame.expectedResponseCode, hsame.expectedResponseId]
      exact List.mem_append_left _ hone.2

/-- What the peer owes to a channel that does not expect this response, it still owes. -/
theorem owed_response {w : L2capLink} {p code id : Nat} (hcount : (w.channels p).expectedResponseCount = 1)
    (howed : (p, (w.channels p).expectedResponseCode, (w.channels p).expectedResponseId) ∈ owed w.notes)
    (hno : ¬ (w.channels p).expects code id) (reader : List UInt8) (len : Nat) :
    (p, (w.channels p).expectedResponseCode, (w.channels p).expectedResponseId) ∈
      owed (w.notes ++ [.response code id reader len w.table]) := by
  rw [owed_snoc, owedStep]
  refine (List.mem_eraseP_of_neg fun hanswers => hno ?_).2 howed
  simp only [answersRequest, Bool.and_eq_true, beq_iff_eq, Bool.or_eq_true] at hanswers
  simp only [L2cap.expects, hcount, Bool.and_eq_true, beq_iff_eq, Bool.or_eq_true]
  exact ⟨⟨rfl, hanswers.1.symm⟩, hanswers.2.imp Eq.symm fun hrej => hrej⟩

/-- **A move keeps the count to one response that is owed.** -/
theorem CountInv.move {w w' : L2capLink} (hm : Move w w') (hok : Sys.History AskedAlone w'.notes) (h : CountInv w.part) :
    CountInv w'.part := by
  refine Move.answers (I := CountInv) CountInv.calm (fun w p code id body dev hok h => h.ask hok body dev)
    (fun hp hok h => .packets hp hok h) (fun w code id reader len hnone h => ?_)
    (fun w p code id reader len hsome hok h => ?_) (fun w p hrefused hok h => ?_) hm hok h
  · intro q hq
    refine (h q hq).imp (fun hzero => hzero) fun hone =>
        ⟨hone.1, owed_response hone.1 hone.2 (fun hexpects => ?_) reader len⟩
    obtain ⟨r, hr⟩ := @findClient_isSome w (·.expects code id) q hq hexpects
    rw [hnone] at hr
    cases hr
  · obtain ⟨htabled, hexpects⟩ := findClient_some hsome
    intro q hq
    by_cases hqp : q = p
    · subst hqp
      have hcount : (w.channels q).expectedResponseCount = 1 := by
        have hne : (w.channels q).expectedResponseCount ≠ 0 := by
          simp only [L2cap.expects, Bool.and_eq_true, bne_iff_ne] at hexpects
          exact hexpects.1.1
        exact ((h q hq).resolve_left hne).1
      left
      show (((w.note (.response code id reader len w.table)).modify q countDown).channels q).expectedResponseCount = 0
      simp [L2capLink.modify, note, countDown, hcount]
    · have hchannel : ((w.note (.response code id reader len w.table)).modify p countDown).channels q = w.channels q := by
        simp [L2capLink.modify, note, Function.update_of_ne hqp]
      rw [channels_part, hchannel]
      refine (h q hq).imp (fun hzero => hzero) fun hone =>
          ⟨hone.1, owed_response hone.1 hone.2 (fun hother => hqp ?_) reader len⟩
      have htaken := hok (p, w.channels p) (mem_table.2 ⟨htabled, rfl⟩) hexpects
      exact htaken.2 (q, w.channels q) (mem_table.2 ⟨hq, rfl⟩) hother
  · -- no answer is refused
    obtain ⟨n, hn, hno⟩ := hrefused
    obtain ⟨pre, post, hsplit⟩ := List.append_of_mem (List.mem_append_left [_] hn)
    exact absurd (hok pre n post hsplit).taken hno

/-! ## Every run -/

/-- **The channel takes the calls that ask for something**: no response is in their way. -/
structure TakesCalls (host : L2capHost) (w : L2capLink) (p : Nat) : Prop where
  echo : ∀ data callback userdata,
    (bteL2capEcho host w p data callback userdata).1 = (l2capSendSignal host w p l2capSignalEchoReq data).1
  queryInfo : ∀ type callback userdata,
    (bteL2capQueryInfo host w p type callback userdata).1 = (l2capSendSignal host w p l2capSignalInfoReq (leBytes 2 type)).1
  configure : ∀ params callback userdata, (w.channels p).state.takesConfigure →
    (l2capConfigSend host w p { ConfigureData.zero with params := params.getD .zero } 0).1 →
    ∃ w' : L2capLink, bteL2capConfigure host w p params callback userdata = w'.record (.configureStored p callback)

theorem takesCalls_of_count {w : L2capLink} {p : Nat} (h : (w.channels p).expectedResponseCount = 0) (host : L2capHost) :
    TakesCalls host w p := by
  have hno : ¬ (w.channels p).expectedResponseCount > 0 := by omega
  refine ⟨fun _ _ _ => ?_, fun _ _ _ => ?_, fun _ _ _ hstate hsent => ?_⟩
  · rw [bteL2capEcho, l2capAsk, if_neg hno]
  · rw [bteL2capQueryInfo, l2capAsk, if_neg hno]
  · rw [bteL2capConfigure, if_neg (not_not_intro hstate), if_neg hno]
    simp only
    rw [if_pos hsent]
    exact ⟨_, rfl⟩

/-- **In every run in which the channels of a link ask for one thing at a time, and the answers they await are such as
they take, a channel whose requests are all answered awaits nothing**, and takes the next call. -/
theorem answered_count (hosts : Nat → L2capHost) (clients : L2capClients) (depth : Nat) (dev : AclOut)
    (ops : List ProcessOp) (k p : Nat)
    (h : Sys.History AskedAlone ((processRun hosts clients depth dev ops).link k).notes)
    (hp : ((processRun hosts clients depth dev ops).link k).Has p)
    (hanswered : Answered p ((processRun hosts clients depth dev ops).link k).notes) :
    (((processRun hosts clients depth dev ops).link k).channels p).expectedResponseCount = 0 ∧
      TakesCalls (hosts k) ((processRun hosts clients depth dev ops).focus k) p := by
  have hinv : CountInv ((processRun hosts clients depth dev ops).link k) :=
    part_processRun CountInv.new CountInv.move hosts clients depth dev ops k h
  have hzero := (hinv p hp).resolve_right fun hone => hanswered _ hone.2 rfl
  have hfocus : (((processRun hosts clients depth dev ops).focus k).channels p).expectedResponseCount = 0 := hzero
  exact ⟨hzero, takesCalls_of_count hfocus (hosts k)⟩

/-- A client that keeps the channels it is given, and asks for an echo at once. -/
def echoingClient : L2capClients := fun k c _ =>
  match c with
  | .serverConnected _ p => [(k, .ref p), (k, .echo p [] 7 0)]
  | _ => []

/-- The peer connects, and answers the request. -/
def echoedRun (code : Nat) (body : List UInt8) : L2capLink :=
  processRun (fun _ => plainHost) echoingClient 2 (freeDev 8)
    [.received 0 (signallingReader (signal l2capSignalConnReq 1 (leBytes 2 0x1001 ++ leBytes 2 0x50))),
      .received 0 (signallingReader (signal code 1 body))]

theorem answered_count_echoed : (((echoedRun l2capSignalEchoRsp []).link 0).channels 0).expectedResponseCount = 0 ∧
    TakesCalls plainHost ((echoedRun l2capSignalEchoRsp []).focus 0) 0 :=
  answered_count (fun _ => plainHost) echoingClient 2 (freeDev 8) _ 0 0 (by decide) ⟨0, by decide⟩
    (by unfold Answered; decide)

/-- After a Command Reject the channel still awaits the response. -/
theorem answered_count_rejected : ¬ (Answered 0 ((echoedRun l2capSignalCmdRej [0, 0]).link 0).notes →
    (((echoedRun l2capSignalCmdRej [0, 0]).link 0).channels 0).expectedResponseCount = 0) := by
  have hanswered : Answered 0 ((echoedRun l2capSignalCmdRej [0, 0]).link 0).notes := by
    unfold Answered
    decide
  have hcount : (((echoedRun l2capSignalCmdRej [0, 0]).link 0).channels 0).expectedResponseCount = 1 := by decide
  intro h
  rw [h hanswered] at hcount
  cases hcount

end Bte
