import BtEmbedded.AclSent
import BtEmbedded.L2capLost
import BtEmbedded.L2capSending
/-!
# L2capAtomic — a configuration request that is not sent (l2cap.c)

`bte_l2cap_configure` takes the number that `bte_acl_send_message` returns for a truth value: a packet that was refused
counts as sent, and one that waits for credit as refused.  The state goes on in either case, since `l2cap_config_send`
changes it whatever came of the packets.
-/
namespace Bte

open Bytes Fill

/-! ## Messages one after the other -/

/-- What `bte_acl_send_message` returns for some messages in turn. -/
def sendReturns (rc : Nat → Int) : AclOut → List (List Packet) → List Int
  | _, [] => []
  | dev, buffer :: buffers =>
    (bteAclSendMessage rc dev buffer).1 :: sendReturns rc (bteAclSendMessage rc dev buffer).2 buffers

/-- There is credit for all the packets and for those queued before them, and the backend refuses none. -/
def LeaveAtOnce (rc : Nat → Int) (dev : AclOut) (buffers : List (List Packet)) : Prop :=
  (∀ buffer ∈ buffers, buffer ≠ []) ∧
    dev.outgoingAclPackets.length + buffers.flatten.length ≤ dev.aclAvailablePackets ∧
    ∀ i < dev.outgoingAclPackets.length + buffers.flatten.length, 0 ≤ rc (dev.calls + i)

instance (rc : Nat → Int) (dev : AclOut) (buffers : List (List Packet)) : Decidable (LeaveAtOnce rc dev buffers) :=
  inferInstanceAs (Decidable (_ ∧ _ ∧ _))

section Returns
variable (rc : Nat → Int) (dev : AclOut) (buffer : List Packet)

theorem sendMessage_pos_iff : 0 < (bteAclSendMessage rc dev buffer).1 ↔ LeaveAtOnce rc dev [buffer] := by
  have hflat : [buffer].flatten.length = buffer.length := by simp
  have hbuffer : buffer ≠ [] ↔ 0 < buffer.length := List.length_pos_iff.symm
  unfold LeaveAtOnce
  rw [List.forall_mem_singleton, hflat, hbuffer]
  by_cases hrc : ∀ i < min dev.aclAvailablePackets (dev.outgoingAclPackets.length + buffer.length), 0 ≤ rc (dev.calls + i)
  · rw [sendMessage_accepted hrc]
    constructor
    · intro hpos
      split_ifs at hpos with hall
      · exact ⟨hall.2, hall.1, fun i hi => hrc i (by omega)⟩
      · exact absurd hpos (lt_irrefl 0)
    · rintro ⟨hsome, hcredit, -⟩
      rw [if_pos ⟨hcredit, hsome⟩]
      exact Int.one_pos
  · refine iff_of_false ?_ fun ⟨_, hcredit, hall⟩ => hrc fun i hi => hall i (by omega)
    push Not at hrc
    obtain ⟨i, hi, hneg⟩ := hrc
    have hresult : (bteAclSendMessage rc dev buffer).1 < 0 := by
      rw [sendMessage_neg_iff, refused_handed_iff, length_enqueue]
      exact ⟨i, hi, hneg⟩
    omega

/-- What a message leaves that went out at once. -/
theorem sendMessage_left (hcredit : dev.outgoingAclPackets.length + buffer.length ≤ dev.aclAvailablePackets) :
    (bteAclSendMessage rc dev buffer).2.outgoingAclPackets = [] ∧
      (bteAclSendMessage rc dev buffer).2.aclAvailablePackets + (dev.outgoingAclPackets.length + buffer.length) =
        dev.aclAvailablePackets ∧
      (bteAclSendMessage rc dev buffer).2.calls = dev.calls + (dev.outgoingAclPackets.length + buffer.length) := by
  have havailable : (dev.enqueue buffer).aclAvailablePackets = dev.aclAvailablePackets := rfl
  have hhanded : ((dev.enqueue buffer).handed rc).length = dev.outgoingAclPackets.length + buffer.length := by
    rw [length_handed, length_enqueue, havailable]
    omega
  have hleft := length_sent rc (dev.enqueue buffer)
  have hspent := available_sent rc (dev.enqueue buffer)
  rw [hhanded, length_enqueue, Nat.sub_self] at hleft
  rw [hhanded, havailable] at hspent
  rw [sendMessage_state]
  refine ⟨List.length_eq_zero_iff.1 hleft, hspent, ?_⟩
  rw [← hhanded]
  rfl

theorem leaveAtOnce_cons (buffers : List (List Packet)) :
    LeaveAtOnce rc dev (buffer :: buffers) ↔
      LeaveAtOnce rc dev [buffer] ∧ LeaveAtOnce rc (bteAclSendMessage rc dev buffer).2 buffers := by
  have hflat : (buffer :: buffers).flatten.length = buffer.length + buffers.flatten.length := by simp
  have hflat' : [buffer].flatten.length = buffer.length := by simp
  unfold LeaveAtOnce
  rw [List.forall_mem_cons, List.forall_mem_singleton, hflat, hflat']
  constructor
  · rintro ⟨⟨hbuffer, hbuffers⟩, hcredit, hrc⟩
    obtain ⟨hqueue, havailable, hcalls⟩ := sendMessage_left rc dev buffer (by omega)
    refine ⟨⟨hbuffer, by omega, fun i hi => hrc i (by omega)⟩, hbuffers, ?_, fun i hi => ?_⟩
    · rw [hqueue, List.length_nil]
      omega
    · rw [hqueue, List.length_nil] at hi
      rw [hcalls, Nat.add_assoc]
      exact hrc _ (by omega)
  · rintro ⟨⟨hbuffer, hcredit, hrc⟩, hbuffers, hcredit', hrc'⟩
    obtain ⟨hqueue, havailable, hcalls⟩ := sendMessage_left rc dev buffer hcredit
    rw [hqueue, List.length_nil] at hcredit' hrc'
    refine ⟨⟨hbuffer, hbuffers⟩, by omega, fun i hi => ?_⟩
    by_cases hfirst : i < dev.outgoingAclPackets.length + buffer.length
    · exact hrc i hfirst
    · have hlater := hrc' (i - (dev.outgoingAclPackets.length + buffer.length)) (by omega)
      rwa [hcalls, Nat.add_assoc, Nat.add_sub_cancel' (Nat.le_of_not_lt hfirst)] at hlater

/-- **All of some messages are sent, and nothing is left to wait, just when there is credit for all the packets** and the
backend refuses none of them. -/
theorem sendReturns_pos_iff : ∀ (buffers : List (List Packet)) (dev : AclOut), buffers ≠ [] →
    ((∀ r ∈ sendReturns rc dev buffers, 0 < r) ↔ LeaveAtOnce rc dev buffers)
  | [], _, hne => absurd rfl hne
  | [buffer], dev, _ => by
    rw [← sendMessage_pos_iff]
    simp [sendReturns]
  | buffer :: next :: buffers, dev, _ => by
    rw [leaveAtOnce_cons rc, ← sendMessage_pos_iff,
      ← sendReturns_pos_iff (next :: buffers) _ (List.cons_ne_nil _ _), sendReturns,
      List.forall_mem_cons]

end Returns

/-! ## The loop -/

/-- The packets of the Configuration Requests that a log has for a channel. -/
def requestBuffers (host : L2capHost) (p : Nat) (log : List L2event) : List (List Packet) :=
  log.filterMap fun e =>
    match e with
    | .emitted q code id body =>
      if q = some p ∧ code = l2capSignalConfigReq then some ((cmdPackets host code id body).getD []) else none
    | _ => none

/-- The messages that the options present from a start command on go into, for the MTU of the peer. -/
def optionMessages (host : L2capHost) (w : L2capLink) (p : Nat) (params : ConfigureParams) (n startCmd msgId : Nat) :
    List (List Packet) :=
  requestMessages host (w.channels p).remoteChannelId params
    (loads optionSize (w.channels p).remoteMtu n (presentFrom params startCmd)) msgId w.lastSignalId

/-- What a run of the loop does, from one start command on; `es` is what it adds to the log. -/
structure LoopDone (host : L2capHost) (p : Nat) (params : ConfigureParams) (n startCmd msgId : Nat) (w : L2capLink)
    (r : Bool × L2capLink) (es : List L2event) : Prop where
  log : r.2.log = w.log ++ es
  sent : es ≠ []
  requests : ∀ e ∈ es, ∃ id body, e = .emitted (some p) l2capSignalConfigReq id body
  state : (r.2.channels p).state = (w.channels p).state
  count : r.1 = true →
    (r.2.channels p).expectedResponseCount = ((w.channels p).expectedResponseCount + es.length) % 256
  buffers : r.1 = true → requestBuffers host p es = optionMessages host w p params n startCmd msgId
  whole : r.1 = true ↔ (∀ o ∈ presentFrom params startCmd, optionSize o ≤ (w.channels p).remoteMtu) ∧
    Departs host.rc w.dev (optionMessages host w p params n startCmd msgId)

theorem length_requests (host : L2capHost) {p : Nat} : ∀ {es : List L2event},
    (∀ e ∈ es, ∃ id body, e = .emitted (some p) l2capSignalConfigReq id body) → (requestBuffers host p es).length = es.length
  | [], _ => rfl
  | e :: es, h => by
    obtain ⟨id, body, rfl⟩ := h e List.mem_cons_self
    have hrest := length_requests host fun e' he' => h e' (List.mem_cons_of_mem _ he')
    simpa [requestBuffers] using hrest

section Loop
variable {host : L2capHost} {p : Nat} {params : ConfigureParams} {n startCmd msgId : Nat} {w : L2capLink}

/-- The first of the messages is the one that is sent next. -/
theorem optionMessages_succ (hn : (presentFrom params startCmd).length < n + 1) :
    optionMessages host w p params (n + 1) startCmd msgId = requestBuffer host w p params startCmd msgId ::
      requestMessages host (w.channels p).remoteChannelId params
        (if (fill optionSize (w.channels p).remoteMtu (presentFrom params startCmd)).2.isEmpty then []
          else loads optionSize (w.channels p).remoteMtu n
            (fill optionSize (w.channels p).remoteMtu (presentFrom params startCmd)).2)
        (signalIdAfter w.lastSignalId) (signalIdAfter w.lastSignalId) := by
  unfold optionMessages
  rw [loads]
  refine requestMessages_load host w p params startCmd msgId ?_ w.lastSignalId
  have hlen := congrArg List.length (fill_append optionSize (w.channels p).remoteMtu (presentFrom params startCmd))
  rw [List.length_append] at hlen
  cases hleft : (fill optionSize (w.channels p).remoteMtu (presentFrom params startCmd)).2 with
  | nil => simp
  | cons o ys =>
    rw [hleft, List.length_cons] at hlen
    obtain ⟨k, rfl⟩ : ∃ k, n = k + 1 := Nat.exists_eq_succ_of_ne_zero (by omega)
    simp [loads]

theorem requests_turn (host : L2capHost) (w : L2capLink) (p : Nat) (params : ConfigureParams) (startCmd msgId : Nat) :
    requestBuffers host p [.emitted (some p) l2capSignalConfigReq msgId (requestBody w p params startCmd)] =
      [requestBuffer host w p params startCmd msgId] := by
  simp [requestBuffers, requestBuffer]

/-- A turn after which the packet waits ends the loop. -/
theorem loopDone_waits (hn : (presentFrom params startCmd).length < n + 1)
    (hrc : (bteAclSendMessage host.rc w.dev (requestBuffer host w p params startCmd msgId)).1 = 0) :
    LoopDone host p params (n + 1) startCmd msgId w (false, requestTurn host w p params startCmd msgId)
      [.emitted (some p) l2capSignalConfigReq msgId (requestBody w p params startCmd)] where
  log := rfl
  sent := List.cons_ne_nil _ _
  requests := fun e he => ⟨_, _, List.mem_singleton.1 he⟩
  state := rfl
  count := nofun
  buffers := nofun
  whole := by
    refine iff_of_false nofun fun h => ?_
    rw [optionMessages_succ hn] at h
    exact h.2.1 hrc

/-- The turn that all the options left go into. -/
theorem loopDone_last (hn : (presentFrom params startCmd).length < n + 1)
    (hleft : (fill optionSize (w.channels p).remoteMtu (presentFrom params startCmd)).2 = [])
    (hrc : (bteAclSendMessage host.rc w.dev (requestBuffer host w p params startCmd msgId)).1 ≠ 0) :
    LoopDone host p params (n + 1) startCmd msgId w (true, awaitConfigRsp (requestTurn host w p params startCmd msgId) p)
      [.emitted (some p) l2capSignalConfigReq msgId (requestBody w p params startCmd)] := by
  have happend := fill_append optionSize (w.channels p).remoteMtu (presentFrom params startCmd)
  have hmessages := @optionMessages_succ host p _ _ _ msgId w hn
  rw [hleft] at hmessages
  refine ⟨rfl, List.cons_ne_nil _ _, fun e he => ⟨_, _, List.mem_singleton.1 he⟩, ?_, fun _ => ?_, fun _ => ?_,
    iff_of_true rfl ⟨fun o ho => ?_, ?_⟩⟩
  · simp [awaitConfigRsp, L2capLink.modify, requestTurn, L2capLink.send, L2capLink.record, L2capLink.note]
  · simp [awaitConfigRsp, L2capLink.modify, requestTurn, L2capLink.send, L2capLink.record, L2capLink.note]
  · rw [hmessages, requests_turn]
    rfl
  · rw [← happend, hleft, List.append_nil] at ho
    exact fill_fits optionSize ho
  · rw [hmessages]
    exact ⟨hrc, trivial⟩

/-- The link at the next turn. -/
def nextTurn (host : L2capHost) (w : L2capLink) (p : Nat) (params : ConfigureParams) (startCmd msgId : Nat) : L2capLink :=
  awaitConfigRsp (requestTurn host w p params startCmd msgId).nextSignalId.2 p

theorem channel_nextTurn (host : L2capHost) (w : L2capLink) (p : Nat) (params : ConfigureParams) (startCmd msgId : Nat) :
    ((nextTurn host w p params startCmd msgId).channels p).state = (w.channels p).state ∧
      ((nextTurn host w p params startCmd msgId).channels p).expectedResponseCount =
        ((w.channels p).expectedResponseCount + 1) % 256 ∧
      ((nextTurn host w p params startCmd msgId).channels p).remoteMtu = (w.channels p).remoteMtu ∧
      ((nextTurn host w p params startCmd msgId).channels p).remoteChannelId = (w.channels p).remoteChannelId := by
  simp [nextTurn, awaitConfigRsp, L2capLink.modify, L2capLink.nextSignalId, requestTurn, L2capLink.send, L2capLink.record,
    L2capLink.note]

/-- A turn that goes on to the rest of the options. -/
theorem loopDone_more {o : ConfigOption} {ys : List ConfigOption} {r : Bool × L2capLink} {es : List L2event} {m : Nat}
    (hn : (presentFrom params startCmd).length < n + 1)
    (hleft : (fill optionSize (w.channels p).remoteMtu (presentFrom params startCmd)).2 = o :: ys)
    (hrc : (bteAclSendMessage host.rc w.dev (requestBuffer host w p params startCmd msgId)).1 ≠ 0)
    (hm : (fill optionSize (w.channels p).remoteMtu (presentFrom params startCmd)).1 ≠ [] → m = n)
    (hrest : LoopDone host p params m o.type (signalIdAfter w.lastSignalId) (nextTurn host w p params startCmd msgId) r es) :
    LoopDone host p params (n + 1) startCmd msgId w r
      (.emitted (some p) l2capSignalConfigReq msgId (requestBody w p params startCmd) :: es) := by
  have happend := fill_append optionSize (w.channels p).remoteMtu (presentFrom params startCmd)
  have hnext := presentFrom_next (happend.symm.trans (congrArg _ hleft))
  obtain ⟨hstate, hcount, hmtu, hcid⟩ := channel_nextTurn host w p params startCmd msgId
  have hwhole := hrest.whole
  rw [hmtu, hnext] at hwhole
  have hsplit : ∀ room, (∀ x ∈ presentFrom params startCmd, optionSize x ≤ room) ↔
      (∀ x ∈ (fill optionSize (w.channels p).remoteMtu (presentFrom params startCmd)).1, optionSize x ≤ room) ∧
        ∀ x ∈ o :: ys, optionSize x ≤ room := by
    intro room
    conv_lhs => rw [← happend, hleft]
    exact List.forall_mem_append
  have hoptions : (r.1 = true →
        requestBuffers host p (.emitted (some p) l2capSignalConfigReq msgId (requestBody w p params startCmd) :: es) =
          optionMessages host w p params (n + 1) startCmd msgId) ∧
      (r.1 = true ↔ (∀ o ∈ presentFrom params startCmd, optionSize o ≤ (w.channels p).remoteMtu) ∧
        Departs host.rc w.dev (optionMessages host w p params (n + 1) startCmd msgId)) := by
    rw [hsplit]
    by_cases hempty : (fill optionSize (w.channels p).remoteMtu (presentFrom params startCmd)).1 = []
    · -- an option that fits into no packet keeps the loop from its end
      have hlarge : ¬ optionSize o ≤ (w.channels p).remoteMtu := by
        have h := fill_next optionSize hleft
        rw [hempty] at h
        simpa using h
      have hfails : ¬ r.1 = true := fun hok => hlarge ((hwhole.1 hok).1 o List.mem_cons_self)
      exact ⟨fun hok => absurd hok hfails, iff_of_false hfails fun h => hlarge (h.1.2 o List.mem_cons_self)⟩
    · have hmn := hm hempty
      subst hmn
      have hmessages : optionMessages host w p params (m + 1) startCmd msgId =
          requestBuffer host w p params startCmd msgId ::
            optionMessages host (nextTurn host w p params startCmd msgId) p params m o.type
                (signalIdAfter w.lastSignalId) := by
        rw [optionMessages_succ hn, hleft, optionMessages, hmtu, hcid, hnext]
        rfl
      have hfits : ∀ x ∈ (fill optionSize (w.channels p).remoteMtu (presentFrom params startCmd)).1,
          optionSize x ≤ (w.channels p).remoteMtu := fun x hx => fill_fits optionSize hx
      constructor
      · intro hok
        rw [hmessages, ← hrest.buffers hok]
        simp [requestBuffers, requestBuffer]
      · rw [hwhole, hmessages]
        constructor
        · rintro ⟨hothers, hdepart⟩
          exact ⟨⟨hfits, hothers⟩, hrc, hdepart⟩
        · rintro ⟨⟨_, hothers⟩, _, hdepart⟩
          exact ⟨hothers, hdepart⟩
  refine ⟨?_, List.cons_ne_nil _ _, ?_, hrest.state.trans hstate, fun hok => ?_, hoptions.1, hoptions.2⟩
  · rw [hrest.log]
    exact List.append_assoc ..
  · intro e he
    rcases List.mem_cons.1 he with rfl | he
    · exact ⟨_, _, rfl⟩
    · exact hrest.requests e he
  · rw [hrest.count hok, hcount, List.length_cons]
    omega

/-- **What the loop does**: it goes through to the end just when each option fits and each message is handed over, and has
sent then what the options make. -/
theorem requestLoop_done (host : L2capHost) (p : Nat) (params : ConfigureParams) :
    ∀ (fuel n startCmd msgId : Nat) (w : L2capLink), w.dev.aclAvailablePackets < fuel →
      (presentFrom params startCmd).length < n →
      ∃ es, LoopDone host p params n startCmd msgId w (configRequestLoop host p params fuel startCmd msgId w) es
  | 0, _, _, _, _, h, _ => absurd h (Nat.not_lt_zero _)
  | _ + 1, 0, _, _, _, _, h => absurd h (Nat.not_lt_zero _)
  | fuel + 1, n + 1, startCmd, msgId, w, hfuel, hn => by
    have hwrite := configWrite_eq params startCmd (w.channels p).remoteMtu
    rw [requestLoop_succ]
    split
    case isTrue hrc => exact ⟨_, loopDone_waits hn hrc⟩
    case isFalse hrc =>
      cases hleft : (fill optionSize (w.channels p).remoteMtu (presentFrom params startCmd)).2 with
      | nil =>
        have hfst : (l2capConfigWrite params startCmd (w.channels p).remoteMtu).1 = 0 := by rw [hwrite, hleft]; rfl
        rw [hfst, if_neg (Nat.lt_irrefl 0)]
        exact ⟨_, loopDone_last hn hleft hrc⟩
      | cons o ys =>
        have hfst : (l2capConfigWrite params startCmd (w.channels p).remoteMtu).1 = o.type := by rw [hwrite, hleft]; rfl
        rw [hfst, if_pos (type_pos o)]
        have happend := fill_append optionSize (w.channels p).remoteMtu (presentFrom params startCmd)
        have hnext := presentFrom_next (happend.symm.trans (congrArg _ hleft))
        have hlen := congrArg List.length happend
        rw [hleft, List.length_append] at hlen
        have huse : (nextTurn host w p params startCmd msgId).dev.aclAvailablePackets < w.dev.aclAvailablePackets :=
          sendMessage_uses host.rc w.dev _ hrc
        -- a packet without options takes nothing from what is left
        by_cases hempty : (fill optionSize (w.channels p).remoteMtu (presentFrom params startCmd)).1 = []
        · obtain ⟨es, hrest⟩ := requestLoop_done host p params fuel (n + 1) o.type (signalIdAfter w.lastSignalId)
            (nextTurn host w p params startCmd msgId) (by omega) (by rw [hnext]; omega)
          exact ⟨_, loopDone_more hn hleft hrc (fun h => absurd hempty h) hrest⟩
        · have hsome := List.length_pos_iff.2 hempty
          obtain ⟨es, hrest⟩ := requestLoop_done host p params fuel n o.type (signalIdAfter w.lastSignalId)
            (nextTurn host w p params startCmd msgId) (by omega) (by rw [hnext]; omega)
          exact ⟨_, loopDone_more hn hleft hrc (fun _ => rfl) hrest⟩

/-- There is a message for each load. -/
theorem length_optionMessages (host : L2capHost) (w : L2capLink) (p : Nat) (params : ConfigureParams)
    (n startCmd msgId : Nat) : (optionMessages host w p params n startCmd msgId).length =
      (loads optionSize (w.channels p).remoteMtu n (presentFrom params startCmd)).length := by
  have hmessages : ∀ (ls : List (List ConfigOption)) (id last : Nat),
      (requestMessages host (w.channels p).remoteChannelId params ls id last).length = ls.length := by
    intro ls
    induction ls with
    | nil => exact fun _ _ => rfl
    | cons l ls ih => exact fun _ _ => congrArg (· + 1) (ih _ _)
  exact hmessages _ _ _

/-- Of its few messages, none is missing. -/
theorem LoopDone.length {r : Bool × L2capLink} {es : List L2event} (h : LoopDone host p params n startCmd msgId w r es)
    (hok : r.1 = true) : es.length = (optionMessages host w p params n startCmd msgId).length ∧ es.length ≤ n := by
  have hlen := length_requests host h.requests
  rw [h.buffers hok] at hlen
  have hloads := length_loads optionSize (w.channels p).remoteMtu n (presentFrom params startCmd)
  refine ⟨hlen.symm, ?_⟩
  rw [← hlen, length_optionMessages]
  exact hloads

end Loop

/-! ## What is told -/

/-- A call of a function given to `bte_l2cap_configure`. -/
def L2event.configureCall (p : Nat) : L2event → Option (Nat × ConfigureReply × Nat)
  | .callback q (.configure f _ reply userdata) => if q = p then some (f, reply, userdata) else none
  | _ => none

def configureCalls (p : Nat) (log : List L2event) : List (Nat × ConfigureReply × Nat) := log.filterMap (·.configureCall p)

/-- What a log gains: requests of a channel, and calls of its configuration callback. -/
def Gains (host : L2capHost) (p : Nat) (w w' : L2capLink) (buffers : List (List Packet))
    (calls : List (Nat × ConfigureReply × Nat)) : Prop :=
  ∃ es, w'.log = w.log ++ es ∧ requestBuffers host p es = buffers ∧ configureCalls p es = calls

section Gains
variable {host : L2capHost} {p : Nat} {a b c : L2capLink} {bs bs' : List (List Packet)}
  {cs cs' : List (Nat × ConfigureReply × Nat)}

theorem Gains.trans (h : Gains host p a b bs cs) (h' : Gains host p b c bs' cs') :
    Gains host p a c (bs ++ bs') (cs ++ cs') := by
  obtain ⟨es, hlog, hbs, hcs⟩ := h
  obtain ⟨es', hlog', hbs', hcs'⟩ := h'
  refine ⟨es ++ es', by rw [hlog', hlog, List.append_assoc], ?_, ?_⟩
  · rw [← hbs, ← hbs']
    exact List.filterMap_append
  · rw [← hcs, ← hcs']
    exact List.filterMap_append

theorem Gains.new (h : Gains host p a b bs cs) :
    requestBuffers host p (b.log.drop a.log.length) = bs ∧ configureCalls p (b.log.drop a.log.length) = cs := by
  obtain ⟨es, hlog, hbs, hcs⟩ := h
  rw [hlog, List.drop_left]
  exact ⟨hbs, hcs⟩

/-- Nothing is gained by what is not about the channel. -/
theorem gains_still {w w' : L2capLink} (h : (Watch.still p).Within w w') : Gains host p w w' [] [] := by
  obtain ⟨es, hlog, hes⟩ := h.log
  refine ⟨es, hlog, List.filterMap_eq_nil_iff.2 fun e he => ?_, List.filterMap_eq_nil_iff.2 fun e he => ?_⟩
  · have hne := hes e he
    cases e <;> simp_all [L2event.about, Watch.still]
  · have hne := hes e he
    cases e with
    | callback q c => cases c <;> simp_all [L2event.about, Watch.still, L2event.configureCall]
    | _ => rfl

end Gains

section Told
variable {host : L2capHost} {p : Nat} (hh : host.Heeds (Watch.still p))
include hh

/-- A call of the client's function, which leaves the channel alone. -/
theorem still_call {w : L2capLink} (hp : p < w.allocated) (c : L2capCallback) :
    (w.call host p c).channels p = w.channels p ∧ w.allocated ≤ (w.call host p c).allocated ∧
      Gains host p w (w.call host p c) [] (configureCalls p [.callback p c]) := by
  have hreact : (Watch.still p).Within (w.record (.callback p c)) (w.call host p c) := hh c (w.record (.callback p c)) hp
  have hrecord : Gains host p w (w.record (.callback p c)) [] (configureCalls p [.callback p c]) := ⟨_, rfl, rfl, rfl⟩
  have hall := hrecord.trans (gains_still hreact)
  rw [List.append_nil, List.append_nil] at hall
  exact ⟨hreact.update, hreact.allocated, hall⟩

/-- A request that is not sent is told as rejected. -/
theorem configured_told {w : L2capLink} (hp : p < w.allocated) (f : Nat) (reply : ConfigureReply) (userdata : Nat) :
    (configured host w (.client .configure f) p reply userdata false).channels p = w.channels p ∧
      Gains host p w (configured host w (.client .configure f) p reply userdata false) [] [(f, reply, userdata)] := by
  obtain ⟨hsame, -, hgains⟩ := still_call hh (w := w.record (.configureCb p (.client .configure f) reply false)) hp
    (.configure f p reply userdata)
  have hrecord : Gains host p w (w.record (.configureCb p (.client .configure f) reply false)) [] [] := ⟨_, rfl, rfl, rfl⟩
  have hcall : configureCalls p [.callback p (.configure f p reply userdata)] = [(f, reply, userdata)] := by
    simp [configureCalls, L2event.configureCall]
  rw [hcall] at hgains
  exact ⟨hsame, hrecord.trans hgains⟩

/-- A change to a state that is none of those the stack's own callbacks look at. -/
theorem setState_told {w : L2capLink} (hp : p < w.allocated) {state : L2capState} (hconfig : state ≠ .waitConfig)
    (hopened : state ≠ .opened) (hclosed : state ≠ .closed) :
    (l2capSetState host w p state).channels p = { w.channels p with state := state } ∧
      w.allocated ≤ (l2capSetState host w p state).allocated ∧ Gains host p w (l2capSetState host w p state) [] [] := by
  unfold l2capSetState
  split
  case isTrue hstate =>
    refine ⟨?_, le_rfl, [], by simp, rfl, rfl⟩
    rw [hstate]
  case isFalse hstate =>
    have henter : (w.enter p state).channels p = { w.channels p with state := state } := by
      simp [L2capLink.enter, L2capLink.modify, L2capLink.record]
    have hgains : Gains host p w (w.enter p state) [] [] := ⟨_, rfl, rfl, rfl⟩
    have hsame : (w.enter p state).channels p = { w.channels p with state := state } ∧
        w.allocated ≤ (w.enter p state).allocated ∧ Gains host p w (w.enter p state) [] [] := ⟨henter, le_rfl, hgains⟩
    unfold stateChanged
    split
    · exact hsame
    · obtain ⟨hcall, hallocated, hcalls⟩ := still_call hh (w := w.enter p state) hp
        (.stateChanged _ p state ((w.enter p state).channels p).userdata)
      exact ⟨hcall.trans henter, hallocated, hgains.trans hcalls⟩
    · rw [onL2capStateChanged, if_neg hconfig]
      exact hsame
    · unfold newConfiguredStateChangedCb
      simp only
      rw [if_neg hopened, if_neg hclosed]
      exact hsame

end Told

/-! ## Atomic -/

/-- The request went out: its callback is stored, each of its packets is counted, and the state goes on. -/
structure ConfigureStored (w w' : L2capLink) (p f userdata packets : Nat) : Prop where
  callback : (w'.channels p).clientCb = .client .configure f ∧ (w'.channels p).cmdUserdata = userdata
  counted : (w'.channels p).expectedResponseCount = (w.channels p).expectedResponseCount + packets
  state : (w'.channels p).state = requestSent (w.channels p).state
  silent : configureCalls p (w'.log.drop w.log.length) = []

/-- The request was refused: its callback is called once to say so, and nothing else has changed. -/
structure ConfigureRejected (w w' : L2capLink) (p f userdata : Nat) : Prop where
  told : ∃ reply : ConfigureReply, configureCalls p (w'.log.drop w.log.length) = [(f, reply, userdata)] ∧
    reply.rejectedMask ≠ 0
  expected : (w'.channels p).expectedResponseCode = (w.channels p).expectedResponseCode ∧
    (w'.channels p).expectedResponseId = (w.channels p).expectedResponseId ∧
    (w'.channels p).expectedResponseCount = (w.channels p).expectedResponseCount
  state : (w'.channels p).state = (w.channels p).state

/-- What `bte_acl_send_message` returned for each packet of the request. -/
def configureReturns (host : L2capHost) (w w' : L2capLink) (p : Nat) : List Int :=
  sendReturns host.rc w.dev (requestBuffers host p (w'.log.drop w.log.length))

/-- **All or nothing**: the request is stored when all of it was accepted, that is sent or queued, and is rejected when a
packet was refused or none was sent. -/
def ConfigureAtomic (host : L2capHost) (w : L2capLink) (p : Nat) (params : Option ConfigureParams) (f userdata : Nat) :
    Prop :=
  let w' := bteL2capConfigure host w p params (.client .configure f) userdata
  let returns := configureReturns host w w' p
  (returns ≠ [] ∧ (∀ r ∈ returns, 0 ≤ r) → ConfigureStored w w' p f userdata returns.length) ∧
    (returns = [] ∨ (∃ r ∈ returns, r < 0) → ConfigureRejected w w' p f userdata)

/-- Each option fits into the MTU of the peer, and there is credit for all the messages. -/
def ConfigureGoesOut (host : L2capHost) (w : L2capLink) (p : Nat) (params : ConfigureParams) : Prop :=
  (∀ o ∈ presentFrom params 0, optionSize o ≤ (w.channels p).remoteMtu) ∧
    LeaveAtOnce host.rc w.dev (optionMessages host w.nextSignalId.2 p params 8 0 w.nextSignalId.1)

instance (host : L2capHost) (w : L2capLink) (p : Nat) (params : ConfigureParams) :
    Decidable (ConfigureGoesOut host w p params) := inferInstanceAs (Decidable (_ ∧ _))

theorem departs_iff (rc : Nat → Int) : ∀ (buffers : List (List Packet)) (dev : AclOut),
    Departs rc dev buffers ↔ ∀ r ∈ sendReturns rc dev buffers, r ≠ 0
  | [], _ => by simp [Departs, sendReturns]
  | buffer :: buffers, dev => by
    rw [Departs, departs_iff rc buffers, sendReturns, List.forall_mem_cons]

theorem length_sendReturns (rc : Nat → Int) : ∀ (buffers : List (List Packet)) (dev : AclOut),
    (sendReturns rc dev buffers).length = buffers.length
  | [], _ => rfl
  | _ :: buffers, _ => congrArg (· + 1) (length_sendReturns rc buffers _)

theorem requestSent_ne {s : L2capState} (h : s.takesConfigure) :
    requestSent s ≠ s ∧ requestSent s ≠ .waitConfig ∧ requestSent s ≠ .opened ∧ requestSent s ≠ .closed := by
  cases s <;> simp_all [L2capState.takesConfigure, requestSent]

/-- The loop of the request, and `l2cap_config_send` with it. -/
def requestRun (host : L2capHost) (w : L2capLink) (p : Nat) (params : ConfigureParams) : Bool × L2capLink :=
  configRequestLoop host p params (w.dev.aclAvailablePackets + 1) 0 w.nextSignalId.1 w.nextSignalId.2

def requestSend (host : L2capHost) (w : L2capLink) (p : Nat) (params : ConfigureParams) : Bool × L2capLink :=
  configSendRequest host w p { ConfigureData.zero with params := params }

theorem configure_eq (host : L2capHost) {w : L2capLink} {p : Nat} (params : Option ConfigureParams) (f userdata : Nat)
    (hstate : (w.channels p).state.takesConfigure) (hnone : (w.channels p).expectedResponseCount = 0) :
    bteL2capConfigure host w p params (.client .configure f) userdata =
      if (requestRun host w p (params.getD .zero)).1 then
        ((requestSend host w p (params.getD .zero)).2.modify p fun l2cap =>
          { l2cap with clientCb := .client .configure f, cmdUserdata := userdata }).record
              (.configureStored p (.client .configure f))
      else
        configured host (requestSend host w p (params.getD .zero)).2 (.client .configure f) p
          { host.stale with rejectedMask := 0xffffffff } userdata false := by
  unfold bteL2capConfigure l2capConfigSend
  simp only
  rw [if_neg (not_not.2 hstate), if_neg (by omega), if_neg (not_not.2 rfl)]
  rfl

section Atomic
variable {host : L2capHost} {p : Nat} (hh : host.Heeds (Watch.still p)) {w : L2capLink} (hp : p < w.allocated)
  (params : Option ConfigureParams) (f userdata : Nat)
include hh hp

/-- A request that is refused before it is sent. -/
theorem atomic_early (h : ¬ (w.channels p).state.takesConfigure ∨ 0 < (w.channels p).expectedResponseCount) :
    ConfigureAtomic host w p params f userdata := by
  obtain ⟨hsame, hgains⟩ := configured_told hh hp f { host.stale with rejectedMask := 0xffffffff } userdata
  have hearly : bteL2capConfigure host w p params (.client .configure f) userdata =
      configured host w (.client .configure f) p { host.stale with rejectedMask := 0xffffffff } userdata false := by
    unfold bteL2capConfigure
    simp only
    by_cases hstate : (w.channels p).state.takesConfigure
    · rw [if_neg (not_not.2 hstate), if_pos (h.resolve_left (not_not.2 hstate))]
    · rw [if_pos hstate]
  unfold ConfigureAtomic
  rw [hearly]
  obtain ⟨hbuffers, hcalls⟩ := hgains.new
  have hreturns : configureReturns host w
      (configured host w (.client .configure f) p { host.stale with rejectedMask := 0xffffffff } userdata false) p = [] := by
    rw [configureReturns, hbuffers]
    rfl
  refine ⟨fun hsent => absurd hreturns hsent.1, fun _ => ⟨⟨_, hcalls, by simp⟩, ?_, by rw [hsame]⟩⟩
  rw [hsame]
  exact ⟨rfl, rfl, rfl⟩

/-- What is left of `l2cap_config_send` after the loop: the state goes on, whatever came of the packets. -/
theorem sendRequest_told (hstate : (w.channels p).state.takesConfigure) (params : ConfigureParams) :
    ∃ es, LoopDone host p params 8 0 w.nextSignalId.1 w.nextSignalId.2 (requestRun host w p params) es ∧
      (requestSend host w p params).2.channels p =
        { (requestRun host w p params).2.channels p with state := requestSent (w.channels p).state } ∧
      p < (requestSend host w p params).2.allocated ∧
      Gains host p w (requestSend host w p params).2 (requestBuffers host p es) [] := by
  obtain ⟨-, hconfig, hopened, hclosed⟩ := requestSent_ne hstate
  obtain ⟨es, hloop⟩ := requestLoop_done host p params (w.dev.aclAvailablePackets + 1) 8 0 w.nextSignalId.1
    w.nextSignalId.2 (Nat.lt_succ_self _) (length_presentFrom _ 0)
  have hwithin : (Watch.any p).Within w.nextSignalId.2 (requestRun host w p params).2 :=
    leads_requestLoop params (fun _ => (Watch.any_free p).closed) _ 0 w.nextSignalId.1 w.nextSignalId.2 hp
  have hsend : (requestSend host w p params).2 =
      l2capSetState host (requestRun host w p params).2 p (requestSent (w.channels p).state) := by
    have hkeeps : ((requestRun host w p params).2.channels p).state = (w.channels p).state := hloop.state
    rw [← hkeeps]
    rfl
  refine ⟨es, hloop, ?_⟩
  rw [hsend]
  obtain ⟨hsame, hallocated, hgains⟩ := setState_told hh (lt_of_lt_of_le hp hwithin.allocated) hconfig hopened hclosed
  refine ⟨hsame, lt_of_lt_of_le (lt_of_lt_of_le hp hwithin.allocated) hallocated, ?_⟩
  have hsent : Gains host p w (requestRun host w p params).2 (requestBuffers host p es) [] := by
    refine ⟨es, hloop.log, rfl, List.filterMap_eq_nil_iff.2 fun e he => ?_⟩
    obtain ⟨id, body, rfl⟩ := hloop.requests e he
    rfl
  have hall := hsent.trans hgains
  rwa [List.append_nil] at hall

/-- The loop came to its end. -/
theorem configure_stored (hstate : (w.channels p).state.takesConfigure) (hnone : (w.channels p).expectedResponseCount = 0)
    (hok : (requestRun host w p (params.getD .zero)).1 = true) :
    let w' := bteL2capConfigure host w p params (.client .configure f) userdata
    configureReturns host w w' p = sendReturns host.rc w.dev
        (optionMessages host w.nextSignalId.2 p (params.getD .zero) 8 0 w.nextSignalId.1) ∧
      ConfigureStored w w' p f userdata (configureReturns host w w' p).length := by
  obtain ⟨es, hloop, hchannel, hallocated, hgains⟩ := sendRequest_told hh hp hstate (params.getD .zero)
  have hconfigure : bteL2capConfigure host w p params (.client .configure f) userdata =
      ((requestSend host w p (params.getD .zero)).2.modify p fun l2cap =>
        { l2cap with clientCb := .client .configure f, cmdUserdata := userdata }).record
            (.configureStored p (.client .configure f)) := by
    rw [configure_eq host params f userdata hstate hnone, if_pos hok]
  obtain ⟨hlen, hfew⟩ := hloop.length hok
  have hrecord : Gains host p (requestSend host w p (params.getD .zero)).2
      (bteL2capConfigure host w p params (.client .configure f) userdata) [] [] := by
    rw [hconfigure]
    exact ⟨_, rfl, rfl, rfl⟩
  obtain ⟨hbuffers, hcalls⟩ := (hgains.trans hrecord).new
  rw [List.append_nil, hloop.buffers hok] at hbuffers
  have hreturns : configureReturns host w (bteL2capConfigure host w p params (.client .configure f) userdata) p =
      sendReturns host.rc w.dev (optionMessages host w.nextSignalId.2 p (params.getD .zero) 8 0 w.nextSignalId.1) := by
    rw [configureReturns, hbuffers]
  refine ⟨hreturns, ?_, ?_, ?_, hcalls⟩
  · rw [hconfigure]
    simp [L2capLink.modify, L2capLink.record]
  · have hcount := hloop.count hok
    have hold : (w.nextSignalId.2.channels p).expectedResponseCount = 0 := hnone
    rw [hold, Nat.zero_add, Nat.mod_eq_of_lt (by omega)] at hcount
    rw [hreturns, length_sendReturns, ← hlen, hnone, Nat.zero_add, hconfigure, ← hcount]
    simp [L2capLink.modify, L2capLink.record, hchannel]
  · rw [hconfigure]
    simp [L2capLink.modify, L2capLink.record, hchannel]

/-- The loop stopped: the callback is told although the state has gone on. -/
theorem configure_not_stored (hstate : (w.channels p).state.takesConfigure)
    (hnone : (w.channels p).expectedResponseCount = 0) (hok : (requestRun host w p (params.getD .zero)).1 = false) :
    let w' := bteL2capConfigure host w p params (.client .configure f) userdata
    configureReturns host w w' p ≠ [] ∧ (∀ packets, ¬ ConfigureStored w w' p f userdata packets) ∧
      (w'.channels p).state = requestSent (w.channels p).state := by
  obtain ⟨es, hloop, hchannel, hallocated, hgains⟩ := sendRequest_told hh hp hstate (params.getD .zero)
  have hconfigure : bteL2capConfigure host w p params (.client .configure f) userdata =
      configured host (requestSend host w p (params.getD .zero)).2 (.client .configure f) p
        { host.stale with rejectedMask := 0xffffffff } userdata false := by
    have hfalse : ¬ (requestRun host w p (params.getD .zero)).1 = true := by simp [hok]
    rw [configure_eq host params f userdata hstate hnone, if_neg hfalse]
  obtain ⟨hsame, htold⟩ := configured_told hh hallocated f { host.stale with rejectedMask := 0xffffffff } userdata
  rw [← hconfigure] at hsame htold
  obtain ⟨hbuffers, hcalls⟩ := (hgains.trans htold).new
  refine ⟨fun hnil => ?_, fun packets hstored => ?_, ?_⟩
  · have hlen := length_sendReturns host.rc (requestBuffers host p es ++ []) w.dev
    rw [configureReturns, hbuffers] at hnil
    rw [hnil, List.append_nil, length_requests host hloop.requests] at hlen
    exact hloop.sent (List.length_eq_zero_iff.1 hlen.symm)
  · rw [hstored.silent] at hcalls
    cases hcalls
  · rw [hsame, hchannel]

/-- **A request that is sent**: it is all or nothing just when nothing of it waits or is refused. -/
theorem atomic_sent (hstate : (w.channels p).state.takesConfigure) (hnone : (w.channels p).expectedResponseCount = 0) :
    ConfigureAtomic host w p params f userdata ↔ ConfigureGoesOut host w p (params.getD .zero) := by
  have hmoves := (requestSent_ne hstate).1
  obtain ⟨es, hloop⟩ := requestLoop_done host p (params.getD .zero) (w.dev.aclAvailablePackets + 1) 8 0 w.nextSignalId.1
    w.nextSignalId.2 (Nat.lt_succ_self _) (length_presentFrom _ 0)
  have hne : optionMessages host w.nextSignalId.2 p (params.getD .zero) 8 0 w.nextSignalId.1 ≠ [] := by
    rw [optionMessages_succ (length_presentFrom _ 0)]
    exact List.cons_ne_nil _ _
  have hpos := sendReturns_pos_iff host.rc _ w.dev hne
  unfold ConfigureGoesOut
  rw [← hpos]
  by_cases hok : (requestRun host w p (params.getD .zero)).1 = true
  · obtain ⟨hreturns, hstored⟩ := configure_stored hh hp params f userdata hstate hnone hok
    obtain ⟨hfits, hdeparts⟩ := hloop.whole.1 hok
    have hdeparts' := (departs_iff host.rc _ _).1 hdeparts
    have hnil := congrArg List.length hreturns
    constructor
    · intro hatomic
      refine ⟨hfits, fun r hr => ?_⟩
      by_contra hle
      have hzero := hdeparts' r hr
      have hrejected := hatomic.2 (.inr ⟨r, hreturns ▸ hr, by omega⟩)
      exact hmoves (hstored.state.symm.trans hrejected.state)
    · rintro ⟨-, hall⟩
      refine ⟨fun _ => hstored, fun hbad => ?_⟩
      rcases hbad with hbad | ⟨r, hr, hneg⟩
      · rw [hbad, length_sendReturns] at hnil
        exact absurd (List.length_eq_zero_iff.1 hnil.symm) hne
      · have hr' := hall r (hreturns ▸ hr)
        omega
  · have hfalse : (requestRun host w p (params.getD .zero)).1 = false := by simpa using hok
    obtain ⟨hsome, hnot, hstate'⟩ := configure_not_stored hh hp params f userdata hstate hnone hfalse
    refine iff_of_false (fun hatomic => ?_) fun ⟨hfits, hall⟩ => hok (hloop.whole.2 ⟨hfits, ?_⟩)
    · by_cases hneg : ∃ r ∈ configureReturns host w
        (bteL2capConfigure host w p params (.client .configure f) userdata) p, r < 0
      · exact hmoves (hstate'.symm.trans (hatomic.2 (.inr hneg)).state)
      · push Not at hneg
        exact hnot _ (hatomic.1 ⟨hsome, hneg⟩)
    · exact (departs_iff host.rc _ _).2 fun r hr => (hall r hr).ne'

end Atomic

/-- **`bte_l2cap_configure` is all or nothing exactly when it refuses at once, or when there is credit for every packet of
the request and none is refused**: a packet that waits in the queue is taken for a refused one, and a refused one for
sent. -/
theorem configure_atomic_iff (host : L2capHost) (client : L2capClient) (depth : Nat) {w : L2capLink} {p : Nat}
    (hp : p < w.allocated) (hclient : ∀ c w', ∀ call ∈ client c w', call.names ≠ some p)
    (params : Option ConfigureParams) (f userdata : Nat) :
    ConfigureAtomic (host.client client depth) w p params f userdata ↔
      ¬ (w.channels p).state.takesConfigure ∨ 0 < (w.channels p).expectedResponseCount ∨
        ConfigureGoesOut (host.client client depth) w p (params.getD .zero) := by
  have hh := heeds_client (Watch.still p) host client
    (fun c w' call hcall => allowed_of_names (hclient c w' call hcall)) depth
  by_cases hearly : ¬ (w.channels p).state.takesConfigure ∨ 0 < (w.channels p).expectedResponseCount
  · rw [← or_assoc]
    exact iff_of_true (atomic_early hh hp params f userdata hearly) (.inl hearly)
  · obtain ⟨hstate, hnone⟩ := not_or.1 hearly
    rw [← or_assoc, or_iff_right hearly]
    exact atomic_sent hh hp params f userdata (not_not.1 hstate) (by omega)

/-- A channel of the peer's, and a device with some credits when it is there. -/
def connectedRun (credits : Nat) : L2capLink :=
  { Sys.run (L2capLink.step (plainHost.client keepChannels 1)) (.start (freeDev 8)) [peerConnects] with
    dev := freeDev credits }

theorem configure_atomic_iff_oneCredit :
    ConfigureAtomic (plainHost.client silentClient 1) (connectedRun 1) 0 none 7 0 :=
  (configure_atomic_iff plainHost silentClient 1 (by decide) (fun _ _ _ h => absurd h List.not_mem_nil) none 7 0).2
    (.inr (.inr (by decide)))

/-- Without credit the request is queued, and the client is told that it is rejected. -/
theorem configure_not_atomic :
    configureReturns (plainHost.client silentClient 1) (connectedRun 0)
        (bteL2capConfigure (plainHost.client silentClient 1) (connectedRun 0) 0 none (.client .configure 7) 0) 0 = [0] ∧
      ¬ ConfigureAtomic (plainHost.client silentClient 1) (connectedRun 0) 0 none 7 0 := by
  have hreturns : configureReturns (plainHost.client silentClient 1) (connectedRun 0)
      (bteL2capConfigure (plainHost.client silentClient 1) (connectedRun 0) 0 none (.client .configure 7) 0) 0 =
          [0] := by decide
  refine ⟨hreturns, fun h => ?_⟩
  have hstored := h.1 (by rw [hreturns]; decide)
  have hsilent := hstored.silent
  revert hsilent
  decide

end Bte
