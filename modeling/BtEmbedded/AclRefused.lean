import BtEmbedded.AclGate
/-!
# AclRefused — `bte_l2cap_new_outgoing` when it cannot proceed

Three resources can be exhausted: the slots of the pending-command table, those of the device's ACL table, and those of
the ACL's table of channels.  The first is reported to `connect_status_cb`, and from there to the channels of the ACL: but
the ACL has none yet.  The second is not looked at.  For the third the callback is called without a reply.
-/
namespace Bte

/-! ## The property -/

/-- A resource that the call needs is exhausted: the ACL has no room for a channel; or there is no ACL, and no room for
one or for the command that would connect it. -/
def AclNet.CannotProceed (net : AclNet) (call : OutgoingCall) : Prop :=
  match net.bteAclGetForAddress call.address with
  | some a => ∀ i, (net.acls a).clients i ≠ none
  | none => (∀ k, net.table k ≠ none) ∨ net.roomFor 0x05 0x01 16 = false

/-- In the table, neither connected nor being connected. -/
def AclNet.HalfBuilt (net : AclNet) (a : Nat) : Prop :=
  (∃ k, net.table k = some a) ∧ (net.acls a).connHandle = bteConnHandleInvalid ∧
  ∀ i, net.dev.errand i ≠ some (.connect, a)

/-- What the connect callback of channel `p` was told. -/
def NetEvent.connectReply (p : Nat) : NetEvent → Option (Option ConnectionResponse)
  | .l2cap (.connectCb about _ reply) => if about = p then some reply else none
  | _ => none

def connectReplies (p : Nat) (log : List NetEvent) : List (Option ConnectionResponse) := log.filterMap (·.connectReply p)

/-- From `net` to `net'` the callback of the new channel is called once, with a failing reply, and no ACL is left behind
that is neither connected nor being connected. -/
def AclNet.Reported (net net' : AclNet) : Prop :=
  (∃ r : ConnectionResponse, r.result ≠ connRespResOk ∧
    connectReplies net.l2cap.allocated (net'.log.drop net.log.length) = [some r]) ∧
  ∀ a, net'.HalfBuilt a → net.HalfBuilt a

/-! ## The ACL has no channel yet -/

theorem forClients_empty (net : AclNet) {a : Nat} (hc : ∀ i, (net.acls a).clients i = none)
    (f : AclNet → Nat → AclNet) : net.forClients a f = net := by
  unfold AclNet.forClients
  generalize List.finRange 4 = l
  induction l with
  | nil => rfl
  | cons i l ih =>
    rw [List.foldl_cons, AclNet.turn, hc i]
    exact ih

/-- `connect_status_cb` tells the channels that the ACL has. -/
theorem connectStatusCb_unused (net : AclNet) (host : NetHost) {a : Nat} (status : UInt8)
    (hc : ∀ i, (net.acls a).clients i = none) (hr : (net.acls a).refCount ≠ 0) :
        net.connectStatusCb host a status = net := by
  have href : ∀ i, ((net.bteAclRef a).acls a).clients i = none := by
    intro i
    simp only [AclNet.bteAclRef, AclNet.modifyAcl, Function.update_self, hc]
  unfold AclNet.connectStatusCb
  split
  · rename_i hs
    simp only [AclNet.aclConnectedCb, hs, if_false]
    rw [forClients_empty _ href, AclNet.bteAclUnref]
    simp only [AclNet.bteAclRef, AclNet.modifyAcl, Function.update_self, Function.update_idem, add_eq_right, hr, if_false,
      add_sub_cancel_right, Function.update_eq_self]
  · rfl

/-- A channel that joins an ACL without a connection waits. -/
theorem startChannel_waits (net : AclNet) (host : NetHost) (p : Nat) {a : Nat} (call : OutgoingCall)
    (hc : ∀ i, (net.acls a).clients i = none) (hinvalid : (net.acls a).connHandle = bteConnHandleInvalid) :
    ∃ w : L2capLink, net.startChannel host p a call = net.setLink a w ∧ w.log = [] := by
  have hfree : (List.finRange 4).find? (fun i => ((net.link a).clients i).isNone) = some 0 := by
    have hi : ∀ i, (net.link a).clients i = none := hc
    simp only [hi]
    decide
  unfold AclNet.startChannel aclL2capAddClient
  simp only [hfree, Option.map_some]
  refine ⟨_, if_neg fun h => h.1 ?_, rfl⟩
  simp only [AclNet.setLink, AclNet.modifyAcl, Function.update_self, hinvalid]

/-- The call finds no ACL: either it writes through NULL, or its ACL gets the channel and nothing more happens. -/
theorem newOutgoing_refused (net : AclNet) (host : NetHost) (call : OutgoingCall)
    (hf : net.bteAclGetForAddress call.address = none)
    (hex : (∀ k, net.table k ≠ none) ∨ net.roomFor 0x05 0x01 16 = false) :
    net.bteL2capNewOutgoing host call = net.bteL2capNew.record .crashed ∧ (∀ k, net.table k ≠ none) ∨
    ∃ k w, net.bteL2capNewOutgoing host call =
      (net.openAcl k call.hci call.address call.auth).setLink net.aclsAllocated w ∧ w.log = [] ∧
      net.roomFor 0x05 0x01 16 = false := by
  unfold AclNet.bteL2capNewOutgoing
  have hf' : net.bteL2capNew.bteAclGetForAddress call.address = none := hf
  simp only [hf']
  cases hn : net.bteL2capNew.bteAclNew call.hci call.address with
  | none =>
    have hfull := List.find?_eq_none.1 (Option.map_eq_none_iff.1 hn)
    exact .inl ⟨rfl, fun k hk => hfull k (List.mem_finRange k) (Option.isNone_iff_eq_none.2 hk)⟩
  | some an =>
    obtain ⟨a, net'⟩ := an
    obtain ⟨k, hk⟩ := openAcl_eq host hn call.auth
    obtain ⟨j, hj, hpair⟩ := Option.map_eq_some_iff.1 hn
    have hroom : net.roomFor 0x05 0x01 16 = false := by
      rcases hex with hfull | hroom
      · have hfree : (net.bteL2capNew.table j).isNone = true := by simpa using List.find?_some hj
        exact absurd (Option.isNone_iff_eq_none.1 hfree) (hfull j)
      · exact hroom
    have ha : net.aclsAllocated = a := congrArg Prod.fst hpair
    have hself : (net.openAcl k call.hci call.address call.auth).acls a =
        ⟨1, call.hci, call.address, bteConnHandleInvalid, call.auth, false, false, true, fun _ => none⟩ := by
      rw [← ha]
      exact Function.update_self ..
    simp only [hk, hroom, Bool.false_eq_true, if_false]
    rw [connectStatusCb_unused _ host bteHciMemoryFull (fun i => by rw [hself]) (by rw [hself]; exact Int.one_ne_zero), ha]
    obtain ⟨w, hw, hl⟩ := startChannel_waits _ host net.l2cap.allocated call (fun i => by rw [hself]) (by rw [hself])
    exact .inr ⟨k, w, hw, hl, trivial⟩

theorem connectReplies_refused (net : AclNet) (host : NetHost) (call : OutgoingCall)
    (hf : net.bteAclGetForAddress call.address = none)
    (hex : (∀ k, net.table k ≠ none) ∨ net.roomFor 0x05 0x01 16 = false) :
    connectReplies net.l2cap.allocated ((net.bteL2capNewOutgoing host call).log.drop net.log.length) = [] := by
  rcases newOutgoing_refused net host call hf hex with ⟨hr, -⟩ | ⟨k, w, hr, hw, -⟩
  · have hlog : (net.bteL2capNew.record .crashed).log = net.log ++ [.l2cap (.created net.l2cap.allocated true), .crashed] :=
      List.append_assoc ..
    rw [hr, hlog, List.drop_left]
    rfl
  · have hlog : ((net.openAcl k call.hci call.address call.auth).setLink net.aclsAllocated w).log =
        net.log ++ [.l2cap (.created net.l2cap.allocated true),
          .joined ⟨net.l2cap.allocated, net.aclsAllocated, call.auth, none,
              decide (net.aclsAllocated ∈ net.announcing)⟩] := by
      simp only [AclNet.setLink, hw, List.map_nil, List.append_nil]
      exact List.append_assoc ..
    rw [hr, hlog, List.drop_left]
    rfl

/-- The ACL that is left behind, which the next call for its address finds. -/
theorem halfBuilt_of_refused (net : AclNet) (host : NetHost) (call : OutgoingCall)
    (hf : net.bteAclGetForAddress call.address = none) (hfree : ∃ k, net.table k = none)
    (hroom : net.roomFor 0x05 0x01 16 = false) (hnew : ∀ i, net.dev.errand i ≠ some (.connect, net.aclsAllocated)) :
    (net.bteL2capNewOutgoing host call).HalfBuilt net.aclsAllocated := by
  have hslot : net.dev.allocSlot (commandMatcher hciCommandStatus ((hciCommandAlloc 0x05 0x01 16).take 2)) = none :=
    Option.isSome_eq_false_iff.1 hroom |> Option.isNone_iff_eq_none.1
  rcases newOutgoing_refused net host call hf (.inr hroom) with ⟨-, hfull⟩ | ⟨k, w, hr, -, -⟩
  · obtain ⟨k, hk⟩ := hfree
    exact absurd hk (hfull k)
  · rw [hr]
    have hpending : (net.openAcl k call.hci call.address call.auth).dev.pendingCommands = net.dev.pendingCommands := by
      simp only [AclNet.openAcl, AclNet.takeAcl, bteHciCreateConnection, connectionCommand, bteHciDevAddPendingAsyncCommand,
        bteHciDevAddCommand, bteHciDevAllocCommand, install_allocSlot, hslot, HciDev.storing]
      split <;> simp only [HciDev.call, HciDev.logRequest, install_pendingCommands]
    refine ⟨⟨k, Function.update_self ..⟩, ?_, fun i => ?_⟩
    · simp only [AclNet.setLink, AclNet.modifyAcl, Function.update_self]
      simp only [AclNet.openAcl, AclNet.takeAcl, Function.update_self]
    · exact fun he => hnew i ((errand_eq (congrFun hpending i)).symm.trans he)

/-! ## The ACL has no room -/

/-- The callback is called without a reply. -/
theorem connectReplies_full {host : NetHost} (hh : host.Calling) (net : AclNet) (call : OutgoingCall) {a : Nat}
    (hf : net.bteAclGetForAddress call.address = some a) (hfull : ∀ i, (net.acls a).clients i ≠ none) :
    none ∈ connectReplies net.l2cap.allocated ((net.bteL2capNewOutgoing host call).log.drop net.log.length) := by
  obtain ⟨k, hk⟩ := table_of_found hf
  have hf' : net.bteL2capNew.bteAclGetForAddress call.address = some a := hf
  have hcall : net.bteL2capNewOutgoing host call = (net.joinAcl a call.auth).startChannel host
      net.l2cap.allocated a call := by
    unfold AclNet.bteL2capNewOutgoing
    simp only [hf']
    rw [← joinAcl_eq]
    rfl
  have hclients : ∀ i, ((net.joinAcl a call.auth).link a).clients i ≠ none := by
    intro i
    simp only [AclNet.link, joinAcl_acls, Function.update_self]
    exact hfull i
  have hnone : aclL2capAddClient ((net.joinAcl a call.auth).link a) net.l2cap.allocated = none := by
    rw [aclL2capAddClient, Option.map_eq_none_iff, List.find?_eq_none]
    intro i _ hi
    exact hclients i (Option.isNone_iff_eq_none.1 hi)
  have hstart : net.bteL2capNewOutgoing host call = ((net.joinAcl a call.auth).bteL2capUnref net.l2cap.allocated).connected
      host net.l2cap.allocated (.client .connect call.callback) none call.userdata := by
    rw [hcall, AclNet.startChannel, hnone]
  have hbefore : net.log <+: ((net.joinAcl a call.auth).bteL2capUnref net.l2cap.allocated).log :=
    CallMove.log (.joined k a call.auth hk) |>.trans (calls_l2capUnref _ _).moves.grows.1
  rw [hstart]
  generalize (net.joinAcl a call.auth).bteL2capUnref net.l2cap.allocated = net' at hbefore
  have hafter : net'.log ++ [.l2cap (.connectCb net.l2cap.allocated (.client .connect call.callback) none)] <+:
      (net'.connected host net.l2cap.allocated (.client .connect call.callback) none call.userdata).log :=
    (calls_call hh (net'.record (.l2cap (.connectCb net.l2cap.allocated (.client .connect call.callback) none))) _
      _).moves.grows.1
  obtain ⟨es, he⟩ := hbefore
  obtain ⟨es', he'⟩ := hafter
  rw [← he', ← he, List.append_assoc, List.append_assoc, List.drop_left]
  refine List.mem_filterMap.2
    ⟨.l2cap (.connectCb net.l2cap.allocated (.client .connect call.callback) none), by simp, ?_⟩
  exact if_pos rfl

/-- **No call that cannot proceed is reported.**  Where it finds no ACL, the callback is never called. -/
theorem not_reported_of_cannotProceed (host : L2capHost) (client : NetClient) (depth : Nat) (net : AclNet)
    (call : OutgoingCall) (h : net.CannotProceed call) :
    ¬ net.Reported (net.bteL2capNewOutgoing (NetHost.client host client depth) call) ∧
    (net.bteAclGetForAddress call.address = none → connectReplies net.l2cap.allocated
      ((net.bteL2capNewOutgoing (NetHost.client host client depth) call).log.drop net.log.length) = []) := by
  unfold AclNet.CannotProceed at h
  split at h
  · rename_i a hf
    have hmem := connectReplies_full (calling_client host client depth) net call hf h
    refine ⟨fun hr => ?_, fun hn => absurd (hf.symm.trans hn) nofun⟩
    obtain ⟨⟨r, -, hreplies⟩, -⟩ := hr
    rw [hreplies] at hmem
    cases List.mem_singleton.1 hmem
  · rename_i hf
    have hnil := connectReplies_refused net (NetHost.client host client depth) call hf h
    refine ⟨fun hr => ?_, fun _ => hnil⟩
    obtain ⟨⟨r, -, hreplies⟩, -⟩ := hr
    rw [hnil] at hreplies
    cases hreplies

theorem cannotProceed_of_refused {net : AclNet} {call : OutgoingCall} (hf : net.bteAclGetForAddress call.address = none)
    (hroom : net.roomFor 0x05 0x01 16 = false) : net.CannotProceed call := by
  rw [AclNet.CannotProceed, hf]
  exact .inr hroom

/-- The first device is being connected, and its Command Status has not come. -/
def connectingNet : AclNet := .after smallHost noRetry 1 oneClient fullCredit [outgoing deviceOne false 0]

def secondCall : OutgoingCall := ⟨0, deviceTwo, 1, false, 1, 0⟩

theorem not_reported_secondCall :
    ¬ connectingNet.Reported (connectingNet.bteL2capNewOutgoing (NetHost.client smallHost noRetry 1) secondCall) :=
  (not_reported_of_cannotProceed smallHost noRetry 1 connectingNet secondCall
    (cannotProceed_of_refused (by decide) (by decide))).1

/-- The second Create Connection is refused: no callback, and an ACL that the next call for its address joins. -/
theorem secondCall_lost :
    connectingNet.CannotProceed secondCall ∧
    ¬ connectingNet.Reported (connectingNet.bteL2capNewOutgoing (NetHost.client smallHost noRetry 1) secondCall) ∧
    (connectingNet.bteL2capNewOutgoing (NetHost.client smallHost noRetry 1) secondCall).HalfBuilt 1 := by
  refine ⟨cannotProceed_of_refused (by decide) (by decide), fun h => ?_, ?_⟩
  · obtain ⟨⟨r, -, hr⟩, -⟩ := h
    have hnil : connectReplies connectingNet.l2cap.allocated
        ((connectingNet.bteL2capNewOutgoing (NetHost.client smallHost noRetry 1) secondCall).log.drop
          connectingNet.log.length) = [] := by decide
    rw [hnil] at hr
    cases hr
  · exact ⟨⟨1, by decide⟩, by decide, by decide⟩

end Bte
