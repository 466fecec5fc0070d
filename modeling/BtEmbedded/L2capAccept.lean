import BtEmbedded.L2capOwn
import BtEmbedded.L2capReceived
import BtEmbedded.L2capSplit
/-!
# L2capAccept — the answer to a Connection Request (l2cap.c, l2cap_server.c)

The server sets its callback on whatever `_bte_l2cap_new_connected` gives it, and that is NULL if the table of the ACL
is full.
`bte_l2cap_on_state_changed` asserts that it is not: a peer that asks for a fifth channel stops the program, where it should
have been refused.
-/
namespace Bte

open Bytes

/-! ## With the assertion -/

/-- `bte_l2cap_on_state_changed`; nothing if its assertion fails. -/
def bteL2capOnStateChanged (w : L2capLink) (l2cap : Option Nat) (callback : StateChangedCb) : Option L2capLink :=
  l2cap.map fun p => w.modify p fun l2cap => { l2cap with stateChangedCb := callback }

/-- `l2cap_server_handle_connection_req`, which does not get past a failed assertion. -/
def l2capServerHandleConnectionReqAsserted (host : L2capHost) (w : L2capLink) (psm channelId : Nat) :
    Option (Option Nat × L2capLink) :=
  if host.serverForPsm psm then
    let new := bteL2capNewConnected w psm channelId
    (bteL2capOnStateChanged new.2 new.1 .server).map fun w => (new.1, w)
  else some (none, w)

def aclL2capHandleConnectionReqAsserted (host : L2capHost) (w : L2capLink) (id : Nat) (reader : List UInt8) (reqLen : Nat) :
    Option Handled :=
  match readSignalHeader reader reqLen 4 with
  | (none, reader) => some (.of false reader w)
  | (some header, reader) =>
    let psm := word header 0
    let channelId := word header 1
    match l2capServerHandleConnectionReqAsserted host w psm channelId with
    | none => none
    | some (none, w) => some (.of true reader (l2capConnectionReqReply host w id 0 channelId connRespResErrPsm))
    | some (some p, w) =>
      let w := l2capConnectionReqReply host w id (w.channels p).localChannelId channelId connRespResOk
      some (.of true reader (l2capSetState host w p .waitConfig))

section Asserted
variable {host : L2capHost} {w : L2capLink} {psm channelId id : Nat}

theorem server_asserted {r : Option Nat × L2capLink}
    (h : l2capServerHandleConnectionReqAsserted host w psm channelId = some r) :
    l2capServerHandleConnectionReq host w psm channelId = r := by
  unfold l2capServerHandleConnectionReqAsserted bteL2capOnStateChanged at h
  unfold l2capServerHandleConnectionReq
  split
  · rename_i hserver
    rw [if_pos hserver] at h
    rcases hnew : bteL2capNewConnected w psm channelId with ⟨new, w₁⟩
    rw [hnew] at h
    cases new with
    | none => cases h
    | some p =>
      cases h
      rfl
  · rename_i hserver
    rw [if_neg hserver] at h
    cases h
    rfl

/-- **Where the assertion holds, the handler does what it does without it.** -/
theorem handleConnectionReq_asserted {reader : List UInt8} {reqLen : Nat} {h : Handled}
    (hasserted : aclL2capHandleConnectionReqAsserted host w id reader reqLen = some h) :
    aclL2capHandleConnectionReq host w id reader reqLen = h := by
  unfold aclL2capHandleConnectionReqAsserted at hasserted
  unfold aclL2capHandleConnectionReq withSignalHeader
  rcases hheader : readSignalHeader reader reqLen 4 with ⟨header, rest⟩
  rw [hheader] at hasserted
  cases header with
  | none =>
    cases hasserted
    rfl
  | some header =>
    simp only at hasserted ⊢
    split at hasserted
    · cases hasserted
    · rename_i heq
      rw [server_asserted heq]
      cases hasserted
      rfl
    · rename_i heq
      rw [server_asserted heq]
      cases hasserted
      rfl

end Asserted

/-! ## A place in the table -/

section Room
variable {w : L2capLink} {psm channelId : Nat}

/-- There is a place for one more channel. -/
def L2capLink.Room (w : L2capLink) : Prop := ∃ i, w.clients i = none

instance (w : L2capLink) : Decidable w.Room := inferInstanceAs (Decidable (∃ i, w.clients i = none))

theorem newConnected_isSome_iff : (bteL2capNewConnected w psm channelId).1.isSome ↔ w.Room := by
  have hadd : (aclL2capAddClient (w.alloc false).2 (w.alloc false).1).isSome ↔ w.Room := by
    unfold aclL2capAddClient L2capLink.Room
    rw [Option.isSome_map, List.find?_isSome]
    simp [L2capLink.alloc, L2capLink.record]
  rw [← hadd]
  unfold bteL2capNewConnected
  simp only
  split
  · rename_i hnone
    simp only [hnone, Option.isSome_none]
  · rename_i hsome
    simp only [hsome, Option.isSome_some]

/-- What the peer's channel is when its server has it. -/
theorem served_room {host : L2capHost} (hserver : host.serverForPsm psm) (hroom : w.Room) :
    ∃ u, l2capServerHandleConnectionReqAsserted host w psm channelId = some (some w.allocated, u) ∧ u.Tabled w.allocated ∧
      (u.channels w.allocated).localChannelId = w.nextChannelId.1 ∧ u.dev = w.dev ∧
      u.log = w.log ++ [.created w.allocated false] := by
  obtain ⟨p, hp⟩ := Option.isSome_iff_exists.1 ((@newConnected_isSome_iff w psm channelId).2 hroom)
  have hnew : bteL2capNewConnected w psm channelId = (some p, (bteL2capNewConnected w psm channelId).2) := Prod.ext hp rfl
  obtain ⟨rfl, i, -, hw⟩ := newConnected_some hnew
  unfold l2capServerHandleConnectionReqAsserted bteL2capOnStateChanged
  rw [if_pos hserver]
  simp only
  rw [hp, hw]
  refine ⟨_, rfl, ⟨i, ?_⟩, ?_, rfl, rfl⟩
  · simp [L2capLink.modify]
  · simp [L2capLink.modify]

theorem served_full {host : L2capHost} (hserver : host.serverForPsm psm) (hfull : ¬ w.Room) :
    l2capServerHandleConnectionReqAsserted host w psm channelId = none := by
  have hnone : (bteL2capNewConnected w psm channelId).1 = none := by
    rw [← Option.not_isSome_iff_eq_none, newConnected_isSome_iff]
    exact hfull
  unfold l2capServerHandleConnectionReqAsserted bteL2capOnStateChanged
  rw [if_pos hserver]
  simp only
  rw [hnone]
  rfl

end Room

/-! ## The answer -/

/-- The body of a Connection Response. -/
def connectionRsp (localId remoteId result : Nat) : List UInt8 :=
  leBytes 2 localId ++ leBytes 2 remoteId ++ leBytes 2 result ++ leBytes 2 connRespStatusNoInfo

theorem connectionRsp_inj {a a' b b' c c' : Nat} (ha : a < 65536) (ha' : a' < 65536) (hc : c < 65536) (hc' : c' < 65536)
    (h : connectionRsp a b c = connectionRsp a' b' c') : a = a' ∧ c = c' := by
  have hlen : ∀ x y z : Nat, (leBytes 2 x ++ leBytes 2 y ++ leBytes 2 z).length = 6 := by simp
  obtain ⟨hbody, -⟩ := List.append_inj h ((hlen a b c).trans (hlen a' b' c').symm)
  obtain ⟨hids, hresult⟩ := List.append_inj hbody (by simp)
  obtain ⟨hlocal, -⟩ := List.append_inj hids (by simp)
  have hfirst := congrArg leVal hlocal
  have hthird := congrArg leVal hresult
  rw [leVal_leBytes, leVal_leBytes] at hfirst hthird
  omega

/-- The request is accepted: the response, sent while the channel is in the table and carried by its packets, names an
id of it
that no other channel had. -/
def Accepts (host : L2capHost) (id channelId : Nat) (w w' : L2capLink) : Prop :=
  ∃ p u localId, u.Tabled p ∧ (u.channels p).localChannelId = localId ∧ 0 < localId ∧ localId < 65536 ∧
    (∀ e ∈ w.table, e.2.localChannelId ≠ localId) ∧
    Sends w u [(l2capSignalConnRsp, id, connectionRsp localId channelId connRespResOk)] ∧
    CarriesReply host l2capSignalConnRsp id (connectionRsp localId channelId connRespResOk) ∧
    w' = l2capSetState host u p .waitConfig ∧ Sends u w' []

/-- It is refused, and the table is what it was. -/
def Refuses (host : L2capHost) (id channelId : Nat) (w w' : L2capLink) : Prop :=
  ∃ result, connRespResPending < result ∧ result < 65536 ∧ w'.table = w.table ∧
    Sends w w' [(l2capSignalConnRsp, id, connectionRsp 0 channelId result)] ∧
    CarriesReply host l2capSignalConnRsp id (connectionRsp 0 channelId result)

/-- **One response**, and no assertion that fails. -/
def ConnectionAnswered (host : L2capHost) (id channelId : Nat) (w : L2capLink) (outcome : Option Handled) : Prop :=
  ∃ h, outcome = some h ∧ (Accepts host id channelId w h.link ∨ Refuses host id channelId w h.link)

/-- A channel that has a server finds a place in the table and an id that no other has, and packets hold the headers of a
response. -/
def Acceptable (host : L2capHost) (w : L2capLink) (psm : Nat) : Prop :=
  host.HeadersFit ∧ (host.serverForPsm psm → w.Room ∧ ∀ e ∈ w.table, e.2.localChannelId ≠ w.nextChannelId.1)

section Answer
variable {host : L2capHost} {w : L2capLink} {psm channelId id reqLen : Nat} {tail : List UInt8}

/-- The handler, behind the header. -/
theorem handleConnectionReq_header (hpsm : psm < 65536) (hcid : channelId < 65536) (hlen : 4 ≤ reqLen) :
    aclL2capHandleConnectionReqAsserted host w id (leBytes 2 psm ++ leBytes 2 channelId ++ tail) reqLen =
      match l2capServerHandleConnectionReqAsserted host w psm channelId with
      | none => none
      | some (none, w) => some (.of true tail (l2capConnectionReqReply host w id 0 channelId connRespResErrPsm))
      | some (some p, w) => some (.of true tail (l2capSetState host
          (l2capConnectionReqReply host w id (w.channels p).localChannelId channelId connRespResOk) p .waitConfig)) := by
  obtain ⟨hword, hword'⟩ := word_header hpsm hcid
  have hhead : (leBytes 2 psm ++ leBytes 2 channelId).length = 4 := by simp
  unfold aclL2capHandleConnectionReqAsserted readSignalHeader
  rw [if_neg (Nat.not_lt.2 hlen), List.take_left' hhead, List.drop_left' hhead, if_neg (not_not.2 hhead)]
  simp only [hword, hword']

variable (hmtu : 8 ≤ host.aclMtu) (hmtu' : host.aclMtu < 65536)
include hmtu hmtu'

/-- A response can always be made. -/
theorem sends_connectionReqReply (w : L2capLink) (localId result : Nat) :
    Sends w (l2capConnectionReqReply host w id localId channelId result)
      [(l2capSignalConnRsp, id, connectionRsp localId channelId result)] :=
  sends_cmdReply host w (createCmd_small hmtu hmtu' _ _ (by simp)) none

omit hmtu hmtu' in
/-- It touches no channel. -/
theorem connectionReqReply_keeps (w : L2capLink) (localId result : Nat) :
    (l2capConnectionReqReply host w id localId channelId result).channels = w.channels ∧
      (l2capConnectionReqReply host w id localId channelId result).clients = w.clients := by
  unfold l2capConnectionReqReply aclL2capCmdReply
  cases aclL2capCreateCmd host l2capSignalConnRsp id _ with
  | none => exact ⟨rfl, rfl⟩
  | some writer => exact ⟨rfl, rfl⟩

/-- **A channel that finds its place is accepted**, under the next local id. -/
theorem accepts_room (hh : host.Silent) (hpsm : psm < 65536) (hcid : channelId < 65536) (hlen : 4 ≤ reqLen)
    (hserver : host.serverForPsm psm) (hroom : w.Room) :
    ∃ h u, aclL2capHandleConnectionReqAsserted host w id (leBytes 2 psm ++ leBytes 2 channelId ++ tail) reqLen = some h ∧
      u.Tabled w.allocated ∧ (u.channels w.allocated).localChannelId = w.nextChannelId.1 ∧
      Sends w u [(l2capSignalConnRsp, id, connectionRsp w.nextChannelId.1 channelId connRespResOk)] ∧
      h.link = l2capSetState host u w.allocated .waitConfig ∧ Sends u h.link [] := by
  obtain ⟨v, hv, htabled, hlocal, -, hlog⟩ := @served_room w psm channelId host hserver hroom
  rw [handleConnectionReq_header hpsm hcid hlen, hv]
  have hkeeps := @connectionReqReply_keeps host channelId id v w.nextChannelId.1 connRespResOk
  have hcreated : Sends w v [] := ⟨[.created w.allocated false], hlog, rfl⟩
  have hsends := hcreated.left (@sends_connectionReqReply host channelId id hmtu hmtu' v w.nextChannelId.1 connRespResOk)
  simp only [hlocal]
  generalize l2capConnectionReqReply host v id w.nextChannelId.1 channelId connRespResOk = u at hkeeps hsends ⊢
  refine ⟨_, u, rfl, ?_, ?_, hsends, rfl, sends_setState hh u _ _⟩
  · obtain ⟨i, hi⟩ := htabled
    exact ⟨i, (congrFun hkeeps.2 i).trans hi⟩
  · rw [hkeeps.1]
    exact hlocal

theorem refuses_unserved (hpsm : psm < 65536) (hcid : channelId < 65536) (hlen : 4 ≤ reqLen)
    (hserver : ¬ host.serverForPsm psm) :
    ∃ h, aclL2capHandleConnectionReqAsserted host w id (leBytes 2 psm ++ leBytes 2 channelId ++ tail) reqLen = some h ∧
      h.link.table = w.table ∧ Sends w h.link [(l2capSignalConnRsp, id, connectionRsp 0 channelId connRespResErrPsm)] := by
  rw [handleConnectionReq_header hpsm hcid hlen, l2capServerHandleConnectionReqAsserted, if_neg hserver]
  have hkeeps := @connectionReqReply_keeps host channelId id w 0 connRespResErrPsm
  have hsends := @sends_connectionReqReply host channelId id hmtu hmtu' w 0 connRespResErrPsm
  refine ⟨_, rfl, ?_, hsends⟩
  show channelTable _ _ = channelTable _ _
  exact congrArg₂ channelTable hkeeps.2 hkeeps.1

end Answer

/-- The id that the next channel is given. -/
theorem nextChannelId_bounds {w : L2capLink} (h : w.nextLocalChannelId < 65536) :
    0 < w.nextChannelId.1 ∧ w.nextChannelId.1 < 65536 := by
  unfold L2capLink.nextChannelId
  simp only
  split <;> omega

/-- The body of a response has eight bytes. -/
theorem length_connectionRsp (localId remoteId result : Nat) : (connectionRsp localId remoteId result).length ≤ 8 := by
  simp [connectionRsp]

/-- **A Connection Request is answered as it should be if and only if** the packets hold the headers of the response,
and nobody
serves its PSM, or the table of the ACL has a place and the next local id is not in use.  With a full table and a server, the
assertion fails. -/
theorem connection_answered_iff (host : L2capHost) (hmtu : 4 < host.aclMtu) (hmtu' : host.aclMtu < 65536)
    (hc : host.connHandle ≤ 0xfff) {w : L2capLink} (hnext : w.nextLocalChannelId < 65536) (id : Nat)
    {psm channelId reqLen : Nat} (hpsm : psm < 65536) (hcid : channelId < 65536) (tail : List UInt8) (hlen : 4 ≤ reqLen) :
    ConnectionAnswered host.unheard id channelId w
        (aclL2capHandleConnectionReqAsserted host.unheard w id (leBytes 2 psm ++ leBytes 2 channelId ++ tail) reqLen) ↔
      Acceptable host w psm := by
  have hcarried : ∀ localId result,
      CarriesReply host.unheard l2capSignalConnRsp id (connectionRsp localId channelId result) ↔
      host.HeadersFit := fun localId result =>
    @carriesReply_iff host.unheard hmtu hmtu' hc l2capSignalConnRsp id _ (length_connectionRsp localId channelId result)
  obtain ⟨hpos, hlt⟩ := nextChannelId_bounds hnext
  by_cases hfit : host.HeadersFit
  swap
  · refine iff_of_false ?_ fun hcan => hfit hcan.1
    rintro ⟨h, -, ⟨p, u, localId, -, -, -, -, -, -, hpackets, -⟩ | ⟨result, -, -, -, -, hpackets⟩⟩
    · exact hfit ((hcarried localId _).1 hpackets)
    · exact hfit ((hcarried 0 result).1 hpackets)
  have hmtu : 8 ≤ host.aclMtu := by
    have := hfit.1
    omega
  by_cases hserver : host.serverForPsm psm
  · by_cases hroom : w.Room
    · obtain ⟨h, u, houtcome, htabled, hlocal, hsends, hlink, hsilent⟩ :=
        @accepts_room host.unheard w psm channelId id reqLen tail hmtu hmtu' (silent_unheard host) hpsm hcid
            hlen hserver hroom
      constructor
      · rintro ⟨h', houtcome', hanswer⟩
        cases houtcome.symm.trans houtcome'
        refine ⟨hfit, fun _ => ⟨hroom, ?_⟩⟩
        have hall := hsends.right hsilent
        rcases hanswer with
          ⟨p, u', localId, -, -, -, hlocalId, hfresh, hsends', -, -, hsilent'⟩ | ⟨result, herr, hresult, -, hsends', -⟩
        · -- the response names the next id
          have hsame := hall.new.symm.trans (hsends'.right hsilent').new
          simp only [List.cons.injEq, Prod.mk.injEq, true_and, and_true] at hsame
          rw [(connectionRsp_inj hlt hlocalId (by decide) (by decide) hsame).1]
          exact hfresh
        · have hsame := hall.new.symm.trans hsends'.new
          simp only [List.cons.injEq, Prod.mk.injEq, true_and, and_true] at hsame
          rw [← (connectionRsp_inj hlt (by decide) (by decide) hresult hsame).2] at herr
          exact absurd herr (by decide)
      · intro hcan
        exact ⟨h, houtcome, .inl ⟨w.allocated, u, w.nextChannelId.1, htabled, hlocal, hpos, hlt, (hcan.2 hserver).2, hsends,
          (hcarried _ _).2 hfit, hlink, hsilent⟩⟩
    · refine iff_of_false ?_ fun hcan => hroom (hcan.2 hserver).1
      rintro ⟨h, houtcome, -⟩
      rw [handleConnectionReq_header hpsm hcid hlen, @served_full w psm channelId host.unheard hserver hroom] at houtcome
      cases houtcome
  · obtain ⟨h, houtcome, htable, hsends⟩ :=
      @refuses_unserved host.unheard w psm channelId id reqLen tail hmtu hmtu' hpsm hcid hlen hserver
    exact iff_of_true ⟨h, houtcome, .inr ⟨connRespResErrPsm, by decide, by decide, htable, hsends, (hcarried _ _).2 hfit⟩⟩
      ⟨hfit, fun hserved => absurd hserved hserver⟩

/-! ## A fifth channel -/

/-- The peer has connected as many channels as the table holds. -/
def crowdedLink : L2capLink :=
  Sys.run (L2capLink.step (plainHost.client keepChannels 1)) (.start (freeDev 8)) (List.replicate 4 peerConnects)

/-- **A fifth request stops the program.** -/
theorem connection_not_answered :
    ¬ ConnectionAnswered plainHost.unheard 9 0x54 crowdedLink
      (aclL2capHandleConnectionReqAsserted plainHost.unheard crowdedLink 9 (leBytes 2 1 ++ leBytes 2 0x54) 4) := by
  rintro ⟨h, houtcome, -⟩
  have hstopped : (aclL2capHandleConnectionReqAsserted plainHost.unheard crowdedLink 9 (leBytes 2 1 ++ leBytes 2 0x54)
      4).isNone := by decide
  rw [houtcome] at hstopped
  cases hstopped

/-- Three channels of the peer. -/
def threeLink : L2capLink :=
  Sys.run (L2capLink.step (plainHost.client keepChannels 1)) (.start (freeDev 8)) (List.replicate 3 peerConnects)

/-- A fourth finds its place. -/
theorem connection_answered_iff_fourth : threeLink.table.length = 3 ∧
    ConnectionAnswered plainHost.unheard 9 0x54 threeLink
      (aclL2capHandleConnectionReqAsserted plainHost.unheard threeLink 9 (leBytes 2 1 ++ leBytes 2 0x54 ++ []) 4) :=
  ⟨by decide, (connection_answered_iff plainHost (by decide) (by decide) (by decide) (by decide) 9 (by decide) (by decide) []
    (by decide)).2 ⟨by decide, fun _ => ⟨by decide, by decide⟩⟩⟩

end Bte
