import BtEmbedded.ServerCustody
/-!
# ScanModes — what the controller is told to scan for (hci.c, hci_dev.c, l2cap_server.c)

Each client has a mode, and a scan command carries the modes of all clients (`_bte_hci_dev_combined_scan_mode`).  Between
two commands a client can only go, so the last command covers the modes of those that are there (`Scanned`).  A server
that listens has the page scan in the mode of its client, since it is taken out only when there is no server left
(`Listening`).
-/
namespace Bte

namespace Serving

variable {s s' s'' : Serving}

/-! ## The combined mode -/

/-- The scan command that was sent last. -/
def lastScan (s : Serving) : UInt8 :=
  ((s.commands.filterMap fun
    | .writeScanEnable mode => some mode
    | _ => none).getLast?).getD 0

def slotMode (s : Serving) (i : Fin 4) : UInt8 :=
  match s.clients i with
  | none => 0
  | some h => (s.client h).scanMode

theorem combinedScanMode_eq (s : Serving) :
    s.combinedScanMode = ((List.finRange 4).map s.slotMode).foldl (· ||| ·) 0 := by
  unfold combinedScanMode
  rw [List.foldl_map]
  congr 1
  funext mode i
  unfold slotMode
  cases s.clients i with
  | none => exact UInt8.or_zero.symm
  | some h => rfl

theorem mem_or_foldl {m : UInt8} : ∀ {l : List UInt8} {a : UInt8}, m ∈ l →
    m ||| l.foldl (· ||| ·) a = l.foldl (· ||| ·) a
  | n :: l, a, h => by
    rw [List.foldl_cons]
    rcases List.mem_cons.1 h with rfl | h
    · have hassoc : l.foldl (· ||| ·) (a ||| m) = m ||| l.foldl (· ||| ·) a := by
        rw [UInt8.or_comm, List.foldl_assoc]
      rw [hassoc, ← UInt8.or_assoc, UInt8.or_self]
    · exact mem_or_foldl h

theorem slotMode_or_combined (s : Serving) (i : Fin 4) : s.slotMode i ||| s.combinedScanMode = s.combinedScanMode := by
  rw [combinedScanMode_eq]
  exact mem_or_foldl (List.mem_map_of_mem (List.mem_finRange i))

theorem combined_congr (h : s'.slotMode = s.slotMode) : s'.combinedScanMode = s.combinedScanMode := by
  rw [combinedScanMode_eq, combinedScanMode_eq, h]

/-- Bits that a mode has are in what covers it. -/
theorem and_of_covers {m l p : UInt8} (h : m ||| l = l) (hp : m &&& p = p) : l &&& p = p := by
  have h' : m.toBitVec ||| l.toBitVec = l.toBitVec := congrArg UInt8.toBitVec h
  have hp' : m.toBitVec &&& p.toBitVec = p.toBitVec := congrArg UInt8.toBitVec hp
  refine UInt8.toBitVec_inj.1 (BitVec.eq_of_getElem_eq fun i hi => ?_)
  have hm : (m.toBitVec[i] || l.toBitVec[i]) = l.toBitVec[i] := by rw [← BitVec.getElem_or, h']
  have hmp : (m.toBitVec[i] && p.toBitVec[i]) = p.toBitVec[i] := by rw [← BitVec.getElem_and, hp']
  rw [UInt8.toBitVec_and, BitVec.getElem_and]
  revert hm hmp
  cases m.toBitVec[i] <;> cases l.toBitVec[i] <;> cases p.toBitVec[i] <;> decide

/-- The last command covers the modes of the clients, and has nothing else unless one of them has gone. -/
structure Scanned (s : Serving) : Prop where
  covered : ∀ i, s.slotMode i ||| s.lastScan = s.lastScan
  exact : s.scanLeft = false → s.lastScan = s.combinedScanMode

/-- The modes and the last command are the same. -/
structure SameScan (s s' : Serving) : Prop where
  slotMode : s'.slotMode = s.slotMode
  lastScan : s'.lastScan = s.lastScan
  scanLeft : s'.scanLeft = s.scanLeft

theorem SameScan.refl (s : Serving) : SameScan s s := ⟨rfl, rfl, rfl⟩

theorem SameScan.trans (h : SameScan s s') (h' : SameScan s' s'') : SameScan s s'' :=
  ⟨h'.slotMode.trans h.slotMode, h'.lastScan.trans h.lastScan, h'.scanLeft.trans h.scanLeft⟩

theorem Scanned.same (hs : Scanned s) (h : SameScan s s') : Scanned s' where
  covered i := by
    rw [h.slotMode, h.lastScan]
    exact hs.covered i
  exact hl := by
    rw [h.lastScan, combined_congr h.slotMode]
    exact hs.exact (h.scanLeft ▸ hl)

theorem slotMode_setClient {h : Hci} {c : ServingClient} (hc : c.scanMode = (s.client h).scanMode) :
    (s.setClient h c).slotMode = s.slotMode := by
  funext i
  unfold slotMode
  show (match s.clients i with | none => 0 | some h' => ((s.setClient h c).client h').scanMode) = _
  cases s.clients i with
  | none => rfl
  | some h' =>
    simp only [setClient_client]
    split
    · rename_i heq
      rw [heq, hc]
    · rfl

theorem modes_setClient {h : Hci} {c : ServingClient} (hc : c.scanMode = (s.client h).scanMode) :
    SameScan s (s.setClient h c) := ⟨slotMode_setClient hc, rfl, rfl⟩

theorem modes_onRequest (h : Hci) (kind : RequestKind) (callback : Option RequestCb) :
    SameScan s (s.bteHciOnRequest h kind callback) := by
  have hset : SameScan s (s.setClient h { s.client h with
    requestCb := Function.update (s.client h).requestCb kind callback }) := modes_setClient rfl
  exact ⟨hset.slotMode, rfl, rfl⟩

/-- Commands that are not about scans. -/
theorem modes_append (commands : List ServingCommand) (hc : ∀ c ∈ commands, ∀ mode, c ≠ .writeScanEnable mode)
    (hclients : s'.clients = s.clients) (hclient : s'.client = s.client) (hleft : s'.scanLeft = s.scanLeft)
    (hcommands : s'.commands = s.commands ++ commands) : SameScan s s' := by
  refine ⟨?_, ?_, hleft⟩
  · funext i
    rw [slotMode, slotMode, hclients, hclient]
  · unfold lastScan
    rw [hcommands, List.filterMap_append]
    have hnone : (commands.filterMap fun
        | .writeScanEnable mode => some mode
        | _ => none) = ([] : List UInt8) := by
      refine List.filterMap_eq_nil_iff.2 fun c hmem => ?_
      cases c with
      | writeScanEnable mode => exact absurd rfl (hc _ hmem mode)
      | acceptConnection | rejectConnection | linkKeyReqNegReply | pinCodeReqNegReply | authRequested => rfl
    rw [hnone, List.append_nil]

theorem scanned_writeScanEnable (hs : Scanned s) (h : Hci) (mode : UInt8) (taken : Bool) :
    Scanned (s.bteHciWriteScanEnable h mode taken) := by
  unfold bteHciWriteScanEnable
  split
  · have hlast : ∀ t : Serving, ∀ m, (t.send true (.writeScanEnable m)).lastScan = m := by
      intro t m
      unfold lastScan
      show ((List.filterMap _ (t.commands ++ [.writeScanEnable m])).getLast?).getD 0 = m
      rw [List.filterMap_append]
      exact congrArg (Option.getD · 0) (List.getLast?_append_of_ne_nil _ (by simp))
    exact ⟨fun i => (hlast _ _).symm ▸ slotMode_or_combined _ i, fun _ => hlast _ _⟩
  · exact hs

/-- A client that goes takes its mode out of the slots, not out of what was sent. -/
theorem scanned_clientUnref (hs : Scanned s) (h : Hci) : Scanned (s.bteClientUnref h) := by
  have hset : SameScan s (s.setClient h { s.client h with refCount := (s.client h).refCount - 1 }) := modes_setClient rfl
  have hs' := hs.same hset
  unfold bteClientUnref
  split
  · generalize s.setClient h { s.client h with refCount := (s.client h).refCount - 1 } = t at hs'
    have hslot : ∀ i, (t.bteClientFree h).slotMode i = if t.clients i = some h then 0 else t.slotMode i := by
      intro i
      unfold slotMode
      show (match (if t.clients i = some h then none else t.clients i) with
        | none => 0 | some h' => (t.client h').scanMode) = _
      split
      · rename_i hi
        by_cases heq : t.clients i = some h
        · rw [if_pos heq]
        · rw [if_neg heq] at hi ⊢
          rw [hi]
      · rename_i h' hi
        by_cases heq : t.clients i = some h
        · rw [if_pos heq] at hi
          cases hi
        · rw [if_neg heq] at hi ⊢
          rw [hi]
    constructor
    · intro i
      rw [hslot]
      split
      · exact UInt8.zero_or
      · exact hs'.covered i
    · intro hl
      have hl' : t.scanLeft = false ∧ (t.client h).scanMode = 0 := by
        have : (t.scanLeft || decide ((t.client h).scanMode ≠ 0)) = false := hl
        simpa using this
      refine (hs'.exact hl'.1).trans (combined_congr ?_).symm
      funext i
      rw [hslot]
      split
      · rename_i heq
        rw [slotMode, heq]
        exact hl'.2.symm
      · rfl
  · exact hs'

theorem scanned_withClient {i : Fin 4} (hs : Scanned s) (hc : Custody none s) (hfree : s.clients i = none) :
    Scanned (s.withClient i) := by
  have hnone : ∀ j, s.clients j ≠ some s.madeClients := by
    intro j hj
    exact absurd (hc.madeClient _ ((hc.slots _).2 ⟨j, hj⟩)) (Nat.lt_irrefl _)
  have hslot : (s.withClient i).slotMode = s.slotMode := by
    funext j
    have hclients : (s.withClient i).clients j = if j = i then some s.madeClients else s.clients j :=
      Function.update_apply ..
    have hclient : ∀ h, (s.withClient i).client h = if h = s.madeClients then ⟨1, 0, fun _ => none, 0⟩ else s.client h :=
      fun h => setClient_client ..
    unfold slotMode
    rw [hclients]
    by_cases hj : j = i
    · subst hj
      rw [if_pos rfl, hfree]
      simp only [hclient, if_pos]
    · rw [if_neg hj]
      cases hcl : s.clients j with
      | none => rfl
      | some h =>
        simp only [hclient]
        rw [if_neg]
        rintro rfl
        exact hnone j hcl
  exact hs.same ⟨hslot, rfl, rfl⟩

theorem scanned_serverUnref (hs : Scanned s) (p : Ptr) (taken : Bool) : Scanned (s.bteL2capServerUnref p taken) := by
  have hset : Scanned (s.setServer p { s.server p with refCount := (s.server p).refCount - 1 }) :=
    hs.same ⟨rfl, rfl, rfl⟩
  unfold bteL2capServerUnref
  split
  · have hun : Scanned ((s.setServer p { s.server p with refCount := (s.server p).refCount - 1 }).unlist p) :=
      hset.same ⟨rfl, rfl, rfl⟩
    refine scanned_clientUnref ?_ _
    unfold endScan
    split
    · exact scanned_writeScanEnable hun _ _ _
    · exact hun
  · exact hset

theorem modes_proceed (r : RequestEvent) (taken : Bool) (f : Found) : SameScan s (s.proceed r taken f) := by
  cases f with
  | ask slot l => exact ⟨rfl, rfl, rfl⟩
  | accept h p =>
    unfold proceed accept
    cases taken with
    | true =>
      refine modes_append [_] (fun c hc mode => ?_) rfl rfl rfl rfl
      cases List.mem_singleton.1 hc
      exact ServingCommand.noConfusion
    | false => exact modes_append [] (fun _ hc => nomatch hc) rfl rfl rfl rfl
  | nobody =>
    refine modes_append (if taken then some (refusal r) else none).toList (fun c hc mode => ?_) rfl rfl rfl rfl
    cases taken with
    | true =>
      cases List.mem_singleton.1 hc
      unfold refusal
      cases r.kind <;> exact ServingCommand.noConfusion
    | false => cases hc

theorem modes_resume (a : Asking) (ret taken : Bool) : SameScan s (s.resume a ret taken) := by
  have hon : SameScan s ((s.decline a.listener).proceed a.request taken (s.searchOn a)) :=
    have hdecline : SameScan s (s.decline a.listener) := ⟨rfl, rfl, rfl⟩
    hdecline.trans (modes_proceed _ _ _)
  have hstay : SameScan s (s.answer a.request (some a.listener) none) :=
    modes_append [] (fun _ hc => nomatch hc) rfl rfl rfl rfl
  unfold resume
  split
  · split
    · exact hstay
    · exact hon
  · split
    · exact ⟨rfl, rfl, rfl⟩
    · split
      · exact modes_proceed a.request taken (.accept _ _)
      · exact hon

theorem modes_accepted (h : Hci) (p : Ptr) (status : UInt8) (connHandle : UInt16) (taken room : Bool) :
    SameScan s (s.hciAcceptConnectionCb h p status connHandle taken room) := by
  have hauth : SameScan s (s.authenticate h p connHandle taken) := by
    unfold authenticate sendAsync
    split
    · split
      · refine modes_append [_] (fun c hc mode => ?_) rfl rfl rfl rfl
        cases List.mem_singleton.1 hc
        exact ServingCommand.noConfusion
      · exact .refl s
    · exact .refl s
  unfold hciAcceptConnectionCb
  split
  · exact .refl s
  · split
    · exact ⟨rfl, rfl, rfl⟩
    · refine hauth.trans ?_
      unfold l2capAclNewConnected
      split
      · have href : SameScan _ ((s.authenticate h p connHandle taken).bteClientRef h) := modes_setClient rfl
        exact ⟨href.slotMode, rfl, rfl⟩
      · exact ⟨rfl, rfl, rfl⟩

theorem scanned_act (hk : Kept s) (hs : Scanned s) (o : ServingOp) : Scanned (s.act o) := by
  have hsame : ∀ t : Serving, SameScan s t → Scanned t := fun _ h => hs.same h
  cases o with
  | clientNew =>
    show Scanned s.bteClientNew
    unfold bteClientNew
    split
    · exact hsame _ ⟨rfl, rfl, rfl⟩
    · rename_i i hi
      exact scanned_withClient hs hk.1 (freeSlot_some hi)
  | clientRef h =>
    have href : SameScan s (s.bteClientRef h) := modes_setClient rfl
    exact hsame _ ⟨href.slotMode, rfl, rfl⟩
  | clientUnref h =>
    exact scanned_clientUnref (hsame { s with held := Function.update s.held h (s.held h - 1) } ⟨rfl, rfl, rfl⟩) h
  | setUserdata h u => exact hsame _ (modes_setClient rfl)
  | onRequest h kind callback => exact hsame _ (modes_onRequest h kind _)
  | writeScanEnable h mode taken => exact scanned_writeScanEnable hs h mode taken
  | asyncCommand h taken =>
    show Scanned (if taken then { s with unsettled := s.unsettled ++ [h] } else s)
    split
    · exact hsame _ ⟨rfl, rfl, rfl⟩
    · exact hs
  | serverNew h psm =>
    have href : SameScan s (s.bteClientRef h) := modes_setClient rfl
    exact hsame _ ⟨href.slotMode, rfl, rfl⟩
  | serverRef p => exact hsame _ ⟨rfl, rfl, rfl⟩
  | serverUnref p taken => exact scanned_serverUnref hs p taken
  | setNeedsAuth p b => exact hsame _ ⟨rfl, rfl, rfl⟩
  | setRole p role => exact hsame _ ⟨rfl, rfl, rfl⟩
  | onConnected p cb u taken =>
    refine scanned_writeScanEnable (hsame _ ?_) _ _ _
    have hset : SameScan s (s.setServer p { s.server p with connectedCb := cb, userdata := u }) := ⟨rfl, rfl, rfl⟩
    exact hset.trans (modes_onRequest _ _ _)
  | onConnectionRequest p cb u => exact hsame _ ⟨rfl, rfl, rfl⟩
  | request r taken =>
    have hrecv : SameScan s (s.receive r) := ⟨rfl, rfl, rfl⟩
    show Scanned (s.request r taken)
    unfold request
    split
    · exact hsame _ (hrecv.trans (modes_proceed _ _ _))
    · exact hs
  | returns ret taken =>
    show Scanned (s.returned ret taken)
    unfold returned
    split
    · exact hs
    · exact hsame _ (modes_resume _ _ _)
  | commandStatus h => exact hsame _ ⟨rfl, rfl, rfl⟩
  | accepted i reply taken room =>
    show Scanned (s.endAccept i reply taken room)
    have hbefore : SameScan s { s with accepting := s.accepting.eraseIdx i } := ⟨rfl, rfl, rfl⟩
    unfold endAccept
    split
    · exact hs
    · simp only
      split
      · exact hsame _ hbefore
      · exact hsame _ (hbefore.trans (modes_accepted _ _ _ _ _ _))
  | aclFreed h => exact scanned_clientUnref (hsame { s with acls := s.acls.erase h } ⟨rfl, rfl, rfl⟩) h
  | connectionReq psm l2cap room =>
    refine hsame _ ?_
    show SameScan s (s.handleConnectionReq psm l2cap room)
    unfold handleConnectionReq
    split
    · split
      · exact .refl s
      · split
        · split <;> exact ⟨rfl, rfl, rfl⟩
        · exact ⟨rfl, rfl, rfl⟩
    · exact .refl s

/-! ## Servers that listen -/

/-- The client of a server that has a function for channels has the page scan in its mode. -/
def Listening (s : Serving) : Prop := ∀ p ∈ s.servers, (s.server p).connectedCb.isSome = true →
  (s.client (s.server p).hci).scanMode &&& bteHciScanEnablePage = bteHciScanEnablePage

/-- The servers, what they listen with and the modes are the same. -/
structure SameServers (s s' : Serving) : Prop where
  servers : s'.servers = s.servers
  hci : ∀ p, (s'.server p).hci = (s.server p).hci
  connectedCb : ∀ p, (s'.server p).connectedCb = (s.server p).connectedCb
  scanMode : ∀ h, (s'.client h).scanMode = (s.client h).scanMode

theorem SameServers.refl (s : Serving) : SameServers s s := ⟨rfl, fun _ => rfl, fun _ => rfl, fun _ => rfl⟩

theorem SameServers.trans (h : SameServers s s') (h' : SameServers s' s'') : SameServers s s'' where
  servers := h'.servers.trans h.servers
  hci p := (h'.hci p).trans (h.hci p)
  connectedCb p := (h'.connectedCb p).trans (h.connectedCb p)
  scanMode c := (h'.scanMode c).trans (h.scanMode c)

theorem SameServers.listening (h : SameServers s s') (hl : Listening s) : Listening s' := by
  intro p hp hcb
  rw [h.hci, h.scanMode]
  exact hl p (h.servers ▸ hp) (h.connectedCb p ▸ hcb)

theorem servers_setClient {h : Hci} {c : ServingClient} (hc : c.scanMode = (s.client h).scanMode) :
    SameServers s (s.setClient h c) where
  servers := rfl
  hci _ := rfl
  connectedCb _ := rfl
  scanMode h' := by
    rw [setClient_client]
    split
    · rename_i heq
      rw [heq, hc]
    · rfl

theorem servers_setServer {p : Ptr} {v : L2capServer} (hh : v.hci = (s.server p).hci)
    (hcb : v.connectedCb = (s.server p).connectedCb) : SameServers s (s.setServer p v) where
  servers := rfl
  hci q := by
    rw [setServer_server]
    split
    · rename_i heq
      rw [heq, hh]
    · rfl
  connectedCb q := by
    rw [setServer_server]
    split
    · rename_i heq
      rw [heq, hcb]
    · rfl
  scanMode _ := rfl

theorem servers_clientUnref (h : Hci) : SameServers s (s.bteClientUnref h) := by
  have hset : SameServers s (s.setClient h { s.client h with refCount := (s.client h).refCount - 1 }) :=
    servers_setClient rfl
  unfold bteClientUnref
  split
  · exact ⟨hset.servers, hset.hci, hset.connectedCb, hset.scanMode⟩
  · exact hset

/-- A mode with the page scan in it. -/
theorem listening_writeScanEnable (hl : Listening s) (h : Hci) {mode : UInt8}
    (hm : mode &&& bteHciScanEnablePage = bteHciScanEnablePage) (taken : Bool) :
    Listening (s.bteHciWriteScanEnable h mode taken) := by
  unfold bteHciWriteScanEnable
  split
  · intro p hp hcb
    show ((s.setClient h { s.client h with scanMode := mode }).client (s.server p).hci).scanMode &&& _ = _
    rw [setClient_client]
    split
    · exact hm
    · exact hl p hp hcb
  · exact hl

theorem listening_serverUnref (hl : Listening s) (p : Ptr) (taken : Bool) :
    Listening (s.bteL2capServerUnref p taken) := by
  have hset : SameServers s (s.setServer p { s.server p with refCount := (s.server p).refCount - 1 }) :=
    servers_setServer rfl rfl
  have hl' := hset.listening hl
  unfold bteL2capServerUnref
  split
  · rw [bteL2capServerFree]
    refine (servers_clientUnref _).listening ?_
    generalize s.setServer p { s.server p with refCount := (s.server p).refCount - 1 } = t at hl'
    have hun : Listening (t.unlist p) := fun q hq hcb => hl' q (mem_unlist.1 hq).1 hcb
    unfold endScan
    split
    · rename_i hempty
      intro q hq
      have hservers : ((t.unlist p).bteHciWriteScanEnable (t.server p).hci bteHciScanEnableOff taken).servers =
          (t.unlist p).servers := (alike_writeScanEnable _ _ _).servers
      rw [hservers, hempty] at hq
      cases hq
    · exact hun
  · exact hl'

end Serving

namespace ServingOp

/-- Every mode that a client writes has the page scan in it, and the table takes the servers' commands for it. -/
def Undisturbed : ServingOp → Prop
  | .writeScanEnable _ mode _ => mode &&& bteHciScanEnablePage = bteHciScanEnablePage
  | .onConnected _ _ _ taken => taken = true
  | _ => True

instance decidableUndisturbed : ∀ o : ServingOp, Decidable o.Undisturbed
  | .writeScanEnable .. | .onConnected .. => inferInstanceAs (Decidable (_ = _))
  | .clientNew | .clientRef _ | .clientUnref _ | .setUserdata .. | .onRequest .. | .asyncCommand .. | .serverNew ..
  | .serverRef _ | .serverUnref .. | .setNeedsAuth .. | .setRole .. | .onConnectionRequest .. | .request .. | .returns ..
  | .commandStatus _ | .accepted .. | .aclFreed _ | .connectionReq .. => .isTrue trivial

end ServingOp

namespace Serving

variable {s : Serving}

/-- The page scan for all servers of a client. -/
theorem listening_page {h : Hci} (hl : ∀ p ∈ s.servers, (s.server p).hci ≠ h → (s.server p).connectedCb.isSome = true →
    (s.client (s.server p).hci).scanMode &&& bteHciScanEnablePage = bteHciScanEnablePage) :
    Listening (s.bteHciWriteScanEnable h bteHciScanEnablePage true) := by
  intro p hp hcb
  show ((s.setClient h { s.client h with scanMode := bteHciScanEnablePage }).client (s.server p).hci).scanMode &&& _ = _
  rw [setClient_client]
  split
  · exact UInt8.and_self
  · rename_i hne
    exact hl p hp hne hcb

theorem servers_answer (r : RequestEvent) (granted : Option Listener) (command : Option ServingCommand) :
    SameServers s (s.answer r granted command) := ⟨rfl, fun _ => rfl, fun _ => rfl, fun _ => rfl⟩

theorem servers_accept (r : RequestEvent) (h : Hci) (p : Ptr) (taken : Bool) : SameServers s (s.accept r h p taken) := by
  unfold accept
  split
  · exact ⟨rfl, fun _ => rfl, fun _ => rfl, fun _ => rfl⟩
  · exact servers_answer _ _ _

theorem servers_proceed (r : RequestEvent) (taken : Bool) (f : Found) : SameServers s (s.proceed r taken f) := by
  cases f with
  | ask slot l => exact ⟨rfl, fun _ => rfl, fun _ => rfl, fun _ => rfl⟩
  | accept h p => exact servers_accept _ _ _ _
  | nobody => exact servers_answer _ _ _

theorem servers_resume (a : Asking) (ret taken : Bool) : SameServers s (s.resume a ret taken) := by
  have hon : SameServers s ((s.decline a.listener).proceed a.request taken (s.searchOn a)) := by
    have hdecline : SameServers s (s.decline a.listener) := ⟨rfl, fun _ => rfl, fun _ => rfl, fun _ => rfl⟩
    exact hdecline.trans (servers_proceed _ _ _)
  unfold resume
  split
  · split
    · exact servers_answer _ _ _
    · exact hon
  · split
    · exact ⟨rfl, fun _ => rfl, fun _ => rfl, fun _ => rfl⟩
    · split
      · exact servers_accept _ _ _ _
      · exact hon

theorem servers_accepted (h : Hci) (p : Ptr) (status : UInt8) (connHandle : UInt16) (taken room : Bool) :
    SameServers s (s.hciAcceptConnectionCb h p status connHandle taken room) := by
  have hauth : SameServers s (s.authenticate h p connHandle taken) := by
    unfold authenticate sendAsync
    split
    · split <;> exact ⟨rfl, fun _ => rfl, fun _ => rfl, fun _ => rfl⟩
    · exact .refl s
  unfold hciAcceptConnectionCb
  split
  · exact .refl s
  · split
    · exact ⟨rfl, fun _ => rfl, fun _ => rfl, fun _ => rfl⟩
    · refine hauth.trans ?_
      unfold l2capAclNewConnected
      split
      · have href : SameServers _ ((s.authenticate h p connHandle taken).bteClientRef h) := servers_setClient rfl
        exact ⟨href.servers, href.hci, href.connectedCb, href.scanMode⟩
      · exact ⟨rfl, fun _ => rfl, fun _ => rfl, fun _ => rfl⟩

theorem listening_act (hk : Kept s) (hl : Listening s) {o : ServingOp} (hlegal : o.Legal s) (hu : o.Undisturbed) :
    Listening (s.act o) := by
  have hsame : ∀ t : Serving, SameServers s t → Listening t := fun _ h => h.listening hl
  cases o with
  | clientNew =>
    show Listening s.bteClientNew
    unfold bteClientNew
    split
    · exact hsame _ ⟨rfl, fun _ => rfl, fun _ => rfl, fun _ => rfl⟩
    · rename_i i _
      intro p hp hcb
      have hne : (s.server p).hci ≠ s.madeClients := by
        intro heq
        have ho := hk.1.owed s.madeClients
        have hpos : 0 < s.serversOf s.madeClients := List.countP_pos_iff.2 ⟨p, hp, by simpa using heq⟩
        exact absurd (hk.1.madeClient s.madeClients (by omega)) (Nat.lt_irrefl _)
      have hclient : (s.withClient i).client (s.server p).hci = s.client (s.server p).hci :=
        (setClient_client ..).trans (if_neg hne)
      show ((s.withClient i).client (s.server p).hci).scanMode &&& _ = _
      rw [hclient]
      exact hl p hp hcb
  | clientRef h =>
    have href : SameServers s (s.bteClientRef h) := servers_setClient rfl
    exact hsame _ ⟨href.servers, href.hci, href.connectedCb, href.scanMode⟩
  | clientUnref h =>
    have hun := servers_clientUnref (s := { s with held := Function.update s.held h (s.held h - 1) }) h
    exact hsame _ ⟨hun.servers, hun.hci, hun.connectedCb, hun.scanMode⟩
  | setUserdata h u => exact hsame _ (servers_setClient rfl)
  | onRequest h kind callback =>
    have hset : SameServers s (s.setClient h { s.client h with
      requestCb := Function.update (s.client h).requestCb kind (callback.map .client) }) := servers_setClient rfl
    exact hsame _ ⟨hset.servers, hset.hci, hset.connectedCb, hset.scanMode⟩
  | writeScanEnable h mode taken => exact listening_writeScanEnable hl h hu taken
  | asyncCommand h taken =>
    show Listening (if taken then { s with unsettled := s.unsettled ++ [h] } else s)
    split
    · exact hsame _ ⟨rfl, fun _ => rfl, fun _ => rfl, fun _ => rfl⟩
    · exact hl
  | serverNew h psm =>
    have href : SameServers s (s.bteClientRef h) := servers_setClient rfl
    intro p hp hcb
    have hserver : (s.act (.serverNew h psm)).server p =
        if p = s.madeServers then ⟨1, h, psm, bteHciRoleSlave, false, none, 0, none, 0⟩ else s.server p :=
      setServer_server ..
    rw [hserver] at hcb ⊢
    split at hcb
    · cases hcb
    · rename_i hne
      rw [if_neg hne]
      exact href.listening hl p ((List.mem_cons.1 hp).resolve_left hne) hcb
  | serverRef p => exact hsame _ (servers_setServer rfl rfl)
  | serverUnref p taken => exact listening_serverUnref hl p taken
  | setNeedsAuth p b => exact hsame _ (servers_setServer rfl rfl)
  | setRole p role => exact hsame _ (servers_setServer rfl rfl)
  | onConnected p cb u taken =>
    show Listening (s.bteL2capServerOnConnected p cb u taken)
    rw [show taken = true from hu]
    refine listening_page fun q hq hne hcb => ?_
    have hset : ((s.setServer p { s.server p with connectedCb := cb, userdata := u }).bteHciOnRequest (s.server p).hci
        .connection (some .server)).server q = s.server q :=
      (setServer_server s p q _).trans (if_neg (by
        rintro rfl
        refine hne ?_
        show ((s.setServer q { s.server q with connectedCb := cb, userdata := u }).server q).hci = _
        rw [setServer_server, if_pos rfl]))
    rw [hset] at hcb hne ⊢
    have hclient : ((s.setServer p { s.server p with connectedCb := cb, userdata := u }).bteHciOnRequest (s.server p).hci
        .connection (some .server)).client (s.server q).hci = s.client (s.server q).hci :=
      (setClient_client ..).trans (if_neg hne)
    rw [hclient]
    exact hl q hq hcb
  | onConnectionRequest p cb u => exact hsame _ (servers_setServer rfl rfl)
  | request r taken =>
    have hp := servers_proceed (s := s.receive r) r taken (s.searchClients r (List.finRange 4))
    show Listening (s.request r taken)
    unfold request
    split
    · exact hsame _ ⟨hp.servers, hp.hci, hp.connectedCb, hp.scanMode⟩
    · exact hl
  | returns ret taken =>
    show Listening (s.returned ret taken)
    unfold returned
    split
    · exact hl
    · exact hsame _ (servers_resume _ _ _)
  | commandStatus h => exact hsame _ ⟨rfl, fun _ => rfl, fun _ => rfl, fun _ => rfl⟩
  | accepted i reply taken room =>
    show Listening (s.endAccept i reply taken room)
    have hbefore : SameServers s { s with accepting := s.accepting.eraseIdx i } :=
      ⟨rfl, fun _ => rfl, fun _ => rfl, fun _ => rfl⟩
    unfold endAccept
    split
    · exact hl
    · simp only
      split
      · exact hsame _ hbefore
      · exact hsame _ (hbefore.trans (servers_accepted _ _ _ _ _ _))
  | aclFreed h =>
    have hun := servers_clientUnref (s := { s with acls := s.acls.erase h }) h
    exact hsame _ ⟨hun.servers, hun.hci, hun.connectedCb, hun.scanMode⟩
  | connectionReq psm l2cap room =>
    refine hsame _ ?_
    show SameServers s (s.handleConnectionReq psm l2cap room)
    unfold handleConnectionReq
    split
    · split
      · exact ⟨rfl, fun _ => rfl, fun _ => rfl, fun _ => rfl⟩
      · split
        · split <;> exact ⟨rfl, fun _ => rfl, fun _ => rfl, fun _ => rfl⟩
        · exact ⟨rfl, fun _ => rfl, fun _ => rfl, fun _ => rfl⟩
    · exact ⟨rfl, fun _ => rfl, fun _ => rfl, fun _ => rfl⟩

/-! ## Runs -/

theorem scanned_start : Scanned start := ⟨fun _ => UInt8.zero_or, fun _ => by decide⟩

/-- **The scan is what the clients want**, over every run.  The last command covers the mode of every client, and is
exactly their modes unless a client with a mode has gone since.  While a server has a function for channels the last
command has the page scan, if every mode that a client writes has it and the table takes the servers' commands. -/
theorem scan_covers (ops : List ServingOp) (hl : Sys.Admissible step (fun s o => o.Legal s) start ops) :
    let s := Sys.run step start ops
    (∀ i h, s.clients i = some h → (s.client h).scanMode ||| s.lastScan = s.lastScan) ∧
      (s.scanLeft = false → s.lastScan = s.combinedScanMode) ∧
      ((∀ o ∈ ops, o.Undisturbed) → ∀ p ∈ s.servers, (s.server p).connectedCb.isSome = true →
        s.lastScan &&& bteHciScanEnablePage = bteHciScanEnablePage) := by
  have hstep : ∀ (s : Serving) (o : ServingOp), Kept s ∧ Scanned s → o.Legal s →
      Kept (s.step o) ∧ Scanned (s.step o) := by
    intro s o ⟨hk, hs⟩ hl
    refine ⟨kept_step hk hl, ?_⟩
    unfold step
    split
    · exact hs
    · exact scanned_act hk hs o
  obtain ⟨hk, hs⟩ := Sys.inv_run hstep ops start ⟨kept_start, scanned_start⟩ hl
  have hcovered : ∀ i h, (Sys.run step start ops).clients i = some h →
      ((Sys.run step start ops).client h).scanMode ||| (Sys.run step start ops).lastScan =
        (Sys.run step start ops).lastScan := by
    intro i h hi
    have hc := hs.covered i
    rw [slotMode, hi] at hc
    exact hc
  refine ⟨hcovered, hs.exact, fun hu p hp hcb => ?_⟩
  have hlisten : ∀ (s : Serving) (o : ServingOp), Kept s ∧ Listening s → o.Legal s ∧ o.Undisturbed →
      Kept (s.step o) ∧ Listening (s.step o) := by
    intro s o ⟨hk, hs⟩ ⟨hl, hu⟩
    refine ⟨kept_step hk hl, ?_⟩
    unfold step
    split
    · exact hs
    · exact listening_act hk hs hl hu
  have hadm := (Sys.admissible_and step (fun s o => o.Legal s) (fun _ o => o.Undisturbed) start ops).2
    ⟨hl, Sys.admissible_of_forall step hu start⟩
  have hmode := (Sys.inv_run hlisten ops start ⟨kept_start, fun _ hp => nomatch hp⟩ hadm).2 p hp hcb
  obtain ⟨i, hi⟩ := (run_kept ops kept_start hl).1.slot_of_server hp
  exact and_of_covers (hcovered i _ hi) hmode

/-- A client that makes a server, listens and is connected to, and one that scans for itself. -/
def scanningRun : List ServingOp :=
  [.clientNew, .clientNew, .serverNew 0 17, .onConnected 0 (some 50) 7 true, .writeScanEnable 1 3 true, .clientUnref 0]

theorem scan_covers_scanningRun :
    (Sys.run step start scanningRun).lastScan &&& bteHciScanEnablePage = bteHciScanEnablePage ∧
      (Sys.run step start scanningRun).lastScan = 3 := by
  have hall := scan_covers scanningRun (by decide +kernel)
  exact ⟨hall.2.2 (by decide +kernel) 0 (by decide +kernel) (by decide +kernel), by decide +kernel⟩

/-- The page scan is taken out for the client of the last server only: the last command has it after all servers have gone
if another client has listened. -/
theorem page_scan_stays :
    let s := Sys.run step start [.clientNew, .clientNew, .serverNew 0 17, .onConnected 0 (some 50) 0 true,
      .serverNew 1 19, .onConnected 1 (some 51) 0 true, .serverUnref 0 true, .serverUnref 1 true]
    s.servers = [] ∧ s.lastScan = bteHciScanEnablePage := by decide +kernel

end Serving

end Bte
