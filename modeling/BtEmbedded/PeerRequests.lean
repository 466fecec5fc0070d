import BtEmbedded.ServerCustody
/-!
# PeerRequests — how a request of a peer is answered (hci.c, l2cap_server.c)

The library goes once through the functions and servers that there are when the request comes in, from left to right:
those before the one it is asking have said no, those behind it have not been asked (`Scan`).  So each request has one
answer, of the first that says yes, or the library's own once all have said no (`requests_answered`).
-/
namespace Bte

namespace Serving

variable {s s' : Serving} {r : RequestEvent}

/-! ## What the search finds -/

/-- Who comes behind a listener. -/
def behind (s : Serving) (r : RequestEvent) (slot : Fin 4) (l : Listener) : List Listener :=
  (match l.server with
    | none => []
    | some p => s.serversIn l.hci (s.serversAfter p)) ++ (slotsAfter slot).flatMap (s.listenersAt r)

/-- What the search finds is the first of those that are left. -/
def Found.First (s : Serving) (r : RequestEvent) (left : List Listener) : Found → Prop
  | .ask slot l => left = l :: s.behind r slot l
  | .accept h p => ∃ rest, left = ⟨h, some p⟩ :: rest
  | .nobody => left = []

theorem serversAfter_split (hc : Custody none s) {p : Ptr} {pre post : List Ptr} (h : s.servers = pre ++ p :: post) :
    s.serversAfter p = post := by
  have hnodup : s.servers.Nodup := hc.newest.imp fun hgt => Nat.ne_of_gt hgt
  have hpre : ∀ q ∈ pre, q ≠ p := by
    rw [h] at hnodup
    exact fun q hq => (List.nodup_append.1 hnodup).2.2 q hq p List.mem_cons_self
  rw [serversAfter, h, List.dropWhile_append_of_pos (fun q hq => by simpa using hpre q hq), List.dropWhile_cons,
    if_neg (by simp), List.tail_cons]

theorem searchServers_other (slot : Fin 4) {h : Hci} {p : Ptr} (hne : (s.server p).hci ≠ h) (rest : List Ptr) :
    s.searchServers slot h (p :: rest) = s.searchServers slot h rest ∧ s.serversIn h (p :: rest) = s.serversIn h rest :=
  ⟨by rw [searchServers, if_pos hne], by rw [serversIn, List.filter_cons_of_neg (by simpa using hne), ← serversIn]⟩

theorem searchServers_found (slot : Fin 4) {h : Hci} {p : Ptr} (hh : (s.server p).hci = h) (rest : List Ptr) :
    s.searchServers slot h (p :: rest) = some (if (s.server p).connectionRequestCb.isSome then .ask slot ⟨h, some p⟩
      else .accept h p) ∧ s.serversIn h (p :: rest) = ⟨h, some p⟩ :: s.serversIn h rest := by
  constructor
  · rw [searchServers, if_neg (not_not.2 hh)]
    cases (s.server p).connectionRequestCb <;> rfl
  · rw [serversIn, List.filter_cons_of_pos (by simpa using hh), List.map_cons, ← serversIn]

/-- A search through the servers finds the first of the client's. -/
theorem searchServers_first (hc : Custody none s) (r : RequestEvent) (slot : Fin 4) (h : Hci) : ∀ l : List Ptr,
    l <:+ s.servers → (s.searchServers slot h l = none → s.serversIn h l = []) ∧
      ∀ f ∈ s.searchServers slot h l, f.First s r (s.serversIn h l ++ (slotsAfter slot).flatMap (s.listenersAt r))
  | [], _ => ⟨fun _ => rfl, fun _ hf => nomatch hf⟩
  | p :: rest, hl => by
    obtain ⟨pre, hpre⟩ := hl
    by_cases hh : (s.server p).hci = h
    · obtain ⟨hsearch, hin⟩ := searchServers_found slot hh rest
      rw [hsearch, hin]
      refine ⟨fun hn => (nomatch hn), fun f hf => ?_⟩
      cases hf
      split
      · show _ = _ :: s.behind r slot ⟨h, some p⟩
        rw [behind]
        simp only
        rw [serversAfter_split hc hpre.symm]
        rfl
      · exact ⟨_, rfl⟩
    · obtain ⟨hsearch, hin⟩ := searchServers_other slot hh rest
      rw [hsearch, hin]
      exact searchServers_first hc r slot h rest ⟨pre ++ [p], by rw [← hpre]; simp⟩

/-- Slots come one after the other. -/
theorem slotsAfter_of_suffix {slot : Fin 4} {rest : List (Fin 4)} (h : slot :: rest <:+ List.finRange 4) :
    rest = slotsAfter slot := by
  obtain ⟨pre, hpre⟩ := h
  have hlen : pre.length < (List.finRange 4).length := by
    rw [← hpre]
    simp
  have hslot : (List.finRange 4)[pre.length] = slot := by
    simp only [← hpre, List.getElem_append_right (Nat.le_refl _), Nat.sub_self, List.getElem_cons_zero]
  have hval : slot.val = pre.length := by
    rw [← hslot, List.getElem_finRange]
    rfl
  rw [slotsAfter, hval, ← hpre, List.drop_append]
  simp

theorem searchClients_first (hc : Custody none s) (r : RequestEvent) : ∀ l : List (Fin 4), l <:+ List.finRange 4 →
    (s.searchClients r l).First s r (l.flatMap (s.listenersAt r))
  | [], _ => rfl
  | slot :: rest, hl => by
    have hrest : rest = slotsAfter slot := slotsAfter_of_suffix hl
    have ih := searchClients_first hc r rest ((List.suffix_cons slot rest).trans hl)
    unfold searchClients
    rw [List.flatMap_cons]
    cases hslot : s.clients slot with
    | none =>
      have hat : s.listenersAt r slot = [] := by rw [listenersAt, hslot]
      rw [hat]
      exact ih
    | some h =>
      cases hcb : (s.client h).requestCb r.kind with
      | none =>
        have hat : s.listenersAt r slot = [] := by simp only [listenersAt, hslot, hcb]
        simp only [hcb, hat]
        exact ih
      | some cb =>
        cases cb with
        | client fn =>
          have hat : s.listenersAt r slot = [⟨h, none⟩] := by simp only [listenersAt, hslot, hcb]
          simp only [hcb, hat]
          show _ = _ :: s.behind r slot ⟨h, none⟩
          rw [behind, hrest]
          rfl
        | server =>
          simp only [hcb]
          split
          · rename_i hacl
            have hat : s.listenersAt r slot = s.serversIn h s.servers := by
              simp only [listenersAt, hslot, hcb, if_pos hacl]
            obtain ⟨hnone, hsome⟩ := searchServers_first hc r slot h s.servers (List.suffix_refl _)
            rw [hat]
            cases hf : s.searchServers slot h s.servers with
            | none =>
              rw [hnone hf]
              exact ih
            | some f =>
              rw [← hrest] at hsome
              exact hsome f hf
          · rename_i hacl
            have hat : s.listenersAt r slot = [] := by simp only [listenersAt, hslot, hcb, if_neg hacl]
            rw [hat]
            exact ih

/-- After a no the search goes on with those behind. -/
theorem searchOn_first (hc : Custody none s) (a : Asking) :
    (s.searchOn a).First s a.request (s.behind a.request a.slot a.listener) := by
  have hsuffix : slotsAfter a.slot <:+ List.finRange 4 := List.drop_suffix _ _
  have hclients := searchClients_first hc a.request (slotsAfter a.slot) hsuffix
  unfold searchOn behind
  cases hserver : a.listener.server with
  | none => exact hclients
  | some p =>
    have hafter : s.serversAfter p <:+ s.servers := (List.tail_suffix _).trans (List.dropWhile_suffix _)
    obtain ⟨hnone, hsome⟩ := searchServers_first hc a.request a.slot a.listener.hci _ hafter
    simp only
    cases hf : s.searchServers a.slot a.listener.hci (s.serversAfter p) with
    | none =>
      rw [hnone hf]
      exact hclients
    | some f => exact hsome f hf

/-! ## What is asked stays what it was -/

/-- There is the same to be asked. -/
structure SameAudience (s s' : Serving) : Prop where
  clients : s'.clients = s.clients
  requestCb : ∀ h, (s'.client h).requestCb = (s.client h).requestCb
  servers : s'.servers = s.servers
  hci : ∀ p, (s'.server p).hci = (s.server p).hci

/-- The commands that answer a request. -/
def answering (commands : List ServingCommand) : List ServingCommand :=
  commands.filter fun
    | .authRequested .. | .writeScanEnable _ => false
    | _ => true

/-- The requests and their answers are what they were. -/
structure SameRequests (s s' : Serving) : Prop where
  commands : answering s'.commands = answering s.commands
  asking : s'.asking = s.asking
  requests : s'.requests = s.requests
  audience : s'.audience = s.audience
  declined : s'.declined = s.declined
  answers : s'.answers = s.answers

theorem SameAudience.refl (s : Serving) : SameAudience s s := ⟨rfl, fun _ => rfl, rfl, fun _ => rfl⟩

theorem SameAudience.trans {s'' : Serving} (h : SameAudience s s') (h' : SameAudience s' s'') : SameAudience s s'' where
  clients := h'.clients.trans h.clients
  requestCb x := (h'.requestCb x).trans (h.requestCb x)
  servers := h'.servers.trans h.servers
  hci x := (h'.hci x).trans (h.hci x)

theorem SameRequests.refl (s : Serving) : SameRequests s s := ⟨rfl, rfl, rfl, rfl, rfl, rfl⟩

theorem SameRequests.trans {s'' : Serving} (h : SameRequests s s') (h' : SameRequests s' s'') : SameRequests s s'' :=
  ⟨h'.commands.trans h.commands, h'.asking.trans h.asking, h'.requests.trans h.requests, h'.audience.trans h.audience,
    h'.declined.trans h.declined, h'.answers.trans h.answers⟩

theorem SameAudience.serversIn (h : SameAudience s s') (c : Hci) (l : List Ptr) :
    s'.serversIn c l = s.serversIn c l := by
  rw [Serving.serversIn, Serving.serversIn]
  refine congrArg (List.map _) (List.filter_congr fun p _ => ?_)
  rw [h.hci]

theorem SameAudience.listenersAt (h : SameAudience s s') (r : RequestEvent) : s'.listenersAt r = s.listenersAt r := by
  funext slot
  unfold Serving.listenersAt
  rw [h.clients]
  cases s.clients slot with
  | none => rfl
  | some c => simp only [h.requestCb, h.serversIn, h.servers]

theorem SameAudience.behind (h : SameAudience s s') (r : RequestEvent) (slot : Fin 4) (l : Listener) :
    s'.behind r slot l = s.behind r slot l := by
  unfold Serving.behind Serving.serversAfter
  rw [h.listenersAt, h.servers]
  cases l.server with
  | none => rfl
  | some p => simp only [h.serversIn]

theorem same_setServer {p : Ptr} {v : L2capServer} (hh : v.hci = (s.server p).hci) :
    SameAudience s (s.setServer p v) where
  clients := rfl
  requestCb _ := rfl
  servers := rfl
  hci q := by
    rw [setServer_server]
    split
    · rename_i heq
      rw [heq, hh]
    · rfl

theorem same_setClient {h : Hci} {c : ServingClient} (hc : c.requestCb = (s.client h).requestCb) :
    SameAudience s (s.setClient h c) where
  clients := rfl
  requestCb h' := by
    rw [setClient_client]
    split
    · rename_i heq
      rw [heq, hc]
    · rfl
  servers := rfl
  hci _ := rfl

theorem same_writeScanEnable (h : Hci) (mode : UInt8) (taken : Bool) :
    SameAudience s (s.bteHciWriteScanEnable h mode taken) ∧ SameRequests s (s.bteHciWriteScanEnable h mode taken) := by
  unfold bteHciWriteScanEnable
  split
  · have hset : SameAudience s (s.setClient h { s.client h with scanMode := mode }) := same_setClient rfl
    refine ⟨hset.trans { SameAudience.refl _ with }, ⟨?_, rfl, rfl, rfl, rfl, rfl⟩⟩
    exact (List.filter_append ..).trans (List.append_nil _)
  · exact ⟨.refl s, .refl s⟩

theorem requests_clientUnref (h : Hci) : SameRequests s (s.bteClientUnref h) := by
  unfold bteClientUnref
  split <;> exact { SameRequests.refl _ with }

theorem requests_serverUnref (p : Ptr) (taken : Bool) : SameRequests s (s.bteL2capServerUnref p taken) := by
  unfold bteL2capServerUnref
  split
  · have hend : ∀ t : Serving, SameRequests t (t.endScan (s.server p).hci taken) := by
      intro t
      unfold endScan
      split
      · exact (same_writeScanEnable _ _ _).2
      · exact .refl t
    have hset : SameRequests s ((s.setServer p { s.server p with refCount := (s.server p).refCount - 1 }).unlist p) :=
      ⟨rfl, rfl, rfl, rfl, rfl, rfl⟩
    have hself : ((s.setServer p { s.server p with refCount := (s.server p).refCount - 1 }).server p).hci =
        (s.server p).hci := by
      rw [setServer_server, if_pos rfl]
    rw [bteL2capServerFree, hself]
    exact (hset.trans (hend _)).trans (requests_clientUnref _)
  · exact ⟨rfl, rfl, rfl, rfl, rfl, rfl⟩

theorem audience_clientUnref {h : Hci} (hn : (s.client h).refCount ≠ 1) : SameAudience s (s.bteClientUnref h) := by
  rw [bteClientUnref, if_neg hn]
  exact same_setClient rfl

theorem audience_serverUnref {p : Ptr} (taken : Bool) (hn : (s.server p).refCount ≠ 1) :
    SameAudience s (s.bteL2capServerUnref p taken) := by
  rw [bteL2capServerUnref, if_neg hn]
  exact same_setServer rfl

end Serving

namespace ServingOp

/-- What a function may do while it is asked: it takes references, gives back those that are not the last, and changes
roles, modes and whether a server wants authentication.  It makes no client and no server, and does not change who is
asked. -/
def Modest (s : Serving) : ServingOp → Prop
  | .returns .. | .setNeedsAuth .. | .setRole .. | .clientRef _ | .serverRef _ | .setUserdata ..
  | .writeScanEnable .. | .asyncCommand .. => True
  | .clientUnref h => s.asking = none ∨ (s.client h).refCount ≠ 1
  | .serverUnref p _ => s.asking = none ∨ (s.server p).refCount ≠ 1
  | _ => s.asking = none

instance decidableModest (s : Serving) : ∀ o : ServingOp, Decidable (o.Modest s)
  | .returns .. | .setNeedsAuth .. | .setRole .. | .clientRef _ | .serverRef _ | .setUserdata .. | .writeScanEnable ..
  | .asyncCommand .. => .isTrue trivial
  | .clientUnref _ | .serverUnref .. => inferInstanceAs (Decidable (_ ∨ _))
  | .clientNew | .onRequest .. | .serverNew .. | .onConnected .. | .onConnectionRequest .. | .request ..
  | .commandStatus _ | .accepted .. | .aclFreed _ | .connectionReq .. => inferInstanceAs (Decidable (_ = _))

end ServingOp

namespace Serving

variable {s s' : Serving}

/-! ## The scan of the audience -/

/-- Nobody wants the request, and the library refuses it; or somebody said yes, after those before it said no. -/
def RequestAnswer.Right (e : RequestAnswer) : Prop :=
  match e.granted with
  | none => e.audience = e.declined ∧ ∀ c ∈ e.command, c = refusal e.request
  | some l => (∃ rest, e.audience = e.declined ++ l :: rest) ∧
    match l.server with
    | none => e.command = none
    | some _ => ∀ c ∈ e.command, ∃ role, c = .acceptConnection l.hci e.request.address role

/-- What the answers so far have in common. -/
structure Answered (s : Serving) : Prop where
  right : ∀ e ∈ s.answers, RequestAnswer.Right e
  commands : answering s.commands = s.answers.filterMap (·.command)

/-- The library goes through the audience of a request from left to right. -/
structure Scan (s : Serving) : Prop where
  answered : Answered s
  requests : s.requests = s.answers.map (·.request) ++ (s.asking.map (·.request)).toList
  asking : ∀ a ∈ s.asking, s.audience = s.declined ++ a.listener :: s.behind a.request a.slot a.listener

theorem Scan.same (hs : Scan s) (h : SameRequests s s') (ha : s.asking = none ∨ SameAudience s s') : Scan s' where
  answered := ⟨h.answers ▸ hs.answered.right, by rw [h.commands, h.answers, hs.answered.commands]⟩
  requests := by rw [h.requests, h.answers, h.asking, hs.requests]
  asking a hasking := by
    rw [h.asking] at hasking
    rw [h.audience, h.declined]
    rcases ha with hnone | hsame
    · rw [hnone] at hasking
      cases hasking
    · rw [hsame.behind]
      exact hs.asking a hasking

theorem answering_append (commands : List ServingCommand) (command : Option ServingCommand)
    (hc : ∀ c ∈ command, answering [c] = [c]) :
    answering (commands ++ command.toList) = answering commands ++ command.toList := by
  unfold answering
  rw [List.filter_append]
  cases command with
  | none => rfl
  | some c => exact congrArg _ (hc c rfl)

theorem answering_refusal (r : RequestEvent) : answering [refusal r] = [refusal r] := by
  unfold refusal
  cases r.kind <;> rfl

/-- The answer to the request that is under way. -/
theorem scan_answer {r : RequestEvent} {granted : Option Listener} {command : Option ServingCommand} (ha : Answered s)
    (hreq : s.requests = s.answers.map (·.request) ++ [r])
    (hr : RequestAnswer.Right ⟨r, granted, command, s.audience, s.declined⟩)
    (hc : ∀ c ∈ command, answering [c] = [c]) : Scan (s.answer r granted command) where
  answered := by
    refine ⟨fun e he => ?_, ?_⟩
    · rcases List.mem_append.1 he with he | he
      · exact ha.right e he
      · cases List.mem_singleton.1 he
        exact hr
    · show answering (s.commands ++ command.toList) = (s.answers ++ [_]).filterMap _
      rw [answering_append _ _ hc, ha.commands, List.filterMap_append]
      cases command <;> rfl
  requests := by
    show s.requests = (s.answers ++ [_]).map _ ++ []
    rw [hreq, List.map_append, List.append_nil]
    rfl
  asking _ h := nomatch h

theorem scan_accept {r : RequestEvent} {h : Hci} {p : Ptr} (taken : Bool) (ha : Answered s)
    (hreq : s.requests = s.answers.map (·.request) ++ [r])
    (haud : ∃ rest, s.audience = s.declined ++ ⟨h, some p⟩ :: rest) :
    Scan (s.accept r h p taken) := by
  unfold accept
  split
  · have hscan : Scan (s.answer r (some ⟨h, some p⟩) (some (.acceptConnection h r.address (s.server p).role))) := by
      refine scan_answer ha hreq ⟨haud, fun c hc => ?_⟩ fun c hc => ?_
      · cases hc
        exact ⟨_, rfl⟩
      · cases hc
        rfl
    exact hscan.same ⟨rfl, rfl, rfl, rfl, rfl, rfl⟩ (.inl rfl)
  · exact scan_answer ha hreq ⟨haud, fun _ hc => nomatch hc⟩ fun _ hc => nomatch hc

theorem scan_proceed {r : RequestEvent} (left : List Listener) {f : Found} (taken : Bool) (ha : Answered s)
    (hreq : s.requests = s.answers.map (·.request) ++ [r]) (haud : s.audience = s.declined ++ left)
    (hf : f.First s r left) :
    Scan (s.proceed r taken f) := by
  cases f with
  | ask slot l =>
    refine ⟨⟨ha.right, ha.commands⟩, hreq, fun a hasking => ?_⟩
    cases hasking
    rw [show left = _ from hf] at haud
    exact haud
  | accept h p =>
    obtain ⟨rest, hleft⟩ := hf
    exact scan_accept taken ha hreq ⟨rest, by rw [haud, hleft]⟩
  | nobody =>
    rw [show left = [] from hf, List.append_nil] at haud
    refine scan_answer ha hreq ⟨haud, fun c hc => ?_⟩ fun c hc => ?_
    · split at hc
      · cases hc
        rfl
      · cases hc
    · split at hc
      · cases hc
        exact answering_refusal r
      · cases hc

theorem scan_request (hc : Custody none s) (hs : Scan s) (hnone : s.asking = none) (r : RequestEvent) (taken : Bool) :
    Scan (s.request r taken) := by
  have hreq := hs.requests
  rw [hnone] at hreq
  unfold request
  split
  · refine scan_proceed (s.listeners r) taken ⟨hs.answered.right, hs.answered.commands⟩ ?_ rfl
      (searchClients_first hc r _ (List.suffix_refl _))
    show s.requests ++ [r] = s.answers.map (·.request) ++ [r]
    rw [hreq]
    simp
  · exact hs

theorem scan_returned (hc : Custody none s) (hs : Scan s) (ret taken : Bool) : Scan (s.returned ret taken) := by
  unfold returned
  cases hasking : s.asking with
  | none => exact hs
  | some a =>
    have haud := hs.asking a hasking
    have hreq := hs.requests
    rw [hasking] at hreq
    have hon : Scan ((s.decline a.listener).proceed a.request taken (s.searchOn a)) := by
      refine scan_proceed _ taken ⟨hs.answered.right, hs.answered.commands⟩ hreq ?_ (searchOn_first hc a)
      show s.audience = (s.declined ++ [a.listener]) ++ _
      rw [haud, List.append_assoc]
      rfl
    simp only
    unfold resume
    split
    · rename_i hserver
      split
      · refine scan_answer hs.answered hreq ⟨⟨_, haud⟩, ?_⟩ fun _ h => nomatch h
        rw [hserver]
      · exact hon
    · rename_i p hserver
      split
      · exact hs.same ⟨rfl, rfl, rfl, rfl, rfl, rfl⟩ (.inr ⟨rfl, fun _ => rfl, rfl, fun _ => rfl⟩)
      · split
        · refine scan_accept taken hs.answered hreq ⟨s.behind a.request a.slot a.listener, ?_⟩
          rw [haud, ← hserver]
        · exact hon

theorem requests_authenticate (h : Hci) (p : Ptr) (connHandle : UInt16) (taken : Bool) :
    SameRequests s (s.authenticate h p connHandle taken) := by
  unfold authenticate sendAsync
  split
  · split
    · exact ⟨(List.filter_append ..).trans (List.append_nil _), rfl, rfl, rfl, rfl, rfl⟩
    · exact .refl s
  · exact .refl s

theorem requests_newConnected (h : Hci) (room : Bool) : SameRequests s (s.l2capAclNewConnected h room) := by
  unfold l2capAclNewConnected
  split <;> exact ⟨rfl, rfl, rfl, rfl, rfl, rfl⟩

theorem requests_accepted (h : Hci) (p : Ptr) (status : UInt8) (connHandle : UInt16) (taken room : Bool) :
    SameRequests s (s.hciAcceptConnectionCb h p status connHandle taken room) := by
  unfold hciAcceptConnectionCb
  split
  · exact .refl s
  · split
    · exact ⟨rfl, rfl, rfl, rfl, rfl, rfl⟩
    · exact (requests_authenticate _ _ _ _).trans (requests_newConnected _ _)

theorem requests_endAccept (i : Nat) (reply : Option (UInt8 × UInt16)) (taken room : Bool) :
    SameRequests s (s.endAccept i reply taken room) := by
  have hbefore : SameRequests s { s with accepting := s.accepting.eraseIdx i } := ⟨rfl, rfl, rfl, rfl, rfl, rfl⟩
  unfold endAccept
  split
  · exact .refl s
  · simp only
    split
    · exact hbefore
    · exact hbefore.trans (requests_accepted _ _ _ _ _ _)

theorem requests_connectionReq (psm : UInt16) (l2cap : Ptr) (room : Bool) :
    SameRequests s (s.handleConnectionReq psm l2cap room) := by
  unfold handleConnectionReq
  split
  · split
    · exact .refl s
    · split
      · split <;> exact ⟨rfl, rfl, rfl, rfl, rfl, rfl⟩
      · exact ⟨rfl, rfl, rfl, rfl, rfl, rfl⟩
  · exact .refl s

theorem same_held (s : Serving) (held : Hci → Nat) : SameRequests s { s with held := held } :=
  ⟨rfl, rfl, rfl, rfl, rfl, rfl⟩

theorem same_acls (s : Serving) (acls : List Hci) : SameRequests s { s with acls := acls } :=
  ⟨rfl, rfl, rfl, rfl, rfl, rfl⟩

theorem scan_act (hc : Custody none s) (hs : Scan s) {o : ServingOp} (hl : o.Legal s) (hm : o.Modest s) :
    Scan (s.act o) := by
  cases o with
  | clientNew =>
    refine hs.same ?_ (.inl hm)
    show SameRequests s s.bteClientNew
    unfold bteClientNew
    split <;> exact ⟨rfl, rfl, rfl, rfl, rfl, rfl⟩
  | clientRef h =>
    have hset : SameAudience s (s.bteClientRef h) := same_setClient rfl
    exact hs.same ⟨rfl, rfl, rfl, rfl, rfl, rfl⟩ (.inr ⟨hset.clients, hset.requestCb, hset.servers, hset.hci⟩)
  | clientUnref h =>
    refine hs.same ((same_held s (Function.update s.held h (s.held h - 1))).trans (requests_clientUnref h))
      (hm.imp_right fun hn => ?_)
    have hgive := audience_clientUnref (s := { s with held := Function.update s.held h (s.held h - 1) }) hn
    exact ⟨hgive.clients, hgive.requestCb, hgive.servers, hgive.hci⟩
  | setUserdata h u => exact hs.same ⟨rfl, rfl, rfl, rfl, rfl, rfl⟩ (.inr (same_setClient rfl))
  | onRequest h kind callback => exact hs.same ⟨rfl, rfl, rfl, rfl, rfl, rfl⟩ (.inl hm)
  | writeScanEnable h mode taken =>
    have hw := same_writeScanEnable (s := s) h mode taken
    exact hs.same hw.2 (.inr hw.1)
  | asyncCommand h taken =>
    show Scan (if taken then { s with unsettled := s.unsettled ++ [h] } else s)
    split
    · exact hs.same ⟨rfl, rfl, rfl, rfl, rfl, rfl⟩ (.inr ⟨rfl, fun _ => rfl, rfl, fun _ => rfl⟩)
    · exact hs
  | serverNew h psm => exact hs.same ⟨rfl, rfl, rfl, rfl, rfl, rfl⟩ (.inl hm)
  | serverRef p => exact hs.same ⟨rfl, rfl, rfl, rfl, rfl, rfl⟩ (.inr (same_setServer rfl))
  | serverUnref p taken => exact hs.same (requests_serverUnref p taken) (hm.imp_right (audience_serverUnref taken))
  | setNeedsAuth p b => exact hs.same ⟨rfl, rfl, rfl, rfl, rfl, rfl⟩ (.inr (same_setServer rfl))
  | setRole p role => exact hs.same ⟨rfl, rfl, rfl, rfl, rfl, rfl⟩ (.inr (same_setServer rfl))
  | onConnected p cb u taken =>
    have hset : SameRequests s ((s.setServer p { s.server p with connectedCb := cb, userdata := u }).bteHciOnRequest
        ((s.server p).hci) .connection (some .server)) := ⟨rfl, rfl, rfl, rfl, rfl, rfl⟩
    exact hs.same (hset.trans (same_writeScanEnable _ _ _).2) (.inl hm)
  | onConnectionRequest p cb u => exact hs.same ⟨rfl, rfl, rfl, rfl, rfl, rfl⟩ (.inl hm)
  | request r taken => exact scan_request hc hs hl r taken
  | returns ret taken => exact scan_returned hc hs ret taken
  | commandStatus h => exact hs.same ⟨rfl, rfl, rfl, rfl, rfl, rfl⟩ (.inl hm)
  | accepted i reply taken room => exact hs.same (requests_endAccept i reply taken room) (.inl hm)
  | aclFreed h =>
    exact hs.same ((same_acls s (s.acls.erase h)).trans (requests_clientUnref h)) (.inl hm)
  | connectionReq psm l2cap room => exact hs.same (requests_connectionReq psm l2cap room) (.inl hm)

theorem scan_start : Scan start := ⟨⟨fun _ he => (nomatch he), rfl⟩, rfl, fun _ ha => nomatch ha⟩

/-- **Every request has one answer**, over every run in which the functions that are asked leave alone who is asked.  The
requests that came in, once a function was given for their kind, are those that were answered, in that order, and the one
for which a function is being asked.
Those who said no are the first that there were to be asked, all of them if the library refuses the request, otherwise
those before the one that said yes.  The commands about requests are those of the answers. -/
theorem requests_answered (ops : List ServingOp) (hl : Sys.Admissible step (fun s o => o.Legal s) start ops)
    (hm : Sys.Admissible step (fun s o => o.Modest s) start ops) :
    let s := Sys.run step start ops
    s.requests = s.answers.map (·.request) ++ (s.asking.map (·.request)).toList ∧
      (∀ a ∈ s.asking, ∃ rest, s.audience = s.declined ++ a.listener :: rest) ∧
      (∀ e ∈ s.answers, RequestAnswer.Right e) ∧
      answering s.commands = s.answers.filterMap (·.command) := by
  have hstep : ∀ (s : Serving) (o : ServingOp), Kept s ∧ Scan s → o.Legal s ∧ o.Modest s →
      Kept (s.step o) ∧ Scan (s.step o) := by
    intro s o ⟨hk, hs⟩ ⟨hl, hm⟩
    refine ⟨kept_step hk hl, ?_⟩
    unfold step
    split
    · exact hs
    · exact scan_act hk.1 hs hl hm
  have hboth := (Sys.admissible_and step (fun s o => o.Legal s) (fun s o => o.Modest s) start ops).2 ⟨hl, hm⟩
  have hscan := (Sys.inv_run hstep ops start ⟨kept_start, scan_start⟩ hboth).2
  exact ⟨hscan.requests, fun a ha => ⟨_, hscan.asking a ha⟩, hscan.answered.right, hscan.answered.commands⟩

theorem requests_answered_servingRun :
    let s := Sys.run step start servingRun
    s.answers.map (·.request) = s.requests ∧ s.answers.map (·.declined) = [[⟨0, some 1⟩]] ∧
      answering s.commands = [.acceptConnection 0 ⟨1, 2, 3, 4, 5, 6⟩ 1] := by
  have hall := requests_answered servingRun (by decide +kernel) (by decide +kernel)
  have hnone : (Sys.run step start servingRun).asking = none := by decide +kernel
  refine ⟨?_, by decide +kernel, ?_⟩
  · rw [hall.1, hnone]
    exact (List.append_nil _).symm
  · rw [hall.2.2.2]
    decide +kernel

end Serving

end Bte
