import BtEmbedded.SdpAttr
/-!
# SdpSearch — record handles in many replies (sdp.c)

A service search hands every page of handles to the client's function and asks for the next one as long as the peer has
more and the function wants it.  `SearchReplies` is what a peer can send: the page in the response to each request, and
anywhere between them PDUs that answer another request, or none.  The function hears the pages in order, and each
continuation request repeats the parameters of the first (`handles_paged`).
-/
namespace Bte

open Bytes

/-! ## The peer -/

/-- One page: handles, and the continuation state behind them. -/
structure SearchPage where
  totalCount : Nat
  handles : List Nat
  contState : List UInt8

/-- The parameters of a search response; there may be more bytes than are needed. -/
def SearchPage.params (p : SearchPage) (extra : List UInt8) : List UInt8 :=
  beBytes 2 p.totalCount ++ (beBytes 2 p.handles.length ++ (p.handles.flatMap (beBytes 4) ++ (p.contState ++ extra)))

/-- The reply the function gets. -/
def SearchPage.reply (p : SearchPage) : SdpServiceSearchReply :=
  ⟨0, p.totalCount, p.handles.length, p.contState.getD 0 0 ≠ 0, some p.handles⟩

/-- Counts and handles are what their fields can hold, and the continuation state is as long as it says. -/
structure SearchPage.Wf (p : SearchPage) : Prop where
  totalCount : p.totalCount < 2 ^ 16
  handles : ∀ h ∈ p.handles, h < 2 ^ 32
  contState : ∃ len bytes, p.contState = len :: bytes ∧ bytes.length = UInt8.toNat len ∧ len.toNat ≤ 16

/-- The peer has more to send. -/
def SearchPage.HasMore (p : SearchPage) : Prop := p.contState.getD 0 0 ≠ 0

instance (p : SearchPage) : Decidable p.HasMore := inferInstanceAs (Decidable (_ ≠ _))

/-- Messages of a peer that has answered `k` requests and has the pages in the list still to send, with what the client's
function returns for each: PDUs that do not answer request `k`, the response to it, and after the last page, or a page
whose `false` ends the search, anything.  `n` is the length of the parameters that every request repeats. -/
inductive SearchReplies (start n : Nat) : Nat → List (SearchPage × Bool) → List SdpMessage → Prop where
  | ended (k : Nat) (ms : List SdpMessage) : SearchReplies start n k [] ms
  | stray {k : Nat} {pages : List (SearchPage × Bool)} {m : SdpMessage} {ms : List SdpMessage} (code : UInt8)
      (id : Nat) (params : List UInt8) (hid : id < 65536) (hm : Holds m.reader code id params)
      (hne : id ≠ chainId start k ∨ code ≠ pduIdServiceSearchReq + 1 ∧ code ≠ pduIdErrorRsp)
      (h : SearchReplies start n k pages ms) : SearchReplies start n k pages (m :: ms)
  | more {k : Nat} {p : SearchPage} {q : SearchPage × Bool} {pages : List (SearchPage × Bool)} {m : SdpMessage}
      {ms : List SdpMessage} (extra : List UInt8) (hp : p.Wf) (hmore : p.HasMore)
      (hm : Holds m.reader (pduIdServiceSearchReq + 1) (chainId start k) (p.params extra)) (hmem : m.env.paramsHeap ≠ none)
      (hret : m.ret = true) (hsend : m.env.Accepts (n + p.contState.length))
      (h : SearchReplies start n (k + 1) (q :: pages) ms) : SearchReplies start n k ((p, true) :: q :: pages) (m :: ms)
  | refused {k : Nat} {p : SearchPage} {pages : List (SearchPage × Bool)} {m : SdpMessage} {ms : List SdpMessage}
      (extra : List UInt8) (hp : p.Wf)
      (hm : Holds m.reader (pduIdServiceSearchReq + 1) (chainId start k) (p.params extra)) (hmem : m.env.paramsHeap ≠ none)
      (hret : m.ret = false) : SearchReplies start n k ((p, false) :: pages) (m :: ms)
  | last {k : Nat} {p : SearchPage} {m : SdpMessage} {ms : List SdpMessage} (extra : List UInt8) (hp : p.Wf)
      (hlast : p.contState = [0])
      (hm : Holds m.reader (pduIdServiceSearchReq + 1) (chainId start k) (p.params extra)) (hmem : m.env.paramsHeap ≠ none)
      (hret : m.ret = true) : SearchReplies start n k [(p, true)] (m :: ms)

/-- The pages the function hears: up to the first for which it returns `false`. -/
def heard : List (SearchPage × Bool) → List SearchPage
  | [] => []
  | (p, ret) :: pages => p :: if ret then heard pages else []

@[simp] theorem heard_true (p : SearchPage) (pages : List (SearchPage × Bool)) :
    heard ((p, true) :: pages) = p :: heard pages := rfl

theorem heard_ne_nil (q : SearchPage × Bool) (pages : List (SearchPage × Bool)) : heard (q :: pages) ≠ [] :=
  List.cons_ne_nil _ _

/-- The requests for the pages behind these continuation states: the parameters of the first request and the state, each
with the next transaction id. -/
inductive Continues (start : Nat) (params : List UInt8) : Nat → List (List UInt8) → List (List Packet) → Prop where
  | nil (k : Nat) : Continues start params k [] []
  | cons {k : Nat} {contState : List UInt8} {contStates : List (List UInt8)} {ps : List Packet} {pss : List (List Packet)}
      (hps : IsPdu ps pduIdServiceSearchReq (chainId start k) (params ++ contState))
      (h : Continues start params (k + 1) contStates pss) : Continues start params k (contState :: contStates) (ps :: pss)

/-! ## One page -/

/-- The parser reads the handles back. -/
theorem handles_read : ∀ (handles : List Nat) (rest : List UInt8), (∀ h ∈ handles, h < 2 ^ 32) →
    (List.range handles.length).map (fun i => beVal (slice (handles.flatMap (beBytes 4) ++ rest) (i * 4) 4)) = handles
  | [], _, _ => rfl
  | h :: handles, rest, hlt => by
    have ih := handles_read handles rest fun x hx => hlt x (List.mem_cons_of_mem h hx)
    have hfirst : beVal (slice (beBytes 4 h ++ (handles.flatMap (beBytes 4) ++ rest)) 0 4) = h := by
      rw [slice, List.drop_zero, List.take_left' (length_beBytes 4 h), beVal_beBytes]
      exact Nat.mod_eq_of_lt (hlt h List.mem_cons_self)
    have hnext : ∀ i, slice (beBytes 4 h ++ (handles.flatMap (beBytes 4) ++ rest)) ((i + 1) * 4) 4 =
        slice (handles.flatMap (beBytes 4) ++ rest) (i * 4) 4 := by
      intro i
      rw [slice, slice, show (i + 1) * 4 = 4 + i * 4 by omega, ← List.drop_drop, List.drop_left' (length_beBytes 4 h)]
    rw [List.flatMap_cons, List.append_assoc, List.length_cons, List.range_succ_eq_map, List.map_cons, List.map_map]
    simp only [Nat.zero_mul, hfirst, Function.comp_def, Nat.succ_eq_add_one, hnext, ih]

theorem length_flatMap_beBytes (handles : List Nat) : (handles.flatMap (beBytes 4)).length = handles.length * 4 := by
  induction handles with
  | nil => rfl
  | cons h handles ih =>
    rw [List.flatMap_cons, List.length_append, ih, length_beBytes, List.length_cons]
    omega

/-- The parser on a well-formed page. -/
theorem parseServiceSearchReply_eq {p : SearchPage} (hp : p.Wf) {extra : List UInt8}
    (hshort : (p.params extra).length < 65536) (beyond : List UInt8) :
    parseServiceSearchReply (p.params extra ++ beyond) (p.params extra).length =
      some (p.reply, p.contState ++ (extra ++ beyond)) := by
  obtain ⟨len, bytes, hcont, hlen, hlen'⟩ := hp.contState
  have hsize : (p.params extra).length = 4 + p.handles.length * 4 + (1 + bytes.length + extra.length) := by
    simp only [SearchPage.params, List.length_append, length_beBytes, length_flatMap_beBytes, hcont, List.length_cons]
    omega
  have hmem : p.params extra ++ beyond = beBytes 2 p.totalCount ++ (beBytes 2 p.handles.length ++
      (p.handles.flatMap (beBytes 4) ++ (p.contState ++ (extra ++ beyond)))) := by
    simp only [SearchPage.params, List.append_assoc]
  have htotal : beVal (slice (p.params extra ++ beyond) 0 2) = p.totalCount := by
    rw [hmem, slice, List.drop_zero, List.take_left' (length_beBytes 2 _), beVal_beBytes]
    exact Nat.mod_eq_of_lt hp.totalCount
  have hcount : beVal (slice (p.params extra ++ beyond) 2 2) = p.handles.length := by
    rw [hmem, slice, List.drop_left' (length_beBytes 2 _), List.take_left' (length_beBytes 2 _), beVal_beBytes]
    exact Nat.mod_eq_of_lt (by omega)
  have hdrop : (p.params extra ++ beyond).drop 4 = p.handles.flatMap (beBytes 4) ++ (p.contState ++ (extra ++ beyond)) := by
    rw [hmem, show (4 : Nat) = 2 + 2 from rfl, ← List.drop_drop, List.drop_left' (length_beBytes 2 _),
      List.drop_left' (length_beBytes 2 _)]
  have hdrop' : (p.handles.flatMap (beBytes 4) ++ (p.contState ++ (extra ++ beyond))).drop (p.handles.length * 4) =
      p.contState ++ (extra ++ beyond) := List.drop_left' (length_flatMap_beBytes p.handles)
  have hcl : contStateLen (some (p.contState ++ (extra ++ beyond))) = 1 + bytes.length := by
    rw [hcont]
    exact (contStateBytes_some (extra ++ beyond) hlen).1
  have hfirst : (p.contState ++ (extra ++ beyond)).getD 0 0 = p.contState.getD 0 0 := by
    rw [hcont]
    rfl
  have h4 : ¬ (p.params extra).length < 4 := by omega
  have hroom : ¬ (p.params extra).length - 4 < p.handles.length * 4 := by omega
  have h1 : ¬ (p.params extra).length - 4 - p.handles.length * 4 < 1 := by omega
  have h17 : ¬ (1 + bytes.length > 17 ∨ 1 + bytes.length > (p.params extra).length - 4 - p.handles.length * 4) := by omega
  simp only [parseServiceSearchReply, if_neg h4, htotal, hcount, hdrop, if_neg hroom, hdrop', if_neg h1, hcl, if_neg h17,
    handles_read p.handles _ hp.handles, hfirst]
  rfl

/-- The client has sent request `k` of a search. -/
structure SearchInv (s : Sdp) (start : Nat) (params : List UInt8) (cb userdata k : Nat) : Prop where
  awaits : ∃ lastReq, Awaits s lastReq pduIdServiceSearchReq (chainId start k) params
  next : s.nextId = chainId start (k + 1)
  client : s.reqData.cb = cb ∧ s.reqData.userdata = userdata

/-- **One page** reaches the function; then the search is over, or the next request is sent. -/
theorem search_reply {s : Sdp} {start : Nat} {params : List UInt8} {cb userdata k : Nat}
    (hinv : SearchInv s start params cb userdata k) (hparams : params ≠ []) {m : SdpMessage} {p : SearchPage}
    {extra : List UInt8} (hp : p.Wf) (hm : Holds m.reader (pduIdServiceSearchReq + 1) (chainId start k) (p.params extra))
    (hmem : m.env.paramsHeap ≠ none) :
    (p.HasMore → m.ret = true → m.env.Accepts (params.length + p.contState.length) →
      ∃ s' ps, onMessageReceived m.env s m.reader m.ret = some s' ∧
        SearchInv s' start params cb userdata (k + 1) ∧ s'.calls = s.calls ++ [.serviceSearch cb userdata p.reply] ∧
        s'.sent = s.sent ++ [ps] ∧ IsPdu ps pduIdServiceSearchReq (chainId start (k + 1)) (params ++ p.contState)) ∧
    (¬ p.HasMore ∨ m.ret = false →
      ∃ s', onMessageReceived m.env s m.reader m.ret = some s' ∧ s'.lastReq = none ∧
        s'.calls = s.calls ++ [.serviceSearch cb userdata p.reply] ∧ s'.sent = s.sent) := by
  obtain ⟨lastReq, haw⟩ := hinv.awaits
  have hrecv := onMessageReceived_response haw (chainId_lt start k) m.ret hm rfl (by decide) hmem
  simp only [serveReply, haw.read.1, if_true, Option.bind_some] at hrecv
  have hparse := parseServiceSearchReply_eq hp hm.short m.env.beyond
  have hz : ¬ (0 : Nat) ≠ 0 := fun h => h rfl
  rw [hrecv]
  simp only [serveSearch, if_neg hz, hparse, hinv.client.1, hinv.client.2]
  have hhas : p.reply.hasMore = decide p.HasMore := rfl
  constructor
  · intro hmore hret hsend
    obtain ⟨len, bytes, hcont, hlen, _⟩ := hp.contState
    obtain ⟨tail, hpdu⟩ := haw.pdu
    have hsend' : m.env.Accepts (params.length + (1 + bytes.length)) := by
      rw [hcont, List.length_cons, Nat.add_comm bytes.length] at hsend
      exact hsend
    obtain ⟨ps, hcontReq, hpdu'⟩ := sendContinuationRequest_fits
      (s := { s with calls := s.calls ++ [.serviceSearch cb userdata p.reply] }) hpdu haw.offset
      (List.length_pos_iff.2 hparams) (extra ++ m.env.beyond) hlen hsend'
    have hstate : p.contState ++ (extra ++ m.env.beyond) = len :: (bytes ++ (extra ++ m.env.beyond)) := by
      rw [hcont]
      rfl
    refine ⟨{ ({ s with calls := s.calls ++ [.serviceSearch cb userdata p.reply] } : Sdp).takeId with
      lastReq := some ps, sent := s.sent ++ [ps] }, ps, ?_, ⟨⟨ps, rfl, ⟨p.contState, ?_⟩, haw.offset⟩, ?_, hinv.client⟩, rfl,
      rfl, ?_⟩
    · simp only [finishReply, hhas, hmore, decide_true, hret, Bool.not_true, Bool.or_false, Bool.false_eq_true, if_false,
        hstate, hcontReq, Option.map_some]
    · rw [hcont, ← hinv.next]
      exact hpdu'
    · exact chainId_succ hinv.next
    · rw [hcont, ← hinv.next]
      exact hpdu'
  · intro hover
    have hdone : (!p.reply.hasMore || !m.ret) = true := by
      rw [hhas]
      rcases hover with hno | hret
      · simp [hno]
      · simp [hret]
    refine ⟨{ s with lastReq := none, calls := s.calls ++ [.serviceSearch cb userdata p.reply] }, ?_, rfl, rfl, rfl⟩
    simp only [finishReply, hdone, if_true]

/-! ## The chain -/

/-- What has become of a search when its messages have arrived: the function has heard the pages, in order, and each but
the last was followed by a request with its continuation state; then there is no request. -/
structure Paged (s s' : Sdp) (start : Nat) (params : List UInt8) (cb userdata k : Nat) (pages : List SearchPage) : Prop where
  ended : s'.lastReq = none
  calls : s'.calls = s.calls ++ pages.map fun p => .serviceSearch cb userdata p.reply
  sent : ∃ reqs, s'.sent = s.sent ++ reqs ∧ Continues start params (k + 1) (pages.dropLast.map SearchPage.contState) reqs

/-- **The rest of a search**, from any point of it. -/
theorem search_ends {start cb userdata : Nat} {params : List UInt8} (hparams : params ≠ []) {k : Nat}
    {pages : List (SearchPage × Bool)} {ms : List SdpMessage} (hreplies : SearchReplies start params.length k pages ms) :
    ∀ {s : Sdp}, SearchInv s start params cb userdata k → pages ≠ [] →
      ∃ s', Sys.run sdpStep (some s) (ms.map .message) = some s' ∧
        Paged s s' start params cb userdata k (heard pages) := by
  -- a page that ends the search
  have hend : ∀ {s s' : Sdp} {k : Nat} {m : SdpMessage} (ms : List SdpMessage) {p : SearchPage},
      onMessageReceived m.env s m.reader m.ret = some s' → s'.lastReq = none →
      s'.calls = s.calls ++ [.serviceSearch cb userdata p.reply] → s'.sent = s.sent →
      ∃ s', Sys.run sdpStep (some s) ((m :: ms).map .message) = some s' ∧ Paged s s' start params cb userdata k [p] := by
    intro s s' k m ms p hm hnone hcalls hsent
    have hstep : sdpStep (some s) (.message m) = some s' := hm
    refine ⟨s', ?_, hnone, hcalls, [], ?_, .nil (k + 1)⟩
    · rw [List.map_cons, Sys.run_cons, hstep, run_idle hnone]
    · rw [hsent, List.append_nil]
  induction hreplies with
  | ended k ms =>
    intro s _ hne
    exact absurd rfl hne
  | @stray k pages m ms code id params' hid hm hne h ih =>
    intro s hinv hpages
    obtain ⟨lastReq, haw⟩ := hinv.awaits
    have hskip : onMessageReceived m.env s m.reader m.ret = some s := by
      refine onMessageReceived_other haw (chainId_lt start k) hid hm ?_
      rintro ⟨hid', hcode⟩
      rcases hne with hne | ⟨hne, hne'⟩
      · exact hne hid'
      · rcases hcode with hcode | hcode
        · exact hne (UInt8.toNat_inj.1 hcode)
        · exact hne' hcode
    have hstep : sdpStep (some s) (.message m) = some s := hskip
    rw [List.map_cons, Sys.run_cons, hstep]
    exact ih hinv hpages
  | @more k p q pages m ms extra hp hmore hm hmem hret hsend h ih =>
    intro s hinv _
    obtain ⟨s₁, ps, hs₁, hinv₁, hcalls₁, hsent₁, hpdu⟩ := (search_reply hinv hparams hp hm hmem).1 hmore hret hsend
    obtain ⟨s', hrun, hpaged⟩ := ih hinv₁ (List.cons_ne_nil q pages)
    have hstep : sdpStep (some s) (.message m) = some s₁ := hs₁
    obtain ⟨reqs, hsent, hcontinues⟩ := hpaged.sent
    refine ⟨s', ?_, hpaged.ended, ?_, ps :: reqs, ?_, ?_⟩
    · rw [List.map_cons, Sys.run_cons, hstep, hrun]
    · rw [hpaged.calls, hcalls₁, heard_true, List.map_cons, List.append_assoc, List.singleton_append]
    · rw [hsent, hsent₁, List.append_assoc, List.singleton_append]
    · rw [heard_true, List.dropLast_cons_of_ne_nil (heard_ne_nil q pages), List.map_cons]
      exact .cons hpdu hcontinues
  | @refused k p pages m ms extra hp hm hmem hret =>
    intro s hinv _
    obtain ⟨s', hs', hnone, hcalls, hsent⟩ := (search_reply hinv hparams hp hm hmem).2 (.inr hret)
    exact hend ms hs' hnone hcalls hsent
  | @last k p m ms extra hp hlast hm hmem hret =>
    intro s hinv _
    have hno : ¬ p.HasMore := by
      unfold SearchPage.HasMore
      rw [hlast]
      decide
    obtain ⟨s', hs', hnone, hcalls, hsent⟩ := (search_reply hinv hparams hp hm hmem).2 (.inl hno)
    exact hend ms hs' hnone hcalls hsent

/-- **Handles come in pages**: the function hears each page once and in order, up to the last or the first it refuses;
each continuation request is the first request with the peer's continuation state and the next transaction id; a PDU that
does not answer the request changes nothing; and at the end the client takes a new request. -/
theorem handles_paged (env : SdpEnv) (s : Sdp) (hidle : s.lastReq = none) (pattern : List UInt8)
    (maxCount cb userdata : Nat) (hacc : env.Accepts ((deBytes pattern).length + 3)) (pages : List (SearchPage × Bool))
    (hpages : pages ≠ []) (ms : List SdpMessage)
    (hreplies : SearchReplies s.nextTransactionId ((deBytes pattern).length + 2) 0 pages ms) :
    ∃ s₀ s', sdpStep (some s) (.serviceSearch env pattern maxCount cb userdata) = some s₀ ∧ s₀.calls = s.calls ∧
      (∃ ps, s₀.sent = s.sent ++ [ps] ∧ IsPdu ps pduIdServiceSearchReq (chainId s.nextTransactionId 0)
        (deBytes pattern ++ beBytes 2 maxCount ++ [0])) ∧
      Sys.run sdpStep (some s₀) (ms.map .message) = some s' ∧
      Paged s₀ s' s.nextTransactionId (deBytes pattern ++ beBytes 2 maxCount) cb userdata 0 (heard pages) ∧
      (∀ (s₁ : Sdp) (m : SdpMessage) hdr r, bteBufferReaderReadN m.reader pduHeaderSize = (some hdr, r) →
        (∀ req ∈ s₁.lastReq, ¬ matchesRequest req hdr) → onMessageReceived m.env s₁ m.reader m.ret = some s₁) ∧
      ∀ (env' : SdpEnv) (pattern' : List UInt8) (maxCount' cb' userdata' : Nat),
        env'.Accepts ((deBytes pattern').length + 3) →
        ∃ s'', bteSdpServiceSearchReq env' s' pattern' maxCount' cb' userdata' = some (true, s'') := by
  have hflat : ∀ (pattern : List UInt8) (maxCount : Nat), [deBytes pattern, beBytes 2 maxCount].flatten =
      deBytes pattern ++ beBytes 2 maxCount := by
    intro pattern maxCount
    simp
  have hlen : ∀ (pattern : List UInt8) (maxCount : Nat),
      [deBytes pattern, beBytes 2 maxCount].flatten.length = (deBytes pattern).length + 2 := by
    intro pattern maxCount
    rw [hflat, List.length_append, length_beBytes]
  obtain ⟨ps, s₀, hreq, haw, hpdu, hnext, hsent, hcalls, hdata⟩ := sdpRequest_fits hidle pduIdServiceSearchReq
    [deBytes pattern, beBytes 2 maxCount] (by rw [hlen]; exact hacc)
    { s.reqData with cb := cb, userdata := userdata }
  have hstep : sdpStep (some s) (.serviceSearch env pattern maxCount cb userdata) = some s₀ := by
    have hres : bteSdpServiceSearchReq env s pattern maxCount cb userdata = some (true, s₀) := hreq
    simp only [sdpStep, Option.bind_some, SdpOp.apply, hres, Option.map_some]
  rw [hflat] at haw hpdu
  have hparams : deBytes pattern ++ beBytes 2 maxCount ≠ [] := by
    intro hnil
    have hl := congrArg List.length hnil
    rw [List.length_append, length_beBytes] at hl
    cases hl
  have hinv : SearchInv s₀ s.nextTransactionId (deBytes pattern ++ beBytes 2 maxCount) cb userdata 0 := by
    refine ⟨⟨ps, haw⟩, ?_, by rw [hdata]; exact ⟨rfl, rfl⟩⟩
    unfold Sdp.nextId chainId
    rw [hnext]
    omega
  rw [← length_beBytes 2 maxCount, ← List.length_append] at hreplies
  obtain ⟨s', hrun, hpaged⟩ := search_ends hparams hreplies hinv hpages
  refine ⟨s₀, s', hstep, hcalls, ⟨ps, hsent, hpdu⟩, hrun, hpaged, ?_, ?_⟩
  · intro s₁ m hdr r hread hne
    cases hl : s₁.lastReq with
    | none => exact onMessageReceived_idle hl m.env m.reader m.ret
    | some req =>
      have hno := hne req (by rw [hl]; rfl)
      simp only [onMessageReceived, hl, hread, if_neg hno]
  · intro env' pattern' maxCount' cb' userdata' hacc'
    obtain ⟨_, s'', hreq', _⟩ := sdpRequest_fits hpaged.ended pduIdServiceSearchReq
      [deBytes pattern', beBytes 2 maxCount'] (by rw [hlen]; exact hacc')
      { s'.reqData with cb := cb', userdata := userdata' }
    exact ⟨s'', hreq'⟩

/-- Two pages, of two handles and of none; between them a page that answers request 5 and an unknown PDU, and the second
in two packets. -/
def twoPages : List (SearchPage × Bool) := [(⟨2, [0x11223344, 0x55667788], [1, 0xAA]⟩, true), (⟨2, [], [0]⟩, true)]

def twoPagesMessages : List SdpMessage :=
  [⟨readyEnv, messageReader (pduHeader 3 0 14 ++ (twoPages.headD (⟨0, [], []⟩, true)).1.params []) [], true⟩,
   ⟨readyEnv, messageReader (pduHeader 3 5 5 ++ [0, 0, 0, 0, 0]) [], false⟩,
   ⟨readyEnv, messageReader (pduHeader 9 1 0) [], false⟩,
   ⟨readyEnv, messageReader (pduHeader 3 1 5 ++ [0, 2]) [[0, 0, 0]], true⟩]

/-- At `twoPages` the function hears both, and the second request has the continuation state of the first page. -/
theorem handles_paged_twoPages :
    ∃ s, Sys.run sdpStep (some (bteSdpClientNew 0))
        (.serviceSearch readyEnv [0x35, 3, 0x19, 0x11, 0x22] 4 7 9 :: twoPagesMessages.map .message) = some s ∧
      s.calls = [.serviceSearch 7 9 ⟨0, 2, 2, true, some [0x11223344, 0x55667788]⟩,
        .serviceSearch 7 9 ⟨0, 2, 0, false, some []⟩] ∧
      s.sent.length = 2 ∧ s.lastReq = none := by
  have hwf : ∀ p ∈ twoPages.map Prod.fst, p.Wf := by
    intro p hp
    simp only [twoPages, List.map_cons, List.map_nil, List.mem_cons, List.not_mem_nil, or_false] at hp
    rcases hp with rfl | rfl
    · exact ⟨by decide, by decide, 1, [0xAA], rfl, rfl, by decide⟩
    · exact ⟨by decide, by decide, 0, [], rfl, rfl, by decide⟩
  have hreplies : SearchReplies 0 7 0 twoPages twoPagesMessages :=
    .more [] (hwf _ (by simp [twoPages])) (by decide) (by decide) (by simp [readyEnv]) rfl (by decide)
      (.stray 3 5 [0, 0, 0, 0, 0] (by decide) (by decide) (.inl (by decide))
        (.stray 9 1 [] (by decide) (by decide) (.inr (by decide))
          (.last [] (hwf _ (by simp [twoPages])) rfl (by decide) (by simp [readyEnv]) rfl)))
  obtain ⟨s₀, s, hs₀, hcalls, ⟨ps, hsent, _⟩, hrun, hpaged, _, _⟩ := handles_paged readyEnv
    (bteSdpClientNew 0) rfl [0x35, 3, 0x19, 0x11, 0x22] 4 7 9 (by decide) twoPages (by decide) twoPagesMessages hreplies
  refine ⟨s, ?_, ?_, ?_, hpaged.ended⟩
  · rw [Sys.run_cons, hs₀, hrun]
  · rw [hpaged.calls, hcalls]
    rfl
  · obtain ⟨reqs, hreqs, hcontinues⟩ := hpaged.sent
    cases hcontinues with
    | cons _ h =>
      cases h
      rw [hreqs, hsent]
      rfl

/-- The page of `twoPages` that is last, as the answer to the first request; its first packet ends within the header. -/
def splitHeaderPage : SdpMessage := ⟨readyEnv, messageReader [3, 0, 0, 0] [[5, 0, 2, 0, 0, 0]], true⟩

/-- The bytes of `splitHeaderPage` are those of the page, but its header is read through a null pointer. -/
theorem handles_splitHeader :
    splitHeaderPage.reader.rest = pduHeader 3 0 5 ++ SearchPage.params ⟨2, [], [0]⟩ [] ∧ splitHeaderPage.reader.Wf ∧
    (sdpStep (some (bteSdpClientNew 0)) (.serviceSearch readyEnv [0x35, 3, 0x19, 0x11, 0x22] 4 7 9)).isSome = true ∧
    (Sys.run sdpStep (some (bteSdpClientNew 0)) [.serviceSearch readyEnv [0x35, 3, 0x19, 0x11, 0x22] 4 7 9,
      .message splitHeaderPage]).isSome = false := by
  decide

end Bte
