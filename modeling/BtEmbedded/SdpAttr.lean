import BtEmbedded.SdpPdu
/-!
# SdpAttr — an attribute list in many replies (sdp.c)

The first fragment of a list tells its size; the client allocates that much and copies every fragment behind the ones
before.  `AttrReplies` is what a peer can send in answer to the requests of one chain: a fragment in the response to each,
and anywhere between them replies to requests that are over.  The list reaches the client's function once, whole, if the
fragments make up its size, and otherwise the function is told of the error, once (`attrList_reassembled`).
-/
namespace Bte

open Bytes

/-! ## The peer -/

/-- The parameters of an attribute response: a fragment and a continuation state. -/
def attrParams (fragment contState : List UInt8) : List UInt8 := beBytes 2 fragment.length ++ (fragment ++ contState)

/-- The `k`-th request of a chain whose first transaction id is `start`. -/
def chainId (start k : Nat) : Nat := (start + k) % 65536

/-- The allocations a reply needs succeed. -/
def SdpMessage.Allocates (m : SdpMessage) : Prop := m.env.paramsHeap ≠ none ∧ m.env.attrHeap ≠ none

instance (m : SdpMessage) : Decidable m.Allocates :=
  haveI : ∀ h : Option (Nat → UInt8), Decidable (h ≠ none) := fun h => decidable_of_iff (h.isSome = true) (by
    cases h <;> simp)
  inferInstanceAs (Decidable (_ ∧ _))

/-- Messages of a peer that has answered `k` requests and has the fragments in the list still to send: the response to
request `k` with the next fragment, replies to earlier requests of the chain, and after the last fragment anything.  `n`
is the length of the parameters that every request repeats; each continuation request is accepted. -/
inductive AttrReplies (code : UInt8) (start n : Nat) : Nat → List (List UInt8) → List SdpMessage → Prop where
  | ended (k : Nat) (ms : List SdpMessage) : AttrReplies code start n k [] ms
  | stale {k : Nat} {fs : List (List UInt8)} {m : SdpMessage} {ms : List SdpMessage} (j : Nat) (code' : UInt8)
      (params : List UInt8) (hj : j < k) (hm : Holds m.reader code' (chainId start j) params)
          (h : AttrReplies code start n k fs ms) :
      AttrReplies code start n k fs (m :: ms)
  | part {k : Nat} {f g : List UInt8} {fs : List (List UInt8)} {m : SdpMessage} {ms : List SdpMessage} (len : UInt8)
      (bytes : List UInt8) (hf : f ≠ []) (hlen : bytes.length = len.toNat) (hlen' : 1 ≤ len.toNat ∧ len.toNat ≤ 16)
      (hm : Holds m.reader code (chainId start k) (attrParams f (len :: bytes))) (hmem : m.Allocates)
      (hsend : m.env.Accepts (n + (1 + bytes.length))) (h : AttrReplies code start n (k + 1) (g :: fs) ms) :
      AttrReplies code start n k (f :: g :: fs) (m :: ms)
  | last {k : Nat} {f : List UInt8} {m : SdpMessage} {ms : List SdpMessage} (hf : f ≠ [])
      (hm : Holds m.reader code (chainId start k) (attrParams f [0])) (hmem : m.Allocates)
      (h : AttrReplies code start n (k + 1) [] ms) :
      AttrReplies code start n k [f] (m :: ms)

/-! ## Sizes -/

/-- The header of an element tells its size. -/
theorem totalSize_congr {a b : List UInt8} {n : Nat} (hn : bteSdpDeGetHeaderSize a ≤ n) (h : a.take n = b.take n) :
    bteSdpDeGetTotalSize a = bteSdpDeGetTotalSize b ∧ bteSdpDeGetHeaderSize a = bteSdpDeGetHeaderSize b := by
  have hpos : 1 ≤ bteSdpDeGetHeaderSize a := by
    unfold bteSdpDeGetHeaderSize
    split_ifs <;> decide
  have hfirst : a.getD 0 0 = b.getD 0 0 := getD_of_take_eq h (by omega) 0
  have hf : deFirst a = deFirst b := by rw [deFirst, hfirst, deFirst]
  have hid : deSizeId a = deSizeId b := by rw [deSizeId, hf, deSizeId]
  have hhdr : bteSdpDeGetHeaderSize a = bteSdpDeGetHeaderSize b := by
    unfold bteSdpDeGetHeaderSize
    rw [hid]
  have hdata : bteSdpDeGetDataSize a = bteSdpDeGetDataSize b := by
    unfold bteSdpDeGetHeaderSize at hn
    unfold bteSdpDeGetDataSize
    rw [← hid, ← hf]
    split_ifs at hn ⊢
    · rw [getD_of_take_eq h (by omega) 0]
    · rw [slice_of_take_eq h (by omega)]
    · rw [slice_of_take_eq h (by omega)]
    · rfl
    · rfl
  exact ⟨by rw [bteSdpDeGetTotalSize, hhdr, hdata, bteSdpDeGetTotalSize], hhdr⟩

/-! ## One reply -/

/-- What the client has of the list: nothing before the first reply, then `done` at the beginning of a buffer of the
size that the header of the element tells. -/
structure Collects (data : SdpReqData) (k total : Nat) (done : List UInt8) : Prop where
  counted : k ≤ done.length
  fits : done.length ≤ total
  written : data.written = done.length
  buffer : (k = 0 ∧ done = [] ∧ data.attrListDe = none) ∨
    (0 < k ∧ bteSdpDeGetHeaderSize done ≤ done.length ∧ bteSdpDeGetTotalSize done = total ∧
      ∃ list, data.attrListDe = some list ∧ list.length = total ∧ list.take done.length = done)

theorem slice_attrParams (f contState beyond : List UInt8) (hf : f.length < 65536) :
    beVal (slice (attrParams f contState ++ beyond) 0 2) = f.length ∧
    (attrParams f contState ++ beyond).drop 2 = f ++ (contState ++ beyond) := by
  have hl : (beBytes 2 f.length).length = 2 := length_beBytes 2 f.length
  constructor
  · rw [slice, List.drop_zero, attrParams, List.append_assoc, List.take_left' hl, beVal_beBytes]
    exact Nat.mod_eq_of_lt hf
  · rw [attrParams, List.append_assoc, List.drop_left' hl, List.append_assoc]

/-- The parser on a well-formed reply: what is left is to put the fragment in its place. -/
theorem parseServiceAttrReply_eq (env : SdpEnv) (data : SdpReqData) {f : List UInt8} {len : UInt8} {bytes : List UInt8}
    (hlen : bytes.length = len.toNat) (hlen' : len.toNat ≤ 16) (hf : (attrParams f (len :: bytes)).length < 65536) :
    parseServiceAttrReply env data (attrParams f (len :: bytes) ++ env.beyond) (attrParams f (len :: bytes)).length =
      storeAttrList env data f.length (f ++ (len :: bytes ++ env.beyond)) (len :: bytes ++ env.beyond) := by
  have hsize : (attrParams f (len :: bytes)).length = 2 + f.length + (1 + bytes.length) := by
    simp [attrParams]
    omega
  rw [hsize] at hf ⊢
  obtain ⟨hattrs, hdrop⟩ := slice_attrParams f (len :: bytes) env.beyond (by omega)
  have hcont : (f ++ (len :: bytes ++ env.beyond)).drop f.length = len :: bytes ++ env.beyond := List.drop_left' rfl
  have hcl := (contStateBytes_some env.beyond hlen).1
  have hcl' : contStateLen (some (len :: bytes ++ env.beyond)) = 1 + bytes.length := hcl
  have hrem : sub16 (2 + f.length + (1 + bytes.length) - 2) f.length = 1 + bytes.length := by
    rw [sub16_of_le (by omega) (by omega)]
    omega
  have h3 : ¬ 2 + f.length + (1 + bytes.length) < 3 := by omega
  have h1 : ¬ 1 + bytes.length < 1 := by omega
  have h17 : ¬ (1 + bytes.length > 17 ∨ 1 + bytes.length > 1 + bytes.length) := by omega
  simp only [parseServiceAttrReply, if_neg h3, hattrs, hdrop, hcont, hrem, if_neg h1, hcl', if_neg h17]

/-- Putting the next fragment in its place. -/
theorem storeFragment_fits {data : SdpReqData} {total : Nat} {done f list : List UInt8} (rest contState : List UInt8)
    (hlist : data.attrListDe = some list) (hl : list.length = total) (htake : list.take done.length = done)
    (hw : data.written = done.length) (hfit : done.length + f.length ≤ total) (htotal : total < 0x10000) :
    ∃ list', list'.length = total ∧ list'.take (done ++ f).length = done ++ f ∧
      storeFragment data total f.length (f ++ rest) contState =
        some (if contState.getD 0 0 = 0 ∧ (done ++ f).length ≠ total then none else some (list', contState),
          { data with attrListDe := some list', written := (done ++ f).length }) := by
  have hmod : (done.length + f.length) % 65536 = (done ++ f).length := by
    rw [List.length_append]
    exact Nat.mod_eq_of_lt (by omega)
  have hft : (f ++ rest).take f.length = f := List.take_left' rfl
  refine ⟨blit list done.length f, ?_, ?_, ?_⟩
  · rw [length_blit (by omega), hl]
  · rw [List.length_append, take_add_blit (by omega), htake]
  · have hnot : ¬ data.written + f.length > total := by omega
    rw [hw] at hnot
    simp only [storeFragment, hw, if_neg hnot, hlist, hft, hmod]
    split <;> rfl

/-- A fragment that is too long for what is missing. -/
theorem storeFragment_over {data : SdpReqData} {total attrsSize : Nat} (hover : data.written + attrsSize > total)
    (idList contState : List UInt8) : storeFragment data total attrsSize idList contState = some (none, data) := by
  rw [storeFragment, if_pos hover]

/-- **One fragment**: it is refused if it is too long or the last one and too short, otherwise it joins the others. -/
theorem storeAttrList_collects {env : SdpEnv} {data : SdpReqData} {k total : Nat} {done f : List UInt8}
    (hc : Collects data k total done) (htotal : total < 0x10000) (hf : f ≠ [])
    (hfirst : k = 0 → bteSdpDeGetHeaderSize f ≤ f.length ∧ bteSdpDeGetTotalSize f = total) (hheap : env.attrHeap ≠ none)
    (len : UInt8) (tail : List UInt8) :
    ∃ o data', storeAttrList env data f.length (f ++ len :: tail) (len :: tail) = some (o, data') ∧
      data'.cb = data.cb ∧ data'.userdata = data.userdata ∧
      ((o = none ∧ (total < (done ++ f).length ∨ len = 0 ∧ (done ++ f).length ≠ total)) ∨
        ∃ list, o = some (list, len :: tail) ∧ (done ++ f).length ≤ total ∧
          (len = 0 → (done ++ f).length = total ∧ list.take total = done ++ f) ∧
          (len ≠ 0 → Collects data' (k + 1) total (done ++ f))) := by
  have hpos : 0 < f.length := List.length_pos_iff.2 hf
  have happ : (done ++ f).length = done.length + f.length := List.length_append
  have hcounted := hc.counted
  have h0 : (len :: tail).getD 0 0 = len := rfl
  -- what follows once there is a buffer of the right size
  have hstore : ∀ (d : SdpReqData) (list : List UInt8), d.attrListDe = some list → list.length = total →
      list.take done.length = done → d.written = done.length → d.cb = data.cb → d.userdata = data.userdata →
      bteSdpDeGetHeaderSize (done ++ f) ≤ (done ++ f).length → bteSdpDeGetTotalSize (done ++ f) = total →
      ∃ o data', storeFragment d total f.length (f ++ len :: tail) (len :: tail) = some (o, data') ∧
        data'.cb = data.cb ∧ data'.userdata = data.userdata ∧
        ((o = none ∧ (total < (done ++ f).length ∨ len = 0 ∧ (done ++ f).length ≠ total)) ∨
          ∃ list, o = some (list, len :: tail) ∧ (done ++ f).length ≤ total ∧
            (len = 0 → (done ++ f).length = total ∧ list.take total = done ++ f) ∧
            (len ≠ 0 → Collects data' (k + 1) total (done ++ f))) := by
    intro d list hlist hl htake hw hcb hud hhdr hsize
    by_cases hover : done.length + f.length ≤ total
    · obtain ⟨list', hl', htake', hres⟩ :=
        storeFragment_fits (len :: tail) (len :: tail) hlist hl htake hw hover htotal
      rw [h0] at hres
      refine ⟨_, _, hres, hcb, hud, ?_⟩
      by_cases hbad : len = 0 ∧ (done ++ f).length ≠ total
      · rw [if_pos hbad]
        exact .inl ⟨rfl, .inr hbad⟩
      · rw [if_neg hbad]
        refine .inr ⟨list', rfl, by omega, ?_, ?_⟩
        · intro hlen
          have heq : (done ++ f).length = total := by
            by_contra hne
            exact hbad ⟨hlen, hne⟩
          rw [← heq]
          exact ⟨rfl, htake'⟩
        · intro _
          exact ⟨by omega, by omega, rfl, .inr ⟨by omega, hhdr, hsize, list', rfl, hl', htake'⟩⟩
    · have hres := storeFragment_over (show d.written + f.length > total by rw [hw]; omega)
        (f ++ len :: tail) (len :: tail)
      exact ⟨none, d, hres, hcb, hud, .inl ⟨rfl, .inl (by omega)⟩⟩
  have happend : bteSdpDeGetHeaderSize f ≤ f.length →
      bteSdpDeGetTotalSize (f ++ len :: tail) = bteSdpDeGetTotalSize f := by
    intro hh
    have htake : f.take f.length = (f ++ len :: tail).take f.length := by
      rw [List.take_left' rfl, List.take_of_length_le (Nat.le_refl _)]
    exact (totalSize_congr hh htake).1.symm
  rcases hc.buffer with ⟨rfl, rfl, hnone⟩ | ⟨hk, hhdr, hsize, list, hlist, hl, htake⟩
  · -- the first reply: the size of the list is read from it
    obtain ⟨hh, hs⟩ := hfirst rfl
    have ht := happend hh
    rw [hs] at ht
    simp only [storeAttrList, hnone, h0, ht]
    by_cases hlen : len = 0
    · have hnot : ¬ len ≠ 0 := not_not.2 hlen
      rw [if_neg hnot]
      by_cases hfl : f.length = total
      · rw [if_neg (not_not.2 hfl)]
        refine ⟨_, _, rfl, rfl, rfl, .inr ⟨_, rfl, ?_, ?_, fun h => absurd hlen h⟩⟩
        · rw [List.nil_append, hfl]
        · intro _
          rw [List.nil_append]
          exact ⟨hfl, List.take_left' hfl⟩
      · rw [if_pos hfl]
        exact ⟨_, _, rfl, rfl, rfl, .inl ⟨rfl, .inr ⟨hlen, hfl⟩⟩⟩
    · rw [if_pos hlen, if_neg (by omega)]
      obtain ⟨m, hm⟩ := Option.ne_none_iff_exists'.1 hheap
      have hmalloc : bteMalloc env.attrHeap total = some ((List.range total).map m) := by
        rw [hm]
        rfl
      exact hstore _ _ hmalloc (by simp) rfl hc.written rfl rfl hh hs
  · have hdone : (done ++ f).take done.length = done := List.take_left' rfl
    have hgrow := totalSize_congr (a := done) (b := done ++ f) hhdr (by rw [hdone, List.take_of_length_le (Nat.le_refl _)])
    have hbuf := totalSize_congr (a := done) (b := list) hhdr (by rw [htake, List.take_of_length_le (Nat.le_refl _)])
    simp only [storeAttrList, hlist, ← hbuf.1, hsize]
    exact hstore data list hlist hl htake hc.written rfl rfl (by rw [← hgrow.2]; omega) (by rw [← hgrow.1, hsize])

/-- The client has sent request `k` of the chain and has the fragments `done` of the list. -/
structure AttrInv (s : Sdp) (code : UInt8) (start : Nat) (params : List UInt8) (cb userdata k total : Nat)
    (done : List UInt8) : Prop where
  awaits : ∃ lastReq, Awaits s lastReq code (chainId start k) params
  next : s.nextId = chainId start (k + 1)
  client : s.reqData.cb = cb ∧ s.reqData.userdata = userdata
  collects : Collects s.reqData k total done

/-- The request is over, and the function was told this. -/
def EndsWith (s s' : Sdp) (cb userdata : Nat) (reply : SdpServiceAttrReply) : Prop :=
  s'.lastReq = none ∧ s'.calls = s.calls ++ [.serviceAttr cb userdata reply]

theorem chainId_lt (start k : Nat) : chainId start k < 65536 := Nat.mod_lt _ (by decide)

theorem chainId_succ {s : Sdp} {start k : Nat} (h : s.nextId = chainId start k) :
    s.takeId.nextId = chainId start (k + 1) := by
  unfold Sdp.nextId chainId at *
  simp only [Sdp.takeId]
  omega

/-- **One reply of the chain.** -/
theorem attr_reply {s : Sdp} {code : UInt8} {start : Nat} {params : List UInt8} {cb userdata k total : Nat}
    {done f : List UInt8} (hinv : AttrInv s code start params cb userdata k total done)
    (hcode : code = pduIdServiceAttrReq ∨ code = pduIdServiceSearchAttrReq) (hparams : params ≠ [])
        (htotal : total < 0x10000)
    (hf : f ≠ []) (hfirst : k = 0 → bteSdpDeGetHeaderSize f ≤ f.length ∧ bteSdpDeGetTotalSize f = total) {m : SdpMessage}
    {len : UInt8} {bytes : List UInt8} (hlen : bytes.length = len.toNat) (hlen' : len.toNat ≤ 16)
    (hm : Holds m.reader (code + 1) (chainId start k) (attrParams f (len :: bytes))) (hmem : m.Allocates)
    (hsend : len ≠ 0 → m.env.Accepts (params.length + (1 + bytes.length))) :
    ∃ s', onMessageReceived m.env s m.reader m.ret = some s' ∧
      ((len ≠ 0 ∧ (done ++ f).length ≤ total ∧ s'.calls = s.calls ∧
          AttrInv s' code start params cb userdata (k + 1) total (done ++ f)) ∨
        ((total < (done ++ f).length ∨ len = 0 ∧ (done ++ f).length ≠ total) ∧
          EndsWith s s' cb userdata ⟨bteSdpErrorParser, none⟩) ∨
        (len = 0 ∧ (done ++ f).length = total ∧
          ∃ list, list.take total = done ++ f ∧ EndsWith s s' cb userdata ⟨0, some list⟩)) := by
  obtain ⟨lastReq, haw⟩ := hinv.awaits
  have hnext : (code + 1).toNat = code.toNat + 1 := by rcases hcode with rfl | rfl <;> decide
  have hne : code ≠ 0 := by rcases hcode with rfl | rfl <;> decide
  have hnotsearch : ¬ code = pduIdServiceSearchReq := by rcases hcode with rfl | rfl <;> decide
  have hpos : 0 < params.length := List.length_pos_iff.2 hparams
  have hrecv := onMessageReceived_response haw (chainId_lt start k) m.ret hm hnext hne hmem.1
  simp only [serveReply, haw.read.1, if_neg hnotsearch, if_pos hcode] at hrecv
  have hparse := parseServiceAttrReply_eq m.env s.reqData hlen hlen' hm.short
  obtain ⟨o, data', hstore, hcb, hud, hcases⟩ :=
    storeAttrList_collects hinv.collects htotal hf hfirst hmem.2 len (bytes ++ m.env.beyond)
  rw [List.cons_append, hstore] at hparse
  have h0 : (len :: (bytes ++ m.env.beyond)).getD 0 0 = len := rfl
  have hz : ¬ (0 : Nat) ≠ 0 := fun h => h rfl
  rw [hrecv]
  simp only [serveAttr, if_neg hz, hparse]
  rcases hcases with ⟨rfl, hbad⟩ | ⟨list, rfl, hle, hlast, hmore⟩
  · refine ⟨_, rfl, .inr (.inl ⟨hbad, rfl, ?_⟩)⟩
    rw [← hinv.client.1, ← hinv.client.2, ← hcb, ← hud]
  · simp only [h0]
    by_cases hl : len = 0
    · rw [if_pos hl]
      refine ⟨_, rfl, .inr (.inr ⟨hl, (hlast hl).1, list, (hlast hl).2, rfl, ?_⟩)⟩
      rw [← hinv.client.1, ← hinv.client.2, ← hcb, ← hud]
    · rw [if_neg hl]
      obtain ⟨tail, hpdu⟩ := haw.pdu
      obtain ⟨ps, hcont, hpdu'⟩ := sendContinuationRequest_fits (s := { s with reqData := data' }) hpdu haw.offset hpos
        m.env.beyond hlen (hsend hl)
      refine ⟨{ ({ s with reqData := data' } : Sdp).takeId with lastReq := some ps, sent := s.sent ++ [ps] }, ?_,
        .inl ⟨hl, hle, rfl, ?_⟩⟩
      · simp only [Option.bind_some, finishReply, Bool.false_eq_true, if_false, hcont, Option.map_some]
      · refine ⟨⟨ps, rfl, ⟨len :: bytes, ?_⟩, haw.offset⟩, ?_, ?_, hmore hl⟩
        · rw [← hinv.next]
          exact hpdu'
        · exact chainId_succ hinv.next
        · exact ⟨hcb.trans hinv.client.1, hud.trans hinv.client.2⟩

/-! ## The chain -/

/-- One of the two attribute requests, with its opcode and its parameters but for the continuation state. -/
inductive AttrRequest (env : SdpEnv) (cb userdata : Nat) : SdpOp → UInt8 → List (List UInt8) → Prop where
  | serviceAttr (serviceRecord maxCount : Nat) (idList : List UInt8) :
      AttrRequest env cb userdata (.serviceAttr env serviceRecord maxCount idList cb userdata) pduIdServiceAttrReq
        [beBytes 4 serviceRecord, beBytes 2 maxCount, deBytes idList]
  | serviceSearchAttr (pattern : List UInt8) (maxCount : Nat) (idList : List UInt8) :
      AttrRequest env cb userdata (.serviceSearchAttr env pattern maxCount idList cb userdata) pduIdServiceSearchAttrReq
        [deBytes pattern, beBytes 2 maxCount, deBytes idList]

/-- Of the messages one ends the request: the function is called then and never before or after, and the request was
waiting for it.  `Last m` holds of that message. -/
def EndsOnce (s : Sdp) (ms : List SdpMessage) (cb userdata : Nat) (reply : SdpServiceAttrReply) (Last : SdpMessage → Prop) :
    Prop :=
  ∃ pre m post s₁ s₂, ms = pre ++ m :: post ∧ Sys.run sdpStep (some s) (pre.map .message) = some s₁ ∧
    s₁.calls = s.calls ∧ s₁.lastReq ≠ none ∧ onMessageReceived m.env s₁ m.reader m.ret = some s₂ ∧ Last m ∧
    EndsWith s s₂ cb userdata reply ∧ Sys.run sdpStep (some s) (ms.map .message) = some s₂

theorem EndsOnce.cons {s s' : Sdp} {m : SdpMessage} {ms : List SdpMessage} {cb userdata : Nat}
    {reply : SdpServiceAttrReply} {Last : SdpMessage → Prop}
    (hm : onMessageReceived m.env s m.reader m.ret = some s') (hcalls : s'.calls = s.calls)
    (h : EndsOnce s' ms cb userdata reply Last) : EndsOnce s (m :: ms) cb userdata reply Last := by
  obtain ⟨pre, m', post, s₁, s₂, rfl, hpre, hc, hreq, hend, hlast, ⟨hnone, hcall⟩, hrun⟩ := h
  have hstep : sdpStep (some s) (.message m) = some s' := hm
  refine ⟨m :: pre, m', post, s₁, s₂, rfl, ?_, hc.trans hcalls, hreq, hend, hlast, ⟨hnone, by rw [hcall, hcalls]⟩, ?_⟩
  · rw [List.map_cons, Sys.run_cons, hstep, hpre]
  · rw [List.map_cons, Sys.run_cons, hstep, hrun]

theorem EndsOnce.here {s s' : Sdp} {m : SdpMessage} {cb userdata : Nat} {reply : SdpServiceAttrReply}
    {Last : SdpMessage → Prop} (hreq : s.lastReq ≠ none) (hm : onMessageReceived m.env s m.reader m.ret = some s')
    (hlast : Last m) (hend : EndsWith s s' cb userdata reply) (ms : List SdpMessage) :
    EndsOnce s (m :: ms) cb userdata reply Last := by
  have hstep : sdpStep (some s) (.message m) = some s' := hm
  refine ⟨[], m, ms, s, s', rfl, rfl, rfl, hreq, hm, hlast, hend, ?_⟩
  rw [List.map_cons, Sys.run_cons, hstep, run_idle hend.1]

theorem EndsOnce.mono {s : Sdp} {ms : List SdpMessage} {cb userdata : Nat} {reply : SdpServiceAttrReply}
    {Last Last' : SdpMessage → Prop} (h : EndsOnce s ms cb userdata reply Last) (himp : ∀ m, Last m → Last' m) :
    EndsOnce s ms cb userdata reply Last' := by
  obtain ⟨pre, m, post, s₁, s₂, hms, hpre, hc, hreq, hend, hlast, hrest⟩ := h
  exact ⟨pre, m, post, s₁, s₂, hms, hpre, hc, hreq, hend, himp m hlast, hrest⟩

theorem chainId_ne {start j k : Nat} (hj : j < k) (hk : k < 65536) : chainId start j ≠ chainId start k := by
  unfold chainId
  omega

/-- **The rest of a chain**, from any point of it. -/
theorem chain_ends {code : UInt8} {start cb userdata total : Nat} {params : List UInt8}
    (hcode : code = pduIdServiceAttrReq ∨ code = pduIdServiceSearchAttrReq) (hparams : params ≠ [])
    (htotal : total < 0x10000) {k : Nat} {fs : List (List UInt8)} {ms : List SdpMessage}
    (hreplies : AttrReplies (code + 1) start params.length k fs ms) :
    ∀ {s : Sdp} {done : List UInt8}, AttrInv s code start params cb userdata k total done → fs ≠ [] →
      (k = 0 → bteSdpDeGetHeaderSize (fs.headD []) ≤ (fs.headD []).length ∧ bteSdpDeGetTotalSize (fs.headD []) = total) →
      if (done ++ fs.flatten).length = total then
        ∃ list, list.take total = done ++ fs.flatten ∧ EndsOnce s ms cb userdata ⟨0, some list⟩ fun m =>
          Holds m.reader (code + 1) (chainId start (k + fs.length - 1)) (attrParams (fs.getLastD []) [0])
      else EndsOnce s ms cb userdata ⟨bteSdpErrorParser, none⟩ fun _ => True := by
  induction hreplies with
  | ended k ms =>
    intro s done _ hne
    exact absurd rfl hne
  | @stale k fs m ms j code' params' hj hm h ih =>
    intro s done hinv hne hfirst
    have hk : k < 65536 := by
      have h1 := hinv.collects.counted
      have h2 := hinv.collects.fits
      omega
    obtain ⟨lastReq, haw⟩ := hinv.awaits
    have hskip : onMessageReceived m.env s m.reader m.ret = some s :=
      onMessageReceived_other haw (chainId_lt start k) (chainId_lt start j) hm fun h => chainId_ne hj hk h.1
    have hrest := ih hinv hne hfirst
    split at hrest
    · obtain ⟨list, hlist, hends⟩ := hrest
      rw [if_pos (by assumption)]
      exact ⟨list, hlist, hends.cons hskip rfl⟩
    · rw [if_neg (by assumption)]
      exact hrest.cons hskip rfl
  | @part k f g fs m ms len bytes hf hlen hlen' hm hmem hsend h ih =>
    intro s done hinv hne hfirst
    have hlen0 : len ≠ 0 := by
      rintro rfl
      exact absurd hlen'.1 (by decide)
    have hreq : s.lastReq ≠ none := by
      obtain ⟨lastReq, haw⟩ := hinv.awaits
      rw [haw.request]
      exact Option.some_ne_none lastReq
    obtain ⟨s', hs', hcases⟩ := attr_reply hinv hcode hparams htotal hf hfirst hlen hlen'.2 hm hmem fun _ => hsend
    rcases hcases with ⟨_, _, hcalls, hinv'⟩ | ⟨hbad, hend⟩ | ⟨h0, _⟩
    · have hrest := ih hinv' (List.cons_ne_nil g fs) fun h => by cases h
      have happ : done ++ f ++ (g :: fs).flatten = done ++ (f :: g :: fs).flatten := by
        rw [List.flatten_cons (l := f), List.append_assoc]
      rw [happ] at hrest
      have hidx : k + 1 + (g :: fs).length - 1 = k + (f :: g :: fs).length - 1 := by
        simp only [List.length_cons]
        omega
      rw [hidx] at hrest
      split at hrest
      · obtain ⟨list, hlist, hends⟩ := hrest
        rw [if_pos (by assumption)]
        exact ⟨list, hlist, hends.cons hs' hcalls⟩
      · rw [if_neg (by assumption)]
        exact hrest.cons hs' hcalls
    · -- too long already: the fragments cannot make up the size
      have hover : total < (done ++ f).length := hbad.resolve_right fun h => hlen0 h.1
      have hne' : ¬ (done ++ (f :: g :: fs).flatten).length = total := by
        simp only [List.flatten_cons, List.length_append] at hover ⊢
        omega
      rw [if_neg hne']
      exact .here hreq hs' trivial hend ms
    · exact absurd h0 hlen0
  | @last k f m ms hf hm hmem h ih =>
    intro s done hinv hne hfirst
    have hreq : s.lastReq ≠ none := by
      obtain ⟨lastReq, haw⟩ := hinv.awaits
      rw [haw.request]
      exact Option.some_ne_none lastReq
    have hflat : [f].flatten = f := by simp
    have hlast : k + [f].length - 1 = k := by simp
    rw [hflat, hlast]
    obtain ⟨s', hs', hcases⟩ := attr_reply hinv hcode hparams htotal hf hfirst
      (show ([] : List UInt8).length = (0 : UInt8).toNat from rfl) (by decide) hm hmem fun h => absurd rfl h
    rcases hcases with ⟨h0, _⟩ | ⟨hbad, hend⟩ | ⟨_, heq, list, hlist, hend⟩
    · exact absurd rfl h0
    · have hne' : ¬ (done ++ f).length = total := by
        rcases hbad with hover | ⟨_, hneq⟩
        · omega
        · exact hneq
      rw [if_neg hne']
      exact .here hreq hs' trivial hend ms
    · rw [if_pos heq]
      exact ⟨list, hlist, .here hreq hs' hm hend ms⟩

/-- **An attribute list comes together from any fragments**: the function is called once, after the last of them, with
the bytes of the list, or with an error if they are not as many as the list's header says. -/
theorem attrList_reassembled (env : SdpEnv) (s : Sdp) (hidle : s.lastReq = none) {op : SdpOp} {code : UInt8}
    {chunks : List (List UInt8)} {cb userdata : Nat} (hop : AttrRequest env cb userdata op code chunks)
    (hacc : env.Accepts (chunks.flatten.length + 1)) (f : List UInt8) (fs : List (List UInt8)) (ms : List SdpMessage)
    (hhdr : bteSdpDeGetHeaderSize (f :: fs).flatten ≤ f.length) (htotal : bteSdpDeGetTotalSize (f :: fs).flatten < 0x10000)
    (hreplies : AttrReplies (code + 1) s.nextTransactionId chunks.flatten.length 0 (f :: fs) ms) :
    ∃ s₀, sdpStep (some s) op = some s₀ ∧ s₀.calls = s.calls ∧ s₀.lastReq ≠ none ∧
      if (f :: fs).flatten.length = bteSdpDeGetTotalSize (f :: fs).flatten then
        ∃ list, list.take (bteSdpDeGetTotalSize (f :: fs).flatten) = (f :: fs).flatten ∧
          EndsOnce s₀ ms cb userdata ⟨0, some list⟩ fun m => Holds m.reader (code + 1)
            (chainId s.nextTransactionId fs.length) (attrParams ((f :: fs).getLastD []) [0])
      else EndsOnce s₀ ms cb userdata ⟨bteSdpErrorParser, none⟩ fun _ => True := by
  have hcode : code = pduIdServiceAttrReq ∨ code = pduIdServiceSearchAttrReq := by
    cases hop
    · exact .inl rfl
    · exact .inr rfl
  have hparams : chunks.flatten ≠ [] := by
    intro hnil
    have hlen := congrArg List.length hnil
    cases hop <;> simp at hlen
  obtain ⟨ps, s₀, hreq, haw, _, hnext, _, hcalls, hdata⟩ := sdpRequest_fits hidle code chunks hacc ⟨cb, userdata, none, 0⟩
  have hstep : sdpStep (some s) op = some s₀ := by
    cases hop with
    | serviceAttr serviceRecord maxCount idList =>
      have hres : bteSdpServiceAttrReq env s serviceRecord maxCount idList cb userdata = some (true, s₀) := hreq
      simp only [sdpStep, Option.bind_some, SdpOp.apply, hres, Option.map_some]
    | serviceSearchAttr pattern maxCount idList =>
      have hres : bteSdpServiceSearchAttrReq env s pattern maxCount idList cb userdata = some (true, s₀) := hreq
      simp only [sdpStep, Option.bind_some, SdpOp.apply, hres, Option.map_some]
  have hhead := totalSize_congr (a := (f :: fs).flatten) (b := f) hhdr
    (by rw [List.flatten_cons, List.take_left' rfl, List.take_of_length_le (Nat.le_refl _)])
  have hinv : AttrInv s₀ code s.nextTransactionId chunks.flatten cb userdata 0
      (bteSdpDeGetTotalSize (f :: fs).flatten) [] := by
    refine ⟨⟨ps, haw⟩, ?_, by rw [hdata]; exact ⟨rfl, rfl⟩, Nat.le_refl 0, Nat.zero_le _, ?_, .inl ⟨rfl, rfl, ?_⟩⟩
    · unfold Sdp.nextId chainId
      rw [hnext]
      omega
    · rw [hdata]
      rfl
    · rw [hdata]
  have hreqd : s₀.lastReq ≠ none := by
    rw [haw.request]
    exact Option.some_ne_none ps
  have hend := chain_ends hcode hparams htotal hreplies hinv (List.cons_ne_nil f fs) fun _ =>
    ⟨Nat.le_trans (Nat.le_of_eq hhead.2.symm) hhdr, hhead.1.symm⟩
  have hidx : 0 + (f :: fs).length - 1 = fs.length := by simp
  rw [List.nil_append, hidx] at hend
  exact ⟨s₀, hstep, hcalls, hreqd, hend⟩

/-- A message in the given pieces, each in a packet of its own, as the channel's function gets it. -/
def messageReader (first : List UInt8) (pieces : List (List UInt8)) : BufferReader :=
  let packet (bytes : List UInt8) : Packet := ⟨bytes.length, bytes.length, bytes⟩
  ⟨packet (List.replicate 8 0 ++ first), pieces.map fun p => packet (List.replicate 4 0 ++ p), 8, 4⟩

/-- A channel that takes what is sent, with memory for everything. -/
def readyEnv : SdpEnv :=
  ⟨0x41, 672, 0x42, 64, true, 1, true, fun _ _ => 0xAA, ⟨32, true⟩, some fun _ => 0, some fun _ => 0, [0xEE]⟩

/-- The request for the attributes 0 to 0xffff of record 0x10001. -/
def attrOp : SdpOp := .serviceAttr readyEnv 0x10001 0x1234 [0x35, 5, 0x0a, 0, 0, 0xff, 0xff] 7 9

/-- The list 35 03 19 11 22 in two replies, the first of them twice, the second in two packets. -/
def twoReplies : List SdpMessage :=
  [⟨readyEnv, messageReader (pduHeader 5 0xffff 7 ++ attrParams [0x35, 3] [2, 0xAA, 0xBB]) [], true⟩,
   ⟨readyEnv, messageReader (pduHeader 5 0xffff 7 ++ attrParams [0x35, 3] [2, 0xAA, 0xBB]) [], true⟩,
   ⟨readyEnv, messageReader (pduHeader 5 0 6) [[0, 3, 0x19], [0x11, 0x22, 0]], true⟩]

/-- At `twoReplies` the function gets the five bytes, once, and the client is free again. -/
theorem attrList_reassembled_twoReplies :
    ∃ s list, Sys.run sdpStep (some (bteSdpClientNew 0xffff)) (attrOp :: twoReplies.map .message) = some s ∧
      s.calls = [.serviceAttr 7 9 ⟨0, some list⟩] ∧ list.take 5 = [0x35, 3, 0x19, 0x11, 0x22] ∧ s.lastReq = none := by
  have hreplies : AttrReplies (pduIdServiceAttrReq + 1) 0xffff 13 0 [[0x35, 3], [0x19, 0x11, 0x22]] twoReplies :=
    .part 2 [0xAA, 0xBB] (by decide) rfl (by decide) (by decide) (by decide) (by decide)
      (.stale 0 5 (attrParams [0x35, 3] [2, 0xAA, 0xBB]) (by decide) (by decide)
        (.last (by decide) (by decide) (by decide) (.ended 2 [])))
  obtain ⟨s₀, hs₀, hcalls, _, h⟩ := attrList_reassembled readyEnv (bteSdpClientNew 0xffff) rfl
    (AttrRequest.serviceAttr 0x10001 0x1234 [0x35, 5, 0x0a, 0, 0, 0xff, 0xff] : AttrRequest readyEnv 7 9 ..) (by decide)
    [0x35, 3] [[0x19, 0x11, 0x22]] twoReplies (by decide) (by decide) hreplies
  rw [if_pos (by decide)] at h
  obtain ⟨list, hlist, _, _, _, _, s, _, _, _, _, _, _, ⟨hnone, hcall⟩, hrun⟩ := h
  refine ⟨s, list, ?_, ?_, hlist, hnone⟩
  · rw [Sys.run_cons, show sdpStep (some (bteSdpClientNew 0xffff)) attrOp = some s₀ from hs₀, hrun]
  · rw [hcall, hcalls]
    rfl

/-- The reply to `attrOp` with the whole list; its first packet ends within the header. -/
def splitHeaderReply : SdpMessage :=
  ⟨readyEnv, messageReader [5, 0, 0, 0] [[8, 0, 5, 0x35, 3, 0x19, 0x11, 0x22, 0]], true⟩

/-- The bytes of `splitHeaderReply` are those of the reply, but its header is read through a null pointer. -/
theorem attrList_splitHeader :
    splitHeaderReply.reader.rest = pduHeader 5 0 8 ++ attrParams [0x35, 3, 0x19, 0x11, 0x22] [0] ∧
    splitHeaderReply.reader.Wf ∧
    (sdpStep (some (bteSdpClientNew 0)) attrOp).isSome = true ∧
    (Sys.run sdpStep (some (bteSdpClientNew 0)) [attrOp, .message splitHeaderReply]).isSome = false := by
  decide

end Bte
