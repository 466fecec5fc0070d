import BtEmbedded.L2capHandshake
import BtEmbedded.L2capPayload
import BtEmbedded.L2capWrite
/-!
# L2capSending — the packets of a configuration (l2cap.c)

The loop of `l2cap_config_send` ends in any case, since each turn that goes on has used a credit of the controller.  What it
has sent by then is all of the options only if each fits into the remote MTU, which the peer chooses, and each packet but the
last leaves at once.  And since each packet is written through one pointer, what it takes of the remote MTU has to fit
into one
packet of the controller.
-/
namespace Bte

open Bytes Fill

/-! ## A request -/

/-- The options that Configuration Requests for a channel have carried. -/
def requestOptions (p : Nat) (log : List L2event) : List UInt8 :=
  log.flatMap fun e =>
    match e with
    | .emitted q code _ body => if q = some p ∧ code = l2capSignalConfigReq then body.drop 4 else []
    | _ => []

/-- The requests for a channel are carried by their packets. -/
def RequestsCarried (host : L2capHost) (p : Nat) (log : List L2event) : Prop :=
  ∀ id body, .emitted (some p) l2capSignalConfigReq id body ∈ log → CarriesBody host l2capSignalConfigReq id body

/-- The id after one. -/
def signalIdAfter (last : Nat) : Nat := ((if last = 0xff then 0 else last) + 1) % 256

/-- The packets of the requests that carry some loads of options. -/
def requestMessages (host : L2capHost) (remoteChannelId : Nat) (params : ConfigureParams) :
    List (List ConfigOption) → Nat → Nat → List (List Packet)
  | [], _, _ => []
  | load :: loads, msgId, last =>
    let flags := if loads.isEmpty then 0 else l2capConfigFlagContinuation
    (cmdPackets host l2capSignalConfigReq msgId
      (leBytes 2 remoteChannelId ++ leBytes 2 flags ++ encodeOptions params load)).getD [] ::
      requestMessages host remoteChannelId params loads (signalIdAfter last) (signalIdAfter last)

/-- Each message in turn leaves the queue at once: `bte_acl_send_message` does not return 0. -/
def Departs (rc : Nat → Int) : AclOut → List (List Packet) → Prop
  | _, [] => True
  | dev, buffer :: buffers =>
    (bteAclSendMessage rc dev buffer).1 ≠ 0 ∧ Departs rc (bteAclSendMessage rc dev buffer).2 buffers

instance decidableDeparts (rc : Nat → Int) : ∀ (dev : AclOut) (buffers : List (List Packet)),
    Decidable (Departs rc dev buffers)
  | _, [] => .isTrue trivial
  | dev, buffer :: buffers =>
    have := decidableDeparts rc (bteAclSendMessage rc dev buffer).2 buffers
    inferInstanceAs (Decidable (_ ∧ _))

/-- **What lets a request out whole**: each option present fits into the remote MTU, each packet but the last leaves at once,
and each fits into one of the controller. -/
structure RequestFits (host : L2capHost) (w : L2capLink) (p : Nat) (params : ConfigureParams) (msgId : Nat) : Prop where
  options : ∀ o ∈ presentFrom params 0, optionSize o ≤ (w.channels p).remoteMtu
  departs : Departs host.rc w.dev (requestMessages host (w.channels p).remoteChannelId params
    (loads optionSize (w.channels p).remoteMtu 8 (presentFrom params 0)) msgId w.lastSignalId).dropLast
  packets : ∀ load ∈ loads optionSize (w.channels p).remoteMtu 8 (presentFrom params 0),
    host.Fits (l2capConfigReqHdrLen + (load.map optionSize).sum)

/-- The loop ends, and has sent every option exactly once, in packets that carry them. -/
structure RequestSent (host : L2capHost) (w : L2capLink) (p : Nat) (params : ConfigureParams) (msgId : Nat) : Prop where
  ends : ∀ fuel, w.dev.aclAvailablePackets < fuel → configRequestLoop host p params fuel 0 msgId w =
    configRequestLoop host p params (w.dev.aclAvailablePackets + 1) 0 msgId w
  options : requestOptions p ((configRequestLoop host p params (w.dev.aclAvailablePackets + 1) 0 msgId w).2.log.drop
    w.log.length) = encodeOptions params (presentFrom params 0)
  carried : RequestsCarried host p
    ((configRequestLoop host p params (w.dev.aclAvailablePackets + 1) 0 msgId w).2.log.drop w.log.length)

/-- The body of a request, from a start command on. -/
def requestBody (w : L2capLink) (p : Nat) (params : ConfigureParams) (startCmd : Nat) : List UInt8 :=
  let opts := l2capConfigWrite params startCmd (w.channels p).remoteMtu
  leBytes 2 (w.channels p).remoteChannelId ++ leBytes 2 (configFlags opts.1) ++ opts.2

/-- The packets of one turn of the loop. -/
def requestBuffer (host : L2capHost) (w : L2capLink) (p : Nat) (params : ConfigureParams) (startCmd msgId : Nat) :
    List Packet := (cmdPackets host l2capSignalConfigReq msgId (requestBody w p params startCmd)).getD []

/-- The link once they are sent. -/
def requestTurn (host : L2capHost) (w : L2capLink) (p : Nat) (params : ConfigureParams) (startCmd msgId : Nat) : L2capLink :=
  ((w.note (.request p l2capSignalConfigReq msgId w.table)).send host (some p) l2capSignalConfigReq msgId
    (requestBody w p params startCmd) (requestBuffer host w p params startCmd msgId)).2

/-- The channel awaits the response to the packet sent last. -/
def awaitConfigRsp (w : L2capLink) (p : Nat) : L2capLink :=
  w.modify p fun l2cap => { l2cap with
    expectedResponseCode := l2capSignalConfigRsp
    expectedResponseCount := (l2cap.expectedResponseCount + 1) % 256
    expectedResponseId := w.lastSignalId }

theorem requestLoop_succ (host : L2capHost) (p : Nat) (params : ConfigureParams) (fuel startCmd msgId : Nat)
    (w : L2capLink) : configRequestLoop host p params (fuel + 1) startCmd msgId w =
      if (bteAclSendMessage host.rc w.dev (requestBuffer host w p params startCmd msgId)).1 = 0 then
        (false, requestTurn host w p params startCmd msgId)
      else if (l2capConfigWrite params startCmd (w.channels p).remoteMtu).1 > 0 then
        configRequestLoop host p params fuel (l2capConfigWrite params startCmd (w.channels p).remoteMtu).1
          (requestTurn host w p params startCmd msgId).nextSignalId.1
          (awaitConfigRsp (requestTurn host w p params startCmd msgId).nextSignalId.2 p)
      else (true, awaitConfigRsp (requestTurn host w p params startCmd msgId) p) := by
  rw [configRequestLoop]
  simp only
  split
  · rename_i hrc
    exact (if_pos hrc).symm
  · rename_i hrc
    refine Eq.trans ?_ (if_neg hrc).symm
    by_cases hnext : (l2capConfigWrite params startCmd (w.channels p).remoteMtu).1 > 0
    · rw [if_pos hnext, if_pos hnext, if_pos hnext]
      rfl
    · rw [if_neg hnext, if_neg hnext, if_neg hnext]
      rfl

/-- **The loop ends**: more fuel than credits changes nothing. -/
theorem requestLoop_fuel (host : L2capHost) (p : Nat) (params : ConfigureParams) :
    ∀ (fuel fuel' startCmd msgId : Nat) (w : L2capLink), w.dev.aclAvailablePackets < fuel →
      w.dev.aclAvailablePackets < fuel' →
      configRequestLoop host p params fuel startCmd msgId w = configRequestLoop host p params fuel' startCmd msgId w
  | 0, _, _, _, _, h, _ => absurd h (Nat.not_lt_zero _)
  | _ + 1, 0, _, _, _, _, h => absurd h (Nat.not_lt_zero _)
  | fuel + 1, fuel' + 1, startCmd, msgId, w, h, h' => by
    rw [requestLoop_succ, requestLoop_succ]
    by_cases hrc : (bteAclSendMessage host.rc w.dev (requestBuffer host w p params startCmd msgId)).1 = 0
    · rw [if_pos hrc, if_pos hrc]
    · have huse := sendMessage_uses host.rc w.dev _ hrc
      have hsent : (awaitConfigRsp (requestTurn host w p params startCmd msgId).nextSignalId.2 p).dev.aclAvailablePackets <
          w.dev.aclAvailablePackets := huse
      rw [if_neg hrc, if_neg hrc]
      split
      · exact requestLoop_fuel host p params fuel fuel' _ _ _ (by omega) (by omega)
      · rfl

theorem requestOptions_append (p : Nat) (a b : List L2event) :
    requestOptions p (a ++ b) = requestOptions p a ++ requestOptions p b := List.flatMap_append ..

theorem requestOptions_turn (w : L2capLink) (p : Nat) (params : ConfigureParams) (startCmd msgId : Nat) :
    requestOptions p [.emitted (some p) l2capSignalConfigReq msgId (requestBody w p params startCmd)] =
      (l2capConfigWrite params startCmd (w.channels p).remoteMtu).2 := by
  have hhead : ∀ flags, (leBytes 2 (w.channels p).remoteChannelId ++ leBytes 2 flags).length = 4 := by simp
  simp only [requestOptions, List.flatMap_cons, List.flatMap_nil, and_self, if_true, List.append_nil, requestBody]
  exact List.drop_left' (hhead _)

/-- What is sent from an option on is not sent from before it. -/
theorem encodeOptions_ne_nil {params : ConfigureParams} {o : ConfigOption} {ys : List ConfigOption} :
    encodeOptions params (o :: ys) ≠ [] := by
  simp [encodeOptions, Tlv.bytes]

theorem type_pos (o : ConfigOption) : o.type > 0 := by cases o <;> decide

theorem encodeOptions_append (params : ConfigureParams) (xs ys : List ConfigOption) :
    encodeOptions params (xs ++ ys) = encodeOptions params xs ++ encodeOptions params ys := by
  rw [encodeOptions, List.map_append, Tlv.encode_append]
  rfl

theorem remote_awaitConfigRsp (w : L2capLink) (p q : Nat) :
    ((awaitConfigRsp w p).channels q).remoteMtu = (w.channels q).remoteMtu ∧
      ((awaitConfigRsp w p).channels q).remoteChannelId = (w.channels q).remoteChannelId := by
  by_cases hq : q = p
  · subst hq
    simp [awaitConfigRsp, L2capLink.modify]
  · simp [awaitConfigRsp, L2capLink.modify, hq]

/-- The first of the messages is the one that is sent next. -/
theorem requestMessages_load (host : L2capHost) (w : L2capLink) (p : Nat) (params : ConfigureParams) (startCmd msgId : Nat)
    {loads : List (List ConfigOption)}
    (hloads : loads = [] ↔ (fill optionSize (w.channels p).remoteMtu (presentFrom params startCmd)).2 = []) (last : Nat) :
    requestMessages host (w.channels p).remoteChannelId params
        ((fill optionSize (w.channels p).remoteMtu (presentFrom params startCmd)).1 :: loads) msgId last =
      requestBuffer host w p params startCmd msgId ::
        requestMessages host (w.channels p).remoteChannelId params loads (signalIdAfter last) (signalIdAfter last) := by
  have hwrite := configWrite_eq params startCmd (w.channels p).remoteMtu
  rw [requestMessages, requestBuffer, requestBody, hwrite]
  cases hleft : (fill optionSize (w.channels p).remoteMtu (presentFrom params startCmd)).2 with
  | nil => rw [hloads.2 hleft]; rfl
  | cons o ys =>
    have hflags : configFlags (nextCommand (o :: ys)) = l2capConfigFlagContinuation := by
      cases o <;> rfl
    have hne : loads ≠ [] := fun h => List.cons_ne_nil o ys (hleft.symm.trans (hloads.1 h))
    simp only [hflags, List.isEmpty_iff, hne, if_false]

theorem requestMessages_more (host : L2capHost) (w : L2capLink) (p : Nat) (params : ConfigureParams) (startCmd msgId : Nat)
    {o : ConfigOption} {ys : List ConfigOption} {loads : List (List ConfigOption)} (hloads : loads ≠ [])
    (hleft : (fill optionSize (w.channels p).remoteMtu (presentFrom params startCmd)).2 = o :: ys) (last : Nat) :
    (requestMessages host (w.channels p).remoteChannelId params
        ((fill optionSize (w.channels p).remoteMtu (presentFrom params startCmd)).1 :: loads) msgId last).dropLast =
      requestBuffer host w p params startCmd msgId ::
        (requestMessages host (w.channels p).remoteChannelId params loads (signalIdAfter last)
          (signalIdAfter last)).dropLast := by
  have hrest : requestMessages host (w.channels p).remoteChannelId params loads (signalIdAfter last) (signalIdAfter last) ≠
      [] := by
    cases loads with
    | nil => exact absurd rfl hloads
    | cons load loads => simp [requestMessages]
  rw [requestMessages_load host w p params startCmd msgId (by simp [hloads, hleft]), List.dropLast_cons_of_ne_nil hrest]

/-- **What the loop sends from a start command on**: all the options from there exactly if each fits, and each packet but the
last leaves at once. -/
theorem requestLoop_options (host : L2capHost) (p : Nat) (params : ConfigureParams) :
    ∀ (fuel n startCmd msgId : Nat) (w : L2capLink), w.dev.aclAvailablePackets < fuel →
      (presentFrom params startCmd).length < n →
      ∃ new, (configRequestLoop host p params fuel startCmd msgId w).2.log = w.log ++ new ∧
        (requestOptions p new = encodeOptions params (presentFrom params startCmd) ↔
          (∀ o ∈ presentFrom params startCmd, optionSize o ≤ (w.channels p).remoteMtu) ∧
            Departs host.rc w.dev (requestMessages host (w.channels p).remoteChannelId params
              (loads optionSize (w.channels p).remoteMtu n (presentFrom params startCmd)) msgId w.lastSignalId).dropLast)
  | 0, _, _, _, _, h, _ => absurd h (Nat.not_lt_zero _)
  | _ + 1, 0, _, _, _, _, h => absurd h (Nat.not_lt_zero _)
  | fuel + 1, n + 1, startCmd, msgId, w, hfuel, hn => by
    have happend := fill_append optionSize (w.channels p).remoteMtu (presentFrom params startCmd)
    have hwrite := configWrite_eq params startCmd (w.channels p).remoteMtu
    have hturn := requestOptions_turn w p params startCmd msgId
    rw [requestLoop_succ, loads]
    cases hleft : (fill optionSize (w.channels p).remoteMtu (presentFrom params startCmd)).2 with
    | nil =>
      -- all that is left goes into this packet, which need not leave at once
      rw [hleft] at happend hwrite
      rw [List.append_nil] at happend
      rw [hwrite] at hturn ⊢
      refine ⟨[.emitted (some p) l2capSignalConfigReq msgId (requestBody w p params startCmd)], ?_, ?_⟩
      · split
        · rfl
        · rfl
      · rw [hturn]
        refine iff_of_true (congrArg (encodeOptions params) happend) ⟨fun o ho => ?_, trivial⟩
        rw [← happend] at ho
        exact fill_fits optionSize ho
    | cons o ys =>
      have hnext := presentFrom_next (happend.symm.trans (congrArg _ hleft))
      have hlen := congrArg List.length happend
      rw [hleft, List.length_append] at hlen
      have hloads : loads optionSize (w.channels p).remoteMtu n (o :: ys) ≠ [] := by
        cases n with
        | zero =>
          simp only [List.length_cons] at hlen
          omega
        | succ n => exact List.cons_ne_nil _ _
      have hmessages := requestMessages_more host w p params startCmd msgId hloads hleft w.lastSignalId
      rw [hleft] at hwrite happend
      rw [List.isEmpty_cons, if_neg Bool.false_ne_true, hmessages]
      have hsplit : encodeOptions params (presentFrom params startCmd) =
          encodeOptions params (fill optionSize (w.channels p).remoteMtu (presentFrom params startCmd)).1 ++
            encodeOptions params (o :: ys) := by
        rw [← encodeOptions_append, happend]
      rw [hwrite] at hturn
      have hfst : (l2capConfigWrite params startCmd (w.channels p).remoteMtu).1 = o.type := congrArg Prod.fst hwrite
      rw [hfst]
      by_cases hrc : (bteAclSendMessage host.rc w.dev (requestBuffer host w p params startCmd msgId)).1 = 0
      · -- the packet waits in the queue, and the options after it are not sent at all
        rw [if_pos hrc]
        refine ⟨[.emitted (some p) l2capSignalConfigReq msgId (requestBody w p params startCmd)], rfl,
          iff_of_false (fun h => ?_) fun h => h.2.1 hrc⟩
        rw [hturn, hsplit] at h
        exact encodeOptions_ne_nil (List.self_eq_append_right.1 h)
      · have huse := sendMessage_uses host.rc w.dev _ hrc
        rw [if_neg hrc]
        obtain ⟨hmtu, hcid⟩ := remote_awaitConfigRsp (requestTurn host w p params startCmd msgId).nextSignalId.2 p p
        have hstep : ∀ m, (o :: ys).length < m → ∃ new,
            (configRequestLoop host p params fuel o.type (requestTurn host w p params startCmd msgId).nextSignalId.1
              (awaitConfigRsp (requestTurn host w p params startCmd msgId).nextSignalId.2 p)).2.log =
              w.log ++ [.emitted (some p) l2capSignalConfigReq msgId (requestBody w p params startCmd)] ++ new ∧
            (requestOptions p new = encodeOptions params (o :: ys) ↔
              (∀ x ∈ o :: ys, optionSize x ≤ (w.channels p).remoteMtu) ∧
                Departs host.rc (bteAclSendMessage host.rc w.dev (requestBuffer host w p params startCmd msgId)).2
                  (requestMessages host (w.channels p).remoteChannelId params
                    (loads optionSize (w.channels p).remoteMtu m (o :: ys)) (signalIdAfter w.lastSignalId)
                    (signalIdAfter w.lastSignalId)).dropLast) := by
          intro m hm
          have hrest := requestLoop_options host p params fuel m o.type
            (requestTurn host w p params startCmd msgId).nextSignalId.1
            (awaitConfigRsp (requestTurn host w p params startCmd msgId).nextSignalId.2 p)
            (lt_of_lt_of_le huse (Nat.lt_succ_iff.1 hfuel)) (by rwa [hnext])
          rw [hnext, hmtu, hcid] at hrest
          exact hrest
        rw [if_pos (type_pos o)]
        by_cases hempty : (fill optionSize (w.channels p).remoteMtu (presentFrom params startCmd)).1 = []
        · -- the option is too large for any packet
          have hlarge : ¬ optionSize o ≤ (w.channels p).remoteMtu := by
            have := fill_next optionSize hleft
            rw [hempty] at this
            simpa using this
          obtain ⟨new, hlog, hiff⟩ := hstep (n + 1) (by omega)
          refine ⟨_ :: new, hlog.trans (List.append_assoc ..), ?_⟩
          rw [← List.singleton_append, requestOptions_append, hturn, hsplit]
          refine iff_of_false (fun h => ?_) fun h => ?_
          · exact hlarge ((hiff.1 (List.append_cancel_left h)).1 o (List.mem_cons_self ..))
          · exact hlarge (h.1 o (happend ▸ List.mem_append_right _ (List.mem_cons_self ..)))
        · obtain ⟨new, hlog, hiff⟩ := hstep n (by have := List.length_pos_iff.2 hempty; omega)
          refine ⟨_ :: new, hlog.trans (List.append_assoc ..), ?_⟩
          rw [← List.singleton_append, requestOptions_append, hturn, hsplit]
          refine (List.append_right_inj _).trans
            (hiff.trans ⟨fun h => ⟨fun x hx => ?_, hrc, h.2⟩, fun h => ⟨fun x hx => ?_, h.2.2⟩⟩)
          · rw [← happend] at hx
            rcases List.mem_append.1 hx with hx | hx
            · exact fill_fits optionSize hx
            · exact h.1 x hx
          · exact h.1 x (happend ▸ List.mem_append_right _ hx)

theorem length_requestBody (w : L2capLink) (p : Nat) (params : ConfigureParams) (startCmd : Nat) :
    (requestBody w p params startCmd).length =
      l2capConfigReqHdrLen + ((fill optionSize (w.channels p).remoteMtu (presentFrom params startCmd)).1.map
          optionSize).sum := by
  have hpresent : ∀ o ∈ (fill optionSize (w.channels p).remoteMtu (presentFrom params startCmd)).1, o.present params := by
    intro o ho
    have happend := fill_append optionSize (w.channels p).remoteMtu (presentFrom params startCmd)
    exact (mem_presentFrom (happend ▸ List.mem_append_left _ ho)).2
  rw [requestBody, configWrite_eq]
  simp [length_encodeOptions params hpresent, l2capConfigReqHdrLen]
  omega

theorem requestsCarried_cons (host : L2capHost) (p id : Nat) (body : List UInt8) (new : List L2event) :
    RequestsCarried host p (.emitted (some p) l2capSignalConfigReq id body :: new) ↔
      CarriesBody host l2capSignalConfigReq id body ∧ RequestsCarried host p new := by
  constructor
  · exact fun h => ⟨h id body List.mem_cons_self, fun id' body' he => h id' body' (List.mem_cons_of_mem _ he)⟩
  · rintro ⟨hfirst, hrest⟩ id' body' he
    rcases List.mem_cons.1 he with heq | he
    · cases heq
      exact hfirst
    · exact hrest id' body' he

section Carried
variable {host : L2capHost} (hm : 4 < host.aclMtu) (hm' : host.aclMtu < 65536) (hc : host.connHandle ≤ 0xfff)
include hm hm' hc

/-- **The requests that carry all of the options** are carried by their packets exactly if each load of them fits into
one. -/
theorem requestLoop_carried (p : Nat) (params : ConfigureParams) :
    ∀ (fuel n startCmd msgId : Nat) (w : L2capLink), w.dev.aclAvailablePackets < fuel →
      (presentFrom params startCmd).length < n →
      (∀ o ∈ presentFrom params startCmd, optionSize o ≤ (w.channels p).remoteMtu) →
      Departs host.rc w.dev (requestMessages host (w.channels p).remoteChannelId params
        (loads optionSize (w.channels p).remoteMtu n (presentFrom params startCmd)) msgId w.lastSignalId).dropLast →
      ∃ new, (configRequestLoop host p params fuel startCmd msgId w).2.log = w.log ++ new ∧
        (RequestsCarried host p new ↔ ∀ load ∈ loads optionSize (w.channels p).remoteMtu n (presentFrom params startCmd),
          host.Fits (l2capConfigReqHdrLen + (load.map optionSize).sum))
  | 0, _, _, _, _, h, _, _, _ => absurd h (Nat.not_lt_zero _)
  | _ + 1, 0, _, _, _, _, h, _, _ => absurd h (Nat.not_lt_zero _)
  | fuel + 1, n + 1, startCmd, msgId, w, hfuel, hn, hoptions, hdeparts => by
    have happend := fill_append optionSize (w.channels p).remoteMtu (presentFrom params startCmd)
    have hwrite := configWrite_eq params startCmd (w.channels p).remoteMtu
    have hbody : CarriesBody host l2capSignalConfigReq msgId (requestBody w p params startCmd) ↔ host.Fits
        (l2capConfigReqHdrLen +
          ((fill optionSize (w.channels p).remoteMtu (presentFrom params startCmd)).1.map optionSize).sum) := by
      rw [carries_iff hm hm' hc, length_requestBody]
    rw [requestLoop_succ]
    rw [loads] at hdeparts ⊢
    cases hleft : (fill optionSize (w.channels p).remoteMtu (presentFrom params startCmd)).2 with
    | nil =>
      rw [hleft] at hwrite
      refine ⟨[.emitted (some p) l2capSignalConfigReq msgId (requestBody w p params startCmd)], ?_, ?_⟩
      · rw [hwrite]
        split
        · rfl
        · rfl
      · rw [requestsCarried_cons, hbody, List.isEmpty_nil, if_pos rfl, List.forall_mem_singleton]
        exact and_iff_left fun _ _ he => by cases he
    | cons o ys =>
      have hnext := presentFrom_next (happend.symm.trans (congrArg _ hleft))
      have hlen := congrArg List.length happend
      rw [hleft, List.length_append] at hlen
      rw [hleft] at hwrite happend
      -- the option fits, so that the load before it is not empty
      have hfits : (fill optionSize (w.channels p).remoteMtu (presentFrom params startCmd)).1 ≠ [] := by
        intro hempty
        have hlarge := fill_next optionSize hleft
        rw [hempty] at hlarge
        have := hoptions o (happend ▸ List.mem_append_right _ List.mem_cons_self)
        simp at hlarge
        omega
      have hshort : (o :: ys).length < n := by
        have := List.length_pos_iff.2 hfits
        omega
      have hloads : loads optionSize (w.channels p).remoteMtu n (o :: ys) ≠ [] := by
        cases n with
        | zero => exact absurd hshort (Nat.not_lt_zero _)
        | succ n => exact List.cons_ne_nil _ _
      rw [hleft, List.isEmpty_cons, if_neg Bool.false_ne_true,
        requestMessages_more host w p params startCmd msgId hloads hleft] at hdeparts
      obtain ⟨hrc, hdeparts⟩ := hdeparts
      have hfst : (l2capConfigWrite params startCmd (w.channels p).remoteMtu).1 = o.type := congrArg Prod.fst hwrite
      have huse := sendMessage_uses host.rc w.dev _ hrc
      obtain ⟨hmtu, hcid⟩ := remote_awaitConfigRsp (requestTurn host w p params startCmd msgId).nextSignalId.2 p p
      have hrest := requestLoop_carried p params fuel n o.type
        (requestTurn host w p params startCmd msgId).nextSignalId.1
        (awaitConfigRsp (requestTurn host w p params startCmd msgId).nextSignalId.2 p)
        (lt_of_lt_of_le huse (Nat.lt_succ_iff.1 hfuel)) (by rwa [hnext])
      rw [hnext, hmtu, hcid] at hrest
      obtain ⟨new, hlog, hiff⟩ := hrest (fun x hx => hoptions x (happend ▸ List.mem_append_right _ hx)) hdeparts
      rw [if_neg hrc, hfst, if_pos (type_pos o)]
      refine ⟨.emitted (some p) l2capSignalConfigReq msgId (requestBody w p params startCmd) :: new,
        hlog.trans (List.append_assoc ..), ?_⟩
      rw [requestsCarried_cons, hbody, hiff, List.isEmpty_cons, if_neg Bool.false_ne_true, List.forall_mem_cons]
      rfl

/-- **A request gets out whole exactly if it fits.** -/
theorem requestSent_iff (w : L2capLink) (p : Nat) (params : ConfigureParams) (msgId : Nat) :
    RequestSent host w p params msgId ↔ RequestFits host w p params msgId := by
  obtain ⟨new, hlog, hiff⟩ := requestLoop_options host p params (w.dev.aclAvailablePackets + 1) 8 0 msgId w
    (Nat.lt_succ_self _) (length_presentFrom params 0)
  have hnew : (configRequestLoop host p params (w.dev.aclAvailablePackets + 1) 0 msgId w).2.log.drop w.log.length = new := by
    rw [hlog, List.drop_left]
  have hcarried : (∀ o ∈ presentFrom params 0, optionSize o ≤ (w.channels p).remoteMtu) →
      Departs host.rc w.dev (requestMessages host (w.channels p).remoteChannelId params
        (loads optionSize (w.channels p).remoteMtu 8 (presentFrom params 0)) msgId w.lastSignalId).dropLast →
      (RequestsCarried host p new ↔ ∀ load ∈ loads optionSize (w.channels p).remoteMtu 8 (presentFrom params 0),
        host.Fits (l2capConfigReqHdrLen + (load.map optionSize).sum)) := by
    intro hoptions hdeparts
    obtain ⟨new', hlog', hiff'⟩ := requestLoop_carried hm hm' hc p params (w.dev.aclAvailablePackets + 1) 8 0 msgId w
      (Nat.lt_succ_self _) (length_presentFrom params 0) hoptions hdeparts
    obtain rfl := List.append_cancel_left (hlog.symm.trans hlog')
    exact hiff'
  constructor
  · rintro ⟨-, hoptions, hpackets⟩
    rw [hnew] at hoptions hpackets
    obtain ⟨hfits, hdeparts⟩ := hiff.1 hoptions
    exact ⟨hfits, hdeparts, (hcarried hfits hdeparts).1 hpackets⟩
  · rintro ⟨hfits, hdeparts, hpackets⟩
    refine ⟨fun fuel hfuel => ?_, hnew ▸ hiff.2 ⟨hfits, hdeparts⟩, hnew ▸ (hcarried hfits hdeparts).2 hpackets⟩
    exact requestLoop_fuel host p params _ _ _ _ w hfuel (Nat.lt_succ_self _)

end Carried

/-! ## A response -/

/-- The options that Configuration Responses for a channel have carried. -/
def responseOptions (p : Nat) (log : List L2event) : List UInt8 :=
  log.flatMap fun e =>
    match e with
    | .emitted q code _ body => if q = some p ∧ code = l2capSignalConfigRsp then body.drop 6 else []
    | _ => []

/-- The options recorded as pending. -/
def pendingOptions (l2cap : L2cap) : List UInt8 :=
  match l2cap.configureReq with
  | none => []
  | some conf =>
    if conf.hasPendingPackets then encodeOptions conf.params (presentFrom conf.params conf.startCmd) else []

def responseBody (w : L2capLink) (p : Nat) (conf : ConfigureData) : List UInt8 := configResponse (w.channels p) conf

def responseBuffer (host : L2capHost) (w : L2capLink) (p : Nat) (conf : ConfigureData) (msgId : Nat) : List Packet :=
  (cmdPackets host l2capSignalConfigRsp msgId (responseBody w p conf)).getD []

/-- The one turn of the loop for a response. -/
def responseTurn (host : L2capHost) (w : L2capLink) (p : Nat) (conf : ConfigureData) (msgId : Nat) : L2capLink :=
  let next := (l2capConfigWrite conf.params (responseStart conf) (w.channels p).remoteMtu).1
  let buffer := responseBuffer host w p conf msgId
  let r := (w.record (.responding p next w.dev buffer)).send host (some p) l2capSignalConfigRsp msgId
    (responseBody w p conf) buffer
  r.2.modify p fun l2cap => { l2cap with configureReq := some (conf.sentUpTo (decide (r.1 ≠ 0)) next) }

/-- What the turn records. -/
def responseRecord (host : L2capHost) (w : L2capLink) (p : Nat) (conf : ConfigureData) (msgId : Nat) : ConfigureData :=
  conf.sentUpTo (decide ((bteAclSendMessage host.rc w.dev (responseBuffer host w p conf msgId)).1 ≠ 0))
    (l2capConfigWrite conf.params (responseStart conf) (w.channels p).remoteMtu).1

/-- What follows the turn is a change of state, if nothing is pending. -/
theorem configSendResponse_eq (host : L2capHost) (w : L2capLink) (p : Nat) (conf : ConfigureData) (msgId : Nat) :
    (configSendResponse host w p conf msgId).2 =
      if (responseRecord host w p conf msgId).hasPendingPackets then responseTurn host w p conf msgId
      else if responseResult conf = l2capConfigResOk then
        l2capSetState host (responseTurn host w p conf msgId) p
          (responseSent ((responseTurn host w p conf msgId).channels p).state)
      else responseTurn host w p conf msgId := rfl

/-- Every option is sent, or recorded as pending, before the change of state; and the response is carried by its packets. -/
structure ResponseSent (host : L2capHost) (w : L2capLink) (p : Nat) (conf : ConfigureData) (msgId : Nat) : Prop where
  options : responseOptions p ((responseTurn host w p conf msgId).log.drop w.log.length) ++
      pendingOptions ((responseTurn host w p conf msgId).channels p) =
    encodeOptions conf.params (presentFrom conf.params (responseStart conf))
  carried : CarriesBody host l2capSignalConfigRsp msgId (responseBody w p conf)

/-- The options of a response fit into the remote MTU, or its packet leaves at once. -/
def ResponseWhole (host : L2capHost) (w : L2capLink) (p : Nat) (conf : ConfigureData) (msgId : Nat) : Prop :=
  ((presentFrom conf.params (responseStart conf)).map optionSize).sum ≤ (w.channels p).remoteMtu ∨
    (bteAclSendMessage host.rc w.dev (responseBuffer host w p conf msgId)).1 ≠ 0

/-- The length of a response: its header, and what the remote MTU takes of the options. -/
def responseLength (w : L2capLink) (p : Nat) (conf : ConfigureData) : Nat :=
  l2capConfigRspHdrLen +
    ((fill optionSize (w.channels p).remoteMtu (presentFrom conf.params (responseStart conf))).1.map optionSize).sum

/-- **What lets a response out whole**: the options fit into the remote MTU, or the packet leaves at once; and it fits
into one
of the controller. -/
structure ResponseFits (host : L2capHost) (w : L2capLink) (p : Nat) (conf : ConfigureData) (msgId : Nat) : Prop where
  whole : ResponseWhole host w p conf msgId
  packet : host.Fits (responseLength w p conf)

/-- The options are what follows the header. -/
theorem drop_responseBody (w : L2capLink) (p : Nat) (conf : ConfigureData) :
    (responseBody w p conf).drop 6 = (l2capConfigWrite conf.params (responseStart conf) (w.channels p).remoteMtu).2 := by
  have hhead : ∀ flags result, (leBytes 2 (w.channels p).remoteChannelId ++ leBytes 2 flags ++
      leBytes 2 result).length = 6 := by simp
  exact List.drop_left' (hhead _ _)

/-- The flags are the second word of it. -/
theorem word_responseBody (w : L2capLink) (p : Nat) (conf : ConfigureData) :
    word (responseBody w p conf) 1 =
      configFlags (l2capConfigWrite conf.params (responseStart conf) (w.channels p).remoteMtu).1 := by
  have hflags : ∀ next, configFlags next < 65536 := by
    intro next
    unfold configFlags
    split
    · decide
    · decide
  exact (leVal_leBytes 2 _).trans (Nat.mod_eq_of_lt (hflags _))

theorem responseOptions_turn (host : L2capHost) (w : L2capLink) (p : Nat) (conf : ConfigureData) (msgId : Nat) :
    responseOptions p ((responseTurn host w p conf msgId).log.drop w.log.length) =
      (l2capConfigWrite conf.params (responseStart conf) (w.channels p).remoteMtu).2 := by
  have hlog : (responseTurn host w p conf msgId).log = w.log ++
      [.responding p (l2capConfigWrite conf.params (responseStart conf) (w.channels p).remoteMtu).1 w.dev
          (responseBuffer host w p conf msgId),
        .emitted (some p) l2capSignalConfigRsp msgId (responseBody w p conf)] := List.append_assoc ..
  rw [hlog, List.drop_left]
  simp only [responseOptions, List.flatMap_cons, List.flatMap_nil, and_self, if_true, List.append_nil, List.nil_append,
    drop_responseBody]

theorem pendingOptions_turn (host : L2capHost) (w : L2capLink) (p : Nat) (conf : ConfigureData) (msgId : Nat) :
    pendingOptions ((responseTurn host w p conf msgId).channels p) =
      if (bteAclSendMessage host.rc w.dev (responseBuffer host w p conf msgId)).1 ≠ 0 ∧
          (l2capConfigWrite conf.params (responseStart conf) (w.channels p).remoteMtu).1 > 0 then
        encodeOptions conf.params (presentFrom conf.params
          (l2capConfigWrite conf.params (responseStart conf) (w.channels p).remoteMtu).1)
      else [] := by
  have hreq : ((responseTurn host w p conf msgId).channels p).configureReq = some (responseRecord host w p conf msgId) := by
    unfold responseTurn
    simp only [L2capLink.modify, Function.update_self]
    rfl
  rw [pendingOptions, hreq, responseRecord]
  by_cases hsent : (bteAclSendMessage host.rc w.dev (responseBuffer host w p conf msgId)).1 ≠ 0 ∧
      (l2capConfigWrite conf.params (responseStart conf) (w.channels p).remoteMtu).1 > 0
  · simp [ConfigureData.sentUpTo, hsent]
  · rw [if_neg hsent]
    have hnot : (decide ((bteAclSendMessage host.rc w.dev (responseBuffer host w p conf msgId)).1 ≠ 0) &&
        decide ((l2capConfigWrite conf.params (responseStart conf) (w.channels p).remoteMtu).1 > 0)) = false := by
      rw [← Bool.decide_and]
      exact decide_eq_false hsent
    simp only [ConfigureData.sentUpTo, hnot, Bool.false_eq_true, if_false]

/-- **Where a call stops**: all that is left is written, or the call returns the option that the rest begins with. -/
theorem configWrite_stops (params : ConfigureParams) (startCommand bufferSize : Nat) :
    (l2capConfigWrite params startCommand bufferSize).1 = 0 ∧
        (l2capConfigWrite params startCommand bufferSize).2 = encodeOptions params (presentFrom params startCommand) ∧
        ((presentFrom params startCommand).map optionSize).sum ≤ bufferSize ∨
      ∃ o ys, (l2capConfigWrite params startCommand bufferSize).1 = o.type ∧ presentFrom params o.type = o :: ys ∧
        encodeOptions params (presentFrom params startCommand) =
          (l2capConfigWrite params startCommand bufferSize).2 ++ encodeOptions params (o :: ys) ∧
        ¬ ((presentFrom params startCommand).map optionSize).sum ≤ bufferSize := by
  have happend := fill_append optionSize bufferSize (presentFrom params startCommand)
  have hwrite := configWrite_eq params startCommand bufferSize
  cases hleft : (fill optionSize bufferSize (presentFrom params startCommand)).2 with
  | nil =>
    have hle := fill_le optionSize bufferSize (presentFrom params startCommand)
    rw [hleft] at happend hwrite
    rw [List.append_nil] at happend
    rw [happend] at hwrite hle
    rw [hwrite]
    exact .inl ⟨rfl, rfl, hle⟩
  | cons o ys =>
    have hnext := presentFrom_next (happend.symm.trans (congrArg _ hleft))
    rw [hleft] at happend hwrite
    rw [hwrite]
    refine .inr ⟨o, ys, rfl, hnext, ?_, fun h => ?_⟩
    · rw [← encodeOptions_append, happend]
    · rw [fill_all optionSize h] at hleft
      cases hleft

/-- **Every option is sent or recorded exactly if the response goes out whole.** -/
theorem responseOptions_iff (host : L2capHost) (w : L2capLink) (p : Nat) (conf : ConfigureData) (msgId : Nat) :
    responseOptions p ((responseTurn host w p conf msgId).log.drop w.log.length) ++
        pendingOptions ((responseTurn host w p conf msgId).channels p) =
      encodeOptions conf.params (presentFrom conf.params (responseStart conf)) ↔ ResponseWhole host w p conf msgId := by
  unfold ResponseWhole
  rw [responseOptions_turn, pendingOptions_turn]
  rcases configWrite_stops conf.params (responseStart conf) (w.channels p).remoteMtu with
    ⟨hnext, hall, hsum⟩ | ⟨o, ys, hnext, hrest, hsplit, hsum⟩
  · rw [hnext, hall, if_neg fun h => absurd h.2 (Nat.lt_irrefl 0), List.append_nil]
    exact iff_of_true rfl (.inl hsum)
  · rw [hnext, hrest, hsplit, or_iff_right hsum]
    by_cases hrc : (bteAclSendMessage host.rc w.dev (responseBuffer host w p conf msgId)).1 ≠ 0
    · rw [if_pos ⟨hrc, type_pos o⟩]
      exact iff_of_true rfl hrc
    · rw [if_neg fun h => hrc h.1, List.append_nil]
      exact iff_of_false (fun h => encodeOptions_ne_nil (List.self_eq_append_right.1 h)) hrc

/-- **A response says that more is to come, and more is recorded, or neither**: if and only if it gets out whole. -/
theorem responseContinued_iff (host : L2capHost) (w : L2capLink) (p : Nat) (conf : ConfigureData) (msgId : Nat) :
    (configFlags (l2capConfigWrite conf.params (responseStart conf) (w.channels p).remoteMtu).1 ≠ 0 ↔
        pendingOptions ((responseTurn host w p conf msgId).channels p) ≠ []) ↔
      ResponseWhole host w p conf msgId := by
  unfold ResponseWhole
  rw [pendingOptions_turn]
  rcases configWrite_stops conf.params (responseStart conf) (w.channels p).remoteMtu with
    ⟨hnext, -, hsum⟩ | ⟨o, ys, hnext, hrest, -, hsum⟩
  · rw [hnext, if_neg fun h => absurd h.2 (Nat.lt_irrefl 0)]
    exact iff_of_true (iff_of_false (fun h => h rfl) fun h => h rfl) (.inl hsum)
  · have hflags : configFlags o.type ≠ 0 := by
      rw [configFlags, if_pos (type_pos o)]
      decide
    rw [hnext, hrest, or_iff_right hsum, iff_true_left hflags]
    by_cases hrc : (bteAclSendMessage host.rc w.dev (responseBuffer host w p conf msgId)).1 ≠ 0
    · rw [if_pos ⟨hrc, type_pos o⟩]
      exact iff_of_true encodeOptions_ne_nil hrc
    · rw [if_neg fun h => hrc h.1]
      exact iff_of_false (fun h => h rfl) hrc

theorem length_responseBody (w : L2capLink) (p : Nat) (conf : ConfigureData) :
    (responseBody w p conf).length = responseLength w p conf := by
  have hpresent : ∀ o ∈ (fill optionSize (w.channels p).remoteMtu (presentFrom conf.params (responseStart conf))).1,
      o.present conf.params := by
    intro o ho
    have happend := fill_append optionSize (w.channels p).remoteMtu (presentFrom conf.params (responseStart conf))
    exact (mem_presentFrom (happend ▸ List.mem_append_left _ ho)).2
  rw [responseBody, configResponse, configWrite_eq, responseLength]
  simp [length_encodeOptions conf.params hpresent, l2capConfigRspHdrLen]
  omega

section Either
variable {host : L2capHost} (hm : 4 < host.aclMtu) (hm' : host.aclMtu < 65536) (hc : host.connHandle ≤ 0xfff)

include hm hm' hc in
/-- A response is carried exactly if it fits into one packet. -/
theorem responseCarried_iff (w : L2capLink) (p : Nat) (conf : ConfigureData) (msgId : Nat) :
    CarriesBody host l2capSignalConfigRsp msgId (responseBody w p conf) ↔ host.Fits (responseLength w p conf) := by
  rw [carries_iff hm hm' hc, length_responseBody]

include hm hm' hc in
theorem responseSent_iff (w : L2capLink) (p : Nat) (conf : ConfigureData) (msgId : Nat) :
    ResponseSent host w p conf msgId ↔ ResponseFits host w p conf msgId := by
  have hoptions := responseOptions_iff host w p conf msgId
  have hcarried := responseCarried_iff hm hm' hc w p conf msgId
  exact ⟨fun h => ⟨hoptions.1 h.options, hcarried.1 h.carried⟩, fun h => ⟨hoptions.2 h.whole, hcarried.2 h.packet⟩⟩

/-! ## Either -/

/-- What the loop of `l2cap_config_send` should do. -/
def ConfigSent (host : L2capHost) (w : L2capLink) (p : Nat) (conf : ConfigureData) (msgId : Nat) : Prop :=
  if msgId ≠ 0 then ResponseSent host w p conf msgId
  else RequestSent host w.nextSignalId.2 p conf.params w.nextSignalId.1

def ConfigFits (host : L2capHost) (w : L2capLink) (p : Nat) (conf : ConfigureData) (msgId : Nat) : Prop :=
  if msgId ≠ 0 then ResponseFits host w p conf msgId
  else RequestFits host w.nextSignalId.2 p conf.params w.nextSignalId.1

include hm hm' hc in
/-- **The loop of `l2cap_config_send` sends every option exactly once, or records the rest of a response, in packets
that carry
what is sent, if and only if** the remote MTU and the credits allow it, and each packet fits into one of the controller. -/
theorem configSent_iff (w : L2capLink) (p : Nat) (conf : ConfigureData) (msgId : Nat) :
    ConfigSent host w p conf msgId ↔ ConfigFits host w p conf msgId := by
  unfold ConfigSent ConfigFits
  split
  · exact responseSent_iff hm hm' hc w p conf msgId
  · exact requestSent_iff hm hm' hc w.nextSignalId.2 p conf.params w.nextSignalId.1

end Either

/-- The peer announces an MTU of 16 in a request that is accepted. -/
def smallMtuRun : L2capLink :=
  Sys.run (L2capLink.step (plainHost.client keepChannels 1)) (.start (freeDev 8))
    [peerConnects, peerConfigures 2 { ConfigureParams.zero with fieldMask := ConfigOption.mtu.bit, mtu := 16 }]

/-- A quality of service. -/
def qosParams : ConfigureParams := { ConfigureParams.zero with qos := some ⟨0, 0, 0, 0, 0, 0, 0⟩ }

/-- A request for a quality of service, whose 24 bytes never fit: packets without options go out until the credits are
used up.  On a channel that takes them, over packets of 27 bytes, there is no pointer for them. -/
theorem configSent_not_smallMtu :
    ¬ ConfigSent (plainHost.client keepChannels 1) smallMtuRun 0 { ConfigureData.zero with params := qosParams } 0 ∧
    ¬ ConfigSent (narrowHost.client keepChannels 1) (.start (freeDev 8)) 0 { ConfigureData.zero with params :=
      qosParams } 0 := by
  constructor
  · intro h
    have hfits := ((requestSent_iff (by decide) (by decide) (by decide) ..).1 h).options
    revert hfits
    decide
  · intro h
    have hfits := ((requestSent_iff (by decide) (by decide) (by decide) ..).1 h).packets
    revert hfits
    decide

/-- On the first of these links an MTU, a flush timeout and a retransmission mode get out, in two packets. -/
theorem configSent_iff_twoPackets :
    ConfigSent (plainHost.client keepChannels 1) smallMtuRun 0
      { ConfigureData.zero with
        params := { ConfigureParams.zero with
          fieldMask := ConfigOption.mtu.bit ||| ConfigOption.flushTimeout.bit
          mtu := 512
          flushTimeout := 50
          retxFlow := some ⟨0, 0, 0, 0, 0, 0⟩ } } 0 :=
  (configSent_iff (by decide) (by decide) (by decide) smallMtuRun 0 _ 0).2 ⟨by decide, by decide, by decide⟩

end Bte
