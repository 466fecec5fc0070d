import BtEmbedded.L2capReject
import BtEmbedded.L2capFootprint
import BtEmbedded.Lib.Run
/-!
# L2capFinal — the last response to a configuration (l2cap.c)

`l2cap_handle_config_resp` looks at the flags twice.  A response without the continuation flag is kept in one of its own
variables; the reply is delivered, and `configure_resp` cleared, if `!flags & L2CAP_CONFIG_FLAG_CONTINUATION`, which is
to say
if there is no flag at all.  A response with another flag is taken for the last one by the first test only.
-/
namespace Bte

open Bytes L2capLink

/-! ## What is kept of the responses -/

/-- Every channel has the responses it had, or, if it is new, none; and the log has grown. -/
structure L2capLink.Retains (w w' : L2capLink) : Prop where
  resp : ∀ p, (w'.channels p).configureResp = (w.channels p).configureResp ∨ (w'.channels p).configureResp = none
  log : w.log <+: w'.log

namespace L2capLink

theorem Retains.trans {a b c : L2capLink} (h : a.Retains b) (h' : b.Retains c) : a.Retains c where
  resp := fun p => by
    rcases h'.resp p with hp | hp
    · rw [hp]
      exact h.resp p
    · exact .inr hp
  log := h.log.trans h'.log

theorem Retains.none {a b : L2capLink} (h : a.Retains b) {p : Nat} (ha : (a.channels p).configureResp = none) :
    (b.channels p).configureResp = none := by
  have hp := h.resp p
  rwa [ha, or_self] at hp

end L2capLink

/-- `configure_resp` is left alone, or cleared. -/
def responsesKept : Footprint where
  update := fun l l' => l'.configureResp = l.configureResp ∨ l'.configureResp = none
  trans := fun {a b c} h h' => by
    rcases h' with hc | hc
    · rwa [hc]
    · exact .inr hc
  kept := .inl
  new := fun _ => .inr rfl
  event := fun _ => True
  others := fun _ => trivial

theorem Footprint.Covers.retains {w w' : L2capLink} (h : responsesKept.Covers w w') : w.Retains w' :=
  ⟨h.part.channels, h.part.log.imp fun _ hes => hes.1.symm⟩

/-! ## Delivery -/

/-- What the client is told when a response is the last one. -/
def L2capLink.finalReply (w : L2capLink) (p : Nat) (reader : List UInt8) (respLen : Nat) : ConfigureReply :=
  (w.received p reader respLen).data.reply

/-- The client has a function, it is called once, and nothing of the responses is kept. -/
structure Delivered (w w' : L2capLink) (p : Nat) (reply : ConfigureReply) : Prop where
  client : (w.channels p).clientCb ≠ .null
  once : ∃ cb ≠ .null, w'.configureCbs p = w.configureCbs p ++ [.configureCb p cb reply true]
  dropped : (w'.channels p).configureResp = none

section Finish

variable {host : L2capHost} (hh : host.Stays responsesKept)
include hh

/-- Once the reply is delivered, the channel has no responses; the others have what they had before this one. -/
theorem retains_deliver {w w' : L2capLink} {p : Nat} {resp : ConfigureResp} (h : (w.keepResponse p resp).Retains w') :
    w.Retains (deliverConfigureReply host w' p) ∧ ((deliverConfigureReply host w' p).channels p).configureResp = none := by
  have hcalled := h.trans (covers_configured hh w' (w'.channels p).clientCb p (w'.answerSoFar p).reply
    (w'.channels p).cmdUserdata true).retains
  have hnone : ((deliverConfigureReply host w' p).channels p).configureResp = none := by
    simp [deliverConfigureReply, L2capLink.modify]
  refine ⟨⟨fun q => ?_, hcalled.log⟩, hnone⟩
  by_cases hq : q = p
  · exact .inr (hq ▸ hnone)
  · have hcall : (deliverConfigureReply host w' p).channels q = (configured host w' (w'.channels p).clientCb p
        (w'.answerSoFar p).reply (w'.channels p).cmdUserdata true).channels q := Function.update_of_ne hq _ _
    have hother := hcalled.resp q
    rw [← hcall] at hother
    simpa [L2capLink.keepResponse, L2capLink.modify, Function.update_of_ne hq] using hother

/-- A response without flags is not kept, whatever the client does when it hears of it. -/
theorem retains_final (w : L2capLink) (p result : Nat) (resp : ConfigureResp) (e : L2event) :
    w.Retains (finishConfigResp host (w.keepResponse p resp) p 0 result e) ∧
      ((finishConfigResp host (w.keepResponse p resp) p 0 result e).channels p).configureResp = none := by
  have hset : ∀ (w' : L2capLink) s, w'.Retains (l2capSetState host (w'.record e) p s) :=
    fun w' s => ((covers_event w' trivial).trans (covers_setState hh (w'.record e) p s)).retains
  unfold finishConfigResp
  rw [if_pos rfl]
  split
  · obtain ⟨hdelivered, hnone⟩ := retains_deliver hh (covers_configApply (w.keepResponse p resp) p
      ((w.keepResponse p resp).answerSoFar p).params false).retains
    exact ⟨hdelivered.trans (hset _ _), (hset _ _).none hnone⟩
  · exact retains_deliver hh (hset _ _)

/-- One with flags is kept. -/
theorem retains_continued (w : L2capLink) (p : Nat) {flags : Nat} (hflags : flags ≠ 0) (result : Nat) (e : L2event) :
    w.Retains (finishConfigResp host w p flags result e) ∧ e ∈ (finishConfigResp host w p flags result e).log := by
  have hmem : ∀ w', (w.record e).Retains w' → e ∈ w'.log :=
    fun w' h => h.log.subset (List.mem_append_right _ (List.mem_singleton_self e))
  have hrest : responsesKept.Covers (w.record e) (finishConfigResp host w p flags result e) := by
    unfold finishConfigResp
    rw [if_neg hflags]
    simp only
    split
    · exact covers_configSend hh _ p .zero 0
    · exact .refl _
  exact ⟨((covers_event w trivial).trans hrest).retains, hmem _ hrest.retains⟩

end Finish

/-- **A response is delivered, and nothing of it kept, exactly if it has no flag.** -/
theorem delivered_handle {host : L2capHost} {p : Nat} (hanswered : host.Heeds (Watch.answered p))
    (hh : host.Stays responsesKept)
    {w : L2capLink} (hp : p < w.allocated) (id : Nat) {reader : List UInt8} {respLen : Nat}
    (hread : headerRead reader respLen 6) :
    Delivered w (l2capHandleConfigResp host w p id reader respLen).link p (w.finalReply p reader respLen) ↔
      word (reader.take 6) 1 = 0 ∧ (w.channels p).clientCb ≠ .null := by
  obtain ⟨cb, hcb, hcbs⟩ := @configureCbs_finish host p hanswered (w.keepResponse p (w.received p reader respLen)) hp
    (word (reader.take 6) 1) (word (reader.take 6) 2) (.handled p id (w.channels p).expectedResponseId
      (word (reader.take 6) 1) (word (reader.take 6) 2) (lastRequest p w.log)) rfl
  rw [← handleConfigResp_eq host w p id hread, answerSoFar_keepResponse] at hcbs
  have hkept : (w.keepResponse p (w.received p reader respLen)).configureCbs p = w.configureCbs p := rfl
  rw [hkept] at hcbs
  constructor
  · intro h
    refine ⟨?_, h.client⟩
    by_contra hflags
    obtain ⟨cb', -, honce⟩ := h.once
    rw [hcbs, if_neg hflags] at honce
    simp at honce
  · rintro ⟨hflags, hclient⟩
    refine ⟨hclient, ⟨cb, hcb ?_, ?_⟩, ?_⟩
    · rwa [clientCb_keepResponse]
    · rw [hcbs, if_pos hflags]
      rfl
    · rw [handleConfigResp_eq host w p id hread, hflags]
      exact (retains_final hh w p _ _ _).2

/-! ## Runs -/

/-- No channel has its responses in a variable of a call that has returned. -/
def L2capLink.Stackless (w : L2capLink) : Prop :=
  ∀ p resp, (w.channels p).configureResp = some resp → resp.onStack = false

/-- A response that was handled has no flags, or says that more is to come. -/
def L2event.plain : L2event → Bool
  | .handled _ _ _ flags _ _ => flags == 0 || flags &&& l2capConfigFlagContinuation != 0
  | _ => true

/-- As long as all responses were such. -/
def L2capLink.Sheltered (w : L2capLink) : Prop := (∀ e ∈ w.log, e.plain) → w.Stackless

theorem L2capLink.Retains.stackless {w w' : L2capLink} (h : w.Retains w') (hw : w.Stackless) : w'.Stackless := by
  intro p resp hresp
  rcases h.resp p with hp | hp
  · exact hw p resp (hp.symm.trans hresp)
  · cases hp.symm.trans hresp

theorem L2capLink.Retains.sheltered {w w' : L2capLink} (h : w.Retains w') (hw : w.Sheltered) : w'.Sheltered :=
  fun hplain => h.stackless (hw fun e he => hplain e (h.log.subset he))

/-- A response that says that more is to come is not kept on the stack. -/
theorem stackless_keepResponse {w : L2capLink} (hw : w.Stackless) (p : Nat) {reader : List UInt8}
    (hmore : word (reader.take 6) 1 &&& l2capConfigFlagContinuation ≠ 0) (respLen : Nat) :
    (w.keepResponse p (w.received p reader respLen)).Stackless := by
  intro q resp hresp
  by_cases hq : q = p
  · subst hq
    simp only [L2capLink.keepResponse, L2capLink.modify, Function.update_self, Option.some.injEq] at hresp
    subst hresp
    unfold L2capLink.received
    cases hbefore : (w.channels q).configureResp with
    | none => exact decide_eq_false hmore
    | some before => exact hw q before hbefore
  · refine hw q resp ?_
    simpa [L2capLink.keepResponse, L2capLink.modify, Function.update_of_ne hq] using hresp

section Runs

variable {host : L2capHost} (hh : host.Stays responsesKept)
include hh

theorem sheltered_handleConfigResp {w : L2capLink} (h : w.Sheltered) (p id : Nat) (reader : List UInt8) (respLen : Nat) :
    (l2capHandleConfigResp host w p id reader respLen).link.Sheltered := by
  by_cases hread : headerRead reader respLen 6
  · rw [handleConfigResp_eq host w p id hread]
    generalize hflags : word (reader.take 6) 1 = flags
    by_cases hfinal : flags = 0
    · subst hfinal
      exact (retains_final hh w p _ _ _).1.sheltered h
    · intro hplain
      obtain ⟨hkept, hmem⟩ := retains_continued hh (w.keepResponse p (w.received p reader respLen)) p hfinal
        (word (reader.take 6) 2) (.handled p id (w.channels p).expectedResponseId flags (word (reader.take 6) 2)
          (lastRequest p w.log))
      have hmore : flags &&& l2capConfigFlagContinuation ≠ 0 := by
        simpa [L2event.plain, hfinal] using hplain _ hmem
      refine hkept.stackless (stackless_keepResponse (h fun e he => hplain e ?_) p (hflags ▸ hmore) respLen)
      exact hkept.log.subset he
  · unfold l2capHandleConfigResp
    rcases withSignalHeader_cases w reader respLen 6 _ with ⟨hyes, -⟩ | ⟨-, heq⟩
    · exact absurd hyes hread
    · rw [heq]
      exact h

theorem sheltered_l2capHandleResponse {w : L2capLink} (h : w.Sheltered) (p code id : Nat) (reader : List UInt8)
    (respLen : Nat) : (l2capHandleResponse host w p code id reader respLen).link.Sheltered := by
  unfold l2capHandleResponse
  simp only
  split
  · split
    · exact (covers_connectCb hh w p reader respLen).retains.sheltered h
    · exact h
  · split
    · split
      · exact sheltered_handleConfigResp hh h p id reader respLen
      · exact h
    · split
      · exact (covers_handleEchoResp hh w p reader).retains.sheltered h
      · split
        · exact (covers_handleInfoResp hh w p reader respLen).retains.sheltered h
        · split
          · split
            · exact (covers_handleDisconnectResp hh w p reader respLen).retains.sheltered h
            · exact h
          · exact h

theorem sheltered_handleSignal {w : L2capLink} (h : w.Sheltered) (code id : Nat) (reader : List UInt8) (cmdLen : Nat) :
    (handleSignal host w code id reader cmdLen).link.Sheltered := by
  have hnoted : (w.note (.response code id reader cmdLen w.table)).Sheltered :=
    (covers_note w _).retains.sheltered h
  unfold handleSignal
  split
  · exact (covers_handleRequest hh w code id reader cmdLen).retains.sheltered h
  · unfold aclL2capHandleResponse
    simp only
    split
    · exact hnoted
    · rename_i p _
      have hcounted : ∀ w : L2capLink, w.Retains ((bteL2capRef w p).modify p countDown) :=
        fun w => ((covers_ref w p).trans (covers_modify _ p (f := countDown) fun _ => rfl)).retains
      have hhandled := sheltered_l2capHandleResponse hh ((hcounted _).sheltered hnoted) p code id reader cmdLen
      refine (covers_unref _ p).retains.sheltered ?_
      split
      · exact hhandled
      · exact (covers_restore _ p).retains.sheltered hhandled

theorem sheltered_signallingLoop (totalLen size : Nat) : ∀ (fuel parsedLen : Nat) (reader : List UInt8) (w : L2capLink),
    w.Sheltered → (signallingLoop host totalLen size fuel parsedLen reader w).2.Sheltered
  | 0, _, _, _, h => h
  | fuel + 1, parsedLen, reader, w, h => by
    unfold signallingLoop
    simp only
    split
    · split
      · exact h
      · split
        · exact sheltered_handleSignal hh h _ _ _ _
        · exact sheltered_signallingLoop totalLen size fuel _ _ _ (sheltered_handleSignal hh h _ _ _ _)
    · exact h

/-- **Every step keeps the shelter.** -/
theorem sheltered_step {w : L2capLink} (h : w.Sheltered) (op : L2capOp) : (w.step host op).Sheltered := by
  cases op with
  | api call => exact (covers_apply hh w call).retains.sheltered h
  | received reader =>
    show (aclDataReceivedCb host w reader).2.Sheltered
    unfold aclDataReceivedCb
    split
    · exact h
    · simp only
      split
      · exact sheltered_signallingLoop hh _ _ _ _ _ w h
      · split
        · exact h
        · split
          · exact h
          · exact ((covers_event w trivial).trans (hh _ _)).retains.sheltered h
  | aclConnected status => exact (covers_aclConnected hh w status).retains.sheltered h
  | aclDisconnected reason => exact (covers_aclDisconnected hh w reason).retains.sheltered h
  | others dev nextLocalChannelId lastSignalId => exact (covers_shared rfl rfl rfl rfl).retains.sheltered h

/-- **In a run whose responses have no flag but the continuation flag, none is ever left on the stack.** -/
theorem stackless_run (dev : AclOut) (ops : List L2capOp)
    (hplain : ∀ e ∈ (Sys.run (L2capLink.step host) (.start dev) ops).log, e.plain) :
    (Sys.run (L2capLink.step host) (.start dev) ops).Stackless := by
  have hstart : (L2capLink.start dev).Sheltered := fun _ _ _ hresp => nomatch hresp
  exact @Sys.inv_run_all _ _ _ L2capLink.Sheltered (fun _ op h => sheltered_step hh h op) _ hstart ops hplain

end Runs

/-- The peer agrees, with these flags. -/
def agreed (flags : Nat) : List UInt8 := leBytes 2 0x40 ++ leBytes 2 flags ++ leBytes 2 l2capConfigResOk

/-- The peer announces that more of its response is to come. -/
def continuedOps : List L2capOp :=
  [peerConnects, .api (.configure 0 none 7 0), .received (signallingReader (signal l2capSignalConfigRsp 1 (agreed 1)))]

end Bte
