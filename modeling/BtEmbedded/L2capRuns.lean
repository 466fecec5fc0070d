import BtEmbedded.L2capMoves
import BtEmbedded.L2capWatch
/-!
# L2capRuns — every function comes down to moves (l2cap.c)

One lemma for each function, in the order of the source.  Only a channel that is connected gets a local id, so that the
answer to a Connection Request still finds the id it was sent with when the callbacks are done.
-/
namespace Bte

open Bytes L2capLink

/-! ## Straight pieces -/

section Pieces

variable {x : Nat → Nat → Prop}

/-- Fields of the link that no property reads. -/
theorem still_shared {w w' : L2capLink} (hc : w'.channels = w.channels) (ha : w'.allocated = w.allocated)
    (ht : w'.clients = w.clients) (hn : w'.notes = w.notes) (hi : w'.nextLocalChannelId = w.nextLocalChannelId)
    (hh : w'.here = w.here) (hp : w'.parked = w.parked) (hl : w'.log = w.log) : w.Still w' :=
  ⟨fun p => hc ▸ .refl _, ha, ht, hn, hi, hh, hp, [], by simp [hl], by simp⟩

theorem still_modify (w : L2capLink) (p : Nat) {f : L2cap → L2cap} (hf : ∀ l : L2cap, l.Same (f l)) :
    w.Still (w.modify p f) := by
  refine ⟨fun q => ?_, rfl, rfl, rfl, rfl, rfl, rfl, [], (List.append_nil _).symm, by simp⟩
  by_cases hq : q = p
  · subst hq
    simpa [L2capLink.modify] using hf _
  · simpa [L2capLink.modify, Function.update_of_ne hq] using L2cap.Same.refl _

theorem still_record (w : L2capLink) {e : L2event} (he : e.quiet) : w.Still (w.record e) := by
  refine ⟨fun _ => .refl _, rfl, rfl, rfl, rfl, rfl, rfl, [e], rfl, fun e' he' => ?_⟩
  rwa [List.mem_singleton.1 he']

theorem still_nextSignalId (w : L2capLink) : w.Still w.nextSignalId.2 := still_shared rfl rfl rfl rfl rfl rfl rfl rfl

theorem still_markReplySent (w : L2capLink) (cd : Nat) : w.Still (w.markReplySent cd) :=
  still_shared rfl rfl rfl rfl rfl rfl rfl rfl

theorem still_ref (w : L2capLink) (p : Nat) : w.Still (bteL2capRef w p) :=
  still_modify w p fun _ => ⟨rfl, rfl, rfl, rfl, rfl⟩

/-- Only responses are sent like this. -/
theorem still_send (host : L2capHost) (w : L2capLink) (p : Option Nat) {code : Nat} (hcode : code % 2 = 1) (id : Nat)
    (body : List UInt8) (buffer : List Packet) : w.Still (w.send host p code id body buffer).2 := by
  have hdev : w.Still { w with dev := (bteAclSendMessage host.rc w.dev buffer).2 } :=
    still_shared rfl rfl rfl rfl rfl rfl rfl rfl
  refine hdev.trans (still_record _ ?_)
  simp [L2event.quiet, hcode]

theorem still_cmdReply (host : L2capHost) (w : L2capLink) (p : Option Nat) {code : Nat} (hcode : code % 2 = 1) (id : Nat)
    (data : List UInt8) : w.Still (aclL2capCmdReply host w p code id data).2 := by
  unfold aclL2capCmdReply
  simp only
  generalize aclL2capCreateCmd host code id data.length = writer
  cases writer with
  | none => exact .refl w
  | some writer => exact still_send host w p hcode id data _

theorem still_rejectCommand (host : L2capHost) (w : L2capLink) (id channelId remoteChannelId : Nat) :
    w.Still (l2capRejectCommandInvalidCid host w id channelId remoteChannelId) :=
  still_cmdReply host w none (by decide) id _

theorem still_configApply (w : L2capLink) (p : Nat) (params : ConfigureParams) (remote : Bool) :
    w.Still (l2capConfigApply w p params remote) := by
  unfold l2capConfigApply
  refine still_modify w p fun _ => ?_
  cases remote <;> exact ⟨rfl, rfl, rfl, rfl, rfl⟩

theorem runs_removeClient (w : L2capLink) (p : Nat) : Runs x w (aclL2capRemoveClient w p) := by
  have hleft : Runs x w { w with clients := fun i => if w.clients i = some p then none else w.clients i } := by
    refine runs_local (.left w p) rfl rfl le_rfl (fun _ _ _ => rfl) ⟨[], by simp, fun _ => rfl⟩ ?_
    intro ht i q hq
    simp only at hq
    split at hq
    · cases hq
    · exact ht i q hq
  unfold aclL2capRemoveClient
  simp only
  split
  · exact hleft.trans (still_record _ rfl).runs
  · exact hleft

theorem runs_unref (w : L2capLink) (p : Nat) : Runs x w (bteL2capUnref w p) := by
  have hdown : w.Still (w.modify p fun l2cap => { l2cap with refCount := l2cap.refCount - 1 }) :=
    still_modify w p fun _ => ⟨rfl, rfl, rfl, rfl, rfl⟩
  unfold bteL2capUnref
  simp only
  split
  · exact hdown.runs.trans (runs_removeClient _ p)
  · exact hdown.runs

theorem alloc_fields (w : L2capLink) (outgoing : Bool) :
    (w.alloc outgoing).1 = w.allocated ∧ (w.alloc outgoing).2.allocated = w.allocated + 1 ∧
      (w.alloc outgoing).2.clients = w.clients ∧ (w.alloc outgoing).2.notes = w.notes ∧
      (w.alloc outgoing).2.channels = Function.update w.channels w.allocated bteL2capNew := ⟨rfl, rfl, rfl, rfl, rfl⟩

theorem runs_alloc (w : L2capLink) (outgoing : Bool) : Runs x w (w.alloc outgoing).2 := by
  refine runs_local (.alloc w outgoing) rfl rfl (Nat.le_succ _) (fun p hp _ => ?_) ⟨[], by simp [L2capLink.alloc,
    L2capLink.record], fun _ => rfl⟩ fun ht i p hi => Nat.lt_succ_of_lt (ht i p hi)
  rw [(alloc_fields w outgoing).2.2.2.2, Function.update_of_ne hp.ne]

/-- A channel joins the table in one of its places. -/
theorem addClient_cases {w w' : L2capLink} {p : Nat} (h : aclL2capAddClient w p = some w') :
    ∃ i, w.clients i = none ∧ w' = { w with clients := Function.update w.clients i (some p) } := by
  unfold aclL2capAddClient at h
  obtain ⟨i, hi, rfl⟩ := Option.map_eq_some_iff.1 h
  exact ⟨i, by simpa using List.find?_some hi, rfl⟩

theorem runs_joined {w w' : L2capLink} (h : aclL2capAddClient (w.alloc true).2 w.allocated = some w') :
    Runs x w w' ∧ w'.Tabled w.allocated ∧ w'.here = w.here := by
  have hmove : Move w w' := .joined h
  obtain ⟨i, -, rfl⟩ := addClient_cases h
  refine ⟨runs_local hmove rfl rfl (Nat.le_succ _) (fun p hp _ => ?_) ⟨[], by simp [L2capLink.alloc,
    L2capLink.record], fun _ => rfl⟩ fun ht j p hj => ?_, ⟨i, by simp⟩, rfl⟩
  · show ((w.alloc true).2.channels p).localChannelId = _
    rw [(alloc_fields w true).2.2.2.2, Function.update_of_ne hp.ne]
  · show p < w.allocated + 1
    by_cases hji : j = i
    · subst hji
      simp only [Function.update_self, Option.some.injEq] at hj
      omega
    · simp only [Function.update_of_ne hji] at hj
      exact Nat.lt_succ_of_lt (ht j p hj)

theorem localChannelId_enter (w : L2capLink) (p : Nat) (s : L2capState) (q : Nat) :
    ((w.enter p s).channels q).localChannelId = (w.channels q).localChannelId := by
  by_cases hq : q = p
  · subst hq
    simp [L2capLink.enter, L2capLink.record, L2capLink.modify]
  · simp [L2capLink.enter, L2capLink.record, L2capLink.modify, Function.update_of_ne hq]

/-- A move that does no more than assign a state. -/
theorem runs_enter {w : L2capLink} {p : Nat} {s : L2capState} (h : Move w (w.enter p s)) : Runs x w (w.enter p s) :=
  runs_local h rfl rfl le_rfl (fun q _ _ => localChannelId_enter w p s q)
    ⟨[], by simp [L2capLink.enter, L2capLink.record, L2capLink.modify], fun _ => rfl⟩ fun ht => ht

/-- A request does not touch the id and the state of a channel. -/
theorem sendRequest_channel (w : L2capLink) (p code id : Nat) (body : List UInt8) (dev : AclOut) (code' id' q : Nat) :
    ((((w.sendRequest p code id body dev).modify p (.await code' id')).channels q).localChannelId =
      (w.channels q).localChannelId) ∧
    (((w.sendRequest p code id body dev).modify p (.await code' id')).channels q).state = (w.channels q).state := by
  by_cases hq : q = p
  · subst hq; simp [sendRequest, L2capLink.modify, L2capLink.record, note, L2cap.await]
  · simp [sendRequest, L2capLink.modify, L2capLink.record, note, Function.update_of_ne hq]

theorem localChannelId_ask (w : L2capLink) (p code id : Nat) (body : List UInt8) (dev : AclOut) (q : Nat) :
    ((w.ask p code id body dev).channels q).localChannelId = (w.channels q).localChannelId :=
  (sendRequest_channel w p code id body dev (code + 1) id q).1

theorem state_ask (w : L2capLink) (p code id : Nat) (body : List UInt8) (dev : AclOut) (q : Nat) :
    ((w.ask p code id body dev).channels q).state = (w.channels q).state :=
  (sendRequest_channel w p code id body dev (code + 1) id q).2

theorem runs_ask {w : L2capLink} {p code : Nat} (heven : code % 2 = 0)
    (hid : code = l2capSignalConnReq → (w.channels p).localChannelId ≠ 0) (id : Nat) (body : List UInt8) (dev : AclOut) :
    Runs x w (w.ask p code id body dev) :=
  runs_local (.asked heven hid) rfl rfl le_rfl (fun q _ _ => localChannelId_ask w p code id body dev q)
    ⟨[.request p code id w.table], rfl, fun _ => rfl⟩ fun ht => ht

/-- **A signal is made and sent, or it is not made**; then only an id is used up. -/
theorem sendSignal_cases (host : L2capHost) (w : L2capLink) (p code : Nat) (payload : List UInt8) :
    (l2capSendSignal host w p code payload = (false, w.nextSignalId.2)) ∨
    ∃ sent dev, l2capSendSignal host w p code payload =
        (sent, w.nextSignalId.2.ask p code w.nextSignalId.1 payload dev) := by
  unfold l2capSendSignal l2capSignal
  simp only
  cases cmdPackets host code w.nextSignalId.1 payload with
  | none => exact .inl rfl
  | some buffer => exact .inr ⟨_, (bteAclSendMessage host.rc w.dev buffer).2, rfl⟩

theorem runs_sendSignal (host : L2capHost) (w : L2capLink) (p : Nat) {code : Nat} (heven : code % 2 = 0)
    (hid : code = l2capSignalConnReq → (w.channels p).localChannelId ≠ 0) (payload : List UInt8) :
    Runs x w (l2capSendSignal host w p code payload).2 := by
  have hnext : w.Still w.nextSignalId.2 := still_nextSignalId w
  rcases sendSignal_cases host w p code payload with h | ⟨sent, dev, h⟩
  · rw [h]
    exact hnext.runs
  · rw [h]
    exact hnext.runs.trans (runs_ask (w := w.nextSignalId.2) heven hid _ _ _)

theorem state_sendSignal (host : L2capHost) (w : L2capLink) (p code : Nat) (payload : List UInt8) (q : Nat) :
    ((l2capSendSignal host w p code payload).2.channels q).state = (w.channels q).state := by
  rcases sendSignal_cases host w p code payload with h | ⟨sent, dev, h⟩
  · rw [h]
    rfl
  · rw [h]
    exact state_ask ..

end Pieces

/-! ## Callbacks and states -/

/-- The client's functions come down to moves, and give no channel that exists another local id. -/
def L2capHost.Plays (host : L2capHost) : Prop := ∀ c w, Runs (fun _ _ => False) w (host.react c w)

section Functions

variable {x : Nat → Nat → Prop} {host : L2capHost} (hh : host.Plays)
include hh

theorem runs_react (c : L2capCallback) (w : L2capLink) : Runs x w (host.react c w) :=
  (hh c w).mono fun _ _ h => h.elim

theorem runs_call (w : L2capLink) (p : Nat) {c : L2capCallback} (hc : (L2event.callback p c).quiet) :
    Runs x w (w.call host p c) :=
  (still_record w hc).runs.trans (runs_react hh c _)

theorem runs_newConfiguredStateChangedCb (w : L2capLink) (p : Nat) (state : L2capState) (userdata : Nat) :
    Runs x w (newConfiguredStateChangedCb host w p state userdata) := by
  unfold newConfiguredStateChangedCb
  simp only
  split
  · refine Runs.trans ?_ (runs_unref _ p)
    refine Runs.trans ?_ (still_markReplySent _ _).runs
    refine Runs.trans ?_ (runs_call hh _ p rfl)
    refine Still.runs (still_modify w p fun _ => ?_)
    exact ⟨rfl, rfl, rfl, rfl, rfl⟩
  · split
    · refine Runs.trans ?_ (runs_unref _ p)
      split
      · exact .refl w
      · exact (runs_call hh w p rfl).trans (still_markReplySent _ _).runs
    · exact .refl w

theorem runs_stateChanged (w : L2capLink) (p : Nat) (state : L2capState) : Runs x w (stateChanged host w p state) := by
  unfold stateChanged
  split
  · exact .refl w
  · exact runs_call hh w p rfl
  · unfold onL2capStateChanged
    split
    · refine Runs.trans ?_ (runs_unref _ p)
      refine Runs.trans ?_ (runs_call hh _ p rfl)
      refine Still.runs (still_modify w p fun _ => ?_)
      exact ⟨rfl, rfl, rfl, rfl, rfl⟩
    · exact .refl w
  · exact runs_newConfiguredStateChangedCb hh w p state _

omit hh in
/-- The states before WAIT_CONFIG. -/
theorem low_cases {s : L2capState} (h : s.number < L2capState.waitConfig.number) :
    s = .closed ∨ s = .waitConnect ∨ s = .waitConnectRsp := by
  cases s <;> first
    | exact .inl rfl
    | exact .inr (.inl rfl)
    | exact .inr (.inr rfl)
    | exact absurd h (by decide)

/-- A channel that is not connected is only closed. -/
theorem runs_setState {w : L2capLink} {p : Nat} {state : L2capState}
    (h : (w.channels p).state.number < L2capState.waitConfig.number → state = (w.channels p).state ∨ state = .closed) :
    Runs x w (l2capSetState host w p state) := by
  unfold l2capSetState
  split
  · exact .refl w
  · rename_i hne
    refine (runs_enter (.entered (fun hs => ?_) fun hlow => ?_)).trans (runs_stateChanged hh _ p state)
    · have hlow : (w.channels p).state.number < L2capState.waitConfig.number := by
        rw [hs]
        decide
      exact hne ((h hlow).elim id fun hclosed => hclosed.trans hs.symm)
    · rw [(h hlow).resolve_left hne]
      decide

/-! ## Closing a channel -/

omit hh in
/-- `disconnected` up to the client's function. -/
theorem disconnected_eq (w : L2capLink) (p reason : Nat) :
    disconnected host w p reason = w.told p reason ∨ ∃ c, disconnected host w p reason = host.react c (w.told p reason) := by
  unfold disconnected told
  simp only
  cases ((w.note (.closed p)).channels p).disconnectCb with
  | none => exact .inl rfl
  | some f => exact .inr ⟨.disconnect f p reason ((w.note (.closed p)).channels p).userdata, rfl⟩

omit hh in
theorem told_fields (w : L2capLink) (p reason : Nat) :
    (w.told p reason).here = w.here ∧ (w.told p reason).parked = w.parked ∧ (w.told p reason).channels = w.channels ∧
      (w.told p reason).allocated = w.allocated ∧ (w.told p reason).clients = w.clients ∧
      (w.told p reason).notes = w.notes ++ [.closed p] := by
  unfold told
  simp only
  split <;> exact ⟨rfl, rfl, rfl, rfl, rfl, rfl⟩

omit hh in
theorem close_fields (w : L2capLink) (p : Nat) :
    (w.close p).here = w.here ∧ (w.close p).parked = w.parked ∧
      (∀ q, ((w.close p).channels q).localChannelId = (w.channels q).localChannelId) ∧
      (w.close p).allocated = w.allocated ∧ (w.close p).clients = w.clients ∧
      (w.close p).notes = w.notes ++ [.closing p (w.channels p).state] := by
  unfold close
  simp only
  split
  · exact ⟨rfl, rfl, fun _ => rfl, rfl, rfl, rfl⟩
  · refine ⟨rfl, rfl, fun q => ?_, rfl, rfl, rfl⟩
    exact localChannelId_enter (w.note (.closing p (w.channels p).state)) p .closed q

omit hh in
/-- Neither the ids nor the table of the link in focus changed. -/
theorem link_kept {w w' : L2capLink} (hh : w'.here = w.here) (hp : w'.parked = w.parked)
    (hc : ∀ q, (w'.channels q).localChannelId = (w.channels q).localChannelId) (ha : w'.allocated = w.allocated)
    (ht : w'.clients = w.clients) (k : Nat) :
    (∀ q, ((w'.link k).channels q).localChannelId = ((w.link k).channels q).localChannelId) ∧
      (w'.link k).allocated = (w.link k).allocated ∧ (w'.link k).clients = (w.link k).clients := by
  by_cases hk : k = w.here
  · rw [hk, link_here, ← hh, link_here]
    exact ⟨hc, ha, ht⟩
  · rw [link_of_ne hh hp hk]
    exact ⟨fun _ => rfl, rfl, rfl⟩

omit hh in
/-- What a closing opens is ended. -/
theorem runs_bracket {w w₁ : L2capLink} {p : Nat} (reason : Nat) (h : Runs x (w.close p) w₁) :
    Runs x w (w₁.told p reason) := by
  obtain ⟨hhere₀, hparked₀, hids₀, hallocated₀, hclients₀, hnotes₀⟩ := close_fields w p
  obtain ⟨hhere, hparked, hchannels, hallocated, hclients, hnotes⟩ := told_fields w₁ p reason
  obtain ⟨ns, hns, hzero⟩ := h.notes_here
  have hns' : w₁.notes = w.notes ++ .closing p (w.channels p).state :: ns := by
    rw [hns, hnotes₀]
    exact List.append_assoc ..
  have hstart := link_kept hhere₀ hparked₀ hids₀ hallocated₀ hclients₀
  have hend := link_kept hhere hparked (fun q => by rw [hchannels]) hallocated hclients
  have hhome : (w₁.told p reason).here = w.here := hhere.trans (h.here.trans hhere₀)
  refine ⟨((Moves.move (.closing w p)).trans h.moves).trans (Moves.move (.told ⟨_, _, _, hns', hzero p⟩)),
    hhome, fun k => ?_, fun k q hq hx => ?_, fun k => ?_, fun ht k => ?_⟩
  · rw [(hend k).2.1, ← (hstart k).2.1]
    exact h.allocated k
  · rw [(hend k).1, ← (hstart k).1]
    exact h.ids k q ((hstart k).2.1.symm ▸ hq) hx
  · by_cases hk : k = w.here
    · subst hk
      have hw : ((w₁.told p reason).link w.here).notes = (w₁.told p reason).notes := by
        rw [← hhome, link_here]
        rfl
      refine ⟨.closing p (w.channels p).state :: ns ++ [.closed p], ?_, fun q => ?_⟩
      · rw [hw, hnotes, hns', link_here, ← List.append_assoc]
        rfl
      · have hq : closingDepth q (.closing p (w.channels p).state :: ns) =
            L2note.weight q (.closing p (w.channels p).state) + closingDepth q ns := rfl
        rw [closingDepth_append, hq, hzero]
        by_cases hpq : p = q <;> simp [closingDepth, L2note.weight, hpq]
    · rw [link_of_ne hhere hparked (by rw [h.here, hhere₀]; exact hk)]
      obtain ⟨ns', hns'', hz⟩ := h.notes k
      rw [@link_of_ne w (w.close p) hhere₀ hparked₀ k hk] at hns''
      exact ⟨ns', hns'', hz⟩
  · rw [(hend k).2.1, (hend k).2.2]
    refine h.tidy (fun k => ?_) k
    rw [(hstart k).2.1, (hstart k).2.2]
    exact ht k

/-- **All three functions that close a channel** open a closing, and end it when its client is told. -/
theorem runs_close (w : L2capLink) (p reason : Nat) :
    Runs x w (disconnected host (l2capSetState host (w.note (.closing p (w.channels p).state)) p .closed) p reason) := by
  have hset : Runs x (w.close p) (l2capSetState host (w.note (.closing p (w.channels p).state)) p .closed) := by
    unfold close l2capSetState
    split
    · rename_i hclosed
      rw [if_pos hclosed]
      exact .refl _
    · rename_i hclosed
      rw [if_neg hclosed]
      exact runs_stateChanged hh _ p .closed
  have htold := runs_bracket reason hset
  rcases @disconnected_eq host (l2capSetState host (w.note (.closing p (w.channels p).state)) p .closed) p reason
    with h | ⟨c, h⟩
  · rwa [h]
  · rw [h]
    exact htold.trans (runs_react hh c _)

theorem runs_sendDisconnectReq {w : L2capLink} {p : Nat}
    (h : (w.channels p).state.number ≥ L2capState.waitConfig.number) : Runs x w (l2capSendDisconnectReq host w p).2 := by
  have hne : l2capSignalDisconnReq = l2capSignalConnReq → (w.channels p).localChannelId ≠ 0 := fun hc =>
      absurd hc (by decide)
  have hsent := runs_sendSignal (x := x) host w p (by decide) hne
    (leBytes 2 (w.channels p).remoteChannelId ++ leBytes 2 (w.channels p).localChannelId)
  have hstate := state_sendSignal host w p l2capSignalDisconnReq
    (leBytes 2 (w.channels p).remoteChannelId ++ leBytes 2 (w.channels p).localChannelId) p
  unfold l2capSendDisconnectReq
  simp only
  generalize l2capSendSignal host w p l2capSignalDisconnReq
    (leBytes 2 (w.channels p).remoteChannelId ++ leBytes 2 (w.channels p).localChannelId) = r at hsent hstate ⊢
  split
  · refine hsent.trans (runs_setState hh fun hlow => ?_)
    rw [hstate] at hlow
    exact absurd h (not_le.2 hlow)
  · exact hsent

theorem runs_disconnect (w : L2capLink) (p : Nat) : Runs x w (bteL2capDisconnect host w p) := by
  unfold bteL2capDisconnect
  split
  · rename_i hstate
    exact runs_sendDisconnectReq hh hstate
  · exact runs_close hh w p _

/-! ## Configuring a channel -/

theorem runs_configured (w : L2capLink) (cb : L2capClientCb) (p : Nat) (reply : ConfigureReply) (userdata : Nat)
    (stored : Bool) : Runs x w (configured host w cb p reply userdata stored) := by
  have hrecord : Runs x w (w.record (.configureCb p cb reply stored)) := (still_record w rfl).runs
  unfold configured
  simp only
  refine hrecord.trans ?_
  split
  · exact runs_call hh _ p rfl
  · unfold newConfiguredConfigureCb
    split
    · refine Runs.trans ?_ (runs_disconnect hh _ p)
      exact (runs_call hh _ p rfl).trans (still_markReplySent _ _).runs
    · exact .refl _
  · exact .refl _
  · exact .refl _

omit hh in
/-- **The loop of a Configuration Request sends its packets**, and there are no more of these than credits. -/
theorem requestLoop_packets (p : Nat) (params : ConfigureParams) :
    ∀ (fuel startCmd msgId : Nat) (w : L2capLink), w.dev.aclAvailablePackets < fuel → w.lastSignalId = msgId →
      Packets p msgId w (configRequestLoop host p params fuel startCmd msgId w).2
  | 0, _, _, w, hfuel, _ => absurd hfuel (Nat.not_lt_zero _)
  | fuel + 1, startCmd, msgId, w, hfuel, hid => by
    unfold configRequestLoop
    simp only
    generalize l2capConfigWrite params startCmd (w.channels p).remoteMtu = opts
    generalize leBytes 2 (w.channels p).remoteChannelId ++ leBytes 2 (configFlags opts.1) ++ opts.2 = body
    generalize (cmdPackets host l2capSignalConfigReq msgId body).getD [] = buffer
    generalize hr : (w.note (.request p l2capSignalConfigReq msgId w.table)).send host (some p) l2capSignalConfigReq msgId
      body buffer = r
    have hsent : r.2 = w.sendRequest p l2capSignalConfigReq msgId body (bteAclSendMessage host.rc w.dev buffer).2 := hr ▸ rfl
    have hcode : r.1 = (bteAclSendMessage host.rc w.dev buffer).1 := hr ▸ rfl
    split
    · rw [hsent]
      exact .queued ..
    · rename_i hne
      rw [hcode] at hne
      have huse := sendMessage_uses host.rc w.dev buffer hne
      split
      · rw [hsent]
        have hfuel' : (w.sendRequest p l2capSignalConfigReq msgId body
            (bteAclSendMessage host.rc w.dev buffer).2).dev.aclAvailablePackets < fuel :=
          lt_of_lt_of_le huse (Nat.lt_succ_iff.1 hfuel)
        generalize hw : w.sendRequest p l2capSignalConfigReq msgId body (bteAclSendMessage host.rc w.dev buffer).2 = sent
          at hfuel' ⊢
        have hawait : (sent.modify p (.await l2capSignalConfigRsp sent.nextSignalId.1)).Still
            (sent.nextSignalId.2.modify p (.await l2capSignalConfigRsp sent.nextSignalId.1)) :=
          still_shared rfl rfl rfl rfl rfl rfl rfl rfl
        rw [← hw] at hawait
        exact .more hawait (hw ▸ requestLoop_packets p params fuel opts.1 sent.nextSignalId.1
          (sent.nextSignalId.2.modify p (.await l2capSignalConfigRsp sent.nextSignalId.1)) hfuel' rfl)
      · rw [hsent, ← hid]
        exact .last ..

omit hh in
/-- What the packets of a request leave alone. -/
theorem packets_frame {p id : Nat} {w w' : L2capLink} (h : Packets p id w w') :
    w'.here = w.here ∧ w'.parked = w.parked ∧ w'.allocated = w.allocated ∧ w'.clients = w.clients ∧
      w'.nextLocalChannelId = w.nextLocalChannelId ∧
      (∀ q, (w'.channels q).localChannelId = (w.channels q).localChannelId ∧ (w'.channels q).state = (w.channels q).state) ∧
      ∃ ns, w'.notes = w.notes ++ ns ∧ ∀ n ∈ ns, ∃ id table, n = .request p l2capSignalConfigReq id table := by
  induction h with
  | queued id w body dev =>
    refine ⟨rfl, rfl, rfl, rfl, rfl, fun _ => ⟨rfl, rfl⟩, [_], rfl, fun n hn => ?_⟩
    exact ⟨_, _, List.mem_singleton.1 hn⟩
  | last id w body dev =>
    refine ⟨rfl, rfl, rfl, rfl, rfl, fun q => ⟨localChannelId_ask .., state_ask ..⟩, [_], rfl, fun n hn => ?_⟩
    exact ⟨_, _, List.mem_singleton.1 hn⟩
  | @more id id' w w₁ w' body dev hstill _ ih =>
    obtain ⟨h1, h2, h3, h4, h5, h6, ns, hns, hall⟩ := ih
    have hnotes : w₁.notes = w.notes ++ [.request p l2capSignalConfigReq id w.table] := hstill.notes
    refine ⟨h1.trans hstill.here, h2.trans hstill.parked, h3.trans hstill.allocated, h4.trans hstill.clients,
      h5.trans hstill.nextLocalChannelId, fun q => ?_, .request p l2capSignalConfigReq id w.table :: ns, ?_, ?_⟩
    · obtain ⟨hids, hstates⟩ := sendRequest_channel w p l2capSignalConfigReq id body dev l2capSignalConfigRsp id' q
      have hsame := hstill.channels q
      exact ⟨(h6 q).1.trans (hsame.localChannelId.trans hids), (h6 q).2.trans (hsame.state.trans hstates)⟩
    · rw [hns, hnotes, List.append_assoc]
      rfl
    · intro n hn
      rcases List.mem_cons.1 hn with rfl | hn
      · exact ⟨_, _, rfl⟩
      · exact hall n hn

omit hh in
theorem runs_packets {p id : Nat} {w w' : L2capLink} (h : Packets p id w w') : Runs x w w' := by
  obtain ⟨hhere, hparked, hallocated, hclients, -, hchannels, ns, hns, hall⟩ := packets_frame h
  refine runs_local (.packets h) hhere hparked hallocated.ge (fun q _ _ => (hchannels q).1) ⟨ns, hns, fun q => ?_⟩ ?_
  · have hzero : ∀ n ∈ ns, L2note.weight q n = 0 := by
      intro n hn
      obtain ⟨id, table, rfl⟩ := hall n hn
      rfl
    rw [closingDepth, List.map_congr_left hzero]
    simp
  · rw [hclients, hallocated]
    exact fun ht => ht

theorem runs_sendRequest (w : L2capLink) (p : Nat) (conf : ConfigureData) :
    Runs x w (configSendRequest host w p conf).2 := by
  have hloop : Packets p w.nextSignalId.1 w.nextSignalId.2 (configRequestLoop host p conf.params
      (w.dev.aclAvailablePackets + 1) 0 w.nextSignalId.1 w.nextSignalId.2).2 :=
    requestLoop_packets p conf.params _ 0 _ _ (Nat.lt_succ_self _) rfl
  unfold configSendRequest
  simp only
  refine (still_nextSignalId w).runs.trans ((runs_packets hloop).trans ?_)
  split
  · exact .refl _
  · refine runs_setState hh fun hlow => .inl ?_
    rcases low_cases hlow with hs | hs | hs <;> rw [hs] <;> rfl

theorem runs_sendResponse (w : L2capLink) (p : Nat) (conf : ConfigureData) (msgId : Nat) :
    Runs x w (configSendResponse host w p conf msgId).2 := by
  unfold configSendResponse
  simp only
  generalize configResponse (w.channels p) conf = body
  generalize l2capConfigWrite conf.params (responseStart conf) (w.channels p).remoteMtu = opts
  generalize (cmdPackets host l2capSignalConfigRsp msgId body).getD [] = buffer
  generalize hr : (w.record (.responding p opts.1 w.dev buffer)).send host (some p) l2capSignalConfigRsp msgId
      body buffer = r
  have hsent : w.Still r.2 := hr ▸ (still_record w rfl).trans (still_send host _ (some p) (by decide) msgId body buffer)
  have hstored : w.Still (r.2.modify p fun l2cap => { l2cap with
      configureReq := some (conf.sentUpTo (decide (r.1 ≠ 0)) opts.1) }) := by
    refine hsent.trans (still_modify r.2 p fun _ => ?_)
    exact ⟨rfl, rfl, rfl, rfl, rfl⟩
  generalize r.2.modify p (fun l2cap => { l2cap with
    configureReq := some (conf.sentUpTo (decide (r.1 ≠ 0)) opts.1) }) = w' at hstored ⊢
  split
  · exact hstored.runs
  · split
    · refine hstored.runs.trans (runs_setState hh fun hlow => .inl ?_)
      rcases low_cases hlow with hs | hs | hs <;> rw [hs] <;> rfl
    · exact hstored.runs

theorem runs_configSend (w : L2capLink) (p : Nat) (conf : ConfigureData) (msgId : Nat) :
    Runs x w (l2capConfigSend host w p conf msgId).2 := by
  unfold l2capConfigSend
  split
  · exact runs_sendResponse hh w p conf msgId
  · exact runs_sendRequest hh w p conf

theorem runs_configure (w : L2capLink) (p : Nat) (params : Option ConfigureParams) (callback : L2capClientCb)
    (userdata : Nat) : Runs x w (bteL2capConfigure host w p params callback userdata) := by
  have hsent := runs_configSend (x := x) hh w p { ConfigureData.zero with params := params.getD .zero } 0
  unfold bteL2capConfigure
  simp only
  split
  · exact runs_configured hh w _ p _ _ _
  · split
    · exact runs_configured hh w _ p _ _ _
    · split
      · refine hsent.trans (Still.runs ((still_modify _ p fun _ => ?_).trans (still_record _ rfl)))
        exact ⟨rfl, rfl, rfl, rfl, rfl⟩
      · exact hsent.trans (runs_configured hh _ _ p _ _ _)

/-! ## Connecting a channel -/

theorem runs_connected (w : L2capLink) (about : Nat) (cb : L2capClientCb) (p : Option Nat)
    (reply : Option ConnectionResponse) (userdata : Nat) : Runs x w (connected host w about cb p reply userdata) := by
  have hrecord : Runs x w (w.record (.connectCb about cb reply)) := (still_record w rfl).runs
  unfold connected
  simp only
  refine hrecord.trans ?_
  split
  · exact runs_call hh _ about rfl
  · unfold newConfiguredConnectCb
    simp only
    split
    · exact .refl _
    · split
      · exact .refl _
      · exact runs_call hh _ about rfl
    · split
      · exact .refl _
      · refine Runs.trans (Still.runs ?_) (runs_configure hh _ _ _ _ _)
        refine (still_ref _ _).trans (still_modify _ _ fun _ => ?_)
        exact ⟨rfl, rfl, rfl, rfl, rfl⟩
  · exact .refl _
  · exact .refl _

omit hh in
/-- An id that is handed out is not zero. -/
theorem nextChannelId_ne_zero (w : L2capLink) : w.nextChannelId.1 ≠ 0 := by
  unfold nextChannelId
  simp only
  split
  · decide
  · assumption

omit hh in
theorem runs_allot {w : L2capLink} {p : Nat} (h : w.Tabled p) (hx : x w.here p) :
    Runs x w (w.nextChannelId.2.allot p w.nextChannelId.1) := by
  refine runs_local (.allotted h) rfl rfl le_rfl (fun q _ hq => ?_) ⟨[.allotted p w.nextChannelId.1
    w.nextChannelId.2.tables], rfl, fun _ => rfl⟩ fun ht => ht
  have hqp : q ≠ p := by
    rintro rfl
    exact hq hx
  simp [allot, L2capLink.modify, Function.update_of_ne hqp, note, nextChannelId]

omit hh in
/-- The channel is given the id. -/
theorem localChannelId_allot (w : L2capLink) (p id : Nat) : ((w.allot p id).channels p).localChannelId = id := by
  simp [allot, L2capLink.modify]

omit hh in
theorem runs_connecting {w : L2capLink} {p : Nat} (h : w.Tabled p) (hid : (w.channels p).localChannelId ≠ 0) (id : Nat)
    (body : List UInt8) (dev : AclOut) : Runs x w ((w.ask p l2capSignalConnReq id body dev).enter p .waitConnectRsp) := by
  refine runs_local (.connecting h hid) rfl rfl le_rfl (fun q _ _ => ?_)
    ⟨[.request p l2capSignalConnReq id w.table], rfl, fun _ => rfl⟩ fun ht => ht
  rw [← localChannelId_ask w p l2capSignalConnReq id body dev q]
  by_cases hq : q = p
  · subst hq; simp [L2capLink.enter, L2capLink.record, L2capLink.modify]
  · simp [L2capLink.enter, L2capLink.record, L2capLink.modify, Function.update_of_ne hq]

theorem runs_connectionRequest {w : L2capLink} {p : Nat} (h : w.Tabled p) (hx : x w.here p) :
    Runs x w (l2capConnectionRequest host w p).2 := by
  unfold l2capConnectionRequest
  split
  · exact .refl w
  · rename_i hstate
    have hallot : Runs x w (w.nextChannelId.2.allot p w.nextChannelId.1) := runs_allot h hx
    have hid := localChannelId_allot w.nextChannelId.2 p w.nextChannelId.1
    have hsame : ((w.nextChannelId.2.allot p w.nextChannelId.1).channels p).state = (w.channels p).state := by
      simp [allot, L2capLink.modify, note, nextChannelId]
    simp only
    generalize hw : w.nextChannelId.2.allot p w.nextChannelId.1 = w₁ at hallot hid hsame ⊢
    have htabled : w₁.Tabled p := hw ▸ h
    have hzero : (w₁.channels p).localChannelId ≠ 0 := hid ▸ nextChannelId_ne_zero w
    generalize leBytes 2 (w₁.channels p).psm ++ leBytes 2 w.nextChannelId.1 = payload
    rcases sendSignal_cases host w₁ p l2capSignalConnReq payload with hs | ⟨sent, dev, hs⟩
    · rw [hs]
      exact hallot.trans (still_nextSignalId w₁).runs
    · rw [hs]
      have hask : Runs x w₁ (w₁.nextSignalId.2.ask p l2capSignalConnReq w₁.nextSignalId.1 payload dev) :=
        (still_nextSignalId w₁).runs.trans (runs_ask (w := w₁.nextSignalId.2) rfl (fun _ => hzero) _ _ _)
      cases sent with
      | false => exact hallot.trans hask
      | true =>
        have hne : L2capState.waitConnectRsp ≠
            ((w₁.nextSignalId.2.ask p l2capSignalConnReq w₁.nextSignalId.1 payload dev).channels p).state := by
          intro heq
          have hw₁ := (state_ask w₁.nextSignalId.2 p l2capSignalConnReq w₁.nextSignalId.1 payload dev p).trans hsame
          apply hstate
          rw [← hw₁, ← heq]
          decide
        rw [if_pos rfl, l2capSetState, if_neg hne]
        refine hallot.trans ((still_nextSignalId w₁).runs.trans ?_)
        exact (runs_connecting (w := w₁.nextSignalId.2) htabled hzero _ _ _).trans (runs_stateChanged hh _ p _)

theorem runs_newOutgoing (w : L2capLink) (psm : Nat) (ready : Bool) (callback : L2capClientCb) (userdata : Nat) :
    Runs x w (bteL2capNewOutgoing host w psm ready callback userdata) := by
  refine Runs.fresh ?_
  generalize hy : (fun k p => x k p ∨ k = w.here ∧ p = w.allocated) = y
  unfold bteL2capNewOutgoing
  simp only
  split
  · exact (runs_alloc w true).trans ((runs_unref _ _).trans (runs_connected hh _ _ _ _ _ _))
  · rename_i w' hadd
    obtain ⟨hjoined, htabled, hhere⟩ := runs_joined (x := y) hadd
    have hset : w'.Still (w'.modify (w.alloc true).1 fun l2cap =>
        { l2cap with userdata := userdata, psm := psm, clientCb := callback }) := by
      refine still_modify w' _ fun _ => ?_
      exact ⟨rfl, rfl, rfl, rfl, rfl⟩
    generalize w'.modify (w.alloc true).1 (fun l2cap =>
      { l2cap with userdata := userdata, psm := psm, clientCb := callback }) = w₁ at hset ⊢
    have htabled₁ : w₁.Tabled (w.alloc true).1 := by
      rw [Tabled, hset.clients]
      exact htabled
    have hy₁ : y w₁.here (w.alloc true).1 := by
      rw [hset.here, hhere, ← hy]
      exact .inr ⟨rfl, rfl⟩
    have hreq : Runs y w (l2capConnectionRequest host w₁ (w.alloc true).1).2 :=
      (hjoined.trans hset.runs).trans (runs_connectionRequest hh htabled₁ hy₁)
    split
    · split
      · exact hreq
      · exact hreq.trans ((runs_unref _ _).trans (runs_connected hh _ _ _ _ _ _))
    · exact hjoined.trans hset.runs

omit hh in
theorem runs_l2capAsk (w : L2capLink) (p : Nat) {code : Nat} (heven : code % 2 = 0) (hne : code ≠ l2capSignalConnReq)
    (payload : List UInt8) (callback userdata : Nat) :
    Runs x w (l2capAsk host w p code payload callback userdata).2 := by
  have hsent := runs_sendSignal (x := x) host w p heven (fun hc => absurd hc hne) payload
  unfold l2capAsk
  split
  · exact .refl w
  · simp only
    split
    · refine hsent.trans (Still.runs (still_modify _ p fun _ => ?_))
      exact ⟨rfl, rfl, rfl, rfl, rfl⟩
    · exact hsent

/-- **Every call of the client comes down to moves.** -/
theorem runs_apply (w : L2capLink) (call : L2capCall) : Runs x w (call.apply host w) := by
  cases call with
  | newOutgoing psm ready callback userdata => exact runs_newOutgoing hh w _ _ _ _
  | newConfigured psm ready conf callback userdata =>
    refine Runs.trans (Still.runs ?_) (runs_newOutgoing hh _ _ _ _ _)
    exact still_shared rfl rfl rfl rfl rfl rfl rfl rfl
  | ref p => exact (still_ref w p).runs
  | unref p => exact runs_unref w p
  | setUserdata p userdata =>
    unfold L2capCall.apply
    refine Still.runs (still_modify w p fun _ => ?_)
    exact ⟨rfl, rfl, rfl, rfl, rfl⟩
  | on p slot f =>
    refine Still.runs (still_modify w p fun _ => ?_)
    cases slot <;> exact ⟨rfl, rfl, rfl, rfl, rfl⟩
  | configure p params callback userdata => exact runs_configure hh w p _ _ _
  | setConfigureReply p reply =>
    unfold L2capCall.apply bteL2capSetConfigureReply
    refine Still.runs (still_modify w p fun _ => ?_)
    exact ⟨rfl, rfl, rfl, rfl, rfl⟩
  | disconnect p => exact runs_disconnect hh w p
  | sendMessage p buffer =>
    simp only [L2capCall.apply, bteL2capSendMessage]
    split
    · exact .refl w
    · have hdev : w.Still { w with dev := (bteAclSendMessage host.rc w.dev buffer).2 } :=
        still_shared rfl rfl rfl rfl rfl rfl rfl rfl
      exact hdev.runs
  | echo p data callback userdata => exact runs_l2capAsk w p (by decide) (by decide) _ _ _
  | queryInfo p type callback userdata => exact runs_l2capAsk w p (by decide) (by decide) _ _ _
  | reset =>
    exact runs_local (.reset w) rfl rfl le_rfl (fun _ _ _ => rfl) ⟨[], by simp [L2capCall.apply], fun _ => rfl⟩
      fun ht => ht

omit hh in
theorem runs_focus (w : L2capLink) (k : Nat) {w' : L2capLink} (h : Runs x (w.focus k) w') :
    Runs x w (w'.focus w.here) where
  moves := ((Moves.look w k).trans h.moves).trans (Moves.look w' w.here)
  here := rfl
  allocated := fun j => by simpa using h.allocated j
  ids := fun j p hp hx => by simpa using h.ids j p (by simpa using hp) hx
  notes := fun j => by simpa using h.notes j
  tidy := fun ht => by
    have ht' : (w.focus k).Tidy := fun j => by simpa using ht j
    exact fun j => by simpa using h.tidy ht' j

end Functions

/-- **Clients that only make calls come down to moves**, callbacks in callbacks included, on this link or another. -/
theorem plays_clients (clients : L2capClients) (hosts : Nat → L2capHost) : ∀ depth k, (clients.hosts hosts depth k).Plays
  | 0, _ => fun _ w => .refl w
  | depth + 1, k => by
    intro c w
    show Runs _ w (List.foldl _ w (clients k c w))
    generalize clients k c w = calls
    induction calls generalizing w with
    | nil => exact .refl w
    | cons call calls ih =>
      rw [List.foldl_cons]
      refine Runs.trans ?_ (ih _)
      exact runs_focus w call.1 (runs_apply (plays_clients clients hosts depth call.1) _ call.2)

end Bte
