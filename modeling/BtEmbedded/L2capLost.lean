import BtEmbedded.L2capConnected
/-!
# L2capLost — the channels of a link that is lost (l2cap.c)

`acl_disconnected_cb` completes what the channels of the link were waiting for.  Whether a connect is still pending it
guesses from the remote channel id, and whether a configuration is, from one state; then it calls whatever function
`cmd_data` holds.  What each channel waits for in fact, and which function was given for it, is in the log.
-/
namespace Bte

open Bytes

/-- `p` is a channel of the link: it exists, and has one place in the table. -/
structure L2capLink.Has (w : L2capLink) (p : Nat) (i : Fin 4) : Prop where
  exists_ : p < w.allocated
  place : w.clients i = some p
  only : ∀ j, w.clients j = some p → j = i

/-- What a watch does not allow is not added to the log. -/
theorem Watch.Within.filter_log {S : Watch} {w w' : L2capLink} (h : S.Within w w') {P : L2event → Bool}
    (hP : ∀ e, P e → e.about = some S.channel ∧ ¬ S.event e) : w'.log.filter P = w.log.filter P := by
  obtain ⟨es, hes, hall⟩ := h.log
  have hnone : es.filter P = [] := by
    rw [List.filter_eq_nil_iff]
    intro e he hPe
    exact (hP e hPe).2 (hall e he (hP e hPe).1)
  rw [hes, List.filter_append, hnone, List.append_nil]

theorem filter_record (w : L2capLink) (e : L2event) (P : L2event → Bool) :
    (w.record e).log.filter P = w.log.filter P ++ [e].filter P := List.filter_append ..

theorem filter_unref (w : L2capLink) (p : Nat) {P : L2event → Bool} (hP : P .aclDisconnect = false) :
    (bteL2capUnref w p).log.filter P = w.log.filter P := by
  unfold bteL2capUnref aclL2capRemoveClient L2capLink.modify
  simp only
  split
  · split
    · exact (filter_record _ _ P).trans (by rw [List.filter_singleton, hP]; exact List.append_nil _)
    · rfl
  · rfl

theorem refCount_unref (w : L2capLink) (p : Nat) :
    ((bteL2capUnref w p).channels p).refCount = (w.channels p).refCount - 1 := by
  unfold bteL2capUnref aclL2capRemoveClient L2capLink.modify
  simp only
  split
  · split <;> simp [L2capLink.record]
  · simp

instance (l2cap : L2cap) : Decidable l2cap.LooksConfiguring := inferInstanceAs (Decidable (_ ∧ _))

/-! ## The turn of a channel -/

/-- The calls that the loss of the link makes for a channel. -/
def L2cap.lostCalls (l2cap : L2cap) (p : Nat) : List L2event :=
  (if l2cap.LooksConfiguring then [.configureCb p l2cap.clientCb lostConfigureReply true] else []) ++
    if l2cap.remoteChannelId = 0 then [.connectCb p l2cap.clientCb (some lostReply)] else []

theorem L2cap.lostCalls_congr {l l' : L2cap} (hstate : l'.state = l.state) (hcb : l'.clientCb = l.clientCb)
    (hremote : l'.remoteChannelId = l.remoteChannelId) (p : Nat) : l'.lostCalls p = l.lostCalls p := by
  have hlooks : l'.LooksConfiguring ↔ l.LooksConfiguring := by
    unfold LooksConfiguring
    rw [hstate, hcb]
  unfold lostCalls
  rw [if_congr hlooks rfl rfl, hcb, hremote]

/-- The turn of a channel, for a watch that allows the two calls: that of a connect as the channel is by then. -/
theorem leads_lostTurn {S : Watch} {host : L2capHost} (hh : host.Heeds S) (hclosed : S.Closed) {w : L2capLink}
    (reason : Nat) (hconfigure : (w.channels S.channel).LooksConfiguring →
      S.event (.configureCb S.channel (w.channels S.channel).clientCb lostConfigureReply true))
    (hconnect : ∀ l, S.update (w.channels S.channel) l → l.remoteChannelId = 0 →
      S.event (.connectCb S.channel l.clientCb (some lostReply)))
    (hcall : ∀ c, S.event (.callback S.channel c)) : S.Leads w (l2capDisconnectCb host w S.channel reason) := by
  intro hp
  have hconf := leads_configureLost hh w (fun _ => ⟨hclosed, hconfigure⟩) hp
  rw [l2capDisconnectCb_eq]
  refine hconf.trans (leads_connectLost hh _ reason (fun _ => ⟨hclosed.touched, hclosed.removed⟩) (fun _ => ?_)
    (fun _ => hcall) (lt_of_lt_of_le hp hconf.allocated))
  exact hconnect _ hconf.update

/-- The channel keeps its remote id and what `cmd_data` holds, and no event of a kind is about it. -/
def Watch.unheard (p : Nat) (kind : L2event → Bool) : Watch where
  channel := p
  update := fun l l' => l'.remoteChannelId = l.remoteChannelId ∧ l'.clientCb = l.clientCb ∧
    (l'.state = .opened → l.state = .opened)
  refl := fun _ => ⟨rfl, rfl, fun h => h⟩
  trans := fun h h' => ⟨h'.1.trans h.1, h'.2.1.trans h.2.1, fun hs => h.2.2 (h'.2.2 hs)⟩
  event := fun e => kind e = false
  removed := True

/-- A kind of calls of `cmd_data` in the log, which no call of the client makes. -/
structure L2event.Told (p : Nat) (kind : L2event → Bool) : Prop where
  about : ∀ e, kind e → e.about = some p
  ofCall : ∀ e, e.ofCall → kind e = false
  callback : ∀ c, kind (.callback p c) = false

section Turn

variable {host : L2capHost} {p : Nat} {kind : L2event → Bool} (hkind : L2event.Told p kind)
include hkind

theorem Watch.Within.filter_unheard {w w' : L2capLink} (h : (Watch.unheard p kind).Within w w') :
    w'.log.filter kind = w.log.filter kind :=
  h.filter_log fun e he => ⟨hkind.about e he, fun hn => Bool.noConfusion (he.symm.trans hn)⟩

theorem unheard_closed : (Watch.unheard p kind).Closed where
  update := fun _ _ h => ⟨h.1, h.2.2.1, h.calling.2.2.1⟩
  removed := trivial
  event := hkind.ofCall

variable (hh : host.Heeds (Watch.unheard p kind))
include hh

theorem filter_configureLost {w : L2capLink} (hp : p < w.allocated) :
    (Watch.unheard p kind).update (w.channels p) ((configureLost host w p).channels p) ∧
      w.allocated ≤ (configureLost host w p).allocated ∧
      (configureLost host w p).log.filter kind = w.log.filter kind ++
        (if (w.channels p).LooksConfiguring then
          [L2event.configureCb p (w.channels p).clientCb lostConfigureReply true] else []).filter kind := by
  by_cases hlooks : (w.channels p).LooksConfiguring
  · have hconf : configureLost host w p =
      configured host w (w.channels p).clientCb p lostConfigureReply (w.channels p).cmdUserdata true := if_pos hlooks
    have hrest := leads_configured_rest hh w (q := p) (w.channels p).clientCb lostConfigureReply
      (w.channels p).cmdUserdata true (fun _ => unheard_closed hkind) hp
    rw [hconf, if_pos hlooks, hrest.filter_unheard hkind, filter_record]
    exact ⟨hrest.update, hrest.allocated, rfl⟩
  · have hconf : configureLost host w p = w := if_neg hlooks
    rw [hconf, if_neg hlooks, List.filter_nil, List.append_nil]
    exact ⟨(Watch.unheard p kind).refl _, le_rfl, rfl⟩

theorem filter_connectLost {w : L2capLink} (hp : p < w.allocated) (reason : Nat) :
    (connectLost host w p reason).log.filter kind = w.log.filter kind ++
      (if (w.channels p).remoteChannelId = 0 then
        [L2event.connectCb p (w.channels p).clientCb (some lostReply)] else []).filter kind := by
  unfold connectLost
  split
  · have hrest := leads_connected_rest hh w (q := p) (w.channels p).clientCb (some lostReply) (w.channels p).userdata
      (fun _ c => hkind.callback c) hp
    rw [filter_unref _ _ (by by_contra h; exact absurd (hkind.about _ (Bool.of_not_eq_false h)) nofun),
      hrest.filter_unheard hkind, filter_record]
  · rw [List.filter_nil, List.append_nil]
    split
    · rfl
    · exact (leads_call hh w _ (fun _ => hkind.callback _) hp).filter_unheard hkind

/-- **What the turn of a channel adds to the log**, of a kind of calls. -/
theorem filter_disconnectCb {w : L2capLink} (hp : p < w.allocated) (reason : Nat) :
    (l2capDisconnectCb host w p reason).log.filter kind =
      w.log.filter kind ++ ((w.channels p).lostCalls p).filter kind := by
  obtain ⟨⟨hremote, hcb, -⟩, hallocated, hlog⟩ := filter_configureLost hkind hh hp
  rw [l2capDisconnectCb_eq, filter_connectLost hkind hh (lt_of_lt_of_le hp hallocated), hlog, hremote, hcb,
    L2cap.lostCalls, List.filter_append, List.append_assoc]

end Turn

/-! ## The loop over the channels -/

/-- Until its turn comes, a channel stays as the loss of the link found it. -/
def Watch.waits (p : Nat) (kind : L2event → Bool) : Watch where
  channel := p
  update := fun l l' => l'.state = l.state ∧ l'.clientCb = l.clientCb ∧ l'.remoteChannelId = l.remoteChannelId
  refl := fun _ => ⟨rfl, rfl, rfl⟩
  trans := fun h h' => ⟨h'.1.trans h.1, h'.2.1.trans h.2.1, h'.2.2.trans h.2.2⟩
  event := fun e => kind e = false
  removed := False

theorem waits_touched (p : Nat) (kind : L2event → Bool) : (Watch.waits p kind).Touched :=
  fun _ _ h => ⟨h.2.2.2, h.2.2.1, h.1⟩

section Loop

variable {host : L2capHost} {p : Nat} {w : L2capLink}

/-- **What the loss of the link adds to the log for a channel**, of a kind of calls, if its clients let it wait. -/
theorem filter_lost {kind : L2event → Bool} (hkind : L2event.Told p kind) (hwait : host.Heeds (Watch.waits p kind))
    (hh : host.Heeds (Watch.unheard p kind)) (hany : host.Heeds (Watch.any p)) {i : Fin 4} (h : w.Has p i) (reason : Nat) :
    (aclDisconnectedCb host w reason).log.filter kind = w.log.filter kind ++ ((w.channels p).lostCalls p).filter kind := by
  obtain ⟨w₁, hw₁, hrest⟩ := forClients_turn (S := Watch.waits p kind) (f := fun w q => l2capDisconnectCb host w q reason)
    (fun w q hq => leads_disconnectCb hwait w reason fun h => absurd h hq)
    (show (Watch.unheard p kind).channel = p from rfl)
    (fun w q hq => leads_disconnectCb hh w reason fun h => absurd h hq)
    (fun w => leads_disconnectCb hany w reason fun _ => Watch.any_free p) h.only h.exists_
  have hplace : w₁.clients i = some p := (hw₁.kept i h.place).resolve_right fun hr => hr
  have hturn : w₁.turn (fun w q => l2capDisconnectCb host w q reason) i = l2capDisconnectCb host w₁ p reason := by
    rw [L2capLink.turn, hplace]
  obtain ⟨hstate, hcb, hremote⟩ := hw₁.update
  have hcalls : (w₁.channels p).lostCalls p = (w.channels p).lostCalls p := L2cap.lostCalls_congr hstate hcb hremote p
  have hnone : w₁.log.filter kind = w.log.filter kind :=
    hw₁.filter_log fun e he => ⟨hkind.about e he, fun hn => Bool.noConfusion (he.symm.trans hn)⟩
  rw [hturn] at hrest
  have hlast : (aclDisconnectedCb host w reason).log.filter kind = (l2capDisconnectCb host w₁ p reason).log.filter kind :=
    hrest.filter_unheard hkind
  rw [hlast, filter_disconnectCb hkind hh (lt_of_lt_of_le h.exists_ hw₁.allocated), hnone, hcalls]

/-- No channel is opened. -/
theorem opened_lost (hh : host.Heeds (Watch.unheard p fun _ => false)) (hp : p < w.allocated) (reason : Nat) :
    ((aclDisconnectedCb host w reason).channels p).state = .opened → (w.channels p).state = .opened := by
  have hrun : (Watch.unheard p fun _ => false).Within w (aclDisconnectedCb host w reason) :=
    leads_turns_of (I := fun _ => True) (fun w q hq => leads_disconnectCb hh w reason fun h => absurd h hq)
      (fun _ _ => trivial)
      (fun w _ => leads_lostTurn hh (unheard_closed ⟨nofun, fun _ _ => rfl, fun _ => rfl⟩) reason (fun _ => rfl)
        (fun _ _ _ => rfl) fun _ => rfl) (List.finRange 4) w trivial hp
  exact hrun.update.2.2

end Loop

/-- A client that does nothing when it is called. -/
def silentClient : L2capClient := fun _ _ => []

theorem heeds_silent (host : L2capHost) (S : Watch) : (host.client silentClient 0).Heeds S := fun _ w => .refl w

/-! ## Pending connects -/

/-- The function in `cmd_data.connect` is called, or one that was given to connect the channel. -/
def L2event.connects (p : Nat) : L2event → Bool
  | .connectCb q _ _ => q = p
  | .configureCb q cb _ _ => q = p && cb.isConnect
  | _ => false

/-- The connect callback was called, and not to say that the answer is pending. -/
def L2event.terminal (p : Nat) : L2event → Bool
  | .connectCb q cb reply => q = p && cb.isConnect && reply.all fun r => r.result != connRespResPending
  | _ => false

def L2event.opensTo (p : Nat) : L2event → Bool
  | .created q outgoing => q = p && outgoing
  | _ => false

/-- The channel is an outgoing one, and has had no terminal connect callback. -/
def L2capLink.ConnectPending (w : L2capLink) (p : Nat) : Prop := w.log.any (·.opensTo p) ∧ ¬ w.log.any (·.terminal p)

instance (w : L2capLink) (p : Nat) : Decidable (w.ConnectPending p) := inferInstanceAs (Decidable (_ ∧ _))

/-- The calls of the connect callback of a channel. -/
def L2capLink.connectCbs (w : L2capLink) (p : Nat) : List L2event := w.log.filter (·.connects p)

/-- What the loss of the link owes a channel: if its connect was pending, one call of the function that was given for it,
with a failure, and one reference less; else no connect callback. -/
def ConnectCompleted (w w' : L2capLink) (p : Nat) : Prop :=
  if w.ConnectPending p then
    (w.channels p).clientCb.isConnect ∧
    (∃ reply : ConnectionResponse,
      w'.connectCbs p = w.connectCbs p ++ [.connectCb p (w.channels p).clientCb (some reply)] ∧
      reply.result > connRespResPending) ∧
    (w'.channels p).refCount = (w.channels p).refCount - 1
  else w'.connectCbs p = w.connectCbs p

/-- The function that was given to connect the channel stands where `l2cap_disconnect_cb` looks for that of a
configuration. -/
def L2cap.ConnectStale (l2cap : L2cap) : Prop := l2cap.state = .waitConfigReqRsp ∧ l2cap.clientCb.isConnect

instance (l2cap : L2cap) : Decidable l2cap.ConnectStale := inferInstanceAs (Decidable (_ ∧ _))

/-- The guess is right: the channels without a remote id are those that connect, `cmd_data` has the function that was given
for it, and no such function is where that of a configuration should be. -/
structure L2capLink.ConnectGuessed (w : L2capLink) (p : Nat) : Prop where
  remote : w.ConnectPending p ↔ (w.channels p).remoteChannelId = 0
  given : w.ConnectPending p → (w.channels p).clientCb.isConnect
  fresh : ¬ (w.channels p).ConnectStale

/-- A client is not told of a channel before it is connected, and as long as `cmd_data` has the function that was given to
connect a channel, its callbacks leave the channel unconfigured. -/
structure L2capClient.KnowsConnected (client : L2capClient) (w : L2capLink) : Prop where
  told : ∀ c w', ∀ call ∈ client c w', ∀ p, call.names = some p → ¬ w.ConnectPending p
  configures : ∀ c w' p params f userdata, .configure p params f userdata ∈ client c w' → p < w.allocated →
    ¬ (w.channels p).clientCb.isConnect

theorem L2capClientCb.not_isConnect {cb : L2capClientCb} (h : cb.isRequest) : cb.isConnect = false := by
  cases cb with
  | client cmd f =>
    cases cmd
    · cases h
    · rfl
    · rfl
  | newConfiguredConnect => cases h
  | _ => rfl

theorem connects_told (p : Nat) : L2event.Told p (·.connects p) where
  about := fun e h => by
    cases e with
    | connectCb q cb reply => simpa [L2event.connects, L2event.about] using h
    | configureCb q cb reply stored =>
      simp only [L2event.connects, Bool.and_eq_true, decide_eq_true_eq] at h
      simp [L2event.about, h.1]
    | _ => cases h
  ofCall := fun e h => by
    cases e with
    | configureCb q cb reply stored =>
      simp only [L2event.ofCall, Bool.and_eq_true] at h
      simp [L2event.connects, L2capClientCb.not_isConnect h.2]
    | connectCb q cb reply => cases h
    | _ => rfl
  callback := fun _ => rfl

/-- No connect callback is called for the channel, and its remote id stays; if `c`, it does not begin to look as if it were
being configured. -/
def Watch.unasked (p : Nat) (c : Prop) : Watch where
  channel := p
  update := fun l l' => l'.remoteChannelId = l.remoteChannelId ∧ (l'.clientCb.isConnect → l.clientCb.isConnect) ∧
    (c → l'.state = .waitConfigReqRsp → l.state = .waitConfigReqRsp)
  refl := fun _ => ⟨rfl, fun h => h, fun _ h => h⟩
  trans := fun h h' => ⟨h'.1.trans h.1, fun hc => h.2.1 (h'.2.1 hc), fun hc hs => h.2.2 hc (h'.2.2 hc hs)⟩
  event := fun e => e.connects p = false
  removed := True

theorem unasked_isConnect {l l' : L2cap} (h : l'.clientCb = l.clientCb ∨ l'.clientCb.isRequest) :
    l'.clientCb.isConnect → l.clientCb.isConnect := by
  intro hc
  rcases h with heq | hreq
  · exact heq ▸ hc
  · rw [L2capClientCb.not_isConnect hreq] at hc
    cases hc

theorem unasked_closed (p : Nat) (c : Prop) : (Watch.unasked p c).Closed where
  update := fun l l' h => by
    refine ⟨h.1, unasked_isConnect (.inl h.2.2.1), fun _ hs => ?_⟩
    rcases h.2.2.2 with hsame | hclosed | hwait
    · exact hsame ▸ hs
    · cases hclosed.symm.trans hs
    · cases hwait.symm.trans hs
  removed := trivial
  event := (connects_told p).ofCall

theorem unasked_asked (p : Nat) (c : Prop) : (Watch.unasked p c).Asked where
  update := fun _ _ h => ⟨h.1, unasked_isConnect h.2.2.2, fun _ hs => h.2.2.1 ▸ hs⟩
  event := (connects_told p).ofCall

theorem unasked_called (p : Nat) {c : Prop} (hc : ¬ c) : (Watch.unasked p c).Called where
  update := fun _ _ h => ⟨h.1, unasked_isConnect h.2.2.2, fun h => absurd h hc⟩
  removed := trivial
  event := (connects_told p).ofCall

/-- A client that knows what is connected keeps to it. -/
theorem heeds_unasked (host : L2capHost) {client : L2capClient} {w : L2capLink} (hclient : client.KnowsConnected w)
    {p : Nat} (hp : p < w.allocated) (depth : Nat) :
    (host.client client depth).Heeds (Watch.unasked p ((w.channels p).clientCb.isConnect)) := by
  have hclosed := unasked_closed p ((w.channels p).clientCb.isConnect)
  have hasked := unasked_asked p ((w.channels p).clientCb.isConnect)
  refine heeds_client _ host client (fun c w' call hcall => ?_) depth
  cases call with
  | configure q params f userdata =>
    rintro rfl
    exact unasked_called q (hclient.configures c w' q params f userdata hcall hp)
  | echo q _ _ _ => exact fun _ => hasked
  | queryInfo q _ _ _ => exact fun _ => hasked
  | unref q => exact fun _ => hclosed
  | disconnect q => exact fun _ => hclosed
  | ref q => exact fun _ => hclosed.touched
  | setUserdata q _ => exact fun _ => hclosed.touched
  | on q _ _ => exact fun _ => hclosed.touched
  | setConfigureReply q _ => exact fun _ => hclosed.touched
  | newOutgoing _ _ _ _ => exact trivial
  | newConfigured _ _ _ _ _ => exact trivial
  | sendMessage _ _ => exact trivial
  | reset => exact trivial

/-- No reference to the channel is taken or given up. -/
def Watch.counted (p : Nat) : Watch where
  channel := p
  update := fun l l' => l'.refCount = l.refCount
  refl := fun _ => rfl
  trans := fun h h' => h'.trans h
  event := fun _ => True
  removed := False

section Connects

variable {host : L2capHost} {p : Nat} {w : L2capLink}

/-- A channel with a remote id gets no connect callback. -/
theorem connectCbs_kept {c : Prop} (hh : host.Heeds (Watch.unasked p c)) (hp : p < w.allocated) (reason : Nat)
    (hremote : (w.channels p).remoteChannelId ≠ 0) (hc : (w.channels p).clientCb.isConnect → c)
    (hstate : c → (w.channels p).state ≠ .waitConfigReqRsp) :
    (aclDisconnectedCb host w reason).connectCbs p = w.connectCbs p := by
  have hrun : (Watch.unasked p c).Within w (aclDisconnectedCb host w reason) := by
    refine leads_turns_of (I := fun w => (w.channels p).remoteChannelId ≠ 0 ∧ ((w.channels p).clientCb.isConnect → c) ∧
        (c → (w.channels p).state ≠ .waitConfigReqRsp))
      (fun w q hq => leads_disconnectCb hh w reason fun h => absurd h hq) (fun hw hI => ?_) (fun w hI => ?_)
      (List.finRange 4) w ⟨hremote, hc, hstate⟩ hp
    · obtain ⟨hsame, hconnect, hwaits⟩ := hw.update
      exact ⟨fun h => hI.1 (hsame.symm.trans h), fun h => hI.2.1 (hconnect h), fun h hs => hI.2.2 h (hwaits h hs)⟩
    · refine leads_lostTurn hh (unasked_closed p c) reason (fun hlooks => ?_) (fun l hl h0 => ?_) fun _ => rfl
      · have hno : (w.channels p).clientCb.isConnect = false :=
          Bool.eq_false_iff.2 fun h => hI.2.2 (hI.2.1 h) hlooks.1
        exact (congrArg (_ && ·) hno).trans (Bool.and_false _)
      · exact absurd (hl.1.symm.trans h0) hI.1
  exact hrun.filter_log fun e he => ⟨(connects_told p).about e he, fun hn => Bool.noConfusion (he.symm.trans hn)⟩

/-- The turn of a channel without a remote id takes a reference away. -/
theorem refCount_disconnectCb (hh : host.Heeds (Watch.counted p)) (hp : p < w.allocated) (reason : Nat)
    (hremote : (w.channels p).remoteChannelId = 0) (hstate : (w.channels p).state ≠ .waitConfigReqRsp) :
    ((l2capDisconnectCb host w p reason).channels p).refCount = (w.channels p).refCount - 1 := by
  have hconf : configureLost host w p = w := if_neg fun h => hstate h.1
  have hrest := leads_connected_rest hh w (q := p) (w.channels p).clientCb (some lostReply) (w.channels p).userdata
    (fun _ _ => trivial) hp
  rw [l2capDisconnectCb_eq, hconf, connectLost, if_pos hremote, refCount_unref]
  exact congrArg (· - 1) hrest.update

/-- If its clients do not touch it, the loss of the link takes one reference away. -/
theorem refCount_lost (hh : ∀ S : Watch, S.channel = p → host.Heeds S) {i : Fin 4} (h : w.Has p i) (reason : Nat)
    (hremote : (w.channels p).remoteChannelId = 0) (hstate : (w.channels p).state ≠ .waitConfigReqRsp) :
    ((aclDisconnectedCb host w reason).channels p).refCount = (w.channels p).refCount - 1 := by
  have hstill := hh (Watch.still p) rfl
  have hcounted := hh (Watch.counted p) rfl
  obtain ⟨w₁, hw₁, hrest⟩ := forClients_turn (S := Watch.still p) (f := fun w q => l2capDisconnectCb host w q reason)
    (fun w q hq => leads_disconnectCb hstill w reason fun h => absurd h hq) (show (Watch.counted p).channel = p from rfl)
    (fun w q hq => leads_disconnectCb hcounted w reason fun h => absurd h hq)
    (fun w => leads_disconnectCb (hh (Watch.any p) rfl) w reason fun _ => Watch.any_free p) h.only h.exists_
  have hsame : w₁.channels p = w.channels p := hw₁.update
  have hplace : w₁.clients i = some p := (hw₁.kept i h.place).resolve_right fun hr => hr
  have hturn : w₁.turn (fun w q => l2capDisconnectCb host w q reason) i = l2capDisconnectCb host w₁ p reason := by
    rw [L2capLink.turn, hplace]
  rw [hturn] at hrest
  have hcount := refCount_disconnectCb hcounted (lt_of_lt_of_le h.exists_ hw₁.allocated) reason
    (hsame ▸ hremote) (hsame ▸ hstate)
  rw [← hsame, ← hcount]
  exact hrest.update

/-- Of the calls that the loss of the link makes, those of a connect callback. -/
theorem connects_lostCalls (l2cap : L2cap) (p : Nat) :
    (l2cap.lostCalls p).filter (·.connects p) =
      (if l2cap.ConnectStale then [.configureCb p l2cap.clientCb lostConfigureReply true] else []) ++
        if l2cap.remoteChannelId = 0 then [.connectCb p l2cap.clientCb (some lostReply)] else [] := by
  have hconnect : (if l2cap.remoteChannelId = 0 then [L2event.connectCb p l2cap.clientCb (some lostReply)]
      else []).filter (·.connects p) =
      if l2cap.remoteChannelId = 0 then [L2event.connectCb p l2cap.clientCb (some lostReply)] else [] := by
    split <;> simp [L2event.connects]
  rw [L2cap.lostCalls, List.filter_append, hconnect]
  congr 1
  by_cases hstale : l2cap.ConnectStale
  · have hlooks : l2cap.LooksConfiguring := by
      refine ⟨hstale.1, fun hnull => ?_⟩
      rw [L2cap.ConnectStale, hnull] at hstale
      cases hstale.2
    rw [if_pos hstale, if_pos hlooks]
    simp [L2event.connects, hstale.2]
  · rw [if_neg hstale]
    split
    · rename_i hlooks
      have hno : l2cap.clientCb.isConnect = false := Bool.eq_false_iff.2 fun h => hstale ⟨hlooks.1, h⟩
      simp [L2event.connects, hno]
    · rfl

theorem connectCbs_lost (hh : ∀ S : Watch, S.channel = p → host.Heeds S) {i : Fin 4} (h : w.Has p i) (reason : Nat) :
    (aclDisconnectedCb host w reason).connectCbs p =
      w.connectCbs p ++ ((w.channels p).lostCalls p).filter (·.connects p) :=
  filter_lost (connects_told p) (hh _ rfl) (hh _ rfl) (hh _ rfl) h reason

end Connects

/-- **The loss of a link completes the pending connects exactly when they are those without a remote channel id, and no
connect callback is where that of a configuration should be.**  The clients may do what they like, as long as they are not
told of a channel before it is connected, and do not make it look as if it were being configured while it is lost. -/
theorem connectCompleted_iff (host : L2capHost) (w : L2capLink) (reason : Nat) :
    (∀ client depth, L2capClient.KnowsConnected client w → ∀ p i, w.Has p i →
      ConnectCompleted w (aclDisconnectedCb (host.client client depth) w reason) p) ↔
    ∀ p i, w.Has p i → w.ConnectGuessed p := by
  constructor
  · intro hall p i hp
    have h := hall silentClient 0 ⟨fun _ _ _ hcall => absurd hcall List.not_mem_nil,
      fun _ _ _ _ _ _ hcall => absurd hcall List.not_mem_nil⟩ p i hp
    have hcbs := connectCbs_lost (fun S _ => heeds_silent host S) hp reason
    rw [connects_lostCalls] at hcbs
    rw [ConnectCompleted] at h
    by_cases hpend : w.ConnectPending p
    · rw [if_pos hpend] at h
      obtain ⟨hgiven, ⟨reply, hreply, -⟩, -⟩ := h
      have hone := List.append_cancel_left (hcbs.symm.trans hreply)
      by_cases hremote : (w.channels p).remoteChannelId = 0
      · refine ⟨iff_of_true hpend hremote, fun _ => hgiven, fun hstale => ?_⟩
        rw [if_pos hstale, if_pos hremote] at hone
        simp at hone
      · rw [if_neg hremote, List.append_nil] at hone
        split at hone <;> simp at hone
    · rw [if_neg hpend] at h
      have hnone := List.self_eq_append_right.1 (h.symm.trans hcbs)
      obtain ⟨hstale, hremote⟩ := List.append_eq_nil_iff.1 hnone
      refine ⟨iff_of_false hpend fun h0 => ?_, fun h => absurd h hpend, fun h => ?_⟩
      · rw [if_pos h0] at hremote
        cases hremote
      · rw [if_pos h] at hstale
        cases hstale
  · intro hcond client depth hclient p i hp
    obtain ⟨hremote, hgiven, hfresh⟩ := hcond p i hp
    unfold ConnectCompleted
    split
    · rename_i hpend
      have hh : ∀ S : Watch, S.channel = p → (host.client client depth).Heeds S := by
        intro S hS
        refine heeds_client S host client (fun c w' call hcall => allowed_of_names fun hname => ?_) depth
        exact hclient.told c w' call hcall p (hS ▸ hname) hpend
      have hstate : (w.channels p).state ≠ .waitConfigReqRsp := fun hs => hfresh ⟨hs, hgiven hpend⟩
      have hcbs := connectCbs_lost hh hp reason
      rw [connects_lostCalls, if_neg hfresh, if_pos (hremote.1 hpend), List.nil_append] at hcbs
      exact ⟨hgiven hpend, ⟨lostReply, hcbs, by decide⟩, refCount_lost hh hp reason (hremote.1 hpend) hstate⟩
    · rename_i hpend
      exact connectCbs_kept (heeds_unasked host hclient hp.exists_ depth) hp.exists_ reason (fun h0 => hpend (hremote.2 h0))
        (fun h => h) fun h hs => hfresh ⟨hs, h⟩

/-- The peer answers a Connection Request with the number `id`: result and its own channel id. -/
def peerAnswers (id remoteChannelId localChannelId result : Nat) : L2capOp :=
  .received (signallingReader (signal l2capSignalConnRsp id
    (leBytes 2 remoteChannelId ++ leBytes 2 localChannelId ++ leBytes 2 result ++ leBytes 2 0)))

/-- A connect that the peer has called pending, naming its channel. -/
def pendingLink : L2capLink :=
  [.api (.newOutgoing 1 true 7 0), peerAnswers 1 0x50 0x40 connRespResPending].foldl
    (L2capLink.step (plainHost.client silentClient 0)) (.start (freeDev 8))

theorem knowsConnected_silent (w : L2capLink) : L2capClient.KnowsConnected silentClient w where
  told := fun _ _ _ hcall => absurd hcall List.not_mem_nil
  configures := fun _ _ _ _ _ _ hcall => absurd hcall List.not_mem_nil

/-- Its callback is never called again. -/
theorem connectCompleted_pendingLink :
    ¬ ∀ client depth, L2capClient.KnowsConnected client pendingLink → ∀ p i, pendingLink.Has p i →
      ConnectCompleted pendingLink (aclDisconnectedCb (plainHost.client client depth) pendingLink 8) p := by
  intro h
  have hpend : pendingLink.ConnectPending 0 := by decide
  have hlen : ((aclDisconnectedCb (plainHost.client silentClient 0) pendingLink 8).connectCbs 0).length =
    (pendingLink.connectCbs 0).length := by decide
  have hhas : pendingLink.Has 0 0 := ⟨by decide, by decide, by decide⟩
  have hdone := h silentClient 0 (knowsConnected_silent pendingLink) 0 0 hhas
  rw [ConnectCompleted, if_pos hpend] at hdone
  obtain ⟨-, ⟨reply, hcbs, -⟩, -⟩ := hdone
  rw [hcbs] at hlen
  simp at hlen

/-- A client that keeps the channels it connects. -/
def keepConnected : L2capClient := fun c _ =>
  match c with
  | .connect _ (some p) _ _ => [.ref p]
  | _ => []

/-- A connected channel whose configuration there is no credit for: the request is queued, and the connect callback stays in
`cmd_data`. -/
def uncreditedLink : L2capLink :=
  [.api (.newOutgoing 1 true 7 0), peerAnswers 1 0x50 0x40 connRespResOk, .api (.configure 0 none 8 0)].foldl
    (L2capLink.step (plainHost.client keepConnected 1)) (.start (freeDev 1))

/-- It is called once more. -/
example : (uncreditedLink.channels 0).ConnectStale ∧
    ((aclDisconnectedCb (plainHost.client silentClient 0) uncreditedLink 8).connectCbs 0).length =
      (uncreditedLink.connectCbs 0).length + 1 := by decide

/-! ## Pending configurations -/

/-- The function that a call of `bte_l2cap_configure` left behind is called: where it should be, or as if it were that of a
connect. -/
def L2event.configures (p : Nat) : L2event → Bool
  | .configureCb q _ _ stored => q = p && stored
  | .connectCb q cb _ => q = p && cb.isConfigure
  | _ => false

/-- The function of the last accepted call of `bte_l2cap_configure`, if that still awaits its final response. -/
def configureAwaited (p : Nat) (log : List L2event) : Option L2capClientCb :=
  log.foldl (fun awaited e =>
    match e with
    | .configureStored q cb => if q = p then some cb else awaited
    | .configureCb q _ _ true => if q = p then none else awaited
    | _ => awaited) none

def L2capLink.ConfigurePending (w : L2capLink) (p : Nat) : Prop := (configureAwaited p w.log).isSome

instance (w : L2capLink) (p : Nat) : Decidable (w.ConfigurePending p) := inferInstanceAs (Decidable (_ = _))

def L2capLink.configureCbs (w : L2capLink) (p : Nat) : List L2event := w.log.filter (·.configures p)

/-- What the loss of the link owes a channel: if a configuration was pending, one failing reply to the function that was
given for it, else none, and that it takes no more messages. -/
structure ConfigureCompleted (host : L2capHost) (w w' : L2capLink) (p : Nat) : Prop where
  pending : ∀ cb, configureAwaited p w.log = some cb → ∃ reply : ConfigureReply,
    w'.configureCbs p = w.configureCbs p ++ [.configureCb p cb reply true] ∧ reply.rejectedMask ≠ 0 ∧ reply.unknownMask ≠ 0
  other : ¬ w.ConfigurePending p → w'.configureCbs p = w.configureCbs p
  closed : (w'.channels p).state ≠ .opened ∧ ∀ buffer, bteL2capSendMessage host w' p buffer = (-1, w')

/-- The guess is right: the channels that look as if they were being configured are those, with the function that was given
for it; no such function is where that of a connect should be; and there is no open channel. -/
structure L2capLink.ConfigureGuessed (w : L2capLink) (p : Nat) : Prop where
  notOpen : (w.channels p).state ≠ .opened
  pending : w.ConfigurePending p ↔ (w.channels p).LooksConfiguring
  given : ∀ cb, configureAwaited p w.log = some cb → (w.channels p).clientCb = cb
  fresh : (w.channels p).remoteChannelId = 0 → ¬ (w.channels p).clientCb.isConfigure

/-- A call that asks nothing of the peer for a channel of the link, and neither closes nor gives up one whose configuration
is pending. -/
def L2capCall.Spares (w : L2capLink) : L2capCall → Prop
  | .configure p _ _ _ => w.allocated ≤ p
  | .echo p _ _ _ => w.allocated ≤ p
  | .queryInfo p _ _ _ => w.allocated ≤ p
  | .unref p => ¬ w.ConfigurePending p
  | .disconnect p => ¬ w.ConfigurePending p
  | _ => True

theorem configures_told (p : Nat) : L2event.Told p (·.configures p) where
  about := fun e h => by
    cases e with
    | configureCb q cb reply stored =>
      simp only [L2event.configures, Bool.and_eq_true, decide_eq_true_eq] at h
      simp [L2event.about, h.1]
    | connectCb q cb reply =>
      simp only [L2event.configures, Bool.and_eq_true, decide_eq_true_eq] at h
      simp [L2event.about, h.1]
    | _ => cases h
  ofCall := fun e h => by
    cases e with
    | configureCb q cb reply stored =>
      cases stored
      · simp [L2event.configures]
      · cases h
    | connectCb q cb reply => cases h
    | _ => rfl
  callback := fun _ => rfl

/-- A watch that leaves the stored function uncalled. -/
def Watch.uncalled (p : Nat) (update : L2cap → L2cap → Prop) (refl : ∀ l, update l l)
    (trans : ∀ {a b c}, update a b → update b c → update a c) (removed : Prop) : Watch where
  channel := p
  update := update
  refl := refl
  trans := trans
  event := fun e => e.configures p = false
  removed := removed

/-- A channel that looks idle, or closed, goes on looking so. -/
def Watch.idle (p : Nat) : Watch :=
  .uncalled p (fun l l' => l'.remoteChannelId = l.remoteChannelId ∧ l'.clientCb = l.clientCb ∧
    (l'.state = .waitConfigReqRsp → l.state = .waitConfigReqRsp)) (fun _ => ⟨rfl, rfl, fun h => h⟩)
    (fun h h' => ⟨h'.1.trans h.1, h'.2.1.trans h.2.1, fun hs => h.2.2 (h'.2.2 hs)⟩) True

/-- A channel stays in its state, whatever is called. -/
def Watch.parked (p : Nat) : Watch where
  channel := p
  update := fun l l' => l'.state = l.state
  refl := fun _ => rfl
  trans := fun h h' => h'.trans h
  event := fun _ => True
  removed := True

theorem idle_closed (p : Nat) : (Watch.idle p).Closed where
  update := fun l l' h => by
    refine ⟨h.1, h.2.2.1, fun hs => ?_⟩
    rcases h.2.2.2 with hsame | hc | hd
    · exact hsame ▸ hs
    · cases hc.symm.trans hs
    · cases hd.symm.trans hs
  removed := trivial
  event := (configures_told p).ofCall

section Configures

variable {host : L2capHost} {p : Nat} {w : L2capLink}

/-- A channel that does not look as if it were being configured hears of no configuration. -/
theorem configureCbs_kept (hh : host.Heeds (Watch.idle p)) (hp : p < w.allocated) (reason : Nat)
    (hidle : ¬ (w.channels p).LooksConfiguring)
    (hfresh : (w.channels p).remoteChannelId = 0 → ¬ (w.channels p).clientCb.isConfigure) :
    (aclDisconnectedCb host w reason).configureCbs p = w.configureCbs p := by
  have hrun : (Watch.idle p).Within w (aclDisconnectedCb host w reason) := by
    refine leads_turns_of (S := Watch.idle p) (I := fun w => ¬ (w.channels p).LooksConfiguring ∧
        ((w.channels p).remoteChannelId = 0 → ¬ (w.channels p).clientCb.isConfigure))
      (fun w q hq => leads_disconnectCb hh w reason fun h => absurd h hq) (fun hw hI => ?_) (fun w hI => ?_)
      (List.finRange 4) w ⟨hidle, hfresh⟩ hp
    · obtain ⟨hremote, hcb, hstate⟩ := hw.update
      refine ⟨fun hlooks => hI.1 ⟨hstate hlooks.1, fun hnull => hlooks.2 (hcb.trans hnull)⟩, fun h0 hconf => ?_⟩
      exact hI.2 (hremote.symm.trans h0) ((congrArg L2capClientCb.isConfigure hcb).symm.trans hconf)
    · refine leads_lostTurn hh (idle_closed p) reason (fun hlooks => absurd hlooks hI.1) (fun l hl h0 => ?_) fun _ => rfl
      have hno : l.clientCb.isConfigure = false := by
        rw [hl.2.1]
        exact Bool.eq_false_iff.2 (hI.2 (hl.1.symm.trans h0))
      exact (congrArg (_ && ·) hno).trans (Bool.and_false _)
  exact hrun.filter_log fun e he => ⟨(configures_told p).about e he, fun hn => Bool.noConfusion (he.symm.trans hn)⟩

/-- Of the calls that the loss of the link makes, those for a configuration. -/
theorem configures_lostCalls (l2cap : L2cap) (p : Nat) :
    (l2cap.lostCalls p).filter (·.configures p) =
      (if l2cap.LooksConfiguring then [.configureCb p l2cap.clientCb lostConfigureReply true] else []) ++
        if l2cap.remoteChannelId = 0 ∧ l2cap.clientCb.isConfigure then [.connectCb p l2cap.clientCb (some lostReply)]
        else [] := by
  rw [L2cap.lostCalls, List.filter_append]
  congr 1
  · split <;> simp [L2event.configures]
  · by_cases hremote : l2cap.remoteChannelId = 0
    · by_cases hconf : l2cap.clientCb.isConfigure <;> simp [L2event.configures, hremote, hconf]
    · simp [hremote]

theorem configureCbs_lost (hwait : host.Heeds (Watch.waits p (·.configures p)))
    (hh : host.Heeds (Watch.unheard p (·.configures p))) (hany : host.Heeds (Watch.any p)) {i : Fin 4} (h : w.Has p i)
    (reason : Nat) :
    (aclDisconnectedCb host w reason).configureCbs p =
      w.configureCbs p ++ ((w.channels p).lostCalls p).filter (·.configures p) :=
  filter_lost (configures_told p) hwait hh hany h reason

end Configures

/-- An open channel stays open when the link is lost and the client does nothing. -/
theorem opened_silent (host : L2capHost) {w : L2capLink} {p : Nat} (hp : p < w.allocated) (reason : Nat)
    (hopen : (w.channels p).state = .opened) :
    ((aclDisconnectedCb (host.client silentClient 0) w reason).channels p).state = .opened := by
  have hh := heeds_silent host (Watch.parked p)
  have hrun : (Watch.parked p).Within w (aclDisconnectedCb (host.client silentClient 0) w reason) := by
    refine leads_turns_of (S := Watch.parked p) (I := fun w => (w.channels p).state = .opened)
      (fun w q hq => leads_disconnectCb hh w reason fun h => absurd h hq) (fun hw hI => hw.update.trans hI)
      (fun w hI => ?_) (List.finRange 4) w hopen hp
    have hconf : configureLost (host.client silentClient 0) w p = w := if_neg fun hlooks => by
      rw [hI] at hlooks
      cases hlooks.1
    show (Watch.parked p).Leads w (l2capDisconnectCb (host.client silentClient 0) w p reason)
    rw [l2capDisconnectCb_eq, hconf]
    exact leads_connectLost hh w reason (fun _ => ⟨fun _ _ h => h.2.2.2, trivial⟩) (fun _ _ => trivial)
      fun _ _ => trivial
  exact hrun.update.trans hopen

theorem sendMessage_closed (host : L2capHost) {w : L2capLink} {p : Nat} (h : (w.channels p).state ≠ .opened)
    (buffer : List Packet) : bteL2capSendMessage host w p buffer = (-1, w) := if_pos h

/-- What a client whose calls spare the channels of the link keeps to: what may touch a channel, and what may close one as
well if no configuration of it is pending. -/
theorem heeds_spares (host : L2capHost) {client : L2capClient} {w : L2capLink}
    (hclient : ∀ c w', ∀ call ∈ client c w', L2capCall.Spares w call) {S : Watch} (hp : S.channel < w.allocated)
    (htouched : S.Touched) (hclosed : ¬ w.ConfigurePending S.channel → S.Closed) (depth : Nat) :
    (host.client client depth).Heeds S := by
  refine heeds_client S host client (fun c w' call hcall => ?_) depth
  have hspares := hclient c w' call hcall
  have hmine : ∀ q, w.allocated ≤ q → q ≠ S.channel := fun q hq heq => absurd hp (by omega)
  cases call with
  | configure q _ _ _ => exact fun heq => absurd heq (hmine q hspares)
  | echo q _ _ _ => exact fun heq => absurd heq (hmine q hspares)
  | queryInfo q _ _ _ => exact fun heq => absurd heq (hmine q hspares)
  | unref q => exact fun heq => hclosed (heq ▸ hspares)
  | disconnect q => exact fun heq => hclosed (heq ▸ hspares)
  | ref q => exact fun _ => htouched
  | setUserdata q _ => exact fun _ => htouched
  | on q _ _ => exact fun _ => htouched
  | setConfigureReply q _ => exact fun _ => htouched
  | newOutgoing _ _ _ _ => exact trivial
  | newConfigured _ _ _ _ _ => exact trivial
  | sendMessage _ _ => exact trivial
  | reset => exact trivial

/-- **The loss of a link completes the pending configurations exactly when they are those of the channels in
WAIT_CONFIG_REQ_RSP, whose functions `cmd_data` has, and no channel is open.** -/
theorem configureCompleted_iff (host : L2capHost) (w : L2capLink) (reason : Nat) :
    (∀ client depth, (∀ c w', ∀ call ∈ client c w', L2capCall.Spares w call) → ∀ p i, w.Has p i →
      ConfigureCompleted host w (aclDisconnectedCb (host.client client depth) w reason) p) ↔
    ∀ p i, w.Has p i → w.ConfigureGuessed p := by
  constructor
  · intro hall p i hp
    have h := hall silentClient 0 (fun _ _ _ hcall => absurd hcall List.not_mem_nil) p i hp
    have hh := heeds_silent host
    have hcbs := configureCbs_lost (hh _) (hh _) (hh _) hp reason
    rw [configures_lostCalls] at hcbs
    have hopen : (w.channels p).state ≠ .opened := fun hopen => h.closed.1 (opened_silent host hp.exists_ reason hopen)
    by_cases hpend : w.ConfigurePending p
    · obtain ⟨cb, hcb⟩ := Option.isSome_iff_exists.1 hpend
      obtain ⟨reply, hreply, -⟩ := h.pending cb hcb
      have hone := List.append_cancel_left (hcbs.symm.trans hreply)
      by_cases hlooks : (w.channels p).LooksConfiguring
      · rw [if_pos hlooks] at hone
        have hgiven : (w.channels p).clientCb = cb := by
          injection hone with hfirst
          injection hfirst
        refine ⟨hopen, iff_of_true hpend hlooks, fun cb' hcb' => ?_, fun h0 hconf => ?_⟩
        · exact hgiven.trans (Option.some.inj (hcb.symm.trans hcb'))
        · rw [if_pos ⟨h0, hconf⟩] at hone
          simp at hone
      · rw [if_neg hlooks, List.nil_append] at hone
        split at hone <;> simp at hone
    · have hnone := List.self_eq_append_right.1 ((h.other hpend).symm.trans hcbs)
      obtain ⟨hlooks, hconnect⟩ := List.append_eq_nil_iff.1 hnone
      refine ⟨hopen, iff_of_false hpend fun h => ?_, fun cb hcb => ?_, fun h0 hconf => ?_⟩
      · rw [if_pos h] at hlooks
        cases hlooks
      · exact absurd (Option.isSome_iff_exists.2 ⟨cb, hcb⟩) hpend
      · rw [if_pos ⟨h0, hconf⟩] at hconnect
        cases hconnect
  · intro hcond client depth hclient p i hp
    obtain ⟨hopen, hpending, hgiven, hfresh⟩ := hcond p i hp
    have hspares := fun {S : Watch} (hS : S.channel < w.allocated) htouched hclosed =>
      heeds_spares host hclient hS htouched hclosed depth
    have hnone := @unheard_closed p (fun _ => false) ⟨nofun, fun _ _ => rfl, fun _ => rfl⟩
    have hclosed : ((aclDisconnectedCb (host.client client depth) w reason).channels p).state ≠ .opened :=
      fun hn => hopen (opened_lost (hspares hp.exists_ hnone.touched fun _ => hnone) hp.exists_ reason hn)
    by_cases hpend : w.ConfigurePending p
    · have hunheard := unheard_closed (configures_told p)
      have hany := (Watch.any_free p).closed
      have hlost := configureCbs_lost
        (hspares hp.exists_ (waits_touched p _) fun hn => absurd hpend hn)
        (hspares hp.exists_ hunheard.touched fun _ => hunheard) (hspares hp.exists_ hany.touched fun _ => hany) hp reason
      rw [configures_lostCalls, if_pos (hpending.1 hpend), if_neg fun h => hfresh h.1 h.2, List.append_nil] at hlost
      refine ⟨fun cb hcb => ⟨lostConfigureReply, ?_, by decide, by decide⟩, fun hn => absurd hpend hn, hclosed,
        sendMessage_closed host hclosed⟩
      rw [hlost, hgiven cb hcb]
    · have hkept := configureCbs_kept (hspares hp.exists_ (idle_closed p).touched fun _ => idle_closed p) hp.exists_ reason
        (fun hlooks => hpend (hpending.2 hlooks)) hfresh
      refine ⟨fun cb hcb => absurd (Option.isSome_iff_exists.2 ⟨cb, hcb⟩) hpend, fun _ => hkept, hclosed,
        sendMessage_closed host hclosed⟩

/-- The peer's request has been answered, and ours is on its way: the channel is in WAIT_CONFIG_RSP. -/
def configuringLink : L2capLink :=
  [peerConnects, peerConfigures 2 .zero, .api (.configure 0 none 7 0)].foldl
    (L2capLink.step (plainHost.client keepChannels 1)) (.start (freeDev 8))

/-- Its callback is not called. -/
theorem configureCompleted_configuringLink :
    ¬ ∀ client depth, (∀ c w', ∀ call ∈ client c w', L2capCall.Spares configuringLink call) → ∀ p i,
      configuringLink.Has p i → ConfigureCompleted plainHost configuringLink
        (aclDisconnectedCb (plainHost.client client depth) configuringLink 8) p := by
  intro h
  have hpend : configureAwaited 0 configuringLink.log = some (.client .configure 7) := by decide
  have hlen : ((aclDisconnectedCb (plainHost.client silentClient 0) configuringLink 8).configureCbs 0).length =
    (configuringLink.configureCbs 0).length := by decide
  have hhas : configuringLink.Has 0 0 := ⟨by decide, by decide, by decide⟩
  have hdone := h silentClient 0 (fun _ _ _ hcall => absurd hcall List.not_mem_nil) 0 0 hhas
  obtain ⟨reply, hcbs, -⟩ := hdone.pending _ hpend
  rw [hcbs] at hlen
  simp at hlen

end Bte
