import BtEmbedded.L2capHandshake
import BtEmbedded.L2capWatch
/-!
# L2capConnected — the channels of a link that comes up (l2cap.c)

`acl_connected_cb` serves the connection of an ACL and, later, the outcome of an authentication that was asked for one more
channel.  It walks over all channels of the link, and looks at their state only when the status is good.
-/
namespace Bte

open Bytes

/-- The channel a call is about. -/
def L2capCall.names : L2capCall → Option Nat
  | .newOutgoing _ _ _ _ => none
  | .newConfigured _ _ _ _ _ => none
  | .ref p => some p
  | .unref p => some p
  | .setUserdata p _ => some p
  | .on p _ _ => some p
  | .configure p _ _ _ => some p
  | .setConfigureReply p _ => some p
  | .disconnect p => some p
  | .sendMessage p _ => some p
  | .echo p _ _ _ => some p
  | .queryInfo p _ _ _ => some p
  | .reset => none

theorem allowed_of_names {S : Watch} {call : L2capCall} (h : call.names ≠ some S.channel) : call.Allowed S := by
  cases call <;> first | exact trivial | exact fun hp => absurd (congrArg some hp) h

/-- A channel that still waits to connect has sent no Connection Request and has not changed its state. -/
def L2event.settles (p : Nat) : L2event → Bool
  | .emitted q code _ _ => q = some p && code = l2capSignalConnReq
  | .state q _ _ => q = p
  | _ => false

/-- The channel has sent its Connection Request, is connected, or has been closed. -/
def L2capLink.Settled (w : L2capLink) (p : Nat) : Prop :=
  p < w.allocated ∧ ((w.channels p).state.number > L2capState.waitConnect.number ∨ ∃ e ∈ w.log, e.settles p)

instance (w : L2capLink) (p : Nat) : Decidable (w.Settled p) := inferInstanceAs (Decidable (_ ∧ (_ ∨ _)))

/-- Nothing was done to the channel or about it: no state entered, no callback, no command. -/
structure L2capLink.Untouched (w w' : L2capLink) (p : Nat) : Prop where
  state : (w'.channels p).state = (w.channels p).state
  localChannelId : (w'.channels p).localChannelId = (w.channels p).localChannelId
  remoteChannelId : (w'.channels p).remoteChannelId = (w.channels p).remoteChannelId
  refCount : (w'.channels p).refCount = (w.channels p).refCount
  log : ∃ es, w'.log = w.log ++ es ∧ ∀ e ∈ es, e.about ≠ some p

/-- Nothing happens to the channel. -/
def Watch.still (p : Nat) : Watch where
  channel := p
  update := fun l l' => l' = l
  refl := fun _ => rfl
  trans := fun h h' => h'.trans h
  event := fun _ => False
  removed := False

theorem Watch.Within.untouched {p : Nat} {w w' : L2capLink} (h : (Watch.still p).Within w w') : w.Untouched w' p where
  state := congrArg L2cap.state h.update
  localChannelId := congrArg L2cap.localChannelId h.update
  remoteChannelId := congrArg L2cap.remoteChannelId h.update
  refCount := congrArg L2cap.refCount h.update
  log := h.log

/-- A list that goes on from `log`, with an event about `p`. -/
def Mentions (p : Nat) (log log' : List L2event) : Prop := ∃ es, log' = log ++ es ∧ ∃ e ∈ es, e.about = some p

theorem Mentions.trans {p : Nat} {a b c : List L2event} (h : Mentions p a b) (h' : ∃ es, c = b ++ es) :
    Mentions p a c := by
  obtain ⟨es, hes, e, he, hab⟩ := h
  obtain ⟨es', hes'⟩ := h'
  exact ⟨es ++ es', by rw [hes', hes, List.append_assoc], e, List.mem_append_left _ he, hab⟩

theorem Mentions.after {p : Nat} {a b c : List L2event} (h : ∃ es, b = a ++ es) (h' : Mentions p b c) :
    Mentions p a c := by
  obtain ⟨es, hes⟩ := h
  obtain ⟨es', hes', e, he, hab⟩ := h'
  exact ⟨es ++ es', by rw [hes', hes, List.append_assoc], e, List.mem_append_right _ he, hab⟩

theorem Mentions.not_untouched {p : Nat} {w w' : L2capLink} (h : Mentions p w.log w'.log) : ¬ w.Untouched w' p := by
  intro hu
  obtain ⟨es, hes, e, he, hab⟩ := h
  obtain ⟨es', hes', hall⟩ := hu.log
  rw [hes] at hes'
  exact hall e (List.append_cancel_left hes' ▸ he) hab

section Turn

variable {host : L2capHost} {p : Nat} (hh : host.Heeds (Watch.any p))
include hh

/-- The failing path of a turn calls the function in `cmd_data`. -/
theorem mentions_connected {w : L2capLink} (hp : p < w.allocated) (cb : L2capClientCb)
    (reply : Option ConnectionResponse) (userdata : Nat) :
    Mentions p w.log (bteL2capUnref (connected host w p cb none reply userdata) p).log := by
  have hfree := Watch.any_free p
  have hrecord : Mentions p w.log (w.record (.connectCb p cb reply)).log := ⟨[_], rfl, _, List.mem_singleton_self _, rfl⟩
  have hcall := leads_connected_rest hh w (q := p) cb reply userdata fun _ _ => trivial
  have hrest := hcall.trans (leads_unref (q := p) _ fun _ => ⟨hfree.closed.touched, hfree.removed⟩) hp
  exact hrecord.trans hrest.grows

omit hh in
/-- A signal that was sent is in the log. -/
theorem mentions_sendSignal (w : L2capLink) (code : Nat) (payload : List UInt8)
    (hsent : (l2capSendSignal host w p code payload).1 = true) :
    Mentions p w.log (l2capSendSignal host w p code payload).2.log := by
  have hsignal : (l2capSignal host w p code payload).2.log = w.log := by
    unfold l2capSignal
    simp only
    split <;> rfl
  unfold l2capSendSignal at hsent ⊢
  generalize l2capSignal host w p code payload = signal at hsignal hsent ⊢
  rcases signal with ⟨_ | buffer, w'⟩
  · simp at hsent
  · exact ⟨[.emitted (some p) code w'.lastSignalId payload], congrArg (· ++ _) hsignal, _, List.mem_singleton_self _, rfl⟩

omit hh in
/-- A channel that counts as waiting is asked for. -/
theorem connectionRequest_waiting {w : L2capLink}
    (h : ¬ (w.channels p).state.number > L2capState.waitConnect.number) :
    ∃ w' payload, w'.log = w.log ∧ w'.allocated = w.allocated ∧ l2capConnectionRequest host w p =
      ((l2capSendSignal host w' p l2capSignalConnReq payload).1,
        if (l2capSendSignal host w' p l2capSignalConnReq payload).1 then
          l2capSetState host (l2capSendSignal host w' p l2capSignalConnReq payload).2 p .waitConnectRsp
        else (l2capSendSignal host w' p l2capSignalConnReq payload).2) := by
  let w' := w.nextChannelId.2.allot p w.nextChannelId.1
  refine ⟨w', leBytes 2 (w'.channels p).psm ++ leBytes 2 w.nextChannelId.1, rfl, rfl, ?_⟩
  rw [l2capConnectionRequest, if_neg h]

theorem mentions_connectionRequest {w : L2capLink} (hp : p < w.allocated)
    (h : ¬ (w.channels p).state.number > L2capState.waitConnect.number)
    (hr : (l2capConnectionRequest host w p).1 = true) :
    Mentions p w.log (l2capConnectionRequest host w p).2.log := by
  have hfree := Watch.any_free p
  obtain ⟨w', payload, hlog, halloc, heq⟩ := @connectionRequest_waiting host p w h
  have hlead := @leads_sendSignal (Watch.any p) host w' p l2capSignalConnReq rfl payload (fun _ => hfree.closed.signals)
    (halloc ▸ hp)
  have hmention := @mentions_sendSignal host p w' l2capSignalConnReq payload
  rw [heq] at hr ⊢
  generalize l2capSendSignal host w' p l2capSignalConnReq payload = r at hr hlead hmention ⊢
  obtain ⟨sent, w''⟩ := r
  subst hr
  have hset := leads_setState hh w'' (q := p) .waitConnectRsp (fun _ => hfree.closed) (fun _ => trivial)
    (lt_of_lt_of_le (halloc ▸ hp) hlead.allocated)
  rw [← hlog]
  exact (hmention rfl).trans hset.grows

/-- A turn for a channel that counts as waiting, or with a bad status, shows in the log. -/
theorem mentions_connectedCb {w : L2capLink} (hp : p < w.allocated) (status : Nat)
    (hbad : ¬ (status = 0 ∧ (w.channels p).state.number > L2capState.waitConnect.number)) :
    Mentions p w.log (aclL2capConnectedCb host w p status).log := by
  unfold aclL2capConnectedCb
  by_cases hs : status = 0
  · have hstate : ¬ (w.channels p).state.number > L2capState.waitConnect.number := fun h => hbad ⟨hs, h⟩
    have hreq := leads_connectionRequest hh w (q := p) (fun _ => Watch.any_free p) hp
    have hsent := mentions_connectionRequest hh hp hstate
    simp only [hs, ne_eq, not_true_eq_false, if_false]
    generalize l2capConnectionRequest host w p = r at hreq hsent ⊢
    rcases r with ⟨_ | _, w'⟩
    · exact .after hreq.grows (mentions_connected hh (lt_of_lt_of_le hp hreq.allocated) _ _ _)
    · exact hsent rfl
  · simp only [ne_eq, hs, not_false_eq_true, if_true, Bool.false_eq_true, if_false]
    exact mentions_connected hh hp _ _ _

end Turn

/-! ## The loop -/

/-- **`acl_connected_cb` leaves alone the channels that do not wait to connect exactly when the status is good and none of
them is in CLOSED.**  With a bad status every channel of the link is told that it could not be connected, and loses a
reference; with a good one a channel that was closed is connected again. -/
theorem aclConnected_iff (host : L2capHost) (client : L2capClient) (depth : Nat) (w : L2capLink) (status : Nat)
    (hclient : ∀ c w', ∀ call ∈ client c w', ∀ p, call.names = some p → ¬ w.Settled p) :
    (∀ p, w.Settled p → w.Untouched (aclConnectedCb (host.client client depth) w status) p) ↔
      ∀ i p, w.clients i = some p → w.Settled p →
        status = 0 ∧ (w.channels p).state.number > L2capState.waitConnect.number := by
  have hheeds : ∀ p (S : Watch), w.Settled p → S.channel = p → (host.client client depth).Heeds S := by
    intro p S hp hS
    refine heeds_client S host client (fun c w' call hcall => allowed_of_names fun hname => ?_) depth
    exact hclient c w' call hcall p (hS ▸ hname) hp
  constructor
  · intro hall i p hi hp
    by_contra hbad
    have hh := hheeds p (Watch.still p) hp rfl
    have hany := hheeds p (Watch.any p) hp rfl
    obtain ⟨w₁, hw₁, hrest⟩ := turns_first (S := Watch.still p) (f := fun w q => aclL2capConnectedCb _ w q status)
      (fun w q hq => leads_connectedCb hh w status fun h => absurd h hq) (fun h => h)
      (fun w q => leads_connectedCb hany w status fun _ => Watch.any_free p)
      (List.finRange 4) w hp.1 ⟨i, List.mem_finRange i, hi⟩
    have hsame : w₁.channels p = w.channels p := hw₁.update
    have hturn := mentions_connectedCb hany (lt_of_lt_of_le hp.1 hw₁.allocated) status (by rwa [hsame])
    exact ((Mentions.after hw₁.grows hturn).trans hrest.grows).not_untouched (hall p hp)
  · intro hcond p hp
    have hh := hheeds p (Watch.still p) hp rfl
    refine Watch.Within.untouched ?_
    by_cases hin : ∃ i, w.clients i = some p
    · obtain ⟨i, hi⟩ := hin
      obtain ⟨hs, hstate⟩ := hcond i p hi hp
      -- while the channel is as it was, its turn does nothing
      refine leads_turns_of (S := Watch.still p) (I := fun w' => w'.channels p = w.channels p)
        (fun w q hq => leads_connectedCb hh w status fun h => absurd h hq) (fun hw hI => hw.update.trans hI)
        (fun w' hI => ?_) (List.finRange 4) w rfl hp.1
      have hturn : aclL2capConnectedCb (host.client client depth) w' p status = w' := by
        have hreq : l2capConnectionRequest (host.client client depth) w' p = (true, w') :=
          if_pos (by rwa [hI])
        simp only [aclL2capConnectedCb, hs, ne_eq, not_true_eq_false, if_false, hreq, if_true]
      show Watch.Leads _ w' (aclL2capConnectedCb (host.client client depth) w' p status)
      rw [hturn]
      exact .refl w'
    · exact leads_turns (fun w q hq => leads_connectedCb hh w status fun h => absurd h hq) (List.finRange 4) w
        (fun i _ hi => hin ⟨i, hi⟩) hp.1

/-- The peer connects a channel, which the client configures, and the client asks for another one that the link must be
authenticated for. -/
def joinedLink : L2capLink :=
  [peerConnects, .api (.configure 0 none 9 0), .api (.newOutgoing 0x11 false 7 0)].foldl
    (L2capLink.step (plainHost.client keepChannels 2)) (.start (freeDev 8))

/-- A client that asks again for a channel it did not get. -/
def retryClient : L2capClient := fun c _ =>
  match c with
  | .connect _ none _ userdata => [.newOutgoing 0x11 false 7 userdata]
  | _ => []

theorem aclConnected_iff_joined :
    joinedLink.Settled 0 ∧ joinedLink.Untouched (aclConnectedCb (plainHost.client retryClient 2) joinedLink 0) 0 := by
  have hsettled : joinedLink.Settled 0 := by decide +kernel
  refine ⟨hsettled, (aclConnected_iff plainHost retryClient 2 joinedLink 0 ?_).2 ?_ 0 hsettled⟩
  · intro c w' call hcall p hname
    unfold retryClient at hcall
    split at hcall
    · rw [List.mem_singleton.1 hcall] at hname
      cases hname
    · cases hcall
  · have hall : ∀ i, (joinedLink.clients i).all fun p => decide (joinedLink.Settled p →
        0 = 0 ∧ (joinedLink.channels p).state.number > L2capState.waitConnect.number) := by decide +kernel
    intro i p hi
    have h := hall i
    rw [hi, Option.all_some] at h
    exact of_decide_eq_true h

/-- The authentication fails: the function that the channel of the peer has stored for its configuration is told so too, and
the channel loses a reference. -/
theorem aclConnected_authFailed :
    ¬ ∀ p, joinedLink.Settled p →
      joinedLink.Untouched (aclConnectedCb (plainHost.client retryClient 2) joinedLink 5) p := by
  intro h
  have hcount : ((aclConnectedCb (plainHost.client retryClient 2) joinedLink 5).channels 0).refCount ≠
    (joinedLink.channels 0).refCount := by decide +kernel
  exact hcount (h 0 (by decide +kernel)).refCount

end Bte
