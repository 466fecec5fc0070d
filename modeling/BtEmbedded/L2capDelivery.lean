import BtEmbedded.L2capFootprint
import BtEmbedded.L2capHandshake
import BtEmbedded.L2capInvariant
import Mathlib.Data.List.Induction
/-!
# L2capDelivery — which channels get data (l2cap.c)

`acl_data_received_cb` looks a channel up by its local id and calls `message_received_cb`, in whatever state the channel
is.  A channel has its id from the Connection Request on and keeps it, with its place in the table, after it was closed; so
data also reaches a channel that is not connected yet, is being disconnected, or is closed.  No other function delivers any
(`undelivering`), and the log tells the states (`StateLogged`): a run is right exactly if no data comes for such a channel.
-/
namespace Bte

open Bytes L2capLink

/-! ## States -/

/-- Not before the connection, nor once it is to end. -/
def L2capState.isConnected : L2capState → Bool
  | .closed => false
  | .waitConnect => false
  | .waitConnectRsp => false
  | .waitDisconnect => false
  | _ => true

def stateStep (p : Nat) (s : L2capState) : L2event → L2capState
  | .state q _ new => if q = p then new else s
  | .created q _ => if q = p then .closed else s
  | _ => s

/-- The state that channel `p` has come to. -/
def stateAfter (p : Nat) (log : List L2event) : L2capState := log.foldl (stateStep p) .closed

/-- Data is delivered to a channel that is connected. -/
def DeliveredConnected (before : List L2event) (e : L2event) : Prop :=
  ∀ p ∈ e.deliveredTo, (stateAfter p before).isConnected = true

instance decidableDeliveredConnected (before : List L2event) (e : L2event) : Decidable (DeliveredConnected before e) :=
  inferInstanceAs (Decidable (∀ p ∈ e.deliveredTo, (stateAfter p before).isConnected = true))

theorem deliveredConnected_data (before : List L2event) (f p : Nat) (data : List UInt8) (userdata : Nat) :
    DeliveredConnected before (.callback p (.messageReceived f p data userdata)) ↔
      (stateAfter p before).isConnected = true :=
  ⟨fun h => h p rfl, fun h q hq => by cases hq; exact h⟩

theorem deliveredConnected_other {e : L2event} (he : e.delivers = false) (before : List L2event) :
    DeliveredConnected before e := by
  intro p hp
  rw [L2event.delivers, hp] at he
  cases he

/-- The log tells the states. -/
def StateLogged (l : L2capPart) : Prop := ∀ p, stateAfter p l.log = (l.channels p).state

theorem StateLogged.new : StateLogged .new := fun _ => rfl

theorem stateStep_mild (p : Nat) (s : L2capState) {e : L2event} {channels : Nat → L2cap} (h : e.Mild channels) :
    stateStep p s e = s := by
  cases e with
  | state q old new => exact h.elim
  | created q outgoing => exact h.elim
  | _ => rfl

/-- Events that enter no state. -/
theorem stateAfter_append (p : Nat) {es : List L2event} (log : List L2event) (h : ∀ e ∈ es, ∀ s, stateStep p s e = s) :
    stateAfter p (log ++ es) = stateAfter p log := by
  induction es using List.reverseRecOn with
  | nil => rw [List.append_nil]
  | append_singleton es e ih =>
    have hes := ih fun e' he' => h e' (by simp [he'])
    rw [stateAfter] at hes
    rw [stateAfter, ← List.append_assoc, List.foldl_append, hes]
    exact h e (by simp) _

/-- No state is entered. -/
theorem StateLogged.keep {l l' : L2capPart} (h : StateLogged l) (hs : ∀ p, (l'.channels p).state = (l.channels p).state)
    (hl : l'.log = l.log) : StateLogged l' := by
  intro p
  rw [hl, hs]
  exact h p

theorem StateLogged.mild {w w' : L2capLink} (h : StateLogged w.part) (hm : w.Mild w') : StateLogged w'.part := by
  intro p
  obtain ⟨es, hes, hall⟩ := hm.log
  show stateAfter p w'.log = (w'.channels p).state
  rw [hes, stateAfter_append p _ fun e he s => stateStep_mild p s (hall e he), hm.state]
  exact h p

theorem StateLogged.alloc {w : L2capLink} (h : StateLogged w.part) (outgoing : Bool) :
    StateLogged (w.alloc outgoing).2.part := by
  intro p
  show stateAfter p (w.log ++ [.created w.allocated outgoing]) =
    (Function.update w.channels w.allocated bteL2capNew p).state
  rw [stateAfter, List.foldl_append]
  by_cases hp : w.allocated = p
  · subst hp
    simp [stateStep, bteL2capNew]
  · rw [Function.update_of_ne (Ne.symm hp)]
    exact (if_neg hp).trans (h p)

theorem StateLogged.enter {w : L2capLink} (h : StateLogged w.part) (p : Nat) (s : L2capState) :
    StateLogged (w.enter p s).part := by
  intro q
  show stateAfter q (w.log ++ [.state p (w.channels p).state s]) = ((w.enter p s).channels q).state
  rw [stateAfter, List.foldl_append]
  by_cases hq : p = q
  · subst hq
    simp [stateStep, L2capLink.enter, L2capLink.record, L2capLink.modify]
  · have hother : ((w.enter p s).channels q).state = (w.channels q).state := by
      simp [L2capLink.enter, L2capLink.record, L2capLink.modify, Function.update_of_ne (Ne.symm hq)]
    rw [hother]
    exact (if_neg hq).trans (h q)

theorem StateLogged.close {w : L2capLink} (h : StateLogged w.part) (p : Nat) : StateLogged (w.close p).part := by
  have hnoted : StateLogged (w.note (.closing p (w.channels p).state)).part := h
  unfold L2capLink.close
  simp only
  split
  · exact hnoted
  · exact hnoted.enter p _

theorem StateLogged.accepted {w w₁ w₂ : L2capLink} {psm channelId : Nat} (h : StateLogged w.part)
    (hnew : bteL2capNewConnected w psm channelId = (some w.allocated, w₁)) (hs : w₁.Still w₂) :
    StateLogged (w₂.enter w.allocated .waitConfig).part := by
  obtain ⟨-, i, -, hw₁⟩ := newConnected_some hnew
  have hmade : StateLogged w₁.part := by
    refine (h.alloc false).keep (fun p => ?_) (by rw [hw₁]; rfl)
    rw [hw₁]
    show (Function.update w.channels w.allocated _ p).state = (Function.update w.channels w.allocated bteL2capNew p).state
    by_cases hp : p = w.allocated
    · simp [hp]
    · simp [Function.update_of_ne hp]
  exact (hmade.mild hs.mild).enter _ _

/-- **No move changes a state without saying so.** -/
theorem StateLogged.move {w w' : L2capLink} (h : StateLogged w.part) (hm : Move w w') : StateLogged w'.part := by
  cases hm with
  | still hs => exact h.mild hs.mild
  | left q => exact h
  | alloc outgoing => exact h.alloc outgoing
  | joined hadd =>
    obtain ⟨i, -, rfl⟩ := addClient_cases hadd
    exact h.alloc true
  | accepted hnew hs hdepth => exact h.accepted hnew hs
  | established hstate hdepth => exact h.enter _ _
  | entered hopen hlow => exact h.enter _ _
  | @allotted q ht => exact h.keep (state_allot w.nextChannelId.2 q w.nextChannelId.1) rfl
  | asked heven hid => exact h.mild (mild_asked w hid _ _ _)
  | connecting ht hid => exact (h.mild (mild_asked w (fun _ => hid) _ _ _)).enter _ _
  | packets hp => exact h.mild (mild_packets hp)
  | ignored reader len hnone => exact h
  | answered reader len hsome => exact h.mild (mild_answered w _ _ _ reader len)
  | restored hrefused => exact h.mild (mild_restored w _)
  | closing q => exact h.close q
  | @told p reason hopen =>
    obtain ⟨-, -, hchannels, -⟩ := told_fields w p reason
    obtain ⟨es, hes, -, hall⟩ := told_log w p reason
    intro q
    show stateAfter q (w.told p reason).log = ((w.told p reason).channels q).state
    rw [hes, hchannels, stateAfter_append q _ fun e he s => ?_]
    · exact h q
    · obtain ⟨f, userdata, rfl⟩ := hall e he
      rfl
  | reset => exact h

/-- **In every run the log of a link tells the states of its channels.** -/
theorem stateLogged_processRun (hosts : Nat → L2capHost) (clients : L2capClients) (depth : Nat) (dev : AclOut)
    (ops : List ProcessOp) (k : Nat) : StateLogged ((processRun hosts clients depth dev ops).link k) := by
  have htrue : Sys.History (fun _ _ => True) ((processRun hosts clients depth dev ops).link k).notes :=
    fun _ _ _ _ => trivial
  exact part_processRun StateLogged.new (fun hm _ h => h.move hm) hosts clients depth dev ops k htrue

/-! ## Data that comes in -/

/-- Anything but data may be logged. -/
def undelivering : Footprint where
  update := fun _ _ => True
  trans := fun _ _ => trivial
  kept := fun _ => trivial
  new := fun _ => trivial
  event := fun e => e.delivers = false
  others := id

/-- The channel that data is for: the first with the local id, if it has a function for data. -/
def L2capLink.dataChannel (w : L2capLink) (reader : BufferReader) : Option Nat :=
  match bteBufferReaderReadN reader l2capHdrLen with
  | (none, _) => none
  | (some header, _) =>
    if word header 1 = bteL2capChannelIdSignalling then none
    else (w.l2capForLocalChannel (word header 1)).filter fun p => (w.channels p).messageReceivedCb.isSome

/-- **Data is delivered to the channel it is for**, before anything else is done; and a packet that is for none delivers
nothing. -/
theorem dataReceived_cases {host : L2capHost} (hh : host.Stays undelivering) (w : L2capLink) (reader : BufferReader) :
    (w.dataChannel reader = none ∧ undelivering.Covers w (aclDataReceivedCb host w reader).2) ∨
    ∃ p f data userdata, w.dataChannel reader = some p ∧
      undelivering.Covers (w.record (.callback p (.messageReceived f p data userdata)))
          (aclDataReceivedCb host w reader).2 := by
  have hfree : undelivering.Free := fun _ _ => trivial
  unfold L2capLink.dataChannel aclDataReceivedCb
  generalize bteBufferReaderReadN reader l2capHdrLen = read
  obtain ⟨header, rest⟩ := read
  cases header with
  | none => exact .inl ⟨rfl, .refl w⟩
  | some header =>
    by_cases hsignal : word header 1 = bteL2capChannelIdSignalling
    · simp only [if_pos hsignal]
      exact .inl ⟨trivial, covers_signallingLoop hh hfree _ _ _ _ _ w⟩
    · simp only [if_neg hsignal]
      cases hfound : w.l2capForLocalChannel (word header 1) with
      | none => exact .inl ⟨rfl, .refl w⟩
      | some p =>
        simp only [Option.filter]
        rcases Option.eq_none_or_eq_some (w.channels p).messageReceivedCb with hcb | ⟨f, hcb⟩
        · simp only [hcb]
          exact .inl ⟨rfl, .refl w⟩
        · simp only [hcb]
          exact .inr ⟨p, f, rest.rest, (w.channels p).userdata, rfl, hh _ _⟩

/-! ## Runs -/

/-- Data that comes in is for a channel that is connected. -/
def DataExpected (w : L2capLink) : ProcessOp → Prop
  | .received k reader => ∀ p, (w.focus k).dataChannel reader = some p → ((w.link k).channels p).state.isConnected
  | _ => True

/-- Link `k` has logged an event. -/
def L2capLink.recordOn (w : L2capLink) (k : Nat) (e : L2event) : L2capLink := w.onLink k (·.record e)

theorem log_recordOn (w : L2capLink) (k : Nat) (e : L2event) (j : Nat) :
    ((w.recordOn k e).link j).log = if j = k then (w.link k).log ++ [e] else (w.link j).log := by
  unfold recordOn onLink
  rw [link_focus]
  split
  · rename_i hj
    subst hj
    exact congrArg L2capPart.log (link_here ((w.focus j).record e))
  · rename_i hj
    have hother : ((w.focus k).record e).link j = (w.focus k).link j :=
      @link_of_ne (w.focus k) ((w.focus k).record e) rfl rfl j hj
    rw [hother, link_focus]

/-- **A step delivers data first of all, or none.** -/
theorem delivered_step {hosts : Nat → L2capHost} (hh : ∀ k, (hosts k).Stays undelivering) (w : L2capLink) (op : ProcessOp) :
    (DataExpected w op ∧ undelivering.Covers w (w.processStep hosts op)) ∨
    ∃ k p f data userdata, (DataExpected w op ↔ ((w.link k).channels p).state.isConnected) ∧
      undelivering.Covers (w.recordOn k (.callback p (.messageReceived f p data userdata))) (w.processStep hosts op) := by
  cases op with
  | api k call => exact .inl ⟨trivial, (covers_apply (hh k) (w.focus k) call).back⟩
  | aclConnected k status => exact .inl ⟨trivial, (covers_aclConnected (hh k) (w.focus k) status).back⟩
  | aclDisconnected k reason => exact .inl ⟨trivial, (covers_aclDisconnected (hh k) (w.focus k) reason).back⟩
  | controller dev => exact .inl ⟨trivial, covers_shared rfl rfl rfl rfl⟩
  | received k reader =>
    rcases dataReceived_cases (hh k) (w.focus k) reader with ⟨hnone, hcovers⟩ | ⟨p, f, data, userdata, hsome, hcovers⟩
    · refine .inl ⟨fun p hp => ?_, hcovers.back⟩
      cases hnone.symm.trans hp
    · refine .inr ⟨k, p, f, data, userdata, ⟨fun h => h p hsome, fun h q hq => ?_⟩, hcovers.focus w.here⟩
      cases hsome.symm.trans hq
      exact h

theorem history_covers {l l' : L2capPart} (h : undelivering.CoversPart l l') :
    Sys.History DeliveredConnected l'.log ↔ Sys.History DeliveredConnected l.log := by
  obtain ⟨es, hes, hall⟩ := h.log
  rw [hes]
  refine ⟨.left, fun hl => hl.append ?_⟩
  rintro pre e post rfl
  exact deliveredConnected_other (hall e (by simp)) _

/-- **A step keeps the history right exactly if its data is expected.** -/
theorem history_step {hosts : Nat → L2capHost} (hh : ∀ k, (hosts k).Stays undelivering) {w : L2capLink}
    (hw : ∀ k, StateLogged (w.link k)) (op : ProcessOp) :
    (∀ k, Sys.History DeliveredConnected ((w.processStep hosts op).link k).log) ↔
      (∀ k, Sys.History DeliveredConnected (w.link k).log) ∧ DataExpected w op := by
  rcases delivered_step hh w op with ⟨hexpected, hcovers⟩ | ⟨k, p, f, data, userdata, hexpected, hcovers⟩
  · rw [and_iff_left hexpected]
    exact forall_congr' fun k => history_covers (hcovers.parts k)
  · rw [forall_congr' fun j => history_covers (hcovers.parts j), hexpected, ← hw k p,
      ← deliveredConnected_data _ f p data userdata]
    simp only [log_recordOn]
    constructor
    · intro h
      have hk := h k
      rw [if_pos rfl] at hk
      refine ⟨fun j => ?_, hk.last⟩
      have hj := h j
      split at hj
      · rename_i hjk
        exact hjk ▸ hj.left
      · exact hj
    · rintro ⟨h, hlast⟩ j
      split
      · exact (h k).snoc hlast
      · exact h j

/-- **In a run, data is delivered to connected channels alone exactly if all the data that comes in is for such.** -/
theorem delivered_connected_iff (hosts : Nat → L2capHost) (clients : L2capClients) (depth : Nat) (dev : AclOut)
    (ops : List ProcessOp) :
    (∀ k, Sys.History DeliveredConnected ((processRun hosts clients depth dev ops).link k).log) ↔
      Sys.Admissible (L2capLink.processStep (clients.hosts hosts depth)) DataExpected (.start dev) ops := by
  induction ops using List.reverseRecOn with
  | nil =>
    refine iff_of_true (fun k => ?_) trivial
    rw [processRun, Sys.run_nil, link_start]
    exact .nil
  | append_singleton ops op ih =>
    have hstep : processRun hosts clients depth dev (ops ++ [op]) =
        (processRun hosts clients depth dev ops).processStep (clients.hosts hosts depth) op := by
      rw [processRun, Sys.run_append, Sys.run_cons, Sys.run_nil, processRun]
    rw [hstep, history_step (stays_clients clients hosts depth) (stateLogged_processRun hosts clients depth dev ops) op, ih,
      Sys.admissible_append]
    simp only [Sys.Admissible, and_true]
    exact Iff.rfl

/-- A client that keeps the channels it is given, and reads their data. -/
def readingClient : L2capClients := fun k c _ =>
  match c with
  | .serverConnected _ p => [(k, .ref p), (k, .on p .messageReceived (some 7))]
  | _ => []

/-- Data for a local id. -/
def dataReader (channelId : Nat) (data : List UInt8) : BufferReader :=
  aclReader (aclPacket 0x42 2 (leBytes 2 data.length ++ leBytes 2 channelId ++ data)) []

/-- The peer connects, disconnects, and then sends data. -/
def dataAfterOps : List ProcessOp :=
  [.received 0 (signallingReader (signal l2capSignalConnReq 1 (leBytes 2 0x1001 ++ leBytes 2 0x50))),
    .received 0 (signallingReader (signal l2capSignalDisconnReq 2 (leBytes 2 0x40 ++ leBytes 2 0x50))),
    .received 0 (dataReader 0x40 [1, 2, 3])]

/-- The channel is closed, and its client gets the data. -/
theorem not_delivered_connected_closed :
    ¬ ∀ k, Sys.History DeliveredConnected
      ((processRun (fun _ => plainHost) readingClient 2 (freeDev 8) dataAfterOps).link k).log :=
  fun h => absurd (h 0) (by decide)

end Bte
