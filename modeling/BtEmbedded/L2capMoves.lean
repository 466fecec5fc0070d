import BtEmbedded.L2capDemux
import BtEmbedded.L2capProcess
import Mathlib.Logic.Relation
/-!
# L2capMoves — what the code can do to the channels (l2cap.c)

Whatever a client calls and the peer sends, it comes down to a sequence of `Move`s: pieces of code that no callback
interrupts.  Each function is followed once (`Runs`); a property of all the links is then a case analysis over the moves.

A move says what it does to the fields that the ids and the counts live in, to the table and to the notes; the rest of a
channel may change as it likes (`Still`).
-/
namespace Bte

open Bytes

/-! ## What is left alone -/

/-- The fields a property reads are the same. -/
structure L2cap.Same (l l' : L2cap) : Prop where
  state : l'.state = l.state
  localChannelId : l'.localChannelId = l.localChannelId
  expectedResponseCode : l'.expectedResponseCode = l.expectedResponseCode
  expectedResponseId : l'.expectedResponseId = l.expectedResponseId
  expectedResponseCount : l'.expectedResponseCount = l.expectedResponseCount

theorem L2cap.Same.refl (l : L2cap) : l.Same l := ⟨rfl, rfl, rfl, rfl, rfl⟩

theorem L2cap.Same.trans {a b c : L2cap} (h : a.Same b) (h' : b.Same c) : a.Same c where
  state := h'.state.trans h.state
  localChannelId := h'.localChannelId.trans h.localChannelId
  expectedResponseCode := h'.expectedResponseCode.trans h.expectedResponseCode
  expectedResponseId := h'.expectedResponseId.trans h.expectedResponseId
  expectedResponseCount := h'.expectedResponseCount.trans h.expectedResponseCount

/-- An event that no property counts: not a request, not a new state or channel, not a disconnection told. -/
def L2event.quiet : L2event → Bool
  | .state _ _ _ => false
  | .created _ _ => false
  | .emitted _ code _ _ => code % 2 == 1
  | .callback _ (.disconnect _ _ _ _) => false
  | _ => true

namespace L2capLink

/-- Nothing happened that a property reads. -/
structure Still (w w' : L2capLink) : Prop where
  channels : ∀ p, (w.channels p).Same (w'.channels p)
  allocated : w'.allocated = w.allocated
  clients : w'.clients = w.clients
  notes : w'.notes = w.notes
  nextLocalChannelId : w'.nextLocalChannelId = w.nextLocalChannelId
  here : w'.here = w.here
  parked : w'.parked = w.parked
  log : ∃ es, w'.log = w.log ++ es ∧ ∀ e ∈ es, e.quiet

theorem Still.refl (w : L2capLink) : w.Still w :=
  ⟨fun _ => .refl _, rfl, rfl, rfl, rfl, rfl, rfl, [], by simp, by simp⟩

theorem Still.trans {a b c : L2capLink} (h : a.Still b) (h' : b.Still c) : a.Still c where
  channels := fun p => (h.channels p).trans (h'.channels p)
  allocated := h'.allocated.trans h.allocated
  clients := h'.clients.trans h.clients
  notes := h'.notes.trans h.notes
  nextLocalChannelId := h'.nextLocalChannelId.trans h.nextLocalChannelId
  here := h'.here.trans h.here
  parked := h'.parked.trans h.parked
  log := by
    obtain ⟨es, hes, hall⟩ := h.log
    obtain ⟨es', hes', hall'⟩ := h'.log
    refine ⟨es ++ es', by rw [hes', hes, List.append_assoc], fun e he => ?_⟩
    exact (List.mem_append.1 he).elim (hall e) (hall' e)

end L2capLink

/-! ## Answers that are taken -/

/-- Whether the handler of a response takes it, by the channel it comes to. -/
def L2cap.accepts (l2cap : L2cap) (code : Nat) (reader : List UInt8) (len : Nat) : Bool :=
  if code = l2capSignalConnRsp then
    l2cap.state == .waitConnectRsp && headerRead reader len 8 &&
      (decide (word (reader.take 8) 2 > connRespResPending) ||
        word (reader.take 8) 2 == connRespResOk && word (reader.take 8) 1 == l2cap.localChannelId)
  else if code = l2capSignalConfigRsp then
    (l2cap.state == .waitConfigRsp || l2cap.state == .waitConfigReqRsp) && headerRead reader len 6
  else if code = l2capSignalEchoRsp then true
  else if code = l2capSignalInfoRsp then headerRead reader len 4
  else if code = l2capSignalDisconnRsp then
    l2cap.state == .waitDisconnect && headerRead reader len 4 &&
      (word (reader.take 4) 0 == l2cap.remoteChannelId && word (reader.take 4) 1 == l2cap.localChannelId)
  else false

/-- A response that is awaited is awaited by one channel, and this takes it. -/
def L2note.Taken : L2note → Prop
  | .response code id reader len table =>
    ∀ e ∈ table, e.2.expects code id →
      e.2.accepts code reader len ∧ ∀ e' ∈ table, e'.2.expects code id → e'.1 = e.1
  | _ => True

/-! ## Channels that are being closed -/

/-- Whether a note opens the closing of channel `p`, or ends it. -/
def L2note.weight (p : Nat) : L2note → Int
  | .closing q _ => if q = p then 1 else 0
  | .closed q => if q = p then -1 else 0
  | _ => 0

/-- How many times channel `p` is being closed. -/
def closingDepth (p : Nat) (notes : List L2note) : Int := (notes.map (L2note.weight p)).sum

@[simp] theorem closingDepth_append (p : Nat) (a b : List L2note) :
    closingDepth p (a ++ b) = closingDepth p a + closingDepth p b := by
  simp [closingDepth]

/-- A closing of channel `p` was opened and has not ended. -/
def ClosingOpen (p : Nat) (notes : List L2note) : Prop :=
  ∃ pre state post, notes = pre ++ .closing p state :: post ∧ closingDepth p post = 0

/-! ## Moves -/

/-- The channel awaits a response. -/
def L2cap.await (code id : Nat) (l2cap : L2cap) : L2cap :=
  { l2cap with
    expectedResponseCode := code
    expectedResponseId := id
    expectedResponseCount := (l2cap.expectedResponseCount + 1) % 256 }

namespace L2capLink

/-- The channel is in the table. -/
def Tabled (w : L2capLink) (p : Nat) : Prop := ∃ i, w.clients i = some p

/-- A request is handed over, whatever becomes of it. -/
def sendRequest (w : L2capLink) (p code id : Nat) (body : List UInt8) (dev : AclOut) : L2capLink :=
  { w.note (.request p code id w.table) with dev := dev }.record (.emitted (some p) code id body)

/-- It is handed over, and its response is awaited. -/
def ask (w : L2capLink) (p code id : Nat) (body : List UInt8) (dev : AclOut) : L2capLink :=
  (w.sendRequest p code id body dev).modify p (.await (code + 1) id)

/-- The packets of a Configuration Request, the first with an id that is given.  A packet that was not sent at once is the
last, and no response to it is awaited. -/
inductive Packets (p : Nat) : Nat → L2capLink → L2capLink → Prop
  | queued (id w body dev) : Packets p id w (w.sendRequest p l2capSignalConfigReq id body dev)
  | last (id w body dev) : Packets p id w (w.ask p l2capSignalConfigReq id body dev)
  | more {id id' w w₁ w' body dev}
      (h : ((w.sendRequest p l2capSignalConfigReq id body dev).modify p (.await l2capSignalConfigRsp id')).Still w₁)
      (rest : Packets p id' w₁ w') : Packets p id w w'

/-- The start of a closing, up to the client's function. -/
def close (w : L2capLink) (p : Nat) : L2capLink :=
  let w := w.note (.closing p (w.channels p).state)
  if L2capState.closed = (w.channels p).state then w else w.enter p .closed

/-- The end of one, up to the client's function. -/
def told (w : L2capLink) (p reason : Nat) : L2capLink :=
  let w := w.note (.closed p)
  match (w.channels p).disconnectCb with
  | none => w
  | some f => w.record (.callback p (.disconnect f p reason (w.channels p).userdata))

/-- **What no callback interrupts.** -/
inductive Move : L2capLink → L2capLink → Prop
  | still {w w'} (h : w.Still w') : Move w w'
  | left (w p) : Move w { w with clients := fun i => if w.clients i = some p then none else w.clients i }
  | alloc (w outgoing) : Move w (w.alloc outgoing).2
  | joined {w w'} (h : aclL2capAddClient (w.alloc true).2 w.allocated = some w') : Move w w'
  /-- A Connection Request of the peer is answered. -/
  | accepted {w w₁ w₂ psm channelId} (h : bteL2capNewConnected w psm channelId = (some w.allocated, w₁))
      (hs : w₁.Still w₂) (hdepth : closingDepth w.allocated w.notes = 0) : Move w (w₂.enter w.allocated .waitConfig)
  /-- The peer accepted a Connection Request. -/
  | established {w p} (h : (w.channels p).state = .waitConnectRsp) (hdepth : closingDepth p w.notes = 0) :
      Move w (w.enter p .waitConfig)
  | entered {w p s} (h : (w.channels p).state ≠ .closed)
      (hlow : (w.channels p).state.number < L2capState.waitConfig.number → s.number < L2capState.waitConfig.number) :
      Move w (w.enter p s)
  | allotted {w p} (h : w.Tabled p) : Move w (w.nextChannelId.2.allot p w.nextChannelId.1)
  | asked {w p code id body dev} (heven : code % 2 = 0)
      (hid : code = l2capSignalConnReq → (w.channels p).localChannelId ≠ 0) : Move w (w.ask p code id body dev)
  /-- A Connection Request was sent. -/
  | connecting {w p id body dev} (h : w.Tabled p) (hid : (w.channels p).localChannelId ≠ 0) :
      Move w ((w.ask p l2capSignalConnReq id body dev).enter p .waitConnectRsp)
  | packets {w w' p id} (h : Packets p id w w') : Move w w'
  /-- A response that no channel awaits. -/
  | ignored {w code id} (reader len) (h : w.findClient (·.expects code id) = none) :
      Move w (w.note (.response code id reader len w.table))
  | answered {w p code id} (reader len) (h : w.findClient (·.expects code id) = some p) :
      Move w ((w.note (.response code id reader len w.table)).modify p countDown)
  | restored {w p} (h : ∃ n ∈ w.notes, ¬ n.Taken) : Move w (w.restore p)
  | closing (w p) : Move w (w.close p)
  | told {w p reason} (h : ClosingOpen p w.notes) : Move w (w.told p reason)
  | reset (w) : Move w { w with nextLocalChannelId := 0x0040, lastSignalId := 0 }

/-- Moves, on one link or another. -/
abbrev Moves : L2capLink → L2capLink → Prop := Relation.ReflTransGen fun w w' => Move w w' ∨ ∃ k, w' = w.focus k

theorem Moves.move {w w' : L2capLink} (h : Move w w') : Moves w w' := .single (.inl h)

theorem Moves.look (w : L2capLink) (k : Nat) : Moves w (w.focus k) := .single (.inr ⟨k, rfl⟩)

/-- Every channel of a table was allocated. -/
def Tidy (w : L2capLink) : Prop := ∀ k i p, (w.link k).clients i = some p → p < (w.link k).allocated

/-- No channel is being closed. -/
def Idle (w : L2capLink) : Prop := ∀ k p, closingDepth p (w.link k).notes = 0

/-- What a function comes to; `x` are the channels that it may give a local id. -/
structure Runs (x : Nat → Nat → Prop) (w w' : L2capLink) : Prop where
  moves : Moves w w'
  here : w'.here = w.here
  allocated : ∀ k, (w.link k).allocated ≤ (w'.link k).allocated
  ids : ∀ k p, p < (w.link k).allocated → ¬ x k p →
    ((w'.link k).channels p).localChannelId = ((w.link k).channels p).localChannelId
  notes : ∀ k, ∃ ns, (w'.link k).notes = (w.link k).notes ++ ns ∧ ∀ p, closingDepth p ns = 0
  tidy : w.Tidy → w'.Tidy

variable {x : Nat → Nat → Prop}

theorem Runs.refl (w : L2capLink) : Runs x w w where
  moves := .refl
  here := rfl
  allocated := fun _ => le_rfl
  ids := fun _ _ _ _ => rfl
  notes := fun _ => ⟨[], by simp, fun _ => rfl⟩
  tidy := id

theorem Runs.trans {a b c : L2capLink} (h : Runs x a b) (h' : Runs x b c) : Runs x a c where
  moves := h.moves.trans h'.moves
  here := h'.here.trans h.here
  allocated := fun k => (h.allocated k).trans (h'.allocated k)
  ids := fun k p hp hx => (h'.ids k p (lt_of_lt_of_le hp (h.allocated k)) hx).trans (h.ids k p hp hx)
  notes := by
    intro k
    obtain ⟨ns, hns, hdepth⟩ := h.notes k
    obtain ⟨ns', hns', hdepth'⟩ := h'.notes k
    refine ⟨ns ++ ns', by rw [hns', hns, List.append_assoc], fun p => ?_⟩
    rw [closingDepth_append, hdepth, hdepth', add_zero]
  tidy := fun ht => h'.tidy (h.tidy ht)

theorem Runs.mono {y : Nat → Nat → Prop} (hxy : ∀ k p, x k p → y k p) {w w' : L2capLink} (h : Runs x w w') :
    Runs y w w' :=
  { h with ids := fun k p hp hy => h.ids k p hp fun hx => hy (hxy k p hx) }

/-- What a function closes is closed when it is through. -/
theorem Runs.idle {w w' : L2capLink} (h : Runs x w w') (hi : w.Idle) : w'.Idle := by
  intro k p
  obtain ⟨ns, hns, hdepth⟩ := h.notes k
  rw [hns, closingDepth_append, hi k p, hdepth p, add_zero]

theorem Idle.here {w : L2capLink} (hi : w.Idle) (p : Nat) : closingDepth p w.notes = 0 := by
  have hp := hi w.here p
  rwa [link_here] at hp

/-- A channel that was not there yet may be given an id. -/
theorem Runs.fresh {w w' : L2capLink} (h : Runs (fun k p => x k p ∨ k = w.here ∧ p = w.allocated) w w') : Runs x w w' := by
  refine { h with ids := fun k p hp hx => h.ids k p hp ?_ }
  rintro (hxk | ⟨rfl, rfl⟩)
  · exact hx hxk
  · rw [link_here] at hp
    exact lt_irrefl _ hp

/-- What the code itself does to the notes of the link in focus. -/
theorem Runs.notes_here {w w' : L2capLink} (h : Runs x w w') :
    ∃ ns, w'.notes = w.notes ++ ns ∧ ∀ p, closingDepth p ns = 0 := by
  have hns := h.notes w.here
  have hw : (w.link w.here).notes = w.notes := by rw [link_here]; rfl
  have hw' : (w'.link w.here).notes = w'.notes := by rw [← h.here, link_here]; rfl
  rwa [hw, hw'] at hns

/-- A channel that was there keeps its local id. -/
theorem Runs.local_id {w w' : L2capLink} (h : Runs x w w') {p : Nat} (hp : p < w.allocated) (hx : ¬ x w.here p) :
    (w'.channels p).localChannelId = (w.channels p).localChannelId := by
  have hid := h.ids w.here p
  have hw' : w'.link w.here = w'.part := by rw [← h.here, link_here]
  rw [link_here, hw'] at hid
  exact hid hp hx

/-- What was noted stays noted. -/
theorem Runs.note_mem {w w' : L2capLink} (h : Runs x w w') {n : L2note} (hn : n ∈ w.notes) : n ∈ w'.notes := by
  obtain ⟨ns, hns, -⟩ := h.notes_here
  rw [hns]
  exact List.mem_append_left _ hn

/-- What a piece of code does to the link in focus alone. -/
theorem runs_local {w w' : L2capLink} (hm : Move w w') (hh : w'.here = w.here) (hp : w'.parked = w.parked)
    (ha : w.allocated ≤ w'.allocated)
    (hids : ∀ p, p < w.allocated → ¬ x w.here p → (w'.channels p).localChannelId = (w.channels p).localChannelId)
    (hn : ∃ ns, w'.notes = w.notes ++ ns ∧ ∀ p, closingDepth p ns = 0)
    (ht : (∀ i p, w.clients i = some p → p < w.allocated) → ∀ i p, w'.clients i = some p → p < w'.allocated) :
    Runs x w w' := by
  have hlink : w'.link w.here = w'.part := by rw [← hh, link_here]
  refine ⟨.move hm, hh, fun k => ?_, fun k p => ?_, fun k => ?_, fun htidy k => ?_⟩ <;> by_cases hk : k = w.here
  · rw [hk, hlink, link_here]
    exact ha
  · rw [link_of_ne hh hp hk]
  · rw [hk, hlink, link_here]
    exact hids p
  · rw [link_of_ne hh hp hk]
    exact fun _ _ => rfl
  · rw [hk, hlink, link_here]
    exact hn
  · rw [link_of_ne hh hp hk]
    exact ⟨[], by simp, fun _ => rfl⟩
  · rw [hk, hlink]
    have hhere := htidy w.here
    rw [link_here] at hhere
    exact ht hhere
  · rw [link_of_ne hh hp hk]
    exact htidy k

theorem Still.runs {w w' : L2capLink} (h : w.Still w') : Runs x w w' := by
  refine runs_local (.still h) h.here h.parked h.allocated.ge (fun p _ _ => (h.channels p).localChannelId)
    ⟨[], by rw [h.notes, List.append_nil], fun _ => rfl⟩ fun ht i p hi => ?_
  rw [h.clients] at hi
  rw [h.allocated]
  exact ht i p hi

end L2capLink

end Bte
