import BtEmbedded.L2capReceived
import BtEmbedded.Lib.History
/-!
# L2capInvariant — what every move preserves (l2cap.c)

A run of a process is a row of moves, each on one link.  A property of a link has to be checked for the moves on it, under
what is known of the notes so far.  Two kinds of property are prepared here: of the states and the local ids, to which most
moves are `Mild`, and of the responses awaited, to which the others are `Calm`.
-/
namespace Bte

open Bytes

namespace L2capLink

/-! ## A move stays on its link -/

theorem Move.frame {w w' : L2capLink} (h : Move w w') : w'.here = w.here ∧ w'.parked = w.parked := by
  cases h with
  | still h => exact ⟨h.here, h.parked⟩
  | left p => exact ⟨rfl, rfl⟩
  | alloc outgoing => exact ⟨rfl, rfl⟩
  | joined h =>
    obtain ⟨i, -, rfl⟩ := addClient_cases h
    exact ⟨rfl, rfl⟩
  | accepted h hs hdepth =>
    obtain ⟨-, i, -, rfl⟩ := newConnected_some h
    exact ⟨hs.here, hs.parked⟩
  | established h hdepth => exact ⟨rfl, rfl⟩
  | entered h hlow => exact ⟨rfl, rfl⟩
  | allotted h => exact ⟨rfl, rfl⟩
  | asked heven hid => exact ⟨rfl, rfl⟩
  | connecting h hid => exact ⟨rfl, rfl⟩
  | packets h => exact ⟨(packets_frame h).1, (packets_frame h).2.1⟩
  | ignored reader len h => exact ⟨rfl, rfl⟩
  | answered reader len h => exact ⟨rfl, rfl⟩
  | restored h => exact ⟨rfl, rfl⟩
  | closing p => exact ⟨(close_fields w p).1, (close_fields w p).2.1⟩
  | told h => exact ⟨(told_fields w _ _).1, (told_fields w _ _).2.1⟩
  | reset => exact ⟨rfl, rfl⟩

/-- What a telling adds to the log: the client's function, if there is one. -/
theorem told_log (w : L2capLink) (p reason : Nat) :
    ∃ es, (w.told p reason).log = w.log ++ es ∧ es.length ≤ 1 ∧
      ∀ e ∈ es, ∃ f userdata, e = .callback p (.disconnect f p reason userdata) := by
  unfold L2capLink.told
  simp only
  split
  · exact ⟨[], (List.append_nil _).symm, Nat.zero_le 1, by simp⟩
  · exact ⟨_, rfl, le_rfl, fun e he => ⟨_, _, List.mem_singleton.1 he⟩⟩

theorem state_allot (w : L2capLink) (p id q : Nat) : ((w.allot p id).channels q).state = (w.channels q).state := by
  by_cases hq : q = p
  · subst hq
    simp [allot, L2capLink.modify, note]
  · simp [allot, L2capLink.modify, note, Function.update_of_ne hq]

/-- **Notes are only added.** -/
theorem Move.notes {w w' : L2capLink} (h : Move w w') : ∃ ns, w'.notes = w.notes ++ ns := by
  cases h with
  | still h => exact ⟨[], by rw [h.notes, List.append_nil]⟩
  | left p => exact ⟨[], (List.append_nil _).symm⟩
  | alloc outgoing => exact ⟨[], (List.append_nil _).symm⟩
  | joined h =>
    obtain ⟨i, -, rfl⟩ := addClient_cases h
    exact ⟨[], (List.append_nil _).symm⟩
  | accepted h hs hdepth =>
    obtain ⟨-, i, -, rfl⟩ := newConnected_some h
    exact ⟨_, hs.notes⟩
  | established h hdepth => exact ⟨[], (List.append_nil _).symm⟩
  | entered h hlow => exact ⟨[], (List.append_nil _).symm⟩
  | allotted h => exact ⟨_, rfl⟩
  | asked heven hid => exact ⟨_, rfl⟩
  | connecting h hid => exact ⟨_, rfl⟩
  | packets h =>
    obtain ⟨-, -, -, -, -, -, ns, hns, -⟩ := packets_frame h
    exact ⟨ns, hns⟩
  | ignored reader len h => exact ⟨_, rfl⟩
  | answered reader len h => exact ⟨_, rfl⟩
  | restored h => exact ⟨_, rfl⟩
  | closing p => exact ⟨_, (close_fields w p).2.2.2.2.2⟩
  | told h => exact ⟨_, (told_fields w _ _).2.2.2.2.2⟩
  | reset => exact ⟨[], (List.append_nil _).symm⟩

theorem Move.link_of_ne {w w' : L2capLink} (h : Move w w') {k : Nat} (hk : k ≠ w.here) : w'.link k = w.link k :=
  Bte.L2capLink.link_of_ne h.frame.1 h.frame.2 hk

theorem Move.link_here {w w' : L2capLink} (h : Move w w') : w'.link w.here = w'.part := by
  rw [← h.frame.1, Bte.L2capLink.link_here]

theorem Move.link_notes {w w' : L2capLink} (h : Move w w') (k : Nat) :
    ∃ ns, (w'.link k).notes = (w.link k).notes ++ ns := by
  by_cases hk : k = w.here
  · subst hk
    rw [h.link_here, Bte.L2capLink.link_here]
    exact h.notes
  · exact ⟨[], by rw [h.link_of_ne hk, List.append_nil]⟩

/-- **What each move preserves, the moves preserve**, as long as the notes are as they are assumed to be. -/
theorem Moves.inv {P : Nat → List L2note → L2note → Prop} {I : L2capLink → Prop}
    (hmove : ∀ {w w'}, Move w w' → (∀ k, Sys.History (P k) (w'.link k).notes) → I w → I w')
    (hlook : ∀ w k, I w → I (w.focus k)) {w w' : L2capLink} (h : Moves w w')
    (hok : ∀ k, Sys.History (P k) (w'.link k).notes) (hw : I w) : I w' := by
  induction h with
  | refl => exact hw
  | tail _ hstep ih =>
    rcases hstep with hmoved | ⟨k, rfl⟩
    · refine hmove hmoved hok (ih fun k => ?_)
      obtain ⟨ns, hns⟩ := hmoved.link_notes k
      have hlink := hok k
      rw [hns] at hlink
      exact hlink.left
    · refine hlook _ k (ih fun j => ?_)
      rw [← link_focus _ k j]
      exact hok j

end L2capLink

/-! ## Moves that leave the states and the local ids -/

/-- An event that is no new state or channel and no disconnection told; and a Connection Request only from a channel with
a local id. -/
def L2event.Mild (channels : Nat → L2cap) : L2event → Prop
  | .state _ _ _ => False
  | .created _ _ => False
  | .emitted (some p) code _ _ => code = l2capSignalConnReq → (channels p).localChannelId ≠ 0
  | .callback _ (.disconnect _ _ _ _) => False
  | _ => True

def L2note.Mild : L2note → Prop
  | .allotted _ _ _ => False
  | .closing _ _ => False
  | .closed _ => False
  | _ => True

theorem L2event.quiet.mild {e : L2event} (h : e.quiet) (channels : Nat → L2cap) : e.Mild channels := by
  cases e with
  | state p old new => cases h
  | created p outgoing => cases h
  | emitted p code id body =>
    cases p with
    | none => trivial
    | some p =>
      intro hcode
      subst hcode
      cases h
  | callback p c =>
    cases c with
    | disconnect f q reason userdata => cases h
    | _ => trivial
  | responding p overflow dev buffer => trivial
  | handled p id expectedId flags result last => trivial
  | connectCb p cb reply => trivial
  | configureCb p cb reply stored => trivial
  | configureStored p cb => trivial
  | aclDisconnect => trivial

namespace L2capLink

structure Mild (w w' : L2capLink) : Prop where
  state : ∀ p, (w'.channels p).state = (w.channels p).state
  localChannelId : ∀ p, (w'.channels p).localChannelId = (w.channels p).localChannelId
  allocated : w'.allocated = w.allocated
  clients : w'.clients = w.clients
  nextLocalChannelId : w'.nextLocalChannelId = w.nextLocalChannelId ∨ w'.nextLocalChannelId = 0x0040
  log : ∃ es, w'.log = w.log ++ es ∧ ∀ e ∈ es, e.Mild w.channels
  notes : ∃ ns, w'.notes = w.notes ++ ns ∧ ∀ n ∈ ns, n.Mild

theorem Mild.trans {a b c : L2capLink} (h : a.Mild b) (h' : b.Mild c) : a.Mild c where
  state := fun p => (h'.state p).trans (h.state p)
  localChannelId := fun p => (h'.localChannelId p).trans (h.localChannelId p)
  allocated := h'.allocated.trans h.allocated
  clients := h'.clients.trans h.clients
  nextLocalChannelId := h'.nextLocalChannelId.elim (fun hn => hn ▸ h.nextLocalChannelId) .inr
  log := by
    obtain ⟨es, hes, hall⟩ := h.log
    obtain ⟨es', hes', hall'⟩ := h'.log
    refine ⟨es ++ es', by rw [hes', hes, List.append_assoc], fun e he => ?_⟩
    refine (List.mem_append.1 he).elim (hall e) fun he' => ?_
    have hmild := hall' e he'
    unfold L2event.Mild at hmild ⊢
    split at hmild <;> simp_all [h.localChannelId]
  notes := by
    obtain ⟨ns, hns, hall⟩ := h.notes
    obtain ⟨ns', hns', hall'⟩ := h'.notes
    refine ⟨ns ++ ns', by rw [hns', hns, List.append_assoc], fun n hn => ?_⟩
    exact (List.mem_append.1 hn).elim (hall n) (hall' n)

theorem Still.mild {w w' : L2capLink} (h : w.Still w') : w.Mild w' where
  state := fun p => (h.channels p).state
  localChannelId := fun p => (h.channels p).localChannelId
  allocated := h.allocated
  clients := h.clients
  nextLocalChannelId := .inl h.nextLocalChannelId
  log := by
    obtain ⟨es, hes, hall⟩ := h.log
    exact ⟨es, hes, fun e he => L2event.quiet.mild (hall e he) _⟩
  notes := ⟨[], by rw [h.notes, List.append_nil], by simp⟩

/-- A function that leaves the state and the local id. -/
theorem mild_noted (w : L2capLink) {n : L2note} (hn : n.Mild) (p : Nat) {f : L2cap → L2cap}
    (hs : ∀ l : L2cap, (f l).state = l.state) (hi : ∀ l : L2cap, (f l).localChannelId = l.localChannelId) :
    w.Mild ((w.note n).modify p f) where
  state := fun q => by
    by_cases hq : q = p
    · subst hq
      simp [L2capLink.modify, note, hs]
    · simp [L2capLink.modify, note, Function.update_of_ne hq]
  localChannelId := localChannelId_modify (w.note n) p hi
  allocated := rfl
  clients := rfl
  nextLocalChannelId := .inl rfl
  log := ⟨[], (List.append_nil _).symm, by simp⟩
  notes := ⟨[n], rfl, fun m hm => by rwa [List.mem_singleton.1 hm]⟩

theorem mild_note (w : L2capLink) {n : L2note} (hn : n.Mild) : w.Mild (w.note n) where
  state := fun _ => rfl
  localChannelId := fun _ => rfl
  allocated := rfl
  clients := rfl
  nextLocalChannelId := .inl rfl
  log := ⟨[], (List.append_nil _).symm, by simp⟩
  notes := ⟨[n], rfl, fun m hm => by rwa [List.mem_singleton.1 hm]⟩

theorem mild_answered (w : L2capLink) (p code id : Nat) (reader : List UInt8) (len : Nat) :
    w.Mild ((w.note (.response code id reader len w.table)).modify p countDown) :=
  mild_noted w (n := .response code id reader len w.table) trivial p (f := countDown) (fun _ => rfl) fun _ => rfl

theorem mild_restored (w : L2capLink) (p : Nat) : w.Mild (w.restore p) :=
  mild_noted w (n := .restored p (w.channels p).expectedResponseId) trivial p (f := countUp) (fun _ => rfl) fun _ => rfl

theorem mild_asked (w : L2capLink) {p code : Nat} (hid : code = l2capSignalConnReq → (w.channels p).localChannelId ≠ 0)
    (id : Nat) (body : List UInt8) (dev : AclOut) : w.Mild (w.ask p code id body dev) where
  state := state_ask w p code id body dev
  localChannelId := localChannelId_ask w p code id body dev
  allocated := rfl
  clients := rfl
  nextLocalChannelId := .inl rfl
  log := ⟨[.emitted (some p) code id body], rfl, fun e he => by rwa [List.mem_singleton.1 he]⟩
  notes := ⟨[.request p code id w.table], rfl, fun n hn => by rw [List.mem_singleton.1 hn]; trivial⟩

theorem mild_packets {p id : Nat} {w w' : L2capLink} (h : Packets p id w w') : w.Mild w' := by
  have hrequest : ∀ (w : L2capLink) id body dev code' id',
      w.Mild ((w.sendRequest p l2capSignalConfigReq id body dev).modify p (.await code' id')) := by
    intro w id body dev code' id'
    refine ⟨fun q => (sendRequest_channel w p _ id body dev code' id' q).2,
      fun q => (sendRequest_channel w p _ id body dev code' id' q).1, rfl, rfl, .inl rfl,
      ⟨[.emitted (some p) l2capSignalConfigReq id body], rfl, fun e he => ?_⟩,
      ⟨[.request p l2capSignalConfigReq id w.table], rfl, fun n hn => ?_⟩⟩
    · rw [List.mem_singleton.1 he]
      exact fun hcode => absurd hcode (by decide)
    · rw [List.mem_singleton.1 hn]
      trivial
  induction h with
  | queued id w body dev =>
    refine ⟨fun _ => rfl, fun _ => rfl, rfl, rfl, .inl rfl,
      ⟨[.emitted (some p) l2capSignalConfigReq id body], rfl, fun e he => ?_⟩,
      ⟨[.request p l2capSignalConfigReq id w.table], rfl, fun n hn => ?_⟩⟩
    · rw [List.mem_singleton.1 he]
      exact fun hcode => absurd hcode (by decide)
    · rw [List.mem_singleton.1 hn]
      trivial
  | last id w body dev => exact hrequest w id body dev _ id
  | more hs rest ih => exact (hrequest _ _ _ _ _ _).trans (hs.mild.trans ih)

/-! ## Moves that leave the responses awaited -/

end L2capLink

def L2capPart.Has (l : L2capPart) (p : Nat) : Prop := ∃ i, l.clients i = some p

theorem has_update {w : L2capLink} {i : Fin 4} {n p : Nat} {l : L2capPart}
    (hl : l.clients = Function.update w.clients i (some n)) (hp : l.Has p) : p = n ∨ w.part.Has p := by
  obtain ⟨j, hj⟩ := hp
  rw [hl] at hj
  by_cases hji : j = i
  · rw [hji, Function.update_self] at hj
    exact .inl (Option.some.inj hj).symm
  · rw [Function.update_of_ne hji] at hj
    exact .inr ⟨j, hj⟩

/-- Nothing is asked or answered. -/
def L2note.Calm : L2note → Prop
  | .request _ _ _ _ => False
  | .response _ _ _ _ _ => False
  | .restored _ _ => False
  | _ => True

/-- What a channel awaits. -/
structure L2cap.AwaitsAs (l l' : L2cap) : Prop where
  code : l'.expectedResponseCode = l.expectedResponseCode
  id : l'.expectedResponseId = l.expectedResponseId
  count : l'.expectedResponseCount = l.expectedResponseCount

namespace L2capLink

/-- Every channel of the table that awaits a response was there, and awaited the same. -/
structure Calm (w w' : L2capLink) : Prop where
  awaits : ∀ p, w'.part.Has p → (w'.channels p).expectedResponseCount ≠ 0 →
    w.part.Has p ∧ (w.channels p).AwaitsAs (w'.channels p)
  notes : ∃ ns, w'.notes = w.notes ++ ns ∧ ∀ n ∈ ns, n.Calm

/-- Nothing is noted, and all of the table is as it was. -/
theorem calm_of {w w' : L2capLink} (hc : w'.clients = w.clients) (ha : ∀ p, (w.channels p).AwaitsAs (w'.channels p))
    {m : List L2note} (hn : w'.notes = w.notes ++ m) (hns : ∀ n ∈ m, n.Calm) : w.Calm w' where
  awaits := fun p ⟨i, hi⟩ _ => ⟨⟨i, (congrFun hc i).symm.trans hi⟩, ha p⟩
  notes := ⟨m, hn, hns⟩

theorem Still.calm {w w' : L2capLink} (h : w.Still w') : w.Calm w' := by
  refine calm_of h.clients (fun p => ?_) (m := []) (by rw [h.notes, List.append_nil]) (by simp)
  have hsame := h.channels p
  exact ⟨hsame.expectedResponseCode, hsame.expectedResponseId, hsame.expectedResponseCount⟩

theorem Calm.trans {a b c : L2capLink} (h : a.Calm b) (h' : b.Calm c) : a.Calm c where
  awaits := fun p hp hcount => by
    obtain ⟨hb, hsame'⟩ := h'.awaits p hp hcount
    obtain ⟨ha, hsame⟩ := h.awaits p hb (hsame'.count ▸ hcount)
    exact ⟨ha, hsame'.code.trans hsame.code, hsame'.id.trans hsame.id, hsame'.count.trans hsame.count⟩
  notes := by
    obtain ⟨ns, hns, hall⟩ := h.notes
    obtain ⟨ns', hns', hall'⟩ := h'.notes
    refine ⟨ns ++ ns', by rw [hns', hns, List.append_assoc], fun n hn => ?_⟩
    exact (List.mem_append.1 hn).elim (hall n) (hall' n)

theorem calm_enter (w : L2capLink) (p : Nat) (s : L2capState) : w.Calm (w.enter p s) := by
  refine calm_of rfl (fun q => ?_) (List.append_nil _).symm (by simp)
  by_cases hq : q = p
  · subst hq
    simp only [L2capLink.enter, L2capLink.record, L2capLink.modify, Function.update_self]
    exact ⟨rfl, rfl, rfl⟩
  · simp only [L2capLink.enter, L2capLink.record, L2capLink.modify, Function.update_of_ne hq]
    exact ⟨rfl, rfl, rfl⟩

/-- A channel that is new awaits nothing. -/
theorem calm_fresh {w w' : L2capLink} {n : Nat} (hfresh : (w'.channels n).expectedResponseCount = 0)
    (hold : ∀ p, p ≠ n → w'.part.Has p → w.part.Has p ∧ (w.channels p).AwaitsAs (w'.channels p))
    {m : List L2note} (hn : w'.notes = w.notes ++ m) (hns : ∀ n ∈ m, n.Calm) : w.Calm w' where
  awaits := fun p hp hcount => hold p (fun heq => hcount (heq ▸ hfresh)) hp
  notes := ⟨m, hn, hns⟩

theorem calm_alloc (w : L2capLink) (outgoing : Bool) : w.Calm (w.alloc outgoing).2 := by
  refine calm_fresh (n := w.allocated) ?_ (fun p hp hhas => ⟨hhas, ?_⟩) (List.append_nil _).symm (by simp)
  · rw [(alloc_fields w outgoing).2.2.2.2, Function.update_self]
    rfl
  · rw [(alloc_fields w outgoing).2.2.2.2, Function.update_of_ne hp]
    exact ⟨rfl, rfl, rfl⟩

theorem calm_joined {w w' : L2capLink} (hadd : aclL2capAddClient (w.alloc true).2 w.allocated = some w') : w.Calm w' := by
  obtain ⟨i, -, rfl⟩ := addClient_cases hadd
  refine calm_fresh (n := w.allocated) ?_ (fun p hp hhas => ⟨(has_update rfl hhas).resolve_left hp, ?_⟩)
    (List.append_nil _).symm (by simp)
  · show (Function.update w.channels w.allocated bteL2capNew w.allocated).expectedResponseCount = 0
    rw [Function.update_self]
    rfl
  · show (w.channels p).AwaitsAs (Function.update w.channels w.allocated bteL2capNew p)
    rw [Function.update_of_ne hp]
    exact ⟨rfl, rfl, rfl⟩

theorem calm_newConnected {w w₁ : L2capLink} {psm channelId : Nat}
    (h : bteL2capNewConnected w psm channelId = (some w.allocated, w₁)) : w.Calm w₁ := by
  obtain ⟨-, i, -, rfl⟩ := newConnected_some h
  refine calm_fresh (n := w.allocated) ?_ (fun p hp hhas => ⟨(has_update rfl hhas).resolve_left hp, ?_⟩)
    (m := [.allotted w.allocated w.nextChannelId.1 _]) rfl fun n hn => ?_
  · simp [bteL2capNew]
  · simp only [Function.update_of_ne hp]
    exact ⟨rfl, rfl, rfl⟩
  · rw [List.mem_singleton.1 hn]
    trivial

theorem calm_allot (w : L2capLink) (p id : Nat) : w.Calm (w.allot p id) := by
  refine calm_of rfl (fun q => ?_) (m := [.allotted p id w.tables]) rfl fun n hn => ?_
  · by_cases hq : q = p
    · subst hq
      simp only [L2capLink.allot, L2capLink.modify, note, Function.update_self]
      exact ⟨rfl, rfl, rfl⟩
    · simp only [L2capLink.allot, L2capLink.modify, note, Function.update_of_ne hq]
      exact ⟨rfl, rfl, rfl⟩
  · rw [List.mem_singleton.1 hn]
    trivial

theorem calm_close (w : L2capLink) (p : Nat) : w.Calm (w.close p) := by
  have hnote : w.Calm (w.note (.closing p (w.channels p).state)) :=
    calm_of rfl (fun _ => ⟨rfl, rfl, rfl⟩) (m := [.closing p (w.channels p).state]) rfl fun n hn => by
      rw [List.mem_singleton.1 hn]
      trivial
  unfold L2capLink.close
  simp only
  split
  · exact hnote
  · exact hnote.trans (calm_enter _ p .closed)

theorem calm_told (w : L2capLink) (p reason : Nat) : w.Calm (w.told p reason) := by
  obtain ⟨-, -, hchannels, -, hclients, hnotes⟩ := told_fields w p reason
  refine calm_of hclients (fun q => ?_) hnotes fun n hn => ?_
  · rw [hchannels]
    exact ⟨rfl, rfl, rfl⟩
  · rw [List.mem_singleton.1 hn]
    trivial

theorem calm_left (w : L2capLink) (p : Nat) :
    w.Calm { w with clients := fun i => if w.clients i = some p then none else w.clients i } where
  awaits := fun q ⟨i, hi⟩ _ => by
    have hi' : (if w.clients i = some p then none else w.clients i) = some q := hi
    split at hi'
    · cases hi'
    · exact ⟨⟨i, hi'⟩, rfl, rfl, rfl⟩
  notes := ⟨[], (List.append_nil _).symm, by simp⟩

/-- A search that something in the table satisfies finds something. -/
theorem findClient_isSome {w : L2capLink} {test : L2cap → Bool} {p : Nat} (hp : w.Tabled p) (htest : test (w.channels p)) :
    ∃ q, w.findClient test = some q := by
  obtain ⟨i, hi⟩ := hp
  refine Option.isSome_iff_exists.1 ?_
  unfold L2capLink.findClient
  rw [List.findSome?_isSome_iff]
  exact ⟨i, List.mem_finRange i, by simp [hi, htest]⟩

/-- **A property of the responses awaited** has to be checked for requests and responses alone. -/
theorem Move.answers {P : List L2note → L2note → Prop} {I : L2capPart → Prop}
    (hcalm : ∀ {w w' : L2capLink}, w.Calm w' → I w.part → I w'.part)
    (hask : ∀ (w : L2capLink) p code id body dev, P w.notes (.request p code id w.table) → I w.part →
      I (w.ask p code id body dev).part)
    (hpackets : ∀ {w w' p id}, Packets p id w w' → Sys.History P w'.notes → I w.part → I w'.part)
    (hignored : ∀ (w : L2capLink) code id reader len, w.findClient (·.expects code id) = none → I w.part →
      I (w.note (.response code id reader len w.table)).part)
    (hanswered : ∀ (w : L2capLink) p code id reader len, w.findClient (·.expects code id) = some p →
      P w.notes (.response code id reader len w.table) → I w.part →
      I ((w.note (.response code id reader len w.table)).modify p countDown).part)
    (hrestored : ∀ (w : L2capLink) p, (∃ n ∈ w.notes, ¬ n.Taken) → Sys.History P (w.restore p).notes → I w.part →
      I (w.restore p).part)
    {w w' : L2capLink} (hm : Move w w') (hok : Sys.History P w'.notes) (h : I w.part) : I w'.part := by
  cases hm with
  | still hs => exact hcalm hs.calm h
  | left q => exact hcalm (calm_left w q) h
  | alloc outgoing => exact hcalm (calm_alloc w outgoing) h
  | joined hadd => exact hcalm (calm_joined hadd) h
  | accepted hnew hs hdepth => exact hcalm (((calm_newConnected hnew).trans hs.calm).trans (calm_enter _ _ _)) h
  | established hstate hdepth => exact hcalm (calm_enter _ _ _) h
  | entered hopen hlow => exact hcalm (calm_enter _ _ _) h
  | @allotted q ht =>
    have hnext : w.Calm w.nextChannelId.2 := calm_of rfl (fun _ => ⟨rfl, rfl, rfl⟩) (List.append_nil _).symm (by simp)
    exact hcalm (hnext.trans (calm_allot _ q _)) h
  | asked heven hid => exact hask w _ _ _ _ _ hok.last h
  | connecting ht hid => exact hcalm (calm_enter _ _ _) (hask w _ _ _ _ _ hok.last h)
  | packets hp => exact hpackets hp hok h
  | ignored reader len hnone => exact hignored w _ _ reader len hnone h
  | answered reader len hsome => exact hanswered w _ _ _ reader len hsome hok.last h
  | restored hrefused => exact hrestored w _ hrefused hok h
  | closing q => exact hcalm (calm_close w q) h
  | told hopen => exact hcalm (calm_told w _ _) h
  | reset => exact hcalm (calm_of rfl (fun _ => ⟨rfl, rfl, rfl⟩) (List.append_nil _).symm (by simp)) h

end L2capLink

open L2capLink

/-- **A property of all the links holds after every run.** -/
theorem inv_processRun {P : Nat → List L2note → L2note → Prop} {I : L2capLink → Prop} (hstart : ∀ dev, I (.start dev))
    (hmove : ∀ {w w'}, Move w w' → (∀ k, Sys.History (P k) (w'.link k).notes) → I w → I w')
    (hlook : ∀ w k, I w → I (w.focus k)) (hosts : Nat → L2capHost) (clients : L2capClients) (depth : Nat) (dev : AclOut)
    (ops : List ProcessOp)
    (hok : ∀ k, Sys.History (P k) ((processRun hosts clients depth dev ops).link k).notes) :
    I (processRun hosts clients depth dev ops) :=
  Moves.inv hmove hlook (runs_processRun hosts clients depth dev ops).moves hok (hstart dev)

/-- **A property of one link holds after every run**, as long as the notes of this link are as assumed. -/
theorem part_processRun {P : List L2note → L2note → Prop} {I : L2capPart → Prop} (hnew : I .new)
    (hmove : ∀ {w w' : L2capLink}, Move w w' → Sys.History P w'.notes → I w.part → I w'.part) (hosts : Nat → L2capHost)
    (clients : L2capClients) (depth : Nat) (dev : AclOut) (ops : List ProcessOp) (k : Nat)
    (hok : Sys.History P ((processRun hosts clients depth dev ops).link k).notes) :
    I ((processRun hosts clients depth dev ops).link k) := by
  refine inv_processRun (P := fun j pre n => j = k → P pre n) (I := fun w => I (w.link k)) (fun dev => ?_)
    (fun {w w'} hmoved hnotes hw => ?_) (fun w j hw => ?_) hosts clients depth dev ops (fun j => ?_)
  · rw [link_start]
    exact hnew
  · by_cases hk : k = w.here
    · subst hk
      rw [hmoved.link_here]
      rw [link_here] at hw
      refine hmove hmoved ?_ hw
      have hhere := hnotes w.here
      rw [hmoved.link_here] at hhere
      exact hhere.mono fun _ _ h => h rfl
    · rw [hmoved.link_of_ne hk]
      exact hw
  · rwa [link_focus]
  · intro pre n post hn hj
    subst hj
    exact hok pre n post hn

end Bte
