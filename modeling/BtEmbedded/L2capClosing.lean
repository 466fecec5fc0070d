import BtEmbedded.L2capInvariant
import BtEmbedded.L2capHandshake
import Mathlib.Data.List.Induction
/-!
# L2capClosing — how often a client is told of a disconnection (l2cap.c)

Three functions close a channel and call `disconnect_cb`, and none of them looks whether the channel is closed already: a
repeated Disconnection Request, or a `bte_l2cap_disconnect` of a closed channel, tells the client again.  As long as each
closing but the first finds the channel connected, the client is told at most once for every establishment.
-/
namespace Bte

open Bytes L2capLink

/-! ## What the client is told -/

/-- The channel is connected: from this state on it is configured. -/
def Establishes (p : Nat) : L2event → Prop
  | .state q old new => q = p ∧ new = .waitConfig ∧ old.number < L2capState.waitConfig.number
  | _ => False

/-- The client is told that the channel is disconnected. -/
def ToldOf (p : Nat) : L2event → Prop
  | .callback q (.disconnect _ _ _ _) => q = p
  | _ => False

/-- **The client is told at most once between two establishments.** -/
def ToldOnce (p : Nat) (log : List L2event) : Prop :=
  ∀ a e b e' c, log = a ++ e :: b ++ e' :: c → ToldOf p e → ToldOf p e' → ∃ x ∈ b, Establishes p x

/-- **A channel that was closed leaves CLOSED by a Connection Request of its own**, which it has just sent. -/
def LeavesClosed (before : List L2event) : L2event → Prop
  | .state p .closed new => (∃ old, .state p old .closed ∈ before) →
    new = .waitConnectRsp ∧ ∃ pre id body, before = pre ++ [.emitted (some p) l2capSignalConnReq id body]
  | _ => True

def toldStep (p : Nat) (n : Nat) : L2event → Nat
  | .state q old new =>
    if q = p ∧ new = .waitConfig ∧ old.number < L2capState.waitConfig.number then 0 else n
  | .callback q (.disconnect _ _ _ _) => if q = p then n + 1 else n
  | _ => n

/-- How often the client has been told since the channel was established. -/
def toldSince (p : Nat) (log : List L2event) : Nat := log.foldl (toldStep p) 0

@[simp] theorem toldSince_snoc (p : Nat) (log : List L2event) (e : L2event) :
    toldSince p (log ++ [e]) = toldStep p (toldSince p log) e := by
  simp [toldSince]

theorem toldStep_mild (p n : Nat) {e : L2event} {channels : Nat → L2cap} (h : e.Mild channels) : toldStep p n e = n := by
  cases e with
  | state q old new => exact h.elim
  | callback q c =>
    cases c with
    | disconnect f r reason userdata => exact h.elim
    | _ => rfl
  | _ => rfl


/-- Without an establishment the client has been told at least as often. -/
theorem toldStep_mono (p : Nat) : ∀ (b : List L2event) (n : Nat), (∀ x ∈ b, ¬ Establishes p x) → n ≤ b.foldl (toldStep p) n
  | [], _, _ => le_rfl
  | x :: b, n, hb => by
    have hx : n ≤ toldStep p n x := by
      cases x with
      | state q old new =>
        have hno := hb _ (List.mem_cons_self ..)
        unfold Establishes at hno
        simp only [toldStep, if_neg hno]
        exact le_rfl
      | callback q c =>
        cases c with
        | disconnect f r reason userdata =>
          simp only [toldStep]
          split <;> omega
        | _ => exact le_rfl
      | _ => exact le_rfl
    exact hx.trans (toldStep_mono p b _ fun y hy => hb y (List.mem_cons_of_mem _ hy))

theorem toldStep_tells (p n : Nat) {e : L2event} (h : ToldOf p e) : toldStep p n e = n + 1 := by
  unfold ToldOf at h
  split at h
  · simp [toldStep, h]
  · exact h.elim

/-- If each telling is the first since the channel was established, the client is told once between two establishments. -/
theorem toldOnce_of_history {p : Nat} {log : List L2event}
    (h : Sys.History (fun before e => ToldOf p e → toldSince p before = 0) log) : ToldOnce p log := by
  rintro a e b e' c rfl he he'
  by_contra hno
  have hzero : toldSince p (a ++ e :: b) = 0 := h (a ++ e :: b) e' c rfl he'
  have hmono := toldStep_mono p b (toldStep p (toldSince p a) e) fun x hx hest => hno ⟨x, hx, hest⟩
  rw [toldStep_tells p _ he] at hmono
  rw [toldSince, List.foldl_append, List.foldl_cons] at hzero
  rw [toldSince] at hmono
  rw [toldStep_tells p _ he] at hzero
  omega

/-- The last telling since the channel was established. -/
theorem toldSince_succ {p n : Nat} (log : List L2event) (h : toldSince p log = n + 1) :
    ∃ a e b, log = a ++ e :: b ∧ ToldOf p e ∧ toldSince p a = n ∧ ∀ x ∈ b, ¬ Establishes p x := by
  induction log using List.reverseRecOn with
  | nil => cases h
  | append_singleton log x ih =>
    rw [toldSince_snoc] at h
    have hkept : toldSince p log = n + 1 → ¬ Establishes p x →
        ∃ a e b, log ++ [x] = a ++ e :: b ∧ ToldOf p e ∧ toldSince p a = n ∧ ∀ x ∈ b, ¬ Establishes p x := by
      intro hlog hx
      obtain ⟨a, e, b, rfl, he, ha, hb⟩ := ih hlog
      refine ⟨a, e, b ++ [x], by simp, he, ha, fun y hy => ?_⟩
      exact (List.mem_append.1 hy).elim (hb y) fun hyx => List.mem_singleton.1 hyx ▸ hx
    cases x with
    | state q old new =>
      simp only [toldStep] at h
      split at h
      · cases h
      · rename_i hno
        exact hkept h hno
    | callback q c =>
      cases c with
      | disconnect f r reason userdata =>
        simp only [toldStep] at h
        split at h
        · rename_i hq
          exact ⟨log, _, [], rfl, hq, by omega, by simp⟩
        · exact hkept h id
      | _ => exact hkept h id
    | _ => exact hkept h id

theorem toldSince_le_one {p : Nat} {log : List L2event} (h : ToldOnce p log) : toldSince p log ≤ 1 := by
  by_contra hmany
  obtain ⟨n, hn⟩ := Nat.exists_eq_add_of_le (Nat.lt_of_not_le hmany)
  obtain ⟨a, e, b, rfl, he, ha, -⟩ := @toldSince_succ p (n + 1) log (by omega)
  obtain ⟨a', e', b', rfl, he', -, hb'⟩ := @toldSince_succ p n a ha
  obtain ⟨x, hx, hest⟩ := h a' e' b' e b rfl he' he
  exact hb' x hx hest

/-! ## Closings one after the other -/

def L2note.closes (p : Nat) : L2note → Bool
  | .closing q _ => q == p
  | _ => false

/-- A channel that is closed is connected, or it is closed for the first time. -/
def ClosedInTurn (p : Nat) (before : List L2note) : L2note → Prop
  | .closing q state => q = p → L2capState.waitConfig.number ≤ state.number ∨ ∀ n ∈ before, ¬ n.closes p
  | _ => True

instance decidableClosedInTurn (p : Nat) (before : List L2note) : ∀ n : L2note, Decidable (ClosedInTurn p before n)
  | .closing q state => inferInstanceAs (Decidable (q = p →
      L2capState.waitConfig.number ≤ state.number ∨ ∀ n ∈ before, ¬ n.closes p))
  | .allotted _ _ _ => .isTrue trivial
  | .request _ _ _ _ => .isTrue trivial
  | .response _ _ _ _ _ => .isTrue trivial
  | .restored _ _ => .isTrue trivial
  | .closed _ => .isTrue trivial

theorem closingDepth_zero {p : Nat} {ns : List L2note} (h : ∀ n ∈ ns, n.weight p = 0) : closingDepth p ns = 0 := by
  rw [closingDepth, List.map_congr_left h]
  simp

theorem closingDepth_never {p : Nat} : ∀ {ns : List L2note}, (∀ n ∈ ns, ¬ n.closes p) → closingDepth p ns ≤ 0
  | [], _ => le_rfl
  | n :: ns, h => by
    have hrest := closingDepth_never fun m hm => h m (List.mem_cons_of_mem _ hm)
    have hn : n.weight p ≤ 0 := by
      have hno := h n (List.mem_cons_self ..)
      cases n with
      | closing q state =>
        have hq : ¬ q = p := by simpa [L2note.closes] using hno
        simp [L2note.weight, hq]
      | closed q =>
        simp only [L2note.weight]
        split <;> decide
      | _ => exact le_rfl
    have hcons : closingDepth p (n :: ns) = n.weight p + closingDepth p ns := rfl
    omega

/-- An event that neither tells the client nor establishes the channel. -/
def L2event.Neutral (p : Nat) (e : L2event) : Prop := ¬ ToldOf p e ∧ ∀ n, toldStep p n e = n

theorem L2event.Mild.neutral {e : L2event} {channels : Nat → L2cap} (h : e.Mild channels) (p : Nat) : e.Neutral p := by
  refine ⟨fun ht => ?_, fun n => toldStep_mild p n h⟩
  have htells := toldStep_tells p 0 ht
  rw [toldStep_mild p 0 h] at htells
  cases htells

theorem neutral_state {p q : Nat} {old new : L2capState}
    (h : new = .waitConfig → L2capState.waitConfig.number ≤ old.number ∨ q ≠ p) : (L2event.state q old new).Neutral p := by
  refine ⟨id, fun n => ?_⟩
  simp only [toldStep]
  refine if_neg fun hest => ?_
  exact (h hest.2.1).elim (fun hhigh => absurd hest.2.2 (not_lt.2 hhigh)) fun hq => hq hest.1

theorem toldSince_neutral {p : Nat} {es : List L2event} (log : List L2event) (h : ∀ e ∈ es, e.Neutral p) :
    toldSince p (log ++ es) = toldSince p log := by
  induction es using List.reverseRecOn with
  | nil => rw [List.append_nil]
  | append_singleton es e ih =>
    rw [← List.append_assoc, toldSince_snoc, (h e (by simp)).2]
    exact ih fun e' he' => h e' (by simp [he'])

/-- **What is known of the closings of a channel.** -/
structure ClosingInv (p : Nat) (l : L2capPart) : Prop where
  nonneg : ∀ pre post, l.notes = pre ++ post → 0 ≤ closingDepth p pre
  one : closingDepth p l.notes ≤ 1
  low : 0 < closingDepth p l.notes → (l.channels p).state.number < L2capState.waitConfig.number
  underway : 0 < closingDepth p l.notes → toldSince p l.log = 0
  connected : L2capState.waitConfig.number ≤ (l.channels p).state.number → toldSince p l.log = 0
  never : (∀ n ∈ l.notes, ¬ n.closes p) → toldSince p l.log = 0
  once : Sys.History (fun before e => ToldOf p e → toldSince p before = 0) l.log

theorem ClosingInv.new (p : Nat) : ClosingInv p .new := by
  have hone : closingDepth p [] ≤ 1 := Int.zero_le_ofNat 1
  have hlow : L2capState.closed.number < L2capState.waitConfig.number := by decide
  refine ⟨fun pre post h => ?_, hone, fun _ => hlow, fun _ => rfl, fun _ => rfl, fun _ => rfl, .nil⟩
  obtain ⟨rfl, -⟩ := List.append_eq_nil_iff.1 h.symm
  exact le_rfl

theorem nonneg_append {p : Nat} {notes ns : List L2note} (h : ∀ pre post, notes = pre ++ post → 0 ≤ closingDepth p pre)
    (hns : ∀ pre post, ns = pre ++ post → 0 ≤ closingDepth p (notes ++ pre)) :
    ∀ pre post, notes ++ ns = pre ++ post → 0 ≤ closingDepth p pre := by
  intro pre post heq
  rcases List.append_eq_append_iff.1 heq with ⟨pre', rfl, hpre⟩ | ⟨post', rfl, -⟩
  · exact hns pre' post hpre
  · exact h pre post' rfl

/-- Neither a closing nor a telling of this channel, nor an establishment. -/
theorem ClosingInv.keep {p : Nat} {l l' : L2capPart} (h : ClosingInv p l)
    (hstate : L2capState.waitConfig.number ≤ (l'.channels p).state.number →
      L2capState.waitConfig.number ≤ (l.channels p).state.number)
    {ns : List L2note} (hn : l'.notes = l.notes ++ ns) (hw : ∀ n ∈ ns, n.weight p = 0)
    {s : List L2event} (hl : l'.log = l.log ++ s) (hes : ∀ e ∈ s, e.Neutral p) : ClosingInv p l' := by
  have hdepth : closingDepth p l'.notes = closingDepth p l.notes := by
    rw [hn, closingDepth_append, closingDepth_zero hw, add_zero]
  have htold : toldSince p l'.log = toldSince p l.log := by rw [hl, toldSince_neutral _ hes]
  refine ⟨?_, hdepth ▸ h.one, fun hd => ?_, fun hd => ?_, fun hs => ?_, fun hnever => ?_, ?_⟩
  · rw [hn]
    refine nonneg_append h.nonneg ?_
    rintro pre post rfl
    rw [closingDepth_append, closingDepth_zero fun n hn => hw n (List.mem_append_left _ hn), add_zero]
    exact h.nonneg l.notes [] (List.append_nil _).symm
  · by_contra hhigh
    exact absurd (h.low (hdepth ▸ hd)) (not_lt.2 (hstate (not_lt.1 hhigh)))
  · rw [htold]
    exact h.underway (hdepth ▸ hd)
  · rw [htold]
    exact h.connected (hstate hs)
  · rw [htold]
    refine h.never fun n hmem => hnever n ?_
    rw [hn]
    exact List.mem_append_left _ hmem
  · rw [hl]
    refine h.once.append ?_
    rintro pre e post rfl htells
    exact absurd htells (hes e (by simp)).1

theorem ClosingInv.mild {p : Nat} {w w' : L2capLink} (h : ClosingInv p w.part) (hm : w.Mild w') : ClosingInv p w'.part := by
  obtain ⟨es, hes, hall⟩ := hm.log
  obtain ⟨ns, hns, hmild⟩ := hm.notes
  refine h.keep (fun hs => (hm.state p) ▸ hs) hns (fun n hn => ?_) hes fun e he => (hall e he).neutral p
  have hn' := hmild n hn
  cases n with
  | allotted q id tables => exact hn'.elim
  | closing q state => exact hn'.elim
  | closed q => exact hn'.elim
  | _ => rfl

theorem ClosingInv.alloc {p : Nat} {w : L2capLink} (h : ClosingInv p w.part) (outgoing : Bool) :
    ClosingInv p (w.alloc outgoing).2.part := by
  refine h.keep (fun hs => ?_) (List.append_nil _).symm (by simp) (s := [.created w.allocated outgoing]) rfl fun e he => ?_
  · have hs' : L2capState.waitConfig.number ≤ (Function.update w.channels w.allocated bteL2capNew p).state.number := hs
    by_cases hp : p = w.allocated
    · subst hp
      rw [Function.update_self] at hs'
      exact absurd hs' (by decide)
    · rwa [Function.update_of_ne hp] at hs'
  · rw [List.mem_singleton.1 he]
    exact ⟨id, fun _ => rfl⟩

/-- A channel goes from one state to another, and is not established. -/
theorem ClosingInv.enter {p q : Nat} {s : L2capState} {w : L2capLink} (h : ClosingInv p w.part)
    (hlow : (w.channels q).state.number < L2capState.waitConfig.number → s.number < L2capState.waitConfig.number) :
    ClosingInv p (w.enter q s).part := by
  refine h.keep (fun hs => ?_) (List.append_nil _).symm (by simp) (s := [.state q (w.channels q).state s]) rfl
    fun e he => ?_
  · have hs' : L2capState.waitConfig.number ≤ ((w.enter q s).channels p).state.number := hs
    by_cases hq : p = q
    · subst hq
      have hstate : ((w.enter p s).channels p).state = s := by
        simp [L2capLink.enter, L2capLink.record, L2capLink.modify]
      rw [hstate] at hs'
      exact not_lt.1 fun hlt => absurd (hlow hlt) (not_lt.2 hs')
    · have hstate : ((w.enter q s).channels p).state = (w.channels p).state := by
        simp [L2capLink.enter, L2capLink.record, L2capLink.modify, Function.update_of_ne hq]
      rwa [hstate] at hs'
  · rw [List.mem_singleton.1 he]
    refine neutral_state fun hs => .inl (not_lt.1 fun hlt => ?_)
    subst hs
    exact lt_irrefl _ (hlow hlt)

/-- A channel that is not being closed is established. -/
theorem ClosingInv.establish {p q : Nat} {w : L2capLink} (h : ClosingInv p w.part)
    (hlow : (w.channels q).state.number < L2capState.waitConfig.number) (hdepth : closingDepth q w.notes = 0) :
    ClosingInv p (w.enter q .waitConfig).part := by
  by_cases hq : q = p
  · subst hq
    have hzero : toldSince q (w.enter q .waitConfig).log = 0 := by
      show toldSince q (w.log ++ [.state q (w.channels q).state .waitConfig]) = 0
      rw [toldSince_snoc]
      exact if_pos ⟨rfl, rfl, hlow⟩
    have hnone : closingDepth q (w.enter q .waitConfig).notes = 0 := hdepth
    exact ⟨h.nonneg, h.one, fun hd => absurd hnone (ne_of_gt hd), fun _ => hzero, fun _ => hzero, fun _ => hzero,
      h.once.snoc fun ht => ht.elim⟩
  · have hchannel : ((w.enter q .waitConfig).channels p).state = (w.channels p).state := by
      simp [L2capLink.enter, L2capLink.record, L2capLink.modify, Function.update_of_ne (Ne.symm hq)]
    refine h.keep (fun hs => hchannel ▸ hs) (List.append_nil _).symm (by simp)
      (s := [.state q (w.channels q).state .waitConfig]) rfl fun e he => ?_
    rw [List.mem_singleton.1 he]
    exact neutral_state fun _ => .inr hq

/-- A channel of the peer is established as soon as it is made. -/
theorem ClosingInv.accepted {p : Nat} {w w₁ w₂ : L2capLink} {psm channelId : Nat} (h : ClosingInv p w.part)
    (hnew : bteL2capNewConnected w psm channelId = (some w.allocated, w₁)) (hs : w₁.Still w₂)
    (hdepth : closingDepth w.allocated w.notes = 0) : ClosingInv p (w₂.enter w.allocated .waitConfig).part := by
  obtain ⟨-, i, -, hw₁⟩ := newConnected_some hnew
  have hclosed : (w₁.channels w.allocated).state = .closed := by
    rw [hw₁]
    simp [bteL2capNew]
  have hnotes : ∃ tables, w₁.notes = w.notes ++ [.allotted w.allocated w.nextChannelId.1 tables] := ⟨_, by rw [hw₁]⟩
  obtain ⟨tables, hnotes⟩ := hnotes
  have hmade : ClosingInv p w₁.part := by
    refine h.keep (fun hstate => ?_) hnotes (fun n hn => ?_) (s := [.created w.allocated false]) (by rw [hw₁]; rfl)
      fun e he => ?_
    · have hstate' : L2capState.waitConfig.number ≤ (w₁.channels p).state.number := hstate
      by_cases hp : p = w.allocated
      · rw [hp, hclosed] at hstate'
        exact absurd hstate' (by decide)
      · simp only [hw₁, Function.update_of_ne hp] at hstate'
        exact hstate'
    · rw [List.mem_singleton.1 hn]
      rfl
    · rw [List.mem_singleton.1 he]
      exact ⟨id, fun _ => rfl⟩
  refine (hmade.mild hs.mild).establish ?_ ?_
  · rw [(hs.channels _).state, hclosed]
    decide
  · rw [hs.notes, hnotes, closingDepth_append, hdepth]
    rfl

theorem ClosingInv.close {p q : Nat} {w : L2capLink} (h : ClosingInv p w.part)
    (hok : ClosedInTurn p w.notes (.closing q (w.channels q).state)) : ClosingInv p (w.close q).part := by
  have hnotes : (w.close q).notes = w.notes ++ [.closing q (w.channels q).state] := (close_fields w q).2.2.2.2.2
  obtain ⟨es, hes, hneutral⟩ : ∃ es, (w.close q).log = w.log ++ es ∧ ∀ e ∈ es, e.Neutral p := by
    unfold L2capLink.close
    simp only
    split
    · exact ⟨[], (List.append_nil _).symm, by simp⟩
    · refine ⟨[.state q (w.channels q).state .closed], rfl, fun e he => ?_⟩
      rw [List.mem_singleton.1 he]
      exact neutral_state fun hs => absurd hs (by decide)
  have hclosed : ((w.close q).channels q).state = .closed := by
    unfold L2capLink.close
    simp only
    split
    · rename_i heq
      exact heq.symm
    · simp [L2capLink.enter, L2capLink.record, L2capLink.modify]
  by_cases hq : q = p
  · subst hq
    have hturn : L2capState.waitConfig.number ≤ (w.channels q).state.number ∨ ∀ n ∈ w.notes, ¬ n.closes q := hok rfl
    have hpos : 0 ≤ closingDepth q w.notes := h.nonneg w.notes [] (List.append_nil _).symm
    have hdepth : closingDepth q w.notes = 0 := by
      refine le_antisymm (hturn.elim (fun hhigh => not_lt.1 fun hd => ?_) closingDepth_never) hpos
      exact absurd (h.low hd) (not_lt.2 hhigh)
    have htold : toldSince q (w.close q).log = 0 := by
      rw [hes, toldSince_neutral _ hneutral]
      exact hturn.elim h.connected h.never
    have hone : closingDepth q [.closing q (w.channels q).state] = 1 := by simp [closingDepth, L2note.weight]
    refine ⟨?_, ?_, fun _ => ?_, fun _ => htold, fun _ => htold, fun _ => htold, ?_⟩
    · show ∀ pre post, (w.close q).notes = pre ++ post → 0 ≤ closingDepth q pre
      rw [hnotes]
      refine nonneg_append h.nonneg fun pre post hpre => ?_
      rw [closingDepth_append, hdepth, zero_add]
      cases pre with
      | nil => exact le_rfl
      | cons n pre =>
        obtain ⟨rfl, hnil⟩ := List.cons.inj hpre
        obtain ⟨rfl, -⟩ := List.append_eq_nil_iff.1 hnil.symm
        rw [hone]
        decide
    · show closingDepth q (w.close q).notes ≤ 1
      rw [hnotes, closingDepth_append, hdepth, hone, zero_add]
    · show ((w.close q).channels q).state.number < _
      rw [hclosed]
      decide
    · show Sys.History _ (w.close q).log
      rw [hes]
      refine h.once.append ?_
      rintro pre e post rfl htells
      exact absurd htells (hneutral e (by simp)).1
  · have hchannel : ((w.close q).channels p).state = (w.channels p).state := by
      unfold L2capLink.close
      simp only
      split
      · rfl
      · simp [L2capLink.enter, L2capLink.record, L2capLink.modify, note, Function.update_of_ne (Ne.symm hq)]
    refine h.keep (fun hs => hchannel ▸ hs) hnotes (fun n hn => ?_) hes hneutral
    rw [List.mem_singleton.1 hn]
    exact if_neg hq

theorem ClosingInv.told {p q : Nat} {w : L2capLink} (h : ClosingInv p w.part) (hopen : ClosingOpen q w.notes)
    (reason : Nat) : ClosingInv p (w.told q reason).part := by
  obtain ⟨-, -, hchannels, -, -, hnotes⟩ := told_fields w q reason
  obtain ⟨es, hes, hlen, htells⟩ := told_log w q reason
  by_cases hq : q = p
  · subst hq
    obtain ⟨pre, state, post, hsplit, hpost⟩ := hopen
    have hdepth : closingDepth q w.notes = closingDepth q pre + 1 := by
      have hcons : closingDepth q (.closing q state :: post) =
          L2note.weight q (.closing q state) + closingDepth q post := rfl
      rw [hsplit, closingDepth_append, hcons, hpost]
      simp [L2note.weight]
    have hpre : 0 ≤ closingDepth q pre := h.nonneg pre _ hsplit
    have hd : 0 < closingDepth q w.notes := by omega
    have hone : closingDepth q w.notes ≤ 1 := h.one
    have hdone : closingDepth q (w.told q reason).notes = 0 := by
      have hclosed : closingDepth q [.closed q] = -1 := by simp [closingDepth, L2note.weight]
      rw [hnotes, closingDepth_append, hclosed]
      omega
    have hlow : ((w.told q reason).channels q).state.number < L2capState.waitConfig.number := by
      rw [hchannels]
      exact h.low hd
    have hnever : ¬ ∀ n ∈ (w.told q reason).notes, ¬ n.closes q := by
      intro hno
      refine hno (.closing q state) ?_ (by simp [L2note.closes])
      rw [hnotes, hsplit]
      simp
    refine ⟨?_, ?_, fun hd' => ?_, fun hd' => ?_, fun hs => absurd hlow (not_lt.2 hs), fun hno => absurd hno hnever, ?_⟩
    · show ∀ pre post, (w.told q reason).notes = pre ++ post → 0 ≤ closingDepth q pre
      rw [hnotes]
      refine nonneg_append h.nonneg fun pre' post' hpre' => ?_
      cases pre' with
      | nil =>
        rw [List.append_nil]
        exact hd.le
      | cons n pre' =>
        obtain ⟨rfl, hnil⟩ := List.cons.inj hpre'
        obtain ⟨rfl, -⟩ := List.append_eq_nil_iff.1 hnil.symm
        rw [← hnotes, hdone]
    · show closingDepth q (w.told q reason).notes ≤ 1
      rw [hdone]
      decide
    · exact absurd hdone (ne_of_gt hd')
    · exact absurd hdone (ne_of_gt hd')
    · show Sys.History _ (w.told q reason).log
      rw [hes]
      refine h.once.append ?_
      rintro pre e post rfl -
      -- there is at most one, so none comes before it
      obtain rfl : pre = [] := by
        simp only [List.length_append, List.length_cons] at hlen
        exact List.length_eq_zero_iff.1 (by omega)
      rw [List.append_nil]
      exact h.underway hd
  · refine h.keep (fun hs => ?_) hnotes (fun n hn => ?_) hes fun e he => ?_
    · have hhigh : L2capState.waitConfig.number ≤ ((w.told q reason).channels p).state.number := hs
      rwa [hchannels] at hhigh
    · rw [List.mem_singleton.1 hn]
      exact if_neg hq
    · obtain ⟨f, userdata, rfl⟩ := htells e he
      exact ⟨hq, fun n => if_neg hq⟩

/-- **A move keeps what is known of the closings**, if it closes in turn. -/
theorem ClosingInv.move {p : Nat} {w w' : L2capLink} (h : ClosingInv p w.part) (hm : Move w w')
    (hok : Sys.History (ClosedInTurn p) w'.notes) : ClosingInv p w'.part := by
  cases hm with
  | still hs => exact h.mild hs.mild
  | left q => exact h.keep id (List.append_nil _).symm (by simp) (List.append_nil _).symm (by simp)
  | alloc outgoing => exact h.alloc outgoing
  | joined hadd =>
    obtain ⟨i, -, rfl⟩ := addClient_cases hadd
    have halloc : ClosingInv p (w.alloc true).2.part := h.alloc true
    exact halloc.keep id (List.append_nil _).symm (by simp) (List.append_nil _).symm (by simp)
  | accepted hnew hs hdepth => exact h.accepted hnew hs hdepth
  | established hstate hdepth =>
    refine h.establish ?_ hdepth
    rw [hstate]
    decide
  | entered hopen hlow => exact h.enter hlow
  | @allotted q ht =>
    have hsame := state_allot w.nextChannelId.2 q w.nextChannelId.1 p
    refine h.keep (fun hstate => ?_) rfl (fun n hn => ?_) (List.append_nil _).symm (by simp)
    · exact hsame ▸ hstate
    · rw [List.mem_singleton.1 hn]
      rfl
  | asked heven hid => exact h.mild (mild_asked w hid _ _ _)
  | connecting ht hid => exact (h.mild (mild_asked w (fun _ => hid) _ _ _)).enter fun _ => by decide
  | packets hp => exact h.mild (mild_packets hp)
  | ignored reader len hnone => exact h.mild (mild_note w trivial)
  | answered reader len hsome => exact h.mild (mild_answered w _ _ _ reader len)
  | restored hrefused => exact h.mild (mild_restored w _)
  | closing q =>
    refine h.close ?_
    rw [(close_fields w q).2.2.2.2.2] at hok
    exact hok.last
  | told hopen => exact h.told hopen _
  | reset => exact h.keep id (List.append_nil _).symm (by simp) (List.append_nil _).symm (by simp)

/-! ## Leaving CLOSED -/

/-- A channel that is not there yet is closed, and nothing has happened to it. -/
structure PlacedInv (l : L2capPart) : Prop where
  tabled : ∀ i p, l.clients i = some p → p < l.allocated
  fresh : ∀ p, l.allocated ≤ p → (l.channels p).state = .closed
  logged : ∀ p old new, .state p old new ∈ l.log → p < l.allocated
  leaves : Sys.History LeavesClosed l.log

theorem PlacedInv.new : PlacedInv .new :=
  ⟨fun _ _ h => (by cases h), fun _ _ => rfl, fun _ _ _ h => (by cases h), .nil⟩

/-- An event that is not a new state. -/
def L2event.Stateless : L2event → Prop
  | .state _ _ _ => False
  | _ => True

theorem L2event.Mild.stateless {e : L2event} {channels : Nat → L2cap} (h : e.Mild channels) : e.Stateless := by
  cases e with
  | state p old new => exact h
  | _ => trivial

theorem leavesClosed_stateless {e : L2event} (h : e.Stateless) (before : List L2event) : LeavesClosed before e := by
  cases e with
  | state p old new => exact h.elim
  | _ => trivial

/-- No state is entered. -/
theorem PlacedInv.keep {l l' : L2capPart} (h : PlacedInv l) (hc : ∀ i p, l'.clients i = some p → p < l'.allocated)
    (hs : ∀ p, l'.allocated ≤ p → (l'.channels p).state = .closed) (ha : l.allocated ≤ l'.allocated)
    {s : List L2event} (hl : l'.log = l.log ++ s) (hes : ∀ e ∈ s, e.Stateless) : PlacedInv l' := by
  refine ⟨hc, hs, fun p old new hmem => ?_, ?_⟩
  · rw [hl] at hmem
    refine (List.mem_append.1 hmem).elim (fun hold => (h.logged p old new hold).trans_le ha) fun hnew => ?_
    exact (hes _ hnew).elim
  · rw [hl]
    refine h.leaves.append ?_
    rintro pre e post rfl
    exact leavesClosed_stateless (hes e (by simp)) _

theorem PlacedInv.mild {w w' : L2capLink} (h : PlacedInv w.part) (hm : w.Mild w') : PlacedInv w'.part := by
  obtain ⟨es, hes, hall⟩ := hm.log
  refine h.keep (fun i p hi => ?_) (fun p hp => ?_) hm.allocated.ge hes fun e he => (hall e he).stateless
  · have hi' : w.clients i = some p := hm.clients ▸ hi
    exact (h.tabled i p hi').trans_eq hm.allocated.symm
  · have hp' : w.allocated ≤ p := hm.allocated ▸ hp
    exact (hm.state p).trans (h.fresh p hp')

theorem PlacedInv.alloc {w : L2capLink} (h : PlacedInv w.part) (outgoing : Bool) : PlacedInv (w.alloc outgoing).2.part := by
  refine h.keep (fun i p hi => Nat.lt_succ_of_lt (h.tabled i p hi)) (fun p hp => ?_) (Nat.le_succ _)
    (s := [.created w.allocated outgoing]) rfl fun e he => ?_
  · have hp' : w.allocated + 1 ≤ p := hp
    show (Function.update w.channels w.allocated bteL2capNew p).state = .closed
    rw [Function.update_of_ne (by omega)]
    exact h.fresh p (Nat.le_of_succ_le hp')
  · rw [List.mem_singleton.1 he]
    trivial

theorem PlacedInv.enter {p : Nat} {s : L2capState} {w : L2capLink} (h : PlacedInv w.part) (hp : p < w.allocated)
    (hleaves : LeavesClosed w.log (.state p (w.channels p).state s)) : PlacedInv (w.enter p s).part := by
  refine ⟨h.tabled, fun q hq => ?_, fun q old new hmem => ?_, h.leaves.snoc hleaves⟩
  · have hne : q ≠ p := fun hqp => absurd hp (not_lt.2 (hqp ▸ hq))
    have hsame : ((w.enter p s).channels q).state = (w.channels q).state := by
      simp [L2capLink.enter, L2capLink.record, L2capLink.modify, Function.update_of_ne hne]
    exact hsame.trans (h.fresh q hq)
  · refine (List.mem_append.1 hmem).elim (h.logged q old new) fun hnew => ?_
    cases List.mem_singleton.1 hnew
    exact hp

/-- A channel that has left CLOSED is there. -/
theorem PlacedInv.there {p : Nat} {l : L2capPart} (h : PlacedInv l) (hs : (l.channels p).state ≠ .closed) :
    p < l.allocated := not_le.1 fun hp => hs (h.fresh p hp)

theorem leavesClosed_open {p : Nat} {old new : L2capState} (h : old ≠ .closed) (before : List L2event) :
    LeavesClosed before (.state p old new) := by
  unfold LeavesClosed
  split
  · rename_i heq
    cases heq
    exact absurd rfl h
  · trivial

theorem leavesClosed_connecting (p id : Nat) (body : List UInt8) (old : L2capState) (log : List L2event) :
    LeavesClosed (log ++ [.emitted (some p) l2capSignalConnReq id body]) (.state p old .waitConnectRsp) := by
  cases old with
  | closed => exact fun _ => ⟨rfl, log, id, body, rfl⟩
  | _ => trivial

theorem PlacedInv.accepted {w w₁ w₂ : L2capLink} {psm channelId : Nat} (h : PlacedInv w.part)
    (hnew : bteL2capNewConnected w psm channelId = (some w.allocated, w₁)) (hs : w₁.Still w₂) :
    PlacedInv (w₂.enter w.allocated .waitConfig).part := by
  obtain ⟨-, i, -, hw₁⟩ := newConnected_some hnew
  have hmade : PlacedInv w₁.part := by
    refine h.keep (fun j p hj => ?_) (fun p hp => ?_) ?_ (s := [.created w.allocated false]) (by rw [hw₁]; rfl)
      fun e he => ?_
    · rw [hw₁] at hj ⊢
      have hj' : Function.update w.clients i (some w.allocated) j = some p := hj
      show p < w.allocated + 1
      by_cases hji : j = i
      · rw [hji, Function.update_self] at hj'
        cases hj'
        exact Nat.lt_succ_self _
      · rw [Function.update_of_ne hji] at hj'
        exact Nat.lt_succ_of_lt (h.tabled j p hj')
    · rw [hw₁] at hp ⊢
      have hp' : w.allocated + 1 ≤ p := hp
      have hne : p ≠ w.allocated := by omega
      show (Function.update w.channels w.allocated _ p).state = .closed
      rw [Function.update_of_ne hne]
      exact h.fresh p (Nat.le_of_succ_le hp')
    · rw [hw₁]
      exact Nat.le_succ _
    · rw [List.mem_singleton.1 he]
      trivial
  refine (hmade.mild hs.mild).enter ?_ ?_
  · rw [hs.allocated, hw₁]
    exact Nat.lt_succ_self _
  · rw [(hs.channels _).state, hw₁]
    simp only [Function.update_self, bteL2capNew]
    rintro ⟨old, hold⟩
    obtain ⟨es, hes, hall⟩ := hs.mild.log
    rw [hes, hw₁] at hold
    have hgone : L2event.state w.allocated old .closed ∈ w.log ∨ False := by
      simp only [List.mem_append, List.mem_singleton, reduceCtorEq, or_false] at hold
      refine hold.imp id fun hnew => ?_
      have hno : (L2event.state w.allocated old .closed).Stateless := (hall _ hnew).stateless
      exact hno
    exact absurd (h.logged _ _ _ (hgone.resolve_right id)) (lt_irrefl _)

theorem PlacedInv.close {p : Nat} {w : L2capLink} (h : PlacedInv w.part) : PlacedInv (w.close p).part := by
  have hnoted : PlacedInv (w.note (.closing p (w.channels p).state)).part := ⟨h.tabled, h.fresh, h.logged, h.leaves⟩
  unfold L2capLink.close
  simp only
  split
  · exact hnoted
  · rename_i hne
    exact hnoted.enter (h.there (Ne.symm hne)) (leavesClosed_open (Ne.symm hne) _)

/-- **A move keeps to the table, and a closed channel closed** but for the Connection Request. -/
theorem PlacedInv.move {w w' : L2capLink} (h : PlacedInv w.part) (hm : Move w w') : PlacedInv w'.part := by
  cases hm with
  | still hs => exact h.mild hs.mild
  | left q =>
    refine h.keep (fun i p hi => ?_) h.fresh le_rfl (List.append_nil _).symm (by simp)
    have hi' : (if w.clients i = some q then none else w.clients i) = some p := hi
    split at hi'
    · cases hi'
    · exact h.tabled i p hi'
  | alloc outgoing => exact h.alloc outgoing
  | joined hadd =>
    obtain ⟨i, -, rfl⟩ := addClient_cases hadd
    have halloc : PlacedInv (w.alloc true).2.part := h.alloc true
    refine halloc.keep (fun j p hj => ?_) halloc.fresh le_rfl (List.append_nil _).symm (by simp)
    have hj' : Function.update w.clients i (some w.allocated) j = some p := hj
    show p < w.allocated + 1
    by_cases hji : j = i
    · rw [hji, Function.update_self] at hj'
      cases hj'
      exact Nat.lt_succ_self _
    · rw [Function.update_of_ne hji] at hj'
      exact Nat.lt_succ_of_lt (h.tabled j p hj')
  | accepted hnew hs hdepth => exact h.accepted hnew hs
  | @established p hstate hdepth =>
    have hopen : (w.channels p).state ≠ .closed := by
      rw [hstate]
      decide
    exact h.enter (h.there hopen) (leavesClosed_open hopen _)
  | entered hopen hlow => exact h.enter (h.there hopen) (leavesClosed_open hopen _)
  | @allotted q ht =>
    refine h.keep h.tabled (fun p hp => ?_) le_rfl (List.append_nil _).symm (by simp)
    exact (state_allot w.nextChannelId.2 q w.nextChannelId.1 p).trans (h.fresh p hp)
  | asked heven hid => exact h.mild (mild_asked w hid _ _ _)
  | connecting ht hid =>
    obtain ⟨i, hi⟩ := ht
    exact (h.mild (mild_asked w (fun _ => hid) _ _ _)).enter (h.tabled i _ hi) (leavesClosed_connecting _ _ _ _ _)
  | packets hp => exact h.mild (mild_packets hp)
  | ignored reader len hnone => exact h.mild (mild_note w trivial)
  | answered reader len hsome => exact h.mild (mild_answered w _ _ _ reader len)
  | restored hrefused => exact h.mild (mild_restored w _)
  | closing q => exact h.close
  | @told p reason hopen =>
    obtain ⟨-, -, hchannels, hallocated, hclients, -⟩ := told_fields w p reason
    obtain ⟨es, hes, -, hall⟩ := told_log w p reason
    refine h.keep (fun i q hi => ?_) (fun q hq => ?_) hallocated.ge hes fun e he => ?_
    · have hi' : w.clients i = some q := hclients ▸ hi
      exact (h.tabled i q hi').trans_eq hallocated.symm
    · have hq' : w.allocated ≤ q := hallocated ▸ hq
      exact (congrArg (fun c => (c q).state) hchannels).trans (h.fresh q hq')
    · obtain ⟨f, userdata, rfl⟩ := hall e he
      trivial
  | reset => exact h.keep h.tabled h.fresh le_rfl (List.append_nil _).symm (by simp)

/-! ## Every run -/

/-- **In every run in which a channel is closed in turn, its client is told once for every establishment; and in every run
a closed channel leaves CLOSED only by connecting again.**  The three functions that close a channel do not look at its
state, so that a run may close it again and again. -/
theorem disconnected_once (hosts : Nat → L2capHost) (clients : L2capClients) (depth : Nat) (dev : AclOut)
    (ops : List ProcessOp) (k p : Nat) :
    (Sys.History (ClosedInTurn p) ((processRun hosts clients depth dev ops).link k).notes →
      ToldOnce p ((processRun hosts clients depth dev ops).link k).log) ∧
    Sys.History LeavesClosed ((processRun hosts clients depth dev ops).link k).log := by
  constructor
  · intro hok
    have hinv := part_processRun (ClosingInv.new p) (fun hm hnotes h => h.move hm hnotes) hosts clients depth dev ops k hok
    exact toldOnce_of_history hinv.once
  · have htrue : Sys.History (fun _ _ => True) ((processRun hosts clients depth dev ops).link k).notes :=
      fun _ _ _ _ => trivial
    exact (part_processRun PlacedInv.new (fun hm _ h => h.move hm) hosts clients depth dev ops k htrue).leaves

/-- A client that keeps the channels it is given, and wants to know when they are closed. -/
def watchingClient : L2capClients := fun k c _ =>
  match c with
  | .serverConnected _ p => [(k, .ref p), (k, .on p .disconnected (some 7))]
  | _ => []

def peerDisconnects : BufferReader :=
  signallingReader (signal l2capSignalDisconnReq 2 (leBytes 2 0x40 ++ leBytes 2 0x50))

/-- A channel is connected and disconnected; the peer may repeat its Disconnection Request. -/
def disconnectedRun (repeated : Nat) : L2capLink :=
  processRun (fun _ => plainHost) watchingClient 2 (freeDev 8)
    (.received 0 (signallingReader (signal l2capSignalConnReq 1 (leBytes 2 0x1001 ++ leBytes 2 0x50))) ::
      .received 0 peerDisconnects :: List.replicate repeated (.received 0 peerDisconnects))

theorem disconnected_once_plain : ToldOnce 0 ((disconnectedRun 0).link 0).log ∧
    toldSince 0 ((disconnectedRun 0).link 0).log = 1 := by
  have hturn : Sys.History (ClosedInTurn 0) ((disconnectedRun 0).link 0).notes := by decide
  exact ⟨(disconnected_once (fun _ => plainHost) watchingClient 2 (freeDev 8) _ 0 0).1 hturn, by decide⟩

/-- A repeated Disconnection Request tells the client again. -/
theorem disconnected_twice : ¬ ToldOnce 0 ((disconnectedRun 1).link 0).log := by
  intro h
  have htwice : toldSince 0 ((disconnectedRun 1).link 0).log = 2 := by decide
  have hone := toldSince_le_one h
  omega

end Bte
