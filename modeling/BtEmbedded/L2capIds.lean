import BtEmbedded.L2capInvariant
import BtEmbedded.L2capHandshake
/-!
# L2capIds — the local channel ids of a process (l2cap.c)

The ids come from one 16-bit counter that never looks at the tables, so that it hands out an id again when it has come
round.  A channel is in the table before it has an id: until then `l2cap_for_local_channel` finds it under id 0, which is
no id at all.
-/
namespace Bte

open Bytes L2capLink

/-! ## Channels with an id -/

/-- Channel `p` sent a Connection Request, or answered one of the peer. -/
def Connected (p : Nat) (log : List L2event) : Prop :=
  (∃ id body, .emitted (some p) l2capSignalConnReq id body ∈ log) ∨ .created p false ∈ log

/-- Channel `p` was given a local id. -/
def Given (p : Nat) (notes : List L2note) : Prop := ∃ id tables, .allotted p id tables ∈ notes

/-- An id is handed out on link `k` that no other channel of any table holds. -/
def AllottedFree (k : Nat) (_ : List L2note) : L2note → Prop
  | .allotted p id tables => ∀ j, ∀ e ∈ tables j, e.2.localChannelId = id → j = k ∧ e.1 = p
  | _ => True

/-- **The connected channels of all tables have different ids.** -/
def IdsUnique (w : L2capLink) : Prop :=
  ∀ j p k q, (w.link j).Has p → (w.link k).Has q → Connected p (w.link j).log → Connected q (w.link k).log →
    ((w.link j).channels p).localChannelId = ((w.link k).channels q).localChannelId → j = k ∧ p = q

/-- **They are in the range of the dynamic ids.** -/
def IdsDynamic (w : L2capLink) : Prop :=
  ∀ k p, (w.link k).Has p → Connected p (w.link k).log → 0x0040 ≤ ((w.link k).channels p).localChannelId

/-- **A channel that is found by an id was given one.** -/
def FoundGiven (w : L2capLink) (id : Nat) : Prop :=
  ∀ p, w.l2capForLocalChannel id = some p → Given p w.notes

/-! ## One link -/

/-- An event that makes no channel, and no Connection Request without an id. -/
def L2event.Numbered (channels : Nat → L2cap) : L2event → Prop
  | .created _ _ => False
  | .emitted (some p) code _ _ => code = l2capSignalConnReq → (channels p).localChannelId ≠ 0
  | _ => True

theorem L2event.Mild.numbered {e : L2event} {channels : Nat → L2cap} (h : e.Mild channels) : e.Numbered channels := by
  cases e with
  | created p outgoing => exact h.elim
  | emitted p code id body =>
    cases p with
    | none => trivial
    | some p => exact h
  | _ => trivial

def L2note.Unallotted : L2note → Prop
  | .allotted _ _ _ => False
  | _ => True

/-- **What is known of the ids of a link.** -/
structure IdInv (l : L2capPart) : Prop where
  tabled : ∀ p, l.Has p → p < l.allocated
  fresh : ∀ p, l.allocated ≤ p → (l.channels p).localChannelId = 0
  dynamic : ∀ p, (l.channels p).localChannelId = 0 ∨ 0x0040 ≤ (l.channels p).localChannelId
  given : ∀ p, (l.channels p).localChannelId ≠ 0 ↔ Given p l.notes
  asked : ∀ p id body, .emitted (some p) l2capSignalConnReq id body ∈ l.log → (l.channels p).localChannelId ≠ 0
  answered : ∀ p, .created p false ∈ l.log → l.Has p → (l.channels p).localChannelId ≠ 0
  created : ∀ p outgoing, .created p outgoing ∈ l.log → p < l.allocated

theorem IdInv.new : IdInv .new where
  tabled := fun p ⟨i, hi⟩ => by cases hi
  fresh := fun _ _ => rfl
  dynamic := fun _ => .inl rfl
  given := fun p => ⟨fun h => absurd rfl h, fun ⟨_, _, h⟩ => by cases h⟩
  asked := fun _ _ _ h => by cases h
  answered := fun _ h => by cases h
  created := fun _ _ h => by cases h

/-- No channel is made, and none is given an id. -/
theorem IdInv.keep {l l' : L2capPart} (h : IdInv l)
    (hi : ∀ p, (l'.channels p).localChannelId = (l.channels p).localChannelId) (ha : l'.allocated = l.allocated)
    (hc : ∀ p, l'.Has p → l.Has p) {s : List L2event} (hl : l'.log = l.log ++ s) (hes : ∀ e ∈ s, e.Numbered l.channels)
    {m : List L2note} (hn : l'.notes = l.notes ++ m) (hns : ∀ n ∈ m, n.Unallotted) : IdInv l' where
  tabled := fun p hp => (h.tabled p (hc p hp)).trans_eq ha.symm
  fresh := fun p hp => (hi p).trans (h.fresh p (ha ▸ hp))
  dynamic := fun p => by
    rw [hi]
    exact h.dynamic p
  given := fun p => by
    rw [hi, h.given p]
    refine ⟨fun ⟨id, tables, hmem⟩ => ⟨id, tables, ?_⟩, fun ⟨id, tables, hmem⟩ => ⟨id, tables, ?_⟩⟩
    · rw [hn]
      exact List.mem_append_left _ hmem
    · rw [hn] at hmem
      exact (List.mem_append.1 hmem).resolve_right fun hnew => hns _ hnew
  asked := fun p id body hmem => by
    rw [hi]
    rw [hl] at hmem
    exact (List.mem_append.1 hmem).elim (h.asked p id body) fun hnew => hes _ hnew rfl
  answered := fun p hmem hp => by
    rw [hi]
    rw [hl] at hmem
    exact (List.mem_append.1 hmem).elim (fun hold => h.answered p hold (hc p hp)) fun hnew => (hes _ hnew).elim
  created := fun p outgoing hmem => by
    rw [ha]
    rw [hl] at hmem
    exact (List.mem_append.1 hmem).elim (h.created p outgoing) fun hnew => (hes _ hnew).elim

theorem IdInv.mild {w w' : L2capLink} (h : IdInv w.part) (hm : w.Mild w') : IdInv w'.part := by
  obtain ⟨es, hes, hall⟩ := hm.log
  obtain ⟨ns, hns, hmild⟩ := hm.notes
  refine h.keep hm.localChannelId hm.allocated (fun p hp => ?_) hes (fun e he => (hall e he).numbered) hns fun n hn => ?_
  · obtain ⟨i, hi⟩ := hp
    exact ⟨i, (congrFun hm.clients i).symm.trans hi⟩
  · have hn' := hmild n hn
    cases n with
    | allotted p id tables => exact hn'.elim
    | _ => trivial

theorem IdInv.enter {w : L2capLink} (h : IdInv w.part) (p : Nat) (s : L2capState) : IdInv (w.enter p s).part := by
  refine h.keep (localChannelId_enter w p s) rfl (fun q hq => hq) (s := [.state p (w.channels p).state s]) rfl
    (fun e he => ?_) (List.append_nil _).symm (by simp)
  rw [List.mem_singleton.1 he]
  trivial

/-- A channel is made, and has no id yet. -/
theorem IdInv.alloc {w : L2capLink} (h : IdInv w.part) (outgoing : Bool) : IdInv (w.alloc outgoing).2.part := by
  have hnone : ¬ Given w.allocated w.notes := fun hgiven => (h.given _).2 hgiven (h.fresh _ le_rfl)
  have hchannel : ∀ p, ((w.alloc outgoing).2.channels p).localChannelId = (w.channels p).localChannelId := by
    intro p
    by_cases hp : p = w.allocated
    · subst hp
      show (Function.update w.channels w.allocated bteL2capNew w.allocated).localChannelId = _
      rw [Function.update_self]
      exact (h.fresh _ le_rfl).symm
    · show (Function.update w.channels w.allocated bteL2capNew p).localChannelId = _
      rw [Function.update_of_ne hp]
  refine ⟨fun p hp => Nat.lt_succ_of_lt (h.tabled p hp), fun p hp => ?_, fun p => ?_, fun p => ?_, fun p id body hmem => ?_,
    fun p hmem hp => ?_, fun p outgoing' hmem => ?_⟩
  · exact (hchannel p).trans (h.fresh p (Nat.le_of_succ_le hp))
  · show ((w.alloc outgoing).2.channels p).localChannelId = 0 ∨ 0x0040 ≤ ((w.alloc outgoing).2.channels p).localChannelId
    rw [hchannel]
    exact h.dynamic p
  · show ((w.alloc outgoing).2.channels p).localChannelId ≠ 0 ↔ _
    rw [hchannel]
    exact h.given p
  · refine (hchannel p).symm ▸ h.asked p id body ?_
    exact (List.mem_append.1 hmem).elim (fun hold => hold) fun hnew => by simp at hnew
  · refine (hchannel p).symm ▸ h.answered p ?_ hp
    refine (List.mem_append.1 hmem).elim (fun hold => hold) fun hnew => ?_
    cases List.mem_singleton.1 hnew
    exact absurd (h.tabled _ hp) (lt_irrefl _)
  · refine (List.mem_append.1 hmem).elim (fun hold => Nat.lt_succ_of_lt (h.created p outgoing' hold)) fun hnew => ?_
    cases List.mem_singleton.1 hnew
    exact Nat.lt_succ_self _

/-- A channel of ours joins the table, and waits for its id. -/
theorem IdInv.joined {w w' : L2capLink} (h : IdInv w.part)
    (hadd : aclL2capAddClient (w.alloc true).2 w.allocated = some w') : IdInv w'.part := by
  obtain ⟨i, -, rfl⟩ := addClient_cases hadd
  have halloc : IdInv (w.alloc true).2.part := h.alloc true
  refine { halloc with tabled := fun p hp => ?_, answered := fun p hmem hp => ?_ }
  · exact (has_update rfl hp).elim (fun heq => heq.trans_lt (Nat.lt_succ_self _)) (halloc.tabled p)
  · refine (has_update rfl hp).elim (fun heq => ?_) fun hold => halloc.answered p hmem hold
    have hmem' : L2event.created w.allocated false ∈ w.log := by
      refine (List.mem_append.1 (heq ▸ hmem)).resolve_right fun hnew => ?_
      simp at hnew
    exact absurd (h.created _ _ hmem') (lt_irrefl _)

/-- The counter is in the range of the dynamic ids, or about to start there again. -/
def L2capLink.Counting (w : L2capLink) : Prop :=
  w.nextLocalChannelId = 0 ∨ 0x0040 ≤ w.nextLocalChannelId ∧ w.nextLocalChannelId < 65536

theorem L2capLink.Counting.congr {w w' : L2capLink} (h : w.Counting) (hn : w'.nextLocalChannelId = w.nextLocalChannelId) :
    w'.Counting := by
  unfold L2capLink.Counting at h ⊢
  rwa [hn]

theorem L2capLink.Counting.reset {w : L2capLink} (h : w.nextLocalChannelId = 0x0040) : w.Counting := by
  refine .inr ?_
  rw [h]
  exact ⟨le_rfl, by decide⟩

theorem L2capLink.Counting.next {w : L2capLink} (h : w.Counting) : 0x0040 ≤ w.nextChannelId.1 ∧
    w.nextChannelId.2.Counting := by
  unfold L2capLink.Counting at h ⊢
  simp only [nextChannelId]
  split
  · exact ⟨le_rfl, .inr ⟨by decide, by decide⟩⟩
  · rename_i hne
    have hrange := h.resolve_left hne
    refine ⟨hrange.1, ?_⟩
    show (w.nextLocalChannelId + 1) % 65536 = 0 ∨ _ ≤ (w.nextLocalChannelId + 1) % 65536 ∧
      (w.nextLocalChannelId + 1) % 65536 < _
    omega

theorem given_snoc {p q id : Nat} {tables : Nat → L2capTable} {notes : List L2note} :
    Given p (notes ++ [.allotted q id tables]) ↔ p = q ∨ Given p notes := by
  constructor
  · rintro ⟨id', tables', hmem⟩
    refine (List.mem_append.1 hmem).elim (fun hold => .inr ⟨_, _, hold⟩) fun hnew => ?_
    cases List.mem_singleton.1 hnew
    exact .inl rfl
  · rintro (rfl | ⟨id', tables', hmem⟩)
    · exact ⟨id, tables, by simp⟩
    · exact ⟨id', tables', List.mem_append_left _ hmem⟩

theorem IdInv.allot {w : L2capLink} {p id : Nat} (h : IdInv w.part) (ht : w.Tabled p) (hid : 0x0040 ≤ id) :
    IdInv (w.allot p id).part := by
  have hp : p < w.allocated := h.tabled p ht
  have hself : ((w.allot p id).channels p).localChannelId = id := localChannelId_allot w p id
  have hother : ∀ q, q ≠ p → ((w.allot p id).channels q).localChannelId = (w.channels q).localChannelId := by
    intro q hq
    simp [L2capLink.allot, L2capLink.modify, note, Function.update_of_ne hq]
  have hnonzero : ∀ q, (w.channels q).localChannelId ≠ 0 → ((w.allot p id).channels q).localChannelId ≠ 0 := by
    intro q hq
    by_cases hqp : q = p
    · rw [hqp, hself]
      omega
    · rwa [hother q hqp]
  refine ⟨h.tabled, fun q hq => ?_, fun q => ?_, fun q => ?_, fun q id' body hmem => hnonzero q (h.asked q id' body hmem),
    fun q hmem hq => hnonzero q (h.answered q hmem hq), h.created⟩
  · have hqp : q ≠ p := fun heq => absurd hp (not_lt.2 (heq ▸ hq))
    exact (hother q hqp).trans (h.fresh q hq)
  · show ((w.allot p id).channels q).localChannelId = 0 ∨ 0x0040 ≤ ((w.allot p id).channels q).localChannelId
    by_cases hqp : q = p
    · rw [hqp, hself]
      exact .inr hid
    · rw [hother q hqp]
      exact h.dynamic q
  · show ((w.allot p id).channels q).localChannelId ≠ 0 ↔ Given q (w.notes ++ [.allotted p id w.tables])
    rw [given_snoc]
    by_cases hqp : q = p
    · rw [hqp, hself]
      exact iff_of_true (by omega) (.inl rfl)
    · rw [hother q hqp]
      exact (h.given q).trans ⟨.inr, fun hg => hg.resolve_left hqp⟩

theorem IdInv.accepted {w w₁ w₂ : L2capLink} {psm channelId : Nat} (h : IdInv w.part) (hcount : w.Counting)
    (hnew : bteL2capNewConnected w psm channelId = (some w.allocated, w₁)) (hs : w₁.Still w₂) :
    IdInv (w₂.enter w.allocated .waitConfig).part := by
  obtain ⟨-, i, -, hw₁⟩ := newConnected_some hnew
  have hid := (Counting.next hcount).1
  have hself : (w₁.channels w.allocated).localChannelId = w.nextChannelId.1 := by
    rw [hw₁]
    simp
  have hother : ∀ q, q ≠ w.allocated → (w₁.channels q).localChannelId = (w.channels q).localChannelId := by
    intro q hq
    rw [hw₁]
    simp [Function.update_of_ne hq]
  have hlog : w₁.log = w.log ++ [.created w.allocated false] := by rw [hw₁]
  have hclients : w₁.part.clients = Function.update w.clients i (some w.allocated) := by
    rw [hw₁]
    rfl
  have hallocated : w₁.allocated = w.allocated + 1 := by rw [hw₁]
  obtain ⟨tables, hnotes⟩ : ∃ tables, w₁.notes = w.notes ++ [.allotted w.allocated w.nextChannelId.1 tables] :=
    ⟨_, by rw [hw₁]⟩
  have hne : ∀ q, q < w.allocated → q ≠ w.allocated := fun q hq => hq.ne
  have hmade : IdInv w₁.part := by
    refine ⟨fun q hq => ?_, fun q hq => ?_, fun q => ?_, fun q => ?_, fun q id body hmem => ?_, fun q hmem hq => ?_,
      fun q outgoing hmem => ?_⟩
    · show q < w₁.allocated
      rw [hallocated]
      exact (has_update hclients hq).elim (fun heq => heq ▸ Nat.lt_succ_self _) fun hold =>
        Nat.lt_succ_of_lt (h.tabled q hold)
    · have hq' : w.allocated + 1 ≤ q := hallocated ▸ hq
      exact (hother q (by omega)).trans (h.fresh q (Nat.le_of_succ_le hq'))
    · show (w₁.channels q).localChannelId = 0 ∨ 0x0040 ≤ (w₁.channels q).localChannelId
      by_cases hq : q = w.allocated
      · rw [hq, hself]
        exact .inr hid
      · rw [hother q hq]
        exact h.dynamic q
    · show (w₁.channels q).localChannelId ≠ 0 ↔ Given q w₁.notes
      rw [hnotes, given_snoc]
      by_cases hq : q = w.allocated
      · rw [hq, hself]
        exact iff_of_true (by omega) (.inl rfl)
      · rw [hother q hq]
        exact (h.given q).trans ⟨.inr, fun hg => hg.resolve_left hq⟩
    · have hmem' : L2event.emitted (some q) l2capSignalConnReq id body ∈ w.log := by
        have hmem₁ : L2event.emitted (some q) l2capSignalConnReq id body ∈ w₁.log := hmem
        rw [hlog] at hmem₁
        exact (List.mem_append.1 hmem₁).resolve_right fun hnew' => by simp at hnew'
      have hasked := h.asked q id body hmem'
      have hq : q ≠ w.allocated := fun heq => hasked (heq ▸ h.fresh _ le_rfl)
      exact (hother q hq).symm ▸ hasked
    · show (w₁.channels q).localChannelId ≠ 0
      by_cases hq' : q = w.allocated
      · rw [hq', hself]
        omega
      · rw [hother q hq']
        refine h.answered q ?_ ((has_update hclients hq).resolve_left hq')
        have hmem₁ : L2event.created q false ∈ w₁.log := hmem
        rw [hlog] at hmem₁
        refine (List.mem_append.1 hmem₁).resolve_right fun hnew' => ?_
        cases List.mem_singleton.1 hnew'
        exact hq' rfl
    · show q < w₁.allocated
      have hmem₁ : L2event.created q outgoing ∈ w₁.log := hmem
      rw [hlog] at hmem₁
      rw [hallocated]
      refine (List.mem_append.1 hmem₁).elim (fun hold => Nat.lt_succ_of_lt (h.created q outgoing hold)) fun hnew' => ?_
      cases List.mem_singleton.1 hnew'
      exact Nat.lt_succ_self _
  exact (hmade.mild hs.mild).enter w.allocated .waitConfig

theorem IdInv.close {w : L2capLink} (h : IdInv w.part) (p : Nat) : IdInv (w.close p).part := by
  have hnoted : IdInv (w.note (.closing p (w.channels p).state)).part :=
    h.keep (fun _ => rfl) rfl (fun _ hq => hq) (List.append_nil _).symm (by simp)
      (m := [.closing p (w.channels p).state]) rfl fun n hn => by rw [List.mem_singleton.1 hn]; trivial
  unfold L2capLink.close
  simp only
  split
  · exact hnoted
  · exact hnoted.enter p .closed

theorem nextLocalChannelId_close (w : L2capLink) (p : Nat) : (w.close p).nextLocalChannelId = w.nextLocalChannelId := by
  unfold L2capLink.close
  simp only
  split <;> rfl

theorem nextLocalChannelId_told (w : L2capLink) (p reason : Nat) :
    (w.told p reason).nextLocalChannelId = w.nextLocalChannelId := by
  unfold L2capLink.told
  simp only
  split <;> rfl

/-- **A move keeps what is known of the ids.** -/
theorem IdInv.move {w w' : L2capLink} (h : IdInv w.part) (hcount : w.Counting) (hm : Move w w') :
    IdInv w'.part ∧ w'.Counting := by
  have hmild : w.Mild w' → IdInv w'.part ∧ w'.Counting := by
    intro hm
    refine ⟨h.mild hm, ?_⟩
    exact hm.nextLocalChannelId.elim (Counting.congr hcount) Counting.reset
  cases hm with
  | still hs => exact hmild hs.mild
  | left q =>
    refine ⟨h.keep (fun _ => rfl) rfl (fun p hp => ?_) (List.append_nil _).symm (by simp) (List.append_nil _).symm (by simp),
      hcount⟩
    obtain ⟨i, hi⟩ := hp
    have hi' : (if w.clients i = some q then none else w.clients i) = some p := hi
    split at hi'
    · cases hi'
    · exact ⟨i, hi'⟩
  | alloc outgoing => exact ⟨h.alloc outgoing, hcount⟩
  | joined hadd =>
    refine ⟨h.joined hadd, ?_⟩
    obtain ⟨i, -, rfl⟩ := addClient_cases hadd
    exact hcount
  | accepted hnew hs hdepth =>
    refine ⟨h.accepted hcount hnew hs, ?_⟩
    obtain ⟨-, i, -, hw₁⟩ := newConnected_some hnew
    have hnext := hs.nextLocalChannelId
    rw [hw₁] at hnext
    exact Counting.congr (Counting.next hcount).2 hnext
  | established hstate hdepth => exact ⟨h.enter _ _, hcount⟩
  | entered hopen hlow => exact ⟨h.enter _ _, hcount⟩
  | allotted ht => exact ⟨h.allot ht (Counting.next hcount).1, (Counting.next hcount).2⟩
  | asked heven hid => exact hmild (mild_asked w hid _ _ _)
  | connecting ht hid => exact ⟨(h.mild (mild_asked w (fun _ => hid) _ _ _)).enter _ _, hcount⟩
  | packets hp => exact hmild (mild_packets hp)
  | ignored reader len hnone => exact hmild (mild_note w trivial)
  | answered reader len hsome => exact hmild (mild_answered w _ _ _ reader len)
  | restored hrefused => exact hmild (mild_restored w _)
  | closing q => exact ⟨h.close q, Counting.congr hcount (nextLocalChannelId_close w q)⟩
  | @told p reason hopen =>
    obtain ⟨-, -, hchannels, hallocated, hclients, hnotes⟩ := told_fields w p reason
    obtain ⟨es, hes, -, hall⟩ := told_log w p reason
    refine ⟨h.keep (fun q => congrArg (fun c => (c q).localChannelId) hchannels) hallocated (fun q hq => ?_) hes
      (fun e he => ?_) hnotes fun n hn => ?_, Counting.congr hcount (nextLocalChannelId_told w p reason)⟩
    · obtain ⟨i, hi⟩ := hq
      exact ⟨i, (congrFun hclients i).symm.trans hi⟩
    · obtain ⟨f, userdata, rfl⟩ := hall e he
      trivial
    · rw [List.mem_singleton.1 hn]
      trivial
  | reset =>
    exact ⟨h.keep (fun _ => rfl) rfl (fun _ hq => hq) (List.append_nil _).symm (by simp) (List.append_nil _).symm (by simp),
      Counting.reset rfl⟩

/-! ## All links -/

/-- Channel `p` is in the table of link `k` under an id. -/
def L2capLink.Held (w : L2capLink) (k p id : Nat) : Prop :=
  (w.link k).Has p ∧ ((w.link k).channels p).localChannelId = id

/-- The ids that were given are all different. -/
def L2capLink.Distinct (w : L2capLink) : Prop :=
  ∀ id, id ≠ 0 → ∀ j p k q, w.Held j p id → w.Held k q id → j = k ∧ p = q

/-- One channel is given an id that no other holds. -/
theorem L2capLink.Distinct.give {w w' : L2capLink} (h : w.Distinct) {n p₀ id₀ : Nat}
    (hold : ∀ k p id, id ≠ 0 → w'.Held k p id → w.Held k p id ∨ k = n ∧ p = p₀ ∧ id = id₀)
    (hfree : ∀ j p, w.Held j p id₀ → j = n ∧ p = p₀) : w'.Distinct := by
  intro id hid j p k q hp hq
  rcases hold j p id hid hp with hp | ⟨rfl, rfl, rfl⟩
  · rcases hold k q id hid hq with hq | ⟨rfl, rfl, rfl⟩
    · exact h id hid j p k q hp hq
    · exact hfree j p hp
  · rcases hold k q id hid hq with hq | ⟨rfl, rfl, -⟩
    · exact ⟨(hfree k q hq).1.symm, (hfree k q hq).2.symm⟩
    · exact ⟨rfl, rfl⟩

theorem mem_tables {w : L2capLink} {j : Nat} {e : Nat × L2cap} :
    e ∈ w.tables j ↔ (w.link j).Has e.1 ∧ e.2 = (w.link j).channels e.1 := by
  unfold tables link
  split
  · exact mem_channelTable
  · exact mem_channelTable

theorem held_here {w : L2capLink} {p id : Nat} :
    w.Held w.here p id ↔ w.part.Has p ∧ (w.channels p).localChannelId = id := by
  unfold L2capLink.Held
  rw [link_here]
  rfl

/-- A move leaves the other tables. -/
theorem held_move {w w' : L2capLink} (hm : Move w w') {k p id : Nat} (hk : k ≠ w.here) (h : w'.Held k p id) :
    w.Held k p id := by
  unfold L2capLink.Held at h ⊢
  rwa [hm.link_of_ne hk] at h

theorem held_move_here {w w' : L2capLink} (hm : Move w w') {p id : Nat} :
    w'.Held w.here p id ↔ w'.part.Has p ∧ (w'.channels p).localChannelId = id := by
  rw [← hm.frame.1]
  exact held_here

/-- No channel of the table is given an id. -/
theorem L2capLink.Distinct.keep {w w' : L2capLink} (h : w.Distinct) (hm : Move w w')
    (hsame : ∀ p, w'.part.Has p → (w'.channels p).localChannelId ≠ 0 →
      w.part.Has p ∧ (w'.channels p).localChannelId = (w.channels p).localChannelId) : w'.Distinct := by
  intro id hid j p k q hp hq
  have hold : ∀ k p, w'.Held k p id → w.Held k p id := by
    intro k p hp
    by_cases hk : k = w.here
    · subst hk
      obtain ⟨hhas, heq⟩ := (held_move_here hm).1 hp
      obtain ⟨hhas', hsame'⟩ := hsame p hhas (heq ▸ hid)
      exact held_here.2 ⟨hhas', hsame'.symm.trans heq⟩
    · exact held_move hm hk hp
  exact h id hid j p k q (hold j p hp) (hold k q hq)

theorem L2capLink.Distinct.mild {w w' : L2capLink} (h : w.Distinct) (hm : Move w w') (hmild : w.Mild w') : w'.Distinct := by
  refine h.keep hm fun p hp _ => ⟨?_, hmild.localChannelId p⟩
  obtain ⟨i, hi⟩ := hp
  exact ⟨i, (congrFun hmild.clients i).symm.trans hi⟩

/-- The id that a channel is given is free. -/
theorem L2capLink.Distinct.allot {w : L2capLink} (h : w.Distinct) {p : Nat} (ht : w.Tabled p)
    (hok : AllottedFree w.here w.notes (.allotted p w.nextChannelId.1 w.nextChannelId.2.tables)) :
    (w.nextChannelId.2.allot p w.nextChannelId.1).Distinct := by
  have hm : Move w (w.nextChannelId.2.allot p w.nextChannelId.1) := .allotted ht
  refine @L2capLink.Distinct.give w _ h w.here p w.nextChannelId.1 (fun k q id hid hq => ?_) fun j q hq => ?_
  · by_cases hk : k = w.here
    · subst hk
      obtain ⟨hhas, heq⟩ := (held_move_here hm).1 hq
      by_cases hqp : q = p
      · subst hqp
        rw [localChannelId_allot] at heq
        exact .inr ⟨rfl, rfl, heq.symm⟩
      · refine .inl (held_here.2 ⟨hhas, ?_⟩)
        simpa [L2capLink.allot, L2capLink.modify, note, Function.update_of_ne hqp, nextChannelId] using heq
    · exact .inl (held_move hm hk hq)
  · have hmem : (q, (w.link j).channels q) ∈ w.nextChannelId.2.tables j := mem_tables.2 ⟨hq.1, rfl⟩
    exact hok j _ hmem hq.2

theorem L2capLink.Distinct.accepted {w w₁ w₂ : L2capLink} {psm channelId : Nat} (h : w.Distinct) (hinv : IdInv w.part)
    (hm : Move w (w₂.enter w.allocated .waitConfig))
    (hnew : bteL2capNewConnected w psm channelId = (some w.allocated, w₁)) (hs : w₁.Still w₂)
    (hok : Sys.History (AllottedFree w.here) w₁.notes) : (w₂.enter w.allocated .waitConfig).Distinct := by
  obtain ⟨-, i, hi, hw₁⟩ := newConnected_some hnew
  have hclients : (w₂.enter w.allocated .waitConfig).part.clients = Function.update w.clients i (some w.allocated) :=
    hs.clients.trans (by rw [hw₁])
  have hid : ∀ q, ((w₂.enter w.allocated .waitConfig).channels q).localChannelId = (w₁.channels q).localChannelId :=
    fun q => (localChannelId_enter w₂ w.allocated .waitConfig q).trans (hs.channels q).localChannelId
  have hself : (w₁.channels w.allocated).localChannelId = w.nextChannelId.1 := by
    rw [hw₁]
    simp
  have hother : ∀ q, q ≠ w.allocated → (w₁.channels q).localChannelId = (w.channels q).localChannelId := by
    intro q hq
    rw [hw₁]
    simp [Function.update_of_ne hq]
  generalize hjoined : ({ (w.alloc false).2 with
    clients := Function.update w.clients i (some w.allocated) } : L2capLink) = wj at hw₁
  have hfree : AllottedFree w.here w.notes (.allotted w.allocated w.nextChannelId.1 wj.tables) := by
    rw [hw₁] at hok
    exact hok.last
  have hmem : ∀ j q, (w.link j).Has q → (q, (w.link j).channels q) ∈ wj.tables j := by
    intro j q hq
    rw [mem_tables]
    by_cases hj : j = w.here
    · subst hj
      rw [link_here] at hq ⊢
      have hlink : wj.link w.here = wj.part := by
        rw [← hjoined]
        exact link_here _
      have hne : q ≠ w.allocated := (hinv.tabled q hq).ne
      obtain ⟨i', hi'⟩ := hq
      rw [hlink, ← hjoined]
      refine ⟨⟨i', ?_⟩, ?_⟩
      · show Function.update w.clients i (some w.allocated) i' = some q
        rw [Function.update_of_ne]
        · exact hi'
        · rintro rfl
          cases hi.symm.trans hi'
      · show w.channels q = Function.update w.channels w.allocated bteL2capNew q
        rw [Function.update_of_ne hne]
    · have hhere : wj.here = w.here := hjoined ▸ rfl
      have hparked : wj.parked = w.parked := hjoined ▸ rfl
      have hlink : wj.link j = w.link j := Bte.L2capLink.link_of_ne hhere hparked hj
      rw [hlink]
      exact ⟨hq, rfl⟩
  refine @L2capLink.Distinct.give w _ h w.here w.allocated w.nextChannelId.1 (fun k q id hne hq => ?_) fun j q hq => ?_
  · by_cases hk : k = w.here
    · subst hk
      obtain ⟨hhas, heq⟩ := (held_move_here hm).1 hq
      rw [hid] at heq
      by_cases hqp : q = w.allocated
      · subst hqp
        exact .inr ⟨rfl, rfl, heq.symm.trans hself⟩
      · exact .inl (held_here.2 ⟨(has_update hclients hhas).resolve_left hqp, (hother q hqp).symm.trans heq⟩)
    · exact .inl (held_move hm hk hq)
  · exact hfree j _ (hmem j q hq.1) hq.2

/-- **A move keeps the ids different**, if it gives a channel an id that is free. -/
theorem L2capLink.Distinct.move {w w' : L2capLink} (h : w.Distinct) (hinv : IdInv w.part) (hm : Move w w')
    (hok : Sys.History (AllottedFree w.here) w'.notes) : w'.Distinct := by
  have hmoved := hm
  cases hm with
  | still hs => exact h.mild hmoved hs.mild
  | left q =>
    refine h.keep hmoved fun p hp _ => ⟨?_, rfl⟩
    obtain ⟨i, hi⟩ := hp
    have hi' : (if w.clients i = some q then none else w.clients i) = some p := hi
    split at hi'
    · cases hi'
    · exact ⟨i, hi'⟩
  | alloc outgoing =>
    refine h.keep hmoved fun p hp _ => ⟨hp, ?_⟩
    have hne : p ≠ w.allocated := (hinv.tabled p hp).ne
    show (Function.update w.channels w.allocated bteL2capNew p).localChannelId = _
    rw [Function.update_of_ne hne]
  | joined hadd =>
    obtain ⟨i, -, rfl⟩ := addClient_cases hadd
    refine h.keep hmoved fun p hp hid => ?_
    have hid' : (Function.update w.channels w.allocated bteL2capNew p).localChannelId ≠ 0 := hid
    have hne : p ≠ w.allocated := by
      rintro rfl
      rw [Function.update_self] at hid'
      exact hid' rfl
    refine ⟨(has_update rfl hp).resolve_left hne, ?_⟩
    show (Function.update w.channels w.allocated bteL2capNew p).localChannelId = _
    rw [Function.update_of_ne hne]
  | accepted hnew hs hdepth => exact h.accepted hinv hmoved hnew hs (hs.notes ▸ hok)
  | established hstate hdepth => exact h.keep hmoved fun q hq _ => ⟨hq, localChannelId_enter ..⟩
  | entered hopen hlow => exact h.keep hmoved fun q hq _ => ⟨hq, localChannelId_enter ..⟩
  | allotted ht => exact h.allot ht hok.last
  | asked heven hid => exact h.mild hmoved (mild_asked w hid _ _ _)
  | connecting ht hid =>
    refine h.keep hmoved fun q hq _ => ⟨hq, ?_⟩
    exact (localChannelId_enter ..).trans (localChannelId_ask ..)
  | packets hp => exact h.mild hmoved (mild_packets hp)
  | ignored reader len hnone => exact h.mild hmoved (mild_note w trivial)
  | answered reader len hsome => exact h.mild hmoved (mild_answered w _ _ _ reader len)
  | restored hrefused => exact h.mild hmoved (mild_restored w _)
  | closing q =>
    obtain ⟨-, -, hids, -, hclients, -⟩ := close_fields w q
    refine h.keep hmoved fun p hp _ => ⟨?_, hids p⟩
    obtain ⟨i, hi⟩ := hp
    exact ⟨i, (congrFun hclients i).symm.trans hi⟩
  | @told q reason hopen =>
    obtain ⟨-, -, hchannels, -, hclients, -⟩ := told_fields w q reason
    refine h.keep hmoved fun p hp _ => ⟨?_, congrArg (fun c => (c p).localChannelId) hchannels⟩
    obtain ⟨i, hi⟩ := hp
    exact ⟨i, (congrFun hclients i).symm.trans hi⟩
  | reset => exact h.keep hmoved fun q hq _ => ⟨hq, rfl⟩

/-! ## Every run -/

/-- What is known of the ids of a process. -/
structure L2capLink.IdsInv (w : L2capLink) : Prop where
  counting : w.Counting
  link : ∀ k, IdInv (w.link k)

theorem L2capLink.IdsInv.move {w w' : L2capLink} (h : w.IdsInv) (hm : Move w w') : w'.IdsInv := by
  have hhere : IdInv w.part := by
    have hlink := h.link w.here
    rwa [link_here] at hlink
  obtain ⟨hpart, hcount⟩ := hhere.move h.counting hm
  refine ⟨hcount, fun k => ?_⟩
  by_cases hk : k = w.here
  · subst hk
    rwa [hm.link_here]
  · rw [hm.link_of_ne hk]
    exact h.link k

theorem idsInv_processRun (hosts : Nat → L2capHost) (clients : L2capClients) (depth : Nat) (dev : AclOut)
    (ops : List ProcessOp) : (processRun hosts clients depth dev ops).IdsInv := by
  refine inv_processRun (P := fun _ _ _ => True) (fun dev => ⟨Counting.reset rfl, fun k => ?_⟩)
    (fun hm _ h => h.move hm) (fun w k h => ⟨h.counting, fun j => ?_⟩) hosts clients depth dev ops fun _ _ _ _ _ => trivial
  · rw [link_start]
    exact IdInv.new
  · rw [link_focus]
    exact h.link j

theorem distinct_processRun (hosts : Nat → L2capHost) (clients : L2capClients) (depth : Nat) (dev : AclOut)
    (ops : List ProcessOp)
    (hok : ∀ k, Sys.History (AllottedFree k) ((processRun hosts clients depth dev ops).link k).notes) :
    (processRun hosts clients depth dev ops).Distinct := by
  have hinv : (processRun hosts clients depth dev ops).IdsInv ∧ (processRun hosts clients depth dev ops).Distinct := by
    refine inv_processRun (P := AllottedFree) (I := fun w => w.IdsInv ∧ w.Distinct) (fun dev => ?_)
      (fun {w w'} hm hnotes h => ⟨h.1.move hm, ?_⟩) (fun w k h => ?_) hosts clients depth dev ops hok
    · refine ⟨⟨Counting.reset rfl, fun k => ?_⟩, fun id hid j p k q hp => ?_⟩
      · rw [link_start]
        exact IdInv.new
      · obtain ⟨⟨i, hi⟩, -⟩ := hp
        rw [link_start] at hi
        cases hi
    · have hhere := h.1.link w.here
      rw [link_here] at hhere
      have hlast := hnotes w.here
      rw [hm.link_here] at hlast
      exact h.2.move hhere hm hlast
    · refine ⟨⟨h.1.counting, fun j => ?_⟩, fun id hid j p k' q hp hq => ?_⟩
      · rw [link_focus]
        exact h.1.link j
      · unfold L2capLink.Held at hp hq
        rw [link_focus] at hp hq
        exact h.2 id hid j p k' q hp hq
  exact hinv.2

theorem IdInv.connected {l : L2capPart} (h : IdInv l) {p : Nat} (hp : l.Has p) (hc : Connected p l.log) :
    (l.channels p).localChannelId ≠ 0 := by
  rcases hc with ⟨id, body, hmem⟩ | hmem
  · exact h.asked p id body hmem
  · exact h.answered p hmem hp

/-- A channel that is found by an id other than 0 was given it; one that is found by 0 waits for its own. -/
theorem foundGiven_iff {w : L2capLink} (h : IdInv w.part) (id : Nat) :
    FoundGiven w id ↔ (id = 0 → ∀ p, w.Tabled p → Given p w.notes) := by
  constructor
  · rintro hfound rfl p ⟨i, hi⟩
    by_contra hgiven
    have hzero : (w.channels p).localChannelId = 0 := by
      by_contra hne
      exact hgiven ((h.given p).1 hne)
    -- the first channel that is found by 0 waits too
    have hsome : (w.l2capForLocalChannel 0).isSome := by
      unfold L2capLink.l2capForLocalChannel L2capLink.findClient
      rw [List.findSome?_isSome_iff]
      exact ⟨i, List.mem_finRange i, by simp [hi, hzero]⟩
    obtain ⟨q, hq⟩ := Option.isSome_iff_exists.1 hsome
    have hqzero := (findClient_some hq).2
    exact (h.given q).2 (hfound q hq) (beq_iff_eq.1 hqzero)
  · intro hwait p hp
    obtain ⟨htabled, htest⟩ := findClient_some hp
    by_cases hid : id = 0
    · exact hwait hid p htabled
    · refine (h.given p).1 fun hzero => hid ?_
      have hsame : (w.channels p).localChannelId = id := by simpa using htest
      exact hsame.symm.trans hzero

/-- **The ids of connected channels are different as long as each id that is handed out is free; they are in the dynamic
range; and a channel that a link finds by the peer's id was given one, unless the id is 0 and a channel in the table still
waits for its own.** -/
theorem local_channel_ids (hosts : Nat → L2capHost) (clients : L2capClients) (depth : Nat) (dev : AclOut)
    (ops : List ProcessOp) :
    ((∀ k, Sys.History (AllottedFree k) ((processRun hosts clients depth dev ops).link k).notes) →
      IdsUnique (processRun hosts clients depth dev ops)) ∧
    IdsDynamic (processRun hosts clients depth dev ops) ∧
    ∀ k id, FoundGiven ((processRun hosts clients depth dev ops).focus k) id ↔
      (id = 0 → ∀ p, ((processRun hosts clients depth dev ops).link k).Has p →
        Given p ((processRun hosts clients depth dev ops).link k).notes) := by
  have hinv := idsInv_processRun hosts clients depth dev ops
  refine ⟨fun hok j p k q hp hq hcp hcq heq => ?_, fun k p hp hc => ?_, fun k id => ?_⟩
  · have hne := (hinv.link j).connected hp hcp
    exact distinct_processRun hosts clients depth dev ops hok _ hne j p k q ⟨hp, rfl⟩ ⟨hq, heq.symm⟩
  · exact ((hinv.link k).dynamic p).resolve_left ((hinv.link k).connected hp hc)
  · have hfocus : IdInv ((processRun hosts clients depth dev ops).focus k).part := hinv.link k
    exact foundGiven_iff hfocus id

/-- A client that makes no calls in its callbacks. -/
def quietClient : L2capClients := fun _ _ _ => []

/-- A channel is asked for, on a link that is connected or on one that is not. -/
def askingRun (ready : Bool) : L2capLink :=
  processRun (fun _ => plainHost) quietClient 1 (freeDev 8) [.api 0 (.newOutgoing 0x11 ready 7 0)]

/-- The first id goes to the only channel there is. -/
theorem askingRun_notes : ∃ (w : L2capLink) (id : Nat) (table : L2capTable),
    ((askingRun true).link 0).notes = [.allotted 0 0x0040 w.tables, .request 0 l2capSignalConnReq id table] ∧
      w.here = 0 ∧ (∀ j, j ≠ 0 → w.parked j = .new) ∧ w.table.map (fun e => e.2.localChannelId) = [0] := by
  refine ⟨_, _, _, rfl, rfl, fun j hj => ?_, rfl⟩
  exact Function.update_of_ne hj ..

theorem local_channel_ids_asking :
    IdsUnique (askingRun true) ∧ Connected 0 ((askingRun true).link 0).log := by
  have hsent : ∃ id body rest, ((askingRun true).link 0).log =
      .created 0 true :: .emitted (some 0) l2capSignalConnReq id body :: rest := ⟨_, _, _, rfl⟩
  obtain ⟨id, body, rest, hlog⟩ := hsent
  refine ⟨(local_channel_ids (fun _ => plainHost) quietClient 1 (freeDev 8) _).1 fun k => ?_,
    .inl ⟨id, body, by rw [hlog]; simp⟩⟩
  show Sys.History (AllottedFree k) ((askingRun true).link k).notes
  rintro pre n post hnotes
  have hmem : n ∈ ((askingRun true).link k).notes := by
    rw [hnotes]
    simp
  by_cases hk : k = 0
  · subst hk
    obtain ⟨w, id, table, heq, hhere, hparked, hids⟩ := askingRun_notes
    rw [heq] at hmem
    simp only [List.mem_cons, List.not_mem_nil, or_false] at hmem
    rcases hmem with rfl | rfl
    · intro j e he hid
      obtain ⟨⟨i, hi⟩, hchannel⟩ := mem_tables.1 he
      by_cases hj : j = w.here
      · have he' : e ∈ w.table := by rwa [tables, if_pos hj] at he
        have hzero : e.2.localChannelId ∈ w.table.map fun e => e.2.localChannelId := List.mem_map_of_mem he'
        rw [hids, hid] at hzero
        exact absurd hzero (by decide)
      · have hj0 : j ≠ 0 := hhere ▸ hj
        rw [link, if_neg hj, hparked j hj0] at hi
        cases hi
    · trivial
  · have hnew : (askingRun true).link k = .new := by
      have hhere : (askingRun true).here = 0 := rfl
      rw [link, hhere, if_neg hk]
      exact (Function.update_of_ne hk ..).trans (Function.update_of_ne hk ..)
    rw [hnew] at hmem
    cases hmem

/-- The peer finds the channel that waits for the link, by id 0. -/
theorem foundGiven_not_waiting : ¬ FoundGiven ((askingRun false).focus 0) 0 := by
  intro h
  obtain ⟨id, tables, hmem⟩ := h 0 (by decide)
  cases hmem

end Bte
