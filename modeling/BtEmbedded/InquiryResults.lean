import BtEmbedded.Lib.Columns
import BtEmbedded.Lib.Gather
import BtEmbedded.ResponseArrays
/-!
# InquiryResults — what an inquiry delivers (hci.c)

An Inquiry Result event has its responses as parallel arrays, one for each field (`InquiryEvent.buffer`).  The records
are gathered until Inquiry Complete, and the client gets the list and the count.  A record is a duplicate only if an
earlier event had it, and the count has eight bits: the list is right when no event has a newcomer twice and there are
at most 255 records (`inquiry_delivers`).
-/
namespace Bte

open Bytes Columns Gather

/-! ## Events -/

def ClassOfDevice.bytes (c : ClassOfDevice) : List UInt8 := [c.b0, c.b1, c.b2]

/-- A response of an Inquiry Result event. -/
structure InquiryRecord where
  address : BdAddr
  pageScanRepMode : UInt8
  pageScanPeriodMode : UInt8
  reserved : UInt8
  classOfDevice : ClassOfDevice
  clockOffset : UInt16
deriving DecidableEq

/-- The record a client sees. -/
def InquiryRecord.toResponse (r : InquiryRecord) : InquiryResponse :=
  ⟨r.address, r.pageScanRepMode, r.pageScanPeriodMode, r.reserved, r.classOfDevice, r.clockOffset, 0, 0⟩

/-- An event with at most 255 responses, and what new memory holds when it comes. -/
structure InquiryEvent where
  records : List InquiryRecord
  count : records.length < 256
  fresh : Nat → InquiryResponse

namespace InquiryEvent

variable (e : InquiryEvent)

/-- The arrays behind the number of responses. -/
def fields : List UInt8 :=
  e.records.flatMap (fun r => r.address.bytes) ++ (e.records.map InquiryRecord.pageScanRepMode ++
    (e.records.map InquiryRecord.pageScanPeriodMode ++ (e.records.map InquiryRecord.reserved ++
      (e.records.flatMap (fun r => r.classOfDevice.bytes) ++ e.records.flatMap fun r => leBytes 2 r.clockOffset.toNat))))

def buffer : List UInt8 :=
  [hciInquiryResult, .ofNat (1 + 14 * e.records.length), .ofNat e.records.length] ++ e.fields

def responses : List InquiryResponse := e.records.map InquiryRecord.toResponse

end InquiryEvent

/-- `BteHciInquiryReply`. -/
structure InquiryReply where
  status : UInt8
  numResponses : UInt8
  responses : Option (Block InquiryResponse)

/-- The list a client reads from it. -/
def InquiryReply.list (r : InquiryReply) : List InquiryResponse :=
  r.responses.elim [] fun b => (List.range r.numResponses.toNat).map b.mem

/-- The reply of `inquiry_complete_event_cb`, and the array after it. -/
def inquiryComplete (a : ResponseArray InquiryResponse) (buffer : List UInt8) :
    InquiryReply × ResponseArray InquiryResponse :=
  (⟨buffer.getD 2 0, a.numResponses, a.responses⟩, .empty)

def InquiryEvent.apply (a : ResponseArray InquiryResponse) (e : InquiryEvent) : ResponseArray InquiryResponse :=
  (inquiryResultCb (some e.fresh) a e.buffer).array

/-- The reply after some events, with an Inquiry Complete of no errors. -/
def inquiryReply (events : List InquiryEvent) : InquiryReply :=
  (inquiryComplete (Sys.run InquiryEvent.apply .empty events) [hciInquiryComplete, 1, 0]).1

/-- The responses of all events, each once, in the order of first appearance. -/
def distinctResponses (events : List InquiryEvent) : List InquiryResponse :=
  (events.map InquiryEvent.responses).flatten.eraseDups

/-- The client gets these, and their number. -/
def ResultsDelivered (events : List InquiryEvent) : Prop :=
  (inquiryReply events).list = distinctResponses events ∧
  (inquiryReply events).numResponses.toNat = (distinctResponses events).length

instance (events : List InquiryEvent) : Decidable (ResultsDelivered events) := inferInstanceAs (Decidable (_ ∧ _))

/-! ## Reading the arrays -/

namespace InquiryRecord

theorem length_address (r : InquiryRecord) : r.address.bytes.length = 6 := rfl

theorem length_classOfDevice (r : InquiryRecord) : r.classOfDevice.bytes.length = 3 := rfl

theorem length_clockOffset (r : InquiryRecord) : (leBytes 2 r.clockOffset.toNat).length = 2 := length_leBytes 2 _

end InquiryRecord

namespace InquiryEvent

section Fields

variable (e : InquiryEvent) {i k : Nat} (hi : i < e.records.length)
include hi

theorem fields_address (hk : k < 6) : e.fields.getD (6 * i + k) 0 = (e.records[i].address.bytes).getD k 0 :=
  getD_flatMap_width InquiryRecord.length_address _ e.records hi hk

theorem fields_pageScanRepMode : e.fields.getD (6 * e.records.length + i) 0 = e.records[i].pageScanRepMode := by
  have haddr := length_flatMap_width InquiryRecord.length_address e.records
  rw [fields, getD_skip (by rw [haddr]), getD_map_column _ hi]

theorem fields_pageScanPeriodMode :
    e.fields.getD (6 * e.records.length + e.records.length + i) 0 = e.records[i].pageScanPeriodMode := by
  have haddr := length_flatMap_width InquiryRecord.length_address e.records
  rw [fields, getD_skip (by rw [haddr, Nat.add_assoc]), getD_skip (by rw [List.length_map]), getD_map_column _ hi]

theorem fields_reserved :
    e.fields.getD (6 * e.records.length + e.records.length + e.records.length + i) 0 = e.records[i].reserved := by
  have haddr := length_flatMap_width InquiryRecord.length_address e.records
  rw [fields, getD_skip (by rw [haddr, Nat.add_assoc, Nat.add_assoc]), getD_skip (by rw [List.length_map]),
    getD_skip (by rw [List.length_map]), getD_map_column _ hi]

theorem fields_classOfDevice (hk : k < 3) :
    e.fields.getD (6 * e.records.length + e.records.length + e.records.length + e.records.length + 3 * i + k) 0 =
      (e.records[i].classOfDevice.bytes).getD k 0 := by
  have haddr := length_flatMap_width InquiryRecord.length_address e.records
  have hskip : 6 * e.records.length + e.records.length + e.records.length + e.records.length + 3 * i + k =
      6 * e.records.length + (e.records.length + (e.records.length + (e.records.length + (3 * i + k)))) := by omega
  rw [fields, hskip, getD_skip (by rw [haddr]), getD_skip (by rw [List.length_map]), getD_skip (by rw [List.length_map]),
    getD_skip (by rw [List.length_map]), getD_flatMap_width InquiryRecord.length_classOfDevice _ _ hi hk]

theorem fields_clockOffset (hk : k < 2) :
    e.fields.getD (6 * e.records.length + e.records.length + e.records.length + e.records.length +
      3 * e.records.length + 2 * i + k) 0 = (leBytes 2 e.records[i].clockOffset.toNat).getD k 0 := by
  have haddr := length_flatMap_width InquiryRecord.length_address e.records
  have hcod := length_flatMap_width InquiryRecord.length_classOfDevice e.records
  have hskip : 6 * e.records.length + e.records.length + e.records.length + e.records.length + 3 * e.records.length +
      2 * i + k = 6 * e.records.length + (e.records.length + (e.records.length + (e.records.length +
        (3 * e.records.length + (2 * i + k))))) := by omega
  have hcolumn := getD_flatMap_width InquiryRecord.length_clockOffset [] e.records hi hk
  rw [List.append_nil] at hcolumn
  rw [fields, hskip, getD_skip (by rw [haddr]), getD_skip (by rw [List.length_map]), getD_skip (by rw [List.length_map]),
    getD_skip (by rw [List.length_map]), getD_skip (by rw [hcod]), hcolumn]

/-- **A response is read as the event has it**, whatever its place in memory held. -/
theorem readResponse_fields (old : InquiryResponse) :
    readResponse (fun k => e.fields.getD k 0) false e.records.length i old = e.records[i].toResponse := by
  have hclock : UInt16.ofNat (leVal [(leBytes 2 e.records[i].clockOffset.toNat).getD 0 0,
      (leBytes 2 e.records[i].clockOffset.toNat).getD 1 0]) = e.records[i].clockOffset := by
    have hle : [(leBytes 2 e.records[i].clockOffset.toNat).getD 0 0, (leBytes 2 e.records[i].clockOffset.toNat).getD 1 0] =
        leBytes 2 e.records[i].clockOffset.toNat := rfl
    have hlt := e.records[i].clockOffset.toNat_lt
    rw [hle, leVal_leBytes, Nat.mod_eq_of_lt (by omega), UInt16.ofNat_toNat]
  have haddr : ∀ k < 6, _ := fun k hk => e.fields_address hi hk
  have hcod : ∀ k < 3, _ := fun k hk => e.fields_classOfDevice hi hk
  have hoff : ∀ k < 2, _ := fun k hk => e.fields_clockOffset hi hk
  have haddr0 := haddr 0 (by decide)
  have hcod0 := hcod 0 (by decide)
  have hoff0 := hoff 0 (by decide)
  rw [Nat.add_zero] at haddr0 hcod0 hoff0
  simp only [readResponse, InquiryRecord.toResponse, Bool.false_eq_true, if_false]
  rw [haddr0, haddr 1 (by decide), haddr 2 (by decide), haddr 3 (by decide), haddr 4 (by decide), haddr 5 (by decide),
    e.fields_pageScanRepMode hi, e.fields_pageScanPeriodMode hi, e.fields_reserved hi, hcod0, hcod 1 (by decide),
    hcod 2 (by decide), hoff0, hoff 1 (by decide), hclock]
  rfl

end Fields

end InquiryEvent

/-! ## Gathering -/

section Memory

variable {α : Type}

/-- The memory begins with the list. -/
def Shows (mem : Nat → α) (l : List α) : Prop := ∀ j < l.length, l[j]? = some (mem j)

theorem Shows.map_range {mem : Nat → α} {l : List α} (h : Shows mem l) : (List.range l.length).map mem = l := by
  refine List.ext_getElem (by simp) fun j h1 h2 => ?_
  have hj := h j h2
  rw [List.getElem?_eq_getElem h2, Option.some.injEq] at hj
  simpa using hj.symm

theorem Shows.getElem?_prefix {mem : Nat → α} {l s : List α} (h : Shows mem l) (hs : s <+: l) {j : Nat} (hj : j < s.length) :
    s[j]? = some (mem j) := by
  rw [← h j (Nat.lt_of_lt_of_le hj hs.length_le)]
  exact (List.prefix_iff_getElem?.1 hs j hj).symm ▸ List.getElem?_eq_getElem hj

theorem Shows.update {mem : Nat → α} {l : List α} (h : Shows mem l) (r : α) :
    Shows (Function.update mem l.length r) l ∧ Shows (Function.update mem l.length r) (l ++ [r]) := by
  have hold : ∀ j < l.length, l[j]? = some (Function.update mem l.length r j) := by
    intro j hj
    rw [Function.update_of_ne (Nat.ne_of_lt hj)]
    exact h j hj
  refine ⟨hold, fun j hj => ?_⟩
  rw [List.length_append, List.length_singleton] at hj
  rcases Nat.lt_or_ge j l.length with hlt | hge
  · rw [List.getElem?_append_left hlt, hold j hlt]
  · obtain rfl : j = l.length := by omega
    simp

/-- Growing an array keeps what is shown in it. -/
theorem ensure_shows {fresh : Option (Nat → α)} {ptr : Option (Block α)} {k added : Nat} (hk : 0 < k) {l : List α}
    (hsized : Sized k ptr l.length) (hshown : l ≠ [] → ∃ b ∈ ptr, Shows b.mem l) {b : Block α}
    (hb : b ∈ ensureArraySize fresh ptr k l.length added) : Shows b.mem l := by
  intro j hj
  obtain ⟨old, hold, hmem⟩ := hshown (List.ne_nil_of_length_pos (by omega))
  rw [hold] at hb hsized
  have hroom := hsized.le hk rfl
  simp only [ensureArraySize] at hb
  split at hb
  · obtain ⟨mem, -, rfl⟩ := Option.map_eq_some_iff.1 hb
    simp only [Option.elim, if_pos (show j < old.capacity by omega)]
    exact hmem j hj
  · cases hb
    exact hmem j hj

/-- **The loop adds the newcomers**: `s` is what earlier events left, `kept` what is in the array. -/
theorem resultLoop_gathers [DecidableEq α] {read : Nat → α → α} {s : List α} :
    ∀ (rs : List α) (i : Nat) {kept : List α} {mem : Nat → α}, (∀ j (h : j < rs.length) old, read (i + j) old = rs[j]) →
      s <+: kept → Shows mem kept →
      (resultLoop s.length read rs.length i kept.length mem).tail = (kept ++ newcomers s rs).length ∧
      Shows (resultLoop s.length read rs.length i kept.length mem).mem (kept ++ newcomers s rs)
  | [], _, kept, mem, _, _, hmem => by simpa [resultLoop, newcomers] using hmem
  | r :: rs, i, kept, mem, hread, hs, hmem => by
    have hr : read i (mem kept.length) = r := hread 0 (Nat.succ_pos _) _
    have hrest : ∀ j (h : j < rs.length) old, read (i + 1 + j) old = rs[j] := by
      intro j h old
      rw [Nat.add_assoc, Nat.add_comm 1 j]
      exact hread (j + 1) (Nat.succ_lt_succ h) old
    obtain ⟨hsame, hnew⟩ := hmem.update r
    have hdup : (List.range s.length).any (fun j => decide (Function.update mem kept.length r kept.length =
        Function.update mem kept.length r j)) = decide (r ∈ s) := by
      rw [Bool.eq_iff_iff, List.any_eq_true, decide_eq_true_eq, List.mem_iff_getElem?]
      simp only [Function.update_self, decide_eq_true_eq, List.mem_range]
      constructor
      · rintro ⟨j, hj, hrj⟩
        exact ⟨j, by rw [hsame.getElem?_prefix hs hj, ← hrj]⟩
      · rintro ⟨j, hj⟩
        have hlt := (List.getElem?_eq_some_iff.1 hj).1
        rw [hsame.getElem?_prefix hs hlt, Option.some.injEq] at hj
        exact ⟨j, hlt, hj.symm⟩
    simp only [List.length_cons, resultLoop, hr, hdup, newcomers, List.filter_cons]
    by_cases hmem' : r ∈ s
    · simp only [hmem', decide_true, if_true, not_true_eq_false, decide_false, Bool.false_eq_true, if_false]
      exact resultLoop_gathers rs (i + 1) hrest hs hsame
    · simp only [hmem', decide_false, Bool.false_eq_true, if_false, not_false_eq_true, decide_true, if_true]
      have ih := resultLoop_gathers rs (i + 1) hrest (hs.trans (List.prefix_append kept [r])) hnew
      rw [List.length_append, List.length_singleton, List.append_assoc] at ih
      exact ih

end Memory

/-- The array holds the list. -/
structure Stores (a : ResponseArray InquiryResponse) (kept : List InquiryResponse) : Prop where
  count : a.numResponses.toNat = kept.length
  sized : Sized 32 a.responses kept.length
  shown : kept ≠ [] → ∃ b ∈ a.responses, Shows b.mem kept

theorem stores_empty : Stores .empty [] :=
  ⟨rfl, sized_none 32 0, fun h => absurd rfl h⟩

namespace InquiryEvent

theorem length_responses (e : InquiryEvent) : e.responses.length = e.records.length := List.length_map ..

theorem toNat_count (e : InquiryEvent) : (e.buffer.getD 2 0).toNat = e.responses.length := by
  have hcount := e.count
  show (UInt8.ofNat e.records.length).toNat = _
  rw [UInt8.toNat_ofNat', Nat.mod_eq_of_lt hcount, length_responses]

theorem read_responses (e : InquiryEvent) (j : Nat) (h : j < e.responses.length) (old : InquiryResponse) :
    readResponse (fun k => e.buffer.getD (3 + k) 0) (e.buffer.getD 0 0 == hciInquiryResultWithRssi)
        e.responses.length (0 + j)
      old = e.responses[j] := by
  have hfields : (fun k => e.buffer.getD (3 + k) 0) = fun k => e.fields.getD k 0 := by
    funext k
    exact getD_skip rfl
  have hcode : (e.buffer.getD 0 0 == hciInquiryResultWithRssi) = false := rfl
  rw [length_responses] at h
  rw [hfields, hcode, length_responses, Nat.zero_add, e.readResponse_fields h]
  simp [responses]

end InquiryEvent

/-- **One event adds its newcomers**, as long as the count holds them. -/
theorem stores_apply {a : ResponseArray InquiryResponse} {kept : List InquiryResponse} (h : Stores a kept)
    (e : InquiryEvent) (hle : (kept ++ newcomers kept e.responses).length ≤ 255) :
    Stores (e.apply a) (kept ++ newcomers kept e.responses) := by
  have hlen : (newcomers kept e.responses).length ≤ e.responses.length := List.length_filter_le ..
  have hsized := h.sized.ensure (some e.fresh) e.responses.length
  have hmono := hsized.mono (m := (kept ++ newcomers kept e.responses).length) (by rw [List.length_append]; omega)
  unfold InquiryEvent.apply inquiryResultCb
  simp only [e.toNat_count, h.count]
  cases hens : ensureArraySize (some e.fresh) a.responses 32 kept.length e.responses.length with
  | none =>
    -- nothing was allocated, so nothing is stored and nothing came
    have hkept : kept = [] := by
      by_contra hne
      obtain ⟨b, hb, -⟩ := h.shown hne
      rw [Option.mem_def] at hb
      simp only [ensureArraySize, hb, realloc, Option.map_some] at hens
      split at hens <;> cases hens
    have hnone : e.responses = [] := by
      subst hkept
      by_contra hne
      have hpos := List.length_pos_iff.2 hne
      have hblocks : blocks 32 (0 + e.responses.length) > blocks 32 0 := by
        simp only [blocks]
        omega
      simp only [ensureArraySize, List.length_nil, if_pos hblocks, realloc, Option.map_some] at hens
      cases hens
    subst hkept
    rw [hnone]
    exact ⟨h.count, sized_none 32 _, fun hne => absurd rfl hne⟩
  | some b =>
    have hshown := ensure_shows (by decide) h.sized h.shown hens
    obtain ⟨htail, hmem⟩ := resultLoop_gathers e.responses 0 e.read_responses (List.prefix_refl kept) hshown
    rw [hens] at hmono
    refine ⟨?_, ?_, ?_⟩
    · simp only
      rw [htail, UInt8.toNat_ofNat', Nat.mod_eq_of_lt (by omega)]
    · intro b' hb'
      cases hb'
      exact hmono b rfl
    · exact fun _ => ⟨_, rfl, hmem⟩

theorem stores_run : ∀ (events : List InquiryEvent) {a : ResponseArray InquiryResponse} {kept : List InquiryResponse},
    Stores a kept → (gather kept (events.map InquiryEvent.responses)).length ≤ 255 →
    Stores (Sys.run InquiryEvent.apply a events) (gather kept (events.map InquiryEvent.responses))
  | [], _, _, h, _ => h
  | e :: events, a, kept, h, hle => by
    have hkeep := length_le_gather (events.map InquiryEvent.responses) (kept ++ newcomers kept e.responses)
    exact stores_run events (stores_apply h e (Nat.le_trans hkeep hle)) hle

/-- What the client gets as long as the count holds what is kept. -/
theorem reply_of_le {events : List InquiryEvent} (hle : (gather [] (events.map InquiryEvent.responses)).length ≤ 255) :
    (inquiryReply events).list = gather [] (events.map InquiryEvent.responses) ∧
    (inquiryReply events).numResponses.toNat = (gather [] (events.map InquiryEvent.responses)).length := by
  have h := stores_run events stores_empty hle
  refine ⟨?_, h.count⟩
  generalize gather [] (events.map InquiryEvent.responses) = kept at h
  simp only [InquiryReply.list, inquiryReply, inquiryComplete, h.count]
  rcases List.eq_nil_or_concat kept with rfl | ⟨init, last, rfl⟩
  · cases (Sys.run InquiryEvent.apply ResponseArray.empty events).responses with
    | none => rfl
    | some b => rfl
  · obtain ⟨b, hb, hmem⟩ := h.shown (by simp)
    rw [Option.mem_def] at hb
    rw [hb]
    exact hmem.map_range

/-- **An inquiry delivers the distinct responses when no event has a newcomer twice and there are at most 255.**  As long
as the count holds what is kept, the first of these is also necessary, and the second always is. -/
theorem inquiry_delivers (events : List InquiryEvent) :
    (Unrepeated [] (events.map InquiryEvent.responses) ∧ (distinctResponses events).length ≤ 255 → ResultsDelivered events) ∧
    (ResultsDelivered events → (distinctResponses events).length ≤ 255) ∧
    ((gather [] (events.map InquiryEvent.responses)).length ≤ 255 →
      (ResultsDelivered events ↔ Unrepeated [] (events.map InquiryEvent.responses))) := by
  have hiff := gather_eq_iff (events.map InquiryEvent.responses)
  have hshort : (gather [] (events.map InquiryEvent.responses)).length ≤ 255 →
      (ResultsDelivered events ↔ Unrepeated [] (events.map InquiryEvent.responses)) := by
    intro hle
    obtain ⟨hlist, hnum⟩ := reply_of_le hle
    rw [ResultsDelivered, hlist, hnum, distinctResponses, hiff]
    exact ⟨fun h => h.1, fun h => ⟨h, by rw [hiff.2 h]⟩⟩
  refine ⟨?_, ?_, hshort⟩
  · rintro ⟨hun, hle⟩
    rw [distinctResponses, ← hiff.2 hun] at hle
    exact (hshort hle).2 hun
  · intro h
    have hlt := (inquiryReply events).numResponses.toNat_lt
    rw [h.2] at hlt
    omega

/-- Two responses of one event that are the same. -/
def twiceInOneEvent : InquiryEvent :=
  ⟨List.replicate 2 ⟨⟨1, 2, 3, 4, 5, 6⟩, 1, 0, 0, ⟨4, 1, 0⟩, 0⟩,
      by decide, fun _ => ⟨⟨0, 0, 0, 0, 0, 0⟩, 0, 0, 0, ⟨0, 0, 0⟩, 0, 0, 0⟩⟩

/-- Both are delivered. -/
theorem not_delivered_twice :
    (distinctResponses [twiceInOneEvent]).length = 1 ∧ (inquiryReply [twiceInOneEvent]).numResponses = 2 ∧
    ¬ ResultsDelivered [twiceInOneEvent] := by
  decide +kernel

end Bte
