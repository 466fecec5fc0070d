import BtEmbedded.Lib.Cursor
import BtEmbedded.ObexDiscovery
/-!
# SdpLoop — the loop over a sequence (services/sdp.c)

`while (bte_sdp_de_reader_next(&reader))` goes over a sequence that a remote device sent.  A turn adds the size in the header
of the current element to the offset, whatever it is: the header and the announced data may add up to nothing in 32 bits,
and the offset may come round to where it was, or become negative.  The loop is a `Cursor` of 32 bits, and the offset an
`int`.
-/
namespace Bte

open Cursor (move position Passable AllPassable Forward)

/-- The reader after `k` calls of `bte_sdp_de_reader_next`. -/
def nextCalls (r : DeReader) (k : Nat) : DeReader := (fun r => (bteSdpDeReaderNext r).2)^[k] r

/-- Every call after the one that sets the flag returns false or moves on, and some call returns false. -/
structure LoopEnds (r : DeReader) : Prop where
  advances : ∀ k, (nextCalls r k).nextCalled = true → (bteSdpDeReaderNext (nextCalls r k)).1 = true →
    asInt (nextCalls r k).offset < asInt (nextCalls r (k + 1)).offset
  ends : ∃ k, (bteSdpDeReaderNext (nextCalls r k)).1 = false

/-- The size of the element at an offset. -/
def DeReader.sizeAt (r : DeReader) (off : Nat) : Nat := bteSdpDeGetTotalSize (r.de.drop off)

/-- No element from the current one to the end of the sequence has the size 0, starts at an offset that is no `int`, or
ends at
one of 2 ^ 32 or more. -/
structure DeReader.Passes (r : DeReader) : Prop where
  steps : AllPassable (2 ^ 32) r.sizeAt r.seqEnd r.offset
  low : ∀ k, (∀ j ≤ k, position r.sizeAt j r.offset < r.seqEnd) → position r.sizeAt k r.offset < 2 ^ 31

theorem seqEnd_le (r : DeReader) : r.seqEnd ≤ 2 ^ 32 := by
  unfold DeReader.seqEnd
  omega

theorem sizeAt_lt (r : DeReader) (off : Nat) : r.sizeAt off < 2 ^ 32 := by
  unfold DeReader.sizeAt bteSdpDeGetTotalSize
  omega

/-! ## One call -/

section Calls

variable {r : DeReader}

theorem next_stop (h : r.seqEnd ≤ r.offset) : bteSdpDeReaderNext r = (false, r) := by
  unfold bteSdpDeReaderNext
  rw [if_pos h]
  split <;> rfl

theorem next_mark (hdepth : 0 < r.depth) (h : r.offset < r.seqEnd) (hcalled : r.nextCalled = false) :
    bteSdpDeReaderNext r = (true, { r with nextCalled := true }) := by
  unfold bteSdpDeReaderNext
  rw [if_neg (by omega), if_neg (by omega), if_pos hcalled]

theorem next_move (hdepth : 0 < r.depth) (h : r.offset < r.seqEnd) (hcalled : r.nextCalled = true) :
    bteSdpDeReaderNext r =
      (decide (move (2 ^ 32) r.sizeAt r.offset < r.seqEnd), { r with offset := move (2 ^ 32) r.sizeAt r.offset }) := by
  unfold bteSdpDeReaderNext
  rw [if_neg (by omega), if_neg (by omega), if_neg (by simp [hcalled])]
  rfl

theorem nextCalls_succ (r : DeReader) (k : Nat) : nextCalls r (k + 1) = (bteSdpDeReaderNext (nextCalls r k)).2 :=
  Function.iterate_succ_apply' ..

/-- Once the flag is set the reader moves as the cursor does, until it is at the end or behind it. -/
theorem nextCalls_moving (hdepth : 0 < r.depth) (hcalled : r.nextCalled = true) :
    ∀ k, (∀ j < k, (move (2 ^ 32) r.sizeAt)^[j] r.offset < r.seqEnd) →
      nextCalls r k = { r with offset := (move (2 ^ 32) r.sizeAt)^[k] r.offset }
  | 0, _ => rfl
  | k + 1, h => by
    rw [nextCalls_succ, nextCalls_moving hdepth hcalled k fun j hj => h j (by omega), Function.iterate_succ_apply']
    have hnext := next_move (r := { r with offset := (move (2 ^ 32) r.sizeAt)^[k] r.offset }) hdepth
      (h k (Nat.lt_succ_self k)) hcalled
    rw [hnext]
    rfl

/-- A reader at the end or behind it stays where it is. -/
theorem nextCalls_stopped {j : Nat} (h : (nextCalls r j).seqEnd ≤ (nextCalls r j).offset) :
    ∀ k, j ≤ k → nextCalls r k = nextCalls r j := by
  intro k hk
  induction k, hk using Nat.le_induction with
  | base => rfl
  | succ k _ ih => rw [nextCalls_succ, ih, next_stop h]

end Calls

/-! ## The loop -/

section Loop

variable {r : DeReader}

/-- The cursor stays below 2 ^ 31 as long as it is before the end. -/
def StaysLow (r : DeReader) : Prop :=
  ∀ k, (∀ j ≤ k, (move (2 ^ 32) r.sizeAt)^[j] r.offset < r.seqEnd) → (move (2 ^ 32) r.sizeAt)^[k] r.offset < 2 ^ 31

/-- A larger `int` than one that is not negative. -/
theorem lt_of_asInt_lt {a b : Nat} (ha : a < 2 ^ 31) (hb : b < 2 ^ 32) (h : asInt a < asInt b) : a < b ∧ b < 2 ^ 31 := by
  have hlow : b < 2 ^ 31 := by
    rw [asInt_of_lt ha] at h
    unfold asInt at h
    rw [BitVec.toInt_eq_toNat_cond, BitVec.toNat_ofNat, Nat.mod_eq_of_lt hb] at h
    split at h <;> omega
  rw [asInt_of_lt ha, asInt_of_lt hlow] at h
  exact ⟨Int.ofNat_lt.1 h, hlow⟩

/-- With the flag set, the loop ends exactly if the cursor goes forward, and its offset stays an `int`. -/
theorem loopEnds_iff_forward (hdepth : 0 < r.depth) (hcalled : r.nextCalled = true) (hlow : r.offset < 2 ^ 31) :
    LoopEnds r ↔ Forward (2 ^ 32) r.sizeAt r.seqEnd r.offset ∧ StaysLow r := by
  have hat := nextCalls_moving hdepth hcalled
  constructor
  · intro h
    -- a call that returns true goes on to a larger offset
    have hadv : ∀ k, (∀ j ≤ k + 1, (move (2 ^ 32) r.sizeAt)^[j] r.offset < r.seqEnd) →
        asInt ((move (2 ^ 32) r.sizeAt)^[k] r.offset) < asInt ((move (2 ^ 32) r.sizeAt)^[k + 1] r.offset) := by
      intro k hbefore
      have hk := hat k fun j hj => hbefore j (by omega)
      have hnext := next_move (r := nextCalls r k) (by rw [hk]; exact hdepth) (by rw [hk]; exact hbefore k (by omega))
        (by rw [hk]; exact hcalled)
      have hadv := h.advances k (by rw [hk]; exact hcalled)
      rw [hat (k + 1) fun j hj => hbefore j (by omega), hnext, hk, decide_eq_true_eq] at hadv
      refine hadv ?_
      have hlast := hbefore (k + 1) le_rfl
      rwa [Function.iterate_succ_apply'] at hlast
    have hstays : StaysLow r := by
      intro k
      induction k with
      | zero => exact fun _ => hlow
      | succ k ih =>
        intro hbefore
        refine (lt_of_asInt_lt (ih fun j hj => hbefore j (by omega)) ?_ (hadv k hbefore)).2
        exact Nat.lt_of_lt_of_le (hbefore (k + 1) le_rfl) (seqEnd_le r)
    refine ⟨fun k hbefore => ?_, hstays⟩
    by_cases hlt : (move (2 ^ 32) r.sizeAt)^[k + 1] r.offset < r.seqEnd
    · refine (lt_of_asInt_lt (hstays k hbefore) (Nat.lt_of_lt_of_le hlt (seqEnd_le r)) (hadv k fun j hj => ?_)).1
      rcases Nat.lt_or_eq_of_le hj with hj | rfl
      · exact hbefore j (by omega)
      · exact hlt
    · exact Nat.lt_of_lt_of_le (hbefore k le_rfl) (Nat.not_lt.1 hlt)
  · rintro ⟨h, hstays⟩
    obtain ⟨n, hbefore, hstop⟩ := h.ends
    have hn := hat n hbefore
    have hend : (nextCalls r n).seqEnd ≤ (nextCalls r n).offset := by
      rw [hn]
      exact hstop
    refine ⟨fun k hk hmore => ?_, n, by rw [next_stop hend]⟩
    have hkn : k < n := by
      by_contra hle
      rw [nextCalls_stopped hend k (by omega), next_stop hend] at hmore
      cases hmore
    have hk := hat k fun j hj => hbefore j (by omega)
    have hnext := next_move (r := nextCalls r k) (by rw [hk]; exact hdepth) (by rw [hk]; exact hbefore k hkn)
      (by rw [hk]; exact hcalled)
    rw [hnext, hk, decide_eq_true_eq] at hmore
    rw [hk, hat (k + 1) fun j hj => hbefore j (by omega)]
    have hlt : ∀ j ≤ k + 1, (move (2 ^ 32) r.sizeAt)^[j] r.offset < r.seqEnd := by
      intro j hj
      rcases Nat.lt_or_eq_of_le hj with hj | rfl
      · exact hbefore j (by omega)
      · rw [Function.iterate_succ_apply']
        exact hmore
    have hforward := h k fun j hj => hlt j (by omega)
    simp only
    rw [asInt_of_lt (hstays k fun j hj => hlt j (by omega)), asInt_of_lt (hstays (k + 1) hlt)]
    exact Int.ofNat_lt.2 hforward

/-- The first call only sets the flag. -/
theorem loopEnds_mark (hdepth : 0 < r.depth) (hlt : r.offset < r.seqEnd) (hcalled : r.nextCalled = false) :
    LoopEnds r ↔ LoopEnds { r with nextCalled := true } := by
  have hmark := next_mark hdepth hlt hcalled
  have hcalls : ∀ k, nextCalls r (k + 1) = nextCalls { r with nextCalled := true } k := fun k => by
    rw [nextCalls, Function.iterate_succ_apply, hmark]
    rfl
  constructor
  · intro h
    refine ⟨fun k => ?_, ?_⟩
    · have hk := h.advances (k + 1)
      rwa [hcalls, hcalls] at hk
    · obtain ⟨k, hk⟩ := h.ends
      cases k with
      | zero =>
        rw [nextCalls, Function.iterate_zero_apply, hmark] at hk
        cases hk
      | succ k => exact ⟨k, by rwa [hcalls] at hk⟩
  · intro h
    refine ⟨fun k hk hmore => ?_, ?_⟩
    · cases k with
      | zero =>
        rw [nextCalls, Function.iterate_zero_apply, hcalled] at hk
        cases hk
      | succ k =>
        rw [hcalls] at hk hmore
        rw [hcalls, hcalls]
        exact h.advances k hk hmore
    · obtain ⟨k, hk⟩ := h.ends
      exact ⟨k + 1, by rwa [hcalls]⟩

theorem loopEnds_stop (h : r.seqEnd ≤ r.offset) : LoopEnds r := by
  refine ⟨fun k _ hmore => ?_, 0, by rw [nextCalls, Function.iterate_zero_apply, next_stop h]⟩
  rw [nextCalls_stopped (j := 0) h k (Nat.zero_le k), nextCalls, Function.iterate_zero_apply, next_stop h] at hmore
  cases hmore

end Loop

/-- The elements are where the cursor is. -/
theorem staysLow_iff (r : DeReader) (h : AllPassable (2 ^ 32) r.sizeAt r.seqEnd r.offset) :
    StaysLow r ↔ ∀ k, (∀ j ≤ k, position r.sizeAt j r.offset < r.seqEnd) → position r.sizeAt k r.offset < 2 ^ 31 := by
  constructor
  · intro hstays k hbefore
    have hat : ∀ j ≤ k, (move (2 ^ 32) r.sizeAt)^[j] r.offset = position r.sizeAt j r.offset := fun j hj =>
      Cursor.iterate_move fun i hi => h i fun l hl => hbefore l (by omega)
    rw [← hat k le_rfl]
    exact hstays k fun j hj => hat j hj ▸ hbefore j hj
  · intro hlow k hbefore
    have hat : ∀ j ≤ k, (move (2 ^ 32) r.sizeAt)^[j] r.offset = position r.sizeAt j r.offset := fun j hj =>
      h.iterate_move j fun i hi => hbefore i (by omega)
    rw [hat k le_rfl]
    exact hlow k fun j hj => hat j hj ▸ hbefore j hj

/-- **A loop over a sequence goes forward and ends exactly if the sizes of its elements let it**: none of the elements from
the current one on is empty in 32 bits, none starts where no `int` gets to, and none takes the offset past 32 bits. -/
theorem loopEnds_iff (r : DeReader) (hdepth : 0 < r.depth) (hlow : r.offset < 2 ^ 31) : LoopEnds r ↔ r.Passes := by
  by_cases hlt : r.offset < r.seqEnd
  · have hforward : Forward (2 ^ 32) r.sizeAt r.seqEnd r.offset ∧ StaysLow r ↔ r.Passes := by
      rw [Cursor.forward_iff (seqEnd_le r) (sizeAt_lt r)]
      exact ⟨fun h => ⟨h.1, (staysLow_iff r h.1).1 h.2⟩, fun h => ⟨h.steps, (staysLow_iff r h.steps).2 h.low⟩⟩
    cases hcalled : r.nextCalled with
    | true => exact (loopEnds_iff_forward hdepth hcalled hlow).trans hforward
    | false =>
      rw [loopEnds_mark hdepth hlt hcalled]
      exact (loopEnds_iff_forward (r := { r with nextCalled := true }) hdepth rfl hlow).trans hforward
  · exact iff_of_true (loopEnds_stop (by omega)) ⟨fun k hbefore => absurd (hbefore 0 (Nat.zero_le k)) hlt,
      fun k hbefore => absurd (hbefore 0 (Nat.zero_le k)) hlt⟩

/-- A sequence of two numbers, entered. -/
theorem loopEnds_iff_numbers : LoopEnds ⟨[0x35, 4, 0x08, 1, 0x08, 2], 2, 0, 1, false⟩ := by
  refine (loopEnds_iff _ (by decide) (by decide)).2 ⟨fun k hbefore => ?_, fun k hbefore => ?_⟩
  · match k with
    | 0 => exact ⟨by decide, by decide⟩
    | 1 => exact ⟨by decide, by decide⟩
    | k + 2 => exact absurd (hbefore 2 (by omega)) (by decide)
  · match k with
    | 0 => decide
    | 1 => decide
    | k + 2 => exact absurd (hbefore 2 (by omega)) (by decide)

/-- A sequence with one string, of 2 ^ 32 - 5 bytes as its header has it, entered. -/
def emptyInWord : DeReader := ⟨[0x35, 5, 0x27, 0xff, 0xff, 0xff, 0xfb], 2, 0, 1, false⟩

/-- One with a string of 2 ^ 31 bytes, at the string. -/
def largeString : DeReader := ⟨[0x37, 0xff, 0xff, 0xff, 0, 0x27, 0x80, 0, 0, 0], 5, 0, 1, true⟩

/-- The loop over the one does not end, and the other sends the reader in front of the bytes. -/
theorem not_loopEnds :
    (¬ LoopEnds emptyInWord ∧ ∀ k, (bteSdpDeReaderNext (nextCalls emptyInWord k)).1 = true) ∧
    ¬ LoopEnds largeString ∧ (bteSdpDeReaderNext largeString).1 = true ∧
      asInt (bteSdpDeReaderNext largeString).2.offset = -2147483638 := by
  have hstuck : ∀ k, nextCalls emptyInWord (k + 1) = { emptyInWord with nextCalled := true } := fun k => by
    induction k with
    | zero => rfl
    | succ k ih =>
      rw [nextCalls_succ, ih]
      decide
  have hmore : ∀ k, (bteSdpDeReaderNext (nextCalls emptyInWord k)).1 = true := fun k => by
    cases k with
    | zero => decide
    | succ k =>
      rw [hstuck]
      decide
  have hnegative : asInt (bteSdpDeReaderNext largeString).2.offset = -2147483638 := by decide
  refine ⟨⟨fun h => ?_, hmore⟩, fun h => ?_, by decide, hnegative⟩
  · obtain ⟨k, hk⟩ := h.ends
    rw [hmore k] at hk
    cases hk
  · have hadv : asInt largeString.offset < asInt (bteSdpDeReaderNext largeString).2.offset := h.advances 0 rfl (by decide)
    rw [hnegative] at hadv
    exact absurd hadv (by decide)

/-- A record with one attribute, whose value is such a string. -/
def emptyInWordRecord : List UInt8 := [0x35, 10, 0x35, 8, 0x09, 0, 1, 0x27, 0xff, 0xff, 0xff, 0xfb]

/-- The loop over the attributes takes the value for the next attribute, again and again. -/
theorem discoverAttributes_stuck (inner : Nat) (reply : ObexDiscoverReply) :
    ∀ fuel, discoverAttributes inner fuel ⟨emptyInWordRecord, 7, 2, 2, true⟩ reply = none
  | 0 => rfl
  | fuel + 1 => by
    have hnext : bteSdpDeReaderNext ⟨emptyInWordRecord, 7, 2, 2, true⟩ = (true, ⟨emptyInWordRecord, 7, 2, 2, true⟩) := by
      decide
    have hid : bteSdpDeReaderReadUint16 ⟨emptyInWordRecord, 7, 2, 2, true⟩ = 0 := by decide
    rw [discoverAttributes, hnext]
    simp only [discoverAttribute, hnext, hid, bteSdpAttrIdProtoDescList, bteSdpAttrIdGoepL2capPsm]
    exact discoverAttributes_stuck inner reply fuel

/-- **A discovery that is told this record does not come back.** -/
theorem serviceSearchAttrCb_stuck (dd : DiscoverData) : ∀ fuel, serviceSearchAttrCb fuel dd 0 emptyInWordRecord = none
  | 0 => rfl
  | fuel + 1 => by
    have hrecord : bteSdpDeReaderNext ⟨emptyInWordRecord, 2, 0, 1, false⟩ =
        (true, ⟨emptyInWordRecord, 2, 0, 1, true⟩) := by decide
    have hid : bteSdpDeReaderNext ⟨emptyInWordRecord, 4, 2, 2, false⟩ = (true, ⟨emptyInWordRecord, 4, 2, 2, true⟩) := by
      decide
    have hvalue : bteSdpDeReaderNext ⟨emptyInWordRecord, 4, 2, 2, true⟩ =
        (true, ⟨emptyInWordRecord, 7, 2, 2, true⟩) := by decide
    have hattrId : bteSdpDeReaderReadUint16 ⟨emptyInWordRecord, 4, 2, 2, true⟩ = 1 := by decide
    have henter : bteSdpDeReaderEnter (bteSdpDeReaderInit emptyInWordRecord) =
        (true, ⟨emptyInWordRecord, 2, 0, 1, false⟩) := by decide
    have henterRecord : bteSdpDeReaderEnter ⟨emptyInWordRecord, 2, 0, 1, true⟩ =
        (true, ⟨emptyInWordRecord, 4, 2, 2, false⟩) := by decide
    have hattributes : discoverAttributes (fuel + 1) (fuel + 1) ⟨emptyInWordRecord, 4, 2, 2, false⟩ ⟨0, 0⟩ = none := by
      rw [discoverAttributes, hid]
      simp only [discoverAttribute, hvalue, hattrId, bteSdpAttrIdProtoDescList, bteSdpAttrIdGoepL2capPsm]
      exact discoverAttributes_stuck (fuel + 1) ⟨0, 0⟩ fuel
    have hrecords : discoverRecords (fuel + 1) (fuel + 1) ⟨emptyInWordRecord, 2, 0, 1, false⟩ ⟨0, 0⟩ = none := by
      rw [discoverRecords, hrecord]
      simp only [henterRecord, hattributes]
    unfold serviceSearchAttrCb
    rw [if_neg (by decide), henter]
    simp only [hrecords, Option.map_none]

end Bte
