import BtEmbedded.SdpAttr
/-!
# SdpAccept — what the parser of an attribute reply accepts (sdp.c)

`parse_service_attr_reply` subtracts the announced number of attribute bytes from a 16-bit counter before it looks at what
is left, and reads the header of the list before it knows that there is one.  The second is harmless: an accepted reply
that has its attribute bytes has the header too (`header_inside`).  The first is not (`acceptsReceived_iff`).

The parameters are the memory from the area on: its `paramLen` bytes, and what lies behind them.
-/
namespace Bte

open Bytes

/-! ## The checks -/

/-- The three fields that a reply is cut by. -/
def attrBytes (params : List UInt8) : Nat := beVal (slice params 0 2)
def attrIdList (params : List UInt8) : List UInt8 := params.drop 2
def attrContState (params : List UInt8) : List UInt8 := (attrIdList params).drop (attrBytes params)

/-- The parser accepts the reply. -/
def AcceptsReply (env : SdpEnv) (data : SdpReqData) (params : List UInt8) (paramLen : Nat) : Prop :=
  ∃ r data', parseServiceAttrReply env data params paramLen = some (some r, data')

/-- What the parser compares with the size of the list: a list in one reply has to be whole; a fragment has to fit behind
the ones before, and the last one has to end the list. -/
def ListAgrees (env : SdpEnv) (data : SdpReqData) (attrsSize : Nat) (idList : List UInt8) (state : UInt8) : Prop :=
  match data.attrListDe with
  | none =>
    if state = 0 then attrsSize = bteSdpDeGetTotalSize idList
    else bteSdpDeGetTotalSize idList < 0x10000 ∧ env.attrHeap ≠ none ∧
      data.written + attrsSize ≤ bteSdpDeGetTotalSize idList
  | some list =>
    data.written + attrsSize ≤ bteSdpDeGetTotalSize list ∧
    (state = 0 → (data.written + attrsSize) % 65536 = bteSdpDeGetTotalSize list)

/-- Everything the parser checks but for the attribute bytes: the continuation state fits into what the counter says is
left, and the sizes of the list agree. -/
def OtherChecks (env : SdpEnv) (data : SdpReqData) (params : List UInt8) (paramLen : Nat) : Prop :=
  3 ≤ paramLen ∧ contStateLen (some (attrContState params)) ≤ 17 ∧
  contStateLen (some (attrContState params)) ≤ sub16 (paramLen - 2) (attrBytes params) ∧
  ListAgrees env data (attrBytes params) (attrIdList params) ((attrContState params).getD 0 0)

theorem storeFragment_accepts (data : SdpReqData) (totalSize attrsSize : Nat) (idList contState : List UInt8) :
    (∃ r data', storeFragment data totalSize attrsSize idList contState = some (some r, data')) ↔
      data.written + attrsSize ≤ totalSize ∧ data.attrListDe ≠ none ∧
      (contState.getD 0 0 = 0 → (data.written + attrsSize) % 65536 = totalSize) := by
  unfold storeFragment
  by_cases hover : data.written + attrsSize > totalSize
  · rw [if_pos hover]
    exact iff_of_false (by simp) fun h => Nat.not_lt.2 h.1 hover
  rw [if_neg hover]
  cases hlist : data.attrListDe with
  | none => exact iff_of_false (by simp) fun h => h.2.1 rfl
  | some list =>
    simp only
    by_cases hend : contState.getD 0 0 = 0 ∧ (data.written + attrsSize) % 65536 ≠ totalSize
    · rw [if_pos hend]
      exact iff_of_false (by simp) fun h => hend.2 (h.2.2 hend.1)
    · rw [if_neg hend]
      refine iff_of_true ⟨_, _, rfl⟩ ⟨Nat.not_lt.1 hover, Option.some_ne_none _, fun h0 => ?_⟩
      by_contra hne
      exact hend ⟨h0, hne⟩

theorem storeAttrList_accepts (env : SdpEnv) (data : SdpReqData) (attrsSize : Nat) (idList contState : List UInt8) :
    (∃ r data', storeAttrList env data attrsSize idList contState = some (some r, data')) ↔
      ListAgrees env data attrsSize idList (contState.getD 0 0) := by
  unfold storeAttrList ListAgrees
  cases hlist : data.attrListDe with
  | some list =>
    simp only
    rw [storeFragment_accepts, hlist]
    simp
  | none =>
    simp only
    by_cases h0 : contState.getD 0 0 = 0
    · rw [if_neg (not_not_intro h0), if_pos h0]
      by_cases hne : attrsSize = bteSdpDeGetTotalSize idList
      · rw [if_neg (not_not_intro hne)]
        exact iff_of_true ⟨_, _, rfl⟩ hne
      · rw [if_pos hne]
        exact iff_of_false (by simp) hne
    · rw [if_pos h0, if_neg h0]
      by_cases hbig : bteSdpDeGetTotalSize idList ≥ 0x10000
      · rw [if_pos hbig]
        exact iff_of_false (by simp) fun h => Nat.not_lt.2 hbig h.1
      · rw [if_neg hbig, storeFragment_accepts]
        have hheap : bteMalloc env.attrHeap (bteSdpDeGetTotalSize idList) ≠ none ↔ env.attrHeap ≠ none := by
          cases env.attrHeap <;> simp [bteMalloc]
        simp only [hheap, h0, false_imp_iff, and_true]
        exact ⟨fun h => ⟨Nat.not_le.1 hbig, h.2, h.1⟩, fun h => ⟨h.2.2, h.2.1⟩⟩

/-- **What the parser accepts.** -/
theorem acceptsReply_iff (env : SdpEnv) (data : SdpReqData) (params : List UInt8) (paramLen : Nat) :
    AcceptsReply env data params paramLen ↔ OtherChecks env data params paramLen := by
  have hparse : parseServiceAttrReply env data params paramLen =
      if paramLen < 3 then some (none, data)
      else if sub16 (paramLen - 2) (attrBytes params) < 1 then some (none, data)
      else if contStateLen (some (attrContState params)) > 17 ∨
        contStateLen (some (attrContState params)) > sub16 (paramLen - 2) (attrBytes params) then some (none, data)
      else storeAttrList env data (attrBytes params) (attrIdList params) (attrContState params) := rfl
  have hstate : 1 ≤ contStateLen (some (attrContState params)) := Nat.le_add_right ..
  unfold AcceptsReply OtherChecks
  rw [hparse, ← storeAttrList_accepts]
  by_cases h3 : paramLen < 3
  · rw [if_pos h3]
    exact iff_of_false (by simp) fun h => Nat.not_lt.2 h.1 h3
  rw [if_neg h3]
  by_cases hrem : sub16 (paramLen - 2) (attrBytes params) < 1
  · rw [if_pos hrem]
    exact iff_of_false (by simp) fun h => by omega
  rw [if_neg hrem]
  by_cases hlen : contStateLen (some (attrContState params)) > 17 ∨
      contStateLen (some (attrContState params)) > sub16 (paramLen - 2) (attrBytes params)
  · rw [if_pos hlen]
    exact iff_of_false (by simp) fun h => by omega
  · rw [if_neg hlen]
    obtain ⟨h17, hleft⟩ := not_or.1 hlen
    exact ⟨fun h => ⟨Nat.not_lt.1 h3, Nat.not_lt.1 h17, Nat.not_lt.1 hleft, h⟩, fun h => h.2.2.2⟩

/-! ## What lies behind the area -/

/-- The ranges of the parameters that the parser reads, copies or hands over when it accepts: the number of attribute
bytes, these bytes, the continuation state, and if it has no list yet, the header of the element. -/
def attrReads (data : SdpReqData) (params : List UInt8) : List (Nat × Nat) :=
  [(0, 2), (2, attrBytes params), (2 + attrBytes params, contStateLen (some (attrContState params)))] ++
    if data.attrListDe = none then [(2, bteSdpDeGetHeaderSize (attrIdList params))] else []

/-- A reply that is accepted has what it announces, and nothing behind it is read. -/
def AcceptsReceived (env : SdpEnv) (data : SdpReqData) (params : List UInt8) (paramLen : Nat) : Prop :=
  AcceptsReply env data params paramLen →
    2 + attrBytes params + contStateLen (some (attrContState params)) ≤ paramLen ∧
    contStateLen (some (attrContState params)) ≤ 17 ∧ ∀ r ∈ attrReads data params, r.1 + r.2 ≤ paramLen

/-- The bytes of a header. -/
theorem sizes_of_bytes (b0 b1 b2 b3 b4 : UInt8) (rest : List UInt8) :
    beVal (slice (b0 :: b1 :: b2 :: b3 :: b4 :: rest) 1 2) = b1.toNat * 256 + b2.toNat ∧
    beVal (slice (b0 :: b1 :: b2 :: b3 :: b4 :: rest) 1 4) =
      b1.toNat * 2 ^ 24 + b2.toNat * 2 ^ 16 + b3.toNat * 256 + b4.toNat := by
  constructor
  · simp [slice, beVal, leVal]
    omega
  · simp [slice, beVal, leVal]
    omega

/-- What the parser finds out about a list in its first reply: it is whole if `state`, the byte behind the attribute bytes,
is 0, and not too long otherwise. -/
def SizeAgrees (total attrsSize state : Nat) : Prop := if state = 0 then attrsSize = total else total < 0x10000

/-- A length of two bytes, of which the second is the state. -/
theorem overlap16 {b1 b2 : Nat} (h1 : b1 < 256) (h2 : b2 < 256) (hsize : SizeAgrees ((3 + (b1 * 256 + b2)) % 2 ^ 32) 1 b1) :
    3 ≤ 1 + (1 + b1) := by
  unfold SizeAgrees at hsize
  split at hsize <;> omega

/-- A length of four bytes, of which one is the state. -/
theorem overlap32 {b1 b2 b3 b4 attrsSize state : Nat} (h1 : b1 < 256) (h2 : b2 < 256) (h3 : b3 < 256) (h4 : b4 < 256)
    (hat : attrsSize = 1 ∧ state = b1 ∨ attrsSize = 2 ∧ state = b2 ∨ attrsSize = 3 ∧ state = b3) (h17 : 1 + state ≤ 17)
    (hsize : SizeAgrees ((5 + (b1 * 2 ^ 24 + b2 * 2 ^ 16 + b3 * 256 + b4)) % 2 ^ 32) attrsSize state) :
    5 ≤ attrsSize + (1 + state) := by
  unfold SizeAgrees at hsize
  rcases hat with ⟨rfl, rfl⟩ | ⟨rfl, rfl⟩ | ⟨rfl, rfl⟩
  · split at hsize <;> omega
  · split at hsize <;> omega
  · split at hsize <;> omega

/-- **The header of a list whose bytes are there is there too**: where it is longer than what the reply has, the byte that
would be both in the length and the continuation state makes the list too long. -/
theorem header_inside {idList : List UInt8} {attrsSize : Nat} (hlen : 5 ≤ idList.length)
    (h17 : contStateLen (some (idList.drop attrsSize)) ≤ 17)
    (hlist : if (idList.drop attrsSize).getD 0 0 = 0 then attrsSize = bteSdpDeGetTotalSize idList
      else bteSdpDeGetTotalSize idList < 0x10000) :
    bteSdpDeGetHeaderSize idList ≤ attrsSize + contStateLen (some (idList.drop attrsSize)) := by
  have hcl : contStateLen (some (idList.drop attrsSize)) = 1 + ((idList.drop attrsSize).getD 0 0).toNat := rfl
  have hstate : (idList.drop attrsSize).getD 0 0 = idList.getD attrsSize 0 := by
    rw [List.getD_eq_getElem?_getD, List.getD_eq_getElem?_getD, List.getElem?_drop, Nat.add_zero]
  rw [hstate] at hcl hlist
  rw [hcl] at h17 ⊢
  have hsize : SizeAgrees (bteSdpDeGetTotalSize idList) attrsSize (idList.getD attrsSize 0).toNat := by
    have hzero : (idList.getD attrsSize 0).toNat = 0 ↔ idList.getD attrsSize 0 = 0 := by
      rw [← UInt8.toNat_inj]
      rfl
    simp only [SizeAgrees, hzero]
    exact hlist
  obtain ⟨b0, b1, b2, b3, b4, rest, rfl⟩ : ∃ b0 b1 b2 b3 b4 rest, idList = b0 :: b1 :: b2 :: b3 :: b4 :: rest := by
    match idList, hlen with
    | b0 :: b1 :: b2 :: b3 :: b4 :: rest, _ => exact ⟨b0, b1, b2, b3, b4, rest, rfl⟩
  have hid : deSizeId (b0 :: b1 :: b2 :: b3 :: b4 :: rest) ≤ b0.toNat := Nat.and_le_left
  obtain ⟨h16, h32⟩ := sizes_of_bytes b0 b1 b2 b3 b4 rest
  unfold bteSdpDeGetTotalSize bteSdpDeGetDataSize at hsize
  unfold bteSdpDeGetHeaderSize at hsize ⊢
  rw [h16, h32] at hsize
  generalize deSizeId (b0 :: b1 :: b2 :: b3 :: b4 :: rest) = id at *
  -- with no attribute byte the state is the first byte of the header, which is not less than the size id in it
  have hstart : attrsSize = 0 → id ≤ ((b0 :: b1 :: b2 :: b3 :: b4 :: rest).getD attrsSize 0).toNat := fun h => by
    rw [h]
    exact hid
  by_cases h5 : id = bteSdpDeSizeVar8
  · rw [if_pos h5]
    unfold bteSdpDeSizeVar8 at h5
    omega
  by_cases h6 : id = bteSdpDeSizeVar16
  · simp only [if_neg h5, if_pos h6] at hsize ⊢
    unfold bteSdpDeSizeVar16 at h6
    obtain h0 | rfl | htwo : attrsSize = 0 ∨ attrsSize = 1 ∨ 2 ≤ attrsSize := by omega
    · have hle := hstart h0
      omega
    · exact overlap16 b1.toNat_lt b2.toNat_lt hsize
    · omega
  by_cases h7 : id = bteSdpDeSizeVar32
  · simp only [if_neg h5, if_neg h6, if_pos h7] at hsize ⊢
    unfold bteSdpDeSizeVar32 at h7
    obtain h0 | rfl | rfl | rfl | hfour :
      attrsSize = 0 ∨ attrsSize = 1 ∨ attrsSize = 2 ∨ attrsSize = 3 ∨ 4 ≤ attrsSize := by omega
    · have hle := hstart h0
      omega
    · exact overlap32 b1.toNat_lt b2.toNat_lt b3.toNat_lt b4.toNat_lt (.inl ⟨rfl, rfl⟩) h17 hsize
    · exact overlap32 b1.toNat_lt b2.toNat_lt b3.toNat_lt b4.toNat_lt (.inr (.inl ⟨rfl, rfl⟩)) h17 hsize
    · exact overlap32 b1.toNat_lt b2.toNat_lt b3.toNat_lt b4.toNat_lt (.inr (.inr ⟨rfl, rfl⟩)) h17 hsize
    · omega
  · rw [if_neg h5, if_neg h6, if_neg h7]
    omega

/-- **An accepted reply has what it announces** exactly if the attribute bytes are there, or something else is amiss. -/
theorem acceptsReceived_iff (env : SdpEnv) (data : SdpReqData) {params : List UInt8} {paramLen : Nat}
    (hlen : paramLen < 65536) (hmem : 7 ≤ params.length) : AcceptsReceived env data params paramLen ↔
      2 + attrBytes params ≤ paramLen ∨ ¬ OtherChecks env data params paramLen := by
  constructor
  · intro h
    by_contra hbad
    obtain ⟨hshort, hchecks⟩ := not_or.1 hbad
    obtain ⟨hin, -⟩ := h ((acceptsReply_iff ..).2 (not_not.1 hchecks))
    exact hshort (Nat.le_trans (Nat.le_add_right ..) hin)
  · intro h haccept
    have hchecks := (acceptsReply_iff ..).1 haccept
    have hattrs := h.resolve_right (not_not_intro hchecks)
    obtain ⟨h3, h17, hleft, hlist⟩ := hchecks
    rw [sub16_of_le (by omega) (by omega)] at hleft
    refine ⟨by omega, h17, ?_⟩
    intro r hr
    rcases List.mem_append.1 hr with hr | hr
    · simp only [List.mem_cons, List.not_mem_nil, or_false] at hr
      rcases hr with rfl | rfl | rfl <;> simp only <;> omega
    · split at hr
      · rename_i hnone
        rw [List.mem_singleton.1 hr]
        have hheader : bteSdpDeGetHeaderSize (attrIdList params) ≤
            attrBytes params + contStateLen (some (attrContState params)) := by
          refine header_inside (by rw [attrIdList, List.length_drop]; omega) h17 ?_
          unfold ListAgrees at hlist
          rw [hnone] at hlist
          simp only at hlist
          rw [← attrContState]
          split at hlist
          · rename_i h0
            rw [if_pos h0]
            exact hlist
          · rename_i h0
            rw [if_neg h0]
            exact hlist.1
        show 2 + bteSdpDeGetHeaderSize (attrIdList params) ≤ paramLen
        omega
      · cases hr

/-- A client that has nothing of the list yet. -/
def noList : SdpReqData := ⟨7, 9, none, 0⟩

/-- Three bytes of parameters that announce two of attributes; `0x55` and what follows lie behind them. -/
def cutReply : List UInt8 := [0, 2, 0x08, 0x55, 0, 0, 0]

theorem cutReply_accepted : AcceptsReply readyEnv noList cutReply 3 := ⟨_, _, rfl⟩

/-- A whole reply is accepted for what it is; of the cut one this cannot be said. -/
theorem acceptsReceived_iff_cut :
    AcceptsReceived readyEnv noList [0, 5, 0x35, 3, 0x19, 0x11, 0x22, 0] 8 ∧
    ¬ AcceptsReceived readyEnv noList cutReply 3 := by
  constructor
  · rw [acceptsReceived_iff _ _ (by decide) (by decide)]
    exact Or.inl (by decide)
  · rw [acceptsReceived_iff _ _ (by decide) (by decide)]
    rintro (hattrs | hrefused)
    · exact absurd hattrs (by decide)
    · exact hrefused ((acceptsReply_iff ..).1 cutReply_accepted)

/-- The cut reply is accepted, and the list that the client's function gets ends with a byte that nobody sent. -/
theorem not_acceptsReceived :
    parseServiceAttrReply readyEnv noList cutReply 3 = some (some ([0x08, 0x55, 0, 0, 0], [0, 0, 0]), noList) ∧
    ¬ AcceptsReceived readyEnv noList cutReply 3 := by
  refine ⟨rfl, fun h => ?_⟩
  exact absurd (h cutReply_accepted).1 (by decide)

end Bte
