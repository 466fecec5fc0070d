import BtEmbedded.Lib.Columns
import BtEmbedded.SdpArray
import BtEmbedded.SdpRepeat
/-!
# SdpUuidSearch — a search for a list of UUIDs (sdp.c)

`bte_sdp_service_search_req_uuid16` takes up to 12 UUIDs and encodes them into a local buffer of 32 bytes.  Nine take 29
bytes; ten take 32, which the writer does not fit into a buffer of that size, and it leaves the buffer as it was.  The
request is then made of whatever lies on the stack (`asksFor_iff`).
-/
namespace Bte

open Bytes Columns

/-! ## The code -/

/-- A number as it lies in memory. -/
def Endian.bytes (host : Endian) (w n : Nat) : List UInt8 :=
  match host with
  | .little => leBytes w n
  | .big => beBytes w n

/-- `bte_sdp_service_search_req_uuid16`; `stack` is what the local buffer holds before it is written, `behind` what lies
behind it. -/
def bteSdpServiceSearchReqUuid16 (host : Endian) (env : SdpEnv) (s : Sdp) (stack : { bs : List UInt8 // bs.length = 32 })
    (behind : List UInt8) (uuids : List UInt16) (maxCount cb userdata : Nat) : Option (Bool × Sdp) :=
  if uuids.length > 12 then some (false, s)
  else
    let buffer := (bteSdpDeWrite host (some stack.1) [intArg bteSdpDeTypeSequence, intArg (bteSdpDeArray uuids.length),
      intArg bteSdpDeTypeUuid16, .values (uuids.flatMap fun u => host.bytes 2 u.toNat), intArg bteSdpDeEnd,
      intArg bteSdpDeEnd]).mem
    bteSdpServiceSearchReq env s (buffer ++ behind) maxCount cb userdata

/-- The sequence of the UUIDs. -/
def uuidPattern (uuids : List UInt16) : De := .group .sequence (uuids.map fun u => .scalar (.uuid16 u.toBitVec))

/-- The message carries a search request with this pattern. -/
def CarriesSearch (ps : List Packet) (env : SdpEnv) (id : Nat) (pattern : De) (maxCount : Nat) : Prop :=
  ps.flatMap (Packet.payload 4) =
    leBytes 2 (pduHeaderSize + (pattern.encode.length + 2 + 1)) ++ leBytes 2 env.remoteChannelId ++
      (pduHeader pduIdServiceSearchReq id (pattern.encode.length + 2 + 1) ++ (pattern.encode ++ beBytes 2 maxCount ++ [0]))

/-- Whenever the list is accepted, the request that is sent asks for it, in packets that their blocks hold. -/
def AsksFor (host : Endian) (uuids : List UInt16) : Prop :=
  ∀ (env : SdpEnv) (s s' : Sdp) (stack : { bs : List UInt8 // bs.length = 32 }) (behind : List UInt8)
    (maxCount cb userdata : Nat), env.layout.sizeofBuffer + env.aclMtu < 65536 →
    bteSdpServiceSearchReqUuid16 host env s stack behind uuids maxCount cb userdata = some (true, s') →
    ∃ ps, s'.sent = s.sent ++ [ps] ∧ CarriesSearch ps env s.nextId (uuidPattern uuids) maxCount

/-! ## The pattern -/

theorem Endian.length_bytes (host : Endian) (w n : Nat) : (host.bytes w n).length = w := by
  cases host with
  | little => exact length_leBytes w n
  | big => exact length_beBytes w n

theorem Endian.turned_bytes (host : Endian) (w n : Nat) : host.turned (host.bytes w n) = beBytes w n := by
  cases host <;> rfl

theorem length_memory (host : Endian) (uuids : List UInt16) :
    (uuids.flatMap fun u => host.bytes 2 u.toNat).length = 2 * uuids.length :=
  length_flatMap_width (fun u : UInt16 => host.length_bytes 2 u.toNat) uuids

/-- The array the writer is given. -/
def uuidsArray (host : Endian) (uuids : List UInt16) (hn : uuids.length ≤ 12) : ValueArray :=
  ⟨bteSdpDeTypeUuid16, uuids.length, uuids.flatMap fun u => host.bytes 2 u.toNat, ⟨2, by decide⟩, by omega,
    Nat.le_of_eq (by rw [length_memory, Nat.mul_comm]; rfl)⟩

theorem encodeAll_uuids : ∀ uuids : List UInt16,
    encodeAll (uuids.map fun u => .scalar (.uuid16 u.toBitVec)) = uuids.flatMap fun u => 0x19 :: beBytes 2 u.toNat
  | [] => rfl
  | u :: uuids => by
    rw [List.map_cons, encodeAll, List.flatMap_cons, encodeAll_uuids uuids]
    rfl

theorem length_encodeAll_uuids (uuids : List UInt16) :
    (encodeAll (uuids.map fun u => .scalar (.uuid16 u.toBitVec))).length = 3 * uuids.length := by
  rw [encodeAll_uuids]
  exact length_flatMap_width (fun u : UInt16 => by rw [List.length_cons, length_beBytes]) uuids

theorem flatMap_range_getElem {α β : Type} (l : List α) (f : Nat → List β) (g : α → List β)
    (h : ∀ i (hi : i < l.length), f i = g l[i]) : (List.range l.length).flatMap f = l.flatMap g := by
  rw [List.flatMap_def, List.flatMap_def]
  congr 1
  refine List.ext_getElem (by simp) fun i h1 h2 => ?_
  rw [List.getElem_map, List.getElem_map, List.getElem_range]
  exact h i (by simpa using h2)

section Pattern

variable (host : Endian) {uuids : List UInt16} (hn : uuids.length ≤ 12)
include hn

theorem stored_uuids : (DeArray.values (uuidsArray host uuids hn)).stored host =
    encodeAll (uuids.map fun u => .scalar (.uuid16 u.toBitVec)) := by
  rw [encodeAll_uuids]
  refine (ValueArray.stored_eq host _).trans ?_
  refine flatMap_range_getElem uuids _ _ fun i hi => ?_
  have hstride : arrayStride bteSdpDeTypeUuid16 = 2 := rfl
  have hsrc : (uuidsArray host uuids hn).src i = host.bytes 2 uuids[i].toNat := by
    show slice _ (i * arrayStride bteSdpDeTypeUuid16) (arrayStride bteSdpDeTypeUuid16) = _
    rw [hstride]
    exact slice_flatMap_width (fun u : UInt16 => host.length_bytes 2 u.toNat) uuids hi
  rw [hsrc, host.turned_bytes]
  rfl

theorem reserved_uuids : (DeArray.values (uuidsArray host uuids hn)).reserved = 3 * uuids.length :=
  (ValueArray.reserved_eq (uuidsArray host uuids hn)
    (show ((uuidsArray host uuids hn).type, 2) ∈ scalarSizes from List.mem_of_elem_eq_true rfl)).1

/-- **What the writer leaves in the buffer**: the pattern, or what was there. -/
theorem buffer_uuids (stack : { bs : List UInt8 // bs.length = 32 }) :
    (bteSdpDeWrite host (some stack.1) [intArg bteSdpDeTypeSequence, intArg (bteSdpDeArray uuids.length),
      intArg bteSdpDeTypeUuid16, .values (uuids.flatMap fun u => host.bytes 2 u.toNat), intArg bteSdpDeEnd,
      intArg bteSdpDeEnd]).mem =
      if uuids.length ≤ 9 then blit stack.1 0 (uuidPattern uuids).encode else stack.1 := by
  have hres := reserved_uuids host hn
  obtain ⟨-, hwrite⟩ := deWrite_array host .sequence (.values (uuidsArray host uuids hn)) (by rw [hres]; omega)
    [intArg bteSdpDeEnd]
  have hheader : (varHeader bteSdpDeTypeSequence (3 * uuids.length)).length = 2 := by
    rw [varHeader, varSize, if_pos (by omega)]
    rfl
  have hstored := stored_uuids host hn
  have hlen := length_encodeAll_uuids uuids
  refine (hwrite stack.1).trans ?_
  show (if stack.1.length > (varHeader bteSdpDeTypeSequence _).length + _ then
    blit (blit stack.1 0 (varHeader bteSdpDeTypeSequence _)) (varHeader bteSdpDeTypeSequence _).length _ else _) = _
  rw [hres, hheader, stack.2, hstored]
  by_cases h9 : uuids.length ≤ 9
  · have hblit := @blit_blit _ stack.1 (varHeader bteSdpDeTypeSequence (3 * uuids.length))
      (encodeAll (uuids.map fun u => .scalar (.uuid16 u.toBitVec))) 0 (by rw [hheader, stack.2]; decide)
    rw [hheader, Nat.zero_add] at hblit
    rw [if_pos (by omega), if_pos h9, hblit, uuidPattern, De.encode, hlen]
    rfl
  · rw [if_neg (by omega), if_neg h9]

end Pattern

/-! ## The request -/

/-- A few bytes take no more than the size of a message can say. -/
theorem packetsNeeded_small {aclMtu size : Nat} (hm : 8 < aclMtu) (hm' : aclMtu < 65536) (hsize : size ≤ 64) :
    packetsNeeded aclMtu size * aclMtu < 65536 := by
  rw [packetsNeeded_eq]
  by_cases hone : 72 ≤ aclMtu
  · have hquot : (size + 4 + (aclMtu - 4) - 1) / (aclMtu - 4) = 1 := Nat.div_eq_of_lt_le (by omega) (by omega)
    rw [hquot]
    omega
  · have hle : (size + 4 + (aclMtu - 4) - 1) / (aclMtu - 4) ≤ size + 4 + (aclMtu - 4) - 1 := Nat.div_le_self ..
    calc _ ≤ 135 * 72 := Nat.mul_le_mul (by omega) (by omega)
      _ < 65536 := by decide

/-- Packets of eight bytes have no room for the header of a PDU. -/
theorem ptrN_small {w : BufferWriter} (hh : w.headerSize = 4) (hpos : 4 ≤ w.posInPacket)
    (hsizes : ∀ q ∈ w.buffer, q.size ≤ 8) : (bteBufferWriterPtrN w pduHeaderSize).1 = none := by
  have hpacket : w.packet.size ≤ 8 := hsizes w.packet (by simp [BufferWriter.buffer])
  unfold bteBufferWriterPtrN BufferWriter.turn pduHeaderSize
  by_cases hend : w.posInPacket ≥ w.packet.size
  · rw [if_pos hend]
    cases hn : w.next with
    | nil => rfl
    | cons q next =>
      have hq : q.size ≤ 8 := hsizes q (by simp [BufferWriter.buffer, hn])
      simp only [hh]
      rw [if_pos (by omega)]
  · rw [if_neg hend]
    simp only
    rw [if_pos (by omega)]

theorem writeL2capHeader_front {w : BufferWriter} (hh : w.headerSize = 4) (hpos : 4 ≤ w.posInPacket) (size channelId : Nat) :
    (w.writeL2capHeader size channelId).headerSize = 4 ∧ 4 ≤ (w.writeL2capHeader size channelId).posInPacket := by
  have hptr : (bteBufferWriterPtrN w l2capHdrLen).2.headerSize = 4 ∧
    4 ≤ (bteBufferWriterPtrN w l2capHdrLen).2.posInPacket := by
    have hturn : ∀ v, w.turn = some v → v.headerSize = 4 ∧ 4 ≤ v.posInPacket := by
      intro v hv
      unfold BufferWriter.turn at hv
      split at hv
      · cases hn : w.next with
        | nil => rw [hn] at hv; cases hv
        | cons q next =>
          rw [hn] at hv
          cases hv
          exact ⟨hh, Nat.le_of_eq hh.symm⟩
      · cases hv
        exact ⟨hh, hpos⟩
    unfold bteBufferWriterPtrN
    cases hv : w.turn with
    | none => exact ⟨hh, hpos⟩
    | some v =>
      obtain ⟨hh', hpos'⟩ := hturn v hv
      simp only
      split
      · exact ⟨hh', hpos'⟩
      · exact ⟨hh', Nat.le_trans hpos' (Nat.le_add_right ..)⟩
  unfold BufferWriter.writeL2capHeader
  generalize bteBufferWriterPtrN w l2capHdrLen = r at hptr
  rcases r with ⟨_ | pos, v⟩
  · exact hptr
  · exact hptr

section Request

variable {env : SdpEnv} {n : Nat}

/-- A writer of a PDU is behind the L2CAP header of a new message. -/
theorem createPdu_cases {code : UInt8} {id : Nat} {w : BufferWriter} (hn : n ≤ 59)
    (h : createPdu env code id n = some (some w)) :
    ∃ v, aclL2capCreateMessage env.mem env.aclMtu env.connHandle (pduHeaderSize + n) env.remoteChannelId = some v ∧
      v.fill pduHeaderSize (pduHeader code id n) = some w := by
  have hmod : (pduHeaderSize + n) % 65536 = pduHeaderSize + n := Nat.mod_eq_of_lt (by unfold pduHeaderSize; omega)
  unfold createPdu at h
  rw [hmod] at h
  split at h
  · cases h
  · split at h
    · cases h
    · rename_i v hv
      obtain ⟨w', hw', heq⟩ := Option.map_eq_some_iff.1 h
      cases heq
      refine ⟨v, ?_, hw'⟩
      unfold bteL2capCreateMessage at hv
      split at hv
      · cases hv
      · exact hv

/-- **A PDU is made only if its headers fit into the first packet.** -/
theorem createPdu_mtu {code : UInt8} {id : Nat} {w : BufferWriter} (hm' : env.aclMtu < 65536) (hn : n ≤ 59)
    (h : createPdu env code id n = some (some w)) : 13 ≤ env.aclMtu := by
  obtain ⟨v, hv, hfill⟩ := createPdu_cases hn h
  have hptr : (bteBufferWriterPtrN v pduHeaderSize).1.isSome := by
    unfold BufferWriter.fill at hfill
    split at hfill
    · cases hfill
    · rename_i heq
      rw [heq]
      rfl
  by_contra hlt
  rcases Nat.lt_or_ge 8 env.aclMtu with hm | hm
  · -- the L2CAP header is in the first packet, which has no room left for that of the PDU
    obtain ⟨-, -, hpos, hpacket, -⟩ := created_first hm hm'
      (packetsNeeded_small hm hm' (by unfold pduHeaderSize; omega)) hv
    unfold bteBufferWriterPtrN BufferWriter.turn pduHeaderSize at hptr
    rw [if_neg (by omega)] at hptr
    simp only at hptr
    rw [if_pos (by omega)] at hptr
    cases hptr
  · have hsizes := (created_sizes env.mem env.aclMtu env.connHandle (pduHeaderSize + n) env.remoteChannelId).2 v hv
    have hsmall : ∀ q ∈ v.buffer, q.size ≤ 8 := by
      intro q hq
      have hmem : q.size ∈ v.buffer.map Packet.size := List.mem_map_of_mem hq
      rw [hsizes, List.mem_map] at hmem
      obtain ⟨p, hp, hsize⟩ := hmem
      rw [← hsize]
      exact Nat.le_trans (allocLoop_sizes _ _ _ _ _ _ p hp) hm
    have hfront : v.headerSize = 4 ∧ 4 ≤ v.posInPacket := by
      unfold aclL2capCreateMessage bteAclCreateMessage at hv
      simp only [Option.map_eq_some_iff] at hv
      obtain ⟨u, hu, rfl⟩ := hv
      generalize aclHeaders _ _ _ _ _ _ = ps at hu
      cases ps with
      | nil => cases hu
      | cons head next =>
        cases hu
        exact writeL2capHeader_front rfl (Nat.le_refl 4) _ _
    rw [ptrN_small hfront.1 hfront.2 hsmall] at hptr
    cases hptr

/-- **A request that is made carries its parameters**, in as many packets as it takes. -/
theorem reqPacket_payloads {s s' : Sdp} {code : UInt8} {chunks : List (List UInt8)} {ps : List Packet}
    (hm' : env.aclMtu < 65536) (hsmall : chunks.flatten.length < 59)
    (hreq : reqPacket env s code chunks = some (some ps, s')) :
    s'.sent = s.sent ∧ ps.flatMap (Packet.payload 4) =
      leBytes 2 (pduHeaderSize + (chunks.flatten.length + 1)) ++ leBytes 2 env.remoteChannelId ++
        (pduHeader code s.nextId (chunks.flatten.length + 1) ++ (chunks.flatten ++ [0])) := by
  have hmod : (chunks.flatten.length + 1) % 65536 = chunks.flatten.length + 1 := Nat.mod_eq_of_lt (by omega)
  simp only [reqPacket, hmod] at hreq
  cases hpdu : createPdu env code s.nextId (chunks.flatten.length + 1) with
  | none => rw [hpdu] at hreq; cases hreq
  | some made =>
    cases made with
    | none => rw [hpdu] at hreq; cases hreq
    | some w =>
      rw [hpdu] at hreq
      simp only at hreq
      have hm := createPdu_mtu hm' hsmall hpdu
      obtain ⟨v, hv, hfill⟩ := createPdu_cases hsmall hpdu
      have hsize : pduHeaderSize + (chunks.flatten.length + 1) ≤ 64 := by unfold pduHeaderSize; omega
      have hfit := packetsNeeded_small (show 8 < env.aclMtu by omega) hm' hsize
      have hneed := packetsNeeded_spec (show 4 < env.aclMtu by omega) (pduHeaderSize + (chunks.flatten.length + 1))
      obtain ⟨hwf, hhdr, hpos, hpacket, hroom, hwr, hframes⟩ := created_first (by omega) hm' hfit hv
      have hlen := length_pduHeader code s.nextId (chunks.flatten.length + 1)
      obtain ⟨hfill', -, -⟩ := @fill_eq_write v (pduHeader code s.nextId (chunks.flatten.length + 1))
        (by rw [hlen]; decide) (by rw [hlen, hpos, hpacket]; unfold pduHeaderSize; omega)
      rw [hlen, hfill, Option.some.injEq] at hfill'
      subst hfill'
      split at hreq
      · cases hreq
      split at hreq
      · cases hreq
      rw [Option.some.injEq, Prod.mk.injEq, Option.some.injEq] at hreq
      obtain ⟨rfl, rfl⟩ := hreq
      refine ⟨rfl, ?_⟩
      -- all that is written, as one series of writes
      have hflat : ([pduHeader code s.nextId (chunks.flatten.length + 1)] ++ (chunks ++ [[0]])).flatten =
          pduHeader code s.nextId (chunks.flatten.length + 1) ++ (chunks.flatten ++ [0]) := by
        simp only [List.flatten_append, List.flatten_cons, List.flatten_nil, List.append_nil]
      have hflatLen : ([pduHeader code s.nextId (chunks.flatten.length + 1)] ++ (chunks ++ [[0]])).flatten.length =
          pduHeaderSize + (chunks.flatten.length + 1) := by
        rw [hflat, List.length_append, List.length_append, hlen, List.length_singleton]
      obtain ⟨-, hwf', hhdr', hwr', hframes'⟩ := writeAll_spec
        ([pduHeader code s.nextId (chunks.flatten.length + 1)] ++ (chunks ++ [[0]])) hwf
        (by rw [← List.length_flatten, hflatLen]; omega)
      rw [hhdr] at hhdr' hframes'
      have hnext := next_of_written hwf' hhdr'
        (show (packetsNeeded env.aclMtu (pduHeaderSize + (chunks.flatten.length + 1)) - 1) * (env.aclMtu - 4) <
          pduHeaderSize + (chunks.flatten.length + 1) + 4 by
            have := hneed.2.1
            unfold messageTotal l2capHdrLen at this
            omega)
        (by rw [hwr', hwr, List.length_append, List.length_append, hflatLen, length_leBytes, length_leBytes]; omega)
        (hframes'.trans hframes)
      have hpay := writerEnd_payloads hhdr' hnext
      rw [writeAll_append, writeAll_append] at hpay hwr'
      rw [hwr', hwr, hflat] at hpay
      exact hpay

end Request

theorem sdpRequest_accepted {env : SdpEnv} {s s' : Sdp} {packet : Option (Option (List Packet) × Sdp)} {data : SdpReqData}
    (h : sdpRequest env s packet data = some (true, s')) :
    ∃ ps s₁, packet = some (some ps, s₁) ∧ s'.sent = s₁.sent ++ [ps] := by
  unfold sdpRequest at h
  split at h
  · cases h
  · split at h
    · cases h
    · cases h
    · rename_i ps s₁
      split at h
      · cases h
      · rename_i hrc
        cases h
        refine ⟨ps, s₁, rfl, ?_⟩
        simp only [Sdp.submit]
        rw [if_pos (by omega)]

theorem length_uuidPattern {uuids : List UInt16} (hn : uuids.length ≤ 12) :
    (uuidPattern uuids).encode.length = 2 + 3 * uuids.length := by
  have hheader : (varHeader bteSdpDeTypeSequence (3 * uuids.length)).length = 2 := by
    rw [varHeader, varSize, if_pos (by omega)]
    rfl
  rw [uuidPattern, De.encode, List.length_append, length_encodeAll_uuids]
  exact congrArg (· + 3 * uuids.length) hheader

/-- Ten to twelve UUIDs are not asked for: a stack of zeros reads as a NIL, which is sent. -/
theorem not_asksFor {host : Endian} {uuids : List UInt16} (h9 : 9 < uuids.length) (hn : uuids.length ≤ 12) :
    ¬ AsksFor host uuids := by
  intro h
  have hbuffer := buffer_uuids host hn ⟨List.replicate 32 0, rfl⟩
  rw [if_neg (by omega)] at hbuffer
  obtain ⟨ps, s', hreq, -, ⟨p, cid, rfl, -, hpay⟩, -, hsent, -⟩ := sdpRequest_fits (s := bteSdpClientNew 0) rfl
    pduIdServiceSearchReq [[0], beBytes 2 0] (show readyEnv.Accepts 4 by decide)
    { (bteSdpClientNew 0).reqData with cb := 7, userdata := 9 }
  have haccepted : bteSdpServiceSearchReqUuid16 host readyEnv (bteSdpClientNew 0) ⟨List.replicate 32 0, rfl⟩ [] uuids 0 7 9 =
      some (true, s') := by
    rw [bteSdpServiceSearchReqUuid16, if_neg (by omega)]
    simp only
    rw [hbuffer]
    exact hreq
  obtain ⟨ps', hsent', hcarries⟩ := h readyEnv _ s' _ [] 0 7 9 (by decide) haccepted
  rw [hsent] at hsent'
  obtain rfl : [p] = ps' := by simpa using hsent'
  have hlen := congrArg List.length hcarries
  have hflat : [[0], beBytes 2 0].flatten.length = 3 := rfl
  rw [List.flatMap_singleton, hpay] at hlen
  simp only [List.length_append, length_leBytes, length_beBytes, length_pduHeader, length_uuidPattern hn, hflat,
    List.length_singleton] at hlen
  omega

/-- **The request is for the UUIDs that were given just when these are at most nine**, or so many that they are refused. -/
theorem asksFor_iff (host : Endian) (uuids : List UInt16) :
    AsksFor host uuids ↔ uuids.length ≤ 9 ∨ 12 < uuids.length := by
  constructor
  · intro h
    by_contra hcount
    exact not_asksFor (by omega) (by omega) h
  · rintro hcount env s s' stack behind maxCount cb userdata hblocks haccepted
    have hm' : env.aclMtu < 65536 := by omega
    unfold bteSdpServiceSearchReqUuid16 at haccepted
    split at haccepted
    · cases haccepted
    · rename_i hle
      have h9 : uuids.length ≤ 9 := by omega
      have hpattern := @length_uuidPattern uuids (by omega)
      have hde : deBytes (blit stack.1 0 (uuidPattern uuids).encode ++ behind) = (uuidPattern uuids).encode := by
        rw [blit, List.take_zero, List.nil_append, List.append_assoc, deBytes, encode_totalSize _ (by omega),
          List.take_left']
        rfl
      simp only [buffer_uuids host (show uuids.length ≤ 12 by omega), if_pos h9] at haccepted
      obtain ⟨ps, s₁, hreq, hsent⟩ := sdpRequest_accepted haccepted
      rw [serviceSearchReqPacket, hde] at hreq
      have hflat : [(uuidPattern uuids).encode, beBytes 2 maxCount].flatten = (uuidPattern uuids).encode ++
          beBytes 2 maxCount := by
        simp only [List.flatten_cons, List.flatten_nil, List.append_nil]
      have hflatLen : [(uuidPattern uuids).encode, beBytes 2 maxCount].flatten.length =
          (uuidPattern uuids).encode.length + 2 := by
        rw [hflat, List.length_append, length_beBytes]
      obtain ⟨hsame, hpay⟩ := reqPacket_payloads hm' (by rw [hflatLen]; omega) hreq
      refine ⟨ps, by rw [hsent, hsame], ?_⟩
      rw [hflatLen, hflat] at hpay
      exact hpay

/-- Ten UUIDs. -/
def tenUuids : List UInt16 := [0x1101, 0x1102, 0x1103, 0x1104, 0x1105, 0x1106, 0x1107, 0x1108, 0x1109, 0x110a]

/-- Of ten UUIDs nothing is written: what lay on the stack, here a sequence of one other UUID, is what is asked for. -/
theorem not_asksFor_ten :
    ¬ AsksFor .little tenUuids ∧
    ∃ s', bteSdpServiceSearchReqUuid16 .little readyEnv (bteSdpClientNew 0)
        ⟨[0x35, 3, 0x19, 0x12, 0x34] ++ List.replicate 27 0, rfl⟩ [] tenUuids 5 7 9 = some (true, s') ∧
      s'.sent.map (·.flatMap (Packet.payload 4)) =
        [[13, 0, 0x41, 0, 2, 0, 0, 0, 8, 0x35, 3, 0x19, 0x12, 0x34, 0, 5, 0]] :=
  ⟨not_asksFor (by decide) (by decide), _, rfl, by decide +kernel⟩

end Bte
