import BtEmbedded.SdpValue
import BtEmbedded.SdpWalk
/-!
# ObexDiscovery — what a discovery finds (services/obex.c)

`service_search_attr_cb` goes over an attribute list with one reader: records, in a record pairs of an id and a value, in the
value of one attribute protocol descriptors.  The other values are stepped over, whatever they are.  On a reply of the
expected shape the loops fold over the tree (`discoverRecords_spec`), so that what they find is a property of the tree:
`replyOf`.
-/
namespace Bte

open Bytes

/-! ## The code -/

def bteSdpProtoRfcomm : Nat := 0x0003
def bteSdpAttrIdProtoDescList : Nat := 0x0004
def bteSdpAttrIdGoepL2capPsm : Nat := 0x0200

/-- The body of the loop of `find_rfcomm_channel`: no channel after a `goto error`, nothing at all if it does not come
back. -/
def findRfcommEntry (r : DeReader) (channelId : Nat) : Option (Option Nat × DeReader) :=
  match bteSdpDeReaderEnter r with
  | (false, r) => some (none, r)
  | (true, r) =>
    match bteSdpDeReaderNext r with
    | (false, r) => some (none, r)
    | (true, r) =>
      let found :=
        if bteSdpDeReaderReadUuid16 r = bteSdpProtoRfcomm then
          match bteSdpDeReaderNext r with
          | (true, r) => (bteSdpDeReaderReadUint8 r, r)
          | (false, r) => (channelId, r)
        else (channelId, r)
      (bteSdpDeReaderLeave found.2).map fun x => (if x.1 then some found.1 else none, x.2)

def findRfcommLoop : Nat → DeReader → Nat → Option (Option Nat × DeReader)
  | 0, _, _ => none
  | fuel + 1, r, channelId =>
    match bteSdpDeReaderNext r with
    | (false, r) => (bteSdpDeReaderLeave r).map fun x => (if x.1 then some channelId else none, x.2)
    | (true, r) =>
      match findRfcommEntry r channelId with
      | none => none
      | some (none, r) => some (none, r)
      | some (some channelId, r) => findRfcommLoop fuel r channelId

/-- The channel and `is_error`. -/
def findRfcommChannel (fuel : Nat) (r : DeReader) : Option ((Nat × Bool) × DeReader) :=
  match bteSdpDeReaderEnter r with
  | (false, r) => some ((0, true), r)
  | (true, r) => (findRfcommLoop fuel r 0).map fun x => (x.1.elim (0, true) fun channelId => (channelId, false), x.2)

structure ObexDiscoverReply where
  oppL2capPsm : Nat
  oppRfcommChannel : Nat
deriving DecidableEq

/-- The body of the loop over the attributes of a record; false for a `goto error`. -/
def discoverAttribute (fuel : Nat) (r : DeReader) (reply : ObexDiscoverReply) :
    Option (Bool × ObexDiscoverReply × DeReader) :=
  let attrId := bteSdpDeReaderReadUint16 r
  match bteSdpDeReaderNext r with
  | (false, r) => some (false, reply, r)
  | (true, r) =>
    if attrId = bteSdpAttrIdProtoDescList then
      (findRfcommChannel fuel r).map fun x => (!x.1.2, { reply with oppRfcommChannel := x.1.1 }, x.2)
    else if attrId = bteSdpAttrIdGoepL2capPsm then
      some (true, { reply with oppL2capPsm := bteSdpDeReaderReadUint16 r }, r)
    else some (true, reply, r)

def discoverAttributes (inner : Nat) : Nat → DeReader → ObexDiscoverReply → Option (Bool × ObexDiscoverReply × DeReader)
  | 0, _, _ => none
  | fuel + 1, r, reply =>
    match bteSdpDeReaderNext r with
    | (false, r) => some (true, reply, r)
    | (true, r) =>
      match discoverAttribute inner r reply with
      | none => none
      | some (false, reply, r) => some (false, reply, r)
      | some (true, reply, r) => discoverAttributes inner fuel r reply

def discoverRecords (inner : Nat) : Nat → DeReader → ObexDiscoverReply → Option ObexDiscoverReply
  | 0, _, _ => none
  | fuel + 1, r, reply =>
    match bteSdpDeReaderNext r with
    | (false, _) => some reply
    | (true, r) =>
      match bteSdpDeReaderEnter r with
      | (false, _) => some reply
      | (true, r) =>
        match discoverAttributes inner inner r reply with
        | none => none
        | some (false, reply, _) => some reply
        | some (true, reply, r) =>
          match bteSdpDeReaderLeave r with
          | none => none
          | some (false, _) => some reply
          | some (true, r) => discoverRecords inner fuel r reply

structure DiscoverData where
  client : Nat
  callback : Nat
  userdata : Nat

inductive ObexEvent
  | sdpClientUnref
  | callback (f client : Nat) (reply : ObexDiscoverReply) (userdata : Nat)
  | free

/-- `service_search_attr_cb`: what it does, if it comes back within `fuel` turns of each loop. -/
def serviceSearchAttrCb (fuel : Nat) (dd : DiscoverData) (errorCode : Nat) (attrListDe : List UInt8) :
    Option (List ObexEvent) :=
  let reply :=
    if errorCode ≠ 0 then some ⟨0, 0⟩
    else
      match bteSdpDeReaderEnter (bteSdpDeReaderInit attrListDe) with
      | (false, _) => some ⟨0, 0⟩
      | (true, r) => discoverRecords fuel fuel r ⟨0, 0⟩
  reply.map fun reply => [.sdpClientUnref, .callback dd.callback dd.client reply dd.userdata, .free]

/-! ## The tree -/

/-- The number in an element with some type byte and a value of `n` bytes. -/
def Element.number? (type : UInt8) (n : Nat) : Element → Option Nat
  | .leaf (b :: bs) => if b = type ∧ bs.length = n then some (beVal bs) else none
  | _ => none

def Element.uint8? (t : Element) : Option Nat := t.number? 0x08 1
def Element.uint16? (t : Element) : Option Nat := t.number? 0x09 2
def Element.uuid16? (t : Element) : Option Nat := t.number? 0x19 2

def Element.children : Element → List Element
  | .leaf _ => []
  | .group _ _ ts => ts

/-- The channel that a protocol descriptor gives, if it is of RFCOMM and has one. -/
def rfcommChannel : Element → Option Nat
  | .group _ _ (uuid :: channel :: _) => if uuid.uuid16? = some bteSdpProtoRfcomm then channel.uint8? else none
  | _ => none

/-- The last channel in a list of protocol descriptors. -/
def channelIn (list : Element) : Nat := (list.children.filterMap rfcommChannel).getLast?.getD 0

/-- The ids and values of a record that alternates between them. -/
def attributesOf : List Element → Option (List (Nat × Element))
  | [] => some []
  | [_] => none
  | id :: value :: rest => id.uint16?.bind fun i => (attributesOf rest).map ((i, value) :: ·)

/-- All attributes, in document order. -/
def Element.attributes (t : Element) : List (Nat × Element) := t.children.flatMap fun r => (attributesOf r.children).getD []

/-- The value of the last attribute with some id. -/
def lastValue (id : Nat) (attributes : List (Nat × Element)) : Option Element :=
  (attributes.filter (·.1 = id)).getLast?.map Prod.snd

/-- **What a discovery is to find.** -/
def replyOf (t : Element) : ObexDiscoverReply where
  oppL2capPsm := ((lastValue bteSdpAttrIdGoepL2capPsm t.attributes).bind Element.uint16?).getD 0
  oppRfcommChannel := ((lastValue bteSdpAttrIdProtoDescList t.attributes).map channelIn).getD 0

/-- A protocol descriptor begins with a 16-bit UUID; that of RFCOMM goes on with a UINT8, if at all. -/
def ProtocolEntry : Element → Prop
  | .group _ _ (uuid :: rest) =>
    uuid.uuid16?.isSome ∧ (uuid.uuid16? = some bteSdpProtoRfcomm → ∀ channel ∈ rest.head?, channel.uint8?.isSome)
  | _ => False

/-- The values that are looked at are of the types that are expected. -/
structure AttributeOk (a : Nat × Element) : Prop where
  protocols : a.1 = bteSdpAttrIdProtoDescList → ∃ k w es, a.2 = .group k w es ∧ es ≠ [] ∧ ∀ e ∈ es, ProtocolEntry e
  psm : a.1 = bteSdpAttrIdGoepL2capPsm → a.2.uint16?.isSome

/-- A record is not empty, and alternates 16-bit ids and values. -/
def RecordOk (t : Element) : Prop :=
  ∃ k w ts attributes, t = .group k w ts ∧ ts ≠ [] ∧ attributesOf ts = some attributes ∧ ∀ a ∈ attributes, AttributeOk a

/-- **The shape of an attribute-list reply**: any number of records. -/
def AttributeListReply (t : Element) : Prop := ∃ k w records, t = .group k w records ∧ ∀ r ∈ records, RecordOk r

/-! ## What is read at the cursor -/

section Discovery

variable {de : List UInt8} {f : Frame} {fs : List Frame}

theorem number?_some {type : UInt8} {n v : Nat} {t : Element} (h : t.number? type n = some v) :
    ∃ bs : List UInt8, t = .leaf (type :: bs) ∧ bs.length = n ∧ beVal bs = v := by
  cases t with
  | leaf bytes =>
    cases bytes with
    | nil => cases h
    | cons b bs =>
      simp only [Element.number?, Option.ite_none_right_eq_some, Option.some.injEq] at h
      obtain ⟨⟨rfl, hlen⟩, hval⟩ := h
      exact ⟨bs, rfl, hlen, hval⟩
  | group k w ts => cases h

/-- The element at the cursor, once `next` has found it. -/
theorem current_readerOf (h : Stack de (f :: fs)) {t : Element} (ht : f.children[f.index]? = some t) :
    ∃ rest, deGetCurrent (readerOf de true (f :: fs)) = some (t.encode ++ rest) := by
  obtain ⟨hi, -⟩ := List.getElem?_eq_some_iff.1 ht
  obtain ⟨⟨rest, hrest⟩, -⟩ := h.lies.child ht
  have hlt := (offset_lt_iff h).2 hi
  have hsmall := h.lies.small
  refine ⟨rest, ?_⟩
  have hon : ¬ ((readerOf de true (f :: fs)).depth > 0 ∧ ((readerOf de true (f :: fs)).nextCalled = false ∨
      asInt (readerOf de true (f :: fs)).offset ≥ asInt (readerOf de true (f :: fs)).seqEnd)) := by
    rw [seqEnd_readerOf h true, asInt_of_lt hsmall,
      asInt_of_lt (show (readerOf de true (f :: fs)).offset < 2 ^ 31 from Nat.lt_trans hlt hsmall)]
    rintro ⟨-, hflag | hend⟩
    · cases hflag
    · exact absurd hlt (Nat.not_lt.2 (Int.ofNat_le.1 hend))
  rw [deGetCurrent, if_neg hon]
  exact congrArg some hrest

/-- A number of 16 bits, or a UUID. -/
theorem readUint16_readerOf (h : Stack de (f :: fs)) {t : Element} (ht : f.children[f.index]? = some t) {v : Nat}
    (hv : t.uint16? = some v ∨ t.uuid16? = some v) : bteSdpDeReaderReadUint16 (readerOf de true (f :: fs)) = v := by
  obtain ⟨type, bs, htype, rfl, hlen, rfl⟩ : ∃ (type : UInt8) (bs : List UInt8), (type = 0x09 ∨ type = 0x19) ∧
      t = .leaf (type :: bs) ∧ bs.length = 2 ∧ beVal bs = v := by
    rcases hv with hv | hv
    · obtain ⟨bs, h⟩ := number?_some hv
      exact ⟨_, bs, .inl rfl, h⟩
    · obtain ⟨bs, h⟩ := number?_some hv
      exact ⟨_, bs, .inr rfl, h⟩
  obtain ⟨x, y, rfl⟩ := List.length_eq_two.1 hlen
  obtain ⟨rest, hcurrent⟩ := current_readerOf h ht
  have hscalar : (type.toNat, 2) ∈ scalarSizes := by
    rcases htype with rfl | rfl
    · decide
    · decide
  obtain ⟨-, hheader, hdata⟩ := scalarByte_accessors hscalar ([x, y] ++ rest)
  unfold bteSdpDeReaderReadUint16 deGetData
  rw [hcurrent, Element.encode, List.cons_append, Option.bind_some, hheader, hdata]
  rfl

theorem readUint8_readerOf (h : Stack de (f :: fs)) {t : Element} (ht : f.children[f.index]? = some t) {v : Nat}
    (hv : t.uint8? = some v) : bteSdpDeReaderReadUint8 (readerOf de true (f :: fs)) = v := by
  obtain ⟨bs, rfl, hlen, rfl⟩ := number?_some hv
  obtain ⟨x, rfl⟩ := List.length_eq_one_iff.1 hlen
  obtain ⟨rest, hcurrent⟩ := current_readerOf h ht
  obtain ⟨-, hheader, hdata⟩ := @scalarByte_accessors 0x08 1 (by decide) ([x] ++ rest)
  have hval : beVal [x] = x.toNat := by simp [beVal, leVal]
  unfold bteSdpDeReaderReadUint8 deGetData
  rw [hcurrent, Element.encode, List.cons_append, Option.bind_some, hheader, hdata, hval]
  rfl

/-! ## Protocol descriptors -/

/-- **One descriptor**: the reader is back at it, with the channel it gives. -/
theorem rfcommEntry_spec (h : Stack de (f :: fs)) {t : Element} (ht : f.children[f.index]? = some t) (hok : ProtocolEntry t)
    (hd : (f :: fs).length < 255) (channelId : Nat) :
    findRfcommEntry (readerOf de true (f :: fs)) channelId =
      some (some ((rfcommChannel t).getD channelId), readerOf de true (f :: fs)) := by
  cases t with
  | leaf bs => exact hok.elim
  | group k w ts =>
    cases ts with
    | nil => exact hok.elim
    | cons uuid rest =>
      obtain ⟨hsome, hchannel⟩ := hok
      obtain ⟨v, hv⟩ := Option.isSome_iff_exists.1 hsome
      have hin := stack_push h ht
      have hleave : ∀ i, i ≤ (uuid :: rest).length →
          bteSdpDeReaderLeave (readerOf de true (⟨f.offset, k, w, uuid :: rest, i⟩ :: f :: fs)) =
            some (true, readerOf de true (f :: fs)) := fun i hi => leave_frame (hin.moved hi) hd true
      unfold findRfcommEntry
      rw [enter_group h true ht hd]
      simp only
      rw [next_first hin (Nat.succ_pos _)]
      simp only
      rw [bteSdpDeReaderReadUuid16, readUint16_readerOf hin rfl (.inr hv)]
      by_cases hr : v = bteSdpProtoRfcomm
      · rw [if_pos hr, next_more hin (Nat.succ_pos _)]
        cases rest with
        | nil =>
          simp only [List.length_cons, List.length_nil, Nat.zero_add, Nat.lt_irrefl, decide_false]
          rw [hleave 1 (Nat.le_refl _)]
          rfl
        | cons channel rest =>
          obtain ⟨c, hc⟩ := Option.isSome_iff_exists.1 (hchannel (hv.trans (congrArg some hr)) channel rfl)
          have hmoved := hin.moved (i := 1) (by simp)
          simp only [List.length_cons, Nat.zero_add]
          rw [decide_eq_true (by omega)]
          simp only
          rw [readUint8_readerOf hmoved rfl hc, hleave 1 (by simp)]
          simp [rfcommChannel, hv, hr, hc]
      · rw [if_neg hr]
        simp only
        rw [hleave 0 (Nat.zero_le _)]
        have hnone : rfcommChannel (.group k w (uuid :: rest)) = none := by
          cases rest with
          | nil => rfl
          | cons channel rest => simp [rfcommChannel, hv, hr]
        rw [hnone]
        rfl

/-- After the last child `next` fails. -/
theorem next_rest_nil (h : Stack de (f :: fs)) (hi : f.index < f.children.length)
    (hdrop : f.children.drop (f.index + 1) = []) : bteSdpDeReaderNext (readerOf de true (f :: fs)) =
      (false, readerOf de true ({ f with index := f.children.length } :: fs)) := by
  have hlen : f.index + 1 = f.children.length := by
    have := List.drop_eq_nil_iff.1 hdrop
    omega
  rw [next_more h hi, hlen, decide_eq_false (Nat.lt_irrefl _)]

/-- Before it, it finds one more. -/
theorem next_rest_cons (h : Stack de (f :: fs)) (hi : f.index < f.children.length) {t : Element} {ts : List Element}
    (hdrop : f.children.drop (f.index + 1) = t :: ts) :
    bteSdpDeReaderNext (readerOf de true (f :: fs)) = (true, readerOf de true ({ f with index := f.index + 1 } :: fs)) ∧
      Stack de ({ f with index := f.index + 1 } :: fs) ∧ f.children[f.index + 1]? = some t ∧
      f.index + 1 < f.children.length ∧ f.children.drop (f.index + 1 + 1) = ts := by
  have hi' : f.index + 1 < f.children.length := by
    have := congrArg List.length hdrop
    simp only [List.length_drop, List.length_cons] at this
    omega
  have ht : f.children[f.index + 1]? = some t := by
    rw [← List.head?_drop, hdrop]
    rfl
  have hdrop' : f.children.drop (f.index + 1 + 1) = ts := by
    rw [← List.drop_drop, hdrop]
    rfl
  refine ⟨?_, h.moved (by omega), ht, hi', hdrop'⟩
  rw [next_more h hi, decide_eq_true hi']

/-- What a descriptor makes of the channel found so far. -/
def channelStep (channelId : Nat) (t : Element) : Nat := (rfcommChannel t).getD channelId

/-- The descriptors after the one at the cursor. -/
theorem rfcommRest_spec {g : Frame} : ∀ (ts : List Element) {f : Frame} (fuel channelId : Nat), Stack de (f :: g :: fs) →
    f.index < f.children.length → f.children.drop (f.index + 1) = ts → (∀ t ∈ ts, ProtocolEntry t) →
    (f :: g :: fs).length < 255 → ts.length < fuel →
    findRfcommLoop fuel (readerOf de true (f :: g :: fs)) channelId =
      some (some (ts.foldl channelStep channelId), readerOf de true (g :: fs))
  | _, _, 0, _, _, _, _, _, _, hfuel => absurd hfuel (Nat.not_lt_zero _)
  | [], f, fuel + 1, channelId, h, hi, hdrop, _, hd, _ => by
    rw [findRfcommLoop, next_rest_nil h hi hdrop]
    simp only
    rw [leave_frame (h.moved (Nat.le_refl _)) (Nat.lt_of_succ_lt hd) true]
    rfl
  | t :: ts, f, fuel + 1, channelId, h, hi, hdrop, hok, hd, hfuel => by
    obtain ⟨hnext, hmoved, ht, hi', hdrop'⟩ := next_rest_cons h hi hdrop
    rw [findRfcommLoop, hnext]
    simp only
    rw [rfcommEntry_spec hmoved ht (hok t (List.mem_cons_self ..)) hd]
    exact rfcommRest_spec ts fuel _ hmoved hi' hdrop' (fun u hu => hok u (List.mem_cons_of_mem t hu)) hd
      (Nat.lt_of_succ_lt_succ hfuel)

theorem foldl_channelStep : ∀ (ts : List Element) (channelId : Nat),
    ts.foldl channelStep channelId = (ts.filterMap rfcommChannel).getLast?.getD channelId
  | [], _ => rfl
  | t :: ts, channelId => by
    rw [List.foldl_cons, foldl_channelStep ts, channelStep, List.filterMap_cons]
    cases rfcommChannel t with
    | none => rfl
    | some c =>
      rw [List.getLast?_cons]
      cases (ts.filterMap rfcommChannel).getLast? <;> rfl

/-- **A list of descriptors**: the reader is back at it, with the last channel. -/
theorem rfcommChannel_spec (h : Stack de (f :: fs)) {k : GroupKind} {w : LenWidth} {ts : List Element}
    (ht : f.children[f.index]? = some (.group k w ts)) (hne : ts ≠ []) (hok : ∀ t ∈ ts, ProtocolEntry t)
    (hd : (f :: fs).length < 254) {fuel : Nat} (hfuel : ts.length < fuel) :
    findRfcommChannel fuel (readerOf de true (f :: fs)) =
      some ((channelIn (.group k w ts), false), readerOf de true (f :: fs)) := by
  obtain ⟨t, ts, rfl⟩ := List.exists_cons_of_ne_nil hne
  have hin := stack_push h ht
  have hd' : (⟨f.offset, k, w, t :: ts, 0⟩ :: f :: fs : List Frame).length < 255 := Nat.succ_lt_succ hd
  cases fuel with
  | zero => exact absurd hfuel (Nat.not_lt_zero _)
  | succ fuel =>
    have hloop := rfcommRest_spec ts fuel (channelStep 0 t) hin (Nat.succ_pos _) rfl
      (fun u hu => hok u (List.mem_cons_of_mem t hu)) hd' (Nat.lt_of_succ_lt_succ hfuel)
    rw [findRfcommChannel, enter_group h true ht (Nat.lt_of_succ_lt hd')]
    simp only
    rw [findRfcommLoop, next_first hin (Nat.succ_pos _)]
    simp only
    rw [rfcommEntry_spec hin rfl (hok t (List.mem_cons_self ..)) hd']
    simp only
    rw [show (rfcommChannel t).getD 0 = channelStep 0 t from rfl, hloop, ← List.foldl_cons, foldl_channelStep]
    rfl

/-! ## Attributes -/

theorem length_le_encodeElements : ∀ {ts : List Element}, ElementsWellFormed ts → ts.length ≤ (encodeElements ts).length
  | [], _ => Nat.zero_le _
  | t :: ts, h => by
    have hone := Element.one_le_encode h.1
    have hrest := length_le_encodeElements h.2
    rw [encodeElements, List.length_append, List.length_cons]
    omega

/-- A group has no more children than there are bytes. -/
theorem children_le (h : Stack de (f :: fs)) : f.children.length ≤ de.length := by
  obtain ⟨rest, hrest⟩ := h.lies.bytes
  have hlen := congrArg List.length hrest
  have hchildren := length_le_encodeElements h.lies.wellFormed.2
  rw [List.length_drop, List.length_append, f.group_length] at hlen
  omega

/-- What an attribute makes of the reply so far. -/
def attributeStep (reply : ObexDiscoverReply) (a : Nat × Element) : ObexDiscoverReply :=
  if a.1 = bteSdpAttrIdProtoDescList then { reply with oppRfcommChannel := channelIn a.2 }
  else if a.1 = bteSdpAttrIdGoepL2capPsm then { reply with oppL2capPsm := a.2.uint16?.getD 0 }
  else reply

/-- **One attribute**, from its id on: the reader is at its value. -/
theorem attribute_spec (h : Stack de (f :: fs)) {id value : Element} {rest : List Element} {i : Nat}
    (hi : f.index < f.children.length) (hid : f.children[f.index]? = some id) (hnum : id.uint16? = some i)
    (hdrop : f.children.drop (f.index + 1) = value :: rest) (hok : AttributeOk (i, value)) (hd : (f :: fs).length < 254)
    {fuel : Nat} (hfuel : de.length < fuel) (reply : ObexDiscoverReply) :
    discoverAttribute fuel (readerOf de true (f :: fs)) reply =
      some (true, attributeStep reply (i, value), readerOf de true ({ f with index := f.index + 1 } :: fs)) := by
  obtain ⟨hnext, hmoved, hvalue, -, -⟩ := next_rest_cons h hi hdrop
  unfold discoverAttribute attributeStep
  rw [hnext, readUint16_readerOf h hid (.inl hnum)]
  simp only
  by_cases hproto : i = bteSdpAttrIdProtoDescList
  · obtain ⟨k, w, es, rfl, hne, hes⟩ := hok.protocols hproto
    have hshort := children_le (stack_push hmoved hvalue)
    rw [if_pos hproto, if_pos hproto, rfcommChannel_spec hmoved hvalue hne hes hd (lt_of_le_of_lt hshort hfuel)]
    rfl
  · rw [if_neg hproto, if_neg hproto]
    by_cases hpsm : i = bteSdpAttrIdGoepL2capPsm
    · obtain ⟨v, hv⟩ := Option.isSome_iff_exists.1 (hok.psm hpsm)
      rw [if_pos hpsm, if_pos hpsm, readUint16_readerOf hmoved hvalue (.inl hv), hv]
      rfl
    · rw [if_neg hpsm, if_neg hpsm]

/-- The attributes of a row of elements, one by one. -/
theorem attributesOf_cons {ts : List Element} {a : Nat × Element} {as : List (Nat × Element)}
    (h : attributesOf ts = some (a :: as)) : ∃ id rest, ts = id :: a.2 :: rest ∧ id.uint16? = some a.1 ∧
      attributesOf rest = some as := by
  match ts, h with
  | id :: value :: rest, h =>
    rw [attributesOf, Option.bind_eq_some_iff] at h
    obtain ⟨i, hi, h⟩ := h
    obtain ⟨as', hrest, h⟩ := Option.map_eq_some_iff.1 h
    obtain ⟨rfl, rfl⟩ := List.cons.inj h
    exact ⟨id, rest, rfl, hi, hrest⟩

theorem attributesOf_nil {ts : List Element} (h : attributesOf ts = some []) : ts = [] := by
  match ts, h with
  | [], _ => rfl
  | id :: value :: rest, h =>
    rw [attributesOf, Option.bind_eq_some_iff] at h
    obtain ⟨i, -, h⟩ := h
    obtain ⟨as', -, h⟩ := Option.map_eq_some_iff.1 h
    cases h

theorem length_attributesOf : ∀ {ts : List Element} {as : List (Nat × Element)}, attributesOf ts = some as →
    as.length ≤ ts.length := by
  intro ts as
  induction as generalizing ts with
  | nil => exact fun _ => Nat.zero_le _
  | cons a as ih =>
    intro h
    obtain ⟨id, rest, rfl, -, hrest⟩ := attributesOf_cons h
    have := ih hrest
    simp only [List.length_cons]
    omega

/-- The attributes after the value at the cursor. -/
theorem attributesRest_spec {inner : Nat} (hinner : de.length < inner) :
    ∀ (as : List (Nat × Element)) {f : Frame} (fuel : Nat) (reply : ObexDiscoverReply), Stack de (f :: fs) →
      f.index < f.children.length → attributesOf (f.children.drop (f.index + 1)) = some as → (∀ a ∈ as, AttributeOk a) →
      (f :: fs).length < 254 → as.length < fuel →
      discoverAttributes inner fuel (readerOf de true (f :: fs)) reply =
        some (true, as.foldl attributeStep reply, readerOf de true ({ f with index := f.children.length } :: fs))
  | _, _, 0, _, _, _, _, _, _, hfuel => absurd hfuel (Nat.not_lt_zero _)
  | [], f, fuel + 1, reply, h, hi, has, _, _, _ => by
    rw [discoverAttributes, next_rest_nil h hi (attributesOf_nil has)]
    rfl
  | a :: as, f, fuel + 1, reply, h, hi, has, hok, hd, hfuel => by
    obtain ⟨id, rest, hdrop, hnum, hrest⟩ := attributesOf_cons has
    obtain ⟨hnext, hmoved, hid, hi', hdrop'⟩ := next_rest_cons h hi hdrop
    obtain ⟨-, hmoved', -, hi'', hdrop''⟩ := next_rest_cons hmoved hi' hdrop'
    rw [discoverAttributes, hnext]
    simp only
    rw [attribute_spec hmoved hi' hid hnum hdrop' (hok a (List.mem_cons_self ..)) hd hinner]
    refine attributesRest_spec hinner as fuel _ hmoved' hi'' ?_ (fun b hb => hok b (List.mem_cons_of_mem a hb)) hd
      (Nat.lt_of_succ_lt_succ hfuel)
    exact (congrArg attributesOf hdrop'').trans hrest

/-! ## Records -/

/-- **One record**: the reader is back at it. -/
theorem record_spec (h : Stack de (f :: fs)) {k : GroupKind} {w : LenWidth} {ts : List Element} {as : List (Nat × Element)}
    (ht : f.children[f.index]? = some (.group k w ts)) (hne : ts ≠ []) (has : attributesOf ts = some as)
    (hok : ∀ a ∈ as, AttributeOk a) (hd : (f :: fs).length < 253) {inner : Nat} (hinner : de.length < inner)
    (reply : ObexDiscoverReply) :
    ∃ r, bteSdpDeReaderEnter (readerOf de true (f :: fs)) = (true, r) ∧ ∃ r', discoverAttributes inner inner r reply =
        some (true, as.foldl attributeStep reply, r') ∧
          bteSdpDeReaderLeave r' = some (true, readerOf de true (f :: fs)) := by
  have hin := stack_push h ht
  have hd' : (⟨f.offset, k, w, ts, 0⟩ :: f :: fs : List Frame).length < 254 := Nat.succ_lt_succ hd
  refine ⟨_, enter_group h true ht (by omega), readerOf de true (⟨f.offset, k, w, ts, ts.length⟩ :: f :: fs), ?_,
    leave_frame (hin.moved (Nat.le_refl _)) (by omega) true⟩
  have hshort : ts.length ≤ de.length := children_le hin
  cases as with
  | nil => exact absurd (attributesOf_nil has) hne
  | cons a as =>
    obtain ⟨id, rest, rfl, hnum, hrest⟩ := attributesOf_cons has
    have hcount := length_attributesOf hrest
    simp only [List.length_cons] at hshort
    cases inner with
    | zero => exact absurd hinner (Nat.not_lt_zero _)
    | succ inner =>
      rw [discoverAttributes, next_first hin (Nat.succ_pos _)]
      simp only
      rw [attribute_spec hin (Nat.succ_pos _) rfl hnum rfl (hok a (List.mem_cons_self ..)) hd' hinner]
      simp only
      rw [attributesRest_spec hinner as inner _ (hin.moved (show 1 ≤ (id :: a.2 :: rest).length by simp)) (by simp)
        hrest (fun b hb => hok b (List.mem_cons_of_mem a hb)) hd' (by omega)]
      rfl

/-- The records after the one at the cursor. -/
theorem recordsRest_spec {inner : Nat} (hinner : de.length < inner) :
    ∀ (rs : List Element) {f : Frame} (fuel : Nat) (reply : ObexDiscoverReply), Stack de (f :: fs) →
      f.index < f.children.length → f.children.drop (f.index + 1) = rs → (∀ r ∈ rs, RecordOk r) →
      (f :: fs).length < 253 → rs.length < fuel →
      discoverRecords inner fuel (readerOf de true (f :: fs)) reply =
        some ((rs.flatMap fun r => (attributesOf r.children).getD []).foldl attributeStep reply)
  | _, _, 0, _, _, _, _, _, _, hfuel => absurd hfuel (Nat.not_lt_zero _)
  | [], f, fuel + 1, reply, h, hi, hdrop, _, _, _ => by
    rw [discoverRecords, next_rest_nil h hi hdrop]
    rfl
  | r :: rs, f, fuel + 1, reply, h, hi, hdrop, hok, hd, hfuel => by
    obtain ⟨hnext, hmoved, ht, hi', hdrop'⟩ := next_rest_cons h hi hdrop
    obtain ⟨k, w, ts, as, rfl, hne, has, hattrs⟩ := hok r (List.mem_cons_self ..)
    obtain ⟨r₁, henter, r₂, hrun, hleave⟩ := record_spec hmoved ht hne has hattrs hd hinner reply
    rw [discoverRecords, hnext]
    simp only [henter, hrun, hleave]
    rw [recordsRest_spec hinner rs fuel _ hmoved hi' hdrop' (fun u hu => hok u (List.mem_cons_of_mem _ hu)) hd
      (Nat.lt_of_succ_lt_succ hfuel), List.flatMap_cons, List.foldl_append, Element.children, has]
    rfl

/-- All records of a list just entered. -/
theorem discoverRecords_spec {k : GroupKind} {w : LenWidth} {rs : List Element} (h : Stack de [⟨0, k, w, rs, 0⟩])
    (hok : ∀ r ∈ rs, RecordOk r) {fuel : Nat} (hfuel : de.length < fuel) (reply : ObexDiscoverReply) :
    discoverRecords fuel fuel (readerOf de false [⟨0, k, w, rs, 0⟩]) reply =
      some ((rs.flatMap fun r => (attributesOf r.children).getD []).foldl attributeStep reply) := by
  have hshort : rs.length ≤ de.length := children_le h
  cases fuel with
  | zero => exact absurd hfuel (Nat.not_lt_zero _)
  | succ fuel =>
    cases rs with
    | nil =>
      rw [discoverRecords, next_end h false rfl]
      rfl
    | cons r rs =>
      obtain ⟨k', w', ts, as, rfl, hne, has, hattrs⟩ := hok r (List.mem_cons_self ..)
      obtain ⟨r₁, henter, r₂, hrun, hleave⟩ := record_spec h rfl hne has hattrs (by simp) hfuel reply
      simp only [List.length_cons] at hshort
      rw [discoverRecords, next_first h (Nat.succ_pos _)]
      simp only [henter, hrun, hleave]
      rw [recordsRest_spec hfuel rs fuel _ h (Nat.succ_pos _) rfl (fun u hu => hok u (List.mem_cons_of_mem _ hu)) (by simp)
        (by omega), List.flatMap_cons, List.foldl_append, Element.children, has]
      rfl

end Discovery

/-! ## The reply -/

/-- A field that one attribute sets holds what the last of these says. -/
theorem foldl_lastValue {β : Type} (field : ObexDiscoverReply → β) (id : Nat) (value : Element → β)
    (hstep : ∀ reply a, field (attributeStep reply a) = if a.1 = id then value a.2 else field reply) :
    ∀ (as : List (Nat × Element)) (reply : ObexDiscoverReply),
      field (as.foldl attributeStep reply) = ((lastValue id as).map value).getD (field reply)
  | [], _ => rfl
  | a :: as, reply => by
    rw [List.foldl_cons, foldl_lastValue field id value hstep as, hstep, lastValue, lastValue]
    by_cases ha : a.1 = id
    · rw [if_pos ha, List.filter_cons_of_pos (by simpa using ha), List.getLast?_cons]
      cases (as.filter (·.1 = id)).getLast? <;> rfl
    · rw [if_neg ha, List.filter_cons_of_neg (by simpa using ha)]

theorem foldl_attributeStep (t : Element) : t.attributes.foldl attributeStep ⟨0, 0⟩ = replyOf t := by
  have hpsm := foldl_lastValue ObexDiscoverReply.oppL2capPsm bteSdpAttrIdGoepL2capPsm (fun v => v.uint16?.getD 0)
    (fun reply a => by
      unfold attributeStep
      by_cases hproto : a.1 = bteSdpAttrIdProtoDescList
      · have hne : a.1 ≠ bteSdpAttrIdGoepL2capPsm := by
          rw [hproto]
          decide
        rw [if_pos hproto, if_neg hne]
      · rw [if_neg hproto]
        split <;> rfl) t.attributes ⟨0, 0⟩
  have hchannel := foldl_lastValue ObexDiscoverReply.oppRfcommChannel bteSdpAttrIdProtoDescList channelIn
    (fun reply a => by
      unfold attributeStep
      split
      · rfl
      · split <;> rfl) t.attributes ⟨0, 0⟩
  have heta : ∀ r : ObexDiscoverReply, r = ⟨r.oppL2capPsm, r.oppRfcommChannel⟩ := fun _ => rfl
  rw [heta (t.attributes.foldl attributeStep ⟨0, 0⟩), hpsm, hchannel, replyOf]
  congr 1
  cases lastValue bteSdpAttrIdGoepL2capPsm t.attributes <;> rfl

/-- **A discovery reports what the tree says**, once, whatever follows the tree in memory. -/
theorem serviceSearchAttr_tree (t : Element) (tail : List UInt8) (hw : t.WellFormed) (hlen : t.encode.length < 2 ^ 31)
    (ht : AttributeListReply t) (dd : DiscoverData) (fuel : Nat) (hfuel : (t.encode ++ tail).length < fuel) :
    serviceSearchAttrCb fuel dd 0 (t.encode ++ tail) =
      some [.sdpClientUnref, .callback dd.callback dd.client (replyOf t) dd.userdata, .free] := by
  obtain ⟨k, w, rs, rfl, hok⟩ := ht
  have henter := enter_root_group false tail hw hlen
  have hrecords := discoverRecords_spec (stack_root tail hw hlen) hok hfuel ⟨0, 0⟩
  unfold serviceSearchAttrCb
  simp only [ne_eq, not_true_eq_false, if_false]
  rw [show bteSdpDeReaderInit ((Element.group k w rs).encode ++ tail) =
    readerOf ((Element.group k w rs).encode ++ tail) false [] from rfl, henter]
  simp only
  rw [hrecords, ← foldl_attributeStep]
  rfl

/-- One record: L2CAP and RFCOMM with channel 9, and the PSM 0x1009. -/
def oppReply : Element :=
  .group .sequence .w1 [.group .sequence .w1 [
    .leaf [0x09, 0, 4], .group .sequence .w1 [.group .sequence .w1 [.leaf [0x19, 1, 0]],
      .group .sequence .w1 [.leaf [0x19, 0, 3], .leaf [0x08, 9]]],
    .leaf [0x09, 2, 0], .leaf [0x09, 0x10, 0x09]]]

theorem serviceSearchAttr_oppReply : serviceSearchAttrCb 100 ⟨1, 2, 3⟩ 0 (oppReply.encode ++ []) =
    some [.sdpClientUnref, .callback 2 1 ⟨0x1009, 9⟩ 3, .free] := by
  have hw : oppReply.WellFormed := by
    simp only [oppReply, Element.WellFormed, ElementsWellFormed]
    decide
  have hproto : ∀ e ∈ [Element.group .sequence .w1 [.leaf [0x19, 1, 0]],
      .group .sequence .w1 [.leaf [0x19, 0, 3], .leaf [0x08, 9]]], ProtocolEntry e := by
    intro e he
    rcases List.mem_pair.1 he with rfl | rfl
    · exact ⟨rfl, fun _ _ h => by cases h⟩
    · exact ⟨rfl, fun _ c hc => by cases hc; rfl⟩
  have hrecord : AttributeListReply oppReply := by
    refine ⟨_, _, _, rfl, List.forall_mem_singleton.2 ⟨_, _, _, _, rfl, List.cons_ne_nil _ _, rfl, fun a ha => ?_⟩⟩
    rcases List.mem_pair.1 ha with rfl | rfl
    · exact ⟨fun _ => ⟨_, _, _, rfl, List.cons_ne_nil _ _, hproto⟩, fun h => absurd h (by decide)⟩
    · exact ⟨fun h => absurd h (by decide), fun _ => rfl⟩
  exact serviceSearchAttr_tree oppReply [] hw (by decide) hrecord ⟨1, 2, 3⟩ 100 (by decide)

end Bte
