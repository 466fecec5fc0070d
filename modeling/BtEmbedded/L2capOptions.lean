import BtEmbedded.L2capConfig
import BtEmbedded.Lib.Tlv
import BtEmbedded.Buffer
/-!
# L2capOptions — how a row of options is parsed (l2cap.c)

The option area of a request or a response is a row of `Tlv` items.  `l2cap_config_parse` takes the well-formed ones in turn
(`parseLoop_row`), and gives up at the first that is malformed; whatever came before, an unknown type it has met by then
decides what it returns (`parse_classifies_iff`).
-/
namespace Bte

open Bytes Tlv

/-! ## Options -/

/-- What an item is an option for. -/
def optionOf (t : Tlv) : Option ConfigOption := ConfigOption.ofType (t.type.toNat &&& 0x7f)

/-- No option the code knows, and without the hint bit. -/
def unknownOption (t : Tlv) : Bool := (optionOf t).isNone && t.type.toNat &&& l2capConfigHint == 0

/-- An option that is known has its length. -/
def wellFormedOption (t : Tlv) : Bool := (optionOf t).all fun o => t.value.length == o.len

/-- What a well-formed option does to the parameters. -/
def takeOption (params : ConfigureParams) (t : Tlv) : ConfigureParams :=
  match optionOf t with
  | none => params
  | some o =>
    o.storeStruct t.type.toNat (o.readNumber { params with fieldMask := params.fieldMask ||| o.bit } t.value) t.value

/-- What it adds to the size of those that are unknown. -/
def countOption (wantUnknown : Bool) (unknownSize : Nat) (t : Tlv) : Nat :=
  if wantUnknown && unknownOption t then (unknownSize + t.size) % 65536 else unknownSize

/-- The bits of the known options of a row. -/
def optionMask (ts : List Tlv) : Nat := ts.foldl (fun mask t => mask ||| ((optionOf t).map ConfigOption.bit).getD 0) 0

/-! ## One turn of the loop -/

theorem header_append (t : Tlv) (rest : List UInt8) : (t.bytes ++ rest).take 2 = [t.type, UInt8.ofNat t.value.length] := rfl

theorem value_append (t : Tlv) (rest : List UInt8) : (t.bytes ++ rest).drop 2 = t.value ++ rest := rfl

/-- **A well-formed option is taken.** -/
theorem parseLoop_option (want : Bool) {cmdSize : Nat} (fuel : Nat) {t : Tlv} (hwf : wellFormedOption t) (rest : List UInt8)
    (params : ConfigureParams) {read : Nat} (hfits : read + t.size ≤ cmdSize) (unknownSize : Nat) (typeError : Bool) :
    configParseLoop want cmdSize (fuel + 1) (t.bytes ++ rest) params read unknownSize typeError =
      configParseLoop want cmdSize fuel rest (takeOption params t) (read + t.size) (countOption want unknownSize t)
        (typeError || unknownOption t) := by
  have hsize : read + 2 + t.value.length = read + t.size := by
    simp only [size]
    omega
  have hread : read < cmdSize := by
    have := t.size_pos
    omega
  rw [configParseLoop, if_pos hread, header_append, value_append]
  simp only [List.length_cons, List.length_nil, ne_eq, not_true_eq_false, if_false, List.getD_cons_zero,
    List.getD_cons_succ, toNat_length, hsize]
  rw [if_neg (by omega)]
  unfold takeOption countOption unknownOption
  cases ho : optionOf t with
  | none =>
    have ho' : ConfigOption.ofType (t.type.toNat &&& 0x7f) = none := ho
    have hcount : unknownSize + 2 + t.value.length = unknownSize + t.size := Nat.add_assoc ..
    simp only [ho', hcount, Option.isNone_none, Bool.true_and, List.drop_left]
    by_cases hhint : t.type.toNat &&& l2capConfigHint = 0
    · cases want <;> simp [hhint]
    · have hhint' : (t.type.toNat &&& l2capConfigHint == 0) = false := beq_eq_false_iff_ne.2 hhint
      cases want <;> simp [hhint, hhint']
  | some o =>
    have ho' : ConfigOption.ofType (t.type.toNat &&& 0x7f) = some o := ho
    have hlen : t.value.length = o.len := by
      have h := hwf
      rw [wellFormedOption, ho] at h
      simpa using h
    have hdata : (t.value ++ rest).take o.len = t.value := by rw [← hlen, List.take_left]
    have hdrop : (t.value ++ rest).drop o.len = rest := by rw [← hlen, List.drop_left]
    simp [ho', hdata, hdrop, hlen]

/-- An option of a wrong length is the end. -/
theorem parseLoop_wrongLength (want : Bool) {cmdSize : Nat} (fuel : Nat) {t : Tlv} (hwf : wellFormedOption t = false)
    (rest : List UInt8) (params : ConfigureParams) {read : Nat} (hfits : read + t.size ≤ cmdSize) (unknownSize : Nat)
    (typeError : Bool) :
    ∃ params' reader, configParseLoop want cmdSize (fuel + 1) (t.bytes ++ rest) params read unknownSize typeError =
      configParseError params' unknownSize reader typeError := by
  have hsize : read + 2 + t.value.length = read + t.size := by
    simp only [size]
    omega
  have hread : read < cmdSize := by
    have := t.size_pos
    omega
  rw [configParseLoop, if_pos hread, header_append, value_append]
  simp only [List.length_cons, List.length_nil, ne_eq, not_true_eq_false, if_false, List.getD_cons_zero,
    List.getD_cons_succ, toNat_length, hsize]
  rw [if_neg (by omega)]
  cases ho : optionOf t with
  | none =>
    rw [wellFormedOption, ho] at hwf
    cases hwf
  | some o =>
    have ho' : ConfigOption.ofType (t.type.toNat &&& 0x7f) = some o := ho
    have hlen : t.value.length ≠ o.len := by
      rw [wellFormedOption, ho] at hwf
      simpa using hwf
    simp only [ho', hlen, not_false_eq_true, or_true, if_true]
    exact ⟨_, _, rfl⟩

/-- An option of which the area has not all is the end. -/
theorem parseLoop_truncated (want : Bool) {cmdSize : Nat} (fuel : Nat) {tail : List UInt8} (htail : uncons tail = none)
    (hne : tail ≠ []) (rest : List UInt8) (params : ConfigureParams) {read : Nat} (hend : read + tail.length = cmdSize)
    (unknownSize : Nat) (typeError : Bool) :
    ∃ params' reader, configParseLoop want cmdSize (fuel + 1) (tail ++ rest) params read unknownSize typeError =
      configParseError params' unknownSize reader typeError := by
  have hpos := List.length_pos_iff.2 hne
  rw [configParseLoop, if_pos (by omega)]
  simp only
  split
  · exact ⟨_, _, rfl⟩
  · rw [if_pos]
    · exact ⟨_, _, rfl⟩
    · rcases uncons_eq_none htail with hshort | hshort
      · omega
      · by_cases hlen : tail.length < 2
        · omega
        · have hhead : ((tail ++ rest).take 2).getD 1 0 = tail.getD 1 0 := by
            rw [List.take_append_of_le_length (by omega), List.getD_eq_getElem?_getD, List.getD_eq_getElem?_getD,
              List.getElem?_take_of_lt (by omega)]
          rw [hhead]
          omega

/-! ## A row -/

/-- **A row of well-formed options is taken one by one.** -/
theorem parseLoop_row (want : Bool) {cmdSize : Nat} (rest : List UInt8) :
    ∀ (ts : List Tlv) (fuel : Nat) (params : ConfigureParams) (read unknownSize : Nat) (typeError : Bool),
      (∀ t ∈ ts, wellFormedOption t) → read + (encode ts).length ≤ cmdSize →
      configParseLoop want cmdSize (fuel + ts.length) (encode ts ++ rest) params read unknownSize typeError =
        configParseLoop want cmdSize fuel rest (ts.foldl takeOption params) (read + (encode ts).length)
          (ts.foldl (countOption want) unknownSize) (typeError || ts.any unknownOption)
  | [], fuel, params, read, unknownSize, typeError, _, _ => by simp
  | t :: ts, fuel, params, read, unknownSize, typeError, hwf, hfits => by
    rw [encode_cons, List.length_append, Tlv.length_bytes] at hfits
    rw [encode_cons, List.append_assoc, List.length_cons, ← Nat.add_assoc,
      parseLoop_option want _ (hwf t (List.mem_cons_self ..)) _ _ (by omega),
      parseLoop_row want rest ts fuel _ _ _ _ (fun u hu => hwf u (List.mem_cons_of_mem t hu)) (by omega),
      List.length_append, Tlv.length_bytes, Nat.add_assoc, List.any_cons, Bool.or_assoc]
    rfl

/-- The unknown options of a row. -/
def unknownOptions (ts : List Tlv) : List Tlv := ts.filter unknownOption

theorem countOption_row (ts : List Tlv) : ∀ unknownSize, unknownSize + (encode ts).length < 65536 →
    ts.foldl (countOption true) unknownSize = unknownSize + (encode (unknownOptions ts)).length := by
  induction ts with
  | nil => intro unknownSize _; rfl
  | cons t ts ih =>
    intro unknownSize hlen
    rw [encode_cons, List.length_append, Tlv.length_bytes] at hlen
    rw [List.foldl_cons]
    by_cases hu : unknownOption t
    · have hcount : countOption true unknownSize t = unknownSize + t.size := by
        simp only [countOption, hu, Bool.and_self, if_true]
        exact Nat.mod_eq_of_lt (by omega)
      have hunknown : unknownOptions (t :: ts) = t :: unknownOptions ts := List.filter_cons_of_pos hu
      rw [hcount, ih _ (by omega), hunknown, encode_cons, List.length_append, Tlv.length_bytes, ← Nat.add_assoc]
    · have hcount : countOption true unknownSize t = unknownSize := by simp [countOption, hu]
      have hunknown : unknownOptions (t :: ts) = unknownOptions ts := List.filter_cons_of_neg hu
      rw [hcount, ih _ (by omega), hunknown]

theorem countOption_known (want : Bool) : ∀ {ts : List Tlv} (unknownSize : Nat), (∀ t ∈ ts, unknownOption t = false) →
    ts.foldl (countOption want) unknownSize = unknownSize
  | [], _, _ => rfl
  | t :: ts, unknownSize, h => by
    have hskip : countOption want unknownSize t = unknownSize := by simp [countOption, h t (List.mem_cons_self ..)]
    rw [List.foldl_cons, hskip]
    exact countOption_known want unknownSize fun u hu => h u (List.mem_cons_of_mem t hu)

/-- The end of the area. -/
theorem parseLoop_end (want : Bool) (cmdSize fuel : Nat) (rest : List UInt8) (params : ConfigureParams) (unknownSize : Nat)
    (typeError : Bool) :
    configParseLoop want cmdSize (fuel + 1) rest params cmdSize unknownSize typeError =
      if unknownSize ≠ 0 then configParseError params unknownSize rest typeError else ⟨.ok, params, unknownSize, rest⟩ := by
  rw [configParseLoop, if_neg (Nat.lt_irrefl cmdSize)]

/-- A row in an area of just its length. -/
theorem parse_row (want : Bool) {ts : List Tlv} (hwf : ∀ t ∈ ts, wellFormedOption t) (rest : List UInt8)
    (params : ConfigureParams) :
    l2capConfigParse want (encode ts ++ rest) params (encode ts).length =
      if ts.foldl (countOption want) 0 ≠ 0 then
        configParseError (ts.foldl takeOption params) (ts.foldl (countOption want) 0) rest (ts.any unknownOption)
      else ⟨.ok, ts.foldl takeOption params, ts.foldl (countOption want) 0, rest⟩ := by
  have hlen := length_le_encode ts
  rw [l2capConfigParse, show (encode ts).length + 1 = (encode ts).length - ts.length + 1 + ts.length by omega,
    parseLoop_row want rest ts _ params 0 0 false hwf (by omega), Nat.zero_add, parseLoop_end, Bool.false_or]

/-! ## A row in packets -/

/-- `l2cap_config_parse` on the packets of a message, with every call of the reader that it makes; what it leaves of the
reader are the bytes that are still to come. -/
def configParsePackets (wantUnknown : Bool) (cmdSize : Nat) :
    Nat → BufferReader → ConfigureParams → Nat → Nat → Bool → ConfigParsed
  | 0, reader, params, _, unknownSize, typeError => configParseError params unknownSize reader.rest typeError
  | fuel + 1, reader, params, read, unknownSize, typeError =>
    if read < cmdSize then
      let header := (bteBufferReaderRead reader 2).1
      let reader := (bteBufferReaderRead reader 2).2
      if header.length ≠ 2 then configParseError params unknownSize reader.rest typeError
      else
        let read := read + 2
        let type := (header.getD 0 0).toNat
        let size := (header.getD 1 0).toNat
        if read + size > cmdSize then configParseError params unknownSize reader.rest typeError
        else
          match ConfigOption.ofType (type &&& 0x7f) with
          | none =>
            let known := type &&& l2capConfigHint ≠ 0
            configParsePackets wantUnknown cmdSize fuel (bteBufferReaderAdvance reader size).2 params (read + size)
              (if known || !wantUnknown then unknownSize else (unknownSize + 2 + size) % 65536) (typeError || !known)
          | some o =>
            let data := (bteBufferReaderRead reader o.len).1
            let params := o.readNumber { params with fieldMask := params.fieldMask ||| o.bit } data
            let reader := (bteBufferReaderRead reader o.len).2
            if data.length ≠ o.len ∨ size ≠ o.len then configParseError params unknownSize reader.rest typeError
            else
              configParsePackets wantUnknown cmdSize fuel reader (o.storeStruct type params data) (read + size)
                unknownSize typeError
    else if unknownSize ≠ 0 then configParseError params unknownSize reader.rest typeError
    else ⟨.ok, params, unknownSize, reader.rest⟩

/-- **How the bytes are spread over packets does not matter.** -/
theorem parsePackets_eq (want : Bool) (cmdSize : Nat) :
    ∀ (fuel : Nat) {reader : BufferReader} (params : ConfigureParams) (read unknownSize : Nat) (typeError : Bool),
      reader.Wf →
      configParsePackets want cmdSize fuel reader params read unknownSize typeError =
        configParseLoop want cmdSize fuel reader.rest params read unknownSize typeError
  | 0, _, _, _, _, _, _ => rfl
  | fuel + 1, reader, params, read, unknownSize, typeError, hw => by
    obtain ⟨hheader, hrest, hw', -⟩ := read_spec hw 2
    have hvalue := fun n => read_spec hw' n
    unfold configParsePackets configParseLoop
    simp only [hheader, hrest]
    split
    · split
      · rfl
      · split
        · rfl
        · cases ConfigOption.ofType (((reader.rest.take 2).getD 0 0).toNat &&& 0x7f) with
          | none =>
            obtain ⟨-, hrest', hw'', -⟩ := hvalue ((reader.rest.take 2).getD 1 0).toNat
            simp only [bteBufferReaderAdvance]
            rw [parsePackets_eq want cmdSize fuel _ _ _ _ hw'', hrest', hrest]
          | some o =>
            obtain ⟨hdata, hrest', hw'', -⟩ := hvalue o.len
            rw [hrest] at hdata hrest'
            simp only [hdata, hrest']
            split
            · rfl
            · rw [parsePackets_eq want cmdSize fuel _ _ _ _ hw'', hrest']
    · rfl

/-! ## What the parser returns -/

/-- Some option is truncated, or is known and has another length. -/
def Malformed (area : List UInt8) : Prop := (cut area).2 ≠ [] ∨ ∃ t ∈ (cut area).1, wellFormedOption t = false

def NamesUnknown (area : List UInt8) : Prop := ∃ t ∈ (cut area).1, unknownOption t

/-- **The area is malformed, and an option of an unknown type comes before the first that is.** -/
def UnknownFirst (area : List UInt8) : Prop :=
  Malformed area ∧ ∃ t ∈ (cut area).1.takeWhile wellFormedOption, unknownOption t

instance (area : List UInt8) : Decidable (Malformed area) := inferInstanceAs (Decidable (_ ∨ _))

instance (area : List UInt8) : Decidable (NamesUnknown area) := inferInstanceAs (Decidable (∃ t ∈ (cut area).1, _))

instance (area : List UInt8) : Decidable (UnknownFirst area) := inferInstanceAs (Decidable (_ ∧ _))

/-- What the comment of `l2cap_config_parse` promises. -/
structure Classified (area : List UInt8) (params : ConfigureParams) (r : ConfigParsed) : Prop where
  corrupted : r.rc = .corrupted ↔ Malformed area
  unknownType : r.rc = .unknownType ↔ ¬ Malformed area ∧ NamesUnknown area
  ok : r.rc = .ok ↔ ¬ Malformed area ∧ ¬ NamesUnknown area
  cleared : r.rc ≠ .ok → r.params.fieldMask = 0 ∧ r.params.qos = none ∧ r.params.retxFlow = none ∧ r.params.extFlow = none
  mask : r.rc = .ok → r.params.fieldMask = params.fieldMask ||| optionMask (cut area).1

theorem fieldMask_takeOption (params : ConfigureParams) (t : Tlv) :
    (takeOption params t).fieldMask = params.fieldMask ||| ((optionOf t).map ConfigOption.bit).getD 0 := by
  unfold takeOption
  cases optionOf t with
  | none => simp
  | some o => rw [fieldMask_storeStruct, fieldMask_readNumber]; rfl

theorem foldl_optionMask : ∀ (ts : List Tlv) (mask : Nat),
    ts.foldl (fun mask t => mask ||| ((optionOf t).map ConfigOption.bit).getD 0) mask = mask ||| optionMask ts
  | [], mask => by simp [optionMask]
  | t :: ts, mask => by
    rw [optionMask, List.foldl_cons, List.foldl_cons, foldl_optionMask ts, foldl_optionMask ts, Nat.zero_or, Nat.or_assoc]

theorem fieldMask_row : ∀ (ts : List Tlv) (params : ConfigureParams),
    (ts.foldl takeOption params).fieldMask = params.fieldMask ||| optionMask ts
  | [], params => by simp [optionMask]
  | t :: ts, params => by
    have hcons : optionMask (t :: ts) = ((optionOf t).map ConfigOption.bit).getD 0 ||| optionMask ts := by
      rw [optionMask, List.foldl_cons, Nat.zero_or]
      exact foldl_optionMask ts _
    rw [List.foldl_cons, fieldMask_row ts, fieldMask_takeOption, Nat.or_assoc, hcons]

/-- **A malformed area is given up at its first malformed option**, with what was met before it. -/
theorem parse_malformed (want : Bool) {area : List UInt8} (h : Malformed area) (rest : List UInt8)
    (params : ConfigureParams) :
    ∃ params' unknownSize reader, l2capConfigParse want (area ++ rest) params area.length =
      configParseError params' unknownSize reader (((cut area).1.takeWhile wellFormedOption).any unknownOption) := by
  have harea := encode_cut area
  have htail := uncons_cut area
  unfold Malformed at h
  generalize (cut area).1 = ts at harea h
  generalize (cut area).2 = tail at harea h htail
  have hsplit := List.takeWhile_append_dropWhile (p := wellFormedOption) (l := ts)
  have hgood : ∀ t ∈ ts.takeWhile wellFormedOption, wellFormedOption t := fun t ht =>
      List.all_eq_true.1 List.all_takeWhile t ht
  have hlen := length_le_encode (ts.takeWhile wellFormedOption)
  cases hbad : ts.dropWhile wellFormedOption with
  | nil =>
    rw [hbad, List.append_nil] at hsplit
    rw [hsplit] at hgood hlen ⊢
    have hne : tail ≠ [] := by
      refine h.resolve_right fun hwrong => ?_
      obtain ⟨t, ht, hwf⟩ := hwrong
      exact absurd (hgood t ht) (by simp [hwf])
    have hend : (encode ts).length + tail.length = area.length := by rw [← harea, List.length_append]
    have hfits : 0 + (encode ts).length ≤ area.length := by omega
    have hrow := parseLoop_row want (tail ++ rest) ts (area.length - ts.length + 1) params 0 0 false hgood hfits
    rw [Nat.zero_add, Bool.false_or, ← List.append_assoc, harea,
      show area.length - ts.length + 1 + ts.length = area.length + 1 by omega] at hrow
    obtain ⟨params', reader, herror⟩ := parseLoop_truncated want (area.length - ts.length) htail hne rest
      (ts.foldl takeOption params) hend (ts.foldl (countOption want) 0) (ts.any unknownOption)
    exact ⟨params', _, reader, hrow.trans herror⟩
  | cons t bad =>
    have hwf : wellFormedOption t = false := by
      have hhead := List.head?_dropWhile_not wellFormedOption ts
      rw [hbad] at hhead
      simpa using hhead
    rw [hbad] at hsplit
    generalize ts.takeWhile wellFormedOption = good at *
    have hbytes : area = encode good ++ (t.bytes ++ (encode bad ++ tail)) := by
      rw [← harea, ← hsplit, encode_append, encode_cons, List.append_assoc, List.append_assoc]
    have hend : (encode good).length + t.size ≤ area.length := by
      rw [hbytes, List.length_append, List.length_append, Tlv.length_bytes]
      omega
    have hfits : 0 + (encode good).length ≤ area.length := by omega
    have hrow := parseLoop_row want (t.bytes ++ (encode bad ++ tail ++ rest)) good (area.length - good.length + 1) params 0 0
      false hgood hfits
    obtain ⟨params', reader, herror⟩ := parseLoop_wrongLength want (area.length - good.length) hwf
      (encode bad ++ tail ++ rest) (good.foldl takeOption params) hend (good.foldl (countOption want) 0)
      (good.any unknownOption)
    rw [Nat.zero_add, Bool.false_or, show area.length - good.length + 1 + good.length = area.length + 1 by omega] at hrow
    refine ⟨params', _, reader, Eq.trans ?_ (hrow.trans herror)⟩
    rw [l2capConfigParse]
    congr 1
    rw [hbytes]
    simp only [List.append_assoc]

theorem encode_unknown_ne_nil (ts : List Tlv) : (encode (unknownOptions ts)).length ≠ 0 ↔ ∃ t ∈ ts, unknownOption t := by
  rw [← List.any_eq_true, unknownOptions]
  induction ts with
  | nil => simp
  | cons t ts ih =>
    by_cases hu : unknownOption t
    · have := t.size_pos
      rw [List.filter_cons_of_pos hu, encode_cons, List.length_append, Tlv.length_bytes, List.any_cons, hu]
      exact iff_of_true (by omega) rfl
    · rw [List.filter_cons_of_neg hu, ih, List.any_cons, Bool.eq_false_of_not_eq_true hu, Bool.false_or]

/-- What is malformed is not told from what is unknown if something unknown comes first. -/
theorem classified_malformed {area : List UInt8} (hm : Malformed area) (rest : List UInt8) (params : ConfigureParams) :
    Classified area params (l2capConfigParse true (area ++ rest) params area.length) ↔ ¬ UnknownFirst area := by
  obtain ⟨params', unknownSize, reader, hparse⟩ := parse_malformed true hm rest params
  rw [hparse]
  have hfirst : UnknownFirst area ↔ ((cut area).1.takeWhile wellFormedOption).any unknownOption = true := by
    rw [List.any_eq_true]
    exact ⟨fun h => h.2, fun h => ⟨hm, h⟩⟩
  rw [hfirst]
  cases ((cut area).1.takeWhile wellFormedOption).any unknownOption with
  | true =>
    refine ⟨fun h => ?_, fun h => absurd rfl h⟩
    cases h.corrupted.2 hm
  | false =>
    refine ⟨fun _ => Bool.false_ne_true, fun _ => ⟨iff_of_true rfl hm, ?_, ?_, fun _ => ⟨rfl, rfl, rfl, rfl⟩, ?_⟩⟩
    · exact iff_of_false ConfigParse.noConfusion fun h => h.1 hm
    · exact iff_of_false ConfigParse.noConfusion fun h => h.1 hm
    · exact fun h => ConfigParse.noConfusion h

theorem classified_wellFormed {area : List UInt8} (hlen : area.length < 65536) (hm : ¬ Malformed area) (rest : List UInt8)
    (params : ConfigureParams) : Classified area params (l2capConfigParse true (area ++ rest) params area.length) := by
  have harea := encode_cut area
  obtain ⟨htail, hbad⟩ := not_or.1 hm
  rw [not_not.1 htail, List.append_nil] at harea
  have hwf : ∀ t ∈ (cut area).1, wellFormedOption t := by
    intro t ht
    rw [← Bool.not_eq_false]
    exact fun h => hbad ⟨t, ht, h⟩
  have hcount := countOption_row (cut area).1 0 (by rw [harea]; omega)
  have hparse := parse_row true hwf rest params
  rw [harea, hcount, Nat.zero_add] at hparse
  rw [hparse]
  have hunknown := encode_unknown_ne_nil (cut area).1
  by_cases hn : NamesUnknown area
  · rw [if_pos (hunknown.2 hn), configParseError, List.any_eq_true.2 hn]
    refine ⟨iff_of_false ConfigParse.noConfusion hm, iff_of_true rfl ⟨hm, hn⟩, ?_, fun _ => ⟨rfl, rfl, rfl, rfl⟩, ?_⟩
    · exact iff_of_false ConfigParse.noConfusion fun h => h.2 hn
    · exact fun h => ConfigParse.noConfusion h
  · rw [if_neg fun h => hn (hunknown.1 h)]
    refine ⟨iff_of_false ConfigParse.noConfusion hm, ?_, iff_of_true rfl ⟨hm, hn⟩, fun h => absurd rfl h, ?_⟩
    · exact iff_of_false ConfigParse.noConfusion fun h => hn h.2
    · exact fun _ => fieldMask_row _ _

/-- **The parser returns what it promises exactly if no unknown option comes before a malformed one.**  The callers leave
the four bytes of their own header out of a 16-bit length. -/
theorem parse_classifies_iff {area : List UInt8} (hlen : area.length + 4 < 65536) (rest : List UInt8)
    (params : ConfigureParams) :
    Classified area params (l2capConfigParse true (area ++ rest) params area.length) ↔ ¬ UnknownFirst area := by
  by_cases hm : Malformed area
  · exact classified_malformed hm rest params
  · exact iff_of_true (classified_wellFormed (by omega) hm rest params) fun h => hm h.1

/-- An MTU, and an unknown option with one byte. -/
theorem parse_classifies_mtu : Classified [1, 2, 0x30, 0, 0x10, 1, 7] .zero
    (l2capConfigParse true ([1, 2, 0x30, 0, 0x10, 1, 7] ++ []) .zero 7) :=
  (parse_classifies_iff (by decide) [] .zero).2 (by decide)

/-- An unknown option without a value, and an MTU of one byte: the second is malformed, and -2 is returned. -/
theorem parse_classifies_not : ¬ Classified [0x10, 0, 1, 1, 0x30] .zero
    (l2capConfigParse true ([0x10, 0, 1, 1, 0x30] ++ []) .zero 5) := by
  intro h
  have hrc : (l2capConfigParse true ([0x10, 0, 1, 1, 0x30] ++ []) .zero 5).rc = .unknownType := by decide
  have hcorrupted := h.corrupted.2 (by decide)
  rw [hrc] at hcorrupted
  cases hcorrupted

end Bte
