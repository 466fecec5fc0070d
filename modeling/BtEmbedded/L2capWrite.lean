import BtEmbedded.L2capOptions
import BtEmbedded.Lib.Fill
import BtEmbedded.Buffer
import Mathlib.Algebra.Order.BigOperators.Group.List
/-!
# L2capWrite — how options are written (l2cap.c)

`l2cap_config_write` fills a buffer with the options that are present, in the order of their types, and returns the first
that does not fit.  Called again from there it goes on: the calls load the row of options into pieces (`configWrite_eq`,
`writes_pieces`), and `l2cap_config_parse` reads the row back (`parse_write`).
-/
namespace Bte

open Bytes Tlv Fill

/-! ## The row of options -/

theorem length_bytes_present {o : ConfigOption} {params : ConfigureParams} (h : o.present params) :
    (o.bytes params).length = o.len := by
  cases o with
  | mtu => rfl
  | flushTimeout => rfl
  | frameCheckSeq => rfl
  | maxWindowSize => rfl
  | qos =>
    obtain ⟨q, hq⟩ := Option.isSome_iff_exists.1 h
    simp [ConfigOption.bytes, ConfigOption.len, hq, ConfigQos.bytes]
  | retxFlow =>
    obtain ⟨r, hr⟩ := Option.isSome_iff_exists.1 h
    simp [ConfigOption.bytes, ConfigOption.len, hr, ConfigRetxFlow.bytes]
  | extFlow =>
    obtain ⟨e, he⟩ := Option.isSome_iff_exists.1 h
    simp [ConfigOption.bytes, ConfigOption.len, he, ConfigExtFlow.bytes]

theorem length_option_bytes (o : ConfigOption) (params : ConfigureParams) : (o.bytes params).length < 256 := by
  cases o with
  | mtu => simp [ConfigOption.bytes]
  | flushTimeout => simp [ConfigOption.bytes]
  | frameCheckSeq => simp [ConfigOption.bytes]
  | maxWindowSize => simp [ConfigOption.bytes]
  | qos => cases h : params.qos <;> simp [ConfigOption.bytes, h, ConfigQos.bytes]
  | retxFlow => cases h : params.retxFlow <;> simp [ConfigOption.bytes, h, ConfigRetxFlow.bytes]
  | extFlow => cases h : params.extFlow <;> simp [ConfigOption.bytes, h, ConfigExtFlow.bytes]

/-- An option as it is written. -/
def optionItem (params : ConfigureParams) (o : ConfigOption) : Tlv :=
  ⟨UInt8.ofNat o.type, o.bytes params, length_option_bytes o params⟩

/-- What it takes of a buffer. -/
def optionSize (o : ConfigOption) : Nat := 2 + o.len

/-- The options present from a start command on. -/
def presentFrom (params : ConfigureParams) (startCommand : Nat) : List ConfigOption :=
  ConfigOption.all.filter fun o => startCommand ≤ o.type ∧ o.present params

/-- The bytes of some options. -/
def encodeOptions (params : ConfigureParams) (os : List ConfigOption) : List UInt8 := encode (os.map (optionItem params))

theorem bytes_optionItem {o : ConfigOption} {params : ConfigureParams} (h : o.present params) :
    (optionItem params o).bytes = UInt8.ofNat o.type :: UInt8.ofNat o.len :: o.bytes params := by
  rw [Tlv.bytes, optionItem, length_bytes_present h]

theorem length_encodeOptions (params : ConfigureParams) : ∀ {os : List ConfigOption}, (∀ o ∈ os, o.present params) →
    (encodeOptions params os).length = (os.map optionSize).sum
  | [], _ => rfl
  | o :: os, h => by
    have hrest := length_encodeOptions params fun x hx => h x (List.mem_cons_of_mem o hx)
    have hlen := length_bytes_present (h o (List.mem_cons_self ..))
    rw [encodeOptions, List.map_cons, encode_cons, List.length_append, Tlv.length_bytes]
    rw [encodeOptions] at hrest
    simp only [List.map_cons, List.sum_cons, hrest, optionSize, Tlv.size, optionItem, hlen]

theorem encodeOptions_flatten (params : ConfigureParams) (rows : List (List ConfigOption)) :
    (rows.map (encodeOptions params)).flatten = encodeOptions params rows.flatten := by
  rw [encodeOptions, List.map_flatten, encode_flatten, List.map_map]
  rfl

theorem mem_presentFrom {params : ConfigureParams} {startCommand : Nat} {o : ConfigOption}
    (h : o ∈ presentFrom params startCommand) : startCommand ≤ o.type ∧ o.present params := by
  simpa using (List.mem_filter.1 h).2

/-- They come in the order of their types. -/
theorem presentFrom_sorted (params : ConfigureParams) (startCommand : Nat) :
    (presentFrom params startCommand).Pairwise fun a b => a.type < b.type :=
  List.Pairwise.filter _ (by decide)

/-- **What is present from an option on is what the row has from there.** -/
theorem presentFrom_next {params : ConfigureParams} {startCommand : Nat} {taken ys : List ConfigOption} {o : ConfigOption}
    (h : presentFrom params startCommand = taken ++ o :: ys) : presentFrom params o.type = o :: ys := by
  have hsorted := presentFrom_sorted params startCommand
  have hstart : startCommand ≤ o.type := (mem_presentFrom (h ▸ List.mem_append_right taken (List.mem_cons_self ..))).1
  have hfilter : presentFrom params o.type = (presentFrom params startCommand).filter fun x => o.type ≤ x.type := by
    rw [presentFrom, presentFrom, List.filter_filter]
    refine List.filter_congr fun x _ => ?_
    by_cases hx : o.type ≤ x.type
    · simp [hx, hstart.trans hx]
    · simp [hx]
  rw [h, List.pairwise_append, List.pairwise_cons] at hsorted
  obtain ⟨-, ⟨hafter, -⟩, hbefore⟩ := hsorted
  have htaken : taken.filter (fun x => o.type ≤ x.type) = [] := by
    refine List.filter_eq_nil_iff.2 fun x hx => ?_
    have := hbefore x hx o (List.mem_cons_self ..)
    simp only [decide_eq_true_eq]
    omega
  have hrest : (o :: ys).filter (fun x => o.type ≤ x.type) = o :: ys := by
    refine List.filter_eq_self.2 fun x hx => ?_
    rw [decide_eq_true_eq]
    rcases List.mem_cons.1 hx with rfl | hx
    · exact Nat.le_refl _
    · exact (hafter x hx).le
  rw [hfilter, h, List.filter_append, htaken, hrest, List.nil_append]

/-! ## A call -/

/-- The option at which a call stops, or 0. -/
def nextCommand (left : List ConfigOption) : Nat := (left.head?.map ConfigOption.type).getD 0

theorem writeFrom_fill (params : ConfigureParams) (startCommand bufferSize : Nat) :
    ∀ (os : List ConfigOption) (size : Nat),
      configWriteFrom params startCommand bufferSize os size =
        (nextCommand (fill optionSize (bufferSize - size) (os.filter fun o => startCommand ≤ o.type ∧ o.present params)).2,
          encodeOptions params
            (fill optionSize (bufferSize - size) (os.filter fun o => startCommand ≤ o.type ∧ o.present params)).1)
  | [], _ => rfl
  | o :: os, size => by
    have hsize : optionSize o = 2 + o.len := rfl
    rw [configWriteFrom]
    by_cases hwanted : startCommand ≤ o.type ∧ o.present params
    · rw [if_pos hwanted, List.filter_cons_of_pos (by simpa using hwanted), fill]
      by_cases hfits : optionSize o ≤ bufferSize - size
      · have hroom : bufferSize - (size + 2 + o.len) = bufferSize - size - optionSize o := by
          omega
        rw [if_neg (by omega), if_pos hfits, writeFrom_fill params startCommand bufferSize os, hroom]
        simp only [encodeOptions, List.map_cons, encode_cons, bytes_optionItem hwanted.2, List.cons_append]
      · rw [if_pos (by omega), if_neg hfits]
        rfl
    · rw [if_neg hwanted, List.filter_cons_of_neg (by simpa using hwanted)]
      exact writeFrom_fill params startCommand bufferSize os size

/-- **A call writes the options that fit, from the start command on, and returns the next.** -/
theorem configWrite_eq (params : ConfigureParams) (startCommand bufferSize : Nat) :
    l2capConfigWrite params startCommand bufferSize =
      (nextCommand (fill optionSize bufferSize (presentFrom params startCommand)).2,
        encodeOptions params (fill optionSize bufferSize (presentFrom params startCommand)).1) :=
  writeFrom_fill params startCommand bufferSize ConfigOption.all 0

/-- An option takes 24 bytes at most. -/
theorem optionSize_le (o : ConfigOption) : optionSize o ≤ 24 := by cases o <;> decide

theorem size_presentFrom (params : ConfigureParams) (startCommand : Nat) :
    ((presentFrom params startCommand).map optionSize).sum ≤ 68 :=
  (List.Sublist.sum_le_sum ((List.filter_sublist).map _) fun _ _ => Nat.zero_le _).trans (by decide)

/-- Into a buffer that is large enough the whole row is written. -/
theorem configWrite_all (params : ConfigureParams) {startCommand bufferSize : Nat}
    (h : ((presentFrom params startCommand).map optionSize).sum ≤ bufferSize) :
    l2capConfigWrite params startCommand bufferSize = (0, encodeOptions params (presentFrom params startCommand)) := by
  rw [configWrite_eq, fill_all optionSize h]
  rfl

/-! ## The calls for one row -/

/-- `l2cap_config_write` as its callers use it, first without a buffer for the size alone: what it returns, the size, and
what it has written. -/
def configWriteTo (params : ConfigureParams) (startCommand bufferSize : Nat) :
    List ConfigOption → Option (List UInt8) → Nat → Nat × Nat × Option (List UInt8)
  | [], buffer, size => (0, size, buffer)
  | o :: os, buffer, size =>
    if startCommand ≤ o.type ∧ o.present params then
      if size + 2 + o.len > bufferSize then (o.type, size, buffer)
      else
        configWriteTo params startCommand bufferSize os
          (buffer.map fun written => written ++ (UInt8.ofNat o.type :: UInt8.ofNat o.len :: o.bytes params))
          (size + 2 + o.len)
    else configWriteTo params startCommand bufferSize os buffer size

/-- **The size is the same without a buffer.** -/
theorem configWriteTo_eq (params : ConfigureParams) (startCommand bufferSize : Nat) :
    ∀ (os : List ConfigOption) (buffer : Option (List UInt8)) (size : Nat),
      configWriteTo params startCommand bufferSize os buffer size =
        ((configWriteFrom params startCommand bufferSize os size).1,
          size + (configWriteFrom params startCommand bufferSize os size).2.length,
          buffer.map (· ++ (configWriteFrom params startCommand bufferSize os size).2))
  | [], buffer, size => by simp [configWriteTo, configWriteFrom]
  | o :: os, buffer, size => by
    rw [configWriteTo, configWriteFrom]
    by_cases hwanted : startCommand ≤ o.type ∧ o.present params
    · have hlen := length_bytes_present hwanted.2
      rw [if_pos hwanted, if_pos hwanted]
      by_cases hfull : size + 2 + o.len > bufferSize
      · rw [if_pos hfull, if_pos hfull]
        simp
      · rw [if_neg hfull, if_neg hfull, configWriteTo_eq params startCommand bufferSize os]
        simp only [Option.map_map, List.length_cons, List.length_append, hlen, List.cons_append]
        refine Prod.ext rfl (Prod.ext ?_ ?_)
        · show size + 2 + o.len + _ = size + (o.len + _ + 1 + 1)
          omega
        · show buffer.map _ = buffer.map _
          congr
          funext written
          simp
    · rw [if_neg hwanted, if_neg hwanted]
      exact configWriteTo_eq params startCommand bufferSize os buffer size

/-- Calls of `l2cap_config_write`, each from the start command that the one before it returned, until one returns 0: what
they return and what they write. -/
inductive Writes (params : ConfigureParams) (bufferSize : Nat) : Nat → List (Nat × List UInt8) → Prop
  | last {startCommand : Nat} {piece : List UInt8} (h : l2capConfigWrite params startCommand bufferSize = (0, piece)) :
      Writes params bufferSize startCommand [(0, piece)]
  | more {startCommand next : Nat} {piece : List UInt8} {pieces : List (Nat × List UInt8)}
      (h : l2capConfigWrite params startCommand bufferSize = (next, piece)) (hnext : 0 < next)
      (hrest : Writes params bufferSize next pieces) : Writes params bufferSize startCommand ((next, piece) :: pieces)

/-- An option that does not fit comes after those that do. -/
theorem lt_next {params : ConfigureParams} {startCommand bufferSize : Nat} {o : ConfigOption} {ys : List ConfigOption}
    (h : (fill optionSize bufferSize (presentFrom params startCommand)).2 = o :: ys)
    (hne : (fill optionSize bufferSize (presentFrom params startCommand)).1 ≠ []) : startCommand < o.type := by
  have happend := fill_append optionSize bufferSize (presentFrom params startCommand)
  have hsorted := presentFrom_sorted params startCommand
  obtain ⟨x, hx⟩ := List.exists_mem_of_ne_nil _ hne
  have hmem : x ∈ presentFrom params startCommand := happend ▸ List.mem_append_left _ hx
  rw [← happend, h, List.pairwise_append] at hsorted
  have := hsorted.2.2 x hx o (List.mem_cons_self ..)
  have := (mem_presentFrom hmem).1
  omega

/-- **The calls come to an end, at larger and larger commands, and write the loads.** -/
theorem writes_loads (params : ConfigureParams) {bufferSize : Nat} (hbuf : 24 ≤ bufferSize) :
    ∀ (fuel startCommand : Nat), (presentFrom params startCommand).length < fuel →
      ∃ pieces, Writes params bufferSize startCommand pieces ∧
        (startCommand :: pieces.dropLast.map Prod.fst).Pairwise (· < ·) ∧
        pieces.map Prod.snd =
          (loads optionSize bufferSize fuel (presentFrom params startCommand)).map (encodeOptions params)
  | 0, _, h => absurd h (Nat.not_lt_zero _)
  | fuel + 1, startCommand, h => by
    have happend := fill_append optionSize bufferSize (presentFrom params startCommand)
    have hwrite := configWrite_eq params startCommand bufferSize
    cases hleft : (fill optionSize bufferSize (presentFrom params startCommand)).2 with
    | nil =>
      rw [hleft] at hwrite
      refine ⟨_, .last hwrite, List.pairwise_singleton .., ?_⟩
      rw [loads, hleft]
      rfl
    | cons o ys =>
      have htaken : (fill optionSize bufferSize (presentFrom params startCommand)).1 ≠ [] := by
        cases hp : presentFrom params startCommand with
        | nil => rw [hp] at hleft; cases hleft
        | cons x xs => exact fill_ne_nil optionSize xs ((optionSize_le x).trans hbuf)
      have hlt := lt_next hleft htaken
      have hshorter := length_left optionSize htaken
      rw [hleft] at hwrite happend hshorter
      have hnext := presentFrom_next happend.symm
      obtain ⟨pieces, hwrites, hincr, hpieces⟩ := writes_loads params hbuf fuel o.type (by rw [hnext]; omega)
      refine ⟨_, .more hwrite (by show 0 < o.type; omega) hwrites, ?_, ?_⟩
      · have hne : pieces ≠ [] := by
          cases hwrites <;> simp
        rw [List.dropLast_cons_of_ne_nil hne, List.map_cons]
        refine List.pairwise_cons.2 ⟨fun next hmem => ?_, hincr⟩
        rcases List.mem_cons.1 hmem with rfl | hmem
        · exact hlt
        · exact hlt.trans ((List.pairwise_cons.1 hincr).1 next hmem)
      · rw [loads, hleft, List.isEmpty_cons, if_neg Bool.false_ne_true, List.map_cons, List.map_cons, hpieces, hnext]

theorem length_presentFrom (params : ConfigureParams) (startCommand : Nat) : (presentFrom params startCommand).length < 8 :=
  Nat.lt_of_le_of_lt (List.length_filter_le ..) (by decide)

/-- **Splitting the options loses none**: with a buffer of 24 bytes or more the calls end, each piece fits and is made of
whole options, and the pieces together are what one call writes into a buffer that is large enough. -/
theorem configWrite_lossless (params : ConfigureParams) {bufferSize : Nat} (hbuf : 24 ≤ bufferSize) :
    ∃ pieces, Writes params bufferSize 0 pieces ∧
      (0 :: pieces.dropLast.map Prod.fst).Pairwise (· < ·) ∧
      (∀ piece ∈ pieces, piece.2.length ≤ bufferSize ∧
        ∃ os, os <:+: presentFrom params 0 ∧ piece.2 = encodeOptions params os) ∧
      (∀ large, 68 ≤ large → l2capConfigWrite params 0 large = (0, (pieces.map Prod.snd).flatten)) ∧
      ∀ startCommand,
        configWriteTo params startCommand bufferSize ConfigOption.all none 0 =
          ((l2capConfigWrite params startCommand bufferSize).1, (l2capConfigWrite params startCommand bufferSize).2.length,
            none) ∧
        configWriteTo params startCommand bufferSize ConfigOption.all (some []) 0 =
          ((l2capConfigWrite params startCommand bufferSize).1, (l2capConfigWrite params startCommand bufferSize).2.length,
            some (l2capConfigWrite params startCommand bufferSize).2) := by
  obtain ⟨pieces, hwrites, hincr, hpieces⟩ := writes_loads params hbuf 8 0 (length_presentFrom params 0)
  have hflat : (loads optionSize bufferSize 8 (presentFrom params 0)).flatten = presentFrom params 0 :=
    loads_flatten optionSize (length_presentFrom params 0) fun o _ => (optionSize_le o).trans hbuf
  refine ⟨pieces, hwrites, hincr, fun piece hmem => ?_, fun large hlarge => ?_, fun startCommand => ⟨?_, ?_⟩⟩
  · have hmap := List.mem_map_of_mem (f := Prod.snd) hmem
    rw [hpieces] at hmap
    obtain ⟨os, hos, heq⟩ := List.mem_map.1 hmap
    have hsub : os <:+: presentFrom params 0 := hflat ▸ List.infix_of_mem_flatten hos
    refine ⟨?_, os, hsub, heq.symm⟩
    rw [← heq, length_encodeOptions params fun o ho => (mem_presentFrom (hsub.subset ho)).2]
    exact loads_le optionSize hos
  · rw [hpieces, encodeOptions_flatten, hflat]
    exact configWrite_all params ((size_presentFrom params 0).trans hlarge)
  · rw [configWriteTo_eq, Nat.zero_add]
    rfl
  · rw [configWriteTo_eq, Nat.zero_add]
    rfl

/-- Every option, with nothing in it. -/
def fullParams : ConfigureParams :=
  ⟨0x7f, 0, 0, 0, 0, some ⟨0, 0, 0, 0, 0, 0, 0⟩, some ⟨0, 0, 0, 0, 0, 0⟩, some ⟨0, 0, 0, 0, 0, 0⟩⟩

theorem configWrite_lossless_full :
    ∃ pieces, Writes fullParams 24 0 pieces ∧ (pieces.map Prod.snd).flatten = (l2capConfigWrite fullParams 0 68).2 := by
  obtain ⟨pieces, hwrites, -, -, hall, -⟩ := configWrite_lossless fullParams (show 24 ≤ 24 by decide)
  exact ⟨pieces, hwrites, by rw [hall 68 (by decide)]⟩

/-! ## The row is read back -/

/-- The members have the widths that the source gives them. -/
def ConfigQos.Fits (q : ConfigQos) : Prop :=
  q.flags < 0x100 ∧ q.serviceType < 0x100 ∧ q.tokenRate < 0x100000000 ∧ q.tokenBucketSize < 0x100000000 ∧
    q.peakBandwith < 0x100000000 ∧
    q.accessLatency < 0x100000000 ∧ q.delayVariation < 0x100000000

def ConfigRetxFlow.Fits (r : ConfigRetxFlow) : Prop :=
  r.mode < 0x100 ∧ r.txWindowSize < 0x100 ∧ r.maxTransmit < 0x100 ∧ r.retxTimeout < 0x10000 ∧ r.monitorTimeout < 0x10000 ∧
    r.maxPduSize < 0x10000

def ConfigExtFlow.Fits (e : ConfigExtFlow) : Prop :=
  e.identifier < 0x100 ∧ e.serviceType < 0x100 ∧ e.maxSduSize < 0x10000 ∧ e.sduInterTime < 0x100000000 ∧
    e.accessLatency < 0x100000000 ∧ e.flushTimeout < 0x100000000

structure ConfigureParams.Fits (params : ConfigureParams) : Prop where
  mtu : params.mtu < 0x10000
  flushTimeout : params.flushTimeout < 0x10000
  frameCheckSequence : params.frameCheckSequence < 0x100
  maxWindowSize : params.maxWindowSize < 0x10000
  qos : ∀ q, params.qos = some q → q.Fits
  retxFlow : ∀ r, params.retxFlow = some r → r.Fits
  extFlow : ∀ e, params.extFlow = some e → e.Fits

/-- The mask has the seven bits only, and those of the structures just for the pointers that are not NULL. -/
structure ConfigureParams.Coherent (params : ConfigureParams) : Prop where
  mask : params.fieldMask < 0x80
  present : ∀ o : ConfigOption, o.present params = (params.fieldMask &&& o.bit != 0)

/-- Two sets of parameters have the same value for an option. -/
def ConfigOption.same (o : ConfigOption) (a b : ConfigureParams) : Prop :=
  match o with
  | mtu => a.mtu = b.mtu
  | flushTimeout => a.flushTimeout = b.flushTimeout
  | qos => a.qos = b.qos
  | retxFlow => a.retxFlow = b.retxFlow
  | frameCheckSeq => a.frameCheckSequence = b.frameCheckSequence
  | extFlow => a.extFlow = b.extFlow
  | maxWindowSize => a.maxWindowSize = b.maxWindowSize

theorem leVal_leBytes_of_lt {w n : Nat} (h : n < 256 ^ w) : leVal (leBytes w n) = n := by
  rw [leVal_leBytes, Nat.mod_eq_of_lt h]

theorem slice_left {a b : List UInt8} {n : Nat} (h : a.length = n) : slice (a ++ b) 0 n = a := by
  rw [slice, List.drop_zero, ← h, List.take_left]

theorem slice_right {a b : List UInt8} {off n : Nat} (h : a.length ≤ off) :
    slice (a ++ b) off n = slice b (off - a.length) n := by
  rw [slice, slice, List.drop_append, List.drop_of_length_le h, List.nil_append]

theorem slice_self {a : List UInt8} {n : Nat} (h : a.length = n) : slice a 0 n = a := by
  rw [slice, List.drop_zero, ← h, List.take_length]

theorem qos_ofBytes {q : ConfigQos} (h : q.Fits) : ConfigQos.ofBytes q.bytes = q := by
  obtain ⟨h1, h2, h3, h4, h5, h6, h7⟩ := h
  simp [ConfigQos.ofBytes, ConfigQos.bytes, slice_left, slice_right, slice_self, leVal_leBytes_of_lt, *]

theorem retxFlow_ofBytes {r : ConfigRetxFlow} (h : r.Fits) : ConfigRetxFlow.ofBytes r.bytes = r := by
  obtain ⟨h1, h2, h3, h4, h5, h6⟩ := h
  simp [ConfigRetxFlow.ofBytes, ConfigRetxFlow.bytes, slice_left, slice_right, slice_self, leVal_leBytes_of_lt, *]

theorem extFlow_ofBytes {e : ConfigExtFlow} (h : e.Fits) : ConfigExtFlow.ofBytes e.bytes = e := by
  obtain ⟨h1, h2, h3, h4, h5, h6⟩ := h
  simp [ConfigExtFlow.ofBytes, ConfigExtFlow.bytes, slice_left, slice_right, slice_self, leVal_leBytes_of_lt, *]

/-- What taking an option does, if it was written for the same parameters. -/
def ConfigOption.copy (o : ConfigOption) (src dst : ConfigureParams) : ConfigureParams :=
  match o with
  | mtu => { dst with mtu := src.mtu }
  | flushTimeout => { dst with flushTimeout := src.flushTimeout }
  | qos => { dst with qos := src.qos }
  | retxFlow => { dst with retxFlow := src.retxFlow }
  | frameCheckSeq => { dst with frameCheckSequence := src.frameCheckSequence }
  | extFlow => { dst with extFlow := src.extFlow }
  | maxWindowSize => { dst with maxWindowSize := src.maxWindowSize }

theorem optionOf_item (params : ConfigureParams) (o : ConfigOption) : optionOf (optionItem params o) = some o := by
  show ConfigOption.ofType ((UInt8.ofNat o.type).toNat &&& 0x7f) = some o
  cases o <;> decide

theorem type_item (params : ConfigureParams) (o : ConfigOption) : (optionItem params o).type.toNat = o.type := by
  cases o <;> rfl

theorem wellFormed_item {params : ConfigureParams} {o : ConfigOption} (h : o.present params) :
    wellFormedOption (optionItem params o) := by
  rw [wellFormedOption, optionOf_item, Option.all_some, beq_iff_eq]
  exact length_bytes_present h

theorem readInto_all {w n : Nat} (old : Nat) (h : n < 256 ^ w) : readInto w old (leBytes w n) = n := by
  rw [readInto, length_leBytes, List.drop_of_length_le (by simp), List.append_nil, leVal_leBytes_of_lt h]

/-- **Taking an option that was written gives its value.** -/
theorem takeOption_item {params : ConfigureParams} (hfits : params.Fits) {o : ConfigOption} (h : o.present params)
    (dst : ConfigureParams) :
    takeOption dst (optionItem params o) = o.copy params { dst with fieldMask := dst.fieldMask ||| o.bit } := by
  have htype := type_item params o
  unfold takeOption
  rw [optionOf_item]
  simp only [ConfigOption.storeStruct, htype, if_true]
  cases o with
  | mtu => simp only [ConfigOption.readNumber, optionItem, ConfigOption.bytes, ConfigOption.copy,
      readInto_all (w := 2) _ hfits.mtu]
  | flushTimeout =>
    simp only [ConfigOption.readNumber, optionItem, ConfigOption.bytes, ConfigOption.copy,
        readInto_all (w := 2) _ hfits.flushTimeout]
  | frameCheckSeq =>
    simp only [ConfigOption.readNumber, optionItem, ConfigOption.bytes, ConfigOption.copy,
      readInto_all (w := 1) _ hfits.frameCheckSequence]
  | maxWindowSize =>
    simp only [ConfigOption.readNumber, optionItem, ConfigOption.bytes, ConfigOption.copy,
      readInto_all (w := 2) _ hfits.maxWindowSize]
  | qos =>
    obtain ⟨q, hq⟩ := Option.isSome_iff_exists.1 h
    simp [ConfigOption.readNumber, optionItem, ConfigOption.bytes, ConfigOption.copy, hq, qos_ofBytes (hfits.qos q hq)]
  | retxFlow =>
    obtain ⟨r, hr⟩ := Option.isSome_iff_exists.1 h
    simp [ConfigOption.readNumber, optionItem, ConfigOption.bytes, ConfigOption.copy, hr,
      retxFlow_ofBytes (hfits.retxFlow r hr)]
  | extFlow =>
    obtain ⟨e, he⟩ := Option.isSome_iff_exists.1 h
    simp [ConfigOption.readNumber, optionItem, ConfigOption.bytes, ConfigOption.copy, he,
      extFlow_ofBytes (hfits.extFlow e he)]

theorem same_copy (o o' : ConfigOption) {params dst : ConfigureParams} (h : o = o' ∨ o.same dst params) :
    o.same (o'.copy params dst) params := by
  rcases h with rfl | h
  · cases o <;> rfl
  · cases o <;> cases o' <;> first | exact h | rfl

theorem same_row {params : ConfigureParams} (hfits : params.Fits) (o : ConfigOption) :
    ∀ (os : List ConfigOption) (dst : ConfigureParams), (∀ x ∈ os, x.present params) → o ∈ os ∨ o.same dst params →
      o.same ((os.map (optionItem params)).foldl takeOption dst) params
  | [], dst, _, h => h.resolve_left (List.not_mem_nil)
  | x :: os, dst, hp, h => by
    rw [List.map_cons, List.foldl_cons, takeOption_item hfits (hp x (List.mem_cons_self ..))]
    refine same_row hfits o os _ (fun y hy => hp y (List.mem_cons_of_mem x hy)) ?_
    rcases h with h | h
    · rcases List.mem_cons.1 h with hx | hmem
      · exact .inr (same_copy o x (.inl hx))
      · exact .inl hmem
    · refine .inr (same_copy o x (.inr ?_))
      cases o <;> exact h

/-- The bits of the options present make up the mask. -/
theorem optionMask_present {params : ConfigureParams} (h : params.Coherent) :
    optionMask ((presentFrom params 0).map (optionItem params)) = params.fieldMask := by
  have hbits : ∀ mask < 0x80, (ConfigOption.all.filter fun o => mask &&& o.bit != 0).foldl (fun m o => m ||| o.bit) 0 =
      mask := by decide
  have hpresent : presentFrom params 0 = ConfigOption.all.filter fun o => params.fieldMask &&& o.bit != 0 := by
    refine List.filter_congr fun o _ => ?_
    simp only [Nat.zero_le, true_and, h.present o, Bool.decide_eq_true]
  have hitem : ∀ m o, m ||| ((optionOf (optionItem params o)).map ConfigOption.bit).getD 0 = m ||| o.bit := by
    intro m o
    rw [optionOf_item]
    rfl
  rw [optionMask, List.foldl_map]
  simp only [hitem]
  rw [hpresent]
  exact hbits params.fieldMask h.mask

/-- **The round trip**: what one call writes into a buffer that is large enough is parsed, from any packets, into the same
mask and the same value for every option present. -/
theorem parse_write {params : ConfigureParams} (hfits : params.Fits) (hmask : params.Coherent) {bufferSize : Nat}
    (hbuf : ((presentFrom params 0).map optionSize).sum ≤ bufferSize) {reader : BufferReader} (hw : reader.Wf)
    {rest : List UInt8} (hrest : reader.rest = (l2capConfigWrite params 0 bufferSize).2 ++ rest) (wantUnknown : Bool) :
    (l2capConfigWrite params 0 bufferSize).1 = 0 ∧
      ∃ parsed, configParsePackets wantUnknown (l2capConfigWrite params 0 bufferSize).2.length
          ((l2capConfigWrite params 0 bufferSize).2.length + 1) reader .zero 0 0 false = ⟨.ok, parsed, 0, rest⟩ ∧
        parsed.fieldMask = params.fieldMask ∧ ∀ o : ConfigOption, o.present params → o.same parsed params := by
  rw [configWrite_all params hbuf] at hrest ⊢
  have hpresent : ∀ o ∈ presentFrom params 0, o.present params := fun o ho => (mem_presentFrom ho).2
  have hwf : ∀ t ∈ (presentFrom params 0).map (optionItem params), wellFormedOption t := by
    intro t ht
    obtain ⟨o, ho, rfl⟩ := List.mem_map.1 ht
    exact wellFormed_item (hpresent o ho)
  have hcount : ((presentFrom params 0).map (optionItem params)).foldl (countOption wantUnknown) 0 = 0 := by
    refine countOption_known wantUnknown 0 fun t ht => ?_
    obtain ⟨o, -, rfl⟩ := List.mem_map.1 ht
    rw [unknownOption, optionOf_item]
    rfl
  refine ⟨rfl, ((presentFrom params 0).map (optionItem params)).foldl takeOption .zero, ?_, ?_, fun o ho => ?_⟩
  · have hparse := parse_row wantUnknown hwf rest .zero
    rw [hcount, if_neg fun h => h rfl] at hparse
    rw [parsePackets_eq _ _ _ _ _ _ _ hw, hrest]
    exact hparse
  · rw [fieldMask_row, optionMask_present hmask]
    exact Nat.zero_or _
  · refine same_row hfits o _ _ hpresent (.inl (List.mem_filter.2 ⟨?_, ?_⟩))
    · cases o <;> decide
    · simpa using ho

/-- An MTU of 672, a quality of service and an extended flow specification. -/
def mixedParams : ConfigureParams :=
  { ConfigureParams.zero with
    fieldMask := ConfigOption.mtu.bit ||| ConfigOption.qos.bit ||| ConfigOption.extFlow.bit
    mtu := 672
    qos := some ⟨0, 1, 2, 3, 4, 5, 6⟩
    extFlow := some ⟨7, 1, 2, 3, 4, 5⟩ }

/-- Their 46 bytes in packets of 7, the last of which is shorter. -/
def splitReader : BufferReader :=
  match ((l2capConfigWrite mixedParams 0 68).2.toChunks 7).map fun data => (⟨data.length, data.length, data⟩ : Packet) with
  | [] => ⟨⟨0, 0, []⟩, [], 0, 0⟩
  | packet :: next => ⟨packet, next, 0, 0⟩

theorem parse_write_split :
    ∃ parsed, configParsePackets true 46 47 splitReader .zero 0 0 false = ⟨.ok, parsed, 0, []⟩ ∧
      parsed.fieldMask = mixedParams.fieldMask ∧ parsed.mtu = 672 ∧ parsed.qos = mixedParams.qos ∧
      parsed.extFlow = mixedParams.extFlow := by
  have hfits : mixedParams.Fits := by
    refine ⟨by decide, by decide, by decide, by decide, ?_, nofun, ?_⟩
    · rintro q ⟨⟩
      simp [ConfigQos.Fits]
    · rintro e ⟨⟩
      simp [ConfigExtFlow.Fits]
  have hmask : mixedParams.Coherent := ⟨by decide, fun o => by cases o <;> decide⟩
  have hw : splitReader.Wf := by decide
  have hrest : splitReader.rest = (l2capConfigWrite mixedParams 0 68).2 ++ [] := by decide
  obtain ⟨-, parsed, hparsed, hfield, hsame⟩ := parse_write hfits hmask (by decide) hw hrest true
  exact ⟨parsed, hparsed, hfield, hsame .mtu (by decide), hsame .qos (by decide), hsame .extFlow (by decide)⟩

end Bte
