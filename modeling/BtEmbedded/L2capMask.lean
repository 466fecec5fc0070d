import BtEmbedded.L2capOptions
/-!
# L2capMask — the field mask and the pointers (l2cap.c)

A bit of `field_mask` announces an option; three of the options are structures behind a pointer.  `l2cap_config_parse` sets
the bit by the type without the hint bit and the pointer by the type as it stands, so that an option with the hint bit is
announced and thrown away.
-/
namespace Bte

open Bytes Tlv

/-! ## The options of an area that was accepted -/

theorem cut_none {bs : List UInt8} (h : uncons bs = none) : cut bs = ([], bs) := by
  have hcut := cut_encode [] h
  rwa [encode_nil, List.nil_append] at hcut

theorem cut_bytes (t : Tlv) (bs : List UInt8) : cut (t.bytes ++ bs) = (t :: (cut bs).1, (cut bs).2) := by
  have hcut := cut_encode (t :: (cut bs).1) (uncons_cut bs)
  rwa [encode_cons, List.append_assoc, encode_cut] at hcut

theorem parseError_not_ok {params : ConfigureParams} {unknownSize : Nat} {reader : List UInt8} {typeError : Bool}
    (hok : (configParseError params unknownSize reader typeError).rc = .ok) : False := by
  cases typeError <;> cases hok

/-- Nothing is left to read. -/
theorem parseLoop_nil (want : Bool) {cmdSize : Nat} (params : ConfigureParams) (read unknownSize : Nat) (typeError : Bool) :
    ∀ fuel, (configParseLoop want cmdSize fuel [] params read unknownSize typeError).rc = .ok →
      (configParseLoop want cmdSize fuel [] params read unknownSize typeError).params = params
  | 0 => fun hok => (parseError_not_ok hok).elim
  | fuel + 1 => by
    unfold configParseLoop
    intro hok
    split at hok
    · exact (parseError_not_ok hok).elim
    · split at hok
      · exact (parseError_not_ok hok).elim
      · rename_i hend hzero
        rw [if_neg hend, if_neg hzero]

/-- Where the area has no whole option, the parsing is at its end, or an unknown option is cut off. -/
theorem parseLoop_stop (want : Bool) {cmdSize : Nat} (fuel : Nat) {reader : List UInt8}
    (params : ConfigureParams) {read : Nat}
    (harea : uncons (reader.take (cmdSize - read)) = none) (unknownSize : Nat) (typeError : Bool)
    (hok : (configParseLoop want cmdSize (fuel + 1) reader params read unknownSize typeError).rc = .ok) :
    (configParseLoop want cmdSize (fuel + 1) reader params read unknownSize typeError).params = params := by
  unfold configParseLoop at hok ⊢
  simp only at hok ⊢
  split at hok
  case isFalse hend =>
    rw [if_neg hend]
    split at hok
    · exact (parseError_not_ok hok).elim
    · rename_i hzero
      rw [if_neg hzero]
  case isTrue hread =>
    rw [if_pos hread]
    split at hok
    · exact (parseError_not_ok hok).elim
    rename_i hhead
    rw [if_neg hhead]
    split at hok
    · exact (parseError_not_ok hok).elim
    rename_i hfits
    rw [if_neg hfits]
    rw [not_not, List.length_take] at hhead
    have hlen : reader.length < 2 + ((reader.take 2).getD 1 0).toNat := by
      have hsize : (reader.take (cmdSize - read)).getD 1 0 = (reader.take 2).getD 1 0 := by
        rw [List.getD_eq_getElem?_getD, List.getD_eq_getElem?_getD, List.getElem?_take_of_lt (by omega),
          List.getElem?_take_of_lt (by omega)]
      rcases uncons_eq_none harea with hshort | hshort
      · rw [List.length_take] at hshort
        omega
      · rw [hsize, List.length_take] at hshort
        omega
    cases ho : ConfigOption.ofType (((reader.take 2).getD 0 0).toNat &&& 0x7f) with
    | none =>
      have hnil : (reader.drop 2).drop ((reader.take 2).getD 1 0).toNat = [] := by
        rw [List.drop_drop, List.drop_eq_nil_iff]
        omega
      simp only [ho, hnil] at hok ⊢
      exact parseLoop_nil want params _ _ _ fuel hok
    | some o =>
      simp only [ho] at hok
      split at hok
      · exact (parseError_not_ok hok).elim
      · rename_i hdata
        simp only [List.length_take, List.length_drop, not_or, not_not] at hdata
        omega

/-- **An area that is accepted is taken option by option.** -/
theorem parseLoop_ok (want : Bool) {cmdSize : Nat} :
    ∀ (fuel : Nat) (reader : List UInt8) (params : ConfigureParams) (read unknownSize : Nat) (typeError : Bool),
      (configParseLoop want cmdSize fuel reader params read unknownSize typeError).rc = .ok →
      (configParseLoop want cmdSize fuel reader params read unknownSize typeError).params =
        (cut (reader.take (cmdSize - read))).1.foldl takeOption params
  | 0, reader, params, read, unknownSize, typeError, hok => (parseError_not_ok hok).elim
  | fuel + 1, reader, params, read, unknownSize, typeError, hok => by
    cases hu : uncons (reader.take (cmdSize - read)) with
    | none =>
      rw [cut_none hu, parseLoop_stop want fuel params hu unknownSize typeError hok]
      rfl
    | some found =>
      obtain ⟨t, rest⟩ := found
      have harea := uncons_eq_some hu
      have hreader : reader = t.bytes ++ (rest ++ reader.drop (cmdSize - read)) := by
        rw [← List.append_assoc, ← harea, List.take_append_drop]
      have hlen := congrArg List.length harea
      rw [List.length_take, List.length_append, Tlv.length_bytes] at hlen
      have hpos := t.size_pos
      have hfits : read + t.size ≤ cmdSize := by omega
      have hrest : (rest ++ reader.drop (cmdSize - read)).take (cmdSize - (read + t.size)) = rest := by
        have htake := harea
        rw [hreader, List.take_append, List.take_of_length_le (by rw [Tlv.length_bytes]; omega), Tlv.length_bytes,
          Nat.sub_sub] at htake
        exact List.append_cancel_left htake
      rw [harea, cut_bytes]
      generalize rest ++ reader.drop (cmdSize - read) = rest' at hreader hrest
      rw [hreader] at hok ⊢
      cases hwf : wellFormedOption t with
      | false =>
        obtain ⟨params', reader', hend⟩ := parseLoop_wrongLength want fuel hwf rest' params hfits unknownSize typeError
        rw [hend] at hok
        exact (parseError_not_ok hok).elim
      | true =>
        rw [parseLoop_option want fuel hwf rest' params hfits unknownSize typeError] at hok ⊢
        rw [parseLoop_ok want fuel rest' _ _ _ _ hok, hrest]
        rfl

/-- The options of an area that begins a reader. -/
def areaOptions (reader : List UInt8) (cmdSize : Nat) : List Tlv := (cut (reader.take cmdSize)).1

theorem parse_ok (want : Bool) (reader : List UInt8) (params : ConfigureParams) (cmdSize : Nat)
    (hok : (l2capConfigParse want reader params cmdSize).rc = .ok) :
    (l2capConfigParse want reader params cmdSize).params = (areaOptions reader cmdSize).foldl takeOption params :=
  parseLoop_ok want (cmdSize + 1) reader params 0 0 false hok

/-! ## The structures -/

/-- What one of the pointers points to. -/
inductive ConfigStruct
  | qos (q : ConfigQos)
  | retxFlow (r : ConfigRetxFlow)
  | extFlow (e : ConfigExtFlow)
deriving DecidableEq

namespace ConfigOption

/-- The options that are structures. -/
def structured : List ConfigOption := [qos, retxFlow, extFlow]

def pointer (o : ConfigOption) (params : ConfigureParams) : Option ConfigStruct :=
  match o with
  | qos => params.qos.map .qos
  | retxFlow => params.retxFlow.map .retxFlow
  | extFlow => params.extFlow.map .extFlow
  | _ => none

/-- The structure that the value of an option stands for. -/
def structOf (o : ConfigOption) (value : List UInt8) : Option ConfigStruct :=
  match o with
  | qos => some (.qos (ConfigQos.ofBytes value))
  | retxFlow => some (.retxFlow (ConfigRetxFlow.ofBytes value))
  | extFlow => some (.extFlow (ConfigExtFlow.ofBytes value))
  | _ => none

end ConfigOption

/-- The last option of a kind in a row. -/
def lastOption (o : ConfigOption) (ts : List Tlv) : Option Tlv := (ts.filter fun t => optionOf t = some o).getLast?

/-- What it says, or else what was said before. -/
def lastStruct (o : ConfigOption) (old : Option ConfigStruct) (ts : List Tlv) : Option ConfigStruct :=
  match lastOption o ts with
  | none => old
  | some t => o.structOf t.value

/-- The option is not a hint. -/
def unhinted (t : Tlv) : Bool := t.type.toNat &&& l2capConfigHint == 0

/-- The mask announces a structure just when its pointer is not NULL. -/
def ConfigureParams.Announces (params : ConfigureParams) (o : ConfigOption) : Prop :=
  params.fieldMask &&& o.bit ≠ 0 ↔ (o.pointer params).isSome

instance (params : ConfigureParams) (o : ConfigOption) : Decidable (params.Announces o) :=
  inferInstanceAs (Decidable (_ ↔ _))

theorem eq_type_of_ofType {type : Nat} {o : ConfigOption} (h : ConfigOption.ofType type = some o) : type = o.type := by
  have hfound := List.find?_some h
  exact (beq_iff_eq.1 hfound).symm

theorem type_iff_unhinted {t : Tlv} {o : ConfigOption} (h : optionOf t = some o) : t.type.toNat = o.type ↔ unhinted t := by
  have hbit : ∀ type : Fin 256, type.val &&& 0x7f = type.val ↔ (type.val &&& l2capConfigHint == 0) = true := by
    decide +kernel
  rw [← eq_type_of_ofType h, eq_comm]
  exact hbit ⟨t.type.toNat, t.type.toNat_lt⟩

/-- The pointer follows the options that are not hints. -/
theorem pointer_takeOption (o : ConfigOption) (params : ConfigureParams) (t : Tlv) :
    o.pointer (takeOption params t) =
      if optionOf t = some o ∧ unhinted t ∧ o ∈ ConfigOption.structured then o.structOf t.value else o.pointer params := by
  unfold takeOption
  cases ho : optionOf t with
  | none => simp
  | some o' =>
    have htype := type_iff_unhinted ho
    by_cases hhint : unhinted t
    · simp only [ConfigOption.storeStruct, if_pos (htype.2 hhint), hhint]
      cases o <;> cases o' <;> simp [ConfigOption.readNumber, ConfigOption.pointer, ConfigOption.structOf,
        ConfigOption.structured]
    · simp only [ConfigOption.storeStruct, if_neg fun h => hhint (htype.1 h), hhint]
      cases o <;> cases o' <;> simp [ConfigOption.readNumber, ConfigOption.pointer]

theorem lastStruct_cons (o : ConfigOption) (old : Option ConfigStruct) (t : Tlv) (ts : List Tlv) :
    lastStruct o old (t :: ts) = lastStruct o (if optionOf t = some o then o.structOf t.value else old) ts := by
  unfold lastStruct lastOption
  by_cases ht : optionOf t = some o
  · rw [List.filter_cons_of_pos (by simpa using ht), List.getLast?_cons, if_pos ht]
    cases (ts.filter fun t => optionOf t = some o).getLast? <;> rfl
  · rw [List.filter_cons_of_neg (by simpa using ht), if_neg ht]

theorem pointer_row {o : ConfigOption} (ho : o ∈ ConfigOption.structured) : ∀ (ts : List Tlv) (params : ConfigureParams),
    o.pointer (ts.foldl takeOption params) = lastStruct o (o.pointer params) (ts.filter unhinted)
  | [], _ => rfl
  | t :: ts, params => by
    rw [List.foldl_cons, pointer_row ho ts, pointer_takeOption]
    by_cases hhint : unhinted t
    · rw [List.filter_cons_of_pos hhint, lastStruct_cons]
      simp only [hhint, ho, and_true]
    · rw [List.filter_cons_of_neg hhint]
      simp only [hhint, false_and, and_false, if_false, Bool.false_eq_true]

theorem and_bit_ne_zero (o o' : ConfigOption) : o'.bit &&& o.bit ≠ 0 ↔ o' = o := by
  cases o <;> cases o' <;> decide

/-- A bit of the mask that a row leaves is one that was set, or that of an option of the row. -/
theorem bit_row (o : ConfigOption) : ∀ (ts : List Tlv) (params : ConfigureParams),
    (ts.foldl takeOption params).fieldMask &&& o.bit ≠ 0 ↔
      params.fieldMask &&& o.bit ≠ 0 ∨ ∃ t ∈ ts, optionOf t = some o
  | [], params => by simp
  | t :: ts, params => by
    have hbit : ((optionOf t).map ConfigOption.bit).getD 0 &&& o.bit ≠ 0 ↔ optionOf t = some o := by
      cases optionOf t with
      | none => simp
      | some o' => simpa using and_bit_ne_zero o o'
    rw [List.foldl_cons, bit_row o ts, fieldMask_takeOption, Nat.and_or_distrib_right, ne_eq, Nat.or_eq_zero_iff,
      not_and_or, ← ne_eq, ← ne_eq, hbit, or_assoc]
    simp only [List.mem_cons, exists_eq_or_imp]

theorem lastOption_eq_none {o : ConfigOption} {ts : List Tlv} (h : lastOption o ts = none) :
    ∀ t ∈ ts, optionOf t ≠ some o := by
  have hnone := List.getLast?_eq_none_iff.1 h
  simpa [List.filter_eq_nil_iff] using hnone

theorem optionOf_lastOption {o : ConfigOption} {ts : List Tlv} {t : Tlv} (h : lastOption o ts = some t) :
    t ∈ ts ∧ optionOf t = some o := by
  simpa using List.mem_of_getLast? h

/-- Leaving out hints leaves the last option the last, if it is none. -/
theorem lastOption_unhinted {o : ConfigOption} {ts : List Tlv} {t : Tlv} (h : lastOption o ts = some t) (ht : unhinted t) :
    lastOption o (ts.filter unhinted) = some t := by
  obtain ⟨before, hbefore⟩ := List.getLast?_eq_some_iff.1 h
  rw [lastOption, List.filter_comm, hbefore, List.filter_append]
  simp [ht]

/-- What the parameters should hold of the structures after an area: the mask announces one just when its pointer is not NULL
and has the values that were last given for it. -/
def MaskAgrees (params : ConfigureParams) (ts : List Tlv) (parsed : ConfigureParams) : Prop :=
  ∀ o ∈ ConfigOption.structured, parsed.fieldMask &&& o.bit ≠ 0 ↔
    (o.pointer parsed).isSome ∧ o.pointer parsed = lastStruct o (o.pointer params) ts

instance (params : ConfigureParams) (ts : List Tlv) (parsed : ConfigureParams) : Decidable (MaskAgrees params ts parsed) :=
  inferInstanceAs (Decidable (∀ o ∈ ConfigOption.structured, _))

/-- The last option for a structure is no hint, or says again what the last one that is none said. -/
def LastCounts (params : ConfigureParams) (ts : List Tlv) (o : ConfigOption) : Prop :=
  ∀ t ∈ lastOption o ts, unhinted t ∨ o.structOf t.value = lastStruct o (o.pointer params) (ts.filter unhinted)

instance (params : ConfigureParams) (ts : List Tlv) (o : ConfigOption) : Decidable (LastCounts params ts o) :=
  inferInstanceAs (Decidable (∀ t ∈ lastOption o ts, _))

theorem structOf_isSome {o : ConfigOption} (ho : o ∈ ConfigOption.structured) (value : List UInt8) :
    (o.structOf value).isSome := by
  cases o <;> simp [ConfigOption.structured] at ho <;> rfl

/-- **The mask and a pointer agree after a row if the last option for the structure is no hint**, or a hint that changes
nothing. -/
theorem agrees_row_iff {params : ConfigureParams} {o : ConfigOption} (ho : o ∈ ConfigOption.structured)
    (hparams : params.Announces o) (ts : List Tlv) :
    ((ts.foldl takeOption params).fieldMask &&& o.bit ≠ 0 ↔
      (o.pointer (ts.foldl takeOption params)).isSome ∧
        o.pointer (ts.foldl takeOption params) = lastStruct o (o.pointer params) ts) ↔ LastCounts params ts o := by
  rw [bit_row, pointer_row ho]
  cases hlast : lastOption o ts with
  | none =>
    have hkinds := lastOption_eq_none hlast
    have hnone : ¬ ∃ t ∈ ts, optionOf t = some o := fun ⟨t, ht, hkind⟩ => hkinds t ht hkind
    have hpointer : lastStruct o (o.pointer params) (ts.filter unhinted) = o.pointer params := by
      have hlast' : lastOption o (ts.filter unhinted) = none := by
        refine List.getLast?_eq_none_iff.2 (List.filter_eq_nil_iff.2 fun t ht => ?_)
        simpa using hkinds t (List.mem_of_mem_filter ht)
      rw [lastStruct, hlast']
    have hannounced : lastStruct o (o.pointer params) ts = o.pointer params := by rw [lastStruct, hlast]
    rw [hpointer, hannounced]
    refine iff_of_true ?_ fun t ht => ?_
    · rw [or_iff_left hnone, and_iff_left rfl]
      exact hparams
    · rw [hlast] at ht
      cases ht
  | some t =>
    obtain ⟨hmem, hkind⟩ := optionOf_lastOption hlast
    have hannounced : lastStruct o (o.pointer params) ts = o.structOf t.value := by rw [lastStruct, hlast]
    have hsome := structOf_isSome ho t.value
    have hbit : params.fieldMask &&& o.bit ≠ 0 ∨ ∃ t ∈ ts, optionOf t = some o := .inr ⟨t, hmem, hkind⟩
    rw [hannounced, iff_true_left hbit]
    constructor
    · rintro ⟨_, hsame⟩ u hu
      rw [hlast, Option.mem_some_iff] at hu
      rw [← hu]
      exact .inr hsame.symm
    · intro hcounts
      have hsame : lastStruct o (o.pointer params) (ts.filter unhinted) = o.structOf t.value := by
        rcases hcounts t hlast with hhint | hsame
        · rw [lastStruct, lastOption_unhinted hlast hhint]
        · exact hsame.symm
      rw [hsame]
      exact ⟨hsome, rfl⟩

/-- **The mask and the pointers agree after parsing if the last option for every structure is no hint**, or a hint that
changes nothing: the type without its hint bit sets the mask, and the type as it stands the pointer. -/
theorem parse_mask_iff (want : Bool) (reader : List UInt8) {params : ConfigureParams}
    (hparams : ∀ o ∈ ConfigOption.structured, params.Announces o) (cmdSize : Nat)
    (hok : (l2capConfigParse want reader params cmdSize).rc = .ok) :
    MaskAgrees params (areaOptions reader cmdSize) (l2capConfigParse want reader params cmdSize).params ↔
      ∀ o ∈ ConfigOption.structured, LastCounts params (areaOptions reader cmdSize) o := by
  rw [parse_ok want reader params cmdSize hok]
  exact forall₂_congr fun o ho => agrees_row_iff ho (hparams o ho) _

/-- A retransmission option, and the same as a hint. -/
def repeatedHint : List UInt8 := [0x04, 9, 1, 2, 3, 4, 0, 5, 0, 6, 0, 0x84, 9, 1, 2, 3, 4, 0, 5, 0, 6, 0]

theorem parse_mask_repeatedHint :
    MaskAgrees .zero (areaOptions repeatedHint 22) (l2capConfigParse true repeatedHint .zero 22).params :=
  (parse_mask_iff true repeatedHint (by decide) 22 (by decide +kernel)).2 (by decide +kernel)

/-- A quality of service as a hint. -/
def hintedQos : List UInt8 := [0x83, 22, 0, 1, 0, 0, 0, 0, 0, 0, 0, 0, 0, 0, 0, 0, 0, 0, 0, 0, 0, 0, 0, 0]

/-- It is announced, and there is none. -/
theorem parse_mask_not :
    (l2capConfigParse true hintedQos .zero 24).rc = .ok ∧
      (l2capConfigParse true hintedQos .zero 24).params.fieldMask &&& ConfigOption.qos.bit ≠ 0 ∧
      (l2capConfigParse true hintedQos .zero 24).params.qos = none ∧
      ¬ MaskAgrees .zero (areaOptions hintedQos 24) (l2capConfigParse true hintedQos .zero 24).params := by
  decide +kernel

end Bte
