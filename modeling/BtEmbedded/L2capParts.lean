import BtEmbedded.L2capAtomic
import BtEmbedded.L2capReject
import Mathlib.Data.List.Induction
/-!
# L2capParts — a configuration response in parts (l2cap.c)

The peer may spread its answer over a series of Configuration Responses, each but the last with the continuation flag; the
side that asked fetches every further part with a request without options.  `l2cap_handle_config_resp` adds up what the
parts say, and asks for the next one if `expected_response_count` is 1 by then, the dispatcher having counted it down: if
the request went out in exactly two packets.
-/
namespace Bte

open Bytes Tlv L2capLink

/-! ## Responses -/

/-- A Configuration Response of the peer, and what follows it in the reader. -/
structure ResponsePart where
  channelId : Nat
  flags : Nat
  result : Nat
  options : List Tlv
  tail : List UInt8
deriving DecidableEq

namespace ResponsePart

def reader (r : ResponsePart) : List UInt8 :=
  leBytes 2 r.channelId ++ leBytes 2 r.flags ++ leBytes 2 r.result ++ encode r.options ++ r.tail

def length (r : ResponsePart) : Nat := 6 + (encode r.options).length

/-- What the link is after it; `id` is that of the request it answers. -/
def handle (host : L2capHost) (id : Nat) (w : L2capLink) (r : ResponsePart) : L2capLink :=
  (aclL2capHandleResponse host w l2capSignalConfigRsp id r.reader r.length).link

/-- The options are well-formed; the flags and the result are 16 bits. -/
structure WellFormed (r : ResponsePart) : Prop where
  flags : r.flags < 65536
  result : r.result < 65536
  options : ∀ t ∈ r.options, wellFormedOption t

/-- More is to come. -/
def Continued (r : ResponsePart) : Prop := r.flags &&& l2capConfigFlagContinuation ≠ 0

instance (r : ResponsePart) : Decidable r.Continued := inferInstanceAs (Decidable (_ ≠ _))

/-- Options of a part that come with a value: one that is agreed to, or proposed. -/
def valued (r : ResponsePart) : List Tlv :=
  if r.result = l2capConfigResOk ∨ r.result = l2capConfigResErrParams then r.options else []

/-- Those that are not agreed to. -/
def rejected (r : ResponsePart) : List Tlv := if r.result = l2capConfigResErrParams then r.options else []

/-- Those that the peer does not know. -/
def unknown (r : ResponsePart) : List Tlv := if r.result = l2capConfigResErrUnknown then r.options else []

/-- A part is added to those before it. -/
def addTo (conf : ConfigureData) (r : ResponsePart) : ConfigureData :=
  { conf with
    rejectedMask := conf.rejectedMask ||| optionMask r.rejected
    unknownMask := conf.unknownMask ||| optionMask r.unknown
    params := r.valued.foldl takeOption conf.params }

/-- What the code makes of it: `unknown_mask` is overwritten. -/
def keep (conf : ConfigureData) (r : ResponsePart) : ConfigureData :=
  if r.result = l2capConfigResErrUnknown then { conf with unknownMask := optionMask r.options } else r.addTo conf

end ResponsePart

/-- **What the parts of a response say together.** -/
def partsUnion (parts : List ResponsePart) : ConfigureData := parts.foldl ResponsePart.addTo .zero

/-- What the code has added up. -/
def partsKept (parts : List ResponsePart) : ConfigureData := parts.foldl ResponsePart.keep .zero

/-- A request without options. -/
def nullRequest (remoteChannelId : Nat) : List UInt8 := leBytes 2 remoteChannelId ++ leBytes 2 0

/-! ## The mask beside the values -/

/-- What is rejected has a value. -/
def ConfigureData.Masked (conf : ConfigureData) : Prop :=
  conf.params.fieldMask ||| conf.rejectedMask = conf.params.fieldMask

theorem takeOption_mask (params : ConfigureParams) (mask : Nat) (t : Tlv) :
    takeOption { params with fieldMask := mask } t =
      { takeOption params t with fieldMask := mask ||| ((optionOf t).map ConfigOption.bit).getD 0 } := by
  unfold takeOption
  cases optionOf t with
  | none => simp
  | some o =>
    simp only [Option.map_some, Option.getD_some, ConfigOption.storeStruct]
    split
    · cases o <;> rfl
    · cases o <;> rfl

theorem foldl_takeOption_mask : ∀ (ts : List Tlv) (params : ConfigureParams) (mask : Nat),
    ts.foldl takeOption { params with fieldMask := mask } =
      { ts.foldl takeOption params with fieldMask := mask ||| optionMask ts }
  | [], params, mask => by simp [optionMask]
  | t :: ts, params, mask => by
    rw [List.foldl_cons, List.foldl_cons, takeOption_mask, foldl_takeOption_mask ts, ← foldl_optionMask,
      ← foldl_optionMask, List.foldl_cons]

namespace ResponsePart

theorem parse_options {r : ResponsePart} (hr : r.WellFormed) (params : ConfigureParams) :
    (l2capConfigParse false (encode r.options ++ r.tail) params (r.length - 6)).params =
      r.options.foldl takeOption params := by
  have hlen : r.length - 6 = (encode r.options).length := Nat.add_sub_cancel_left ..
  have hcount : ∀ (ts : List Tlv) (n : Nat), ts.foldl (countOption false) n = n := by
    intro ts
    induction ts with
    | nil => exact fun _ => rfl
    | cons t ts ih => exact fun n => ih n
  rw [hlen, parse_row false hr.options, hcount]
  rfl

/-- **A part is parsed as it says.** -/
theorem respParse_eq {r : ResponsePart} (hr : r.WellFormed) {conf : ConfigureData} (hconf : conf.Masked) :
    (configRespParse r.result conf (encode r.options ++ r.tail) (r.length - 6)).1 = r.keep conf := by
  have hparse := parse_options hr
  have hnil : optionMask [] = 0 := rfl
  unfold configRespParse keep addTo valued rejected unknown
  by_cases hparams : r.result = l2capConfigResErrParams
  · have hunknown : ¬ l2capConfigResErrParams = l2capConfigResErrUnknown := by decide
    have hmask : conf.rejectedMask ||| optionMask r.options ||| conf.params.fieldMask =
        (r.options.foldl takeOption conf.params).fieldMask := by
      rw [fieldMask_row]
      calc conf.rejectedMask ||| optionMask r.options ||| conf.params.fieldMask
          = conf.params.fieldMask ||| conf.rejectedMask ||| optionMask r.options := by
            rw [Nat.or_comm, ← Nat.or_assoc]
        _ = conf.params.fieldMask ||| optionMask r.options := congrArg (· ||| _) hconf
    simp only [hparams, hunknown, if_true, if_false, or_true, hparse, foldl_takeOption_mask, hmask, hnil, Nat.or_zero]
  · by_cases hunknown : r.result = l2capConfigResErrUnknown
    · have hother : ¬ l2capConfigResErrUnknown = l2capConfigResErrParams := by decide
      simp only [hunknown, hother, if_true, if_false, hparse, fieldMask_row, ConfigureParams.zero, Nat.zero_or]
    · by_cases hok : r.result = l2capConfigResOk
      · have hother : ¬ l2capConfigResOk = l2capConfigResErrParams := by decide
        have hother' : ¬ l2capConfigResOk = l2capConfigResErrUnknown := by decide
        simp only [hok, hother, hother', if_true, if_false, true_or, hparse, hnil, Nat.or_zero]
      · simp only [hparams, hunknown, hok, if_false, or_self, hnil, Nat.or_zero, List.foldl_nil]

theorem masked_addTo {conf : ConfigureData} (h : conf.Masked) (r : ResponsePart) : (r.addTo conf).Masked := by
  unfold ConfigureData.Masked addTo at *
  simp only
  have hsub : optionMask r.valued ||| optionMask r.rejected = optionMask r.valued := by
    unfold valued rejected
    by_cases hparams : r.result = l2capConfigResErrParams
    · rw [if_pos hparams, if_pos (.inr hparams), Nat.or_self]
    · rw [if_neg hparams]
      exact Nat.or_zero _
  rw [fieldMask_row]
  calc conf.params.fieldMask ||| optionMask r.valued ||| (conf.rejectedMask ||| optionMask r.rejected)
      = conf.params.fieldMask ||| conf.rejectedMask ||| (optionMask r.valued ||| optionMask r.rejected) := by
        ac_rfl
    _ = conf.params.fieldMask ||| optionMask r.valued := by rw [h, hsub]

theorem masked_keep {conf : ConfigureData} (h : conf.Masked) (r : ResponsePart) : (r.keep conf).Masked := by
  unfold keep
  split
  · exact h
  · exact masked_addTo h r

end ResponsePart

/-! ## What is lost of them -/

/-- The options that the last part names which names any as unknown. -/
def lastUnknown (parts : List ResponsePart) : List Tlv :=
  ((parts.filter fun r => r.result = l2capConfigResErrUnknown).getLast?.map (·.options)).getD []

theorem partsUnion_concat (parts : List ResponsePart) (r : ResponsePart) :
    partsUnion (parts ++ [r]) = r.addTo (partsUnion parts) := List.foldl_append

theorem partsKept_concat (parts : List ResponsePart) (r : ResponsePart) :
    partsKept (parts ++ [r]) = r.keep (partsKept parts) := List.foldl_append

/-- **Only the mask of the unknown options is not what the parts say together.** -/
theorem partsKept_eq (parts : List ResponsePart) :
    partsKept parts = { partsUnion parts with unknownMask := optionMask (lastUnknown parts) } := by
  induction parts using List.reverseRecOn with
  | nil => rfl
  | append_singleton parts r ih =>
    have hlast : lastUnknown (parts ++ [r]) =
        if r.result = l2capConfigResErrUnknown then r.options else lastUnknown parts := by
      unfold lastUnknown
      by_cases hunknown : r.result = l2capConfigResErrUnknown
      · simp [hunknown]
      · simp [hunknown]
    rw [partsKept_concat, partsUnion_concat, ih, hlast]
    by_cases hunknown : r.result = l2capConfigResErrUnknown
    · have hvalued : r.valued = [] := by
        rw [ResponsePart.valued, hunknown]
        rfl
      have hrejected : r.rejected = [] := by
        rw [ResponsePart.rejected, hunknown]
        rfl
      simp [ResponsePart.keep, ResponsePart.addTo, hunknown, hvalued, hrejected, optionMask]
    · simp [ResponsePart.keep, ResponsePart.addTo, ResponsePart.unknown, hunknown, optionMask]

/-- What the last part names is among what they all name. -/
theorem lastUnknown_sub (parts : List ResponsePart) :
    (partsUnion parts).unknownMask ||| optionMask (lastUnknown parts) = (partsUnion parts).unknownMask := by
  induction parts using List.reverseRecOn with
  | nil => rfl
  | append_singleton parts r ih =>
    rw [partsUnion_concat, lastUnknown, List.filter_append]
    by_cases hunknown : r.result = l2capConfigResErrUnknown
    · have hnamed : (r.addTo (partsUnion parts)).unknownMask = (partsUnion parts).unknownMask ||| optionMask r.options := by
        rw [ResponsePart.addTo, ResponsePart.unknown, if_pos hunknown]
      simp only [List.filter_cons, hunknown, decide_true, if_true, List.filter_nil, List.getLast?_concat, Option.map_some,
        Option.getD_some]
      rw [hnamed, Nat.or_assoc, Nat.or_self]
    · simpa [ResponsePart.addTo, ResponsePart.unknown, hunknown, optionMask, lastUnknown] using ih

/-- **What it takes for nothing to be lost**: the answers to earlier packets of the request say nothing that the others do
not say, and the last part that names unknown options names all of them. -/
structure NothingLost (earlier parts : List ResponsePart) : Prop where
  repeated : (partsUnion (earlier ++ parts)).reply = (partsUnion parts).reply
  unknown : (partsUnion parts).unknownMask = optionMask (lastUnknown parts)

theorem unknownMask_foldl (conf : ConfigureData) (parts : List ResponsePart) :
    (parts.foldl ResponsePart.addTo conf).unknownMask = conf.unknownMask ||| (partsUnion parts).unknownMask := by
  induction parts using List.reverseRecOn with
  | nil => exact (Nat.or_zero _).symm
  | append_singleton parts r ih =>
    rw [List.foldl_append, partsUnion_concat]
    simp [ResponsePart.addTo, ih, Nat.or_assoc]

/-- **The code tells the client what all parts say together just when nothing is lost.** -/
theorem reply_iff (earlier parts : List ResponsePart) :
    (partsKept parts).reply = (partsUnion (earlier ++ parts)).reply ↔ NothingLost earlier parts := by
  have hall : (partsUnion (earlier ++ parts)).unknownMask =
      (partsUnion earlier).unknownMask ||| (partsUnion parts).unknownMask := by
    rw [partsUnion, List.foldl_append]
    exact unknownMask_foldl _ parts
  have hsub := lastUnknown_sub parts
  have hreply : (partsKept parts).reply =
      { (partsUnion parts).reply with unknownMask := optionMask (lastUnknown parts) } := by
    rw [partsKept_eq]
    rfl
  rw [hreply]
  constructor
  · intro h
    have hlast : optionMask (lastUnknown parts) = (partsUnion (earlier ++ parts)).unknownMask :=
      congrArg ConfigureReply.unknownMask h
    have hunknown : (partsUnion parts).unknownMask = optionMask (lastUnknown parts) := by
      rw [← hsub, hlast, hall, Nat.or_comm (partsUnion earlier).unknownMask, ← Nat.or_assoc, Nat.or_self]
    refine ⟨?_, hunknown⟩
    rw [← h, ← hunknown]
    rfl
  · intro h
    rw [h.repeated, ← h.unknown]
    rfl

end Bte
