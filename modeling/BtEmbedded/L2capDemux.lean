import BtEmbedded.L2capSignalling
import Mathlib.Tactic.Common
/-!
# L2capDemux — the commands of a signalling PDU (l2cap.c)

`acl_data_received_cb` counts the bytes of each command by its length field, and leaves it to the handler to take them
from the reader.  `takes` is what each handler takes: the PDU is read in step exactly when every command but the last has
all its bytes taken, and no more (`inStep_iff`).
-/
namespace Bte

open Bytes

/-- A command as the peer sends it. -/
structure SignalCommand where
  code : UInt8
  id : UInt8
  body : List UInt8

namespace SignalCommand

def bytes (c : SignalCommand) : List UInt8 := c.code :: c.id :: leBytes 2 c.body.length ++ c.body

/-- The headers of a row of commands, the first of them at `offset`. -/
def visited : Nat → List SignalCommand → List Visited
  | _, [] => []
  | offset, c :: cs => ⟨offset, c.code.toNat, c.id.toNat, c.body.length⟩ :: visited (offset + 4 + c.body.length) cs

end SignalCommand

/-! ## What a handler takes -/

/-- The bytes `read_signal_header` takes. -/
def headerTaken (len neededLen : Nat) : Nat := if len < neededLen then 0 else neededLen

/-- Whether it succeeds. -/
def headerRead (reader : List UInt8) (len neededLen : Nat) : Bool := neededLen ≤ len && neededLen ≤ reader.length

/-- The bytes `l2cap_config_parse` takes. -/
def optionsTaken (reader : List UInt8) (cmdSize : Nat) : Nat :=
  reader.length - (l2capConfigParse false reader .zero cmdSize).reader.length

/-- Whether the reply to unknown options is ever finished. -/
def typeErrorEnds (host : L2capHost) (reader : List UInt8) (len : Nat) : Bool :=
  (copyUnknown host (len - 4) (reader.length + 65537) 0 (reader.drop 4)).isSome

/-- What `acl_l2cap_handle_configure_req` takes: the header alone for a channel that refuses the request or still owes a
response, else the options too.  Nothing if it does not come back. -/
def configureReqTakes (host : L2capHost) (w : L2capLink) (reader : List UInt8) (len : Nat) : Option Nat :=
  if headerRead reader len 4 then
    match w.configureTarget (word (reader.take 4) 0) with
    | none => some 4
    | some p =>
      let conf := (w.channels p).configureReq.getD .zero
      if conf.hasPendingPackets then some 4
      else if (l2capConfigParse true (reader.drop 4) conf.params (len - 4)).rc = .unknownType ∧
        typeErrorEnds host reader len = false then none
      else some (4 + optionsTaken (reader.drop 4) (len - 4))
  else some (headerTaken len 4)

/-- What `acl_l2cap_handle_echo_req` takes: what the callback that replies reads. -/
def echoReqTakes (host : L2capHost) (w : L2capLink) (id : Nat) (reader : List UInt8) : Nat :=
  let r := echoResponder host reader (List.finRange 4) w
  if (aclL2capCreateCmd host l2capSignalEchoRsp id r.2.1).isSome then
    (echoWriter r.2.2 r.1).elim 0 fun c => host.echoRead c.2 reader
  else 0

def configRespTakes (reader : List UInt8) (len : Nat) : Nat :=
  let result := word (reader.take 6) 2
  if headerRead reader len 6 ∧ (result = l2capConfigResOk ∨ result = l2capConfigResErrParams ∨
    result = l2capConfigResErrUnknown) then 6 + optionsTaken (reader.drop 6) (len - 6)
  else headerTaken len 6

/-- An information response is read by its type, not by its length. -/
def infoRespTakes (reader : List UInt8) (len : Nat) : Nat :=
  if headerRead reader len 4 ∧ word (reader.take 4) 1 = infoRespResOk then 4 + infoSize (word (reader.take 4) 0)
  else headerTaken len 4

/-- What the handler of a response takes, by the state of the channel that awaits it. -/
def responseTakes (host : L2capHost) (l2cap : L2cap) (code : Nat) (reader : List UInt8) (len : Nat) : Nat :=
  if code = l2capSignalConnRsp then if l2cap.state = .waitConnectRsp then headerTaken len 8 else 0
  else if code = l2capSignalConfigRsp then
    if l2cap.state = .waitConfigRsp ∨ l2cap.state = .waitConfigReqRsp then configRespTakes reader len else 0
  else if code = l2capSignalEchoRsp then
    match l2cap.clientCb with
    | .client _ f => host.echoRead f reader
    | _ => 0
  else if code = l2capSignalInfoRsp then infoRespTakes reader len
  else if code = l2capSignalDisconnRsp then if l2cap.state = .waitDisconnect then headerTaken len 4 else 0
  else 0

/-- **What the handler of a command takes** of the reader behind its header; nothing if it never returns.  Only a response
that no channel awaits is skipped by its length. -/
def takes (host : L2capHost) (w : L2capLink) (code id : Nat) (reader : List UInt8) (len : Nat) : Option Nat :=
  if code % 2 = 0 then
    if code = l2capSignalConnReq then some (headerTaken len 4)
    else if code = l2capSignalConfigReq then configureReqTakes host w reader len
    else if code = l2capSignalEchoReq then some (echoReqTakes host w id reader)
    else if code = l2capSignalInfoReq then some (headerTaken len 2)
    else if code = l2capSignalDisconnReq then some (headerTaken len 4)
    else some 0
  else
    match w.findClient (·.expects code id) with
    | none => some len
    | some p => some (responseTakes host (w.channels p) code reader len)

/-! ## The parser of the options only moves on -/

theorem parseLoop_suffix (wantUnknown : Bool) (cmdSize : Nat) :
    ∀ (fuel : Nat) (reader : List UInt8) (params : ConfigureParams) (read unknownSize : Nat) (typeError : Bool),
      (configParseLoop wantUnknown cmdSize fuel reader params read unknownSize typeError).reader <:+ reader
  | 0, reader, _, _, _, _ => List.suffix_refl reader
  | fuel + 1, reader, params, read, unknownSize, typeError => by
    have hdrop : ∀ n, (reader.drop 2).drop n <:+ reader := fun n =>
      (List.drop_suffix n _).trans (List.drop_suffix 2 reader)
    unfold configParseLoop
    simp only
    split
    · split
      · exact List.drop_suffix 2 reader
      · split
        · exact List.drop_suffix 2 reader
        · split
          · exact (parseLoop_suffix wantUnknown cmdSize fuel _ _ _ _ _).trans (hdrop _)
          · split
            · exact hdrop _
            · exact (parseLoop_suffix wantUnknown cmdSize fuel _ _ _ _ _).trans (hdrop _)
    · split <;> exact List.suffix_refl reader

/-- How far it moves does not depend on the parameters, nor on what the caller wants to know. -/
theorem parseLoop_reader (a b : Bool) (cmdSize : Nat) :
    ∀ (fuel : Nat) (reader : List UInt8) (params params' : ConfigureParams) (read n n' : Nat) (t t' : Bool),
      (configParseLoop a cmdSize fuel reader params read n t).reader =
        (configParseLoop b cmdSize fuel reader params' read n' t').reader
  | 0, _, _, _, _, _, _, _, _ => rfl
  | fuel + 1, reader, params, params', read, n, n', t, t' => by
    unfold configParseLoop
    simp only
    split
    · split
      · rfl
      · split
        · rfl
        · split
          · exact parseLoop_reader a b cmdSize fuel _ _ _ _ _ _ _ _
          · split
            · rfl
            · exact parseLoop_reader a b cmdSize fuel _ _ _ _ _ _ _ _
    · split <;> split <;> rfl

theorem parse_reader (wantUnknown : Bool) (reader : List UInt8) (params : ConfigureParams) (cmdSize : Nat) :
    (l2capConfigParse wantUnknown reader params cmdSize).reader = reader.drop (optionsTaken reader cmdSize) := by
  have hsame : (l2capConfigParse wantUnknown reader params cmdSize).reader =
      (l2capConfigParse false reader .zero cmdSize).reader := parseLoop_reader ..
  have hsuf : (l2capConfigParse false reader .zero cmdSize).reader <:+ reader := parseLoop_suffix ..
  rw [hsame, optionsTaken]
  exact List.suffix_iff_eq_drop.1 hsuf

/-! ## Each handler takes what `takes` says -/

/-- The handler returned and took `k` bytes. -/
def Handled.Took (r : Handled) (reader : List UInt8) (k : Nat) : Prop := r.hangs = false ∧ r.reader = reader.drop k

theorem took_of (ok : Bool) (reader : List UInt8) (k : Nat) (w : L2capLink) :
    (Handled.of ok (reader.drop k) w).Took reader k := ⟨rfl, rfl⟩

/-- A handler with a header: what it takes if it can be read, and the failure otherwise. -/
theorem withSignalHeader_cases (w : L2capLink) (reader : List UInt8) (len neededLen : Nat)
    (handle : List UInt8 → List UInt8 → Handled) :
    (headerRead reader len neededLen = true ∧
      withSignalHeader w reader len neededLen handle = handle (reader.take neededLen) (reader.drop neededLen)) ∨
    (headerRead reader len neededLen = false ∧
      withSignalHeader w reader len neededLen handle = .of false (reader.drop (headerTaken len neededLen)) w) := by
  unfold withSignalHeader readSignalHeader headerRead headerTaken
  by_cases hlen : len < neededLen
  · right
    have hno : ¬ neededLen ≤ len := by omega
    simp [hlen, hno]
  · have hyes : neededLen ≤ len := by omega
    by_cases hr : neededLen ≤ reader.length
    · left
      have htake : (reader.take neededLen).length = neededLen := by simp; omega
      simp [hlen, hyes, hr]
    · right
      have htake : (reader.take neededLen).length ≠ neededLen := by simp; omega
      simp [hlen, hyes, hr]

/-- A handler that takes its header and nothing else. -/
theorem took_header (w : L2capLink) (reader : List UInt8) (len neededLen : Nat)
    {handle : List UInt8 → List UInt8 → Handled} (hh : ∀ header rest, (handle header rest).Took rest 0) :
    (withSignalHeader w reader len neededLen handle).Took reader (headerTaken len neededLen) := by
  rcases withSignalHeader_cases w reader len neededLen handle with ⟨hr, heq⟩ | ⟨-, heq⟩
  · have hlen : ¬ len < neededLen := by
      simp only [headerRead, Bool.and_eq_true, decide_eq_true_eq] at hr
      omega
    rw [heq, headerTaken, if_neg hlen]
    obtain ⟨h1, h2⟩ := hh (reader.take neededLen) (reader.drop neededLen)
    exact ⟨h1, by simpa using h2⟩
  · rw [heq]
    exact took_of ..

variable (host : L2capHost)

theorem took_connectionReq (w : L2capLink) (id : Nat) (reader : List UInt8) (len : Nat) :
    (aclL2capHandleConnectionReq host w id reader len).Took reader (headerTaken len 4) := by
  unfold aclL2capHandleConnectionReq
  refine took_header w reader len 4 fun header rest => ?_
  simp only
  split <;> exact ⟨rfl, rfl⟩

theorem took_disconnectReq (w : L2capLink) (id : Nat) (reader : List UInt8) (len : Nat) :
    (aclL2capHandleDisconnectReq host w id reader len).Took reader (headerTaken len 4) := by
  unfold aclL2capHandleDisconnectReq
  refine took_header w reader len 4 fun header rest => ?_
  split <;> exact ⟨rfl, rfl⟩

theorem took_infoReq (w : L2capLink) (id : Nat) (reader : List UInt8) (len : Nat) :
    (aclL2capHandleInfoReq host w id reader len).Took reader (headerTaken len 2) := by
  unfold aclL2capHandleInfoReq
  exact took_header w reader len 2 fun header rest => ⟨rfl, rfl⟩

theorem took_connectAnswered (w : L2capLink) (p : Nat) (reply : ConnectionResponse) (reader : List UInt8) :
    (connectAnswered host w p reply reader).Took reader 0 := by
  unfold connectAnswered
  simp only
  split
  · exact ⟨rfl, rfl⟩
  · split <;> exact ⟨rfl, rfl⟩

theorem took_connectCb (w : L2capLink) (p : Nat) (reader : List UInt8) (len : Nat) :
    (l2capConnectCb host w p reader len).Took reader (headerTaken len 8) := by
  unfold l2capConnectCb
  refine took_header w reader len 8 fun data rest => ?_
  simp only
  split
  · exact ⟨rfl, rfl⟩
  · exact took_connectAnswered host _ p _ rest

theorem took_disconnectResp (w : L2capLink) (p : Nat) (reader : List UInt8) (len : Nat) :
    (l2capHandleDisconnectResp host w p reader len).Took reader (headerTaken len 4) := by
  unfold l2capHandleDisconnectResp
  refine took_header w reader len 4 fun header rest => ?_
  simp only
  split <;> exact ⟨rfl, rfl⟩

theorem took_infoResp (w : L2capLink) (p : Nat) (reader : List UInt8) (len : Nat) :
    (l2capHandleInfoResp host w p reader len).Took reader (infoRespTakes reader len) := by
  unfold l2capHandleInfoResp infoRespTakes
  rcases withSignalHeader_cases w reader len 4 _ with ⟨hr, heq⟩ | ⟨hr, heq⟩
  · rw [heq]
    refine ⟨rfl, ?_⟩
    by_cases hok : word (reader.take 4) 1 = infoRespResOk
    · simp [Handled.of, hr, hok]
    · have hlen : headerTaken len 4 = 4 := by
        simp only [headerRead, Bool.and_eq_true, decide_eq_true_eq] at hr
        exact if_neg (by omega)
      simp [Handled.of, hok, hlen]
  · rw [heq]
    refine ⟨rfl, ?_⟩
    simp [Handled.of, hr]

theorem configRespParse_reader (result : Nat) (conf : ConfigureData) (reader : List UInt8) (cmdSize : Nat) :
    (configRespParse result conf reader cmdSize).2 =
      if result = l2capConfigResOk ∨ result = l2capConfigResErrParams ∨ result = l2capConfigResErrUnknown then
        reader.drop (optionsTaken reader cmdSize)
      else reader := by
  unfold configRespParse
  simp only
  split
  · rename_i h
    rw [if_pos (.inr (.inl h))]
    exact parse_reader ..
  · split
    · rename_i h
      rw [if_pos (.inr (.inr h))]
      exact parse_reader ..
    · split
      · rename_i h
        rw [if_pos (.inl h)]
        exact parse_reader ..
      · rename_i h1 h2 h3
        rw [if_neg]
        rintro (h | h | h) <;> contradiction

theorem took_configResp (w : L2capLink) (p id : Nat) (reader : List UInt8) (len : Nat) :
    (l2capHandleConfigResp host w p id reader len).Took reader (configRespTakes reader len) := by
  unfold l2capHandleConfigResp configRespTakes
  rcases withSignalHeader_cases w reader len 6 _ with ⟨hr, heq⟩ | ⟨hr, heq⟩
  · rw [heq]
    refine ⟨rfl, ?_⟩
    have hlen : headerTaken len 6 = 6 := by
      simp only [headerRead, Bool.and_eq_true, decide_eq_true_eq] at hr
      exact if_neg (by omega)
    simp only [Handled.of, configRespParse_reader, hr, true_and, hlen]
    split
    · rw [List.drop_drop]
    · rfl
  · rw [heq]
    refine ⟨rfl, ?_⟩
    simp [Handled.of, hr]

theorem took_echoResp (w : L2capLink) (p : Nat) (reader : List UInt8) :
    (l2capHandleEchoResp host w p reader).Took reader
      (match (w.channels p).clientCb with
        | .client _ f => host.echoRead f reader
        | _ => 0) := by
  unfold l2capHandleEchoResp
  simp only
  generalize (w.channels p).clientCb = cb
  cases cb <;> exact ⟨rfl, rfl⟩

theorem took_echoReq (w : L2capLink) (id : Nat) (reader : List UInt8) :
    (aclL2capHandleEchoReq host w id reader).Took reader (echoReqTakes host w id reader) := by
  unfold aclL2capHandleEchoReq echoReqTakes
  simp only
  generalize echoResponder host reader (List.finRange 4) w = r
  generalize aclL2capCreateCmd host l2capSignalEchoRsp id r.2.1 = writer
  refine ⟨rfl, ?_⟩
  cases writer with
  | none => rfl
  | some writer =>
    simp only [Handled.of, Option.isSome_some, if_true, echoReply]
    cases echoWriter r.2.2 r.1 <;> rfl

/-- What a handler does with the reader, as `takes` has it. -/
def Handled.Takes (r : Handled) (reader : List UInt8) : Option Nat → Prop
  | none => r.hangs = true
  | some k => r.Took reader k

theorem answer_isNone (w : L2capLink) (p id flags : Nat) (parsed : ConfigParsed) (reader : List UInt8) (len : Nat) :
    (answerConfigureReq host w p id flags parsed reader len).isNone =
      (decide (parsed.rc = .unknownType) && !typeErrorEnds host reader len) := by
  unfold answerConfigureReq typeErrorEnds
  cases parsed.rc with
  | ok =>
    simp only
    split <;> rfl
  | corrupted => rfl
  | unknownType =>
    simp only [l2capConfigureReplyTypeError]
    cases copyUnknown host (len - 4) (reader.length + 65537) 0 (reader.drop 4) <;> rfl

theorem takes_configureReqOn (w : L2capLink) (p id flags : Nat) (reader rest : List UInt8) (len : Nat) :
    (handleConfigureReqOn host w p id flags reader rest len).Takes rest
      (if ((w.channels p).configureReq.getD .zero).hasPendingPackets then some 0
      else if (l2capConfigParse true rest ((w.channels p).configureReq.getD .zero).params (len - 4)).rc = .unknownType ∧
        typeErrorEnds host reader len = false then none
      else some (optionsTaken rest (len - 4))) := by
  unfold handleConfigureReqOn
  simp only
  generalize (w.channels p).configureReq.getD .zero = conf
  generalize hparsed : l2capConfigParse true rest conf.params (len - 4) = parsed
  have hreader : parsed.reader = rest.drop (optionsTaken rest (len - 4)) := by rw [← hparsed]; exact parse_reader ..
  split
  · exact ⟨rfl, rfl⟩
  · generalize ((bteL2capRef (w.modify p fun l2cap => { l2cap with configureReq := some conf }) p).modify p
      fun l2cap => { l2cap with configureReq := some { conf with params := parsed.params } }) = w'
    have hans := answer_isNone host w' p id flags parsed reader len
    cases h : answerConfigureReq host w' p id flags parsed reader len with
    | none =>
      have hcond : parsed.rc = .unknownType ∧ typeErrorEnds host reader len = false := by simpa [h] using hans
      rw [if_pos hcond]
      rfl
    | some w'' =>
      have hcond : ¬ (parsed.rc = .unknownType ∧ typeErrorEnds host reader len = false) := by
        rintro ⟨h1, h2⟩
        simp [h, h1, h2] at hans
      rw [if_neg hcond]
      exact ⟨rfl, hreader⟩

theorem takes_configureReq (w : L2capLink) (id : Nat) (reader : List UInt8) (len : Nat) :
    (aclL2capHandleConfigureReq host w id reader len).Takes reader (configureReqTakes host w reader len) := by
  unfold aclL2capHandleConfigureReq configureReqTakes
  rcases withSignalHeader_cases w reader len 4 _ with ⟨hr, heq⟩ | ⟨hr, heq⟩
  · rw [heq, if_pos hr]
    cases w.configureTarget (word (reader.take 4) 0) with
    | none => exact ⟨rfl, rfl⟩
    | some p =>
      have hon := takes_configureReqOn host w p id (word (reader.take 4) 1) reader (reader.drop 4) len
      simp only at hon ⊢
      split at hon
      · rename_i hpending
        rw [if_pos hpending]
        exact ⟨hon.1, hon.2⟩
      · rename_i hpending
        rw [if_neg hpending]
        split at hon
        · rename_i hends
          rw [if_pos hends]
          exact hon
        · rename_i hends
          rw [if_neg hends]
          exact ⟨hon.1, by rw [hon.2, List.drop_drop]⟩
  · rw [heq, if_neg (by rw [hr]; decide)]
    exact took_of ..

theorem took_response (w : L2capLink) (p code id : Nat) (reader : List UInt8) (len : Nat) :
    (l2capHandleResponse host w p code id reader len).Took reader (responseTakes host (w.channels p) code reader len) := by
  unfold l2capHandleResponse responseTakes
  simp only
  split
  · split
    · exact took_connectCb ..
    · exact ⟨rfl, rfl⟩
  split
  · split
    · exact took_configResp ..
    · exact ⟨rfl, rfl⟩
  split
  · exact took_echoResp host w p reader
  split
  · exact took_infoResp ..
  split
  · split
    · exact took_disconnectResp ..
    · exact ⟨rfl, rfl⟩
  · exact ⟨rfl, rfl⟩

/-- **Every handler takes what `takes` says.** -/
theorem takes_signal (w : L2capLink) (code id : Nat) (reader : List UInt8) (len : Nat) :
    (handleSignal host w code id reader len).Takes reader (takes host w code id reader len) := by
  unfold handleSignal takes
  split
  · unfold aclL2capHandleRequest
    split
    · exact took_connectionReq ..
    split
    · exact takes_configureReq ..
    split
    · exact took_echoReq ..
    split
    · exact took_infoReq ..
    split
    · exact took_disconnectReq ..
    · exact ⟨rfl, rfl⟩
  · unfold aclL2capHandleResponse
    generalize hw : w.note (.response code id reader len w.table) = noted
    have hch : noted.channels = w.channels := hw ▸ rfl
    have hfind : noted.findClient (·.expects code id) = w.findClient (·.expects code id) := by
      rw [← hw, L2capLink.findClient_note]
    simp only [hfind]
    cases w.findClient (·.expects code id) with
    | none => exact ⟨rfl, rfl⟩
    | some p =>
      -- the reference and the count do not matter to the handler
      have hdown : ((bteL2capRef noted p).modify p countDown).channels p =
          countDown { w.channels p with refCount := (w.channels p).refCount + 1 } := by
        simp [L2capLink.modify, bteL2capRef, hch]
      have htook := took_response host ((bteL2capRef noted p).modify p countDown) p code id reader len
      rw [hdown] at htook
      exact htook

/-! ## In step -/

/-- Every command but the last is taken to its end, in the state it is handled in. -/
def InStep : L2capLink → List SignalCommand → Prop
  | _, [] => True
  | _, [_] => True
  | w, c :: d :: cs =>
    takes host w c.code.toNat c.id.toNat (c.body ++ (d :: cs).flatMap SignalCommand.bytes) c.body.length =
      some c.body.length ∧
    InStep (handleSignal host w c.code.toNat c.id.toNat (c.body ++ (d :: cs).flatMap SignalCommand.bytes)
      c.body.length).link (d :: cs)

instance decidableInStep : ∀ (w : L2capLink) (cs : List SignalCommand), Decidable (InStep host w cs)
  | _, [] => .isTrue trivial
  | _, [_] => .isTrue trivial
  | w, c :: d :: cs =>
    have := decidableInStep (handleSignal host w c.code.toNat c.id.toNat
      (c.body ++ (d :: cs).flatMap SignalCommand.bytes) c.body.length).link (d :: cs)
    inferInstanceAs (Decidable (_ = _ ∧ _))

theorem length_bytes_command (c : SignalCommand) : c.bytes.length = 4 + c.body.length := by
  simp [SignalCommand.bytes]
  omega

/-- The header of a command, read back. -/
theorem header_bytes (c : SignalCommand) (rest : List UInt8) (hlen : c.body.length < 65536) :
    ((c.bytes ++ rest).take 4).length = 4 ∧ ((c.bytes ++ rest).take 4).getD 0 0 = c.code ∧
      ((c.bytes ++ rest).take 4).getD 1 0 = c.id ∧ leVal (slice ((c.bytes ++ rest).take 4) 2 2) = c.body.length ∧
      (c.bytes ++ rest).drop 4 = c.body ++ rest := by
  have hle : leVal (leBytes 2 c.body.length) = c.body.length := by rw [leVal_leBytes]; omega
  have htake : (c.bytes ++ rest).take 4 = c.code :: c.id :: leBytes 2 c.body.length := by
    simp [SignalCommand.bytes, leBytes]
  rw [htake]
  refine ⟨by simp, rfl, rfl, ?_, ?_⟩
  · have hslice : slice (c.code :: c.id :: leBytes 2 c.body.length) 2 2 = leBytes 2 c.body.length := by
      simp [slice, leBytes]
    rw [hslice, hle]
  · simp [SignalCommand.bytes, leBytes]

/-- The first command the loop reads stands where its reader stands. -/
theorem loop_offset (totalLen size fuel parsedLen : Nat) (reader : List UInt8) (w : L2capLink) {v : Visited}
    {vs : List Visited} (h : (signallingLoop host totalLen size fuel parsedLen reader w).1 = v :: vs) :
    v.offset = size - reader.length := by
  cases fuel with
  | zero => cases h
  | succ fuel =>
    unfold signallingLoop at h
    simp only at h
    split at h
    · split at h
      · cases h
      · split at h <;> cases h <;> rfl
    · cases h

/-- **The loop is in step exactly when every handler takes its command to the end.** -/
theorem inStep_loop (totalLen size : Nat) (htotal : totalLen < 65536) :
    ∀ (cs : List SignalCommand) (fuel parsedLen : Nat) (w : L2capLink),
      parsedLen + (cs.flatMap SignalCommand.bytes).length = totalLen →
      (cs.flatMap SignalCommand.bytes).length ≤ size → (cs.flatMap SignalCommand.bytes).length < fuel →
      ((signallingLoop host totalLen size fuel parsedLen (cs.flatMap SignalCommand.bytes) w).1 =
        SignalCommand.visited (size - (cs.flatMap SignalCommand.bytes).length) cs ↔ InStep host w cs)
  | [], fuel, parsedLen, w, hsum, _, _ => by
    have hdone : ¬ parsedLen < totalLen := by simpa using hsum.ge
    cases fuel with
    | zero => simp [signallingLoop, SignalCommand.visited, InStep]
    | succ fuel => simp [signallingLoop, hdone, SignalCommand.visited, InStep]
  | _ :: _, 0, _, _, _, _, hfuel => absurd hfuel (Nat.not_lt_zero _)
  | c :: cs, fuel + 1, parsedLen, w, hsum, hsize, hfuel => by
    rw [List.flatMap_cons] at *
    have hl := length_bytes_command c
    rw [List.length_append, hl] at hsum hsize hfuel
    generalize hrest : cs.flatMap SignalCommand.bytes = rest at hsum hsize hfuel ⊢
    obtain ⟨hfour, hcode, hid, hlen, hdrop⟩ := header_bytes c rest (by omega)
    have hmore : parsedLen < totalLen := by omega
    have hmod : (parsedLen + 4 + c.body.length) % 65536 = parsedLen + 4 + c.body.length := Nat.mod_eq_of_lt (by omega)
    have hoff : size - (c.bytes ++ rest).length + 4 + c.body.length = size - rest.length := by
      rw [List.length_append, hl]
      omega
    unfold signallingLoop
    simp only [if_pos hmore, hfour, ne_eq, not_true_eq_false, if_false, hcode, hid, hlen, hdrop, hmod,
      SignalCommand.visited, hoff]
    have htakes := takes_signal host w c.code.toNat c.id.toNat (c.body ++ rest) c.body.length
    generalize hr : handleSignal host w c.code.toNat c.id.toNat (c.body ++ rest) c.body.length = r at htakes ⊢
    cases cs with
    | nil =>
      -- nothing follows the last command, whatever its handler leaves
      have hrest' : rest = [] := hrest.symm
      subst hrest'
      have hdone : ¬ parsedLen + 4 + c.body.length < totalLen := by simp at hsum; omega
      cases fuel with
      | zero => split <;> simp [signallingLoop, SignalCommand.visited, InStep]
      | succ fuel => split <;> simp [signallingLoop, hdone, SignalCommand.visited, InStep]
    | cons d ds =>
      rw [InStep, hrest, hr]
      cases ht : takes host w c.code.toNat c.id.toNat (c.body ++ rest) c.body.length with
      | none =>
        rw [ht] at htakes
        have hhang : r.hangs = true := htakes
        rw [if_pos hhang]
        simp [SignalCommand.visited]
      | some k =>
        rw [ht] at htakes
        obtain ⟨hhang, hreader⟩ := htakes
        rw [if_neg (by rw [hhang]; decide)]
        simp only [List.cons.injEq, true_and, Option.some.injEq]
        by_cases hk : k = c.body.length
        · have hsame : r.reader = rest := by rw [hreader, hk]; simp
          rw [hsame, ← hrest, hrest, and_iff_right hk, ← hrest]
          exact inStep_loop totalLen size htotal (d :: ds) fuel (parsedLen + 4 + c.body.length) r.link
            (by rw [hrest]; omega) (by rw [hrest]; omega) (by rw [hrest]; omega)
        · -- the next header is read somewhere else, if at all
          refine iff_of_false (fun h => ?_) fun h => hk h.1
          have hpos : 0 < rest.length := by
            rw [← hrest, List.flatMap_cons, List.length_append, length_bytes_command]
            omega
          have hne : size - rest.length = size - r.reader.length :=
            loop_offset host totalLen size fuel _ r.reader r.link h
          rw [hreader, List.length_drop, List.length_append] at hne
          omega

/-- An information request, a response nobody awaits with a long body, and an echo request. -/
def tidyCommands : List SignalCommand := [⟨0x0A, 1, [1, 0]⟩, ⟨0x09, 2, [1, 2, 3, 4, 5]⟩, ⟨0x08, 3, []⟩]

/-- An information request with two bytes more than its handler reads: the next header is read two bytes early. -/
def longRequest : List SignalCommand := [⟨0x0A, 1, [1, 0, 0, 0]⟩, ⟨0x08, 2, []⟩]

end Bte
