import BtEmbedded.HciCommandFormat
/-!
# HciReplies — what the callbacks of the commands are told (hci.c)

A command that is answered by a Command Complete has a function that reads the reply and calls the client.  The replies
have a format too (`HciReply.encode`), and each function reads its own back (`read_encode`).  The stored link keys do not
come in the reply but in events before it, several to an event, and are gathered until the reply is there
(`gathers_keys`).
-/
namespace Bte

open Bytes Codec Columns

/-! ## The functions -/

/-- What a client is told: the structures `BteHci…Reply`, names as strings and arrays as lists. -/
inductive HciReply where
  | done (status : UInt8)
  | linkKeyReq (status : UInt8) (address : BdAddr)
  | linkPolicySettings (status : UInt8) (connHandle settings : UInt16)
  | pinType (status pinType : UInt8)
  | storedLinkKey (status : UInt8) (maxKeys : UInt16) (storedKeys : List StoredLinkKey)
  | writtenLinkKey (status numKeys : UInt8)
  | deletedLinkKey (status : UInt8) (numKeys : UInt16)
  | localName (status : UInt8) (name : List UInt8)
  | pageTimeout (status : UInt8) (pageTimeout : UInt16)
  | scanEnable (status scanEnable : UInt8)
  | authEnable (status authEnable : UInt8)
  | classOfDevice (status : UInt8) (cod : ClassOfDevice)
  | autoFlushTimeout (status : UInt8) (connHandle flushTimeout : UInt16)
  | currentIacLap (status : UInt8) (laps : List UInt32)
  | linkSvTimeout (status : UInt8) (connHandle svTimeout : UInt16)
  | inquiryScanType (status inquiryScanType : UInt8)
  | inquiryMode (status inquiryMode : UInt8)
  | pageScanType (status pageScanType : UInt8)
  | localVersion (status hciVersion : UInt8) (hciRevision : UInt16) (lmpVersion : UInt8)
      (manufacturer lmpSubversion : UInt16)
  | localFeatures (status : UInt8) (features : UInt64)
  | bufferSize (status : UInt8) (aclMtu : UInt16) (scoMtu : UInt8) (aclMaxPackets scoMaxPackets : UInt16)
  | bdAddr (status : UInt8) (address : BdAddr)
  /-- The parameters in the buffer that a vendor callback is given. -/
  | vendor (parameters : List UInt8)
deriving DecidableEq

/-- The `BteHciCommandCb` functions. -/
inductive CompleteFn where
  | commandCompleteCb
  | readBufferSizeCb
  | readBdAddrCb
  | readLocalFeaturesCb
  | readLocalVersionCb
  | vendorCommandCb
  | periodicInquiryCompleteCb
  | exitPeriodicInquiryCb
  | linkKeyReqReplyCb
  | readLinkPolicySettingsCb
  | readPinTypeCb
  | readStoredLinkKeyCb
  | writeStoredLinkKeyCb
  | deleteStoredLinkKeyCb
  | readLocalNameCb
  | readPageTimeoutCb
  | readScanEnableCb
  | readAuthEnableCb
  | readClassOfDeviceCb
  | readAutoFlushTimeoutCb
  | readCurrentIacLapCb
  | readLinkSvTimeoutCb
  | readInquiryScanTypeCb
  | readInquiryModeCb
  | readPageScanTypeCb
deriving DecidableEq

namespace CompleteFn

def all : List CompleteFn :=
  [commandCompleteCb, readBufferSizeCb, readBdAddrCb, readLocalFeaturesCb, readLocalVersionCb, vendorCommandCb,
    periodicInquiryCompleteCb, exitPeriodicInquiryCb, linkKeyReqReplyCb, readLinkPolicySettingsCb, readPinTypeCb,
    readStoredLinkKeyCb, writeStoredLinkKeyCb, deleteStoredLinkKeyCb, readLocalNameCb, readPageTimeoutCb,
    readScanEnableCb, readAuthEnableCb, readClassOfDeviceCb, readAutoFlushTimeoutCb, readCurrentIacLapCb,
    readLinkSvTimeoutCb, readInquiryScanTypeCb, readInquiryModeCb, readPageScanTypeCb]

/-- The function as a pointer in a slot. -/
def ptr (f : CompleteFn) : FnPtr := .complete (all.idxOf f)

def ofPtr : FnPtr → Option CompleteFn
  | .complete id => all[id]?
  | _ => none

theorem ofPtr_ptr (f : CompleteFn) : ofPtr f.ptr = some f := by cases f <;> rfl

/-- The functions that call the client only if there is one. -/
def checksNull : CompleteFn → Bool
  | commandCompleteCb | periodicInquiryCompleteCb | exitPeriodicInquiryCb | linkKeyReqReplyCb | readStoredLinkKeyCb
  | writeStoredLinkKeyCb | deleteStoredLinkKeyCb => true
  | _ => false

end CompleteFn

section Reading

variable (buffer : List UInt8)

def replyStatus : UInt8 := buffer.getD hciCmdReplyPosStatus 0
def readLe16 (pos : Nat) : UInt16 := .ofNat (leVal (slice buffer pos 2))
def readLe64 (pos : Nat) : UInt64 := .ofNat (leVal (slice buffer pos 8))

def readBdAddrAt (pos : Nat) : BdAddr :=
  ⟨buffer.getD pos 0, buffer.getD (pos + 1) 0, buffer.getD (pos + 2) 0, buffer.getD (pos + 3) 0,
    buffer.getD (pos + 4) 0, buffer.getD (pos + 5) 0⟩

/-- A turn of the loop of `read_current_iac_lap_cb`. -/
def readLap (pos : Nat) : UInt32 :=
  (buffer.getD pos 0).toUInt32 ||| (buffer.getD (pos + 1) 0).toUInt32 <<< 8 ||| (buffer.getD (pos + 2) 0).toUInt32 <<< 16

/-- What each function makes of the buffer and of the link keys that came before it. -/
def CompleteFn.read (keys : ResponseArray StoredLinkKey) : CompleteFn → HciReply
  | commandCompleteCb | periodicInquiryCompleteCb | exitPeriodicInquiryCb => .done (replyStatus buffer)
  | linkKeyReqReplyCb => .linkKeyReq (replyStatus buffer) (readBdAddrAt buffer 6)
  | readLinkPolicySettingsCb => .linkPolicySettings (replyStatus buffer) (readLe16 buffer 6) (readLe16 buffer 8)
  | readPinTypeCb => .pinType (replyStatus buffer) (buffer.getD 6 0)
  | readStoredLinkKeyCb =>
    .storedLinkKey (replyStatus buffer) (readLe16 buffer 6)
      (keys.responses.elim [] fun b => (List.range keys.numResponses.toNat).map b.mem)
  | writeStoredLinkKeyCb => .writtenLinkKey (replyStatus buffer) (buffer.getD 6 0)
  | deleteStoredLinkKeyCb => .deletedLinkKey (replyStatus buffer) (readLe16 buffer 6)
  | readLocalNameCb =>
    .localName (replyStatus buffer) ((strncpy (buffer.drop 6) bteHciMaxNameLen).takeWhile (· ≠ 0))
  | readPageTimeoutCb => .pageTimeout (replyStatus buffer) (readLe16 buffer 6)
  | readScanEnableCb => .scanEnable (replyStatus buffer) (buffer.getD 6 0)
  | readAuthEnableCb => .authEnable (replyStatus buffer) (buffer.getD 6 0)
  | readClassOfDeviceCb =>
    .classOfDevice (replyStatus buffer) ⟨buffer.getD 6 0, buffer.getD 7 0, buffer.getD 8 0⟩
  | readAutoFlushTimeoutCb => .autoFlushTimeout (replyStatus buffer) (readLe16 buffer 6) (readLe16 buffer 8)
  | readCurrentIacLapCb =>
    .currentIacLap (replyStatus buffer)
      ((List.range (buffer.getD 6 0).toNat).map fun i => readLap buffer (7 + 3 * i))
  | readLinkSvTimeoutCb => .linkSvTimeout (replyStatus buffer) (readLe16 buffer 6) (readLe16 buffer 8)
  | readInquiryScanTypeCb => .inquiryScanType (replyStatus buffer) (buffer.getD 6 0)
  | readInquiryModeCb => .inquiryMode (replyStatus buffer) (buffer.getD 6 0)
  | readPageScanTypeCb => .pageScanType (replyStatus buffer) (buffer.getD 6 0)
  | readLocalVersionCb =>
    .localVersion (replyStatus buffer) (buffer.getD 6 0) (readLe16 buffer 7) (buffer.getD 9 0) (readLe16 buffer 10)
      (readLe16 buffer 12)
  | readLocalFeaturesCb => .localFeatures (replyStatus buffer) (readLe64 buffer 6)
  | readBufferSizeCb =>
    .bufferSize (replyStatus buffer) (readLe16 buffer 6) (buffer.getD 8 0) (readLe16 buffer 9) (readLe16 buffer 11)
  | readBdAddrCb => .bdAddr (replyStatus buffer) (readBdAddrAt buffer 6)
  | vendorCommandCb => .vendor (buffer.drop 5)

end Reading

/-- The function a command is given for its reply; the asynchronous commands have none. -/
def HciCall.completeFn : HciCall → Option CompleteFn
  | nop | inquiryCancel | createConnectionCancel _ | writeLinkPolicySettings .. | setEventMask _ | reset
  | setEventFilter .. | writePinType _ | writeLocalName _ | writePageTimeout _ | writeScanEnable _ | writeAuthEnable _
  | writeClassOfDevice _ | writeAutoFlushTimeout .. | setCtrlToHostFlowControl _ | setHostBufferSize ..
  | writeCurrentIacLap _ | writeLinkSvTimeout .. | writeInquiryScanType _ | writeInquiryMode _ | writePageScanType _ =>
    some .commandCompleteCb
  | periodicInquiry .. => some .periodicInquiryCompleteCb
  | exitPeriodicInquiry => some .exitPeriodicInquiryCb
  | linkKeyReqReply .. | linkKeyReqNegReply _ | pinCodeReqReply .. | pinCodeReqNegReply _ => some .linkKeyReqReplyCb
  | readLinkPolicySettings _ => some .readLinkPolicySettingsCb
  | readPinType => some .readPinTypeCb
  | readStoredLinkKey _ => some .readStoredLinkKeyCb
  | writeStoredLinkKey _ => some .writeStoredLinkKeyCb
  | deleteStoredLinkKey _ => some .deleteStoredLinkKeyCb
  | readLocalName => some .readLocalNameCb
  | readPageTimeout => some .readPageTimeoutCb
  | readScanEnable => some .readScanEnableCb
  | readAuthEnable => some .readAuthEnableCb
  | readClassOfDevice => some .readClassOfDeviceCb
  | readAutoFlushTimeout _ => some .readAutoFlushTimeoutCb
  | readCurrentIacLap => some .readCurrentIacLapCb
  | readLinkSvTimeout _ => some .readLinkSvTimeoutCb
  | readInquiryScanType => some .readInquiryScanTypeCb
  | readInquiryMode => some .readInquiryModeCb
  | readPageScanType => some .readPageScanTypeCb
  | readLocalVersion => some .readLocalVersionCb
  | readLocalFeatures => some .readLocalFeaturesCb
  | readBufferSize => some .readBufferSizeCb
  | readBdAddr => some .readBdAddrCb
  | vendorCommand .. => some .vendorCommandCb
  | _ => none

/-! ## The format of the replies -/

namespace HciReply

/-- The function reads replies like this one. -/
def For : HciReply → CompleteFn → Prop
  | done _, f => f = .commandCompleteCb ∨ f = .periodicInquiryCompleteCb ∨ f = .exitPeriodicInquiryCb
  | linkKeyReq .., f => f = .linkKeyReqReplyCb
  | linkPolicySettings .., f => f = .readLinkPolicySettingsCb
  | pinType .., f => f = .readPinTypeCb
  | storedLinkKey .., f => f = .readStoredLinkKeyCb
  | writtenLinkKey .., f => f = .writeStoredLinkKeyCb
  | deletedLinkKey .., f => f = .deleteStoredLinkKeyCb
  | localName .., f => f = .readLocalNameCb
  | pageTimeout .., f => f = .readPageTimeoutCb
  | scanEnable .., f => f = .readScanEnableCb
  | authEnable .., f => f = .readAuthEnableCb
  | classOfDevice .., f => f = .readClassOfDeviceCb
  | autoFlushTimeout .., f => f = .readAutoFlushTimeoutCb
  | currentIacLap .., f => f = .readCurrentIacLapCb
  | linkSvTimeout .., f => f = .readLinkSvTimeoutCb
  | inquiryScanType .., f => f = .readInquiryScanTypeCb
  | inquiryMode .., f => f = .readInquiryModeCb
  | pageScanType .., f => f = .readPageScanTypeCb
  | localVersion .., f => f = .readLocalVersionCb
  | localFeatures .., f => f = .readLocalFeaturesCb
  | bufferSize .., f => f = .readBufferSizeCb
  | bdAddr .., f => f = .readBdAddrCb
  | vendor _, f => f = .vendorCommandCb

/-- What fits into the events. -/
def Fits : HciReply → Prop
  | storedLinkKey _ _ keys => keys.length ≤ 255
  | localName _ name => name.length ≤ 248 ∧ 0 ∉ name
  | currentIacLap _ laps => laps.length ≤ 83 ∧ ∀ lap ∈ laps, lap &&& 0xffffff = lap
  | vendor parameters => parameters.length ≤ 252
  | _ => True

/-- The return parameters of the command. -/
def encode : HciReply → List UInt8
  | done status => [status]
  | linkKeyReq status address | bdAddr status address => status :: address.bytes
  | linkPolicySettings status connHandle n | autoFlushTimeout status connHandle n | linkSvTimeout status connHandle n =>
    status :: (leBytes 2 connHandle.toNat ++ leBytes 2 n.toNat)
  | pinType status b | writtenLinkKey status b | scanEnable status b | authEnable status b | inquiryScanType status b
  | inquiryMode status b | pageScanType status b => [status, b]
  | storedLinkKey status maxKeys keys => status :: (leBytes 2 maxKeys.toNat ++ leBytes 2 keys.length)
  | deletedLinkKey status n | pageTimeout status n => status :: leBytes 2 n.toNat
  | localName status name => status :: strncpy name bteHciMaxNameLen
  | classOfDevice status cod => status :: cod.bytes
  | currentIacLap status laps => status :: .ofNat laps.length :: laps.flatMap lapBytes
  | localVersion status hciVersion hciRevision lmpVersion manufacturer lmpSubversion =>
    status :: hciVersion :: (leBytes 2 hciRevision.toNat ++ lmpVersion ::
      (leBytes 2 manufacturer.toNat ++ leBytes 2 lmpSubversion.toNat))
  | localFeatures status features => status :: leBytes 8 features.toNat
  | bufferSize status aclMtu scoMtu aclMaxPackets scoMaxPackets =>
    status :: (leBytes 2 aclMtu.toNat ++ scoMtu :: (leBytes 2 aclMaxPackets.toNat ++ leBytes 2 scoMaxPackets.toNat))
  | vendor parameters => parameters

/-- The link keys that come in events of their own. -/
def keys : HciReply → List StoredLinkKey
  | storedLinkKey _ _ keys => keys
  | _ => []

end HciReply

/-- A Command Complete with its return parameters. -/
def commandComplete (packets : UInt8) (opcode parameters : List UInt8) : List UInt8 :=
  [hciCommandComplete, .ofNat (3 + parameters.length), packets] ++ opcode ++ parameters

/-- A Return Link Keys event: all the addresses come before all the keys. -/
def returnLinkKeys (keys : List StoredLinkKey) : List UInt8 :=
  [hciReturnLinkKeys, .ofNat (1 + 22 * keys.length), .ofNat keys.length] ++ keys.flatMap (·.address.bytes) ++
    keys.flatMap (·.key.1)

/-! ## Reading the fields -/

theorem readLe16_of_slice {buffer : List UInt8} {pos : Nat} {n : UInt16} (h : slice buffer pos 2 = leBytes 2 n.toNat) :
    readLe16 buffer pos = n := by
  rw [readLe16, h, leVal_leBytes]
  exact (congrArg UInt16.ofNat (Nat.mod_eq_of_lt n.toNat_lt)).trans UInt16.ofNat_toNat

theorem readLe64_of_slice {buffer : List UInt8} {pos : Nat} {n : UInt64} (h : slice buffer pos 8 = leBytes 8 n.toNat) :
    readLe64 buffer pos = n := by
  rw [readLe64, h, leVal_leBytes]
  exact (congrArg UInt64.ofNat (Nat.mod_eq_of_lt n.toNat_lt)).trans UInt64.ofNat_toNat

/-- The three bytes of a LAP, read from the low one. -/
theorem readLap_eq (buffer : List UInt8) (pos : Nat) : readLap buffer pos =
    .ofNat (leVal [buffer.getD pos 0, buffer.getD (pos + 1) 0, buffer.getD (pos + 2) 0]) := by
  have h0 := (buffer.getD pos 0).toNat_lt
  have h1 := (buffer.getD (pos + 1) 0).toNat_lt
  have h2 := (buffer.getD (pos + 2) 0).toNat_lt
  unfold readLap
  generalize buffer.getD pos 0 = a at *
  generalize buffer.getD (pos + 1) 0 = b at *
  generalize buffer.getD (pos + 2) 0 = c at *
  have hb : (b.toUInt32 <<< 8).toNat = 2 ^ 8 * b.toNat := by
    rw [UInt32.toNat_shiftLeft, UInt8.toNat_toUInt32, Nat.shiftLeft_eq]
    show b.toNat * 256 % 4294967296 = _
    omega
  have hc : (c.toUInt32 <<< 16).toNat = 2 ^ 16 * c.toNat := by
    rw [UInt32.toNat_shiftLeft, UInt8.toNat_toUInt32, Nat.shiftLeft_eq]
    show c.toNat * 65536 % 4294967296 = _
    omega
  refine UInt32.toNat_inj.1 ?_
  rw [UInt32.toNat_or, UInt32.toNat_or, hb, hc, UInt8.toNat_toUInt32, Nat.or_comm a.toNat,
    ← Nat.two_pow_add_eq_or_of_lt h0, Nat.or_comm, ← Nat.two_pow_add_eq_or_of_lt (by omega), UInt32.toNat_ofNat']
  simp only [leVal]
  omega

theorem length_storedAddress (key : StoredLinkKey) : key.address.bytes.length = 6 := rfl

/-- One LAP of several. -/
theorem readLap_flatMap (front post : List UInt8) {laps : List UInt32} {i : Nat} (hi : i < laps.length) :
    readLap (front ++ (laps.flatMap lapBytes ++ post)) (front.length + 3 * i) = laps[i] &&& 0xffffff := by
  have hbyte : ∀ k, k < 3 →
      (front ++ (laps.flatMap lapBytes ++ post)).getD (front.length + 3 * i + k) 0 = (lapBytes laps[i]).getD k 0 := by
    intro k hk
    rw [getD_skip (Nat.add_assoc ..)]
    exact getD_flatMap_width length_lapBytes post laps hi hk
  rw [readLap_eq, ← Nat.add_zero (front.length + 3 * i), hbyte 0 (by decide), Nat.add_zero, hbyte 1 (by decide),
    hbyte 2 (by decide), ← HciCall.ofNat_lapField]
  have hval : leVal (lapBytes laps[i]) = (HciCall.lapField laps[i]).val := by
    rw [HciCall.lapBytes_eq, encode_le, leVal_leBytes]
    exact Nat.mod_eq_of_lt (HciCall.lapField laps[i]).2
  exact congrArg UInt32.ofNat hval

/-! ## The stored link keys -/

section Memory

variable {α : Type}

theorem fill_shows {kept : List α} {mem : Nat → α} (h : Shows mem kept) (read : Nat → α) (l : List α)
    (hread : ∀ i (hi : i < l.length), read i = l[i]) : ∀ n, n ≤ l.length →
      Shows ((List.range n).foldl (fun mem i => Function.update mem (kept.length + i) (read i)) mem) (kept ++ l.take n)
  | 0, _ => by
    rw [List.take_zero, List.append_nil]
    exact h
  | n + 1, hn => by
    have ih := fill_shows h read l hread n (Nat.le_of_succ_le hn)
    have hlen : (kept ++ l.take n).length = kept.length + n := by
      rw [List.length_append, List.length_take_of_le (Nat.le_of_succ_le hn)]
    rw [List.range_succ, List.foldl_append, List.take_succ_eq_append_getElem hn, ← List.append_assoc, ← hread n hn]
    have hnext := (ih.update (read n)).2
    rw [hlen] at hnext
    exact hnext

end Memory

/-- The keys that have been gathered. -/
structure KeysGathered (a : ResponseArray StoredLinkKey) (kept : List StoredLinkKey) : Prop where
  count : a.numResponses.toNat = kept.length
  sized : Sized 16 a.responses kept.length
  shown : kept ≠ [] → ∃ b ∈ a.responses, Shows b.mem kept

theorem keysGathered_empty : KeysGathered .empty [] := ⟨rfl, sized_none 16 0, fun h => absurd rfl h⟩

/-- What `read_stored_link_key_cb` hands over. -/
theorem KeysGathered.list {a : ResponseArray StoredLinkKey} {kept : List StoredLinkKey} (h : KeysGathered a kept) :
    (a.responses.elim [] fun b => (List.range a.numResponses.toNat).map b.mem) = kept := by
  rw [h.count]
  by_cases hne : kept = []
  · subst hne
    cases a.responses <;> rfl
  · obtain ⟨b, hb, hshown⟩ := h.shown hne
    rw [Option.mem_def] at hb
    rw [hb]
    exact hshown.map_range

theorem readLinkKey_returnLinkKeys (keys : List StoredLinkKey) {i : Nat} (hi : i < keys.length) :
    readLinkKey (returnLinkKeys keys) keys.length i = keys[i] := by
  have haddrs : (keys.flatMap (·.address.bytes)).length = 6 * keys.length := length_flatMap_width length_storedAddress keys
  have hskip : ∀ j, (returnLinkKeys keys).getD (3 + j) 0 =
      (keys.flatMap (·.address.bytes) ++ keys.flatMap (·.key.1)).getD j 0 := by
    intro j
    rw [returnLinkKeys, List.append_assoc]
    exact getD_skip rfl
  have haddr : ∀ k, k < 6 → (returnLinkKeys keys).getD (3 + 6 * i + k) 0 = keys[i].address.bytes.getD k 0 := by
    intro k hk
    rw [Nat.add_assoc, hskip]
    exact getD_flatMap_width length_storedAddress _ keys hi hk
  have hkey : ∀ k, k < 16 → (returnLinkKeys keys).getD (3 + 6 * keys.length + 16 * i + k) 0 = keys[i].key.1.getD k 0 := by
    intro k hk
    have hrow := getD_flatMap_width (fun key : StoredLinkKey => key.key.2) [] keys hi hk
    rw [Nat.add_assoc, Nat.add_assoc, hskip, getD_skip (by rw [haddrs])]
    rwa [List.append_nil] at hrow
  have h0 := haddr 0 (by decide)
  have h1 := haddr 1 (by decide)
  have h2 := haddr 2 (by decide)
  have h3 := haddr 3 (by decide)
  have h4 := haddr 4 (by decide)
  have h5 := haddr 5 (by decide)
  have hbytes : ((List.range 16).map fun k => (returnLinkKeys keys).getD (3 + 6 * keys.length + 16 * i + k) 0) =
      keys[i].key.1 := by
    refine List.ext_getElem (by rw [List.length_map, List.length_range, keys[i].key.2]) fun k hk hk' => ?_
    rw [keys[i].key.2] at hk'
    rw [List.getElem_map, List.getElem_range, hkey k hk']
    simp [List.getD_eq_getElem?_getD, keys[i].key.2, hk']
  generalize keys[i] = key at *
  obtain ⟨address, bs⟩ := key
  simp only [readLinkKey, h0, h1, h2, h3, h4, h5, hbytes]
  rfl

/-- **An event adds its keys**, as long as the count holds them. -/
theorem KeysGathered.add {a : ResponseArray StoredLinkKey} {kept : List StoredLinkKey} (h : KeysGathered a kept)
    (fresh : Nat → StoredLinkKey) {keys : List StoredLinkKey} (hle : (kept ++ keys).length ≤ 255) :
    KeysGathered (returnLinkKeysCb (some fresh) a (returnLinkKeys keys)).array (kept ++ keys) := by
  rw [List.length_append] at hle
  have hcount : ((returnLinkKeys keys).getD 2 0).toNat = keys.length := HciCall.toNat_ofNat_of_le (by omega)
  have hsized := h.sized.ensure (some fresh) keys.length
  unfold returnLinkKeysCb
  simp only [hcount, h.count]
  cases hens : ensureArraySize (some fresh) a.responses 16 kept.length keys.length with
  | none =>
    -- nothing was allocated, so nothing is stored and nothing came
    have hkept : kept = [] := by
      by_contra hne
      obtain ⟨b, hb, -⟩ := h.shown hne
      rw [Option.mem_def] at hb
      simp only [ensureArraySize, hb, realloc, Option.map_some] at hens
      split at hens <;> cases hens
    have hnone : keys = [] := by
      subst hkept
      by_contra hne
      have hpos := List.length_pos_iff.2 hne
      have hblocks : blocks 16 (0 + keys.length) > blocks 16 0 := by
        simp only [blocks]
        omega
      simp only [ensureArraySize, List.length_nil, if_pos hblocks, realloc, Option.map_some] at hens
      cases hens
    subst hkept hnone
    exact ⟨h.count, sized_none 16 _, fun hne => absurd rfl hne⟩
  | some b =>
    have hshown := ensure_shows (by decide) h.sized h.shown hens
    have hmem := fill_shows hshown (readLinkKey (returnLinkKeys keys) keys.length) keys
      (fun i hi => readLinkKey_returnLinkKeys keys hi) keys.length (Nat.le_refl _)
    rw [List.take_length] at hmem
    rw [hens] at hsized
    refine ⟨?_, ?_, fun _ => ⟨_, rfl, hmem⟩⟩
    · have hnum : a.numResponses.toNat = kept.length := h.count
      simp only
      rw [UInt8.toNat_add, hnum, HciCall.toNat_ofNat_of_le (by omega), List.length_append]
      omega
    · intro b' hb'
      cases hb'
      rw [List.length_append]
      exact hsized b rfl

/-! ## The round trip -/

/-- **What a callback is told is the reply that was sent**, the stored link keys having come before it. -/
theorem read_encode {r : HciReply} {f : CompleteFn} (hf : r.For f) (hr : r.Fits) (packets : UInt8) (ocf : UInt16)
    (ogf : UInt8) {a : ResponseArray StoredLinkKey} (ha : KeysGathered a r.keys) :
    f.read (commandComplete packets (opcodeLe ocf ogf) r.encode) a = r := by
  cases r with
  | done status =>
    obtain rfl | rfl | rfl := hf <;> rfl
  | linkKeyReq status address | bdAddr status address =>
    cases hf
    rfl
  | pinType status b | writtenLinkKey status b | scanEnable status b | authEnable status b | inquiryScanType status b
  | inquiryMode status b | pageScanType status b | classOfDevice status b =>
    cases hf
    rfl
  | vendor parameters =>
    cases hf
    rfl
  | deletedLinkKey status n | pageTimeout status n =>
    cases hf
    exact congrArg _ (readLe16_of_slice rfl)
  | linkPolicySettings status connHandle n | autoFlushTimeout status connHandle n | linkSvTimeout status connHandle n =>
    cases hf
    exact congrArg₂ _ (readLe16_of_slice rfl) (readLe16_of_slice rfl)
  | localFeatures status features =>
    cases hf
    exact congrArg _ (readLe64_of_slice rfl)
  | storedLinkKey status maxKeys keys =>
    cases hf
    exact congrArg₂ _ (readLe16_of_slice rfl) ha.list
  | localVersion status hciVersion hciRevision lmpVersion manufacturer lmpSubversion =>
    cases hf
    exact (congrArg₂ (fun x y => HciReply.localVersion status hciVersion x lmpVersion y _) (readLe16_of_slice rfl)
      (readLe16_of_slice rfl)).trans (congrArg _ (readLe16_of_slice rfl))
  | bufferSize status aclMtu scoMtu aclMaxPackets scoMaxPackets =>
    cases hf
    exact (congrArg₂ (fun x y => HciReply.bufferSize status x scoMtu y _) (readLe16_of_slice rfl)
      (readLe16_of_slice rfl)).trans (congrArg _ (readLe16_of_slice rfl))
  | localName status name =>
    cases hf
    have hname : ((strncpy (strncpy name bteHciMaxNameLen) bteHciMaxNameLen).takeWhile (· ≠ 0)) = name := by
      have hall : name.takeWhile (· ≠ 0) = name := List.takeWhile_eq_self_iff.2 fun b hb => by
        have hne : b ≠ 0 := fun h0 => hr.2 (h0 ▸ hb)
        simpa using hne
      have htake : name.take bteHciMaxNameLen = name := List.take_of_length_le hr.1
      rw [HciCall.takeWhile_strncpy, HciCall.takeWhile_strncpy, hall, htake, htake]
    exact congrArg _ hname
  | currentIacLap status laps =>
    cases hf
    have hcount : (UInt8.ofNat laps.length).toNat = laps.length := HciCall.toNat_ofNat_of_le (Nat.le_trans hr.1 (by decide))
    have hlap : ∀ i (hi : i < laps.length),
        readLap (commandComplete packets (opcodeLe ocf ogf) (HciReply.currentIacLap status laps).encode) (7 + 3 * i) =
          laps[i] := by
      intro i hi
      have hrow := readLap_flatMap ([hciCommandComplete,
        .ofNat (3 + (HciReply.currentIacLap status laps).encode.length), packets] ++ opcodeLe ocf ogf ++
        [status, .ofNat laps.length]) [] hi
      rw [List.append_nil, hr.2 _ (List.getElem_mem hi)] at hrow
      exact hrow
    refine congrArg _ (List.ext_getElem ?_ fun i hi hi' => ?_)
    · rw [List.length_map, List.length_range]
      exact hcount
    · rw [List.getElem_map, List.getElem_range]
      exact hlap i hi'

end Bte
