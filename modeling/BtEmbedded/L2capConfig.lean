import BtEmbedded.Lib.Bytes
/-!
# L2capConfig — configuration options (l2cap.c)

The seven options of an L2CAP configuration.  `l2cap_config_parse` and `l2cap_config_write` treat them alike: each has a
type, a bit in the field mask, a length and the field it is stored in, so that one table (`ConfigOption`) serves both.

A reader is the list of bytes it has still to yield: `bte_buffer_reader_read` takes from the front (`read_spec`).
-/
namespace Bte

open Bytes

inductive ConfigOption
  | mtu | flushTimeout | qos | retxFlow | frameCheckSeq | extFlow | maxWindowSize
deriving DecidableEq

namespace ConfigOption

/-- In the order in which they are written. -/
def all : List ConfigOption := [mtu, flushTimeout, qos, retxFlow, frameCheckSeq, extFlow, maxWindowSize]

def type : ConfigOption → Nat
  | mtu => 0x01
  | flushTimeout => 0x02
  | qos => 0x03
  | retxFlow => 0x04
  | frameCheckSeq => 0x05
  | extFlow => 0x06
  | maxWindowSize => 0x07

/-- The bit of the field mask. -/
def bit : ConfigOption → Nat
  | mtu => 1 <<< 0
  | flushTimeout => 1 <<< 1
  | qos => 1 <<< 2
  | retxFlow => 1 <<< 3
  | frameCheckSeq => 1 <<< 4
  | extFlow => 1 <<< 5
  | maxWindowSize => 1 <<< 6

def len : ConfigOption → Nat
  | mtu => 2
  | flushTimeout => 2
  | qos => 22
  | retxFlow => 9
  | frameCheckSeq => 1
  | extFlow => 16
  | maxWindowSize => 2

def ofType (type : Nat) : Option ConfigOption := all.find? fun o => o.type == type

end ConfigOption

structure ConfigQos where
  flags : Nat
  serviceType : Nat
  tokenRate : Nat
  tokenBucketSize : Nat
  peakBandwith : Nat
  accessLatency : Nat
  delayVariation : Nat
deriving DecidableEq

structure ConfigRetxFlow where
  mode : Nat
  txWindowSize : Nat
  maxTransmit : Nat
  retxTimeout : Nat
  monitorTimeout : Nat
  maxPduSize : Nat
deriving DecidableEq

structure ConfigExtFlow where
  identifier : Nat
  serviceType : Nat
  maxSduSize : Nat
  sduInterTime : Nat
  accessLatency : Nat
  flushTimeout : Nat
deriving DecidableEq

structure ConfigureParams where
  fieldMask : Nat
  mtu : Nat
  flushTimeout : Nat
  frameCheckSequence : Nat
  maxWindowSize : Nat
  qos : Option ConfigQos
  retxFlow : Option ConfigRetxFlow
  extFlow : Option ConfigExtFlow
deriving DecidableEq

def ConfigureParams.zero : ConfigureParams := ⟨0, 0, 0, 0, 0, none, none, none⟩

def l2capConfigParamsClear (params : ConfigureParams) : ConfigureParams :=
  { params with fieldMask := 0, qos := none, retxFlow := none, extFlow := none }

/-! ## The bytes of an option -/

def ConfigQos.bytes (q : ConfigQos) : List UInt8 :=
  leBytes 1 q.flags ++ leBytes 1 q.serviceType ++ leBytes 4 q.tokenRate ++ leBytes 4 q.tokenBucketSize ++
    leBytes 4 q.peakBandwith ++ leBytes 4 q.accessLatency ++ leBytes 4 q.delayVariation

def ConfigRetxFlow.bytes (r : ConfigRetxFlow) : List UInt8 :=
  leBytes 1 r.mode ++ leBytes 1 r.txWindowSize ++ leBytes 1 r.maxTransmit ++ leBytes 2 r.retxTimeout ++
    leBytes 2 r.monitorTimeout ++ leBytes 2 r.maxPduSize

def ConfigExtFlow.bytes (e : ConfigExtFlow) : List UInt8 :=
  leBytes 1 e.identifier ++ leBytes 1 e.serviceType ++ leBytes 2 e.maxSduSize ++ leBytes 4 e.sduInterTime ++
    leBytes 4 e.accessLatency ++ leBytes 4 e.flushTimeout

def ConfigQos.ofBytes (bs : List UInt8) : ConfigQos :=
  ⟨leVal (slice bs 0 1), leVal (slice bs 1 1), leVal (slice bs 2 4), leVal (slice bs 6 4), leVal (slice bs 10 4),
    leVal (slice bs 14 4), leVal (slice bs 18 4)⟩

def ConfigRetxFlow.ofBytes (bs : List UInt8) : ConfigRetxFlow :=
  ⟨leVal (slice bs 0 1), leVal (slice bs 1 1), leVal (slice bs 2 1), leVal (slice bs 3 2), leVal (slice bs 5 2),
    leVal (slice bs 7 2)⟩

def ConfigExtFlow.ofBytes (bs : List UInt8) : ConfigExtFlow :=
  ⟨leVal (slice bs 0 1), leVal (slice bs 1 1), leVal (slice bs 2 2), leVal (slice bs 4 4), leVal (slice bs 8 4),
    leVal (slice bs 12 4)⟩

/-- A field after bytes were read into it, perhaps fewer than it has. -/
def readInto (w old : Nat) (data : List UInt8) : Nat := leVal (data ++ (leBytes w old).drop data.length)

namespace ConfigOption

/-- The number that is read in place, before the length is checked. -/
def readNumber (o : ConfigOption) (params : ConfigureParams) (data : List UInt8) : ConfigureParams :=
  match o with
  | mtu => { params with mtu := readInto 2 params.mtu data }
  | flushTimeout => { params with flushTimeout := readInto 2 params.flushTimeout data }
  | frameCheckSeq => { params with frameCheckSequence := readInto 1 params.frameCheckSequence data }
  | maxWindowSize => { params with maxWindowSize := readInto 2 params.maxWindowSize data }
  | _ => params

/-- The structure that is stored once its length is right; an option with the hint bit is dropped here. -/
def storeStruct (o : ConfigOption) (type : Nat) (params : ConfigureParams) (data : List UInt8) : ConfigureParams :=
  if type = o.type then
    match o with
    | qos => { params with qos := some (ConfigQos.ofBytes data) }
    | retxFlow => { params with retxFlow := some (ConfigRetxFlow.ofBytes data) }
    | extFlow => { params with extFlow := some (ConfigExtFlow.ofBytes data) }
    | _ => params
  else params

/-- Whether `l2cap_config_write` writes the option. -/
def present (o : ConfigOption) (params : ConfigureParams) : Bool :=
  match o with
  | qos => params.qos.isSome
  | retxFlow => params.retxFlow.isSome
  | extFlow => params.extFlow.isSome
  | o => params.fieldMask &&& o.bit != 0

def bytes (o : ConfigOption) (params : ConfigureParams) : List UInt8 :=
  match o with
  | mtu => leBytes 2 params.mtu
  | flushTimeout => leBytes 2 params.flushTimeout
  | qos => (params.qos.map ConfigQos.bytes).getD []
  | retxFlow => (params.retxFlow.map ConfigRetxFlow.bytes).getD []
  | frameCheckSeq => leBytes 1 params.frameCheckSequence
  | extFlow => (params.extFlow.map ConfigExtFlow.bytes).getD []
  | maxWindowSize => leBytes 2 params.maxWindowSize

end ConfigOption

theorem fieldMask_readNumber (o : ConfigOption) (params : ConfigureParams) (data : List UInt8) :
    (o.readNumber params data).fieldMask = params.fieldMask := by
  cases o <;> rfl

theorem fieldMask_storeStruct (o : ConfigOption) (type : Nat) (params : ConfigureParams) (data : List UInt8) :
    (o.storeStruct type params data).fieldMask = params.fieldMask := by
  unfold ConfigOption.storeStruct
  split
  · cases o <;> rfl
  · rfl

/-! ## Parsing -/

inductive ConfigParse
  | ok | corrupted | unknownType
deriving DecidableEq

/-- What parsing leaves behind; `unknownSize` is only kept when the caller asks for it. -/
structure ConfigParsed where
  rc : ConfigParse
  params : ConfigureParams
  unknownSize : Nat
  reader : List UInt8

def l2capConfigHint : Nat := 0x80

/-- The `error` exit of `l2cap_config_parse`. -/
def configParseError (params : ConfigureParams) (unknownSize : Nat) (reader : List UInt8) (typeError : Bool) :
    ConfigParsed :=
  ⟨if typeError then .unknownType else .corrupted, l2capConfigParamsClear params, unknownSize, reader⟩

/-- The loop of `l2cap_config_parse`: `read` bytes of `cmdSize` are done.  Every turn reads two bytes or ends. -/
def configParseLoop (wantUnknown : Bool) (cmdSize : Nat) :
    Nat → List UInt8 → ConfigureParams → Nat → Nat → Bool → ConfigParsed
  | 0, reader, params, _, unknownSize, typeError => configParseError params unknownSize reader typeError
  | fuel + 1, reader, params, read, unknownSize, typeError =>
    if read < cmdSize then
      let header := reader.take 2
      let reader := reader.drop 2
      if header.length ≠ 2 then configParseError params unknownSize reader typeError
      else
        let read := read + 2
        let type := (header.getD 0 0).toNat
        let size := (header.getD 1 0).toNat
        if read + size > cmdSize then configParseError params unknownSize reader typeError
        else
          match ConfigOption.ofType (type &&& 0x7f) with
          | none =>
            let known := type &&& l2capConfigHint ≠ 0
            configParseLoop wantUnknown cmdSize fuel (reader.drop size) params (read + size)
              (if known || !wantUnknown then unknownSize else (unknownSize + 2 + size) % 65536) (typeError || !known)
          | some o =>
            let data := reader.take o.len
            let params := o.readNumber { params with fieldMask := params.fieldMask ||| o.bit } data
            if data.length ≠ o.len ∨ size ≠ o.len then
              configParseError params unknownSize (reader.drop o.len) typeError
            else
              configParseLoop wantUnknown cmdSize fuel (reader.drop o.len) (o.storeStruct type params data) (read + size)
                unknownSize typeError
    else if unknownSize ≠ 0 then configParseError params unknownSize reader typeError
    else ⟨.ok, params, unknownSize, reader⟩

def l2capConfigParse (wantUnknown : Bool) (reader : List UInt8) (params : ConfigureParams) (cmdSize : Nat) :
    ConfigParsed :=
  configParseLoop wantUnknown cmdSize (cmdSize + 1) reader params 0 0 false

/-! ## Writing -/

/-- The options from `startCommand` on, until one does not fit: its type, or 0, and the bytes before it. -/
def configWriteFrom (params : ConfigureParams) (startCommand bufferSize : Nat) :
    List ConfigOption → Nat → Nat × List UInt8
  | [], _ => (0, [])
  | o :: os, size =>
    if startCommand ≤ o.type ∧ o.present params then
      if size + 2 + o.len > bufferSize then (o.type, [])
      else
        let r := configWriteFrom params startCommand bufferSize os (size + 2 + o.len)
        (r.1, UInt8.ofNat o.type :: UInt8.ofNat o.len :: o.bytes params ++ r.2)
    else configWriteFrom params startCommand bufferSize os size

def l2capConfigWrite (params : ConfigureParams) (startCommand bufferSize : Nat) : Nat × List UInt8 :=
  configWriteFrom params startCommand bufferSize ConfigOption.all 0

end Bte
