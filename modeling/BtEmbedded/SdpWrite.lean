import BtEmbedded.SdpElement
/-!
# SdpWrite — writing data elements (services/sdp.c)

`bte_sdp_de_write` takes a tree as a variable argument list and writes it in one go, measuring the contents of every
sequence with a pass that has no buffer before it writes them.  An argument list is a list of `Arg`; `De.args` is the call
that asks for a tree.  `loop_spec` says what both passes do with a list of siblings.

Sizes are those of a 64-bit host, on which no buffer is longer than `ssize_t` can say; `Endian` is the host's byte order.
Arguments other than those the source reads, or too few, are outside the model.  A UUID of 128 bits is such a case: the
source reads a `BteSdpUint128`, and that is what `De.args` passes, with the bytes of the UUID in it.  A caller who passes the
structure `BteSdpDeUuid128` instead gives `va_arg` another type: on x86-64 it is read right from the registers and from a
multiple of sixteen bytes on the stack, and eight bytes too far anywhere else.
-/
namespace Bte

open Bytes

/-! ## Arguments -/

inductive Endian
  | little | big
deriving DecidableEq

inductive Arg
  /-- An `int`, or an `uint32_t`. -/
  | int (v : BitVec 32)
  | u64 (v : BitVec 64)
  /-- A `BteSdpUint128` or a `BteSdpInt128`, as its sixteen bytes lie in memory. -/
  | u128 (mem : { bs : List UInt8 // bs.length = 16 })
  | str (s : { bs : List UInt8 // 0 ∉ bs })
  /-- The elements of an array, as they lie in memory. -/
  | values (mem : List UInt8)
  | strings (ss : List { bs : List UInt8 // 0 ∉ bs })

def bteSdpDeEnd : Nat := 0xffffffff
def bteSdpDeSpecialMask : Nat := 0xff000000
def bteSdpDeSpecialArray : Nat := 0xaa000000

def vaInt : List Arg → Nat × List Arg
  | .int v :: args => (v.toNat, args)
  | args => (bteSdpDeEnd, args.drop 1)

def vaU64 : List Arg → Nat × List Arg
  | .u64 v :: args => (v.toNat, args)
  | args => (0, args.drop 1)

/-- `va_arg(*args, BteSdpUint128)`. -/
def vaU128 : List Arg → List UInt8 × List Arg
  | .u128 mem :: args => (mem.1, args)
  | args => ([], args.drop 1)

def vaStr : List Arg → List UInt8 × List Arg
  | .str s :: args => (s.1, args)
  | args => ([], args.drop 1)

/-! ## The code -/

/-- The two halves of a little-endian number, each written big-endian and swapped. -/
def flip128 (mem : List UInt8) : List UInt8 :=
  beBytes 8 (leVal (slice mem 8 8)) ++ beBytes 8 (leVal (slice mem 0 8))

def fixedLength (type : Nat) : Bool := type ≤ bteSdpDeTypeUuid128 || type == bteSdpDeTypeBool

def deArraySize (count type : Nat) : List Arg → Nat
  | .strings ss :: _ =>
    if type = bteSdpDeTypeString ∨ type = bteSdpDeTypeUrl then
      (ss.take count).foldl (fun size s => size + (1 + (varSize s.1.length).2.length + s.1.length)) 0
    else 0
  | _ => if fixedLength type then bteSdpDeGetTotalSize [UInt8.ofNat type] * count % 2 ^ 32 else 0

/-- What `de_array_write` stores; `strcpy` stores the terminator of the last string too. -/
def deArrayWrite (host : Endian) (count type : Nat) : List Arg → List UInt8
  | .values mem :: _ =>
    if fixedLength type then
      let size := 1 <<< (type &&& bteSdpDeSizeMask)
      (List.range count).flatMap fun i =>
        let src := slice mem (i * size) size
        UInt8.ofNat type :: (if host = .little then src.reverse else src)
    else []
  | .strings ss :: _ =>
    if type = bteSdpDeTypeString ∨ type = bteSdpDeTypeUrl then
      ((ss.take count).flatMap fun s => varHeader type s.1.length ++ s.1) ++ (if count = 0 then [] else [0])
    else []
  | _ => []

/-- The elements without children: their `req_size`, the bytes they store, and the arguments left. -/
def deItem (host : Endian) (type : Nat) (args : List Arg) : Nat × List UInt8 × List Arg :=
  match type with
  | 0x00 => (1, [0x00], args)
  | 0x10 | 0x08 =>
    let (v8, args) := vaInt args
    (1 + 1, UInt8.ofNat type :: beBytes 1 v8, args)
  | 0x11 | 0x09 | 0x19 =>
    let (v16, args) := vaInt args
    (1 + 2, UInt8.ofNat type :: beBytes 2 v16, args)
  | 0x12 | 0x0a | 0x1a =>
    let (v32, args) := vaInt args
    (1 + 4, UInt8.ofNat type :: beBytes 4 v32, args)
  | 0x13 | 0x0b =>
    let (v64, args) := vaU64 args
    (1 + 8, UInt8.ofNat type :: beBytes 8 v64, args)
  | 0x14 | 0x0c =>
    let (v128, args) := vaU128 args
    (1 + 16, UInt8.ofNat type :: (if host = .little then flip128 v128 else v128), args)
  | 0x1c =>
    let (v128, args) := vaU128 args
    (1 + 16, UInt8.ofNat type :: v128, args)
  | 0x28 =>
    let (v, args) := vaInt args
    (1 + 1, [0x28, if v ≠ 0 then 1 else 0], args)
  | 0x20 | 0x40 =>
    let (str, args) := vaStr args
    (1 + (varSize str.length).2.length + str.length, varHeader type str.length ++ str, args)
  | type =>
    if type &&& bteSdpDeSpecialMask = bteSdpDeSpecialArray then
      let count := type &&& 0x00ffffff
      let (type, args) := vaInt args
      (deArraySize count type args, deArrayWrite host count type args, args.drop 1)
    else (1, [], args)

/-- Store at `dest`, which is not `NULL` where there is room. -/
def deStore (mem : List UInt8) (dest : Option Nat) (bytes : List UInt8) : List UInt8 :=
  match dest with
  | none => mem
  | some d => blit mem d bytes

/-- The size written, the memory and the arguments left. -/
structure DeWritten where
  size : Nat
  mem : List UInt8
  args : List Arg

/-- The loop of `de_write`; `fuel` bounds the number of arguments read. -/
def deLoop (host : Endian) : Nat → Nat → List UInt8 → Option Nat → Int → Nat → List Arg → DeWritten
  | 0, _, mem, _, _, size, args => ⟨size, mem, args⟩
  | fuel + 1, depth, mem, dest, remaining, size, args =>
    let (type, args) := vaInt args
    if type = bteSdpDeEnd then ⟨size, mem, args⟩
    else if type = bteSdpDeTypeSequence ∨ type = bteSdpDeTypeChoice then
      let inner := deLoop host fuel (depth + 1) mem none 0 0 args
      let header := varHeader type inner.size
      let reqSize := header.length + inner.size
      let mem :=
        if remaining > reqSize then
          (deLoop host fuel (depth + 1) (deStore mem dest header) (dest.map (· + header.length))
            (remaining - header.length) 0 args).mem
        else mem
      if depth = 0 then ⟨(size + reqSize) % 2 ^ 32, mem, inner.args⟩
      else deLoop host fuel depth mem (dest.map (· + reqSize)) (remaining - reqSize) ((size + reqSize) % 2 ^ 32) inner.args
    else
      let (reqSize, bytes, args) := deItem host type args
      let mem := if remaining > reqSize then deStore mem dest bytes else mem
      if depth = 0 then ⟨(size + reqSize) % 2 ^ 32, mem, args⟩
      else deLoop host fuel depth mem (dest.map (· + reqSize)) (remaining - reqSize) ((size + reqSize) % 2 ^ 32) args

/-- `bte_sdp_de_write`: with a buffer, whose size is passed, or with `NULL`. -/
def bteSdpDeWrite (host : Endian) (buffer : Option (List UInt8)) (args : List Arg) : DeWritten :=
  match buffer with
  | none => deLoop host (args.length + 1) 0 [] none 0 0 args
  | some mem => deLoop host (args.length + 1) 0 mem (some 0) mem.length 0 args

/-! ## The call that asks for a tree -/

/-- A number as a 128-bit argument. -/
def Endian.u128 (host : Endian) (v : Nat) : { bs : List UInt8 // bs.length = 16 } :=
  match host with
  | .little => ⟨leBytes 16 v, length_leBytes 16 v⟩
  | .big => ⟨beBytes 16 v, length_beBytes 16 v⟩

def intArg (n : Nat) : Arg := .int (.ofNat 32 n)

/-- The type, and the value with the type that the source reads: a UUID of 128 bits is passed as a `BteSdpUint128`. -/
def Scalar.args (host : Endian) (s : Scalar) : List Arg :=
  intArg s.type :: match s with
  | .nil => []
  | .uint .w8 v => [.int (v.setWidth 32)]
  | .uint .w16 v => [.int (v.setWidth 32)]
  | .uint .w32 v => [.int v]
  | .uint .w64 v => [.u64 v]
  | .uint .w128 v => [.u128 (host.u128 v.toNat)]
  | .int .w8 v => [.int (v.signExtend 32)]
  | .int .w16 v => [.int (v.signExtend 32)]
  | .int .w32 v => [.int v]
  | .int .w64 v => [.u64 v]
  | .int .w128 v => [.u128 (host.u128 v.toNat)]
  | .uuid16 v => [.int (v.setWidth 32)]
  | .uuid32 v => [.int v]
  | .uuid128 v => [.u128 v]
  | .bool b => [.int (if b then 1 else 0)]

mutual

def De.args (host : Endian) : De → List Arg
  | .scalar s => s.args host
  | .text k s => [intArg k.type, .str s]
  | .group k children => intArg k.type :: (argsAll host children ++ [intArg bteSdpDeEnd])

def argsAll (host : Endian) : List De → List Arg
  | [] => []
  | t :: ts => t.args host ++ argsAll host ts

end

/-! ## One element -/

theorem vaInt_intArg {n : Nat} (h : n < 2 ^ 32) (args : List Arg) : vaInt (intArg n :: args) = (n, args) := by
  simp only [intArg, vaInt, BitVec.toNat_ofNat]
  rw [Nat.mod_eq_of_lt h]

theorem leBytes_mod (w n : Nat) : leBytes w (n % 256 ^ w) = leBytes w n := by
  have h := leBytes_leVal (leBytes w n)
  rwa [length_leBytes, leVal_leBytes] at h

theorem beBytes_of_mod {w n m : Nat} (h : n % 256 ^ w = m % 256 ^ w) : beBytes w n = beBytes w m := by
  rw [beBytes, beBytes, ← leBytes_mod w n, ← leBytes_mod w m, h]

theorem leBytes_append (a b n : Nat) : leBytes (a + b) n = leBytes a n ++ leBytes b (n / 256 ^ a) := by
  induction a generalizing n with
  | zero => simp [leBytes]
  | succ a ih =>
    rw [Nat.succ_add, leBytes, ih, leBytes, List.cons_append, Nat.div_div_eq_div_mul, Nat.pow_succ']

/-- Both halves of the number, each the other way round and in the other's place, are its big-endian bytes. -/
theorem flip128_leBytes (n : Nat) : flip128 (leBytes 16 n) = beBytes 16 n := by
  have hsplit : leBytes 16 n = leBytes 8 n ++ leBytes 8 (n / 256 ^ 8) := leBytes_append 8 8 n
  have hhi : slice (leBytes 16 n) 8 8 = leBytes 8 (n / 256 ^ 8) := by
    rw [hsplit, slice, List.drop_left' (length_leBytes 8 n), List.take_of_length_le (by simp)]
  have hlo : slice (leBytes 16 n) 0 8 = leBytes 8 n := by
    rw [hsplit, slice, List.drop_zero, List.take_left' (length_leBytes 8 n)]
  have hback : ∀ bs : List UInt8, bs.length = 8 → beBytes 8 (leVal bs) = bs.reverse := by
    intro bs hbs
    rw [beBytes, ← hbs, leBytes_leVal]
  rw [flip128, hhi, hlo, hback _ (by simp), hback _ (by simp), ← List.reverse_append, ← hsplit, beBytes]

theorem signExtend_mod {w : Nat} (hw : w ≤ 32) (v : BitVec w) : (v.signExtend 32).toNat % 2 ^ w = v.toNat := by
  have h : (v.signExtend 32).setWidth w = v := by
    ext i hi
    simp only [BitVec.getElem_setWidth, BitVec.getLsbD_signExtend, hi, if_true]
    simp [show i < 32 by omega, BitVec.getLsbD_eq_getElem hi]
  rw [← BitVec.toNat_setWidth, h]

/-- The bytes stored for a number that was passed as an `int`. -/
theorem beBytes_int {w : Nat} {v : BitVec (8 * w)} {a : BitVec 32} (h : a.toNat % 2 ^ (8 * w) = v.toNat) :
    beBytes w a.toNat = beBytes w v.toNat := by
  apply beBytes_of_mod
  have hpow : (256 : Nat) ^ w = 2 ^ (8 * w) := by rw [Nat.pow_mul]
  rw [hpow, h, Nat.mod_eq_of_lt v.isLt]

theorem setWidth_mod {w : Nat} (hw : w ≤ 32) (v : BitVec w) : (v.setWidth 32).toNat % 2 ^ w = v.toNat := by
  have hlt : 2 ^ w ≤ 2 ^ 32 := Nat.pow_le_pow_right (by omega) hw
  rw [BitVec.toNat_setWidth, Nat.mod_eq_of_lt (show v.toNat < 2 ^ 32 by have := v.isLt; omega), Nat.mod_eq_of_lt v.isLt]

/-- A 128-bit number as it is passed, turned where the host needs it. -/
theorem u128_bytes (host : Endian) (n : Nat) :
    (if host = .little then flip128 (host.u128 n).1 else (host.u128 n).1) = beBytes 16 n := by
  cases host with
  | little => exact flip128_leBytes n
  | big => rfl

/-- **An element without children stores its encoding** and takes its own arguments. -/
theorem deItem_scalar (host : Endian) (s : Scalar) (rest : List Arg) :
    deItem host s.type ((s.args host).drop 1 ++ rest) = (1 + s.data.length, UInt8.ofNat s.type :: s.data, rest) := by
  cases s with
  | nil => rfl
  | uint w v =>
    rw [Scalar.data, length_beBytes]
    cases w with
    | w8 => rw [← beBytes_int (setWidth_mod (by decide) v)]; rfl
    | w16 => rw [← beBytes_int (setWidth_mod (by decide) v)]; rfl
    | w32 => rfl
    | w64 => rfl
    | w128 => exact congrArg (fun bs => (1 + 16, UInt8.ofNat 0x0c :: bs, rest)) (u128_bytes host v.toNat)
  | int w v =>
    rw [Scalar.data, length_beBytes]
    cases w with
    | w8 => rw [← beBytes_int (signExtend_mod (by decide) v)]; rfl
    | w16 => rw [← beBytes_int (signExtend_mod (by decide) v)]; rfl
    | w32 => rfl
    | w64 => rfl
    | w128 => exact congrArg (fun bs => (1 + 16, UInt8.ofNat 0x14 :: bs, rest)) (u128_bytes host v.toNat)
  | uuid16 v =>
    rw [Scalar.data, length_beBytes, ← beBytes_int (w := 2) (setWidth_mod (by decide) v)]
    rfl
  | uuid32 v => rfl
  | uuid128 v =>
    rw [Scalar.data, v.2]
    rfl
  | bool b => cases b <;> rfl

theorem deItem_text (host : Endian) (k : TextKind) (s : { bs : List UInt8 // 0 ∉ bs }) (rest : List Arg) :
    deItem host k.type (.str s :: rest) = ((De.text k s).encode.length, (De.text k s).encode, rest) := by
  have hlen : (De.text k s).encode.length = 1 + (varSize s.1.length).2.length + s.1.length := by
    simp only [De.encode, varHeader, List.length_append, List.length_cons]
    omega
  rw [hlen, De.encode]
  cases k <;> rfl

/-! ## The loop over siblings -/

/-- What follows an element of a given size in the loop. -/
def deNext (host : Endian) (fuel depth : Nat) (mem : List UInt8) (dest : Option Nat) (remaining : Int) (size len : Nat)
    (args : List Arg) : DeWritten :=
  if depth = 0 then ⟨(size + len) % 2 ^ 32, mem, args⟩
  else deLoop host fuel depth mem (dest.map (· + len)) (remaining - len) ((size + len) % 2 ^ 32) args

/-- Where there is room, there is a buffer that has it. -/
def Room (mem : List UInt8) (dest : Option Nat) (remaining : Int) (len : Nat) : Prop :=
  remaining > len → ∃ d, dest = some d ∧ d + len ≤ mem.length

/-- A measuring pass, or a buffer with room for all that comes. -/
def Fits (mem : List UInt8) (dest : Option Nat) (remaining : Int) (len : Nat) : Prop :=
  (dest = none ∧ remaining ≤ 0) ∨ ∃ d, dest = some d ∧ remaining > len ∧ d + len ≤ mem.length

theorem Fits.room {mem : List UInt8} {dest : Option Nat} {remaining : Int} {len n : Nat}
    (h : Fits mem dest remaining len) (hn : n ≤ len) : Room mem dest remaining n := by
  intro hr
  rcases h with ⟨_, h0⟩ | ⟨d, hd, _, hlen⟩
  · omega
  · exact ⟨d, hd, by omega⟩

/-- What is stored is the bytes of the element, in either pass. -/
theorem Fits.store {mem : List UInt8} {dest : Option Nat} {remaining : Int} {len : Nat} (bytes : List UInt8)
    (h : Fits mem dest remaining len) (hn : bytes.length ≤ len) :
    (if remaining > bytes.length then deStore mem dest bytes else mem) = deStore mem dest bytes := by
  rcases h with ⟨rfl, h0⟩ | ⟨d, rfl, hr, _⟩
  · rw [deStore, if_neg (by omega)]
  · rw [if_pos (by omega)]

theorem Fits.next {mem : List UInt8} {dest : Option Nat} {remaining : Int} {bytes : List UInt8} {len : Nat}
    (h : Fits mem dest remaining (bytes.length + len)) :
    Fits (deStore mem dest bytes) (dest.map (· + bytes.length)) (remaining - bytes.length) len := by
  rcases h with ⟨rfl, h0⟩ | ⟨d, rfl, hr, hlen⟩
  · exact .inl ⟨rfl, by omega⟩
  · refine .inr ⟨d + bytes.length, rfl, by omega, ?_⟩
    rw [deStore, length_blit (by omega)]
    omega

theorem deStore_append {mem : List UInt8} {dest : Option Nat} {remaining : Int} {a b : List UInt8}
    (h : Fits mem dest remaining (a.length + b.length)) :
    deStore (deStore mem dest a) (dest.map (· + a.length)) b = deStore mem dest (a ++ b) := by
  rcases h with ⟨rfl, _⟩ | ⟨d, rfl, _, hlen⟩
  · rfl
  · exact blit_blit (by omega)

theorem scalar_type_lt (s : Scalar) : s.type < 2 ^ 32 ∧ s.type ≠ bteSdpDeEnd ∧
    ¬ (s.type = bteSdpDeTypeSequence ∨ s.type = bteSdpDeTypeChoice) := by
  have hmem := mem_scalarSizes s
  generalize s.type = type at hmem
  generalize s.data.length = len at hmem
  simp only [scalarSizes, List.mem_cons, Prod.mk.injEq, List.not_mem_nil, or_false] at hmem
  unfold bteSdpDeEnd bteSdpDeTypeSequence bteSdpDeTypeChoice
  omega

theorem GroupKind.type_spec (k : GroupKind) :
    k.type < 2 ^ 32 ∧ k.type ≠ bteSdpDeEnd ∧ (k.type = bteSdpDeTypeSequence ∨ k.type = bteSdpDeTypeChoice) := by
  cases k <;> decide

theorem loop_scalar (host : Endian) (s : Scalar) (fuel depth : Nat) (mem : List UInt8) (dest : Option Nat)
    (remaining : Int) (size : Nat) (rest : List Arg) :
    deLoop host (fuel + 1) depth mem dest remaining size ((De.scalar s).args host ++ rest) =
      deNext host fuel depth (if remaining > (De.scalar s).encode.length then deStore mem dest (De.scalar s).encode else mem)
        dest remaining size (De.scalar s).encode.length rest := by
  obtain ⟨hlt, hend, hgroup⟩ := scalar_type_lt s
  have hargs : (De.scalar s).args host = intArg s.type :: (s.args host).drop 1 := rfl
  have hlen : 1 + s.data.length = (De.scalar s).encode.length := by
    rw [De.encode, List.length_cons, Nat.add_comm]
  rw [hargs, List.cons_append, deLoop, vaInt_intArg hlt]
  simp only [if_neg hend, if_neg hgroup, deItem_scalar, hlen]
  rfl

theorem loop_text (host : Endian) (k : TextKind) (s : { bs : List UInt8 // 0 ∉ bs }) (fuel depth : Nat)
    (mem : List UInt8) (dest : Option Nat) (remaining : Int) (size : Nat) (rest : List Arg) :
    deLoop host (fuel + 1) depth mem dest remaining size ((De.text k s).args host ++ rest) =
      deNext host fuel depth (if remaining > (De.text k s).encode.length then deStore mem dest (De.text k s).encode else mem)
        dest remaining size (De.text k s).encode.length rest := by
  have htype : k.type < 2 ^ 32 ∧ k.type ≠ bteSdpDeEnd ∧ ¬ (k.type = bteSdpDeTypeSequence ∨ k.type = bteSdpDeTypeChoice) := by
    cases k <;> decide
  have hargs : (De.text k s).args host ++ rest = intArg k.type :: .str s :: rest := rfl
  rw [hargs, deLoop, vaInt_intArg htype.1]
  simp only [if_neg htype.2.1, if_neg htype.2.2, deItem_text]
  rfl

/-- A sequence is measured and then written, if its contents are. -/
theorem loop_group (host : Endian) (k : GroupKind) (ts : List De) (fuel depth : Nat) (mem : List UInt8)
    (dest : Option Nat) (remaining : Int) (size : Nat) (rest : List Arg)
    (hroom : Room mem dest remaining (De.group k ts).encode.length)
    (hts : ∀ mem dest remaining, Fits mem dest remaining (encodeAll ts).length →
      deLoop host fuel (depth + 1) mem dest remaining 0 (argsAll host ts ++ intArg bteSdpDeEnd :: rest) =
        ⟨(encodeAll ts).length, deStore mem dest (encodeAll ts), rest⟩) :
    deLoop host (fuel + 1) depth mem dest remaining size ((De.group k ts).args host ++ rest) =
      deNext host fuel depth
        (if remaining > (De.group k ts).encode.length then deStore mem dest (De.group k ts).encode else mem)
        dest remaining size (De.group k ts).encode.length rest := by
  have htype := k.type_spec
  have hargs : (De.group k ts).args host ++ rest =
      intArg k.type :: (argsAll host ts ++ intArg bteSdpDeEnd :: rest) := by
    simp [De.args]
  have hlen : (varHeader k.type (encodeAll ts).length).length + (encodeAll ts).length = (De.group k ts).encode.length := by
    rw [De.encode, List.length_append]
  rw [hargs, deLoop, vaInt_intArg htype.1]
  simp only [if_neg htype.2.1, if_pos htype.2.2, hts mem none 0 (.inl ⟨rfl, Int.le_refl 0⟩), hlen]
  by_cases hr : remaining > (De.group k ts).encode.length
  · obtain ⟨d, rfl, hd⟩ := hroom hr
    -- the contents go behind the header, into the room that was checked for both
    have hfit : Fits mem (some d) remaining ((varHeader k.type (encodeAll ts).length).length + (encodeAll ts).length) :=
      .inr ⟨d, rfl, by omega, by omega⟩
    simp only [if_pos hr, hts _ _ _ hfit.next, deStore_append hfit]
    rw [← De.encode]
    rfl
  · simp only [if_neg hr]
    rfl

theorem one_le_args (host : Endian) (t : De) : 1 ≤ (t.args host).length := by
  cases t with
  | scalar s => simp [De.args, Scalar.args]
  | text k s => simp [De.args]
  | group k ts => simp [De.args]

mutual

/-- **One element**, at any depth: its encoding is stored if there is room, and the loop goes on behind it. -/
theorem loop_element (host : Endian) : ∀ (t : De) (fuel depth : Nat) (mem : List UInt8) (dest : Option Nat)
    (remaining : Int) (size : Nat) (rest : List Arg), (t.args host).length ≤ fuel + 1 → t.encode.length < 2 ^ 32 →
    Room mem dest remaining t.encode.length →
    deLoop host (fuel + 1) depth mem dest remaining size (t.args host ++ rest) =
      deNext host fuel depth (if remaining > t.encode.length then deStore mem dest t.encode else mem)
        dest remaining size t.encode.length rest
  | .scalar s, fuel, depth, mem, dest, remaining, size, rest, _, _, _ =>
    loop_scalar host s fuel depth mem dest remaining size rest
  | .text k s, fuel, depth, mem, dest, remaining, size, rest, _, _, _ =>
    loop_text host k s fuel depth mem dest remaining size rest
  | .group k ts, fuel, depth, mem, dest, remaining, size, rest, hf, hlen, hroom => by
    have hsmall : (encodeAll ts).length < 2 ^ 32 := by
      rw [De.encode, List.length_append] at hlen
      omega
    have hfuel : (argsAll host ts).length + 1 ≤ fuel := by
      simp only [De.args, List.length_cons, List.length_append, List.length_nil] at hf
      omega
    refine loop_group host k ts fuel depth mem dest remaining size rest hroom fun mem dest remaining hfit => ?_
    have h := loop_siblings host ts fuel (depth + 1) mem dest remaining 0 rest hfuel (by omega) (by omega) hfit
    rwa [Nat.zero_add] at h

/-- **All the elements of a sequence**, up to the end mark. -/
theorem loop_siblings (host : Endian) : ∀ (ts : List De) (fuel depth : Nat) (mem : List UInt8) (dest : Option Nat)
    (remaining : Int) (size : Nat) (rest : List Arg), (argsAll host ts).length + 1 ≤ fuel → 0 < depth →
    size + (encodeAll ts).length < 2 ^ 32 → Fits mem dest remaining (encodeAll ts).length →
    deLoop host fuel depth mem dest remaining size (argsAll host ts ++ intArg bteSdpDeEnd :: rest) =
      ⟨size + (encodeAll ts).length, deStore mem dest (encodeAll ts), rest⟩
  | _, 0, _, _, _, _, _, _, hf, _, _, _ => by omega
  | [], fuel + 1, depth, mem, dest, remaining, size, rest, _, _, _, hfit => by
    have hstore : deStore mem dest [] = mem := by
      rcases hfit with ⟨rfl, _⟩ | ⟨d, rfl, _, _⟩
      · rfl
      · simp [deStore, blit]
    simp only [argsAll, encodeAll, List.nil_append, List.length_nil, Nat.add_zero, hstore]
    rw [deLoop, vaInt_intArg (by decide)]
    simp only [if_true]
  | t :: ts, fuel + 1, depth, mem, dest, remaining, size, rest, hf, hdepth, hsize, hfit => by
    have h1 := one_le_args host t
    simp only [argsAll, encodeAll, List.length_append] at hf hsize hfit ⊢
    have ht := loop_element host t fuel depth mem dest remaining size (argsAll host ts ++ intArg bteSdpDeEnd :: rest)
      (by omega) (by omega) (hfit.room (by omega))
    have hts := loop_siblings host ts fuel depth (deStore mem dest t.encode) (dest.map (· + t.encode.length))
      (remaining - t.encode.length) (size + t.encode.length) rest (by omega) hdepth (by omega) hfit.next
    rw [List.append_assoc, ht, hfit.store t.encode (by omega), deNext, if_neg (by omega),
      Nat.mod_eq_of_lt (by omega), hts, deStore_append hfit, Nat.add_assoc]

end

/-- **What the call for a tree does**: it measures the encoding, and stores it in a larger buffer. -/
theorem deWrite_tree (host : Endian) (t : De) (hsize : t.encode.length < 2 ^ 32) :
    bteSdpDeWrite host none (t.args host) = ⟨t.encode.length, [], []⟩ ∧
    ∀ buffer : List UInt8, bteSdpDeWrite host (some buffer) (t.args host) =
      ⟨t.encode.length, if buffer.length > t.encode.length then blit buffer 0 t.encode else buffer, []⟩ := by
  constructor
  · have h := loop_element host t (t.args host).length 0 [] none 0 0 [] (by omega) hsize (fun h => by omega)
    rw [List.append_nil] at h
    rw [bteSdpDeWrite, h, deNext, if_pos rfl, if_neg (by omega), Nat.zero_add, Nat.mod_eq_of_lt hsize]
  · intro buffer
    have h := loop_element host t (t.args host).length 0 buffer (some 0) buffer.length 0 [] (by omega) hsize
      (fun h => ⟨0, rfl, by omega⟩)
    rw [List.append_nil] at h
    rw [bteSdpDeWrite, h, deNext, if_pos rfl, Nat.zero_add, Nat.mod_eq_of_lt hsize]
    by_cases hroom : buffer.length > t.encode.length
    · rw [if_pos hroom, if_pos (by omega)]
      rfl
    · rw [if_neg hroom, if_neg (by omega)]

/-- **Writing and reading a data element**, with every argument passed as the type the source reads (a UUID of 128 bits as a
`BteSdpUint128`): the size is that of the query; a larger buffer holds the element, which reads back as the tree it was
written from; a smaller one is left as it was. -/
theorem deWrite_roundTrip (host : Endian) (t : De) (buffer : List UInt8) (hsize : t.encode.length < 2 ^ 32) :
    (bteSdpDeWrite host none (t.args host)).size = t.encode.length ∧
    (bteSdpDeWrite host (some buffer) (t.args host)).size = (bteSdpDeWrite host none (t.args host)).size ∧
    ((bteSdpDeWrite host none (t.args host)).size < buffer.length →
      decodeDe ((bteSdpDeWrite host (some buffer) (t.args host)).mem.take (bteSdpDeWrite host none (t.args host)).size) =
        some t ∧
      bteSdpDeGetTotalSize (bteSdpDeWrite host (some buffer) (t.args host)).mem =
        (bteSdpDeWrite host none (t.args host)).size) ∧
    (buffer.length < (bteSdpDeWrite host none (t.args host)).size →
      (bteSdpDeWrite host (some buffer) (t.args host)).mem = buffer) := by
  obtain ⟨hquery, hwrite⟩ := deWrite_tree host t hsize
  simp only [hquery, hwrite]
  refine ⟨trivial, trivial, fun hlt => ?_, fun hlt => ?_⟩
  · rw [if_pos hlt]
    have htake : (blit buffer 0 t.encode).take t.encode.length = t.encode := by
      have h := @take_add_blit _ buffer t.encode 0 (Nat.zero_le _)
      rwa [Nat.zero_add, List.take_zero, List.nil_append] at h
    refine ⟨by rw [htake]; exact decodeDe_encode t hsize, ?_⟩
    rw [blit, List.take_zero, List.nil_append]
    exact encode_totalSize t hsize _
  · rw [if_neg (by omega)]

/-- A sequence of a boolean, an empty choice, a string and a negative number. -/
def sampleDe : De :=
  .group .sequence [.scalar (.bool true), .group .choice [], .text .string ⟨[0x79, 0x65, 0x73], by decide⟩,
    .scalar (.int .w16 (-200))]

theorem deWrite_roundTrip_sample :
    (bteSdpDeWrite .little (some (List.replicate 20 0xff)) (sampleDe.args .little)).mem.take 14 =
      [0x35, 12, 0x28, 1, 0x3d, 0, 0x25, 3, 0x79, 0x65, 0x73, 0x11, 0xff, 0x38] ∧
    decodeDe ((bteSdpDeWrite .little (some (List.replicate 20 0xff)) (sampleDe.args .little)).mem.take
      (bteSdpDeWrite .little none (sampleDe.args .little)).size) = some sampleDe := by
  obtain ⟨_, _, hlarge, _⟩ := deWrite_roundTrip .little sampleDe (List.replicate 20 0xff) (by decide)
  exact ⟨by decide, (hlarge (by decide)).1⟩

/-! ## A buffer of exactly the size -/

/-- What the loop measures and which arguments it leaves do not depend on the memory or the room. -/
theorem deLoop_measures (host : Endian) : ∀ (fuel depth size : Nat) (mem mem' : List UInt8) (dest dest' : Option Nat)
    (remaining remaining' : Int) (args : List Arg),
    (deLoop host fuel depth mem dest remaining size args).size =
      (deLoop host fuel depth mem' dest' remaining' size args).size ∧
    (deLoop host fuel depth mem dest remaining size args).args =
      (deLoop host fuel depth mem' dest' remaining' size args).args
  | 0, _, _, _, _, _, _, _, _, _ => ⟨rfl, rfl⟩
  | fuel + 1, depth, size, mem, mem', dest, dest', remaining, remaining', args => by
    obtain ⟨hsize, hargs⟩ := deLoop_measures host fuel (depth + 1) 0 mem mem' none none 0 0 (vaInt args).2
    unfold deLoop
    simp only
    by_cases hend : (vaInt args).1 = bteSdpDeEnd
    · rw [if_pos hend, if_pos hend]
      exact ⟨rfl, rfl⟩
    · rw [if_neg hend, if_neg hend]
      by_cases hgroup : (vaInt args).1 = bteSdpDeTypeSequence ∨ (vaInt args).1 = bteSdpDeTypeChoice
      · rw [if_pos hgroup, if_pos hgroup, hsize, hargs]
        by_cases hdepth : depth = 0
        · rw [if_pos hdepth, if_pos hdepth]
          exact ⟨rfl, rfl⟩
        · rw [if_neg hdepth, if_neg hdepth]
          exact deLoop_measures ..
      · rw [if_neg hgroup, if_neg hgroup]
        by_cases hdepth : depth = 0
        · rw [if_pos hdepth, if_pos hdepth]
          exact ⟨rfl, rfl⟩
        · rw [if_neg hdepth, if_neg hdepth]
          exact deLoop_measures ..

/-- **Nothing is written into a buffer of the size that a query gives**, whatever the arguments are: the room has to be
larger than what the first element needs. -/
theorem deWrite_announced (host : Endian) (args : List Arg) {buffer : List UInt8}
    (h : buffer.length = (bteSdpDeWrite host none args).size) : (bteSdpDeWrite host (some buffer) args).mem = buffer := by
  obtain ⟨hsize, -⟩ := deLoop_measures host args.length 1 0 buffer [] none none 0 0 (vaInt args).2
  have htight : ∀ n : Nat, buffer.length = (0 + n) % 2 ^ 32 → ¬ (buffer.length : Int) > n := by
    intro n hn
    have := Nat.mod_le (0 + n) (2 ^ 32)
    omega
  simp only [bteSdpDeWrite] at h ⊢
  unfold deLoop at h ⊢
  simp only at h ⊢
  by_cases hend : (vaInt args).1 = bteSdpDeEnd
  · rw [if_pos hend]
  · rw [if_neg hend] at h ⊢
    by_cases hgroup : (vaInt args).1 = bteSdpDeTypeSequence ∨ (vaInt args).1 = bteSdpDeTypeChoice
    · rw [if_pos hgroup] at h ⊢
      simp only [if_true] at h ⊢
      rw [hsize, if_neg (htight _ h)]
    · rw [if_neg hgroup] at h ⊢
      simp only [if_true] at h ⊢
      rw [if_neg (htight _ h)]

/-- A buffer of the size that the query gives takes the complete encoding. -/
def ExactSuffices (host : Endian) (t : De) : Prop :=
  ∀ buffer, buffer.length = (bteSdpDeWrite host none (t.args host)).size →
    (bteSdpDeWrite host (some buffer) (t.args host)).mem = t.encode

/-- **A buffer of exactly the announced size never suffices**: it is left as it was. -/
theorem deWrite_exact_never (host : Endian) (t : De) :
    ¬ ExactSuffices host t ∧ ∀ buffer, buffer.length = (bteSdpDeWrite host none (t.args host)).size →
      (bteSdpDeWrite host (some buffer) (t.args host)).mem = buffer := by
  refine ⟨fun hall => ?_, fun buffer h => deWrite_announced host _ h⟩
  -- two different buffers of the size would both have to be the encoding
  have hfill : ∀ b : UInt8, List.replicate (bteSdpDeWrite host none (t.args host)).size b = t.encode := by
    intro b
    have hlen := @List.length_replicate _ (bteSdpDeWrite host none (t.args host)).size b
    rw [← deWrite_announced host (t.args host) hlen]
    exact hall _ hlen
  have hone := one_le_encode t
  have h0 := hfill 0
  have h1 := hfill 1
  generalize (bteSdpDeWrite host none (t.args host)).size = n at h0 h1
  cases n with
  | zero =>
    rw [← h0] at hone
    exact absurd hone (by decide)
  | succ n =>
    rw [← h1] at h0
    exact absurd (congrArg (List.head?) h0) (by simp [List.replicate_succ])

/-- The query for a NIL gives 1; a buffer of one byte keeps its byte, one of two bytes gets the type. -/
theorem deWrite_exact_not :
    (bteSdpDeWrite .little none ((De.scalar .nil).args .little)).size = 1 ∧
    (bteSdpDeWrite .little (some [0xff, 0xff]) ((De.scalar .nil).args .little)).mem = [0x00, 0xff] ∧
    (bteSdpDeWrite .little (some [0xff]) ((De.scalar .nil).args .little)).mem = [0xff] ∧
    ¬ ExactSuffices .little (.scalar .nil) := by
  refine ⟨by decide, by decide, by decide, fun hall => ?_⟩
  exact absurd (hall [0xff] (by decide)) (by decide)

end Bte
