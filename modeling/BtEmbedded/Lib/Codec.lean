import BtEmbedded.Lib.Bytes
/-!
# Codec — formats that carry their round trip

A `Codec` writes a value and reads it back from the front of the bytes; a `Format` reads all of them.  That each reads what
it wrote is a field, so a format that is put together from others has no proof of its own to be looked for.
-/

open Bytes

/-- A value at the front of the bytes, and what is behind it. -/
structure Codec (α : Type) where
  encode : α → List UInt8
  decode : List UInt8 → Option (α × List UInt8)
  decode_encode : ∀ a rest, decode (encode a ++ rest) = some (a, rest)

/-- A value that takes all of the bytes. -/
structure Format (α : Type) where
  encode : α → List UInt8
  decode : List UInt8 → Option α
  decode_encode : ∀ a, decode (encode a) = some a

namespace Codec

variable {α β : Type}

def unit : Codec Unit where
  encode _ := []
  decode bs := some ((), bs)
  decode_encode _ _ := rfl

def byte : Codec UInt8 where
  encode b := [b]
  decode
    | [] => none
    | b :: bs => some (b, bs)
  decode_encode _ _ := rfl

/-- So many bytes. -/
def bytes (n : Nat) : Codec { bs : List UInt8 // bs.length = n } where
  encode bs := bs.1
  decode bs := if h : n ≤ bs.length then some (⟨bs.take n, List.length_take_of_le h⟩, bs.drop n) else none
  decode_encode := by
    rintro ⟨bs, rfl⟩ rest
    rw [dif_pos (by simp)]
    simp

/-- The same bytes for another value. -/
def xmap (c : Codec α) (f : α → β) (g : β → α) (h : ∀ b, f (g b) = b) : Codec β where
  encode b := c.encode (g b)
  decode bs := (c.decode bs).map fun r => (f r.1, r.2)
  decode_encode b rest := by rw [c.decode_encode, Option.map_some, h]

/-- A value whose format depends on the one before it. -/
def bind {β : α → Type} (c : Codec α) (d : ∀ a, Codec (β a)) : Codec (Σ a, β a) where
  encode p := c.encode p.1 ++ (d p.1).encode p.2
  decode bs := (c.decode bs).bind fun r => ((d r.1).decode r.2).map fun r' => (⟨r.1, r'.1⟩, r'.2)
  decode_encode p rest := by
    rw [List.append_assoc, c.decode_encode, Option.bind_some, (d p.1).decode_encode, Option.map_some]

def pair (c : Codec α) (d : Codec β) : Codec (α × β) where
  encode p := c.encode p.1 ++ d.encode p.2
  decode bs := (c.decode bs).bind fun r => (d.decode r.2).map fun r' => ((r.1, r'.1), r'.2)
  decode_encode p rest := by
    rw [List.append_assoc, c.decode_encode, Option.bind_some, d.decode_encode, Option.map_some]

/-- A little-endian number of `w` bytes. -/
def le (w : Nat) : Codec (Fin (256 ^ w)) :=
  (bytes w).xmap (fun bs => ⟨leVal bs.1, by have h := leVal_lt bs.1; rwa [bs.2] at h⟩)
    (fun n => ⟨leBytes w n, length_leBytes w n⟩) fun n => Fin.ext ((leVal_leBytes w n).trans (Nat.mod_eq_of_lt n.2))

def u16 : Codec UInt16 :=
  (le 2).xmap (fun n => UInt16.ofNat n) (fun n => ⟨n.toNat, n.toNat_lt⟩) fun _ => UInt16.ofNat_toNat

def u32 : Codec UInt32 :=
  (le 4).xmap (fun n => UInt32.ofNat n) (fun n => ⟨n.toNat, n.toNat_lt⟩) fun _ => UInt32.ofNat_toNat

def u64 : Codec UInt64 :=
  (le 8).xmap (fun n => UInt64.ofNat n) (fun n => ⟨n.toNat, n.toNat_lt⟩) fun _ => UInt64.ofNat_toNat

@[simp] theorem encode_unit (a : Unit) : unit.encode a = [] := rfl

@[simp] theorem encode_byte (b : UInt8) : byte.encode b = [b] := rfl

@[simp] theorem encode_bytes {n : Nat} (bs : { bs : List UInt8 // bs.length = n }) : (bytes n).encode bs = bs.1 := rfl

@[simp] theorem encode_xmap (c : Codec α) (f : α → β) (g : β → α) (h : ∀ b, f (g b) = b) (b : β) :
    (c.xmap f g h).encode b = c.encode (g b) := rfl

@[simp] theorem encode_pair (c : Codec α) (d : Codec β) (p : α × β) :
    (c.pair d).encode p = c.encode p.1 ++ d.encode p.2 := rfl

@[simp] theorem encode_bind {β : α → Type} (c : Codec α) (d : ∀ a, Codec (β a)) (p : Σ a, β a) :
    (c.bind d).encode p = c.encode p.1 ++ (d p.1).encode p.2 := rfl

@[simp] theorem encode_le {w : Nat} (n : Fin (256 ^ w)) : (le w).encode n = leBytes w n := rfl

@[simp] theorem encode_u16 (n : UInt16) : u16.encode n = leBytes 2 n.toNat := rfl

@[simp] theorem encode_u32 (n : UInt32) : u32.encode n = leBytes 4 n.toNat := rfl

@[simp] theorem encode_u64 (n : UInt64) : u64.encode n = leBytes 8 n.toNat := rfl

/-! ## Lists -/

/-- The values of a list, one behind the other. -/
def decodeList (c : Codec α) : Nat → List UInt8 → Option (List α × List UInt8)
  | 0, bs => some ([], bs)
  | n + 1, bs => (c.decode bs).bind fun r => (c.decodeList n r.2).map fun r' => (r.1 :: r'.1, r'.2)

theorem decodeList_encode (c : Codec α) (rest : List UInt8) :
    ∀ l : List α, c.decodeList l.length (l.flatMap c.encode ++ rest) = some (l, rest)
  | [] => rfl
  | a :: l => by
    rw [List.flatMap_cons, List.append_assoc, List.length_cons, decodeList, c.decode_encode, Option.bind_some,
      decodeList_encode c rest l, Option.map_some]

theorem length_decodeList (c : Codec α) : ∀ {n : Nat} {bs : List UInt8} {r : List α × List UInt8},
    c.decodeList n bs = some r → r.1.length = n
  | 0, _, _, h => by
    cases h
    rfl
  | n + 1, bs, r, h => by
    obtain ⟨a, -, hrest⟩ := Option.bind_eq_some_iff.1 h
    obtain ⟨l, hl, rfl⟩ := Option.map_eq_some_iff.1 hrest
    rw [List.length_cons, length_decodeList c hl]

/-- So many values. -/
def list (c : Codec α) (n : Nat) : Codec { l : List α // l.length = n } where
  encode l := l.1.flatMap c.encode
  decode bs := (c.decodeList n bs).pmap (fun r h => (⟨r.1, h⟩, r.2)) fun _ hr => c.length_decodeList hr
  decode_encode := by
    rintro ⟨l, rfl⟩ rest
    simp only [decodeList_encode, Option.pmap_some]

@[simp] theorem encode_list (c : Codec α) {n : Nat} (l : { l : List α // l.length = n }) :
    (c.list n).encode l = l.1.flatMap c.encode := rfl

/-! ## Formats -/

/-- Nothing may be left. -/
def whole (c : Codec α) : Format α where
  encode := c.encode
  decode bs := (c.decode bs).bind fun r => if r.2 = [] then some r.1 else none
  decode_encode a := by
    have h := c.decode_encode a []
    rw [List.append_nil] at h
    rw [h, Option.bind_some, if_pos rfl]

@[simp] theorem encode_whole (c : Codec α) (a : α) : c.whole.encode a = c.encode a := rfl

end Codec

namespace Format

/-- Bytes of any number. -/
def rest : Format (List UInt8) where
  encode bs := bs
  decode bs := some bs
  decode_encode _ := rfl

@[simp] theorem encode_rest (bs : List UInt8) : rest.encode bs = bs := rfl

end Format
