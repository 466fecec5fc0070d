import Mathlib.Data.List.Basic
import Mathlib.Tactic.Common
/-!
# Tlv — rows of items with a type and a length

An item is a type byte, a length byte and as many bytes of value.  `encode` writes a row of items one after the other;
`cut` takes as many items as it can from the front of any byte string and leaves the rest, from which no item can be taken.
The two are inverse to each other (`encode_cut`, `cut_encode`).
-/
structure Tlv where
  type : UInt8
  value : List UInt8
  short : value.length < 256
deriving DecidableEq

namespace Tlv

def size (t : Tlv) : Nat := 2 + t.value.length

def bytes (t : Tlv) : List UInt8 := t.type :: UInt8.ofNat t.value.length :: t.value

def encode (ts : List Tlv) : List UInt8 := ts.flatMap bytes

/-- The item at the front, and what follows it. -/
def uncons : List UInt8 → Option (Tlv × List UInt8)
  | type :: size :: rest =>
    if h : size.toNat ≤ rest.length then
      some (⟨type, rest.take size.toNat, by rw [List.length_take]; have := size.toNat_lt; omega⟩, rest.drop size.toNat)
    else none
  | _ => none

def cutFrom : Nat → List UInt8 → List Tlv × List UInt8
  | 0, bs => ([], bs)
  | fuel + 1, bs =>
    match uncons bs with
    | none => ([], bs)
    | some (t, rest) => (t :: (cutFrom fuel rest).1, (cutFrom fuel rest).2)

/-- The items of a byte string, and the bytes that make none. -/
def cut (bs : List UInt8) : List Tlv × List UInt8 := cutFrom bs.length bs

@[simp] theorem length_bytes (t : Tlv) : t.bytes.length = t.size := by
  simp only [bytes, size, List.length_cons]
  omega

@[simp] theorem encode_nil : encode [] = [] := rfl

@[simp] theorem encode_cons (t : Tlv) (ts : List Tlv) : encode (t :: ts) = t.bytes ++ encode ts := List.flatMap_cons ..

@[simp] theorem encode_append (ts us : List Tlv) : encode (ts ++ us) = encode ts ++ encode us := List.flatMap_append ..

/-- The items of a row of rows. -/
theorem encode_flatten : ∀ rows : List (List Tlv), encode rows.flatten = (rows.map encode).flatten
  | [] => rfl
  | row :: rows => by rw [List.flatten_cons, encode_append, encode_flatten rows, List.map_cons, List.flatten_cons]

theorem size_pos (t : Tlv) : 0 < t.size := by
  unfold size
  omega

theorem length_le_encode : ∀ ts : List Tlv, ts.length ≤ (encode ts).length
  | [] => Nat.le_refl _
  | t :: ts => by
    have := length_le_encode ts
    have := t.size_pos
    simp only [encode_cons, List.length_cons, List.length_append, length_bytes]
    omega

theorem toNat_length (t : Tlv) : (UInt8.ofNat t.value.length).toNat = t.value.length := by
  rw [UInt8.toNat_ofNat']
  exact Nat.mod_eq_of_lt t.short

/-- **An item that was written is read back.** -/
theorem uncons_bytes (t : Tlv) (rest : List UInt8) : uncons (t.bytes ++ rest) = some (t, rest) := by
  have hfits : (UInt8.ofNat t.value.length).toNat ≤ (t.value ++ rest).length := by
    rw [toNat_length, List.length_append]
    omega
  simp only [bytes, List.cons_append, uncons, dif_pos hfits]
  congr <;> rw [toNat_length]
  · exact List.take_left
  · exact List.drop_left

theorem uncons_eq_some {bs rest : List UInt8} {t : Tlv} (h : uncons bs = some (t, rest)) : bs = t.bytes ++ rest := by
  unfold uncons at h
  split at h
  · rename_i type size tail
    split at h
    · rename_i hfits
      cases h
      have hlen : UInt8.ofNat (tail.take size.toNat).length = size := by
        rw [List.length_take, Nat.min_eq_left hfits, UInt8.ofNat_toNat]
      simp only [bytes, hlen, List.cons_append, List.take_append_drop]
    · cases h
  · cases h

/-- What is left of a byte string that starts with no item. -/
theorem uncons_eq_none {bs : List UInt8} (h : uncons bs = none) :
    bs.length < 2 ∨ bs.length < 2 + (bs.getD 1 0).toNat := by
  unfold uncons at h
  split at h
  · rename_i type size tail
    split at h
    · cases h
    · rename_i hshort
      right
      show tail.length + 1 + 1 < 2 + size.toNat
      omega
  · rename_i hshort
    left
    match bs, hshort with
    | [], _ => exact Nat.zero_lt_two
    | [_], _ => exact Nat.one_lt_two
    | a :: b :: c, hshort => exact absurd rfl (hshort a b c)

theorem cutFrom_encode {tail : List UInt8} (htail : uncons tail = none) :
    ∀ (ts : List Tlv) (fuel : Nat), ts.length ≤ fuel → cutFrom fuel (encode ts ++ tail) = (ts, tail)
  | [], 0, _ => rfl
  | [], fuel + 1, _ => by simp [cutFrom, htail]
  | t :: ts, 0, h => by simp at h
  | t :: ts, fuel + 1, h => by
    have hrest := cutFrom_encode htail ts fuel (Nat.le_of_succ_le_succ h)
    rw [encode_cons, List.append_assoc, cutFrom, uncons_bytes]
    simp only [hrest]

/-- **Cutting what was written gives the items back.** -/
theorem cut_encode (ts : List Tlv) {tail : List UInt8} (htail : uncons tail = none) :
    cut (encode ts ++ tail) = (ts, tail) := by
  refine cutFrom_encode htail ts _ ?_
  have := length_le_encode ts
  rw [List.length_append]
  omega

theorem cut_encode_all (ts : List Tlv) : cut (encode ts) = (ts, []) := by
  have h := cut_encode ts (show uncons [] = none from rfl)
  rwa [List.append_nil] at h

theorem encode_cutFrom : ∀ (fuel : Nat) (bs : List UInt8), encode (cutFrom fuel bs).1 ++ (cutFrom fuel bs).2 = bs
  | 0, _ => rfl
  | fuel + 1, bs => by
    unfold cutFrom
    split
    · rfl
    · rename_i t rest h
      have hrest := encode_cutFrom fuel rest
      rw [encode_cons, List.append_assoc, hrest, uncons_eq_some h]

/-- **Writing what was cut gives the bytes back.** -/
theorem encode_cut (bs : List UInt8) : encode (cut bs).1 ++ (cut bs).2 = bs := encode_cutFrom bs.length bs

theorem uncons_cutFrom : ∀ (fuel : Nat) (bs : List UInt8), bs.length ≤ fuel → uncons (cutFrom fuel bs).2 = none
  | 0, bs, h => by
    rw [List.length_eq_zero_iff.1 (Nat.le_zero.1 h)]
    rfl
  | fuel + 1, bs, h => by
    unfold cutFrom
    split
    · rename_i hnone
      exact hnone
    · rename_i t rest hsome
      refine uncons_cutFrom fuel rest ?_
      have := t.size_pos
      have hlen := congrArg List.length (uncons_eq_some hsome)
      rw [List.length_append, length_bytes] at hlen
      omega

/-- No item is left in what is left. -/
theorem uncons_cut (bs : List UInt8) : uncons (cut bs).2 = none := uncons_cutFrom bs.length bs (Nat.le_refl _)

end Tlv
