import Mathlib.Data.List.Basic
import Mathlib.Tactic.Common
import Mathlib.Tactic.Ring
/-!
# Bytes — fixed-width integers and slices of a byte area

Little- and big-endian encodings of a natural number in a given number of bytes, the value they decode to, and the
two memory operations a C program performs on a byte area: reading a slice and overwriting one (`blit`).
-/
namespace Bytes

/-! ## Integers as bytes -/

/-- The `w` low bytes of `n`, least significant first. -/
def leBytes : Nat → Nat → List UInt8
  | 0, _ => []
  | w + 1, n => UInt8.ofNat n :: leBytes w (n / 256)

/-- The number a little-endian byte string stands for. -/
def leVal : List UInt8 → Nat
  | [] => 0
  | b :: bs => b.toNat + 256 * leVal bs

def beBytes (w n : Nat) : List UInt8 := (leBytes w n).reverse

def beVal (bs : List UInt8) : Nat := leVal bs.reverse

@[simp] theorem length_leBytes : ∀ (w n : Nat), (leBytes w n).length = w
  | 0, _ => rfl
  | w + 1, n => by simp [leBytes, length_leBytes w]

@[simp] theorem length_beBytes (w n : Nat) : (beBytes w n).length = w := by simp [beBytes]

theorem leVal_leBytes : ∀ (w n : Nat), leVal (leBytes w n) = n % 256 ^ w
  | 0, n => by simp [leBytes, leVal, Nat.mod_one]
  | w + 1, n => by
    have h := Nat.mod_mul (x := n) (a := 256) (b := 256 ^ w)
    rw [leBytes, leVal, leVal_leBytes w, Nat.pow_succ', h]
    simp [UInt8.toNat_ofNat']

theorem leBytes_leVal : ∀ bs : List UInt8, leBytes bs.length (leVal bs) = bs
  | [] => rfl
  | b :: bs => by
    have hb := b.toNat_lt
    have h1 : UInt8.ofNat (b.toNat + 256 * leVal bs) = b := by
      apply UInt8.toNat_inj.1
      rw [UInt8.toNat_ofNat']
      omega
    have h2 : (b.toNat + 256 * leVal bs) / 256 = leVal bs := by omega
    rw [List.length_cons, leBytes, leVal, h1, h2, leBytes_leVal bs]

theorem leVal_lt : ∀ bs : List UInt8, leVal bs < 256 ^ bs.length
  | [] => by simp [leVal]
  | b :: bs => by
    have hb := b.toNat_lt
    have hbs := leVal_lt bs
    rw [leVal, List.length_cons, Nat.pow_succ']
    omega

theorem beVal_lt (bs : List UInt8) : beVal bs < 256 ^ bs.length := by
  rw [beVal, ← List.length_reverse]
  exact leVal_lt bs.reverse

theorem beVal_beBytes (w n : Nat) : beVal (beBytes w n) = n % 256 ^ w := by
  rw [beVal, beBytes, List.reverse_reverse, leVal_leBytes]

/-- Subtraction of 16-bit numbers. -/
def sub16 (a b : Nat) : Nat := (a + 65536 - b) % 65536

theorem sub16_of_le {a b : Nat} (hb : b ≤ a) (ha : a < 65536) : sub16 a b = a - b := by
  unfold sub16
  omega

/-! ## Slices and overwriting -/

/-- `len` elements from `off` on. -/
def slice {α : Type} (l : List α) (off len : Nat) : List α := (l.drop off).take len

/-- `memcpy(dst + off, src, length of src)`. -/
def blit {α : Type} (dst : List α) (off : Nat) (src : List α) : List α :=
  dst.take off ++ src ++ dst.drop (off + src.length)

theorem length_slice {α : Type} {l : List α} {off len : Nat} (h : off + len ≤ l.length) :
    (slice l off len).length = len := by
  simp only [slice, List.length_take, List.length_drop]
  omega

theorem length_blit {α : Type} {dst src : List α} {off : Nat} (h : off + src.length ≤ dst.length) :
    (blit dst off src).length = dst.length := by
  simp only [blit, List.length_append, List.length_take, List.length_drop]
  omega

theorem getD_of_take_eq {α : Type} {a b : List α} {k i : Nat} (h : a.take k = b.take k) (hi : i < k) (d : α) :
    a.getD i d = b.getD i d := by
  have h' := congrArg (fun l => l[i]?) h
  simp only [List.getElem?_take, hi, if_true] at h'
  simp only [List.getD_eq_getElem?_getD, h']

theorem slice_of_take_eq {α : Type} {a b : List α} {k off len : Nat} (h : a.take k = b.take k) (hk : off + len ≤ k) :
    slice a off len = slice b off len := by
  have hcut : ∀ l : List α, slice l off len = slice (l.take k) off len := by
    intro l
    simp only [slice, List.drop_take, List.take_take]
    rw [Nat.min_eq_left (by omega)]
  rw [hcut a, hcut b, h]

theorem take_blit {α : Type} {dst src : List α} {off : Nat} (h : off ≤ dst.length) :
    (blit dst off src).take off = dst.take off := by
  rw [blit, List.append_assoc, List.take_append_of_le_length (by simp; omega), List.take_take, Nat.min_self]

theorem drop_blit {α : Type} {dst src : List α} {off : Nat} (h : off ≤ dst.length) :
    (blit dst off src).drop off = src ++ dst.drop (off + src.length) := by
  rw [blit, List.append_assoc, List.drop_append_of_le_length (by simp; omega)]
  simp

theorem take_add_blit {α : Type} {dst src : List α} {off : Nat} (h : off ≤ dst.length) :
    (blit dst off src).take (off + src.length) = dst.take off ++ src := by
  rw [blit, List.take_left']
  simp only [List.length_append, List.length_take]
  omega

theorem blit_blit {α : Type} {dst a b : List α} {off : Nat} (h : off + a.length ≤ dst.length) :
    blit (blit dst off a) (off + a.length) b = blit dst off (a ++ b) := by
  have h1 := @take_add_blit _ dst a off (by omega)
  have h2 : (blit dst off a).drop (off + a.length + b.length) = dst.drop (off + a.length + b.length) := by
    rw [blit, ← List.drop_drop, List.drop_left', List.drop_drop]
    simp only [List.length_append, List.length_take]
    omega
  rw [blit, h1, h2, blit, List.length_append, List.append_assoc, List.append_assoc, Nat.add_assoc]
  simp

end Bytes
