import Mathlib.Data.List.GetD
import BtEmbedded.Lib.Bytes
/-!
# Columns — records as parallel arrays

A list of records may be laid out field by field: an array for each field, in which every row takes the same number of
bytes.  The lemmas find a row or a byte of it in an array (`slice_flatMap_width`, `getD_flatMap_width`, `getD_map_column`)
and an array behind others (`getD_skip`).
-/
namespace Columns

open Bytes

variable {ρ : Type}

theorem getD_skip {a b : List UInt8} {j k : Nat} (h : j = a.length + k) : (a ++ b).getD j 0 = b.getD k 0 := by
  rw [h, List.getD_append_right _ _ _ _ (Nat.le_add_right ..), Nat.add_sub_cancel_left]

theorem length_flatMap_width {f : ρ → List UInt8} {w : Nat} (hf : ∀ r, (f r).length = w) :
    ∀ l : List ρ, (l.flatMap f).length = w * l.length
  | [] => rfl
  | r :: l => by
    rw [List.flatMap_cons, List.length_append, hf, length_flatMap_width hf l, List.length_cons, Nat.mul_succ, Nat.add_comm]

/-- Row `i`. -/
theorem slice_flatMap_width {f : ρ → List UInt8} {w : Nat} (hf : ∀ r, (f r).length = w) :
    ∀ (l : List ρ) {i : Nat} (hi : i < l.length), slice (l.flatMap f) (i * w) w = f l[i]
  | r :: l, 0, _ => by
    rw [slice, Nat.zero_mul, List.drop_zero, List.flatMap_cons, List.take_left' (hf r)]
    rfl
  | r :: l, i + 1, hi => by
    have ih := slice_flatMap_width hf l (Nat.lt_of_succ_lt_succ hi)
    rw [slice, Nat.succ_mul, Nat.add_comm, ← List.drop_drop, List.flatMap_cons, List.drop_left' (hf r)]
    exact ih

/-- Byte `k` of row `i`. -/
theorem getD_flatMap_width {f : ρ → List UInt8} {w : Nat} (hf : ∀ r, (f r).length = w) (post : List UInt8) :
    ∀ (l : List ρ) {i k : Nat} (hi : i < l.length), k < w → (l.flatMap f ++ post).getD (w * i + k) 0 = (f l[i]).getD k 0
  | r :: l, 0, k, _, hk => by
    rw [List.flatMap_cons, List.append_assoc, Nat.mul_zero, Nat.zero_add]
    exact List.getD_append _ _ _ _ (by rw [hf]; exact hk)
  | r :: l, i + 1, k, hi, hk => by
    have ih := getD_flatMap_width hf post l (Nat.lt_of_succ_lt_succ hi) hk
    have hindex : w * (i + 1) + k = (f r).length + (w * i + k) := by
      rw [hf, Nat.mul_succ]
      omega
    rw [List.flatMap_cons, List.append_assoc, getD_skip hindex, ih]
    rfl

theorem getD_map_column {f : ρ → UInt8} (post : List UInt8) {l : List ρ} {i : Nat} (hi : i < l.length) :
    (l.map f ++ post).getD i 0 = f l[i] := by
  rw [List.getD_append _ _ _ _ (by simpa using hi)]
  simp [List.getD_eq_getElem?_getD, hi]

end Columns
