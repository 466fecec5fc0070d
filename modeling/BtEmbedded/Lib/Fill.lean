import Mathlib.Algebra.GroupWithZero.Nat
import Mathlib.Data.List.Basic
import Mathlib.Tactic.Common
/-!
# Fill — loads of limited size

Items are taken from the front of a list as long as they fit into a room (`fill`), and the rest goes into further loads
(`loads`).  If every item fits alone, no load is empty and the loads carry the whole list, in its order (`loads_flatten`).
-/
namespace Fill

variable {α : Type} (size : α → Nat)

/-- The items that fit, and those left behind. -/
def fill : Nat → List α → List α × List α
  | _, [] => ([], [])
  | room, x :: xs =>
    if size x ≤ room then (x :: (fill (room - size x) xs).1, (fill (room - size x) xs).2) else ([], x :: xs)

/-- The loads that a list goes into. -/
def loads (room : Nat) : Nat → List α → List (List α)
  | 0, _ => []
  | fuel + 1, xs =>
    (fill size room xs).1 :: if (fill size room xs).2.isEmpty then [] else loads room fuel (fill size room xs).2

theorem fill_append : ∀ (room : Nat) (xs : List α), (fill size room xs).1 ++ (fill size room xs).2 = xs
  | _, [] => rfl
  | room, x :: xs => by
    unfold fill
    split
    · rw [List.cons_append, fill_append]
    · rfl

theorem fill_le : ∀ (room : Nat) (xs : List α), ((fill size room xs).1.map size).sum ≤ room
  | room, [] => Nat.zero_le room
  | room, x :: xs => by
    unfold fill
    split
    · have := fill_le (room - size x) xs
      simp only [List.map_cons, List.sum_cons]
      omega
    · exact Nat.zero_le room

theorem fill_fits : ∀ {room : Nat} {xs : List α} {x : α}, x ∈ (fill size room xs).1 → size x ≤ room
  | _, [], _, h => by cases h
  | room, y :: xs, x, h => by
    unfold fill at h
    split at h
    · rename_i hy
      rcases List.mem_cons.1 h with rfl | h
      · exact hy
      · exact Nat.le_trans (fill_fits h) (Nat.sub_le ..)
    · cases h

/-- What is left behind does not fit. -/
theorem fill_next : ∀ {room : Nat} {xs : List α} {y : α} {ys : List α}, (fill size room xs).2 = y :: ys →
    room < ((fill size room xs).1.map size).sum + size y
  | _, [], _, _, h => by cases h
  | room, x :: xs, y, ys, h => by
    unfold fill at h ⊢
    split
    · rename_i hfits
      rw [if_pos hfits] at h
      have := fill_next h
      simp only [List.map_cons, List.sum_cons]
      omega
    · rename_i hfits
      rw [if_neg hfits] at h
      cases h
      simp only [List.map_nil, List.sum_nil]
      omega

/-- If all items fit none is left. -/
theorem fill_all : ∀ {room : Nat} {xs : List α}, (xs.map size).sum ≤ room → fill size room xs = (xs, [])
  | _, [], _ => rfl
  | room, x :: xs, h => by
    rw [List.map_cons, List.sum_cons] at h
    rw [fill, if_pos (by omega), fill_all (show (xs.map size).sum ≤ room - size x by omega)]

/-- **A load takes something if its first item fits.** -/
theorem fill_ne_nil {room : Nat} {x : α} (xs : List α) (h : size x ≤ room) : (fill size room (x :: xs)).1 ≠ [] := by
  rw [fill, if_pos h]
  simp

theorem length_left {room : Nat} {xs : List α} (h : (fill size room xs).1 ≠ []) :
    (fill size room xs).2.length < xs.length := by
  have hlen := congrArg List.length (fill_append size room xs)
  have := List.length_pos_iff.2 h
  rw [List.length_append] at hlen
  omega

/-- **If every item fits alone, the loads carry them all, in their order.** -/
theorem loads_flatten {room : Nat} : ∀ {fuel : Nat} {xs : List α}, xs.length < fuel → (∀ x ∈ xs, size x ≤ room) →
    (loads size room fuel xs).flatten = xs
  | 0, _, h, _ => by omega
  | fuel + 1, [], _, _ => rfl
  | fuel + 1, x :: xs, h, hfits => by
    have happend := fill_append size room (x :: xs)
    have hleft := length_left size (fill_ne_nil size xs (hfits x (List.mem_cons_self ..)))
    rw [loads, List.flatten_cons]
    generalize (fill size room (x :: xs)).1 = taken at happend
    generalize (fill size room (x :: xs)).2 = left at happend hleft
    cases left with
    | nil => simpa using happend
    | cons y ys =>
      have hrest : (loads size room fuel (y :: ys)).flatten = y :: ys := by
        refine loads_flatten (by omega) fun z hz => hfits z ?_
        rw [← happend]
        exact List.mem_append_right _ hz
      rw [List.isEmpty_cons, if_neg Bool.false_ne_true, hrest, happend]

theorem loads_le {room : Nat} : ∀ {fuel : Nat} {xs load : List α}, load ∈ loads size room fuel xs →
    (load.map size).sum ≤ room
  | 0, _, _, h => by cases h
  | fuel + 1, xs, load, h => by
    rw [loads] at h
    rcases List.mem_cons.1 h with rfl | h
    · exact fill_le size room xs
    · split at h
      · cases h
      · exact loads_le h

theorem length_loads (room : Nat) : ∀ (fuel : Nat) (xs : List α), (loads size room fuel xs).length ≤ fuel
  | 0, _ => Nat.le_refl 0
  | fuel + 1, xs => by
    rw [loads, List.length_cons]
    split
    · exact Nat.succ_le_succ (Nat.zero_le fuel)
    · exact Nat.succ_le_succ (length_loads room fuel _)

end Fill
