import Mathlib.Data.Nat.Basic
import Mathlib.Order.WellFounded
import Mathlib.Tactic.Common
/-!
# Cursor — a cursor that moves by the size of what it is on

The items lie one behind the other and `size` says how large the one at an offset is.  The cursor is a word with `M` values:
it goes to the next item by adding the size modulo `M`, and stops at `stop` or behind it.  `position` is where the items are
if nothing wraps.
-/
namespace Cursor

variable (M : Nat) (size : Nat → Nat)

def move (off : Nat) : Nat := (off + size off) % M

/-- The start of the `k`-th item from an offset on. -/
def position (k off : Nat) : Nat := (fun o => o + size o)^[k] off

/-- The item at an offset can be stepped over: it is not empty, and its end is an offset too. -/
def Passable (off : Nat) : Prop := 0 < size off ∧ off + size off < M

/-- The items before `stop` can all be stepped over. -/
def AllPassable (stop off : Nat) : Prop :=
  ∀ k, (∀ j ≤ k, position size j off < stop) → Passable M size (position size k off)

/-- The cursor goes forward as long as it is before `stop`. -/
def Forward (stop off : Nat) : Prop :=
  ∀ k, (∀ j ≤ k, (move M size)^[j] off < stop) → (move M size)^[k] off < (move M size)^[k + 1] off

variable {M size}

/-- **One step goes forward** exactly over an item that can be stepped over. -/
theorem lt_move_iff {off : Nat} (hoff : off < M) (hsize : size off < M) :
    off < move M size off ↔ Passable M size off := by
  unfold move Passable
  by_cases hwrap : off + size off < M
  · rw [Nat.mod_eq_of_lt hwrap]
    omega
  · have hmod : (off + size off) % M = off + size off - M := by
      rw [Nat.mod_eq_sub_mod (by omega), Nat.mod_eq_of_lt (by omega)]
    omega

theorem position_succ (k off : Nat) :
    position size (k + 1) off = position size k off + size (position size k off) :=
  Function.iterate_succ_apply' ..

/-- The cursor is at the items as long as nothing wraps. -/
theorem iterate_move : ∀ {k off : Nat}, (∀ j < k, Passable M size (position size j off)) →
    (move M size)^[k] off = position size k off
  | 0, _, _ => rfl
  | k + 1, off, h => by
    have hk := h k (Nat.lt_succ_self k)
    rw [Function.iterate_succ_apply', iterate_move fun j hj => h j (Nat.lt_succ_of_lt hj), position_succ]
    exact Nat.mod_eq_of_lt hk.2

theorem AllPassable.iterate_move {stop off : Nat} (h : AllPassable M size stop off) :
    ∀ k, (∀ j < k, (move M size)^[j] off < stop) → (move M size)^[k] off = position size k off := by
  intro k
  induction k using Nat.strong_induction_on with
  | _ k ih =>
    intro hbefore
    refine Cursor.iterate_move fun i hi => h i fun j hj => ?_
    rw [← ih j (by omega) fun l hl => hbefore l (by omega)]
    exact hbefore j (by omega)

/-- **The cursor goes forward to the end** exactly if all the items can be stepped over. -/
theorem forward_iff {stop off : Nat} (hstop : stop ≤ M) (hsize : ∀ off, size off < M) :
    Forward M size stop off ↔ AllPassable M size stop off := by
  have hmove : ∀ o, o < stop → (o < move M size o ↔ Passable M size o) := fun o ho =>
    lt_move_iff (Nat.lt_of_lt_of_le ho hstop) (hsize o)
  constructor
  · intro h k
    induction k using Nat.strong_induction_on with
    | _ k ih =>
      intro hbefore
      have hat : ∀ j ≤ k, (move M size)^[j] off = position size j off := fun j hj =>
        iterate_move fun i hi => ih i (by omega) fun l hl => hbefore l (by omega)
      have hlt := h k fun j hj => by
        rw [hat j hj]
        exact hbefore j hj
      rw [Function.iterate_succ_apply', hat k le_rfl] at hlt
      exact (hmove _ (hbefore k le_rfl)).1 hlt
  · intro h k hbefore
    have hat : ∀ j ≤ k, (move M size)^[j] off = position size j off := fun j hj =>
      h.iterate_move j fun i hi => hbefore i (by omega)
    have hpass := h k fun j hj => by
      rw [← hat j hj]
      exact hbefore j hj
    rw [← hat k le_rfl] at hpass
    rw [Function.iterate_succ_apply']
    exact (hmove _ (hbefore k le_rfl)).2 hpass

/-- **A cursor that goes forward comes to the end.** -/
theorem Forward.ends {stop off : Nat} (h : Forward M size stop off) :
    ∃ k, (∀ j < k, (move M size)^[j] off < stop) ∧ stop ≤ (move M size)^[k] off := by
  by_contra hn
  have hbefore : ∀ k, (move M size)^[k] off < stop := by
    intro k
    induction k using Nat.strong_induction_on with
    | _ k ih => exact Nat.not_le.1 fun hle => hn ⟨k, ih, hle⟩
  have hmono : StrictMono ((move M size)^[·] off) := strictMono_nat_of_lt_succ fun k => h k fun j _ => hbefore j
  exact Nat.not_lt.2 hmono.le_apply (hbefore stop)

end Cursor
