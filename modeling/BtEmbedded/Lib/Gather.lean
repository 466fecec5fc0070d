import Mathlib.Data.List.Basic
import Mathlib.Data.List.Nodup
import Mathlib.Tactic.Common
/-!
# Gather — items gathered in batches

Batches come one after the other, and of each the items are kept that no earlier batch had.  An item that its first batch
has twice is then kept twice.  Otherwise what is kept is every item once, in the order of first appearance
(`gather_eq_iff`).
-/
namespace Gather

variable {α : Type} [DecidableEq α]

def newcomers (seen batch : List α) : List α := batch.filter (· ∉ seen)

/-- What is kept in the end. -/
def gather : List α → List (List α) → List α
  | kept, [] => kept
  | kept, batch :: batches => gather (kept ++ newcomers kept batch) batches

/-- No batch has a newcomer twice. -/
def Unrepeated : List α → List (List α) → Prop
  | _, [] => True
  | seen, batch :: batches => (newcomers seen batch).Nodup ∧ Unrepeated (seen ++ batch) batches

instance decidableUnrepeated : ∀ (seen : List α) (batches : List (List α)), Decidable (Unrepeated seen batches)
  | _, [] => .isTrue trivial
  | seen, batch :: batches =>
    have := decidableUnrepeated (seen ++ batch) batches
    inferInstanceAs (Decidable (_ ∧ _))

theorem newcomers_congr {s t : List α} (h : ∀ x, x ∈ s ↔ x ∈ t) (batch : List α) : newcomers s batch = newcomers t batch :=
  List.filter_congr fun x _ => by simp only [h x]

theorem mem_keep {kept batch : List α} {x : α} : x ∈ kept ++ newcomers kept batch ↔ x ∈ kept ∨ x ∈ batch := by
  rw [List.mem_append, newcomers, List.mem_filter, decide_eq_true_eq]
  by_cases h : x ∈ kept
  · simp [h]
  · simp [h]

theorem length_le_gather : ∀ (batches : List (List α)) (kept : List α), kept.length ≤ (gather kept batches).length
  | [], kept => Nat.le_refl _
  | batch :: batches, kept => by
    have h := length_le_gather batches (kept ++ newcomers kept batch)
    rw [List.length_append] at h
    rw [gather]
    omega

/-! ## Every item once -/

theorem nodup_eraseDups : ∀ l : List α, l.eraseDups.Nodup
  | [] => List.nodup_nil
  | a :: as => by
    have hlt : (as.filter fun b => !b == a).length < (a :: as).length := Nat.lt_succ_of_le (List.length_filter_le ..)
    have ha : a ∉ (as.filter fun b => !b == a).eraseDups := by
      rw [List.mem_eraseDups, List.mem_filter]
      simp
    rw [List.eraseDups_cons, List.nodup_cons]
    exact ⟨ha, nodup_eraseDups _⟩
termination_by l => l.length
decreasing_by exact hlt

theorem eraseDups_of_nodup : ∀ {l : List α}, l.Nodup → l.eraseDups = l
  | [], _ => rfl
  | a :: as, h => by
    obtain ⟨ha, has⟩ := List.nodup_cons.1 h
    have hall : as.filter (fun b => !b == a) = as := by
      rw [List.filter_eq_self]
      intro b hb
      have : b ≠ a := fun he => ha (he ▸ hb)
      simpa using this
    rw [List.eraseDups_cons, hall, eraseDups_of_nodup has]

theorem eraseDups_append_congr {s t : List α} (h : s.eraseDups = t.eraseDups) (l : List α) :
    (s ++ l).eraseDups = (t ++ l).eraseDups := by
  have hmem : ∀ x, x ∈ s ↔ x ∈ t := by
    intro x
    rw [← List.mem_eraseDups, h, List.mem_eraseDups]
  have hremove : l.removeAll s = l.removeAll t := by
    refine List.filter_congr fun x _ => ?_
    simp [hmem x]
  rw [List.eraseDups_append, List.eraseDups_append, h, hremove]

theorem eraseDups_keep (kept batch : List α) :
    (kept ++ newcomers kept batch).eraseDups = (kept ++ batch).eraseDups := by
  have hremove : (newcomers kept batch).removeAll kept = batch.removeAll kept := by
    rw [List.removeAll, newcomers, List.filter_filter]
    refine List.filter_congr fun x _ => ?_
    simp
  rw [List.eraseDups_append, List.eraseDups_append, hremove]

theorem eraseDups_gather : ∀ (batches : List (List α)) (kept : List α),
    (gather kept batches).eraseDups = (kept ++ batches.flatten).eraseDups
  | [], kept => by simp [gather]
  | batch :: batches, kept => by
    rw [gather, eraseDups_gather batches, eraseDups_append_congr (eraseDups_keep kept batch), List.flatten_cons,
      List.append_assoc]

theorem nodup_gather_iff : ∀ (batches : List (List α)) {kept seen : List α}, (∀ x, x ∈ kept ↔ x ∈ seen) →
    ((gather kept batches).Nodup ↔ kept.Nodup ∧ Unrepeated seen batches)
  | [], kept, seen, _ => by simp [gather, Unrepeated]
  | batch :: batches, kept, seen, h => by
    have hseen : ∀ x, x ∈ kept ++ newcomers kept batch ↔ x ∈ seen ++ batch := by
      intro x
      rw [mem_keep, List.mem_append, h x]
    have hkeep : (kept ++ newcomers kept batch).Nodup ↔ kept.Nodup ∧ (newcomers seen batch).Nodup := by
      rw [List.nodup_append', newcomers_congr h batch]
      have hdisj : kept.Disjoint (newcomers seen batch) := by
        intro x hx hn
        rw [newcomers, List.mem_filter, decide_eq_true_eq] at hn
        exact hn.2 ((h x).1 hx)
      simp [hdisj]
    rw [gather, nodup_gather_iff batches hseen, hkeep, Unrepeated, and_assoc]

/-- **What is kept is every item once, in the order of first appearance, just when no batch repeats a newcomer.** -/
theorem gather_eq_iff (batches : List (List α)) :
    gather [] batches = batches.flatten.eraseDups ↔ Unrepeated [] batches := by
  have hdups := eraseDups_gather batches ([] : List α)
  rw [List.nil_append] at hdups
  have hnodup := @nodup_gather_iff α _ batches [] [] fun _ => Iff.rfl
  constructor
  · intro h
    refine (hnodup.1 ?_).2
    rw [h]
    exact nodup_eraseDups _
  · intro h
    rw [← hdups, eraseDups_of_nodup (hnodup.2 ⟨List.nodup_nil, h⟩)]

end Gather
