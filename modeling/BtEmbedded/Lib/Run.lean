import Mathlib.Tactic.Common
/-!
# Run — runs of a deterministic machine and what they preserve

A machine is a step function `S → Op → S`.  `Admissible` says that every operation of a run meets a condition in the
state it is made in; an invariant that one admissible step preserves holds after every admissible run.  A part of the
state that operations only overwrite is what the last of them wrote (`view_run`).
-/
namespace Sys

variable {S Op : Type}

/-- The state after a list of operations. -/
def run (step : S → Op → S) (s : S) (ops : List Op) : S := ops.foldl step s

/-- Every operation meets `ok` in the state it is made in. -/
def Admissible (step : S → Op → S) (ok : S → Op → Prop) : S → List Op → Prop
  | _, [] => True
  | s, o :: os => ok s o ∧ Admissible step ok (step s o) os

instance decidableAdmissible (step : S → Op → S) (ok : S → Op → Prop) [∀ s o, Decidable (ok s o)] :
    ∀ (s : S) (ops : List Op), Decidable (Admissible step ok s ops)
  | _, [] => .isTrue trivial
  | s, o :: os =>
    match (inferInstance : Decidable (ok s o)), decidableAdmissible step ok (step s o) os with
    | .isTrue h, .isTrue h' => .isTrue ⟨h, h'⟩
    | .isFalse h, _ => .isFalse fun h' => h h'.1
    | _, .isFalse h => .isFalse fun h' => h h'.2

@[simp] theorem run_nil (step : S → Op → S) (s : S) : run step s [] = s := rfl

@[simp] theorem run_cons (step : S → Op → S) (s : S) (o : Op) (os : List Op) :
    run step s (o :: os) = run step (step s o) os := rfl

theorem run_append (step : S → Op → S) (s : S) (a b : List Op) :
    run step s (a ++ b) = run step (run step s a) b := List.foldl_append ..

theorem admissible_append (step : S → Op → S) (ok : S → Op → Prop) :
    ∀ (s : S) (a b : List Op), Admissible step ok s (a ++ b) ↔
      Admissible step ok s a ∧ Admissible step ok (run step s a) b
  | _, [], _ => by simp [Admissible]
  | s, o :: a, b => by
    simp only [List.cons_append, Admissible, run_cons, admissible_append step ok (step s o) a b, and_assoc]

theorem admissible_true (step : S → Op → S) : ∀ (s : S) (ops : List Op), Admissible step (fun _ _ => True) s ops
  | _, [] => trivial
  | s, o :: os => ⟨trivial, admissible_true step (step s o) os⟩

theorem admissible_of_forall (step : S → Op → S) {ok : Op → Prop} : ∀ {ops : List Op}, (∀ o ∈ ops, ok o) →
    ∀ s : S, Admissible step (fun _ o => ok o) s ops
  | [], _, _ => trivial
  | o :: _, h, s =>
    ⟨h o List.mem_cons_self, admissible_of_forall step (fun o' ho' => h o' (List.mem_cons_of_mem o ho')) (step s o)⟩

theorem admissible_and (step : S → Op → S) (ok ok' : S → Op → Prop) : ∀ (s : S) (ops : List Op),
    Admissible step (fun s o => ok s o ∧ ok' s o) s ops ↔ Admissible step ok s ops ∧ Admissible step ok' s ops
  | _, [] => by simp only [Admissible, and_self]
  | s, o :: os => by
    simp only [Admissible, admissible_and step ok ok' (step s o) os]
    exact and_and_and_comm

/-- Two conditions that agree on the operations of a run admit it alike. -/
theorem admissible_congr {step : S → Op → S} {ok ok' : S → Op → Prop} :
    ∀ {ops : List Op} (s : S), (∀ s, ∀ o ∈ ops, ok s o ↔ ok' s o) →
      (Admissible step ok s ops ↔ Admissible step ok' s ops)
  | [], _, _ => Iff.rfl
  | o :: _, s, h =>
    and_congr (h s o List.mem_cons_self) (admissible_congr (step s o) fun s o' ho' => h s o' (List.mem_cons_of_mem o ho'))

/-- **The invariant rule**: what one admissible step preserves holds after every admissible run. -/
theorem inv_run {step : S → Op → S} {ok : S → Op → Prop} {Inv : S → Prop}
    (hstep : ∀ s o, Inv s → ok s o → Inv (step s o)) :
    ∀ (ops : List Op) (s : S), Inv s → Admissible step ok s ops → Inv (run step s ops)
  | [], _, h, _ => h
  | o :: os, s, h, hok => inv_run hstep os (step s o) (hstep s o h hok.1) hok.2

/-- What an invariant makes of a condition: if a step that meets one meets another and preserves the invariant, so does
every step of a run. -/
theorem admissible_of_inv {step : S → Op → S} {ok ok' : S → Op → Prop} {Inv : S → Prop}
    (hstep : ∀ s o, Inv s → ok s o → ok' s o ∧ Inv (step s o)) :
    ∀ (ops : List Op) (s : S), Inv s → Admissible step ok s ops → Admissible step ok' s ops
  | [], _, _, _ => trivial
  | o :: os, s, h, hok =>
    ⟨(hstep s o h hok.1).1, admissible_of_inv hstep os (step s o) (hstep s o h hok.1).2 hok.2⟩

/-- What every step preserves holds after every run. -/
theorem inv_run_all {step : S → Op → S} {Inv : S → Prop} (hstep : ∀ s o, Inv s → Inv (step s o)) {s : S} (h : Inv s)
    (ops : List Op) : Inv (run step s ops) :=
  inv_run (fun s o hs _ => hstep s o hs) ops s h (admissible_true step s ops)

/-- The last value that an operation of the run gave. -/
def lastOf {V : Type} (given : Op → Option V) (ops : List Op) : Option V := (ops.filterMap given).getLast?

theorem lastOf_cons {V : Type} (given : Op → Option V) (o : Op) (os : List Op) :
    lastOf given (o :: os) = (lastOf given os).or (given o) := by
  unfold lastOf
  cases h : given o with
  | none => rw [List.filterMap_cons_none h, Option.or_none]
  | some v => rw [List.filterMap_cons_some h, List.getLast?_cons, Option.or_some]

/-- **What is only ever overwritten is what was written last**, or what it was before the run. -/
theorem view_run {V : Type} {step : S → Op → S} (view : S → V) {given : Op → Option V} :
    ∀ (ops : List Op) (s : S), (∀ s, ∀ o ∈ ops, view (step s o) = (given o).getD (view s)) →
      view (run step s ops) = (lastOf given ops).getD (view s)
  | [], _, _ => rfl
  | o :: os, s, h => by
    rw [run_cons, view_run view os (step s o) fun s o' ho' => h s o' (List.mem_cons_of_mem o ho'), lastOf_cons,
      h s o List.mem_cons_self]
    cases lastOf given os <;> rfl

end Sys
