import Mathlib.Data.List.Basic
/-!
# History — properties of a log that depend on what came before

`History ok log` says that every event of the log is right after the events before it.  A log that is only appended to
keeps its history, whatever is appended; what must be checked is the new events alone.
-/
namespace Sys

variable {E : Type}

/-- Every event of the log is `ok` after those before it. -/
def History (ok : List E → E → Prop) (log : List E) : Prop :=
  ∀ (pre : List E) (e : E) (post : List E), log = pre ++ e :: post → ok pre e

variable {ok ok' : List E → E → Prop} {log es : List E}

theorem History.nil : History ok ([] : List E) := by
  intro pre e post h
  cases pre <;> cases h

/-- **What is appended is checked after the whole log.** -/
theorem History.append (h : History ok log) (hs : ∀ pre e post, es = pre ++ e :: post → ok (log ++ pre) e) :
    History ok (log ++ es) := by
  intro pre e post hl
  rcases List.append_eq_append_iff.1 hl with ⟨pre', rfl, hes⟩ | ⟨post', rfl, hpost⟩
  · exact hs pre' e post hes
  · cases post' with
    | nil =>
      rw [List.append_nil] at hs
      have he := hs [] e post hpost.symm
      rwa [List.append_nil] at he
    | cons b post' =>
      cases hpost
      exact h pre e post' rfl

theorem History.snoc (h : History ok log) {e : E} (he : ok log e) : History ok (log ++ [e]) := by
  refine h.append fun pre e' post hl => ?_
  cases pre with
  | nil =>
    cases hl
    rwa [List.append_nil]
  | cons b pre => cases pre <;> cases hl

theorem History.left {post : List E} (h : History ok (log ++ post)) : History ok log := by
  rintro pre e rest rfl
  exact h pre e (rest ++ post) (by simp)

/-- The last event is right after those before it. -/
theorem History.last {e : E} (h : History ok (log ++ [e])) : ok log e := h log e [] rfl

theorem History.get (h : History ok log) {i : Nat} {e : E} (he : log[i]? = some e) : ok (log.take i) e := by
  obtain ⟨hlt, rfl⟩ := List.getElem?_eq_some_iff.1 he
  exact h (log.take i) log[i] (log.drop (i + 1)) (by rw [List.getElem_cons_drop, List.take_append_drop])

theorem History.mono (h : History ok log) (hm : ∀ pre e, ok pre e → ok' pre e) : History ok' log :=
  fun pre e post hl => hm pre e (h pre e post hl)

/-- The rest of a log, checked event by event. -/
def check (ok : List E → E → Prop) [∀ pre e, Decidable (ok pre e)] : List E → List E → Bool
  | _, [] => true
  | pre, e :: es => decide (ok pre e) && check ok (pre ++ [e]) es

theorem check_iff (ok : List E → E → Prop) [∀ pre e, Decidable (ok pre e)] : ∀ before es : List E,
    check ok before es = true ↔ ∀ pre e post, es = pre ++ e :: post → ok (before ++ pre) e
  | before, [] => by simp [check]
  | before, e :: es => by
    simp only [check, Bool.and_eq_true, decide_eq_true_eq, check_iff ok (before ++ [e]) es]
    constructor
    · rintro ⟨he, hes⟩ pre e' post hl
      cases pre with
      | nil =>
        cases hl
        rwa [List.append_nil]
      | cons b pre =>
        cases hl
        have hok := hes pre e' post rfl
        rwa [List.append_assoc] at hok
    · intro h
      refine ⟨by simpa using h [] e es rfl, fun pre e' post hl => ?_⟩
      have hok := h (e :: pre) e' post (by rw [hl]; rfl)
      rwa [List.append_assoc]

instance decidableHistory (ok : List E → E → Prop) [∀ pre e, Decidable (ok pre e)] (log : List E) :
    Decidable (History ok log) :=
  decidable_of_iff (check ok [] log = true) (check_iff ok [] log)

end Sys
