import BtEmbedded.DataMatcher
/-!
# MatcherRules — what a run of add_rule calls leaves (data_matcher.h)

An initialised matcher takes rules until one no longer fits; later, shorter ones may fit again.  `addRules` makes the
calls and keeps the rules that were accepted, and the matcher then stands for exactly these, whatever its area held
before.
-/
namespace Bte

open Bytes

namespace DataMatcher

/-- The bytes of the area that rules take. -/
def areaSize (rules : List Rule) : Nat := (rules.map fun r => 2 + r.data.length).sum

/-- The calls of `bte_data_matcher_add_rule` one after the other: the rules accepted, and the matcher then. -/
def addRules (m : DataMatcher) : List Rule → List Rule × DataMatcher
  | [] => ([], m)
  | r :: calls =>
    let added := bteDataMatcherAddRule m r.data r.offset
    let rest := added.2.addRules calls
    (if added.1 then r :: rest.1 else rest.1, rest.2)

/-- The matcher stands for the rules, and for nothing else. -/
structure Holds (m : DataMatcher) (rules : List Rule) : Prop where
  wf : m.Wf
  used : m.skip m.numRules.toNat 0 = areaSize rules
  rules : m.rules = rules

theorem areaSize_append (rs : List Rule) (r : Rule) : areaSize (rs ++ [r]) = areaSize rs + 2 + r.data.length := by
  simp only [areaSize, List.map_append, List.sum_append, List.map_cons, List.map_nil, List.sum_cons, List.sum_nil]
  omega

theorem holds_init (m : DataMatcher) : (bteDataMatcherInit m).Holds [] :=
  ⟨Nat.zero_le _, rfl, rfl⟩

section Step

variable {m : DataMatcher} {rules : List Rule} (h : m.Holds rules)
include h

theorem Holds.addRule_iff (data : List UInt8) (offset : UInt8) :
    (bteDataMatcherAddRule m data offset).1 = true ↔ areaSize rules + 2 + data.length ≤ dataMatcherMaxLen := by
  rw [← h.used, bteDataMatcherAddRule]
  split
  · simp only [Bool.false_eq_true, false_iff]; omega
  · simp only [true_iff]; omega

theorem Holds.accepted {data : List UInt8} {offset : UInt8} (hok : (bteDataMatcherAddRule m data offset).1 = true) :
    (bteDataMatcherAddRule m data offset).2.Holds (rules ++ [⟨offset, data⟩]) := by
  have hfit := (h.addRule_iff data offset).1 hok
  rw [← h.used] at hfit
  obtain ⟨-, hwf, hused, hrules⟩ := addRule_of_fits h.wf data offset hfit
  refine ⟨hwf, ?_, ?_⟩
  · rw [hused, h.used, areaSize_append]
  · rw [hrules, h.rules]

end Step

theorem addRule_refused {m : DataMatcher} {data : List UInt8} {offset : UInt8}
    (h : (bteDataMatcherAddRule m data offset).1 = false) : (bteDataMatcherAddRule m data offset).2 = m := by
  rw [bteDataMatcherAddRule] at h ⊢
  split
  · rfl
  · rename_i hfit
    rw [dif_neg hfit] at h
    cases h

theorem Holds.addRules : ∀ (calls : List Rule) {m : DataMatcher} {rules : List Rule}, m.Holds rules →
    (m.addRules calls).2.Holds (rules ++ (m.addRules calls).1)
  | [], m, rules, h => by rw [DataMatcher.addRules, List.append_nil]; exact h
  | r :: calls, m, rules, h => by
    simp only [DataMatcher.addRules]
    cases hok : (bteDataMatcherAddRule m r.data r.offset).1 with
    | true =>
      have hrest := (h.accepted hok).addRules calls
      simp only [if_true]
      rwa [List.append_assoc, List.singleton_append] at hrest
    | false =>
      have hrest := h.addRules calls
      rw [addRule_refused hok]
      simpa only [Bool.false_eq_true, if_false] using hrest

/-- **A matcher is the list of the rules it accepted**: a call is accepted when its rule still fits and otherwise
changes nothing, a comparison looks for each of the rules, and matchers are the same when their rules are. -/
theorem rules_addRules (m n : DataMatcher) (calls others : List Rule) :
    (∀ data offset,
      ((bteDataMatcherAddRule ((bteDataMatcherInit m).addRules calls).2 data offset).1 = true ↔
        areaSize ((bteDataMatcherInit m).addRules calls).1 + (2 + data.length) ≤ 16) ∧
      ((bteDataMatcherAddRule ((bteDataMatcherInit m).addRules calls).2 data offset).1 = false →
        (bteDataMatcherAddRule ((bteDataMatcherInit m).addRules calls).2 data offset).2 =
          ((bteDataMatcherInit m).addRules calls).2)) ∧
    (∀ data, bteDataMatcherCompare ((bteDataMatcherInit m).addRules calls).2 data = true ↔
      ∀ r ∈ ((bteDataMatcherInit m).addRules calls).1, r.Matches data) ∧
    (bteDataMatcherIsSame ((bteDataMatcherInit m).addRules calls).2 ((bteDataMatcherInit n).addRules others).2 = true ↔
      ((bteDataMatcherInit m).addRules calls).1 = ((bteDataMatcherInit n).addRules others).1) := by
  have hm := (holds_init m).addRules calls
  have hn := (holds_init n).addRules others
  rw [List.nil_append] at hm hn
  refine ⟨fun data offset => ⟨?_, addRule_refused⟩, fun data => ?_, ?_⟩
  · rw [hm.addRule_iff, Nat.add_assoc]
    rfl
  · rw [compare_iff hm.wf, hm.rules]
  · rw [isSame_iff hm.wf hn.wf, hm.rules, hn.rules]

end DataMatcher

end Bte
