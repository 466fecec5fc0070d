import BtEmbedded.Lib.Bytes
/-!
# DataMatcher — byte-pattern rules (data_matcher.h)

A matcher is a 16-byte area holding `num_rules` variable-sized rules: one offset byte, one length byte and the bytes
themselves.  The loops walk the area with a pointer, kept here as an offset into it.  `rules` reads the area back as a
list, and on matchers built by `add_rule` the comparisons are the comparisons of these lists (`compare_iff`,
`isSame_iff`).
-/
namespace Bte

open Bytes

/-- `BTE_DATA_MATCHER_MAX_LEN`. -/
def dataMatcherMaxLen : Nat := 16

structure DataMatcher where
  numRules : UInt8
  bytes : List UInt8
  size_eq : bytes.length = dataMatcherMaxLen
deriving DecidableEq

namespace DataMatcher

/-- The zero-filled matcher of a `memset` device. -/
def zero : DataMatcher := ⟨0, List.replicate 16 0, rfl⟩

/-- The byte a pointer into the area reads. -/
def at_ (m : DataMatcher) (ptr : Nat) : UInt8 := m.bytes.getD ptr 0

end DataMatcher

def bteDataMatcherInit (m : DataMatcher) : DataMatcher := { m with numRules := 0 }

def bteDataMatcherIsEmpty (m : DataMatcher) : Bool := m.numRules == 0

/-- The pointer after `n` more rules. -/
def DataMatcher.skip (m : DataMatcher) : Nat → Nat → Nat
  | 0, ptr => ptr
  | n + 1, ptr => m.skip n (ptr + (2 + (m.at_ (ptr + 1)).toNat))

/-- `bte_data_matcher_add_rule`; `data` is what the `len` bytes at the caller's pointer are. -/
def bteDataMatcherAddRule (m : DataMatcher) (data : List UInt8) (offset : UInt8) : Bool × DataMatcher :=
  let ptr := m.skip m.numRules.toNat 0
  if h : ptr + 2 + data.length > dataMatcherMaxLen then (false, m)
  else (true,
    { numRules := m.numRules + 1
      bytes := blit m.bytes ptr (offset :: UInt8.ofNat data.length :: data)
      size_eq := by
        rw [length_blit]
        · exact m.size_eq
        · rw [m.size_eq, List.length_cons, List.length_cons]; omega })

def DataMatcher.compareFrom (m : DataMatcher) (data : List UInt8) : Nat → Nat → Bool
  | 0, _ => true
  | n + 1, ptr =>
    let offset := (m.at_ ptr).toNat
    let len := (m.at_ (ptr + 1)).toNat
    if offset + len > data.length then false
    else if slice m.bytes (ptr + 2) len ≠ slice data offset len then false
    else m.compareFrom data n (ptr + (2 + len))

def bteDataMatcherCompare (m : DataMatcher) (data : List UInt8) : Bool :=
  m.compareFrom data m.numRules.toNat 0

def DataMatcher.isSameFrom (a b : DataMatcher) : Nat → Nat → Nat → Bool
  | 0, _, _ => true
  | n + 1, ptrA, ptrB =>
    if a.at_ ptrA ≠ b.at_ ptrB ∨ a.at_ (ptrA + 1) ≠ b.at_ (ptrB + 1) then false
    else
      let len := (a.at_ (ptrA + 1)).toNat
      if slice a.bytes (ptrA + 2) len ≠ slice b.bytes (ptrB + 2) len then false
      else a.isSameFrom b n (ptrA + (2 + len)) (ptrB + (2 + len))

def bteDataMatcherIsSame (a b : DataMatcher) : Bool :=
  if a.numRules ≠ b.numRules then false else a.isSameFrom b a.numRules.toNat 0 0

theorem DataMatcher.isSameFrom_comm (a b : DataMatcher) :
    ∀ n p q, a.isSameFrom b n p q = b.isSameFrom a n q p
  | 0, _, _ => rfl
  | n + 1, p, q => by
    simp only [isSameFrom]
    by_cases h0 : a.at_ p = b.at_ q
    · by_cases h1 : a.at_ (p + 1) = b.at_ (q + 1)
      · simp only [h0, h1, ne_eq, not_true_eq_false, or_self, if_false, isSameFrom_comm a b n]
        by_cases h2 : slice a.bytes (p + 2) (b.at_ (q + 1)).toNat = slice b.bytes (q + 2) (b.at_ (q + 1)).toNat
        · simp [h2]
        · simp [h2, Ne.symm h2]
      · simp [h1, Ne.symm h1]
    · simp [h0, Ne.symm h0]

theorem bteDataMatcherIsSame_comm (a b : DataMatcher) : bteDataMatcherIsSame a b = bteDataMatcherIsSame b a := by
  unfold bteDataMatcherIsSame
  by_cases h : a.numRules = b.numRules
  · simp [h, DataMatcher.isSameFrom_comm a b]
  · simp [h, Ne.symm h]

/-! ## The rules as a list -/

structure Rule where
  offset : UInt8
  data : List UInt8
deriving DecidableEq

/-- The bytes are found in `data` at the offset. -/
def Rule.Matches (r : Rule) (data : List UInt8) : Prop :=
  r.offset.toNat + r.data.length ≤ data.length ∧ slice data r.offset.toNat r.data.length = r.data

instance (r : Rule) (data : List UInt8) : Decidable (r.Matches data) := inferInstanceAs (Decidable (_ ∧ _))

namespace DataMatcher

def ruleAt (m : DataMatcher) (ptr : Nat) : Rule :=
  ⟨m.at_ ptr, slice m.bytes (ptr + 2) (m.at_ (ptr + 1)).toNat⟩

def rulesFrom (m : DataMatcher) : Nat → Nat → List Rule
  | 0, _ => []
  | n + 1, ptr => m.ruleAt ptr :: m.rulesFrom n (ptr + (2 + (m.at_ (ptr + 1)).toNat))

def rules (m : DataMatcher) : List Rule := m.rulesFrom m.numRules.toNat 0

/-- The rules stay inside the area. -/
def Wf (m : DataMatcher) : Prop := m.skip m.numRules.toNat 0 ≤ dataMatcherMaxLen

instance (m : DataMatcher) : Decidable m.Wf := inferInstanceAs (Decidable (_ ≤ _))

theorem le_skip (m : DataMatcher) : ∀ n ptr, ptr + 2 * n ≤ m.skip n ptr
  | 0, _ => Nat.le_refl _
  | n + 1, ptr => by
    have h := le_skip m n (ptr + (2 + (m.at_ (ptr + 1)).toNat))
    rw [skip]; omega

theorem length_ruleAt_data {m : DataMatcher} {n ptr : Nat} (h : m.skip (n + 1) ptr ≤ dataMatcherMaxLen) :
    (m.ruleAt ptr).data.length = (m.at_ (ptr + 1)).toNat := by
  have hle := m.le_skip n (ptr + (2 + (m.at_ (ptr + 1)).toNat))
  rw [skip] at h
  exact length_slice (by rw [m.size_eq]; omega)

theorem compareFrom_iff (m : DataMatcher) (data : List UInt8) :
    ∀ n ptr, m.skip n ptr ≤ dataMatcherMaxLen →
      (m.compareFrom data n ptr = true ↔ ∀ r ∈ m.rulesFrom n ptr, r.Matches data)
  | 0, ptr, _ => by simp [compareFrom, rulesFrom]
  | n + 1, ptr, h => by
    have hlen := length_ruleAt_data h
    rw [skip] at h
    have ih := compareFrom_iff m data n _ h
    rw [rulesFrom, List.forall_mem_cons, ← ih, Rule.Matches, hlen]
    simp only [compareFrom, ruleAt]
    by_cases h1 : (m.at_ ptr).toNat + (m.at_ (ptr + 1)).toNat > data.length
    · simp only [h1, if_true, Bool.false_eq_true, false_iff, not_and]
      intro hle
      omega
    · by_cases h2 : slice m.bytes (ptr + 2) (m.at_ (ptr + 1)).toNat = slice data (m.at_ ptr).toNat (m.at_ (ptr + 1)).toNat
      · simp [h1, h2, Nat.not_lt.1 h1]
      · simp [h1, h2, Ne.symm h2]

theorem isSameFrom_iff (a b : DataMatcher) :
    ∀ n p q, a.skip n p ≤ dataMatcherMaxLen → b.skip n q ≤ dataMatcherMaxLen →
      (a.isSameFrom b n p q = true ↔ a.rulesFrom n p = b.rulesFrom n q)
  | 0, p, q, _, _ => by simp [isSameFrom, rulesFrom]
  | n + 1, p, q, ha, hb => by
    have hla := length_ruleAt_data ha
    have hlb := length_ruleAt_data hb
    rw [skip] at ha hb
    simp only [rulesFrom, List.cons.injEq]
    -- equal rules have equal length bytes, so both walks advance alike
    by_cases hrule : a.ruleAt p = b.ruleAt q
    · have hlen : a.at_ (p + 1) = b.at_ (q + 1) := UInt8.toNat_inj.1 (by rw [← hla, ← hlb, hrule])
      have hoff : a.at_ p = b.at_ q := congrArg Rule.offset hrule
      have hdata := congrArg Rule.data hrule
      simp only [ruleAt, hlen] at hdata
      have ih := isSameFrom_iff a b n _ _ ha hb
      simp only [hlen] at ih
      simp only [isSameFrom, hoff, hlen, hdata, hrule]
      simp [ih]
    · simp only [hrule, false_and, iff_false, Bool.not_eq_true]
      simp only [isSameFrom]
      by_cases hoff : a.at_ p = b.at_ q
      · by_cases hlen : a.at_ (p + 1) = b.at_ (q + 1)
        · have hdata : slice a.bytes (p + 2) (b.at_ (q + 1)).toNat ≠ slice b.bytes (q + 2) (b.at_ (q + 1)).toNat := by
            intro hd
            exact hrule (by simp only [ruleAt, hoff, hlen, hd])
          simp [hoff, hlen, hdata]
        · simp [hlen]
      · simp [hoff]

/-- **A comparison with a buffer is a comparison with every rule.** -/
theorem compare_iff {m : DataMatcher} (hm : m.Wf) (data : List UInt8) :
    bteDataMatcherCompare m data = true ↔ ∀ r ∈ m.rules, r.Matches data :=
  compareFrom_iff m data _ _ hm

/-- **Two matchers are the same when they have the same rules.** -/
theorem isSame_iff {a b : DataMatcher} (ha : a.Wf) (hb : b.Wf) :
    bteDataMatcherIsSame a b = true ↔ a.rules = b.rules := by
  unfold bteDataMatcherIsSame
  by_cases h : a.numRules = b.numRules
  · have hb' : b.skip a.numRules.toNat 0 ≤ dataMatcherMaxLen := by rw [h]; exact hb
    simp only [h, ne_eq, not_true_eq_false, if_false]
    rw [← h, isSameFrom_iff a b _ 0 0 ha hb', rules, rules, h]
  · have hl : ∀ (m : DataMatcher) n p, (m.rulesFrom n p).length = n := by
      intro m n
      induction n with
      | zero => intro p; rfl
      | succ n ih => intro p; simp [rulesFrom, ih]
    simp only [h, ne_eq, not_false_eq_true, if_true, Bool.false_eq_true, false_iff]
    intro hr
    have := congrArg List.length hr
    rw [rules, rules, hl, hl] at this
    exact h (UInt8.toNat_inj.1 this)

/-! ## Building matchers -/

theorem skip_succ_right (m : DataMatcher) :
    ∀ n ptr, m.skip (n + 1) ptr = m.skip n ptr + (2 + (m.at_ (m.skip n ptr + 1)).toNat)
  | 0, _ => rfl
  | n + 1, ptr => by rw [skip, skip_succ_right m n]; rfl

theorem rulesFrom_succ_right (m : DataMatcher) :
    ∀ n ptr, m.rulesFrom (n + 1) ptr = m.rulesFrom n ptr ++ [m.ruleAt (m.skip n ptr)]
  | 0, _ => rfl
  | n + 1, ptr => by rw [rulesFrom, rulesFrom_succ_right m n]; rfl

/-- The area below `k` decides a walk that stays below `k`. -/
theorem walk_congr {a b : DataMatcher} {k : Nat} (h : a.bytes.take k = b.bytes.take k) :
    ∀ n ptr, a.skip n ptr ≤ k → b.skip n ptr = a.skip n ptr ∧ b.rulesFrom n ptr = a.rulesFrom n ptr
  | 0, _, _ => ⟨rfl, rfl⟩
  | n + 1, ptr, hk => by
    rw [skip] at hk
    have hle := a.le_skip n (ptr + (2 + (a.at_ (ptr + 1)).toNat))
    have h0 : a.at_ ptr = b.at_ ptr := getD_of_take_eq h (by omega) 0
    have h1 : a.at_ (ptr + 1) = b.at_ (ptr + 1) := getD_of_take_eq h (by omega) 0
    have h2 : slice a.bytes (ptr + 2) (a.at_ (ptr + 1)).toNat = slice b.bytes (ptr + 2) (a.at_ (ptr + 1)).toNat :=
      slice_of_take_eq h (by omega)
    obtain ⟨hs, hr⟩ := walk_congr h n _ hk
    rw [h1] at hs hr h2
    simp only [skip, rulesFrom, ruleAt, h0, h1, h2, hs, hr, and_self]

theorem numRules_le {m : DataMatcher} (hm : m.Wf) : m.numRules.toNat ≤ 8 := by
  have h := m.le_skip m.numRules.toNat 0
  unfold Wf dataMatcherMaxLen at hm
  omega

/-- **A rule that fits is appended.** -/
theorem addRule_of_fits {m : DataMatcher} (hm : m.Wf) (data : List UInt8) (offset : UInt8)
    (hfit : m.skip m.numRules.toNat 0 + 2 + data.length ≤ dataMatcherMaxLen) :
    (bteDataMatcherAddRule m data offset).1 = true ∧
    (bteDataMatcherAddRule m data offset).2.Wf ∧
    (bteDataMatcherAddRule m data offset).2.skip (bteDataMatcherAddRule m data offset).2.numRules.toNat 0 =
      m.skip m.numRules.toNat 0 + 2 + data.length ∧
    (bteDataMatcherAddRule m data offset).2.rules = m.rules ++ [⟨offset, data⟩] := by
  have hn := numRules_le hm
  have hok : (bteDataMatcherAddRule m data offset).1 = true := by rw [bteDataMatcherAddRule, dif_neg (by omega)]
  obtain ⟨m', hm'⟩ : ∃ m', m' = (bteDataMatcherAddRule m data offset).2 := ⟨_, rfl⟩
  have hnum : m'.numRules.toNat = m.numRules.toNat + 1 := by
    rw [hm', bteDataMatcherAddRule, dif_neg (by omega)]
    show (m.numRules + 1).toNat = _
    rw [UInt8.toNat_add]
    simp; omega
  have hbytes : m'.bytes = blit m.bytes (m.skip m.numRules.toNat 0) (offset :: UInt8.ofNat data.length :: data) := by
    rw [hm', bteDataMatcherAddRule, dif_neg (by omega)]
  have hptr : m.skip m.numRules.toNat 0 ≤ m.bytes.length := by rw [m.size_eq]; exact hm
  have htake : m.bytes.take (m.skip m.numRules.toNat 0) = m'.bytes.take (m.skip m.numRules.toNat 0) := by
    rw [hbytes, take_blit hptr]
  obtain ⟨hskip, hrules⟩ := walk_congr htake m.numRules.toNat 0 (Nat.le_refl _)
  have hdrop : m'.bytes.drop (m.skip m.numRules.toNat 0) = offset :: UInt8.ofNat data.length :: data ++
      m.bytes.drop (m.skip m.numRules.toNat 0 + (data.length + 2)) := by
    rw [hbytes, drop_blit hptr]; rfl
  generalize m.skip m.numRules.toNat 0 = ptr at *
  have hat : ∀ i, m'.at_ (ptr + i) = (m'.bytes.drop ptr).getD i 0 := by
    intro i; simp [at_, List.getD_eq_getElem?_getD]
  have hoff : m'.at_ ptr = offset := by rw [show ptr = ptr + 0 from rfl, hat, hdrop]; rfl
  have hdl : data.length < 256 := by unfold dataMatcherMaxLen at hfit; omega
  have hlen : (m'.at_ (ptr + 1)).toNat = data.length := by
    rw [hat, hdrop]
    simp [UInt8.toNat_ofNat', Nat.mod_eq_of_lt hdl]
  have hslice : slice m'.bytes (ptr + 2) data.length = data := by
    rw [slice, ← List.drop_drop, hdrop]
    simp
  have hnew : m'.skip m'.numRules.toNat 0 = ptr + 2 + data.length := by
    rw [hnum, skip_succ_right, hskip, hlen]; omega
  rw [← hm']
  refine ⟨hok, by rw [Wf, hnew]; exact hfit, hnew, ?_⟩
  rw [rules, rules, hnum, rulesFrom_succ_right, hrules, hskip, ruleAt, hoff, hlen, hslice]

end DataMatcher

end Bte
