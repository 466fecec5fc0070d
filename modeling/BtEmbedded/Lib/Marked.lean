import Mathlib.Data.List.Basic
/-!
# Marked — messages as one stream of symbols, the first of each marked

A message is cut into pieces on its way; a piece says whether it begins a message, and nothing says where a message ends.
In the stream of all symbols only the first symbol of a message carries the mark, so a piece is a run of symbols with at
most the first marked.  Whatever pieces a stream of non-empty messages is cut into, a piece never runs over the end of
its message: the mark of the next one is in the way.
-/
namespace Marked

variable {α : Type}

/-- A piece, marked if it begins a message. -/
def cut (start : Bool) : List α → List (Bool × α)
  | [] => []
  | b :: bs => (start, b) :: bs.map (Prod.mk false)

/-- The messages one after the other. -/
def stream (ms : List (List α)) : List (Bool × α) := ms.flatMap (cut true)

@[simp] theorem cut_nil (start : Bool) : cut start ([] : List α) = [] := rfl

@[simp] theorem stream_nil : stream ([] : List (List α)) = [] := rfl

@[simp] theorem stream_cons (m : List α) (ms : List (List α)) : stream (m :: ms) = cut true m ++ stream ms := rfl

@[simp] theorem stream_append (ms ms' : List (List α)) : stream (ms ++ ms') = stream ms ++ stream ms' :=
  List.flatMap_append

theorem cut_false : ∀ bs : List α, cut false bs = bs.map (Prod.mk false)
  | [] => rfl
  | _ :: _ => rfl

@[simp] theorem length_cut (start : Bool) (bs : List α) : (cut start bs).length = bs.length := by
  cases bs <;> simp [cut]

@[simp] theorem cut_eq_nil {start : Bool} {bs : List α} : cut start bs = [] ↔ bs = [] := by cases bs <;> simp [cut]

/-- A message may be cut anywhere behind its first symbol. -/
theorem cut_append {start : Bool} {bs : List α} (hne : bs ≠ []) (cs : List α) :
    cut start (bs ++ cs) = cut start bs ++ cut false cs := by
  cases bs with
  | nil => exact absurd rfl hne
  | cons b bs => rw [cut_false, List.cons_append, cut, cut, List.map_append, List.cons_append]

/-- A message in pieces. -/
theorem cut_flatten {start : Bool} {p : List α} (hne : p ≠ []) :
    ∀ ps : List (List α), cut start p ++ ps.flatMap (cut false) = cut start (p ++ ps.flatten)
  | [] => by simp
  | q :: ps => by
    rw [List.flatMap_cons, ← List.append_assoc, ← cut_append hne, cut_flatten (by simp [hne]) ps, List.flatten_cons,
      List.append_assoc]

/-- A stream of nothing is of no messages. -/
theorem stream_eq_nil {ms : List (List α)} (hms : ∀ m ∈ ms, m ≠ []) : stream ms = [] ↔ ms = [] := by
  constructor
  · intro h
    cases ms with
    | nil => rfl
    | cons m ms => exact absurd (cut_eq_nil.1 (List.append_eq_nil_iff.1 h).1) (hms m List.mem_cons_self)
  · rintro rfl
    rfl

/-- **An unmarked piece ends with its message**: the symbol behind the message is marked. -/
theorem prefix_of_unmarked {ms : List (List α)} (hms : ∀ m ∈ ms, m ≠ []) :
    ∀ {bs rest : List α}, cut false bs <+: cut false rest ++ stream ms → bs <+: rest
  | [], rest, _ => List.nil_prefix
  | b :: bs, [], h => by
    cases ms with
    | nil => exact absurd (List.prefix_nil.1 h) (by simp [cut])
    | cons m ms =>
      obtain ⟨c, cs, rfl⟩ := List.exists_cons_of_ne_nil (hms m List.mem_cons_self)
      have hhead := (List.cons_prefix_cons.1 h).1
      exact absurd (congrArg Prod.fst hhead) (by simp)
  | b :: bs, c :: rest, h => by
    obtain ⟨hhead, htail⟩ := List.cons_prefix_cons.1 h
    rw [← cut_false, ← cut_false] at htail
    obtain rfl : b = c := congrArg Prod.snd hhead
    exact (List.prefix_cons_inj b).2 (prefix_of_unmarked hms htail)

/-- **The next piece between two messages** begins the next one and does not go beyond it. -/
theorem next_between {done todo : List (List α)} (htodo : ∀ m ∈ todo, m ≠ []) {start : Bool} {bs : List α} (hbs : bs ≠ [])
    (h : stream done ++ cut start bs <+: stream (done ++ todo)) :
    start = true ∧ ∃ rest todo', todo = (bs ++ rest) :: todo' := by
  rw [stream_append, List.prefix_append_right_inj] at h
  obtain ⟨b, bs, rfl⟩ := List.exists_cons_of_ne_nil hbs
  cases todo with
  | nil => exact absurd (List.prefix_nil.1 h) (by simp [cut])
  | cons m todo =>
    obtain ⟨c, cs, rfl⟩ := List.exists_cons_of_ne_nil (htodo m List.mem_cons_self)
    obtain ⟨hhead, htail⟩ := List.cons_prefix_cons.1 h
    rw [← cut_false, ← cut_false] at htail
    obtain rfl : b = c := congrArg Prod.snd hhead
    obtain ⟨rest, rfl⟩ := prefix_of_unmarked (fun m hm => htodo m (List.mem_cons_of_mem _ hm)) htail
    exact ⟨congrArg Prod.fst hhead, rest, todo, rfl⟩

/-- **The next piece within a message** does not begin one and does not go beyond it. -/
theorem next_within {done todo : List (List α)} (htodo : ∀ m ∈ todo, m ≠ []) {cur rest : List α} (hcur : cur ≠ [])
    (hrest : rest ≠ []) {start : Bool} {bs : List α} (hbs : bs ≠ [])
    (h : stream done ++ cut true cur ++ cut start bs <+: stream (done ++ (cur ++ rest) :: todo)) :
    start = false ∧ ∃ rest', rest = bs ++ rest' := by
  rw [stream_append, stream_cons, cut_append hcur, List.append_assoc, List.append_assoc, List.prefix_append_right_inj,
    List.prefix_append_right_inj] at h
  have hstart : start = false := by
    obtain ⟨b, bs, rfl⟩ := List.exists_cons_of_ne_nil hbs
    obtain ⟨r, rest, rfl⟩ := List.exists_cons_of_ne_nil hrest
    exact congrArg Prod.fst (List.cons_prefix_cons.1 h).1
  subst hstart
  obtain ⟨rest', rfl⟩ := prefix_of_unmarked htodo h
  exact ⟨rfl, rest', rfl⟩

end Marked
