import BtEmbedded.Lib.Run
/-!
# Pipeline — requests and answers through two queues

Clients give requests to a server without waiting for the answers: a request is queued, carried out, and its answer is
told, at three different times.  As long as both queues keep their order, what is told is what the server would have
answered had it carried out each request when it was given (`told_sequential`).

The server is a deterministic machine; what it chooses freely is an argument of its step.
-/

/-- What a request does to a server, and the answer. -/
abbrev Server (σ χ ρ α : Type) := σ → ρ → χ → σ × α

namespace Server

variable {σ χ ρ α : Type} (f : Server σ χ ρ α)

/-- The server after the requests that it has made a choice for. -/
def after : σ → List ρ → List χ → σ
  | s, r :: rs, x :: xs => after (f s r x).1 rs xs
  | s, _, _ => s

/-- Its answers. -/
def answers : σ → List ρ → List χ → List α
  | s, r :: rs, x :: xs => (f s r x).2 :: answers (f s r x).1 rs xs
  | _, _, _ => []

variable {f}

theorem answers_snoc (r : ρ) (x : χ) (queued : List ρ) : ∀ (s : σ) (rs : List ρ) (xs : List χ), rs.length = xs.length →
    f.answers s (rs ++ r :: queued) (xs ++ [x]) = f.answers s rs xs ++ [(f (f.after s rs xs) r x).2]
  | _, [], [], _ => by cases queued <;> rfl
  | s, r' :: rs, x' :: xs, h => congrArg (_ :: ·) (answers_snoc r x queued (f s r' x').1 rs xs (by simpa using h))

theorem after_snoc (r : ρ) (x : χ) (queued : List ρ) : ∀ (s : σ) (rs : List ρ) (xs : List χ), rs.length = xs.length →
    f.after s (rs ++ r :: queued) (xs ++ [x]) = (f (f.after s rs xs) r x).1
  | _, [], [], _ => by cases queued <;> rfl
  | s, r' :: rs, x' :: xs, h => after_snoc r x queued (f s r' x').1 rs xs (by simpa using h)

/-- Requests without a choice do not matter. -/
theorem answers_append (queued : List ρ) : ∀ (s : σ) (rs : List ρ) (xs : List χ), rs.length = xs.length →
    f.answers s (rs ++ queued) xs = f.answers s rs xs
  | _, [], [], _ => by cases queued <;> rfl
  | s, r :: rs, x :: xs, h => congrArg (_ :: ·) (answers_append queued (f s r x).1 rs xs (by simpa using h))

theorem after_append (queued : List ρ) : ∀ (s : σ) (rs : List ρ) (xs : List χ), rs.length = xs.length →
    f.after s (rs ++ queued) xs = f.after s rs xs
  | _, [], [], _ => by cases queued <;> rfl
  | s, r :: rs, x :: xs, h => after_append queued (f s r x).1 rs xs (by simpa using h)

theorem length_answers : ∀ (rs : List ρ) (xs : List χ) (s : σ), (f.answers s rs xs).length = min rs.length xs.length
  | [], _, _ => (Nat.zero_min _).symm
  | _ :: _, [], _ => rfl
  | _ :: rs, _ :: xs, _ => by
    rw [answers, List.length_cons, length_answers rs xs, List.length_cons, List.length_cons, Nat.succ_min_succ]

end Server

/-- What has been given, how much of it was carried out and with which choices, and what became of the answers. -/
structure Pipeline (σ χ ρ α : Type) where
  issued : List ρ
  queued : List ρ
  server : σ
  choices : List χ
  answered : List α
  told : List α

inductive PipelineOp (χ ρ : Type) where
  | issue (r : ρ)
  | execute (x : χ)
  | tell

namespace Pipeline

variable {σ χ ρ α : Type}

def start (s : σ) : Pipeline σ χ ρ α := ⟨[], [], s, [], [], []⟩

def step (f : Server σ χ ρ α) (p : Pipeline σ χ ρ α) : PipelineOp χ ρ → Pipeline σ χ ρ α
  | .issue r => { p with issued := p.issued ++ [r], queued := p.queued ++ [r] }
  | .execute x =>
    match p.queued with
    | [] => p
    | r :: queued =>
      { p with
        queued := queued
        server := (f p.server r x).1
        choices := p.choices ++ [x]
        answered := p.answered ++ [(f p.server r x).2] }
  | .tell =>
    match p.answered with
    | [] => p
    | a :: answered => { p with answered := answered, told := p.told ++ [a] }

/-- The requests that were carried out, in order, are those before the queued ones. -/
structure Sequential (f : Server σ χ ρ α) (s : σ) (p : Pipeline σ χ ρ α) : Prop where
  split : ∃ done, p.issued = done ++ p.queued ∧ done.length = p.choices.length
  server : p.server = f.after s p.issued p.choices
  answers : p.told ++ p.answered = f.answers s p.issued p.choices

theorem sequential_start (f : Server σ χ ρ α) (s : σ) : Sequential f s (start s) := ⟨⟨[], rfl, rfl⟩, rfl, rfl⟩

theorem sequential_step {f : Server σ χ ρ α} {s : σ} (p : Pipeline σ χ ρ α) (o : PipelineOp χ ρ)
    (h : Sequential f s p) : Sequential f s (p.step f o) := by
  obtain ⟨done, hsplit, hlen⟩ := h.split
  cases o with
  | issue r =>
    have hissued : p.issued ++ [r] = done ++ (p.queued ++ [r]) := by rw [hsplit, List.append_assoc]
    refine ⟨⟨done, hissued, hlen⟩, ?_, ?_⟩
    · show p.server = f.after s (p.issued ++ [r]) p.choices
      rw [hissued, Server.after_append _ _ _ _ hlen, h.server, hsplit, Server.after_append _ _ _ _ hlen]
    · show p.told ++ p.answered = f.answers s (p.issued ++ [r]) p.choices
      rw [hissued, Server.answers_append _ _ _ _ hlen, h.answers, hsplit, Server.answers_append _ _ _ _ hlen]
  | execute x =>
    cases hq : p.queued with
    | nil =>
      simp only [step, hq]
      exact h
    | cons r queued =>
      rw [hq] at hsplit
      have hserver : p.server = f.after s done p.choices := by
        rw [h.server, hsplit, Server.after_append _ _ _ _ hlen]
      simp only [step, hq]
      refine ⟨⟨done ++ [r], by rw [hsplit, List.append_assoc]; rfl, by simp [hlen]⟩, ?_, ?_⟩
      · show (f p.server r x).1 = f.after s p.issued (p.choices ++ [x])
        rw [hsplit, Server.after_snoc r x queued s _ _ hlen, hserver]
      · show p.told ++ (p.answered ++ [(f p.server r x).2]) = f.answers s p.issued (p.choices ++ [x])
        rw [← List.append_assoc, h.answers, hsplit, Server.answers_snoc r x queued s _ _ hlen,
          Server.answers_append _ _ _ _ hlen, hserver]
  | tell =>
    cases ha : p.answered with
    | nil =>
      simp only [step, ha]
      exact h
    | cons a answered =>
      simp only [step, ha]
      have hanswers := h.answers
      rw [ha] at hanswers
      exact ⟨h.split, h.server, by rw [← hanswers, List.append_assoc]; rfl⟩

/-- **What is told is told as if each request had been carried out when it was given.** -/
theorem told_sequential (f : Server σ χ ρ α) (s : σ) (ops : List (PipelineOp χ ρ)) :
    Sequential f s (Sys.run (step f) (start s) ops) :=
  Sys.inv_run_all sequential_step (sequential_start f s) ops

end Pipeline
