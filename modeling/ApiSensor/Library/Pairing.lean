import Mathlib.Data.List.Basic

/-!
# Pairing answers with requests

On a connection whose answers come in the order of the requests, an observer pairs them by
position.  An observer that keeps only some of the requests and pairs every answer with the oldest
one it has kept can go wrong: a request that was not kept shifts all later pairs.  The two agree as
long as no request is kept while one that was not is still unanswered.
-/

namespace Library

/-- What an observer sees: a request that it keeps or not, or an answer. -/
inductive Exchange (ρ α : Type) where
  | sent (request : ρ) (kept : Bool)
  | answered (answer : α)

namespace Exchange

variable {ρ α : Type}

/-- Pair by position.  `waiting` lists the unanswered requests, those not kept as `none`. -/
def positional : List (Option ρ) → List (Exchange ρ α) → List (Option ρ) × List (Option ρ × α)
  | waiting, [] => (waiting, [])
  | waiting, sent request kept :: history =>
    positional (waiting ++ [if kept then some request else none]) history
  | waiting, answered answer :: history =>
    let rest := positional waiting.tail history
    (rest.1, (waiting.head?.join, answer) :: rest.2)

/-- Pair with the oldest request that was kept. -/
def fifo : List ρ → List (Exchange ρ α) → List ρ × List (Option ρ × α)
  | queue, [] => (queue, [])
  | queue, sent request kept :: history =>
    fifo (if kept then queue ++ [request] else queue) history
  | queue, answered answer :: history =>
    let rest := fifo queue.tail history
    (rest.1, (queue.head?, answer) :: rest.2)

/-- No request is kept behind an unanswered one that was not, and every answer has a request. -/
def Disciplined : List (Option ρ) → List (Exchange ρ α) → Prop
  | _, [] => True
  | waiting, sent request true :: history =>
    none ∉ waiting ∧ Disciplined (waiting ++ [some request]) history
  | waiting, sent _ false :: history => Disciplined (waiting ++ [none]) history
  | waiting, answered _ :: history => waiting ≠ [] ∧ Disciplined waiting.tail history

instance instDecidableDisciplined [DecidableEq ρ] : (waiting : List (Option ρ)) → (history : List (Exchange ρ α)) →
    Decidable (Disciplined waiting history)
  | _, [] => .isTrue trivial
  | waiting, sent request true :: history =>
    have := instDecidableDisciplined (waiting ++ [some request]) history
    inferInstanceAs (Decidable (none ∉ waiting ∧ _))
  | waiting, sent _ false :: history => instDecidableDisciplined (waiting ++ [none]) history
  | waiting, answered _ :: history =>
    have := instDecidableDisciplined waiting.tail history
    inferInstanceAs (Decidable (waiting ≠ [] ∧ _))

/-- The answers that found a request. -/
def matched (pairs : List (Option ρ × α)) : List (ρ × α) :=
  pairs.filterMap fun pair => pair.1.map (·, pair.2)

/-- The number of answers that found none. -/
def unmatched (pairs : List (Option ρ × α)) : Nat := pairs.countP fun pair => pair.1.isNone

@[simp]
theorem matched_append (first second : List (Option ρ × α)) :
    matched (first ++ second) = matched first ++ matched second :=
  List.filterMap_append

@[simp]
theorem unmatched_append (first second : List (Option ρ × α)) :
    unmatched (first ++ second) = unmatched first + unmatched second :=
  List.countP_append

theorem fifo_append (queue : List ρ) (first second : List (Exchange ρ α)) :
    fifo queue (first ++ second) =
      ((fifo (fifo queue first).1 second).1,
        (fifo queue first).2 ++ (fifo (fifo queue first).1 second).2) := by
  induction first generalizing queue with
  | nil => rfl
  | cons exchange first induction =>
    cases exchange with
    | sent request kept => exact induction _
    | answered answer =>
      simp only [List.cons_append, fifo, induction]

/-- In a disciplined history the requests not kept wait behind all others. -/
theorem fifo_eq_positional (queue : List ρ) (holes : Nat) (history : List (Exchange ρ α))
    (disciplined : Disciplined (queue.map some ++ List.replicate holes none) history) :
    (fifo queue history).2 =
      (positional (queue.map some ++ List.replicate holes none) history).2 := by
  induction history generalizing queue holes with
  | nil => rfl
  | cons exchange history induction =>
    rcases exchange with ⟨request, _ | _⟩ | answer
    · -- one more hole at the end
      rw [Disciplined, List.append_assoc, ← List.replicate_succ'] at disciplined
      rw [positional, if_neg Bool.false_ne_true, List.append_assoc, ← List.replicate_succ']
      exact induction queue (holes + 1) disciplined
    · -- there is no hole yet
      have none_yet : holes = 0 := by
        by_contra some_hole
        exact disciplined.1 (by simp [some_hole])
      subst none_yet
      have extended : (queue.map some ++ List.replicate 0 none) ++ [some request] =
          (queue ++ [request]).map some ++ List.replicate 0 none := by simp
      have rest := disciplined.2
      rw [extended] at rest
      rw [positional, if_pos rfl, extended]
      exact induction (queue ++ [request]) 0 rest
    · cases queue with
      | cons request queue =>
        have rest := induction queue holes disciplined.2
        simp only [fifo, positional, List.map_cons, List.cons_append, List.tail_cons,
          List.head?_cons, Option.join_some, rest]
      | nil =>
        cases holes with
        | zero => exact absurd rfl disciplined.1
        | succ holes =>
          have rest := induction [] holes disciplined.2
          simp only [List.map_nil, List.nil_append] at rest
          simp [fifo, positional, List.replicate_succ, rest]

end Exchange

end Library
