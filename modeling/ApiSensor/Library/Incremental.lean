import Mathlib.Data.List.Basic

/-!
# Incremental parsing

A parser that repeats turns over a buffer until one of them returns, and that is fed its input in
pieces.  Each piece is put behind what the last call left over.  If every turn may be cut short and
resumed, cutting the input changes nothing; if a turn can report an error that it does not recover
from, nothing changes up to that error.
-/

namespace Library

variable {σ β ι : Type}

/-- One turn of a parser loop goes on with the rest of the input, or returns. -/
inductive ParserTurn (σ β ι : Type) where
  | next (state : σ) (rest : List β) (items : List ι)
  | stop (state : σ) (rest : List β) (items : List ι)

/-- The result of repeated turns: the state, the unread input and the items they produce. -/
inductive Drains (turn : σ → List β → ParserTurn σ β ι) :
    σ → List β → σ → List β → List ι → Prop
  | stop {state final : σ} {input rest : List β} {items : List ι} :
      turn state input = .stop final rest items → Drains turn state input final rest items
  | next {state middle final : σ} {input left rest : List β} {items more : List ι} :
      turn state input = .next middle left items → Drains turn middle left final rest more →
      Drains turn state input final rest (items ++ more)

/-- Every turn taken on an input meets a condition. -/
inductive Throughout (turn : σ → List β → ParserTurn σ β ι) (condition : σ → List β → Prop) :
    σ → List β → Prop
  | intro {state : σ} {input : List β} : condition state input →
      (∀ {middle left items}, turn state input = .next middle left items →
        Throughout turn condition middle left) →
      Throughout turn condition state input

namespace Throughout

variable {turn : σ → List β → ParserTurn σ β ι} {condition : σ → List β → Prop} {state : σ}
  {input : List β}

section

variable (throughout : Throughout turn condition state input)
include throughout

theorem here : condition state input := by
  cases throughout with
  | intro here _ => exact here

theorem later {middle : σ} {left : List β} {items : List ι}
    (goes : turn state input = .next middle left items) :
    Throughout turn condition middle left := by
  cases throughout with
  | intro _ later => exact later goes

/-- Where the next turn is the same, so are the turns after it. -/
theorem congr {other : σ} {input' : List β} (same : turn state input = turn other input')
    (here : condition other input') :
    Throughout turn condition other input' :=
  .intro here fun goes => throughout.later (same.trans goes)

end

/-- Test the turns taken on an input, if there are no more than `fuel` of them. -/
def check (turn : σ → List β → ParserTurn σ β ι) (condition : σ → List β → Bool) :
    Nat → σ → List β → Bool
  | 0, _, _ => false
  | fuel + 1, state, input =>
    condition state input &&
      match turn state input with
      | .next middle left _ => check turn condition fuel middle left
      | .stop _ _ _ => true

theorem of_check {test : σ → List β → Bool} {fuel : Nat}
    (sound : ∀ state input, test state input = true → condition state input)
    (passed : check turn test fuel state input = true) : Throughout turn condition state input := by
  induction fuel generalizing state input with
  | zero => exact absurd passed Bool.false_ne_true
  | succ fuel induction =>
    rw [check, Bool.and_eq_true] at passed
    refine .intro (sound _ _ passed.1) fun goes => ?_
    have rest := passed.2
    rw [goes] at rest
    exact induction rest

end Throughout

namespace Drains

variable {turn : σ → List β → ParserTurn σ β ι}

variable {state final : σ} {input rest : List β} {items : List ι}

/-- A turn that produces nothing. -/
theorem silent {middle : σ} {left : List β} (goes : turn state input = .next middle left [])
    (drains : Drains turn middle left final rest items) :
    Drains turn state input final rest items :=
  .next goes drains

theorem unique {final' : σ} {rest' : List β} {items' : List ι}
    (drains : Drains turn state input final rest items)
    (again : Drains turn state input final' rest' items') :
    final' = final ∧ rest' = rest ∧ items' = items := by
  induction drains generalizing items' with
  | stop stops =>
    cases again with
    | stop stops' =>
      rw [stops] at stops'
      cases stops'
      exact ⟨rfl, rfl, rfl⟩
    | next goes _ =>
      rw [stops] at goes
      cases goes
  | next goes _ induction =>
    cases again with
    | stop stops =>
      rw [goes] at stops
      cases stops
    | next goes' later =>
      rw [goes] at goes'
      cases goes'
      obtain ⟨sameState, sameRest, rfl⟩ := induction later
      exact ⟨sameState, sameRest, rfl⟩

/-- A condition that always holds is met throughout. -/
theorem throughout {condition : σ → List β → Prop} (always : ∀ state input, condition state input)
    (drains : Drains turn state input final rest items) :
    Throughout turn condition state input := by
  induction drains with
  | stop stops =>
    refine .intro (always _ _) fun goes => ?_
    rw [stops] at goes
    cases goes
  | next goes _ induction =>
    refine .intro (always _ _) fun goes' => ?_
    rw [goes] at goes'
    cases goes'
    exact induction

theorem congr {other : σ} {input' : List β} (drains : Drains turn state input final rest items)
    (same : turn state input = turn other input') : Drains turn other input' final rest items := by
  cases drains with
  | stop stops => exact .stop (same.symm.trans stops)
  | next goes later => exact .next (same.symm.trans goes) later

end Drains

/-- Turns repeated at most `fuel` times. -/
def drainLoop (turn : σ → List β → ParserTurn σ β ι) : Nat → σ → List β → σ × List β × List ι
  | 0, state, input => (state, input, [])
  | fuel + 1, state, input =>
    match turn state input with
    | .stop final rest items => (final, rest, items)
    | .next middle left items =>
      let later := drainLoop turn fuel middle left
      (later.1, later.2.1, items ++ later.2.2)

variable {items : List ι} {state : σ}

/-- A loop with a measure that every turn decreases drains its input. -/
theorem drains_drainLoop {turn : σ → List β → ParserTurn σ β ι} (measure : σ → List β → Nat)
    (decreases : ∀ {state input middle left items}, turn state input = .next middle left items →
      measure middle left < measure state input) {fuel : Nat} {input : List β}
    (enough : measure state input < fuel) :
    Drains turn state input (drainLoop turn fuel state input).1
      (drainLoop turn fuel state input).2.1 (drainLoop turn fuel state input).2.2 := by
  induction fuel generalizing state input with
  | zero => exact absurd enough (Nat.not_lt_zero _)
  | succ fuel induction =>
    unfold drainLoop
    cases taken : turn state input with
    | stop final rest items => exact .stop taken
    | next middle left items =>
      have fewer := decreases taken
      exact .next taken (induction (by omega))

/-! ## Cutting the input once -/

/-- Turns that can be cut short.  A turn that goes on does so as well when more input is there; one
that returns either reports an error, which more input does not change, or the loop may as well
resume where it returned. -/
structure Cuttable (turn : σ → List β → ParserTurn σ β ι) (condition : σ → List β → Prop)
    (fatal : ι → Bool) : Prop where
  next : ∀ {state : σ} {input more : List β} {middle : σ} {left : List β} {items : List ι},
    condition state (input ++ more) → turn state input = .next middle left items →
    turn state (input ++ more) = .next middle (left ++ more) items
  /-- Items of a turn that goes on are no errors. -/
  nonfatal : ∀ {state : σ} {input : List β} {middle : σ} {left : List β} {items : List ι},
    turn state input = .next middle left items → ∀ item ∈ items, fatal item = false
  stop : ∀ {state : σ} {input more : List β} {middle : σ} {left : List β} {items : List ι},
    Throughout turn condition state (input ++ more) → turn state input = .stop middle left items →
    ((∃ item ∈ items, fatal item = true) ∧
        ∃ final rest, turn state (input ++ more) = .stop final rest items) ∨
      ((∀ item ∈ items, fatal item = false) ∧ Throughout turn condition middle (left ++ more) ∧
        ∀ {final rest produced}, Drains turn state (input ++ more) final rest produced →
          ∃ later, Drains turn middle (left ++ more) final rest later ∧ produced = items ++ later)

theorem Cuttable.cut {turn : σ → List β → ParserTurn σ β ι} {condition : σ → List β → Prop}
    {fatal : ι → Bool} (cuttable : Cuttable turn condition fatal) {middle final : σ}
    {input more left rest : List β} {produced : List ι}
    (first : Drains turn state input middle left items)
    (throughout : Throughout turn condition state (input ++ more))
    (whole : Drains turn state (input ++ more) final rest produced) :
    ((∃ item ∈ items, fatal item = true) ∧ produced = items) ∨
      ((∀ item ∈ items, fatal item = false) ∧ Throughout turn condition middle (left ++ more) ∧
        ∃ later, Drains turn middle (left ++ more) final rest later ∧
          produced = items ++ later) := by
  induction first generalizing produced with
  | stop stops =>
    rcases cuttable.stop throughout stops with ⟨failed, _, _, same⟩ | ⟨fine, later, resumes⟩
    · have only := (Drains.stop same).unique whole
      exact .inl ⟨failed, only.2.2⟩
    · exact .inr ⟨fine, later, resumes whole⟩
  | next goes _ induction =>
    have same := cuttable.next throughout.here goes
    have fine := cuttable.nonfatal goes
    cases whole with
    | stop stops =>
      rw [same] at stops
      cases stops
    | next goes' whole =>
      rw [same] at goes'
      cases goes'
      rcases induction (throughout.later same) whole with ⟨⟨item, member, failed⟩, rfl⟩ |
        ⟨rest, later, items, resumes, rfl⟩
      · exact .inl ⟨⟨item, List.mem_append_right _ member, failed⟩, rfl⟩
      · refine .inr ⟨?_, later, items, resumes, ?_⟩
        · exact List.forall_mem_append.mpr ⟨fine, rest⟩
        · rw [List.append_assoc]

/-! ## Items up to an error -/

/-- The items up to and including the first error. -/
def upTo (fatal : ι → Bool) : List ι → List ι
  | [] => []
  | item :: items => if fatal item then [item] else item :: upTo fatal items

theorem upTo_append_of_fatal {fatal : ι → Bool} (failed : ∃ item ∈ items, fatal item = true)
    (later : List ι) :
    upTo fatal (items ++ later) = upTo fatal items := by
  induction items with
  | nil =>
    obtain ⟨_, member, _⟩ := failed
    exact absurd member List.not_mem_nil
  | cons item items induction =>
    rw [List.cons_append, upTo, upTo]
    split
    · rfl
    · rename_i fine
      obtain ⟨other, member, bad⟩ := failed
      rcases List.mem_cons.mp member with rfl | member
      · exact absurd bad fine
      · rw [induction ⟨other, member, bad⟩]

theorem upTo_append_of_fine {fatal : ι → Bool} (fine : ∀ item ∈ items, fatal item = false)
    (later : List ι) :
    upTo fatal (items ++ later) = items ++ upTo fatal later := by
  induction items with
  | nil => rfl
  | cons item items induction =>
    have rest := induction fun other member => fine other (List.mem_cons_of_mem _ member)
    rw [List.cons_append, upTo, fine item List.mem_cons_self, rest]
    rfl

theorem upTo_eq_self {fatal : ι → Bool} (fine : ∀ item ∈ items, fatal item = false) :
    upTo fatal items = items := by
  have none_left := upTo_append_of_fine fine []
  rw [List.append_nil] at none_left
  rw [none_left]
  exact List.append_nil items

/-- Items that agree up to an error with items without one are those items. -/
theorem eq_of_upTo_eq {fatal : ι → Bool} {fine : List ι}
    (without : ∀ item ∈ fine, fatal item = false) (same : upTo fatal items = fine) :
    items = fine := by
  induction items generalizing fine with
  | nil => exact same
  | cons item items induction =>
    rw [upTo] at same
    split at same
    · rename_i bad
      subst same
      rw [without item List.mem_cons_self] at bad
      exact absurd bad Bool.false_ne_true
    · subst same
      rw [List.forall_mem_cons] at without
      rw [← induction without.2 rfl]

/-! ## Cutting the input anywhere -/

/-- Feed pieces one after the other, each behind what the last one left. -/
def feedAll (drain : σ → List β → σ × List β × List ι) :
    σ → List β → List (List β) → σ × List β × List ι
  | state, left, [] => (state, left, [])
  | state, left, piece :: pieces =>
    let first := drain state (left ++ piece)
    let rest := feedAll drain first.1 first.2.1 pieces
    (rest.1, rest.2.1, first.2.2 ++ rest.2.2)

theorem feedAll_singleton (drain : σ → List β → σ × List β × List ι) (state : σ) (left : List β)
    (piece : List β) : feedAll drain state left [piece] = drain state (left ++ piece) := by
  simp [feedAll]

variable {turn : σ → List β → ParserTurn σ β ι} {condition : σ → List β → Prop} {fatal : ι → Bool}
  {drain : σ → List β → σ × List β × List ι}

/-- However the input is cut, the items up to the first error are those of one call. -/
theorem Cuttable.upTo_feedAll (cuttable : Cuttable turn condition fatal) (drains : ∀ state input,
      Drains turn state input (drain state input).1 (drain state input).2.1 (drain state input).2.2)
    {pieces : List (List β)} (nonempty : pieces ≠ []) {left : List β}
    (throughout : Throughout turn condition state (left ++ pieces.flatten)) :
    upTo fatal (feedAll drain state left pieces).2.2 =
      upTo fatal (drain state (left ++ pieces.flatten)).2.2 := by
  induction pieces generalizing state left with
  | nil => exact absurd rfl nonempty
  | cons piece pieces induction =>
    rcases pieces with - | ⟨second, others⟩
    · rw [feedAll_singleton, List.flatten_singleton]
    · rw [List.flatten_cons, ← List.append_assoc] at throughout ⊢
      rcases cuttable.cut (drains state (left ++ piece)) throughout (drains _ _) with
        ⟨failed, same⟩ | ⟨fine, later, items, resumes, same⟩
      · rw [same]
        exact upTo_append_of_fatal failed _
      · have rest := induction (List.cons_ne_nil _ _) later
        obtain ⟨-, -, sameItems⟩ := resumes.unique (drains _ _)
        rw [same, upTo_append_of_fine fine, ← sameItems, ← rest]
        exact upTo_append_of_fine fine _

end Library
