import Mathlib.Algebra.BigOperators.Group.Finset.Piecewise
import Mathlib.Algebra.Order.BigOperators.Group.Finset
import Mathlib.Algebra.Ring.Nat
import Mathlib.Logic.Relation

/-!
# Programs over a shared byte budget

A program reserves and releases bytes of one counter that other programs use at the same time, and
appends entries to a log.  Three readings of the same program are related here: a sequential run
against a concrete counter, the set of outcomes under arbitrary answers to its reservations, and
its interleaving with other programs one atomic action at a time.

The accounting rule is local.  `Prog.Balanced` follows what one program holds of the counter;
`Pool.accounted` concludes that the counter is the sum of what all of them hold.
-/

namespace Library

/-- A program that returns an `α` and logs entries of type `ε`. -/
inductive Prog (ε α : Type) : Type where
  /-- The program has returned. -/
  | done (result : α)
  /-- Ask for `amount` more bytes under `ceiling` and continue with the answer. -/
  | reserve (ceiling amount : Nat) (next : Bool → Prog ε α)
  /-- Hand `amount` bytes back. -/
  | release (amount : Nat) (next : Prog ε α)
  /-- Append an entry to the log. -/
  | log (entry : ε) (next : Prog ε α)

namespace Prog

variable {ε α β γ : Type}

/-- Sequential composition. -/
def bind : Prog ε α → (α → Prog ε β) → Prog ε β
  | done result, rest => rest result
  | reserve ceiling amount next, rest =>
    reserve ceiling amount fun granted => (next granted).bind rest
  | release amount next, rest => release amount (next.bind rest)
  | log entry next, rest => log entry (next.bind rest)

instance : Monad (Prog ε) where
  pure := done
  bind := bind

@[simp]
theorem pure_eq (result : α) : (pure result : Prog ε α) = done result := rfl

@[simp]
theorem done_bind (result : α) (rest : α → Prog ε β) : done result >>= rest = rest result := rfl

@[simp]
theorem reserve_bind (ceiling amount : Nat) (next : Bool → Prog ε α) (rest : α → Prog ε β) :
    reserve ceiling amount next >>= rest =
      reserve ceiling amount fun granted => next granted >>= rest := rfl

@[simp]
theorem release_bind (amount : Nat) (next : Prog ε α) (rest : α → Prog ε β) :
    release amount next >>= rest = release amount (next >>= rest) := rfl

@[simp]
theorem log_bind (entry : ε) (next : Prog ε α) (rest : α → Prog ε β) :
    log entry next >>= rest = log entry (next >>= rest) := rfl

/-- Release several amounts one after the other. -/
def releaseAll : List Nat → Prog ε Unit
  | [] => done ()
  | amount :: amounts => release amount (releaseAll amounts)

/-! ## Sequential runs -/

/-- Run against a counter.  A release below zero saturates. -/
def run : Prog ε α → Nat → α × Nat × List ε
  | done result, counter => (result, counter, [])
  | reserve ceiling amount next, counter =>
    if counter + amount ≤ ceiling then
      (next true).run (counter + amount)
    else
      (next false).run counter
  | release amount next, counter => next.run (counter - amount)
  | log entry next, counter =>
    let (result, counter', entries) := next.run counter
    (result, counter', entry :: entries)

theorem run_bind (program : Prog ε α) (rest : α → Prog ε β) (counter : Nat) :
    (program >>= rest).run counter =
      let first := program.run counter
      let second := (rest first.1).run first.2.1
      (second.1, second.2.1, first.2.2 ++ second.2.2) := by
  induction program generalizing counter with
  | done result => rfl
  | reserve ceiling amount next ih =>
    simp only [reserve_bind, run]
    split
    · exact ih true _
    · exact ih false _
  | release amount next ih => exact ih _
  | log entry next ih =>
    simp only [log_bind, run, ih]
    rfl

/-! ## Outcomes under arbitrary answers -/

/-- The program can return `result` with the given log, for some answers to its reservations. -/
inductive Outcome : Prog ε α → List ε → α → Prop
  | done (result : α) : Outcome (.done result) [] result
  | reserve {ceiling amount : Nat} {next : Bool → Prog ε α} {entries : List ε} {result : α}
      (granted : Bool) :
      Outcome (next granted) entries result →
      Outcome (.reserve ceiling amount next) entries result
  | release {amount : Nat} {next : Prog ε α} {entries : List ε} {result : α} :
      Outcome next entries result → Outcome (.release amount next) entries result
  | log {entry : ε} {next : Prog ε α} {entries : List ε} {result : α} :
      Outcome next entries result → Outcome (.log entry next) (entry :: entries) result

theorem outcome_run (program : Prog ε α) (counter : Nat) :
    Outcome program (program.run counter).2.2 (program.run counter).1 := by
  induction program generalizing counter with
  | done result => exact .done result
  | reserve ceiling amount next induction =>
    simp only [run]
    split
    · exact .reserve true (induction true _)
    · exact .reserve false (induction false _)
  | release amount next induction => exact .release (induction _)
  | log entry next induction => exact .log (induction _)

variable {program next : Prog ε α} {before held amount : Nat} {after : α → Nat}
  {rest : α → Prog ε β}

theorem outcome_bind {entries : List ε} {result : β} :
    Outcome (program >>= rest) entries result ↔
      ∃ first middle last, Outcome program first middle ∧
        Outcome (rest middle) last result ∧ entries = first ++ last := by
  induction program generalizing entries with
  | done value =>
    constructor
    · intro outcome
      exact ⟨[], value, entries, .done value, outcome, rfl⟩
    · rintro ⟨_, _, last, ⟨⟩, outcome, rfl⟩
      exact outcome
  | reserve ceiling amount next induction =>
    constructor
    · rintro (_ | ⟨granted, outcome⟩)
      obtain ⟨first, middle, last, head, tail, rfl⟩ := (induction granted).mp outcome
      exact ⟨first, middle, last, .reserve granted head, tail, rfl⟩
    · rintro ⟨first, middle, last, _ | ⟨granted, head⟩, tail, rfl⟩
      exact .reserve granted ((induction granted).mpr ⟨first, middle, last, head, tail, rfl⟩)
  | release amount next induction =>
    constructor
    · rintro (_ | _ | ⟨outcome⟩)
      obtain ⟨first, middle, last, head, tail, rfl⟩ := induction.mp outcome
      exact ⟨first, middle, last, .release head, tail, rfl⟩
    · rintro ⟨first, middle, last, _ | _ | ⟨head⟩, tail, rfl⟩
      exact .release (induction.mpr ⟨first, middle, last, head, tail, rfl⟩)
  | log entry next induction =>
    constructor
    · rintro (_ | _ | _ | ⟨outcome⟩)
      obtain ⟨first, middle, last, head, tail, rfl⟩ := induction.mp outcome
      exact ⟨entry :: first, middle, last, .log head, tail, rfl⟩
    · rintro ⟨_, middle, last, _ | _ | _ | ⟨head⟩, tail, rfl⟩
      exact .log (induction.mpr ⟨_, middle, last, head, tail, rfl⟩)

/-- Every outcome of the program satisfies `post`. -/
def Sat (program : Prog ε α) (post : List ε → α → Prop) : Prop :=
  ∀ entries result, Outcome program entries result → post entries result

variable {ceiling : Nat} {post : List ε → α → Prop} {result : α} {amounts : List Nat}

@[simp]
theorem sat_done :
    Sat (done result) post ↔ post [] result := by
  constructor
  · intro sat
    exact sat _ _ (.done result)
  · rintro holds _ _ ⟨⟩
    exact holds

@[simp]
theorem sat_reserve {next : Bool → Prog ε α} :
    Sat (reserve ceiling amount next) post ↔ ∀ granted, Sat (next granted) post := by
  constructor
  · intro sat granted entries result outcome
    exact sat _ _ (.reserve granted outcome)
  · rintro sat entries result (_ | ⟨granted, outcome⟩)
    exact sat granted _ _ outcome

@[simp]
theorem sat_release :
    Sat (release amount next) post ↔ Sat next post := by
  constructor
  · intro sat entries result outcome
    exact sat _ _ (.release outcome)
  · rintro sat entries result (_ | _ | ⟨outcome⟩)
    exact sat _ _ outcome

@[simp]
theorem sat_log {entry : ε} :
    Sat (log entry next) post ↔ Sat next fun entries => post (entry :: entries) := by
  constructor
  · intro sat entries result outcome
    exact sat _ _ (.log outcome)
  · rintro sat entries result (_ | _ | _ | ⟨outcome⟩)
    exact sat _ _ outcome

theorem sat_bind {post : List ε → β → Prop} :
    Sat (program >>= rest) post ↔
      Sat program fun first middle => Sat (rest middle) fun last => post (first ++ last) := by
  constructor
  · intro sat first middle head last result tail
    exact sat _ _ (outcome_bind.mpr ⟨first, middle, last, head, tail, rfl⟩)
  · rintro sat entries result outcome
    obtain ⟨first, middle, last, head, tail, rfl⟩ := outcome_bind.mp outcome
    exact sat first middle head last result tail

theorem Sat.mono {post' : List ε → α → Prop} (sat : Sat program post)
    (weaker : ∀ entries result, post entries result → post' entries result) :
    Sat program post' :=
  fun entries result outcome => weaker _ _ (sat entries result outcome)

/-- Two guarantees hold together. -/
theorem Sat.and {post' : List ε → α → Prop} (left : Sat program post) (right : Sat program post') :
    Sat program fun entries result => post entries result ∧ post' entries result :=
  fun entries result outcome => ⟨left entries result outcome, right entries result outcome⟩

/-- Rule of composition: prove what the first part yields, then the rest from that. -/
theorem Sat.bind {middle : List ε → α → Prop} {post : List ε → β → Prop}
    (first : Sat program middle) (second : ∀ entries result, middle entries result →
      Sat (rest result) fun last => post (entries ++ last)) :
    Sat (program >>= rest) post :=
  sat_bind.mpr fun _ _ outcome => second _ _ (first _ _ outcome)

@[simp]
theorem sat_releaseAll {post : List ε → Unit → Prop} :
    Sat (releaseAll amounts) post ↔ post [] () := by
  induction amounts with
  | nil => exact sat_done
  | cons amount amounts induction => simpa [releaseAll] using induction

/-! ## Outcomes and refusals -/

/-- An outcome, and whether it was reached smoothly: every reservation was granted and no entry of
the kind `bad` was logged. -/
inductive Graded (bad : ε → Bool) : Prog ε α → Bool → α → Prop
  | done (result : α) : Graded bad (.done result) true result
  | reserve {ceiling amount : Nat} {next : Bool → Prog ε α} {smooth : Bool} {result : α}
      (granted : Bool) :
      Graded bad (next granted) smooth result →
      Graded bad (.reserve ceiling amount next) (granted && smooth) result
  | release {amount : Nat} {next : Prog ε α} {smooth : Bool} {result : α} :
      Graded bad next smooth result → Graded bad (.release amount next) smooth result
  | log {entry : ε} {next : Prog ε α} {smooth : Bool} {result : α} :
      Graded bad next smooth result → Graded bad (.log entry next) (!bad entry && smooth) result

theorem Outcome.graded (bad : ε → Bool) {entries : List ε}
    (outcome : Outcome program entries result) : ∃ smooth, Graded bad program smooth result := by
  induction outcome with
  | done result => exact ⟨_, .done result⟩
  | reserve granted _ induction =>
    obtain ⟨smooth, graded⟩ := induction
    exact ⟨_, .reserve granted graded⟩
  | release _ induction =>
    obtain ⟨smooth, graded⟩ := induction
    exact ⟨_, .release graded⟩
  | log _ induction =>
    obtain ⟨smooth, graded⟩ := induction
    exact ⟨_, .log graded⟩

/-- A sequential run, graded. -/
def gradedRun (bad : ε → Bool) : Prog ε α → Nat → α × Nat × Bool
  | done result, counter => (result, counter, true)
  | reserve ceiling amount next, counter =>
    if counter + amount ≤ ceiling then
      let (result, counter', smooth) := (next true).gradedRun bad (counter + amount)
      (result, counter', true && smooth)
    else
      let (result, counter', smooth) := (next false).gradedRun bad counter
      (result, counter', false && smooth)
  | release amount next, counter => next.gradedRun bad (counter - amount)
  | log entry next, counter =>
    let (result, counter', smooth) := next.gradedRun bad counter
    (result, counter', !bad entry && smooth)

theorem graded_gradedRun (bad : ε → Bool) (program : Prog ε α) (counter : Nat) :
    Graded bad program (program.gradedRun bad counter).2.2 (program.gradedRun bad counter).1 := by
  induction program generalizing counter with
  | done result => exact .done result
  | reserve ceiling amount next induction =>
    rw [gradedRun]
    split
    · exact .reserve true (induction true _)
    · exact .reserve false (induction false _)
  | release amount next induction => exact .release (induction _)
  | log entry next induction => exact .log (induction _)

theorem graded_bind {bad : ε → Bool} {smooth : Bool} {result : β} :
    Graded bad (program >>= rest) smooth result →
      ∃ first middle last, Graded bad program first middle ∧ Graded bad (rest middle) last result ∧
        smooth = (first && last) := by
  intro graded
  induction program generalizing smooth with
  | done value => exact ⟨true, value, smooth, .done value, graded, rfl⟩
  | reserve ceiling amount next induction =>
    cases graded with
    | reserve granted graded =>
      obtain ⟨first, middle, last, head, tail, rfl⟩ := induction granted graded
      exact ⟨_, middle, last, .reserve granted head, tail, (Bool.and_assoc _ _ _).symm⟩
  | release amount next induction =>
    cases graded with
    | release graded =>
      obtain ⟨first, middle, last, head, tail, rfl⟩ := induction graded
      exact ⟨_, middle, last, .release head, tail, rfl⟩
  | log entry next induction =>
    cases graded with
    | log graded =>
      obtain ⟨first, middle, last, head, tail, rfl⟩ := induction graded
      exact ⟨_, middle, last, .log head, tail, (Bool.and_assoc _ _ _).symm⟩

/-- Every outcome satisfies `post`, which is told whether it was reached smoothly. -/
def Each (bad : ε → Bool) (program : Prog ε α) (post : Bool → α → Prop) : Prop :=
  ∀ smooth result, Graded bad program smooth result → post smooth result

section Each

variable {bad : ε → Bool}

variable {program : Prog ε α}

theorem Each.sat {post : α → Prop} (each : Each bad program fun _ result => post result) :
    Sat program fun _ result => post result := by
  intro entries result outcome
  obtain ⟨smooth, graded⟩ := outcome.graded bad
  exact each smooth result graded

/-- With a single result, every outcome is that one. -/
theorem Each.sat_iff {only : α} (each : Each bad program fun _ result => result = only)
    (post : α → Prop) :
    Sat program (fun _ result => post result) ↔ post only := by
  constructor
  · intro sat
    have outcome := outcome_run program 0
    have same := each.sat _ _ outcome
    rw [← same]
    exact sat _ _ outcome
  · intro holds
    refine each.sat.mono ?_
    rintro _ _ rfl
    exact holds

variable {post : Bool → α → Prop}

@[simp]
theorem each_done {result : α} :
    Each bad (done result) post ↔ post true result := by
  constructor
  · intro each
    exact each _ _ (.done result)
  · rintro holds _ _ ⟨⟩
    exact holds

@[simp]
theorem each_reserve {ceiling amount : Nat} {next : Bool → Prog ε α} :
    Each bad (reserve ceiling amount next) post ↔
      ∀ granted, Each bad (next granted) fun smooth => post (granted && smooth) := by
  constructor
  · intro each granted smooth result graded
    exact each _ _ (.reserve granted graded)
  · rintro each _ result (_ | ⟨granted, graded⟩)
    exact each granted _ _ graded

@[simp]
theorem each_release {amount : Nat} {next : Prog ε α} :
    Each bad (release amount next) post ↔ Each bad next post := by
  constructor
  · intro each smooth result graded
    exact each _ _ (.release graded)
  · rintro each _ result (_ | _ | ⟨graded⟩)
    exact each _ _ graded

@[simp]
theorem each_log {entry : ε} {next : Prog ε α} :
    Each bad (log entry next) post ↔
      Each bad next fun smooth => post (!bad entry && smooth) := by
  constructor
  · intro each smooth result graded
    exact each _ _ (.log graded)
  · rintro each _ result (_ | _ | _ | ⟨graded⟩)
    exact each _ _ graded

theorem Each.mono {post' : Bool → α → Prop} (each : Each bad program post)
    (weaker : ∀ smooth result, post smooth result → post' smooth result) :
    Each bad program post' :=
  fun smooth result graded => weaker _ _ (each smooth result graded)

/-- Rule of composition. -/
theorem Each.bind {rest : α → Prog ε β} {middle : Bool → α → Prop} {post : Bool → β → Prop}
    (first : Each bad program middle) (second : ∀ smooth result, middle smooth result →
      Each bad (rest result) fun last => post (smooth && last)) :
    Each bad (program >>= rest) post := by
  intro smooth result graded
  obtain ⟨early, value, last, head, tail, rfl⟩ := graded_bind graded
  exact second _ _ (first _ _ head) _ _ tail

end Each

/-! ## Accounting -/

/-- Starting with `held` bytes of the counter, the program never releases more than it holds, and
ends holding an amount related to its result by `post`, whatever its reservations are answered.
Every reservation is made under the same `ceiling`. -/
def Balanced (ceiling : Nat) : Prog ε α → Nat → (α → Nat → Prop) → Prop
  | done result, held, post => post result held
  | reserve ceiling' amount next, held, post =>
    ceiling' = ceiling ∧ Balanced ceiling (next true) (held + amount) post ∧
      Balanced ceiling (next false) held post
  | release amount next, held, post =>
    amount ≤ held ∧ Balanced ceiling next (held - amount) post
  | log _ next, held, post => Balanced ceiling next held post

theorem balanced_bind {post : β → Nat → Prop} :
    Balanced ceiling (program >>= rest) held post ↔
      Balanced ceiling program held fun result held' =>
        Balanced ceiling (rest result) held' post := by
  induction program generalizing held with
  | done result => exact Iff.rfl
  | reserve ceiling' amount next induction =>
    exact and_congr_right fun _ => and_congr (induction true) (induction false)
  | release amount next induction => exact and_congr_right fun _ => induction
  | log entry next induction => exact induction

theorem Balanced.mono {post post' : α → Nat → Prop} (balanced : Balanced ceiling program held post)
    (weaker : ∀ result held', post result held' → post' result held') :
    Balanced ceiling program held post' := by
  induction program generalizing held with
  | done result => exact weaker _ _ balanced
  | reserve ceiling' amount next induction =>
    exact ⟨balanced.1, induction true balanced.2.1, induction false balanced.2.2⟩
  | release amount next induction => exact ⟨balanced.1, induction balanced.2⟩
  | log entry next induction => exact induction balanced

/-- Rule of composition for accounts. -/
theorem Balanced.bind {middle : α → Nat → Prop} {post : β → Nat → Prop}
    (first : Balanced ceiling program held middle) (second : ∀ result held', middle result held' →
      Balanced ceiling (rest result) held' post) :
    Balanced ceiling (program >>= rest) held post :=
  balanced_bind.mpr (first.mono second)

theorem balanced_releaseAll {post : Unit → Nat → Prop} :
    (releaseAll amounts : Prog ε Unit).Balanced ceiling held post ↔
      amounts.sum ≤ held ∧ post () (held - amounts.sum) := by
  induction amounts generalizing held with
  | nil => simp [releaseAll, Balanced]
  | cons amount amounts induction =>
    simp only [releaseAll, Balanced, induction, List.sum_cons]
    constructor
    · rintro ⟨le, rest_le, holds⟩
      exact ⟨by omega, by rwa [Nat.sub_add_eq]⟩
    · rintro ⟨le, holds⟩
      exact ⟨by omega, by omega, by rwa [← Nat.sub_add_eq]⟩

/-- A local account.  Out of any larger holding the program turns `before` bytes into `after` of
its result and leaves the remainder alone. -/
def Conserves (ceiling : Nat) (program : Prog ε α) (before : Nat) (after : α → Nat) : Prop :=
  ∀ rest, Balanced ceiling program (rest + before) fun result held => held = rest + after result

theorem Conserves.balanced (conserves : Conserves ceiling program before after) :
    Balanced ceiling program before fun result held => held = after result := by
  simpa using conserves 0

theorem conserves_done :
    Conserves ceiling (done result : Prog ε α) before after ↔ before = after result := by
  simp [Conserves, Balanced]

theorem conserves_reserve {next : Bool → Prog ε α} :
    Conserves ceiling (reserve ceiling amount next) before after ↔
      Conserves ceiling (next true) (before + amount) after ∧
        Conserves ceiling (next false) before after := by
  simp only [Conserves, Balanced, true_and, Nat.add_assoc]
  exact forall_and

theorem conserves_release (le : amount ≤ before) :
    Conserves ceiling (release amount next) before after ↔
      Conserves ceiling next (before - amount) after := by
  simp only [Conserves, Balanced]
  refine forall_congr' fun rest => ?_
  rw [Nat.add_sub_assoc le]
  exact and_iff_right (by omega)

theorem conserves_log {entry : ε} :
    Conserves ceiling (log entry next) before after ↔ Conserves ceiling next before after :=
  Iff.rfl

theorem conserves_releaseAll (left : Nat) (total : before = left + amounts.sum) :
    Conserves ceiling (releaseAll amounts : Prog ε Unit) before fun _ => left := by
  intro rest
  rw [balanced_releaseAll]
  dsimp only
  omega

/-- Rule of composition for local accounts. -/
theorem Conserves.bind {middle : α → Nat} {after : β → Nat}
    (first : Conserves ceiling program before middle)
    (second : ∀ result, Conserves ceiling (rest result) (middle result) after) :
    Conserves ceiling (program >>= rest) before after := by
  intro other
  refine (first other).bind fun result held held_eq => ?_
  subst held_eq
  exact second result other

/-- A balanced program that runs alone leaves in the counter what others hold and what it ends up
holding itself. -/
theorem Balanced.run {post : α → Nat → Prop} (balanced : Balanced ceiling program held post)
    (others : Nat) :
    ∃ left, (program.run (others + held)).2.1 = others + left ∧
      post (program.run (others + held)).1 left := by
  induction program generalizing held with
  | done result => exact ⟨held, rfl, balanced⟩
  | reserve ceiling' amount next induction =>
    simp only [run]
    split
    · rw [Nat.add_assoc]
      exact induction true balanced.2.1
    · exact induction false balanced.2.2
  | release amount next induction =>
    simp only [run]
    rw [Nat.add_sub_assoc balanced.1]
    exact induction balanced.2
  | log entry next induction => exact induction balanced

section

variable (conserves : Conserves ceiling program before after)
include conserves

theorem Conserves.counter_run (others : Nat) :
    (program.run (others + before)).2.1 =
      others + after (program.run (others + before)).1 := by
  obtain ⟨left, counter, rfl⟩ := conserves.balanced.run others
  exact counter

/-- Rule of consequence: rewrite the two amounts. -/
theorem Conserves.congr {before' : Nat} {after' : α → Nat} (before_eq : before' = before)
    (after_eq : ∀ result, after result = after' result) :
    Conserves ceiling program before' after' := by
  rw [before_eq, ← funext after_eq]
  exact conserves

/-- Frame rule: bytes held besides stay held. -/
theorem Conserves.frame (extra : Nat) :
    Conserves ceiling program (extra + before) fun result => extra + after result := by
  intro rest
  simpa only [Nat.add_assoc] using conserves (rest + extra)

/-- The account of a part is an account of the whole that contains it. -/
theorem Conserves.embed {total : Nat} {total' : α → Nat} (part : before ≤ total)
    (replaced : ∀ result, total' result + before = total + after result) :
    Conserves ceiling program total total' := by
  refine (conserves.frame (total - before)).congr (by omega) fun result => ?_
  have equation := replaced result
  omega

end

end Prog

/-! ## Interleaving -/

/-- A component of a pool: at rest, or with an operation under way. -/
inductive Slot (ε σ ω : Type) : Type where
  | idle (state : σ)
  | busy (program : Prog ε (σ × ω))

/-- Components that share one counter. -/
structure Pool (ι ε σ ω : Type) where
  /-- Bytes currently reserved. -/
  counter : Nat
  /-- The components. -/
  slots : ι → Slot ε σ ω

namespace Pool

variable {ι ε σ ω : Type} [DecidableEq ι]

/-- Replace one component and the counter. -/
def update (pool : Pool ι ε σ ω) (index : ι) (counter : Nat) (slot : Slot ε σ ω) :
    Pool ι ε σ ω :=
  ⟨counter, Function.update pool.slots index slot⟩

/-- One atomic action of one component.  `start` lists the operations a component may begin. -/
inductive Step (start : ι → σ → Prog ε (σ × ω) → Prop) : Pool ι ε σ ω → Pool ι ε σ ω → Prop
  | start {pool : Pool ι ε σ ω} {index : ι} {state : σ} {program : Prog ε (σ × ω)} :
      pool.slots index = .idle state → start index state program →
      Step start pool (pool.update index pool.counter (.busy program))
  | grant {pool : Pool ι ε σ ω} {index : ι} {ceiling amount : Nat}
      {next : Bool → Prog ε (σ × ω)} :
      pool.slots index = .busy (.reserve ceiling amount next) →
      pool.counter + amount ≤ ceiling →
      Step start pool (pool.update index (pool.counter + amount) (.busy (next true)))
  | refuse {pool : Pool ι ε σ ω} {index : ι} {ceiling amount : Nat}
      {next : Bool → Prog ε (σ × ω)} :
      pool.slots index = .busy (.reserve ceiling amount next) →
      ceiling < pool.counter + amount →
      Step start pool (pool.update index pool.counter (.busy (next false)))
  | release {pool : Pool ι ε σ ω} {index : ι} {amount : Nat} {next : Prog ε (σ × ω)} :
      pool.slots index = .busy (.release amount next) →
      Step start pool (pool.update index (pool.counter - amount) (.busy next))
  | log {pool : Pool ι ε σ ω} {index : ι} {entry : ε} {next : Prog ε (σ × ω)} :
      pool.slots index = .busy (.log entry next) →
      Step start pool (pool.update index pool.counter (.busy next))
  | finish {pool : Pool ι ε σ ω} {index : ι} {state : σ} {output : ω} :
      pool.slots index = .busy (.done (state, output)) →
      Step start pool (pool.update index pool.counter (.idle state))

/-- Fewer operations, fewer steps. -/
theorem Step.mono {start start' : ι → σ → Prog ε (σ × ω) → Prop}
    (allowed : ∀ index state program, start index state program → start' index state program)
    {pool after : Pool ι ε σ ω} (step : Step start pool after) : Step start' pool after := by
  cases step with
  | start idle begins => exact .start idle (allowed _ _ _ begins)
  | grant busy fits => exact .grant busy fits
  | refuse busy exceeds => exact .refuse busy exceeds
  | release busy => exact .release busy
  | log busy => exact .log busy
  | finish busy => exact .finish busy

/-- What a component may hold of the counter: its charge at rest, a balanced amount in flight. -/
def Holds (charge : σ → Nat) (ceiling : Nat) : Slot ε σ ω → Nat → Prop
  | .idle state, held => held = charge state
  | .busy program, held =>
    program.Balanced ceiling held fun result held' => held' = charge result.1

/-- The counter is the sum of what the components hold, and is within the ceiling. -/
def Accounted [Fintype ι] (charge : σ → Nat) (ceiling : Nat) (pool : Pool ι ε σ ω) : Prop :=
  ∃ held : ι → Nat, pool.counter = ∑ index, held index ∧ pool.counter ≤ ceiling ∧
    ∀ index, Holds charge ceiling (pool.slots index) (held index)

variable [Fintype ι] {charge : σ → Nat} {ceiling : Nat} {pool after : Pool ι ε σ ω}
  {start : ι → σ → Prog ε (σ × ω) → Prop}

private theorem sum_update (held : ι → Nat) (index : ι) (amount : Nat) :
    ∑ other, Function.update held index amount other + held index =
      ∑ other, held other + amount := by
  rw [Finset.sum_update_of_mem (Finset.mem_univ index)]
  have split := Finset.add_sum_erase Finset.univ held (Finset.mem_univ index)
  rw [Finset.sdiff_singleton_eq_erase]
  omega

variable {index : ι}

private theorem accounted_update {held : ι → Nat} (holds : ∀ other,
    Holds charge ceiling (pool.slots other) (held other)) {counter : Nat} (amount : Nat)
    {slot : Slot ε σ ω} (total : counter + held index = ∑ other, held other + amount)
    (bounded : counter ≤ ceiling) (slot_holds : Holds charge ceiling slot amount) :
    Accounted charge ceiling (pool.update index counter slot) := by
  refine ⟨Function.update held index amount, ?_, bounded, ?_⟩
  · have sum := sum_update held index amount
    simp only [update]
    omega
  · intro other
    by_cases same : other = index
    · subst other
      simpa [update] using slot_holds
    · simpa [update, same] using holds other

section

variable (balanced : ∀ index state program, start index state program → program.Balanced ceiling (charge state) fun result held => held = charge result.1)
include balanced

/-- Every atomic action keeps the accounts. -/
theorem Step.accounted (step : Step start pool after) (accounted : Accounted charge ceiling pool) :
    Accounted charge ceiling after := by
  obtain ⟨held, total, bounded, holds⟩ := accounted
  cases step with
  | @start index state program idle begins =>
    have slot := holds index
    rw [idle] at slot
    refine accounted_update holds (held index) (by omega) bounded ?_
    rw [show held index = charge state from slot]
    exact balanced index state program begins
  | @grant index ceiling' amount next busy fits =>
    have slot := holds index
    rw [busy] at slot
    obtain ⟨rfl, granted, -⟩ := slot
    exact accounted_update holds (held index + amount) (by omega) fits granted
  | @refuse index ceiling' amount next busy exceeds =>
    have slot := holds index
    rw [busy] at slot
    exact accounted_update holds (held index) (by omega) bounded slot.2.2
  | @release index amount next busy =>
    have slot := holds index
    rw [busy] at slot
    have le : held index ≤ ∑ other, held other :=
      Finset.single_le_sum (fun _ _ => Nat.zero_le _) (Finset.mem_univ index)
    have amount_le : amount ≤ held index := slot.1
    exact accounted_update holds (held index - amount) (by omega) (by omega) slot.2
  | @log index entry next busy =>
    have slot := holds index
    rw [busy] at slot
    exact accounted_update holds (held index) (by omega) bounded slot
  | @finish index state output busy =>
    have slot := holds index
    rw [busy] at slot
    exact accounted_update holds (held index) (by omega) bounded slot

/-- The accounts hold in every state a pool can reach. -/
theorem accounted (initial : Accounted charge ceiling pool)
    (reach : Relation.ReflTransGen (Step start) pool after) :
    Accounted charge ceiling after := by
  induction reach with
  | refl => exact initial
  | tail _ step induction => exact step.accounted balanced induction

end

omit [DecidableEq ι] in
/-- With every component at rest the counter is the sum of their charges. -/
theorem Accounted.counter_eq (accounted : Accounted charge ceiling pool) {states : ι → σ}
    (rest : ∀ index, pool.slots index = .idle (states index)) :
    pool.counter = ∑ index, charge (states index) := by
  obtain ⟨held, total, -, holds⟩ := accounted
  rw [total]
  refine Finset.sum_congr rfl fun index _ => ?_
  have slot := holds index
  rw [rest index] at slot
  exact slot

omit [DecidableEq ι] in
/-- No release finds less in the counter than it hands back. -/
theorem Accounted.release_le (accounted : Accounted charge ceiling pool) {amount : Nat}
    {next : Prog ε (σ × ω)} (busy : pool.slots index = .busy (.release amount next)) :
    amount ≤ pool.counter := by
  obtain ⟨held, total, -, holds⟩ := accounted
  have slot := holds index
  rw [busy] at slot
  calc
    amount ≤ held index := slot.1
    _ ≤ ∑ other, held other :=
      Finset.single_le_sum (fun _ _ => Nat.zero_le _) (Finset.mem_univ index)
    _ = pool.counter := total.symm

/-- The weight of a component at rest; one in flight counts nothing. -/
def restWeight (weight : σ → Nat) : Slot ε σ ω → Nat
  | .idle state => weight state
  | .busy _ => 0

omit [DecidableEq ι] in
/-- What weighs no more than its charge adds up to no more than the ceiling. -/
theorem Accounted.sum_restWeight_le (accounted : Accounted charge ceiling pool) {weight : σ → Nat}
    (covered : ∀ index state, pool.slots index = .idle state → weight state ≤ charge state) :
    ∑ index, restWeight weight (pool.slots index) ≤ ceiling := by
  obtain ⟨held, total, bounded, holds⟩ := accounted
  have each : ∀ index, restWeight weight (pool.slots index) ≤ held index := by
    intro index
    have slot := holds index
    cases at_index : pool.slots index with
    | idle state =>
      rw [at_index] at slot
      rw [show held index = charge state from slot]
      exact covered index state at_index
    | busy program => exact Nat.zero_le _
  calc
    ∑ index, restWeight weight (pool.slots index) ≤ ∑ index, held index :=
      Finset.sum_le_sum fun index _ => each index
    _ = pool.counter := total.symm
    _ ≤ ceiling := bounded

/-- A component at rest is in a good state, one in flight will end in a good state. -/
def Within (good : σ → Prop) : Slot ε σ ω → Prop
  | .idle state => good state
  | .busy program => Prog.Sat program fun _ result => good result.1

variable {good : ι → σ → Prop}

omit [Fintype ι] in
private theorem within_update (within : ∀ other, Within (good other) (pool.slots other))
    {counter : Nat} {slot : Slot ε σ ω} (own : Within (good index) slot) (other : ι) :
    Within (good other) ((pool.update index counter slot).slots other) := by
  by_cases same : other = index
  · subst other
    simpa [update] using own
  · simpa [update, same] using within other

omit [Fintype ι] in
/-- Every atomic action keeps the components within what each operation keeps. -/
theorem Step.within (kept : ∀ index state program, start index state program → good index state →
      Prog.Sat program fun _ result => good index result.1) (step : Step start pool after)
    (within : ∀ index, Within (good index) (pool.slots index)) (other : ι) :
    Within (good other) (after.slots other) := by
  cases step with
  | @start index state program idle begins =>
    have slot := within index
    rw [idle] at slot
    refine within_update within ?_ other
    exact kept index state program begins slot
  | @grant index ceiling amount next busy fits =>
    have slot := within index
    rw [busy] at slot
    refine within_update within ?_ other
    exact Prog.sat_reserve.mp slot true
  | @refuse index ceiling amount next busy exceeds =>
    have slot := within index
    rw [busy] at slot
    refine within_update within ?_ other
    exact Prog.sat_reserve.mp slot false
  | @release index amount next busy =>
    have slot := within index
    rw [busy] at slot
    refine within_update within ?_ other
    exact Prog.sat_release.mp slot
  | @log index entry next busy =>
    have slot := within index
    rw [busy] at slot
    refine within_update within ?_ other
    exact Prog.sat_log.mp slot
  | @finish index state output busy =>
    have slot := within index
    rw [busy] at slot
    refine within_update within ?_ other
    exact Prog.sat_done.mp slot

omit [Fintype ι] in
/-- What every operation of a component keeps holds in every state a pool can reach. -/
theorem within_each (kept : ∀ index state program, start index state program → good index state →
      Prog.Sat program fun _ result => good index result.1)
    (initial : ∀ index, Within (good index) (pool.slots index))
    (reach : Relation.ReflTransGen (Step start) pool after) (index : ι) :
    Within (good index) (after.slots index) := by
  induction reach generalizing index with
  | refl => exact initial index
  | tail _ step induction => exact step.within kept induction index

omit [Fintype ι] in
theorem within {good : σ → Prop} (kept : ∀ index state program, start index state program →
      good state → Prog.Sat program fun _ result => good result.1)
    (initial : ∀ index, Within good (pool.slots index))
    (reach : Relation.ReflTransGen (Step start) pool after) (index : ι) :
    Within good (after.slots index) :=
  within_each kept initial reach index

omit [Fintype ι] in
theorem update_update (pool : Pool ι ε σ ω) (index : ι) (counter counter' : Nat)
    (slot slot' : Slot ε σ ω) :
    (pool.update index counter slot).update index counter' slot' =
      pool.update index counter' slot' := by
  simp [update]

omit [Fintype ι] in
theorem slots_update_self (pool : Pool ι ε σ ω) (index : ι) (counter : Nat) (slot : Slot ε σ ω) :
    (pool.update index counter slot).slots index = slot := by
  simp [update]

omit [Fintype ι] in
/-- A component that nobody interrupts runs its operation to the end. -/
theorem reach_run (pool : Pool ι ε σ ω) (index : ι) (counter : Nat)
    (program : Prog ε (σ × ω)) :
    Relation.ReflTransGen (Step start) (pool.update index counter (.busy program))
      (pool.update index (program.run counter).2.1 (.idle (program.run counter).1.1)) := by
  induction program generalizing counter with
  | done result =>
    have step : Step start _ _ := .finish
      (pool.slots_update_self index counter (.busy (.done result)))
    rw [update_update] at step
    exact .single step
  | reserve ceiling amount next induction =>
    have busy := pool.slots_update_self index counter (.busy (.reserve ceiling amount next))
    rw [Prog.run]
    split
    · rename_i fits
      have step : Step start _ _ := .grant busy fits
      rw [update_update] at step
      exact .head step (induction true (counter + amount))
    · rename_i exceeds
      have step : Step start _ _ := .refuse busy (Nat.lt_of_not_le exceeds)
      rw [update_update] at step
      exact .head step (induction false counter)
  | release amount next induction =>
    have step : Step start _ _ := .release
      (pool.slots_update_self index counter (.busy (.release amount next)))
    rw [update_update] at step
    exact .head step (induction (counter - amount))
  | log entry next induction =>
    have step : Step start _ _ := .log
      (pool.slots_update_self index counter (.busy (.log entry next)))
    rw [update_update] at step
    exact .head step (induction counter)

end Pool

end Library
