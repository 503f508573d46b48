import Mathlib.Algebra.Ring.Nat
import Mathlib.Logic.Basic

/-!
# Checked indexing and arithmetic

Programs over lists and 64-bit numbers in which an index or slice out of range, an addition or
subtraction that leaves the range, and a loop that does not end stop the program with a fault.
`Returns` is the weakest precondition; its rules rewrite a program to the bounds it needs.
-/

namespace Library

inductive Fault
  | range | overflow | endless
  deriving DecidableEq

abbrev Checked (α : Type) := Except Fault α

namespace Checked

variable {α β : Type}

def index (xs : List α) (i : Nat) : Checked α :=
  match xs[i]? with
  | some x => .ok x
  | none => .error .range

/-- The elements from `start` up to `stop`. -/
def slice (xs : List α) (start stop : Nat) : Checked (List α) :=
  if start ≤ stop ∧ stop ≤ xs.length then .ok ((xs.drop start).take (stop - start))
  else .error .range

def sliceFrom (xs : List α) (start : Nat) : Checked (List α) :=
  if start ≤ xs.length then .ok (xs.drop start) else .error .range

def add (a b : Nat) : Checked Nat := if a + b < 2 ^ 64 then .ok (a + b) else .error .overflow

def sub (a b : Nat) : Checked Nat := if b ≤ a then .ok (a - b) else .error .overflow

/-- `saturating_add`. -/
def satAdd (a b : Nat) : Nat := min (a + b) (2 ^ 64 - 1)

/-- Goes on with the value of an option, or ends with a default. -/
def attempt (program : Checked (Option α)) (absent : β) (rest : α → Checked β) : Checked β := do
  match ← program with
  | some value => rest value
  | none => .ok absent

/-- The program ends without a fault, with a value that meets the condition. -/
def Returns (program : Checked α) (post : α → Prop) : Prop :=
  ∃ value, program = .ok value ∧ post value

@[simp]
theorem returns_ok {value : α} {post : α → Prop} : Returns (.ok value) post ↔ post value := by
  simp [Returns]

@[simp]
theorem returns_bind {program : Checked α} {rest : α → Checked β} {post : β → Prop} :
    Returns (program >>= rest) post ↔ Returns program fun value => Returns (rest value) post := by
  cases program with
  | ok value => exact (@returns_ok _ value fun value => Returns (rest value) post).symm
  | error fault => simp [Returns, bind, Except.bind]

theorem returns_guard {condition : Prop} [Decidable condition] {value : α} {fault : Fault}
    {post : α → Prop} : Returns (if condition then .ok value else .error fault) post ↔
      condition ∧ post value := by
  split
  case isTrue holds => simp [holds]
  case isFalse fails => simp [Returns, fails]

@[simp]
theorem returns_index {xs : List α} {i : Nat} {post : α → Prop} :
    Returns (index xs i) post ↔ ∃ x, xs[i]? = some x ∧ post x := by
  unfold index
  split <;> simp_all [Returns]

@[simp]
theorem returns_slice {xs : List α} {start stop : Nat} {post : List α → Prop} :
    Returns (slice xs start stop) post ↔
      (start ≤ stop ∧ stop ≤ xs.length) ∧ post ((xs.drop start).take (stop - start)) :=
  returns_guard

@[simp]
theorem returns_sliceFrom {xs : List α} {start : Nat} {post : List α → Prop} :
    Returns (sliceFrom xs start) post ↔ start ≤ xs.length ∧ post (xs.drop start) :=
  returns_guard

@[simp]
theorem returns_add {a b : Nat} {post : Nat → Prop} :
    Returns (add a b) post ↔ a + b < 2 ^ 64 ∧ post (a + b) :=
  returns_guard

@[simp]
theorem returns_sub {a b : Nat} {post : Nat → Prop} :
    Returns (sub a b) post ↔ b ≤ a ∧ post (a - b) :=
  returns_guard

theorem Returns.mono {program : Checked α} {post weaker : α → Prop} (returns : Returns program post)
    (implies : ∀ value, post value → weaker value) : Returns program weaker := by
  obtain ⟨value, same, holds⟩ := returns
  exact ⟨value, same, implies value holds⟩

theorem Returns.bind {program : Checked α} {rest : α → Checked β} {middle : α → Prop}
    {post : β → Prop} (first : Returns program middle)
    (second : ∀ value, middle value → Returns (rest value) post) : Returns (program >>= rest) post :=
  returns_bind.mpr (first.mono second)

/-- An index in range, whatever stands there. -/
theorem Returns.index_bind {xs : List α} {i : Nat} {rest : α → Checked β} {post : β → Prop}
    (inside : i < xs.length) (later : ∀ x, Returns (rest x) post) :
    Returns (index xs i >>= rest) post :=
  returns_bind.mpr (returns_index.mpr ⟨_, List.getElem?_eq_getElem inside, later _⟩)

theorem Returns.attempt {program : Checked (Option α)} {absent : β} {rest : α → Checked β}
    {middle : α → Prop} {post : β → Prop}
    (first : Returns program fun result => ∀ value ∈ result, middle value) (none : post absent)
    (second : ∀ value, middle value → Returns (rest value) post) :
    Returns (attempt program absent rest) post := by
  refine first.bind fun result holds => ?_
  cases result with
  | none => exact returns_ok.mpr none
  | some value => exact second value (holds value rfl)

theorem returns_ite {condition : Prop} [Decidable condition] {yes no : Checked α}
    {post : α → Prop} : Returns (if condition then yes else no) post ↔
      (condition → Returns yes post) ∧ (¬ condition → Returns no post) := by
  split <;> simp_all

end Checked
end Library
