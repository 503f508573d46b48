import ApiSensor.Library.Passes
import Mathlib.Data.List.Infix

/-!
# What is tried first

The match that is found is the first of all matches at a place.  In a sequence its last part is the
first match of the last expression, and a greedy repetition goes on as long as its body matches.
-/

namespace Library

variable {α σ : Type}

namespace Regex

variable {read : σ → α} {prev : Option α} {text : List σ} {found : Found σ}

variable {r a b : Regex α}

theorem head?_of_first (here : first read r prev text = some found) :
    (run read r prev text).head? = some found :=
  (Option.filter_eq_some_iff.mp here).1

theorem head?_run_seq (here : (run read (.seq a b) prev text).head? = some found) :
    ∃ left ∈ run read a prev text, ∃ right,
      (run read b (before read prev left.taken) left.rest).head? = some right ∧
        left.andThen right = found := by
  rw [run, List.head?_flatMap] at here
  obtain ⟨left, member, last⟩ := List.exists_of_findSome?_eq_some here
  rw [List.head?_map] at last
  obtain ⟨right, first, same⟩ := Option.map_eq_some_iff.mp last
  exact ⟨left, member, right, first, same⟩

/-- If the second part matches everywhere, the first part is its first match. -/
theorem head?_run_seq_of_total (total : ∀ prev (text : List σ), run read b prev text ≠ [])
    (here : (run read (.seq a b) prev text).head? = some found) :
    ∃ left right, (run read a prev text).head? = some left ∧
      (run read b (before read prev left.taken) left.rest).head? = some right ∧
        left.andThen right = found := by
  rw [run] at here
  cases all : run read a prev text with
  | nil => rw [all] at here; cases here
  | cons left others =>
    obtain ⟨right, rights, listed⟩ := List.exists_cons_of_ne_nil
      (total (before read prev left.taken) left.rest)
    rw [all, List.flatMap_cons, listed] at here
    exact ⟨left, right, rfl, by rw [listed]; rfl, Option.some.inj here⟩

theorem head?_run_alt (here : (run read (.alt a b) prev text).head? = some found) :
    (run read a prev text).head? = some found ∨ (run read b prev text).head? = some found := by
  rw [run, List.head?_append] at here
  exact (Option.or_eq_some_iff.mp here).imp_right And.right

theorem head?_run_group {index : Nat} {body : Regex α}
    (here : (run read (.group index body) prev text).head? = some found) :
    ∃ inside, (run read body prev text).head? = some inside ∧
      { inside with groups := (index, inside.taken) :: inside.groups } = found := by
  rw [run, List.head?_map] at here
  exact Option.map_eq_some_iff.mp here

theorem repeats_greedy {body : Option α → List σ → List (Found σ)} (fuel : Nat) (prev : Option α)
    (text : List σ) :
    repeats read body true (fuel + 1) 0 none prev text =
      ((body prev text).flatMap fun here =>
        if here.taken.isEmpty then []
        else (repeats read body true fuel 0 none (before read prev here.taken) here.rest).map
          here.andThen) ++ [.nothing text] := by
  simp [repeats]

/-- A greedy repetition ends where its body takes nothing more. -/
theorem head?_repeats_greedy {body : Regex α} {fuel : Nat} (enough : text.length < fuel)
    (here : (repeats read (run read body) true fuel 0 none prev text).head? = some found) :
    ∀ more ∈ run read body (before read prev found.taken) found.rest, more.taken = [] := by
  induction fuel generalizing prev text found with
  | zero => omega
  | succ fuel induction =>
    rw [repeats_greedy, List.head?_append, List.head?_flatMap] at here
    rcases Option.or_eq_some_iff.mp here with turn | ⟨none_, last⟩
    · obtain ⟨step, member, later⟩ := List.exists_of_findSome?_eq_some turn
      have split := taken_append_rest_of_mem_run body prev text step member
      split_ifs at later with empty
      · cases later
      · rw [List.head?_map] at later
        obtain ⟨rest, first, rfl⟩ := Option.map_eq_some_iff.mp later
        have positive : 0 < step.taken.length := by
          simpa [List.length_pos_iff] using empty
        have length := congrArg List.length split
        rw [List.length_append] at length
        rw [Found.andThen, before_append]
        exact induction (by omega) first
    · cases last
      intro more member
      have stopped := List.findSome?_eq_none_iff.mp none_ more member
      by_contra something
      have some_ : more.taken.isEmpty = false := by simpa using something
      rw [some_, if_neg Bool.false_ne_true, List.head?_map, Option.map_eq_none_iff] at stopped
      have split := taken_append_rest_of_mem_run body _ text more member
      have positive := List.length_pos_of_ne_nil something
      have length := congrArg List.length split
      rw [List.length_append] at length
      obtain ⟨fuel, rfl⟩ : ∃ less, fuel = less + 1 := Nat.exists_eq_succ_of_ne_zero (by omega)
      rw [repeats_greedy] at stopped
      simp at stopped

theorem head?_run_greedy {body : Regex α}
    (here : (run read (.rep true 0 none body) prev text).head? = some found) :
    ∀ more ∈ run read body (before read prev found.taken) found.rest, more.taken = [] :=
  head?_repeats_greedy (by omega) here

/-- A greedy class ends where its test fails. -/
theorem head?_run_greedy_one {test : α → Bool}
    (here : (run read (.rep true 0 none (.one test)) prev text).head? = some found) :
    ∀ s ∈ found.rest.head?, test (read s) = false := by
  intro s member
  obtain ⟨rest, behind⟩ := List.head?_eq_some_iff.mp member
  have stopped := head?_run_greedy here
  rw [behind, run] at stopped
  by_contra passes
  rw [if_pos (Bool.not_eq_false _ ▸ passes)] at stopped
  exact List.cons_ne_nil _ _ (stopped _ (List.mem_singleton_self _))

theorem Matches.taken_one {test : α → Bool} (matched : Matches read (.one test) prev text found) :
    ∃ s, found.taken = [s] ∧ test (read s) = true := by
  cases matched with
  | @one _ _ s _ passes => exact ⟨s, rfl, passes⟩

/-! ## Groups -/

/-- An expression without groups. -/
def groupless : Regex α → Bool
  | .empty | .one _ | .look _ => true
  | .seq a b | .alt a b => a.groupless && b.groupless
  | .rep _ _ _ body => body.groupless
  | .group _ _ => false

section

variable (matched : Matches read r prev text found)
include matched

theorem Matches.groups_eq_nil (none_ : r.groupless = true) : found.groups = [] := by
  induction matched with
  | empty | look _ | repDone | one _ => rfl
  | seq _ _ first second =>
    obtain ⟨left, right⟩ := Bool.and_eq_true_iff.mp none_
    rw [Found.andThen, first left, second right]
    rfl
  | repMore _ _ _ first second =>
    rw [Found.andThen, first none_, second none_]
    rfl
  | altLeft _ inside => exact inside (Bool.and_eq_true_iff.mp none_).1
  | altRight _ inside => exact inside (Bool.and_eq_true_iff.mp none_).2
  | group _ _ => exact absurd none_ Bool.false_ne_true

theorem Matches.groups_isInfix :
    ∀ entry ∈ found.groups, entry.2 <:+: found.taken := by
  induction matched with
  | empty | look _ | repDone | one _ => nofun
  | seq _ _ first second | repMore _ _ _ first second =>
    refine List.forall_mem_append.mpr ⟨fun entry member => ?_, fun entry member => ?_⟩
    · exact (first entry member).trans (List.prefix_append _ _).isInfix
    · exact (second entry member).trans (List.suffix_append _ _).isInfix
  | altLeft _ inside | altRight _ inside => exact inside
  | group _ inside => exact List.forall_mem_cons.mpr ⟨List.infix_rfl, inside⟩

theorem Matches.group_isInfix (index : Nat) :
    found.group index <:+: found.taken := by
  unfold Found.group
  cases here : found.groups.lookup index with
  | none => exact ⟨[], _, rfl⟩
  | some inside =>
    obtain ⟨before, behind, split, -⟩ := List.lookup_eq_some_iff.mp here
    refine matched.groups_isInfix (index, inside) ?_
    rw [split]
    exact List.mem_append_right _ List.mem_cons_self

end

end Regex

end Library
