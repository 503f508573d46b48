import Mathlib.Data.List.Basic
import Mathlib.Data.List.TakeWhile

/-!
# Regular expressions

Regular expressions with captures, as a backtracking matcher reads them: alternatives in order,
repetitions greedy or lazy, and the first success counts.  The symbols of a text are only looked at
through a reading, so a text may carry more than its characters.
-/

namespace Library

variable {α σ τ : Type}

/-- An expression over an alphabet. -/
inductive Regex (α : Type) where
  | empty
  | one (test : α → Bool)
  /-- A test of the letters on both sides of a place; `none` is the end of the text. -/
  | look (test : Option α → Option α → Bool)
  | seq (first second : Regex α)
  | alt (first second : Regex α)
  /-- At least `least` and, if there is a bound, at most that many times. -/
  | rep (greedy : Bool) (least : Nat) (most : Option Nat) (body : Regex α)
  | group (index : Nat) (body : Regex α)

/-- A match at a place of a text, and the text behind it. -/
structure Found (σ : Type) where
  taken : List σ
  groups : List (Nat × List σ)
  rest : List σ

namespace Found

/-- Nothing is matched. -/
def nothing (text : List σ) : Found σ := ⟨[], [], text⟩

/-- One match behind another. -/
def andThen (first second : Found σ) : Found σ :=
  ⟨first.taken ++ second.taken, first.groups ++ second.groups, second.rest⟩

/-- The text of a group. -/
def group (found : Found σ) (index : Nat) : List σ := (found.groups.lookup index).getD []

end Found

namespace Regex

/-- The letter before a place that is reached by taking symbols. -/
def before (read : σ → α) (prev : Option α) (taken : List σ) : Option α :=
  (taken.getLast?.map read).or prev

/-- Repetitions of a matcher.  A repetition beyond the least number has to take something. -/
def repeats (read : σ → α) (body : Option α → List σ → List (Found σ)) (greedy : Bool) :
    Nat → Nat → Option Nat → Option α → List σ → List (Found σ)
  | 0, _, _, _, _ => []
  | fuel + 1, least, most, prev, text =>
    let further := (body prev text).flatMap fun found =>
      if least = 0 && found.taken.isEmpty then []
      else
        (repeats read body greedy fuel (least - 1) (most.map (· - 1))
          (before read prev found.taken) found.rest).map found.andThen
    let further := if most = some 0 then [] else further
    if 0 < least then further
    else if greedy then further ++ [.nothing text]
    else .nothing text :: further

/-- All matches at a place, in the order in which they are tried. -/
def run (read : σ → α) : Regex α → Option α → List σ → List (Found σ)
  | .empty, _, text => [.nothing text]
  | .one _, _, [] => []
  | .one test, _, s :: rest => if test (read s) then [⟨[s], [], rest⟩] else []
  | .look test, prev, text =>
    if test prev (text.head?.map read) then [.nothing text] else []
  | .seq first second, prev, text =>
    (run read first prev text).flatMap fun found =>
      (run read second (before read prev found.taken) found.rest).map found.andThen
  | .alt first second, prev, text => run read first prev text ++ run read second prev text
  | .rep greedy least most body, prev, text =>
    repeats read (run read body) greedy (least + text.length + 1) least most prev text
  | .group index body, prev, text =>
    (run read body prev text).map fun found =>
      { found with groups := (index, found.taken) :: found.groups }

/-- The match at a place, if it takes something. -/
def first (read : σ → α) (r : Regex α) (prev : Option α) (text : List σ) : Option (Found σ) :=
  (run read r prev text).head?.filter fun found => !found.taken.isEmpty

/-- Replace the matches from a place on, one behind the other.  The replacement is told where a
match begins. -/
def replaceFuel (read : σ → α) (r : Regex α) (replace : Nat → Found σ → List σ) :
    Nat → Nat → Option α → List σ → List σ
  | 0, _, _, text => text
  | _ + 1, _, _, [] => []
  | fuel + 1, at_, prev, s :: rest =>
    match first read r prev (s :: rest) with
    | some found =>
      replace at_ found ++ replaceFuel read r replace fuel (at_ + found.taken.length)
        (before read prev found.taken) found.rest
    | none => s :: replaceFuel read r replace fuel (at_ + 1) (some (read s)) rest

def replaceFrom (read : σ → α) (r : Regex α) (replace : Nat → Found σ → List σ) (at_ : Nat)
    (prev : Option α) (text : List σ) : List σ :=
  replaceFuel read r replace text.length at_ prev text

/-- Replace all matches of a text. -/
def replaceAll (read : σ → α) (r : Regex α) (replace : Nat → Found σ → List σ) (text : List σ) :
    List σ :=
  replaceFrom read r replace 0 none text

/-! ## Matches as a relation -/

/-- What a match is, without the order of trying. -/
inductive Matches (read : σ → α) : Regex α → Option α → List σ → Found σ → Prop
  | empty {prev : Option α} {text : List σ} : Matches read .empty prev text (.nothing text)
  | one {test : α → Bool} {prev : Option α} {s : σ} {rest : List σ} (passes : test (read s) = true) :
      Matches read (.one test) prev (s :: rest) ⟨[s], [], rest⟩
  | look {test : Option α → Option α → Bool} {prev : Option α} {text : List σ}
      (passes : test prev (text.head?.map read) = true) :
      Matches read (.look test) prev text (.nothing text)
  | seq {a b : Regex α} {prev : Option α} {text : List σ} {found next : Found σ}
      (first : Matches read a prev text found)
      (second : Matches read b (before read prev found.taken) found.rest next) :
      Matches read (.seq a b) prev text (found.andThen next)
  | altLeft {a b : Regex α} {prev : Option α} {text : List σ} {found : Found σ}
      (left : Matches read a prev text found) : Matches read (.alt a b) prev text found
  | altRight {a b : Regex α} {prev : Option α} {text : List σ} {found : Found σ}
      (right : Matches read b prev text found) : Matches read (.alt a b) prev text found
  | repDone {greedy : Bool} {most : Option Nat} {body : Regex α} {prev : Option α}
      {text : List σ} : Matches read (.rep greedy 0 most body) prev text (.nothing text)
  | repMore {greedy : Bool} {least : Nat} {most : Option Nat} {body : Regex α} {prev : Option α}
      {text : List σ} {found next : Found σ} (room : most ≠ some 0)
      (here : Matches read body prev text found)
      (further : Matches read (.rep greedy (least - 1) (most.map (· - 1)) body)
        (before read prev found.taken) found.rest next) :
      Matches read (.rep greedy least most body) prev text (found.andThen next)
  | group {index : Nat} {body : Regex α} {prev : Option α} {text : List σ} {found : Found σ}
      (inside : Matches read body prev text found) :
      Matches read (.group index body) prev text
        { found with groups := (index, found.taken) :: found.groups }

variable {read : σ → α}

variable {prev : Option α} {found : Found σ} {r : Regex α} {least most : Nat} {test : α → Bool}

variable {text : List σ}

theorem matches_of_mem_repeats {body : Regex α} {greedy : Bool}
    (sound : ∀ prev text, ∀ found ∈ run read body prev text, Matches read body prev text found)
    {fuel : Nat} {most : Option Nat}
    (member : found ∈ repeats read (run read body) greedy fuel least most prev text) :
    Matches read (.rep greedy least most body) prev text found := by
  induction fuel generalizing least most prev text found with
  | zero => cases member
  | succ fuel induction =>
    have further : ∀ next : Found σ, next ∈ (if most = some 0 then [] else
        (run read body prev text).flatMap fun found =>
          if least = 0 && found.taken.isEmpty then []
          else
            (repeats read (run read body) greedy fuel (least - 1) (most.map (· - 1))
              (before read prev found.taken) found.rest).map found.andThen) →
        Matches read (.rep greedy least most body) prev text next := by
      intro next member
      split_ifs at member with full
      · cases member
      · obtain ⟨here, listed, member⟩ := List.mem_flatMap.mp member
        split_ifs at member
        · cases member
        · obtain ⟨last, listed', rfl⟩ := List.mem_map.mp member
          exact .repMore full (sound _ _ _ listed) (induction listed')
    unfold repeats at member
    dsimp only at member
    by_cases required : 0 < least
    · rw [if_pos required] at member
      exact further found member
    · rw [if_neg required] at member
      cases Nat.eq_zero_of_not_pos required
      cases greedy with
      | true =>
        rcases List.mem_append.mp member with member | member
        · exact further found member
        · rw [List.mem_singleton.mp member]
          exact .repDone
      | false =>
        rcases List.mem_cons.mp member with rfl | member
        · exact .repDone
        · exact further found member

theorem matches_of_mem_run (r : Regex α) (prev : Option α) (text : List σ) :
    ∀ found ∈ run read r prev text, Matches read r prev text found := by
  induction r generalizing prev text with
  | empty =>
    intro found member
    rw [List.mem_singleton.mp member]
    exact .empty
  | one test =>
    intro found member
    cases text with
    | nil => cases member
    | cons s rest =>
      rw [run] at member
      split_ifs at member with passes
      · rw [List.mem_singleton.mp member]
        exact .one passes
      · cases member
  | look test =>
    intro found member
    rw [run] at member
    split_ifs at member with passes
    · rw [List.mem_singleton.mp member]
      exact .look passes
    · cases member
  | seq a b first second =>
    intro found member
    obtain ⟨here, listed, member⟩ := List.mem_flatMap.mp member
    obtain ⟨next, listed', rfl⟩ := List.mem_map.mp member
    exact .seq (first _ _ _ listed) (second _ _ _ listed')
  | alt a b left right =>
    intro found member
    rcases List.mem_append.mp member with member | member
    · exact .altLeft (left _ _ _ member)
    · exact .altRight (right _ _ _ member)
  | rep greedy least most body sound =>
    intro found member
    exact matches_of_mem_repeats sound member
  | group index body sound =>
    intro found member
    obtain ⟨inside, listed, rfl⟩ := List.mem_map.mp member
    exact .group (sound _ _ _ listed)

theorem first_eq_some (here : first read r prev text = some found) :
    Matches read r prev text found ∧ found.taken ≠ [] := by
  obtain ⟨head, taken⟩ := Option.filter_eq_some_iff.mp here
  exact ⟨matches_of_mem_run r prev text found (List.mem_of_mem_head? head), by simpa using taken⟩

section

variable (matched : Matches read r prev text found)
include matched

/-- A match is what stands at its place. -/
theorem Matches.taken_append_rest :
    found.taken ++ found.rest = text := by
  induction matched with
  | empty | look _ | repDone => rfl
  | one _ => rfl
  | seq _ _ first second | repMore _ _ _ first second =>
    rw [Found.andThen, List.append_assoc, second, first]
  | altLeft _ same | altRight _ same => exact same
  | group _ same => exact same

theorem Matches.length_rest_lt (something : found.taken ≠ []) :
    found.rest.length < text.length := by
  have length := congrArg List.length matched.taken_append_rest
  have positive := List.length_pos_of_ne_nil something
  rw [List.length_append] at length
  omega

theorem Matches.groups_subset :
    ∀ entry ∈ found.groups, entry.2 ⊆ found.taken := by
  induction matched with
  | empty | look _ | repDone | one _ => nofun
  | seq _ _ first second | repMore _ _ _ first second =>
    refine List.forall_mem_append.mpr ⟨fun entry member => ?_, fun entry member => ?_⟩
    · exact fun s inside => List.mem_append_left _ (first entry member inside)
    · exact fun s inside => List.mem_append_right _ (second entry member inside)
  | altLeft _ inside | altRight _ inside => exact inside
  | group _ inside => exact List.forall_mem_cons.mpr ⟨List.Subset.refl _, inside⟩

theorem Matches.group_subset (index : Nat) :
    found.group index ⊆ found.taken := by
  unfold Found.group
  cases here : found.groups.lookup index with
  | none => exact List.nil_subset _
  | some inside =>
    obtain ⟨before, behind, split, -⟩ := List.lookup_eq_some_iff.mp here
    refine matched.groups_subset (index, inside) ?_
    rw [split]
    exact List.mem_append_right _ List.mem_cons_self

end

/-! ## Readings -/

/-! ## Letters of a match -/

/-- Every letter that the expression can take is one of these. -/
def Within (letters : α → Bool) : Regex α → Prop
  | .empty | .look _ => True
  | .one test => ∀ letter, test letter = true → letters letter = true
  | .seq a b | .alt a b => a.Within letters ∧ b.Within letters
  | .rep _ _ _ body | .group _ body => body.Within letters

theorem Matches.letters {letters : α → Bool} (matched : Matches read r prev text found)
    (within : r.Within letters) :
    ∀ s ∈ found.taken, letters (read s) = true := by
  induction matched with
  | empty | look _ | repDone => nofun
  | one passes =>
    intro s member
    rw [List.mem_singleton.mp member]
    exact within _ passes
  | seq _ _ first second =>
    exact List.forall_mem_append.mpr ⟨first within.1, second within.2⟩
  | repMore _ _ _ first second =>
    exact List.forall_mem_append.mpr ⟨first within, second within⟩
  | altLeft _ inside => exact inside within.1
  | altRight _ inside => exact inside within.2
  | group _ inside => exact inside within

/-- Every match takes one of these letters. -/
def Needs (letters : α → Bool) : Regex α → Prop
  | .empty | .look _ => False
  | .one test => ∀ letter, test letter = true → letters letter = true
  | .seq a b => a.Needs letters ∨ b.Needs letters
  | .alt a b => a.Needs letters ∧ b.Needs letters
  | .rep _ least _ body => 0 < least ∧ body.Needs letters
  | .group _ body => body.Needs letters

theorem Matches.exists_letter {letters : α → Bool} (matched : Matches read r prev text found)
    (needs : r.Needs letters) :
    ∃ s ∈ found.taken, letters (read s) = true := by
  induction matched with
  | empty | look _ => exact needs.elim
  | repDone => exact absurd needs.1 (lt_irrefl 0)
  | @one _ _ s _ passes => exact ⟨s, List.mem_singleton_self s, needs _ passes⟩
  | seq _ _ first second =>
    rcases needs with needs | needs
    · obtain ⟨s, member, letter⟩ := first needs
      exact ⟨s, List.mem_append_left _ member, letter⟩
    · obtain ⟨s, member, letter⟩ := second needs
      exact ⟨s, List.mem_append_right _ member, letter⟩
  | repMore _ _ _ first _ =>
    obtain ⟨s, member, letter⟩ := first needs.2
    exact ⟨s, List.mem_append_left _ member, letter⟩
  | altLeft _ inside => exact inside needs.1
  | altRight _ inside => exact inside needs.2
  | group _ inside => exact inside needs

/-! ## Replacing -/

section Replace

variable {r : Regex α} {replace : Nat → Found σ → List σ} {at_ : Nat} {prev : Option α}

variable {text : List σ}

theorem replaceFuel_eq {fuel : Nat} (enough : text.length ≤ fuel) :
    replaceFuel read r replace fuel at_ prev text = replaceFrom read r replace at_ prev text := by
  induction fuel using Nat.strong_induction_on generalizing at_ prev text with
  | _ fuel induction =>
    cases text with
    | nil => cases fuel <;> rfl
    | cons s rest =>
      obtain ⟨fuel, rfl⟩ : ∃ less, fuel = less + 1 :=
        Nat.exists_eq_succ_of_ne_zero (Nat.ne_zero_of_lt enough)
      have shorter : rest.length ≤ fuel := Nat.le_of_succ_le_succ enough
      unfold replaceFrom
      rw [List.length_cons, replaceFuel, replaceFuel]
      cases here : first read r prev (s :: rest) with
      | none =>
        dsimp only
        rw [induction fuel (Nat.lt_succ_self _) shorter]
        rfl
      | some found =>
        obtain ⟨matched, something⟩ := first_eq_some here
        have less : found.rest.length < (s :: rest).length :=
          matched.length_rest_lt something
        rw [List.length_cons] at less
        dsimp only
        rw [induction fuel (Nat.lt_succ_self _) (by omega)]
        by_cases same : rest.length = fuel
        · rw [same, induction fuel (Nat.lt_succ_self _) (by omega)]
        · rw [induction rest.length (by omega) (by omega)]

@[simp]
theorem replaceFrom_nil : replaceFrom read r replace at_ prev [] = [] := rfl

theorem replaceFrom_cons_none {s : σ} {rest : List σ}
    (here : first read r prev (s :: rest) = none) :
    replaceFrom read r replace at_ prev (s :: rest) =
      s :: replaceFrom read r replace (at_ + 1) (some (read s)) rest := by
  rw [replaceFrom, List.length_cons, replaceFuel, here]
  rfl

theorem replaceFrom_some {found : Found σ} (here : first read r prev text = some found) :
    replaceFrom read r replace at_ prev text =
      replace at_ found ++ replaceFrom read r replace (at_ + found.taken.length)
        (before read prev found.taken) found.rest := by
  obtain ⟨matched, something⟩ := first_eq_some here
  have less := matched.length_rest_lt something
  cases text with
  | nil => exact absurd less (Nat.not_lt_zero _)
  | cons s rest =>
    rw [List.length_cons] at less
    rw [replaceFrom, List.length_cons, replaceFuel, here]
    dsimp only
    rw [replaceFuel_eq (by omega)]

/-- Induction along the matches of a text. -/
theorem replaceFrom_induction (read : σ → α) (r : Regex α)
    {motive : Nat → Option α → List σ → Prop}
    (nil : ∀ at_ prev, motive at_ prev [])
    (skip : ∀ at_ prev s rest, first read r prev (s :: rest) = none →
      motive (at_ + 1) (some (read s)) rest → motive at_ prev (s :: rest))
    (found : ∀ at_ prev text found, first read r prev text = some found →
      motive (at_ + found.taken.length) (before read prev found.taken) found.rest →
      motive at_ prev text)
    (at_ : Nat) (prev : Option α) (text : List σ) : motive at_ prev text := by
  induction length : text.length using Nat.strong_induction_on generalizing at_ prev text with
  | _ bound induction =>
    cases text with
    | nil => exact nil at_ prev
    | cons s rest =>
      subst length
      cases here : first read r prev (s :: rest) with
      | none => exact skip at_ prev s rest here (induction _ (Nat.lt_succ_self _) _ _ _ rfl)
      | some taken =>
        obtain ⟨matched, something⟩ := first_eq_some here
        exact found at_ prev _ taken here
          (induction _ (matched.length_rest_lt something) _ _ _ rfl)

/-- Without a letter that every match takes there is nothing to replace. -/
theorem replaceFrom_of_needs {letters : α → Bool} (needs : r.Needs letters)
    (absent : ∀ s ∈ text, letters (read s) = false) :
    replaceFrom read r replace at_ prev text = text := by
  induction at_, prev, text using replaceFrom_induction read r with
  | nil at_ prev => rfl
  | skip at_ prev first rest here induction =>
    rw [replaceFrom_cons_none here, induction (List.forall_mem_cons.mp absent).2]
  | found at_ prev text found here induction =>
    obtain ⟨matched, -⟩ := first_eq_some here
    obtain ⟨s, member, letter⟩ := matched.exists_letter needs
    have listed : s ∈ text := by
      rw [← matched.taken_append_rest]
      exact List.mem_append_left _ member
    rw [absent s listed] at letter
    cases letter

/-- Replacements that agree on the matches give the same result. -/
theorem replaceFrom_congr {other : Nat → Found σ → List σ}
    (agree : ∀ skipped found part prev, text = skipped ++ part → Matches read r prev part found →
      replace (at_ + skipped.length) found = other (at_ + skipped.length) found) :
    replaceFrom read r replace at_ prev text = replaceFrom read r other at_ prev text := by
  induction at_, prev, text using replaceFrom_induction read r with
  | nil at_ prev => rfl
  | skip at_ prev s rest here induction =>
    rw [replaceFrom_cons_none here, replaceFrom_cons_none here, induction]
    intro skipped found part prev split matched
    have same := agree (s :: skipped) found part prev (by rw [split, List.cons_append]) matched
    rwa [List.length_cons, Nat.add_comm skipped.length, ← Nat.add_assoc] at same
  | found at_ prev text found here induction =>
    obtain ⟨matched, -⟩ := first_eq_some here
    have split := matched.taken_append_rest
    have same := agree [] found text prev rfl matched
    rw [List.length_nil, Nat.add_zero] at same
    rw [replaceFrom_some here, replaceFrom_some here, same, induction]
    intro skipped next part prev split' matched'
    have same := agree (found.taken ++ skipped) next part prev
      (by rw [← split, split', List.append_assoc]) matched'
    rwa [List.length_append, ← Nat.add_assoc] at same

/-- Replacing every match by itself changes nothing. -/
theorem replaceFrom_eq_self
    (same : ∀ skipped found part prev, text = skipped ++ part → Matches read r prev part found →
      replace (at_ + skipped.length) found = found.taken) :
    replaceFrom read r replace at_ prev text = text := by
  have copied : replaceFrom read r replace at_ prev text =
      replaceFrom read r (fun _ found => found.taken) at_ prev text := replaceFrom_congr same
  rw [copied]
  clear same copied
  induction at_, prev, text using replaceFrom_induction read r with
  | nil at_ prev => rfl
  | skip at_ prev s rest here induction => rw [replaceFrom_cons_none here, induction]
  | found at_ prev text found here induction =>
    rw [replaceFrom_some here, induction, (first_eq_some here).1.taken_append_rest]

end Replace

/-! ## Words -/

/-- Every letter that the expression can take is one of these, and it looks around only for the
boundaries of words. -/
def WordsWithin (letters word : α → Bool) : Regex α → Prop
  | .empty => True
  | .one test => ∀ letter, test letter = true → letters letter = true
  | .look test => ∀ prev next, test prev next = (prev.any word != next.any word)
  | .seq a b | .alt a b => a.WordsWithin letters word ∧ b.WordsWithin letters word
  | .rep _ _ _ body | .group _ body => body.WordsWithin letters word

namespace WordsWithin

variable {letters word : α → Bool} {r : Regex α} {letter : α}

theorem within (words : r.WordsWithin letters word) : r.Within letters := by
  induction r with
  | empty | look _ => trivial
  | one _ => exact words
  | seq _ _ first second | alt _ _ first second => exact ⟨first words.1, second words.2⟩
  | rep _ _ _ _ inside | group _ _ inside => exact inside words

end WordsWithin

theorem taken_append_rest_of_mem_run (r : Regex α) (prev : Option α) (text : List σ) :
    ∀ found ∈ run read r prev text, found.taken ++ found.rest = text := fun found member =>
  (matches_of_mem_run r prev text found member).taken_append_rest

/-! ## Runs of one class -/

/-- A match of the first symbols. -/
def splitAt (text : List σ) (count : Nat) : Found σ := ⟨text.take count, [], text.drop count⟩

/-- The number of symbols that a class can take, up to a bound. -/
def span (read : σ → α) (test : α → Bool) (most : Option Nat) (text : List σ) : Nat :=
  most.elim (text.takeWhile (test ∘ read)).length (min (text.takeWhile (test ∘ read)).length)

theorem span_nil (test : α → Bool) (most : Option Nat) : span read test most [] = 0 := by
  cases most <;> simp [span]

theorem span_cons (test : α → Bool) (most : Option Nat) (s : σ) (rest : List σ) :
    span read test most (s :: rest) =
      if test (read s) = true ∧ most ≠ some 0 then span read test (most.map (· - 1)) rest + 1
      else 0 := by
  have next : ((s :: rest).takeWhile (test ∘ read)).length =
      if test (read s) = true then (rest.takeWhile (test ∘ read)).length + 1 else 0 := by
    rw [List.takeWhile_cons, Function.comp_apply]
    split_ifs <;> rfl
  unfold span
  cases most with
  | none =>
    rw [Option.elim_none, next]
    simp
  | some bound =>
    rw [Option.elim_some, next, Option.map_some, Option.elim_some]
    by_cases passes : test (read s) = true
    · cases bound with
      | zero => simp
      | succ bound => simp [passes]
    · simp [passes]

/-- The numbers of symbols that a repeated class takes, in the order of trying. -/
def counts (least most : Nat) : List Nat := (List.range (most + 1)).reverse.filter (least ≤ ·)

theorem mem_counts {count : Nat} :
    count ∈ counts least most ↔ least ≤ count ∧ count ≤ most := by
  simp only [counts, List.mem_filter, List.mem_reverse, List.mem_range, decide_eq_true_eq]
  omega

theorem counts_succ (least most : Nat) :
    counts least (most + 1) =
      (counts (least - 1) most).map (· + 1) ++ if least = 0 then [0] else [] := by
  unfold counts
  rw [List.range_succ_eq_map, List.reverse_cons, List.filter_append, ← List.map_reverse,
    List.filter_map]
  congr 1
  · refine congrArg (List.map _) (List.filter_congr fun count _ => ?_)
    simp only [Function.comp_apply, decide_eq_decide]
    omega
  · cases least <;> rfl

theorem head?_counts (enough : least ≤ most) :
    (counts least most).head? = some most := by
  unfold counts
  rw [List.range_succ, List.reverse_append, List.reverse_singleton, List.singleton_append,
    List.filter_cons_of_pos (by simpa using enough)]
  rfl

theorem repeats_one {fuel : Nat} {most : Option Nat} (enough : least + text.length < fuel) :
    repeats read (run read (.one test)) true fuel least most prev text =
      (counts least (span read test most text)).map (splitAt text) := by
  induction fuel generalizing least most prev text with
  | zero => omega
  | succ fuel induction =>
    -- if nothing can be taken, only the empty match is left
    have stuck : (if 0 < least then [] else [Found.nothing text]) =
        (counts least 0).map (splitAt text) := by
      cases least <;> rfl
    unfold repeats
    dsimp only
    rw [if_pos rfl]
    cases text with
    | nil =>
      rw [span_nil, ← stuck]
      simp [run]
    | cons s rest =>
      rw [span_cons]
      by_cases more : test (read s) = true ∧ most ≠ some 0
      · rw [if_pos more, if_neg more.2, run, if_pos more.1, counts_succ, List.map_append,
          List.map_map]
        have shorter : least - 1 + rest.length < fuel := by
          rw [List.length_cons] at enough
          omega
        simp only [List.flatMap_cons, List.flatMap_nil, List.append_nil, List.isEmpty_cons,
          Bool.and_false, Bool.false_eq_true, if_false, induction shorter, List.map_map]
        by_cases required : 0 < least
        · rw [if_pos required, if_neg (by omega), List.map_nil, List.append_nil]
          rfl
        · rw [if_neg required, if_pos (by omega)]
          rfl
      · rw [if_neg more, ← stuck]
        by_cases full : most = some 0
        · simp [full]
        · have fails : ¬ test (read s) = true := fun passes => more ⟨passes, full⟩
          simp [run, fails]

/-- The matches of a repeated class, the longest first. -/
theorem run_rep_one (test : α → Bool) (least : Nat) (most : Option Nat) (prev : Option α)
    (text : List σ) :
    run read (.rep true least most (.one test)) prev text =
      (counts least (span read test most text)).map (splitAt text) :=
  repeats_one (Nat.lt_succ_self _)

theorem mem_run_one :
    found ∈ run read (.one test) prev text ↔
      ∃ s rest, text = s :: rest ∧ test (read s) = true ∧ found = ⟨[s], [], rest⟩ := by
  cases text with
  | nil => simp [run]
  | cons s rest =>
    rw [run]
    split_ifs with passes <;> simp [passes]

theorem mem_run_group {index : Nat} {body : Regex α} :
    found ∈ run read (.group index body) prev text ↔ ∃ inside ∈ run read body prev text,
      { inside with groups := (index, inside.taken) :: inside.groups } = found := by
  simp only [run, List.mem_map]

theorem Matches.length_class {greedy : Bool}
    (matched : Matches read (.rep greedy least (some most) (.one test)) prev text found) :
    least ≤ found.taken.length ∧ found.taken.length ≤ most := by
  generalize same : rep greedy least (some most) (.one test) = r at matched
  induction matched generalizing least most with
  | repDone =>
    cases same
    exact ⟨Nat.le_refl 0, Nat.zero_le _⟩
  | repMore room here further _ later =>
    cases same
    cases here with
    | one passes =>
      obtain ⟨enough, bounded⟩ : _ ∧ _ ≤ most - 1 := later rfl
      have positive : most ≠ 0 := fun none => room (congrArg some none)
      simp only [Found.andThen, List.length_append, List.length_singleton]
      omega
  | _ => cases same

end Regex

end Library
