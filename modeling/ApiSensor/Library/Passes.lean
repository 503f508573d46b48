import ApiSensor.Library.Regex
import Mathlib.Algebra.Order.BigOperators.Group.List
import Mathlib.Algebra.Order.Group.Nat
import Mathlib.Tactic.Abel

/-!
# Passes over a text

A pass replaces the matches of an expression.  It leaves a symbol alone unless every place where the
symbol stands is in a match whose replacement lacks it, and an additive measure of the text changes
by what the replacements change.  Both carry over to passes one behind the other.
-/

namespace Library

variable {α σ β : Type}

namespace Regex

/-! ## What a pass comes to -/

/-- Go over a text as a replacement does, with an output for a symbol that begins no match and for a
match. -/
def scanFuel (read : σ → α) (r : Regex α) (skip : σ → List β) (hit : Nat → Found σ → List β) :
    Nat → Nat → Option α → List σ → List β
  | 0, _, _, _ => []
  | _ + 1, _, _, [] => []
  | fuel + 1, at_, prev, s :: rest =>
    match first read r prev (s :: rest) with
    | some found =>
      hit at_ found ++ scanFuel read r skip hit fuel (at_ + found.taken.length)
        (before read prev found.taken) found.rest
    | none => skip s ++ scanFuel read r skip hit fuel (at_ + 1) (some (read s)) rest

def scan (read : σ → α) (r : Regex α) (skip : σ → List β) (hit : Nat → Found σ → List β) (at_ : Nat)
    (prev : Option α) (text : List σ) : List β :=
  scanFuel read r skip hit text.length at_ prev text

/-- The matches that a replacement comes to, with their places. -/
def findsFrom (read : σ → α) (r : Regex α) (at_ : Nat) (prev : Option α) (text : List σ) :
    List (Nat × Found σ) :=
  scan read r (fun _ => []) (fun at_ found => [(at_, found)]) at_ prev text

def finds (read : σ → α) (r : Regex α) (text : List σ) : List (Nat × Found σ) :=
  findsFrom read r 0 none text

/-- The symbols that are in no match. -/
def outsideFrom (read : σ → α) (r : Regex α) (at_ : Nat) (prev : Option α) (text : List σ) : List σ :=
  scan read r (fun s => [s]) (fun _ _ => []) at_ prev text

def outside (read : σ → α) (r : Regex α) (text : List σ) : List σ := outsideFrom read r 0 none text

section Scan

variable {read : σ → α} {r : Regex α} {skip : σ → List β} {hit : Nat → Found σ → List β} {at_ : Nat}
  {prev : Option α}

theorem scanFuel_eq {fuel : Nat} {text : List σ} (enough : text.length ≤ fuel) :
    scanFuel read r skip hit fuel at_ prev text = scan read r skip hit at_ prev text := by
  induction fuel using Nat.strong_induction_on generalizing at_ prev text with
  | _ fuel induction =>
    cases text with
    | nil => cases fuel <;> rfl
    | cons s rest =>
      obtain ⟨fuel, rfl⟩ : ∃ less, fuel = less + 1 :=
        Nat.exists_eq_succ_of_ne_zero (Nat.ne_zero_of_lt enough)
      have shorter : rest.length ≤ fuel := Nat.le_of_succ_le_succ enough
      unfold scan
      rw [List.length_cons, scanFuel, scanFuel]
      cases here : first read r prev (s :: rest) with
      | none =>
        dsimp only
        rw [induction fuel (Nat.lt_succ_self _) shorter]
        rfl
      | some found =>
        obtain ⟨matched, something⟩ := first_eq_some here
        have less : found.rest.length < (s :: rest).length :=
          matched.length_rest_lt something
        rw [List.length_cons] at less
        dsimp only
        rw [induction fuel (Nat.lt_succ_self _) (by omega)]
        by_cases same : rest.length = fuel
        · rw [same, induction fuel (Nat.lt_succ_self _) (by omega)]
        · rw [induction rest.length (by omega) (by omega)]

@[simp]
theorem scan_nil : scan read r skip hit at_ prev [] = [] := rfl

theorem scan_cons_none {s : σ} {rest : List σ} (here : first read r prev (s :: rest) = none) :
    scan read r skip hit at_ prev (s :: rest) =
      skip s ++ scan read r skip hit (at_ + 1) (some (read s)) rest := by
  rw [scan, List.length_cons, scanFuel, here]
  rfl

theorem scan_some {text : List σ} {found : Found σ} (here : first read r prev text = some found) :
    scan read r skip hit at_ prev text =
      hit at_ found ++ scan read r skip hit (at_ + found.taken.length)
        (before read prev found.taken) found.rest := by
  obtain ⟨matched, something⟩ := first_eq_some here
  have less := matched.length_rest_lt something
  cases text with
  | nil => exact absurd less (Nat.not_lt_zero _)
  | cons s rest =>
    rw [List.length_cons] at less
    rw [scan, List.length_cons, scanFuel, here]
    dsimp only
    rw [scanFuel_eq (by omega)]

end Scan

section Keeps

variable {read : σ → α} {r : Regex α} {replace : Nat → Found σ → List σ} {at_ : Nat}
  {prev : Option α}

/-- A pass keeps what each replacement keeps, whatever the pass has made of the text in front. -/
theorem replaceFrom_keeps {keeps : List σ → Prop} {text : List σ}
    (kept : ∀ skipped found prev, text = skipped ++ (found.taken ++ found.rest) →
      first read r prev (found.taken ++ found.rest) = some found → ∀ done,
        keeps (done ++ (found.taken ++ found.rest)) →
          keeps (done ++ (replace (at_ + skipped.length) found ++ found.rest)))
    (done : List σ) (start : keeps (done ++ text)) :
    keeps (done ++ replaceFrom read r replace at_ prev text) := by
  induction at_, prev, text using replaceFrom_induction read r generalizing done with
  | nil at_ prev => exact start
  | skip at_ prev s rest none induction =>
    rw [replaceFrom_cons_none none, List.append_cons]
    refine induction (fun skipped found prev split here done sofar => ?_) _ ?_
    · have later := kept (s :: skipped) found prev (congrArg (s :: ·) split) here done sofar
      rwa [List.length_cons, ← Nat.add_assoc, Nat.add_right_comm] at later
    · rwa [← List.append_cons]
  | found at_ prev text found here induction =>
    have split := (first_eq_some here).1.taken_append_rest
    rw [replaceFrom_some here, ← List.append_assoc]
    subst split
    have next := kept [] found prev rfl here done start
    rw [← List.append_assoc] at next
    refine induction (fun skipped later prev split here done sofar => ?_) _ next
    have further := kept (found.taken ++ skipped) later prev (by rw [split, List.append_assoc])
      here done sofar
    rwa [List.length_append, ← Nat.add_assoc] at further

end Keeps

section Finds

variable {read : σ → α} {r : Regex α} {at_ : Nat} {prev : Option α}

theorem before_append (prev : Option α) (first second : List σ) :
    before read prev (first ++ second) = before read (before read prev first) second := by
  unfold before
  rw [List.getLast?_append]
  cases second.getLast? <;> simp

variable {s : σ} {replace : Nat → Found σ → List σ}

theorem findsFrom_cons_none {rest : List σ} (here : first read r prev (s :: rest) = none) :
    findsFrom read r at_ prev (s :: rest) = findsFrom read r (at_ + 1) (some (read s)) rest :=
  scan_cons_none here

theorem findsFrom_some {text : List σ} {found : Found σ}
    (here : first read r prev text = some found) :
    findsFrom read r at_ prev text = (at_, found) :: findsFrom read r (at_ + found.taken.length)
      (before read prev found.taken) found.rest :=
  scan_some here

theorem outsideFrom_cons_none {rest : List σ} (here : first read r prev (s :: rest) = none) :
    outsideFrom read r at_ prev (s :: rest) = s :: outsideFrom read r (at_ + 1) (some (read s)) rest :=
  scan_cons_none here

theorem outsideFrom_some {text : List σ} {found : Found σ}
    (here : first read r prev text = some found) :
    outsideFrom read r at_ prev text = outsideFrom read r (at_ + found.taken.length)
      (before read prev found.taken) found.rest :=
  scan_some here

/-- Symbols that begin no match are passed over. -/
theorem findsFrom_append {front : List σ} (dull : ∀ s ∈ front, ∀ prev rest,
    first read r prev (s :: rest) = none) (text : List σ) :
    findsFrom read r at_ prev (front ++ text) =
      findsFrom read r (at_ + front.length) (before read prev front) text := by
  induction front generalizing at_ prev with
  | nil => rfl
  | cons s front induction =>
    rw [List.forall_mem_cons] at dull
    rw [List.cons_append, findsFrom_cons_none (dull.1 prev _), induction dull.2, List.length_cons,
      Nat.add_assoc, Nat.add_comm 1, ← List.singleton_append (l := front), before_append]
    rfl

theorem first_seq_one_none {test : α → Bool} {tail : Regex α} (other : test (read s) = false)
    (prev : Option α) (rest : List σ) :
    first read (.seq (.one test) tail) prev (s :: rest) = none := by
  simp [first, run, other]

/-- What a replacement leaves is outside all matches or in what one of them is replaced by. -/
theorem mem_replaceFrom_iff {text : List σ} :
    s ∈ replaceFrom read r replace at_ prev text ↔ s ∈ outsideFrom read r at_ prev text ∨
      ∃ entry ∈ findsFrom read r at_ prev text, s ∈ replace entry.1 entry.2 := by
  induction at_, prev, text using replaceFrom_induction read r with
  | nil at_ prev => simp [outsideFrom, findsFrom]
  | skip at_ prev t rest here induction =>
    rw [replaceFrom_cons_none here, outsideFrom_cons_none here, findsFrom_cons_none here,
      List.mem_cons, List.mem_cons, induction, or_assoc]
  | found at_ prev text found here induction =>
    rw [replaceFrom_some here, outsideFrom_some here, findsFrom_some here, List.mem_append,
      induction]
    simp only [List.mem_cons, exists_eq_or_imp]
    rw [or_left_comm]

theorem mem_iff_outside_or_taken {text : List σ} :
    s ∈ text ↔ s ∈ outsideFrom read r at_ prev text ∨
      ∃ entry ∈ findsFrom read r at_ prev text, s ∈ entry.2.taken := by
  have same : replaceFrom read r (fun _ found => found.taken) at_ prev text = text :=
    replaceFrom_eq_self fun _ _ _ _ _ _ => rfl
  conv_lhs => rw [← same]
  exact mem_replaceFrom_iff

/-- Every match that is come to is one, in what is left of the text there. -/
theorem exists_of_mem_findsFrom {text : List σ} {entry : Nat × Found σ}
    (member : entry ∈ findsFrom read r at_ prev text) : ∃ skipped here,
      text = skipped ++ (entry.2.taken ++ entry.2.rest) ∧ entry.1 = at_ + skipped.length ∧
        first read r here (entry.2.taken ++ entry.2.rest) = some entry.2 ∧
        here = before read prev skipped := by
  induction at_, prev, text using replaceFrom_induction read r with
  | nil at_ prev => cases member
  | skip at_ prev s rest none induction =>
    rw [findsFrom_cons_none none] at member
    obtain ⟨skipped, here, split, place, found, behind⟩ := induction member
    refine ⟨s :: skipped, here, congrArg (s :: ·) split, ?_, found, ?_⟩
    · rw [place, List.length_cons, Nat.add_assoc, Nat.add_comm 1]
    · rw [behind, ← List.singleton_append, before_append]
      rfl
  | found at_ prev text found some_ induction =>
    have split := (first_eq_some some_).1.taken_append_rest
    rw [findsFrom_some some_] at member
    rcases List.mem_cons.mp member with rfl | later
    · refine ⟨[], prev, split.symm, rfl, ?_, rfl⟩
      rw [split]
      exact some_
    · obtain ⟨skipped, here, rest, place, next, behind⟩ := induction later
      refine ⟨found.taken ++ skipped, here, ?_, ?_, next, ?_⟩
      · rw [← split, rest, List.append_assoc]
      · rw [place, List.length_append, Nat.add_assoc]
      · rw [behind, before_append]

/-- Every occurrence of a symbol is outside the matches or in one of them. -/
theorem count_findsFrom [DecidableEq σ] (text : List σ) (s : σ) :
    text.count s = (outsideFrom read r at_ prev text).count s +
      ((findsFrom read r at_ prev text).map fun entry => entry.2.taken.count s).sum := by
  induction at_, prev, text using replaceFrom_induction read r with
  | nil at_ prev => rfl
  | skip at_ prev t rest here induction =>
    rw [outsideFrom_cons_none here, findsFrom_cons_none here, List.count_cons, List.count_cons,
      induction]
    omega
  | found at_ prev text found here induction =>
    rw [outsideFrom_some here, findsFrom_some here, List.map_cons, List.sum_cons]
    conv_lhs => rw [← (first_eq_some here).1.taken_append_rest, List.count_append, induction]
    dsimp only
    omega

theorem count_replaceFrom_le [DecidableEq σ]
    (fewer : ∀ at_ found, (replace at_ found).count s ≤ found.taken.count s) (text : List σ) :
    (replaceFrom read r replace at_ prev text).count s ≤ text.count s := by
  induction at_, prev, text using replaceFrom_induction read r with
  | nil at_ prev => exact Nat.le_refl _
  | skip at_ prev t rest here induction =>
    rw [replaceFrom_cons_none here, List.count_cons, List.count_cons]
    omega
  | found at_ prev text found here induction =>
    have here' := fewer at_ found
    rw [replaceFrom_some here, List.count_append, ← (first_eq_some here).1.taken_append_rest,
      List.count_append]
    omega

/-- An additive measure changes by what the replacements change. -/
theorem measure_replaceFrom {measure : List σ → Int}
    (append : ∀ first second, measure (first ++ second) = measure first + measure second)
    {text : List σ} :
    measure (replaceFrom read r replace at_ prev text) = measure text +
      ((findsFrom read r at_ prev text).map fun entry =>
        measure (replace entry.1 entry.2) - measure entry.2.taken).sum := by
  have cons : ∀ s rest, measure (s :: rest) = measure [s] + measure rest := fun s rest =>
    append [s] rest
  induction at_, prev, text using replaceFrom_induction read r with
  | nil at_ prev => simp [findsFrom]
  | skip at_ prev t rest here induction =>
    rw [replaceFrom_cons_none here, findsFrom_cons_none here, cons t (replaceFrom ..), induction,
      cons t rest, Int.add_assoc]
  | found at_ prev text found here induction =>
    rw [replaceFrom_some here, findsFrom_some here, append, induction, List.map_cons,
      List.sum_cons]
    conv_rhs => rw [← (first_eq_some here).1.taken_append_rest, append]
    abel

end Finds

end Regex

/-! ## Passes -/

/-- A pass over a text.  The replacement is told the text before the pass and the place of the
match. -/
structure Pass (α σ : Type) where
  pattern : Regex α
  replace : List σ → Nat → Found σ → List σ

namespace Pass

variable (read : σ → α)

def apply (pass : Pass α σ) (text : List σ) : List σ :=
  pass.pattern.replaceAll read (pass.replace text) text

/-- The text before each pass and the pass, one behind the other. -/
def stages : List (Pass α σ) → List σ → List (Pass α σ × List σ)
  | [], _ => []
  | pass :: passes, text => (pass, text) :: stages passes (pass.apply read text)

def applyAll (passes : List (Pass α σ)) (text : List σ) : List σ :=
  passes.foldl (fun text pass => pass.apply read text) text

/-- Every place where the symbol stands is in a match whose replacement lacks it. -/
def Takes (pass : Pass α σ) (text : List σ) (s : σ) : Prop :=
  s ∉ pass.pattern.outside read text ∧ ∀ entry ∈ pass.pattern.finds read text,
    s ∈ entry.2.taken → s ∉ pass.replace text entry.1 entry.2

/-- The change of a measure by the replacements of a pass. -/
def growth (measure : List σ → Int) (pass : Pass α σ) (text : List σ) : Int :=
  ((pass.pattern.finds read text).map fun entry =>
    measure (pass.replace text entry.1 entry.2) - measure entry.2.taken).sum

variable {read}

theorem group_subset_of_mem_finds {r : Regex α} {text : List σ} {entry : Nat × Found σ}
    (member : entry ∈ r.finds read text) (index : Nat) : entry.2.group index ⊆ entry.2.taken := by
  obtain ⟨_, _, _, _, here, _⟩ := Regex.exists_of_mem_findsFrom member
  exact (Regex.first_eq_some here).1.group_subset index

theorem applyAll_cons (pass : Pass α σ) (passes : List (Pass α σ)) (text : List σ) :
    applyAll read (pass :: passes) text = applyAll read passes (pass.apply read text) := rfl

/-- A symbol that no replacement makes survives a pass unless the pass takes it. -/
theorem mem_apply_iff {pass : Pass α σ} {text : List σ} {s : σ}
    (old : ∀ entry ∈ pass.pattern.finds read text,
      s ∈ pass.replace text entry.1 entry.2 → s ∈ entry.2.taken) :
    s ∈ pass.apply read text ↔ s ∈ text ∧ ¬ pass.Takes read text s := by
  unfold apply Regex.replaceAll
  rw [Regex.mem_replaceFrom_iff]
  constructor
  · rintro (kept | ⟨entry, member, made⟩)
    · exact ⟨Regex.mem_iff_outside_or_taken.mpr (.inl kept), fun taken => taken.1 kept⟩
    · have there := old entry member made
      exact ⟨Regex.mem_iff_outside_or_taken.mpr (.inr ⟨entry, member, there⟩),
        fun taken => taken.2 entry member there made⟩
  · rintro ⟨there, free⟩
    by_contra gone
    simp only [not_or, not_exists, not_and] at gone
    exact free ⟨gone.1, fun entry member _ => gone.2 entry member⟩

section Once

variable [DecidableEq σ]

/-- A symbol that stands once is taken exactly if a match with it is replaced by something without
it. -/
theorem takes_iff_of_once {pass : Pass α σ} {text : List σ} {s : σ} (once : text.count s = 1) :
    pass.Takes read text s ↔ ∃ entry ∈ pass.pattern.finds read text,
      s ∈ entry.2.taken ∧ s ∉ pass.replace text entry.1 entry.2 := by
  constructor
  · rintro ⟨inside, dropped⟩
    have there : s ∈ text := List.count_pos_iff.mp (once ▸ Nat.one_pos)
    obtain ⟨entry, member, taken⟩ := (Regex.mem_iff_outside_or_taken.mp there).resolve_left inside
    exact ⟨entry, member, taken, dropped entry member taken⟩
  · rintro ⟨entry, member, taken, dropped⟩
    obtain ⟨front, back, split⟩ := List.append_of_mem member
    have total : text.count s = (pass.pattern.outside read text).count s +
        ((pass.pattern.finds read text).map fun entry => entry.2.taken.count s).sum :=
      Regex.count_findsFrom text s
    rw [once, split] at total
    simp only [List.map_append, List.map_cons, List.sum_append, List.sum_cons] at total
    have one : ∀ (entries : List (Nat × Found σ)), ∀ other ∈ entries, other.2.taken.count s ≤
        (entries.map fun entry => entry.2.taken.count s).sum := fun entries other listed =>
      List.single_le_sum (fun _ _ => Nat.zero_le _) _ (List.mem_map_of_mem listed)
    have here : 0 < entry.2.taken.count s := List.count_pos_iff.mpr taken
    refine ⟨fun kept => ?_, fun other listed also => ?_⟩
    · have more := List.count_pos_iff.mpr kept
      omega
    · have more : 0 < other.2.taken.count s := List.count_pos_iff.mpr also
      rw [split] at listed
      simp only [List.mem_append, List.mem_cons] at listed
      rcases listed with before | rfl | behind
      · have part := one front other before
        omega
      · exact dropped
      · have part := one back other behind
        omega

end Once

/-- A symbol survives passes unless one of them takes it. -/
theorem mem_applyAll_iff {passes : List (Pass α σ)} {text : List σ} {s : σ}
    (old : ∀ pass ∈ passes, ∀ text, ∀ entry ∈ pass.pattern.finds read text,
      s ∈ pass.replace text entry.1 entry.2 → s ∈ entry.2.taken) :
    s ∈ applyAll read passes text ↔
      s ∈ text ∧ ∀ stage ∈ stages read passes text, ¬ stage.1.Takes read stage.2 s := by
  induction passes generalizing text with
  | nil => simp [applyAll, stages]
  | cons pass passes induction =>
    rw [List.forall_mem_cons] at old
    have later := @induction (pass.apply read text) old.2
    rw [mem_apply_iff (old.1 text)] at later
    rw [applyAll_cons, stages, List.forall_mem_cons, ← and_assoc]
    exact later

theorem applyAll_nil (passes : List (Pass α σ)) : applyAll read passes [] = [] := by
  induction passes with
  | nil => rfl
  | cons pass passes induction => exact induction

theorem apply_of_needs {pass : Pass α σ} {letters : α → Bool} (needs : pass.pattern.Needs letters)
    {text : List σ} (absent : ∀ s ∈ text, letters (read s) = false) :
    pass.apply read text = text :=
  Regex.replaceFrom_of_needs needs absent

/-- Passes whose matches all take an absent letter change nothing. -/
theorem applyAll_of_needs {passes : List (Pass α σ)} {letters : α → Bool}
    (needs : ∀ pass ∈ passes, pass.pattern.Needs letters) {text : List σ}
    (absent : ∀ s ∈ text, letters (read s) = false) : applyAll read passes text = text := by
  induction passes with
  | nil => rfl
  | cons pass passes induction =>
    rw [List.forall_mem_cons] at needs
    rw [applyAll_cons, apply_of_needs needs.1 absent, induction needs.2]

theorem measure_applyAll {measure : List σ → Int}
    (append : ∀ first second, measure (first ++ second) = measure first + measure second)
    (passes : List (Pass α σ)) (text : List σ) :
    measure (applyAll read passes text) = measure text +
      ((stages read passes text).map fun stage => stage.1.growth read measure stage.2).sum := by
  induction passes generalizing text with
  | nil => simp [applyAll, stages]
  | cons pass passes induction =>
    have here : measure (pass.apply read text) = measure text + pass.growth read measure text :=
      Regex.measure_replaceFrom append
    rw [applyAll_cons, induction, here, stages, List.map_cons, List.sum_cons, Int.add_assoc]

end Pass

end Library
