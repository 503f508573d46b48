import ApiSensor.Library.Regex
import Mathlib.Data.List.Chain

/-!
# Letters in front of others

An expression says which letters can stand in front of others inside its matches.
-/

namespace Library

variable {α σ : Type}

namespace Regex

variable {read : σ → α}

/-- Every hot symbol of a text stands behind a good one, if there is a good one in front of the text
where that is assumed; where it is asked, something good stands at the end. -/
structure Led (hot good : σ → Prop) (front back : Prop) (text : List σ) : Prop where
  chain : text.IsChain fun a b => hot b → good a
  head : ∀ s ∈ text.head?, hot s → front
  last : back → ∀ s ∈ text.getLast?, good s
  through : back → text = [] → front

namespace Led

variable {hot good : σ → Prop} {front middle back : Prop}

theorem nil (through : back → front) : Led hot good front back [] where
  chain := .nil
  head := nofun
  last _ := nofun
  through holds _ := through holds

theorem singleton {s : σ} (head : hot s → front) (last : back → good s) :
    Led hot good front back [s] where
  chain := .singleton s
  head := by
    rintro _ ⟨⟩
    exact head
  last holds := by
    rintro _ ⟨⟩
    exact last holds
  through _ := nofun

theorem append {first second : List σ} (left : Led hot good front middle first)
    (right : Led hot good middle back second) : Led hot good front back (first ++ second) where
  chain := List.isChain_append.mpr ⟨left.chain, right.chain, fun a last b head warm =>
    left.last (right.head b head warm) a last⟩
  head s member warm := by
    by_cases none : first = []
    · rw [none, List.nil_append] at member
      exact left.through (right.head s member warm) none
    · rw [List.head?_append_of_ne_nil _ none] at member
      exact left.head s member warm
  last holds s member := by
    by_cases none : second = []
    · rw [none, List.append_nil] at member
      exact left.last (right.through holds none) s member
    · rw [List.getLast?_append_of_ne_nil _ none] at member
      exact right.last holds s member
  through holds none := by
    obtain ⟨noFirst, noSecond⟩ := List.append_eq_nil_iff.mp none
    exact left.through (right.through holds noSecond) noFirst

theorem mono {front' : Prop} {text : List σ} (more : front → front')
    (led : Led hot good front back text) : Led hot good front' back text where
  chain := led.chain
  head s member warm := more (led.head s member warm)
  last := led.last
  through holds none := more (led.through holds none)

end Led

/-- Inside the matches of an expression, hot letters stand behind good ones only. -/
def Leads (hot good : α → Prop) : Regex α → Prop → Prop → Prop
  | .empty, front, back | .look _, front, back => back → front
  | .one test, front, back =>
    (∀ letter, test letter = true → hot letter → front) ∧
      (back → ∀ letter, test letter = true → good letter)
  | .seq a b, front, back => ∃ middle, a.Leads hot good front middle ∧ b.Leads hot good middle back
  | .alt a b, front, back => a.Leads hot good front back ∧ b.Leads hot good front back
  | .rep _ least _ body, front, back =>
    -- `entry` holds in front of every turn, `exit` behind every turn
    ∃ entry exit, body.Leads hot good entry exit ∧ (entry → front) ∧ (entry → exit) ∧
      (back → exit) ∧ (back → 0 < least ∨ front)
  | .group _ body, front, back => body.Leads hot good front back

/-- The expression never takes this letter. -/
def Avoids (letter : α) : Regex α → Prop
  | .empty | .look _ => True
  | .one test => test letter = false
  | .seq a b | .alt a b => a.Avoids letter ∧ b.Avoids letter
  | .rep _ _ _ body | .group _ body => body.Avoids letter

instance decidableAvoids (letter : α) : (r : Regex α) → Decidable (r.Avoids letter)
  | .empty | .look _ => .isTrue trivial
  | .one test => inferInstanceAs (Decidable (test letter = false))
  | .seq a b | .alt a b =>
    have := decidableAvoids letter a
    have := decidableAvoids letter b
    inferInstanceAs (Decidable (_ ∧ _))
  | .rep _ _ _ body | .group _ body => decidableAvoids letter body

/-- A letter that is never taken needs nothing in front of it. -/
theorem leads_of_avoids {letter : α} {good : α → Prop} {r : Regex α} (avoids : r.Avoids letter)
    (front : Prop) : r.Leads (· = letter) good front False := by
  induction r generalizing front with
  | empty | look _ => exact False.elim
  | one test =>
    refine ⟨?_, nofun⟩
    rintro _ passes rfl
    exact absurd (passes.symm.trans avoids) (by decide)
  | seq _ _ first second => exact ⟨False, first avoids.1 front, second avoids.2 False⟩
  | alt _ _ left right => exact ⟨left avoids.1 front, right avoids.2 front⟩
  | rep _ _ _ _ inside =>
    exact ⟨False, False, inside avoids False, False.elim, id, id, False.elim⟩
  | group _ _ inside => exact inside avoids front

theorem Matches.led {hot good : α → Prop} {r : Regex α} {prev : Option α} {text : List σ}
    {found : Found σ} (matched : Matches read r prev text found) {front back : Prop}
    (leads : r.Leads hot good front back) :
    Led (fun s => hot (read s)) (fun s => good (read s)) front back found.taken := by
  induction matched generalizing front back with
  | empty | look _ => exact .nil leads
  | one passes => exact .singleton (leads.1 _ passes) fun holds => leads.2 holds _ passes
  | seq _ _ first second =>
    obtain ⟨middle, left, right⟩ := leads
    exact (first left).append (second right)
  | altLeft _ inside => exact inside leads.1
  | altRight _ inside => exact inside leads.2
  | repDone =>
    obtain ⟨_, _, _, _, _, _, through⟩ := leads
    exact .nil fun holds => (through holds).resolve_left (Nat.lt_irrefl 0)
  | repMore _ _ _ first second =>
    obtain ⟨entry, exit, body, enter, turn, leave, _⟩ := leads
    exact ((first body).mono enter).append (second ⟨entry, exit, body, turn, turn, leave, .inr ∘ leave⟩)
  | group _ inside => exact inside leads

end Regex

end Library
