import ApiSensor.Redaction

/-!
# Letters of the patterns

What the patterns for personal data can take: letters, digits and a few signs, up to the boundaries
of words.  The two that can take more need white space.
-/

namespace ApiSensor

open Library

namespace Pattern

variable {letters word : Char → Bool}

theorem wordsWithin_cat {parts : List (Regex Char)}
    (words : ∀ r ∈ parts, r.WordsWithin letters word) : (cat parts).WordsWithin letters word := by
  induction parts with
  | nil => trivial
  | cons r rest induction =>
    obtain ⟨here, later⟩ := List.forall_mem_cons.mp words
    cases rest with
    | nil => exact here
    | cons next rest => exact ⟨here, induction later⟩

theorem needs_cat {parts : List (Regex Char)} {r : Regex Char} (member : r ∈ parts)
    (needs : r.Needs letters) : (cat parts).Needs letters := by
  induction parts with
  | nil => cases member
  | cons first rest induction =>
    cases rest with
    | nil => exact List.mem_singleton.mp member ▸ needs
    | cons next rest =>
      rcases List.mem_cons.mp member with rfl | member
      · exact .inl needs
      · exact .inr (induction member)

theorem needs_lit {text : String} {c : Char} (member : c ∈ text.toList)
    (letter : letters c = true) : (lit text).Needs letters := by
  refine needs_cat (List.mem_map_of_mem member) fun other same => ?_
  rw [eq_of_beq same]
  exact letter

/-- A match of a literal is the literal. -/
theorem taken_cat_ones {σ : Type} [Symbol σ] {text : Str} {prev : Option Char} {input : List σ}
    {found : Found σ} (matched : Regex.Matches Symbol.char
      (cat (text.map fun c => .one (· == c))) prev input found) : chars found.taken = text := by
  induction text generalizing prev input found with
  | nil =>
    cases matched
    rfl
  | cons c text induction =>
    cases text with
    | nil =>
      cases matched with
      | one passes => exact congrArg (· :: []) (eq_of_beq passes)
    | cons d text =>
      cases matched with
      | seq first second =>
        cases first with
        | one passes =>
          exact congrArg₂ (· :: ·) (eq_of_beq passes) (induction second)

theorem taken_lit {σ : Type} [Symbol σ] {text : String} {prev : Option Char} {input : List σ}
    {found : Found σ} (matched : Regex.Matches Symbol.char (lit text) prev input found) :
    chars found.taken = str text := taken_cat_ones matched

/-- The signs that occur in the patterns. -/
def piiSigns : String := "_.%+-@()"

/-- What the patterns for personal data can take. -/
def piiLetter (R : Redactor) (c : Char) : Bool :=
  c.isAlphanum || oneOf piiSigns c || R.isDigit c || isWhitespace c

section Letters

variable {R : Redactor} {c : Char}

theorem piiLetter_anyDigit (letter : R.isDigit c = true) : piiLetter R c = true := by
  simp [piiLetter, letter]

theorem piiLetter_space (letter : isWhitespace c = true) : piiLetter R c = true := by
  simp [piiLetter, letter]

theorem piiLetter_oneOf {set : String}
    (inside : ∀ c ∈ set.toList, (c.isAlphanum || oneOf piiSigns c) = true)
    (member : oneOf set c = true) : piiLetter R c = true := by
  have letter := inside c (List.contains_iff_mem.mp member)
  unfold piiLetter
  rw [letter]
  rfl

theorem piiLetter_or {first second : Char → Bool}
    (left : first c = true → piiLetter R c = true)
    (right : second c = true → piiLetter R c = true)
    (either : (first c || second c) = true) : piiLetter R c = true :=
  (Bool.or_eq_true_iff.mp either).elim left right

end Letters

section PiiPatterns

variable (R : Redactor)

theorem words_wordBoundary : (wordBoundary R).WordsWithin letters R.isWord := fun _ _ => rfl

theorem words_aadhaar : (aadhaar R).WordsWithin (piiLetter R) R.isWord := by
  have digits : ∀ c, R.isDigit c = true → piiLetter R c = true := fun _ => piiLetter_anyDigit
  have separator : ∀ c, (isWhitespace c || oneOf "-" c) = true → piiLetter R c = true := fun _ =>
    piiLetter_or piiLetter_space (piiLetter_oneOf (by decide))
  refine wordsWithin_cat ?_
  simp only [List.forall_mem_cons, List.not_mem_nil, false_implies, implies_true, and_true]
  exact ⟨words_wordBoundary R, fun _ => piiLetter_oneOf (by decide), digits, ⟨separator, trivial⟩,
    digits, ⟨separator, trivial⟩, digits, words_wordBoundary R⟩

end PiiPatterns

end Pattern

end ApiSensor
