import ApiSensor.Redaction.Patterns

/-!
# Marked tokens

Within one call generated tokens stand between markers.  The patterns for personal data leave them
alone, and they work on each side of a token, or of any sign that belongs to no pattern, as if it
were a text of its own.
-/

namespace ApiSensor

open Library

variable {σ : Type} [Symbol σ]

theorem chars_append (first second : List σ) :
    chars (first ++ second) = chars first ++ chars second := List.map_append

theorem chars_cons (s : σ) (rest : List σ) : chars (s :: rest) = Symbol.char s :: chars rest := rfl

theorem length_chars (text : List σ) : (chars text).length = text.length := List.length_map _

theorem forall_mem_chars {text : List σ} {good : Char → Prop} :
    (∀ c ∈ chars text, good c) ↔ ∀ s ∈ text, good (Symbol.char s) := List.forall_mem_map

/-- The characters of tokens. -/
def tokenChar (c : Char) : Bool := c.isAlphanum || c == '_'

theorem tokenChar_hexDigit : ∀ value < 16, tokenChar (hexDigit value) = true := by
  decide

theorem tokenChar_hex16 (value : UInt64) : ∀ c ∈ hex16 value, tokenChar c = true := by
  intro c member
  obtain ⟨i, -, rfl⟩ := List.mem_map.mp member
  exact tokenChar_hexDigit _ (Nat.mod_lt _ (by decide))

theorem tokenChar_label (piiType : PiiType) : ∀ c ∈ piiType.label, tokenChar c = true := by
  cases piiType <;> decide

theorem tokenChar_piiToken (R : Redactor) (piiType : PiiType) (original : Str) :
    ∀ c ∈ piiToken R piiType original, tokenChar c = true := by
  unfold piiToken
  split_ifs
  · exact tokenChar_label piiType
  · exact List.forall_mem_append.mpr ⟨tokenChar_label piiType,
      List.forall_mem_append.mpr ⟨tokenChar_hex16 _, tokenChar_hex16 _⟩⟩

/-- Neither of the markers. -/
def unmarked (c : Char) : Bool := c ≠ markOpen && c ≠ markClose

theorem unmarked_of_tokenChar {c : Char} (token : tokenChar c = true) : unmarked c = true := by
  unfold unmarked
  rw [Bool.and_eq_true, decide_eq_true_eq, decide_eq_true_eq]
  constructor <;>
  · rintro rfl
    exact absurd token (by decide)

/-! ## Spans -/

/-- A span further on. -/
def shift (count : Nat) (span : Nat × Nat) : Nat × Nat := (span.1 + count, span.2 + count)

theorem markedSpansFrom_add (count i : Nat) (opened : Option Nat) (text : Str) :
    markedSpansFrom (i + count) (opened.map (· + count)) text =
      (markedSpansFrom i opened text).map (shift count) := by
  induction text generalizing i opened with
  | nil => rfl
  | cons c rest induction =>
    have next : i + count + 1 = i + 1 + count := Nat.add_right_comm _ _ _
    unfold markedSpansFrom
    split_ifs with opens closes
    · rw [next]
      exact induction (i + 1) (some i)
    · cases opened with
      | none =>
        rw [next]
        exact induction (i + 1) none
      | some start =>
        rw [Option.map_some, List.map_cons, next]
        exact congrArg _ (induction (i + 1) none)
    · rw [next]
      exact induction (i + 1) opened

theorem markedSpansFrom_cons {c : Char} (free : unmarked c = true) (i : Nat) (opened : Option Nat)
    (rest : Str) :
    markedSpansFrom i opened (c :: rest) = markedSpansFrom (i + 1) opened rest := by
  unfold unmarked at free
  rw [Bool.and_eq_true, decide_eq_true_eq, decide_eq_true_eq] at free
  rw [markedSpansFrom.eq_def]
  dsimp only
  rw [if_neg free.1, if_neg free.2]

theorem markedSpansFrom_append {text : Str} (free : ∀ c ∈ text, unmarked c = true) (i : Nat)
    (opened : Option Nat) (more : Str) :
    markedSpansFrom i opened (text ++ more) = markedSpansFrom (i + text.length) opened more := by
  induction text generalizing i with
  | nil => rfl
  | cons c rest induction =>
    obtain ⟨here, later⟩ := List.forall_mem_cons.mp free
    rw [List.cons_append, markedSpansFrom_cons here, induction later, List.length_cons,
      Nat.add_right_comm, Nat.add_assoc]

theorem markedSpansFrom_from (i : Nat) (text : Str) :
    markedSpansFrom i none text = (markedSpans text).map (shift i) := by
  have added := markedSpansFrom_add i 0 none text
  rwa [Nat.zero_add] at added

theorem markedSpans_unmarked {text : Str} (free : ∀ c ∈ text, unmarked c = true) (more : Str) :
    markedSpans (text ++ more) = (markedSpans more).map (shift text.length) := by
  rw [markedSpans, markedSpansFrom_append free, Nat.zero_add, markedSpansFrom_from]

theorem markedSpans_token {text inner : Str} (free : ∀ c ∈ text, unmarked c = true)
    (tokens : ∀ c ∈ inner, tokenChar c = true) (rest : Str) :
    markedSpans (text ++ markOpen :: (inner ++ markClose :: rest)) =
      (text.length, text.length + inner.length + 2) ::
        (markedSpans rest).map (shift (text.length + inner.length + 2)) := by
  have opens : ∀ i more, markedSpansFrom i none (markOpen :: more) =
      markedSpansFrom (i + 1) (some i) more := fun _ _ => rfl
  have closes : ∀ i start more, markedSpansFrom i (some start) (markClose :: more) =
      (start, i + 1) :: markedSpansFrom (i + 1) none more := fun _ _ _ => rfl
  have length : text.length + 1 + inner.length + 1 = text.length + inner.length + 2 := by omega
  rw [markedSpans, markedSpansFrom_append free, Nat.zero_add, opens,
    markedSpansFrom_append fun c member => unmarked_of_tokenChar (tokens c member), closes,
    markedSpansFrom_from, length]

theorem overlaps_shift (spans : List (Nat × Nat)) (count start stop : Nat) :
    overlaps (spans.map (shift count)) (start + count) (stop + count) =
      overlaps spans start stop := by
  unfold overlaps
  rw [List.any_map]
  refine congrArg (List.any spans) (funext fun span => ?_)
  simp [shift]

/-! ## One pattern -/

/-- A sign that belongs to no pattern for personal data and bounds words. -/
structure Separates (R : Redactor) (c : Char) : Prop where
  noLetter : Pattern.piiLetter R c = false
  noWord : R.isWord c = false

theorem separates_markOpen (R : Redactor) : Separates R markOpen := by
  refine ⟨?_, R.isWord_mark.1⟩
  rw [Pattern.piiLetter, R.isDigit_mark.1]
  decide

theorem separates_markClose (R : Redactor) : Separates R markClose := by
  refine ⟨?_, R.isWord_mark.2⟩
  rw [Pattern.piiLetter, R.isDigit_mark.2]
  decide

/-! ## Generated text -/

/-- The characters of tokens and the markers. -/
def generated (c : Char) : Bool := tokenChar c || c == markOpen || c == markClose

theorem toNat_bounds {c : Char} (least greatest : UInt32)
    (within : c.val ≥ least ∧ c.val ≤ greatest) :
    least.toNat ≤ c.toNat ∧ c.toNat ≤ greatest.toNat := by
  constructor
  · exact UInt32.le_iff_toNat_le.mp within.1
  · exact UInt32.le_iff_toNat_le.mp within.2

theorem spaceless_generated {c : Char} (token : generated c = true) : isWhitespace c = false := by
  simp only [generated, tokenChar, Bool.or_eq_true, beq_iff_eq] at token
  rcases token with ((letter | rfl) | rfl) | rfl
  · have bounds : (65 ≤ c.toNat ∧ c.toNat ≤ 90) ∨ (97 ≤ c.toNat ∧ c.toNat ≤ 122) ∨
        (48 ≤ c.toNat ∧ c.toNat ≤ 57) := by
      have both {first last : Prop} [Decidable first] [Decidable last]
          (within : (decide first && decide last) = true) : first ∧ last :=
        (Bool.and_eq_true_iff.mp within).imp of_decide_eq_true of_decide_eq_true
      rcases Bool.or_eq_true_iff.mp letter with alpha | digit
      · rcases Bool.or_eq_true_iff.mp alpha with upper | lower
        · exact .inl (toNat_bounds 65 90 (of_decide_eq_true upper))
        · exact .inr (.inl (toNat_bounds 97 122 (both lower)))
      · exact .inr (.inr (toNat_bounds 48 57 (both digit)))
    unfold isWhitespace
    simp only [Bool.or_eq_false_iff, Bool.and_eq_false_iff, beq_eq_false_iff_ne, ne_eq,
      decide_eq_false_iff_not]
    omega
  · decide
  · decide
  · decide

theorem generated_marked {token : Str} (inner : ∀ c ∈ token, tokenChar c = true) :
    ∀ c ∈ markOpen :: token ++ [markClose], generated c = true := by
  intro c member
  simp only [List.cons_append, List.mem_cons, List.mem_append, List.not_mem_nil, or_false] at member
  rcases member with rfl | member | rfl
  · decide
  · simp [generated, inner c member]
  · decide

theorem forall_mem_marked {good : σ → Prop} {token : Str}
    (inner : ∀ c ∈ token, tokenChar c = true)
    (fresh : ∀ c, generated c = true → good (Symbol.mint c)) :
    ∀ s ∈ (marked token : List σ), good s := by
  intro s member
  obtain ⟨c, listed, rfl⟩ := List.mem_map.mp member
  exact fresh c (generated_marked inner c listed)

end ApiSensor
