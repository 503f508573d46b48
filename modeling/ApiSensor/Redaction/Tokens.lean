import ApiSensor.Redaction.Passes

/-!
# Tokens in a text

While the passes run, a text is made of symbols of the input and of whole generated tokens.  What is
left of the input between two tokens stands in the input as it is, and a range that meets no marked
span is made of symbols of the input only.
-/

namespace ApiSensor

open Library

variable {σ : Type} [Symbol σ]

/-- A symbol of the input; markers are taken out of the input first. -/
def Input (s : σ) : Prop := (∀ c, s ≠ Symbol.mint c) ∧ unmarked (Symbol.char s) = true

/-- The second text is the first one with generated tokens in place of some parts. -/
inductive Tokenised : List σ → List σ → Prop
  | nil : Tokenised [] []
  | plain {s : σ} {whole text : List σ} (input : Input s) (later : Tokenised whole text) :
      Tokenised (s :: whole) (s :: text)
  | token {removed whole text : List σ} {inner : Str} (tokens : ∀ c ∈ inner, tokenChar c = true)
      (later : Tokenised whole text) : Tokenised (removed ++ whole) (marked inner ++ text)

theorem length_marked (inner : Str) : (marked inner : List σ).length = inner.length + 2 := by
  simp [marked, minted]

theorem map_shift_map_shift (spans : List (Nat × Nat)) (first second : Nat) :
    (spans.map (shift first)).map (shift second) = spans.map (shift (first + second)) := by
  simp [shift, Function.comp_def, Nat.add_assoc]

theorem markedSpans_cons {c : Char} (free : unmarked c = true) (more : Str) :
    markedSpans (c :: more) = (markedSpans more).map (shift 1) :=
  @markedSpans_unmarked [c] (by simpa using free) more

variable {inner : Str}

theorem markedSpans_marked (tokens : ∀ c ∈ inner, tokenChar c = true) (more : Str) :
    markedSpans (chars (marked inner : List σ) ++ more) =
      (0, inner.length + 2) :: (markedSpans more).map (shift (inner.length + 2)) := by
  have alone : chars (marked inner : List σ) ++ more =
      markOpen :: (inner ++ markClose :: more) := by
    simp [marked, minted, chars, Function.comp_def, Symbol.char_mint]
  have free : ∀ c ∈ ([] : Str), unmarked c = true := by simp
  have spans := markedSpans_token free tokens more
  rw [List.length_nil, Nat.zero_add] at spans
  rw [alone]
  exact spans

theorem overlaps_mono {spans : List (Nat × Nat)} {start later stop : Nat} (behind : start ≤ later)
    (clear : overlaps spans start stop = false) : overlaps spans later stop = false := by
  rw [overlaps, List.any_eq_false] at clear ⊢
  intro span member
  have away := clear span member
  simp only [Bool.and_eq_true, decide_eq_true_eq] at away ⊢
  omega

theorem not_mem_marked {s : σ} (input : ∀ c, s ≠ Symbol.mint c) (token : Str) :
    s ∉ marked token := fun member => (mem_minted member).elim input

theorem not_input_of_mem_marked {s : σ} (member : s ∈ (marked inner : List σ)) :
    ¬ Input s := fun input => not_mem_marked input.1 inner member

namespace Tokenised

theorem of_input {text : List σ} (input : ∀ s ∈ text, Input s) : Tokenised text text := by
  induction text with
  | nil => exact .nil
  | cons s text induction =>
    rw [List.forall_mem_cons] at input
    exact .plain input.1 (induction input.2)

variable {whole back front block : List σ}

theorem append {text whole' text' : List σ} (first : Tokenised whole text)
    (second : Tokenised whole' text') : Tokenised (whole ++ whole') (text ++ text') := by
  induction first with
  | nil => exact second
  | plain input _ induction => exact .plain input induction
  | token tokens _ induction =>
    rw [List.append_assoc, List.append_assoc]
    exact .token tokens induction

theorem eq_nil (made : Tokenised whole []) : whole = [] := by
  generalize same : [] = text at made
  cases made with
  | nil => rfl
  | plain _ _ => cases same
  | token _ _ => cases same

/-- A symbol of the input is outside the tokens. -/
theorem split {s : σ} (made : Tokenised whole (front ++ s :: back)) (input : Input s) :
    ∃ front' back', whole = front' ++ s :: back' ∧
      Tokenised front' front ∧ Tokenised back' back := by
  generalize same : front ++ s :: back = text at made
  induction made generalizing front with
  | nil => simp at same
  | @plain t whole text here later induction =>
    cases front with
    | nil =>
      obtain ⟨rfl, rfl⟩ := List.cons_eq_cons.mp same
      exact ⟨[], whole, rfl, .nil, later⟩
    | cons u front =>
      obtain ⟨rfl, rest⟩ := List.cons_eq_cons.mp same
      obtain ⟨front', back', rfl, left, right⟩ := induction rest
      exact ⟨u :: front', back', rfl, .plain here left, right⟩
  | @token removed whole text inner tokens later induction =>
    rcases List.append_eq_append_iff.mp same with ⟨between, outside, rest⟩ | ⟨between, rfl, rest⟩
    · cases between with
      | nil =>
        obtain ⟨front', back', rfl, left, right⟩ := @induction [] rest
        rw [List.append_nil] at outside
        have made : Tokenised (removed ++ front') (marked inner ++ []) := .token tokens left
        rw [List.append_nil, outside] at made
        exact ⟨removed ++ front', back', by simp, made, right⟩
      | cons t between =>
        obtain ⟨rfl, -⟩ := List.cons_eq_cons.mp rest
        have inside : s ∈ (marked inner : List σ) := by rw [outside]; simp
        exact absurd input (not_input_of_mem_marked inside)
    · obtain ⟨front', back', rfl, left, right⟩ := induction rest.symm
      exact ⟨removed ++ front', back', by simp, .token tokens left, right⟩

/-- What has no marker behind a symbol of the input is input. -/
theorem input_of_unmarked (made : Tokenised whole (block ++ back))
    (free : ∀ s ∈ block, unmarked (Symbol.char s) = true) : ∀ s ∈ block, Input s := by
  induction block generalizing whole with
  | nil => nofun
  | cons s block induction =>
    rw [List.forall_mem_cons] at free ⊢
    generalize same : s :: block ++ back = text at made
    cases made with
    | nil => cases same
    | plain input later =>
      obtain ⟨rfl, rfl⟩ := List.cons_eq_cons.mp same
      exact ⟨input, induction later free.2⟩
    | @token removed whole text inner tokens later =>
      -- a token begins with a marker
      obtain ⟨rfl, -⟩ := List.cons_eq_cons.mp same
      rw [Symbol.char_mint] at free
      exact absurd free.1 (by decide)

/-- A part without tokens stands in the input as it is. -/
theorem split_block (made : Tokenised whole (front ++ (block ++ back)))
    (input : ∀ s ∈ block, Input s) (something : block ≠ []) :
    ∃ front' back', whole = front' ++ (block ++ back') ∧
      Tokenised front' front ∧ Tokenised back' back := by
  induction block generalizing whole front with
  | nil => exact absurd rfl something
  | cons s block induction =>
    rw [List.forall_mem_cons] at input
    obtain ⟨front', rest', rfl, left, right⟩ := made.split input.1
    cases block with
    | nil => exact ⟨front', rest', rfl, left, right⟩
    | cons t block =>
      obtain ⟨between, back', rfl, empty, right⟩ :=
        @induction rest' [] right input.2 (List.cons_ne_nil _ _)
      rw [empty.eq_nil]
      exact ⟨front', back', rfl, left, right⟩

theorem markedSpans_append {text : List σ} (made : Tokenised whole text) (more : Str) :
    markedSpans (chars text ++ more) =
      markedSpans (chars text) ++ (markedSpans more).map (shift text.length) := by
  induction made with
  | nil => exact (List.map_id _).symm
  | @plain s _ text input _ induction =>
    have inner := markedSpans_cons input.2 (chars text ++ more)
    rw [induction, List.map_append, map_shift_map_shift] at inner
    exact inner.trans (congrArg (· ++ _) (markedSpans_cons input.2 (chars text)).symm)
  | @token _ _ text inner tokens _ induction =>
    have length : text.length + (inner.length + 2) = (marked inner ++ text : List σ).length := by
      rw [List.length_append, length_marked, Nat.add_comm]
    rw [chars_append, List.append_assoc, markedSpans_marked tokens, markedSpans_marked tokens,
      induction, List.map_append, map_shift_map_shift, length]
    rfl

theorem span_le {text : List σ} (made : Tokenised whole text) :
    ∀ span ∈ markedSpans (chars text), span.2 ≤ text.length := by
  induction made with
  | nil => nofun
  | @plain s _ text input _ induction =>
    rw [chars_cons, markedSpans_cons input.2, List.forall_mem_map]
    exact fun span member => Nat.succ_le_succ (induction span member)
  | @token _ _ text inner tokens _ induction =>
    rw [chars_append, markedSpans_marked tokens, List.forall_mem_cons, List.forall_mem_map,
      List.length_append, length_marked]
    refine ⟨Nat.le_add_right _ _, fun span member => ?_⟩
    have inside := induction span member
    dsimp only [shift]
    omega

/-- What meets no token is input. -/
theorem input_of_not_overlaps (made : Tokenised whole (front ++ (block ++ back)))
    (clear : overlaps (markedSpans (chars (front ++ (block ++ back)))) front.length
      (front.length + block.length) = false) : ∀ s ∈ block, Input s := by
  generalize same : front ++ (block ++ back) = text at made clear
  induction made generalizing front block with
  | nil =>
    obtain ⟨-, none⟩ := List.append_eq_nil_iff.mp same
    rw [(List.append_eq_nil_iff.mp none).1]
    nofun
  | @plain t whole text here later induction =>
    rw [chars_cons, markedSpans_cons here.2] at clear
    cases front with
    | cons u front =>
      obtain ⟨-, rest⟩ := List.cons_eq_cons.mp same
      rw [List.length_cons, Nat.add_right_comm, overlaps_shift] at clear
      exact induction rest clear
    | nil =>
      cases block with
      | nil => nofun
      | cons u block =>
        obtain ⟨rfl, rest⟩ := List.cons_eq_cons.mp same
        refine List.forall_mem_cons.mpr ⟨here, @induction [] block rest ?_⟩
        have later := overlaps_mono (Nat.zero_le (0 + 1)) clear
        rw [List.length_nil, List.length_cons, ← Nat.add_assoc, overlaps_shift] at later
        exact later
  | @token removed whole text inner tokens later induction =>
    rw [chars_append, markedSpans_marked tokens] at clear
    obtain ⟨away, clear⟩ := Bool.or_eq_false_iff.mp clear
    by_cases none : block = []
    · rw [none]
      nofun
    have positive := List.length_pos_of_ne_nil none
    have far : inner.length + 2 ≤ front.length := by
      simp only [Bool.and_eq_false_iff, decide_eq_false_iff_not] at away
      omega
    obtain ⟨front, rfl⟩ : ∃ behind, front = marked inner ++ behind :=
      (List.prefix_of_prefix_length_le (List.prefix_append _ text)
        (same ▸ List.prefix_append front _) ((length_marked inner).trans_le far)).imp
        fun _ => Eq.symm
    rw [List.append_assoc] at same
    have apart : overlaps ((markedSpans (chars text)).map (shift (inner.length + 2)))
        (front.length + (inner.length + 2)) (front.length + block.length + (inner.length + 2)) =
          false := by
      rw [List.length_append, length_marked, Nat.add_comm _ front.length,
        Nat.add_right_comm] at clear
      exact clear
    rw [overlaps_shift] at apart
    exact induction (List.append_cancel_left same) apart

/-- Input meets no token. -/
theorem not_overlaps (made : Tokenised whole (front ++ (block ++ back)))
    (input : ∀ s ∈ block, Input s) (something : block ≠ []) :
    overlaps (markedSpans (chars (front ++ (block ++ back)))) front.length
      (front.length + block.length) = false := by
  obtain ⟨front', back', -, left, -⟩ := made.split_block input something
  have free : ∀ c ∈ chars block, unmarked c = true :=
    forall_mem_chars.mpr fun s member => (input s member).2
  rw [chars_append, left.markedSpans_append, chars_append, markedSpans_unmarked free,
    map_shift_map_shift, length_chars]
  refine List.any_eq_false.mpr (List.forall_mem_append.mpr ⟨fun span member => ?_, ?_⟩)
  · have ends := left.span_le span member
    simp only [Bool.and_eq_true, decide_eq_true_eq]
    omega
  · rintro _ member
    obtain ⟨span, -, rfl⟩ := List.mem_map.mp member
    have behind : ¬ (shift (block.length + front.length) span).1 < front.length + block.length := by
      dsimp only [shift]
      omega
    rw [decide_eq_false behind, Bool.and_false]
    exact Bool.false_ne_true

end Tokenised

/-! ## Passes -/

/-- A part of the input may be replaced by a token. -/
theorem Tokenised.replace_block {whole front block back : List σ}
    (tokens : ∀ c ∈ inner, tokenChar c = true) (input : ∀ s ∈ block, Input s)
    (something : block ≠ []) (made : Tokenised whole (front ++ (block ++ back))) :
    Tokenised whole (front ++ (marked inner ++ back)) := by
  obtain ⟨front', back', rfl, left, right⟩ := made.split_block input something
  exact left.append (.token tokens right)

theorem Tokenised.piiPass {whole text : List σ} (R : Redactor) (pattern : PiiType × Regex Char)
    (made : Tokenised whole text) : Tokenised whole (piiPass R text pattern) := by
  refine Regex.replaceFrom_keeps (fun skipped found prev split here done sofar => ?_) [] made
  rw [piiReplace_eq, Nat.zero_add]
  split_ifs with accepted
  · have clear := (Bool.and_eq_true_iff.mp accepted).1
    rw [Bool.not_eq_true', split] at clear
    have input := (split ▸ made).input_of_not_overlaps clear
    exact sofar.replace_block (tokenChar_piiToken R _ _) input (Regex.first_eq_some here).2
  · exact sofar

end ApiSensor
