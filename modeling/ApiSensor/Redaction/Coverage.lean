import ApiSensor.Redaction.Tokens
import Mathlib.Data.List.Sigma

/-!
# What the patterns for personal data hide

The sixteen patterns run one behind the other.  A character is hidden exactly if one of them, at its
turn, comes to a match that contains it and replaces that match: the match meets no token and
passes the check of its kind.  A candidate that is not replaced still hides the ones that overlap it
from the scanner.
-/

namespace ApiSensor

open Library

section Stages

variable {σ : Type} [Symbol σ]

/-- The patterns with the text in front of each. -/
def piiStages (R : Redactor) :
    List (PiiType × Regex Char) → List σ → List ((PiiType × Regex Char) × List σ)
  | [], _ => []
  | pattern :: patterns, text => (pattern, text) :: piiStages R patterns (piiPass R text pattern)

/-- A pattern comes to a match with the symbol and replaces it. -/
def HidesIn (pattern : PiiType × Regex Char) (text : List σ) (s : σ) : Prop :=
  ∃ entry ∈ pattern.2.finds Symbol.char text,
    s ∈ entry.2.taken ∧ piiAccepts pattern.1 text entry.1 entry.2 = true

/-- At its turn, one of the patterns comes to a match with the symbol and replaces it. -/
def HiddenByPattern (R : Redactor) (text : List σ) (s : σ) : Prop :=
  ∃ stage ∈ piiStages R (piiPatterns R) text, HidesIn stage.1 stage.2 s

instance [DecidableEq σ] (pattern : PiiType × Regex Char) (text : List σ) (s : σ) :
    Decidable (HidesIn pattern text s) :=
  inferInstanceAs (Decidable (∃ entry ∈ pattern.2.finds Symbol.char text, _ ∧ _))

instance [DecidableEq σ] (R : Redactor) (text : List σ) (s : σ) :
    Decidable (HiddenByPattern R text s) :=
  inferInstanceAs (Decidable (∃ stage ∈ piiStages R (piiPatterns R) text, _))

variable {R : Redactor} {s : σ}

variable [DecidableEq σ]

section

variable (input : ∀ c, s ≠ Symbol.mint c)
include input

theorem count_piiReplace_le (piiType : PiiType) (text : List σ) (at_ : Nat) (found : Found σ) :
    (piiReplace R piiType (markedSpans (chars text)) at_ found).count s ≤ found.taken.count s := by
  rw [piiReplace_eq]
  split_ifs
  · rw [List.count_eq_zero_of_not_mem (not_mem_marked input _)]
    exact Nat.zero_le _
  · exact Nat.le_refl _

theorem count_piiPass_le (text : List σ) (pattern : PiiType × Regex Char) :
    (piiPass R text pattern).count s ≤ text.count s :=
  Regex.count_replaceFrom_le (count_piiReplace_le input pattern.1 text) text

theorem count_foldl_piiPass_le (patterns : List (PiiType × Regex Char)) (text : List σ) :
    (patterns.foldl (piiPass R) text).count s ≤ text.count s := by
  induction patterns generalizing text with
  | nil => exact Nat.le_refl _
  | cons pattern patterns induction =>
    exact (induction _).trans (count_piiPass_le input text pattern)

theorem takes_piiRedaction_iff {text : List σ} (once : text.count s = 1)
    (pattern : PiiType × Regex Char) :
    (piiRedaction R pattern).Takes Symbol.char text s ↔ HidesIn pattern text s := by
  rw [Pass.takes_iff_of_once once]
  refine exists_congr fun entry => and_congr_right fun _ => and_congr_right fun taken => ?_
  change s ∉ piiReplace R pattern.1 (markedSpans (chars text)) entry.1 entry.2 ↔ _
  rw [piiReplace_eq]
  split_ifs with accepted
  · exact iff_of_true (not_mem_marked input _) accepted
  · exact iff_of_false (not_not_intro taken) accepted

theorem mem_piiPass_iff {text : List σ} (once : text.count s = 1) (pattern : PiiType × Regex Char) :
    s ∈ piiPass R text pattern ↔ ¬ HidesIn pattern text s := by
  have there : s ∈ text := List.count_pos_iff.mp (once ▸ Nat.one_pos)
  rw [← takes_piiRedaction_iff input once]
  have survives := @Pass.mem_apply_iff Char σ Symbol.char (piiRedaction R pattern).toPass text s
    fun entry _ made => List.count_pos_iff.mp
      ((List.count_pos_iff.mpr made).trans_le (count_piiReplace_le input pattern.1 text _ _))
  exact survives.trans (and_iff_right there)

/-- A symbol that stands once survives patterns unless one of them hides it at its turn. -/
theorem mem_foldl_piiPass_iff (patterns : List (PiiType × Regex Char)) {text : List σ}
    (once : text.count s = 1) :
    s ∈ patterns.foldl (piiPass R) text ↔
      ¬ ∃ stage ∈ piiStages R patterns text, HidesIn stage.1 stage.2 s := by
  induction patterns generalizing text with
  | nil => simpa [piiStages] using List.count_pos_iff.mp (once ▸ Nat.one_pos)
  | cons pattern patterns induction =>
    have fewer := @count_piiPass_le σ _ R s _ input text pattern
    rw [List.foldl_cons, piiStages, List.exists_mem_cons_iff, not_or,
      ← mem_piiPass_iff input once]
    by_cases survives : s ∈ piiPass R text pattern
    · have still := List.count_pos_iff.mpr survives
      rw [induction (by omega)]
      exact (and_iff_right survives).symm
    · have gone := List.count_eq_zero_of_not_mem survives
      refine iff_of_false (fun later => ?_) fun both => survives both.1
      have back := @count_foldl_piiPass_le σ _ R s _ input patterns (piiPass R text pattern)
      have some_ := List.count_pos_iff.mpr later
      omega

/-- A character of the input is hidden by `redact_pii` exactly if a pattern hides it at its turn. -/
theorem not_mem_redactPii_iff {text : List σ} (once : (stripMarkers text).count s = 1) :
    s ∉ redactPii R text ↔ HiddenByPattern R (stripMarkers text) s := by
  have there : s ∈ stripMarkers text := List.count_pos_iff.mp (once ▸ Nat.one_pos)
  have plain := (mem_stripMarkers_iff.mp there).2
  rw [redactPii, mem_stripMarkers_iff, redactPiiMarked, mem_foldl_piiPass_iff input _ once]
  simp [plain, HiddenByPattern]

end

end Stages

/-! ## Matches in the input -/

section Matches

variable {σ : Type} [Symbol σ] {R : Redactor} {whole : List σ}

theorem tokenised_of_mem_piiStages {patterns : List (PiiType × Regex Char)} {text : List σ}
    (made : Tokenised whole text) {stage : (PiiType × Regex Char) × List σ}
    (listed : stage ∈ piiStages R patterns text) :
    stage.1 ∈ patterns ∧ Tokenised whole stage.2 := by
  induction patterns generalizing text with
  | nil => cases listed
  | cons pattern patterns induction =>
    rcases List.mem_cons.mp listed with rfl | later
    · exact ⟨List.mem_cons_self, made⟩
    · obtain ⟨member, made⟩ := induction (made.piiPass R pattern) later
      exact ⟨List.mem_cons_of_mem _ member, made⟩

/-- What a pattern replaces stands in the input as it is. -/
theorem HidesIn.exists_match {pattern : PiiType × Regex Char} {text : List σ} {s : σ}
    (made : Tokenised whole text) (hides : HidesIn pattern text s) :
    ∃ front found back prev, whole = front ++ (found.taken ++ back) ∧ s ∈ found.taken ∧
      Regex.Matches Symbol.char pattern.2 prev (found.taken ++ found.rest) found := by
  obtain ⟨⟨at_, found⟩, listed, member, accepted⟩ := hides
  obtain ⟨skipped, prev, split, place, here, -⟩ := Regex.exists_of_mem_findsFrom listed
  obtain ⟨matched, something⟩ := Regex.first_eq_some here
  have clear := (Bool.and_eq_true_iff.mp accepted).1
  rw [Nat.zero_add] at place
  rw [Bool.not_eq_true', split, place] at clear
  rw [split] at made
  obtain ⟨front, back, rfl, -, -⟩ :=
    made.split_block (made.input_of_not_overlaps clear) something
  exact ⟨front, found, back, prev, rfl, member, matched⟩

end Matches

/-! ## Places -/

/-- A part of a text in which every character knows its place. -/
def placedFrom (at_ : Nat) (text : Str) : List Placed :=
  (text.zipIdx at_).map fun (c, i) => ⟨c, some i⟩

theorem placedFrom_append (at_ : Nat) (first second : Str) :
    placedFrom at_ (first ++ second) =
      placedFrom at_ first ++ placedFrom (at_ + first.length) second := by
  simp [placedFrom, List.zipIdx_append]

theorem placed_append (first second : Str) :
    placed (first ++ second) = placed first ++ placedFrom first.length second := by
  have split := placedFrom_append 0 first second
  rwa [Nat.zero_add] at split

theorem chars_placedFrom (at_ : Nat) (text : Str) : chars (placedFrom at_ text) = text := by
  unfold chars placedFrom
  rw [List.map_map]
  exact List.zipIdx_map_fst at_ text

theorem mem_placed_of_mem_block {front block back : Str} {s : Placed}
    (member : s ∈ placedFrom front.length block) : s ∈ placed (front ++ (block ++ back)) := by
  rw [placed_append, placedFrom_append]
  exact List.mem_append_right _ (List.mem_append_left _ member)

theorem nodup_placed (text : Str) : (placed text).Nodup := by
  have places : (placed text).map Placed.place = (text.zipIdx.map Prod.snd).map some := by
    rw [placed, List.map_map, List.map_map]
    rfl
  refine List.Nodup.of_map Placed.place ?_
  rw [places]
  exact (List.nodup_zipIdx_map_snd text).map (Option.some_injective _)

theorem input_of_mem_stripMarkers_placed {text : Str} :
    ∀ s ∈ stripMarkers (placed text), Input s := fun _ member =>
  (mem_stripMarkers_iff.mp member).imp_left ne_mint_of_mem_placed

/-- A character of the input is hidden exactly if it is a marker or a pattern hides it. -/
theorem not_mem_redactPii_placed_iff {R : Redactor} {text : Str} {s : Placed}
    (member : s ∈ placed text) :
    s ∉ redactPii R (placed text) ↔
      (unmarked s.char = true → HiddenByPattern R (stripMarkers (placed text)) s) := by
  by_cases plain : unmarked s.char = true
  · have once : (stripMarkers (placed text)).count s = 1 :=
      List.count_eq_one_of_mem ((nodup_placed text).filter _)
        (mem_stripMarkers_iff.mpr ⟨member, plain⟩)
    rw [not_mem_redactPii_iff (ne_mint_of_mem_placed member) once]
    exact ⟨fun hidden _ => hidden, fun hidden => hidden plain⟩
  · exact iff_of_true (fun kept => plain (mem_stripMarkers_iff.mp kept).2)
      fun plain' => absurd plain' plain

end ApiSensor
