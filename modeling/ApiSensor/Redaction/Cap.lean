import ApiSensor.Redaction.Names
import ApiSensor.Redaction.Passes

/-!
# Capped bodies

`redact_and_cap_body` cuts a body before it redacts it.  Undecodable bytes and tokens can make the
result longer than the cap, and a value that is cut may no longer be recognised.
-/

namespace ApiSensor

open Library

/-- The text of a captured body. -/
def cappedText (raw : Bytes) : Str := fromUtf8Lossy (raw.take maxBodyCaptureBytes)

def redactAndCapBody (R : Redactor) (raw : Bytes) : Option Str :=
  if raw.isEmpty then none else some (redactBody R (cappedText raw))

/-! ## Length -/

/-- The length of a text in bytes, markers not counted. -/
def shippedSize (text : Str) : Int := strLen (stripMarkers text)

theorem shippedSize_append (first second : Str) :
    shippedSize (first ++ second) = shippedSize first + shippedSize second := by
  unfold shippedSize stripMarkers
  rw [List.filter_append, strLen_append]
  exact Int.natCast_add _ _

/-- What the passes of redaction add to a text. -/
def redactionGrowth (R : Redactor) (text : Str) : Int :=
  ((Pass.stages Symbol.char (passesOf (textRedactions R)) text).map fun stage =>
    stage.1.growth Symbol.char shippedSize stage.2).sum

theorem strLen_redactBody (R : Redactor) (text : Str) :
    (strLen (redactBody R text) : Int) =
      shippedSize text + redactionGrowth R (stripMarkers text) := by
  have idem : shippedSize (stripMarkers text) = shippedSize text := by
    unfold shippedSize stripMarkers
    rw [List.filter_filter]
    simp
  unfold redactBody redactText redactionGrowth
  rw [redactTextMarked_eq, ← idem, ← Pass.measure_applyAll shippedSize_append]
  rfl

section Quiet

variable {σ : Type} [Symbol σ]

/-- Characters of which no match is made. -/
def quiet (c : Char) : Bool := c.isLower || Pattern.oneOf "!<>\ufffd" c

/-- A class without small letters and the four signs is not quiet. -/
theorem not_quiet {test : Char → Bool} (signs : ∀ c ∈ "!<>\ufffd".toList, test c = false)
    (letters : ∀ c : Char, c.isLower = true → test c = false) {c : Char} (passes : test c = true) :
    (!quiet c) = true := by
  rw [Bool.not_eq_true', quiet, Bool.or_eq_false_iff]
  constructor
  · by_contra lower
    exact absurd passes (by simp [letters c (Bool.of_not_eq_false lower)])
  · by_contra sign
    have member := signs c (List.contains_iff_mem.mp (Bool.of_not_eq_false sign))
    exact absurd passes (by simp [member])

theorem toNat_of_isLower {c : Char} (lower : c.isLower = true) : c.toNat < 128 := by
  have last : c.val ≤ 122 := of_decide_eq_true (Bool.and_eq_true_iff.mp lower).2
  exact Nat.lt_of_le_of_lt (UInt32.le_iff_toNat_le.mp last) (by decide)

theorem not_quiet_whitespace (c : Char) (space : isWhitespace c = true) : (!quiet c) = true := by
  refine not_quiet (by decide) (fun c lower => ?_) space
  have small := toNat_of_isLower lower
  revert lower
  refine of_code_lt c small ?_
  decide +kernel

theorem not_quiet_upper (c : Char) (upper : c.isUpper = true) : (!quiet c) = true := by
  refine not_quiet (by decide) (fun c lower => ?_) upper
  have small := toNat_of_isLower lower
  revert lower
  refine of_code_lt c small ?_
  decide +kernel

theorem unmarked_of_quiet {c : Char} (silent : quiet c = true) : unmarked c = true := by
  unfold unmarked
  rw [Bool.and_eq_true, decide_eq_true_eq, decide_eq_true_eq]
  constructor <;>
  · rintro rfl
    exact absurd silent (by decide)

theorem not_quiet_oneOf {set : String} (away : ∀ c ∈ set.toList, (!quiet c) = true) (c : Char)
    (member : Pattern.oneOf set c = true) : (!quiet c) = true :=
  away c (List.contains_iff_mem.mp member)

namespace Pattern

theorem needs_quiet_lit {text : String} (some_ : ∃ c ∈ text.toList, (!quiet c) = true) :
    (lit text).Needs (fun c => !quiet c) := by
  obtain ⟨c, member, letter⟩ := some_
  exact needs_lit member letter

/-- Every pattern for personal data needs a character that is not quiet. -/
theorem needs_quiet_piiPatterns (R : Redactor) : ∀ pattern ∈ piiPatterns R,
    pattern.2.Needs (fun c => !quiet c) := by
  have digits : ∀ c, twoToNine c = true → (!quiet c) = true := not_quiet_oneOf (by decide)
  simp only [piiPatterns, List.forall_mem_cons, List.not_mem_nil, false_implies, implies_true,
    and_true]
  refine ⟨?_, ?_, ?_, ?_, ?_, ?_, ?_, ?_, ?_, ?_, ?_, ?_, ?_, ?_, ?_, ?_⟩
  · exact needs_cat (.head _) (needs_quiet_lit (by decide))
  · exact needs_cat (.tail _ (.tail _ (.tail _ (.head _)))) (needs_quiet_lit (by decide))
  · exact needs_cat (.tail _ (.tail _ (.tail _ (.head _)))) (needs_quiet_lit (by decide))
  · exact needs_cat (.tail _ (.tail _ (.head _))) (needs_quiet_lit (by decide))
  · exact needs_cat (.head _) (needs_quiet_lit (by decide))
  · exact needs_cat (.head _) (needs_quiet_lit (by decide))
  · exact needs_cat (.tail _ (.head _)) ⟨Nat.one_pos, not_quiet_whitespace⟩
  · exact needs_cat (.tail _ (.tail _ (.head _))) (needs_quiet_lit (by decide))
  · refine needs_cat (.tail _ (.head _)) ⟨?_, ?_, ?_, ?_⟩
    all_goals exact needs_cat (.head _) (needs_quiet_lit (by decide))
  · exact needs_cat (.tail _ (.tail _ (.head _))) (needs_quiet_lit (by decide))
  · exact needs_cat (.head _) (needs_quiet_lit (by decide))
  · exact needs_cat (.tail _ (.tail _ (.tail _ (.head _)))) digits
  · exact needs_cat (.tail _ (.head _)) ⟨by decide, not_quiet_upper⟩
  · exact needs_cat (.tail _ (.head _)) digits
  · exact needs_cat (.tail _ (.tail _ (.head _))) (needs_quiet_lit (by decide))
  · exact needs_cat (.tail _ (.tail _ (.tail _ (.tail _ (.tail _ (.tail _ (.head _)))))))
      (needs_quiet_lit (by decide))

end Pattern

/-- Every pass needs a character that is not quiet. -/
theorem needs_quiet_textRedactions (R : Redactor) :
    ∀ pass ∈ passesOf (textRedactions R : List (RedactionPass σ)),
      pass.pattern.Needs (fun c => !quiet c) := by
  intro pass member
  obtain ⟨redaction, listed, rfl⟩ := List.mem_map.mp member
  simp only [textRedactions, piiRedactions, List.mem_cons, List.mem_map] at listed
  rcases listed with rfl | rfl | rfl | rfl | rfl | ⟨pattern, known, rfl⟩
  · exact Pattern.needs_cat (.head _) (Pattern.needs_quiet_lit (by decide))
  · exact Pattern.needs_cat (.head _)
      (Pattern.needs_cat (.head _) (Pattern.needs_quiet_lit (by decide)))
  · exact Pattern.needs_cat (.head _) (Pattern.needs_quiet_lit (by decide))
  · exact Pattern.needs_cat (.tail _ (.tail _ (.head _))) (Pattern.needs_quiet_lit (by decide))
  · exact Pattern.needs_cat (.tail _ (.tail _ (.tail _ (.tail _ (.head _)))))
      (Pattern.needs_quiet_lit (by decide))
  · exact Pattern.needs_quiet_piiPatterns R pattern known

/-- A quiet text is left as it is. -/
theorem redactText_of_quiet (R : Redactor) {text : List σ}
    (silent : ∀ s ∈ text, quiet (Symbol.char s) = true) : redactText R text = text := by
  have free : stripMarkers text = text :=
    List.filter_eq_self.mpr fun s member => unmarked_of_quiet (silent s member)
  rw [redactText, redactTextMarked_eq, free,
    Pass.applyAll_of_needs (needs_quiet_textRedactions R) (by simpa using silent), free]

end Quiet

/-- Bytes that are no UTF-8. -/
def undecodable : Bytes := List.replicate 8192 0xFF

theorem fromUtf8Lossy_undecodable (count : Nat) :
    fromUtf8Lossy (List.replicate count 0xFF) = List.replicate count '\ufffd' := by
  have chars : ∀ fuel count : Nat, count ≤ fuel →
      utf8Chars fuel (List.replicate count 0xFF) = List.replicate count none := by
    intro fuel
    induction fuel with
    | zero =>
      intro count short
      rw [Nat.le_zero.mp short]
      rfl
    | succ fuel induction =>
      intro count short
      cases count with
      | zero => rfl
      | succ count =>
        rw [List.replicate_succ, List.replicate_succ, utf8Chars,
          ← induction count (Nat.le_of_succ_le_succ short)]
        rfl
  rw [fromUtf8Lossy, List.length_replicate, chars count count (Nat.le_refl _)]
  simp

/-- An element with a secret, up to its closing tag. -/
def openElement : Str := List.replicate 8176 '!' ++ str "<password>secret"

/-- A body in which the closing tag is behind the cut. -/
def cutElement : Bytes := utf8 (openElement ++ str "</password>")

theorem cappedText_cutElement : cappedText cutElement = openElement := by
  have length : (utf8 openElement).length = maxBodyCaptureBytes := by
    rw [length_utf8, openElement, strLen_append, strLen, List.map_replicate, List.sum_replicate]
    rfl
  rw [cappedText, cutElement, utf8_append, List.take_left' length, fromUtf8Lossy_utf8]

theorem char_of_mem_placed {text : Str} {s : Placed} (member : s ∈ placed text) : s.char ∈ text := by
  obtain ⟨i, -, found⟩ := place_of_mem_placed member
  exact List.mem_of_getElem? found

/-- What holds of the sign in front and of a short text holds of the whole. -/
theorem forall_mem_padded {good : Char → Prop} {count : Nat} {text : Str} (pad : good '!')
    (short : ∀ c ∈ text, good c) : ∀ c ∈ List.replicate count '!' ++ text, good c := by
  refine List.forall_mem_append.mpr ⟨fun c member => ?_, short⟩
  rwa [List.eq_of_mem_replicate member]

theorem redactBody_openElement :
    redactBody asciiRedactor (placed openElement) = placed openElement := by
  have silent : ∀ c ∈ openElement, quiet c = true := forall_mem_padded (by decide) (by decide)
  exact redactText_of_quiet asciiRedactor fun s member => silent _ (char_of_mem_placed member)

/-- The first letter of the secret. -/
def cutSecret : Placed := ⟨'s', some 8186⟩

/-- The whole element, behind the signs in front of it. -/
def wholeElement : List Placed :=
  ((str "<password>secret</password>").zipIdx 8176).map fun (c, i) => ⟨c, some i⟩

theorem placed_cutElement : placed (openElement ++ str "</password>") =
    placed (List.replicate 8176 '!') ++ wholeElement := by
  have split : openElement ++ str "</password>" =
      List.replicate 8176 '!' ++ str "<password>secret</password>" := by
    rw [openElement, List.append_assoc]
    rfl
  rw [split, placed, List.zipIdx_append, List.map_append, List.length_replicate]
  rfl

theorem xml_finds_cutSecret : ∃ entry ∈ (Pattern.xmlEl asciiRedactor).findsFrom Symbol.char 8176
    (some '!') wholeElement, cutSecret ∈ (xmlRedaction asciiRedactor).value [] entry.1 entry.2 := by
  decide +kernel

/-- The scanner comes to the element behind the signs. -/
theorem finds_cutElement : (Pattern.xmlEl asciiRedactor).finds Symbol.char
    (placed (openElement ++ str "</password>")) =
      (Pattern.xmlEl asciiRedactor).findsFrom Symbol.char 8176 (some '!') wholeElement := by
  have behind : Regex.before Symbol.char none (placed (List.replicate 8176 '!')) = some '!' := by
    have last := congrArg List.getLast? (chars_placed (List.replicate 8176 '!'))
    rw [chars, List.getLast?_map] at last
    rw [Regex.before, last, List.getLast?_replicate]
    rfl
  have dull : ∀ s ∈ placed (List.replicate 8176 '!'), ∀ prev rest,
      (Pattern.xmlEl asciiRedactor).first Symbol.char prev (s :: rest) = none := by
    intro s member
    refine Regex.first_seq_one_none ?_
    rw [show Symbol.char s = '!' from List.eq_of_mem_replicate (char_of_mem_placed member)]
    rfl
  rw [placed_cutElement, Regex.finds, Regex.findsFrom_append dull, behind]
  simp only [placed, List.length_map, List.length_zipIdx, List.length_replicate, Nat.zero_add]

/-- The passes in front of the one for elements. -/
def fieldRedactions (R : Redactor) : List (RedactionPass Placed) :=
  [pemRedaction, userinfoRedaction R, jsonRedaction R, formRedaction R]

theorem needs_fieldRedactions (R : Redactor) :
    ∀ redaction ∈ fieldRedactions R, redaction.pattern.Needs (Pattern.oneOf " :\"=") := by
  simp only [fieldRedactions, List.forall_mem_cons, List.not_mem_nil, false_implies, implies_true,
    and_true]
  refine ⟨?_, ?_, ?_, ?_⟩
  · exact Pattern.needs_cat (.head _) (Pattern.needs_lit (by decide : ' ' ∈ _) (by decide))
  · exact Pattern.needs_cat (.head _)
      (Pattern.needs_cat (.head _) (Pattern.needs_lit (by decide : ':' ∈ _) (by decide)))
  · exact Pattern.needs_cat (.head _) (Pattern.needs_lit (by decide : '"' ∈ _) (by decide))
  · exact Pattern.needs_cat (.tail _ (.tail _ (.head _)))
      (Pattern.needs_lit (by decide : '=' ∈ _) (by decide))

theorem inValue_cutSecret : InValue (textRedactions asciiRedactor)
    (stripMarkers (placed (openElement ++ str "</password>"))) cutSecret := by
  have known : ∀ c ∈ openElement ++ str "</password>",
      unmarked c = true ∧ Pattern.oneOf " :\"=" c = false := by
    rw [openElement, List.append_assoc]
    exact forall_mem_padded (by decide) (by decide)
  have free : stripMarkers (placed (openElement ++ str "</password>")) =
      placed (openElement ++ str "</password>") :=
    List.filter_eq_self.mpr fun s member => (known _ (char_of_mem_placed member)).1
  -- The four passes in front of the one for elements need a character that is not there.
  have unchanged : ∀ redaction ∈ fieldRedactions asciiRedactor,
      redaction.apply Symbol.char (placed (openElement ++ str "</password>")) =
        placed (openElement ++ str "</password>") := fun redaction member =>
    Pass.apply_of_needs (needs_fieldRedactions asciiRedactor redaction member)
      fun s inside => (known _ (char_of_mem_placed inside)).2
  simp only [fieldRedactions, List.forall_mem_cons, List.not_mem_nil, false_implies, implies_true,
    and_true] at unchanged
  rw [free]
  simp only [textRedactions, InValue, unchanged]
  right; right; right; right; left
  change ∃ entry ∈ (Pattern.xmlEl asciiRedactor).finds Symbol.char _, _
  rw [finds_cutElement]
  exact xml_finds_cutSecret

end ApiSensor
