import ApiSensor.Library.Passes
import ApiSensor.Redaction.Marks

/-!
# The passes of redaction

`redact_text` makes twenty-one passes over a text, five for values under sensitive names and sixteen
for values that look like personal data.  A character of the input survives exactly if no pass takes
it.
-/

namespace ApiSensor

open Library

section Passes

variable {σ : Type} [Symbol σ]

/-- A pass of redaction.  The value of a match is the part that a token stands for, and empty if the
match is left alone. -/
structure RedactionPass (σ : Type) extends Pass Char σ where
  value : List σ → Nat → Found σ → List σ

/-- Whether a pattern replaces a match. -/
def piiAccepts (piiType : PiiType) (text : List σ) (at_ : Nat) (found : Found σ) : Bool :=
  !overlaps (markedSpans (chars text)) at_ (at_ + found.taken.length) &&
    piiCheck piiType (chars found.taken)

def piiRedaction (R : Redactor) (pattern : PiiType × Regex Char) : RedactionPass σ where
  pattern := pattern.2
  replace text := piiReplace R pattern.1 (markedSpans (chars text))
  value text at_ found := if piiAccepts pattern.1 text at_ found then found.taken else []

def pemRedaction : RedactionPass σ where
  pattern := Pattern.pem
  replace _ _ _ := marked (str "PII_PRIVATE_KEY_REDACTED")
  value _ _ found := found.taken

def userinfoRedaction (R : Redactor) : RedactionPass σ where
  pattern := Pattern.urlUserinfo
  replace _ _ := userinfoReplace R
  value _ _ found := found.group 2

/-- Whether the value of a JSON field is replaced. -/
def hidesJson (R : Redactor) (c : Found σ) : Bool :=
  let val := c.group 2
  let canon := canonicalFieldName (chars (c.group 1)) false
  let inner := trimMatches (· == '"') val
  isSensitiveName R canon && !startsWith val '\x7b' && !startsWith val '[' && !isMarked val &&
    (startsWith val '"' || isStrongName R canon) && !inner.isEmpty && !isMarked inner

def jsonRedaction (R : Redactor) : RedactionPass σ where
  pattern := Pattern.jsonKv
  replace _ _ := jsonReplace R
  value _ _ found := if hidesJson R found then trimMatches (· == '"') (found.group 2) else []

def formRedaction (R : Redactor) : RedactionPass σ where
  pattern := Pattern.formKv
  replace _ _ := formReplace R
  value _ _ found := if hidesField R (found.group 2) (found.group 3) then found.group 3 else []

/-- Whether the text of an XML element is replaced. -/
def hidesXml (R : Redactor) (c : Found σ) : Bool :=
  let inner := trimMatches isWhitespace (c.group 2)
  chars (c.group 1) = chars (c.group 3) && isSensitiveName R (chars (c.group 1)) &&
    !inner.isEmpty && !isMarked inner

def xmlRedaction (R : Redactor) : RedactionPass σ where
  pattern := Pattern.xmlEl R
  replace _ _ := xmlReplace R
  value _ _ found := if hidesXml R found then trimMatches isWhitespace (found.group 2) else []

/-- The passes of `redact_pii`. -/
def piiRedactions (R : Redactor) : List (RedactionPass σ) := (piiPatterns R).map (piiRedaction R)

/-- The passes of `redact_text`. -/
def textRedactions (R : Redactor) : List (RedactionPass σ) :=
  pemRedaction :: userinfoRedaction R :: jsonRedaction R :: formRedaction R :: xmlRedaction R ::
    piiRedactions R

def passesOf (redactions : List (RedactionPass σ)) : List (Pass Char σ) :=
  redactions.map RedactionPass.toPass

section

variable (R : Redactor) (text : List σ)

theorem redactPiiMarked_eq :
    redactPiiMarked R text = Pass.applyAll Symbol.char (passesOf (piiRedactions R)) text := by
  unfold redactPiiMarked Pass.applyAll passesOf piiRedactions
  rw [List.foldl_map, List.foldl_map]
  rfl

theorem apply_pemRedaction :
    pemRedaction.apply Symbol.char text = scrubPem text := rfl

theorem apply_userinfoRedaction :
    (userinfoRedaction R).apply Symbol.char text = scrubUserinfo R text := rfl

theorem apply_jsonRedaction :
    (jsonRedaction R).apply Symbol.char text = scrubJson R text := rfl

theorem apply_formRedaction :
    (formRedaction R).apply Symbol.char text = scrubForm R text := rfl

theorem apply_xmlRedaction :
    (xmlRedaction R).apply Symbol.char text = scrubXml R text := rfl

end

omit [Symbol σ] in
theorem passesOf_cons (redaction : RedactionPass σ) (redactions : List (RedactionPass σ)) :
    passesOf (redaction :: redactions) = redaction.toPass :: passesOf redactions := rfl

theorem redactTextMarked_eq (R : Redactor) (text : List σ) :
    redactTextMarked R text = Pass.applyAll Symbol.char (passesOf (textRedactions R)) text := by
  rw [redactTextMarked, redactPiiMarked_eq, scrubSecrets, textRedactions]
  simp only [passesOf_cons, Pass.applyAll_cons, apply_pemRedaction, apply_userinfoRedaction,
    apply_jsonRedaction, apply_formRedaction, apply_xmlRedaction]

variable {s : σ} {R : Redactor}

variable {text : List σ}

theorem mem_of_mem_trimMatches {test : Char → Bool} (member : s ∈ trimMatches test text) :
    s ∈ text := by
  unfold trimMatches at member
  rw [List.mem_reverse] at member
  exact (List.dropWhile_suffix _).subset
    (List.mem_reverse.mp ((List.dropWhile_suffix _).subset member))

theorem mem_minted {text : Str} (member : s ∈ (minted text : List σ)) :
    ∃ c, s = Symbol.mint c :=
  (List.mem_map.mp member).imp fun _ made => made.2.symm

theorem jsonReplace_eq (R : Redactor) (c : Found σ) :
    jsonReplace R c = if hidesJson R c then
      c.taken.take (c.taken.length - (c.group 2).length) ++
        (minted (str "\"") ++ secretToken R (chars (trimMatches (· == '"') (c.group 2))) ++
          minted (str "\""))
      else c.taken := by
  unfold jsonReplace hidesJson
  dsimp only
  split_ifs <;> simp_all

theorem xmlReplace_eq (R : Redactor) (c : Found σ) :
    xmlReplace R c = if hidesXml R c then
      minted (str "<") ++ c.group 1 ++ minted (str ">") ++
        secretToken R (chars (trimMatches isWhitespace (c.group 2))) ++ minted (str "</") ++
        c.group 1 ++ minted (str ">")
      else c.taken := rfl

theorem piiReplace_eq (R : Redactor) (piiType : PiiType) (text : List σ) (at_ : Nat)
    (found : Found σ) :
    piiReplace R piiType (markedSpans (chars text)) at_ found =
      if piiAccepts piiType text at_ found then marked (piiToken R piiType (chars found.taken))
      else found.taken := by
  unfold piiReplace piiAccepts
  split_ifs <;> simp_all

/-- A replacement is made of what its match takes and of generated symbols. -/
theorem mem_replace {redaction : RedactionPass σ} (listed : redaction ∈ textRedactions R)
    {at_ : Nat} {found : Found σ} (groups : ∀ index, found.group index ⊆ found.taken)
    (member : s ∈ redaction.replace text at_ found) :
    s ∈ found.taken ∨ ∃ c, s = Symbol.mint c := by
  simp only [textRedactions, piiRedactions, List.mem_cons, List.mem_map] at listed
  rcases listed with rfl | rfl | rfl | rfl | rfl | ⟨pattern, -, rfl⟩
  · exact .inr (mem_minted member)
  · simp only [userinfoRedaction, userinfoReplace, List.mem_append] at member
    rcases member with (inside | made) | inside
    · exact .inl (groups 1 inside)
    · exact .inr (mem_minted made)
    · exact .inl (groups 3 inside)
  · simp only [jsonRedaction, jsonReplace_eq] at member
    split_ifs at member
    · simp only [List.mem_append] at member
      rcases member with inside | (made | made) | made
      · exact .inl (List.mem_of_mem_take inside)
      · exact .inr (mem_minted made)
      · exact .inr (mem_minted made)
      · exact .inr (mem_minted made)
    · exact .inl member
  · simp only [formRedaction, formReplace] at member
    split_ifs at member
    · simp only [List.mem_append] at member
      rcases member with ((inside | inside) | made) | made
      · exact .inl (groups 1 inside)
      · exact .inl (groups 2 inside)
      · exact .inr (mem_minted made)
      · exact .inr (mem_minted made)
    · exact .inl member
  · simp only [xmlRedaction, xmlReplace_eq] at member
    split_ifs at member
    · simp only [List.mem_append] at member
      rcases member with (((((made | inside) | made) | made) | made) | inside) | made
      · exact .inr (mem_minted made)
      · exact .inl (groups 1 inside)
      · exact .inr (mem_minted made)
      · exact .inr (mem_minted made)
      · exact .inr (mem_minted made)
      · exact .inl (groups 1 inside)
      · exact .inr (mem_minted made)
    · exact .inl member
  · simp only [piiRedaction, piiReplace_eq] at member
    split_ifs at member
    · exact .inr (mem_minted member)
    · exact .inl member

/-- In front of some pass the symbol stands only in matches whose replacements lack it. -/
def TakenBy (redactions : List (RedactionPass σ)) (text : List σ) (s : σ) : Prop :=
  ∃ stage ∈ Pass.stages Symbol.char (passesOf redactions) text, stage.1.Takes Symbol.char stage.2 s

/-- The symbol belongs to a value that some pass replaces. -/
def InValue : List (RedactionPass σ) → List σ → σ → Prop
  | [], _, _ => False
  | redaction :: redactions, text, s =>
    (∃ entry ∈ redaction.pattern.finds Symbol.char text,
        s ∈ redaction.value text entry.1 entry.2) ∨
      InValue redactions (redaction.apply Symbol.char text) s

theorem mem_applyAll_redactions {redactions : List (RedactionPass σ)}
    (listed : redactions ⊆ textRedactions R) (input : ∀ c, s ≠ Symbol.mint c) :
    s ∈ Pass.applyAll Symbol.char (passesOf redactions) text ↔
      s ∈ text ∧ ¬ TakenBy redactions text s := by
  rw [Pass.mem_applyAll_iff, TakenBy]
  · simp only [not_exists, not_and]
  · intro pass member text entry found made
    obtain ⟨redaction, known, rfl⟩ := List.mem_map.mp member
    refine (mem_replace (listed known) (Pass.group_subset_of_mem_finds found) made).resolve_right ?_
    rintro ⟨c, same⟩
    exact input c same

/-- The value of a match is part of it. -/
theorem value_subset {redaction : RedactionPass σ} (listed : redaction ∈ textRedactions R)
    {at_ : Nat} {found : Found σ} (groups : ∀ index, found.group index ⊆ found.taken) :
    redaction.value text at_ found ⊆ found.taken := by
  simp only [textRedactions, piiRedactions, List.mem_cons, List.mem_map] at listed
  intro s member
  rcases listed with rfl | rfl | rfl | rfl | rfl | ⟨pattern, -, rfl⟩
  · exact member
  · exact groups 2 member
  · simp only [jsonRedaction] at member
    split_ifs at member
    · exact groups 2 (mem_of_mem_trimMatches member)
    · cases member
  · simp only [formRedaction] at member
    split_ifs at member
    · exact groups 3 member
    · cases member
  · simp only [xmlRedaction] at member
    split_ifs at member
    · exact groups 2 (mem_of_mem_trimMatches member)
    · cases member
  · simp only [piiRedaction] at member
    split_ifs at member
    · exact member
    · cases member

theorem mem_of_inValue {redactions : List (RedactionPass σ)}
    (listed : redactions ⊆ textRedactions R) (input : ∀ c, s ≠ Symbol.mint c)
    (inside : InValue redactions text s) : s ∈ text := by
  induction redactions generalizing text with
  | nil => exact inside.elim
  | cons redaction redactions induction =>
    rw [List.cons_subset] at listed
    rcases inside with ⟨entry, found, member⟩ | later
    · have taken := value_subset listed.1 (Pass.group_subset_of_mem_finds found) member
      exact Regex.mem_iff_outside_or_taken.mpr (.inr ⟨entry, found, taken⟩)
    · have single : [redaction] ⊆ textRedactions R := by simpa using listed.1
      have before := induction listed.2 later
      exact ((mem_applyAll_redactions single input).mp before).1

theorem mem_stripMarkers_iff :
    s ∈ stripMarkers text ↔ s ∈ text ∧ unmarked (Symbol.char s) = true := List.mem_filter

/-- A character of the input is in the redacted text unless some pass takes it. -/
theorem mem_redactText_iff (input : ∀ c, s ≠ Symbol.mint c) :
    s ∈ redactText R text ↔
      s ∈ stripMarkers text ∧ ¬ TakenBy (textRedactions R) (stripMarkers text) s := by
  rw [redactText, redactTextMarked_eq, mem_stripMarkers_iff,
    mem_applyAll_redactions (List.Subset.refl _) input]
  exact ⟨And.left, fun both => ⟨both, (mem_stripMarkers_iff.mp both.1).2⟩⟩

end Passes

/-! ## Places -/

/-- A character with its place in the input; generated characters have none. -/
structure Placed where
  char : Char
  place : Option Nat
  deriving DecidableEq

instance : Symbol Placed where
  char := Placed.char
  mint c := ⟨c, none⟩
  char_mint _ := rfl

/-- A text in which every character knows its place. -/
def placed (text : Str) : List Placed := text.zipIdx.map fun (c, i) => ⟨c, some i⟩

theorem place_of_mem_placed {text : Str} {s : Placed} (member : s ∈ placed text) :
    ∃ i, s.place = some i ∧ text[i]? = some s.char := by
  obtain ⟨⟨c, i⟩, found, rfl⟩ := List.mem_map.mp member
  exact ⟨i, rfl, List.mk_mem_zipIdx_iff_getElem?.mp found⟩

theorem ne_mint_of_mem_placed {text : Str} {s : Placed} (member : s ∈ placed text) (c : Char) :
    s ≠ Symbol.mint c := by
  obtain ⟨i, place, -⟩ := place_of_mem_placed member
  rintro rfl
  cases place

theorem chars_placed (text : Str) : chars (placed text) = text := by
  unfold chars placed
  rw [List.map_map]
  exact List.zipIdx_map_fst 0 text

end ApiSensor
