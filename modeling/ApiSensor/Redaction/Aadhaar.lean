import ApiSensor.Redaction.Coverage

/-!
# Aadhaar numbers

Candidates are found from the left and do not overlap; only then the check digit is looked at.  If the
scanner comes to a match that begins with a valid number, the match is that number and it is hidden.
A candidate in front that reaches into the number keeps the scanner from coming to it.
-/

namespace ApiSensor

open Library

/-- Twelve digits in groups of four, with a valid check digit. -/
structure AadhaarNumber where
  first : Str
  gap : Option Char
  second : Str
  gap' : Option Char
  third : Str
  digits : ∀ c ∈ first ++ second ++ third, c.isDigit = true
  four : first.length = 4 ∧ second.length = 4 ∧ third.length = 4
  sign : ∀ c, c ∈ gap ∨ c ∈ gap' → c = ' ' ∨ c = '-'
  leading : first.head?.any Pattern.twoToNine = true
  valid : verhoeffValid (first ++ second ++ third) = true

namespace AadhaarNumber

def text (number : AadhaarNumber) : Str :=
  number.first ++ (number.gap.toList ++ (number.second ++ (number.gap'.toList ++ number.third)))

end AadhaarNumber

/-- The number stands in the text between word boundaries. -/
structure AadhaarIn (R : Redactor) (text front : Str) (number : AadhaarNumber) (back : Str) : Prop where
  split : text = front ++ (number.text ++ back)
  before : front.getLast?.any R.isWord = false
  behind : back.head?.any R.isWord = false

/-- At its turn the pattern for Aadhaar numbers comes to a match that begins at a place. -/
def AadhaarReached (R : Redactor) (text : Str) (place : Nat) : Prop :=
  ∃ stage ∈ piiStages R (piiPatterns R) (stripMarkers (placed text)), stage.1.1 = .aadhaar ∧
    ∃ entry ∈ stage.1.2.finds Symbol.char stage.2,
      ∃ s ∈ entry.2.taken.head?, s.place = some place

instance (R : Redactor) (text : Str) (place : Nat) : Decidable (AadhaarReached R text place) :=
  inferInstanceAs (Decidable (∃ stage ∈ piiStages R (piiPatterns R) (stripMarkers (placed text)), _))

/-! ## What the pattern matches -/

section Shape

variable {σ : Type} [Symbol σ] {R : Redactor}

/-- The parts of a match. -/
structure AadhaarShape (R : Redactor) (taken : List σ) (first gap second gap' third : List σ) :
    Prop where
  split : taken = first ++ (gap ++ (second ++ (gap' ++ third)))
  digits : ∀ s ∈ first ++ second ++ third, R.isDigit (Symbol.char s) = true
  four : first.length = 4 ∧ second.length = 4 ∧ third.length = 4
  short : gap.length ≤ 1 ∧ gap'.length ≤ 1
  sign : ∀ s ∈ gap ++ gap',
    (isWhitespace (Symbol.char s) || Pattern.oneOf "-" (Symbol.char s)) = true

theorem isDigit_of_twoToNine {c : Char} (digit : Pattern.twoToNine c = true) :
    R.isDigit c = true := by
  have listed : c ∈ "23456789".toList := List.contains_iff_mem.mp digit
  have ascii : ∀ c ∈ "23456789".toList, c.toNat < 128 ∧ c.isDigit = true := by decide
  rw [R.isDigit_ascii c (ascii c listed).1, (ascii c listed).2]

theorem aadhaarShape {prev : Option Char} {text : List σ} {found : Found σ}
    (matched : Regex.Matches Symbol.char (Pattern.aadhaar R) prev text found) :
    ∃ first gap second gap' third, AadhaarShape R found.taken first gap second gap' third := by
  have digits : ∀ {count prev} {text : List σ} {found : Found σ},
      Regex.Matches Symbol.char (Pattern.exactly count R.isDigit) prev text found →
        found.taken.length = count ∧ ∀ s ∈ found.taken, R.isDigit (Symbol.char s) = true := by
    intro count prev text found matched
    obtain ⟨enough, bounded⟩ := matched.length_class
    exact ⟨Nat.le_antisymm bounded enough, matched.letters fun _ passes => passes⟩
  have gaps : ∀ {prev} {text : List σ} {found : Found σ}, Regex.Matches Symbol.char
      (Pattern.opt (.one fun c => isWhitespace c || Pattern.oneOf "-" c)) prev text found →
        found.taken.length ≤ 1 ∧ ∀ s ∈ found.taken,
          (isWhitespace (Symbol.char s) || Pattern.oneOf "-" (Symbol.char s)) = true := by
    intro prev text found matched
    cases matched with
    | altLeft left =>
      cases left with
      | one passes => exact ⟨Nat.le_refl 1, by simpa using passes⟩
    | altRight right =>
      cases right with
      | empty => exact ⟨Nat.zero_le 1, nofun⟩
  cases matched with
  | seq boundary matched => cases boundary with
  | look _ => cases matched with
  | seq lead matched => cases matched with
  | @seq _ _ _ _ first _ three matched => cases matched with
  | @seq _ _ _ _ gap _ sign matched => cases matched with
  | @seq _ _ _ _ second _ four matched => cases matched with
  | @seq _ _ _ _ gap' _ sign' matched => cases matched with
  | @seq _ _ _ _ third _ four' boundary => cases boundary with
  | look _ => cases lead with
  | @one _ _ s _ passes =>
    refine ⟨s :: first.taken, gap.taken, second.taken, gap'.taken, third.taken, ?_, ?_, ?_,
      ⟨(gaps sign).1, (gaps sign').1⟩, List.forall_mem_append.mpr ⟨(gaps sign).2, (gaps sign').2⟩⟩
    · simp [Found.andThen, Found.nothing]
    · rw [List.cons_append, List.cons_append, List.forall_mem_cons, List.forall_mem_append,
        List.forall_mem_append]
      exact ⟨isDigit_of_twoToNine passes, ⟨(digits three).2, (digits four).2⟩, (digits four').2⟩
    · exact ⟨congrArg (· + 1) (digits three).1, (digits four).1, (digits four').1⟩

end Shape

/-! ## The match at a number -/

/-- Gaps of at most one symbol are the same if no symbol of a gap is one of the group behind the
other gap. -/
theorem gap_unique {σ : Type} {gap gap' group group' rest rest' : List σ} (short : gap.length ≤ 1)
    (short' : gap'.length ≤ 1) (some_ : group ≠ []) (some' : group' ≠ [])
    (apart : ∀ s ∈ gap, s ∉ group') (apart' : ∀ s ∈ gap', s ∉ group)
    (same : gap ++ (group ++ rest) = gap' ++ (group' ++ rest')) : gap = gap' := by
  have single : ∀ {gap : List σ}, gap.length ≤ 1 → gap = [] ∨ ∃ s, gap = [s] := by
    intro gap short
    match gap, short with
    | [], _ => exact .inl rfl
    | [s], _ => exact .inr ⟨s, rfl⟩
  obtain ⟨d, group, rfl⟩ := List.exists_cons_of_ne_nil some_
  obtain ⟨d', group', rfl⟩ := List.exists_cons_of_ne_nil some'
  rcases single short with rfl | ⟨s, rfl⟩ <;> rcases single short' with rfl | ⟨s', rfl⟩
  · rfl
  · obtain ⟨rfl, -⟩ := List.cons_eq_cons.mp same
    exact absurd List.mem_cons_self (apart' d List.mem_cons_self)
  · obtain ⟨rfl, -⟩ := List.cons_eq_cons.mp same
    exact absurd List.mem_cons_self (apart s List.mem_cons_self)
  · rw [(List.cons_eq_cons.mp same).1]

section Unique

variable {R : Redactor} {number : AadhaarNumber} {at_ : Nat}

theorem forall_mem_placedFrom {good : Char → Prop} {text : Str} (holds : ∀ c ∈ text, good c) :
    ∀ s ∈ placedFrom at_ text, good s.char :=
  forall_mem_chars.mp ((chars_placedFrom at_ text).symm ▸ holds)

theorem length_placedFrom (text : Str) : (placedFrom at_ text).length = text.length := by
  rw [← length_chars, chars_placedFrom]

theorem not_digit_of_sign {c : Char} (sign : c = ' ' ∨ c = '-') : R.isDigit c = false := by
  rcases sign with rfl | rfl
  · exact R.isDigit_ascii ' ' (by decide)
  · exact R.isDigit_ascii '-' (by decide)

theorem not_sign_of_digit {c : Char} (digit : c.isDigit = true) :
    (isWhitespace c || Pattern.oneOf "-" c) = false := by
  have token : generated c = true := by simp [generated, tokenChar, Char.isAlphanum, digit]
  have noDash : Pattern.oneOf "-" c = false := by
    refine Bool.eq_false_iff.mpr fun dash => ?_
    rw [List.mem_singleton.mp (List.contains_iff_mem.mp dash)] at digit
    exact absurd digit (by decide)
  rw [spaceless_generated token, noDash]
  rfl

/-- A match at a number is the number. -/
theorem AadhaarNumber.taken_eq {taken rest back first gap second gap' third : List Placed}
    (shape : AadhaarShape R taken first gap second gap' third)
    (same : taken ++ rest = placedFrom at_ number.text ++ back) :
    taken = placedFrom at_ number.text := by
  obtain ⟨⟨firsts, seconds⟩, thirds⟩ := by
    simpa only [List.forall_mem_append] using number.digits
  obtain ⟨⟨-, seconds'⟩, thirds'⟩ := by
    simpa only [List.forall_mem_append] using shape.digits
  obtain ⟨signs', laterSigns'⟩ := List.forall_mem_append.mp shape.sign
  obtain ⟨four, four', four''⟩ := number.four
  have short : ∀ gap : Option Char, gap.toList.length ≤ 1 := by
    rintro (_ | c)
    · exact Nat.zero_le 1
    · exact Nat.le_refl 1
  have signs : ∀ c ∈ number.gap.toList, c = ' ' ∨ c = '-' := fun c member =>
    number.sign c (.inl (Option.mem_toList.mp member))
  have laterSigns : ∀ c ∈ number.gap'.toList, c = ' ' ∨ c = '-' := fun c member =>
    number.sign c (.inr (Option.mem_toList.mp member))
  -- a group of the one cannot begin where a gap of the other stands
  have apart : ∀ {gap : List Placed} {group : Str} {place : Nat},
      (∀ s ∈ gap, (isWhitespace s.char || Pattern.oneOf "-" s.char) = true) →
        (∀ c ∈ group, c.isDigit = true) → ∀ s ∈ gap, s ∉ placedFrom place group := by
    intro gap group place signs digits s sign member
    have digit := forall_mem_placedFrom digits s member
    exact absurd (signs s sign) (by simp [not_sign_of_digit digit])
  have apart' : ∀ {gap : Str} {group : List Placed} {place : Nat},
      (∀ c ∈ gap, c = ' ' ∨ c = '-') → (∀ s ∈ group, R.isDigit s.char = true) →
        ∀ s ∈ placedFrom place gap, s ∉ group := by
    intro gap group place signs digits s sign member
    have sign := forall_mem_placedFrom signs s sign
    exact absurd (digits s member) (by simp [not_digit_of_sign sign])
  rw [shape.split] at same ⊢
  simp only [AadhaarNumber.text, placedFrom_append, List.append_assoc] at same ⊢
  have length : ∀ {group : List Placed} {digits : Str} {place : Nat}, group.length = 4 →
      digits.length = 4 → group.length = (placedFrom place digits).length :=
    fun here there => here.trans ((length_placedFrom _).trans there).symm
  have some_ : ∀ {group : List Placed}, group.length = 4 → group ≠ [] := by
    rintro _ four rfl
    cases four
  have some' : ∀ {digits : Str} {place : Nat}, digits.length = 4 → placedFrom place digits ≠ [] :=
    fun four => some_ ((length_placedFrom _).trans four)
  obtain ⟨one, same⟩ := List.append_inj same (length shape.four.1 four)
  have two := gap_unique shape.short.1 ((length_placedFrom _).trans_le (short _))
    (some_ shape.four.2.1) (some' four') (apart signs' seconds) (apart' signs seconds') same
  rw [two] at same
  obtain ⟨three, same⟩ :=
    List.append_inj (List.append_cancel_left same) (length shape.four.2.1 four')
  have four_ := gap_unique shape.short.2 ((length_placedFrom _).trans_le (short _))
    (some_ shape.four.2.2) (some' four'') (apart laterSigns' thirds) (apart' laterSigns thirds') same
  rw [four_] at same
  obtain ⟨five, -⟩ :=
    List.append_inj (List.append_cancel_left same) (length shape.four.2.2 four'')
  rw [one, two, three, four_, five]

end Unique

/-! ## Numbers that the scanner comes to -/

section Reached

variable {R : Redactor} {text front back : Str} {number : AadhaarNumber}

theorem aadhaar_of_mem_piiPatterns : ∀ pattern ∈ piiPatterns R,
    pattern.1 = .aadhaar → pattern.2 = Pattern.aadhaar R := by
  simp [piiPatterns]

namespace AadhaarNumber

theorem unmarked_text : ∀ c ∈ number.text, unmarked c = true := by
  have digit : ∀ {c : Char}, c.isDigit = true → unmarked c = true := fun {c} digit =>
    unmarked_of_tokenChar (by simp [tokenChar, Char.isAlphanum, digit])
  have sign : ∀ {c : Char}, c = ' ' ∨ c = '-' → unmarked c = true := by
    rintro c (rfl | rfl)
    · decide
    · decide
  obtain ⟨⟨firsts, seconds⟩, thirds⟩ := by
    simpa only [List.forall_mem_append] using number.digits
  simp only [text, List.forall_mem_append, Option.mem_toList]
  exact ⟨fun c member => digit (firsts c member), fun c member => sign (number.sign c (.inl member)),
    fun c member => digit (seconds c member), fun c member => sign (number.sign c (.inr member)),
    fun c member => digit (thirds c member)⟩

/-- The signs between the groups do not count for the check digit. -/
theorem verhoeffValid_text : verhoeffValid number.text = true := by
  have none_ : ∀ gap : Option Char, (∀ c ∈ gap, c = ' ' ∨ c = '-') →
      gap.toList.filterMap (digit? 10) = [] := by
    rintro (_ | c) signs
    · rfl
    · rcases signs c rfl with rfl | rfl
      · rfl
      · rfl
  have same : number.text.filterMap (digit? 10) =
      (number.first ++ number.second ++ number.third).filterMap (digit? 10) := by
    simp only [text, List.filterMap_append, none_ _ fun c member => number.sign c (.inl member),
      none_ _ fun c member => number.sign c (.inr member), List.nil_append, List.append_assoc]
  rw [verhoeffValid, same]
  exact number.valid

theorem exists_text_eq_cons (number : AadhaarNumber) : ∃ c rest, number.text = c :: rest := by
  cases digits : number.first with
  | nil => simpa [digits] using number.four.1
  | cons c rest => exact ⟨c, _, by rw [text, digits]; rfl⟩

end AadhaarNumber

theorem AadhaarIn.stripped (here : AadhaarIn R text front number back) :
    stripMarkers (placed text) = stripMarkers (placed front) ++
      (placedFrom front.length number.text ++
        stripMarkers (placedFrom (front.length + number.text.length) back)) := by
  have whole : stripMarkers (placedFrom front.length number.text) =
      placedFrom front.length number.text :=
    List.filter_eq_self.mpr (forall_mem_placedFrom number.unmarked_text)
  rw [here.split, placed_append, placedFrom_append, stripMarkers_append, stripMarkers_append, whole]

theorem eq_of_place {s t : Placed} (member : s ∈ placed text) (member' : t ∈ placed text)
    (same : s.place = t.place) : s = t := by
  obtain ⟨i, place, char⟩ := place_of_mem_placed member
  obtain ⟨j, place', char'⟩ := place_of_mem_placed member'
  cases s
  cases t
  simp_all

theorem unmarked_of_piiLetter {c : Char} (letter : Pattern.piiLetter R c = true) :
    unmarked c = true := by
  have notOpen : c ≠ markOpen := by
    rintro rfl
    simp [(separates_markOpen R).noLetter] at letter
  have notClose : c ≠ markClose := by
    rintro rfl
    simp [(separates_markClose R).noLetter] at letter
  simp [unmarked, notOpen, notClose]

/-- A match in the input that begins where a number begins is the number. -/
theorem AadhaarIn.taken_eq_of_split (here : AadhaarIn R text front number back)
    {prev : Option Char} {left right : List Placed} {found : Found Placed} {s : Placed}
    (matched : Regex.Matches Symbol.char (Pattern.aadhaar R) prev (found.taken ++ found.rest) found)
    (head : s ∈ found.taken.head?) (place : s.place = some front.length)
    (whole : stripMarkers (placed text) = left ++ (found.taken ++ right)) :
    found.taken = placedFrom front.length number.text := by
  obtain ⟨tail, taken⟩ := List.head?_eq_some_iff.mp head
  obtain ⟨c, rest, first⟩ := number.exists_text_eq_cons
  have begins : placedFrom front.length number.text =
      ⟨c, some front.length⟩ :: placedFrom (front.length + 1) rest := by
    rw [first]
    rfl
  have same : s = ⟨c, some front.length⟩ := by
    have kept : s ∈ stripMarkers (placed text) := by
      rw [whole, taken]
      simp
    have there : ⟨c, some front.length⟩ ∈ placed text :=
      here.split ▸ mem_placed_of_mem_block (begins ▸ List.mem_cons_self)
    exact eq_of_place (mem_stripMarkers_iff.mp kept).1 there place
  have nodup : (stripMarkers (placed text)).Nodup := (nodup_placed text).filter _
  have split := here.stripped
  rw [begins] at split
  have both := whole.symm.trans split
  rw [whole, taken, List.cons_append, List.nodup_middle, List.nodup_cons, List.mem_append, not_or,
    same] at nodup
  rw [taken, List.cons_append, same] at both
  obtain ⟨-, -, behind⟩ := (List.append_cons_inj_of_notMem nodup.1.1 nodup.1.2).mp both
  obtain ⟨_, _, _, _, _, shape⟩ := aadhaarShape matched
  have from_ : found.taken ++ right = placedFrom front.length number.text ++
      stripMarkers (placedFrom (front.length + number.text.length) back) := by
    rw [taken, begins, same, List.cons_append, List.cons_append]
    exact congrArg _ behind
  exact AadhaarNumber.taken_eq shape from_

theorem AadhaarIn.hidden_of_reached (here : AadhaarIn R text front number back)
    (reached : AadhaarReached R text front.length) :
    ∀ s ∈ placedFrom front.length number.text,
      HiddenByPattern R (stripMarkers (placed text)) s := by
  obtain ⟨⟨⟨kind, pattern⟩, now⟩, listed, rfl, ⟨at_, found⟩, member, s, head, place⟩ := reached
  have start : Tokenised (stripMarkers (placed text)) (stripMarkers (placed text)) :=
    .of_input input_of_mem_stripMarkers_placed
  obtain ⟨known, made⟩ := tokenised_of_mem_piiStages start listed
  cases aadhaar_of_mem_piiPatterns _ known rfl
  obtain ⟨skipped, prev, split, at_eq, first, -⟩ := Regex.exists_of_mem_findsFrom member
  obtain ⟨matched, something⟩ := Regex.first_eq_some first
  have free : ∀ s ∈ found.taken, unmarked s.char = true := fun s taken =>
    unmarked_of_piiLetter (matched.letters (Pattern.words_aadhaar R).within s taken)
  -- the match begins with a symbol of the input and has no marker, so all of it is input
  have begins : Input s := by
    refine ⟨fun c minted => ?_, free s (List.mem_of_mem_head? head)⟩
    rw [minted] at place
    cases place
  have input : ∀ s ∈ found.taken, Input s := by
    obtain ⟨tail, taken⟩ := List.head?_eq_some_iff.mp head
    rw [split, taken] at made
    obtain ⟨_, _, -, -, behind⟩ := made.split begins
    rw [taken] at free ⊢
    exact List.forall_mem_cons.mpr ⟨begins, behind.input_of_unmarked (List.forall_mem_cons.mp free).2⟩
  have clear := (split ▸ made).not_overlaps input something
  rw [← split] at clear
  obtain ⟨left, right, whole, -, -⟩ := (split ▸ made).split_block input something
  have taken := here.taken_eq_of_split matched head place whole
  have accepted : piiAccepts .aadhaar now at_ found = true := by
    have at_eq : at_ = skipped.length := at_eq.trans (Nat.zero_add _)
    rw [piiAccepts, at_eq, clear, taken, chars_placedFrom]
    exact number.verhoeffValid_text
  rw [← taken]
  exact fun s inside => ⟨_, listed, (at_, found), member, inside, accepted⟩

end Reached

/-- The number `2345 6789 0124`. -/
def AadhaarNumber.sample : AadhaarNumber where
  first := str "2345"
  gap := some ' '
  second := str "6789"
  gap' := some ' '
  third := str "0124"
  digits := by decide
  four := by decide
  sign := by
    rintro c (member | member)
    · exact .inl (Option.some.inj member).symm
    · exact .inl (Option.some.inj member).symm
  leading := by decide
  valid := by decide

end ApiSensor
