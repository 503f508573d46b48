import ApiSensor.Library.Neighbours
import ApiSensor.Redaction.Coverage

/-!
# Private keys

The pattern for private keys is the eleventh.  A pattern in front of it that finds something inside a
block leaves a token there, and the match for the block is then given up.  No other pattern takes the
blank of a `BEGIN` line, so a block is replaced only if the pattern for private keys comes to a match
with that blank which meets no token.
-/

namespace ApiSensor

open Library

/-! ## Blanks behind an `N` -/

section Blank

variable {R : Redactor} {front middle back : Prop}

/-- In the matches of an expression, a blank stands behind something other than an `N`. -/
def BlankLed (r : Regex Char) (front back : Prop) : Prop := r.Leads (· = ' ') (· ≠ 'N') front back

theorem blankLed_one {test : Char → Bool} (blank : test ' ' = true → front)
    (letter : back → test 'N' = false) : BlankLed (.one test) front back := by
  refine And.intro ?_ ?_
  · rintro _ passes rfl
    exact blank passes
  · rintro holds _ passes rfl
    exact Bool.false_ne_true ((letter holds).symm.trans passes)

theorem blankLed_opt {r : Regex Char} (led : BlankLed r front back) (through : back → front) :
    BlankLed (Pattern.opt r) front back := And.intro led through

/-- A class without blank and without `N`. -/
theorem blankLed_between {test : Char → Bool} {least most : Nat} (blank : test ' ' = false)
    (letter : test 'N' = false) (some_ : 0 < least) :
    BlankLed (Pattern.between least most test) front back := by
  have body : BlankLed (.one test) False True :=
    blankLed_one (fun passes => Bool.false_ne_true (blank.symm.trans passes)) fun _ => letter
  exact Exists.intro False ⟨True, body, False.elim, False.elim, fun _ => trivial,
    fun _ => .inl some_⟩

theorem blankLed_cat {first second : Regex Char} {rest : List (Regex Char)}
    (here : BlankLed first front middle) (later : BlankLed (Pattern.cat (second :: rest)) middle back) :
    BlankLed (Pattern.cat (first :: second :: rest)) front back := Exists.intro middle ⟨here, later⟩

theorem isDigit_blank : R.isDigit ' ' = false := R.isDigit_ascii ' ' (by decide)

theorem isDigit_upper : R.isDigit 'N' = false := R.isDigit_ascii 'N' (by decide)

theorem blankLed_wordBoundary : BlankLed (Pattern.wordBoundary R) False False := id

theorem blankLed_digits {count : Nat} (some_ : 0 < count) :
    BlankLed (Pattern.exactly count R.isDigit) front back :=
  blankLed_between isDigit_blank isDigit_upper some_

theorem blankLed_of_avoids {r : Regex Char} (avoids : r.Avoids ' ') : BlankLed r False False :=
  Regex.leads_of_avoids avoids False

theorem blankLed_bearerToken : BlankLed Pattern.bearerToken False False := by
  have last : BlankLed (.one (·.toLower == 'r')) False True :=
    blankLed_one (by decide) fun _ => by decide
  have word : BlankLed (Pattern.litNoCase "bearer") False True :=
    blankLed_cat (blankLed_of_avoids (by decide)) <| blankLed_cat (blankLed_of_avoids (by decide)) <|
    blankLed_cat (blankLed_of_avoids (by decide)) <| blankLed_cat (blankLed_of_avoids (by decide)) <|
    blankLed_cat (blankLed_of_avoids (by decide)) last
  have spaces : BlankLed (Pattern.atLeast 1 isWhitespace) True False := by
    have space : BlankLed (.one isWhitespace) True True :=
      blankLed_one (fun _ => trivial) fun _ => by decide
    exact Exists.intro True ⟨True, space, id, id, False.elim, False.elim⟩
  exact blankLed_cat word (blankLed_cat spaces (blankLed_of_avoids (by decide)))

theorem blankLed_aadhaar : BlankLed (Pattern.aadhaar R) False False := by
  have separator : BlankLed (Pattern.opt (.one fun c => isWhitespace c || Pattern.oneOf "-" c))
      True False := blankLed_opt (blankLed_one (fun _ => trivial) False.elim) False.elim
  have first : BlankLed (.one Pattern.twoToNine) False False :=
    blankLed_one (by decide) False.elim
  exact blankLed_cat blankLed_wordBoundary <| blankLed_cat first <|
    blankLed_cat (blankLed_digits (by decide)) <| blankLed_cat separator <|
    blankLed_cat (blankLed_digits (by decide)) <| blankLed_cat separator <|
    blankLed_cat (blankLed_digits (by decide)) blankLed_wordBoundary

theorem blankLed_phone : BlankLed (Pattern.phone R) False False := by
  have separator : BlankLed (.one fun c => Pattern.oneOf "-." c || isWhitespace c) True False :=
    blankLed_one (fun _ => trivial) False.elim
  have code : BlankLed (Pattern.lit "+1") False True :=
    blankLed_cat (blankLed_of_avoids (by decide)) (blankLed_one (by decide) fun _ => by decide)
  have opening : BlankLed (Pattern.opt (Pattern.lit "(")) False False :=
    blankLed_opt (blankLed_of_avoids (by decide)) id
  have closing : BlankLed (Pattern.opt (Pattern.lit ")")) True True :=
    blankLed_opt (blankLed_one (fun _ => trivial) fun _ => by decide) id
  have first : BlankLed (.one Pattern.twoToNine) False False := blankLed_of_avoids (by decide)
  exact blankLed_cat blankLed_wordBoundary <|
    blankLed_cat (blankLed_opt (blankLed_cat code (blankLed_opt separator False.elim)) id) <|
    blankLed_cat opening <| blankLed_cat first <| blankLed_cat (blankLed_digits (by decide)) <|
    blankLed_cat closing <| blankLed_cat separator <| blankLed_cat first <|
    blankLed_cat (blankLed_digits (by decide)) <| blankLed_cat separator <|
    blankLed_cat (blankLed_digits (by decide)) blankLed_wordBoundary

theorem avoids_ssn : (Pattern.ssn R).Avoids ' ' :=
  And.intro trivial <| And.intro isDigit_blank <| And.intro rfl <| And.intro isDigit_blank <|
    And.intro rfl <| And.intro isDigit_blank trivial

theorem avoids_gstin : (Pattern.gstin R).Avoids ' ' :=
  And.intro trivial <| And.intro isDigit_blank <| And.intro rfl <| And.intro isDigit_blank <|
    And.intro rfl <| And.intro isDigit_blank <| And.intro rfl <| And.intro isDigit_blank trivial

/-- Only the pattern for private keys takes a blank behind an `N`. -/
theorem blankLed_piiPatterns (R : Redactor) : ∀ pattern ∈ piiPatterns R,
    pattern.1 ≠ .privateKey → BlankLed pattern.2 False False := by
  simp only [piiPatterns, List.forall_mem_cons, List.not_mem_nil, false_implies, implies_true,
    and_true]
  have avoids : ∀ {r : Regex Char}, decide (r.Avoids ' ') = true → BlankLed r False False :=
    fun checked => blankLed_of_avoids (of_decide_eq_true checked)
  exact ⟨fun _ => avoids rfl, fun _ => avoids rfl, fun _ => avoids rfl, fun _ => avoids rfl,
    fun _ => avoids rfl, fun _ => avoids rfl, fun _ => blankLed_bearerToken, fun _ => avoids rfl,
    fun _ => avoids rfl, fun _ => blankLed_of_avoids avoids_ssn, fun other => absurd rfl other,
    fun _ => blankLed_phone, fun _ => avoids rfl, fun _ => blankLed_aadhaar, fun _ => avoids rfl,
    fun _ => blankLed_of_avoids avoids_gstin⟩

end Blank

/-! ## Blocks -/

/-- A block of the text that the pattern for private keys matches. -/
structure PrivateKeyIn (text front block back : Str) : Prop where
  split : text = front ++ (block ++ back)
  matched : ∃ found, Pattern.pem.first Symbol.char (Regex.before Symbol.char none front)
    (block ++ back) = some found ∧ found.taken = block

/-- The blank of the `BEGIN` line of a block. -/
def beginBlank (front : Str) : Placed := ⟨' ', some (front.length + 10)⟩

/-- At its turn the pattern for private keys comes to a match with the blank of the `BEGIN` line
which meets no token, and the rest of the block is in that match or in what a pattern replaces. -/
def BlockCovered (R : Redactor) (text front block : Str) : Prop :=
  ∃ stage ∈ piiStages R (piiPatterns R) (stripMarkers (placed text)), stage.1.1 = .privateKey ∧
    ∃ entry ∈ stage.1.2.finds Symbol.char stage.2,
      piiAccepts .privateKey stage.2 entry.1 entry.2 = true ∧
      beginBlank front ∈ entry.2.taken ∧
      ∀ s ∈ placedFrom front.length block, unmarked s.char = true →
        s ∈ entry.2.taken ∨ HiddenByPattern R (stripMarkers (placed text)) s

instance (R : Redactor) (text front block : Str) : Decidable (BlockCovered R text front block) :=
  inferInstanceAs (Decidable (∃ stage ∈ piiStages R (piiPatterns R) (stripMarkers (placed text)), _))

variable {text front block back : Str}

section

variable (key : PrivateKeyIn text front block back)
include key

theorem PrivateKeyIn.begins :
    ∃ rest, block = str "-----BEGIN " ++ rest := by
  obtain ⟨found, here, rfl⟩ := key.matched
  obtain ⟨matched, -⟩ := Regex.first_eq_some here
  cases matched with
  | @seq _ _ _ _ first second line _ =>
    have letters := Pattern.taken_lit line
    exact ⟨second.taken, congrArg (· ++ _) ((List.map_id _).symm.trans letters)⟩

/-- The blank stands behind an `N` once markers are taken out. -/
theorem PrivateKeyIn.blank_behind : ∃ before behind,
      stripMarkers (placed text) =
        (before ++ [⟨'N', some (front.length + 9)⟩]) ++ beginBlank front :: behind := by
  obtain ⟨rest, begins⟩ := key.begins
  have line : stripMarkers (placedFrom front.length (str "-----BEGIN ")) =
      placedFrom front.length (str "-----BEGI") ++
        [⟨'N', some (front.length + 9)⟩, beginBlank front] := rfl
  rw [key.split, begins, List.append_assoc, placed_append, placedFrom_append, stripMarkers_append,
    stripMarkers_append, line]
  refine ⟨stripMarkers (placed front) ++ placedFrom front.length (str "-----BEGI"),
    stripMarkers (placedFrom (front.length + 11) (rest ++ back)), ?_⟩
  simp only [List.append_assoc, List.cons_append, List.nil_append]
  rfl

theorem PrivateKeyIn.blank_mem :
    beginBlank front ∈ placedFrom front.length block := by
  obtain ⟨rest, rfl⟩ := key.begins
  rw [placedFrom_append]
  exact List.mem_append_left _ (by simp [beginBlank, placedFrom, str])

/-- Whatever hides the blank of a `BEGIN` line is the pattern for private keys. -/
theorem PrivateKeyIn.privateKey_of_hidesIn {R : Redactor} {pattern : PiiType × Regex Char}
    (listed : pattern ∈ piiPatterns R) {now : List Placed}
    (made : Tokenised (stripMarkers (placed text)) now)
    (hides : HidesIn pattern now (beginBlank front)) : pattern.1 = .privateKey := by
  by_contra other
  obtain ⟨before, behind, split⟩ := key.blank_behind
  obtain ⟨left, found, right, prev, whole, member, matched⟩ := hides.exists_match made
  have led := matched.led (blankLed_piiPatterns R pattern listed other)
  obtain ⟨first, last, taken⟩ := List.append_of_mem member
  rcases first.eq_nil_or_concat with rfl | ⟨first, n, rfl⟩
  · exact led.head (beginBlank front) (by rw [taken]; rfl) rfl
  · rw [taken] at whole led
    have neighbours : n.char ≠ 'N' :=
      (List.isChain_append.mp led.chain).2.2 n (by simp) (beginBlank front) rfl rfl
    have same : (before ++ [⟨'N', some (front.length + 9)⟩]) ++ beginBlank front :: behind =
        (left ++ (first ++ [n])) ++ beginBlank front :: (last ++ right) := by
      rw [← split, whole]
      simp
    have nodup : (stripMarkers (placed text)).Nodup := (nodup_placed text).filter _
    rw [split, List.nodup_middle, List.nodup_cons, List.mem_append, not_or] at nodup
    obtain ⟨fronts, -⟩ := (List.append_cons_inj_of_notMem nodup.1.1 nodup.1.2).mp same
    rw [← List.append_assoc] at fronts
    obtain ⟨-, letter⟩ := List.append_inj' fronts rfl
    exact neighbours (by rw [← (List.cons_eq_cons.mp letter).1])

end

end ApiSensor
