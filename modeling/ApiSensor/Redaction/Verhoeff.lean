import ApiSensor.Redaction

/-!
# The Verhoeff check

Every turn of `verhoeff_valid` permutes the check value, different digits give different values, and
neighbours do not commute.  So one wrong digit and one exchange of neighbours are always noticed.
-/

namespace ApiSensor

/-- Decimal digits as a text. -/
def digitText (digits : List (Fin 10)) : Str :=
  digits.map fun digit : Fin 10 => Char.ofNat ('0'.toNat + digit.val)

/-- The check value after the digits from position `i` on, the last digit of the text first. -/
def checkValue (c i : ℕ) (digits : List (Fin 10)) : ℕ :=
  ((digits.map Fin.val).zipIdx i).foldl verhoeffStep c

theorem verhoeffValid_digitText (digits : List (Fin 10)) :
    verhoeffValid (digitText digits) = (checkValue 0 0 digits.reverse == 0) := by
  have value : ∀ digit : Fin 10, digit? 10 (Char.ofNat ('0'.toNat + digit.val)) = some digit.val := by
    decide
  have values : (digitText digits).filterMap (digit? 10) = digits.map Fin.val := by
    rw [digitText, List.filterMap_map, ← List.filterMap_eq_map]
    exact congrArg (digits.filterMap ·) (funext value)
  rw [verhoeffValid, values, checkValue, List.map_reverse]

theorem checkValue_cons (c i : ℕ) (digit : Fin 10) (digits : List (Fin 10)) :
    checkValue c i (digit :: digits) = checkValue (verhoeffStep c (digit, i % 8)) (i + 1) digits := by
  rw [checkValue, List.map_cons, List.zipIdx_cons, List.foldl_cons, verhoeffStep, verhoeffStep,
    Nat.mod_mod]
  rfl

theorem checkValue_append (c i : ℕ) (front back : List (Fin 10)) :
    checkValue c i (front ++ back) = checkValue (checkValue c i front) (i + front.length) back := by
  rw [checkValue, List.map_append, List.zipIdx_append, List.foldl_append, List.length_map,
    Nat.add_comm]
  rfl

/-! ## One turn -/

/-- A digit permutes the check values. -/
theorem verhoeffStep_perm : ∀ i < 8, ∀ digit : Fin 10, ∀ c < 10,
    verhoeffStep c (digit, i) < 10 ∧
      (∀ c' < 10, verhoeffStep c (digit, i) = verhoeffStep c' (digit, i) → c = c') ∧
      ∃ before < 10, verhoeffStep before (digit, i) = c := by
  decide +kernel

/-- Digits are told apart, and neighbours do not commute. -/
theorem verhoeffStep_apart : ∀ c < 10, ∀ i < 8, ∀ digit other : Fin 10,
    (verhoeffStep c (digit, i) = verhoeffStep c (other, i) → digit = other) ∧
      (verhoeffStep (verhoeffStep c (digit, i)) (other, (i + 1) % 8) =
        verhoeffStep (verhoeffStep c (other, i)) (digit, (i + 1) % 8) → digit = other) := by
  decide +kernel

/-! ## Whole texts -/

theorem mod_eight_lt (i : ℕ) : i % 8 < 8 := Nat.mod_lt _ (by decide)

theorem checkValue_lt {c : ℕ} (small : c < 10) (i : ℕ) (digits : List (Fin 10)) :
    checkValue c i digits < 10 := by
  induction digits generalizing c i with
  | nil => exact small
  | cons digit digits induction =>
    rw [checkValue_cons]
    exact induction (verhoeffStep_perm _ (mod_eight_lt i) digit c small).1 _

theorem checkValue_inj {c c' : ℕ} (small : c < 10) (small' : c' < 10) (i : ℕ)
    (digits : List (Fin 10)) (same : checkValue c i digits = checkValue c' i digits) : c = c' := by
  induction digits generalizing c c' i with
  | nil => exact same
  | cons digit digits induction =>
    rw [checkValue_cons, checkValue_cons] at same
    obtain ⟨lt, inj, -⟩ := verhoeffStep_perm _ (mod_eight_lt i) digit c small
    have lt' := (verhoeffStep_perm _ (mod_eight_lt i) digit c' small').1
    exact inj c' small' (induction lt lt' _ same)

theorem checkValue_surj {value : ℕ} (small : value < 10) (i : ℕ) (digits : List (Fin 10)) :
    ∃ c < 10, checkValue c i digits = value := by
  induction digits generalizing i with
  | nil => exact ⟨value, small, rfl⟩
  | cons digit digits induction =>
    obtain ⟨next, next_lt, reaches⟩ := induction (i + 1)
    obtain ⟨c, c_lt, step⟩ := (verhoeffStep_perm _ (mod_eight_lt i) digit next next_lt).2.2
    exact ⟨c, c_lt, by rw [checkValue_cons, step, reaches]⟩

/-- Valid texts that differ in the middle have the same check value behind it. -/
theorem checkValue_middle {front back middle middle' : List (Fin 10)}
    (lengths : middle.length = middle'.length)
    (valid : verhoeffValid (digitText (front ++ (middle ++ back))) = true)
    (valid' : verhoeffValid (digitText (front ++ (middle' ++ back))) = true) :
    ∃ c < 10, checkValue c back.length middle.reverse =
      checkValue c back.length middle'.reverse := by
  have c_lt : checkValue 0 0 back.reverse < 10 := checkValue_lt (by decide) _ _
  refine ⟨_, c_lt, ?_⟩
  rw [verhoeffValid_digitText, beq_iff_eq] at valid valid'
  simp only [List.reverse_append, List.append_assoc, checkValue_append, List.length_reverse,
    Nat.zero_add] at valid valid'
  rw [lengths] at valid
  exact checkValue_inj (checkValue_lt c_lt _ _) (checkValue_lt c_lt _ _) _ _
    (valid.trans valid'.symm)

/-- A wrong digit and an exchange of different neighbours make a valid text invalid, and every text
is made valid by exactly one more digit. -/
theorem verhoeff_detects :
    (∀ (front back : List (Fin 10)) (digit other : Fin 10), digit ≠ other →
      verhoeffValid (digitText (front ++ digit :: back)) = true →
      verhoeffValid (digitText (front ++ other :: back)) = false) ∧
    (∀ (front back : List (Fin 10)) (digit other : Fin 10), digit ≠ other →
      verhoeffValid (digitText (front ++ digit :: other :: back)) = true →
      verhoeffValid (digitText (front ++ other :: digit :: back)) = false) ∧
    ∀ digits : List (Fin 10), ∃! check, verhoeffValid (digitText (digits ++ [check])) = true := by
  refine ⟨fun front back digit other differ valid => ?_, fun front back digit other differ valid => ?_,
    fun digits => ?_⟩
  · rw [Bool.eq_false_iff]
    intro valid'
    obtain ⟨c, small, same⟩ := @checkValue_middle front back [digit] [other] rfl valid valid'
    rw [List.reverse_singleton, List.reverse_singleton, checkValue_cons, checkValue_cons] at same
    exact differ ((verhoeffStep_apart c small _ (mod_eight_lt _) _ _).1 same)
  · rw [Bool.eq_false_iff]
    intro valid'
    obtain ⟨c, small, same⟩ :=
      @checkValue_middle front back [digit, other] [other, digit] rfl valid valid'
    simp only [List.reverse_cons, List.reverse_nil, List.nil_append, List.cons_append,
      checkValue_cons] at same
    rw [← Nat.mod_add_mod] at same
    exact differ ((verhoeffStep_apart c small _ (mod_eight_lt _) _ _).2 same).symm
  · have first : ∀ check : Fin 10, verhoeffStep 0 (check, 0) = check := by decide
    have valid_iff : ∀ check : Fin 10, verhoeffValid (digitText (digits ++ [check])) = true ↔
        checkValue check 1 digits.reverse = 0 := by
      intro check
      rw [verhoeffValid_digitText, beq_iff_eq, List.reverse_append, List.reverse_singleton,
        List.singleton_append, checkValue_cons]
      exact iff_of_eq (congrArg (checkValue · 1 _ = 0) (first check))
    obtain ⟨check, small, valid⟩ := checkValue_surj (by decide : 0 < 10) 1 digits.reverse
    refine ⟨⟨check, small⟩, (valid_iff _).mpr valid, fun other valid' => Fin.ext ?_⟩
    exact checkValue_inj other.isLt small _ _ (((valid_iff _).mp valid').trans valid.symm)

end ApiSensor
